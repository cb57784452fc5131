import LibrtbitDht.RoutingTable

set_option autoImplicit false

namespace LibrtbitDht
open AlignedBlock TransitionRuns

/-- Node `n` covers the aligned `2 ^ bits` identifiers from its start on. -/
structure BucketTreeNode.IsBlock (n : BucketTreeNode) : Prop where
  aligned : n.start.toNat % 2 ^ n.bits = 0
  last : n.endInclusive.toNat + 1 = n.start.toNat + 2 ^ n.bits

/-- The ranges of two nodes are the two halves of the range of a third. -/
structure BucketTreeNode.Halves (n left right : BucketTreeNode) : Prop where
  bits : n.bits = left.bits + 1 ∧ n.bits = right.bits + 1
  first : left.start = n.start
  middle : left.endInclusive.toNat + 1 = right.start.toNat ∧
    right.start.toNat = n.start.toNat + 2 ^ left.bits
  last : right.endInclusive = n.endInclusive

def BucketTreeNode.InRange (n : BucketTreeNode) (id : Id20) : Prop := n.start ≤ id ∧ id ≤ n.endInclusive

namespace BucketTree

def IsLeaf (t : BucketTree) (i : ℕ) (n : BucketTreeNode) (bucket : LeafBucket) : Prop :=
  t.data[i]? = some n ∧ n.data = .leaf bucket

structure Representation (t : BucketTree) : Prop where
  root : ∃ n, t.data[0]? = some n ∧ n.start.toNat = 0 ∧ n.endInclusive.toNat = 2 ^ 160 - 1
  children : ∀ (i : ℕ) (n : BucketTreeNode) (l r : ℕ), t.data[i]? = some n → n.data = .leftRight l r →
    i < l ∧ i < r ∧ l ≠ r ∧
      ∃ left right : BucketTreeNode, t.data[l]? = some left ∧ t.data[r]? = some right ∧ n.Halves left right
  parent : ∀ j, 0 < j → j < t.data.length → ∃! i, t.IsChild i j
  block : ∀ (i : ℕ) (n : BucketTreeNode), t.data[i]? = some n → n.IsBlock
  leaf : ∀ i n bucket, t.IsLeaf i n bucket →
    bucket.nodes.length ≤ 8 ∧ (∀ x ∈ bucket.nodes, n.InRange x.id) ∧
      bucket.nodes.Pairwise (fun x y => x.id < y.id)

def Partition (t : BucketTree) : Prop :=
  ∀ id : Id20, ∃! i, ∃ n bucket, t.IsLeaf i n bucket ∧ n.InRange id

/-- The iterator ends after yielding every leaf once, in ascending order of the ranges. -/
def VisitsLeaves (t : BucketTree) : Prop :=
  ∃ (leaves : List ℕ) (items : List BucketTreeIteratorItem), t.iterLeaves = .ok items ∧
    List.Forall₂ t.ItemAt leaves items ∧ leaves.Nodup ∧
    (∀ i, i ∈ leaves ↔ ∃ n bucket, t.IsLeaf i n bucket) ∧
    items.Pairwise (fun x y => x.endInclusive < y.start)

/-- `iter` yields what the leaves hold, in strictly ascending order, and `getLeaf` reaches all of it. -/
def YieldsStored (t : BucketTree) : Prop :=
  ∃ nodes, t.iter = .ok nodes ∧ nodes.Pairwise (fun x y => x.id < y.id) ∧
    (∀ x, x ∈ nodes ↔ ∃ i n bucket, t.IsLeaf i n bucket ∧ x ∈ bucket.nodes) ∧
    ∀ x ∈ nodes, ∃ i n bucket, t.getLeaf x.id = .ok i ∧ t.IsLeaf i n bucket ∧ x ∈ bucket.nodes

theorem forall₂_mem_right {α β : Type} {R : α → β → Prop} {xs : List α} {ys : List β}
    (h : List.Forall₂ R xs ys) {y : β} (hy : y ∈ ys) : ∃ x ∈ xs, R x y := by
  induction h with
  | nil => simp at hy
  | cons hr _ ih =>
    rcases List.mem_cons.1 hy with rfl | hy
    · exact ⟨_, List.mem_cons_self, hr⟩
    · obtain ⟨x, hx, hxy⟩ := ih hy
      exact ⟨x, List.mem_cons_of_mem _ hx, hxy⟩

variable {t : BucketTree} {selfId : Id20}

theorem halves_of_covers {n left right : BucketTreeNode} {b : Block} (hn : n.Covers b)
    (hl : left.Covers b.left) (hr : right.Covers b.right) (hpos : 0 < b.bits) : n.Halves left right := by
  have hnb := hn.bits
  have hlb : b.bits - 1 = left.bits := hl.bits
  have hrb : b.bits - 1 = right.bits := hr.bits
  refine ⟨by omega, ?_, ⟨?_, ?_⟩, ?_⟩
  · exact BitVec.eq_of_toNat_eq (by rw [hl.start, hn.start, b.left_start hpos])
  · rw [hl.last, hr.start, b.left_last_succ hpos]
  · rw [hr.start, hn.start, b.right_start hpos, hlb]
  · exact BitVec.eq_of_toNat_eq (by rw [hr.last, hn.last, b.right_last hpos])

theorem isBlock_of_covers {n : BucketTreeNode} {b : Block} (hn : n.Covers b) : n.IsBlock := by
  refine ⟨?_, ?_⟩
  · rw [hn.start, ← hn.bits, b.start_aligned]
  · rw [hn.start, hn.last, ← hn.bits, b.last_succ]

theorem Inv.representation (h : t.Inv selfId) : t.Representation where
  root := by
    obtain ⟨n, hn, hcov⟩ := h.root
    exact ⟨n, hn, by rw [hcov.start]; rfl, by rw [hcov.last]; rfl⟩
  children i n l r hi hd := by
    obtain ⟨nl, nr, b, hb, hbits, _⟩ := h.branch i n l r hi hd
    have hhalves := halves_of_covers hb.covers hb.coversLeft hb.coversRight (by omega)
    refine ⟨hb.below.1, hb.below.2, ?_, nl, nr, hb.left, hb.right, hhalves⟩
    rintro rfl
    obtain rfl := Option.some.inj (hb.left.symm.trans hb.right)
    have hmid := hhalves.middle
    have hlt : nl.start.toNat ≤ nl.endInclusive.toNat := by
      rw [hb.coversLeft.start, hb.coversLeft.last]
      exact Block.start_le_last _
    omega
  parent := h.parent
  block i n hi := by
    rcases h.cases hi with ⟨bucket, b, hl, _⟩ | ⟨l, r, nl, nr, b, hb, _, _⟩
    · exact isBlock_of_covers hl.covers
    · exact isBlock_of_covers hb.covers
  leaf i n bucket hl := by
    obtain ⟨b, hb, fits⟩ := h.leaf i n bucket hl.1 hl.2
    exact ⟨fits.length, fun x hx => (hb.covers.mem_iff x.id).2 (fits.inside x hx), fits.sorted⟩

theorem Inv.partition (h : t.Inv selfId) : t.Partition := by
  intro id
  obtain ⟨i, n, bucket, b, _, hl, hid⟩ := h.getLeaf_spec id
  refine ⟨i, ⟨n, bucket, ⟨hl.node, hl.data⟩, (hl.covers.mem_iff id).2 hid⟩, ?_⟩
  rintro j ⟨m, bm, ⟨hm, hd⟩, hin⟩
  obtain ⟨c, hc, _⟩ := h.leaf j m bm hm hd
  exact h.leaf_unique hc hl ((hc.covers.mem_iff id).1 hin) hid

theorem Inv.visitsLeaves (h : t.Inv selfId) : t.VisitsLeaves := by
  obtain ⟨leaves, items, horder, hrun, hall⟩ := h.iterLeaves_spec
  obtain ⟨root, hroot, hcov⟩ := h.root
  refine ⟨leaves, items, hrun, hall, h.inOrder_nodup horder hroot hcov, ?_, ?_⟩
  · intro i
    constructor
    · intro hi
      obtain ⟨m, bucket, _, hc, _, _⟩ := (h.inOrder_block horder hroot hcov).1 i hi
      exact ⟨m, bucket, hc.node, hc.data⟩
    · rintro ⟨m, bucket, hm, hd⟩
      obtain ⟨b, hb, _⟩ := h.leaf i m bucket hm hd
      exact h.leaf_mem_inOrder horder hb
  · have hasc := h.inOrder_ascending horder
    clear horder hrun
    induction hall with
    | nil => exact .nil
    | @cons i item is items hitem hrest ih =>
      rw [List.pairwise_cons] at hasc ⊢
      refine ⟨?_, ih hasc.2⟩
      intro other hother
      obtain ⟨j, hj, hat⟩ := forall₂_mem_right hrest hother
      exact hasc.1 j hj _ _ hitem hat

theorem Inv.yieldsStored (h : t.Inv selfId) : t.YieldsStored := by
  obtain ⟨nodes, hrun, hperm, hsorted⟩ := h.iter_spec
  have hmem : ∀ x, x ∈ nodes ↔ ∃ i n bucket, t.IsLeaf i n bucket ∧ x ∈ bucket.nodes := by
    intro x
    rw [hperm.mem_iff, mem_stored_iff]
    simp only [IsLeaf, and_assoc]
  refine ⟨nodes, hrun, hsorted, hmem, ?_⟩
  intro x hx
  obtain ⟨i, n, bucket, b, hget, hl, hid⟩ := h.getLeaf_spec x.id
  exact ⟨i, n, bucket, hget, ⟨hl.node, hl.data⟩, h.mem_leaf_of_stored hl (hperm.mem_iff.1 hx) hid⟩

end BucketTree

namespace RoutingTable

/-- Every history of a new table returns, and its tree represents the identifier space. -/
theorem history_representation (selfId : Id20) (maxSize : Option ℕ) (clock : Instant) (ops : List Op) :
    ∃ rt, (new selfId maxSize clock).run ops = .ok rt ∧ rt.buckets.Representation ∧
      rt.buckets.Partition ∧ rt.buckets.VisitsLeaves ∧ rt.buckets.YieldsStored := by
  obtain ⟨rt, hrun, inv⟩ := exists_reaches selfId maxSize clock ops
  exact ⟨rt, reaches_iff_run.1 hrun, inv.representation, inv.partition, inv.visitsLeaves, inv.yieldsStored⟩

end RoutingTable
end LibrtbitDht
