import LibrtbitDht.BucketTreeShape

set_option autoImplicit false

namespace LibrtbitDht
open AlignedBlock
namespace BucketTree

variable {t : BucketTree} {selfId : Id20}

section Descending

theorem Inv.getLeafLoop_spec (h : t.Inv selfId) (id : Id20) (fuel i : ℕ) {n : BucketTreeNode} {b : Block}
    (hn : t.data[i]? = some n) (hb : n.Covers b) (hid : b.Mem id.toNat) (hf : t.data.length - i ≤ fuel) :
    ∃ j m bucket c, t.getLeafLoop id fuel i = .ok j ∧ t.LeafAt j m bucket c ∧ c.Mem id.toNat := by
  induction fuel generalizing i n b with
  | zero =>
    have := lt_length hn
    omega
  | succ fuel ih =>
    rcases h.cases hn with ⟨bucket, c, hl, _⟩ | ⟨l, r, nl, nr, c, hbr, hbits, _⟩
    · obtain rfl := hl.covers.unique hb
      exact ⟨i, n, bucket, c, by simp [getLeafLoop, hn, hl.data], hl, hid⟩
    · obtain rfl := hbr.covers.unique hb
      obtain ⟨hil, hir⟩ := hbr.below
      have hstep : t.getLeafLoop id (fuel + 1) i =
          if nl.start ≤ id ∧ id ≤ nl.endInclusive then t.getLeafLoop id fuel l
          else t.getLeafLoop id fuel r := by
        simp [getLeafLoop, hn, hbr.data, hbr.left]
      rw [hstep]
      by_cases hin : nl.start ≤ id ∧ id ≤ nl.endInclusive
      · rw [if_pos hin]
        exact ih l hbr.left hbr.coversLeft ((hbr.coversLeft.mem_iff id).1 hin) (by omega)
      · rw [if_neg hin]
        have hright : c.right.Mem id.toNat :=
          ((c.mem_halves (by omega) id.toNat).1 hid).resolve_left
            fun hm => hin ((hbr.coversLeft.mem_iff id).2 hm)
        exact ih r hbr.right hbr.coversRight hright (by omega)

theorem mem_whole (x : Id20) : Block.Mem ⟨0, 160⟩ x.toNat := by
  have := x.isLt
  simp [Block.Mem, Block.start, Block.last]
  omega

theorem Inv.getLeaf_spec (h : t.Inv selfId) (id : Id20) :
    ∃ i n bucket b, t.getLeaf id = .ok i ∧ t.LeafAt i n bucket b ∧ b.Mem id.toNat := by
  obtain ⟨root, hroot, hcov⟩ := h.root
  exact h.getLeafLoop_spec id _ 0 hroot hcov (mem_whole id) (by omega)

end Descending

section Stored

theorem mem_nodes_iff {n : BucketTreeNode} {x : RoutingTableNode} :
    x ∈ n.nodes ↔ ∃ bucket, n.data = .leaf bucket ∧ x ∈ bucket.nodes := by
  cases hd : n.data <;> simp [BucketTreeNode.nodes, hd]

theorem mem_stored_iff {x : RoutingTableNode} : x ∈ t.stored ↔
    ∃ (i : ℕ) (n : BucketTreeNode) (bucket : LeafBucket),
      t.data[i]? = some n ∧ n.data = .leaf bucket ∧ x ∈ bucket.nodes := by
  rw [stored, List.mem_flatMap]
  constructor
  · rintro ⟨n, hn, hx⟩
    obtain ⟨bucket, hd, hx⟩ := mem_nodes_iff.1 hx
    obtain ⟨i, hi⟩ := List.mem_iff_getElem?.1 hn
    exact ⟨i, n, bucket, hi, hd, hx⟩
  · rintro ⟨i, n, bucket, hi, hd, hx⟩
    exact ⟨n, List.mem_iff_getElem?.2 ⟨i, hi⟩, mem_nodes_iff.2 ⟨bucket, hd, hx⟩⟩

theorem Inv.mem_leaf_of_stored (h : t.Inv selfId) {i : ℕ} {n : BucketTreeNode} {bucket : LeafBucket}
    {b : Block} (hl : t.LeafAt i n bucket b) {x : RoutingTableNode} (hx : x ∈ t.stored)
    (hb : b.Mem x.id.toNat) : x ∈ bucket.nodes := by
  obtain ⟨j, m, bm, hj, hd, hm⟩ := mem_stored_iff.1 hx
  obtain ⟨c, hc, fits⟩ := h.leaf j m bm hj hd
  obtain rfl := h.leaf_unique hl hc hb (fits.inside x hm)
  obtain rfl := Option.some.inj (hl.node.symm.trans hj)
  cases hl.data.symm.trans hd
  exact hm

theorem LeafAt.mem_stored {i : ℕ} {n : BucketTreeNode} {bucket : LeafBucket} {b : Block}
    (hl : t.LeafAt i n bucket b) {x : RoutingTableNode} (hx : x ∈ bucket.nodes) : x ∈ t.stored :=
  mem_stored_iff.2 ⟨i, n, bucket, hl.node, hl.data, hx⟩

def nodesAt (t : BucketTree) (i : ℕ) : List RoutingTableNode := (t.data[i]?).elim [] BucketTreeNode.nodes

theorem flatMap_range_getElem? {α β : Type} (xs : List α) (f : α → List β) :
    (List.range xs.length).flatMap (fun i => (xs[i]?).elim [] f) = xs.flatMap f := by
  induction xs using List.reverseRecOn with
  | nil => rfl
  | append_singleton xs x ih =>
    rw [List.length_append, List.length_singleton, List.range_succ, List.flatMap_append,
      List.flatMap_append, ← ih]
    congr 1
    · refine List.flatMap_congr fun i hi => ?_
      rw [List.getElem?_append_left (List.mem_range.1 hi)]
    · simp

theorem stored_eq_range : t.stored = (List.range t.data.length).flatMap t.nodesAt :=
  (flatMap_range_getElem? t.data BucketTreeNode.nodes).symm

theorem Inv.flatMap_leaves_perm (h : t.Inv selfId) {xs : List ℕ} (hx : t.InOrder 0 xs) :
    (xs.flatMap t.nodesAt).Perm t.stored := by
  obtain ⟨root, hroot, hcov⟩ := h.root
  have hin := (h.inOrder_block hx hroot hcov).1
  have hsplit := List.filter_append_perm (fun i => decide (i ∈ xs)) (List.range t.data.length)
  have hxs : ((List.range t.data.length).filter (fun i => decide (i ∈ xs))).Perm xs := by
    refine (List.perm_ext_iff_of_nodup (List.nodup_range.filter _) (h.inOrder_nodup hx hroot hcov)).2 ?_
    intro i
    simp only [List.mem_filter, List.mem_range, decide_eq_true_eq]
    refine ⟨And.right, fun hi => ⟨?_, hi⟩⟩
    obtain ⟨m, _, c, hc, _, _⟩ := hin i hi
    exact lt_length hc.node
  have hrest : ((List.range t.data.length).filter (fun i => !decide (i ∈ xs))).flatMap t.nodesAt = [] := by
    rw [List.flatMap_eq_nil_iff]
    intro i hi
    obtain ⟨hlt, hi⟩ : i < t.data.length ∧ i ∉ xs := by simpa using hi
    obtain ⟨n, hn⟩ : ∃ n, t.data[i]? = some n := ⟨_, List.getElem?_eq_getElem hlt⟩
    rcases h.cases hn with ⟨bucket, b, hl, _⟩ | ⟨l, r, nl, nr, b, hbr, _, _⟩
    · exact absurd (h.leaf_mem_inOrder hx hl) hi
    · simp [nodesAt, hn, BucketTreeNode.nodes, hbr.data]
  have hperm := hsplit.flatMap_right t.nodesAt
  rw [List.flatMap_append, hrest, List.append_nil, ← stored_eq_range] at hperm
  exact (hxs.flatMap_right t.nodesAt).symm.trans hperm

end Stored

section Iterating

def ItemAt (t : BucketTree) (j : ℕ) (item : BucketTreeIteratorItem) : Prop :=
  t.data[j]? = some ⟨item.bits, item.start, item.endInclusive, .leaf item.leaf⟩

/-- The leaves that a stack of pending indices still yields. -/
inductive Pending (t : BucketTree) : List ℕ → List ℕ → Prop where
  | nil : Pending t [] []
  | cons {i : ℕ} {queue xs ys : List ℕ} (top : t.InOrder i xs) (rest : Pending t queue ys) :
      Pending t (i :: queue) (xs ++ ys)

theorem Inv.next_spec (h : t.Inv selfId) (fuel i : ℕ) (queue zs : List ℕ)
    (hp : t.Pending (i :: queue) zs) (hf : t.data.length - i ≤ fuel) :
    ∃ j js item rest, zs = j :: js ∧ t.next fuel (i :: queue) = .ok (some (item, rest)) ∧
      t.ItemAt j item ∧ t.Pending rest js := by
  induction fuel generalizing i queue zs with
  | zero =>
    cases hp with
    | cons top rest =>
      have : i < t.data.length := by
        cases top with
        | leaf node _ => exact lt_length node
        | branch node _ _ _ => exact lt_length node
      omega
  | succ fuel ih =>
    cases hp with
    | cons top rest =>
      cases top with
      | @leaf _ n bucket node data =>
        refine ⟨i, _, ⟨n.bits, n.start, n.endInclusive, bucket⟩, queue, rfl, ?_, ?_, rest⟩
        · simp [next, node, data]
        · rw [ItemAt, node, ← data]
      | @branch _ l r n xs ys node data left right =>
        obtain ⟨nl, nr, b, hbr, _, _⟩ := h.branch i n l r node data
        have hstep : t.next (fuel + 1) (i :: queue) = t.next fuel (l :: r :: queue) := by
          simp [next, node, data]
        rw [hstep, List.append_assoc]
        exact ih l (r :: queue) _ (.cons left (.cons right rest)) (by have := hbr.below; omega)

theorem Inv.drain_spec (h : t.Inv selfId) (fuel : ℕ) (queue zs : List ℕ) (hp : t.Pending queue zs)
    (hf : zs.length < fuel) :
    ∃ items, t.drain fuel queue = .ok items ∧ List.Forall₂ t.ItemAt zs items := by
  induction fuel generalizing queue zs with
  | zero => omega
  | succ fuel ih =>
    cases queue with
    | nil =>
      cases hp
      exact ⟨[], by simp [drain, next], .nil⟩
    | cons i queue =>
      obtain ⟨j, js, item, rest, rfl, hnext, hitem, hrest⟩ :=
        h.next_spec (t.data.length + (i :: queue).length) i queue zs hp (by omega)
      obtain ⟨items, hitems, hall⟩ := ih rest js hrest (by simpa using hf)
      refine ⟨item :: items, ?_, .cons hitem hall⟩
      rw [drain, hnext]
      change (do let items ← t.drain fuel rest; return item :: items) = _
      rw [hitems]
      rfl

theorem Inv.iterLeaves_spec (h : t.Inv selfId) :
    ∃ zs items, t.InOrder 0 zs ∧ t.iterLeaves = .ok items ∧ List.Forall₂ t.ItemAt zs items := by
  obtain ⟨root, hroot, hcov⟩ := h.root
  obtain ⟨zs, hzs⟩ := h.exists_inOrder 0 (lt_length hroot)
  have hlen : zs.length ≤ t.data.length := by
    have hsub : zs ⊆ List.range t.data.length := by
      intro j hj
      obtain ⟨_, _, _, hc, _, _⟩ := (h.inOrder_block hzs hroot hcov).1 j hj
      exact List.mem_range.2 (lt_length hc.node)
    have := ((h.inOrder_nodup hzs hroot hcov).subperm hsub).length_le
    rwa [List.length_range] at this
  have hp : t.Pending [0] zs := by simpa using Pending.cons hzs .nil
  obtain ⟨items, hitems, hall⟩ := h.drain_spec (t.data.length + 1) [0] zs hp (by omega)
  exact ⟨zs, items, hzs, hitems, hall⟩

theorem flatMap_items {zs : List ℕ} {items : List BucketTreeIteratorItem}
    (h : List.Forall₂ t.ItemAt zs items) :
    items.flatMap (fun item => item.leaf.nodes) = zs.flatMap t.nodesAt := by
  induction h with
  | nil => rfl
  | cons hitem _ ih =>
    rw [ItemAt] at hitem
    simp [ih, nodesAt, hitem, BucketTreeNode.nodes]

/-- `iter` yields the stored entries in strictly ascending order of their identifiers. -/
theorem Inv.iter_spec (h : t.Inv selfId) :
    ∃ nodes, t.iter = .ok nodes ∧ nodes.Perm t.stored ∧ nodes.Pairwise (fun x y => x.id < y.id) := by
  obtain ⟨zs, items, hzs, hitems, hall⟩ := h.iterLeaves_spec
  obtain ⟨root, hroot, hcov⟩ := h.root
  refine ⟨items.flatMap (fun item => item.leaf.nodes), ?_, ?_, ?_⟩
  · rw [iter, hitems]
    rfl
  · rw [flatMap_items hall]
    exact h.flatMap_leaves_perm hzs
  · rw [flatMap_items hall, List.pairwise_flatMap]
    have hin := (h.inOrder_block hzs hroot hcov).1
    have hat : ∀ j ∈ zs, ∃ m bucket c, t.LeafAt j m bucket c ∧ t.nodesAt j = bucket.nodes ∧
        LeafBucket.Fits bucket.nodes c := by
      intro j hj
      obtain ⟨m, bucket, c, hc, _, _⟩ := hin j hj
      obtain ⟨d, hd, fits⟩ := h.leaf j m bucket hc.node hc.data
      obtain rfl := hd.covers.unique hc.covers
      exact ⟨m, bucket, d, hc, by simp [nodesAt, hc.node, BucketTreeNode.nodes, hc.data], fits⟩
    constructor
    · intro j hj
      obtain ⟨_, bucket, _, _, hnodes, fits⟩ := hat j hj
      rw [hnodes]
      exact fits.sorted
    · refine List.Pairwise.imp_of_mem ?_ (h.inOrder_ascending hzs)
      intro j k hj hk hbefore x hx y hy
      obtain ⟨m, bm, c, hc, hm, fm⟩ := hat j hj
      obtain ⟨n, bn, d, hd, hn, fn⟩ := hat k hk
      rw [hm] at hx
      rw [hn] at hy
      have hlt := hbefore m n hc.node hd.node
      have hxc := (fm.inside x hx).2
      have hyd := (fn.inside y hy).1
      rw [BitVec.lt_def, hc.covers.last, hd.covers.start] at hlt
      rw [BitVec.lt_def]
      omega

end Iterating
end BucketTree
end LibrtbitDht
