import LibrtbitDht.TreeRepresentation

set_option autoImplicit false

namespace LibrtbitDht
open AlignedBlock TransitionRuns

namespace BucketTreeNode

def children (n : BucketTreeNode) : List ℕ :=
  match n.data with
  | .leaf _ => []
  | .leftRight left right => [left, right]

def isLeftRight (n : BucketTreeNode) : Bool :=
  match n.data with
  | .leaf _ => false
  | .leftRight _ _ => true

theorem isLeftRight_iff (n : BucketTreeNode) : n.isLeftRight = true ↔ ∃ l r, n.data = .leftRight l r := by
  unfold isLeftRight
  cases n.data <;> simp

theorem children_length (n : BucketTreeNode) : n.children.length = 2 * if n.isLeftRight then 1 else 0 := by
  unfold children isLeftRight
  cases n.data <;> rfl

theorem mem_children (n : BucketTreeNode) (j : ℕ) :
    j ∈ n.children ↔ ∃ l r, n.data = .leftRight l r ∧ (j = l ∨ j = r) := by
  unfold children
  cases n.data <;> simp

end BucketTreeNode

namespace BucketTree
variable {t : BucketTree} {selfId : Id20}

/-- The branches are around our own identifier and of different widths; the arena is small. -/
structure BoundedArena (t : BucketTree) (selfId : Id20) : Prop where
  path : ∀ n ∈ t.data, n.isLeftRight = true → n.InRange selfId ∧ 4 ≤ n.bits ∧ n.bits ≤ 160
  widths : ∀ (i j : ℕ) (m n : BucketTreeNode), t.data[i]? = some m → t.data[j]? = some n → m.isLeftRight = true →
    n.isLeftRight = true → m.bits = n.bits → i = j
  odd : Odd t.data.length
  length : t.data.length ≤ 315

section Path

theorem Inv.branchAt (h : t.Inv selfId) {i : ℕ} {n : BucketTreeNode} (hn : t.data[i]? = some n)
    (hbranch : n.isLeftRight = true) :
    ∃ l r nl nr b, t.BranchAt i l r n nl nr b ∧ 4 ≤ b.bits ∧ b.Mem selfId.toNat := by
  obtain ⟨l, r, hd⟩ := n.isLeftRight_iff.1 hbranch
  exact ⟨l, r, h.branch i n l r hn hd⟩

theorem BranchAt.child_unique {p l r i j : ℕ} {n nl nr m m' : BucketTreeNode} {b c c' : Block}
    (h : t.BranchAt p l r n nl nr b) (hbits : 0 < b.bits) (hi : i = l ∨ i = r) (hj : j = l ∨ j = r)
    (hm : t.data[i]? = some m) (hm' : t.data[j]? = some m') (hc : m.Covers c) (hc' : m'.Covers c') {x : ℕ}
    (hx : c.Mem x) (hx' : c'.Mem x) : i = j := by
  have hblock : ∀ {k : ℕ} {m : BucketTreeNode} {c : Block}, k = l ∨ k = r → t.data[k]? = some m → m.Covers c →
      (k = l ∧ c = b.left) ∨ (k = r ∧ c = b.right) := by
    intro k m c hk hm hc
    rcases hk with rfl | rfl
    · obtain rfl := Option.some.inj (hm.symm.trans h.left)
      exact .inl ⟨rfl, hc.unique h.coversLeft⟩
    · obtain rfl := Option.some.inj (hm.symm.trans h.right)
      exact .inr ⟨rfl, hc.unique h.coversRight⟩
  rcases hblock hi hm hc with ⟨rfl, rfl⟩ | ⟨rfl, rfl⟩
  · rcases hblock hj hm' hc' with ⟨rfl, rfl⟩ | ⟨rfl, rfl⟩
    · rfl
    · exact absurd ⟨hx, hx'⟩ (b.halves_disjoint hbits x)
  · rcases hblock hj hm' hc' with ⟨rfl, rfl⟩ | ⟨rfl, rfl⟩
    · exact absurd ⟨hx', hx⟩ (b.halves_disjoint hbits x)
    · rfl

theorem Inv.parentOf (h : t.Inv selfId) {j : ℕ} (hpos : 0 < j) {n : BucketTreeNode} {b : Block}
    (hn : t.data[j]? = some n) (hb : n.Covers b) :
    ∃ p l r m nl nr c, p < j ∧ (j = l ∨ j = r) ∧ t.BranchAt p l r m nl nr c ∧ c.Mem selfId.toNat ∧
      c.bits = b.bits + 1 := by
  obtain ⟨p, ⟨m, l, r, hm, hd, hlr⟩, _⟩ := h.parent j hpos (lt_length hn)
  obtain ⟨nl, nr, c, hbr, hbits, hself⟩ := h.branch p m l r hm hd
  refine ⟨p, l, r, m, nl, nr, c, ?_, hlr, hbr, hself, ?_⟩
  · rcases hlr with rfl | rfl
    · exact hbr.below.1
    · exact hbr.below.2
  · rcases hlr with rfl | rfl
    · obtain rfl := Option.some.inj (hn.symm.trans hbr.left)
      rw [hb.unique hbr.coversLeft]
      exact (Nat.sub_add_cancel (by omega)).symm
    · obtain rfl := Option.some.inj (hn.symm.trans hbr.right)
      rw [hb.unique hbr.coversRight]
      exact (Nat.sub_add_cancel (by omega)).symm

/-- Two nodes around our own identifier that are as wide as each other are the same node. -/
theorem Inv.path_unique (h : t.Inv selfId) (i : ℕ) {j : ℕ} {m n : BucketTreeNode} {b c : Block}
    (hm : t.data[i]? = some m) (hn : t.data[j]? = some n) (hb : m.Covers b) (hc : n.Covers c)
    (hself : b.Mem selfId.toNat) (hself' : c.Mem selfId.toNat) (hbits : b.bits = c.bits) : i = j := by
  have hroot : ∀ {k : ℕ} {m : BucketTreeNode} {b : Block}, t.data[k]? = some m → m.Covers b → b.bits = 160 → k = 0 := by
    intro k m b hm hb hwide
    by_contra hne
    obtain ⟨_, _, _, _, _, _, p, _, _, hbr, _, hhalf⟩ := h.parentOf (Nat.pos_of_ne_zero hne) hm hb
    have hle := hbr.covers.bits_le
    omega
  induction i using Nat.strong_induction_on generalizing j m n b c with
  | _ i ih =>
    obtain ⟨root, hzero, hcov⟩ := h.root
    rcases Nat.eq_zero_or_pos i with rfl | hi
    · obtain rfl := Option.some.inj (hm.symm.trans hzero)
      rw [hb.unique hcov] at hbits
      exact (hroot hn hc hbits.symm).symm
    rcases Nat.eq_zero_or_pos j with rfl | hj
    · obtain rfl := Option.some.inj (hn.symm.trans hzero)
      rw [hc.unique hcov] at hbits
      exact hroot hm hb hbits
    obtain ⟨p, l, r, mp, nl, nr, d, hlt, hlr, hbr, hdself, hd⟩ := h.parentOf hi hm hb
    obtain ⟨q, l', r', mq, nl', nr', e, _, hlr', hbr', heself, he⟩ := h.parentOf hj hn hc
    obtain rfl := ih p hlt hbr.node hbr'.node hbr.covers hbr'.covers hdself heself (by omega)
    obtain rfl := Option.some.inj (hbr.node.symm.trans hbr'.node)
    have hdata := hbr.data.symm.trans hbr'.data
    cases hdata
    exact hbr.child_unique (by omega) hlr hlr' hm hn hb hc hself hself'

end Path

section Count

theorem children_length_sum (data : List BucketTreeNode) :
    (data.flatMap BucketTreeNode.children).length = 2 * (data.filter BucketTreeNode.isLeftRight).length := by
  induction data with
  | nil => rfl
  | cons n data ih =>
    rw [List.flatMap_cons, List.length_append, ih, BucketTreeNode.children_length, List.filter_cons]
    split_ifs
    · rw [List.length_cons]
      omega
    · omega

theorem Inv.child_bounds (h : t.Inv selfId) {p j : ℕ} (hchild : t.IsChild p j) : 0 < j ∧ j < t.data.length := by
  obtain ⟨n, l, r, hn, hd, hlr⟩ := hchild
  obtain ⟨nl, nr, b, hbr, _, _⟩ := h.branch p n l r hn hd
  have hbelow := hbr.below
  have hl := lt_length hbr.left
  have hr := lt_length hbr.right
  omega

/-- Apart from the root, the indices are the children of the branches, each of them once. -/
theorem Inv.children_perm (h : t.Inv selfId) :
    (t.data.flatMap BucketTreeNode.children).Perm (List.range' 1 (t.data.length - 1)) := by
  rw [List.perm_ext_iff_of_nodup _ List.nodup_range']
  · intro j
    rw [List.mem_flatMap, List.mem_range'_1]
    constructor
    · rintro ⟨n, hn, hj⟩
      obtain ⟨i, hi⟩ := List.mem_iff_getElem?.1 hn
      obtain ⟨l, r, hd, hlr⟩ := (n.mem_children j).1 hj
      have hbounds := h.child_bounds ⟨n, l, r, hi, hd, hlr⟩
      omega
    · intro hj
      obtain ⟨i, ⟨n, l, r, hn, hd, hlr⟩, _⟩ := h.parent j (by omega) (by omega)
      exact ⟨n, List.mem_of_getElem? hn, (n.mem_children j).2 ⟨l, r, hd, hlr⟩⟩
  · rw [List.nodup_flatMap]
    constructor
    · intro n hn
      obtain ⟨i, hi⟩ := List.mem_iff_getElem?.1 hn
      unfold BucketTreeNode.children
      split
      next => exact List.nodup_nil
      next l r hd =>
        obtain ⟨_, _, hne, _⟩ := h.representation.children i n l r hi hd
        simpa using hne
    · rw [List.pairwise_iff_getElem]
      intro i k hi hk hlt j hj hj'
      -- an index has one parent only
      have hchild : ∀ (p : ℕ) (hp : p < t.data.length), j ∈ (t.data[p]).children → t.IsChild p j := by
        intro p hp hjp
        obtain ⟨l, r, hd, hlr⟩ := (BucketTreeNode.mem_children _ j).1 hjp
        exact ⟨t.data[p], l, r, List.getElem?_eq_getElem hp, hd, hlr⟩
      obtain ⟨hpos, hlt'⟩ := h.child_bounds (hchild i hi hj)
      have hsame := (h.parent j hpos hlt').unique (hchild i hi hj) (hchild k hk hj')
      omega

theorem Inv.widths_nodup (h : t.Inv selfId) :
    ((t.data.filter BucketTreeNode.isLeftRight).map BucketTreeNode.bits).Nodup := by
  rw [List.Nodup, List.pairwise_map, List.pairwise_filter, List.pairwise_iff_getElem]
  intro i j hi hj hlt hm hn hbits
  obtain ⟨_, _, _, _, b, hb, _, hself⟩ := h.branchAt (List.getElem?_eq_getElem hi) hm
  obtain ⟨_, _, _, _, c, hc, _, hself'⟩ := h.branchAt (List.getElem?_eq_getElem hj) hn
  have hsame := h.path_unique i hb.node hc.node hb.covers hc.covers hself hself'
    (by rw [hb.covers.bits, hc.covers.bits, hbits])
  omega

theorem Inv.branches_le (h : t.Inv selfId) : (t.data.filter BucketTreeNode.isLeftRight).length ≤ 157 := by
  have hsub : (t.data.filter BucketTreeNode.isLeftRight).map BucketTreeNode.bits ⊆ List.range' 4 157 := by
    intro k hk
    obtain ⟨n, hn, rfl⟩ := List.mem_map.1 hk
    obtain ⟨hmem, hbranch⟩ := List.mem_filter.1 hn
    obtain ⟨i, hi⟩ := List.mem_iff_getElem?.1 hmem
    obtain ⟨_, _, _, _, b, hb, hbits, _⟩ := h.branchAt hi hbranch
    have hle := hb.covers.bits_le
    rw [hb.covers.bits] at hbits hle
    rw [List.mem_range'_1]
    omega
  have hle := (h.widths_nodup.subperm hsub).length_le
  rwa [List.length_map, List.length_range'] at hle

theorem Inv.boundedArena (h : t.Inv selfId) : t.BoundedArena selfId := by
  have hlength : t.data.length = 2 * (t.data.filter BucketTreeNode.isLeftRight).length + 1 := by
    have hperm := h.children_perm.length_eq
    rw [children_length_sum, List.length_range'] at hperm
    obtain ⟨root, hroot, _⟩ := h.root
    have hpos := lt_length hroot
    omega
  refine ⟨?_, ?_, ⟨_, hlength⟩, ?_⟩
  · intro n hn hbranch
    obtain ⟨i, hi⟩ := List.mem_iff_getElem?.1 hn
    obtain ⟨_, _, _, _, b, hb, hbits, hself⟩ := h.branchAt hi hbranch
    refine ⟨(hb.covers.mem_iff selfId).2 hself, ?_, ?_⟩
    · rw [← hb.covers.bits]
      exact hbits
    · rw [← hb.covers.bits]
      exact hb.covers.bits_le
  · intro i j m n hm hn hbranch hbranch' hbits
    obtain ⟨_, _, _, _, b, hb, _, hself⟩ := h.branchAt hm hbranch
    obtain ⟨_, _, _, _, c, hc, _, hself'⟩ := h.branchAt hn hbranch'
    exact h.path_unique i hm hn hb.covers hc.covers hself hself' (by rw [hb.covers.bits, hc.covers.bits, hbits])
  · have hle := h.branches_le
    omega

end Count
end BucketTree

namespace RoutingTable

/-- No history makes the arena larger than one split for each width allows. -/
theorem history_boundedArena (selfId : Id20) (maxSize : Option ℕ) (clock : Instant) (ops : List Op) :
    ∃ rt, (new selfId maxSize clock).run ops = .ok rt ∧ rt.buckets.BoundedArena selfId := by
  obtain ⟨rt, hrun, inv⟩ := exists_reaches selfId maxSize clock ops
  obtain ⟨_, hid, _⟩ := inv_of_reaches selfId maxSize clock hrun
  have hbounded := BucketTree.Inv.boundedArena inv
  rw [hid] at hbounded
  exact ⟨rt, reaches_iff_run.1 hrun, hbounded⟩

end RoutingTable
end LibrtbitDht
