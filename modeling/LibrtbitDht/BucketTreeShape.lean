import LibrtbitDht.BucketTree

set_option autoImplicit false

namespace LibrtbitDht
open AlignedBlock

structure BucketTreeNode.Covers (n : BucketTreeNode) (b : Block) : Prop where
  bits : b.bits = n.bits
  start : n.start.toNat = b.start
  last : n.endInclusive.toNat = b.last

namespace BucketTreeNode

theorem Covers.unique {n : BucketTreeNode} {b c : Block} (hb : n.Covers b) (hc : n.Covers c) : b = c := by
  rw [b.eq_of_bounds _ _ hb.start.symm hb.bits, c.eq_of_bounds _ _ hc.start.symm hc.bits]

theorem Covers.mem_iff {n : BucketTreeNode} {b : Block} (h : n.Covers b) (x : Id20) :
    (n.start ≤ x ∧ x ≤ n.endInclusive) ↔ b.Mem x.toNat := by
  rw [BitVec.le_def, BitVec.le_def, h.start, h.last, Block.Mem]

theorem Covers.bits_le {n : BucketTreeNode} {b : Block} (h : n.Covers b) : b.bits ≤ 160 := by
  have hlt : b.last < 2 ^ 160 := h.last ▸ n.endInclusive.isLt
  have hsucc := b.last_succ
  have hpow : 2 ^ b.bits ≤ 2 ^ 160 := by omega
  exact (Nat.pow_le_pow_iff_right (by omega)).1 hpow

def nodes (n : BucketTreeNode) : List RoutingTableNode :=
  match n.data with
  | .leaf bucket => bucket.nodes
  | .leftRight _ _ => []

end BucketTreeNode

/-- A bucket of the given block: at most eight entries of the block, in ascending order. -/
structure LeafBucket.Fits (nodes : List RoutingTableNode) (b : Block) : Prop where
  length : nodes.length ≤ 8
  sorted : nodes.Pairwise (fun x y => x.id < y.id)
  inside : ∀ x ∈ nodes, b.Mem x.id.toNat

namespace BucketTree

structure LeafAt (t : BucketTree) (i : ℕ) (n : BucketTreeNode) (bucket : LeafBucket) (b : Block) : Prop where
  node : t.data[i]? = some n
  data : n.data = .leaf bucket
  covers : n.Covers b

/-- Index `i` holds a branch of this block with children of its two halves. -/
structure BranchAt (t : BucketTree) (i l r : ℕ) (n nl nr : BucketTreeNode) (b : Block) : Prop where
  node : t.data[i]? = some n
  data : n.data = .leftRight l r
  covers : n.Covers b
  left : t.data[l]? = some nl
  right : t.data[r]? = some nr
  coversLeft : nl.Covers b.left
  coversRight : nr.Covers b.right
  below : i < l ∧ i < r

def IsChild (t : BucketTree) (parent child : ℕ) : Prop :=
  ∃ n l r, t.data[parent]? = some n ∧ n.data = .leftRight l r ∧ (child = l ∨ child = r)

def stored (t : BucketTree) : List RoutingTableNode := t.data.flatMap BucketTreeNode.nodes

structure Inv (t : BucketTree) (selfId : Id20) : Prop where
  root : ∃ n, t.data[0]? = some n ∧ n.Covers ⟨0, 160⟩
  leaf : ∀ i n bucket, t.data[i]? = some n → n.data = .leaf bucket →
    ∃ b, t.LeafAt i n bucket b ∧ LeafBucket.Fits bucket.nodes b
  branch : ∀ i n l r, t.data[i]? = some n → n.data = .leftRight l r →
    ∃ nl nr b, t.BranchAt i l r n nl nr b ∧ 4 ≤ b.bits ∧ b.Mem selfId.toNat
  parent : ∀ j, 0 < j → j < t.data.length → ∃! i, t.IsChild i j
  size : t.size = t.stored.length
  bounded : t.size ≤ t.maxSize

theorem new_inv (selfId : Id20) (maxSize : ℕ) (clock : Instant) : (new maxSize clock).Inv selfId := by
  have hcov : BucketTreeNode.Covers ⟨160, 0, BitVec.allOnes 160, .leaf ⟨[], clock⟩⟩ ⟨0, 160⟩ :=
    ⟨rfl, by simp [Block.start], by simp [Block.last, Block.start]⟩
  refine ⟨⟨_, rfl, hcov⟩, ?_, ?_, ?_, rfl, Nat.zero_le _⟩
  · intro i n bucket hi hd
    cases i with
    | zero =>
      cases hi
      cases hd
      exact ⟨_, ⟨rfl, rfl, hcov⟩, by simp, by simp, by simp⟩
    | succ i => simp [new] at hi
  · intro i n l r hi hd
    cases i with
    | zero =>
      cases hi
      cases hd
    | succ i => simp [new] at hi
  · intro j h0 hj
    simp [new] at hj
    omega

section Descent
variable {t : BucketTree} {selfId : Id20}

theorem lt_length {i : ℕ} {n : BucketTreeNode} (h : t.data[i]? = some n) : i < t.data.length :=
  (List.getElem?_eq_some_iff.1 h).1

theorem Inv.cases (h : t.Inv selfId) {i : ℕ} {n : BucketTreeNode} (hi : t.data[i]? = some n) :
    (∃ bucket b, t.LeafAt i n bucket b ∧ LeafBucket.Fits bucket.nodes b) ∨
    (∃ l r nl nr b, t.BranchAt i l r n nl nr b ∧ 4 ≤ b.bits ∧ b.Mem selfId.toNat) := by
  cases hd : n.data with
  | leaf bucket => exact .inl ⟨bucket, h.leaf i n bucket hi hd⟩
  | leftRight l r => exact .inr ⟨l, r, h.branch i n l r hi hd⟩

/-- The leaves below an index, from left to right. -/
inductive InOrder (t : BucketTree) : ℕ → List ℕ → Prop where
  | leaf {i : ℕ} {n : BucketTreeNode} {bucket : LeafBucket} (node : t.data[i]? = some n)
      (data : n.data = .leaf bucket) : InOrder t i [i]
  | branch {i l r : ℕ} {n : BucketTreeNode} {xs ys : List ℕ} (node : t.data[i]? = some n)
      (data : n.data = .leftRight l r) (left : InOrder t l xs) (right : InOrder t r ys) :
      InOrder t i (xs ++ ys)

theorem InOrder.unique {i : ℕ} {xs ys : List ℕ} (hx : t.InOrder i xs) (hy : t.InOrder i ys) : xs = ys := by
  induction hx generalizing ys with
  | leaf node data =>
    cases hy with
    | leaf _ _ => rfl
    | branch node' data' _ _ =>
      obtain rfl := Option.some.inj (node.symm.trans node')
      rw [data] at data'
      cases data'
  | branch node data _ _ ihl ihr =>
    cases hy with
    | leaf node' data' =>
      obtain rfl := Option.some.inj (node.symm.trans node')
      rw [data] at data'
      cases data'
    | branch node' data' left' right' =>
      obtain rfl := Option.some.inj (node.symm.trans node')
      rw [data] at data'
      cases data'
      rw [ihl left', ihr right']

theorem Inv.exists_inOrder (h : t.Inv selfId) (i : ℕ) (hi : i < t.data.length) : ∃ xs, t.InOrder i xs := by
  induction hk : t.data.length - i using Nat.strong_induction_on generalizing i with
  | _ k ih =>
    obtain ⟨n, hn⟩ : ∃ n, t.data[i]? = some n := ⟨_, List.getElem?_eq_getElem hi⟩
    rcases h.cases hn with ⟨bucket, b, hl, _⟩ | ⟨l, r, nl, nr, b, hb, _, _⟩
    · exact ⟨[i], .leaf hn hl.data⟩
    · obtain ⟨hil, hir⟩ := hb.below
      have hll := lt_length hb.left
      have hrl := lt_length hb.right
      obtain ⟨xs, hxs⟩ := ih (t.data.length - l) (by omega) l hll rfl
      obtain ⟨ys, hys⟩ := ih (t.data.length - r) (by omega) r hrl rfl
      exact ⟨xs ++ ys, .branch hn hb.data hxs hys⟩

theorem Inv.inOrder_block (h : t.Inv selfId) {i : ℕ} {xs : List ℕ} (hx : t.InOrder i xs)
    {n : BucketTreeNode} {b : Block} (hn : t.data[i]? = some n) (hb : n.Covers b) :
    (∀ j ∈ xs, ∃ m bucket c, t.LeafAt j m bucket c ∧ b.start ≤ c.start ∧ c.last ≤ b.last) ∧
    (∀ x, b.Mem x → ∃ j ∈ xs, ∃ m bucket c, t.LeafAt j m bucket c ∧ c.Mem x) := by
  induction hx generalizing n b with
  | @leaf i m bucket node data =>
    obtain rfl : m = n := Option.some.inj (node.symm.trans hn)
    refine ⟨?_, fun x hx => ⟨i, List.mem_singleton_self i, m, bucket, b, ⟨hn, data, hb⟩, hx⟩⟩
    intro j hj
    obtain rfl := List.mem_singleton.1 hj
    exact ⟨m, bucket, b, ⟨hn, data, hb⟩, le_refl _, le_refl _⟩
  | @branch i l r m xs ys node data _ _ ihl ihr =>
    obtain rfl : m = n := Option.some.inj (node.symm.trans hn)
    obtain ⟨nl, nr, c, hbr, hbits, _⟩ := h.branch i m l r hn data
    obtain rfl : c = b := hbr.covers.unique hb
    have hpos : 0 < c.bits := by omega
    obtain ⟨inl, covl⟩ := ihl hbr.left hbr.coversLeft
    obtain ⟨inr, covr⟩ := ihr hbr.right hbr.coversRight
    have hls := c.left_start hpos
    have hll := c.left_last_succ hpos
    have hrl := c.right_last hpos
    have h1 := c.left.start_le_last
    have h2 := c.right.start_le_last
    constructor
    · intro j hj
      rcases List.mem_append.1 hj with hj | hj
      · obtain ⟨m', bucket, d, hd, hs, he⟩ := inl j hj
        exact ⟨m', bucket, d, hd, by omega, by omega⟩
      · obtain ⟨m', bucket, d, hd, hs, he⟩ := inr j hj
        exact ⟨m', bucket, d, hd, by omega, by omega⟩
    · intro x hx
      rcases (c.mem_halves hpos x).1 hx with hx | hx
      · obtain ⟨j, hj, rest⟩ := covl x hx
        exact ⟨j, List.mem_append_left _ hj, rest⟩
      · obtain ⟨j, hj, rest⟩ := covr x hx
        exact ⟨j, List.mem_append_right _ hj, rest⟩

def Before (t : BucketTree) (j k : ℕ) : Prop :=
  ∀ m n, t.data[j]? = some m → t.data[k]? = some n → m.endInclusive < n.start

theorem Inv.inOrder_ascending (h : t.Inv selfId) {i : ℕ} {xs : List ℕ} (hx : t.InOrder i xs) :
    xs.Pairwise t.Before := by
  induction hx with
  | leaf _ _ => exact List.pairwise_singleton _ _
  | @branch i l r m xs ys node data hxs hys ihl ihr =>
    obtain ⟨nl, nr, b, hbr, hbits, _⟩ := h.branch i m l r node data
    have hll := b.left_last_succ (by omega)
    refine List.pairwise_append.2 ⟨ihl, ihr, ?_⟩
    intro j hj k hk m' n' hm hn
    obtain ⟨m1, _, c, hc, _, hce⟩ := (h.inOrder_block hxs hbr.left hbr.coversLeft).1 j hj
    obtain ⟨n1, _, d, hd, hds, _⟩ := (h.inOrder_block hys hbr.right hbr.coversRight).1 k hk
    obtain rfl : m1 = m' := Option.some.inj (hc.node.symm.trans hm)
    obtain rfl : n1 = n' := Option.some.inj (hd.node.symm.trans hn)
    rw [BitVec.lt_def, hc.covers.last, hd.covers.start]
    omega

theorem Inv.inOrder_nodup (h : t.Inv selfId) {i : ℕ} {xs : List ℕ} (hx : t.InOrder i xs)
    {n : BucketTreeNode} {b : Block} (hn : t.data[i]? = some n) (hb : n.Covers b) : xs.Nodup := by
  refine List.Pairwise.imp_of_mem ?_ (h.inOrder_ascending hx)
  intro j k hj _ hbefore hjk
  subst hjk
  obtain ⟨m, _, c, hc, _, _⟩ := (h.inOrder_block hx hn hb).1 j hj
  have hlt := hbefore m m hc.node hc.node
  rw [BitVec.lt_def, hc.covers.last, hc.covers.start] at hlt
  have := c.start_le_last
  omega

/-- Every index hangs below the root, so its leaves are among the leaves of the root. -/
theorem Inv.inOrder_subset (h : t.Inv selfId) {xs : List ℕ} (hx : t.InOrder 0 xs) (j : ℕ)
    {ys : List ℕ} (hy : t.InOrder j ys) : ys ⊆ xs := by
  induction j using Nat.strong_induction_on generalizing ys with
  | _ j ih =>
    rcases Nat.eq_zero_or_pos j with rfl | hpos
    · rw [hx.unique hy]
      exact List.Subset.refl _
    · have hj : j < t.data.length := by
        cases hy with
        | leaf node _ => exact lt_length node
        | branch node _ _ _ => exact lt_length node
      obtain ⟨p, ⟨n, l, r, hn, hd, hlr⟩, _⟩ := h.parent j hpos hj
      obtain ⟨nl, nr, b, hbr, _, _⟩ := h.branch p n l r hn hd
      obtain ⟨ls, hls⟩ := h.exists_inOrder l (lt_length hbr.left)
      obtain ⟨rs, hrs⟩ := h.exists_inOrder r (lt_length hbr.right)
      have hp := InOrder.branch hn hd hls hrs
      obtain ⟨hpl, hpr⟩ := hbr.below
      rcases hlr with rfl | rfl
      · have hsub := ih p hpl hp
        rw [hy.unique hls]
        exact fun x hx => hsub (List.mem_append_left _ hx)
      · have hsub := ih p hpr hp
        rw [hy.unique hrs]
        exact fun x hx => hsub (List.mem_append_right _ hx)

theorem Inv.leaf_mem_inOrder (h : t.Inv selfId) {xs : List ℕ} (hx : t.InOrder 0 xs) {j : ℕ}
    {n : BucketTreeNode} {bucket : LeafBucket} {b : Block} (hl : t.LeafAt j n bucket b) : j ∈ xs :=
  h.inOrder_subset hx j (.leaf hl.node hl.data) (List.mem_singleton_self j)

theorem Inv.leaf_unique (h : t.Inv selfId) {i j : ℕ} {m n : BucketTreeNode} {bm bn : LeafBucket}
    {b c : Block} (hi : t.LeafAt i m bm b) (hj : t.LeafAt j n bn c) {x : ℕ} (hb : b.Mem x) (hc : c.Mem x) :
    i = j := by
  obtain ⟨root, hroot, _⟩ := h.root
  obtain ⟨xs, hxs⟩ := h.exists_inOrder 0 (lt_length hroot)
  by_contra hne
  have key : ∀ {i j m n b c}, t.Before i j → t.data[i]? = some m → t.data[j]? = some n →
      m.Covers b → n.Covers c → b.Mem x → ¬ c.Mem x := by
    intro i j m n b c hbefore hm hn hbm hcn hbx hcx
    have hlt := hbefore m n hm hn
    rw [BitVec.lt_def, hbm.last, hcn.start] at hlt
    simp only [Block.Mem] at hbx hcx
    omega
  have hor : t.Before i j ∨ t.Before j i := by
    have hmi := h.leaf_mem_inOrder hxs hi
    have hmj := h.leaf_mem_inOrder hxs hj
    have hsymm : Std.Symm (fun a b => t.Before a b ∨ t.Before b a) := ⟨fun _ _ => Or.symm⟩
    have hp : xs.Pairwise (fun a b => t.Before a b ∨ t.Before b a) :=
      (h.inOrder_ascending hxs).imp fun hab => .inl hab
    exact hp.forall hmi hmj hne
  rcases hor with hor | hor
  · exact key hor hi.node hj.node hi.covers hj.covers hb hc
  · exact key hor hj.node hi.node hj.covers hi.covers hc hb

end Descent
end BucketTree
end LibrtbitDht
