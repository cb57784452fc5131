import LibrtbitDht.BucketTreeLookup

set_option autoImplicit false

namespace LibrtbitDht
open AlignedBlock
namespace BucketTree

section Lists

theorem sortById_perm (nodes : List RoutingTableNode) : (sortById nodes).Perm nodes :=
  List.perm_insertionSort _ _

theorem sortById_sorted (nodes : List RoutingTableNode) (h : (nodes.map RoutingTableNode.id).Nodup) :
    (sortById nodes).Pairwise (fun x y => x.id < y.id) := by
  have htotal : Std.Total (fun a b : RoutingTableNode => a.id ≤ b.id) := ⟨fun a b => BitVec.le_total _ _⟩
  have htrans : IsTrans RoutingTableNode (fun a b => a.id ≤ b.id) :=
    ⟨fun _ _ _ hab hbc => BitVec.le_trans hab hbc⟩
  have hle := List.pairwise_insertionSort (fun a b : RoutingTableNode => a.id ≤ b.id) nodes
  have hne : (sortById nodes).Pairwise (fun x y => x.id ≠ y.id) :=
    List.pairwise_map.1 (((sortById_perm nodes).map RoutingTableNode.id).nodup_iff.2 h)
  exact (hle.and hne).imp fun ⟨hxy, hn⟩ => BitVec.lt_of_le_ne hxy hn

end Lists

section Frames
variable {t : BucketTree} {selfId : Id20}

@[simp] theorem setBucket_size (i : ℕ) (n : BucketTreeNode) (nodes : List RoutingTableNode) (now : Instant) :
    (t.setBucket i n nodes now).size = t.size := rfl

@[simp] theorem setBucket_maxSize (i : ℕ) (n : BucketTreeNode) (nodes : List RoutingTableNode)
    (now : Instant) : (t.setBucket i n nodes now).maxSize = t.maxSize := rfl

theorem stored_set {data : List BucketTreeNode} {i : ℕ} {n : BucketTreeNode} (hi : data[i]? = some n) :
    ∃ before after, data.flatMap BucketTreeNode.nodes = before ++ n.nodes ++ after ∧
      ∀ m, (data.set i m).flatMap BucketTreeNode.nodes = before ++ m.nodes ++ after := by
  obtain ⟨hlt, rfl⟩ := List.getElem?_eq_some_iff.1 hi
  refine ⟨(data.take i).flatMap BucketTreeNode.nodes, (data.drop (i + 1)).flatMap BucketTreeNode.nodes, ?_, ?_⟩
  · have hd : data = data.take i ++ data[i] :: data.drop (i + 1) := by
      rw [← List.drop_eq_getElem_cons hlt, List.take_append_drop]
    calc
      data.flatMap BucketTreeNode.nodes =
          (data.take i ++ data[i] :: data.drop (i + 1)).flatMap BucketTreeNode.nodes := congrArg _ hd
      _ = _ := by simp only [List.flatMap_append, List.flatMap_cons, List.append_assoc]
  · intro m
    rw [List.set_eq_take_append_cons_drop, if_pos hlt]
    simp

theorem LeafAt.stored_setBucket {i : ℕ} {n : BucketTreeNode} {bucket : LeafBucket} {b : Block}
    (hl : t.LeafAt i n bucket b) (nodes : List RoutingTableNode) (now : Instant) :
    ∃ before after, t.stored = before ++ bucket.nodes ++ after ∧
      (t.setBucket i n nodes now).stored = before ++ nodes ++ after := by
  obtain ⟨before, after, hs, hset⟩ := stored_set hl.node
  refine ⟨before, after, ?_, hset _⟩
  rw [BucketTree.stored, hs, BucketTreeNode.nodes, hl.data]

theorem setBucket_getElem? (i j : ℕ) (n : BucketTreeNode) (nodes : List RoutingTableNode) (now : Instant)
    (hi : i < t.data.length) : (t.setBucket i n nodes now).data[j]? =
      if i = j then some { n with data := .leaf ⟨nodes, now⟩ } else t.data[j]? := by
  change (t.data.set i _)[j]? = _
  rw [List.getElem?_set]
  by_cases h : i = j
  · simp [h]
    omega
  · simp [h]

/-- Every index of the first arena holds a node of the same block in the second. -/
def KeepsBlocks (t t' : BucketTree) : Prop :=
  ∀ (j : ℕ) (m : BucketTreeNode) (c : Block), t.data[j]? = some m → m.Covers c →
    ∃ m', t'.data[j]? = some m' ∧ m'.Covers c

theorem KeepsBlocks.branch {t' : BucketTree} (keeps : t.KeepsBlocks t') {j l r : ℕ}
    {m nl nr : BucketTreeNode} {c : Block} (hb : t.BranchAt j l r m nl nr c)
    (hm : t'.data[j]? = some m) : ∃ nl' nr', t'.BranchAt j l r m nl' nr' c := by
  obtain ⟨nl', hnl, hcl⟩ := keeps l nl c.left hb.left hb.coversLeft
  obtain ⟨nr', hnr, hcr⟩ := keeps r nr c.right hb.right hb.coversRight
  exact ⟨nl', nr', hm, hb.data, hb.covers, hnl, hnr, hcl, hcr, hb.below⟩

theorem LeafAt.keepsBlocks {i : ℕ} {n : BucketTreeNode} {bucket : LeafBucket} {b : Block}
    (hl : t.LeafAt i n bucket b) {t' : BucketTree} {data : BucketTreeNodeData}
    (written : t'.data[i]? = some { n with data := data })
    (others : ∀ j m, j ≠ i → t.data[j]? = some m → t'.data[j]? = some m) : t.KeepsBlocks t' := by
  intro j m c hm hc
  by_cases hij : j = i
  · subst hij
    obtain rfl := Option.some.inj (hl.node.symm.trans hm)
    exact ⟨_, written, hc.bits, hc.start, hc.last⟩
  · exact ⟨m, others j m hij hm, hc⟩

theorem LeafAt.isChild_setBucket {i : ℕ} {n : BucketTreeNode} {bucket : LeafBucket} {b : Block}
    (hl : t.LeafAt i n bucket b) (nodes : List RoutingTableNode) (now : Instant) (p j : ℕ) :
    (t.setBucket i n nodes now).IsChild p j ↔ t.IsChild p j := by
  unfold IsChild
  rw [setBucket_getElem? i p n nodes now (lt_length hl.node)]
  by_cases hip : i = p
  · subst hip
    simp [hl.node, hl.data]
  · simp [hip]

theorem Inv.setBucket (h : t.Inv selfId) {i : ℕ} {n : BucketTreeNode} {bucket : LeafBucket} {b : Block}
    (hl : t.LeafAt i n bucket b) (nodes : List RoutingTableNode) (now : Instant)
    (fits : LeafBucket.Fits nodes b) (size : ℕ)
    (hsize : size + bucket.nodes.length = t.size + nodes.length) (hmax : size ≤ t.maxSize) :
    BucketTree.Inv { t.setBucket i n nodes now with size := size } selfId := by
  have hget := fun j => setBucket_getElem? i j n nodes now (lt_length hl.node)
  have hkeep : t.KeepsBlocks { t.setBucket i n nodes now with size := size } := by
    apply hl.keepsBlocks
    · exact (hget i).trans (if_pos rfl)
    · intro j m hij hm
      exact (hget j).trans ((if_neg (Ne.symm hij)).trans hm)
  refine ⟨?_, ?_, ?_, ?_, ?_, hmax⟩
  · obtain ⟨root, hroot, hrc⟩ := h.root
    exact hkeep 0 root _ hroot hrc
  · intro j m bk hm hd
    have hm' := (hget j).symm.trans hm
    by_cases hij : i = j
    · subst hij
      rw [if_pos rfl] at hm'
      cases hm'
      cases hd
      exact ⟨b, ⟨hm, rfl, hl.covers.bits, hl.covers.start, hl.covers.last⟩, fits⟩
    · rw [if_neg hij] at hm'
      obtain ⟨c, hc, hf⟩ := h.leaf j m bk hm' hd
      exact ⟨c, ⟨hm, hd, hc.covers⟩, hf⟩
  · intro j m l r hm hd
    have hm' := (hget j).symm.trans hm
    by_cases hij : i = j
    · rw [if_pos hij] at hm'
      cases hm'
      cases hd
    · rw [if_neg hij] at hm'
      obtain ⟨nl, nr, c, hb, h4, hself⟩ := h.branch j m l r hm' hd
      obtain ⟨nl', nr', hb'⟩ := hkeep.branch hb hm
      exact ⟨nl', nr', c, hb', h4, hself⟩
  · intro j h0 hj
    have hj' : j < t.data.length := by simpa [BucketTree.setBucket, setNode] using hj
    obtain ⟨p, hp, huniq⟩ := h.parent j h0 hj'
    have hchild := fun q => hl.isChild_setBucket nodes now q j
    exact ⟨p, (hchild p).2 hp, fun q hq => huniq q ((hchild q).1 hq)⟩
  · obtain ⟨before, after, hs, hs'⟩ := hl.stored_setBucket nodes now
    have hold := h.size
    change size = (t.setBucket i n nodes now).stored.length
    rw [hs] at hold
    rw [hs']
    simp only [List.length_append] at hold ⊢
    omega

end Frames

section Splitting
variable {t : BucketTree} {selfId : Id20}

/-- The bits are enough for each half to have two identifiers, which is what the debug
assertions of the split ask for. -/
theorem computeSplitStartEnd_spec {n : BucketTreeNode} {b : Block} (hb : n.Covers b) (h2 : 2 ≤ b.bits) :
    ∃ le rs, computeSplitStartEnd n.start n.endInclusive n.bits =
        .ok ((n.start, le), (rs, n.endInclusive)) ∧
      le.toNat = b.left.last ∧ rs.toNat = b.right.start := by
  have h160 := hb.bits_le
  have hbits := hb.bits
  obtain ⟨le, hle, hle'⟩ := setBit_last b n.endInclusive n.bits (by omega) (by omega) hb.bits hb.last
  obtain ⟨rs, hrs, hrs'⟩ := setBit_start b n.start n.bits (by omega) (by omega) hb.bits hb.start
  have hpow : 2 ≤ 2 ^ (b.bits - 1) := by
    calc
      2 = 2 ^ 1 := rfl
      _ ≤ 2 ^ (b.bits - 1) := Nat.pow_le_pow_right (by omega) (by omega)
  have hll := b.left_last (by omega)
  have hls := b.left_last_succ (by omega)
  have hrl := b.right_last (by omega)
  have hrlast := b.right.last_succ
  have hrb : b.right.bits = b.bits - 1 := rfl
  rw [hrb] at hrlast
  have h1 : n.start < le := by
    rw [BitVec.lt_def, hb.start, hle']
    omega
  have h2 : le < rs := by
    rw [BitVec.lt_def, hle', hrs']
    omega
  have h3 : rs < n.endInclusive := by
    rw [BitVec.lt_def, hrs', hb.last]
    omega
  refine ⟨le, rs, ?_, hle', hrs'⟩
  have hov : n.bits ≤ 160 := by omega
  simp only [computeSplitStartEnd, check_true hov, hle, hrs, check_true h1, check_true h2,
    check_true h3, ok_bind, pure_eq_ok]

def splitData (t : BucketTree) (i : ℕ) (n ln rn : BucketTreeNode) : List BucketTreeNode :=
  (t.data ++ [ln, rn]).set i { n with data := .leftRight t.data.length (t.data.length + 1) }

theorem splitData_getElem? (i j : ℕ) (n ln rn : BucketTreeNode) (hi : i < t.data.length) :
    (t.splitData i n ln rn)[j]? =
      if j = i then some { n with data := .leftRight t.data.length (t.data.length + 1) }
      else if j = t.data.length then some ln
      else if j = t.data.length + 1 then some rn
      else t.data[j]? := by
  rw [splitData, List.getElem?_set]
  by_cases hij : i = j
  · subst hij
    simp
    omega
  · rw [if_neg hij, if_neg (Ne.symm hij)]
    by_cases hj : j < t.data.length
    · rw [List.getElem?_append_left hj, if_neg (by omega), if_neg (by omega)]
    · rw [List.getElem?_append_right (by omega)]
      by_cases h0 : j = t.data.length
      · simp [h0]
      · by_cases h1 : j = t.data.length + 1
        · simp [h1]
        · have hnone : t.data[j]? = none := List.getElem?_eq_none (by omega)
          rw [if_neg h0, if_neg h1, hnone]
          refine List.getElem?_eq_none ?_
          simp
          omega

theorem splitData_length (i : ℕ) (n ln rn : BucketTreeNode) :
    (t.splitData i n ln rn).length = t.data.length + 2 := by
  simp [splitData]

theorem LeafAt.stored_split {i : ℕ} {n : BucketTreeNode} {bucket : LeafBucket} {b : Block}
    (hl : t.LeafAt i n bucket b) (ln rn : BucketTreeNode)
    (hperm : (ln.nodes ++ rn.nodes).Perm bucket.nodes) :
    ((t.splitData i n ln rn).flatMap BucketTreeNode.nodes).Perm t.stored := by
  have hi : (t.data ++ [ln, rn])[i]? = some n := by
    rw [List.getElem?_append_left (lt_length hl.node), hl.node]
  have hlt := lt_length hl.node
  obtain ⟨before, after, hs, hset⟩ := stored_set hl.node
  have hsplit : t.splitData i n ln rn =
      t.data.set i { n with data := .leftRight t.data.length (t.data.length + 1) } ++ [ln, rn] := by
    rw [splitData, List.set_append_left _ _ hlt]
  have hn : n.nodes = bucket.nodes := by rw [BucketTreeNode.nodes, hl.data]
  rw [hsplit, List.flatMap_append, hset, BucketTree.stored, hs, hn]
  have hnil : BucketTreeNode.nodes
      { n with data := .leftRight t.data.length (t.data.length + 1) } = [] := rfl
  have htail : [ln, rn].flatMap BucketTreeNode.nodes = ln.nodes ++ rn.nodes := by simp
  rw [hnil, List.append_nil, htail]
  calc
    (before ++ after ++ (ln.nodes ++ rn.nodes)).Perm (before ++ (after ++ bucket.nodes)) := by
      rw [List.append_assoc]
      exact (hperm.append_left after).append_left before
    _ = before ++ (after ++ bucket.nodes) := rfl
    List.Perm _ (before ++ bucket.nodes ++ after) := by
      rw [List.append_assoc]
      exact List.perm_append_comm.append_left before

theorem splitData_cases {i j : ℕ} {n ln rn m : BucketTreeNode} (hi : i < t.data.length)
    (hm : (t.splitData i n ln rn)[j]? = some m) :
    (j = i ∧ m = { n with data := .leftRight t.data.length (t.data.length + 1) }) ∨
      (j = t.data.length ∧ m = ln) ∨ (j = t.data.length + 1 ∧ m = rn) ∨
      (j ≠ i ∧ t.data[j]? = some m) := by
  rw [splitData_getElem? i j n ln rn hi] at hm
  split_ifs at hm with h1 h2 h3
  · exact .inl ⟨h1, (Option.some.inj hm).symm⟩
  · exact .inr (.inl ⟨h2, (Option.some.inj hm).symm⟩)
  · exact .inr (.inr (.inl ⟨h3, (Option.some.inj hm).symm⟩))
  · exact .inr (.inr (.inr ⟨h1, hm⟩))

theorem splitData_old {i j : ℕ} {n ln rn m : BucketTreeNode} (hi : i < t.data.length) (hij : j ≠ i)
    (hm : t.data[j]? = some m) : (t.splitData i n ln rn)[j]? = some m := by
  have hj := lt_length hm
  rw [splitData_getElem? i j n ln rn hi, if_neg hij, if_neg (by omega), if_neg (by omega), hm]

theorem Inv.split_parent (h : t.Inv selfId) {i : ℕ} {n : BucketTreeNode} {bucket : LeafBucket} {b : Block}
    (hl : t.LeafAt i n bucket b) {ln rn : BucketTreeNode} {lb rb : LeafBucket} (hld : ln.data = .leaf lb)
    (hrd : rn.data = .leaf rb) {j : ℕ} (h0 : 0 < j) (hj : j < t.data.length + 2) :
    ∃! p, IsChild { t with data := t.splitData i n ln rn } p j := by
  have hlt := lt_length hl.node
  have hnew : ∀ p, IsChild { t with data := t.splitData i n ln rn } p j →
      (p = i ∧ t.data.length ≤ j) ∨ (t.IsChild p j ∧ j < t.data.length) := by
    rintro p ⟨m, l, r, hm, hd, hlr⟩
    rcases splitData_cases hlt hm with ⟨rfl, rfl⟩ | ⟨rfl, rfl⟩ | ⟨rfl, rfl⟩ | ⟨_, hp⟩
    · cases hd
      exact .inl ⟨rfl, by omega⟩
    · cases hld.symm.trans hd
    · cases hrd.symm.trans hd
    · obtain ⟨nl, nr, c, hb, _, _⟩ := h.branch p m l r hp hd
      have h1 := lt_length hb.left
      have h2 := lt_length hb.right
      exact .inr ⟨⟨m, l, r, hp, hd, hlr⟩, by omega⟩
  by_cases hjold : j < t.data.length
  · obtain ⟨p, ⟨m, l, r, hp, hd, hlr⟩, huniq⟩ := h.parent j h0 hjold
    have hpi : p ≠ i := by
      rintro rfl
      obtain rfl := Option.some.inj (hl.node.symm.trans hp)
      cases hl.data.symm.trans hd
    refine ⟨p, ⟨m, l, r, splitData_old hlt hpi hp, hd, hlr⟩, ?_⟩
    intro q hq
    rcases hnew q hq with ⟨_, hge⟩ | ⟨hq, _⟩
    · omega
    · exact huniq q hq
  · have hroot : (t.splitData i n ln rn)[i]? =
        some { n with data := .leftRight t.data.length (t.data.length + 1) } :=
      (splitData_getElem? i i n ln rn hlt).trans (if_pos rfl)
    refine ⟨i, ⟨_, t.data.length, t.data.length + 1, hroot, rfl, by omega⟩, ?_⟩
    intro q hq
    rcases hnew q hq with ⟨hqi, _⟩ | ⟨_, hlt'⟩
    · exact hqi
    · omega

/-- A leaf of our own block may be split, if the new leaves share its nodes between the halves. -/
theorem Inv.split (h : t.Inv selfId) {i : ℕ} {n : BucketTreeNode} {bucket : LeafBucket} {b : Block}
    (hl : t.LeafAt i n bucket b) (h4 : 4 ≤ b.bits) (hself : b.Mem selfId.toNat)
    {ln rn : BucketTreeNode} {lb rb : LeafBucket} (hld : ln.data = .leaf lb) (hrd : rn.data = .leaf rb)
    (hlc : ln.Covers b.left) (hrc : rn.Covers b.right) (hlf : LeafBucket.Fits lb.nodes b.left)
    (hrf : LeafBucket.Fits rb.nodes b.right) (hperm : (ln.nodes ++ rn.nodes).Perm bucket.nodes) :
    BucketTree.Inv { t with data := t.splitData i n ln rn } selfId := by
  have hlt := lt_length hl.node
  have hget := fun j => splitData_getElem? i j n ln rn hlt
  have hleft : (t.splitData i n ln rn)[t.data.length]? = some ln := by
    rw [hget, if_neg (by omega), if_pos rfl]
  have hright : (t.splitData i n ln rn)[t.data.length + 1]? = some rn := by
    rw [hget, if_neg (by omega), if_neg (by omega), if_pos rfl]
  have hkeep : t.KeepsBlocks { t with data := t.splitData i n ln rn } := by
    apply hl.keepsBlocks
    · exact (hget i).trans (if_pos rfl)
    · intro j m hij hm
      exact splitData_old hlt hij hm
  refine ⟨?_, ?_, ?_, ?_, ?_, h.bounded⟩
  · obtain ⟨root, hroot, hrootc⟩ := h.root
    exact hkeep 0 root _ hroot hrootc
  · intro j m bk hm hd
    rcases splitData_cases hlt hm with ⟨_, rfl⟩ | ⟨rfl, rfl⟩ | ⟨rfl, rfl⟩ | ⟨_, hj⟩
    · cases hd
    · cases hld.symm.trans hd
      exact ⟨b.left, ⟨hm, hd, hlc⟩, hlf⟩
    · cases hrd.symm.trans hd
      exact ⟨b.right, ⟨hm, hd, hrc⟩, hrf⟩
    · obtain ⟨c, hc, hf⟩ := h.leaf j m bk hj hd
      exact ⟨c, ⟨hm, hd, hc.covers⟩, hf⟩
  · intro j m l r hm hd
    rcases splitData_cases hlt hm with ⟨rfl, rfl⟩ | ⟨rfl, rfl⟩ | ⟨rfl, rfl⟩ | ⟨_, hj⟩
    · cases hd
      have hcov : BucketTreeNode.Covers
          { n with data := .leftRight t.data.length (t.data.length + 1) } b :=
        ⟨hl.covers.bits, hl.covers.start, hl.covers.last⟩
      exact ⟨ln, rn, b, ⟨hm, rfl, hcov, hleft, hright, hlc, hrc, by omega, by omega⟩, h4, hself⟩
    · cases hld.symm.trans hd
    · cases hrd.symm.trans hd
    · obtain ⟨nl, nr, c, hb, hc4, hcself⟩ := h.branch j m l r hj hd
      obtain ⟨nl', nr', hb'⟩ := hkeep.branch hb hm
      exact ⟨nl', nr', c, hb', hc4, hcself⟩
  · intro j h0 hj
    change j < (t.splitData i n ln rn).length at hj
    rw [splitData_length] at hj
    exact h.split_parent hl hld hrd h0 hj
  · have hlen := (hl.stored_split ln rn hperm).length_eq
    exact h.size.trans hlen.symm

theorem Fits.filter {nodes : List RoutingTableNode} {b c : Block} (fits : LeafBucket.Fits nodes b)
    (p : RoutingTableNode → Bool) (hin : ∀ x ∈ nodes, p x = true → c.Mem x.id.toNat) :
    LeafBucket.Fits (nodes.filter p) c where
  length := (List.length_filter_le _ _).trans fits.length
  sorted := fits.sorted.filter _
  inside x hx := hin x (List.mem_of_mem_filter hx) (List.of_mem_filter hx)

/-- Splitting a leaf of our own block succeeds, stores the same entries, and goes on with the new
leaf of the identifier. -/
theorem Inv.splitLeaf_spec (h : t.Inv selfId) {i : ℕ} {n : BucketTreeNode} {bucket : LeafBucket}
    {b : Block} (hl : t.LeafAt i n bucket b) (fits : LeafBucket.Fits bucket.nodes b) (h4 : 4 ≤ b.bits)
    (hself : b.Mem selfId.toNat) (id : Id20) (hid : b.Mem id.toNat) (lc rc : Instant) :
    ∃ t' idx n' bucket' c, t.splitLeaf i n bucket.nodes id lc rc = .ok (t', idx) ∧ t'.Inv selfId ∧
      t'.LeafAt idx n' bucket' c ∧ c.Mem id.toNat ∧ (c = b.left ∨ c = b.right) ∧
      bucket'.nodes ⊆ bucket.nodes ∧ t'.stored.Perm t.stored ∧ t'.size = t.size ∧
      t'.maxSize = t.maxSize := by
  obtain ⟨le, rs, hcomp, hle, hrs⟩ := computeSplitStartEnd_spec hl.covers (by omega)
  have hpos : 0 < b.bits := by omega
  have hbits := hl.covers.bits
  have hone : 1 ≤ n.bits := by omega
  set ld := bucket.nodes.filter (fun x => x.id < rs) with hld
  set rd := bucket.nodes.filter (fun x => ¬ x.id < rs) with hrd
  set ln : BucketTreeNode := ⟨n.bits - 1, n.start, le, .leaf ⟨ld, lc⟩⟩ with hln
  set rn : BucketTreeNode := ⟨n.bits - 1, rs, n.endInclusive, .leaf ⟨rd, rc⟩⟩ with hrn
  have hlb : b.left.bits = n.bits - 1 := by rw [← hbits]; rfl
  have hrb : b.right.bits = n.bits - 1 := by rw [← hbits]; rfl
  have hlcov : ln.Covers b.left := ⟨hlb, by rw [b.left_start hpos]; exact hl.covers.start, hle⟩
  have hrcov : rn.Covers b.right := ⟨hrb, hrs, by rw [b.right_last hpos]; exact hl.covers.last⟩
  have hlf : LeafBucket.Fits ld b.left := by
    refine Fits.filter fits _ fun x hx hlt => ?_
    rw [decide_eq_true_iff, BitVec.lt_def, hrs] at hlt
    exact (b.mem_left_iff hpos _ (fits.inside x hx)).2 hlt
  have hrf : LeafBucket.Fits rd b.right := by
    refine Fits.filter fits _ fun x hx hge => ?_
    rw [decide_eq_true_iff, BitVec.lt_def, hrs, not_lt] at hge
    exact (b.mem_right_iff hpos _ (fits.inside x hx)).2 hge
  have hperm : (ln.nodes ++ rn.nodes).Perm bucket.nodes := by
    have hp := List.filter_append_perm (fun x : RoutingTableNode => decide (x.id < rs)) bucket.nodes
    simpa only [BucketTreeNode.nodes, hln, hrn, hld, hrd, decide_not] using hp
  have hldata : ln.data = .leaf ⟨ld, lc⟩ := rfl
  have hrdata : rn.data = .leaf ⟨rd, rc⟩ := rfl
  have hinv := h.split hl h4 hself hldata hrdata hlcov hrcov hlf hrf hperm
  have hrun : t.splitLeaf i n bucket.nodes id lc rc = .ok ({ t with data := t.splitData i n ln rn },
      if id < rs then t.data.length else t.data.length + 1) := by
    simp only [splitLeaf, hcomp, check_true hone, ok_bind, pure_eq_ok]
    rfl
  have hget := fun j => splitData_getElem? i j n ln rn (lt_length hl.node)
  have hlt := lt_length hl.node
  by_cases hside : id < rs
  · refine ⟨_, _, ln, ⟨ld, lc⟩, b.left, hrun, hinv, ⟨?_, rfl, hlcov⟩, ?_, .inl rfl,
      List.filter_subset_self _, hl.stored_split ln rn hperm, rfl, rfl⟩
    · rw [if_pos hside]
      exact (hget _).trans (by rw [if_neg (by omega), if_pos rfl])
    · rw [b.mem_left_iff hpos _ hid, ← hrs]
      exact hside
  · refine ⟨_, _, rn, ⟨rd, rc⟩, b.right, hrun, hinv, ⟨?_, rfl, hrcov⟩, ?_, .inr rfl,
      List.filter_subset_self _, hl.stored_split ln rn hperm, rfl, rfl⟩
    · rw [if_neg hside]
      exact (hget _).trans (by rw [if_neg (by omega), if_neg (by omega), if_pos rfl])
    · rw [b.mem_right_iff hpos _ hid, ← hrs]
      exact not_lt.1 hside

end Splitting
end BucketTree
end LibrtbitDht
