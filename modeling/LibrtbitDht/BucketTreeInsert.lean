import LibrtbitDht.BucketTreeUpdate

set_option autoImplicit false

namespace LibrtbitDht
open AlignedBlock
namespace BucketTree

inductive RoundCase (t : BucketTree) (selfId id : Id20) (addr : SocketAddr) (now : Instant)
    (bucket : LeafBucket) (b : Block) : Round → Prop where
  | existing (found : ∃ x ∈ bucket.nodes, x.id = id) :
      RoundCase t selfId id addr now bucket b (.done .wasExisting t)
  | replaced {old : RoutingTableNode} {rest : List RoutingTableNode} {t' : BucketTree}
      (new : ∀ x ∈ bucket.nodes, x.id ≠ id) (bad : old.isBad now = true) (mem : old ∈ bucket.nodes)
      (inv : t'.Inv selfId) (before : t.stored.Perm (old :: rest))
      (after : t'.stored.Perm (RoutingTableNode.fresh id addr :: rest))
      (size : t'.size = t.size) (maxSize : t'.maxSize = t.maxSize) :
      RoundCase t selfId id addr now bucket b (.done (.replacedBad old) t')
  | full (new : ∀ x ∈ bucket.nodes, x.id ≠ id) (noBad : ∀ x ∈ bucket.nodes, x.isBad now = false)
      (size : t.size = t.maxSize) : RoundCase t selfId id addr now bucket b (.done .ignored t)
  | room {t' : BucketTree} (new : ∀ x ∈ bucket.nodes, x.id ≠ id)
      (noBad : ∀ x ∈ bucket.nodes, x.isBad now = false) (below : t.size < t.maxSize)
      (short : bucket.nodes.length < 8) (inv : t'.Inv selfId)
      (after : t'.stored.Perm (RoutingTableNode.fresh id addr :: t.stored))
      (size : t'.size = t.size + 1) (maxSize : t'.maxSize = t.maxSize) :
      RoundCase t selfId id addr now bucket b (.done .added t')
  | far (new : ∀ x ∈ bucket.nodes, x.id ≠ id) (noBad : ∀ x ∈ bucket.nodes, x.isBad now = false)
      (below : t.size < t.maxSize) (long : bucket.nodes.length = 8) (outside : ¬ b.Mem selfId.toNat) :
      RoundCase t selfId id addr now bucket b (.done .ignored t)
  | split {t' : BucketTree} {idx : ℕ} {n' : BucketTreeNode} {bucket' : LeafBucket} {c : Block}
      (new : ∀ x ∈ bucket.nodes, x.id ≠ id) (noBad : ∀ x ∈ bucket.nodes, x.isBad now = false)
      (below : t.size < t.maxSize) (long : bucket.nodes.length = 8) (inside : b.Mem selfId.toNat)
      (bits : 4 ≤ b.bits) (inv : t'.Inv selfId) (leaf : t'.LeafAt idx n' bucket' c)
      (mem : c.Mem id.toNat) (half : c = b.left ∨ c = b.right) (sub : bucket'.nodes ⊆ bucket.nodes)
      (after : t'.stored.Perm t.stored) (size : t'.size = t.size) (maxSize : t'.maxSize = t.maxSize) :
      RoundCase t selfId id addr now bucket b (.again t' idx)

section OneRound
variable {t : BucketTree} {selfId : Id20} {i : ℕ} {n : BucketTreeNode} {bucket : LeafBucket} {b : Block}

theorem Fits.ids_nodup {nodes : List RoutingTableNode} (fits : LeafBucket.Fits nodes b) :
    (nodes.map RoutingTableNode.id).Nodup :=
  List.pairwise_map.2 (fits.sorted.imp fun h => BitVec.ne_of_lt h)

theorem Fits.four_le_bits (fits : LeafBucket.Fits bucket.nodes b) (hlen : bucket.nodes.length = 8)
    (id : Id20) (hid : b.Mem id.toNat) (hnew : ∀ x ∈ bucket.nodes, x.id ≠ id) : 4 ≤ b.bits := by
  have hnd : ((id :: bucket.nodes.map RoutingTableNode.id).map BitVec.toNat).Nodup := by
    refine List.Nodup.map (fun _ _ h => BitVec.eq_of_toNat_eq h) (List.nodup_cons.2 ⟨?_, Fits.ids_nodup fits⟩)
    intro hmem
    obtain ⟨x, hx, hxid⟩ := List.mem_map.1 hmem
    exact hnew x hx hxid
  have hin : ∀ x ∈ (id :: bucket.nodes.map RoutingTableNode.id).map BitVec.toNat, b.Mem x := by
    intro x hx
    simp only [List.map_cons, List.mem_cons, List.mem_map] at hx
    rcases hx with rfl | ⟨_, ⟨y, hy, rfl⟩, rfl⟩
    · exact hid
    · exact fits.inside y hy
  have hle := b.nodup_length_le _ hnd hin
  simp only [List.length_map, List.length_cons, hlen] at hle
  by_contra hlt
  have hpow : 2 ^ b.bits ≤ 2 ^ 3 := Nat.pow_le_pow_right (by omega) (by omega)
  omega

theorem fits_sortById (nodes : List RoutingTableNode) (hlen : nodes.length ≤ 8)
    (hnd : (nodes.map RoutingTableNode.id).Nodup) (hin : ∀ x ∈ nodes, b.Mem x.id.toNat) :
    LeafBucket.Fits (sortById nodes) b where
  length := (sortById_perm nodes).length_eq.trans_le hlen
  sorted := sortById_sorted nodes hnd
  inside x hx := hin x ((sortById_perm nodes).mem_iff.1 hx)

theorem perm_nested_middle {α : Type} (before pre post after : List α) (x : α) :
    (before ++ (pre ++ x :: post) ++ after).Perm (x :: (before ++ (pre ++ post) ++ after)) := by
  calc
    (before ++ (pre ++ x :: post) ++ after).Perm (before ++ x :: (pre ++ post) ++ after) :=
      (List.perm_middle.append_left before).append_right after
    List.Perm _ (x :: (before ++ (pre ++ post)) ++ after) := List.perm_middle.append_right after
    _ = x :: (before ++ (pre ++ post) ++ after) := rfl

theorem Fits.replace (fits : LeafBucket.Fits bucket.nodes b) {id : Id20} (addr : SocketAddr)
    (hid : b.Mem id.toNat) (hnew : ∀ x ∈ bucket.nodes, x.id ≠ id) {old : RoutingTableNode}
    {pre post : List RoutingTableNode} (hsplit : bucket.nodes = pre ++ old :: post) :
    LeafBucket.Fits (sortById (pre ++ RoutingTableNode.fresh id addr :: post)) b := by
  set nodes := pre ++ RoutingTableNode.fresh id addr :: post with hnodes
  have hlen : nodes.length = bucket.nodes.length := by
    simp only [hnodes, hsplit, List.length_append, List.length_cons]
  have hkept : ∀ x ∈ pre ++ post, x ∈ bucket.nodes := by
    intro x hx
    rw [hsplit]
    simp only [List.mem_append, List.mem_cons] at hx ⊢
    tauto
  have hnd : (nodes.map RoutingTableNode.id).Nodup := by
    have hold := Fits.ids_nodup fits
    rw [hsplit, List.map_append, List.map_cons, List.nodup_middle] at hold
    rw [hnodes, List.map_append, List.map_cons, List.nodup_middle, RoutingTableNode.fresh_id]
    refine List.nodup_cons.2 ⟨?_, (List.nodup_cons.1 hold).2⟩
    rw [← List.map_append]
    intro hm
    obtain ⟨x, hx, hxid⟩ := List.mem_map.1 hm
    exact hnew x (hkept x hx) hxid
  apply fits_sortById nodes (hlen.trans_le fits.length) hnd
  intro x hx
  rcases List.mem_cons.1 (List.perm_middle.mem_iff.1 hx) with rfl | hx
  · exact hid
  · exact fits.inside x (hkept x hx)

theorem Inv.round_replaced (h : t.Inv selfId) (hl : t.LeafAt i n bucket b)
    (fits : LeafBucket.Fits bucket.nodes b) (id : Id20) (addr : SocketAddr) (now : Instant)
    (hid : b.Mem id.toNat) (hnew : ∀ x ∈ bucket.nodes, x.id ≠ id) {old : RoutingTableNode}
    {pre post : List RoutingTableNode} (hsplit : bucket.nodes = pre ++ old :: post)
    (hbad : old.isBad now = true) :
    RoundCase t selfId id addr now bucket b (.done (.replacedBad old) (t.setBucket i n
      (sortById (pre ++ RoutingTableNode.fresh id addr :: post)) now)) := by
  have hfits := Fits.replace fits addr hid hnew hsplit
  set nodes := pre ++ RoutingTableNode.fresh id addr :: post with hnodes
  have hslen : (sortById nodes).length = bucket.nodes.length := by
    rw [(sortById_perm nodes).length_eq]
    simp only [hnodes, hsplit, List.length_append, List.length_cons]
  obtain ⟨before, after, hs, hs'⟩ := hl.stored_setBucket (sortById nodes) now
  have hbefore : t.stored.Perm (old :: (before ++ (pre ++ post) ++ after)) := by
    rw [hs, hsplit]
    exact perm_nested_middle before pre post after old
  refine .replaced hnew hbad (by simp [hsplit])
    (h.setBucket hl _ now hfits t.size (by omega) h.bounded) hbefore ?_ rfl rfl
  rw [hs']
  calc
    (before ++ sortById nodes ++ after).Perm (before ++ nodes ++ after) :=
      ((sortById_perm nodes).append_left before).append_right after
    List.Perm _ (RoutingTableNode.fresh id addr :: (before ++ (pre ++ post) ++ after)) :=
      perm_nested_middle before pre post after _

theorem Inv.round_room (h : t.Inv selfId) (hl : t.LeafAt i n bucket b)
    (fits : LeafBucket.Fits bucket.nodes b) (id : Id20) (addr : SocketAddr) (now : Instant)
    (hid : b.Mem id.toNat) (hnew : ∀ x ∈ bucket.nodes, x.id ≠ id)
    (hgood : ∀ x ∈ bucket.nodes, x.isBad now = false) (hbelow : t.size < t.maxSize)
    (hshort : bucket.nodes.length < 8) :
    RoundCase t selfId id addr now bucket b (.done .added
      { t.setBucket i n (sortById (bucket.nodes ++ [RoutingTableNode.fresh id addr])) now with
        size := t.size + 1 }) := by
  set nodes := bucket.nodes ++ [RoutingTableNode.fresh id addr] with hnodes
  have hlen : nodes.length = bucket.nodes.length + 1 := by simp [hnodes]
  have hperm : nodes.Perm (RoutingTableNode.fresh id addr :: bucket.nodes) :=
    List.perm_append_singleton _ _
  have hnd : (nodes.map RoutingTableNode.id).Nodup := by
    rw [(hperm.map RoutingTableNode.id).nodup_iff, List.map_cons, List.nodup_cons]
    refine ⟨?_, Fits.ids_nodup fits⟩
    intro hm
    obtain ⟨x, hx, hxid⟩ := List.mem_map.1 hm
    exact hnew x hx hxid
  have hfits : LeafBucket.Fits (sortById nodes) b := by
    refine fits_sortById nodes (by omega) hnd fun x hx => ?_
    rcases List.mem_cons.1 (hperm.mem_iff.1 hx) with rfl | hx
    · exact hid
    · exact fits.inside x hx
  have hslen : (sortById nodes).length = bucket.nodes.length + 1 :=
    (sortById_perm nodes).length_eq.trans hlen
  obtain ⟨before, after, hs, hs'⟩ := hl.stored_setBucket (sortById nodes) now
  refine .room hnew hgood hbelow hshort
    (h.setBucket hl _ now hfits (t.size + 1) (by omega) (by omega)) ?_ rfl rfl
  change ((t.setBucket i n (sortById nodes) now).stored).Perm _
  rw [hs', hs]
  calc
    (before ++ sortById nodes ++ after).Perm
        (before ++ (RoutingTableNode.fresh id addr :: bucket.nodes) ++ after) :=
      (((sortById_perm nodes).trans hperm).append_left before).append_right after
    List.Perm _ (RoutingTableNode.fresh id addr :: (before ++ bucket.nodes) ++ after) :=
      List.perm_middle.append_right after
    _ = RoutingTableNode.fresh id addr :: (before ++ bucket.nodes ++ after) := rfl

theorem Inv.insertRound_cases (h : t.Inv selfId) (hl : t.LeafAt i n bucket b) (id : Id20)
    (addr : SocketAddr) (now leftClock rightClock : Instant) (hid : b.Mem id.toNat) :
    ∃ r, t.insertRound i selfId id addr now leftClock rightClock = .ok r ∧
      RoundCase t selfId id addr now bucket b r := by
  obtain ⟨c, hc, fits⟩ := h.leaf i n bucket hl.node hl.data
  obtain rfl := hc.covers.unique hl.covers
  simp only [insertRound, hl.node, hl.data]
  by_cases hex : bucket.nodes.any (fun r => r.id = id) = true
  · rw [if_pos hex]
    have hfound : ∃ x ∈ bucket.nodes, x.id = id := by simpa using hex
    exact ⟨_, rfl, .existing hfound⟩
  rw [if_neg hex]
  have hnew : ∀ x ∈ bucket.nodes, x.id ≠ id := by simpa using hex
  cases hbad : updateFirst (fun r => r.isBad now) (fun _ => RoutingTableNode.fresh id addr) bucket.nodes with
  | some found =>
    obtain ⟨old, nodes⟩ := found
    obtain ⟨pre, post, hsplit, rfl, hold⟩ := updateFirst_eq_some hbad
    exact ⟨_, rfl, h.round_replaced hl fits id addr now hid hnew hsplit hold⟩
  | none =>
    have hgood := updateFirst_eq_none hbad
    have hle := h.bounded
    by_cases hfull : t.size = t.maxSize
    · exact ⟨_, if_pos hfull, .full hnew hgood hfull⟩
    dsimp only
    rw [if_neg hfull]
    have hbelow : t.size < t.maxSize := by omega
    by_cases hshort : bucket.nodes.length < 8
    · exact ⟨_, if_pos hshort, h.round_room hl fits id addr now hid hnew hgood hbelow hshort⟩
    rw [if_neg hshort]
    have hlong : bucket.nodes.length = 8 := by
      have := fits.length
      omega
    have hself : (selfId < n.start ∨ selfId > n.endInclusive) ↔ ¬ c.Mem selfId.toNat := by
      rw [← hl.covers.mem_iff, not_and_or, gt_iff_lt, BitVec.not_le, BitVec.not_le]
    by_cases hout : selfId < n.start ∨ selfId > n.endInclusive
    · exact ⟨_, if_pos hout, .far hnew hgood hbelow hlong (hself.1 hout)⟩
    rw [if_neg hout]
    have hin : c.Mem selfId.toNat := not_not.1 fun hm => hout (hself.2 hm)
    have hbits := Fits.four_le_bits fits hlong id hid hnew
    obtain ⟨t', idx, n', bucket', d, hrun, inv, leaf, mem, half, sub, after, size, maxSize⟩ :=
      h.splitLeaf_spec hl fits hbits hin id hid leftClock rightClock
    exact ⟨.again t' idx, by rw [hrun]; rfl,
      .split hnew hgood hbelow hlong hin hbits inv leaf mem half sub after size maxSize⟩

end OneRound

def InLeafOf (t : BucketTree) (id : Id20) (x : RoutingTableNode) : Prop :=
  ∃ i n bucket b, t.LeafAt i n bucket b ∧ b.Mem id.toNat ∧ x ∈ bucket.nodes

inductive InsertCase (t : BucketTree) (id : Id20) (addr : SocketAddr) (now : Instant) :
    InsertResult → BucketTree → Prop where
  | existing {t' : BucketTree} (found : ∃ x ∈ t.stored, x.id = id) (same : t' = t) :
      InsertCase t id addr now .wasExisting t'
  | replaced {old : RoutingTableNode} {rest : List RoutingTableNode} {t' : BucketTree}
      (new : ∀ x ∈ t.stored, x.id ≠ id) (bad : old.isBad now = true) (home : t.InLeafOf id old)
      (before : t.stored.Perm (old :: rest))
      (after : t'.stored.Perm (RoutingTableNode.fresh id addr :: rest)) (size : t'.size = t.size) :
      InsertCase t id addr now (.replacedBad old) t'
  | added {t' : BucketTree} (new : ∀ x ∈ t.stored, x.id ≠ id)
      (noBad : ∀ x, t.InLeafOf id x → x.isBad now = false) (below : t.size < t.maxSize)
      (after : t'.stored.Perm (RoutingTableNode.fresh id addr :: t.stored))
      (size : t'.size = t.size + 1) : InsertCase t id addr now .added t'
  | ignored {t' : BucketTree} (new : ∀ x ∈ t.stored, x.id ≠ id)
      (noBad : ∀ x, t.InLeafOf id x → x.isBad now = false) (after : t'.stored.Perm t.stored)
      (size : t'.size = t.size) : InsertCase t id addr now .ignored t'

section Effects
variable {t t' : BucketTree} {id : Id20} {addr : SocketAddr} {now : Instant} {res : InsertResult}

/-- An insertion brings in at most one entry, which is fresh and has a new identifier. -/
theorem InsertCase.mem_after (h : t.InsertCase id addr now res t') {y : RoutingTableNode}
    (hy : y ∈ t'.stored) :
    y ∈ t.stored ∨ (y = RoutingTableNode.fresh id addr ∧ ∀ x ∈ t.stored, x.id ≠ id) := by
  cases h with
  | existing found same =>
    rw [same] at hy
    exact .inl hy
  | replaced new bad home before after size =>
    rcases List.mem_cons.1 (after.mem_iff.1 hy) with rfl | hrest
    · exact .inr ⟨rfl, new⟩
    · exact .inl (before.mem_iff.2 (List.mem_cons_of_mem _ hrest))
  | added new noBad below after size =>
    rcases List.mem_cons.1 (after.mem_iff.1 hy) with rfl | hold
    · exact .inr ⟨rfl, new⟩
    · exact .inl hold
  | ignored new noBad after size => exact .inl (after.mem_iff.1 hy)

theorem InsertCase.mem_before (h : t.InsertCase id addr now res t') {x : RoutingTableNode}
    (hx : x ∈ t.stored) : x ∈ t'.stored ∨ x.isBad now = true := by
  cases h with
  | existing found same =>
    rw [same]
    exact .inl hx
  | replaced new bad home before after size =>
    rcases List.mem_cons.1 (before.mem_iff.1 hx) with rfl | hrest
    · exact .inr bad
    · exact .inl (after.mem_iff.2 (List.mem_cons_of_mem _ hrest))
  | added new noBad below after size => exact .inl (after.mem_iff.2 (List.mem_cons_of_mem _ hx))
  | ignored new noBad after size => exact .inl (after.mem_iff.2 hx)

end Effects

section Loop
variable {t : BucketTree} {selfId : Id20} {i : ℕ} {n : BucketTreeNode} {bucket : LeafBucket} {b : Block}

theorem Inv.inLeafOf_iff (h : t.Inv selfId) (hl : t.LeafAt i n bucket b) {id : Id20}
    (hid : b.Mem id.toNat) (x : RoutingTableNode) : t.InLeafOf id x ↔ x ∈ bucket.nodes := by
  constructor
  · rintro ⟨j, m, bm, c, hj, hc, hx⟩
    obtain rfl := h.leaf_unique hl hj hid hc
    obtain rfl := Option.some.inj (hl.node.symm.trans hj.node)
    cases hl.data.symm.trans hj.data
    exact hx
  · intro hx
    exact ⟨i, n, bucket, b, hl, hid, hx⟩

theorem Inv.new_iff (h : t.Inv selfId) (hl : t.LeafAt i n bucket b) {id : Id20} (hid : b.Mem id.toNat) :
    (∀ x ∈ bucket.nodes, x.id ≠ id) ↔ ∀ x ∈ t.stored, x.id ≠ id := by
  constructor
  · intro hnew x hx hxid
    exact hnew x (h.mem_leaf_of_stored hl hx (hxid ▸ hid)) hxid
  · intro hnew x hx
    exact hnew x (hl.mem_stored hx)

/-- Each round that goes on has one bit less to share, so the loop ends, and with one of the
listed results. -/
theorem Inv.insertLoop_cases (h : t.Inv selfId) (hl : t.LeafAt i n bucket b) (id : Id20)
    (addr : SocketAddr) (now : Instant) (fuel : ℕ) (clock : ℕ → Instant) (hid : b.Mem id.toNat)
    (hfuel : b.bits < fuel) :
    ∃ res t', insertLoop selfId id addr now fuel clock t i = .ok (res, t') ∧ t'.Inv selfId ∧
      t'.maxSize = t.maxSize ∧ InsertCase t id addr now res t' := by
  induction fuel generalizing t i n bucket b clock with
  | zero => omega
  | succ fuel ih =>
    obtain ⟨r, hr, hcase⟩ := h.insertRound_cases hl id addr now (clock 0) (clock 1) hid
    have hnoBad : (∀ x ∈ bucket.nodes, x.isBad now = false) →
        ∀ x, t.InLeafOf id x → x.isBad now = false :=
      fun hb x hx => hb x ((h.inLeafOf_iff hl hid x).1 hx)
    simp only [insertLoop, hr, ok_bind, pure_eq_ok]
    cases hcase with
    | existing found =>
      obtain ⟨x, hx, hxid⟩ := found
      exact ⟨_, _, rfl, h, rfl, .existing ⟨x, hl.mem_stored hx, hxid⟩ rfl⟩
    | replaced new bad mem inv before after size maxSize =>
      exact ⟨_, _, rfl, inv, maxSize, .replaced ((h.new_iff hl hid).1 new) bad
        ((h.inLeafOf_iff hl hid _).2 mem) before after size⟩
    | full new noBad size =>
      exact ⟨_, _, rfl, h, rfl, .ignored ((h.new_iff hl hid).1 new) (hnoBad noBad) (.refl _) rfl⟩
    | room new noBad below short inv after size maxSize =>
      exact ⟨_, _, rfl, inv, maxSize,
        .added ((h.new_iff hl hid).1 new) (hnoBad noBad) below after size⟩
    | far new noBad below long outside =>
      exact ⟨_, _, rfl, h, rfl, .ignored ((h.new_iff hl hid).1 new) (hnoBad noBad) (.refl _) rfl⟩
    | @split t' idx n' bucket' c new noBad below long inside bits inv leaf mem half sub after size maxSize =>
      have hc : c.bits < fuel := by
        rcases half with rfl | rfl
        · change b.bits - 1 < fuel
          omega
        · change b.bits - 1 < fuel
          omega
      obtain ⟨res, t'', hrun, inv', max', hres⟩ := ih inv leaf (fun k => clock (k + 2)) mem hc
      refine ⟨res, t'', hrun, inv', max'.trans maxSize, ?_⟩
      have hnew := (h.new_iff hl hid).1 new
      -- the entries are those before the split, and none of them is bad
      cases hres with
      | existing found _ =>
        obtain ⟨x, hx, hxid⟩ := found
        exact absurd hxid (hnew x (after.mem_iff.1 hx))
      | replaced _ bad home _ _ _ =>
        have hmem := (inv.inLeafOf_iff leaf mem _).1 home
        rw [noBad _ (sub hmem)] at bad
        cases bad
      | added _ _ _ after' size' =>
        exact .added hnew (hnoBad noBad) below (after'.trans (after.cons _)) (by omega)
      | ignored _ _ after' size' =>
        exact .ignored hnew (hnoBad noBad) (after'.trans after) (size'.trans size)

theorem Inv.addNode_cases (h : t.Inv selfId) (id : Id20) (addr : SocketAddr) (clock : ℕ → Instant) :
    ∃ res t', t.addNode selfId id addr clock = .ok (res, t') ∧ t'.Inv selfId ∧
      t'.maxSize = t.maxSize ∧ InsertCase t id addr (clock 0) res t' := by
  obtain ⟨i, n, bucket, b, hget, hl, hid⟩ := h.getLeaf_spec id
  have hbits := hl.covers.bits_le
  obtain ⟨res, t', hrun, rest⟩ := h.insertLoop_cases hl id addr (clock 0) insertFuel
    (fun k => clock (k + 1)) hid (by rw [insertFuel]; omega)
  refine ⟨res, t', ?_, rest⟩
  rw [addNode, hget, ok_bind, insertIntoLeaf, hrun]

end Loop
end BucketTree
end LibrtbitDht
