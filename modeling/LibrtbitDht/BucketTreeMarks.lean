import LibrtbitDht.BucketTreeInsert

set_option autoImplicit false

namespace LibrtbitDht
open AlignedBlock
namespace BucketTree

variable {t : BucketTree} {selfId : Id20}

theorem Inv.stored_ids_nodup (h : t.Inv selfId) : (t.stored.map RoutingTableNode.id).Nodup := by
  obtain ⟨nodes, _, hperm, hsorted⟩ := h.iter_spec
  rw [← (hperm.map RoutingTableNode.id).nodup_iff]
  exact List.pairwise_map.2 (hsorted.imp fun hlt => BitVec.ne_of_lt hlt)

theorem Inv.stored_unique (h : t.Inv selfId) {x y : RoutingTableNode} (hx : x ∈ t.stored)
    (hy : y ∈ t.stored) (hid : x.id = y.id) : x = y :=
  List.inj_on_of_nodup_map h.stored_ids_nodup hx hy hid

def rewriteId (id : Id20) (f : RoutingTableNode → RoutingTableNode) (nodes : List RoutingTableNode) :
    List RoutingTableNode :=
  nodes.map (fun x => if x.id = id then f x else x)

theorem rewriteId_of_new {id : Id20} (f : RoutingTableNode → RoutingTableNode)
    {nodes : List RoutingTableNode} (h : ∀ x ∈ nodes, x.id ≠ id) : rewriteId id f nodes = nodes := by
  calc
    rewriteId id f nodes = nodes.map (fun x => x) := List.map_congr_left fun x hx => if_neg (h x hx)
    _ = nodes := List.map_id' nodes

theorem rewriteId_middle {id : Id20} (f : RoutingTableNode → RoutingTableNode)
    {pre post : List RoutingTableNode} {x : RoutingTableNode} (hx : x.id = id)
    (hnd : ((pre ++ x :: post).map RoutingTableNode.id).Nodup) :
    rewriteId id f (pre ++ x :: post) = pre ++ f x :: post := by
  rw [List.map_append, List.map_cons, List.nodup_middle, List.nodup_cons, ← List.map_append] at hnd
  have hne : ∀ y ∈ pre ++ post, y.id ≠ id := by
    intro y hy hyid
    exact hnd.1 (List.mem_map.2 ⟨y, hy, hyid.trans hx.symm⟩)
  have hpre := rewriteId_of_new f fun y hy => hne y (List.mem_append_left _ hy)
  have hpost := rewriteId_of_new f fun y hy => hne y (List.mem_append_right _ hy)
  rw [rewriteId] at hpre hpost ⊢
  rw [List.map_append, List.map_cons, hpre, hpost, if_pos hx]

theorem mem_rewriteId {id : Id20} {f : RoutingTableNode → RoutingTableNode}
    {nodes : List RoutingTableNode} {y : RoutingTableNode} :
    y ∈ rewriteId id f nodes ↔ ∃ x ∈ nodes, y = if x.id = id then f x else x := by
  simp only [rewriteId, List.mem_map, eq_comm]

theorem rewriteId_ids {id : Id20} {f : RoutingTableNode → RoutingTableNode} (hf : ∀ x, (f x).id = x.id)
    (nodes : List RoutingTableNode) :
    (rewriteId id f nodes).map RoutingTableNode.id = nodes.map RoutingTableNode.id := by
  rw [rewriteId, List.map_map]
  refine List.map_congr_left fun x _ => ?_
  by_cases h : x.id = id <;> simp [h, hf]

/-- `getMut` finds the stored entry and lets the caller rewrite it, or finds that there is none. -/
theorem Inv.getMut_cases (h : t.Inv selfId) (id : Id20) (refresh : Option Instant)
    (f : RoutingTableNode → RoutingTableNode) (hf : ∀ x, (f x).id = x.id) :
    (∃ x t', x ∈ t.stored ∧ x.id = id ∧ t.getMut id refresh f = .ok (some x, t') ∧ t'.Inv selfId ∧
      t'.stored = rewriteId id f t.stored ∧ t'.size = t.size ∧ t'.maxSize = t.maxSize) ∨
    ((∀ x ∈ t.stored, x.id ≠ id) ∧ t.getMut id refresh f = .ok (none, t)) := by
  obtain ⟨i, n, bucket, b, hget, hl, hid⟩ := h.getLeaf_spec id
  obtain ⟨c, hc, fits⟩ := h.leaf i n bucket hl.node hl.data
  obtain rfl := hc.covers.unique hl.covers
  cases hu : updateFirst (fun y => y.id = id) f bucket.nodes with
  | none =>
    right
    have hnone := updateFirst_eq_none hu
    refine ⟨(h.new_iff hl hid).1 fun x hx => by simpa using hnone x hx, ?_⟩
    simp [getMut, hget, hl.node, hl.data, hu]
  | some found =>
    left
    obtain ⟨x, nodes⟩ := found
    obtain ⟨pre, post, hsplit, hnodes, hxid⟩ := updateFirst_eq_some hu
    have hxid : x.id = id := by simpa using hxid
    have hxmem : x ∈ bucket.nodes := by simp [hsplit]
    have hrew : nodes = rewriteId id f bucket.nodes := by
      have hnd := Fits.ids_nodup fits
      rw [hsplit] at hnd
      rw [hnodes, hsplit, rewriteId_middle f hxid hnd]
    have hids : nodes.map RoutingTableNode.id = bucket.nodes.map RoutingTableNode.id := by
      rw [hrew, rewriteId_ids hf]
    have hlen : nodes.length = bucket.nodes.length := by
      simpa only [List.length_map] using congrArg List.length hids
    have hfits : LeafBucket.Fits nodes c := by
      refine ⟨hlen.trans_le fits.length, ?_, ?_⟩
      · rw [← List.pairwise_map (f := RoutingTableNode.id) (R := (· < ·)), hids, List.pairwise_map]
        exact fits.sorted
      · intro y hy
        have hyid : y.id ∈ bucket.nodes.map RoutingTableNode.id := hids ▸ List.mem_map_of_mem hy
        obtain ⟨z, hz, hzid⟩ := List.mem_map.1 hyid
        rw [← hzid]
        exact fits.inside z hz
    have hinv := h.setBucket hl nodes (refresh.getD bucket.lastRefreshed) hfits t.size (by omega) h.bounded
    obtain ⟨before, after, hs, hs'⟩ := hl.stored_setBucket nodes (refresh.getD bucket.lastRefreshed)
    refine ⟨x, t.setBucket i n nodes (refresh.getD bucket.lastRefreshed), hl.mem_stored hxmem, hxid, ?_,
      hinv, ?_, rfl, rfl⟩
    · simp [getMut, hget, hl.node, hl.data, hu]
      rfl
    · have hnd := h.stored_ids_nodup
      have hstored : t.stored = (before ++ pre) ++ x :: (post ++ after) := by
        rw [hs, hsplit]
        simp
      rw [hstored] at hnd
      rw [hs', hstored, rewriteId_middle f hxid hnd, hnodes]
      simp

end BucketTree
end LibrtbitDht
