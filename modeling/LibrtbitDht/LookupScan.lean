import LibrtbitDht.InsertionEffect
import LibrtbitDht.TreeRepresentation

set_option autoImplicit false

namespace LibrtbitDht
open AlignedBlock BucketTree

section Written
variable (id : Id20) (refresh : Option Instant) (f : RoutingTableNode → RoutingTableNode)

/-- The bucket after a write to its entry with the identifier, if it has one. -/
def LeafBucket.written (bucket : LeafBucket) : LeafBucket :=
  if ∃ x ∈ bucket.nodes, x.id = id then ⟨rewriteId id f bucket.nodes, refresh.getD bucket.lastRefreshed⟩
  else bucket

def BucketTreeNode.written (n : BucketTreeNode) : BucketTreeNode :=
  match n.data with
  | .leaf bucket => { n with data := .leaf (bucket.written id refresh f) }
  | .leftRight _ _ => n

def BucketTreeIteratorItem.written (item : BucketTreeIteratorItem) : BucketTreeIteratorItem :=
  { item with leaf := item.leaf.written id refresh f }

def BucketTree.written (t : BucketTree) : BucketTree :=
  { t with data := t.data.map (BucketTreeNode.written id refresh f) }

theorem LeafBucket.written_of_new {bucket : LeafBucket} (hnew : ∀ x ∈ bucket.nodes, x.id ≠ id) :
    bucket.written id refresh f = bucket := by
  apply if_neg
  rintro ⟨x, hx, hxid⟩
  exact hnew x hx hxid

theorem LeafBucket.written_nodes (bucket : LeafBucket) :
    (bucket.written id refresh f).nodes = rewriteId id f bucket.nodes := by
  by_cases hfound : ∃ x ∈ bucket.nodes, x.id = id
  · rw [LeafBucket.written, if_pos hfound]
  · have hnew : ∀ x ∈ bucket.nodes, x.id ≠ id := fun x hx hxid => hfound ⟨x, hx, hxid⟩
    rw [LeafBucket.written_of_new id refresh f hnew, rewriteId_of_new f hnew]

theorem BucketTreeNode.written_of_new {n : BucketTreeNode} (hnew : ∀ x ∈ n.nodes, x.id ≠ id) :
    n.written id refresh f = n := by
  unfold BucketTreeNode.written
  cases hd : n.data with
  | leaf bucket =>
    have hbucket : ∀ x ∈ bucket.nodes, x.id ≠ id := fun x hx => hnew x (mem_nodes_iff.2 ⟨bucket, hd, hx⟩)
    dsimp only
    rw [LeafBucket.written_of_new id refresh f hbucket, ← hd]
  | leftRight l r => rfl

@[simp] theorem BucketTreeNode.written_range (n : BucketTreeNode) :
    (n.written id refresh f).bits = n.bits ∧ (n.written id refresh f).start = n.start ∧
      (n.written id refresh f).endInclusive = n.endInclusive := by
  unfold BucketTreeNode.written
  cases n.data <;> exact ⟨rfl, rfl, rfl⟩

theorem written_getElem? (t : BucketTree) (i : ℕ) :
    (t.written id refresh f).data[i]? = (t.data[i]?).map (BucketTreeNode.written id refresh f) := List.getElem?_map

theorem next_written (t : BucketTree) (fuel : ℕ) (queue : List ℕ) : (t.written id refresh f).next fuel queue =
    (t.next fuel queue).map (Option.map (Prod.map (BucketTreeIteratorItem.written id refresh f) (fun rest => rest))) := by
  induction fuel generalizing queue with
  | zero =>
    cases queue with
    | nil => rfl
    | cons idx queue => rfl
  | succ fuel ih =>
    cases queue with
    | nil => rfl
    | cons idx queue =>
      have hget := written_getElem? id refresh f t idx
      cases hn : t.data[idx]? with
      | none =>
        rw [hn] at hget
        simp only [next, hget, hn, Option.map_none, ih]
      | some n =>
        rw [hn] at hget
        cases hd : n.data with
        | leaf bucket =>
          simp only [next, hget, hn, Option.map_some, BucketTreeNode.written, hd]
          rfl
        | leftRight l r => simp only [next, hget, hn, Option.map_some, BucketTreeNode.written, hd, ih]

theorem drain_written (t : BucketTree) (fuel : ℕ) (queue : List ℕ) : (t.written id refresh f).drain fuel queue =
    (t.drain fuel queue).map (List.map (BucketTreeIteratorItem.written id refresh f)) := by
  induction fuel generalizing queue with
  | zero => rfl
  | succ fuel ih =>
    have hlen : (t.written id refresh f).data.length = t.data.length := List.length_map _
    rw [drain, drain, hlen, next_written]
    cases t.next (t.data.length + queue.length) queue with
    | error fault => rfl
    | ok found =>
      cases found with
      | none => rfl
      | some found =>
        obtain ⟨item, rest⟩ := found
        change (do let items ← (t.written id refresh f).drain fuel rest
                   return item.written id refresh f :: items) = _
        rw [ih]
        change _ = Except.map _ (do let items ← t.drain fuel rest; return item :: items)
        cases t.drain fuel rest with
        | error fault => rfl
        | ok items => rfl

theorem iterLeaves_written (t : BucketTree) : (t.written id refresh f).iterLeaves =
    t.iterLeaves.map (List.map (BucketTreeIteratorItem.written id refresh f)) := by
  have hlen : (t.written id refresh f).data.length = t.data.length := List.length_map _
  rw [iterLeaves, iterLeaves, hlen, drain_written]

theorem iter_written (t : BucketTree) : (t.written id refresh f).iter = t.iter.map (rewriteId id f) := by
  rw [BucketTree.iter, BucketTree.iter, iterLeaves_written]
  cases t.iterLeaves with
  | error fault => rfl
  | ok items =>
    change Except.ok ((items.map (BucketTreeIteratorItem.written id refresh f)).flatMap (fun item => item.leaf.nodes)) =
      Except.ok (rewriteId id f (items.flatMap (fun item => item.leaf.nodes)))
    congr 1
    rw [rewriteId, List.map_flatMap, List.flatMap_map]
    exact List.flatMap_congr fun item _ => LeafBucket.written_nodes id refresh f item.leaf

end Written

def BucketTreeIteratorItem.Contains (item : BucketTreeIteratorItem) (id : Id20) : Prop :=
  item.start ≤ id ∧ id ≤ item.endInclusive

section Scan
variable {t : BucketTree} {selfId : Id20} {nodes : List RoutingTableNode} {items : List BucketTreeIteratorItem}

theorem BucketTree.Inv.find_listed (h : t.Inv selfId) (hiter : t.iter = .ok nodes) {x : RoutingTableNode}
    (hx : x ∈ t.stored) : nodes.find? (fun y => y.id = x.id) = some x := by
  obtain ⟨listed, hlisted, hperm, _⟩ := h.iter_spec
  cases Except.ok.inj (hiter.symm.trans hlisted)
  cases hfind : nodes.find? (fun y => y.id = x.id) with
  | none => simpa using List.find?_eq_none.1 hfind x (hperm.mem_iff.2 hx)
  | some y =>
    have hy := hperm.mem_iff.1 (List.mem_of_find?_eq_some hfind)
    have hyid : y.id = x.id := by simpa using List.find?_some hfind
    rw [h.stored_unique hy hx hyid]

theorem BucketTree.Inv.setNode_eq_written (h : t.Inv selfId) {i : ℕ} {n : BucketTreeNode} {bucket : LeafBucket}
    {b : Block} (hl : t.LeafAt i n bucket b) {id : Id20} (hid : b.Mem id.toNat) (refresh : Option Instant)
    (f : RoutingTableNode → RoutingTableNode) :
    t.setNode i { n with data := .leaf (bucket.written id refresh f) } = t.written id refresh f := by
  unfold setNode BucketTree.written
  congr 1
  apply List.ext_getElem?
  intro j
  rw [List.getElem?_map, List.getElem?_set]
  by_cases hij : i = j
  · subst hij
    rw [if_pos rfl, if_pos (lt_length hl.node), hl.node, Option.map_some, BucketTreeNode.written, hl.data]
  · rw [if_neg hij]
    cases hm : t.data[j]? with
    | none => rfl
    | some m =>
      have hnew : ∀ x ∈ m.nodes, x.id ≠ id := by
        rintro x hx rfl
        obtain ⟨bucket', hd, hx⟩ := mem_nodes_iff.1 hx
        obtain ⟨c, hc, fits⟩ := h.leaf j m bucket' hm hd
        exact hij (h.leaf_unique hl hc hid (fits.inside x hx))
      rw [Option.map_some, BucketTreeNode.written_of_new id refresh f hnew]

theorem BucketTree.written_of_new {id : Id20} (hnew : ∀ x ∈ t.stored, x.id ≠ id)
    (refresh : Option Instant) (f : RoutingTableNode → RoutingTableNode) : t.written id refresh f = t := by
  unfold BucketTree.written
  have hsame : t.data.map (BucketTreeNode.written id refresh f) = t.data := by
    calc
      t.data.map (BucketTreeNode.written id refresh f) = t.data.map (fun n => n) := by
        refine List.map_congr_left fun n hn => BucketTreeNode.written_of_new id refresh f ?_
        intro x hx
        exact hnew x (List.mem_flatMap.2 ⟨n, hn, hx⟩)
      _ = t.data := List.map_id' t.data
  rw [hsame]

/-- The descent finds what a scan finds, and a write through it is a write to every entry with
the identifier. -/
theorem BucketTree.Inv.getMut_scan (h : t.Inv selfId) (hiter : t.iter = .ok nodes) (id : Id20)
    (refresh : Option Instant) (f : RoutingTableNode → RoutingTableNode) :
    t.getMut id refresh f = .ok (nodes.find? (fun x => x.id = id), t.written id refresh f) := by
  obtain ⟨i, n, bucket, b, hget, hl, hid⟩ := h.getLeaf_spec id
  obtain ⟨c, hc, fits⟩ := h.leaf i n bucket hl.node hl.data
  simp only [getMut, hget, ok_bind, hl.node, hl.data]
  cases hu : updateFirst (fun y => y.id = id) f bucket.nodes with
  | none =>
    have hbucket : ∀ x ∈ bucket.nodes, x.id ≠ id := fun x hx => by simpa using updateFirst_eq_none hu x hx
    have hnew := (h.new_iff hl hid).1 hbucket
    obtain ⟨listed, hlisted, hperm, _⟩ := h.iter_spec
    cases Except.ok.inj (hiter.symm.trans hlisted)
    have hfind : nodes.find? (fun x => x.id = id) = none := by
      refine List.find?_eq_none.2 fun x hx => ?_
      simpa using hnew x (hperm.mem_iff.1 hx)
    rw [hfind, BucketTree.written_of_new hnew]
    rfl
  | some found =>
    obtain ⟨x, nodes'⟩ := found
    obtain ⟨pre, post, hsplit, hnodes, hxid⟩ := updateFirst_eq_some hu
    have hxid : x.id = id := by simpa using hxid
    subst hxid
    have hmem : x ∈ bucket.nodes := by
      rw [hsplit]
      exact List.mem_append_right _ List.mem_cons_self
    have hnodes' : nodes' = rewriteId x.id f bucket.nodes := by
      have hnd := Fits.ids_nodup fits
      rw [hsplit] at hnd
      rw [hnodes, hsplit, rewriteId_middle f rfl hnd]
    have hwritten : bucket.written x.id refresh f = ⟨nodes', refresh.getD bucket.lastRefreshed⟩ := by
      rw [LeafBucket.written, if_pos ⟨x, hmem, rfl⟩, hnodes']
    rw [h.find_listed hiter (hl.mem_stored hmem), ← h.setNode_eq_written hl hid, hwritten]
    rfl

theorem BucketTree.Inv.item_contains (h : t.Inv selfId) (hitems : t.iterLeaves = .ok items)
    {item : BucketTreeIteratorItem} (hitem : item ∈ items) {x : RoutingTableNode} (hx : x ∈ item.leaf.nodes) :
    item.Contains x.id := by
  obtain ⟨leaves, items', hrun, hall, _⟩ := h.visitsLeaves
  cases Except.ok.inj (hitems.symm.trans hrun)
  obtain ⟨j, _, hat⟩ := forall₂_mem_right hall hitem
  obtain ⟨b, hb, fits⟩ := h.leaf j _ item.leaf hat rfl
  exact (hb.covers.mem_iff x.id).2 (fits.inside x hx)

theorem BucketTree.Inv.exists_home (h : t.Inv selfId) (hitems : t.iterLeaves = .ok items) (id : Id20) :
    ∃ pre item post, items = pre ++ item :: post ∧ item.Contains id ∧
      ∀ other ∈ pre ++ post, ¬ other.Contains id := by
  obtain ⟨leaves, items', hrun, hall, _, hleaves, hasc⟩ := h.visitsLeaves
  cases Except.ok.inj (hitems.symm.trans hrun)
  obtain ⟨i, n, bucket, b, _, hl, hid⟩ := h.getLeaf_spec id
  obtain ⟨item, hitem, hat⟩ := forall₂_mem_right hall.flip ((hleaves i).2 ⟨n, bucket, hl.node, hl.data⟩)
  have hin : item.Contains id := by
    obtain rfl := Option.some.inj (hl.node.symm.trans hat)
    exact (hl.covers.mem_iff id).2 hid
  obtain ⟨pre, post, hsplit⟩ := List.append_of_mem hitem
  refine ⟨pre, item, post, hsplit, hin, ?_⟩
  rw [hsplit, List.pairwise_append, List.pairwise_cons] at hasc
  intro other hother hout
  rcases List.mem_append.1 hother with hother | hother
  · have hlt := hasc.2.2 other hother item List.mem_cons_self
    exact absurd (BitVec.le_trans hin.1 hout.2) (BitVec.not_le.2 hlt)
  · have hlt := hasc.2.1.1 other hother
    exact absurd (BitVec.le_trans hout.1 hin.2) (BitVec.not_le.2 hlt)

theorem BucketTree.Inv.iterLeaves_home (h : t.Inv selfId) (hiter : t.iter = .ok nodes)
    (hitems : t.iterLeaves = .ok items) {x : RoutingTableNode} (hx : x ∈ nodes) (refresh : Option Instant)
    (f : RoutingTableNode → RoutingTableNode) : ∃ pre item post, items = pre ++ item :: post ∧ item.Contains x.id ∧
      (∀ other ∈ pre ++ post, ¬ other.Contains x.id) ∧
      (t.written x.id refresh f).iterLeaves = .ok (pre ++ { item with
        leaf := ⟨rewriteId x.id f item.leaf.nodes, refresh.getD item.leaf.lastRefreshed⟩ } :: post) := by
  obtain ⟨pre, item, post, hsplit, hin, hout⟩ := h.exists_home hitems x.id
  refine ⟨pre, item, post, hsplit, hin, hout, ?_⟩
  have hmem : ∀ other ∈ pre ++ post, other ∈ items := by
    intro other hother
    rw [hsplit]
    exact List.perm_middle.mem_iff.2 (List.mem_cons_of_mem _ hother)
  have hothers : ∀ other ∈ pre ++ post, other.written x.id refresh f = other := by
    intro other hother
    have hnew : ∀ y ∈ other.leaf.nodes, y.id ≠ x.id := by
      intro y hy hyid
      exact hout other hother (hyid ▸ h.item_contains hitems (hmem other hother) hy)
    rw [BucketTreeIteratorItem.written, LeafBucket.written_of_new x.id refresh f hnew]
  have hhome : ∃ y ∈ item.leaf.nodes, y.id = x.id := by
    have hnodes : nodes = items.flatMap (fun item => item.leaf.nodes) := by
      rw [BucketTree.iter, hitems] at hiter
      exact (Except.ok.inj hiter).symm
    rw [hnodes] at hx
    obtain ⟨home, hhome, hxhome⟩ := List.mem_flatMap.1 hx
    rw [hsplit] at hhome
    rcases List.mem_cons.1 (List.perm_middle.mem_iff.1 hhome) with rfl | hother
    · exact ⟨x, hxhome, rfl⟩
    · exact absurd (h.item_contains hitems (hmem home hother) hxhome) (hout home hother)
  have hpre : pre.map (BucketTreeIteratorItem.written x.id refresh f) = pre :=
    (List.map_congr_left fun other hother => hothers other (List.mem_append_left _ hother)).trans (List.map_id' pre)
  have hpost : post.map (BucketTreeIteratorItem.written x.id refresh f) = post :=
    (List.map_congr_left fun other hother => hothers other (List.mem_append_right _ hother)).trans (List.map_id' post)
  rw [iterLeaves_written, hitems, hsplit]
  change Except.ok (List.map _ (pre ++ item :: post)) = _
  rw [List.map_append, List.map_cons, hpre, hpost, BucketTreeIteratorItem.written, LeafBucket.written, if_pos hhome]

end Scan

namespace RoutingTable

/-- What a mark that writes `f` does to a table with these nodes and buckets. -/
structure MarkEffect (rt : RoutingTable) (nodes : List RoutingTableNode) (items : List BucketTreeIteratorItem)
    (id : Id20) (refresh : Option Instant) (f : RoutingTableNode → RoutingTableNode) (found : Bool)
    (rt' : RoutingTable) : Prop where
  found_iff : found = true ↔ ∃ x ∈ nodes, x.id = id
  missed : found = false → rt' = rt
  node : found = true → ∃ pre x post, nodes = pre ++ x :: post ∧ x.id = id ∧ (∀ y ∈ pre ++ post, y.id ≠ id) ∧
    rt'.iter = .ok (pre ++ f x :: post)
  bucket : found = true → ∃ pre item post, items = pre ++ item :: post ∧ item.Contains id ∧
    (∀ other ∈ pre ++ post, ¬ other.Contains id) ∧ rt'.iterBuckets = .ok (pre ++ { item with
      leaf := ⟨rewriteId id f item.leaf.nodes, refresh.getD item.leaf.lastRefreshed⟩ } :: post)
  ranges : rt'.buckets.data.map (fun n => (n.bits, n.start, n.endInclusive)) =
    rt.buckets.data.map (fun n => (n.bits, n.start, n.endInclusive))
  sizes : rt'.size = rt.size ∧ rt'.buckets.size = rt.buckets.size
  kept : rt'.id = rt.id ∧ rt'.buckets.maxSize = rt.buckets.maxSize

def MarkOutcome (rt : RoutingTable) (nodes : List RoutingTableNode) (items : List BucketTreeIteratorItem) (id : Id20)
    (refresh : Option Instant) (f : RoutingTableNode → RoutingTableNode)
    (outcome : Except Fault (Bool × RoutingTable)) : Prop :=
  ∃ found rt', outcome = .ok (found, rt') ∧ rt.MarkEffect nodes items id refresh f found rt'

/-- `get_mut` and the marks find the identifier where a scan over the nodes finds it. -/
structure ScanAgreement (rt : RoutingTable) (nodes : List RoutingTableNode) (items : List BucketTreeIteratorItem)
    (id : Id20) (now : Instant) : Prop where
  getMut : ∀ refresh f, rt.buckets.getMut id refresh f =
    .ok (nodes.find? (fun x => x.id = id), rt.buckets.written id refresh f)
  markOutgoingRequest : rt.MarkOutcome nodes items id none (fun x => { x with lastRequest := some now })
    (rt.markOutgoingRequest id now)
  markResponse : rt.MarkOutcome nodes items id (some now) (fun x => { x with
    lastResponse := some now
    lastRequest := some (x.lastRequest.getD now)
    errorsInARow := 0 }) (rt.markResponse id now)
  markError : rt.MarkOutcome nodes items id none (fun x => { x with errorsInARow := x.errorsInARow + 1 })
    (rt.markError id)
  markLastQuery : rt.MarkOutcome nodes items id none (fun x => { x with lastQuery := some now })
    (rt.markLastQuery id now)

section Marks
variable {rt : RoutingTable} {nodes : List RoutingTableNode} {items : List BucketTreeIteratorItem}

theorem Inv.mark_effect (h : rt.Inv) (hiter : rt.iter = .ok nodes) (hitems : rt.iterBuckets = .ok items) (id : Id20)
    (refresh : Option Instant) (f : RoutingTableNode → RoutingTableNode) :
    ∃ found rt', rt.mark id refresh f = .ok (found, rt') ∧ rt.MarkEffect nodes items id refresh f found rt' := by
  have hscan := BucketTree.Inv.getMut_scan h hiter id refresh f
  obtain ⟨listed, hlisted, hperm, hasc⟩ := h.iter_listing
  cases Except.ok.inj (hiter.symm.trans hlisted)
  have hfound : (nodes.find? (fun x => x.id = id)).isSome = true ↔ ∃ x ∈ nodes, x.id = id := by
    simp [List.find?_isSome]
  refine ⟨(nodes.find? (fun x => x.id = id)).isSome, { rt with buckets := rt.buckets.written id refresh f }, ?_,
    hfound, ?_, ?_, ?_, ?_, ⟨rfl, rfl⟩, ⟨rfl, rfl⟩⟩
  · rw [mark, hscan]
    rfl
  · intro hmissed
    have hnew : ∀ x ∈ rt.buckets.stored, x.id ≠ id := by
      intro x hx hxid
      rw [hfound.2 ⟨x, hperm.mem_iff.2 hx, hxid⟩] at hmissed
      cases hmissed
    rw [BucketTree.written_of_new hnew]
  · intro hhit
    obtain ⟨x, hx, rfl⟩ := hfound.1 hhit
    obtain ⟨pre, post, rfl⟩ := List.append_of_mem hx
    have hnd : ((pre ++ x :: post).map RoutingTableNode.id).Nodup :=
      List.pairwise_map.2 (hasc.imp fun hlt => BitVec.ne_of_lt hlt)
    refine ⟨pre, x, post, rfl, rfl, ?_, ?_⟩
    · rw [List.map_append, List.map_cons, List.nodup_middle, List.nodup_cons, ← List.map_append] at hnd
      intro y hy hyid
      exact hnd.1 (List.mem_map.2 ⟨y, hy, hyid⟩)
    · change (rt.buckets.written x.id refresh f).iter = _
      rw [iter_written, show rt.buckets.iter = _ from hiter, ← rewriteId_middle f rfl hnd]
      rfl
  · intro hhit
    obtain ⟨x, hx, rfl⟩ := hfound.1 hhit
    exact BucketTree.Inv.iterLeaves_home h hiter hitems hx refresh f
  · change (rt.buckets.data.map (BucketTreeNode.written id refresh f)).map _ = _
    rw [List.map_map]
    refine List.map_congr_left fun n _ => ?_
    obtain ⟨hbits, hstart, hend⟩ := BucketTreeNode.written_range id refresh f n
    rw [Function.comp_apply, hbits, hstart, hend]

theorem Inv.scanAgreement (h : rt.Inv) (hiter : rt.iter = .ok nodes) (hitems : rt.iterBuckets = .ok items)
    (id : Id20) (now : Instant) : rt.ScanAgreement nodes items id now where
  getMut := BucketTree.Inv.getMut_scan h hiter id
  markOutgoingRequest := h.mark_effect hiter hitems id none _
  markResponse := by
    have hfields : RoutingTableNode.markResponse now = fun x => { x with
        lastResponse := some now
        lastRequest := some (x.lastRequest.getD now)
        errorsInARow := 0 } := by
      funext x
      cases hreq : x.lastRequest <;> simp [RoutingTableNode.markResponse, hreq]
    rw [← hfields]
    exact h.mark_effect hiter hitems id (some now) _
  markError := h.mark_effect hiter hitems id none _
  markLastQuery := h.mark_effect hiter hitems id none _

/-- In a reachable table `get_mut` finds what a scan over all nodes finds, and each mark returns
whether there is such a node and writes to it only. -/
theorem reachable_scanAgreement (F : TextFormats) (rt : RoutingTable) (h : rt.Reachable F) (id : Id20) (now : Instant) :
    ∃ nodes items, rt.iter = .ok nodes ∧ rt.iterBuckets = .ok items ∧ rt.ScanAgreement nodes items id now := by
  obtain ⟨nodes, hiter, _, _⟩ := h.inv.iter_listing
  obtain ⟨_, items, _, hitems, _⟩ := BucketTree.Inv.iterLeaves_spec h.inv
  exact ⟨nodes, items, hiter, hitems, h.inv.scanAgreement hiter hitems id now⟩

theorem sampleTable_scanAgreement :
    ∃ nodes items, (Persistence.sampleTable Persistence.sampleV4).iter = .ok nodes ∧
      (Persistence.sampleTable Persistence.sampleV4).iterBuckets = .ok items ∧
      (Persistence.sampleTable Persistence.sampleV4).ScanAgreement nodes items 2 9 :=
  reachable_scanAgreement Persistence.sampleFormats (Persistence.sampleTable Persistence.sampleV4)
    Persistence.sampleTable_reachable 2 9

end Marks
end RoutingTable
end LibrtbitDht
