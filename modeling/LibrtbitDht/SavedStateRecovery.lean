import LibrtbitDht.PeerStoreInvariant
import LibrtbitDht.Restart

set_option autoImplicit false

namespace LibrtbitDht
open AlignedBlock TransitionRuns

section Shape

structure RoutingTableNode.Blank (n : RoutingTableNode) : Prop where
  lastRequest : n.lastRequest = none
  lastResponse : n.lastResponse = none
  lastQuery : n.lastQuery = none
  errorsInARow : n.errorsInARow = 0

inductive BucketTreeNodeData.SavedAs : BucketTreeNodeData → BucketTreeNodeData → Prop where
  | leaf {b b' : LeafBucket}
      (contacts : b'.nodes.map (fun n => (n.id, n.addr)) = b.nodes.map (fun n => (n.id, n.addr.withoutFlowinfo)))
      (blank : ∀ n ∈ b'.nodes, n.Blank) : SavedAs (.leaf b) (.leaf b')
  | leftRight (left right : ℕ) : SavedAs (.leftRight left right) (.leftRight left right)

structure BucketTreeNode.SavedAs (n n' : BucketTreeNode) : Prop where
  bits : n'.bits = n.bits
  start : n'.start = n.start
  endInclusive : n'.endInclusive = n.endInclusive
  data : n.data.SavedAs n'.data

/-- The table that is read back from what was written of the first one. -/
structure RoutingTable.SavedAs (rt rt' : RoutingTable) : Prop where
  id : rt'.id = rt.id
  size : rt'.size = rt.size
  treeSize : rt'.buckets.size = rt.buckets.size
  maxSize : rt'.buckets.maxSize = rt.buckets.maxSize
  nodes : List.Forall₂ BucketTreeNode.SavedAs rt.buckets.data rt'.buckets.data
  inv : rt'.Inv

theorem BucketTreeNodeData.savedAs_restored (clock : Instant) (d : BucketTreeNodeData) : d.SavedAs (d.restored clock) := by
  cases d with
  | leaf b =>
    constructor
    · simp [LeafBucket.restored, RoutingTableNode.restored, RoutingTableNode.fresh]
    · intro n hn
      obtain ⟨m, _, rfl⟩ := List.mem_map.1 hn
      exact ⟨rfl, rfl, rfl, rfl⟩
  | leftRight left right => exact .leftRight left right

theorem BucketTree.savedAs_restored (clock : ℕ → Instant) (data : List BucketTreeNode) :
    List.Forall₂ BucketTreeNode.SavedAs data (data.mapIdx (fun i n => n.restored (clock i))) := by
  rw [List.forall₂_iff_get]
  refine ⟨List.length_mapIdx.symm, ?_⟩
  intro i hi hi'
  rw [List.get_eq_getElem, List.get_eq_getElem, List.getElem_mapIdx]
  exact ⟨rfl, rfl, rfl, BucketTreeNodeData.savedAs_restored _ _⟩

end Shape

section Tables
variable {t : BucketTree} {selfId : Id20} (clock : ℕ → Instant)

theorem BucketTreeNode.Covers.restored {n : BucketTreeNode} {b : Block} (h : n.Covers b) (now : Instant) :
    (n.restored now).Covers b := ⟨h.bits, h.start, h.last⟩

theorem LeafBucket.Fits.restored {nodes : List RoutingTableNode} {b : Block} (h : LeafBucket.Fits nodes b) :
    LeafBucket.Fits (nodes.map RoutingTableNode.restored) b := by
  refine ⟨?_, ?_, ?_⟩
  · rw [List.length_map]
    exact h.length
  · rw [List.pairwise_map]
    exact h.sorted
  · intro x hx
    obtain ⟨y, hy, rfl⟩ := List.mem_map.1 hx
    exact h.inside y hy

theorem BucketTree.isChild_restored (p j : ℕ) : (t.restored clock).IsChild p j ↔ t.IsChild p j := by
  unfold IsChild
  rw [t.restored_getElem? clock p]
  cases t.data[p]? with
  | none => simp
  | some n =>
    cases hd : n.data with
    | leaf b => simp [BucketTreeNode.restored, BucketTreeNodeData.restored, hd]
    | leftRight left right => simp [BucketTreeNode.restored, BucketTreeNodeData.restored, hd]

theorem BucketTreeNode.nodes_restored (n : BucketTreeNode) (now : Instant) :
    (n.restored now).nodes = n.nodes.map RoutingTableNode.restored := by
  unfold BucketTreeNode.restored BucketTreeNode.nodes BucketTreeNodeData.restored
  cases n.data <;> rfl

theorem BucketTree.stored_restored : (t.restored clock).stored = t.stored.map RoutingTableNode.restored := by
  unfold BucketTree.stored BucketTree.restored
  generalize t.data = data
  induction data generalizing clock with
  | nil => rfl
  | cons n data ih =>
    rw [List.mapIdx_cons, List.flatMap_cons, List.flatMap_cons, List.map_append, BucketTreeNode.nodes_restored]
    exact congrArg _ (ih (fun i => clock (i + 1)))

theorem BucketTreeNode.restored_leaf {n : BucketTreeNode} {now : Instant} {bucket' : LeafBucket}
    (h : (n.restored now).data = .leaf bucket') : ∃ bucket, n.data = .leaf bucket ∧ bucket' = bucket.restored now := by
  unfold BucketTreeNode.restored at h
  cases hd : n.data with
  | leftRight l r =>
    rw [hd] at h
    cases h
  | leaf bucket =>
    rw [hd] at h
    cases h
    exact ⟨bucket, rfl, rfl⟩

theorem BucketTreeNode.restored_leftRight {n : BucketTreeNode} {now : Instant} {l r : ℕ}
    (h : (n.restored now).data = .leftRight l r) : n.data = .leftRight l r := by
  unfold BucketTreeNode.restored at h
  cases hd : n.data with
  | leftRight left right =>
    rw [hd] at h
    cases h
    rfl
  | leaf bucket =>
    rw [hd] at h
    cases h

theorem BucketTree.Inv.restored (h : t.Inv selfId) : (t.restored clock).Inv selfId := by
  have hget := t.restored_getElem? clock
  have hnode : ∀ {i : ℕ} {n' : BucketTreeNode}, (t.restored clock).data[i]? = some n' →
      ∃ n, t.data[i]? = some n ∧ n' = n.restored (clock i) := by
    intro i n' hn'
    rw [hget i, Option.map_eq_some_iff] at hn'
    obtain ⟨n, hn, rfl⟩ := hn'
    exact ⟨n, hn, rfl⟩
  refine ⟨?_, ?_, ?_, ?_, ?_, h.bounded⟩
  · obtain ⟨root, hroot, hcov⟩ := h.root
    refine ⟨root.restored (clock 0), ?_, hcov.restored _⟩
    rw [hget 0, hroot]
    rfl
  · intro i n' bucket' hn' hd'
    obtain ⟨n, hn, rfl⟩ := hnode hn'
    obtain ⟨bucket, hd, rfl⟩ := BucketTreeNode.restored_leaf hd'
    obtain ⟨b, hl, hfits⟩ := h.leaf i n bucket hn hd
    exact ⟨b, ⟨hn', hd', hl.covers.restored _⟩, hfits.restored⟩
  · intro i n' l r hn' hd'
    obtain ⟨n, hn, rfl⟩ := hnode hn'
    obtain ⟨nl, nr, b, hb, hbits, hself⟩ := h.branch i n l r hn (BucketTreeNode.restored_leftRight hd')
    refine ⟨nl.restored (clock l), nr.restored (clock r), b, ?_, hbits, hself⟩
    refine ⟨hn', hd', hb.covers.restored _, ?_, ?_, hb.coversLeft.restored _, hb.coversRight.restored _, hb.below⟩
    · rw [hget l, hb.left]
      rfl
    · rw [hget r, hb.right]
      rfl
  · intro j h0 hj
    rw [BucketTree.restored, List.length_mapIdx] at hj
    obtain ⟨p, hp, huniq⟩ := h.parent j h0 hj
    exact ⟨p, (isChild_restored clock p j).2 hp, fun q hq => huniq q ((isChild_restored clock q j).1 hq)⟩
  · rw [stored_restored, List.length_map]
    exact h.size

end Tables

namespace RoutingTable
variable {F : TextFormats} {rt : RoutingTable}

/-- The texts of the table are read back as what they were written for. -/
structure TextsRead (F : TextFormats) (rt : RoutingTable) : Prop where
  id : F.ReadsId rt.id
  bounds : ∀ n ∈ rt.buckets.data, F.ReadsId n.start ∧ F.ReadsId n.endInclusive
  nodes : ∀ x ∈ rt.stored, x.Readable F

inductive Reachable (F : TextFormats) : RoutingTable → Prop where
  | new (id : Id20) (maxSize : Option ℕ) (clock : Instant) : Reachable F (.new id maxSize clock)
  | step {rt rt' : RoutingTable} {op : Op} (before : Reachable F rt) (last : Graph RoutingTable.step rt op rt') :
      Reachable F rt'
  | readBack {rt rt' : RoutingTable} {now : Instant} {clock : ℕ → Instant} (before : Reachable F rt)
      (texts : rt.TextsRead F) (read : RoutingTable.ofJson F clock (rt.toJson F now) = some rt') : Reachable F rt'

theorem TextsRead.readable (h : rt.TextsRead F) (inv : rt.Inv) : rt.Readable F := by
  refine ⟨h.id, ?_⟩
  intro n hn
  have hbits : n.bits < 256 := by
    obtain ⟨i, hi⟩ := List.mem_iff_getElem?.1 hn
    have hcov : ∃ b, n.Covers b := by
      rcases BucketTree.Inv.cases inv hi with ⟨_, b, hl, _⟩ | ⟨_, _, _, _, b, hb, _, _⟩
      · exact ⟨b, hl.covers⟩
      · exact ⟨b, hb.covers⟩
    obtain ⟨b, hb⟩ := hcov
    have hle := hb.bits_le
    rw [hb.bits] at hle
    omega
  refine ⟨hbits, (h.bounds n hn).1, (h.bounds n hn).2, ?_⟩
  intro x hx
  exact h.nodes x (List.mem_flatMap.2 ⟨n, hn, hx⟩)

theorem Inv.restored (inv : rt.Inv) (clock : ℕ → Instant) : (rt.restored clock).Inv :=
  BucketTree.Inv.restored clock inv

theorem Reachable.inv (h : rt.Reachable F) : rt.Inv := by
  induction h with
  | new id maxSize clock => exact new_inv id maxSize clock
  | step _ last ih => exact (ih.graph_cases last).1
  | @readBack rt rt' now clock _ texts read ih =>
    have hread := RoutingTable.ofJson_toJson (texts.readable ih) now clock
    cases Option.some.inj (read.symm.trans hread)
    exact ih.restored clock

theorem savedAs_restored (inv : rt.Inv) (clock : ℕ → Instant) : rt.SavedAs (rt.restored clock) :=
  ⟨rfl, rfl, rfl, rfl, BucketTree.savedAs_restored clock rt.buckets.data, inv.restored clock⟩

end RoutingTable

namespace PeerStore
variable {F : TextFormats} {s s' : PeerStore}

/-- The store that is read back from what was written, whatever order the map was met in. -/
structure SavedAs (s s' : PeerStore) : Prop where
  limits : SameLimits s s'
  tokens : s'.tokens = s.tokens.map StoredToken.restored
  peers : ∀ infoHash, s'.peers.get? infoHash = (s.peers.get? infoHash).map (List.map StoredPeer.restored)
  number : total s'.peers = total s.peers
  peersLen : s'.peersLen.toNat = total s'.peers

inductive Reachable (F : TextFormats) : PeerStore → Prop where
  | new (selfId : Id20) : Reachable F (.new selfId)
  | step {s : PeerStore} (before : Reachable F s) (op : Op) : Reachable F (s.step op)
  | readBack {s s' : PeerStore} {now : ℕ → DateTime} (before : Reachable F s) (texts : s.Readable F)
      (read : PeerStore.ofJson F now (s.toJson F) = some s') : Reachable F s'

theorem total_restoredPeers (peers : Peers) : total (restoredPeers peers) = total peers := by
  unfold total AssocMap.weight restoredPeers AssocMap.mapValues
  rw [List.map_map]
  congr 1
  apply List.map_congr_left
  intro e _
  exact List.length_map _

theorem RestoredTo.savedAs (h : s.RestoredTo s') (hs : s.Counted) : s.SavedAs s' := by
  obtain ⟨es, hperm, hpeers⟩ := h.peers
  have hnumber : total s'.peers = total s.peers := by
    rw [hpeers, ← total_restoredPeers s.peers]
    exact AssocMap.weight_reorder List.length _ es hperm
  refine ⟨⟨h.selfId, h.maxRememberedTokens, h.maxRememberedPeers, h.maxDistance⟩, h.tokens, ?_, hnumber, ?_⟩
  · intro infoHash
    rw [hpeers, AssocMap.get?_reorder, restoredPeers, AssocMap.get?_mapValues]
  · have hfits := hs.fits
    rw [h.peersLen]
    exact counted_ofCount (by omega)

theorem Reachable.counted (h : s.Reachable F) : s.Counted := by
  induction h with
  | new selfId => exact rfl
  | step _ op ih => exact ih.step op
  | @readBack s s' now _ texts read ih =>
    obtain ⟨store, hread, hto⟩ := PeerStore.ofJson_toJson texts now
    cases Option.some.inj (read.symm.trans hread)
    exact (hto.savedAs ih).peersLen

end PeerStore

namespace Persistence

/-- A reachable table and a reachable store are read back from what is written of them. -/
theorem saved_round_trip (F : TextFormats) (rt : RoutingTable) (s : PeerStore) (hrt : rt.Reachable F) (hs : s.Reachable F)
    (hrtTexts : rt.TextsRead F) (hsTexts : s.Readable F) (now : Instant) (clock : ℕ → Instant) (utcNow : ℕ → DateTime) :
    (∃ rt', RoutingTable.ofJson F clock (rt.toJson F now) = some rt' ∧ rt.SavedAs rt') ∧
      ∃ s', PeerStore.ofJson F utcNow (s.toJson F) = some s' ∧ s.SavedAs s' := by
  constructor
  · exact ⟨rt.restored clock, RoutingTable.ofJson_toJson (hrtTexts.readable hrt.inv) now clock,
      RoutingTable.savedAs_restored hrt.inv clock⟩
  · obtain ⟨s', hread, hto⟩ := PeerStore.ofJson_toJson hsTexts utcNow
    exact ⟨s', hread, hto.savedAs hs.counted⟩

section Sample

def sampleStore : PeerStore := (sampleDht (.new 1 none 0)).peerStore

theorem sampleTable_reachable : (sampleTable sampleV4).Reachable sampleFormats := by
  have hstep : Graph RoutingTable.step (.new 1 none 0) (.addNode 2 sampleV4 (fun _ => 0)) (sampleTable sampleV4) := by
    rfl
  exact .step (.new 1 none 0) hstep

theorem sampleStore_reachable : sampleStore.Reachable sampleFormats := by
  have hrun : ((PeerStore.new 1).step (.genTokenFor #v[6, 7, 8, 9] 2 sampleV4 0)).step
      (.storePeer ⟨2, 1, 3, 0, [6, 7, 8, 9]⟩ sampleV4 0) = sampleStore := by
    decide
  rw [← hrun]
  exact .step (.step (.new 1) _) _

theorem sampleTable_texts : (sampleTable sampleV4).TextsRead sampleFormats := by
  have hread : sampleFormats.ReadsAddr sampleV4 := by decide
  have hreadable := sampleTable_readable hread
  refine ⟨hreadable.id, fun n hn => ⟨(hreadable.data n hn).start, (hreadable.data n hn).endInclusive⟩, ?_⟩
  intro x hx
  obtain ⟨n, hn, hx⟩ := List.mem_flatMap.1 hx
  exact (hreadable.data n hn).nodes x hx

theorem sample_round_trip :
    (∃ rt', RoutingTable.ofJson sampleFormats (fun _ => 7) ((sampleTable sampleV4).toJson sampleFormats 5) = some rt' ∧
      (sampleTable sampleV4).SavedAs rt') ∧
      ∃ s', PeerStore.ofJson sampleFormats (fun _ => 0) (sampleStore.toJson sampleFormats) = some s' ∧ sampleStore.SavedAs s' :=
  saved_round_trip sampleFormats (sampleTable sampleV4) sampleStore sampleTable_reachable sampleStore_reachable
    sampleTable_texts (sampleDht_readable newTable_readable).peerStore 5 (fun _ => 7) (fun _ => 0)

end Sample
end Persistence
end LibrtbitDht
