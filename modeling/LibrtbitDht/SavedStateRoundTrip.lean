import LibrtbitDht.BucketTreeShape
import LibrtbitDht.SavedState

set_option autoImplicit false

namespace LibrtbitDht
open JsonValue

section Texts
variable {F : TextFormats} {name : String} {fields : List (String × Json)}

theorem TextFormats.ReadsId.field {id : Id20} (h : F.ReadsId id)
    (hl : lookup name fields = some (some (serializeId20 F id))) :
    JsonValue.field name (text F.parseId) (.obj fields) = some id :=
  (field_obj _ hl).trans h

theorem TextFormats.ReadsAddr.field {addr : SocketAddr} (h : F.ReadsAddr addr)
    (hl : lookup name fields = some (some (serializeAddr F addr))) :
    JsonValue.field name (text F.parseAddr) (.obj fields) = some addr.withoutFlowinfo :=
  (field_obj _ hl).trans h

theorem TextFormats.ReadsTime.field {time : DateTime} (h : F.ReadsTime time)
    (hl : lookup name fields = some (some (serializeTime F time))) :
    JsonValue.field name (text F.parseTime) (.obj fields) = some time :=
  (field_obj _ hl).trans h

end Texts

theorem mem_ago {now : Instant} {name : String} {last : Option Instant} {f : String × Json}
    (h : f ∈ ago now name last) : f.1 = name := by
  cases last with
  | none => cases h
  | some l =>
    rw [List.mem_singleton.1 h]

section Nodes
variable {F : TextFormats}

structure RoutingTableNode.Readable (F : TextFormats) (n : RoutingTableNode) : Prop where
  id : F.ReadsId n.id
  addr : F.ReadsAddr n.addr

def RoutingTableNode.restored (n : RoutingTableNode) : RoutingTableNode :=
  .fresh n.id n.addr.withoutFlowinfo

theorem RoutingTableNode.ofJson_toJson {n : RoutingTableNode} (h : n.Readable F) (now : Instant) :
    RoutingTableNode.ofJson F (n.toJson F now) = some n.restored := by
  have htail : ∀ name, name = "id" ∨ name = "addr" →
      ∀ f ∈ ago now "last_request_ago" n.lastRequest ++ (ago now "last_response_ago" n.lastResponse
        ++ (ago now "last_query_ago" n.lastQuery ++ [("errors_in_a_row", Json.num n.errorsInARow)])),
        f.1 ≠ name := by
    intro name hname f hf
    have hkey : f.1 = "last_request_ago" ∨ f.1 = "last_response_ago" ∨ f.1 = "last_query_ago" ∨
        f.1 = "errors_in_a_row" := by
      simp only [List.mem_append, List.mem_singleton] at hf
      rcases hf with hf | hf | hf | hf
      · exact .inl (mem_ago hf)
      · exact .inr (.inl (mem_ago hf))
      · exact .inr (.inr (.inl (mem_ago hf)))
      · exact .inr (.inr (.inr (congrArg Prod.fst hf)))
    rcases hname with rfl | rfl <;> rcases hkey with hkey | hkey | hkey | hkey <;> rw [hkey] <;> decide
  have hid : field "id" (text F.parseId) (n.toJson F now) = some n.id := by
    unfold RoutingTableNode.toJson
    exact h.id.field (lookup_append (htail "id" (.inl rfl)))
  have haddr : field "addr" (text F.parseAddr) (n.toJson F now) = some n.addr.withoutFlowinfo := by
    unfold RoutingTableNode.toJson
    exact h.addr.field (lookup_append (htail "addr" (.inr rfl)))
  unfold RoutingTableNode.ofJson
  rw [hid, haddr]
  rfl

end Nodes

section Tables
variable {F : TextFormats}

structure BucketTreeNode.Readable (F : TextFormats) (n : BucketTreeNode) : Prop where
  bits : n.bits < 256
  start : F.ReadsId n.start
  endInclusive : F.ReadsId n.endInclusive
  nodes : ∀ x ∈ n.nodes, x.Readable F

structure RoutingTable.Readable (F : TextFormats) (rt : RoutingTable) : Prop where
  id : F.ReadsId rt.id
  data : ∀ n ∈ rt.buckets.data, n.Readable F

def LeafBucket.restored (clock : Instant) (b : LeafBucket) : LeafBucket :=
  ⟨b.nodes.map RoutingTableNode.restored, clock⟩

def BucketTreeNodeData.restored (clock : Instant) : BucketTreeNodeData → BucketTreeNodeData
  | .leaf bucket => .leaf (bucket.restored clock)
  | .leftRight left right => .leftRight left right

def BucketTreeNode.restored (clock : Instant) (n : BucketTreeNode) : BucketTreeNode :=
  { n with data := n.data.restored clock }

def BucketTree.restored (clock : ℕ → Instant) (t : BucketTree) : BucketTree :=
  { t with data := t.data.mapIdx (fun i n => n.restored (clock i)) }

def RoutingTable.restored (clock : ℕ → Instant) (rt : RoutingTable) : RoutingTable :=
  { rt with buckets := rt.buckets.restored clock }

theorem LeafBucket.ofJson_toJson {b : LeafBucket} (h : ∀ x ∈ b.nodes, x.Readable F) (now clock : Instant) :
    LeafBucket.ofJson F clock (b.toJson F now) = some (b.restored clock) := by
  have hnodes : field "nodes" (array (fun _ => RoutingTableNode.ofJson F)) (b.toJson F now) =
      some (b.nodes.map RoutingTableNode.restored) := by
    unfold LeafBucket.toJson
    apply (field_obj _ rfl).trans
    exact array_map (fun x hx => RoutingTableNode.ofJson_toJson (h x hx) now)
  unfold LeafBucket.ofJson
  rw [hnodes]
  rfl

theorem BucketTreeNodeData.ofJson_leaf {b : LeafBucket} (h : ∀ x ∈ b.nodes, x.Readable F)
    (now clock : Instant) :
    BucketTreeNodeData.ofJson F clock ((BucketTreeNodeData.leaf b).toJson F now) =
      some (.leaf (b.restored clock)) := by
  have hleaf := LeafBucket.ofJson_toJson h now clock
  simp only [BucketTreeNodeData.ofJson, BucketTreeNodeData.toJson, variant, Option.bind_eq_bind,
    Option.bind_some, if_true, hleaf]
  rfl

theorem BucketTreeNode.ofJson_toJson {n : BucketTreeNode} (h : n.Readable F) (now clock : Instant) :
    BucketTreeNode.ofJson F clock (n.toJson F now) = some (n.restored clock) := by
  have hbits : field "bits" (uint 8) (n.toJson F now) = some (BitVec.ofNat 8 n.bits) := by
    unfold BucketTreeNode.toJson
    apply (field_obj _ rfl).trans
    exact if_pos h.bits
  have hstart : field "start" (text F.parseId) (n.toJson F now) = some n.start := by
    unfold BucketTreeNode.toJson
    exact h.start.field rfl
  have hend : field "end_inclusive" (text F.parseId) (n.toJson F now) = some n.endInclusive := by
    unfold BucketTreeNode.toJson
    exact h.endInclusive.field rfl
  have hdata : field "data" (BucketTreeNodeData.ofJson F clock) (n.toJson F now) =
      some (n.data.restored clock) := by
    unfold BucketTreeNode.toJson
    apply (field_obj _ rfl).trans
    cases hd : n.data with
    | leaf b =>
      apply BucketTreeNodeData.ofJson_leaf
      intro x hx
      apply h.nodes
      rw [BucketTreeNode.nodes, hd]
      exact hx
    | leftRight left right => rfl
  have hmod : (BitVec.ofNat 8 n.bits).toNat = n.bits := by
    rw [BitVec.toNat_ofNat]
    exact Nat.mod_eq_of_lt h.bits
  unfold BucketTreeNode.ofJson
  rw [hbits, hstart, hend, hdata]
  simp only [Option.bind_eq_bind, Option.bind_some, hmod]
  rfl

theorem RoutingTable.ofJson_toJson {rt : RoutingTable} (h : rt.Readable F) (now : Instant)
    (clock : ℕ → Instant) :
    RoutingTable.ofJson F clock (rt.toJson F now) = some (rt.restored clock) := by
  have hdata : field "data" (array (fun i => BucketTreeNode.ofJson F (clock i)))
      (rt.buckets.toJson F now) = some (rt.buckets.restored clock).data := by
    unfold BucketTree.toJson
    apply (field_obj _ rfl).trans
    exact array_mapIdx (fun i n hn => BucketTreeNode.ofJson_toJson (h.data n hn) now (clock i))
  have htree : BucketTree.ofJson F clock (rt.buckets.toJson F now) = some (rt.buckets.restored clock) := by
    unfold BucketTree.ofJson
    rw [hdata]
    rfl
  have hid : field "id" (text F.parseId) (rt.toJson F now) = some rt.id := by
    unfold RoutingTable.toJson
    exact h.id.field rfl
  have hbuckets : field "buckets" (BucketTree.ofJson F clock) (rt.toJson F now) =
      some (rt.buckets.restored clock) := by
    unfold RoutingTable.toJson
    exact (field_obj _ rfl).trans htree
  unfold RoutingTable.ofJson
  rw [hid, hbuckets]
  rfl

end Tables

section Iteration
variable (t : BucketTree) (clock : ℕ → Instant)

theorem BucketTree.restored_getElem? (i : ℕ) :
    (t.restored clock).data[i]? = (t.data[i]?).map (BucketTreeNode.restored (clock i)) :=
  List.getElem?_mapIdx

theorem BucketTree.next_restored (fuel : ℕ) (queue : List ℕ) :
    (∃ e, t.next fuel queue = .error e ∧ (t.restored clock).next fuel queue = .error e) ∨
    (t.next fuel queue = .ok none ∧ (t.restored clock).next fuel queue = .ok none) ∨
    ∃ item item' rest, t.next fuel queue = .ok (some (item, rest)) ∧
      (t.restored clock).next fuel queue = .ok (some (item', rest)) ∧
      item'.leaf.nodes = item.leaf.nodes.map RoutingTableNode.restored := by
  induction fuel generalizing queue with
  | zero =>
    cases queue with
    | nil => exact .inr (.inl ⟨rfl, rfl⟩)
    | cons idx queue => exact .inl ⟨.outOfFuel, rfl, rfl⟩
  | succ fuel ih =>
    cases queue with
    | nil => exact .inr (.inl ⟨rfl, rfl⟩)
    | cons idx queue =>
      have hnode := t.restored_getElem? clock idx
      cases hn : t.data[idx]? with
      | none =>
        rw [hn, Option.map_none] at hnode
        simp only [BucketTree.next, hn, hnode]
        exact ih queue
      | some n =>
        rw [hn, Option.map_some] at hnode
        cases hd : n.data with
        | leaf b =>
          simp only [BucketTree.next, hn, hnode, BucketTreeNode.restored, BucketTreeNodeData.restored, hd]
          exact .inr (.inr ⟨_, _, queue, rfl, rfl, rfl⟩)
        | leftRight left right =>
          simp only [BucketTree.next, hn, hnode, BucketTreeNode.restored, BucketTreeNodeData.restored, hd]
          exact ih (left :: right :: queue)

theorem BucketTree.drain_restored (fuel : ℕ) (queue : List ℕ) :
    (∃ e, t.drain fuel queue = .error e ∧ (t.restored clock).drain fuel queue = .error e) ∨
    ∃ items items', t.drain fuel queue = .ok items ∧ (t.restored clock).drain fuel queue = .ok items' ∧
      items'.flatMap (fun item => item.leaf.nodes) =
        (items.flatMap (fun item => item.leaf.nodes)).map RoutingTableNode.restored := by
  induction fuel generalizing queue with
  | zero => exact .inl ⟨.outOfFuel, rfl, rfl⟩
  | succ fuel ih =>
    have hlength : (t.restored clock).data.length = t.data.length := List.length_mapIdx
    unfold BucketTree.drain
    rw [hlength]
    rcases t.next_restored clock (t.data.length + queue.length) queue with
      ⟨e, h, h'⟩ | ⟨h, h'⟩ | ⟨item, item', rest, h, h', hnodes⟩
    · rw [h, h']
      exact .inl ⟨e, rfl, rfl⟩
    · rw [h, h']
      exact .inr ⟨[], [], rfl, rfl, rfl⟩
    · simp only [h, h', ok_bind]
      rcases ih rest with ⟨e, hd, hd'⟩ | ⟨items, items', hd, hd', hitems⟩
      · rw [hd, hd']
        exact .inl ⟨e, rfl, rfl⟩
      · rw [hd, hd']
        refine .inr ⟨item :: items, item' :: items', rfl, rfl, ?_⟩
        simp only [List.flatMap_cons, List.map_append, hnodes, hitems]

theorem BucketTree.iter_restored :
    (t.restored clock).iter = t.iter.map (List.map RoutingTableNode.restored) := by
  have hlength : (t.restored clock).data.length = t.data.length := List.length_mapIdx
  unfold BucketTree.iter BucketTree.iterLeaves
  rw [hlength]
  rcases t.drain_restored clock (t.data.length + 1) [0] with
    ⟨e, h, h'⟩ | ⟨items, items', h, h', hitems⟩
  · rw [h, h']
    rfl
  · rw [h, h']
    exact congrArg Except.ok hitems

end Iteration

section Stores
variable {F : TextFormats}

structure StoredToken.Readable (F : TextFormats) (t : StoredToken) : Prop where
  nodeId : F.ReadsId t.nodeId
  addr : F.ReadsAddr t.addr
  time : F.ReadsTime t.time

structure StoredPeer.Readable (F : TextFormats) (p : StoredPeer) : Prop where
  addr : F.ReadsAddr p.addr
  time : F.ReadsTime p.time

structure PeerStore.Readable (F : TextFormats) (s : PeerStore) : Prop where
  selfId : F.ReadsId s.selfId
  maxDistance : F.ReadsId s.maxDistance
  tokens : ∀ t ∈ s.tokens, t.Readable F
  hashes : ∀ e ∈ s.peers.entries, F.ReadsId e.1
  peers : ∀ e ∈ s.peers.entries, ∀ p ∈ e.2, p.Readable F

def StoredToken.restored (t : StoredToken) : StoredToken := { t with addr := t.addr.withoutFlowinfo }

def StoredPeer.restored (p : StoredPeer) : StoredPeer := { p with addr := p.addr.withoutFlowinfo }

/-- The peers as they are read back, up to the order of the info hashes. -/
def restoredPeers (peers : Peers) : Peers := peers.mapValues (fun _ stored => stored.map StoredPeer.restored)

theorem readToken_serializeToken (token : Token) : readToken (serializeToken token) = some token := by
  have hbytes : array (fun _ => uint 8) (serializeToken token) =
      some (token.toList.map UInt8.toBitVec) := array_map (fun b _ => uint_toNat b.toBitVec)
  have hback : (token.toList.map UInt8.toBitVec).map UInt8.ofBitVec = token.toList := by
    rw [List.map_map]
    exact List.map_id _
  unfold readToken
  rw [hbytes]
  simp only [Option.bind_eq_bind, Option.bind_some, hback, Vector.length_toList, dif_pos,
    Vector.toArray_toList]

theorem StoredToken.ofJson_toJson {t : StoredToken} (h : t.Readable F) (now : DateTime) :
    StoredToken.ofJson F now (t.toJson F) = some t.restored := by
  have htoken : field "token" readToken (t.toJson F) = some t.token := by
    unfold StoredToken.toJson
    exact (field_obj _ rfl).trans (readToken_serializeToken t.token)
  have hid : field "node_id" (text F.parseId) (t.toJson F) = some t.nodeId := by
    unfold StoredToken.toJson
    exact h.nodeId.field rfl
  have haddr : field "addr" (text F.parseAddr) (t.toJson F) = some t.addr.withoutFlowinfo := by
    unfold StoredToken.toJson
    exact h.addr.field rfl
  have htime : fieldOr now "time" (text F.parseTime) (t.toJson F) = some t.time := h.time
  unfold StoredToken.ofJson
  rw [htoken, hid, haddr, htime]
  rfl

theorem StoredPeer.ofJson_toJson {p : StoredPeer} (h : p.Readable F) :
    StoredPeer.ofJson F (p.toJson F) = some p.restored := by
  have haddr : field "addr" (text F.parseAddr) (p.toJson F) = some p.addr.withoutFlowinfo := by
    unfold StoredPeer.toJson
    exact h.addr.field rfl
  have htime : field "time" (text F.parseTime) (p.toJson F) = some p.time := by
    unfold StoredPeer.toJson
    exact h.time.field rfl
  unfold StoredPeer.ofJson
  rw [haddr, htime]
  rfl

theorem readPeers_serializePeers {peers : Peers} (hids : ∀ e ∈ peers.entries, F.ReadsId e.1)
    (hpeers : ∀ e ∈ peers.entries, ∀ p ∈ e.2, p.Readable F) :
    ∃ es h, readPeers F (serializePeers F peers) = some ((restoredPeers peers).reorder es h) := by
  have hread : ∀ e ∈ peers.entries, F.parseId (F.idText e.1) = some e.1 ∧
      array (fun _ => StoredPeer.ofJson F) (.arr (e.2.map (StoredPeer.toJson F))) =
        some (e.2.map StoredPeer.restored) := by
    intro e he
    exact ⟨hids e he, array_map (fun p hp => StoredPeer.ofJson_toJson (hpeers e he p hp))⟩
  exact map_entries F.parseId (array (fun _ => StoredPeer.ofJson F)) F.idText
    (fun stored => .arr (stored.map (StoredPeer.toJson F))) (List.map StoredPeer.restored) peers hread

structure PeerStore.RestoredTo (s s' : PeerStore) : Prop where
  selfId : s'.selfId = s.selfId
  maxRememberedTokens : s'.maxRememberedTokens = s.maxRememberedTokens
  maxRememberedPeers : s'.maxRememberedPeers = s.maxRememberedPeers
  maxDistance : s'.maxDistance = s.maxDistance
  tokens : s'.tokens = s.tokens.map StoredToken.restored
  peers : ∃ es h, s'.peers = (restoredPeers s.peers).reorder es h
  peersLen : s'.peersLen = PeerStore.count s'.peers

theorem PeerStore.ofJson_toJson {s : PeerStore} (h : s.Readable F) (now : ℕ → DateTime) :
    ∃ s', PeerStore.ofJson F now (s.toJson F) = some s' ∧ s.RestoredTo s' := by
  obtain ⟨es, hperm, hpeers⟩ := readPeers_serializePeers h.hashes h.peers
  have hself : field "self_id" (text F.parseId) (s.toJson F) = some s.selfId := by
    unfold PeerStore.toJson
    exact h.selfId.field rfl
  have hmaxTokens : field "max_remembered_tokens" (uint 32) (s.toJson F) =
      some s.maxRememberedTokens := by
    unfold PeerStore.toJson
    exact (field_obj _ rfl).trans (uint_toNat s.maxRememberedTokens)
  have hmaxPeers : field "max_remembered_peers" (uint 32) (s.toJson F) = some s.maxRememberedPeers := by
    unfold PeerStore.toJson
    exact (field_obj _ rfl).trans (uint_toNat s.maxRememberedPeers)
  have hdistance : field "max_distance" (text F.parseId) (s.toJson F) = some s.maxDistance := by
    unfold PeerStore.toJson
    exact h.maxDistance.field rfl
  have htokens : field "tokens" (array (fun i => StoredToken.ofJson F (now i))) (s.toJson F) =
      some (s.tokens.map StoredToken.restored) := by
    unfold PeerStore.toJson
    apply (field_obj _ rfl).trans
    have hread := array_mapIdx (fun i t ht => StoredToken.ofJson_toJson (h.tokens t ht) (now i))
    rw [hread]
    exact congrArg some (List.mapIdx_eq_iff.2 (fun _ => List.getElem?_map))
  have hstored : field "peers" (readPeers F) (s.toJson F) =
      some ((restoredPeers s.peers).reorder es hperm) := by
    unfold PeerStore.toJson
    exact (field_obj _ rfl).trans hpeers
  refine ⟨.ofSaved s.selfId s.maxRememberedTokens s.maxRememberedPeers s.maxDistance
    (s.tokens.map StoredToken.restored) ((restoredPeers s.peers).reorder es hperm), ?_, ?_⟩
  · unfold PeerStore.ofJson
    rw [hself, hmaxTokens, hmaxPeers, hdistance, htokens, hstored]
    rfl
  · exact ⟨rfl, rfl, rfl, rfl, rfl, ⟨es, hperm, rfl⟩, rfl⟩

end Stores
end LibrtbitDht
