import LibrtbitDht.Persistence
import LibrtbitDht.SavedStateRoundTrip

set_option autoImplicit false

namespace LibrtbitDht
open JsonValue

section Restart
variable {F : TextFormats}

structure DhtState.Readable (F : TextFormats) (s : DhtState) : Prop where
  listenAddr : F.ReadsAddr s.listenAddr
  routingTableV4 : s.routingTableV4.Readable F
  routingTableV6 : s.routingTableV6.Readable F
  peerStore : s.peerStore.Readable F

def RoutingTable.contacts (rt : RoutingTable) : Except Fault (List (Id20 × SocketAddr)) :=
  rt.iter.map (List.map (fun n => (n.id, n.addr)))

structure DhtState.Restored (s s' : DhtState) : Prop where
  id : s'.id = s.id
  idV4 : s'.routingTableV4.id = s.id
  idV6 : s'.routingTableV6.id = s.id
  idStore : s'.peerStore.selfId = s.id
  contactsV4 : s'.routingTableV4.contacts = s.routingTableV4.contacts
  contactsV6 : s'.routingTableV6.contacts = s.routingTableV6.contacts
  tokens : s'.peerStore.tokens = s.peerStore.tokens
  peers : ∀ infoHash, s'.peerStore.peers.get? infoHash = s.peerStore.peers.get? infoHash

def SocketAddr.Plain (addr : SocketAddr) : Prop := addr.withoutFlowinfo = addr

structure DhtState.Carried (s : DhtState) : Prop where
  idV4 : s.routingTableV4.id = s.id
  idStore : s.peerStore.selfId = s.id
  emptyV6 : s.routingTableV6.iter = .ok []
  plainV4 : ∀ nodes, s.routingTableV4.iter = .ok nodes → ∀ n ∈ nodes, n.addr.Plain
  plainTokens : ∀ t ∈ s.peerStore.tokens, t.addr.Plain
  plainPeers : ∀ infoHash stored, s.peerStore.peers.get? infoHash = some stored → ∀ p ∈ stored, p.addr.Plain

theorem map_eq_self_iff {α : Type} (f : α → α) (l : List α) : l.map f = l ↔ ∀ a ∈ l, f a = a := by
  have h : l.map f = l.map id ↔ ∀ a ∈ l, f a = id a := List.map_inj_left
  rwa [List.map_id] at h

theorem StoredToken.restored_eq_iff (t : StoredToken) : t.restored = t ↔ t.addr.Plain := by
  constructor
  · exact congrArg StoredToken.addr
  · intro h
    unfold StoredToken.restored
    rw [h]

theorem StoredPeer.restored_eq_iff (p : StoredPeer) : p.restored = p ↔ p.addr.Plain := by
  constructor
  · exact congrArg StoredPeer.addr
  · intro h
    unfold StoredPeer.restored
    rw [h]

theorem RoutingTable.contacts_new (id : Id20) (clock : Instant) :
    (RoutingTable.new id none clock).contacts = .ok [] := rfl

theorem RoutingTable.contacts_eq_nil_iff (rt : RoutingTable) : rt.contacts = .ok [] ↔ rt.iter = .ok [] := by
  unfold RoutingTable.contacts
  cases rt.iter with
  | error e => exact ⟨nofun, nofun⟩
  | ok nodes =>
    constructor
    · intro h
      rw [List.map_eq_nil_iff.1 (Except.ok.inj h)]
    · intro h
      rw [Except.ok.inj h]
      rfl

theorem RoutingTable.contacts_restored_iff (rt : RoutingTable) (clock : ℕ → Instant) :
    (rt.restored clock).contacts = rt.contacts ↔
      ∀ nodes, rt.iter = .ok nodes → ∀ n ∈ nodes, n.addr.Plain := by
  have hiter : (rt.restored clock).iter = rt.iter.map (List.map RoutingTableNode.restored) :=
    rt.buckets.iter_restored clock
  unfold RoutingTable.contacts
  rw [hiter]
  cases rt.iter with
  | error e => exact ⟨fun _ => nofun, fun _ => rfl⟩
  | ok nodes =>
    have hlists : (nodes.map RoutingTableNode.restored).map (fun n => (n.id, n.addr)) =
        nodes.map (fun n => (n.id, n.addr)) ↔ ∀ n ∈ nodes, n.addr.Plain := by
      rw [List.map_map, List.map_inj_left]
      apply forall₂_congr
      intro n _
      constructor
      · exact congrArg Prod.snd
      · exact congrArg (Prod.mk n.id)
    constructor
    · intro h nodes' hn
      rw [← Except.ok.inj hn]
      exact hlists.1 (Except.ok.inj h)
    · intro h
      exact congrArg Except.ok (hlists.2 (h nodes rfl))

variable {s : DhtState}

theorem PeerStore.RestoredTo.tokens_iff {p p' : PeerStore} (h : p.RestoredTo p') :
    p'.tokens = p.tokens ↔ ∀ t ∈ p.tokens, t.addr.Plain := by
  rw [h.tokens, map_eq_self_iff]
  simp only [StoredToken.restored_eq_iff]

theorem PeerStore.RestoredTo.peers_iff {p p' : PeerStore} (h : p.RestoredTo p') :
    (∀ infoHash, p'.peers.get? infoHash = p.peers.get? infoHash) ↔
      ∀ infoHash stored, p.peers.get? infoHash = some stored → ∀ q ∈ stored, q.addr.Plain := by
  obtain ⟨es, hperm, hpeers⟩ := h.peers
  have hget : ∀ infoHash, p'.peers.get? infoHash =
      (p.peers.get? infoHash).map (List.map StoredPeer.restored) := by
    intro infoHash
    rw [hpeers, AssocMap.get?_reorder, restoredPeers, AssocMap.get?_mapValues]
  apply forall_congr'
  intro infoHash
  rw [hget infoHash]
  cases p.peers.get? infoHash with
  | none => exact ⟨fun _ => nofun, fun _ => rfl⟩
  | some stored =>
    have hlist : stored.map StoredPeer.restored = stored ↔ ∀ q ∈ stored, q.addr.Plain := by
      rw [map_eq_self_iff]
      simp only [StoredPeer.restored_eq_iff]
    constructor
    · intro hs stored' hstored
      rw [← Option.some.inj hstored]
      exact hlist.1 (Option.some.inj hs)
    · intro hs
      exact congrArg some (hlist.2 (hs stored rfl))

namespace Persistence

theorem ofJson_dumpDht (h : s.Readable F) (now : Instant) (clock clockV6 : ℕ → Instant)
    (utcNow : ℕ → DateTime) :
    ∃ store, s.peerStore.RestoredTo store ∧
      DhtSerialize.ofJson F clock clockV6 utcNow (dumpDht F now s) = some {
        addr := s.listenAddr.withoutFlowinfo
        table := s.routingTableV4.restored clock
        tableV6 := some (s.routingTableV6.restored clockV6)
        peerStore := some store } := by
  obtain ⟨store, hstore, hto⟩ := PeerStore.ofJson_toJson h.peerStore utcNow
  have haddr : field "addr" (text F.parseAddr) (dumpDht F now s) = some s.listenAddr.withoutFlowinfo := by
    unfold dumpDht DhtSerialize.toJson
    exact h.listenAddr.field rfl
  have htable : field "table" (RoutingTable.ofJson F clock) (dumpDht F now s) =
      some (s.routingTableV4.restored clock) := by
    unfold dumpDht DhtSerialize.toJson
    apply (field_obj _ rfl).trans
    exact RoutingTable.ofJson_toJson h.routingTableV4 now clock
  have htableV6 : optionField "table_v6" (RoutingTable.ofJson F clockV6) (dumpDht F now s) =
      some (some (s.routingTableV6.restored clockV6)) := by
    unfold dumpDht DhtSerialize.toJson
    apply (optionField_obj _ rfl).trans
    exact congrArg (Option.map some) (RoutingTable.ofJson_toJson h.routingTableV6 now clockV6)
  have hpeerStore : optionField "peer_store" (PeerStore.ofJson F utcNow) (dumpDht F now s) =
      some (some store) := by
    unfold dumpDht DhtSerialize.toJson
    apply (optionField_obj _ rfl).trans
    exact congrArg (Option.map some) hstore
  refine ⟨store, hto, ?_⟩
  unfold DhtSerialize.ofJson
  rw [haddr, htable, htableV6, hpeerStore]
  rfl

theorem create_dumpDht (h : s.Readable F) (now : Instant) (env : Environment)
    (config : PersistentDhtConfig) (hprepared : env.prepared = true) :
    ∃ store, s.peerStore.RestoredTo store ∧
      create F env config (.content (dumpDht F now s)) = withConfig env {
        peerId := some s.routingTableV4.id
        routingTable := some (s.routingTableV4.restored env.clock)
        listenAddr := overridePort config (some (patchAddr config s.listenAddr.withoutFlowinfo))
        peerStore := some store } := by
  obtain ⟨store, hto, hread⟩ := ofJson_dumpDht h now env.clock env.clockV6 env.utcNow
  refine ⟨store, hto, ?_⟩
  simp only [create, hprepared, load, hread]
  rfl

/-- A start from a saved file fails only where it has no name, no directory or no socket. -/
theorem create_dumpDht_succeeds (h : s.Readable F) (now : Instant) (env : Environment)
    (config : PersistentDhtConfig) (hprepared : env.prepared = true)
    (hbind : ∀ addr, ∃ bound, env.bind addr = some bound) :
    ∃ s', create F env config (.content (dumpDht F now s)) = .ok s' := by
  obtain ⟨store, _, hcreate⟩ := create_dumpDht h now env config hprepared
  rw [hcreate]
  unfold withConfig
  obtain ⟨bound, hbound⟩ := hbind
    ((overridePort config (some (patchAddr config s.listenAddr.withoutFlowinfo))).getD (unspecifiedV6 0))
  dsimp only
  rw [hbound]
  exact ⟨_, rfl⟩

theorem created_eq (h : s.Readable F) {now : Instant} {env : Environment} {config : PersistentDhtConfig}
    {s' : DhtState} (hrun : create F env config (.content (dumpDht F now s)) = .ok s') :
    ∃ store bound, s.peerStore.RestoredTo store ∧
      s' = newInternal env s.routingTableV4.id (some (s.routingTableV4.restored env.clock)) none bound
        store := by
  cases hprepared : env.prepared with
  | false =>
    simp only [create, hprepared] at hrun
    cases hrun
  | true =>
    obtain ⟨store, hto, hcreate⟩ := create_dumpDht h now env config hprepared
    rw [hcreate] at hrun
    unfold withConfig at hrun
    dsimp only at hrun
    split at hrun
    · cases hrun
    · rename_i bound _
      exact ⟨store, bound, hto, (Except.ok.inj hrun).symm⟩

section Sample

def textIn {α : Type} [DecidableEq α] (table : List (α × String)) (a : α) : String :=
  ((table.find? (fun e => e.1 = a)).map Prod.snd).getD ""

def parseIn {α : Type} (table : List (α × String)) (text : String) : Option α :=
  (table.find? (fun e => e.2 = text)).map Prod.fst

def sampleIds : List (Id20 × String) := [
  (0, "0000000000000000000000000000000000000000"),
  (1, "0000000000000000000000000000000000000001"),
  (2, "0000000000000000000000000000000000000002"),
  (3, "0000000000000000000000000000000000000003"),
  (0x00000fffffffffffffffffffffffffffffffffff, "00000fffffffffffffffffffffffffffffffffff"),
  (BitVec.allOnes 160, "ffffffffffffffffffffffffffffffffffffffff")]

def sampleV4 : SocketAddr := .v4 ⟨0xc0000201, 6881⟩

def sampleV6 : SocketAddr := .v6 ⟨0x20010db8000000000000000000000001, 6881, 0, 0⟩

def sampleAddrs : List (SocketAddr × String) :=
  [(sampleV4, "192.0.2.1:6881"), (sampleV6, "[2001:db8::1]:6881"), (unspecifiedV6 6881, "[::]:6881")]

def sampleTimes : List (DateTime × String) := [(0, "1970-01-01T00:00:00Z")]

def sampleFormats : TextFormats where
  idText := textIn sampleIds
  parseId := parseIn sampleIds
  addrText := textIn sampleAddrs
  parseAddr := parseIn sampleAddrs
  timeText := textIn sampleTimes
  parseTime := parseIn sampleTimes
  elapsedText := fun _ => "0ns"

def sampleTable (addr : SocketAddr) : RoutingTable where
  id := 1
  size := 1
  buckets := {
    data := [⟨160, 0, BitVec.allOnes 160, .leaf ⟨[.fresh 2 addr], 0⟩⟩]
    size := 1
    maxSize := 512 }

def sampleDht (routingTableV6 : RoutingTable) : DhtState where
  id := 1
  routingTableV4 := sampleTable sampleV4
  routingTableV6
  listenAddr := unspecifiedV6 6881
  peerStore := { PeerStore.new 1 with
    tokens := [⟨#v[6, 7, 8, 9], 2, sampleV4, 0⟩]
    peers := AssocMap.empty.insert 3 [⟨sampleV4, 0⟩]
    peersLen := 1 }

def sampleEnvironment : Environment where
  prepared := true
  bind := some
  generatedId := 0
  clock := fun _ => 0
  clockV6 := fun _ => 0
  utcNow := fun _ => 0
  newTable := 0
  newTableV6 := 0

theorem sampleTable_added (addr : SocketAddr) :
    (RoutingTable.new 1 none 0).addNode 2 addr (fun _ => 0) = .ok (.added, sampleTable addr) := by
  rfl

theorem sampleLeaf_readable {nodes : List RoutingTableNode} (h : ∀ x ∈ nodes, x.Readable sampleFormats) :
    BucketTreeNode.Readable sampleFormats ⟨160, 0, BitVec.allOnes 160, .leaf ⟨nodes, 0⟩⟩ :=
  ⟨(by decide : 160 < 256), (by decide : sampleFormats.ReadsId 0),
    (by decide : sampleFormats.ReadsId (BitVec.allOnes 160)), h⟩

theorem newTable_readable : (RoutingTable.new 1 none 0).Readable sampleFormats := by
  refine ⟨by decide, ?_⟩
  intro n hn
  rw [List.mem_singleton.1 hn]
  exact sampleLeaf_readable nofun

theorem sampleTable_readable {addr : SocketAddr} (h : sampleFormats.ReadsAddr addr) :
    (sampleTable addr).Readable sampleFormats := by
  refine ⟨(by decide : sampleFormats.ReadsId 1), ?_⟩
  intro n hn
  rw [List.mem_singleton.1 hn]
  apply sampleLeaf_readable
  intro x hx
  rw [List.mem_singleton.1 hx]
  exact ⟨(by decide : sampleFormats.ReadsId 2), h⟩

theorem sampleDht_readable {routingTableV6 : RoutingTable} (h : routingTableV6.Readable sampleFormats) :
    (sampleDht routingTableV6).Readable sampleFormats where
  listenAddr := (by decide : sampleFormats.ReadsAddr (unspecifiedV6 6881))
  routingTableV4 := sampleTable_readable (by decide)
  routingTableV6 := h
  peerStore := {
    selfId := (by decide : sampleFormats.ReadsId 1)
    maxDistance := (by decide : sampleFormats.ReadsId 0x00000fffffffffffffffffffffffffffffffffff)
    tokens := by
      intro t ht
      rw [List.mem_singleton.1 ht]
      exact ⟨by decide, by decide, by decide⟩
    hashes := by
      intro e he
      rw [List.mem_singleton.1 he]
      decide
    peers := by
      intro e he p hp
      rw [List.mem_singleton.1 he] at hp
      rw [List.mem_singleton.1 hp]
      exact ⟨by decide, by decide⟩ }

theorem sampleEnvironment_binds (addr : SocketAddr) : ∃ bound, sampleEnvironment.bind addr = some bound :=
  ⟨addr, rfl⟩

theorem sampleDht_carried : (sampleDht (.new 1 none 0)).Carried where
  idV4 := rfl
  idStore := rfl
  emptyV6 := rfl
  plainV4 := by
    intro nodes hnodes n hn
    rw [← Except.ok.inj hnodes] at hn
    rw [List.mem_singleton.1 hn]
    rfl
  plainTokens := by
    intro t ht
    rw [List.mem_singleton.1 ht]
    rfl
  plainPeers := by
    intro infoHash stored hs p hp
    have hmem := (AssocMap.get?_eq_some_iff _ infoHash stored).1 hs
    have hstored : stored = [⟨sampleV4, 0⟩] := congrArg Prod.snd (List.mem_singleton.1 hmem)
    rw [hstored] at hp
    rw [List.mem_singleton.1 hp]
    rfl

end Sample

/-- A restart brings a state back exactly when its IPv6 table is empty, its identifiers
agree and its addresses carry no flow information. -/
theorem create_restores_iff (h : s.Readable F) (now : Instant) (env : Environment)
    (config : PersistentDhtConfig) (s' : DhtState)
    (hrun : create F env config (.content (dumpDht F now s)) = .ok s') : s.Restored s' ↔ s.Carried := by
  obtain ⟨store, bound, hto, rfl⟩ := created_eq h hrun
  have hv6 : (RoutingTable.new s.routingTableV4.id none env.newTableV6).contacts =
      s.routingTableV6.contacts ↔ s.routingTableV6.iter = .ok [] := by
    rw [RoutingTable.contacts_new, eq_comm, RoutingTable.contacts_eq_nil_iff]
  have hv4 := s.routingTableV4.contacts_restored_iff env.clock
  constructor
  · intro hr
    exact {
      idV4 := hr.id
      idStore := hto.selfId.symm.trans hr.idStore
      emptyV6 := hv6.1 hr.contactsV6
      plainV4 := hv4.1 hr.contactsV4
      plainTokens := hto.tokens_iff.1 hr.tokens
      plainPeers := hto.peers_iff.1 hr.peers }
  · intro hc
    exact {
      id := hc.idV4
      idV4 := hc.idV4
      idV6 := hc.idV4
      idStore := hto.selfId.trans hc.idStore
      contactsV4 := hv4.2 hc.plainV4
      contactsV6 := hv6.2 hc.emptyV6
      tokens := hto.tokens_iff.2 hc.plainTokens
      peers := hto.peers_iff.2 hc.plainPeers }

/-- A state without IPv6 contacts is written, read and restored. -/
theorem sampleDht_restored :
    ∃ s', create sampleFormats sampleEnvironment {}
      (.content (dumpDht sampleFormats 0 (sampleDht (.new 1 none 0)))) = .ok s' ∧
      (sampleDht (.new 1 none 0)).Restored s' := by
  have hread := sampleDht_readable newTable_readable
  obtain ⟨s', hrun⟩ := create_dumpDht_succeeds hread 0 sampleEnvironment {} rfl sampleEnvironment_binds
  exact ⟨s', hrun, (create_restores_iff hread 0 sampleEnvironment {} s' hrun).2 sampleDht_carried⟩

/-- One IPv6 contact is in the file and in no table after the restart. -/
theorem sampleDht_loses_v6 :
    (RoutingTable.new 1 none 0).addNode 2 sampleV6 (fun _ => 0) = .ok (.added, sampleTable sampleV6) ∧
    (sampleDht (sampleTable sampleV6)).Readable sampleFormats ∧
    ∃ s', create sampleFormats sampleEnvironment {}
      (.content (dumpDht sampleFormats 0 (sampleDht (sampleTable sampleV6)))) = .ok s' ∧
      (sampleDht (sampleTable sampleV6)).routingTableV6.contacts = .ok [(2, sampleV6)] ∧
      s'.routingTableV6.contacts = .ok [] ∧
      ¬ (sampleDht (sampleTable sampleV6)).Restored s' := by
  have hread : (sampleDht (sampleTable sampleV6)).Readable sampleFormats :=
    sampleDht_readable (sampleTable_readable (by decide))
  obtain ⟨s', hrun⟩ := create_dumpDht_succeeds hread 0 sampleEnvironment {} rfl sampleEnvironment_binds
  obtain ⟨store, bound, hto, heq⟩ := created_eq hread hrun
  have hempty : s'.routingTableV6.contacts = .ok [] := by
    rw [heq]
    rfl
  refine ⟨sampleTable_added sampleV6, hread, s', hrun, rfl, hempty, ?_⟩
  intro hr
  have hlost := hr.contactsV6
  rw [hempty] at hlost
  cases hlost

end Persistence
end Restart
end LibrtbitDht
