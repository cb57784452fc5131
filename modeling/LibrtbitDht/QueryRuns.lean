import LibrtbitDht.QueryHandling

set_option autoImplicit false

namespace LibrtbitDht
open TransitionRuns

section Nodes
variable {rt : RoutingTable}

theorem RoutingTable.Inv.sortedByDistanceFrom_spec (h : rt.Inv) (id : Id20) (now : Instant) :
    ∃ nodes, rt.sortedByDistanceFrom id now = .ok nodes ∧ nodes.Perm rt.stored := by
  obtain ⟨nodes, hrun, hperm, _⟩ := BucketTree.Inv.iter_spec h
  have hiter : rt.iter = .ok nodes := hrun
  refine ⟨_, ?_, (List.perm_insertionSort (fun a b => distanceKey id now a ≤ distanceKey id now b) nodes).trans hperm⟩
  rw [sortedByDistanceFrom, hiter]
  rfl

def RoutingTable.contactsOf {A : Type} (rt : RoutingTable) (fromSocketAddr : SocketAddr → Option A) : ℕ :=
  rt.stored.countP (fun n => (fromSocketAddr n.addr).isSome)

theorem RoutingTable.Inv.generateCompactNodes_spec {A : Type} (h : rt.Inv) (fromSocketAddr : SocketAddr → Option A)
    (target : Id20) (now : Instant) :
    ∃ nodes, generateCompactNodes fromSocketAddr target rt now = .ok nodes ∧
      nodes.length = min 8 (rt.contactsOf fromSocketAddr) := by
  obtain ⟨nodes, hrun, hperm⟩ := h.sortedByDistanceFrom_spec target now
  refine ⟨(nodes.filterMap (fun r => (fromSocketAddr r.addr).map (fun addr => ⟨r.id, addr⟩))).take 8, ?_, ?_⟩
  · rw [generateCompactNodes, hrun]
    rfl
  · rw [List.length_take, List.length_filterMap_eq_countP, RoutingTable.contactsOf, ← hperm.countP_eq]
    simp

end Nodes

namespace DhtState
variable {s s' : DhtState}

structure Sound (s : DhtState) : Prop where
  tableV4 : s.routingTableV4.Inv
  tableV6 : s.routingTableV6.Inv
  store : s.peerStore.Inv
  limits : (PeerStore.new s.id).SameLimits s.peerStore

section Handling

theorem Sound.generateCompactNodesBoth_spec (h : s.Sound) (target : Id20) (want : Want) (now : Instant) :
    ∃ nodes nodes6, s.generateCompactNodesBoth target want now = .ok (nodes, nodes6) ∧
      (∀ l ∈ nodes, l.length = min 8 (s.routingTableV4.contactsOf SocketAddr.toV4)) ∧
      (∀ l ∈ nodes6, l.length = min 8 (s.routingTableV6.contactsOf SocketAddr.toV6)) ∧
      (nodes.isSome ↔ want = .v4 ∨ want = .both) ∧ (nodes6.isSome ↔ want = .v6 ∨ want = .both) := by
  obtain ⟨l, hl, hlength⟩ := h.tableV4.generateCompactNodes_spec SocketAddr.toV4 target now
  obtain ⟨l6, hl6, hlength6⟩ := h.tableV6.generateCompactNodes_spec SocketAddr.toV6 target now
  cases want with
  | v4 => exact ⟨some l, none, by rw [generateCompactNodesBoth, hl]; rfl, by simpa using hlength, by simp, by simp, by simp⟩
  | v6 => exact ⟨none, some l6, by rw [generateCompactNodesBoth, hl6]; rfl, by simp, by simpa using hlength6, by simp, by simp⟩
  | both =>
    exact ⟨some l, some l6, by rw [generateCompactNodesBoth, hl, hl6]; rfl, by simpa using hlength,
      by simpa using hlength6, by simp, by simp⟩
  | none => exact ⟨none, none, rfl, by simp, by simp, by simp, by simp⟩

theorem Sound.markLastQuery_spec (h : s.Sound) (addr : SocketAddr) (id : Id20) (now : Instant) :
    ∃ s', s.markLastQuery addr id now = .ok s' ∧ s'.Sound ∧ s'.id = s.id ∧ s'.peerStore = s.peerStore := by
  unfold markLastQuery RoutingTable.markLastQuery
  by_cases hv4 : addr.isIpv4 = true
  · obtain ⟨found, rt, hrun, inv, _⟩ := h.tableV4.mark_cases id none (RoutingTableNode.markLastQuery now) (fun _ => rfl)
    rw [if_pos hv4, hrun]
    exact ⟨{ s with routingTableV4 := rt }, rfl, ⟨inv, h.tableV6, h.store, h.limits⟩, rfl, rfl⟩
  · obtain ⟨found, rt, hrun, inv, _⟩ := h.tableV6.mark_cases id none (RoutingTableNode.markLastQuery now) (fun _ => rfl)
    rw [if_neg hv4, hrun]
    exact ⟨{ s with routingTableV6 := rt }, rfl, ⟨h.tableV4, inv, h.store, h.limits⟩, rfl, rfl⟩

theorem Sound.withStore (h : s.Sound) (op : PeerStore.Op) : Sound { s with peerStore := s.peerStore.step op } := by
  have hsame := PeerStore.sameLimits_step s.peerStore op
  refine ⟨h.tableV4, h.tableV6, h.store.step op, ?_⟩
  exact ⟨hsame.selfId.trans h.limits.selfId, hsame.maxRememberedTokens.trans h.limits.maxRememberedTokens,
    hsame.maxRememberedPeers.trans h.limits.maxRememberedPeers, hsame.maxDistance.trans h.limits.maxDistance⟩

def asked (kind : MessageKind) (addr : SocketAddr) : Want :=
  match kind with
  | .getPeersRequest req => req.want.getD (wantFor addr)
  | .findNodeRequest req => req.want.getD (wantFor addr)
  | .bep44GetRequest _ => .both
  | _ => .none

def listed (s : DhtState) (kind : MessageKind) (addr : SocketAddr) : Option (List SocketAddr) :=
  match kind with
  | .getPeersRequest req => some (s.peerStore.getForInfoHash req.infoHash (req.want.getD (wantFor addr)))
  | _ => none

def isQuery : MessageKind → Bool
  | .error _ | .response _ => false
  | _ => true

def messageOp (r : Readings) (kind : MessageKind) (addr : SocketAddr) : Option PeerStore.Op :=
  match kind with
  | .announcePeer ann => some (.storePeer ann addr r.utcNow)
  | .getPeersRequest req => some (.genTokenFor r.token req.id addr r.utcNow)
  | .bep44GetRequest req => some (.genTokenFor r.token req.id addr r.utcNow)
  | _ => none

def issuesToken : MessageKind → Bool
  | .getPeersRequest _ | .bep44GetRequest _ => true
  | _ => false

def afterOp (store : PeerStore) (op : Option PeerStore.Op) : PeerStore := (op.map store.step).getD store

structure Answer (s : DhtState) (r : Readings) (kind : MessageKind) (addr : SocketAddr) (resp : Response) : Prop where
  id : resp.id = s.id
  values : resp.values = s.listed kind addr
  nodes : ∀ l ∈ resp.nodes, l.length = min 8 (s.routingTableV4.contactsOf SocketAddr.toV4)
  nodes6 : ∀ l ∈ resp.nodes6, l.length = min 8 (s.routingTableV6.contactsOf SocketAddr.toV6)
  askedV4 : resp.nodes.isSome ↔ asked kind addr = .v4 ∨ asked kind addr = .both
  askedV6 : resp.nodes6.isSome ↔ asked kind addr = .v6 ∨ asked kind addr = .both
  token : resp.token = if issuesToken kind then some r.token.toList else none
  others : resp.v = none ∧ resp.k = none ∧ resp.sig = none ∧ resp.seq = none

structure After (s : DhtState) (op : Option PeerStore.Op) (s' : DhtState) : Prop where
  sound : s'.Sound
  id : s'.id = s.id
  store : s'.peerStore = afterOp s.peerStore op

theorem Sound.after (op : Option PeerStore.Op) {v : DhtState} (hv : v.Sound) (hid : v.id = s.id)
    (hstore : v.peerStore = s.peerStore) : After s op { v with peerStore := afterOp v.peerStore op } := by
  cases op with
  | none => exact ⟨hv, hid, hstore⟩
  | some op => exact ⟨hv.withStore op, hid, congrArg (fun p => p.step op) hstore⟩

theorem answer_default (s : DhtState) (r : Readings) {kind : MessageKind} (addr : SocketAddr) (hnone : asked kind addr = .none)
    (hlisted : s.listed kind addr = none) (htoken : issuesToken kind = false) :
    Answer s r kind addr (defaultResponse s.id) := by
  refine ⟨rfl, hlisted.symm, nofun, nofun, ?_, ?_, ?_, ⟨rfl, rfl, rfl, rfl⟩⟩
  · simp [defaultResponse, hnone]
  · simp [defaultResponse, hnone]
  · simp [defaultResponse, htoken]

theorem Sound.onReceivedMessage_spec (h : s.Sound) (r : Readings) (msg : Message) (addr : SocketAddr)
    (hquery : isQuery msg.kind = true) :
    ∃ resp s', s.onReceivedMessage r msg addr = .ok (some (reply msg addr resp), s') ∧
      Answer s r msg.kind addr resp ∧ After s (messageOp r msg.kind addr) s' := by
  unfold onReceivedMessage
  cases hkind : msg.kind with
  | error e => simp [hkind, isQuery] at hquery
  | response resp => simp [hkind, isQuery] at hquery
  | pingRequest req =>
    obtain ⟨v, hrun, hv, hid, hstore⟩ := h.markLastQuery_spec addr req.id r.queryNow
    exact ⟨_, v, by simp only [hrun]; rfl, answer_default s r addr rfl rfl rfl, hv, hid, hstore⟩
  | bep44PutRequest req =>
    obtain ⟨v, hrun, hv, hid, hstore⟩ := h.markLastQuery_spec addr req.id r.queryNow
    exact ⟨_, v, by simp only [hrun]; rfl, answer_default s r addr rfl rfl rfl, hv, hid, hstore⟩
  | announcePeer ann =>
    obtain ⟨v, hrun, hv, hid, hstore⟩ := h.markLastQuery_spec addr ann.id r.queryNow
    exact ⟨_, _, by simp only [hrun]; rfl, answer_default s r addr rfl rfl rfl,
      hv.after (some (.storePeer ann addr r.utcNow)) hid hstore⟩
  | getPeersRequest req =>
    obtain ⟨nodes, nodes6, hnodes, hlength, hlength6, hv4, hv6⟩ :=
      h.generateCompactNodesBoth_spec req.infoHash (req.want.getD (wantFor addr)) r.nodesNow
    obtain ⟨v, hrun, hv, hid, hstore⟩ := h.markLastQuery_spec addr req.id r.queryNow
    exact ⟨_, _, by simp only [hnodes, hrun]; rfl, ⟨rfl, rfl, hlength, hlength6, hv4, hv6, rfl, ⟨rfl, rfl, rfl, rfl⟩⟩,
      hv.after (some (.genTokenFor r.token req.id addr r.utcNow)) hid hstore⟩
  | findNodeRequest req =>
    obtain ⟨nodes, nodes6, hnodes, hlength, hlength6, hv4, hv6⟩ :=
      h.generateCompactNodesBoth_spec req.target (req.want.getD (wantFor addr)) r.nodesNow
    obtain ⟨v, hrun, hv, hid, hstore⟩ := h.markLastQuery_spec addr req.id r.queryNow
    exact ⟨_, v, by simp only [hnodes, hrun]; rfl, ⟨rfl, rfl, hlength, hlength6, hv4, hv6, rfl, ⟨rfl, rfl, rfl, rfl⟩⟩,
      hv, hid, hstore⟩
  | bep44GetRequest req =>
    obtain ⟨nodes, nodes6, hnodes, hlength, hlength6, hv4, hv6⟩ :=
      h.generateCompactNodesBoth_spec req.target .both r.nodesNow
    obtain ⟨v, hrun, hv, hid, hstore⟩ := h.markLastQuery_spec addr req.id r.queryNow
    exact ⟨_, _, by simp only [hnodes, hrun]; rfl, ⟨rfl, rfl, hlength, hlength6, hv4, hv6, rfl, ⟨rfl, rfl, rfl, rfl⟩⟩,
      hv.after (some (.genTokenFor r.token req.id addr r.utcNow)) hid hstore⟩

end Handling
section Runs

def Event.storeOp : Event → Option PeerStore.Op
  | .received r msg addr => messageOp r msg.kind addr
  | .tableV4 _ => none
  | .tableV6 _ => none
  | .garbageCollectPeers now => some (.garbageCollectPeers now)
  | .rehash es => some (.rehash es)

theorem Sound.step_spec (h : s.Sound) (e : Event) : ∃ s', s.step e = .ok s' ∧ After s e.storeOp s' := by
  cases e with
  | received r msg addr =>
    by_cases hquery : isQuery msg.kind = true
    · obtain ⟨resp, s', hrun, _, hafter⟩ := h.onReceivedMessage_spec r msg addr hquery
      exact ⟨s', by rw [step, hrun]; rfl, hafter⟩
    · refine ⟨s, ?_, h, rfl, ?_⟩
      · unfold step onReceivedMessage
        cases hkind : msg.kind <;> simp [hkind, isQuery] at hquery ⊢ <;> rfl
      · unfold Event.storeOp messageOp
        cases hkind : msg.kind <;> simp [hkind, isQuery] at hquery ⊢ <;> rfl
  | tableV4 op =>
    obtain ⟨rt, hrun, inv, _⟩ := h.tableV4.step_cases op
    exact ⟨{ s with routingTableV4 := rt }, by rw [step, hrun]; rfl, ⟨inv, h.tableV6, h.store, h.limits⟩, rfl, rfl⟩
  | tableV6 op =>
    obtain ⟨rt, hrun, inv, _⟩ := h.tableV6.step_cases op
    exact ⟨{ s with routingTableV6 := rt }, by rw [step, hrun]; rfl, ⟨h.tableV4, inv, h.store, h.limits⟩, rfl, rfl⟩
  | garbageCollectPeers now => exact ⟨_, rfl, h.after (some (.garbageCollectPeers now)) rfl rfl⟩
  | rehash es => exact ⟨_, rfl, h.after (some (.rehash es)) rfl rfl⟩

theorem Sound.graph_after (h : s.Sound) {e : Event} (hs : Step s e s') : After s e.storeOp s' := by
  obtain ⟨v, hstep, hafter⟩ := h.step_spec e
  cases Except.ok.inj (hs.symm.trans hstep)
  exact hafter

theorem sound_start (env : Persistence.Environment) (id : Id20) (listenAddr : SocketAddr) :
    (start env id listenAddr).Sound :=
  ⟨RoutingTable.new_inv id none env.newTable, RoutingTable.new_inv id none env.newTableV6, PeerStore.new_inv id,
    ⟨rfl, rfl, rfl, rfl⟩⟩

theorem Sound.run (h : s.Sound) {events : List Event} (run : Run Step s events s') : s'.Sound ∧ s'.id = s.id :=
  run.invariant (fun v => v.Sound ∧ v.id = s.id) ⟨h, rfl⟩ (fun _ _ _ hv hs =>
    ⟨(hv.1.graph_after hs).sound, (hv.1.graph_after hs).id.trans hv.2⟩)

end Runs
end DhtState
end LibrtbitDht
