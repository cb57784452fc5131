import LibrtbitDht.FindNodeLookup
import LibrtbitDht.MessageRoundTrip
import LibrtbitDht.PeerStoreRetention
import LibrtbitDht.QueryRuns

set_option autoImplicit false

namespace LibrtbitDht
open TransitionRuns
open ByteStrings (Bytes)

section Client

structure RecursiveRequestCallbacksGetPeers where
  minDistanceToAnnounce : Id20
  announcePort : Option (BitVec 16)
deriving DecidableEq, Repr

namespace RecursiveRequestCallbacksGetPeers

def new (announcePort : Option (BitVec 16)) : RecursiveRequestCallbacksGetPeers where
  minDistanceToAnnounce := 0x0000ffffffffffffffffffffffffffffffffffff
  announcePort

/-- The announcement that node `dhtId` sends at the end of a request, if any. -/
def onRequestEnd (callbacks : RecursiveRequestCallbacksGetPeers) (dhtId : Id20) (transactionId : BitVec 16)
    (infoHash targetNode : Id20) (addr : SocketAddr) (resp : RequestResult) : Option Message :=
  match callbacks.announcePort with
  | none => none
  | some announcePort =>
    match resp with
    | .error _ | .ok (.error _) => none
    | .ok (.response resp) =>
      match resp.token with
      | none => none
      | some token =>
        if infoHash.distance targetNode > callbacks.minDistanceToAnnounce then none
        else some (createRequest dhtId transactionId (.announce infoHash token announcePort) addr)

theorem onRequestEnd_response {callbacks : RecursiveRequestCallbacksGetPeers} {port : BitVec 16} {resp : Response}
    {token : Bytes} (hport : callbacks.announcePort = some port) (htoken : resp.token = some token) (dhtId : Id20)
    (transactionId : BitVec 16) (infoHash targetNode : Id20) (addr : SocketAddr) :
    callbacks.onRequestEnd dhtId transactionId infoHash targetNode addr (.ok (.response resp)) =
      if infoHash.distance targetNode > callbacks.minDistanceToAnnounce then none
      else some (createRequest dhtId transactionId (.announce infoHash token port) addr) := by
  unfold onRequestEnd
  simp only [hport, htoken]

end RecursiveRequestCallbacksGetPeers
end Client

namespace DhtState
variable {s s' : DhtState}

section Events

def tokensIssued (events : List Event) : ℕ := (PeerStore.issued (events.filterMap Event.storeOp)).length

def keepsToken (issuedAt : DateTime) (_ : DhtState) (e : Event) : Prop := ∀ op ∈ e.storeOp, op.sparesToken issuedAt

def keepsPeer (infoHash : Id20) (a : SocketAddr) (s : DhtState) (e : Event) : Prop :=
  ∀ op ∈ e.storeOp, s.peerStore.sparesPeer infoHash a op

theorem tokensIssued_snoc (events : List Event) (e : Event) :
    tokensIssued (events ++ [e]) = tokensIssued events + (PeerStore.issued e.storeOp.toList).length := by
  unfold tokensIssued PeerStore.issued
  rw [filterMap_snoc, List.filterMap_append, List.length_append]

theorem Sound.maxRememberedTokens (h : s.Sound) : s.peerStore.maxRememberedTokens = 1000 :=
  h.limits.maxRememberedTokens

theorem Sound.remembered_step (h : s.Sound) {t : StoredToken} {n : ℕ} (hremembered : s.peerStore.Remembered t n)
    {e : Event} (hstep : Step s e s') (hkeeps : s.keepsToken t.time e)
    (hfew : n + (PeerStore.issued e.storeOp.toList).length < s.peerStore.maxRememberedTokens.toNat) :
    s'.peerStore.Remembered t (n + (PeerStore.issued e.storeOp.toList).length) := by
  rw [(h.graph_after hstep).store]
  unfold keepsToken at hkeeps
  cases hop : e.storeOp with
  | none => exact hremembered
  | some op =>
    rw [hop] at hkeeps hfew
    have hissued : (PeerStore.issued (some op).toList).length = op.issued.toList.length :=
      congrArg List.length (PeerStore.issued_snoc [] op)
    rw [hissued] at hfew ⊢
    exact hremembered.step (hkeeps op rfl) hfew

theorem Sound.remembered_run (h : s.Sound) {t : StoredToken} (hremembered : s.peerStore.Remembered t 0)
    {events : List Event} (run : Guarded (keepsToken t.time) Step s events s')
    (hfew : tokensIssued events < s.peerStore.maxRememberedTokens.toNat) : t ∈ s'.peerStore.tokens := by
  suffices hall : s'.Sound ∧ (tokensIssued events < 1000 → s'.peerStore.Remembered t (tokensIssued events)) by
    rw [h.maxRememberedTokens] at hfew
    exact (hall.2 hfew).mem
  refine Run.history (fun events v => v.Sound ∧
    (tokensIssued events < 1000 → v.peerStore.Remembered t (tokensIssued events))) run ⟨h, fun _ => hremembered⟩ ?_
  intro events v w e _ hv hstep
  refine ⟨(hv.1.graph_after hstep.2).sound, fun hlt => ?_⟩
  rw [tokensIssued_snoc] at hlt ⊢
  refine hv.1.remembered_step (hv.2 (by omega)) hstep.2 hstep.1 ?_
  rw [hv.1.maxRememberedTokens]
  exact hlt

theorem Sound.known_run (h : s.Sound) {infoHash : Id20} {a : SocketAddr} (hknown : s.peerStore.Known infoHash a)
    {events : List Event} (run : Guarded (keepsPeer infoHash a) Step s events s') :
    s'.peerStore.Known infoHash a := by
  suffices hall : s'.Sound ∧ s'.peerStore.Known infoHash a from hall.2
  refine Run.invariant (fun v => v.Sound ∧ v.peerStore.Known infoHash a) run ⟨h, hknown⟩ ?_
  intro v w e hv hstep
  have hafter := hv.1.graph_after hstep.2
  refine ⟨hafter.sound, ?_⟩
  rw [hafter.store]
  have hkeeps := hstep.1
  unfold keepsPeer at hkeeps
  cases hop : e.storeOp with
  | none => exact hv.2
  | some op => exact hv.2.spared hv.1.store (hkeeps op hop)

end Events

section Announcing

/-- The node replies to the message, and the peer is among the values of the reply. -/
def Lists (s : DhtState) (r : Readings) (msg : Message) (addr : SocketAddr) (peer : SocketAddr) : Prop :=
  ∃ answer s' resp values, s.onReceivedMessage r msg addr = .ok (some answer, s') ∧ answer.kind = .response resp ∧
    resp.values = some values ∧ peer ∈ values

theorem Sound.lists_of_known (h : s.Sound) {infoHash : Id20} {peer : SocketAddr}
    (hknown : s.peerStore.Known infoHash peer) (r : Readings) {msg : Message} {query : GetPeersRequest}
    (hkind : msg.kind = .getPeersRequest query) (hquery : query.infoHash = infoHash) (addr : SocketAddr)
    (hwant : query.want.getD (wantFor addr) = PeerStore.wantOf peer ∨ query.want.getD (wantFor addr) = .both) :
    s.Lists r msg addr peer := by
  obtain ⟨resp, s', hrun, hanswer, _⟩ := h.onReceivedMessage_spec r msg addr (by rw [hkind]; rfl)
  have hvalues := hanswer.values
  rw [hkind] at hvalues
  refine ⟨_, s', resp, _, hrun, rfl, hvalues, ?_⟩
  rw [hquery]
  exact hknown.mem_getForInfoHash hwant

theorem Sound.known_of_lists (h : s.Sound) {peer : SocketAddr} {r : Readings} {msg : Message} {query : GetPeersRequest}
    (hkind : msg.kind = .getPeersRequest query) {addr : SocketAddr} (hlists : s.Lists r msg addr peer) :
    s.peerStore.Known query.infoHash peer := by
  obtain ⟨answer, s', resp, values, hrun, hanswer, hvalues, hmem⟩ := hlists
  obtain ⟨resp', v, hrun', hanswer', _⟩ := h.onReceivedMessage_spec r msg addr (by rw [hkind]; rfl)
  cases Except.ok.inj (hrun.symm.trans hrun')
  cases hanswer
  have hlisted := hvalues.symm.trans hanswer'.values
  rw [hkind] at hlisted
  cases Option.some.inj hlisted
  exact PeerStore.known_of_mem_getForInfoHash hmem

theorem Sound.token_issued (h : s.Sound) {r : Readings} {msg : Message} {query : GetPeersRequest} {addr : SocketAddr}
    {answer : Message} {resp : Response} (hkind : msg.kind = .getPeersRequest query)
    (hrun : s.onReceivedMessage r msg addr = .ok (some answer, s')) (hanswer : answer.kind = .response resp) :
    s'.Sound ∧ s'.id = s.id ∧ resp.token = some r.token.toList ∧
      s'.peerStore.Remembered ⟨r.token, query.id, addr, r.utcNow⟩ 0 := by
  obtain ⟨resp', v, hrun', hanswer', hafter⟩ := h.onReceivedMessage_spec r msg addr (by rw [hkind]; rfl)
  cases Except.ok.inj (hrun.symm.trans hrun')
  cases hanswer
  have htoken := hanswer'.token
  have hstore := hafter.store
  rw [hkind] at htoken hstore
  refine ⟨hafter.sound, hafter.id, htoken, ?_⟩
  rw [hstore]
  apply PeerStore.remembered_genTokenFor
  rw [h.maxRememberedTokens]
  decide

/-- An announcement that presents a token of the node is stored exactly if its info hash is near. -/
theorem Sound.known_iff_near (h : s.Sound) {t : StoredToken} (ht : t ∈ s.peerStore.tokens)
    (hroom : s.peerStore.peersLen < s.peerStore.maxRememberedPeers) {infoHash : Id20} {port transactionId : BitVec 16}
    {dest : SocketAddr} {r : Readings}
    (hstep : Step s (.received r (createRequest t.nodeId transactionId (.announce infoHash t.token.toList port) dest)
      t.addr) s') :
    s'.peerStore.Known infoHash (t.addr.setPort port) ↔
      infoHash.distance s.peerStore.selfId ≤ s.peerStore.maxDistance := by
  have hafter := h.graph_after hstep
  have hstore : s'.peerStore = (s.peerStore.storePeer ⟨t.nodeId, 0, infoHash, port, t.token.toList⟩ t.addr r.utcNow).2 :=
    hafter.store
  have same := PeerStore.sameLimits_step s.peerStore (.storePeer ⟨t.nodeId, 0, infoHash, port, t.token.toList⟩ t.addr r.utcNow)
  constructor
  · intro hknown
    have hnear := hafter.sound.store.near_of_known hknown
    rw [hstore] at hnear
    exact same.maxDistance ▸ same.selfId ▸ hnear
  · intro hnear
    rw [hstore]
    apply PeerStore.known_storePeer s.peerStore ⟨t.nodeId, 0, infoHash, port, t.token.toList⟩
    apply (PeerStore.storePeer_true_iff _ _ _ _).2
    exact ⟨⟨hnear, t, ht, rfl, rfl, rfl⟩, .inr hroom⟩

theorem Sound.not_known_of_far (h : s.Sound) (infoHash : Id20)
    (hfar : ¬ infoHash.distance s.id ≤ 0x00000fffffffffffffffffffffffffffffffffff) (a : SocketAddr) :
    ¬ s.peerStore.Known infoHash a := by
  intro hknown
  have hnear := h.store.near_of_known hknown
  rw [h.limits.selfId, h.limits.maxDistance] at hnear
  exact hfar hnear

/-- What the lookup of one node announces to another is stored there, and listed to whoever asks
for it next, exactly if the info hash is within the bound of the store. -/
theorem announced_iff_near (env : Persistence.Environment) (id : Id20) (listenAddr : SocketAddr)
    (before between after : List Event) (s s₁ s₂ s₃ s₄ : DhtState) (asker infoHash : Id20)
    (port transactionId announceId : BitVec 16) (dest sender : SocketAddr) (r r' : Readings)
    (answer announce : Message) (resp : Response) (run : Run Step (start env id listenAddr) before s)
    (asked : s.onReceivedMessage r (createRequest asker transactionId (.getPeers infoHash) dest) sender =
      .ok (some answer, s₁))
    (answered : answer.kind = .response resp)
    (sent : (RecursiveRequestCallbacksGetPeers.new (some port)).onRequestEnd asker announceId infoHash id dest
      (.ok (.response resp.onWire)) = some announce)
    (kept : Guarded (keepsToken r.utcNow) Step s₁ between s₂)
    (few : tokensIssued between < s₁.peerStore.maxRememberedTokens.toNat)
    (room : s₂.peerStore.peersLen < s₂.peerStore.maxRememberedPeers)
    (received : Step s₂ (.received r' announce sender) s₃)
    (stays : Guarded (keepsPeer infoHash (sender.setPort port)) Step s₃ after s₄) :
    (s₃.peerStore.Known infoHash (sender.setPort port) ∧
      ∀ r'' msg query addr, msg.kind = .getPeersRequest query → query.infoHash = infoHash →
        (query.want.getD (wantFor addr) = PeerStore.wantOf sender ∨ query.want.getD (wantFor addr) = .both) →
        s₄.Lists r'' msg addr (sender.setPort port)) ↔
      infoHash.distance id ≤ 0x00000fffffffffffffffffffffffffffffffffff := by
  obtain ⟨hsound, hid⟩ := (sound_start env id listenAddr).run run
  obtain ⟨hsound₁, hid₁, hissued, hremembered⟩ := hsound.token_issued rfl asked answered
  have htoken : resp.onWire.token = some r.token.toList := hissued
  rw [RecursiveRequestCallbacksGetPeers.onRequestEnd_response rfl htoken] at sent
  obtain ⟨_, hannounce⟩ := Option.ite_none_left_eq_some.1 sent
  have ht := hsound₁.remembered_run hremembered kept few
  obtain ⟨hsound₂, hid₂⟩ := hsound₁.run kept.run
  have hsound₃ := (hsound₂.graph_after received).sound
  rw [← Option.some.inj hannounce] at received
  have hnear := hsound₂.known_iff_near ht room received
  have hsame : s₂.id = id := hid₂.trans (hid₁.trans hid)
  rw [hsound₂.limits.selfId, hsound₂.limits.maxDistance, hsame] at hnear
  refine ⟨fun h => hnear.1 h.1, fun h => ?_⟩
  have hknown := hnear.2 h
  have hfamily : PeerStore.wantOf (sender.setPort port) = PeerStore.wantOf sender := by
    unfold PeerStore.wantOf
    rw [SocketAddr.isIpv4_setPort]
  refine ⟨hknown, ?_⟩
  intro r'' msg query addr hkind hquery hwant
  rw [← hfamily] at hwant
  exact (hsound₃.run stays.run).1.lists_of_known (hsound₃.known_run hknown stays) r'' hkind hquery addr hwant

end Announcing

section Sample

def sampleEnvironment : Persistence.Environment := ⟨true, some, 0, fun _ => 0, fun _ => 0, fun _ => 0, 0, 0⟩

def sampleNode : SocketAddr := .v4 ⟨1, 6881⟩

def sampleHost : SocketAddr := .v4 ⟨2, 6881⟩

def sampleReadings : Readings := ⟨0, 0, 0, #v[4, 5, 6, 7]⟩

def sampleState : DhtState := start sampleEnvironment 0 sampleNode

/-- The first node that asks the sample node is told a token and announces the info hash with it. -/
theorem sample_announces (infoHash : Id20)
    (hnear : infoHash.distance 0 ≤ 0x0000ffffffffffffffffffffffffffffffffffff) :
    ∃ s₁ answer resp announce s₃,
      sampleState.onReceivedMessage sampleReadings (createRequest 1 0 (.getPeers infoHash) sampleNode) sampleHost =
        .ok (some answer, s₁) ∧
      answer.kind = .response resp ∧
      (RecursiveRequestCallbacksGetPeers.new (some 80)).onRequestEnd 1 0 infoHash 0 sampleNode
        (.ok (.response resp.onWire)) = some announce ∧
      tokensIssued [] < s₁.peerStore.maxRememberedTokens.toNat ∧
      s₁.peerStore.peersLen < s₁.peerStore.maxRememberedPeers ∧
      Step s₁ (.received sampleReadings announce sampleHost) s₃ ∧ s₃.Sound ∧ s₃.id = 0 := by
  have hsound := sound_start sampleEnvironment 0 sampleNode
  obtain ⟨resp, s₁, hrun, hanswer, hafter⟩ := hsound.onReceivedMessage_spec sampleReadings
    (createRequest 1 0 (.getPeers infoHash) sampleNode) sampleHost rfl
  obtain ⟨s₃, hstep, hafter₃⟩ := hafter.sound.step_spec
    (.received sampleReadings (createRequest 1 0 (.announce infoHash [4, 5, 6, 7] 80) sampleNode) sampleHost)
  have htoken : resp.onWire.token = some [4, 5, 6, 7] := hanswer.token
  refine ⟨s₁, _, resp, _, s₃, hrun, rfl, ?_, ?_, ?_, hstep, hafter₃.sound, hafter₃.id.trans hafter.id⟩
  · rw [RecursiveRequestCallbacksGetPeers.onRequestEnd_response rfl htoken]
    exact if_neg (BitVec.not_lt.2 hnear)
  · rw [hafter.sound.maxRememberedTokens]
    decide
  · rw [hafter.store]
    exact (by decide : (0 : BitVec 32) < 1000)

/-- An announcement of the node's own identifier is stored and listed. -/
theorem sample_announced_near : ∃ s₃ : DhtState, s₃.peerStore.Known 0 (sampleHost.setPort 80) ∧
    s₃.Lists sampleReadings (createRequest 3 0 (.getPeers 0) sampleNode) sampleHost (sampleHost.setPort 80) := by
  obtain ⟨s₁, answer, resp, announce, s₃, asked, answered, sent, few, room, received, _⟩ :=
    sample_announces 0 (by decide)
  obtain ⟨hknown, hlists⟩ := (announced_iff_near sampleEnvironment 0 sampleNode [] [] [] sampleState s₁ s₁ s₃ s₃ 1 0
    80 0 0 sampleNode sampleHost sampleReadings sampleReadings answer announce resp .nil asked answered sent .nil few
    room received .nil).2 (by decide)
  exact ⟨s₃, hknown, hlists sampleReadings _ _ sampleHost rfl rfl (.inl rfl)⟩

/-- Between the two bounds the announcement is sent, answered and dropped. -/
theorem sample_dropped_far : ∃ s₁ answer resp announce s₃,
    sampleState.onReceivedMessage sampleReadings
      (createRequest 1 0 (.getPeers 0x0000100000000000000000000000000000000000) sampleNode) sampleHost =
        .ok (some answer, s₁) ∧
    answer.kind = .response resp ∧
    (RecursiveRequestCallbacksGetPeers.new (some 80)).onRequestEnd 1 0 0x0000100000000000000000000000000000000000 0
      sampleNode (.ok (.response resp.onWire)) = some announce ∧
    s₁.peerStore.peersLen < s₁.peerStore.maxRememberedPeers ∧
    Step s₁ (.received sampleReadings announce sampleHost) s₃ ∧
    ¬ s₃.peerStore.Known 0x0000100000000000000000000000000000000000 (sampleHost.setPort 80) ∧
    ¬ s₃.Lists sampleReadings (createRequest 3 0 (.getPeers 0x0000100000000000000000000000000000000000) sampleNode)
      sampleHost (sampleHost.setPort 80) := by
  obtain ⟨s₁, answer, resp, announce, s₃, asked, answered, sent, _, room, received, hsound, hid⟩ :=
    sample_announces 0x0000100000000000000000000000000000000000 (by decide)
  have hfar := hsound.not_known_of_far 0x0000100000000000000000000000000000000000 (by rw [hid]; decide)
    (sampleHost.setPort 80)
  exact ⟨s₁, answer, resp, announce, s₃, asked, answered, sent, room, received, hfar,
    fun hlists => hfar (hsound.known_of_lists rfl hlists)⟩

end Sample
end DhtState
end LibrtbitDht
