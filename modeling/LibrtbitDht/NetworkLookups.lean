import LibrtbitDht.NetworkMessages

set_option autoImplicit false

namespace LibrtbitDht
open TransitionRuns Bencode
open ByteStrings (Bytes wordBytes bigEndian)

section Transactions

theorem getOurTransactionId_wordBytes (tid : TransactionId) : getOurTransactionId (wordBytes 2 tid) = some tid := by
  have hbytes : wordBytes 2 tid = [UInt8.ofNat (tid.toNat / 256), UInt8.ofNat tid.toNat] := rfl
  rw [hbytes, getOurTransactionId]
  refine congrArg some (BitVec.eq_of_toNat_eq ?_)
  have := tid.isLt
  simp [Nat.shiftLeft_eq]
  omega

theorem transaction_injective {n m : ℕ} (hn : n < 65536) (hm : m < 65536)
    (h : Dht.transaction n = Dht.transaction m) : n = m := by
  have heq := congrArg BitVec.toNat h
  simp only [Dht.transaction, BitVec.toNat_ofNat] at heq
  omega

end Transactions

namespace DhtState
variable {s : DhtState}

theorem mem_getForInfoHash {store : PeerStore} {infoHash : Id20} {want : Want} {a : SocketAddr}
    (h : a ∈ store.getForInfoHash infoHash want) : ∃ stored, store.peers.get? infoHash = some stored ∧
      ∃ p ∈ stored, p.addr = a := by
  unfold PeerStore.getForInfoHash at h
  cases hget : store.peers.get? infoHash with
  | none =>
    rw [hget] at h
    cases h
  | some stored =>
    rw [hget] at h
    obtain ⟨p, hp, haddr⟩ := List.mem_map.1 h
    exact ⟨stored, rfl, p, List.mem_of_mem_filter hp, haddr⟩

/-- The peers in the answer to a query are stored under the info hash that it asks for. -/
theorem Sound.values_stored (h : s.Sound) {r : Readings} {query : Message} {addr : SocketAddr} {resp : Response}
    {s' : DhtState} (hquery : isQuery query.kind = true)
    (hhandled : s.onReceivedMessage r query addr = .ok (some (reply query addr resp), s')) {a : SocketAddr}
    (ha : a ∈ resp.values.getD []) : ∃ req stored, query.kind = .getPeersRequest req ∧
      s.peerStore.peers.get? req.infoHash = some stored ∧ ∃ p ∈ stored, p.addr = a := by
  obtain ⟨resp', v, hspec, hanswer, _⟩ := h.onReceivedMessage_spec r query addr hquery
  cases hhandled.symm.trans hspec
  rw [hanswer.values] at ha
  cases hkind : query.kind with
  | getPeersRequest req =>
    rw [hkind] at ha
    obtain ⟨stored, hget, hstored⟩ := mem_getForInfoHash ha
    exact ⟨req, stored, rfl, hget, hstored⟩
  | error | response | findNodeRequest | pingRequest | announcePeer | bep44GetRequest | bep44PutRequest =>
    rw [hkind] at ha
    cases ha

end DhtState

namespace Dht

theorem storeOp_received {a : Action} {op : PeerStore.Op} (h : a.event.bind DhtState.Event.storeOp = some op)
    (hcollect : ∀ now, op ≠ .garbageCollectPeers now) (hrehash : ∀ es, op ≠ .rehash es) :
    ∃ r msg addr, a = .receive r msg addr ∧ DhtState.messageOp r msg.kind addr = some op := by
  obtain ⟨e, he, hop⟩ := Option.bind_eq_some_iff.1 h
  cases a <;> cases he
  case receive r msg addr => exact ⟨r, msg, addr, rfl, hop⟩
  case garbageCollectPeers now => exact absurd (Option.some.inj hop).symm (hcollect now)
  case rehash es => exact absurd (Option.some.inj hop).symm (hrehash es)

theorem storePeer_received {r : Readings} {kind : MessageKind} {addr addr' : SocketAddr} {announce : AnnouncePeer}
    {now : DateTime} (h : DhtState.messageOp r kind addr' = some (.storePeer announce addr now)) :
    kind = .announcePeer announce ∧ addr' = addr := by
  cases kind <;> cases h
  exact ⟨rfl, rfl⟩

theorem genTokenFor_received {r : Readings} {kind : MessageKind} {addr addr' : SocketAddr} {token : Token}
    {nodeId : Id20} {now : DateTime} (h : DhtState.messageOp r kind addr' = some (.genTokenFor token nodeId addr now)) :
    DhtState.issuesToken kind = true ∧ r.token = token ∧ addr' = addr := by
  cases kind <;> cases h
  · exact ⟨rfl, rfl, rfl⟩
  · exact ⟨rfl, rfl, rfl⟩

end Dht

namespace Network
open PartyNetwork.Protocol (Traced traced_run Closed closed_run)

variable {ι : Type} {H : Hosts ι} {nodes : ι → NewNode} {c : Network ι}

section Announcements

/-- The peer was announced to the node, with a token that the node had issued to the sender before. -/
structure Announced (c : Network ι) (i : ι) (src : SocketAddr) (announce : AnnouncePeer) (msg : Message) : Prop where
  kind : msg.kind = .announcePeer announce
  received : ∃ before r, before ++ [.receive r msg src] <+: c.history i ∧
    ∃ r₀ query, .receive r₀ query src ∈ before ∧ DhtState.issuesToken query.kind = true ∧
      announce.token = r₀.token.toList

/-- The user of the node asked for it to be announced, with this port. -/
def Asked (c : Network ι) (k : ι) (infoHash : Id20) (port : BitVec 16) : Prop :=
  .getPeers infoHash (some port) ∈ c.history k

theorem stored_announced {C : Codec} {i : ι} {before : List Dht.Action} {v : Dht} (hbegins : before <+: c.history i)
    (run : Run (Dht.Step C) (parties nodes i) before v) {infoHash : Id20} {stored : List StoredPeer}
    (hget : v.state.peerStore.peers.get? infoHash = some stored) {p : StoredPeer} (hp : p ∈ stored) :
    ∃ src announce msg, Announced c i src announce msg ∧ announce.infoHash = infoHash ∧
      p.addr = PeerStore.announcedAddr announce src := by
  have hstore := Dht.store_run (nodes i).ready run
  rw [(nodes i).store, List.filterMap_filterMap] at hstore
  have hprovenance := PeerStore.provenance_run (nodes i).state.id
    (before.filterMap fun a => a.event.bind DhtState.Event.storeOp)
  have hgranted := hprovenance.peers infoHash stored (by rw [← hstore, hget]) p hp
  obtain ⟨ops, token, nodeId, sender, issuedAt, between, announce, now, later, hops, hhash, _, htoken, haddr, _⟩ := hgranted
  -- first the announcement, then the query among what came before it
  obtain ⟨js, a, after, rfl, hjs, ha⟩ := filterMap_split hops
  obtain ⟨js', a', after', rfl, _, ha'⟩ := filterMap_split hjs
  obtain ⟨r, msg, src, rfl, hmsg⟩ := Dht.storeOp_received ha nofun nofun
  obtain ⟨r₀, query, src', rfl, hquery⟩ := Dht.storeOp_received ha' nofun nofun
  obtain ⟨hkind, rfl⟩ := Dht.storePeer_received hmsg
  obtain ⟨hissues, rfl, rfl⟩ := Dht.genTokenFor_received hquery
  refine ⟨src', announce, msg, ⟨hkind, js' ++ .receive r₀ query src' :: after', r, ?_, r₀, query, ?_, hissues, htoken⟩,
    hhash, haddr.symm⟩
  · refine List.IsPrefix.trans ?_ hbegins
    rw [List.append_cons _ _ after]
    exact List.prefix_append _ _
  · exact List.mem_append_right _ List.mem_cons_self

variable {C : WholeCodec}

theorem Announced.origin (h : Traced (Framer.network C.toCodec H) (parties nodes) c) {i : ι} {src : SocketAddr}
    {announce : AnnouncePeer} {msg : Message} (hann : Announced c i src announce msg) :
    Foreign C.toCodec H c i src msg ∨ ∃ k dst port, src = H.source k dst ∧ H.owner dst = some i ∧
      Asked c k announce.infoHash port ∧ PeerStore.announcedAddr announce src = src.setPort port := by
  obtain ⟨before, r, hbegins, _⟩ := hann.received
  have hmem := hbegins.subset (List.mem_append_right before (List.mem_singleton_self _))
  rcases received_cases h hmem with hforeign | ⟨k, dst, hsrc, howner, hwrote⟩
  · exact .inl hforeign
  · right
    have hquery : DhtState.isQuery msg.kind = true := by
      rw [hann.kind]
      rfl
    obtain ⟨num, request, _, hmsg, hreason⟩ := hwrote.query h hquery
    have hkind := hann.kind
    rw [hmsg] at hkind
    cases hreason with
    | ping | findNode | getPeers => cases hkind
    | announce asked heard token_eq =>
      cases hkind
      exact ⟨k, dst, _, hsrc, howner, asked, rfl⟩

end Announcements

section Lookups

/-- In its answer to the query the node lists the peer, which it has stored under the info hash. -/
def Lists (C : Codec) (nodes : ι → NewNode) (c : Network ι) (j : ι) (query : Message) (addr : SocketAddr)
    (infoHash : Id20) (p : SocketAddr) : Prop :=
  ∃ v r resp req stored, Answers C nodes c j query addr v r resp ∧ query.kind = .getPeersRequest req ∧
    req.infoHash = infoHash ∧ v.state.peerStore.peers.get? infoHash = some stored ∧ ∃ q ∈ stored, p = q.addr.onWire

/-- How a node learns of a peer from the reply to its `num`-th message, a query for the info hash. -/
inductive Learned (C : Codec) (H : Hosts ι) (nodes : ι → NewNode) (c : Network ι) (i : ι) (num : ℕ)
    (addr p : SocketAddr) : Prop where
  | outside {msg : Message} {resp : Response} (foreign : Foreign C H c i addr msg) (kind : msg.kind = .response resp)
      (tid : getOurTransactionId msg.transactionId = some (Dht.transaction num)) (listed : p ∈ resp.values.getD [])
  | spoofed {j : ι} {query : Message} {dst : SocketAddr} {infoHash : Id20} (source : addr = H.source j dst)
      (owner : H.owner dst = some i) (lists : Lists C nodes c j query dst infoHash p)
      (foreign : Foreign C H c j dst query)
      (tid : getOurTransactionId query.transactionId = some (Dht.transaction num))
  | answered {j : ι} {query : Message} {dst dst' : SocketAddr} {infoHash : Id20} {num' : ℕ}
      (source : addr = H.source j dst) (owner : H.owner dst = some i) (lists : Lists C nodes c j query dst infoHash p)
      (requested : Requested nodes c i num' (.getPeers infoHash) dst') (tid : Dht.transaction num' = Dht.transaction num)

variable {C : WholeCodec}

theorem mem_values_onWire {sent : Response} {p : SocketAddr} (h : p ∈ sent.onWire.values.getD []) :
    ∃ q ∈ sent.values.getD [], p = q.onWire := by
  cases hvalues : sent.values with
  | none =>
    rw [Response.onWire, hvalues] at h
    cases h
  | some l =>
    rw [Response.onWire, hvalues] at h
    obtain ⟨q, hq, rfl⟩ := List.mem_map.1 h
    exact ⟨q, hq, rfl⟩

theorem Answers.lists {j : ι} {query : Message} {dst : SocketAddr} {v : Dht} {r : Readings} {sent : Response}
    (h : Answers C.toCodec nodes c j query dst v r sent) {p : SocketAddr} (hp : p ∈ sent.onWire.values.getD []) :
    ∃ req, query.kind = .getPeersRequest req ∧ Lists C.toCodec nodes c j query dst req.infoHash p := by
  obtain ⟨before, _, hrun⟩ := h.did
  obtain ⟨state, hhandled⟩ := h.handled
  obtain ⟨q, hq, rfl⟩ := mem_values_onWire hp
  obtain ⟨req, stored, hkind, hget, x, hx, rfl⟩ :=
    (lawful_node hrun).ready.sound.values_stored h.asked hhandled hq
  exact ⟨req, hkind, v, r, sent, req, stored, h, hkind, rfl, hget, x, hx, rfl⟩

theorem learned_of_found (h : Traced (Framer.network C.toCodec H) (parties nodes) c) {i : ι} {infoHash : Id20}
    {p : SocketAddr} (hfound : Dht.Found C.toCodec (parties nodes i) (c.history i) infoHash p) :
    ∃ num addr, Requested nodes c i num (.getPeers infoHash) addr ∧ Learned C.toCodec H nodes c i num addr p := by
  obtain ⟨addr, resp, ⟨num, v, r, msg, hdid, hcreated, _, htid, hreply⟩, hp⟩ := hfound
  refine ⟨num, addr, Dht.created_did (nodes i).ready (run_node h i) hdid hcreated, ?_⟩
  have hkind : msg.kind = .response resp := by
    cases hkind : msg.kind <;> rw [hkind] at hreply <;> cases hreply
    rfl
  rcases received_cases h hdid.mem with hforeign | ⟨j, dst, hsource, howner, hwrote⟩
  · exact .outside hforeign hkind htid hp
  · obtain ⟨query, v, r', sent, hanswers, hsame, rfl⟩ := hwrote.answer hkind
    obtain ⟨req, hasked, hlists⟩ := hanswers.lists hp
    rw [hsame] at htid
    rcases received_cases h hanswers.did.mem with hforeign | ⟨k, dst', hsource', howner', hwrote'⟩
    · exact .spoofed hsource howner hlists hforeign htid
    · -- the answer went back to the node that had asked
      have hk : k = i := by
        rw [hsource', H.owns] at howner
        exact Option.some.inj howner
      subst hk
      obtain ⟨num', request, hrequested, rfl, _⟩ := hwrote'.query h hanswers.asked
      have htid' : Dht.transaction num' = Dht.transaction num := by
        change getOurTransactionId (wordBytes 2 (Dht.transaction num')) = _ at htid
        rw [getOurTransactionId_wordBytes] at htid
        exact Option.some.inj htid
      have hrequest : request = .getPeers req.infoHash := by
        cases request <;> cases hasked
        rfl
      subst hrequest
      exact .answered hsource howner hlists hrequested htid'

end Lookups

section Laws
variable [DecidableEq ι] {C : WholeCodec} {events : List (Event ι)}

/-- Where nobody from outside sends anything, a lookup finds only what was announced under its info hash. -/
theorem closed_law (run : Run (Step C.toCodec H) (start nodes) events c) (closed : Closed events) (i : ι)
    (few : (c.party i).created.length ≤ 65536) :
    ∀ t ∈ (c.party i).tasks, ∀ infoHash, t.request = .getPeers infoHash → ∀ p ∈ t.loop.peers,
      ∃ k dst port, Asked c k infoHash port ∧ p = ((H.source k dst).setPort port).onWire := by
  have h := traced_run run
  have hnobody : ∀ j src msg, ¬ Foreign C.toCodec H c j src msg := by
    rintro j src msg ⟨d, hd, _⟩
    obtain ⟨k, hk⟩ := closed_run run closed _ hd
    cases hk
  intro t ht infoHash hrequest p hp
  obtain ⟨num, addr, hrequested, hlearned⟩ :=
    learned_of_found h (((lawful_node (run_node h i)).looking.tasks t ht).2 infoHash hrequest p hp)
  cases hlearned with
  | outside foreign => exact absurd foreign (hnobody _ _ _)
  | spoofed source owner lists foreign => exact absurd foreign (hnobody _ _ _)
  | @answered j query dst dst' infoHash' num' source owner lists requested tid =>
    have hnum := (List.getElem?_eq_some_iff.1 hrequested).1
    have hnum' := (List.getElem?_eq_some_iff.1 requested).1
    cases transaction_injective (hnum'.trans_le few) (hnum.trans_le few) tid
    have hsame := Prod.ext_iff.1 (Option.some.inj (requested.symm.trans hrequested))
    have hhash : infoHash' = infoHash := by
      have hkind := congrArg Message.kind hsame.1
      injection hkind with hreq
      exact congrArg GetPeersRequest.infoHash hreq
    subst hhash
    obtain ⟨v, r, resp, req, stored, hanswers, _, _, hget, q, hq, rfl⟩ := lists
    obtain ⟨before, hbefore, hrun⟩ := hanswers.did
    have hbegins : before <+: c.history j := (List.prefix_append _ _).trans hbefore
    obtain ⟨src, announce, msg, hann, rfl, haddr⟩ := stored_announced hbegins hrun hget hq
    rcases hann.origin h with hforeign | ⟨k, dst₁, port, rfl, _, hasked, hport⟩
    · exact absurd hforeign (hnobody _ _ _)
    · exact ⟨k, dst₁, port, hasked, by rw [haddr, hport]⟩

section Samples

theorem SampleEnd.found {c : Network Bool} (h : SampleEnd c) :
    ∃ t ∈ (c.party false).tasks, t.request = .getPeers 7 ∧ .v4 ⟨10, 80⟩ ∈ t.loop.peers := by
  have hmem : (.getPeers 7, [.v4 ⟨10, 80⟩]) ∈ (c.party false).tasks.map (fun t => (t.request, t.loop.peers)) := by
    rw [h.2.2.1]
    exact List.mem_cons_self
  obtain ⟨t, ht, heq⟩ := List.mem_map.1 hmem
  obtain ⟨hrequest, hpeers⟩ := Prod.mk.inj heq
  exact ⟨t, ht, hrequest, hpeers ▸ List.mem_singleton_self _⟩

theorem sample_closed_law : ∃ c, Run (Step Codec.standard sampleHosts) (start sampleNodes) sampleEvents c ∧
    (c.party false).created.length = 3 ∧ ∃ k dst port, Asked c k 7 port ∧
      .v4 ⟨10, 80⟩ = ((sampleHosts.source k dst).setPort port).onWire := by
  obtain ⟨c, run, hend⟩ := sample_run
  obtain ⟨t, ht, hrequest, hp⟩ := hend.found
  have hcreated := hend.2.1
  exact ⟨c, run, hcreated, closed_law (C := .standard) run sample_closed false (by omega) t ht 7 hrequest _ hp⟩

end Samples

end Laws
end Network
end LibrtbitDht
