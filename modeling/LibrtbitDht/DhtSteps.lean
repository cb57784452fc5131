import LibrtbitDht.Dht
import LibrtbitDht.NodeHistory
import LibrtbitDht.PeersLookupRuns

set_option autoImplicit false

namespace LibrtbitDht
open TransitionRuns Bencode

theorem isQuery_iff (kind : MessageKind) : DhtState.isQuery kind = true ↔ replyOf kind = none := by
  cases kind <;> simp [DhtState.isQuery, replyOf]

namespace Liveness
variable {l l' : Liveness}

/-- Both tables are reached by operations on them that insert nothing but `new`. -/
structure Moved (new : Option Contact) (l l' : Liveness) : Prop where
  tables : ∀ v, ∃ ops, (l.table v).Reaches ops (l'.table v) ∧
    ∀ id addr clock, .addNode id addr clock ∈ ops → new = some ⟨id, addr⟩
  queuedPings : l'.queuedPings = l.queuedPings

variable {new : Option Contact}

theorem moved_refl (new : Option Contact) (l : Liveness) : Moved new l l :=
  ⟨fun _ => ⟨[], .nil, nofun⟩, rfl⟩

theorem queuedPings_setTable (l : Liveness) (v : Bool) (rt : RoutingTable) :
    (l.setTable v rt).queuedPings = l.queuedPings := by
  cases v <;> rfl

theorem moved_setTable {v : Bool} {ops : List RoutingTable.Op} {rt : RoutingTable} (h : (l.table v).Reaches ops rt)
    (hnew : ∀ id addr clock, .addNode id addr clock ∈ ops → new = some ⟨id, addr⟩) : Moved new l (l.setTable v rt) := by
  refine ⟨?_, queuedPings_setTable l v rt⟩
  intro w
  rw [table_setTable]
  split_ifs with hw
  · subst hw
    exact ⟨ops, h, hnew⟩
  · exact ⟨[], .nil, nofun⟩

theorem reaches_of_result {α : Type} {rt rt' : RoutingTable} {x : Except Fault (α × RoutingTable)} {a : α}
    (op : RoutingTable.Op) (hop : rt.step op = x.map Prod.snd) (hx : x = .ok (a, rt')) : rt.Reaches [op] rt' := by
  apply Run.single
  rw [TransitionRuns.Graph, hop, hx]
  rfl

theorem moved_mark {v : Bool} {α : Type} {rt : RoutingTable} {x : Except Fault (α × RoutingTable)} {a : α}
    (op : RoutingTable.Op) (hop : (l.table v).step op = x.map Prod.snd) (hx : x = .ok (a, rt))
    (hmark : ∀ id addr clock, op ≠ .addNode id addr clock) : Moved new l (l.setTable v rt) := by
  refine moved_setTable (reaches_of_result op hop hx) ?_
  intro id addr clock hmem
  exact absurd (List.mem_singleton.1 hmem).symm (hmark id addr clock)

theorem moved_markResult {v : Bool} {id : Id20} {ok : Bool} {now : Instant} (h : l.markResult v id ok now = .ok l') :
    Moved new l l' := by
  cases ok with
  | true =>
    obtain ⟨⟨found, rt⟩, hmark, heq⟩ := exists_of_bind_ok h
    cases heq
    exact moved_mark (.markResponse id now) rfl hmark nofun
  | false =>
    obtain ⟨⟨found, rt⟩, hmark, heq⟩ := exists_of_bind_ok h
    cases heq
    exact moved_mark (.markError id) rfl hmark nofun

theorem moved_onPingStart {v : Bool} {id : Id20} {now : Instant} (h : l.onPingStart v id now = .ok l') :
    Moved new l l' := by
  obtain ⟨⟨found, rt⟩, hmark, heq⟩ := exists_of_bind_ok h
  cases heq
  exact moved_mark (.markOutgoingRequest id now) rfl hmark nofun

theorem moved_onQuery {id : Id20} {addr : SocketAddr} {now : Instant} (h : l.onQuery id addr now = .ok l') :
    Moved new l l' := by
  obtain ⟨⟨found, rt⟩, hmark, heq⟩ := exists_of_bind_ok h
  cases heq
  exact moved_mark (.markLastQuery id now) rfl hmark nofun

theorem moved_onRequestStart {id : Id20} {addr : SocketAddr} {clock : ℕ → Instant} {now : Instant}
    (h : l.onRequestStart id addr clock now = .ok l') : Moved (some ⟨id, addr⟩) l l' := by
  obtain ⟨⟨res, rt⟩, hadd, hrest⟩ := exists_of_bind_ok h
  have hadded : (l.table addr.isIpv4).Reaches [.addNode id addr clock] rt :=
    reaches_of_result (.addNode id addr clock) rfl hadd
  have hnew : ∀ (ops : List RoutingTable.Op),
      (∀ op ∈ ops, op = .addNode id addr clock ∨ op = .markOutgoingRequest id now) →
      ∀ id' addr' clock', .addNode id' addr' clock' ∈ ops → some (⟨id, addr⟩ : Contact) = some ⟨id', addr'⟩ := by
    intro ops hops id' addr' clock' hmem
    rcases hops _ hmem with heq | heq
    · cases heq
      rfl
    · cases heq
  have houtgoing : (rt.markOutgoingRequest id now >>= fun r => .ok (l.setTable addr.isIpv4 r.2)) = .ok l' →
      Moved (some ⟨id, addr⟩) l l' := by
    intro hmarked
    obtain ⟨⟨found, rt'⟩, hmark, heq⟩ := exists_of_bind_ok hmarked
    cases heq
    refine moved_setTable (hadded.append (reaches_of_result (.markOutgoingRequest id now) rfl hmark)) (hnew _ ?_)
    simp
  cases res with
  | wasExisting => exact houtgoing hrest
  | replacedBad old => exact houtgoing hrest
  | added => exact houtgoing hrest
  | ignored =>
    cases hrest
    exact moved_setTable hadded (hnew _ (by simp))

theorem Moved.stored (h : Moved new l l') (inv : ∀ v, (l.table v).Inv) {v : Bool} {y : RoutingTableNode}
    (hy : y ∈ (l'.table v).stored) :
    (∃ x ∈ (l.table v).stored, x.id = y.id ∧ x.addr = y.addr) ∨ new = some ⟨y.id, y.addr⟩ := by
  obtain ⟨ops, run, hops⟩ := h.tables v
  have hall : (l'.table v).Inv ∧ ∀ y ∈ (l'.table v).stored,
      (∃ x ∈ (l.table v).stored, x.id = y.id ∧ x.addr = y.addr) ∨ ∃ clock, .addNode y.id y.addr clock ∈ ops := by
    refine run.history (fun ops rt => rt.Inv ∧ ∀ y ∈ rt.stored,
      (∃ x ∈ (l.table v).stored, x.id = y.id ∧ x.addr = y.addr) ∨ ∃ clock, .addNode y.id y.addr clock ∈ ops) ?_ ?_
    · exact ⟨inv v, fun y hy => .inl ⟨y, hy, rfl, rfl⟩⟩
    · rintro js rt rt' op _ ⟨hinv, hold⟩ hstep
      refine ⟨(hinv.graph_cases hstep).1, ?_⟩
      intro z hz
      rcases hinv.step_entry hstep hz with ⟨x, hx, hid, haddr, _⟩ | ⟨clock, rfl, _⟩
      · rw [← hid, ← haddr]
        rcases hold x hx with hstored | ⟨clock, hmem⟩
        · exact .inl hstored
        · exact .inr ⟨clock, List.mem_append_left _ hmem⟩
      · exact .inr ⟨clock, List.mem_append_right _ (List.mem_singleton_self _)⟩
  rcases hall.2 y hy with hold | ⟨clock, hmem⟩
  · exact .inl hold
  · exact .inr (hops _ _ clock hmem)

theorem pingerTick_queued (inv : ∀ v, (l.table v).Inv) {v : Bool} {now : Instant} (h : l.pingerTick v now = .ok l') :
    ∃ queuedPings, l' = { l with queuedPings } ∧
      ∀ p ∈ queuedPings, p ∈ l.queuedPings ∨ ∃ n ∈ (l.table v).stored, p.2 = ⟨n.id, n.addr⟩ := by
  obtain ⟨nodes, hnodes, heq⟩ := exists_of_bind_ok h
  cases heq
  obtain ⟨nodes', hrun, hperm, _⟩ := BucketTree.Inv.iter_spec (inv v)
  have hiter : (l.table v).iter = .ok nodes' := hrun
  cases Except.ok.inj (hnodes.symm.trans hiter)
  refine ⟨_, rfl, ?_⟩
  intro p hp
  rcases List.mem_append.1 hp with hp | hp
  · exact .inl hp
  · obtain ⟨n, hn, rfl⟩ := List.mem_map.1 hp
    exact .inr ⟨n, hperm.mem_iff.1 (List.mem_of_mem_filter hn), rfl⟩

end Liveness

section Loops

/-- The contact that `on_request_start` offers to the table. -/
def Loop.inserts : Loop → Visit → Option Contact
  | .findNode _, visit => visit.id.map (fun id => ⟨id, visit.addr⟩)
  | .getPeers _ _, _ => none

theorem PeersLookup.step_goes (lookup : PeersLookup) (a : PeersLookup.Action)
    (rounds : ∀ table now asleep, a = .round table now asleep → table.Inv) :
    lookup.step a = .error .blocked ∨ ∃ lookup', lookup.step a = .ok lookup' := by
  unfold PeersLookup.step
  by_cases haborted : lookup.aborted = true
  · rw [if_pos haborted]
    exact .inl rfl
  rw [if_neg haborted]
  cases a with
  | round table now asleep =>
    obtain ⟨best, hroots, _⟩ := lookup.loop.req.getPeersRoot_spec (rounds table now asleep rfl) now
    simp only [hroots]
    split_ifs
    · exact .inr ⟨_, rfl⟩
    · exact .inl rfl
  | recv =>
    cases hqueue : lookup.loop.queue with
    | nil => exact .inl rfl
    | cons visit queue => exact .inr ⟨_, rfl⟩
  | firstReply num reply now =>
    cases hwaiting : lookup.loop.waiting num false with
    | none =>
      simp only [hwaiting]
      exact .inl trivial
    | some f =>
      simp only [hwaiting]
      exact .inr ⟨_, rfl⟩
  | secondReply num reply now =>
    cases hwaiting : lookup.loop.waiting num true with
    | none =>
      simp only [hwaiting]
      exact .inl trivial
    | some f =>
      simp only [hwaiting]
      exact .inr ⟨_, rfl⟩
  | dropped =>
    dsimp only
    split_ifs
    · exact .inr ⟨_, rfl⟩
    · exact .inl rfl
  | aborted =>
    dsimp only
    split_ifs
    · exact .inl rfl
    · exact .inr ⟨_, rfl⟩

theorem Loop.step_goes (loop : Loop) (b : Loop.Action)
    (rounds : ∀ table now asleep, b = .turn (.round table now asleep) → table.Inv) :
    loop.step b = .error .blocked ∨ ∃ loop', loop.step b = .ok loop' := by
  cases loop with
  | findNode lookup =>
    change Loop.stepFindNode lookup b = _ ∨ ∃ loop', Loop.stepFindNode lookup b = _
    unfold Loop.stepFindNode
    cases b.findNode with
    | none => exact .inl rfl
    | some a =>
      dsimp only
      cases lookup.step a with
      | error e => exact .inl rfl
      | ok lookup' => exact .inr ⟨_, rfl⟩
  | getPeers callbacks lookup =>
    cases b with
    | finished => exact .inl rfl
    | turn a =>
      have hrounds : ∀ table now asleep, a = .round table now asleep → table.Inv :=
        fun table now asleep ha => rounds table now asleep (congrArg Loop.Action.turn ha)
      rcases lookup.step_goes a hrounds with hgoes | ⟨lookup', hgoes⟩
      · exact .inl (by rw [Loop.step, hgoes]; rfl)
      · exact .inr ⟨_, by rw [Loop.step, hgoes]; rfl⟩

theorem Task.polled_goes (t : Task) (num : ℕ) : t.polled num = .error .blocked ∨
    ∃ f ∈ t.loop.lookup.futs, f.num = num ∧ t.loop.Polls ∧ t.polled num = .ok f := by
  unfold Task.polled
  split_ifs with hpolls
  · cases hfind : t.loop.lookup.futs.find? (fun f => f.num = num) with
    | none => exact .inl rfl
    | some f =>
      have hnum := List.find?_some hfind
      exact .inr ⟨f, List.mem_of_find?_eq_some hfind, by simpa using hnum, hpolls, rfl⟩
  · exact .inl rfl

end Loops

namespace DhtState
variable {s s' : DhtState}

/-- A query marks its sender in the table of the family, and does nothing else to the tables. -/
theorem onReceivedMessage_tables {r : Readings} {msg : Message} {addr : SocketAddr} {answer : Option Message}
    (hquery : isQuery msg.kind = true) (h : s.onReceivedMessage r msg addr = .ok (answer, s')) :
    ∃ id v, s.markLastQuery addr id r.queryNow = .ok v ∧ s'.routingTableV4 = v.routingTableV4 ∧
      s'.routingTableV6 = v.routingTableV6 := by
  unfold onReceivedMessage at h
  cases hkind : msg.kind with
  | error e => simp [hkind, isQuery] at hquery
  | response resp => simp [hkind, isQuery] at hquery
  | pingRequest req =>
    rw [hkind] at h
    obtain ⟨v, hv, heq⟩ := exists_of_bind_ok h
    cases heq
    exact ⟨req.id, s', hv, rfl, rfl⟩
  | bep44PutRequest req =>
    rw [hkind] at h
    obtain ⟨v, hv, heq⟩ := exists_of_bind_ok h
    cases heq
    exact ⟨req.id, s', hv, rfl, rfl⟩
  | announcePeer ann =>
    rw [hkind] at h
    obtain ⟨v, hv, heq⟩ := exists_of_bind_ok h
    cases heq
    exact ⟨ann.id, v, hv, rfl, rfl⟩
  | getPeersRequest req =>
    rw [hkind] at h
    obtain ⟨_, _, h⟩ := exists_of_bind_ok h
    obtain ⟨v, hv, heq⟩ := exists_of_bind_ok h
    cases heq
    exact ⟨req.id, v, hv, rfl, rfl⟩
  | findNodeRequest req =>
    rw [hkind] at h
    obtain ⟨_, _, h⟩ := exists_of_bind_ok h
    obtain ⟨v, hv, heq⟩ := exists_of_bind_ok h
    cases heq
    exact ⟨req.id, s', hv, rfl, rfl⟩
  | bep44GetRequest req =>
    rw [hkind] at h
    obtain ⟨_, _, h⟩ := exists_of_bind_ok h
    obtain ⟨v, hv, heq⟩ := exists_of_bind_ok h
    cases heq
    exact ⟨req.id, v, hv, rfl, rfl⟩

theorem markLastQuery_liveness (s : DhtState) (l : Liveness) (hv4 : l.routingTableV4 = s.routingTableV4)
    (hv6 : l.routingTableV6 = s.routingTableV6) (addr : SocketAddr) (id : Id20) (now : Instant) {v : DhtState}
    (h : s.markLastQuery addr id now = .ok v) :
    ∃ l', l.onQuery id addr now = .ok l' ∧ l'.routingTableV4 = v.routingTableV4 ∧
      l'.routingTableV6 = v.routingTableV6 := by
  unfold markLastQuery at h
  cases addr with
  | v4 a =>
    obtain ⟨⟨found, rt⟩, hmark, heq⟩ := exists_of_bind_ok h
    cases heq
    refine ⟨{ l with routingTableV4 := rt }, ?_, rfl, hv6⟩
    rw [← hv4] at hmark
    change ((l.routingTableV4.markLastQuery id now) >>= _) = _
    rw [hmark]
    rfl
  | v6 a =>
    obtain ⟨⟨found, rt⟩, hmark, heq⟩ := exists_of_bind_ok h
    cases heq
    refine ⟨{ l with routingTableV6 := rt }, ?_, hv4, rfl⟩
    rw [← hv6] at hmark
    change ((l.routingTableV6.markLastQuery id now) >>= _) = _
    rw [hmark]
    rfl

end DhtState

namespace Dht
variable {C : Codec} {s : Dht}

theorem lift_ok {α : Type} {x : Except Fault α} {a : α} (h : x = .ok a) : lift x = .ok a := by
  rw [h]
  rfl

/-- The state is sound, and each table keeps to its family, as do the pings. -/
structure Ready (s : Dht) : Prop where
  sound : s.state.Sound
  liveness : s.liveness.Inv

/-- What `on_request_end` does. -/
inductive Ended (i : ℕ) (loop : Loop) (visit : Visit) (outcome : RequestResult) (s : Dht) : Dht → Prop where
  | marked {l : Liveness} (moved : s.liveness.Moved none l) : Ended i loop visit outcome s (s.withLiveness l)
  | announced {callbacks : RecursiveRequestCallbacksGetPeers} {lookup : PeersLookup} {id : Id20} {message : Message}
      (loop_eq : loop = .getPeers callbacks lookup) (id_eq : visit.id = some id)
      (message_eq : callbacks.onRequestEnd s.state.id s.nextTransactionId lookup.loop.req.infoHash id visit.addr outcome =
        some message) : Ended i loop visit outcome s (s.create message visit.addr (.announce i))

inductive Turns (s : Dht) (t : Task) : Action → ℕ → Loop.Action → Prop where
  | round {i : ℕ} {now asleep : Instant} {callbacks : RecursiveRequestCallbacksGetPeers} {lookup : PeersLookup}
      (loop_eq : t.loop = .getPeers callbacks lookup) :
      Turns s t (.round i now asleep) i (.turn (.round (s.liveness.table lookup.isV4) now asleep))
  | recv {i : ℕ} : Turns s t (.recv i) i (.turn .recv)
  | finished {i : ℕ} : Turns s t (.finished i) i .finished
  | dropped {i : ℕ} : Turns s t (.dropped i) i (.turn .dropped)

/-- What an action does when it happens. -/
inductive Does (s : Dht) : Action → Dht → Prop where
  | reply {r : Readings} {msg : Message} {addr : SocketAddr} {reply : ResponseOrError}
      (kind : replyOf msg.kind = some reply) :
      Does s (.receive r msg addr) (s.onReply msg.transactionId addr reply)
  | answer {r : Readings} {msg : Message} {addr : SocketAddr} {resp : Response} {state : DhtState}
      (query : DhtState.isQuery msg.kind = true)
      (handled : s.state.onReceivedMessage r msg addr = .ok (some (DhtState.reply msg addr resp), state))
      (answer : s.state.Answer r msg.kind addr resp)
      (after : s.state.After (DhtState.messageOp r msg.kind addr) state)
      (moved : s.liveness.Moved none (liveness { s with state })) :
      Does s (.receive r msg addr) (enqueue { s with state } ⟨⟨none, addr, none⟩, DhtState.reply msg addr resp⟩)
  | sent {out : Outgoing} {queue : List Outgoing} (queued : s.queue = out :: queue) :
      Does s (.writer false) { s with queue }
  | unsent {out : Outgoing} {queue : List Outgoing} (queued : s.queue = out :: queue) (other : out.ourTid = none) :
      Does s (.writer true) { s with queue }
  | failed {out : Outgoing} {queue : List Outgoing} {tid : TransactionId} (queued : s.queue = out :: queue)
      (ours : out.ourTid = some tid) :
      Does s (.writer true) (finish { s with queue } (tid, out.addr) (.error .sendError))
  | closed : Does s .close s.close
  | inserted {p : Pending} {caller : Caller} (mem : p ∈ s.pending) (sending_eq : p.sending = .request caller false) :
      Does s (.insert p.num) { s with
        inflight := s.inflight.insert p.key p.num
        calls := s.calls ++ [⟨p.toWaiting, caller, none⟩]
        pending := s.pending.erase p ++ [{ p with sending := .request caller true }] }
  | handed {p : Pending} (mem : p ∈ s.pending) (is_open : s.workerOpen = true) :
      Does s (.send p.num) (enqueue { s with pending := s.pending.erase p } p.out)
  | refused {p : Pending} (mem : p ∈ s.pending) (closed : s.workerOpen = false) :
      Does s (.send p.num) (refuse { s with pending := s.pending.erase p } p)
  | timedOut {c : Call} (mem : c ∈ s.calls) (waits : c.outcome = none) :
      Does s (.timeout c.num) (s.giveUp c .responseTimeout)
  | senderDropped {c : Call} (mem : c ∈ s.calls) (waits : c.outcome = none)
      (gone : s.inflight.get? c.key ≠ some c.num) : Does s (.senderDropped c.num) (s.giveUp c .dhtDead)
  | ping {addr : SocketAddr} : Does s (.ping addr) (s.request .ping addr .ping)
  | pingReturns {num : ℕ} : Does s (.pingReturns num) (s.endCall num)
  | getPeers {infoHash : Id20} {announcePort : Option (BitVec 16)} : Does s (.getPeers infoHash announcePort) { s with
      tasks := s.tasks ++ [.getPeers infoHash announcePort true, .getPeers infoHash announcePort false] }
  | bootstrapHostname {addrs : List SocketAddr} : Does s (.bootstrapHostname addrs) { s with
      tasks := s.tasks ++ [.findNode s.state.id (addrs.filter SocketAddr.isIpv4),
        .findNode s.state.id (addrs.filter SocketAddr.isIpv6)] }
  | refresherTick {isV4 : Bool} {now : Instant} {randoms : ℕ → Id20} (targets : List (Bool × Id20)) :
      Does s (.refresherTick isV4 now randoms) { s with queuedTargets := s.queuedTargets ++ targets }
  | refresh {isV4 : Bool} {now : Instant} (t : Bool × Id20) (addrs : List SocketAddr)
      (best : ∀ addr ∈ addrs, ∃ n ∈ (s.liveness.table isV4).stored, n.addr = addr) :
      Does s (.refresh isV4 now) { s with
        queuedTargets := s.queuedTargets.erase t
        tasks := s.tasks ++ [.findNode t.2 addrs] }
  | pingerTick {isV4 : Bool} {now : Instant} {queuedPings : List (Bool × Contact)}
      (queued : ∀ p ∈ queuedPings, p ∈ s.queuedPings ∨ ∃ n ∈ (s.liveness.table isV4).stored, p.2 = ⟨n.id, n.addr⟩) :
      Does s (.pingerTick isV4 now) { s with queuedPings }
  | pingStart {isV4 : Bool} {contact : Contact} {now : Instant} {l : Liveness} (mem : (isV4, contact) ∈ s.queuedPings)
      (moved : s.liveness.Moved none l) :
      Does s (.pingStart isV4 contact now) { s.withLiveness l with
        queuedPings := l.queuedPings.erase (isV4, contact)
        pings := s.pings ++ [⟨s.nextPing, isV4, contact⟩]
        nextPing := s.nextPing + 1 }
  | pingQuery {p : Ping} (mem : p ∈ s.pings) (idle : ∀ c ∈ s.calls, c.caller ≠ .pinger p.num) :
      Does s (.pingQuery p.num) (s.request .ping p.contact.addr (.pinger p.num))
  | pingEnd {num : ℕ} {now : Instant} {c : Call} {l : Liveness} (mem : c ∈ s.calls) (caller : c.caller = .pinger num)
      (moved : s.liveness.Moved none l) :
      Does s (.pingEnd num now) { (s.endCall c.num).withLiveness l with pings := s.pings.filter (fun q => q.num ≠ num) }
  | turned {a : Action} {i : ℕ} {t : Task} {b : Loop.Action} {loop : Loop} (task : s.tasks[i]? = some t)
      (turns : Turns s t a i b) (stepped : t.loop.step b = .ok loop) : Does s a (s.setTask i { t with loop })
  | started {i num : ℕ} {clock : ℕ → Instant} {now : Instant} {t : Task} {f : Fut} {l : Liveness}
      (task : s.tasks[i]? = some t) (fut : f ∈ t.loop.lookup.futs) (num_eq : f.num = num) (new : num ∉ t.started)
      (moved : s.liveness.Moved (t.loop.inserts f.visit) l) :
      Does s (.visitStart i num clock now) ((s.setTask i { t with started := t.started ++ [num] }).withLiveness l)
  | queried {i num : ℕ} {t : Task} {f : Fut} (task : s.tasks[i]? = some t) (fut : f ∈ t.loop.lookup.futs)
      (num_eq : f.num = num) (started : num ∈ t.started) (idle : ∀ c ∈ s.calls, c.caller ≠ .visit i num) :
      Does s (.query i num) (s.request t.request f.visit.addr (.visit i num))
  | firstReply {i num : ℕ} {now marked : Instant} {t : Task} {f : Fut} {c : Call} {outcome : RequestOutcome}
      {loop : Loop} {s' : Dht} (task : s.tasks[i]? = some t) (fut : f ∈ t.loop.lookup.futs) (num_eq : f.num = num)
      (mem : c ∈ s.calls) (caller : c.caller = .visit i num) (there : c.outcome = some outcome) (first : f.replied = false)
      (stepped : t.loop.step (.turn (.firstReply num outcome.result now)) = .ok loop)
      (ended : Ended i loop f.visit outcome.result ((s.endCall c.num).setTask i { t with loop }) s') :
      Does s (.resume i num now marked) s'
  | secondReply {i num : ℕ} {now marked : Instant} {t : Task} {f : Fut} {c : Call} {outcome : RequestOutcome}
      {loop : Loop} (task : s.tasks[i]? = some t) (fut : f ∈ t.loop.lookup.futs) (num_eq : f.num = num)
      (mem : c ∈ s.calls) (caller : c.caller = .visit i num) (there : c.outcome = some outcome) (second : f.replied = true)
      (stepped : t.loop.step (.turn (.secondReply num outcome.result now)) = .ok loop) :
      Does s (.resume i num now marked) ((s.endCall c.num).setTask i { t with loop })
  | aborted {i : ℕ} {t : Task} {loop : Loop} (p : Call → Bool) (task : s.tasks[i]? = some t)
      (stepped : t.loop.step (.turn .aborted) = .ok loop) :
      Does s (.aborted i) { s.setTask i { t with loop } with calls := s.calls.filter p }
  | garbageCollectPeers {now : DateTime} : Does s (.garbageCollectPeers now) { s with
      state := { s.state with peerStore := s.state.peerStore.garbageCollectPeers now } }
  | rehash {es : List (Id20 × List StoredPeer)} : Does s (.rehash es) { s with
      state := { s.state with peerStore := s.state.peerStore.rehash es } }

section Ready

theorem Ready.withLiveness (h : s.Ready) {l : Liveness} (inv : l.Inv) : (s.withLiveness l).Ready := by
  refine ⟨⟨inv.tree true, inv.tree false, h.sound.store, h.sound.limits⟩, ?_, ?_, inv.queuedPings, h.liveness.pings⟩
  · intro v
    cases v
    · exact inv.tree false
    · exact inv.tree true
  · intro v
    cases v
    · exact inv.family false
    · exact inv.family true

theorem Ready.mark_goes (h : s.Ready) {f : Liveness → Except Fault Liveness} {l : Liveness} (hf : f s.liveness = .ok l)
    (inv : l.Inv) : s.mark f = .ok (s.withLiveness l) ∧ (s.withLiveness l).Ready := by
  refine ⟨?_, h.withLiveness inv⟩
  rw [mark, lift_ok hf]
  rfl

theorem Ready.withState (h : s.Ready) {state : DhtState} {l : Liveness} (sound : state.Sound) (inv : l.Inv)
    (hv4 : l.routingTableV4 = state.routingTableV4) (hv6 : l.routingTableV6 = state.routingTableV6) :
    Ready { s with state } := by
  refine ⟨sound, ?_, ?_, h.liveness.queuedPings, h.liveness.pings⟩
  · intro v
    cases v
    · exact sound.tableV6
    · exact sound.tableV4
  · intro v
    cases v
    · have hfamily := inv.family false
      change ∀ x ∈ l.routingTableV6.stored, _ at hfamily
      rwa [hv6] at hfamily
    · have hfamily := inv.family true
      change ∀ x ∈ l.routingTableV4.stored, _ at hfamily
      rwa [hv4] at hfamily

theorem Ready.withPings (h : s.Ready) {queuedPings : List (Bool × Contact)} {pings : List Ping} {nextPing : ℕ}
    (hqueued : ∀ p ∈ queuedPings, p.2.addr.isIpv4 = p.1) (hpings : ∀ p ∈ pings, p.contact.addr.isIpv4 = p.isV4) :
    Ready { s with queuedPings, pings, nextPing } := by
  refine ⟨h.sound, h.liveness.tree, h.liveness.family, hqueued, ?_⟩
  intro p hp
  obtain ⟨q, hq, rfl⟩ := List.mem_map.1 hp
  exact hpings q hq

theorem Ready.pings (h : s.Ready) : ∀ p ∈ s.pings, p.contact.addr.isIpv4 = p.isV4 :=
  fun p hp => h.liveness.pings (p.isV4, p.contact) (List.mem_map_of_mem hp)

theorem Ready.finish (h : s.Ready) (key : RequestKey) (outcome : RequestOutcome) : (s.finish key outcome).Ready := by
  unfold Dht.finish
  split
  · exact h
  · exact ⟨h.sound, h.liveness⟩

theorem Ready.refuse (h : s.Ready) (p : Pending) : (s.refuse p).Ready := by
  unfold Dht.refuse
  split
  · exact ⟨h.sound, h.liveness⟩
  · exact h

theorem Ready.onReply (h : s.Ready) (transactionId : ByteStrings.Bytes) (addr : SocketAddr) (reply : ResponseOrError) :
    (s.onReply transactionId addr reply).Ready := by
  unfold Dht.onReply
  split
  · exact h
  · exact h.finish _ _

end Ready

section Goes

/-- The action has to wait, or it does one of the things that are listed. -/
def Goes (C : Codec) (s : Dht) (a : Action) : Prop :=
  s.perform C a = .error .blocked ∨ ∃ s', s.perform C a = .ok s' ∧ Does s a s' ∧ s'.Ready

theorem task_goes (s : Dht) (i : ℕ) : s.task i = .error .blocked ∨ ∃ t, s.tasks[i]? = some t ∧ s.task i = .ok t := by
  unfold task
  cases s.tasks[i]? with
  | none => exact .inl rfl
  | some t => exact .inr ⟨t, rfl, rfl⟩

theorem pingOf_goes (s : Dht) (num : ℕ) : s.pingOf num = .error .blocked ∨
    ∃ p ∈ s.pings, p.num = num ∧ s.pingOf num = .ok p := by
  unfold pingOf
  cases hfind : s.pings.find? (fun p => p.num = num) with
  | none => exact .inl rfl
  | some p =>
    have hnum := List.find?_some hfind
    exact .inr ⟨p, List.mem_of_find?_eq_some hfind, by simpa using hnum, rfl⟩

theorem returned_goes (s : Dht) (caller : Caller) : s.returned caller = .error .blocked ∨
    ∃ c ∈ s.calls, c.caller = caller ∧ ∃ outcome, c.outcome = some outcome ∧
      s.returned caller = .ok (outcome, s.endCall c.num) := by
  unfold returned
  cases hfind : s.calls.find? (fun c => c.caller = caller) with
  | none => exact .inl rfl
  | some c =>
    have hcaller := List.find?_some hfind
    cases houtcome : c.outcome with
    | none => exact .inl (by simp only [houtcome])
    | some outcome =>
      refine .inr ⟨c, List.mem_of_find?_eq_some hfind, by simpa using hcaller, outcome, houtcome, ?_⟩
      simp only [houtcome]

theorem Ready.receives (h : s.Ready) (C : Codec) (r : Readings) (msg : Message) (addr : SocketAddr) :
    ∃ s', s.perform C (.receive r msg addr) = .ok s' ∧ Does s (.receive r msg addr) s' ∧ s'.Ready := by
  cases hreply : replyOf msg.kind with
  | some reply =>
    refine ⟨s.onReply msg.transactionId addr reply, ?_, .reply hreply, h.onReply _ _ _⟩
    rw [perform, onReceivedMessage, hreply]
    rfl
  | none =>
    have hquery : DhtState.isQuery msg.kind = true := (isQuery_iff msg.kind).2 hreply
    obtain ⟨resp, state, hrun, hanswer, hafter⟩ := h.sound.onReceivedMessage_spec r msg addr hquery
    obtain ⟨id, v, hmark, hv4, hv6⟩ := DhtState.onReceivedMessage_tables hquery hrun
    obtain ⟨l, hl, hl4, hl6⟩ := DhtState.markLastQuery_liveness s.state s.liveness rfl rfl addr id r.queryNow hmark
    obtain ⟨l', hl', inv, _⟩ := h.liveness.onQuery_cases ⟨id, addr⟩ r.queryNow
    cases Except.ok.inj (hl.symm.trans hl')
    have hmoved : s.liveness.Moved none (Dht.liveness { s with state }) := by
      have htable : ∀ w, (Dht.liveness { s with state }).table w = l.table w := by
        intro w
        cases w
        · exact (hl6.trans hv6.symm).symm
        · exact (hl4.trans hv4.symm).symm
      have hmarked : s.liveness.Moved none l := Liveness.moved_onQuery hl
      refine ⟨?_, rfl⟩
      intro w
      rw [htable w]
      exact hmarked.tables w
    have hready := h.withState hafter.sound inv (hl4.trans hv4.symm) (hl6.trans hv6.symm)
    refine ⟨_, ?_, .answer hquery hrun hanswer hafter hmoved, hready.sound, hready.liveness⟩
    simp only [perform, onReceivedMessage, hreply, lift_ok hrun, ok_bind, pure_eq_ok]

theorem writer_goes (h : s.Ready) (failed : Bool) : s.Goes C (.writer failed) := by
  cases hqueue : s.queue with
  | nil => exact .inl (by simp only [perform, writer, hqueue])
  | cons out queue =>
    right
    have hready : Ready { s with queue } := ⟨h.sound, h.liveness⟩
    obtain ⟨payload, hwrite, _⟩ := C.lawful _
      (canonical_message out.message.transactionId out.message.version out.message.ip out.message.kind)
    have hserialized : serializeMessage C out.message.transactionId out.message.version out.message.ip
        out.message.kind = some payload := hwrite
    cases failed with
    | false => exact ⟨_, by simp [perform, writer, hqueue, hserialized], .sent hqueue, hready⟩
    | true =>
      cases htid : out.ourTid with
      | none => exact ⟨_, by simp [perform, writer, hqueue, hserialized, htid], .unsent hqueue htid, hready⟩
      | some tid =>
        exact ⟨_, by simp [perform, writer, hqueue, hserialized, htid], .failed hqueue htid, hready.finish _ _⟩

theorem insert_goes (h : s.Ready) (num : ℕ) : s.Goes C (.insert num) := by
  cases hfind : s.pending.find? (fun p => p.num = num) with
  | none => exact .inl (by simp only [perform, insert, hfind])
  | some p =>
    have hp := List.find?_some hfind
    obtain rfl : p.num = num := by simpa using hp
    have hmem := List.mem_of_find?_eq_some hfind
    cases hsending : p.sending with
    | announce i => exact .inl (by simp only [perform, insert, hfind, hsending])
    | request caller inserted =>
      cases inserted with
      | true => exact .inl (by simp only [perform, insert, hfind, hsending])
      | false =>
        exact .inr ⟨_, by simp only [perform, insert, hfind, hsending], .inserted hmem hsending, h.sound, h.liveness⟩

theorem send_goes (h : s.Ready) (num : ℕ) : s.Goes C (.send num) := by
  cases hfind : s.pending.find? (fun p => p.num = num ∧ p.sending.prepared) with
  | none => exact .inl (by simp only [perform, send, hfind])
  | some p =>
    right
    have hp := List.find?_some hfind
    obtain ⟨rfl, _⟩ : p.num = num ∧ p.sending.prepared = true := by simpa using hp
    have hmem := List.mem_of_find?_eq_some hfind
    have hready : Ready { s with pending := s.pending.erase p } := ⟨h.sound, h.liveness⟩
    cases hopen : s.workerOpen with
    | true => exact ⟨_, by simp only [perform, send, hfind, hopen, if_true], .handed hmem hopen, h.sound, h.liveness⟩
    | false =>
      refine ⟨_, ?_, .refused hmem hopen, hready.refuse p⟩
      simp only [perform, send, hfind, hopen, Bool.false_eq_true, if_false]

theorem waiting_goes (s : Dht) (num : ℕ) : s.waiting num = .error .blocked ∨
    ∃ c ∈ s.calls, c.num = num ∧ c.outcome = none ∧ s.waiting num = .ok c := by
  unfold waiting
  cases hfind : s.calls.find? (fun c => c.num = num ∧ c.outcome = none) with
  | none => exact .inl rfl
  | some c =>
    have hp := List.find?_some hfind
    obtain ⟨hnum, hwaits⟩ : c.num = num ∧ c.outcome = none := by simpa using hp
    dsimp only
    split_ifs
    · exact .inl rfl
    · exact .inr ⟨c, List.mem_of_find?_eq_some hfind, hnum, hwaits, rfl⟩

theorem timeout_goes (h : s.Ready) (num : ℕ) : s.Goes C (.timeout num) := by
  rcases s.waiting_goes num with hblocked | ⟨c, hc, rfl, hwaits, hwaiting⟩
  · exact .inl (by rw [perform, timeout, hblocked]; rfl)
  · exact .inr ⟨_, by rw [perform, timeout, hwaiting]; rfl, .timedOut hc hwaits, h.sound, h.liveness⟩

theorem senderDropped_goes (h : s.Ready) (num : ℕ) : s.Goes C (.senderDropped num) := by
  rcases s.waiting_goes num with hblocked | ⟨c, hc, rfl, hwaits, hwaiting⟩
  · exact .inl (by rw [perform, senderDropped, hblocked]; rfl)
  by_cases hheld : s.inflight.get? c.key = some c.num
  · exact .inl (by rw [perform, senderDropped, hwaiting, ok_bind, if_pos hheld])
  · refine .inr ⟨_, ?_, .senderDropped hc hwaits hheld, h.sound, h.liveness⟩
    rw [perform, senderDropped, hwaiting, ok_bind, if_neg hheld, pure_eq_ok]

theorem pingReturns_goes (h : s.Ready) (num : ℕ) : s.Goes C (.pingReturns num) := by
  by_cases hover : (∃ c ∈ s.calls, c.num = num ∧ c.caller = .ping) ∧ ∀ p ∈ s.pending, p.num ≠ num
  · exact .inr ⟨_, if_pos hover, .pingReturns, h.sound, h.liveness⟩
  · exact .inl (if_neg hover)

theorem close_ready (h : s.Ready) : s.close.Ready :=
  ⟨h.sound, h.liveness.tree, h.liveness.family, nofun, nofun⟩

theorem refresherTick_goes (h : s.Ready) (isV4 : Bool) (now : Instant) (randoms : ℕ → Id20) :
    s.Goes C (.refresherTick isV4 now randoms) := by
  right
  obtain ⟨leaves, items, hitems, hall, _⟩ := BucketTree.Inv.visitsLeaves (h.liveness.tree isV4)
  have hwithin : ∀ l : List (BucketTreeIteratorItem × ℕ), (∀ b ∈ l, b.1 ∈ items) →
      ∃ targets, l.mapM (fun b => b.1.randomWithin (randoms b.2)) = .ok targets := by
    intro l hl
    induction l with
    | nil => exact ⟨[], rfl⟩
    | cons b l ih =>
      obtain ⟨targets, htargets⟩ := ih (fun c hc => hl c (List.mem_cons_of_mem b hc))
      obtain ⟨idx, _, hat⟩ := BucketTree.forall₂_mem_right hall (hl b List.mem_cons_self)
      obtain ⟨id, hid, _⟩ := (BucketTree.Inv.refreshTargets (h.liveness.tree isV4) hat).within (randoms b.2)
      exact ⟨id :: targets, by rw [List.mapM_cons, hid, htargets]; rfl⟩
  obtain ⟨targets, htargets⟩ := hwithin
    (items.filter (fun b => inactivityTimeout ≤ now - b.leaf.lastRefreshed)).zipIdx (fun b hb => by
      obtain ⟨_, _, heq⟩ := List.mem_zipIdx hb
      rw [heq]
      exact List.mem_of_mem_filter (List.getElem_mem _))
  refine ⟨_, ?_, .refresherTick (targets.map (fun id => (isV4, id))), h.sound, h.liveness⟩
  have hbuckets : (s.liveness.table isV4).iterBuckets = .ok items := hitems
  simp only [perform, refresherTick, lift_ok hbuckets, lift_ok htargets, ok_bind, pure_eq_ok]

theorem refresh_goes (h : s.Ready) (isV4 : Bool) (now : Instant) : s.Goes C (.refresh isV4 now) := by
  cases hfind : s.queuedTargets.find? (fun t => t.1 = isV4) with
  | none => exact .inl (by simp only [perform, refresh, hfind])
  | some t =>
    right
    obtain ⟨nodes, hnodes, hperm⟩ :=
      (h.liveness.tree isV4 : (s.liveness.table isV4).Inv).sortedByDistanceFrom_spec t.2 now
    have hbest : ∀ addr ∈ (nodes.map RoutingTableNode.addr).take 8,
        ∃ n ∈ (s.liveness.table isV4).stored, n.addr = addr := by
      intro addr haddr
      obtain ⟨n, hn, heq⟩ := List.mem_map.1 (List.mem_of_mem_take haddr)
      exact ⟨n, hperm.mem_iff.1 hn, heq⟩
    refine ⟨_, ?_, .refresh t ((nodes.map RoutingTableNode.addr).take 8) hbest, h.sound, h.liveness⟩
    simp only [perform, refresh, hfind, lift_ok hnodes, ok_bind, pure_eq_ok]

theorem pingStart_goes (h : s.Ready) (isV4 : Bool) (contact : Contact) (now : Instant) :
    s.Goes C (.pingStart isV4 contact now) := by
  by_cases hqueued : (isV4, contact) ∈ s.queuedPings
  · right
    obtain ⟨l, hl, inv, _⟩ := h.liveness.onPingStart_cases isV4 contact.id now
    obtain ⟨hrun, hready⟩ := h.mark_goes (f := fun l => l.onPingStart isV4 contact.id now) hl inv
    refine ⟨_, ?_, .pingStart hqueued (Liveness.moved_onPingStart hl), ?_⟩
    · simp only [perform, pingStart, if_pos hqueued, hrun, ok_bind, pure_eq_ok]
      rfl
    · refine hready.withPings (fun p hp => hready.liveness.queuedPings p (List.mem_of_mem_erase hp)) ?_
      intro p hp
      rcases List.mem_append.1 hp with hp | hp
      · exact h.pings p hp
      · rw [List.mem_singleton.1 hp]
        exact h.liveness.queuedPings _ hqueued
  · exact .inl (by simp only [perform, pingStart, if_neg hqueued])

theorem pingQuery_goes (h : s.Ready) (num : ℕ) : s.Goes C (.pingQuery num) := by
  rcases s.pingOf_goes num with hping | ⟨p, hp, rfl, hping⟩
  · exact .inl (by rw [perform, pingQuery, hping]; rfl)
  · by_cases hidle : ∀ c ∈ s.calls, c.caller ≠ .pinger p.num
    · refine .inr ⟨_, ?_, .pingQuery hp hidle, h.sound, h.liveness⟩
      rw [perform, pingQuery, hping, ok_bind, if_pos hidle, pure_eq_ok]
    · exact .inl (by rw [perform, pingQuery, hping, ok_bind, if_neg hidle])

theorem pingEnd_goes (h : s.Ready) (num : ℕ) (now : Instant) : s.Goes C (.pingEnd num now) := by
  rcases s.pingOf_goes num with hping | ⟨p, hp, rfl, hping⟩
  · exact .inl (by rw [perform, pingEnd, hping]; rfl)
  rcases s.returned_goes (.pinger p.num) with hreturned | ⟨c, hc, hcaller, outcome, houtcome, hreturned⟩
  · exact .inl (by rw [perform, pingEnd, hping, ok_bind, hreturned]; rfl)
  · right
    have hended : (s.endCall c.num).Ready := ⟨h.sound, h.liveness⟩
    obtain ⟨l, hl, inv, _⟩ := h.liveness.markResult_cases p.contact outcome.isOk now
    rw [h.pings p hp] at hl
    obtain ⟨hrun, hready⟩ := hended.mark_goes (f := fun l => l.markResult p.isV4 p.contact.id outcome.isOk now) hl inv
    refine ⟨_, ?_, .pingEnd hc hcaller (Liveness.moved_markResult hl), ?_⟩
    · simp only [perform, pingEnd, hping, ok_bind, hreturned, hrun, pure_eq_ok]
      rfl
    · exact hready.withPings hready.liveness.queuedPings (fun q hq => h.pings q (List.mem_of_mem_filter hq))

theorem turn_goes (h : s.Ready) {a : Action} {i : ℕ} {b : Loop.Action} (hstep : s.perform C a = s.turn i b)
    (turns : ∀ t, s.tasks[i]? = some t → Turns s t a i b)
    (rounds : ∀ table now asleep, b = .turn (.round table now asleep) → table.Inv) : s.Goes C a := by
  unfold Goes
  rw [hstep, turn]
  rcases s.task_goes i with htask | ⟨t, ht, htask⟩
  · exact .inl (by rw [htask]; rfl)
  rcases t.loop.step_goes b rounds with hblocked | ⟨loop, hloop⟩
  · exact .inl (by rw [htask, ok_bind, hblocked]; rfl)
  · refine .inr ⟨_, ?_, .turned ht (turns t ht) hloop, h.sound, h.liveness⟩
    rw [htask, ok_bind, hloop, ok_bind, pure_eq_ok]

theorem round_goes (h : s.Ready) (i : ℕ) (now asleep : Instant) : s.Goes C (.round i now asleep) := by
  rcases s.task_goes i with htask | ⟨t, ht, htask⟩
  · exact .inl (by rw [perform, round, htask]; rfl)
  cases hloop : t.loop with
  | findNode lookup => exact .inl (by simp only [perform, round, htask, ok_bind, hloop])
  | getPeers callbacks lookup =>
    refine turn_goes h (i := i) (b := .turn (.round (s.liveness.table lookup.isV4) now asleep)) ?_ ?_ ?_
    · simp only [perform, round, htask, ok_bind, hloop]
    · intro t' ht'
      cases Option.some.inj (ht.symm.trans ht')
      exact .round hloop
    · intro table now' asleep' hb
      cases hb
      exact h.liveness.tree _

theorem onRequestStart_goes (h : s.Ready) (loop : Loop) (visit : Visit) (clock : ℕ → Instant) (now : Instant) :
    ∃ l, s.onRequestStart loop visit clock now = .ok (s.withLiveness l) ∧ s.liveness.Moved (loop.inserts visit) l ∧
      (s.withLiveness l).Ready := by
  have hnothing : s.liveness.Moved (loop.inserts visit) s.liveness := Liveness.moved_refl _ s.liveness
  cases loop with
  | getPeers callbacks lookup => exact ⟨s.liveness, rfl, hnothing, h⟩
  | findNode lookup =>
    cases hid : visit.id with
    | none => exact ⟨s.liveness, by simp only [onRequestStart, hid]; rfl, hnothing, h⟩
    | some id =>
      obtain ⟨l, hl, inv, _⟩ := h.liveness.onRequestStart_cases ⟨id, visit.addr⟩ clock now
      obtain ⟨hmark, hready⟩ := h.mark_goes (f := fun l => l.onRequestStart id visit.addr clock now) hl inv
      refine ⟨l, by simp only [onRequestStart, hid, hmark], ?_, hready⟩
      rw [Loop.inserts, hid]
      exact Liveness.moved_onRequestStart hl

theorem visitStart_goes (h : s.Ready) (i num : ℕ) (clock : ℕ → Instant) (now : Instant) :
    s.Goes C (.visitStart i num clock now) := by
  rcases s.task_goes i with htask | ⟨t, ht, htask⟩
  · exact .inl (by rw [perform, visitStart, htask]; rfl)
  rcases t.polled_goes num with hpolled | ⟨f, hf, hnum, _, hpolled⟩
  · exact .inl (by rw [perform, visitStart, htask, ok_bind, hpolled]; rfl)
  by_cases hstarted : num ∈ t.started
  · exact .inl (by rw [perform, visitStart, htask, ok_bind, hpolled, ok_bind, if_pos hstarted])
  right
  have hset : (s.setTask i { t with started := t.started ++ [num] }).Ready := ⟨h.sound, h.liveness⟩
  obtain ⟨l, hstart, hmoved, hready⟩ := onRequestStart_goes hset t.loop f.visit clock now
  refine ⟨_, ?_, .started ht hf hnum hstarted hmoved, hready⟩
  rw [perform, visitStart, htask, ok_bind, hpolled, ok_bind, if_neg hstarted, hstart]

theorem query_goes (h : s.Ready) (i num : ℕ) : s.Goes C (.query i num) := by
  rcases s.task_goes i with htask | ⟨t, ht, htask⟩
  · exact .inl (by rw [perform, query, htask]; rfl)
  rcases t.polled_goes num with hpolled | ⟨f, hf, hnum, _, hpolled⟩
  · exact .inl (by rw [perform, query, htask, ok_bind, hpolled]; rfl)
  by_cases hidle : num ∈ t.started ∧ ∀ c ∈ s.calls, c.caller ≠ .visit i num
  · refine .inr ⟨_, ?_, .queried ht hf hnum hidle.1 hidle.2, h.sound, h.liveness⟩
    rw [perform, query, htask, ok_bind, hpolled, ok_bind, if_pos hidle, pure_eq_ok]
  · exact .inl (by rw [perform, query, htask, ok_bind, hpolled, ok_bind, if_neg hidle])

theorem onRequestEnd_goes (h : s.Ready) (i : ℕ) (loop : Loop) (visit : Visit) (outcome : RequestResult)
    (now : Instant) :
    ∃ s', s.onRequestEnd i loop visit outcome now = .ok s' ∧ Ended i loop visit outcome s s' ∧ s'.Ready := by
  have hnothing : Ended i loop visit outcome s s := .marked (Liveness.moved_refl none s.liveness)
  cases hid : visit.id with
  | none => exact ⟨s, by cases loop <;> simp only [onRequestEnd, hid, pure_eq_ok], hnothing, h⟩
  | some id =>
    cases loop with
    | findNode lookup =>
      obtain ⟨l, hl, inv, _⟩ := h.liveness.markResult_cases ⟨id, visit.addr⟩ outcome.isOk now
      obtain ⟨hmark, hready⟩ := h.mark_goes (f := fun l => l.onRequestEnd id visit.addr outcome.isOk now) hl inv
      exact ⟨_, by simp only [onRequestEnd, hid, hmark], .marked (Liveness.moved_markResult hl), hready⟩
    | getPeers callbacks lookup =>
      cases hmessage : callbacks.onRequestEnd s.state.id s.nextTransactionId lookup.loop.req.infoHash id visit.addr
          outcome with
      | none => exact ⟨s, by simp only [onRequestEnd, hid, hmessage, pure_eq_ok], hnothing, h⟩
      | some message =>
        refine ⟨_, ?_, .announced rfl hid hmessage, h.sound, h.liveness⟩
        simp only [onRequestEnd, hid, hmessage, pure_eq_ok]

theorem resume_goes (h : s.Ready) (i num : ℕ) (now marked : Instant) : s.Goes C (.resume i num now marked) := by
  rcases s.task_goes i with htask | ⟨t, ht, htask⟩
  · exact .inl (by rw [perform, resume, htask]; rfl)
  rcases t.polled_goes num with hpolled | ⟨f, hf, hnum, _, hpolled⟩
  · exact .inl (by rw [perform, resume, htask, ok_bind, hpolled]; rfl)
  rcases s.returned_goes (.visit i num) with hreturned | ⟨c, hc, hcaller, outcome, houtcome, hreturned⟩
  · exact .inl (by rw [perform, resume, htask, ok_bind, hpolled, ok_bind, hreturned]; rfl)
  have hready : (s.endCall c.num).Ready := ⟨h.sound, h.liveness⟩
  cases hreplied : f.replied with
  | false =>
    have hrun : s.perform C (.resume i num now marked) =
        (t.loop.step (.turn (.firstReply num outcome.result now)) >>= fun loop =>
          ((s.endCall c.num).setTask i { t with loop }).onRequestEnd i loop f.visit outcome.result marked) := by
      rw [perform, resume, htask, ok_bind, hpolled, ok_bind, hreturned, ok_bind]
      dsimp only
      rw [hreplied]
      rfl
    rcases t.loop.step_goes (.turn (.firstReply num outcome.result now)) nofun with hblocked | ⟨loop, hloop⟩
    · exact .inl (by rw [hrun, hblocked]; rfl)
    · have hset : ((s.endCall c.num).setTask i { t with loop }).Ready := ⟨h.sound, h.liveness⟩
      obtain ⟨s', hend, hended, hready'⟩ := onRequestEnd_goes hset i loop f.visit outcome.result marked
      exact .inr ⟨s', by rw [hrun, hloop, ok_bind, hend],
        .firstReply ht hf hnum hc hcaller houtcome hreplied hloop hended, hready'⟩
  | true =>
    have hrun : s.perform C (.resume i num now marked) =
        (t.loop.step (.turn (.secondReply num outcome.result now)) >>= fun loop =>
          .ok ((s.endCall c.num).setTask i { t with loop })) := by
      rw [perform, resume, htask, ok_bind, hpolled, ok_bind, hreturned, ok_bind]
      dsimp only
      rw [hreplied]
      rfl
    rcases t.loop.step_goes (.turn (.secondReply num outcome.result now)) nofun with hblocked | ⟨loop, hloop⟩
    · exact .inl (by rw [hrun, hblocked]; rfl)
    · exact .inr ⟨_, by rw [hrun, hloop, ok_bind], .secondReply ht hf hnum hc hcaller houtcome hreplied hloop,
        hready.sound, hready.liveness⟩

theorem aborted_goes (h : s.Ready) (i : ℕ) : s.Goes C (.aborted i) := by
  rcases s.task_goes i with htask | ⟨t, ht, htask⟩
  · exact .inl (by rw [perform, aborted, turn, htask]; rfl)
  rcases t.loop.step_goes (.turn .aborted) nofun with hblocked | ⟨loop, hloop⟩
  · exact .inl (by rw [perform, aborted, turn, htask, ok_bind, hblocked]; rfl)
  · refine .inr ⟨_, ?_, .aborted ?_ ht hloop, h.sound, h.liveness⟩
    rw [perform, aborted, turn, htask, ok_bind, hloop, ok_bind, pure_eq_ok, ok_bind]
    rfl

theorem performs (h : s.Ready) (C : Codec) (a : Action) : s.Goes C a := by
  cases a with
  | receive r msg addr => exact .inr (h.receives C r msg addr)
  | writer failed => exact writer_goes h failed
  | close => exact .inr ⟨_, rfl, .closed, close_ready h⟩
  | insert num => exact insert_goes h num
  | send num => exact send_goes h num
  | timeout num => exact timeout_goes h num
  | senderDropped num => exact senderDropped_goes h num
  | ping addr => exact .inr ⟨_, rfl, .ping, h.sound, h.liveness⟩
  | pingReturns num => exact pingReturns_goes h num
  | getPeers infoHash announcePort => exact .inr ⟨_, rfl, .getPeers, h.sound, h.liveness⟩
  | bootstrapHostname addrs => exact .inr ⟨_, rfl, .bootstrapHostname, h.sound, h.liveness⟩
  | refresherTick isV4 now randoms => exact refresherTick_goes h isV4 now randoms
  | refresh isV4 now => exact refresh_goes h isV4 now
  | pingerTick isV4 now =>
    obtain ⟨l, hl, inv, _⟩ := h.liveness.pingerTick_cases isV4 now
    obtain ⟨hmark, hready⟩ := h.mark_goes (f := fun l => l.pingerTick isV4 now) hl inv
    obtain ⟨queuedPings, rfl, hqueued⟩ := Liveness.pingerTick_queued h.liveness.tree hl
    exact .inr ⟨_, hmark, .pingerTick hqueued, hready⟩
  | pingStart isV4 contact now => exact pingStart_goes h isV4 contact now
  | pingQuery num => exact pingQuery_goes h num
  | pingEnd num now => exact pingEnd_goes h num now
  | round i now asleep => exact round_goes h i now asleep
  | recv i => exact turn_goes h rfl (fun _ _ => .recv) nofun
  | visitStart i num clock now => exact visitStart_goes h i num clock now
  | query i num => exact query_goes h i num
  | resume i num now marked => exact resume_goes h i num now marked
  | finished i => exact turn_goes h rfl (fun _ _ => .finished) nofun
  | dropped i => exact turn_goes h rfl (fun _ _ => .dropped) nofun
  | aborted i => exact aborted_goes h i
  | garbageCollectPeers now =>
    have hsound := h.sound.withStore (.garbageCollectPeers now)
    exact .inr ⟨_, rfl, .garbageCollectPeers, hsound, h.liveness⟩
  | rehash es =>
    have hsound := h.sound.withStore (.rehash es)
    exact .inr ⟨_, rfl, .rehash, hsound, h.liveness⟩

theorem step_eq {a : Action} (h : s.Waits (s.thread a)) : step C s a = s.perform C a := if_pos h

theorem step_blocked {a : Action} (h : ¬ s.Waits (s.thread a)) : step C s a = .error .blocked := if_neg h

theorem step_goes (h : s.Ready) (C : Codec) (a : Action) : step C s a = .error .blocked ∨ ∃ s', Step C s a s' := by
  by_cases hwaits : s.Waits (s.thread a)
  · rcases performs h C a with hblocked | ⟨s', hrun, _⟩
    · exact .inl ((step_eq hwaits).trans hblocked)
    · exact .inr ⟨s', (step_eq hwaits).trans hrun⟩
  · exact .inl (step_blocked hwaits)

theorem step_does {s' : Dht} {a : Action} (h : s.Ready) (hstep : Step C s a s') : Does s a s' ∧ s'.Ready := by
  by_cases hwaits : s.Waits (s.thread a)
  · rcases performs h C a with hblocked | ⟨v, hrun, hdoes, hready⟩
    · cases ((step_eq hwaits).trans hblocked).symm.trans hstep
    · cases Except.ok.inj (((step_eq hwaits).trans hrun).symm.trans hstep)
      exact ⟨hdoes, hready⟩
  · cases (step_blocked hwaits).symm.trans hstep

end Goes

end Dht
end LibrtbitDht
