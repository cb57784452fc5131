import LibrtbitDht.DhtRuns

set_option autoImplicit false

namespace LibrtbitDht
open TransitionRuns Bencode

section Loops

def Loop.visits (loop : Loop) : List Visit := loop.lookup.visited ++ loop.lookup.queue

theorem push_visits (lookup : Lookup) {visit : Visit} {queue : List Visit} (hqueue : lookup.queue = visit :: queue) :
    ({ lookup with queue }.push visit).visited ++ ({ lookup with queue }.push visit).queue =
      lookup.visited ++ lookup.queue := by
  change (lookup.visited ++ [visit]) ++ queue = _
  rw [hqueue, List.append_assoc]
  rfl

theorem Loop.Action.secondReply_of_findNode {b : Loop.Action} {num : ℕ} {reply : RequestResult} {now : Instant}
    (h : b.findNode = some (.secondReply num reply now)) : b = .turn (.secondReply num reply now) := by
  cases b with
  | finished => cases h
  | turn a =>
    cases a with
    | secondReply num' reply' now' =>
      cases h
      rfl
    | round | recv | firstReply | dropped | aborted => cases h

theorem Loop.visits_step {loop loop' : Loop} {b : Loop.Action} (h : loop.step b = .ok loop')
    (rounds : ∀ table now asleep, b = .turn (.round table now asleep) → table.Inv) {visit : Visit}
    (hvisit : visit ∈ loop'.visits) :
    visit ∈ loop.visits ∨
    (∃ f ∈ loop.lookup.futs, ∃ resp now, b = .turn (.secondReply f.num (.ok (.response resp)) now) ∧
      ∃ node ∈ nodeIt resp f.visit.addr, visit.id = some node.id ∧ visit.addr = node.addr) ∨
    ∃ callbacks lookup table now asleep, loop = .getPeers callbacks lookup ∧ b = .turn (.round table now asleep) ∧
      ∃ n ∈ table.stored, visit.id = some n.id ∧ visit.addr = n.addr := by
  have hsecond : ∀ {lookup : Lookup} {f : Fut} (receiver : Bool) {reply : RequestResult} {now : Instant},
      f ∈ lookup.futs → loop.lookup = lookup → b = .turn (.secondReply f.num reply now) →
      visit ∈ (lookup.req.secondReply receiver f.visit.addr f.visit.depth reply now).2.1 →
      ∃ f ∈ loop.lookup.futs, ∃ resp now, b = .turn (.secondReply f.num (.ok (.response resp)) now) ∧
        ∃ node ∈ nodeIt resp f.visit.addr, visit.id = some node.id ∧ visit.addr = node.addr := by
    rintro lookup f receiver reply now hf rfl hb hsent
    obtain ⟨_, resp, rfl, node, hnode, rfl⟩ :=
      (loop.lookup.req.secondReply_visits receiver f.visit.addr f.visit.depth reply now).2.2 visit hsent
    exact ⟨f, hf, resp, now, hb, node, hnode, rfl, rfl⟩
  rcases Loop.step_cases h with ⟨lookup, lookup', c, hb, rfl, rfl, hstep⟩ |
    ⟨callbacks, lookup, lookup', a, rfl, rfl, rfl, hstep⟩
  · rcases (Lookup.step_cases hstep).2 with ⟨next, queue, _, hqueue, rfl⟩ | ⟨f, _, reply, now, _, _, _, rfl⟩ |
      ⟨f, hf, reply, now, rfl, _, _, _, rfl⟩ | ⟨_, _, _, rfl⟩
    · rw [Loop.visits, Loop.lookup, push_visits lookup hqueue] at hvisit
      exact .inl hvisit
    · exact .inl hvisit
    · change visit ∈ lookup.visited ++ (lookup.queue ++ _) at hvisit
      rw [← List.append_assoc] at hvisit
      rcases List.mem_append.1 hvisit with hold | hsent
      · exact .inl hold
      · exact .inr (.inl (hsecond false hf rfl (Loop.Action.secondReply_of_findNode hb) hsent))
    · exact .inl hvisit
  · rcases PeersLookup.step_cases hstep with ⟨table, now, asleep, roots, rfl, _, hroots, rfl⟩ |
      ⟨next, queue, rfl, hqueue, rfl⟩ | ⟨f, _, reply, now, rfl, _, rfl⟩ | ⟨f, hf, reply, now, rfl, _, rfl⟩ |
      ⟨rfl, _, rfl⟩ | ⟨rfl, _, _, rfl⟩
    · change visit ∈ lookup.loop.visited ++ (lookup.loop.queue ++ roots) at hvisit
      rw [← List.append_assoc] at hvisit
      rcases List.mem_append.1 hvisit with hold | hroot
      · exact .inl hold
      · obtain ⟨best, hbest, hleast⟩ := lookup.loop.req.getPeersRoot_spec (rounds table now asleep rfl) now
        cases Except.ok.inj (hroots.symm.trans hbest)
        obtain ⟨n, hn, rfl⟩ := List.mem_map.1 hroot
        obtain ⟨rest, hperm, _⟩ := hleast.before
        have hstored : n ∈ table.stored := hperm.mem_iff.1 (List.mem_append_left rest hn)
        exact .inr (.inr ⟨callbacks, lookup, table, now, asleep, rfl, rfl, n, hstored, rfl, rfl⟩)
    · rw [Loop.visits, Loop.lookup, push_visits lookup.loop hqueue] at hvisit
      exact .inl hvisit
    · exact .inl hvisit
    · change visit ∈ lookup.loop.visited ++ (lookup.loop.queue ++ _) at hvisit
      rw [← List.append_assoc] at hvisit
      rcases List.mem_append.1 hvisit with hold | hsent
      · exact .inl hold
      · exact .inr (.inl (hsecond lookup.receiver hf rfl rfl hsent))
    · exact .inl hvisit
    · exact .inl hvisit

theorem mem_visits_findNode {target : Id20} {addrs : List SocketAddr} {visit : Visit}
    (h : visit ∈ (Task.findNode target addrs).loop.visits) : ∃ addr ∈ addrs, visit = ⟨none, addr, 0⟩ := by
  obtain ⟨futs, queries, heq⟩ := Lookup.foldl_push (.empty target) (Lookup.initial addrs)
  have hvisits : (Task.findNode target addrs).loop.visits = Lookup.initial addrs := by
    change (Lookup.start target addrs).visited ++ (Lookup.start target addrs).queue = _
    rw [Lookup.start, heq]
    simp [Lookup.empty]
  rw [hvisits] at h
  obtain ⟨addr, haddr, rfl⟩ := List.mem_map.1 h
  exact ⟨addr, haddr, rfl⟩

end Loops

namespace Dht
variable {C : Codec} {s₀ s s' : Dht} {js js' : List Action} {a : Action}

section Effects

def Offers (s : Dht) (c : Contact) : Prop :=
  ∃ (i : ℕ) (t : Task) (f : Fut), s.tasks[i]? = some t ∧ f ∈ t.loop.lookup.futs ∧ t.loop.inserts f.visit = some c

theorem Does.tables (hready : s.Ready) (hdoes : Does s a s') {v : Bool} {n : RoutingTableNode}
    (hn : n ∈ (s'.liveness.table v).stored) :
    (∃ x ∈ (s.liveness.table v).stored, x.id = n.id ∧ x.addr = n.addr) ∨ s.Offers ⟨n.id, n.addr⟩ := by
  have hkept : n ∈ (s.liveness.table v).stored →
      (∃ x ∈ (s.liveness.table v).stored, x.id = n.id ∧ x.addr = n.addr) ∨ s.Offers ⟨n.id, n.addr⟩ :=
    fun h => .inl ⟨n, h, rfl, rfl⟩
  have hmarked : ∀ {l : Liveness}, s.liveness.Moved none l → n ∈ (l.table v).stored →
      (∃ x ∈ (s.liveness.table v).stored, x.id = n.id ∧ x.addr = n.addr) ∨ s.Offers ⟨n.id, n.addr⟩ := by
    intro l moved h
    rcases moved.stored hready.liveness.tree h with hold | hnone
    · exact .inl hold
    · cases hnone
  cases hdoes with
  | @reply r msg addr reply kind =>
    obtain ⟨inflight, calls, heq⟩ := s.onReply_frame msg.transactionId addr reply
    rw [heq] at hn
    exact hkept hn
  | @failed out queue tid queued ours =>
    obtain ⟨inflight, calls, heq⟩ := finish_frame { s with queue } (tid, out.addr) (.error .sendError)
    rw [heq] at hn
    exact hkept hn
  | @refused p mem closed =>
    obtain ⟨inflight, calls, heq⟩ := refuse_frame { s with pending := s.pending.erase p } p
    rw [heq] at hn
    exact hkept hn
  | answer query handled answer after moved => exact hmarked moved hn
  | pingStart mem moved => exact hmarked moved hn
  | pingEnd mem caller moved => exact hmarked moved hn
  | started task fut num_eq new moved =>
    rcases moved.stored hready.liveness.tree hn with hold | hinserted
    · exact .inl hold
    · exact .inr ⟨_, _, _, task, fut, hinserted⟩
  | firstReply task fut num_eq mem caller there first stepped ended =>
    cases ended with
    | marked moved => exact hmarked moved hn
    | announced loop_eq id_eq message_eq => exact hkept hn
  | sent | unsent | closed | inserted | handed | timedOut | senderDropped | ping | pingReturns | getPeers
  | bootstrapHostname | refresherTick | refresh | pingerTick | pingQuery | turned | queried | secondReply
  | aborted | garbageCollectPeers | rehash => exact hkept hn

theorem Does.pinger (hdoes : Does s a s') :
    (∀ p ∈ s'.queuedPings, p ∈ s.queuedPings ∨ ∃ v, ∃ n ∈ (s.liveness.table v).stored, p.2 = ⟨n.id, n.addr⟩) ∧
    ∀ p ∈ s'.pings, p ∈ s.pings ∨ ∃ q ∈ s.queuedPings, p.contact = q.2 := by
  have hsub : (∀ p ∈ s'.queuedPings, p ∈ s.queuedPings) → (∀ p ∈ s'.pings, p ∈ s.pings) →
      (∀ p ∈ s'.queuedPings, p ∈ s.queuedPings ∨ ∃ v, ∃ n ∈ (s.liveness.table v).stored, p.2 = ⟨n.id, n.addr⟩) ∧
      ∀ p ∈ s'.pings, p ∈ s.pings ∨ ∃ q ∈ s.queuedPings, p.contact = q.2 :=
    fun hqueued hpings => ⟨fun p hp => .inl (hqueued p hp), fun p hp => .inl (hpings p hp)⟩
  cases hdoes with
  | @reply r msg addr reply kind =>
    obtain ⟨inflight, calls, heq⟩ := s.onReply_frame msg.transactionId addr reply
    rw [heq] at hsub ⊢
    exact hsub (fun _ hp => hp) (fun _ hp => hp)
  | @failed out queue tid queued ours =>
    obtain ⟨inflight, calls, heq⟩ := finish_frame { s with queue } (tid, out.addr) (.error .sendError)
    rw [heq] at hsub ⊢
    exact hsub (fun _ hp => hp) (fun _ hp => hp)
  | @refused p mem closed =>
    obtain ⟨inflight, calls, heq⟩ := refuse_frame { s with pending := s.pending.erase p } p
    rw [heq] at hsub ⊢
    exact hsub (fun _ hp => hp) (fun _ hp => hp)
  | @pingerTick isV4 now queuedPings queued =>
    refine ⟨fun p hp => ?_, fun p hp => .inl hp⟩
    rcases queued p hp with hold | ⟨n, hn, heq⟩
    · exact .inl hold
    · exact .inr ⟨isV4, n, hn, heq⟩
  | @pingStart isV4 contact now l mem moved =>
    refine ⟨fun p hp => .inl ?_, fun p hp => ?_⟩
    · have hold := List.mem_of_mem_erase hp
      rwa [moved.queuedPings] at hold
    · rcases List.mem_append.1 hp with hp | hp
      · exact .inl hp
      · rw [List.mem_singleton.1 hp]
        exact .inr ⟨_, mem, rfl⟩
  | pingEnd mem caller moved =>
    exact hsub (fun p hp => (congrArg (p ∈ ·) moved.queuedPings).mp hp) (fun _ hp => List.mem_of_mem_filter hp)
  | started task fut num_eq new moved =>
    exact hsub (fun p hp => (congrArg (p ∈ ·) moved.queuedPings).mp hp) (fun _ hp => hp)
  | firstReply task fut num_eq mem caller there first stepped ended =>
    cases ended with
    | marked moved => exact hsub (fun p hp => (congrArg (p ∈ ·) moved.queuedPings).mp hp) (fun _ hp => hp)
    | announced loop_eq id_eq message_eq => exact hsub (fun _ hp => hp) (fun _ hp => hp)
  | closed => exact hsub nofun nofun
  | answer | sent | unsent | inserted | handed | timedOut | senderDropped | ping | pingReturns | getPeers
  | bootstrapHostname | refresherTick | refresh | pingQuery | turned | queried | secondReply | aborted
  | garbageCollectPeers | rehash => exact hsub (fun _ hp => hp) (fun _ hp => hp)

inductive Announces (s : Dht) : Message → SocketAddr → Prop where
  | onRequestEnd {i : ℕ} {t : Task} {f : Fut} {c : Call} {outcome : RequestOutcome} {now : Instant} {id : Id20}
      {callbacks : RecursiveRequestCallbacksGetPeers} {lookup : PeersLookup} {message : Message}
      (task : s.tasks[i]? = some t) (fut : f ∈ t.loop.lookup.futs) (mem : c ∈ s.calls)
      (caller : c.caller = .visit i f.num) (there : c.outcome = some outcome)
      (stepped : t.loop.step (.turn (.firstReply f.num outcome.result now)) = .ok (.getPeers callbacks lookup))
      (message_eq : callbacks.onRequestEnd s.state.id s.nextTransactionId lookup.loop.req.infoHash id f.visit.addr
        outcome.result = some message) : Announces s message f.visit.addr

theorem Does.creates (hdoes : Does s a s') : s'.created = s.created ∨ ∃ message addr,
    s'.created = s.created ++ [(message, addr)] ∧ ((∃ caller request, Requests s a caller request addr ∧
      message = createRequest s.state.id s.nextTransactionId request addr) ∨ Announces s message addr) := by
  cases hdoes with
  | @reply r msg addr reply kind =>
    obtain ⟨inflight, calls, heq⟩ := s.onReply_frame msg.transactionId addr reply
    rw [heq]
    exact .inl rfl
  | @failed out queue tid queued ours =>
    obtain ⟨inflight, calls, heq⟩ := finish_frame { s with queue } (tid, out.addr) (.error .sendError)
    rw [heq]
    exact .inl rfl
  | @refused p mem closed =>
    obtain ⟨inflight, calls, heq⟩ := refuse_frame { s with pending := s.pending.erase p } p
    rw [heq]
    exact .inl rfl
  | ping => exact .inr ⟨_, _, rfl, .inl ⟨_, _, .ping, rfl⟩⟩
  | pingQuery mem idle => exact .inr ⟨_, _, rfl, .inl ⟨_, _, .pinger mem, rfl⟩⟩
  | queried task fut num_eq started idle =>
    subst num_eq
    exact .inr ⟨_, _, rfl, .inl ⟨_, _, .visit task fut, rfl⟩⟩
  | firstReply task fut num_eq mem caller there first stepped ended =>
    subst num_eq
    cases ended with
    | marked moved => exact .inl rfl
    | announced loop_eq id_eq message_eq =>
      subst loop_eq
      exact .inr ⟨_, _, rfl, .inr (.onRequestEnd task fut mem caller there stepped message_eq)⟩
  | answer | sent | unsent | closed | inserted | handed | timedOut | senderDropped | pingReturns | getPeers
  | bootstrapHostname | refresherTick | refresh | pingerTick | pingStart | pingEnd | turned | started
  | secondReply | aborted | garbageCollectPeers | rehash => exact .inl rfl

end Effects

section Provenance
variable (C : Codec) (s₀ : Dht) (js : List Action)

/-- The contact was listed in a reply to the request. -/
def Listed (request : Request) (c : Contact) : Prop :=
  ∃ addr resp, Replied C s₀ js request addr resp ∧ ∃ node ∈ nodeIt resp addr, node.id = c.id ∧ node.addr = c.addr

/-- The contact was in a table at the start, or it was listed in a reply to a find_node query. -/
def Tabled (c : Contact) : Prop :=
  (∃ v, ∃ n ∈ (s₀.liveness.table v).stored, n.id = c.id ∧ n.addr = c.addr) ∨
    ∃ target, Listed C s₀ js (.findNode target) c

/-- Where a lookup with this request knows the node of a visit from. -/
inductive Told : Request → Option Id20 → SocketAddr → Prop where
  | bootstrapped {addrs : List SocketAddr} {addr : SocketAddr} (asked : .bootstrapHostname addrs ∈ js)
      (mem : addr ∈ addrs) : Told (.findNode s₀.state.id) none addr
  | best {target : Id20} {c : Contact} (tabled : Tabled C s₀ js c) : Told (.findNode target) none c.addr
  | root {infoHash : Id20} {c : Contact} (tabled : Tabled C s₀ js c) : Told (.getPeers infoHash) (some c.id) c.addr
  | listed {request : Request} {c : Contact} (listed : Listed C s₀ js request c) : Told request (some c.id) c.addr

/-- Where an address that the node sends the request to is known from. -/
inductive Asked (addr : SocketAddr) : Request → Prop where
  | ping (asked : .ping addr ∈ js) : Asked addr .ping
  | pinger {id : Id20} (tabled : Tabled C s₀ js ⟨id, addr⟩) : Asked addr .ping
  | findNode {target : Id20} {id : Option Id20} (told : Told C s₀ js (.findNode target) id addr) :
      Asked addr (.findNode target)
  | getPeers {infoHash : Id20} {id : Option Id20} (told : Told C s₀ js (.getPeers infoHash) id addr) :
      Asked addr (.getPeers infoHash)
  | announce {infoHash : Id20} {token : ByteStrings.Bytes} {port : BitVec 16} {id : Option Id20}
      (told : Told C s₀ js (.getPeers infoHash) id addr) : Asked addr (.announce infoHash token port)

structure Informed (s : Dht) : Prop where
  tables : ∀ v, ∀ n ∈ (s.liveness.table v).stored, Tabled C s₀ js ⟨n.id, n.addr⟩
  queuedPings : ∀ p ∈ s.queuedPings, Tabled C s₀ js p.2
  pings : ∀ p ∈ s.pings, Tabled C s₀ js p.contact
  visits : ∀ t ∈ s.tasks, ∀ visit ∈ t.loop.visits, Told C s₀ js t.request visit.id visit.addr
  requests : ∀ num m, s.created[num]? = some m →
    ∃ request, m.1 = createRequest s₀.state.id (transaction num) request m.2 ∧ Asked C s₀ js m.2 request

variable {C : Codec} {s₀ : Dht} {js : List Action}

theorem Listed.mono {request : Request} {c : Contact} (h : Listed C s₀ js request c) (hbegins : js <+: js') :
    Listed C s₀ js' request c := by
  obtain ⟨addr, resp, hreplied, hnode⟩ := h
  exact ⟨addr, resp, hreplied.mono hbegins, hnode⟩

theorem Tabled.mono {c : Contact} (h : Tabled C s₀ js c) (hbegins : js <+: js') : Tabled C s₀ js' c := by
  rcases h with hstart | ⟨target, hlisted⟩
  · exact .inl hstart
  · exact .inr ⟨target, hlisted.mono hbegins⟩

theorem Told.mono {request : Request} {id : Option Id20} {addr : SocketAddr} (h : Told C s₀ js request id addr)
    (hbegins : js <+: js') : Told C s₀ js' request id addr := by
  cases h with
  | bootstrapped asked mem => exact .bootstrapped (hbegins.subset asked) mem
  | best tabled => exact .best (tabled.mono hbegins)
  | root tabled => exact .root (tabled.mono hbegins)
  | listed listed => exact .listed (listed.mono hbegins)

theorem Asked.mono {addr : SocketAddr} {request : Request} (h : Asked C s₀ js addr request) (hbegins : js <+: js') :
    Asked C s₀ js' addr request := by
  cases h with
  | ping asked => exact .ping (hbegins.subset asked)
  | pinger tabled => exact .pinger (tabled.mono hbegins)
  | findNode told => exact .findNode (told.mono hbegins)
  | getPeers told => exact .getPeers (told.mono hbegins)
  | announce told => exact .announce (told.mono hbegins)

theorem Told.of_tabled_or_listed {target : Id20} {c : Contact}
    (h : Told C s₀ js (.findNode target) (some c.id) c.addr) : Tabled C s₀ js c := by
  generalize hid : some c.id = id at h
  generalize haddr : c.addr = addr at h
  cases h with
  | bootstrapped asked mem => cases hid
  | best tabled => cases hid
  | @listed _ d listed =>
    have heq : c = d := by
      cases c
      cases d
      cases hid
      cases haddr
      rfl
    exact .inr ⟨target, heq ▸ listed⟩

section Steps

theorem Informed.visit (h : Informed C s₀ js s) (hl : Looking C s₀ js s) {i : ℕ} {t : Task} {f : Fut}
    (task : s.tasks[i]? = some t) (fut : f ∈ t.loop.lookup.futs) :
    Told C s₀ js t.request f.visit.id f.visit.addr :=
  h.visits t (List.mem_of_getElem? task) f.visit (List.mem_append_left _ (List.mem_of_getElem? (hl.visited task fut)))

/-- The contacts that a find_node lookup offers to a table were in one, or were listed. -/
theorem Informed.offered (h : Informed C s₀ js s) (hl : Looking C s₀ js s) {c : Contact} (hoffers : s.Offers c) :
    Tabled C s₀ js c := by
  obtain ⟨i, t, f, task, fut, hinserts⟩ := hoffers
  have htold := h.visit hl task fut
  have hmade := (hl.tasks t (List.mem_of_getElem? task)).1
  obtain ⟨request, loop, started⟩ := t
  cases hmade with
  | getPeers => cases hinserts
  | findNode =>
    obtain ⟨id, hid, rfl⟩ := Option.map_eq_some_iff.1 hinserts
    rw [hid] at htold
    exact Told.of_tabled_or_listed (c := ⟨id, f.visit.addr⟩) htold

theorem Informed.fed (h : Informed C s₀ js s) (hl : Looking C s₀ js s) (hm : Matched C s₀ js s) (hready : s.Ready)
    {i : ℕ} {t : Task} {b : Loop.Action} {loop : Loop} (task : s.tasks[i]? = some t) (feeds : Feeds s i t b)
    (hstep : t.loop.step b = .ok loop) :
    ∀ visit ∈ loop.visits, Told C s₀ js t.request visit.id visit.addr := by
  have ht := List.mem_of_getElem? task
  have hrounds : ∀ table now asleep, b = .turn (.round table now asleep) → table.Inv := by
    intro table now asleep hb
    cases feeds with
    | round loop_eq =>
      cases hb
      exact hready.liveness.tree _
    | firstReply | secondReply | recv | dropped | aborted | finished => cases hb
  intro visit hvisit
  rcases Loop.visits_step hstep hrounds hvisit with hold | ⟨f, hf, resp, now, hb, node, hnode, hid, haddr⟩ |
    ⟨callbacks, lookup, table, now, asleep, hloop, hb, n, hn, hid, haddr⟩
  · exact h.visits t ht visit hold
  · cases feeds with
    | @secondReply g c outcome now' fut mem caller there =>
      injection hb with hb
      injection hb with hnum hresult
      have heq : f = g := List.inj_on_of_nodup_map (hl.tasks t ht).1.counted.nums hf fut hnum.symm
      subst heq
      rw [RequestOutcome.result_eq_ok hresult] at there
      have hreplied := hl.replied hm task fut mem caller there
      rw [hid, haddr]
      exact .listed (c := ⟨node.id, node.addr⟩) ⟨f.visit.addr, resp, hreplied, node, hnode, rfl, rfl⟩
    | round | firstReply | recv | dropped | aborted | finished => cases hb
  · cases feeds with
    | round loop_eq =>
      cases hb
      have htabled := h.tables _ n hn
      obtain ⟨request, loop₀, started⟩ := t
      cases (hl.tasks _ ht).1 with
      | findNode => cases hloop
      | getPeers =>
        rw [hid, haddr]
        exact .root htabled
    | firstReply | secondReply | recv | dropped | aborted | finished => cases hb

/-- A task that is started knows its first nodes from the host that it bootstraps from, or from a table. -/
theorem Informed.starts (h : Informed C s₀ js s) (hid : s.state.id = s₀.state.id) {t : Task} (hstarts : Starts s a t) :
    ∀ visit ∈ t.loop.visits, Told C s₀ (js ++ [a]) t.request visit.id visit.addr := by
  intro visit hvisit
  cases hstarts with
  | getPeers isV4 => cases hvisit
  | bootstrapHostname p =>
    obtain ⟨addr, haddr, rfl⟩ := mem_visits_findNode hvisit
    change Told C s₀ _ (.findNode s.state.id) none addr
    rw [hid]
    exact .bootstrapped (List.mem_append_right js (List.mem_singleton_self _)) (List.mem_of_mem_filter haddr)
  | @refresh isV4 now target addrs best =>
    obtain ⟨addr, haddr, rfl⟩ := mem_visits_findNode hvisit
    obtain ⟨n, hn, rfl⟩ := best addr haddr
    exact .best ((h.tables isV4 n hn).mono (List.prefix_append js _))

theorem Informed.asked (h : Informed C s₀ js s) (hl : Looking C s₀ js s) {caller : Caller} {request : Request}
    {addr : SocketAddr} (hrequests : Requests s a caller request addr) : Asked C s₀ (js ++ [a]) addr request := by
  cases hrequests with
  | ping => exact .ping (List.mem_append_right js (List.mem_singleton_self _))
  | pinger mem => exact .pinger ((h.pings _ mem).mono (List.prefix_append js _))
  | @visit i t f task fut =>
    have htold := (h.visit hl task fut).mono (List.prefix_append js [.query i f.num])
    have hmade := (hl.tasks t (List.mem_of_getElem? task)).1
    obtain ⟨request, loop, started⟩ := t
    cases hmade with
    | findNode => exact .findNode htold
    | getPeers => exact .getPeers htold

theorem Informed.announced (h : Informed C s₀ js s) (hl : Looking C s₀ js s) (hm : Matched C s₀ js s)
    {message : Message} {addr : SocketAddr} (hannounces : Announces s message addr) : ∃ request,
      message = createRequest s.state.id s.nextTransactionId request addr ∧ Asked C s₀ js addr request := by
  cases hannounces with
  | onRequestEnd task fut mem caller there stepped message_eq =>
    obtain ⟨infoHash, token, port, hrequest, hmessage, _⟩ := hl.announced hm task fut mem caller there stepped message_eq
    have htold := h.visit hl task fut
    rw [hrequest] at htold
    exact ⟨_, hmessage, .announce htold⟩

theorem Informed.step (h : Informed C s₀ js s) (hready : s.Ready) (hm : Matched C s₀ js s) (hl : Looking C s₀ js s)
    (htraffic : Traffic C s₀ js s) (hdoes : Does s a s') : Informed C s₀ (js ++ [a]) s' := by
  have hbegins : js <+: js ++ [a] := List.prefix_append js [a]
  constructor
  · intro v n hn
    rcases hdoes.tables hready hn with ⟨x, hx, hid, haddr⟩ | hoffers
    · rw [← hid, ← haddr]
      exact (h.tables v x hx).mono hbegins
    · exact (h.offered hl hoffers).mono hbegins
  · intro p hp
    rcases hdoes.pinger.1 p hp with hold | ⟨v, n, hn, heq⟩
    · exact (h.queuedPings p hold).mono hbegins
    · rw [heq]
      exact (h.tables v n hn).mono hbegins
  · intro p hp
    rcases hdoes.pinger.2 p hp with hold | ⟨q, hq, heq⟩
    · exact (h.pings p hold).mono hbegins
    · rw [heq]
      exact (h.queuedPings q hq).mono hbegins
  · intro u hu visit hvisit
    cases hdoes.tasks hu with
    | kept mem => exact (h.visits u mem visit hvisit).mono hbegins
    | starts starts => exact h.starts htraffic.id starts visit hvisit
    | fed task feeds stepped => exact (h.fed hl hm hready task feeds stepped visit hvisit).mono hbegins
    | @polled t mem started => exact (h.visits t mem visit hvisit).mono hbegins
  · intro num m hm'
    rcases hdoes.creates with heq | ⟨message, addr, heq, hnew⟩
    · rw [heq] at hm'
      obtain ⟨request, hmessage, hasked⟩ := h.requests num m hm'
      exact ⟨request, hmessage, hasked.mono hbegins⟩
    rw [heq] at hm'
    rcases getElem?_snoc_cases hm' with hold | ⟨rfl, rfl⟩
    · obtain ⟨request, hmessage, hasked⟩ := h.requests num m hold
      exact ⟨request, hmessage, hasked.mono hbegins⟩
    rw [← htraffic.id, ← htraffic.tid]
    rcases hnew with ⟨caller, request, hrequests, hmessage⟩ | hannounces
    · exact ⟨request, hmessage, h.asked hl hrequests⟩
    · obtain ⟨request, hmessage, hasked⟩ := h.announced hl hm hannounces
      exact ⟨request, hmessage, hasked.mono hbegins⟩

end Steps
end Provenance

section Runs
variable {state : DhtState}

theorem informed_start (C : Codec) (state : DhtState) : Informed C (start state) [] (start state) where
  tables v n hn := .inl ⟨v, n, hn, rfl, rfl⟩
  queuedPings _ hp := by cases hp
  pings _ hp := by cases hp
  visits _ ht := by cases ht
  requests _ _ hm := by cases hm

theorem informed_run (h : (start state).Ready) (run : Run (Step C) (start state) js s) :
    Informed C (start state) js s := by
  have hboth : Lawful C state js s ∧ Informed C (start state) js s := by
    refine run.history (fun js s => Lawful C state js s ∧ Informed C (start state) js s)
      ⟨lawful_start C h, informed_start C state⟩ ?_
    rintro js v w a _ ⟨hv, hinformed⟩ hstep
    exact ⟨hv.step hstep, hinformed.step hv.ready hv.matched hv.looking hv.traffic (step_does hv.ready hstep).1⟩
  exact hboth.2

/-- Every contact of a table was there at the start, or was listed in a reply to a find_node query. -/
theorem contacts_law (h : (start state).Ready) (run : Run (Step C) (start state) js s) :
    ∀ v, ∀ n ∈ (s.liveness.table v).stored, Tabled C (start state) js ⟨n.id, n.addr⟩ :=
  (informed_run h run).tables

/-- A node sends a request to nobody that was not named to it for this. -/
theorem destinations_law (h : (start state).Ready) (run : Run (Step C) (start state) js s) :
    ∀ num m, s.created[num]? = some m → ∃ request,
      m.1 = createRequest state.id (transaction num) request m.2 ∧ Asked C (start state) js m.2 request :=
  (informed_run h run).requests

theorem sample_contacts : ∃ s, Run (Step Codec.standard) (start DhtState.sampleState) sampleActions s ∧
    SampleEnd s ∧ ∀ v, ∀ n ∈ (s.liveness.table v).stored,
      Tabled Codec.standard (start DhtState.sampleState) sampleActions ⟨n.id, n.addr⟩ := by
  obtain ⟨s, run, hend⟩ := sample_run
  exact ⟨s, run, hend, contacts_law (ready_start DhtState.sampleEnvironment 0 DhtState.sampleNode) run⟩

theorem sample_destinations : ∃ s, Run (Step Codec.standard) (start DhtState.sampleState) sampleActions s ∧
    SampleEnd s ∧ ∀ num m, s.created[num]? = some m → ∃ request,
      m.1 = createRequest DhtState.sampleState.id (transaction num) request m.2 ∧
        Asked Codec.standard (start DhtState.sampleState) sampleActions m.2 request := by
  obtain ⟨s, run, hend⟩ := sample_run
  exact ⟨s, run, hend, destinations_law (ready_start DhtState.sampleEnvironment 0 DhtState.sampleNode) run⟩

end Runs
end Dht
end LibrtbitDht
