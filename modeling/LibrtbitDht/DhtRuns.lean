import LibrtbitDht.BencodeText
import LibrtbitDht.DhtCalls

set_option autoImplicit false

namespace LibrtbitDht
open TransitionRuns Bencode

theorem RequestOutcome.result_eq_ok {outcome : RequestOutcome} {reply : ResponseOrError}
    (h : outcome.result = .ok reply) : outcome = .ok reply := by
  cases outcome with
  | error e => cases h
  | ok reply' =>
    cases h
    rfl

theorem getElem?_snoc_cases {α : Type} {l : List α} {a b : α} {n : ℕ} (h : (l ++ [a])[n]? = some b) :
    l[n]? = some b ∨ n = l.length ∧ b = a := by
  rcases Nat.lt_or_ge n l.length with hlt | hge
  · rw [List.getElem?_append_left hlt] at h
    exact .inl h
  · have hlt := (List.getElem?_eq_some_iff.1 h).1
    rw [List.length_append, List.length_singleton] at hlt
    obtain rfl : n = l.length := by omega
    rw [List.getElem?_concat_length] at h
    exact .inr ⟨rfl, (Option.some.inj h).symm⟩

namespace Dht
variable {C : Codec} {s₀ s s' : Dht} {js : List Action} {a : Action}

section Lookups

inductive Starts (s : Dht) : Action → Task → Prop where
  | getPeers {infoHash : Id20} {announcePort : Option (BitVec 16)} (isV4 : Bool) :
      Starts s (.getPeers infoHash announcePort) (.getPeers infoHash announcePort isV4)
  | bootstrapHostname {addrs : List SocketAddr} (p : SocketAddr → Bool) :
      Starts s (.bootstrapHostname addrs) (.findNode s.state.id (addrs.filter p))
  | refresh {isV4 : Bool} {now : Instant} {target : Id20} {addrs : List SocketAddr}
      (best : ∀ addr ∈ addrs, ∃ n ∈ (s.liveness.table isV4).stored, n.addr = addr) :
      Starts s (.refresh isV4 now) (.findNode target addrs)

inductive Feeds (s : Dht) (i : ℕ) (t : Task) : Loop.Action → Prop where
  | round {now asleep : Instant} {callbacks : RecursiveRequestCallbacksGetPeers} {lookup : PeersLookup}
      (loop_eq : t.loop = .getPeers callbacks lookup) :
      Feeds s i t (.turn (.round (s.liveness.table lookup.isV4) now asleep))
  | firstReply {num : ℕ} {reply : RequestResult} {now : Instant} : Feeds s i t (.turn (.firstReply num reply now))
  | secondReply {f : Fut} {c : Call} {outcome : RequestOutcome} {now : Instant} (fut : f ∈ t.loop.lookup.futs)
      (mem : c ∈ s.calls) (caller : c.caller = .visit i f.num) (there : c.outcome = some outcome) :
      Feeds s i t (.turn (.secondReply f.num outcome.result now))
  | recv : Feeds s i t (.turn .recv)
  | dropped : Feeds s i t (.turn .dropped)
  | aborted : Feeds s i t (.turn .aborted)
  | finished : Feeds s i t .finished

/-- A task is one of before, it is started, or its loop or the list of its visits goes on. -/
inductive Comes (s : Dht) (a : Action) : Task → Prop where
  | kept {t : Task} (mem : t ∈ s.tasks) : Comes s a t
  | starts {t : Task} (starts : Starts s a t) : Comes s a t
  | fed {i : ℕ} {t : Task} {b : Loop.Action} {loop : Loop} (task : s.tasks[i]? = some t) (feeds : Feeds s i t b)
      (stepped : t.loop.step b = .ok loop) : Comes s a { t with loop }
  | polled {t : Task} (mem : t ∈ s.tasks) (started : List ℕ) : Comes s a { t with started }

theorem comes_set {i : ℕ} {t u : Task} {b : Loop.Action} {loop : Loop} (task : s.tasks[i]? = some t)
    (feeds : Feeds s i t b) (stepped : t.loop.step b = .ok loop) (hu : u ∈ s.tasks.set i { t with loop }) :
    Comes s a u := by
  rcases List.mem_or_eq_of_mem_set hu with hold | rfl
  · exact .kept hold
  · exact .fed task feeds stepped

theorem Does.tasks (hdoes : Does s a s') {u : Task} (hu : u ∈ s'.tasks) : Comes s a u := by
  cases hdoes with
  | @reply r msg addr reply kind =>
    obtain ⟨inflight, calls, heq⟩ := s.onReply_frame msg.transactionId addr reply
    rw [heq] at hu
    exact .kept hu
  | @failed out queue tid queued ours =>
    obtain ⟨inflight, calls, heq⟩ := finish_frame { s with queue } (tid, out.addr) (.error .sendError)
    rw [heq] at hu
    exact .kept hu
  | @refused p mem closed =>
    obtain ⟨inflight, calls, heq⟩ := refuse_frame { s with pending := s.pending.erase p } p
    rw [heq] at hu
    exact .kept hu
  | @getPeers infoHash announcePort =>
    rcases List.mem_append.1 hu with hu | hu
    · exact .kept hu
    rcases List.mem_cons.1 hu with rfl | hu
    · exact .starts (.getPeers true)
    · cases List.mem_singleton.1 hu
      exact .starts (.getPeers false)
  | @bootstrapHostname addrs =>
    rcases List.mem_append.1 hu with hu | hu
    · exact .kept hu
    rcases List.mem_cons.1 hu with rfl | hu
    · exact .starts (.bootstrapHostname SocketAddr.isIpv4)
    · cases List.mem_singleton.1 hu
      exact .starts (.bootstrapHostname SocketAddr.isIpv6)
  | refresh t addrs best =>
    rcases List.mem_append.1 hu with hu | hu
    · exact .kept hu
    · cases List.mem_singleton.1 hu
      exact .starts (.refresh best)
  | turned task turns stepped =>
    cases turns with
    | round loop_eq => exact comes_set task (.round loop_eq) stepped hu
    | recv => exact comes_set task .recv stepped hu
    | finished => exact comes_set task .finished stepped hu
    | dropped => exact comes_set task .dropped stepped hu
  | @started i num clock now t f l task fut num_eq new moved =>
    rcases List.mem_or_eq_of_mem_set hu with hu | rfl
    · exact .kept hu
    · exact .polled (List.mem_of_getElem? task) _
  | firstReply task fut num_eq mem caller there first stepped ended =>
    rw [ended.continues.2.1] at hu
    exact comes_set task .firstReply stepped hu
  | secondReply task fut num_eq mem caller there second stepped =>
    subst num_eq
    exact comes_set task (.secondReply fut mem caller there) stepped hu
  | aborted p task stepped => exact comes_set task .aborted stepped hu
  | answer | sent | unsent | closed | inserted | handed | timedOut | senderDropped | ping | pingReturns
  | pingQuery | pingEnd | queried | refresherTick | pingerTick | pingStart | garbageCollectPeers | rehash =>
    exact .kept hu

def Visits (s₀ s : Dht) (w : Waiting) (i num : ℕ) : Prop :=
  ∃ t visit, s.tasks[i]? = some t ∧ t.loop.lookup.visited[num]? = some visit ∧ visit.addr = w.key.2 ∧
    s.created[w.num]? = some (createRequest s₀.state.id w.key.1 t.request w.key.2, w.key.2)

structure Looking (C : Codec) (s₀ : Dht) (js : List Action) (s : Dht) : Prop where
  tasks : ∀ t ∈ s.tasks, Made js t ∧ FoundAll C s₀ js t
  visits : ∀ w i num, s.Calling w (.visit i num) → Visits s₀ s w i num

theorem Visits.mono (hc : Continues s s') {w : Waiting} {i num : ℕ} (h : Visits s₀ s w i num) :
    Visits s₀ s' w i num := by
  obtain ⟨t, visit, ht, hvisit, haddr, hcreated⟩ := h
  obtain ⟨t', ht', hrequest, hprefix⟩ := hc.tasks i t ht
  refine ⟨t', visit, ht', ?_, haddr, ?_⟩
  · obtain ⟨rest, hrest⟩ := hprefix
    rw [← hrest, List.getElem?_append_left (List.getElem?_eq_some_iff.1 hvisit).1]
    exact hvisit
  · rw [hrequest]
    exact hc.created _ _ hcreated

theorem Looking.visited (h : Looking C s₀ js s) {i : ℕ} {t : Task} {f : Fut} (task : s.tasks[i]? = some t)
    (fut : f ∈ t.loop.lookup.futs) : t.loop.lookup.visited[f.num]? = some f.visit :=
  (h.tasks t (List.mem_of_getElem? task)).1.counted.asked f fut

theorem Looking.replied (h : Looking C s₀ js s) (hm : Matched C s₀ js s) {i : ℕ} {t : Task} {f : Fut} {c : Call}
    {resp : Response} (task : s.tasks[i]? = some t) (fut : f ∈ t.loop.lookup.futs) (mem : c ∈ s.calls)
    (caller : c.caller = .visit i f.num) (there : c.outcome = some (.ok (.response resp))) :
    Replied C s₀ js t.request f.visit.addr resp := by
  obtain ⟨u, visit, hu, hvisited, haddr, hcreated⟩ := h.visits c.toWaiting i f.num (.inl ⟨c, mem, rfl, caller⟩)
  cases Option.some.inj (hu.symm.trans task)
  cases Option.some.inj (hvisited.symm.trans (h.visited task fut))
  obtain ⟨message, hmessage, hcaused⟩ := hm.outcomes c mem _ there
  have htid := (hm.numbered mem).1
  rw [htid] at hcreated
  have heq : message = createRequest s₀.state.id (transaction c.num) t.request c.key.2 :=
    (Prod.ext_iff.1 (Option.some.inj (hmessage.symm.trans hcreated))).1
  subst heq
  rw [haddr]
  cases hcaused with
  | reply heard => exact ⟨c.num, heard⟩

theorem Looking.fed (h : Looking C s₀ js s) (hm : Matched C s₀ js s) (hready : s.Ready) {i : ℕ} {t : Task}
    {b : Loop.Action} {loop : Loop} (task : s.tasks[i]? = some t) (feeds : Feeds s i t b)
    (hstep : t.loop.step b = .ok loop) : Made js { t with loop } ∧ FoundAll C s₀ js { t with loop } := by
  obtain ⟨hmade, hfound⟩ := h.tasks t (List.mem_of_getElem? task)
  constructor
  · refine hmade.step hstep ?_
    intro callbacks lookup table now asleep hloop hb
    cases feeds with
    | round loop_eq =>
      cases hb
      cases hloop.symm.trans loop_eq
      exact ⟨hready.liveness.tree _, hready.liveness.family _⟩
    | firstReply | secondReply | recv | dropped | aborted | finished => cases hb
  · intro infoHash hrequest p hp
    rcases Loop.peers_step hstep hp with hold | ⟨num, reply, now, hb, hnew⟩
    · exact hfound infoHash hrequest p hold
    · cases feeds with
      | secondReply fut mem caller there =>
        cases hb
        obtain ⟨resp, hresult, hvalues⟩ := RequestResult.mem_values hnew
        rw [RequestOutcome.result_eq_ok hresult] at there
        have hreplied := h.replied hm task fut mem caller there
        change t.request = _ at hrequest
        rw [hrequest] at hreplied
        exact ⟨_, resp, hreplied, hvalues⟩
      | round | firstReply | recv | dropped | aborted | finished => cases hb

theorem Looking.step (h : Looking C s₀ js s) (hm : Matched C s₀ js s) (hready : s.Ready)
    (hid : s.state.id = s₀.state.id) (hdoes : Does s a s') : Looking C s₀ (js ++ [a]) s' := by
  have hbegins : js <+: js ++ [a] := List.prefix_append js [a]
  have hc := hdoes.continues
  constructor
  · intro u hu
    cases hdoes.tasks hu with
    | kept mem => exact ⟨(h.tasks u mem).1.mono hbegins, (h.tasks u mem).2.mono hbegins⟩
    | starts starts =>
      have hpeers : u.loop.peers = [] := by cases starts <;> rfl
      refine ⟨?_, fun infoHash _ p hp => ?_⟩
      · cases starts with
        | getPeers isV4 => exact .getPeers [] (List.mem_append_right js (List.mem_singleton_self _)) .nil nofun
        | bootstrapHostname p => exact .findNode [] .nil
        | refresh best => exact .findNode [] .nil
      · rw [hpeers] at hp
        cases hp
    | fed task feeds stepped =>
      obtain ⟨hmade, hfound⟩ := h.fed hm hready task feeds stepped
      exact ⟨hmade.mono hbegins, hfound.mono hbegins⟩
    | @polled t mem started =>
      exact ⟨((h.tasks t mem).1.withStarted started).mono hbegins, (h.tasks t mem).2.mono hbegins⟩
  · intro w i num hcalling
    rcases hdoes.calling hcalling with hold | ⟨request, addr, hrequests, rfl, rfl⟩
    · exact (h.visits w i num hold).mono hc
    · cases hrequests with
      | @visit _ t f task fut =>
        refine ⟨t, f.visit, task, h.visited task fut, rfl, ?_⟩
        rw [← hid]
        exact s.created_create_last _ _ _

end Lookups

section Traffic

/-- All that was created and all that was handed to the writer. -/
structure Traffic (C : Codec) (s₀ : Dht) (js : List Action) (s : Dht) : Prop where
  id : s.state.id = s₀.state.id
  tid : s.nextTransactionId = transaction s.created.length
  queue : s.queue <:+ s.handed
  /-- The messages that the node created were handed over, are about to be, or found no writer. -/
  ours : ∃ lost, (s.handed.filter (fun out => out.ourTid.isSome) ++ (s.pending.map Pending.out ++ lost)).Perm
    (s.created.mapIdx outgoing) ∧ (s.workerOpen = true → lost = [])
  justified : ∀ num m, s.created[num]? = some m → Justified C s₀ js num m
  /-- The others are the answers to the queries that it received, one for each. -/
  answers : List.Forall₂ (Answered C s₀ js) (js.filterMap Action.receivedQuery)
    (s.handed.filter (fun out => out.ourTid.isNone))

theorem Traffic.answers_mono (h : Traffic C s₀ js s) (a : Action) (hquery : a.receivedQuery = none) :
    List.Forall₂ (Answered C s₀ (js ++ [a])) ((js ++ [a]).filterMap Action.receivedQuery)
      (s.handed.filter (fun out => out.ourTid.isNone)) := by
  rw [filterMap_snoc, hquery, Option.toList_none, List.append_nil]
  exact h.answers.imp fun _ _ hanswered => hanswered.mono (List.prefix_append js [a])

theorem Traffic.frame (h : Traffic C s₀ js s) (a : Action) (hquery : a.receivedQuery = none)
    (hid : s'.state.id = s.state.id) (htid : s'.nextTransactionId = s.nextTransactionId)
    (hcreated : s'.created = s.created) (hpending : (s'.pending.map Pending.out).Perm (s.pending.map Pending.out))
    (hopen : s'.workerOpen = true → s.workerOpen = true) (hhanded : s'.handed = s.handed)
    (hqueue : s'.queue <:+ s.queue) : Traffic C s₀ (js ++ [a]) s' := by
  constructor
  · exact hid.trans h.id
  · rw [htid, hcreated, h.tid]
  · rw [hhanded]
    exact hqueue.trans h.queue
  · obtain ⟨lost, hperm, hlost⟩ := h.ours
    refine ⟨lost, ?_, fun hs => hlost (hopen hs)⟩
    rw [hhanded, hcreated]
    exact ((hpending.append_right lost).append_left _).trans hperm
  · intro num m hm
    rw [hcreated] at hm
    exact (h.justified num m hm).mono (List.prefix_append js [a])
  · rw [hhanded]
    exact h.answers_mono a hquery

theorem Traffic.create (h : Traffic C s₀ js s) (a : Action) (hquery : a.receivedQuery = none) {request : Request}
    {addr : SocketAddr} (hreason : Reason C s₀ (js ++ [a]) addr request) {message : Message}
    (hmessage : message = createRequest s.state.id s.nextTransactionId request addr) (sending : Sending) :
    Traffic C s₀ (js ++ [a]) (s.create message addr sending) := by
  constructor
  · exact h.id
  · change s.nextTransactionId + 1 = transaction (s.created ++ [(message, addr)]).length
    rw [h.tid, List.length_append, List.length_singleton, transaction, transaction, BitVec.ofNat_add]
    rfl
  · exact h.queue
  · obtain ⟨lost, hperm, hlost⟩ := h.ours
    refine ⟨lost, ?_, hlost⟩
    change (s.handed.filter _ ++ ((s.pending ++ [_]).map Pending.out ++ lost)).Perm
      ((s.created ++ [(message, addr)]).mapIdx outgoing)
    have hout : outgoing s.created.length (message, addr) =
        Pending.out ⟨⟨s.created.length, (s.nextTransactionId, addr)⟩, message, sending⟩ := by
      rw [h.tid]
      rfl
    rw [List.mapIdx_concat, hout, List.map_append, List.append_assoc]
    refine .trans ?_ (hperm.append_right _)
    rw [List.append_assoc, List.append_assoc]
    exact (List.perm_append_comm.append_left _).append_left _
  · intro num m hm
    rcases getElem?_snoc_cases hm with hold | ⟨rfl, rfl⟩
    · exact (h.justified num m hold).mono (List.prefix_append js [a])
    · exact ⟨request, by rw [hmessage, h.tid, h.id], hreason⟩
  · exact h.answers_mono a hquery

theorem Traffic.request (h : Traffic C s₀ js s) (a : Action) (hquery : a.receivedQuery = none) (request : Request)
    (addr : SocketAddr) (caller : Caller) (hreason : Reason C s₀ (js ++ [a]) addr request) :
    Traffic C s₀ (js ++ [a]) (s.request request addr caller) :=
  h.create a hquery hreason rfl (.request caller false)

theorem perm_erase_pending {p : Pending} (mem : p ∈ s.pending) (lost : List Outgoing) :
    (p.out :: ((s.pending.erase p).map Pending.out ++ lost)).Perm (s.pending.map Pending.out ++ lost) :=
  (((List.perm_cons_erase mem).map Pending.out).symm.append_right lost)

theorem Traffic.handed (h : Traffic C s₀ js s) {p : Pending} (mem : p ∈ s.pending) :
    Traffic C s₀ (js ++ [.send p.num]) (enqueue { s with pending := s.pending.erase p } p.out) := by
  constructor
  · exact h.id
  · exact h.tid
  · obtain ⟨taken, htaken⟩ := h.queue
    refine ⟨taken, ?_⟩
    change taken ++ (s.queue ++ [p.out]) = s.handed ++ [p.out]
    rw [← List.append_assoc, htaken]
  · obtain ⟨lost, hperm, hlost⟩ := h.ours
    refine ⟨lost, ?_, hlost⟩
    change ((s.handed ++ [p.out]).filter _ ++ ((s.pending.erase p).map Pending.out ++ lost)).Perm _
    rw [List.filter_append, List.append_assoc]
    exact ((perm_erase_pending mem lost).append_left _).trans hperm
  · exact fun num m hm => (h.justified num m hm).mono (List.prefix_append js _)
  · change List.Forall₂ _ _ ((s.handed ++ [p.out]).filter _)
    rw [List.filter_append]
    exact (List.append_nil _).symm ▸ h.answers_mono (.send p.num) rfl

theorem Traffic.refused (h : Traffic C s₀ js s) {p : Pending} (mem : p ∈ s.pending) (closed : s.workerOpen = false) :
    Traffic C s₀ (js ++ [.send p.num]) (refuse { s with pending := s.pending.erase p } p) := by
  obtain ⟨inflight, calls, heq⟩ := refuse_frame { s with pending := s.pending.erase p } p
  rw [heq]
  obtain ⟨lost, hperm, hlost⟩ := h.ours
  refine ⟨h.id, h.tid, h.queue, ⟨p.out :: lost, ?_, ?_⟩, ?_, h.answers_mono (.send p.num) rfl⟩
  · exact ((List.perm_middle.trans (perm_erase_pending mem lost)).append_left _).trans hperm
  · intro hopen
    cases closed.symm.trans hopen
  · exact fun num m hm => (h.justified num m hm).mono (List.prefix_append js _)

theorem Traffic.answer (h : Traffic C s₀ js s) (run : Run (Step C) s₀ js s) {r : Readings} {msg : Message}
    {addr : SocketAddr} {resp : Response} {state : DhtState} (query : DhtState.isQuery msg.kind = true)
    (handled : s.state.onReceivedMessage r msg addr = .ok (some (DhtState.reply msg addr resp), state))
    (answer : s.state.Answer r msg.kind addr resp) (hid : state.id = s.state.id) :
    Traffic C s₀ (js ++ [.receive r msg addr])
      (enqueue { s with state } ⟨⟨none, addr, none⟩, DhtState.reply msg addr resp⟩) := by
  constructor
  · exact hid.trans h.id
  · exact h.tid
  · obtain ⟨taken, htaken⟩ := h.queue
    refine ⟨taken, ?_⟩
    change taken ++ (s.queue ++ [_]) = s.handed ++ [_]
    rw [← List.append_assoc, htaken]
  · obtain ⟨lost, hperm, hlost⟩ := h.ours
    refine ⟨lost, ?_, hlost⟩
    change ((s.handed ++ [_]).filter _ ++ _).Perm _
    rw [List.filter_append]
    exact (List.append_nil (s.handed.filter _)).symm ▸ hperm
  · exact fun num m hm => (h.justified num m hm).mono (List.prefix_append js _)
  · have hquery : (Action.receive r msg addr).receivedQuery = some (r, msg, addr) := if_pos query
    change List.Forall₂ _ _ ((s.handed ++ [_]).filter _)
    rw [filterMap_snoc, hquery, List.filter_append]
    refine List.rel_append (h.answers.imp fun _ _ hanswered => hanswered.mono (List.prefix_append js _)) (.cons ?_ .nil)
    exact ⟨s, resp, state, run.did _, handled, answer, rfl⟩

theorem Looking.announced (h : Looking C s₀ js s) (hm : Matched C s₀ js s) {i : ℕ} {t : Task} {f : Fut} {c : Call}
    {outcome : RequestOutcome} {now : Instant} {callbacks : RecursiveRequestCallbacksGetPeers} {lookup : PeersLookup}
    {dhtId target : Id20} {tid : TransactionId} {message : Message} (task : s.tasks[i]? = some t)
    (fut : f ∈ t.loop.lookup.futs) (mem : c ∈ s.calls) (caller : c.caller = .visit i f.num)
    (there : c.outcome = some outcome)
    (stepped : t.loop.step (.turn (.firstReply f.num outcome.result now)) = .ok (.getPeers callbacks lookup))
    (message_eq : callbacks.onRequestEnd dhtId tid lookup.loop.req.infoHash target f.visit.addr outcome.result =
      some message) :
    ∃ infoHash token port, t.request = .getPeers infoHash ∧
      message = createRequest dhtId tid (.announce infoHash token port) f.visit.addr ∧
      Reason C s₀ js f.visit.addr (.announce infoHash token port) := by
  obtain ⟨port, resp, token, hport, hresult, htoken, rfl⟩ :=
    RecursiveRequestCallbacksGetPeers.onRequestEnd_eq_some message_eq
  rw [RequestOutcome.result_eq_ok hresult] at there
  have hreplied := h.replied hm task fut mem caller there
  have hmade := (h.tasks t (List.mem_of_getElem? task)).1.step stepped (fun _ _ _ _ _ _ hb => by cases hb)
  obtain ⟨request, loop, started⟩ := t
  cases hmade with
  | getPeers _ asked run _ =>
    cases hport
    have hhash := (PeersLookup.tended_run run).infoHash
    rw [hhash]
    exact ⟨_, token, port, rfl, rfl, .announce asked hreplied htoken⟩

theorem Traffic.step (h : Traffic C s₀ js s) (run : Run (Step C) s₀ js s) (hm : Matched C s₀ js s)
    (hl : Looking C s₀ js s) (hdoes : Does s a s') : Traffic C s₀ (js ++ [a]) s' := by
  have hframe : ∀ {s' : Dht} {a : Action}, a.receivedQuery = none → s'.state.id = s.state.id →
      s'.nextTransactionId = s.nextTransactionId → s'.created = s.created → s'.pending = s.pending →
      s'.workerOpen = s.workerOpen → s'.handed = s.handed → s'.queue <:+ s.queue → Traffic C s₀ (js ++ [a]) s' :=
    fun hquery hid htid hcreated hpending hopen hhanded hqueue =>
      h.frame _ hquery hid htid hcreated (hpending ▸ .refl _) (fun hs => hopen ▸ hs) hhanded hqueue
  cases hdoes with
  | @reply r msg addr reply kind =>
    obtain ⟨inflight, calls, heq⟩ := s.onReply_frame msg.transactionId addr reply
    rw [heq]
    refine hframe (if_neg ?_) rfl rfl rfl rfl rfl rfl List.suffix_rfl
    rw [isQuery_iff, kind]
    simp
  | answer query handled answer after => exact h.answer run query handled answer after.id
  | @sent out queue queued => exact hframe rfl rfl rfl rfl rfl rfl rfl ⟨[out], queued.symm⟩
  | @unsent out queue queued _ => exact hframe rfl rfl rfl rfl rfl rfl rfl ⟨[out], queued.symm⟩
  | @failed out queue tid queued ours =>
    obtain ⟨inflight, calls, heq⟩ := finish_frame { s with queue } (tid, out.addr) (.error .sendError)
    rw [heq]
    exact hframe rfl rfl rfl rfl rfl rfl rfl ⟨[out], queued.symm⟩
  | closed => exact h.frame _ rfl rfl rfl rfl (.refl _) nofun rfl (List.nil_suffix)
  | @inserted p caller mem sending_eq =>
    refine h.frame _ rfl rfl rfl rfl ?_ (fun hs => hs) rfl List.suffix_rfl
    change ((s.pending.erase p ++ [_]).map Pending.out).Perm _
    rw [List.map_append]
    exact List.perm_append_comm.trans ((List.perm_cons_erase mem).map Pending.out).symm
  | handed mem is_open => exact h.handed mem
  | refused mem closed => exact h.refused mem closed
  | ping | pingQuery => exact h.request _ rfl _ _ _ .ping
  | @queried i num t f task fut num_eq started idle =>
    refine h.request _ rfl _ _ _ ?_
    cases (hl.tasks t (List.mem_of_getElem? task)).1 with
    | findNode started run => exact .findNode
    | getPeers started asked run rounds => exact .getPeers (List.mem_append_left _ asked)
  | @firstReply i num now marked t f c outcome loop _ task fut num_eq mem caller there first stepped ended =>
    subst num_eq
    cases ended with
    | marked moved => exact hframe rfl rfl rfl rfl rfl rfl rfl List.suffix_rfl
    | @announced callbacks lookup id message loop_eq id_eq message_eq =>
      subst loop_eq
      have hheld : Traffic C s₀ js ((s.endCall c.num).setTask i { t with loop := .getPeers callbacks lookup }) :=
        ⟨h.id, h.tid, h.queue, h.ours, h.justified, h.answers⟩
      obtain ⟨infoHash, token, port, _, hmessage, hreason⟩ :=
        hl.announced hm task fut mem caller there stepped message_eq
      exact hheld.create _ rfl (hreason.mono (List.prefix_append js _)) hmessage _
  | turned _ turns _ =>
    refine hframe ?_ rfl rfl rfl rfl rfl rfl List.suffix_rfl
    cases turns <;> rfl
  | timedOut | senderDropped | pingReturns | getPeers | bootstrapHostname | refresherTick | refresh
  | pingerTick | pingStart | pingEnd | started | secondReply | aborted | garbageCollectPeers | rehash =>
    exact hframe rfl rfl rfl rfl rfl rfl rfl List.suffix_rfl

end Traffic

section Runs
variable {state : DhtState}

theorem ready_start (env : Persistence.Environment) (id : Id20) (listenAddr : SocketAddr) :
    (start (DhtState.start env id listenAddr)).Ready := by
  have hsound := DhtState.sound_start env id listenAddr
  refine ⟨hsound, ?_, ?_, nofun, nofun⟩
  · intro v
    cases v
    · exact hsound.tableV6
    · exact hsound.tableV4
  · intro v n hn
    cases v <;> cases hn

theorem not_calling_start {w : Waiting} {caller : Caller} : ¬ (start state).Calling w caller := by
  rintro (⟨c, hc, _⟩ | ⟨p, hp, _⟩)
  · cases hc
  · cases hp

theorem matched_start (C : Codec) (state : DhtState) : Matched C (start state) [] (start state) where
  inflight _ _ hget := by cases hget
  calling _ _ hcalling := absurd hcalling not_calling_start
  outcomes _ hc := by cases hc

theorem looking_start (C : Codec) (state : DhtState) : Looking C (start state) [] (start state) where
  tasks _ ht := by cases ht
  visits _ _ _ hcalling := absurd hcalling not_calling_start

theorem traffic_start (C : Codec) (state : DhtState) : Traffic C (start state) [] (start state) where
  id := rfl
  tid := rfl
  queue := List.suffix_rfl
  ours := ⟨[], .refl _, fun _ => rfl⟩
  justified _ _ hm := by cases hm
  answers := .nil

/-- What holds after every run of a node. -/
structure Lawful (C : Codec) (state : DhtState) (js : List Action) (s : Dht) : Prop where
  run : Run (Step C) (start state) js s
  ready : s.Ready
  matched : Matched C (start state) js s
  looking : Looking C (start state) js s
  traffic : Traffic C (start state) js s

theorem lawful_start (C : Codec) (h : (start state).Ready) : Lawful C state [] (start state) :=
  ⟨.nil, h, matched_start C state, looking_start C state, traffic_start C state⟩

theorem Lawful.step (h : Lawful C state js s) (hstep : Step C s a s') : Lawful C state (js ++ [a]) s' := by
  obtain ⟨hdoes, hready⟩ := step_does h.ready hstep
  exact ⟨h.run.snoc hstep, hready, h.matched.step h.traffic.tid h.run hdoes,
    h.looking.step h.matched h.ready h.traffic.id hdoes, h.traffic.step h.run h.matched h.looking hdoes⟩

theorem lawful_run (h : (start state).Ready) (run : Run (Step C) (start state) js s) : Lawful C state js s :=
  run.history (Lawful C state) (lawful_start C h) (fun _ _ _ _ _ hv hstep => hv.step hstep)

/-- All that a node hands to its writer is accounted for. -/
theorem traffic_law (h : (start state).Ready) (run : Run (Step C) (start state) js s) :
    Traffic C (start state) js s :=
  (lawful_run h run).traffic

/-- Every lookup of a node is in a run of its own loop, and each peer that it passed on was listed by
a node that it asked for the info hash. -/
theorem lookups_law (h : (start state).Ready) (run : Run (Step C) (start state) js s) :
    ∀ t ∈ s.tasks, Made js t ∧ FoundAll C (start state) js t :=
  (lawful_run h run).looking.tasks

/-- A call of `request` ends with what happened to its own message. -/
theorem outcomes_law (h : (start state).Ready) (run : Run (Step C) (start state) js s) :
    ∀ c ∈ s.calls, Numbered s.created c.toWaiting ∧
      ∀ outcome, c.outcome = some outcome → Explained C (start state) js s.created c.toWaiting outcome :=
  fun c hc => ⟨(lawful_run h run).matched.numbered hc, (lawful_run h run).matched.outcomes c hc⟩

end Runs

section Samples
open DhtState (sampleHost sampleReadings sampleState sampleEnvironment sampleNode defaultResponse)

def sampleReply (tid : UInt8) (resp : Response) : Action :=
  .receive sampleReadings ⟨.response resp, [0, tid], none, none⟩ sampleHost

/-- A host is bootstrapped from and names itself, then it is asked for peers, pinged in between, and told that
there is one here. -/
def sampleActions : List Action := [
  .bootstrapHostname [sampleHost], .visitStart 0 0 (fun _ => 0) 0, .query 0 0, .insert 0, .send 0, .writer false,
  sampleReply 0 (defaultResponse 5), .resume 0 0 0 0, .query 0 0, .insert 1, .send 1,
  sampleReply 1 { defaultResponse 5 with nodes := some [⟨5, ⟨2, 6881⟩⟩] }, .resume 0 0 0 0, .recv 0,
  .visitStart 0 1 (fun _ => 0) 0,
  .getPeers 7 (some 80), .round 2 0 0, .recv 2, .visitStart 2 0 (fun _ => 0) 0, .query 2 0, .ping sampleHost,
  .insert 3, .send 3, .insert 2, .send 2,
  sampleReply 2 { defaultResponse 5 with token := some [1] }, .resume 2 0 0 0, .send 4, .query 2 0, .insert 5, .send 5,
  sampleReply 5 { defaultResponse 5 with values := some [.v4 ⟨9, 9⟩] }, .resume 2 0 0 0, .timeout 3]

def SampleEnd (s : Dht) : Prop :=
  s.tasks.map (fun t => t.loop.peers) = [[], [], [.v4 ⟨9, 9⟩], []] ∧
    s.handed.map (fun out => out.item) = [some 0, some 1, some 3, some 2, some 4, some 5] ∧ s.created.length = 6 ∧
    s.calls.map (fun c => (c.num, c.outcome)) = [(3, some (.error .responseTimeout))] ∧
    ∃ n ∈ (s.liveness.table true).stored, n.id = 5

instance (s : Dht) : Decidable (SampleEnd s) := by
  unfold SampleEnd
  infer_instance

theorem sample_run : ∃ s, Run (Step Codec.standard) (start sampleState) sampleActions s ∧ SampleEnd s := by
  have heval : (sampleActions.foldlM (step Codec.standard) (start sampleState)).toOption.any
      (fun s => decide (SampleEnd s)) = true := by decide +kernel
  obtain ⟨s, run, hs⟩ := exists_run_of_eval _ heval
  exact ⟨s, run, of_decide_eq_true hs⟩

theorem sample_traffic : ∃ s, Run (Step Codec.standard) (start sampleState) sampleActions s ∧ SampleEnd s ∧
    Traffic Codec.standard (start sampleState) sampleActions s := by
  obtain ⟨s, run, hend⟩ := sample_run
  exact ⟨s, run, hend, traffic_law (ready_start sampleEnvironment 0 sampleNode) run⟩

theorem sample_lookups : ∃ s, Run (Step Codec.standard) (start sampleState) sampleActions s ∧ SampleEnd s ∧
    ∀ t ∈ s.tasks, Made sampleActions t ∧ FoundAll Codec.standard (start sampleState) sampleActions t := by
  obtain ⟨s, run, hend⟩ := sample_run
  exact ⟨s, run, hend, lookups_law (ready_start sampleEnvironment 0 sampleNode) run⟩

theorem sample_outcomes : ∃ s, Run (Step Codec.standard) (start sampleState) sampleActions s ∧ SampleEnd s ∧
    ∀ c ∈ s.calls, Numbered s.created c.toWaiting ∧ ∀ outcome, c.outcome = some outcome →
      Explained Codec.standard (start sampleState) sampleActions s.created c.toWaiting outcome := by
  obtain ⟨s, run, hend⟩ := sample_run
  exact ⟨s, run, hend, outcomes_law (ready_start sampleEnvironment 0 sampleNode) run⟩

end Samples

end Dht
end LibrtbitDht
