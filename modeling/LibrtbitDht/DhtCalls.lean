import LibrtbitDht.DhtTraffic

set_option autoImplicit false

namespace LibrtbitDht
open TransitionRuns Bencode

namespace Dht

section Continues
variable {s s' : Dht} {a : Action}

theorem finish_cases (s : Dht) (key : RequestKey) (outcome : RequestOutcome) : s.finish key outcome = s ∨
    ∃ num, s.inflight.get? key = some num ∧
      s.finish key outcome = complete { s with inflight := s.inflight.remove key } num outcome := by
  unfold finish
  cases hget : s.inflight.get? key with
  | none => exact .inl rfl
  | some num => exact .inr ⟨num, rfl, rfl⟩

theorem finish_frame (s : Dht) (key : RequestKey) (outcome : RequestOutcome) :
    ∃ inflight calls, s.finish key outcome = { s with inflight, calls } := by
  rcases s.finish_cases key outcome with heq | ⟨num, _, heq⟩
  · exact ⟨s.inflight, s.calls, heq⟩
  · exact ⟨_, _, heq⟩

theorem onReply_cases (s : Dht) (transactionId : ByteStrings.Bytes) (addr : SocketAddr) (reply : ResponseOrError) :
    s.onReply transactionId addr reply = s ∨ ∃ tid, getOurTransactionId transactionId = some tid ∧
      s.onReply transactionId addr reply = s.finish (tid, addr) (.ok reply) := by
  unfold onReply
  cases htid : getOurTransactionId transactionId with
  | none => exact .inl rfl
  | some tid => exact .inr ⟨tid, rfl, rfl⟩

theorem onReply_frame (s : Dht) (transactionId : ByteStrings.Bytes) (addr : SocketAddr) (reply : ResponseOrError) :
    ∃ inflight calls, s.onReply transactionId addr reply = { s with inflight, calls } := by
  rcases s.onReply_cases transactionId addr reply with heq | ⟨tid, _, heq⟩
  · exact ⟨s.inflight, s.calls, heq⟩
  · rw [heq]
    exact s.finish_frame (tid, addr) (.ok reply)

theorem refuse_frame (s : Dht) (p : Pending) : ∃ inflight calls, s.refuse p = { s with inflight, calls } := by
  unfold refuse
  split
  · exact ⟨_, _, rfl⟩
  · exact ⟨s.inflight, s.calls, rfl⟩

/-- Messages are only added, and tasks go on with the same request and the same visits. -/
structure Continues (s s' : Dht) : Prop where
  created : ∀ (num : ℕ) (m : Message × SocketAddr), s.created[num]? = some m → s'.created[num]? = some m
  tasks : ∀ (i : ℕ) (t : Task), s.tasks[i]? = some t → ∃ t', s'.tasks[i]? = some t' ∧ t'.request = t.request ∧
    t.loop.lookup.visited <+: t'.loop.lookup.visited

theorem Continues.of_eq (hcreated : s'.created = s.created) (htasks : s'.tasks = s.tasks) : Continues s s' := by
  constructor
  · intro num m hm
    rwa [hcreated]
  · intro i t ht
    exact ⟨t, by rwa [htasks], rfl, List.prefix_rfl⟩

theorem Continues.append (hcreated : s'.created = s.created) (new : List Task) (htasks : s'.tasks = s.tasks ++ new) :
    Continues s s' := by
  constructor
  · intro num m hm
    rwa [hcreated]
  · intro i t ht
    refine ⟨t, ?_, rfl, List.prefix_rfl⟩
    rw [htasks, List.getElem?_append_left (List.getElem?_eq_some_iff.1 ht).1]
    exact ht

theorem Continues.set
    (hcreated : ∀ (num : ℕ) (m : Message × SocketAddr), s.created[num]? = some m → s'.created[num]? = some m) {i : ℕ}
    {t t' : Task} (ht : s.tasks[i]? = some t) (htasks : s'.tasks = s.tasks.set i t')
    (hrequest : t'.request = t.request) (hvisited : t.loop.lookup.visited <+: t'.loop.lookup.visited) :
    Continues s s' := by
  refine ⟨hcreated, ?_⟩
  intro j u hu
  rw [htasks]
  by_cases hij : i = j
  · subst hij
    cases Option.some.inj (ht.symm.trans hu)
    exact ⟨t', List.getElem?_set_self (List.getElem?_eq_some_iff.1 ht).1, hrequest, hvisited⟩
  · exact ⟨u, by rwa [List.getElem?_set_ne hij], rfl, List.prefix_rfl⟩

theorem continues_create (s : Dht) (message : Message) (addr : SocketAddr) (sending : Sending) :
    Continues s (s.create message addr sending) := by
  refine ⟨?_, fun i t ht => ⟨t, ht, rfl, List.prefix_rfl⟩⟩
  intro num m hm
  change (s.created ++ [(message, addr)])[num]? = some m
  rw [List.getElem?_append_left (List.getElem?_eq_some_iff.1 hm).1]
  exact hm

theorem created_create_last (s : Dht) (message : Message) (addr : SocketAddr) (sending : Sending) :
    (s.create message addr sending).created[s.created.length]? = some (message, addr) :=
  List.getElem?_concat_length

theorem Ended.continues {i : ℕ} {loop : Loop} {visit : Visit} {outcome : RequestResult}
    (h : Ended i loop visit outcome s s') : Continues s s' ∧ s'.tasks = s.tasks ∧ s'.calls = s.calls := by
  cases h with
  | marked moved => exact ⟨.of_eq rfl rfl, rfl, rfl⟩
  | announced _ _ _ => exact ⟨s.continues_create _ _ _, rfl, rfl⟩

theorem Continues.setTask (hcreated : s'.created = s.created) {i : ℕ} {t : Task} {b : Loop.Action} {loop : Loop}
    (ht : s.tasks[i]? = some t) (hstep : t.loop.step b = .ok loop) (htasks : s'.tasks = s.tasks.set i { t with loop }) :
    Continues s s' := by
  refine .set ?_ ht htasks rfl (Loop.visited_prefix hstep)
  intro num m hm
  rwa [hcreated]

theorem Does.continues (hdoes : Does s a s') : Continues s s' := by
  cases hdoes with
  | @reply r msg addr reply kind =>
    obtain ⟨inflight, calls, heq⟩ := s.onReply_frame msg.transactionId addr reply
    rw [heq]
    exact .of_eq rfl rfl
  | @failed out queue tid queued ours =>
    obtain ⟨inflight, calls, heq⟩ := finish_frame { s with queue } (tid, out.addr) (.error .sendError)
    rw [heq]
    exact .of_eq rfl rfl
  | @refused p mem closed =>
    obtain ⟨inflight, calls, heq⟩ := refuse_frame { s with pending := s.pending.erase p } p
    rw [heq]
    exact .of_eq rfl rfl
  | ping | pingQuery | queried => exact s.continues_create _ _ _
  | getPeers | bootstrapHostname | refresh => exact .append rfl _ rfl
  | turned task turns stepped => exact .setTask rfl task stepped rfl
  | started task => exact .set (fun _ _ hm => hm) task rfl rfl List.prefix_rfl
  | firstReply task fut num_eq mem caller there first stepped ended =>
    obtain ⟨hc, htasks, _⟩ := ended.continues
    exact .set (fun n m hm => hc.created n m hm) task htasks rfl (Loop.visited_prefix stepped)
  | secondReply task fut num_eq mem caller there second stepped => exact .setTask rfl task stepped rfl
  | aborted p task stepped => exact .setTask rfl task stepped rfl
  | answer | sent | unsent | closed | inserted | handed | timedOut | senderDropped | pingReturns
  | refresherTick | pingerTick | pingStart | pingEnd | garbageCollectPeers | rehash => exact .of_eq rfl rfl

end Continues

section Calls
variable {C : Codec} {s₀ s s' : Dht} {js : List Action} {a : Action}

/-- A call of `request` that is not over. -/
def Calling (s : Dht) (w : Waiting) (caller : Caller) : Prop :=
  (∃ c ∈ s.calls, c.toWaiting = w ∧ c.caller = caller) ∨
    ∃ p ∈ s.pending, p.toWaiting = w ∧ p.sending.caller = some caller

/-- Who calls `request` in the action, and what for. -/
inductive Requests (s : Dht) : Action → Caller → Request → SocketAddr → Prop where
  | ping {addr : SocketAddr} : Requests s (.ping addr) .ping .ping addr
  | pinger {p : Ping} (mem : p ∈ s.pings) : Requests s (.pingQuery p.num) (.pinger p.num) .ping p.contact.addr
  | visit {i : ℕ} {t : Task} {f : Fut} (task : s.tasks[i]? = some t) (fut : f ∈ t.loop.lookup.futs) :
      Requests s (.query i f.num) (.visit i f.num) t.request f.visit.addr

theorem Calling.of_kept {w : Waiting} {caller : Caller} (h : s'.Calling w caller)
    (hcalls : ∀ c ∈ s'.calls, ∃ d ∈ s.calls, d.toWaiting = c.toWaiting ∧ d.caller = c.caller)
    (hpending : ∀ p ∈ s'.pending, p ∈ s.pending) : s.Calling w caller := by
  rcases h with ⟨c, hc, rfl, rfl⟩ | ⟨p, hp, rfl, hcaller⟩
  · exact .inl (hcalls c hc)
  · exact .inr ⟨p, hpending p hp, rfl, hcaller⟩

theorem Calling.of_subset {w : Waiting} {caller : Caller} (h : s'.Calling w caller)
    (hcalls : ∀ c ∈ s'.calls, c ∈ s.calls) (hpending : ∀ p ∈ s'.pending, p ∈ s.pending) : s.Calling w caller :=
  h.of_kept (fun c hc => ⟨c, hcalls c hc, rfl, rfl⟩) hpending

theorem mem_complete {num : ℕ} {outcome : RequestOutcome} {c : Call} (hc : c ∈ (s.complete num outcome).calls) :
    c ∈ s.calls ∨ ∃ d ∈ s.calls, d.num = num ∧ c = { d with outcome := some outcome } := by
  obtain ⟨d, hd, rfl⟩ := List.mem_map.1 hc
  split_ifs with hwaits
  · exact .inr ⟨d, hd, hwaits.1, rfl⟩
  · exact .inl hd

theorem mem_refuse {p : Pending} {c : Call} (hc : c ∈ (s.refuse p).calls) :
    c ∈ s.calls ∨ ∃ d ∈ s.calls, d.num = p.num ∧ c = { d with outcome := some (.error .dhtDead) } := by
  unfold refuse at hc
  split at hc
  · obtain ⟨d, hd, rfl⟩ := List.mem_map.1 hc
    split_ifs with hnum
    · exact .inr ⟨d, hd, hnum, rfl⟩
    · exact .inl hd
  · exact .inl hc

theorem calls_complete (s : Dht) (num : ℕ) (outcome : RequestOutcome) (c : Call)
    (hc : c ∈ (s.complete num outcome).calls) : ∃ d ∈ s.calls, d.toWaiting = c.toWaiting ∧ d.caller = c.caller := by
  rcases mem_complete hc with hc | ⟨d, hd, _, rfl⟩
  · exact ⟨c, hc, rfl, rfl⟩
  · exact ⟨d, hd, rfl, rfl⟩

theorem calls_finish (s : Dht) (key : RequestKey) (outcome : RequestOutcome) (c : Call)
    (hc : c ∈ (s.finish key outcome).calls) : ∃ d ∈ s.calls, d.toWaiting = c.toWaiting ∧ d.caller = c.caller := by
  rcases s.finish_cases key outcome with heq | ⟨num, _, heq⟩
  · rw [heq] at hc
    exact ⟨c, hc, rfl, rfl⟩
  · rw [heq] at hc
    exact calls_complete _ num outcome c hc

theorem pending_finish (s : Dht) (key : RequestKey) (outcome : RequestOutcome) :
    (s.finish key outcome).pending = s.pending := by
  obtain ⟨inflight, calls, heq⟩ := s.finish_frame key outcome
  rw [heq]

theorem calling_finish {key : RequestKey} {outcome : RequestOutcome} {w : Waiting} {caller : Caller}
    (h : (s.finish key outcome).Calling w caller) : s.Calling w caller :=
  h.of_kept (s.calls_finish key outcome) (fun _ hp => s.pending_finish key outcome ▸ hp)

theorem calling_request {request : Request} {addr : SocketAddr} {caller caller' : Caller} {w : Waiting}
    (h : (s.request request addr caller').Calling w caller) : s.Calling w caller ∨
      caller = caller' ∧ w = ⟨s.created.length, (s.nextTransactionId, addr)⟩ := by
  rcases h with hcall | ⟨p, hp, rfl, hcaller⟩
  · exact .inl (.inl hcall)
  rcases List.mem_append.1 hp with hp | hp
  · exact .inl (.inr ⟨p, hp, rfl, hcaller⟩)
  · cases List.mem_singleton.1 hp
    cases hcaller
    exact .inr ⟨rfl, rfl⟩

theorem calling_inserted {p : Pending} {caller caller' : Caller} {w : Waiting} (mem : p ∈ s.pending)
    (sending_eq : p.sending = .request caller' false)
    (h : Calling { s with
      inflight := s.inflight.insert p.key p.num
      calls := s.calls ++ [⟨p.toWaiting, caller', none⟩]
      pending := s.pending.erase p ++ [{ p with sending := .request caller' true }] } w caller) :
    s.Calling w caller := by
  have hp : s.Calling p.toWaiting caller' := .inr ⟨p, mem, rfl, by rw [sending_eq]; rfl⟩
  rcases h with ⟨c, hc, rfl, rfl⟩ | ⟨q, hq, rfl, hcaller⟩
  · rcases List.mem_append.1 hc with hc | hc
    · exact .inl ⟨c, hc, rfl, rfl⟩
    · cases List.mem_singleton.1 hc
      exact hp
  · rcases List.mem_append.1 hq with hq | hq
    · exact .inr ⟨q, List.mem_of_mem_erase hq, rfl, hcaller⟩
    · cases List.mem_singleton.1 hq
      cases hcaller
      exact hp

theorem calling_create {message : Message} {addr : SocketAddr} {i : ℕ} {w : Waiting} {caller : Caller}
    (h : (s.create message addr (.announce i)).Calling w caller) : s.Calling w caller := by
  rcases h with hcall | ⟨p, hp, rfl, hcaller⟩
  · exact .inl hcall
  rcases List.mem_append.1 hp with hp | hp
  · exact .inr ⟨p, hp, rfl, hcaller⟩
  · cases List.mem_singleton.1 hp
    cases hcaller

theorem Does.calling (hdoes : Does s a s') {w : Waiting} {caller : Caller} (h : s'.Calling w caller) :
    s.Calling w caller ∨ ∃ request addr, Requests s a caller request addr ∧
      w = ⟨s.created.length, (s.nextTransactionId, addr)⟩ ∧ s' = s.request request addr caller := by
  cases hdoes with
  | @reply r msg addr reply kind =>
    rcases s.onReply_cases msg.transactionId addr reply with heq | ⟨tid, _, heq⟩
    · rw [heq] at h
      exact .inl h
    · rw [heq] at h
      exact .inl (calling_finish h)
  | @failed out queue tid queued ours => exact .inl (calling_finish (s := { s with queue }) h)
  | inserted mem sending_eq => exact .inl (calling_inserted mem sending_eq h)
  | handed mem is_open => exact .inl (h.of_subset (fun _ hc => hc) (fun _ hp => List.mem_of_mem_erase hp))
  | @refused p mem closed =>
    refine .inl (h.of_kept ?_ ?_)
    · intro c hc
      rcases mem_refuse hc with hc | ⟨d, hd, _, rfl⟩
      · exact ⟨c, hc, rfl, rfl⟩
      · exact ⟨d, hd, rfl, rfl⟩
    · intro q hq
      obtain ⟨inflight, calls, heq⟩ := refuse_frame { s with pending := s.pending.erase p } p
      rw [heq] at hq
      exact List.mem_of_mem_erase hq
  | @timedOut c mem waits => exact .inl (h.of_kept (calls_complete s c.num _) (fun _ hp => hp))
  | @senderDropped c mem waits gone => exact .inl (h.of_kept (calls_complete s c.num _) (fun _ hp => hp))
  | @ping addr =>
    rcases calling_request h with hold | ⟨rfl, rfl⟩
    · exact .inl hold
    · exact .inr ⟨_, addr, .ping, rfl, rfl⟩
  | pingQuery mem idle =>
    rcases calling_request h with hold | ⟨rfl, rfl⟩
    · exact .inl hold
    · exact .inr ⟨_, _, .pinger mem, rfl, rfl⟩
  | queried task fut num_eq started idle =>
    subst num_eq
    rcases calling_request h with hold | ⟨rfl, rfl⟩
    · exact .inl hold
    · exact .inr ⟨_, _, .visit task fut, rfl, rfl⟩
  | closed | pingReturns | pingEnd =>
    exact .inl (h.of_subset (fun _ hc => List.mem_of_mem_filter hc) (fun _ hp => hp))
  | @firstReply i num now marked t f c outcome loop _ task fut num_eq mem caller there first stepped ended =>
    cases ended with
    | marked moved => exact .inl (h.of_subset (fun _ hc => List.mem_of_mem_filter hc) (fun _ hp => hp))
    | announced loop_eq id_eq message_eq =>
      have hbefore := calling_create h
      exact .inl (hbefore.of_subset (fun _ hc => List.mem_of_mem_filter hc) (fun _ hp => hp))
  | secondReply | aborted => exact .inl (h.of_subset (fun _ hc => List.mem_of_mem_filter hc) (fun _ hp => hp))
  | answer | sent | unsent | getPeers | bootstrapHostname | refresherTick | refresh | pingerTick
  | pingStart | turned | started | garbageCollectPeers | rehash => exact .inl h

def Numbered (created : List (Message × SocketAddr)) (w : Waiting) : Prop :=
  w.key.1 = transaction w.num ∧ ∃ message, created[w.num]? = some (message, w.key.2)

theorem Numbered.key_eq {created : List (Message × SocketAddr)} {w w' : Waiting} (h : Numbered created w)
    (h' : Numbered created w') (hnum : w.num = w'.num) : w.key = w'.key := by
  obtain ⟨htid, message, hcreated⟩ := h
  obtain ⟨htid', message', hcreated'⟩ := h'
  rw [hnum] at htid hcreated
  exact Prod.ext (htid.trans htid'.symm) (Prod.ext_iff.1 (Option.some.inj (hcreated.symm.trans hcreated'))).2

def Explained (C : Codec) (s₀ : Dht) (js : List Action) (created : List (Message × SocketAddr)) (w : Waiting)
    (outcome : RequestOutcome) : Prop :=
  ∃ message, created[w.num]? = some (message, w.key.2) ∧ Caused C s₀ js w.num (message, w.key.2) outcome

structure Matched (C : Codec) (s₀ : Dht) (js : List Action) (s : Dht) : Prop where
  inflight : ∀ key num, s.inflight.get? key = some num → Numbered s.created ⟨num, key⟩
  calling : ∀ w caller, s.Calling w caller → Numbered s.created w
  outcomes : ∀ c ∈ s.calls, ∀ outcome, c.outcome = some outcome →
    Explained C s₀ js s.created c.toWaiting outcome

theorem Matched.numbered (h : Matched C s₀ js s) {c : Call} (hc : c ∈ s.calls) : Numbered s.created c.toWaiting :=
  h.calling c.toWaiting c.caller (.inl ⟨c, hc, rfl, rfl⟩)

/-- An outcome that a call of the number gets is explained by what happened to the message of the number. -/
theorem Matched.complete_explained (h : Matched C s₀ js s) {num : ℕ} {outcome : RequestOutcome}
    (caused : ∀ m, s.created[num]? = some m → Numbered s.created ⟨num, (transaction num, m.2)⟩ →
      Caused C s₀ (js ++ [a]) num m outcome) {d : Call} (hd : d ∈ s.calls) (hnum : d.num = num) :
    Explained C s₀ (js ++ [a]) s.created d.toWaiting outcome := by
  obtain ⟨htid, message, hcreated⟩ := h.numbered hd
  subst hnum
  exact ⟨message, hcreated, caused _ hcreated ⟨rfl, message, hcreated⟩⟩

theorem Matched.finish_explained (h : Matched C s₀ js s) {key : RequestKey} {outcome : RequestOutcome}
    (caused : ∀ num m, s.created[num]? = some m → key = (transaction num, m.2) → s.inflight.get? key = some num →
      Caused C s₀ (js ++ [a]) num m outcome) {c : Call} (hc : c ∈ (s.finish key outcome).calls) :
    c ∈ s.calls ∨ ∀ outcome', c.outcome = some outcome' →
      Explained C s₀ (js ++ [a]) s.created c.toWaiting outcome' := by
  rcases s.finish_cases key outcome with heq | ⟨num, hget, heq⟩
  · rw [heq] at hc
    exact .inl hc
  rw [heq] at hc
  rcases mem_complete hc with hc | ⟨d, hd, hnum, rfl⟩
  · exact .inl hc
  · right
    rintro _ ⟨⟩
    refine h.complete_explained (d := d) ?_ hd hnum
    intro m hcreated hnumbered
    exact caused num m hcreated ((h.inflight key num hget).key_eq hnumbered rfl) hget

theorem Matched.giveUp_explained (h : Matched C s₀ js s) {e : RequestError} {d : Call}
    (caused : ∀ m, s.created[d.num]? = some m → Numbered s.created ⟨d.num, (transaction d.num, m.2)⟩ →
      Caused C s₀ (js ++ [a]) d.num m (.error e)) {c : Call} (hc : c ∈ (s.giveUp d e).calls) :
    c ∈ s.calls ∨ ∀ outcome', c.outcome = some outcome' →
      Explained C s₀ (js ++ [a]) s.created c.toWaiting outcome' := by
  rcases mem_complete hc with hc | ⟨b, hb, hnum, rfl⟩
  · exact .inl hc
  · right
    rintro _ ⟨⟩
    exact h.complete_explained (d := b) caused hb hnum

theorem Matched.explained (h : Matched C s₀ js s) (run : Run (Step C) s₀ js s) (hdoes : Does s a s') :
    ∀ c ∈ s'.calls, c ∈ s.calls ∨ ∀ outcome, c.outcome = some outcome →
      Explained C s₀ (js ++ [a]) s.created c.toWaiting outcome := by
  have hlast : a ∈ js ++ [a] := List.mem_append_right js (List.mem_singleton_self a)
  intro c hc
  cases hdoes with
  | @reply r msg addr reply kind =>
    rcases s.onReply_cases msg.transactionId addr reply with heq | ⟨tid, hours, heq⟩
    · rw [heq] at hc
      exact .inl hc
    rw [heq] at hc
    refine h.finish_explained ?_ hc
    rintro num m hcreated hkey hget
    obtain ⟨rfl, rfl⟩ := Prod.mk.inj hkey
    exact .reply ⟨s, r, msg, run.did _, hcreated, hget, hours, kind⟩
  | @failed out queue tid queued ours =>
    have hqueue : Matched C s₀ js { s with queue } := ⟨h.inflight, h.calling, h.outcomes⟩
    refine hqueue.finish_explained ?_ hc
    intro num m hcreated hkey hget
    obtain ⟨rfl, haddr⟩ := Prod.mk.inj hkey
    rw [haddr] at hget
    exact .sendError (run.did _) queued ours haddr hget
  | @refused p mem closed =>
    have hpending : Matched C s₀ js { s with pending := s.pending.erase p } :=
      ⟨h.inflight, fun w caller hw => h.calling w caller (hw.of_subset (fun _ hc => hc) fun _ => List.mem_of_mem_erase),
        h.outcomes⟩
    rcases mem_refuse hc with hc | ⟨d, hd, hnum, rfl⟩
    · exact .inl hc
    · right
      rintro _ ⟨⟩
      exact hpending.complete_explained (d := d) (fun m _ _ => .refused (run.did _) closed) hd hnum
  | @timedOut d mem waits => exact h.giveUp_explained (fun m _ _ => .responseTimeout hlast) hc
  | @senderDropped d mem waits gone =>
    refine h.giveUp_explained (fun m _ hnumbered => .senderDropped (run.did _) ?_) hc
    have hkey : d.key = (transaction d.num, m.2) := (h.numbered mem).key_eq hnumbered rfl
    rwa [← hkey]
  | inserted mem sending_eq =>
    rcases List.mem_append.1 hc with hc | hc
    · exact .inl hc
    · right
      rw [List.mem_singleton.1 hc]
      nofun
  | @firstReply i num now marked t f c outcome loop _ task fut num_eq mem caller there first stepped ended =>
    rw [ended.continues.2.2] at hc
    exact .inl (List.mem_of_mem_filter hc)
  | closed | pingReturns | pingEnd | secondReply | aborted => exact .inl (List.mem_of_mem_filter hc)
  | answer | sent | unsent | handed | ping | pingQuery | queried | getPeers | bootstrapHostname
  | refresherTick | refresh | pingerTick | pingStart | turned | started | garbageCollectPeers | rehash =>
    exact .inl hc

theorem held_finish (s : Dht) (key : RequestKey) (outcome : RequestOutcome) {key' : RequestKey} {num : ℕ}
    (h : (s.finish key outcome).inflight.get? key' = some num) : s.inflight.get? key' = some num := by
  rcases s.finish_cases key outcome with heq | ⟨num, _, heq⟩
  · rwa [heq] at h
  · rw [heq] at h
    exact ((s.inflight.get?_remove_eq_some_iff).1 h).2

theorem held_refuse (s : Dht) (p : Pending) {key : RequestKey} {num : ℕ}
    (h : (s.refuse p).inflight.get? key = some num) : s.inflight.get? key = some num := by
  unfold refuse at h
  split at h
  · exact ((s.inflight.get?_remove_eq_some_iff).1 h).2
  · exact h

theorem Does.held (hdoes : Does s a s') {key : RequestKey} {num : ℕ} (h : s'.inflight.get? key = some num) :
    s.inflight.get? key = some num ∨ ∃ caller, s.Calling ⟨num, key⟩ caller := by
  cases hdoes with
  | @reply r msg addr reply kind =>
    rcases s.onReply_cases msg.transactionId addr reply with heq | ⟨tid, _, heq⟩
    · rw [heq] at h
      exact .inl h
    · rw [heq] at h
      exact .inl (s.held_finish _ _ h)
  | @failed out queue tid queued ours => exact .inl (held_finish { s with queue } _ _ h)
  | @refused p mem closed => exact .inl (held_refuse { s with pending := s.pending.erase p } p h)
  | @inserted p caller mem sending_eq =>
    by_cases hkey : key = p.key
    · subst hkey
      change (s.inflight.insert p.key p.num).get? p.key = some num at h
      rw [AssocMap.get?_insert_self] at h
      cases h
      exact .inr ⟨caller, .inr ⟨p, mem, rfl, by rw [sending_eq]; rfl⟩⟩
    · change (s.inflight.insert p.key p.num).get? key = some num at h
      rw [s.inflight.get?_insert_of_ne _ hkey] at h
      exact .inl h
  | timedOut mem waits => exact .inl ((s.inflight.get?_remove_eq_some_iff).1 h).2
  | senderDropped mem waits gone => exact .inl ((s.inflight.get?_remove_eq_some_iff).1 h).2
  | firstReply task fut num_eq mem caller there first stepped ended =>
    cases ended with
    | marked moved => exact .inl h
    | announced loop_eq id_eq message_eq => exact .inl h
  | closed | pingReturns | pingEnd | secondReply | aborted | answer | sent | unsent | handed | ping
  | pingQuery | queried | getPeers | bootstrapHostname | refresherTick | refresh | pingerTick | pingStart
  | turned | started | garbageCollectPeers | rehash => exact .inl h

theorem Continues.numbered (hc : Continues s s') {w : Waiting} (h : Numbered s.created w) : Numbered s'.created w := by
  obtain ⟨htid, message, hcreated⟩ := h
  exact ⟨htid, message, hc.created _ _ hcreated⟩

theorem Matched.step (h : Matched C s₀ js s) (htid : s.nextTransactionId = transaction s.created.length)
    (run : Run (Step C) s₀ js s) (hdoes : Does s a s') : Matched C s₀ (js ++ [a]) s' := by
  have hc := hdoes.continues
  constructor
  · intro key num hget
    rcases hdoes.held hget with hheld | ⟨caller, hcalling⟩
    · exact hc.numbered (h.inflight key num hheld)
    · exact hc.numbered (h.calling _ caller hcalling)
  · intro w caller hcalling
    rcases hdoes.calling hcalling with hold | ⟨request, addr, _, rfl, rfl⟩
    · exact hc.numbered (h.calling w caller hold)
    · exact ⟨htid, _, s.created_create_last _ addr _⟩
  · intro c hcall outcome houtcome
    rcases h.explained run hdoes c hcall with hold | hnew
    · obtain ⟨message, hcreated, hcaused⟩ := h.outcomes c hold outcome houtcome
      exact ⟨message, hc.created _ _ hcreated, hcaused.mono (List.prefix_append js [a])⟩
    · obtain ⟨message, hcreated, hcaused⟩ := hnew outcome houtcome
      exact ⟨message, hc.created _ _ hcreated, hcaused⟩

end Calls

end Dht
end LibrtbitDht
