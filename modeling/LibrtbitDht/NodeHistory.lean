import LibrtbitDht.RoutingTable

set_option autoImplicit false

namespace LibrtbitDht
open TransitionRuns

inductive NodeEvent where
  | request (now : Instant)
  | response (now : Instant)
  | error
  | query (now : Instant)
deriving DecidableEq, Repr

namespace NodeEvent

def time : NodeEvent → Option Instant
  | request now => some now
  | response now => some now
  | error => none
  | query now => some now

def mark : NodeEvent → RoutingTableNode → RoutingTableNode
  | request now => RoutingTableNode.markOutgoingRequest now
  | response now => RoutingTableNode.markResponse now
  | error => RoutingTableNode.markError
  | query now => RoutingTableNode.markLastQuery now

def requestTime : NodeEvent → Option Instant
  | request now => some now
  | _ => none

def responseTime : NodeEvent → Option Instant
  | response now => some now
  | _ => none

def queryTime : NodeEvent → Option Instant
  | query now => some now
  | _ => none

def isError : NodeEvent → Bool
  | error => true
  | _ => false

def isResponse : NodeEvent → Bool
  | response _ => true
  | _ => false

theorem requestTime_eq_some {e : NodeEvent} {t : Instant} : e.requestTime = some t ↔ e = .request t := by
  cases e <;> simp [requestTime]

theorem responseTime_eq_some {e : NodeEvent} {t : Instant} : e.responseTime = some t ↔ e = .response t := by
  cases e <;> simp [responseTime]

theorem queryTime_eq_some {e : NodeEvent} {t : Instant} : e.queryTime = some t ↔ e = .query t := by
  cases e <;> simp [queryTime]

end NodeEvent

open NodeEvent

namespace RoutingTableNode

def after (n : RoutingTableNode) (events : List NodeEvent) : RoutingTableNode :=
  events.foldl (fun n e => e.mark n) n

def recorded (id : Id20) (addr : SocketAddr) (events : List NodeEvent) : RoutingTableNode where
  id
  addr
  lastRequest := (latest requestTime events).or (events.findSome? responseTime)
  lastResponse := latest responseTime events
  lastQuery := latest queryTime events
  errorsInARow := streak isError isResponse events

theorem recorded_snoc (id : Id20) (addr : SocketAddr) (events : List NodeEvent) (e : NodeEvent) :
    recorded id addr (events ++ [e]) = e.mark (recorded id addr events) := by
  unfold recorded
  rw [latest_snoc, latest_snoc, latest_snoc, streak_snoc, List.findSome?_append]
  cases e with
  | request now => simp [requestTime, responseTime, queryTime, isError, isResponse, mark, markOutgoingRequest]
  | response now =>
    cases latest requestTime events <;> cases events.findSome? responseTime <;>
      simp [requestTime, responseTime, queryTime, isError, isResponse, mark, markResponse]
  | error => simp [requestTime, responseTime, queryTime, isError, mark, markError]
  | query now => simp [requestTime, responseTime, queryTime, isError, isResponse, mark, markLastQuery]

theorem fresh_after (id : Id20) (addr : SocketAddr) (events : List NodeEvent) :
    (fresh id addr).after events = recorded id addr events := by
  unfold after
  exact foldl_history (fun n e => mark e n) (fun events n => n = recorded id addr events) rfl
    (fun js v e _ h => by rw [h, recorded_snoc]) events

section Status
variable {n : RoutingTableNode} {now : Instant}

theorem status_bad_iff : n.status now = .bad ↔ n.lastRequest.isSome ∧ 2 ≤ n.errorsInARow := by
  rw [← isBad_iff n now, isBad, decide_eq_true_iff]

theorem status_good_iff (responded : n.lastResponse.isSome → n.lastRequest.isSome) :
    n.status now = .good ↔ n.status now ≠ .bad ∧ n.lastResponse.isSome ∧
      (n.lastResponse.any (recent now) ∨ n.lastQuery.any (recent now)) := by
  have hsome : n.lastResponse.any (recent now) = true → n.lastResponse.isSome := by
    intro hany
    obtain ⟨t, ht, _⟩ := (Option.any_eq_true _ _).1 hany
    rw [ht, Option.isSome_some]
  unfold status
  split_ifs with h1 h2 h3 h4 h5
  · simp
  · grind
  · grind
  · grind
  · grind
  · grind

theorem status_questionable_iff : n.status now = .questionable ↔ n.status now ≠ .bad ∧ n.status now ≠ .good ∧
    n.lastRequest.all (stale now) ∧ (n.lastQuery.any (stale now) ∨ n.lastResponse.any (stale now)) := by
  unfold status
  split_ifs with h1 h2 h3 h4 h5
  · simp
  · simp
  · simp
  · grind
  · grind
  · grind

theorem recent_iff {t : Option Instant} : t.any (recent now) ↔ ∃ u, t = some u ∧ now - u < inactivityTimeout := by
  simp [Option.any_eq_true, recent]

theorem stale_iff {t : Option Instant} : t.any (stale now) ↔ ∃ u, t = some u ∧ inactivityTimeout < now - u := by
  simp [Option.any_eq_true, stale]

end Status

section History
variable {events : List NodeEvent}

/-- Since the last response, or since the insertion, there were two errors. -/
def TwoErrors (events : List NodeEvent) : Prop :=
  ∃ before since, events = before ++ since ∧ (∀ t, .response t ∉ since) ∧ 2 ≤ since.countP isError

def ActiveAt (events : List NodeEvent) (t : Instant) : Prop :=
  .request t ∈ events ∨ .response t ∈ events ∨ .query t ∈ events

theorem twoErrors_iff : TwoErrors events ↔ 2 ≤ streak isError isResponse events := by
  constructor
  · rintro ⟨before, since, rfl, hquiet, htwo⟩
    refine htwo.trans (countP_le_streak isError isResponse ?_)
    intro e he
    cases e with
    | response t => exact absurd he (hquiet t)
    | request t => rfl
    | error => rfl
    | query t => rfl
  · intro h
    obtain ⟨before, i, between, j, after, rfl, hi, hj, hquiet⟩ := two_le_streak _ _ h
    refine ⟨before, i :: between ++ j :: after, by simp, ?_, ?_⟩
    · intro t ht
      rcases List.mem_append.1 ht with ht | ht
      · rcases List.mem_cons.1 ht with rfl | ht
        · cases hi
        · cases hquiet _ (List.mem_append_left _ ht)
      · rcases List.mem_cons.1 ht with rfl | ht
        · cases hj
        · cases hquiet _ (List.mem_append_right _ ht)
    · rw [List.countP_append, List.countP_cons_of_pos hi, List.countP_cons_of_pos hj]
      omega

theorem latest_isSome_iff {record : NodeEvent → Option Instant} :
    (latest record events).isSome ↔ ∃ t, ∃ e ∈ events, record e = some t := by
  rw [latest, List.getLast?_isSome, Ne, List.filterMap_eq_nil_iff]
  constructor
  · intro h
    push Not at h
    obtain ⟨e, he, hsome⟩ := h
    obtain ⟨t, ht⟩ := Option.ne_none_iff_exists'.1 hsome
    exact ⟨t, e, he, ht⟩
  · rintro ⟨t, e, he, ht⟩ hnone
    rw [hnone e he] at ht
    cases ht

theorem recorded_responded {id : Id20} {addr : SocketAddr} :
    (recorded id addr events).lastResponse.isSome ↔ ∃ t, .response t ∈ events := by
  change (latest responseTime events).isSome ↔ _
  simp only [latest_isSome_iff, responseTime_eq_some, exists_eq_right]

theorem recorded_requested {id : Id20} {addr : SocketAddr} :
    (recorded id addr events).lastRequest.isSome ↔ ∃ t, .request t ∈ events ∨ .response t ∈ events := by
  change ((latest requestTime events).or (events.findSome? responseTime)).isSome ↔ _
  rw [Option.isSome_or, Bool.or_eq_true, latest_isSome_iff, List.findSome?_isSome_iff]
  simp only [requestTime_eq_some, exists_eq_right, Option.isSome_iff_exists, responseTime_eq_some, exists_or]
  refine or_congr_right ?_
  constructor
  · rintro ⟨e, he, t, rfl⟩
    exact ⟨t, he⟩
  · rintro ⟨t, ht⟩
    exact ⟨_, ht, t, rfl⟩

theorem mem_of_lastRequest {id : Id20} {addr : SocketAddr} {t : Instant}
    (h : (recorded id addr events).lastRequest = some t) : .request t ∈ events ∨ .response t ∈ events := by
  rcases Option.or_eq_some_iff.1 h with h | ⟨_, h⟩
  · obtain ⟨e, he, ht⟩ := exists_of_latest h
    exact .inl (requestTime_eq_some.1 ht ▸ he)
  · obtain ⟨e, he, ht⟩ := List.exists_of_findSome?_eq_some h
    exact .inr (responseTime_eq_some.1 ht ▸ he)

def Ascending (events : List NodeEvent) : Prop := (events.filterMap NodeEvent.time).Pairwise (· ≤ ·)

theorem Ascending.exists_latest_ge (h : Ascending events) {record : NodeEvent → Option Instant}
    (timed : ∀ e t, record e = some t → e.time = some t) {e : NodeEvent} {t : Instant} (he : e ∈ events)
    (ht : record e = some t) : ∃ last, latest record events = some last ∧ t ≤ last := by
  refine TransitionRuns.exists_latest_ge ?_ he ht
  unfold Ascending at h
  rw [List.pairwise_filterMap] at h ⊢
  exact h.imp fun hab u hu w hw => hab u (timed _ u hu) w (timed _ w hw)

structure StatusLaw (events : List NodeEvent) (now : Instant) (status : NodeStatus) : Prop where
  bad_iff : status = .bad ↔ TwoErrors events ∧ ∃ t, .request t ∈ events ∨ .response t ∈ events
  good_iff : status = .good ↔ status ≠ .bad ∧ (∃ t, .response t ∈ events) ∧
    ((∃ t, latest responseTime events = some t ∧ now - t < inactivityTimeout) ∨
      ∃ t, latest queryTime events = some t ∧ now - t < inactivityTimeout)
  questionable : status ≠ .bad → (∃ t, .response t ∈ events ∨ .query t ∈ events) →
    (∀ t, ActiveAt events t → inactivityTimeout < now - t) → status = .questionable
  active : ∀ t, ActiveAt events t → now - t < inactivityTimeout → status ≠ .questionable
  answered : ∀ before t since, events = before ++ .response t :: since → now - t < inactivityTimeout →
    since.countP isError < 2 → status = .good

section Law
variable (id : Id20) (addr : SocketAddr) {now : Instant}

theorem recorded_bad_iff : (recorded id addr events).status now = .bad ↔
    TwoErrors events ∧ ∃ t, .request t ∈ events ∨ .response t ∈ events := by
  rw [status_bad_iff, recorded_requested, twoErrors_iff, and_comm]
  rfl

theorem recorded_good_iff : (recorded id addr events).status now = .good ↔
    (recorded id addr events).status now ≠ .bad ∧ (∃ t, .response t ∈ events) ∧
      ((∃ t, latest responseTime events = some t ∧ now - t < inactivityTimeout) ∨
        ∃ t, latest queryTime events = some t ∧ now - t < inactivityTimeout) := by
  have responded : (recorded id addr events).lastResponse.isSome → (recorded id addr events).lastRequest.isSome := by
    rw [recorded_responded, recorded_requested]
    rintro ⟨t, ht⟩
    exact ⟨t, .inr ht⟩
  rw [status_good_iff responded, recorded_responded, recent_iff, recent_iff]
  rfl

/-- Without a recent sign of life an entry is not good, and the signs of life are stale. -/
theorem recorded_questionable (notBad : (recorded id addr events).status now ≠ .bad)
    (alive : ∃ t, .response t ∈ events ∨ .query t ∈ events)
    (old : ∀ t, ActiveAt events t → inactivityTimeout < now - t) :
    (recorded id addr events).status now = .questionable := by
  have hresponse : ∀ t, latest responseTime events = some t → inactivityTimeout < now - t := by
    intro t ht
    obtain ⟨e, he, het⟩ := exists_of_latest ht
    exact old t (.inr (.inl (responseTime_eq_some.1 het ▸ he)))
  have hquery : ∀ t, latest queryTime events = some t → inactivityTimeout < now - t := by
    intro t ht
    obtain ⟨e, he, het⟩ := exists_of_latest ht
    exact old t (.inr (.inr (queryTime_eq_some.1 het ▸ he)))
  refine status_questionable_iff.2 ⟨notBad, ?_, ?_, ?_⟩
  · intro hgood
    obtain ⟨_, _, hrecent | hrecent⟩ := (recorded_good_iff id addr).1 hgood
    · obtain ⟨t, ht, hlt⟩ := hrecent
      exact lt_asymm hlt (hresponse t ht)
    · obtain ⟨t, ht, hlt⟩ := hrecent
      exact lt_asymm hlt (hquery t ht)
  · rw [Option.all_eq_true]
    intro t ht
    rcases mem_of_lastRequest ht with hmem | hmem
    · simpa [stale] using old t (.inl hmem)
    · simpa [stale] using old t (.inr (.inl hmem))
  · rw [stale_iff, stale_iff]
    obtain ⟨t, hmem | hmem⟩ := alive
    · right
      have hresponded : (recorded id addr events).lastResponse.isSome := recorded_responded.2 ⟨t, hmem⟩
      obtain ⟨u, hu⟩ := Option.isSome_iff_exists.1 hresponded
      exact ⟨u, hu, hresponse u hu⟩
    · left
      obtain ⟨u, hu⟩ := Option.isSome_iff_exists.1
        (latest_isSome_iff.2 ⟨t, _, hmem, queryTime_eq_some.2 rfl⟩)
      exact ⟨u, hu, hquery u hu⟩

theorem recorded_not_questionable (ascending : Ascending events) {t : Instant} (active : ActiveAt events t)
    (young : now - t < inactivityTimeout) : (recorded id addr events).status now ≠ .questionable := by
  intro hquestionable
  obtain ⟨hbad, hgood, hall, hany⟩ := status_questionable_iff.1 hquestionable
  rw [Ne, recorded_good_iff] at hgood
  have hyoung : ∀ u, t ≤ u → now - u < inactivityTimeout := fun u hu => (Nat.sub_le_sub_left hu now).trans_lt young
  have hquiet : ∀ u, latest responseTime events = some u → ¬ now - u < inactivityTimeout := by
    intro u hu hlt
    obtain ⟨e, he, het⟩ := exists_of_latest hu
    exact hgood ⟨hbad, ⟨u, responseTime_eq_some.1 het ▸ he⟩, .inl ⟨u, hu, hlt⟩⟩
  rcases active with hmem | hmem | hmem
  · obtain ⟨u, hu, hle⟩ := ascending.exists_latest_ge (fun e t h => by rw [requestTime_eq_some.1 h]; rfl) hmem
      (requestTime_eq_some.2 rfl)
    have hlast : (recorded id addr events).lastRequest = some u := Option.or_eq_some_iff.2 (.inl hu)
    have hstale : stale now u = true := (Option.all_eq_true _ _).1 hall u hlast
    exact lt_asymm (hyoung u hle) (of_decide_eq_true hstale)
  · obtain ⟨u, hu, hle⟩ := ascending.exists_latest_ge (fun e t h => by rw [responseTime_eq_some.1 h]; rfl) hmem
      (responseTime_eq_some.2 rfl)
    exact hquiet u hu (hyoung u hle)
  · obtain ⟨u, hu, hle⟩ := ascending.exists_latest_ge (fun e t h => by rw [queryTime_eq_some.1 h]; rfl) hmem
      (queryTime_eq_some.2 rfl)
    rw [stale_iff, stale_iff] at hany
    rcases hany with ⟨w, hw, hlt⟩ | ⟨w, hw, _⟩
    · cases Option.some.inj (hu.symm.trans hw)
      exact lt_asymm (hyoung u hle) hlt
    · -- the query is recent, so that a response at any time would make the entry good
      obtain ⟨e, he, het⟩ := exists_of_latest hw
      exact hgood ⟨hbad, ⟨w, responseTime_eq_some.1 het ▸ he⟩, .inr ⟨u, hu, hyoung u hle⟩⟩

theorem recorded_answered {before since : List NodeEvent} {t : Instant}
    (ascending : Ascending (before ++ .response t :: since)) (young : now - t < inactivityTimeout)
    (few : since.countP isError < 2) : (recorded id addr (before ++ .response t :: since)).status now = .good := by
  have hmem : .response t ∈ before ++ .response t :: since := List.mem_append_right _ List.mem_cons_self
  refine (recorded_good_iff id addr).2 ⟨?_, ⟨t, hmem⟩, .inl ?_⟩
  · intro hbad
    have htwo := twoErrors_iff.1 ((recorded_bad_iff id addr).1 hbad).1
    have hfew := streak_reset_le isError isResponse before since (i := .response t) rfl rfl
    omega
  · obtain ⟨u, hu, hle⟩ := ascending.exists_latest_ge (fun e t h => by rw [responseTime_eq_some.1 h]; rfl) hmem
      (responseTime_eq_some.2 rfl)
    exact ⟨u, hu, (Nat.sub_le_sub_left hle now).trans_lt young⟩

theorem recorded_statusLaw (ascending : Ascending events) (now : Instant) :
    StatusLaw events now ((recorded id addr events).status now) := by
  refine ⟨recorded_bad_iff id addr, recorded_good_iff id addr, recorded_questionable id addr,
    fun t => recorded_not_questionable id addr ascending, ?_⟩
  rintro before t since rfl young few
  exact recorded_answered id addr ascending young few

/-- The status of an entry is what its history since the insertion says. -/
theorem status_history (events : List NodeEvent) (now : Instant) (ascending : Ascending events) :
    StatusLaw events now (((fresh id addr).after events).status now) := by
  rw [fresh_after]
  exact recorded_statusLaw id addr ascending now

/-- Sixteen minutes after a response, and seconds after a query, the entry is good. -/
theorem status_sampleHistory :
    StatusLaw [.request 0, .response 1, .error, .query 950000000000] 960000000001
      (((fresh 1 (.v4 ⟨1, 6881⟩)).after [.request 0, .response 1, .error, .query 950000000000]).status 960000000001) :=
  status_history 1 (.v4 ⟨1, 6881⟩) [.request 0, .response 1, .error, .query 950000000000] 960000000001
    (by unfold Ascending; decide)

end Law

end History

end RoutingTableNode

namespace RoutingTable
open RoutingTableNode

section Histories

/-- The identifier that an operation marks, and how. -/
def Op.mark : Op → Option (Id20 × NodeEvent)
  | .addNode _ _ _ => none
  | .markOutgoingRequest id now => some (id, .request now)
  | .markResponse id now => some (id, .response now)
  | .markError id => some (id, .error)
  | .markLastQuery id now => some (id, .query now)

/-- What an operation on the table is for the entry with this identifier. -/
def Op.event (id : Id20) (op : Op) : Option NodeEvent := (op.mark.filter (fun m => m.1 = id)).map Prod.snd

def Op.markTime (op : Op) : Option Instant := op.mark.bind (fun m => m.2.time)

theorem Op.event_time {id : Id20} {op : Op} {e : NodeEvent} (h : op.event id = some e) : e.time = op.markTime := by
  obtain ⟨m, hm, rfl⟩ := Option.map_eq_some_iff.1 h
  rw [Op.markTime, (Option.filter_eq_some_iff.1 hm).1, Option.bind_some]

theorem ascending_events {ops : List Op} (h : (ops.filterMap Op.markTime).Pairwise (· ≤ ·)) (id : Id20) :
    Ascending (ops.filterMap (Op.event id)) := by
  unfold Ascending
  rw [List.filterMap_filterMap, List.pairwise_filterMap]
  rw [List.pairwise_filterMap] at h
  refine h.imp fun hab u hu w hw => ?_
  obtain ⟨e, he, hu⟩ := Option.bind_eq_some_iff.1 hu
  obtain ⟨f, hf, hw⟩ := Option.bind_eq_some_iff.1 hw
  exact hab u (Op.event_time he ▸ hu) w (Op.event_time hf ▸ hw)

variable {rt rt' : RoutingTable}

/-- An entry was there before the operation and was marked by it, or it was inserted by it. -/
theorem Inv.step_entry (h : rt.Inv) {op : Op} (hs : Graph step rt op rt') {y : RoutingTableNode} (hy : y ∈ rt'.stored) :
    (∃ x ∈ rt.stored, x.id = y.id ∧ x.addr = y.addr ∧ y = x.after (op.event x.id).toList) ∨
      ∃ clock, op = .addNode y.id y.addr clock ∧ y = fresh y.id y.addr := by
  have hmark : ∀ (id : Id20) (refresh : Option Instant) (e : NodeEvent),
      (∀ x : RoutingTableNode, (e.mark x).id = x.id ∧ (e.mark x).addr = x.addr) →
      op.mark = some (id, e) →
      rt.step op = (rt.mark id refresh e.mark).map Prod.snd →
      ∃ x ∈ rt.stored, x.id = y.id ∧ x.addr = y.addr ∧ y = x.after (op.event x.id).toList := by
    intro id refresh e hkeeps hop hstep
    obtain ⟨found, t, hrun, _, _, _, _, _, hst, _⟩ := h.mark_cases id refresh e.mark fun x => (hkeeps x).1
    rw [TransitionRuns.Graph, hstep, hrun] at hs
    cases hs
    rw [hst, BucketTree.mem_rewriteId] at hy
    obtain ⟨x, hx, rfl⟩ := hy
    refine ⟨x, hx, ?_⟩
    rw [Op.event, hop, Option.filter_some]
    by_cases hid : x.id = id
    · rw [if_pos hid, if_pos (decide_eq_true hid.symm)]
      exact ⟨(hkeeps x).1.symm, (hkeeps x).2.symm, rfl⟩
    · rw [if_neg hid, if_neg (by simpa using Ne.symm hid)]
      exact ⟨rfl, rfl, rfl⟩
  cases op with
  | addNode id addr clock =>
    obtain ⟨res, t, hrun, _, _, _, hcase, _⟩ := h.addNode_cases id addr clock
    rw [TransitionRuns.Graph, step, hrun] at hs
    cases hs
    rcases hcase.mem_after hy with hx | ⟨rfl, _⟩
    · exact .inl ⟨y, hx, rfl, rfl, rfl⟩
    · exact .inr ⟨clock, rfl, rfl⟩
  | markOutgoingRequest id now => exact .inl (hmark id none (.request now) (fun _ => ⟨rfl, rfl⟩) rfl rfl)
  | markResponse id now => exact .inl (hmark id (some now) (.response now) (fun _ => ⟨rfl, rfl⟩) rfl rfl)
  | markError id => exact .inl (hmark id none .error (fun _ => ⟨rfl, rfl⟩) rfl rfl)
  | markLastQuery id now => exact .inl (hmark id none (.query now) (fun _ => ⟨rfl, rfl⟩) rfl rfl)

/-- The entry was inserted by one of the operations, and is what its marks since then say. -/
def EntryHistory (ops : List Op) (y : RoutingTableNode) : Prop :=
  ∃ before clock since, ops = before ++ .addNode y.id y.addr clock :: since ∧
    y = (fresh y.id y.addr).after (since.filterMap (Op.event y.id))

theorem Inv.entryHistory_step (h : rt.Inv) {op : Op} (hs : Graph step rt op rt') {ops : List Op}
    (hentries : ∀ x ∈ rt.stored, EntryHistory ops x) : ∀ y ∈ rt'.stored, EntryHistory (ops ++ [op]) y := by
  intro y hy
  rcases h.step_entry hs hy with ⟨x, hx, hid, haddr, hafter⟩ | ⟨clock, rfl, hfresh⟩
  · obtain ⟨before, clock, since, rfl, hxafter⟩ := hentries x hx
    refine ⟨before, clock, since ++ [op], by simp [hid, haddr], ?_⟩
    rw [filterMap_snoc, ← hid, ← haddr]
    unfold RoutingTableNode.after at hxafter ⊢
    rw [List.foldl_append, ← hxafter]
    exact hafter
  · exact ⟨ops, clock, [], rfl, hfresh⟩

theorem reaches_entry {selfId : Id20} {maxSize : Option ℕ} {clock : Instant} {ops : List Op}
    (run : (new selfId maxSize clock).Reaches ops rt) : ∀ y ∈ rt.stored, EntryHistory ops y := by
  have hboth : rt.Inv ∧ ∀ y ∈ rt.stored, EntryHistory ops y := by
    refine run.history (fun ops rt => rt.Inv ∧ ∀ y ∈ rt.stored, EntryHistory ops y) ?_ ?_
    · refine ⟨new_inv selfId maxSize clock, ?_⟩
      intro y hy
      cases hy
    · rintro js v w op _ ⟨inv, hentries⟩ hs
      exact ⟨(inv.graph_cases hs).1, inv.entryHistory_step hs hentries⟩
  exact hboth.2

/-- In a run with a clock that does not go backwards every entry has the status of its history. -/
theorem reaches_status {selfId : Id20} {maxSize : Option ℕ} {clock : Instant} {ops : List Op}
    (run : (new selfId maxSize clock).Reaches ops rt) (clocked : (ops.filterMap Op.markTime).Pairwise (· ≤ ·))
    (now : Instant) : ∀ y ∈ rt.stored, ∃ before clock' since, ops = before ++ .addNode y.id y.addr clock' :: since ∧
      StatusLaw (since.filterMap (Op.event y.id)) now (y.status now) := by
  intro y hy
  obtain ⟨before, clock', since, hsplit, hafter⟩ := reaches_entry run y hy
  refine ⟨before, clock', since, hsplit, ?_⟩
  have hsub : since.Sublist ops := by
    rw [hsplit]
    exact (List.sublist_cons_self _ since).trans (List.sublist_append_right before _)
  have hascending : Ascending (since.filterMap (Op.event y.id)) :=
    ascending_events (clocked.sublist (hsub.filterMap Op.markTime)) y.id
  have hlaw := recorded_statusLaw y.id y.addr hascending now
  rw [← fresh_after, ← hafter] at hlaw
  exact hlaw

end Histories
end RoutingTable
end LibrtbitDht
