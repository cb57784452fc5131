import LibrtbitDht.RequestTracking

set_option autoImplicit false

namespace LibrtbitDht
open TransitionRuns
namespace RequestTracking

/-- Calls whose request still waits or whose message is still queued. -/
def live (s : RequestTracking) : List ℕ :=
  s.waiting.map Waiting.num ++ s.queue.filterMap WorkerSendRequest.item

def Action.creates : Action → Bool
  | .request _ => true
  | .announce _ => true
  | _ => false

def Action.isCancel : Action → Bool
  | .cancel _ => true
  | _ => false

/-- A new transaction id is taken less than 65536 calls after those that are live. -/
def InWindow (s : RequestTracking) (a : Action) : Prop :=
  a.creates = true → ∀ num ∈ s.live, s.created - num < 65536

instance (s : RequestTracking) (a : Action) : Decidable (s.InWindow a) :=
  inferInstanceAs (Decidable (a.creates = true → ∀ num ∈ s.live, s.created - num < 65536))

/-- Keys and waiting requests correspond one to one, and no request completes twice. -/
structure Correlated (s : RequestTracking) : Prop where
  keys : ∀ key num, s.inflight.get? key = some num ↔ ⟨num, key⟩ ∈ s.waiting
  distinct : (s.waiting.map Waiting.num).Nodup
  once : (s.completed.map Prod.fst).Nodup
  done : ∀ c ∈ s.completed, ∀ w ∈ s.waiting, w.num ≠ c.1

theorem Correlated.owned {s : RequestTracking} (h : s.Correlated) : s.Owned :=
  fun key num => (h.keys key num).1

/-- The completions that an action may cause: a reply completes the request with its transaction id
and address, and an error about a message the request that sent it. -/
def Action.Completes (s : RequestTracking) : Action → ℕ × Outcome → Prop
  | .receive transactionId addr, c => ∃ tid, getOurTransactionId transactionId = some tid ∧
      ⟨c.1, (tid, addr)⟩ ∈ s.waiting ∧ c.2 = .replied tid addr
  | .timeout num, c => c = (num, .timeout)
  | .writer failed, c => failed = true ∧ c.2 = .sendError ∧
    ∃ msg, s.queue.head? = some msg ∧ msg.item = some c.1
  | .request _, c => s.workerOpen = false ∧ c = (s.created, .dhtDead)
  | _, _ => False

/-- An action completes at most one request, and only one that it is about; every other waiting
request keeps waiting and keeps its entry. -/
structure StepCorrelated (s : RequestTracking) (a : Action) (s' : RequestTracking) : Prop where
  completes : ∃ new, s'.completed = s.completed ++ new ∧ new.length ≤ 1 ∧ ∀ c ∈ new, a.Completes s c
  untouched : ∀ w ∈ s.waiting, (∃ outcome, (w.num, outcome) ∈ s'.completed) ∨
    (w ∈ s'.waiting ∧ s'.inflight.get? w.key = some w.num)

structure Inv (s : RequestTracking) : Prop where
  correlated : s.Correlated
  next : s.nextTransactionId = BitVec.ofNat 16 s.created
  tids : ∀ w ∈ s.waiting, w.key.1 = BitVec.ofNat 16 w.num
  queued : ∀ msg ∈ s.queue, ∀ tid, msg.ourTid = some tid →
    ∃ num, msg.item = some num ∧ tid = BitVec.ofNat 16 num
  past : ∀ num ∈ s.live, num < s.created ∧ s.created ≤ num + 65536
  completedPast : ∀ c ∈ s.completed, c.1 < s.created

section Ids

theorem tid_inj {n m c : ℕ} (hn : n < c) (hm : m < c) (hnc : c ≤ n + 65536) (hmc : c ≤ m + 65536)
    (h : BitVec.ofNat 16 n = BitVec.ofNat 16 m) : n = m := by
  have hmod : n % 65536 = m % 65536 := by
    simpa only [BitVec.toNat_ofNat] using congrArg BitVec.toNat h
  omega

variable {s : RequestTracking}

theorem mem_live_of_waiting {w : Waiting} (h : w ∈ s.waiting) : w.num ∈ s.live :=
  List.mem_append_left _ (List.mem_map_of_mem h)

theorem mem_live_of_queue {msg : WorkerSendRequest} {num : ℕ} (h : msg ∈ s.queue)
    (hitem : msg.item = some num) : num ∈ s.live :=
  List.mem_append_right _ (List.mem_filterMap.2 ⟨msg, h, hitem⟩)

theorem Inv.num_unique (h : s.Inv) {n m : ℕ} (hn : n ∈ s.live) (hm : m ∈ s.live)
    (htid : BitVec.ofNat 16 n = BitVec.ofNat 16 m) : n = m :=
  tid_inj (h.past n hn).1 (h.past m hm).1 (h.past n hn).2 (h.past m hm).2 htid

theorem Correlated.waiting_unique (h : s.Correlated) {v w : Waiting} (hv : v ∈ s.waiting)
    (hw : w ∈ s.waiting) (hnum : v.num = w.num) : v = w :=
  List.inj_on_of_nodup_map h.distinct hv hw hnum

end Ids

section Ending
variable {s : RequestTracking}

theorem ends_live_subset {w : Waiting} {outcome : Outcome} : (s.ends w outcome).live ⊆ s.live := by
  intro num hnum
  rcases List.mem_append.1 hnum with hnum | hnum
  · obtain ⟨v, hv, rfl⟩ := List.mem_map.1 hnum
    exact mem_live_of_waiting (mem_ends_waiting.1 hv).1
  · exact List.mem_append_right _ hnum

theorem Correlated.ends (h : s.Correlated) {w : Waiting} (hw : w ∈ s.waiting) (outcome : Outcome) :
    (s.ends w outcome).Correlated where
  keys key num := by
    change (s.inflight.remove w.key).get? key = some num ↔ _
    rw [AssocMap.get?_remove_eq_some_iff, h.keys, mem_ends_waiting]
    constructor
    · rintro ⟨hne, hmem⟩
      refine ⟨hmem, fun hnum => hne ?_⟩
      rw [← h.waiting_unique hmem hw hnum]
    · rintro ⟨hmem, hnum⟩
      refine ⟨fun hkey => hnum ?_, hmem⟩
      have hv := (h.keys _ _).2 hmem
      have hw' := (h.keys _ _).2 hw
      rw [hkey] at hv
      exact Option.some.inj (hv.symm.trans hw')
  distinct := h.distinct.sublist (List.filter_sublist.map Waiting.num)
  once := by
    change ((s.completed ++ [(w.num, outcome)]).map Prod.fst).Nodup
    exact nodup_map_snoc Prod.fst h.once (fun c hc => (h.done c hc w hw).symm)
  done c hc v hv := by
    obtain ⟨hv, hne⟩ := mem_ends_waiting.1 hv
    rcases List.mem_append.1 hc with hc | hc
    · exact h.done c hc v hv
    · rw [List.mem_singleton.1 hc]
      exact hne

theorem Inv.ends (h : s.Inv) {w : Waiting} (hw : w ∈ s.waiting) (outcome : Outcome) :
    (s.ends w outcome).Inv where
  correlated := h.correlated.ends hw outcome
  next := h.next
  tids v hv := h.tids v (mem_ends_waiting.1 hv).1
  queued := h.queued
  past num hnum := h.past num (ends_live_subset hnum)
  completedPast c hc := by
    rcases List.mem_append.1 hc with hc | hc
    · exact h.completedPast c hc
    · rw [List.mem_singleton.1 hc]
      exact (h.past _ (mem_live_of_waiting hw)).1

theorem Correlated.stepCorrelated_ends (h : s.Correlated) {a : Action} {w : Waiting} (hw : w ∈ s.waiting)
    {outcome : Outcome} (about : a.Completes s (w.num, outcome)) :
    StepCorrelated s a (s.ends w outcome) where
  completes := ⟨[(w.num, outcome)], rfl, le_refl _, by simpa using about⟩
  untouched v hv := by
    by_cases hnum : v.num = w.num
    · refine .inl ⟨outcome, List.mem_append_right _ ?_⟩
      rw [hnum]
      exact List.mem_singleton_self _
    · refine .inr ⟨mem_ends_waiting.2 ⟨hv, hnum⟩, ?_⟩
      exact ((h.ends hw outcome).keys v.key v.num).2 (mem_ends_waiting.2 ⟨hv, hnum⟩)

theorem Correlated.stepCorrelated_idle (h : s.Correlated) (a : Action) {s' : RequestTracking}
    (inflight : s'.inflight = s.inflight) (waiting : s'.waiting = s.waiting)
    (completed : s'.completed = s.completed) : StepCorrelated s a s' where
  completes := ⟨[], by rw [completed, List.append_nil], Nat.zero_le _, by simp⟩
  untouched w hw := by
    refine .inr ⟨waiting ▸ hw, ?_⟩
    rw [inflight]
    exact (h.keys w.key w.num).2 hw

end Ending

section Steps
variable {s : RequestTracking}

theorem Inv.fresh_key (h : s.Inv) (window : ∀ num ∈ s.live, s.created - num < 65536) (addr : SocketAddr) :
    s.inflight.get? (s.nextTransactionId, addr) = none := by
  cases hget : s.inflight.get? (s.nextTransactionId, addr) with
  | none => rfl
  | some num =>
    have hw := (h.correlated.keys _ num).1 hget
    have hlive := mem_live_of_waiting hw
    have htid : BitVec.ofNat 16 s.created = BitVec.ofNat 16 num := h.next.symm.trans (h.tids _ hw)
    have hmod : s.created % 65536 = num % 65536 := by
      simpa only [BitVec.toNat_ofNat] using congrArg BitVec.toNat htid
    have hlt := (h.past num hlive).1
    have hclose := window num hlive
    change num < s.created at hlt
    change s.created - num < 65536 at hclose
    omega

theorem next_succ {tid : TransactionId} {c : ℕ} (h : tid = BitVec.ofNat 16 c) :
    tid + 1 = BitVec.ofNat 16 (c + 1) := by
  rw [h, BitVec.ofNat_add]
  rfl

theorem Inv.past_succ (h : s.Inv) (window : ∀ num ∈ s.live, s.created - num < 65536) {num : ℕ}
    (hnum : num ∈ s.live ∨ num = s.created) : num < s.created + 1 ∧ s.created + 1 ≤ num + 65536 := by
  rcases hnum with hnum | rfl
  · have hlt := (h.past num hnum).1
    have hclose := window num hnum
    omega
  · omega

theorem Inv.num_lt (h : s.Inv) {w : Waiting} (hw : w ∈ s.waiting) : w.num < s.created :=
  (h.past _ (mem_live_of_waiting hw)).1

theorem Inv.queued_snoc (h : s.Inv) (addr : SocketAddr) :
    ∀ msg ∈ s.queue ++ [(⟨some s.nextTransactionId, addr, some s.created⟩ : WorkerSendRequest)],
      ∀ tid, msg.ourTid = some tid → ∃ num, msg.item = some num ∧ tid = BitVec.ofNat 16 num := by
  intro msg hmsg tid htid
  rcases List.mem_append.1 hmsg with hmsg | hmsg
  · exact h.queued msg hmsg tid htid
  · rw [List.mem_singleton.1 hmsg] at htid ⊢
    exact ⟨s.created, rfl, (Option.some.inj htid).symm.trans h.next⟩

theorem mem_queued_snoc {addr : SocketAddr} {num : ℕ}
    (hnum : num ∈ (s.queue ++ [(⟨some s.nextTransactionId, addr, some s.created⟩ : WorkerSendRequest)]).filterMap
      WorkerSendRequest.item) : num ∈ s.live ∨ num = s.created := by
  rw [filterMap_snoc, List.mem_append, Option.mem_toList] at hnum
  rcases hnum with hnum | hnum
  · exact .inl (List.mem_append_right _ hnum)
  · exact .inr (Option.some.inj hnum).symm

/-- A new entry under a key that is not in the map belongs to the request that waits last. -/
theorem Correlated.keys_snoc (h : s.Correlated) {key : RequestKey} (hfresh : s.inflight.get? key = none)
    (key' : RequestKey) (num : ℕ) : (s.inflight.insert key s.created).get? key' = some num ↔
      (⟨num, key'⟩ : Waiting) ∈ s.waiting ++ [⟨s.created, key⟩] := by
  rw [List.mem_append, List.mem_singleton, Waiting.mk.injEq]
  by_cases he : key' = key
  · subst he
    have hnone : (⟨num, key'⟩ : Waiting) ∉ s.waiting := by
      intro hmem
      rw [(h.keys key' num).2 hmem] at hfresh
      cases hfresh
    rw [AssocMap.get?_insert_self, Option.some.injEq]
    exact ⟨fun hn => .inr ⟨hn.symm, rfl⟩, fun hm => (hm.resolve_left hnone).1.symm⟩
  · rw [AssocMap.get?_insert_of_ne _ _ he, h.keys]
    exact ⟨.inl, fun hm => hm.resolve_right fun hr => he hr.2⟩

theorem Inv.request_open (h : s.Inv) (window : ∀ num ∈ s.live, s.created - num < 65536)
    (addr : SocketAddr) (isOpen : s.workerOpen = true) :
    (s.request addr).Inv ∧ StepCorrelated s (.request addr) (s.request addr) := by
  have hfresh := h.fresh_key window addr
  set key : RequestKey := (s.nextTransactionId, addr) with hkey
  have hs : s.request addr = { s with
      nextTransactionId := s.nextTransactionId + 1
      created := s.created + 1
      inflight := s.inflight.insert key s.created
      queue := s.queue ++ [⟨some s.nextTransactionId, addr, some s.created⟩]
      waiting := s.waiting ++ [⟨s.created, key⟩] } := if_pos isOpen
  have hget := h.correlated.keys_snoc hfresh
  rw [hs]
  refine ⟨⟨⟨hget, ?_, h.correlated.once, ?_⟩, next_succ h.next, ?_, h.queued_snoc addr, ?_, ?_⟩,
    ⟨[], ?_, Nat.zero_le _, by simp⟩, ?_⟩
  · exact nodup_map_snoc Waiting.num h.correlated.distinct (fun w hw => (h.num_lt hw).ne)
  · intro c hc w hw
    rcases List.mem_append.1 hw with hw | hw
    · exact h.correlated.done c hc w hw
    · rw [List.mem_singleton.1 hw]
      exact (h.completedPast c hc).ne'
  · intro w hw
    rcases List.mem_append.1 hw with hw | hw
    · exact h.tids w hw
    · rw [List.mem_singleton.1 hw]
      exact h.next
  · intro num hnum
    apply h.past_succ window
    rcases List.mem_append.1 hnum with hnum | hnum
    · rw [List.map_append, List.mem_append] at hnum
      rcases hnum with hnum | hnum
      · exact .inl (List.mem_append_left _ hnum)
      · exact .inr (by simpa using hnum)
    · exact mem_queued_snoc hnum
  · intro c hc
    exact (h.completedPast c hc).trans (Nat.lt_succ_self _)
  · exact (List.append_nil _).symm
  · intro w hw
    have hmem : w ∈ s.waiting ++ [⟨s.created, key⟩] := List.mem_append_left _ hw
    exact .inr ⟨hmem, (hget w.key w.num).2 hmem⟩

theorem Inv.request_closed (h : s.Inv) (window : ∀ num ∈ s.live, s.created - num < 65536)
    (addr : SocketAddr) (isClosed : s.workerOpen = false) :
    (s.request addr).Inv ∧ StepCorrelated s (.request addr) (s.request addr) := by
  have hfresh := h.fresh_key window addr
  set key : RequestKey := (s.nextTransactionId, addr) with hkey
  have hs : s.request addr = { s with
      nextTransactionId := s.nextTransactionId + 1
      created := s.created + 1
      inflight := (s.inflight.insert key s.created).remove key
      completed := s.completed ++ [(s.created, .dhtDead)] } := if_neg (by rw [isClosed]; simp)
  -- the entry comes and goes, and no other had this key
  have hget : ∀ key', ((s.inflight.insert key s.created).remove key).get? key' = s.inflight.get? key' := by
    intro key'
    by_cases he : key' = key
    · subst he
      rw [AssocMap.get?_remove_self, hfresh]
    · rw [AssocMap.get?_remove_of_ne _ he, AssocMap.get?_insert_of_ne _ _ he]
  rw [hs]
  refine ⟨⟨⟨?_, h.correlated.distinct, ?_, ?_⟩, next_succ h.next, h.tids, h.queued, ?_, ?_⟩,
    ⟨[(s.created, .dhtDead)], rfl, le_refl _, ?_⟩, ?_⟩
  · intro key' num
    rw [hget]
    exact h.correlated.keys key' num
  · exact nodup_map_snoc Prod.fst h.correlated.once (fun c hc => (h.completedPast c hc).ne)
  · intro c hc w hw
    rcases List.mem_append.1 hc with hc | hc
    · exact h.correlated.done c hc w hw
    · rw [List.mem_singleton.1 hc]
      exact (h.num_lt hw).ne
  · exact fun num hnum => h.past_succ window (.inl hnum)
  · intro c hc
    rcases List.mem_append.1 hc with hc | hc
    · exact (h.completedPast c hc).trans (Nat.lt_succ_self _)
    · rw [List.mem_singleton.1 hc]
      exact Nat.lt_succ_self _
  · intro c hc
    exact ⟨isClosed, List.mem_singleton.1 hc⟩
  · intro w hw
    exact .inr ⟨hw, (hget w.key).trans ((h.correlated.keys w.key w.num).2 hw)⟩

theorem Inv.announce (h : s.Inv) (window : ∀ num ∈ s.live, s.created - num < 65536) (addr : SocketAddr) :
    (s.announce addr).Inv ∧ StepCorrelated s (.announce addr) (s.announce addr) := by
  have hpast : ∀ c ∈ s.completed, c.1 < s.created + 1 :=
    fun c hc => (h.completedPast c hc).trans (Nat.lt_succ_self _)
  unfold RequestTracking.announce createRequest
  dsimp only
  split_ifs
  · refine ⟨⟨⟨h.correlated.keys, h.correlated.distinct, h.correlated.once, h.correlated.done⟩,
      next_succ h.next, h.tids, h.queued_snoc addr, ?_, hpast⟩,
      h.correlated.stepCorrelated_idle _ rfl rfl rfl⟩
    intro num hnum
    apply h.past_succ window
    rcases List.mem_append.1 hnum with hnum | hnum
    · exact .inl (List.mem_append_left _ hnum)
    · exact mem_queued_snoc hnum
  · exact ⟨⟨⟨h.correlated.keys, h.correlated.distinct, h.correlated.once, h.correlated.done⟩,
      next_succ h.next, h.tids, h.queued, fun num hnum => h.past_succ window (.inl hnum), hpast⟩,
      h.correlated.stepCorrelated_idle _ rfl rfl rfl⟩

theorem Inv.withQueue (h : s.Inv) {queue : List WorkerSendRequest}
    (hqueue : ∀ msg ∈ queue, msg ∈ s.queue ∨ (msg.ourTid = none ∧ msg.item = none)) (workerOpen : Bool) :
    Inv { s with queue, workerOpen } where
  correlated := ⟨h.correlated.keys, h.correlated.distinct, h.correlated.once, h.correlated.done⟩
  next := h.next
  tids := h.tids
  queued msg hmsg tid htid := by
    rcases hqueue msg hmsg with hold | ⟨hnone, _⟩
    · exact h.queued msg hold tid htid
    · rw [hnone] at htid
      cases htid
  past num hnum := by
    refine h.past num ?_
    rcases List.mem_append.1 hnum with hnum | hnum
    · exact List.mem_append_left _ hnum
    · obtain ⟨msg, hmsg, hitem⟩ := List.mem_filterMap.1 hnum
      rcases hqueue msg hmsg with hold | ⟨_, hnone⟩
      · exact mem_live_of_queue hold hitem
      · rw [hnone] at hitem
        cases hitem
  completedPast := h.completedPast

theorem Inv.respond (h : s.Inv) (addr : SocketAddr) :
    (s.respond addr).Inv ∧ StepCorrelated s (.respond addr) (s.respond addr) := by
  unfold RequestTracking.respond
  split_ifs
  · refine ⟨h.withQueue (fun msg hmsg => ?_) s.workerOpen, h.correlated.stepCorrelated_idle _ rfl rfl rfl⟩
    rcases List.mem_append.1 hmsg with hmsg | hmsg
    · exact .inl hmsg
    · rw [List.mem_singleton.1 hmsg]
      exact .inr ⟨rfl, rfl⟩
  · exact ⟨h, h.correlated.stepCorrelated_idle _ rfl rfl rfl⟩

theorem Inv.receive (h : s.Inv) (transactionId : List UInt8) (addr : SocketAddr) :
    (s.onReceivedMessage transactionId addr).Inv ∧
      StepCorrelated s (.receive transactionId addr) (s.onReceivedMessage transactionId addr) := by
  unfold onReceivedMessage
  cases htid : getOurTransactionId transactionId with
  | none => exact ⟨h, h.correlated.stepCorrelated_idle _ rfl rfl rfl⟩
  | some tid =>
    dsimp only
    rcases finish_eq h.correlated.owned (tid, addr) (.replied tid addr) with ⟨_, he⟩ | ⟨w, hw, hkey, he⟩
    · rw [he]
      exact ⟨h, h.correlated.stepCorrelated_idle _ rfl rfl rfl⟩
    · rw [he]
      refine ⟨h.ends hw _, h.correlated.stepCorrelated_ends hw ⟨tid, htid, ?_, rfl⟩⟩
      rw [← hkey]
      exact hw

theorem Inv.writer (h : s.Inv) (failed : Bool) :
    (s.writer failed).Inv ∧ StepCorrelated s (.writer failed) (s.writer failed) := by
  unfold RequestTracking.writer
  cases hq : s.queue with
  | nil => exact ⟨h, h.correlated.stepCorrelated_idle _ rfl rfl rfl⟩
  | cons msg queue =>
    have htail : Inv { s with queue } :=
      h.withQueue (fun m hm => .inl (by rw [hq]; exact List.mem_cons_of_mem _ hm)) s.workerOpen
    dsimp only
    split_ifs with hfailed
    · cases htid : msg.ourTid with
      | none => exact ⟨htail, h.correlated.stepCorrelated_idle _ rfl rfl rfl⟩
      | some tid =>
        have hmsg : msg ∈ s.queue := by
          rw [hq]
          exact List.mem_cons_self
        obtain ⟨num, hitem, hnum⟩ := h.queued msg hmsg tid htid
        dsimp only [onSendError]
        rcases finish_eq htail.correlated.owned (tid, msg.addr) .sendError with ⟨_, he⟩ | ⟨w, hw, hkey, he⟩
        · rw [he]
          exact ⟨htail, h.correlated.stepCorrelated_idle _ rfl rfl rfl⟩
        · have hw' : w ∈ s.waiting := hw
          -- both the request and the message are live, so their equal ids are one number
          have htids : BitVec.ofNat 16 num = BitVec.ofNat 16 w.num := by
            rw [← hnum, ← h.tids w hw', hkey]
          have hsame := h.num_unique (mem_live_of_queue hmsg hitem) (mem_live_of_waiting hw') htids
          have hstep := h.correlated.stepCorrelated_ends (a := .writer failed) hw'
            ⟨hfailed, rfl, msg, by rw [hq]; rfl, hsame ▸ hitem⟩
          rw [he]
          exact ⟨htail.ends hw _, hstep.completes, hstep.untouched⟩
    · exact ⟨htail, h.correlated.stepCorrelated_idle _ rfl rfl rfl⟩

theorem Inv.timeout (h : s.Inv) (num : ℕ) :
    (s.timeout num).Inv ∧ StepCorrelated s (.timeout num) (s.timeout num) := by
  unfold RequestTracking.timeout
  cases hf : s.waiting.find? (fun w => w.num = num) with
  | none => exact ⟨h, h.correlated.stepCorrelated_idle _ rfl rfl rfl⟩
  | some w =>
    have hw := List.mem_of_find?_eq_some hf
    have hnum : w.num = num := by simpa using List.find?_some hf
    dsimp only
    rw [giveUp_eq hw]
    refine ⟨h.ends hw _, h.correlated.stepCorrelated_ends hw ?_⟩
    rw [hnum]
    rfl

theorem Inv.senderDropped (h : s.Inv) (num : ℕ) :
    (s.senderDropped num).Inv ∧ StepCorrelated s (.senderDropped num) (s.senderDropped num) := by
  unfold RequestTracking.senderDropped
  cases hf : s.waiting.find? (fun w => w.num = num) with
  | none => exact ⟨h, h.correlated.stepCorrelated_idle _ rfl rfl rfl⟩
  | some w =>
    have hw := List.mem_of_find?_eq_some hf
    have hnum : w.num = num := by simpa using List.find?_some hf
    have hget : s.inflight.get? w.key = some num := hnum ▸ (h.correlated.keys w.key w.num).2 hw
    dsimp only
    rw [if_pos hget]
    exact ⟨h, h.correlated.stepCorrelated_idle _ rfl rfl rfl⟩

theorem Inv.step (h : s.Inv) {a : Action} (window : s.InWindow a) (uncancelled : a.isCancel = false) :
    (s.step a).Inv ∧ StepCorrelated s a (s.step a) := by
  cases a with
  | request addr =>
    cases hopen : s.workerOpen with
    | true => exact h.request_open (window rfl) addr hopen
    | false => exact h.request_closed (window rfl) addr hopen
  | announce addr => exact h.announce (window rfl) addr
  | respond addr => exact h.respond addr
  | receive transactionId addr => exact h.receive transactionId addr
  | writer failed => exact h.writer failed
  | timeout num => exact h.timeout num
  | senderDropped num => exact h.senderDropped num
  | cancel num => cases uncancelled
  | closeWorker =>
    exact ⟨h.withQueue (fun _ hm => absurd hm List.not_mem_nil) false,
      h.correlated.stepCorrelated_idle _ rfl rfl rfl⟩

end Steps

/-- Nothing is cancelled, and no transaction id is taken again while it may still be used. -/
def Orderly (actions : List Action) : Prop :=
  EveryStep step (fun s a => s.InWindow a ∧ a.isCancel = false) new actions

instance (actions : List Action) : Decidable (Orderly actions) :=
  inferInstanceAs (Decidable (EveryStep step (fun s a => s.InWindow a ∧ a.isCancel = false) new actions))

theorem new_inv : new.Inv where
  correlated := ⟨fun _ _ => ⟨nofun, nofun⟩, List.nodup_nil, List.nodup_nil, nofun⟩
  next := rfl
  tids := nofun
  queued := nofun
  past := nofun
  completedPast := nofun

/-- In every orderly run entries and waiting requests correspond, and every action completes no
request but the one it is about. -/
theorem history_correlated (actions : List Action) (a : Action) (orderly : Orderly (actions ++ [a])) :
    Correlated (run actions) ∧ StepCorrelated (run actions) a ((run actions).step a) ∧
      Correlated ((run actions).step a) := by
  obtain ⟨steps, window, uncancelled⟩ := (everyStep_snoc step _ new actions a).1 orderly
  have inv : (run actions).Inv := steps.invariant step Inv new_inv fun _ _ h ha => (h.step ha.1 ha.2).1
  obtain ⟨inv', correlated⟩ := inv.step window uncancelled
  exact ⟨inv.correlated, correlated, inv'.correlated⟩

/-- Two requests and an announcement to one address; the first two messages fail to be sent. -/
def exchange : List Action :=
  [.request (.v4 ⟨1, 1⟩), .announce (.v4 ⟨1, 1⟩), .request (.v4 ⟨1, 1⟩), .writer true, .writer true]

theorem exchange_correlated :
    Correlated (run exchange) ∧ StepCorrelated (run exchange) (.receive [0, 2] (.v4 ⟨1, 1⟩))
        ((run exchange).step (.receive [0, 2] (.v4 ⟨1, 1⟩))) ∧
      Correlated ((run exchange).step (.receive [0, 2] (.v4 ⟨1, 1⟩))) :=
  history_correlated exchange (.receive [0, 2] (.v4 ⟨1, 1⟩)) (by decide)

end RequestTracking
end LibrtbitDht
