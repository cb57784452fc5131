import LibrtbitDht.RequestTracking

set_option autoImplicit false

namespace LibrtbitDht
open TransitionRuns
namespace RequestTracking

/-- Every entry belongs to a request that is still awaited; with no such request there is none. -/
def NoOrphans (s : RequestTracking) : Prop :=
  s.Owned ∧ (s.waiting = [] → s.outstandingRequests = 0)

def CancelsOwner (s : RequestTracking) : Action → Prop
  | .cancel num => ∃ w ∈ s.waiting, w.num = num ∧ s.inflight.get? w.key = some num
  | _ => False

structure Owners (s : RequestTracking) : Prop where
  owned : s.Owned
  distinct : (s.waiting.map Waiting.num).Nodup
  past : ∀ w ∈ s.waiting, w.num < s.created

section Steps
variable {s : RequestTracking}

theorem noOrphans_of_owned (h : s.Owned) : s.NoOrphans := by
  refine ⟨h, fun hnone => (AssocMap.len_eq_zero_iff s.inflight).2 fun key => ?_⟩
  cases hget : s.inflight.get? key with
  | none => rfl
  | some num =>
    have hw := h key num hget
    rw [hnone] at hw
    cases hw

theorem Owners.ends (h : s.Owners) {w : Waiting} (hw : w ∈ s.waiting) (outcome : Outcome) :
    (s.ends w outcome).Owners where
  owned key num hget := by
    obtain ⟨hne, hget⟩ := (AssocMap.get?_remove_eq_some_iff s.inflight).1 hget
    have hmem := h.owned key num hget
    refine mem_ends_waiting.2 ⟨hmem, fun hnum => hne ?_⟩
    have hsame := List.inj_on_of_nodup_map h.distinct hmem hw hnum
    rw [← hsame]
  distinct := h.distinct.sublist (List.filter_sublist.map Waiting.num)
  past v hv := h.past v (mem_ends_waiting.1 hv).1

theorem Owners.finish (h : s.Owners) (key : RequestKey) (outcome : Outcome) :
    (s.finish key outcome).Owners := by
  rcases finish_eq h.owned key outcome with ⟨_, he⟩ | ⟨w, hw, _, he⟩
  · rw [he]
    exact h
  · rw [he]
    exact h.ends hw outcome

theorem Owners.request (h : s.Owners) (addr : SocketAddr) : (s.request addr).Owners := by
  have hpast : ∀ w ∈ s.waiting, w.num < s.created + 1 := fun w hw => (h.past w hw).trans (Nat.lt_succ_self _)
  unfold RequestTracking.request createRequest
  dsimp only
  split_ifs
  · refine ⟨?_, ?_, ?_⟩
    · intro key num hget
      by_cases he : key = (s.nextTransactionId, addr)
      · subst he
        rw [AssocMap.get?_insert_self, Option.some.injEq] at hget
        exact List.mem_append_right _ (by rw [hget]; exact List.mem_singleton_self _)
      · rw [AssocMap.get?_insert_of_ne _ _ he] at hget
        exact List.mem_append_left _ (h.owned key num hget)
    · exact nodup_map_snoc Waiting.num h.distinct (fun w hw => (h.past w hw).ne)
    · intro w hw
      rcases List.mem_append.1 hw with hw | hw
      · exact hpast w hw
      · rw [List.mem_singleton.1 hw]
        exact Nat.lt_succ_self _
  · refine ⟨?_, h.distinct, hpast⟩
    intro key num hget
    obtain ⟨hne, hget⟩ := (AssocMap.get?_remove_eq_some_iff _).1 hget
    rw [AssocMap.get?_insert_of_ne _ _ hne] at hget
    exact h.owned key num hget

theorem Owners.announce (h : s.Owners) (addr : SocketAddr) : (s.announce addr).Owners := by
  have hpast : ∀ w ∈ s.waiting, w.num < s.created + 1 := fun w hw => (h.past w hw).trans (Nat.lt_succ_self _)
  unfold RequestTracking.announce createRequest
  dsimp only
  split_ifs <;> exact ⟨h.owned, h.distinct, hpast⟩

theorem Owners.writer (h : s.Owners) (failed : Bool) : (s.writer failed).Owners := by
  unfold RequestTracking.writer
  cases s.queue with
  | nil => exact h
  | cons msg queue =>
    have htail : Owners { s with queue } := ⟨h.owned, h.distinct, h.past⟩
    dsimp only
    split_ifs
    · cases msg.ourTid with
      | none => exact htail
      | some tid => exact htail.finish (tid, msg.addr) .sendError
    · exact htail

/-- A request that gives up takes its own entry away, whoever put the one under its key. -/
theorem Owners.giveUp (h : s.Owners) {num : ℕ} {w : Waiting}
    (hf : s.waiting.find? (fun w => w.num = num) = some w) (outcome : Outcome) :
    (s.giveUp w outcome).Owners := by
  have hw := List.mem_of_find?_eq_some hf
  rw [giveUp_eq hw]
  exact h.ends hw outcome

theorem Owners.timeout (h : s.Owners) (num : ℕ) : (s.timeout num).Owners := by
  unfold RequestTracking.timeout
  cases hf : s.waiting.find? (fun w => w.num = num) with
  | none => exact h
  | some w => exact h.giveUp hf .timeout

theorem Owners.senderDropped (h : s.Owners) (num : ℕ) : (s.senderDropped num).Owners := by
  unfold RequestTracking.senderDropped
  cases hf : s.waiting.find? (fun w => w.num = num) with
  | none => exact h
  | some w =>
    dsimp only
    split_ifs
    · exact h
    · exact h.giveUp hf .dhtDead

theorem Owners.cancel (h : s.Owners) {num : ℕ} (kept : ¬ s.CancelsOwner (.cancel num)) :
    (s.cancel num).Owners where
  owned key n hget := by
    have hmem := h.owned key n hget
    refine List.mem_filter.2 ⟨hmem, decide_eq_true fun hnum => kept ⟨_, hmem, hnum, ?_⟩⟩
    change n = num at hnum
    exact hnum ▸ hget
  distinct := h.distinct.sublist (List.filter_sublist.map Waiting.num)
  past w hw := h.past w (List.mem_of_mem_filter hw)

theorem Owners.step (h : s.Owners) {a : Action} (kept : ¬ s.CancelsOwner a) : (s.step a).Owners := by
  cases a with
  | request addr => exact h.request addr
  | announce addr => exact h.announce addr
  | respond addr =>
    unfold RequestTracking.step respond
    dsimp only
    split_ifs <;> exact ⟨h.owned, h.distinct, h.past⟩
  | receive transactionId addr =>
    unfold RequestTracking.step onReceivedMessage
    dsimp only
    cases getOurTransactionId transactionId with
    | none => exact h
    | some tid => exact h.finish (tid, addr) (.replied tid addr)
  | writer failed => exact h.writer failed
  | timeout num => exact h.timeout num
  | senderDropped num => exact h.senderDropped num
  | cancel num => exact h.cancel kept
  | closeWorker => exact ⟨h.owned, h.distinct, h.past⟩

theorem not_noOrphans_of_cancelsOwner {a : Action} (h : s.CancelsOwner a) : ¬ (s.step a).NoOrphans := by
  cases a with
  | cancel num =>
    obtain ⟨w, _, _, hget⟩ := h
    rintro ⟨howned, _⟩
    have hmem := howned w.key num hget
    have hne := of_decide_eq_true (List.mem_filter.1 hmem).2
    exact hne rfl
  | _ => exact h.elim

end Steps

theorem new_owners : new.Owners := ⟨nofun, List.nodup_nil, nofun⟩

/-- In a run every state is free of orphans just when no step cancels the owner of an entry. -/
theorem history_noOrphans_iff (actions : List Action) :
    (∀ before, before <+: actions → (run before).NoOrphans) ↔
      EveryStep step (fun s a => ¬ s.CancelsOwner a) new actions := by
  constructor
  · intro h
    induction actions using List.reverseRecOn with
    | nil => exact trivial
    | append_singleton actions a ih =>
      rw [everyStep_snoc]
      refine ⟨ih fun before hb => h before (hb.trans (List.prefix_append _ _)), fun hcancel => ?_⟩
      have hlast := h (actions ++ [a]) (List.prefix_refl _)
      unfold run at hlast
      rw [List.foldl_append] at hlast
      exact not_noOrphans_of_cancelsOwner hcancel hlast
  · rintro steps before ⟨after, rfl⟩
    have hbefore := ((everyStep_append step _ new before after).1 steps).1
    have owners : (run before).Owners :=
      hbefore.invariant step Owners new_owners fun _ _ h kept => h.step kept
    exact noOrphans_of_owned owners.owned

/-- One request whose future is dropped while the peer stays silent. -/
theorem dropped_request_orphaned :
    (run [.request (.v4 ⟨1, 1⟩), .cancel 0]).waiting = [] ∧
      (run [.request (.v4 ⟨1, 1⟩), .cancel 0]).outstandingRequests = 1 :=
  ⟨rfl, rfl⟩

end RequestTracking
end LibrtbitDht
