import LibrtbitDht.RoutingTable

set_option autoImplicit false

namespace LibrtbitDht
open TransitionRuns
namespace RoutingTable

/-- The insertion of a new identifier whose leaf holds a bad entry at that moment. -/
def ReplacesBad (rt : RoutingTable) : Op → Prop
  | .addNode id _ clock =>
    (∀ x ∈ rt.stored, x.id ≠ id) ∧ ∃ x, rt.buckets.InLeafOf id x ∧ x.isBad (clock 0) = true
  | _ => False

def LenExact (rt : RoutingTable) : Prop :=
  ∃ nodes, rt.iter = .ok nodes ∧ rt.len = nodes.length ∧ rt.len ≤ rt.buckets.maxSize

variable {rt rt' : RoutingTable}

theorem Inv.lenExact_iff (h : rt.Inv) : rt.LenExact ↔ rt.size = rt.stored.length := by
  obtain ⟨nodes, hrun, hperm, _⟩ := BucketTree.Inv.iter_spec h
  have hlen : nodes.length = rt.stored.length := hperm.length_eq
  have hsize : rt.buckets.size = rt.stored.length := BucketTree.Inv.size h
  have hle := BucketTree.Inv.bounded h
  constructor
  · rintro ⟨nodes', hrun', hsz, _⟩
    cases Except.ok.inj (hrun.symm.trans hrun')
    exact hsz.trans hlen
  · intro hsz
    refine ⟨nodes, hrun, hsz.trans hlen.symm, ?_⟩
    rw [len, hsz, ← hsize]
    exact hle

theorem Inv.step_drift (h : rt.Inv) {op : Op} (hs : Graph step rt op rt') :
    (¬ rt.ReplacesBad op ∧ rt'.size + rt.stored.length = rt.size + rt'.stored.length) ∨
    (rt.ReplacesBad op ∧ rt'.size = rt.size + 1 ∧ rt'.stored.length = rt.stored.length) := by
  obtain ⟨_, _, _, hcase⟩ := h.graph_cases hs
  cases hcase with
  | insert result case size =>
    cases case with
    | existing found same =>
      refine .inl ⟨?_, ?_⟩
      · rintro ⟨hnew, _⟩
        obtain ⟨x, hx, hxid⟩ := found
        exact hnew x hx hxid
      · have hsz : rt'.size = rt.size := size
        rw [hsz, stored, stored, same]
    | replaced new bad home before after _ =>
      refine .inr ⟨⟨new, _, home, bad⟩, size, ?_⟩
      exact after.length_eq.trans before.length_eq.symm
    | added new noBad _ after _ =>
      refine .inl ⟨?_, ?_⟩
      · rintro ⟨_, x, hx, hbad⟩
        rw [noBad x hx] at hbad
        cases hbad
      · have hlen : rt'.stored.length = rt.stored.length + 1 := after.length_eq
        have hsz : rt'.size = rt.size + 1 := size
        omega
    | ignored new noBad after _ =>
      refine .inl ⟨?_, ?_⟩
      · rintro ⟨_, x, hx, hbad⟩
        rw [noBad x hx] at hbad
        cases hbad
      · have hlen : rt'.stored.length = rt.stored.length := after.length_eq
        have hsz : rt'.size = rt.size := size
        omega
  | mark isMark _ size _ stored =>
    refine .inl ⟨?_, ?_⟩
    · cases op with
      | addNode id addr clock => exact absurd rfl (isMark id addr clock)
      | markOutgoingRequest _ _ => exact not_false
      | markResponse _ _ => exact not_false
      | markError _ => exact not_false
      | markLastQuery _ _ => exact not_false
    · have hlen : rt'.stored.length = rt.stored.length := by rw [stored, BucketTree.rewriteId, List.length_map]
      omega

/-- Over a history the counter never falls behind, and is exact just when nothing was replaced. -/
theorem drift_of_reaches (selfId : Id20) (maxSize : Option ℕ) (clock : Instant) {ops : List Op}
    (h : (new selfId maxSize clock).Reaches ops rt) :
    rt.stored.length ≤ rt.size ∧ (rt.size = rt.stored.length ↔
      Guarded (fun v op => ¬ ReplacesBad v op) (Graph step) (new selfId maxSize clock) ops rt) := by
  refine h.history (fun ops rt => rt.stored.length ≤ rt.size ∧ (rt.size = rt.stored.length ↔
    Guarded (fun v op => ¬ ReplacesBad v op) (Graph step) (new selfId maxSize clock) ops rt)) ?_ ?_
  · exact ⟨le_refl _, fun _ => .nil, fun _ => rfl⟩
  · rintro ops v w op before ⟨hle, hiff⟩ hs
    obtain ⟨inv, _, _⟩ := inv_of_reaches selfId maxSize clock before
    rw [guarded_snoc_iff step _ before hs, ← hiff]
    rcases inv.step_drift hs with ⟨hno, hsz⟩ | ⟨hyes, hsz, hlen⟩
    · refine ⟨by omega, fun hw => ⟨by omega, hno⟩, fun hv => ?_⟩
      have := hv.1
      omega
    · refine ⟨by omega, fun hw => ?_, fun hv => absurd hyes hv.2⟩
      omega

/-- The counter of a table is exact after a history just when no step of it replaced a bad entry. -/
theorem history_lenExact_iff (selfId : Id20) (maxSize : Option ℕ) (clock : Instant) (ops : List Op) :
    ∃ rt, (new selfId maxSize clock).run ops = .ok rt ∧ (rt.LenExact ↔
      Guarded (fun v op => ¬ ReplacesBad v op) (Graph step) (new selfId maxSize clock) ops rt) := by
  obtain ⟨rt, hrun, inv⟩ := exists_reaches selfId maxSize clock ops
  refine ⟨rt, reaches_iff_run.1 hrun, ?_⟩
  rw [inv.lenExact_iff]
  exact (drift_of_reaches selfId maxSize clock hrun).2

/-- One entry goes bad and is replaced in a table that may hold one entry. -/
def replacingHistory : List Op :=
  [.addNode 1 (.v4 ⟨1, 6881⟩) (fun _ => 0), .markOutgoingRequest 1 1, .markError 1, .markError 1,
    .addNode 2 (.v4 ⟨2, 6881⟩) (fun _ => 2)]

theorem replacingHistory_drifts :
    ((new 0 (some 1) 0).run replacingHistory).map len = .ok 2 ∧
      (((new 0 (some 1) 0).run replacingHistory).bind iter).map List.length = .ok 1 :=
  ⟨rfl, rfl⟩

end RoutingTable
end LibrtbitDht
