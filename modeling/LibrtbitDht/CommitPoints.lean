import LibrtbitDht.TransitionRuns

set_option autoImplicit false

namespace LibrtbitDht.CommitPoints
open TransitionRuns

variable {σ κ ω β α ι : Type}

structure System (σ κ : Type) where
  shared : σ
  calls : List κ

/-- The call that the action names takes one step; a call that does not exist takes none. -/
def step (act : ι → σ → κ → σ × κ) (s : System σ κ) (action : ℕ × ι) : System σ κ :=
  match s.calls[action.1]? with
  | none => s
  | some c =>
    let (shared, c) := act action.2 s.shared c
    ⟨shared, s.calls.set action.1 c⟩

theorem step_none {act : ι → σ → κ → σ × κ} {s : System σ κ} {action : ℕ × ι}
    (h : s.calls[action.1]? = none) : step act s action = s := by
  rw [step, h]

theorem step_some {act : ι → σ → κ → σ × κ} {s : System σ κ} {action : ℕ × ι} {c : κ}
    (h : s.calls[action.1]? = some c) :
    step act s action =
      ⟨(act action.2 s.shared c).1, s.calls.set action.1 (act action.2 s.shared c).2⟩ := by
  rw [step, h]

/-- One call executed from start to end: the label names the call and its answer. -/
def OneAtATime (atomic : α → ω → β → α → Prop) (offers : List ω) (t : α) (label : ℕ × β) (t' : α) : Prop :=
  ∃ offer, offers[label.1]? = some offer ∧ atomic t offer label.2 t'

/-- The calls that have an answer, executed in the order of the labels, give these answers. -/
structure Linearized (atomic : α → ω → β → α → Prop) (offers : List ω) (answer : κ → Option β)
    (t₀ : α) (calls : List κ) (labels : List (ℕ × β)) (t : α) : Prop where
  run : Run (OneAtATime atomic offers) t₀ labels t
  once : (labels.map Prod.fst).Nodup
  answers : ∀ i b, (i, b) ∈ labels ↔ ∃ c, calls[i]? = some c ∧ answer c = some b

section Rules
variable {atomic : α → ω → β → α → Prop} {offers : List ω} {answer : κ → Option β} {t₀ t t' : α}
  {calls : List κ} {labels : List (ℕ × β)} {i : ℕ} {c c' : κ}

theorem getElem?_set_of_some (h : calls[i]? = some c) (j : ℕ) :
    (calls.set i c')[j]? = if i = j then some c' else calls[j]? := by
  have hi : i < calls.length := (List.getElem?_eq_some_iff.1 h).1
  rw [List.getElem?_set]
  by_cases hij : i = j
  · subst hij
    simp [hi]
  · simp [hij]

theorem Linearized.nil (h : ∀ c ∈ calls, answer c = none) :
    Linearized atomic offers answer t₀ calls [] t₀ where
  run := .nil
  once := List.nodup_nil
  answers := by
    intro i b
    constructor
    · intro hmem
      cases hmem
    · rintro ⟨c, hc, hb⟩
      rw [h c (List.mem_of_getElem? hc)] at hb
      cases hb

theorem Linearized.keep (h : Linearized atomic offers answer t₀ calls labels t)
    (hc : calls[i]? = some c) (hsame : answer c' = answer c) :
    Linearized atomic offers answer t₀ (calls.set i c') labels t where
  run := h.run
  once := h.once
  answers := by
    intro j b
    rw [h.answers j b, getElem?_set_of_some hc]
    by_cases hij : i = j
    · subst hij
      simp [hc, hsame]
    · simp [hij]

theorem Linearized.commit (h : Linearized atomic offers answer t₀ calls labels t)
    (hc : calls[i]? = some c) (hnone : answer c = none) {b : β} (hsome : answer c' = some b) {offer : ω}
    (hoffer : offers[i]? = some offer) (hatomic : atomic t offer b t') :
    Linearized atomic offers answer t₀ (calls.set i c') (labels ++ [(i, b)]) t' where
  run := .snoc h.run ⟨offer, hoffer, hatomic⟩
  once := by
    refine nodup_map_snoc Prod.fst h.once ?_
    rintro ⟨_, a⟩ hmem rfl
    obtain ⟨d, hd, ha⟩ := (h.answers _ a).1 hmem
    rw [hc, Option.some.injEq] at hd
    rw [← hd, hnone] at ha
    cases ha
  answers := by
    intro j a
    rw [List.mem_append, h.answers j a, getElem?_set_of_some hc, List.mem_singleton, Prod.mk.injEq]
    by_cases hij : i = j
    · subst hij
      simp [hc, hnone, hsome, eq_comm]
    · simp [hij, Ne.symm hij]

theorem Linearized.perm (h : Linearized atomic offers answer t₀ calls labels t)
    (all : ∀ c ∈ calls, (answer c).isSome) : (labels.map Prod.fst).Perm (List.range calls.length) := by
  rw [List.perm_ext_iff_of_nodup h.once List.nodup_range]
  intro i
  rw [List.mem_range, List.mem_map]
  constructor
  · rintro ⟨⟨_, b⟩, hmem, rfl⟩
    obtain ⟨c, hc, _⟩ := (h.answers _ b).1 hmem
    exact (List.getElem?_eq_some_iff.1 hc).1
  · intro hi
    have hc : calls[i]? = some calls[i] := List.getElem?_eq_getElem hi
    obtain ⟨b, hb⟩ := Option.isSome_iff_exists.1 (all _ (List.getElem_mem hi))
    exact ⟨(i, b), (h.answers i b).2 ⟨_, hc, hb⟩, rfl⟩

end Rules

section Simulation
variable (act : ι → σ → κ → σ × κ) (atomic : α → ω → β → α → Prop) (offer : κ → ω) (answer : κ → Option β)
  (Rel : System σ κ → α → Prop)

/-- One step on an abstract state: nothing happens there, or one call is performed. -/
structure Commits (s : System σ κ) (t : α) (action : ℕ × ι) (c : κ) : Prop where
  sameOffer : offer (act action.2 s.shared c).2 = offer c
  cases :
    (answer (act action.2 s.shared c).2 = answer c ∧ Rel (step act s action) t) ∨
    (answer c = none ∧ ∃ b t', answer (act action.2 s.shared c).2 = some b ∧ atomic t (offer c) b t' ∧
      Rel (step act s action) t')

variable {act Rel}

/-- Commit points: if every step of a run commits at most its own call, the run is linearized. -/
theorem linearized_of_commits {Good : System σ κ → ℕ × ι → Prop} {s : System σ κ} {t₀ : α}
    {actions : List (ℕ × ι)} (steps : EveryStep (step act) Good s actions)
    (idle : ∀ c ∈ s.calls, answer c = none) (start : Rel s t₀)
    (next : ∀ s t action c, Rel s t → Good s action → s.calls[action.1]? = some c →
      Commits act atomic offer answer Rel s t action c) :
    ∃ labels t, Linearized atomic (s.calls.map offer) answer t₀ (actions.foldl (step act) s).calls labels t ∧
      Rel (actions.foldl (step act) s) t ∧
      (actions.foldl (step act) s).calls.map offer = s.calls.map offer := by
  refine steps.invariant (step act) (fun u => ∃ labels t,
    Linearized atomic (s.calls.map offer) answer t₀ u.calls labels t ∧ Rel u t ∧
      u.calls.map offer = s.calls.map offer) ⟨[], t₀, .nil idle, start, rfl⟩ ?_
  rintro u action ⟨labels, t, hlin, hrel, hoffers⟩ hgood
  cases hc : u.calls[action.1]? with
  | none =>
    rw [step_none hc]
    exact ⟨labels, t, hlin, hrel, hoffers⟩
  | some c =>
    obtain ⟨hsame, hcases⟩ := next u t action c hrel hgood hc
    have hcalls : (step act u action).calls = u.calls.set action.1 (act action.2 u.shared c).2 := by
      rw [step_some hc]
    have hoffer : (u.calls.map offer)[action.1]? = some (offer c) := by
      rw [List.getElem?_map, hc, Option.map_some]
    have hoffers' : (step act u action).calls.map offer = s.calls.map offer := by
      rw [hcalls, List.map_set, hsame, ← hoffers]
      apply List.ext_getElem?
      intro j
      rw [getElem?_set_of_some hoffer]
      by_cases hij : action.1 = j
      · rw [if_pos hij, ← hij, hoffer]
      · rw [if_neg hij]
    rw [hoffers] at hoffer
    rcases hcases with ⟨hkeep, hrel'⟩ | ⟨hnone, b, t', hsome, hatomic, hrel'⟩
    · exact ⟨labels, t, by rw [hcalls]; exact hlin.keep hc hkeep, hrel', hoffers'⟩
    · exact ⟨_, t', by rw [hcalls]; exact hlin.commit hc hnone hsome hoffer hatomic, hrel', hoffers'⟩

end Simulation
end LibrtbitDht.CommitPoints
