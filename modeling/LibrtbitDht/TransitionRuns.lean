import Mathlib

set_option autoImplicit false

namespace LibrtbitDht.TransitionRuns

variable {σ ι ε : Type}

inductive Run (step : σ → ι → σ → Prop) (s : σ) : List ι → σ → Prop where
  | nil : Run step s [] s
  | snoc {is : List ι} {t u : σ} {i : ι} (before : Run step s is t) (last : step t i u) :
      Run step s (is ++ [i]) u

section Relation
variable {step : σ → ι → σ → Prop} {s t u : σ}

theorem Run.history (I : List ι → σ → Prop) {is : List ι} (run : Run step s is t)
    (start : I [] s)
    (next : ∀ js v w i, Run step s js v → I js v → step v i w → I (js ++ [i]) w) : I is t := by
  induction run with
  | nil => exact start
  | snoc before last ih => exact next _ _ _ _ before ih last

theorem Run.invariant (I : σ → Prop) {is : List ι} (run : Run step s is t) (start : I s)
    (next : ∀ v w i, I v → step v i w → I w) : I t :=
  run.history (fun _ => I) start (fun _ v w i _ hv hs => next v w i hv hs)

theorem Run.append {is js : List ι} (first : Run step s is t) (second : Run step t js u) :
    Run step s (is ++ js) u := by
  induction second with
  | nil => simpa using first
  | snoc _ last ih =>
    rw [← List.append_assoc]
    exact .snoc ih last

theorem Run.single {i : ι} (h : step s i t) : Run step s [i] t := .snoc .nil h

theorem Run.cons {i : ι} {is : List ι} (h : step s i t) (rest : Run step t is u) :
    Run step s (i :: is) u := Run.append (Run.single h) rest

theorem Run.snoc_inv {is : List ι} {i : ι} (run : Run step s (is ++ [i]) u) :
    ∃ t, Run step s is t ∧ step t i u := by
  generalize he : is ++ [i] = js at run
  cases run with
  | nil => simp at he
  | @snoc ks t _ j before last =>
    obtain ⟨rfl, rfl⟩ : is = ks ∧ i = j := by simpa using List.append_inj' he rfl
    exact ⟨t, before, last⟩

/-- The input is one of the run, and the run was in this state before it. -/
def Did (step : σ → ι → σ → Prop) (s : σ) (is : List ι) (i : ι) (v : σ) : Prop :=
  ∃ before, before ++ [i] <+: is ∧ Run step s before v

theorem Run.did {is : List ι} (run : Run step s is t) (i : ι) : Did step s (is ++ [i]) i t :=
  ⟨is, List.prefix_rfl, run⟩

theorem Did.mono {is js : List ι} {i : ι} {v : σ} (h : Did step s is i v) (hbegins : is <+: js) :
    Did step s js i v := by
  obtain ⟨before, hbefore, run⟩ := h
  exact ⟨before, hbefore.trans hbegins, run⟩

theorem Did.mem {is : List ι} {i : ι} {v : σ} (h : Did step s is i v) : i ∈ is := by
  obtain ⟨before, hbefore, _⟩ := h
  exact hbefore.subset (List.mem_append_right before (List.mem_singleton_self i))

/-- Every step of the run satisfies `G` in the state it starts from. -/
def Guarded (G : σ → ι → Prop) (step : σ → ι → σ → Prop) (s : σ) (is : List ι) (t : σ) : Prop :=
  Run (fun v i w => G v i ∧ step v i w) s is t

theorem Guarded.run {G : σ → ι → Prop} {is : List ι} (h : Guarded G step s is t) :
    Run step s is t := by
  induction h with
  | nil => exact .nil
  | snoc _ last ih => exact .snoc ih last.2

end Relation

section Termination
variable (step : σ → ι → σ → Prop) {s : σ}

def Ends (s : σ) : Prop :=
  ∀ trace : ℕ → σ, trace 0 = s → ¬ ∀ n, ∃ i, step (trace n) i (trace (n + 1))

/-- Each step replaces one element of a finite collection by finitely many smaller ones. -/
theorem ends_of_replacement (μ : σ → Multiset ℕ) (I : σ → Prop) (start : I s)
    (next : ∀ v i w, I v → step v i w → I w ∧ ∃ (rest new : Multiset ℕ) (x : ℕ), μ v = rest + {x} ∧
      μ w = rest + new ∧ ∀ y ∈ new, y < x) : Ends step s := by
  intro trace hstart hsteps
  have hinv : ∀ n, I (trace n) := by
    intro n
    induction n with
    | zero => exact hstart ▸ start
    | succ n ih =>
      obtain ⟨i, hi⟩ := hsteps n
      exact (next _ i _ ih hi).1
  have hless : ∀ n, Multiset.IsDershowitzMannaLT (μ (trace (n + 1))) (μ (trace n)) := by
    intro n
    obtain ⟨i, hi⟩ := hsteps n
    obtain ⟨_, rest, new, x, hold, hnew, hlt⟩ := next _ i _ (hinv n) hi
    exact ⟨rest, new, {x}, Multiset.singleton_ne_zero x, hnew, hold,
      fun y hy => ⟨x, Multiset.mem_singleton_self x, hlt y hy⟩⟩
  have hwf : WellFounded (Multiset.IsDershowitzMannaLT (α := ℕ)) := Multiset.wellFounded_isDershowitzMannaLT
  obtain ⟨_, ⟨n, rfl⟩, hmin⟩ := hwf.has_min (Set.range (fun n => μ (trace n))) ⟨_, 0, rfl⟩
  exact hmin _ ⟨n + 1, rfl⟩ (hless n)

end Termination

section Fallible
variable (f : σ → ι → Except ε σ)

def Graph (s : σ) (i : ι) (t : σ) : Prop := f s i = .ok t

theorem exists_of_bind_ok {α β : Type} {x : Except ε α} {g : α → Except ε β} {b : β} (h : (x >>= g) = .ok b) :
    ∃ a, x = .ok a ∧ g a = .ok b := by
  cases x with
  | error e => cases h
  | ok a => exact ⟨a, rfl, h⟩

theorem foldlM_snoc (s : σ) (is : List ι) (i : ι) :
    (is ++ [i]).foldlM f s = (is.foldlM f s).bind (fun t => f t i) := by
  rw [List.foldlM_append]
  cases is.foldlM f s with
  | error e => rfl
  | ok t =>
    change [i].foldlM f t = f t i
    rw [List.foldlM_cons]
    cases f t i <;> rfl

theorem run_graph_iff (s t : σ) (is : List ι) :
    Run (Graph f) s is t ↔ is.foldlM f s = .ok t := by
  constructor
  · intro run
    induction run with
    | nil => rfl
    | snoc _ last ih =>
      rw [foldlM_snoc, ih]
      exact last
  · intro h
    induction is using List.reverseRecOn generalizing t with
    | nil =>
      cases h
      exact .nil
    | append_singleton is i ih =>
      rw [foldlM_snoc] at h
      cases hm : is.foldlM f s with
      | error e => rw [hm] at h; cases h
      | ok v =>
        rw [hm] at h
        exact .snoc (ih v hm) h

theorem run_split {s t u : σ} {is js : List ι} (first : Run (Graph f) s is t) (hbegins : is <+: js)
    (run : Run (Graph f) s js u) : ∃ rest, js = is ++ rest ∧ Run (Graph f) t rest u := by
  obtain ⟨rest, rfl⟩ := hbegins
  refine ⟨rest, rfl, (run_graph_iff f t u rest).2 ?_⟩
  have hall := (run_graph_iff f s u _).1 run
  rw [List.foldlM_append, (run_graph_iff f s t is).1 first] at hall
  exact hall

/-- A step that never fails where the invariant holds, and keeps it, has a run over every input. -/
theorem exists_run (I : σ → Prop) (s : σ) (start : I s)
    (next : ∀ v i, I v → ∃ w, f v i = .ok w ∧ I w) (is : List ι) :
    ∃ t, Run (Graph f) s is t ∧ I t := by
  induction is using List.reverseRecOn with
  | nil => exact ⟨s, .nil, start⟩
  | append_singleton is i ih =>
    obtain ⟨v, run, hv⟩ := ih
    obtain ⟨w, hw, hi⟩ := next v i hv
    exact ⟨w, .snoc run hw, hi⟩

theorem guarded_snoc_iff (G : σ → ι → Prop) {s t u : σ} {is : List ι} {i : ι}
    (run : Run (Graph f) s is t) (last : Graph f t i u) :
    Guarded G (Graph f) s (is ++ [i]) u ↔ Guarded G (Graph f) s is t ∧ G t i := by
  constructor
  · intro h
    obtain ⟨v, before, guard, _⟩ := Run.snoc_inv h
    have hv := (run_graph_iff f s v is).1 (Guarded.run before)
    cases Except.ok.inj (((run_graph_iff f s t is).1 run).symm.trans hv)
    exact ⟨before, guard⟩
  · rintro ⟨before, guard⟩
    exact .snoc before ⟨guard, last⟩

/-- The end of a guarded run, computed; `none` when a guard or a step fails on the way. -/
def evalGuarded (G : σ → ι → Prop) [∀ s i, Decidable (G s i)] : σ → List ι → Option σ
  | s, [] => some s
  | s, i :: is => if G s i then (f s i).toOption.bind (fun t => evalGuarded G t is) else none

theorem guarded_of_eval (G : σ → ι → Prop) [∀ s i, Decidable (G s i)] {s t : σ} {is : List ι}
    (h : evalGuarded f G s is = some t) : Guarded G (Graph f) s is t := by
  induction is generalizing s with
  | nil =>
    cases h
    exact .nil
  | cons i is ih =>
    rw [evalGuarded] at h
    by_cases hg : G s i
    · rw [if_pos hg, Option.bind_eq_some_iff] at h
      obtain ⟨u, hu, hrest⟩ := h
      have hstep : Graph f s i u := by
        cases hf : f s i with
        | error e => rw [hf] at hu; cases hu
        | ok v =>
          rw [hf] at hu
          cases hu
          exact hf
      exact Run.cons ⟨hg, hstep⟩ (ih hrest)
    · rw [if_neg hg] at h
      cases h

theorem exists_graph_of_eval {s : σ} {i : ι} {P : σ → Bool} (h : (f s i).toOption.any P = true) :
    ∃ t, Graph f s i t ∧ P t = true := by
  cases hf : f s i with
  | error e =>
    rw [hf] at h
    cases h
  | ok t =>
    rw [hf] at h
    exact ⟨t, hf, h⟩

theorem exists_run_of_eval {s : σ} {is : List ι} {P : σ → Bool} (h : (is.foldlM f s).toOption.any P = true) :
    ∃ t, Run (Graph f) s is t ∧ P t = true := by
  cases hrun : is.foldlM f s with
  | error e =>
    rw [hrun] at h
    cases h
  | ok t =>
    rw [hrun] at h
    exact ⟨t, (run_graph_iff f s t is).2 hrun, h⟩

theorem exists_guarded_of_eval (G : σ → ι → Prop) [∀ s i, Decidable (G s i)] {s : σ} {is : List ι}
    {P : σ → Bool} (h : (evalGuarded f G s is).any P = true) :
    ∃ t, Guarded G (Graph f) s is t ∧ P t = true := by
  obtain ⟨t, ht, hP⟩ := (Option.any_eq_true P _).1 h
  exact ⟨t, guarded_of_eval f G ht, hP⟩

end Fallible

section Total
variable (f : σ → ι → σ)

/-- What holds at the start and is kept by every step of a total step function, given the inputs. -/
theorem foldl_history (I : List ι → σ → Prop) {s : σ} (start : I [] s)
    (next : ∀ js v i, v = js.foldl f s → I js v → I (js ++ [i]) (f v i)) (is : List ι) :
    I is (is.foldl f s) := by
  induction is using List.reverseRecOn with
  | nil => exact start
  | append_singleton js i ih =>
    rw [List.foldl_append]
    exact next js _ i rfl ih

theorem foldl_invariant (I : σ → Prop) {s : σ} (start : I s) (next : ∀ v i, I v → I (f v i))
    (is : List ι) : I (is.foldl f s) :=
  foldl_history f (fun _ => I) start (fun _ v i _ hv => next v i hv) is

/-- Every step of a run satisfies `P` in the state it starts from. -/
def EveryStep (P : σ → ι → Prop) : σ → List ι → Prop
  | _, [] => True
  | s, i :: is => P s i ∧ EveryStep P (f s i) is

instance decidableEveryStep (P : σ → ι → Prop) [∀ s i, Decidable (P s i)] :
    ∀ (s : σ) (is : List ι), Decidable (EveryStep f P s is)
  | _, [] => .isTrue trivial
  | s, i :: is =>
    haveI := decidableEveryStep P (f s i) is
    inferInstanceAs (Decidable (P s i ∧ EveryStep f P (f s i) is))

theorem everyStep_append (P : σ → ι → Prop) (s : σ) (is js : List ι) :
    EveryStep f P s (is ++ js) ↔ EveryStep f P s is ∧ EveryStep f P (is.foldl f s) js := by
  induction is generalizing s with
  | nil => simp [EveryStep]
  | cons i is ih => simp only [List.cons_append, EveryStep, ih, List.foldl_cons, and_assoc]

theorem everyStep_snoc (P : σ → ι → Prop) (s : σ) (is : List ι) (i : ι) :
    EveryStep f P s (is ++ [i]) ↔ EveryStep f P s is ∧ P (is.foldl f s) i := by
  rw [everyStep_append]
  simp [EveryStep]

theorem EveryStep.and {P Q : σ → ι → Prop} {s : σ} {is : List ι} (hP : EveryStep f P s is)
    (hQ : EveryStep f Q s is) : EveryStep f (fun v i => P v i ∧ Q v i) s is := by
  induction is generalizing s with
  | nil => trivial
  | cons i is ih => exact ⟨⟨hP.1, hQ.1⟩, ih hP.2 hQ.2⟩

/-- What holds of every step from a state of an invariant holds of every step of a run. -/
theorem everyStep_of_invariant {P : σ → ι → Prop} (I : σ → Prop) {s : σ} (start : I s)
    (next : ∀ v i, I v → P v i ∧ I (f v i)) (is : List ι) : EveryStep f P s is := by
  induction is generalizing s with
  | nil => trivial
  | cons i is ih => exact ⟨(next s i start).1, ih (next s i start).2⟩

theorem EveryStep.invariant {P : σ → ι → Prop} (I : σ → Prop) {s : σ} {is : List ι}
    (steps : EveryStep f P s is) (start : I s) (next : ∀ v i, I v → P v i → I (f v i)) :
    I (is.foldl f s) := by
  induction is generalizing s with
  | nil => exact start
  | cons i is ih => exact ih steps.2 (next s i start steps.1)

end Total

section Records

theorem filterMap_snoc {κ : Type} (record : ι → Option κ) (is : List ι) (i : ι) :
    (is ++ [i]).filterMap record = is.filterMap record ++ (record i).toList := by
  rw [List.filterMap_append]
  cases h : record i <;> simp [h]

theorem filterMap_split {κ : Type} {record : ι → Option κ} {is : List ι} {front back : List κ} {entry : κ}
    (h : is.filterMap record = front ++ entry :: back) :
    ∃ before i after, is = before ++ i :: after ∧ before.filterMap record = front ∧ record i = some entry := by
  obtain ⟨start, rest, rfl, hstart, hrest⟩ := List.filterMap_eq_append_iff.1 h
  obtain ⟨silent, i, after, rfl, hsilent, hentry, _⟩ := List.filterMap_eq_cons_iff.1 hrest
  refine ⟨start ++ silent, i, after, (List.append_assoc _ _ _).symm, ?_, hentry⟩
  rw [List.filterMap_append, List.filterMap_eq_nil_iff.2 hsilent, List.append_nil, hstart]

def latest {κ : Type} (record : ι → Option κ) (is : List ι) : Option κ := (is.filterMap record).getLast?

theorem latest_snoc {κ : Type} (record : ι → Option κ) (is : List ι) (i : ι) :
    latest record (is ++ [i]) = (record i).or (latest record is) := by
  unfold latest
  rw [filterMap_snoc]
  cases record i with
  | none => simp
  | some k => simp

theorem exists_of_latest {κ : Type} {record : ι → Option κ} {is : List ι} {k : κ} (h : latest record is = some k) :
    ∃ i ∈ is, record i = some k := List.mem_filterMap.1 (List.mem_of_getLast? h)

theorem exists_latest_ge {κ : Type} [Preorder κ] {record : ι → Option κ} {is : List ι}
    (ascending : (is.filterMap record).Pairwise (· ≤ ·)) {i : ι} {k : κ} (hi : i ∈ is) (hk : record i = some k) :
    ∃ last, latest record is = some last ∧ k ≤ last := by
  have hmem : k ∈ is.filterMap record := List.mem_filterMap.2 ⟨i, hi, hk⟩
  obtain ⟨front, last, hsplit⟩ := (List.eq_nil_or_concat (is.filterMap record)).resolve_left (List.ne_nil_of_mem hmem)
  refine ⟨last, by rw [latest, hsplit, List.concat_eq_append, List.getLast?_concat], ?_⟩
  rw [hsplit, List.concat_eq_append, List.pairwise_append] at ascending
  rw [hsplit, List.concat_eq_append, List.mem_append, List.mem_singleton] at hmem
  rcases hmem with hfront | rfl
  · exact ascending.2.2 k hfront last (List.mem_singleton_self last)
  · exact le_refl k

theorem nodup_map_snoc {κ μ : Type} (name : κ → μ) {record : List κ} {last : κ} (h : (record.map name).Nodup)
    (hnew : ∀ old ∈ record, name old ≠ name last) : ((record ++ [last]).map name).Nodup := by
  rw [List.map_append, List.map_singleton, List.nodup_append]
  refine ⟨h, List.nodup_singleton _, ?_⟩
  intro a ha b hb
  obtain ⟨old, hold, rfl⟩ := List.mem_map.1 ha
  rw [List.mem_singleton.1 hb]
  exact hnew old hold

end Records

section Simulation
variable {σ' ι' : Type}

theorem Run.simulated {ω : Type} {step : σ → ι → σ → Prop} {step' : σ' → ι' → σ' → Prop} (R : List ι → σ → σ' → Prop)
    (seen : ι → Option ω) (seen' : ι' → Option ω) {s t : σ} {s' : σ'} {is : List ι} (run : Run step s is t)
    (start : R [] s s')
    (next : ∀ js v w i v', R js v v' → step v i w →
      ∃ is' w', Run step' v' is' w' ∧ R (js ++ [i]) w w' ∧ is'.filterMap seen' = (seen i).toList) :
    ∃ is' t', Run step' s' is' t' ∧ R is t t' ∧ is'.filterMap seen' = is.filterMap seen := by
  induction run with
  | nil => exact ⟨[], s', .nil, start, rfl⟩
  | snoc _ last ih =>
    obtain ⟨is', v', before, hv, hseen⟩ := ih
    obtain ⟨js', w', after, hw, hlast⟩ := next _ _ _ _ v' hv last
    refine ⟨is' ++ js', w', before.append after, hw, ?_⟩
    rw [List.filterMap_append, filterMap_snoc, hseen, hlast]

end Simulation

section Streaks
variable (up down : ι → Bool)

/-- How many inputs of one kind there were since the last one of another kind. -/
def streak (is : List ι) : ℕ :=
  is.foldl (fun n i => if up i then n + 1 else if down i then 0 else n) 0

@[simp] theorem streak_nil : streak up down [] = 0 := rfl

theorem streak_snoc (is : List ι) (i : ι) :
    streak up down (is ++ [i]) =
      if up i then streak up down is + 1 else if down i then 0 else streak up down is := by
  unfold streak
  rw [List.foldl_append]
  rfl

theorem streak_append {is js : List ι} (quiet : ∀ j ∈ js, down j = false) :
    streak up down (is ++ js) = streak up down is + js.countP up := by
  induction js using List.reverseRecOn with
  | nil => simp
  | append_singleton js j ih =>
    rw [List.forall_mem_append] at quiet
    have hj : down j = false := quiet.2 j (List.mem_singleton_self j)
    rw [← List.append_assoc, streak_snoc, ih quiet.1, List.countP_append, List.countP_singleton]
    cases up j with
    | true => simp [Nat.add_assoc]
    | false => simp [hj]

theorem streak_append_le (is js : List ι) : streak up down (is ++ js) ≤ streak up down is + js.countP up := by
  induction js using List.reverseRecOn with
  | nil => simp
  | append_singleton js j ih =>
    rw [← List.append_assoc, streak_snoc, List.countP_append, List.countP_singleton]
    split_ifs with hup hdown
    · omega
    · exact Nat.zero_le _
    · omega

/-- After an input that resets it, a streak is at most the number of inputs of its kind. -/
theorem streak_reset_le (is js : List ι) {i : ι} (hup : up i = false) (hdown : down i = true) :
    streak up down (is ++ i :: js) ≤ js.countP up := by
  have hle := streak_append_le up down (is ++ [i]) js
  rw [streak_snoc, hup, hdown] at hle
  simpa using hle

theorem countP_le_streak {is js : List ι} (quiet : ∀ j ∈ js, down j = false) :
    js.countP up ≤ streak up down (is ++ js) := by
  rw [streak_append up down quiet]
  exact Nat.le_add_left _ _

/-- A positive streak ends with an input of its kind, and nothing has reset it since. -/
theorem streak_pos {is : List ι} (h : 0 < streak up down is) :
    ∃ before i after, is = before ++ i :: after ∧ up i = true ∧ (∀ j ∈ after, down j = false) ∧
      streak up down is = streak up down before + 1 := by
  induction is using List.reverseRecOn with
  | nil => simp at h
  | append_singleton is k ih =>
    rw [streak_snoc] at h ⊢
    by_cases hup : up k = true
    · exact ⟨is, k, [], rfl, hup, by simp, by rw [if_pos hup]⟩
    rw [if_neg hup] at h ⊢
    by_cases hdown : down k = true
    · rw [if_pos hdown] at h
      omega
    rw [if_neg hdown] at h ⊢
    obtain ⟨before, i, after, rfl, hi, hquiet, hstreak⟩ := ih h
    refine ⟨before, i, after ++ [k], by simp, hi, ?_, hstreak⟩
    intro j hj
    rcases List.mem_append.1 hj with hj | hj
    · exact hquiet j hj
    · rw [List.mem_singleton.1 hj]
      simpa using hdown

theorem two_le_streak {is : List ι} (h : 2 ≤ streak up down is) :
    ∃ before i between j after, is = before ++ i :: between ++ j :: after ∧ up i = true ∧ up j = true ∧
      ∀ k ∈ between ++ after, down k = false := by
  obtain ⟨front, j, after, rfl, hj, hafter, hstreak⟩ := streak_pos up down (by omega : 0 < streak up down is)
  obtain ⟨before, i, between, rfl, hi, hbetween, _⟩ := streak_pos up down (by omega : 0 < streak up down front)
  refine ⟨before, i, between, j, after, rfl, hi, hj, ?_⟩
  intro k hk
  rcases List.mem_append.1 hk with hk | hk
  · exact hbetween k hk
  · exact hafter k hk

end Streaks
end LibrtbitDht.TransitionRuns
