import Mathlib

set_option autoImplicit false

namespace LeastElements

section Selection
variable {α β : Type} [LinearOrder β] (key : α → β)

/-- The `n` least elements, or all of them if there are fewer, the least first. -/
structure Least (n : ℕ) (all chosen : List α) : Prop where
  ascending : chosen.Pairwise (fun a b => key a ≤ key b)
  before : ∃ rest, (chosen ++ rest).Perm all ∧ ∀ a ∈ chosen, ∀ b ∈ rest, key a ≤ key b
  length : chosen.length = min n all.length

variable {key} {n : ℕ} {all chosen : List α}

theorem least_take {l : List α} (hperm : l.Perm all) (hsorted : l.Pairwise (fun a b => key a ≤ key b)) (n : ℕ) :
    Least key n all (l.take n) := by
  refine ⟨hsorted.sublist (List.take_sublist n l), ⟨l.drop n, ?_, ?_⟩, ?_⟩
  · rw [List.take_append_drop]
    exact hperm
  · rw [← List.take_append_drop n l, List.pairwise_append] at hsorted
    exact hsorted.2.2
  · rw [List.length_take, hperm.length_eq]

theorem Least.subset (h : Least key n all chosen) : chosen ⊆ all := by
  obtain ⟨rest, hperm, _⟩ := h.before
  intro a ha
  exact hperm.subset (List.mem_append_left _ ha)

theorem Least.le_of_not_mem (h : Least key n all chosen) {a b : α} (ha : a ∈ chosen) (hb : b ∈ all)
    (hnot : b ∉ chosen) : key a ≤ key b := by
  obtain ⟨rest, hperm, hle⟩ := h.before
  rcases List.mem_append.1 (hperm.mem_iff.2 hb) with hchosen | hrest
  · exact absurd hchosen hnot
  · exact hle a ha b hrest

theorem Least.mem_iff (h : Least key n all chosen) (hinj : ∀ a ∈ all, ∀ b ∈ all, key a = key b → a = b)
    (x : α) : x ∈ chosen ↔ x ∈ all ∧ all.countP (fun y => key y < key x) < n := by
  obtain ⟨rest, hperm, hle⟩ := h.before
  have hlen := h.length
  have hcount := hperm.countP_eq (p := fun y => decide (key y < key x))
  rw [List.countP_append] at hcount
  constructor
  · intro hx
    refine ⟨h.subset hx, ?_⟩
    have hrest : rest.countP (fun y => key y < key x) = 0 := by
      rw [List.countP_eq_zero]
      intro y hy
      simpa using hle x hx y hy
    have hfront : chosen.countP (fun y => key y < key x) < chosen.length := by
      rw [List.countP_lt_length_iff]
      exact ⟨x, hx, by simp⟩
    omega
  · rintro ⟨hx, hfew⟩
    by_contra hnot
    have hbelow : chosen.countP (fun y => key y < key x) = chosen.length := by
      rw [List.countP_eq_length]
      intro y hy
      have hne : key y ≠ key x := fun heq => hnot (hinj y (h.subset hy) x hx heq ▸ hy)
      exact decide_eq_true (lt_of_le_of_ne (h.le_of_not_mem hy hx hnot) hne)
    have hmem : x ∈ rest := (List.mem_append.1 (hperm.mem_iff.2 hx)).resolve_left hnot
    have hpos := List.length_pos_of_mem hmem
    have htotal := hperm.length_eq
    rw [List.length_append] at htotal
    omega

end Selection

theorem take_filterMap {α γ : Type} (f : α → Option γ) (n : ℕ) (l : List α) :
    (l.filterMap f).take n = ((l.filter (fun a => (f a).isSome)).take n).filterMap f := by
  induction l generalizing n with
  | nil => simp
  | cons a l ih =>
    cases hfa : f a with
    | none => simp [hfa, ih]
    | some c =>
      cases n with
      | zero => simp
      | succ n => simp [hfa, ih]

end LeastElements
