import Mathlib

set_option autoImplicit false

namespace LibrtbitDht

variable {α : Type}

/-- Applies `f` to the first element that satisfies `p`, if there is one. -/
def updateFirst (p : α → Bool) (f : α → α) : List α → Option (α × List α)
  | [] => none
  | a :: as =>
    if p a then some (a, f a :: as)
    else (updateFirst p f as).map (fun r => (r.1, a :: r.2))

theorem updateFirst_eq_none {p : α → Bool} {f : α → α} {xs : List α}
    (h : updateFirst p f xs = none) : ∀ x ∈ xs, p x = false := by
  induction xs with
  | nil => simp
  | cons a as ih =>
    rw [updateFirst] at h
    split_ifs at h with hp
    rw [Option.map_eq_none_iff] at h
    intro x hx
    rcases List.mem_cons.1 hx with rfl | hx
    · simpa using hp
    · exact ih h x hx

theorem updateFirst_eq_some {p : α → Bool} {f : α → α} {xs ys : List α} {a : α}
    (h : updateFirst p f xs = some (a, ys)) :
    ∃ pre post, xs = pre ++ a :: post ∧ ys = pre ++ f a :: post ∧ p a = true := by
  induction xs generalizing ys with
  | nil => simp [updateFirst] at h
  | cons b bs ih =>
    rw [updateFirst] at h
    split_ifs at h with hp
    · cases h
      exact ⟨[], bs, rfl, rfl, hp⟩
    · obtain ⟨⟨c, zs⟩, hc, he⟩ := Option.map_eq_some_iff.1 h
      cases he
      obtain ⟨pre, post, hbs, hzs, hpa⟩ := ih hc
      exact ⟨b :: pre, post, by rw [hbs]; rfl, by rw [hzs]; rfl, hpa⟩

end LibrtbitDht
