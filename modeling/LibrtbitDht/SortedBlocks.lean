import Mathlib

set_option autoImplicit false

namespace SortedBlocks

section Sorted
variable {α β : Type} [LinearOrder β] {key : α → β} {l : List α}

theorem countP_lt_of_mem_take (h : l.Pairwise (fun a b => key a ≤ key b)) {n : ℕ} {x : α} (hx : x ∈ l.take n) :
    l.countP (fun y => key y < key x) < n := by
  rw [← List.take_append_drop n l, List.pairwise_append] at h
  have hdrop : (l.drop n).countP (fun y => key y < key x) = 0 := by
    rw [List.countP_eq_zero]
    intro y hy
    simpa using h.2.2 x hx y hy
  have htake : (l.take n).countP (fun y => key y < key x) < (l.take n).length := by
    rw [List.countP_lt_length_iff]
    exact ⟨x, hx, by simp⟩
  have hsplit := congrArg (List.countP (fun y => key y < key x)) (List.take_append_drop n l)
  rw [List.countP_append, hdrop] at hsplit
  have hlen := List.length_take_le n l
  omega

theorem exists_mem_take {n : ℕ} {x : α} (hx : x ∈ l) (h : l.countP (fun y => key y < key x) < n) :
    ∃ y ∈ l.take n, key x ≤ key y := by
  by_contra hnone
  push Not at hnone
  have hall : (l.take n).countP (fun y => key y < key x) = (l.take n).length := by
    rw [List.countP_eq_length]
    intro y hy
    simpa using hnone y hy
  have hle := (List.take_sublist n l).countP_le (p := fun y => key y < key x)
  rw [hall, List.length_take] at hle
  have hlen : l.length ≤ n := by omega
  rw [List.take_of_length_le hlen] at hnone
  exact lt_irrefl _ (hnone x hx)

theorem lt_countP_of_mem_drop (h : l.Pairwise (fun a b => key a ≤ key b)) {n : ℕ} {x : α} (hx : x ∈ l.drop n) :
    n < l.countP (fun y => key y ≤ key x) := by
  rw [← List.take_append_drop n l, List.pairwise_append] at h
  have htake : (l.take n).countP (fun y => key y ≤ key x) = (l.take n).length := by
    rw [List.countP_eq_length]
    intro y hy
    simpa using h.2.2 y hy x hx
  have hdrop : 0 < (l.drop n).countP (fun y => key y ≤ key x) := by
    rw [List.countP_pos_iff]
    exact ⟨x, hx, by simp⟩
  have hlen := List.length_pos_of_mem hx
  rw [List.length_drop] at hlen
  have hsplit := congrArg (List.countP (fun y => key y ≤ key x)) (List.take_append_drop n l)
  rw [List.countP_append, htake, List.length_take] at hsplit
  omega

theorem exists_mem_drop {n : ℕ} {x : α} (h : n < l.countP (fun y => key y ≤ key x)) :
    ∃ y ∈ l.drop n, key y ≤ key x := by
  by_contra hnone
  push Not at hnone
  have hdrop : (l.drop n).countP (fun y => key y ≤ key x) = 0 := by
    rw [List.countP_eq_zero]
    intro y hy
    simpa using hnone y hy
  have hsplit := congrArg (List.countP (fun y => key y ≤ key x)) (List.take_append_drop n l)
  rw [List.countP_append, hdrop] at hsplit
  have hle := (List.countP_le_length (l := l.take n) (p := fun y => key y ≤ key x)).trans (List.length_take_le n l)
  omega

end Sorted

section Blocks
variable {κ α : Type} [DecidableEq κ] (block : κ → List α)

/-- The number of elements in the blocks before the one with this name. -/
def ahead (names : List κ) (a : κ) : ℕ := ((names.takeWhile (· ≠ a)).map (fun b => (block b).length)).sum

theorem ahead_head (a : κ) (names : List κ) : ahead block (a :: names) a = 0 := by
  simp [ahead]

theorem ahead_tail {a b : κ} (h : b ≠ a) (names : List κ) :
    ahead block (b :: names) a = (block b).length + ahead block names a := by
  simp [ahead, h]

theorem mem_take_flatMap {names : List κ} (hnd : names.Nodup) (n : ℕ) (x : α) :
    x ∈ (names.flatMap block).take n ↔ ∃ a ∈ names, x ∈ (block a).take (n - ahead block names a) := by
  induction names generalizing n with
  | nil => simp
  | cons b names ih =>
    obtain ⟨hb, hnd⟩ := List.nodup_cons.1 hnd
    have hne : ∀ a ∈ names, b ≠ a := fun a ha hba => hb (hba ▸ ha)
    rw [List.flatMap_cons, List.take_append, List.mem_append, ih hnd, List.exists_mem_cons_iff, ahead_head,
      Nat.sub_zero]
    refine or_congr_right (exists_congr fun a => and_congr_right fun ha => ?_)
    rw [ahead_tail block (hne a ha), Nat.sub_sub]

theorem mem_drop_flatMap {names : List κ} (hnd : names.Nodup) (n : ℕ) (x : α) :
    x ∈ (names.flatMap block).drop n ↔ ∃ a ∈ names, x ∈ (block a).drop (n - ahead block names a) := by
  induction names generalizing n with
  | nil => simp
  | cons b names ih =>
    obtain ⟨hb, hnd⟩ := List.nodup_cons.1 hnd
    have hne : ∀ a ∈ names, b ≠ a := fun a ha hba => hb (hba ▸ ha)
    rw [List.flatMap_cons, List.drop_append, List.mem_append, ih hnd, List.exists_mem_cons_iff, ahead_head,
      Nat.sub_zero]
    refine or_congr_right (exists_congr fun a => and_congr_right fun ha => ?_)
    rw [ahead_tail block (hne a ha), Nat.sub_sub]

variable {β : Type} [LinearOrder β] (key : α → β)

def CutsBetween (l : List α) (n : ℕ) : Prop := ∀ x ∈ l.take n, ∀ y ∈ l.drop n, key x ≤ key y

/-- The same in terms of counts: where `x` of one block has a larger key than `y` of another, the
cut leaves no element like `x` in front of it, or none like `y` behind it. -/
theorem cutsBetween_flatMap_iff {names : List κ} (hnd : names.Nodup)
    (hsorted : ∀ a ∈ names, (block a).Pairwise (fun x y => key x ≤ key y)) (n : ℕ) :
    CutsBetween key (names.flatMap block) n ↔
      ∀ a ∈ names, ∀ b ∈ names, ∀ x ∈ block a, ∀ y ∈ block b, key y < key x →
        n ≤ ahead block names a + (block a).countP (fun z => key z < key x) ∨
        ahead block names b + (block b).countP (fun z => key z ≤ key y) ≤ n := by
  constructor
  · intro hcut a ha b hb x hx y hy hlt
    by_contra hnone
    push Not at hnone
    obtain ⟨hfront, hbehind⟩ := hnone
    have hroom : (block a).countP (fun z => key z < key x) < n - ahead block names a := by omega
    obtain ⟨x', hx', hxx'⟩ := exists_mem_take hx hroom
    have hpos : 0 < (block b).countP (fun z => key z ≤ key y) := by
      rw [List.countP_pos_iff]
      exact ⟨y, hy, by simp⟩
    have hrest : n - ahead block names b < (block b).countP (fun z => key z ≤ key y) := by omega
    obtain ⟨y', hy', hyy'⟩ := exists_mem_drop hrest
    have hle := hcut x' ((mem_take_flatMap block hnd n x').2 ⟨a, ha, hx'⟩) y'
      ((mem_drop_flatMap block hnd n y').2 ⟨b, hb, hy'⟩)
    exact not_lt.2 (hxx'.trans (hle.trans hyy')) hlt
  · intro hcounts x hx y hy
    obtain ⟨a, ha, hx⟩ := (mem_take_flatMap block hnd n x).1 hx
    obtain ⟨b, hb, hy⟩ := (mem_drop_flatMap block hnd n y).1 hy
    by_contra hlt
    have hfront := countP_lt_of_mem_take (hsorted a ha) hx
    have hbehind := lt_countP_of_mem_drop (hsorted b hb) hy
    rcases hcounts a ha b hb x (List.mem_of_mem_take hx) y (List.mem_of_mem_drop hy) (not_le.1 hlt) with h | h
    · omega
    · omega

end Blocks
end SortedBlocks
