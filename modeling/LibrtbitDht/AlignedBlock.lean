import Mathlib

set_option autoImplicit false

namespace LibrtbitDht.AlignedBlock

structure Block where
  quotient : ℕ
  bits : ℕ
deriving DecidableEq, Repr

namespace Block

def start (b : Block) : ℕ := b.quotient * 2 ^ b.bits

def last (b : Block) : ℕ := b.start + (2 ^ b.bits - 1)

def left (b : Block) : Block := ⟨2 * b.quotient, b.bits - 1⟩

def right (b : Block) : Block := ⟨2 * b.quotient + 1, b.bits - 1⟩

def Mem (b : Block) (x : ℕ) : Prop := b.start ≤ x ∧ x ≤ b.last

theorem mem_iff_div (b : Block) (x : ℕ) : b.Mem x ↔ x / 2 ^ b.bits = b.quotient := by
  have hp : 0 < 2 ^ b.bits := Nat.two_pow_pos _
  rw [Nat.div_eq_iff hp, Mem, last, start]
  omega

theorem start_aligned (b : Block) : b.start % 2 ^ b.bits = 0 := Nat.mul_mod_left _ _

theorem last_succ (b : Block) : b.last + 1 = b.start + 2 ^ b.bits := by
  have hp : 0 < 2 ^ b.bits := Nat.two_pow_pos _
  rw [last]
  omega

theorem start_le_last (b : Block) : b.start ≤ b.last := Nat.le_add_right _ _

theorem eq_of_bounds (b : Block) (lo bits : ℕ) (hs : b.start = lo) (hb : b.bits = bits) :
    b = ⟨lo / 2 ^ bits, bits⟩ := by
  subst hs hb
  have hp : 0 < 2 ^ b.bits := Nat.two_pow_pos _
  rw [start, Nat.mul_div_cancel _ hp]

section Halves
variable (b : Block)

private theorem pow_split {n : ℕ} (h : 0 < n) : 2 ^ n = 2 * 2 ^ (n - 1) := by
  rw [← Nat.pow_succ', Nat.succ_eq_add_one, Nat.sub_add_cancel h]

theorem left_start (h : 0 < b.bits) : b.left.start = b.start := by
  simp only [left, start, pow_split h]
  ring

theorem right_start (h : 0 < b.bits) : b.right.start = b.start + 2 ^ (b.bits - 1) := by
  simp only [right, start, pow_split h]
  ring

theorem left_last (h : 0 < b.bits) : b.left.last = b.start + (2 ^ (b.bits - 1) - 1) := by
  rw [last, left_start b h]
  rfl

theorem left_last_succ (h : 0 < b.bits) : b.left.last + 1 = b.right.start := by
  rw [last_succ, left_start b h, right_start b h]
  rfl

theorem right_last (h : 0 < b.bits) : b.right.last = b.last := by
  have hr := last_succ b.right
  have hb := last_succ b
  rw [right_start b h] at hr
  have hp := pow_split h
  have hbits : b.right.bits = b.bits - 1 := rfl
  rw [hbits] at hr
  omega

theorem mem_halves (h : 0 < b.bits) (x : ℕ) : b.Mem x ↔ b.left.Mem x ∨ b.right.Mem x := by
  have hl := left_last_succ b h
  have hs := left_start b h
  have hr := right_last b h
  have h1 := start_le_last b.left
  have h2 := start_le_last b.right
  simp only [Mem]
  omega

theorem halves_disjoint (h : 0 < b.bits) (x : ℕ) : ¬ (b.left.Mem x ∧ b.right.Mem x) := by
  have hl := left_last_succ b h
  simp only [Mem]
  omega

/-- Inside the block, comparing with the first element of the right half picks the half. -/
theorem mem_left_iff (h : 0 < b.bits) (x : ℕ) (hx : b.Mem x) : b.left.Mem x ↔ x < b.right.start := by
  have hl := left_last_succ b h
  have hs := left_start b h
  simp only [Mem] at hx ⊢
  omega

theorem mem_right_iff (h : 0 < b.bits) (x : ℕ) (hx : b.Mem x) :
    b.right.Mem x ↔ b.right.start ≤ x := by
  have hr := right_last b h
  simp only [Mem] at hx ⊢
  omega

end Halves

section Bits
variable (b : Block)

theorem start_testBit (j : ℕ) :
    b.start.testBit j = if j < b.bits then false else b.quotient.testBit (j - b.bits) := by
  have h := Nat.testBit_two_pow_mul_add b.quotient (Nat.two_pow_pos b.bits) j
  rwa [Nat.add_zero, Nat.zero_testBit, Nat.mul_comm] at h

theorem last_testBit (j : ℕ) :
    b.last.testBit j = if j < b.bits then true else b.quotient.testBit (j - b.bits) := by
  have hlow : 2 ^ b.bits - 1 < 2 ^ b.bits := Nat.sub_lt (Nat.two_pow_pos b.bits) (by omega)
  have h := Nat.testBit_two_pow_mul_add b.quotient hlow j
  rw [Nat.testBit_two_pow_sub_one, Nat.mul_comm] at h
  rw [last, start, h]
  by_cases hj : j < b.bits <;> simp [hj]

theorem right_start_testBit (h : 0 < b.bits) (j : ℕ) :
    b.right.start.testBit j = if j = b.bits - 1 then true else b.start.testBit j := by
  have hbits : b.right.bits = b.bits - 1 := rfl
  have hquot : b.right.quotient = 2 * b.quotient + 1 := rfl
  rw [start_testBit, start_testBit, hbits, hquot]
  rcases lt_trichotomy j (b.bits - 1) with hj | hj | hj
  · rw [if_pos hj, if_neg (by omega), if_pos (by omega)]
  · rw [if_neg (by omega), if_pos hj, hj, Nat.sub_self, Nat.testBit_zero]
    simp
  · have hhalf : (2 * b.quotient + 1) / 2 = b.quotient := by omega
    have hbit : j - (b.bits - 1) = (j - b.bits) + 1 := by omega
    rw [if_neg (by omega), if_neg (by omega), if_neg (by omega), hbit, Nat.testBit_succ, hhalf]

theorem left_last_testBit (h : 0 < b.bits) (j : ℕ) :
    b.left.last.testBit j = if j = b.bits - 1 then false else b.last.testBit j := by
  have hbits : b.left.bits = b.bits - 1 := rfl
  have hquot : b.left.quotient = 2 * b.quotient := rfl
  rw [last_testBit, last_testBit, hbits, hquot]
  rcases lt_trichotomy j (b.bits - 1) with hj | hj | hj
  · rw [if_pos hj, if_neg (by omega), if_pos (by omega)]
  · rw [if_neg (by omega), if_pos hj, hj, Nat.sub_self, Nat.testBit_zero]
    simp
  · have hhalf : 2 * b.quotient / 2 = b.quotient := by omega
    have hbit : j - (b.bits - 1) = (j - b.bits) + 1 := by omega
    rw [if_neg (by omega), if_neg (by omega), if_neg (by omega), hbit, Nat.testBit_succ, hhalf]

end Bits

theorem nodup_length_le (b : Block) (xs : List ℕ) (hn : xs.Nodup) (hx : ∀ x ∈ xs, b.Mem x) :
    xs.length ≤ 2 ^ b.bits := by
  have hsub : xs.toFinset ⊆ Finset.Ico b.start (b.start + 2 ^ b.bits) := by
    intro x hm
    have hb := hx x (List.mem_toFinset.1 hm)
    have hl := last_succ b
    rw [Finset.mem_Ico]
    simp only [Mem] at hb
    omega
  calc
    xs.length = xs.toFinset.card := (List.toFinset_card_of_nodup hn).symm
    _ ≤ (Finset.Ico b.start (b.start + 2 ^ b.bits)).card := Finset.card_le_card hsub
    _ = 2 ^ b.bits := by rw [Nat.card_Ico, Nat.add_sub_cancel_left]

end Block
end LibrtbitDht.AlignedBlock
