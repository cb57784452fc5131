import Mathlib
import LibrtbitDht.AlignedBlock

set_option autoImplicit false

/-!
# Identifiers

`Id20` is twenty bytes, most significant first, so its lexicographic order is the
order of the 160-bit number and bit `0` is the most significant one. Reading or
writing a bit past the last byte is an out-of-bounds index.
-/
namespace LibrtbitDht
open AlignedBlock

/-- The ways in which an execution can stop without returning. The last one is the
bound that the model puts on a loop, never a behaviour of the source. -/
inductive Fault where
  | outOfBounds
  | unreachable
  | debugAssert
  | overflow
  | outOfFuel
  | unwrapOnErr
deriving DecidableEq, Repr

/-- An assertion, an index check or an overflow check of the source. -/
def check (ok : Prop) [Decidable ok] (fault : Fault) : Except Fault Unit :=
  if ok then .ok () else .error fault

theorem check_true {ok : Prop} [Decidable ok] (h : ok) (fault : Fault) : check ok fault = .ok () :=
  if_pos h

@[simp] theorem ok_bind {ε α β : Type} (a : α) (f : α → Except ε β) : (Except.ok a >>= f) = f a := rfl

@[simp] theorem pure_eq_ok {ε α : Type} (a : α) : (pure a : Except ε α) = .ok a := rfl

abbrev Id20 := BitVec 160

namespace Id20

def getBit (x : Id20) (bit : ℕ) : Except Fault Bool :=
  if bit < 160 then .ok (x.getMsbD bit) else .error .outOfBounds

def setBit (x : Id20) (bit : ℕ) (value : Bool) : Except Fault Id20 :=
  if bit < 160 then
    .ok (if value then x ||| BitVec.twoPow 160 (159 - bit) else x &&& ~~~(BitVec.twoPow 160 (159 - bit)))
  else .error .outOfBounds

def distance (x y : Id20) : Id20 := x ^^^ y

def commonPrefix (x y : Id20) : ℕ :=
  ((List.range 160).takeWhile (fun i => x.getMsbD i == y.getMsbD i)).length

end Id20

section Bits

theorem le_length_takeWhile_iff {α : Type} (p : α → Bool) (l : List α) (c : ℕ) (hc : c ≤ l.length) :
    c ≤ (l.takeWhile p).length ↔ ∀ x ∈ l.take c, p x = true := by
  induction l generalizing c with
  | nil => simp_all
  | cons a l ih =>
    cases c with
    | zero => simp
    | succ c =>
      rw [List.length_cons] at hc
      have ih := ih c (by omega)
      cases h : p a <;> simp [h, ih]

theorem getMsbD_eq_testBit (x : Id20) (i : ℕ) (hi : i < 160) :
    x.getMsbD i = x.toNat.testBit (159 - i) := by
  simp [BitVec.getMsbD, hi, BitVec.getLsbD]

theorem sameBits_iff_div (x y : Id20) (c : ℕ) (hc : c ≤ 160) :
    (∀ i < c, x.getMsbD i = y.getMsbD i) ↔ x.toNat / 2 ^ (160 - c) = y.toNat / 2 ^ (160 - c) := by
  constructor
  · intro h
    refine Nat.eq_of_testBit_eq fun j => ?_
    rw [Nat.testBit_div_two_pow, Nat.testBit_div_two_pow]
    by_cases hj : j < c
    · have hb := h (c - 1 - j) (by omega)
      rw [getMsbD_eq_testBit x _ (by omega), getMsbD_eq_testBit y _ (by omega)] at hb
      have he : 159 - (c - 1 - j) = j + (160 - c) := by omega
      rwa [he] at hb
    · have hw : 2 ^ 160 ≤ 2 ^ (j + (160 - c)) := Nat.pow_le_pow_right (by omega) (by omega)
      rw [Nat.testBit_lt_two_pow (lt_of_lt_of_le x.isLt hw),
        Nat.testBit_lt_two_pow (lt_of_lt_of_le y.isLt hw)]
  · intro h i hi
    have hb := congrArg (fun n => n.testBit (c - 1 - i)) h
    simp only [Nat.testBit_div_two_pow] at hb
    have he : c - 1 - i + (160 - c) = 159 - i := by omega
    rw [he] at hb
    rw [getMsbD_eq_testBit x _ (by omega), getMsbD_eq_testBit y _ (by omega)]
    exact hb

theorem le_commonPrefix_iff (x y : Id20) (c : ℕ) (hc : c ≤ 160) :
    c ≤ x.commonPrefix y ↔ x.toNat / 2 ^ (160 - c) = y.toNat / 2 ^ (160 - c) := by
  have hrange : ∀ i, i ∈ (List.range 160).take c ↔ i < c := by
    intro i
    rw [List.take_range, List.mem_range, Nat.min_eq_left hc]
  rw [Id20.commonPrefix, le_length_takeWhile_iff _ _ _ (by rwa [List.length_range]), ← sameBits_iff_div x y c hc]
  simp only [hrange, beq_iff_eq]

theorem setBit_spec (x : Id20) (bit : ℕ) (value : Bool) (hbit : bit < 160) :
    ∃ y, x.setBit bit value = .ok y ∧
      ∀ j, y.toNat.testBit j = if j = 159 - bit then value else x.toNat.testBit j := by
  refine ⟨_, by rw [Id20.setBit, if_pos hbit], ?_⟩
  intro j
  have hlt : 159 - bit < 160 := by omega
  have hpos : (BitVec.twoPow 160 (159 - bit)).getLsbD j = decide (j = 159 - bit) := by
    rw [BitVec.getLsbD_twoPow, decide_eq_true hlt, Bool.true_and]
    exact decide_eq_decide.2 eq_comm
  rw [BitVec.testBit_toNat, BitVec.testBit_toNat]
  cases value with
  | true =>
    rw [if_pos rfl, BitVec.getLsbD_or, hpos]
    by_cases h : j = 159 - bit <;> simp [h]
  | false =>
    rw [if_neg (by decide), BitVec.getLsbD_and, BitVec.getLsbD_not, hpos]
    by_cases h : j = 159 - bit
    · simp [h]
    · have hwidth : x.getLsbD j = true → j < 160 := BitVec.lt_of_getLsbD
      cases hx : x.getLsbD j with
      | true => simp [h, hwidth hx]
      | false => simp

end Bits

section Splitting
variable (b : Block)

/-- Setting the highest free bit of the first identifier of a block gives the first of its right half. -/
theorem setBit_start (start : Id20) (bits : ℕ) (h0 : 0 < bits) (h160 : bits ≤ 160)
    (hbits : b.bits = bits) (hs : start.toNat = b.start) :
    ∃ x, start.setBit (160 - bits) true = .ok x ∧ x.toNat = b.right.start := by
  obtain ⟨x, hx, hset⟩ := setBit_spec start (160 - bits) true (by omega)
  refine ⟨x, hx, Nat.eq_of_testBit_eq fun j => ?_⟩
  have hbit : 159 - (160 - bits) = b.bits - 1 := by omega
  rw [hset, hbit, hs, b.right_start_testBit (by omega)]

/-- Clearing the highest free bit of the last identifier of a block gives the last of its left half. -/
theorem setBit_last (last : Id20) (bits : ℕ) (h0 : 0 < bits) (h160 : bits ≤ 160)
    (hbits : b.bits = bits) (hl : last.toNat = b.last) :
    ∃ x, last.setBit (160 - bits) false = .ok x ∧ x.toNat = b.left.last := by
  obtain ⟨x, hx, hset⟩ := setBit_spec last (160 - bits) false (by omega)
  refine ⟨x, hx, Nat.eq_of_testBit_eq fun j => ?_⟩
  have hbit : 159 - (160 - bits) = b.bits - 1 := by omega
  rw [hset, hbit, hl, b.left_last_testBit (by omega)]

end Splitting
end LibrtbitDht
