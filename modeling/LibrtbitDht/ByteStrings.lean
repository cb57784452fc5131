import Mathlib

set_option autoImplicit false

namespace ByteStrings

abbrev Bytes := List UInt8

def ascii (s : String) : Bytes := s.toList.map (fun c => UInt8.ofNat c.toNat)

section Numerals

def isDigit (b : UInt8) : Bool := 48 ≤ b.toNat && b.toNat ≤ 57

def numeral (n : ℕ) : Bytes :=
  if n = 0 then [48] else ((Nat.digits 10 n).map (fun d => UInt8.ofNat (48 + d))).reverse

def numeralValue (ds : Bytes) : ℕ := ds.foldl (fun a d => 10 * a + (d.toNat - 48)) 0

def readNumeral (bs : Bytes) : Option (ℕ × Bytes) :=
  let ds := bs.takeWhile isDigit
  if ds = [] then none else some (numeralValue ds, bs.dropWhile isDigit)

theorem digit_toNat {d : ℕ} (h : d < 10) : (UInt8.ofNat (48 + d)).toNat = 48 + d := by
  rw [UInt8.toNat_ofNat']
  omega

theorem numeral_digits (n : ℕ) : ∀ b ∈ numeral n, isDigit b = true := by
  intro b hb
  unfold numeral at hb
  split_ifs at hb with h
  · rw [List.mem_singleton.1 hb]
    rfl
  · obtain ⟨d, hd, rfl⟩ := List.mem_map.1 (List.mem_reverse.1 hb)
    have hlt : d < 10 := Nat.digits_lt_base (by decide) hd
    rw [isDigit, digit_toNat hlt]
    simp
    omega

theorem numeral_ne_nil (n : ℕ) : numeral n ≠ [] := by
  unfold numeral
  split_ifs with h
  · simp
  · simpa [Nat.digits_eq_nil_iff_eq_zero] using h

theorem numeralValue_numeral (n : ℕ) : numeralValue (numeral n) = n := by
  unfold numeralValue numeral
  split_ifs with h
  · rw [h]
    rfl
  · rw [List.foldl_reverse, List.foldr_map]
    have hdigits : ∀ ds : List ℕ, (∀ d ∈ ds, d < 10) →
        ds.foldr (fun d a => 10 * a + ((UInt8.ofNat (48 + d)).toNat - 48)) 0 = Nat.ofDigits 10 ds := by
      intro ds hds
      induction ds with
      | nil => rfl
      | cons d ds ih =>
        rw [List.foldr_cons, ih (fun e he => hds e (List.mem_cons_of_mem d he)), Nat.ofDigits_cons,
          digit_toNat (hds d List.mem_cons_self)]
        omega
    rw [hdigits _ (fun d hd => Nat.digits_lt_base (by decide) hd), Nat.ofDigits_digits]

theorem numeral_length_le {n k : ℕ} (hk : 0 < k) (h : n < 10 ^ k) : (numeral n).length ≤ k := by
  unfold numeral
  split_ifs
  · exact hk
  · rw [List.length_reverse, List.length_map]
    exact (Nat.digits_length_le_iff (by decide) n).2 h

theorem numeral_length {n k : ℕ} (h : 10 ^ k ≤ n) (h' : n < 10 ^ (k + 1)) : (numeral n).length = k + 1 := by
  have hle := numeral_length_le (Nat.succ_pos k) h'
  have hpos : 0 < n := lt_of_lt_of_le (Nat.pow_pos (by decide)) h
  have hlt := (Nat.lt_digits_length_iff (by decide) n).2 h
  rw [numeral, if_neg (by omega), List.length_reverse, List.length_map] at hle ⊢
  omega

theorem readNumeral_numeral (n : ℕ) {b : UInt8} (rest : Bytes) (hb : isDigit b = false) :
    readNumeral (numeral n ++ b :: rest) = some (n, b :: rest) := by
  have htake : (numeral n ++ b :: rest).takeWhile isDigit = numeral n := by
    rw [List.takeWhile_append_of_pos (numeral_digits n)]
    simp [hb]
  have hdrop : (numeral n ++ b :: rest).dropWhile isDigit = b :: rest := by
    rw [List.dropWhile_append_of_pos (numeral_digits n)]
    simp [hb]
  unfold readNumeral
  rw [htake, hdrop, if_neg (numeral_ne_nil n), numeralValue_numeral]

/-- A numeral that is followed by something is read the same with anything behind that. -/
theorem readNumeral_append {bs rest : Bytes} {n : ℕ} {b : UInt8} (h : readNumeral bs = some (n, b :: rest))
    (more : Bytes) : readNumeral (bs ++ more) = some (n, b :: (rest ++ more)) := by
  unfold readNumeral at h ⊢
  dsimp only at h ⊢
  split_ifs at h with hempty
  obtain ⟨hvalue, hdrop⟩ := Prod.mk.inj (Option.some.inj h)
  have hlonger : ¬ (bs.takeWhile isDigit).length = bs.length := by
    intro heq
    have hsplit := congrArg List.length (List.takeWhile_append_dropWhile (p := isDigit) (l := bs))
    rw [List.length_append, hdrop, List.length_cons] at hsplit
    omega
  rw [List.takeWhile_append, if_neg hlonger, if_neg hempty, List.dropWhile_append, hdrop, hvalue]
  rfl

end Numerals

section Words

/-- The last `k` bytes of a number, most significant first. -/
def bigEndian : ℕ → ℕ → Bytes
  | 0, _ => []
  | k + 1, n => bigEndian k (n / 256) ++ [UInt8.ofNat n]

def ofBigEndian (bs : Bytes) : ℕ := bs.foldl (fun a b => 256 * a + b.toNat) 0

@[simp] theorem bigEndian_length (k n : ℕ) : (bigEndian k n).length = k := by
  induction k generalizing n with
  | zero => rfl
  | succ k ih => rw [bigEndian, List.length_append, ih, List.length_singleton]

theorem ofBigEndian_bigEndian (k n : ℕ) : ofBigEndian (bigEndian k n) = n % 256 ^ k := by
  induction k generalizing n with
  | zero => rw [Nat.pow_zero, Nat.mod_one]; rfl
  | succ k ih =>
    have hlast : ofBigEndian (bigEndian (k + 1) n) = 256 * ofBigEndian (bigEndian k (n / 256)) + n % 256 := by
      rw [bigEndian, ofBigEndian, List.foldl_append]
      rfl
    rw [hlast, ih, Nat.pow_succ', Nat.mod_mul, Nat.add_comm]

def wordBytes (k : ℕ) (x : BitVec (8 * k)) : Bytes := bigEndian k x.toNat

/-- A word of exactly `k` bytes. -/
def readWord (k : ℕ) (bs : Bytes) : Option (BitVec (8 * k)) :=
  if bs.length = k then some (BitVec.ofNat (8 * k) (ofBigEndian bs)) else none

@[simp] theorem wordBytes_length (k : ℕ) (x : BitVec (8 * k)) : (wordBytes k x).length = k :=
  bigEndian_length k _

@[simp] theorem readWord_wordBytes (k : ℕ) (x : BitVec (8 * k)) : readWord k (wordBytes k x) = some x := by
  have hpow : (256 : ℕ) ^ k = 2 ^ (8 * k) := by
    rw [Nat.pow_mul]
  rw [readWord, if_pos (wordBytes_length k x), wordBytes, ofBigEndian_bigEndian, hpow,
    Nat.mod_eq_of_lt x.isLt, BitVec.ofNat_toNat, BitVec.setWidth_eq]

end Words

section Records
variable {α : Type}

/-- Reads records of `k` bytes each until nothing is left; at most `fuel` of them. -/
def readRecords (k : ℕ) (read : Bytes → Option α) : ℕ → Bytes → Option (List α)
  | 0, bs => if bs = [] then some [] else none
  | fuel + 1, bs =>
    if bs = [] then some []
    else do
      let a ← read (bs.take k)
      let as ← readRecords k read fuel (bs.drop k)
      return a :: as

def records (k : ℕ) (read : Bytes → Option α) (bs : Bytes) : Option (List α) :=
  readRecords k read bs.length bs

theorem readRecords_flatMap {β : Type} {k : ℕ} (hk : 0 < k) {read : Bytes → Option β} {write : α → Bytes}
    {f : α → β} (hlen : ∀ a, (write a).length = k) (l : List α)
    (hread : ∀ a ∈ l, read (write a) = some (f a)) (fuel : ℕ) (hfuel : l.length ≤ fuel) :
    readRecords k read fuel (l.flatMap write) = some (l.map f) := by
  induction l generalizing fuel with
  | nil => cases fuel <;> rfl
  | cons a l ih =>
    obtain ⟨fuel, rfl⟩ : ∃ m, fuel = m + 1 := ⟨fuel - 1, by simp at hfuel; omega⟩
    have hne : (a :: l).flatMap write ≠ [] := by
      intro hnil
      have hzero := congrArg List.length hnil
      rw [List.flatMap_cons, List.length_append, hlen, List.length_nil] at hzero
      omega
    have htake : ((a :: l).flatMap write).take k = write a := by
      rw [List.flatMap_cons, ← hlen a, List.take_left]
    have hdrop : ((a :: l).flatMap write).drop k = l.flatMap write := by
      rw [List.flatMap_cons, ← hlen a, List.drop_left]
    have htail := ih (fun b hb => hread b (List.mem_cons_of_mem a hb)) fuel (by simpa using hfuel)
    rw [readRecords, if_neg hne, htake, hdrop, hread a List.mem_cons_self, htail]
    rfl

theorem flatMap_length {k : ℕ} {write : α → Bytes} (hlen : ∀ a, (write a).length = k) (l : List α) :
    (l.flatMap write).length = l.length * k := by
  induction l with
  | nil => rw [List.flatMap_nil, List.length_nil, List.length_nil, Nat.zero_mul]
  | cons a l ih => rw [List.flatMap_cons, List.length_append, hlen, ih, List.length_cons, Nat.succ_mul, Nat.add_comm]

theorem records_flatMap {β : Type} {k : ℕ} (hk : 0 < k) {read : Bytes → Option β} {write : α → Bytes} {f : α → β}
    (hlen : ∀ a, (write a).length = k) (l : List α) (hread : ∀ a ∈ l, read (write a) = some (f a)) :
    records k read (l.flatMap write) = some (l.map f) := by
  apply readRecords_flatMap hk hlen l hread
  rw [flatMap_length hlen]
  exact Nat.le_mul_of_pos_right _ hk

theorem exists_read_of_readRecords {k : ℕ} {read : Bytes → Option α} {fuel : ℕ} {bs : Bytes} {l : List α}
    (h : readRecords k read fuel bs = some l) {a : α} (ha : a ∈ l) : ∃ b, read b = some a := by
  induction fuel generalizing bs l with
  | zero =>
    rw [readRecords] at h
    split_ifs at h
    cases h
    cases ha
  | succ fuel ih =>
    rw [readRecords] at h
    split_ifs at h
    · cases h
      cases ha
    · simp only [Option.bind_eq_bind, Option.bind_eq_some_iff] at h
      obtain ⟨first, hfirst, rest, hrest, heq⟩ := h
      cases heq
      rcases List.mem_cons.1 ha with rfl | ha
      · exact ⟨_, hfirst⟩
      · exact ih hrest ha

theorem exists_read_of_records {k : ℕ} {read : Bytes → Option α} {bs : Bytes} {l : List α}
    (h : records k read bs = some l) {a : α} (ha : a ∈ l) : ∃ b, read b = some a :=
  exists_read_of_readRecords h ha

end Records
end ByteStrings
