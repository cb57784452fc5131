import LibrtbitDht.ByteStrings

set_option autoImplicit false

/-!
# Bencoded values and readers

A struct is written as a dictionary with its keys in order and without the fields that
are skipped. It is read from a dictionary in any order: keys it does not know are
skipped, a key that occurs twice is an error, an optional field is there exactly when
its key is. What becomes of an integer outside the range of its field, and of a text
that is nested too deeply, is left to the implementation.
-/
namespace Bencode
open ByteStrings

inductive BValue where
  | int (n : ℤ)
  | bytes (b : Bytes)
  | list (vs : List BValue)
  | dict (es : List (Bytes × BValue))

abbrev Entry := Bytes × BValue

abbrev Reader (α : Type) := BValue → Option α

section Writing

abbrev Fields := List (Bytes × Option BValue)

def written (fields : Fields) : List Entry := fields.filterMap (fun f => f.2.map (fun v => (f.1, v)))

def keyOrder (key : Bytes) : List ℕ := key.map UInt8.toNat

def ByKey (a b : Entry) : Prop := keyOrder a.1 ≤ keyOrder b.1

instance : DecidableRel ByKey := fun a b => inferInstanceAs (Decidable (keyOrder a.1 ≤ keyOrder b.1))

instance : Std.Total ByKey := ⟨fun a b => le_total (keyOrder a.1) (keyOrder b.1)⟩

instance : IsTrans Entry ByKey := ⟨fun _ _ _ => le_trans⟩

theorem keyOrder_injective : Function.Injective keyOrder :=
  List.map_injective_iff.2 (fun _ _ => UInt8.toNat_inj.1)

def struct (fields : Fields) : BValue := .dict ((written fields).insertionSort ByKey)

end Writing

section Scalars

def bytes : Reader Bytes
  | .bytes b => some b
  | _ => none

def parsed {α : Type} (read : Bytes → Option α) : Reader α
  | .bytes b => read b
  | _ => none

end Scalars

section Types
variable {α β : Type}

/-- A type that values are read as: what it makes of a value, and whether its reader comes to an
integer outside the range of its field before it refuses anything. -/
structure Typed (α : Type) where
  read : Reader α
  strays : BValue → Bool

def plain (read : Reader α) : Typed α := ⟨read, fun _ => false⟩

def Typed.map (f : α → β) (t : Typed α) : Typed β := ⟨fun v => (t.read v).map f, t.strays⟩

/-- An integer of `w` bits; one that is out of range would be reduced to as many. -/
def integer (w : ℕ) (low high : ℤ) : Typed (BitVec w) where
  read
    | .int n => some (BitVec.ofInt w n)
    | _ => none
  strays
    | .int n => decide (n < low ∨ high ≤ n)
    | _ => false

def uint (w : ℕ) : Typed (BitVec w) := integer w 0 (2 ^ w)

def sint (w : ℕ) : Typed (BitVec w) := integer w (-2 ^ (w - 1)) (2 ^ (w - 1))

def ignored : Typed Unit := plain (fun _ => some ())

theorem uint_toNat {w : ℕ} (x : BitVec w) : (uint w).read (.int x.toNat) = some x := by
  change some (BitVec.ofInt w x.toNat) = some x
  rw [BitVec.ofInt_natCast, BitVec.ofNat_toNat, BitVec.setWidth_eq]

theorem sint_toInt {w : ℕ} (x : BitVec w) : (sint w).read (.int x.toInt) = some x := by
  change some (BitVec.ofInt w x.toInt) = some x
  rw [BitVec.ofInt_toInt]

theorem uint_fits {w : ℕ} (x : BitVec w) : (uint w).strays (.int x.toNat) = false := by
  have hlt : (x.toNat : ℤ) < 2 ^ w := by exact_mod_cast x.isLt
  apply decide_eq_false
  omega

theorem sint_fits {w : ℕ} (x : BitVec w) : (sint w).strays (.int x.toInt) = false := by
  have hlow := BitVec.le_toInt x
  have hhigh := BitVec.toInt_lt (x := x)
  apply decide_eq_false
  omega

structure Slot where
  reads : BValue → Bool
  strays : BValue → Bool

def Typed.slot (t : Typed α) : Slot := ⟨fun v => (t.read v).isSome, t.strays⟩

/-- A reader goes through the entries as they come and stops at the first one that it refuses: a key
that it has seen, or a value that it cannot read. -/
def straysIn (slots : List (Bytes × Slot)) : List Bytes → List Entry → Bool
  | _, [] => false
  | seen, (key, v) :: es =>
    match slots.lookup key with
    | none => straysIn slots seen es
    | some slot =>
      if seen.contains key then false
      else if slot.strays v then true
      else slot.reads v && straysIn slots (key :: seen) es

def structType (read : Reader α) (slots : List (Bytes × Slot)) : Typed α where
  read
  strays
    | .dict es => straysIn slots [] es
    | _ => false

/-- No value under a key of the struct has an integer that does not fit. -/
def FitsIn (slots : List (Bytes × Slot)) (es : List Entry) : Prop :=
  ∀ e ∈ es, ∀ slot, slots.lookup e.1 = some slot → slot.strays e.2 = false

theorem fitsIn_of_slots {slots : List (Bytes × Slot)} {es : List Entry}
    (h : ∀ s ∈ slots, ∀ e ∈ es, e.1 = s.1 → s.2.strays e.2 = false) : FitsIn slots es := by
  intro e he slot hslot
  obtain ⟨before, after, rfl, _⟩ := List.lookup_eq_some_iff.1 hslot
  exact h (e.1, slot) (by simp) e he rfl

theorem FitsIn.straysIn_eq {slots : List (Bytes × Slot)} {es : List Entry} (h : FitsIn slots es) (seen : List Bytes) :
    straysIn slots seen es = false := by
  induction es generalizing seen with
  | nil => rfl
  | cons e es ih =>
    obtain ⟨key, v⟩ := e
    have htail : FitsIn slots es := fun e he => h e (List.mem_cons_of_mem _ he)
    rw [straysIn]
    cases hslot : slots.lookup key with
    | none => exact ih htail seen
    | some slot =>
      have hv : slot.strays v = false := h (key, v) List.mem_cons_self slot hslot
      simp only [hv, Bool.false_eq_true, if_false, ih htail, Bool.and_false, ite_self]

end Types

section Lists
variable {α β : Type}

def readEach (read : Reader α) : List BValue → Option (List α)
  | [] => some []
  | v :: vs => do
    let a ← read v
    let as ← readEach read vs
    return a :: as

def list (read : Reader α) : Reader (List α)
  | .list vs => readEach read vs
  | _ => none

theorem list_map {read : Reader β} {write : α → BValue} {f : α → β} {l : List α}
    (h : ∀ a ∈ l, read (write a) = some (f a)) : list read (.list (l.map write)) = some (l.map f) := by
  have hreads : readEach read (l.map write) = some (l.map f) := by
    induction l with
    | nil => rfl
    | cons a l ih =>
      have htail := ih (fun b hb => h b (List.mem_cons_of_mem a hb))
      rw [List.map_cons, readEach, h a List.mem_cons_self, htail]
      rfl
  exact hreads

theorem exists_read_of_list {read : Reader α} {v : BValue} {l : List α} (h : list read v = some l) {a : α}
    (ha : a ∈ l) : ∃ w, read w = some a := by
  cases v with
  | list vs =>
    have hreads : readEach read vs = some l := h
    clear h
    induction vs generalizing l with
    | nil =>
      cases hreads
      cases ha
    | cons w vs ih =>
      simp only [readEach, Option.bind_eq_bind, Option.bind_eq_some_iff] at hreads
      obtain ⟨first, hfirst, rest, hrest, heq⟩ := hreads
      cases heq
      rcases List.mem_cons.1 ha with rfl | ha
      · exact ⟨w, hfirst⟩
      · exact ih ha hrest
  | int n => cases h
  | bytes b => cases h
  | dict es => cases h

end Lists

section Dictionaries
variable {α : Type}

/-- The value under a key, `some none` if it is missing. -/
def lookup (key : Bytes) (es : List Entry) : Option (Option BValue) :=
  match es.filter (fun e => e.1 = key) with
  | [] => some none
  | [e] => some (some e.2)
  | _ => none

def field (key : Bytes) (read : Reader α) : Reader α
  | .dict es =>
    match lookup key es with
    | some (some value) => read value
    | _ => none
  | _ => none

def optionField (key : Bytes) (read : Reader α) : Reader (Option α)
  | .dict es =>
    match lookup key es with
    | some none => some none
    | some (some value) => (read value).map some
    | none => none
  | _ => none

theorem lookup_perm {es es' : List Entry} (h : es.Perm es') (key : Bytes) : lookup key es = lookup key es' := by
  have hf := h.filter (fun e => decide (e.1 = key))
  unfold lookup
  revert hf
  generalize es.filter (fun e => decide (e.1 = key)) = l
  generalize es'.filter (fun e => decide (e.1 = key)) = l'
  intro hf
  match l, l', hf with
  | [], l', hf => rw [List.nil_perm.1 hf]
  | [e], l', hf => rw [List.singleton_perm.1 hf]
  | e :: e' :: l, l', hf =>
    have hlen := hf.length_eq
    match l', hlen with
    | _ :: _ :: _, _ => rfl

theorem lookup_unique {es : List Entry} {e : Entry} {value : Option BValue} (h : lookup e.1 es = some value)
    (he : e ∈ es) : value = some e.2 := by
  have hmem : e ∈ es.filter (fun e' => e'.1 = e.1) := List.mem_filter.2 ⟨he, by simp⟩
  unfold lookup at h
  split at h
  · rename_i hnone
    rw [hnone] at hmem
    cases hmem
  · rename_i e' hone
    rw [hone, List.mem_singleton] at hmem
    rw [hmem]
    exact (Option.some.inj h).symm
  · cases h

theorem field_of_lookup {key : Bytes} {read : Reader α} {es : List Entry} {value : BValue} {a : α}
    (h : lookup key es = some (some value)) (hread : read value = some a) : field key read (.dict es) = some a := by
  simp only [field, h, hread]

theorem optionField_of_lookup {β : Type} {key : Bytes} {read : Reader β} {es : List Entry} {write : α → BValue}
    {f : α → β} {value : Option α} (h : lookup key es = some (value.map write))
    (hread : ∀ a ∈ value, read (write a) = some (f a)) : optionField key read (.dict es) = some (value.map f) := by
  cases value with
  | none =>
    rw [Option.map_none] at h
    simp only [optionField, h, Option.map_none]
  | some a =>
    rw [Option.map_some] at h
    simp only [optionField, h, hread a rfl, Option.map_some]

theorem optionField_some {key : Bytes} {read : Reader α} {es : List Entry} {value : Option α}
    (h : optionField key read (.dict es) = some value) :
    (value = none ∧ lookup key es = some none) ∨
      ∃ v a, value = some a ∧ lookup key es = some (some v) ∧ read v = some a := by
  unfold optionField at h
  cases hl : lookup key es with
  | none => simp [hl] at h
  | some found =>
    cases found with
    | none =>
      simp only [hl, Option.some.injEq] at h
      exact .inl ⟨h.symm, rfl⟩
    | some v =>
      simp only [hl] at h
      obtain ⟨a, ha, hvalue⟩ := Option.map_eq_some_iff.1 h
      exact .inr ⟨v, a, hvalue.symm, rfl, ha⟩

theorem field_some {key : Bytes} {read : Reader α} {value : BValue} {a : α} (h : field key read value = some a) :
    ∃ es v, value = .dict es ∧ lookup key es = some (some v) ∧ read v = some a := by
  unfold field at h
  split at h
  · split at h
    · exact ⟨_, _, rfl, ‹_›, h⟩
    · cases h
  · cases h

variable {fields : Fields}

theorem written_cons_none (key : Bytes) (fields : Fields) : written ((key, none) :: fields) = written fields := rfl

theorem written_cons_some (key : Bytes) (value : BValue) (fields : Fields) :
    written ((key, some value) :: fields) = (key, value) :: written fields := rfl

theorem filter_written_of_absent {key : Bytes} (h : key ∉ fields.map Prod.fst) :
    (written fields).filter (fun e => e.1 = key) = [] := by
  rw [List.filter_eq_nil_iff]
  intro e he hkey
  obtain ⟨f, hf, hv⟩ := List.mem_filterMap.1 he
  obtain ⟨v, _, rfl⟩ := Option.map_eq_some_iff.1 hv
  have hkey : f.1 = key := by simpa using hkey
  exact h (List.mem_map.2 ⟨f, hf, hkey⟩)

theorem filter_written (hnodup : (fields.map Prod.fst).Nodup) {key : Bytes} {value : Option BValue}
    (hmem : (key, value) ∈ fields) :
    (written fields).filter (fun e => e.1 = key) = (value.map (fun v => (key, v))).toList := by
  induction fields with
  | nil => cases hmem
  | cons f fields ih =>
    rw [List.map_cons, List.nodup_cons] at hnodup
    rcases List.mem_cons.1 hmem with rfl | hmem
    · have hnone := filter_written_of_absent hnodup.1
      cases value with
      | none =>
        rw [written_cons_none, hnone]
        rfl
      | some v =>
        rw [written_cons_some, List.filter_cons_of_pos (by simp), hnone]
        rfl
    · have hne : f.1 ≠ key := by
        intro hkey
        exact hnodup.1 (List.mem_map.2 ⟨_, hmem, hkey.symm⟩)
      rw [← ih hnodup.2 hmem]
      obtain ⟨k, v⟩ := f
      cases v with
      | none => rw [written_cons_none]
      | some v => rw [written_cons_some, List.filter_cons_of_neg (by simpa using hne)]

theorem lookup_struct (hnodup : (fields.map Prod.fst).Nodup) {key : Bytes} {value : Option BValue}
    (hmem : (key, value) ∈ fields) :
    lookup key ((written fields).insertionSort ByKey) = some value := by
  rw [lookup_perm (List.perm_insertionSort ByKey _)]
  unfold lookup
  rw [filter_written hnodup hmem]
  cases value <;> rfl

theorem field_struct (hnodup : (fields.map Prod.fst).Nodup) {key : Bytes} {value : BValue} {read : Reader α}
    {a : α} (hmem : (key, some value) ∈ fields) (hread : read value = some a) :
    field key read (struct fields) = some a :=
  field_of_lookup (lookup_struct hnodup hmem) hread

theorem optionField_struct {β : Type} (hnodup : (fields.map Prod.fst).Nodup) {key : Bytes} {read : Reader β}
    {write : α → BValue} {f : α → β} {value : Option α} (hmem : (key, value.map write) ∈ fields)
    (hread : ∀ a ∈ value, read (write a) = some (f a)) :
    optionField key read (struct fields) = some (value.map f) :=
  optionField_of_lookup (lookup_struct hnodup hmem) hread

theorem optionField_struct_id (hnodup : (fields.map Prod.fst).Nodup) {key : Bytes} {read : Reader α}
    {write : α → BValue} {value : Option α} (hmem : (key, value.map write) ∈ fields)
    (hread : ∀ a, read (write a) = some a) : optionField key read (struct fields) = some value := by
  have h := optionField_struct (f := id) hnodup hmem (fun a _ => hread a)
  rwa [Option.map_id] at h

end Dictionaries

section Known
variable {α β : Type} {keys : List Bytes} {key : Bytes} {es es' : List Entry}

/-- The dictionaries agree on these keys, in whatever order and beside whatever else they hold them. -/
def SameUnder (keys : List Bytes) (es es' : List Entry) : Prop := ∀ key ∈ keys, lookup key es = lookup key es'

/-- The value under the key is the same, or a dictionary that agrees on the inner keys. -/
def SameDictUnder (key : Bytes) (keys : List Bytes) (es es' : List Entry) : Prop :=
  lookup key es = lookup key es' ∨ ∃ ds ds', lookup key es = some (some (.dict ds)) ∧
    lookup key es' = some (some (.dict ds')) ∧ SameUnder keys ds ds'

def ReadsOnly (keys : List Bytes) (read : Reader α) : Prop :=
  ∀ es es', SameUnder keys es es' → read (.dict es) = read (.dict es')

theorem readsOnly_pure (a : Option α) : ReadsOnly keys (fun _ => a) := fun _ _ _ => rfl

theorem readsOnly_field (read : Reader α) (hkey : key ∈ keys) : ReadsOnly keys (field key read) := by
  intro es es' h
  simp only [field, h key hkey]

theorem readsOnly_optionField (read : Reader α) (hkey : key ∈ keys) : ReadsOnly keys (optionField key read) := by
  intro es es' h
  simp only [optionField, h key hkey]

theorem ReadsOnly.bind {read : Reader α} {next : α → Reader β} (h : ReadsOnly keys read)
    (hnext : ∀ a, ReadsOnly keys (next a)) : ReadsOnly keys (fun v => read v >>= fun a => next a v) := by
  intro es es' hsame
  dsimp only
  rw [h es es' hsame]
  cases read (.dict es') with
  | none => rfl
  | some a => exact hnext a es es' hsame

theorem ReadsOnly.optionField_eq {read : Reader α} (h : ReadsOnly keys read) (hsame : SameDictUnder key keys es es') :
    optionField key read (.dict es) = optionField key read (.dict es') := by
  rcases hsame with heq | ⟨ds, ds', hds, hds', hinner⟩
  · simp only [optionField, heq]
  · simp only [optionField, hds, hds', h ds ds' hinner]

end Known

section Canonical

/-- Dictionaries have their keys in order, each once, integers have 64 bits, and at most `d` lists and
dictionaries are nested. -/
inductive Canonical : ℕ → BValue → Prop where
  | int {d : ℕ} {n : ℤ} (low : -2 ^ 63 ≤ n) (high : n < 2 ^ 63) : Canonical d (.int n)
  | bytes {d : ℕ} (b : Bytes) : Canonical d (.bytes b)
  | list {d : ℕ} {vs : List BValue} (each : ∀ v ∈ vs, Canonical d v) : Canonical (d + 1) (.list vs)
  | dict {d : ℕ} {es : List Entry} (sorted : es.Pairwise (fun a b => keyOrder a.1 < keyOrder b.1))
      (each : ∀ e ∈ es, Canonical d e.2) : Canonical (d + 1) (.dict es)

theorem canonical_toNat {d w : ℕ} (x : BitVec w) (hw : w < 64) : Canonical d (.int x.toNat) := by
  have hlt : x.toNat < 2 ^ 63 := lt_of_lt_of_le x.isLt (Nat.pow_le_pow_right (by decide) (by omega))
  exact .int (by omega) (by omega)

theorem canonical_toInt {d w : ℕ} (x : BitVec w) (hw : w ≤ 64) : Canonical d (.int x.toInt) := by
  have hlow := BitVec.le_toInt x
  have hhigh := BitVec.toInt_lt (x := x)
  have hpow : (2 : ℤ) ^ (w - 1) ≤ 2 ^ 63 := pow_le_pow_right₀ (by decide) (by omega)
  exact .int (by omega) (by omega)

variable {d : ℕ}

def CanonicalFields (d : ℕ) (fields : Fields) : Prop := ∀ f ∈ fields, ∀ v ∈ f.2, Canonical d v

theorem CanonicalFields.nil : CanonicalFields d [] := by
  intro f hf
  cases hf

theorem CanonicalFields.some {key : Bytes} {v : BValue} {fields : Fields} (hv : Canonical d v)
    (h : CanonicalFields d fields) : CanonicalFields d ((key, some v) :: fields) := by
  refine List.forall_mem_cons.2 ⟨?_, h⟩
  rintro w hw
  cases hw
  exact hv

theorem CanonicalFields.map {α : Type} {key : Bytes} {write : α → BValue} {value : Option α} {fields : Fields}
    (hv : ∀ a, Canonical d (write a)) (h : CanonicalFields d fields) :
    CanonicalFields d ((key, value.map write) :: fields) := by
  refine List.forall_mem_cons.2 ⟨?_, h⟩
  intro w hw
  obtain ⟨a, _, rfl⟩ := Option.map_eq_some_iff.1 hw
  exact hv a

theorem mem_struct {fields : Fields} {e : Entry} (he : e ∈ (written fields).insertionSort ByKey) :
    (e.1, some e.2) ∈ fields := by
  rw [List.mem_insertionSort] at he
  obtain ⟨f, hf, hv⟩ := List.mem_filterMap.1 he
  obtain ⟨v, hvalue, rfl⟩ := Option.map_eq_some_iff.1 hv
  rwa [← hvalue]

theorem canonical_struct {fields : Fields} (hnodup : (fields.map Prod.fst).Nodup) (h : CanonicalFields d fields) :
    Canonical (d + 1) (struct fields) := by
  have hsub : ((written fields).map Prod.fst).Nodup := by
    refine hnodup.sublist ?_
    clear hnodup h
    induction fields with
    | nil => exact List.Sublist.slnil
    | cons f fields ih =>
      obtain ⟨k, v⟩ := f
      cases v with
      | none => exact ih.cons _
      | some v => exact ih.cons_cons _
  refine .dict ?_ ?_
  · have hsorted := List.pairwise_insertionSort ByKey (written fields)
    have hnd : (((written fields).insertionSort ByKey).map Prod.fst).Nodup :=
      ((List.perm_insertionSort _ _).map Prod.fst).nodup_iff.2 hsub
    rw [List.Nodup, List.pairwise_map] at hnd
    exact (hsorted.and hnd).imp (fun hab => lt_of_le_of_ne hab.1 (fun heq => hab.2 (keyOrder_injective heq)))
  · intro e he
    exact h _ (mem_struct he) e.2 rfl

end Canonical

section Fitting
variable {slots : List (Bytes × Slot)} {slot : Slot} {key : Bytes}

/-- All values that a struct writes fit the type that it is read as. -/
def FitsFields (slots : List (Bytes × Slot)) (fields : Fields) : Prop :=
  ∀ f ∈ fields, ∀ v ∈ f.2, ∀ slot, slots.lookup f.1 = some slot → slot.strays v = false

theorem FitsFields.nil : FitsFields slots [] := by
  intro f hf
  cases hf

theorem FitsFields.some {v : BValue} {fields : Fields} (hslot : slots.lookup key = Option.some slot)
    (hv : slot.strays v = false) (h : FitsFields slots fields) : FitsFields slots ((key, some v) :: fields) := by
  refine List.forall_mem_cons.2 ⟨?_, h⟩
  intro w hw slot' hslot'
  cases hw
  cases hslot.symm.trans hslot'
  exact hv

theorem FitsFields.map {α : Type} {write : α → BValue} {value : Option α} {fields : Fields}
    (hslot : slots.lookup key = Option.some slot) (hv : ∀ a ∈ value, slot.strays (write a) = false)
    (h : FitsFields slots fields) : FitsFields slots ((key, value.map write) :: fields) := by
  refine List.forall_mem_cons.2 ⟨?_, h⟩
  intro w hw slot' hslot'
  obtain ⟨a, ha, rfl⟩ := Option.map_eq_some_iff.1 hw
  cases hslot.symm.trans hslot'
  exact hv a ha

theorem FitsFields.struct_fits {α : Type} {read : Reader α} {fields : Fields} (h : FitsFields slots fields) :
    (structType read slots).strays (struct fields) = false := by
  have hfits : FitsIn slots ((written fields).insertionSort ByKey) := by
    intro e he slot hslot
    exact h _ (mem_struct he) e.2 rfl slot hslot
  exact hfits.straysIn_eq []

end Fitting

section Size

mutual
def size : BValue → ℕ
  | .int n => 2 + (if n < 0 then 1 else 0) + (numeral n.natAbs).length
  | .bytes b => (numeral b.length).length + 1 + b.length
  | .list vs => 2 + sizeList vs
  | .dict es => 2 + sizeEntries es
def sizeList : List BValue → ℕ
  | [] => 0
  | v :: vs => size v + sizeList vs
def sizeEntries : List Entry → ℕ
  | [] => 0
  | (k, v) :: es => (numeral k.length).length + 1 + k.length + (size v + sizeEntries es)
end

def textSize (length : ℕ) : ℕ := (numeral length).length + 1 + length

def entrySize (e : Entry) : ℕ := textSize e.1.length + size e.2

def fieldSize (f : Bytes × Option BValue) : ℕ := (f.2.map (fun v => entrySize (f.1, v))).getD 0

theorem size_bytes (b : Bytes) : size (.bytes b) = textSize b.length := by rw [size, textSize]

theorem sizeEntries_eq (es : List Entry) : sizeEntries es = (es.map entrySize).sum := by
  induction es with
  | nil => rw [sizeEntries, List.map_nil, List.sum_nil]
  | cons e es ih =>
    rw [sizeEntries, ih, List.map_cons, List.sum_cons, entrySize, textSize]
    omega

theorem sizeList_eq (vs : List BValue) : sizeList vs = (vs.map size).sum := by
  induction vs with
  | nil => rw [sizeList, List.map_nil, List.sum_nil]
  | cons v vs ih => rw [sizeList, ih, List.map_cons, List.sum_cons]

theorem size_struct (fields : Fields) : size (struct fields) = 2 + (fields.map fieldSize).sum := by
  have hwritten : ((written fields).map entrySize).sum = (fields.map fieldSize).sum := by
    induction fields with
    | nil => rfl
    | cons f fields ih =>
      obtain ⟨k, v⟩ := f
      cases v with
      | none =>
        rw [List.map_cons, List.sum_cons, ← ih]
        exact (Nat.zero_add _).symm
      | some v =>
        rw [List.map_cons, List.sum_cons, ← ih]
        rfl
  rw [struct, size, sizeEntries_eq, ((List.perm_insertionSort ByKey (written fields)).map entrySize).sum_eq, hwritten]

end Size

section Implementation

/-- How reading can end without a value. -/
inductive Failure where
  | refused
  | crashed
deriving DecidableEq, Repr

def depthRead : ℕ := 3

/-- What an implementation of bencode does with values. The writer may fail on a value that is not
canonical; a canonical one is written in its standard length and read back. The reader may crash on any
other text, for instance one that is nested too deeply. A packet in which the reader comes to an
integer that does not fit its field may crash it too, be refused, or be taken for another packet. -/
structure Codec where
  write : BValue → Option Bytes
  read : Bytes → Except Failure BValue
  stray : BValue → Except Failure BValue
  lawful : ∀ v, Canonical depthRead v → ∃ b, write v = some b ∧ read b = .ok v ∧ b.length = size v

/-- Built with overflow checks: an integer that does not fit crashes the reader. -/
def Codec.Checked (C : Codec) : Prop := ∀ v, C.stray v = .error .crashed

/-- Built without: an integer that does not fit is reduced to the width of its field. -/
def Codec.Wraps (C : Codec) : Prop := ∀ v, C.stray v = .ok v

variable {α : Type}

def Typed.accept (t : Typed α) (v : BValue) : Except Failure α := (t.read v).elim (.error .refused) .ok

def Codec.taken (C : Codec) (t : Typed α) (v : BValue) : Except Failure BValue :=
  if t.strays v then C.stray v else .ok v

def Codec.readAs (C : Codec) (t : Typed α) (buf : Bytes) : Except Failure α := do
  let v ← C.read buf
  let taken ← C.taken t v
  t.accept taken

def Codec.Takes (C : Codec) (t : Typed α) (v : BValue) : Prop := t.strays v = false ∨ C.stray v = .ok v

variable {C : Codec} {t : Typed α} {buf : Bytes} {v : BValue}

theorem Codec.Takes.readAs_eq (h : C.Takes t v) (hread : C.read buf = .ok v) : C.readAs t buf = t.accept v := by
  have htaken : C.taken t v = .ok v := by
    unfold taken
    rcases h with hfits | hstray
    · rw [hfits, if_neg Bool.false_ne_true]
    · rw [hstray, ite_self]
  rw [readAs, hread]
  change (C.taken t v >>= t.accept) = _
  rw [htaken]
  rfl

theorem Codec.readAs_failed {e : Failure} (h : C.read buf = .error e) (t : Typed α) : C.readAs t buf = .error e := by
  rw [readAs, h]
  rfl

theorem Codec.Checked.readAs_eq (h : C.Checked) (hread : C.read buf = .ok v) (hstrays : t.strays v = true) :
    C.readAs t buf = .error .crashed := by
  have htaken : C.taken t v = .error .crashed := by rw [taken, if_pos hstrays, h v]
  rw [readAs, hread]
  change (C.taken t v >>= t.accept) = _
  rw [htaken]
  rfl

theorem Codec.exists_read_of_readAs {a : α} (h : C.readAs t buf = .ok a) : ∃ v, t.read v = some a := by
  unfold readAs at h
  cases hread : C.read buf with
  | error e =>
    rw [hread] at h
    cases h
  | ok v =>
    rw [hread] at h
    change (C.taken t v >>= t.accept) = _ at h
    cases htaken : C.taken t v with
    | error e =>
      rw [htaken] at h
      cases h
    | ok w =>
      rw [htaken] at h
      change (t.read w).elim _ _ = _ at h
      cases hw : t.read w with
      | none =>
        rw [hw] at h
        cases h
      | some b =>
        rw [hw] at h
        cases h
        exact ⟨w, hw⟩

end Implementation

end Bencode
