import LibrtbitDht.AssocMap

set_option autoImplicit false

namespace JsonValue
open LibrtbitDht (AssocMap)

inductive Json where
  | null
  | bool (value : Bool)
  | num (value : ℕ)
  | str (value : String)
  | arr (elems : List Json)
  | obj (fields : List (String × Json))

abbrev Reader (α : Type) := Json → Option α

section Scalars
variable {α : Type}

def nat : Reader ℕ
  | .num n => some n
  | _ => none

/-- An unsigned integer of `w` bits. -/
def uint (w : ℕ) : Reader (BitVec w)
  | .num n => if n < 2 ^ w then some (BitVec.ofNat w n) else none
  | _ => none

def text (parse : String → Option α) : Reader α
  | .str s => parse s
  | _ => none

theorem uint_toNat {w : ℕ} (x : BitVec w) : uint w (.num x.toNat) = some x := by
  change (if x.toNat < 2 ^ w then some (BitVec.ofNat w x.toNat) else none) = some x
  rw [if_pos x.isLt, BitVec.ofNat_toNat, BitVec.setWidth_eq]

end Scalars

section Objects
variable {α : Type}

/-- The value under a name, `some none` if it is missing. -/
def lookup (name : String) (fields : List (String × Json)) : Option (Option Json) :=
  match fields.filter (fun f => f.1 = name) with
  | [] => some none
  | [f] => some (some f.2)
  | _ => none

def field (name : String) (read : Reader α) : Reader α
  | .obj fields =>
    match lookup name fields with
    | some (some value) => read value
    | _ => none
  | _ => none

/-- A field that may be missing or `null`. -/
def optionField (name : String) (read : Reader α) : Reader (Option α)
  | .obj fields =>
    match lookup name fields with
    | some none => some none
    | some (some .null) => some none
    | some (some value) => (read value).map some
    | none => none
  | _ => none

def fieldOr (default : α) (name : String) (read : Reader α) : Reader α
  | .obj fields =>
    match lookup name fields with
    | some none => some default
    | some (some value) => read value
    | none => none
  | _ => none

/-- An enum is an object with the name of the variant for its only key. -/
def variant : Reader (String × Json)
  | .obj [f] => some f
  | _ => none

theorem lookup_append {name : String} {fields rest : List (String × Json)}
    (h : ∀ f ∈ rest, f.1 ≠ name) : lookup name (fields ++ rest) = lookup name fields := by
  have hnil : rest.filter (fun f => f.1 = name) = [] := by
    apply List.filter_eq_nil_iff.mpr
    intro f hf
    simp [h f hf]
  unfold lookup
  rw [List.filter_append, hnil, List.append_nil]

theorem field_obj {name : String} {fields : List (String × Json)} {value : Json} (read : Reader α)
    (h : lookup name fields = some (some value)) : field name read (.obj fields) = read value := by
  simp only [field, h]

theorem optionField_obj {name : String} {fields : List (String × Json)} {value : List (String × Json)}
    (read : Reader α) (h : lookup name fields = some (some (.obj value))) :
    optionField name read (.obj fields) = (read (.obj value)).map some := by
  simp only [optionField, h]

end Objects

section Arrays
variable {α β : Type}

/-- Reads one element after the other; a reader may depend on the position. -/
def readEach (read : ℕ → Reader α) : ℕ → List Json → Option (List α)
  | _, [] => some []
  | i, j :: js => do
    let a ← read i j
    let as ← readEach read (i + 1) js
    return a :: as

def array (read : ℕ → Reader α) : Reader (List α)
  | .arr elems => readEach read 0 elems
  | _ => none

theorem readEach_map (read : ℕ → Reader β) (write : α → Json) (f : ℕ → α → β) (l : List α) (i : ℕ)
    (h : ∀ j, ∀ a ∈ l, read j (write a) = some (f j a)) :
    readEach read i (l.map write) = some (l.mapIdx (fun j a => f (i + j) a)) := by
  induction l generalizing i with
  | nil => rfl
  | cons a l ih =>
    have hhead := h i a List.mem_cons_self
    have htail := ih (i + 1) (fun j b hb => h j b (List.mem_cons_of_mem a hb))
    have hshift : (fun j b => f (i + 1 + j) b) = fun j b => f (i + (j + 1)) b := by
      funext j b
      rw [Nat.add_right_comm, Nat.add_assoc]
    rw [hshift] at htail
    simp only [List.map_cons, readEach, hhead, htail, List.mapIdx_cons]
    rfl

theorem array_mapIdx {read : ℕ → Reader β} {write : α → Json} {f : ℕ → α → β} {l : List α}
    (h : ∀ j, ∀ a ∈ l, read j (write a) = some (f j a)) :
    array read (.arr (l.map write)) = some (l.mapIdx f) := by
  have hread := readEach_map read write f l 0 h
  simp only [Nat.zero_add] at hread
  exact hread

theorem array_map {read : Reader β} {write : α → Json} {f : α → β} {l : List α}
    (h : ∀ a ∈ l, read (write a) = some (f a)) :
    array (fun _ => read) (.arr (l.map write)) = some (l.map f) := by
  have hconst : l.mapIdx (fun _ => f) = l.map f := List.mapIdx_eq_iff.2 (fun _ => List.getElem?_map)
  have hread : ∀ _ : ℕ, ∀ a ∈ l, read (write a) = some (f a) := fun _ => h
  rw [← hconst, array_mapIdx hread]

end Arrays

section Maps
variable {κ ν : Type} [DecidableEq κ]

/-- Reads the entries into a map; a later entry replaces an earlier one of its key. -/
def readEntries (readKey : String → Option κ) (read : Reader ν) :
    AssocMap κ ν → List (String × Json) → Option (AssocMap κ ν)
  | m, [] => some m
  | m, (key, value) :: rest => do
    let k ← readKey key
    let v ← read value
    readEntries readKey read (m.insert k v) rest

def map (readKey : String → Option κ) (read : Reader ν) : Reader (AssocMap κ ν)
  | .obj fields => readEntries readKey read .empty fields
  | _ => none

variable (readKey : String → Option κ) (read : Reader ν) (writeKey : κ → String) (write : ν → Json)
  (f : ν → ν)

theorem readEntries_map (es : List (κ × ν)) (m : AssocMap κ ν) (hnodup : (es.map Prod.fst).Nodup)
    (hnew : ∀ e ∈ es, m.get? e.1 = none)
    (hread : ∀ e ∈ es, readKey (writeKey e.1) = some e.1 ∧ read (write e.2) = some (f e.2)) :
    ∃ m', readEntries readKey read m (es.map (fun e => (writeKey e.1, write e.2))) = some m' ∧
      m'.entries = (es.map (fun e => (e.1, f e.2))).reverse ++ m.entries := by
  induction es generalizing m with
  | nil => exact ⟨m, rfl, rfl⟩
  | cons e es ih =>
    obtain ⟨hk, hes⟩ := List.nodup_cons.1 hnodup
    obtain ⟨hkey, hvalue⟩ := hread e List.mem_cons_self
    have hfresh : ∀ e' ∈ es, (m.insert e.1 (f e.2)).get? e'.1 = none := by
      intro e' he'
      have hne : e'.1 ≠ e.1 := fun heq => hk (heq ▸ List.mem_map_of_mem he')
      rw [AssocMap.get?_insert_of_ne m (f e.2) hne]
      exact hnew e' (List.mem_cons_of_mem e he')
    obtain ⟨m', hrun, hentries⟩ := ih (m.insert e.1 (f e.2)) hes hfresh
      (fun e' he' => hread e' (List.mem_cons_of_mem e he'))
    refine ⟨m', ?_, ?_⟩
    · simp only [List.map_cons, readEntries, hkey, hvalue]
      exact hrun
    · have hhead : (m.insert e.1 (f e.2)).entries = (e.1, f e.2) :: m.entries :=
        congrArg (List.cons (e.1, f e.2)) (AssocMap.remove_of_none m (hnew e List.mem_cons_self))
      rw [hentries, hhead, List.map_cons, List.reverse_cons, List.append_assoc, List.singleton_append]

theorem map_entries (m : AssocMap κ ν)
    (hread : ∀ e ∈ m.entries, readKey (writeKey e.1) = some e.1 ∧ read (write e.2) = some (f e.2)) :
    ∃ es h, map readKey read (.obj (m.entries.map (fun e => (writeKey e.1, write e.2)))) =
      some ((m.mapValues (fun _ => f)).reorder es h) := by
  obtain ⟨m', hrun, hentries⟩ := readEntries_map readKey read writeKey write f m.entries .empty m.nodup
    (fun e _ => AssocMap.get?_empty e.1) hread
  have hperm : m'.entries.Perm (m.mapValues (fun _ => f)).entries := by
    rw [hentries]
    exact (List.append_nil _).symm ▸ List.reverse_perm _
  exact ⟨m'.entries, hperm, hrun⟩

end Maps
end JsonValue
