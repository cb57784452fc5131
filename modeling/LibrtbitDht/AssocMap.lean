import Mathlib

set_option autoImplicit false

namespace LibrtbitDht

structure AssocMap (κ ν : Type) where
  entries : List (κ × ν)
  nodup : (entries.map Prod.fst).Nodup
deriving DecidableEq, Repr

namespace AssocMap
variable {κ ν : Type}

def empty : AssocMap κ ν := ⟨[], List.nodup_nil⟩

instance : Inhabited (AssocMap κ ν) := ⟨empty⟩

def len (m : AssocMap κ ν) : ℕ := m.entries.length

def keys (m : AssocMap κ ν) : List κ := m.entries.map Prod.fst

def retain (m : AssocMap κ ν) (p : κ → ν → Bool) : AssocMap κ ν :=
  ⟨m.entries.filter (fun e => p e.1 e.2), m.nodup.sublist (List.filter_sublist.map Prod.fst)⟩

def mapValues (m : AssocMap κ ν) (f : κ → ν → ν) : AssocMap κ ν :=
  ⟨m.entries.map (fun e => (e.1, f e.1 e.2)), by simpa [Function.comp_def] using m.nodup⟩

def reorder (m : AssocMap κ ν) (es : List (κ × ν)) (h : es.Perm m.entries) : AssocMap κ ν :=
  ⟨es, (h.map Prod.fst).nodup_iff.2 m.nodup⟩

variable [DecidableEq κ]

def get? (m : AssocMap κ ν) (k : κ) : Option ν := (m.entries.find? (fun e => e.1 = k)).map Prod.snd

def remove (m : AssocMap κ ν) (k : κ) : AssocMap κ ν := m.retain (fun k' _ => k' ≠ k)

def insert (m : AssocMap κ ν) (k : κ) (v : ν) : AssocMap κ ν where
  entries := (k, v) :: (m.remove k).entries
  nodup := by
    rw [List.map_cons, List.nodup_cons]
    refine ⟨?_, (m.remove k).nodup⟩
    simp [remove, retain]

def modify (m : AssocMap κ ν) (k : κ) (f : ν → ν) : AssocMap κ ν :=
  m.mapValues (fun k' v => if k' = k then f v else v)

section Lookup
variable (m : AssocMap κ ν)

omit [DecidableEq κ] in
theorem key_unique {m : AssocMap κ ν} {k : κ} {v w : ν} (hv : (k, v) ∈ m.entries)
    (hw : (k, w) ∈ m.entries) : v = w :=
  congrArg Prod.snd (List.inj_on_of_nodup_map m.nodup hv hw rfl)

theorem get?_eq_some_iff (k : κ) (v : ν) : m.get? k = some v ↔ (k, v) ∈ m.entries := by
  constructor
  · intro h
    obtain ⟨⟨k', v'⟩, hf, rfl⟩ := Option.map_eq_some_iff.1 h
    have hk : k' = k := by simpa using List.find?_some hf
    exact hk ▸ List.mem_of_find?_eq_some hf
  · intro h
    cases hf : m.entries.find? (fun e => e.1 = k) with
    | none =>
      have hne := List.find?_eq_none.1 hf _ h
      simp at hne
    | some e =>
      obtain ⟨k', v'⟩ := e
      have hk : k' = k := by simpa using List.find?_some hf
      subst hk
      rw [get?, hf, Option.map_some]
      exact congrArg some (key_unique (List.mem_of_find?_eq_some hf) h)

theorem mem_keys_iff (k : κ) : k ∈ m.keys ↔ ∃ v, m.get? k = some v := by
  simp [keys, get?_eq_some_iff]

theorem get?_eq_none_iff (k : κ) : m.get? k = none ↔ k ∉ m.keys := by
  rw [mem_keys_iff]
  cases m.get? k <;> simp

theorem get?_retain (p : κ → ν → Bool) (k : κ) :
    (m.retain p).get? k = (m.get? k).filter (p k) := by
  ext v
  simp [get?_eq_some_iff, retain, Option.filter_eq_some_iff]

@[simp] theorem get?_empty (k : κ) : (empty : AssocMap κ ν).get? k = none := rfl

@[simp] theorem get?_remove_self (k : κ) : (m.remove k).get? k = none := by
  rw [remove, get?_retain]
  cases m.get? k <;> simp

theorem remove_of_none {k : κ} (h : m.get? k = none) : (m.remove k).entries = m.entries := by
  have hk := (get?_eq_none_iff m k).1 h
  apply List.filter_eq_self.2
  intro e he
  have hne : e.1 ≠ k := fun hek => hk (hek ▸ List.mem_map_of_mem he)
  simpa using hne

theorem get?_remove_of_ne {k k' : κ} (h : k' ≠ k) : (m.remove k).get? k' = m.get? k' := by
  rw [remove, get?_retain]
  cases m.get? k' <;> simp [h]

theorem get?_remove_eq_some_iff {k k' : κ} {v : ν} :
    (m.remove k).get? k' = some v ↔ k' ≠ k ∧ m.get? k' = some v := by
  by_cases h : k' = k
  · subst h
    simp
  · simp [get?_remove_of_ne m h, h]

@[simp] theorem get?_insert_self (k : κ) (v : ν) : (m.insert k v).get? k = some v := by
  rw [get?_eq_some_iff]
  exact List.mem_cons_self

theorem get?_insert_of_ne {k k' : κ} (v : ν) (h : k' ≠ k) :
    (m.insert k v).get? k' = m.get? k' := by
  rw [← get?_remove_of_ne m h]
  simp [get?, insert, Ne.symm h]

theorem get?_mapValues (f : κ → ν → ν) (k : κ) : (m.mapValues f).get? k = (m.get? k).map (f k) := by
  ext v
  simp only [get?_eq_some_iff, mapValues, List.mem_map, Option.map_eq_some_iff, Prod.exists,
    Prod.mk.injEq]
  constructor
  · rintro ⟨k', w, hw, rfl, hv⟩
    exact ⟨w, hw, hv⟩
  · rintro ⟨w, hw, hv⟩
    exact ⟨k, w, hw, rfl, hv⟩

theorem get?_modify_self (k : κ) (f : ν → ν) : (m.modify k f).get? k = (m.get? k).map f := by
  simp [modify, get?_mapValues]

theorem get?_modify_of_ne {k k' : κ} (f : ν → ν) (h : k' ≠ k) :
    (m.modify k f).get? k' = m.get? k' := by
  simp [modify, get?_mapValues, h]

theorem get?_reorder (es : List (κ × ν)) (h : es.Perm m.entries) (k : κ) :
    (m.reorder es h).get? k = m.get? k := by
  ext v
  simp only [get?_eq_some_iff, reorder]
  exact h.mem_iff

theorem filter_key {k : κ} {v : ν} (h : m.get? k = some v) : m.entries.filter (fun e => e.1 = k) = [(k, v)] := by
  have hmem := (get?_eq_some_iff m k v).1 h
  have hnd : (m.entries.filter (fun e => decide (e.1 = k))).Nodup := (List.Nodup.of_map _ m.nodup).filter _
  refine List.perm_singleton.1 ((List.perm_ext_iff_of_nodup hnd (List.nodup_singleton _)).2 ?_)
  rintro ⟨k', w⟩
  simp only [List.mem_filter, decide_eq_true_eq, List.mem_singleton, Prod.mk.injEq]
  constructor
  · rintro ⟨hw, rfl⟩
    exact ⟨rfl, key_unique hw hmem⟩
  · rintro ⟨rfl, rfl⟩
    exact ⟨hmem, rfl⟩

theorem len_eq_zero_iff : m.len = 0 ↔ ∀ k, m.get? k = none := by
  unfold len
  rw [List.length_eq_zero_iff]
  constructor
  · intro h k
    unfold get?
    rw [h]
    rfl
  · intro h
    refine List.eq_nil_iff_forall_not_mem.2 ?_
    rintro ⟨k, v⟩ hmem
    have hsome := (get?_eq_some_iff m k v).2 hmem
    rw [h k] at hsome
    cases hsome

end Lookup

def All (m : AssocMap κ ν) (P : κ → ν → Prop) : Prop := ∀ k v, m.get? k = some v → P k v

section All
variable {m : AssocMap κ ν} {P : κ → ν → Prop}

theorem all_empty : (empty : AssocMap κ ν).All P := by
  intro k v h
  cases h

theorem All.mono {Q : κ → ν → Prop} (h : m.All P) (hPQ : ∀ k v, P k v → Q k v) : m.All Q :=
  fun k v hk => hPQ k v (h k v hk)

theorem All.retain (h : m.All P) (p : κ → ν → Bool) : (m.retain p).All P := by
  intro k v hk
  rw [get?_retain, Option.filter_eq_some_iff] at hk
  exact h k v hk.1

theorem All.remove (h : m.All P) (k : κ) : (m.remove k).All P := h.retain _

theorem All.reorder (h : m.All P) (es : List (κ × ν)) (hp : es.Perm m.entries) :
    (m.reorder es hp).All P := by
  intro k v hk
  rw [get?_reorder] at hk
  exact h k v hk

theorem All.insert (h : m.All P) {k : κ} {v : ν} (hv : P k v) : (m.insert k v).All P := by
  intro k' v' hk
  by_cases he : k' = k
  · subst he
    rw [get?_insert_self, Option.some.injEq] at hk
    exact hk ▸ hv
  · rw [get?_insert_of_ne m v he] at hk
    exact h k' v' hk

theorem All.modify (h : m.All P) {k : κ} {f : ν → ν} (hf : ∀ v, m.get? k = some v → P k (f v)) :
    (m.modify k f).All P := by
  intro k' v' hk
  by_cases he : k' = k
  · subst he
    rw [get?_modify_self, Option.map_eq_some_iff] at hk
    obtain ⟨v, hv, rfl⟩ := hk
    exact hf v hv
  · rw [get?_modify_of_ne m f he] at hk
    exact h k' v' hk

theorem mapValues_eq_self {f : κ → ν → ν} (h : m.All (fun k v => f k v = v)) : m.mapValues f = m := by
  obtain ⟨entries, nodup⟩ := m
  have hmap : entries.map (fun e => (e.1, f e.1 e.2)) = entries := by
    refine (List.map_congr_left fun e he => ?_).trans (List.map_id entries)
    exact Prod.ext rfl (h e.1 e.2 ((get?_eq_some_iff _ _ _).2 he))
  simp only [mapValues, hmap]

theorem retain_eq_self {p : κ → ν → Bool} (h : m.All (fun k v => p k v = true)) : m.retain p = m := by
  obtain ⟨entries, nodup⟩ := m
  have hfilter : entries.filter (fun e => p e.1 e.2) = entries := by
    apply List.filter_eq_self.2
    intro e he
    exact h e.1 e.2 ((get?_eq_some_iff _ _ _).2 he)
  simp only [retain, hfilter]

end All

section Length
variable (m : AssocMap κ ν)

theorem len_remove {k : κ} {v : ν} (h : m.get? k = some v) : (m.remove k).len + 1 = m.len := by
  have hmem := (get?_eq_some_iff m k v).1 h
  have hkey : k ∈ m.entries.map Prod.fst := List.mem_map_of_mem hmem
  have herase : (m.remove k).entries.map Prod.fst = (m.entries.map Prod.fst).erase k := by
    rw [List.Nodup.erase_eq_filter m.nodup, remove, retain, List.filter_map]
    congr 1
    apply List.filter_congr
    intro e _
    by_cases he : e.1 = k <;> simp [he]
  have hlen := List.length_erase_add_one hkey
  rw [← herase, List.length_map, List.length_map] at hlen
  exact hlen

theorem len_remove_of_none {k : κ} (h : m.get? k = none) : (m.remove k).len = m.len := by
  rw [len, remove_of_none m h, len]

theorem len_insert_new {k : κ} (v : ν) (h : m.get? k = none) : (m.insert k v).len = m.len + 1 := by
  rw [← len_remove_of_none m h]
  rfl

theorem len_insert_held {k : κ} {w : ν} (v : ν) (h : m.get? k = some w) : (m.insert k v).len = m.len := by
  rw [← len_remove m h]
  rfl

theorem len_insert_le (k : κ) (v : ν) : (m.insert k v).len ≤ m.len + 1 :=
  Nat.succ_le_succ (List.length_filter_le _ _)

end Length

def weight (f : ν → ℕ) (m : AssocMap κ ν) : ℕ := (m.entries.map (fun e => f e.2)).sum

section Weight
variable (f : ν → ℕ) (m : AssocMap κ ν)

omit [DecidableEq κ] in
@[simp] theorem weight_empty : weight f (empty : AssocMap κ ν) = 0 := rfl

omit [DecidableEq κ] in
theorem weight_reorder (es : List (κ × ν)) (h : es.Perm m.entries) :
    weight f (m.reorder es h) = weight f m := by
  have hs : (es.map (fun e => f e.2)).Perm (m.entries.map (fun e => f e.2)) := h.map _
  exact hs.sum_eq

omit [DecidableEq κ] in
theorem weight_filter_split (es : List (κ × ν)) (p : κ × ν → Bool) :
    (es.map (fun e => f e.2)).sum =
      ((es.filter p).map (fun e => f e.2)).sum + ((es.filter (fun e => !p e)).map (fun e => f e.2)).sum := by
  induction es with
  | nil => rfl
  | cons e es ih =>
    cases h : p e <;> simp [h, ih] <;> omega

theorem weight_remove {k : κ} {v : ν} (h : m.get? k = some v) :
    weight f m = f v + weight f (m.remove k) := by
  have hsplit := weight_filter_split f m.entries (fun e => e.1 = k)
  rw [filter_key m h] at hsplit
  simpa [weight, remove, retain] using hsplit

theorem weight_remove_of_none {k : κ} (h : m.get? k = none) : weight f (m.remove k) = weight f m := by
  rw [weight, remove_of_none m h, weight]

theorem weight_insert (k : κ) (v : ν) : weight f (m.insert k v) = f v + weight f (m.remove k) := rfl

theorem weight_insert_new {k : κ} (v : ν) (h : m.get? k = none) :
    weight f (m.insert k v) = f v + weight f m := by
  rw [weight_insert, weight_remove_of_none f m h]

/-- A map whose values all weigh no more than those of another map does not weigh more. -/
theorem weight_le_of_get?_le {m m' : AssocMap κ ν}
    (h : ∀ k v', m'.get? k = some v' → ∃ v, m.get? k = some v ∧ f v' ≤ f v) : weight f m' ≤ weight f m := by
  obtain ⟨es, nodup⟩ := m'
  induction es generalizing m with
  | nil => exact Nat.zero_le _
  | cons e es ih =>
    obtain ⟨k, v'⟩ := e
    obtain ⟨hk, hes⟩ := List.nodup_cons.1 nodup
    have hhead : get? ⟨(k, v') :: es, nodup⟩ k = some v' :=
      (get?_eq_some_iff _ k v').2 List.mem_cons_self
    obtain ⟨v, hv, hle⟩ := h k v' hhead
    have hrest : weight f ⟨es, hes⟩ ≤ weight f (m.remove k) := by
      refine ih hes fun k' w' hw' => ?_
      have hmem := (get?_eq_some_iff _ k' w').1 hw'
      obtain ⟨w, hw, hwle⟩ := h k' w' ((get?_eq_some_iff _ k' w').2 (List.mem_cons_of_mem _ hmem))
      have hne : k' ≠ k := by
        rintro rfl
        exact hk (List.mem_map.2 ⟨_, hmem, rfl⟩)
      exact ⟨w, (get?_remove_of_ne m hne).trans hw, hwle⟩
    have hm := weight_remove f m hv
    have hm' : weight f (⟨(k, v') :: es, nodup⟩ : AssocMap κ ν) = f v' + weight f ⟨es, hes⟩ := rfl
    omega

theorem remove_modify (k : κ) (g : ν → ν) : ((m.modify k g).remove k).entries = (m.remove k).entries := by
  have hl : ∀ es : List (κ × ν),
      (es.map (fun e => (e.1, if e.1 = k then g e.2 else e.2))).filter (fun e => decide (e.1 ≠ k)) =
        es.filter (fun e => decide (e.1 ≠ k)) := by
    intro es
    induction es with
    | nil => rfl
    | cons e es ih =>
      by_cases h : e.1 = k <;> simp [h] at ih ⊢ <;> exact ih
  exact hl m.entries

theorem weight_modify {k : κ} {v : ν} (g : ν → ν) (h : m.get? k = some v) :
    weight f (m.modify k g) + f v = weight f m + f (g v) := by
  have hm : (m.modify k g).get? k = some (g v) := by rw [get?_modify_self, h, Option.map_some]
  have h1 := weight_remove f _ hm
  have h2 := weight_remove f _ h
  have h3 : weight f ((m.modify k g).remove k) = weight f (m.remove k) := by
    rw [weight, remove_modify, weight]
  omega

end Weight
end AssocMap
end LibrtbitDht
