import LibrtbitDht.AssocMap
import LibrtbitDht.RoutingTableNode
import LibrtbitDht.TransitionRuns
import LibrtbitDht.UpperPart

set_option autoImplicit false

/-!
# The store of mutable items

The order in which a map is iterated is unspecified: every call that iterates is given
one, as a rearrangement of whatever entries the map has at that moment.
-/
namespace LibrtbitDht
open TransitionRuns

structure StoredMutableItem where
  k : Vector UInt8 32
  sig : Vector UInt8 64
  seq : Int64
  v : List UInt8
  salt : Option (List UInt8)
  lastUpdated : Instant
deriving DecidableEq, Repr

abbrev Items := AssocMap Id20 StoredMutableItem

structure IterationOrder where
  arrange : List (Id20 × StoredMutableItem) → List (Id20 × StoredMutableItem)
  perm : ∀ es, (arrange es).Perm es

def IterationOrder.asStored : IterationOrder := ⟨id, fun _ => .refl _⟩

instance : Inhabited IterationOrder := ⟨.asStored⟩

structure MutableItemStore where
  items : Items
  maxItems : ℕ
deriving DecidableEq, Repr

namespace MutableItemStore

def new (maxItems : ℕ) : MutableItemStore where
  items := .empty
  maxItems

/-- The first entry of the iteration whose `last_updated` is minimal. -/
def oldest (order : IterationOrder) (items : Items) : Option Id20 :=
  ((order.arrange items.entries).argmin (fun entry => entry.2.lastUpdated)).map Prod.fst

def evictOldest (order : IterationOrder) (items : Items) : Items :=
  match oldest order items with
  | some key => items.remove key
  | none => items

def refuses (items : Items) (target : Id20) (item : StoredMutableItem) : Bool :=
  (items.get? target).any (fun existing => existing.seq ≥ item.seq)

def store (order : IterationOrder) (s : MutableItemStore) (target : Id20) (item : StoredMutableItem) :
    Bool × MutableItemStore :=
  if refuses s.items target item then (false, s)
  else
    let items :=
      if (s.items.get? target).isNone ∧ s.items.len ≥ s.maxItems then evictOldest order s.items
      else s.items
    (true, { s with items := items.insert target item })

def get (s : MutableItemStore) (target : Id20) : Option StoredMutableItem := s.items.get? target

def len (s : MutableItemStore) : ℕ := s.items.len

def isEmpty (s : MutableItemStore) : Bool := s.items.len = 0

/-- The loop of `garbage_collect`, cut off after `fuel` rounds. -/
def collect (order : IterationOrder) (maxItems : ℕ) : ℕ → Items → Except Fault Items
  | 0, items => if items.len > maxItems then .error .outOfFuel else .ok items
  | fuel + 1, items =>
    if items.len > maxItems then collect order maxItems fuel (evictOldest order items) else .ok items

def garbageCollect (order : IterationOrder) (s : MutableItemStore) : Except Fault MutableItemStore := do
  let items ← collect order s.maxItems s.items.len s.items
  .ok { s with items }

section Eviction
variable (order : IterationOrder) (items : Items)

def Oldest (items : Items) (key : Id20) : Prop :=
  ∃ item, items.get? key = some item ∧
    items.All (fun _ other => item.lastUpdated ≤ other.lastUpdated)

theorem oldest_eq_none_iff : oldest order items = none ↔ items.len = 0 := by
  rw [oldest, Option.map_eq_none_iff, List.argmin_eq_none, AssocMap.len, List.length_eq_zero_iff]
  constructor
  · intro h
    have hp := order.perm items.entries
    rw [h] at hp
    exact List.nil_perm.1 hp
  · intro h
    have hp := order.perm items.entries
    rw [h] at hp ⊢
    exact List.perm_nil.1 hp

theorem oldest_spec {key : Id20} (h : oldest order items = some key) : Oldest items key := by
  obtain ⟨⟨k, item⟩, hmin, rfl⟩ := Option.map_eq_some_iff.1 h
  have hmem : (k, item) ∈ items.entries := (order.perm _).mem_iff.1 (List.argmin_mem hmin)
  refine ⟨item, (AssocMap.get?_eq_some_iff _ _ _).2 hmem, ?_⟩
  intro k' other hother
  have hother := (order.perm _).mem_iff.2 ((AssocMap.get?_eq_some_iff _ _ _).1 hother)
  exact List.le_of_mem_argmin (f := fun entry => entry.2.lastUpdated) hother hmin

theorem evictOldest_cases :
    (items.len = 0 ∧ evictOldest order items = items) ∨
    ∃ key, Oldest items key ∧ evictOldest order items = items.remove key := by
  cases h : oldest order items with
  | none =>
    left
    exact ⟨(oldest_eq_none_iff order items).1 h, by rw [evictOldest, h]⟩
  | some key =>
    right
    exact ⟨key, oldest_spec order items h, by rw [evictOldest, h]⟩

theorem evictOldest_len : (evictOldest order items).len = items.len - 1 := by
  rcases evictOldest_cases order items with ⟨hzero, h⟩ | ⟨key, ⟨item, hitem, _⟩, h⟩
  · rw [h]
    omega
  · rw [h]
    have hlen := AssocMap.len_remove items hitem
    omega

theorem evictOldest_get_some {target : Id20} {item : StoredMutableItem}
    (h : (evictOldest order items).get? target = some item) : items.get? target = some item := by
  rcases evictOldest_cases order items with ⟨_, he⟩ | ⟨key, _, he⟩
  · rwa [he] at h
  · rw [he] at h
    exact ((AssocMap.get?_remove_eq_some_iff items).1 h).2

end Eviction

section Collecting
variable (order : IterationOrder)

theorem evictOldest_upperPart (items : Items) :
    items.UpperPart StoredMutableItem.lastUpdated (evictOldest order items) := by
  rcases evictOldest_cases order items with ⟨_, h⟩ | ⟨key, ⟨item, hitem, holdest⟩, h⟩
  · rw [h]
    exact .refl items
  · rw [h]
    exact AssocMap.upperPart_remove hitem holdest

/-- As many rounds as there are items are enough, and each of them leaves the items with the latest
updates. -/
theorem collect_upperPart (maxItems fuel : ℕ) (items : Items) (h : items.len ≤ fuel) :
    ∃ kept, collect order maxItems fuel items = .ok kept ∧ kept.len = min items.len maxItems ∧
      items.UpperPart StoredMutableItem.lastUpdated kept := by
  induction fuel generalizing items with
  | zero =>
    have hfull : ¬ items.len > maxItems := by omega
    exact ⟨items, if_neg hfull, by omega, .refl items⟩
  | succ fuel ih =>
    by_cases hfull : items.len > maxItems
    · have hlen := evictOldest_len order items
      obtain ⟨kept, hkept, hnumber, hupper⟩ := ih (evictOldest order items) (by omega)
      refine ⟨kept, ?_, by omega, (evictOldest_upperPart order items).trans hupper⟩
      rw [collect, if_pos hfull, hkept]
    · exact ⟨items, if_neg hfull, by omega, .refl items⟩

theorem collect_spec (maxItems fuel : ℕ) (items : Items) (h : items.len ≤ fuel) :
    ∃ kept, collect order maxItems fuel items = .ok kept ∧
      ∀ target, kept.get? target = items.get? target ∨ kept.get? target = none := by
  obtain ⟨kept, hkept, _, hupper⟩ := collect_upperPart order maxItems fuel items h
  refine ⟨kept, hkept, ?_⟩
  intro target
  cases hk : kept.get? target with
  | none => exact .inr rfl
  | some item => exact .inl (hupper.held target item hk).symm

theorem collect_mono {maxItems fuel fuel' : ℕ} {items kept : Items}
    (h : collect order maxItems fuel items = .ok kept) (hle : fuel ≤ fuel') :
    collect order maxItems fuel' items = .ok kept := by
  induction fuel generalizing fuel' items with
  | zero =>
    have hfew : ¬ items.len > maxItems := by
      intro hfull
      rw [collect, if_pos hfull] at h
      cases h
    rw [collect, if_neg hfew] at h
    cases fuel' with
    | zero => rwa [collect, if_neg hfew]
    | succ fuel' => rwa [collect, if_neg hfew]
  | succ fuel ih =>
    cases fuel' with
    | zero => omega
    | succ fuel' =>
      rw [collect] at h ⊢
      split_ifs at h ⊢ with hfull
      · exact ih h (by omega)
      · exact h

theorem garbageCollect_spec (s : MutableItemStore) :
    ∃ s', s.garbageCollect order = .ok s' ∧ s'.maxItems = s.maxItems ∧
      ∀ target, s'.get target = s.get target ∨ s'.get target = none := by
  obtain ⟨kept, hkept, hget⟩ := collect_spec order s.maxItems s.items.len s.items le_rfl
  exact ⟨{ s with items := kept }, by rw [garbageCollect, hkept, ok_bind], rfl, hget⟩

def updateTimes (s : MutableItemStore) : List Instant :=
  (s.items.entries.map (fun entry => entry.2.lastUpdated)).insertionSort (· ≥ ·)

/-- The second store has as many items of the first one as there is room for, unchanged, and those
with the latest updates. -/
structure KeepsNewest (s s' : MutableItemStore) : Prop where
  maxItems : s'.maxItems = s.maxItems
  number : s'.len = min s.len s.maxItems
  unchanged : ∀ target item, s'.get target = some item → s.get target = some item
  newest : ∀ removed item kept item', s.get removed = some item → s'.get removed = none →
    s'.get kept = some item' → item.lastUpdated ≤ item'.lastUpdated
  times : s'.updateTimes = s.updateTimes.take s.maxItems

/-- A collection ends, and it keeps the newest items, in whichever order the map is iterated. -/
theorem garbageCollect_keepsNewest (s : MutableItemStore) :
    ∃ s', s.garbageCollect order = .ok s' ∧
      (∀ fuel, s.len ≤ fuel → collect order s.maxItems fuel s.items = .ok s'.items) ∧ KeepsNewest s s' := by
  obtain ⟨kept, hkept, hnumber, hupper⟩ := collect_upperPart order s.maxItems s.items.len s.items le_rfl
  refine ⟨{ s with items := kept }, by rw [garbageCollect, hkept, ok_bind],
    fun fuel hfuel => collect_mono order hkept hfuel, ?_⟩
  refine ⟨rfl, hnumber, hupper.held, ?_, ?_⟩
  · intro removed item target item' hitem hgone hitem'
    exact hupper.above removed item hitem hgone target item' hitem'
  · have hlen : (s.items.entries.map (fun entry => entry.2.lastUpdated)).length = s.items.len := List.length_map _
    unfold updateTimes
    rw [hupper.sorted_keys, hnumber, List.take_eq_take_iff, List.length_insertionSort, hlen]
    omega

end Collecting

section Storing
variable (order : IterationOrder) (s : MutableItemStore) (target : Id20) (item : StoredMutableItem)

theorem refuses_iff (items : Items) :
    refuses items target item = true ↔ ∃ held, items.get? target = some held ∧ item.seq ≤ held.seq := by
  simp [refuses, Option.any_eq_true]

theorem store_cases :
    (∃ held, s.get target = some held ∧ item.seq ≤ held.seq ∧ s.store order target item = (false, s)) ∨
    (∃ held, s.get target = some held ∧ held.seq < item.seq ∧
      s.store order target item = (true, { s with items := s.items.insert target item })) ∨
    (s.get target = none ∧ s.len < s.maxItems ∧
      s.store order target item = (true, { s with items := s.items.insert target item })) ∨
    (s.get target = none ∧ s.maxItems ≤ s.len ∧ s.store order target item =
      (true, { s with items := (evictOldest order s.items).insert target item })) := by
  unfold get len store
  cases hget : s.items.get? target with
  | some held =>
    by_cases hseq : item.seq ≤ held.seq
    · left
      have hrefuses : refuses s.items target item = true := (refuses_iff _ _ _).2 ⟨held, hget, hseq⟩
      exact ⟨held, rfl, hseq, by rw [if_pos hrefuses]⟩
    · right; left
      have hrefuses : ¬ refuses s.items target item = true := by simpa [refuses, hget] using hseq
      exact ⟨held, rfl, Int64.not_le.1 hseq, by rw [if_neg hrefuses]; simp⟩
  | none =>
    have hrefuses : ¬ refuses s.items target item = true := by simp [refuses, hget]
    rw [if_neg hrefuses]
    by_cases hfull : s.maxItems ≤ s.items.len
    · right; right; right
      exact ⟨rfl, hfull, by simp [hfull]⟩
    · right; right; left
      exact ⟨rfl, Nat.lt_of_not_le hfull, by simp [hfull]⟩

theorem store_maxItems : (s.store order target item).2.maxItems = s.maxItems := by
  rcases store_cases order s target item with ⟨_, _, _, h⟩ | ⟨_, _, _, h⟩ | ⟨_, _, h⟩ | ⟨_, _, h⟩ <;> rw [h]

end Storing
end MutableItemStore
end LibrtbitDht
