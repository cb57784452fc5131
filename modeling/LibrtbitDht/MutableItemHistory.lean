import LibrtbitDht.MutableItemStore

set_option autoImplicit false

namespace LibrtbitDht
open TransitionRuns
namespace MutableItemStore

section Capacity

structure StoreCall where
  order : IterationOrder
  target : Id20
  item : StoredMutableItem

def StoreCall.run (s : MutableItemStore) (c : StoreCall) : MutableItemStore :=
  (s.store c.order c.target c.item).2

def Removed (s s' : MutableItemStore) (key : Id20) : Prop := (s.get key).isSome ∧ s'.get key = none

/-- What one call may do in a store of at most `maxItems` items. -/
structure CapacityStep (maxItems : ℕ) (s : MutableItemStore) (c : StoreCall) : Prop where
  bounded : (c.run s).len ≤ maxItems
  others : ∀ key ≠ c.target, (c.run s).get key = s.get key ∨ Removed s (c.run s) key
  evicts : s.get c.target = none → maxItems ≤ s.len →
    ∃ old, old ≠ c.target ∧ Oldest s.items old ∧ ∀ key, Removed s (c.run s) key ↔ key = old
  keeps : (s.get c.target).isSome ∨ s.len < maxItems → ∀ key, ¬ Removed s (c.run s) key

/-- Every state and every call of a run from an empty store is within the capacity. -/
def CapacityLaw (maxItems : ℕ) (calls : List StoreCall) : Prop :=
  (new maxItems).len ≤ maxItems ∧ EveryStep StoreCall.run (CapacityStep maxItems) (new maxItems) calls

section Insertion
variable (s : MutableItemStore) (target : Id20) (item : StoredMutableItem)

theorem not_removed_insert (key : Id20) : ¬ Removed s { s with items := s.items.insert target item } key := by
  rintro ⟨hsome, hnone⟩
  unfold get at hsome hnone
  by_cases hkey : key = target
  · subst hkey
    rw [AssocMap.get?_insert_self] at hnone
    cases hnone
  · rw [AssocMap.get?_insert_of_ne s.items item hkey] at hnone
    rw [hnone] at hsome
    cases hsome

theorem get_insert_of_ne {key : Id20} (hkey : key ≠ target) :
    get { s with items := s.items.insert target item } key = s.get key :=
  AssocMap.get?_insert_of_ne s.items item hkey

theorem removed_evict_insert {old : Id20} (hold : (s.get old).isSome) (hne : old ≠ target) (key : Id20) :
    Removed s { s with items := (s.items.remove old).insert target item } key ↔ key = old := by
  unfold Removed get at *
  by_cases hkey : key = target
  · subst hkey
    rw [AssocMap.get?_insert_self]
    simp [Ne.symm hne]
  · rw [AssocMap.get?_insert_of_ne _ item hkey]
    by_cases heq : key = old
    · subst heq
      simp [hold]
    · rw [AssocMap.get?_remove_of_ne s.items heq]
      simp only [heq, iff_false, not_and]
      intro hsome hnone
      rw [hnone] at hsome
      cases hsome

end Insertion

section OneCall
variable {maxItems : ℕ} {s : MutableItemStore} {c : StoreCall}

theorem capacityStep_refused (hrun : c.run s = s) (hlen : s.len ≤ maxItems)
    (hheld : (s.get c.target).isSome) : CapacityStep maxItems s c where
  bounded := by rwa [hrun]
  others := fun key _ => .inl (by rw [hrun])
  evicts := by
    intro hnone
    rw [hnone] at hheld
    cases hheld
  keeps := by
    rintro _ key ⟨hsome, hgone⟩
    rw [hrun] at hgone
    rw [hgone] at hsome
    cases hsome

theorem capacityStep_insert (hrun : c.run s = { s with items := s.items.insert c.target c.item })
    (hlen : (c.run s).len ≤ maxItems) (hroom : (s.get c.target).isSome ∨ s.len < maxItems) :
    CapacityStep maxItems s c where
  bounded := hlen
  others := by
    intro key hkey
    left
    rw [hrun, get_insert_of_ne s _ _ hkey]
  evicts := by
    intro hnone hfull
    rw [hnone] at hroom
    rcases hroom with hroom | hroom
    · cases hroom
    · omega
  keeps := by
    intro _ key
    rw [hrun]
    exact not_removed_insert s _ _ key

theorem capacityStep_evict {old : Id20} (hold : Oldest s.items old) (hnone : s.get c.target = none)
    (hrun : c.run s = { s with items := (s.items.remove old).insert c.target c.item })
    (hfull : maxItems ≤ s.len) (hlen : s.len ≤ maxItems) : CapacityStep maxItems s c := by
  obtain ⟨item, hitem, _⟩ := id hold
  have hne : old ≠ c.target := by
    rintro rfl
    rw [get, hitem] at hnone
    cases hnone
  have hremoved : ∀ key, Removed s (c.run s) key ↔ key = old := by
    intro key
    rw [hrun]
    exact removed_evict_insert s _ _ (by rw [get, hitem, Option.isSome_some]) hne key
  have hless := AssocMap.len_remove s.items hitem
  have hmore : (c.run s).len ≤ (s.items.remove old).len + 1 := by
    rw [hrun]
    exact AssocMap.len_insert_le _ _ _
  refine ⟨by unfold len at *; omega, ?_, fun _ _ => ⟨old, hne, hold, hremoved⟩, ?_⟩
  · intro key hkey
    by_cases heq : key = old
    · exact .inr ((hremoved key).2 heq)
    · left
      rw [hrun]
      unfold get
      rw [AssocMap.get?_insert_of_ne _ _ hkey, AssocMap.get?_remove_of_ne _ heq]
  · intro hroom
    rw [hnone, Option.isSome_none] at hroom
    rcases hroom with hroom | hroom
    · cases hroom
    · omega

theorem capacityStep (hmax : 1 ≤ maxItems) (hs : s.maxItems = maxItems) (hlen : s.len ≤ maxItems)
    (c : StoreCall) : CapacityStep maxItems s c := by
  rcases store_cases c.order s c.target c.item with
    ⟨held, hheld, _, h⟩ | ⟨held, hheld, _, h⟩ | ⟨hnone, hroom, h⟩ | ⟨hnone, hfull, h⟩
  · exact capacityStep_refused (by rw [StoreCall.run, h]) hlen (by simp [hheld])
  · have hrun : c.run s = { s with items := s.items.insert c.target c.item } := by rw [StoreCall.run, h]
    have hsame : (c.run s).len = s.len := by
      rw [hrun]
      exact AssocMap.len_insert_held s.items c.item hheld
    exact capacityStep_insert hrun (by omega) (.inl (by simp [hheld]))
  · have hrun : c.run s = { s with items := s.items.insert c.target c.item } := by rw [StoreCall.run, h]
    have hmore : (c.run s).len = s.len + 1 := by
      rw [hrun]
      exact AssocMap.len_insert_new s.items c.item hnone
    exact capacityStep_insert hrun (by omega) (.inr (by omega))
  · rcases evictOldest_cases c.order s.items with ⟨hzero, _⟩ | ⟨old, hold, hevict⟩
    · unfold len at *
      omega
    · rw [hevict] at h
      exact capacityStep_evict hold hnone (by rw [StoreCall.run, h]) (by omega) hlen

end OneCall

theorem run_new_zero (c : StoreCall) : (c.run (new 0)).len = 1 := by
  rcases store_cases c.order (new 0) c.target c.item with
    ⟨held, hheld, _⟩ | ⟨held, hheld, _⟩ | ⟨_, hroom, _⟩ | ⟨hnone, _, h⟩
  · cases hheld
  · cases hheld
  · cases hroom
  · rw [StoreCall.run, h]
    have hempty : (evictOldest c.order (new 0).items).len = 0 := evictOldest_len c.order _
    exact (AssocMap.len_insert_new _ c.item ((AssocMap.len_eq_zero_iff _).1 hempty _)).trans (by rw [hempty])

theorem capacity_iff (maxItems : ℕ) (calls : List StoreCall) :
    CapacityLaw maxItems calls ↔ 1 ≤ maxItems ∨ calls = [] := by
  constructor
  · intro law
    cases calls with
    | nil => exact .inr rfl
    | cons c calls =>
      left
      by_contra hzero
      obtain rfl : maxItems = 0 := by omega
      have hbound := law.2.1.bounded
      rw [run_new_zero] at hbound
      omega
  · rintro (hmax | rfl)
    · refine ⟨Nat.zero_le _, everyStep_of_invariant StoreCall.run
        (fun s => s.maxItems = maxItems ∧ s.len ≤ maxItems) ⟨rfl, Nat.zero_le _⟩ ?_ calls⟩
      rintro s c ⟨hs, hlen⟩
      have hstep := capacityStep hmax hs hlen c
      exact ⟨hstep, (store_maxItems c.order s c.target c.item).trans hs, hstep.bounded⟩
    · exact ⟨Nat.zero_le _, trivial⟩

def sampleItem (seq : Int64) : StoredMutableItem where
  k := .replicate 32 0xAA
  sig := .replicate 64 0xBB
  seq
  v := [53, 58, 104, 101, 108, 108, 111]
  salt := none
  lastUpdated := 0

theorem capacity_zero_exceeded : ¬ CapacityLaw 0 [⟨.asStored, 0x11, sampleItem 1⟩] := by
  intro law
  have hbound := law.2.1.bounded
  rw [run_new_zero] at hbound
  omega

end Capacity

section Sequence

inductive Op where
  | store (order : IterationOrder) (target : Id20) (item : StoredMutableItem)
  | garbageCollect (order : IterationOrder)

abbrev Event := Op × Option Bool

def perform (s : MutableItemStore) : Op → Except Fault (Option Bool × MutableItemStore)
  | .store order target item =>
    let (stored, s') := s.store order target item
    .ok (some stored, s')
  | .garbageCollect order => do
    let s' ← s.garbageCollect order
    .ok (none, s')

def Step (s : MutableItemStore) (event : Event) (s' : MutableItemStore) : Prop :=
  s.perform event.1 = .ok (event.2, s')

def offeredFor (target : Id20) : Event → Option StoredMutableItem
  | (.store _ target' item, _) => if target' = target then some item else none
  | _ => none

def acceptedFor (target : Id20) : Event → Option StoredMutableItem
  | (.store _ target' item, some true) => if target' = target then some item else none
  | _ => none

def offered (target : Id20) (events : List Event) : List StoredMutableItem :=
  events.filterMap (offeredFor target)

def accepted (target : Id20) (events : List Event) : List StoredMutableItem :=
  events.filterMap (acceptedFor target)

def Holding (target : Id20) : MutableItemStore → List Event → MutableItemStore → Prop :=
  Run (fun s event s' => Step s event s' ∧ (s'.get target).isSome)

/-- The first accepted item that carries the highest sequence number offered. -/
def firstHighest (target : Id20) (events : List Event) : Option StoredMutableItem :=
  (accepted target events).find? (fun item => (offered target events).all (fun other => other.seq ≤ item.seq))

/-- What a run that ends in `s` says about one target. -/
structure SequenceLaw (maxItems : ℕ) (events : List Event) (s : MutableItemStore) (target : Id20) : Prop where
  held : (s.get target).isSome → ∃ before since u, events = before ++ since ∧
    Run Step (new maxItems) before u ∧ u.get target = none ∧ Holding target u since s ∧
    (accepted target since).Pairwise (fun earlier later => earlier.seq < later.seq) ∧
    s.get target = firstHighest target since
  refused : ∀ order item, (s.store order target item).1 = false ↔
    ∃ held, s.get target = some held ∧ held.seq ≥ item.seq
  unchanged : ∀ order item, (s.store order target item).1 = false → (s.store order target item).2 = s
  stored : ∀ order item, (s.store order target item).1 = true →
    (s.store order target item).2.get target = some item

theorem store_get_of_ne (order : IterationOrder) (s : MutableItemStore) {target key : Id20}
    (item : StoredMutableItem) (hkey : key ≠ target) :
    (s.store order target item).2.get key = s.get key ∨ (s.store order target item).2.get key = none := by
  rcases store_cases order s target item with ⟨_, _, _, h⟩ | ⟨_, _, _, h⟩ | ⟨_, _, h⟩ | ⟨_, _, h⟩
  · exact .inl (by rw [h])
  · exact .inl (by rw [h, get_insert_of_ne s _ _ hkey])
  · exact .inl (by rw [h, get_insert_of_ne s _ _ hkey])
  · rw [h]
    unfold get
    rw [AssocMap.get?_insert_of_ne _ _ hkey]
    cases hget : (evictOldest order s.items).get? key with
    | none => exact .inr rfl
    | some other => exact .inl (evictOldest_get_some order s.items hget).symm

theorem store_refused_iff (order : IterationOrder) (s : MutableItemStore) (target : Id20)
    (item : StoredMutableItem) :
    (s.store order target item).1 = false ↔ ∃ held, s.get target = some held ∧ held.seq ≥ item.seq := by
  rcases store_cases order s target item with
    ⟨held, hheld, hseq, h⟩ | ⟨held, hheld, hseq, h⟩ | ⟨hnone, _, h⟩ | ⟨hnone, _, h⟩
  · simp only [h, true_iff]
    exact ⟨held, hheld, hseq⟩
  · simp [h, hheld, hseq]
  · simp [h, hnone]
  · simp [h, hnone]

theorem store_unchanged (order : IterationOrder) (s : MutableItemStore) (target : Id20)
    (item : StoredMutableItem) (hfalse : (s.store order target item).1 = false) :
    (s.store order target item).2 = s := by
  rcases store_cases order s target item with ⟨_, _, _, h⟩ | ⟨_, _, _, h⟩ | ⟨_, _, h⟩ | ⟨_, _, h⟩
  · rw [h]
  all_goals
    rw [h] at hfalse
    cases hfalse

/-- An accepted item is held right after the call: the eviction comes before the insertion. -/
theorem store_get_self (order : IterationOrder) (s : MutableItemStore) (target : Id20)
    (item : StoredMutableItem) (htrue : (s.store order target item).1 = true) :
    (s.store order target item).2.get target = some item := by
  rcases store_cases order s target item with ⟨_, _, _, h⟩ | ⟨_, _, _, h⟩ | ⟨_, _, h⟩ | ⟨_, _, h⟩
  · rw [h] at htrue
    cases htrue
  all_goals
    rw [h]
    exact AssocMap.get?_insert_self _ _ _

theorem step_target {s s' : MutableItemStore} {event : Event} (h : Step s event s') (target : Id20) :
    (∃ item, offeredFor target event = some item ∧ acceptedFor target event = some item ∧
      s'.get target = some item ∧ ∀ held, s.get target = some held → held.seq < item.seq) ∨
    (∃ item held, offeredFor target event = some item ∧ acceptedFor target event = none ∧
      s' = s ∧ s.get target = some held ∧ item.seq ≤ held.seq) ∨
    (offeredFor target event = none ∧ acceptedFor target event = none ∧
      (s'.get target = s.get target ∨ s'.get target = none)) := by
  obtain ⟨op, answer⟩ := event
  cases op with
  | garbageCollect order =>
    right; right
    obtain ⟨t, ht, _, hget⟩ := garbageCollect_spec order s
    have hs' : s' = t := by
      rw [Step, perform, ht, ok_bind] at h
      cases h
      rfl
    rw [hs']
    exact ⟨rfl, rfl, hget target⟩
  | store order target' item =>
    obtain ⟨hanswer, hs'⟩ : some (s.store order target' item).1 = answer ∧
        (s.store order target' item).2 = s' := by
      simpa [Step, perform, Prod.mk.injEq] using h
    subst hanswer
    generalize hb : (s.store order target' item).1 = b
    by_cases htarget : target' = target
    · subst htarget
      have hoffered : offeredFor target' (.store order target' item, some b) = some item := if_pos rfl
      cases b with
      | true =>
        left
        refine ⟨item, hoffered, if_pos rfl, ?_, ?_⟩
        · rw [← hs']
          exact store_get_self order s target' item hb
        · intro held hheld
          by_contra hseq
          have hfalse := (store_refused_iff order s target' item).2 ⟨held, hheld, Int64.not_lt.1 hseq⟩
          rw [hb] at hfalse
          cases hfalse
      | false =>
        right; left
        obtain ⟨held, hheld, hseq⟩ := (store_refused_iff order s target' item).1 hb
        exact ⟨item, held, hoffered, rfl, hs' ▸ store_unchanged order s target' item hb, hheld, hseq⟩
    · right; right
      refine ⟨if_neg htarget, ?_, hs' ▸ store_get_of_ne order s item (Ne.symm htarget)⟩
      cases b with
      | true => exact if_neg htarget
      | false => rfl

/-- What the events since a target was absent say about the item it has now. -/
structure KeptSince (target : Id20) (since : List Event) (item : StoredMutableItem) : Prop where
  increasing : (accepted target since).Pairwise (fun earlier later => earlier.seq < later.seq)
  last : ∃ others, accepted target since = others ++ [item]
  offeredToo : item ∈ offered target since
  highest : ∀ other ∈ offered target since, other.seq ≤ item.seq

theorem KeptSince.accepted_split {target : Id20} {since : List Event} {item : StoredMutableItem}
    (h : KeptSince target since item) :
    ∃ others, accepted target since = others ++ [item] ∧ ∀ other ∈ others, other.seq < item.seq := by
  obtain ⟨others, hothers⟩ := h.last
  have hincreasing := h.increasing
  rw [hothers, List.pairwise_append] at hincreasing
  exact ⟨others, hothers, fun other hother => hincreasing.2.2 other hother item (List.mem_singleton_self _)⟩

theorem KeptSince.firstHighest {target : Id20} {since : List Event} {item : StoredMutableItem}
    (h : KeptSince target since item) : firstHighest target since = some item := by
  obtain ⟨others, hothers, hless⟩ := h.accepted_split
  unfold MutableItemStore.firstHighest
  rw [hothers, List.find?_append]
  have hnone : others.find? (fun item => (offered target since).all (fun other => other.seq ≤ item.seq)) =
      none := by
    rw [List.find?_eq_none]
    intro other hother hall
    have hlt := hless other hother
    have hle : item.seq ≤ other.seq := by simpa using List.all_eq_true.1 hall item h.offeredToo
    exact Int64.lt_irrefl (Int64.lt_of_lt_of_le hlt hle)
  rw [hnone]
  simpa using h.highest

theorem KeptSince.first {target : Id20} {event : Event} {item : StoredMutableItem}
    (hoffered : offeredFor target event = some item) (haccepted : acceptedFor target event = some item) :
    KeptSince target [event] item := by
  have ho : offered target [event] = [item] := by simp [offered, hoffered]
  have ha : accepted target [event] = [item] := by simp [accepted, haccepted]
  exact ⟨by rw [ha]; exact List.pairwise_singleton _ _, ⟨[], ha⟩, by simp [ho], by simp [ho]⟩

section OneMore
variable {target : Id20} {since : List Event} {item : StoredMutableItem} {event : Event}

theorem offered_snoc (target : Id20) (since : List Event) (event : Event) :
    offered target (since ++ [event]) = offered target since ++ (offeredFor target event).toList := by
  unfold offered
  rw [filterMap_snoc]

theorem accepted_snoc (target : Id20) (since : List Event) (event : Event) :
    accepted target (since ++ [event]) = accepted target since ++ (acceptedFor target event).toList := by
  unfold accepted
  rw [filterMap_snoc]

theorem KeptSince.replaced (h : KeptSince target since item) {item' : StoredMutableItem}
    (hoffered : offeredFor target event = some item') (haccepted : acceptedFor target event = some item')
    (hless : item.seq < item'.seq) : KeptSince target (since ++ [event]) item' := by
  have ho := offered_snoc target since event
  have ha := accepted_snoc target since event
  rw [hoffered, Option.toList_some] at ho
  rw [haccepted, Option.toList_some] at ha
  obtain ⟨others, hothers, hothersLess⟩ := h.accepted_split
  have hbelow : ∀ a ∈ accepted target since, a.seq < item'.seq := by
    intro a hmem
    rw [hothers, List.mem_append, List.mem_singleton] at hmem
    rcases hmem with hmem | rfl
    · exact Int64.lt_trans (hothersLess a hmem) hless
    · exact hless
  constructor
  · rw [ha, List.pairwise_append]
    refine ⟨h.increasing, List.pairwise_singleton _ _, ?_⟩
    intro a hmem b hb
    rw [List.mem_singleton.1 hb]
    exact hbelow a hmem
  · exact ⟨accepted target since, ha⟩
  · simp [ho]
  · intro other hmem
    rw [ho, List.mem_append, List.mem_singleton] at hmem
    rcases hmem with hmem | rfl
    · exact Int64.le_of_lt (Int64.lt_of_le_of_lt (h.highest other hmem) hless)
    · exact Int64.le_refl _

/-- An event that has nothing accepted for the target, and nothing higher offered, changes nothing. -/
theorem KeptSince.kept (h : KeptSince target since item) (haccepted : acceptedFor target event = none)
    (hle : ∀ other ∈ offeredFor target event, other.seq ≤ item.seq) : KeptSince target (since ++ [event]) item := by
  have ho := offered_snoc target since event
  have ha := accepted_snoc target since event
  rw [haccepted, Option.toList_none, List.append_nil] at ha
  constructor
  · rw [ha]
    exact h.increasing
  · rw [ha]
    exact h.last
  · rw [ho]
    exact List.mem_append_left _ h.offeredToo
  · intro other hmem
    rw [ho, List.mem_append, Option.mem_toList] at hmem
    rcases hmem with hmem | hmem
    · exact h.highest other hmem
    · exact hle other hmem

theorem KeptSince.next {item' : StoredMutableItem} {s s' : MutableItemStore} (h : KeptSince target since item)
    (step : Step s event s') (hitem : s.get target = some item) (hitem' : s'.get target = some item') :
    KeptSince target (since ++ [event]) item' := by
  rcases step_target step target with
    ⟨new, hoffered, haccepted, hget, hless⟩ | ⟨other, held, hoffered, haccepted, rfl, hget, hle⟩ |
    ⟨hoffered, haccepted, hsame | hgone⟩
  · cases hitem'.symm.trans hget
    exact h.replaced hoffered haccepted (hless item hitem)
  · cases hitem.symm.trans hget
    cases hitem'.symm.trans hget
    refine h.kept haccepted ?_
    rw [hoffered]
    simpa using hle
  · cases hitem'.symm.trans (hsame.trans hitem)
    refine h.kept haccepted ?_
    rw [hoffered]
    simp
  · rw [hgone] at hitem'
    cases hitem'

end OneMore

theorem since_absent {maxItems : ℕ} {events : List Event} {s : MutableItemStore}
    (run : Run Step (new maxItems) events s) (target : Id20) {item : StoredMutableItem}
    (hitem : s.get target = some item) :
    ∃ before since u, events = before ++ since ∧ Run Step (new maxItems) before u ∧ u.get target = none ∧
      Holding target u since s ∧ KeptSince target since item := by
  induction run generalizing item with
  | nil => cases hitem
  | @snoc events v w event before last ih =>
    cases hv : v.get target with
    | none =>
      refine ⟨events, [event], v, rfl, before, hv, Run.single ⟨last, by simp [hitem]⟩, ?_⟩
      rcases step_target last target with
        ⟨new, hoffered, haccepted, hget, _⟩ | ⟨_, _, _, _, _, hget, _⟩ | ⟨_, _, hsame | hgone⟩
      · cases hitem.symm.trans hget
        exact .first hoffered haccepted
      · rw [hv] at hget
        cases hget
      · rw [hsame, hv] at hitem
        cases hitem
      · rw [hgone] at hitem
        cases hitem
    | some old =>
      obtain ⟨front, since, u, rfl, hfront, hu, hholding, hkept⟩ := ih hv
      exact ⟨front, since ++ [event], u, by rw [List.append_assoc], hfront, hu,
        .snoc hholding ⟨last, by simp [hitem]⟩, hkept.next last hv hitem⟩

theorem exists_events (s : MutableItemStore) (ops : List Op) :
    ∃ events t, events.map Prod.fst = ops ∧ Run Step s events t := by
  induction ops using List.reverseRecOn with
  | nil => exact ⟨[], s, rfl, .nil⟩
  | append_singleton ops op ih =>
    obtain ⟨events, t, rfl, run⟩ := ih
    have hnext : ∃ answer t', t.perform op = .ok (answer, t') := by
      cases op with
      | store order target item => exact ⟨_, _, rfl⟩
      | garbageCollect order =>
        obtain ⟨t', ht, _⟩ := garbageCollect_spec order t
        exact ⟨none, t', by rw [perform, ht, ok_bind]⟩
    obtain ⟨answer, t', ht⟩ := hnext
    exact ⟨events ++ [(op, answer)], t', by simp, .snoc run ht⟩

/-- Every sequence of calls runs to its end, and sequence numbers never roll back on the way. -/
theorem sequence_law (maxItems : ℕ) (ops : List Op) (target : Id20) :
    ∃ events s, events.map Prod.fst = ops ∧ Run Step (new maxItems) events s ∧
      SequenceLaw maxItems events s target := by
  obtain ⟨events, s, hops, run⟩ := exists_events (new maxItems) ops
  refine ⟨events, s, hops, run, ?_, fun order item => store_refused_iff order s target item,
    fun order item => store_unchanged order s target item, fun order item => store_get_self order s target item⟩
  intro hsome
  obtain ⟨item, hitem⟩ := Option.isSome_iff_exists.1 hsome
  obtain ⟨before, since, u, hsplit, hbefore, hu, hholding, hkept⟩ := since_absent run target hitem
  exact ⟨before, since, u, hsplit, hbefore, hu, hholding, hkept.increasing,
    hitem.trans hkept.firstHighest.symm⟩

end Sequence
end MutableItemStore
end LibrtbitDht
