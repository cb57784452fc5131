import LibrtbitDht.CommitPoints
import LibrtbitDht.MutableItemHistory

set_option autoImplicit false

namespace LibrtbitDht
open TransitionRuns CommitPoints
namespace MutableItemStore

/-- The map operation that a call is about to do. -/
inductive Pc where
  | get
  | containsKey
  | len
  | iter
  | remove (key : Id20)
  | insert (evicted : Bool)
  | done (stored : Bool)
deriving DecidableEq, Repr

structure Call where
  target : Id20
  item : StoredMutableItem
  pc : Pc
deriving DecidableEq, Repr

abbrev Offer := Id20 × StoredMutableItem

namespace Call

def start (offer : Offer) : Call := ⟨offer.1, offer.2, .get⟩

def offer (c : Call) : Offer := (c.target, c.item)

def act (maxItems : ℕ) (order : IterationOrder) (items : Items) (c : Call) : Items × Call :=
  match c.pc with
  | .get => (items, { c with pc := if refuses items c.target c.item then .done false else .containsKey })
  | .containsKey => (items, { c with pc := if (items.get? c.target).isSome then .insert false else .len })
  | .len => (items, { c with pc := if items.len ≥ maxItems then .iter else .insert false })
  | .iter => (items, { c with
      pc := match oldest order items with
        | some key => .remove key
        | none => .insert false })
  | .remove key => (items.remove key, { c with pc := .insert true })
  | .insert _ => (items.insert c.target c.item, { c with pc := .done true })
  | .done _ => (items, c)

def answer (c : Call) : Option Bool :=
  match c.pc with
  | .insert true => some true
  | .done stored => some stored
  | _ => none

def pending (c : Call) : Option Offer :=
  match c.pc with
  | .insert true => some c.offer
  | _ => none

end Call

abbrev Concurrent := System Items Call

namespace Concurrent

def start (offers : List Offer) : Concurrent := ⟨.empty, offers.map Call.start⟩

def step (maxItems : ℕ) : Concurrent → ℕ × IterationOrder → Concurrent := CommitPoints.step (Call.act maxItems)

def run (maxItems : ℕ) (offers : List Offer) (actions : List (ℕ × IterationOrder)) : Concurrent :=
  actions.foldl (step maxItems) (start offers)

/-- The entries of the map with the items that room has been made for. -/
def settled (s : Concurrent) : List Offer := s.shared.entries ++ s.calls.filterMap Call.pending

abbrev RemovalDue (maxItems : ℕ) (s : Concurrent) (c : Call) (key : Id20) : Prop :=
  c.target ∉ s.settled.map Prod.fst ∧ maxItems ≤ s.settled.length ∧
    ∃ e ∈ s.shared.entries, e.1 = key ∧ ∀ other ∈ s.settled, e.2.lastUpdated ≤ other.2.lastUpdated

/-- The call would have to insert its item without an eviction if it started now. -/
abbrev InsertionDue (maxItems : ℕ) (s : Concurrent) (c : Call) : Prop :=
  (∀ held ∈ s.settled, held.1 = c.target → held.2.seq < c.item.seq) ∧
    (c.target ∈ s.shared.entries.map Prod.fst ∨
      c.target ∉ s.settled.map Prod.fst ∧ (s.settled.length < maxItems ∨ s.settled = []))

def StillSo (maxItems : ℕ) (s : Concurrent) (c : Call) : Pc → Prop
  | .remove key => RemovalDue maxItems s c key
  | .insert false => InsertionDue maxItems s c
  | _ => True

instance decidableStillSo (maxItems : ℕ) (s : Concurrent) (c : Call) : ∀ pc, Decidable (StillSo maxItems s c pc)
  | .remove key => inferInstanceAs (Decidable (RemovalDue maxItems s c key))
  | .insert false => inferInstanceAs (Decidable (InsertionDue maxItems s c))
  | .get | .containsKey | .len | .iter | .insert true | .done _ => .isTrue trivial

/-- The step to come, if it writes, acts on checks that still hold. -/
def Undisturbed (maxItems : ℕ) (s : Concurrent) (action : ℕ × IterationOrder) : Prop :=
  ∀ c ∈ s.calls[action.1]?, StillSo maxItems s c c.pc

instance (maxItems : ℕ) (s : Concurrent) (action : ℕ × IterationOrder) :
    Decidable (Undisturbed maxItems s action) :=
  inferInstanceAs (Decidable (∀ c ∈ s.calls[action.1]?, StillSo maxItems s c c.pc))

end Concurrent
open Concurrent

/-- A whole call on the store, with some order of iteration. -/
def Atomic (s : MutableItemStore) (offer : Offer) (stored : Bool) (s' : MutableItemStore) : Prop :=
  ∃ order, s.store order offer.1 offer.2 = (stored, s')

/-- The answers and the final contents are those of the same calls one at a time, in some order. -/
def Linearizable (maxItems : ℕ) (offers : List Offer) (s : Concurrent) : Prop :=
  ∃ labels t, Run (OneAtATime Atomic offers) (new maxItems) labels t ∧
    (labels.map Prod.fst).Perm (List.range offers.length) ∧
    (∀ i stored, (i, stored) ∈ labels ↔ s.calls[i]?.map Call.pc = some (.done stored)) ∧
    ∀ key, t.get key = s.shared.get? key

def Evicts (target : Id20) (s : Concurrent) (action : ℕ × IterationOrder) : Prop :=
  s.calls[action.1]?.map Call.pc = some (.remove target)

structure LinearizableRun (maxItems : ℕ) (offers : List Offer) (actions : List (ℕ × IterationOrder)) : Prop where
  linearizable : (∀ c ∈ (run maxItems offers actions).calls, ∃ stored, c.pc = .done stored) →
    Linearizable maxItems offers (run maxItems offers actions)
  largest : ∀ target,
    EveryStep (step maxItems) (fun s action => ¬ Evicts target s action) (start offers) actions →
    ∀ c ∈ (run maxItems offers actions).calls, c.target = target → c.pc = .done true →
      ∃ kept ∈ (run maxItems offers actions).calls, kept.target = target ∧ kept.pc = .done true ∧
        (run maxItems offers actions).shared.get? target = some kept.item ∧ c.item.seq ≤ kept.item.seq
  bounded : 1 ≤ maxItems → (run maxItems offers actions).shared.len ≤ maxItems

section Simulation

/-- The sequential store that a state of the interleaved calls stands for. -/
def Represents (maxItems : ℕ) (s : Concurrent) (t : MutableItemStore) : Prop :=
  t.maxItems = maxItems ∧ t.items.entries.Perm s.settled

theorem filterMap_set_perm {α β : Type} (f : α → Option β) {l : List α} {i : ℕ} {a : α} (h : l[i]? = some a) :
    ∃ rest, (l.filterMap f).Perm ((f a).toList ++ rest) ∧
      ∀ a', ((l.set i a').filterMap f).Perm ((f a').toList ++ rest) := by
  obtain ⟨hi, rfl⟩ := List.getElem?_eq_some_iff.1 h
  have hsplit : ∀ a', (l.set i a').filterMap f =
      (l.take i).filterMap f ++ ((f a').toList ++ (l.drop (i + 1)).filterMap f) := by
    intro a'
    rw [List.set_eq_take_append_cons_drop, if_pos hi, List.filterMap_append]
    cases hf : f a' <;> simp [hf]
  refine ⟨(l.take i).filterMap f ++ (l.drop (i + 1)).filterMap f, ?_, ?_⟩
  · have hself := hsplit l[i]
    rw [List.set_getElem_self] at hself
    rw [hself]
    exact List.perm_append_comm_assoc _ _ _
  · intro a'
    rw [hsplit a']
    exact List.perm_append_comm_assoc _ _ _

variable {maxItems : ℕ} {s : Concurrent} {t : MutableItemStore} {action : ℕ × IterationOrder} {c : Call}

theorem Represents.get_iff (h : Represents maxItems s t) (key : Id20) (item : StoredMutableItem) :
    t.get key = some item ↔ (key, item) ∈ s.settled := by
  rw [get, AssocMap.get?_eq_some_iff, h.2.mem_iff]

theorem Represents.get_eq_none_iff (h : Represents maxItems s t) (key : Id20) :
    t.get key = none ↔ key ∉ s.settled.map Prod.fst := by
  rw [get, AssocMap.get?_eq_none_iff, AssocMap.keys, (h.2.map Prod.fst).mem_iff]

theorem Represents.len (h : Represents maxItems s t) : t.len = s.settled.length := h.2.length_eq

theorem act_offer (order : IterationOrder) (items : Items) (c : Call) :
    (Call.act maxItems order items c).2.offer = c.offer := by
  unfold Call.act
  split <;> rfl

theorem exists_order {items : Items} {key : Id20} {item : StoredMutableItem} (hmem : (key, item) ∈ items.entries)
    (hold : ∀ other ∈ items.entries, item.lastUpdated ≤ other.2.lastUpdated) :
    ∃ order, evictOldest order items = items.remove key := by
  let arrange : List Offer → List Offer := fun es =>
    if (key, item) ∈ es then (key, item) :: es.erase (key, item) else es
  have hperm : ∀ es, (arrange es).Perm es := by
    intro es
    by_cases h : (key, item) ∈ es
    · rw [show arrange es = _ from if_pos h]
      exact (List.perm_cons_erase h).symm
    · rw [show arrange es = _ from if_neg h]
  refine ⟨⟨arrange, hperm⟩, ?_⟩
  have harr : arrange items.entries = (key, item) :: items.entries.erase (key, item) := if_pos hmem
  have hmin : (arrange items.entries).argmin (fun e => e.2.lastUpdated) = some (key, item) := by
    rw [harr, List.argmin_cons]
    cases hrest : (items.entries.erase (key, item)).argmin (fun e => e.2.lastUpdated) with
    | none => rfl
    | some other =>
      have hle := hold other (List.mem_of_mem_erase (List.argmin_mem hrest))
      exact if_neg (not_lt.2 hle)
  rw [evictOldest, oldest, hmin]
  rfl

theorem store_evicting (order : IterationOrder) {t : MutableItemStore} {offer : Offer}
    (hnone : t.get offer.1 = none) (hfull : t.maxItems ≤ t.len) :
    t.store order offer.1 offer.2 =
      (true, { t with items := (evictOldest order t.items).insert offer.1 offer.2 }) := by
  rcases store_cases order t offer.1 offer.2 with
    ⟨held, hheld, _⟩ | ⟨held, hheld, _⟩ | ⟨_, hroom, _⟩ | ⟨_, _, h⟩
  · rw [hnone] at hheld
    cases hheld
  · rw [hnone] at hheld
    cases hheld
  · omega
  · exact h

theorem store_inserting (order : IterationOrder) (t : MutableItemStore) (offer : Offer)
    (hseq : ∀ held, t.get offer.1 = some held → held.seq < offer.2.seq)
    (hroom : (t.get offer.1).isSome ∨ t.len < t.maxItems ∨ t.len = 0) :
    t.store order offer.1 offer.2 = (true, { t with items := t.items.insert offer.1 offer.2 }) := by
  rcases store_cases order t offer.1 offer.2 with
    ⟨held, hheld, hle, _⟩ | ⟨_, _, _, h⟩ | ⟨_, _, h⟩ | ⟨hnone, hfull, h⟩
  · exact absurd (Int64.lt_of_lt_of_le (hseq held hheld) hle) Int64.lt_irrefl
  · exact h
  · exact h
  · rw [hnone] at hroom
    rcases evictOldest_cases order t.items with ⟨_, heq⟩ | ⟨key, ⟨item, hitem, _⟩, _⟩
    · rw [h, heq]
    · have hlen := AssocMap.len_remove t.items hitem
      unfold len at *
      simp at hroom
      omega

theorem settled_set_perm (hc : s.calls[action.1]? = some c) :
    ∃ rest, s.settled.Perm (s.shared.entries ++ (c.pending.toList ++ rest)) ∧
      ∀ (items : Items) (c' : Call), (settled ⟨items, s.calls.set action.1 c'⟩).Perm
        (items.entries ++ (c'.pending.toList ++ rest)) := by
  obtain ⟨rest, hbefore, hafter⟩ := filterMap_set_perm Call.pending hc
  exact ⟨rest, hbefore.append_left _, fun items c' => (hafter c').append_left _⟩

theorem Represents.nodup (h : Represents maxItems s t) : (s.settled.map Prod.fst).Nodup :=
  (h.2.map Prod.fst).nodup_iff.1 t.items.nodup

abbrev StoreCommits (maxItems : ℕ) :=
  Commits (Call.act maxItems) Atomic Call.offer Call.answer (Represents maxItems)

theorem pending_of_undecided (h : c.answer = none) : c.pending = none := by
  unfold Call.answer at h
  unfold Call.pending
  split at h
  · cases h
  · cases h
  · split
    · contradiction
    · rfl

theorem commits_read (h : Represents maxItems s t) (hc : s.calls[action.1]? = some c) {c' : Call}
    (hact : Call.act maxItems action.2 s.shared c = (s.shared, c')) (hold : c.answer = none)
    (hnew : c'.answer = none) : StoreCommits maxItems s t action c := by
  refine ⟨act_offer _ _ _, .inl ⟨by rw [hact, hold, hnew], h.1, ?_⟩⟩
  obtain ⟨rest, hbefore, hafter⟩ := settled_set_perm hc
  have hafter := hafter s.shared c'
  rw [pending_of_undecided hold] at hbefore
  rw [pending_of_undecided hnew] at hafter
  rw [step_some hc, hact]
  exact h.2.trans (hbefore.trans hafter.symm)

theorem commits_get (h : Represents maxItems s t) (hc : s.calls[action.1]? = some c) (hpc : c.pc = .get) :
    StoreCommits maxItems s t action c := by
  by_cases hrefuses : refuses s.shared c.target c.item = true
  · have hact : Call.act maxItems action.2 s.shared c = (s.shared, { c with pc := .done false }) := by
      rw [Call.act, hpc]
      simp [hrefuses]
    obtain ⟨held, hheld, hseq⟩ := (refuses_iff _ _ _).1 hrefuses
    have hget : t.get c.target = some held :=
      (h.get_iff _ _).2 (List.mem_append_left _ ((AssocMap.get?_eq_some_iff _ _ _).1 hheld))
    have hfalse := (store_refused_iff action.2 t c.target c.item).2 ⟨held, hget, hseq⟩
    refine ⟨act_offer _ _ _, .inr ⟨by rw [Call.answer, hpc], false, t, by rw [hact]; rfl, ⟨action.2, ?_⟩, ?_⟩⟩
    · exact Prod.ext hfalse (store_unchanged action.2 t c.target c.item hfalse)
    · obtain ⟨rest, hbefore, hafter⟩ := settled_set_perm hc
      rw [step_some hc, hact]
      have hnone : c.pending = none := by rw [Call.pending, hpc]
      rw [hnone] at hbefore
      exact ⟨h.1, h.2.trans (hbefore.trans (hafter s.shared { c with pc := .done false }).symm)⟩
  · have hact : Call.act maxItems action.2 s.shared c = (s.shared, { c with pc := .containsKey }) := by
      rw [Call.act, hpc]
      simp [hrefuses]
    exact commits_read h hc hact (by rw [Call.answer, hpc]) rfl

/-- The removal of the item that the call evicts performs the whole call on the sequential store. -/
theorem commits_remove (h : Represents maxItems s t) (hc : s.calls[action.1]? = some c) {key : Id20}
    (hpc : c.pc = .remove key) (hdue : RemovalDue maxItems s c key) : StoreCommits maxItems s t action c := by
  have hact : Call.act maxItems action.2 s.shared c = (s.shared.remove key, { c with pc := .insert true }) := by
    rw [Call.act, hpc]
  obtain ⟨habsent, hfull, ⟨key', item⟩, hmem, rfl, hold⟩ := hdue
  have htmem : (key', item) ∈ t.items.entries := h.2.mem_iff.2 (List.mem_append_left _ hmem)
  obtain ⟨order, horder⟩ := exists_order htmem (fun other hother => hold other (h.2.mem_iff.1 hother))
  have hnone : t.get c.target = none := (h.get_eq_none_iff _).2 habsent
  have hstore := store_evicting order (show t.get c.offer.1 = none from hnone) (by rw [h.1, h.len]; exact hfull)
  rw [horder] at hstore
  refine ⟨act_offer _ _ _, .inr ⟨by rw [Call.answer, hpc], true, _, by rw [hact]; rfl, ⟨order, hstore⟩, h.1, ?_⟩⟩
  obtain ⟨rest, hbefore, hafter⟩ := settled_set_perm hc
  have hpending : c.pending = none := by rw [Call.pending, hpc]
  rw [hpending, Option.toList_none, List.nil_append] at hbefore
  have hrest : rest.filter (fun e => decide (e.1 ≠ key')) = rest := by
    have hnd := (hbefore.map Prod.fst).nodup_iff.1 h.nodup
    rw [List.map_append, List.nodup_append] at hnd
    rw [List.filter_eq_self]
    intro e he
    rw [decide_eq_true_eq]
    exact Ne.symm (hnd.2.2 _ (List.mem_map_of_mem hmem) _ (List.mem_map_of_mem he))
  have hremove : ((t.items.remove key').remove c.target).entries = (t.items.remove key').entries := by
    apply AssocMap.remove_of_none
    rw [AssocMap.get?_eq_none_iff, AssocMap.mem_keys_iff]
    rintro ⟨other, hother⟩
    have hsome := ((AssocMap.get?_remove_eq_some_iff t.items).1 hother).2
    rw [get, hsome] at hnone
    cases hnone
  have hperm : (((t.items.remove key').insert c.target c.item).entries).Perm
      ((s.shared.remove key').entries ++ ([c.offer] ++ rest)) := by
    calc
      _ = c.offer :: t.items.entries.filter (fun e => decide (e.1 ≠ key')) := congrArg _ hremove
      List.Perm _ (c.offer :: (s.shared.entries ++ rest).filter (fun e => decide (e.1 ≠ key'))) :=
        ((h.2.trans hbefore).filter _).cons _
      _ = c.offer :: ((s.shared.remove key').entries ++ rest) := by rw [List.filter_append, hrest]; rfl
      List.Perm _ ((s.shared.remove key').entries ++ ([c.offer] ++ rest)) := List.perm_middle.symm
  rw [step_some hc, hact]
  exact hperm.trans (hafter (s.shared.remove key') { c with pc := .insert true }).symm

theorem store_of_insertionDue (h : Represents maxItems s t) (hdue : InsertionDue maxItems s c)
    (order : IterationOrder) :
    t.store order c.target c.item = (true, { t with items := t.items.insert c.target c.item }) := by
  obtain ⟨hseq, hroom⟩ := hdue
  apply store_inserting order t c.offer
  · intro held hheld
    exact hseq (c.target, held) ((h.get_iff _ _).1 hheld) rfl
  · rw [h.1, h.len]
    rcases hroom with hkey | ⟨_, hlen | hnil⟩
    · left
      obtain ⟨⟨key, held⟩, hmem, rfl⟩ := List.mem_map.1 hkey
      rw [Option.isSome_iff_exists]
      exact ⟨held, (h.get_iff _ _).2 (List.mem_append_left _ hmem)⟩
    · exact .inr (.inl hlen)
    · right; right
      rw [hnil, List.length_nil]

/-- An insertion without an eviction performs the whole call on the sequential store. -/
theorem commits_insert (h : Represents maxItems s t) (hc : s.calls[action.1]? = some c)
    (hpc : c.pc = .insert false) (hdue : InsertionDue maxItems s c) : StoreCommits maxItems s t action c := by
  have hact : Call.act maxItems action.2 s.shared c =
      (s.shared.insert c.target c.item, { c with pc := .done true }) := by
    rw [Call.act, hpc]
  have hstore := store_of_insertionDue h hdue action.2
  refine ⟨act_offer _ _ _, .inr ⟨by rw [Call.answer, hpc], true, _, by rw [hact]; rfl,
    ⟨action.2, hstore⟩, h.1, ?_⟩⟩
  obtain ⟨rest, hbefore, hafter⟩ := settled_set_perm hc
  have hpending : c.pending = none := by rw [Call.pending, hpc]
  rw [hpending, Option.toList_none, List.nil_append] at hbefore
  have hrest : rest.filter (fun e => decide (e.1 ≠ c.target)) = rest := by
    have hnd := (hbefore.map Prod.fst).nodup_iff.1 h.nodup
    rw [List.map_append, List.nodup_append] at hnd
    rw [List.filter_eq_self]
    intro e he
    rw [decide_eq_true_eq]
    rcases hdue.2 with hkey | ⟨habsent, _⟩
    · exact Ne.symm (hnd.2.2 _ hkey _ (List.mem_map_of_mem he))
    · rintro hkey
      apply habsent
      rw [(hbefore.map Prod.fst).mem_iff, List.map_append, List.mem_append]
      exact .inr (hkey ▸ List.mem_map_of_mem he)
  have hperm : (t.items.insert c.target c.item).entries.Perm
      ((s.shared.insert c.target c.item).entries ++ rest) := by
    calc
      List.Perm _ (c.offer :: (s.shared.entries ++ rest).filter (fun e => decide (e.1 ≠ c.target))) :=
        ((h.2.trans hbefore).filter _).cons _
      _ = (s.shared.insert c.target c.item).entries ++ rest := by rw [List.filter_append, hrest]; rfl
  rw [step_some hc, hact]
  exact hperm.trans (hafter (s.shared.insert c.target c.item) { c with pc := .done true }).symm

theorem Represents.absent_of_pending (h : Represents maxItems s t) (hc : s.calls[action.1]? = some c)
    (hpc : c.pc = .insert true) : s.shared.get? c.target = none := by
  obtain ⟨rest, hbefore, _⟩ := settled_set_perm hc
  have hpending : c.pending = some c.offer := by rw [Call.pending, hpc]
  rw [hpending] at hbefore
  rw [AssocMap.get?_eq_none_iff]
  intro hkey
  have hnd := (hbefore.map Prod.fst).nodup_iff.1 h.nodup
  rw [List.map_append, List.nodup_append] at hnd
  exact hnd.2.2 _ hkey c.target (by simp [Call.offer]) rfl

theorem commits_pending (h : Represents maxItems s t) (hc : s.calls[action.1]? = some c)
    (hpc : c.pc = .insert true) : StoreCommits maxItems s t action c := by
  have hact : Call.act maxItems action.2 s.shared c =
      (s.shared.insert c.target c.item, { c with pc := .done true }) := by
    rw [Call.act, hpc]
  refine ⟨act_offer _ _ _, .inl ⟨by rw [hact, Call.answer, Call.answer, hpc], h.1, ?_⟩⟩
  obtain ⟨rest, hbefore, hafter⟩ := settled_set_perm hc
  have hpending : c.pending = some c.offer := by rw [Call.pending, hpc]
  rw [hpending] at hbefore
  have hentries : (s.shared.insert c.target c.item).entries = c.offer :: s.shared.entries :=
    congrArg (List.cons c.offer) (AssocMap.remove_of_none s.shared (h.absent_of_pending hc hpc))
  have hperm : t.items.entries.Perm ((s.shared.insert c.target c.item).entries ++ rest) := by
    calc
      List.Perm _ (s.shared.entries ++ ([c.offer] ++ rest)) := h.2.trans hbefore
      List.Perm _ (c.offer :: (s.shared.entries ++ rest)) := List.perm_middle
      _ = (s.shared.insert c.target c.item).entries ++ rest := by rw [hentries]; rfl
  rw [step_some hc, hact]
  exact hperm.trans (hafter (s.shared.insert c.target c.item) { c with pc := .done true }).symm

theorem commits_done (h : Represents maxItems s t) (hc : s.calls[action.1]? = some c) {stored : Bool}
    (hpc : c.pc = .done stored) : StoreCommits maxItems s t action c := by
  have hact : Call.act maxItems action.2 s.shared c = (s.shared, c) := by rw [Call.act, hpc]
  refine ⟨act_offer _ _ _, .inl ⟨by rw [hact], h.1, ?_⟩⟩
  rw [step_some hc, hact]
  have hset : s.calls.set action.1 c = s.calls := by
    obtain ⟨_, rfl⟩ := List.getElem?_eq_some_iff.1 hc
    exact List.set_getElem_self _
  rw [hset]
  exact h.2

theorem commits_step (h : Represents maxItems s t) (hgood : Undisturbed maxItems s action)
    (hc : s.calls[action.1]? = some c) : StoreCommits maxItems s t action c := by
  have hstill := hgood c hc
  cases hpc : c.pc with
  | get => exact commits_get h hc hpc
  | containsKey =>
    refine commits_read h hc (by rw [Call.act, hpc]) (by rw [Call.answer, hpc]) ?_
    by_cases hheld : (s.shared.get? c.target).isSome = true
    · rw [if_pos hheld]
      rfl
    · rw [if_neg hheld]
      rfl
  | len =>
    refine commits_read h hc (by rw [Call.act, hpc]) (by rw [Call.answer, hpc]) ?_
    by_cases hfull : s.shared.len ≥ maxItems
    · rw [if_pos hfull]
      rfl
    · rw [if_neg hfull]
      rfl
  | iter =>
    refine commits_read h hc (by rw [Call.act, hpc]) (by rw [Call.answer, hpc]) ?_
    cases oldest action.2 s.shared <;> rfl
  | remove key =>
    rw [hpc] at hstill
    exact commits_remove h hc hpc hstill
  | insert evicted =>
    rw [hpc] at hstill
    cases evicted with
    | false => exact commits_insert h hc hpc hstill
    | true => exact commits_pending h hc hpc
  | done stored => exact commits_done h hc hpc

theorem exists_represents_step (h : Represents maxItems s t) (hgood : Undisturbed maxItems s action) :
    ∃ t', Represents maxItems (Concurrent.step maxItems s action) t' := by
  cases hc : s.calls[action.1]? with
  | none =>
    rw [Concurrent.step, step_none hc]
    exact ⟨t, h⟩
  | some c =>
    rcases (commits_step h hgood hc).cases with ⟨_, hrel⟩ | ⟨_, _, t', _, _, hrel⟩
    · exact ⟨t, hrel⟩
    · exact ⟨t', hrel⟩

theorem represents_start (maxItems : ℕ) (offers : List Offer) :
    Represents maxItems (Concurrent.start offers) (new maxItems) := by
  have hpending : (offers.map Call.start).filterMap Call.pending = [] := by
    rw [List.filterMap_eq_nil_iff]
    intro c hc
    obtain ⟨offer, _, rfl⟩ := List.mem_map.1 hc
    rfl
  refine ⟨rfl, ?_⟩
  rw [settled, Concurrent.start, hpending]
  exact .refl _

end Simulation

section Law
variable {maxItems : ℕ} {offers : List Offer} {actions : List (ℕ × IterationOrder)}

theorem exists_linearization
    (steps : EveryStep (step maxItems) (Undisturbed maxItems) (Concurrent.start offers) actions) :
    ∃ labels t, Linearized Atomic offers Call.answer (new maxItems) (run maxItems offers actions).calls labels t ∧
      Represents maxItems (run maxItems offers actions) t ∧
      (run maxItems offers actions).calls.map Call.offer = offers := by
  have hoffers : (Concurrent.start offers).calls.map Call.offer = offers := by
    rw [Concurrent.start, List.map_map]
    exact List.map_id _
  have hidle : ∀ c ∈ (Concurrent.start offers).calls, c.answer = none := by
    intro c hc
    obtain ⟨offer, _, rfl⟩ := List.mem_map.1 hc
    rfl
  have hlin := linearized_of_commits Atomic Call.offer Call.answer steps hidle
    (represents_start maxItems offers) (fun s t action c hrel hgood hc => commits_step hrel hgood hc)
  rw [hoffers] at hlin
  exact hlin

theorem linearizable_of_linearized {s : Concurrent} {labels : List (ℕ × Bool)} {t : MutableItemStore}
    (hlin : Linearized Atomic offers Call.answer (new maxItems) s.calls labels t)
    (hrel : Represents maxItems s t) (hoffers : s.calls.map Call.offer = offers)
    (hdone : ∀ c ∈ s.calls, ∃ stored, c.pc = .done stored) : Linearizable maxItems offers s := by
  have hanswer : ∀ c ∈ s.calls, ∀ stored, c.answer = some stored ↔ c.pc = .done stored := by
    intro c hc stored
    obtain ⟨b, hb⟩ := hdone c hc
    simp [Call.answer, hb]
  have hpending : s.calls.filterMap Call.pending = [] := by
    rw [List.filterMap_eq_nil_iff]
    intro c hc
    obtain ⟨b, hb⟩ := hdone c hc
    rw [Call.pending, hb]
  refine ⟨labels, t, hlin.run, ?_, ?_, ?_⟩
  · rw [← hoffers, List.length_map]
    apply hlin.perm
    intro c hc
    obtain ⟨b, hb⟩ := hdone c hc
    rw [(hanswer c hc b).2 hb, Option.isSome_some]
  · intro i stored
    rw [hlin.answers, Option.map_eq_some_iff]
    constructor
    · rintro ⟨c, hc, hstored⟩
      exact ⟨c, hc, (hanswer c (List.mem_of_getElem? hc) stored).1 hstored⟩
    · rintro ⟨c, hc, hstored⟩
      exact ⟨c, hc, (hanswer c (List.mem_of_getElem? hc) stored).2 hstored⟩
  · intro key
    ext item
    rw [hrel.get_iff, AssocMap.get?_eq_some_iff, settled, hpending, List.append_nil]

theorem atomic_bounded {t : MutableItemStore} {labels : List (ℕ × Bool)} (hmax : 1 ≤ maxItems)
    (run : Run (OneAtATime Atomic offers) (new maxItems) labels t) : t.len ≤ maxItems := by
  have hboth : t.maxItems = maxItems ∧ t.len ≤ maxItems := by
    refine run.invariant (fun t => t.maxItems = maxItems ∧ t.len ≤ maxItems) ⟨rfl, Nat.zero_le _⟩ ?_
    rintro v w ⟨i, stored⟩ ⟨hv, hlen⟩ ⟨offer, _, order, hstore⟩
    have hw : w = StoreCall.run v ⟨order, offer.1, offer.2⟩ := by rw [StoreCall.run, hstore]
    rw [hw]
    exact ⟨(store_maxItems _ _ _ _).trans hv, (capacityStep hmax hv hlen _).bounded⟩
  exact hboth.2

/-- The kept item of a target that is never evicted is the best of those answered with `true`. -/
def KeepsLargest (target : Id20) (s : Concurrent) : Prop :=
  ∀ c ∈ s.calls, c.target = target → c.pc = .done true →
    ∃ kept ∈ s.calls, kept.target = target ∧ kept.pc = .done true ∧
      s.shared.get? target = some kept.item ∧ c.item.seq ≤ kept.item.seq

section KeepsLargest
variable {target : Id20} {s : Concurrent} {t : MutableItemStore} {action : ℕ × IterationOrder} {c c' : Call}

theorem getElem?_of_mem {calls : List Call} {d : Call} (h : d ∈ calls) : ∃ j : ℕ, calls[j]? = some d :=
  List.mem_iff_getElem?.1 h

theorem KeepsLargest.frame (h : KeepsLargest target s) (hc : s.calls[action.1]? = some c) {items : Items}
    (hget : items.get? target = s.shared.get? target)
    (hsame : c' = c ∨ c.pc ≠ .done true ∧ (c'.target ≠ target ∨ c'.pc ≠ .done true)) :
    KeepsLargest target ⟨items, s.calls.set action.1 c'⟩ := by
  intro d hd htarget hpc
  have hold : d ∈ s.calls := by
    rcases List.mem_or_eq_of_mem_set hd with hd | rfl
    · exact hd
    · rcases hsame with rfl | ⟨_, hne | hne⟩
      · exact List.mem_of_getElem? hc
      · exact absurd htarget hne
      · exact absurd hpc hne
  obtain ⟨kept, hkept, hkt, hkpc, hkget, hle⟩ := h d hold htarget hpc
  refine ⟨kept, ?_, hkt, hkpc, hget.trans hkget, hle⟩
  obtain ⟨j, hj⟩ := getElem?_of_mem hkept
  apply List.mem_of_getElem? (i := j)
  rw [getElem?_set_of_some hc]
  by_cases hij : action.1 = j
  · rw [if_pos hij]
    rw [← hij, hc, Option.some.injEq] at hj
    rcases hsame with rfl | ⟨hne, _⟩
    · rw [hj]
    · exact absurd (hj ▸ hkpc) hne
  · rw [if_neg hij, hj]

theorem KeepsLargest.insert (h : KeepsLargest target s) (hc : s.calls[action.1]? = some c)
    (htarget : c.target = target) (habove : ∀ held, s.shared.get? target = some held → held.seq < c.item.seq) :
    KeepsLargest target ⟨s.shared.insert c.target c.item, s.calls.set action.1 { c with pc := .done true }⟩ := by
  subst htarget
  have hnew : { c with pc := .done true } ∈ s.calls.set action.1 { c with pc := .done true } :=
    List.mem_set (List.getElem?_eq_some_iff.1 hc).1 _
  intro d hd hdt hdpc
  refine ⟨_, hnew, rfl, rfl, AssocMap.get?_insert_self _ _ _, ?_⟩
  rcases List.mem_or_eq_of_mem_set hd with hd | rfl
  · obtain ⟨kept, _, _, _, hget, hle⟩ := h d hd hdt hdpc
    exact Int64.le_of_lt (Int64.lt_of_le_of_lt hle (habove kept.item hget))
  · exact Int64.le_refl _

theorem keepsLargest_inserting (h : KeepsLargest target s) (hrel : Represents maxItems s t)
    (hc : s.calls[action.1]? = some c) {evicted : Bool} (hpc : c.pc = .insert evicted)
    (hstill : StillSo maxItems s c c.pc) :
    KeepsLargest target ⟨s.shared.insert c.target c.item, s.calls.set action.1 { c with pc := .done true }⟩ := by
  by_cases htarget : c.target = target
  · refine h.insert hc htarget ?_
    intro held hheld
    rw [← htarget] at hheld
    cases evicted with
    | false =>
      have hmem := (AssocMap.get?_eq_some_iff _ _ _).1 hheld
      rw [hpc] at hstill
      exact hstill.1 (c.target, held) (List.mem_append_left _ hmem) rfl
    | true =>
      rw [hrel.absent_of_pending hc hpc] at hheld
      cases hheld
  · exact h.frame hc (AssocMap.get?_insert_of_ne _ _ (Ne.symm htarget)) (.inr ⟨by simp [hpc], .inl htarget⟩)

theorem keepsLargest_step (h : KeepsLargest target s) (hrel : Represents maxItems s t)
    (hgood : Undisturbed maxItems s action) (hno : ¬ Evicts target s action) :
    KeepsLargest target (step maxItems s action) := by
  cases hc : s.calls[action.1]? with
  | none =>
    rw [Concurrent.step, step_none hc]
    exact h
  | some c =>
    have hstill := hgood c hc
    rw [Concurrent.step, step_some hc]
    cases hpc : c.pc with
    | get =>
      rw [Call.act, hpc]
      refine h.frame hc rfl (.inr ⟨by simp [hpc], .inr ?_⟩)
      by_cases hrefuses : refuses s.shared c.target c.item = true <;> simp [hrefuses]
    | containsKey =>
      rw [Call.act, hpc]
      refine h.frame hc rfl (.inr ⟨by simp [hpc], .inr ?_⟩)
      by_cases hheld : (s.shared.get? c.target).isSome = true <;> simp [hheld]
    | len =>
      rw [Call.act, hpc]
      refine h.frame hc rfl (.inr ⟨by simp [hpc], .inr ?_⟩)
      by_cases hfull : s.shared.len ≥ maxItems <;> simp [hfull]
    | iter =>
      rw [Call.act, hpc]
      refine h.frame hc rfl (.inr ⟨by simp [hpc], .inr ?_⟩)
      cases oldest action.2 s.shared <;> simp
    | remove key =>
      rw [Call.act, hpc]
      have hkey : target ≠ key := by
        rintro rfl
        exact hno (by rw [Evicts, hc, Option.map_some, hpc])
      exact h.frame hc (AssocMap.get?_remove_of_ne _ hkey) (.inr ⟨by simp [hpc], .inr (by simp)⟩)
    | insert evicted =>
      have hact : Call.act maxItems action.2 s.shared c =
          (s.shared.insert c.target c.item, { c with pc := .done true }) := by
        rw [Call.act, hpc]
      rw [hact]
      exact keepsLargest_inserting h hrel hc hpc hstill
    | done stored =>
      have hact : Call.act maxItems action.2 s.shared c = (s.shared, c) := by rw [Call.act, hpc]
      rw [hact]
      exact h.frame hc rfl (.inl rfl)

end KeepsLargest

/-- Runs whose writes act on checks that still hold are linearizable. -/
theorem linearizable_of_undisturbed (maxItems : ℕ) (offers : List Offer) (actions : List (ℕ × IterationOrder))
    (steps : EveryStep (step maxItems) (Undisturbed maxItems) (Concurrent.start offers) actions) :
    LinearizableRun maxItems offers actions := by
  obtain ⟨labels, t, hlin, hrel, hoffers⟩ := exists_linearization steps
  refine ⟨linearizable_of_linearized hlin hrel hoffers, ?_, ?_⟩
  · intro target hno
    have hboth := EveryStep.invariant (step maxItems)
      (fun s => (∃ t, Represents maxItems s t) ∧ KeepsLargest target s)
      (steps.and (step maxItems) hno) ⟨⟨_, represents_start maxItems offers⟩, ?_⟩ ?_
    · exact hboth.2
    · intro c hc _ hpc
      obtain ⟨offer, _, rfl⟩ := List.mem_map.1 hc
      cases hpc
    · rintro s action ⟨⟨t, hst⟩, hkeeps⟩ ⟨hgood, hev⟩
      exact ⟨exists_represents_step hst hgood, keepsLargest_step hkeeps hst hgood hev⟩
  · intro hmax
    have hlen := atomic_bounded hmax hlin.run
    rw [hrel.len, settled, List.length_append] at hlen
    exact (Nat.le_add_right _ _).trans hlen

/-- Two calls for different targets, with the checks of both before the writes of both. -/
theorem linearizable_two_targets :
    LinearizableRun 10 [(0x11, sampleItem 5), (0x22, sampleItem 3)]
      ([0, 1, 0, 1, 0, 1, 0, 1].map (fun i => (i, .asStored))) :=
  linearizable_of_undisturbed _ _ _ (by decide)

end Law

section LostUpdate

theorem Atomic.get {s s' : MutableItemStore} {offer : Offer} (h : Atomic s offer true s') :
    s'.get offer.1 = some offer.2 := by
  obtain ⟨order, hstore⟩ := h
  have hself := store_get_self order s offer.1 offer.2 (by rw [hstore])
  rwa [hstore] at hself

theorem Atomic.above {s s' : MutableItemStore} {offer : Offer} (h : Atomic s offer true s')
    {held : StoredMutableItem} (hheld : s.get offer.1 = some held) : held.seq < offer.2.seq := by
  obtain ⟨order, hstore⟩ := h
  by_contra hle
  have hfalse := (store_refused_iff order s offer.1 offer.2).2 ⟨held, hheld, Int64.not_lt.1 hle⟩
  rw [hstore] at hfalse
  cases hfalse

/-- Two calls for one target, sequence number 5 and then 3; both find it absent before either writes. -/
def raceOffers : List Offer := [(0x11, sampleItem 5), (0x11, sampleItem 3)]

def raceActions : List (ℕ × IterationOrder) := [0, 1, 0, 1, 0, 1, 0, 1].map (fun i => (i, .asStored))

theorem race_calls : (run 10 raceOffers raceActions).calls.map Call.pc = [.done true, .done true] := by
  decide

theorem race_kept : (run 10 raceOffers raceActions).shared.get? 0x11 = some (sampleItem 3) := by
  decide

/-- One at a time, either the later call is refused or the newer item is the one kept. -/
theorem race_not_linearizable : ¬ LinearizableRun 10 raceOffers raceActions := by
  intro law
  have hdone : ∀ c ∈ (run 10 raceOffers raceActions).calls, ∃ stored, c.pc = .done stored := by
    intro c hc
    have hmem : c.pc ∈ [Pc.done true, Pc.done true] := race_calls ▸ List.mem_map_of_mem hc
    exact ⟨true, by simpa using hmem⟩
  obtain ⟨labels, t, hrun, hperm, hanswers, hcontents⟩ := law.linearizable hdone
  have htrue : ∀ i stored, (i, stored) ∈ labels → stored = true := by
    intro i stored hmem
    have hpc := (hanswers i stored).1 hmem
    rw [← List.getElem?_map, race_calls] at hpc
    simpa using List.mem_of_getElem? hpc
  have hlen : labels.length = 2 := by
    rw [← List.length_map Prod.fst, hperm.length_eq]
    rfl
  obtain ⟨⟨i, first⟩, ⟨j, second⟩, rfl⟩ := List.length_eq_two.1 hlen
  obtain rfl := htrue i first (by simp)
  obtain rfl := htrue j second (by simp)
  obtain ⟨u, hfirst, offer, hoffer, hatomic⟩ :=
    Run.snoc_inv (show Run _ _ ([(i, true)] ++ [(j, true)]) t from hrun)
  obtain ⟨_, _, offer', hoffer', hatomic'⟩ := Run.snoc_inv (show Run _ _ ([] ++ [(i, true)]) u from hfirst)
  have hheld := hatomic'.get
  have hkept := hatomic.get
  have horder : (i = 0 ∧ j = 1) ∨ (i = 1 ∧ j = 0) := by
    have hi : i ∈ List.range 2 := hperm.mem_iff.1 (by simp)
    have hj : j ∈ List.range 2 := hperm.mem_iff.1 (by simp)
    have hne : i ≠ j := by simpa using hperm.nodup_iff.2 List.nodup_range
    rw [List.mem_range] at hi hj
    omega
  rcases horder with ⟨rfl, rfl⟩ | ⟨rfl, rfl⟩
  · cases hoffer
    cases hoffer'
    exact absurd (hatomic.above hheld) (by decide)
  · cases hoffer
    have hsame := hkept.symm.trans ((hcontents 0x11).trans race_kept)
    exact absurd hsame (by decide)

end LostUpdate
end MutableItemStore
end LibrtbitDht
