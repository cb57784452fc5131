import LibrtbitDht.Liveness

set_option autoImplicit false

namespace LibrtbitDht
open TransitionRuns
namespace Liveness

def Action.failed (a : Action) : Option Contact :=
  match a.evidence with
  | some (c, .failed) => some c
  | _ => none

def Action.answered (a : Action) : Option Contact :=
  match a.evidence with
  | some (c, .answered _) => some c
  | _ => none

def Action.receivedFrom (a : Action) : Option SocketAddr :=
  match a.evidence with
  | some (c, .answered _) => some c.addr
  | some (c, .queried _) => some c.addr
  | _ => none

/-- Two requests to the contact failed, and none was answered since the first of them. -/
def TwoFailures (c : Contact) (history : List Action) : Prop :=
  ∃ before a between b after, history = before ++ a :: between ++ b :: after ∧
    a.failed = some c ∧ b.failed = some c ∧ ∀ d ∈ between ++ after, d.answered ≠ some c

/-- The evidence that a step adds to the entries, or acts on, is about their own addresses. -/
structure Attributed (history : List Action) (s : Liveness) (a : Action) (s' : Liveness) : Prop where
  addr : ∀ v, ∀ x ∈ (s.table v).stored, ∀ y ∈ (s'.table v).stored, y.id = x.id → y.addr = x.addr
  errors : ∀ v, ∀ x ∈ (s.table v).stored, ∀ y ∈ (s'.table v).stored, y.id = x.id →
    x.errorsInARow < y.errorsInARow → ∃ c, a.failed = some c ∧ c.addr = x.addr
  response : ∀ v, ∀ x ∈ (s.table v).stored, ∀ y ∈ (s'.table v).stored, y.id = x.id →
    y.lastResponse ≠ x.lastResponse → a.receivedFrom = some x.addr
  query : ∀ v, ∀ x ∈ (s.table v).stored, ∀ y ∈ (s'.table v).stored, y.id = x.id →
    y.lastQuery ≠ x.lastQuery → a.receivedFrom = some x.addr
  new : ∀ v, ∀ y ∈ (s'.table v).stored, (∀ x ∈ (s.table v).stored, x.id ≠ y.id) → NoEvidence y
  bad : ∀ v, ∀ y ∈ (s'.table v).stored, ∀ now, y.isBad now = true →
    TwoFailures ⟨y.id, y.addr⟩ (history ++ [a])
  displaced : ∀ v, ∀ x ∈ (s.table v).stored, (∀ y ∈ (s'.table v).stored, y.id ≠ x.id) →
    TwoFailures ⟨x.id, x.addr⟩ history

/-- A node starts with tables that are new or were restored from a file: no entry has evidence. -/
structure Starts (s : Liveness) : Prop where
  inv : s.Inv
  noEvidence : ∀ v, ∀ x ∈ (s.table v).stored, NoEvidence x

/-- The evidence that arrives finds the identifier under the address it is about, or not at all. -/
def Matching (s : Liveness) (a : Action) : Prop :=
  match a.evidence with
  | some (c, _) => ∀ x ∈ (s.table c.addr.isIpv4).stored, x.id = c.id → x.addr = c.addr
  | none => True

def failuresInARow (c : Contact) (history : List Action) : ℕ :=
  streak (fun a => a.failed = some c) (fun a => a.answered = some c) history

def Backed (history : List Action) (s : Liveness) : Prop :=
  ∀ v, ∀ x ∈ (s.table v).stored, x.errorsInARow ≤ failuresInARow ⟨x.id, x.addr⟩ history

section Evidence
variable {s s' : Liveness} {a : Action} {c : Contact} {e : Evidence} {history : List Action}

theorem matching_iff (about : a.evidence = some (c, e)) :
    s.Matching a ↔ ∀ x ∈ (s.table c.addr.isIpv4).stored, x.id = c.id → x.addr = c.addr := by
  unfold Matching
  rw [about]

theorem failuresInARow_silent (silent : a.evidence = none) (c : Contact) :
    failuresInARow c (history ++ [a]) = failuresInARow c history := by
  unfold failuresInARow
  rw [streak_snoc]
  simp [Action.failed, Action.answered, silent]

theorem failuresInARow_about (about : a.evidence = some (c, e)) :
    failuresInARow c (history ++ [a]) =
      match e with
      | .failed => failuresInARow c history + 1
      | .answered _ => 0
      | .queried _ => failuresInARow c history := by
  unfold failuresInARow
  rw [streak_snoc]
  cases e <;> simp [Action.failed, Action.answered, about]

theorem failuresInARow_other (about : a.evidence = some (c, e)) {d : Contact} (hd : d ≠ c) :
    failuresInARow d (history ++ [a]) = failuresInARow d history := by
  unfold failuresInARow
  rw [streak_snoc]
  cases e <;> simp [Action.failed, Action.answered, about, hd.symm]

theorem twoFailures_of_count {c : Contact} (h : 2 ≤ failuresInARow c history) : TwoFailures c history := by
  obtain ⟨before, i, between, j, after, hsplit, hi, hj, hquiet⟩ := two_le_streak _ _ h
  refine ⟨before, i, between, j, after, hsplit, by simpa using hi, by simpa using hj, ?_⟩
  intro d hd
  simpa using hquiet d hd

theorem Backed.twoFailures (h : Backed history s) {v : Bool} {x : RoutingTableNode}
    (hx : x ∈ (s.table v).stored) {now : Instant} (hbad : x.isBad now = true) :
    TwoFailures ⟨x.id, x.addr⟩ history := by
  have htwo := ((x.isBad_iff now).1 hbad).2
  exact twoFailures_of_count (htwo.trans (h v x hx))

theorem Inv.contact_ne (h : s.Inv) {v : Bool} {x : RoutingTableNode} (hx : x ∈ (s.table v).stored)
    (hne : v ≠ c.addr.isIpv4 ∨ x.id ≠ c.id) : (⟨x.id, x.addr⟩ : Contact) ≠ c := by
  rintro rfl
  rcases hne with hv | hid
  · exact hv (h.family v x hx).symm
  · exact hid rfl

theorem Inv.backed_step (h : s.Inv) (backed : Backed history s) (matching : s.Matching a)
    (case : StepCase s a s') : Backed (history ++ [a]) s' := by
  intro v y hy
  cases case with
  | quiet silent quiet =>
    rw [failuresInARow_silent silent]
    rcases quiet.after v y hy with ⟨x, hx, same⟩ | ⟨hnone, _⟩
    · rw [same.errors, same.id, same.addr]
      exact backed v x hx
    · rw [hnone.errors]
      exact Nat.zero_le _
  | @mark c e about marked others =>
    by_cases hv : v = c.addr.isIpv4
    · subst hv
      rw [marked, BucketTree.mem_rewriteId] at hy
      obtain ⟨x, hx, rfl⟩ := hy
      by_cases hid : x.id = c.id
      · have haddr : x.addr = c.addr := (matching_iff about).1 matching x hx hid
        have hcount := backed _ x hx
        have hc : (⟨x.id, x.addr⟩ : Contact) = c := by rw [hid, haddr]
        rw [if_pos hid, e.apply_id, e.apply_addr, hc, failuresInARow_about about]
        rw [hc] at hcount
        cases e with
        | failed => exact Nat.add_le_add_right hcount 1
        | answered now => exact Nat.zero_le _
        | queried now => exact hcount
      · rw [if_neg hid, failuresInARow_other about (h.contact_ne hx (.inr hid))]
        exact backed _ x hx
    · rw [others v hv] at hy
      rw [failuresInARow_other about (h.contact_ne hy (.inl hv))]
      exact backed v y hy

theorem Inv.evolves (h : s.Inv) (case : StepCase s a s') {v : Bool} {x y : RoutingTableNode}
    (hx : x ∈ (s.table v).stored) (hy : y ∈ (s'.table v).stored) (hid : y.id = x.id) :
    SameEvidence x y ∨
      ∃ c e, a.evidence = some (c, e) ∧ v = c.addr.isIpv4 ∧ x.id = c.id ∧ y = e.apply x := by
  cases case with
  | quiet silent quiet =>
    rcases quiet.after v y hy with ⟨z, hz, same⟩ | ⟨_, hnew⟩
    · obtain rfl := (h.tree v).stored_unique hx hz (hid.symm.trans same.id)
      exact .inl same
    · exact absurd hid.symm (hnew x hx)
  | @mark c e about marked others =>
    by_cases hv : v = c.addr.isIpv4
    · subst hv
      rw [marked, BucketTree.mem_rewriteId] at hy
      obtain ⟨z, hz, rfl⟩ := hy
      have hzid : (if z.id = c.id then e.apply z else z).id = z.id := by
        split_ifs
        · exact e.apply_id z
        · rfl
      obtain rfl := (h.tree _).stored_unique hx hz (hid.symm.trans hzid)
      by_cases hc : x.id = c.id
      · rw [if_pos hc]
        exact .inr ⟨c, e, about, rfl, hc, rfl⟩
      · rw [if_neg hc]
        exact .inl (.refl x)
    · rw [others v hv] at hy
      obtain rfl := (h.tree v).stored_unique hx hy hid.symm
      exact .inl (.refl x)

theorem StepCase.keeps (case : StepCase s a s') {v : Bool} {x : RoutingTableNode}
    (hx : x ∈ (s.table v).stored) :
    (∃ y ∈ (s'.table v).stored, y.id = x.id) ∨ ∃ now, x.isBad now = true := by
  cases case with
  | quiet silent quiet => exact quiet.before v x hx
  | @mark c e about marked others =>
    left
    by_cases hv : v = c.addr.isIpv4
    · subst hv
      rw [marked]
      have hids : (BucketTree.rewriteId c.id e.apply (s.table c.addr.isIpv4).stored).map
          RoutingTableNode.id = (s.table c.addr.isIpv4).stored.map RoutingTableNode.id :=
        BucketTree.rewriteId_ids (fun x => e.apply_id x) _
      have hm : x.id ∈ (BucketTree.rewriteId c.id e.apply (s.table c.addr.isIpv4).stored).map
          RoutingTableNode.id := by
        rw [hids]
        exact List.mem_map_of_mem hx
      simpa using hm
    · rw [others v hv]
      exact ⟨x, hx, rfl⟩

theorem StepCase.new (case : StepCase s a s') {v : Bool} {y : RoutingTableNode}
    (hy : y ∈ (s'.table v).stored) (hnew : ∀ x ∈ (s.table v).stored, x.id ≠ y.id) : NoEvidence y := by
  cases case with
  | quiet silent quiet =>
    rcases quiet.after v y hy with ⟨x, hx, same⟩ | ⟨hnone, _⟩
    · exact absurd same.id.symm (hnew x hx)
    · exact hnone
  | @mark c e about marked others =>
    by_cases hv : v = c.addr.isIpv4
    · subst hv
      rw [marked, BucketTree.mem_rewriteId] at hy
      obtain ⟨x, hx, rfl⟩ := hy
      refine absurd ?_ (hnew x hx)
      split_ifs
      · exact (e.apply_id x).symm
      · rfl
    · rw [others v hv] at hy
      exact absurd rfl (hnew y hy)

theorem Inv.attributed_step (h : s.Inv) (backed : Backed history s) (matching : s.Matching a)
    (case : StepCase s a s') : Attributed history s a s' := by
  have hbacked := h.backed_step backed matching case
  have hmatch : ∀ {c e v x}, a.evidence = some (c, e) → v = c.addr.isIpv4 → x ∈ (s.table v).stored →
      x.id = c.id → x.addr = c.addr := by
    intro c e v x about hv hx hid
    subst hv
    exact (matching_iff about).1 matching x hx hid
  refine ⟨?_, ?_, ?_, ?_, fun v y => case.new, fun v y hy now => hbacked.twoFailures hy, ?_⟩
  · intro v x hx y hy hid
    rcases h.evolves case hx hy hid with same | ⟨c, e, _, _, _, rfl⟩
    · exact same.addr
    · exact e.apply_addr x
  · intro v x hx y hy hid hlt
    rcases h.evolves case hx hy hid with same | ⟨c, e, about, hv, hc, rfl⟩
    · exact absurd hlt (by rw [same.errors]; exact lt_irrefl _)
    · refine ⟨c, ?_, (hmatch about hv hx hc).symm⟩
      cases e with
      | failed => simp only [Action.failed, about]
      | answered now => exact absurd hlt (Nat.not_lt_zero _)
      | queried now => exact absurd hlt (lt_irrefl _)
  · intro v x hx y hy hid hne
    rcases h.evolves case hx hy hid with same | ⟨c, e, about, hv, hc, rfl⟩
    · exact absurd same.response hne
    · rw [hmatch about hv hx hc]
      cases e with
      | failed => exact absurd rfl hne
      | answered now => simp only [Action.receivedFrom, about]
      | queried now => exact absurd rfl hne
  · intro v x hx y hy hid hne
    rcases h.evolves case hx hy hid with same | ⟨c, e, about, hv, hc, rfl⟩
    · exact absurd same.query hne
    · rw [hmatch about hv hx hc]
      cases e with
      | failed => exact absurd rfl hne
      | answered now => exact absurd rfl hne
      | queried now => simp only [Action.receivedFrom, about]
  · intro v x hx hgone
    rcases case.keeps hx with ⟨y, hy, hid⟩ | ⟨now, hbad⟩
    · exact absurd hid (hgone y hy)
    · exact backed.twoFailures hx hbad

end Evidence

section Runs

def new (id : Id20) (maxSize : Option ℕ) (clock : Instant) : Liveness where
  routingTableV4 := RoutingTable.new id maxSize clock
  routingTableV6 := RoutingTable.new id maxSize clock
  visits := []
  queuedPings := []
  pings := []

theorem new_starts (id : Id20) (maxSize : Option ℕ) (clock : Instant) : (new id maxSize clock).Starts := by
  have htable : ∀ v, (new id maxSize clock).table v = RoutingTable.new id maxSize clock := by
    intro v
    cases v <;> rfl
  have hempty : ∀ v, ((new id maxSize clock).table v).stored = [] := by
    intro v
    rw [htable]
    rfl
  refine ⟨⟨fun v => ?_, fun v x hx => ?_, by simp [new], by simp [new]⟩, fun v x hx => ?_⟩
  · rw [htable]
    exact RoutingTable.new_inv id maxSize clock
  · simp [hempty] at hx
  · simp [hempty] at hx

instance (s : Liveness) (a : Action) : Decidable (s.Enabled a) :=
  match a with
  | .requestStart _ _ _ => .isTrue trivial
  | .requestEnd c _ _ => inferInstanceAs (Decidable (c ∈ s.visits))
  | .pingerTick _ _ => .isTrue trivial
  | .pingStart isV4 c _ => inferInstanceAs (Decidable ((isV4, c) ∈ s.queuedPings))
  | .pingEnd isV4 c _ _ => inferInstanceAs (Decidable ((isV4, c) ∈ s.pings))
  | .query _ _ => .isTrue trivial

instance (s : Liveness) (a : Action) : Decidable (s.Matching a) :=
  match h : a.evidence with
  | some (c, _) => decidable_of_iff
      (∀ x ∈ (s.table c.addr.isIpv4).stored, x.id = c.id → x.addr = c.addr) (matching_iff h).symm
  | none => .isTrue (by unfold Matching; rw [h]; trivial)

abbrev MatchingRun (s₀ : Liveness) (history : List Action) (s : Liveness) : Prop :=
  Guarded (fun s a => s.Enabled a ∧ s.Matching a) (Graph step) s₀ history s

theorem backed_of_run {s₀ s : Liveness} {history : List Action} (start : s₀.Starts)
    (run : MatchingRun s₀ history s) : s.Inv ∧ Backed history s := by
  refine Run.history (fun history s => s.Inv ∧ Backed history s) run ⟨start.inv, ?_⟩ ?_
  · intro v x hx
    rw [(start.noEvidence v x hx).errors]
    exact Nat.zero_le _
  · rintro history s s' a _ ⟨inv, backed⟩ ⟨⟨enabled, matching⟩, hs⟩
    obtain ⟨inv', case⟩ := inv.graph_cases enabled hs
    exact ⟨inv', inv.backed_step backed matching case⟩

/-- In a run of matching steps every step attributes evidence to the right contact. -/
theorem history_attributed {s₀ s s' : Liveness} {history : List Action} {a : Action}
    (start : s₀.Starts) (run : MatchingRun s₀ history s) (enabled : s.Enabled a)
    (matching : s.Matching a) (last : Graph step s a s') : Attributed history s a s' := by
  obtain ⟨inv, backed⟩ := backed_of_run start run
  obtain ⟨_, case⟩ := inv.graph_cases enabled last
  exact inv.attributed_step backed matching case

def healthy : Contact := ⟨1, .v4 ⟨1, 6881⟩⟩

def silence : List Action :=
  [.requestStart healthy (fun _ => 0) 0, .requestEnd healthy false 1, .requestStart healthy (fun _ => 2) 2]

theorem silence_attributed :
    ∃ s s', MatchingRun (new 0 none 0) silence s ∧ Graph step s (.requestEnd healthy false 3) s' ∧
      Attributed silence s (.requestEnd healthy false 3) s' := by
  have heval : (evalGuarded step (fun s a => s.Enabled a ∧ s.Matching a) (new 0 none 0) silence).any
      (fun s => decide (s.Enabled (.requestEnd healthy false 3) ∧ s.Matching (.requestEnd healthy false 3)) &&
        (s.step (.requestEnd healthy false 3)).toOption.any (fun _ => true)) = true := by
    decide
  obtain ⟨s, run, hs⟩ := exists_guarded_of_eval step _ heval
  rw [Bool.and_eq_true, decide_eq_true_iff] at hs
  obtain ⟨s', last, _⟩ := exists_graph_of_eval step hs.2
  exact ⟨s, s', run, last, history_attributed (new_starts 0 none 0) run hs.1.1 hs.1.2 last⟩

def gossiped : Contact := ⟨1, .v4 ⟨2, 6881⟩⟩

/-- A healthy node answers; then two lookups are told that it lives elsewhere. -/
def gossip : List Action :=
  [.requestStart healthy (fun _ => 0) 0, .requestEnd healthy true 1,
    .requestStart gossiped (fun _ => 2) 2, .requestEnd gossiped false 3,
    .requestStart gossiped (fun _ => 4) 4, .requestEnd gossiped false 5]

def displacing : Action := .requestStart ⟨2, .v4 ⟨3, 6881⟩⟩ (fun _ => 6) 6

theorem gossip_displaces_healthy :
    ∃ s s', Guarded Enabled (Graph step) (new 0 none 0) gossip s ∧ Graph step s displacing s' ∧
      (∃ x ∈ s.routingTableV4.stored, x.id = healthy.id ∧ x.addr = healthy.addr) ∧
      (∀ y ∈ s'.routingTableV4.stored, y.id ≠ healthy.id) ∧ ¬ Attributed gossip s displacing s' := by
  have heval : (evalGuarded step Enabled (new 0 none 0) gossip).any (fun s =>
      decide (∃ x ∈ s.routingTableV4.stored, x.id = healthy.id ∧ x.addr = healthy.addr) &&
      (s.step displacing).toOption.any
        (fun s' => decide (∀ y ∈ s'.routingTableV4.stored, y.id ≠ healthy.id))) = true := by
    decide
  obtain ⟨s, run, hs⟩ := exists_guarded_of_eval step Enabled heval
  rw [Bool.and_eq_true, decide_eq_true_iff] at hs
  obtain ⟨s', last, hs'⟩ := exists_graph_of_eval step hs.2
  have hgone := of_decide_eq_true hs'
  refine ⟨s, s', run, last, hs.1, hgone, fun h => ?_⟩
  -- no request to the healthy contact has failed
  obtain ⟨x, hx, hid, haddr⟩ := hs.1
  obtain ⟨before, a, between, b, after, hsplit, ha, _⟩ := h.displaced true x hx fun y hy => hid ▸ hgone y hy
  have hnone : ∀ a ∈ gossip, a.failed ≠ some healthy := by decide
  have hmem : a ∈ gossip := by
    rw [hsplit]
    simp
  refine hnone a hmem (ha.trans ?_)
  rw [hid, haddr]

end Runs
end Liveness
end LibrtbitDht
