import LibrtbitDht.RoutingTable

set_option autoImplicit false

namespace LibrtbitDht
open TransitionRuns

structure Contact where
  id : Id20
  addr : SocketAddr
deriving DecidableEq, Repr

/-- The routing tables with the requests that are going to mark them. -/
structure Liveness where
  routingTableV4 : RoutingTable
  routingTableV6 : RoutingTable
  visits : List Contact
  queuedPings : List (Bool × Contact)
  pings : List (Bool × Contact)
deriving DecidableEq, Repr

namespace Liveness

def table (s : Liveness) (isV4 : Bool) : RoutingTable :=
  if isV4 then s.routingTableV4 else s.routingTableV6

def setTable (s : Liveness) (isV4 : Bool) (rt : RoutingTable) : Liveness :=
  if isV4 then { s with routingTableV4 := rt } else { s with routingTableV6 := rt }

def getTableForAddr (s : Liveness) (addr : SocketAddr) : RoutingTable := s.table addr.isIpv4

def onRequestStart (s : Liveness) (target : Id20) (addr : SocketAddr) (clock : ℕ → Instant)
    (now : Instant) : Except Fault Liveness := do
  let (res, rt) ← (s.getTableForAddr addr).addNode target addr clock
  match res with
  | .wasExisting | .replacedBad _ | .added =>
    let (_, rt) ← rt.markOutgoingRequest target now
    return s.setTable addr.isIpv4 rt
  | .ignored => return s.setTable addr.isIpv4 rt

def markResult (s : Liveness) (isV4 : Bool) (id : Id20) (ok : Bool) (now : Instant) :
    Except Fault Liveness :=
  if ok then do
    let (_, rt) ← (s.table isV4).markResponse id now
    return s.setTable isV4 rt
  else do
    let (_, rt) ← (s.table isV4).markError id
    return s.setTable isV4 rt

def onRequestEnd (s : Liveness) (target : Id20) (addr : SocketAddr) (ok : Bool) (now : Instant) :
    Except Fault Liveness := s.markResult addr.isIpv4 target ok now

/-- One tick of the pinger queues every entry about which too little is known. -/
def pingerTick (s : Liveness) (isV4 : Bool) (now : Instant) : Except Fault Liveness := do
  let nodes ← (s.table isV4).iter
  let found := nodes.filter (fun n => n.status now = .questionable ∨ n.status now = .unknown)
  return { s with queuedPings := s.queuedPings ++ found.map (fun n => (isV4, ⟨n.id, n.addr⟩)) }

def onPingStart (s : Liveness) (isV4 : Bool) (id : Id20) (now : Instant) : Except Fault Liveness := do
  let (_, rt) ← (s.table isV4).markOutgoingRequest id now
  return s.setTable isV4 rt

def onQuery (s : Liveness) (id : Id20) (addr : SocketAddr) (now : Instant) : Except Fault Liveness := do
  let (_, rt) ← (s.getTableForAddr addr).markLastQuery id now
  return s.setTable addr.isIpv4 rt

inductive Action where
  | requestStart (c : Contact) (clock : ℕ → Instant) (now : Instant)
  | requestEnd (c : Contact) (ok : Bool) (now : Instant)
  | pingerTick (isV4 : Bool) (now : Instant)
  | pingStart (isV4 : Bool) (c : Contact) (now : Instant)
  | pingEnd (isV4 : Bool) (c : Contact) (ok : Bool) (now : Instant)
  | query (c : Contact) (now : Instant)

def Enabled (s : Liveness) : Action → Prop
  | .requestEnd c _ _ => c ∈ s.visits
  | .pingStart isV4 c _ => (isV4, c) ∈ s.queuedPings
  | .pingEnd isV4 c _ _ => (isV4, c) ∈ s.pings
  | _ => True

def step (s : Liveness) : Action → Except Fault Liveness
  | .requestStart c clock now => do
    let s ← s.onRequestStart c.id c.addr clock now
    return { s with visits := c :: s.visits }
  | .requestEnd c ok now => do
    let s ← s.onRequestEnd c.id c.addr ok now
    return { s with visits := s.visits.erase c }
  | .pingerTick isV4 now => s.pingerTick isV4 now
  | .pingStart isV4 c now => do
    let s ← s.onPingStart isV4 c.id now
    return { s with queuedPings := s.queuedPings.erase (isV4, c), pings := (isV4, c) :: s.pings }
  | .pingEnd isV4 c ok now => do
    let s ← s.markResult isV4 c.id ok now
    return { s with pings := s.pings.erase (isV4, c) }
  | .query c now => s.onQuery c.id c.addr now

section Tables
variable (s : Liveness) (isV4 other : Bool) (rt : RoutingTable)

theorem table_setTable : (s.setTable isV4 rt).table other = if other = isV4 then rt else s.table other := by
  cases isV4 <;> cases other <;> rfl

@[simp] theorem setTable_visits : (s.setTable isV4 rt).visits = s.visits := by cases isV4 <;> rfl

@[simp] theorem setTable_queuedPings : (s.setTable isV4 rt).queuedPings = s.queuedPings := by
  cases isV4 <;> rfl

@[simp] theorem setTable_pings : (s.setTable isV4 rt).pings = s.pings := by cases isV4 <;> rfl

end Tables

/-- What the outcome of a request or an incoming query tells about a contact. -/
inductive Evidence where
  | failed
  | answered (now : Instant)
  | queried (now : Instant)

def Evidence.apply : Evidence → RoutingTableNode → RoutingTableNode
  | .failed => RoutingTableNode.markError
  | .answered now => RoutingTableNode.markResponse now
  | .queried now => RoutingTableNode.markLastQuery now

theorem Evidence.apply_id (e : Evidence) (x : RoutingTableNode) : (e.apply x).id = x.id := by
  cases e <;> rfl

theorem Evidence.apply_addr (e : Evidence) (x : RoutingTableNode) : (e.apply x).addr = x.addr := by
  cases e <;> rfl

def Evidence.ofResult (ok : Bool) (now : Instant) : Evidence := if ok then .answered now else .failed

/-- The contact that an action brings evidence about: the one a request was sent to, or the
sender of a query. -/
def Action.evidence : Action → Option (Contact × Evidence)
  | .requestEnd c ok now => some (c, .ofResult ok now)
  | .pingEnd _ c ok now => some (c, .ofResult ok now)
  | .query c now => some (c, .queried now)
  | _ => none

/-- Trees are well shaped, and every table and its pings keep to one family of addresses. -/
structure Inv (s : Liveness) : Prop where
  tree : ∀ isV4, (s.table isV4).Inv
  family : ∀ isV4, ∀ x ∈ (s.table isV4).stored, x.addr.isIpv4 = isV4
  queuedPings : ∀ p ∈ s.queuedPings, p.2.addr.isIpv4 = p.1
  pings : ∀ p ∈ s.pings, p.2.addr.isIpv4 = p.1

structure SameEvidence (x y : RoutingTableNode) : Prop where
  id : y.id = x.id
  addr : y.addr = x.addr
  errors : y.errorsInARow = x.errorsInARow
  response : y.lastResponse = x.lastResponse
  query : y.lastQuery = x.lastQuery

theorem SameEvidence.refl (x : RoutingTableNode) : SameEvidence x x := ⟨rfl, rfl, rfl, rfl, rfl⟩

theorem SameEvidence.trans {x y z : RoutingTableNode} (h : SameEvidence x y) (h' : SameEvidence y z) :
    SameEvidence x z :=
  ⟨h'.id.trans h.id, h'.addr.trans h.addr, h'.errors.trans h.errors, h'.response.trans h.response,
    h'.query.trans h.query⟩

structure NoEvidence (y : RoutingTableNode) : Prop where
  errors : y.errorsInARow = 0
  response : y.lastResponse = none
  query : y.lastQuery = none

theorem NoEvidence.congr {x y : RoutingTableNode} (h : NoEvidence x) (same : SameEvidence x y) :
    NoEvidence y :=
  ⟨same.errors.trans h.errors, same.response.trans h.response, same.query.trans h.query⟩

/-- Entries keep their evidence, new entries have none, and only bad ones disappear. -/
structure Quiet (s s' : Liveness) : Prop where
  after : ∀ v, ∀ y ∈ (s'.table v).stored, (∃ x ∈ (s.table v).stored, SameEvidence x y) ∨
    (NoEvidence y ∧ ∀ x ∈ (s.table v).stored, x.id ≠ y.id)
  before : ∀ v, ∀ x ∈ (s.table v).stored, (∃ y ∈ (s'.table v).stored, y.id = x.id) ∨
    ∃ now, x.isBad now = true

inductive StepCase (s : Liveness) (a : Action) (s' : Liveness) : Prop where
  | quiet (silent : a.evidence = none) (quiet : Quiet s s')
  | mark {c : Contact} {e : Evidence} (about : a.evidence = some (c, e))
      (marked : (s'.table c.addr.isIpv4).stored =
        BucketTree.rewriteId c.id e.apply (s.table c.addr.isIpv4).stored)
      (others : ∀ v, v ≠ c.addr.isIpv4 → (s'.table v).stored = (s.table v).stored)

section Steps
variable {s : Liveness}

theorem Inv.mark_cases (h : s.Inv) (v : Bool) (id : Id20) (refresh : Option Instant)
    (f : RoutingTableNode → RoutingTableNode) (hid : ∀ x, (f x).id = x.id)
    (haddr : ∀ x, (f x).addr = x.addr) :
    ∃ found rt', (s.table v).mark id refresh f = .ok (found, rt') ∧ (s.setTable v rt').Inv ∧
      ((s.setTable v rt').table v).stored = BucketTree.rewriteId id f (s.table v).stored ∧
      ∀ w, w ≠ v → (s.setTable v rt').table w = s.table w := by
  obtain ⟨found, rt', hrun, inv, _, _, _, _, hst, _⟩ := (h.tree v).mark_cases id refresh f hid
  refine ⟨found, rt', hrun, ⟨?_, ?_, ?_, ?_⟩, ?_, ?_⟩
  · intro w
    rw [table_setTable]
    split_ifs
    · exact inv
    · exact h.tree w
  · intro w y hy
    rw [table_setTable] at hy
    split_ifs at hy with hw
    · rw [hst, BucketTree.mem_rewriteId] at hy
      obtain ⟨x, hx, rfl⟩ := hy
      rw [hw, ← h.family v x hx]
      split_ifs
      · rw [haddr]
      · rfl
    · exact h.family w y hy
  · simpa using h.queuedPings
  · simpa using h.pings
  · rw [table_setTable, if_pos rfl, hst]
  · intro w hw
    rw [table_setTable, if_neg hw]

theorem sameEvidence_rewriteId (id : Id20) (now : Instant) (x : RoutingTableNode) :
    SameEvidence x (if x.id = id then RoutingTableNode.markOutgoingRequest now x else x) := by
  split_ifs
  · exact ⟨rfl, rfl, rfl, rfl, rfl⟩
  · exact ⟨rfl, rfl, rfl, rfl, rfl⟩

theorem Quiet.refl (s : Liveness) : Quiet s s where
  after _ y hy := .inl ⟨y, hy, .refl y⟩
  before _ x hx := .inl ⟨x, hx, rfl⟩

theorem Quiet.markOutgoing {t s' : Liveness} {v : Bool} {id : Id20} {now : Instant} (quiet : Quiet s t)
    (marked : (s'.table v).stored = BucketTree.rewriteId id (RoutingTableNode.markOutgoingRequest now)
      (t.table v).stored)
    (others : ∀ w, w ≠ v → (s'.table w).stored = (t.table w).stored) : Quiet s s' := by
  have hback : ∀ w, ∀ z ∈ (s'.table w).stored, ∃ y ∈ (t.table w).stored, SameEvidence y z := by
    intro w z hz
    by_cases hw : w = v
    · subst hw
      rw [marked, BucketTree.mem_rewriteId] at hz
      obtain ⟨y, hy, rfl⟩ := hz
      exact ⟨y, hy, sameEvidence_rewriteId id now y⟩
    · rw [others w hw] at hz
      exact ⟨z, hz, .refl z⟩
  have hforth : ∀ w, ∀ y ∈ (t.table w).stored, ∃ z ∈ (s'.table w).stored, z.id = y.id := by
    intro w y hy
    by_cases hw : w = v
    · subst hw
      refine ⟨_, ?_, (sameEvidence_rewriteId id now y).id⟩
      rw [marked, BucketTree.mem_rewriteId]
      exact ⟨y, hy, rfl⟩
    · exact ⟨y, by rw [others w hw]; exact hy, rfl⟩
  constructor
  · intro w z hz
    obtain ⟨y, hy, hyz⟩ := hback w z hz
    rcases quiet.after w y hy with ⟨x, hx, hxy⟩ | ⟨hnone, hnew⟩
    · exact .inl ⟨x, hx, hxy.trans hyz⟩
    · refine .inr ⟨hnone.congr hyz, fun x hx => ?_⟩
      rw [hyz.id]
      exact hnew x hx
  · intro w x hx
    rcases quiet.before w x hx with ⟨y, hy, hyid⟩ | hbad
    · obtain ⟨z, hz, hzid⟩ := hforth w y hy
      exact .inl ⟨z, hz, hzid.trans hyid⟩
    · exact .inr hbad

theorem Quiet.insert {v : Bool} {rt : RoutingTable} {id : Id20} {addr : SocketAddr} {now : Instant}
    {res : InsertResult} (case : (s.table v).buckets.InsertCase id addr now res rt.buckets) :
    Quiet s (s.setTable v rt) where
  after w y hy := by
    rw [table_setTable] at hy
    split_ifs at hy with hw
    · subst hw
      rcases case.mem_after hy with hx | ⟨rfl, hnew⟩
      · exact .inl ⟨y, hx, .refl y⟩
      · exact .inr ⟨⟨rfl, rfl, rfl⟩, hnew⟩
    · exact .inl ⟨y, hy, .refl y⟩
  before w x hx := by
    rw [table_setTable]
    split_ifs with hw
    · subst hw
      rcases case.mem_before hx with hy | hbad
      · exact .inl ⟨x, hy, rfl⟩
      · exact .inr ⟨_, hbad⟩
    · exact .inl ⟨x, hx, rfl⟩

theorem Inv.markResult_cases (h : s.Inv) (c : Contact) (ok : Bool) (now : Instant) :
    ∃ s', s.markResult c.addr.isIpv4 c.id ok now = .ok s' ∧ s'.Inv ∧
      (s'.table c.addr.isIpv4).stored = BucketTree.rewriteId c.id (Evidence.ofResult ok now).apply
        (s.table c.addr.isIpv4).stored ∧
      ∀ v, v ≠ c.addr.isIpv4 → (s'.table v).stored = (s.table v).stored := by
  cases ok with
  | true =>
    obtain ⟨found, rt', hrun, inv, hst, hother⟩ := h.mark_cases c.addr.isIpv4 c.id (some now)
      (RoutingTableNode.markResponse now) (fun _ => rfl) (fun _ => rfl)
    refine ⟨_, ?_, inv, hst, fun v hv => by rw [hother v hv]⟩
    simp only [markResult, if_true, RoutingTable.markResponse, hrun, ok_bind, pure_eq_ok]
  | false =>
    obtain ⟨found, rt', hrun, inv, hst, hother⟩ := h.mark_cases c.addr.isIpv4 c.id none
      RoutingTableNode.markError (fun _ => rfl) (fun _ => rfl)
    refine ⟨_, ?_, inv, hst, fun v hv => by rw [hother v hv]⟩
    simp only [markResult, Bool.false_eq_true, if_false, RoutingTable.markError, hrun, ok_bind, pure_eq_ok]

theorem Inv.onPingStart_cases (h : s.Inv) (v : Bool) (id : Id20) (now : Instant) :
    ∃ s', s.onPingStart v id now = .ok s' ∧ s'.Inv ∧ Quiet s s' := by
  obtain ⟨found, rt', hrun, inv, hst, hother⟩ := h.mark_cases v id none
    (RoutingTableNode.markOutgoingRequest now) (fun _ => rfl) (fun _ => rfl)
  refine ⟨_, ?_, inv, (Quiet.refl s).markOutgoing hst fun w hw => by rw [hother w hw]⟩
  simp only [onPingStart, RoutingTable.markOutgoingRequest, hrun, ok_bind, pure_eq_ok]

theorem Inv.onQuery_cases (h : s.Inv) (c : Contact) (now : Instant) :
    ∃ s', s.onQuery c.id c.addr now = .ok s' ∧ s'.Inv ∧
      (s'.table c.addr.isIpv4).stored = BucketTree.rewriteId c.id (Evidence.queried now).apply
        (s.table c.addr.isIpv4).stored ∧
      ∀ v, v ≠ c.addr.isIpv4 → (s'.table v).stored = (s.table v).stored := by
  obtain ⟨found, rt', hrun, inv, hst, hother⟩ := h.mark_cases c.addr.isIpv4 c.id none
    (RoutingTableNode.markLastQuery now) (fun _ => rfl) (fun _ => rfl)
  refine ⟨_, ?_, inv, hst, fun v hv => by rw [hother v hv]⟩
  simp only [onQuery, getTableForAddr, RoutingTable.markLastQuery, hrun, ok_bind, pure_eq_ok]

/-- The tick queues entries of one table, so the pings it asks for are of one family. -/
theorem Inv.pingerTick_cases (h : s.Inv) (v : Bool) (now : Instant) :
    ∃ s', s.pingerTick v now = .ok s' ∧ s'.Inv ∧ Quiet s s' := by
  obtain ⟨nodes, hrun, hperm, _⟩ := (h.tree v).iter_spec
  have hiter : (s.table v).iter = .ok nodes := hrun
  simp only [pingerTick, hiter, ok_bind, pure_eq_ok]
  refine ⟨_, rfl, ⟨h.tree, h.family, ?_, h.pings⟩, (Quiet.refl s).after, (Quiet.refl s).before⟩
  intro p hp
  rcases List.mem_append.1 hp with hp | hp
  · exact h.queuedPings p hp
  · obtain ⟨n, hn, rfl⟩ := List.mem_map.1 hp
    exact h.family v n (hperm.mem_iff.1 (List.mem_of_mem_filter hn))

theorem Inv.insert (h : s.Inv) {c : Contact} {rt : RoutingTable} (inv : rt.Inv) {res : InsertResult}
    {now : Instant}
    (case : (s.table c.addr.isIpv4).buckets.InsertCase c.id c.addr now res rt.buckets) :
    (s.setTable c.addr.isIpv4 rt).Inv where
  tree v := by
    rw [table_setTable]
    split_ifs
    · exact inv
    · exact h.tree v
  family v y hy := by
    rw [table_setTable] at hy
    split_ifs at hy with hv
    · rcases case.mem_after hy with hx | ⟨rfl, _⟩
      · exact hv ▸ h.family _ y hx
      · exact hv.symm
    · exact h.family v y hy
  queuedPings := by simpa using h.queuedPings
  pings := by simpa using h.pings

theorem Inv.onRequestStart_cases (h : s.Inv) (c : Contact) (clock : ℕ → Instant) (now : Instant) :
    ∃ s', s.onRequestStart c.id c.addr clock now = .ok s' ∧ s'.Inv ∧ Quiet s s' := by
  obtain ⟨res, rt, hadd, inv, _, _, hcase, _⟩ :=
    (h.tree c.addr.isIpv4).addNode_cases c.id c.addr clock
  have hs : (s.setTable c.addr.isIpv4 rt).Inv := h.insert inv hcase
  have hquiet : Quiet s (s.setTable c.addr.isIpv4 rt) := .insert hcase
  have houtgoing : ∃ s', (do
        let (_, rt) ← rt.markOutgoingRequest c.id now
        return s.setTable c.addr.isIpv4 rt : Except Fault Liveness) = .ok s' ∧ s'.Inv ∧ Quiet s s' := by
    obtain ⟨found, rt', hrun, inv', hst, hother⟩ := hs.mark_cases c.addr.isIpv4 c.id none
      (RoutingTableNode.markOutgoingRequest now) (fun _ => rfl) (fun _ => rfl)
    have htwice : (s.setTable c.addr.isIpv4 rt).setTable c.addr.isIpv4 rt' =
        s.setTable c.addr.isIpv4 rt' := by
      cases c.addr.isIpv4 <;> rfl
    rw [htwice] at inv' hst hother
    rw [table_setTable, if_pos rfl] at hrun
    refine ⟨_, ?_, inv', hquiet.markOutgoing hst fun v hv => by rw [hother v hv]⟩
    simp only [RoutingTable.markOutgoingRequest, hrun, ok_bind, pure_eq_ok]
  simp only [onRequestStart, getTableForAddr, hadd, ok_bind]
  cases res with
  | wasExisting => exact houtgoing
  | replacedBad old => exact houtgoing
  | added => exact houtgoing
  | ignored => exact ⟨_, rfl, hs, hquiet⟩

/-- The invariant says nothing about pending visits, and only pings of one family may be added. -/
theorem Inv.withRequests (h : s.Inv) (visits : List Contact) (queuedPings pings : List (Bool × Contact))
    (hqueued : ∀ p ∈ queuedPings, p.2.addr.isIpv4 = p.1) (hpings : ∀ p ∈ pings, p.2.addr.isIpv4 = p.1) :
    Inv { s with visits, queuedPings, pings } :=
  ⟨h.tree, h.family, hqueued, hpings⟩

theorem Inv.step_cases (h : s.Inv) {a : Action} (enabled : s.Enabled a) :
    ∃ s', s.step a = .ok s' ∧ s'.Inv ∧ StepCase s a s' := by
  cases a with
  | requestStart c clock now =>
    obtain ⟨s', hrun, inv, quiet⟩ := h.onRequestStart_cases c clock now
    refine ⟨{ s' with visits := c :: s'.visits }, by rw [step, hrun]; rfl,
      inv.withRequests _ _ _ inv.queuedPings inv.pings, .quiet rfl ⟨quiet.after, quiet.before⟩⟩
  | requestEnd c ok now =>
    obtain ⟨s', hrun, inv, marked, others⟩ := h.markResult_cases c ok now
    refine ⟨{ s' with visits := s'.visits.erase c }, by rw [step, onRequestEnd, hrun]; rfl,
      inv.withRequests _ _ _ inv.queuedPings inv.pings, .mark rfl marked others⟩
  | pingerTick v now =>
    obtain ⟨s', hrun, inv, quiet⟩ := h.pingerTick_cases v now
    exact ⟨s', hrun, inv, .quiet rfl quiet⟩
  | pingStart v c now =>
    obtain ⟨s', hrun, inv, quiet⟩ := h.onPingStart_cases v c.id now
    refine ⟨{ s' with queuedPings := s'.queuedPings.erase (v, c), pings := (v, c) :: s'.pings },
      by rw [step, hrun]; rfl, inv.withRequests _ _ _ ?_ ?_, .quiet rfl ⟨quiet.after, quiet.before⟩⟩
    · exact fun p hp => inv.queuedPings p (List.mem_of_mem_erase hp)
    · intro p hp
      rcases List.mem_cons.1 hp with rfl | hp
      · exact h.queuedPings _ enabled
      · exact inv.pings p hp
  | pingEnd v c ok now =>
    have hv : c.addr.isIpv4 = v := h.pings _ enabled
    subst hv
    obtain ⟨s', hrun, inv, marked, others⟩ := h.markResult_cases c ok now
    refine ⟨{ s' with pings := s'.pings.erase (c.addr.isIpv4, c) }, by rw [step, hrun]; rfl,
      inv.withRequests _ _ _ inv.queuedPings ?_, .mark rfl marked others⟩
    exact fun p hp => inv.pings p (List.mem_of_mem_erase hp)
  | query c now =>
    obtain ⟨s', hrun, inv, marked, others⟩ := h.onQuery_cases c now
    exact ⟨s', hrun, inv, .mark rfl marked others⟩

theorem Inv.graph_cases (h : s.Inv) {a : Action} {s' : Liveness} (enabled : s.Enabled a)
    (hs : Graph step s a s') : s'.Inv ∧ StepCase s a s' := by
  obtain ⟨s'', hrun, inv, case⟩ := h.step_cases enabled
  cases Except.ok.inj (hs.symm.trans hrun)
  exact ⟨inv, case⟩

end Steps
end Liveness
end LibrtbitDht
