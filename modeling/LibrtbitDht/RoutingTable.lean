import LibrtbitDht.BucketTreeMarks
import LibrtbitDht.TransitionRuns

set_option autoImplicit false

namespace LibrtbitDht
open TransitionRuns

def InsertResult.replaced : InsertResult → Bool
  | .wasExisting => false
  | .replacedBad _ => true
  | .added => true
  | .ignored => false

structure RoutingTable where
  id : Id20
  size : ℕ
  buckets : BucketTree
deriving DecidableEq, Repr

namespace RoutingTable

def defaultMaxSize : ℕ := 512

def new (id : Id20) (maxSize : Option ℕ) (clock : Instant) : RoutingTable where
  id
  size := 0
  buckets := BucketTree.new (maxSize.getD defaultMaxSize) clock

def len (rt : RoutingTable) : ℕ := rt.size

def iterBuckets (rt : RoutingTable) : Except Fault (List BucketTreeIteratorItem) := rt.buckets.iterLeaves

def iter (rt : RoutingTable) : Except Fault (List RoutingTableNode) := rt.buckets.iter

def addNode (rt : RoutingTable) (id : Id20) (addr : SocketAddr) (clock : ℕ → Instant) :
    Except Fault (InsertResult × RoutingTable) := do
  let (res, buckets) ← rt.buckets.addNode rt.id id addr clock
  let size := if res.replaced then rt.size + 1 else rt.size
  return (res, { rt with size, buckets })

/-- The four marks: find the entry, write to it, and say whether it was there. -/
def mark (rt : RoutingTable) (id : Id20) (refresh : Option Instant)
    (f : RoutingTableNode → RoutingTableNode) : Except Fault (Bool × RoutingTable) := do
  let (found, buckets) ← rt.buckets.getMut id refresh f
  return (found.isSome, { rt with buckets })

def markOutgoingRequest (rt : RoutingTable) (id : Id20) (now : Instant) :
    Except Fault (Bool × RoutingTable) :=
  rt.mark id none (RoutingTableNode.markOutgoingRequest now)

def markResponse (rt : RoutingTable) (id : Id20) (now : Instant) : Except Fault (Bool × RoutingTable) :=
  rt.mark id (some now) (RoutingTableNode.markResponse now)

def markError (rt : RoutingTable) (id : Id20) : Except Fault (Bool × RoutingTable) :=
  rt.mark id none RoutingTableNode.markError

def markLastQuery (rt : RoutingTable) (id : Id20) (now : Instant) : Except Fault (Bool × RoutingTable) :=
  rt.mark id none (RoutingTableNode.markLastQuery now)

/-- One operation on a table, with the readings of the clock it makes. -/
inductive Op where
  | addNode (id : Id20) (addr : SocketAddr) (clock : ℕ → Instant)
  | markOutgoingRequest (id : Id20) (now : Instant)
  | markResponse (id : Id20) (now : Instant)
  | markError (id : Id20)
  | markLastQuery (id : Id20) (now : Instant)

def step (rt : RoutingTable) : Op → Except Fault RoutingTable
  | .addNode id addr clock => (rt.addNode id addr clock).map Prod.snd
  | .markOutgoingRequest id now => (rt.markOutgoingRequest id now).map Prod.snd
  | .markResponse id now => (rt.markResponse id now).map Prod.snd
  | .markError id => (rt.markError id).map Prod.snd
  | .markLastQuery id now => (rt.markLastQuery id now).map Prod.snd

def run (rt : RoutingTable) (ops : List Op) : Except Fault RoutingTable := ops.foldlM step rt

abbrev Reaches (rt : RoutingTable) (ops : List Op) (rt' : RoutingTable) : Prop :=
  Run (Graph step) rt ops rt'

def stored (rt : RoutingTable) : List RoutingTableNode := rt.buckets.stored

def Inv (rt : RoutingTable) : Prop := rt.buckets.Inv rt.id

theorem new_inv (id : Id20) (maxSize : Option ℕ) (clock : Instant) : (new id maxSize clock).Inv :=
  BucketTree.new_inv id _ clock

section Steps
variable {rt : RoutingTable}

theorem Inv.addNode_cases (h : rt.Inv) (id : Id20) (addr : SocketAddr) (clock : ℕ → Instant) :
    ∃ res rt', rt.addNode id addr clock = .ok (res, rt') ∧ rt'.Inv ∧ rt'.id = rt.id ∧
      rt'.buckets.maxSize = rt.buckets.maxSize ∧
      rt.buckets.InsertCase id addr (clock 0) res rt'.buckets ∧
      rt'.size = if res.replaced then rt.size + 1 else rt.size := by
  obtain ⟨res, t', hrun, inv, hmax, hcase⟩ := BucketTree.Inv.addNode_cases h id addr clock
  refine ⟨res, { rt with size := if res.replaced then rt.size + 1 else rt.size, buckets := t' }, ?_, inv,
    rfl, hmax, hcase, rfl⟩
  simp only [addNode, hrun, ok_bind, pure_eq_ok]

theorem Inv.mark_cases (h : rt.Inv) (id : Id20) (refresh : Option Instant)
    (f : RoutingTableNode → RoutingTableNode) (hf : ∀ x, (f x).id = x.id) :
    ∃ found rt', rt.mark id refresh f = .ok (found, rt') ∧ rt'.Inv ∧ rt'.id = rt.id ∧
      rt'.size = rt.size ∧ rt'.buckets.size = rt.buckets.size ∧
      rt'.buckets.maxSize = rt.buckets.maxSize ∧
      rt'.stored = BucketTree.rewriteId id f rt.stored ∧
      (found = true ↔ ∃ x ∈ rt.stored, x.id = id) := by
  rcases BucketTree.Inv.getMut_cases h id refresh f hf with
    ⟨x, t', hx, hxid, hrun, inv, hst, hsz, hmax⟩ | ⟨hnew, hrun⟩
  · refine ⟨true, { rt with buckets := t' }, ?_, inv, rfl, rfl, hsz, hmax, hst, ?_⟩
    · simp [mark, hrun]
    · exact ⟨fun _ => ⟨x, hx, hxid⟩, fun _ => rfl⟩
  · refine ⟨false, rt, ?_, h, rfl, rfl, rfl, rfl, ?_, ?_⟩
    · simp [mark, hrun]
    · exact (BucketTree.rewriteId_of_new f hnew).symm
    · refine ⟨fun hf => by simp at hf, ?_⟩
      rintro ⟨x, hx, hxid⟩
      exact absurd hxid (hnew x hx)

inductive StepCase (rt : RoutingTable) : Op → RoutingTable → Prop where
  | insert {id : Id20} {addr : SocketAddr} {clock : ℕ → Instant} {res : InsertResult} {rt' : RoutingTable}
      (result : rt.addNode id addr clock = .ok (res, rt'))
      (case : rt.buckets.InsertCase id addr (clock 0) res rt'.buckets)
      (size : rt'.size = if res.replaced then rt.size + 1 else rt.size) :
      StepCase rt (.addNode id addr clock) rt'
  | mark {op : Op} {id : Id20} {f : RoutingTableNode → RoutingTableNode} {rt' : RoutingTable}
      (isMark : ∀ id' addr clock, op ≠ .addNode id' addr clock) (ids : ∀ x, (f x).id = x.id)
      (size : rt'.size = rt.size) (treeSize : rt'.buckets.size = rt.buckets.size)
      (stored : rt'.stored = BucketTree.rewriteId id f rt.stored) : StepCase rt op rt'

theorem Inv.step_cases (h : rt.Inv) (op : Op) :
    ∃ rt', rt.step op = .ok rt' ∧ rt'.Inv ∧ rt'.id = rt.id ∧
      rt'.buckets.maxSize = rt.buckets.maxSize ∧ StepCase rt op rt' := by
  have hmark : ∀ (id : Id20) (refresh : Option Instant) (f : RoutingTableNode → RoutingTableNode),
      (∀ x, (f x).id = x.id) → (∀ id' addr clock, op ≠ .addNode id' addr clock) →
      rt.step op = (rt.mark id refresh f).map Prod.snd →
      ∃ rt', rt.step op = .ok rt' ∧ rt'.Inv ∧ rt'.id = rt.id ∧
        rt'.buckets.maxSize = rt.buckets.maxSize ∧ StepCase rt op rt' := by
    intro id refresh f hf hne hstep
    obtain ⟨found, rt', hrun, inv, hid, hsz, htsz, hmax, hst, _⟩ := h.mark_cases id refresh f hf
    exact ⟨rt', by rw [hstep, hrun]; rfl, inv, hid, hmax, .mark hne hf hsz htsz hst⟩
  cases op with
  | addNode id addr clock =>
    obtain ⟨res, rt', hrun, inv, hid, hmax, hcase, hsz⟩ := h.addNode_cases id addr clock
    exact ⟨rt', by rw [step, hrun]; rfl, inv, hid, hmax, .insert hrun hcase hsz⟩
  | markOutgoingRequest id now => exact hmark id none (RoutingTableNode.markOutgoingRequest now) (fun _ => rfl) (by simp) rfl
  | markResponse id now => exact hmark id (some now) (RoutingTableNode.markResponse now) (fun _ => rfl) (by simp) rfl
  | markError id => exact hmark id none RoutingTableNode.markError (fun _ => rfl) (by simp) rfl
  | markLastQuery id now => exact hmark id none (RoutingTableNode.markLastQuery now) (fun _ => rfl) (by simp) rfl

theorem Inv.graph_cases (h : rt.Inv) {op : Op} {rt' : RoutingTable} (hs : Graph step rt op rt') :
    rt'.Inv ∧ rt'.id = rt.id ∧ rt'.buckets.maxSize = rt.buckets.maxSize ∧ StepCase rt op rt' := by
  obtain ⟨rt'', hstep, rest⟩ := h.step_cases op
  cases Except.ok.inj (hs.symm.trans hstep)
  exact rest

end Steps

section Histories
variable (selfId : Id20) (maxSize : Option ℕ) (clock : Instant)

theorem exists_reaches (ops : List Op) : ∃ rt, (new selfId maxSize clock).Reaches ops rt ∧ rt.Inv := by
  refine exists_run step Inv _ (new_inv selfId maxSize clock) ?_ ops
  intro rt op h
  obtain ⟨rt', hstep, inv, _⟩ := h.step_cases op
  exact ⟨rt', hstep, inv⟩

theorem inv_of_reaches {ops : List Op} {rt : RoutingTable} (h : (new selfId maxSize clock).Reaches ops rt) :
    rt.Inv ∧ rt.id = selfId ∧ rt.buckets.maxSize = maxSize.getD defaultMaxSize := by
  refine h.invariant (fun rt => rt.Inv ∧ rt.id = selfId ∧ rt.buckets.maxSize = maxSize.getD defaultMaxSize)
    ⟨new_inv selfId maxSize clock, rfl, rfl⟩ ?_
  rintro rt rt' op ⟨inv, hid, hmax⟩ hs
  obtain ⟨inv', hid', hmax', _⟩ := inv.graph_cases hs
  exact ⟨inv', hid'.trans hid, hmax'.trans hmax⟩

theorem reaches_iff_run {rt rt' : RoutingTable} {ops : List Op} : rt.Reaches ops rt' ↔ rt.run ops = .ok rt' :=
  run_graph_iff step rt rt' ops

end Histories
end RoutingTable
end LibrtbitDht
