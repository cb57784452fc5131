import LibrtbitDht.FirstMatch
import LibrtbitDht.RoutingTableNode

set_option autoImplicit false

/-!
# The bucket tree

The arena of the tree is a list of nodes that refer to each other by index. Every
index, every bit position and every `u8` subtraction of the source is checked here
and ends in a `Fault`, as are its `unreachable!` arms and debug assertions; each loop
has a fuel argument whose exhaustion is a `Fault` as well.
-/
namespace LibrtbitDht

structure LeafBucket where
  nodes : List RoutingTableNode
  lastRefreshed : Instant
deriving DecidableEq, Repr

inductive BucketTreeNodeData where
  | leaf (bucket : LeafBucket)
  | leftRight (left right : ℕ)
deriving DecidableEq, Repr

structure BucketTreeNode where
  bits : ℕ
  start : Id20
  endInclusive : Id20
  data : BucketTreeNodeData
deriving DecidableEq, Repr

structure BucketTree where
  data : List BucketTreeNode
  size : ℕ
  maxSize : ℕ
deriving DecidableEq, Repr

inductive InsertResult where
  | wasExisting
  | replacedBad (old : RoutingTableNode)
  | added
  | ignored
deriving DecidableEq, Repr

def computeSplitStartEnd (start endInclusive : Id20) (bits : ℕ) :
    Except Fault ((Id20 × Id20) × (Id20 × Id20)) := do
  check (bits ≤ 160) .overflow
  let changingBit := 160 - bits
  let newLeftEnd ← endInclusive.setBit changingBit false
  let newRightStart ← start.setBit changingBit true
  check (start < newLeftEnd) .debugAssert
  check (newLeftEnd < newRightStart) .debugAssert
  check (newRightStart < endInclusive) .debugAssert
  return ((start, newLeftEnd), (newRightStart, endInclusive))

structure BucketTreeIteratorItem where
  bits : ℕ
  start : Id20
  endInclusive : Id20
  leaf : LeafBucket
deriving DecidableEq, Repr

namespace BucketTree

/-- `clock` is the reading of the clock for the bucket of the root. -/
def new (maxSize : ℕ) (clock : Instant) : BucketTree where
  data := [{
    bits := 160
    start := 0
    endInclusive := BitVec.allOnes 160
    data := .leaf ⟨[], clock⟩ }]
  size := 0
  maxSize

section Iteration

/-- One call of the iterator: the queue is a stack whose top is the head of the list. -/
def next (t : BucketTree) : ℕ → List ℕ → Except Fault (Option (BucketTreeIteratorItem × List ℕ))
  | _, [] => .ok none
  | 0, _ :: _ => .error .outOfFuel
  | fuel + 1, idx :: queue =>
    match t.data[idx]? with
    | none => next t fuel queue
    | some node =>
      match node.data with
      | .leaf leaf => .ok (some (⟨node.bits, node.start, node.endInclusive, leaf⟩, queue))
      | .leftRight left right => next t fuel (left :: right :: queue)

def drain (t : BucketTree) : ℕ → List ℕ → Except Fault (List BucketTreeIteratorItem)
  | 0, _ => .error .outOfFuel
  | fuel + 1, queue => do
    match ← t.next (t.data.length + queue.length) queue with
    | none => return []
    | some (item, queue) =>
      let items ← drain t fuel queue
      return item :: items

/-- An arena of `n` nodes has at most `n` leaves, and the last call finds none. -/
def iterLeaves (t : BucketTree) : Except Fault (List BucketTreeIteratorItem) :=
  t.drain (t.data.length + 1) [0]

def iter (t : BucketTree) : Except Fault (List RoutingTableNode) := do
  let items ← t.iterLeaves
  return items.flatMap (fun item => item.leaf.nodes)

end Iteration

section Lookup

def getLeafLoop (t : BucketTree) (id : Id20) : ℕ → ℕ → Except Fault ℕ
  | 0, _ => .error .outOfFuel
  | fuel + 1, idx =>
    match t.data[idx]? with
    | none => .error .outOfBounds
    | some node =>
      match node.data with
      | .leaf _ => .ok idx
      | .leftRight leftIdx rightIdx =>
        match t.data[leftIdx]? with
        | none => .error .outOfBounds
        | some left =>
          if left.start ≤ id ∧ id ≤ left.endInclusive then getLeafLoop t id fuel leftIdx
          else getLeafLoop t id fuel rightIdx

def getLeaf (t : BucketTree) (id : Id20) : Except Fault ℕ := t.getLeafLoop id t.data.length 0

def setNode (t : BucketTree) (idx : ℕ) (node : BucketTreeNode) : BucketTree :=
  { t with data := t.data.set idx node }

/-- The node found and the tree after the caller wrote `f` through the reference to it. -/
def getMut (t : BucketTree) (id : Id20) (refresh : Option Instant)
    (f : RoutingTableNode → RoutingTableNode) : Except Fault (Option RoutingTableNode × BucketTree) := do
  let idx ← t.getLeaf id
  match t.data[idx]? with
  | none => throw .outOfBounds
  | some node =>
    match node.data with
    | .leftRight _ _ => throw .unreachable
    | .leaf leaf =>
      match updateFirst (fun b => b.id = id) f leaf.nodes with
      | none => return (none, t)
      | some (found, nodes) =>
        return (some found,
          t.setNode idx { node with data := .leaf ⟨nodes, refresh.getD leaf.lastRefreshed⟩ })

end Lookup

section Insertion

def sortById (nodes : List RoutingTableNode) : List RoutingTableNode :=
  nodes.insertionSort (fun a b => a.id ≤ b.id)

def setBucket (t : BucketTree) (idx : ℕ) (leaf : BucketTreeNode) (nodes : List RoutingTableNode)
    (now : Instant) : BucketTree :=
  t.setNode idx { leaf with data := .leaf ⟨nodes, now⟩ }

/-- Two new leaves share the nodes of a leaf, which becomes their parent. The result is the
tree with the index of the new leaf that takes `id`. -/
def splitLeaf (t : BucketTree) (idx : ℕ) (leaf : BucketTreeNode) (nodes : List RoutingTableNode)
    (id : Id20) (leftClock rightClock : Instant) : Except Fault (BucketTree × ℕ) := do
  let ((ls, le), (rs, re)) ← computeSplitStartEnd leaf.start leaf.endInclusive leaf.bits
  let ld := nodes.filter (fun n => n.id < rs)
  let rd := nodes.filter (fun n => ¬ n.id < rs)
  check (1 ≤ leaf.bits) .overflow
  let left : BucketTreeNode := ⟨leaf.bits - 1, ls, le, .leaf ⟨ld, leftClock⟩⟩
  let right : BucketTreeNode := ⟨leaf.bits - 1, rs, re, .leaf ⟨rd, rightClock⟩⟩
  let leftIdx := t.data.length
  let rightIdx := t.data.length + 1
  let data := (t.data ++ [left, right]).set idx { leaf with data := .leftRight leftIdx rightIdx }
  return ({ t with data }, if id < rs then leftIdx else rightIdx)

inductive Round where
  | done (result : InsertResult) (t : BucketTree)
  | again (t : BucketTree) (idx : ℕ)
deriving DecidableEq, Repr

def insertRound (t : BucketTree) (idx : ℕ) (selfId id : Id20) (addr : SocketAddr)
    (now leftClock rightClock : Instant) : Except Fault Round :=
  match t.data[idx]? with
  | none => .error .outOfBounds
  | some leaf =>
    match leaf.data with
    | .leftRight _ _ => .error .unreachable
    | .leaf bucket =>
      if bucket.nodes.any (fun r => r.id = id) then .ok (.done .wasExisting t)
      else
        let newNode := RoutingTableNode.fresh id addr
        match updateFirst (fun r => r.isBad now) (fun _ => newNode) bucket.nodes with
        | some (bad, nodes) =>
          .ok (.done (.replacedBad bad) (t.setBucket idx leaf (sortById nodes) now))
        | none =>
          if t.size = t.maxSize then .ok (.done .ignored t)
          else if bucket.nodes.length < 8 then
            .ok (.done .added { t.setBucket idx leaf (sortById (bucket.nodes ++ [newNode])) now with
              size := t.size + 1 })
          else if selfId < leaf.start ∨ selfId > leaf.endInclusive then .ok (.done .ignored t)
          else do
            let (t, idx) ← t.splitLeaf idx leaf bucket.nodes id leftClock rightClock
            return .again t idx

/-- The loop of the insertion; `clock k` is its `k`-th reading of the clock after `now`. -/
def insertLoop (selfId id : Id20) (addr : SocketAddr) (now : Instant) :
    ℕ → (ℕ → Instant) → BucketTree → ℕ → Except Fault (InsertResult × BucketTree)
  | 0, _, _, _ => .error .outOfFuel
  | fuel + 1, clock, t, idx => do
    match ← t.insertRound idx selfId id addr now (clock 0) (clock 1) with
    | .done result t => return (result, t)
    | .again t idx => insertLoop selfId id addr now fuel (fun k => clock (k + 2)) t idx

/-- Every round but the last splits a leaf into leaves with one bit less. -/
def insertFuel : ℕ := 161

def insertIntoLeaf (t : BucketTree) (idx : ℕ) (selfId id : Id20) (addr : SocketAddr)
    (clock : ℕ → Instant) : Except Fault (InsertResult × BucketTree) :=
  insertLoop selfId id addr (clock 0) insertFuel (fun k => clock (k + 1)) t idx

def addNode (t : BucketTree) (selfId id : Id20) (addr : SocketAddr) (clock : ℕ → Instant) :
    Except Fault (InsertResult × BucketTree) := do
  let idx ← t.getLeaf id
  t.insertIntoLeaf idx selfId id addr clock

end Insertion
end BucketTree
end LibrtbitDht
