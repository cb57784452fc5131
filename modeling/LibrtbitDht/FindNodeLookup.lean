import LibrtbitDht.RecursiveRequest
import LibrtbitDht.TransitionRuns

set_option autoImplicit false

/-!
# The loop of a find_node lookup

One call of `request_one` is a visit. It asks its node twice: what the first reply says is
marked, what the second one lists is followed. The loop takes queued nodes before it looks at
the visits; its request holds the sender, so that the queue never closes, and nobody holds the
receiver of the peers. `visited`, `accepted`, `queries` and `completed` record what happened.
-/
namespace LibrtbitDht
open TransitionRuns

inductive LookupError where
  | requestFailed
  | errorResponse
  | receiverDead
deriving DecidableEq, Repr

abbrev RequestResult := Except LookupError ResponseOrError

structure Visit where
  id : Option Id20
  addr : SocketAddr
  depth : ℕ
deriving DecidableEq, Repr

def Node.asSocketaddr {A : Type} (into : A → SocketAddr) (n : Node A) : Node SocketAddr where
  id := n.id
  addr := into n.addr

/-- The nodes of a response that are of the family of the address asked. -/
def nodeIt (response : Response) (addr : SocketAddr) : List (Node SocketAddr) :=
  ((response.nodes.getD []).map (Node.asSocketaddr .v4) ++
    (response.nodes6.getD []).map (Node.asSocketaddr .v6)).filter
      (fun node => addr.isIpv4 == node.addr.isIpv4)

namespace RecursiveRequest

/-- `request_one` when the first reply is there. -/
def firstReply (s : RecursiveRequest) (addr : SocketAddr) (reply : RequestResult) (now : Instant) :
    RecursiveRequest :=
  match reply with
  | .ok r => (s.markNodeResponded addr r now).2
  | .error _ => s

def sendNodes (s : RecursiveRequest) (depth : ℕ) (now : Instant) :
    List (Node SocketAddr) → List Visit × RecursiveRequest
  | [] => ([], s)
  | node :: nodes =>
    let (shouldRequest, s) := s.shouldRequestNode node.id node.addr depth now
    let (sent, s) := s.sendNodes depth now nodes
    (if shouldRequest then ⟨some node.id, node.addr, depth + 1⟩ :: sent else sent, s)

/-- `request_one` when the second reply is there: its result and the nodes it sends. -/
def secondReply (s : RecursiveRequest) (peerReceiver : Bool) (addr : SocketAddr) (depth : ℕ)
    (reply : RequestResult) (now : Instant) : Except LookupError Unit × List Visit × RecursiveRequest :=
  match reply with
  | .ok (.response r) =>
    if (r.values.getD []) ≠ [] ∧ peerReceiver = false then (.error .receiverDead, [], s)
    else
      let (sent, s) := s.sendNodes depth now (nodeIt r addr)
      (.ok (), sent, s)
  | .ok (.error _) => (.error .errorResponse, [], s)
  | .error e => (.error e, [], (s.markNodeError addr).2)

end RecursiveRequest

structure Fut where
  num : ℕ
  visit : Visit
  replied : Bool
deriving DecidableEq, Repr

structure Lookup where
  req : RecursiveRequest
  queue : List Visit
  futs : List Fut
  successes : ℕ
  errors : ℕ
  /-- The end of the loop, with the number of errors if no visit succeeded. -/
  result : Option (Except ℕ Unit)
  visited : List Visit
  accepted : List Visit
  queries : List ℕ
  completed : List (ℕ × Bool)
deriving DecidableEq

inductive Action where
  | recv
  | firstReply (num : ℕ) (reply : RequestResult) (now : Instant)
  | secondReply (num : ℕ) (reply : RequestResult) (now : Instant)
  | finished

inductive Blocked where
  | blocked
deriving DecidableEq

namespace Lookup

def push (s : Lookup) (visit : Visit) : Lookup :=
  { s with
    futs := s.futs ++ [⟨s.visited.length, visit, false⟩]
    visited := s.visited ++ [visit]
    queries := s.queries ++ [s.visited.length] }

def initial (addrs : List SocketAddr) : List Visit := addrs.map (fun addr => ⟨none, addr, 0⟩)

def empty (target : Id20) : Lookup where
  req := .new 4 32 target
  queue := []
  futs := []
  successes := 0
  errors := 0
  result := none
  visited := []
  accepted := []
  queries := []
  completed := []

def start (target : Id20) (addrs : List SocketAddr) : Lookup := (initial addrs).foldl push (empty target)

/-- The first reply of a visit is handled, and the second query is sent. -/
def onFirstReply (s : Lookup) (f : Fut) (reply : RequestResult) (now : Instant) : Lookup :=
  { s with
    req := s.req.firstReply f.visit.addr reply now
    futs := s.futs.map (fun g => if g.num = f.num then { g with replied := true } else g)
    queries := s.queries ++ [f.num] }

def onSecondReply (s : Lookup) (f : Fut) (reply : RequestResult) (now : Instant) : Lookup :=
  let (result, sent, req) := s.req.secondReply false f.visit.addr f.visit.depth reply now
  { s with
    req
    queue := s.queue ++ sent
    futs := s.futs.filter (fun g => g.num ≠ f.num)
    successes := s.successes + (if result.isOk then 1 else 0)
    errors := s.errors + (if result.isOk then 0 else 1)
    accepted := s.accepted ++ sent
    completed := s.completed ++ [(f.num, result.isOk)] }

def onFinished (s : Lookup) : Lookup :=
  { s with result := some (if s.successes = 0 then .error s.errors else .ok ()) }

/-- The visit with this number, if it waits for its first or second reply. -/
def waiting (s : Lookup) (num : ℕ) (replied : Bool) : Option Fut :=
  s.futs.find? (fun f => f.num = num ∧ f.replied = replied)

/-- One turn of the loop, or one reply that does not complete its visit. -/
def step (s : Lookup) (a : Action) : Except Blocked Lookup :=
  if s.result.isSome then .error .blocked
  else
    match s.queue, a with
    | visit :: queue, .recv => .ok ({ s with queue }.push visit)
    | [], .firstReply num reply now =>
      match s.waiting num false with
      | some f => .ok (s.onFirstReply f reply now)
      | none => .error .blocked
    | [], .secondReply num reply now =>
      match s.waiting num true with
      | some f => .ok (s.onSecondReply f reply now)
      | none => .error .blocked
    | [], .finished => if s.futs = [] then .ok s.onFinished else .error .blocked
    | _, _ => .error .blocked

abbrev Step : Lookup → Action → Lookup → Prop := Graph step

/-- The nodes that a second reply makes the visit offer to `should_request_node`. -/
def offers (reply : RequestResult) (addr : SocketAddr) : List (Node SocketAddr) :=
  match reply with
  | .ok (.response r) => if (r.values.getD []) ≠ [] then [] else nodeIt r addr
  | _ => []

def OffersNothing (s : Lookup) (a : Action) : Prop :=
  match a with
  | .secondReply num reply _ => ∀ f ∈ s.waiting num true, offers reply f.visit.addr = []
  | _ => True

/-- Nothing is left over when the loop ends, and its answer is right. -/
structure Finished (addrs : List SocketAddr) (s : Lookup) : Prop where
  drained : s.queue = [] ∧ s.futs = []
  visited : s.visited = initial addrs ++ s.accepted
  answer : s.result = some (.ok ()) ↔ ∃ num, (num, true) ∈ s.completed

structure FindNodeLaw (addrs : List SocketAddr) (s : Lookup) : Prop extends Finished addrs s where
  depth : ∀ visit ∈ s.visited, visit.depth ≤ s.req.maxDepth
  queriedOnce : ∀ k < s.accepted.length, s.queries.count (addrs.length + k) = 1

end Lookup
end LibrtbitDht
