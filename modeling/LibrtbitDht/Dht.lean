import LibrtbitDht.AnnounceAgreement
import LibrtbitDht.BucketRefresh
import LibrtbitDht.Liveness
import LibrtbitDht.PeersLookup
import LibrtbitDht.RequestOne
import LibrtbitDht.RequestTracking

set_option autoImplicit false

/-!
# A whole node

All tasks of a node share its tables, its peer store, its requests in flight and the queue of
the writer. An action is what one task does between two points at which it waits, or one of the
operations that send a request, so that a run is any interleaving of the tasks. `created` and
`handed` record what happened; nothing reads them but the numbering of the messages.
-/
namespace LibrtbitDht
open TransitionRuns Bencode

def replyOf : MessageKind → Option ResponseOrError
  | .error e => some (.error e)
  | .response resp => some (.response resp)
  | _ => none

/-- What waits for the outcome of a call of `request`. -/
inductive Caller where
  | ping
  | pinger (num : ℕ)
  | visit (task num : ℕ)
deriving DecidableEq, Repr

/-- A call of `request` whose sender was put into the map, with the outcome once it is there. -/
structure Call extends Waiting where
  caller : Caller
  outcome : Option RequestOutcome
deriving DecidableEq

/-- What is done with a message: a call of `request` puts its sender into the map before it sends. -/
inductive Sending where
  | request (caller : Caller) (inserted : Bool)
  | announce (task : ℕ)
deriving DecidableEq, Repr

def Sending.caller : Sending → Option Caller
  | .request caller _ => some caller
  | .announce _ => none

def Sending.prepared : Sending → Bool
  | .request _ inserted => inserted
  | .announce _ => true

structure Outgoing extends WorkerSendRequest where
  message : Message
deriving DecidableEq

/-- A message that was created and is not sent yet. -/
structure Pending extends Waiting where
  message : Message
  sending : Sending
deriving DecidableEq

def Pending.out (p : Pending) : Outgoing := ⟨⟨some p.key.1, p.key.2, some p.num⟩, p.message⟩

/-- A lookup does not tell the errors of `request` apart. -/
def RequestOutcome.result (outcome : RequestOutcome) : RequestResult := outcome.mapError (fun _ => .requestFailed)

/-- What runs in parallel. Calls of the user wait for none of the others. -/
inductive Thread where
  | worker
  | lookup (task : ℕ)
  | user
deriving DecidableEq, Repr

structure Ping where
  num : ℕ
  isV4 : Bool
  contact : Contact
deriving DecidableEq, Repr

section Tasks

inductive Loop where
  | findNode (lookup : Lookup)
  | getPeers (callbacks : RecursiveRequestCallbacksGetPeers) (lookup : PeersLookup)
deriving DecidableEq

inductive Loop.Action where
  | turn (a : PeersLookup.Action)
  | finished

/-- What the turn is for the loop of a find_node lookup, which has neither rounds nor a stream. -/
def Loop.Action.findNode : Loop.Action → Option LibrtbitDht.Action
  | .turn .recv => some .recv
  | .turn (.firstReply num reply now) => some (.firstReply num reply now)
  | .turn (.secondReply num reply now) => some (.secondReply num reply now)
  | .turn (.round _ _ _) | .turn .dropped | .turn .aborted => none
  | .finished => some .finished

/-- `started` lists the visits that have been polled. -/
structure Task where
  request : Request
  loop : Loop
  started : List ℕ
deriving DecidableEq

namespace Loop

def thread (i : ℕ) : Loop → Thread
  | .findNode _ => .worker
  | .getPeers _ _ => .lookup i

def lookup : Loop → Lookup
  | .findNode lookup => lookup
  | .getPeers _ lookup => lookup.loop

def stepFindNode (lookup : Lookup) (b : Loop.Action) : Except PeersLookup.Halt Loop :=
  match b.findNode with
  | none => .error .blocked
  | some a =>
    match lookup.step a with
    | .ok lookup => .ok (.findNode lookup)
    | .error _ => .error .blocked

def step : Loop → Loop.Action → Except PeersLookup.Halt Loop
  | .findNode lookup, b => stepFindNode lookup b
  | .getPeers callbacks lookup, .turn a => (lookup.step a).map (.getPeers callbacks)
  | .getPeers _ _, .finished => .error .blocked

/-- The loop looks at its visits: the one of a find_node lookup takes queued nodes first. -/
def Polls : Loop → Prop
  | .findNode lookup => lookup.result = none ∧ lookup.queue = []
  | .getPeers _ lookup => lookup.aborted = false

instance : (loop : Loop) → Decidable loop.Polls
  | .findNode lookup => inferInstanceAs (Decidable (lookup.result = none ∧ lookup.queue = []))
  | .getPeers _ lookup => inferInstanceAs (Decidable (lookup.aborted = false))

end Loop

namespace Task

def findNode (target : Id20) (addrs : List SocketAddr) : Task where
  request := .findNode target
  loop := .findNode (.start target addrs)
  started := []

def getPeers (infoHash : Id20) (announcePort : Option (BitVec 16)) (isV4 : Bool) : Task where
  request := .getPeers infoHash
  loop := .getPeers (.new announcePort) (.start infoHash isV4)
  started := []

def polled (t : Task) (num : ℕ) : Except PeersLookup.Halt Fut :=
  if t.loop.Polls then
    match t.loop.lookup.futs.find? (fun f => f.num = num) with
    | some f => .ok f
    | none => .error .blocked
  else .error .blocked

end Task
end Tasks

structure Dht where
  state : DhtState
  nextTransactionId : TransactionId
  inflight : AssocMap RequestKey ℕ
  pending : List Pending
  workerOpen : Bool
  queue : List Outgoing
  calls : List Call
  tasks : List Task
  queuedTargets : List (Bool × Id20)
  queuedPings : List (Bool × Contact)
  pings : List Ping
  nextPing : ℕ
  created : List (Message × SocketAddr)
  handed : List Outgoing
deriving DecidableEq

namespace Dht

abbrev Halt := PeersLookup.Halt

def start (state : DhtState) : Dht where
  state
  nextTransactionId := 0
  inflight := .empty
  pending := []
  workerOpen := true
  queue := []
  calls := []
  tasks := []
  queuedTargets := []
  queuedPings := []
  pings := []
  nextPing := 0
  created := []
  handed := []

def lift {α : Type} : Except Fault α → Except Halt α
  | .ok a => .ok a
  | .error f => .error (.fault f)

section Requests
variable (s : Dht)

def enqueue (out : Outgoing) : Dht := { s with queue := s.queue ++ [out], handed := s.handed ++ [out] }

/-- A call of `create_request`; the message is not sent yet. -/
def create (message : Message) (addr : SocketAddr) (sending : Sending) : Dht := { s with
  nextTransactionId := s.nextTransactionId + 1
  created := s.created ++ [(message, addr)]
  pending := s.pending ++ [⟨⟨s.created.length, (s.nextTransactionId, addr)⟩, message, sending⟩] }

/-- `request` as soon as the rate limiter lets it go on. -/
def request (request : Request) (addr : SocketAddr) (caller : Caller) : Dht :=
  s.create (createRequest s.state.id s.nextTransactionId request addr) addr (.request caller false)

/-- The sender is put into the map; from then on the call can get an outcome. -/
def insert (num : ℕ) : Except Halt Dht :=
  match s.pending.find? (fun p => p.num = num) with
  | some p =>
    match p.sending with
    | .request caller false => .ok { s with
        inflight := s.inflight.insert p.key num
        calls := s.calls ++ [⟨p.toWaiting, caller, none⟩]
        pending := s.pending.erase p ++ [{ p with sending := .request caller true }] }
    | _ => .error .blocked
  | none => .error .blocked

/-- The writer is gone: a call of `request` ends then, an announcement is not missed. -/
def refuse (p : Pending) : Dht :=
  match p.sending with
  | .request _ _ => { s with
      inflight := s.inflight.remove p.key
      calls := s.calls.map (fun c => if c.num = p.num then { c with outcome := some (.error .dhtDead) } else c) }
  | .announce _ => s

def send (num : ℕ) : Except Halt Dht :=
  match s.pending.find? (fun p => p.num = num ∧ p.sending.prepared) with
  | some p =>
    let s := { s with pending := s.pending.erase p }
    if s.workerOpen then .ok (s.enqueue p.out) else .ok (s.refuse p)
  | none => .error .blocked

def complete (num : ℕ) (outcome : RequestOutcome) : Dht :=
  { s with calls := s.calls.map (fun c =>
      if c.num = num ∧ c.outcome = none then { c with outcome := some outcome } else c) }

/-- Takes the sender out of the map, if there is one, and sends the outcome. -/
def finish (key : RequestKey) (outcome : RequestOutcome) : Dht :=
  match s.inflight.get? key with
  | none => s
  | some num => { s with inflight := s.inflight.remove key }.complete num outcome

def waiting (num : ℕ) : Except Halt Call :=
  match s.calls.find? (fun c => c.num = num ∧ c.outcome = none) with
  | some c => if ∃ p ∈ s.pending, p.num = num then .error .blocked else .ok c
  | none => .error .blocked

def giveUp (c : Call) (e : RequestError) : Dht :=
  { s with inflight := s.inflight.remove c.key }.complete c.num (.error e)

def timeout (num : ℕ) : Except Halt Dht := do
  let c ← s.waiting num
  return s.giveUp c .responseTimeout

/-- The sender of a call that waits is gone when the map no longer holds it. -/
def senderDropped (num : ℕ) : Except Halt Dht := do
  let c ← s.waiting num
  if s.inflight.get? c.key = some num then .error .blocked else return s.giveUp c .dhtDead

def endCall (num : ℕ) : Dht := { s with calls := s.calls.filter (fun c => c.num ≠ num) }

def returned (caller : Caller) : Except Halt (RequestOutcome × Dht) :=
  match s.calls.find? (fun c => c.caller = caller) with
  | some c =>
    match c.outcome with
    | some outcome => .ok (outcome, s.endCall c.num)
    | none => .error .blocked
  | none => .error .blocked

def pingReturns (num : ℕ) : Except Halt Dht :=
  if (∃ c ∈ s.calls, c.num = num ∧ c.caller = .ping) ∧ ∀ p ∈ s.pending, p.num ≠ num then .ok (s.endCall num)
  else .error .blocked

def onReply (transactionId : ByteStrings.Bytes) (addr : SocketAddr) (reply : ResponseOrError) : Dht :=
  match getOurTransactionId transactionId with
  | none => s
  | some tid => s.finish (tid, addr) (.ok reply)

def onReceivedMessage (r : Readings) (msg : Message) (addr : SocketAddr) : Except Halt Dht :=
  match replyOf msg.kind with
  | some reply => return s.onReply msg.transactionId addr reply
  | none => do
    let (answer, state) ← lift (s.state.onReceivedMessage r msg addr)
    let s := { s with state }
    match answer with
    | some message => return s.enqueue ⟨⟨none, addr, none⟩, message⟩
    | none => return s

/-- The writer takes a message and unwraps what the serializer made of it, then `send_to` may fail. -/
def writer (C : Codec) (failed : Bool) : Except Halt Dht :=
  match s.queue with
  | [] => .error .blocked
  | out :: queue =>
    match serializeMessage C out.message.transactionId out.message.version out.message.ip out.message.kind with
    | none => .error (.fault .unwrapOnErr)
    | some _ =>
      let s := { s with queue }
      if failed then
        match out.ourTid with
        | some tid => .ok (s.finish (tid, out.addr) (.error .sendError))
        | none => .ok s
      else .ok s

end Requests

section Tables
variable (s : Dht)

def liveness : Liveness where
  routingTableV4 := s.state.routingTableV4
  routingTableV6 := s.state.routingTableV6
  visits := []
  queuedPings := s.queuedPings
  pings := s.pings.map (fun p => (p.isV4, p.contact))

def withLiveness (l : Liveness) : Dht := { s with
  state := { s.state with
    routingTableV4 := l.routingTableV4
    routingTableV6 := l.routingTableV6 }
  queuedPings := l.queuedPings }

def mark (f : Liveness → Except Fault Liveness) : Except Halt Dht := do
  let l ← lift (f s.liveness)
  return s.withLiveness l

/-- Every bucket that was not refreshed for too long gets a random target. -/
def refresherTick (isV4 : Bool) (now : Instant) (randoms : ℕ → Id20) : Except Halt Dht := do
  let buckets ← lift (s.liveness.table isV4).iterBuckets
  let found := buckets.filter (fun b => inactivityTimeout ≤ now - b.leaf.lastRefreshed)
  let targets ← lift (found.zipIdx.mapM (fun b => b.1.randomWithin (randoms b.2)))
  return { s with queuedTargets := s.queuedTargets ++ targets.map (fun id => (isV4, id)) }

def refresh (isV4 : Bool) (now : Instant) : Except Halt Dht :=
  match s.queuedTargets.find? (fun t => t.1 = isV4) with
  | some t => do
    let nodes ← lift ((s.liveness.table isV4).sortedByDistanceFrom t.2 now)
    return { s with
      queuedTargets := s.queuedTargets.erase t
      tasks := s.tasks ++ [.findNode t.2 ((nodes.map RoutingTableNode.addr).take 8)] }
  | none => .error .blocked

def pingStart (isV4 : Bool) (contact : Contact) (now : Instant) : Except Halt Dht :=
  if (isV4, contact) ∈ s.queuedPings then do
    let s ← s.mark (fun l => l.onPingStart isV4 contact.id now)
    return { s with
      queuedPings := s.queuedPings.erase (isV4, contact)
      pings := s.pings ++ [⟨s.nextPing, isV4, contact⟩]
      nextPing := s.nextPing + 1 }
  else .error .blocked

def pingOf (num : ℕ) : Except Halt Ping :=
  match s.pings.find? (fun p => p.num = num) with
  | some p => .ok p
  | none => .error .blocked

def pingQuery (num : ℕ) : Except Halt Dht := do
  let p ← s.pingOf num
  if ∀ c ∈ s.calls, c.caller ≠ .pinger num then return s.request .ping p.contact.addr (.pinger num)
  else .error .blocked

def pingEnd (num : ℕ) (now : Instant) : Except Halt Dht := do
  let p ← s.pingOf num
  let (outcome, s) ← s.returned (.pinger num)
  let s ← s.mark (fun l => l.markResult p.isV4 p.contact.id outcome.isOk now)
  return { s with pings := s.pings.filter (fun q => q.num ≠ num) }

end Tables

section Lookups
variable (s : Dht)

def task (i : ℕ) : Except Halt Task :=
  match s.tasks[i]? with
  | some t => .ok t
  | none => .error .blocked

def setTask (i : ℕ) (t : Task) : Dht := { s with tasks := s.tasks.set i t }

/-- Something happens to one loop that the rest of the node takes no part in. -/
def turn (i : ℕ) (b : Loop.Action) : Except Halt Dht := do
  let t ← s.task i
  let loop ← t.loop.step b
  return s.setTask i { t with loop }

def round (i : ℕ) (now asleep : Instant) : Except Halt Dht := do
  let t ← s.task i
  match t.loop with
  | .findNode _ => .error .blocked
  | .getPeers _ lookup => s.turn i (.turn (.round (s.liveness.table lookup.isV4) now asleep))

def onRequestStart (loop : Loop) (visit : Visit) (clock : ℕ → Instant) (now : Instant) : Except Halt Dht :=
  match loop, visit.id with
  | .findNode _, some id => s.mark (fun l => l.onRequestStart id visit.addr clock now)
  | _, _ => return s

def visitStart (i num : ℕ) (clock : ℕ → Instant) (now : Instant) : Except Halt Dht := do
  let t ← s.task i
  let f ← t.polled num
  if num ∈ t.started then .error .blocked
  else
    (s.setTask i { t with started := t.started ++ [num] }).onRequestStart t.loop f.visit clock now

def query (i num : ℕ) : Except Halt Dht := do
  let t ← s.task i
  let f ← t.polled num
  if num ∈ t.started ∧ ∀ c ∈ s.calls, c.caller ≠ .visit i num then
    return s.request t.request f.visit.addr (.visit i num)
  else .error .blocked

def onRequestEnd (i : ℕ) (loop : Loop) (visit : Visit) (outcome : RequestResult) (now : Instant) : Except Halt Dht :=
  match loop, visit.id with
  | _, none => return s
  | .findNode _, some id => s.mark (fun l => l.onRequestEnd id visit.addr outcome.isOk now)
  | .getPeers callbacks lookup, some id =>
    match callbacks.onRequestEnd s.state.id s.nextTransactionId lookup.loop.req.infoHash id visit.addr outcome with
    | some message => return s.create message visit.addr (.announce i)
    | none => return s

/-- A visit takes the outcome of its query; `marked` is the reading of the callback. -/
def resume (i num : ℕ) (now marked : Instant) : Except Halt Dht := do
  let t ← s.task i
  let f ← t.polled num
  let (outcome, s) ← s.returned (.visit i num)
  if f.replied then
    let loop ← t.loop.step (.turn (.secondReply num outcome.result now))
    return s.setTask i { t with loop }
  else
    let loop ← t.loop.step (.turn (.firstReply num outcome.result now))
    (s.setTask i { t with loop }).onRequestEnd i loop f.visit outcome.result marked

def aborted (i : ℕ) : Except Halt Dht := do
  let s ← s.turn i (.turn .aborted)
  return { s with calls := s.calls.filter (fun c =>
    match c.caller with
    | .visit j _ => j ≠ i
    | _ => true) }

end Lookups

inductive Action where
  | receive (r : Readings) (msg : Message) (addr : SocketAddr)
  | writer (failed : Bool)
  | close
  | insert (num : ℕ)
  | send (num : ℕ)
  | timeout (num : ℕ)
  | senderDropped (num : ℕ)
  | ping (addr : SocketAddr)
  | pingReturns (num : ℕ)
  | getPeers (infoHash : Id20) (announcePort : Option (BitVec 16))
  | bootstrapHostname (addrs : List SocketAddr)
  | refresherTick (isV4 : Bool) (now : Instant) (randoms : ℕ → Id20)
  | refresh (isV4 : Bool) (now : Instant)
  | pingerTick (isV4 : Bool) (now : Instant)
  | pingStart (isV4 : Bool) (contact : Contact) (now : Instant)
  | pingQuery (num : ℕ)
  | pingEnd (num : ℕ) (now : Instant)
  | round (task : ℕ) (now asleep : Instant)
  | recv (task : ℕ)
  | visitStart (task num : ℕ) (clock : ℕ → Instant) (now : Instant)
  | query (task num : ℕ)
  | resume (task num : ℕ) (now marked : Instant)
  | finished (task : ℕ)
  | dropped (task : ℕ)
  | aborted (task : ℕ)
  | garbageCollectPeers (now : DateTime)
  | rehash (es : List (Id20 × List StoredPeer))

section Threads
variable (s : Dht)

def taskThread (i : ℕ) : Thread :=
  match s.tasks[i]? with
  | some t => t.loop.thread i
  | none => .worker

def callerThread : Caller → Thread
  | .ping => .user
  | .pinger _ => .worker
  | .visit i _ => s.taskThread i

def sendingThread : Sending → Thread
  | .request caller _ => s.callerThread caller
  | .announce i => s.taskThread i

/-- The thread that has to be at a point where it waits for the action to be done. -/
def thread : Action → Thread
  | .round i _ _ | .recv i | .visitStart i _ _ _ | .query i _ | .resume i _ _ _ | .finished i | .aborted i =>
    s.taskThread i
  | .insert _ | .send _ | .timeout _ | .senderDropped _ | .ping _ | .pingReturns _ | .getPeers _ _ | .dropped _
  | .rehash _ => .user
  | .receive _ _ _ | .writer _ | .close | .bootstrapHostname _ | .refresherTick _ _ _ | .refresh _ _ | .pingerTick _ _
  | .pingStart _ _ _ | .pingQuery _ | .pingEnd _ _ | .garbageCollectPeers _ => .worker

def Waits (t : Thread) : Prop :=
  t = .user ∨ (t = .worker → s.workerOpen = true) ∧ ∀ p ∈ s.pending, s.sendingThread p.sending ≠ t

instance (t : Thread) : Decidable (s.Waits t) := by
  unfold Waits
  infer_instance

/-- The worker ends, and with it all that runs in it and the receiving half of the writer's channel. -/
def close : Dht := { s with
  workerOpen := false
  queue := []
  calls := s.calls.filter (fun c => s.callerThread c.caller ≠ .worker)
  queuedTargets := []
  queuedPings := []
  pings := [] }

/-- A stream has a loop for each family; when it is dropped, one is told after the other. -/
def perform (C : Codec) : Action → Except Halt Dht
  | .receive r msg addr => s.onReceivedMessage r msg addr
  | .writer failed => s.writer C failed
  | .close => return s.close
  | .insert num => s.insert num
  | .send num => s.send num
  | .timeout num => s.timeout num
  | .senderDropped num => s.senderDropped num
  | .ping addr => return s.request .ping addr .ping
  | .pingReturns num => s.pingReturns num
  | .getPeers infoHash announcePort => return { s with
      tasks := s.tasks ++ [.getPeers infoHash announcePort true, .getPeers infoHash announcePort false] }
  | .bootstrapHostname addrs => return { s with
      tasks := s.tasks ++ [.findNode s.state.id (addrs.filter SocketAddr.isIpv4),
        .findNode s.state.id (addrs.filter SocketAddr.isIpv6)] }
  | .refresherTick isV4 now randoms => s.refresherTick isV4 now randoms
  | .refresh isV4 now => s.refresh isV4 now
  | .pingerTick isV4 now => s.mark (fun l => l.pingerTick isV4 now)
  | .pingStart isV4 contact now => s.pingStart isV4 contact now
  | .pingQuery num => s.pingQuery num
  | .pingEnd num now => s.pingEnd num now
  | .round i now asleep => s.round i now asleep
  | .recv i => s.turn i (.turn .recv)
  | .visitStart i num clock now => s.visitStart i num clock now
  | .query i num => s.query i num
  | .resume i num now marked => s.resume i num now marked
  | .finished i => s.turn i .finished
  | .dropped i => s.turn i (.turn .dropped)
  | .aborted i => s.aborted i
  | .garbageCollectPeers now => do
    let state ← lift (s.state.step (.garbageCollectPeers now))
    return { s with state }
  | .rehash es => do
    let state ← lift (s.state.step (.rehash es))
    return { s with state }

end Threads

def step (C : Codec) (s : Dht) (a : Action) : Except Halt Dht :=
  if s.Waits (s.thread a) then s.perform C a else .error .blocked

abbrev Step (C : Codec) : Dht → Action → Dht → Prop := Graph (step C)

end Dht
end LibrtbitDht
