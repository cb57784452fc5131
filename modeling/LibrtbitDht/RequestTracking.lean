import LibrtbitDht.AssocMap
import LibrtbitDht.SocketAddr
import LibrtbitDht.TransitionRuns

set_option autoImplicit false

/-!
# Requests in flight

The calls of `create_request` are numbered, and a number also names the request that
waits for the reply. The map holds the sending half of the channel to that request.
An action that cannot happen in a state leaves it as it is. `created` and `completed`
record what happened; nothing reads them.
-/
namespace LibrtbitDht

abbrev TransactionId := BitVec 16

abbrev RequestKey := TransactionId × SocketAddr

inductive Outcome where
  | replied (tid : TransactionId) (addr : SocketAddr)
  | sendError
  | timeout
  | dhtDead
deriving DecidableEq, Repr

structure Waiting where
  num : ℕ
  key : RequestKey
deriving DecidableEq, Repr

/-- A message for the writer, with the call that created it if it is one of ours. -/
structure WorkerSendRequest where
  ourTid : Option TransactionId
  addr : SocketAddr
  item : Option ℕ
deriving DecidableEq, Repr

structure RequestTracking where
  nextTransactionId : TransactionId
  inflight : AssocMap RequestKey ℕ
  waiting : List Waiting
  queue : List WorkerSendRequest
  workerOpen : Bool
  created : ℕ
  completed : List (ℕ × Outcome)
deriving DecidableEq, Repr

def getOurTransactionId : List UInt8 → Option TransactionId
  | [hi, lo] => some ((hi.toBitVec.setWidth 16 <<< 8) + lo.toBitVec.setWidth 16)
  | _ => none

namespace RequestTracking

def new : RequestTracking where
  nextTransactionId := 0
  inflight := .empty
  waiting := []
  queue := []
  workerOpen := true
  created := 0
  completed := []

def createRequest (s : RequestTracking) : TransactionId × RequestTracking :=
  (s.nextTransactionId, { s with
    nextTransactionId := s.nextTransactionId + 1
    created := s.created + 1 })

/-- `request` up to the point where it waits; a closed channel ends it at once. -/
def request (s : RequestTracking) (addr : SocketAddr) : RequestTracking :=
  let num := s.created
  let (tid, s) := s.createRequest
  let key := (tid, addr)
  let s := { s with inflight := s.inflight.insert key num }
  if s.workerOpen then { s with
    queue := s.queue ++ [⟨some tid, addr, some num⟩]
    waiting := s.waiting ++ [⟨num, key⟩] }
  else { s with
    inflight := s.inflight.remove key
    completed := s.completed ++ [(num, .dhtDead)] }

/-- An announcement takes a transaction id, but nobody waits for its reply. -/
def announce (s : RequestTracking) (addr : SocketAddr) : RequestTracking :=
  let num := s.created
  let (tid, s) := s.createRequest
  if s.workerOpen then { s with queue := s.queue ++ [⟨some tid, addr, some num⟩] } else s

/-- The answer to a query of somebody else is queued under its own transaction id. -/
def respond (s : RequestTracking) (addr : SocketAddr) : RequestTracking :=
  if s.workerOpen then { s with queue := s.queue ++ [⟨none, addr, none⟩] } else s

def complete (s : RequestTracking) (num : ℕ) (outcome : Outcome) : RequestTracking :=
  if s.waiting.any (fun w => w.num = num) then { s with
    waiting := s.waiting.filter (fun w => w.num ≠ num)
    completed := s.completed ++ [(num, outcome)] }
  else s

/-- Takes the sender out of the map, if there is one, and sends the outcome to its request. -/
def finish (s : RequestTracking) (key : RequestKey) (outcome : Outcome) : RequestTracking :=
  match s.inflight.get? key with
  | none => s
  | some num => { s with inflight := s.inflight.remove key }.complete num outcome

def onReceivedMessage (s : RequestTracking) (transactionId : List UInt8) (addr : SocketAddr) :
    RequestTracking :=
  match getOurTransactionId transactionId with
  | none => s
  | some tid => s.finish (tid, addr) (.replied tid addr)

def onSendError (s : RequestTracking) (tid : TransactionId) (addr : SocketAddr) : RequestTracking :=
  s.finish (tid, addr) .sendError

def writer (s : RequestTracking) (failed : Bool) : RequestTracking :=
  match s.queue with
  | [] => s
  | msg :: queue =>
    let s := { s with queue }
    if failed then
      match msg.ourTid with
      | some tid => s.onSendError tid msg.addr
      | none => s
    else s

/-- The request gives up: it removes whatever is stored under its key, and returns. -/
def giveUp (s : RequestTracking) (w : Waiting) (outcome : Outcome) : RequestTracking :=
  { s with inflight := s.inflight.remove w.key }.complete w.num outcome

def timeout (s : RequestTracking) (num : ℕ) : RequestTracking :=
  match s.waiting.find? (fun w => w.num = num) with
  | some w => s.giveUp w .timeout
  | none => s

/-- The sender of a waiting request is gone when the map no longer holds it. -/
def senderDropped (s : RequestTracking) (num : ℕ) : RequestTracking :=
  match s.waiting.find? (fun w => w.num = num) with
  | some w => if s.inflight.get? w.key = some num then s else s.giveUp w .dhtDead
  | none => s

def cancel (s : RequestTracking) (num : ℕ) : RequestTracking :=
  { s with waiting := s.waiting.filter (fun w => w.num ≠ num) }

/-- The receiving half of the writer's channel is dropped with all messages in it. -/
def closeWorker (s : RequestTracking) : RequestTracking := { s with workerOpen := false, queue := [] }

def outstandingRequests (s : RequestTracking) : ℕ := s.inflight.len

inductive Action where
  | request (addr : SocketAddr)
  | announce (addr : SocketAddr)
  | respond (addr : SocketAddr)
  | receive (transactionId : List UInt8) (addr : SocketAddr)
  | writer (failed : Bool)
  | timeout (num : ℕ)
  | senderDropped (num : ℕ)
  | cancel (num : ℕ)
  | closeWorker
deriving DecidableEq, Repr

def step (s : RequestTracking) : Action → RequestTracking
  | .request addr => s.request addr
  | .announce addr => s.announce addr
  | .respond addr => s.respond addr
  | .receive transactionId addr => s.onReceivedMessage transactionId addr
  | .writer failed => s.writer failed
  | .timeout num => s.timeout num
  | .senderDropped num => s.senderDropped num
  | .cancel num => s.cancel num
  | .closeWorker => s.closeWorker

def run (actions : List Action) : RequestTracking := actions.foldl step new

/-- Every entry of the map belongs to a request that waits with its key. -/
def Owned (s : RequestTracking) : Prop :=
  ∀ key num, s.inflight.get? key = some num → ⟨num, key⟩ ∈ s.waiting

section Ending
variable {s : RequestTracking}

def ends (s : RequestTracking) (w : Waiting) (outcome : Outcome) : RequestTracking :=
  { s with
    inflight := s.inflight.remove w.key
    waiting := s.waiting.filter (fun v => v.num ≠ w.num)
    completed := s.completed ++ [(w.num, outcome)] }

theorem giveUp_eq {w : Waiting} (hw : w ∈ s.waiting) (outcome : Outcome) :
    s.giveUp w outcome = s.ends w outcome := by
  have hany : s.waiting.any (fun v => v.num = w.num) = true :=
    List.any_eq_true.2 ⟨w, hw, by simp⟩
  unfold giveUp complete
  exact if_pos hany

theorem finish_eq (h : s.Owned) (key : RequestKey) (outcome : Outcome) :
    (s.inflight.get? key = none ∧ s.finish key outcome = s) ∨
      ∃ w ∈ s.waiting, w.key = key ∧ s.finish key outcome = s.ends w outcome := by
  unfold finish
  cases hget : s.inflight.get? key with
  | none => exact .inl ⟨rfl, rfl⟩
  | some num =>
    have hw := h key num hget
    exact .inr ⟨⟨num, key⟩, hw, rfl, giveUp_eq hw outcome⟩

theorem mem_ends_waiting {v w : Waiting} {outcome : Outcome} :
    v ∈ (s.ends w outcome).waiting ↔ v ∈ s.waiting ∧ v.num ≠ w.num := by
  unfold ends
  simp

end Ending
end RequestTracking

end LibrtbitDht
