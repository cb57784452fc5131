import LibrtbitDht.ClosestNodes
import LibrtbitDht.FindNodeRuns

set_option autoImplicit false

/-!
# The loop of a get_peers lookup

A stream of peers has one such loop for each family. Round after round, the looper queues the
best nodes of the routing table; the loop takes a queued node, a reply or a round, whichever
is ready. A dropped stream has no receiver any more, and both of its loops are told to stop.
`sent` records what was queued.
-/
namespace LibrtbitDht
open TransitionRuns

def requeryInterval : Duration := seconds 60

/-- `get_peers_root`: the nodes that a round queues. -/
def RecursiveRequest.getPeersRoot (s : RecursiveRequest) (table : RoutingTable) (now : Instant) :
    Except Fault (List Visit) := do
  let nodes ← table.sortedByDistanceFrom s.infoHash now
  return (nodes.map (fun n => ⟨some n.id, n.addr, 0⟩)).take 8

/-- How long the looper sleeps after a round that queued `n` nodes. -/
def looperSleep (n : ℕ) : Duration :=
  if n = 0 then seconds 1 else if n < 8 then requeryInterval / 8 * n else requeryInterval

structure PeersLookup where
  loop : Lookup
  isV4 : Bool
  /-- When the sleep of the looper ends, once it has started. -/
  wakesAt : Option Instant
  receiver : Bool
  aborted : Bool
  peers : List SocketAddr
  sent : List Visit
deriving DecidableEq

def RequestResult.values : RequestResult → List SocketAddr
  | .ok (.response r) => r.values.getD []
  | _ => []

namespace PeersLookup

inductive Action where
  | round (table : RoutingTable) (now asleep : Instant)
  | recv
  | firstReply (num : ℕ) (reply : RequestResult) (now : Instant)
  | secondReply (num : ℕ) (reply : RequestResult) (now : Instant)
  | dropped
  | aborted

inductive Halt where
  | blocked
  | fault (f : Fault)
deriving DecidableEq

def start (infoHash : Id20) (isV4 : Bool) : PeersLookup where
  loop := { Lookup.empty infoHash with req := .new 4 256 infoHash }
  isV4
  wakesAt := none
  receiver := true
  aborted := false
  peers := []
  sent := []

/-- The looper wakes up at `now` and falls asleep again. -/
def onRound (s : PeersLookup) (roots : List Visit) (asleep : Instant) : PeersLookup :=
  { s with
    loop := { s.loop with queue := s.loop.queue ++ roots }
    wakesAt := some (asleep + looperSleep roots.length)
    sent := s.sent ++ roots }

def onFirstReply (s : PeersLookup) (f : Fut) (reply : RequestResult) (now : Instant) : PeersLookup :=
  { s with loop := s.loop.onFirstReply f reply now }

def onSecondReply (s : PeersLookup) (f : Fut) (reply : RequestResult) (now : Instant) : PeersLookup :=
  let (result, visits, req) := s.loop.req.secondReply s.receiver f.visit.addr f.visit.depth reply now
  { s with
    loop := { s.loop with
      req
      queue := s.loop.queue ++ visits
      futs := s.loop.futs.filter (fun g => g.num ≠ f.num)
      accepted := s.loop.accepted ++ visits
      completed := s.loop.completed ++ [(f.num, result.isOk)] }
    peers := s.peers ++ (if s.receiver then reply.values else [])
    sent := s.sent ++ visits }

/-- A sleep ends no earlier than it was to end, and the clock does not go back. -/
def Awake (s : PeersLookup) (now asleep : Instant) : Prop := (∀ due ∈ s.wakesAt, due ≤ now) ∧ now ≤ asleep

instance (s : PeersLookup) (now asleep : Instant) : Decidable (s.Awake now asleep) :=
  inferInstanceAs (Decidable ((∀ due ∈ s.wakesAt, due ≤ now) ∧ now ≤ asleep))

def step (s : PeersLookup) (a : Action) : Except Halt PeersLookup :=
  if s.aborted then .error .blocked
  else
    match a with
    | .round table now asleep =>
      if s.Awake now asleep then
        match s.loop.req.getPeersRoot table now with
        | .ok roots => .ok (s.onRound roots asleep)
        | .error f => .error (.fault f)
      else .error .blocked
    | .recv =>
      match s.loop.queue with
      | visit :: queue => .ok { s with loop := { s.loop with queue }.push visit }
      | [] => .error .blocked
    | .firstReply num reply now =>
      match s.loop.waiting num false with
      | some f => .ok (s.onFirstReply f reply now)
      | none => .error .blocked
    | .secondReply num reply now =>
      match s.loop.waiting num true with
      | some f => .ok (s.onSecondReply f reply now)
      | none => .error .blocked
    | .dropped => if s.receiver then .ok { s with receiver := false } else .error .blocked
    | .aborted => if s.receiver then .error .blocked else .ok { s with aborted := true }

abbrev Step : PeersLookup → Action → PeersLookup → Prop := Graph step

theorem step_cases {s s' : PeersLookup} {a : Action} (h : Step s a s') :
    (∃ table now asleep roots, a = .round table now asleep ∧ s.Awake now asleep ∧
      s.loop.req.getPeersRoot table now = .ok roots ∧ s' = s.onRound roots asleep) ∨
    (∃ visit queue, a = .recv ∧ s.loop.queue = visit :: queue ∧
      s' = { s with loop := { s.loop with queue }.push visit }) ∨
    (∃ f ∈ s.loop.futs, ∃ reply now, a = .firstReply f.num reply now ∧ f.replied = false ∧
      s' = s.onFirstReply f reply now) ∨
    (∃ f ∈ s.loop.futs, ∃ reply now, a = .secondReply f.num reply now ∧ f.replied = true ∧
      s' = s.onSecondReply f reply now) ∨
    (a = .dropped ∧ s.receiver = true ∧ s' = { s with receiver := false }) ∨
    (a = .aborted ∧ s.receiver = false ∧ s.aborted = false ∧ s' = { s with aborted := true }) := by
  have hfound : ∀ {num : ℕ} {replied : Bool} {f : Fut}, s.loop.waiting num replied = some f →
      f ∈ s.loop.futs ∧ f.num = num ∧ f.replied = replied := by
    intro num replied f hf
    have hp := List.find?_some hf
    exact ⟨List.mem_of_find?_eq_some hf, by simpa using hp⟩
  unfold Step TransitionRuns.Graph step at h
  by_cases haborted : s.aborted = true
  · rw [if_pos haborted] at h
    cases h
  rw [if_neg haborted] at h
  cases a with
  | round table now asleep =>
    dsimp only at h
    split_ifs at h with hawake
    cases hroots : s.loop.req.getPeersRoot table now with
    | error f =>
      rw [hroots] at h
      cases h
    | ok roots =>
      rw [hroots] at h
      cases h
      exact .inl ⟨table, now, asleep, roots, rfl, hawake, hroots, rfl⟩
  | recv =>
    cases hqueue : s.loop.queue with
    | nil =>
      simp only [hqueue] at h
      cases h
    | cons visit queue =>
      simp only [hqueue] at h
      cases h
      exact .inr (.inl ⟨visit, queue, rfl, rfl, rfl⟩)
  | firstReply num reply now =>
    cases hwaiting : s.loop.waiting num false with
    | none =>
      simp only [hwaiting] at h
      cases h
    | some f =>
      simp only [hwaiting] at h
      cases h
      obtain ⟨hmem, rfl, hreplied⟩ := hfound hwaiting
      exact .inr (.inr (.inl ⟨f, hmem, reply, now, rfl, hreplied, rfl⟩))
  | secondReply num reply now =>
    cases hwaiting : s.loop.waiting num true with
    | none =>
      simp only [hwaiting] at h
      cases h
    | some f =>
      simp only [hwaiting] at h
      cases h
      obtain ⟨hmem, rfl, hreplied⟩ := hfound hwaiting
      exact .inr (.inr (.inr (.inl ⟨f, hmem, reply, now, rfl, hreplied, rfl⟩)))
  | dropped =>
    dsimp only at h
    split_ifs at h with hreceiver
    cases h
    exact .inr (.inr (.inr (.inr (.inl ⟨rfl, hreceiver, rfl⟩))))
  | aborted =>
    dsimp only at h
    split_ifs at h with hreceiver
    cases h
    exact .inr (.inr (.inr (.inr (.inr ⟨rfl, by simpa using hreceiver, by simpa using haborted, rfl⟩))))

end PeersLookup
end LibrtbitDht
