import LibrtbitDht.FirstMatch
import LibrtbitDht.Message
import LibrtbitDht.RoutingTableNode

set_option autoImplicit false

namespace LibrtbitDht

def seconds (n : ℕ) : Duration := n * 1000000000

/-- `Duration::MAX`. -/
def durationMax : Duration := seconds (2 ^ 64 - 1) + 999999999

inductive ResponseOrError where
  | response (r : Response)
  | error (e : ErrorDescription)
deriving DecidableEq, Repr

structure MaybeUsefulNode where
  id : Id20
  addr : SocketAddr
  lastRequest : Instant
  lastResponse : Option Instant
  errorsInARow : ℕ
  returnedPeers : Bool
deriving DecidableEq, Repr

structure RecursiveRequest where
  maxDepth : ℕ
  usefulNodesLimit : ℕ
  infoHash : Id20
  usefulNodes : List MaybeUsefulNode
deriving DecidableEq, Repr

def sortKey (infoHash : Id20) (now : Instant) (n : MaybeUsefulNode) : Bool ×ₗ Bool ×ₗ ℕ ×ₗ Duration :=
  toLex (!n.returnedPeers, toLex (n.lastResponse.isNone, toLex ((n.id.distance infoHash).toNat,
    (n.lastResponse.map (fun r => now - r)).getD durationMax)))

namespace RecursiveRequest

def new (maxDepth usefulNodesLimit : ℕ) (infoHash : Id20) : RecursiveRequest where
  maxDepth
  usefulNodesLimit
  infoHash
  usefulNodes := []

/-- Rewrites the first node that satisfies `p`; the answer says whether there is one. -/
def mark (s : RecursiveRequest) (p : MaybeUsefulNode → Bool) (f : MaybeUsefulNode → MaybeUsefulNode) :
    Bool × RecursiveRequest :=
  match updateFirst p f s.usefulNodes with
  | some (_, usefulNodes) => (true, { s with usefulNodes })
  | none => (false, s)

def markNodeError (s : RecursiveRequest) (addr : SocketAddr) : Bool × RecursiveRequest :=
  s.mark (fun n => n.addr = addr) (fun n => { n with errorsInARow := n.errorsInARow + 1 })

def markNodeResponded (s : RecursiveRequest) (addr : SocketAddr) (response : ResponseOrError) (now : Instant) :
    Bool × RecursiveRequest :=
  s.mark (fun n => n.addr = addr) (fun node => { node with
    lastResponse := some now
    errorsInARow := 0
    returnedPeers :=
      match response with
      | .response r => (r.values.map (fun c => !c.isEmpty)).getD false
      | .error _ => false })

def freshNode (nodeId : Id20) (addr : SocketAddr) (now : Instant) : MaybeUsefulNode where
  id := nodeId
  addr
  lastRequest := now
  lastResponse := none
  returnedPeers := false
  errorsInARow := 0

def sorted (s : RecursiveRequest) (nodeId : Id20) (addr : SocketAddr) (now : Instant) : List MaybeUsefulNode :=
  (s.usefulNodes ++ [freshNode nodeId addr now]).insertionSort
    (fun a b => sortKey s.infoHash now a ≤ sortKey s.infoHash now b)

theorem sorted_perm (s : RecursiveRequest) (nodeId : Id20) (addr : SocketAddr) (now : Instant) :
    (s.sorted nodeId addr now).Perm (s.usefulNodes ++ [freshNode nodeId addr now]) :=
  List.perm_insertionSort _ _

theorem sorted_length (s : RecursiveRequest) (nodeId : Id20) (addr : SocketAddr) (now : Instant) :
    (s.sorted nodeId addr now).length = s.usefulNodes.length + 1 := by
  rw [(s.sorted_perm nodeId addr now).length_eq, List.length_append, List.length_singleton]

theorem sorted_ne_nil (s : RecursiveRequest) (nodeId : Id20) (addr : SocketAddr) (now : Instant) :
    s.sorted nodeId addr now ≠ [] := by
  intro h
  have hlen := s.sorted_length nodeId addr now
  rw [h, List.length_nil] at hlen
  omega

/-- The node that an insertion drops, if the list would be too long. -/
def popped (s : RecursiveRequest) (nodeId : Id20) (addr : SocketAddr) (now : Instant) : Option MaybeUsefulNode :=
  if (s.sorted nodeId addr now).length > s.usefulNodesLimit then
    some ((s.sorted nodeId addr now).getLast (s.sorted_ne_nil nodeId addr now))
  else none

def shouldRequestNode (s : RecursiveRequest) (nodeId : Id20) (addr : SocketAddr) (depth : ℕ) (now : Instant) :
    Bool × RecursiveRequest :=
  if depth ≥ s.maxDepth then (false, s)
  else
    match s.usefulNodes.find? (fun n => n.id = nodeId) with
    | some existing =>
      if now - existing.lastRequest > seconds 60 then
        (true, (s.mark (fun n => n.id = nodeId) (fun n => { n with lastRequest := now })).2)
      else (false, s)
    | none =>
      match s.popped nodeId addr now with
      | some popped => (decide (popped.id ≠ nodeId), { s with usefulNodes := (s.sorted nodeId addr now).dropLast })
      | none => (true, { s with usefulNodes := s.sorted nodeId addr now })

section Cases
variable (s : RecursiveRequest)

theorem mark_cases (p : MaybeUsefulNode → Bool) (f : MaybeUsefulNode → MaybeUsefulNode) :
    ((∀ n ∈ s.usefulNodes, p n = false) ∧ (s.mark p f).2 = s) ∨
    ∃ pre a post, s.usefulNodes = pre ++ a :: post ∧ p a = true ∧
      (s.mark p f).2 = { s with usefulNodes := pre ++ f a :: post } := by
  unfold mark
  cases h : updateFirst p f s.usefulNodes with
  | none => exact .inl ⟨updateFirst_eq_none h, rfl⟩
  | some r =>
    obtain ⟨a, nodes⟩ := r
    obtain ⟨pre, post, hold, rfl, hp⟩ := updateFirst_eq_some h
    exact .inr ⟨pre, a, post, hold, hp, rfl⟩

/-- What an insertion does: the list grows, or its worst node is dropped. -/
structure Inserted (nodeId : Id20) (addr : SocketAddr) (now : Instant) (kept : List MaybeUsefulNode)
    (worst : MaybeUsefulNode) : Prop where
  perm : (s.usefulNodes ++ [freshNode nodeId addr now]).Perm (worst :: kept)
  best : ∀ n ∈ kept, sortKey s.infoHash now n ≤ sortKey s.infoHash now worst

theorem sorted_split (nodeId : Id20) (addr : SocketAddr) (now : Instant) :
    s.Inserted nodeId addr now (s.sorted nodeId addr now).dropLast
      ((s.sorted nodeId addr now).getLast (s.sorted_ne_nil nodeId addr now)) := by
  have happend := List.dropLast_append_getLast (s.sorted_ne_nil nodeId addr now)
  have hpairwise := List.pairwise_insertionSort
    (fun a b => sortKey s.infoHash now a ≤ sortKey s.infoHash now b)
    (s.usefulNodes ++ [freshNode nodeId addr now])
  constructor
  · have hperm := (s.sorted_perm nodeId addr now).symm
    rw [← happend] at hperm
    exact hperm.trans List.perm_append_comm
  · intro n hn
    change (s.sorted nodeId addr now).Pairwise _ at hpairwise
    rw [← happend, List.pairwise_append] at hpairwise
    exact hpairwise.2.2 n hn _ (List.mem_singleton_self _)

theorem popped_of_room (hroom : s.usefulNodes.length < s.usefulNodesLimit) (nodeId : Id20) (addr : SocketAddr)
    (now : Instant) : s.popped nodeId addr now = none := by
  have hlen := s.sorted_length nodeId addr now
  exact if_neg (by omega)

theorem shouldRequestNode_cases (nodeId : Id20) (addr : SocketAddr) (depth : ℕ) (now : Instant) :
    ((s.maxDepth ≤ depth ∨ ∃ n ∈ s.usefulNodes, n.id = nodeId) ∧
      s.shouldRequestNode nodeId addr depth now = (false, s)) ∨
    (∃ existing ∈ s.usefulNodes, existing.id = nodeId ∧ now - existing.lastRequest > seconds 60 ∧
      s.shouldRequestNode nodeId addr depth now =
        (true, (s.mark (fun n => n.id = nodeId) (fun n => { n with lastRequest := now })).2)) ∨
    ((∀ n ∈ s.usefulNodes, n.id ≠ nodeId) ∧ ∃ kept worst, s.Inserted nodeId addr now kept worst ∧
      ((s.usefulNodes.length < s.usefulNodesLimit ∧ s.shouldRequestNode nodeId addr depth now =
          (true, { s with usefulNodes := kept ++ [worst] })) ∨
        (s.usefulNodesLimit ≤ s.usefulNodes.length ∧ s.popped nodeId addr now = some worst ∧
          s.shouldRequestNode nodeId addr depth now =
            (decide (worst.id ≠ nodeId), { s with usefulNodes := kept })))) := by
  unfold shouldRequestNode
  by_cases hdepth : depth ≥ s.maxDepth
  · exact .inl ⟨.inl hdepth, if_pos hdepth⟩
  rw [if_neg hdepth]
  cases hfind : s.usefulNodes.find? (fun n => n.id = nodeId) with
  | some existing =>
    have hid : existing.id = nodeId := by simpa using List.find?_some hfind
    by_cases hold : now - existing.lastRequest > seconds 60
    · exact .inr (.inl ⟨existing, List.mem_of_find?_eq_some hfind, hid, hold, if_pos hold⟩)
    · exact .inl ⟨.inr ⟨existing, List.mem_of_find?_eq_some hfind, hid⟩, if_neg hold⟩
  | none =>
    right; right
    have habsent : ∀ n ∈ s.usefulNodes, n.id ≠ nodeId := by
      simpa using List.find?_eq_none.1 hfind
    refine ⟨habsent, _, _, s.sorted_split nodeId addr now, ?_⟩
    have hlen := s.sorted_length nodeId addr now
    by_cases hfull : (s.sorted nodeId addr now).length > s.usefulNodesLimit
    · right
      have hpopped : s.popped nodeId addr now =
          some ((s.sorted nodeId addr now).getLast (s.sorted_ne_nil nodeId addr now)) := if_pos hfull
      exact ⟨by omega, hpopped, by rw [hpopped]⟩
    · left
      have hroom : s.usefulNodes.length < s.usefulNodesLimit := by omega
      exact ⟨hroom, by rw [s.popped_of_room hroom, List.dropLast_append_getLast]⟩

end Cases
end RecursiveRequest
end LibrtbitDht
