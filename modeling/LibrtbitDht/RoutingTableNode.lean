import LibrtbitDht.Id20
import LibrtbitDht.SocketAddr

set_option autoImplicit false

/-!
# Entries of a routing table

Instants are readings of the monotonic clock in nanoseconds; their difference
saturates at zero, as it does for `Instant`.
-/
namespace LibrtbitDht

abbrev Instant := ℕ

abbrev Duration := ℕ

def inactivityTimeout : Duration := 15 * 60 * 1000000000

structure RoutingTableNode where
  id : Id20
  addr : SocketAddr
  lastRequest : Option Instant
  lastResponse : Option Instant
  lastQuery : Option Instant
  errorsInARow : ℕ
deriving DecidableEq, Repr

inductive NodeStatus where
  | good
  | questionable
  | bad
  | unknown
deriving DecidableEq, Repr

def recent (now last : Instant) : Bool := now - last < inactivityTimeout

def stale (now last : Instant) : Bool := now - last > inactivityTimeout

namespace RoutingTableNode

/-- The entry that an insertion creates. -/
def fresh (id : Id20) (addr : SocketAddr) : RoutingTableNode where
  id
  addr
  lastRequest := none
  lastResponse := none
  lastQuery := none
  errorsInARow := 0

def status (n : RoutingTableNode) (now : Instant) : NodeStatus :=
  if n.lastRequest.isSome && decide (2 ≤ n.errorsInARow) then .bad
  -- an arm with two patterns tries its guard on the first before it turns to the second
  else if n.lastRequest.isSome && n.lastResponse.any (recent now) then .good
  else if n.lastRequest.isSome && n.lastResponse.isSome && n.lastQuery.any (recent now) then .good
  else if n.lastQuery.any (stale now) && n.lastRequest.all (stale now) then .questionable
  else if n.lastResponse.any (stale now) && n.lastRequest.all (stale now) then .questionable
  else .unknown

def isBad (n : RoutingTableNode) (now : Instant) : Bool := n.status now = .bad

def markOutgoingRequest (now : Instant) (n : RoutingTableNode) : RoutingTableNode :=
  { n with lastRequest := some now }

def markLastQuery (now : Instant) (n : RoutingTableNode) : RoutingTableNode :=
  { n with lastQuery := some now }

def markResponse (now : Instant) (n : RoutingTableNode) : RoutingTableNode :=
  { n with
    lastResponse := some now
    lastRequest := if n.lastRequest.isNone then some now else n.lastRequest
    errorsInARow := 0 }

def markError (n : RoutingTableNode) : RoutingTableNode :=
  { n with errorsInARow := n.errorsInARow + 1 }

theorem isBad_iff (n : RoutingTableNode) (now : Instant) :
    n.isBad now = true ↔ n.lastRequest.isSome ∧ 2 ≤ n.errorsInARow := by
  rw [isBad, decide_eq_true_iff, status]
  split_ifs with h <;> simp_all

@[simp] theorem fresh_id (id : Id20) (addr : SocketAddr) : (fresh id addr).id = id := rfl
@[simp] theorem fresh_addr (id : Id20) (addr : SocketAddr) : (fresh id addr).addr = addr := rfl

end RoutingTableNode
end LibrtbitDht
