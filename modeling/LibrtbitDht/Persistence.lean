import LibrtbitDht.SavedState

set_option autoImplicit false

/-!
# Writing the saved file and starting from it

The file is modelled by the JSON value whose text it holds. `DhtState` has the parts
of a node that are saved; a restart sets the others up anew.
-/
namespace LibrtbitDht
open JsonValue

structure DhtState where
  id : Id20
  routingTableV4 : RoutingTable
  routingTableV6 : RoutingTable
  listenAddr : SocketAddr
  peerStore : PeerStore
deriving DecidableEq, Repr

namespace Persistence

def dumpDht (F : TextFormats) (now : Instant) (dht : DhtState) : Json :=
  DhtSerialize.toJson F now {
    addr := dht.listenAddr
    table := dht.routingTableV4
    tableV6 := some dht.routingTableV6
    peerStore := some dht.peerStore }

structure PersistentDhtConfig where
  port : Option (BitVec 16) := none
  ipv4Only : Bool := false

inductive SavedFile where
  | missing
  | unreadable
  | undecodable
  | content (value : Json)

inductive CreateError where
  | prepare
  | read
  | bind
deriving DecidableEq, Repr

/-- What a start takes from outside: whether the file has a name and its directory can
be made, the address a socket gets, a generated identifier and the readings of the clocks. -/
structure Environment where
  prepared : Bool
  bind : SocketAddr → Option SocketAddr
  generatedId : Id20
  clock : ℕ → Instant
  clockV6 : ℕ → Instant
  utcNow : ℕ → DateTime
  newTable : Instant
  newTableV6 : Instant

structure DhtConfig where
  peerId : Option Id20 := none
  routingTable : Option RoutingTable := none
  routingTableV6 : Option RoutingTable := none
  listenAddr : Option SocketAddr := none
  peerStore : Option PeerStore := none

def newInternal (env : Environment) (id : Id20) (routingTableV4 routingTableV6 : Option RoutingTable)
    (listenAddr : SocketAddr) (peerStore : PeerStore) : DhtState where
  id
  routingTableV4 := routingTableV4.getD (.new id none env.newTable)
  routingTableV6 := routingTableV6.getD (.new id none env.newTableV6)
  listenAddr
  peerStore

def unspecifiedV6 (port : BitVec 16) : SocketAddr := .v6 ⟨0, port, 0, 0⟩

def withConfig (env : Environment) (config : DhtConfig) : Except CreateError DhtState :=
  let addr := config.listenAddr.getD (unspecifiedV6 0)
  match env.bind addr with
  | none => .error .bind
  | some listenAddr =>
    let peerId := config.peerId.getD env.generatedId
    .ok (newInternal env peerId config.routingTable config.routingTableV6 listenAddr
      (config.peerStore.getD (.new peerId)))

def patchAddr (config : PersistentDhtConfig) (addr : SocketAddr) : SocketAddr :=
  if config.ipv4Only then .v4 ⟨0, addr.port⟩
  else if addr.ip = .v4 0 then unspecifiedV6 addr.port
  else addr

def load (F : TextFormats) (env : Environment) (config : PersistentDhtConfig) :
    SavedFile → Except CreateError (Option (DhtSerialize RoutingTable PeerStore))
  | .missing => .ok none
  | .unreadable => .error .read
  | .undecodable => .ok none
  | .content value =>
    match DhtSerialize.ofJson F env.clock env.clockV6 env.utcNow value with
    | some r => .ok (some { r with addr := patchAddr config r.addr })
    | none => .ok none

def overridePort (config : PersistentDhtConfig) (listenAddr : Option SocketAddr) : Option SocketAddr :=
  match config.port with
  | some port =>
    match listenAddr with
    | some addr => some (addr.setPort port)
    | none => some (unspecifiedV6 port)
  | none => listenAddr

def create (F : TextFormats) (env : Environment) (config : PersistentDhtConfig) (file : SavedFile) :
    Except CreateError DhtState := do
  if !env.prepared then throw .prepare
  let de ← load F env config file
  let (listenAddr, routingTable, peerStore) := match de with
    | some de => (some de.addr, some de.table, de.peerStore)
    | none => (none, none, none)
  let listenAddr := overridePort config listenAddr
  let peerId := routingTable.map RoutingTable.id
  -- the fields that are not named here keep their defaults
  withConfig env { peerId, routingTable, listenAddr, peerStore }

end Persistence

end LibrtbitDht
