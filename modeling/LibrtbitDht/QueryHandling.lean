import LibrtbitDht.AnnounceAuthorisation
import LibrtbitDht.Message
import LibrtbitDht.Persistence

set_option autoImplicit false

/-!
# Queries and their replies

A reply to one of our own requests changes nothing here: the request that waits for it
is no part of this state. The clocks and the random generator are read once for each use.
-/
namespace LibrtbitDht
open TransitionRuns
open ByteStrings (Bytes wordBytes)

section Requests

inductive Request where
  | getPeers (infoHash : Id20)
  | findNode (target : Id20)
  | announce (infoHash : Id20) (token : Bytes) (port : BitVec 16)
  | ping
deriving DecidableEq, Repr

def wantFor (addr : SocketAddr) : Want := if addr.isIpv6 then .v6 else .v4

/-- The message that node `id` sends to `addr` under the given transaction. -/
def createRequest (id : Id20) (transactionId : BitVec 16) (request : Request) (addr : SocketAddr) : Message where
  transactionId := wordBytes 2 transactionId
  version := none
  ip := none
  kind :=
    match request with
    | .getPeers infoHash => .getPeersRequest ⟨id, infoHash, some (wantFor addr)⟩
    | .findNode target => .findNodeRequest ⟨id, target, some (wantFor addr)⟩
    | .ping => .pingRequest ⟨id⟩
    | .announce infoHash token port => .announcePeer ⟨id, 0, infoHash, port, token⟩

end Requests

section Nodes

def statusRank : NodeStatus → ℕ
  | .good => 0
  | .questionable => 1
  | .unknown => 2
  | .bad => 3

def distanceKey (id : Id20) (now : Instant) (n : RoutingTableNode) : ℕ ×ₗ ℕ :=
  toLex (statusRank (n.status now), (id.distance n.id).toNat)

def RoutingTable.sortedByDistanceFrom (rt : RoutingTable) (id : Id20) (now : Instant) :
    Except Fault (List RoutingTableNode) := do
  let nodes ← rt.iter
  return nodes.insertionSort (fun a b => distanceKey id now a ≤ distanceKey id now b)

def SocketAddr.toV4 : SocketAddr → Option SocketAddrV4
  | .v4 a => some a
  | .v6 _ => none

def SocketAddr.toV6 : SocketAddr → Option SocketAddrV6
  | .v4 _ => none
  | .v6 a => some a

def generateCompactNodes {A : Type} (fromSocketAddr : SocketAddr → Option A) (target : Id20) (table : RoutingTable)
    (now : Instant) : Except Fault (List (Node A)) := do
  let nodes ← table.sortedByDistanceFrom target now
  return (nodes.filterMap (fun r => (fromSocketAddr r.addr).map (fun addr => ⟨r.id, addr⟩))).take 8

end Nodes

/-- What the handling of one message reads of the clocks and the random generator. -/
structure Readings where
  nodesNow : Instant
  queryNow : Instant
  utcNow : DateTime
  token : Token
deriving DecidableEq, Repr

namespace DhtState
variable (s : DhtState)

section Handling

def generateCompactNodesBoth (target : Id20) (want : Want) (now : Instant) :
    Except Fault (Option (List (Node SocketAddrV4)) × Option (List (Node SocketAddrV6))) :=
  match want with
  | .v4 => do
    let nodes ← generateCompactNodes SocketAddr.toV4 target s.routingTableV4 now
    return (some nodes, none)
  | .v6 => do
    let nodes6 ← generateCompactNodes SocketAddr.toV6 target s.routingTableV6 now
    return (none, some nodes6)
  | .both => do
    let nodes ← generateCompactNodes SocketAddr.toV4 target s.routingTableV4 now
    let nodes6 ← generateCompactNodes SocketAddr.toV6 target s.routingTableV6 now
    return (some nodes, some nodes6)
  | .none => return (none, none)

/-- The mark that a query leaves in the table of the sender's family. -/
def markLastQuery (addr : SocketAddr) (id : Id20) (now : Instant) : Except Fault DhtState :=
  if addr.isIpv4 then do
    let (_, routingTableV4) ← s.routingTableV4.markLastQuery id now
    return { s with routingTableV4 }
  else do
    let (_, routingTableV6) ← s.routingTableV6.markLastQuery id now
    return { s with routingTableV6 }

def defaultResponse (id : Id20) : Response where
  values := none
  id
  nodes := none
  nodes6 := none
  token := none
  v := none
  k := none
  sig := none
  seq := none

def reply (msg : Message) (addr : SocketAddr) (resp : Response) : Message where
  kind := .response resp
  transactionId := msg.transactionId
  version := none
  ip := some addr

/-- The message that is sent back, if any, and the state afterwards. -/
def onReceivedMessage (r : Readings) (msg : Message) (addr : SocketAddr) : Except Fault (Option Message × DhtState) :=
  match msg.kind with
  | .error _ | .response _ => return (none, s)
  | .pingRequest req => do
    let s' ← s.markLastQuery addr req.id r.queryNow
    return (some (reply msg addr (defaultResponse s.id)), s')
  | .announcePeer ann => do
    let s' ← s.markLastQuery addr ann.id r.queryNow
    let (_, peerStore) := s'.peerStore.storePeer ann addr r.utcNow
    return (some (reply msg addr (defaultResponse s.id)), { s' with peerStore })
  | .getPeersRequest req => do
    let want := req.want.getD (wantFor addr)
    let (nodes, nodes6) ← s.generateCompactNodesBoth req.infoHash want r.nodesNow
    let compactPeerInfo := s.peerStore.getForInfoHash req.infoHash want
    let s' ← s.markLastQuery addr req.id r.queryNow
    let (token, peerStore) := s'.peerStore.genTokenFor r.token req.id addr r.utcNow
    return (some (reply msg addr { defaultResponse s.id with
      nodes
      nodes6
      values := some compactPeerInfo
      token := some token.toList }), { s' with peerStore })
  | .findNodeRequest req => do
    let want := req.want.getD (wantFor addr)
    let (nodes, nodes6) ← s.generateCompactNodesBoth req.target want r.nodesNow
    let s' ← s.markLastQuery addr req.id r.queryNow
    return (some (reply msg addr { defaultResponse s.id with
      nodes
      nodes6 }), s')
  | .bep44GetRequest req => do
    let (nodes, nodes6) ← s.generateCompactNodesBoth req.target .both r.nodesNow
    let s' ← s.markLastQuery addr req.id r.queryNow
    let (token, peerStore) := s'.peerStore.genTokenFor r.token req.id addr r.utcNow
    return (some (reply msg addr { defaultResponse s.id with
      nodes
      nodes6
      token := some token.toList }), { s' with peerStore })
  | .bep44PutRequest req => do
    let s' ← s.markLastQuery addr req.id r.queryNow
    return (some (reply msg addr (defaultResponse s.id)), s')

end Handling

/-- What changes a node: messages, its own lookups and pings, the garbage collection. -/
inductive Event where
  | received (r : Readings) (msg : Message) (addr : SocketAddr)
  | tableV4 (op : RoutingTable.Op)
  | tableV6 (op : RoutingTable.Op)
  | garbageCollectPeers (now : DateTime)
  | rehash (es : List (Id20 × List StoredPeer))

def step : Event → Except Fault DhtState
  | .received r msg addr => (s.onReceivedMessage r msg addr).map Prod.snd
  | .tableV4 op => (s.routingTableV4.step op).map (fun routingTableV4 => { s with routingTableV4 })
  | .tableV6 op => (s.routingTableV6.step op).map (fun routingTableV6 => { s with routingTableV6 })
  | .garbageCollectPeers now => return { s with peerStore := s.peerStore.garbageCollectPeers now }
  | .rehash es => return { s with peerStore := s.peerStore.rehash es }

abbrev Step : DhtState → Event → DhtState → Prop := TransitionRuns.Graph step

def start (env : Persistence.Environment) (id : Id20) (listenAddr : SocketAddr) : DhtState :=
  Persistence.newInternal env id none none listenAddr (.new id)

end DhtState
end LibrtbitDht
