import LibrtbitDht.JsonValue
import LibrtbitDht.PeerStore
import LibrtbitDht.RoutingTable

set_option autoImplicit false

/-!
# What is saved and how it is read back

Identifiers, addresses and times are written as texts whose functions belong to
other crates; they are parameters. One reading of the clock stands for all that a
serialisation makes: what it writes from them is never read back.
-/
namespace LibrtbitDht
open JsonValue

structure TextFormats where
  idText : Id20 → String
  parseId : String → Option Id20
  addrText : SocketAddr → String
  parseAddr : String → Option SocketAddr
  timeText : DateTime → String
  parseTime : String → Option DateTime
  elapsedText : Duration → String

namespace TextFormats
variable (F : TextFormats)

def ReadsId (id : Id20) : Prop := F.parseId (F.idText id) = some id

def ReadsAddr (addr : SocketAddr) : Prop := F.parseAddr (F.addrText addr) = some addr.withoutFlowinfo

def ReadsTime (time : DateTime) : Prop := F.parseTime (F.timeText time) = some time

instance (id : Id20) : Decidable (F.ReadsId id) := inferInstanceAs (Decidable (_ = _))

instance (addr : SocketAddr) : Decidable (F.ReadsAddr addr) := inferInstanceAs (Decidable (_ = _))

instance (time : DateTime) : Decidable (F.ReadsTime time) := inferInstanceAs (Decidable (_ = _))

end TextFormats

def serializeId20 (F : TextFormats) (id : Id20) : Json := .str (F.idText id)

def serializeAddr (F : TextFormats) (addr : SocketAddr) : Json := .str (F.addrText addr)

def serializeTime (F : TextFormats) (time : DateTime) : Json := .str (F.timeText time)

def serializeDuration (d : Duration) : Json :=
  .obj [("secs", .num (d / 1000000000)), ("nanos", .num (d % 1000000000))]

def ago (now : Instant) (name : String) (last : Option Instant) : List (String × Json) :=
  match last with
  | some l => [(name, serializeDuration (now - l))]
  | none => []

section RoutingTable

def NodeStatus.toJson : NodeStatus → Json
  | .good => .str "Good"
  | .questionable => .str "Questionable"
  | .bad => .str "Bad"
  | .unknown => .str "Unknown"

def RoutingTableNode.toJson (F : TextFormats) (now : Instant) (n : RoutingTableNode) : Json :=
  .obj ([("id", serializeId20 F n.id), ("addr", serializeAddr F n.addr), ("status", (n.status now).toJson)]
    ++ (ago now "last_request_ago" n.lastRequest ++ (ago now "last_response_ago" n.lastResponse
    ++ (ago now "last_query_ago" n.lastQuery ++ [("errors_in_a_row", .num n.errorsInARow)]))))

def RoutingTableNode.ofJson (F : TextFormats) : Reader RoutingTableNode := fun j => do
  let id ← field "id" (text F.parseId) j
  let addr ← field "addr" (text F.parseAddr) j
  return {
    id
    addr
    lastRequest := none
    lastResponse := none
    lastQuery := none
    errorsInARow := 0 }

def LeafBucket.toJson (F : TextFormats) (now : Instant) (b : LeafBucket) : Json :=
  .obj [("nodes", .arr (b.nodes.map (RoutingTableNode.toJson F now))),
    ("last_refreshed", .str (F.elapsedText (now - b.lastRefreshed)))]

def LeafBucket.ofJson (F : TextFormats) (clock : Instant) : Reader LeafBucket := fun j => do
  let nodes ← field "nodes" (array (fun _ => RoutingTableNode.ofJson F)) j
  return ⟨nodes, clock⟩

def BucketTreeNodeData.toJson (F : TextFormats) (now : Instant) : BucketTreeNodeData → Json
  | .leaf bucket => .obj [("Leaf", bucket.toJson F now)]
  | .leftRight left right => .obj [("LeftRight", .arr [.num left, .num right])]

def readPair : Reader (ℕ × ℕ) := fun j => do
  match ← array (fun _ => nat) j with
  | [left, right] => some (left, right)
  | _ => none

def BucketTreeNodeData.ofJson (F : TextFormats) (clock : Instant) : Reader BucketTreeNodeData := fun j => do
  let (tag, value) ← variant j
  if tag = "Leaf" then
    let bucket ← LeafBucket.ofJson F clock value
    return .leaf bucket
  else if tag = "LeftRight" then
    let (left, right) ← readPair value
    return .leftRight left right
  else none

def BucketTreeNode.toJson (F : TextFormats) (now : Instant) (n : BucketTreeNode) : Json :=
  .obj [("bits", .num n.bits), ("start", serializeId20 F n.start),
    ("end_inclusive", serializeId20 F n.endInclusive), ("data", n.data.toJson F now)]

def BucketTreeNode.ofJson (F : TextFormats) (clock : Instant) : Reader BucketTreeNode := fun j => do
  let bits ← field "bits" (uint 8) j
  let start ← field "start" (text F.parseId) j
  let endInclusive ← field "end_inclusive" (text F.parseId) j
  let data ← field "data" (BucketTreeNodeData.ofJson F clock) j
  return { bits := bits.toNat, start, endInclusive, data }

def BucketTree.toJson (F : TextFormats) (now : Instant) (t : BucketTree) : Json :=
  .obj [("data", .arr (t.data.map (BucketTreeNode.toJson F now))), ("size", .num t.size),
    ("max_size", .num t.maxSize)]

/-- The bucket of the node at index `i` reads the clock as `clock i`. -/
def BucketTree.ofJson (F : TextFormats) (clock : ℕ → Instant) : Reader BucketTree := fun j => do
  let data ← field "data" (array (fun i => BucketTreeNode.ofJson F (clock i))) j
  let size ← field "size" nat j
  let maxSize ← field "max_size" nat j
  return { data, size, maxSize }

def RoutingTable.toJson (F : TextFormats) (now : Instant) (rt : RoutingTable) : Json :=
  .obj [("id", serializeId20 F rt.id), ("size", .num rt.size), ("buckets", rt.buckets.toJson F now)]

def RoutingTable.ofJson (F : TextFormats) (clock : ℕ → Instant) : Reader RoutingTable := fun j => do
  let id ← field "id" (text F.parseId) j
  let size ← field "size" nat j
  let buckets ← field "buckets" (BucketTree.ofJson F clock) j
  return { id, size, buckets }

end RoutingTable

section PeerStore

def serializeToken (token : Token) : Json := .arr (token.toList.map (fun b => .num b.toNat))

def readToken : Reader Token := fun j => do
  let bytes ← array (fun _ => uint 8) j
  let bytes := bytes.map UInt8.ofBitVec
  if h : bytes.length = 4 then some ⟨bytes.toArray, h⟩ else none

def StoredToken.toJson (F : TextFormats) (t : StoredToken) : Json :=
  .obj [("token", serializeToken t.token), ("node_id", serializeId20 F t.nodeId),
    ("addr", serializeAddr F t.addr), ("time", serializeTime F t.time)]

def StoredToken.ofJson (F : TextFormats) (now : DateTime) : Reader StoredToken := fun j => do
  let token ← field "token" readToken j
  let nodeId ← field "node_id" (text F.parseId) j
  let addr ← field "addr" (text F.parseAddr) j
  let time ← fieldOr now "time" (text F.parseTime) j
  return { token, nodeId, addr, time }

def StoredPeer.toJson (F : TextFormats) (p : StoredPeer) : Json :=
  .obj [("addr", serializeAddr F p.addr), ("time", serializeTime F p.time)]

def StoredPeer.ofJson (F : TextFormats) : Reader StoredPeer := fun j => do
  let addr ← field "addr" (text F.parseAddr) j
  let time ← field "time" (text F.parseTime) j
  return { addr, time }

def serializePeers (F : TextFormats) (peers : Peers) : Json :=
  .obj (peers.entries.map (fun e => (F.idText e.1, .arr (e.2.map (StoredPeer.toJson F)))))

def readPeers (F : TextFormats) : Reader Peers := map F.parseId (array (fun _ => StoredPeer.ofJson F))

def PeerStore.toJson (F : TextFormats) (s : PeerStore) : Json :=
  .obj [("self_id", serializeId20 F s.selfId),
    ("max_remembered_tokens", .num s.maxRememberedTokens.toNat),
    ("max_remembered_peers", .num s.maxRememberedPeers.toNat),
    ("max_distance", serializeId20 F s.maxDistance),
    ("tokens", .arr (s.tokens.map (StoredToken.toJson F))),
    ("peers", serializePeers F s.peers),
    ("peers_len", .num s.peersLen.toNat)]

def PeerStore.ofJson (F : TextFormats) (now : ℕ → DateTime) : Reader PeerStore := fun j => do
  let selfId ← field "self_id" (text F.parseId) j
  let maxRememberedTokens ← field "max_remembered_tokens" (uint 32) j
  let maxRememberedPeers ← field "max_remembered_peers" (uint 32) j
  let maxDistance ← field "max_distance" (text F.parseId) j
  let tokens ← field "tokens" (array (fun i => StoredToken.ofJson F (now i))) j
  let peers ← field "peers" (readPeers F) j
  return .ofSaved selfId maxRememberedTokens maxRememberedPeers maxDistance tokens peers

end PeerStore

/-- The record that is written to the file and read from it. -/
structure DhtSerialize (Table Store : Type) where
  addr : SocketAddr
  table : Table
  tableV6 : Option Table
  peerStore : Option Store

def optionToJson {α : Type} (write : α → Json) : Option α → Json
  | some a => write a
  | none => .null

def DhtSerialize.toJson (F : TextFormats) (now : Instant) (r : DhtSerialize RoutingTable PeerStore) : Json :=
  .obj [("addr", serializeAddr F r.addr), ("table", r.table.toJson F now),
    ("table_v6", optionToJson (RoutingTable.toJson F now) r.tableV6),
    ("peer_store", optionToJson (PeerStore.toJson F) r.peerStore)]

def DhtSerialize.ofJson (F : TextFormats) (clock clockV6 : ℕ → Instant) (now : ℕ → DateTime) :
    Reader (DhtSerialize RoutingTable PeerStore) := fun j => do
  let addr ← field "addr" (text F.parseAddr) j
  let table ← field "table" (RoutingTable.ofJson F clock) j
  let tableV6 ← optionField "table_v6" (RoutingTable.ofJson F clockV6) j
  let peerStore ← optionField "peer_store" (PeerStore.ofJson F now) j
  return { addr, table, tableV6, peerStore }

end LibrtbitDht
