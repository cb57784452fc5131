import LibrtbitDht.AssocMap
import LibrtbitDht.FirstMatch
import LibrtbitDht.Id20
import LibrtbitDht.SocketAddr

set_option autoImplicit false

/-!
# The peer store

Times are wall-clock readings in nanoseconds and may go backwards. The counters are
`u32` and wrap. The map is iterated in the order of its entries, which is unspecified
in the source; `rehash` lets it change between any two operations.
-/
namespace LibrtbitDht

abbrev DateTime := ℤ

abbrev TimeDelta := ℤ

def minutes (n : ℕ) : TimeDelta := n * (60 * 1000000000)

abbrev Token := Vector UInt8 4

structure StoredToken where
  token : Token
  nodeId : Id20
  addr : SocketAddr
  time : DateTime
deriving DecidableEq, Repr

structure StoredPeer where
  addr : SocketAddr
  time : DateTime
deriving DecidableEq, Repr

inductive Want where
  | v4
  | v6
  | both
  | none
deriving DecidableEq, Repr

structure AnnouncePeer where
  id : Id20
  impliedPort : UInt8
  infoHash : Id20
  port : BitVec 16
  token : List UInt8
deriving DecidableEq, Repr

abbrev Peers := AssocMap Id20 (List StoredPeer)

structure PeerStore where
  selfId : Id20
  maxRememberedTokens : BitVec 32
  maxRememberedPeers : BitVec 32
  maxDistance : Id20
  tokens : List StoredToken
  peers : Peers
  peersLen : BitVec 32
deriving DecidableEq, Repr

namespace PeerStore

def maxPeersPerInfoHash : ℕ := 100

def peerTtl : TimeDelta := minutes 15

def tokenTtl : TimeDelta := minutes 10

/-- The lengths of all lists, each cut to 32 bits, summed in 32 bits. -/
def count (peers : Peers) : BitVec 32 := (peers.entries.map (fun e => BitVec.ofNat 32 e.2.length)).sum

def new (selfId : Id20) : PeerStore where
  selfId
  maxRememberedTokens := 1000
  maxRememberedPeers := 1000
  maxDistance := 0x00000fffffffffffffffffffffffffffffffffff
  tokens := []
  peers := .empty
  peersLen := 0

def ofSaved (selfId : Id20) (maxRememberedTokens maxRememberedPeers : BitVec 32) (maxDistance : Id20)
    (tokens : List StoredToken) (peers : Peers) : PeerStore where
  selfId
  maxRememberedTokens
  maxRememberedPeers
  maxDistance
  tokens
  peers
  peersLen := count peers

def genTokenFor (s : PeerStore) (token : Token) (nodeId : Id20) (addr : SocketAddr) (now : DateTime) :
    Token × PeerStore :=
  let tokens := s.tokens ++ [⟨token, nodeId, addr, now⟩]
  let tokens := if tokens.length > s.maxRememberedTokens.toNat then tokens.tail else tokens
  (token, { s with tokens })

/-- The address of the peer that an announcement from `addr` is about. -/
def announcedAddr (announce : AnnouncePeer) (addr : SocketAddr) : SocketAddr :=
  if announce.impliedPort = 0 then addr.setPort announce.port else addr

def storePeer (s : PeerStore) (announce : AnnouncePeer) (addr : SocketAddr) (now : DateTime) :
    Bool × PeerStore :=
  if announce.infoHash.distance s.selfId > s.maxDistance then (false, s)
  else if ¬ s.tokens.any (fun t =>
      t.token.toList = announce.token ∧ t.addr = addr ∧ t.nodeId = announce.id) then (false, s)
  else
    let addr := announcedAddr announce addr
    match s.peers.get? announce.infoHash with
    | some stored =>
      match updateFirst (fun p => p.addr = addr) (fun p => { p with time := now }) stored with
      | some (_, stored) => (true, { s with peers := s.peers.modify announce.infoHash (fun _ => stored) })
      | none =>
        if s.peersLen ≥ s.maxRememberedPeers then (false, s)
        else (true, { s with
          peers := s.peers.modify announce.infoHash (fun stored => stored ++ [⟨addr, now⟩])
          peersLen := s.peersLen + 1 })
    | none =>
      if s.peersLen ≥ s.maxRememberedPeers then (false, s)
      else (true, { s with
        peers := s.peers.insert announce.infoHash [⟨addr, now⟩]
        peersLen := s.peersLen + 1 })

def wanted (want : Want) (addr : SocketAddr) : Bool :=
  match addr, want with
  | .v6 _, .v6 | .v6 _, .both | .v4 _, .v4 | .v4 _, .both => true
  | _, _ => false

def getForInfoHash (s : PeerStore) (infoHash : Id20) (want : Want) : List SocketAddr :=
  match s.peers.get? infoHash with
  | some stored => (stored.filter (fun p => wanted want p.addr)).map StoredPeer.addr
  | none => []

section GarbageCollection

/-- The peers of one info hash that are fresh, or the most recent of them if they are too many. -/
def trim (now : DateTime) (peers : List StoredPeer) : List StoredPeer :=
  let fresh := peers.filter (fun p => p.time > now - peerTtl)
  if fresh.length > maxPeersPerInfoHash then
    (fresh.insertionSort (fun a b => a.time ≥ b.time)).take maxPeersPerInfoHash
  else fresh

def evictFront (toEvict : ℕ) : ℕ → List StoredPeer → ℕ × List StoredPeer
  | evicted, [] => (evicted, [])
  | evicted, p :: ps =>
    if evicted < toEvict then evictFront toEvict (evicted + 1) ps else (evicted, p :: ps)

/-- Empties the info hashes one after the other, each from its oldest peer on. -/
def evictLoop (toEvict : ℕ) : ℕ → List (Id20 × DateTime) → Peers → Peers
  | _, [], peers => peers
  | evicted, (hash, _) :: rest, peers =>
    if evicted ≥ toEvict then peers
    else
      match peers.get? hash with
      | none => evictLoop toEvict evicted rest peers
      | some stored =>
        let (evicted, left) := evictFront toEvict evicted
          (stored.insertionSort (fun a b => a.time ≤ b.time))
        let peers := if left = [] then peers.remove hash else peers.modify hash (fun _ => left)
        evictLoop toEvict evicted rest peers

def oldestTimes (peers : Peers) : List (Id20 × DateTime) :=
  peers.entries.filterMap (fun e => (e.2.map StoredPeer.time).min?.map (fun oldest => (e.1, oldest)))

def evictGlobally (max : BitVec 32) (peers : Peers) : Peers :=
  let actual := count peers
  if actual > max then
    evictLoop (actual - max).toNat 0 ((oldestTimes peers).insertionSort (fun a b => a.2 ≤ b.2)) peers
  else peers

def garbageCollectPeers (s : PeerStore) (now : DateTime) : PeerStore :=
  let tokens := s.tokens.filter (fun t => t.time > now - tokenTtl)
  let peers := s.peers.mapValues (fun _ stored => trim now stored)
  let peers := peers.retain (fun _ stored => stored ≠ [])
  let peers := evictGlobally s.maxRememberedPeers peers
  { s with tokens, peers, peersLen := count peers }

end GarbageCollection

def rehash (s : PeerStore) (es : List (Id20 × List StoredPeer)) : PeerStore :=
  if h : es.Perm s.peers.entries then { s with peers := s.peers.reorder es h } else s

inductive Op where
  | genTokenFor (token : Token) (nodeId : Id20) (addr : SocketAddr) (now : DateTime)
  | storePeer (announce : AnnouncePeer) (addr : SocketAddr) (now : DateTime)
  | getForInfoHash (infoHash : Id20) (want : Want)
  | garbageCollectPeers (now : DateTime)
  | rehash (es : List (Id20 × List StoredPeer))

def step (s : PeerStore) : Op → PeerStore
  | .genTokenFor token nodeId addr now => (s.genTokenFor token nodeId addr now).2
  | .storePeer announce addr now => (s.storePeer announce addr now).2
  | .getForInfoHash _ _ => s
  | .garbageCollectPeers now => s.garbageCollectPeers now
  | .rehash es => s.rehash es

def run (s : PeerStore) (ops : List Op) : PeerStore := ops.foldl step s

end PeerStore
end LibrtbitDht
