import LibrtbitDht.Bencode
import LibrtbitDht.PeerStore

set_option autoImplicit false

/-!
# Messages on the wire

The bencode implementation is a parameter. Compact addresses leave the flow information
and the scope of an IPv6 address out. A field of the type `()` in the source is of the
type `Empty` here: no message has one.
-/
namespace LibrtbitDht
open Bencode
open ByteStrings (Bytes ascii wordBytes readWord records)

section CompactIp

structure Compact (A : Type) where
  asSlice : A → Bytes
  fromSlice : Bytes → Option A
  fixedLen : ℕ

def compactV4 : Compact SocketAddrV4 where
  asSlice := fun a => wordBytes 4 a.ip ++ wordBytes 2 a.port
  fromSlice := fun buf => do
    let ip ← readWord 4 (buf.take 4)
    let port ← readWord 2 (buf.drop 4)
    return { ip, port }
  fixedLen := 6

def compactV6 : Compact SocketAddrV6 where
  asSlice := fun a => wordBytes 16 a.ip ++ wordBytes 2 a.port
  fromSlice := fun buf => do
    let ip ← readWord 16 (buf.take 16)
    let port ← readWord 2 (buf.drop 16)
    return { ip, port, flowinfo := 0, scopeId := 0 }
  fixedLen := 18

def CompactSocketAddr.asSlice : SocketAddr → Bytes
  | .v4 a => compactV4.asSlice a
  | .v6 a => compactV6.asSlice a

def CompactSocketAddr.fromSlice (buf : Bytes) : Option SocketAddr :=
  if buf.length = 6 then (compactV4.fromSlice buf).map .v4
  else if buf.length = 18 then (compactV6.fromSlice buf).map .v6
  else none

structure Node (A : Type) where
  id : Id20
  addr : A
deriving DecidableEq, Repr

def compactNode {A : Type} (len : ℕ) (compact : Compact A) : Compact (Node A) where
  asSlice := fun n => wordBytes 20 n.id ++ compact.asSlice n.addr
  fromSlice := fun buf =>
    if buf.length ≠ len then none
    else do
      let id ← readWord 20 (buf.take 20)
      let addr ← compact.fromSlice (buf.drop 20)
      return ⟨id, addr⟩
  fixedLen := 20 + compact.fixedLen

def nodeV4 : Compact (Node SocketAddrV4) := compactNode 26 compactV4

def nodeV6 : Compact (Node SocketAddrV6) := compactNode 38 compactV6

end CompactIp

section Types

inductive MessageType where
  | request
  | response
  | error
deriving DecidableEq, Repr

structure ErrorDescription where
  code : Int32
  description : Bytes
deriving DecidableEq, Repr

structure FindNodeRequest where
  id : Id20
  target : Id20
  want : Option Want
deriving DecidableEq, Repr

structure Response where
  values : Option (List SocketAddr)
  id : Id20
  nodes : Option (List (Node SocketAddrV4))
  nodes6 : Option (List (Node SocketAddrV6))
  token : Option Bytes
  v : Option Bytes
  k : Option Bytes
  sig : Option Bytes
  seq : Option Int64
deriving DecidableEq, Repr

structure GetPeersRequest where
  id : Id20
  infoHash : Id20
  want : Option Want
deriving DecidableEq, Repr

structure PingRequest where
  id : Id20
deriving DecidableEq, Repr

structure Bep44GetRequest where
  id : Id20
  target : Id20
  seq : Option Int64
deriving DecidableEq, Repr

structure Bep44PutRequest where
  id : Id20
  token : Bytes
  k : Bytes
  sig : Bytes
  seq : Int64
  v : Bytes
  salt : Option Bytes
  cas : Option Int64
deriving DecidableEq, Repr

inductive MessageKind where
  | error (e : ErrorDescription)
  | getPeersRequest (req : GetPeersRequest)
  | findNodeRequest (req : FindNodeRequest)
  | response (resp : Response)
  | pingRequest (req : PingRequest)
  | announcePeer (req : AnnouncePeer)
  | bep44GetRequest (req : Bep44GetRequest)
  | bep44PutRequest (req : Bep44PutRequest)
deriving DecidableEq, Repr

structure Message where
  kind : MessageKind
  transactionId : Bytes
  version : Option Bytes
  ip : Option SocketAddr
deriving DecidableEq, Repr

structure RawMessage (Args Resp : Type) where
  messageType : MessageType
  transactionId : Bytes
  error : Option ErrorDescription
  response : Option Resp
  methodName : Option Bytes
  arguments : Option Args
  version : Option Bytes
  ip : Option SocketAddr

end Types

section Scalars

def serializeId (id : Id20) : BValue := .bytes (wordBytes 20 id)

def readId : Reader Id20 := parsed (readWord 20)

def serializeI64 (n : Int64) : BValue := .int n.toInt

def readI64 : Typed Int64 := (sint 64).map Int64.ofBitVec

def readI32 : Typed Int32 := (sint 32).map Int32.ofBitVec

def readU8 : Typed UInt8 := (uint 8).map UInt8.ofBitVec

def serializeSocketAddr (a : SocketAddr) : BValue := .bytes (CompactSocketAddr.asSlice a)

def readSocketAddr : Reader SocketAddr := parsed CompactSocketAddr.fromSlice

def serializeCompactList {A : Type} (compact : Compact A) (l : List A) : BValue :=
  .bytes (l.flatMap compact.asSlice)

def readCompactList {A : Type} (compact : Compact A) : Reader (List A) :=
  parsed (records compact.fixedLen compact.fromSlice)

def MessageType.toBencode : MessageType → BValue
  | .request => .bytes (ascii "q")
  | .response => .bytes (ascii "r")
  | .error => .bytes (ascii "e")

def MessageType.ofBencode : Reader MessageType := fun v => do
  let b ← bytes v
  if b = ascii "q" then some .request
  else if b = ascii "r" then some .response
  else if b = ascii "e" then some .error
  else none

def ErrorDescription.toBencode (e : ErrorDescription) : BValue :=
  .list [.int e.code.toInt, .bytes e.description]

def ErrorDescription.ofBencode : Reader ErrorDescription
  | .list [code, description] => do
    let code ← readI32.read code
    let description ← bytes description
    return { code, description }
  | _ => none

def ErrorDescription.strays : BValue → Bool
  | .list (code :: _) => readI32.strays code
  | _ => false

def ErrorDescription.typed : Typed ErrorDescription := ⟨ErrorDescription.ofBencode, ErrorDescription.strays⟩

def Want.toBencode : Want → BValue
  | .v4 => .list [.bytes (ascii "n4")]
  | .v6 => .list [.bytes (ascii "n6")]
  | .both => .list [.bytes (ascii "n4"), .bytes (ascii "n6")]
  | .none => .list []

def Want.ofBencode : Reader Want := fun v => do
  let items ← list bytes v
  let wantV4 := items.any (· = ascii "n4")
  let wantV6 := items.any (· = ascii "n6")
  match wantV4, wantV6 with
  | true, true => some .both
  | true, false => some .v4
  | false, true => some .v6
  | false, false => some .none

end Scalars

section Structs

def FindNodeRequest.fields (r : FindNodeRequest) : Fields :=
  [(ascii "id", some (serializeId r.id)), (ascii "target", some (serializeId r.target)),
    (ascii "want", r.want.map Want.toBencode)]

def FindNodeRequest.toBencode (r : FindNodeRequest) : BValue := struct r.fields

def FindNodeRequest.ofBencode : Reader FindNodeRequest := fun v => do
  let id ← field (ascii "id") readId v
  let target ← field (ascii "target") readId v
  let want ← optionField (ascii "want") Want.ofBencode v
  return { id, target, want }

def FindNodeRequest.typed : Typed FindNodeRequest :=
  structType FindNodeRequest.ofBencode
    [(ascii "id", (plain readId).slot), (ascii "target", (plain readId).slot),
      (ascii "want", (plain Want.ofBencode).slot)]

def Response.fields (r : Response) : Fields :=
  [(ascii "values", r.values.map (fun l => .list (l.map serializeSocketAddr))),
    (ascii "id", some (serializeId r.id)),
    (ascii "nodes", r.nodes.map (serializeCompactList nodeV4)),
    (ascii "nodes6", r.nodes6.map (serializeCompactList nodeV6)),
    (ascii "token", r.token.map .bytes), (ascii "v", r.v.map .bytes), (ascii "k", r.k.map .bytes),
    (ascii "sig", r.sig.map .bytes), (ascii "seq", r.seq.map serializeI64)]

def Response.toBencode (r : Response) : BValue := struct r.fields

def Response.ofBencode : Reader Response := fun val => do
  let values ← optionField (ascii "values") (list readSocketAddr) val
  let id ← field (ascii "id") readId val
  let nodes ← optionField (ascii "nodes") (readCompactList nodeV4) val
  let nodes6 ← optionField (ascii "nodes6") (readCompactList nodeV6) val
  let token ← optionField (ascii "token") bytes val
  let v ← optionField (ascii "v") bytes val
  let k ← optionField (ascii "k") bytes val
  let sig ← optionField (ascii "sig") bytes val
  let seq ← optionField (ascii "seq") readI64.read val
  return { values, id, nodes, nodes6, token, v, k, sig, seq }

def Response.typed : Typed Response :=
  structType Response.ofBencode
    [(ascii "values", (plain (list readSocketAddr)).slot), (ascii "id", (plain readId).slot),
      (ascii "nodes", (plain (readCompactList nodeV4)).slot),
      (ascii "nodes6", (plain (readCompactList nodeV6)).slot), (ascii "token", (plain bytes).slot),
      (ascii "v", (plain bytes).slot), (ascii "k", (plain bytes).slot), (ascii "sig", (plain bytes).slot),
      (ascii "seq", readI64.slot)]

def GetPeersRequest.fields (r : GetPeersRequest) : Fields :=
  [(ascii "id", some (serializeId r.id)), (ascii "info_hash", some (serializeId r.infoHash)),
    (ascii "want", r.want.map Want.toBencode)]

def GetPeersRequest.toBencode (r : GetPeersRequest) : BValue := struct r.fields

def GetPeersRequest.ofBencode : Reader GetPeersRequest := fun v => do
  let id ← field (ascii "id") readId v
  let infoHash ← field (ascii "info_hash") readId v
  let want ← optionField (ascii "want") Want.ofBencode v
  return { id, infoHash, want }

def GetPeersRequest.typed : Typed GetPeersRequest :=
  structType GetPeersRequest.ofBencode
    [(ascii "id", (plain readId).slot), (ascii "info_hash", (plain readId).slot),
      (ascii "want", (plain Want.ofBencode).slot)]

def PingRequest.fields (r : PingRequest) : Fields :=
  [(ascii "id", some (serializeId r.id))]

def PingRequest.toBencode (r : PingRequest) : BValue := struct r.fields

def PingRequest.ofBencode : Reader PingRequest := fun v => do
  let id ← field (ascii "id") readId v
  return { id }

def PingRequest.typed : Typed PingRequest :=
  structType PingRequest.ofBencode
    [(ascii "id", (plain readId).slot)]

def AnnouncePeer.fields (r : AnnouncePeer) : Fields :=
  [(ascii "id", some (serializeId r.id)), (ascii "implied_port", some (.int r.impliedPort.toNat)),
    (ascii "info_hash", some (serializeId r.infoHash)), (ascii "port", some (.int r.port.toNat)),
    (ascii "token", some (.bytes r.token))]

def AnnouncePeer.toBencode (r : AnnouncePeer) : BValue := struct r.fields

def AnnouncePeer.ofBencode : Reader AnnouncePeer := fun v => do
  let id ← field (ascii "id") readId v
  let impliedPort ← field (ascii "implied_port") readU8.read v
  let infoHash ← field (ascii "info_hash") readId v
  let port ← field (ascii "port") (uint 16).read v
  let token ← field (ascii "token") bytes v
  return { id, impliedPort, infoHash, port, token }

def AnnouncePeer.typed : Typed AnnouncePeer :=
  structType AnnouncePeer.ofBencode
    [(ascii "id", (plain readId).slot), (ascii "implied_port", readU8.slot),
      (ascii "info_hash", (plain readId).slot), (ascii "port", (uint 16).slot),
      (ascii "token", (plain bytes).slot)]

def Bep44GetRequest.fields (r : Bep44GetRequest) : Fields :=
  [(ascii "id", some (serializeId r.id)), (ascii "target", some (serializeId r.target)),
    (ascii "seq", r.seq.map serializeI64)]

def Bep44GetRequest.toBencode (r : Bep44GetRequest) : BValue := struct r.fields

def Bep44GetRequest.ofBencode : Reader Bep44GetRequest := fun v => do
  let id ← field (ascii "id") readId v
  let target ← field (ascii "target") readId v
  let seq ← optionField (ascii "seq") readI64.read v
  return { id, target, seq }

def Bep44GetRequest.typed : Typed Bep44GetRequest :=
  structType Bep44GetRequest.ofBencode
    [(ascii "id", (plain readId).slot), (ascii "target", (plain readId).slot), (ascii "seq", readI64.slot)]

def Bep44PutRequest.fields (r : Bep44PutRequest) : Fields :=
  [(ascii "id", some (serializeId r.id)), (ascii "token", some (.bytes r.token)),
    (ascii "k", some (.bytes r.k)), (ascii "sig", some (.bytes r.sig)),
    (ascii "seq", some (serializeI64 r.seq)), (ascii "v", some (.bytes r.v)),
    (ascii "salt", r.salt.map .bytes), (ascii "cas", r.cas.map serializeI64)]

def Bep44PutRequest.toBencode (r : Bep44PutRequest) : BValue := struct r.fields

def Bep44PutRequest.ofBencode : Reader Bep44PutRequest := fun val => do
  let id ← field (ascii "id") readId val
  let token ← field (ascii "token") bytes val
  let k ← field (ascii "k") bytes val
  let sig ← field (ascii "sig") bytes val
  let seq ← field (ascii "seq") readI64.read val
  let v ← field (ascii "v") bytes val
  let salt ← optionField (ascii "salt") bytes val
  let cas ← optionField (ascii "cas") readI64.read val
  return { id, token, k, sig, seq, v, salt, cas }

def Bep44PutRequest.typed : Typed Bep44PutRequest :=
  structType Bep44PutRequest.ofBencode
    [(ascii "id", (plain readId).slot), (ascii "token", (plain bytes).slot), (ascii "k", (plain bytes).slot),
      (ascii "sig", (plain bytes).slot), (ascii "seq", readI64.slot), (ascii "v", (plain bytes).slot),
      (ascii "salt", (plain bytes).slot), (ascii "cas", readI64.slot)]

variable {Args Resp : Type}

def RawMessage.fields (args : Args → BValue) (resp : Resp → BValue) (m : RawMessage Args Resp) : Fields :=
  [(ascii "y", some m.messageType.toBencode), (ascii "t", some (.bytes m.transactionId)),
    (ascii "e", m.error.map ErrorDescription.toBencode), (ascii "r", m.response.map resp),
    (ascii "q", m.methodName.map .bytes), (ascii "a", m.arguments.map args),
    (ascii "v", m.version.map .bytes), (ascii "ip", m.ip.map serializeSocketAddr)]

def RawMessage.toBencode (args : Args → BValue) (resp : Resp → BValue) (m : RawMessage Args Resp) : BValue :=
  struct (m.fields args resp)

def RawMessage.ofBencode (args : Reader Args) (resp : Reader Resp) : Reader (RawMessage Args Resp) := fun v => do
  let messageType ← field (ascii "y") MessageType.ofBencode v
  let transactionId ← field (ascii "t") bytes v
  let error ← optionField (ascii "e") ErrorDescription.ofBencode v
  let response ← optionField (ascii "r") resp v
  let methodName ← optionField (ascii "q") bytes v
  let arguments ← optionField (ascii "a") args v
  let version ← optionField (ascii "v") bytes v
  let ip ← optionField (ascii "ip") readSocketAddr v
  return { messageType, transactionId, error, response, methodName, arguments, version, ip }

def RawMessage.typed (args : Typed Args) (resp : Typed Resp) : Typed (RawMessage Args Resp) :=
  structType (RawMessage.ofBencode args.read resp.read)
    [(ascii "y", (plain MessageType.ofBencode).slot), (ascii "t", (plain bytes).slot),
      (ascii "e", ErrorDescription.typed.slot), (ascii "r", resp.slot), (ascii "q", (plain bytes).slot),
      (ascii "a", args.slot), (ascii "v", (plain bytes).slot), (ascii "ip", (plain readSocketAddr).slot)]

end Structs

section Messages
variable (C : Codec)

def queryBencode {Args : Type} (args : Args → BValue) (transactionId : Bytes) (version : Option Bytes)
    (ip : Option SocketAddr) (methodName : Bytes) (req : Args) : BValue :=
  RawMessage.toBencode args Empty.elim {
    messageType := .request
    transactionId
    error := none
    response := none
    methodName := some methodName
    arguments := some req
    ip
    version }

def messageBencode (transactionId : Bytes) (version : Option Bytes) (ip : Option SocketAddr) :
    MessageKind → BValue
  | .error e => RawMessage.toBencode Empty.elim Empty.elim {
      messageType := .error
      transactionId
      error := some e
      response := none
      methodName := none
      version
      ip
      arguments := none }
  | .getPeersRequest req =>
    queryBencode GetPeersRequest.toBencode transactionId version ip (ascii "get_peers") req
  | .findNodeRequest req =>
    queryBencode FindNodeRequest.toBencode transactionId version ip (ascii "find_node") req
  | .response resp => RawMessage.toBencode Empty.elim Response.toBencode {
      messageType := .response
      transactionId
      error := none
      response := some resp
      methodName := none
      arguments := none
      ip
      version }
  | .pingRequest ping => queryBencode PingRequest.toBencode transactionId version ip (ascii "ping") ping
  | .announcePeer announce =>
    queryBencode AnnouncePeer.toBencode transactionId version ip (ascii "announce_peer") announce
  | .bep44GetRequest req => queryBencode Bep44GetRequest.toBencode transactionId version ip (ascii "get") req
  | .bep44PutRequest req => queryBencode Bep44PutRequest.toBencode transactionId version ip (ascii "put") req

def serializeMessage (transactionId : Bytes) (version : Option Bytes) (ip : Option SocketAddr)
    (kind : MessageKind) : Option Bytes :=
  C.write (messageBencode transactionId version ip kind)

/-- How parsing can end without a message; the last two take the process down. -/
inductive ParseError where
  | bencode
  | unsupportedMethod (other : Bytes)
  | notARequest
  | notAResponse
  | notAnError
  | unwrapOnNone
  | crashed
deriving DecidableEq, Repr

def fromBytes {α : Type} (t : Typed α) (buf : Bytes) : Except ParseError α :=
  match C.readAs t buf with
  | .ok a => .ok a
  | .error .refused => .error .bencode
  | .error .crashed => .error .crashed

theorem fromBytes_of_takes {α : Type} {t : Typed α} {buf : Bytes} {v : BValue} (hread : C.read buf = .ok v)
    (h : C.Takes t v) : fromBytes C t buf = (t.read v).elim (.error .bencode) .ok := by
  rw [fromBytes, h.readAs_eq hread, Typed.accept]
  cases t.read v with
  | none => rfl
  | some a => rfl

/-- `unwrap`, which panics on `None`. -/
def unwrap {α : Type} : Option α → Except ParseError α
  | some a => .ok a
  | none => .error .unwrapOnNone

/-- The second pass over the bytes of a query, now with the type of its arguments. -/
def deserializeQuery {Args : Type} (args : Typed Args) (kind : Args → MessageKind) (buf : Bytes) :
    Except ParseError Message := do
  let de ← fromBytes C (RawMessage.typed args ignored) buf
  let req ← unwrap de.arguments
  return {
    transactionId := de.transactionId
    version := de.version
    ip := de.ip
    kind := kind req }

def deserializeMessage (buf : Bytes) : Except ParseError Message := do
  let de ← fromBytes C (RawMessage.typed ignored ignored) buf
  match de.messageType with
  | .request =>
    match de.arguments, de.methodName, de.response, de.error with
    | some _, some methodName, none, none =>
      if methodName = ascii "find_node" then
        deserializeQuery C FindNodeRequest.typed .findNodeRequest buf
      else if methodName = ascii "get_peers" then
        deserializeQuery C GetPeersRequest.typed .getPeersRequest buf
      else if methodName = ascii "ping" then deserializeQuery C PingRequest.typed .pingRequest buf
      else if methodName = ascii "announce_peer" then
        deserializeQuery C AnnouncePeer.typed .announcePeer buf
      else if methodName = ascii "get" then
        deserializeQuery C Bep44GetRequest.typed .bep44GetRequest buf
      else if methodName = ascii "put" then
        deserializeQuery C Bep44PutRequest.typed .bep44PutRequest buf
      else .error (.unsupportedMethod methodName)
    | _, _, _, _ => .error .notARequest
  | .response =>
    match de.arguments, de.methodName, de.response, de.error with
    | none, _, some _, none => do
      let de ← fromBytes C (RawMessage.typed ignored Response.typed) buf
      let resp ← unwrap de.response
      return {
        transactionId := de.transactionId
        version := de.version
        ip := de.ip
        kind := .response resp }
    | _, _, _, _ => .error .notAResponse
  | .error =>
    match de.arguments, de.methodName, de.response, de.error with
    | none, _, none, some _ => do
      let de ← fromBytes C (RawMessage.typed ignored Response.typed) buf
      let e ← unwrap de.error
      return {
        transactionId := de.transactionId
        version := de.version
        ip := de.ip
        kind := .error e }
    | _, _, _, _ => .error .notAnError

end Messages
end LibrtbitDht
