import LibrtbitDht.BencodeText
import LibrtbitDht.Message

set_option autoImplicit false

namespace LibrtbitDht
open Bencode
open ByteStrings (Bytes ascii wordBytes readWord records records_flatMap wordBytes_length readWord_wordBytes)

section Addresses

def SocketAddrV6.onWire (a : SocketAddrV6) : SocketAddrV6 := { a with flowinfo := 0, scopeId := 0 }

def SocketAddr.onWire : SocketAddr → SocketAddr
  | .v4 a => .v4 a
  | .v6 a => .v6 a.onWire

theorem compactV4_length (a : SocketAddrV4) : (compactV4.asSlice a).length = 6 := by
  change (wordBytes 4 a.ip ++ wordBytes 2 a.port).length = 6
  rw [List.length_append, wordBytes_length, wordBytes_length]

theorem compactV6_length (a : SocketAddrV6) : (compactV6.asSlice a).length = 18 := by
  change (wordBytes 16 a.ip ++ wordBytes 2 a.port).length = 18
  rw [List.length_append, wordBytes_length, wordBytes_length]

theorem compactV4_fromSlice (a : SocketAddrV4) : compactV4.fromSlice (compactV4.asSlice a) = some a := by
  have htake : (compactV4.asSlice a).take 4 = wordBytes 4 a.ip := List.take_left' (wordBytes_length 4 a.ip)
  have hdrop : (compactV4.asSlice a).drop 4 = wordBytes 2 a.port := List.drop_left' (wordBytes_length 4 a.ip)
  have hip : readWord 4 (wordBytes 4 a.ip) = some a.ip := readWord_wordBytes 4 a.ip
  have hport : readWord 2 (wordBytes 2 a.port) = some a.port := readWord_wordBytes 2 a.port
  unfold compactV4 at *
  simp only [htake, hdrop, hip, hport]
  rfl

theorem compactV6_fromSlice (a : SocketAddrV6) :
    compactV6.fromSlice (compactV6.asSlice a) = some a.onWire := by
  have htake : (compactV6.asSlice a).take 16 = wordBytes 16 a.ip := List.take_left' (wordBytes_length 16 a.ip)
  have hdrop : (compactV6.asSlice a).drop 16 = wordBytes 2 a.port := List.drop_left' (wordBytes_length 16 a.ip)
  have hip : readWord 16 (wordBytes 16 a.ip) = some a.ip := readWord_wordBytes 16 a.ip
  have hport : readWord 2 (wordBytes 2 a.port) = some a.port := readWord_wordBytes 2 a.port
  unfold compactV6 at *
  simp only [htake, hdrop, hip, hport]
  rfl

theorem socketAddr_fromSlice (a : SocketAddr) :
    CompactSocketAddr.fromSlice (CompactSocketAddr.asSlice a) = some a.onWire := by
  cases a with
  | v4 a =>
    have hlen : (CompactSocketAddr.asSlice (.v4 a)).length = 6 := compactV4_length a
    rw [CompactSocketAddr.fromSlice, if_pos hlen, CompactSocketAddr.asSlice, compactV4_fromSlice]
    rfl
  | v6 a =>
    have hlen : (CompactSocketAddr.asSlice (.v6 a)).length = 18 := compactV6_length a
    rw [CompactSocketAddr.fromSlice, if_neg (by omega), if_pos hlen, CompactSocketAddr.asSlice,
      compactV6_fromSlice]
    rfl

/-- A node is read back if its address is, and the length that its reader asks for is right. -/
theorem compactNode_fromSlice {A : Type} {len : ℕ} {compact : Compact A} (hlen : len = 20 + compact.fixedLen)
    (hfixed : ∀ a, (compact.asSlice a).length = compact.fixedLen) {f : A → A}
    (haddr : ∀ a, compact.fromSlice (compact.asSlice a) = some (f a)) (n : Node A) :
    (compactNode len compact).fromSlice ((compactNode len compact).asSlice n) = some ⟨n.id, f n.addr⟩ := by
  have hslice : (compactNode len compact).asSlice n = wordBytes 20 n.id ++ compact.asSlice n.addr := rfl
  have htake : (wordBytes 20 n.id ++ compact.asSlice n.addr).take 20 = wordBytes 20 n.id :=
    List.take_left' (wordBytes_length 20 n.id)
  have hdrop : (wordBytes 20 n.id ++ compact.asSlice n.addr).drop 20 = compact.asSlice n.addr :=
    List.drop_left' (wordBytes_length 20 n.id)
  have htotal : (wordBytes 20 n.id ++ compact.asSlice n.addr).length = len := by
    rw [List.length_append, wordBytes_length, hfixed, hlen]
  have hid : readWord 20 (wordBytes 20 n.id) = some n.id := readWord_wordBytes 20 n.id
  rw [hslice]
  simp only [compactNode, htotal, ne_eq, not_true_eq_false, if_false, htake, hdrop, hid, haddr]
  rfl

theorem compactNode_length {A : Type} {len : ℕ} {compact : Compact A} (hlen : len = 20 + compact.fixedLen)
    (hfixed : ∀ a, (compact.asSlice a).length = compact.fixedLen) (n : Node A) :
    ((compactNode len compact).asSlice n).length = len := by
  change (wordBytes 20 n.id ++ compact.asSlice n.addr).length = len
  rw [List.length_append, wordBytes_length, hfixed, hlen]

theorem readCompactList_serialize {A : Type} {compact : Compact A} (hpos : 0 < compact.fixedLen)
    (hlen : ∀ a, (compact.asSlice a).length = compact.fixedLen) {f : A → A}
    (hread : ∀ a, compact.fromSlice (compact.asSlice a) = some (f a)) (l : List A) :
    readCompactList compact (serializeCompactList compact l) = some (l.map f) := by
  rw [readCompactList, serializeCompactList, parsed]
  exact records_flatMap hpos hlen l (fun a _ => hread a)

def Node.onWire (n : Node SocketAddrV6) : Node SocketAddrV6 := ⟨n.id, n.addr.onWire⟩

theorem nodes_read (l : List (Node SocketAddrV4)) :
    readCompactList nodeV4 (serializeCompactList nodeV4 l) = some l := by
  have h : readCompactList nodeV4 (serializeCompactList nodeV4 l) = some (l.map id) :=
    readCompactList_serialize (by decide) (compactNode_length rfl compactV4_length)
      (compactNode_fromSlice rfl compactV4_length compactV4_fromSlice) l
  rwa [List.map_id] at h

theorem nodes6_read (l : List (Node SocketAddrV6)) :
    readCompactList nodeV6 (serializeCompactList nodeV6 l) = some (l.map Node.onWire) :=
  readCompactList_serialize (by decide) (compactNode_length rfl compactV6_length)
    (compactNode_fromSlice rfl compactV6_length compactV6_fromSlice) l

end Addresses

section Scalars

theorem readId_serializeId (id : Id20) : readId (serializeId id) = some id := by
  have h : readWord 20 (wordBytes 20 id) = some id := readWord_wordBytes 20 id
  simp only [readId, serializeId, parsed, h]

theorem readI64_serializeI64 (n : Int64) : readI64.read (serializeI64 n) = some n := by
  have h : (sint 64).read (.int n.toInt) = some n.toBitVec := sint_toInt n.toBitVec
  change ((sint 64).read (.int n.toInt)).map Int64.ofBitVec = some n
  rw [h]
  rfl

theorem readI32_toInt (n : Int32) : readI32.read (.int n.toInt) = some n := by
  have h : (sint 32).read (.int n.toInt) = some n.toBitVec := sint_toInt n.toBitVec
  change ((sint 32).read (.int n.toInt)).map Int32.ofBitVec = some n
  rw [h]
  rfl

theorem readU8_toNat (n : UInt8) : readU8.read (.int n.toNat) = some n := by
  have h : (uint 8).read (.int n.toNat) = some n.toBitVec := uint_toNat n.toBitVec
  change ((uint 8).read (.int n.toNat)).map UInt8.ofBitVec = some n
  rw [h]
  rfl

theorem readI64_fits (n : Int64) : readI64.strays (serializeI64 n) = false := sint_fits n.toBitVec

theorem readU8_fits (n : UInt8) : readU8.strays (.int n.toNat) = false := uint_fits n.toBitVec

theorem errorDescription_fits (e : ErrorDescription) : ErrorDescription.typed.strays e.toBencode = false :=
  sint_fits e.code.toBitVec

theorem readSocketAddr_serialize (a : SocketAddr) : readSocketAddr (serializeSocketAddr a) = some a.onWire := by
  simp only [readSocketAddr, serializeSocketAddr, parsed, socketAddr_fromSlice]

theorem messageType_read (t : MessageType) : MessageType.ofBencode t.toBencode = some t := by
  cases t <;> decide

theorem errorDescription_read (e : ErrorDescription) : ErrorDescription.ofBencode e.toBencode = some e := by
  simp only [ErrorDescription.ofBencode, ErrorDescription.toBencode, readI32_toInt]
  rfl

theorem want_read (w : Want) : Want.ofBencode w.toBencode = some w := by
  cases w <;> decide

end Scalars

section Structs

theorem bytes_read (b : Bytes) : bytes (.bytes b) = some b := rfl

theorem findNodeRequest_keys (r : FindNodeRequest) : (r.fields.map Prod.fst).Nodup :=
  show [ascii "id", ascii "target", ascii "want"].Nodup by decide

theorem findNodeRequest_read (r : FindNodeRequest) : FindNodeRequest.ofBencode r.toBencode = some r := by
  have hkeys := findNodeRequest_keys r
  have hid : field (ascii "id") readId r.toBencode = some r.id :=
    field_struct hkeys (by simp [FindNodeRequest.fields]) (readId_serializeId _)
  have htarget : field (ascii "target") readId r.toBencode = some r.target :=
    field_struct hkeys (by simp [FindNodeRequest.fields]) (readId_serializeId _)
  have hwant : optionField (ascii "want") Want.ofBencode r.toBencode = some r.want :=
    optionField_struct_id hkeys (by simp [FindNodeRequest.fields]) want_read
  simp only [FindNodeRequest.ofBencode, hid, htarget, hwant]
  rfl

theorem getPeersRequest_keys (r : GetPeersRequest) : (r.fields.map Prod.fst).Nodup :=
  show [ascii "id", ascii "info_hash", ascii "want"].Nodup by decide

theorem getPeersRequest_read (r : GetPeersRequest) : GetPeersRequest.ofBencode r.toBencode = some r := by
  have hkeys := getPeersRequest_keys r
  have hid : field (ascii "id") readId r.toBencode = some r.id :=
    field_struct hkeys (by simp [GetPeersRequest.fields]) (readId_serializeId _)
  have hhash : field (ascii "info_hash") readId r.toBencode = some r.infoHash :=
    field_struct hkeys (by simp [GetPeersRequest.fields]) (readId_serializeId _)
  have hwant : optionField (ascii "want") Want.ofBencode r.toBencode = some r.want :=
    optionField_struct_id hkeys (by simp [GetPeersRequest.fields]) want_read
  simp only [GetPeersRequest.ofBencode, hid, hhash, hwant]
  rfl

theorem pingRequest_keys (r : PingRequest) : (r.fields.map Prod.fst).Nodup :=
  show [ascii "id"].Nodup by decide

theorem pingRequest_read (r : PingRequest) : PingRequest.ofBencode r.toBencode = some r := by
  have hkeys := pingRequest_keys r
  have hid : field (ascii "id") readId r.toBencode = some r.id :=
    field_struct hkeys (by simp [PingRequest.fields]) (readId_serializeId _)
  simp only [PingRequest.ofBencode, hid]
  rfl

theorem announcePeer_keys (r : AnnouncePeer) : (r.fields.map Prod.fst).Nodup :=
  show [ascii "id", ascii "implied_port", ascii "info_hash", ascii "port", ascii "token"].Nodup by decide

theorem announcePeer_read (r : AnnouncePeer) : AnnouncePeer.ofBencode r.toBencode = some r := by
  have hkeys := announcePeer_keys r
  have hid : field (ascii "id") readId r.toBencode = some r.id :=
    field_struct hkeys (by simp [AnnouncePeer.fields]) (readId_serializeId _)
  have himplied : field (ascii "implied_port") readU8.read r.toBencode =
      some r.impliedPort :=
    field_struct hkeys (by simp [AnnouncePeer.fields]) (readU8_toNat r.impliedPort)
  have hhash : field (ascii "info_hash") readId r.toBencode = some r.infoHash :=
    field_struct hkeys (by simp [AnnouncePeer.fields]) (readId_serializeId _)
  have hport : field (ascii "port") (uint 16).read r.toBencode = some r.port :=
    field_struct hkeys (by simp [AnnouncePeer.fields]) (uint_toNat r.port)
  have htoken : field (ascii "token") bytes r.toBencode = some r.token :=
    field_struct hkeys (by simp [AnnouncePeer.fields]) (bytes_read _)
  simp only [AnnouncePeer.ofBencode, hid, himplied, hhash, hport, htoken]
  rfl

theorem bep44GetRequest_keys (r : Bep44GetRequest) : (r.fields.map Prod.fst).Nodup :=
  show [ascii "id", ascii "target", ascii "seq"].Nodup by decide

theorem bep44GetRequest_read (r : Bep44GetRequest) : Bep44GetRequest.ofBencode r.toBencode = some r := by
  have hkeys := bep44GetRequest_keys r
  have hid : field (ascii "id") readId r.toBencode = some r.id :=
    field_struct hkeys (by simp [Bep44GetRequest.fields]) (readId_serializeId _)
  have htarget : field (ascii "target") readId r.toBencode = some r.target :=
    field_struct hkeys (by simp [Bep44GetRequest.fields]) (readId_serializeId _)
  have hseq : optionField (ascii "seq") readI64.read r.toBencode = some r.seq :=
    optionField_struct_id hkeys (by simp [Bep44GetRequest.fields]) readI64_serializeI64
  simp only [Bep44GetRequest.ofBencode, hid, htarget, hseq]
  rfl

theorem bep44PutRequest_keys (r : Bep44PutRequest) : (r.fields.map Prod.fst).Nodup :=
  show [ascii "id", ascii "token", ascii "k", ascii "sig", ascii "seq", ascii "v", ascii "salt",
      ascii "cas"].Nodup by decide

theorem bep44PutRequest_read (r : Bep44PutRequest) : Bep44PutRequest.ofBencode r.toBencode = some r := by
  have hkeys := bep44PutRequest_keys r
  have hid : field (ascii "id") readId r.toBencode = some r.id :=
    field_struct hkeys (by simp [Bep44PutRequest.fields]) (readId_serializeId _)
  have htoken : field (ascii "token") bytes r.toBencode = some r.token :=
    field_struct hkeys (by simp [Bep44PutRequest.fields]) (bytes_read _)
  have hk : field (ascii "k") bytes r.toBencode = some r.k :=
    field_struct hkeys (by simp [Bep44PutRequest.fields]) (bytes_read _)
  have hsig : field (ascii "sig") bytes r.toBencode = some r.sig :=
    field_struct hkeys (by simp [Bep44PutRequest.fields]) (bytes_read _)
  have hseq : field (ascii "seq") readI64.read r.toBencode = some r.seq :=
    field_struct hkeys (by simp [Bep44PutRequest.fields]) (readI64_serializeI64 _)
  have hv : field (ascii "v") bytes r.toBencode = some r.v :=
    field_struct hkeys (by simp [Bep44PutRequest.fields]) (bytes_read _)
  have hsalt : optionField (ascii "salt") bytes r.toBencode = some r.salt :=
    optionField_struct_id hkeys (by simp [Bep44PutRequest.fields]) bytes_read
  have hcas : optionField (ascii "cas") readI64.read r.toBencode = some r.cas :=
    optionField_struct_id hkeys (by simp [Bep44PutRequest.fields]) readI64_serializeI64
  simp only [Bep44PutRequest.ofBencode, hid, htoken, hk, hsig, hseq, hv, hsalt, hcas]
  rfl

def Response.onWire (r : Response) : Response := { r with
  values := r.values.map (List.map SocketAddr.onWire)
  nodes6 := r.nodes6.map (List.map Node.onWire) }

theorem response_keys (r : Response) : (r.fields.map Prod.fst).Nodup :=
  show [ascii "values", ascii "id", ascii "nodes", ascii "nodes6", ascii "token", ascii "v", ascii "k",
      ascii "sig", ascii "seq"].Nodup by decide

theorem response_read (r : Response) : Response.ofBencode r.toBencode = some r.onWire := by
  have hkeys := response_keys r
  have hvalues : optionField (ascii "values") (list readSocketAddr) r.toBencode =
      some (r.values.map (List.map SocketAddr.onWire)) :=
    optionField_struct hkeys (by simp [Response.fields])
      (fun l _ => list_map (fun a _ => readSocketAddr_serialize a))
  have hid : field (ascii "id") readId r.toBencode = some r.id :=
    field_struct hkeys (by simp [Response.fields]) (readId_serializeId _)
  have hnodes : optionField (ascii "nodes") (readCompactList nodeV4) r.toBencode = some r.nodes :=
    optionField_struct_id hkeys (by simp [Response.fields]) nodes_read
  have hnodes6 : optionField (ascii "nodes6") (readCompactList nodeV6) r.toBencode =
      some (r.nodes6.map (List.map Node.onWire)) :=
    optionField_struct hkeys (by simp [Response.fields]) (fun l _ => nodes6_read l)
  have htoken : optionField (ascii "token") bytes r.toBencode = some r.token :=
    optionField_struct_id hkeys (by simp [Response.fields]) bytes_read
  have hv : optionField (ascii "v") bytes r.toBencode = some r.v :=
    optionField_struct_id hkeys (by simp [Response.fields]) bytes_read
  have hk : optionField (ascii "k") bytes r.toBencode = some r.k :=
    optionField_struct_id hkeys (by simp [Response.fields]) bytes_read
  have hsig : optionField (ascii "sig") bytes r.toBencode = some r.sig :=
    optionField_struct_id hkeys (by simp [Response.fields]) bytes_read
  have hseq : optionField (ascii "seq") readI64.read r.toBencode = some r.seq :=
    optionField_struct_id hkeys (by simp [Response.fields]) readI64_serializeI64
  simp only [Response.ofBencode, hvalues, hid, hnodes, hnodes6, htoken, hv, hk, hsig, hseq]
  rfl

variable {Args Args' Resp Resp' : Type}

theorem rawMessage_keys (writeArgs : Args → BValue) (writeResp : Resp → BValue) (m : RawMessage Args Resp) :
    ((m.fields writeArgs writeResp).map Prod.fst).Nodup :=
  show [ascii "y", ascii "t", ascii "e", ascii "r", ascii "q", ascii "a", ascii "v", ascii "ip"].Nodup by
    decide

/-- A raw message is read back with any readers that understand its arguments and its response. -/
theorem rawMessage_read {writeArgs : Args → BValue} {writeResp : Resp → BValue} (readArgs : Reader Args')
    (readResp : Reader Resp') {f : Args → Args'} {g : Resp → Resp'} (m : RawMessage Args Resp)
    (hargs : ∀ a ∈ m.arguments, readArgs (writeArgs a) = some (f a))
    (hresp : ∀ r ∈ m.response, readResp (writeResp r) = some (g r)) :
    RawMessage.ofBencode readArgs readResp (m.toBencode writeArgs writeResp) = some {
      messageType := m.messageType
      transactionId := m.transactionId
      error := m.error
      response := m.response.map g
      methodName := m.methodName
      arguments := m.arguments.map f
      version := m.version
      ip := m.ip.map SocketAddr.onWire } := by
  have hkeys := rawMessage_keys writeArgs writeResp m
  have htype : field (ascii "y") MessageType.ofBencode (m.toBencode writeArgs writeResp) = some m.messageType :=
    field_struct hkeys (by simp [RawMessage.fields]) (messageType_read _)
  have htid : field (ascii "t") bytes (m.toBencode writeArgs writeResp) = some m.transactionId :=
    field_struct hkeys (by simp [RawMessage.fields]) (bytes_read _)
  have herror : optionField (ascii "e") ErrorDescription.ofBencode (m.toBencode writeArgs writeResp) =
      some m.error :=
    optionField_struct_id hkeys (by simp [RawMessage.fields]) errorDescription_read
  have hresponse : optionField (ascii "r") readResp (m.toBencode writeArgs writeResp) = some (m.response.map g) :=
    optionField_struct hkeys (by simp [RawMessage.fields]) hresp
  have hmethod : optionField (ascii "q") bytes (m.toBencode writeArgs writeResp) = some m.methodName :=
    optionField_struct_id hkeys (by simp [RawMessage.fields]) bytes_read
  have harguments : optionField (ascii "a") readArgs (m.toBencode writeArgs writeResp) =
      some (m.arguments.map f) :=
    optionField_struct hkeys (by simp [RawMessage.fields]) hargs
  have hversion : optionField (ascii "v") bytes (m.toBencode writeArgs writeResp) = some m.version :=
    optionField_struct_id hkeys (by simp [RawMessage.fields]) bytes_read
  have hip : optionField (ascii "ip") readSocketAddr (m.toBencode writeArgs writeResp) =
      some (m.ip.map SocketAddr.onWire) :=
    optionField_struct hkeys (by simp [RawMessage.fields]) (fun a _ => readSocketAddr_serialize a)
  simp only [RawMessage.ofBencode, htype, htid, herror, hresponse, hmethod, harguments, hversion, hip]
  rfl

theorem rawMessage_scan {writeArgs : Args → BValue} {writeResp : Resp → BValue} (m : RawMessage Args Resp) :
    RawMessage.ofBencode ignored.read ignored.read (m.toBencode writeArgs writeResp) = some {
      messageType := m.messageType
      transactionId := m.transactionId
      error := m.error
      response := m.response.map (fun _ => ())
      methodName := m.methodName
      arguments := m.arguments.map (fun _ => ())
      version := m.version
      ip := m.ip.map SocketAddr.onWire } :=
  rawMessage_read ignored.read ignored.read m (fun _ _ => rfl) (fun _ _ => rfl)

end Structs

section Canonical

theorem canonical_serializeId {d : ℕ} (id : Id20) : Canonical d (serializeId id) := .bytes _

theorem canonical_serializeI64 {d : ℕ} (n : Int64) : Canonical d (serializeI64 n) :=
  canonical_toInt n.toBitVec (le_refl 64)

theorem canonical_serializeSocketAddr {d : ℕ} (a : SocketAddr) : Canonical d (serializeSocketAddr a) := .bytes _

theorem canonical_texts (l : List Bytes) : Canonical 1 (.list (l.map .bytes)) := by
  refine .list ?_
  intro v hv
  obtain ⟨b, _, rfl⟩ := List.mem_map.1 hv
  exact .bytes b

theorem canonical_want (w : Want) : Canonical 1 w.toBencode := by
  cases w with
  | v4 => exact canonical_texts [ascii "n4"]
  | v6 => exact canonical_texts [ascii "n6"]
  | both => exact canonical_texts [ascii "n4", ascii "n6"]
  | none => exact canonical_texts []

theorem canonical_findNodeRequest (r : FindNodeRequest) : Canonical 2 r.toBencode :=
  canonical_struct (findNodeRequest_keys r)
    (.some (canonical_serializeId _) (.some (canonical_serializeId _) (.map canonical_want .nil)))

theorem canonical_getPeersRequest (r : GetPeersRequest) : Canonical 2 r.toBencode :=
  canonical_struct (getPeersRequest_keys r)
    (.some (canonical_serializeId _) (.some (canonical_serializeId _) (.map canonical_want .nil)))

theorem canonical_pingRequest (r : PingRequest) : Canonical 2 r.toBencode :=
  canonical_struct (pingRequest_keys r) (.some (canonical_serializeId _) .nil)

theorem canonical_announcePeer (r : AnnouncePeer) : Canonical 2 r.toBencode :=
  canonical_struct (announcePeer_keys r) (.some (canonical_serializeId _)
    (.some (canonical_toNat r.impliedPort.toBitVec (by decide)) (.some (canonical_serializeId _)
    (.some (canonical_toNat r.port (by decide)) (.some (.bytes _) .nil)))))

theorem canonical_bep44GetRequest (r : Bep44GetRequest) : Canonical 2 r.toBencode :=
  canonical_struct (bep44GetRequest_keys r)
    (.some (canonical_serializeId _) (.some (canonical_serializeId _) (.map canonical_serializeI64 .nil)))

theorem canonical_bep44PutRequest (r : Bep44PutRequest) : Canonical 2 r.toBencode :=
  canonical_struct (bep44PutRequest_keys r) (.some (canonical_serializeId _) (.some (.bytes _)
    (.some (.bytes _) (.some (.bytes _) (.some (canonical_serializeI64 _) (.some (.bytes _) (.map (fun _ => .bytes _)
    (.map canonical_serializeI64 .nil))))))))

theorem canonical_response (r : Response) : Canonical 2 r.toBencode := by
  refine canonical_struct (response_keys r) (.map ?_ (.some (canonical_serializeId _)
    (.map (fun _ => .bytes _) (.map (fun _ => .bytes _) (.map (fun _ => .bytes _) (.map (fun _ => .bytes _)
    (.map (fun _ => .bytes _) (.map (fun _ => .bytes _) (.map canonical_serializeI64 .nil)))))))))
  intro l
  refine .list ?_
  intro v hv
  obtain ⟨a, _, rfl⟩ := List.mem_map.1 hv
  exact canonical_serializeSocketAddr a

theorem canonical_messageType {d : ℕ} (t : MessageType) : Canonical d t.toBencode := by
  cases t <;> exact .bytes _

theorem canonical_errorDescription (e : ErrorDescription) : Canonical 2 e.toBencode := by
  refine .list ?_
  intro v hv
  simp only [List.mem_cons, List.not_mem_nil, or_false] at hv
  rcases hv with rfl | rfl
  · exact canonical_toInt e.code.toBitVec (by decide)
  · exact .bytes _

theorem canonical_rawMessage {Args Resp : Type} {writeArgs : Args → BValue} {writeResp : Resp → BValue}
    (hargs : ∀ a, Canonical 2 (writeArgs a)) (hresp : ∀ r, Canonical 2 (writeResp r)) (m : RawMessage Args Resp) :
    Canonical depthRead (m.toBencode writeArgs writeResp) :=
  canonical_struct (rawMessage_keys writeArgs writeResp m)
    (.some (canonical_messageType _) (.some (.bytes _) (.map canonical_errorDescription (.map hresp
    (.map (fun _ => .bytes _) (.map hargs (.map (fun _ => .bytes _)
    (.map canonical_serializeSocketAddr .nil))))))))

theorem canonical_message (transactionId : Bytes) (version : Option Bytes) (ip : Option SocketAddr)
    (kind : MessageKind) : Canonical depthRead (messageBencode transactionId version ip kind) := by
  cases kind with
  | error e => exact canonical_rawMessage nofun nofun _
  | getPeersRequest req => exact canonical_rawMessage canonical_getPeersRequest nofun _
  | findNodeRequest req => exact canonical_rawMessage canonical_findNodeRequest nofun _
  | response resp => exact canonical_rawMessage nofun canonical_response _
  | pingRequest req => exact canonical_rawMessage canonical_pingRequest nofun _
  | announcePeer req => exact canonical_rawMessage canonical_announcePeer nofun _
  | bep44GetRequest req => exact canonical_rawMessage canonical_bep44GetRequest nofun _
  | bep44PutRequest req => exact canonical_rawMessage canonical_bep44PutRequest nofun _

end Canonical

section Fitting

theorem findNodeRequest_fits (r : FindNodeRequest) : FindNodeRequest.typed.strays r.toBencode = false :=
  FitsFields.struct_fits (.some rfl rfl (.some rfl rfl (.map rfl (fun _ _ => rfl) .nil)))

theorem getPeersRequest_fits (r : GetPeersRequest) : GetPeersRequest.typed.strays r.toBencode = false :=
  FitsFields.struct_fits (.some rfl rfl (.some rfl rfl (.map rfl (fun _ _ => rfl) .nil)))

theorem pingRequest_fits (r : PingRequest) : PingRequest.typed.strays r.toBencode = false :=
  FitsFields.struct_fits (.some rfl rfl .nil)

theorem announcePeer_fits (r : AnnouncePeer) : AnnouncePeer.typed.strays r.toBencode = false :=
  FitsFields.struct_fits (.some rfl rfl (.some rfl (readU8_fits _) (.some rfl rfl (.some rfl (uint_fits r.port)
    (.some rfl rfl .nil)))))

theorem bep44GetRequest_fits (r : Bep44GetRequest) : Bep44GetRequest.typed.strays r.toBencode = false :=
  FitsFields.struct_fits (.some rfl rfl (.some rfl rfl (.map rfl (fun n _ => readI64_fits n) .nil)))

theorem bep44PutRequest_fits (r : Bep44PutRequest) : Bep44PutRequest.typed.strays r.toBencode = false :=
  FitsFields.struct_fits (.some rfl rfl (.some rfl rfl (.some rfl rfl (.some rfl rfl (.some rfl (readI64_fits _)
    (.some rfl rfl (.map rfl (fun _ _ => rfl) (.map rfl (fun n _ => readI64_fits n) .nil))))))))

theorem response_fits (r : Response) : Response.typed.strays r.toBencode = false :=
  FitsFields.struct_fits (.map rfl (fun _ _ => rfl) (.some rfl rfl (.map rfl (fun _ _ => rfl)
    (.map rfl (fun _ _ => rfl) (.map rfl (fun _ _ => rfl) (.map rfl (fun _ _ => rfl) (.map rfl (fun _ _ => rfl)
    (.map rfl (fun _ _ => rfl) (.map rfl (fun n _ => readI64_fits n) .nil)))))))))

/-- What was written for a raw message has no integer that does not fit, whatever it is read as. -/
theorem rawMessage_fits {Args Resp Args' Resp' : Type} {writeArgs : Args → BValue} {writeResp : Resp → BValue}
    (args : Typed Args') (resp : Typed Resp') (m : RawMessage Args Resp)
    (hargs : ∀ a ∈ m.arguments, args.strays (writeArgs a) = false)
    (hresp : ∀ r ∈ m.response, resp.strays (writeResp r) = false) :
    (RawMessage.typed args resp).strays (m.toBencode writeArgs writeResp) = false :=
  FitsFields.struct_fits (.some rfl rfl (.some rfl rfl (.map rfl (fun e _ => errorDescription_fits e)
    (.map rfl hresp (.map rfl (fun _ _ => rfl) (.map rfl hargs (.map rfl (fun _ _ => rfl)
    (.map rfl (fun _ _ => rfl) .nil))))))))

end Fitting

section RoundTrip
variable (C : Codec)

def MessageKind.onWire : MessageKind → MessageKind
  | .response resp => .response resp.onWire
  | kind => kind

theorem fromBytes_of_read {α : Type} {buf : Bytes} {v : BValue} {t : Typed α} {a : α} (hbuf : C.read buf = .ok v)
    (hfits : t.strays v = false) (ha : t.read v = some a) : fromBytes C t buf = .ok a := by
  rw [fromBytes_of_takes C hbuf (.inl hfits), ha]
  rfl

theorem deserializeQuery_read {Args : Type} {writeArgs : Args → BValue} (args : Typed Args)
    (hargs : ∀ a, args.read (writeArgs a) = some a) (hfits : ∀ a, args.strays (writeArgs a) = false)
    (kind : Args → MessageKind) {buf transactionId : Bytes} {version : Option Bytes} {ip : Option SocketAddr}
    {methodName : Bytes} {req : Args}
    (hbuf : C.read buf = .ok (queryBencode writeArgs transactionId version ip methodName req)) :
    deserializeQuery C args kind buf =
      .ok ⟨kind req, transactionId, version, ip.map SocketAddr.onWire⟩ := by
  have hread := fromBytes_of_read C hbuf (rawMessage_fits args ignored _ (fun a _ => hfits a) nofun)
    (rawMessage_read args.read ignored.read (f := id) (g := Empty.elim) _ (fun a _ => hargs a) nofun)
  rw [deserializeQuery, hread]
  rfl

theorem scan_written {Args Resp : Type} {writeArgs : Args → BValue} {writeResp : Resp → BValue} {buf : Bytes}
    {m : RawMessage Args Resp} (hbuf : C.read buf = .ok (m.toBencode writeArgs writeResp)) :
    fromBytes C (RawMessage.typed ignored ignored) buf = .ok {
      messageType := m.messageType
      transactionId := m.transactionId
      error := m.error
      response := m.response.map (fun _ => ())
      methodName := m.methodName
      arguments := m.arguments.map (fun _ => ())
      version := m.version
      ip := m.ip.map SocketAddr.onWire } :=
  fromBytes_of_read C hbuf (rawMessage_fits ignored ignored m (fun _ _ => rfl) (fun _ _ => rfl)) (rawMessage_scan m)

theorem scan_query {Args : Type} {writeArgs : Args → BValue} {buf transactionId : Bytes}
    {version : Option Bytes} {ip : Option SocketAddr} {methodName : Bytes} {req : Args}
    (hbuf : C.read buf = .ok (queryBencode writeArgs transactionId version ip methodName req)) :
    fromBytes C (RawMessage.typed ignored ignored) buf = .ok {
      messageType := .request
      transactionId
      error := none
      response := none
      methodName := some methodName
      arguments := some ()
      version
      ip := ip.map SocketAddr.onWire } :=
  scan_written C hbuf

/-- What is written for a message is read back, whatever implementation of bencode is used. -/
theorem deserialize_of_read {buf transactionId : Bytes} {version : Option Bytes} {ip : Option SocketAddr}
    {kind : MessageKind} (hbuf : C.read buf = .ok (messageBencode transactionId version ip kind)) :
    deserializeMessage C buf = .ok ⟨kind.onWire, transactionId, version, ip.map SocketAddr.onWire⟩ := by
  cases kind with
  | error e =>
    have hscan := scan_written C hbuf
    have hread := fromBytes_of_read C hbuf (rawMessage_fits ignored Response.typed _ nofun nofun)
      (rawMessage_read ignored.read Response.ofBencode (f := Empty.elim) (g := Empty.elim) _ nofun nofun)
    rw [deserializeMessage, hscan, ok_bind]
    dsimp only [Option.map_none]
    rw [hread]
    rfl
  | response resp =>
    have hscan := scan_written C hbuf
    have hread := fromBytes_of_read C hbuf
      (rawMessage_fits ignored Response.typed _ nofun (fun r _ => response_fits r))
      (rawMessage_read ignored.read Response.ofBencode (f := Empty.elim) _ nofun (fun r _ => response_read r))
    rw [deserializeMessage, hscan, ok_bind]
    dsimp only [Option.map_none, Option.map_some]
    rw [hread]
    rfl
  | findNodeRequest req =>
    rw [deserializeMessage, scan_query C hbuf, ok_bind]
    dsimp only
    rw [if_pos rfl]
    exact deserializeQuery_read C FindNodeRequest.typed findNodeRequest_read findNodeRequest_fits .findNodeRequest hbuf
  | getPeersRequest req =>
    rw [deserializeMessage, scan_query C hbuf, ok_bind]
    dsimp only
    rw [if_neg (by decide), if_pos rfl]
    exact deserializeQuery_read C GetPeersRequest.typed getPeersRequest_read getPeersRequest_fits .getPeersRequest hbuf
  | pingRequest req =>
    rw [deserializeMessage, scan_query C hbuf, ok_bind]
    dsimp only
    rw [if_neg (by decide), if_neg (by decide), if_pos rfl]
    exact deserializeQuery_read C PingRequest.typed pingRequest_read pingRequest_fits .pingRequest hbuf
  | announcePeer req =>
    rw [deserializeMessage, scan_query C hbuf, ok_bind]
    dsimp only
    rw [if_neg (by decide), if_neg (by decide), if_neg (by decide), if_pos rfl]
    exact deserializeQuery_read C AnnouncePeer.typed announcePeer_read announcePeer_fits .announcePeer hbuf
  | bep44GetRequest req =>
    rw [deserializeMessage, scan_query C hbuf, ok_bind]
    dsimp only
    rw [if_neg (by decide), if_neg (by decide), if_neg (by decide), if_neg (by decide), if_pos rfl]
    exact deserializeQuery_read C Bep44GetRequest.typed bep44GetRequest_read bep44GetRequest_fits .bep44GetRequest hbuf
  | bep44PutRequest req =>
    rw [deserializeMessage, scan_query C hbuf, ok_bind]
    dsimp only
    rw [if_neg (by decide), if_neg (by decide), if_neg (by decide), if_neg (by decide), if_neg (by decide),
      if_pos rfl]
    exact deserializeQuery_read C Bep44PutRequest.typed bep44PutRequest_read bep44PutRequest_fits .bep44PutRequest hbuf

/-- Every message is written, and what is written is read back as the same message. -/
theorem deserialize_serialize (transactionId : Bytes) (version : Option Bytes) (ip : Option SocketAddr)
    (kind : MessageKind) : ∃ buf, serializeMessage C transactionId version ip kind = some buf ∧
      deserializeMessage C buf = .ok ⟨kind.onWire, transactionId, version, ip.map SocketAddr.onWire⟩ := by
  obtain ⟨buf, hwrite, hread, _⟩ := C.lawful _ (canonical_message transactionId version ip kind)
  exact ⟨buf, hwrite, deserialize_of_read C hread⟩

end RoundTrip
end LibrtbitDht
