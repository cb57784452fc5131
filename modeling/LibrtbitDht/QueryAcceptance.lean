import LibrtbitDht.MessageClassification
import LibrtbitDht.MessageRoundTrip

set_option autoImplicit false

namespace LibrtbitDht
open Bencode
open ByteStrings (Bytes ascii)

inductive WireQuery where
  | ping (id : Id20)
  | findNode (id target : Id20) (want : Option (List Bytes))
  | getPeers (id infoHash : Id20) (want : Option (List Bytes))
  | announcePeer (id infoHash : Id20) (port : BitVec 16) (token : Bytes) (impliedPort : Option UInt8)
  | get (id target : Id20) (seq : Option Int64)
deriving DecidableEq, Repr

def Want.ofStrings (strings : List Bytes) : Want :=
  if ascii "n4" ∈ strings then if ascii "n6" ∈ strings then .both else .v4
  else if ascii "n6" ∈ strings then .v6 else .none

namespace WireQuery

def methodName : WireQuery → Bytes
  | ping _ => ascii "ping"
  | findNode _ _ _ => ascii "find_node"
  | getPeers _ _ _ => ascii "get_peers"
  | announcePeer _ _ _ _ _ => ascii "announce_peer"
  | get _ _ _ => ascii "get"

def strings (l : List Bytes) : BValue := .list (l.map .bytes)

/-- What is in the dictionary of the arguments under the keys of the method. -/
def arguments : WireQuery → Fields
  | ping id => [(ascii "id", some (serializeId id))]
  | findNode id target want =>
    [(ascii "id", some (serializeId id)), (ascii "target", some (serializeId target)), (ascii "want", want.map strings)]
  | getPeers id infoHash want =>
    [(ascii "id", some (serializeId id)), (ascii "info_hash", some (serializeId infoHash)),
      (ascii "want", want.map strings)]
  | announcePeer id infoHash port token impliedPort =>
    [(ascii "id", some (serializeId id)), (ascii "info_hash", some (serializeId infoHash)),
      (ascii "port", some (.int port.toNat)), (ascii "token", some (.bytes token)),
      (ascii "implied_port", impliedPort.map (fun n => .int n.toNat))]
  | get id target seq =>
    [(ascii "id", some (serializeId id)), (ascii "target", some (serializeId target)),
      (ascii "seq", seq.map serializeI64)]

/-- The request that corresponds to the query; a missing `implied_port` is `0`. -/
def request : WireQuery → MessageKind
  | ping id => .pingRequest ⟨id⟩
  | findNode id target want => .findNodeRequest ⟨id, target, want.map Want.ofStrings⟩
  | getPeers id infoHash want => .getPeersRequest ⟨id, infoHash, want.map Want.ofStrings⟩
  | announcePeer id infoHash port token impliedPort =>
    .announcePeer ⟨id, impliedPort.getD 0, infoHash, port, token⟩
  | get id target seq => .bep44GetRequest ⟨id, target, seq⟩

/-- No `announce_peer`, or one with the argument `implied_port`. -/
def namesImpliedPort : WireQuery → Bool
  | announcePeer _ _ _ _ impliedPort => impliedPort.isSome
  | _ => true

def ArgumentsIn (q : WireQuery) (as : List Entry) : Prop := ∀ f ∈ q.arguments, lookup f.1 as = some f.2

/-- The packet is the query, with a transaction identifier and at most a version and an address
beside it, and with any keys that the parser does not know. -/
structure SentIn (q : WireQuery) (transactionId : Bytes) (version : Option Bytes) (ip : Option SocketAddr)
    (es : List Entry) : Prop where
  messageType : lookup (ascii "y") es = some (some (.bytes (ascii "q")))
  transactionId : lookup (ascii "t") es = some (some (.bytes transactionId))
  methodName : lookup (ascii "q") es = some (some (.bytes q.methodName))
  arguments : ∃ as, lookup (ascii "a") es = some (some (.dict as)) ∧ q.ArgumentsIn as
  noResponse : Absent (ascii "r") es
  noError : Absent (ascii "e") es
  version : optionField (ascii "v") bytes (.dict es) = some version
  ip : optionField (ascii "ip") readSocketAddr (.dict es) = some ip

end WireQuery

section Arguments
variable {as : List Entry}

theorem want_strings (l : List Bytes) : Want.ofBencode (WireQuery.strings l) = some (Want.ofStrings l) := by
  have hread : list bytes (WireQuery.strings l) = some (l.map id) := list_map (fun _ _ => rfl)
  rw [List.map_id] at hread
  have h4 : l.any (fun b => decide (b = ascii "n4")) = decide (ascii "n4" ∈ l) := by
    simp [List.any_eq, eq_comm]
  have h6 : l.any (fun b => decide (b = ascii "n6")) = decide (ascii "n6" ∈ l) := by
    simp [List.any_eq, eq_comm]
  simp only [Want.ofBencode, hread, Option.bind_eq_bind, Option.bind_some, h4, h6, Want.ofStrings]
  by_cases hn4 : ascii "n4" ∈ l <;> by_cases hn6 : ascii "n6" ∈ l <;> simp [hn4, hn6]

theorem WireQuery.ArgumentsIn.ping_read {id : Id20} (h : (WireQuery.ping id).ArgumentsIn as) :
    PingRequest.ofBencode (.dict as) = some ⟨id⟩ := by
  simp only [WireQuery.ArgumentsIn, WireQuery.arguments, List.forall_mem_cons] at h
  simp only [PingRequest.ofBencode, field_of_lookup h.1 (readId_serializeId id)]
  rfl

theorem WireQuery.ArgumentsIn.findNode_read {id target : Id20} {want : Option (List Bytes)}
    (h : (WireQuery.findNode id target want).ArgumentsIn as) :
    FindNodeRequest.ofBencode (.dict as) = some ⟨id, target, want.map Want.ofStrings⟩ := by
  simp only [WireQuery.ArgumentsIn, WireQuery.arguments, List.forall_mem_cons] at h
  obtain ⟨hid, htarget, hwant, _⟩ := h
  have hid := field_of_lookup hid (readId_serializeId id)
  have htarget := field_of_lookup htarget (readId_serializeId target)
  have hwant := optionField_of_lookup hwant (fun l _ => want_strings l)
  simp only [FindNodeRequest.ofBencode, hid, htarget, hwant]
  rfl

theorem WireQuery.ArgumentsIn.getPeers_read {id infoHash : Id20} {want : Option (List Bytes)}
    (h : (WireQuery.getPeers id infoHash want).ArgumentsIn as) :
    GetPeersRequest.ofBencode (.dict as) = some ⟨id, infoHash, want.map Want.ofStrings⟩ := by
  simp only [WireQuery.ArgumentsIn, WireQuery.arguments, List.forall_mem_cons] at h
  obtain ⟨hid, hhash, hwant, _⟩ := h
  have hid := field_of_lookup hid (readId_serializeId id)
  have hhash := field_of_lookup hhash (readId_serializeId infoHash)
  have hwant := optionField_of_lookup hwant (fun l _ => want_strings l)
  simp only [GetPeersRequest.ofBencode, hid, hhash, hwant]
  rfl

theorem WireQuery.ArgumentsIn.get_read {id target : Id20} {seq : Option Int64}
    (h : (WireQuery.get id target seq).ArgumentsIn as) :
    Bep44GetRequest.ofBencode (.dict as) = some ⟨id, target, seq⟩ := by
  simp only [WireQuery.ArgumentsIn, WireQuery.arguments, List.forall_mem_cons] at h
  obtain ⟨hid, htarget, hseq, _⟩ := h
  have hid := field_of_lookup hid (readId_serializeId id)
  have htarget := field_of_lookup htarget (readId_serializeId target)
  have hseq := optionField_of_lookup (f := fun n => n) hseq (fun n _ => readI64_serializeI64 n)
  rw [Option.map_id'] at hseq
  simp only [Bep44GetRequest.ofBencode, hid, htarget, hseq]
  rfl

theorem WireQuery.ArgumentsIn.announcePeer_read {id infoHash : Id20} {port : BitVec 16} {token : Bytes}
    {impliedPort : Option UInt8} (h : (WireQuery.announcePeer id infoHash port token impliedPort).ArgumentsIn as) :
    AnnouncePeer.ofBencode (.dict as) = impliedPort.map (fun n => ⟨id, n, infoHash, port, token⟩) := by
  simp only [WireQuery.ArgumentsIn, WireQuery.arguments, List.forall_mem_cons] at h
  obtain ⟨hid, hhash, hport, htoken, himplied, _⟩ := h
  have hid := field_of_lookup hid (readId_serializeId id)
  have hhash := field_of_lookup hhash (readId_serializeId infoHash)
  have hport := field_of_lookup hport (uint_toNat port)
  have htoken : field (ascii "token") bytes (.dict as) = some token := field_of_lookup htoken rfl
  cases impliedPort with
  | none =>
    have hmissing : field (ascii "implied_port") readU8.read (.dict as) = none := by
      simp only [field, himplied, Option.map_none]
    simp only [AnnouncePeer.ofBencode, hid, hmissing]
    rfl
  | some n =>
    have hgiven : field (ascii "implied_port") readU8.read (.dict as) = some n :=
      field_of_lookup himplied (readU8_toNat n)
    simp only [AnnouncePeer.ofBencode, hid, hgiven, hhash, hport, htoken]
    rfl

theorem pingRequest_plain (as : List Entry) : PingRequest.typed.strays (.dict as) = false := by
  refine FitsIn.straysIn_eq (fitsIn_of_slots ?_) []
  simp only [List.forall_mem_cons]
  exact ⟨fun _ _ _ => rfl, by simp⟩

theorem findNodeRequest_plain (as : List Entry) : FindNodeRequest.typed.strays (.dict as) = false := by
  refine FitsIn.straysIn_eq (fitsIn_of_slots ?_) []
  simp only [List.forall_mem_cons]
  exact ⟨fun _ _ _ => rfl, fun _ _ _ => rfl, fun _ _ _ => rfl, by simp⟩

theorem getPeersRequest_plain (as : List Entry) : GetPeersRequest.typed.strays (.dict as) = false := by
  refine FitsIn.straysIn_eq (fitsIn_of_slots ?_) []
  simp only [List.forall_mem_cons]
  exact ⟨fun _ _ _ => rfl, fun _ _ _ => rfl, fun _ _ _ => rfl, by simp⟩

theorem WireQuery.ArgumentsIn.announcePeer_fits {id infoHash : Id20} {port : BitVec 16} {token : Bytes}
    {impliedPort : Option UInt8} (h : (WireQuery.announcePeer id infoHash port token impliedPort).ArgumentsIn as) :
    AnnouncePeer.typed.strays (.dict as) = false := by
  simp only [WireQuery.ArgumentsIn, WireQuery.arguments, List.forall_mem_cons] at h
  obtain ⟨_, _, hport, _, himplied, _⟩ := h
  refine FitsIn.straysIn_eq (fitsIn_of_slots ?_) []
  simp only [List.forall_mem_cons]
  refine ⟨fun _ _ _ => rfl, ?_, fun _ _ _ => rfl, ?_, fun _ _ _ => rfl, by simp⟩
  · intro e he hkey
    rw [← hkey] at himplied
    obtain ⟨n, _, hn⟩ := Option.map_eq_some_iff.1 (lookup_unique himplied he)
    rw [← hn]
    exact readU8_fits n
  · intro e he hkey
    rw [← hkey] at hport
    rw [← Option.some.inj (lookup_unique hport he)]
    exact uint_fits port

theorem WireQuery.ArgumentsIn.get_fits {id target : Id20} {seq : Option Int64}
    (h : (WireQuery.get id target seq).ArgumentsIn as) :
    Bep44GetRequest.typed.strays (.dict as) = false := by
  simp only [WireQuery.ArgumentsIn, WireQuery.arguments, List.forall_mem_cons] at h
  obtain ⟨_, _, hseq, _⟩ := h
  refine FitsIn.straysIn_eq (fitsIn_of_slots ?_) []
  simp only [List.forall_mem_cons]
  refine ⟨fun _ _ _ => rfl, fun _ _ _ => rfl, ?_, by simp⟩
  intro e he hkey
  rw [← hkey] at hseq
  obtain ⟨n, _, hn⟩ := Option.map_eq_some_iff.1 (lookup_unique hseq he)
  rw [← hn]
  exact readI64_fits n

end Arguments

section Acceptance
variable {C : Codec} {buf : Bytes} {es : List Entry} {q : WireQuery} {transactionId : Bytes} {version : Option Bytes}
  {ip : Option SocketAddr}

theorem WireQuery.SentIn.raw (h : q.SentIn transactionId version ip es) {Args : Type} {args : Reader Args}
    {value : Option Args} (hargs : optionField (ascii "a") args (.dict es) = some value) :
    RawMessage.ofBencode args ignored.read (.dict es) =
      some ⟨.request, transactionId, none, none, some q.methodName, value, version, ip⟩ := by
  have habsent : ∀ {α : Type} {key : Bytes} (read : Reader α), Absent key es →
      optionField key read (.dict es) = some none := by
    intro α key read hkey
    simp only [optionField, show lookup key es = some none from hkey]
  refine RawMessage.ofBencode_iff.2 ⟨field_of_lookup h.messageType rfl, field_of_lookup h.transactionId rfl,
    habsent _ h.noError, habsent _ h.noResponse, ?_, hargs, h.version, h.ip⟩
  simp only [optionField, h.methodName, bytes, Option.map_some]

/-- A query fits if its arguments do: it has no error, and nothing else in it is an integer. -/
theorem WireQuery.SentIn.fits (h : q.SentIn transactionId version ip es) {Args : Type} {args : Typed Args}
    (hargs : ∀ e ∈ es, e.1 = ascii "a" → args.strays e.2 = false) :
    (RawMessage.typed args ignored).strays (.dict es) = false := by
  refine FitsIn.straysIn_eq (fitsIn_of_slots ?_) []
  simp only [List.forall_mem_cons]
  refine ⟨fun _ _ _ => rfl, fun _ _ _ => rfl, ?_, fun _ _ _ => rfl, fun _ _ _ => rfl, hargs, fun _ _ _ => rfl,
    fun _ _ _ => rfl, by simp⟩
  intro e he hkey
  have herror := h.noError
  rw [Absent, ← hkey] at herror
  cases lookup_unique herror he

theorem WireQuery.SentIn.scan (h : q.SentIn transactionId version ip es) (hread : C.read buf = .ok (.dict es)) :
    fromBytes C (RawMessage.typed ignored ignored) buf =
      .ok ⟨.request, transactionId, none, none, some q.methodName, some (), version, ip⟩ := by
  obtain ⟨as, has, _⟩ := h.arguments
  have hargs : optionField (ascii "a") ignored.read (.dict es) = some (some ()) := by
    simp only [optionField, has, ignored, plain, Option.map_some]
  exact fromBytes_of_read C hread (h.fits fun _ _ _ => rfl) (h.raw hargs)

theorem WireQuery.SentIn.deserializeQuery_eq (h : q.SentIn transactionId version ip es)
    (hread : C.read buf = .ok (.dict es)) {as : List Entry} (has : lookup (ascii "a") es = some (some (.dict as)))
    {Args : Type} {args : Typed Args} (hfits : args.strays (.dict as) = false) {value : Option Args}
    (hvalue : args.read (.dict as) = value) (kind : Args → MessageKind) : deserializeQuery C args kind buf =
      value.elim (.error .bencode) (fun req => .ok ⟨kind req, transactionId, version, ip⟩) := by
  have htakes : C.Takes (RawMessage.typed args ignored) (.dict es) := by
    refine .inl (h.fits ?_)
    intro e he hkey
    rw [← hkey] at has
    rw [← Option.some.inj (lookup_unique has he)]
    exact hfits
  rw [deserializeQuery, fromBytes_of_takes C hread htakes]
  change ((RawMessage.ofBencode args.read ignored.read (.dict es)).elim _ _ >>= _) = _
  cases value with
  | some req =>
    have hargs : optionField (ascii "a") args.read (.dict es) = some (some req) := by
      simp only [optionField, has, hvalue, Option.map_some]
    rw [h.raw hargs]
    rfl
  | none =>
    have hargs : optionField (ascii "a") args.read (.dict es) = none := by
      simp only [optionField, has, hvalue, Option.map_none]
    have hraw : RawMessage.ofBencode args.read ignored.read (.dict es) = none := by
      cases hm : RawMessage.ofBencode args.read ignored.read (.dict es) with
      | none => rfl
      | some m => cases hargs.symm.trans (RawMessage.ofBencode_iff.1 hm).arguments
    rw [hraw]
    rfl

theorem WireQuery.SentIn.deserializeMessage_eq (h : q.SentIn transactionId version ip es)
    (hread : C.read buf = .ok (.dict es)) : deserializeMessage C buf =
      if q.namesImpliedPort then .ok ⟨q.request, transactionId, version, ip⟩ else .error .bencode := by
  obtain ⟨as, has, hargs⟩ := h.arguments
  rw [deserializeMessage, h.scan hread, ok_bind]
  cases q with
  | findNode id target want =>
    dsimp only [WireQuery.methodName]
    rw [if_pos rfl, h.deserializeQuery_eq hread has (findNodeRequest_plain as) hargs.findNode_read]
    rfl
  | getPeers id infoHash want =>
    dsimp only [WireQuery.methodName]
    rw [if_neg (by decide), if_pos rfl, h.deserializeQuery_eq hread has (getPeersRequest_plain as)
      hargs.getPeers_read]
    rfl
  | ping id =>
    dsimp only [WireQuery.methodName]
    rw [if_neg (by decide), if_neg (by decide), if_pos rfl,
      h.deserializeQuery_eq hread has (pingRequest_plain as) hargs.ping_read]
    rfl
  | announcePeer id infoHash port token impliedPort =>
    dsimp only [WireQuery.methodName]
    rw [if_neg (by decide), if_neg (by decide), if_neg (by decide), if_pos rfl,
      h.deserializeQuery_eq hread has hargs.announcePeer_fits hargs.announcePeer_read]
    cases impliedPort with
    | none => rfl
    | some n => rfl
  | get id target seq =>
    dsimp only [WireQuery.methodName]
    rw [if_neg (by decide), if_neg (by decide), if_neg (by decide), if_neg (by decide), if_pos rfl,
      h.deserializeQuery_eq hread has hargs.get_fits hargs.get_read]
    rfl

/-- A query with all mandatory arguments is accepted as the request that it is, unless it is an
`announce_peer` without `implied_port`. -/
theorem query_accepted_iff (C : Codec) (buf : Bytes) (es : List Entry) (q : WireQuery) (transactionId : Bytes)
    (version : Option Bytes) (ip : Option SocketAddr) (hread : C.read buf = .ok (.dict es))
    (h : q.SentIn transactionId version ip es) :
    deserializeMessage C buf = .ok ⟨q.request, transactionId, version, ip⟩ ↔ q.namesImpliedPort = true := by
  rw [h.deserializeMessage_eq hread]
  cases q.namesImpliedPort with
  | true => simp
  | false => simp

section Sample

/-- An announcement with the arguments that BEP 5 makes mandatory, and with `implied_port` if it is given. -/
def sampleArguments (impliedPort : Option UInt8) : List Entry :=
  [(ascii "id", serializeId 1), (ascii "info_hash", serializeId 2), (ascii "port", .int 6881),
    (ascii "token", .bytes (ascii "abcd"))] ++ (impliedPort.map (fun n => (ascii "implied_port", .int n.toNat))).toList

def sampleAnnounce (impliedPort : Option UInt8) : List Entry :=
  [(ascii "a", .dict (sampleArguments impliedPort)), (ascii "q", .bytes (ascii "announce_peer")),
    (ascii "t", .bytes (ascii "aa")), (ascii "y", .bytes (ascii "q"))]

theorem sampleAnnounce_sentIn (impliedPort : Option UInt8) :
    (WireQuery.announcePeer 1 2 6881 (ascii "abcd") impliedPort).SentIn (ascii "aa") none none
      (sampleAnnounce impliedPort) where
  messageType := rfl
  transactionId := rfl
  methodName := rfl
  arguments := by
    refine ⟨sampleArguments impliedPort, rfl, ?_⟩
    simp only [WireQuery.ArgumentsIn, WireQuery.arguments, List.forall_mem_cons]
    cases impliedPort with
    | none => exact ⟨rfl, rfl, rfl, rfl, rfl, by simp⟩
    | some n => exact ⟨rfl, rfl, rfl, rfl, rfl, by simp⟩
  noResponse := rfl
  noError := rfl
  version := rfl
  ip := rfl

/-- A query with all mandatory arguments and no optional one is not accepted. -/
theorem plainAnnounce_rejected :
    (WireQuery.announcePeer 1 2 6881 (ascii "abcd") none).SentIn (ascii "aa") none none (sampleAnnounce none) ∧
      Codec.standard.read (encode (.dict (sampleAnnounce none))) = .ok (.dict (sampleAnnounce none)) ∧
      deserializeMessage Codec.standard (encode (.dict (sampleAnnounce none))) = .error .bencode := by
  have hread := Codec.standard_read (.dict (sampleAnnounce none))
  exact ⟨sampleAnnounce_sentIn none, hread, (sampleAnnounce_sentIn none).deserializeMessage_eq hread⟩

theorem impliedAnnounce_accepted :
    deserializeMessage Codec.standard (encode (.dict (sampleAnnounce (some 1)))) =
        .ok ⟨.announcePeer ⟨1, 1, 2, 6881, ascii "abcd"⟩, ascii "aa", none, none⟩ ↔
      (WireQuery.announcePeer 1 2 6881 (ascii "abcd") (some 1)).namesImpliedPort = true :=
  query_accepted_iff Codec.standard (encode (.dict (sampleAnnounce (some 1)))) (sampleAnnounce (some 1))
    (.announcePeer 1 2 6881 (ascii "abcd") (some 1)) (ascii "aa") none none (Codec.standard_read _)
    (sampleAnnounce_sentIn (some 1))

end Sample
end Acceptance
end LibrtbitDht
