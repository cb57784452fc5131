import LibrtbitDht.BencodeText
import LibrtbitDht.Message

set_option autoImplicit false

namespace LibrtbitDht
open Bencode
open ByteStrings (Bytes ascii)

section Reading
variable {Args Resp : Type}

structure RawMessage.Read (args : Reader Args) (resp : Reader Resp) (v : BValue) (m : RawMessage Args Resp) : Prop where
  messageType : field (ascii "y") MessageType.ofBencode v = some m.messageType
  transactionId : field (ascii "t") bytes v = some m.transactionId
  error : optionField (ascii "e") ErrorDescription.ofBencode v = some m.error
  response : optionField (ascii "r") resp v = some m.response
  methodName : optionField (ascii "q") bytes v = some m.methodName
  arguments : optionField (ascii "a") args v = some m.arguments
  version : optionField (ascii "v") bytes v = some m.version
  ip : optionField (ascii "ip") readSocketAddr v = some m.ip

theorem RawMessage.ofBencode_iff {args : Reader Args} {resp : Reader Resp} {v : BValue} {m : RawMessage Args Resp} :
    RawMessage.ofBencode args resp v = some m ↔ RawMessage.Read args resp v m := by
  unfold RawMessage.ofBencode
  simp only [Option.bind_eq_bind, Option.bind_eq_some_iff]
  constructor
  · rintro ⟨_, h1, _, h2, _, h3, _, h4, _, h5, _, h6, _, h7, _, h8, heq⟩
    cases heq
    exact ⟨h1, h2, h3, h4, h5, h6, h7, h8⟩
  · rintro ⟨h1, h2, h3, h4, h5, h6, h7, h8⟩
    exact ⟨_, h1, _, h2, _, h3, _, h4, _, h5, _, h6, _, h7, _, h8, rfl⟩

theorem RawMessage.Read.dict {args : Reader Args} {resp : Reader Resp} {v : BValue} {m : RawMessage Args Resp}
    (h : RawMessage.Read args resp v m) : ∃ es, v = .dict es := by
  obtain ⟨es, _, hes, _⟩ := field_some h.messageType
  exact ⟨es, hes⟩

end Reading

section Kinds

def MessageKind.messageType : MessageKind → MessageType
  | .error _ => .error
  | .response _ => .response
  | _ => .request

def MessageKind.methodName : MessageKind → Option Bytes
  | .findNodeRequest _ => some (ascii "find_node")
  | .getPeersRequest _ => some (ascii "get_peers")
  | .pingRequest _ => some (ascii "ping")
  | .announcePeer _ => some (ascii "announce_peer")
  | .bep44GetRequest _ => some (ascii "get")
  | .bep44PutRequest _ => some (ascii "put")
  | .response _ => none
  | .error _ => none

def Present (key : Bytes) (es : List Entry) : Prop := ∃ v, lookup key es = some (some v)

def Absent (key : Bytes) (es : List Entry) : Prop := lookup key es = some none

/-- The packet names the kind of message, and has the one field that goes with it. -/
structure Classified (es : List Entry) (kind : MessageKind) : Prop where
  named : lookup (ascii "y") es = some (some kind.messageType.toBencode)
  query : kind.messageType = .request →
    (∃ methodName, kind.methodName = some methodName ∧ lookup (ascii "q") es = some (some (.bytes methodName))) ∧
      Present (ascii "a") es ∧ Absent (ascii "r") es ∧ Absent (ascii "e") es
  response : kind.messageType = .response → Present (ascii "r") es ∧ Absent (ascii "a") es ∧ Absent (ascii "e") es
  error : kind.messageType = .error → Present (ascii "e") es ∧ Absent (ascii "a") es ∧ Absent (ascii "r") es

theorem messageType_ofBencode {v : BValue} {messageType : MessageType}
    (h : MessageType.ofBencode v = some messageType) : v = messageType.toBencode := by
  cases v with
  | bytes b =>
    simp only [MessageType.ofBencode, bytes, Option.bind_eq_bind, Option.bind_some] at h
    split_ifs at h with hq hr he
    · cases h
      rw [hq]
      rfl
    · cases h
      rw [hr]
      rfl
    · cases h
      rw [he]
      rfl
  | int n => cases h
  | list vs => cases h
  | dict es => cases h

theorem bytes_some {v : BValue} {b : Bytes} (h : bytes v = some b) : v = .bytes b := by
  cases v with
  | bytes b' =>
    cases h
    rfl
  | int n => cases h
  | list vs => cases h
  | dict es => cases h

section Fields
variable {Args Resp : Type} {args : Reader Args} {resp : Reader Resp} {es : List Entry} {m : RawMessage Args Resp}

theorem RawMessage.Read.lookup_y (h : RawMessage.Read args resp (.dict es) m) :
    lookup (ascii "y") es = some (some m.messageType.toBencode) := by
  obtain ⟨_, v, heq, hl, hv⟩ := field_some h.messageType
  cases heq
  rw [hl, messageType_ofBencode hv]

theorem RawMessage.Read.lookup_q (h : RawMessage.Read args resp (.dict es) m) {methodName : Bytes}
    (hq : m.methodName = some methodName) : lookup (ascii "q") es = some (some (.bytes methodName)) := by
  rcases optionField_some h.methodName with ⟨hnone, _⟩ | ⟨v, b, hb, hl, hv⟩
  · cases hq.symm.trans hnone
  · cases hq.symm.trans hb
    rw [hl, bytes_some hv]

end Fields

theorem present_of_some {α : Type} {key : Bytes} {read : Reader α} {es : List Entry} {a : α}
    (h : optionField key read (.dict es) = some (some a)) : Present key es := by
  rcases optionField_some h with ⟨hnone, _⟩ | ⟨v, _, _, hl, _⟩
  · cases hnone
  · exact ⟨v, hl⟩

theorem absent_of_none {α : Type} {key : Bytes} {read : Reader α} {es : List Entry}
    (h : optionField key read (.dict es) = some none) : Absent key es := by
  rcases optionField_some h with ⟨_, hl⟩ | ⟨_, _, hsome, _, _⟩
  · exact hl
  · cases hsome

theorem some_of_present {α : Type} {key : Bytes} {read : Reader α} {es : List Entry} {value : Option α}
    (hpresent : Present key es) (h : optionField key read (.dict es) = some value) : ∃ a, value = some a := by
  obtain ⟨v, hv⟩ := hpresent
  rcases optionField_some h with ⟨_, hl⟩ | ⟨_, a, ha, _, _⟩
  · cases hv.symm.trans hl
  · exact ⟨a, ha⟩

section Classifying
variable {Args Resp : Type} {args : Reader Args} {resp : Reader Resp} {es : List Entry} {m : RawMessage Args Resp}

theorem RawMessage.Read.classified_query (h : RawMessage.Read args resp (.dict es) m) {a : Args} {methodName : Bytes}
    (htype : m.messageType = .request) (ha : m.arguments = some a) (hq : m.methodName = some methodName)
    (hr : m.response = none) (he : m.error = none) {kind : MessageKind} (hkind : kind.messageType = .request)
    (hname : kind.methodName = some methodName) : Classified es kind where
  named := by rw [h.lookup_y, htype, hkind]
  query _ := ⟨⟨methodName, hname, h.lookup_q hq⟩, present_of_some (ha ▸ h.arguments),
    absent_of_none (hr ▸ h.response), absent_of_none (he ▸ h.error)⟩
  response hresponse := nomatch hkind.symm.trans hresponse
  error herror := nomatch hkind.symm.trans herror

theorem RawMessage.Read.classified_response (h : RawMessage.Read args resp (.dict es) m) {r : Resp}
    (htype : m.messageType = .response) (ha : m.arguments = none) (hr : m.response = some r) (he : m.error = none)
    (reply : Response) : Classified es (.response reply) where
  named := by rw [h.lookup_y, htype, MessageKind.messageType]
  query := nofun
  response _ := ⟨present_of_some (hr ▸ h.response), absent_of_none (ha ▸ h.arguments), absent_of_none (he ▸ h.error)⟩
  error := nofun

theorem RawMessage.Read.classified_error (h : RawMessage.Read args resp (.dict es) m) {e : ErrorDescription}
    (htype : m.messageType = .error) (ha : m.arguments = none) (hr : m.response = none) (he : m.error = some e)
    (description : ErrorDescription) : Classified es (.error description) where
  named := by rw [h.lookup_y, htype, MessageKind.messageType]
  query := nofun
  response := nofun
  error _ := ⟨present_of_some (he ▸ h.error), absent_of_none (ha ▸ h.arguments), absent_of_none (hr ▸ h.response)⟩

end Classifying

end Kinds

section Passes

/-- Whether the second pass over a query of this method comes to an integer that does not fit. -/
def queryStrays (methodName : Bytes) (v : BValue) : Bool :=
  if methodName = ascii "find_node" then (RawMessage.typed FindNodeRequest.typed ignored).strays v
  else if methodName = ascii "get_peers" then (RawMessage.typed GetPeersRequest.typed ignored).strays v
  else if methodName = ascii "ping" then (RawMessage.typed PingRequest.typed ignored).strays v
  else if methodName = ascii "announce_peer" then (RawMessage.typed AnnouncePeer.typed ignored).strays v
  else if methodName = ascii "get" then (RawMessage.typed Bep44GetRequest.typed ignored).strays v
  else if methodName = ascii "put" then (RawMessage.typed Bep44PutRequest.typed ignored).strays v
  else false

/-- Whether there is a second pass after these fields, and it comes to an integer that does not fit. -/
def secondStrays (de : RawMessage Unit Unit) (v : BValue) : Bool :=
  match de.messageType with
  | .request =>
    match de.arguments, de.methodName, de.response, de.error with
    | some _, some methodName, none, none => queryStrays methodName v
    | _, _, _, _ => false
  | .response =>
    match de.arguments, de.response, de.error with
    | none, some _, none => (RawMessage.typed ignored Response.typed).strays v
    | _, _, _ => false
  | .error =>
    match de.arguments, de.response, de.error with
    | none, none, some _ => (RawMessage.typed ignored Response.typed).strays v
    | _, _, _ => false

/-- The implementation reads the text, and the integers that the passes come to fit their fields. -/
structure Tame (C : Codec) (buf : Bytes) : Prop where
  read : C.read buf ≠ .error .crashed
  first : ∀ v, C.read buf = .ok v → (RawMessage.typed ignored ignored).strays v = false
  second : ∀ v de, C.read buf = .ok v → RawMessage.ofBencode ignored.read ignored.read v = some de →
    secondStrays de v = false

structure Taken (C : Codec) (v : BValue) : Prop where
  first : C.Takes (RawMessage.typed ignored ignored) v
  second : ∀ de, RawMessage.ofBencode ignored.read ignored.read v = some de →
    secondStrays de v = false ∨ C.stray v = .ok v

theorem Tame.taken {C : Codec} {buf : Bytes} {v : BValue} (h : Tame C buf) (hread : C.read buf = .ok v) : Taken C v :=
  ⟨.inl (h.first v hread), fun de hde => .inl (h.second v de hread hde)⟩

theorem taken_of_wraps {C : Codec} (h : C.Wraps) (v : BValue) : Taken C v :=
  ⟨.inr (h v), fun _ _ => .inr (h v)⟩

end Passes

section Parsing
variable (C : Codec)

inductive ParseCase (buf : Bytes) : Except ParseError Message → Prop where
  | rejected {e : ParseError} (unwrapped : e ≠ .unwrapOnNone) (returned : e ≠ .crashed) : ParseCase buf (.error e)
  | accepted {m : Message} {es : List Entry} (read : C.read buf = .ok (.dict es)) (classified : Classified es m.kind) :
      ParseCase buf (.ok m)

variable {C} {buf : Bytes} {es : List Entry}

theorem secondPass_case {Args Resp α : Type} {args : Typed Args} {resp : Typed Resp}
    {unwrapped : RawMessage Args Resp → Option α} {kind : α → MessageKind} (hread : C.read buf = .ok (.dict es))
    (htakes : C.Takes (RawMessage.typed args resp) (.dict es))
    (hsome : ∀ de, RawMessage.Read args.read resp.read (.dict es) de → ∃ a, unwrapped de = some a)
    (hkind : ∀ a, Classified es (kind a)) :
    ParseCase C buf (do
      let de ← fromBytes C (RawMessage.typed args resp) buf
      let a ← unwrap (unwrapped de)
      return ⟨kind a, de.transactionId, de.version, de.ip⟩) := by
  rw [fromBytes_of_takes C hread htakes]
  change ParseCase C buf ((RawMessage.ofBencode args.read resp.read (.dict es)).elim _ _ >>= _)
  cases hde : RawMessage.ofBencode args.read resp.read (.dict es) with
  | none => exact .rejected (by simp) (by simp)
  | some de =>
    obtain ⟨a, ha⟩ := hsome de (RawMessage.ofBencode_iff.1 hde)
    rw [Option.elim_some, ok_bind, ha]
    exact .accepted hread (hkind a)

theorem deserializeQuery_case {Args : Type} {args : Typed Args} (kind : Args → MessageKind)
    (hread : C.read buf = .ok (.dict es)) (htakes : C.Takes (RawMessage.typed args ignored) (.dict es))
    (ha : Present (ascii "a") es) (hkind : ∀ req, Classified es (kind req)) :
    ParseCase C buf (deserializeQuery C args kind buf) :=
  secondPass_case hread htakes (fun _ hde => some_of_present ha hde.arguments) hkind

theorem deserializeMessage_case (hbuf : C.read buf ≠ .error .crashed) (h : ∀ v, C.read buf = .ok v → Taken C v) :
    ParseCase C buf (deserializeMessage C buf) := by
  cases hread : C.read buf with
  | error e =>
    cases e with
    | crashed => exact absurd hread hbuf
    | refused =>
      have hfirst : fromBytes C (RawMessage.typed ignored ignored) buf = .error .bencode := by
        rw [fromBytes, C.readAs_failed hread]
      rw [deserializeMessage, hfirst]
      exact .rejected (by simp) (by simp)
  | ok v =>
    have htaken := h v hread
    unfold deserializeMessage
    rw [fromBytes_of_takes C hread htaken.first]
    change ParseCase C buf ((RawMessage.ofBencode ignored.read ignored.read v).elim _ _ >>= _)
    cases hde : RawMessage.ofBencode ignored.read ignored.read v with
    | none => exact .rejected (by simp) (by simp)
    | some de =>
      have first := RawMessage.ofBencode_iff.1 hde
      obtain ⟨es, rfl⟩ := first.dict
      have htakes := htaken.second de hde
      rw [Option.elim_some, ok_bind]
      unfold secondStrays at htakes
      cases htype : de.messageType with
      | request =>
        rw [htype] at htakes
        dsimp only at htakes ⊢
        split
        · rename_i methodName ha hq hr he
          rw [ha, hq, hr, he] at htakes
          have hpresent := present_of_some (ha ▸ first.arguments)
          have hquery : ∀ kind : MessageKind, kind.messageType = .request → kind.methodName = some methodName →
              Classified es kind := fun _ => first.classified_query htype ha hq hr he
          dsimp only [queryStrays] at htakes
          split_ifs at htakes ⊢ with h1 h2 h3 h4 h5 h6
          · exact deserializeQuery_case _ hread htakes hpresent fun _ => hquery _ rfl (congrArg some h1.symm)
          · exact deserializeQuery_case _ hread htakes hpresent fun _ => hquery _ rfl (congrArg some h2.symm)
          · exact deserializeQuery_case _ hread htakes hpresent fun _ => hquery _ rfl (congrArg some h3.symm)
          · exact deserializeQuery_case _ hread htakes hpresent fun _ => hquery _ rfl (congrArg some h4.symm)
          · exact deserializeQuery_case _ hread htakes hpresent fun _ => hquery _ rfl (congrArg some h5.symm)
          · exact deserializeQuery_case _ hread htakes hpresent fun _ => hquery _ rfl (congrArg some h6.symm)
          · exact .rejected (by simp) (by simp)
        · exact .rejected (by simp) (by simp)
      | response =>
        rw [htype] at htakes
        dsimp only at htakes ⊢
        split
        · rename_i ha hr he
          rw [ha, hr, he] at htakes
          have hpresent := present_of_some (hr ▸ first.response)
          exact secondPass_case hread htakes (fun _ hde => some_of_present hpresent hde.response)
            (first.classified_response htype ha hr he)
        · exact .rejected (by simp) (by simp)
      | error =>
        rw [htype] at htakes
        dsimp only at htakes ⊢
        split
        · rename_i ha hr he
          rw [ha, hr, he] at htakes
          have hpresent := present_of_some (he ▸ first.error)
          exact secondPass_case hread htakes (fun _ hde => some_of_present hpresent hde.error)
            (first.classified_error htype ha hr he)
        · exact .rejected (by simp) (by simp)

section Crashes
variable {v : BValue}

end Crashes

end Parsing

section KnownKeys

def responseKeys : List Bytes :=
  [ascii "values", ascii "id", ascii "nodes", ascii "nodes6", ascii "token", ascii "v", ascii "k", ascii "sig",
    ascii "seq"]

def argumentKeys (methodName : Bytes) : List Bytes :=
  if methodName = ascii "find_node" then [ascii "id", ascii "target", ascii "want"]
  else if methodName = ascii "get_peers" then [ascii "id", ascii "info_hash", ascii "want"]
  else if methodName = ascii "ping" then [ascii "id"]
  else if methodName = ascii "announce_peer" then
    [ascii "id", ascii "implied_port", ascii "info_hash", ascii "port", ascii "token"]
  else if methodName = ascii "get" then [ascii "id", ascii "target", ascii "seq"]
  else if methodName = ascii "put" then
    [ascii "id", ascii "token", ascii "k", ascii "sig", ascii "seq", ascii "v", ascii "salt", ascii "cas"]
  else []

def knownArguments (es : List Entry) : List Bytes :=
  match lookup (ascii "q") es with
  | some (some (.bytes methodName)) => argumentKeys methodName
  | _ => []

theorem findNodeRequest_readsOnly : ReadsOnly (argumentKeys (ascii "find_node")) FindNodeRequest.ofBencode :=
  .bind (readsOnly_field _ (by decide)) fun _ => .bind (readsOnly_field _ (by decide)) fun _ =>
    .bind (readsOnly_optionField _ (by decide)) fun _ => readsOnly_pure _

theorem getPeersRequest_readsOnly : ReadsOnly (argumentKeys (ascii "get_peers")) GetPeersRequest.ofBencode :=
  .bind (readsOnly_field _ (by decide)) fun _ => .bind (readsOnly_field _ (by decide)) fun _ =>
    .bind (readsOnly_optionField _ (by decide)) fun _ => readsOnly_pure _

theorem pingRequest_readsOnly : ReadsOnly (argumentKeys (ascii "ping")) PingRequest.ofBencode :=
  .bind (readsOnly_field _ (by decide)) fun _ => readsOnly_pure _

theorem announcePeer_readsOnly : ReadsOnly (argumentKeys (ascii "announce_peer")) AnnouncePeer.ofBencode :=
  .bind (readsOnly_field _ (by decide)) fun _ => .bind (readsOnly_field _ (by decide)) fun _ =>
    .bind (readsOnly_field _ (by decide)) fun _ => .bind (readsOnly_field _ (by decide)) fun _ =>
      .bind (readsOnly_field _ (by decide)) fun _ => readsOnly_pure _

theorem bep44GetRequest_readsOnly : ReadsOnly (argumentKeys (ascii "get")) Bep44GetRequest.ofBencode :=
  .bind (readsOnly_field _ (by decide)) fun _ => .bind (readsOnly_field _ (by decide)) fun _ =>
    .bind (readsOnly_optionField _ (by decide)) fun _ => readsOnly_pure _

theorem bep44PutRequest_readsOnly : ReadsOnly (argumentKeys (ascii "put")) Bep44PutRequest.ofBencode :=
  .bind (readsOnly_field _ (by decide)) fun _ => .bind (readsOnly_field _ (by decide)) fun _ =>
    .bind (readsOnly_field _ (by decide)) fun _ => .bind (readsOnly_field _ (by decide)) fun _ =>
      .bind (readsOnly_field _ (by decide)) fun _ => .bind (readsOnly_field _ (by decide)) fun _ =>
        .bind (readsOnly_optionField _ (by decide)) fun _ => .bind (readsOnly_optionField _ (by decide)) fun _ =>
          readsOnly_pure _

theorem response_readsOnly : ReadsOnly responseKeys Response.ofBencode :=
  .bind (readsOnly_optionField _ (by decide)) fun _ => .bind (readsOnly_field _ (by decide)) fun _ =>
    .bind (readsOnly_optionField _ (by decide)) fun _ => .bind (readsOnly_optionField _ (by decide)) fun _ =>
      .bind (readsOnly_optionField _ (by decide)) fun _ => .bind (readsOnly_optionField _ (by decide)) fun _ =>
        .bind (readsOnly_optionField _ (by decide)) fun _ => .bind (readsOnly_optionField _ (by decide)) fun _ =>
          .bind (readsOnly_optionField _ (by decide)) fun _ => readsOnly_pure _

theorem ignored_readsOnly (keys : List Bytes) : ReadsOnly keys ignored.read := readsOnly_pure _

structure StrayMethod (es : List Entry) : Prop where
  noQuery : lookup (ascii "y") es ≠ some (some MessageType.request.toBencode)
  method : Absent (ascii "q") es ∨ ∃ b, lookup (ascii "q") es = some (some (.bytes b))

/-- Two packets that agree on the known keys at each level; they may differ in other keys, in the
order of their keys, and in a stray method name. -/
structure SamePacket (es es' : List Entry) : Prop where
  known : SameUnder [ascii "y", ascii "t", ascii "e", ascii "v", ascii "ip"] es es'
  methodName : lookup (ascii "q") es = lookup (ascii "q") es' ∨ StrayMethod es ∧ StrayMethod es'
  arguments : SameDictUnder (ascii "a") (knownArguments es) es es'
  response : SameDictUnder (ascii "r") responseKeys es es'

def RawMessage.withoutMethod {Args Resp : Type} (m : RawMessage Args Resp) : RawMessage Args Resp :=
  { m with methodName := none }

section Agreement
variable {Args Resp : Type} {args : Reader Args} {resp : Reader Resp} {es es' : List Entry}

theorem StrayMethod.read (h : StrayMethod es) :
    ∃ methodName, optionField (ascii "q") bytes (.dict es) = some methodName := by
  rcases h.method with habsent | ⟨b, hb⟩
  · exact ⟨none, by simp only [optionField, show lookup (ascii "q") es = some none from habsent]⟩
  · exact ⟨some b, by simp only [optionField, hb, bytes, Option.map_some]⟩

theorem SamePacket.withoutMethod_eq (h : SamePacket es es') (hargs : ReadsOnly (knownArguments es) args)
    (hresp : ReadsOnly responseKeys resp) :
    (RawMessage.ofBencode args resp (.dict es)).map RawMessage.withoutMethod =
        (RawMessage.ofBencode args resp (.dict es')).map RawMessage.withoutMethod ∧
      (lookup (ascii "q") es = lookup (ascii "q") es' →
        RawMessage.ofBencode args resp (.dict es) = RawMessage.ofBencode args resp (.dict es')) := by
  have hy : field (ascii "y") MessageType.ofBencode (.dict es) = field (ascii "y") MessageType.ofBencode (.dict es') :=
    readsOnly_field _ (by decide) _ _ h.known
  have ht : field (ascii "t") bytes (.dict es) = field (ascii "t") bytes (.dict es') :=
    readsOnly_field _ (by decide) _ _ h.known
  have he : optionField (ascii "e") ErrorDescription.ofBencode (.dict es) =
      optionField (ascii "e") ErrorDescription.ofBencode (.dict es') := readsOnly_optionField _ (by decide) _ _ h.known
  have hv : optionField (ascii "v") bytes (.dict es) = optionField (ascii "v") bytes (.dict es') :=
    readsOnly_optionField _ (by decide) _ _ h.known
  have hip : optionField (ascii "ip") readSocketAddr (.dict es) = optionField (ascii "ip") readSocketAddr (.dict es') :=
    readsOnly_optionField _ (by decide) _ _ h.known
  have ha := hargs.optionField_eq h.arguments
  have hr := hresp.optionField_eq h.response
  have hsame : lookup (ascii "q") es = lookup (ascii "q") es' →
      RawMessage.ofBencode args resp (.dict es) = RawMessage.ofBencode args resp (.dict es') := by
    intro hq
    have hq : optionField (ascii "q") bytes (.dict es) = optionField (ascii "q") bytes (.dict es') := by
      simp only [optionField, hq]
    simp only [RawMessage.ofBencode, hy, ht, he, hr, hq, ha, hv, hip]
  refine ⟨?_, hsame⟩
  rcases h.methodName with hq | ⟨hstray, hstray'⟩
  · rw [hsame hq]
  · obtain ⟨methodName, hq⟩ := hstray.read
    obtain ⟨methodName', hq'⟩ := hstray'.read
    simp only [RawMessage.ofBencode, hy, ht, he, hr, hq, hq', ha, hv, hip, Option.bind_eq_bind, Option.bind_some,
      Option.map_bind, Function.comp_def]
    rfl

theorem map_withoutMethod_cases {x y : Option (RawMessage Args Resp)}
    (h : x.map RawMessage.withoutMethod = y.map RawMessage.withoutMethod) :
    (x = none ∧ y = none) ∨ ∃ m m', x = some m ∧ y = some m' ∧ m.withoutMethod = m'.withoutMethod := by
  cases x with
  | none =>
    cases y with
    | none => exact .inl ⟨rfl, rfl⟩
    | some m' => cases h
  | some m =>
    cases y with
    | none => cases h
    | some m' => exact .inr ⟨m, m', rfl, rfl, Option.some.inj h⟩

end Agreement

section Result
variable {C : Codec} {buf buf' : Bytes} {es es' : List Entry}

theorem SamePacket.deserializeQuery_eq (h : SamePacket es es') (hread : C.read buf = .ok (.dict es))
    (hread' : C.read buf' = .ok (.dict es')) (hq : lookup (ascii "q") es = lookup (ascii "q") es') {Args : Type}
    {args : Typed Args} (kind : Args → MessageKind) (htakes : C.Takes (RawMessage.typed args ignored) (.dict es))
    (htakes' : C.Takes (RawMessage.typed args ignored) (.dict es')) (hargs : ReadsOnly (knownArguments es) args.read) :
    deserializeQuery C args kind buf = deserializeQuery C args kind buf' := by
  have hraw : (RawMessage.typed args ignored).read (.dict es) = (RawMessage.typed args ignored).read (.dict es') :=
    (h.withoutMethod_eq hargs (ignored_readsOnly responseKeys)).2 hq
  simp only [deserializeQuery, fromBytes_of_takes C hread htakes, fromBytes_of_takes C hread' htakes', hraw]

/-- The second pass over a packet that is not a query takes no notice of a method name. -/
theorem SamePacket.second_eq (h : SamePacket es es') (hread : C.read buf = .ok (.dict es))
    (hread' : C.read buf' = .ok (.dict es')) (htakes : C.Takes (RawMessage.typed ignored Response.typed) (.dict es))
    (htakes' : C.Takes (RawMessage.typed ignored Response.typed) (.dict es')) {α : Type}
    (next : RawMessage Unit Response → Except ParseError α) (hnext : ∀ m, next m = next m.withoutMethod) :
    (fromBytes C (RawMessage.typed ignored Response.typed) buf >>= next) =
      (fromBytes C (RawMessage.typed ignored Response.typed) buf' >>= next) := by
  rw [fromBytes_of_takes C hread htakes, fromBytes_of_takes C hread' htakes']
  change ((RawMessage.ofBencode ignored.read Response.ofBencode (.dict es)).elim _ _ >>= next) =
    ((RawMessage.ofBencode ignored.read Response.ofBencode (.dict es')).elim _ _ >>= next)
  rcases map_withoutMethod_cases (h.withoutMethod_eq (ignored_readsOnly _) response_readsOnly).1 with
    ⟨hbad, hbad'⟩ | ⟨m, m', hm, hm', hsame⟩
  · rw [hbad, hbad']
  · rw [hm, hm']
    change next m = next m'
    rw [hnext m, hnext m', hsame]

theorem SamePacket.deserializeMessage_eq (h : SamePacket es es') (hread : C.read buf = .ok (.dict es))
    (hread' : C.read buf' = .ok (.dict es')) (htaken : Taken C (.dict es)) (htaken' : Taken C (.dict es')) :
    deserializeMessage C buf = deserializeMessage C buf' := by
  have hfirst := h.withoutMethod_eq (ignored_readsOnly _) (ignored_readsOnly _)
  unfold deserializeMessage
  rw [fromBytes_of_takes C hread htaken.first, fromBytes_of_takes C hread' htaken'.first]
  change ((RawMessage.ofBencode ignored.read ignored.read (.dict es)).elim _ _ >>= _) =
    ((RawMessage.ofBencode ignored.read ignored.read (.dict es')).elim _ _ >>= _)
  rcases map_withoutMethod_cases hfirst.1 with ⟨hbad, hbad'⟩ | ⟨de, de', hde, hde', hsame⟩
  · rw [hbad, hbad']
    rfl
  have htakes := htaken.second de hde
  have htakes' := htaken'.second de' hde'
  rw [hde, hde', Option.elim_some, Option.elim_some, ok_bind, ok_bind]
  have hread_de := RawMessage.ofBencode_iff.1 hde
  obtain ⟨messageType, transactionId, error, response, methodName, arguments, version, ip⟩ := de
  obtain ⟨_, _, _, _, methodName', _, _, _⟩ := de'
  cases hsame
  cases messageType with
  | request =>
    have hq : lookup (ascii "q") es = lookup (ascii "q") es' := by
      rcases h.methodName with hq | ⟨hstray, _⟩
      · exact hq
      · exact absurd hread_de.lookup_y hstray.noQuery
    have heq := hfirst.2 hq
    rw [hde, hde'] at heq
    cases heq
    match arguments, methodName, response, error with
    | some (), some methodName, none, none =>
      have hknown : knownArguments es = argumentKeys methodName := by
        rw [knownArguments, hread_de.lookup_q rfl]
      have hquery : ∀ {Args : Type} {args : Typed Args} (kind : Args → MessageKind),
          C.Takes (RawMessage.typed args ignored) (.dict es) → C.Takes (RawMessage.typed args ignored) (.dict es') →
          ReadsOnly (argumentKeys methodName) args.read →
            deserializeQuery C args kind buf = deserializeQuery C args kind buf' :=
        fun kind hes hes' hargs => h.deserializeQuery_eq hread hread' hq kind hes hes' (hknown ▸ hargs)
      dsimp only [secondStrays, queryStrays] at htakes htakes' ⊢
      split_ifs at htakes htakes' ⊢ with h1 h2 h3 h4 h5 h6
      · exact hquery _ htakes htakes' (h1 ▸ findNodeRequest_readsOnly)
      · exact hquery _ htakes htakes' (h2 ▸ getPeersRequest_readsOnly)
      · exact hquery _ htakes htakes' (h3 ▸ pingRequest_readsOnly)
      · exact hquery _ htakes htakes' (h4 ▸ announcePeer_readsOnly)
      · exact hquery _ htakes htakes' (h5 ▸ bep44GetRequest_readsOnly)
      · exact hquery _ htakes htakes' (h6 ▸ bep44PutRequest_readsOnly)
      · rfl
    | none, _, _, _ => rfl
    | some (), none, _, _ => rfl
    | some (), some _, some (), _ => rfl
    | some (), some _, none, some _ => rfl
  | response =>
    match arguments, response, error with
    | none, some (), none => exact h.second_eq hread hread' htakes htakes' _ fun _ => rfl
    | some (), _, _ => rfl
    | none, none, _ => rfl
    | none, some (), some _ => rfl
  | error =>
    match arguments, response, error with
    | none, none, some _ => exact h.second_eq hread hread' htakes htakes' _ fun _ => rfl
    | some (), _, _ => rfl
    | none, some (), _ => rfl
    | none, none, none => rfl

end Result
end KnownKeys

/-- The parser returns, classifies what it accepts, and sees known keys only. -/
structure WellParsed (C : Codec) (buf : Bytes) : Prop where
  returned : deserializeMessage C buf ≠ .error .crashed
  unwrapped : deserializeMessage C buf ≠ .error .unwrapOnNone
  classified : ∀ m, deserializeMessage C buf = .ok m → ∃ es, C.read buf = .ok (.dict es) ∧ Classified es m.kind
  known : ∀ es buf' es', C.read buf = .ok (.dict es) → C.read buf' = .ok (.dict es') → SamePacket es es' →
    Tame C buf' ∨ C.Wraps → deserializeMessage C buf = deserializeMessage C buf'

theorem wellParsed_of_taken {C : Codec} {buf : Bytes} (hbuf : C.read buf ≠ .error .crashed)
    (h : ∀ v, C.read buf = .ok v → Taken C v) : WellParsed C buf where
  returned := by
    intro hcrash
    have hcase := deserializeMessage_case hbuf h
    rw [hcrash] at hcase
    cases hcase with
    | rejected _ returned => exact returned rfl
  unwrapped := by
    intro hpanic
    have hcase := deserializeMessage_case hbuf h
    rw [hpanic] at hcase
    cases hcase with
    | rejected unwrapped => exact unwrapped rfl
  classified := by
    intro m hok
    have hcase := deserializeMessage_case hbuf h
    rw [hok] at hcase
    cases hcase with
    | accepted read classified => exact ⟨_, read, classified⟩
  known := by
    intro es buf' es' hread hread' hsame hother
    have htaken' : Taken C (.dict es') := by
      rcases hother with htame | hwraps
      · exact htame.taken hread'
      · exact taken_of_wraps hwraps _
    exact hsame.deserializeMessage_eq hread hread' (h _ hread) htaken'

section Sample

end Sample
end LibrtbitDht
