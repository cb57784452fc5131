import LibrtbitDht.MessageClassification
import LibrtbitDht.MessageRoundTrip

set_option autoImplicit false

namespace LibrtbitDht
open Bencode
open ByteStrings (Bytes ascii exists_read_of_records)

section Fixed
variable {α : Type} {f : α → α}

theorem map_eq_self {l : List α} (h : ∀ a ∈ l, f a = a) : l.map f = l := by
  calc
    l.map f = l.map id := List.map_congr_left h
    _ = l := List.map_id l

theorem list_fixed {read : Reader α} (hread : ∀ v a, read v = some a → f a = a) {v : BValue} {l : List α}
    (h : list read v = some l) : l.map f = l := by
  apply map_eq_self
  intro a ha
  obtain ⟨w, hw⟩ := exists_read_of_list h ha
  exact hread w a hw

theorem readCompactList_fixed {compact : Compact α} (hread : ∀ b a, compact.fromSlice b = some a → f a = a)
    {v : BValue} {l : List α} (h : readCompactList compact v = some l) : l.map f = l := by
  apply map_eq_self
  intro a ha
  cases v with
  | bytes b =>
    obtain ⟨b', hb'⟩ := exists_read_of_records h ha
    exact hread b' a hb'
  | int n => cases h
  | list vs => cases h
  | dict es => cases h

theorem optionField_fixed {key : Bytes} {read : Reader α} (hread : ∀ v a, read v = some a → f a = a) {v : BValue}
    {value : Option α} (h : optionField key read v = some value) : value.map f = value := by
  cases v with
  | dict es =>
    rcases optionField_some h with ⟨rfl, _⟩ | ⟨w, a, rfl, _, hw⟩
    · rfl
    · rw [Option.map_some, hread w a hw]
  | int n => cases h
  | bytes b => cases h
  | list vs => cases h

end Fixed

section Addresses

theorem SocketAddrV6.onWire_of_read {b : Bytes} {a : SocketAddrV6} (h : compactV6.fromSlice b = some a) :
    a.onWire = a := by
  simp only [compactV6, Option.bind_eq_bind, Option.bind_eq_some_iff] at h
  obtain ⟨ip, _, port, _, heq⟩ := h
  cases heq
  rfl

theorem SocketAddr.onWire_of_read {v : BValue} {a : SocketAddr} (h : readSocketAddr v = some a) : a.onWire = a := by
  cases v with
  | bytes b =>
    change CompactSocketAddr.fromSlice b = some a at h
    unfold CompactSocketAddr.fromSlice at h
    split_ifs at h
    · obtain ⟨a', _, rfl⟩ := Option.map_eq_some_iff.1 h
      rfl
    · obtain ⟨a', ha', rfl⟩ := Option.map_eq_some_iff.1 h
      exact congrArg SocketAddr.v6 (SocketAddrV6.onWire_of_read ha')
  | int n => cases h
  | list vs => cases h
  | dict es => cases h

theorem Node.onWire_of_read {b : Bytes} {n : Node SocketAddrV6} (h : nodeV6.fromSlice b = some n) : n.onWire = n := by
  simp only [nodeV6, compactNode, ne_eq, ite_not] at h
  split_ifs at h
  simp only [Option.bind_eq_bind, Option.bind_eq_some_iff] at h
  obtain ⟨id, _, a, ha, heq⟩ := h
  cases heq
  exact congrArg (Node.mk id) (SocketAddrV6.onWire_of_read ha)

theorem Response.onWire_of_read {v : BValue} {r : Response} (h : Response.ofBencode v = some r) : r.onWire = r := by
  unfold Response.ofBencode at h
  simp only [Option.bind_eq_bind, Option.bind_eq_some_iff] at h
  obtain ⟨values, hvalues, id, _, nodes, _, nodes6, hnodes6, token, _, _, _, _, _, _, _, _, _, heq⟩ := h
  cases heq
  have hv := optionField_fixed (fun _ _ => list_fixed fun _ _ => SocketAddr.onWire_of_read) hvalues
  have hn := optionField_fixed (fun _ _ => readCompactList_fixed fun _ _ => Node.onWire_of_read) hnodes6
  unfold Response.onWire
  simp only [hv, hn]

end Addresses

section Messages
variable {C : Codec} {buf : Bytes}

structure Message.Normal (m : Message) : Prop where
  kind : m.kind.onWire = m.kind
  ip : m.ip.map SocketAddr.onWire = m.ip

theorem fromBytes_ok {α : Type} {t : Typed α} {a : α} (h : fromBytes C t buf = .ok a) : ∃ v, t.read v = some a := by
  unfold fromBytes at h
  cases hread : C.readAs t buf with
  | ok b =>
    rw [hread] at h
    cases h
    exact Codec.exists_read_of_readAs hread
  | error e =>
    rw [hread] at h
    cases e <;> cases h

theorem secondPass_normal {Args Resp α : Type} {args : Typed Args} {resp : Typed Resp}
    {kind : α → MessageKind} {m : Message} (unwrapped : RawMessage Args Resp → Option α)
    (hkind : ∀ v de a, RawMessage.Read args.read resp.read v de → unwrapped de = some a → (kind a).onWire = kind a)
    (h : (do
      let de ← fromBytes C (RawMessage.typed args resp) buf
      let a ← unwrap (unwrapped de)
      return ⟨kind a, de.transactionId, de.version, de.ip⟩ : Except ParseError Message) = .ok m) : m.Normal := by
  cases hok : fromBytes C (RawMessage.typed args resp) buf with
  | error e =>
    rw [hok] at h
    cases h
  | ok de =>
    obtain ⟨v, hde⟩ := fromBytes_ok hok
    have hread : RawMessage.Read args.read resp.read v de := RawMessage.ofBencode_iff.1 hde
    rw [hok, ok_bind] at h
    cases ha : unwrapped de with
    | none =>
      rw [ha] at h
      cases h
    | some a =>
      rw [ha] at h
      cases h
      exact ⟨hkind v de a hread ha, optionField_fixed (fun _ _ => SocketAddr.onWire_of_read) hread.ip⟩

theorem deserializeQuery_normal {Args : Type} {args : Typed Args} {kind : Args → MessageKind} {m : Message}
    (hkind : ∀ a, (kind a).onWire = kind a) (h : deserializeQuery C args kind buf = .ok m) : m.Normal :=
  secondPass_normal (fun de => de.arguments) (fun _ _ a _ _ => hkind a) h

theorem deserializeMessage_normal {m : Message} (h : deserializeMessage C buf = .ok m) : m.Normal := by
  unfold deserializeMessage at h
  cases hok : fromBytes C (RawMessage.typed ignored ignored) buf with
  | error e =>
    rw [hok] at h
    cases h
  | ok de =>
  rw [hok, ok_bind] at h
  cases htype : de.messageType with
  | request =>
    rw [htype] at h
    dsimp only at h
    split at h
    · split_ifs at h
      · exact deserializeQuery_normal (fun _ => rfl) h
      · exact deserializeQuery_normal (fun _ => rfl) h
      · exact deserializeQuery_normal (fun _ => rfl) h
      · exact deserializeQuery_normal (fun _ => rfl) h
      · exact deserializeQuery_normal (fun _ => rfl) h
      · exact deserializeQuery_normal (fun _ => rfl) h
    · cases h
  | response =>
    rw [htype] at h
    dsimp only at h
    split at h
    · refine secondPass_normal (fun de => de.response) ?_ h
      intro v de a hread ha
      rcases hread.dict with ⟨es, rfl⟩
      have hresponse := hread.response
      rw [ha] at hresponse
      rcases optionField_some hresponse with ⟨hnone, _⟩ | ⟨w, r, hr, _, hw⟩
      · cases hnone
      · cases hr
        exact congrArg MessageKind.response (Response.onWire_of_read hw)
    · cases h
  | error =>
    rw [htype] at h
    dsimp only at h
    split at h
    · exact secondPass_normal (fun de => de.error) (fun _ _ _ _ _ => rfl) h
    · cases h

/-- Whatever packet a message was read from, the packet that is written for it is read as the same message. -/
theorem reads_again (C : Codec) (buf : Bytes) (m : Message) (h : deserializeMessage C buf = .ok m) :
    ∃ buf', serializeMessage C m.transactionId m.version m.ip m.kind = some buf' ∧
      buf'.length = size (messageBencode m.transactionId m.version m.ip m.kind) ∧
      deserializeMessage C buf' = .ok m := by
  obtain ⟨hkind, hip⟩ := deserializeMessage_normal h
  obtain ⟨buf', hwrite, hread, hlength⟩ := C.lawful _ (canonical_message m.transactionId m.version m.ip m.kind)
  refine ⟨buf', hwrite, hlength, ?_⟩
  rw [deserialize_of_read C hread, hkind, hip]

/-- A ping whose address had a scope: the scope is lost once, and only once. -/
theorem scoped_ping_reads_again :
    ∃ buf', serializeMessage .standard [1, 2] none (some (.v6 ⟨1, 6881, 0, 0⟩)) (.pingRequest ⟨7⟩) = some buf' ∧
      buf'.length = size (messageBencode [1, 2] none (some (.v6 ⟨1, 6881, 0, 0⟩)) (.pingRequest ⟨7⟩)) ∧
      deserializeMessage .standard buf' = .ok ⟨.pingRequest ⟨7⟩, [1, 2], none, some (.v6 ⟨1, 6881, 0, 0⟩)⟩ :=
  reads_again .standard (encode (messageBencode [1, 2] none (some (.v6 ⟨1, 6881, 3, 5⟩)) (.pingRequest ⟨7⟩)))
    ⟨.pingRequest ⟨7⟩, [1, 2], none, some (.v6 ⟨1, 6881, 0, 0⟩)⟩ (deserialize_of_read _ (Codec.standard_read _))

end Messages
end LibrtbitDht
