import LibrtbitDht.BencodeText
import LibrtbitDht.DhtContacts
import LibrtbitDht.DhtRefinement
import LibrtbitDht.MessageClassification
import LibrtbitDht.MessageRoundTrip
import LibrtbitDht.PartyNetwork
import LibrtbitDht.ReplySize

set_option autoImplicit false

namespace LibrtbitDht
open TransitionRuns Bencode
open ByteStrings (Bytes wordBytes)

structure Datagram where
  src : SocketAddr
  dst : SocketAddr
  payload : Bytes
deriving DecidableEq, Repr

/-- Who gets what is sent to an address, and the address that a node sends from. -/
structure Hosts (ι : Type) where
  owner : SocketAddr → Option ι
  source : ι → SocketAddr → SocketAddr
  owns : ∀ i dst, owner (source i dst) = some i

structure NewNode where
  state : DhtState
  ready : (Dht.start state).Ready
  store : state.peerStore = .new state.id

def Message.onWire (m : Message) : Message := ⟨m.kind.onWire, m.transactionId, m.version, m.ip.map SocketAddr.onWire⟩

namespace Framer

inductive Halt where
  | node (h : Dht.Halt)
  | unwrapOnNone
  | crashed
deriving DecidableEq

variable {ι : Type} (C : Codec) (H : Hosts ι)

/-- The message at the front of the queue is serialized, then it is sent or the sending fails. -/
def writer (i : ι) (s : Dht) (failed : Bool) : Except Halt (List Datagram) :=
  match s.queue with
  | [] => .ok []
  | out :: _ =>
    match serializeMessage C out.message.transactionId out.message.version out.message.ip out.message.kind with
    | none => .error (.node (.fault .unwrapOnErr))
    | some payload => .ok (if failed then [] else [⟨H.source i out.addr, out.addr, payload⟩])

/-- What is longer than the buffer is cut off, and what cannot be read is left out. -/
def reader (payload : Bytes) : Except Halt (Option Message) :=
  match deserializeMessage C (payload.take receiveBuffer) with
  | .ok msg => .ok (some msg)
  | .error .unwrapOnNone => .error .unwrapOnNone
  | .error .crashed => .error .crashed
  | .error _ => .ok none

def receive (r : Readings) (d : Datagram) (i : ι) (msg : Option Message) : Option (ι × Dht.Action) :=
  msg.map (fun msg => (i, .receive r msg d.src))

def isOwn : Dht.Action → Bool
  | .receive _ _ _ => false
  | _ => true

def emits (i : ι) (s : Dht) : Dht.Action → Except Halt (List Datagram)
  | .writer failed => writer C H i s failed
  | _ => .ok []

def receives (d : Datagram) (r : Readings) : Except Halt (Option (ι × Dht.Action)) :=
  match H.owner d.dst with
  | none => .ok none
  | some i => (reader C d.payload).map (receive r d i)

def network : PartyNetwork.Protocol ι Dht Dht.Action Datagram Readings Halt where
  step s a := (Dht.step C s a).mapError .node
  own := isOwn
  emits := emits C H
  receives := receives C H
  blocked := .node .blocked

end Framer

abbrev Network (ι : Type) := PartyNetwork.Config ι Dht Dht.Action Datagram

namespace Network

abbrev Event (ι : Type) := PartyNetwork.Event ι Dht.Action Datagram Readings

variable {ι : Type} [DecidableEq ι]

abbrev Step (C : Codec) (H : Hosts ι) : Network ι → Event ι → Network ι → Prop := (Framer.network C H).Step

def parties (nodes : ι → NewNode) (i : ι) : Dht := .start (nodes i).state

def start (nodes : ι → NewNode) : Network ι := PartyNetwork.start (parties nodes)

end Network

namespace Framer

section Packets
variable {C : Codec}

theorem serializeMessage_ok (C : Codec) (m : Message) : ∃ payload,
    serializeMessage C m.transactionId m.version m.ip m.kind = some payload ∧
      deserializeMessage C payload = .ok m.onWire := by
  obtain ⟨payload, hwrite, hread, _⟩ := C.lawful _ (canonical_message m.transactionId m.version m.ip m.kind)
  exact ⟨payload, hwrite, deserialize_of_read C hread⟩

theorem reader_ok {payload : Bytes}
    (returned : deserializeMessage C (payload.take receiveBuffer) ≠ .error .crashed)
    (unwrapped : deserializeMessage C (payload.take receiveBuffer) ≠ .error .unwrapOnNone) :
    ∃ msg, reader C payload = .ok msg := by
  unfold reader
  cases hread : deserializeMessage C (payload.take receiveBuffer) with
  | ok msg => exact ⟨some msg, rfl⟩
  | error e =>
    cases e with
    | crashed => exact absurd hread returned
    | unwrapOnNone => exact absurd hread unwrapped
    | bencode | unsupportedMethod | notARequest | notAResponse | notAnError => exact ⟨none, rfl⟩

theorem reader_serialized {C : WholeCodec} {m : Message} {payload : Bytes}
    (hwrite : serializeMessage C.toCodec m.transactionId m.version m.ip m.kind = some payload) :
    reader C.toCodec payload = .ok none ∨ reader C.toCodec payload = .ok (some m.onWire) := by
  obtain ⟨payload', hwrite', hwhole⟩ := serializeMessage_ok C.toCodec m
  cases Option.some.inj (hwrite.symm.trans hwrite')
  rcases Nat.lt_or_ge receiveBuffer payload.length with hlong | hfits
  · left
    have hnone := C.whole _ payload receiveBuffer (canonical_message m.transactionId m.version m.ip m.kind) hwrite hlong
    have hfirst : fromBytes C.toCodec (RawMessage.typed ignored ignored) (payload.take receiveBuffer) =
        .error .bencode := by
      rw [fromBytes, C.toCodec.readAs_failed hnone]
    have hrejected : deserializeMessage C.toCodec (payload.take receiveBuffer) = .error .bencode := by
      rw [deserializeMessage, hfirst]
      rfl
    rw [reader, hrejected]
  · right
    rw [reader, List.take_of_length_le hfits, hwhole]

theorem read_of_serialized {C : WholeCodec} {m msg : Message} {payload : Bytes}
    (hwrite : serializeMessage C.toCodec m.transactionId m.version m.ip m.kind = some payload)
    (hread : reader C.toCodec payload = .ok (some msg)) : msg = m.onWire := by
  rcases reader_serialized hwrite with hlong | hfits
  · cases hlong.symm.trans hread
  · cases Except.ok.inj (hfits.symm.trans hread)
    rfl

end Packets

section Steps
variable {ι : Type} {C : Codec} {H : Hosts ι} {s s' : Dht} {a : Dht.Action} {js : List Dht.Action}

theorem mapError_ok {ε ε' α : Type} {f : ε → ε'} {x : Except ε α} {b : α} (h : x.mapError f = .ok b) : x = .ok b := by
  cases x with
  | error e => cases h
  | ok b' =>
    cases h
    rfl

theorem run_of_network (run : Run (TransitionRuns.Graph (network C H).step) s js s') : Run (Dht.Step C) s js s' := by
  induction run with
  | nil => exact .nil
  | snoc _ last ih => exact ih.snoc (mapError_ok last)

theorem did_of_network (h : Did (TransitionRuns.Graph (network C H).step) s js a s') : Did (Dht.Step C) s js a s' := by
  obtain ⟨before, hbefore, run⟩ := h
  exact ⟨before, hbefore, run_of_network run⟩

theorem emits_mem {i : ι} {contents : List Datagram} {d : Datagram} (h : emits C H i s a = .ok contents)
    (hd : d ∈ contents) : a = .writer false ∧ ∃ out ∈ s.queue, d.src = H.source i out.addr ∧ d.dst = out.addr ∧
      serializeMessage C out.message.transactionId out.message.version out.message.ip out.message.kind =
        some d.payload := by
  have hnone : ∀ {a : Dht.Action}, emits C H i s a = .ok [] → emits C H i s a = .ok contents → False := by
    intro a hempty hsome
    cases Except.ok.inj (hempty.symm.trans hsome)
    cases hd
  cases a with
  | writer failed =>
    rw [emits] at h
    unfold writer at h
    cases hqueue : s.queue with
    | nil =>
      rw [hqueue] at h
      cases h
      cases hd
    | cons out queue =>
      rw [hqueue] at h
      obtain ⟨payload, hwrite, _⟩ := serializeMessage_ok C out.message
      dsimp only at h
      rw [hwrite] at h
      cases failed with
      | true =>
        cases h
        cases hd
      | false =>
        cases h
        cases List.mem_singleton.1 hd
        exact ⟨rfl, out, List.mem_cons_self, rfl, rfl, hwrite⟩
  | _ => exact (hnone rfl h).elim

theorem receives_some {d : Datagram} {r : Readings} {i : ι} (h : receives C H d r = .ok (some (i, a))) :
    H.owner d.dst = some i ∧ ∃ msg, reader C d.payload = .ok (some msg) ∧ a = .receive r msg d.src := by
  unfold receives at h
  cases howner : H.owner d.dst with
  | none =>
    rw [howner] at h
    cases h
  | some j =>
    rw [howner] at h
    cases hread : reader C d.payload with
    | error e =>
      rw [hread] at h
      cases h
    | ok msg =>
      rw [hread] at h
      cases msg with
      | none => cases h
      | some msg =>
        cases h
        exact ⟨rfl, msg, rfl, rfl⟩

end Steps
end Framer

namespace Network
open PartyNetwork (Packet)
open PartyNetwork.Protocol (Traced traced_run)

section Readable
variable {ι : Type}

/-- A node sent the packet, or the bencode implementation gets along with it. -/
def Readable (C : Codec) (packet : Packet ι Datagram) : Prop :=
  packet.origin ≠ none ∨ Tame C (packet.content.payload.take receiveBuffer)

theorem Readable.reader {C : WholeCodec} {H : Hosts ι} {nodes : ι → NewNode} {c : Network ι} {packet : Packet ι Datagram}
    (h : Readable C.toCodec packet) (traced : Traced (Framer.network C.toCodec H) (parties nodes) c)
    (hpacket : packet ∈ c.wire) : ∃ msg, Framer.reader C.toCodec packet.content.payload = .ok msg := by
  rcases h with hsent | htame
  · obtain ⟨i, hi⟩ := Option.ne_none_iff_exists'.1 hsent
    obtain ⟨a, v, contents, _, hemits, hcontent⟩ := traced.sent packet hpacket i hi
    obtain ⟨_, out, _, _, _, hwrite⟩ := Framer.emits_mem hemits hcontent
    rcases Framer.reader_serialized hwrite with hlong | hfits
    · exact ⟨_, hlong⟩
    · exact ⟨_, hfits⟩
  · have hparsed := wellParsed_of_taken htame.read fun _ => htame.taken
    exact Framer.reader_ok hparsed.returned hparsed.unwrapped

end Readable

variable {ι : Type} [DecidableEq ι] {C : WholeCodec} {H : Hosts ι} {nodes : ι → NewNode} {c : Network ι}
  {events : List (Event ι)}

section Samples
open DhtState (sampleEnvironment sampleReadings)

def sampleAddr (i : Bool) : SocketAddr := .v4 ⟨if i then 20 else 10, 6881⟩

def sampleHosts : Hosts Bool where
  owner addr :=
    if addr = sampleAddr false then some false else if addr = sampleAddr true then some true else none
  source i _ := sampleAddr i
  owns := by
    intro i _
    cases i <;> rfl

def sampleAlone (i : Bool) : DhtState := .start sampleEnvironment (if i then 2 else 1) (sampleAddr i)

def sampleState (i : Bool) : DhtState :=
  if i then sampleAlone true
  else ((sampleAlone false).step (.tableV4 (.addNode 2 (sampleAddr true) (fun _ => 0)))).toOption.getD (sampleAlone false)

theorem sampleState_ready (i : Bool) : (Dht.start (sampleState i)).Ready := by
  cases i with
  | true => exact Dht.ready_start sampleEnvironment 2 (sampleAddr true)
  | false =>
    obtain ⟨s, hstep, hafter⟩ := (DhtState.sound_start sampleEnvironment 1 (sampleAddr false)).step_spec
      (.tableV4 (.addNode 2 (sampleAddr true) (fun _ => 0)))
    have hs : sampleState false = s := by
      unfold sampleState
      rw [if_neg (by decide), show (sampleAlone false).step _ = .ok s from hstep]
      rfl
    have hfamily : ∀ n ∈ (sampleState false).routingTableV4.stored, n.addr.isIpv4 = true := by decide +kernel
    have hempty : (sampleState false).routingTableV6.stored = [] := by decide +kernel
    rw [hs] at hfamily hempty ⊢
    refine ⟨hafter.sound, ?_, ?_, nofun, nofun⟩
    · intro v
      cases v
      · exact hafter.sound.tableV6
      · exact hafter.sound.tableV4
    · intro v n hn
      cases v
      · change n ∈ s.routingTableV6.stored at hn
        rw [hempty] at hn
        cases hn
      · exact hfamily n hn

def sampleNodes (i : Bool) : NewNode where
  state := sampleState i
  ready := sampleState_ready i
  store := by cases i <;> decide +kernel

/-- The first node asks the second one for peers, announces itself there, and finds itself. -/
def sampleEvents : List (Event Bool) := [
  .act false (.getPeers 7 (some 80)), .act false (.round 0 0 0), .act false (.recv 0),
  .act false (.visitStart 0 0 (fun _ => 0) 0), .act false (.query 0 0), .act false (.insert 0), .act false (.send 0),
  .act false (.writer false), .deliver 0 sampleReadings, .act true (.writer false), .deliver 1 sampleReadings,
  .act false (.resume 0 0 0 0), .act false (.send 1), .act false (.writer false), .deliver 2 sampleReadings,
  .act false (.query 0 0), .act false (.insert 2), .act false (.send 2), .act false (.writer false),
  .deliver 3 sampleReadings,
  .act true (.writer false), .act true (.writer false), .deliver 5 sampleReadings,
  .act false (.resume 0 0 0 0)]

theorem sample_closed : PartyNetwork.Protocol.Closed sampleEvents := by
  intro content h
  simp [sampleEvents] at h

def SampleEnd (c : Network Bool) : Prop :=
  c.wire.length = 6 ∧ (c.party false).created.length = 3 ∧
    (c.party false).tasks.map (fun t => (t.request, t.loop.peers)) =
      [(.getPeers 7, [.v4 ⟨10, 80⟩]), (.getPeers 7, [])] ∧
    (c.party true).state.peerStore.peers.get? 7 = some [⟨.v4 ⟨10, 80⟩, 0⟩] ∧
    (c.party false).state.routingTableV4.stored.map (fun n => (n.id, n.addr)) = [(2, sampleAddr true)]

instance (c : Network Bool) : Decidable (SampleEnd c) := by
  unfold SampleEnd
  infer_instance

theorem sample_run : ∃ c, Run (Step Codec.standard sampleHosts) (start sampleNodes) sampleEvents c ∧ SampleEnd c := by
  have hfinal : (sampleEvents.foldlM (Framer.network Codec.standard sampleHosts).next
      (start sampleNodes)).toOption.any (fun c => decide (SampleEnd c)) = true := by decide +kernel
  obtain ⟨c, run, hc⟩ := exists_run_of_eval _ hfinal
  exact ⟨c, run, of_decide_eq_true hc⟩

end Samples
end Network
end LibrtbitDht
