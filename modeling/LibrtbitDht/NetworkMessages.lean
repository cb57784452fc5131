import LibrtbitDht.Network

set_option autoImplicit false

namespace LibrtbitDht
open TransitionRuns Bencode

section Requests

theorem createRequest_onWire (id : Id20) (tid : TransactionId) (request : Request) (addr : SocketAddr) :
    (createRequest id tid request addr).onWire = createRequest id tid request addr := by
  cases request <;> rfl

theorem DhtState.isQuery_of_replyOf {kind : MessageKind} (h : replyOf kind = none) : isQuery kind = true := by
  cases kind <;> simp [replyOf, isQuery] at h ⊢

end Requests

namespace Dht
variable {C : Codec} {s₀ s v : Dht} {js : List Action}

/-- A message that was handed to the writer is a request with a reason, or an answer. -/
theorem Traffic.handed_cases (h : Traffic C s₀ js s) {out : Outgoing} (hout : out ∈ s.handed) :
    (∃ num request, s.created[num]? = some (out.message, out.addr) ∧
      out.message = createRequest s₀.state.id (transaction num) request out.addr ∧ Reason C s₀ js out.addr request) ∨
    ∃ query, Answered C s₀ js query out := by
  by_cases hours : out.ourTid.isSome
  · left
    obtain ⟨lost, hperm, _⟩ := h.ours
    have hmem : out ∈ s.created.mapIdx outgoing :=
      hperm.subset (List.mem_append_left _ (List.mem_filter.2 ⟨hout, hours⟩))
    obtain ⟨num, hnum, rfl⟩ := List.mem_mapIdx.1 hmem
    have hcreated : s.created[num]? = some s.created[num] := List.getElem?_eq_getElem hnum
    obtain ⟨request, hmessage, hreason⟩ := h.justified num _ hcreated
    exact ⟨num, request, hcreated, hmessage, hreason⟩
  · right
    have hmem : out ∈ s.handed.filter (fun out => out.ourTid.isNone) := by
      refine List.mem_filter.2 ⟨hout, ?_⟩
      simpa using hours
    obtain ⟨num, hnum, rfl⟩ := List.mem_iff_getElem.1 hmem
    have hlength := h.answers.length_eq
    exact ⟨_, h.answers.get (hlength ▸ hnum) hnum⟩

theorem created_did (hready : s₀.Ready) (run : Run (Step C) s₀ js s) {a : Action} (hdid : Did (Step C) s₀ js a v)
    {num : ℕ} {m : Message × SocketAddr} (hm : v.created[num]? = some m) : s.created[num]? = some m := by
  obtain ⟨before, hbefore, hrun⟩ := hdid
  obtain ⟨rest, _, hlater⟩ := run_split (step C) hrun ((List.prefix_append _ _).trans hbefore) run
  have hv : v.Ready := hrun.invariant Ready hready fun _ _ _ hw hstep => (step_does hw hstep).2
  refine (hlater.invariant (fun w => w.Ready ∧ w.created[num]? = some m) ⟨hv, hm⟩ ?_).2
  rintro w w' b ⟨hw, hcreated⟩ hstep
  obtain ⟨hdoes, hw'⟩ := step_does hw hstep
  exact ⟨hw', hdoes.continues.created num m hcreated⟩

end Dht

namespace Network
open PartyNetwork (Packet)
open PartyNetwork.Protocol (Traced)

variable {ι : Type} {H : Hosts ι} {nodes : ι → NewNode} {c : Network ι}

section Origins

/-- Somebody from outside sent the message to the node, with an address of his choice. -/
def Foreign (C : Codec) (H : Hosts ι) (c : Network ι) (i : ι) (src : SocketAddr) (msg : Message) : Prop :=
  ∃ d, ⟨none, d⟩ ∈ c.wire ∧ H.owner d.dst = some i ∧ d.src = src ∧ Framer.reader C d.payload = .ok (some msg)

/-- The node handed the message to its writer, and the writer sent it. -/
def Wrote (C : Codec) (nodes : ι → NewNode) (c : Network ι) (j : ι) (dst : SocketAddr) (msg : Message) : Prop :=
  ∃ v out, Did (Dht.Step C) (parties nodes j) (c.history j) (.writer false) v ∧ out ∈ v.handed ∧ out.addr = dst ∧
    msg = out.message.onWire

/-- The message is the `num`-th of the node. -/
def Requested (nodes : ι → NewNode) (c : Network ι) (j : ι) (num : ℕ) (request : Request) (dst : SocketAddr) : Prop :=
  (c.party j).created[num]? = some (createRequest (nodes j).state.id (Dht.transaction num) request dst, dst)

structure Answers (C : Codec) (nodes : ι → NewNode) (c : Network ι) (j : ι) (query : Message) (addr : SocketAddr)
    (v : Dht) (r : Readings) (resp : Response) : Prop where
  asked : DhtState.isQuery query.kind = true
  did : Did (Dht.Step C) (parties nodes j) (c.history j) (.receive r query addr) v
  handled : ∃ state, v.state.onReceivedMessage r query addr = .ok (some (DhtState.reply query addr resp), state)

end Origins

section Runs
variable {C : Codec}

theorem run_node (h : Traced (Framer.network C H) (parties nodes) c) (i : ι) :
    Run (Dht.Step C) (parties nodes i) (c.history i) (c.party i) := Framer.run_of_network (h.run i)

theorem lawful_node {i : ι} {js : List Dht.Action} {v : Dht} (run : Run (Dht.Step C) (parties nodes i) js v) :
    Dht.Lawful C (nodes i).state js v := Dht.lawful_run (nodes i).ready run

theorem receive_mem {i : ι} {r : Readings} {msg : Message} {src : SocketAddr} {wire : List (Packet ι Datagram)}
    (h : (Framer.network C H).Received wire i (.receive r msg src)) : ∃ packet ∈ wire,
      H.owner packet.content.dst = some i ∧ packet.content.src = src ∧
        Framer.reader C packet.content.payload = .ok (some msg) := by
  obtain ⟨packet, hpacket, r', hreceives⟩ := h
  obtain ⟨howner, msg', hread, heq⟩ := Framer.receives_some hreceives
  cases heq
  exact ⟨packet, hpacket, howner, rfl, hread⟩

end Runs

section Messages
variable {C : WholeCodec}

theorem received_cases (h : Traced (Framer.network C.toCodec H) (parties nodes) c) {i : ι} {r : Readings} {msg : Message}
    {src : SocketAddr} (hmem : .receive r msg src ∈ c.history i) : Foreign C.toCodec H c i src msg ∨
      ∃ j dst, src = H.source j dst ∧ H.owner dst = some i ∧ Wrote C.toCodec nodes c j dst msg := by
  obtain ⟨⟨origin, d⟩, hpacket, howner, hsrc, hread⟩ := receive_mem (h.received i _ hmem rfl)
  cases origin with
  | none => exact .inl ⟨d, hpacket, howner, hsrc, hread⟩
  | some j =>
    right
    obtain ⟨a, v, contents, hdid, hemits, hd⟩ := h.sent _ hpacket j rfl
    obtain ⟨rfl, out, hqueue, hsource, hdst, hwrite⟩ := Framer.emits_mem hemits hd
    have hdid := Framer.did_of_network hdid
    obtain ⟨before, hbefore, hrun⟩ := hdid
    have hout : out ∈ v.handed := (lawful_node hrun).traffic.queue.subset hqueue
    refine ⟨j, d.dst, ?_, howner, v, out, ⟨before, hbefore, hrun⟩, hout, hdst.symm, ?_⟩
    · rw [← hsrc, hsource, hdst]
    · exact Framer.read_of_serialized hwrite hread

theorem Wrote.query (h : Traced (Framer.network C.toCodec H) (parties nodes) c) {j : ι} {dst : SocketAddr}
    {msg : Message} (hwrote : Wrote C.toCodec nodes c j dst msg) (hquery : DhtState.isQuery msg.kind = true) :
    ∃ num request, Requested nodes c j num request dst ∧
      msg = createRequest (nodes j).state.id (Dht.transaction num) request dst ∧
      Dht.Reason C.toCodec (parties nodes j) (c.history j) dst request := by
  obtain ⟨v, out, hdid, hout, rfl, rfl⟩ := hwrote
  have hdid' := hdid
  obtain ⟨before, hbefore, hrun⟩ := hdid'
  have hbegins : before <+: c.history j := (List.prefix_append _ _).trans hbefore
  rcases (lawful_node hrun).traffic.handed_cases hout with
    ⟨num, request, hcreated, hmessage, hreason⟩ | ⟨query, hanswered⟩
  · refine ⟨num, request, ?_, ?_, hreason.mono hbegins⟩
    · rw [hmessage] at hcreated
      exact Dht.created_did (nodes j).ready (run_node h j) hdid hcreated
    · rw [hmessage, createRequest_onWire]
      rfl
  · obtain ⟨_, resp, _, _, _, _, rfl⟩ := hanswered
    cases hquery

theorem Wrote.answer {j : ι} {dst : SocketAddr} {msg : Message} {resp : Response}
    (hwrote : Wrote C.toCodec nodes c j dst msg) (hkind : msg.kind = .response resp) :
    ∃ query v r sent, Answers C.toCodec nodes c j query dst v r sent ∧
      msg.transactionId = query.transactionId ∧ resp = sent.onWire := by
  obtain ⟨v, out, ⟨before, hbefore, hrun⟩, hout, rfl, rfl⟩ := hwrote
  have hbegins : before <+: c.history j := (List.prefix_append _ _).trans hbefore
  rcases (lawful_node hrun).traffic.handed_cases hout with ⟨num, request, _, hmessage, _⟩ | ⟨⟨r, query, addr⟩, hanswered⟩
  · rw [hmessage, createRequest_onWire] at hkind
    cases request <;> cases hkind
  · obtain ⟨w, sent, state, hdid, hhandled, _, rfl⟩ := hanswered
    cases hkind
    refine ⟨query, w, r, sent, ⟨?_, hdid.mono hbegins, state, hhandled⟩, rfl, rfl⟩
    cases hreply : replyOf query.kind with
    | none => exact DhtState.isQuery_of_replyOf hreply
    | some reply =>
      cases (DhtState.onReceivedMessage_reply hreply).symm.trans hhandled

end Messages
end Network
end LibrtbitDht
