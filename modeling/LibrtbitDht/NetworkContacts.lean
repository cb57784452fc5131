import LibrtbitDht.ClosestNodes
import LibrtbitDht.NetworkMessages

set_option autoImplicit false

namespace LibrtbitDht
open TransitionRuns Bencode

section Nodes

theorem SocketAddr.onWire_onWire (a : SocketAddr) : a.onWire.onWire = a.onWire := by
  cases a <;> rfl

theorem SocketAddr.onWire_of_toV4 {a : SocketAddr} {b : SocketAddrV4} (h : a.toV4 = some b) : .v4 b = a.onWire := by
  cases a <;> cases h
  rfl

theorem SocketAddr.onWire_of_toV6 {a : SocketAddr} {b : SocketAddrV6} (h : a.toV6 = some b) :
    .v6 b.onWire = a.onWire := by
  cases a <;> cases h
  rfl

theorem RoutingTable.ListsBest.mem_stored {A : Type} {rt : RoutingTable} {fromSocketAddr : SocketAddr → Option A}
    {target : Id20} {now : Instant} {l : List (Node A)} (h : rt.ListsBest fromSocketAddr target now l) {node : Node A}
    (hnode : node ∈ l) : ∃ n ∈ rt.stored, node.id = n.id ∧ fromSocketAddr n.addr = some node.addr := by
  obtain ⟨best, hleast, hnodes⟩ := h.chosen
  obtain ⟨num, hnum, rfl⟩ := List.mem_iff_getElem.1 hnode
  have hlength := hnodes.length_eq
  have hbest : num < best.length := hlength ▸ hnum
  exact ⟨best[num], List.mem_of_mem_filter (hleast.subset (List.getElem_mem hbest)), hnodes.get hbest hnum⟩

theorem mem_nodeIt_onWire {resp : Response} {addr : SocketAddr} {node : Node SocketAddr}
    (h : node ∈ nodeIt resp.onWire addr) :
    (∃ l ∈ resp.nodes, ∃ n ∈ l, node = ⟨n.id, .v4 n.addr⟩) ∨
      ∃ l ∈ resp.nodes6, ∃ n ∈ l, node = ⟨n.id, .v6 n.addr.onWire⟩ := by
  rcases List.mem_append.1 (List.mem_of_mem_filter h) with h | h
  · left
    obtain ⟨n, hn, rfl⟩ := List.mem_map.1 h
    cases hnodes : resp.nodes with
    | none =>
      rw [Response.onWire, hnodes] at hn
      cases hn
    | some l =>
      rw [Response.onWire, hnodes] at hn
      exact ⟨l, rfl, n, hn, rfl⟩
  · right
    obtain ⟨n, hn, rfl⟩ := List.mem_map.1 h
    cases hnodes : resp.nodes6 with
    | none =>
      rw [Response.onWire, hnodes] at hn
      cases hn
    | some l =>
      rw [Response.onWire, hnodes] at hn
      obtain ⟨m, hm, rfl⟩ := List.mem_map.1 hn
      exact ⟨l, rfl, m, hm, rfl⟩

theorem DhtState.Sound.nodes_stored {s : DhtState} (h : s.Sound) {r : Readings} {query : Message} {addr src : SocketAddr}
    {resp : Response} {s' : DhtState} (hquery : isQuery query.kind = true)
    (hhandled : s.onReceivedMessage r query addr = .ok (some (reply query addr resp), s')) {node : Node SocketAddr}
    (hnode : node ∈ nodeIt resp.onWire src) :
    ∃ n, (n ∈ s.routingTableV4.stored ∨ n ∈ s.routingTableV6.stored) ∧ node.id = n.id ∧ node.addr = n.addr.onWire := by
  obtain ⟨resp', v, hspec, hnearest⟩ := h.onReceivedMessage_nearest r query addr hquery
  cases hhandled.symm.trans hspec
  rcases mem_nodeIt_onWire hnode with ⟨l, hl, m, hm, rfl⟩ | ⟨l, hl, m, hm, rfl⟩
  · obtain ⟨target, _, hbest⟩ := hnearest.nodes l hl
    obtain ⟨n, hn, hid, haddr⟩ := hbest.mem_stored hm
    exact ⟨n, .inl hn, hid, SocketAddr.onWire_of_toV4 haddr⟩
  · obtain ⟨target, _, hbest⟩ := hnearest.nodes6 l hl
    obtain ⟨n, hn, hid, haddr⟩ := hbest.mem_stored hm
    exact ⟨n, .inr hn, hid, SocketAddr.onWire_of_toV6 haddr⟩

end Nodes

namespace Network
open PartyNetwork.Protocol (Traced traced_run Closed closed_run history_step)

variable {ι : Type} {H : Hosts ι} {nodes : ι → NewNode} {c c' : Network ι}

/-- The contact was in the table of some node at the start, up to the scope of its address. -/
def Original (nodes : ι → NewNode) (id : Id20) (addr : SocketAddr) : Prop :=
  ∃ j w, ∃ n ∈ ((parties nodes j).liveness.table w).stored, n.id = id ∧ (addr = n.addr ∨ addr = n.addr.onWire)

theorem Original.onWire {id : Id20} {addr : SocketAddr} (h : Original nodes id addr) : Original nodes id addr.onWire := by
  obtain ⟨j, w, n, hn, hid, haddr⟩ := h
  refine ⟨j, w, n, hn, hid, .inr ?_⟩
  rcases haddr with rfl | rfl
  · rfl
  · exact SocketAddr.onWire_onWire n.addr

def AllOriginal (C : Codec) (nodes : ι → NewNode) (c : Network ι) : Prop :=
  ∀ i before v, before <+: c.history i → Run (Dht.Step C) (parties nodes i) before v →
    ∀ w, ∀ n ∈ (v.liveness.table w).stored, Original nodes n.id n.addr

section Steps
variable {C : WholeCodec}

theorem Answers.original (h : AllOriginal C.toCodec nodes c) (hlonger : ∀ j, c'.history j = c.history j ∨
    ∃ a, c'.history j = c.history j ++ [a]) {k : ι} {query : Message} {dst src : SocketAddr} {v : Dht} {r : Readings}
    {sent : Response} (hanswers : Answers C.toCodec nodes c' k query dst v r sent) {node : Node SocketAddr}
    (hnode : node ∈ nodeIt sent.onWire src) : Original nodes node.id node.addr := by
  obtain ⟨before, hbefore, hrun⟩ := hanswers.did
  have hbegins : before <+: c.history k := by
    rcases hlonger k with heq | ⟨a, heq⟩
    · rw [heq] at hbefore
      exact (List.prefix_append _ _).trans hbefore
    · rw [heq] at hbefore
      refine List.prefix_of_prefix_length_le ((List.prefix_append _ _).trans hbefore) (List.prefix_append _ [a]) ?_
      have hlength := hbefore.length_le
      simp only [List.length_append, List.length_singleton] at hlength
      omega
  obtain ⟨state, hhandled⟩ := hanswers.handled
  obtain ⟨n, hn, hid, haddr⟩ := (lawful_node hrun).ready.sound.nodes_stored hanswers.asked hhandled hnode
  have hold : Original nodes n.id n.addr := by
    rcases hn with hn | hn
    · exact h k before v hbegins hrun true n hn
    · exact h k before v hbegins hrun false n hn
  rw [hid, haddr]
  exact hold.onWire

theorem AllOriginal.step (h : AllOriginal C.toCodec nodes c)
    (htraced : Traced (Framer.network C.toCodec H) (parties nodes) c')
    (hnobody : ∀ j src msg, ¬ Foreign C.toCodec H c' j src msg)
    (hlonger : ∀ j, c'.history j = c.history j ∨ ∃ a, c'.history j = c.history j ++ [a]) :
    AllOriginal C.toCodec nodes c' := by
  intro i before v hbefore hrun w n hn
  rcases (Dht.informed_run (nodes i).ready hrun).tables w n hn with ⟨u, m, hm, hid, haddr⟩ | ⟨target, hlisted⟩
  · exact ⟨i, u, m, hm, hid, .inl haddr.symm⟩
  · obtain ⟨addr, resp, ⟨num, u, r, msg, hdid, _, _, _, hreply⟩, node, hnode, hid, haddr⟩ := hlisted
    have hkind : msg.kind = .response resp := by
      cases hkind : msg.kind <;> rw [hkind] at hreply <;> cases hreply
      rfl
    rcases received_cases htraced (hbefore.subset hdid.mem) with hforeign | ⟨k, dst, _, _, hwrote⟩
    · exact absurd hforeign (hnobody _ _ _)
    · obtain ⟨query, u, r', sent, hanswers, _, rfl⟩ := hwrote.answer hkind
      have horiginal := hanswers.original h hlonger hnode
      rwa [hid, haddr] at horiginal

end Steps

section Laws
variable [DecidableEq ι] {C : WholeCodec} {events : List (Event ι)}

omit [DecidableEq ι] in
theorem allOriginal_start : AllOriginal C.toCodec nodes (start nodes) := by
  intro i before v hbefore hrun w n hn
  have hempty : before = [] := List.prefix_nil.1 hbefore
  subst hempty
  cases ((run_graph_iff (Dht.step C.toCodec) _ v []).1 hrun)
  exact ⟨i, w, n, hn, rfl, .inl rfl⟩

theorem allOriginal_run (run : Run (Step C.toCodec H) (start nodes) events c) (closed : Closed events) :
    AllOriginal C.toCodec nodes c := by
  refine run.history (fun js v => Closed js → AllOriginal C.toCodec nodes v) (fun _ => allOriginal_start) ?_ closed
  intro js v w e hrun ih hstep hclosed
  have hafter : Run (Step C.toCodec H) (start nodes) (js ++ [e]) w := hrun.snoc hstep
  refine (ih fun content hmem => hclosed content (List.mem_append_left _ hmem)).step (traced_run hafter) ?_
    (history_step hstep)
  rintro j src msg ⟨d, hd, _⟩
  obtain ⟨k, hk⟩ := closed_run hafter hclosed _ hd
  cases hk

/-- Nobody new gets into a table of a network to which nobody from outside sends anything. -/
theorem gossip_law (run : Run (Step C.toCodec H) (start nodes) events c) (closed : Closed events) (i : ι) (w : Bool) :
    ∀ n ∈ ((c.party i).liveness.table w).stored, Original nodes n.id n.addr :=
  allOriginal_run run closed i _ _ List.prefix_rfl (run_node (traced_run run) i) w

end Laws

theorem sample_gossip : ∃ c, Run (Step Codec.standard sampleHosts) (start sampleNodes) sampleEvents c ∧
    (∃ n ∈ ((c.party false).liveness.table true).stored, n.id = 2) ∧
    ∀ n ∈ ((c.party false).liveness.table true).stored, Original sampleNodes n.id n.addr := by
  obtain ⟨c, run, hend⟩ := sample_run
  refine ⟨c, run, ?_, gossip_law (C := .standard) run sample_closed false true⟩
  have hstored := hend.2.2.2.2
  have hmem : (2, sampleAddr true) ∈ (c.party false).state.routingTableV4.stored.map (fun n => (n.id, n.addr)) := by
    rw [hstored]
    exact List.mem_singleton_self _
  obtain ⟨n, hn, heq⟩ := List.mem_map.1 hmem
  exact ⟨n, hn, (Prod.mk.inj heq).1⟩

end Network
end LibrtbitDht
