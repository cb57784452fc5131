import LibrtbitDht.DhtRuns

set_option autoImplicit false

namespace LibrtbitDht
open TransitionRuns Bencode

namespace DhtState

/-- The event, if it is not a mark or an insertion of a task of the node. -/
def Event.outer : Event → Option Event
  | .tableV4 _ | .tableV6 _ => none
  | e => some e

variable {s s' : DhtState}

theorem run_tableV4 (s : DhtState) {ops : List RoutingTable.Op} {rt : RoutingTable}
    (h : s.routingTableV4.Reaches ops rt) : Run Step s (ops.map .tableV4) { s with routingTableV4 := rt } := by
  induction h with
  | nil => exact .nil
  | @snoc _ v w op _ last ih =>
    rw [List.map_append]
    have hstep : v.step op = .ok w := last
    exact ih.snoc (congrArg (Except.map _) hstep)

theorem run_tableV6 (s : DhtState) {ops : List RoutingTable.Op} {rt : RoutingTable}
    (h : s.routingTableV6.Reaches ops rt) : Run Step s (ops.map .tableV6) { s with routingTableV6 := rt } := by
  induction h with
  | nil => exact .nil
  | @snoc _ v w op _ last ih =>
    rw [List.map_append]
    have hstep : v.step op = .ok w := last
    exact ih.snoc (congrArg (Except.map _) hstep)

theorem onReceivedMessage_reply {r : Readings} {msg : Message} {addr : SocketAddr} {reply : ResponseOrError}
    (h : replyOf msg.kind = some reply) : s.onReceivedMessage r msg addr = .ok (none, s) := by
  unfold onReceivedMessage
  cases hkind : msg.kind <;> simp [hkind, replyOf] at h ⊢

theorem Sound.store_run (h : s.Sound) {events : List Event} (run : Run Step s events s') :
    s'.peerStore = s.peerStore.run ((events.filterMap Event.outer).filterMap Event.storeOp) := by
  have hboth : s'.Sound ∧ s'.peerStore = s.peerStore.run ((events.filterMap Event.outer).filterMap Event.storeOp) := by
    refine run.history (fun events v => v.Sound ∧
      v.peerStore = s.peerStore.run ((events.filterMap Event.outer).filterMap Event.storeOp)) ⟨h, rfl⟩ ?_
    rintro events v w e _ ⟨hv, hstore⟩ hstep
    have hafter := hv.graph_after hstep
    refine ⟨hafter.sound, ?_⟩
    rw [hafter.store, hstore, filterMap_snoc, List.filterMap_append, PeerStore.run, PeerStore.run, List.foldl_append]
    cases e with
    | tableV4 op => rfl
    | tableV6 op => rfl
    | garbageCollectPeers now => rfl
    | rehash es => rfl
    | received r msg addr =>
      change _ = List.foldl _ _ ([Event.received r msg addr].filterMap Event.storeOp)
      rw [List.filterMap_cons]
      cases (Event.received r msg addr).storeOp <;> rfl
  exact hboth.2

end DhtState

namespace Dht
variable {C : Codec} {s s' : Dht} {js : List Action} {a : Action}

section State

/-- What an action of a node is for its state, when it comes from outside the tables. -/
def Action.event : Action → Option DhtState.Event
  | .receive r msg addr => some (.received r msg addr)
  | .garbageCollectPeers now => some (.garbageCollectPeers now)
  | .rehash es => some (.rehash es)
  | _ => none

theorem moved_events {new : Option Contact} {l : Liveness} (h : s.liveness.Moved new l) : ∃ events,
    Run DhtState.Step s.state events (s.withLiveness l).state ∧ events.filterMap DhtState.Event.outer = [] := by
  obtain ⟨opsV4, hv4, _⟩ := h.tables true
  obtain ⟨opsV6, hv6, _⟩ := h.tables false
  refine ⟨opsV4.map .tableV4 ++ opsV6.map .tableV6, ?_, ?_⟩
  · exact (s.state.run_tableV4 hv4).append (DhtState.run_tableV6 { s.state with routingTableV4 := l.routingTableV4 } hv6)
  · rw [List.filterMap_append, List.filterMap_map, List.filterMap_map]
    have hv4 : opsV4.filterMap (DhtState.Event.outer ∘ .tableV4) = [] := List.filterMap_eq_nil_iff.2 (fun _ _ => rfl)
    have hv6 : opsV6.filterMap (DhtState.Event.outer ∘ .tableV6) = [] := List.filterMap_eq_nil_iff.2 (fun _ _ => rfl)
    rw [hv4, hv6]
    rfl

theorem Does.events (hdoes : Does s a s') : ∃ events,
    Run DhtState.Step s.state events s'.state ∧ events.filterMap DhtState.Event.outer = a.event.toList := by
  have hidle : a.event = none → s'.state = s.state → ∃ events,
      Run DhtState.Step s.state events s'.state ∧ events.filterMap DhtState.Event.outer = a.event.toList := by
    intro hevent hstate
    rw [hstate, hevent]
    exact ⟨[], .nil, rfl⟩
  have hmoved : ∀ {new : Option Contact} {l : Liveness}, a.event = none → s.liveness.Moved new l →
      s'.state = (s.withLiveness l).state → ∃ events,
        Run DhtState.Step s.state events s'.state ∧ events.filterMap DhtState.Event.outer = a.event.toList := by
    intro new l hevent hl hstate
    rw [hstate, hevent]
    exact moved_events hl
  cases hdoes with
  | @reply r msg addr reply kind =>
    obtain ⟨inflight, calls, heq⟩ := s.onReply_frame msg.transactionId addr reply
    rw [heq]
    exact ⟨[.received r msg addr], .single (congrArg (Except.map Prod.snd) (DhtState.onReceivedMessage_reply kind)), rfl⟩
  | @failed out queue tid queued ours =>
    obtain ⟨inflight, calls, heq⟩ := finish_frame { s with queue } (tid, out.addr) (.error .sendError)
    rw [heq] at hidle ⊢
    exact hidle rfl rfl
  | @refused p mem closed =>
    obtain ⟨inflight, calls, heq⟩ := refuse_frame { s with pending := s.pending.erase p } p
    rw [heq] at hidle ⊢
    exact hidle rfl rfl
  | @answer r msg addr resp state query handled answer after =>
    exact ⟨[.received r msg addr], .single (congrArg (Except.map Prod.snd) handled), rfl⟩
  | garbageCollectPeers => exact ⟨[.garbageCollectPeers _], .single rfl, rfl⟩
  | rehash => exact ⟨[.rehash _], .single rfl, rfl⟩
  | pingerTick => exact hidle rfl rfl
  | pingStart mem moved => exact hmoved rfl moved rfl
  | pingEnd mem caller moved => exact hmoved rfl moved rfl
  | started task fut num_eq new moved => exact hmoved rfl moved rfl
  | firstReply task fut num_eq mem caller there first stepped ended =>
    cases ended with
    | marked moved => exact hmoved rfl moved rfl
    | announced loop_eq id_eq message_eq => exact hidle rfl rfl
  | turned task turns stepped =>
    refine hidle ?_ rfl
    cases turns <;> rfl
  | sent | unsent | closed | inserted | handed | timedOut | senderDropped | ping | pingReturns | getPeers
  | bootstrapHostname | refresherTick | refresh | pingQuery | queried | secondReply | aborted =>
    exact hidle rfl rfl

theorem state_run {state : DhtState} (h : (start state).Ready) (run : Run (Step C) (start state) js s) :
    ∃ events, Run DhtState.Step state events s.state ∧
      events.filterMap DhtState.Event.outer = js.filterMap Action.event := by
  obtain ⟨events, v, track, ⟨_, rfl⟩, houter⟩ := run.simulated
    (fun js s v => Lawful C state js s ∧ s.state = v) Action.event DhtState.Event.outer
    ⟨lawful_start C h, rfl⟩ (by
      rintro js v w a _ ⟨hv, rfl⟩ hstep
      obtain ⟨events, hrun, houter⟩ := (step_does hv.ready hstep).1.events
      exact ⟨events, w.state, hrun, ⟨hv.step hstep, rfl⟩, houter⟩)
  exact ⟨events, track, houter⟩

/-- Every run of a node is one of its state, with the same messages and the same collections of garbage. -/
theorem refines_state {state : DhtState} (h : (start state).Ready) (run : Run (Step C) (start state) js s) :
    ∃ events, Run DhtState.Step state events s.state ∧
      events.filterMap DhtState.Event.outer = js.filterMap Action.event :=
  state_run h run

theorem store_run {state : DhtState} (h : (start state).Ready) (run : Run (Step C) (start state) js s) :
    s.state.peerStore = state.peerStore.run ((js.filterMap Action.event).filterMap DhtState.Event.storeOp) := by
  obtain ⟨events, track, houter⟩ := state_run h run
  rw [← houter]
  exact h.sound.store_run track

theorem sample_state : ∃ s events, Run (Step Codec.standard) (start DhtState.sampleState) sampleActions s ∧
    Run DhtState.Step DhtState.sampleState events s.state ∧
    events.filterMap DhtState.Event.outer = sampleActions.filterMap Action.event := by
  obtain ⟨s, run, _⟩ := sample_run
  obtain ⟨events, track, houter⟩ := refines_state (ready_start DhtState.sampleEnvironment 0 DhtState.sampleNode) run
  exact ⟨s, events, run, track, houter⟩

end State
end Dht
end LibrtbitDht
