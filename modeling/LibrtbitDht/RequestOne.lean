import LibrtbitDht.FindNodeLookup

set_option autoImplicit false

/-!
# One call of `request_one`

The call runs against a network that answers its queries in turn, with callbacks that may do
anything to the rest of the node. While it waits for an answer, other tasks may change what is
shared. The events list, in order, what the call does for others to see.
-/
namespace LibrtbitDht

/-- How a call of `request` fails. -/
inductive RequestError where
  | dhtDead
  | responseTimeout
  | sendError
deriving DecidableEq, Repr

abbrev RequestOutcome := Except RequestError ResponseOrError

inductive VisitError where
  | request (e : RequestError)
  | errorResponse
  | receiverDead
deriving DecidableEq, Repr

inductive VisitEvent where
  | requestStart (id : Id20) (addr : SocketAddr)
  | query (addr : SocketAddr) (outcome : RequestOutcome)
  | nodeResponded (addr : SocketAddr) (response : ResponseOrError)
  | requestEnd (id : Id20) (addr : SocketAddr) (response : RequestOutcome)
  | nodeError (addr : SocketAddr)
  | peer (addr : SocketAddr)
  | node (visit : Visit)
deriving DecidableEq

structure RecursiveRequestCallbacks (W : Type) where
  onRequestStart : RecursiveRequest → Id20 → SocketAddr → W → W
  onRequestEnd : RecursiveRequest → Id20 → SocketAddr → RequestOutcome → W → W

/-- What one call meets: how many queries the worker takes before it ends, the outcome of the `k`-th
one, what others do until it is there, the two readings of the clock, and whether the channels still
have their receivers. -/
structure Surroundings (W : Type) where
  takes : ℕ
  outcomes : ℕ → RequestOutcome
  meanwhile : ℕ → RecursiveRequest × W → RecursiveRequest × W
  respondedAt : Instant
  now : Instant
  peerReceiver : Bool
  nodeReceiver : Bool

def Surroundings.outcome {W : Type} (env : Surroundings W) (k : ℕ) : RequestOutcome :=
  if k < env.takes then env.outcomes k else .error .dhtDead

structure Visiting (W : Type) where
  req : RecursiveRequest
  world : W
  events : List VisitEvent

namespace Visiting
variable {W : Type} (env : Surroundings W)

def emit (s : Visiting W) (event : VisitEvent) : Visiting W := { s with events := s.events ++ [event] }

def requestStart (callbacks : RecursiveRequestCallbacks W) (id : Option Id20) (addr : SocketAddr)
    (s : Visiting W) : Visiting W :=
  match id with
  | some id => { s with world := callbacks.onRequestStart s.req id addr s.world }.emit (.requestStart id addr)
  | none => s

/-- Sends the `k`-th query, if the worker is still there, and waits for its outcome. -/
def request (k : ℕ) (addr : SocketAddr) (s : Visiting W) : RequestOutcome × Visiting W :=
  let (req, world) := env.meanwhile k (s.req, s.world)
  let s := { s with req, world }
  if k < env.takes then (env.outcomes k, s.emit (.query addr (env.outcomes k))) else (.error .dhtDead, s)

def inspect (addr : SocketAddr) (response : RequestOutcome) (s : Visiting W) : Visiting W :=
  match response with
  | .ok r => { s with req := (s.req.markNodeResponded addr r env.respondedAt).2 }.emit (.nodeResponded addr r)
  | .error _ => s

def requestEnd (callbacks : RecursiveRequestCallbacks W) (id : Option Id20) (addr : SocketAddr)
    (response : RequestOutcome) (s : Visiting W) : Visiting W :=
  match id with
  | some id =>
    { s with world := callbacks.onRequestEnd s.req id addr response s.world }.emit (.requestEnd id addr response)
  | none => s

def sendPeers : List SocketAddr → Visiting W → Except VisitError Unit × Visiting W
  | [], s => (.ok (), s)
  | peer :: peers, s =>
    if env.peerReceiver then sendPeers peers (s.emit (.peer peer)) else (.error .receiverDead, s)

def sendNodes (depth : ℕ) : List (Node SocketAddr) → Visiting W → Except VisitError Unit × Visiting W
  | [], s => (.ok (), s)
  | node :: nodes, s =>
    let (shouldRequest, req) := s.req.shouldRequestNode node.id node.addr depth env.now
    let s := { s with req }
    if shouldRequest then
      if env.nodeReceiver then sendNodes depth nodes (s.emit (.node ⟨some node.id, node.addr, depth + 1⟩))
      else (.error .receiverDead, s)
    else sendNodes depth nodes s

def conclude (addr : SocketAddr) (depth : ℕ) (response : RequestOutcome) (s : Visiting W) :
    Except VisitError Unit × Visiting W :=
  match response with
  | .ok (.response r) =>
    match s.sendPeers env (r.values.getD []) with
    | (.ok _, s) => s.sendNodes env depth (nodeIt r addr)
    | (.error e, s) => (.error e, s)
  | .ok (.error _) => (.error .errorResponse, s)
  | .error e => (.error (.request e), { s with req := (s.req.markNodeError addr).2 }.emit (.nodeError addr))

def requestOne (callbacks : RecursiveRequestCallbacks W) (id : Option Id20) (addr : SocketAddr) (depth : ℕ)
    (s : Visiting W) : Except VisitError Unit × Visiting W :=
  let s := s.requestStart callbacks id addr
  let (response, s) := s.request env 0 addr
  let s := s.inspect env addr response
  let s := s.requestEnd callbacks id addr response
  let (response, s) := s.request env 1 addr
  s.conclude env addr depth response

section Law

def queries (events : List VisitEvent) : List (SocketAddr × RequestOutcome) :=
  events.filterMap (fun event => match event with
    | .query addr outcome => some (addr, outcome)
    | _ => none)

/-- What `on_request_end` was told. -/
def ended (events : List VisitEvent) : List (Id20 × SocketAddr × RequestOutcome) :=
  events.filterMap (fun event => match event with
    | .requestEnd id addr response => some (id, addr, response)
    | _ => none)

/-- What was recorded of the node in `useful_nodes`: its reply, or that there was none. -/
def recorded (events : List VisitEvent) : List (SocketAddr × Option ResponseOrError) :=
  events.filterMap (fun event => match event with
    | .nodeResponded addr response => some (addr, some response)
    | .nodeError addr => some (addr, none)
    | _ => none)

def peersSent (events : List VisitEvent) : List SocketAddr :=
  events.filterMap (fun event => match event with
    | .peer addr => some addr
    | _ => none)

def nodesSent (events : List VisitEvent) : List Visit :=
  events.filterMap (fun event => match event with
    | .node visit => some visit
    | _ => none)

def offered (depth : ℕ) (node : Node SocketAddr) : Visit := ⟨some node.id, node.addr, depth + 1⟩

inductive Decides (addr : SocketAddr) (depth : ℕ) :
    RequestOutcome → Except VisitError Unit → List SocketAddr → List Visit → Prop where
  | failed (e : RequestError) : Decides addr depth (.error e) (.error (.request e)) [] []
  | refused (e : ErrorDescription) : Decides addr depth (.ok (.error e)) (.error .errorResponse) [] []
  | followed (r : Response) {nodes : List (Node SocketAddr)} (listed : nodes.Sublist (nodeIt r addr)) :
      Decides addr depth (.ok (.response r)) (.ok ()) (r.values.getD []) (nodes.map (offered depth))
  | cut (r : Response) {peers : List SocketAddr} {nodes : List (Node SocketAddr)}
      (first : peers <+: r.values.getD []) (listed : nodes.Sublist (nodeIt r addr)) :
      Decides addr depth (.ok (.response r)) (.error .receiverDead) peers (nodes.map (offered depth))

/-- The call sent one query, and its outcome is the one that was reported, recorded and used. -/
structure OneOutcome (id : Option Id20) (addr : SocketAddr) (depth : ℕ) (outcome : RequestOutcome)
    (result : Except VisitError Unit) (events : List VisitEvent) : Prop where
  queried : queries events = [(addr, outcome)]
  ended : ended events = id.toList.map (fun id => (id, addr, outcome))
  recorded : recorded events = [(addr, outcome.toOption)]
  decided : Decides addr depth outcome result (peersSent events) (nodesSent events)

end Law

section Spec

inductive Concludes (addr : SocketAddr) (depth : ℕ) :
    RequestOutcome → Except VisitError Unit → List VisitEvent → Prop where
  | failed (e : RequestError) : Concludes addr depth (.error e) (.error (.request e)) [.nodeError addr]
  | refused (e : ErrorDescription) : Concludes addr depth (.ok (.error e)) (.error .errorResponse) []
  | followed (r : Response) {nodes : List (Node SocketAddr)} (listed : nodes.Sublist (nodeIt r addr)) :
      Concludes addr depth (.ok (.response r)) (.ok ())
        ((r.values.getD []).map .peer ++ nodes.map (fun node => .node (offered depth node)))
  | cut (r : Response) {peers : List SocketAddr} {nodes : List (Node SocketAddr)}
      (first : peers <+: r.values.getD []) (listed : nodes.Sublist (nodeIt r addr)) :
      Concludes addr depth (.ok (.response r)) (.error .receiverDead)
        (peers.map .peer ++ nodes.map (fun node => .node (offered depth node)))

theorem sendPeers_spec (peers : List SocketAddr) (s : Visiting W) :
    ∃ sent, (s.sendPeers env peers).2.events = s.events ++ sent.map .peer ∧ sent <+: peers ∧
      ((s.sendPeers env peers).1 = .ok () ∧ sent = peers ∨
        (s.sendPeers env peers).1 = .error .receiverDead) := by
  induction peers generalizing s with
  | nil => exact ⟨[], by simp [sendPeers], List.prefix_rfl, .inl ⟨rfl, rfl⟩⟩
  | cons peer peers ih =>
    unfold sendPeers
    split_ifs
    · obtain ⟨sent, hevents, hprefix, hresult⟩ := ih (s.emit (.peer peer))
      refine ⟨peer :: sent, ?_, (List.prefix_cons_inj peer).2 hprefix, ?_⟩
      · rw [hevents]
        simp [emit]
      · rcases hresult with ⟨hok, rfl⟩ | herror
        · exact .inl ⟨hok, rfl⟩
        · exact .inr herror
    · exact ⟨[], by simp, List.nil_prefix, .inr rfl⟩

theorem sendNodes_spec (depth : ℕ) (nodes : List (Node SocketAddr)) (s : Visiting W) :
    ∃ sent : List (Node SocketAddr), (s.sendNodes env depth nodes).2.events =
        s.events ++ sent.map (fun node => .node (offered depth node)) ∧ sent.Sublist nodes ∧
      ((s.sendNodes env depth nodes).1 = .ok () ∨ (s.sendNodes env depth nodes).1 = .error .receiverDead) := by
  induction nodes generalizing s with
  | nil => exact ⟨[], by simp [sendNodes], List.Sublist.slnil, .inl rfl⟩
  | cons node nodes ih =>
    unfold sendNodes
    dsimp only
    split_ifs
    · obtain ⟨sent, hevents, hsub, hresult⟩ := ih _
      refine ⟨node :: sent, ?_, hsub.cons_cons node, hresult⟩
      rw [hevents]
      simp [emit, offered]
    · exact ⟨[], by simp, List.nil_sublist _, .inr rfl⟩
    · obtain ⟨sent, hevents, hsub, hresult⟩ := ih _
      exact ⟨sent, hevents, hsub.cons node, hresult⟩

theorem conclude_spec (addr : SocketAddr) (depth : ℕ) (response : RequestOutcome) (s : Visiting W) :
    ∃ events, (s.conclude env addr depth response).2.events = s.events ++ events ∧
      Concludes addr depth response (s.conclude env addr depth response).1 events := by
  unfold conclude
  match response with
  | .error e => exact ⟨[.nodeError addr], rfl, .failed e⟩
  | .ok (.error e) => exact ⟨[], by simp, .refused e⟩
  | .ok (.response r) =>
    dsimp only
    obtain ⟨peers, hpeers, hprefix, hresult⟩ := s.sendPeers_spec env (r.values.getD [])
    generalize s.sendPeers env (r.values.getD []) = sent at hpeers hresult
    obtain ⟨result, s'⟩ := sent
    dsimp only at hpeers hresult
    rcases hresult with ⟨rfl, rfl⟩ | rfl
    · obtain ⟨nodes, hnodes, hsub, hresult⟩ := s'.sendNodes_spec env depth (nodeIt r addr)
      refine ⟨(r.values.getD []).map .peer ++ nodes.map (fun node => .node (offered depth node)), ?_, ?_⟩
      · rw [hnodes, hpeers, List.append_assoc]
      · rcases hresult with hok | herror
        · rw [hok]
          exact .followed r hsub
        · rw [herror]
          exact .cut r List.prefix_rfl hsub
    · refine ⟨peers.map .peer ++ [].map (fun node => .node (offered depth node)), ?_, ?_⟩
      · rw [hpeers, List.map_nil, List.append_nil]
      · exact .cut r hprefix (List.nil_sublist _)

/-- The query that the call sends as its `k`-th, if the worker takes it. -/
def sent (env : Surroundings W) (k : ℕ) (addr : SocketAddr) : List (SocketAddr × RequestOutcome) :=
  if k < env.takes then [(addr, env.outcomes k)] else []

/-- The events before the conclusion; all but the last one are about the first query. -/
def opening (env : Surroundings W) (id : Option Id20) (addr : SocketAddr) : List VisitEvent :=
  id.toList.map (fun id => VisitEvent.requestStart id addr) ++ (sent env 0 addr).map (fun q => .query q.1 q.2) ++
    ((env.outcome 0).toOption.toList.map (VisitEvent.nodeResponded addr) ++
      id.toList.map (fun id => VisitEvent.requestEnd id addr (env.outcome 0))) ++
    (sent env 1 addr).map (fun q => .query q.1 q.2)

theorem request_spec (k : ℕ) (addr : SocketAddr) (s : Visiting W) : (s.request env k addr).1 = env.outcome k ∧
    (s.request env k addr).2.events = s.events ++ (sent env k addr).map (fun q => .query q.1 q.2) := by
  unfold request Surroundings.outcome sent
  dsimp only
  split_ifs
  · exact ⟨rfl, rfl⟩
  · exact ⟨rfl, (List.append_nil _).symm⟩

theorem requestOne_events (callbacks : RecursiveRequestCallbacks W) (id : Option Id20) (addr : SocketAddr)
    (depth : ℕ) (s : Visiting W) :
    ∃ events, (s.requestOne env callbacks id addr depth).2.events = s.events ++ (opening env id addr ++ events) ∧
      Concludes addr depth (env.outcome 1) (s.requestOne env callbacks id addr depth).1 events := by
  unfold requestOne
  dsimp only
  obtain ⟨hfirst, hfirstEvents⟩ := (requestStart callbacks id addr s).request_spec env 0 addr
  generalize request env 0 addr (requestStart callbacks id addr s) = first at hfirst hfirstEvents
  obtain ⟨response, s₁⟩ := first
  dsimp only at hfirst hfirstEvents ⊢
  subst hfirst
  obtain ⟨hsecond, hsecondEvents⟩ :=
    (requestEnd callbacks id addr (env.outcome 0) (inspect env addr (env.outcome 0) s₁)).request_spec env 1 addr
  generalize request env 1 addr (requestEnd callbacks id addr (env.outcome 0) (inspect env addr (env.outcome 0) s₁)) =
    second at hsecond hsecondEvents
  obtain ⟨response, s₂⟩ := second
  dsimp only at hsecond hsecondEvents ⊢
  subst hsecond
  obtain ⟨events, hevents, hcase⟩ := conclude_spec env addr depth (env.outcome 1) s₂
  refine ⟨events, ?_, hcase⟩
  rw [hevents, hsecondEvents, ← List.append_assoc]
  congr 1
  rw [opening, ← List.append_assoc]
  congr 1
  unfold requestEnd inspect
  unfold requestStart at hfirstEvents
  cases id <;> cases env.outcome 0 <;> simp [emit, Except.toOption, hfirstEvents] at *

end Spec

section TwoQueries

theorem opening_seen (id : Option Id20) (addr : SocketAddr) :
    queries (opening env id addr) = sent env 0 addr ++ sent env 1 addr ∧
      ended (opening env id addr) = id.toList.map (fun id => (id, addr, env.outcome 0)) ∧
      recorded (opening env id addr) = (env.outcome 0).toOption.toList.map (fun r => (addr, some r)) ∧
      peersSent (opening env id addr) = [] ∧ nodesSent (opening env id addr) = [] := by
  unfold opening
  generalize env.outcome 0 = first
  unfold sent
  cases id <;> cases first <;> split_ifs <;> exact ⟨rfl, rfl, rfl, rfl, rfl⟩

theorem sentOn_seen (depth : ℕ) (peers : List SocketAddr) (nodes : List (Node SocketAddr)) :
    let events := peers.map VisitEvent.peer ++ nodes.map (fun node => VisitEvent.node (offered depth node))
    queries events = [] ∧ ended events = [] ∧ recorded events = [] ∧ peersSent events = peers ∧
      nodesSent events = nodes.map (offered depth) := by
  simp [queries, ended, recorded, peersSent, nodesSent, List.filterMap_map]

theorem Concludes.seen {addr : SocketAddr} {depth : ℕ} {response : RequestOutcome}
    {result : Except VisitError Unit} {events : List VisitEvent} (h : Concludes addr depth response result events) :
    queries events = [] ∧ ended events = [] ∧
      recorded events = (if response.isOk then [] else [(addr, none)]) ∧
      Decides addr depth response result (peersSent events) (nodesSent events) := by
  cases h with
  | failed e => exact ⟨rfl, rfl, rfl, .failed e⟩
  | refused e => exact ⟨rfl, rfl, rfl, .refused e⟩
  | @followed r nodes listed =>
    obtain ⟨hqueries, hended, hrecorded, hsent, hnodes⟩ := sentOn_seen depth (r.values.getD []) nodes
    rw [hsent, hnodes]
    exact ⟨hqueries, hended, hrecorded, .followed r listed⟩
  | @cut r peers nodes first listed =>
    obtain ⟨hqueries, hended, hrecorded, hsent, hnodes⟩ := sentOn_seen depth peers nodes
    rw [hsent, hnodes]
    exact ⟨hqueries, hended, hrecorded, .cut r first listed⟩

/-- What is seen of a call: the first outcome is reported and, if it is a reply, recorded; the
second one, if it is none, is recorded, and decides everything else. -/
theorem requestOne_seen (callbacks : RecursiveRequestCallbacks W) (id : Option Id20) (addr : SocketAddr) (depth : ℕ)
    (req : RecursiveRequest) (world : W) {result : Except VisitError Unit} {s : Visiting W}
    (h : requestOne env callbacks id addr depth ⟨req, world, []⟩ = (result, s)) :
    queries s.events = sent env 0 addr ++ sent env 1 addr ∧
      ended s.events = id.toList.map (fun id => (id, addr, env.outcome 0)) ∧
      recorded s.events = (env.outcome 0).toOption.toList.map (fun r => (addr, some r)) ++
        (if (env.outcome 1).isOk then [] else [(addr, none)]) ∧
      Decides addr depth (env.outcome 1) result (peersSent s.events) (nodesSent s.events) := by
  obtain ⟨events, hevents, hcase⟩ := requestOne_events env callbacks id addr depth ⟨req, world, []⟩
  rw [h] at hevents hcase
  dsimp only at hevents hcase
  obtain ⟨hqueries, hended, hrecorded, hdecides⟩ := hcase.seen
  obtain ⟨hopenQueries, hopenEnded, hopenRecorded, hopenPeers, hopenNodes⟩ := opening_seen env id addr
  rw [List.nil_append] at hevents
  rw [hevents]
  unfold queries ended recorded peersSent nodesSent at *
  simp only [List.filterMap_append, hqueries, hended, hrecorded, hopenQueries, hopenEnded, hopenRecorded,
    hopenPeers, hopenNodes, List.append_nil, List.nil_append]
  exact ⟨trivial, trivial, trivial, hdecides⟩

theorem Decides.dead {addr : SocketAddr} {depth : ℕ} {outcome : RequestOutcome} {result : Except VisitError Unit}
    {peers peers' : List SocketAddr} {nodes nodes' : List Visit}
    (h : Decides addr depth (.error .dhtDead) result peers nodes)
    (h' : Decides addr depth outcome result peers' nodes') : outcome = .error .dhtDead := by
  cases h with
  | failed e =>
    cases h' with
    | failed e' => rfl

/-- A call sends two queries, so that no single outcome is behind what it does, unless the first one
loses its sender and the worker ends before the second one. -/
theorem request_one_law (callbacks : RecursiveRequestCallbacks W) (id : Option Id20) (addr : SocketAddr) (depth : ℕ)
    (req : RecursiveRequest) (world : W) :
    ∃ result s, requestOne env callbacks id addr depth ⟨req, world, []⟩ = (result, s) ∧
      queries s.events = sent env 0 addr ++ sent env 1 addr ∧
      ended s.events = id.toList.map (fun id => (id, addr, env.outcome 0)) ∧
      recorded s.events = (env.outcome 0).toOption.toList.map (fun r => (addr, some r)) ++
        (if (env.outcome 1).isOk then [] else [(addr, none)]) ∧
      Decides addr depth (env.outcome 1) result (peersSent s.events) (nodesSent s.events) ∧
      ((∃ outcome, OneOutcome id addr depth outcome result s.events) ↔
        env.takes = 1 ∧ env.outcomes 0 = .error .dhtDead) := by
  obtain ⟨result, s, h⟩ : ∃ result s, requestOne env callbacks id addr depth ⟨req, world, []⟩ = (result, s) :=
    ⟨_, _, rfl⟩
  obtain ⟨hqueries, hended, hrecorded, hdecides⟩ := requestOne_seen env callbacks id addr depth req world h
  refine ⟨result, s, h, hqueries, hended, hrecorded, hdecides, ?_, ?_⟩
  · rintro ⟨outcome, one⟩
    have hone := one.queried
    rw [hqueries] at hone
    have htakes : env.takes = 1 := by
      have hlength := congrArg List.length hone
      unfold sent at hlength
      split_ifs at hlength <;> simp at hlength <;> omega
    have hfirst : env.outcomes 0 = outcome := by
      simpa [sent, htakes] using hone
    have hdead : env.outcome 1 = .error .dhtDead := by simp [Surroundings.outcome, htakes]
    rw [hdead] at hdecides
    exact ⟨htakes, hfirst.trans (hdecides.dead one.decided)⟩
  · rintro ⟨htakes, hfirst⟩
    have hdead : ∀ k, k < 2 → env.outcome k = .error .dhtDead := by
      intro k hk
      have hcase : k = 0 ∨ k = 1 := by omega
      rcases hcase with rfl | rfl
      · simp [Surroundings.outcome, htakes, hfirst]
      · simp [Surroundings.outcome, htakes]
    have hzero := hdead 0 (by omega)
    have hone := hdead 1 (by omega)
    refine ⟨.error .dhtDead, ?_, ?_, ?_, ?_⟩
    · rw [hqueries]
      simp [sent, htakes, hfirst]
    · rw [hended, hzero]
    · rw [hrecorded, hzero, hone]
      rfl
    · rwa [hone] at hdecides

def asked : SocketAddr := .v4 ⟨3, 6881⟩

def firstAnswer : ResponseOrError :=
  .response ⟨some [.v4 ⟨4, 6881⟩], 2, none, none, none, none, none, none, none⟩

def answersOnce : Surroundings Unit where
  takes := 2
  outcomes := fun k => if k = 0 then .ok firstAnswer else .error .responseTimeout
  meanwhile := fun _ shared => shared
  respondedAt := 10
  now := 20
  peerReceiver := true
  nodeReceiver := true

def silentCallbacks : RecursiveRequestCallbacks Unit := ⟨fun _ _ _ w => w, fun _ _ _ _ w => w⟩

def knowsAsked : RecursiveRequest :=
  { RecursiveRequest.new 4 32 0 with usefulNodes := [RecursiveRequest.freshNode 2 asked 0] }

theorem asked_run : requestOne answersOnce silentCallbacks (some 2) asked 0 ⟨knowsAsked, (), []⟩ =
    (.error (.request .responseTimeout),
      { req := { knowsAsked with usefulNodes := [⟨2, asked, 0, some 10, 1, true⟩] }
        world := ()
        events := [.requestStart 2 asked, .query asked (.ok firstAnswer), .nodeResponded asked firstAnswer,
          .requestEnd 2 asked (.ok firstAnswer), .query asked (.error .responseTimeout), .nodeError asked] }) := rfl

/-- The node is reported and recorded as having answered, yet its peer is lost, the call fails, and
the node has an error against it. -/
theorem answered_once_outcomes :
    ∃ result s, requestOne answersOnce silentCallbacks (some 2) asked 0 ⟨knowsAsked, (), []⟩ = (result, s) ∧
      result = .error (.request .responseTimeout) ∧
      queries s.events = [(asked, .ok firstAnswer), (asked, .error .responseTimeout)] ∧
      ended s.events = [(2, asked, .ok firstAnswer)] ∧
      recorded s.events = [(asked, some firstAnswer), (asked, none)] ∧ peersSent s.events = [] ∧
      s.req.usefulNodes = [⟨2, asked, 0, some 10, 1, true⟩] ∧
      ¬ ∃ outcome, OneOutcome (some 2) asked 0 outcome result s.events := by
  refine ⟨_, _, asked_run, rfl, rfl, rfl, rfl, rfl, rfl, ?_⟩
  rintro ⟨outcome, one⟩
  have hlength := congrArg List.length one.queried
  exact absurd hlength (by decide : ¬ 2 = 1)

end TwoQueries

end Visiting
end LibrtbitDht
