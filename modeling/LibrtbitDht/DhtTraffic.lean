import LibrtbitDht.DhtSteps

set_option autoImplicit false

namespace LibrtbitDht
open TransitionRuns Bencode

section Loops

theorem Loop.step_cases {loop loop' : Loop} {b : Loop.Action} (h : loop.step b = .ok loop') :
    (∃ lookup lookup' c, b.findNode = some c ∧ loop = .findNode lookup ∧ loop' = .findNode lookup' ∧
      Lookup.Step lookup c lookup') ∨
    (∃ callbacks lookup lookup' a, b = .turn a ∧ loop = .getPeers callbacks lookup ∧
      loop' = .getPeers callbacks lookup' ∧ PeersLookup.Step lookup a lookup') := by
  cases loop with
  | findNode lookup =>
    left
    change Loop.stepFindNode lookup b = _ at h
    unfold Loop.stepFindNode at h
    cases hb : b.findNode with
    | none =>
      rw [hb] at h
      cases h
    | some c =>
      rw [hb] at h
      dsimp only at h
      cases hlookup : lookup.step c with
      | error e =>
        rw [hlookup] at h
        cases h
      | ok lookup' =>
        rw [hlookup] at h
        cases h
        exact ⟨lookup, lookup', c, rfl, rfl, rfl, hlookup⟩
  | getPeers callbacks lookup =>
    right
    cases b with
    | finished => cases h
    | turn a =>
      rw [Loop.step] at h
      cases hlookup : lookup.step a with
      | error e =>
        rw [hlookup] at h
        cases h
      | ok lookup' =>
        rw [hlookup] at h
        cases h
        exact ⟨callbacks, lookup, lookup', a, rfl, rfl, rfl, hlookup⟩

theorem Loop.visited_prefix {loop loop' : Loop} {b : Loop.Action} (h : loop.step b = .ok loop') :
    loop.lookup.visited <+: loop'.lookup.visited := by
  rcases Loop.step_cases h with ⟨lookup, lookup', c, _, rfl, rfl, hstep⟩ |
    ⟨callbacks, lookup, lookup', a, _, rfl, rfl, hstep⟩
  · rcases (Lookup.step_cases hstep).2 with ⟨visit, queue, _, _, rfl⟩ | ⟨f, _, reply, now, _, _, _, rfl⟩ |
      ⟨f, _, reply, now, _, _, _, _, rfl⟩ | ⟨_, _, _, rfl⟩
    · exact List.prefix_append _ _
    · exact List.prefix_rfl
    · exact List.prefix_rfl
    · exact List.prefix_rfl
  · rcases PeersLookup.step_cases hstep with ⟨table, now, asleep, roots, _, _, _, rfl⟩ | ⟨visit, queue, _, _, rfl⟩ |
      ⟨f, _, reply, now, _, _, rfl⟩ | ⟨f, _, reply, now, _, _, rfl⟩ | ⟨_, _, rfl⟩ | ⟨_, _, _, rfl⟩
    · exact List.prefix_rfl
    · exact List.prefix_append _ _
    · exact List.prefix_rfl
    · exact List.prefix_rfl
    · exact List.prefix_rfl
    · exact List.prefix_rfl

def Loop.peers : Loop → List SocketAddr
  | .findNode _ => []
  | .getPeers _ lookup => lookup.peers

theorem Loop.peers_step {loop loop' : Loop} {b : Loop.Action} (h : loop.step b = .ok loop') {p : SocketAddr}
    (hp : p ∈ loop'.peers) :
    p ∈ loop.peers ∨ ∃ num reply now, b = .turn (.secondReply num reply now) ∧ p ∈ reply.values := by
  rcases Loop.step_cases h with ⟨lookup, lookup', c, _, rfl, rfl, hstep⟩ |
    ⟨callbacks, lookup, lookup', a, rfl, rfl, rfl, hstep⟩
  · cases hp
  · rcases PeersLookup.step_cases hstep with ⟨table, now, asleep, roots, rfl, _, _, rfl⟩ | ⟨visit, queue, rfl, _, rfl⟩ |
      ⟨f, _, reply, now, rfl, _, rfl⟩ | ⟨f, _, reply, now, rfl, _, rfl⟩ | ⟨rfl, _, rfl⟩ | ⟨rfl, _, _, rfl⟩
    · exact .inl hp
    · exact .inl hp
    · exact .inl hp
    · rcases List.mem_append.1 hp with hp | hp
      · exact .inl hp
      · split_ifs at hp
        · exact .inr ⟨f.num, reply, now, rfl, hp⟩
        · cases hp
    · exact .inl hp
    · exact .inl hp

end Loops

theorem RecursiveRequestCallbacksGetPeers.onRequestEnd_eq_some {callbacks : RecursiveRequestCallbacksGetPeers}
    {dhtId infoHash targetNode : Id20} {tid : TransactionId} {addr : SocketAddr} {outcome : RequestResult}
    {message : Message}
    (h : callbacks.onRequestEnd dhtId tid infoHash targetNode addr outcome = some message) :
    ∃ port resp token, callbacks.announcePort = some port ∧ outcome = .ok (.response resp) ∧ resp.token = some token ∧
      message = createRequest dhtId tid (.announce infoHash token port) addr := by
  unfold onRequestEnd at h
  cases hport : callbacks.announcePort with
  | none =>
    rw [hport] at h
    cases h
  | some port =>
    rw [hport] at h
    cases outcome with
    | error e => cases h
    | ok reply =>
      cases reply with
      | error e => cases h
      | response resp =>
        dsimp only at h
        cases htoken : resp.token with
        | none =>
          rw [htoken] at h
          cases h
        | some token =>
          rw [htoken] at h
          dsimp only at h
          split_ifs at h
          exact ⟨port, resp, token, rfl, rfl, htoken, (Option.some.inj h).symm⟩

theorem RequestResult.mem_values {outcome : RequestResult} {p : SocketAddr} (h : p ∈ outcome.values) :
    ∃ resp, outcome = .ok (.response resp) ∧ p ∈ resp.values.getD [] := by
  cases outcome with
  | error e => cases h
  | ok reply =>
    cases reply with
    | error e => cases h
    | response resp => exact ⟨resp, rfl, h⟩

namespace Dht

/-- A task was started for a reason, and its loop is in a run of its own. -/
inductive Made (js : List Action) : Task → Prop where
  | findNode {target : Id20} {addrs : List SocketAddr} {actions : List LibrtbitDht.Action} {lookup : Lookup}
      (started : List ℕ) (run : Run Lookup.Step (.start target addrs) actions lookup) :
      Made js ⟨.findNode target, .findNode lookup, started⟩
  | getPeers {infoHash : Id20} {port : Option (BitVec 16)} {isV4 : Bool} {actions : List PeersLookup.Action}
      {lookup : PeersLookup} (started : List ℕ) (asked : .getPeers infoHash port ∈ js)
      (run : Run PeersLookup.Step (.start infoHash isV4) actions lookup) (rounds : PeersLookup.RoundsOf isV4 actions) :
      Made js ⟨.getPeers infoHash, .getPeers (.new port) lookup, started⟩

section Tasks
variable {js : List Action} {t : Task}

theorem Made.mono (h : Made js t) {js' : List Action} (hbegins : js <+: js') : Made js' t := by
  cases h with
  | findNode started run => exact .findNode started run
  | getPeers started asked run rounds => exact .getPeers started (hbegins.subset asked) run rounds

theorem Made.withStarted (h : Made js t) (started : List ℕ) : Made js { t with started } := by
  cases h with
  | findNode _ run => exact .findNode started run
  | getPeers _ asked run rounds => exact .getPeers started asked run rounds

theorem Made.step (h : Made js t) {b : Loop.Action} {loop : Loop} (hstep : t.loop.step b = .ok loop)
    (rounds : ∀ callbacks lookup table now asleep, t.loop = .getPeers callbacks lookup →
      b = .turn (.round table now asleep) → table.Inv ∧ ∀ n ∈ table.stored, n.addr.isIpv4 = lookup.isV4) :
    Made js { t with loop } := by
  cases h with
  | @findNode target addrs actions lookup started run =>
    rcases Loop.step_cases hstep with ⟨lookup, lookup', c, _, heq, rfl, hc⟩ |
      ⟨callbacks, lookup, lookup', a, _, heq, _, _⟩
    · cases heq
      exact .findNode started (run.snoc hc)
    · cases heq
  | @getPeers infoHash port isV4 actions lookup started asked run hrounds =>
    rcases Loop.step_cases hstep with ⟨lookup, lookup', c, _, heq, _, _⟩ |
      ⟨callbacks, lookup, lookup', a, rfl, heq, rfl, ha⟩
    · cases heq
    · cases heq
      refine .getPeers started asked (run.snoc ha) ?_
      intro table now asleep hround
      rcases List.mem_append.1 hround with hround | hround
      · exact hrounds table now asleep hround
      · cases List.mem_singleton.1 hround
        have htable := rounds _ lookup table now asleep rfl rfl
        rwa [(PeersLookup.tended_run run).isV4] at htable

theorem Made.counted (h : Made js t) : t.loop.lookup.Counted := by
  cases h with
  | findNode started run => exact (Lookup.fed_run run).2
  | getPeers started asked run rounds => exact (PeersLookup.tended_run run).counted

end Tasks

def transaction (num : ℕ) : TransactionId := BitVec.ofNat 16 num

/-- The `num`-th message as it is handed to the writer. -/
def outgoing (num : ℕ) (m : Message × SocketAddr) : Outgoing := ⟨⟨some (transaction num), m.2, some num⟩, m.1⟩

def Action.receivedQuery : Action → Option (Readings × Message × SocketAddr)
  | .receive r msg addr => if DhtState.isQuery msg.kind then some (r, msg, addr) else none
  | _ => none

section Reasons
variable (C : Codec) (s₀ : Dht) (js : List Action)

/-- A reply came to the message while it was in flight, from the address that it was created for. -/
def Heard (num : ℕ) (m : Message × SocketAddr) (reply : ResponseOrError) : Prop :=
  ∃ v r msg, Did (Step C) s₀ js (.receive r msg m.2) v ∧ v.created[num]? = some m ∧
    v.inflight.get? (transaction num, m.2) = some num ∧
    getOurTransactionId msg.transactionId = some (transaction num) ∧ replyOf msg.kind = some reply

def Replied (request : Request) (addr : SocketAddr) (resp : Response) : Prop :=
  ∃ num, Heard C s₀ js num (createRequest s₀.state.id (transaction num) request addr, addr) (.response resp)

def Found (infoHash : Id20) (p : SocketAddr) : Prop :=
  ∃ addr resp, Replied C s₀ js (.getPeers infoHash) addr resp ∧ p ∈ resp.values.getD []

def FoundAll (t : Task) : Prop :=
  ∀ infoHash, t.request = .getPeers infoHash → ∀ p ∈ t.loop.peers, Found C s₀ js infoHash p

/-- Why a node creates a request for an address: an announcement is owed to a reply to a query for
the same info hash, and to somebody who wanted to announce the port under it. -/
inductive Reason (addr : SocketAddr) : Request → Prop where
  | ping : Reason addr .ping
  | findNode {target : Id20} : Reason addr (.findNode target)
  | getPeers {infoHash : Id20} {port : Option (BitVec 16)} (asked : .getPeers infoHash port ∈ js) :
      Reason addr (.getPeers infoHash)
  | announce {infoHash : Id20} {port : BitVec 16} {token : ByteStrings.Bytes} {resp : Response}
      (asked : .getPeers infoHash (some port) ∈ js) (replied : Replied C s₀ js (.getPeers infoHash) addr resp)
      (token_eq : resp.token = some token) : Reason addr (.announce infoHash token port)

/-- The `num`-th message is a request with a reason. -/
def Justified (num : ℕ) (m : Message × SocketAddr) : Prop :=
  ∃ request, m.1 = createRequest s₀.state.id (transaction num) request m.2 ∧ Reason C s₀ js m.2 request

/-- The answer to a query is what `on_received_message` made of it when it came. -/
def Answered (query : Readings × Message × SocketAddr) (out : Outgoing) : Prop :=
  ∃ v resp state, Did (Step C) s₀ js (.receive query.1 query.2.1 query.2.2) v ∧
    v.state.onReceivedMessage query.1 query.2.1 query.2.2 =
      .ok (some (DhtState.reply query.2.1 query.2.2 resp), state) ∧
    v.state.Answer query.1 query.2.1.kind query.2.2 resp ∧
    out = ⟨⟨none, query.2.2, none⟩, DhtState.reply query.2.1 query.2.2 resp⟩

/-- What happened to the `num`-th message for its call to end so. -/
inductive Caused (num : ℕ) (m : Message × SocketAddr) : RequestOutcome → Prop where
  | reply {reply : ResponseOrError} (heard : Heard C s₀ js num m reply) : Caused num m (.ok reply)
  | sendError {v : Dht} {out : Outgoing} {queue : List Outgoing} (did : Did (Step C) s₀ js (.writer true) v)
      (queued : v.queue = out :: queue) (tid_eq : out.ourTid = some (transaction num)) (addr_eq : out.addr = m.2)
      (held : v.inflight.get? (transaction num, m.2) = some num) : Caused num m (.error .sendError)
  | responseTimeout (mem : .timeout num ∈ js) : Caused num m (.error .responseTimeout)
  | senderDropped {v : Dht} (did : Did (Step C) s₀ js (.senderDropped num) v)
      (gone : v.inflight.get? (transaction num, m.2) ≠ some num) : Caused num m (.error .dhtDead)
  | refused {v : Dht} (did : Did (Step C) s₀ js (.send num) v) (closed : v.workerOpen = false) :
      Caused num m (.error .dhtDead)

variable {C : Codec} {s₀ : Dht} {js js' : List Action}

theorem Heard.mono {num : ℕ} {m : Message × SocketAddr} {reply : ResponseOrError} (h : Heard C s₀ js num m reply)
    (hbegins : js <+: js') : Heard C s₀ js' num m reply := by
  obtain ⟨v, r, msg, hdid, rest⟩ := h
  exact ⟨v, r, msg, hdid.mono hbegins, rest⟩

theorem Replied.mono {request : Request} {addr : SocketAddr} {resp : Response}
    (h : Replied C s₀ js request addr resp) (hbegins : js <+: js') : Replied C s₀ js' request addr resp := by
  obtain ⟨num, hheard⟩ := h
  exact ⟨num, hheard.mono hbegins⟩

theorem FoundAll.mono {t : Task} (h : FoundAll C s₀ js t) (hbegins : js <+: js') : FoundAll C s₀ js' t := by
  intro infoHash hrequest p hp
  obtain ⟨addr, resp, hreplied, hvalues⟩ := h infoHash hrequest p hp
  exact ⟨addr, resp, hreplied.mono hbegins, hvalues⟩

theorem Reason.mono {addr : SocketAddr} {request : Request} (h : Reason C s₀ js addr request)
    (hbegins : js <+: js') : Reason C s₀ js' addr request := by
  cases h with
  | ping => exact .ping
  | findNode => exact .findNode
  | getPeers asked => exact .getPeers (hbegins.subset asked)
  | announce asked replied token_eq => exact .announce (hbegins.subset asked) (replied.mono hbegins) token_eq

theorem Justified.mono {num : ℕ} {m : Message × SocketAddr} (h : Justified C s₀ js num m) (hbegins : js <+: js') :
    Justified C s₀ js' num m := by
  obtain ⟨request, heq, hreason⟩ := h
  exact ⟨request, heq, hreason.mono hbegins⟩

theorem Answered.mono {query : Readings × Message × SocketAddr} {out : Outgoing} (h : Answered C s₀ js query out)
    (hbegins : js <+: js') : Answered C s₀ js' query out := by
  obtain ⟨v, resp, state, hdid, rest⟩ := h
  exact ⟨v, resp, state, hdid.mono hbegins, rest⟩

theorem Caused.mono {num : ℕ} {m : Message × SocketAddr} {outcome : RequestOutcome}
    (h : Caused C s₀ js num m outcome) (hbegins : js <+: js') : Caused C s₀ js' num m outcome := by
  cases h with
  | reply heard => exact .reply (heard.mono hbegins)
  | sendError did queued tid_eq addr_eq held => exact .sendError (did.mono hbegins) queued tid_eq addr_eq held
  | responseTimeout mem => exact .responseTimeout (hbegins.subset mem)
  | senderDropped did gone => exact .senderDropped (did.mono hbegins) gone
  | refused did closed => exact .refused (did.mono hbegins) closed

end Reasons

end Dht
end LibrtbitDht
