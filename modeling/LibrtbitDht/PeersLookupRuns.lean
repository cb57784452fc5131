import LibrtbitDht.PeersLookup

set_option autoImplicit false

namespace LibrtbitDht
open TransitionRuns LeastElements

namespace RecursiveRequest
variable (s : RecursiveRequest)

theorem infoHash_mark (p : MaybeUsefulNode → Bool) (f : MaybeUsefulNode → MaybeUsefulNode) :
    (s.mark p f).2.infoHash = s.infoHash := by
  rcases s.mark_cases p f with ⟨_, heq⟩ | ⟨_, _, _, _, _, heq⟩
  · rw [heq]
  · rw [heq]

theorem infoHash_shouldRequestNode (nodeId : Id20) (addr : SocketAddr) (depth : ℕ) (now : Instant) :
    (s.shouldRequestNode nodeId addr depth now).2.infoHash = s.infoHash := by
  rcases s.shouldRequestNode_cases nodeId addr depth now with
    ⟨_, heq⟩ | ⟨_, _, _, _, heq⟩ | ⟨_, _, _, _, ⟨_, heq⟩ | ⟨_, _, heq⟩⟩
  · rw [heq]
  · rw [heq]
    exact infoHash_mark s _ _
  · rw [heq]
  · rw [heq]

theorem infoHash_sendNodes (depth : ℕ) (now : Instant) (nodes : List (Node SocketAddr)) :
    (s.sendNodes depth now nodes).2.infoHash = s.infoHash := by
  induction nodes generalizing s with
  | nil => rfl
  | cons node nodes ih =>
    change ((s.shouldRequestNode node.id node.addr depth now).2.sendNodes depth now nodes).2.infoHash = s.infoHash
    rw [ih, infoHash_shouldRequestNode]

theorem infoHash_firstReply (addr : SocketAddr) (reply : RequestResult) (now : Instant) :
    (s.firstReply addr reply now).infoHash = s.infoHash := by
  cases reply with
  | ok r => exact infoHash_mark s _ _
  | error e => rfl

/-- The nodes that are followed are among those that the reply lists, one step deeper. -/
theorem sendNodes_sublist (depth : ℕ) (now : Instant) (nodes : List (Node SocketAddr)) :
    (s.sendNodes depth now nodes).1.Sublist (nodes.map (fun node => ⟨some node.id, node.addr, depth + 1⟩)) := by
  induction nodes generalizing s with
  | nil => exact List.Sublist.slnil
  | cons node nodes ih =>
    have hrest := ih (s.shouldRequestNode node.id node.addr depth now).2
    simp only [sendNodes, List.map_cons]
    split_ifs
    · exact hrest.cons_cons _
    · exact hrest.cons _

theorem secondReply_visits (receiver : Bool) (addr : SocketAddr) (depth : ℕ) (reply : RequestResult) (now : Instant) :
    SameLimits s (s.secondReply receiver addr depth reply now).2.2 ∧
      (s.secondReply receiver addr depth reply now).2.2.infoHash = s.infoHash ∧
      ∀ visit ∈ (s.secondReply receiver addr depth reply now).2.1, depth < s.maxDepth ∧
        ∃ r, reply = .ok (.response r) ∧ ∃ node ∈ nodeIt r addr, visit = ⟨some node.id, node.addr, depth + 1⟩ := by
  cases reply with
  | error e => exact ⟨sameLimits_mark s _ _, infoHash_mark s _ _, nofun⟩
  | ok r =>
    cases r with
    | error e => exact ⟨.refl s, rfl, nofun⟩
    | response r =>
      by_cases hdead : r.values.getD [] ≠ [] ∧ receiver = false
      · have hnone : s.secondReply receiver addr depth (.ok (.response r)) now = (.error .receiverDead, [], s) :=
          if_pos hdead
        rw [hnone]
        exact ⟨.refl s, rfl, nofun⟩
      · have hsent : s.secondReply receiver addr depth (.ok (.response r)) now =
            (.ok (), s.sendNodes depth now (nodeIt r addr)) := if_neg hdead
        rw [hsent]
        refine ⟨sameLimits_sendNodes s _ _ _, infoHash_sendNodes s _ _ _, ?_⟩
        intro visit hvisit
        refine ⟨(sendNodes_depth s depth now _ visit hvisit).2, r, rfl, ?_⟩
        obtain ⟨node, hnode, rfl⟩ := List.mem_map.1 ((sendNodes_sublist s depth now _).subset hvisit)
        exact ⟨node, hnode, rfl⟩

theorem getPeersRoot_depth {table : RoutingTable} {now : Instant} {roots : List Visit}
    (h : s.getPeersRoot table now = .ok roots) : roots.length ≤ 8 ∧ ∀ visit ∈ roots, visit.depth = 0 := by
  unfold getPeersRoot at h
  cases hsorted : table.sortedByDistanceFrom s.infoHash now with
  | error f =>
    rw [hsorted] at h
    cases h
  | ok nodes =>
    rw [hsorted] at h
    cases h
    refine ⟨List.length_take_le 8 _, ?_⟩
    intro visit hvisit
    obtain ⟨n, _, rfl⟩ := List.mem_map.1 (List.mem_of_mem_take hvisit)
    rfl

theorem getPeersRoot_spec {table : RoutingTable} (h : table.Inv) (now : Instant) :
    ∃ best, s.getPeersRoot table now = .ok (best.map (fun n => ⟨some n.id, n.addr, 0⟩)) ∧
      Least (distanceKey s.infoHash now) 8 table.stored best := by
  obtain ⟨nodes, hrun, hperm, hsorted⟩ := h.sortedByDistanceFrom_sorted s.infoHash now
  refine ⟨nodes.take 8, ?_, least_take hperm hsorted 8⟩
  rw [getPeersRoot, hrun, ok_bind, pure_eq_ok, List.map_take]

end RecursiveRequest

theorem nodeIt_family {r : Response} {addr : SocketAddr} {node : Node SocketAddr} (h : node ∈ nodeIt r addr) :
    node.addr.isIpv4 = addr.isIpv4 := by
  have hp := (List.mem_filter.1 h).2
  exact (beq_iff_eq.1 hp).symm

namespace PeersLookup
open RecursiveRequest

section Shape
variable {infoHash : Id20} {isV4 : Bool} {actions : List Action} {s s' : PeersLookup} {a : Action}

/-- The parts of the loop fit together, and what was queued is what was visited and what waits. -/
structure Tended (infoHash : Id20) (isV4 : Bool) (s : PeersLookup) : Prop where
  counted : s.loop.Counted
  maxDepth : s.loop.req.maxDepth = 4
  infoHash : s.loop.req.infoHash = infoHash
  isV4 : s.isV4 = isV4
  fed : s.loop.visited ++ s.loop.queue = s.sent
  depths : ∀ visit ∈ s.sent, visit.depth ≤ 4

theorem tended_start (infoHash : Id20) (isV4 : Bool) : Tended infoHash isV4 (start infoHash isV4) := by
  refine ⟨?_, rfl, rfl, rfl, rfl, nofun⟩
  constructor <;> simp [start, Lookup.empty]

theorem Tended.visit_sent (h : Tended infoHash isV4 s) {f : Fut} (hf : f ∈ s.loop.futs) : f.visit ∈ s.sent := by
  rw [← h.fed]
  exact List.mem_append_left _ (h.counted.visit_mem hf)

theorem tended_step (h : Tended infoHash isV4 s) (hstep : Step s a s') : Tended infoHash isV4 s' := by
  obtain ⟨table, now, asleep, roots, _, _, hroots, rfl⟩ | ⟨visit, queue, _, hqueue, rfl⟩ |
    ⟨f, hf, reply, now, _, hreplied, rfl⟩ | ⟨f, hf, reply, now, _, hreplied, rfl⟩ | ⟨_, _, rfl⟩ | ⟨_, _, _, rfl⟩ :=
    step_cases hstep
  · refine ⟨⟨h.counted.nums, h.counted.asked, h.counted.unused, h.counted.inFlight, h.counted.complete⟩, h.maxDepth,
      h.infoHash, h.isV4, ?_, ?_⟩
    · change s.loop.visited ++ (s.loop.queue ++ roots) = s.sent ++ roots
      rw [← List.append_assoc, h.fed]
    · intro visit hvisit
      rcases List.mem_append.1 hvisit with hvisit | hvisit
      · exact h.depths visit hvisit
      · rw [(getPeersRoot_depth _ hroots).2 visit hvisit]
        omega
  · have hc : Lookup.Counted { s.loop with queue } :=
      ⟨h.counted.nums, h.counted.asked, h.counted.unused, h.counted.inFlight, h.counted.complete⟩
    refine ⟨Lookup.counted_push hc visit, h.maxDepth, h.infoHash, h.isV4, ?_, h.depths⟩
    have hfed := h.fed
    rw [hqueue] at hfed
    change (s.loop.visited ++ [visit]) ++ queue = s.sent
    rw [← hfed, List.append_assoc]
    rfl
  · have hlimits := sameLimits_firstReply s.loop.req f.visit.addr reply now
    exact ⟨Lookup.counted_onFirstReply h.counted hf hreplied reply now, hlimits.maxDepth.trans h.maxDepth,
      (infoHash_firstReply _ _ _ _).trans h.infoHash, h.isV4, h.fed, h.depths⟩
  · obtain ⟨hlimits, hhash, hvisits⟩ :=
      secondReply_visits s.loop.req s.receiver f.visit.addr f.visit.depth reply now
    have hc := Lookup.counted_onSecondReply h.counted hf hreplied reply now
    refine ⟨⟨hc.nums, hc.asked, hc.unused, hc.inFlight, hc.complete⟩, hlimits.maxDepth.trans h.maxDepth,
      hhash.trans h.infoHash, h.isV4, ?_, ?_⟩
    · change s.loop.visited ++ (s.loop.queue ++ _) = s.sent ++ _
      rw [← List.append_assoc, h.fed]
    · intro visit hvisit
      rcases List.mem_append.1 hvisit with hvisit | hvisit
      · exact h.depths visit hvisit
      · obtain ⟨hlt, r, _, node, _, rfl⟩ := hvisits visit hvisit
        rw [h.maxDepth] at hlt
        exact hlt
  · exact ⟨h.counted, h.maxDepth, h.infoHash, h.isV4, h.fed, h.depths⟩
  · exact ⟨h.counted, h.maxDepth, h.infoHash, h.isV4, h.fed, h.depths⟩

theorem tended_run (run : Run Step (start infoHash isV4) actions s) : Tended infoHash isV4 s :=
  run.invariant (Tended infoHash isV4) (tended_start infoHash isV4) (fun _ _ _ h hstep => tended_step h hstep)

theorem Tended.queries_le (h : Tended infoHash isV4 s) (num : ℕ) : s.loop.queries.count num ≤ 2 := by
  by_cases hlt : num < s.loop.visited.length
  · by_cases hfut : ∃ f ∈ s.loop.futs, f.num = num
    · obtain ⟨f, hf, rfl⟩ := hfut
      rw [h.counted.inFlight f hf]
      split_ifs
      · exact le_refl 2
      · omega
    · rw [h.counted.complete num hlt (fun f hf heq => hfut ⟨f, hf, heq⟩)]
  · rw [h.counted.unused num (by omega)]
    omega

end Shape

section Law
variable {infoHash : Id20} {isV4 : Bool} {actions : List Action} {s : PeersLookup}

def Action.isDropped : Action → Bool
  | .dropped => true
  | _ => false

def Action.values : Action → List SocketAddr
  | .secondReply _ reply _ => reply.values
  | _ => []

/-- The peers in the second replies, up to the moment when the stream was dropped. -/
def heard (actions : List Action) : List SocketAddr :=
  (actions.takeWhile (fun a => !a.isDropped)).flatMap Action.values

/-- Where a queued node comes from: a round, or the second reply of a node visited before. -/
inductive Origin (infoHash : Id20) (actions : List Action) (visited : List Visit) (visit : Visit) : Prop where
  | root {table : RoutingTable} {now asleep : Instant} {best : List RoutingTableNode} {n : RoutingTableNode}
      (round : .round table now asleep ∈ actions) (least : Least (distanceKey infoHash now) 8 table.stored best)
      (mem : n ∈ best) (eq : visit = ⟨some n.id, n.addr, 0⟩)
  | child {num : ℕ} {r : Response} {now : Instant} {parent : Visit} {node : Node SocketAddr}
      (reply : .secondReply num (.ok (.response r)) now ∈ actions) (asked : visited[num]? = some parent)
      (shallow : parent.depth < 4) (listed : node ∈ nodeIt r parent.addr)
      (eq : visit = ⟨some node.id, node.addr, parent.depth + 1⟩)

/-- The tables of the rounds are well shaped and hold addresses of the family. -/
def RoundsOf (isV4 : Bool) (actions : List Action) : Prop :=
  ∀ table now asleep, .round table now asleep ∈ actions →
    table.Inv ∧ ∀ n ∈ table.stored, n.addr.isIpv4 = isV4

structure PeersLaw (infoHash : Id20) (isV4 : Bool) (actions : List Action) (s : PeersLookup) : Prop where
  /-- Nothing that was queued is lost, taken twice or taken out of order. -/
  fed : s.loop.visited ++ s.loop.queue = s.sent
  origin : ∀ visit ∈ s.sent, Origin infoHash actions s.loop.visited visit
  depth : ∀ visit ∈ s.sent, visit.depth ≤ 4
  family : ∀ visit ∈ s.sent, visit.addr.isIpv4 = isV4
  queries : ∀ num, s.loop.queries.count num ≤ 2
  peers : s.peers = heard actions

theorem Origin.mono {js : List Action} {visited : List Visit} {visit : Visit} (a : Action) (new : List Visit)
    (h : Origin infoHash js visited visit) : Origin infoHash (js ++ [a]) (visited ++ new) visit := by
  cases h with
  | root round least mem eq => exact .root (List.mem_append_left _ round) least mem eq
  | child reply asked shallow listed eq =>
    have hlt := (List.getElem?_eq_some_iff.1 asked).1
    refine .child (List.mem_append_left _ reply) ?_ shallow listed eq
    rw [List.getElem?_append_left hlt]
    exact asked

theorem heard_snoc_open {js : List Action} (hopen : ∀ b ∈ js, b.isDropped = false) (a : Action) :
    heard (js ++ [a]) = heard js ++ if a.isDropped then [] else a.values := by
  have hall : ∀ b ∈ js, (!b.isDropped) = true := fun b hb => by rw [hopen b hb]; rfl
  have hnone : js.takeWhile (fun b => !b.isDropped) = js := List.takeWhile_eq_self_iff.2 hall
  unfold heard
  rw [List.takeWhile_append_of_pos hall, hnone, List.flatMap_append]
  cases ha : a.isDropped with
  | true => simp [ha]
  | false => simp [ha]

theorem heard_snoc_closed {js : List Action} (hclosed : ∃ b ∈ js, b.isDropped = true) (a : Action) :
    heard (js ++ [a]) = heard js := by
  obtain ⟨b, hb, hdropped⟩ := hclosed
  have hshort : (js.takeWhile (fun c => !c.isDropped)).length ≠ js.length := by
    intro hlen
    have hself := (List.takeWhile_prefix (fun c : Action => !c.isDropped)).eq_of_length hlen
    have hall := List.takeWhile_eq_self_iff.1 hself b hb
    rw [hdropped] at hall
    cases hall
  unfold heard
  rw [List.takeWhile_append, if_neg hshort]

/-- What the receiver of the stream has got so far. -/
structure Heard (actions : List Action) (s : PeersLookup) : Prop where
  peers : s.peers = heard actions
  receiver : s.receiver = true ↔ ∀ a ∈ actions, a.isDropped = false

theorem heard_step {js : List Action} {v w : PeersLookup} {a : Action} (h : Heard js v) (hstep : Step v a w) :
    Heard (js ++ [a]) w := by
  have hquiet : a.isDropped = false → a.values = [] → w.peers = v.peers → w.receiver = v.receiver →
      Heard (js ++ [a]) w := by
    intro hdropped hvalues hpeers hreceiver
    refine ⟨?_, ?_⟩
    · by_cases hopen : v.receiver = true
      · rw [heard_snoc_open (h.receiver.1 hopen), hdropped, hvalues, hpeers, h.peers]
        simp
      · have hclosed : ∃ b ∈ js, b.isDropped = true := by
          by_contra hnone
          exact hopen (h.receiver.2 (by simpa using hnone))
        rw [heard_snoc_closed hclosed, hpeers, h.peers]
    · rw [hreceiver, h.receiver, List.forall_mem_append]
      simp [hdropped]
  obtain ⟨table, now, asleep, roots, rfl, _, _, rfl⟩ | ⟨visit, queue, rfl, _, rfl⟩ | ⟨f, _, reply, now, rfl, _, rfl⟩ |
    ⟨f, _, reply, now, rfl, _, rfl⟩ | ⟨rfl, hopen, rfl⟩ | ⟨rfl, _, _, rfl⟩ := step_cases hstep
  · exact hquiet rfl rfl rfl rfl
  · exact hquiet rfl rfl rfl rfl
  · exact hquiet rfl rfl rfl rfl
  · change Heard (js ++ [.secondReply f.num reply now]) (v.onSecondReply f reply now)
    by_cases hopen : v.receiver = true
    · refine ⟨?_, ?_⟩
      · change v.peers ++ (if v.receiver then reply.values else []) = _
        rw [heard_snoc_open (h.receiver.1 hopen), if_pos hopen, h.peers]
        rfl
      · change v.receiver = true ↔ _
        rw [h.receiver, List.forall_mem_append]
        simp [Action.isDropped]
    · have hclosed : ∃ b ∈ js, b.isDropped = true := by
        by_contra hnone
        exact hopen (h.receiver.2 (by simpa using hnone))
      refine ⟨?_, ?_⟩
      · change v.peers ++ (if v.receiver then reply.values else []) = _
        rw [heard_snoc_closed hclosed, if_neg hopen, h.peers, List.append_nil]
      · change v.receiver = true ↔ _
        rw [h.receiver, List.forall_mem_append]
        simp [Action.isDropped]
  · refine ⟨?_, ?_⟩
    · rw [heard_snoc_open (h.receiver.1 hopen)]
      change v.peers = heard js ++ []
      rw [List.append_nil, h.peers]
    · rw [List.forall_mem_append]
      simp [Action.isDropped]
  · exact hquiet rfl rfl rfl rfl

theorem heard_run (run : Run Step (start infoHash isV4) actions s) : Heard actions s :=
  run.history Heard ⟨rfl, by simp [start]⟩ (fun _ _ _ _ _ h hstep => heard_step h hstep)

/-- The nodes queued so far come from somewhere and are of the family. -/
structure Rooted (infoHash : Id20) (isV4 : Bool) (actions : List Action) (s : PeersLookup) : Prop where
  origin : ∀ visit ∈ s.sent, Origin infoHash actions s.loop.visited visit
  family : ∀ visit ∈ s.sent, visit.addr.isIpv4 = isV4

theorem Rooted.mono {js : List Action} {v w : PeersLookup} (h : Rooted infoHash isV4 js v) (a : Action)
    {new : List Visit} (hvisited : w.loop.visited = v.loop.visited ++ new) (hsent : w.sent = v.sent) :
    Rooted infoHash isV4 (js ++ [a]) w := by
  refine ⟨?_, by rw [hsent]; exact h.family⟩
  rw [hvisited, hsent]
  exact fun visit hvisit => (h.origin visit hvisit).mono a new

theorem rooted_step {js : List Action} {v w : PeersLookup} {a : Action} (ht : Tended infoHash isV4 v)
    (h : Rooted infoHash isV4 js v) (hrounds : RoundsOf isV4 (js ++ [a])) (hstep : Step v a w) :
    Rooted infoHash isV4 (js ++ [a]) w := by
  have hlast : a ∈ js ++ [a] := List.mem_append_right _ (List.mem_singleton_self a)
  obtain ⟨table, now, asleep, roots, rfl, _, hroots, rfl⟩ | ⟨visit, queue, rfl, _, rfl⟩ | ⟨f, hf, reply, now, rfl, _, rfl⟩ |
    ⟨f, hf, reply, now, rfl, _, rfl⟩ | ⟨rfl, _, rfl⟩ | ⟨rfl, _, _, rfl⟩ := step_cases hstep
  · obtain ⟨hinv, hfamily⟩ := hrounds table now asleep hlast
    obtain ⟨best, hbest, hleast⟩ := v.loop.req.getPeersRoot_spec hinv now
    cases Except.ok.inj (hroots.symm.trans hbest)
    rw [ht.infoHash] at hleast
    constructor
    · intro visit hvisit
      rcases List.mem_append.1 hvisit with hvisit | hvisit
      · have hold := (h.origin visit hvisit).mono (.round table now asleep) []
        rwa [List.append_nil] at hold
      · obtain ⟨n, hn, rfl⟩ := List.mem_map.1 hvisit
        exact .root hlast hleast hn rfl
    · intro visit hvisit
      rcases List.mem_append.1 hvisit with hvisit | hvisit
      · exact h.family visit hvisit
      · obtain ⟨n, hn, rfl⟩ := List.mem_map.1 hvisit
        exact hfamily n (hleast.subset hn)
  · exact h.mono _ rfl rfl
  · exact h.mono _ (List.append_nil _).symm rfl
  · obtain ⟨_, _, hvisits⟩ := secondReply_visits v.loop.req v.receiver f.visit.addr f.visit.depth reply now
    constructor
    · intro visit hvisit
      rcases List.mem_append.1 hvisit with hvisit | hvisit
      · have hold := (h.origin visit hvisit).mono (.secondReply f.num reply now) []
        rwa [List.append_nil] at hold
      · obtain ⟨hlt, r, rfl, node, hnode, rfl⟩ := hvisits visit hvisit
        rw [ht.maxDepth] at hlt
        exact .child hlast (ht.counted.asked f hf) hlt hnode rfl
    · intro visit hvisit
      rcases List.mem_append.1 hvisit with hvisit | hvisit
      · exact h.family visit hvisit
      · obtain ⟨_, r, _, node, hnode, rfl⟩ := hvisits visit hvisit
        exact (nodeIt_family hnode).trans (h.family f.visit (ht.visit_sent hf))
  · exact h.mono _ (List.append_nil _).symm rfl
  · exact h.mono _ (List.append_nil _).symm rfl

theorem RoundsOf.of_snoc {js : List Action} {a : Action} (h : RoundsOf isV4 (js ++ [a])) : RoundsOf isV4 js :=
  fun table now asleep hround => h table now asleep (List.mem_append_left _ hround)

theorem rooted_run (run : Run Step (start infoHash isV4) actions s) (hrounds : RoundsOf isV4 actions) :
    Rooted infoHash isV4 actions s := by
  refine run.history (fun js v => RoundsOf isV4 js → Rooted infoHash isV4 js v) (fun _ => ⟨nofun, nofun⟩) ?_ hrounds
  intro js v w a before ih hstep hjs
  exact rooted_step (tended_run before) (ih hjs.of_snoc) hjs hstep

/-- However replies and rounds interleave, a get_peers lookup asks the nodes it was told of, each at most
twice, and passes on what they say about peers. -/
theorem peers_law (infoHash : Id20) (isV4 : Bool) (actions : List Action) (s : PeersLookup)
    (run : Run Step (start infoHash isV4) actions s) (hrounds : RoundsOf isV4 actions) :
    PeersLaw infoHash isV4 actions s := by
  have ht := tended_run run
  have hr := rooted_run run hrounds
  exact ⟨ht.fed, hr.origin, ht.depths, hr.family, ht.queries_le, (heard_run run).peers⟩

end Law

section Rest
variable {infoHash : Id20} {isV4 : Bool} {actions : List Action} {s s' : PeersLookup} {a : Action}

def Action.isRound : Action → Bool
  | .round _ _ _ => true
  | _ => false

/-- Two things that can happen once, the queue and the visits under way. -/
def remaining (s : PeersLookup) : Multiset ℕ :=
  (if s.receiver then {0} else 0) + (if s.aborted then 0 else {0}) + (s.loop.queue.map Visit.rank : Multiset ℕ) +
    (s.loop.futs.map Fut.rank : Multiset ℕ)

theorem remaining_step (h : Tended infoHash isV4 s) (hstep : Step s a s') (hround : a.isRound = false) :
    ∃ (rest new : Multiset ℕ) (x : ℕ), remaining s = rest + {x} ∧ remaining s' = rest + new ∧ ∀ y ∈ new, y < x := by
  have hdeep : ∀ f ∈ s.loop.futs, f.visit.depth ≤ 4 := fun f hf => h.depths f.visit (h.visit_sent hf)
  obtain ⟨table, now, asleep, roots, rfl, _, _, rfl⟩ | ⟨visit, queue, _, hqueue, rfl⟩ |
    ⟨f, hf, reply, now, _, hreplied, rfl⟩ | ⟨f, hf, reply, now, _, hreplied, rfl⟩ | ⟨_, hopen, rfl⟩ |
    ⟨_, hclosed, hrunning, rfl⟩ := step_cases hstep
  · cases hround
  · have hsent : visit ∈ s.sent := by
      rw [← h.fed, hqueue]
      exact List.mem_append_right _ List.mem_cons_self
    refine ⟨(if s.receiver then {0} else 0) + (if s.aborted then 0 else {0}) + (queue.map Visit.rank : Multiset ℕ) +
      (s.loop.futs.map Fut.rank : Multiset ℕ), {Fut.rank ⟨s.loop.visited.length, visit, false⟩}, visit.rank, ?_, ?_, ?_⟩
    · rw [remaining, hqueue, List.map_cons, ← Multiset.cons_coe, ← Multiset.singleton_add]
      abel
    · simp only [remaining, Lookup.push, List.map_append, List.map_cons, List.map_nil, ← Multiset.coe_add,
        Multiset.coe_singleton]
      abel
    · intro y hy
      rw [Multiset.mem_singleton.1 hy]
      exact Lookup.rank_lt (h.depths visit hsent) _
  · obtain ⟨pre, post, hsplit, _, hfuts⟩ := h.counted.onFirstReply_futs hf reply now
    refine ⟨(if s.receiver then {0} else 0) + (if s.aborted then 0 else {0}) +
      (s.loop.queue.map Visit.rank : Multiset ℕ) + ((pre ++ post).map Fut.rank : Multiset ℕ),
      {Fut.rank { f with replied := true }}, f.rank, ?_, ?_, ?_⟩
    · rw [remaining, hsplit, Lookup.coe_map_middle, ← add_assoc]
    · rw [remaining, onFirstReply, hfuts, Lookup.coe_map_middle, ← add_assoc]
      rfl
    · intro y hy
      rw [Multiset.mem_singleton.1 hy]
      exact Lookup.rank_replied (hdeep f hf) hreplied
  · obtain ⟨pre, post, hsplit, _, hfuts⟩ := h.counted.onSecondReply_futs hf reply now
    obtain ⟨_, _, hvisits⟩ := secondReply_visits s.loop.req s.receiver f.visit.addr f.visit.depth reply now
    refine ⟨(if s.receiver then {0} else 0) + (if s.aborted then 0 else {0}) +
      (s.loop.queue.map Visit.rank : Multiset ℕ) + ((pre ++ post).map Fut.rank : Multiset ℕ),
      ((s.loop.req.secondReply s.receiver f.visit.addr f.visit.depth reply now).2.1.map Visit.rank : Multiset ℕ),
      f.rank, ?_, ?_, ?_⟩
    · rw [remaining, hsplit, Lookup.coe_map_middle, ← add_assoc]
    · have hkept : (s.onSecondReply f reply now).loop.futs = pre ++ post := hfuts
      have hqueue : (s.onSecondReply f reply now).loop.queue = s.loop.queue ++
          (s.loop.req.secondReply s.receiver f.visit.addr f.visit.depth reply now).2.1 := rfl
      rw [remaining, hkept, hqueue, List.map_append, ← Multiset.coe_add]
      change (if s.receiver then {0} else 0) + (if s.aborted then 0 else {0}) + _ + _ = _
      abel
    · intro y hy
      obtain ⟨visit, hvisit, rfl⟩ := List.mem_map.1 (Multiset.mem_coe.1 hy)
      obtain ⟨hlt, _, _, node, _, rfl⟩ := hvisits visit hvisit
      rw [h.maxDepth] at hlt
      exact Lookup.rank_sent hreplied rfl hlt
  · refine ⟨(if s.aborted then 0 else {0}) + (s.loop.queue.map Visit.rank : Multiset ℕ) +
      (s.loop.futs.map Fut.rank : Multiset ℕ), 0, 0, ?_, ?_, by simp⟩
    · rw [remaining, if_pos hopen]
      abel
    · simp [remaining]
  · refine ⟨(s.loop.queue.map Visit.rank : Multiset ℕ) + (s.loop.futs.map Fut.rank : Multiset ℕ), 0, 0, ?_, ?_, by simp⟩
    · rw [remaining, hclosed, hrunning]
      simp only [Bool.false_eq_true, if_false]
      abel
    · simp [remaining, hclosed]

/-- From whatever state, the lookup comes to rest unless the looper wakes up. -/
theorem ends_between_rounds (infoHash : Id20) (isV4 : Bool) (actions : List Action) (s : PeersLookup)
    (run : Run Step (start infoHash isV4) actions s) :
    Ends (fun v a w => Step v a w ∧ a.isRound = false) s :=
  ends_of_replacement _ remaining (Tended infoHash isV4) (tended_run run)
    (fun _ _ _ h hstep => ⟨tended_step h hstep.1, remaining_step h hstep.1 hstep.2⟩)

end Rest

section Pace
variable {infoHash : Id20} {isV4 : Bool} {actions : List Action} {s : PeersLookup}

def Action.times : Action → Option (Instant × Instant)
  | .round _ now asleep => some (now, asleep)
  | _ => none

def roots (s : PeersLookup) : ℕ := s.sent.countP (fun visit => visit.depth = 0)

theorem looperSleep_bounds {n : ℕ} (h : n ≤ 8) :
    requeryInterval / 8 * n ≤ looperSleep n ∧ looperSleep n ≤ requeryInterval := by
  interval_cases n <;> decide

/-- The looper has paid for each root with its share of the interval. -/
structure Paced (actions : List Action) (s : PeersLookup) : Prop where
  asleep : ∀ due ∈ s.wakesAt, ∃ first last, (actions.filterMap Action.times).head? = some first ∧
    latest Action.times actions = some last ∧ due ≤ last.2 + requeryInterval ∧
    requeryInterval / 8 * s.roots + first.1 ≤ due
  new : s.wakesAt = none → actions.filterMap Action.times = [] ∧ s.roots = 0

theorem Paced.quiet {js : List Action} {v w : PeersLookup} {a : Action} (h : Paced js v) (htimes : a.times = none)
    (hwakes : w.wakesAt = v.wakesAt) (hroots : w.roots = v.roots) : Paced (js ++ [a]) w := by
  have hsame : (js ++ [a]).filterMap Action.times = js.filterMap Action.times := by
    rw [filterMap_snoc, htimes]
    simp
  have hlatest : latest Action.times (js ++ [a]) = latest Action.times js := by
    rw [latest, hsame, latest]
  constructor
  · rw [hwakes, hsame, hlatest, hroots]
    exact h.asleep
  · rw [hwakes, hsame, hroots]
    exact h.new

theorem Paced.round {js : List Action} {v : PeersLookup} {table : RoutingTable} {now asleep : Instant}
    {new : List Visit} (h : Paced js v) (hawake : v.Awake now asleep) (hroots : new.length ≤ 8)
    (hdepth : ∀ visit ∈ new, visit.depth = 0) : Paced (js ++ [.round table now asleep]) (v.onRound new asleep) := by
  have hcount : (v.onRound new asleep).roots = v.roots + new.length := by
    have hall : new.countP (fun visit => visit.depth = 0) = new.length := by
      rw [List.countP_eq_length]
      intro visit hvisit
      exact decide_eq_true (hdepth visit hvisit)
    change (v.sent ++ new).countP _ = _
    rw [List.countP_append, hall]
    rfl
  have hsleep := looperSleep_bounds hroots
  have hlatest : latest Action.times (js ++ [.round table now asleep]) = some (now, asleep) := by
    rw [latest_snoc]
    rfl
  obtain ⟨hdue, hclock⟩ := hawake
  refine ⟨?_, nofun⟩
  rintro due hnext
  obtain rfl : asleep + looperSleep new.length = due := Option.some.inj hnext
  rw [hcount, hlatest, filterMap_snoc, Nat.mul_add]
  cases hwakes : v.wakesAt with
  | none =>
    obtain ⟨hnone, hzero⟩ := h.new hwakes
    rw [hnone, hzero]
    refine ⟨(now, asleep), (now, asleep), rfl, rfl, Nat.add_le_add_left hsleep.2 _, ?_⟩
    rw [Nat.mul_zero, Nat.zero_add, Nat.add_comm]
    exact Nat.add_le_add hclock hsleep.1
  | some old =>
    obtain ⟨first, last, hfirst, _, _, hpaid⟩ := h.asleep old hwakes
    have hold := hdue old hwakes
    refine ⟨first, (now, asleep), ?_, rfl, Nat.add_le_add_left hsleep.2 _, ?_⟩
    · rw [List.head?_append, hfirst]
      rfl
    · rw [Nat.add_right_comm]
      exact Nat.add_le_add (hpaid.trans (hold.trans hclock)) hsleep.1

theorem paced_step {js : List Action} {v w : PeersLookup} {a : Action} (h : Paced js v) (hstep : Step v a w) :
    Paced (js ++ [a]) w := by
  obtain ⟨table, now, asleep, new, rfl, hawake, hnew, rfl⟩ | ⟨visit, queue, rfl, _, rfl⟩ | ⟨f, _, reply, now, rfl, _, rfl⟩ |
    ⟨f, _, reply, now, rfl, _, rfl⟩ | ⟨rfl, _, rfl⟩ | ⟨rfl, _, _, rfl⟩ := step_cases hstep
  · obtain ⟨hlength, hdepth⟩ := getPeersRoot_depth _ hnew
    exact h.round hawake hlength hdepth
  · exact h.quiet rfl rfl rfl
  · exact h.quiet rfl rfl rfl
  · obtain ⟨_, _, hvisits⟩ := secondReply_visits v.loop.req v.receiver f.visit.addr f.visit.depth reply now
    refine h.quiet rfl rfl ?_
    have hnone : (v.loop.req.secondReply v.receiver f.visit.addr f.visit.depth reply now).2.1.countP
        (fun visit => visit.depth = 0) = 0 := by
      rw [List.countP_eq_zero]
      intro visit hvisit
      obtain ⟨_, _, _, node, _, rfl⟩ := hvisits visit hvisit
      simp
    change (v.sent ++ (v.loop.req.secondReply v.receiver f.visit.addr f.visit.depth reply now).2.1).countP
      (fun visit => visit.depth = 0) = v.roots
    rw [List.countP_append, hnone, Nat.add_zero]
    rfl
  · exact h.quiet rfl rfl rfl
  · exact h.quiet rfl rfl rfl

/-- Over any stretch of time the rounds queue at most eight nodes a minute, and eight more. -/
theorem pace (infoHash : Id20) (isV4 : Bool) (actions : List Action) (s : PeersLookup)
    (run : Run Step (start infoHash isV4) actions s) (first last : Instant × Instant)
    (hfirst : (actions.filterMap Action.times).head? = some first) (hlast : latest Action.times actions = some last) :
    requeryInterval / 8 * s.roots + first.1 ≤ last.2 + requeryInterval := by
  have hpaced : Paced actions s :=
    run.history Paced ⟨nofun, fun _ => ⟨rfl, rfl⟩⟩ (fun _ _ _ _ _ h hstep => paced_step h hstep)
  cases hwakes : s.wakesAt with
  | none =>
    rw [(hpaced.new hwakes).1] at hfirst
    cases hfirst
  | some due =>
    obtain ⟨first', last', hfirst', hlast', hdue, hpaid⟩ := hpaced.asleep due hwakes
    cases Option.some.inj (hfirst.symm.trans hfirst')
    cases Option.some.inj (hlast.symm.trans hlast')
    exact hpaid.trans hdue

end Pace

section Sample

def sampleContact : SocketAddr := .v4 ⟨2, 6881⟩

def sampleTable : RoutingTable :=
  ⟨0, 1, ⟨[⟨160, 0, BitVec.allOnes 160, .leaf ⟨[.fresh 1 sampleContact], 0⟩⟩], 1, RoutingTable.defaultMaxSize⟩⟩

theorem sampleTable_reached :
    (RoutingTable.new 0 none 0).Reaches [.addNode 1 sampleContact (fun _ => 0)] sampleTable :=
  Run.single (show (RoutingTable.new 0 none 0).step (.addNode 1 sampleContact (fun _ => 0)) = .ok sampleTable by rfl)

def sampleReply : RequestResult :=
  .ok (.response ⟨some [.v4 ⟨7, 80⟩], 1, some [⟨2, ⟨3, 6881⟩⟩], none, none, none, none, none, none⟩)

def sampleActions : List Action :=
  [.round sampleTable 5 5, .recv, .firstReply 0 sampleReply 6, .secondReply 0 sampleReply 7, .recv,
    .round sampleTable (seconds 60) (seconds 60)]

theorem sample_run : ∃ s, Run Step (start 3 true) sampleActions s ∧ s.peers = [.v4 ⟨7, 80⟩] ∧ s.sent.length = 3 ∧
    s.roots = 2 := by
  have heval : (evalGuarded step (fun _ _ => True) (start 3 true) sampleActions).any (fun s =>
      decide (s.peers = [.v4 ⟨7, 80⟩] ∧ s.sent.length = 3 ∧ s.roots = 2)) = true := by
    decide
  obtain ⟨s, guarded, hs⟩ := exists_guarded_of_eval step _ heval
  exact ⟨s, guarded.run, of_decide_eq_true hs⟩

theorem sample_rounds : RoundsOf true sampleActions := by
  have hinv : sampleTable.Inv := (RoutingTable.inv_of_reaches 0 none 0 sampleTable_reached).1
  intro table now asleep hround
  obtain rfl : table = sampleTable := by
    simp [sampleActions] at hround
    rcases hround with h | h
    · exact h.1
    · exact h.1
  refine ⟨hinv, ?_⟩
  intro n hn
  obtain rfl : n = .fresh 1 sampleContact := List.mem_singleton.1 hn
  rfl

/-- The contact and the node that it named were queued by the two rounds and by its reply. -/
theorem sample_law : ∃ s, s.peers = [.v4 ⟨7, 80⟩] ∧ PeersLaw 3 true sampleActions s := by
  obtain ⟨s, run, hpeers, _⟩ := sample_run
  exact ⟨s, hpeers, peers_law 3 true sampleActions s run sample_rounds⟩

theorem sample_ends : ∃ s, Run Step (start 3 true) sampleActions s ∧
    Ends (fun v a w => Step v a w ∧ a.isRound = false) s := by
  obtain ⟨s, run, _⟩ := sample_run
  exact ⟨s, run, ends_between_rounds 3 true sampleActions s run⟩

theorem sample_pace : requeryInterval / 8 * 2 + 5 ≤ seconds 60 + requeryInterval := by
  obtain ⟨s, run, _, _, hroots⟩ := sample_run
  have hpace := pace 3 true sampleActions s run (5, 5) (seconds 60, seconds 60) rfl rfl
  rwa [hroots] at hpace

end Sample
end PeersLookup
end LibrtbitDht
