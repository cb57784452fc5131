import LibrtbitDht.LeastElements
import LibrtbitDht.QueryRuns

set_option autoImplicit false

namespace LibrtbitDht
open TransitionRuns LeastElements

section Distances

theorem distance_injective (id : Id20) {x y : Id20} (h : (id.distance x).toNat = (id.distance y).toNat) : x = y := by
  have hxor : id ^^^ x = id ^^^ y := BitVec.eq_of_toNat_eq h
  exact (BitVec.xor_right_inj id).1 hxor

theorem id_eq_of_distanceKey {id : Id20} {now : Instant} {x y : RoutingTableNode}
    (h : distanceKey id now x = distanceKey id now y) : x.id = y.id :=
  distance_injective id (congrArg (fun k => (ofLex k).2) h)

theorem distanceKey_le {id : Id20} {now : Instant} {x y : RoutingTableNode}
    (h : distanceKey id now x ≤ distanceKey id now y) :
    statusRank (x.status now) < statusRank (y.status now) ∨
      (statusRank (x.status now) = statusRank (y.status now) ∧ id.distance x.id ≤ id.distance y.id) := by
  rcases Prod.Lex.toLex_le_toLex.1 h with hlt | ⟨heq, hle⟩
  · exact .inl hlt
  · exact .inr ⟨heq, BitVec.le_def.2 hle⟩

end Distances

section Tables
variable {rt : RoutingTable} {A : Type}

theorem RoutingTable.Inv.sortedByDistanceFrom_sorted (h : rt.Inv) (id : Id20) (now : Instant) :
    ∃ nodes, rt.sortedByDistanceFrom id now = .ok nodes ∧ nodes.Perm rt.stored ∧
      nodes.Pairwise (fun a b => distanceKey id now a ≤ distanceKey id now b) := by
  obtain ⟨nodes, hrun, hperm, _⟩ := BucketTree.Inv.iter_spec h
  have hiter : rt.iter = .ok nodes := hrun
  refine ⟨nodes.insertionSort (fun a b => distanceKey id now a ≤ distanceKey id now b), ?_, ?_, ?_⟩
  · rw [RoutingTable.sortedByDistanceFrom, hiter]
    rfl
  · exact (List.perm_insertionSort _ nodes).trans hperm
  · exact List.pairwise_insertionSort (fun a b => distanceKey id now a ≤ distanceKey id now b) nodes

def RoutingTable.familyContacts (rt : RoutingTable) (fromSocketAddr : SocketAddr → Option A) : List RoutingTableNode :=
  rt.stored.filter (fun n => (fromSocketAddr n.addr).isSome)

/-- The list holds the best eight contacts of the family, the best one first. -/
structure RoutingTable.ListsBest (rt : RoutingTable) (fromSocketAddr : SocketAddr → Option A) (target : Id20)
    (now : Instant) (l : List (Node A)) : Prop where
  chosen : ∃ best, Least (distanceKey target now) 8 (rt.familyContacts fromSocketAddr) best ∧
    List.Forall₂ (fun n node => node.id = n.id ∧ fromSocketAddr n.addr = some node.addr) best l
  /-- A contact is listed exactly if fewer than eight are better. -/
  listed_iff : ∀ n ∈ rt.familyContacts fromSocketAddr, n.id ∈ l.map Node.id ↔
    (rt.familyContacts fromSocketAddr).countP (fun m => distanceKey target now m < distanceKey target now n) < 8
  nodup : (l.map Node.id).Nodup
  /-- No contact that is left out is closer than a listed one of the same status. -/
  closest : ∀ n ∈ rt.familyContacts fromSocketAddr, ∀ m ∈ rt.familyContacts fromSocketAddr, n.id ∈ l.map Node.id →
    m.id ∉ l.map Node.id → n.status now = m.status now → target.distance n.id ≤ target.distance m.id

theorem RoutingTable.Inv.familyContacts_unique (h : rt.Inv) (fromSocketAddr : SocketAddr → Option A) {x y : RoutingTableNode}
    (hx : x ∈ rt.familyContacts fromSocketAddr) (hy : y ∈ rt.familyContacts fromSocketAddr) (hid : x.id = y.id) : x = y :=
  BucketTree.Inv.stored_unique h (List.mem_of_mem_filter hx) (List.mem_of_mem_filter hy) hid

theorem forall₂_filterMap (fromSocketAddr : SocketAddr → Option A) (best : List RoutingTableNode)
    (hbest : ∀ n ∈ best, (fromSocketAddr n.addr).isSome) :
    List.Forall₂ (fun (n : RoutingTableNode) (node : Node A) => node.id = n.id ∧ fromSocketAddr n.addr = some node.addr)
      best (best.filterMap (fun r => (fromSocketAddr r.addr).map (fun addr => ⟨r.id, addr⟩))) := by
  induction best with
  | nil => exact .nil
  | cons n best ih =>
    obtain ⟨addr, haddr⟩ := Option.isSome_iff_exists.1 (hbest n List.mem_cons_self)
    simp only [List.filterMap_cons, haddr, Option.map_some]
    exact .cons ⟨rfl, haddr⟩ (ih fun m hm => hbest m (List.mem_cons_of_mem n hm))

theorem map_id_of_forall₂ {fromSocketAddr : SocketAddr → Option A} {best : List RoutingTableNode} {l : List (Node A)}
    (h : List.Forall₂ (fun (n : RoutingTableNode) (node : Node A) =>
      node.id = n.id ∧ fromSocketAddr n.addr = some node.addr) best l) :
    l.map Node.id = best.map RoutingTableNode.id := by
  induction h with
  | nil => rfl
  | cons hnode _ ih => rw [List.map_cons, List.map_cons, ih, hnode.1]

theorem RoutingTable.Inv.listsBest_of_least (h : rt.Inv) {fromSocketAddr : SocketAddr → Option A} {target : Id20}
    {now : Instant} {best : List RoutingTableNode} {l : List (Node A)}
    (hleast : Least (distanceKey target now) 8 (rt.familyContacts fromSocketAddr) best)
    (hnodes : List.Forall₂ (fun n node => node.id = n.id ∧ fromSocketAddr n.addr = some node.addr) best l) :
    rt.ListsBest fromSocketAddr target now l := by
  have hids := map_id_of_forall₂ hnodes
  have hlisted : ∀ n ∈ rt.familyContacts fromSocketAddr, n.id ∈ l.map Node.id ↔ n ∈ best := by
    intro n hn
    rw [hids, List.mem_map]
    constructor
    · rintro ⟨m, hm, hid⟩
      exact h.familyContacts_unique fromSocketAddr (hleast.subset hm) hn hid ▸ hm
    · exact fun hmem => ⟨n, hmem, rfl⟩
  refine ⟨⟨best, hleast, hnodes⟩, ?_, ?_, ?_⟩
  · intro n hn
    have hinj : ∀ a ∈ rt.familyContacts fromSocketAddr, ∀ b ∈ rt.familyContacts fromSocketAddr,
        distanceKey target now a = distanceKey target now b → a = b :=
      fun a ha b hb heq => h.familyContacts_unique fromSocketAddr ha hb (id_eq_of_distanceKey heq)
    rw [hlisted n hn, hleast.mem_iff hinj]
    exact and_iff_right hn
  · have hstored : ((rt.familyContacts fromSocketAddr).map RoutingTableNode.id).Nodup :=
      (BucketTree.Inv.stored_ids_nodup h).sublist (List.filter_sublist.map RoutingTableNode.id)
    obtain ⟨rest, hperm, _⟩ := hleast.before
    rw [hids]
    have hall := (hperm.map RoutingTableNode.id).nodup_iff.2 hstored
    rw [List.map_append] at hall
    exact (List.nodup_append.1 hall).1
  · intro n hn m hm hin hout hstatus
    rw [hlisted n hn] at hin
    rw [hlisted m hm] at hout
    rcases distanceKey_le (hleast.le_of_not_mem hin hm hout) with hlt | ⟨_, hle⟩
    · rw [hstatus] at hlt
      exact absurd hlt (lt_irrefl _)
    · exact hle

theorem RoutingTable.Inv.generateCompactNodes_best (h : rt.Inv) (fromSocketAddr : SocketAddr → Option A)
    (target : Id20) (now : Instant) :
    ∃ nodes, generateCompactNodes fromSocketAddr target rt now = .ok nodes ∧
      rt.ListsBest fromSocketAddr target now nodes := by
  obtain ⟨nodes, hrun, hperm, hsorted⟩ := h.sortedByDistanceFrom_sorted target now
  have hfamily : (nodes.filter (fun n => (fromSocketAddr n.addr).isSome)).Perm (rt.familyContacts fromSocketAddr) :=
    hperm.filter _
  have hleast := least_take hfamily (hsorted.sublist List.filter_sublist) 8
  refine ⟨((nodes.filter (fun n => (fromSocketAddr n.addr).isSome)).take 8).filterMap
    (fun r => (fromSocketAddr r.addr).map (fun addr => ⟨r.id, addr⟩)), ?_, h.listsBest_of_least hleast ?_⟩
  · rw [generateCompactNodes, hrun, ok_bind, pure_eq_ok, take_filterMap]
    simp only [Option.isSome_map]
  · apply forall₂_filterMap
    intro n hn
    exact (List.mem_filter.1 (hleast.subset hn)).2

end Tables

namespace DhtState
variable {s s' : DhtState}

def sought : MessageKind → Option Id20
  | .getPeersRequest req => some req.infoHash
  | .findNodeRequest req => some req.target
  | .bep44GetRequest req => some req.target
  | _ => none

structure Nearest (s : DhtState) (r : Readings) (kind : MessageKind) (resp : Response) : Prop where
  nodes : ∀ l ∈ resp.nodes, ∃ target ∈ sought kind, s.routingTableV4.ListsBest SocketAddr.toV4 target r.nodesNow l
  nodes6 : ∀ l ∈ resp.nodes6, ∃ target ∈ sought kind, s.routingTableV6.ListsBest SocketAddr.toV6 target r.nodesNow l

theorem Sound.generateCompactNodesBoth_best (h : s.Sound) (target : Id20) (want : Want) (now : Instant) :
    ∃ nodes nodes6, s.generateCompactNodesBoth target want now = .ok (nodes, nodes6) ∧
      (∀ l ∈ nodes, s.routingTableV4.ListsBest SocketAddr.toV4 target now l) ∧
      (∀ l ∈ nodes6, s.routingTableV6.ListsBest SocketAddr.toV6 target now l) := by
  obtain ⟨l, hl, hbest⟩ := h.tableV4.generateCompactNodes_best SocketAddr.toV4 target now
  obtain ⟨l6, hl6, hbest6⟩ := h.tableV6.generateCompactNodes_best SocketAddr.toV6 target now
  cases want with
  | v4 => exact ⟨some l, none, by rw [generateCompactNodesBoth, hl]; rfl, by simpa using hbest, by simp⟩
  | v6 => exact ⟨none, some l6, by rw [generateCompactNodesBoth, hl6]; rfl, by simp, by simpa using hbest6⟩
  | both => exact ⟨some l, some l6, by rw [generateCompactNodesBoth, hl, hl6]; rfl, by simpa using hbest, by simpa using hbest6⟩
  | none => exact ⟨none, none, rfl, by simp, by simp⟩

theorem nearest_default (s : DhtState) (r : Readings) (kind : MessageKind) : Nearest s r kind (defaultResponse s.id) :=
  ⟨nofun, nofun⟩

theorem Sound.onReceivedMessage_nearest (h : s.Sound) (r : Readings) (msg : Message) (addr : SocketAddr)
    (hquery : isQuery msg.kind = true) :
    ∃ resp s', s.onReceivedMessage r msg addr = .ok (some (reply msg addr resp), s') ∧
      Nearest s r msg.kind resp := by
  unfold onReceivedMessage
  cases hkind : msg.kind with
  | error e => simp [hkind, isQuery] at hquery
  | response resp => simp [hkind, isQuery] at hquery
  | pingRequest req =>
    obtain ⟨v, hrun, _⟩ := h.markLastQuery_spec addr req.id r.queryNow
    exact ⟨_, v, by simp only [hrun]; rfl, nearest_default s r _⟩
  | bep44PutRequest req =>
    obtain ⟨v, hrun, _⟩ := h.markLastQuery_spec addr req.id r.queryNow
    exact ⟨_, v, by simp only [hrun]; rfl, nearest_default s r _⟩
  | announcePeer ann =>
    obtain ⟨v, hrun, _⟩ := h.markLastQuery_spec addr ann.id r.queryNow
    exact ⟨_, _, by simp only [hrun]; rfl, nearest_default s r _⟩
  | getPeersRequest req =>
    obtain ⟨nodes, nodes6, hnodes, hbest, hbest6⟩ :=
      h.generateCompactNodesBoth_best req.infoHash (req.want.getD (wantFor addr)) r.nodesNow
    obtain ⟨v, hrun, _⟩ := h.markLastQuery_spec addr req.id r.queryNow
    exact ⟨_, _, by simp only [hnodes, hrun]; rfl, fun l hl => ⟨_, rfl, hbest l hl⟩, fun l hl => ⟨_, rfl, hbest6 l hl⟩⟩
  | findNodeRequest req =>
    obtain ⟨nodes, nodes6, hnodes, hbest, hbest6⟩ :=
      h.generateCompactNodesBoth_best req.target (req.want.getD (wantFor addr)) r.nodesNow
    obtain ⟨v, hrun, _⟩ := h.markLastQuery_spec addr req.id r.queryNow
    exact ⟨_, v, by simp only [hnodes, hrun]; rfl, fun l hl => ⟨_, rfl, hbest l hl⟩, fun l hl => ⟨_, rfl, hbest6 l hl⟩⟩
  | bep44GetRequest req =>
    obtain ⟨nodes, nodes6, hnodes, hbest, hbest6⟩ := h.generateCompactNodesBoth_best req.target .both r.nodesNow
    obtain ⟨v, hrun, _⟩ := h.markLastQuery_spec addr req.id r.queryNow
    exact ⟨_, _, by simp only [hnodes, hrun]; rfl, fun l hl => ⟨_, rfl, hbest l hl⟩, fun l hl => ⟨_, rfl, hbest6 l hl⟩⟩

/-- In every state of a node, a query for nodes is answered with the best eight contacts of each
family that it asks for, and with nothing else. -/
theorem reply_lists_best (env : Persistence.Environment) (id : Id20) (listenAddr : SocketAddr) (events : List Event)
    (run : Run Step (start env id listenAddr) events s) (r : Readings) (msg : Message) (addr : SocketAddr)
    (hquery : isQuery msg.kind = true) :
    ∃ resp s', s.onReceivedMessage r msg addr = .ok (some (reply msg addr resp), s') ∧ Nearest s r msg.kind resp ∧
      (resp.nodes.isSome ↔ asked msg.kind addr = .v4 ∨ asked msg.kind addr = .both) ∧
      (resp.nodes6.isSome ↔ asked msg.kind addr = .v6 ∨ asked msg.kind addr = .both) := by
  have hsound := ((sound_start env id listenAddr).run run).1
  obtain ⟨resp, s', hrun, hnearest⟩ := hsound.onReceivedMessage_nearest r msg addr hquery
  obtain ⟨resp', v, hrun', hanswer, _⟩ := hsound.onReceivedMessage_spec r msg addr hquery
  cases Except.ok.inj (hrun.symm.trans hrun')
  exact ⟨resp, s', hrun, hnearest, hanswer.askedV4, hanswer.askedV6⟩

/-- A node that knows of one contact is asked for nodes. -/
theorem known_contact_listed :
    ∃ s resp s', Run Step (start ⟨true, some, 0, fun _ => 0, fun _ => 0, fun _ => 0, 0, 0⟩ 0 (.v4 ⟨1, 6881⟩))
        [.tableV4 (.addNode 1 (.v4 ⟨2, 6881⟩) (fun _ => 0))] s ∧
      s.onReceivedMessage ⟨0, 0, 0, #v[4, 5, 6, 7]⟩ (createRequest 2 0 (.findNode 3) (.v4 ⟨1, 6881⟩)) (.v4 ⟨3, 6881⟩) =
        .ok (some (reply (createRequest 2 0 (.findNode 3) (.v4 ⟨1, 6881⟩)) (.v4 ⟨3, 6881⟩) resp), s') ∧
      Nearest s ⟨0, 0, 0, #v[4, 5, 6, 7]⟩ (createRequest 2 0 (.findNode 3) (.v4 ⟨1, 6881⟩)).kind resp := by
  have hsound := sound_start ⟨true, some, 0, fun _ => 0, fun _ => 0, fun _ => 0, 0, 0⟩ 0 (.v4 ⟨1, 6881⟩)
  obtain ⟨s, hstep, _⟩ := hsound.step_spec (.tableV4 (.addNode 1 (.v4 ⟨2, 6881⟩) (fun _ => 0)))
  obtain ⟨resp, s', hrun, hnearest, _⟩ := reply_lists_best _ _ _ _ (Run.single hstep) ⟨0, 0, 0, #v[4, 5, 6, 7]⟩
    (createRequest 2 0 (.findNode 3) (.v4 ⟨1, 6881⟩)) (.v4 ⟨3, 6881⟩) rfl
  exact ⟨s, resp, s', Run.single hstep, hrun, hnearest⟩

end DhtState
end LibrtbitDht
