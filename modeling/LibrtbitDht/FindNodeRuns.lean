import LibrtbitDht.FindNodeLookup

set_option autoImplicit false

namespace LibrtbitDht
open TransitionRuns

def Visit.rank (visit : Visit) : ℕ := 3 * (5 - visit.depth)

def Fut.rank (f : Fut) : ℕ := f.visit.rank - if f.replied then 2 else 1

namespace RecursiveRequest
variable (s : RecursiveRequest)

structure SameLimits (s s' : RecursiveRequest) : Prop where
  maxDepth : s'.maxDepth = s.maxDepth
  usefulNodesLimit : s'.usefulNodesLimit = s.usefulNodesLimit

theorem SameLimits.refl : SameLimits s s := ⟨rfl, rfl⟩

theorem SameLimits.trans {s s' s'' : RecursiveRequest} (h : SameLimits s s') (h' : SameLimits s' s'') :
    SameLimits s s'' :=
  ⟨h'.maxDepth.trans h.maxDepth, h'.usefulNodesLimit.trans h.usefulNodesLimit⟩

theorem sameLimits_mark (p : MaybeUsefulNode → Bool) (f : MaybeUsefulNode → MaybeUsefulNode) :
    SameLimits s (s.mark p f).2 := by
  rcases s.mark_cases p f with ⟨_, heq⟩ | ⟨_, _, _, _, _, heq⟩
  · rw [heq]
    exact .refl s
  · rw [heq]
    exact ⟨rfl, rfl⟩

theorem mark_empty (hs : s.usefulNodes = []) (p : MaybeUsefulNode → Bool) (f : MaybeUsefulNode → MaybeUsefulNode) :
    (s.mark p f).2.usefulNodes = [] := by
  unfold mark
  rw [hs]
  exact hs

theorem sameLimits_shouldRequestNode (nodeId : Id20) (addr : SocketAddr) (depth : ℕ) (now : Instant) :
    SameLimits s (s.shouldRequestNode nodeId addr depth now).2 := by
  rcases s.shouldRequestNode_cases nodeId addr depth now with
    ⟨_, heq⟩ | ⟨_, _, _, _, heq⟩ | ⟨_, _, _, _, ⟨_, heq⟩ | ⟨_, _, heq⟩⟩
  · rw [heq]
    exact .refl s
  · rw [heq]
    exact sameLimits_mark _ _ _
  · rw [heq]
    exact ⟨rfl, rfl⟩
  · rw [heq]
    exact ⟨rfl, rfl⟩

theorem depth_lt_of_accepted {nodeId : Id20} {addr : SocketAddr} {depth : ℕ} {now : Instant}
    (h : (s.shouldRequestNode nodeId addr depth now).1 = true) : depth < s.maxDepth := by
  by_contra hdepth
  have hdeep : depth ≥ s.maxDepth := by omega
  rw [shouldRequestNode, if_pos hdeep] at h
  exact Bool.false_ne_true h

theorem accepted_of_empty (hs : s.usefulNodes = []) {depth : ℕ} (hdepth : depth < s.maxDepth)
    (hlimit : 0 < s.usefulNodesLimit) (nodeId : Id20) (addr : SocketAddr) (now : Instant) :
    (s.shouldRequestNode nodeId addr depth now).1 = true := by
  rcases s.shouldRequestNode_cases nodeId addr depth now with
    ⟨hdeep | ⟨n, hn, _⟩, _⟩ | ⟨_, _, _, _, heq⟩ | ⟨_, _, _, _, ⟨_, heq⟩ | ⟨hfull, _, _⟩⟩
  · omega
  · rw [hs] at hn
    exact absurd hn List.not_mem_nil
  · rw [heq]
  · rw [heq]
  · rw [hs, List.length_nil] at hfull
    omega

theorem sameLimits_sendNodes (depth : ℕ) (now : Instant) (nodes : List (Node SocketAddr)) :
    SameLimits s (s.sendNodes depth now nodes).2 := by
  induction nodes generalizing s with
  | nil => exact .refl s
  | cons node nodes ih => exact (sameLimits_shouldRequestNode s _ _ _ _).trans (ih _)

theorem sendNodes_depth (depth : ℕ) (now : Instant) (nodes : List (Node SocketAddr)) :
    ∀ visit ∈ (s.sendNodes depth now nodes).1, visit.depth = depth + 1 ∧ depth < s.maxDepth := by
  induction nodes generalizing s with
  | nil => simp [sendNodes]
  | cons node nodes ih =>
    have hrest := ih (s.shouldRequestNode node.id node.addr depth now).2
    rw [(sameLimits_shouldRequestNode s _ _ _ _).maxDepth] at hrest
    intro visit hvisit
    simp only [sendNodes] at hvisit
    split_ifs at hvisit with haccepted
    · rcases List.mem_cons.1 hvisit with rfl | hvisit
      · exact ⟨rfl, s.depth_lt_of_accepted haccepted⟩
      · exact hrest visit hvisit
    · exact hrest visit hvisit

theorem sendNodes_of_empty (hs : s.usefulNodes = []) {depth : ℕ} (hdepth : depth < s.maxDepth)
    (hlimit : 0 < s.usefulNodesLimit) (now : Instant) {nodes : List (Node SocketAddr)} (hnodes : nodes ≠ []) :
    (s.sendNodes depth now nodes).1 ≠ [] := by
  cases nodes with
  | nil => exact absurd rfl hnodes
  | cons node nodes =>
    simp only [sendNodes]
    rw [if_pos (s.accepted_of_empty hs hdepth hlimit node.id node.addr now)]
    exact List.cons_ne_nil _ _

theorem sameLimits_firstReply (addr : SocketAddr) (reply : RequestResult) (now : Instant) :
    SameLimits s (s.firstReply addr reply now) := by
  cases reply with
  | ok r => exact sameLimits_mark s _ _
  | error e => exact .refl s

theorem firstReply_empty (hs : s.usefulNodes = []) (addr : SocketAddr) (reply : RequestResult) (now : Instant) :
    (s.firstReply addr reply now).usefulNodes = [] := by
  cases reply with
  | ok r => exact mark_empty s hs _ _
  | error e => exact hs

end RecursiveRequest

namespace Lookup
open RecursiveRequest

theorem secondReply_cases (s : RecursiveRequest) (addr : SocketAddr) (depth : ℕ) (reply : RequestResult) (now : Instant) :
    (offers reply addr = [] ∧ (s.secondReply false addr depth reply now).2.1 = [] ∧
      ((s.secondReply false addr depth reply now).2.2 = s ∨
        (s.secondReply false addr depth reply now).2.2 = (s.markNodeError addr).2)) ∨
    ((s.secondReply false addr depth reply now).2 = s.sendNodes depth now (offers reply addr)) := by
  cases reply with
  | error e => exact .inl ⟨rfl, rfl, .inr rfl⟩
  | ok r =>
    cases r with
    | error e => exact .inl ⟨rfl, rfl, .inl rfl⟩
    | response r =>
      by_cases hvalues : r.values.getD [] = []
      · right
        simp [offers, secondReply, hvalues]
      · left
        simp [offers, secondReply, hvalues]

theorem step_cases {s s' : Lookup} {a : Action} (h : Step s a s') : s.result = none ∧
    ((∃ visit queue, a = .recv ∧ s.queue = visit :: queue ∧ s' = { s with queue }.push visit) ∨
    (∃ f ∈ s.futs, ∃ reply now, a = .firstReply f.num reply now ∧ f.replied = false ∧ s.queue = [] ∧
      s' = s.onFirstReply f reply now) ∨
    (∃ f ∈ s.futs, ∃ reply now, a = .secondReply f.num reply now ∧ s.waiting f.num true = some f ∧
      f.replied = true ∧ s.queue = [] ∧ s' = s.onSecondReply f reply now) ∨
    (a = .finished ∧ s.queue = [] ∧ s.futs = [] ∧ s' = s.onFinished)) := by
  have hfound : ∀ {num : ℕ} {replied : Bool} {f : Fut}, s.waiting num replied = some f →
      f ∈ s.futs ∧ f.num = num ∧ f.replied = replied := by
    intro num replied f hf
    have hp := List.find?_some hf
    exact ⟨List.mem_of_find?_eq_some hf, by simpa using hp⟩
  unfold Step TransitionRuns.Graph step at h
  by_cases hresult : s.result.isSome = true
  · rw [if_pos hresult] at h
    cases h
  rw [if_neg hresult] at h
  refine ⟨by simpa using hresult, ?_⟩
  split at h
  next visit queue hqueue =>
    cases h
    exact .inl ⟨visit, queue, rfl, hqueue, rfl⟩
  next num reply now hqueue =>
    split at h
    next f hf =>
      cases h
      obtain ⟨hmem, rfl, hreplied⟩ := hfound hf
      exact .inr (.inl ⟨f, hmem, reply, now, rfl, hreplied, hqueue, rfl⟩)
    next => cases h
  next num reply now hqueue =>
    split at h
    next f hf =>
      cases h
      obtain ⟨hmem, rfl, hreplied⟩ := hfound hf
      exact .inr (.inr (.inl ⟨f, hmem, reply, now, rfl, hf, hreplied, hqueue, rfl⟩))
    next => cases h
  next hqueue =>
    split_ifs at h with hfuts
    cases h
    exact .inr (.inr (.inr ⟨rfl, hqueue, hfuts, rfl⟩))
  next => cases h

section Futures
variable {s s' : Lookup} {a : Action}

/-- The visits under way are numbered apart, and each has sent one query or two. -/
structure Counted (s : Lookup) : Prop where
  nums : (s.futs.map Fut.num).Nodup
  asked : ∀ f ∈ s.futs, s.visited[f.num]? = some f.visit
  unused : ∀ n, s.visited.length ≤ n → s.queries.count n = 0
  inFlight : ∀ f ∈ s.futs, s.queries.count f.num = if f.replied then 2 else 1
  complete : ∀ n < s.visited.length, (∀ f ∈ s.futs, f.num ≠ n) → s.queries.count n = 2

theorem Counted.num_lt (h : Counted s) {f : Fut} (hf : f ∈ s.futs) : f.num < s.visited.length :=
  (List.getElem?_eq_some_iff.1 (h.asked f hf)).1

theorem Counted.split (h : Counted s) {f : Fut} (hf : f ∈ s.futs) :
    ∃ pre post, s.futs = pre ++ f :: post ∧ ∀ g ∈ pre ++ post, g.num ≠ f.num := by
  obtain ⟨pre, post, hsplit⟩ := List.append_of_mem hf
  refine ⟨pre, post, hsplit, ?_⟩
  intro g hg heq
  have hnums := h.nums
  rw [hsplit, List.map_append, List.map_cons, List.nodup_middle, List.nodup_cons, ← List.map_append] at hnums
  apply hnums.1
  rw [← heq]
  exact List.mem_map_of_mem hg

theorem counted_push (h : Counted s) (visit : Visit) : Counted (s.push visit) := by
  have hlt : ∀ f ∈ s.futs, f.num < s.visited.length := fun f hf => h.num_lt hf
  constructor
  · exact nodup_map_snoc Fut.num h.nums (fun f hf => Nat.ne_of_lt (hlt f hf))
  · intro f hf
    rcases List.mem_append.1 hf with hf | hf
    · simp only [push]
      rw [List.getElem?_append_left (hlt f hf)]
      exact h.asked f hf
    · rw [List.mem_singleton.1 hf]
      simp [push]
  · intro n hn
    simp only [push, List.length_append, List.length_singleton] at hn
    simp only [push, List.count_append, List.count_singleton, h.unused n (by omega)]
    rw [if_neg (by simp; omega)]
  · intro f hf
    rcases List.mem_append.1 hf with hf | hf
    · have hne : s.visited.length ≠ f.num := (Nat.ne_of_lt (hlt f hf)).symm
      simp only [push, List.count_append, h.inFlight f hf, List.count_singleton]
      simp [hne]
    · rw [List.mem_singleton.1 hf]
      simp [push, h.unused]
  · intro n hn hfuts
    simp only [push, List.length_append, List.length_singleton] at hn
    have hne : s.visited.length ≠ n := hfuts ⟨s.visited.length, visit, false⟩ (by simp [push])
    have hold := h.complete n (by omega) (fun f hf => hfuts f (List.mem_append_left _ hf))
    simp only [push, List.count_append, List.count_singleton, hold]
    rw [if_neg (by simpa using hne)]

theorem Counted.onFirstReply_futs (h : Counted s) {f : Fut} (hf : f ∈ s.futs) (reply : RequestResult) (now : Instant) :
    ∃ pre post, s.futs = pre ++ f :: post ∧ (∀ g ∈ pre ++ post, g.num ≠ f.num) ∧
      (s.onFirstReply f reply now).futs = pre ++ { f with replied := true } :: post := by
  obtain ⟨pre, post, hsplit, hne⟩ := h.split hf
  have hkeep : ∀ l : List Fut, (∀ g ∈ l, g.num ≠ f.num) →
      l.map (fun g => if g.num = f.num then { g with replied := true } else g) = l := by
    intro l hl
    calc
      _ = l.map id := List.map_congr_left (fun g hg => if_neg (hl g hg))
      _ = l := List.map_id l
  refine ⟨pre, post, hsplit, hne, ?_⟩
  simp only [onFirstReply, hsplit, List.map_append, List.map_cons, if_true]
  rw [hkeep pre (fun g hg => hne g (List.mem_append_left _ hg)),
    hkeep post (fun g hg => hne g (List.mem_append_right _ hg))]

theorem Counted.onSecondReply_futs (h : Counted s) {f : Fut} (hf : f ∈ s.futs) (reply : RequestResult) (now : Instant) :
    ∃ pre post, s.futs = pre ++ f :: post ∧ (∀ g ∈ pre ++ post, g.num ≠ f.num) ∧
      (s.onSecondReply f reply now).futs = pre ++ post := by
  obtain ⟨pre, post, hsplit, hne⟩ := h.split hf
  have hkeep : (pre ++ post).filter (fun g => g.num ≠ f.num) = pre ++ post := by
    rw [List.filter_eq_self]
    simpa using hne
  refine ⟨pre, post, hsplit, hne, ?_⟩
  simp only [onSecondReply, hsplit]
  simp only [List.filter_append] at hkeep ⊢
  rw [List.filter_cons_of_neg (by simp)]
  exact hkeep

theorem mem_middle_of_rest {pre post : List Fut} {f g : Fut} (h : g ∈ pre ++ post) : g ∈ pre ++ f :: post :=
  (List.Sublist.append_left (List.sublist_cons_self f post) pre).mem h

theorem forall_middle {P : Fut → Prop} {pre post : List Fut} {f : Fut} (hf : P f) (h : ∀ g ∈ pre ++ post, P g) :
    ∀ g ∈ pre ++ f :: post, P g := by
  intro g hg
  rw [List.mem_append, List.mem_cons] at hg
  rcases hg with hg | rfl | hg
  · exact h g (List.mem_append_left _ hg)
  · exact hf
  · exact h g (List.mem_append_right _ hg)

theorem counted_onFirstReply (h : Counted s) {f : Fut} (hf : f ∈ s.futs) (hreplied : f.replied = false)
    (reply : RequestResult) (now : Instant) : Counted (s.onFirstReply f reply now) := by
  obtain ⟨pre, post, hsplit, hne, hfuts⟩ := h.onFirstReply_futs hf reply now
  have hcases : ∀ g ∈ (s.onFirstReply f reply now).futs,
      g = { f with replied := true } ∨ (g ∈ s.futs ∧ g.num ≠ f.num) := by
    rw [hfuts, hsplit]
    exact forall_middle (.inl rfl) (fun g hg => .inr ⟨mem_middle_of_rest hg, hne g hg⟩)
  have hcount : ∀ n, (s.onFirstReply f reply now).queries.count n =
      s.queries.count n + if f.num = n then 1 else 0 := by
    intro n
    simp [onFirstReply, List.count_singleton]
  have hfone : s.queries.count f.num = 1 := by
    rw [h.inFlight f hf, hreplied]
    rfl
  constructor
  · have hnums := h.nums
    rw [hsplit] at hnums
    rw [hfuts]
    simpa using hnums
  · intro g hg
    rcases hcases g hg with rfl | ⟨hg, _⟩
    · exact h.asked f hf
    · exact h.asked g hg
  · intro n hn
    have hlt := h.num_lt hf
    have hle : s.visited.length ≤ n := hn
    rw [hcount, h.unused n hn, if_neg (by omega)]
  · intro g hg
    rw [hcount]
    rcases hcases g hg with rfl | ⟨hg, hgf⟩
    · rw [hfone]
      simp
    · rw [h.inFlight g hg, if_neg (Ne.symm hgf), Nat.add_zero]
  · intro n hn hall
    rw [hfuts] at hall
    have hfn : f.num ≠ n := hall { f with replied := true } (by simp)
    rw [hcount, if_neg hfn, Nat.add_zero]
    apply h.complete n hn
    rw [hsplit]
    exact forall_middle hfn (fun g hg => hall g (mem_middle_of_rest hg))

theorem counted_onSecondReply (h : Counted s) {f : Fut} (hf : f ∈ s.futs) (hreplied : f.replied = true)
    (reply : RequestResult) (now : Instant) : Counted (s.onSecondReply f reply now) := by
  obtain ⟨pre, post, hsplit, hne, hfuts⟩ := h.onSecondReply_futs hf reply now
  have hmem : ∀ g ∈ (s.onSecondReply f reply now).futs, g ∈ s.futs := by
    intro g hg
    rw [hfuts] at hg
    rw [hsplit]
    exact mem_middle_of_rest hg
  constructor
  · rw [hfuts]
    have hnums := h.nums
    rw [hsplit] at hnums
    exact hnums.sublist ((List.Sublist.append_left (List.sublist_cons_self f post) pre).map Fut.num)
  · intro g hg
    exact h.asked g (hmem g hg)
  · exact h.unused
  · intro g hg
    exact h.inFlight g (hmem g hg)
  · intro n hn hall
    by_cases hfn : f.num = n
    · have htwo := h.inFlight f hf
      rw [hreplied, if_pos rfl, hfn] at htwo
      exact htwo
    · apply h.complete n hn
      rw [hfuts] at hall
      rw [hsplit]
      exact forall_middle hfn hall

theorem counted_step (h : Counted s) (hstep : Step s a s') : Counted s' := by
  obtain ⟨_, ⟨visit, queue, _, _, rfl⟩ | ⟨f, hf, reply, now, _, hreplied, _, rfl⟩ |
    ⟨f, hf, reply, now, _, _, hreplied, _, rfl⟩ | ⟨_, _, _, rfl⟩⟩ := step_cases hstep
  · exact counted_push (s := { s with queue }) ⟨h.nums, h.asked, h.unused, h.inFlight, h.complete⟩ visit
  · exact counted_onFirstReply h hf hreplied reply now
  · exact counted_onSecondReply h hf hreplied reply now
  · exact ⟨h.nums, h.asked, h.unused, h.inFlight, h.complete⟩

end Futures

section Feed
variable {addrs : List SocketAddr} {s s' : Lookup} {a : Action}

/-- The visits so far and the queue are the nodes given and the nodes accepted, in this order. -/
structure Fed (addrs : List SocketAddr) (s : Lookup) : Prop where
  maxDepth : s.req.maxDepth = 4
  limit : s.req.usefulNodesLimit = 32
  sent : s.visited ++ s.queue = initial addrs ++ s.accepted
  depths : ∀ visit ∈ s.accepted, visit.depth ≤ 4
  fresh : s.accepted = [] → s.req.usefulNodes = []
  successes : s.successes = 0 ↔ ∀ num, (num, true) ∉ s.completed
  ended : ∀ r, s.result = some r → s.queue = [] ∧ s.futs = [] ∧ (r = .ok () ↔ s.successes ≠ 0)

theorem depth_of_initial {visit : Visit} (h : visit ∈ initial addrs) : visit.depth = 0 := by
  obtain ⟨_, _, rfl⟩ := List.mem_map.1 h
  rfl

theorem Fed.depth_le (h : Fed addrs s) {visit : Visit} (hvisit : visit ∈ s.visited ++ s.queue) : visit.depth ≤ 4 := by
  rw [h.sent] at hvisit
  rcases List.mem_append.1 hvisit with hvisit | hvisit
  · rw [depth_of_initial hvisit]
    omega
  · exact h.depths visit hvisit

theorem Counted.visit_mem (hc : Counted s) {f : Fut} (hf : f ∈ s.futs) : f.visit ∈ s.visited :=
  List.mem_of_getElem? (hc.asked f hf)

theorem onSecondReply_accepted (h : Fed addrs s) (hc : Counted s) {f : Fut} (hf : f ∈ s.futs)
    (reply : RequestResult) (now : Instant) :
    (s.onSecondReply f reply now).accepted = [] ↔ s.accepted = [] ∧ offers reply f.visit.addr = [] := by
  change s.accepted ++ (s.req.secondReply false f.visit.addr f.visit.depth reply now).2.1 = [] ↔ _
  rw [List.append_eq_nil_iff]
  apply and_congr_right
  intro haccepted
  rcases secondReply_cases s.req f.visit.addr f.visit.depth reply now with ⟨hoffers, hsent, _⟩ | hsent
  · simp [hoffers, hsent]
  · rw [hsent]
    have hinitial : f.visit ∈ initial addrs := by
      have hmem : f.visit ∈ s.visited ++ s.queue := List.mem_append_left _ (hc.visit_mem hf)
      rwa [h.sent, haccepted, List.append_nil] at hmem
    have hdepth : f.visit.depth < s.req.maxDepth := by
      rw [depth_of_initial hinitial, h.maxDepth]
      omega
    have hlimit : 0 < s.req.usefulNodesLimit := by
      rw [h.limit]
      omega
    constructor
    · intro hnil
      by_contra hoffers
      exact sendNodes_of_empty s.req (h.fresh haccepted) hdepth hlimit now hoffers hnil
    · intro hoffers
      rw [hoffers]
      rfl

theorem secondReply_limits (r : RecursiveRequest) (addr : SocketAddr) (depth : ℕ) (reply : RequestResult) (now : Instant) :
    SameLimits r (r.secondReply false addr depth reply now).2.2 := by
  rcases secondReply_cases r addr depth reply now with ⟨_, _, heq | heq⟩ | heq
  · rw [heq]
    exact .refl r
  · rw [heq]
    exact sameLimits_mark r _ _
  · rw [heq]
    exact sameLimits_sendNodes r _ _ _

theorem secondReply_depth (r : RecursiveRequest) (addr : SocketAddr) (depth : ℕ) (reply : RequestResult) (now : Instant) :
    ∀ visit ∈ (r.secondReply false addr depth reply now).2.1, visit.depth = depth + 1 ∧ depth < r.maxDepth := by
  rcases secondReply_cases r addr depth reply now with ⟨_, hsent, _⟩ | hsent
  · simp [hsent]
  · rw [hsent]
    exact sendNodes_depth r depth now _

theorem fed_onSecondReply (h : Fed addrs s) (hc : Counted s) {f : Fut} (hf : f ∈ s.futs) (hresult : s.result = none)
    (reply : RequestResult) (now : Instant) : Fed addrs (s.onSecondReply f reply now) := by
  have hlimits := secondReply_limits s.req f.visit.addr f.visit.depth reply now
  constructor
  · exact hlimits.maxDepth.trans h.maxDepth
  · exact hlimits.usefulNodesLimit.trans h.limit
  · change s.visited ++ (s.queue ++ _) = initial addrs ++ (s.accepted ++ _)
    rw [← List.append_assoc, h.sent, List.append_assoc]
  · intro visit hvisit
    rcases List.mem_append.1 hvisit with hvisit | hvisit
    · exact h.depths visit hvisit
    · have hdeep := secondReply_depth s.req f.visit.addr f.visit.depth reply now visit hvisit
      rw [h.maxDepth] at hdeep
      omega
  · intro haccepted
    obtain ⟨hold, hoffers⟩ := (onSecondReply_accepted h hc hf reply now).1 haccepted
    change (s.req.secondReply false f.visit.addr f.visit.depth reply now).2.2.usefulNodes = []
    rcases secondReply_cases s.req f.visit.addr f.visit.depth reply now with ⟨_, _, heq | heq⟩ | heq
    · rw [heq]
      exact h.fresh hold
    · rw [heq]
      exact mark_empty _ (h.fresh hold) _ _
    · rw [heq, hoffers]
      exact h.fresh hold
  · change s.successes + (if (s.req.secondReply false f.visit.addr f.visit.depth reply now).1.isOk then 1 else 0) = 0 ↔
      ∀ num, (num, true) ∉ s.completed ++ [(f.num, (s.req.secondReply false f.visit.addr f.visit.depth reply now).1.isOk)]
    generalize (s.req.secondReply false f.visit.addr f.visit.depth reply now).1.isOk = ok
    cases ok with
    | true =>
      constructor
      · intro hzero
        simp at hzero
      · intro hall
        exact absurd (by simp) (hall f.num)
    | false => simp [h.successes]
  · intro r hr
    change s.result = some r at hr
    rw [hresult] at hr
    cases hr

theorem fed_step (h : Fed addrs s) (hc : Counted s) (hstep : Step s a s') : Fed addrs s' := by
  obtain ⟨hresult, ⟨visit, queue, _, hqueue, rfl⟩ | ⟨f, hf, reply, now, _, _, _, rfl⟩ |
    ⟨f, hf, reply, now, _, _, _, _, rfl⟩ | ⟨_, hqueue, hfuts, rfl⟩⟩ := step_cases hstep
  · refine ⟨h.maxDepth, h.limit, ?_, h.depths, h.fresh, h.successes, ?_⟩
    · have hsent := h.sent
      rw [hqueue] at hsent
      change (s.visited ++ [visit]) ++ queue = initial addrs ++ s.accepted
      rw [← hsent, List.append_assoc]
      rfl
    · intro r hr
      exact absurd (hresult.symm.trans hr) (by simp)
  · have hlimits := sameLimits_firstReply s.req f.visit.addr reply now
    refine ⟨hlimits.maxDepth.trans h.maxDepth, hlimits.usefulNodesLimit.trans h.limit, h.sent, h.depths, ?_,
      h.successes, ?_⟩
    · intro haccepted
      exact firstReply_empty s.req (h.fresh haccepted) _ _ _
    · intro r hr
      exact absurd (hresult.symm.trans hr) (by simp)
  · exact fed_onSecondReply h hc hf hresult reply now
  · refine ⟨h.maxDepth, h.limit, h.sent, h.depths, h.fresh, h.successes, ?_⟩
    intro r hr
    cases hr
    refine ⟨hqueue, hfuts, ?_⟩
    change (if s.successes = 0 then Except.error s.errors else .ok ()) = .ok () ↔ s.successes ≠ 0
    split_ifs with hzero
    · simp [hzero]
    · simp [hzero]

theorem foldl_push (s : Lookup) (visits : List Visit) :
    ∃ futs queries, visits.foldl push s = { s with futs, visited := s.visited ++ visits, queries } := by
  induction visits generalizing s with
  | nil => exact ⟨s.futs, s.queries, by simp⟩
  | cons visit visits ih =>
    obtain ⟨futs, queries, heq⟩ := ih (s.push visit)
    refine ⟨futs, queries, ?_⟩
    rw [List.foldl_cons, heq]
    simp [push]

theorem fed_start (target : Id20) (addrs : List SocketAddr) : Fed addrs (start target addrs) := by
  obtain ⟨futs, queries, heq⟩ := foldl_push (empty target) (initial addrs)
  rw [start, heq]
  refine ⟨rfl, rfl, ?_, ?_, fun _ => rfl, ?_, ?_⟩
  · simp [empty]
  · simp [empty]
  · simp [empty]
  · simp [empty]

theorem counted_start (target : Id20) (addrs : List SocketAddr) : Counted (start target addrs) := by
  have hpushed : ∀ (visits : List Visit) (s : Lookup), Counted s → Counted (visits.foldl push s) := by
    intro visits
    induction visits with
    | nil => exact fun _ hs => hs
    | cons visit visits ih => exact fun s hs => ih _ (counted_push hs visit)
  apply hpushed
  constructor <;> simp [empty]

end Feed

section Weights
variable {addrs : List SocketAddr} {s s' : Lookup} {a : Action}

def remaining (s : Lookup) : Multiset ℕ :=
  (if s.result = none then {0} else 0) + (s.queue.map Visit.rank : Multiset ℕ) + (s.futs.map Fut.rank : Multiset ℕ)

theorem coe_map_middle {α : Type} (g : α → ℕ) (pre post : List α) (x : α) :
    ((pre ++ x :: post).map g : Multiset ℕ) = ((pre ++ post).map g : Multiset ℕ) + {g x} := by
  rw [Multiset.coe_eq_coe.2 (List.perm_middle.map g), List.map_cons, ← Multiset.cons_coe, ← Multiset.singleton_add,
    add_comm]

theorem rank_lt {visit : Visit} (h : visit.depth ≤ 4) (num : ℕ) : Fut.rank ⟨num, visit, false⟩ < visit.rank := by
  change 3 * (5 - visit.depth) - 1 < 3 * (5 - visit.depth)
  omega

theorem rank_replied {f : Fut} (h : f.visit.depth ≤ 4) (hreplied : f.replied = false) :
    Fut.rank { f with replied := true } < f.rank := by
  change 3 * (5 - f.visit.depth) - 2 < 3 * (5 - f.visit.depth) - if f.replied then 2 else 1
  rw [hreplied, if_neg Bool.false_ne_true]
  omega

theorem rank_sent {f : Fut} {visit : Visit} (hreplied : f.replied = true) (hdepth : visit.depth = f.visit.depth + 1)
    (hlt : f.visit.depth < 4) : visit.rank < f.rank := by
  unfold Fut.rank Visit.rank
  rw [hreplied, hdepth, if_pos rfl]
  omega

theorem remaining_step (h : Fed addrs s) (hc : Counted s) (hstep : Step s a s') :
    ∃ (rest new : Multiset ℕ) (x : ℕ), remaining s = rest + {x} ∧ remaining s' = rest + new ∧ ∀ y ∈ new, y < x := by
  have hdeep : ∀ f ∈ s.futs, f.visit.depth ≤ 4 :=
    fun f hf => h.depth_le (List.mem_append_left _ (hc.visit_mem hf))
  obtain ⟨hresult, ⟨visit, queue, _, hqueue, rfl⟩ | ⟨f, hf, reply, now, _, hreplied, _, rfl⟩ |
    ⟨f, hf, reply, now, _, _, hreplied, hqueue, rfl⟩ | ⟨_, hqueue, hfuts, rfl⟩⟩ := step_cases hstep
  · refine ⟨{0} + (queue.map Visit.rank : Multiset ℕ) + (s.futs.map Fut.rank : Multiset ℕ),
      {Fut.rank ⟨s.visited.length, visit, false⟩}, visit.rank, ?_, ?_, ?_⟩
    · rw [remaining, hresult, hqueue, List.map_cons, ← Multiset.cons_coe, ← Multiset.singleton_add]
      simp only [if_true]
      abel
    · rw [remaining, push, if_pos hresult, List.map_append, ← Multiset.coe_add]
      simp only [List.map_cons, List.map_nil, Multiset.coe_singleton]
      abel
    · intro y hy
      rw [Multiset.mem_singleton.1 hy]
      exact rank_lt (h.depth_le (by simp [hqueue])) _
  · obtain ⟨pre, post, hsplit, _, hfuts⟩ := hc.onFirstReply_futs hf reply now
    refine ⟨{0} + (s.queue.map Visit.rank : Multiset ℕ) + ((pre ++ post).map Fut.rank : Multiset ℕ),
      {Fut.rank { f with replied := true }}, f.rank, ?_, ?_, ?_⟩
    · rw [remaining, if_pos hresult, hsplit, coe_map_middle, add_assoc, add_assoc, add_assoc]
    · have hkept : (s.onFirstReply f reply now).result = none := hresult
      rw [remaining, if_pos hkept, hfuts, coe_map_middle, ← add_assoc]
      rfl
    · intro y hy
      rw [Multiset.mem_singleton.1 hy]
      exact rank_replied (hdeep f hf) hreplied
  · obtain ⟨pre, post, hsplit, _, hfuts⟩ := hc.onSecondReply_futs hf reply now
    refine ⟨{0} + ((pre ++ post).map Fut.rank : Multiset ℕ),
      ((s.req.secondReply false f.visit.addr f.visit.depth reply now).2.1.map Visit.rank : Multiset ℕ), f.rank,
      ?_, ?_, ?_⟩
    · rw [remaining, if_pos hresult, hqueue, hsplit, coe_map_middle, List.map_nil, Multiset.coe_nil, add_zero, add_assoc]
    · have hkept : (s.onSecondReply f reply now).result = none := hresult
      have hnew : (s.onSecondReply f reply now).queue =
          (s.req.secondReply false f.visit.addr f.visit.depth reply now).2.1 := by
        change s.queue ++ (s.req.secondReply false f.visit.addr f.visit.depth reply now).2.1 = _
        rw [hqueue, List.nil_append]
      rw [remaining, if_pos hkept, hfuts, hnew]
      abel
    · intro y hy
      obtain ⟨visit, hvisit, rfl⟩ := List.mem_map.1 (Multiset.mem_coe.1 hy)
      obtain ⟨hdepth, hlt⟩ := secondReply_depth s.req f.visit.addr f.visit.depth reply now visit hvisit
      rw [h.maxDepth] at hlt
      exact rank_sent hreplied hdepth hlt
  · refine ⟨0, 0, 0, ?_, ?_, by simp⟩
    · simp [remaining, hresult, hqueue, hfuts]
    · simp [remaining, onFinished, hqueue, hfuts]

end Weights

section Runs
variable {target : Id20} {addrs : List SocketAddr} {actions : List Action} {s : Lookup}

theorem ends_start (target : Id20) (addrs : List SocketAddr) : Ends Step (start target addrs) :=
  ends_of_replacement Step remaining (fun s => Fed addrs s ∧ Counted s)
    ⟨fed_start target addrs, counted_start target addrs⟩
    (fun _ _ _ h hstep => ⟨⟨fed_step h.1 h.2 hstep, counted_step h.2 hstep⟩, remaining_step h.1 h.2 hstep⟩)

theorem fed_run (run : Run Step (start target addrs) actions s) : Fed addrs s ∧ Counted s :=
  run.invariant (fun s => Fed addrs s ∧ Counted s) ⟨fed_start target addrs, counted_start target addrs⟩
    (fun _ _ _ h hstep => ⟨fed_step h.1 h.2 hstep, counted_step h.2 hstep⟩)

theorem progress (hresult : s.result = none) : ∃ a s', Step s a s' := by
  have hopen : ¬ s.result.isSome = true := by simp [hresult]
  cases hqueue : s.queue with
  | cons visit queue =>
    refine ⟨.recv, { s with queue }.push visit, ?_⟩
    unfold Step TransitionRuns.Graph step
    rw [if_neg hopen, hqueue]
  | nil =>
    cases hfuts : s.futs with
    | nil =>
      refine ⟨.finished, s.onFinished, ?_⟩
      unfold Step TransitionRuns.Graph step
      rw [if_neg hopen, hqueue]
      exact if_pos hfuts
    | cons f futs =>
      have hwaiting : s.waiting f.num f.replied = some f := by
        rw [waiting, hfuts]
        simp
      cases hreplied : f.replied with
      | false =>
        rw [hreplied] at hwaiting
        refine ⟨.firstReply f.num (.error .requestFailed) 0, s.onFirstReply f (.error .requestFailed) 0, ?_⟩
        unfold Step TransitionRuns.Graph step
        rw [if_neg hopen, hqueue]
        simp only [hwaiting]
      | true =>
        rw [hreplied] at hwaiting
        refine ⟨.secondReply f.num (.error .requestFailed) 0, s.onSecondReply f (.error .requestFailed) 0, ?_⟩
        unfold Step TransitionRuns.Graph step
        rw [if_neg hopen, hqueue]
        simp only [hwaiting]

theorem guarded_iff (run : Run Step (start target addrs) actions s) :
    Guarded OffersNothing Step (start target addrs) actions s ↔ s.accepted = [] := by
  apply run.history (fun actions s => Guarded OffersNothing Step (start target addrs) actions s ↔ s.accepted = [])
  · obtain ⟨futs, queries, heq⟩ := foldl_push (empty target) (initial addrs)
    have hnil : (start target addrs).accepted = [] := by
      rw [start, heq]
      rfl
    exact ⟨fun _ => hnil, fun _ => .nil⟩
  · intro js v w i before ih last
    obtain ⟨hfed, hcounted⟩ := fed_run before
    rw [guarded_snoc_iff step OffersNothing before last, ih]
    obtain ⟨_, ⟨visit, queue, rfl, _, rfl⟩ | ⟨f, hf, reply, now, rfl, _, _, rfl⟩ |
      ⟨f, hf, reply, now, rfl, hwaiting, _, _, rfl⟩ | ⟨rfl, _, _, rfl⟩⟩ := step_cases last
    · exact and_iff_left trivial
    · exact and_iff_left trivial
    · rw [onSecondReply_accepted hfed hcounted hf, OffersNothing, hwaiting]
      simp
    · exact and_iff_left trivial

theorem Fed.finished (hfed : Fed addrs s) (hresult : s.result.isSome) : Finished addrs s := by
  obtain ⟨r, hr⟩ := Option.isSome_iff_exists.1 hresult
  obtain ⟨hqueue, hfuts, hanswer⟩ := hfed.ended r hr
  refine ⟨⟨hqueue, hfuts⟩, ?_, ?_⟩
  · rw [← hfed.sent, hqueue, List.append_nil]
  · rw [hr, Option.some_inj, hanswer, ne_eq, hfed.successes]
    simp

theorem Fed.visit_depth_le (hfed : Fed addrs s) : ∀ visit ∈ s.visited, visit.depth ≤ s.req.maxDepth := by
  intro visit hvisit
  rw [hfed.maxDepth]
  exact hfed.depth_le (List.mem_append_left _ hvisit)

theorem law_iff (hfed : Fed addrs s) (hcounted : Counted s) (hresult : s.result.isSome) :
    FindNodeLaw addrs s ↔ s.accepted = [] := by
  have hfinished := hfed.finished hresult
  constructor
  · intro law
    by_contra hne
    have hpos := List.length_pos_of_ne_nil hne
    have hone := law.queriedOnce 0 hpos
    have hlt : addrs.length + 0 < s.visited.length := by
      rw [hfinished.visited, List.length_append, initial, List.length_map]
      omega
    have htwo := hcounted.complete (addrs.length + 0) hlt (by simp [hfinished.drained.2])
    omega
  · intro hnil
    exact ⟨hfinished, hfed.visit_depth_le, by simp [hnil]⟩

/-- A find_node lookup ends within its depth and loses nothing, but asks the nodes it accepts twice. -/
theorem find_node_law (target : Id20) (addrs : List SocketAddr) :
    Ends Step (start target addrs) ∧ ∀ actions s, Run Step (start target addrs) actions s →
      (s.result = none → ∃ a s', Step s a s') ∧ (∀ visit ∈ s.visited, visit.depth ≤ s.req.maxDepth) ∧
      (s.result.isSome → Finished addrs s ∧
        (FindNodeLaw addrs s ↔ Guarded OffersNothing Step (start target addrs) actions s)) := by
  refine ⟨ends_start target addrs, ?_⟩
  intro actions s run
  obtain ⟨hfed, hcounted⟩ := fed_run run
  refine ⟨progress, hfed.visit_depth_le, ?_⟩
  intro hresult
  refine ⟨hfed.finished hresult, ?_⟩
  rw [law_iff hfed hcounted hresult, guarded_iff run]

def router : SocketAddr := .v4 ⟨1, 6881⟩

def listed : Node SocketAddrV4 := ⟨2, ⟨2, 6881⟩⟩

def listing (nodes : List (Node SocketAddrV4)) : RequestResult :=
  .ok (.response ⟨none, 1, some nodes, none, none, none, none, none, none⟩)

/-- Two visits that are answered: the first one is told of a node, the second one of none. -/
def twoVisits : List Action :=
  [.firstReply 0 (listing [listed]) 0, .secondReply 0 (listing [listed]) 0, .recv, .firstReply 1 (listing []) 0,
    .secondReply 1 (listing []) 0, .finished]

theorem listed_queried_twice :
    ∃ s, Run Step (start 0 [router]) twoVisits s ∧ s.result = some (.ok ()) ∧
      s.accepted = [⟨some listed.id, .v4 listed.addr, 1⟩] ∧ s.queries = [0, 0, 1, 1] ∧ ¬ FindNodeLaw [router] s := by
  have heval : (evalGuarded step (fun _ _ => True) (start 0 [router]) twoVisits).any (fun s =>
      decide (s.result = some (.ok ()) ∧ s.accepted = [⟨some listed.id, .v4 listed.addr, 1⟩] ∧
        s.queries = [0, 0, 1, 1])) = true := by
    decide
  obtain ⟨s, guarded, hs⟩ := exists_guarded_of_eval step _ heval
  obtain ⟨hresult, haccepted, hqueries⟩ := of_decide_eq_true hs
  refine ⟨s, guarded.run, hresult, haccepted, hqueries, ?_⟩
  intro law
  have hone := law.queriedOnce 0 (by simp [haccepted])
  rw [hqueries] at hone
  exact absurd hone (by decide)

def oneVisit : List Action := [.firstReply 0 (listing []) 0, .secondReply 0 (listing []) 0, .finished]

theorem oneVisit_lawful : ∃ s, Run Step (start 0 [router]) oneVisit s ∧ FindNodeLaw [router] s := by
  have heval : (evalGuarded step (fun _ _ => True) (start 0 [router]) oneVisit).any (fun s =>
      decide (s.result = some (.ok ()) ∧ s.accepted = [])) = true := by
    decide
  obtain ⟨s, guarded, hs⟩ := exists_guarded_of_eval step _ heval
  obtain ⟨hresult, haccepted⟩ := of_decide_eq_true hs
  refine ⟨s, guarded.run, ?_⟩
  have hlaw := ((find_node_law 0 [router]).2 oneVisit s guarded.run).2.2 (by rw [hresult]; rfl)
  exact hlaw.2.2 ((guarded_iff guarded.run).2 haccepted)

end Runs
end Lookup
end LibrtbitDht
