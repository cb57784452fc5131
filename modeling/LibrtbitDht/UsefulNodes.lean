import LibrtbitDht.RecursiveRequest
import LibrtbitDht.TransitionRuns

set_option autoImplicit false

namespace LibrtbitDht
open TransitionRuns
namespace RecursiveRequest

inductive Op where
  | shouldRequestNode (nodeId : Id20) (addr : SocketAddr) (depth : ℕ) (now : Instant)
  | markNodeResponded (addr : SocketAddr) (response : ResponseOrError) (now : Instant)
  | markNodeError (addr : SocketAddr)
deriving DecidableEq, Repr

def step (s : RecursiveRequest) : Op → RecursiveRequest
  | .shouldRequestNode nodeId addr depth now => (s.shouldRequestNode nodeId addr depth now).2
  | .markNodeResponded addr response now => (s.markNodeResponded addr response now).2
  | .markNodeError addr => (s.markNodeError addr).2

def run (s : RecursiveRequest) (ops : List Op) : RecursiveRequest := ops.foldl step s

def Accepts (s : RecursiveRequest) (op : Op) (id : Id20) (t : Instant) : Prop :=
  match op with
  | .shouldRequestNode nodeId addr depth now =>
    nodeId = id ∧ now = t ∧ (s.shouldRequestNode nodeId addr depth now).1 = true
  | _ => False

/-- The call inserts a node and thereby pops the one with this id from the list. -/
def Pops (s : RecursiveRequest) (op : Op) (id : Id20) : Prop :=
  match op with
  | .shouldRequestNode nodeId addr depth now =>
    depth < s.maxDepth ∧ (∀ n ∈ s.usefulNodes, n.id ≠ nodeId) ∧
      (s.popped nodeId addr now).map MaybeUsefulNode.id = some id
  | _ => False

structure LookupLaw (s₀ : RecursiveRequest) (ops : List Op) : Prop where
  bounded : (s₀.run ops).usefulNodes.length ≤ s₀.usefulNodesLimit
  distinct : ((s₀.run ops).usefulNodes.map MaybeUsefulNode.id).Nodup
  apart : ∀ before first between second after, ops = before ++ first :: (between ++ second :: after) →
    ∀ id t t', Accepts (s₀.run before) first id t →
      Accepts (s₀.run (before ++ first :: between)) second id t' → t + seconds 60 < t'
  gone : ∀ before first between second after, ops = before ++ first :: (between ++ second :: after) →
    ∀ id t, Pops (s₀.run before) first id → ¬ Accepts (s₀.run (before ++ first :: between)) second id t

structure Inv (s : RecursiveRequest) : Prop where
  bounded : s.usefulNodes.length ≤ s.usefulNodesLimit
  distinct : (s.usefulNodes.map MaybeUsefulNode.id).Nodup
  responded : ∀ n ∈ s.usefulNodes, n.returnedPeers = true → n.lastResponse.isSome

def Better (infoHash id : Id20) (n : MaybeUsefulNode) : Prop :=
  n.id ≠ id ∧ (n.lastResponse.isSome ∨ n.id.distance infoHash < id.distance infoHash)

/-- The list is full of nodes that are better than a fresh one with the given id. -/
structure Beaten (s : RecursiveRequest) (id : Id20) : Prop where
  full : s.usefulNodes.length = s.usefulNodesLimit
  better : ∀ n ∈ s.usefulNodes, Better s.infoHash id n

/-- The list has the node, last requested no earlier than at this time. -/
def Held (s : RecursiveRequest) (id : Id20) (t : Instant) : Prop :=
  ∃ n ∈ s.usefulNodes, n.id = id ∧ t ≤ n.lastRequest

section Keys

theorem distance_lt_of_le {infoHash a b : Id20} (hne : a ≠ b) (h : a.distance infoHash ≤ b.distance infoHash) :
    a.distance infoHash < b.distance infoHash := by
  refine BitVec.lt_of_le_ne h ?_
  intro heq
  have hxor := congrArg (fun x => x ^^^ infoHash) heq
  simp only [Id20.distance, BitVec.xor_assoc, BitVec.xor_self, BitVec.xor_zero] at hxor
  exact hne hxor

/-- A node that sorts before another one has answered, or neither has and it is no farther away. -/
theorem responded_or_closer {infoHash : Id20} {now : Instant} {a b : MaybeUsefulNode}
    (ha : a.returnedPeers = true → a.lastResponse.isSome) (h : sortKey infoHash now a ≤ sortKey infoHash now b) :
    a.lastResponse.isSome ∨
      (b.lastResponse = none ∧ a.id.distance infoHash ≤ b.id.distance infoHash) := by
  cases hresp : a.lastResponse with
  | some r => exact .inl rfl
  | none =>
    have hret : a.returnedPeers = false := by
      by_contra hne
      have hsome := ha (by simpa using hne)
      rw [hresp] at hsome
      cases hsome
    right
    simp only [sortKey, hret, hresp, Prod.Lex.toLex_le_toLex, Bool.not_false, Option.isNone_none] at h
    rcases h with hlt | ⟨_, hlt | ⟨hnone, hdist⟩⟩
    · exact absurd hlt (not_lt.2 (Bool.le_true _))
    · exact absurd hlt (not_lt.2 (Bool.le_true _))
    · refine ⟨Option.isNone_iff_eq_none.1 hnone.symm, ?_⟩
      rw [BitVec.le_def]
      rcases hdist with hlt | ⟨heq, _⟩
      · exact Nat.le_of_lt hlt
      · exact Nat.le_of_eq heq

end Keys

section Steps
variable {s s' : RecursiveRequest} {id : Id20} {t : Instant}

structure Kept (n n' : MaybeUsefulNode) : Prop where
  id : n'.id = n.id
  answered : n.lastResponse.isSome → n'.lastResponse.isSome
  returned : (n.returnedPeers = true → n.lastResponse.isSome) → n'.returnedPeers = true → n'.lastResponse.isSome
  request : n.lastRequest ≤ n'.lastRequest

theorem Kept.refl (n : MaybeUsefulNode) : Kept n n := ⟨rfl, fun h => h, fun h => h, le_refl _⟩

structure Marked (s s' : RecursiveRequest) : Prop where
  limit : s'.usefulNodesLimit = s.usefulNodesLimit
  infoHash : s'.infoHash = s.infoHash
  nodes : List.Forall₂ Kept s.usefulNodes s'.usefulNodes

theorem forall₂_kept_refl (l : List MaybeUsefulNode) : List.Forall₂ Kept l l :=
  List.forall₂_same.2 (fun n _ => Kept.refl n)

theorem Marked.refl (s : RecursiveRequest) : Marked s s := ⟨rfl, rfl, forall₂_kept_refl _⟩

theorem marked_mark (s : RecursiveRequest) {p : MaybeUsefulNode → Bool} {f : MaybeUsefulNode → MaybeUsefulNode}
    (h : ∀ n ∈ s.usefulNodes, p n = true → Kept n (f n)) : Marked s (s.mark p f).2 := by
  rcases s.mark_cases p f with ⟨_, heq⟩ | ⟨pre, a, post, hold, hp, heq⟩
  · rw [heq]
    exact .refl s
  · rw [heq]
    refine ⟨rfl, rfl, ?_⟩
    have ha : a ∈ s.usefulNodes := by
      rw [hold]
      exact List.mem_append_right _ List.mem_cons_self
    rw [hold]
    exact List.rel_append (forall₂_kept_refl pre) (.cons (h a ha hp) (forall₂_kept_refl post))

theorem Marked.length (h : Marked s s') : s'.usefulNodes.length = s.usefulNodes.length :=
  h.nodes.length_eq.symm

theorem Marked.ids (h : Marked s s') :
    s'.usefulNodes.map MaybeUsefulNode.id = s.usefulNodes.map MaybeUsefulNode.id := by
  have hnodes := h.nodes
  revert hnodes
  generalize s.usefulNodes = l
  generalize s'.usefulNodes = l'
  intro hnodes
  induction hnodes with
  | nil => rfl
  | cons hab _ ih => rw [List.map_cons, List.map_cons, hab.id, ih]

theorem exists_before {l l' : List MaybeUsefulNode} (h : List.Forall₂ Kept l l') {n' : MaybeUsefulNode}
    (hn' : n' ∈ l') : ∃ n ∈ l, Kept n n' := by
  induction h with
  | nil => cases hn'
  | @cons a b _ _ hab _ ih =>
    rcases List.mem_cons.1 hn' with rfl | hn'
    · exact ⟨a, List.mem_cons_self, hab⟩
    · obtain ⟨n, hn, hkept⟩ := ih hn'
      exact ⟨n, List.mem_cons_of_mem _ hn, hkept⟩

theorem exists_after {l l' : List MaybeUsefulNode} (h : List.Forall₂ Kept l l') {n : MaybeUsefulNode}
    (hn : n ∈ l) : ∃ n' ∈ l', Kept n n' := by
  induction h with
  | nil => cases hn
  | @cons a b _ _ hab _ ih =>
    rcases List.mem_cons.1 hn with rfl | hn
    · exact ⟨b, List.mem_cons_self, hab⟩
    · obtain ⟨n', hn', hkept⟩ := ih hn
      exact ⟨n', List.mem_cons_of_mem _ hn', hkept⟩

theorem Inv.marked (hs : Inv s) (h : Marked s s') : Inv s' where
  bounded := by
    rw [h.length, h.limit]
    exact hs.bounded
  distinct := by
    rw [h.ids]
    exact hs.distinct
  responded := by
    intro n' hn'
    obtain ⟨n, hn, hkept⟩ := exists_before h.nodes hn'
    exact hkept.returned (hs.responded n hn)

theorem Beaten.marked (hb : Beaten s id) (h : Marked s s') : Beaten s' id where
  full := by rw [h.length, h.limit, hb.full]
  better := by
    intro n' hn'
    obtain ⟨n, hn, hkept⟩ := exists_before h.nodes hn'
    obtain ⟨hne, hbetter⟩ := hb.better n hn
    rw [h.infoHash]
    refine ⟨by rwa [hkept.id], ?_⟩
    rcases hbetter with hsome | hlt
    · exact .inl (hkept.answered hsome)
    · right
      rwa [hkept.id]

theorem Held.marked (hh : Held s id t) (h : Marked s s') : Held s' id t := by
  obtain ⟨n, hn, hid, ht⟩ := hh
  obtain ⟨n', hn', hkept⟩ := exists_after h.nodes hn
  exact ⟨n', hn', hkept.id.trans hid, ht.trans hkept.request⟩

end Steps

section Insertions
variable {s : RecursiveRequest} {nodeId id : Id20} {addr : SocketAddr} {now t : Instant}
  {kept : List MaybeUsefulNode} {worst : MaybeUsefulNode}

theorem Inserted.distinct (h : s.Inserted nodeId addr now kept worst) (hs : Inv s)
    (habsent : ∀ n ∈ s.usefulNodes, n.id ≠ nodeId) : ((worst :: kept).map MaybeUsefulNode.id).Nodup := by
  rw [← (h.perm.map MaybeUsefulNode.id).nodup_iff, List.map_append, List.nodup_append]
  refine ⟨hs.distinct, List.nodup_singleton _, ?_⟩
  intro a ha b hb
  obtain ⟨n, hn, rfl⟩ := List.mem_map.1 ha
  rw [List.mem_singleton.1 hb]
  exact habsent n hn

theorem Inserted.length (h : s.Inserted nodeId addr now kept worst) :
    kept.length = s.usefulNodes.length := by
  have hlen := h.perm.length_eq
  rw [List.length_append, List.length_singleton, List.length_cons] at hlen
  omega

theorem Inserted.mem_iff (h : s.Inserted nodeId addr now kept worst) (n : MaybeUsefulNode) :
    n = worst ∨ n ∈ kept ↔ n ∈ s.usefulNodes ∨ n = freshNode nodeId addr now := by
  rw [← List.mem_cons, ← h.perm.mem_iff, List.mem_append, List.mem_singleton]

theorem Inserted.responded (h : s.Inserted nodeId addr now kept worst) (hs : Inv s) {n : MaybeUsefulNode}
    (hn : n = worst ∨ n ∈ kept) : n.returnedPeers = true → n.lastResponse.isSome := by
  rcases (h.mem_iff n).1 hn with hn | rfl
  · exact hs.responded n hn
  · intro hret
    cases hret

/-- Every node that an insertion keeps has answered, or neither it nor the worst one has and it is closer. -/
theorem Inserted.better (h : s.Inserted nodeId addr now kept worst) (hs : Inv s)
    (habsent : ∀ n ∈ s.usefulNodes, n.id ≠ nodeId) {n : MaybeUsefulNode} (hn : n ∈ kept) :
    n.id ≠ worst.id ∧ (n.lastResponse.isSome ∨
      worst.lastResponse = none ∧ n.id.distance s.infoHash < worst.id.distance s.infoHash) := by
  have hnodup := h.distinct hs habsent
  rw [List.map_cons, List.nodup_cons] at hnodup
  have hne : n.id ≠ worst.id := by
    intro heq
    exact hnodup.1 (heq ▸ List.mem_map_of_mem hn)
  refine ⟨hne, ?_⟩
  rcases responded_or_closer (h.responded hs (.inr hn)) (h.best n hn) with hsome | ⟨hnone, hle⟩
  · exact .inl hsome
  · exact .inr ⟨hnone, distance_lt_of_le hne hle⟩

theorem Inserted.beaten (h : s.Inserted nodeId addr now kept worst) (hs : Inv s)
    (habsent : ∀ n ∈ s.usefulNodes, n.id ≠ nodeId) (hfull : s.usefulNodesLimit ≤ s.usefulNodes.length) :
    Beaten { s with usefulNodes := kept } worst.id where
  full := h.length.trans (le_antisymm hs.bounded hfull)
  better := by
    intro n hn
    obtain ⟨hne, hbetter⟩ := h.better hs habsent hn
    refine ⟨hne, ?_⟩
    rcases hbetter with hsome | ⟨_, hlt⟩
    · exact .inl hsome
    · exact .inr hlt

theorem Inserted.worst_of_beaten (h : s.Inserted nodeId addr now kept worst) (hs : Inv s)
    (habsent : ∀ n ∈ s.usefulNodes, n.id ≠ nodeId) (hb : Beaten s nodeId) :
    worst = freshNode nodeId addr now := by
  rcases (h.mem_iff worst).1 (.inl rfl) with hworst | heq
  · have hfresh : freshNode nodeId addr now ∈ kept := by
      rcases (h.mem_iff (freshNode nodeId addr now)).2 (.inr rfl) with heq | hmem
      · exact absurd (congrArg MaybeUsefulNode.id heq.symm) (habsent worst hworst)
      · exact hmem
    obtain ⟨_, hsome | ⟨hnone, hlt⟩⟩ := h.better hs habsent hfresh
    · cases hsome
    · rcases (hb.better worst hworst).2 with hsome | hlt'
      · rw [hnone] at hsome
        cases hsome
      · exact absurd hlt' (BitVec.not_lt.2 (BitVec.le_of_lt hlt))
  · exact heq

theorem Inserted.keeps_beaten (h : s.Inserted nodeId addr now kept worst) (hs : Inv s)
    (habsent : ∀ n ∈ s.usefulNodes, n.id ≠ nodeId) (hfull : s.usefulNodesLimit ≤ s.usefulNodes.length)
    (hb : Beaten s id) : Beaten { s with usefulNodes := kept } id := by
  by_cases hid : nodeId = id
  · subst hid
    have hbeaten := h.beaten hs habsent hfull
    rwa [h.worst_of_beaten hs habsent hb] at hbeaten
  · refine ⟨h.length.trans (le_antisymm hs.bounded hfull), ?_⟩
    intro n hn
    rcases (h.mem_iff n).1 (.inr hn) with hmem | rfl
    · exact hb.better n hmem
    · refine ⟨hid, ?_⟩
      obtain ⟨hne, hsome | ⟨hnone, hlt⟩⟩ := h.better hs habsent hn
      · cases hsome
      · -- the new node is closer than the one it drives out, which is closer than the beaten one
        have hworst : worst ∈ s.usefulNodes := by
          rcases (h.mem_iff worst).1 (.inl rfl) with hmem | heq
          · exact hmem
          · exact absurd (congrArg MaybeUsefulNode.id heq.symm) hne
        rcases (hb.better worst hworst).2 with hsome | hlt'
        · rw [hnone] at hsome
          cases hsome
        · exact .inr (BitVec.lt_trans hlt hlt')

end Insertions
section Calls
variable {s : RecursiveRequest} {op : Op} {id : Id20} {t : Instant}

theorem marked_again (hs : Inv s) {existing : MaybeUsefulNode} (hmem : existing ∈ s.usefulNodes) {now : Instant}
    (hold : now - existing.lastRequest > seconds 60) :
    Marked s (s.mark (fun n => n.id = existing.id) (fun n => { n with lastRequest := now })).2 ∧
      Held (s.mark (fun n => n.id = existing.id) (fun n => { n with lastRequest := now })).2 existing.id now := by
  constructor
  · apply marked_mark
    intro n hn hid
    have heq : n = existing := List.inj_on_of_nodup_map hs.distinct hn hmem (by simpa using hid)
    subst heq
    have hle : n.lastRequest ≤ now :=
      Nat.le_of_lt (Nat.lt_of_sub_pos (Nat.lt_of_le_of_lt (Nat.zero_le _) hold))
    exact ⟨rfl, fun h => h, fun h => h, hle⟩
  · rcases s.mark_cases (fun n => n.id = existing.id) (fun n => { n with lastRequest := now }) with
      ⟨hnone, _⟩ | ⟨pre, a, post, _, hid, heq⟩
    · have hfalse := hnone existing hmem
      simp at hfalse
    · rw [heq]
      exact ⟨{ a with lastRequest := now }, List.mem_append_right _ List.mem_cons_self, by simpa using hid, le_refl _⟩

/-- A call either marks nodes, and accepts one only if its last request is long ago, or inserts one. -/
theorem step_cases (hs : Inv s) (op : Op) :
    (Marked s (s.step op) ∧ (∀ id, ¬ Pops s op id) ∧ ∀ id t, Accepts s op id t →
      Held (s.step op) id t ∧ ∃ n ∈ s.usefulNodes, n.id = id ∧ n.lastRequest + seconds 60 < t) ∨
    ∃ nodeId addr now kept worst, (∀ n ∈ s.usefulNodes, n.id ≠ nodeId) ∧
      s.Inserted nodeId addr now kept worst ∧
      ((s.usefulNodes.length < s.usefulNodesLimit ∧ s.step op = { s with usefulNodes := kept ++ [worst] } ∧
          (∀ id, ¬ Pops s op id) ∧ ∀ id t, Accepts s op id t → id = nodeId ∧ t = now) ∨
        (s.usefulNodesLimit ≤ s.usefulNodes.length ∧ s.step op = { s with usefulNodes := kept } ∧
          (∀ id, Pops s op id → id = worst.id) ∧
          ∀ id t, Accepts s op id t → id = nodeId ∧ t = now ∧ worst.id ≠ nodeId)) := by
  cases op with
  | markNodeError addr =>
    left
    refine ⟨marked_mark s (fun n _ _ => ⟨rfl, fun h => h, fun h => h, le_refl _⟩), fun _ h => h, ?_⟩
    intro _ _ h
    cases h
  | markNodeResponded addr response now =>
    left
    refine ⟨marked_mark s (fun n _ _ => ⟨rfl, fun _ => rfl, fun _ _ => rfl, le_refl _⟩), fun _ h => h, ?_⟩
    intro _ _ h
    cases h
  | shouldRequestNode nodeId addr depth now =>
    unfold Accepts Pops step
    dsimp only
    rcases s.shouldRequestNode_cases nodeId addr depth now with
      ⟨hwhy, heq⟩ | ⟨existing, hmem, rfl, hold, heq⟩ |
      ⟨habsent, kept, worst, hins, ⟨hroom, heq⟩ | ⟨hfull, hpopped, heq⟩⟩
    · left
      rw [heq]
      refine ⟨.refl s, ?_, ?_⟩
      · rintro id ⟨hdepth, habsent, _⟩
        rcases hwhy with hdeep | ⟨n, hn, hid⟩
        · omega
        · exact habsent n hn hid
      · rintro id t ⟨_, _, htrue⟩
        cases htrue
    · left
      rw [heq]
      obtain ⟨hmarked, hheld⟩ := marked_again hs hmem hold
      refine ⟨hmarked, ?_, ?_⟩
      · rintro id ⟨_, habsent, _⟩
        exact habsent existing hmem rfl
      · rintro id t ⟨rfl, rfl, _⟩
        exact ⟨hheld, existing, hmem, rfl, Nat.add_comm _ _ ▸ Nat.add_lt_of_lt_sub hold⟩
    · right
      refine ⟨nodeId, addr, now, kept, worst, habsent, hins, .inl ⟨hroom, by rw [heq], ?_, ?_⟩⟩
      · rintro id ⟨_, _, hpop⟩
        rw [s.popped_of_room hroom] at hpop
        cases hpop
      · rintro id t ⟨rfl, rfl, _⟩
        exact ⟨rfl, rfl⟩
    · right
      refine ⟨nodeId, addr, now, kept, worst, habsent, hins, .inr ⟨hfull, by rw [heq], ?_, ?_⟩⟩
      · rintro id ⟨_, _, hpop⟩
        rw [hpopped] at hpop
        exact (Option.some.inj hpop).symm
      · rintro id t ⟨rfl, rfl, htrue⟩
        rw [heq] at htrue
        exact ⟨rfl, rfl, by simpa using htrue⟩

theorem inv_new (maxDepth limit : ℕ) (infoHash : Id20) : Inv (new maxDepth limit infoHash) where
  bounded := Nat.zero_le _
  distinct := List.nodup_nil
  responded := nofun

theorem inv_step (hs : Inv s) (op : Op) : Inv (s.step op) := by
  rcases step_cases hs op with ⟨hmarked, _⟩ | ⟨nodeId, addr, now, kept, worst, habsent, hins, hcases⟩
  · exact hs.marked hmarked
  have hdistinct := hins.distinct hs habsent
  rcases hcases with ⟨hroom, heq, _⟩ | ⟨_, heq, _⟩
  · have hperm : (kept ++ [worst]).Perm (worst :: kept) := List.perm_append_singleton _ _
    rw [heq]
    refine ⟨?_, (hperm.map _).nodup_iff.2 hdistinct, ?_⟩
    · rw [List.length_append, List.length_singleton, hins.length]
      exact hroom
    · intro n hn
      exact hins.responded hs (List.mem_cons.1 (hperm.mem_iff.1 hn))
  · rw [heq]
    refine ⟨?_, (List.nodup_cons.1 hdistinct).2, fun n hn => hins.responded hs (.inr hn)⟩
    rw [hins.length]
    exact hs.bounded

theorem beaten_step (hs : Inv s) (hb : Beaten s id) (op : Op) : Beaten (s.step op) id := by
  rcases step_cases hs op with
    ⟨hmarked, _⟩ | ⟨nodeId, addr, now, kept, worst, habsent, hins, ⟨hroom, _⟩ | ⟨hfull, heq, _⟩⟩
  · exact hb.marked hmarked
  · have hlen := hb.full
    omega
  · rw [heq]
    exact hins.keeps_beaten hs habsent hfull hb

theorem Beaten.rejects (hs : Inv s) (hb : Beaten s id) (op : Op) (t : Instant) : ¬ Accepts s op id t := by
  intro hacc
  rcases step_cases hs op with
    ⟨_, _, haccepts⟩ | ⟨nodeId, addr, now, kept, worst, habsent, hins, ⟨hroom, _⟩ | ⟨_, _, _, haccepts⟩⟩
  · obtain ⟨_, n, hn, hid, _⟩ := haccepts id t hacc
    exact (hb.better n hn).1 hid
  · have hlen := hb.full
    omega
  · obtain ⟨rfl, _, hne⟩ := haccepts id t hacc
    exact hne (congrArg MaybeUsefulNode.id (hins.worst_of_beaten hs habsent hb))

theorem beaten_of_pops (hs : Inv s) (h : Pops s op id) : Beaten (s.step op) id := by
  rcases step_cases hs op with
    ⟨_, hno, _⟩ | ⟨nodeId, addr, now, kept, worst, habsent, hins, ⟨_, _, hno, _⟩ | ⟨hfull, heq, hpops, _⟩⟩
  · exact absurd h (hno id)
  · exact absurd h (hno id)
  · rw [heq, hpops id h]
    exact hins.beaten hs habsent hfull

theorem held_of_accepts (hs : Inv s) (h : Accepts s op id t) : Held (s.step op) id t := by
  rcases step_cases hs op with
    ⟨_, _, haccepts⟩ |
    ⟨nodeId, addr, now, kept, worst, habsent, hins, ⟨_, heq, _, haccepts⟩ | ⟨_, heq, _, haccepts⟩⟩
  · exact (haccepts id t h).1
  · obtain ⟨rfl, rfl⟩ := haccepts id t h
    have hfresh := (hins.mem_iff (freshNode id addr t)).2 (.inr rfl)
    rw [heq]
    refine ⟨freshNode id addr t, ?_, rfl, le_refl _⟩
    rw [List.mem_append, List.mem_singleton]
    exact hfresh.symm
  · obtain ⟨rfl, rfl, hne⟩ := haccepts id t h
    rw [heq]
    rcases (hins.mem_iff (freshNode id addr t)).2 (.inr rfl) with hworst | hkept
    · exact absurd (congrArg MaybeUsefulNode.id hworst.symm) hne
    · exact ⟨freshNode id addr t, hkept, rfl, le_refl _⟩

theorem held_step (hs : Inv s) (hh : Held s id t) (op : Op) :
    Held (s.step op) id t ∨ Beaten (s.step op) id := by
  rcases step_cases hs op with
    ⟨hmarked, _⟩ | ⟨nodeId, addr, now, kept, worst, habsent, hins, ⟨_, heq, _⟩ | ⟨hfull, heq, _⟩⟩
  · exact .inl (hh.marked hmarked)
  · obtain ⟨n, hn, hid, ht⟩ := hh
    left
    rw [heq]
    refine ⟨n, ?_, hid, ht⟩
    rw [List.mem_append, List.mem_singleton]
    exact ((hins.mem_iff n).2 (.inl hn)).symm
  · obtain ⟨n, hn, hid, ht⟩ := hh
    rw [heq]
    rcases (hins.mem_iff n).2 (.inl hn) with rfl | hkept
    · right
      rw [← hid]
      exact hins.beaten hs habsent hfull
    · exact .inl ⟨n, hkept, hid, ht⟩

theorem Held.again (hs : Inv s) {t' : Instant} (hh : Held s id t) (h : Accepts s op id t') :
    t + seconds 60 < t' := by
  obtain ⟨n, hn, hid, ht⟩ := hh
  have habsurd : ∀ nodeId, (∀ n ∈ s.usefulNodes, n.id ≠ nodeId) → id ≠ nodeId :=
    fun nodeId habsent heq => habsent n hn (hid.trans heq)
  rcases step_cases hs op with
    ⟨_, _, haccepts⟩ |
    ⟨nodeId, addr, now, kept, worst, habsent, hins, ⟨_, _, _, haccepts⟩ | ⟨_, _, _, haccepts⟩⟩
  · obtain ⟨_, m, hm, hmid, hlate⟩ := haccepts id t' h
    have heq : n = m := List.inj_on_of_nodup_map hs.distinct hn hm (hid.trans hmid.symm)
    subst heq
    exact Nat.lt_of_le_of_lt (Nat.add_le_add_right ht _) hlate
  · exact absurd (haccepts id t' h).1 (habsurd nodeId habsent)
  · exact absurd (haccepts id t' h).1 (habsurd nodeId habsent)

end Calls

section Runs
variable {s : RecursiveRequest} {id : Id20} {t : Instant}

theorem inv_run (hs : Inv s) (ops : List Op) : Inv (s.run ops) :=
  foldl_invariant step Inv hs (fun _ op h => inv_step h op) ops

theorem beaten_run (hs : Inv s) (hb : Beaten s id) (ops : List Op) : Beaten (s.run ops) id :=
  (foldl_invariant step (fun s => Inv s ∧ Beaten s id) ⟨hs, hb⟩
    (fun _ op h => ⟨inv_step h.1 op, beaten_step h.1 h.2 op⟩) ops).2

theorem held_run (hs : Inv s) (hh : Held s id t) (ops : List Op) :
    Held (s.run ops) id t ∨ Beaten (s.run ops) id := by
  have hboth := foldl_invariant step (fun s => Inv s ∧ (Held s id t ∨ Beaten s id)) ⟨hs, .inl hh⟩ ?_ ops
  · exact hboth.2
  · rintro v op ⟨hv, hheld | hbeaten⟩
    · exact ⟨inv_step hv op, held_step hv hheld op⟩
    · exact ⟨inv_step hv op, .inr (beaten_step hv hbeaten op)⟩

theorem run_split (s : RecursiveRequest) (before between : List Op) (first : Op) :
    s.run (before ++ first :: between) = ((s.run before).step first).run between := by
  rw [run, List.foldl_append, List.foldl_cons]
  rfl

theorem limit_run (s : RecursiveRequest) (ops : List Op) (hs : Inv s) :
    (s.run ops).usefulNodesLimit = s.usefulNodesLimit := by
  have hboth := foldl_invariant step (fun v => Inv v ∧ v.usefulNodesLimit = s.usefulNodesLimit) ⟨hs, rfl⟩ ?_ ops
  · exact hboth.2
  · rintro v op ⟨hv, hlimit⟩
    refine ⟨inv_step hv op, ?_⟩
    rcases step_cases hv op with
      ⟨hmarked, _⟩ | ⟨nodeId, addr, now, kept, worst, _, _, ⟨_, heq, _⟩ | ⟨_, heq, _⟩⟩
    · exact hmarked.limit.trans hlimit
    · rw [heq]
      exact hlimit
    · rw [heq]
      exact hlimit

/-- A lookup accepts a node at most once a minute, and never again after it was popped. -/
theorem lookup_law (maxDepth limit : ℕ) (infoHash : Id20) (ops : List Op) :
    LookupLaw (new maxDepth limit infoHash) ops := by
  have hnew := inv_new maxDepth limit infoHash
  refine ⟨?_, (inv_run hnew ops).distinct, ?_, ?_⟩
  · have hbounded := (inv_run hnew ops).bounded
    rwa [limit_run _ ops hnew] at hbounded
  · intro before first between second after _ id t t' hfirst hsecond
    have hbefore := inv_run hnew before
    have hafter := inv_step hbefore first
    rw [run_split] at hsecond
    rcases held_run hafter (held_of_accepts hbefore hfirst) between with hheld | hbeaten
    · exact hheld.again (inv_run hafter between) hsecond
    · exact absurd hsecond (hbeaten.rejects (inv_run hafter between) second t')
  · intro before first between second after _ id t hpops hsecond
    have hbefore := inv_run hnew before
    have hafter := inv_step hbefore first
    rw [run_split] at hsecond
    exact (beaten_run hafter (beaten_of_pops hbefore hpops) between).rejects (inv_run hafter between) second t
      hsecond

end Runs
end RecursiveRequest
end LibrtbitDht
