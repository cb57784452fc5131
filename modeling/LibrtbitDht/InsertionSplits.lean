import LibrtbitDht.RoutingTable

set_option autoImplicit false

namespace LibrtbitDht
open AlignedBlock

section Inversion

theorem check_eq_ok {ok : Prop} [Decidable ok] {fault : Fault} {u : Unit} (h : check ok fault = .ok u) : ok := by
  unfold check at h
  split_ifs at h with hok
  exact hok

theorem bind_eq_ok {α β : Type} {x : Except Fault α} {f : α → Except Fault β} {b : β} (h : (x >>= f) = .ok b) :
    ∃ a, x = .ok a ∧ f a = .ok b := by
  cases x with
  | error fault => cases h
  | ok a => exact ⟨a, rfl, h⟩

theorem computeSplitStartEnd_checks {start endInclusive le rs : Id20} {bits : ℕ}
    (h : computeSplitStartEnd start endInclusive bits = .ok ((start, le), (rs, endInclusive))) :
    bits ≤ 160 ∧ endInclusive.setBit (160 - bits) false = .ok le ∧ start.setBit (160 - bits) true = .ok rs ∧
      start < le ∧ le < rs ∧ rs < endInclusive := by
  obtain ⟨_, hbits, h⟩ := bind_eq_ok h
  obtain ⟨le', hle, h⟩ := bind_eq_ok h
  obtain ⟨rs', hrs, h⟩ := bind_eq_ok h
  obtain ⟨_, hleft, h⟩ := bind_eq_ok h
  obtain ⟨_, hmiddle, h⟩ := bind_eq_ok h
  obtain ⟨_, hright, h⟩ := bind_eq_ok h
  cases h
  exact ⟨check_eq_ok hbits, hle, hrs, check_eq_ok hleft, check_eq_ok hmiddle, check_eq_ok hright⟩

end Inversion

namespace BucketTree

/-- Round `k` of an insertion begins at index `idx` of the second tree, after `k` splits,
whatever the clock read at the splits. -/
inductive RoundAt (t : BucketTree) (selfId id : Id20) (addr : SocketAddr) (now : Instant) :
    ℕ → BucketTree → ℕ → Prop where
  | first {idx : ℕ} (found : t.getLeaf id = .ok idx) : RoundAt t selfId id addr now 0 t idx
  | next {k idx idx' : ℕ} {t' t'' : BucketTree} {leftClock rightClock : Instant}
      (before : RoundAt t selfId id addr now k t' idx)
      (split : t'.insertRound idx selfId id addr now leftClock rightClock = .ok (.again t'' idx')) :
      RoundAt t selfId id addr now (k + 1) t'' idx'

/-- A node whose bits can be counted down and whose range can be halved. -/
structure LegalSplit (n : BucketTreeNode) : Prop where
  bits : 4 ≤ n.bits ∧ n.bits ≤ 160
  changingBit : 160 - n.bits < 160
  asserts : ∃ le rs, n.endInclusive.setBit (160 - n.bits) false = .ok le ∧
    n.start.setBit (160 - n.bits) true = .ok rs ∧ n.start < le ∧ le < rs ∧ rs < n.endInclusive ∧
    computeSplitStartEnd n.start n.endInclusive n.bits = .ok ((n.start, le), (rs, n.endInclusive))

/-- A round that begins at a leaf, returns, and splits the leaf only if that is legal. -/
structure LegalRound (t : BucketTree) (idx : ℕ) (selfId id : Id20) (addr : SocketAddr)
    (now leftClock rightClock : Instant) : Prop where
  leaf : ∃ n bucket, t.data[idx]? = some n ∧ n.data = .leaf bucket
  returns : ∃ round, t.insertRound idx selfId id addr now leftClock rightClock = .ok round
  split : ∀ n t' idx', t.data[idx]? = some n →
    t.insertRound idx selfId id addr now leftClock rightClock = .ok (.again t' idx') → LegalSplit n

section Rounds
variable {t : BucketTree} {selfId : Id20}

theorem LeafAt.legalSplit {i : ℕ} {n : BucketTreeNode} {bucket : LeafBucket} {b : Block}
    (hl : t.LeafAt i n bucket b) (h4 : 4 ≤ b.bits) : LegalSplit n := by
  have hbits := hl.covers.bits
  obtain ⟨le, rs, hrun, _, _⟩ := computeSplitStartEnd_spec hl.covers (by omega)
  obtain ⟨h160, hle, hrs, hleft, hmiddle, hright⟩ := computeSplitStartEnd_checks hrun
  exact ⟨⟨by omega, h160⟩, by omega, le, rs, hle, hrs, hleft, hmiddle, hright, hrun⟩

theorem Inv.legalRound (h : t.Inv selfId) {i : ℕ} {n : BucketTreeNode} {bucket : LeafBucket} {b : Block}
    (hl : t.LeafAt i n bucket b) (id : Id20) (addr : SocketAddr) (now leftClock rightClock : Instant)
    (hid : b.Mem id.toNat) : t.LegalRound i selfId id addr now leftClock rightClock := by
  obtain ⟨round, hround, hcase⟩ := h.insertRound_cases hl id addr now leftClock rightClock hid
  refine ⟨⟨n, bucket, hl.node, hl.data⟩, ⟨round, hround⟩, ?_⟩
  intro m t' idx' hm hagain
  obtain rfl := Option.some.inj (hl.node.symm.trans hm)
  cases Except.ok.inj (hround.symm.trans hagain)
  cases hcase with
  | split new noBad below long inside bits inv leaf mem half sub after size maxSize => exact hl.legalSplit bits

/-- After `k` splits the insertion is at a leaf of the identifier that has lost `k` bits, and
at least three are left. -/
theorem Inv.roundAt (h : t.Inv selfId) {id : Id20} {addr : SocketAddr} {now : Instant} {k idx : ℕ} {t' : BucketTree}
    (hr : t.RoundAt selfId id addr now k t' idx) :
    t'.Inv selfId ∧ ∃ n bucket b, t'.LeafAt idx n bucket b ∧ b.Mem id.toNat ∧ b.bits + k ≤ 160 ∧
      (k = 0 ∨ 3 ≤ b.bits) := by
  induction hr with
  | first found =>
    obtain ⟨i, n, bucket, b, hget, hl, hid⟩ := h.getLeaf_spec id
    cases Except.ok.inj (hget.symm.trans found)
    exact ⟨h, n, bucket, b, hl, hid, hl.covers.bits_le, .inl rfl⟩
  | @next k idx idx' t' t'' lc rc before split ih =>
    obtain ⟨inv, n, bucket, b, hl, hid, hsum, _⟩ := ih
    obtain ⟨round, hround, hcase⟩ := inv.insertRound_cases hl id addr now lc rc hid
    cases Except.ok.inj (hround.symm.trans split)
    cases hcase with
    | @split _ _ n' bucket' c new noBad below long inside bits inv' leaf mem half sub after size maxSize =>
      have hc : c.bits = b.bits - 1 := by
        rcases half with rfl | rfl
        · rfl
        · rfl
      exact ⟨inv', n', bucket', c, leaf, mem, by omega, .inr (by omega)⟩

theorem Inv.rounds_legal (h : t.Inv selfId) {id : Id20} {addr : SocketAddr} {now : Instant} {k idx : ℕ}
    {t' : BucketTree} (hr : t.RoundAt selfId id addr now k t' idx) :
    k ≤ 157 ∧ ∀ leftClock rightClock, t'.LegalRound idx selfId id addr now leftClock rightClock := by
  obtain ⟨inv, n, bucket, b, hl, hid, hsum, hbits⟩ := h.roundAt hr
  constructor
  · omega
  · intro leftClock rightClock
    exact inv.legalRound hl id addr now leftClock rightClock hid

end Rounds

section Loops
variable {t : BucketTree} {selfId : Id20}

theorem insertLoop_mono {id : Id20} {addr : SocketAddr} {now : Instant} {fuel fuel' : ℕ} {clock : ℕ → Instant}
    {idx : ℕ} {r : InsertResult × BucketTree} (h : insertLoop selfId id addr now fuel clock t idx = .ok r)
    (hle : fuel ≤ fuel') : insertLoop selfId id addr now fuel' clock t idx = .ok r := by
  induction fuel generalizing fuel' clock t idx with
  | zero => cases h
  | succ fuel ih =>
    cases fuel' with
    | zero => omega
    | succ fuel' =>
      obtain ⟨round, hround, hrest⟩ := bind_eq_ok h
      rw [insertLoop, hround, ok_bind]
      cases round with
      | done result t' => exact hrest
      | again t' idx' => exact ih hrest (by omega)

/-- The descent ends at the same leaf with any fuel that reaches the end of the arena. -/
theorem Inv.getLeafLoop_ends (h : t.Inv selfId) (id : Id20) :
    ∃ idx n bucket, t.data[idx]? = some n ∧ n.data = .leaf bucket ∧
      ∀ fuel, t.data.length ≤ fuel → t.getLeafLoop id fuel 0 = .ok idx := by
  obtain ⟨root, hroot, hcov⟩ := h.root
  obtain ⟨idx, n, bucket, b, _, hl, hid⟩ := h.getLeaf_spec id
  refine ⟨idx, n, bucket, hl.node, hl.data, ?_⟩
  intro fuel hfuel
  obtain ⟨j, m, bucket', c, hget, hl', hid'⟩ := h.getLeafLoop_spec id fuel 0 hroot hcov (mem_whole id) (by omega)
  rw [hget, h.leaf_unique hl hl' hid hid']

theorem Inv.getMut_returns (h : t.Inv selfId) (id : Id20) (refresh : Option Instant)
    (f : RoutingTableNode → RoutingTableNode) : ∃ found t', t.getMut id refresh f = .ok (found, t') := by
  obtain ⟨idx, n, bucket, b, hget, hl, _⟩ := h.getLeaf_spec id
  simp only [getMut, hget, ok_bind, hl.node, hl.data]
  cases updateFirst (fun x => x.id = id) f bucket.nodes with
  | none => exact ⟨none, t, rfl⟩
  | some found => exact ⟨some found.1, _, rfl⟩

end Loops
end BucketTree

namespace RoutingTable

/-- Every lookup of the identifier and every insertion under it returns, without a fault and whatever
bound is put on its loop, and splits legally. -/
structure InsertsLegally (rt : RoutingTable) (id : Id20) : Prop where
  getLeaf : ∃ idx n bucket, rt.buckets.data[idx]? = some n ∧ n.data = .leaf bucket ∧
    ∀ fuel, rt.buckets.data.length ≤ fuel → rt.buckets.getLeafLoop id fuel 0 = .ok idx
  getMut : ∀ refresh f, ∃ found t', rt.buckets.getMut id refresh f = .ok (found, t')
  addNode : ∀ addr clock, ∃ res rt', rt.addNode id addr clock = .ok (res, rt')
  ends : ∀ (addr : SocketAddr) (clock : ℕ → Instant) (idx : ℕ), rt.buckets.getLeaf id = .ok idx →
    ∃ r, ∀ fuel, BucketTree.insertFuel ≤ fuel →
      BucketTree.insertLoop rt.id id addr (clock 0) fuel (fun k => clock (k + 1)) rt.buckets idx = .ok r
  rounds : ∀ addr now k t idx, rt.buckets.RoundAt rt.id id addr now k t idx →
    k ≤ 157 ∧ ∀ leftClock rightClock, t.LegalRound idx rt.id id addr now leftClock rightClock

theorem Inv.insertsLegally {rt : RoutingTable} (h : rt.Inv) (id : Id20) : rt.InsertsLegally id where
  getLeaf := BucketTree.Inv.getLeafLoop_ends h id
  getMut refresh f := BucketTree.Inv.getMut_returns h id refresh f
  addNode addr clock := by
    obtain ⟨res, rt', hrun, _⟩ := h.addNode_cases id addr clock
    exact ⟨res, rt', hrun⟩
  ends addr clock idx hidx := by
    obtain ⟨res, t', hrun, _⟩ := BucketTree.Inv.addNode_cases h id addr clock
    rw [BucketTree.addNode, hidx, ok_bind] at hrun
    exact ⟨(res, t'), fun fuel hfuel => BucketTree.insertLoop_mono hrun hfuel⟩
  rounds addr now k t idx hr := BucketTree.Inv.rounds_legal h hr

/-- Every history returns a table, and every identifier is inserted there with legal splits only. -/
theorem run_insertsLegally (selfId : Id20) (maxSize : Option ℕ) (clock : Instant) (ops : List Op) :
    ∃ rt, (new selfId maxSize clock).run ops = .ok rt ∧ ∀ id, rt.InsertsLegally id := by
  obtain ⟨rt, hreach, inv⟩ := exists_reaches selfId maxSize clock ops
  exact ⟨rt, reaches_iff_run.1 hreach, fun id => inv.insertsLegally id⟩

end RoutingTable
end LibrtbitDht
