import LibrtbitDht.RoutingTable

set_option autoImplicit false

namespace LibrtbitDht
open AlignedBlock TransitionRuns
namespace BucketTree

variable {t : BucketTree} {selfId : Id20}

section Prefixes

theorem mem_iff_le_commonPrefix {b : Block} (hb : b.bits ≤ 160) (hself : b.Mem selfId.toNat) (x : Id20) :
    b.Mem x.toNat ↔ 160 - b.bits ≤ selfId.commonPrefix x := by
  have hsub : 160 - (160 - b.bits) = b.bits := by omega
  rw [le_commonPrefix_iff _ _ _ (by omega), hsub, Block.mem_iff_div, ← (b.mem_iff_div selfId.toNat).1 hself,
    eq_comm]

theorem mem_other_half_iff {b c : Block} (hb : b.bits ≤ 160) (hpos : 0 < b.bits)
    (hself : b.Mem selfId.toNat) (hc : c = b.left ∨ c = b.right) (hout : ¬ c.Mem selfId.toNat) (x : Id20) :
    c.Mem x.toNat ↔ selfId.commonPrefix x = 160 - b.bits := by
  have hin := mem_iff_le_commonPrefix hb hself x
  -- the half that does hold it
  obtain ⟨d, hdself, hdbits, hsplit, hdisj⟩ : ∃ d : Block, d.Mem selfId.toNat ∧ d.bits = b.bits - 1 ∧
      (b.Mem x.toNat ↔ c.Mem x.toNat ∨ d.Mem x.toNat) ∧ ¬ (c.Mem x.toNat ∧ d.Mem x.toNat) := by
    have hselfHalf := (b.mem_halves hpos selfId.toNat).1 hself
    rcases hc with rfl | rfl
    · exact ⟨b.right, hselfHalf.resolve_left hout, rfl, b.mem_halves hpos _, b.halves_disjoint hpos _⟩
    · refine ⟨b.left, hselfHalf.resolve_right hout, rfl, ?_, ?_⟩
      · rw [b.mem_halves hpos, or_comm]
      · rw [and_comm]
        exact b.halves_disjoint hpos _
  have hd := mem_iff_le_commonPrefix (by omega) hdself x
  rw [hdbits] at hd
  constructor
  · intro hx
    have h1 := hin.1 (hsplit.2 (.inl hx))
    have h2 : ¬ d.Mem x.toNat := fun h => hdisj ⟨hx, h⟩
    rw [hd] at h2
    omega
  · intro hx
    have h1 := hsplit.1 (hin.2 (by omega))
    have h2 : ¬ d.Mem x.toNat := by
      rw [hd]
      omega
    exact h1.resolve_right h2

theorem Inv.leaf_parent (h : t.Inv selfId) {i : ℕ} {n : BucketTreeNode} {bucket : LeafBucket} {b : Block}
    (hl : t.LeafAt i n bucket b) (hout : ¬ b.Mem selfId.toNat) :
    ∃ p : Block, p.bits ≤ 160 ∧ 0 < p.bits ∧ p.Mem selfId.toNat ∧ (b = p.left ∨ b = p.right) := by
  rcases Nat.eq_zero_or_pos i with rfl | hpos
  · obtain ⟨root, hroot, hcov⟩ := h.root
    obtain rfl := Option.some.inj (hl.node.symm.trans hroot)
    rw [hl.covers.unique hcov] at hout
    exact absurd (mem_whole selfId) hout
  · obtain ⟨j, ⟨m, l, r, hm, hd, hlr⟩, _⟩ := h.parent i hpos (lt_length hl.node)
    obtain ⟨nl, nr, p, hbr, hbits, hself⟩ := h.branch j m l r hm hd
    refine ⟨p, hbr.covers.bits_le, by omega, hself, ?_⟩
    rcases hlr with rfl | rfl
    · obtain rfl := Option.some.inj (hl.node.symm.trans hbr.left)
      exact .inl (hl.covers.unique hbr.coversLeft)
    · obtain rfl := Option.some.inj (hl.node.symm.trans hbr.right)
      exact .inr (hl.covers.unique hbr.coversRight)

end Prefixes

section Counting

def sharing (t : BucketTree) (selfId : Id20) (c : ℕ) : List RoutingTableNode :=
  t.stored.filter (fun x => selfId.commonPrefix x.id = c)

theorem mem_sharing {c : ℕ} {x : RoutingTableNode} :
    x ∈ t.sharing selfId c ↔ x ∈ t.stored ∧ selfId.commonPrefix x.id = c := by
  simp [sharing]

theorem Inv.sharing_nodup (h : t.Inv selfId) (c : ℕ) : (t.sharing selfId c).Nodup :=
  (List.Nodup.of_map _ h.stored_ids_nodup).filter _

theorem Inv.sharing_subset (h : t.Inv selfId) {i : ℕ} {n : BucketTreeNode} {bucket : LeafBucket} {b : Block}
    (hl : t.LeafAt i n bucket b) {id : Id20} (hid : b.Mem id.toNat) :
    t.sharing selfId (selfId.commonPrefix id) ⊆ bucket.nodes := by
  intro x hx
  obtain ⟨hst, hcp⟩ := mem_sharing.1 hx
  refine h.mem_leaf_of_stored hl hst ?_
  by_cases hself : b.Mem selfId.toNat
  · rw [mem_iff_le_commonPrefix hl.covers.bits_le hself] at hid ⊢
    omega
  · obtain ⟨p, hp, hpos, hpself, hhalf⟩ := h.leaf_parent hl hself
    rw [mem_other_half_iff hp hpos hpself hhalf hself] at hid ⊢
    omega

theorem Inv.sharing_length_le (h : t.Inv selfId) {i : ℕ} {n : BucketTreeNode} {bucket : LeafBucket}
    {b : Block} (hl : t.LeafAt i n bucket b) {id : Id20} (hid : b.Mem id.toNat) :
    (t.sharing selfId (selfId.commonPrefix id)).length ≤ bucket.nodes.length :=
  ((h.sharing_nodup _).subperm (h.sharing_subset hl hid)).length_le

/-- A leaf without our own identifier holds all entries of its prefix length and no others. -/
theorem Inv.sharing_length_far (h : t.Inv selfId) {i : ℕ} {n : BucketTreeNode} {bucket : LeafBucket}
    {b : Block} (hl : t.LeafAt i n bucket b) {id : Id20} (hid : b.Mem id.toNat)
    (hout : ¬ b.Mem selfId.toNat) :
    (t.sharing selfId (selfId.commonPrefix id)).length = bucket.nodes.length := by
  obtain ⟨c, hc, fits⟩ := h.leaf i n bucket hl.node hl.data
  obtain rfl := hc.covers.unique hl.covers
  obtain ⟨p, hp, hpos, hpself, hhalf⟩ := h.leaf_parent hl hout
  have hmem := mem_other_half_iff hp hpos hpself hhalf hout
  have hsub : bucket.nodes ⊆ t.sharing selfId (selfId.commonPrefix id) := by
    intro x hx
    refine mem_sharing.2 ⟨hl.mem_stored hx, ?_⟩
    rw [(hmem x.id).1 (fits.inside x hx), (hmem id).1 hid]
  have hnd : bucket.nodes.Nodup := List.Nodup.of_map _ (Fits.ids_nodup fits)
  exact le_antisymm (h.sharing_length_le hl hid) (hnd.subperm hsub).length_le

theorem sharing_length_of_perm {t' : BucketTree} (hp : t'.stored.Perm t.stored) (c : ℕ) :
    (t'.sharing selfId c).length = (t.sharing selfId c).length :=
  (hp.filter _).length_eq

theorem Inv.sharing_le_eight (h : t.Inv selfId) (c : ℕ) : (t.sharing selfId c).length ≤ 8 := by
  cases hs : t.sharing selfId c with
  | nil => simp
  | cons x xs =>
    have hx : x ∈ t.sharing selfId c := by rw [hs]; exact List.mem_cons_self
    obtain ⟨hst, rfl⟩ := mem_sharing.1 hx
    obtain ⟨i, n, bucket, b, _, hl, hid⟩ := h.getLeaf_spec x.id
    obtain ⟨_, _, fits⟩ := h.leaf i n bucket hl.node hl.data
    rw [← hs]
    exact (h.sharing_length_le hl hid).trans fits.length

end Counting

/-- What an insertion returns when the limit is not reached and the leaf has no bad entry. -/
def Accepts (t : BucketTree) (selfId id : Id20) (res : InsertResult) : Prop :=
  (res = .ignored ↔ (t.sharing selfId (selfId.commonPrefix id)).length = 8) ∧
    (res = .ignored ∨ res = .added)

/-- The rule of the buckets, round by round: a split changes neither the count nor the entries,
and the round that ends the loop meets a leaf which decides. -/
theorem Inv.insertLoop_accepts (h : t.Inv selfId) {i : ℕ} {n : BucketTreeNode} {bucket : LeafBucket}
    {b : Block} (hl : t.LeafAt i n bucket b) (id : Id20) (addr : SocketAddr) (now : Instant) (fuel : ℕ)
    (clock : ℕ → Instant) (hid : b.Mem id.toNat) (hnew : ∀ x ∈ bucket.nodes, x.id ≠ id)
    (hgood : ∀ x ∈ bucket.nodes, x.isBad now = false) (hsize : t.size < t.maxSize)
    {res : InsertResult} {t' : BucketTree}
    (hrun : insertLoop selfId id addr now fuel clock t i = .ok (res, t')) :
    t.Accepts selfId id res := by
  induction fuel generalizing t i n bucket b clock with
  | zero => cases hrun
  | succ fuel ih =>
    obtain ⟨r, hr, hcase⟩ := h.insertRound_cases hl id addr now (clock 0) (clock 1) hid
    simp only [insertLoop, hr, ok_bind, pure_eq_ok] at hrun
    cases hcase with
    | existing found =>
      obtain ⟨x, hx, hxid⟩ := found
      exact absurd hxid (hnew x hx)
    | replaced _ bad mem _ _ _ _ _ =>
      rw [hgood _ mem] at bad
      cases bad
    | full _ _ size => omega
    | room _ _ _ short _ _ _ _ =>
      cases hrun
      have hle := h.sharing_length_le hl hid
      exact ⟨⟨by simp, fun he => by omega⟩, .inr rfl⟩
    | far _ _ _ long outside =>
      cases hrun
      exact ⟨⟨fun _ => (h.sharing_length_far hl hid outside).trans long, fun _ => rfl⟩, .inl rfl⟩
    | split _ _ _ _ _ _ inv leaf mem _ sub after size maxSize =>
      have hacc := ih inv leaf (fun k => clock (k + 2)) mem (fun x hx => hnew x (sub hx))
        (fun x hx => hgood x (sub hx)) (by omega) hrun
      rwa [Accepts, sharing_length_of_perm after] at hacc

theorem Inv.addNode_accepts (h : t.Inv selfId) (id : Id20) (addr : SocketAddr) (clock : ℕ → Instant)
    (hnew : ∀ x ∈ t.stored, x.id ≠ id) (hgood : ∀ x, t.InLeafOf id x → x.isBad (clock 0) = false)
    (hsize : t.size < t.maxSize) {res : InsertResult} {t' : BucketTree}
    (hrun : t.addNode selfId id addr clock = .ok (res, t')) : t.Accepts selfId id res := by
  obtain ⟨i, n, bucket, b, hget, hl, hid⟩ := h.getLeaf_spec id
  rw [addNode, hget, ok_bind, insertIntoLeaf] at hrun
  exact h.insertLoop_accepts hl id addr (clock 0) insertFuel _ hid ((h.new_iff hl hid).2 hnew)
    (fun x hx => hgood x ((h.inLeafOf_iff hl hid x).2 hx)) hsize hrun

end BucketTree

namespace RoutingTable

def prefixCount (rt : RoutingTable) (c : ℕ) : ℕ :=
  (rt.stored.filter (fun x => rt.id.commonPrefix x.id = c)).length

/-- `addNode` accepts a new entry just when its prefix length has room. -/
def AcceptsByPrefix (rt : RoutingTable) : Prop :=
  ∀ (id : Id20) (addr : SocketAddr) (clock : ℕ → Instant), (∀ x ∈ rt.stored, x.id ≠ id) →
    rt.stored.length < rt.buckets.maxSize →
    (∀ x, rt.buckets.InLeafOf id x → x.isBad (clock 0) = false) →
    ∃ res rt', rt.addNode id addr clock = .ok (res, rt') ∧
      (res = .ignored ↔ rt.prefixCount (rt.id.commonPrefix id) = 8) ∧ (res = .ignored ∨ res = .added)

theorem Inv.acceptsByPrefix {rt : RoutingTable} (h : rt.Inv) : rt.AcceptsByPrefix := by
  intro id addr clock hnew hroom hgood
  obtain ⟨res, t', hrun, _, _, _⟩ := BucketTree.Inv.addNode_cases h id addr clock
  have hsize : rt.buckets.size = rt.stored.length := BucketTree.Inv.size h
  have hacc := BucketTree.Inv.addNode_accepts h id addr clock hnew hgood (by omega) hrun
  refine ⟨res, { rt with size := if res.replaced then rt.size + 1 else rt.size, buckets := t' }, ?_, hacc⟩
  simp only [addNode, hrun, ok_bind, pure_eq_ok]

/-- After every history the table is a family of Kademlia buckets. -/
theorem history_kBuckets (selfId : Id20) (maxSize : Option ℕ) (clock : Instant) (ops : List Op) :
    ∃ rt, (new selfId maxSize clock).run ops = .ok rt ∧ rt.id = selfId ∧
      rt.buckets.maxSize = maxSize.getD defaultMaxSize ∧
      (∀ c, rt.prefixCount c ≤ 8) ∧ rt.AcceptsByPrefix := by
  obtain ⟨rt, hrun, inv⟩ := exists_reaches selfId maxSize clock ops
  obtain ⟨_, hid, hmax⟩ := inv_of_reaches selfId maxSize clock hrun
  exact ⟨rt, reaches_iff_run.1 hrun, hid, hmax, fun c => BucketTree.Inv.sharing_le_eight inv c,
    inv.acceptsByPrefix⟩

end RoutingTable
end LibrtbitDht
