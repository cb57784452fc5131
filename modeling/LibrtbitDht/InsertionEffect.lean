import LibrtbitDht.SavedStateRecovery

set_option autoImplicit false

namespace LibrtbitDht

def insertInOrder (x : RoutingTableNode) (nodes : List RoutingTableNode) : List RoutingTableNode :=
  nodes.orderedInsert (fun a b => a.id ≤ b.id) x

def Ascending (nodes : List RoutingTableNode) : Prop := nodes.Pairwise (fun x y => x.id < y.id)

section Lists
variable {nodes nodes' : List RoutingTableNode}

theorem Ascending.eq_of_perm (h : Ascending nodes) (h' : Ascending nodes') (hperm : nodes.Perm nodes') :
    nodes = nodes' := by
  refine List.Perm.eq_of_pairwise ?_ h h' hperm
  intro x y _ _ hxy hyx
  exact absurd hyx (BitVec.not_lt.2 (BitVec.le_of_lt hxy))

theorem ascending_insertInOrder (h : Ascending nodes) (x : RoutingTableNode) (hnew : ∀ y ∈ nodes, y.id ≠ x.id) :
    Ascending (insertInOrder x nodes) := by
  have htotal : Std.Total (fun a b : RoutingTableNode => a.id ≤ b.id) := ⟨fun a b => BitVec.le_total _ _⟩
  have htrans : IsTrans RoutingTableNode (fun a b => a.id ≤ b.id) :=
    ⟨fun _ _ _ hab hbc => BitVec.le_trans hab hbc⟩
  have hle : (insertInOrder x nodes).Pairwise (fun a b => a.id ≤ b.id) :=
    List.Pairwise.orderedInsert x nodes (h.imp fun hab => BitVec.le_of_lt hab)
  have hids : ((insertInOrder x nodes).map RoutingTableNode.id).Nodup := by
    unfold insertInOrder
    rw [((List.perm_orderedInsert _ x nodes).map RoutingTableNode.id).nodup_iff, List.map_cons, List.nodup_cons]
    refine ⟨?_, List.pairwise_map.2 (h.imp fun hab => BitVec.ne_of_lt hab)⟩
    intro hmem
    obtain ⟨y, hy, hyx⟩ := List.mem_map.1 hmem
    exact hnew y hy hyx
  exact (hle.and (List.pairwise_map.1 hids)).imp fun hab => BitVec.lt_of_le_ne hab.1 hab.2

theorem Ascending.eq_insertInOrder (h : Ascending nodes) (h' : Ascending nodes') {x : RoutingTableNode}
    (hnew : ∀ y ∈ nodes, y.id ≠ x.id) (hperm : nodes'.Perm (x :: nodes)) : nodes' = insertInOrder x nodes :=
  h'.eq_of_perm (ascending_insertInOrder h x hnew) (hperm.trans (List.perm_orderedInsert _ x nodes).symm)

end Lists

namespace RoutingTable

/-- The leaf that `get_leaf` finds for the identifier holds the entry. -/
def HeldInLeaf (rt : RoutingTable) (id : Id20) (x : RoutingTableNode) : Prop :=
  ∃ i n bucket, rt.buckets.getLeaf id = .ok i ∧ rt.buckets.data[i]? = some n ∧ n.data = .leaf bucket ∧ x ∈ bucket.nodes

structure AddNodeEffect (rt : RoutingTable) (id : Id20) (addr : SocketAddr) (now : Instant)
    (nodes : List RoutingTableNode) (res : InsertResult) (rt' : RoutingTable) (nodes' : List RoutingTableNode) :
    Prop where
  existing_iff : res = .wasExisting ↔ ∃ x ∈ nodes, x.id = id
  existing : res = .wasExisting → rt' = rt ∧ nodes' = nodes
  replaced : ∀ old, res = .replacedBad old → (∀ x ∈ nodes, x.id ≠ id) ∧ old ∈ nodes ∧ rt.HeldInLeaf id old ∧
    old.status now = .bad ∧ nodes' = insertInOrder (.fresh id addr) (nodes.erase old)
  added : res = .added → nodes' = insertInOrder (.fresh id addr) nodes
  ignored : res = .ignored → nodes' = nodes
  ascending : Ascending nodes ∧ Ascending nodes'
  size : rt.buckets.size = nodes.length ∧ rt'.buckets.size = nodes'.length
  bounded : nodes'.length ≤ rt.buckets.maxSize
  kept : rt'.id = rt.id ∧ rt'.buckets.maxSize = rt.buckets.maxSize

section Effect
variable {rt : RoutingTable}

theorem Inv.heldInLeaf (h : rt.Inv) {id : Id20} {x : RoutingTableNode} (hx : rt.buckets.InLeafOf id x) :
    rt.HeldInLeaf id x := by
  obtain ⟨i, n, bucket, b, hget, hl, hid⟩ := BucketTree.Inv.getLeaf_spec h id
  exact ⟨i, n, bucket, hget, hl.node, hl.data, (BucketTree.Inv.inLeafOf_iff h hl hid x).1 hx⟩

theorem Inv.iter_listing (h : rt.Inv) : ∃ nodes, rt.iter = .ok nodes ∧ nodes.Perm rt.stored ∧ Ascending nodes :=
  BucketTree.Inv.iter_spec h

theorem Inv.addNode_effect (h : rt.Inv) (id : Id20) (addr : SocketAddr) (clock : ℕ → Instant) :
    ∃ res rt' nodes nodes', rt.addNode id addr clock = .ok (res, rt') ∧ rt.iter = .ok nodes ∧
      rt'.iter = .ok nodes' ∧ rt.AddNodeEffect id addr (clock 0) nodes res rt' nodes' := by
  obtain ⟨res, rt', hrun, inv, hid, hmax, hcase, hsize⟩ := h.addNode_cases id addr clock
  obtain ⟨nodes, hiter, hperm, hasc⟩ := h.iter_listing
  obtain ⟨nodes', hiter', hperm', hasc'⟩ := inv.iter_listing
  refine ⟨res, rt', nodes, nodes', hrun, hiter, hiter', ?_⟩
  have hlen : rt.buckets.size = nodes.length := (BucketTree.Inv.size h).trans hperm.length_eq.symm
  have hlen' : rt'.buckets.size = nodes'.length := (BucketTree.Inv.size inv).trans hperm'.length_eq.symm
  have hbounded : nodes'.length ≤ rt.buckets.maxSize := by
    rw [← hlen', ← hmax]
    exact BucketTree.Inv.bounded inv
  have hlisted : (∀ x ∈ rt.buckets.stored, x.id ≠ id) → ∀ x ∈ nodes, x.id ≠ id :=
    fun hnew x hx => hnew x (hperm.mem_iff.1 hx)
  have habsent : (∀ x ∈ nodes, x.id ≠ id) → ¬ ∃ x ∈ nodes, x.id = id := by
    rintro hnew ⟨x, hx, hxid⟩
    exact hnew x hx hxid
  cases hcase with
  | existing found same =>
    obtain ⟨x, hx, hxid⟩ := found
    have hrt : rt' = rt := by
      cases rt
      cases rt'
      dsimp only at *
      subst hid same hsize
      rfl
    have hnodes : nodes' = nodes := by
      rw [hrt] at hiter'
      exact Except.ok.inj (hiter'.symm.trans hiter)
    have hfound : ∃ x ∈ nodes, x.id = id := ⟨x, hperm.mem_iff.2 hx, hxid⟩
    exact ⟨iff_of_true rfl hfound, fun _ => ⟨hrt, hnodes⟩, by simp, by simp, by simp, ⟨hasc, hasc'⟩,
      ⟨hlen, hlen'⟩, hbounded, ⟨hid, hmax⟩⟩
  | @replaced old rest _ new bad home before after size =>
    have hold : nodes.Perm (old :: rest) := hperm.trans before
    have hmem : old ∈ nodes := hold.mem_iff.2 List.mem_cons_self
    have hrest : (nodes.erase old).Perm rest := List.cons_perm_iff_perm_erase.1 hold.symm |>.2.symm
    have hnodes : nodes' = insertInOrder (.fresh id addr) (nodes.erase old) := by
      refine Ascending.eq_insertInOrder (hasc.sublist List.erase_sublist) hasc' ?_ ?_
      · intro y hy
        exact hlisted new y (List.mem_of_mem_erase hy)
      · exact hperm'.trans (after.trans (hrest.symm.cons _))
    have hstatus : old.status (clock 0) = .bad := of_decide_eq_true bad
    refine ⟨iff_of_false (by simp) (habsent (hlisted new)), by simp, ?_, by simp, by simp, ⟨hasc, hasc'⟩,
      ⟨hlen, hlen'⟩, hbounded, ⟨hid, hmax⟩⟩
    intro old' heq
    cases heq
    exact ⟨hlisted new, hmem, h.heldInLeaf home, hstatus, hnodes⟩
  | added new noBad below after size =>
    have hnodes : nodes' = insertInOrder (.fresh id addr) nodes :=
      hasc.eq_insertInOrder hasc' (hlisted new) (hperm'.trans (after.trans (hperm.symm.cons _)))
    exact ⟨iff_of_false (by simp) (habsent (hlisted new)), by simp, by simp, fun _ => hnodes, by simp,
      ⟨hasc, hasc'⟩, ⟨hlen, hlen'⟩, hbounded, ⟨hid, hmax⟩⟩
  | ignored new noBad after size =>
    have hnodes : nodes' = nodes := hasc'.eq_of_perm hasc (hperm'.trans (after.trans hperm.symm))
    exact ⟨iff_of_false (by simp) (habsent (hlisted new)), by simp, by simp, by simp, fun _ => hnodes,
      ⟨hasc, hasc'⟩, ⟨hlen, hlen'⟩, hbounded, ⟨hid, hmax⟩⟩

/-- In a reachable table an insertion loses and changes no node but the bad one it replaces. -/
theorem reachable_addNode_effect (F : TextFormats) (rt : RoutingTable) (h : rt.Reachable F) (id : Id20)
    (addr : SocketAddr) (clock : ℕ → Instant) :
    ∃ res rt' nodes nodes', rt.addNode id addr clock = .ok (res, rt') ∧ rt.iter = .ok nodes ∧
      rt'.iter = .ok nodes' ∧ rt.AddNodeEffect id addr (clock 0) nodes res rt' nodes' :=
  h.inv.addNode_effect id addr clock

theorem sampleTable_addNode_effect :
    ∃ res rt' nodes nodes', (Persistence.sampleTable Persistence.sampleV4).addNode 3 Persistence.sampleV6 (fun k => k) =
        .ok (res, rt') ∧ (Persistence.sampleTable Persistence.sampleV4).iter = .ok nodes ∧ rt'.iter = .ok nodes' ∧
      (Persistence.sampleTable Persistence.sampleV4).AddNodeEffect 3 Persistence.sampleV6 0 nodes res rt' nodes' :=
  reachable_addNode_effect Persistence.sampleFormats (Persistence.sampleTable Persistence.sampleV4)
    Persistence.sampleTable_reachable 3 Persistence.sampleV6 (fun k => k)

end Effect
end RoutingTable
end LibrtbitDht
