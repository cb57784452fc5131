import LibrtbitDht.TreeRepresentation
import LibrtbitDht.SavedStateRecovery

set_option autoImplicit false

namespace LibrtbitDht
open AlignedBlock

/-- The first bits of `data` are overwritten, one at a time, by those of `start`. -/
def copyBits (start : Id20) : ℕ → Id20 → Except Fault Id20
  | 0, data => .ok data
  | bit + 1, data => do
    let data ← copyBits start bit data
    let value ← start.getBit bit
    data.setBit bit value

/-- `data` is the identifier that the bytes of the generator make. -/
def generateRandomId (start : Id20) (bits : ℕ) (data : Id20) : Except Fault Id20 := do
  check (bits ≤ 160) .overflow
  let remainingBits := 160 - bits
  copyBits start remainingBits data

def BucketTreeIteratorItem.randomWithin (item : BucketTreeIteratorItem) (data : Id20) : Except Fault Id20 :=
  generateRandomId item.start item.bits data

section Bits

theorem setBit_getMsbD (x : Id20) (bit : ℕ) (value : Bool) (hbit : bit < 160) :
    ∃ y, x.setBit bit value = .ok y ∧
      ∀ i < 160, y.getMsbD i = if i = bit then value else x.getMsbD i := by
  obtain ⟨y, hy, hset⟩ := setBit_spec x bit value hbit
  refine ⟨y, hy, fun i hi => ?_⟩
  rw [getMsbD_eq_testBit y i hi, getMsbD_eq_testBit x i hi, hset]
  exact if_congr (by omega) rfl rfl

theorem copyBits_spec (start data : Id20) (bits : ℕ) (hbits : bits ≤ 160) :
    ∃ x, copyBits start bits data = .ok x ∧
      ∀ i < 160, x.getMsbD i = if i < bits then start.getMsbD i else data.getMsbD i := by
  induction bits with
  | zero => exact ⟨data, rfl, fun i _ => (if_neg (Nat.not_lt_zero i)).symm⟩
  | succ bit ih =>
    obtain ⟨x, hx, hcopied⟩ := ih (by omega)
    obtain ⟨y, hy, hset⟩ := setBit_getMsbD x bit (start.getMsbD bit) hbits
    refine ⟨y, ?_, ?_⟩
    · have hget : start.getBit bit = .ok (start.getMsbD bit) := if_pos hbits
      simp only [copyBits, hx, ok_bind, hget, hy]
    · intro i hi
      rw [hset i hi, hcopied i hi]
      by_cases h : i = bit
      · rw [if_pos h, if_pos (by omega), h]
      · rw [if_neg h]
        exact if_congr (by omega) rfl rfl

theorem copyBits_self (start id : Id20) (bits : ℕ) (hbits : bits ≤ 160)
    (hsame : ∀ i < bits, id.getMsbD i = start.getMsbD i) : copyBits start bits id = .ok id := by
  obtain ⟨x, hx, hcopied⟩ := copyBits_spec start id bits hbits
  have hxid : x = id := by
    refine BitVec.eq_of_getMsbD_eq fun i hi => ?_
    rw [hcopied i hi]
    by_cases h : i < bits
    · rw [if_pos h, hsame i h]
    · rw [if_neg h]
  rw [hx, hxid]

end Bits

section Blocks
variable {n : BucketTreeNode} {b : Block}

/-- The range of an arena node holds the identifiers with the leading bits of its start. -/
theorem BucketTreeNode.Covers.mem_iff_sameBits (h : n.Covers b) (id : Id20) :
    b.Mem id.toNat ↔ ∀ i < 160 - n.bits, id.getMsbD i = n.start.getMsbD i := by
  have hle : n.bits ≤ 160 := h.bits ▸ h.bits_le
  have hback : 160 - (160 - n.bits) = n.bits := by omega
  have hquot : n.start.toNat / 2 ^ n.bits = b.quotient := by
    rw [h.start, ← h.bits]
    exact (b.mem_iff_div b.start).1 ⟨le_refl _, b.start_le_last⟩
  rw [sameBits_iff_div id n.start (160 - n.bits) (by omega), hback, hquot, b.mem_iff_div, h.bits]

theorem BucketTreeNode.Covers.generateRandomId_mem (h : n.Covers b) (data : Id20) :
    ∃ id, generateRandomId n.start n.bits data = .ok id ∧ b.Mem id.toNat := by
  have hle : n.bits ≤ 160 := h.bits ▸ h.bits_le
  obtain ⟨id, hid, hcopied⟩ := copyBits_spec n.start data (160 - n.bits) (by omega)
  refine ⟨id, by rw [generateRandomId, check_true hle, ok_bind, hid], ?_⟩
  refine (h.mem_iff_sameBits id).2 fun i hi => ?_
  rw [hcopied i (by omega), if_pos hi]

theorem BucketTreeNode.Covers.generateRandomId_self (h : n.Covers b) {id : Id20} (hid : b.Mem id.toNat) :
    generateRandomId n.start n.bits id = .ok id := by
  have hle : n.bits ≤ 160 := h.bits ▸ h.bits_le
  rw [generateRandomId, check_true hle, ok_bind]
  exact copyBits_self n.start id _ (by omega) ((h.mem_iff_sameBits id).1 hid)

end Blocks

/-- What a refresh of the bucket at an index may look for: nothing else than identifiers of its
range, which lead back to it, and each of them for some bytes of the generator. -/
structure BucketTree.RefreshTargets (t : BucketTree) (idx : ℕ) (item : BucketTreeIteratorItem) : Prop where
  node : t.ItemAt idx item
  within : ∀ data, ∃ id, item.randomWithin data = .ok id ∧ item.start ≤ id ∧ id ≤ item.endInclusive ∧
    t.getLeaf id = .ok idx
  every : ∀ id, item.start ≤ id → id ≤ item.endInclusive → ∃ data, item.randomWithin data = .ok id

namespace BucketTree
variable {t : BucketTree} {selfId : Id20}

theorem Inv.getLeaf_eq (h : t.Inv selfId) {i : ℕ} {n : BucketTreeNode} {bucket : LeafBucket} {b : Block}
    (hl : t.LeafAt i n bucket b) {id : Id20} (hid : b.Mem id.toNat) : t.getLeaf id = .ok i := by
  obtain ⟨j, m, bm, c, hget, hm, hidm⟩ := h.getLeaf_spec id
  rw [hget, h.leaf_unique hm hl hidm hid]

theorem Inv.refreshTargets (h : t.Inv selfId) {idx : ℕ} {item : BucketTreeIteratorItem}
    (hat : t.ItemAt idx item) : t.RefreshTargets idx item := by
  obtain ⟨b, hl, _⟩ := h.leaf idx _ item.leaf hat rfl
  refine ⟨hat, ?_, ?_⟩
  · intro data
    obtain ⟨id, hid, hmem⟩ := hl.covers.generateRandomId_mem data
    obtain ⟨hstart, hlast⟩ := (hl.covers.mem_iff id).2 hmem
    exact ⟨id, hid, hstart, hlast, h.getLeaf_eq hl hmem⟩
  · intro id hstart hlast
    exact ⟨id, hl.covers.generateRandomId_self ((hl.covers.mem_iff id).1 ⟨hstart, hlast⟩)⟩

end BucketTree

namespace RoutingTable

/-- In a reachable table a refresh looks for an identifier of the bucket that it was chosen for. -/
theorem reachable_refreshTargets (F : TextFormats) (rt : RoutingTable) (h : rt.Reachable F) :
    ∃ leaves items, rt.iterBuckets = .ok items ∧ leaves.Nodup ∧
      List.Forall₂ rt.buckets.RefreshTargets leaves items := by
  obtain ⟨leaves, items, hitems, hall, hnodup, _⟩ := BucketTree.Inv.visitsLeaves h.inv
  exact ⟨leaves, items, hitems, hnodup, hall.imp fun _ _ hat => BucketTree.Inv.refreshTargets h.inv hat⟩

theorem sampleTable_refreshTargets :
    ∃ leaves items, (Persistence.sampleTable Persistence.sampleV4).iterBuckets = .ok items ∧ leaves.Nodup ∧
      List.Forall₂ (Persistence.sampleTable Persistence.sampleV4).buckets.RefreshTargets leaves items :=
  reachable_refreshTargets Persistence.sampleFormats (Persistence.sampleTable Persistence.sampleV4)
    Persistence.sampleTable_reachable

end RoutingTable
end LibrtbitDht
