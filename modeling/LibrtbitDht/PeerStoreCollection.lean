import LibrtbitDht.PeerStoreInvariant
import LibrtbitDht.SortedBlocks

set_option autoImplicit false

namespace LibrtbitDht
namespace PeerStore
open SortedBlocks

section Records

def records (m : Peers) : List (Id20 × StoredPeer) := m.entries.flatMap (fun e => e.2.map (fun p => (e.1, p)))

theorem records_length (m : Peers) : (records m).length = total m := by
  unfold records total AssocMap.weight
  rw [List.length_flatMap]
  simp

theorem records_perm {m : Peers} {hash : Id20} {stored : List StoredPeer} (h : m.get? hash = some stored) :
    (records m).Perm (stored.map (fun p => (hash, p)) ++ records (m.remove hash)) := by
  have hperm := List.filter_append_perm (fun e : Id20 × List StoredPeer => decide (e.1 = hash)) m.entries
  rw [AssocMap.filter_key m h] at hperm
  have hflat := (hperm.flatMap_right (fun e => e.2.map (fun p => (e.1, p)))).symm
  simpa [records, AssocMap.remove, AssocMap.retain] using hflat

theorem records_modify {m : Peers} {hash : Id20} {stored left : List StoredPeer} (h : m.get? hash = some stored) :
    (records (m.modify hash (fun _ => left))).Perm (left.map (fun p => (hash, p)) ++ records (m.remove hash)) := by
  have hget : (m.modify hash (fun _ => left)).get? hash = some left := by
    rw [AssocMap.get?_modify_self, h, Option.map_some]
  have hrest : records ((m.modify hash (fun _ => left)).remove hash) = records (m.remove hash) := by
    unfold records
    rw [AssocMap.remove_modify]
  rw [← hrest]
  exact records_perm hget

theorem records_putBack {m : Peers} {hash : Id20} {stored : List StoredPeer} (h : m.get? hash = some stored)
    (left : List StoredPeer) :
    (records (putBack m hash left)).Perm (left.map (fun p => (hash, p)) ++ records (m.remove hash)) := by
  unfold putBack
  split_ifs with hempty
  · rw [hempty]
    exact .refl _
  · exact records_modify h

end Records

section Eviction

/-- The peers of one info hash from the oldest on, each with the hash. -/
def block (m : Peers) (hash : Id20) : List (Id20 × StoredPeer) :=
  (((m.get? hash).getD []).insertionSort (fun a b => a.time ≤ b.time)).map (fun p => (hash, p))

theorem block_perm {m : Peers} {hash : Id20} {stored : List StoredPeer} (h : m.get? hash = some stored) :
    (block m hash).Perm (stored.map (fun p => (hash, p))) := by
  unfold block
  rw [h]
  exact (List.perm_insertionSort _ _).map _

theorem block_length {m : Peers} {hash : Id20} {stored : List StoredPeer} (h : m.get? hash = some stored) :
    (block m hash).length = stored.length := by
  rw [(block_perm h).length_eq, List.length_map]

theorem block_of_none {m : Peers} {hash : Id20} (h : m.get? hash = none) : block m hash = [] := by
  unfold block
  rw [h]
  rfl

theorem block_congr {m m' : Peers} {hashes : List Id20} (h : ∀ hash ∈ hashes, m'.get? hash = m.get? hash) :
    hashes.flatMap (block m') = hashes.flatMap (block m) := by
  refine List.flatMap_congr fun hash hmem => ?_
  unfold block
  rw [h hash hmem]

theorem block_putBack {m : Peers} {hash : Id20} {stored : List StoredPeer} (h : m.get? hash = some stored) (n : ℕ) :
    (records m).Perm ((block m hash).take n ++
      records (putBack m hash ((stored.insertionSort (fun a b => a.time ≤ b.time)).drop n))) := by
  set old := stored.insertionSort (fun a b => a.time ≤ b.time) with hold
  have hblock : block m hash = old.map (fun p => (hash, p)) := by
    unfold block
    rw [h]
    rfl
  calc
    (records m).Perm (stored.map (fun p => (hash, p)) ++ records (m.remove hash)) := records_perm h
    List.Perm _ (block m hash ++ records (m.remove hash)) := (block_perm h).symm.append_right _
    List.Perm _ ((block m hash).take n ++ ((old.drop n).map (fun p => (hash, p)) ++ records (m.remove hash))) := by
      rw [← List.append_assoc, hblock, ← List.map_take, ← List.map_append, List.take_append_drop]
    List.Perm _ _ := (records_putBack h (old.drop n)).symm.append_left _

theorem evictLoop_records (toEvict evicted : ℕ) (order : List (Id20 × DateTime)) (m : Peers)
    (hnd : (order.map Prod.fst).Nodup) :
    (records m).Perm (((order.map Prod.fst).flatMap (block m)).take (toEvict - evicted) ++
      records (evictLoop toEvict evicted order m)) := by
  induction order generalizing evicted m with
  | nil => simp [evictLoop]
  | cons e rest ih =>
    obtain ⟨hash, oldest⟩ := e
    rw [List.map_cons, List.nodup_cons] at hnd
    rw [List.map_cons, List.flatMap_cons]
    by_cases hopen : evicted < toEvict
    · cases hget : m.get? hash with
      | none =>
        rw [evictLoop_absent oldest rest hopen hget, block_of_none hget, List.nil_append]
        exact ih evicted m hnd.2
      | some stored =>
        rw [evictLoop_visit oldest rest hopen hget]
        set m' := putBack m hash ((stored.insertionSort (fun a b => a.time ≤ b.time)).drop (toEvict - evicted)) with hm'
        have hothers : ∀ other ∈ rest.map Prod.fst, m'.get? other = m.get? other := by
          intro other hother
          have hne : other ≠ hash := fun heq => hnd.1 (heq ▸ hother)
          exact get?_putBack_of_ne m _ hne
        have hrec := ih (evicted + min stored.length (toEvict - evicted)) m' hnd.2
        rw [block_congr hothers] at hrec
        have hleftover : toEvict - (evicted + min stored.length (toEvict - evicted)) =
            toEvict - evicted - stored.length := by omega
        rw [hleftover] at hrec
        rw [List.take_append, block_length hget, List.append_assoc]
        exact (block_putBack hget (toEvict - evicted)).trans (hrec.append_left _)
    · rw [evictLoop_done _ (not_lt.1 hopen), Nat.sub_eq_zero_of_le (not_lt.1 hopen), List.take_zero, List.nil_append]

def evictionOrder (m : Peers) : List Id20 :=
  ((oldestTimes m).insertionSort (fun a b => a.2 ≤ b.2)).map Prod.fst

theorem oldestTimes_keys {m : Peers} (h : NoneEmpty m) : (oldestTimes m).map Prod.fst = m.keys := by
  unfold oldestTimes AssocMap.keys
  rw [List.map_filterMap]
  calc
    _ = m.entries.filterMap (some ∘ Prod.fst) := by
      apply List.filterMap_congr
      rintro ⟨hash, stored⟩ hmem
      have hne := h hash stored ((AssocMap.get?_eq_some_iff m hash stored).2 hmem)
      cases hmin : (stored.map StoredPeer.time).min? with
      | none =>
        rw [List.min?_eq_none_iff, List.map_eq_nil_iff] at hmin
        exact absurd hmin hne
      | some oldest => rfl
    _ = m.entries.map Prod.fst := by rw [List.filterMap_eq_map]

theorem evictionOrder_perm {m : Peers} (h : NoneEmpty m) : (evictionOrder m).Perm m.keys := by
  rw [← oldestTimes_keys h]
  exact (List.perm_insertionSort _ _).map Prod.fst

theorem evictionOrder_nodup {m : Peers} (h : NoneEmpty m) : (evictionOrder m).Nodup :=
  (evictionOrder_perm h).nodup_iff.2 m.nodup

def laidOut (m : Peers) : List (Id20 × StoredPeer) := (evictionOrder m).flatMap (block m)

theorem laidOut_perm {m : Peers} (h : NoneEmpty m) : (laidOut m).Perm (records m) := by
  have hblocks : m.keys.flatMap (block m) = m.entries.flatMap (fun e => block m e.1) := by
    unfold AssocMap.keys
    rw [List.flatMap_map]
  refine ((evictionOrder_perm h).flatMap_right _).trans ?_
  rw [hblocks]
  refine List.Perm.flatMap_left _ fun e he => ?_
  exact block_perm ((AssocMap.get?_eq_some_iff m e.1 e.2).2 he)

/-- The number of records that the wrapping counter tells the global step to evict. -/
def toEvict (max : BitVec 32) (m : Peers) : ℕ := total m % 2 ^ 32 - max.toNat

theorem evictGlobally_records {m : Peers} (h : NoneEmpty m) (max : BitVec 32) :
    (records m).Perm ((laidOut m).take (toEvict max m) ++ records (evictGlobally max m)) := by
  unfold evictGlobally toEvict
  dsimp only
  have hcount := count_toNat m
  split_ifs with hover
  · have hlt := BitVec.lt_def.1 hover
    have hnumber : (count m - max).toNat = total m % 2 ^ 32 - max.toNat := by
      rw [BitVec.toNat_sub_of_le (BitVec.le_of_lt hover), hcount]
    rw [hnumber]
    exact evictLoop_records _ 0 _ m (evictionOrder_nodup h)
  · have hle := BitVec.le_def.1 (BitVec.not_lt.1 hover)
    rw [hcount] at hle
    rw [Nat.sub_eq_zero_of_le hle, List.take_zero, List.nil_append]

theorem toEvict_le (max : BitVec 32) (m : Peers) : toEvict max m ≤ total m := by
  have := Nat.mod_le (total m) (2 ^ 32)
  unfold toEvict
  omega

theorem toEvict_of_lt {m : Peers} (h : total m < 2 ^ 32) (max : BitVec 32) :
    toEvict max m = total m - max.toNat := by
  unfold toEvict
  rw [Nat.mod_eq_of_lt h]

theorem total_evictGlobally {m : Peers} (h : NoneEmpty m) (max : BitVec 32) :
    total (evictGlobally max m) + toEvict max m = total m := by
  have hlen := (evictGlobally_records h max).length_eq
  rw [List.length_append, List.length_take, (laidOut_perm h).length_eq, records_length, records_length,
    Nat.min_eq_left (toEvict_le max m)] at hlen
  omega

theorem evictGlobally_kept {m : Peers} (h : NoneEmpty m) (max : BitVec 32) :
    (records (evictGlobally max m)).Perm ((laidOut m).drop (toEvict max m)) := by
  have hperm := (evictGlobally_records h max).symm.trans (laidOut_perm h).symm
  rw [← List.perm_append_left_iff ((laidOut m).take (toEvict max m)), List.take_append_drop]
  exact hperm

theorem total_evictGlobally_eq_iff {m : Peers} (h : NoneEmpty m) (max : BitVec 32) :
    total (evictGlobally max m) = min max.toNat (total m) ↔ total m < 2 ^ 32 := by
  have htotal := total_evictGlobally h max
  have hmax := max.isLt
  unfold toEvict at htotal
  constructor
  · intro heq
    by_contra hlarge
    have hmod := Nat.mod_lt (total m) (show 0 < 2 ^ 32 by decide)
    omega
  · intro hlt
    rw [Nat.mod_eq_of_lt hlt] at htotal
    omega

end Eviction

section OldestFirst
variable (s : PeerStore) (now : DateTime)

/-- The peers that survive their time to live and the cap of their info hash. -/
def survivors : Peers := (s.peers.mapValues (fun _ stored => trim now stored)).retain (fun _ stored => stored ≠ [])

theorem survivors_noneEmpty : NoneEmpty (s.survivors now) := by
  intro hash stored h
  unfold survivors at h
  rw [AssocMap.get?_retain, Option.filter_eq_some_iff] at h
  simpa using h.2

theorem garbageCollectPeers_peers :
    (s.garbageCollectPeers now).peers = evictGlobally s.maxRememberedPeers (s.survivors now) := rfl

theorem garbageCollectPeers_peersLen :
    (s.garbageCollectPeers now).peersLen = count (s.garbageCollectPeers now).peers := rfl

/-- The global step leaves as many survivors as the limit allows, and none that it evicts is later
than one that it keeps. -/
structure EvictsOldest : Prop where
  exact : total (s.garbageCollectPeers now).peers = s.maxRememberedPeers.toNat
  oldest : ∃ evicted, (records (s.survivors now)).Perm (evicted ++ records (s.garbageCollectPeers now).peers) ∧
    ∀ e ∈ evicted, ∀ kept ∈ records (s.garbageCollectPeers now).peers, e.2.time ≤ kept.2.time

/-- The number of peers under the info hashes whose oldest peer comes before that of this one. -/
def visitedBefore (m : Peers) (hash : Id20) : ℕ :=
  (((evictionOrder m).takeWhile (· ≠ hash)).map (fun other => ((m.get? other).getD []).length)).sum

/-- The first `n` peers do not end where info hashes overlap: where a peer of one hash is later than
a peer of another, the peers visited up to the former are `n` at least, or those visited up to the
latter are `n` at most. -/
def CutsNoOverlap (m : Peers) (n : ℕ) : Prop :=
  ∀ a stored b stored', m.get? a = some stored → m.get? b = some stored' → ∀ p ∈ stored, ∀ q ∈ stored',
    q.time < p.time → n ≤ visitedBefore m a + stored.countP (fun r => r.time < p.time) ∨
      visitedBefore m b + stored'.countP (fun r => r.time ≤ q.time) ≤ n

theorem ahead_block (m : Peers) (hash : Id20) : ahead (block m) (evictionOrder m) hash = visitedBefore m hash := by
  unfold ahead visitedBefore
  congr 1
  refine List.map_congr_left fun other _ => ?_
  unfold block
  rw [List.length_map, (List.perm_insertionSort _ _).length_eq]

theorem block_countP {m : Peers} {hash : Id20} {stored : List StoredPeer} (h : m.get? hash = some stored)
    (p : StoredPeer → Bool) : (block m hash).countP (fun e => p e.2) = stored.countP p := by
  rw [(block_perm h).countP_eq, List.countP_map]
  rfl

theorem cutsBetween_laidOut_iff {m : Peers} (h : NoneEmpty m) (n : ℕ) :
    CutsBetween (fun e => e.2.time) (laidOut m) n ↔ CutsNoOverlap m n := by
  have hsorted : ∀ a ∈ evictionOrder m, (block m a).Pairwise (fun x y => x.2.time ≤ y.2.time) := by
    intro a _
    unfold block
    rw [List.pairwise_map]
    exact List.pairwise_insertionSort (fun x y : StoredPeer => x.time ≤ y.time) _
  have hmem : ∀ {a : Id20} {stored : List StoredPeer}, m.get? a = some stored → a ∈ evictionOrder m := by
    intro a stored ha
    exact (evictionOrder_perm h).mem_iff.2 ((AssocMap.mem_keys_iff m a).2 ⟨stored, ha⟩)
  have hin : ∀ {a : Id20} {stored : List StoredPeer} {p : StoredPeer}, m.get? a = some stored →
      ((a, p) ∈ block m a ↔ p ∈ stored) := by
    intro a stored p ha
    rw [(block_perm ha).mem_iff]
    simp
  unfold laidOut
  rw [cutsBetween_flatMap_iff (block m) (fun e => e.2.time) (evictionOrder_nodup h) hsorted n]
  constructor
  · intro hblocks a stored b stored' ha hb p hp q hq hlt
    have hcase := hblocks a (hmem ha) b (hmem hb) (a, p) ((hin ha).2 hp) (b, q) ((hin hb).2 hq) hlt
    rw [ahead_block, ahead_block, block_countP ha (fun r => r.time < p.time),
      block_countP hb (fun r => r.time ≤ q.time)] at hcase
    exact hcase
  · rintro hno a ha b hb ⟨a', p⟩ hx ⟨b', q⟩ hy hlt
    obtain ⟨stored, hstored⟩ := (AssocMap.mem_keys_iff m a).1 ((evictionOrder_perm h).mem_iff.1 ha)
    obtain ⟨stored', hstored'⟩ := (AssocMap.mem_keys_iff m b).1 ((evictionOrder_perm h).mem_iff.1 hb)
    have hx' := (block_perm hstored).mem_iff.1 hx
    have hy' := (block_perm hstored').mem_iff.1 hy
    obtain ⟨p', hp, heq⟩ := List.mem_map.1 hx'
    cases heq
    obtain ⟨q', hq, heq⟩ := List.mem_map.1 hy'
    cases heq
    rw [ahead_block, ahead_block, block_countP hstored (fun r => r.time < p.time),
      block_countP hstored' (fun r => r.time ≤ q.time)]
    exact hno a stored b stored' hstored hstored' p hp q hq hlt

/-- Evicting hash by hash is evicting the oldest first exactly if the counter does not wrap and the
last peer to go is not where info hashes overlap. -/
theorem evictsOldest_iff :
    (s.maxRememberedPeers.toNat < total (s.survivors now) → s.EvictsOldest now) ↔
      (s.maxRememberedPeers.toNat < total (s.survivors now) → total (s.survivors now) < 2 ^ 32 ∧
        CutsNoOverlap (s.survivors now) (total (s.survivors now) - s.maxRememberedPeers.toNat)) := by
  refine forall_congr' fun hover => ?_
  have hne := s.survivors_noneEmpty now
  have hexact := total_evictGlobally_eq_iff hne s.maxRememberedPeers
  rw [Nat.min_eq_left hover.le] at hexact
  constructor
  · rintro ⟨hleft, evicted, hperm, holdest⟩
    have hfits := hexact.1 hleft
    refine ⟨hfits, ?_⟩
    rw [← toEvict_of_lt hfits s.maxRememberedPeers, ← cutsBetween_laidOut_iff hne]
    have hevicted : evicted.Perm ((laidOut (s.survivors now)).take (toEvict s.maxRememberedPeers (s.survivors now))) :=
      (List.perm_append_right_iff _).1 (hperm.symm.trans (evictGlobally_records hne s.maxRememberedPeers))
    intro x hx y hy
    exact holdest x (hevicted.mem_iff.2 hx) y ((evictGlobally_kept hne s.maxRememberedPeers).mem_iff.2 hy)
  · rintro ⟨hfits, hcut⟩
    refine ⟨hexact.2 hfits, _, evictGlobally_records hne s.maxRememberedPeers, ?_⟩
    rw [← toEvict_of_lt hfits s.maxRememberedPeers, ← cutsBetween_laidOut_iff hne] at hcut
    intro e he kept hkept
    exact hcut e he kept ((evictGlobally_kept hne s.maxRememberedPeers).mem_iff.1 hkept)

/-- The newest peer of the first info hash is later than the only peer of the second one. -/
def overlapping : Peers :=
  ⟨[(1, [⟨.v4 ⟨1, 6881⟩, 0⟩, ⟨.v4 ⟨2, 6881⟩, 10⟩]), (2, [⟨.v4 ⟨3, 6881⟩, 5⟩])], by decide⟩

/-- With room for one peer, the newest of the three goes and an older one stays. -/
theorem overlapping_evicts_newest :
    records ((ofSaved 0 1000 1 0 [] overlapping).garbageCollectPeers 20).peers = [(2, ⟨.v4 ⟨3, 6881⟩, 5⟩)] ∧
      ¬ ((ofSaved 0 1000 1 0 [] overlapping).maxRememberedPeers.toNat <
          total ((ofSaved 0 1000 1 0 [] overlapping).survivors 20) →
        (ofSaved 0 1000 1 0 [] overlapping).EvictsOldest 20) := by
  have hkept : records ((ofSaved 0 1000 1 0 [] overlapping).garbageCollectPeers 20).peers =
      [(2, ⟨.v4 ⟨3, 6881⟩, 5⟩)] := by decide
  refine ⟨hkept, fun h => ?_⟩
  obtain ⟨_, evicted, hperm, holdest⟩ := h (by decide)
  rw [hkept] at hperm holdest
  have hmem : (1, ⟨.v4 ⟨2, 6881⟩, 10⟩) ∈ evicted ++ [(2, (⟨.v4 ⟨3, 6881⟩, 5⟩ : StoredPeer))] :=
    hperm.mem_iff.1 (by decide)
  have hgone : (1, ⟨.v4 ⟨2, 6881⟩, 10⟩) ∈ evicted := by simpa using hmem
  have hle := holdest _ hgone _ (List.mem_singleton_self _)
  exact absurd hle (by decide)

end OldestFirst

section Collection

def young (now : DateTime) (stored : List StoredPeer) : List StoredPeer :=
  stored.filter (fun p => now - p.time < peerTtl)

theorem fresh_iff (now time : DateTime) (ttl : TimeDelta) : time > now - ttl ↔ now - time < ttl := by
  rw [gt_iff_lt, sub_lt_comm]

theorem trim_spec (now : DateTime) (stored : List StoredPeer) :
    (trim now stored).length = min 100 (young now stored).length ∧
      ∃ dropped, (young now stored).Perm (trim now stored ++ dropped) ∧
        ∀ d ∈ dropped, ∀ kept ∈ trim now stored, d.time ≤ kept.time := by
  have hyoung : stored.filter (fun p => p.time > now - peerTtl) = young now stored :=
    List.filter_congr fun p _ => decide_eq_decide.2 (fresh_iff now p.time peerTtl)
  unfold trim
  dsimp only
  rw [hyoung]
  split_ifs with hmany
  · unfold maxPeersPerInfoHash at hmany ⊢
    have hperm := List.perm_insertionSort (fun a b : StoredPeer => a.time ≥ b.time) (young now stored)
    have hsorted := List.pairwise_insertionSort (fun a b : StoredPeer => a.time ≥ b.time) (young now stored)
    refine ⟨?_, ((young now stored).insertionSort (fun a b => a.time ≥ b.time)).drop 100, ?_, ?_⟩
    · rw [List.length_take, hperm.length_eq]
    · rw [List.take_append_drop]
      exact hperm.symm
    · rw [← List.take_append_drop 100 ((young now stored).insertionSort _), List.pairwise_append] at hsorted
      intro d hd kept hkept
      exact hsorted.2.2 kept hkept d hd
  · unfold maxPeersPerInfoHash at hmany
    refine ⟨by omega, [], ?_, ?_⟩
    · rw [List.append_nil]
    · intro d hd
      cases hd

theorem trim_eq_self {now : DateTime} {stored kept : List StoredPeer} (h : kept.Subperm (trim now stored)) :
    trim now kept = kept := by
  obtain ⟨hlen, dropped, hperm, _⟩ := trim_spec now stored
  have hfresh : kept.filter (fun p => p.time > now - peerTtl) = kept := by
    apply List.filter_eq_self.2
    intro p hp
    have hmem := hperm.mem_iff.2 (List.mem_append_left dropped (h.subset hp))
    rw [decide_eq_true_iff, fresh_iff]
    exact of_decide_eq_true (List.mem_filter.1 hmem).2
  have hle := h.length_le
  unfold trim
  dsimp only
  rw [hfresh, if_neg]
  unfold maxPeersPerInfoHash
  omega

variable (s : PeerStore) (now : DateTime)

theorem survivors_getD (hash : Id20) :
    ((s.survivors now).get? hash).getD [] = trim now ((s.peers.get? hash).getD []) := by
  unfold survivors
  rw [AssocMap.get?_retain, AssocMap.get?_mapValues]
  cases s.peers.get? hash with
  | none => rfl
  | some stored =>
    by_cases hempty : trim now stored = []
    · simp [hempty, Option.filter]
    · simp [hempty, Option.filter]

/-- The sum over all info hashes of their young peers, a hundred at most of each. -/
def youngTotal : ℕ := s.peers.weight (fun stored => min 100 (young now stored).length)

theorem total_survivors : total (s.survivors now) = s.youngTotal now := by
  unfold total youngTotal survivors AssocMap.weight AssocMap.retain AssocMap.mapValues
  dsimp only
  generalize s.peers.entries = entries
  induction entries with
  | nil => rfl
  | cons e entries ih =>
    have hlen := (trim_spec now e.2).1
    rw [List.map_cons, List.map_cons, List.sum_cons, ← ih]
    by_cases hempty : trim now e.2 = []
    · rw [List.filter_cons_of_neg (by simpa using hempty), ← hlen, hempty, List.length_nil, Nat.zero_add]
    · rw [List.filter_cons_of_pos (by simpa using hempty), List.map_cons, List.sum_cons, hlen]

structure Collected (s' : PeerStore) : Prop where
  limits : SameLimits s s'
  tokens : s'.tokens = s.tokens.filter (fun t => now - t.time < tokenTtl)
  present : ∀ hash stored', s'.peers.get? hash = some stored' → stored' ≠ [] ∧
    ∃ stored, s.peers.get? hash = some stored ∧ stored'.Subperm (young now stored)
  perHash : ∀ hash, ∃ kept dropped, kept = ((s.survivors now).get? hash).getD [] ∧
    kept.length = min 100 (young now ((s.peers.get? hash).getD [])).length ∧
    (young now ((s.peers.get? hash).getD [])).Perm (kept ++ dropped) ∧ ∀ d ∈ dropped, ∀ k ∈ kept, d.time ≤ k.time
  global : Shrinks (s.survivors now) s'.peers
  number : total s'.peers = min s.maxRememberedPeers.toNat (s.youngTotal now)
  counter : s'.peersLen.toNat = total s'.peers
  again : s'.garbageCollectPeers now = s'

theorem survivors_subperm {hash : Id20} {kept : List StoredPeer} (h : (s.survivors now).get? hash = some kept) :
    ∃ stored, s.peers.get? hash = some stored ∧ kept = trim now stored := by
  unfold survivors at h
  rw [AssocMap.get?_retain, AssocMap.get?_mapValues, Option.filter_eq_some_iff, Option.map_eq_some_iff] at h
  obtain ⟨⟨stored, hstored, heq⟩, _⟩ := h
  exact ⟨stored, hstored, heq.symm⟩

/-- The counter wraps to the limit or less, so that a second collection evicts nothing. -/
theorem evictGlobally_again (max : BitVec 32) {m : Peers} (h : NoneEmpty m) :
    evictGlobally max (evictGlobally max m) = evictGlobally max m := by
  have htotal := total_evictGlobally h max
  have hmax := max.isLt
  generalize evictGlobally max m = left at htotal
  have hfew : total left % 2 ^ 32 ≤ max.toNat := by
    unfold toEvict at htotal
    omega
  unfold evictGlobally
  dsimp only
  rw [if_neg]
  rw [gt_iff_lt, BitVec.lt_def, count_toNat]
  omega

theorem SameLimits.eq {s s' : PeerStore} (h : SameLimits s s') (tokens : s'.tokens = s.tokens)
    (peers : s'.peers = s.peers) (peersLen : s'.peersLen = s.peersLen) : s' = s := by
  obtain ⟨selfId, maxTokens, maxPeers, maxDistance⟩ := h
  cases s
  cases s'
  dsimp only at *
  subst selfId maxTokens maxPeers maxDistance tokens peers peersLen
  rfl

theorem garbageCollectPeers_again : (s.garbageCollectPeers now).garbageCollectPeers now = s.garbageCollectPeers now := by
  have hne := s.survivors_noneEmpty now
  obtain ⟨hshrinks, hnone⟩ := evictGlobally_shrinks s.maxRememberedPeers hne
  have hself : (s.garbageCollectPeers now).survivors now = (s.garbageCollectPeers now).peers := by
    unfold survivors
    rw [AssocMap.mapValues_eq_self, AssocMap.retain_eq_self]
    · intro hash stored h
      simpa using hnone hash stored h
    · intro hash stored h
      obtain ⟨kept, hkept, hsub⟩ := hshrinks hash stored h
      obtain ⟨before, _, rfl⟩ := s.survivors_subperm now hkept
      exact trim_eq_self hsub
  have hpeers : ((s.garbageCollectPeers now).garbageCollectPeers now).peers = (s.garbageCollectPeers now).peers := by
    rw [garbageCollectPeers_peers, hself]
    exact evictGlobally_again s.maxRememberedPeers hne
  have htokens : ((s.garbageCollectPeers now).garbageCollectPeers now).tokens = (s.garbageCollectPeers now).tokens := by
    change (s.tokens.filter _).filter _ = s.tokens.filter _
    rw [List.filter_filter]
    simp
  have hlen : ((s.garbageCollectPeers now).garbageCollectPeers now).peersLen = (s.garbageCollectPeers now).peersLen := by
    rw [garbageCollectPeers_peersLen, hpeers, ← garbageCollectPeers_peersLen]
  exact SameLimits.eq ⟨rfl, rfl, rfl, rfl⟩ htokens hpeers hlen

/-- A garbage collection does all of this exactly if its counter does not wrap. -/
theorem collected_iff : s.Collected now (s.garbageCollectPeers now) ↔ s.youngTotal now < 2 ^ 32 := by
  have hne := s.survivors_noneEmpty now
  have hexact := total_evictGlobally_eq_iff hne s.maxRememberedPeers
  rw [total_survivors] at hexact
  obtain ⟨hshrinks, hnone⟩ := evictGlobally_shrinks s.maxRememberedPeers hne
  constructor
  · intro h
    exact hexact.1 h.number
  · intro hfits
    have hnumber := hexact.2 hfits
    refine ⟨⟨rfl, rfl, rfl, rfl⟩, ?_, ?_, ?_, hshrinks, hnumber, ?_, s.garbageCollectPeers_again now⟩
    · exact List.filter_congr fun t _ => decide_eq_decide.2 (fresh_iff now t.time tokenTtl)
    · intro hash stored' h
      obtain ⟨kept, hkept, hsub⟩ := hshrinks hash stored' h
      obtain ⟨stored, hstored, rfl⟩ := s.survivors_subperm now hkept
      obtain ⟨_, dropped, hperm, _⟩ := trim_spec now stored
      exact ⟨hnone hash stored' h, stored, hstored,
        hsub.trans ((List.sublist_append_left _ dropped).subperm.trans hperm.symm.subperm)⟩
    · intro hash
      obtain ⟨hlen, dropped, hperm, holder⟩ := trim_spec now ((s.peers.get? hash).getD [])
      rw [← survivors_getD] at hlen hperm holder
      exact ⟨_, dropped, rfl, hlen, hperm, holder⟩
    · have hleft : total (s.garbageCollectPeers now).peers < 2 ^ 32 :=
        hnumber.trans_lt ((min_le_right _ _).trans_lt hfits)
      exact counted_ofCount hleft

/-- Entries of `n` info hashes with one peer each. -/
def oneEach (n : ℕ) : List (Id20 × List StoredPeer) :=
  (List.range n).map (fun i => (BitVec.ofNat 160 i, [⟨.v4 ⟨1, 6881⟩, 0⟩]))

theorem oneEach_nodup {n : ℕ} (h : n ≤ 2 ^ 160) : ((oneEach n).map Prod.fst).Nodup := by
  unfold oneEach
  rw [List.map_map]
  refine List.Nodup.map_on ?_ List.nodup_range
  intro i hi j hj heq
  have hnat := congrArg BitVec.toNat heq
  simp only [Function.comp_apply, BitVec.toNat_ofNat] at hnat
  rwa [Nat.mod_eq_of_lt ((List.mem_range.1 hi).trans_le h), Nat.mod_eq_of_lt ((List.mem_range.1 hj).trans_le h)] at hnat

theorem counter_le_ids : 2 ^ 32 ≤ 2 ^ 160 := Nat.pow_le_pow_right (by decide) (by decide)

def crowdedHashes : Peers := ⟨oneEach (2 ^ 32), oneEach_nodup counter_le_ids⟩

theorem oneEach_young {n : ℕ} (h : n ≤ 2 ^ 160) :
    AssocMap.weight (fun stored => min 100 (young 0 stored).length) ⟨oneEach n, oneEach_nodup h⟩ = n := by
  have hsum : ((oneEach n).map (fun e => min 100 (young 0 e.2).length)).sum = n := by
    unfold oneEach
    clear h
    rw [List.map_map]
    induction n with
    | zero => rfl
    | succ n ih =>
      rw [List.range_succ, List.map_append, List.sum_append, ih]
      rfl
  exact hsum

theorem crowdedHashes_youngTotal : (ofSaved 0 1000 1000 0 [] crowdedHashes).youngTotal 0 = 2 ^ 32 :=
  oneEach_young counter_le_ids

theorem total_of_wrap (h : s.youngTotal now = 2 ^ 32) : total (s.garbageCollectPeers now).peers = 2 ^ 32 := by
  have htotal := total_evictGlobally (s.survivors_noneEmpty now) s.maxRememberedPeers
  unfold toEvict at htotal
  rw [total_survivors, h, Nat.mod_self, Nat.zero_sub, Nat.add_zero] at htotal
  rw [garbageCollectPeers_peers, htotal]

/-- All of them stay, however few the store should remember. -/
theorem crowdedHashes_not_collected :
    total ((ofSaved 0 1000 1000 0 [] crowdedHashes).garbageCollectPeers 0).peers = 2 ^ 32 ∧
      ¬ (ofSaved 0 1000 1000 0 [] crowdedHashes).Collected 0
        ((ofSaved 0 1000 1000 0 [] crowdedHashes).garbageCollectPeers 0) := by
  have hyoung := crowdedHashes_youngTotal
  have hleft := total_of_wrap _ 0 hyoung
  refine ⟨hleft, fun h => ?_⟩
  have hnumber := h.number
  have hmax : (ofSaved 0 1000 1000 0 [] crowdedHashes).maxRememberedPeers.toNat = 1000 := rfl
  rw [hleft, hyoung, hmax] at hnumber
  omega

end Collection
end PeerStore
end LibrtbitDht
