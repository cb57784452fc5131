import LibrtbitDht.PeerStore
import LibrtbitDht.TransitionRuns

set_option autoImplicit false

namespace LibrtbitDht
open TransitionRuns
namespace PeerStore

def total (peers : Peers) : ℕ := peers.weight List.length

section Counting

theorem sum_ofNat (lengths : List ℕ) :
    (lengths.map (BitVec.ofNat 32)).sum = BitVec.ofNat 32 lengths.sum := by
  induction lengths with
  | nil => rfl
  | cons n ns ih => rw [List.map_cons, List.sum_cons, List.sum_cons, ih, BitVec.ofNat_add]

theorem count_eq (peers : Peers) : count peers = BitVec.ofNat 32 (total peers) := by
  have h := sum_ofNat (peers.entries.map (fun e => e.2.length))
  rw [List.map_map] at h
  exact h

theorem count_toNat (peers : Peers) : (count peers).toNat = total peers % 2 ^ 32 := by
  rw [count_eq, BitVec.toNat_ofNat]

end Counting

section Storing
variable {s : PeerStore} {announce : AnnouncePeer} {addr : SocketAddr}

/-- The announcement is near enough and presents a token issued to exactly its sender. -/
def Authorised (s : PeerStore) (announce : AnnouncePeer) (addr : SocketAddr) : Prop :=
  announce.infoHash.distance s.selfId ≤ s.maxDistance ∧
    ∃ t ∈ s.tokens, t.token.toList = announce.token ∧ t.addr = addr ∧ t.nodeId = announce.id

def Known (s : PeerStore) (infoHash : Id20) (addr : SocketAddr) : Prop :=
  ∃ stored, s.peers.get? infoHash = some stored ∧ ∃ p ∈ stored, p.addr = addr

inductive StoreCase (s : PeerStore) (announce : AnnouncePeer) (addr : SocketAddr) (now : DateTime) :
    Bool × PeerStore → Prop where
  | unauthorised (refused : ¬ s.Authorised announce addr) : StoreCase s announce addr now (false, s)
  | full (authorised : s.Authorised announce addr)
      (new : ¬ s.Known announce.infoHash (announcedAddr announce addr))
      (noRoom : ¬ s.peersLen < s.maxRememberedPeers) : StoreCase s announce addr now (false, s)
  | refreshed {pre post : List StoredPeer} {p : StoredPeer} (authorised : s.Authorised announce addr)
      (found : s.peers.get? announce.infoHash = some (pre ++ p :: post))
      (same : p.addr = announcedAddr announce addr) :
      StoreCase s announce addr now (true, { s with
        peers := s.peers.modify announce.infoHash (fun _ => pre ++ { p with time := now } :: post) })
  | appended {stored : List StoredPeer} (authorised : s.Authorised announce addr)
      (found : s.peers.get? announce.infoHash = some stored)
      (new : ∀ p ∈ stored, p.addr ≠ announcedAddr announce addr)
      (room : s.peersLen < s.maxRememberedPeers) :
      StoreCase s announce addr now (true, { s with
        peers := s.peers.modify announce.infoHash
          (fun stored => stored ++ [⟨announcedAddr announce addr, now⟩])
        peersLen := s.peersLen + 1 })
  | opened (authorised : s.Authorised announce addr) (new : s.peers.get? announce.infoHash = none)
      (room : s.peersLen < s.maxRememberedPeers) :
      StoreCase s announce addr now (true, { s with
        peers := s.peers.insert announce.infoHash [⟨announcedAddr announce addr, now⟩]
        peersLen := s.peersLen + 1 })

theorem storePeer_cases (s : PeerStore) (announce : AnnouncePeer) (addr : SocketAddr) (now : DateTime) :
    ∃ r, s.storePeer announce addr now = r ∧ StoreCase s announce addr now r := by
  refine ⟨_, rfl, ?_⟩
  unfold storePeer
  by_cases hfar : announce.infoHash.distance s.selfId > s.maxDistance
  · rw [if_pos hfar]
    exact .unauthorised fun h => absurd h.1 (BitVec.not_le.2 hfar)
  rw [if_neg hfar]
  have hnear : announce.infoHash.distance s.selfId ≤ s.maxDistance := BitVec.not_lt.1 hfar
  by_cases htoken : s.tokens.any (fun t =>
      t.token.toList = announce.token ∧ t.addr = addr ∧ t.nodeId = announce.id) = true
  · rw [if_neg (not_not.2 htoken)]
    have hauth : s.Authorised announce addr := by
      refine ⟨hnear, ?_⟩
      simpa only [List.any_eq_true, decide_eq_true_eq] using htoken
    dsimp only
    cases hget : s.peers.get? announce.infoHash with
    | none =>
      dsimp only
      by_cases hroom : s.peersLen < s.maxRememberedPeers
      · rw [if_neg (BitVec.not_le.2 hroom)]
        exact .opened hauth hget hroom
      · rw [if_pos (BitVec.not_lt.1 hroom)]
        refine .full hauth ?_ hroom
        rintro ⟨stored, hstored, _⟩
        rw [hget] at hstored
        cases hstored
    | some stored =>
      dsimp only
      cases hu : updateFirst (fun p => decide (p.addr = announcedAddr announce addr))
          (fun p => { p with time := now }) stored with
      | some found =>
        obtain ⟨p, stored'⟩ := found
        obtain ⟨pre, post, rfl, rfl, hp⟩ := updateFirst_eq_some hu
        exact .refreshed hauth hget (of_decide_eq_true hp)
      | none =>
        have hnone := updateFirst_eq_none hu
        have hnew : ∀ p ∈ stored, p.addr ≠ announcedAddr announce addr := by
          intro p hp
          exact of_decide_eq_false (hnone p hp)
        dsimp only
        by_cases hroom : s.peersLen < s.maxRememberedPeers
        · rw [if_neg (BitVec.not_le.2 hroom)]
          exact .appended hauth hget hnew hroom
        · rw [if_pos (BitVec.not_lt.1 hroom)]
          refine .full hauth ?_ hroom
          rintro ⟨stored', hstored', p, hp, haddr⟩
          cases hget.symm.trans hstored'
          exact hnew p hp haddr
  · rw [if_pos htoken]
    refine .unauthorised fun h => htoken ?_
    simpa only [List.any_eq_true, decide_eq_true_eq] using h.2

end Storing

section Shrinking
variable {m m' m'' : Peers}

def Shrinks (m m' : Peers) : Prop :=
  ∀ hash stored', m'.get? hash = some stored' →
    ∃ stored, m.get? hash = some stored ∧ stored'.Subperm stored

def NoneEmpty (m : Peers) : Prop := m.All (fun _ stored => stored ≠ [])

theorem Shrinks.refl (m : Peers) : Shrinks m m := fun _ stored h => ⟨stored, h, List.Subperm.refl stored⟩

theorem Shrinks.trans (first : Shrinks m m') (second : Shrinks m' m'') : Shrinks m m'' := by
  intro hash stored'' h
  obtain ⟨stored', h', hsub'⟩ := second hash stored'' h
  obtain ⟨stored, h, hsub⟩ := first hash stored' h'
  exact ⟨stored, h, hsub'.trans hsub⟩

theorem Shrinks.total_le (h : Shrinks m m') : total m' ≤ total m := by
  refine AssocMap.weight_le_of_get?_le List.length fun hash stored' hget => ?_
  obtain ⟨stored, hs, hsub⟩ := h hash stored' hget
  exact ⟨stored, hs, hsub.length_le⟩

theorem shrinks_mapValues (m : Peers) {f : List StoredPeer → List StoredPeer}
    (hf : ∀ stored, (f stored).Subperm stored) : Shrinks m (m.mapValues (fun _ stored => f stored)) := by
  intro hash stored' h
  rw [AssocMap.get?_mapValues, Option.map_eq_some_iff] at h
  obtain ⟨stored, hs, rfl⟩ := h
  exact ⟨stored, hs, hf stored⟩

theorem shrinks_retain (m : Peers) (p : Id20 → List StoredPeer → Bool) : Shrinks m (m.retain p) := by
  intro hash stored' h
  rw [AssocMap.get?_retain, Option.filter_eq_some_iff] at h
  exact ⟨stored', h.1, List.Subperm.refl stored'⟩

theorem shrinks_modify {hash : Id20} {stored left : List StoredPeer} (h : m.get? hash = some stored)
    (hsub : left.Subperm stored) : Shrinks m (m.modify hash (fun _ => left)) := by
  intro hash' stored' h'
  by_cases he : hash' = hash
  · subst he
    rw [AssocMap.get?_modify_self, h, Option.map_some, Option.some.injEq] at h'
    exact ⟨stored, h, h' ▸ hsub⟩
  · rw [AssocMap.get?_modify_of_ne m _ he] at h'
    exact ⟨stored', h', List.Subperm.refl stored'⟩

theorem trim_subperm (now : DateTime) (stored : List StoredPeer) : (trim now stored).Subperm stored := by
  unfold trim
  dsimp only
  split_ifs
  · have hperm := List.perm_insertionSort (fun a b : StoredPeer => a.time ≥ b.time)
      (stored.filter (fun p => p.time > now - peerTtl))
    exact (List.take_sublist _ _).subperm.trans (hperm.subperm.trans List.filter_sublist.subperm)
  · exact List.filter_sublist.subperm

theorem evictFront_eq (toEvict evicted : ℕ) (ps : List StoredPeer) (h : evicted ≤ toEvict) :
    evictFront toEvict evicted ps =
      (evicted + min ps.length (toEvict - evicted), ps.drop (toEvict - evicted)) := by
  induction ps generalizing evicted with
  | nil => simp [evictFront]
  | cons p ps ih =>
    rw [evictFront]
    by_cases hlt : evicted < toEvict
    · obtain ⟨k, hk⟩ : ∃ k, toEvict - evicted = k + 1 := ⟨toEvict - evicted - 1, by omega⟩
      have hk' : toEvict - (evicted + 1) = k := by omega
      rw [if_pos hlt, ih (evicted + 1) (by omega), hk, hk', List.drop_succ_cons, List.length_cons]
      refine Prod.ext ?_ rfl
      change evicted + 1 + min ps.length k = evicted + min (ps.length + 1) (k + 1)
      omega
    · have hzero : toEvict - evicted = 0 := by omega
      rw [if_neg hlt, hzero]
      simp

def putBack (m : Peers) (hash : Id20) (left : List StoredPeer) : Peers :=
  if left = [] then m.remove hash else m.modify hash (fun _ => left)

theorem evictLoop_visit {toEvict evicted : ℕ} {hash : Id20} {stored : List StoredPeer} (oldest : DateTime)
    (rest : List (Id20 × DateTime)) (hopen : evicted < toEvict) (hget : m.get? hash = some stored) :
    evictLoop toEvict evicted ((hash, oldest) :: rest) m =
      evictLoop toEvict (evicted + min stored.length (toEvict - evicted)) rest
        (putBack m hash ((stored.insertionSort (fun a b => a.time ≤ b.time)).drop (toEvict - evicted))) := by
  rw [evictLoop, if_neg (not_le.2 hopen), hget]
  dsimp only
  rw [evictFront_eq toEvict evicted _ hopen.le, (List.perm_insertionSort _ _).length_eq]
  rfl

theorem evictLoop_absent {toEvict evicted : ℕ} {hash : Id20} (oldest : DateTime) (rest : List (Id20 × DateTime))
    (hopen : evicted < toEvict) (hget : m.get? hash = none) :
    evictLoop toEvict evicted ((hash, oldest) :: rest) m = evictLoop toEvict evicted rest m := by
  rw [evictLoop, if_neg (not_le.2 hopen), hget]

theorem evictLoop_done {toEvict evicted : ℕ} (order : List (Id20 × DateTime)) (hdone : toEvict ≤ evicted) :
    evictLoop toEvict evicted order m = m := by
  cases order with
  | nil => rfl
  | cons e rest => rw [evictLoop, if_pos hdone]

theorem get?_putBack_of_ne (m : Peers) {hash other : Id20} (left : List StoredPeer) (h : other ≠ hash) :
    (putBack m hash left).get? other = m.get? other := by
  unfold putBack
  split_ifs
  · exact AssocMap.get?_remove_of_ne m h
  · exact AssocMap.get?_modify_of_ne m _ h

theorem putBack_shrinks {hash : Id20} {stored left : List StoredPeer} (h : m.get? hash = some stored)
    (hsub : left.Subperm stored) : Shrinks m (putBack m hash left) := by
  unfold putBack
  split_ifs
  · exact shrinks_retain m _
  · exact shrinks_modify h hsub

theorem NoneEmpty.putBack (h : NoneEmpty m) (hash : Id20) (left : List StoredPeer) :
    NoneEmpty (putBack m hash left) := by
  unfold PeerStore.putBack
  split_ifs with hempty
  · exact AssocMap.All.remove h hash
  · exact AssocMap.All.modify h fun _ _ => hempty

theorem evictLoop_shrinks (toEvict evicted : ℕ) (order : List (Id20 × DateTime)) (m : Peers)
    (nonempty : NoneEmpty m) :
    Shrinks m (evictLoop toEvict evicted order m) ∧ NoneEmpty (evictLoop toEvict evicted order m) := by
  induction order generalizing evicted m with
  | nil => exact ⟨.refl m, nonempty⟩
  | cons e rest ih =>
    obtain ⟨hash, oldest⟩ := e
    by_cases hopen : evicted < toEvict
    · cases hget : m.get? hash with
      | none =>
        rw [evictLoop_absent oldest rest hopen hget]
        exact ih evicted m nonempty
      | some stored =>
        rw [evictLoop_visit oldest rest hopen hget]
        have hsub : ((stored.insertionSort (fun a b => a.time ≤ b.time)).drop (toEvict - evicted)).Subperm stored :=
          (List.drop_sublist _ _).subperm.trans (List.perm_insertionSort _ stored).subperm
        obtain ⟨hshrinks, hne⟩ := ih _ _ (nonempty.putBack hash _)
        exact ⟨(putBack_shrinks hget hsub).trans hshrinks, hne⟩
    · rw [evictLoop_done _ (not_lt.1 hopen)]
      exact ⟨.refl m, nonempty⟩

theorem evictGlobally_shrinks (max : BitVec 32) (h : NoneEmpty m) :
    Shrinks m (evictGlobally max m) ∧ NoneEmpty (evictGlobally max m) := by
  unfold evictGlobally
  dsimp only
  split_ifs
  · exact evictLoop_shrinks _ 0 _ m h
  · exact ⟨.refl m, h⟩

theorem garbageCollectPeers_shrinks (s : PeerStore) (now : DateTime) :
    Shrinks s.peers (s.garbageCollectPeers now).peers ∧ NoneEmpty (s.garbageCollectPeers now).peers := by
  set trimmed := s.peers.mapValues (fun _ stored => trim now stored) with htrimmed
  set kept := trimmed.retain (fun _ stored => stored ≠ []) with hkept
  have hshrinks : Shrinks s.peers kept :=
    (shrinks_mapValues s.peers (trim_subperm now)).trans (shrinks_retain trimmed _)
  have hne : NoneEmpty kept := by
    intro hash stored h
    rw [hkept, AssocMap.get?_retain, Option.filter_eq_some_iff] at h
    simpa using h.2
  obtain ⟨hevict, hne'⟩ := evictGlobally_shrinks s.maxRememberedPeers hne
  exact ⟨hshrinks.trans hevict, hne'⟩

end Shrinking

section Counter
variable {s : PeerStore}

def Counted (s : PeerStore) : Prop := s.peersLen.toNat = total s.peers

theorem Counted.fits (h : s.Counted) : total s.peers < 2 ^ 32 := h ▸ s.peersLen.isLt

theorem counted_ofCount {m : Peers} (h : total m < 2 ^ 32) : (count m).toNat = total m := by
  rw [count_toNat, Nat.mod_eq_of_lt h]

theorem toNat_succ_of_room (h : s.peersLen < s.maxRememberedPeers) :
    (s.peersLen + 1).toNat = s.peersLen.toNat + 1 := by
  have hlt := BitVec.lt_def.1 h
  have hmax := s.maxRememberedPeers.isLt
  rw [BitVec.toNat_add]
  exact Nat.mod_eq_of_lt (by change s.peersLen.toNat + 1 < 2 ^ 32; omega)

theorem total_append {m : Peers} {hash : Id20} {stored : List StoredPeer} (h : m.get? hash = some stored)
    (p : StoredPeer) : total (m.modify hash (fun stored => stored ++ [p])) = total m + 1 := by
  have hw := AssocMap.weight_modify List.length m (fun stored => stored ++ [p]) h
  rw [List.length_append] at hw
  change total _ + stored.length = total m + (stored.length + 1) at hw
  omega

theorem total_insert {m : Peers} {hash : Id20} (h : m.get? hash = none) (p : StoredPeer) :
    total (m.insert hash [p]) = total m + 1 := by
  have hw := AssocMap.weight_insert_new List.length m [p] h
  change total _ = 1 + total m at hw
  omega

theorem total_refresh {m : Peers} {hash : Id20} {pre post : List StoredPeer} {p q : StoredPeer}
    (h : m.get? hash = some (pre ++ p :: post)) :
    total (m.modify hash (fun _ => pre ++ q :: post)) = total m := by
  have hw := AssocMap.weight_modify List.length m (fun _ => pre ++ q :: post) h
  have hlen : (pre ++ q :: post).length = (pre ++ p :: post).length := by simp
  rw [hlen] at hw
  exact Nat.add_right_cancel hw

theorem rehash_cases (s : PeerStore) (es : List (Id20 × List StoredPeer)) :
    s.rehash es = s ∨ ∃ h, s.rehash es = { s with peers := s.peers.reorder es h } := by
  unfold rehash
  split_ifs with h
  · exact .inr ⟨h, rfl⟩
  · exact .inl rfl

theorem Counted.step (h : s.Counted) (op : Op) : (s.step op).Counted := by
  cases op with
  | genTokenFor token nodeId addr now => exact h
  | storePeer announce addr now =>
    obtain ⟨r, hr, hcase⟩ := storePeer_cases s announce addr now
    change Counted (s.storePeer announce addr now).2
    rw [hr]
    cases hcase with
    | unauthorised refused => exact h
    | full authorised new noRoom => exact h
    | refreshed authorised found same => exact h.trans (total_refresh found).symm
    | appended authorised found new room =>
      exact (toNat_succ_of_room room).trans ((congrArg (· + 1) h).trans (total_append found _).symm)
    | opened authorised new room =>
      exact (toNat_succ_of_room room).trans ((congrArg (· + 1) h).trans (total_insert new _).symm)
  | getForInfoHash infoHash want => exact h
  | garbageCollectPeers now =>
    obtain ⟨hshrinks, _⟩ := garbageCollectPeers_shrinks s now
    exact counted_ofCount (hshrinks.total_le.trans_lt h.fits)
  | rehash es =>
    rcases s.rehash_cases es with he | ⟨hperm, he⟩
    · change Counted (s.rehash es)
      rw [he]
      exact h
    · change Counted (s.rehash es)
      rw [he]
      exact h.trans (AssocMap.weight_reorder List.length s.peers es hperm).symm

end Counter

section Invariant
variable {s : PeerStore}

structure Filed (s : PeerStore) (infoHash : Id20) (stored : List StoredPeer) : Prop where
  nonempty : stored ≠ []
  distinct : (stored.map StoredPeer.addr).Nodup
  near : infoHash.distance s.selfId ≤ s.maxDistance

/-- The counter is exact and within its limit, every list is in order, and tokens are within theirs. -/
structure Inv (s : PeerStore) : Prop where
  counted : s.peersLen.toNat = total s.peers
  bounded : s.peersLen ≤ s.maxRememberedPeers
  filed : s.peers.All s.Filed
  tokens : s.tokens.length ≤ s.maxRememberedTokens.toNat

structure SameLimits (s s' : PeerStore) : Prop where
  selfId : s'.selfId = s.selfId
  maxRememberedTokens : s'.maxRememberedTokens = s.maxRememberedTokens
  maxRememberedPeers : s'.maxRememberedPeers = s.maxRememberedPeers
  maxDistance : s'.maxDistance = s.maxDistance

theorem sameLimits_step (s : PeerStore) (op : Op) : SameLimits s (s.step op) := by
  cases op with
  | genTokenFor token nodeId addr now => exact ⟨rfl, rfl, rfl, rfl⟩
  | storePeer announce addr now =>
    obtain ⟨r, hr, hcase⟩ := storePeer_cases s announce addr now
    change SameLimits s (s.storePeer announce addr now).2
    rw [hr]
    cases hcase <;> exact ⟨rfl, rfl, rfl, rfl⟩
  | getForInfoHash infoHash want => exact ⟨rfl, rfl, rfl, rfl⟩
  | garbageCollectPeers now => exact ⟨rfl, rfl, rfl, rfl⟩
  | rehash es =>
    change SameLimits s (s.rehash es)
    rcases s.rehash_cases es with he | ⟨hperm, he⟩ <;> rw [he] <;> exact ⟨rfl, rfl, rfl, rfl⟩

theorem Filed.of_sameLimits {s' : PeerStore} (same : SameLimits s s') {infoHash : Id20}
    {stored : List StoredPeer} (h : s.Filed infoHash stored) : s'.Filed infoHash stored := by
  refine ⟨h.nonempty, h.distinct, ?_⟩
  rw [same.selfId, same.maxDistance]
  exact h.near

theorem new_inv (selfId : Id20) : (new selfId).Inv where
  counted := rfl
  bounded := by
    change (0 : BitVec 32) ≤ 1000
    decide
  filed := AssocMap.all_empty
  tokens := Nat.zero_le _

theorem genTokenFor_length (s : PeerStore) (h : s.tokens.length ≤ s.maxRememberedTokens.toNat)
    (token : Token) (nodeId : Id20) (addr : SocketAddr) (now : DateTime) :
    (s.genTokenFor token nodeId addr now).2.tokens.length ≤ s.maxRememberedTokens.toNat := by
  unfold genTokenFor
  dsimp only
  split_ifs with hlen
  · rw [List.length_tail, List.length_append, List.length_singleton]
    omega
  · omega

theorem succ_le_max (h : s.peersLen < s.maxRememberedPeers) : s.peersLen + 1 ≤ s.maxRememberedPeers := by
  rw [BitVec.le_def, toNat_succ_of_room h]
  exact BitVec.lt_def.1 h

theorem Inv.filed_storePeer (h : s.Inv) (announce : AnnouncePeer) (addr : SocketAddr) (now : DateTime) :
    (s.storePeer announce addr now).2.peers.All s.Filed := by
  obtain ⟨r, hr, hcase⟩ := storePeer_cases s announce addr now
  rw [hr]
  cases hcase with
  | unauthorised refused => exact h.filed
  | full authorised new noRoom => exact h.filed
  | @refreshed pre post p authorised found same =>
    have hold := h.filed _ _ found
    refine h.filed.modify fun _ _ => ⟨by simp, ?_, hold.near⟩
    simpa using hold.distinct
  | appended authorised found new room =>
    have hold := h.filed _ _ found
    refine h.filed.modify fun stored hstored => ?_
    cases found.symm.trans hstored
    refine ⟨by simp, ?_, hold.near⟩
    exact nodup_map_snoc StoredPeer.addr hold.distinct new
  | opened authorised new room =>
    exact h.filed.insert ⟨by simp, List.nodup_singleton _, authorised.1⟩

theorem Inv.bounded_storePeer (h : s.Inv) (announce : AnnouncePeer) (addr : SocketAddr) (now : DateTime) :
    (s.storePeer announce addr now).2.peersLen ≤ s.maxRememberedPeers := by
  obtain ⟨r, hr, hcase⟩ := storePeer_cases s announce addr now
  rw [hr]
  cases hcase with
  | unauthorised refused => exact h.bounded
  | full authorised new noRoom => exact h.bounded
  | refreshed authorised found same => exact h.bounded
  | appended authorised found new room => exact succ_le_max room
  | opened authorised new room => exact succ_le_max room

theorem storePeer_tokens (s : PeerStore) (announce : AnnouncePeer) (addr : SocketAddr) (now : DateTime) :
    (s.storePeer announce addr now).2.tokens = s.tokens := by
  obtain ⟨r, hr, hcase⟩ := storePeer_cases s announce addr now
  rw [hr]
  cases hcase <;> rfl

/-- An authorised peer that is not stored yet goes behind the others of its hash if there is room. -/
theorem storePeer_new (s : PeerStore) {announce : AnnouncePeer} {addr : SocketAddr} (now : DateTime)
    (authorised : s.Authorised announce addr) (room : s.peersLen < s.maxRememberedPeers)
    (fresh : ∀ p ∈ (s.peers.get? announce.infoHash).getD [], p.addr ≠ announcedAddr announce addr) :
    ((s.storePeer announce addr now).2.peers.get? announce.infoHash).getD [] =
        (s.peers.get? announce.infoHash).getD [] ++ [⟨announcedAddr announce addr, now⟩] ∧
      (s.storePeer announce addr now).2.peersLen.toNat = s.peersLen.toNat + 1 := by
  obtain ⟨r, hr, hcase⟩ := storePeer_cases s announce addr now
  rw [hr]
  cases hcase with
  | unauthorised refused => exact absurd authorised refused
  | full authorised new noRoom => exact absurd room noRoom
  | refreshed authorised found same =>
    rw [found, Option.getD_some] at fresh
    exact absurd same (fresh _ (by simp))
  | appended authorised found new room =>
    refine ⟨?_, toNat_succ_of_room room⟩
    rw [AssocMap.get?_modify_self, found]
    rfl
  | opened authorised new room =>
    refine ⟨?_, toNat_succ_of_room room⟩
    rw [AssocMap.get?_insert_self, new]
    rfl

theorem Inv.filed_garbageCollectPeers (h : s.Inv) (now : DateTime) :
    (s.garbageCollectPeers now).peers.All s.Filed := by
  obtain ⟨hshrinks, hne⟩ := garbageCollectPeers_shrinks s now
  intro hash stored hstored
  obtain ⟨before, hbefore, hsub⟩ := hshrinks hash stored hstored
  have hold := h.filed hash before hbefore
  refine ⟨hne hash stored hstored, ?_, hold.near⟩
  obtain ⟨l, hperm, hsublist⟩ := hsub
  refine (hperm.map StoredPeer.addr).nodup_iff.1 ?_
  exact hold.distinct.sublist (hsublist.map StoredPeer.addr)

theorem Inv.step (h : s.Inv) (op : Op) : (s.step op).Inv := by
  have same := sameLimits_step s op
  have counted : (s.step op).Counted := Counted.step h.counted op
  cases op with
  | genTokenFor token nodeId addr now =>
    exact ⟨counted, h.bounded, h.filed.mono fun _ _ hf => hf.of_sameLimits same,
      genTokenFor_length s h.tokens token nodeId addr now⟩
  | storePeer announce addr now =>
    refine ⟨counted, ?_, (h.filed_storePeer announce addr now).mono fun _ _ hf => hf.of_sameLimits same, ?_⟩
    · rw [same.maxRememberedPeers]
      exact h.bounded_storePeer announce addr now
    · rw [same.maxRememberedTokens]
      exact (congrArg List.length (storePeer_tokens s announce addr now)).trans_le h.tokens
  | getForInfoHash infoHash want => exact h
  | garbageCollectPeers now =>
    refine ⟨counted, ?_, (h.filed_garbageCollectPeers now).mono fun _ _ hf => hf.of_sameLimits same, ?_⟩
    · have hle := (garbageCollectPeers_shrinks s now).1.total_le
      have hmax := BitVec.le_def.1 h.bounded
      have hold := h.counted
      have hnew : (s.garbageCollectPeers now).peersLen.toNat = total (s.garbageCollectPeers now).peers :=
        counted
      change (s.garbageCollectPeers now).peersLen ≤ s.maxRememberedPeers
      rw [BitVec.le_def]
      omega
    · exact (List.length_filter_le _ _).trans h.tokens
  | rehash es =>
    rcases s.rehash_cases es with he | ⟨hperm, he⟩
    · change (s.rehash es).Inv
      rw [he]
      exact h
    · have hcount : Counted (s.rehash es) := counted
      have hsame : SameLimits s (s.rehash es) := same
      change (s.rehash es).Inv
      rw [he] at hcount hsame ⊢
      exact ⟨hcount, h.bounded, (h.filed.reorder es hperm).mono fun _ _ hf => hf.of_sameLimits hsame, h.tokens⟩

/-- From a new store the whole invariant holds after any calls. A store that was read back counts
its records exactly, then and after any calls, just when their number fits in the counter. -/
theorem history_counted (selfId : Id20) (maxTokens maxPeers : BitVec 32) (maxDistance : Id20)
    (tokens : List StoredToken) (peers : Peers) :
    (∀ ops, ((new selfId).run ops).Inv) ∧
    ((∀ ops, ((ofSaved selfId maxTokens maxPeers maxDistance tokens peers).run ops).Counted) ↔
      total peers < 2 ^ 32) := by
  constructor
  · intro ops
    exact foldl_invariant PeerStore.step Inv (new_inv selfId) (fun _ op h => h.step op) ops
  · constructor
    · intro h
      exact (h []).fits
    · intro hfits ops
      have hstart : (ofSaved selfId maxTokens maxPeers maxDistance tokens peers).Counted :=
        counted_ofCount hfits
      exact foldl_invariant PeerStore.step Counted hstart (fun _ op h => h.step op) ops

def crowded : Peers := AssocMap.empty.insert 0 (List.replicate (2 ^ 32) ⟨.v4 ⟨0, 0⟩, 0⟩)

theorem crowded_total : total crowded = 2 ^ 32 := by
  have hw := AssocMap.weight_insert_new List.length (AssocMap.empty : Peers)
    (List.replicate (2 ^ 32) ⟨.v4 ⟨0, 0⟩, 0⟩) (AssocMap.get?_empty 0)
  rw [List.length_replicate, AssocMap.weight_empty] at hw
  exact hw

/-- Read back, the crowded store counts no record at all. -/
theorem crowded_not_counted :
    (ofSaved 0 1000 1000 0 [] crowded).peersLen = 0 ∧ ¬ (ofSaved 0 1000 1000 0 [] crowded).Counted := by
  have hzero : (ofSaved 0 1000 1000 0 [] crowded).peersLen = 0 := by
    change count crowded = 0
    rw [count_eq, crowded_total]
    rfl
  refine ⟨hzero, fun h => ?_⟩
  have htotal : total (ofSaved 0 1000 1000 0 [] crowded).peers = 2 ^ 32 := crowded_total
  rw [Counted, hzero, htotal] at h
  cases h

end Invariant

end PeerStore
end LibrtbitDht
