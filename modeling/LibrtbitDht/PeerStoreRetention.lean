import LibrtbitDht.AnnounceAuthorisation

set_option autoImplicit false

namespace LibrtbitDht
namespace PeerStore
variable {s : PeerStore}

section Tokens

/-- The token is in the queue, with at most `n` after it. -/
def Remembered (s : PeerStore) (t : StoredToken) (n : ℕ) : Prop :=
  ∃ pre post, s.tokens = pre ++ t :: post ∧ post.length ≤ n

theorem genTokenFor_append {pre post : List StoredToken} (h : s.tokens = pre ++ post)
    (hlt : post.length < s.maxRememberedTokens.toNat) (token : Token) (nodeId : Id20) (addr : SocketAddr)
    (now : DateTime) :
    ∃ pre', (s.genTokenFor token nodeId addr now).2.tokens = pre' ++ (post ++ [⟨token, nodeId, addr, now⟩]) := by
  unfold genTokenFor
  dsimp only
  rw [h]
  split_ifs with hfull
  · cases pre with
    | nil =>
      simp only [List.nil_append, List.length_append, List.length_singleton] at hfull
      omega
    | cons oldest pre =>
      refine ⟨pre, ?_⟩
      rw [List.append_assoc]
      rfl
  · exact ⟨pre, List.append_assoc _ _ _⟩

theorem remembered_genTokenFor (hpos : 0 < s.maxRememberedTokens.toNat) (token : Token) (nodeId : Id20)
    (addr : SocketAddr) (now : DateTime) :
    (s.genTokenFor token nodeId addr now).2.Remembered ⟨token, nodeId, addr, now⟩ 0 := by
  obtain ⟨pre, htokens⟩ := genTokenFor_append (List.append_nil s.tokens).symm hpos token nodeId addr now
  exact ⟨pre, [], htokens, le_refl _⟩

def Op.sparesToken (issuedAt : DateTime) : Op → Prop
  | .garbageCollectPeers now => issuedAt > now - tokenTtl
  | _ => True

theorem Remembered.step {t : StoredToken} {n : ℕ} (h : s.Remembered t n) {op : Op} (hspares : op.sparesToken t.time)
    (hroom : n + op.issued.toList.length < s.maxRememberedTokens.toNat) :
    (s.step op).Remembered t (n + op.issued.toList.length) := by
  obtain ⟨pre, post, htokens, hlength⟩ := h
  cases op with
  | genTokenFor token nodeId addr now =>
    change n + 1 < _ at hroom
    have hlt : (t :: post).length < s.maxRememberedTokens.toNat := by
      rw [List.length_cons]
      omega
    obtain ⟨pre', htokens'⟩ := genTokenFor_append htokens hlt token nodeId addr now
    rw [List.cons_append] at htokens'
    refine ⟨pre', _, htokens', ?_⟩
    rw [List.length_append]
    exact Nat.add_le_add_right hlength 1
  | storePeer announce addr now => exact ⟨pre, post, (storePeer_tokens s announce addr now).trans htokens, hlength⟩
  | getForInfoHash infoHash want => exact ⟨pre, post, htokens, hlength⟩
  | garbageCollectPeers now =>
    set fresh : StoredToken → Bool := fun t => t.time > now - tokenTtl
    have hkept : fresh t = true := decide_eq_true hspares
    refine ⟨pre.filter fresh, post.filter fresh, ?_, (List.length_filter_le fresh post).trans hlength⟩
    change s.tokens.filter fresh = _
    rw [htokens, List.filter_append, List.filter_cons_of_pos hkept]
  | rehash es =>
    refine ⟨pre, post, Eq.trans ?_ htokens, hlength⟩
    change (s.rehash es).tokens = s.tokens
    rcases s.rehash_cases es with he | ⟨_, he⟩ <;> rw [he]

theorem Remembered.mem {t : StoredToken} {n : ℕ} (h : s.Remembered t n) : t ∈ s.tokens := by
  obtain ⟨pre, post, htokens, _⟩ := h
  rw [htokens]
  simp

end Tokens

section Peers

/-- No garbage collection finds the peer old or too many others beside it. -/
def sparesPeer (s : PeerStore) (infoHash : Id20) (a : SocketAddr) : Op → Prop
  | .garbageCollectPeers now => ∀ stored ∈ s.peers.get? infoHash,
      (∀ p ∈ stored, p.addr = a → p.time > now - peerTtl) ∧
      (stored.filter (fun p => p.time > now - peerTtl)).length ≤ maxPeersPerInfoHash
  | _ => True

/-- The counter keeps the store within its limit, so a garbage collection evicts nothing globally. -/
theorem Inv.garbageCollectPeers_peers (h : s.Inv) (now : DateTime) :
    (s.garbageCollectPeers now).peers =
      (s.peers.mapValues (fun _ stored => trim now stored)).retain (fun _ stored => stored ≠ []) := by
  unfold garbageCollectPeers
  dsimp only
  set kept := (s.peers.mapValues (fun _ stored => trim now stored)).retain (fun _ stored => stored ≠ []) with hkept
  have hshrinks : Shrinks s.peers kept :=
    (shrinks_mapValues s.peers (trim_subperm now)).trans (shrinks_retain _ _)
  have hfew := hshrinks.total_le
  have hcounted := h.counted
  have hbounded := BitVec.le_def.1 h.bounded
  have hcount : (count kept).toNat ≤ total kept := by
    rw [count_toNat]
    exact Nat.mod_le _ _
  unfold evictGlobally
  dsimp only
  rw [if_neg]
  rw [gt_iff_lt, BitVec.lt_def]
  omega

theorem Known.garbageCollectPeers {infoHash : Id20} {a : SocketAddr} (h : s.Known infoHash a) (inv : s.Inv)
    {now : DateTime} (hspares : s.sparesPeer infoHash a (.garbageCollectPeers now)) :
    (s.garbageCollectPeers now).Known infoHash a := by
  obtain ⟨stored, hstored, p, hp, haddr⟩ := h
  obtain ⟨hfresh, hfew⟩ := hspares stored hstored
  have htrim : trim now stored = stored.filter (fun p => p.time > now - peerTtl) := by
    unfold trim
    dsimp only
    rw [if_neg (not_lt.2 hfew)]
  have hmem : p ∈ trim now stored := by
    rw [htrim]
    exact List.mem_filter.2 ⟨hp, decide_eq_true (hfresh p hp haddr)⟩
  refine ⟨trim now stored, ?_, p, hmem, haddr⟩
  rw [inv.garbageCollectPeers_peers, AssocMap.get?_retain, AssocMap.get?_mapValues, hstored]
  exact Option.filter_some_pos (decide_eq_true (List.ne_nil_of_mem hmem))

theorem Known.spared {infoHash : Id20} {a : SocketAddr} (h : s.Known infoHash a) (inv : s.Inv) {op : Op}
    (hspares : s.sparesPeer infoHash a op) : (s.step op).Known infoHash a := by
  cases op with
  | garbageCollectPeers now => exact h.garbageCollectPeers inv hspares
  | genTokenFor token nodeId addr now => exact h.step rfl
  | storePeer announce addr now => exact h.step rfl
  | getForInfoHash infoHash' want => exact h.step rfl
  | rehash es => exact h.step rfl

theorem known_of_mem_getForInfoHash {infoHash : Id20} {a : SocketAddr} {want : Want}
    (h : a ∈ s.getForInfoHash infoHash want) : s.Known infoHash a := by
  unfold getForInfoHash at h
  cases hstored : s.peers.get? infoHash with
  | none => simp [hstored] at h
  | some stored =>
    rw [hstored] at h
    obtain ⟨p, hp, haddr⟩ := List.mem_map.1 h
    exact ⟨stored, hstored, p, List.mem_of_mem_filter hp, haddr⟩

theorem Inv.near_of_known (h : s.Inv) {infoHash : Id20} {a : SocketAddr} (hknown : s.Known infoHash a) :
    infoHash.distance s.selfId ≤ s.maxDistance := by
  obtain ⟨stored, hstored, _⟩ := hknown
  exact (h.filed infoHash stored hstored).near

end Peers
end PeerStore
end LibrtbitDht
