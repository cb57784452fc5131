import LibrtbitDht.PeerStoreInvariant

set_option autoImplicit false

namespace LibrtbitDht
open TransitionRuns
namespace PeerStore

def Op.time : Op → Option DateTime
  | .genTokenFor _ _ _ now => some now
  | .storePeer _ _ now => some now
  | .garbageCollectPeers now => some now
  | _ => none

def Chronological (ops : List Op) : Prop := (ops.filterMap Op.time).Pairwise (· ≤ ·)

instance (ops : List Op) : Decidable (Chronological ops) :=
  inferInstanceAs (Decidable ((ops.filterMap Op.time).Pairwise (· ≤ ·)))

def Op.issued : Op → Option StoredToken
  | .genTokenFor token nodeId addr now => some ⟨token, nodeId, addr, now⟩
  | _ => none

def issued (ops : List Op) : List StoredToken := ops.filterMap Op.issued

def lastIssued (max : ℕ) (ops : List Op) : List StoredToken :=
  (issued ops).drop ((issued ops).length - max)

/-- A garbage collection run found the token to be at least ten minutes old. -/
def foundOld (ops : List Op) (t : StoredToken) : Bool :=
  ops.any fun op =>
    match op with
    | .garbageCollectPeers now => decide (now - t.time ≥ minutes 10)
    | _ => false

/-- The tokens are the last ones issued that no garbage collection found old, in that order. -/
def TokensRetained (ops : List Op) (s : PeerStore) : Prop :=
  s.tokens = (lastIssued s.maxRememberedTokens.toNat ops).filter (fun t => !foundOld ops t)

section Tokens
variable {ops : List Op}

theorem issued_snoc (ops : List Op) (op : Op) : issued (ops ++ [op]) = issued ops ++ op.issued.toList := by
  unfold issued
  rw [filterMap_snoc]

theorem Chronological.before {op : Op} (h : Chronological (ops ++ [op])) : Chronological ops := by
  unfold Chronological at h ⊢
  rw [List.filterMap_append, List.pairwise_append] at h
  exact h.1

theorem Chronological.le_last {op : Op} {now : DateTime} (h : Chronological (ops ++ [op]))
    (hop : op.time = some now) : ∀ earlier ∈ ops, ∀ t, earlier.time = some t → t ≤ now := by
  unfold Chronological at h
  rw [List.filterMap_append, List.pairwise_append] at h
  intro earlier hmem t ht
  refine h.2.2 t (List.mem_filterMap.2 ⟨earlier, hmem, ht⟩) now ?_
  simp [hop]

theorem issued_times_sublist (ops : List Op) :
    ((issued ops).map StoredToken.time).Sublist (ops.filterMap Op.time) := by
  induction ops with
  | nil => exact List.Sublist.refl _
  | cons op ops ih =>
    unfold issued at ih ⊢
    cases op with
    | genTokenFor token nodeId addr now => exact ih.cons_cons now
    | storePeer announce addr now => exact ih.cons now
    | getForInfoHash infoHash want => exact ih
    | garbageCollectPeers now => exact ih.cons now
    | rehash es => exact ih

theorem Chronological.issued_sorted (h : Chronological ops) :
    (issued ops).Pairwise (fun a b => a.time ≤ b.time) :=
  List.pairwise_map.1 (h.sublist (issued_times_sublist ops))

theorem foundOld_snoc (op : Op) (t : StoredToken) :
    foundOld (ops ++ [op]) t = (foundOld ops t || foundOld [op] t) := by
  unfold foundOld
  rw [List.any_append]

theorem foundOld_iff (t : StoredToken) :
    foundOld ops t = true ↔ ∃ now, Op.garbageCollectPeers now ∈ ops ∧ now - t.time ≥ minutes 10 := by
  unfold foundOld
  rw [List.any_eq_true]
  constructor
  · rintro ⟨op, hmem, hop⟩
    cases op with
    | garbageCollectPeers now => exact ⟨now, hmem, of_decide_eq_true hop⟩
    | _ => cases hop
  · rintro ⟨now, hmem, hold⟩
    exact ⟨_, hmem, decide_eq_true hold⟩

theorem foundOld_mono {t u : StoredToken} (hle : t.time ≤ u.time) (h : foundOld ops u = true) :
    foundOld ops t = true := by
  obtain ⟨now, hmem, hold⟩ := (foundOld_iff u).1 h
  exact (foundOld_iff t).2 ⟨now, hmem, le_trans hold (sub_le_sub_left hle now)⟩

theorem Chronological.not_foundOld {op : Op} {t : StoredToken} (h : Chronological (ops ++ [op]))
    (hop : op.time = some t.time) : foundOld ops t = false := by
  refine Bool.eq_false_iff.2 fun hold => ?_
  obtain ⟨now, hmem, hage⟩ := (foundOld_iff t).1 hold
  have hle := h.le_last hop _ hmem now rfl
  have hpos : (0 : TimeDelta) < minutes 10 := by decide
  exact absurd (le_trans hage (sub_nonpos.2 hle)) (not_le.2 hpos)

/-- The window moves by one. Its first token goes, and if it was not found old, neither was any
other, so the queue was full and gave it up. -/
theorem window_snoc (max : ℕ) {ts : List StoredToken} {t : StoredToken} {p : StoredToken → Bool}
    (sorted : ts.Pairwise (fun a b => p a = true → p b = true)) (ht : p t = true) :
    (let queue := (ts.drop (ts.length - max)).filter p ++ [t]
      if queue.length > max then queue.tail else queue) =
      ((ts ++ [t]).drop ((ts ++ [t]).length - max)).filter p := by
  have hlen := List.length_filter_le p (ts.drop (ts.length - max))
  rw [List.length_drop] at hlen
  rw [List.length_append, List.length_singleton]
  dsimp only
  rw [List.length_append, List.length_singleton]
  by_cases hshort : ts.length + 1 ≤ max
  · have hzero : ts.length - max = 0 := by omega
    have hzero' : ts.length + 1 - max = 0 := by omega
    rw [if_neg (by omega), hzero, hzero', List.drop_zero, List.drop_zero, List.filter_append,
      List.filter_singleton, ht]
    rfl
  cases hmax : max with
  | zero =>
    have hall : ts.length - 0 = ts.length := by omega
    have hall' : (ts ++ [t]).length ≤ ts.length + 1 - 0 := by simp
    rw [hall, List.drop_length, List.drop_eq_nil_of_le hall']
    rfl
  | succ m =>
    subst hmax
    have hlt : ts.length - (m + 1) < ts.length := by omega
    have hnext : ts.length + 1 - (m + 1) = ts.length - (m + 1) + 1 := by omega
    have hle : ts.length - (m + 1) + 1 ≤ ts.length := by omega
    have hcons := List.drop_eq_getElem_cons hlt
    rw [hnext, List.drop_append_of_le_length hle, List.filter_append, List.filter_singleton, ht]
    set x := ts[ts.length - (m + 1)] with hx
    set rest := ts.drop (ts.length - (m + 1) + 1) with hrest
    have hrestlen : rest.length = m := by
      rw [hrest, List.length_drop]
      omega
    rw [hcons] at hlen ⊢
    by_cases hp : p x = true
    · have hsorted : (x :: rest).Pairwise (fun a b => p a = true → p b = true) := by
        rw [← hcons]
        exact sorted.sublist (List.drop_sublist _ _)
      have hall : ∀ a ∈ rest, p a = true := fun a ha => (List.pairwise_cons.1 hsorted).1 a ha hp
      have hfilter : rest.filter p = rest := List.filter_eq_self.2 hall
      rw [List.filter_cons_of_pos hp, hfilter, List.length_cons, hrestlen, if_pos (by omega)]
      rfl
    · have hle' := List.length_filter_le p rest
      rw [List.filter_cons_of_neg hp, if_neg (by omega)]
      rfl

section Retained
variable {s : PeerStore}

theorem TokensRetained.quiet (ih : TokensRetained ops s) {op : Op} (hnone : op.issued = none)
    (hold : ∀ t, foundOld [op] t = false) (htokens : (s.step op).tokens = s.tokens) :
    TokensRetained (ops ++ [op]) (s.step op) := by
  have hs : s.tokens = _ := ih
  unfold TokensRetained lastIssued
  rw [htokens, (sameLimits_step s op).maxRememberedTokens, issued_snoc, hnone, Option.toList_none,
    List.append_nil, hs]
  apply List.filter_congr
  intro t _
  rw [foundOld_snoc, hold t, Bool.or_false]

theorem TokensRetained.genTokenFor (ih : TokensRetained ops s) {token : Token} {nodeId : Id20}
    {addr : SocketAddr} {now : DateTime}
    (clock : Chronological (ops ++ [.genTokenFor token nodeId addr now])) :
    TokensRetained (ops ++ [.genTokenFor token nodeId addr now])
      (s.step (.genTokenFor token nodeId addr now)) := by
  have hs : s.tokens = _ := ih
  have same := sameLimits_step s (.genTokenFor token nodeId addr now)
  set t : StoredToken := ⟨token, nodeId, addr, now⟩ with ht
  have hold : ∀ u, foundOld (ops ++ [.genTokenFor token nodeId addr now]) u = foundOld ops u := by
    intro u
    rw [foundOld_snoc]
    exact Bool.or_false _
  have hnew : (!foundOld ops t) = true := by rw [clock.not_foundOld (t := t) rfl]; rfl
  have hsorted : (issued ops).Pairwise
      (fun a b => (!foundOld ops a) = true → (!foundOld ops b) = true) := by
    refine clock.before.issued_sorted.imp fun hle ha => ?_
    rw [Bool.not_eq_true'] at ha ⊢
    exact Bool.eq_false_iff.2 fun hb => Bool.eq_false_iff.1 ha (foundOld_mono hle hb)
  have hwindow := window_snoc s.maxRememberedTokens.toNat hsorted hnew
  unfold TokensRetained lastIssued
  rw [same.maxRememberedTokens, issued_snoc]
  simp only [hold]
  refine Eq.trans ?_ hwindow
  change (s.genTokenFor token nodeId addr now).2.tokens = _
  unfold PeerStore.genTokenFor
  rw [hs]
  rfl

theorem expired_eq_foundOld (now : DateTime) (t : StoredToken) :
    decide (t.time > now - tokenTtl) = !foundOld [.garbageCollectPeers now] t := by
  have hage : t.time > now - minutes 10 ↔ ¬ now - t.time ≥ minutes 10 := by
    rw [gt_iff_lt, ge_iff_le, not_le]
    exact sub_lt_comm
  change decide (t.time > now - minutes 10) = !(decide (now - t.time ≥ minutes 10) || false)
  rw [decide_eq_decide.2 hage, decide_not, Bool.or_false]

theorem TokensRetained.garbageCollectPeers (ih : TokensRetained ops s) (now : DateTime) :
    TokensRetained (ops ++ [.garbageCollectPeers now]) (s.step (.garbageCollectPeers now)) := by
  have hs : s.tokens = _ := ih
  have hnone : (Op.garbageCollectPeers now).issued = none := rfl
  unfold TokensRetained lastIssued
  rw [(sameLimits_step s (.garbageCollectPeers now)).maxRememberedTokens, issued_snoc, hnone,
    Option.toList_none, List.append_nil]
  change s.tokens.filter (fun t => decide (t.time > now - tokenTtl)) = _
  rw [hs, List.filter_filter]
  apply List.filter_congr
  intro t _
  rw [foundOld_snoc, Bool.not_or, expired_eq_foundOld, Bool.and_comm]

theorem tokens_retained (s₀ : PeerStore) (empty : s₀.tokens = []) (ops : List Op)
    (clock : Chronological ops) : TokensRetained ops (s₀.run ops) := by
  suffices h : Chronological ops → TokensRetained ops (s₀.run ops) from h clock
  refine foldl_history PeerStore.step (fun ops s => Chronological ops → TokensRetained ops s) ?_ ?_ ops
  · intro _
    unfold TokensRetained lastIssued issued
    rw [empty, List.filterMap_nil, List.drop_nil, List.filter_nil]
  rintro ops s op _ ih clock
  have before := ih clock.before
  cases op with
  | genTokenFor token nodeId addr now => exact before.genTokenFor clock
  | storePeer announce addr now =>
    exact before.quiet rfl (fun _ => rfl) (storePeer_tokens s announce addr now)
  | getForInfoHash infoHash want => exact before.quiet rfl (fun _ => rfl) rfl
  | garbageCollectPeers now => exact before.garbageCollectPeers now
  | rehash es =>
    refine before.quiet rfl (fun _ => rfl) ?_
    change (s.rehash es).tokens = s.tokens
    rcases s.rehash_cases es with he | ⟨hperm, he⟩ <;> rw [he]

end Retained

end Tokens

def wantOf (addr : SocketAddr) : Want := if addr.isIpv4 then .v4 else .v6

def Op.isGarbageCollection : Op → Bool
  | .garbageCollectPeers _ => true
  | _ => false

/-- When an announcement is stored, and what it leaves behind. -/
structure AnnounceLaw (s : PeerStore) : Prop where
  accepts : ∀ announce addr now, (s.storePeer announce addr now).1 = true ↔
    s.Authorised announce addr ∧ (s.Known announce.infoHash (announcedAddr announce addr) ∨
      s.peersLen < s.maxRememberedPeers)
  returned : ∀ announce addr now, (s.storePeer announce addr now).1 = true →
    ∀ later : List Op, (∀ op ∈ later, op.isGarbageCollection = false) →
    ∀ want, want = wantOf (announcedAddr announce addr) ∨ want = .both →
      announcedAddr announce addr ∈
        ((s.storePeer announce addr now).2.run later).getForInfoHash announce.infoHash want
  refused : ∀ announce addr now, (s.storePeer announce addr now).1 = false →
    (s.storePeer announce addr now).2 = s

section Announcing
variable {s : PeerStore} {announce : AnnouncePeer} {addr : SocketAddr}

theorem storePeer_true_iff (s : PeerStore) (announce : AnnouncePeer) (addr : SocketAddr) (now : DateTime) :
    (s.storePeer announce addr now).1 = true ↔
      s.Authorised announce addr ∧ (s.Known announce.infoHash (announcedAddr announce addr) ∨
        s.peersLen < s.maxRememberedPeers) := by
  obtain ⟨r, hr, hcase⟩ := storePeer_cases s announce addr now
  rw [hr]
  cases hcase with
  | unauthorised refused => exact ⟨fun h => absurd h (by simp), fun h => absurd h.1 refused⟩
  | full authorised new noRoom =>
    exact ⟨fun h => absurd h (by simp), fun h => absurd h.2 (not_or.2 ⟨new, noRoom⟩)⟩
  | refreshed authorised found same =>
    exact ⟨fun _ => ⟨authorised, .inl ⟨_, found, _, by simp, same⟩⟩, fun _ => rfl⟩
  | appended authorised found new room => exact ⟨fun _ => ⟨authorised, .inr room⟩, fun _ => rfl⟩
  | opened authorised new room => exact ⟨fun _ => ⟨authorised, .inr room⟩, fun _ => rfl⟩

theorem storePeer_refused (s : PeerStore) (announce : AnnouncePeer) (addr : SocketAddr) (now : DateTime)
    (h : (s.storePeer announce addr now).1 = false) : (s.storePeer announce addr now).2 = s := by
  obtain ⟨r, hr, hcase⟩ := storePeer_cases s announce addr now
  rw [hr] at h ⊢
  cases hcase with
  | unauthorised _ => rfl
  | full _ _ _ => rfl
  | refreshed _ _ _ => cases h
  | appended _ _ _ _ => cases h
  | opened _ _ _ => cases h

theorem known_storePeer (s : PeerStore) (announce : AnnouncePeer) (addr : SocketAddr) (now : DateTime)
    (h : (s.storePeer announce addr now).1 = true) :
    (s.storePeer announce addr now).2.Known announce.infoHash (announcedAddr announce addr) := by
  obtain ⟨r, hr, hcase⟩ := storePeer_cases s announce addr now
  rw [hr] at h ⊢
  cases hcase with
  | unauthorised _ => cases h
  | full _ _ _ => cases h
  | @refreshed pre post p authorised found same =>
    refine ⟨pre ++ { p with time := now } :: post, ?_, { p with time := now }, by simp, same⟩
    change AssocMap.get? (AssocMap.modify _ _ _) _ = _
    rw [AssocMap.get?_modify_self, found, Option.map_some]
  | @appended stored authorised found new room =>
    refine ⟨stored ++ [⟨announcedAddr announce addr, now⟩], ?_, ⟨announcedAddr announce addr, now⟩, by simp, rfl⟩
    change AssocMap.get? (AssocMap.modify _ _ _) _ = _
    rw [AssocMap.get?_modify_self, found, Option.map_some]
  | opened authorised new room =>
    refine ⟨[⟨announcedAddr announce addr, now⟩], ?_, ⟨announcedAddr announce addr, now⟩, by simp, rfl⟩
    change AssocMap.get? (AssocMap.insert _ _ _) _ = _
    rw [AssocMap.get?_insert_self]

theorem Known.modify {infoHash : Id20} {a : SocketAddr} (h : s.Known infoHash a) {s' : PeerStore} (hash : Id20)
    (f : List StoredPeer → List StoredPeer) (hpeers : s'.peers = s.peers.modify hash f)
    (hkeeps : ∀ stored, s.peers.get? hash = some stored → ∀ q ∈ stored, ∃ q' ∈ f stored, q'.addr = q.addr) :
    s'.Known infoHash a := by
  obtain ⟨stored, hstored, q, hq, rfl⟩ := h
  unfold Known
  rw [hpeers]
  by_cases he : infoHash = hash
  · subst he
    rw [AssocMap.get?_modify_self, hstored, Option.map_some]
    exact ⟨f stored, rfl, hkeeps stored hstored q hq⟩
  · rw [AssocMap.get?_modify_of_ne _ _ he]
    exact ⟨stored, hstored, q, hq, rfl⟩

theorem Known.storePeer {infoHash : Id20} {a : SocketAddr} (h : s.Known infoHash a)
    (announce : AnnouncePeer) (addr : SocketAddr) (now : DateTime) :
    (s.storePeer announce addr now).2.Known infoHash a := by
  obtain ⟨r, hr, hcase⟩ := storePeer_cases s announce addr now
  rw [hr]
  cases hcase with
  | unauthorised _ => exact h
  | full _ _ _ => exact h
  | @refreshed pre post p authorised found same =>
    refine h.modify announce.infoHash (fun _ => pre ++ { p with time := now } :: post) rfl ?_
    intro stored hstored q hq
    cases found.symm.trans hstored
    rcases List.mem_append.1 hq with hq | hq
    · exact ⟨q, List.mem_append_left _ hq, rfl⟩
    · rcases List.mem_cons.1 hq with rfl | hq
      · exact ⟨{ q with time := now }, by simp, rfl⟩
      · exact ⟨q, by simp [hq], rfl⟩
  | @appended before authorised found new room =>
    refine h.modify announce.infoHash (fun stored => stored ++ [⟨announcedAddr announce addr, now⟩]) rfl ?_
    intro stored _ q hq
    exact ⟨q, List.mem_append_left _ hq, rfl⟩
  | opened authorised new room =>
    obtain ⟨stored, hstored, hq⟩ := h
    have he : infoHash ≠ announce.infoHash := by
      rintro rfl
      cases new.symm.trans hstored
    refine ⟨stored, ?_, hq⟩
    change AssocMap.get? (AssocMap.insert _ _ _) _ = _
    rw [AssocMap.get?_insert_of_ne _ _ he, hstored]

theorem Known.step {infoHash : Id20} {a : SocketAddr} (h : s.Known infoHash a) {op : Op}
    (hop : op.isGarbageCollection = false) : (s.step op).Known infoHash a := by
  cases op with
  | genTokenFor token nodeId addr now => exact h
  | storePeer announce addr now => exact h.storePeer announce addr now
  | getForInfoHash infoHash' want => exact h
  | garbageCollectPeers now => cases hop
  | rehash es =>
    change (s.rehash es).Known infoHash a
    rcases s.rehash_cases es with he | ⟨hperm, he⟩
    · rw [he]
      exact h
    · obtain ⟨stored, hstored, hq⟩ := h
      rw [he]
      exact ⟨stored, (AssocMap.get?_reorder s.peers es hperm infoHash).trans hstored, hq⟩

theorem Known.run {infoHash : Id20} {a : SocketAddr} (h : s.Known infoHash a) {later : List Op}
    (hlater : ∀ op ∈ later, op.isGarbageCollection = false) : (s.run later).Known infoHash a := by
  induction later generalizing s with
  | nil => exact h
  | cons op later ih =>
    exact ih (h.step (hlater op List.mem_cons_self)) fun op' hop' => hlater op' (List.mem_cons_of_mem _ hop')

theorem wanted_of {want : Want} {a : SocketAddr} (h : want = wantOf a ∨ want = .both) :
    wanted want a = true := by
  rcases h with rfl | rfl <;> cases a <;> rfl

theorem Known.mem_getForInfoHash {infoHash : Id20} {a : SocketAddr} (h : s.Known infoHash a) {want : Want}
    (hwant : want = wantOf a ∨ want = .both) : a ∈ s.getForInfoHash infoHash want := by
  obtain ⟨stored, hstored, p, hp, rfl⟩ := h
  unfold getForInfoHash
  rw [hstored]
  exact List.mem_map.2 ⟨p, List.mem_filter.2 ⟨hp, wanted_of hwant⟩, rfl⟩

theorem announceLaw (s : PeerStore) : s.AnnounceLaw where
  accepts := storePeer_true_iff s
  returned announce addr now h _ hlater _ hwant :=
    ((known_storePeer s announce addr now h).run hlater).mem_getForInfoHash hwant
  refused := storePeer_refused s

end Announcing

/-- The run issued a token to a sender, who announced this address under this info hash with it. -/
def Granted (ops : List Op) (infoHash : Id20) (a : SocketAddr) : Prop :=
  ∃ before token nodeId sender issuedAt between announce now after,
    ops = before ++ .genTokenFor token nodeId sender issuedAt :: between ++
      .storePeer announce sender now :: after ∧
    announce.infoHash = infoHash ∧ announce.id = nodeId ∧ announce.token = token.toList ∧
    announcedAddr announce sender = a ∧ a.ip = sender.ip

section Provenance
variable {s : PeerStore} {ops : List Op}

theorem Granted.snoc {infoHash : Id20} {a : SocketAddr} (h : Granted ops infoHash a) (op : Op) :
    Granted (ops ++ [op]) infoHash a := by
  obtain ⟨before, token, nodeId, sender, issuedAt, between, announce, now, after, rfl, rest⟩ := h
  exact ⟨before, token, nodeId, sender, issuedAt, between, announce, now, after ++ [op], by simp, rest⟩

theorem announcedAddr_ip (announce : AnnouncePeer) (addr : SocketAddr) :
    (announcedAddr announce addr).ip = addr.ip := by
  unfold announcedAddr
  split_ifs
  · exact SocketAddr.ip_setPort addr announce.port
  · rfl

/-- Every token was issued, and every peer was granted. -/
structure Provenance (ops : List Op) (s : PeerStore) : Prop where
  tokens : ∀ t ∈ s.tokens, Op.genTokenFor t.token t.nodeId t.addr t.time ∈ ops
  peers : s.peers.All (fun infoHash stored => ∀ p ∈ stored, Granted ops infoHash p.addr)

theorem Provenance.granted (h : Provenance ops s) {announce : AnnouncePeer} {addr : SocketAddr}
    (authorised : s.Authorised announce addr) (now : DateTime) :
    Granted (ops ++ [.storePeer announce addr now]) announce.infoHash (announcedAddr announce addr) := by
  obtain ⟨_, t, ht, htoken, haddr, hid⟩ := authorised
  obtain ⟨before, between, hsplit⟩ := List.append_of_mem (h.tokens t ht)
  refine ⟨before, t.token, t.nodeId, addr, t.time, between, announce, now, [], ?_, rfl, hid.symm,
    htoken.symm, rfl, announcedAddr_ip announce addr⟩
  rw [hsplit, haddr]

theorem Provenance.storePeer (h : Provenance ops s) (announce : AnnouncePeer) (addr : SocketAddr)
    (now : DateTime) : AssocMap.All (s.storePeer announce addr now).2.peers
      (fun infoHash stored => ∀ p ∈ stored, Granted (ops ++ [.storePeer announce addr now]) infoHash p.addr) := by
  have hpeers := h.peers.mono fun _ _ hall p hp => (hall p hp).snoc (.storePeer announce addr now)
  obtain ⟨r, hr, hcase⟩ := storePeer_cases s announce addr now
  rw [hr]
  cases hcase with
  | unauthorised _ => exact hpeers
  | full _ _ _ => exact hpeers
  | @refreshed pre post q authorised found same =>
    refine hpeers.modify fun _ _ p hp => ?_
    have hold := hpeers announce.infoHash _ found
    rcases List.mem_append.1 hp with hp | hp
    · exact hold p (List.mem_append_left _ hp)
    · rcases List.mem_cons.1 hp with rfl | hp
      · exact hold q (by simp)
      · exact hold p (by simp [hp])
  | @appended stored authorised found new room =>
    refine hpeers.modify fun before hbefore p hp => ?_
    rcases List.mem_append.1 hp with hp | hp
    · exact hpeers _ before hbefore p hp
    · rw [List.mem_singleton.1 hp]
      exact h.granted authorised now
  | opened authorised new room =>
    refine hpeers.insert fun p hp => ?_
    rw [List.mem_singleton.1 hp]
    exact h.granted authorised now

theorem Provenance.step (h : Provenance ops s) (op : Op) : Provenance (ops ++ [op]) (s.step op) := by
  have hkept : ∀ t ∈ s.tokens, Op.genTokenFor t.token t.nodeId t.addr t.time ∈ ops ++ [op] :=
    fun t ht => List.mem_append_left _ (h.tokens t ht)
  have hpeers : s.peers.All (fun infoHash stored => ∀ p ∈ stored, Granted (ops ++ [op]) infoHash p.addr) :=
    h.peers.mono fun _ _ hall p hp => (hall p hp).snoc op
  cases op with
  | genTokenFor token nodeId addr now =>
    refine ⟨fun t ht => ?_, hpeers⟩
    have hmem : t ∈ s.tokens ++ [⟨token, nodeId, addr, now⟩] := by
      change t ∈ (if _ then _ else _) at ht
      split_ifs at ht
      · exact List.mem_of_mem_tail ht
      · exact ht
    rcases List.mem_append.1 hmem with hmem | hmem
    · exact hkept t hmem
    · rw [List.mem_singleton.1 hmem]
      exact List.mem_append_right _ (List.mem_singleton_self _)
  | storePeer announce addr now =>
    refine ⟨fun t ht => hkept t ?_, h.storePeer announce addr now⟩
    exact storePeer_tokens s announce addr now ▸ ht
  | getForInfoHash infoHash want => exact ⟨hkept, hpeers⟩
  | garbageCollectPeers now =>
    refine ⟨fun t ht => hkept t (List.mem_of_mem_filter ht), ?_⟩
    intro infoHash stored' hstored' p hp
    obtain ⟨stored, hstored, hsub⟩ := (garbageCollectPeers_shrinks s now).1 infoHash stored' hstored'
    exact hpeers infoHash stored hstored p (hsub.subset hp)
  | rehash es =>
    change Provenance _ (s.rehash es)
    rcases s.rehash_cases es with he | ⟨hperm, he⟩
    · rw [he]
      exact ⟨hkept, hpeers⟩
    · rw [he]
      exact ⟨hkept, hpeers.reorder es hperm⟩

theorem provenance_run (selfId : Id20) (ops : List Op) : Provenance ops ((new selfId).run ops) := by
  refine foldl_history PeerStore.step Provenance ⟨?_, AssocMap.all_empty⟩ (fun _ _ op _ h => h.step op) ops
  intro t ht
  cases ht

end Provenance

/-- In every run with a clock that does not go backwards: which tokens are retained, when an
announcement is stored, and where stored peers come from. -/
theorem history_authorised (selfId : Id20) (ops : List Op) (clock : Chronological ops) :
    TokensRetained ops ((new selfId).run ops) ∧ ((new selfId).run ops).AnnounceLaw ∧
      ((new selfId).run ops).peers.All
        (fun infoHash stored => ∀ p ∈ stored, Granted ops infoHash p.addr) :=
  ⟨tokens_retained (new selfId) rfl ops clock, announceLaw _, (provenance_run selfId ops).peers⟩

/-- One node obtains a token and announces itself with it, and the token expires. -/
def announcing : List Op :=
  [.genTokenFor #v[1, 2, 3, 4] 7 (.v4 ⟨9, 6881⟩) 0,
    .storePeer ⟨7, 0, 5, 80, [1, 2, 3, 4]⟩ (.v4 ⟨9, 6881⟩) 1, .garbageCollectPeers (minutes 10)]

theorem announcing_authorised :
    TokensRetained announcing ((new 0).run announcing) ∧ ((new 0).run announcing).AnnounceLaw ∧
      ((new 0).run announcing).peers.All
        (fun infoHash stored => ∀ p ∈ stored, Granted announcing infoHash p.addr) :=
  history_authorised 0 announcing (by decide)

end PeerStore
end LibrtbitDht
