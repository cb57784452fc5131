import LibrtbitDht.MessageRoundTrip
import LibrtbitDht.QueryRuns

set_option autoImplicit false

namespace LibrtbitDht
open Bencode TransitionRuns
open ByteStrings (Bytes ascii numeral numeral_length numeral_length_le wordBytes wordBytes_length flatMap_length)

section Sizes

theorem textSize_short {n : ℕ} (h : n < 10) : textSize n = 2 + n := by
  have hle := numeral_length_le (Nat.succ_pos 0) (n := n) (by simpa using h)
  have hpos := List.length_pos_of_ne_nil (ByteStrings.numeral_ne_nil n)
  unfold textSize
  omega

theorem textSize_middle {n : ℕ} (h : 10 ≤ n) (h' : n < 100) : textSize n = 3 + n := by
  rw [textSize, numeral_length (k := 1) (by simpa using h) (by simpa using h')]

def addrSize (addr : SocketAddr) : ℕ := if addr.isIpv4 then 8 else 21

theorem size_serializeSocketAddr (addr : SocketAddr) : size (serializeSocketAddr addr) = addrSize addr := by
  rw [serializeSocketAddr, size_bytes]
  cases addr with
  | v4 a =>
    have hlength : (CompactSocketAddr.asSlice (.v4 a)).length = 6 := compactV4_length a
    rw [hlength, textSize_short (by omega)]
    rfl
  | v6 a =>
    have hlength : (CompactSocketAddr.asSlice (.v6 a)).length = 18 := compactV6_length a
    rw [hlength, textSize_middle (by omega) (by omega)]
    rfl

theorem size_serializeId (id : Id20) : size (serializeId id) = 23 := by
  rw [serializeId, size_bytes, wordBytes_length, textSize_middle (by omega) (by omega)]

theorem size_serializeCompactList {A : Type} {compact : Compact A} {len : ℕ}
    (hlen : ∀ a, (compact.asSlice a).length = len) (l : List A) :
    size (serializeCompactList compact l) = textSize (l.length * len) := by
  rw [serializeCompactList, size_bytes, flatMap_length hlen]

theorem size_nodes (l : List (Node SocketAddrV4)) : size (serializeCompactList nodeV4 l) = textSize (l.length * 26) :=
  size_serializeCompactList (compactNode_length rfl compactV4_length) l

theorem size_nodes6 (l : List (Node SocketAddrV6)) : size (serializeCompactList nodeV6 l) = textSize (l.length * 38) :=
  size_serializeCompactList (compactNode_length rfl compactV6_length) l

theorem size_values (l : List SocketAddr) : size (.list (l.map serializeSocketAddr)) = 2 + (l.map addrSize).sum := by
  rw [size, sizeList_eq, List.map_map]
  congr 2
  exact List.map_congr_left (fun a _ => size_serializeSocketAddr a)

def optionSize {α : Type} (name : ℕ) (sizeOf : α → ℕ) (value : Option α) : ℕ :=
  (value.map (fun a => 2 + name + sizeOf a)).getD 0

theorem fieldSize_option {α : Type} {key : Bytes} (hkey : key.length < 10) (write : α → BValue) (value : Option α) :
    fieldSize (key, value.map write) = optionSize key.length (fun a => size (write a)) value := by
  unfold fieldSize optionSize entrySize
  cases value with
  | none => rfl
  | some a =>
    simp only [Option.map_some, Option.getD_some, textSize_short hkey]

theorem size_response (r : Response) (hothers : r.v = none ∧ r.k = none ∧ r.sig = none ∧ r.seq = none) :
    size r.toBencode = 29 + optionSize 6 (fun l => 2 + (l.map addrSize).sum) r.values +
      optionSize 5 (fun l => textSize (l.length * 26)) r.nodes +
      optionSize 6 (fun l => textSize (l.length * 38)) r.nodes6 +
      optionSize 5 (fun t => textSize t.length) r.token := by
  have hvalues : fieldSize (ascii "values", r.values.map (fun l => .list (l.map serializeSocketAddr))) =
      optionSize 6 (fun l => 2 + (l.map addrSize).sum) r.values := by
    rw [fieldSize_option (by decide)]
    simp only [size_values]
    rfl
  have hid : fieldSize (ascii "id", some (serializeId r.id)) = 27 := by
    change textSize (ascii "id").length + size (serializeId r.id) = 27
    rw [size_serializeId, textSize_short (by decide)]
    rfl
  have hnodes : fieldSize (ascii "nodes", r.nodes.map (serializeCompactList nodeV4)) =
      optionSize 5 (fun l => textSize (l.length * 26)) r.nodes := by
    rw [fieldSize_option (by decide)]
    simp only [size_nodes]
    rfl
  have hnodes6 : fieldSize (ascii "nodes6", r.nodes6.map (serializeCompactList nodeV6)) =
      optionSize 6 (fun l => textSize (l.length * 38)) r.nodes6 := by
    rw [fieldSize_option (by decide)]
    simp only [size_nodes6]
    rfl
  have htoken : fieldSize (ascii "token", r.token.map .bytes) = optionSize 5 (fun t => textSize t.length) r.token := by
    rw [fieldSize_option (by decide)]
    simp only [size_bytes]
    rfl
  obtain ⟨hv, hk, hsig, hseq⟩ := hothers
  have hnone : ∀ key, fieldSize (key, none) = 0 := fun _ => rfl
  rw [Response.toBencode, size_struct, Response.fields, hv, hk, hsig, hseq]
  simp only [List.map_cons, List.map_nil, List.sum_cons, List.sum_nil, Option.map_none, hnone, hvalues, hid, hnodes,
    hnodes6, htoken]
  omega

/-- A reply adds to its response the sender's address, a transaction of two bytes and the marks of its kind. -/
theorem size_reply (resp : Response) (transactionId : BitVec 16) (addr : SocketAddr) :
    size (messageBencode (wordBytes 2 transactionId) none (some addr) (.response resp)) =
      22 + size resp.toBencode + addrSize addr := by
  have hy : fieldSize (ascii "y", some MessageType.response.toBencode) = 6 := by decide
  have ht : fieldSize (ascii "t", some (.bytes (wordBytes 2 transactionId))) = 7 := by
    change textSize (ascii "t").length + size (.bytes (wordBytes 2 transactionId)) = 7
    rw [size_bytes, wordBytes_length, textSize_short (by decide), textSize_short (by decide)]
    rfl
  have hr : fieldSize (ascii "r", some resp.toBencode) = 3 + size resp.toBencode := by
    change textSize (ascii "r").length + size resp.toBencode = _
    rw [textSize_short (by decide)]
    rfl
  have hip : fieldSize (ascii "ip", some (serializeSocketAddr addr)) = 4 + addrSize addr := by
    change textSize (ascii "ip").length + size (serializeSocketAddr addr) = _
    rw [size_serializeSocketAddr, textSize_short (by decide)]
    rfl
  have hnone : ∀ key, fieldSize (key, none) = 0 := fun _ => rfl
  rw [messageBencode, RawMessage.toBencode, size_struct, RawMessage.fields]
  simp only [List.map_cons, List.map_nil, List.sum_cons, List.sum_nil, Option.map_none, Option.map_some, hnone, hy, ht,
    hr, hip]
  omega

end Sizes

def receiveBuffer : ℕ := 16384

/-- The asking node gets the message whole and decodes all that its compact addresses say. -/
def ReadWhole (C : Codec) (m : Message) : Prop :=
  ∃ bytes, serializeMessage C m.transactionId m.version m.ip m.kind = some bytes ∧ bytes.length ≤ receiveBuffer ∧
    deserializeMessage C (bytes.take receiveBuffer) =
      .ok ⟨m.kind.onWire, m.transactionId, m.version, m.ip.map SocketAddr.onWire⟩

theorem readWhole_iff (C : Codec) (m : Message) :
    ReadWhole C m ↔ size (messageBencode m.transactionId m.version m.ip m.kind) ≤ receiveBuffer := by
  obtain ⟨bytes, hwrite, hread, hlength⟩ := C.lawful _ (canonical_message m.transactionId m.version m.ip m.kind)
  constructor
  · rintro ⟨bytes', hwrite', hle, _⟩
    cases Option.some.inj (hwrite.symm.trans hwrite')
    rw [← hlength]
    exact hle
  · intro hle
    rw [← hlength] at hle
    refine ⟨bytes, hwrite, hle, ?_⟩
    rw [List.take_of_length_le hle]
    exact deserialize_of_read C hread

namespace DhtState
variable {s : DhtState}

section Bounds

theorem textSize_le {n : ℕ} (h : n < 1000) : textSize n ≤ 4 + n := by
  have hle := numeral_length_le (k := 3) (by omega) (n := n) (by simpa using h)
  unfold textSize
  omega

theorem optionSize_le {α : Type} {name bound : ℕ} {sizeOf : α → ℕ} {value : Option α}
    (h : ∀ a ∈ value, sizeOf a ≤ bound) : optionSize name sizeOf value ≤ 2 + name + bound := by
  cases value with
  | none => exact Nat.zero_le _
  | some a => exact Nat.add_le_add_left (h a rfl) _

theorem Answer.size_le {r : Readings} {kind : MessageKind} {addr : SocketAddr} {resp : Response}
    (h : Answer s r kind addr resp) :
    size resp.toBencode ≤ 577 + optionSize 6 (fun l => 2 + (l.map addrSize).sum) (s.listed kind addr) := by
  have hnodes : optionSize 5 (fun l => textSize (l.length * 26)) resp.nodes ≤ 2 + 5 + 212 := by
    apply optionSize_le
    intro l hl
    have hlength := h.nodes l hl
    have hle := textSize_le (n := l.length * 26) (by omega)
    omega
  have hnodes6 : optionSize 6 (fun l => textSize (l.length * 38)) resp.nodes6 ≤ 2 + 6 + 308 := by
    apply optionSize_le
    intro l hl
    have hlength := h.nodes6 l hl
    have hle := textSize_le (n := l.length * 38) (by omega)
    omega
  have htoken : optionSize 5 (fun t => textSize t.length) resp.token ≤ 2 + 5 + 6 := by
    apply optionSize_le
    intro token htoken
    rw [h.token] at htoken
    split_ifs at htoken
    · cases htoken
      rw [Vector.length_toList, textSize_short (by omega)]
    · cases htoken
  rw [size_response resp h.others, h.values]
  omega

theorem sum_addrSize {l : List SocketAddr} {n : ℕ} (h : ∀ a ∈ l, addrSize a = n) :
    (l.map addrSize).sum = l.length * n := by
  rw [List.map_congr_left h, List.map_const', List.sum_replicate, smul_eq_mul]

theorem mem_getForInfoHash_wanted {store : PeerStore} {infoHash : Id20} {want : Want} {a : SocketAddr}
    (h : a ∈ store.getForInfoHash infoHash want) : PeerStore.wanted want a = true := by
  unfold PeerStore.getForInfoHash at h
  cases hget : store.peers.get? infoHash with
  | none =>
    rw [hget] at h
    cases h
  | some stored =>
    rw [hget] at h
    obtain ⟨p, hp, rfl⟩ := List.mem_map.1 h
    exact (List.mem_filter.1 hp).2

theorem getForInfoHash_length (store : PeerStore) (infoHash : Id20) (want : Want) :
    (store.getForInfoHash infoHash want).length =
      ((store.peers.get? infoHash).getD []).countP (fun p => PeerStore.wanted want p.addr) := by
  unfold PeerStore.getForInfoHash
  cases store.peers.get? infoHash with
  | none => rfl
  | some stored => rw [List.length_map, ← List.countP_eq_length_filter, Option.getD_some]

theorem Sound.stored_le (h : s.Sound) (infoHash : Id20) : ((s.peerStore.peers.get? infoHash).getD []).length ≤ 1000 := by
  have htotal : PeerStore.total s.peerStore.peers ≤ 1000 := by
    have hbounded := BitVec.le_def.1 h.store.bounded
    rw [h.store.counted, h.limits.maxRememberedPeers] at hbounded
    exact hbounded
  cases hget : s.peerStore.peers.get? infoHash with
  | none => exact Nat.zero_le _
  | some stored =>
    have hweight := AssocMap.weight_remove List.length s.peerStore.peers hget
    change PeerStore.total s.peerStore.peers = _ at hweight
    rw [Option.getD_some]
    omega

end Bounds

section Room

def ipv6Peers (s : DhtState) (infoHash : Id20) : ℕ :=
  ((s.peerStore.peers.get? infoHash).getD []).countP (fun p => p.addr.isIpv6)

/-- A request for IPv6 peers leaves room for those that are stored. -/
def Room (s : DhtState) (request : Request) (dest sender : SocketAddr) : Prop :=
  match request with
  | .getPeers infoHash => dest.isIpv6 = true → 82 + addrSize sender +
      textSize (min 8 (s.routingTableV6.contactsOf SocketAddr.toV6) * 38) + 21 * s.ipv6Peers infoHash ≤ 16384
  | _ => True

theorem fits_of_le (addr : SocketAddr) {n : ℕ} (h : n ≤ 8587) : 22 + n + addrSize addr ≤ receiveBuffer := by
  unfold addrSize receiveBuffer
  split_ifs <;> omega

theorem Sound.size_v4 (h : s.Sound) (infoHash : Id20) :
    optionSize 6 (fun l => 2 + (l.map addrSize).sum) (some (s.peerStore.getForInfoHash infoHash .v4)) ≤ 8010 := by
  have hall : ∀ a ∈ s.peerStore.getForInfoHash infoHash .v4, addrSize a = 8 := by
    intro a ha
    have hwanted := mem_getForInfoHash_wanted ha
    cases a with
    | v4 a => rfl
    | v6 a => cases hwanted
  have hlength := getForInfoHash_length s.peerStore infoHash .v4
  have hcount := List.countP_le_length (p := fun p : StoredPeer => PeerStore.wanted .v4 p.addr)
    (l := (s.peerStore.peers.get? infoHash).getD [])
  have hstored := h.stored_le infoHash
  change 2 + 6 + (2 + ((s.peerStore.getForInfoHash infoHash .v4).map addrSize).sum) ≤ 8010
  rw [sum_addrSize hall]
  omega

theorem size_v6 (s : DhtState) (infoHash : Id20) :
    optionSize 6 (fun l => 2 + (l.map addrSize).sum) (some (s.peerStore.getForInfoHash infoHash .v6)) =
      10 + 21 * s.ipv6Peers infoHash := by
  have hall : ∀ a ∈ s.peerStore.getForInfoHash infoHash .v6, addrSize a = 21 := by
    intro a ha
    have hwanted := mem_getForInfoHash_wanted ha
    cases a with
    | v4 a => cases hwanted
    | v6 a => rfl
  have hlength : (s.peerStore.getForInfoHash infoHash .v6).length = s.ipv6Peers infoHash := by
    rw [getForInfoHash_length, ipv6Peers]
    apply List.countP_congr
    intro p _
    cases p.addr <;> simp [PeerStore.wanted, SocketAddr.isIpv6]
  change 2 + 6 + (2 + ((s.peerStore.getForInfoHash infoHash .v6).map addrSize).sum) = _
  rw [sum_addrSize hall, hlength]
  omega

theorem listed_getPeers (s : DhtState) (asker : Id20) (transactionId : BitVec 16) (infoHash : Id20)
    (dest sender : SocketAddr) :
    s.listed (createRequest asker transactionId (.getPeers infoHash) dest).kind sender =
      some (s.peerStore.getForInfoHash infoHash (wantFor dest)) := rfl

theorem size_getPeers_v6 {asker infoHash : Id20} {transactionId : BitVec 16} {dest sender : SocketAddr} {r : Readings}
    {resp : Response}
    (h : Answer s r (createRequest asker transactionId (.getPeers infoHash) dest).kind sender resp)
    (hwant : wantFor dest = .v6) :
    size resp.toBencode = 60 + textSize (min 8 (s.routingTableV6.contactsOf SocketAddr.toV6) * 38) +
      21 * s.ipv6Peers infoHash := by
  have hasked : asked (createRequest asker transactionId (.getPeers infoHash) dest).kind sender = .v6 := hwant
  have hnodes : resp.nodes = none := by
    have hiff := h.askedV4
    rw [hasked] at hiff
    simpa using hiff
  obtain ⟨l, hl⟩ : ∃ l, resp.nodes6 = some l := by
    apply Option.isSome_iff_exists.1
    rw [h.askedV6, hasked]
    exact .inl rfl
  have hlength := h.nodes6 l hl
  have hlisted : resp.values = some (s.peerStore.getForInfoHash infoHash .v6) := by
    rw [h.values, listed_getPeers, hwant]
  have htoken : resp.token = some r.token.toList := h.token
  have hvalues := size_v6 s infoHash
  rw [size_response resp h.others, hnodes, hl, hlisted, htoken, hvalues]
  change 29 + (10 + 21 * s.ipv6Peers infoHash) + 0 + (2 + 6 + textSize (l.length * 38)) +
    (2 + 5 + textSize r.token.toList.length) = _
  rw [hlength, Vector.length_toList, textSize_short (n := 4) (by omega)]
  omega

theorem Sound.readWhole_iff_room (h : s.Sound) (C : Codec) {asker : Id20} {transactionId : BitVec 16} {request : Request}
    {dest sender : SocketAddr} {r : Readings} {resp : Response}
    (hanswer : Answer s r (createRequest asker transactionId request dest).kind sender resp) :
    ReadWhole C (reply (createRequest asker transactionId request dest) sender resp) ↔ s.Room request dest sender := by
  have hreply : ReadWhole C (reply (createRequest asker transactionId request dest) sender resp) ↔
      22 + size resp.toBencode + addrSize sender ≤ receiveBuffer := by
    rw [readWhole_iff, ← size_reply]
    rfl
  have hle := hanswer.size_le
  rw [hreply]
  cases request with
  | ping =>
    change size resp.toBencode ≤ 577 + 0 at hle
    exact iff_of_true (fits_of_le sender (by omega)) trivial
  | announce infoHash token port =>
    change size resp.toBencode ≤ 577 + 0 at hle
    exact iff_of_true (fits_of_le sender (by omega)) trivial
  | findNode target =>
    change size resp.toBencode ≤ 577 + 0 at hle
    exact iff_of_true (fits_of_le sender (by omega)) trivial
  | getPeers infoHash =>
    by_cases hv6 : dest.isIpv6 = true
    · have hwant : wantFor dest = .v6 := if_pos hv6
      have hsize := size_getPeers_v6 hanswer hwant
      rw [hsize]
      unfold Room receiveBuffer
      constructor
      · intro hfits _
        omega
      · intro hroom
        have hfits := hroom hv6
        omega
    · have hwant : wantFor dest = .v4 := if_neg hv6
      have hpeers := h.size_v4 infoHash
      rw [listed_getPeers, hwant] at hle
      exact iff_of_true (fits_of_le sender (by omega)) (fun h => absurd h hv6)

/-- A query of another node is answered, and the answer is read whole exactly if there is room for it. -/
theorem reply_readWhole_iff (C : Codec) (env : Persistence.Environment) (id : Id20) (listenAddr : SocketAddr)
    (events : List Event) (s : DhtState) (run : Run Step (start env id listenAddr) events s) (asker : Id20)
    (transactionId : BitVec 16) (request : Request) (dest sender : SocketAddr) (r : Readings) :
    ∃ answer s', s.onReceivedMessage r (createRequest asker transactionId request dest) sender = .ok (some answer, s') ∧
      (ReadWhole C answer ↔ s.Room request dest sender) := by
  have hsound := ((sound_start env id listenAddr).run run).1
  have hquery : isQuery (createRequest asker transactionId request dest).kind = true := by
    cases request <;> rfl
  obtain ⟨resp, s', hrun, hanswer, _⟩ :=
    hsound.onReceivedMessage_spec r (createRequest asker transactionId request dest) sender hquery
  exact ⟨_, s', hrun, hsound.readWhole_iff_room C hanswer⟩

end Room

section Crowd

def crowdEnvironment : Persistence.Environment := ⟨true, some, 0, fun _ => 0, fun _ => 0, fun _ => 0, 0, 0⟩

def crowdNode : SocketAddr := .v6 ⟨1, 6881, 0, 0⟩

def crowdHost : SocketAddr := .v6 ⟨2, 6881, 0, 0⟩

def crowdReadings : Readings := ⟨0, 0, 0, #v[2, 3, 5, 7]⟩

def crowdPeer (i : ℕ) : SocketAddr := crowdHost.setPort (BitVec.ofNat 16 i)

def crowdRequest (i : ℕ) : AnnouncePeer := ⟨1, 0, 0, BitVec.ofNat 16 i, [2, 3, 5, 7]⟩

def crowdAnnounce (i : ℕ) : Event :=
  .received crowdReadings (createRequest 1 0 (.announce 0 [2, 3, 5, 7] (BitVec.ofNat 16 i)) crowdNode) crowdHost

/-- One host asks for a token and announces one port after the other with it. -/
def crowding (n : ℕ) : List Event :=
  .received crowdReadings (createRequest 1 0 (.getPeers 0) crowdNode) crowdHost :: (List.range n).map crowdAnnounce

structure CrowdStore (n : ℕ) (store : PeerStore) : Prop where
  token : ⟨#v[2, 3, 5, 7], 1, crowdHost, 0⟩ ∈ store.tokens
  peers : ((store.peers.get? 0).getD []).map StoredPeer.addr = (List.range n).map crowdPeer
  peersLen : store.peersLen.toNat = n

structure Crowded (n : ℕ) (s : DhtState) : Prop where
  sound : s.Sound
  id : s.id = 0
  store : CrowdStore n s.peerStore

theorem crowdPeer_injective {i j : ℕ} (hi : i < 65536) (hj : j < 65536) (h : crowdPeer i = crowdPeer j) : i = j := by
  have hport := congrArg (fun a => a.port.toNat) h
  simp only [crowdPeer, SocketAddr.port_setPort, BitVec.toNat_ofNat] at hport
  omega

theorem Crowded.announce {n : ℕ} (h : Crowded n s) (hn : n < 1000) :
    ∃ s', Step s (crowdAnnounce n) s' ∧ Crowded (n + 1) s' := by
  obtain ⟨s', hstep, hafter⟩ := h.sound.step_spec (crowdAnnounce n)
  refine ⟨s', hstep, hafter.sound, hafter.id.trans h.id, ?_⟩
  have hstore : s'.peerStore = (s.peerStore.storePeer (crowdRequest n) crowdHost 0).2 :=
    hafter.store
  have hauthorised : s.peerStore.Authorised (crowdRequest n) crowdHost := by
    refine ⟨?_, _, h.store.token, rfl, rfl, rfl⟩
    rw [h.sound.limits.selfId, h.sound.limits.maxDistance, h.id]
    exact (by decide : (0 : Id20).distance (PeerStore.new 0).selfId ≤ (PeerStore.new 0).maxDistance)
  have hroom : s.peerStore.peersLen < s.peerStore.maxRememberedPeers := by
    rw [BitVec.lt_def, h.store.peersLen, h.sound.limits.maxRememberedPeers]
    exact hn
  have hfresh : ∀ p ∈ (s.peerStore.peers.get? 0).getD [], p.addr ≠ crowdPeer n := by
    intro p hp heq
    have hmem : p.addr ∈ (List.range n).map crowdPeer := by
      rw [← h.store.peers]
      exact List.mem_map_of_mem hp
    obtain ⟨i, hi, hpeer⟩ := List.mem_map.1 hmem
    have hlt := List.mem_range.1 hi
    have hsame := crowdPeer_injective (by omega) (by omega) (hpeer.trans heq)
    omega
  have hgrown : (List.range (n + 1)).map crowdPeer = (List.range n).map crowdPeer ++ [crowdPeer n] := by
    rw [List.range_succ, List.map_append, List.map_singleton]
  obtain ⟨hpeers, hlen⟩ := PeerStore.storePeer_new s.peerStore 0 hauthorised hroom hfresh
  rw [hstore]
  refine ⟨?_, ?_, ?_⟩
  · rw [PeerStore.storePeer_tokens]
    exact h.store.token
  · have hlisted : ((s.peerStore.storePeer (crowdRequest n) crowdHost 0).2.peers.get? 0).getD [] =
        (s.peerStore.peers.get? 0).getD [] ++ [⟨crowdPeer n, 0⟩] := hpeers
    rw [hlisted, hgrown, List.map_append, h.store.peers]
    rfl
  · rw [hlen, h.store.peersLen]

theorem crowded_run (n : ℕ) (hn : n ≤ 1000) :
    ∃ s, Run Step (start crowdEnvironment 0 crowdNode) (crowding n) s ∧ Crowded n s := by
  induction n with
  | zero =>
    have hstart := sound_start crowdEnvironment 0 crowdNode
    obtain ⟨s, hstep, hafter⟩ :=
      hstart.step_spec (.received crowdReadings (createRequest 1 0 (.getPeers 0) crowdNode) crowdHost)
    refine ⟨s, .single hstep, hafter.sound, hafter.id, ?_, ?_, ?_⟩
    · rw [hafter.store]
      decide
    · rw [hafter.store]
      rfl
    · rw [hafter.store]
      rfl
  | succ n ih =>
    obtain ⟨s, run, hcrowded⟩ := ih (by omega)
    obtain ⟨s', hstep, hcrowded'⟩ := hcrowded.announce (by omega)
    refine ⟨s', ?_, hcrowded'⟩
    rw [crowding, List.range_succ, List.map_append, ← List.cons_append]
    exact .snoc run hstep

/-- A thousand IPv6 peers of one info hash make a reply that nobody can read. -/
theorem crowd_not_read : ∃ s answer s', Run Step (start crowdEnvironment 0 crowdNode) (crowding 1000) s ∧
    s.onReceivedMessage crowdReadings (createRequest 3 0 (.getPeers 0) crowdNode) crowdHost = .ok (some answer, s') ∧
    ∀ C, ¬ ReadWhole C answer := by
  obtain ⟨s, run, hcrowded⟩ := crowded_run 1000 (le_refl _)
  obtain ⟨resp, s', hrun, hanswer, _⟩ :=
    hcrowded.sound.onReceivedMessage_spec crowdReadings (createRequest 3 0 (.getPeers 0) crowdNode) crowdHost rfl
  refine ⟨s, _, s', run, hrun, ?_⟩
  intro C hread
  have hroom := (hcrowded.sound.readWhole_iff_room C hanswer).1 hread rfl
  have hpeers : s.ipv6Peers 0 = 1000 := by
    have hcount : ((s.peerStore.peers.get? 0).getD []).countP (fun p => p.addr.isIpv6) =
        ((List.range 1000).map crowdPeer).countP SocketAddr.isIpv6 := by
      rw [← hcrowded.store.peers, List.countP_map]
      rfl
    have hall : ∀ a ∈ (List.range 1000).map crowdPeer, a.isIpv6 = true := by
      intro a ha
      obtain ⟨i, _, rfl⟩ := List.mem_map.1 ha
      rfl
    rw [ipv6Peers, hcount, List.countP_eq_length.2 hall, List.length_map, List.length_range]
  rw [hpeers] at hroom
  omega

/-- A node without peers is heard by everybody who asks it. -/
theorem first_reply_read : ∃ answer s',
    (start crowdEnvironment 0 crowdNode).onReceivedMessage crowdReadings
      (createRequest 1 0 (.getPeers 0) crowdNode) crowdHost = .ok (some answer, s') ∧ ReadWhole .standard answer := by
  obtain ⟨answer, s', hrun, hiff⟩ := reply_readWhole_iff .standard crowdEnvironment 0 crowdNode []
    (start crowdEnvironment 0 crowdNode) .nil 1 0 (.getPeers 0) crowdNode crowdHost crowdReadings
  refine ⟨answer, s', hrun, hiff.2 ?_⟩
  intro _
  decide

end Crowd
end DhtState
end LibrtbitDht
