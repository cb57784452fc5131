import LibrtbitDht.BencodeText
import LibrtbitDht.Id20

set_option autoImplicit false

namespace LibrtbitDht
open ByteStrings

abbrev PublicKey := Vector UInt8 32

abbrev Signature := Vector UInt8 64

abbrev Seed := Vector UInt8 32

structure Sha1 where
  fed : Bytes
deriving DecidableEq, Repr

namespace Sha1

def new : Sha1 := ⟨[]⟩

def update (hasher : Sha1) (bytes : Bytes) : Sha1 := ⟨hasher.fed ++ bytes⟩

def finish (sha1 : Bytes → Id20) (hasher : Sha1) : Id20 := sha1 hasher.fed

end Sha1

namespace Bep44Crypto

/-- The hasher of `mutable_item_target` before it is finished. -/
def itemHasher (publicKey : PublicKey) (salt : Option Bytes) : Sha1 :=
  let hasher := Sha1.new.update publicKey.toList
  match salt with
  | some s => hasher.update s
  | none => hasher

def mutableItemTarget (sha1 : Bytes → Id20) (publicKey : PublicKey) (salt : Option Bytes) : Id20 :=
  (itemHasher publicKey salt).finish sha1

/-- A signed number in decimal, as `format!` writes it. -/
def decimal (n : ℤ) : Bytes := (if n < 0 then ascii "-" else []) ++ numeral n.natAbs

def signableData (salt : Option Bytes) (seq : Int64) (v : Bytes) : Bytes :=
  let buf := []
  let buf := match salt with
    | some s => buf ++ (ascii "4:salt" ++ numeral s.length ++ ascii ":") ++ s
    | none => buf
  let buf := buf ++ (ascii "3:seqi" ++ decimal seq.toInt ++ ascii "e")
  let buf := buf ++ ascii "1:v"
  buf ++ v

structure Ed25519 (K : Type) where
  fromSeedUnchecked : Seed → Option K
  publicKey : K → Bytes
  sign : K → Bytes → Bytes
  verify : PublicKey → Bytes → Signature → Bool

/-- A copy into an array of `n` bytes, which panics at any other length. -/
def copyFromSlice (n : ℕ) (bytes : Bytes) : Option (Vector UInt8 n) :=
  if h : bytes.length = n then some ⟨bytes.toArray, by rw [List.size_toArray, h]⟩ else none

section Items
variable {K : Type} (E : Ed25519 K)

def verifyMutableItem (publicKey : PublicKey) (signature : Signature) (salt : Option Bytes) (seq : Int64) (v : Bytes) :
    Bool :=
  let msg := signableData salt seq v
  E.verify publicKey msg signature

/-- The result is `none` where the source panics. -/
def signMutableItem (privateKeySeed : Seed) (salt : Option Bytes) (seq : Int64) (v : Bytes) : Option Signature := do
  let msg := signableData salt seq v
  let keyPair ← E.fromSeedUnchecked privateKeySeed
  copyFromSlice 64 (E.sign keyPair msg)

def publicKeyFromSeed (seed : Seed) : Option PublicKey := do
  let keyPair ← E.fromSeedUnchecked seed
  copyFromSlice 32 (E.publicKey keyPair)

/-- The seed has a key, and what it signs of these messages verifies as the message signed and as no
other. -/
def Ed25519.Ideal (seed : Seed) (signed : Set Bytes) : Prop :=
  ∃ keyPair, ∃ publicKey : PublicKey, E.fromSeedUnchecked seed = some keyPair ∧
    E.publicKey keyPair = publicKey.toList ∧ ∀ msg ∈ signed, ∃ signature : Signature,
      E.sign keyPair msg = signature.toList ∧ ∀ msg', E.verify publicKey msg' signature = true ↔ msg' = msg

end Items

section Encoding

theorem signableData_none (seq : Int64) (v : Bytes) :
    signableData none seq v = ascii "3:seq" ++ (Bencode.encodeInt seq.toInt ++ (ascii "1:v" ++ v)) := by
  have hseq : ascii "3:seqi" = ascii "3:seq" ++ [105] := by decide
  have hminus : ascii "-" = [45] := by decide
  have hend : ascii "e" = [101] := by decide
  simp [signableData, decimal, Bencode.encodeInt, hseq, hminus, hend]

theorem signableData_some (s : Bytes) (seq : Int64) (v : Bytes) :
    signableData (some s) seq v = ascii "4:salt" ++ (Bencode.encodeBytes s ++ signableData none seq v) := by
  have hcolon : ascii ":" = [58] := by decide
  simp [signableData, Bencode.encodeBytes, hcolon]

theorem encodeInt_append_inj {m n : ℤ} {rest rest' : Bytes}
    (h : Bencode.encodeInt m ++ rest = Bencode.encodeInt n ++ rest') : m = n ∧ rest = rest' := by
  obtain ⟨bs, hbs, hparse⟩ := Bencode.parseInt_encodeInt m rest
  obtain ⟨bs', hbs', hparse'⟩ := Bencode.parseInt_encodeInt n rest'
  rw [hbs, hbs'] at h
  cases h
  cases hparse.symm.trans hparse'
  exact ⟨rfl, rfl⟩

theorem encodeBytes_append_inj {b b' rest rest' : Bytes}
    (h : Bencode.encodeBytes b ++ rest = Bencode.encodeBytes b' ++ rest') : b = b' ∧ rest = rest' := by
  have hparse := Bencode.parseBytes_encodeBytes b rest
  rw [h, Bencode.parseBytes_encodeBytes b' rest'] at hparse
  cases hparse
  exact ⟨rfl, rfl⟩

theorem signableData_none_inj {seq seq' : Int64} {v v' : Bytes}
    (h : signableData none seq v = signableData none seq' v') : seq = seq' ∧ v = v' := by
  rw [signableData_none, signableData_none] at h
  obtain ⟨hseq, hrest⟩ := encodeInt_append_inj (List.append_cancel_left h)
  exact ⟨Int64.toInt_inj.1 hseq, List.append_cancel_left hrest⟩

theorem signableData_none_ne_some (seq seq' : Int64) (s v v' : Bytes) :
    signableData none seq v ≠ signableData (some s) seq' v' := by
  intro h
  have hhead := congrArg List.head? h
  rw [signableData_none, signableData_some] at hhead
  have hnone : ascii "3:seq" = 51 :: ascii ":seq" := by decide
  have hsome : ascii "4:salt" = 52 :: ascii ":salt" := by decide
  rw [hnone, hsome] at hhead
  cases hhead

theorem signableData_inj {salt salt' : Option Bytes} {seq seq' : Int64} {v v' : Bytes}
    (h : signableData salt seq v = signableData salt' seq' v') : salt = salt' ∧ seq = seq' ∧ v = v' := by
  match salt, salt' with
  | none, none => exact ⟨rfl, signableData_none_inj h⟩
  | none, some s' => exact absurd h (signableData_none_ne_some seq seq' s' v v')
  | some s, none => exact absurd h.symm (signableData_none_ne_some seq' seq s v' v)
  | some s, some s' =>
    rw [signableData_some, signableData_some] at h
    obtain ⟨rfl, hrest⟩ := encodeBytes_append_inj (List.append_cancel_left h)
    exact ⟨rfl, signableData_none_inj hrest⟩

end Encoding

section Signing
variable {K : Type} {E : Ed25519 K} {seed : Seed} {signed : Set Bytes}

theorem copyFromSlice_toList {n : ℕ} (x : Vector UInt8 n) : copyFromSlice n x.toList = some x := by
  rw [copyFromSlice, dif_pos Vector.length_toList]
  congr 1

/-- There are more messages than signatures, so that the signed messages have to be named. -/
theorem not_ideal_univ : ¬ E.Ideal seed Set.univ := by
  rintro ⟨keyPair, publicKey, _, _, hsign⟩
  choose signature hsignature hverify using fun msg => hsign msg (Set.mem_univ msg)
  have hinj : Function.Injective (fun msg => (signature msg).toList) := by
    intro msg msg' heq
    have hsame : signature msg = signature msg' := Vector.toList_inj.1 heq
    exact (hverify msg' msg).1 (hsame ▸ (hverify msg msg).2 rfl)
  have hfinite : (Set.range (fun msg => (signature msg).toList)).Finite := by
    refine (List.finite_length_eq UInt8 64).subset ?_
    rintro _ ⟨msg, rfl⟩
    exact Vector.length_toList
  exact Set.infinite_range_of_injective hinj hfinite

theorem Ed25519.Ideal.sign_verify (ideal : E.Ideal seed signed) :
    ∃ publicKey, publicKeyFromSeed E seed = some publicKey ∧ ∀ salt seq v, signableData salt seq v ∈ signed →
      ∃ signature, signMutableItem E seed salt seq v = some signature ∧ ∀ salt' seq' v',
        verifyMutableItem E publicKey signature salt' seq' v' = true ↔
          signableData salt' seq' v' = signableData salt seq v := by
  obtain ⟨keyPair, publicKey, hseed, hkey, hsign⟩ := ideal
  refine ⟨publicKey, ?_, ?_⟩
  · simp only [publicKeyFromSeed, hseed, hkey, copyFromSlice_toList, Option.bind_eq_bind, Option.bind_some]
  · intro salt seq v hsigned
    obtain ⟨signature, hsignature, hverify⟩ := hsign _ hsigned
    refine ⟨signature, ?_, fun salt' seq' v' => hverify _⟩
    simp only [signMutableItem, hseed, hsignature, copyFromSlice_toList, Option.bind_eq_bind, Option.bind_some]

/-- The signed bytes determine salt, sequence number and value; under an ideal signature a signed
item verifies as itself and as no other. -/
theorem signed_item_law :
    (∀ salt seq v salt' seq' v', signableData salt seq v = signableData salt' seq' v' →
      salt = salt' ∧ seq = seq' ∧ v = v') ∧
    ∀ (K : Type) (E : Ed25519 K) (seed : Seed) (signed : Set Bytes), E.Ideal seed signed →
      ∃ publicKey, publicKeyFromSeed E seed = some publicKey ∧ ∀ salt seq v, signableData salt seq v ∈ signed →
        ∃ signature, signMutableItem E seed salt seq v = some signature ∧ ∀ salt' seq' v',
          verifyMutableItem E publicKey signature salt' seq' v' = true ↔ salt' = salt ∧ seq' = seq ∧ v' = v := by
  refine ⟨fun _ _ _ _ _ _ h => signableData_inj h, ?_⟩
  intro K E seed signed ideal
  obtain ⟨publicKey, hkey, hitems⟩ := ideal.sign_verify
  refine ⟨publicKey, hkey, ?_⟩
  intro salt seq v hsigned
  obtain ⟨signature, hsignature, hverify⟩ := hitems salt seq v hsigned
  refine ⟨signature, hsignature, ?_⟩
  intro salt' seq' v'
  rw [hverify]
  constructor
  · exact signableData_inj
  · rintro ⟨rfl, rfl, rfl⟩
    rfl

section Sample

def sampleSeed : Seed := Vector.replicate 32 0xAA

def sampleKey : PublicKey := #v[231, 52, 234, 108, 43, 98, 87, 222, 114, 53, 94, 71, 42, 160, 90, 76, 72, 126, 107, 70,
  60, 2, 158, 211, 6, 223, 47, 1, 181, 99, 107, 88]

/-- The Ed25519 signature of `4:salt9:test-salt3:seqi42e1:v5:hello` under the sample seed. -/
def sampleSignature : Signature := #v[107, 172, 75, 152, 163, 52, 58, 194, 196, 101, 70, 2, 235, 120, 26, 109, 230, 126,
  89, 182, 226, 236, 53, 149, 130, 57, 154, 176, 120, 216, 250, 176, 227, 208, 50, 130, 56, 18, 215, 72, 52, 59, 189,
  105, 85, 135, 148, 139, 107, 87, 33, 131, 1, 70, 175, 63, 66, 69, 211, 36, 187, 188, 154, 15]

def sampleMessage : Bytes := signableData (some (ascii "test-salt")) 42 (ascii "5:hello")

example : sampleMessage = ascii "4:salt9:test-salt3:seqi42e1:v5:hello" := by decide

def sampleEd25519 : Ed25519 Seed where
  fromSeedUnchecked := some
  publicKey := fun seed => if seed = sampleSeed then sampleKey.toList else []
  sign := fun seed msg => if seed = sampleSeed ∧ msg = sampleMessage then sampleSignature.toList else []
  verify := fun key msg signature => key = sampleKey ∧ msg = sampleMessage ∧ signature = sampleSignature

theorem sampleEd25519_ideal : sampleEd25519.Ideal sampleSeed {sampleMessage} := by
  refine ⟨sampleSeed, sampleKey, rfl, rfl, ?_⟩
  intro msg hmsg
  obtain rfl := Set.mem_singleton_iff.1 hmsg
  refine ⟨sampleSignature, rfl, ?_⟩
  intro msg'
  simp [sampleEd25519]

theorem sample_item_law :
    ∃ publicKey, publicKeyFromSeed sampleEd25519 sampleSeed = some publicKey ∧ ∀ salt seq v,
      signableData salt seq v ∈ ({sampleMessage} : Set Bytes) →
        ∃ signature, signMutableItem sampleEd25519 sampleSeed salt seq v = some signature ∧ ∀ salt' seq' v',
          verifyMutableItem sampleEd25519 publicKey signature salt' seq' v' = true ↔
            salt' = salt ∧ seq' = seq ∧ v' = v :=
  signed_item_law.2 Seed sampleEd25519 sampleSeed {sampleMessage} sampleEd25519_ideal

end Sample
end Signing

section Targets

theorem itemHasher_fed (publicKey : PublicKey) (salt : Option Bytes) :
    (itemHasher publicKey salt).fed = publicKey.toList ++ salt.getD [] := by
  cases salt <;> simp [itemHasher, Sha1.new, Sha1.update]

/-- An absent salt and an empty one give one target and never the same signed bytes. -/
theorem absent_and_empty_salt :
    itemHasher (Vector.replicate 32 0) none = itemHasher (Vector.replicate 32 0) (some []) ∧
      (∀ sha1, mutableItemTarget sha1 (Vector.replicate 32 0) none =
        mutableItemTarget sha1 (Vector.replicate 32 0) (some [])) ∧
      signableData none 1 (ascii "i1e") ≠ signableData (some []) 1 (ascii "i1e") :=
  ⟨by decide, fun _ => rfl, by decide⟩

/-- Salts of one target are signed alike, unless one is absent and the other empty. -/
theorem sameTarget_signedAlike (publicKey : PublicKey) (salt salt' : Option Bytes)
    (h : (itemHasher publicKey salt).fed = (itemHasher publicKey salt').fed) :
    (∀ seq v, signableData salt seq v = signableData salt' seq v) ∨
      (salt = none ∧ salt' = some [] ∨ salt = some [] ∧ salt' = none) ∧
        ∀ seq v, signableData salt seq v ≠ signableData salt' seq v := by
  rw [itemHasher_fed, itemHasher_fed] at h
  have hbytes := List.append_cancel_left h
  match salt, salt' with
  | none, none => exact .inl fun _ _ => rfl
  | none, some s' =>
    obtain rfl : [] = s' := hbytes
    exact .inr ⟨.inl ⟨rfl, rfl⟩, fun seq v => signableData_none_ne_some seq seq [] v v⟩
  | some s, none =>
    obtain rfl : s = [] := hbytes
    exact .inr ⟨.inr ⟨rfl, rfl⟩, fun seq v => (signableData_none_ne_some seq seq [] v v).symm⟩
  | some s, some s' =>
    obtain rfl : s = s' := hbytes
    exact .inl fun _ _ => rfl

theorem absent_empty_signedApart :
    (∀ seq v, signableData none seq v = signableData (some []) seq v) ∨
      ((none : Option Bytes) = none ∧ some [] = some ([] : Bytes) ∨ none = some ([] : Bytes) ∧ some ([] : Bytes) = none) ∧
        ∀ seq v, signableData none seq v ≠ signableData (some []) seq v :=
  sameTarget_signedAlike (Vector.replicate 32 0) none (some []) (by decide)

end Targets
end Bep44Crypto
end LibrtbitDht
