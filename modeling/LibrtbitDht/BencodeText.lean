import LibrtbitDht.Bencode

set_option autoImplicit false

namespace Bencode
open ByteStrings

section Encoding

def encodeInt (n : ℤ) : Bytes := 105 :: ((if n < 0 then [45] else []) ++ (numeral n.natAbs ++ [101]))

def encodeBytes (b : Bytes) : Bytes := numeral b.length ++ 58 :: b

mutual
def encode : BValue → Bytes
  | .int n => encodeInt n
  | .bytes b => encodeBytes b
  | .list vs => 108 :: (encodeList vs ++ [101])
  | .dict es => 100 :: (encodeEntries es ++ [101])
def encodeList : List BValue → Bytes
  | [] => []
  | v :: vs => encode v ++ encodeList vs
def encodeEntries : List Entry → Bytes
  | [] => []
  | (k, v) :: es => encodeBytes k ++ (encode v ++ encodeEntries es)
end

theorem encodeBytes_length (b : Bytes) : (encodeBytes b).length = (numeral b.length).length + 1 + b.length := by
  rw [encodeBytes, List.length_append, List.length_cons]
  omega

theorem encodeList_eq (vs : List BValue) : encodeList vs = vs.flatMap encode := by
  induction vs with
  | nil => rfl
  | cons v vs ih => rw [encodeList, ih, List.flatMap_cons]

theorem encodeEntries_eq (es : List Entry) : encodeEntries es = es.flatMap (fun e => encodeBytes e.1 ++ encode e.2) := by
  induction es with
  | nil => rfl
  | cons e es ih => rw [encodeEntries, ih, List.flatMap_cons, List.append_assoc]

theorem encode_length (v : BValue) : (encode v).length = size v := by
  match v with
  | .int n =>
    rw [encode, size, encodeInt]
    split_ifs <;> simp <;> omega
  | .bytes b => rw [encode, size, encodeBytes_length]
  | .list vs =>
    have heach : vs.map (fun w => (encode w).length) = vs.map size := List.map_congr_left fun w _ => encode_length w
    have hlength : (vs.flatMap encode).length = (vs.map size).sum := by
      rw [List.length_flatMap]
      exact congrArg List.sum heach
    rw [encode, size, encodeList_eq, sizeList_eq, List.length_cons, List.length_append, hlength, List.length_singleton]
    omega
  | .dict es =>
    have heach : es.map (fun e => (encodeBytes e.1 ++ encode e.2).length) = es.map entrySize := by
      apply List.map_congr_left
      intro e he
      have hsmaller : sizeOf e.2 < 1 + sizeOf es := by
        have hentry : sizeOf e = 1 + sizeOf e.1 + sizeOf e.2 := rfl
        have hin := List.sizeOf_lt_of_mem he
        omega
      have hsize := encode_length e.2
      rw [List.length_append, encodeBytes_length, hsize, entrySize, textSize]
    have hlength : (es.flatMap (fun e => encodeBytes e.1 ++ encode e.2)).length = (es.map entrySize).sum := by
      rw [List.length_flatMap]
      exact congrArg List.sum heach
    rw [encode, size, encodeEntries_eq, sizeEntries_eq, List.length_cons, List.length_append, hlength,
      List.length_singleton]
    omega
termination_by v

end Encoding

section Parsing

def parseInt (bs : Bytes) : Option (BValue × Bytes) := do
  let negative := bs.head? = some 45
  match ← readNumeral (if negative then bs.tail else bs) with
  | (n, 101 :: rest) => some (.int (if negative then -n else n), rest)
  | _ => none

def parseBytes (bs : Bytes) : Option (Bytes × Bytes) := do
  match ← readNumeral bs with
  | (n, 58 :: rest) => if n ≤ rest.length then some (rest.take n, rest.drop n) else none
  | _ => none

mutual
def parse : ℕ → Bytes → Option (BValue × Bytes)
  | 0, _ => none
  | _ + 1, [] => none
  | fuel + 1, b :: bs =>
    if b = 105 then parseInt bs
    else if b = 108 then (parseList fuel bs).map (fun r => (.list r.1, r.2))
    else if b = 100 then (parseEntries fuel bs).map (fun r => (.dict r.1, r.2))
    else (parseBytes (b :: bs)).map (fun r => (.bytes r.1, r.2))
def parseList : ℕ → Bytes → Option (List BValue × Bytes)
  | 0, _ => none
  | fuel + 1, bs =>
    if bs.head? = some 101 then some ([], bs.tail)
    else do
      let (v, bs) ← parse fuel bs
      let (vs, bs) ← parseList fuel bs
      return (v :: vs, bs)
def parseEntries : ℕ → Bytes → Option (List Entry × Bytes)
  | 0, _ => none
  | fuel + 1, bs =>
    if bs.head? = some 101 then some ([], bs.tail)
    else do
      let (k, bs) ← parseBytes bs
      let (v, bs) ← parse fuel bs
      let (es, bs) ← parseEntries fuel bs
      return ((k, v) :: es, bs)
end

def decode (bs : Bytes) : Option BValue :=
  match parse bs.length bs with
  | some (v, []) => some v
  | _ => none

theorem numeral_head (n : ℕ) : ∃ d ds, numeral n = d :: ds ∧ isDigit d = true := by
  obtain ⟨d, ds, h⟩ := List.exists_cons_of_ne_nil (numeral_ne_nil n)
  exact ⟨d, ds, h, numeral_digits n d (by rw [h]; exact List.mem_cons_self)⟩

theorem parseInt_encodeInt (n : ℤ) (rest : Bytes) :
    ∃ bs, encodeInt n ++ rest = 105 :: bs ∧ parseInt bs = some (.int n, rest) := by
  have hread := readNumeral_numeral n.natAbs rest (show isDigit 101 = false by decide)
  by_cases hneg : n < 0
  · have habs : -((n.natAbs : ℕ) : ℤ) = n := by omega
    refine ⟨45 :: (numeral n.natAbs ++ 101 :: rest), by simp [encodeInt, hneg], ?_⟩
    have hsign : (45 :: (numeral n.natAbs ++ 101 :: rest)).head? = some 45 := rfl
    simp only [parseInt, hsign, if_true, List.tail_cons, hread, habs, Option.bind_eq_bind, Option.bind_some]
  · have habs : ((n.natAbs : ℕ) : ℤ) = n := by omega
    obtain ⟨d, ds, hnumeral, hdigit⟩ := numeral_head n.natAbs
    have hsign : (numeral n.natAbs ++ 101 :: rest).head? ≠ some 45 := by
      rw [hnumeral]
      rintro heq
      cases heq
      cases hdigit
    refine ⟨numeral n.natAbs ++ 101 :: rest, by simp [encodeInt, hneg], ?_⟩
    simp only [parseInt, hsign, if_false, hread, habs, Option.bind_eq_bind, Option.bind_some]

theorem parseBytes_encodeBytes (b rest : Bytes) : parseBytes (encodeBytes b ++ rest) = some (b, rest) := by
  have hread := readNumeral_numeral b.length (b ++ rest) (show isDigit 58 = false by decide)
  rw [parseBytes, encodeBytes, List.append_assoc, List.cons_append, hread]
  simp

theorem encodeBytes_head (b : Bytes) : ∃ d ds, encodeBytes b = d :: ds ∧ isDigit d = true := by
  obtain ⟨d, ds, h, hd⟩ := numeral_head b.length
  exact ⟨d, ds ++ 58 :: b, by rw [encodeBytes, h, List.cons_append], hd⟩

theorem encodeBytes_not_end (b rest : Bytes) : (encodeBytes b ++ rest).head? ≠ some 101 := by
  obtain ⟨d, ds, h, hd⟩ := encodeBytes_head b
  rw [h]
  rintro heq
  cases heq
  cases hd

theorem encode_not_end (v : BValue) (rest : Bytes) : (encode v ++ rest).head? ≠ some 101 := by
  cases v with
  | int n => simp [encode, encodeInt]
  | bytes b =>
    rw [encode]
    exact encodeBytes_not_end b rest
  | list vs => simp [encode]
  | dict es => simp [encode]

theorem size_pos (v : BValue) : 0 < size v := by
  cases v <;> simp only [size] <;> omega

mutual
theorem parse_encode : ∀ (v : BValue) (fuel : ℕ) (rest : Bytes), size v ≤ fuel →
    parse fuel (encode v ++ rest) = some (v, rest)
  | v, 0, _, h => absurd h (Nat.not_le.2 (size_pos v))
  | .int n, fuel + 1, rest, _ => by
    obtain ⟨bs, hbs, hparse⟩ := parseInt_encodeInt n rest
    rw [encode, hbs, parse, if_pos rfl, hparse]
  | .bytes b, fuel + 1, rest, _ => by
    obtain ⟨d, ds, hd, hdigit⟩ := encodeBytes_head b
    have hkind : d ≠ 105 ∧ d ≠ 108 ∧ d ≠ 100 := by
      refine ⟨?_, ?_, ?_⟩ <;> rintro rfl <;> cases hdigit
    have hparse := parseBytes_encodeBytes b rest
    rw [encode]
    rw [hd, List.cons_append] at hparse ⊢
    rw [parse, if_neg hkind.1, if_neg hkind.2.1, if_neg hkind.2.2, hparse, Option.map_some]
  | .list vs, fuel + 1, rest, h => by
    have hfuel : sizeList vs + 1 ≤ fuel := by
      rw [size] at h
      omega
    rw [encode, List.cons_append, List.append_assoc, List.singleton_append, parse, if_neg (by decide),
      if_pos rfl, parseList_encodeList vs fuel rest hfuel, Option.map_some]
  | .dict es, fuel + 1, rest, h => by
    have hfuel : sizeEntries es + 1 ≤ fuel := by
      rw [size] at h
      omega
    rw [encode, List.cons_append, List.append_assoc, List.singleton_append, parse, if_neg (by decide),
      if_neg (by decide), if_pos rfl, parseEntries_encodeEntries es fuel rest hfuel, Option.map_some]
theorem parseList_encodeList : ∀ (vs : List BValue) (fuel : ℕ) (rest : Bytes), sizeList vs + 1 ≤ fuel →
    parseList fuel (encodeList vs ++ 101 :: rest) = some (vs, rest)
  | _, 0, _, h => by omega
  | [], fuel + 1, rest, _ => rfl
  | v :: vs, fuel + 1, rest, h => by
    rw [sizeList] at h
    have hpos := size_pos v
    rw [encodeList, List.append_assoc, parseList, if_neg (encode_not_end v _),
      parse_encode v fuel _ (by omega)]
    change (do
      let (vs, bs) ← parseList fuel (encodeList vs ++ 101 :: rest)
      return (v :: vs, bs) : Option (List BValue × Bytes)) = _
    rw [parseList_encodeList vs fuel rest (by omega)]
    rfl
theorem parseEntries_encodeEntries : ∀ (es : List Entry) (fuel : ℕ) (rest : Bytes), sizeEntries es + 1 ≤ fuel →
    parseEntries fuel (encodeEntries es ++ 101 :: rest) = some (es, rest)
  | _, 0, _, h => by omega
  | [], fuel + 1, rest, _ => rfl
  | (k, v) :: es, fuel + 1, rest, h => by
    rw [sizeEntries] at h
    have hpos := size_pos v
    rw [encodeEntries, List.append_assoc, List.append_assoc, parseEntries, if_neg (encodeBytes_not_end k _),
      parseBytes_encodeBytes k]
    change (do
      let (v, bs) ← parse fuel (encode v ++ (encodeEntries es ++ 101 :: rest))
      let (es, bs) ← parseEntries fuel bs
      return ((k, v) :: es, bs) : Option (List Entry × Bytes)) = _
    rw [parse_encode v fuel _ (by omega)]
    change (do
      let (es, bs) ← parseEntries fuel (encodeEntries es ++ 101 :: rest)
      return ((k, v) :: es, bs) : Option (List Entry × Bytes)) = _
    rw [parseEntries_encodeEntries es fuel rest (by omega)]
    rfl
end

theorem decode_encode (v : BValue) : decode (encode v) = some v := by
  have hparse := parse_encode v (encode v).length [] (by rw [encode_length])
  rw [List.append_nil] at hparse
  rw [decode, hparse]

end Parsing

section Prefixes

theorem parseInt_append {bs rest : Bytes} {v : BValue} (h : parseInt bs = some (v, rest)) (more : Bytes) :
    parseInt (bs ++ more) = some (v, rest ++ more) := by
  obtain ⟨⟨n, after⟩, hread, hrest⟩ := Option.bind_eq_some_iff.1 h
  have hcons : bs ≠ [] := by
    rintro rfl
    cases hread
  obtain ⟨c, cs, rfl⟩ := List.exists_cons_of_ne_nil hcons
  cases after with
  | nil => cases hrest
  | cons e after =>
    have hmark : e = 101 := by
      by_contra hne
      simp [hne] at hrest
    subst hmark
    cases hrest
    have hmore := readNumeral_append hread more
    have hsigned : (if ((c :: cs) ++ more).head? = some 45 then ((c :: cs) ++ more).tail else (c :: cs) ++ more) =
        (if (c :: cs).head? = some 45 then (c :: cs).tail else c :: cs) ++ more := by
      by_cases hsign : c = 45 <;> simp [hsign]
    rw [parseInt]
    rw [hsigned, hmore]
    rfl

theorem parseBytes_append {bs b rest : Bytes} (h : parseBytes bs = some (b, rest)) (more : Bytes) :
    parseBytes (bs ++ more) = some (b, rest ++ more) := by
  obtain ⟨⟨n, after⟩, hread, hrest⟩ := Option.bind_eq_some_iff.1 h
  cases after with
  | nil => cases hrest
  | cons e after =>
    have hmark : e = 58 := by
      by_contra hne
      simp [hne] at hrest
    subst hmark
    change (if n ≤ after.length then some (after.take n, after.drop n) else none) = some (b, rest) at hrest
    split_ifs at hrest with hn
    cases hrest
    rw [parseBytes, readNumeral_append hread more]
    have hlength : n ≤ (after ++ more).length := by
      rw [List.length_append]
      omega
    change (if n ≤ (after ++ more).length then some ((after ++ more).take n, (after ++ more).drop n) else none) = _
    rw [if_pos hlength, List.take_append_of_le_length hn, List.drop_append_of_le_length hn]

mutual
/-- What is read from the front of a text does not depend on what follows, nor on the fuel. -/
theorem parse_append (more : Bytes) : ∀ (fuel fuel' : ℕ) (bs : Bytes) (v : BValue) (rest : Bytes), fuel ≤ fuel' →
    parse fuel bs = some (v, rest) → parse fuel' (bs ++ more) = some (v, rest ++ more)
  | 0, _, _, _, _, _, h => by cases h
  | _ + 1, _, [], _, _, _, h => by cases h
  | fuel + 1, 0, b :: bs, v, rest, hle, _ => by omega
  | fuel + 1, fuel' + 1, b :: bs, v, rest, hle, h => by
    have hle' : fuel ≤ fuel' := by omega
    rw [parse] at h
    rw [List.cons_append, parse]
    split_ifs at h ⊢
    · exact parseInt_append h more
    · obtain ⟨⟨vs, after⟩, hlist, heq⟩ := Option.map_eq_some_iff.1 h
      cases heq
      rw [parseList_append more fuel fuel' bs vs after hle' hlist]
      rfl
    · obtain ⟨⟨es, after⟩, hentries, heq⟩ := Option.map_eq_some_iff.1 h
      cases heq
      rw [parseEntries_append more fuel fuel' bs es after hle' hentries]
      rfl
    · obtain ⟨⟨text, after⟩, hbytes, heq⟩ := Option.map_eq_some_iff.1 h
      cases heq
      rw [← List.cons_append, parseBytes_append hbytes more]
      rfl
theorem parseList_append (more : Bytes) : ∀ (fuel fuel' : ℕ) (bs : Bytes) (vs : List BValue) (rest : Bytes),
    fuel ≤ fuel' → parseList fuel bs = some (vs, rest) → parseList fuel' (bs ++ more) = some (vs, rest ++ more)
  | 0, _, _, _, _, _, h => by cases h
  | fuel + 1, 0, _, _, _, hle, _ => by omega
  | fuel + 1, fuel' + 1, bs, vs, rest, hle, h => by
    have hle' : fuel ≤ fuel' := by omega
    rw [parseList] at h
    split_ifs at h with hend
    · obtain ⟨cs, rfl⟩ : ∃ cs, bs = 101 :: cs := List.head?_eq_some_iff.1 hend
      cases h
      rfl
    · obtain ⟨⟨v, after⟩, hv, htail⟩ := Option.bind_eq_some_iff.1 h
      obtain ⟨⟨vs', after'⟩, hvs, heq⟩ := Option.bind_eq_some_iff.1 htail
      cases heq
      have hcons : bs ≠ [] := by
        rintro rfl
        cases fuel <;> cases hv
      have hend' : ¬ (bs ++ more).head? = some 101 := by rwa [List.head?_append_of_ne_nil _ hcons]
      rw [parseList, if_neg hend', parse_append more fuel fuel' bs v after hle' hv]
      change (do
        let (vs, bs) ← parseList fuel' (after ++ more)
        return (v :: vs, bs) : Option (List BValue × Bytes)) = _
      rw [parseList_append more fuel fuel' after vs' rest hle' hvs]
      rfl
theorem parseEntries_append (more : Bytes) : ∀ (fuel fuel' : ℕ) (bs : Bytes) (es : List Entry) (rest : Bytes),
    fuel ≤ fuel' → parseEntries fuel bs = some (es, rest) → parseEntries fuel' (bs ++ more) = some (es, rest ++ more)
  | 0, _, _, _, _, _, h => by cases h
  | fuel + 1, 0, _, _, _, hle, _ => by omega
  | fuel + 1, fuel' + 1, bs, es, rest, hle, h => by
    have hle' : fuel ≤ fuel' := by omega
    rw [parseEntries] at h
    split_ifs at h with hend
    · obtain ⟨cs, rfl⟩ : ∃ cs, bs = 101 :: cs := List.head?_eq_some_iff.1 hend
      cases h
      rfl
    · obtain ⟨⟨k, afterKey⟩, hk, htail⟩ := Option.bind_eq_some_iff.1 h
      obtain ⟨⟨v, after⟩, hv, htail'⟩ := Option.bind_eq_some_iff.1 htail
      obtain ⟨⟨es', after'⟩, hes, heq⟩ := Option.bind_eq_some_iff.1 htail'
      cases heq
      have hcons : bs ≠ [] := by
        rintro rfl
        cases hk
      have hend' : ¬ (bs ++ more).head? = some 101 := by rwa [List.head?_append_of_ne_nil _ hcons]
      rw [parseEntries, if_neg hend', parseBytes_append hk more]
      change (do
        let (v, bs) ← parse fuel' (afterKey ++ more)
        let (es, bs) ← parseEntries fuel' bs
        return ((k, v) :: es, bs) : Option (List Entry × Bytes)) = _
      rw [parse_append more fuel fuel' afterKey v after hle' hv]
      change (do
        let (es, bs) ← parseEntries fuel' (after ++ more)
        return ((k, v) :: es, bs) : Option (List Entry × Bytes)) = _
      rw [parseEntries_append more fuel fuel' after es' rest hle' hes]
      rfl
end

theorem decode_take_encode (v : BValue) (n : ℕ) (h : n < (encode v).length) : decode ((encode v).take n) = none := by
  rw [decode]
  split
  · next w hparse =>
    have hlength : ((encode v).take n).length ≤ (encode v).length := by
      rw [List.length_take]
      omega
    have hwhole := parse_append ((encode v).drop n) _ _ _ w [] hlength hparse
    have hall := parse_encode v (encode v).length [] (by rw [encode_length])
    rw [List.take_append_drop, List.nil_append] at hwhole
    rw [List.append_nil, hwhole] at hall
    have hdrop := congrArg List.length (Prod.ext_iff.1 (Option.some.inj hall)).2
    rw [List.length_drop, List.length_nil] at hdrop
    omega
  · rfl

end Prefixes

/-- The standard encoding as an implementation, with what it makes of integers that do not fit. -/
def Codec.ofStandard (stray : BValue → Except Failure BValue) : Codec where
  write := fun v => some (encode v)
  read := fun bs => match decode bs with
    | some v => .ok v
    | none => .error .refused
  stray
  lawful := by
    intro v _
    refine ⟨encode v, rfl, ?_, encode_length v⟩
    simp only [decode_encode]

theorem Codec.ofStandard_read (stray : BValue → Except Failure BValue) (v : BValue) :
    (Codec.ofStandard stray).read (encode v) = .ok v := by
  simp only [Codec.ofStandard, decode_encode]

def Codec.standard : Codec := .ofStandard (fun v => .ok v)

theorem Codec.standard_read (v : BValue) : Codec.standard.read (encode v) = .ok v := Codec.ofStandard_read _ v

def Codec.guarded : Codec := .ofStandard (fun _ => .error .crashed)

instance : Inhabited Codec := ⟨.standard⟩

structure WholeCodec extends Codec where
  whole : ∀ v b n, Canonical depthRead v → write v = some b → n < b.length → read (b.take n) = .error .refused

def WholeCodec.standard : WholeCodec where
  toCodec := .standard
  whole := by
    intro v b n _ hwrite hn
    cases hwrite
    simp only [Codec.standard, Codec.ofStandard, decode_take_encode v n hn]

end Bencode
