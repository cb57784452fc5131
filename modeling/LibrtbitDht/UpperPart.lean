import LibrtbitDht.AssocMap

set_option autoImplicit false

namespace LibrtbitDht.AssocMap
variable {κ ν β : Type} [DecidableEq κ] [LinearOrder β] (key : ν → β)

/-- The part has entries of the map, and none that is missing has a larger key than one of them. -/
structure UpperPart (m part : AssocMap κ ν) : Prop where
  held : ∀ k v, part.get? k = some v → m.get? k = some v
  above : ∀ k v, m.get? k = some v → part.get? k = none → part.All (fun _ other => key v ≤ key other)

section Building
variable {key} {m part part' : AssocMap κ ν}

theorem UpperPart.refl (m : AssocMap κ ν) : UpperPart key m m where
  held _ _ h := h
  above k v h hnone := by
    rw [h] at hnone
    cases hnone

theorem UpperPart.trans (first : UpperPart key m part) (second : UpperPart key part part') :
    UpperPart key m part' where
  held k v h := first.held k v (second.held k v h)
  above k v h hnone := by
    cases hpart : part.get? k with
    | none =>
      intro k' v' h'
      exact first.above k v h hpart k' v' (second.held k' v' h')
    | some w =>
      obtain rfl := Option.some.inj (h.symm.trans (first.held k w hpart))
      exact second.above k v hpart hnone

theorem upperPart_remove {k : κ} {v : ν} (h : m.get? k = some v) (least : m.All (fun _ other => key v ≤ key other)) :
    UpperPart key m (m.remove k) where
  held k' v' h' := ((get?_remove_eq_some_iff m).1 h').2
  above k' v' h' hnone := by
    have hk : k' = k := by
      by_contra hne
      rw [get?_remove_of_ne m hne, h'] at hnone
      cases hnone
    rw [hk, h] at h'
    cases h'
    exact least.remove k

end Building

section Keys
variable {key} {m part : AssocMap κ ν}

theorem UpperPart.entries_perm (h : UpperPart key m part) :
    m.entries.Perm (part.entries ++ (m.retain (fun k _ => (part.get? k).isNone)).entries) := by
  have hsplit := (List.filter_append_perm (fun e : κ × ν => (part.get? e.1).isSome) m.entries).symm
  have hheld : (m.entries.filter (fun e => (part.get? e.1).isSome)).Perm part.entries := by
    refine (List.perm_ext_iff_of_nodup ?_ (List.Nodup.of_map _ part.nodup)).2 fun e => ?_
    · exact (List.Nodup.of_map _ m.nodup).filter _
    · rw [List.mem_filter, ← get?_eq_some_iff, Option.isSome_iff_exists, ← get?_eq_some_iff]
      constructor
      · rintro ⟨hm, w, hw⟩
        rw [hw, ← hm, h.held e.1 w hw]
      · intro he
        exact ⟨h.held e.1 e.2 he, e.2, he⟩
  have hmissing : (m.entries.filter (fun e => !(part.get? e.1).isSome)) =
      (m.retain (fun k _ => (part.get? k).isNone)).entries := by
    refine List.filter_congr fun e _ => ?_
    rw [Option.not_isSome]
  rw [hmissing] at hsplit
  exact hsplit.trans (hheld.append_right _)

/-- The keys of an upper part are the largest keys of the map, as many as the part has entries. -/
theorem UpperPart.sorted_keys (h : UpperPart key m part) :
    (part.entries.map (fun e => key e.2)).insertionSort (· ≥ ·) =
      ((m.entries.map (fun e => key e.2)).insertionSort (· ≥ ·)).take part.len := by
  set kept := part.entries.map (fun e => key e.2) with hkept
  set gone := (m.retain (fun k _ => (part.get? k).isNone)).entries.map (fun e => key e.2) with hgone
  have hperm : (m.entries.map (fun e => key e.2)).Perm (kept ++ gone) := by
    rw [hkept, hgone, ← List.map_append]
    exact h.entries_perm.map _
  have hbelow : ∀ x ∈ kept, ∀ y ∈ gone, x ≥ y := by
    intro x hx y hy
    obtain ⟨e, he, rfl⟩ := List.mem_map.1 hx
    obtain ⟨f, hf, rfl⟩ := List.mem_map.1 hy
    obtain ⟨hf, hnone⟩ := List.mem_filter.1 hf
    exact h.above f.1 f.2 ((get?_eq_some_iff m _ _).2 hf) (Option.isNone_iff_eq_none.1 hnone) e.1 e.2
      ((get?_eq_some_iff part _ _).2 he)
  have hsorted : (m.entries.map (fun e => key e.2)).insertionSort (· ≥ ·) =
      kept.insertionSort (· ≥ ·) ++ gone.insertionSort (· ≥ ·) := by
    have hparts : (kept.insertionSort (· ≥ ·) ++ gone.insertionSort (· ≥ ·)).Pairwise (· ≥ ·) := by
      rw [List.pairwise_append]
      refine ⟨List.pairwise_insertionSort _ _, List.pairwise_insertionSort _ _, ?_⟩
      intro x hx y hy
      exact hbelow x ((List.perm_insertionSort _ _).mem_iff.1 hx) y ((List.perm_insertionSort _ _).mem_iff.1 hy)
    have hsame : ((m.entries.map (fun e => key e.2)).insertionSort (· ≥ ·)).Perm
        (kept.insertionSort (· ≥ ·) ++ gone.insertionSort (· ≥ ·)) :=
      (List.perm_insertionSort _ _).trans (hperm.trans
        ((List.perm_insertionSort _ _).symm.append (List.perm_insertionSort _ _).symm))
    exact hsame.eq_of_pairwise' (List.pairwise_insertionSort _ _) hparts
  have hlen : (kept.insertionSort (· ≥ ·)).length = part.len := by
    rw [List.length_insertionSort, hkept, List.length_map, len]
  rw [hsorted, List.take_left' hlen]

end Keys
end LibrtbitDht.AssocMap
