import LibrtbitDht.TransitionRuns

set_option autoImplicit false

/-!
# Parties that exchange packets

What is on the wire stays there and may be delivered at any time, any number of times or never.
Somebody from outside may put anything on the wire. The histories and the origins are a record; no
party reads them.
-/
namespace LibrtbitDht.PartyNetwork
open TransitionRuns

variable {ι σ α π ρ ε : Type}

structure Packet (ι π : Type) where
  origin : Option ι
  content : π

/-- What a party does in a step, what it sends then, and the action that a packet is for its receiver. -/
structure Protocol (ι σ α π ρ ε : Type) where
  step : σ → α → Except ε σ
  own : α → Bool
  emits : ι → σ → α → Except ε (List π)
  receives : π → ρ → Except ε (Option (ι × α))
  blocked : ε

structure Config (ι σ α π : Type) where
  party : ι → σ
  history : ι → List α
  wire : List (Packet ι π)

inductive Event (ι α π ρ : Type) where
  | act (i : ι) (a : α)
  | deliver (num : ℕ) (reading : ρ)
  | inject (content : π)

def start (parties : ι → σ) : Config ι σ α π where
  party := parties
  history := fun _ => []
  wire := []

namespace Protocol

section Definitions
variable [DecidableEq ι] (P : Protocol ι σ α π ρ ε)

def perform (c : Config ι σ α π) (i : ι) (a : α) : Except ε (Config ι σ α π) := do
  let contents ← P.emits i (c.party i) a
  let s ← P.step (c.party i) a
  return {
    party := Function.update c.party i s
    history := Function.update c.history i (c.history i ++ [a])
    wire := c.wire ++ contents.map (Packet.mk (some i)) }

def accept (c : Config ι σ α π) : Option (ι × α) → Except ε (Config ι σ α π)
  | some (i, a) => P.perform c i a
  | none => .ok c

def deliver (c : Config ι σ α π) (reading : ρ) : Option (Packet ι π) → Except ε (Config ι σ α π)
  | some packet => P.receives packet.content reading >>= P.accept c
  | none => .error P.blocked

def next (c : Config ι σ α π) : Event ι α π ρ → Except ε (Config ι σ α π)
  | .act i a => if P.own a then P.perform c i a else .error P.blocked
  | .deliver num reading => P.deliver c reading c.wire[num]?
  | .inject content => return { c with wire := c.wire ++ [⟨none, content⟩] }

abbrev Step : Config ι σ α π → Event ι α π ρ → Config ι σ α π → Prop := TransitionRuns.Graph P.next

end Definitions

section Steps
variable [DecidableEq ι] {P : Protocol ι σ α π ρ ε} {c c' : Config ι σ α π}

theorem perform_inv {i : ι} {a : α} (h : P.perform c i a = .ok c') : ∃ contents s,
    P.emits i (c.party i) a = .ok contents ∧ P.step (c.party i) a = .ok s ∧
    c' = {
      party := Function.update c.party i s
      history := Function.update c.history i (c.history i ++ [a])
      wire := c.wire ++ contents.map (Packet.mk (some i)) } := by
  obtain ⟨contents, hemits, hrest⟩ := exists_of_bind_ok h
  obtain ⟨s, hstep, heq⟩ := exists_of_bind_ok hrest
  exact ⟨contents, s, hemits, hstep, (Except.ok.inj heq).symm⟩

theorem step_cases {e : Event ι α π ρ} (h : P.Step c e c') :
    (∃ i a, P.own a = true ∧ e = .act i a ∧ P.perform c i a = .ok c') ∨
    (∃ num reading packet i a, e = .deliver num reading ∧ c.wire[num]? = some packet ∧
      P.receives packet.content reading = .ok (some (i, a)) ∧ P.perform c i a = .ok c') ∨
    (∃ num reading, e = .deliver num reading ∧ c' = c) ∨
    ∃ content, e = .inject content ∧ c' = { c with wire := c.wire ++ [⟨none, content⟩] } := by
  cases e with
  | act i a =>
    change (if P.own a then P.perform c i a else .error P.blocked) = .ok c' at h
    by_cases hown : P.own a = true
    · rw [if_pos hown] at h
      exact .inl ⟨i, a, hown, rfl, h⟩
    · rw [if_neg hown] at h
      cases h
  | deliver num reading =>
    right
    change P.deliver c reading c.wire[num]? = .ok c' at h
    cases hpacket : c.wire[num]? with
    | none =>
      rw [hpacket] at h
      cases h
    | some packet =>
      rw [hpacket] at h
      obtain ⟨received, hreceived, hrest⟩ := exists_of_bind_ok h
      cases received with
      | none =>
        cases hrest
        exact .inr (.inl ⟨num, reading, rfl, rfl⟩)
      | some ia => exact .inl ⟨num, reading, packet, ia.1, ia.2, rfl, hpacket, hreceived, hrest⟩
  | inject content =>
    cases h
    exact .inr (.inr (.inr ⟨content, rfl, rfl⟩))

theorem history_step {e : Event ι α π ρ} (h : P.Step c e c') (i : ι) :
    c'.history i = c.history i ∨ ∃ a, c'.history i = c.history i ++ [a] := by
  have hperform : ∀ {j : ι} {a : α}, P.perform c j a = .ok c' →
      c'.history i = c.history i ∨ ∃ a, c'.history i = c.history i ++ [a] := by
    intro j a hperform
    obtain ⟨contents, s, _, _, rfl⟩ := perform_inv hperform
    dsimp only
    by_cases hij : i = j
    · subst hij
      rw [Function.update_self]
      exact .inr ⟨a, rfl⟩
    · rw [Function.update_of_ne hij]
      exact .inl rfl
  rcases step_cases h with ⟨j, a, _, _, hdone⟩ | ⟨num, reading, packet, j, a, _, _, _, hdone⟩ | ⟨num, reading, _, rfl⟩ |
    ⟨content, _, rfl⟩
  · exact hperform hdone
  · exact hperform hdone
  · exact .inl rfl
  · exact .inl rfl

end Steps

section Origins
variable (P : Protocol ι σ α π ρ ε)

def Sent (s₀ : σ) (i : ι) (history : List α) (content : π) : Prop :=
  ∃ a v contents, Did (TransitionRuns.Graph P.step) s₀ history a v ∧ P.emits i v a = .ok contents ∧ content ∈ contents

def Received (wire : List (Packet ι π)) (i : ι) (a : α) : Prop :=
  ∃ packet ∈ wire, ∃ reading, P.receives packet.content reading = .ok (some (i, a))

/-- Each party runs by itself, what is on the wire from a party was sent by it, and what a party
does not do by itself was on the wire. -/
structure Traced (parties : ι → σ) (c : Config ι σ α π) : Prop where
  run : ∀ i, Run (TransitionRuns.Graph P.step) (parties i) (c.history i) (c.party i)
  sent : ∀ packet ∈ c.wire, ∀ i ∈ packet.origin, P.Sent (parties i) i (c.history i) packet.content
  received : ∀ i, ∀ a ∈ c.history i, P.own a = false → P.Received c.wire i a

variable {P} {parties : ι → σ} {c c' : Config ι σ α π}

theorem Sent.mono {s₀ : σ} {i : ι} {history history' : List α} {content : π} (h : P.Sent s₀ i history content)
    (hbegins : history <+: history') : P.Sent s₀ i history' content := by
  obtain ⟨a, v, contents, hdid, rest⟩ := h
  exact ⟨a, v, contents, hdid.mono hbegins, rest⟩

theorem Received.mono {wire new : List (Packet ι π)} {i : ι} {a : α} (h : P.Received wire i a) :
    P.Received (wire ++ new) i a := by
  obtain ⟨packet, hpacket, rest⟩ := h
  exact ⟨packet, List.mem_append_left new hpacket, rest⟩

theorem traced_start (parties : ι → σ) : P.Traced parties (start parties) :=
  ⟨fun _ => .nil, nofun, nofun⟩

variable [DecidableEq ι]

theorem prefix_update (history : ι → List α) (i j : ι) (a : α) :
    history j <+: Function.update history i (history i ++ [a]) j := by
  by_cases hij : j = i
  · subst hij
    rw [Function.update_self]
    exact List.prefix_append _ _
  · rw [Function.update_of_ne hij]

theorem Traced.perform (h : P.Traced parties c) {i : ι} {a : α}
    (hreceived : P.own a = false → P.Received c.wire i a) (hperform : P.perform c i a = .ok c') :
    P.Traced parties c' := by
  obtain ⟨contents, s, hemits, hstep, rfl⟩ := perform_inv hperform
  constructor
  · intro j
    by_cases hij : j = i
    · subst hij
      dsimp only
      rw [Function.update_self, Function.update_self]
      exact (h.run j).snoc hstep
    · dsimp only
      rw [Function.update_of_ne hij, Function.update_of_ne hij]
      exact h.run j
  · intro packet hpacket j hj
    rcases List.mem_append.1 hpacket with hold | hnew
    · exact (h.sent packet hold j hj).mono (prefix_update c.history i j a)
    · obtain ⟨content, hcontent, rfl⟩ := List.mem_map.1 hnew
      cases Option.some.inj hj
      refine ⟨a, c.party i, contents, ?_, hemits, hcontent⟩
      dsimp only
      rw [Function.update_self]
      exact (h.run i).did a
  · intro j b hb hown
    by_cases hij : j = i
    · subst hij
      dsimp only at hb
      rw [Function.update_self] at hb
      rcases List.mem_append.1 hb with hold | hnew
      · exact (h.received j b hold hown).mono
      · cases List.mem_singleton.1 hnew
        exact (hreceived hown).mono
    · dsimp only at hb
      rw [Function.update_of_ne hij] at hb
      exact (h.received j b hb hown).mono

theorem Traced.step (h : P.Traced parties c) {e : Event ι α π ρ} (hstep : P.Step c e c') : P.Traced parties c' := by
  rcases step_cases hstep with ⟨i, a, hown, _, hperform⟩ |
    ⟨num, reading, packet, i, a, _, hpacket, hreceives, hperform⟩ | ⟨num, reading, _, rfl⟩ | ⟨content, _, rfl⟩
  · refine h.perform ?_ hperform
    intro hown'
    rw [hown] at hown'
    cases hown'
  · exact h.perform (fun _ => ⟨packet, List.mem_of_getElem? hpacket, reading, hreceives⟩) hperform
  · exact h
  · refine ⟨h.run, ?_, fun i a ha hown => (h.received i a ha hown).mono⟩
    intro packet hpacket i hi
    rcases List.mem_append.1 hpacket with hold | hnew
    · exact h.sent packet hold i hi
    · cases List.mem_singleton.1 hnew
      cases hi

theorem traced_run {events : List (Event ι α π ρ)} (run : Run P.Step (start parties) events c) : P.Traced parties c :=
  run.invariant (P.Traced parties) (traced_start parties) (fun _ _ _ h hstep => h.step hstep)

end Origins

section Closed

def Closed (events : List (Event ι α π ρ)) : Prop := ∀ content, .inject content ∉ events

variable [DecidableEq ι] {P : Protocol ι σ α π ρ ε} {parties : ι → σ} {c : Config ι σ α π}
  {events : List (Event ι α π ρ)}

theorem closed_run (run : Run P.Step (start parties) events c) (closed : Closed events) :
    ∀ packet ∈ c.wire, ∃ i, packet.origin = some i := by
  refine run.history (fun js v => (∀ e ∈ js, e ∈ events) → ∀ packet ∈ v.wire, ∃ i, packet.origin = some i)
    nofun ?_ (fun _ he => he)
  intro js v w e _ ih hstep hsub
  have hold := ih (fun e he => hsub e (List.mem_append_left _ he))
  have hsent : ∀ {i : ι} {a : α}, P.perform v i a = .ok w → ∀ packet ∈ w.wire, ∃ i, packet.origin = some i := by
    intro i a hperform packet hpacket
    obtain ⟨contents, s, _, _, rfl⟩ := perform_inv hperform
    rcases List.mem_append.1 hpacket with hpacket | hnew
    · exact hold packet hpacket
    · obtain ⟨content, _, rfl⟩ := List.mem_map.1 hnew
      exact ⟨i, rfl⟩
  rcases step_cases hstep with ⟨i, a, _, _, hperform⟩ | ⟨num, reading, packet, i, a, _, _, _, hperform⟩ |
    ⟨num, reading, _, rfl⟩ | ⟨content, rfl, rfl⟩
  · exact hsent hperform
  · exact hsent hperform
  · exact hold
  · exact absurd (hsub _ (List.mem_append_right js (List.mem_singleton_self _))) (closed content)

end Closed

section Errors
variable [DecidableEq ι] {P : Protocol ι σ α π ρ ε} {c : Config ι σ α π}

end Errors
end Protocol
end LibrtbitDht.PartyNetwork
