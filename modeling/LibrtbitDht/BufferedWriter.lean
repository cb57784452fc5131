import Mathlib

set_option autoImplicit false

/-!
# A buffered writer over a file that may fail

Every call that writes to the file has a result that its environment chooses: it takes
some of the elements offered, or it fails, or the process stops after some of them.
Interrupted calls are repeated by the writer and leave no trace, so they are not
listed. A call that takes nothing counts as a failure.
-/
namespace LibrtbitDht.BufferedWriter

variable {α : Type}

inductive WriteResult where
  | wrote (n : ℕ)
  | failed
  | stopped (n : ℕ)
deriving DecidableEq, Repr

inductive Halt where
  | failed
  | stopped
deriving DecidableEq, Repr

structure File (α : Type) where
  content : List α
  calls : ℕ
deriving DecidableEq, Repr

structure Pushed (α : Type) where
  halt : Option Halt
  file : File α
  rest : List α
deriving DecidableEq, Repr

/-- Writes until nothing is left or a call does not succeed; every call takes at least one element,
so there are at most as many as elements. -/
def push (results : ℕ → WriteResult) : ℕ → File α → List α → Pushed α
  | 0, file, rest => ⟨none, file, rest⟩
  | fuel + 1, file, rest =>
    if rest.isEmpty then ⟨none, file, rest⟩
    else
      match results file.calls with
      | .wrote 0 => ⟨some .failed, ⟨file.content, file.calls + 1⟩, rest⟩
      | .wrote (n + 1) =>
        push results fuel ⟨file.content ++ rest.take (n + 1), file.calls + 1⟩ (rest.drop (n + 1))
      | .failed => ⟨some .failed, ⟨file.content, file.calls + 1⟩, rest⟩
      | .stopped n => ⟨some .stopped, ⟨file.content ++ rest.take n, file.calls + 1⟩, rest.drop n⟩

structure BufWriter (α : Type) where
  file : File α
  buf : List α
deriving DecidableEq, Repr

def flushBuf (results : ℕ → WriteResult) (w : BufWriter α) : Option Halt × BufWriter α :=
  let pushed := push results w.buf.length w.file w.buf
  (pushed.halt, ⟨pushed.file, pushed.rest⟩)

/-- Keeps the chunk in the buffer if it fits; a chunk as long as the buffer goes to the file. -/
def writeAll (results : ℕ → WriteResult) (capacity : ℕ) (w : BufWriter α) (chunk : List α) :
    Option Halt × BufWriter α :=
  let spare := capacity - w.buf.length
  if chunk.length < spare then (none, { w with buf := w.buf ++ chunk })
  else
    let (halt, w) := if chunk.length > spare then flushBuf results w else (none, w)
    match halt with
    | some h => (some h, w)
    | none =>
      if chunk.length ≥ capacity then
        let pushed := push results chunk.length w.file chunk
        (pushed.halt, { w with file := pushed.file })
      else (none, { w with buf := w.buf ++ chunk })

def writeChunks (results : ℕ → WriteResult) (capacity : ℕ) :
    BufWriter α → List (List α) → Option Halt × BufWriter α
  | w, [] => (none, w)
  | w, chunk :: chunks =>
    match writeAll results capacity w chunk with
    | (none, w) => writeChunks results capacity w chunks
    | (some h, w) => (some h, w)

section Pushing
variable (results : ℕ → WriteResult)

theorem push_conserves (fuel : ℕ) (file : File α) (rest : List α) :
    (push results fuel file rest).file.content ++ (push results fuel file rest).rest =
      file.content ++ rest := by
  induction fuel generalizing file rest with
  | zero => rfl
  | succ fuel ih =>
    unfold push
    split_ifs
    · rfl
    · cases results file.calls with
      | wrote n =>
        cases n with
        | zero => rfl
        | succ n =>
          dsimp only
          rw [ih, List.append_assoc, List.take_append_drop]
      | failed => rfl
      | stopped n =>
        dsimp only
        rw [List.append_assoc, List.take_append_drop]

theorem push_rest (fuel : ℕ) (file : File α) (rest : List α) (hfuel : rest.length ≤ fuel)
    (h : (push results fuel file rest).halt = none) : (push results fuel file rest).rest = [] := by
  induction fuel generalizing file rest with
  | zero => exact List.length_eq_zero_iff.1 (Nat.le_zero.1 hfuel)
  | succ fuel ih =>
    unfold push at h ⊢
    split_ifs at h ⊢ with hempty
    · exact List.isEmpty_iff.1 hempty
    · cases hr : results file.calls with
      | wrote n =>
        cases n with
        | zero => simp only [hr] at h; cases h
        | succ n =>
          simp only [hr] at h ⊢
          refine ih _ _ ?_ h
          rw [List.length_drop]
          omega
      | failed => simp only [hr] at h; cases h
      | stopped n => simp only [hr] at h; cases h

theorem push_succeeds (progress : ∀ i, ∃ n, results i = .wrote (n + 1)) (fuel : ℕ) (file : File α)
    (rest : List α) : (push results fuel file rest).halt = none := by
  induction fuel generalizing file rest with
  | zero => rfl
  | succ fuel ih =>
    unfold push
    split_ifs
    · rfl
    · obtain ⟨n, hn⟩ := progress file.calls
      rw [hn]
      exact ih _ _

theorem push_complete {file : File α} {rest : List α}
    (h : (push results rest.length file rest).halt = none) :
    (push results rest.length file rest).file.content = file.content ++ rest := by
  have hall := push_conserves results rest.length file rest
  rw [push_rest results rest.length file rest (le_refl _) h, List.append_nil] at hall
  exact hall

end Pushing

section Buffering
variable (results : ℕ → WriteResult) {capacity : ℕ}

def nextBuf (capacity : ℕ) (buf chunk : List α) : List α :=
  if chunk.length < capacity - buf.length then buf ++ chunk
  else if chunk.length ≥ capacity then []
  else if chunk.length > capacity - buf.length then chunk
  else buf ++ chunk

/-- A chunk that was written is in the file or in the buffer, after everything before it. -/
theorem writeAll_spec (positive : 0 < capacity) {w w' : BufWriter α} {chunk : List α}
    (h : writeAll results capacity w chunk = (none, w')) :
    w'.file.content ++ w'.buf = w.file.content ++ w.buf ++ chunk ∧ w'.buf = nextBuf capacity w.buf chunk := by
  unfold writeAll at h
  unfold nextBuf
  dsimp only at h
  by_cases hfits : chunk.length < capacity - w.buf.length
  · rw [if_pos hfits] at h ⊢
    obtain rfl : _ = w' := congrArg Prod.snd h
    exact ⟨(List.append_assoc _ _ _).symm, rfl⟩
  rw [if_neg hfits] at h ⊢
  by_cases hflush : chunk.length > capacity - w.buf.length
  · rw [if_pos hflush] at h ⊢
    unfold flushBuf at h
    dsimp only at h
    cases hhalt : (push results w.buf.length w.file w.buf).halt with
    | some halt => rw [hhalt] at h; cases h
    | none =>
      have hfile := push_complete results hhalt
      have hrest := push_rest results _ _ _ (le_refl _) hhalt
      rw [hhalt] at h
      dsimp only at h
      rw [hrest] at h
      by_cases hlong : chunk.length ≥ capacity
      · rw [if_pos hlong] at h ⊢
        have hhalt' := congrArg Prod.fst h
        obtain rfl : _ = w' := congrArg Prod.snd h
        have hdirect := push_complete results hhalt'
        refine ⟨?_, rfl⟩
        dsimp only
        rw [hdirect, hfile, List.append_nil]
      · rw [if_neg hlong] at h ⊢
        obtain rfl : _ = w' := congrArg Prod.snd h
        exact ⟨by simp [hfile], rfl⟩
  · rw [if_neg hflush] at h ⊢
    dsimp only at h
    by_cases hlong : chunk.length ≥ capacity
    · rw [if_pos hlong] at h ⊢
      have hempty : w.buf = [] := by
        refine List.length_eq_zero_iff.1 ?_
        omega
      have hhalt := congrArg Prod.fst h
      obtain rfl : _ = w' := congrArg Prod.snd h
      have hdirect := push_complete results hhalt
      refine ⟨?_, hempty⟩
      dsimp only
      rw [hdirect, hempty]
      simp
    · rw [if_neg hlong] at h ⊢
      obtain rfl : _ = w' := congrArg Prod.snd h
      exact ⟨(List.append_assoc _ _ _).symm, rfl⟩

theorem writeChunks_spec (positive : 0 < capacity) {w w' : BufWriter α} {chunks : List (List α)}
    (h : writeChunks results capacity w chunks = (none, w')) :
    w'.file.content ++ w'.buf = w.file.content ++ w.buf ++ chunks.flatten ∧
      w'.buf = chunks.foldl (nextBuf capacity) w.buf := by
  induction chunks generalizing w with
  | nil =>
    obtain rfl : w = w' := congrArg Prod.snd h
    simp
  | cons chunk chunks ih =>
    rw [writeChunks] at h
    cases hchunk : writeAll results capacity w chunk with
    | mk halt v =>
      rw [hchunk] at h
      cases halt with
      | some halt => cases h
      | none =>
        obtain ⟨hfile, hbuf⟩ := writeAll_spec results positive hchunk
        obtain ⟨hfile', hbuf'⟩ := ih h
        refine ⟨?_, ?_⟩
        · rw [hfile', hfile, List.flatten_cons, List.append_assoc _ chunk]
        · rw [hbuf', hbuf, List.foldl_cons]

/-- A text that is shorter than the buffer stays there. -/
theorem writeChunks_buffered (w : BufWriter α) (chunks : List (List α))
    (hshort : w.buf.length + chunks.flatten.length < capacity) :
    writeChunks results capacity w chunks = (none, { w with buf := w.buf ++ chunks.flatten }) := by
  induction chunks generalizing w with
  | nil => rw [writeChunks, List.flatten_nil, List.append_nil]
  | cons chunk chunks ih =>
    rw [List.flatten_cons, List.length_append] at hshort
    have hkept : writeAll results capacity w chunk = (none, { w with buf := w.buf ++ chunk }) := by
      unfold writeAll
      rw [if_pos (by omega)]
    rw [writeChunks, hkept]
    dsimp only
    rw [ih, List.flatten_cons, List.append_assoc]
    rw [List.length_append]
    omega

theorem writeChunks_succeeds (progress : ∀ i, ∃ n, results i = .wrote (n + 1)) (w : BufWriter α)
    (chunks : List (List α)) : (writeChunks results capacity w chunks).1 = none := by
  have hone : ∀ (v : BufWriter α) (chunk : List α), (writeAll results capacity v chunk).1 = none := by
    intro v chunk
    unfold writeAll flushBuf
    dsimp only
    rw [push_succeeds results progress]
    split_ifs
    · rfl
    · exact push_succeeds results progress _ _ _
    · rfl
    · exact push_succeeds results progress _ _ _
    · rfl
  induction chunks generalizing w with
  | nil => rfl
  | cons chunk chunks ih =>
    have hchunk := hone w chunk
    rw [writeChunks]
    cases hw : writeAll results capacity w chunk with
    | mk halt v =>
      rw [hw] at hchunk
      obtain rfl : halt = none := hchunk
      exact ih v

def LastChunkFills (capacity : ℕ) (chunks : List (List α)) : Prop :=
  ∀ chunk, (chunks.filter (fun c => !c.isEmpty)).getLast? = some chunk → capacity ≤ chunk.length

theorem nextBuf_eq_nil_iff (positive : 0 < capacity) (buf chunk : List α) :
    nextBuf capacity buf chunk = [] ↔ (chunk = [] ∧ buf = []) ∨ capacity ≤ chunk.length := by
  unfold nextBuf
  by_cases hlong : capacity ≤ chunk.length
  · rw [if_neg (by omega), if_pos hlong]
    exact ⟨fun _ => .inr hlong, fun _ => rfl⟩
  · rw [if_neg hlong]
    simp only [hlong, or_false]
    split_ifs with hfits hflush
    · rw [List.append_eq_nil_iff]
      exact And.comm
    · have hne : chunk ≠ [] := by
        rintro rfl
        simp at hflush
      exact ⟨fun h => absurd h hne, fun h => absurd h.1 hne⟩
    · rw [List.append_eq_nil_iff]
      exact And.comm

/-- The buffer is empty after the last chunk just when that chunk filled it by itself. -/
theorem foldl_nextBuf_eq_nil_iff (positive : 0 < capacity) (chunks : List (List α)) :
    chunks.foldl (nextBuf capacity) [] = [] ↔ LastChunkFills capacity chunks := by
  induction chunks using List.reverseRecOn with
  | nil => simp [LastChunkFills]
  | append_singleton chunks chunk ih =>
    rw [List.foldl_append, List.foldl_cons, List.foldl_nil, nextBuf_eq_nil_iff positive, ih]
    unfold LastChunkFills
    rw [List.filter_append, List.filter_singleton]
    cases chunk with
    | nil =>
      have hzero : capacity ≠ 0 := positive.ne'
      simp [hzero]
    | cons a as => simp

end Buffering

end LibrtbitDht.BufferedWriter
