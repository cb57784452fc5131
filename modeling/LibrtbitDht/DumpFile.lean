import LibrtbitDht.BufferedWriter
import LibrtbitDht.ByteStrings
import LibrtbitDht.Persistence

set_option autoImplicit false

namespace LibrtbitDht
open BufferedWriter JsonValue
open ByteStrings (Bytes ascii numeral)
namespace DumpFile

def bufWriterCapacity : ℕ := 8192

inductive CallResult where
  | ok
  | failed
  | stopped
deriving DecidableEq, Repr

/-- What the calls to the operating system do: opening the temporary file, the writes while
serialising, the rename, and the writes when the writer is dropped. -/
structure Environment where
  opens : CallResult
  writes : ℕ → WriteResult
  renames : CallResult
  lastWrites : ℕ → WriteResult

inductive Ending where
  | returned (ok : Bool)
  | stopped
deriving DecidableEq, Repr

structure Dumped where
  ending : Ending
  target : Option Bytes
deriving DecidableEq, Repr

/-- Leaving the function drops the writer, which flushes and ignores errors. -/
def leave (env : Environment) (w : BufWriter UInt8) (ok : Bool) (target : Bytes → Option Bytes) : Dumped :=
  let pushed := push env.lastWrites w.buf.length ⟨w.file.content, 0⟩ w.buf
  if pushed.halt = some .stopped then ⟨.stopped, target pushed.file.content⟩
  else ⟨.returned ok, target pushed.file.content⟩

/-- `chunks` are the pieces in which the serialiser writes the text, `old` is what the target holds. -/
def dumpDht (env : Environment) (chunks : List Bytes) (old : Option Bytes) : Dumped :=
  match env.opens with
  | .failed => ⟨.returned false, old⟩
  | .stopped => ⟨.stopped, old⟩
  | .ok =>
    match writeChunks env.writes bufWriterCapacity ⟨⟨[], 0⟩, []⟩ chunks with
    | (some .stopped, _) => ⟨.stopped, old⟩
    | (some .failed, w) => leave env w false (fun _ => old)
    | (none, w) =>
      match env.renames with
      | .failed => leave env w false (fun _ => old)
      | .stopped => ⟨.stopped, old⟩
      -- the open file is the target from here on
      | .ok => leave env w true some

/-- The target holds its earlier content or the whole text, and the latter after a success. -/
def Atomic (text : Bytes) (old : Option Bytes) (dumped : Dumped) : Prop :=
  (dumped.target = old ∨ dumped.target = some text) ∧
    (dumped.ending = .returned true → dumped.target = some text)

section Runs
variable (env : Environment) (chunks : List Bytes) (old : Option Bytes)

def serialised : Option Halt × BufWriter UInt8 :=
  writeChunks env.writes bufWriterCapacity ⟨⟨[], 0⟩, []⟩ chunks

def Renamed : Prop := env.opens = .ok ∧ (serialised env chunks).1 = none ∧ env.renames = .ok

def lastFlush : Pushed UInt8 :=
  push env.lastWrites (serialised env chunks).2.buf.length ⟨(serialised env chunks).2.file.content, 0⟩
    (serialised env chunks).2.buf

/-- The rename does not take place, or everything left in the buffer reaches the file, or the process
stops at a moment when the file happens to be what the target was before. -/
def Survives : Prop :=
  Renamed env chunks → (lastFlush env chunks).rest = [] ∨
    ((lastFlush env chunks).halt = some .stopped ∧ old = some (lastFlush env chunks).file.content)

variable {env chunks old}

theorem capacity_pos : 0 < bufWriterCapacity := by decide

theorem lastFlush_conserves (h : (serialised env chunks).1 = none) :
    (lastFlush env chunks).file.content ++ (lastFlush env chunks).rest = chunks.flatten := by
  have hspec := writeChunks_spec env.writes capacity_pos (Prod.ext h rfl :
    writeChunks env.writes bufWriterCapacity ⟨⟨[], 0⟩, []⟩ chunks = (none, (serialised env chunks).2))
  unfold lastFlush
  rw [push_conserves]
  exact hspec.1

theorem dumpDht_renamed (h : Renamed env chunks) :
    dumpDht env chunks old = leave env (serialised env chunks).2 true some := by
  obtain ⟨hopen, hserial, hrename⟩ := h
  have hpair : writeChunks env.writes bufWriterCapacity ⟨⟨[], 0⟩, []⟩ chunks =
      (none, (serialised env chunks).2) := Prod.ext hserial rfl
  unfold dumpDht
  rw [hopen]
  dsimp only
  rw [hpair]
  dsimp only
  rw [hrename]

theorem leave_target_const (w : BufWriter UInt8) (ok : Bool) (target : Option Bytes) :
    (leave env w ok (fun _ => target)).target = target := by
  unfold leave
  dsimp only
  split_ifs <;> rfl

theorem leave_not_ok (w : BufWriter UInt8) (target : Bytes → Option Bytes) :
    (leave env w false target).ending ≠ .returned true := by
  unfold leave
  dsimp only
  split_ifs <;> simp

theorem dumpDht_not_renamed (h : ¬ Renamed env chunks) :
    (dumpDht env chunks old).target = old ∧ (dumpDht env chunks old).ending ≠ .returned true := by
  unfold dumpDht
  cases hopen : env.opens with
  | failed => exact ⟨rfl, by simp⟩
  | stopped => exact ⟨rfl, by simp⟩
  | ok =>
    dsimp only
    cases hserial : writeChunks env.writes bufWriterCapacity ⟨⟨[], 0⟩, []⟩ chunks with
    | mk halt w =>
      cases halt with
      | some halt =>
        cases halt with
        | failed => exact ⟨leave_target_const w false old, leave_not_ok w _⟩
        | stopped => exact ⟨rfl, by simp⟩
      | none =>
        dsimp only
        cases hrename : env.renames with
        | failed => exact ⟨leave_target_const w false old, leave_not_ok w _⟩
        | stopped => exact ⟨rfl, by simp⟩
        | ok => exact absurd ⟨hopen, congrArg Prod.fst hserial, hrename⟩ h

theorem leave_renamed :
    leave env (serialised env chunks).2 true some =
      if (lastFlush env chunks).halt = some .stopped
      then ⟨.stopped, some (lastFlush env chunks).file.content⟩
      else ⟨.returned true, some (lastFlush env chunks).file.content⟩ := rfl

theorem content_eq_iff (h : (serialised env chunks).1 = none) :
    (lastFlush env chunks).file.content = chunks.flatten ↔ (lastFlush env chunks).rest = [] := by
  rw [← lastFlush_conserves h]
  constructor
  · intro he
    exact List.append_right_eq_self.1 he.symm
  · intro he
    rw [he, List.append_nil]

theorem atomic_iff_survives (env : Environment) (chunks : List Bytes) (old : Option Bytes) :
    Atomic chunks.flatten old (dumpDht env chunks old) ↔ Survives env chunks old := by
  by_cases hrenamed : Renamed env chunks
  · have hcontent := content_eq_iff hrenamed.2.1
    have hrest : Survives env chunks old ↔ (lastFlush env chunks).rest = [] ∨
        ((lastFlush env chunks).halt = some .stopped ∧ old = some (lastFlush env chunks).file.content) :=
      ⟨fun h => h hrenamed, fun h _ => h⟩
    rw [hrest, dumpDht_renamed hrenamed, leave_renamed, ← hcontent]
    unfold Atomic
    by_cases hstop : (lastFlush env chunks).halt = some .stopped
    · rw [if_pos hstop]
      simp only [hstop, Option.some.injEq, reduceCtorEq, false_imp_iff, and_true, true_and]
      constructor
      · rintro (hold | htext)
        · exact .inr hold.symm
        · exact .inl htext
      · rintro (htext | hold)
        · exact .inr htext
        · exact .inl hold.symm
    · rw [if_neg hstop]
      simp only [hstop, Option.some.injEq, forall_const, false_and, or_false]
      exact ⟨And.right, fun h => ⟨.inr h, h⟩⟩
  · obtain ⟨htarget, hending⟩ : (dumpDht env chunks old).target = old ∧
        (dumpDht env chunks old).ending ≠ .returned true := dumpDht_not_renamed hrenamed
    exact ⟨fun _ h => absurd h hrenamed, fun _ => ⟨.inl htarget, fun h => absurd h hending⟩⟩

def fullAtLast : Environment where
  opens := .ok
  writes := fun _ => .wrote 1
  renames := .ok
  lastWrites := fun _ => .failed

theorem fullAtLast_renamed (chunks : List Bytes) : Renamed fullAtLast chunks :=
  ⟨rfl, writeChunks_succeeds _ (fun _ => ⟨0, rfl⟩) _ _, rfl⟩

theorem buffer_eq (h : (serialised env chunks).1 = none) :
    (serialised env chunks).2.buf = chunks.foldl (nextBuf bufWriterCapacity) [] :=
  (writeChunks_spec env.writes capacity_pos (Prod.ext h rfl :
    writeChunks env.writes bufWriterCapacity ⟨⟨[], 0⟩, []⟩ chunks = (none, (serialised env chunks).2))).2

/-- A text that is shorter than the buffer never reaches the file. -/
theorem fullAtLast_empties (hshort : chunks.flatten.length < bufWriterCapacity) :
    dumpDht fullAtLast chunks old = ⟨.returned true, some []⟩ := by
  have hbuffered : serialised fullAtLast chunks = (none, ⟨⟨[], 0⟩, chunks.flatten⟩) := by
    unfold serialised
    rw [writeChunks_buffered]
    · rfl
    · rwa [List.length_nil, Nat.zero_add]
  rw [dumpDht_renamed (fullAtLast_renamed chunks), hbuffered]
  cases chunks.flatten with
  | nil => rfl
  | cons b text => rfl

theorem fullAtLast_rest (chunks : List Bytes) :
    (lastFlush fullAtLast chunks).rest = (serialised fullAtLast chunks).2.buf ∧
      (lastFlush fullAtLast chunks).halt ≠ some .stopped := by
  unfold lastFlush
  generalize (serialised fullAtLast chunks).2 = w
  obtain ⟨file, buf⟩ := w
  cases buf with
  | nil => exact ⟨rfl, by simp [push]⟩
  | cons b bs => exact ⟨rfl, by simp [push, fullAtLast]⟩

theorem fills_of_fullAtLast (h : Atomic chunks.flatten old (dumpDht fullAtLast chunks old)) :
    LastChunkFills bufWriterCapacity chunks := by
  obtain ⟨hrest, hhalt⟩ := fullAtLast_rest chunks
  have hrenamed := fullAtLast_renamed chunks
  rw [← foldl_nextBuf_eq_nil_iff capacity_pos]
  rcases (atomic_iff_survives fullAtLast chunks old).1 h hrenamed with hnil | ⟨hstop, _⟩
  · rw [← buffer_eq hrenamed.2.1, ← hrest, hnil]
  · exact absurd hstop hhalt

/-- A dump is atomic whatever happens to its run just when the last write of the text bypasses the
buffer. -/
theorem dump_atomic_iff (chunks : List Bytes) (old : Option Bytes) :
    (∀ env, Atomic chunks.flatten old (dumpDht env chunks old)) ↔
      LastChunkFills bufWriterCapacity chunks := by
  constructor
  · intro h
    exact fills_of_fullAtLast (h fullAtLast)
  · intro hfills env
    have hnil := (foldl_nextBuf_eq_nil_iff capacity_pos chunks).2 hfills
    refine (atomic_iff_survives env chunks old).2 fun hrenamed => .inl ?_
    have hbuf : (serialised env chunks).2.buf = [] := (buffer_eq hrenamed.2.1).trans hnil
    unfold lastFlush
    rw [hbuf]
    rfl

end Runs

section Pieces

/-- The quotation marks and the text between them; the texts of a dump need no escapes. -/
def textPieces (text : String) : List Bytes :=
  [ascii "\""] ++ (if text = "" then [] else [ascii text]) ++ [ascii "\""]

mutual
/-- The pieces in which a value is written: one write for each mark, name, text and number. -/
def pieces : Json → List Bytes
  | .null => [ascii "null"]
  | .bool value => [ascii (if value then "true" else "false")]
  | .num value => [numeral value]
  | .str value => textPieces value
  | .arr elems => [ascii "["] ++ elemPieces true elems ++ [ascii "]"]
  | .obj fields => [ascii "\x7b"] ++ fieldPieces true fields ++ [ascii "\x7d"]
def elemPieces : Bool → List Json → List Bytes
  | _, [] => []
  | first, elem :: elems => (if first then [] else [ascii ","]) ++ pieces elem ++ elemPieces false elems
def fieldPieces : Bool → List (String × Json) → List Bytes
  | _, [] => []
  | first, (name, value) :: fields =>
    (if first then [] else [ascii ","]) ++ textPieces name ++ [ascii ":"] ++ pieces value ++ fieldPieces false fields
end

theorem obj_not_filled (fields : List (String × Json)) : ¬ LastChunkFills bufWriterCapacity (pieces (.obj fields)) := by
  intro h
  have hlast : ((pieces (.obj fields)).filter (fun c => !c.isEmpty)).getLast? = some (ascii "\x7d") := by
    rw [pieces, List.filter_append]
    exact List.getLast?_concat
  exact absurd (h _ hlast) (by decide)

/-- No dump of any node is atomic where all calls work until the disk is full at the last flush. -/
theorem dump_truncates (F : TextFormats) (now : Instant) (dht : DhtState) (old : Option Bytes) :
    ¬ Atomic (pieces (Persistence.dumpDht F now dht)).flatten old
      (dumpDht fullAtLast (pieces (Persistence.dumpDht F now dht)) old) :=
  fun h => obj_not_filled _ (fills_of_fullAtLast h)

def zeroText : String := "0000000000000000000000000000000000000000"

def plainFormats : TextFormats where
  idText := fun id => if id = 0 then zeroText
    else if id = BitVec.allOnes 160 then "ffffffffffffffffffffffffffffffffffffffff"
    else "00000fffffffffffffffffffffffffffffffffff"
  parseId := fun _ => none
  addrText := fun _ => "0.0.0.0:6881"
  parseAddr := fun _ => none
  timeText := fun _ => ""
  parseTime := fun _ => none
  elapsedText := fun _ => "0ns"

/-- A node that has just been set up. -/
def newNode : DhtState := ⟨0, .new 0 none 0, .new 0 none 0, .v4 ⟨0, 6881⟩, .new 0⟩

def newDump : List Bytes := pieces (Persistence.dumpDht plainFormats 0 newNode)

/-- The dump of a new node over an equal one, on a disk that is full when the buffer is flushed: the
call reports a success, and the target is empty. -/
theorem fullAtLast_truncates :
    dumpDht fullAtLast newDump (some newDump.flatten) = ⟨.returned true, some []⟩ ∧
      ¬ Atomic newDump.flatten (some newDump.flatten) (dumpDht fullAtLast newDump (some newDump.flatten)) := by
  have hshort : newDump.flatten.length < bufWriterCapacity := by decide +kernel
  exact ⟨fullAtLast_empties hshort, fun h => obj_not_filled _ (fills_of_fullAtLast h)⟩

end Pieces
end DumpFile
end LibrtbitDht
