import Mathlib.Data.List.Basic
import Mathlib.Logic.Relation

/-!
# `MoveFile`

The copy and removal of a file in `UtilsFile.h`. The file system answers every read and every
write with a number of bytes, which is 0 at the end of the file and after an error. The call takes
a read of 0 bytes for the end of the file, so it loses data exactly when a read fails while bytes
are left.
-/

namespace SoftwareUpdate.Helpers

abbrev Bytes := List UInt8

/-- The answers of the file system. A read or a write that does not fail transfers at least one
byte: `some k` stands for `k + 1` bytes, or for all there are when these are fewer. -/
structure FileSystemAnswers where
  opens : Bool
  creates : Bool
  reads : ℕ → Option ℕ
  writes : ℕ → Option ℕ

/-- The two files; a file is `none` when it does not exist. -/
structure MoveFiles where
  source : Option Bytes
  target : Option Bytes
  deriving DecidableEq, Repr

/-- A copy that is under way: the bytes that are not read yet, the bytes that are written, and the
number of reads and writes so far. -/
structure Copy where
  unread : Bytes
  written : Bytes
  reads : ℕ
  writes : ℕ
  deriving DecidableEq, Repr

/-- The size of the buffer. -/
def bufLen : ℕ := 1024

namespace Copy

/-- `fileFrom.Read(buffer, bufLen)`: the bytes in the buffer. -/
def read (answers : FileSystemAnswers) (s : Copy) : Bytes × Copy :=
  match answers.reads s.reads with
  | none => ([], { s with reads := s.reads + 1 })
  | some k =>
      (s.unread.take (min (k + 1) bufLen),
        { s with unread := s.unread.drop (min (k + 1) bufLen), reads := s.reads + 1 })

/-- `fileTo.Write(ptr, len)`: the number of bytes that are written. -/
def write (answers : FileSystemAnswers) (s : Copy) (ptr : Bytes) : ℕ × Copy :=
  match answers.writes s.writes with
  | none => (0, { s with writes := s.writes + 1 })
  | some k =>
      (min (k + 1) ptr.length,
        { s with
          written := s.written ++ ptr.take (min (k + 1) ptr.length)
          writes := s.writes + 1 })

/-- The inner loop: the buffer is written until nothing is left of it or a write fails. -/
def writeLoop (answers : FileSystemAnswers) : ℕ → Copy → Bytes → Option (Bool × Copy)
  | 0, _, _ => none
  | fuel + 1, s, ptr =>
      let (count, s) := s.write answers ptr
      if count = 0 then some (false, s)
      else
        let ptr := ptr.drop count
        if ptr = [] then some (true, s) else writeLoop answers fuel s ptr

/-- The outer loop. -/
def copyLoop (answers : FileSystemAnswers) : ℕ → Copy → Option (Bool × Copy)
  | 0, _ => none
  | fuel + 1, s =>
      let (buffer, s) := s.read answers
      if buffer = [] then some (true, s)
      else
        match writeLoop answers buffer.length s buffer with
        | none => none
        | some (false, s) => some (false, s)
        | some (true, s) => copyLoop answers fuel s

end Copy

/-- `MoveFile`: the result, and the files after it. -/
def moveFile (answers : FileSystemAnswers) (files : MoveFiles) : Option (Bool × MoveFiles) :=
  match files.source, files.target with
  | some bytes, none =>
      if answers.opens && answers.creates then
        match Copy.copyLoop answers (bytes.length + 1) ⟨bytes, [], 0, 0⟩ with
        | none => none
        | some (true, s) => some (true, ⟨none, some s.written⟩)
        | some (false, _) => some (false, ⟨some bytes, none⟩)
      else
        some (false, files)
  | _, _ => some (false, files)

namespace Copy

variable {answers : FileSystemAnswers} {s t : Copy} {ptr buffer : Bytes} {fuel fuel' : ℕ}

/-! ## One turn of the loops -/

/-- A write leaves what is unread alone and appends the bytes that it counts. -/
theorem write_spec (answers : FileSystemAnswers) (s : Copy) (ptr : Bytes) :
    (s.write answers ptr).2.unread = s.unread ∧
    (s.write answers ptr).2.written = s.written ++ ptr.take (s.write answers ptr).1 := by
  unfold write
  split <;> simp

/-- The inner loop comes to an end, and leaves what is unread alone. When no write fails it has
appended the buffer to what is written. -/
theorem writeLoop_spec (answers : FileSystemAnswers) (s : Copy) (hptr : ptr ≠ [])
    (h : ptr.length ≤ fuel) :
    ∃ result t, writeLoop answers fuel s ptr = some (result, t) ∧ t.unread = s.unread ∧
      (result = true → t.written = s.written ++ ptr) := by
  induction fuel generalizing s ptr with
  | zero => exact absurd (List.length_eq_zero_iff.mp (Nat.le_zero.mp h)) hptr
  | succ fuel ih =>
    obtain ⟨hunread, hwritten⟩ := write_spec answers s ptr
    unfold writeLoop
    cases hwrite : s.write answers ptr with
    | mk count t =>
      rw [hwrite] at hunread hwritten
      by_cases hcount : count = 0
      · exact ⟨false, t, by simp [hcount], hunread, by simp⟩
      · by_cases hrest : ptr.drop count = []
        · refine ⟨true, t, by simp [hcount, hrest], hunread, fun _ => ?_⟩
          rw [hwritten, List.take_of_length_le (List.drop_eq_nil_iff.mp hrest)]
        · have hlength : (ptr.drop count).length ≤ fuel := by
            rw [List.length_drop]
            omega
          obtain ⟨result, u, hloop, hunread', hwritten'⟩ := ih t hrest hlength
          refine ⟨result, u, by simp [hcount, hrest, hloop], hunread'.trans hunread, fun hr => ?_⟩
          rw [hwritten' hr, hwritten, List.append_assoc, List.take_append_drop]

/-- One whole turn of the outer loop: bytes are read, and all of them are written. -/
def Turn (answers : FileSystemAnswers) (s t : Copy) : Prop :=
  (s.read answers).1 ≠ [] ∧
    writeLoop answers (s.read answers).1.length (s.read answers).2 (s.read answers).1 =
      some (true, t)

theorem read_spec (answers : FileSystemAnswers) (s : Copy) :
    (s.read answers).1 ++ (s.read answers).2.unread = s.unread ∧
    (s.read answers).2.written = s.written := by
  unfold read
  split
  · exact ⟨rfl, rfl⟩
  · exact ⟨List.take_append_drop _ _, rfl⟩

/-- A read of no bytes means that none is left or that the read has failed. -/
theorem read_eq_nil_iff : (s.read answers).1 = [] ↔
    s.unread = [] ∨ answers.reads s.reads = none := by
  unfold read
  cases answers.reads s.reads with
  | none => simp
  | some k => simp [bufLen]

/-- A turn moves bytes from what is unread to what is written. -/
theorem Turn.spec (h : Turn answers s t) :
    t.written ++ t.unread = s.written ++ s.unread ∧ t.unread.length < s.unread.length := by
  obtain ⟨hne, hloop⟩ := h
  obtain ⟨hsplit, hwritten⟩ := read_spec answers s
  obtain ⟨result, u, hloop', hunread, happend⟩ :=
    writeLoop_spec answers (s.read answers).2 hne (Nat.le_refl _)
  rw [hloop, Option.some.injEq] at hloop'
  cases hloop'
  rw [happend rfl, hunread, hwritten, List.append_assoc, hsplit]
  refine ⟨rfl, ?_⟩
  rw [← hsplit, List.length_append]
  have hpos := List.length_pos_iff.mpr hne
  omega

/-! ## The copy -/

/-- The outer loop comes to an end: with a read of no bytes after some turns, or with a write that
fails. -/
theorem copyLoop_spec (answers : FileSystemAnswers) (s : Copy) (h : s.unread.length < fuel) :
    ∃ result t, copyLoop answers fuel s = some (result, t) ∧
      (result = true → ∃ u, Relation.ReflTransGen (Turn answers) s u ∧
        (u.read answers).1 = [] ∧ t = (u.read answers).2) := by
  induction fuel generalizing s with
  | zero => exact absurd h (Nat.not_lt_zero _)
  | succ fuel ih =>
    unfold copyLoop
    by_cases hbuffer : (s.read answers).1 = []
    · exact ⟨true, (s.read answers).2, by simp [hbuffer], fun _ => ⟨s, .refl, hbuffer, rfl⟩⟩
    · obtain ⟨result, t, hloop, -, -⟩ :=
        writeLoop_spec answers (s.read answers).2 hbuffer (Nat.le_refl _)
      cases result with
      | false => exact ⟨false, t, by simp [hbuffer, hloop], by simp⟩
      | true =>
        have hturn : Turn answers s t := ⟨hbuffer, hloop⟩
        have hless := hturn.spec.2
        obtain ⟨result, u, hrest, hend⟩ := ih t (by omega)
        refine ⟨result, u, by simp [hbuffer, hloop, hrest], fun hr => ?_⟩
        obtain ⟨v, hreach, hv⟩ := hend hr
        exact ⟨v, .head hturn hreach, hv⟩

/-- The loop goes through the turns. -/
theorem copyLoop_of_turns (hreach : Relation.ReflTransGen (Turn answers) s t)
    (hread : (t.read answers).1 = []) (h : s.unread.length < fuel) :
    copyLoop answers fuel s = some (true, (t.read answers).2) := by
  induction hreach using Relation.ReflTransGen.head_induction_on generalizing fuel with
  | refl =>
    cases fuel with
    | zero => exact absurd h (Nat.not_lt_zero _)
    | succ fuel => simp [copyLoop, hread]
  | head hturn _ ih =>
    cases fuel with
    | zero => exact absurd h (Nat.not_lt_zero _)
    | succ fuel =>
      have hless := hturn.spec.2
      have hrest := @ih fuel (by omega)
      obtain ⟨hne, hloop⟩ := hturn
      simp [copyLoop, hne, hloop, hrest]

theorem turns_append (hreach : Relation.ReflTransGen (Turn answers) s t) :
    t.written ++ t.unread = s.written ++ s.unread := by
  induction hreach with
  | refl => rfl
  | tail _ hturn ih => exact hturn.spec.1.trans ih

end Copy

/-! ## No data are lost -/

/-- The call returns. When it succeeds, the target holds the bytes of the source and the source is
gone; when it fails, the source is as it was and there is no target that was not there before. -/
def NeverLoses (answers : FileSystemAnswers) (files : MoveFiles) : Prop :=
  ∃ result after, moveFile answers files = some (result, after) ∧
    (result = true → ∃ bytes, files.source = some bytes ∧ after = ⟨none, some bytes⟩) ∧
    (result = false → after = files)

/-- The copy begins with these bytes. -/
def Copies (answers : FileSystemAnswers) (files : MoveFiles) (bytes : Bytes) : Prop :=
  files = ⟨some bytes, none⟩ ∧ answers.opens = true ∧ answers.creates = true

/-- No read of the copy fails while bytes are left. -/
def ReadsThrough (answers : FileSystemAnswers) (bytes : Bytes) : Prop :=
  ∀ s, Relation.ReflTransGen (Copy.Turn answers) ⟨bytes, [], 0, 0⟩ s → s.unread ≠ [] →
    answers.reads s.reads ≠ none

theorem moveFile_of_copies {answers : FileSystemAnswers} {files : MoveFiles} {bytes : Bytes}
    {result : Bool} {t : Copy} (h : Copies answers files bytes)
    (hloop : Copy.copyLoop answers (bytes.length + 1) ⟨bytes, [], 0, 0⟩ = some (result, t)) :
    moveFile answers files =
      some (result, if result then ⟨none, some t.written⟩ else ⟨some bytes, none⟩) := by
  obtain ⟨rfl, hopens, hcreates⟩ := h
  cases result <;> simp [moveFile, hopens, hcreates, hloop]

theorem moveFile_of_not_copies {answers : FileSystemAnswers} {files : MoveFiles}
    (h : ∀ bytes, ¬ Copies answers files bytes) : moveFile answers files = some (false, files) := by
  obtain ⟨source, target⟩ := files
  cases source with
  | none => rfl
  | some bytes =>
    cases target with
    | some _ => rfl
    | none =>
      have hno := h bytes
      simp only [Copies, true_and] at hno
      simp only [moveFile, Bool.and_eq_true, hno, if_false]

/-- The call loses nothing exactly when no read of the copy fails while bytes are left. -/
theorem neverLoses_iff (answers : FileSystemAnswers) (files : MoveFiles) :
    NeverLoses answers files ↔
      ∀ bytes, Copies answers files bytes → ReadsThrough answers bytes := by
  constructor
  · rintro ⟨result, after, hmove, htrue, -⟩ bytes hcopies s hreach hleft hfail
    have hread : (s.read answers).1 = [] := Copy.read_eq_nil_iff.mpr (.inr hfail)
    have hloop := Copy.copyLoop_of_turns hreach hread (Nat.lt_succ_self _)
    rw [moveFile_of_copies hcopies hloop, Option.some.injEq, Prod.mk.injEq] at hmove
    obtain ⟨rfl, rfl⟩ := hmove
    obtain ⟨bytes', hsource, hafter⟩ := htrue rfl
    obtain ⟨rfl, -, -⟩ := hcopies
    cases hsource
    -- the target holds what was written, which is not all
    have hwritten : s.written = bytes := by
      simpa [(Copy.read_spec _ _).2] using congrArg MoveFiles.target hafter
    have hall : s.written ++ s.unread = bytes := Copy.turns_append hreach
    rw [hwritten] at hall
    exact hleft (List.append_right_eq_self.mp hall)
  · intro h
    by_cases hcopies : ∃ bytes, Copies answers files bytes
    · obtain ⟨bytes, hcopies⟩ := hcopies
      obtain ⟨result, t, hloop, hend⟩ :=
        Copy.copyLoop_spec answers ⟨bytes, [], 0, 0⟩ (Nat.lt_succ_self _)
      refine ⟨result, _, moveFile_of_copies hcopies hloop, fun hr => ?_, fun hr => ?_⟩
      · obtain ⟨u, hreach, hread, rfl⟩ := hend hr
        have hnone : u.unread = [] := by
          rcases Copy.read_eq_nil_iff.mp hread with hnone | hfail
          · exact hnone
          · by_contra hleft
            exact h bytes hcopies u hreach hleft hfail
        have hall : u.written ++ u.unread = bytes := Copy.turns_append hreach
        rw [hnone, List.append_nil] at hall
        refine ⟨bytes, by rw [hcopies.1], ?_⟩
        simp [hr, (Copy.read_spec _ _).2, hall]
      · simp [hr, hcopies.1]
    · exact ⟨false, files, moveFile_of_not_copies fun bytes hb => hcopies ⟨bytes, hb⟩, by simp,
        fun _ => rfl⟩

/-- The second read of a file fails, after the first one has brought one of its two bytes. -/
theorem not_neverLoses_read :
    moveFile ⟨true, true, fun n => if n = 0 then some 0 else none, fun _ => some 0⟩
        ⟨some [1, 2], none⟩ = some (true, ⟨none, some [1]⟩) ∧
      ¬ NeverLoses ⟨true, true, fun n => if n = 0 then some 0 else none, fun _ => some 0⟩
        ⟨some [1, 2], none⟩ := by
  have hmove : moveFile ⟨true, true, fun n => if n = 0 then some 0 else none, fun _ => some 0⟩
      ⟨some [1, 2], none⟩ = some (true, ⟨none, some [1]⟩) := by decide
  refine ⟨hmove, ?_⟩
  rintro ⟨result, after, hresult, htrue, -⟩
  rw [hmove, Option.some.injEq, Prod.mk.injEq] at hresult
  obtain ⟨rfl, rfl⟩ := hresult
  obtain ⟨bytes, hsource, hafter⟩ := htrue rfl
  cases hsource
  revert hafter
  decide

end SoftwareUpdate.Helpers
