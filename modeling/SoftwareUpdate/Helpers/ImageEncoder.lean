import Mathlib.Data.List.Induction
import Mathlib.Tactic.IntervalCases
import SoftwareUpdate.Misc.BitStrings
import SoftwareUpdate.Helpers.CSettings

/-!
# `imageEncoder`

The bytes of an image as a text of 64 characters. The loop keeps the bits of a byte that do not
fill a character yet, and goes through three states: nothing is kept, two bits, or four.
-/

namespace SoftwareUpdate.Helpers

open Misc

/-- `base64_chars`. -/
def base64Chars : Text :=
  "ABCDEFGHIJKLMNOPQRSTUVWXYZabcdefghijklmnopqrstuvwxyz0123456789+/".toList

/-- `base64_chars[i]`. -/
def base64Char (i : BitVec 8) : Char := base64Chars.getD i.toNat '\x00'

/-- The local variables of the loop, and `result`. -/
structure Encoder where
  state : ℕ := 0
  lastStuff : BitVec 8 := 0
  result : Text := []

/-- One turn of the loop, with `object[index]`. -/
def Encoder.next (s : Encoder) (byte : BitVec 8) : Encoder :=
  if s.state = 0 then
    { state := 1
      lastStuff := (byte &&& 0x03) <<< 4
      result := s.result ++ [base64Char ((byte &&& 0xFC) >>> 2)] }
  else if s.state = 1 then
    { state := 2
      lastStuff := (byte &&& 0x0F) <<< 2
      result := s.result ++ [base64Char (((byte &&& 0xF0) >>> 4) ||| s.lastStuff)] }
  else if s.state = 2 then
    { s with
      state := 0
      result := s.result ++
        [base64Char (((byte &&& 0xC0) >>> 6) ||| s.lastStuff), base64Char (byte &&& 0x3F)] }
  else s

/-- What follows the loop. -/
def Encoder.finish (s : Encoder) (padding : Bool) : Text :=
  if s.state ≠ 0 then
    s.result ++ [base64Char s.lastStuff] ++
      (if padding then (if s.state = 1 then "==".toList else "=".toList) else [])
  else s.result

def imageEncoder (object : List (BitVec 8)) (padding : Bool) (result : Text) : Text :=
  (object.foldl Encoder.next { result := result }).finish padding

/-! ## The characters -/

/-- The character of a digit. -/
def digitChar (d : BitVec 6) : Char := base64Chars.getD d.toNat '\x00'

/-- The digit of a character, if it has one. -/
def digitOf (c : Char) : Option (BitVec 6) := (base64Chars.idxOf? c).map (BitVec.ofNat 6)

/-- The bytes whose bits a text contains; what does not fill a byte is left out. -/
def decodeImage (text : Text) : List (BitVec 8) :=
  let digits := text.filterMap digitOf
  wordsOf 8 (digits.length * 6 / 8) (digits.flatMap bitsOf)

theorem digitOf_digitChar (d : BitVec 6) : digitOf (digitChar d) = some d := by
  revert d
  decide +kernel

theorem digitOf_padding : digitOf '=' = none := by decide +kernel

theorem base64Char_setWidth (d : BitVec 6) : base64Char (d.setWidth 8) = digitChar d := by
  have hd : d.toNat % 2 ^ 8 = d.toNat := Nat.mod_eq_of_lt (by omega)
  rw [base64Char, digitChar, BitVec.toNat_setWidth, hd]

/-! ## One byte -/

variable {byte : BitVec 8} {bits kept : List Bool} {i : ℕ}

theorem getMsbD_digit (hi : i < 8) :
    ((wordOf 6 bits).setWidth 8).getMsbD i = (decide (2 ≤ i) && bits.getD (i - 2) false) := by
  by_cases h : 2 ≤ i
  · have h6 : i - 2 < 6 := by omega
    simp [BitVec.getMsbD_setWidth, h, getMsbD_wordOf h6]
  · simp [BitVec.getMsbD_setWidth, h]

theorem first_byte : (byte &&& 0xFC) >>> 2 = (wordOf 6 (bitsOf byte)).setWidth 8 ∧
    (byte &&& 0x03) <<< 4 = (wordOf 6 ((bitsOf byte).drop 6)).setWidth 8 := by
  constructor <;>
  · refine BitVec.eq_of_getMsbD_eq fun i hi => ?_
    rw [getMsbD_digit hi]
    interval_cases i <;> simp [bitsOf, List.ofFn_succ]

theorem second_byte (hkept : kept.length = 2) :
    ((byte &&& 0xF0) >>> 4) ||| (wordOf 6 kept).setWidth 8 =
        (wordOf 6 (kept ++ bitsOf byte)).setWidth 8 ∧
      (byte &&& 0x0F) <<< 2 = (wordOf 6 ((bitsOf byte).drop 4)).setWidth 8 := by
  obtain ⟨a, b, rfl⟩ := List.length_eq_two.mp hkept
  constructor
  · refine BitVec.eq_of_getMsbD_eq fun i hi => ?_
    rw [BitVec.getMsbD_or, getMsbD_digit hi, getMsbD_digit hi]
    interval_cases i <;> simp [bitsOf, List.ofFn_succ]
  · refine BitVec.eq_of_getMsbD_eq fun i hi => ?_
    rw [getMsbD_digit hi]
    interval_cases i <;> simp [bitsOf, List.ofFn_succ]

theorem third_byte (hkept : kept.length = 4) :
    ((byte &&& 0xC0) >>> 6) ||| (wordOf 6 kept).setWidth 8 =
        (wordOf 6 (kept ++ bitsOf byte)).setWidth 8 ∧
      byte &&& 0x3F = (wordOf 6 ((bitsOf byte).drop 2)).setWidth 8 := by
  obtain ⟨a, rest, rfl⟩ := List.exists_cons_of_length_eq_add_one hkept
  obtain ⟨b, c, d, rfl⟩ := List.length_eq_three.mp (Nat.succ.inj hkept)
  constructor
  · refine BitVec.eq_of_getMsbD_eq fun i hi => ?_
    rw [BitVec.getMsbD_or, getMsbD_digit hi, getMsbD_digit hi]
    interval_cases i <;> simp [bitsOf, List.ofFn_succ]
  · refine BitVec.eq_of_getMsbD_eq fun i hi => ?_
    rw [getMsbD_digit hi]
    interval_cases i <;> simp [bitsOf, List.ofFn_succ]

/-! ## The loop -/

variable {s : Encoder} {object : List (BitVec 8)} {result : Text} {digits : List (BitVec 6)}

/-- After the bytes `object`, the digits written and the bits kept in `lastStuff` are all bits
of the object. -/
structure Encoder.Encodes (s : Encoder) (result : Text) (object : List (BitVec 8))
    (digits : List (BitVec 6)) (kept : List Bool) : Prop where
  state : s.state < 3
  length : kept.length = 2 * s.state
  result : s.result = result ++ digits.map digitChar
  bits : digits.flatMap bitsOf ++ kept = object.flatMap bitsOf
  lastStuff : s.state ≠ 0 → s.lastStuff = (wordOf 6 kept).setWidth 8

theorem Encoder.next_first (hs : s.state = 0) : s.next byte =
    { state := 1
      lastStuff := (wordOf 6 ((bitsOf byte).drop 6)).setWidth 8
      result := s.result ++ [digitChar (wordOf 6 (bitsOf byte))] } := by
  rw [Encoder.next, if_pos hs, first_byte.1, first_byte.2, base64Char_setWidth]

theorem Encoder.next_second (hs : s.state = 1) (hlen : kept.length = 2)
    (hstuff : s.lastStuff = (wordOf 6 kept).setWidth 8) : s.next byte =
    { state := 2
      lastStuff := (wordOf 6 ((bitsOf byte).drop 4)).setWidth 8
      result := s.result ++ [digitChar (wordOf 6 (kept ++ bitsOf byte))] } := by
  rw [Encoder.next, if_neg (by omega), if_pos hs, hstuff, (second_byte hlen).1,
    (second_byte hlen).2, base64Char_setWidth]

theorem Encoder.next_third (hs : s.state = 2) (hlen : kept.length = 4)
    (hstuff : s.lastStuff = (wordOf 6 kept).setWidth 8) : s.next byte =
    { s with
      state := 0
      result := s.result ++ [digitChar (wordOf 6 (kept ++ bitsOf byte)),
        digitChar (wordOf 6 ((bitsOf byte).drop 2))] } := by
  rw [Encoder.next, if_neg (by omega), if_neg (by omega), if_pos hs, hstuff,
    (third_byte hlen).1, (third_byte hlen).2, base64Char_setWidth, base64Char_setWidth]

/-- The kept bits and those of a byte make a digit. -/
theorem flatMap_bitsOf_next (hbits : digits.flatMap bitsOf ++ kept = object.flatMap bitsOf) :
    (digits ++ [wordOf 6 (kept ++ bitsOf byte)]).flatMap bitsOf ++ (kept ++ bitsOf byte).drop 6 =
      (object ++ [byte]).flatMap bitsOf := by
  have hdigit : bitsOf (wordOf 6 (kept ++ bitsOf byte)) ++ (kept ++ bitsOf byte).drop 6 =
      kept ++ bitsOf byte := by
    apply bitsOf_wordOf_append_drop
    rw [List.length_append, length_bitsOf]
    omega
  simp only [List.flatMap_append, List.flatMap_singleton, List.append_assoc, hdigit]
  rw [← List.append_assoc, hbits]

theorem Encoder.Encodes.next (h : s.Encodes result object digits kept) :
    ∃ digits' kept', (s.next byte).Encodes result (object ++ [byte]) digits' kept' := by
  obtain ⟨hstate, hlen, hresult, hbits, hstuff⟩ := h
  have hnext : (digits ++ [wordOf 6 (kept ++ bitsOf byte)]).flatMap bitsOf ++
      (kept ++ bitsOf byte).drop 6 = (object ++ [byte]).flatMap bitsOf := flatMap_bitsOf_next hbits
  have hdrop : (kept ++ bitsOf byte).drop 6 = (bitsOf byte).drop (6 - kept.length) := by
    rw [List.drop_append, List.drop_of_length_le (by omega), List.nil_append]
  rw [hdrop, hlen] at hnext
  obtain hs | hs | hs : s.state = 0 ∨ s.state = 1 ∨ s.state = 2 := by omega
  · rw [hs] at hlen hnext
    obtain rfl : kept = [] := List.length_eq_zero_iff.mp hlen
    rw [Encoder.next_first hs]
    exact ⟨_, _, by simp, by simp, by simp [hresult], hnext, fun _ => rfl⟩
  · rw [hs] at hlen hnext
    rw [Encoder.next_second hs hlen (hstuff (by omega))]
    exact ⟨_, _, by simp, by simp, by simp [hresult], hnext, fun _ => rfl⟩
  · rw [hs] at hlen hnext
    -- six bits are left of the byte, which are a digit of their own
    have hlast : bitsOf (wordOf 6 ((bitsOf byte).drop 2)) = (bitsOf byte).drop 2 := by
      rw [bitsOf_wordOf, List.take_of_length_le (by simp)]
      simp
    rw [Encoder.next_third hs hlen (hstuff (by omega))]
    refine ⟨digits ++ [wordOf 6 (kept ++ bitsOf byte), wordOf 6 ((bitsOf byte).drop 2)], [],
      by simp, rfl, by simp [hresult], ?_, fun hne => absurd rfl hne⟩
    rw [← hnext]
    simp [hlast]

theorem encodes_foldl (object : List (BitVec 8)) (result : Text) : ∃ digits kept,
    (object.foldl Encoder.next { result := result }).Encodes result object digits kept := by
  induction object using List.reverseRecOn with
  | nil => exact ⟨[], [], by simp, rfl, by simp, rfl, fun hne => absurd rfl hne⟩
  | append_singleton object byte ih =>
    obtain ⟨digits, kept, h⟩ := ih
    rw [List.foldl_append]
    exact h.next

/-! ## The text -/

/-- The text is the digits of the object's bits, the last one filled up with zeros, and the
padding. -/
theorem exists_digits (object : List (BitVec 8)) (padding : Bool) (result : Text) :
    ∃ (digits : List (BitVec 6)) (zeros pad : ℕ),
      imageEncoder object padding result =
        result ++ digits.map digitChar ++ List.replicate pad '=' ∧
      digits.flatMap bitsOf = object.flatMap bitsOf ++ List.replicate zeros false ∧ zeros < 6 ∧
      (padding = false → pad = 0) ∧ (padding = true → zeros = 2 * pad) := by
  obtain ⟨digits, kept, hstate, hlen, hresult, hbits, hstuff⟩ := encodes_foldl object result
  set s := object.foldl Encoder.next { result := result }
  have himage : imageEncoder object padding result = s.finish padding := rfl
  rw [himage, Encoder.finish]
  split
  case isTrue hne =>
    refine ⟨digits ++ [wordOf 6 kept], 6 - 2 * s.state,
      if padding then 3 - s.state else 0, ?_, ?_, by omega, by simp +contextual, ?_⟩
    · rw [hresult, hstuff hne, base64Char_setWidth]
      obtain h1 | h2 : s.state = 1 ∨ s.state = 2 := by omega
      · cases padding <;> simp [h1]
      · cases padding <;> simp [h2]
    · rw [List.flatMap_append, List.flatMap_singleton, bitsOf_wordOf,
        List.take_of_length_le (by omega), ← List.append_assoc, hbits, hlen]
    · intro hpadding
      simp only [hpadding, if_true]
      omega
  case isFalse hz =>
    have hzero : s.state = 0 := by simpa using hz
    obtain rfl : kept = [] := List.length_eq_zero_iff.mp (by rw [hlen, hzero])
    exact ⟨digits, 0, 0, by simpa using hresult, by simpa using hbits, by omega, by simp,
      by simp⟩

theorem length_of_bits {zeros : ℕ} (hbits : digits.flatMap bitsOf =
    object.flatMap bitsOf ++ List.replicate zeros false) :
    digits.length * 6 = 8 * object.length + zeros := by
  have h := congrArg List.length hbits
  simpa [List.length_flatMap, Nat.mul_comm] using h

/-- The three states of the loop amount to this: the bits of the object, six at a time, are the
digits of the text, and the padding completes a group of four characters. -/
theorem imageEncoder_eq (object : List (BitVec 8)) (padding : Bool) (result : Text) :
    imageEncoder object padding result =
      result ++ (wordsOf 6 ((8 * object.length + 5) / 6) (object.flatMap bitsOf)).map digitChar ++
        if padding then List.replicate ((3 - object.length % 3) % 3) '=' else [] := by
  obtain ⟨digits, zeros, pad, htext, hbits, hzeros, hno, hpad⟩ :=
    exists_digits object padding result
  have hlen := length_of_bits hbits
  have hdigits : wordsOf 6 ((8 * object.length + 5) / 6) (object.flatMap bitsOf) = digits := by
    have hcount : (8 * object.length + 5) / 6 = digits.length := by omega
    rw [hcount, ← wordsOf_append_replicate (k := zeros), ← hbits]
    have hread : wordsOf 6 digits.length (digits.flatMap bitsOf ++ []) = digits :=
      wordsOf_flatMap_bitsOf
    rwa [List.append_nil] at hread
  rw [htext, hdigits]
  cases padding with
  | false => simp [hno rfl]
  | true =>
    have hp : pad = (3 - object.length % 3) % 3 := by
      have h2 := hpad rfl
      omega
    simp [hp]

example : imageEncoder [0x4D, 0x61] true [] = "TWE=".toList := by decide +kernel

/-- The object can be read back from its text, with or without padding. -/
theorem decodeImage_imageEncoder (object : List (BitVec 8)) (padding : Bool) :
    decodeImage (imageEncoder object padding []) = object := by
  obtain ⟨digits, zeros, pad, htext, hbits, hzeros, -, -⟩ := exists_digits object padding []
  have hlen := length_of_bits hbits
  have hread : (imageEncoder object padding []).filterMap digitOf = digits := by
    have hpad : (List.replicate pad '=').filterMap digitOf = [] := by
      simp [digitOf_padding]
    rw [htext, List.filterMap_append, hpad]
    simp [List.filterMap_map, digitOf_digitChar]
  have hcount : digits.length * 6 / 8 = object.length := by omega
  rw [decodeImage, hread, hcount, hbits]
  exact wordsOf_flatMap_bitsOf

end SoftwareUpdate.Helpers
