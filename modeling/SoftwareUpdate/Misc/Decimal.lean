import Mathlib.Algebra.Group.Nat.Defs
import Mathlib.Data.Int.Notation
import Mathlib.Data.List.Induction
import Mathlib.Data.List.TakeDrop
import Mathlib.Data.List.TakeWhile

/-!
# Decimal numbers in texts

Signed decimal numbers as they are printed with a minimal width and as they are read from the
front of a text: behind white space and an optional sign, up to the first character that is no
digit.
-/

namespace SoftwareUpdate.Misc

variable {n : ℕ} {i : ℤ} {w : ℕ} {c : Char} {l rest : List Char}

/-- A space, or one of the control characters from the tab to the carriage return. -/
def isSpace (c : Char) : Bool := c.toNat = 32 || (9 ≤ c.toNat && c.toNat ≤ 13)

/-- The number at the front of a text and the text behind it, if there is a digit. -/
def readNat (l : List Char) : Option (ℕ × List Char) :=
  if l.takeWhile Char.isDigit = [] then
    none
  else
    some (Nat.ofDigitChars 10 (l.takeWhile Char.isDigit) 0, l.dropWhile Char.isDigit)

def readSigned : List Char → Option (ℤ × List Char)
  | '-' :: l => (readNat l).map fun p => (-(p.1 : ℤ), p.2)
  | '+' :: l => (readNat l).map fun p => ((p.1 : ℤ), p.2)
  | l => (readNat l).map fun p => ((p.1 : ℤ), p.2)

/-- The signed number behind leading white space and the text behind the number. -/
def readInt (l : List Char) : Option (ℤ × List Char) := readSigned (l.dropWhile isSpace)

/-- The number with at least `w` characters: zeros fill up behind the sign. -/
def formatInt (w : ℕ) (i : ℤ) : List Char :=
  if i < 0 then
    '-' :: (Nat.toDigits 10 i.natAbs).leftpad (w - 1) '0'
  else
    (Nat.toDigits 10 i.natAbs).leftpad w '0'

/-! ## Digits -/

theorem isDigit_of_mem_padded (h : c ∈ (Nat.toDigits 10 n).leftpad w '0') : c.isDigit := by
  rw [List.leftpad, List.mem_append] at h
  rcases h with hzero | hdigit
  · rw [List.eq_of_mem_replicate hzero]
    decide
  · exact Nat.isDigit_of_mem_toDigits (by omega) (by omega) hdigit

theorem mem_formatInt (h : c ∈ formatInt w i) : c.isDigit ∨ c = '-' := by
  unfold formatInt at h
  split at h
  · rcases List.mem_cons.mp h with hsign | hdigit
    · exact .inr hsign
    · exact .inl (isDigit_of_mem_padded hdigit)
  · exact .inl (isDigit_of_mem_padded h)

theorem notMem_formatInt (hdigit : c.isDigit = false) (hsign : c ≠ '-') : c ∉ formatInt w i := by
  intro h
  rcases mem_formatInt h with hc | hc
  · simp [hdigit] at hc
  · exact hsign hc

theorem padded_ne_nil : (Nat.toDigits 10 n).leftpad w '0' ≠ [] := by
  simp [List.leftpad, Nat.toDigits_ne_nil]

theorem formatInt_ne_nil : formatInt w i ≠ [] := by
  unfold formatInt
  split
  · simp
  · exact padded_ne_nil

theorem ofDigitChars_padded : Nat.ofDigitChars 10 ((Nat.toDigits 10 n).leftpad w '0') 0 = n := by
  rw [List.leftpad, Nat.ofDigitChars_append, Nat.ofDigitChars_replicate_zero, Nat.mul_zero,
    Nat.ofDigitChars_ten_toDigits]

theorem isSpace_of_isDigit (h : c.isDigit) : isSpace c = false := by
  have hdigit := Char.isDigit_iff_toNat.mp h
  simp only [Char.reduceToNat] at hdigit
  simp only [isSpace, Bool.or_eq_false_iff, Bool.and_eq_false_iff, decide_eq_false_iff_not]
  omega

/-- A sign, perhaps, and digits. -/
def IsDecimal (l : List Char) : Prop :=
  ∃ digits, digits ≠ [] ∧ (∀ c ∈ digits, c.isDigit) ∧ (l = digits ∨ l = '-' :: digits)

/-- The front of a decimal number is one, when it is longer than the sign. -/
theorem IsDecimal.take {k : ℕ} (h : IsDecimal l) (hk : 2 ≤ k) : IsDecimal (l.take k) := by
  obtain ⟨digits, hne, hdigits, hl⟩ := h
  have htake {k : ℕ} (hk : 0 < k) : digits.take k ≠ [] := by
    simp only [ne_eq, List.take_eq_nil_iff, not_or]
    exact ⟨by omega, hne⟩
  rcases hl with rfl | rfl
  · exact ⟨_, htake (by omega), fun c hc => hdigits c (List.mem_of_mem_take hc), .inl rfl⟩
  · obtain ⟨k, rfl⟩ : ∃ k', k = k' + 1 := ⟨k - 1, by omega⟩
    exact ⟨_, htake (by omega), fun c hc => hdigits c (List.mem_of_mem_take hc), .inr rfl⟩

theorem length_padded_le {k : ℕ} (hn : n < 10 ^ k) (hk : 0 < k) (hw : w ≤ k) :
    ((Nat.toDigits 10 n).leftpad w '0').length ≤ k := by
  have hdigits := (Nat.length_toDigits_le_iff (by omega) hk).mpr hn
  rw [List.length_leftpad]
  omega

theorem length_formatInt_le {k : ℕ} (hi : i.natAbs < 10 ^ k) (hk : 0 < k) (hw : w ≤ k) :
    (formatInt w i).length ≤ k + 1 := by
  unfold formatInt
  split
  · have hlength := length_padded_le (w := w - 1) hi hk (by omega)
    rw [List.length_cons]
    omega
  · have hlength := length_padded_le hi hk hw
    omega

theorem formatInt_of_nonneg (h : 0 ≤ i) :
    formatInt w i = (Nat.toDigits 10 i.natAbs).leftpad w '0' := by
  unfold formatInt
  rw [if_neg (by omega)]

/-- A number of `k` digits is less than `10 ^ k`. -/
theorem ofDigitChars_lt (h : ∀ c ∈ l, c.isDigit) : Nat.ofDigitChars 10 l 0 < 10 ^ l.length := by
  induction l using List.reverseRecOn with
  | nil => simp
  | append_singleton l c ih =>
    have hl := ih fun c hc => h c (List.mem_append_left _ hc)
    have hc := Char.isDigit_iff_toNat.mp (h c (by simp))
    simp only [Char.reduceToNat] at hc
    rw [Nat.ofDigitChars_append, Nat.ofDigitChars_cons, Nat.ofDigitChars_nil, List.length_append,
      List.length_singleton, Nat.pow_succ]
    simp only [Char.reduceToNat]
    omega

/-! ## Reading what was printed -/

/-- Digits are read up to the first character that is none. -/
theorem readNat_append (hl : ∀ c ∈ l, c.isDigit) (hne : l ≠ [])
    (hrest : ∀ c ∈ rest.head?, c.isDigit = false) :
    readNat (l ++ rest) = some (Nat.ofDigitChars 10 l 0, rest) := by
  have hnone : rest.takeWhile Char.isDigit = [] ∧ rest.dropWhile Char.isDigit = rest := by
    cases rest with
    | nil => exact ⟨rfl, rfl⟩
    | cons c rest =>
      have hc : c.isDigit = false := hrest c rfl
      exact ⟨List.takeWhile_cons_of_neg (by simp [hc]), List.dropWhile_cons_of_neg (by simp [hc])⟩
  unfold readNat
  rw [List.takeWhile_append_of_pos hl, List.dropWhile_append_of_pos hl, hnone.1, hnone.2,
    List.append_nil, if_neg hne]

theorem readSigned_of_isDigit (h : ∀ c ∈ l.head?, c.isDigit) :
    readSigned l = (readNat l).map fun p => ((p.1 : ℤ), p.2) := by
  unfold readSigned
  split
  · exact absurd (h _ rfl) (by decide)
  · exact absurd (h _ rfl) (by decide)
  · rfl

theorem readInt_of_isDigit (h : ∀ c ∈ l.head?, c.isDigit) :
    readInt l = (readNat l).map fun p => ((p.1 : ℤ), p.2) := by
  unfold readInt
  cases l with
  | nil => rfl
  | cons c l =>
    have hspace : isSpace c = false := isSpace_of_isDigit (h c rfl)
    rw [List.dropWhile_cons_of_neg (by simp [hspace]), readSigned_of_isDigit h]

/-- A printed number is read back, and what is behind it is left. -/
theorem readInt_formatInt (hrest : ∀ c ∈ rest.head?, c.isDigit = false) :
    readInt (formatInt w i ++ rest) = some (i, rest) := by
  have hread (w : ℕ) := readNat_append (fun _ => isDigit_of_mem_padded)
    (padded_ne_nil (n := i.natAbs) (w := w)) hrest
  unfold formatInt
  split
  · next hneg =>
    have hsign : -(i.natAbs : ℤ) = i := by omega
    rw [List.cons_append, readInt, List.dropWhile_cons_of_neg (by decide)]
    show (readNat _).map _ = _
    rw [hread, ofDigitChars_padded, Option.map_some, hsign]
  · next hpos =>
    have hsign : (i.natAbs : ℤ) = i := by omega
    rw [readInt_of_isDigit, hread, ofDigitChars_padded, Option.map_some, hsign]
    intro c hc
    rw [List.head?_append] at hc
    cases hl : (Nat.toDigits 10 i.natAbs).leftpad w '0' with
    | nil => exact absurd hl padded_ne_nil
    | cons d ds =>
      rw [hl] at hc
      obtain rfl : d = c := by simpa using hc
      exact isDigit_of_mem_padded (hl ▸ List.mem_cons_self)

theorem readInt_formatInt_nil : readInt (formatInt w i) = some (i, []) := by
  have hread : readInt (formatInt w i ++ []) = some (i, []) := readInt_formatInt (by simp)
  rwa [List.append_nil] at hread

theorem formatInt_inj {j : ℤ} (h : formatInt w i = formatInt w j) : i = j := by
  have hread := congrArg readInt h
  rw [readInt_formatInt_nil, readInt_formatInt_nil] at hread
  exact (Prod.mk.inj (Option.some.inj hread)).1

/-- A printed number and what is behind it can be told apart. -/
theorem formatInt_append_inj {j : ℤ} {rest' : List Char}
    (hrest : ∀ c ∈ rest.head?, c.isDigit = false) (hrest' : ∀ c ∈ rest'.head?, c.isDigit = false)
    (h : formatInt w i ++ rest = formatInt w j ++ rest') : i = j ∧ rest = rest' := by
  have hread := congrArg readInt h
  rw [readInt_formatInt hrest, readInt_formatInt hrest'] at hread
  exact Prod.mk.inj (Option.some.inj hread)

end SoftwareUpdate.Misc
