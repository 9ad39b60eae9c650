import Mathlib.Data.List.Basic
import SlabAllocator.Text.Blank
import SlabAllocator.Text.Number

/-! The written sizes. A text is read as a size exactly when it is decimal digits behind at most one plus sign,
with any white space around them, and what they denote is in range. -/

namespace SlabAllocator.Text

def whites : List Char :=
  ['\t', '\n', '\x0b', '\x0c', '\r', ' ', '\u0085', '\u00a0', '\u1680', '\u2000', '\u2001', '\u2002', '\u2003',
    '\u2004', '\u2005', '\u2006', '\u2007', '\u2008', '\u2009', '\u200a', '\u2028', '\u2029', '\u202f', '\u205f',
    '\u3000']

/-- Digits as they may be written, with what may stand around them. -/
structure Numeral where
  left : List Char
  signed : Bool
  digits : List Char
  right : List Char
  before : left ⊆ whites
  some : digits ≠ []
  decimal : ∀ c ∈ digits, c.isDigit = true
  behind : right ⊆ whites

namespace Numeral

def core (numeral : Numeral) : List Char :=
  if numeral.signed then '+' :: numeral.digits else numeral.digits

def text (numeral : Numeral) : List Char :=
  numeral.left ++ numeral.core ++ numeral.right

def value (numeral : Numeral) : Nat :=
  Nat.ofDigitChars 10 numeral.digits 0

end Numeral

def Denotes (text : List Char) (size : Nat) : Prop :=
  ∃ numeral : Numeral, numeral.text = text ∧ numeral.value = size ∧ size < Size.bound

variable {left right digits core : List Char} {size : Nat}

/-! White space is trimmed at both ends, and nothing else is. -/

theorem isBlank_iff (c : Char) : isBlank c = true ↔ c ∈ whites := by
  have numbers : c ∈ whites ↔ c.toNat ∈ whites.map Char.toNat := by simp [Char.toNat_inj]
  rw [numbers]
  simp only [isBlank, blanks, whites, List.any_cons, List.any_nil, Bool.or_eq_true, Bool.and_eq_true,
    decide_eq_true_eq, List.map_cons, List.map_nil, List.mem_cons, List.not_mem_nil, or_false, Bool.false_eq_true,
    Char.reduceToNat]
  omega

private theorem dropWhile_isBlank (white : left ⊆ whites) (bare : ∀ c ∈ core, c ∉ whites) (some : core ≠ []) :
    (left ++ core ++ right).dropWhile isBlank = core ++ right := by
  rw [List.append_assoc, List.dropWhile_append_of_pos fun c inside => (isBlank_iff c).mpr (white inside)]
  cases core with
  | nil => exact absurd rfl some
  | cons first rest =>
    have solid := mt (isBlank_iff first).mp (bare first List.mem_cons_self)
    exact List.dropWhile_cons_of_neg solid

theorem trim_append (before : left ⊆ whites) (behind : right ⊆ whites) (bare : ∀ c ∈ core, c ∉ whites)
    (some : core ≠ []) : trim (left ++ core ++ right) = core := by
  have turned : (core ++ right).reverse = right.reverse ++ core.reverse ++ [] := by simp
  rw [trim, dropWhile_isBlank before bare some, turned,
    dropWhile_isBlank (by simpa using behind) (by simpa using bare) (by simpa using some), List.append_nil,
    List.reverse_reverse]

private theorem takeWhile_white (text : List Char) : text.takeWhile isBlank ⊆ whites := by
  intro c inside
  exact (isBlank_iff c).mp (List.all_eq_true.mp List.all_takeWhile c inside)

theorem trim_spec (text : List Char) :
    ∃ left right, left ⊆ whites ∧ right ⊆ whites ∧ text = left ++ trim text ++ right := by
  refine ⟨text.takeWhile isBlank, ((text.dropWhile isBlank).reverse.takeWhile isBlank).reverse,
    takeWhile_white text, ?_, ?_⟩
  · intro c inside
    exact takeWhile_white _ (List.mem_reverse.mp inside)
  · rw [trim, List.append_assoc, ← List.reverse_append, List.takeWhile_append_dropWhile, List.reverse_reverse,
      List.takeWhile_append_dropWhile]

/-! What is left is a sign and digits. -/

theorem isDigit_eq (c : Char) : isDigit c = c.isDigit := rfl

theorem ofDigits_eq (read : Nat) (digits : List Char) :
    ofDigits read digits = Nat.ofDigitChars 10 digits read := by
  induction digits generalizing read with
  | nil => rfl
  | cons c rest same => exact same _

theorem unsigned?_eq_some_iff : unsigned? digits = some size ↔
    digits ≠ [] ∧ (∀ c ∈ digits, c.isDigit = true) ∧ Nat.ofDigitChars 10 digits 0 = size ∧ size < Size.bound := by
  rw [unsigned?, ofDigits_eq]
  by_cases shape : digits ≠ [] ∧ ∀ c ∈ digits, c.isDigit = true
  · obtain ⟨some, decimal⟩ := shape
    rw [if_neg (by simpa [isDigit_eq, some] using decimal), Option.ite_none_right_eq_some, Option.some.injEq]
    constructor
    · rintro ⟨fits, rfl⟩
      exact ⟨some, decimal, rfl, fits⟩
    · rintro ⟨-, -, rfl, fits⟩
      exact ⟨fits, rfl⟩
  · rw [if_pos (by simpa [isDigit_eq, or_iff_not_imp_left] using shape)]
    refine iff_of_false (by simp) ?_
    rintro ⟨some, decimal, -⟩
    exact shape ⟨some, decimal⟩

/-- The sign is not a digit, so an unsigned text is not taken for a signed one. -/
theorem size?_unsigned (decimal : ∀ c ∈ digits, c.isDigit = true) : size? digits = unsigned? digits := by
  cases digits with
  | nil => rfl
  | cons c rest =>
    have digit := decimal c List.mem_cons_self
    unfold size?
    split
    next signed =>
      cases signed
      cases digit
    next => rfl

theorem size?_eq_some_iff : size? core = some size ↔
    ∃ digits, (core = digits ∨ core = '+' :: digits) ∧ unsigned? digits = some size := by
  constructor
  · intro found
    unfold size? at found
    split at found
    next digits => exact ⟨digits, .inr rfl, found⟩
    next => exact ⟨core, .inl rfl, found⟩
  · rintro ⟨digits, rfl | rfl, found⟩
    · rw [size?_unsigned (unsigned?_eq_some_iff.mp found).2.1, found]
    · exact found

/-! Both together read the numerals. -/

theorem not_white_of_isDigit {c : Char} (digit : c.isDigit = true) : c ∉ whites := by
  have others : (whites.all fun c => !c.isDigit) = true := rfl
  intro white
  have other := List.all_eq_true.mp others c white
  simp [digit] at other

namespace Numeral

variable (numeral : Numeral)

theorem core_bare : ∀ c ∈ numeral.core, c ∉ whites := by
  intro c inside
  unfold core at inside
  split at inside
  next =>
    rcases List.mem_cons.mp inside with rfl | digit
    · decide
    · exact not_white_of_isDigit (numeral.decimal c digit)
  next => exact not_white_of_isDigit (numeral.decimal c inside)

theorem core_ne_nil : numeral.core ≠ [] := by
  unfold core
  split
  next => exact List.cons_ne_nil _ _
  next => exact numeral.some

theorem trim_text : trim numeral.text = numeral.core :=
  trim_append numeral.before numeral.behind numeral.core_bare numeral.core_ne_nil

end Numeral

theorem denotes_iff {text : List Char} : size? (trim text) = some size ↔ Denotes text size := by
  rw [size?_eq_some_iff]
  constructor
  · rintro ⟨digits, signed, found⟩
    obtain ⟨some, decimal, same, fits⟩ := unsigned?_eq_some_iff.mp found
    obtain ⟨left, right, before, behind, split⟩ := trim_spec text
    rcases signed with plain | signed
    · refine ⟨⟨left, false, digits, right, before, some, decimal, behind⟩, ?_, same, fits⟩
      rw [split, plain]
      rfl
    · refine ⟨⟨left, true, digits, right, before, some, decimal, behind⟩, ?_, same, fits⟩
      rw [split, signed]
      rfl
  · rintro ⟨numeral, rfl, same, fits⟩
    refine ⟨numeral.digits, ?_, unsigned?_eq_some_iff.mpr ⟨numeral.some, numeral.decimal, same, fits⟩⟩
    rw [numeral.trim_text]
    cases signed : numeral.signed with
    | false => exact .inl (by simp [Numeral.core, signed])
    | true => exact .inr (by simp [Numeral.core, signed])

theorem denotes_toDigits (before : left ⊆ whites) (behind : right ⊆ whites) (fits : size < Size.bound) :
    Denotes (left ++ Nat.toDigits 10 size ++ right) size := by
  have decimal : ∀ c ∈ Nat.toDigits 10 size, c.isDigit = true := by
    intro c inside
    exact Nat.isDigit_of_mem_toDigits (by decide) (by decide) inside
  exact ⟨⟨left, false, Nat.toDigits 10 size, right, before, Nat.toDigits_ne_nil, decimal, behind⟩, rfl,
    Nat.ofDigitChars_toDigits (by decide) (by decide), fits⟩

end SlabAllocator.Text
