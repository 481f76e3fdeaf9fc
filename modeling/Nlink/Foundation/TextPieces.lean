import Mathlib.Algebra.GroupWithZero.Nat
import Mathlib.Data.List.DropRight

namespace Foundation

open List

/-!
# Texts

A text is a list of characters.  The functions here are those of a standard
library that a parser of lines uses: lines, trimming, splitting, and numbers of
a bounded width.
-/

namespace Text

/-- White space, after Unicode. -/
def isWhitespace (char : Char) : Bool :=
  let code := char.toNat
  (0x9 ≤ code && code ≤ 0xd) || code = 0x20 || code = 0x85 || code = 0xa0 ||
    code = 0x1680 || (0x2000 ≤ code && code ≤ 0x200a) || code = 0x2028 ||
    code = 0x2029 || code = 0x202f || code = 0x205f || code = 0x3000

/-- Without the white space at the start and at the end. -/
def trim (text : List Char) : List Char :=
  (text.dropWhile isWhitespace).rdropWhile isWhitespace

/-- Cut after each line feed. -/
def splitInclusive : List Char → List (List Char)
  | [] => []
  | char :: rest =>
      if char = '\n' then
        [char] :: splitInclusive rest
      else
        match splitInclusive rest with
        | [] => [[char]]
        | line :: lines => (char :: line) :: lines

/-- Without a given character at the end, if it is there. -/
def stripSuffix (last : Char) (text : List Char) : Option (List Char) :=
  if text.getLast? = some last then some text.dropLast else none

/-- Without given characters at the start, if they are there. -/
def stripPrefix (start text : List Char) : Option (List Char) :=
  if start.isPrefixOf text then some (text.drop start.length) else none

/-- The lines of a text, without their ends. -/
def lines (text : List Char) : List (List Char) :=
  (splitInclusive text).map fun line =>
    match stripSuffix '\n' line with
    | some ended => (stripSuffix '\r' ended).getD ended
    | none => line

/-- Cut at the first occurrence of a character. -/
def splitOnce (mark : Char) (text : List Char) : Option (List Char × List Char) :=
  match text.dropWhile (· ≠ mark) with
  | [] => none
  | _ :: after => some (text.takeWhile (· ≠ mark), after)

/-- Cut at each occurrence of a character. -/
def split (mark : Char) : List Char → List (List Char)
  | [] => [[]]
  | char :: rest =>
      if char = mark then
        [] :: split mark rest
      else
        match split mark rest with
        | [] => [[char]]
        | piece :: pieces => (char :: piece) :: pieces

def toAsciiLowercase (text : List Char) : List Char :=
  text.map Char.toLower

/-- The same text but for ASCII case. -/
def eqIgnoreAsciiCase (first second : List Char) : Bool :=
  toAsciiLowercase first = toAsciiLowercase second

def toDigit (radix : Nat) (char : Char) : Option Nat :=
  let value :=
    if '0' ≤ char ∧ char ≤ '9' then
      char.toNat - '0'.toNat
    else if 'a' ≤ char ∧ char ≤ 'z' then
      char.toNat - 'a'.toNat + 10
    else if 'A' ≤ char ∧ char ≤ 'Z' then
      char.toNat - 'A'.toNat + 10
    else
      radix
  if value < radix then some value else none

/-- Why a text is no number. -/
inductive ParseIntError where
  | empty
  | invalidDigit
  | posOverflow

def ParseIntError.text : ParseIntError → String
  | .empty => "cannot parse integer from empty string"
  | .invalidDigit => "invalid digit found in string"
  | .posOverflow => "number too large to fit in target type"

/-- One more digit of an unsigned number. -/
def uintStep (width radix : Nat) (number : Nat) (char : Char) : Except ParseIntError Nat :=
  match toDigit radix char with
  | some digit =>
      if number * radix + digit < 2 ^ width then
        .ok (number * radix + digit)
      else
        .error .posOverflow
  | none => .error .invalidDigit

/-- An unsigned number of a width; a plus sign may stand before it. -/
def parseUint (width radix : Nat) (text : List Char) : Except ParseIntError Nat :=
  match text with
  | [] => .error .empty
  | ['+'] => .error .invalidDigit
  | '+' :: digits => digits.foldlM (uintStep width radix) 0
  | digits => digits.foldlM (uintStep width radix) 0

section Trimming

/-- A text of which nothing is white space. -/
def Unspaced (text : List Char) : Prop :=
  ∀ char ∈ text, isWhitespace char = false

theorem unspaced_nil : Unspaced [] := by
  intro char member
  cases member

theorem Unspaced.append {front back : List Char} (first : Unspaced front) (second : Unspaced back) :
    Unspaced (front ++ back) := by
  intro char member
  rcases mem_append.mp member with earlier | later
  · exact first char earlier
  · exact second char later

theorem trim_of_unspaced {text : List Char} (unspaced : Unspaced text) : trim text = text := by
  have start : text.dropWhile isWhitespace = text := by
    cases text with
    | nil => rfl
    | cons char rest => exact dropWhile_cons_of_neg (by rw [unspaced char mem_cons_self]; decide)
  rw [trim, start, rdropWhile_eq_self_iff]
  intro nonempty spaced
  rw [unspaced _ (getLast_mem nonempty)] at spaced
  cases spaced

theorem trim_trim (text : List Char) : trim (trim text) = trim text := by
  have front : trim text <+: text.dropWhile isWhitespace := rdropWhile_prefix _ _
  cases shape : trim text with
  | nil => rfl
  | cons char rest =>
      rw [shape] at front
      obtain ⟨more, whole⟩ := front
      have visible := head?_dropWhile_not isWhitespace text
      rw [← whole, cons_append, head?_cons] at visible
      have start : (char :: rest).dropWhile isWhitespace = char :: rest :=
        dropWhile_cons_of_neg (Bool.eq_false_iff.mp visible)
      rw [trim, start, ← shape]
      exact rdropWhile_idempotent _ _

theorem isWhitespace_of_toDigit {radix digit : Nat} {char : Char}
    (read : toDigit radix char = some digit) : isWhitespace char = false := by
  have alphanumeric : 48 ≤ char.toNat ∧ char.toNat ≤ 122 := by
    by_cases decimal : '0' ≤ char ∧ char ≤ '9'
    · exact ⟨decimal.1, le_trans decimal.2 (by decide)⟩
    by_cases lower : 'a' ≤ char ∧ char ≤ 'z'
    · exact ⟨le_trans (by decide) lower.1, lower.2⟩
    by_cases upper : 'A' ≤ char ∧ char ≤ 'Z'
    · exact ⟨le_trans (by decide) upper.1, le_trans upper.2 (by decide)⟩
    rw [toDigit, if_neg decimal, if_neg lower, if_neg upper] at read
    simp at read
  simp only [isWhitespace, Bool.or_eq_false_iff, Bool.and_eq_false_iff, decide_eq_false_iff_not]
  omega

theorem unspaced_of_parseUint {width radix number : Nat} {text : List Char}
    (read : parseUint width radix text = .ok number) : Unspaced text := by
  have digits : ∀ (digits : List Char) start,
        digits.foldlM (uintStep width radix) start = .ok number → Unspaced digits := by
    intro digits
    induction digits with
    | nil =>
        intro _ _
        exact unspaced_nil
    | cons digit rest ih =>
        intro start read
        rw [foldlM_cons, uintStep] at read
        cases value : toDigit radix digit with
        | none =>
            rw [value] at read
            cases read
        | some given =>
            simp only [value] at read
            split at read
            · intro char member
              rcases mem_cons.mp member with rfl | later
              · exact isWhitespace_of_toDigit value
              · exact ih _ read char later
            · cases read
  rw [parseUint.eq_def] at read
  split at read
  · cases read
  · cases read
  · rename_i rest _
    intro char member
    rcases mem_cons.mp member with rfl | later
    · decide
    · exact digits rest 0 read char later
  · exact digits text 0 read

end Trimming

theorem lt_of_parseUint {width radix number : Nat} {text : List Char}
    (read : parseUint width radix text = .ok number) : number < 2 ^ width := by
  have digits : ∀ (digits : List Char) start, start < 2 ^ width →
        digits.foldlM (uintStep width radix) start = .ok number → number < 2 ^ width := by
    intro digits
    induction digits with
    | nil =>
        intro start small read
        cases read
        exact small
    | cons digit rest ih =>
        intro start small read
        rw [foldlM_cons, uintStep] at read
        cases value : toDigit radix digit with
        | none =>
            rw [value] at read
            cases read
        | some given =>
            simp only [value] at read
            split at read
            · rename_i next
              exact ih _ next read
            · cases read
  rw [parseUint.eq_def] at read
  split at read
  · cases read
  · cases read
  · exact digits _ 0 (Nat.two_pow_pos width) read
  · exact digits _ 0 (Nat.two_pow_pos width) read

end Text

end Foundation
