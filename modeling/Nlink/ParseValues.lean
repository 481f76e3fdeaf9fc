import Nlink.Foundation.Binary64
import Nlink.TcTypes

namespace Nlink.Parse

open Foundation Foundation.Text Tc
open Foundation.AddressText (numberOf)

/-!
# Rates, sizes, times and percentages

A value is a number and a unit behind it.  The number is read as a number of 64
bits with a binary point; a rate or a size is cut to an unsigned number, and a
time goes through a conversion that panics on what a duration cannot hold.
-/

/-- What a parser says of a text that it does not take. -/
inductive ParseError where
  | invalidNumber (text : List Char)
  | outOfRange (text : List Char)
  | unknownUnit (text : List Char)

/-- What the numeric span of a value is made of. -/
def isNumberChar (char : Char) : Bool :=
  char.isDigit || char = '.' || char = '-'

/-- Cut behind the numeric span. -/
def splitNumberUnit (text : List Char) : List Char × List Char :=
  text.span isNumberChar

/-- The numeric span of a value; what is negative or not finite is rejected. -/
def parseNonNegative (number full : List Char) : Except ParseError ℚ :=
  match Binary64.parse number with
  | none => .error (.invalidNumber number)
  | some (.finite value) =>
      if value < 0 then
        .error (.outOfRange ("`".toList ++ full ++
          "` is negative or not finite (expected a non-negative value)".toList))
      else
        .ok value
  | some _ =>
      .error (.outOfRange ("`".toList ++ full ++
        "` is negative or not finite (expected a non-negative value)".toList))

def unitOf {α : Type} (units : List (String × α)) (unit : List Char) : Option α :=
  (units.find? (·.1.toList = unit)).map Prod.snd

def rateUnits : List (String × ℕ) :=
  [("", 1), ("bit", 1), ("kbit", 1000), ("k", 1000), ("mbit", 1000000), ("m", 1000000),
    ("gbit", 1000000000), ("g", 1000000000), ("tbit", 1000000000000), ("t", 1000000000000),
    ("kibit", 1024), ("mibit", 1024 * 1024), ("gibit", 1024 * 1024 * 1024),
    ("tibit", 1024 * 1024 * 1024 * 1024),
    ("bps", 8), ("kbps", 8 * 1000), ("mbps", 8 * 1000000), ("gbps", 8 * 1000000000),
    ("tbps", 8 * 1000000000000), ("kibps", 8 * 1024), ("mibps", 8 * 1024 * 1024),
    ("gibps", 8 * 1024 * 1024 * 1024), ("tibps", 8 * 1024 * 1024 * 1024 * 1024)]

def sizeUnits : List (String × ℕ) :=
  [("", 1), ("b", 1), ("k", 1024), ("kb", 1024), ("kib", 1024),
    ("m", 1024 * 1024), ("mb", 1024 * 1024), ("mib", 1024 * 1024),
    ("g", 1024 * 1024 * 1024), ("gb", 1024 * 1024 * 1024), ("gib", 1024 * 1024 * 1024),
    ("t", 1024 * 1024 * 1024 * 1024), ("tb", 1024 * 1024 * 1024 * 1024),
    ("tib", 1024 * 1024 * 1024 * 1024),
    ("kbit", 1000 / 8), ("mbit", 1000000 / 8), ("gbit", 1000000000 / 8),
    ("tbit", 1000000000000 / 8)]

inductive TimeUnit where
  | secs
  | millis
  | micros
  | nanos

/-- A bare number is microseconds. -/
def timeUnits : List (String × TimeUnit) :=
  [("", .micros), ("us", .micros), ("usec", .micros), ("usecs", .micros),
    ("s", .secs), ("sec", .secs), ("secs", .secs),
    ("ms", .millis), ("msec", .millis), ("msecs", .millis),
    ("ns", .nanos), ("nsec", .nanos), ("nsecs", .nanos)]

/--
`Duration::from_secs_f64`: to the nearest nanosecond.  Nothing stands for the
panic on a value that no duration holds.
-/
def fromSecsF64 : Binary64 → Option Duration
  | .finite secs =>
      if secs < 0 ∨ 2 ^ 64 * 10 ^ 9 ≤ roundEven (secs * 10 ^ 9) then
        none
      else
        some ⟨(roundEven (secs * 10 ^ 9)).toNat⟩
  | _ => none

def TimeUnit.duration : TimeUnit → ℚ → Option Duration
  | .micros, num => fromSecsF64 (.ofRat (num / 1000000))
  | .secs, num => fromSecsF64 (.finite num)
  | .millis, num => fromSecsF64 (.ofRat (num / 1000))
  | .nanos, num => some ⟨(Binary64.finite num).toU64⟩

section Parsers

/- Unicode's lower case and the decimal text of a number, of the standard library. -/
variable (toLowercase : List Char → List Char) (display : Binary64 → List Char)

/-- The numeric span of a trimmed text in lower case, its unit, and the whole. -/
def pieces (text : List Char) : List Char × List Char :=
  splitNumberUnit (toLowercase (trim text))

/-- What `get_rate` and `get_size` have in common. -/
def getScaled (units : List (String × ℕ)) (text : List Char) : Except ParseError ℕ := do
  let text := toLowercase (trim text)
  let (number, unit) := splitNumberUnit text
  let num ← parseNonNegative number text
  match unitOf units unit with
  | some multiplier => .ok (Binary64.ofRat (num * Binary64.nearest multiplier)).toU64
  | none => .error (.unknownUnit unit)

def getRate (text : List Char) : Except ParseError ℕ :=
  getScaled toLowercase rateUnits text

def getSize (text : List Char) : Except ParseError ℕ :=
  getScaled toLowercase sizeUnits text

/-- Nothing when the conversion to a duration panics. -/
def getTime (text : List Char) : Option (Except ParseError Duration) :=
  let text := toLowercase (trim text)
  let (number, unit) := splitNumberUnit text
  match parseNonNegative number text with
  | .error error => some (.error error)
  | .ok num =>
      match unitOf timeUnits unit with
      | some unit => (unit.duration num).map .ok
      | none => some (.error (.unknownUnit unit))

def getPercent (text : List Char) : Except ParseError Binary64 :=
  let text := trim text
  let text := (stripSuffix '%' text).getD text
  match Binary64.parse text with
  | none => .error (.invalidNumber text)
  | some value =>
      match value with
      | .finite number =>
          if 0 ≤ number ∧ number ≤ 100 then
            .ok (.ofRat (number / 100))
          else
            .error (.outOfRange (display value ++ " not in range 0-100".toList))
      | _ => .error (.outOfRange (display value ++ " not in range 0-100".toList))

/-- Digits, and behind them a unit of a table. -/
def Reads {α : Type} (units : List (String × α)) (text digits : List Char) (worth : α) : Prop :=
  ∃ unit, toLowercase (trim text) = digits ++ unit ∧ Binary64.Digits digits ∧
    unitOf units unit = some worth

def TimeUnit.nanosPer : TimeUnit → ℕ
  | .secs => 10 ^ 9
  | .millis => 10 ^ 6
  | .micros => 10 ^ 3
  | .nanos => 1

/-- No parser panics on the text, and digits with a unit stand for exactly their value. -/
structure Sound (text : List Char) : Prop where
  total : getTime toLowercase text ≠ none
  rate : ∀ digits bits result, Reads toLowercase rateUnits text digits bits →
    numberOf 10 digits * bits < 2 ^ 53 → getRate toLowercase text = .ok result →
      result = numberOf 10 digits * bits
  size : ∀ digits bytes result, Reads toLowercase sizeUnits text digits bytes →
    numberOf 10 digits * bytes < 2 ^ 53 → getSize toLowercase text = .ok result →
      result = numberOf 10 digits * bytes
  time : ∀ digits unit result, Reads toLowercase timeUnits text digits unit →
    numberOf 10 digits * unit.nanosPer < 2 ^ 53 →
      getTime toLowercase text = some (.ok result) →
        result.nanos = numberOf 10 digits * unit.nanosPer
  percent : ∀ digits result, trim text = digits ∨ trim text = digits ++ ['%'] →
    Binary64.Digits digits →
      Binary64.nearest (numberOf 10 digits / 100) = numberOf 10 digits / 100 →
        getPercent display text = .ok result →
          result = .finite (numberOf 10 digits / 100)

end Parsers

/-- The least number of a unit that is rounded to `2 ^ 64` seconds. -/
def TimeUnit.overflow : TimeUnit → Option ℚ
  | .secs => some (2 ^ 64 - 2 ^ 10)
  | .millis => some (2 ^ 64 * 1000 - 2 ^ 20)
  | .micros => some (2 ^ 64 * 1000000 - 2 ^ 30)
  | .nanos => none

/-- How many of a unit make a second. -/
def TimeUnit.perSecond : TimeUnit → ℕ
  | .secs => 1
  | .millis => 10 ^ 3
  | .micros => 10 ^ 6
  | .nanos => 10 ^ 9

/--
The number nearest to a quotient in seconds is within half a nanosecond of it.
From `2 ^ 23` seconds on, the numbers are the multiples of `2 ^ (-29)`.
-/
def KeepsNanos (divisor number : ℕ) : Prop :=
  number < 2 ^ 23 * divisor ∨
    2 * 10 ^ 9 * min (number * 2 ^ 29 % divisor) (divisor - number * 2 ^ 29 % divisor) ≤
      2 ^ 29 * divisor

theorem TimeUnit.overflow_pos {unit : TimeUnit} {bound : ℚ} (some : bound ∈ unit.overflow) :
    0 < bound := by
  cases unit <;> cases some <;> norm_num

section Durations

variable {secs : ℚ}

theorem fromSecsF64_some (nonneg : 0 ≤ secs) (small : secs ≤ (2 ^ 53 - 1) * 2 ^ 11) :
    fromSecsF64 (.finite secs) = some ⟨(roundEven (secs * 10 ^ 9)).toNat⟩ := by
  have rounded : roundEven (secs * 10 ^ 9) ≤ roundEven (((2 ^ 53 - 1) * 2 ^ 11 * 10 ^ 9 : ℤ) : ℚ) :=
    roundEven_mono (by push_cast; linarith)
  rw [roundEven_intCast] at rounded
  refine if_neg ?_
  rintro (negative | large)
  · linarith
  · have := large.trans rounded
    norm_num at this

theorem fromSecsF64_none (large : 2 ^ 64 ≤ secs) : fromSecsF64 (.finite secs) = none := by
  have rounded : roundEven ((2 ^ 64 * 10 ^ 9 : ℤ) : ℚ) ≤ roundEven (secs * 10 ^ 9) :=
    roundEven_mono (by push_cast; linarith)
  rw [roundEven_intCast] at rounded
  exact if_pos (Or.inr rounded)

/-- A quotient that is rounded panics from half a step below `2 ^ 64` on. -/
theorem fromSecsF64_ofRat_none (large : 2 ^ 64 - 2 ^ 10 ≤ secs) :
    fromSecsF64 (.ofRat secs) = none := by
  have nonneg : 0 ≤ secs := by
    norm_num at large
    linarith
  have rounded : ((2 ^ 53 : ℤ) : ℚ) * 2 ^ (11 : ℤ) ≤ Binary64.nearest secs :=
    Binary64.le_nearest_of_half (by norm_num) (by norm_num) le_rfl (by norm_num)
      (by norm_num at large ⊢; linarith)
  rw [Binary64.ofRat, abs_of_nonneg nonneg]
  split
  · rfl
  · rw [if_neg (not_lt.mpr nonneg)]
    exact fromSecsF64_none (by norm_num at rounded ⊢; linarith)

theorem fromSecsF64_ofRat_some (nonneg : 0 ≤ secs) (small : secs < 2 ^ 64 - 2 ^ 10) :
    fromSecsF64 (.ofRat secs) =
      some ⟨(roundEven (Binary64.nearest secs * 10 ^ 9)).toNat⟩ := by
  have rounded : Binary64.nearest secs ≤ (((2 ^ 53 : ℤ) : ℚ) - 1) * 2 ^ (11 : ℤ) :=
    Binary64.nearest_le_of_half (by norm_num) (by norm_num) le_rfl nonneg
      (by norm_num at small ⊢; linarith)
  have finite : ¬2 ^ 1024 ≤ Binary64.nearest secs := by
    intro large
    have beyond : (2 : ℚ) ^ 64 < 2 ^ 1024 := pow_lt_pow_right₀ (by norm_num) (by norm_num)
    have top : (((2 ^ 53 : ℤ) : ℚ) - 1) * 2 ^ (11 : ℤ) < 2 ^ 64 := by norm_num
    exact absurd (large.trans rounded) (not_le.mpr (top.trans beyond))
  rw [Binary64.ofRat, abs_of_nonneg nonneg, if_neg finite, if_neg (not_lt.mpr nonneg)]
  exact fromSecsF64_some (Binary64.nearest_nonneg nonneg) (by exact_mod_cast rounded)

/-- A double rounding panics where the first one reaches `2 ^ 64` of the larger unit. -/
theorem quotient_none_iff {value divisor : ℚ} {step multiple : ℤ} (nonneg : 0 ≤ value)
    (positive : 0 < divisor) (normal : -1074 ≤ step) (lower : 2 ^ 52 < multiple)
    (upper : multiple ≤ 2 ^ 53) (even : multiple % 2 = 0)
    (whole : multiple * 2 ^ step = 2 ^ 64 * divisor) (wide : 2 ^ 10 * divisor < 2 ^ step) :
    fromSecsF64 (.ofRat (Binary64.nearest value / divisor)) = none ↔
      2 ^ 64 * divisor - 2 ^ step / 2 ≤ value := by
  have half : ((multiple : ℚ) - 1 / 2) * 2 ^ step = 2 ^ 64 * divisor - 2 ^ step / 2 := by
    rw [sub_mul, whole]
    ring
  rw [← half]
  by_cases reached : ((multiple : ℚ) - 1 / 2) * 2 ^ step ≤ value
  · have rounded := Binary64.le_nearest_of_half normal lower upper even reached
    rw [whole, ← le_div_iff₀ positive] at rounded
    exact iff_of_true (fromSecsF64_ofRat_none (by linarith)) reached
  · -- No number lies in the half step that the quotient's rounding would add.
    have rounded := Binary64.nearest_le_of_half normal lower upper nonneg (not_le.mp reached)
    have below : Binary64.nearest value / divisor < 2 ^ 64 - 2 ^ 10 := by
      rw [div_lt_iff₀ positive]
      linarith
    rw [fromSecsF64_ofRat_some (div_nonneg (Binary64.nearest_nonneg nonneg) positive.le) below]
    exact iff_of_false nofun reached

theorem secs_none_iff {value : ℚ} (nonneg : 0 ≤ value) :
    fromSecsF64 (.finite (Binary64.nearest value)) = none ↔ 2 ^ 64 - 2 ^ 10 ≤ value := by
  by_cases reached : ((2 ^ 53 : ℤ) - 1 / 2 : ℚ) * 2 ^ (11 : ℤ) ≤ value
  · have rounded : ((2 ^ 53 : ℤ) : ℚ) * 2 ^ (11 : ℤ) ≤ Binary64.nearest value :=
      Binary64.le_nearest_of_half (by norm_num) (by norm_num) le_rfl (by norm_num) reached
    norm_num at rounded reached
    exact iff_of_true (fromSecsF64_none (by norm_num; linarith)) (by norm_num; linarith)
  · have rounded : Binary64.nearest value ≤ (((2 ^ 53 : ℤ) : ℚ) - 1) * 2 ^ (11 : ℤ) :=
      Binary64.nearest_le_of_half (by norm_num) (by norm_num) le_rfl nonneg (not_le.mp reached)
    have small := fromSecsF64_some (Binary64.nearest_nonneg nonneg) (by exact_mod_cast rounded)
    rw [small]
    refine iff_of_false nofun ?_
    norm_num at reached ⊢
    exact reached

theorem TimeUnit.duration_none_iff {value : ℚ} (nonneg : 0 ≤ value) (unit : TimeUnit) :
    unit.duration (Binary64.nearest value) = none ↔ ∃ bound ∈ unit.overflow, bound ≤ value := by
  cases unit with
  | secs => simpa [duration, overflow] using secs_none_iff nonneg
  | millis =>
      have panics := @quotient_none_iff value 1000 21 (2 ^ 46 * 125) nonneg (by norm_num)
        (by norm_num) (by norm_num) (by norm_num) (by norm_num) (by norm_num) (by norm_num)
      norm_num at panics
      norm_num [duration, overflow, panics]
  | micros =>
      have panics := @quotient_none_iff value 1000000 31 (2 ^ 39 * 15625) nonneg (by norm_num)
        (by norm_num) (by norm_num) (by norm_num) (by norm_num) (by norm_num) (by norm_num)
      norm_num at panics
      norm_num [duration, overflow, panics]
  | nanos => simp [duration, overflow]

section Exact

variable {number divisor per : ℕ} (whole : divisor * per = 10 ^ 9)

include whole

theorem quotient_eq : (number / divisor : ℚ) * 10 ^ 9 = (number * per : ℕ) := by
  have positive : divisor ≠ 0 := by
    rintro rfl
    simp at whole
  have cast : ((divisor : ℚ) * per) = 10 ^ 9 := by exact_mod_cast whole
  rw [← cast, Nat.cast_mul]
  field_simp

theorem quotient_lt (small : number * per < 2 ^ 53) : (number / divisor : ℚ) < 2 ^ 24 := by
  have exact := @quotient_eq number _ _ whole
  have below : ((number * per : ℕ) : ℚ) < 2 ^ 53 := by exact_mod_cast small
  rw [← exact] at below
  norm_num at below ⊢
  linarith

theorem quotient_near_iff (small : number * per < 2 ^ 53) :
    |Binary64.nearest (number / divisor) - number / divisor| * 10 ^ 9 ≤ 1 / 2 ↔
      KeepsNanos divisor number := by
  have positive : 0 < divisor := Nat.pos_of_ne_zero (by rintro rfl; simp at whole)
  have above : (0 : ℚ) < divisor := by exact_mod_cast positive
  rw [abs_sub_comm]
  by_cases low : number < 2 ^ 23 * divisor
  · refine iff_of_true ?_ (Or.inl low)
    rcases Nat.eq_zero_or_pos number with rfl | some
    · norm_num [Binary64.nearest_zero]
    have below : (number / divisor : ℚ) < (2 : ℕ) ^ (23 : ℤ) := by
      rw [div_lt_iff₀ above]
      exact_mod_cast low
    have log := (Int.lt_zpow_iff_log_lt (by norm_num) (by positivity)).mp below
    have least : Binary64.exponent (number / divisor) ≤ -30 := by
      unfold Binary64.exponent
      omega
    have step : (2 : ℚ) ^ Binary64.exponent (number / divisor) ≤ 2 ^ (-30 : ℤ) :=
      zpow_le_zpow_right₀ (by norm_num) least
    have near := Binary64.abs_sub_nearest (number / divisor)
    norm_num at step ⊢
    linarith
  · have reached : (2 : ℚ) ^ (23 : ℕ) ≤ number / divisor := by
      rw [le_div_iff₀ above]
      exact_mod_cast not_lt.mp low
    have same : Binary64.exponent (number / divisor) = -29 :=
      Binary64.exponent_eq (by norm_num) (by exact_mod_cast reached)
        (by exact_mod_cast quotient_lt whole small)
    have scaled : (number / divisor : ℚ) / 2 ^ (-29 : ℤ) = (number * 2 ^ 29 : ℕ) / divisor := by
      rw [Nat.cast_mul]
      norm_num
      ring
    have distance := abs_sub_roundEven_div (number * 2 ^ 29) positive
    have parts : (number / divisor : ℚ) - Binary64.nearest (number / divisor) =
        ((number * 2 ^ 29 : ℕ) / divisor - roundEven ((number * 2 ^ 29 : ℕ) / divisor)) *
          2 ^ (-29 : ℤ) := by
      rw [Binary64.nearest, same, ← scaled, sub_mul, div_mul_cancel₀ _ (by norm_num)]
    rw [parts, abs_mul, distance, KeepsNanos, or_iff_right low, div_mul_eq_mul_div,
      div_mul_eq_mul_div, div_le_iff₀ above]
    generalize min (number * 2 ^ 29 % divisor) (divisor - number * 2 ^ 29 % divisor) = least
    rw [← @Nat.cast_le ℚ]
    push_cast
    norm_num
    constructor <;> intro le <;> linarith

theorem roundEven_quotient_iff (even : per % 2 = 0) (small : number * per < 2 ^ 53) :
    roundEven (Binary64.nearest (number / divisor) * 10 ^ 9) = (number * per : ℕ) ↔
      KeepsNanos divisor number := by
  have parity : ((number * per : ℕ) : ℤ) % 2 = 0 := by
    have : number * per % 2 = 0 := by rw [Nat.mul_mod, even, mul_zero, Nat.zero_mod]
    exact_mod_cast this
  rw [roundEven_eq_iff parity, ← quotient_near_iff whole small, Int.cast_natCast,
    ← quotient_eq whole, ← sub_mul, abs_mul, abs_of_pos (by norm_num : (0 : ℚ) < 10 ^ 9)]

end Exact

theorem TimeUnit.duration_natCast {number : ℕ} {unit : TimeUnit}
    (small : number * unit.nanosPer < 2 ^ 53) :
    ∃ time, unit.duration number = some time ∧
      (time.nanos = number * unit.nanosPer ↔
        unit = .nanos ∨ KeepsNanos unit.perSecond number) := by
  -- A quotient of a natural number and the number of units in a second.
  have divided : ∀ {divisor per : ℕ}, divisor * per = 10 ^ 9 → per % 2 = 0 →
      number * per < 2 ^ 53 →
        ∃ time, fromSecsF64 (.ofRat (number / divisor)) = some time ∧
          (time.nanos = number * per ↔ KeepsNanos divisor number) := by
    intro divisor per whole even small
    have nonneg : (0 : ℚ) ≤ number / divisor := by positivity
    have below := quotient_lt whole small
    refine ⟨_, fromSecsF64_ofRat_some nonneg (by norm_num at below ⊢; linarith), ?_⟩
    have size := roundEven_mono
      (mul_nonneg (Binary64.nearest_nonneg nonneg) (by norm_num : (0 : ℚ) ≤ 10 ^ 9))
    rw [← roundEven_quotient_iff whole even small]
    have zero : roundEven 0 = 0 := by simpa using roundEven_intCast 0
    dsimp only
    omega
  cases unit with
  | secs =>
      rw [nanosPer] at small
      have range : (number : ℚ) ≤ (2 ^ 53 - 1) * 2 ^ 11 := by
        have : number ≤ 18446744073709549568 := by omega
        norm_num
        exact_mod_cast this
      refine ⟨_, fromSecsF64_some (Nat.cast_nonneg number) range, ?_⟩
      have exact : roundEven (number * 10 ^ 9) = (number * 10 ^ 9 : ℕ) := by
        have := roundEven_intCast (number * 10 ^ 9 : ℕ)
        push_cast at this ⊢
        exact this
      have kept : KeepsNanos 1 number := by
        right
        rw [Nat.mod_one]
        norm_num
      refine iff_of_true ?_ (Or.inr kept)
      simp only [exact, Int.toNat_natCast, nanosPer]
  | millis =>
      obtain ⟨time, run, exact⟩ := @divided (10 ^ 3) (10 ^ 6) (by norm_num) (by norm_num) small
      refine ⟨time, ?_, exact.trans (or_iff_right nofun).symm⟩
      rw [duration, ← run]
      norm_num
  | micros =>
      obtain ⟨time, run, exact⟩ := @divided (10 ^ 6) (10 ^ 3) (by norm_num) (by norm_num) small
      refine ⟨time, ?_, exact.trans (or_iff_right nofun).symm⟩
      rw [duration, ← run]
      norm_num
  | nanos =>
      refine ⟨_, rfl, ?_⟩
      rw [nanosPer] at small
      simp only [Binary64.toU64, Int.floor_natCast, Int.toNat_natCast, nanosPer, mul_one,
        true_or, iff_true]
      omega

end Durations

section Spans

theorem parseNonNegative_of_readNumber {number full : List Char} {value : ℚ}
    (read : Binary64.readNumber number = some value) (nonneg : 0 ≤ value)
    (finite : Binary64.nearest value < 2 ^ 1024) :
    parseNonNegative number full = .ok (Binary64.nearest value) := by
  have least := Binary64.nearest_nonneg nonneg
  rw [parseNonNegative, Binary64.parse, read]
  simp only [Binary64.ofRat, abs_of_nonneg nonneg, if_neg (not_le.mpr finite),
    if_neg (not_lt.mpr nonneg), if_neg (not_lt.mpr least)]

theorem readNumber_of_parseNonNegative {number full : List Char} {num : ℚ}
    (parsed : parseNonNegative number full = .ok num) :
    ∃ value, Binary64.readNumber number = some value ∧
      (0 ≤ value ∧ num = Binary64.nearest value ∧ Binary64.nearest value < 2 ^ 1024 ∨
        value < 0 ∧ num = 0) := by
  rw [parseNonNegative] at parsed
  split at parsed
  · cases parsed
  · rename_i value parse
    rw [Binary64.parse] at parse
    split at parsed
    · cases parsed
    rename_i nonneg
    cases parsed
    cases read : Binary64.readNumber number with
    | none =>
        simp only [read] at parse
        split at parse
        · cases parse
        · split at parse <;> cases parse
    | some exact =>
        simp only [read, Option.some.injEq, Binary64.ofRat] at parse
        split at parse
        · cases parse
        rename_i finite
        refine ⟨exact, rfl, ?_⟩
        by_cases negative : exact < 0
        · right
          simp only [if_pos negative, Binary64.finite.injEq] at parse
          have := Binary64.nearest_nonneg (abs_nonneg exact)
          exact ⟨negative, by linarith⟩
        · left
          have least := not_lt.mp negative
          simp only [if_neg negative, abs_of_nonneg least, Binary64.finite.injEq] at parse
          rw [abs_of_nonneg least] at finite
          exact ⟨least, parse.symm, not_le.mp finite⟩
  · cases parsed

theorem mem_of_unitOf {α : Type} {units : List (String × α)} {unit : List Char} {worth : α}
    (found : unitOf units unit = some worth) :
    ∃ entry ∈ units, entry.1.toList = unit ∧ entry.2 = worth := by
  rw [unitOf, Option.map_eq_some_iff] at found
  obtain ⟨entry, first, same⟩ := found
  have named := List.find?_some first
  exact ⟨entry, List.mem_of_find?_eq_some first, by simpa using named, same⟩

theorem pieces_of_reads {α : Type} {toLowercase : List Char → List Char}
    {units : List (String × α)} {text digits : List Char} {worth : α}
    (starts : ∀ entry ∈ units, entry.1.toList.takeWhile isNumberChar = [])
    (reads : Reads toLowercase units text digits worth) :
    Binary64.Digits digits ∧ ∃ unit,
      pieces toLowercase text = (digits, unit) ∧ unitOf units unit = some worth := by
  obtain ⟨unit, whole, isDigits, found⟩ := reads
  refine ⟨isDigits, unit, ?_, found⟩
  have numeric : ∀ char ∈ digits, isNumberChar char = true := by
    intro char member
    rw [isNumberChar, List.all_eq_true.mp isDigits.2 char member]
    rfl
  have stops : unit.takeWhile isNumberChar = [] := by
    obtain ⟨entry, listed, rfl, -⟩ := mem_of_unitOf found
    exact starts entry listed
  have taken : (digits ++ unit).takeWhile isNumberChar = digits := by
    rw [List.takeWhile_append_of_pos numeric, stops, List.append_nil]
  have dropped : (digits ++ unit).dropWhile isNumberChar = unit := by
    rw [List.dropWhile_append_of_pos numeric]
    simpa [stops] using (unit.takeWhile_append_dropWhile (p := isNumberChar))
  rw [pieces, whole, splitNumberUnit, List.span_eq_takeWhile_dropWhile, taken, dropped]

theorem parseNonNegative_digits {digits full : List Char} (isDigits : Binary64.Digits digits)
    (small : numberOf 10 digits < 2 ^ 53) :
    parseNonNegative digits full = .ok (numberOf 10 digits) := by
  have exact := Binary64.nearest_natCast small
  have below : (numberOf 10 digits : ℚ) < 2 ^ 1024 :=
    lt_trans (by exact_mod_cast small) (pow_lt_pow_right₀ (by norm_num) (by norm_num))
  have parsed := @parseNonNegative_of_readNumber _ full _
    (Binary64.readNumber_digits isDigits) (Nat.cast_nonneg _) (by rw [exact]; exact below)
  rw [parsed, exact]

end Spans

section Claims

variable (toLowercase : List Char → List Char) (display : Binary64 → List Char)

/--
A number of seconds, milliseconds or microseconds that no duration holds, and
that is still a number of 64 bits.
-/
def Overflows (text : List Char) : Prop :=
  ∃ value ∈ Binary64.readNumber (pieces toLowercase text).1,
    ∃ unit ∈ unitOf timeUnits (pieces toLowercase text).2,
      (∃ bound ∈ unit.overflow, bound ≤ value) ∧ value < (2 ^ 53 - 1 / 2) * 2 ^ 971

theorem getTime_eq_none_iff (text : List Char) :
    getTime toLowercase text = none ↔ Overflows toLowercase text := by
  have run : getTime toLowercase text =
      match parseNonNegative (pieces toLowercase text).1 (toLowercase (trim text)) with
      | .error error => some (.error error)
      | .ok num =>
          match unitOf timeUnits (pieces toLowercase text).2 with
          | some unit => (unit.duration num).map .ok
          | none => some (.error (.unknownUnit (pieces toLowercase text).2)) := rfl
  rw [run]
  constructor
  · intro panics
    split at panics
    · cases panics
    rename_i num parsed
    split at panics
    · rename_i unit found
      rw [Option.map_eq_none_iff] at panics
      obtain ⟨value, read, ⟨nonneg, rfl, finite⟩ | ⟨-, rfl⟩⟩ :=
        readNumber_of_parseNonNegative parsed
      · exact ⟨value, read, unit, found, (unit.duration_none_iff nonneg).mp panics,
          (Binary64.nearest_lt_iff nonneg).mp finite⟩
      · -- Nothing overflows at zero.
        have reached := (unit.duration_none_iff le_rfl).mp (by rwa [Binary64.nearest_zero])
        obtain ⟨bound, some, le⟩ := reached
        exact absurd (TimeUnit.overflow_pos some) (not_lt.mpr le)
    · cases panics
  · rintro ⟨value, read, unit, found, overflow, small⟩
    obtain ⟨bound, least, le⟩ := overflow
    have nonneg : 0 ≤ value := (TimeUnit.overflow_pos least).le.trans le
    rw [parseNonNegative_of_readNumber read nonneg ((Binary64.nearest_lt_iff nonneg).mpr small),
      found]
    exact Option.map_eq_none_iff.mpr ((unit.duration_none_iff nonneg).mpr ⟨bound, least, le⟩)

theorem getScaled_exact {units : List (String × ℕ)} {text digits : List Char}
    {multiplier result : ℕ}
    (starts : ∀ entry ∈ units, entry.1.toList.takeWhile isNumberChar = [])
    (positive : ∀ entry ∈ units, 0 < entry.2)
    (reads : Reads toLowercase units text digits multiplier)
    (small : numberOf 10 digits * multiplier < 2 ^ 53)
    (run : getScaled toLowercase units text = .ok result) :
    result = numberOf 10 digits * multiplier := by
  obtain ⟨isDigits, unit, cut, found⟩ := pieces_of_reads starts reads
  obtain ⟨entry, listed, -, rfl⟩ := mem_of_unitOf found
  have number : numberOf 10 digits < 2 ^ 53 :=
    lt_of_le_of_lt (Nat.le_mul_of_pos_right _ (positive entry listed)) small
  have scaled : getScaled toLowercase units text =
      .ok (Binary64.ofRat (numberOf 10 digits * Binary64.nearest entry.2)).toU64 := by
    rw [pieces] at cut
    simp only [getScaled, cut, parseNonNegative_digits isDigits number, found]
    rfl
  rw [scaled] at run
  cases run
  rcases Nat.eq_zero_or_pos (numberOf 10 digits) with zero | some
  · have none := @Binary64.ofRat_natCast 0 (by norm_num)
    rw [zero, Nat.cast_zero, zero_mul, zero_mul]
    rw [Nat.cast_zero] at none
    rw [none]
    simp [Binary64.toU64]
  · have whole : entry.2 < 2 ^ 53 := lt_of_le_of_lt (Nat.le_mul_of_pos_left _ some) small
    rw [Binary64.nearest_natCast whole, ← Nat.cast_mul, Binary64.ofRat_natCast small]
    simp only [Binary64.toU64, Int.floor_natCast, Int.toNat_natCast]
    omega

theorem getPercent_exact {text digits : List Char} {result : Binary64}
    (whole : trim text = digits ∨ trim text = digits ++ ['%'])
    (isDigits : Binary64.Digits digits)
    (fits : Binary64.nearest (numberOf 10 digits / 100) = numberOf 10 digits / 100)
    (run : getPercent display text = .ok result) : result = .finite (numberOf 10 digits / 100) := by
  have stripped : (stripSuffix '%' (trim text)).getD (trim text) = digits := by
    rcases whole with bare | marked
    · have last : digits.getLast? ≠ some '%' := by
        intro last
        have := List.all_eq_true.mp isDigits.2 '%' (List.mem_of_getLast? last)
        exact absurd this (by decide)
      rw [bare, stripSuffix, if_neg last]
      rfl
    · rw [marked, stripSuffix, if_pos (by simp), List.dropLast_concat]
      rfl
  simp only [getPercent, stripped, Binary64.parse_digits isDigits] at run
  have nonneg : (0 : ℚ) ≤ numberOf 10 digits := Nat.cast_nonneg _
  have small : numberOf 10 digits ≤ 100 := by
    by_contra more
    have beyond : (101 : ℚ) ≤ Binary64.nearest (numberOf 10 digits) := by
      have fixed := @Binary64.nearest_natCast 101 (by norm_num)
      have := @Binary64.nearest_mono 101 (numberOf 10 digits) (by norm_num)
        (by exact_mod_cast not_le.mp more)
      exact le_of_eq_of_le fixed.symm this
    rw [Binary64.ofRat, abs_of_nonneg nonneg, if_neg (not_lt.mpr nonneg)] at run
    split at run
    · rename_i value finite
      split at finite <;> cases finite
      split at run
      · linarith
      · cases run
    · cases run
  have exact := @Binary64.ofRat_natCast (numberOf 10 digits) (by omega)
  have range : (0 : ℚ) ≤ numberOf 10 digits ∧ (numberOf 10 digits : ℚ) ≤ 100 :=
    ⟨nonneg, by exact_mod_cast small⟩
  simp only [exact, if_pos range, Except.ok.injEq] at run
  have part : (0 : ℚ) ≤ numberOf 10 digits / 100 := by positivity
  have bound : ¬2 ^ 1024 ≤ (numberOf 10 digits / 100 : ℚ) := by
    have one : (1 : ℚ) < 2 ^ 1024 := one_lt_pow₀ (by norm_num) (by norm_num)
    exact not_le.mpr (lt_of_le_of_lt ((div_le_one (by norm_num)).mpr range.2) one)
  rw [← run, Binary64.ofRat, abs_of_nonneg part, fits, if_neg bound, if_neg (not_lt.mpr part)]

/-- Exactly what the parsers need of a text. -/
theorem parsers_sound_iff (text : List Char) :
    Sound toLowercase display text ↔
      ¬Overflows toLowercase text ∧
        ∀ digits unit, Reads toLowercase timeUnits text digits unit →
          numberOf 10 digits * unit.nanosPer < 2 ^ 53 →
            unit = .nanos ∨ KeepsNanos unit.perSecond (numberOf 10 digits) := by
  have starts : ∀ entry ∈ timeUnits, entry.1.toList.takeWhile isNumberChar = [] := by decide
  -- What `get_time` makes of digits and a unit.
  have reading : ∀ digits unit, Reads toLowercase timeUnits text digits unit →
      numberOf 10 digits * unit.nanosPer < 2 ^ 53 →
        ∃ time, getTime toLowercase text = some (.ok time) ∧
          (time.nanos = numberOf 10 digits * unit.nanosPer ↔
            unit = .nanos ∨ KeepsNanos unit.perSecond (numberOf 10 digits)) := by
    intro digits unit reads small
    obtain ⟨isDigits, written, cut, found⟩ := pieces_of_reads starts reads
    obtain ⟨time, lasts, exact⟩ := TimeUnit.duration_natCast small
    have number : numberOf 10 digits < 2 ^ 53 :=
      lt_of_le_of_lt (Nat.le_mul_of_pos_right _ (by cases unit <;> decide)) small
    refine ⟨time, ?_, exact⟩
    rw [pieces] at cut
    simp only [getTime, cut, parseNonNegative_digits isDigits number, found, lasts]
    rfl
  constructor
  · intro sound
    refine ⟨fun overflows => sound.total ((getTime_eq_none_iff toLowercase text).mpr overflows), ?_⟩
    intro digits unit reads small
    obtain ⟨time, run, exact⟩ := reading digits unit reads small
    exact exact.mp (sound.time digits unit time reads small run)
  · rintro ⟨bounded, kept⟩
    refine ⟨fun panics => bounded ((getTime_eq_none_iff toLowercase text).mp panics), ?_, ?_, ?_,
      ?_⟩
    · intro digits bits result reads small run
      exact getScaled_exact toLowercase (by decide) (by decide) reads small run
    · intro digits bytes result reads small run
      exact getScaled_exact toLowercase (by decide) (by decide) reads small run
    · intro digits unit result reads small run
      obtain ⟨time, ran, exact⟩ := reading digits unit reads small
      rw [ran] at run
      cases run
      exact exact.mpr (kept digits unit reads small)
    · intro digits result whole isDigits fits run
      exact getPercent_exact display whole isDigits fits run

/-- One second more than a duration can hold. -/
theorem parsers_not_sound :
    ¬Sound toAsciiLowercase (fun _ => []) "18446744073709551616s".toList := by
  intro sound
  exact sound.total (by decide +kernel)

end Claims

end Nlink.Parse
