import Mathlib.Algebra.Order.Archimedean.Basic
import Mathlib.Algebra.Order.Floor.Ring
import Mathlib.Data.Int.Log
import Mathlib.Data.Rat.Floor
import Mathlib.Tactic.Linarith
import Mathlib.Tactic.NormNum
import Mathlib.Tactic.Positivity
import Mathlib.Tactic.Ring
import Nlink.Foundation.Digits

namespace Foundation

/-!
# Numbers of 64 bits with a binary point

A result that is no such number becomes the nearest one, and the even one of
two that are as near.  The numbers between two powers of two are the multiples
of one step, so rounding is that of integers, scaled.  A zero has no sign here.
-/

/-- The nearest integer; the even one of two. -/
def roundEven (value : ℚ) : ℤ :=
  let down := ⌊value⌋
  if value - down < 1 / 2 then
    down
  else if 1 / 2 < value - down then
    down + 1
  else
    down + down % 2

section RoundEven

theorem roundEven_of_lt {value : ℚ} {down : ℤ} (lower : (down : ℚ) ≤ value)
    (upper : value < down + 1 / 2) : roundEven value = down := by
  have floor : ⌊value⌋ = down := Int.floor_eq_iff.mpr ⟨lower, by linarith⟩
  simp only [roundEven, floor]
  exact if_pos (by linarith)

theorem roundEven_of_gt {value : ℚ} {down : ℤ} (lower : down + 1 / 2 < value)
    (upper : value < down + 1) : roundEven value = down + 1 := by
  have floor : ⌊value⌋ = down := Int.floor_eq_iff.mpr ⟨by linarith, upper⟩
  simp only [roundEven, floor]
  rw [if_neg (by linarith), if_pos (by linarith)]

theorem roundEven_half (down : ℤ) : roundEven (down + 1 / 2) = down + down % 2 := by
  have floor : ⌊(down : ℚ) + 1 / 2⌋ = down := Int.floor_eq_iff.mpr ⟨by linarith, by linarith⟩
  simp only [roundEven, floor]
  rw [if_neg (by linarith), if_neg (by linarith)]

@[simp] theorem roundEven_intCast (number : ℤ) : roundEven number = number :=
  roundEven_of_lt le_rfl (by linarith)

/-- The rounded value lies between the integers around. -/
theorem roundEven_bounds (value : ℚ) :
    ⌊value⌋ ≤ roundEven value ∧ roundEven value ≤ ⌊value⌋ + 1 := by
  unfold roundEven
  dsimp only
  split_ifs <;> omega

theorem roundEven_mono {first second : ℚ} (le : first ≤ second) :
    roundEven first ≤ roundEven second := by
  have floors : ⌊first⌋ ≤ ⌊second⌋ := Int.floor_mono le
  rcases floors.lt_or_eq with apart | same
  · have := (roundEven_bounds first).2
    have := (roundEven_bounds second).1
    omega
  · -- Between the same integers the nearer one can only move up.
    unfold roundEven
    rw [same]
    dsimp only
    split_ifs <;> first | omega | (exfalso; linarith)

theorem roundEven_near {value : ℚ} {near : ℤ} (distance : |value - near| < 1 / 2) :
    roundEven value = near := by
  obtain ⟨below, above⟩ := abs_lt.mp distance
  by_cases side : (near : ℚ) ≤ value
  · exact roundEven_of_lt side (by linarith)
  · have rounded := @roundEven_of_gt value (near - 1) (by push_cast; linarith)
      (by push_cast; linarith)
    rw [rounded, sub_add_cancel]

/-- Half way from an even integer, the value is rounded to it. -/
theorem roundEven_near_even {value : ℚ} {near : ℤ} (even : near % 2 = 0)
    (distance : |value - near| ≤ 1 / 2) : roundEven value = near := by
  rcases distance.lt_or_eq with nearer | half
  · exact roundEven_near nearer
  rcases (abs_eq (by norm_num)).mp half with above | below
  · have middle : value = near + 1 / 2 := by linarith
    rw [middle, roundEven_half, even, add_zero]
  · have middle : value = (near - 1 : ℤ) + 1 / 2 := by
      push_cast
      linarith
    rw [middle, roundEven_half]
    omega

theorem abs_sub_roundEven (value : ℚ) : |value - roundEven value| ≤ 1 / 2 := by
  have lower := Int.floor_le value
  have upper := Int.lt_floor_add_one value
  unfold roundEven
  have parity : ((⌊value⌋ % 2 : ℤ) : ℚ) = 0 ∨ ((⌊value⌋ % 2 : ℤ) : ℚ) = 1 := by
    rcases Int.emod_two_eq_zero_or_one ⌊value⌋ with even | odd
    · left
      rw [even, Int.cast_zero]
    · right
      rw [odd, Int.cast_one]
  dsimp only
  rw [abs_le]
  split_ifs <;> push_cast <;> rcases parity with even | odd <;> constructor <;> linarith

theorem roundEven_eq_iff {value : ℚ} {near : ℤ} (even : near % 2 = 0) :
    roundEven value = near ↔ |value - near| ≤ 1 / 2 := by
  constructor
  · rintro rfl
    exact abs_sub_roundEven value
  · exact roundEven_near_even even

/-- How far a quotient is from the integer it is rounded to. -/
theorem abs_sub_roundEven_div (number : ℕ) {divisor : ℕ} (positive : 0 < divisor) :
    |(number / divisor : ℚ) - roundEven (number / divisor)| =
      (min (number % divisor) (divisor - number % divisor) : ℕ) / divisor := by
  have above : (0 : ℚ) < divisor := by exact_mod_cast positive
  have rest := Nat.mod_lt number positive
  have parts : (number / divisor : ℚ) =
      ((number / divisor : ℕ) : ℤ) + (number % divisor : ℕ) / divisor := by
    rw [eq_comm, Int.cast_natCast, eq_div_iff above.ne', add_mul, div_mul_cancel₀ _ above.ne']
    exact_mod_cast Nat.div_add_mod' number divisor
  have part : (0 : ℚ) ≤ (number % divisor : ℕ) / divisor := by positivity
  have whole : ((number % divisor : ℕ) : ℚ) / divisor < 1 :=
    (div_lt_one above).mpr (by exact_mod_cast rest)
  rw [parts]
  rcases lt_trichotomy (2 * (number % divisor)) divisor with less | half | more
  · have under : ((number % divisor : ℕ) : ℚ) / divisor < 1 / 2 := by
      rw [div_lt_div_iff₀ above (by norm_num)]
      exact_mod_cast (by omega : number % divisor * 2 < 1 * divisor)
    rw [@roundEven_of_lt _ (number / divisor : ℕ) (by linarith) (by linarith),
      add_sub_cancel_left, abs_of_nonneg part, min_eq_left (by omega)]
  · have middle : ((number % divisor : ℕ) : ℚ) / divisor = 1 / 2 := by
      rw [div_eq_div_iff above.ne' (by norm_num)]
      exact_mod_cast (by omega : number % divisor * 2 = 1 * divisor)
    rw [min_eq_left (by omega), middle, roundEven_half]
    rcases Int.emod_two_eq_zero_or_one ((number / divisor : ℕ) : ℤ) with even | odd
    · rw [even, add_zero, add_sub_cancel_left]
      norm_num
    · rw [odd, Int.cast_add, add_sub_add_left_eq_sub]
      norm_num
  · have beyond : 1 / 2 < ((number % divisor : ℕ) : ℚ) / divisor := by
      rw [div_lt_div_iff₀ (by norm_num) above]
      exact_mod_cast (by omega : 1 * divisor < number % divisor * 2)
    rw [@roundEven_of_gt _ (number / divisor : ℕ) (by linarith) (by linarith), Int.cast_add,
      Int.cast_one, add_sub_add_left_eq_sub, abs_of_neg (by linarith), min_eq_right (by omega),
      Nat.cast_sub rest.le, sub_div, div_self above.ne']
    ring

end RoundEven

/-- A number, or what stands for a result that is none. -/
inductive Binary64 where
  | finite (value : ℚ)
  | infinite (negative : Bool)
  | nan

namespace Binary64

/-- The step between the numbers around a value, as a power of two. -/
def exponent (value : ℚ) : ℤ :=
  max (Int.log 2 value - 52) (-1074)

/-- The nearest number to a value that is not negative, of any size. -/
def nearest (value : ℚ) : ℚ :=
  roundEven (value / 2 ^ exponent value) * 2 ^ exponent value

section Nearest

theorem step_pos (step : ℤ) : (0 : ℚ) < 2 ^ step :=
  zpow_pos (by norm_num) step

theorem nearest_zero : nearest 0 = 0 := by
  have rounded : roundEven 0 = 0 := by simpa using roundEven_intCast 0
  rw [nearest, zero_div, rounded, Int.cast_zero, zero_mul]

variable {value : ℚ}

theorem nearest_nonneg (nonneg : 0 ≤ value) : 0 ≤ nearest value := by
  have scaled : roundEven ((0 : ℤ) : ℚ) ≤ roundEven (value / 2 ^ exponent value) :=
    roundEven_mono (by simpa using div_nonneg nonneg (step_pos _).le)
  rw [roundEven_intCast] at scaled
  exact mul_nonneg (by exact_mod_cast scaled) (step_pos _).le

/-- Multiples of the step are not passed, upwards. -/
theorem nearest_le {multiple : ℤ} (le : value ≤ multiple * 2 ^ exponent value) :
    nearest value ≤ multiple * 2 ^ exponent value := by
  have scaled := roundEven_mono ((div_le_iff₀ (step_pos _)).mpr le)
  rw [roundEven_intCast] at scaled
  exact mul_le_mul_of_nonneg_right (by exact_mod_cast scaled) (step_pos _).le

/-- Multiples of the step are not passed, downwards. -/
theorem le_nearest {multiple : ℤ} (le : multiple * 2 ^ exponent value ≤ value) :
    multiple * 2 ^ exponent value ≤ nearest value := by
  have scaled := roundEven_mono ((le_div_iff₀ (step_pos _)).mpr le)
  rw [roundEven_intCast] at scaled
  exact mul_le_mul_of_nonneg_right (by exact_mod_cast scaled) (step_pos _).le

/-- A multiple of the step is a number. -/
theorem nearest_eq_self {value : ℚ} {multiple : ℤ}
    (eq : value = multiple * 2 ^ exponent value) : nearest value = value := by
  refine le_antisymm ?_ ?_
  · exact le_of_le_of_eq (nearest_le eq.le) eq.symm
  · exact le_of_eq_of_le eq (le_nearest eq.ge)

/-- Between two powers of two the step is the same. -/
theorem exponent_eq {step : ℤ} (normal : -1074 ≤ step)
    (lower : 2 ^ (step + 52) ≤ value) (upper : value < 2 ^ (step + 53)) :
    exponent value = step := by
  have positive : 0 < value := lt_of_lt_of_le (step_pos _) lower
  have least : step + 52 ≤ Int.log 2 value :=
    (Int.zpow_le_iff_le_log (by norm_num) positive).mp (by exact_mod_cast lower)
  have most : Int.log 2 value < step + 53 :=
    (Int.lt_zpow_iff_log_lt (by norm_num) positive).mp (by exact_mod_cast upper)
  rw [exponent]
  omega

theorem exponent_mono {first second : ℚ} (positive : 0 < first) (le : first ≤ second) :
    exponent first ≤ exponent second := by
  have logs := Int.log_mono_right (b := 2) positive le
  unfold exponent
  omega

/-- A power of two is a multiple of the steps that are no larger. -/
theorem pow_eq_multiple {top step : ℤ} (le : step ≤ top) :
    ((2 ^ (top - step).toNat : ℤ) : ℚ) * 2 ^ step = 2 ^ top := by
  have whole : ((top - step).toNat : ℤ) = top - step := Int.toNat_of_nonneg (by omega)
  rw [Int.cast_pow, Int.cast_ofNat, ← zpow_natCast, whole, ← zpow_add₀ (by norm_num)]
  congr 1
  omega

theorem nearest_mono {first second : ℚ} (nonneg : 0 ≤ first) (le : first ≤ second) :
    nearest first ≤ nearest second := by
  rcases nonneg.eq_or_lt with rfl | positive
  · rw [nearest_zero]
    exact nearest_nonneg le
  rcases (exponent_mono positive le).eq_or_lt with same | apart
  · rw [nearest, nearest, same]
    have scaled := roundEven_mono (div_le_div_of_nonneg_right le (step_pos (exponent second)).le)
    exact mul_le_mul_of_nonneg_right (by exact_mod_cast scaled) (step_pos _).le
  -- A power of two lies between the values, and rounding passes it on neither side.
  have logs : exponent second ≤ Int.log 2 second ∧ exponent first ≤ Int.log 2 second ∧
      Int.log 2 first < Int.log 2 second := by
    unfold exponent at apart ⊢
    omega
  obtain ⟨above, below, split⟩ := logs
  have small : first ≤ 2 ^ Int.log 2 second :=
    (Int.lt_zpow_iff_log_lt (by norm_num) positive).mpr split |>.le
  have large : 2 ^ Int.log 2 second ≤ second :=
    Int.zpow_log_le_self (by norm_num) (lt_of_lt_of_le positive le)
  calc nearest first ≤ _ := nearest_le (le_of_le_of_eq small (pow_eq_multiple below).symm)
    _ = 2 ^ Int.log 2 second := pow_eq_multiple below
    _ = _ := (pow_eq_multiple above).symm
    _ ≤ nearest second := le_nearest (le_of_eq_of_le (pow_eq_multiple above) large)

section HalfSteps

variable {step multiple : ℤ} (normal : -1074 ≤ step) (lower : 2 ^ 52 < multiple)
  (upper : multiple ≤ 2 ^ 53)

include normal lower upper

/-- Half a step below a multiple that is even, a value is rounded to it. -/
theorem le_nearest_of_half {value : ℚ} (even : multiple % 2 = 0)
    (le : (multiple - 1 / 2) * 2 ^ step ≤ value) : multiple * 2 ^ step ≤ nearest value := by
  have least : (2 : ℚ) ^ 52 + 1 ≤ multiple := by exact_mod_cast lower
  have most : (multiple : ℚ) ≤ 2 ^ 53 := by exact_mod_cast upper
  have same : exponent ((multiple - 1 / 2) * 2 ^ step) = step := by
    refine exponent_eq normal ?_ ?_
    · rw [add_comm, zpow_add₀ (by norm_num)]
      exact mul_le_mul_of_nonneg_right (by norm_num at least ⊢; linarith) (step_pos _).le
    · rw [add_comm, zpow_add₀ (by norm_num)]
      exact mul_lt_mul_of_pos_right (by norm_num at most ⊢; linarith) (step_pos _)
  have half : nearest ((multiple - 1 / 2) * 2 ^ step) = multiple * 2 ^ step := by
    have before := roundEven_half (multiple - 1)
    rw [nearest, same, mul_div_cancel_right₀ _ (step_pos _).ne',
      show (multiple : ℚ) - 1 / 2 = (multiple - 1 : ℤ) + 1 / 2 by push_cast; ring, before,
      show multiple - 1 + (multiple - 1) % 2 = multiple by omega]
  rw [← half]
  exact nearest_mono (mul_nonneg (by linarith) (step_pos _).le) le

/-- Further below, a value is rounded to the multiple before or a lesser one. -/
theorem nearest_le_of_half {value : ℚ} (nonneg : 0 ≤ value)
    (lt : value < (multiple - 1 / 2) * 2 ^ step) : nearest value ≤ (multiple - 1) * 2 ^ step := by
  have least : (2 : ℚ) ^ 52 + 1 ≤ multiple := by exact_mod_cast lower
  have most : (multiple : ℚ) ≤ 2 ^ 53 := by exact_mod_cast upper
  have start : (2 : ℚ) ^ (step + 52) = (2 ^ 52 : ℤ) * 2 ^ step := by
    rw [add_comm, zpow_add₀ (by norm_num)]
    norm_num
  have next : (2 : ℚ) ^ (step + 53) = 2 ^ 53 * 2 ^ step := by
    rw [add_comm, zpow_add₀ (by norm_num)]
    norm_num
  by_cases reached : 2 ^ (step + 52) ≤ value
  · have same : exponent value = step := by
      refine exponent_eq normal reached (lt.trans_le ?_)
      rw [next]
      exact mul_le_mul_of_nonneg_right (by linarith) (step_pos _).le
    have scaled : value / 2 ^ step < ((multiple - 1 : ℤ) : ℚ) + 1 / 2 := by
      rw [div_lt_iff₀ (step_pos _)]
      push_cast
      linarith
    have rounded : roundEven (value / 2 ^ step) ≤ multiple - 1 := by
      by_cases above : ((multiple - 1 : ℤ) : ℚ) ≤ value / 2 ^ step
      · exact (roundEven_of_lt above scaled).le
      · have := roundEven_mono (not_le.mp above).le
        rwa [roundEven_intCast] at this
    rw [nearest, same]
    exact mul_le_mul_of_nonneg_right (by exact_mod_cast rounded) (step_pos _).le
  · have same : exponent (2 ^ (step + 52)) = step :=
      exponent_eq normal le_rfl (zpow_lt_zpow_right₀ (by norm_num) (by omega))
    have fixed : nearest (2 ^ (step + 52)) = 2 ^ (step + 52) :=
      nearest_eq_self (by rw [same]; exact start)
    calc nearest value ≤ nearest (2 ^ (step + 52)) := nearest_mono nonneg (not_le.mp reached).le
      _ = (2 ^ 52 : ℤ) * 2 ^ step := fixed.trans start
      _ ≤ (multiple - 1) * 2 ^ step :=
          mul_le_mul_of_nonneg_right (by push_cast; linarith) (step_pos _).le

end HalfSteps

/-- A natural number below `2 ^ 53` is a number. -/
theorem nearest_natCast {number : ℕ} (small : number < 2 ^ 53) : nearest number = number := by
  rcases Nat.eq_zero_or_pos number with rfl | positive
  · exact_mod_cast nearest_zero
  have least : exponent (number : ℚ) ≤ 0 := by
    have below : (number : ℚ) < (2 : ℕ) ^ (53 : ℤ) := by exact_mod_cast small
    have := (Int.lt_zpow_iff_log_lt (by norm_num) (by exact_mod_cast positive)).mp below
    unfold exponent
    omega
  have one := pow_eq_multiple least
  refine @nearest_eq_self _ (number * 2 ^ (0 - exponent (number : ℚ)).toNat) ?_
  rw [Int.cast_mul, mul_assoc, one, zpow_zero, mul_one, Int.cast_natCast]

theorem abs_sub_nearest (value : ℚ) : |value - nearest value| ≤ 2 ^ exponent value / 2 := by
  have scaled := abs_sub_roundEven (value / 2 ^ exponent value)
  have parts : value - nearest value =
      (value / 2 ^ exponent value - roundEven (value / 2 ^ exponent value)) *
        2 ^ exponent value := by
    rw [sub_mul, div_mul_cancel₀ _ (step_pos _).ne', nearest]
  rw [parts, abs_mul, abs_of_pos (step_pos (exponent value))]
  have := mul_le_mul_of_nonneg_right scaled (step_pos (exponent value)).le
  linarith

end Nearest

/-- What is rounded to less than `2 ^ 1024`. -/
theorem nearest_lt_iff {value : ℚ} (nonneg : 0 ≤ value) :
    nearest value < 2 ^ 1024 ↔ value < (2 ^ 53 - 1 / 2) * 2 ^ 971 := by
  have parts : ((2 ^ 53 : ℤ) : ℚ) * 2 ^ (971 : ℤ) = 2 ^ 1024 := by
    rw [Int.cast_pow, Int.cast_ofNat, show (971 : ℤ) = (971 : ℕ) from rfl, zpow_natCast, ← pow_add]
  have half : (((2 ^ 53 : ℤ) : ℚ) - 1 / 2) * 2 ^ (971 : ℤ) = (2 ^ 53 - 1 / 2) * 2 ^ 971 := by
    rw [Int.cast_pow, Int.cast_ofNat, show (971 : ℤ) = (971 : ℕ) from rfl, zpow_natCast]
  rw [← parts, ← half]
  constructor
  · contrapose!
    exact le_nearest_of_half (by norm_num) (by norm_num) le_rfl (by norm_num)
  · intro lt
    refine lt_of_le_of_lt (nearest_le_of_half (by norm_num) (by norm_num) le_rfl nonneg lt) ?_
    exact mul_lt_mul_of_pos_right (by linarith) (step_pos _)

/-- The result of an operation: too large a number is none. -/
def ofRat (value : ℚ) : Binary64 :=
  if 2 ^ 1024 ≤ nearest |value| then
    .infinite (value < 0)
  else
    .finite (if value < 0 then -nearest |value| else nearest |value|)

theorem ofRat_natCast {number : ℕ} (small : number < 2 ^ 53) : ofRat number = .finite number := by
  have nonneg : (0 : ℚ) ≤ number := Nat.cast_nonneg number
  have below : (number : ℚ) < 2 ^ 1024 :=
    lt_trans (by exact_mod_cast small) (pow_lt_pow_right₀ (by norm_num) (by norm_num))
  rw [ofRat, abs_of_nonneg nonneg, nearest_natCast small, if_neg (not_le.mpr below),
    if_neg (not_lt.mpr nonneg)]

/-- `as u64`: cut at the point, and to what an unsigned number of 64 bits can be. -/
def toU64 : Binary64 → ℕ
  | .finite value => min ⌊value⌋.toNat (2 ^ 64 - 1)
  | .infinite negative => if negative then 0 else 2 ^ 64 - 1
  | .nan => 0

section Texts

open Text AddressText

/-- A minus sign before a text, and the text behind the sign. -/
def splitSign : List Char → Bool × List Char
  | '-' :: rest => (true, rest)
  | '+' :: rest => (false, rest)
  | text => (false, text)

/-- The exponent behind a number, which may be missing. -/
def readExponent : List Char → Option ℤ
  | [] => some 0
  | mark :: rest =>
      let (negative, digits) := splitSign rest
      if (mark = 'e' ∨ mark = 'E') ∧ digits ≠ [] ∧ digits.all Char.isDigit then
        some (if negative then -numberOf 10 digits else numberOf 10 digits)
      else
        none

/-- Decimal digits with a point among them, and an exponent behind. -/
def readDecimal (text : List Char) : Option ℚ :=
  let whole := text.takeWhile Char.isDigit
  let (part, rest) :=
    match text.dropWhile Char.isDigit with
    | '.' :: after => (after.takeWhile Char.isDigit, after.dropWhile Char.isDigit)
    | rest => ([], rest)
  if whole = [] ∧ part = [] then
    none
  else
    (readExponent rest).map fun (exponent : ℤ) =>
      numberOf 10 (whole ++ part) * 10 ^ (exponent - part.length)

/-- The value that a text stands for, before it is rounded. -/
def readNumber (text : List Char) : Option ℚ :=
  let (negative, body) := splitSign text
  (readDecimal body).map fun value => if negative then -value else value

/-- `str::parse::<f64>`. -/
def parse (text : List Char) : Option Binary64 :=
  let (negative, body) := splitSign text
  match readNumber text with
  | some value => some (ofRat value)
  | none =>
      if eqIgnoreAsciiCase body "inf".toList || eqIgnoreAsciiCase body "infinity".toList then
        some (.infinite negative)
      else if eqIgnoreAsciiCase body "nan".toList then
        some .nan
      else
        none

/-- Decimal digits, at least one. -/
def Digits (text : List Char) : Prop :=
  text ≠ [] ∧ text.all Char.isDigit

theorem readNumber_digits {digits : List Char} (isDigits : Digits digits) :
    readNumber digits = some (numberOf 10 digits : ℚ) := by
  obtain ⟨nonempty, all⟩ := isDigits
  have every := List.all_eq_true.mp all
  have unsigned : splitSign digits = (false, digits) := by
    unfold splitSign
    split
    · exact absurd (every '-' List.mem_cons_self) (by decide)
    · exact absurd (every '+' List.mem_cons_self) (by decide)
    · rfl
  have taken : digits.takeWhile Char.isDigit = digits := List.takeWhile_eq_self_iff.mpr every
  have dropped : digits.dropWhile Char.isDigit = [] := List.dropWhile_eq_nil_iff.mpr every
  simp [readNumber, unsigned, readDecimal, taken, dropped, nonempty, readExponent]

theorem parse_digits {digits : List Char} (isDigits : Digits digits) :
    parse digits = some (ofRat (numberOf 10 digits)) := by
  rw [parse, readNumber_digits isDigits]

end Texts

end Binary64

end Foundation
