import Mathlib.Data.List.Forall2
import Mathlib.Tactic.ByContra
import Nlink.Foundation.FixedLayout

namespace Foundation

/-!
# Prefixes of bit vectors

The leading bits of a vector are what is left when the others are shifted out.
Two vectors share them exactly when they agree under the mask of these bits.
-/

variable {width : Nat}

/-- The mask of the first bits; more bits than there are is all of them. -/
def prefixMask (width length : Nat) : BitVec width :=
  BitVec.allOnes width <<< (width - length)

/-- Two vectors have the same first bits. -/
def SharePrefix (length : Nat) (first second : BitVec width) : Prop :=
  first >>> (width - length) = second >>> (width - length)

instance (length : Nat) (first second : BitVec width) :
    Decidable (SharePrefix length first second) :=
  inferInstanceAs (Decidable (_ = _))

theorem getLsbD_and_prefixMask (length : Nat) (bits : BitVec width) (place : Nat) :
    (bits &&& prefixMask width length).getLsbD place =
      (bits.getLsbD place && decide (width - length ≤ place)) := by
  rw [prefixMask, BitVec.getLsbD_and, BitVec.getLsbD_shiftLeft, BitVec.getLsbD_allOnes]
  by_cases inside : place < width
  · have inMask : place - (width - length) < width := by omega
    rw [decide_eq_true inside, decide_eq_true inMask, Bool.true_and, Bool.and_true, ← decide_not]
    congr 2
    exact propext Nat.not_lt
  · rw [BitVec.getLsbD_of_ge bits place (Nat.le_of_not_lt inside), Bool.false_and, Bool.false_and]

/-- Masking compares prefixes. -/
theorem and_prefixMask_eq_iff {length : Nat} {first second : BitVec width} :
    first &&& prefixMask width length = second &&& prefixMask width length ↔
      SharePrefix length first second := by
  constructor
  · intro same
    apply BitVec.eq_of_getLsbD_eq
    intro place _
    have agree := congrArg (fun bits => bits.getLsbD (width - length + place)) same
    simp only [getLsbD_and_prefixMask, Nat.le_add_right, decide_true, Bool.and_true] at agree
    rw [BitVec.getLsbD_ushiftRight, BitVec.getLsbD_ushiftRight, agree]
  · intro same
    apply BitVec.eq_of_getLsbD_eq
    intro place _
    rw [getLsbD_and_prefixMask, getLsbD_and_prefixMask]
    by_cases high : width - length ≤ place
    · have agree := congrArg (fun bits => bits.getLsbD (place - (width - length))) same
      simp only [BitVec.getLsbD_ushiftRight, Nat.add_sub_cancel' high] at agree
      rw [agree]
    · rw [decide_eq_false high, Bool.and_false, Bool.and_false]

theorem sharePrefix_of_width_le {length : Nat} (whole : width ≤ length)
    {first second : BitVec width} : SharePrefix length first second ↔ first = second := by
  rw [SharePrefix, Nat.sub_eq_zero_of_le whole, BitVec.ushiftRight_zero, BitVec.ushiftRight_zero]

/-!
## Prefixes of bytes

A prefix of a number in network byte order is some whole bytes and the first bits
of the next one.
-/

theorem drop_littleEndian (width count value : Nat) :
    (littleEndian width value).drop count =
      littleEndian (width - count) (value / 256 ^ count) := by
  induction count generalizing width value with
  | zero => simp
  | succ count ih =>
      cases width with
      | zero => simp [littleEndian]
      | succ width =>
          rw [littleEndian, List.drop_succ_cons, ih, Nat.div_div_eq_div_mul, ← Nat.pow_succ',
            Nat.add_sub_add_right]

theorem getElem?_littleEndian {width place : Nat} (inside : place < width) (value : Nat) :
    (littleEndian width value)[place]? = some (UInt8.ofNat (value / 256 ^ place)) := by
  obtain ⟨rest, isRest⟩ : ∃ rest, width - place = rest + 1 := ⟨width - place - 1, by omega⟩
  rw [← Nat.add_zero place, ← List.getElem?_drop, drop_littleEndian, Nat.add_zero, isRest]
  rfl

theorem take_toBytes_big {width count : Nat} (le : count ≤ width) (value : Nat) :
    (ByteOrder.big.toBytes width value).take count =
      ByteOrder.big.toBytes count (value / 256 ^ (width - count)) := by
  rw [ByteOrder.toBytes, List.take_reverse, littleEndian_length, drop_littleEndian,
    Nat.sub_sub_self le]
  rfl

theorem getElem?_toBytes_big {width place : Nat} (inside : place < width) (value : Nat) :
    (ByteOrder.big.toBytes width value)[place]? =
      some (UInt8.ofNat (value / 256 ^ (width - 1 - place))) := by
  have bound : place < (littleEndian width value).length := by rwa [littleEndian_length]
  rw [ByteOrder.toBytes, List.getElem?_reverse bound, littleEndian_length,
    getElem?_littleEndian (by omega)]

theorem take_toBytes_big_eq_iff {width count first second : Nat} (le : count ≤ width)
    (fits : first < 256 ^ width) (fitsToo : second < 256 ^ width) :
    (ByteOrder.big.toBytes width first).take count =
        (ByteOrder.big.toBytes width second).take count ↔
      first / 256 ^ (width - count) = second / 256 ^ (width - count) := by
  have quotient : ∀ value, value < 256 ^ width → value / 256 ^ (width - count) < 256 ^ count := by
    intro value small
    apply Nat.div_lt_of_lt_mul
    rwa [← Nat.pow_add, Nat.sub_add_cancel le]
  rw [take_toBytes_big le, take_toBytes_big le]
  constructor
  · intro same
    have back := congrArg ByteOrder.big.ofBytes same
    rwa [ByteOrder.ofBytes_toBytes _ (quotient first fits),
      ByteOrder.ofBytes_toBytes _ (quotient second fitsToo)] at back
  · intro same
    rw [same]

theorem sharePrefix_iff_div {width length : Nat} {first second : BitVec width} :
    SharePrefix length first second ↔
      first.toNat / 2 ^ (width - length) = second.toNat / 2 ^ (width - length) := by
  rw [SharePrefix, ← BitVec.toNat_inj, BitVec.toNat_ushiftRight, BitVec.toNat_ushiftRight,
    Nat.shiftRight_eq_div_pow, Nat.shiftRight_eq_div_pow]

/-- Quotients are the same if the quotients of these by a number are, and the rests. -/
theorem div_eq_iff_of_mul (first second divisor more : Nat) :
    first / divisor = second / divisor ↔
      first / (divisor * more) = second / (divisor * more) ∧
        first / divisor % more = second / divisor % more := by
  rw [← Nat.div_div_eq_div_mul, ← Nat.div_div_eq_div_mul]
  constructor
  · intro same
    rw [same]
    exact ⟨rfl, rfl⟩
  · rintro ⟨quotients, rests⟩
    rw [← Nat.div_add_mod (first / divisor) more, quotients, rests, Nat.div_add_mod]

/-- The first bits of a byte of a number. -/
theorem sharePrefix_byte_iff {first second shift bits : Nat} (few : bits ≤ 8) :
    SharePrefix bits (UInt8.ofNat (first / 2 ^ shift)).toBitVec
        (UInt8.ofNat (second / 2 ^ shift)).toBitVec ↔
      first / 2 ^ (shift + (8 - bits)) % 2 ^ bits =
        second / 2 ^ (shift + (8 - bits)) % 2 ^ bits := by
  have byte : ∀ value, (UInt8.ofNat (value / 2 ^ shift)).toBitVec.toNat / 2 ^ (8 - bits) =
      value / 2 ^ (shift + (8 - bits)) % 2 ^ bits := by
    intro value
    have split : 2 ^ 8 = 2 ^ (8 - bits) * 2 ^ bits := by rw [← Nat.pow_add, Nat.sub_add_cancel few]
    change (UInt8.ofNat (value / 2 ^ shift)).toNat / _ = _
    rw [UInt8.toNat_ofNat', split, Nat.mod_mul_right_div_self, Nat.div_div_eq_div_mul,
      ← Nat.pow_add]
  rw [sharePrefix_iff_div, byte, byte]

theorem sharePrefix_whole_iff {size count : Nat} (le : count ≤ size)
    {first second : BitVec (8 * size)} : SharePrefix (8 * count) first second ↔
      (ByteOrder.big.toBytes size first.toNat).take count =
        (ByteOrder.big.toBytes size second.toNat).take count := by
  have fits : ∀ bits : BitVec (8 * size), bits.toNat < 256 ^ size := by
    intro bits
    have bound := bits.isLt
    rwa [Nat.pow_mul] at bound
  have shift : 2 ^ (8 * size - 8 * count) = 256 ^ (size - count) := by
    rw [← Nat.mul_sub, Nat.pow_mul]
  rw [take_toBytes_big_eq_iff le (fits first) (fits second), sharePrefix_iff_div, shift]

/-- A prefix of whole bytes and the first bits of the next one. -/
theorem sharePrefix_bytes_iff {size count bits : Nat} (inside : count < size) (few : bits ≤ 8)
    {first second : BitVec (8 * size)} : SharePrefix (8 * count + bits) first second ↔
      (ByteOrder.big.toBytes size first.toNat).take count =
          (ByteOrder.big.toBytes size second.toNat).take count ∧
        SharePrefix bits (UInt8.ofNat (first.toNat / 256 ^ (size - 1 - count))).toBitVec
          (UInt8.ofNat (second.toNat / 256 ^ (size - 1 - count))).toBitVec := by
  have shift : 256 ^ (size - 1 - count) = 2 ^ (8 * (size - 1 - count)) := by rw [Nat.pow_mul]
  have low : 8 * size - (8 * count + bits) = 8 * (size - 1 - count) + (8 - bits) := by omega
  have high : 2 ^ (8 * (size - 1 - count) + (8 - bits)) * 2 ^ bits =
      2 ^ (8 * size - 8 * count) := by
    rw [← Nat.pow_add]
    congr 1
    omega
  rw [← sharePrefix_whole_iff inside.le, shift, sharePrefix_byte_iff few, sharePrefix_iff_div,
    sharePrefix_iff_div, low, div_eq_iff_of_mul _ _ _ (2 ^ bits), high]

end Foundation
