import Mathlib.Data.List.Basic
import Mathlib.Tactic.Ring

namespace Foundation

/-!
# Byte orders and fixed-width numbers

A number is stored in a fixed count of bytes, either least significant byte
first or most significant byte first.  Code that writes numbers in the host's
order is modelled with the order as a parameter, so its results hold on both
kinds of machine.
-/

/-- The two byte orders of a fixed-width number. -/
inductive ByteOrder where
  | little
  | big
  deriving DecidableEq

/-- The low `width` bytes of a number, least significant byte first. -/
def littleEndian : Nat → Nat → List UInt8
  | 0, _ => []
  | width + 1, value => UInt8.ofNat value :: littleEndian width (value / 256)

/-- The number that a list of bytes spells, least significant byte first. -/
def fromLittleEndian : List UInt8 → Nat
  | [] => 0
  | byte :: rest => byte.toNat + 256 * fromLittleEndian rest

@[simp]
theorem littleEndian_length (width value : Nat) : (littleEndian width value).length = width := by
  induction width generalizing value with
  | zero => rfl
  | succ width ih => simp [littleEndian, ih]

theorem fromLittleEndian_lt (bytes : List UInt8) : fromLittleEndian bytes < 256 ^ bytes.length := by
  induction bytes with
  | nil => simp [fromLittleEndian]
  | cons byte rest ih =>
      have byteBound : byte.toNat < 256 := byte.toNat_lt
      rw [fromLittleEndian, List.length_cons, Nat.pow_succ]
      omega

theorem fromLittleEndian_littleEndian (width value : Nat) (fits : value < 256 ^ width) :
    fromLittleEndian (littleEndian width value) = value := by
  induction width generalizing value with
  | zero =>
      have valueZero : value = 0 := by simpa using fits
      simp [littleEndian, fromLittleEndian, valueZero]
  | succ width ih =>
      have quotientFits : value / 256 < 256 ^ width := by
        rw [Nat.pow_succ] at fits
        omega
      rw [littleEndian, fromLittleEndian, ih (value / 256) quotientFits]
      have byteValue : (UInt8.ofNat value).toNat = value % 256 := UInt8.toNat_ofNat'
      omega

theorem littleEndian_fromLittleEndian (bytes : List UInt8) :
    littleEndian bytes.length (fromLittleEndian bytes) = bytes := by
  induction bytes with
  | nil => rfl
  | cons byte rest ih =>
      have byteBound : byte.toNat < 256 := byte.toNat_lt
      have headByte : UInt8.ofNat (byte.toNat + 256 * fromLittleEndian rest) = byte := by
        apply UInt8.toNat_inj.mp
        rw [UInt8.toNat_ofNat']
        omega
      have tailValue : (byte.toNat + 256 * fromLittleEndian rest) / 256 =
            fromLittleEndian rest := by
        omega
      rw [fromLittleEndian, List.length_cons, littleEndian, headByte, tailValue, ih]

namespace ByteOrder

/-- The `width` bytes of a number in the given order. -/
def toBytes (order : ByteOrder) (width value : Nat) : List UInt8 :=
  match order with
  | .little => littleEndian width value
  | .big => (littleEndian width value).reverse

/-- The number that a list of bytes spells in the given order. -/
def ofBytes (order : ByteOrder) (bytes : List UInt8) : Nat :=
  match order with
  | .little => fromLittleEndian bytes
  | .big => fromLittleEndian bytes.reverse

variable (order : ByteOrder)

@[simp]
theorem toBytes_length (width value : Nat) : (order.toBytes width value).length = width := by
  cases order <;> simp [toBytes]

/-- A number that fits is read back from its bytes. -/
theorem ofBytes_toBytes {width value : Nat} (fits : value < 256 ^ width) :
    order.ofBytes (order.toBytes width value) = value := by
  cases order with
  | little => exact fromLittleEndian_littleEndian width value fits
  | big => simpa [toBytes, ofBytes] using fromLittleEndian_littleEndian width value fits

/-- Bytes are read back from the number they stand for. -/
theorem toBytes_ofBytes (bytes : List UInt8) :
    order.toBytes bytes.length (order.ofBytes bytes) = bytes := by
  cases order with
  | little => exact littleEndian_fromLittleEndian bytes
  | big =>
      have readBack := littleEndian_fromLittleEndian bytes.reverse
      rw [List.length_reverse] at readBack
      simp [toBytes, ofBytes, readBack]

theorem ofBytes_lt (bytes : List UInt8) : order.ofBytes bytes < 256 ^ bytes.length := by
  cases order with
  | little => exact fromLittleEndian_lt bytes
  | big => simpa [ofBytes] using fromLittleEndian_lt bytes.reverse

end ByteOrder

/-!
## Numbers in the other byte order

A number that is written in one byte order and read in the other has its bytes
reversed.  It is read unchanged only if its bytes read the same backwards.
-/

/-- The number with its bytes in the other order. -/
def reverseBytes (width value : Nat) : Nat :=
  ByteOrder.big.ofBytes (ByteOrder.little.toBytes width value)

/-- The bytes of a number read the same backwards. -/
def ReadsBackwards (width value : Nat) : Prop :=
  ByteOrder.big.toBytes width value = ByteOrder.little.toBytes width value

instance (width value : Nat) : Decidable (ReadsBackwards width value) :=
  inferInstanceAs (Decidable (_ = _))

theorem ofBytes_little_toBytes_big (width value : Nat) :
    ByteOrder.little.ofBytes (ByteOrder.big.toBytes width value) = reverseBytes width value :=
  rfl

variable {width value : Nat}

theorem reverseBytes_eq_iff (fits : value < 256 ^ width) :
    reverseBytes width value = value ↔ ReadsBackwards width value := by
  constructor
  · intro same
    have back := ByteOrder.toBytes_ofBytes .big (ByteOrder.little.toBytes width value)
    rw [ByteOrder.toBytes_length] at back
    change ByteOrder.big.toBytes width (reverseBytes width value) = _ at back
    rwa [same] at back
  · intro same
    rw [reverseBytes, ← same]
    exact ByteOrder.ofBytes_toBytes .big fits

variable (order : ByteOrder)

theorem ofBytes_toBytes_big_eq_iff (fits : value < 256 ^ width) :
    order.ofBytes (ByteOrder.big.toBytes width value) = value ↔
      order = .big ∨ ReadsBackwards width value := by
  cases order with
  | little =>
      rw [ofBytes_little_toBytes_big, reverseBytes_eq_iff fits]
      simp
  | big => simp [ByteOrder.ofBytes_toBytes .big fits]

/-- Little-endian bytes are misread on a big-endian host unless they are a palindrome. -/
theorem ofBytes_toBytes_little_eq_iff (fits : value < 256 ^ width) :
    order.ofBytes (ByteOrder.little.toBytes width value) = value ↔
      order = .little ∨ ReadsBackwards width value := by
  cases order with
  | little => simp [ByteOrder.ofBytes_toBytes .little fits]
  | big =>
      change reverseBytes width value = value ↔ _
      rw [reverseBytes_eq_iff fits]
      simp

theorem ofBytes_big_toBytes_eq_iff (fits : value < 256 ^ width) :
    ByteOrder.big.ofBytes (order.toBytes width value) = value ↔
      order = .big ∨ ReadsBackwards width value := by
  cases order with
  | little =>
      rw [← reverseBytes, reverseBytes_eq_iff fits]
      simp
  | big => simp [ByteOrder.ofBytes_toBytes .big fits]

/-!
## Layouts of a fixed size

A layout writes a value as so many bytes and reads it off the front of bytes
that may go on.  Layouts are put together field by field.
-/

/-- How values are laid out in memory. -/
structure FixedLayout (α : Type) where
  size : Nat
  write : α → List UInt8
  read : List UInt8 → α
  length_write : ∀ value, (write value).length = size
  read_write : ∀ value rest, read (write value ++ rest) = value

namespace FixedLayout

def block (size : Nat) : FixedLayout (Vector UInt8 size) where
  size := size
  write := Vector.toList
  read := fun bytes => Vector.ofFn fun index => bytes.getD index 0
  length_write := fun value => value.length_toList
  read_write := by
    intro value rest
    apply Vector.ext
    intro index bound
    have inside : index < value.toList.length := by
      rw [value.length_toList]
      exact bound
    rw [Vector.getElem_ofFn, List.getD_eq_getElem?_getD, List.getElem?_append_left inside,
      List.getElem?_eq_getElem inside, Option.getD_some, Vector.getElem_toList]

def number (order : ByteOrder) (size : Nat) : FixedLayout (BitVec (8 * size)) where
  size := size
  write := fun value => order.toBytes size value.toNat
  read := fun bytes => BitVec.ofNat (8 * size) (order.ofBytes (bytes.take size))
  length_write := fun value => order.toBytes_length size value.toNat
  read_write := by
    intro value rest
    have fits : value.toNat < 256 ^ size := by
      have bound := value.isLt
      rw [Nat.pow_mul] at bound
      exact bound
    rw [List.take_left' (order.toBytes_length size value.toNat), order.ofBytes_toBytes fits]
    exact BitVec.ofNat_toNat _ _ |>.trans (BitVec.setWidth_eq value)

/-- One field behind another. -/
def pair (first : FixedLayout α) (second : FixedLayout β) : FixedLayout (α × β) where
  size := first.size + second.size
  write := fun value => first.write value.1 ++ second.write value.2
  read := fun bytes => (first.read bytes, second.read (bytes.drop first.size))
  length_write := by
    intro value
    rw [List.length_append, first.length_write, second.length_write]
  read_write := by
    intro value rest
    rw [List.append_assoc, first.read_write, List.drop_left' (first.length_write value.1),
      second.read_write]

/-- A structure that is built from its fields. -/
def via (layout : FixedLayout α) (build : α → β) (fields : β → α)
    (same : ∀ value, build (fields value) = value) : FixedLayout β where
  size := layout.size
  write := fun value => layout.write (fields value)
  read := fun bytes => build (layout.read bytes)
  length_write := fun value => layout.length_write (fields value)
  read_write := by
    intro value rest
    rw [layout.read_write, same]

@[simp]
theorem size_block (size : Nat) : (block size).size = size :=
  rfl

@[simp]
theorem size_number (order : ByteOrder) (size : Nat) : (number order size).size = size :=
  rfl

@[simp]
theorem size_pair (first : FixedLayout α) (second : FixedLayout β) :
    (first.pair second).size = first.size + second.size :=
  rfl

@[simp]
theorem size_via (layout : FixedLayout α) (build : α → β) (fields : β → α)
    (same : ∀ value, build (fields value) = value) :
    (layout.via build fields same).size = layout.size :=
  rfl

variable (layout : FixedLayout α)

/-- `ref_from_prefix`: a value, if there are enough bytes. -/
def fromPrefix? (bytes : List UInt8) : Option α :=
  if bytes.length < layout.size then none else some (layout.read bytes)

/-- A value is read back from the front of what is written. -/
theorem fromPrefix?_write (value : α) (rest : List UInt8) :
    layout.fromPrefix? (layout.write value ++ rest) = some value := by
  have long : ¬ (layout.write value ++ rest).length < layout.size := by
    rw [List.length_append, layout.length_write]
    omega
  rw [fromPrefix?, if_neg long, layout.read_write]

end FixedLayout

end Foundation

namespace Foundation.FixedLayout

/-!
## Arrays of a layout

Values of one layout, one behind another.  What is left at the end and is too
short for a value is not read.
-/

variable {α : Type} (layout : FixedLayout α)

def readAll (bytes : List UInt8) : List α :=
  (List.range (bytes.length / layout.size)).map fun index =>
    layout.read (bytes.drop (index * layout.size))

theorem length_readAll (bytes : List UInt8) :
    (layout.readAll bytes).length = bytes.length / layout.size := by
  rw [readAll, List.length_map, List.length_range]

theorem length_flatMap_write (values : List α) :
    (values.flatMap layout.write).length = values.length * layout.size := by
  induction values with
  | nil => rw [List.flatMap_nil, List.length_nil, List.length_nil, Nat.zero_mul]
  | cons value rest ih =>
      rw [List.flatMap_cons, List.length_append, layout.length_write, ih, List.length_cons,
        Nat.succ_mul, Nat.add_comm]

theorem readAll_flatMap (sized : 0 < layout.size) (values : List α) :
    layout.readAll (values.flatMap layout.write) = values := by
  rw [readAll, length_flatMap_write, Nat.mul_div_cancel _ sized]
  induction values with
  | nil => rfl
  | cons value rest ih =>
      rw [List.length_cons, List.range_succ_eq_map, List.map_cons, List.map_map, List.flatMap_cons,
        Nat.zero_mul, List.drop_zero, layout.read_write]
      refine congrArg (List.cons value) (Eq.trans (List.map_congr_left fun index _ => ?_) ih)
      have behind : (layout.write value ++ rest.flatMap layout.write).drop
          ((index + 1) * layout.size) =
            (rest.flatMap layout.write).drop (index * layout.size) := by
        rw [Nat.succ_mul, Nat.add_comm, ← List.drop_drop,
          List.drop_left' (layout.length_write value)]
      exact congrArg layout.read behind

end Foundation.FixedLayout
