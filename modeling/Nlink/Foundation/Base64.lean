import Mathlib.Data.List.DropRight

namespace Foundation.Base64

/-!
# Base64

Three bytes are written as four characters, six bits each.  One or two bytes at
the end are filled up with zero bits, and their characters with padding.
-/

/-- The character for six bits. -/
def charOf (sextet : Nat) : Char :=
  if sextet < 26 then
    Char.ofNat ('A'.toNat + sextet)
  else if sextet < 52 then
    Char.ofNat ('a'.toNat + (sextet - 26))
  else if sextet < 62 then
    Char.ofNat ('0'.toNat + (sextet - 52))
  else if sextet = 62 then
    '+'
  else
    '/'

/-- The six bits of a character. -/
def valueOf (char : Char) : Option Nat :=
  if 'A' ≤ char ∧ char ≤ 'Z' then
    some (char.toNat - 'A'.toNat)
  else if 'a' ≤ char ∧ char ≤ 'z' then
    some (char.toNat - 'a'.toNat + 26)
  else if '0' ≤ char ∧ char ≤ '9' then
    some (char.toNat - '0'.toNat + 52)
  else if char = '+' then
    some 62
  else if char = '/' then
    some 63
  else
    none

/-- The characters of three bytes. -/
def quad (first second third : UInt8) : List Char :=
  [charOf (first.toNat / 4), charOf (first.toNat % 4 * 16 + second.toNat / 16),
    charOf (second.toNat % 16 * 4 + third.toNat / 64),
    charOf (third.toNat % 64)]

/-- The characters of two bytes at the end, without their padding. -/
def triple (first second : UInt8) : List Char :=
  (quad first second 0).take 3

def encode : List UInt8 → List Char
  | [] => []
  | [first] => (quad first 0 0).take 2 ++ ['=', '=']
  | [first, second] => triple first second ++ ['=']
  | first :: second :: third :: rest => quad first second third ++ encode rest

/-- The bytes of groups of four characters, whatever their unused bits are. -/
def decodeQuads : List Char → Option (List UInt8)
  | [] => some []
  | first :: second :: third :: fourth :: rest => do
      let first ← valueOf first
      let second ← valueOf second
      let bits := first * 64 + second
      if third = '=' then
        return [UInt8.ofNat (bits / 16)]
      else
        let third ← valueOf third
        let bits := bits * 64 + third
        if fourth = '=' then
          return [UInt8.ofNat (bits / 1024), UInt8.ofNat (bits / 4)]
        else
          let fourth ← valueOf fourth
          let bits := bits * 64 + fourth
          let rest ← decodeQuads rest
          return UInt8.ofNat (bits / 65536) :: UInt8.ofNat (bits / 256) :: UInt8.ofNat bits :: rest
  | _ => none

/-- A decoder that takes nothing but encodings. -/
def decode (text : List Char) : Except String (List UInt8) :=
  match decodeQuads text with
  | some bytes => if encode bytes = text then .ok bytes else .error "Invalid last symbol"
  | none => .error "Invalid input"

/-- Only encodings are decoded. -/
def Canonical (decode : List Char → Except String (List UInt8)) : Prop :=
  ∀ text bytes, decode text = .ok bytes → text = encode bytes

theorem canonical_decode : Canonical decode := by
  intro text bytes decoded
  rw [decode] at decoded
  split at decoded
  · split at decoded
    · rename_i same
      cases decoded
      exact same.symm
    · cases decoded
  · cases decoded

variable {sextet : Nat}

/-- The alphabet is read back. -/
theorem valueOf_charOf (small : sextet < 64) : valueOf (charOf sextet) = some sextet := by
  have all : ∀ sextet : Fin 64, valueOf (charOf sextet) = some sextet.val := by decide
  exact all ⟨sextet, small⟩

/-- Only the character of six bits has them as its value. -/
theorem charOf_of_valueOf {char : Char} (value : valueOf char = some sextet) :
    sextet < 64 ∧ charOf sextet = char := by
  have order : ∀ {first second : Char}, first ≤ second ↔ first.toNat ≤ second.toNat :=
    fun {_ _} => Iff.rfl
  rw [valueOf] at value
  simp only [order, show 'A'.toNat = 65 from rfl, show 'Z'.toNat = 90 from rfl,
    show 'a'.toNat = 97 from rfl, show 'z'.toNat = 122 from rfl, show '0'.toNat = 48 from rfl,
    show '9'.toNat = 57 from rfl] at value
  have back := char.ofNat_toNat
  rw [charOf]
  split at value
  · rename_i upper
    cases value
    refine ⟨by omega, ?_⟩
    rw [if_pos (by omega), show 'A'.toNat + (char.toNat - 65) = char.toNat by
      rw [show 'A'.toNat = 65 from rfl]; omega, back]
  · split at value
    · rename_i lower
      cases value
      refine ⟨by omega, ?_⟩
      rw [if_neg (by omega), if_pos (by omega),
        show 'a'.toNat + (char.toNat - 97 + 26 - 26) = char.toNat by
          rw [show 'a'.toNat = 97 from rfl]; omega, back]
    · split at value
      · rename_i digit
        cases value
        refine ⟨by omega, ?_⟩
        rw [if_neg (by omega), if_neg (by omega), if_pos (by omega),
          show '0'.toNat + (char.toNat - 48 + 52 - 52) = char.toNat by
            rw [show '0'.toNat = 48 from rfl]; omega, back]
      · split at value
        · rename_i isPlus
          cases value
          exact ⟨by decide, isPlus.symm⟩
        · split at value
          · rename_i isSlash
            cases value
            exact ⟨by decide, isSlash.symm⟩
          · cases value

theorem charOf_spec (small : sextet < 64) : (charOf sextet).utf8Size = 1 ∧ charOf sextet ≠ '=' := by
  have all : ∀ sextet : Fin 64, (charOf sextet).utf8Size = 1 ∧ charOf sextet ≠ '=' := by decide
  exact all ⟨sextet, small⟩

theorem quad_small (first second third : UInt8) :
    first.toNat / 4 < 64 ∧ first.toNat % 4 * 16 + second.toNat / 16 < 64 ∧
      second.toNat % 16 * 4 + third.toNat / 64 < 64 ∧
      third.toNat % 64 < 64 := by
  have firstBound := first.toNat_lt
  have secondBound := second.toNat_lt
  have thirdBound := third.toNat_lt
  omega

example : encode [0x66, 0x6f, 0x6f, 0x62] = "Zm9vYg==".toList := by decide +kernel

end Foundation.Base64
