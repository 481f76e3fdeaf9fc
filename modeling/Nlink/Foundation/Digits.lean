import Nlink.Foundation.TextPieces

namespace Foundation

/-!
# Addresses in texts

A reader takes an address from the start of a text and leaves what follows it.
IPv4 addresses are four decimal numbers without leading zeros; IPv6 addresses
are groups of hexadecimal digits, of which one run of zeros may be left out and
the last two may be written as an IPv4 address.
-/

namespace AddressText

open Text

section Readers

variable {α : Type}

def readGivenChar (target : Char) : List Char → Option (Unit × List Char)
  | [] => none
  | char :: rest => if char = target then some ((), rest) else none

/-- Read what follows a separator; nothing stands before the first item. -/
def readSeparator (separator : Char) (index : Nat)
    (inner : List Char → Option (α × List Char)) (text : List Char) :
    Option (α × List Char) :=
  if index > 0 then do
    let (_, text) ← readGivenChar separator text
    inner text
  else
    inner text

def numberOf (radix : Nat) (digits : List Char) : Nat :=
  digits.foldl (fun number digit => number * radix + (toDigit radix digit).getD 0) 0

/-- Read all the digits that there are, as a number of a width. -/
def readNumber (width radix : Nat) (maxDigits : Option Nat) (allowZeroPrefix : Bool)
    (text : List Char) : Option (Nat × List Char) :=
  let isDigit : Char → Bool := fun char => (toDigit radix char).isSome
  let digits := text.takeWhile isDigit
  if (∃ most ∈ maxDigits, most < digits.length) ∨ digits = [] ∨
      (allowZeroPrefix = false ∧ digits.head? = some '0' ∧ 1 < digits.length) ∨
      2 ^ width ≤ numberOf radix digits then
    none
  else
    some (numberOf radix digits, text.dropWhile isDigit)

/-- Read four numbers with dots between them. -/
def readIpv4Addr (text : List Char) : Option (BitVec 32 × List Char) := do
  let group := readNumber 8 10 (some 3) false
  let (first, text) ← readSeparator '.' 0 group text
  let (second, text) ← readSeparator '.' 1 group text
  let (third, text) ← readSeparator '.' 2 group text
  let (fourth, text) ← readSeparator '.' 3 group text
  return (BitVec.ofNat 32 (((first * 256 + second) * 256 + third) * 256 + fourth), text)

/-- Read groups of an IPv6 address, as many as there are and no more than are
left.  With them it is said whether the last two were written as an IPv4
address. -/
def readGroups : Nat → Nat → List Char → (List Nat × Bool) × List Char
  | 0, _, text => (([], false), text)
  | left + 1, index, text =>
      let ipv4 := if 0 < left then readSeparator ':' index readIpv4Addr text else none
      match ipv4 with
      | some (bits, text) => (([bits.toNat / 65536, bits.toNat % 65536], true), text)
      | none =>
          match readSeparator ':' index (readNumber 16 16 (some 4) true)
            text with
          | some (group, text) =>
              let ((groups, ipv4), text) := readGroups left (index + 1) text
              ((group :: groups, ipv4), text)
          | none => (([], false), text)

def ofGroups (groups : List Nat) : BitVec 128 :=
  BitVec.ofNat 128 (groups.foldl (fun bits group => bits * 65536 + group) 0)

/-- Read the groups after two colons, behind those that stand before. -/
def readIpv6Tail (head : List Nat) (text : List Char) : Option (BitVec 128 × List Char) := do
  let (_, text) ← readGivenChar ':' text
  let (_, text) ← readGivenChar ':' text
  let ((tail, _), text) := readGroups (8 - (head.length + 1)) 0 text
  let zeros := List.replicate (8 - head.length - tail.length) 0
  return (ofGroups (head ++ zeros ++ tail), text)

/-- Read an IPv6 address: eight groups, or fewer with two colons between
them. -/
def readIpv6Addr (text : List Char) : Option (BitVec 128 × List Char) :=
  let ((head, ipv4), text) := readGroups 8 0 text
  if head.length = 8 then
    some (ofGroups head, text)
  else if ipv4 then
    none
  else
    readIpv6Tail head text

def readPort (text : List Char) : Option (BitVec 16 × List Char) := do
  let (_, text) ← readGivenChar ':' text
  let (port, text) ← readNumber 16 10 none true text
  return (BitVec.ofNat 16 port, text)

/-- Read the zone of an IPv6 address. -/
def readScopeId (text : List Char) : Option (BitVec 32 × List Char) := do
  let (_, text) ← readGivenChar '%' text
  let (scopeId, text) ← readNumber 32 10 none true text
  return (BitVec.ofNat 32 scopeId, text)

/-- Nothing may follow what is read. -/
def parseWith (inner : List Char → Option (α × List Char)) (text : List Char) : Option α :=
  match inner text with
  | some (value, []) => some value
  | _ => none

end Readers

section Writers

/-- An IPv4 address as text. -/
def showIpv4 (bits : BitVec 32) : List Char :=
  List.intercalate ['.']
    ([24, 16, 8, 0].map fun shift => Nat.toDigits 10 (bits.toNat / 2 ^ shift % 256))

/-- A run of zero groups. -/
structure Span where
  start : Nat
  len : Nat

/-- The first of the longest runs of zeros in a list, beside the run that the
list ends with. -/
def zeroSpans (groups : List Nat) : Span × Span :=
  groups.zipIdx.foldl
    (fun spans group =>
      if group.1 = 0 then
        let current : Span :=
          if spans.2.len = 0 then
            { start := group.2, len := 1 }
          else
            { spans.2 with len := spans.2.len + 1 }
        (if spans.1.len < current.len then current else spans.1, current)
      else
        (spans.1, { start := 0, len := 0 }))
    ({ start := 0, len := 0 }, { start := 0, len := 0 })

/-- An IPv6 address as text. -/
def showIpv6 (bits : BitVec 128) : List Char :=
  let groups := (List.range 8).map fun index => bits.toNat / 65536 ^ (7 - index) % 65536
  let written (groups : List Nat) : List Char :=
    List.intercalate [':'] (groups.map (Nat.toDigits 16))
  if groups.take 6 = [0, 0, 0, 0, 0, 0xffff] then
    "::ffff:".toList ++ showIpv4 (BitVec.ofNat 32 bits.toNat)
  else
    let zeros := (zeroSpans groups).1
    if 1 < zeros.len then
      written (groups.take zeros.start) ++ [':', ':'] ++
        written (groups.drop (zeros.start + zeros.len))
    else
      written groups

end Writers

section Unspaced

variable {α β : Type}

/-- What a reader takes from a text has no white space. -/
def TakesUnspaced (reader : List Char → Option (α × List Char)) : Prop :=
  ∀ text value rest, reader text = some (value, rest) →
    ∃ taken, text = taken ++ rest ∧ Unspaced taken

theorem TakesUnspaced.trans {reader : List Char → Option (α × List Char)}
    {following : List Char → Option (β × List Char)} (first : TakesUnspaced reader)
    (second : TakesUnspaced following) {text middle rest : List Char} {value : α} {other : β}
    (read : reader text = some (value, middle)) (readNext : following middle = some (other, rest)) :
    ∃ taken, text = taken ++ rest ∧ Unspaced taken := by
  obtain ⟨taken, rfl, takenUnspaced⟩ := first _ _ _ read
  obtain ⟨more, rfl, moreUnspaced⟩ := second _ _ _ readNext
  exact ⟨taken ++ more, (List.append_assoc _ _ _).symm, takenUnspaced.append moreUnspaced⟩

theorem takesUnspaced_readGivenChar {target : Char} (visible : isWhitespace target = false) :
    TakesUnspaced (readGivenChar target) := by
  intro text value rest read
  cases text with
  | nil => cases read
  | cons char remaining =>
      rw [readGivenChar] at read
      split at read
      · rename_i same
        cases read
        refine ⟨[char], rfl, fun other member => ?_⟩
        rw [List.mem_singleton.mp member, same]
        exact visible
      · cases read

theorem takesUnspaced_readSeparator {separator : Char} (visible : isWhitespace separator = false)
    (index : Nat) {inner : List Char → Option (α × List Char)} (takes : TakesUnspaced inner) :
    TakesUnspaced (readSeparator separator index inner) := by
  intro text value rest read
  rw [readSeparator] at read
  split at read
  · simp only [Option.bind_eq_bind, Option.bind_eq_some_iff] at read
    obtain ⟨⟨_, middle⟩, char, item⟩ := read
    exact (takesUnspaced_readGivenChar visible).trans takes char item
  · exact takes text value rest read

theorem takesUnspaced_readNumber (width radix : Nat) (maxDigits : Option Nat)
    (allowZeroPrefix : Bool) :
    TakesUnspaced (readNumber width radix maxDigits allowZeroPrefix) := by
  intro text value rest read
  simp only [readNumber] at read
  split at read
  · cases read
  · cases read
    refine ⟨_, List.takeWhile_append_dropWhile.symm, fun char member => ?_⟩
    have read := List.mem_takeWhile_imp member
    obtain ⟨digit, isDigit⟩ := Option.isSome_iff_exists.mp read
    exact isWhitespace_of_toDigit isDigit

theorem takesUnspaced_readIpv4Addr : TakesUnspaced readIpv4Addr := by
  have group : ∀ index, TakesUnspaced (readSeparator '.' index (readNumber 8 10 (some 3) false)) :=
    fun index => takesUnspaced_readSeparator (by decide) index
      (takesUnspaced_readNumber _ _ _ _)
  intro text value rest read
  simp only [readIpv4Addr, Option.bind_eq_bind, Option.bind_eq_some_iff] at read
  obtain ⟨⟨first, _⟩, firstRead, ⟨second, _⟩, secondRead, ⟨third, _⟩,
    thirdRead, ⟨fourth, _⟩, fourthRead, same⟩ := read
  cases same
  obtain ⟨front, rfl, frontUnspaced⟩ := (group 0).trans (group 1) firstRead secondRead
  obtain ⟨back, rfl, backUnspaced⟩ := (group 2).trans (group 3) thirdRead fourthRead
  exact ⟨front ++ back, (List.append_assoc _ _ _).symm, frontUnspaced.append backUnspaced⟩

theorem unspaced_readGroups (left index : Nat) (text : List Char) :
    ∃ taken, text = taken ++ (readGroups left index text).2 ∧ Unspaced taken := by
  induction left generalizing index text with
  | zero => exact ⟨[], rfl, unspaced_nil⟩
  | succ left ih =>
      rw [readGroups]
      split
      · rename_i bits rest ipv4
        split at ipv4
        · exact takesUnspaced_readSeparator (by decide) index takesUnspaced_readIpv4Addr _ _ _ ipv4
        · cases ipv4
      · split
        · rename_i group rest read
          obtain ⟨taken, rfl, takenUnspaced⟩ :=
            takesUnspaced_readSeparator (by decide) index
              (takesUnspaced_readNumber 16 16 (some 4) true) _ _ _ read
          obtain ⟨more, moreSame, moreUnspaced⟩ := ih (index + 1) rest
          refine ⟨taken ++ more, ?_, takenUnspaced.append moreUnspaced⟩
          rw [List.append_assoc, ← moreSame]
        · exact ⟨[], rfl, unspaced_nil⟩

theorem takesUnspaced_readIpv6Tail (head : List Nat) : TakesUnspaced (readIpv6Tail head) := by
  have colon : TakesUnspaced (readGivenChar ':') := takesUnspaced_readGivenChar (by decide)
  intro text value rest read
  simp only [readIpv6Tail, Option.bind_eq_bind, Option.bind_eq_some_iff] at read
  obtain ⟨⟨_, afterOne⟩, one, ⟨_, afterTwo⟩, two, same⟩ := read
  obtain ⟨colons, rfl, colonsUnspaced⟩ := colon.trans colon one two
  obtain ⟨groups, groupsSame, groupsUnspaced⟩ :=
    unspaced_readGroups (8 - (head.length + 1)) 0 afterTwo
  cases same
  refine ⟨colons ++ groups, ?_, colonsUnspaced.append groupsUnspaced⟩
  rw [List.append_assoc, ← groupsSame]

theorem takesUnspaced_readIpv6Addr : TakesUnspaced readIpv6Addr := by
  intro text value rest read
  obtain ⟨taken, same, takenUnspaced⟩ := unspaced_readGroups 8 0 text
  simp only [readIpv6Addr] at read
  split at read
  · cases read
    exact ⟨taken, same, takenUnspaced⟩
  · split at read
    · cases read
    · obtain ⟨more, moreSame, moreUnspaced⟩ := takesUnspaced_readIpv6Tail _ _ _ _ read
      refine ⟨taken ++ more, ?_, takenUnspaced.append moreUnspaced⟩
      rw [List.append_assoc, ← moreSame]
      exact same

theorem unspaced_of_parseWith {inner : List Char → Option (α × List Char)}
    (takes : TakesUnspaced inner) {text : List Char} {value : α}
    (read : parseWith inner text = some value) : Unspaced text := by
  rw [parseWith] at read
  split at read
  · rename_i found run
    obtain ⟨taken, rfl, unspaced⟩ := takes _ _ _ run
    rw [List.append_nil]
    exact unspaced
  · cases read

end Unspaced

end AddressText

end Foundation
