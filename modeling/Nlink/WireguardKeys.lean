import Nlink.WireguardConf

namespace Nlink.Wireguard

open Foundation List Base64

/-!
# The texts of keys

A key is written as forty-three characters of six bits and a padding character.
The decoder drops all padding at the end and ignores the two bits of the last
character that belong to no byte, so a key has other texts than its own.
-/

section Encode

/-- The characters of `b64_encode_32`. -/
def ALPHA : List Char :=
  "ABCDEFGHIJKLMNOPQRSTUVWXYZabcdefghijklmnopqrstuvwxyz0123456789+/".toList

/-- The character for six bits of a number. -/
def alphaAt (n shift : Nat) : Char :=
  ALPHA.getD (n >>> shift &&& 0x3f) '='

/-- The loop of `b64_encode_32` over chunks of three bytes.  A chunk of one byte
cannot be reached. -/
def b64EncodeChunks : List UInt8 → List Char
  | first :: second :: third :: rest =>
      let n := first.toNat <<< 16 ||| second.toNat <<< 8 ||| third.toNat
      [alphaAt n 18, alphaAt n 12, alphaAt n 6, alphaAt n 0] ++ b64EncodeChunks rest
  | [first, second] =>
      let n := first.toNat <<< 16 ||| second.toNat <<< 8
      [alphaAt n 18, alphaAt n 12, alphaAt n 6, '=']
  | _ => []

/-- `b64_encode_32`. -/
def b64Encode32 (key : Key) : List Char :=
  b64EncodeChunks key.bytes

theorem alphaAt_eq (n shift : Nat) : alphaAt n shift = charOf (n / 2 ^ shift % 64) := by
  have all : ∀ sextet : Fin 64, ALPHA.getD sextet.val '=' = charOf sextet.val := by
    decide +kernel
  have low : n >>> shift &&& 0x3f = n / 2 ^ shift % 64 := by
    rw [Nat.shiftRight_eq_div_pow]
    exact Nat.and_two_pow_sub_one_eq_mod _ 6
  rw [alphaAt, low]
  exact all ⟨n / 2 ^ shift % 64, Nat.mod_lt _ (by decide)⟩

theorem joined_eq (first second third : UInt8) :
    first.toNat <<< 16 ||| second.toNat <<< 8 ||| third.toNat =
      first.toNat * 65536 + second.toNat * 256 + third.toNat := by
  have secondBound := second.toNat_lt
  have thirdBound := third.toNat_lt
  have isSecond : second.toNat <<< 8 < 2 ^ 16 := by
    rw [Nat.shiftLeft_eq]
    omega
  have upper : first.toNat <<< 16 ||| second.toNat <<< 8 =
      (first.toNat * 256 + second.toNat) <<< 8 := by
    rw [← Nat.shiftLeft_add_eq_or_of_lt isSecond, Nat.shiftLeft_eq, Nat.shiftLeft_eq,
      Nat.shiftLeft_eq]
    omega
  rw [upper, ← Nat.shiftLeft_add_eq_or_of_lt (show third.toNat < 2 ^ 8 from thirdBound),
    Nat.shiftLeft_eq]
  omega

theorem alphaAt_quad (first second third : UInt8) :
    [alphaAt (first.toNat <<< 16 ||| second.toNat <<< 8 ||| third.toNat) 18,
      alphaAt (first.toNat <<< 16 ||| second.toNat <<< 8 ||| third.toNat) 12,
      alphaAt (first.toNat <<< 16 ||| second.toNat <<< 8 ||| third.toNat) 6,
      alphaAt (first.toNat <<< 16 ||| second.toNat <<< 8 ||| third.toNat) 0] =
        quad first second third := by
  have firstBound := first.toNat_lt
  have secondBound := second.toNat_lt
  have thirdBound := third.toNat_lt
  simp only [alphaAt_eq, joined_eq, quad, List.cons.injEq, and_true]
  refine ⟨congrArg _ ?_, congrArg _ ?_, congrArg _ ?_, congrArg _ ?_⟩ <;> omega

theorem b64EncodeChunks_eq (bytes : List UInt8) (shape : bytes.length % 3 = 2) :
    b64EncodeChunks bytes = encode bytes := by
  induction bytes, shape using triples_induction with
  | two first second =>
      have quad := alphaAt_quad first second 0
      rw [UInt8.toNat_zero, Nat.or_zero] at quad
      rw [b64EncodeChunks, encode, triple, ← quad]
      rfl
  | three first second third rest shape ih =>
      rw [b64EncodeChunks, encode, ih, ← alphaAt_quad first second third]

theorem shape_of_key (key : Key) : key.bytes.length % 3 = 2 := by
  rw [key.length_eq]
  rfl

/-- A key's text: its characters and one padding character. -/
theorem b64Encode32_eq (key : Key) : b64Encode32 key = body key.bytes ++ ['='] := by
  rw [b64Encode32, b64EncodeChunks_eq _ (shape_of_key key), encode_eq_body _ (shape_of_key key)]

end Encode

section Decode

open Quick (b64Loop b64Decode32)

/-- All characters stand for six bits. -/
def InAlphabet (text : List Char) : Prop :=
  ∀ ch ∈ text, (valueOf ch).isSome

/-- The last character of a key without the bits that belong to no byte. -/
def lastChar (v : Nat) : Char :=
  charOf (v / 4 * 4)

variable {out : List UInt8}

theorem quad_of_values {one two three four : Char} {a b c d : Nat}
    (isOne : valueOf one = some a) (isTwo : valueOf two = some b)
    (isThree : valueOf three = some c) (isFour : valueOf four = some d) :
    ∃ first second third, quad first second third = [one, two, three, four] := by
  obtain ⟨aSmall, rfl⟩ := charOf_of_valueOf isOne
  obtain ⟨bSmall, rfl⟩ := charOf_of_valueOf isTwo
  obtain ⟨cSmall, rfl⟩ := charOf_of_valueOf isThree
  obtain ⟨dSmall, rfl⟩ := charOf_of_valueOf isFour
  have small : ∀ number : Nat, number < 256 → (UInt8.ofNat number).toNat = number :=
    fun number bound => UInt8.toNat_ofNat_of_lt' bound
  refine ⟨.ofNat (a * 4 + b / 16), .ofNat (b % 16 * 16 + c / 4), .ofNat (c % 4 * 64 + d), ?_⟩
  rw [quad, small _ (by omega), small _ (by omega), small _ (by omega)]
  simp only [List.cons.injEq, and_true]
  refine ⟨congrArg _ ?_, congrArg _ ?_, congrArg _ ?_, congrArg _ ?_⟩ <;> omega

theorem triple_of_values {one two : Char} {a b c : Nat}
    (isOne : valueOf one = some a) (isTwo : valueOf two = some b) (small : c < 64) :
    ∃ first second, triple first second = [one, two, lastChar c] := by
  have last : valueOf (lastChar c) = some (c / 4 * 4) := valueOf_charOf (by omega)
  obtain ⟨aSmall, rfl⟩ := charOf_of_valueOf isOne
  obtain ⟨bSmall, rfl⟩ := charOf_of_valueOf isTwo
  have bytes : ∀ number : Nat, number < 256 → (UInt8.ofNat number).toNat = number :=
    fun number bound => UInt8.toNat_ofNat_of_lt' bound
  refine ⟨.ofNat (a * 4 + b / 16), .ofNat (b % 16 * 16 + c / 4), ?_⟩
  rw [triple, quad, bytes _ (by omega), bytes _ (by omega), UInt8.toNat_zero]
  simp only [take_succ_cons, take_zero, List.cons.injEq, and_true, lastChar]
  refine ⟨congrArg _ ?_, congrArg _ ?_, congrArg _ ?_⟩ <;> omega

/-- The last character's unused bits do not matter. -/
theorem b64Loop_last {one two last : Char} {c : Nat} {first second : UInt8}
    (isTriple : triple first second = [one, two, lastChar c])
    (isLast : valueOf last = some c) (buf : Nat) (full : out.length + 2 = WG_KEY_LEN) :
    b64Loop [one, two, last] buf 0 out = some (out ++ [first, second]) := by
  obtain ⟨small, -⟩ := charOf_of_valueOf isLast
  obtain ⟨oneSmall, twoSmall, threeSmall, -⟩ := quad_small first second 0
  have firstBound := first.toNat_lt
  have secondBound := second.toNat_lt
  rw [triple, quad, take_succ_cons, take_succ_cons, take_succ_cons,
    take_zero, UInt8.toNat_zero] at isTriple
  obtain ⟨rfl, behind⟩ := List.cons.inj isTriple
  obtain ⟨rfl, ends⟩ := List.cons.inj behind
  obtain ⟨sameChar, -⟩ := List.cons.inj ends
  rw [UInt8.toNat_zero] at threeSmall
  have same : second.toNat % 16 * 4 + 0 / 64 = c / 4 * 4 := by
    have isValue : valueOf (lastChar c) = some (c / 4 * 4) :=
      valueOf_charOf (by omega)
    rw [← sameChar, valueOf_charOf threeSmall] at isValue
    exact Option.some.inj isValue
  rw [WG_KEY_LEN] at full
  rw [b64Loop_keep (valueOf_charOf oneSmall) oneSmall,
    b64Loop_emit (valueOf_charOf twoSmall) twoSmall (by decide) first (by omega),
    if_neg (by rw [WG_KEY_LEN]; omega),
    b64Loop_emit isLast small (by decide) second (by omega),
    if_pos (by rw [WG_KEY_LEN, length_append, length_singleton]; omega),
    List.append_assoc]
  rfl

@[elab_as_elim]
theorem quads_induction {motive : (text : List Char) → text.length % 4 = 2 → Prop}
    (two : ∀ one two, motive [one, two] rfl)
    (four : ∀ one two three four rest shape, motive rest shape →
      motive (one :: two :: three :: four :: rest) (by simp only [length_cons]; omega)) :
    ∀ text shape, motive text shape
  | [one, second], _ => two one second
  | one :: second :: three :: fourth :: rest, shape =>
      have restShape : rest.length % 4 = 2 := by
        simp only [length_cons] at shape
        omega
      four one second three fourth rest restShape (quads_induction two four rest restShape)

/-- What the loop reads of characters that all stand for six bits. -/
theorem b64Loop_front (front : List Char) (shape : front.length % 4 = 2)
    (valid : InAlphabet front) {last : Char} {v : Nat} (isLast : valueOf last = some v) :
    ∃ bytes : List UInt8, body bytes = front ++ [lastChar v] ∧
      3 * (front.length + 2) = 4 * (bytes.length + 1) ∧
      ∀ (out : List UInt8) (buf : Nat), out.length + bytes.length = WG_KEY_LEN →
        b64Loop (front ++ [last]) buf 0 out = some (out ++ bytes) := by
  obtain ⟨small, -⟩ := charOf_of_valueOf isLast
  have value : ∀ ch ∈ front, ∃ number, valueOf ch = some number := fun ch member =>
    Option.isSome_iff_exists.mp (valid ch member)
  clear valid
  induction front, shape using quads_induction with
  | two one two =>
      obtain ⟨⟨a, isOne⟩, b, isTwo⟩ : (∃ a, valueOf one = some a) ∧
          ∃ b, valueOf two = some b :=
        ⟨value one (by simp), value two (by simp)⟩
      obtain ⟨first, second, isTriple⟩ := triple_of_values isOne isTwo small
      refine ⟨[first, second], isTriple, rfl, fun out buf full => ?_⟩
      exact b64Loop_last isTriple isLast buf full
  | four one two three four rest shape ih =>
      simp only [forall_mem_cons] at value
      obtain ⟨⟨a, isOne⟩, ⟨b, isTwo⟩, ⟨c, isThree⟩, ⟨d, isFour⟩, restValue⟩ := value
      obtain ⟨first, second, third, isQuad⟩ := quad_of_values isOne isTwo isThree isFour
      obtain ⟨bytes, isBody, length, reads⟩ := ih restValue
      refine ⟨first :: second :: third :: bytes, ?_, ?_, fun out buf full => ?_⟩
      · rw [body, isQuad, isBody]
        rfl
      · simp only [length_cons]
        omega
      · simp only [length_cons] at full
        have nonempty : 0 < bytes.length := by omega
        obtain ⟨later, step⟩ := @b64Loop_quad (rest ++ [last]) out first second third buf (by omega)
        rw [isQuad] at step
        rw [show one :: two :: three :: four :: rest ++ [last] =
          [one, two, three, four] ++ (rest ++ [last]) from rfl, step, reads _ _ (by
            simp only [length_append, length_cons, length_nil]
            omega), List.append_assoc]
        rfl

/-- A result of the loop was read from enough characters in front of the rest. -/
theorem taken_of_b64Loop {text : List Char} {buf bits : Nat} {result : List UInt8}
    (read : b64Loop text buf bits out = some result) (few : out.length < WG_KEY_LEN)
    (pending : bits < 8) (full : result.length = WG_KEY_LEN) :
    ∃ taken rest, text = taken ++ rest ∧ InAlphabet taken ∧
      8 * WG_KEY_LEN ≤ 8 * out.length + bits + 6 * taken.length := by
  induction text generalizing buf bits out with
  | nil =>
      cases read
      omega
  | cons ch text ih =>
      rw [b64Loop] at read
      cases value : valueOf ch with
      | none =>
          rw [value] at read
          cases read
      | some v =>
          rw [value] at read
          simp only at read
          have valid : ∀ {taken : List Char}, InAlphabet taken → InAlphabet (ch :: taken) :=
            fun rest => forall_mem_cons.mpr ⟨by rw [value]; rfl, rest⟩
          split at read
          · rename_i emits
            split at read
            · rename_i isFull
              rw [length_append, length_singleton] at isFull
              refine ⟨[ch], text, rfl, valid (by simp [InAlphabet]), ?_⟩
              rw [length_singleton]
              omega
            · rename_i notFull
              rw [length_append, length_singleton] at notFull
              obtain ⟨taken, rest, rfl, restValid, enough⟩ := ih read
                (by rw [length_append, length_singleton]; omega) (by omega)
              rw [length_append, length_singleton] at enough
              refine ⟨ch :: taken, rest, rfl, valid restValid, ?_⟩
              rw [length_cons]
              omega
          · obtain ⟨taken, rest, rfl, restValid, enough⟩ := ih read few (by omega)
            refine ⟨ch :: taken, rest, rfl, valid restValid, ?_⟩
            rw [length_cons]
            omega

theorem utf8Size_of_inAlphabet {text : List Char} (valid : InAlphabet text) :
    (text.map Char.utf8Size).sum = text.length := by
  have ones : text.map Char.utf8Size = text.map fun _ => 1 := by
    refine map_congr_left fun ch member => ?_
    obtain ⟨v, value⟩ := Option.isSome_iff_exists.mp (valid ch member)
    obtain ⟨small, rfl⟩ := charOf_of_valueOf value
    exact (charOf_spec small).1
  rw [ones, map_const', sum_replicate_nat, Nat.mul_one]

/-- Forty-three characters that stand for six bits each, and some padding. -/
structure Spelling where
  front : List Char
  last : Char
  v : Nat
  pads : Nat
  length : front.length = 42
  valid : InAlphabet front
  isLast : valueOf last = some v

namespace Spelling

def text (spelling : Spelling) : List Char :=
  spelling.front ++ [spelling.last] ++ List.replicate spelling.pads '='

/-- One that is not the key's own: it has more padding than a key's text, or its
last character has bits that belong to no byte. -/
def Loose (spelling : Spelling) : Prop :=
  2 ≤ spelling.pads ∨ spelling.v % 4 ≠ 0

variable (spelling : Spelling)

theorem trimmed : spelling.text.rdropWhile (· = '=') = spelling.front ++ [spelling.last] := by
  obtain ⟨front, last, v, pads, length, valid, isLast⟩ := spelling
  obtain ⟨small, rfl⟩ := charOf_of_valueOf isLast
  simp only [text]
  induction pads with
  | zero =>
      rw [replicate_zero, List.append_nil, rdropWhile_concat_neg]
      simpa using (charOf_spec small).2
  | succ pads ih =>
      rw [replicate_succ', ← List.append_assoc, rdropWhile_concat_pos _ _ _ (by decide)]
      exact ih

theorem size : ((spelling.front ++ [spelling.last]).map Char.utf8Size).sum = 43 := by
  have valid : InAlphabet (spelling.front ++ [spelling.last]) := by
    refine forall_mem_append.mpr ⟨spelling.valid, ?_⟩
    rw [forall_mem_singleton, spelling.isLast]
    rfl
  rw [utf8Size_of_inAlphabet valid, length_append, spelling.length]
  rfl

/-- Other padding of the same characters. -/
def padded (count : Nat) : Spelling :=
  { spelling with pads := count }

/-- A spelling is read as the key whose characters it has, but for the unused
bits of the last one, whatever its padding is. -/
theorem decodes : ∃ key : Key, body key.bytes = spelling.front ++ [lastChar spelling.v] ∧
    ∀ count, b64Decode32 (spelling.padded count).text = some key := by
  have length := spelling.length
  obtain ⟨bytes, isBody, bytesLength, reads⟩ :=
    b64Loop_front spelling.front (by rw [length]) spelling.valid spelling.isLast
  have full : bytes.length = WG_KEY_LEN := by
    rw [WG_KEY_LEN]
    omega
  refine ⟨{ bytes := bytes, length_eq := full }, isBody, fun count => ?_⟩
  have read := reads [] 0 ((Nat.zero_add _).trans full)
  have trimmed : (spelling.padded count).text.rdropWhile (· = '=') =
      spelling.front ++ [spelling.last] :=
    (spelling.padded count).trimmed
  rw [b64Decode32]
  simp only [trimmed, spelling.size, read, List.nil_append, full, dif_pos]
  rfl

/-- A spelling is a key's characters with as much padding as it has, if the last
one has no other bits. -/
theorem text_eq_iff {key : Key} (isBody : body key.bytes = spelling.front ++ [lastChar spelling.v])
    (count : Nat) :
    spelling.text = body key.bytes ++ List.replicate count '=' ↔
      spelling.pads = count ∧ spelling.v % 4 = 0 := by
  obtain ⟨small, isChar⟩ := charOf_of_valueOf spelling.isLast
  have sameLast : spelling.last = lastChar spelling.v ↔ spelling.v % 4 = 0 := by
    constructor
    · intro same
      have values := congrArg valueOf same
      rw [spelling.isLast, lastChar, valueOf_charOf (by omega)] at values
      have := Option.some.inj values
      omega
    · intro noBits
      rw [lastChar, Nat.div_mul_cancel (Nat.dvd_of_mod_eq_zero noBits), isChar]
  rw [isBody, text, ← sameLast]
  constructor
  · intro same
    obtain ⟨chars, padding⟩ := append_inj same (by
      rw [length_append, length_append, length_singleton, length_singleton])
    have counts := congrArg List.length padding
    rw [length_replicate, length_replicate] at counts
    exact ⟨counts, (List.cons.inj (append_cancel_left chars)).1⟩
  · rintro ⟨rfl, same⟩
    rw [same]

end Spelling

/-- Every text that is read as a key is a spelling. -/
theorem exists_spelling {text : List Char} {key : Key} (read : b64Decode32 text = some key) :
    ∃ spelling : Spelling, spelling.text = text := by
  rw [b64Decode32] at read
  split at read
  · cases read
  · rename_i isSize
    have size := not_not.mp isSize
    cases looped : b64Loop (text.rdropWhile (· = '=')) 0 0 [] with
    | none =>
        rw [looped] at read
        cases read
    | some result =>
        rw [looped] at read
        simp only at read
        split at read
        · rename_i full
          obtain ⟨taken, rest, isTaken, valid, enough⟩ :=
            taken_of_b64Loop looped (by decide) (by decide) full
          rw [WG_KEY_LEN, length_nil] at enough
          rw [isTaken, map_append, List.sum_append, utf8Size_of_inAlphabet valid] at size
          have noRest : rest = [] := by
            cases rest with
            | nil => rfl
            | cons ch rest =>
                have positive := ch.utf8Size_pos
                rw [map_cons, sum_cons] at size
                omega
          rw [noRest, List.append_nil] at isTaken
          rw [noRest, map_nil, sum_nil, Nat.add_zero] at size
          obtain ⟨front, last, rfl⟩ : ∃ front last, taken = front ++ [last] :=
            ⟨_, _, (dropLast_append_getLast (ne_nil_of_length_pos (by omega))).symm⟩
          rw [length_append, length_singleton] at size
          obtain ⟨frontValid, lastValid⟩ := forall_mem_append.mp valid
          obtain ⟨v, isLast⟩ :=
            Option.isSome_iff_exists.mp (lastValid last (mem_singleton_self last))
          have padding : ∀ ch ∈ text.rtakeWhile (· = '='), ch = '=' := by
            intro ch member
            have isPad := mem_rtakeWhile_imp member
            exact of_decide_eq_true isPad
          refine ⟨⟨front, last, v, (text.rtakeWhile (· = '=')).length, by omega, frontValid, isLast⟩,
            ?_⟩
          rw [Spelling.text, ← isTaken, ← eq_replicate_of_mem padding, rdropWhile_append_rtakeWhile]
        · cases read

/-- A text that a key is written as, with its padding or without. -/
def Own (key : Key) (text : List Char) : Prop :=
  text = b64Encode32 key ∨ text = (b64Encode32 key).dropLast

theorem own_iff (key : Key) (text : List Char) : Own key text ↔
    ∃ count < 2, text = body key.bytes ++ List.replicate count '=' := by
  rw [Own, b64Encode32_eq, dropLast_concat]
  constructor
  · rintro (rfl | rfl)
    · exact ⟨1, by decide, rfl⟩
    · exact ⟨0, by decide, (List.append_nil _).symm⟩
  · rintro ⟨count, few, rfl⟩
    cases count with
    | zero => exact .inr (List.append_nil _)
    | succ count =>
        cases count with
        | zero => exact .inl rfl
        | succ count => omega

/-- A key is read from its own texts.  A text is read as a key that it is not a
text of exactly if it is a loose spelling: forty-three characters and padding, of
which there is too much, or with bits in the last character that are dropped. -/
theorem b64_own_iff (text : List Char) :
    (∀ key, Own key text → b64Decode32 text = some key) ∧
    ((∀ key, b64Decode32 text = some key → Own key text) ↔
      ¬ ∃ spelling : Spelling, spelling.text = text ∧ spelling.Loose) := by
  constructor
  · intro key own
    obtain ⟨count, -, rfl⟩ := (own_iff key text).mp own
    have encoded : b64Decode32 (b64Encode32 key) = some key := by
      rw [b64Encode32, b64EncodeChunks_eq _ (shape_of_key key), b64Decode32_encode]
    obtain ⟨spelling, isText⟩ := exists_spelling encoded
    obtain ⟨read, isBody, decodes⟩ := spelling.decodes
    have same : read = key := by
      have decoded := decodes spelling.pads
      rw [show (spelling.padded spelling.pads).text = b64Encode32 key from isText, encoded]
        at decoded
      exact (Option.some.inj decoded).symm
    subst same
    have noBits := ((spelling.text_eq_iff isBody 1).mp (isText.trans (b64Encode32_eq read))).2
    rw [← ((spelling.padded count).text_eq_iff isBody count).mpr ⟨rfl, noBits⟩]
    exact decodes count
  · constructor
    · rintro own ⟨spelling, rfl, loose⟩
      obtain ⟨key, isBody, decodes⟩ := spelling.decodes
      obtain ⟨count, few, isText⟩ := (own_iff key _).mp (own key (decodes spelling.pads))
      obtain ⟨rfl, noBits⟩ := (spelling.text_eq_iff isBody count).mp isText
      rcases loose with tooMany | bits
      · exact Nat.not_le_of_lt few tooMany
      · exact bits noBits
    · intro notLoose key read
      obtain ⟨spelling, rfl⟩ := exists_spelling read
      obtain ⟨other, isBody, decodes⟩ := spelling.decodes
      obtain rfl : other = key := Option.some.inj ((decodes spelling.pads).symm.trans read)
      have tight : ¬ spelling.Loose := fun loose => notLoose ⟨spelling, rfl, loose⟩
      obtain ⟨few, noBits⟩ := not_or.mp tight
      exact (own_iff other _).mpr ⟨spelling.pads, Nat.lt_of_not_le few,
        (spelling.text_eq_iff isBody spelling.pads).mpr ⟨rfl, not_not.mp noBits⟩⟩

/-- A key of zeros with two padding characters, and one whose last character is
another one. -/
theorem b64_not_own :
    (b64Decode32 (List.replicate 43 'A' ++ ['=', '=']) = some Key.zero ∧
        ¬ Own Key.zero (List.replicate 43 'A' ++ ['=', '='])) ∧
      b64Decode32 (List.replicate 42 'A' ++ ['B', '=']) = some Key.zero ∧
        ¬ Own Key.zero (List.replicate 42 'A' ++ ['B', '=']) := by
  refine ⟨⟨by decide +kernel, ?_⟩, by decide +kernel, ?_⟩
  · rintro (same | same)
    · revert same
      decide +kernel
    · revert same
      decide +kernel
  · rintro (same | same)
    · revert same
      decide +kernel
    · revert same
      decide +kernel

end Decode

end Nlink.Wireguard
