import Nlink.Neighbor
import Nlink.XfrmAgreement

namespace Nlink.Xfrm

open Foundation Netlink Nftables.Attrs
open List hiding Vector
open Genl (NoNul fromUtf8Lossy)
open Neighbor (foldl_then foldl_field)

/-!
# Security associations, written and read

The request that adds an SA is the fixed structure with attributes behind it.
An algorithm is a name of 64 bytes, the length of its key in bits and the key;
the writer puts the lengths in little-endian order, and the reader takes them in
the host's.
-/

/-!
## Writing
-/

/-- `XfrmAlgoAuth` and `XfrmAlgoEncr`. -/
structure XfrmAlgo where
  name : String
  key : List UInt8

structure XfrmAlgoAead where
  name : String
  key : List UInt8
  icvTruncbits : BitVec 32

structure XfrmUserOffload where
  ifindex : BitVec 32
  flags : BitVec 8
  pad : Vector UInt8 3

structure XfrmSaBuilder where
  src : IpAddr
  dst : IpAddr
  spi : BitVec 32
  proto : IpsecProtocol
  mode : XfrmMode
  reqid : BitVec 32
  flags : BitVec 8
  replayWindow : BitVec 8
  auth : Option XfrmAlgo
  encr : Option XfrmAlgo
  aead : Option XfrmAlgoAead
  encap : Option XfrmEncapTmpl
  mark : Option (BitVec 32 × BitVec 32)
  ifId : Option (BitVec 32)
  offload : Option XfrmUserOffload

/-- `ip_to_xfrm_addr`. -/
def ipToXfrmAddr : IpAddr → XfrmAddress
  | .v4 octets => padded octets
  | .v6 octets => octets

/-- `family_for_pair`: zero for addresses of two families. -/
def familyForPair : IpAddr → IpAddr → BitVec 16
  | .v4 _, .v4 _ => AF_INET
  | .v6 _, .v6 _ => AF_INET6
  | _, _ => 0

def XfrmMode.number : XfrmMode → BitVec 8
  | .transport => 0
  | .tunnel => 1
  | .beet => 4
  | .other number => number

/-- At most 63 bytes of a name, and zeros up to 64. -/
def nameField (name : String) : List UInt8 :=
  let bytes := (asBytes name).take 63
  bytes ++ List.replicate (64 - bytes.length) 0

/-- `encode_xfrm_algo`. -/
def encodeXfrmAlgo (alg : XfrmAlgo) : List UInt8 :=
  nameField alg.name ++ ByteOrder.little.toBytes 4 (alg.key.length * 8) ++ alg.key

/-- `encode_xfrm_algo_aead`. -/
def encodeXfrmAlgoAead (alg : XfrmAlgoAead) : List UInt8 :=
  nameField alg.name ++ ByteOrder.little.toBytes 4 (alg.key.length * 8) ++
    ByteOrder.little.toBytes 4 alg.icvTruncbits.toNat ++ alg.key

section Writing

variable (order : ByteOrder)

def XfrmUserOffload.layout : FixedLayout XfrmUserOffload :=
  ((FixedLayout.number order 4).pair <| (FixedLayout.number order 1).pair <|
    FixedLayout.block 3).via
    (fun (ifindex, flags, pad) => { ifindex, flags, pad })
    (fun offload => (offload.ifindex, offload.flags, offload.pad)) (fun _ => rfl)

namespace XfrmSaBuilder

variable (sa : XfrmSaBuilder)

/-- `build_usersa_info`: without limits of bytes or packets. -/
def buildUsersaInfo : XfrmUsersaInfo where
  sel := { zeroSelector with family := familyForPair sa.src sa.dst }
  id :=
    { daddr := ipToXfrmAddr sa.dst
      spi := sa.spi
      proto := sa.proto.number
      pad := Vector.replicate 3 0 }
  saddr := ipToXfrmAddr sa.src
  lft := (Vector.replicate 32 (255 : UInt8) ++ Vector.replicate 32 (0 : UInt8))
  curlft := { bytes := 0, packets := 0, times := Vector.replicate 16 0 }
  stats := Vector.replicate 12 0
  seq := 0
  reqid := sa.reqid
  family := familyForPair sa.src sa.dst
  mode := sa.mode.number
  replayWindow := sa.replayWindow
  flags := sa.flags
  pad := Vector.replicate 7 0

/-- The attributes, in the order in which they are appended. -/
def attrs : List Attribute :=
  (sa.auth.toList.map fun auth => (1, encodeXfrmAlgo auth)) ++
  (sa.encr.toList.map fun encr => (2, encodeXfrmAlgo encr)) ++
  (sa.aead.toList.map fun aead => (18, encodeXfrmAlgoAead aead)) ++
  (sa.encap.toList.map fun encap => (4, (XfrmEncapTmpl.layout order).write encap)) ++
  (sa.mark.toList.map fun mark => (21, (XfrmMark.layout order).write ⟨mark.1, mark.2⟩)) ++
  (sa.ifId.toList.map fun id => (31, order.toBytes 4 id.toNat)) ++
  (sa.offload.toList.map fun offload => (28, (XfrmUserOffload.layout order).write offload))

/-- `write_into`. -/
def writeInto (builder : MessageBuilder) : MessageBuilder :=
  (sa.attrs order).foldl (fun builder attr => builder.appendAttr order attr.1 attr.2)
    (builder.appendBytes ((XfrmUsersaInfo.layout order).write sa.buildUsersaInfo))

/-- What `write_into` appends in `add_sa`. -/
def body : List UInt8 :=
  (sa.writeInto order (.new order XFRM_MSG_NEWSA
    (NLM_F_REQUEST + NLM_F_ACK + NLM_F_CREATE + NLM_F_EXCL))).buf.drop NLMSG_HDRLEN

end XfrmSaBuilder

end Writing

/-!
## Reading with bounds

The readers once more, with every slice checked against what is there.
-/

/-- `bytes[start..stop]`; nothing stands for the panic of a slice out of bounds. -/
def slice (bytes : List UInt8) (start stop : Nat) : Option (List UInt8) :=
  if start ≤ stop ∧ stop ≤ bytes.length then some ((bytes.drop start).take (stop - start))
  else none

section Sliced

variable (order : ByteOrder)

def parseNlaSliced (input : List UInt8) : Option (Option ((Nat × List UInt8) × List UInt8)) :=
  if input.length < 4 then
    some none
  else do
    let len := order.ofBytes (← slice input 0 2)
    let attrType := order.ofBytes (← slice input 2 4)
    let behind ← slice input 4 input.length
    if len < 4 ∨ behind.length < len - 4 then
      some none
    else do
      let payload ← slice behind 0 (len - 4)
      let rest ← slice behind (len - 4) behind.length
      let padding := (len + 3) / 4 * 4 - len
      let rest ← if padding ≤ rest.length then slice rest padding rest.length else some rest
      some (some ((attrType, payload), rest))

def nlasSlicedFrom : Nat → List UInt8 → Option (List (Nat × List UInt8))
  | 0, _ => some []
  | fuel + 1, input => do
      match ← parseNlaSliced order input with
      | none => some []
      | some (attr, rest) => (nlasSlicedFrom fuel rest).map (attr :: ·)

/-- `data[fixed..fixed + key_bytes]`, if it is there. -/
def keySliced (fixed : Nat) (keyLen : BitVec 32) (data : List UInt8) : Option (List UInt8) :=
  let keyBytes := (keyLen.toNat + 7) / 8
  if fixed + keyBytes ≤ data.length then slice data fixed (fixed + keyBytes) else some []

def parseAlgorithmSliced (data : List UInt8) : Option (Option XfrmAlgorithm) :=
  if data.length < 68 then
    some none
  else do
    let name := parseCstring (← slice data 0 64)
    let keyLen := readU32 order (← slice data 64 68)
    let key ← keySliced 68 keyLen data
    some (some { name, keyLen, key })

def parseAlgorithmLenSliced (data : List UInt8) : Option (Option XfrmAlgorithmLen) :=
  if data.length < 72 then
    some none
  else do
    let name := parseCstring (← slice data 0 64)
    let keyLen := readU32 order (← slice data 64 68)
    let secondLen := readU32 order (← slice data 68 72)
    let key ← keySliced 72 keyLen data
    some (some { name, keyLen, secondLen, key })

/-- Four bytes as a number, if they are there. -/
def ifIdSliced (data : List UInt8) (old : Option (BitVec 32)) : Option (Option (BitVec 32)) :=
  if 4 ≤ data.length then (slice data 0 4).map fun bytes => some (readU32 order bytes)
  else some old

def SecurityAssociation.addAttrSliced (sa : SecurityAssociation) (attr : Nat × List UInt8) :
    Option SecurityAssociation :=
  let (attrType, data) := attr
  match attrType with
  | 2 => (parseAlgorithmSliced order data).map ({ sa with encAlg := · })
  | 1 => (parseAlgorithmSliced order data).map ({ sa with authAlg := · })
  | 18 => (parseAlgorithmLenSliced order data).map ({ sa with aeadAlg := · })
  | 20 => (parseAlgorithmLenSliced order data).map ({ sa with authTruncAlg := · })
  | 3 => (parseAlgorithmSliced order data).map ({ sa with compAlg := · })
  | 4 => some { sa with encap := ((XfrmEncapTmpl.layout order).fromPrefix? data).or sa.encap }
  | 21 => some { sa with mark := ((XfrmMark.layout order).fromPrefix? data).or sa.mark }
  | 31 => (ifIdSliced order data sa.ifId).map ({ sa with ifId := · })
  | _ => some sa

def SecurityPolicy.addAttrSliced (policy : SecurityPolicy) (attr : Nat × List UInt8) :
    Option SecurityPolicy :=
  let (attrType, data) := attr
  match attrType with
  | 21 => some { policy with mark := ((XfrmMark.layout order).fromPrefix? data).or policy.mark }
  | 31 => (ifIdSliced order data policy.ifId).map ({ policy with ifId := · })
  | _ => some policy

/-- The attributes behind a fixed structure, added to what it says. -/
def parseSliced {α β : Type} (layout : FixedLayout α) (start : α → β)
    (add : β → Nat × List UInt8 → Option β) (msgData : List UInt8) : Option (Option β) :=
  match layout.fromPrefix? msgData with
  | none => some none
  | some info => do
      let input ← slice msgData layout.size msgData.length
      let attrs ← nlasSlicedFrom order input.length input
      (attrs.foldlM add (start info)).map some

def parseSaPayloadSliced (msgData : List UInt8) : Option (Option SecurityAssociation) :=
  parseSliced order (XfrmUsersaInfo.layout order) saOfInfo
    (SecurityAssociation.addAttrSliced order) msgData

def parseSpPayloadSliced (msgData : List UInt8) : Option (Option SecurityPolicy) :=
  parseSliced order (XfrmUserpolicyInfo.layout order) policyOfInfo
    (SecurityPolicy.addAttrSliced order) msgData

/-!
## No slice is out of bounds
-/

theorem slice_eq {bytes : List UInt8} {start stop : Nat} (ordered : start ≤ stop)
    (inside : stop ≤ bytes.length) :
    slice bytes start stop = some ((bytes.drop start).take (stop - start)) :=
  if_pos ⟨ordered, inside⟩

theorem slice_length {bytes : List UInt8} {start : Nat} (inside : start ≤ bytes.length) :
    slice bytes start bytes.length = some (bytes.drop start) := by
  rw [slice_eq inside le_rfl, take_of_length_le (by rw [length_drop])]

theorem parseNlaSliced_eq (input : List UInt8) :
    parseNlaSliced order input = some (parseNla order input) := by
  rw [parseNlaSliced, parseNla]
  by_cases short : input.length < 4
  · rw [if_pos short, if_pos (Or.inl short)]
  rw [if_neg short, slice_eq (by omega) (by omega), slice_eq (by omega) (by omega),
    slice_length (by omega)]
  simp only [Option.bind_eq_bind, Option.bind_some, drop_zero, Nat.sub_zero,
    Nat.reduceSub, short, false_or]
  split
  · rfl
  · rename_i long
    rw [slice_eq (by omega) (by omega), slice_length (by omega)]
    simp only [Option.bind_some, drop_zero, Nat.sub_zero]
    split
    · rename_i padded
      rw [slice_length padded]
      rfl
    · rfl

theorem nlasSlicedFrom_eq (fuel : Nat) (input : List UInt8) :
    nlasSlicedFrom order fuel input = some (nlasFrom order fuel input) := by
  induction fuel generalizing input with
  | zero => rfl
  | succ fuel ih =>
      rw [nlasSlicedFrom, nlasFrom, parseNlaSliced_eq]
      simp only [Option.bind_eq_bind, Option.bind_some]
      cases parseNla order input with
      | none => rfl
      | some found => exact congrArg (Option.map _) (ih found.2)

theorem keySliced_eq (fixed : Nat) (keyLen : BitVec 32) (data : List UInt8) :
    keySliced fixed keyLen data = some (keyBehind fixed keyLen data) := by
  rw [keySliced, keyBehind]
  split
  · rename_i inside
    rw [slice_eq (by omega) inside, Nat.add_sub_cancel_left]
  · rfl

theorem readU32_take (bytes : List UInt8) : readU32 order (bytes.take 4) = readU32 order bytes := by
  rw [readU32, readU32, take_take, Nat.min_self]

variable (data : List UInt8)

theorem parseAlgorithmSliced_eq :
    parseAlgorithmSliced order data = some (parseAlgorithm order data) := by
  rw [parseAlgorithmSliced, parseAlgorithm]
  split
  · rfl
  · rw [slice_eq (by omega) (by omega), slice_eq (by omega) (by omega)]
    simp only [Option.bind_eq_bind, Option.bind_some, keySliced_eq, drop_zero, Nat.sub_zero,
      Nat.reduceSub, readU32_take]

theorem parseAlgorithmLenSliced_eq :
    parseAlgorithmLenSliced order data = some (parseAlgorithmLen order data) := by
  rw [parseAlgorithmLenSliced, parseAlgorithmLen]
  split
  · rfl
  · rw [slice_eq (by omega) (by omega), slice_eq (by omega) (by omega),
      slice_eq (by omega) (by omega)]
    simp only [Option.bind_eq_bind, Option.bind_some, keySliced_eq, drop_zero, Nat.sub_zero,
      Nat.reduceSub, readU32_take]

theorem ifIdSliced_eq (old : Option (BitVec 32)) :
    ifIdSliced order data old =
      some (if 4 ≤ data.length then some (readU32 order data) else old) := by
  rw [ifIdSliced]
  split
  · rename_i long
    rw [slice_eq (by omega) long, drop_zero, Option.map_some, readU32_take]
  · rfl

theorem addAttrSliced_eq (sa : SecurityAssociation) (attr : Nat × List UInt8) :
    sa.addAttrSliced order attr = some (sa.addAttr order attr) := by
  obtain ⟨attrType, data⟩ := attr
  simp only [SecurityAssociation.addAttrSliced, SecurityAssociation.addAttr,
    parseAlgorithmSliced_eq, parseAlgorithmLenSliced_eq, ifIdSliced_eq, Option.map_some]
  split <;> simp only

theorem policyAddAttrSliced_eq (policy : SecurityPolicy) (attr : Nat × List UInt8) :
    policy.addAttrSliced order attr = some (policy.addAttr order attr) := by
  obtain ⟨attrType, data⟩ := attr
  simp only [SecurityPolicy.addAttrSliced, SecurityPolicy.addAttr, ifIdSliced_eq, Option.map_some]
  split <;> simp only

theorem parseSliced_eq {α β : Type} (layout : FixedLayout α) (start : α → β)
    {add : β → Nat × List UInt8 → β} {addSliced : β → Nat × List UInt8 → Option β}
    (same : ∀ value attr, addSliced value attr = some (add value attr)) (msgData : List UInt8) :
    parseSliced order layout start addSliced msgData =
      some ((layout.fromPrefix? msgData).map fun info =>
        (nlas order (msgData.drop layout.size)).foldl add (start info)) := by
  have folds : ∀ attrs value, List.foldlM addSliced value attrs = some (attrs.foldl add value) := by
    intro attrs
    induction attrs with
    | nil => exact fun _ => rfl
    | cons attr rest ih =>
        intro value
        rw [foldlM_cons, same]
        exact ih _
  rw [parseSliced]
  cases read : layout.fromPrefix? msgData with
  | none => rfl
  | some info =>
      have inside : layout.size ≤ msgData.length := by
        rw [FixedLayout.fromPrefix?] at read
        split at read
        · cases read
        · omega
      simp only [slice_length inside, Option.bind_eq_bind, Option.bind_some, nlasSlicedFrom_eq,
        folds, Option.map_some]
      rfl

theorem parseSaPayloadSliced_eq (msgData : List UInt8) :
    parseSaPayloadSliced order msgData = some (parseSaPayload order msgData) :=
  parseSliced_eq order _ _ (addAttrSliced_eq order) msgData

theorem parseSpPayloadSliced_eq (msgData : List UInt8) :
    parseSpPayloadSliced order msgData = some (parseSpPayload order msgData) :=
  parseSliced_eq order _ _ (policyAddAttrSliced_eq order) msgData

end Sliced

/-!
## What is written is read
-/

section Walk

variable (order : ByteOrder)

theorem parseNla_attrBytes {attrType : Nat} {payload : List UInt8} (rest : List UInt8)
    (typeFits : attrType < 256 ^ 2) (lengthFits : NLA_HDRLEN + payload.length ≤ 65535) :
    parseNla order (attrBytes order attrType payload ++ rest) =
      some ((attrType, payload), rest) := by
  rw [NLA_HDRLEN] at lengthFits
  have behind := drop_attrBytes order attrType payload rest
  have shape : attrBytes order attrType payload ++ rest =
      order.toBytes 2 (4 + payload.length) ++ (order.toBytes 2 attrType ++
        (payload ++ padding (4 + payload.length) ++ rest)) := by
    rw [attrBytes, Nat.min_eq_left lengthFits, List.append_assoc, List.append_assoc]
  have len : order.ofBytes ((attrBytes order attrType payload ++ rest).take 2) =
      4 + payload.length := by
    rw [shape, take_left' (order.toBytes_length 2 _), order.ofBytes_toBytes (by omega)]
  have type : order.ofBytes
      (((attrBytes order attrType payload ++ rest).drop 2).take 2) = attrType := by
    rw [shape, drop_left' (order.toBytes_length 2 _),
      take_left' (order.toBytes_length 2 _), order.ofBytes_toBytes typeFits]
  have whole := attrBytes_length order attrType payload
  have aligned := le_nlaAlign (payload.length + 4)
  have enough : ¬((attrBytes order attrType payload ++ rest).length < 4 ∨
      4 + payload.length < 4 ∨
      (payload ++ (padding (4 + payload.length) ++ rest)).length < payload.length) := by
    simp only [length_append, whole]
    omega
  rw [parseNla]
  simp only [len, type, behind, if_neg enough, Nat.add_sub_cancel_left, take_left, drop_left]
  have skipped : (4 + payload.length + 3) / 4 * 4 - (4 + payload.length) =
      (padding (4 + payload.length)).length := by
    rw [padding, length_replicate, nlaAlign]
  rw [skipped, if_pos (by rw [length_append]; omega), drop_left]

theorem nlas_encodeAll {attrs : List Attribute} (fit : ∀ attr ∈ attrs, attr.Fits) :
    nlas order (encodeAll order attrs) = attrs := by
  have walk : ∀ (attrs : List Attribute) (fuel : Nat), (∀ attr ∈ attrs, attr.Fits) →
      attrs.length ≤ fuel → nlasFrom order fuel (encodeAll order attrs) = attrs := by
    intro attrs
    induction attrs with
    | nil =>
        intro fuel _ _
        cases fuel <;> rfl
    | cons attr rest ih =>
        intro fuel fit enough
        obtain ⟨⟨typeFits, lengthFits⟩, restFit⟩ := forall_mem_cons.mp fit
        cases fuel with
        | zero => cases enough
        | succ fuel =>
            rw [encodeAll, flatMap_cons, ← encodeAll, nlasFrom,
              parseNla_attrBytes order _ typeFits lengthFits]
            exact congrArg (List.cons attr) (ih fuel restFit (Nat.le_of_succ_le_succ enough))
  have long := length_mul_le_encodeAll order attrs
  rw [NLA_HDRLEN] at long
  exact walk attrs _ fit (by omega)

/-- No attribute has a longer payload than its length field can say. -/
theorem nlas_payload_le (input : List UInt8) :
    ∀ attr ∈ nlas order input, attr.2.length ≤ 65531 := by
  have walk : ∀ fuel input, ∀ attr ∈ nlasFrom order fuel input, attr.2.length ≤ 65531 := by
    intro fuel
    induction fuel with
    | zero => exact fun _ => forall_mem_nil _
    | succ fuel ih =>
        intro input
        rw [nlasFrom]
        have small : order.ofBytes (input.take 2) < 256 ^ 2 :=
          Nat.lt_of_lt_of_le (order.ofBytes_lt _)
            (Nat.pow_le_pow_right (by decide) (by rw [length_take]; omega))
        split
        · exact forall_mem_nil _
        · rename_i attr rest parsed
          refine forall_mem_cons.mpr ⟨?_, ih _⟩
          rw [parseNla] at parsed
          split at parsed
          · cases parsed
          · cases parsed
            rw [length_take]
            omega
  exact walk _ input

end Walk

/-!
## What reading gives back
-/

/-- The first 63 bytes of a name, up to a NUL. -/
def nameCut (name : String) : List UInt8 :=
  ((asBytes name).take 63).takeWhile (· != 0)

/-- The name goes through its field: it is short and without NUL, or its cut ends
inside of a character and the replacement of that one gives the name. -/
def NameKept (name : String) : Prop :=
  (NoNul name ∧ (asBytes name).length ≤ 63) ∨
    (Nftables.fromUtf8 (nameCut name) = none ∧
      Genl.lossyText (nameCut name).length (nameCut name) = name)

/-- A number in little-endian order is read as itself. -/
def NumberKept (order : ByteOrder) (value : Nat) : Prop :=
  order = .little ∨ ReadsBackwards 4 value

structure XfrmAlgo.Kept (order : ByteOrder) (alg : XfrmAlgo) : Prop where
  name : NameKept alg.name
  short : alg.key.length ≤ 65463
  bits : NumberKept order (alg.key.length * 8)

structure XfrmAlgoAead.Kept (order : ByteOrder) (alg : XfrmAlgoAead) : Prop where
  name : NameKept alg.name
  short : alg.key.length ≤ 65459
  bits : NumberKept order (alg.key.length * 8)
  icv : NumberKept order alg.icvTruncbits.toNat

/-- A number with a name of its own is not given as another one. -/
def IpsecProtocol.Canonical : IpsecProtocol → Prop
  | .other number => number ≠ 50 ∧ number ≠ 51 ∧ number ≠ 108
  | _ => True

def XfrmMode.Canonical : XfrmMode → Prop
  | .other number => number ≠ 0 ∧ number ≠ 1 ∧ number ≠ 4
  | _ => True

namespace XfrmSaBuilder

def OneFamily (sa : XfrmSaBuilder) : Prop :=
  familyForPair sa.src sa.dst ≠ 0

instance : DecidablePred OneFamily := fun _ => inferInstanceAs (Decidable (_ ≠ _))

structure Kept (order : ByteOrder) (sa : XfrmSaBuilder) : Prop where
  proto : sa.proto.Canonical
  mode : sa.mode.Canonical
  auth : ∀ alg ∈ sa.auth, alg.Kept order
  encr : ∀ alg ∈ sa.encr, alg.Kept order
  aead : ∀ alg ∈ sa.aead, alg.Kept order

/-- What is read is what was to be written. -/
structure ReadAs (sa : XfrmSaBuilder) (read : SecurityAssociation) : Prop where
  src : read.srcAddr = some sa.src
  dst : read.dstAddr = some sa.dst
  spi : read.spi = sa.spi
  proto : read.protocol = sa.proto
  mode : read.mode = sa.mode
  reqid : read.reqid = sa.reqid
  replayWindow : read.replayWindow = sa.replayWindow
  encap : read.encap = sa.encap
  mark : read.mark = sa.mark.map fun mark => ⟨mark.1, mark.2⟩
  ifId : read.ifId = sa.ifId
  auth : read.authAlg = sa.auth.map fun alg =>
    ⟨alg.name, BitVec.ofNat 32 (alg.key.length * 8), alg.key⟩
  encr : read.encAlg = sa.encr.map fun alg =>
    ⟨alg.name, BitVec.ofNat 32 (alg.key.length * 8), alg.key⟩
  aead : read.aeadAlg = sa.aead.map fun alg =>
    ⟨alg.name, BitVec.ofNat 32 (alg.key.length * 8), alg.icvTruncbits, alg.key⟩

end XfrmSaBuilder

/-- The SA is read back, and no bytes make a reader go out of their bounds. -/
structure CodecSound (order : ByteOrder) (sa : XfrmSaBuilder) : Prop where
  roundTrip : ∃ read, parseSaPayload order (sa.body order) = some read ∧ sa.ReadAs read
  saInBounds : ∀ bytes, parseSaPayloadSliced order bytes ≠ none
  spInBounds : ∀ bytes, parseSpPayloadSliced order bytes ≠ none

theorem firstFour_padded (octets : Vector UInt8 4) : firstFour (padded octets) = octets := by
  apply Vector.ext
  intro index bound
  have wide : index < 16 := by omega
  simp [firstFour, padded, wide]

theorem toIp_ipToXfrmAddr {sa : XfrmSaBuilder} (oneFamily : sa.OneFamily) :
    toIp (ipToXfrmAddr sa.src) (familyForPair sa.src sa.dst) = some sa.src ∧
      toIp (ipToXfrmAddr sa.dst) (familyForPair sa.src sa.dst) = some sa.dst := by
  obtain ⟨src, dst, _⟩ := sa
  rw [XfrmSaBuilder.OneFamily] at oneFamily
  cases src <;> cases dst
  · simp [familyForPair, toIp, ipToXfrmAddr, firstFour_padded]
  · exact absurd rfl oneFamily
  · exact absurd rfl oneFamily
  · simp [familyForPair, toIp, ipToXfrmAddr, AF_INET, AF_INET6]

theorem fromU8_number_eq_iff (proto : IpsecProtocol) :
    IpsecProtocol.fromU8 proto.number = proto ↔ proto.Canonical := by
  cases proto with
  | other number =>
      simp only [IpsecProtocol.number, IpsecProtocol.fromU8, IpsecProtocol.Canonical]
      by_cases esp : number = 50
      · simp [esp]
      by_cases ah : number = 51
      · simp [ah]
      by_cases comp : number = 108
      · simp [comp]
      exact iff_of_true ((if_neg esp).trans ((if_neg ah).trans (if_neg comp))) ⟨esp, ah, comp⟩
  | _ => exact iff_of_true rfl trivial

theorem modeFromU8_number_eq_iff (mode : XfrmMode) :
    XfrmMode.fromU8 mode.number = mode ↔ mode.Canonical := by
  cases mode with
  | other number =>
      simp only [XfrmMode.number, XfrmMode.fromU8, XfrmMode.Canonical]
      by_cases transport : number = 0
      · simp [transport]
      by_cases tunnel : number = 1
      · simp [tunnel]
      by_cases beet : number = 4
      · simp [beet]
      exact iff_of_true ((if_neg transport).trans ((if_neg tunnel).trans (if_neg beet)))
        ⟨transport, tunnel, beet⟩
  | _ => exact iff_of_true rfl trivial

variable (name : String)

theorem nameField_length : (nameField name).length = 64 := by
  simp only [nameField, length_append, length_replicate, length_take]
  omega

theorem takeWhile_nameField : (nameField name).takeWhile (· != 0) = nameCut name := by
  rw [nameField, takeWhile_append, nameCut]
  split
  · rename_i whole
    have all : ((asBytes name).take 63).takeWhile (· != 0) = (asBytes name).take 63 :=
      List.IsPrefix.eq_of_length (List.takeWhile_prefix _) whole
    have zeros : ∀ count, (List.replicate count (0 : UInt8)).takeWhile (· != 0) = [] := by
      intro count
      cases count <;> rfl
    rw [zeros, List.append_nil, all]
  · rfl

theorem nameCut_eq_iff : nameCut name = asBytes name ↔ NoNul name ∧ (asBytes name).length ≤ 63 := by
  constructor
  · intro whole
    have short : (asBytes name).length ≤ ((asBytes name).take 63).length :=
      le_of_eq_of_le (congrArg List.length whole.symm) (List.takeWhile_prefix _).length_le
    rw [length_take] at short
    refine ⟨fun byte member => ?_, by omega⟩
    rw [← whole] at member
    simpa using mem_takeWhile_imp member
  · rintro ⟨noNul, short⟩
    rw [nameCut, take_of_length_le short, takeWhile_eq_self_iff]
    intro byte member
    simpa using noNul byte member

theorem parseCstring_nameField_eq_iff : parseCstring (nameField name) = name ↔ NameKept name := by
  rw [parseCstring, takeWhile_nameField, NameKept, ← nameCut_eq_iff, fromUtf8Lossy]
  cases decoded : Nftables.fromUtf8 (nameCut name) with
  | none =>
      refine ⟨fun same => Or.inr ⟨rfl, same⟩, ?_⟩
      rintro (whole | ⟨-, same⟩)
      · rw [whole, Nftables.fromUtf8_asBytes] at decoded
        cases decoded
      · exact same
  | some text =>
      have bytes := Nftables.asBytes_of_fromUtf8 decoded
      constructor
      · intro same
        change text = name at same
        rw [same] at bytes
        exact Or.inl bytes.symm
      · rintro (whole | ⟨missing, -⟩)
        · rw [whole, Nftables.fromUtf8_asBytes] at decoded
          exact (Option.some.inj decoded).symm
        · cases missing

theorem readU32_little_eq_iff (order : ByteOrder) {value : Nat} (fits : value < 256 ^ 4)
    (rest : List UInt8) :
    readU32 order (ByteOrder.little.toBytes 4 value ++ rest) = BitVec.ofNat 32 value ↔
      NumberKept order value := by
  rw [readU32, take_left' (ByteOrder.toBytes_length _ 4 _), NumberKept,
    ← ofBytes_toBytes_little_eq_iff order fits, ← BitVec.toNat_inj, BitVec.toNat_ofNat,
    BitVec.toNat_ofNat]
  have bound := order.ofBytes_lt (ByteOrder.little.toBytes 4 value)
  rw [ByteOrder.toBytes_length] at bound
  rw [Nat.mod_eq_of_lt (by omega), Nat.mod_eq_of_lt (by omega)]

theorem keyBehind_key {front key : List UInt8} {fixed : Nat} (length : front.length = fixed)
    (short : key.length < 2 ^ 29) :
    keyBehind fixed (BitVec.ofNat 32 (key.length * 8)) (front ++ key) = key := by
  have bytes : (BitVec.ofNat 32 (key.length * 8)).toNat = key.length * 8 := by
    rw [BitVec.toNat_ofNat, Nat.mod_eq_of_lt (by omega)]
  rw [keyBehind, bytes]
  have whole : (key.length * 8 + 7) / 8 = key.length := by omega
  simp only [whole]
  rw [if_pos (by rw [length_append, length]), drop_left' length, take_length]

theorem parseAlgorithm_encode_eq_iff (order : ByteOrder) {alg : XfrmAlgo}
    (short : alg.key.length ≤ 65463) :
    parseAlgorithm order (encodeXfrmAlgo alg) =
        some ⟨alg.name, BitVec.ofNat 32 (alg.key.length * 8), alg.key⟩ ↔
      NameKept alg.name ∧ NumberKept order (alg.key.length * 8) := by
  have field := nameField_length alg.name
  have fixed : (nameField alg.name ++
      ByteOrder.little.toBytes 4 (alg.key.length * 8)).length = 68 := by
    rw [length_append, field, ByteOrder.toBytes_length]
  have behind : (encodeXfrmAlgo alg).drop 64 =
      ByteOrder.little.toBytes 4 (alg.key.length * 8) ++ alg.key := by
    rw [encodeXfrmAlgo, List.append_assoc, drop_left' field]
  have front : (encodeXfrmAlgo alg).take 64 = nameField alg.name := by
    rw [encodeXfrmAlgo, List.append_assoc, take_left' field]
  have long : ¬(encodeXfrmAlgo alg).length < 68 := by
    rw [encodeXfrmAlgo, length_append, fixed]
    omega
  have keyLen := readU32_little_eq_iff order (by omega : alg.key.length * 8 < 256 ^ 4) alg.key
  rw [← parseCstring_nameField_eq_iff, ← keyLen, parseAlgorithm, if_neg long, behind, front]
  simp only [Option.some.injEq, XfrmAlgorithm.mk.injEq, and_congr_right_iff, and_iff_left_iff_imp]
  intro _ isLen
  rw [isLen, encodeXfrmAlgo]
  exact keyBehind_key fixed (by omega)

theorem parseAlgorithmLen_encode_eq_iff (order : ByteOrder) {alg : XfrmAlgoAead}
    (short : alg.key.length ≤ 65459) :
    parseAlgorithmLen order (encodeXfrmAlgoAead alg) =
        some ⟨alg.name, BitVec.ofNat 32 (alg.key.length * 8), alg.icvTruncbits, alg.key⟩ ↔
      NameKept alg.name ∧ NumberKept order (alg.key.length * 8) ∧
        NumberKept order alg.icvTruncbits.toNat := by
  have field := nameField_length alg.name
  have lens : (nameField alg.name ++
      ByteOrder.little.toBytes 4 (alg.key.length * 8)).length = 68 := by
    rw [length_append, field, ByteOrder.toBytes_length]
  have fixed : (nameField alg.name ++ ByteOrder.little.toBytes 4 (alg.key.length * 8) ++
      ByteOrder.little.toBytes 4 alg.icvTruncbits.toNat).length = 72 := by
    rw [length_append, lens, ByteOrder.toBytes_length]
  have behind : (encodeXfrmAlgoAead alg).drop 64 =
      ByteOrder.little.toBytes 4 (alg.key.length * 8) ++
        (ByteOrder.little.toBytes 4 alg.icvTruncbits.toNat ++ alg.key) := by
    rw [encodeXfrmAlgoAead, List.append_assoc, List.append_assoc, drop_left' field]
  have further : (encodeXfrmAlgoAead alg).drop 68 =
      ByteOrder.little.toBytes 4 alg.icvTruncbits.toNat ++ alg.key := by
    rw [encodeXfrmAlgoAead, List.append_assoc, drop_left' lens]
  have front : (encodeXfrmAlgoAead alg).take 64 = nameField alg.name := by
    rw [encodeXfrmAlgoAead, List.append_assoc, List.append_assoc, take_left' field]
  have long : ¬(encodeXfrmAlgoAead alg).length < 72 := by
    rw [encodeXfrmAlgoAead, length_append, fixed]
    omega
  have keyLen := readU32_little_eq_iff order (by omega : alg.key.length * 8 < 256 ^ 4)
    (ByteOrder.little.toBytes 4 alg.icvTruncbits.toNat ++ alg.key)
  have icvLen := readU32_little_eq_iff order alg.icvTruncbits.isLt alg.key
  rw [BitVec.ofNat_toNat, BitVec.setWidth_eq] at icvLen
  rw [← parseCstring_nameField_eq_iff, ← keyLen, ← icvLen, parseAlgorithmLen, if_neg long, behind,
    further, front]
  simp only [Option.some.injEq, XfrmAlgorithmLen.mk.injEq, and_congr_right_iff,
    and_iff_left_iff_imp]
  intro _ isLen _
  rw [isLen, encodeXfrmAlgoAead]
  exact keyBehind_key fixed (by omega)

section Builder

variable {order : ByteOrder} {sa : XfrmSaBuilder}

theorem body_eq :
    sa.body order = (XfrmUsersaInfo.layout order).write sa.buildUsersaInfo ++
      encodeAll order (sa.attrs order) := by
  have header : ((MessageBuilder.new order XFRM_MSG_NEWSA
      (NLM_F_REQUEST + NLM_F_ACK + NLM_F_CREATE + NLM_F_EXCL)).buf).length = NLMSG_HDRLEN := by
    simp [MessageBuilder.new, NlMsgHdr.asBytes, NLMSG_HDRLEN]
  have size : ((XfrmUsersaInfo.layout order).write sa.buildUsersaInfo).length = 224 := by
    rw [FixedLayout.length_write, size_usersaInfo]
  have writes := (@appends_header ((XfrmUsersaInfo.layout order).write sa.buildUsersaInfo)
    (by rw [size]; decide)).comp
      (Appends.foldl (fun attr : Attribute => appends_one order attr.1 attr.2) (sa.attrs order))
  have whole := writes.appended (.new order XFRM_MSG_NEWSA
    (NLM_F_REQUEST + NLM_F_ACK + NLM_F_CREATE + NLM_F_EXCL)) (by rw [header]; decide)
  rw [XfrmSaBuilder.body, XfrmSaBuilder.writeInto, whole, drop_left' header]
  congr 1
  simp [encodeAll]

/-- What is read when every attribute fits its length field. -/
def XfrmSaBuilder.readBack (order : ByteOrder) (sa : XfrmSaBuilder) : SecurityAssociation :=
  { saOfInfo sa.buildUsersaInfo with
    authAlg := sa.auth.bind fun alg => parseAlgorithm order (encodeXfrmAlgo alg)
    encAlg := sa.encr.bind fun alg => parseAlgorithm order (encodeXfrmAlgo alg)
    aeadAlg := sa.aead.bind fun alg => parseAlgorithmLen order (encodeXfrmAlgoAead alg)
    encap := sa.encap
    mark := sa.mark.map fun mark => ⟨mark.1, mark.2⟩
    ifId := sa.ifId }

theorem fromPrefix?_write_self {α : Type} (layout : FixedLayout α) (value : α) :
    (layout.fromPrefix? (layout.write value)).or none = some value := by
  have read := layout.fromPrefix?_write value []
  rw [List.append_nil] at read
  rw [read]
  rfl

theorem foldl_attrs :
    (sa.attrs order).foldl (SecurityAssociation.addAttr order) (saOfInfo sa.buildUsersaInfo) =
      sa.readBack order := by
  let build : Option XfrmAlgo → Option XfrmAlgo → Option XfrmAlgoAead → Option XfrmEncapTmpl →
      Option (BitVec 32 × BitVec 32) → Option (BitVec 32) → SecurityAssociation :=
    fun auth encr aead encap mark ifId =>
      XfrmSaBuilder.readBack order { sa with auth, encr, aead, encap, mark, ifId }
  have withAuth : (sa.auth.toList.map fun auth => ((1, encodeXfrmAlgo auth) : Attribute)).foldl
      (SecurityAssociation.addAttr order) (saOfInfo sa.buildUsersaInfo) =
        build sa.auth none none none none none :=
    foldl_field (fun auth => (1, encodeXfrmAlgo auth)) (build · none none none none none)
      (fun _ => rfl) sa.auth
  have withEncr := foldl_then withAuth <|
    foldl_field (fun encr => (2, encodeXfrmAlgo encr)) (build sa.auth · none none none none)
      (fun _ => rfl) sa.encr
  have withAead := foldl_then withEncr <|
    foldl_field (fun aead => (18, encodeXfrmAlgoAead aead)) (build sa.auth sa.encr · none none none)
      (fun _ => rfl) sa.aead
  have withEncap := foldl_then withAead <|
    foldl_field (fun encap => (4, (XfrmEncapTmpl.layout order).write encap))
      (build sa.auth sa.encr sa.aead · none none)
      (fun encap => congrArg ({ build sa.auth sa.encr sa.aead none none none with encap := · })
        (fromPrefix?_write_self (XfrmEncapTmpl.layout order) encap)) sa.encap
  have withMark := foldl_then withEncap <|
    foldl_field (fun mark => (21, (XfrmMark.layout order).write ⟨mark.1, mark.2⟩))
      (build sa.auth sa.encr sa.aead sa.encap · none)
      (fun mark => congrArg ({ build sa.auth sa.encr sa.aead sa.encap none none with mark := · })
        (fromPrefix?_write_self (XfrmMark.layout order) ⟨mark.1, mark.2⟩)) sa.mark
  have withIfId := foldl_then withMark <|
    foldl_field (fun id => (31, order.toBytes 4 id.toNat))
      (build sa.auth sa.encr sa.aead sa.encap sa.mark ·)
      (fun id => congrArg ({ build sa.auth sa.encr sa.aead sa.encap sa.mark none with ifId := · })
        (by rw [if_pos (by rw [ByteOrder.toBytes_length]), readU32_toBytes])) sa.ifId
  exact foldl_then withIfId <|
    foldl_field (fun offload => (28, (XfrmUserOffload.layout order).write offload))
      (fun _ => sa.readBack order) (fun _ => rfl) sa.offload

theorem fits_attrs (auth : ∀ alg ∈ sa.auth, alg.key.length ≤ 65463)
    (encr : ∀ alg ∈ sa.encr, alg.key.length ≤ 65463)
    (aead : ∀ alg ∈ sa.aead, alg.key.length ≤ 65459) : ∀ attr ∈ sa.attrs order, attr.Fits := by
  have encap := (XfrmEncapTmpl.layout order).length_write
  have mark := (XfrmMark.layout order).length_write
  have offload := (XfrmUserOffload.layout order).length_write
  rw [show (XfrmEncapTmpl.layout order).size = 24 from rfl] at encap
  rw [show (XfrmMark.layout order).size = 8 from rfl] at mark
  rw [show (XfrmUserOffload.layout order).size = 8 from rfl] at offload
  intro attr member
  simp only [XfrmSaBuilder.attrs, mem_append, mem_map, Option.mem_toList] at member
  simp only [Attribute.Fits, NLA_HDRLEN]
  rcases member with (((((⟨alg, isAlg, rfl⟩ | ⟨alg, isAlg, rfl⟩) | ⟨alg, isAlg, rfl⟩) |
    ⟨_, _, rfl⟩) | ⟨_, _, rfl⟩) | ⟨_, _, rfl⟩) | ⟨_, _, rfl⟩
  · have short := auth alg isAlg
    simp only [encodeXfrmAlgo, length_append, nameField_length, ByteOrder.toBytes_length]
    omega
  · have short := encr alg isAlg
    simp only [encodeXfrmAlgo, length_append, nameField_length, ByteOrder.toBytes_length]
    omega
  · have short := aead alg isAlg
    simp only [encodeXfrmAlgoAead, length_append, nameField_length, ByteOrder.toBytes_length]
    omega
  · rw [encap]
    omega
  · rw [mark]
    omega
  · rw [ByteOrder.toBytes_length]
    omega
  · rw [offload]
    omega

/-- No key that is read is longer than what an attribute holds behind its fixed part. -/
structure ShortKeys (read : SecurityAssociation) : Prop where
  auth : ∀ alg ∈ read.authAlg, alg.key.length ≤ 65463
  encr : ∀ alg ∈ read.encAlg, alg.key.length ≤ 65463
  aead : ∀ alg ∈ read.aeadAlg, alg.key.length ≤ 65459

theorem keyBehind_le (fixed : Nat) (keyLen : BitVec 32) (data : List UInt8) :
    (keyBehind fixed keyLen data).length ≤ data.length - fixed := by
  rw [keyBehind]
  split
  · rw [length_take, length_drop]
    omega
  · exact Nat.zero_le _

theorem parseAlgorithm_short {data : List UInt8} (short : data.length ≤ 65531) :
    ∀ alg ∈ parseAlgorithm order data, alg.key.length ≤ 65463 := by
  intro alg parsed
  rw [parseAlgorithm] at parsed
  split at parsed
  · cases parsed
  · cases parsed
    have bound := keyBehind_le 68 (readU32 order (data.drop 64)) data
    dsimp only
    omega

theorem parseAlgorithmLen_short {data : List UInt8} (short : data.length ≤ 65531) :
    ∀ alg ∈ parseAlgorithmLen order data, alg.key.length ≤ 65459 := by
  intro alg parsed
  rw [parseAlgorithmLen] at parsed
  split at parsed
  · cases parsed
  · cases parsed
    have bound := keyBehind_le 72 (readU32 order (data.drop 64)) data
    dsimp only
    omega

theorem shortKeys_addAttr {read : SecurityAssociation} {attr : Nat × List UInt8}
    (keys : ShortKeys read) (short : attr.2.length ≤ 65531) :
    ShortKeys (read.addAttr order attr) := by
  obtain ⟨auth, encr, aead⟩ := keys
  obtain ⟨attrType, data⟩ := attr
  unfold SecurityAssociation.addAttr
  dsimp only
  split
  · exact ⟨auth, parseAlgorithm_short short, aead⟩
  · exact ⟨parseAlgorithm_short short, encr, aead⟩
  · exact ⟨auth, encr, parseAlgorithmLen_short short⟩
  all_goals exact ⟨auth, encr, aead⟩

theorem shortKeys_of_parse {bytes : List UInt8} {read : SecurityAssociation}
    (parsed : parseSaPayload order bytes = some read) : ShortKeys read := by
  have run : ∀ (attrs : List (Nat × List UInt8)) (start : SecurityAssociation),
      ShortKeys start → (∀ attr ∈ attrs, attr.2.length ≤ 65531) →
        ShortKeys (attrs.foldl (SecurityAssociation.addAttr order) start) := by
    intro attrs
    induction attrs with
    | nil => exact fun _ keys _ => keys
    | cons attr rest ih =>
        intro start keys short
        obtain ⟨here, later⟩ := forall_mem_cons.mp short
        exact ih _ (shortKeys_addAttr keys here) later
  rw [parseSaPayload, Option.map_eq_some_iff] at parsed
  obtain ⟨info, -, rfl⟩ := parsed
  exact run _ _ (by constructor <;> simp [saOfInfo]) (nlas_payload_le order _)

theorem parseSaPayload_body (auth : ∀ alg ∈ sa.auth, alg.key.length ≤ 65463)
    (encr : ∀ alg ∈ sa.encr, alg.key.length ≤ 65463)
    (aead : ∀ alg ∈ sa.aead, alg.key.length ≤ 65459) :
    parseSaPayload order (sa.body order) = some (sa.readBack order) := by
  rw [body_eq, parseSaPayload_write, nlas_encodeAll order (fits_attrs auth encr aead), foldl_attrs]

/-- An algorithm that may be missing is read back if it is whenever it is there. -/
theorem bind_eq_map_iff {α β : Type} {value : Option α} {read : α → Option β} {expected : α → β} :
    value.bind read = value.map expected ↔ ∀ found ∈ value, read found = some (expected found) := by
  cases value <;> simp

/-- Exactly which associations go through the codec. -/
theorem codecSound_iff (oneFamily : sa.OneFamily) : CodecSound order sa ↔ sa.Kept order := by
  constructor
  · rintro ⟨⟨read, parsed, same⟩, -, -⟩
    have keys := shortKeys_of_parse parsed
    have auth : ∀ alg ∈ sa.auth, alg.key.length ≤ 65463 := fun alg isAlg =>
      keys.auth _ (by rw [same.auth, isAlg]; rfl)
    have encr : ∀ alg ∈ sa.encr, alg.key.length ≤ 65463 := fun alg isAlg =>
      keys.encr _ (by rw [same.encr, isAlg]; rfl)
    have aead : ∀ alg ∈ sa.aead, alg.key.length ≤ 65459 := fun alg isAlg =>
      keys.aead _ (by rw [same.aead, isAlg]; rfl)
    rw [parseSaPayload_body auth encr aead] at parsed
    cases parsed
    refine ⟨(fromU8_number_eq_iff _).mp same.proto, (modeFromU8_number_eq_iff _).mp same.mode,
      ?_, ?_, ?_⟩
    · intro alg isAlg
      have isRead := bind_eq_map_iff.mp same.auth alg isAlg
      obtain ⟨name, bits⟩ := (parseAlgorithm_encode_eq_iff order (auth alg isAlg)).mp isRead
      exact ⟨name, auth alg isAlg, bits⟩
    · intro alg isAlg
      have isRead := bind_eq_map_iff.mp same.encr alg isAlg
      obtain ⟨name, bits⟩ := (parseAlgorithm_encode_eq_iff order (encr alg isAlg)).mp isRead
      exact ⟨name, encr alg isAlg, bits⟩
    · intro alg isAlg
      have isRead := bind_eq_map_iff.mp same.aead alg isAlg
      obtain ⟨name, bits, icv⟩ := (parseAlgorithmLen_encode_eq_iff order (aead alg isAlg)).mp isRead
      exact ⟨name, aead alg isAlg, bits, icv⟩
  · intro kept
    have parsed := @parseSaPayload_body order sa (fun alg isAlg => (kept.auth alg isAlg).short)
      (fun alg isAlg => (kept.encr alg isAlg).short) fun alg isAlg => (kept.aead alg isAlg).short
    obtain ⟨src, dst⟩ := toIp_ipToXfrmAddr oneFamily
    refine ⟨⟨_, parsed, ?_⟩, ?_, ?_⟩
    · refine ⟨src, dst, rfl, (fromU8_number_eq_iff _).mpr kept.proto,
        (modeFromU8_number_eq_iff _).mpr kept.mode, rfl, rfl, rfl, rfl, rfl,
        bind_eq_map_iff.mpr ?_, bind_eq_map_iff.mpr ?_, bind_eq_map_iff.mpr ?_⟩
      · intro alg isAlg
        have algKept := kept.auth alg isAlg
        exact (parseAlgorithm_encode_eq_iff order algKept.short).mpr ⟨algKept.name, algKept.bits⟩
      · intro alg isAlg
        have algKept := kept.encr alg isAlg
        exact (parseAlgorithm_encode_eq_iff order algKept.short).mpr ⟨algKept.name, algKept.bits⟩
      · intro alg isAlg
        have algKept := kept.aead alg isAlg
        exact (parseAlgorithmLen_encode_eq_iff order algKept.short).mpr
          ⟨algKept.name, algKept.bits, algKept.icv⟩
    · intro bytes
      rw [parseSaPayloadSliced_eq]
      exact Option.some_ne_none _
    · intro bytes
      rw [parseSpPayloadSliced_eq]
      exact Option.some_ne_none _

end Builder

/-- ESP between two hosts, with a key of sixteen bytes for `cbc(aes)`. -/
def espSa : XfrmSaBuilder where
  src := .v4 #v[10, 0, 0, 1]
  dst := .v4 #v[10, 0, 0, 2]
  spi := 0xdeadbeef
  proto := .esp
  mode := .tunnel
  reqid := 42
  flags := 0
  replayWindow := 32
  auth := none
  encr := some { name := "cbc(aes)", key := List.replicate 16 0 }
  aead := none
  encap := none
  mark := none
  ifId := none
  offload := none

theorem codecSound_espSa : espSa.OneFamily ∧ CodecSound .little espSa := by
  have oneFamily : espSa.OneFamily := by decide
  refine ⟨oneFamily, (codecSound_iff oneFamily).mpr ⟨trivial, trivial, nofun, ?_, nofun⟩⟩
  intro alg isAlg
  cases isAlg
  exact ⟨Or.inl (by decide +kernel), by decide, Or.inl rfl⟩

/-- On a big-endian host the length of the key comes back with its bytes reversed. -/
theorem not_codecSound_espSa : ¬(espSa.OneFamily → CodecSound .big espSa) := by
  intro sound
  obtain ⟨⟨read, parsed, same⟩, -, -⟩ := sound (by decide)
  have reversed : ((parseSaPayload .big (espSa.body .big)).bind (·.encAlg)).map (·.keyLen) =
      some 0x80000000 := by decide +kernel
  rw [parsed, Option.bind_some, same.encr] at reversed
  exact absurd reversed (by decide)

end Nlink.Xfrm
