import Nlink.GenlMessage
import Nlink.NetlinkNotification
import Nlink.NetlinkRoute

namespace Nlink.Xfrm

open Foundation Netlink
open Genl (fromUtf8Lossy)

/-!
# IPsec events

The kernel tells of states and policies in messages of fixed structures, each
followed by attributes.

## Structures
-/

inductive IpAddr where
  | v4 (octets : Vector UInt8 4)
  | v6 (octets : Vector UInt8 16)
  deriving DecidableEq

/-- An address of 16 bytes, of which IPv4 uses the first four. -/
abbrev XfrmAddress := Vector UInt8 16

def AF_INET : BitVec 16 := 2
def AF_INET6 : BitVec 16 := 10

def firstFour (address : XfrmAddress) : Vector UInt8 4 :=
  Vector.ofFn fun index => address.toList.getD index 0

/-- `XfrmAddress::to_ip`. -/
def toIp (address : XfrmAddress) (family : BitVec 16) : Option IpAddr :=
  if family = AF_INET then
    some (.v4 (firstFour address))
  else if family = AF_INET6 then
    some (.v6 address)
  else
    none

structure XfrmId where
  daddr : XfrmAddress
  spi : BitVec 32
  proto : BitVec 8
  pad : Vector UInt8 3

structure XfrmUsersaId where
  daddr : XfrmAddress
  spi : BitVec 32
  family : BitVec 16
  proto : BitVec 8
  pad : Vector UInt8 1

structure XfrmSelector where
  daddr : XfrmAddress
  saddr : XfrmAddress
  dport : BitVec 16
  dportMask : BitVec 16
  sport : BitVec 16
  sportMask : BitVec 16
  family : BitVec 16
  prefixlenD : BitVec 8
  prefixlenS : BitVec 8
  proto : BitVec 8
  pad1 : Vector UInt8 3
  ifindex : BitVec 32
  user : BitVec 32
  deriving DecidableEq

structure XfrmUserpolicyId where
  sel : XfrmSelector
  index : BitVec 32
  dir : BitVec 8
  pad : Vector UInt8 3

/-- The current lifetime: bytes and packets, and when it was added and used. -/
structure XfrmLifetimeCur where
  bytes : BitVec 64
  packets : BitVec 64
  times : Vector UInt8 16

/-- `XfrmUsersaInfo`, with the limits and the statistics as blocks. -/
structure XfrmUsersaInfo where
  sel : XfrmSelector
  id : XfrmId
  saddr : XfrmAddress
  lft : Vector UInt8 64
  curlft : XfrmLifetimeCur
  stats : Vector UInt8 12
  seq : BitVec 32
  reqid : BitVec 32
  family : BitVec 16
  mode : BitVec 8
  replayWindow : BitVec 8
  flags : BitVec 8
  pad : Vector UInt8 7

/-- `XfrmUserpolicyInfo`, with the limits as a block. -/
structure XfrmUserpolicyInfo where
  sel : XfrmSelector
  lft : Vector UInt8 64
  curlft : XfrmLifetimeCur
  priority : BitVec 32
  index : BitVec 32
  dir : BitVec 8
  action : BitVec 8
  flags : BitVec 8
  share : BitVec 8
  pad : Vector UInt8 4

structure XfrmEncapTmpl where
  encapType : BitVec 16
  encapSport : BitVec 16
  encapDport : BitVec 16
  pad : BitVec 16
  encapOa : XfrmAddress

structure XfrmMark where
  v : BitVec 32
  m : BitVec 32

/-- `XfrmUserAcquire`. -/
structure XfrmUserAcquire where
  id : XfrmId
  saddr : XfrmAddress
  sel : XfrmSelector
  policy : XfrmUserpolicyInfo
  masks : Vector UInt8 12
  seq : BitVec 32

section Layouts

open FixedLayout

variable (order : ByteOrder)

def XfrmId.layout : FixedLayout XfrmId :=
  ((block 16).pair <| (number .big 4).pair <| (number order 1).pair <| block 3).via
    (fun (daddr, spi, proto, pad) => { daddr, spi, proto, pad })
    (fun id => (id.daddr, id.spi, id.proto, id.pad))
    (fun _ => rfl)

def XfrmUsersaId.layout : FixedLayout XfrmUsersaId :=
  ((block 16).pair <| (number .big 4).pair <| (number order 2).pair <| (number order 1).pair <|
    block 1).via
    (fun (daddr, spi, family, proto, pad) => { daddr, spi, family, proto, pad })
    (fun id => (id.daddr, id.spi, id.family, id.proto, id.pad))
    (fun _ => rfl)

/-- Ports are in network order. -/
def XfrmSelector.layout : FixedLayout XfrmSelector :=
  ((block 16).pair <| (block 16).pair <| (number .big 2).pair <| (number .big 2).pair <|
    (number .big 2).pair <| (number .big 2).pair <| (number order 2).pair <|
    (number order 1).pair <| (number order 1).pair <| (number order 1).pair <|
    (block 3).pair <| (number order 4).pair <| number order 4).via
    (fun (daddr, saddr, dport, dportMask, sport, sportMask, family, prefixlenD, prefixlenS,
        proto, pad1, ifindex, user) =>
      { daddr, saddr, dport, dportMask, sport, sportMask, family, prefixlenD, prefixlenS,
        proto, pad1, ifindex, user })
    (fun sel => (sel.daddr, sel.saddr, sel.dport, sel.dportMask, sel.sport, sel.sportMask,
      sel.family, sel.prefixlenD, sel.prefixlenS, sel.proto, sel.pad1, sel.ifindex, sel.user))
    (fun _ => rfl)

def XfrmUserpolicyId.layout : FixedLayout XfrmUserpolicyId :=
  ((XfrmSelector.layout order).pair <| (number order 4).pair <| (number order 1).pair <|
    block 3).via
    (fun (sel, index, dir, pad) => { sel, index, dir, pad })
    (fun id => (id.sel, id.index, id.dir, id.pad))
    (fun _ => rfl)

def XfrmLifetimeCur.layout : FixedLayout XfrmLifetimeCur :=
  ((number order 8).pair <| (number order 8).pair <| block 16).via
    (fun (bytes, packets, times) => { bytes, packets, times })
    (fun cur => (cur.bytes, cur.packets, cur.times))
    (fun _ => rfl)

def XfrmUsersaInfo.layout : FixedLayout XfrmUsersaInfo :=
  ((XfrmSelector.layout order).pair <| (XfrmId.layout order).pair <| (block 16).pair <|
    (block 64).pair <| (XfrmLifetimeCur.layout order).pair <| (block 12).pair <|
    (number order 4).pair <| (number order 4).pair <| (number order 2).pair <|
    (number order 1).pair <| (number order 1).pair <| (number order 1).pair <| block 7).via
    (fun (sel, id, saddr, lft, curlft, stats, seq, reqid, family, mode, replayWindow, flags, pad) =>
      { sel, id, saddr, lft, curlft, stats, seq, reqid, family, mode, replayWindow, flags, pad })
    (fun info => (info.sel, info.id, info.saddr, info.lft, info.curlft, info.stats, info.seq,
      info.reqid, info.family, info.mode, info.replayWindow, info.flags, info.pad))
    (fun _ => rfl)

def XfrmUserpolicyInfo.layout : FixedLayout XfrmUserpolicyInfo :=
  ((XfrmSelector.layout order).pair <| (block 64).pair <| (XfrmLifetimeCur.layout order).pair <|
    (number order 4).pair <| (number order 4).pair <| (number order 1).pair <|
    (number order 1).pair <| (number order 1).pair <| (number order 1).pair <| block 4).via
    (fun (sel, lft, curlft, priority, index, dir, action, flags, share, pad) =>
      { sel, lft, curlft, priority, index, dir, action, flags, share, pad })
    (fun info => (info.sel, info.lft, info.curlft, info.priority, info.index, info.dir,
      info.action, info.flags, info.share, info.pad))
    (fun _ => rfl)

def XfrmEncapTmpl.layout : FixedLayout XfrmEncapTmpl :=
  ((number order 2).pair <| (number .big 2).pair <| (number .big 2).pair <|
    (number order 2).pair <| block 16).via
    (fun (encapType, encapSport, encapDport, pad, encapOa) =>
      { encapType, encapSport, encapDport, pad, encapOa })
    (fun encap => (encap.encapType, encap.encapSport, encap.encapDport, encap.pad, encap.encapOa))
    (fun _ => rfl)

def XfrmMark.layout : FixedLayout XfrmMark :=
  ((number order 4).pair <| number order 4).via (fun (v, m) => { v, m })
    (fun mark => (mark.v, mark.m)) (fun _ => rfl)

def XfrmUserAcquire.layout : FixedLayout XfrmUserAcquire :=
  ((XfrmId.layout order).pair <| (block 16).pair <| (XfrmSelector.layout order).pair <|
    (XfrmUserpolicyInfo.layout order).pair <| (block 12).pair <| number order 4).via
    (fun (id, saddr, sel, policy, masks, seq) => { id, saddr, sel, policy, masks, seq })
    (fun acquire => (acquire.id, acquire.saddr, acquire.sel, acquire.policy, acquire.masks,
      acquire.seq))
    (fun _ => rfl)

@[simp]
theorem size_selector : (XfrmSelector.layout order).size = 56 := by
  simp [XfrmSelector.layout]

@[simp]
theorem size_usersaInfo : (XfrmUsersaInfo.layout order).size = 224 := by
  simp [XfrmUsersaInfo.layout, XfrmId.layout, XfrmLifetimeCur.layout]

@[simp]
theorem size_userpolicyInfo : (XfrmUserpolicyInfo.layout order).size = 168 := by
  simp [XfrmUserpolicyInfo.layout, XfrmLifetimeCur.layout]

example : (XfrmUserAcquire.layout order).size = 280 := by
  simp [XfrmUserAcquire.layout, XfrmId.layout]

end Layouts

/-!
## What is read
-/

inductive IpsecProtocol where
  | esp
  | ah
  | comp
  | other (number : BitVec 8)

def IpsecProtocol.fromU8 (val : BitVec 8) : IpsecProtocol :=
  if val = 50 then .esp else if val = 51 then .ah else if val = 108 then .comp else .other val

def IpsecProtocol.number : IpsecProtocol → BitVec 8
  | .esp => 50
  | .ah => 51
  | .comp => 108
  | .other number => number

inductive XfrmMode where
  | transport
  | tunnel
  | beet
  | other (number : BitVec 8)

def XfrmMode.fromU8 (val : BitVec 8) : XfrmMode :=
  if val = 0 then .transport else if val = 1 then .tunnel else if val = 4 then .beet
  else .other val

inductive PolicyDirection where
  | incoming
  | outgoing
  | forward
  | unknown (number : BitVec 8)

def PolicyDirection.fromU8 (val : BitVec 8) : PolicyDirection :=
  if val = 0 then .incoming else if val = 1 then .outgoing else if val = 2 then .forward
  else .unknown val

def PolicyDirection.number : PolicyDirection → BitVec 8
  | .incoming => 0
  | .outgoing => 1
  | .forward => 2
  | .unknown number => number

inductive PolicyAction where
  | allow
  | block
  | unknown (number : BitVec 8)

def PolicyAction.fromU8 (val : BitVec 8) : PolicyAction :=
  if val = 0 then .allow else if val = 1 then .block else .unknown val

structure TrafficSelector where
  srcAddr : Option IpAddr
  dstAddr : Option IpAddr
  srcPrefixLen : BitVec 8
  dstPrefixLen : BitVec 8
  srcPort : Option (BitVec 16)
  dstPort : Option (BitVec 16)
  proto : BitVec 8
  deriving DecidableEq

/-- `TrafficSelector::from_selector`. -/
def TrafficSelector.fromSelector (sel : XfrmSelector) : TrafficSelector where
  srcAddr := toIp sel.saddr sel.family
  dstAddr := toIp sel.daddr sel.family
  srcPrefixLen := sel.prefixlenS
  dstPrefixLen := sel.prefixlenD
  srcPort := if sel.sport ≠ 0 then some sel.sport else none
  dstPort := if sel.dport ≠ 0 then some sel.dport else none
  proto := sel.proto

structure XfrmAlgorithm where
  name : String
  keyLen : BitVec 32
  key : List UInt8

/-- `XfrmAlgorithmAead` and `XfrmAlgorithmAuthTrunc`: an algorithm with a second
length, of its integrity check value or of a truncation. -/
structure XfrmAlgorithmLen where
  name : String
  keyLen : BitVec 32
  secondLen : BitVec 32
  key : List UInt8

structure SecurityAssociation where
  srcAddr : Option IpAddr
  dstAddr : Option IpAddr
  spi : BitVec 32
  protocol : IpsecProtocol
  mode : XfrmMode
  reqid : BitVec 32
  selector : TrafficSelector
  encAlg : Option XfrmAlgorithm
  authAlg : Option XfrmAlgorithm
  aeadAlg : Option XfrmAlgorithmLen
  authTruncAlg : Option XfrmAlgorithmLen
  compAlg : Option XfrmAlgorithm
  encap : Option XfrmEncapTmpl
  mark : Option XfrmMark
  ifId : Option (BitVec 32)
  bytes : BitVec 64
  packets : BitVec 64
  replayWindow : BitVec 8
  flags : BitVec 8

structure SecurityPolicy where
  selector : TrafficSelector
  direction : PolicyDirection
  action : PolicyAction
  priority : BitVec 32
  index : BitVec 32
  flags : BitVec 8
  mark : Option XfrmMark
  ifId : Option (BitVec 32)

structure XfrmSaId where
  dstAddr : Option IpAddr
  spi : BitVec 32
  protocol : IpsecProtocol

structure XfrmPolicyId where
  selector : TrafficSelector
  index : BitVec 32
  direction : PolicyDirection

inductive XfrmEvent where
  | newSa (sa : SecurityAssociation)
  | delSa (id : XfrmSaId)
  | expireSa (sa : SecurityAssociation) (hard : Bool)
  | newPolicy (policy : SecurityPolicy)
  | delPolicy (id : XfrmPolicyId)
  | expirePolicy (policy : SecurityPolicy) (hard : Bool)
  | acquire (selector : TrafficSelector) (policy : SecurityPolicy)
  | report (protocol : IpsecProtocol) (selector : TrafficSelector)
  | flushSa
  | flushPolicy
  | other (msgType : Nat)

section Parse

variable (order : ByteOrder)

/-- `parse_nla`: an attribute and the bytes behind it. -/
def parseNla (input : List UInt8) : Option ((Nat × List UInt8) × List UInt8) :=
  let len := order.ofBytes (input.take 2)
  let attrType := order.ofBytes ((input.drop 2).take 2)
  let behind := input.drop 4
  if input.length < 4 ∨ len < 4 ∨ behind.length < len - 4 then
    none
  else
    let rest := behind.drop (len - 4)
    let padding := (len + 3) / 4 * 4 - len
    some ((attrType, behind.take (len - 4)), if padding ≤ rest.length then rest.drop padding else rest)

/-- The attributes up to the first that is malformed; each uses one unit of
fuel. -/
def nlasFrom : Nat → List UInt8 → List (Nat × List UInt8)
  | 0, _ => []
  | fuel + 1, input =>
      match parseNla order input with
      | none => []
      | some (attr, rest) => attr :: nlasFrom fuel rest

def nlas (input : List UInt8) : List (Nat × List UInt8) :=
  nlasFrom order input.length input

/-- `parse_cstring`. -/
def parseCstring (data : List UInt8) : String :=
  fromUtf8Lossy (data.takeWhile (· != 0))

/-- The key behind the fixed part, if it is all there. -/
def keyBehind (fixed : Nat) (keyLen : BitVec 32) (data : List UInt8) : List UInt8 :=
  let keyBytes := (keyLen.toNat + 7) / 8
  if fixed + keyBytes ≤ data.length then (data.drop fixed).take keyBytes else []

/-- `parse_algorithm`. -/
def parseAlgorithm (data : List UInt8) : Option XfrmAlgorithm :=
  if data.length < 68 then
    none
  else
    let keyLen := readU32 order (data.drop 64)
    some { name := parseCstring (data.take 64), keyLen, key := keyBehind 68 keyLen data }

/-- `parse_aead_algorithm` and `parse_auth_trunc_algorithm`. -/
def parseAlgorithmLen (data : List UInt8) : Option XfrmAlgorithmLen :=
  if data.length < 72 then
    none
  else
    let keyLen := readU32 order (data.drop 64)
    let secondLen := readU32 order (data.drop 68)
    some { name := parseCstring (data.take 64), keyLen, secondLen, key := keyBehind 72 keyLen data }

/-- An SA without what attributes say of it. -/
def saOfInfo (info : XfrmUsersaInfo) : SecurityAssociation where
  srcAddr := toIp info.saddr info.family
  dstAddr := toIp info.id.daddr info.family
  spi := info.id.spi
  protocol := .fromU8 info.id.proto
  mode := .fromU8 info.mode
  reqid := info.reqid
  selector := .fromSelector info.sel
  encAlg := none
  authAlg := none
  aeadAlg := none
  authTruncAlg := none
  compAlg := none
  encap := none
  mark := none
  ifId := none
  bytes := info.curlft.bytes
  packets := info.curlft.packets
  replayWindow := info.replayWindow
  flags := info.flags

/-- What an attribute says of an SA. -/
def SecurityAssociation.addAttr (sa : SecurityAssociation) (attr : Nat × List UInt8) :
    SecurityAssociation :=
  let (attrType, data) := attr
  match attrType with
  | 2 => { sa with encAlg := parseAlgorithm order data }
  | 1 => { sa with authAlg := parseAlgorithm order data }
  | 18 => { sa with aeadAlg := parseAlgorithmLen order data }
  | 20 => { sa with authTruncAlg := parseAlgorithmLen order data }
  | 3 => { sa with compAlg := parseAlgorithm order data }
  | 4 => { sa with encap := ((XfrmEncapTmpl.layout order).fromPrefix? data).or sa.encap }
  | 21 => { sa with mark := ((XfrmMark.layout order).fromPrefix? data).or sa.mark }
  | 31 => { sa with ifId := if 4 ≤ data.length then some (readU32 order data) else sa.ifId }
  | _ => sa

/-- `parse_sa_payload`. -/
def parseSaPayload (msgData : List UInt8) : Option SecurityAssociation :=
  let layout := XfrmUsersaInfo.layout order
  (layout.fromPrefix? msgData).map fun info =>
    (nlas order (msgData.drop layout.size)).foldl (SecurityAssociation.addAttr order) (saOfInfo info)

/-- A policy without what attributes say of it. -/
def policyOfInfo (info : XfrmUserpolicyInfo) : SecurityPolicy where
  selector := .fromSelector info.sel
  direction := .fromU8 info.dir
  action := .fromU8 info.action
  priority := info.priority
  index := info.index
  flags := info.flags
  mark := none
  ifId := none

def SecurityPolicy.addAttr (policy : SecurityPolicy) (attr : Nat × List UInt8) : SecurityPolicy :=
  let (attrType, data) := attr
  match attrType with
  | 21 => { policy with mark := ((XfrmMark.layout order).fromPrefix? data).or policy.mark }
  | 31 => { policy with ifId := if 4 ≤ data.length then some (readU32 order data) else policy.ifId }
  | _ => policy

/-- `parse_sp_payload`. -/
def parseSpPayload (msgData : List UInt8) : Option SecurityPolicy :=
  let layout := XfrmUserpolicyInfo.layout order
  (layout.fromPrefix? msgData).map fun info =>
    (nlas order (msgData.drop layout.size)).foldl (SecurityPolicy.addAttr order) (policyOfInfo info)

def XFRM_MSG_NEWSA : Nat := 16
def XFRM_MSG_DELSA : Nat := 17
def XFRM_MSG_GETSA : Nat := 18
def XFRM_MSG_NEWPOLICY : Nat := 19
def XFRM_MSG_DELPOLICY : Nat := 20
def XFRM_MSG_GETPOLICY : Nat := 21
def XFRM_MSG_ACQUIRE : Nat := 23
def XFRM_MSG_EXPIRE : Nat := 24
def XFRM_MSG_UPDPOLICY : Nat := 25
def XFRM_MSG_UPDSA : Nat := 26
def XFRM_MSG_POLEXPIRE : Nat := 27
def XFRM_MSG_FLUSHSA : Nat := 28
def XFRM_MSG_FLUSHPOLICY : Nat := 29
def XFRM_MSG_REPORT : Nat := 32

/-- The first bytes, if there are so many. -/
def prefix? (size : Nat) (body : List UInt8) : Option (List UInt8) :=
  if body.length < size then none else some (body.take size)

/-- `parse_xfrm_event`. -/
def parseXfrmEvent (msgType : Nat) (body : List UInt8) : Option XfrmEvent :=
  if msgType = XFRM_MSG_NEWSA ∨ msgType = XFRM_MSG_UPDSA then
    (parseSaPayload order body).map .newSa
  else if msgType = XFRM_MSG_DELSA then
    ((XfrmUsersaId.layout order).fromPrefix? body).map fun id =>
      .delSa
        { dstAddr := toIp id.daddr id.family
          spi := id.spi
          protocol := .fromU8 id.proto }
  else if msgType = XFRM_MSG_EXPIRE then do
    let infoSize := (XfrmUsersaInfo.layout order).size
    let sa ← parseSaPayload order (← prefix? infoSize body)
    return .expireSa sa (body.getD infoSize 0 != 0)
  else if msgType = XFRM_MSG_NEWPOLICY ∨ msgType = XFRM_MSG_UPDPOLICY then
    (parseSpPayload order body).map .newPolicy
  else if msgType = XFRM_MSG_DELPOLICY then
    ((XfrmUserpolicyId.layout order).fromPrefix? body).map fun id =>
      .delPolicy
        { selector := .fromSelector id.sel
          index := id.index
          direction := .fromU8 id.dir }
  else if msgType = XFRM_MSG_POLEXPIRE then do
    let infoSize := (XfrmUserpolicyInfo.layout order).size
    let policy ← parseSpPayload order (← prefix? infoSize body)
    return .expirePolicy policy (body.getD infoSize 0 != 0)
  else if msgType = XFRM_MSG_ACQUIRE then
    ((XfrmUserAcquire.layout order).fromPrefix? body).map fun acquire =>
      .acquire (.fromSelector acquire.sel) (policyOfInfo acquire.policy)
  else if msgType = XFRM_MSG_REPORT then do
    let proto ← body.head?
    let sel ← (XfrmSelector.layout order).fromPrefix? (body.drop 4)
    return .report (.fromU8 proto.toBitVec) (.fromSelector sel)
  else if msgType = XFRM_MSG_FLUSHSA then
    -- The protocol in the body is not read.
    some .flushSa
  else if msgType = XFRM_MSG_FLUSHPOLICY then
    some .flushPolicy
  else if msgType = XFRM_MSG_GETSA ∨ msgType = XFRM_MSG_GETPOLICY then
    none
  else if XFRM_MSG_NEWSA ≤ msgType ∧ msgType ≤ XFRM_MSG_REPORT + 6 then
    some (.other msgType)
  else
    none

end Parse

end Nlink.Xfrm
