import Mathlib.Data.Vector.Defs
import Nlink.Foundation.Collect
import Nlink.GenlRequest
import Nlink.WireguardConfig

namespace Nlink.Macsec

open Foundation Netlink
open List hiding Vector
open Wireguard (getU8 getU32Ne getU64Ne)

/-!
# MACsec interfaces

What the kernel has of a MACsec interface, the message in which it sends it, and
the device that is folded from the messages of a dump.
-/

inductive MacsecCipherSuite where
  | gcmAes128
  | gcmAes256
  | gcmAesXpn128
  | gcmAesXpn256

namespace MacsecCipherSuite

def toU64 : MacsecCipherSuite → BitVec 64
  | .gcmAes128 => 0x0080020001000001
  | .gcmAes256 => 0x0080C20001000001
  | .gcmAesXpn128 => 0x0080C20001000002
  | .gcmAesXpn256 => 0x0080C20001000003

def fromU64 (value : BitVec 64) : Option MacsecCipherSuite :=
  [gcmAes128, gcmAes256, gcmAesXpn128, gcmAesXpn256].find? fun cipher => cipher.toU64 = value

def keyLen : MacsecCipherSuite → Nat
  | .gcmAes128 | .gcmAesXpn128 => 16
  | .gcmAes256 | .gcmAesXpn256 => 32

def isXpn : MacsecCipherSuite → Bool
  | .gcmAesXpn128 | .gcmAesXpn256 => true
  | .gcmAes128 | .gcmAes256 => false

end MacsecCipherSuite

inductive MacsecValidate where
  | disabled
  | check
  | strict

namespace MacsecValidate

def toU8 : MacsecValidate → BitVec 8
  | .disabled => 0
  | .check => 1
  | .strict => 2

def fromU8 (value : UInt8) : MacsecValidate :=
  if value = 1 then .check else if value = 2 then .strict else .disabled

end MacsecValidate

inductive MacsecOffload where
  | off
  | phy
  | mac

namespace MacsecOffload

def toU8 : MacsecOffload → BitVec 8
  | .off => 0
  | .phy => 1
  | .mac => 2

def fromU8 (value : UInt8) : MacsecOffload :=
  if value = 1 then .phy else if value = 2 then .mac else .off

end MacsecOffload

/-!
## What the kernel has
-/

/-- A secure association. -/
structure Association where
  an : BitVec 8
  active : Bool
  pn : BitVec 64
  key : List UInt8
  keyId : Vector UInt8 16

/-- A receive channel. -/
structure Channel where
  sci : BitVec 64
  active : Bool
  sas : List Association
  stats : List (BitVec 64)

/-- A MACsec interface. -/
structure Interface where
  ifindex : BitVec 32
  sci : BitVec 64
  encodingSa : BitVec 8
  window : BitVec 32
  cipher : MacsecCipherSuite
  icvLen : BitVec 8
  protect : Bool
  replay : Bool
  oper : Bool
  validate : MacsecValidate
  encrypt : Bool
  includeSci : Bool
  endStation : Bool
  scb : Bool
  offload : MacsecOffload
  txSas : List Association
  rxScs : List Channel
  txScStats : List (BitVec 64)
  secyStats : List (BitVec 64)

section Dump

open Writer

variable {order : ByteOrder}

/-- A list of nests, numbered from one. -/
def entries (bodies : List (Writer order)) : Writer order :=
  all ((bodies.zipIdx 1).map fun (body, index) => plainNest index body)

def counters (values : List (BitVec 64)) : Writer order :=
  all ((values.zipIdx 1).map fun (value, index) => u64 index value)

def boolU8 (attrType : Nat) (value : Bool) : Writer order :=
  u8 attrType (if value then 1 else 0)

/-- A packet number has eight bytes under a cipher of extended numbers. -/
def Association.message (xpn : Bool) (sa : Association) : Writer order :=
  all
    [u8 1 sa.an, boolU8 2 sa.active,
      if xpn then u64 3 sa.pn else u32 3 (sa.pn.setWidth 32),
      attr 5 sa.keyId.toList]

def Channel.message (xpn : Bool) (channel : Channel) : Writer order :=
  all
    [u64 1 channel.sci, boolU8 2 channel.active,
      plainNest 3 (entries (channel.sas.map (Association.message xpn))),
      plainNest 4 (counters channel.stats)]

/-- The settings in the nest of the interface's security entity. -/
def Interface.secy (self : Interface) : Writer order :=
  all
    [u64 1 self.sci, u8 2 self.encodingSa, u32 3 self.window,
      u64 4 self.cipher.toU64, u8 5 self.icvLen, boolU8 6 self.protect,
      boolU8 7 self.replay, boolU8 8 self.oper, u8 9 self.validate.toU8,
      boolU8 10 self.encrypt, boolU8 11 self.includeSci,
      boolU8 12 self.endStation, boolU8 13 self.scb]

/-- The attributes of the interface's message in a dump. -/
def Interface.message (self : Interface) : Writer order :=
  all
    [u32 1 self.ifindex, plainNest 4 self.secy, plainNest 5
        (entries (self.txSas.map (Association.message self.cipher.isXpn))),
      plainNest 6 (entries (self.rxScs.map (Channel.message self.cipher.isXpn))),
      plainNest 7 (counters self.txScStats),
      plainNest 8 (counters self.secyStats),
      plainNest 9 (u8 1 self.offload.toU8)]

end Dump

/-- An interface whose message can be sent: its attributes fit their length
fields. -/
structure DumpedInterface (order : ByteOrder) extends Interface where
  fits : ∀ attr ∈ (toInterface.message : Writer order).attrs, attr.Fits

/-- The messages of a dump: one for each interface, behind its headers.  The
attributes of the request are ignored. -/
def dumpTxSc {order : ByteOrder} (header : Vector UInt8 (NLMSG_HDRLEN + GENL_HDRLEN))
    (interfaces : List (DumpedInterface order)) :
    List (List UInt8) :=
  interfaces.map fun interface =>
    header.toList ++ encodeAll order (interface.message : Writer order).attrs

/-!
## What is read
-/

namespace MacsecAttr

def IFINDEX : Nat := 1
def RXSC_CONFIG : Nat := 2
def RXSC_STATS : Nat := 3
def SA_CONFIG : Nat := 4
def SECY_CONFIG : Nat := 6
def TXSC_STATS : Nat := 8
def RXSC_LIST : Nat := 9
def TXSA_LIST : Nat := 10
def OFFLOAD : Nat := 11

end MacsecAttr

namespace MacsecRxScAttr

def SCI : Nat := 1
def ACTIVE : Nat := 2
def SA_LIST : Nat := 3

end MacsecRxScAttr

namespace MacsecSaAttr

def AN : Nat := 1
def ACTIVE : Nat := 2
def PN : Nat := 3
def KEY : Nat := 4
def KEYID : Nat := 5

end MacsecSaAttr

namespace MacsecSecyAttr

def SCI : Nat := 1
def ENCODING_SA : Nat := 2
def WINDOW : Nat := 3
def CIPHER_SUITE : Nat := 4
def ICV_LEN : Nat := 5
def ENCRYPT : Nat := 6
def PROTECT : Nat := 7
def REPLAY : Nat := 8
def VALIDATE : Nat := 9
def INC_SCI : Nat := 11
def ES : Nat := 12
def SCB : Nat := 13

end MacsecSecyAttr

namespace MacsecTxScStatsAttr

def OUT_PKTS_PROTECTED : Nat := 1
def OUT_PKTS_ENCRYPTED : Nat := 2
def OUT_OCTETS_PROTECTED : Nat := 3
def OUT_OCTETS_ENCRYPTED : Nat := 4

end MacsecTxScStatsAttr

namespace MacsecRxScStatsAttr

def IN_PKTS_OK : Nat := 1
def IN_PKTS_INVALID : Nat := 5
def IN_PKTS_NOT_VALID : Nat := 6
def IN_OCTETS_VALIDATED : Nat := 7
def IN_OCTETS_DECRYPTED : Nat := 8

end MacsecRxScStatsAttr

def MacsecOffloadAttr.TYPE : Nat := 1

/-- `MacsecTxSa` and `MacsecRxSa`. -/
structure MacsecSa where
  an : UInt8 := 0
  active : Bool := false
  pn : BitVec 64 := 0
  keyId : Option (List UInt8) := none

structure MacsecTxSc where
  sci : BitVec 64 := 0
  sas : List MacsecSa := []
  statsProtectedPkts : BitVec 64 := 0
  statsEncryptedPkts : BitVec 64 := 0
  statsProtectedOctets : BitVec 64 := 0
  statsEncryptedOctets : BitVec 64 := 0

structure MacsecRxSc where
  sci : BitVec 64 := 0
  active : Bool := false
  sas : List MacsecSa := []
  statsOkPkts : BitVec 64 := 0
  statsInvalidPkts : BitVec 64 := 0
  statsNotValidPkts : BitVec 64 := 0
  statsValidatedOctets : BitVec 64 := 0
  statsDecryptedOctets : BitVec 64 := 0

structure MacsecDevice where
  ifindex : BitVec 32 := 0
  sci : BitVec 64 := 0
  cipher : MacsecCipherSuite := .gcmAes128
  icvLen : UInt8 := 0
  encodingSa : UInt8 := 0
  encrypt : Bool := false
  protect : Bool := false
  replayProtect : Bool := false
  replayWindow : BitVec 32 := 0
  validate : MacsecValidate := .check
  includeSci : Bool := false
  endStation : Bool := false
  scb : Bool := false
  offload : MacsecOffload := .off
  txSc : Option MacsecTxSc := none
  rxScs : List MacsecRxSc := []

section Parse

variable (order : ByteOrder)

/-- A loop over the attributes of a payload. -/
def eachAttr {α : Type} (step : α → Attribute → Except Wireguard.Error α)
    (data : List UInt8) (start : α) : Except Wireguard.Error α :=
  (attrIter order data).foldlM step start

def parseSecyConfig (data : List UInt8) (device : MacsecDevice) :
    Except Wireguard.Error MacsecDevice :=
  eachAttr order secyAttr data device
where
  secyAttr (device : MacsecDevice) : Attribute →
      Except Wireguard.Error MacsecDevice := fun (attrType, payload) =>
    if attrType = MacsecSecyAttr.SCI then
      (getU64Ne order payload).map fun sci => { device with sci := sci }
    else if attrType = MacsecSecyAttr.ENCODING_SA then
      (getU8 payload).map fun an => { device with encodingSa := an }
    else if attrType = MacsecSecyAttr.WINDOW then
      (getU32Ne order payload).map fun window => { device with replayWindow := window }
    else if attrType = MacsecSecyAttr.CIPHER_SUITE then
      (getU64Ne order payload).map fun cipherId =>
        { device with cipher := (MacsecCipherSuite.fromU64 cipherId).getD .gcmAes128 }
    else if attrType = MacsecSecyAttr.ICV_LEN then
      (getU8 payload).map fun icvLen => { device with icvLen := icvLen }
    else if attrType = MacsecSecyAttr.ENCRYPT then
      (getU8 payload).map fun value : UInt8 => { device with encrypt := value != 0 }
    else if attrType = MacsecSecyAttr.PROTECT then
      (getU8 payload).map fun value : UInt8 => { device with protect := value != 0 }
    else if attrType = MacsecSecyAttr.REPLAY then
      (getU8 payload).map fun value : UInt8 => { device with replayProtect := value != 0 }
    else if attrType = MacsecSecyAttr.VALIDATE then
      (getU8 payload).map fun value => { device with validate := .fromU8 value }
    else if attrType = MacsecSecyAttr.INC_SCI then
      (getU8 payload).map fun value : UInt8 => { device with includeSci := value != 0 }
    else if attrType = MacsecSecyAttr.ES then
      (getU8 payload).map fun value : UInt8 => { device with endStation := value != 0 }
    else if attrType = MacsecSecyAttr.SCB then
      (getU8 payload).map fun value : UInt8 => { device with scb := value != 0 }
    else
      .ok device

/-- `device.tx_sc.get_or_insert_with(MacsecTxSc::default)`. -/
def MacsecDevice.txScOrDefault (device : MacsecDevice) : MacsecTxSc :=
  device.txSc.getD {}

def parseTxScStats (data : List UInt8) (device : MacsecDevice) :
    Except Wireguard.Error MacsecDevice :=
  (eachAttr order statsAttr data device.txScOrDefault).map fun txSc =>
    { device with txSc := some txSc }
where
  statsAttr (txSc : MacsecTxSc) : Attribute →
      Except Wireguard.Error MacsecTxSc := fun (attrType, payload) =>
    if attrType = MacsecTxScStatsAttr.OUT_PKTS_PROTECTED then
      (getU64Ne order payload).map fun value => { txSc with statsProtectedPkts := value }
    else if attrType = MacsecTxScStatsAttr.OUT_PKTS_ENCRYPTED then
      (getU64Ne order payload).map fun value => { txSc with statsEncryptedPkts := value }
    else if attrType = MacsecTxScStatsAttr.OUT_OCTETS_PROTECTED then
      (getU64Ne order payload).map fun value => { txSc with statsProtectedOctets := value }
    else if attrType = MacsecTxScStatsAttr.OUT_OCTETS_ENCRYPTED then
      (getU64Ne order payload).map fun value => { txSc with statsEncryptedOctets := value }
    else
      .ok txSc

/-- A packet number has four bytes or eight. -/
def parsePn (payload : List UInt8) (pn : BitVec 64) : Except Wireguard.Error (BitVec 64) :=
  if 8 ≤ payload.length then
    getU64Ne order payload
  else if 4 ≤ payload.length then
    (getU32Ne order payload).map (·.setWidth 64)
  else
    .ok pn

def parseSaAttrs (data : List UInt8) : Except Wireguard.Error MacsecSa :=
  eachAttr order saAttr data {}
where
  saAttr (sa : MacsecSa) : Attribute → Except Wireguard.Error MacsecSa :=
      fun (attrType, payload) =>
    if attrType = MacsecSaAttr.AN then
      (getU8 payload).map fun an => { sa with an := an }
    else if attrType = MacsecSaAttr.ACTIVE then
      (getU8 payload).map fun value : UInt8 => { sa with active := value != 0 }
    else if attrType = MacsecSaAttr.PN then
      (parsePn order payload sa.pn).map fun pn => { sa with pn := pn }
    else if attrType = MacsecSaAttr.KEYID ∧ 16 ≤ payload.length then
      .ok { sa with keyId := some (payload.take 16) }
    else
      .ok sa

def parseTxSaList (data : List UInt8) (device : MacsecDevice) :
    Except Wireguard.Error MacsecDevice :=
  let txSc := { device.txScOrDefault with sci := device.sci }
  (eachAttr order entry data txSc).map fun txSc => { device with txSc := some txSc }
where
  entry (txSc : MacsecTxSc) : Attribute → Except Wireguard.Error MacsecTxSc :=
      fun (_, saData) =>
    (parseSaAttrs order saData).map fun sa => { txSc with sas := txSc.sas ++ [sa] }

def parseRxScStatsAttrs (data : List UInt8) (rxSc : MacsecRxSc) :
    Except Wireguard.Error MacsecRxSc :=
  eachAttr order statsAttr data rxSc
where
  statsAttr (rxSc : MacsecRxSc) : Attribute →
      Except Wireguard.Error MacsecRxSc := fun (attrType, payload) =>
    if attrType = MacsecRxScStatsAttr.IN_PKTS_OK then
      (getU64Ne order payload).map fun value => { rxSc with statsOkPkts := value }
    else if attrType = MacsecRxScStatsAttr.IN_PKTS_INVALID then
      (getU64Ne order payload).map fun value => { rxSc with statsInvalidPkts := value }
    else if attrType = MacsecRxScStatsAttr.IN_PKTS_NOT_VALID then
      (getU64Ne order payload).map fun value => { rxSc with statsNotValidPkts := value }
    else if attrType = MacsecRxScStatsAttr.IN_OCTETS_VALIDATED then
      (getU64Ne order payload).map fun value => { rxSc with statsValidatedOctets := value }
    else if attrType = MacsecRxScStatsAttr.IN_OCTETS_DECRYPTED then
      (getU64Ne order payload).map fun value => { rxSc with statsDecryptedOctets := value }
    else
      .ok rxSc

def parseRxScAttrs (data : List UInt8) : Except Wireguard.Error MacsecRxSc := do
  let rxSc ← eachAttr order rxScAttr data {}
  eachAttr order nestedStats data rxSc
where
  rxScAttr (rxSc : MacsecRxSc) : Attribute →
      Except Wireguard.Error MacsecRxSc := fun (attrType, payload) =>
    if attrType = MacsecRxScAttr.SCI then
      (getU64Ne order payload).map fun sci => { rxSc with sci := sci }
    else if attrType = MacsecRxScAttr.ACTIVE then
      (getU8 payload).map fun value : UInt8 => { rxSc with active := value != 0 }
    else if attrType = MacsecRxScAttr.SA_LIST then
      eachAttr order saEntry payload rxSc
    else
      .ok rxSc
  saEntry (rxSc : MacsecRxSc) : Attribute → Except Wireguard.Error MacsecRxSc :=
      fun (_, saData) =>
    (parseSaAttrs order saData).map fun sa => { rxSc with sas := rxSc.sas ++ [sa] }
  nestedStats (rxSc : MacsecRxSc) : Attribute →
      Except Wireguard.Error MacsecRxSc := fun (attrType, payload) =>
    if attrType = MacsecAttr.RXSC_STATS then parseRxScStatsAttrs order payload rxSc else .ok rxSc

def parseRxScList (data : List UInt8) (device : MacsecDevice) :
    Except Wireguard.Error MacsecDevice :=
  eachAttr order entry data device
where
  entry (device : MacsecDevice) : Attribute →
      Except Wireguard.Error MacsecDevice := fun (_, rxScData) =>
    (parseRxScAttrs order rxScData).map fun rxSc => { device with rxScs := device.rxScs ++ [rxSc] }

def parseOffload (data : List UInt8) (device : MacsecDevice) :
    Except Wireguard.Error MacsecDevice :=
  eachAttr order offloadAttr data device
where
  offloadAttr (device : MacsecDevice) : Attribute →
      Except Wireguard.Error MacsecDevice := fun (attrType, payload) =>
    if attrType = MacsecOffloadAttr.TYPE then
      (getU8 payload).map fun value => { device with offload := .fromU8 value }
    else
      .ok device

def deviceAttr (device : MacsecDevice) : Attribute →
    Except Wireguard.Error MacsecDevice := fun (attrType, payload) =>
  if attrType = MacsecAttr.IFINDEX then
    (getU32Ne order payload).map fun ifindex => { device with ifindex := ifindex }
  else if attrType = MacsecAttr.SECY_CONFIG then
    parseSecyConfig order payload device
  else if attrType = MacsecAttr.TXSC_STATS then
    parseTxScStats order payload device
  else if attrType = MacsecAttr.TXSA_LIST then
    parseTxSaList order payload device
  else if attrType = MacsecAttr.RXSC_LIST then
    parseRxScList order payload device
  else if attrType = MacsecAttr.OFFLOAD then
    parseOffload order payload device
  else
    .ok device

def parseDeviceAttrs (data : List UInt8) (device : MacsecDevice) :
    Except Wireguard.Error MacsecDevice :=
  eachAttr order (deviceAttr order) data device

inductive Error where
  | interfaceNotFound (name : String)
  | attribute (error : Wireguard.Error)
  | kernel (errno : Nat)

/-- One response of the loop in `get_device_by_index`. -/
def parseResponse (device : MacsecDevice) (response : List UInt8) :
    Except Wireguard.Error MacsecDevice :=
  if response.length < NLMSG_HDRLEN + GENL_HDRLEN then
    .ok device
  else
    parseDeviceAttrs order (response.drop (NLMSG_HDRLEN + GENL_HDRLEN)) device

/-- `get_device_by_index`, for the responses of its dump. -/
def getDeviceByIndex (responses : List (List UInt8)) (ifindex : BitVec 32) :
    Except Error MacsecDevice :=
  if responses = [] then
    .error (.interfaceNotFound s!"ifindex {ifindex.toNat}")
  else
    (responses.foldlM (parseResponse order) { ifindex := ifindex }).mapError .attribute

end Parse

/-!
## What is read of a dump

The kernel numbers the attributes of its message otherwise than the parser does.
The list of channels is read as settings, the counters of the security entity as
those of the transmit channel, and the nest of the offload as a list of
channels.  Each message adds a channel that is not there.
-/

variable {order : ByteOrder}

/-- What an association of the kernel is to be read as. -/
def Association.asRead (sa : Association) : MacsecSa where
  an := .ofBitVec sa.an
  active := sa.active
  pn := sa.pn
  keyId := some sa.keyId.toList

/-- The identifier, the flag and the associations of a channel. -/
def Channel.asRead (channel : Channel) : BitVec 64 × Bool × List MacsecSa :=
  (channel.sci, channel.active, channel.sas.map Association.asRead)

def MacsecRxSc.summary (rxSc : MacsecRxSc) : BitVec 64 × Bool × List MacsecSa :=
  (rxSc.sci, rxSc.active, rxSc.sas)

/-- The device has the settings of the interface, and its associations and
channels once each. -/
structure Describes (device : MacsecDevice) (interface : Interface) : Prop where
  ifindex : device.ifindex = interface.ifindex
  sci : device.sci = interface.sci
  cipher : device.cipher = interface.cipher
  icvLen : device.icvLen = .ofBitVec interface.icvLen
  encodingSa : device.encodingSa = .ofBitVec interface.encodingSa
  encrypt : device.encrypt = interface.encrypt
  protect : device.protect = interface.protect
  replayProtect : device.replayProtect = interface.replay
  replayWindow : device.replayWindow = interface.window
  validate : device.validate = interface.validate
  includeSci : device.includeSci = interface.includeSci
  endStation : device.endStation = interface.endStation
  scb : device.scb = interface.scb
  offload : device.offload = interface.offload
  txSci : ∀ txSc, device.txSc = some txSc → txSc.sci = interface.sci
  txSas : List.Perm device.txScOrDefault.sas (interface.txSas.map Association.asRead)
  rxScs : List.Perm (device.rxScs.map MacsecRxSc.summary) (interface.rxScs.map Channel.asRead)

/-- The call describes the interface that was asked for, and fails if there is
none. -/
def AnswersFor (header : Vector UInt8 (NLMSG_HDRLEN + GENL_HDRLEN))
    (interfaces : List (DumpedInterface order))
    (ifindex : BitVec 32) : Prop :=
  let answer := getDeviceByIndex order (dumpTxSc header interfaces) ifindex
  (∀ interface ∈ interfaces, interface.ifindex = ifindex →
    ∃ device, answer = .ok device ∧ Describes device interface.toInterface) ∧
  ((∀ interface ∈ interfaces, interface.ifindex ≠ ifindex) → ∃ error, answer = .error error)

/-!
## Payloads
-/

/-- A payload that is read as a number other than zero. -/
def ReadsNonzero (order : ByteOrder) (payload : List UInt8) : Prop :=
  ∃ value, getU64Ne order payload = .ok value ∧ value ≠ 0

variable {payload : List UInt8}

theorem getU64Ne_eq_ok (long : 8 ≤ payload.length) : getU64Ne order payload =
      .ok (BitVec.ofNat 64 (order.ofBytes (payload.take 8))) :=
  if_neg (Nat.not_lt_of_le long)

theorem getU32Ne_eq_ok (long : 4 ≤ payload.length) : getU32Ne order payload =
      .ok (BitVec.ofNat 32 (order.ofBytes (payload.take 4))) :=
  if_neg (Nat.not_lt_of_le long)

theorem getU8_eq_ok (long : 0 < payload.length) : ∃ value, getU8 payload = .ok value := by
  cases payload with
  | nil => cases long
  | cons byte rest => exact ⟨byte, rfl⟩

theorem ReadsNonzero.long (nonzero : ReadsNonzero order payload) : 8 ≤ payload.length := by
  obtain ⟨value, isOk, -⟩ := nonzero
  by_contra short
  rw [getU64Ne, Wireguard.getNe, if_pos (Nat.lt_of_not_le short)] at isOk
  cases isOk

theorem readsNonzero_of_header (rest : List UInt8)
    (opening : payload = order.toBytes 2 12 ++ order.toBytes 2 1 ++ rest) (long : 4 ≤ rest.length) :
    ReadsNonzero order payload := by
  have isLong : 8 ≤ payload.length := by
    rw [opening]
    simp
    omega
  refine ⟨_, getU64Ne_eq_ok isLong, ?_⟩
  intro isZero
  have bytesLength : (payload.take 8).length = 8 := by rw [length_take, Nat.min_eq_left isLong]
  have bounded := order.ofBytes_lt (payload.take 8)
  rw [bytesLength] at bounded
  have number : order.ofBytes (payload.take 8) = 0 := by
    have asNat := congrArg BitVec.toNat isZero
    rw [BitVec.toNat_ofNat, Nat.mod_eq_of_lt (by omega)] at asNat
    exact asNat
  have bytes := order.toBytes_ofBytes (payload.take 8)
  rw [bytesLength, number] at bytes
  have front := congrArg (List.take 4) bytes
  rw [take_take, opening, List.append_assoc, take_append, take_append] at front
  revert front
  cases order <;> simp [ByteOrder.toBytes, littleEndian]

/-!
## Lists of nests
-/

theorem attrs_entries (bodies : List (Writer order)) : (entries bodies).attrs =
      numbered (bodies.map fun body => encodeAll order body.attrs) := by
  rw [entries, Writer.attrs_all, numbered, flatMap_map, zipIdx_map, map_map, map_eq_flatMap]
  rfl

theorem attrs_counters (values : List (BitVec 64)) : (counters values : Writer order).attrs =
      numbered (values.map fun value => order.toBytes 8 value.toNat) := by
  rw [counters, Writer.attrs_all, numbered, flatMap_map, zipIdx_map, map_map, map_eq_flatMap]
  rfl

/-!
## The list of channels read as settings
-/

/-- What is kept where the list of channels is read as settings. -/
structure Misread (before after : MacsecDevice) : Prop where
  ifindex : after.ifindex = before.ifindex
  txSc : after.txSc = before.txSc
  rxScs : after.rxScs = before.rxScs
  sci : before.sci ≠ 0 → after.sci ≠ 0

variable (device : MacsecDevice)

theorem Misread.refl : Misread device device :=
  ⟨rfl, rfl, rfl, id⟩

theorem Misread.trans {first second third : MacsecDevice} (before : Misread first second)
    (after : Misread second third) :
    Misread first third where
  ifindex := after.ifindex.trans before.ifindex
  txSc := after.txSc.trans before.txSc
  rxScs := after.rxScs.trans before.rxScs
  sci := after.sci ∘ before.sci

/-- A channel is read as one setting, and the first one as the identifier. -/
def ReadsSetting (device : MacsecDevice) (attrType : Nat)
    (result : Except Wireguard.Error MacsecDevice) : Prop :=
  ∃ after, result = .ok after ∧ Misread device after ∧
    (attrType = MacsecSecyAttr.SCI → after.sci ≠ 0)

theorem secyAttr_misreads {attr : Attribute} (nonzero : ReadsNonzero order attr.2) :
    ReadsSetting device attr.1 (parseSecyConfig.secyAttr order device attr) := by
  obtain ⟨byte, isByte⟩ := getU8_eq_ok (Nat.lt_of_lt_of_le (by decide) nonzero.long)
  have isWord := @getU32Ne_eq_ok order _ (Nat.le_trans (by decide) nonzero.long)
  obtain ⟨value, isValue, notZero⟩ := nonzero
  obtain ⟨attrType, payload⟩ := attr
  simp only at isByte isWord isValue
  simp only [parseSecyConfig.secyAttr, isByte, isWord, isValue, Except.map]
  refine iteInduction (fun _ => ⟨_, rfl, ⟨rfl, rfl, rfl, fun _ => notZero⟩, fun _ => notZero⟩)
    (fun notSci => ?_)
  have other : ∀ after, Misread device after → ReadsSetting device attrType (.ok after) :=
    fun after misread => ⟨after, rfl, misread, fun isSci => absurd isSci notSci⟩
  -- One field for each of the other settings, whatever the channel's bytes.
  iterate 11
    refine iteInduction (fun _ => other _ ⟨rfl, rfl, rfl, id⟩) (fun _ => ?_)
  exact other device (.refl device)

theorem readsNonzero_of_identifier (payload : List UInt8) (isLong : payload.length = 8)
    (attrs : List Attribute) : ReadsNonzero order (encodeAll order ((1, payload) :: attrs)) := by
  refine readsNonzero_of_header (payload ++ (padding 12 ++ encodeAll order attrs)) ?_ ?_
  · rw [encodeAll, flatMap_cons, Nftables.Attrs.attrBytes, isLong]
    simp only [List.append_assoc]
    rfl
  · rw [length_append, isLong]
    omega

theorem channel_readsNonzero (xpn : Bool) (channel : Channel) : ReadsNonzero order
      (encodeAll order (channel.message xpn : Writer order).attrs) :=
  readsNonzero_of_identifier (order.toBytes 8 channel.sci.toNat) (order.toBytes_length _ _) _

theorem misreads_of_nonzero {attrs : List Attribute}
    (nonzero : ∀ attr ∈ attrs, ReadsNonzero order attr.2) (device : MacsecDevice) :
    ∃ after, attrs.foldlM (parseSecyConfig.secyAttr order) device = .ok after ∧
      Misread device after := by
  refine exists_of_foldlM ?_ (.refl device)
  intro attr member state kept
  obtain ⟨after, isOk, misread, -⟩ := secyAttr_misreads state (nonzero attr member)
  exact ⟨after, isOk, kept.trans misread⟩

theorem parseSecyConfig_numbered {payloads : List (List UInt8)}
    (nonzero : ∀ payload ∈ payloads, ReadsNonzero order payload)
    (short : (encodeAll order (numbered payloads)).length ≤ 65535) :
    ∃ after, parseSecyConfig order (encodeAll order (numbered payloads)) device = .ok after ∧
      Misread device after ∧ (payloads ≠ [] → after.sci ≠ 0) := by
  rw [parseSecyConfig, eachAttr, attrIter_numbered order short]
  cases payloads with
  | nil => exact ⟨device, rfl, .refl device, fun notNil => absurd rfl notNil⟩
  | cons payload rest =>
      obtain ⟨first, restNonzero⟩ := forall_mem_cons.mp nonzero
      have firstAttr : numbered (payload :: rest) = (1, payload) :: (rest.zipIdx 2).map Prod.swap :=
        rfl
      have later : ∀ attr ∈ (rest.zipIdx 2).map Prod.swap, ReadsNonzero order attr.2 := by
        intro attr member
        obtain ⟨⟨payload, index⟩, inRest, rfl⟩ := mem_map.mp member
        exact restNonzero payload (fst_mem_of_mem_zipIdx inRest)
      obtain ⟨next, isNext, misread, isSci⟩ :=
        secyAttr_misreads device (show ReadsNonzero order ((1, payload) : Attribute).2 from first)
      obtain ⟨after, isOk, misreadLater⟩ := misreads_of_nonzero later next
      refine ⟨after, ?_, misread.trans misreadLater, fun _ => ?_⟩
      · rw [firstAttr, foldlM_cons, isNext]
        exact isOk
      · exact misreadLater.sci (isSci rfl)

/-!
## One message
-/

theorem parseTxScStats_numbered {payloads : List (List UInt8)}
    (long : ∀ payload ∈ payloads, 8 ≤ payload.length)
    (short : (encodeAll order (numbered payloads)).length ≤ 65535) :
    ∃ txSc, parseTxScStats order (encodeAll order (numbered payloads)) device =
        .ok { device with txSc := some txSc } ∧
      txSc.sci = device.txScOrDefault.sci := by
  rw [parseTxScStats, eachAttr, attrIter_numbered order short]
  have folded : ∃ txSc, (numbered payloads).foldlM (parseTxScStats.statsAttr order)
        device.txScOrDefault = .ok txSc ∧
      txSc.sci = device.txScOrDefault.sci := by
    refine exists_of_foldlM ?_ rfl
    intro attr member txSc kept
    have isValue := @getU64Ne_eq_ok order _ (long _ (payload_mem_of_mem_numbered member))
    obtain ⟨attrType, payload⟩ := attr
    simp only at isValue
    simp only [parseTxScStats.statsAttr, isValue, Except.map]
    split_ifs <;> exact ⟨_, rfl, kept⟩
  obtain ⟨txSc, isOk, kept⟩ := folded
  exact ⟨txSc, by rw [isOk]; rfl, kept⟩

theorem parseRxScList_offload (offload : BitVec 8) : parseRxScList order
        (encodeAll order (Writer.u8 1 offload : Writer order).attrs) device =
      .ok { device with rxScs := device.rxScs ++ [{}] } := by
  have inner : attrIter order (encodeAll order [(1, [UInt8.ofNat offload.toNat])]) =
        [(1, [UInt8.ofNat offload.toNat])] :=
    attrIter_encodeAll order
      (forall_mem_singleton.mpr
        ⟨Nat.lt_of_lt_of_le Nat.one_lt_two (by decide), by simp [NLA_HDRLEN]⟩)
  have nothing : attrIter order [UInt8.ofNat offload.toNat] = [] := attrIter_of_none rfl
  change parseRxScList order (encodeAll order [_]) device = _
  rw [parseRxScList, eachAttr, inner, foldlM_cons]
  simp only [parseRxScList.entry, parseRxScAttrs, eachAttr, nothing]
  rfl

/-- What a message adds to the device. -/
structure Adds (interface : Interface) (before after : MacsecDevice) : Prop where
  rxScs : after.rxScs = before.rxScs ++ [({} : MacsecRxSc)]
  txSc : ∃ txSc, after.txSc = some txSc ∧ txSc.sci = before.txScOrDefault.sci
  kept : before.sci ≠ 0 → after.sci ≠ 0
  sci : interface.rxScs ≠ [] → after.sci ≠ 0

theorem attrIter_message (interface : DumpedInterface order) : attrIter order
        (encodeAll order (interface.message : Writer order).attrs) =
      (interface.message : Writer order).attrs := by
  rw [attrIter_encodeAll order interface.fits]
  rfl

theorem DumpedInterface.short (interface : DumpedInterface order) (attr : Attribute)
    (member : attr ∈ (interface.message : Writer order).attrs) : attr.2.length ≤ 65535 :=
  (Nat.le_add_left _ _).trans (interface.fits attr member).2

theorem parseDeviceAttrs_adds (interface : DumpedInterface order) (device : MacsecDevice) : ∃ after,
      parseDeviceAttrs order (encodeAll order (interface.message : Writer order).attrs) device =
        .ok after ∧
      Adds interface.toInterface device after := by
  have isAttrs : (interface.message : Writer order).attrs = [_, _, _, _, _, _, _] := rfl
  obtain ⟨indexed, readIndex, sameTxSc, sameRxScs, sameSci⟩ : ∃ indexed,
        deviceAttr order device (1, order.toBytes 4 interface.ifindex.toNat) = .ok indexed ∧
        indexed.txSc = device.txSc ∧ indexed.rxScs = device.rxScs ∧
        indexed.sci = device.sci :=
    ⟨_, congrArg (Except.map fun ifindex => ({ device with ifindex := ifindex } : MacsecDevice))
      (getU32Ne_eq_ok (by simp)), rfl, rfl, rfl⟩
  have channels : ∀ payload ∈ interface.rxScs.map fun channel =>
      encodeAll order (channel.message interface.cipher.isXpn : Writer order).attrs,
      ReadsNonzero order payload := by
    intro payload member
    obtain ⟨channel, -, rfl⟩ := mem_map.mp member
    exact channel_readsNonzero _ channel
  have values : ∀ payload ∈ interface.secyStats.map fun value =>
      order.toBytes 8 value.toNat, 8 ≤ payload.length := by
    intro payload member
    obtain ⟨value, -, rfl⟩ := mem_map.mp member
    exact Nat.le_of_eq (order.toBytes_length _ _).symm
  have shortChannels := interface.short (6, _) (mem_of_getElem? (i := 3) rfl)
  have shortValues := interface.short (8, _) (mem_of_getElem? (i := 5) rfl)
  rw [attrs_entries, map_map] at shortChannels
  rw [attrs_counters] at shortValues
  obtain ⟨secy, isSecy, misread, isSci⟩ := parseSecyConfig_numbered indexed channels shortChannels
  obtain ⟨txSc, isTxSc, txSci⟩ := parseTxScStats_numbered secy values shortValues
  refine ⟨{ secy with
    txSc := some txSc
    rxScs := secy.rxScs ++ [{}] }, ?_, ?_⟩
  · have readSecy : deviceAttr order indexed (6, encodeAll order (entries (interface.rxScs.map
          (Channel.message interface.cipher.isXpn)) : Writer order).attrs) = .ok secy := by
      rw [attrs_entries, map_map]
      exact isSecy
    have readStats : deviceAttr order secy (8, encodeAll order
        (counters interface.secyStats : Writer order).attrs) =
          .ok { secy with txSc := some txSc } := by
      rw [attrs_counters]
      exact isTxSc
    have readOffload : deviceAttr order { secy with txSc := some txSc }
        (9, encodeAll order (Writer.u8 1 interface.offload.toU8 : Writer order).attrs) = .ok _ :=
      parseRxScList_offload { secy with txSc := some txSc } interface.offload.toU8
    -- Where the kernel has the settings and the lists, the parser has others.
    have skipped : ∀ device attrType payload, attrType ∈ [4, 5, 7] →
        deviceAttr order device (attrType, payload) = .ok device := by
      intro device attrType payload member
      simp only [mem_cons, not_mem_nil, or_false] at member
      obtain rfl | rfl | rfl := member <;> rfl
    rw [parseDeviceAttrs, eachAttr, attrIter_message, isAttrs]
    simp only [foldlM_cons, readIndex, readSecy, readStats, readOffload,
      skipped _ 4 _ (by decide), skipped _ 5 _ (by decide),
      skipped _ 7 _ (by decide), bind, Except.bind]
    rfl
  · exact
      { rxScs := congrArg (· ++ _) (misread.rxScs.trans sameRxScs)
        txSc := ⟨txSc, rfl, by
          rw [txSci, MacsecDevice.txScOrDefault, misread.txSc, sameTxSc]
          rfl⟩
        kept := fun notZero => misread.sci (sameSci ▸ notZero)
        sci := fun notNil => isSci fun isNil => notNil (map_eq_nil_iff.mp isNil) }

theorem parseResponse_adds (header : Vector UInt8 (NLMSG_HDRLEN + GENL_HDRLEN))
    (interface : DumpedInterface order) (device : MacsecDevice) :
    ∃ after,
      parseResponse order device (header.toList ++
        encodeAll order (interface.message : Writer order).attrs) = .ok after ∧
      Adds interface.toInterface device after := by
  have headerLength : header.toList.length = NLMSG_HDRLEN + GENL_HDRLEN := header.length_toList
  rw [parseResponse, if_neg (by simp [headerLength]), drop_left' headerLength]
  exact parseDeviceAttrs_adds interface device

/-!
## The whole dump
-/

/-- What is known of the device once the messages of some interfaces were read:
it has a channel for each of them, and its identifier is not that of its transmit
channel if one of them has channels. -/
structure Folded (interfaces : List (DumpedInterface order)) (device : MacsecDevice) : Prop where
  rxScs : device.rxScs = List.replicate interfaces.length {}
  txSci : device.txScOrDefault.sci = 0
  txSc : interfaces ≠ [] → device.txSc.isSome
  sci : ∀ interface ∈ interfaces, interface.rxScs ≠ [] → device.sci ≠ 0

theorem Folded.add {interfaces : List (DumpedInterface order)} {interface : DumpedInterface order}
    {before after : MacsecDevice} (folded : Folded interfaces before)
    (adds : Adds interface.toInterface before after) :
    Folded (interfaces ++ [interface]) after := by
  obtain ⟨txSc, isTxSc, isSci⟩ := adds.txSc
  constructor
  · rw [adds.rxScs, folded.rxScs, length_append, length_singleton, replicate_succ']
  · rw [MacsecDevice.txScOrDefault, isTxSc]
    exact isSci.trans folded.txSci
  · rw [isTxSc]
    exact fun _ => rfl
  · intro found member notNil
    rcases mem_append.mp member with earlier | last
    · exact adds.kept (folded.sci found earlier notNil)
    · obtain rfl := mem_singleton.mp last
      exact adds.sci notNil

theorem folded_of_dump (header : Vector UInt8 (NLMSG_HDRLEN + GENL_HDRLEN)) (ifindex : BitVec 32)
    (interfaces : List (DumpedInterface order)) :
    ∃ device, (dumpTxSc header interfaces).foldlM (parseResponse order)
        { ifindex := ifindex } = .ok device ∧
      Folded interfaces device := by
  induction interfaces using List.reverseRecOn with
  | nil =>
      refine ⟨{ ifindex := ifindex }, rfl, rfl, rfl, ?_, ?_⟩
      · exact fun notNil => absurd rfl notNil
      · exact fun interface member => absurd member not_mem_nil
  | append_singleton interfaces interface ih =>
      obtain ⟨device, isOk, folded⟩ := ih
      obtain ⟨after, isAfter, adds⟩ := parseResponse_adds header interface device
      refine ⟨after, ?_, folded.add adds⟩
      rw [dumpTxSc, map_append, foldlM_append, ← dumpTxSc, isOk]
      exact (bind_pure _).trans isAfter

theorem Folded.not_describes {interfaces : List (DumpedInterface order)}
    {interface : DumpedInterface order} {device : MacsecDevice} (folded : Folded interfaces device)
    (member : interface ∈ interfaces) : ¬ Describes device interface.toInterface := by
  intro describes
  have notNil : interfaces ≠ [] := ne_nil_of_mem member
  obtain ⟨txSc, isTxSc⟩ := Option.isSome_iff_exists.mp (folded.txSc notNil)
  have sciZero : interface.sci = 0 := by
    rw [← describes.txSci txSc isTxSc, ← folded.txSci, MacsecDevice.txScOrDefault, isTxSc]
    rfl
  have count := describes.rxScs.length_eq
  rw [length_map, length_map, folded.rxScs, length_replicate] at count
  have hasChannels : interface.rxScs ≠ [] := by
    intro isNil
    rw [isNil] at count
    exact notNil (length_eq_zero_iff.mp count)
  exact folded.sci interface member hasChannels (describes.sci.trans sciZero)

/-- The call answers for the interface that was asked for exactly when there is
no MACsec interface at all. -/
theorem answersFor_iff (header : Vector UInt8 (NLMSG_HDRLEN + GENL_HDRLEN))
    (interfaces : List (DumpedInterface order)) (ifindex : BitVec 32) :
    AnswersFor header interfaces ifindex ↔ interfaces = [] := by
  constructor
  · rintro ⟨describes, fails⟩
    by_contra notNil
    obtain ⟨device, isOk, folded⟩ := folded_of_dump header ifindex interfaces
    have notEmpty : dumpTxSc header interfaces ≠ [] := fun isNil => notNil (map_eq_nil_iff.mp isNil)
    have answer : getDeviceByIndex order (dumpTxSc header interfaces) ifindex = .ok device := by
      rw [getDeviceByIndex, if_neg notEmpty, isOk]
      rfl
    by_cases asked : ∃ interface ∈ interfaces, interface.ifindex = ifindex
    · obtain ⟨interface, member, isIndex⟩ := asked
      obtain ⟨found, isFound, described⟩ := describes interface member isIndex
      cases answer.symm.trans isFound
      exact folded.not_describes member described
    · obtain ⟨error, isError⟩ := fails fun interface member isIndex =>
        asked ⟨interface, member, isIndex⟩
      cases answer.symm.trans isError
  · rintro rfl
    refine ⟨fun interface member => absurd member not_mem_nil, fun _ => ?_⟩
    exact ⟨.interfaceNotFound s!"ifindex {ifindex.toNat}", rfl⟩

/-- An interface that encrypts with one association. -/
def macsec0 : DumpedInterface .little where
  ifindex := 5
  sci := 0x0200000000010001
  encodingSa := 0
  window := 0
  cipher := .gcmAes128
  icvLen := 16
  protect := true
  replay := false
  oper := true
  validate := .strict
  encrypt := true
  includeSci := true
  endStation := false
  scb := false
  offload := .off
  txSas :=
    [{ an := 0, active := true, pn := 1, key := List.replicate 16 7,
        keyId := Vector.replicate 16 1 }]
  rxScs := []
  txScStats := []
  secyStats := [0, 0, 0, 0, 0, 0, 0, 0]
  fits := by decide +kernel

/-- It is read as one that does not encrypt. -/
theorem macsec0_readUnencrypted : ¬ AnswersFor (Vector.replicate 20 0) [macsec0] 5 := by
  rintro ⟨describes, -⟩
  obtain ⟨device, isOk, described⟩ := describes macsec0 (mem_singleton_self _) rfl
  have isEncrypt : device.encrypt = true := described.encrypt
  have isOff : (getDeviceByIndex .little
      (dumpTxSc (Vector.replicate 20 0) [macsec0]) 5).toOption.map
        MacsecDevice.encrypt = some false := by
    decide +kernel
  rw [isOk] at isOff
  cases isEncrypt.symm.trans (Option.some.inj isOff)

end Nlink.Macsec
