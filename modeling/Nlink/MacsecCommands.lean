import Nlink.Foundation.Execution
import Nlink.MacsecDump

namespace Nlink.Macsec

open Foundation Netlink Writer

/-!
# MACsec commands

The changes of associations and channels that the kernel allows, the requests in
which it expects them, and the requests that the program sends.
-/

/-!
## What the kernel allows
-/

/-- The settings of an association in a request. -/
structure SaConfig where
  an : BitVec 8
  active : Option Bool
  pn : Option (BitVec 64)
  key : Option (List UInt8)
  keyId : Option (List UInt8)

/-- Commands with their arguments. -/
inductive Command where
  | addRxSc (sci : BitVec 64) (active : Bool)
  | delRxSc (sci : BitVec 64)
  | updRxSc (sci : BitVec 64) (active : Option Bool)
  | addTxSa (config : SaConfig)
  | delTxSa (an : BitVec 8)
  | updTxSa (config : SaConfig)
  | addRxSa (sci : BitVec 64) (config : SaConfig)
  | delRxSa (sci : BitVec 64) (an : BitVec 8)
  | updRxSa (sci : BitVec 64) (config : SaConfig)

def keyIdOfBytes (bytes : List UInt8) : Option (Vector UInt8 16) :=
  if isLong : bytes.length = 16 then some ⟨bytes.toArray, by simpa using isLong⟩ else none

/-- The association that is added: its number is below four, its key as long as
the cipher's keys, and it has a key identifier.  Without a packet number it takes
the default, if there is one. -/
def SaConfig.association (keyLen : Nat) (defaultPn : Option (BitVec 64)) (config : SaConfig) :
    Option Association := do
  let key ← config.key
  let keyId ← config.keyId.bind keyIdOfBytes
  let pn ← config.pn <|> defaultPn
  guard (config.an < 4 ∧ key.length = keyLen)
  return {
    an := config.an
    active := config.active.getD false
    pn := pn
    key := key
    keyId := keyId }

/-- A list of associations without a further one of a number. -/
def addAssociation (sas : List Association) (sa : Option Association) :
    Except Nat (List Association) :=
  match sa with
  | none => .error EINVAL
  | some sa => if sas.any (·.an = sa.an) then .error EBUSY else .ok (sas ++ [sa])

def delAssociation (sas : List Association) (an : BitVec 8) : Except Nat (List Association) :=
  if sas.any (·.an = an) then .ok (sas.filter (·.an ≠ an)) else .error ENODEV

/-- An update has no key and no key identifier. -/
def updAssociation (sas : List Association) (config : SaConfig) : Except Nat (List Association) :=
  if config.key.isSome ∨ config.keyId.isSome then
    .error EINVAL
  else if sas.any (·.an = config.an) then
    .ok (sas.map fun sa =>
      if sa.an = config.an then
        { sa with
          pn := config.pn.getD sa.pn
          active := config.active.getD sa.active }
      else
        sa)
  else
    .error ENODEV

namespace Interface

def changeTxSas (interface : Interface)
    (change : List Association → Except Nat (List Association)) :
    Except Nat Interface :=
  (change interface.txSas).map fun sas => { interface with txSas := sas }

def changeRxSas (interface : Interface) (sci : BitVec 64)
    (change : List Association → Except Nat (List Association)) :
    Except Nat Interface :=
  match interface.rxScs.find? (·.sci = sci) with
  | none => .error ENODEV
  | some channel =>
      (change channel.sas).map fun sas =>
        { interface with
          rxScs := interface.rxScs.map fun channel =>
            if channel.sci = sci then { channel with sas := sas } else channel }

/-- What a command does, or the error that it is refused with. -/
def perform (interface : Interface) : Command → Except Nat Interface
  | .addRxSc sci active =>
      if interface.rxScs.any (·.sci = sci) then
        .error EEXIST
      else
        .ok { interface with
          rxScs := interface.rxScs ++ [{ sci := sci, active := active, sas := [], stats := [] }] }
  | .delRxSc sci =>
      if interface.rxScs.any (·.sci = sci) then
        .ok { interface with rxScs := interface.rxScs.filter (·.sci ≠ sci) }
      else
        .error ENODEV
  | .updRxSc sci active =>
      if interface.rxScs.any (·.sci = sci) then
        .ok { interface with
          rxScs := interface.rxScs.map fun channel =>
            if channel.sci = sci then
              { channel with active := active.getD channel.active }
            else
              channel }
      else
        .error ENODEV
  | .addTxSa config =>
      interface.changeTxSas (addAssociation · (config.association interface.cipher.keyLen none))
  | .delTxSa an => interface.changeTxSas (delAssociation · an)
  | .updTxSa config => interface.changeTxSas (updAssociation · config)
  | .addRxSa sci config =>
      interface.changeRxSas sci (addAssociation ·
        (config.association interface.cipher.keyLen (some 1)))
  | .delRxSa sci an => interface.changeRxSas sci (delAssociation · an)
  | .updRxSa sci config => interface.changeRxSas sci (updAssociation · config)

end Interface

/-!
## How the kernel reads a request
-/

section Kernel

variable (order : ByteOrder)

def readBool (bytes : List UInt8) : Bool :=
  readU8 bytes ≠ 0

def readU64 (bytes : List UInt8) : BitVec 64 :=
  BitVec.ofNat 64 (order.ofBytes bytes)

/-- A packet number has eight bytes under a cipher of extended numbers, else
four. -/
def readPn (xpn : Bool) (bytes : List UInt8) : Except Nat (BitVec 64) :=
  if bytes.length = if xpn then 8 else 4 then .ok (readU64 order bytes) else .error EINVAL

/-- `SA_CONFIG` of a request: its number is needed. -/
def readSaConfig (xpn : Bool) (attrs : List Attribute) : Except Nat SaConfig := do
  let some payload := lastOf attrs 3 | .error EINVAL
  let config := attrIter order payload
  let some an := lastOf config 1 | .error EINVAL
  let pn ← (lastOf config 3).mapM (readPn order xpn)
  return {
    an := readU8 an
    active := (lastOf config 2).map readBool
    pn := pn
    key := lastOf config 4
    keyId := lastOf config 5 }

/-- `RXSC_CONFIG` of a request: its identifier is needed. -/
def readRxScConfig (attrs : List Attribute) : Except Nat (BitVec 64 × Option Bool) := do
  let some payload := lastOf attrs 2 | .error EINVAL
  let config := attrIter order payload
  let some sci := lastOf config 1 | .error EINVAL
  return (readU64 order sci, (lastOf config 2).map readBool)

def readCommand (xpn : Bool) (cmd : Nat) (attrs : List Attribute) : Except Nat Command :=
  match cmd with
  | 1 => do
      let (sci, active) ← readRxScConfig order attrs
      return .addRxSc sci (active.getD false)
  | 2 => do
      let (sci, _) ← readRxScConfig order attrs
      return .delRxSc sci
  | 3 => do
      let (sci, active) ← readRxScConfig order attrs
      return .updRxSc sci active
  | 4 => (readSaConfig order xpn attrs).map .addTxSa
  | 5 => (readSaConfig order xpn attrs).map fun config => .delTxSa config.an
  | 6 => (readSaConfig order xpn attrs).map .updTxSa
  | 7 => do
      let config ← readSaConfig order xpn attrs
      let (sci, _) ← readRxScConfig order attrs
      return .addRxSa sci config
  | 8 => do
      let config ← readSaConfig order xpn attrs
      let (sci, _) ← readRxScConfig order attrs
      return .delRxSa sci config.an
  | 9 => do
      let config ← readSaConfig order xpn attrs
      let (sci, _) ← readRxScConfig order attrs
      return .updRxSa sci config
  | _ => .error EOPNOTSUPP

/-- What the kernel does with a request for its one interface. -/
def handle (request : MessageBuilder) (interface : Interface) : Except Nat Interface := do
  let (cmd, attrs) := genlReceived order request
  let command ← readCommand order interface.cipher.isXpn cmd attrs
  if (lastOf attrs 1).map (readU32 order) = some interface.ifindex then
    interface.perform command
  else
    .error ENODEV

end Kernel

/-!
## What is sent
-/

namespace MacsecCmd

def ADD_RXSC : UInt8 := 1
def DEL_RXSC : UInt8 := 2
def ADD_TXSA : UInt8 := 4
def DEL_TXSA : UInt8 := 5
def ADD_RXSA : UInt8 := 6
def DEL_RXSA : UInt8 := 7
def UPD_TXSA : UInt8 := 11
def UPD_RXSA : UInt8 := 12

end MacsecCmd

def MACSEC_GENL_VERSION : UInt8 := 1

/-- `MacsecSaBuilder`; `new` panics where the number is above three. -/
structure MacsecSaBuilder where
  an : BitVec 8
  key : List UInt8
  pn : Option (BitVec 64)
  active : Bool
  keyId : Option (Vector UInt8 16)
  an_le : an ≤ 3

/-- The calls of a connection, on an interface that is named by its index. -/
inductive Call where
  | addTxSa (sa : MacsecSaBuilder)
  | delTxSa (an : BitVec 8)
  | updateTxSa (sa : MacsecSaBuilder)
  | addRxSc (sci : BitVec 64)
  | delRxSc (sci : BitVec 64)
  | addRxSa (sci : BitVec 64) (sa : MacsecSaBuilder)
  | delRxSa (sci : BitVec 64) (an : BitVec 8)
  | updateRxSa (sci : BitVec 64) (sa : MacsecSaBuilder)

section Send

open Writer

variable {order : ByteOrder}

/-- A packet number has four bytes if it fits them. -/
def writePn (pn : BitVec 64) : Writer order :=
  if pn.toNat ≤ 2 ^ 32 - 1 then u32 MacsecSaAttr.PN (pn.setWidth 32) else u64 MacsecSaAttr.PN pn

def addedSa (sa : MacsecSaBuilder) : Writer order :=
  nest MacsecAttr.SA_CONFIG
    (all [u8 MacsecSaAttr.AN sa.an, attr MacsecSaAttr.KEY sa.key,
        whenSome sa.pn writePn, boolU8 MacsecSaAttr.ACTIVE sa.active,
        whenSome sa.keyId fun keyId => attr MacsecSaAttr.KEYID keyId.toList])

def updatedSa (sa : MacsecSaBuilder) : Writer order :=
  nest MacsecAttr.SA_CONFIG
    (all [u8 MacsecSaAttr.AN sa.an, whenSome sa.pn writePn, boolU8 MacsecSaAttr.ACTIVE sa.active])

def deletedSa (an : BitVec 8) : Writer order :=
  nest MacsecAttr.SA_CONFIG (u8 MacsecSaAttr.AN an)

/-- The nest of a channel that is there. -/
def namedRxSc (sci : BitVec 64) : Writer order :=
  nest MacsecAttr.RXSC_CONFIG (u64 MacsecRxScAttr.SCI sci)

/-- The command of a call, and the attributes behind the interface's index. -/
def Call.request : Call → UInt8 × Writer order
  | .addTxSa sa => (MacsecCmd.ADD_TXSA, addedSa sa)
  | .delTxSa an => (MacsecCmd.DEL_TXSA, deletedSa an)
  | .updateTxSa sa => (MacsecCmd.UPD_TXSA, updatedSa sa)
  | .addRxSc sci =>
      (MacsecCmd.ADD_RXSC, nest MacsecAttr.RXSC_CONFIG
          (all [u64 MacsecRxScAttr.SCI sci, u8 MacsecRxScAttr.ACTIVE 1]))
  | .delRxSc sci => (MacsecCmd.DEL_RXSC, namedRxSc sci)
  | .addRxSa sci sa => (MacsecCmd.ADD_RXSA, all [namedRxSc sci, addedSa sa])
  | .delRxSa sci an => (MacsecCmd.DEL_RXSA, all [namedRxSc sci, deletedSa an])
  | .updateRxSa sci sa => (MacsecCmd.UPD_RXSA, all [namedRxSc sci, updatedSa sa])

end Send

section Run

variable (order : ByteOrder) (familyId : BitVec 16)

/-- `macsec_command`, for a call with the index of an interface. -/
def macsecCommand (ifindex : BitVec 32) (call : Call) : MessageBuilder :=
  let (cmd, writer) : UInt8 × Writer order := call.request
  genlRequest order familyId (.ofNat 16 (NLM_F_REQUEST ||| NLM_F_ACK)) cmd MACSEC_GENL_VERSION
    (.all [.u32 MacsecAttr.IFINDEX ifindex, writer])

/-- What a call returns, and the interface behind it.  An error of the kernel
leaves it as it was. -/
def Call.run (call : Call) (interface : Interface) : Except Error Unit × Interface :=
  match handle order (macsecCommand order familyId interface.ifindex call)
      interface with
  | .ok next => (.ok (), next)
  | .error errno => (.error (.kernel errno), interface)

end Run

/-!
## Calls that do what they say

The calls for channels make the change that they name.  Those for associations
send their settings where the kernel has another attribute, and some send another
command, so they only fail.
-/

def MacsecSaBuilder.added (sa : MacsecSaBuilder) : SaConfig where
  an := sa.an
  active := some sa.active
  pn := sa.pn
  key := some sa.key
  keyId := sa.keyId.map Vector.toList

def MacsecSaBuilder.updated (sa : MacsecSaBuilder) : SaConfig where
  an := sa.an
  active := some sa.active
  pn := sa.pn
  key := none
  keyId := none

namespace Call

def command : Call → Command
  | .addTxSa sa => .addTxSa sa.added
  | .delTxSa an => .delTxSa an
  | .updateTxSa sa => .updTxSa sa.updated
  | .addRxSc sci => .addRxSc sci true
  | .delRxSc sci => .delRxSc sci
  | .addRxSa sci sa => .addRxSa sci sa.added
  | .delRxSa sci an => .delRxSa sci an
  | .updateRxSa sci sa => .updRxSa sci sa.updated

def pn : Call → Option (BitVec 64)
  | .addTxSa sa | .updateTxSa sa => sa.pn
  | .addRxSa _ sa | .updateRxSa _ sa => sa.pn
  | .delTxSa _ | .addRxSc _ | .delRxSc _ | .delRxSa _ _ => none

/-- The interface with the change that a call names, if the kernel allows it.
Without extended numbers a packet number is below `2 ^ 32`. -/
def asked (call : Call) (interface : Interface) : Option Interface :=
  if interface.cipher.isXpn || call.pn.all (·.toNat < 2 ^ 32) then
    (interface.perform call.command).toOption
  else
    none

def OnChannel : Call → Prop
  | .addRxSc _ | .delRxSc _ => True
  | _ => False

/-- The kernel does not allow the change that the call names. -/
def Refused (call : Call) (interface : Interface) : Prop :=
  call.asked interface = none

/-- The key, if one is sent, leaves room for the other attributes in a nest. -/
def KeyShort : Call → Prop
  | .addTxSa sa | .addRxSa _ sa => sa.key.length ≤ 65000
  | _ => True

/-- The call makes exactly the change that it names, or fails and changes
nothing. -/
def Correct (order : ByteOrder) (familyId : BitVec 16) (call : Call)
    (interface : Interface) : Prop :=
  match call.asked interface with
  | some next => call.run order familyId interface = (.ok (), next)
  | none => ∃ error, call.run order familyId interface = (.error error, interface)

end Call

def afterCall (order : ByteOrder) (familyId : BitVec 16) (interface : Interface)
    (call : Call) : Interface :=
  (call.run order familyId interface).2

variable {order : ByteOrder} (familyId : BitVec 16)

/-!
## What the kernel finds
-/

theorem small_writePn (pn : BitVec 64) : (writePn pn : Writer order).Small 15 := by
  rw [writePn]
  split
  · exact small_u32 (by decide) _ (by decide)
  · exact small_u64 (by decide) _ (by decide)

theorem small_boolU8 {attrType : Nat} (plain : attrType < 65536) (value : Bool) :
    (boolU8 attrType value : Writer order).Small 8 :=
  small_u8 plain _ (by decide)

theorem small_updatedSa (sa : MacsecSaBuilder) : (updatedSa sa : Writer order).Small 52 := by
  have an : (u8 MacsecSaAttr.AN sa.an : Writer order).Small 15 :=
    small_u8 (by decide) _ (by decide)
  have pn : (whenSome sa.pn writePn : Writer order).Small 15 :=
    Writer.small_whenSome.mpr fun pn _ => small_writePn pn
  have active : (boolU8 MacsecSaAttr.ACTIVE sa.active : Writer order).Small 15 :=
    (small_boolU8 (by decide) _).mono (by decide)
  have config := an.andThen (pn.andThen (active.andThen (small_nothing 0)))
  exact config.nest (by decide) (by decide)

theorem small_deletedSa (an : BitVec 8) : (deletedSa an : Writer order).Small 15 :=
  (small_u8 (by decide) an (by decide)).nest (by decide) (by decide)

theorem small_namedRxSc (sci : BitVec 64) : (namedRxSc sci : Writer order).Small 22 :=
  (small_u64 (by decide) sci (by decide)).nest (by decide) (by decide)

theorem small_addedSa (sa : MacsecSaBuilder) (short : sa.key.length ≤ 65000) :
    (addedSa sa : Writer order).Small 65068 := by
  have key : (Writer.attr MacsecSaAttr.KEY sa.key : Writer order).Small 65007 :=
    small_attr (by decide) (by omega) (by decide)
  have keyId : (whenSome sa.keyId fun keyId =>
      .attr MacsecSaAttr.KEYID keyId.toList : Writer order).Small 23 :=
    Writer.small_whenSome.mpr fun keyId _ => small_attr (by decide) (by simp) (by decide)
  have an : (u8 MacsecSaAttr.AN sa.an : Writer order).Small 8 :=
    small_u8 (by decide) _ (by decide)
  have pn : (whenSome sa.pn writePn : Writer order).Small 15 :=
    Writer.small_whenSome.mpr fun pn _ => small_writePn pn
  have active := @small_boolU8 order MacsecSaAttr.ACTIVE (by decide) sa.active
  have config := an.andThen (key.andThen (pn.andThen (active.andThen
    (keyId.andThen (small_nothing 0)))))
  exact config.nest (by decide) (by decide)

variable {call : Call}

theorem small_request (short : call.KeyShort) : (call.request.2 : Writer order).Small 65200 := by
  have pair : ∀ {first second : Writer order} {size : Nat},
      first.Small 22 → second.Small size → size ≤ 65178 →
        (Writer.all [first, second]).Small 65200 :=
    fun small smallLater fits =>
      (small.andThen (smallLater.andThen (small_nothing 0))).mono (by omega)
  cases call with
  | addTxSa sa => exact (small_addedSa sa short).mono (by decide)
  | delTxSa an => exact (small_deletedSa an).mono (by decide)
  | updateTxSa sa => exact (small_updatedSa sa).mono (by decide)
  | addRxSc sci =>
      have named : (u64 MacsecRxScAttr.SCI sci : Writer order).Small 15 :=
        small_u64 (by decide) _ (by decide)
      have active : (u8 MacsecRxScAttr.ACTIVE 1 : Writer order).Small 8 :=
        small_u8 (by decide) _ (by decide)
      have config := named.andThen (active.andThen (small_nothing 0))
      exact (config.nest (by decide) (by decide)).mono (by decide)
  | delRxSc sci => exact (small_namedRxSc sci).mono (by decide)
  | addRxSa sci sa => exact pair (small_namedRxSc sci) (small_addedSa sa short) (by decide)
  | delRxSa sci an => exact pair (small_namedRxSc sci) (small_deletedSa an) (by decide)
  | updateRxSa sci sa => exact pair (small_namedRxSc sci) (small_updatedSa sa) (by decide)

def Call.attrs (ifindex : BitVec 32) (call : Call) : Writer order :=
  .all [.u32 MacsecAttr.IFINDEX ifindex, call.request.2]

theorem genlReceived_macsecCommand (ifindex : BitVec 32) (short : call.KeyShort) :
    genlReceived order (macsecCommand order familyId ifindex call) =
      ((@Call.request order call).1.toNat, (call.attrs ifindex : Writer order).seen) := by
  have ifindexSmall : (u32 MacsecAttr.IFINDEX ifindex : Writer order).Small 11 :=
    small_u32 (by decide) _ (by decide)
  exact genlReceived_genlRequest familyId _ _ _
    (ifindexSmall.andThen ((small_request short).andThen (small_nothing 0)))

/-!
## What the kernel does
-/

theorem found_attrs (ifindex : BitVec 32) (call : Call) (wanted : Nat) :
    (call.attrs ifindex : Writer order).found wanted =
      ((call.request.2 : Writer order).found wanted).or
        (if 1 = wanted then some (order.toBytes 4 ifindex.toNat) else none) := by
  simp [Call.attrs, MacsecAttr.IFINDEX]

theorem readSaConfig_attrs (ifindex : BitVec 32) (call : Call) (xpn : Bool) :
    readSaConfig order xpn (call.attrs ifindex : Writer order).seen = .error EINVAL := by
  have nothing : lastOf (call.attrs ifindex : Writer order).seen 3 = none := by
    rw [lastOf_seen, found_attrs]
    cases call <;>
      simp [Call.request, addedSa, updatedSa, deletedSa, namedRxSc,
        MacsecAttr.SA_CONFIG, MacsecAttr.RXSC_CONFIG]
  rw [readSaConfig, nothing]

theorem run_association (isAssociation : ¬ call.OnChannel) (short : call.KeyShort)
    (interface : Interface) :
    ∃ error, call.run order familyId interface = (.error error, interface) := by
  have refused : ∃ errno, readCommand order interface.cipher.isXpn
        (@Call.request order call).1.toNat
        (call.attrs interface.ifindex : Writer order).seen = .error errno := by
    have config := @readSaConfig_attrs order interface.ifindex call interface.cipher.isXpn
    cases call with
    | addRxSc sci | delRxSc sci => exact absurd trivial isAssociation
    | addTxSa sa => exact ⟨EINVAL, congrArg (Except.map Command.addTxSa) config⟩
    | delTxSa an =>
        exact ⟨EINVAL, congrArg (Except.map fun config : SaConfig =>
          Command.delTxSa config.an) config⟩
    | addRxSa sci sa => exact ⟨EINVAL, congrArg (Except.map Command.updTxSa) config⟩
    | delRxSa sci an => exact ⟨EINVAL, congrArg (· >>= _) config⟩
    | updateTxSa sa | updateRxSa sci sa => exact ⟨EOPNOTSUPP, rfl⟩
  obtain ⟨errno, isRefused⟩ := refused
  have handled : handle order (macsecCommand order familyId interface.ifindex call) interface =
        .error errno := by
    rw [handle, genlReceived_macsecCommand familyId _ short]
    exact congrArg (· >>= _) isRefused
  exact ⟨.kernel errno, by rw [Call.run, handled]⟩

theorem readU64_toBytes (value : BitVec 64) :
    readU64 order (order.toBytes 8 value.toNat) = value := by
  rw [readU64, ByteOrder.ofBytes_toBytes order value.isLt, BitVec.ofNat_toNat, BitVec.setWidth_eq]

theorem readRxScConfig_attrs {ifindex : BitVec 32} {config : Writer order} {sci : BitVec 64}
    (sends : (call.request.2 : Writer order) = .nest MacsecAttr.RXSC_CONFIG config)
    (small : config.Small 30) (isSci : config.found 1 = some (order.toBytes 8 sci.toNat)) :
    readRxScConfig order (call.attrs ifindex : Writer order).seen =
      .ok (sci, (config.found 2).map readBool) := by
  have isConfig : lastOf (call.attrs ifindex : Writer order).seen 2 =
      some (encodeAll order config.attrs) := by
    rw [lastOf_seen, found_attrs, sends, found_nest _ (by decide)]
    rfl
  have inConfig : lastOf config.seen 1 = some (order.toBytes 8 sci.toNat) := isSci
  rw [readRxScConfig, isConfig]
  simp only [attrIter_payload small, inConfig, readU64_toBytes, lastOf_seen]
  rfl

/-- A call for a channel does what its command does. -/
theorem handle_channel (onChannel : call.OnChannel) (interface : Interface) :
    handle order (macsecCommand order familyId interface.ifindex call) interface =
      interface.perform call.command := by
  have isIndex : (lastOf (call.attrs interface.ifindex : Writer order).seen
      1).map (readU32 order) = some interface.ifindex := by
    rw [lastOf_seen, found_attrs]
    cases call <;> first
      | exact absurd onChannel id
      | simp [Call.request, namedRxSc, MacsecAttr.RXSC_CONFIG]
  have isCommand : readCommand order interface.cipher.isXpn (@Call.request order call).1.toNat
      (call.attrs interface.ifindex : Writer order).seen = .ok call.command := by
    cases call with
    | addRxSc sci =>
        have named : (u64 MacsecRxScAttr.SCI sci : Writer order).Small 15 :=
          small_u64 (by decide) _ (by decide)
        have active : (u8 MacsecRxScAttr.ACTIVE 1 : Writer order).Small 8 :=
          small_u8 (by decide) _ (by decide)
        have config : readRxScConfig order
            ((Call.addRxSc sci).attrs interface.ifindex : Writer order).seen =
              .ok (sci, some true) :=
          readRxScConfig_attrs rfl (named.andThen (active.andThen (small_nothing 7))) rfl
        exact congrArg (· >>= _) config
    | delRxSc sci =>
        have named : (u64 MacsecRxScAttr.SCI sci : Writer order).Small 30 :=
          small_u64 (by decide) _ (by decide)
        have config : readRxScConfig order
            ((Call.delRxSc sci).attrs interface.ifindex : Writer order).seen = .ok (sci, none) :=
          readRxScConfig_attrs rfl named rfl
        exact congrArg (· >>= _) config
    | _ => exact absurd onChannel id
  have short : call.KeyShort := by
    cases call <;> first
      | exact trivial
      | exact absurd onChannel id
  rw [handle, genlReceived_macsecCommand familyId _ short]
  simp only [isCommand, bind, Except.bind, if_pos isIndex]

/-!
## Whole runs
-/

theorem correct_of_onChannel (onChannel : call.OnChannel) (interface : Interface) :
    call.Correct order familyId interface := by
  have handled := @handle_channel order familyId _ onChannel interface
  have isAsked : call.asked interface = (interface.perform call.command).toOption := by
    have noPn : call.pn = none := by
      cases call <;> first
        | rfl
        | exact absurd onChannel id
    rw [Call.asked, noPn, Option.all_none, Bool.or_true, if_pos rfl]
  rw [Call.Correct, isAsked, Call.run, handled]
  cases interface.perform call.command with
  | ok next => rfl
  | error errno => exact ⟨.kernel errno, rfl⟩

theorem correct_of_refused {interface : Interface} (isAssociation : ¬ call.OnChannel)
    (refused : call.Refused interface) (short : call.KeyShort) :
    call.Correct order familyId interface := by
  rw [Call.Correct, refused]
  exact run_association familyId isAssociation short interface

theorem keyLen_le (cipher : MacsecCipherSuite) : cipher.keyLen ≤ 32 := by
  cases cipher <;> decide

theorem length_of_addAssociation {sas added : List Association} {sa : MacsecSaBuilder}
    {keyLen : Nat} {defaultPn : Option (BitVec 64)}
    (isAdded : addAssociation sas (sa.added.association keyLen defaultPn) = .ok added) :
    sa.key.length = keyLen := by
  by_contra other
  have notAllowed : sa.added.association keyLen defaultPn = none := by
    simp [SaConfig.association, MacsecSaBuilder.added, other, guard]
  rw [notAllowed] at isAdded
  cases isAdded

theorem keyShort_of_asked {interface next : Interface} (asked : call.asked interface = some next) :
    call.KeyShort := by
  have performed : interface.perform call.command = .ok next := by
    rw [Call.asked] at asked
    split at asked
    · cases isPerformed : interface.perform call.command with
      | error errno =>
          rw [isPerformed] at asked
          cases asked
      | ok next' =>
          rw [isPerformed] at asked
          exact congrArg _ (Option.some.inj asked)
    · cases asked
  have short := keyLen_le interface.cipher
  cases call with
  | addTxSa sa =>
      obtain ⟨added, isAdded, -⟩ := exists_of_map_ok performed
      have isLong := length_of_addAssociation isAdded
      exact (isLong.trans_le short).trans (by decide)
  | addRxSa sci sa =>
      simp only [Call.command, Interface.perform, Interface.changeRxSas] at performed
      split at performed
      · cases performed
      · obtain ⟨added, isAdded, -⟩ := exists_of_map_ok performed
        have isLong := length_of_addAssociation isAdded
        exact (isLong.trans_le short).trans (by decide)
  | _ => trivial

theorem onChannel_or_refused_of_correct {interface : Interface}
    (correct : call.Correct order familyId interface) :
    call.OnChannel ∨ call.Refused interface := by
  by_contra neither
  obtain ⟨isAssociation, notRefused⟩ := not_or.mp neither
  obtain ⟨next, asked⟩ := Option.ne_none_iff_exists'.mp notRefused
  obtain ⟨error, fails⟩ := @run_association order familyId _
    isAssociation (keyShort_of_asked asked) interface
  rw [Call.Correct, asked] at correct
  cases fails.symm.trans correct

/-- In a run of calls for channels, and of calls that the kernel is to refuse,
each call does what it says; and every other call fails. -/
theorem allCorrect (order : ByteOrder) (familyId : BitVec 16) (interface : Interface)
    (calls : List Call) :
    (AllAlong (afterCall order familyId) (fun interface call =>
        call.OnChannel ∨ call.Refused interface ∧ call.KeyShort)
        interface calls →
      AllAlong (afterCall order familyId) (fun interface call =>
        call.Correct order familyId interface) interface calls) ∧
    (AllAlong (afterCall order familyId) (fun interface call =>
        call.Correct order familyId interface) interface calls →
      AllAlong (afterCall order familyId) (fun interface call =>
        call.OnChannel ∨ call.Refused interface) interface calls) := by
  constructor
  · refine AllAlong.imp fun interface call holds => ?_
    by_cases onChannel : call.OnChannel
    · exact correct_of_onChannel familyId onChannel interface
    · obtain ⟨refused, short⟩ := holds.resolve_left onChannel
      exact correct_of_refused familyId onChannel refused short
  · exact AllAlong.imp fun interface call correct =>
      onChannel_or_refused_of_correct familyId correct

/-- An interface without associations and channels. -/
def idle : Interface where
  ifindex := 5
  sci := 0x0200000000010001
  encodingSa := 0
  window := 0
  cipher := .gcmAes128
  icvLen := 16
  protect := true
  replay := false
  oper := true
  validate := .strict
  encrypt := true
  includeSci := true
  endStation := false
  scb := false
  offload := .off
  txSas := []
  rxScs := []
  txScStats := []
  secyStats := []

/-- A channel comes and goes, and an association that is not there is not deleted. -/
theorem allCorrect_channel : AllAlong (afterCall .little 30) (fun interface call =>
    call.Correct .little 30 interface) idle [.addRxSc 1, .delTxSa 0, .delRxSc 1] := by
  refine (allCorrect .little 30 idle _).1 ⟨Or.inl trivial, Or.inr ⟨?_, trivial⟩, Or.inl trivial,
    trivial⟩
  change (Call.delTxSa 0).asked _ = none
  decide +kernel

/-- An association that the kernel would take. -/
def firstSa : MacsecSaBuilder where
  an := 0
  key := List.replicate 16 7
  pn := some 1
  active := true
  keyId := some (Vector.replicate 16 1)
  an_le := by decide

/-- It is not added. -/
theorem firstSa_notAdded : (Call.addTxSa firstSa).asked idle ≠ none ∧
      ¬ AllAlong (afterCall .little 30) (fun interface call =>
        call.Correct .little 30 interface) idle [.addTxSa firstSa] := by
  have allowed : (Call.addTxSa firstSa).asked idle ≠ none := by decide +kernel
  refine ⟨allowed, fun correct => ?_⟩
  rcases onChannel_or_refused_of_correct 30 correct.1 with onChannel | refused
  · exact onChannel
  · exact allowed refused

end Nlink.Macsec
