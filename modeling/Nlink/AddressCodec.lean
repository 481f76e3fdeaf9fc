import Nlink.GenlRequest
import Nlink.Neighbor
import Nlink.NftablesDecoding

namespace Nlink.AddressCodec

open Foundation Netlink List Writer
open Genl (NoNul)
open Nlink.Addr (IpAddr IfAddrMsg AF_INET AF_INET6)
open Nlink.Neighbor (OfFamily foldl_field foldl_field_mem foldl_then octets parseIpAddr writeAttr)

/-!
# The codec of addresses

One decoder reads what two encoders write: the message's own, which has a length
predictor beside it, and that of the configurations for either family.
-/

structure AddressCacheInfo where
  preferred : BitVec 32
  valid : BitVec 32
  created : BitVec 32
  updated : BitVec 32

structure AddressMessage where
  header : IfAddrMsg
  address : Option IpAddr
  localAddr : Option IpAddr
  label : Option String
  broadcast : Option IpAddr
  anycast : Option IpAddr
  flags : Option (BitVec 32)
  cacheInfo : Option AddressCacheInfo

namespace AddressMessage

/-- A message of which only the header is known. -/
def ofHeader (header : IfAddrMsg) : AddressMessage :=
  ⟨header, none, none, none, none, none, none, none⟩

/-- `flags`: the extended flags, or those of the header. -/
def allFlags (msg : AddressMessage) : BitVec 32 :=
  msg.flags.getD (msg.header.ifaFlags.toBitVec.setWidth 32)

def isIpv4 (msg : AddressMessage) : Bool :=
  msg.header.ifaFamily = AF_INET

end AddressMessage

section Code

variable (order : ByteOrder)

/-- `IfaCacheinfo`. -/
def AddressCacheInfo.layout : FixedLayout AddressCacheInfo :=
  let u32 := FixedLayout.number order 4
  (u32.pair (u32.pair (u32.pair u32))).via
    (fun (preferred, valid, created, updated) => ⟨preferred, valid, created, updated⟩)
    (fun info => (info.preferred, info.valid, info.created, info.updated))
    fun _ => rfl

namespace AddressMessage

/-!
## Parsing
-/

/-- An address that is parsed by the family of the header. -/
def addrOr (msg : AddressMessage) (data : List UInt8) (old : Option IpAddr) : Option IpAddr :=
  match parseIpAddr data msg.header.ifaFamily.toBitVec with
  | .ok addr => some addr
  | .error _ => old

/-- One attribute of an address message. -/
def addAttr (msg : AddressMessage) : Attribute → AddressMessage
  -- IFA_ADDRESS
  | (1, data) => { msg with address := msg.addrOr data msg.address }
  -- IFA_LOCAL
  | (2, data) => { msg with localAddr := msg.addrOr data msg.localAddr }
  -- IFA_LABEL
  | (3, data) => { msg with label := some (RouteEvents.parseStringFromBytes data) }
  -- IFA_BROADCAST
  | (4, data) => { msg with broadcast := msg.addrOr data msg.broadcast }
  -- IFA_ANYCAST
  | (5, data) => { msg with anycast := msg.addrOr data msg.anycast }
  -- IFA_FLAGS
  | (8, data) => { msg with flags := u32Or order data msg.flags }
  -- IFA_CACHEINFO
  | (6, data) =>
      { msg with cacheInfo := ((AddressCacheInfo.layout order).fromPrefix? data).or msg.cacheInfo }
  | _ => msg

/-- `AddressMessage::parse`; it does not mind what it leaves of its input. -/
def parse (input : List UInt8) : Option AddressMessage :=
  (IfAddrMsg.fromBytes order input).map fun header =>
    let (attrs, _) := RouteEvents.attrsFrom order input.length (input.drop IfAddrMsg.SIZE)
    attrs.foldl (addAttr order) (ofHeader header)

/-!
## Writing
-/

/-- `nla_size`. -/
def nlaSize (payloadLen : Nat) : Nat :=
  (4 + payloadLen + 3) / 4 * 4

/-- `netlink_len`. -/
def netlinkLen (msg : AddressMessage) : Nat :=
  let addrSize := nlaSize (if msg.isIpv4 then 4 else 16)
  IfAddrMsg.SIZE + (if msg.address.isSome then addrSize else 0) +
    (if msg.localAddr.isSome then addrSize else 0) +
    (match msg.label with
      | some label => nlaSize ((asBytes label).length + 1)
      | none => 0) +
    (if msg.broadcast.isSome then nlaSize 4 else 0) +
    (if msg.flags.isSome then nlaSize 4 else 0)

/-- The attributes of a message, in the order in which they are written. -/
def attrs (msg : AddressMessage) : List Attribute :=
  (msg.address.toList.map fun addr => (1, octets addr)) ++
  (msg.localAddr.toList.map fun addr => (2, octets addr)) ++
  (msg.label.toList.map fun label => (3, asBytes label ++ [0])) ++
  (msg.broadcast.toList.map fun addr => (4, octets addr)) ++
  (msg.flags.toList.map fun flags => (8, order.toBytes 4 flags.toNat))

/-- `write_to`. -/
def writeTo (msg : AddressMessage) : List UInt8 :=
  msg.header.asBytes order ++ (msg.attrs order).flatMap (writeAttr order)

end AddressMessage

/-!
## Configurations
-/

/-- `INFINITY_LIFE_TIME`. -/
def INFINITY_LIFE_TIME : BitVec 32 := 0xFFFFFFFF

inductive Scope where
  | universe
  | site
  | link
  | host
  | nowhere

def Scope.number : Scope → UInt8
  | .universe => 0
  | .site => 200
  | .link => 253
  | .host => 254
  | .nowhere => 255

/-- The settings that configurations of both families have. -/
structure Settings where
  prefixLen : UInt8
  scope : Scope
  flags : BitVec 32
  preferredLft : Option (BitVec 32)
  validLft : Option (BitVec 32)
  metric : Option (BitVec 32)

structure Ipv4Address extends Settings where
  address : Ipv4Addr
  peer : Option Ipv4Addr
  broadcast : Option Ipv4Addr
  label : Option String

structure Ipv6Address extends Settings where
  address : Ipv6Addr
  peer : Option Ipv6Addr

/-- `String::truncate`, which panics within a character. -/
def truncate (text : String) (newLen : Nat) : Option String :=
  if (asBytes text).length ≤ newLen then
    some text
  else
    Nftables.fromUtf8 ((asBytes text).take newLen)

/-- `label`; `none` where it panics. -/
def Ipv4Address.withLabel (addr : Ipv4Address) (label : String) : Option Ipv4Address :=
  (truncate label 15).map fun label => { addr with label := some label }

def Settings.lifetimes (settings : Settings) : Option AddressCacheInfo :=
  if settings.preferredLft.isSome ∨ settings.validLft.isSome then
    some
      { preferred := settings.preferredLft.getD INFINITY_LIFE_TIME
        valid := settings.validLft.getD INFINITY_LIFE_TIME
        created := 0
        updated := 0 }
  else
    none

/-- The flags, the lifetimes and the metric, as both encoders write them. -/
def Settings.attrs (settings : Settings) : Writer order :=
  .all [
    .when (settings.flags != 0) (.u32 8 settings.flags),
    .whenSome settings.lifetimes fun info => .attr 6 ((AddressCacheInfo.layout order).write info),
    .whenSome settings.metric fun metric => .u32 9 metric]

/-- `Ipv4Address::write_common_attrs`. -/
def Ipv4Address.commonAttrs (addr : Ipv4Address) : Writer order :=
  .all [
    .attr 2 (Ipv4Addr.octets addr.address),
    .attr 1 (Ipv4Addr.octets (addr.peer.getD addr.address)),
    .whenSome addr.broadcast fun brd => .attr 4 (Ipv4Addr.octets brd),
    .whenSome addr.label fun label => .str 3 label,
    addr.toSettings.attrs order]

/-- `Ipv6Address::write_common_attrs`. -/
def Ipv6Address.commonAttrs (addr : Ipv6Address) : Writer order :=
  .all [
    .attr 2 (Ipv6Addr.octets addr.address),
    .attr 1 (Ipv6Addr.octets (addr.peer.getD addr.address)),
    addr.toSettings.attrs order]

/-- The header of an address that is added. -/
def Settings.ifaddr (settings : Settings) (family : UInt8) (ifindex : BitVec 32) : IfAddrMsg :=
  { IfAddrMsg.new with
    ifaFamily := family
    ifaPrefixlen := settings.prefixLen
    ifaIndex := ifindex
    ifaScope := settings.scope.number }

def Ipv4Address.writeAdd (addr : Ipv4Address) (builder : MessageBuilder) (ifindex : BitVec 32) :
    MessageBuilder :=
  (addr.commonAttrs order).write (builder.appendBytes ((addr.ifaddr AF_INET ifindex).asBytes order))

def Ipv6Address.writeAdd (addr : Ipv6Address) (builder : MessageBuilder) (ifindex : BitVec 32) :
    MessageBuilder :=
  (addr.commonAttrs order).write
    (builder.appendBytes ((addr.ifaddr AF_INET6 ifindex).asBytes order))

end Code

/-!
## What is kept
-/

/-- A message of one of the two families, with addresses of its family. -/
structure Addressed (msg : AddressMessage) : Prop where
  family : msg.header.ifaFamily = AF_INET ∨ msg.header.ifaFamily = AF_INET6
  ofFamily : ∀ addr ∈ msg.address.toList ++ msg.localAddr.toList ++ msg.broadcast.toList ++
    msg.anycast.toList, OfFamily msg.header.ifaFamily.toBitVec addr

/-- What is written of a message is parsed as the message, and its length is
predicted. -/
def RoundTrips (order : ByteOrder) (msg : AddressMessage) : Prop :=
  AddressMessage.parse order (msg.writeTo order) = some msg ∧
    msg.netlinkLen = (msg.writeTo order).length

/-- Nothing is set that is not written, the label ends where its terminator does and
fits the length field, and there is no broadcast address of sixteen bytes. -/
def Writable (msg : AddressMessage) : Prop :=
  msg.anycast = none ∧ msg.cacheInfo = none ∧
    (∀ label ∈ msg.label, NoNul label ∧ (asBytes label).length ≤ 65530) ∧
    (msg.header.ifaFamily = AF_INET6 → msg.broadcast = none)

/-- What was declared is read back. -/
structure Shows (msg : AddressMessage) (address peer : IpAddr) (broadcast : Option IpAddr)
    (settings : Settings) : Prop where
  localAddr : msg.localAddr = some address
  address : msg.address = some peer
  broadcast : msg.broadcast = broadcast
  flags : msg.allFlags = settings.flags
  lifetimes : msg.cacheInfo = settings.lifetimes

/-- A configuration with a label, if one is given, can be built, and what is written
of it is read back, a label of at most fifteen bytes too. -/
def Ipv4Keeps (order : ByteOrder) (addr : Ipv4Address) (label : Option String) : Prop :=
  ∃ built, label.elim (some { addr with label := none }) addr.withLabel = some built ∧
    ∀ (builder : MessageBuilder) (ifindex : BitVec 32), 4 ∣ builder.buf.length →
      ∃ msg, AddressMessage.parse order ((built.writeAdd order builder ifindex).buf.drop
          builder.buf.length) = some msg ∧
        Shows msg (.v4 addr.address) (.v4 (addr.peer.getD addr.address))
          (addr.broadcast.map .v4) addr.toSettings ∧
        ∀ text, label = some text → (asBytes text).length ≤ 15 → msg.label = some text

def Ipv6Keeps (order : ByteOrder) (addr : Ipv6Address) : Prop :=
  ∀ (builder : MessageBuilder) (ifindex : BitVec 32), 4 ∣ builder.buf.length →
    ∃ msg, AddressMessage.parse order ((addr.writeAdd order builder ifindex).buf.drop
        builder.buf.length) = some msg ∧
      Shows msg (.v6 addr.address) (.v6 (addr.peer.getD addr.address)) none addr.toSettings

/-- A short label has no NUL, and a long one does not have a character across its
fifteenth byte. -/
def LabelKept (label : String) : Prop :=
  if (asBytes label).length ≤ 15 then
    NoNul label
  else
    (Nftables.fromUtf8 ((asBytes label).take 15)).isSome

/-!
## Labels
-/

theorem parseString_terminated {text : String} (noNul : NoNul text) (rest : List UInt8) :
    RouteEvents.parseStringFromBytes (asBytes text ++ 0 :: rest) = text := by
  rw [RouteEvents.parseStringFromBytes, takeWhile_terminated noNul, Genl.fromUtf8Lossy,
    Nftables.fromUtf8_asBytes]

/-- A text is read up to its first NUL. -/
theorem parseString_eq_iff (text : String) :
    RouteEvents.parseStringFromBytes (asBytes text ++ [0]) = text ↔ NoNul text := by
  refine ⟨fun same => ?_, fun noNul => parseString_terminated noNul []⟩
  by_contra hasNul
  have member : '\x00' ∈ text.toList := by
    by_contra terminated
    exact hasNul (Nftables.noNul_asBytes terminated)
  obtain ⟨before, after, split, first⟩ := eq_append_cons_of_mem member
  have isText : text = String.ofList before ++ ("\x00" ++ String.ofList after) := by
    apply String.toList_injective
    rw [split, String.toList_append, String.toList_append, String.toList_ofList,
      String.toList_ofList, String.toList_ofList]
    rfl
  have noNul : NoNul (String.ofList before) :=
    Nftables.noNul_asBytes (by rwa [String.toList_ofList])
  have bytes : asBytes text ++ [0] = asBytes (String.ofList before) ++
      0 :: (asBytes (String.ofList after) ++ [0]) := by
    have single : asBytes "\x00" = [0] := by decide +kernel
    rw [isText, Nftables.asBytes_append, Nftables.asBytes_append, single, List.append_assoc]
    rfl
  rw [bytes, parseString_terminated noNul] at same
  have length := congrArg (fun text => text.toList.length) same
  rw [split, String.toList_ofList, length_append, length_cons] at length
  omega

/-!
## Messages
-/

section Messages

variable (order : ByteOrder)

/-- A body of a header and attributes is parsed attribute by attribute. -/
theorem parse_body (header : IfAddrMsg) {attrs : List Attribute} (fit : ∀ attr ∈ attrs, attr.Fits) :
    AddressMessage.parse order (header.asBytes order ++ encodeAll order attrs) =
      some ((attrs.map Attribute.masked).foldl (AddressMessage.addAttr order)
        (.ofHeader header)) := by
  have enough : attrs.length ≤ (header.asBytes order ++ encodeAll order attrs).length := by
    rw [length_append]
    exact Nat.le_add_left_of_le (RouteEvents.length_le_length_encodeAll order attrs)
  rw [AddressMessage.parse, IfAddrMsg.fromBytes_asBytes, drop_left' (IfAddrMsg.asBytes_length
    order header), RouteEvents.attrsFrom_encodeAll order fit enough]
  rfl

theorem length_octets {family : BitVec 8} {addr : IpAddr} (ofFamily : OfFamily family addr) :
    (octets addr).length = if family = Neighbor.AF_INET then 4 else 16 := by
  cases addr with
  | v4 addr =>
      cases ofFamily
      exact Ipv4Addr.octets_length addr
  | v6 addr =>
      cases ofFamily
      exact Ipv6Addr.octets_length addr

theorem length_writeAttr (attr : Attribute) :
    (writeAttr order attr).length = AddressMessage.nlaSize attr.2.length := by
  have padded := Netlink.le_nlaAlign (4 + attr.2.length)
  rw [writeAttr, length_append, length_append, length_append, ByteOrder.toBytes_length,
    ByteOrder.toBytes_length, padding, length_replicate, AddressMessage.nlaSize]
  rw [nlaAlign] at padded ⊢
  omega

variable {order} {msg : AddressMessage}

/-- The attributes of a message are added to its header. -/
theorem foldl_attrs (addressed : Addressed msg) :
    (msg.attrs order).foldl (AddressMessage.addAttr order) (.ofHeader msg.header) =
      { msg with
        label := msg.label.map fun label => RouteEvents.parseStringFromBytes (asBytes label ++ [0])
        anycast := none
        cacheInfo := none } := by
  obtain ⟨header, address, localAddr, label, broadcast, anycast, flags, cacheInfo⟩ := msg
  have parsed {addr : IpAddr} (isAddr : addr ∈ address.toList ++ localAddr.toList ++
      broadcast.toList ++ anycast.toList) :
      parseIpAddr (octets addr) header.ifaFamily.toBitVec = .ok addr :=
    Neighbor.parseIpAddr_octets (addressed.ofFamily addr isAddr)
  simp only [mem_append, Option.mem_toList] at parsed
  have withAddress := @foldl_field_mem _ _ (AddressMessage.addAttr order)
    (fun addr => (1, octets addr))
    (AddressMessage.mk header · none none none none none none) address fun addr isAddr => by
      rw [AddressMessage.addAttr, AddressMessage.addrOr, parsed (.inl (.inl (.inl isAddr)))]
  have withLocal := foldl_then withAddress <|
    @foldl_field_mem _ _ (AddressMessage.addAttr order) (fun addr => (2, octets addr))
      (AddressMessage.mk header address · none none none none none) localAddr fun addr isAddr => by
        rw [AddressMessage.addAttr, AddressMessage.addrOr, parsed (.inl (.inl (.inr isAddr)))]
  have withLabel := foldl_then withLocal <|
    @foldl_field_mem _ _ (AddressMessage.addAttr order) (fun text => (3, asBytes text ++ [0]))
      (fun label => AddressMessage.mk header address localAddr (label.map fun label =>
        RouteEvents.parseStringFromBytes (asBytes label ++ [0])) none none none none) label
      fun text _ => rfl
  have withBroadcast := foldl_then withLabel <|
    @foldl_field_mem _ _ (AddressMessage.addAttr order) (fun addr => (4, octets addr))
      (AddressMessage.mk header address localAddr _ · none none none) broadcast
      fun addr isAddr => by
        rw [AddressMessage.addAttr, AddressMessage.addrOr, parsed (.inl (.inr isAddr))]
  exact foldl_then withBroadcast <|
    foldl_field (fun flags => (8, order.toBytes 4 flags.toNat))
      (AddressMessage.mk header address localAddr _ broadcast none · none)
      (fun value => congrArg (AddressMessage.mk header address localAddr _ broadcast none · none)
        (u32Or_toBytes order value none)) flags

theorem fits_attrs (short : ∀ label ∈ msg.label, (asBytes label).length ≤ 65530) :
    ∀ attr ∈ msg.attrs order, attr.Fits ∧ attr.1 < NLA_F_NET_BYTEORDER := by
  have octetsShort : ∀ addr, (octets addr).length ≤ 16 := by
    intro addr
    cases addr <;> simp [octets]
  intro attr member
  simp only [AddressMessage.attrs, mem_append, mem_map, Option.mem_toList] at member
  simp only [Attribute.Fits, NLA_HDRLEN, NLA_F_NET_BYTEORDER]
  rcases member with (((⟨addr, -, rfl⟩ | ⟨addr, -, rfl⟩) | ⟨label, isLabel, rfl⟩) |
    ⟨addr, -, rfl⟩) | ⟨flags, -, rfl⟩
  case inl.inl.inr =>
    have atMost := short label isLabel
    rw [length_append, length_singleton]
    omega
  case inr =>
    rw [ByteOrder.toBytes_length]
    omega
  all_goals
    have atMost := octetsShort addr
    dsimp only
    omega

theorem parse_writeTo (addressed : Addressed msg)
    (short : ∀ label ∈ msg.label, (asBytes label).length ≤ 65530) :
    AddressMessage.parse order (msg.writeTo order) = some
      { msg with
        label := msg.label.map fun label => RouteEvents.parseStringFromBytes (asBytes label ++ [0])
        anycast := none
        cacheInfo := none } := by
  have fits := @fits_attrs order msg short
  have plain : (msg.attrs order).map Attribute.masked = msg.attrs order :=
    (map_congr_left fun attr member => Attribute.masked_of_lt (fits attr member).2).trans (map_id _)
  have fit : ∀ attr ∈ msg.attrs order, attr.Fits := fun attr member => (fits attr member).1
  rw [AddressMessage.writeTo, Neighbor.flatMap_writeAttr order fit, parse_body order _ fit, plain,
    foldl_attrs addressed]

theorem length_toList {α : Type} (value : Option α) (attr : α → Attribute) {size : Nat}
    (each : ∀ found ∈ value, (attr found).2.length = size) :
    ((value.toList.map attr).flatMap (writeAttr order)).length =
      if value.isSome then AddressMessage.nlaSize size else 0 := by
  cases value with
  | none => rfl
  | some found =>
      rw [← each found rfl, ← length_writeAttr order]
      exact congrArg List.length (flatMap_singleton ..)

theorem length_label (label : Option String) :
    ((label.toList.map fun label => ((3, asBytes label ++ [0]) : Attribute)).flatMap
        (writeAttr order)).length =
      match label with
      | some label => AddressMessage.nlaSize ((asBytes label).length + 1)
      | none => 0 := by
  cases label with
  | none => rfl
  | some label =>
      exact (congrArg List.length (flatMap_singleton ..)).trans
        ((length_writeAttr order _).trans (by rw [length_append, length_singleton]))

/-- The predicted length is that of the bytes, unless a broadcast address of sixteen
bytes is among them. -/
theorem netlinkLen_eq_iff (addressed : Addressed msg) :
    msg.netlinkLen = (msg.writeTo order).length ↔
      (msg.header.ifaFamily = AF_INET6 → msg.broadcast = none) := by
  obtain ⟨family, ofFamily⟩ := addressed
  have size : ∀ addr ∈ msg.address.toList ++ msg.localAddr.toList ++ msg.broadcast.toList ++
      msg.anycast.toList, (octets addr).length = if msg.isIpv4 then 4 else 16 := by
    intro addr member
    rw [length_octets (ofFamily addr member), AddressMessage.isIpv4]
    rcases family with isIpv4 | isIpv6
    · rw [isIpv4]
      rfl
    · rw [isIpv6]
      rfl
  simp only [mem_append, Option.mem_toList] at size
  rw [AddressMessage.netlinkLen, AddressMessage.writeTo, AddressMessage.attrs]
  simp only [flatMap_append, length_append, IfAddrMsg.asBytes_length, length_label]
  rw [length_toList msg.address (fun addr => (1, octets addr)) fun addr isAddr =>
      size addr (.inl (.inl (.inl isAddr))),
    length_toList msg.localAddr (fun addr => (2, octets addr)) fun addr isAddr =>
      size addr (.inl (.inl (.inr isAddr))),
    length_toList msg.broadcast (fun addr => (4, octets addr)) fun addr isAddr =>
      size addr (.inl (.inr isAddr)),
    length_toList msg.flags (fun flags => (8, order.toBytes 4 flags.toNat)) fun flags _ =>
      order.toBytes_length 4 _]
  rw [AddressMessage.isIpv4]
  rcases family with isIpv4 | isIpv6
  · rw [isIpv4]
    refine iff_of_true ?_ (absurd · (by decide))
    simp only [Nat.add_assoc]
    rfl
  · rw [isIpv6]
    cases msg.broadcast with
    | none =>
        refine iff_of_true ?_ fun _ => rfl
        simp only [Nat.add_assoc]
        rfl
    | some addr =>
        refine iff_of_false (fun same => ?_) fun noBroadcast => nomatch noBroadcast rfl
        have small : AddressMessage.nlaSize 4 = 8 := rfl
        have large : AddressMessage.nlaSize (if decide (AF_INET6 = AF_INET) = true then 4 else 16) =
          20 := rfl
        simp only [Option.isSome_some, if_true, small, large] at same
        omega

theorem roundTrips_of_writable (addressed : Addressed msg) (writable : Writable msg) :
    RoundTrips order msg := by
  obtain ⟨noAnycast, noInfo, label, noBroadcast⟩ := writable
  refine ⟨?_, (netlinkLen_eq_iff addressed).mpr noBroadcast⟩
  rw [parse_writeTo addressed fun text isText => (label text isText).2]
  have kept : (msg.label.map fun label =>
      RouteEvents.parseStringFromBytes (asBytes label ++ [0])) = msg.label := by
    cases isLabel : msg.label with
    | none => rfl
    | some text => exact congrArg some ((parseString_eq_iff text).mpr (label text isLabel).1)
  rw [kept, ← noAnycast, ← noInfo]

theorem writable_of_roundTrips (addressed : Addressed msg)
    (short : ∀ label ∈ msg.label, (asBytes label).length ≤ 65530)
    (roundTrips : RoundTrips order msg) : Writable msg := by
  obtain ⟨parsed, length⟩ := roundTrips
  rw [parse_writeTo addressed short, Option.some.injEq] at parsed
  refine ⟨(congrArg AddressMessage.anycast parsed).symm,
    (congrArg AddressMessage.cacheInfo parsed).symm, fun text isText => ⟨?_, short text isText⟩,
    (netlinkLen_eq_iff addressed).mp length⟩
  have kept := congrArg AddressMessage.label parsed
  dsimp only at kept
  rw [isText] at kept
  exact (parseString_eq_iff text).mp (Option.some.inj kept)

end Messages

/-!
## Configurations
-/

section Configurations

variable {order : ByteOrder}

theorem drop_written (writer : Writer order) (header : IfAddrMsg) {builder : MessageBuilder}
    (aligned : 4 ∣ builder.buf.length) :
    (writer.write (builder.appendBytes (header.asBytes order))).buf.drop builder.buf.length =
      header.asBytes order ++ encodeAll order writer.attrs := by
  have headerAligned : 4 ∣ (header.asBytes order).length := by
    rw [IfAddrMsg.asBytes_length]
    decide
  rw [((appends_header headerAligned).comp writer.appends).appended builder aligned, drop_left]

/-- What the flags, the lifetimes and the metric add to a message. -/
theorem foldl_settings (settings : Settings) (msg : AddressMessage) :
    (settings.attrs order).seen.foldl (AddressMessage.addAttr order) msg =
      { msg with
        flags := if settings.flags = 0 then msg.flags else some settings.flags
        cacheInfo := settings.lifetimes.or msg.cacheInfo } := by
  have withFlags : (Writer.when (settings.flags != 0) (.u32 8 settings.flags) :
      Writer order).seen.foldl (AddressMessage.addAttr order) msg =
        { msg with flags := if settings.flags = 0 then msg.flags else some settings.flags } := by
    by_cases unset : settings.flags = 0
    · rw [if_pos unset, unset]
      rfl
    · rw [if_neg unset, bne_iff_ne.mpr unset]
      exact congrArg (fun flags => { msg with flags := flags })
        (u32Or_toBytes order settings.flags msg.flags)
  have withLifetimes (msg : AddressMessage) : (whenSome settings.lifetimes fun info =>
      (.attr 6 ((AddressCacheInfo.layout order).write info) : Writer order)).seen.foldl
        (AddressMessage.addAttr order) msg =
          { msg with cacheInfo := settings.lifetimes.or msg.cacheInfo } := by
    cases settings.lifetimes with
    | none => rfl
    | some info =>
        have read := (AddressCacheInfo.layout order).fromPrefix?_write info []
        rw [List.append_nil] at read
        exact congrArg (fun found : Option AddressCacheInfo =>
          { msg with cacheInfo := found.or msg.cacheInfo }) read
  have withMetric (msg : AddressMessage) : (whenSome settings.metric fun metric =>
      (.u32 9 metric : Writer order)).seen.foldl (AddressMessage.addAttr order) msg = msg := by
    cases settings.metric <;> rfl
  rw [Settings.attrs, seen_all_cons, seen_all_cons, seen_all_cons,
    seen_all_nil, List.append_nil, foldl_append, foldl_append, withFlags,
    withLifetimes, withMetric]

theorem small_settings (settings : Settings) : (settings.attrs order).Small (3 * 23) := by
  have length := (AddressCacheInfo.layout order).length_write
  rw [show (AddressCacheInfo.layout order).size = 16 from rfl] at length
  refine Writer.Small.all 23 ?_ (Nat.le_refl _)
  simp [length]

theorem shows_of_settings {msg : AddressMessage} {address peer : IpAddr}
    {broadcast : Option IpAddr} {settings : Settings} (isLocal : msg.localAddr = some address)
    (isAddress : msg.address = some peer) (isBroadcast : msg.broadcast = broadcast)
    (noFlags : msg.flags = none ∧ msg.header.ifaFlags = 0) (noInfo : msg.cacheInfo = none) :
    Shows { msg with
      flags := if settings.flags = 0 then msg.flags else some settings.flags
      cacheInfo := settings.lifetimes.or msg.cacheInfo } address peer broadcast settings where
  localAddr := isLocal
  address := isAddress
  broadcast := isBroadcast
  flags := by
    rw [AddressMessage.allFlags]
    by_cases unset : settings.flags = 0
    · rw [if_pos unset, unset, noFlags.1, noFlags.2]
      rfl
    · rw [if_neg unset, Option.getD_some]
  lifetimes := by rw [noInfo, Option.or_none]

/-- A writer behind a header is parsed attribute by attribute. -/
theorem parse_written {writer : Writer order} {size : Nat} (small : writer.Small size)
    (header : IfAddrMsg) {builder : MessageBuilder} (aligned : 4 ∣ builder.buf.length) :
    AddressMessage.parse order ((writer.write (builder.appendBytes
      (header.asBytes order))).buf.drop builder.buf.length) =
        some (writer.seen.foldl (AddressMessage.addAttr order) (.ofHeader header)) := by
  rw [drop_written writer header aligned, parse_body order header small.2, Writer.seen]

theorem parseIpAddr_v4 (addr : Ipv4Addr) :
    parseIpAddr (Ipv4Addr.octets addr) AF_INET.toBitVec = .ok (.v4 addr) :=
  @Neighbor.parseIpAddr_octets _ (.v4 addr) rfl

theorem parseIpAddr_v6 (addr : Ipv6Addr) :
    parseIpAddr (Ipv6Addr.octets addr) AF_INET6.toBitVec = .ok (.v6 addr) :=
  @Neighbor.parseIpAddr_octets _ (.v6 addr) rfl

/-- The local address and the address, which both encoders write first. -/
theorem foldl_addresses {header : IfAddrMsg} {first second : IpAddr} {bytes more : List UInt8}
    (isFirst : parseIpAddr bytes header.ifaFamily.toBitVec = .ok first)
    (isSecond : parseIpAddr more header.ifaFamily.toBitVec = .ok second) :
    (Writer.attr 1 more : Writer order).seen.foldl (AddressMessage.addAttr order)
        ((Writer.attr 2 bytes : Writer order).seen.foldl (AddressMessage.addAttr order)
          (.ofHeader header)) =
      { AddressMessage.ofHeader header with localAddr := some first, address := some second } := by
  change AddressMessage.addAttr order (AddressMessage.addAttr order (.ofHeader header)
    (2, bytes)) (1, more) = _
  rw [AddressMessage.addAttr, AddressMessage.addAttr, AddressMessage.addrOr, AddressMessage.addrOr]
  dsimp only [AddressMessage.ofHeader]
  rw [isFirst, isSecond]

theorem ipv6Keeps (order : ByteOrder) (addr : Ipv6Address) : Ipv6Keeps order addr := by
  intro builder ifindex aligned
  have small : (addr.commonAttrs order).Small _ :=
    (small_attr (by decide) (by simp) (by decide : 23 ≤ 65538)).andThen <|
    (small_attr (by decide) (by simp) (by decide : 23 ≤ 65538)).andThen <|
    (small_settings addr.toSettings).andThen (small_nothing 0)
  refine ⟨_, parse_written small (addr.ifaddr AF_INET6 ifindex) aligned, ?_⟩
  rw [Ipv6Address.commonAttrs, seen_all_cons, seen_all_cons, seen_all_cons,
    seen_all_nil, List.append_nil, foldl_append, foldl_append, foldl_addresses
    (parseIpAddr_v6 addr.address) (parseIpAddr_v6 (addr.peer.getD addr.address)), foldl_settings]
  exact shows_of_settings rfl rfl rfl ⟨rfl, rfl⟩ rfl

theorem length_of_truncate {text cut : String} (isCut : truncate text 15 = some cut) :
    (asBytes cut).length ≤ 15 := by
  rw [truncate] at isCut
  split at isCut
  · cases isCut
    assumption
  · rw [Nftables.asBytes_of_fromUtf8 isCut, length_take]
    omega

/-- What is written of a configuration with a label of at most fifteen bytes. -/
theorem parse_ipv4 {addr : Ipv4Address}
    (short : ∀ label ∈ addr.label, (asBytes label).length ≤ 15) (ifindex : BitVec 32)
    {builder : MessageBuilder} (aligned : 4 ∣ builder.buf.length) :
    ∃ msg, AddressMessage.parse order ((addr.writeAdd order builder ifindex).buf.drop
        builder.buf.length) = some msg ∧
      Shows msg (.v4 addr.address) (.v4 (addr.peer.getD addr.address)) (addr.broadcast.map .v4)
        addr.toSettings ∧
      msg.label = addr.label.map fun label =>
        RouteEvents.parseStringFromBytes (asBytes label ++ [0]) := by
  have small : (addr.commonAttrs order).Small _ :=
    (small_attr (by decide) (by simp) (by decide : 23 ≤ 65538)).andThen <|
    (small_attr (by decide) (by simp) (by decide : 23 ≤ 65538)).andThen <|
    (Writer.small_whenSome.mpr fun brd _ =>
      small_attr (by decide) (by simp) (by decide : 23 ≤ 65538)).andThen <|
    (Writer.small_whenSome.mpr fun label isLabel =>
      small_str (by decide) (Nat.add_le_add_right (short label isLabel) 8)
        (by decide)).andThen <|
    (small_settings addr.toSettings).andThen (small_nothing 0)
  refine ⟨_, parse_written small (addr.ifaddr AF_INET ifindex) aligned, ?_⟩
  have withBroadcast (msg : AddressMessage) (isFamily : msg.header.ifaFamily = AF_INET)
      (unset : msg.broadcast = none) : (whenSome addr.broadcast fun brd =>
        (.attr 4 (Ipv4Addr.octets brd) : Writer order)).seen.foldl
          (AddressMessage.addAttr order) msg =
            { msg with broadcast := addr.broadcast.map .v4 } := by
    cases addr.broadcast with
    | none =>
        cases msg
        cases unset
        rfl
    | some brd =>
        have parsed := parseIpAddr_v4 brd
        rw [← isFamily] at parsed
        change AddressMessage.addAttr order msg (4, Ipv4Addr.octets brd) = _
        rw [AddressMessage.addAttr, AddressMessage.addrOr, parsed]
        rfl
  have withLabel (msg : AddressMessage) (unset : msg.label = none) :
      (whenSome addr.label fun label => (.str 3 label : Writer order)).seen.foldl
        (AddressMessage.addAttr order) msg =
          { msg with
            label := addr.label.map fun label =>
              RouteEvents.parseStringFromBytes (asBytes label ++ [0]) } := by
    cases addr.label with
    | none =>
        cases msg
        cases unset
        rfl
    | some label => rfl
  rw [Ipv4Address.commonAttrs, seen_all_cons, seen_all_cons, seen_all_cons,
    seen_all_cons, seen_all_cons, seen_all_nil, List.append_nil,
    foldl_append, foldl_append, foldl_append, foldl_append,
    foldl_addresses (parseIpAddr_v4 addr.address) (parseIpAddr_v4 (addr.peer.getD addr.address)),
    withBroadcast _ rfl rfl, withLabel _ rfl, foldl_settings]
  exact ⟨shows_of_settings rfl rfl rfl ⟨rfl, rfl⟩ rfl, rfl⟩

theorem ipv4Keeps_iff (order : ByteOrder) (addr : Ipv4Address) (label : Option String) :
    Ipv4Keeps order addr label ↔ ∀ text ∈ label, LabelKept text := by
  cases label with
  | none =>
      refine iff_of_true ⟨_, rfl, fun builder ifindex aligned => ?_⟩ (by rintro _ ⟨⟩)
      obtain ⟨msg, parsed, shows, -⟩ :=
        @parse_ipv4 order { addr with label := none } (by rintro _ ⟨⟩) ifindex builder aligned
      exact ⟨msg, parsed, shows, by rintro _ ⟨⟩⟩
  | some text =>
      have built {cut : String} (isCut : truncate text 15 = some cut) :
          addr.withLabel text = some { addr with label := some cut } := by
        rw [Ipv4Address.withLabel, isCut]
        rfl
      have written {cut : String} (isCut : truncate text 15 = some cut) (ifindex : BitVec 32)
          {builder : MessageBuilder} (aligned : 4 ∣ builder.buf.length) :=
        @parse_ipv4 order { addr with label := some cut }
          (by rintro _ ⟨⟩; exact length_of_truncate isCut) ifindex builder aligned
      simp only [Option.mem_def, Option.some.injEq, forall_eq']
      constructor
      · rintro ⟨made, isMade, keeps⟩
        obtain ⟨cut, isCut, rfl⟩ := Option.map_eq_some_iff.mp isMade
        rw [LabelKept]
        by_cases short : (asBytes text).length ≤ 15
        · have same : cut = text := by
            rw [truncate, if_pos short] at isCut
            exact (Option.some.inj isCut).symm
          obtain ⟨msg, parsed, -, kept⟩ := keeps ⟨[]⟩ 0 (Nat.dvd_zero 4)
          obtain ⟨other, otherParsed, -, shown⟩ := @written cut isCut 0 ⟨[]⟩ (Nat.dvd_zero 4)
          cases parsed.symm.trans otherParsed
          rw [kept text rfl short, same] at shown
          rw [if_pos short]
          exact (parseString_eq_iff text).mp (Option.some.inj shown).symm
        · rw [truncate, if_neg short] at isCut
          rw [if_neg short, isCut]
          rfl
      · intro labelKept
        rw [LabelKept] at labelKept
        by_cases short : (asBytes text).length ≤ 15
        · rw [if_pos short] at labelKept
          have isCut : truncate text 15 = some text := if_pos short
          refine ⟨_, built isCut, fun builder ifindex aligned => ?_⟩
          obtain ⟨msg, parsed, shows, shown⟩ := written isCut ifindex aligned
          refine ⟨msg, parsed, shows, fun found isFound _ => ?_⟩
          cases isFound
          exact shown.trans (congrArg some ((parseString_eq_iff text).mpr labelKept))
        · rw [if_neg short] at labelKept
          obtain ⟨cut, isText⟩ := Option.isSome_iff_exists.mp labelKept
          have isCut : truncate text 15 = some cut := (if_neg short).trans isText
          refine ⟨_, built isCut, fun builder ifindex aligned => ?_⟩
          obtain ⟨msg, parsed, shows, -⟩ := written isCut ifindex aligned
          refine ⟨msg, parsed, shows, fun found isFound fits => ?_⟩
          cases isFound
          exact absurd fits short

end Configurations

/-- Each of the encoders is read back. -/
theorem codec_keeps_iff (order : ByteOrder) :
    (∀ msg, Addressed msg → (Writable msg → RoundTrips order msg) ∧
      (RoundTrips order msg → Writable msg ∨
        ∃ label ∈ msg.label, 65530 < (asBytes label).length)) ∧
      (∀ addr label, Ipv4Keeps order addr label ↔ ∀ text ∈ label, LabelKept text) ∧
        ∀ addr, Ipv6Keeps order addr := by
  refine ⟨fun msg addressed => ⟨roundTrips_of_writable addressed, fun roundTrips => ?_⟩,
    ipv4Keeps_iff order, ipv6Keeps order⟩
  by_cases short : ∀ label ∈ msg.label, (asBytes label).length ≤ 65530
  · exact .inl (writable_of_roundTrips addressed short roundTrips)
  · simp only [not_forall, Nat.not_le] at short
    obtain ⟨label, isLabel, long⟩ := short
    exact .inr ⟨label, isLabel, long⟩

/-- A message of 192.0.2.1/24 with a label and a broadcast address. -/
def labelled : AddressMessage :=
  { AddressMessage.ofHeader ⟨AF_INET, 24, 0, 0, 2⟩ with
    localAddr := some (.v4 0xC0000201)
    label := some "eth0:1"
    broadcast := some (.v4 0xC00002FF) }

theorem codec_keeps_iff_labelled : RoundTrips .little labelled := by
  have addressed : Addressed labelled := by
    refine ⟨.inl rfl, ?_⟩
    simp [labelled, AddressMessage.ofHeader, OfFamily]
    rfl
  refine ((codec_keeps_iff .little).1 labelled addressed).1 ⟨rfl, rfl, ?_, nofun⟩
  rintro _ ⟨⟩
  decide

/-- The address 192.0.2.1/24 without further settings. -/
def plainAddress : Ipv4Address where
  prefixLen := 24
  scope := .universe
  flags := 0
  preferredLft := none
  validLft := none
  metric := none
  address := 0xC0000201
  peer := none
  broadcast := none
  label := none

/-- The fifteenth byte is within the last character. -/
theorem not_keeps_plainAddress : ¬ Ipv4Keeps .little plainAddress (some "eth0:standort-é") := by
  rintro ⟨built, isBuilt, -⟩
  have refused : (plainAddress.withLabel "eth0:standort-é").isNone := by decide +kernel
  rw [show plainAddress.withLabel "eth0:standort-é" = some built from isBuilt] at refused
  cases refused

end Nlink.AddressCodec
