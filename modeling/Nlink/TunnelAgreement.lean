import Nlink.TunnelLinks

namespace Nlink.TunnelLinks

open Foundation Netlink Writer
open Nlink.Network (validate)

/-!
# Tunnels as they are declared

The kernel creates the declared tunnel for the IPv6 kinds of GRE.  For the other
kinds the underlay is sent where the kernel does not look for it, and for those
of GRE a key is sent in the byte order of the host.
-/

/-- The tunnel that a link declares on an underlay. -/
def TunnelLink.declared (underlay : BitVec 32) (link : TunnelLink) : Tunnel :=
  let none' : Tunnel :=
    { kind := link.kind, underlay := underlay, localAddr := none,
      remote := none, ikey := none, okey := none, flowinfo := none,
      ttl := none, tos := none, pmtudisc := none, ignoreDf := none,
      fwmark := none }
  match link with
  | .gre link =>
      { none' with
        localAddr := link.localAddr.map Ipv4Addr.octets
        remote := link.remote.map Ipv4Addr.octets
        ikey := link.ikey
        okey := link.okey
        ttl := link.ttl
        tos := link.tos
        pmtudisc := link.pmtudisc.map boolByte
        ignoreDf := link.ignoreDf.map boolByte
        fwmark := link.fwmark }
  | .gretap link =>
      { none' with
        localAddr := link.localAddr.map Ipv4Addr.octets
        remote := link.remote.map Ipv4Addr.octets
        ikey := link.ikey
        okey := link.okey
        ttl := link.ttl
        tos := link.tos
        pmtudisc := link.pmtudisc.map boolByte
        fwmark := link.fwmark }
  | .ip6gre link =>
      { none' with
        localAddr := link.localAddr.map Ipv6Addr.octets
        remote := link.remote.map Ipv6Addr.octets
        flowinfo := link.flowinfo
        ttl := link.ttl }
  | .ip6gretap link =>
      { none' with
        localAddr := link.localAddr.map Ipv6Addr.octets
        remote := link.remote.map Ipv6Addr.octets
        flowinfo := link.flowinfo
        ttl := link.ttl }
  | .ipip link =>
      { none' with
        localAddr := link.localAddr.map Ipv4Addr.octets
        remote := link.remote.map Ipv4Addr.octets
        ttl := link.ttl
        tos := link.tos
        pmtudisc := link.pmtudisc.map boolByte
        fwmark := link.fwmark }
  | .sit link =>
      { none' with
        localAddr := link.localAddr.map Ipv4Addr.octets
        remote := link.remote.map Ipv4Addr.octets
        ttl := link.ttl
        tos := link.tos
        pmtudisc := link.pmtudisc.map boolByte
        fwmark := link.fwmark }
  | .vti link =>
      { none' with
        localAddr := link.localAddr.map Ipv4Addr.octets
        remote := link.remote.map Ipv4Addr.octets
        ikey := link.ikey
        okey := link.okey }
  | .vti6 link =>
      { none' with
        localAddr := link.localAddr.map Ipv6Addr.octets
        remote := link.remote.map Ipv6Addr.octets
        ikey := link.ikey
        okey := link.okey }

/-- A link that is added is the declared tunnel on the declared underlay. -/
def CreatesDeclared (order : ByteOrder) (resolve : String → Except Network.Error (BitVec 32))
    (link : TunnelLink) : Prop :=
  ∀ refuses tunnel, addLink order resolve refuses link = .ok tunnel →
    ∃ parent, parentIndex resolve link = .ok parent ∧ tunnel = link.declared (parent.getD 0)

/-- No underlay is declared, and no key of GRE unless the host is big-endian;
the IPv6 kinds of GRE may have any underlay. -/
def TunnelLink.Sound (order : ByteOrder) (parent : Option (BitVec 32)) : TunnelLink → Prop
  | .gre link => parent.getD 0 = 0 ∧ (order = .big ∨ link.ikey = none ∧ link.okey = none)
  | .gretap link => parent.getD 0 = 0 ∧ (order = .big ∨ link.ikey = none ∧ link.okey = none)
  | .ip6gre _ | .ip6gretap _ => True
  | .ipip _ | .sit _ | .vti _ | .vti6 _ => parent.getD 0 = 0

/-!
## The attributes of each kind
-/

namespace TunnelLink

/-- The attributes in `IFLA_INFO_DATA`. -/
def data {order : ByteOrder} (parentIndex : Option (BitVec 32)) : TunnelLink → Writer order
  | .gre link => link.data
  | .gretap link => link.data
  | .ip6gre link => link.data parentIndex
  | .ip6gretap link => link.data parentIndex
  | .ipip link => link.data
  | .sit link => link.data
  | .vti link => link.data
  | .vti6 link => link.data

variable (order : ByteOrder) (parent : Option (BitVec 32)) (link : TunnelLink)

theorem small_greKey {flagsType keyType : Nat} (plain : flagsType < 65536)
    (plainKey : keyType < 65536) (key : BitVec 32) :
    (greKey flagsType keyType key : Writer order).Small 24 := by
  exact Writer.Small.all 12 (by simp [plain, plainKey]) (by simp)

theorem small_data : (link.data parent : Writer order).Small 216 := by
  cases link with
  | gre link | gretap link =>
      refine Writer.Small.all 24 ?_ (by simp)
      simp [small_greKey]
  | ip6gre link | ip6gretap link | ipip link | sit link | vti link | vti6 link =>
      refine Writer.Small.all 24 ?_ (by simp)
      simp

/-!
## The request
-/

theorem length_asBytes_lt {name : String} (isValid : validate name = none) :
    (asBytes name).length < 16 := by
  have short : ¬ name.utf8ByteSize ≥ Network.IFNAMSIZ := by
    intro long
    rw [validate] at isValid
    split at isValid
    · cases isValid
    · cases isValid
  have size : (asBytes name).length = name.utf8ByteSize := by
    simp [asBytes, ← String.size_toByteArray]
  rw [size]
  exact Nat.lt_of_not_le short

theorem length_asBytes_text (kind : TunnelKind) : (asBytes kind.text).length ≤ 9 := by
  cases kind <;> decide

/-- The attributes in `IFLA_LINKINFO`. -/
def info : Writer order :=
  .all [.str IFLA_INFO_KIND link.kind.text, .nest IFLA_INFO_DATA (link.data parent)]

theorem small_info : (link.info order parent).Small 446 := by
  refine Writer.Small.all 223 ?_ (by simp)
  refine List.forall_mem_cons.mpr ⟨?_, List.forall_mem_singleton.mpr ?_⟩
  · have short := length_asBytes_text link.kind
    exact small_str (by decide) (by omega) (by decide)
  · exact (link.small_data order parent).nest (by decide) (by decide)

theorem found_linkinfo (kind : String) (data : Writer order) :
    (linkinfo kind data).found IFLA_LINKINFO =
      some (encodeAll order
        (Writer.all [.str IFLA_INFO_KIND kind, .nest IFLA_INFO_DATA data]).attrs) :=
  found_nest _ (by decide) _

theorem found_writeTo : (link.writeTo parent : Writer order).found IFLA_LINKINFO =
      some (encodeAll order (link.info order parent).attrs) := by
  cases link <;>
    simp only [writeTo, GreLink.writeTo, GretapLink.writeTo, Ip6GreLink.writeTo,
      Ip6GretapLink.writeTo, IpipLink.writeTo, SitLink.writeTo, VtiLink.writeTo, Vti6Link.writeTo,
      found_all_cons, found_all_nil, found_linkinfo, Option.none_or, Option.some_or]
      <;>
    rfl

theorem small_writeTo (isValid : validate link.name = none) :
    (link.writeTo parent : Writer order).Small 2000 := by
  have short := length_asBytes_lt isValid
  have name : (writeIfname link.name : Writer order).Small 500 :=
    small_str (by decide) (by omega) (by decide)
  have nested : (linkinfo link.kind.text (link.data parent) : Writer order).Small 500 :=
    ((link.small_info order parent).nest (by decide) (by decide)).mono (by decide)
  have mtu : ∀ value : Option (BitVec 32),
      (whenSome value (.u32 IFLA_MTU) : Writer order).Small 500 := by
    simp
  have underlay : (whenSome parent (.u32 IFLA_LINK) : Writer order).Small 500 := by simp
  cases link with
  | gre link | gretap link | ipip link | sit link =>
      exact Writer.Small.all 500 (List.forall_iff_forall_mem.mp ⟨name, mtu _, underlay, nested⟩)
        (by simp)
  | ip6gre link | ip6gretap link =>
      exact Writer.Small.all 500 (List.forall_iff_forall_mem.mp ⟨name, nested⟩) (by simp)
  | vti link | vti6 link =>
      exact Writer.Small.all 500 (List.forall_iff_forall_mem.mp ⟨name, underlay, nested⟩) (by simp)

theorem readTunnel_writeTo : readTunnel order (link.writeTo parent : Writer order).seen =
      some (link.kind.read order (link.data parent : Writer order).seen) := by
  have info : attrIter order (encodeAll order (link.info order parent).attrs) =
      (link.info order parent).seen :=
    attrIter_payload (link.small_info order parent)
  have data : attrIter order (encodeAll order (link.data parent : Writer order).attrs) =
        (link.data parent : Writer order).seen :=
    attrIter_payload (link.small_data order parent)
  have isLinkinfo := link.found_writeTo order parent
  have isKind : (link.info order parent).found IFLA_INFO_KIND =
      some (asBytes link.kind.text ++ [0]) := by
    rw [TunnelLink.info, found_all_cons, found_all_cons,
      found_nest _ (by decide)]
    rfl
  have isData : (link.info order parent).found IFLA_INFO_DATA =
      some (encodeAll order (link.data parent : Writer order).attrs) := by
    rw [TunnelLink.info, found_all_cons, found_all_cons,
      found_nest _ (by decide)]
    rfl
  have kind : TunnelKind.ofBytes (asBytes link.kind.text ++ [0]) = some link.kind := by
    generalize link.kind = kind
    cases kind <;> decide
  rw [readTunnel, lastOf_seen, isLinkinfo]
  simp only [Option.bind_eq_bind, Option.bind_some, info, lastOf_seen,
    isKind, kind, isData, Option.getD_some, data]
  rfl

/-!
## What is read of each kind
-/

/-- A key of GRE is used if it is sent in network byte order. -/
def usedKey (key : Option (BitVec 32)) : Option (BitVec 32) :=
  match order with
  | .big => key
  | .little => none

theorem usedKey_eq_iff (key : Option (BitVec 32)) :
    usedKey order key = key ↔ order = .big ∨ key = none := by
  cases order with
  | little => simp [usedKey, eq_comm]
  | big => simp [usedKey]

theorem readGreKey_eq {data : Writer order} {flagsType keyType : Nat} {key : Option (BitVec 32)}
    (isFlags : data.found flagsType = key.bind fun _ => some (order.toBytes 2 GRE_KEY.toNat))
    (isKey : data.found keyType = key.bind fun key => some (order.toBytes 4 key.toNat)) :
    readGreKey data.seen flagsType keyType = usedKey order key := by
  rw [readGreKey, lastOf_seen, lastOf_seen, isFlags, isKey]
  cases key with
  | none => cases order <;> rfl
  | some key =>
      cases order with
      | little =>
          have notSet : ¬ readU16 .big
              (ByteOrder.little.toBytes 2 GRE_KEY.toNat) &&& GRE_KEY ≠ 0 := by
            decide
          simp only [Option.bind_some, if_neg notSet]
          rfl
      | big =>
          have isSet : readU16 .big (ByteOrder.big.toBytes 2 GRE_KEY.toNat) &&& GRE_KEY ≠ 0 := by
            decide
          simp only [Option.bind_some, if_pos isSet, Option.map_some,
            readU32_toBytes, Option.getD_some]
          rfl

section Fields

attribute [local simp] declared kind greKey readUnderlay lastOf_seen bind_some_eq_map
  Function.comp_def Sound

theorem read_gre (link : GreLink) : readGre order .gre (link.data : Writer order).seen =
      { (TunnelLink.gre link).declared 0 with
        ikey := usedKey order link.ikey
        okey := usedKey order link.okey } := by
  have ikey : readGreKey (link.data : Writer order).seen IFLA_GRE_IFLAGS
      IFLA_GRE_IKEY = usedKey order link.ikey :=
    readGreKey_eq order (by simp [GreLink.data]) (by simp [GreLink.data])
  have okey : readGreKey (link.data : Writer order).seen IFLA_GRE_OFLAGS
      IFLA_GRE_OKEY = usedKey order link.okey :=
    readGreKey_eq order (by simp [GreLink.data]) (by simp [GreLink.data])
  simp only [readGre, ikey, okey]
  simp [GreLink.data]

theorem read_gretap (link : GretapLink) : readGre order .gretap (link.data : Writer order).seen =
      { (TunnelLink.gretap link).declared 0 with
        ikey := usedKey order link.ikey
        okey := usedKey order link.okey } := by
  have ikey : readGreKey (link.data : Writer order).seen IFLA_GRE_IFLAGS
      IFLA_GRE_IKEY = usedKey order link.ikey :=
    readGreKey_eq order (by simp [GretapLink.data]) (by simp [GretapLink.data])
  have okey : readGreKey (link.data : Writer order).seen IFLA_GRE_OFLAGS
      IFLA_GRE_OKEY = usedKey order link.okey :=
    readGreKey_eq order (by simp [GretapLink.data]) (by simp [GretapLink.data])
  simp only [readGre, ikey, okey]
  simp [GretapLink.data]

theorem read_ip6gre (link : Ip6GreLink) :
    readGre order .ip6gre (link.data parent : Writer order).seen =
      (TunnelLink.ip6gre link).declared (parent.getD 0) := by
  have key : ∀ flagsType keyType : Nat, flagsType = IFLA_GRE_IFLAGS ∨ flagsType = IFLA_GRE_OFLAGS →
        readGreKey (link.data parent : Writer order).seen flagsType keyType =
          none := by
    rintro flagsType keyType (rfl | rfl) <;>
      simp [readGreKey, Ip6GreLink.data]
  simp only [readGre, key _ _ (.inl rfl), key _ _ (.inr rfl)]
  simp [Ip6GreLink.data]

theorem read_ip6gretap (link : Ip6GretapLink) :
    readGre order .ip6gretap (link.data parent : Writer order).seen =
      (TunnelLink.ip6gretap link).declared (parent.getD 0) := by
  have key : ∀ flagsType keyType : Nat, flagsType = IFLA_GRE_IFLAGS ∨ flagsType = IFLA_GRE_OFLAGS →
        readGreKey (link.data parent : Writer order).seen flagsType keyType =
          none := by
    rintro flagsType keyType (rfl | rfl) <;>
      simp [readGreKey, Ip6GretapLink.data]
  simp only [readGre, key _ _ (.inl rfl), key _ _ (.inr rfl)]
  simp [Ip6GretapLink.data]

theorem read_ipip (link : IpipLink) : readIptun order .ipip (link.data : Writer order).seen =
      (TunnelLink.ipip link).declared 0 := by
  simp [readIptun, IpipLink.data]

theorem read_sit (link : SitLink) : readIptun order .sit (link.data : Writer order).seen =
      (TunnelLink.sit link).declared 0 := by
  simp [readIptun, SitLink.data]

theorem read_vti (link : VtiLink) : readVti order .vti (link.data : Writer order).seen =
      (TunnelLink.vti link).declared 0 := by
  simp [readVti, VtiLink.data]

theorem read_vti6 (link : Vti6Link) : readVti order .vti6 (link.data : Writer order).seen =
      (TunnelLink.vti6 link).declared 0 := by
  simp [readVti, Vti6Link.data]

theorem read_eq_declared_iff : link.kind.read order (link.data parent : Writer order).seen =
        link.declared (parent.getD 0) ↔
      link.Sound order parent := by
  cases link with
  | gre link =>
      change readGre order .gre (link.data : Writer order).seen = _ ↔ _
      rw [read_gre]
      simp [usedKey_eq_iff, eq_comm (a := 0#32), or_and_left]
  | gretap link =>
      change readGre order .gretap (link.data : Writer order).seen = _ ↔ _
      rw [read_gretap]
      simp [usedKey_eq_iff, eq_comm (a := 0#32), or_and_left]
  | ip6gre link => exact iff_true_intro (read_ip6gre order parent link)
  | ip6gretap link => exact iff_true_intro (read_ip6gretap order parent link)
  | ipip link =>
      change readIptun order .ipip (link.data : Writer order).seen = _ ↔ _
      rw [read_ipip]
      simp [eq_comm]
  | sit link =>
      change readIptun order .sit (link.data : Writer order).seen = _ ↔ _
      rw [read_sit]
      simp [eq_comm]
  | vti link =>
      change readVti order .vti (link.data : Writer order).seen = _ ↔ _
      rw [read_vti]
      simp [eq_comm]
  | vti6 link =>
      change readVti order .vti6 (link.data : Writer order).seen = _ ↔ _
      rw [read_vti6]
      simp [eq_comm]

end Fields

end TunnelLink

/-!
## The tunnel that is created
-/

section Create

variable (order : ByteOrder) (resolve : String → Except Network.Error (BitVec 32))

theorem length_newLinkRequest : (newLinkRequest order).buf.length = 32 := by
  cases order <;> decide

theorem create_writeTo (refuses : Tunnel → Option Nat) {link : TunnelLink}
    (isValid : validate link.name = none) (parent : Option (BitVec 32)) :
    create order refuses ((link.writeTo parent : Writer order).write (newLinkRequest order)) =
      let tunnel := link.kind.read order (link.data parent : Writer order).seen
      match refuses tunnel with
      | some errno => .error (.kernel errno)
      | none => .ok tunnel := by
  have aligned : 4 ∣ (newLinkRequest order).buf.length := by
    rw [length_newLinkRequest]
    decide
  have isSeen := attrIter_written (link.small_writeTo order parent isValid) aligned
  rw [length_newLinkRequest] at isSeen
  rw [create, isSeen, link.readTunnel_writeTo order parent] <;> rfl

theorem addLink_eq_ok_iff {refuses : Tunnel → Option Nat} {link : TunnelLink} {tunnel : Tunnel} :
    addLink order resolve refuses link = .ok tunnel ↔ ∃ parent, validate link.name = none ∧
        parentIndex resolve link = .ok parent ∧
        link.kind.read order (link.data parent : Writer order).seen = tunnel ∧
        refuses tunnel = none := by
  cases isValid : validate link.name with
  | some error => simp [addLink, isValid]
  | none =>
      cases isParent : parentIndex resolve link with
      | error error => simp [addLink, isValid, isParent, bind, Except.bind]
      | ok parent =>
          have created := create_writeTo order refuses isValid parent
          simp only [addLink, isValid, isParent, bind, Except.bind, created,
            Except.ok.injEq, true_and, exists_eq_left']
          generalize link.kind.read order (link.data parent : Writer order).seen = read
          cases isRefused : refuses read with
          | some errno =>
              refine iff_of_false nofun ?_
              rintro ⟨rfl, notRefused⟩
              rw [isRefused] at notRefused
              cases notRefused
          | none =>
              simp only [Except.mapError, Except.ok.injEq]
              refine ⟨?_, And.left⟩
              rintro rfl
              exact ⟨rfl, isRefused⟩

/-- A tunnel is created as declared exactly when no underlay is declared, and
no key of GRE on a little-endian host; the IPv6 kinds of GRE may have any
underlay. -/
theorem createsDeclared_iff (link : TunnelLink) : CreatesDeclared order resolve link ↔
      ∀ parent, validate link.name = none →
        parentIndex resolve link = .ok parent → link.Sound order parent := by
  constructor
  · intro creates parent isValid isParent
    obtain ⟨parent', isParent', declared⟩ := creates (fun _ => none) _
      ((addLink_eq_ok_iff order resolve).mpr ⟨parent, isValid, isParent, rfl, rfl⟩)
    obtain rfl : parent = parent' := by simpa using isParent.symm.trans isParent'
    exact (link.read_eq_declared_iff order parent).mp declared
  · intro sound refuses tunnel added
    obtain ⟨parent, isValid, isParent, rfl, -⟩ := (addLink_eq_ok_iff order resolve).mp added
    exact ⟨parent, isParent, (link.read_eq_declared_iff order parent).mpr
        (sound parent isValid isParent)⟩

/-- A tunnel between two addresses with a key. -/
def keyedGre : GreLink where
  name := "gre1"
  localAddr := some 0xC0000201
  remote := some 0xC0000202
  ttl := some 64
  tos := none
  ikey := some 100
  okey := some 100
  pmtudisc := none
  ignoreDf := none
  fwmark := none
  mtu := none
  link := none

/-- On a little-endian host the kernel creates it without the key. -/
theorem keyedGre_withoutKey : ¬ CreatesDeclared .little (fun _ => .ok 2) (.gre keyedGre) := by
  intro creates
  obtain ⟨parent, isParent, declared⟩ := creates (fun _ => none) _
    ((addLink_eq_ok_iff .little _).mpr ⟨none, by decide +kernel, rfl, rfl, rfl⟩)
  cases isParent
  have isKey := congrArg Tunnel.ikey declared
  revert isKey
  decide +kernel

end Create

end Nlink.TunnelLinks
