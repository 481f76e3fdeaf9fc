import Mathlib.Logic.Function.Basic
import Nlink.Reflector
import Nlink.RouteEvents

namespace Nlink.LinkMirror

open Foundation Netlink RouteEvents List
open Reflector (Store StoreOp)

/-!
# Mirroring the links of a namespace

A consumer keeps a store from the events of a monitor.  The kernel tells of each
operation on an interface in one message or more.

## Interfaces
-/

/-- A string that ends with a zero byte. -/
structure CString where
  bytes : List UInt8
  noNul : ∀ byte ∈ bytes, byte ≠ 0
  short : bytes.length < 256

namespace CString

def payload (string : CString) : List UInt8 :=
  string.bytes ++ [0]

def text (string : CString) : String :=
  Genl.fromUtf8Lossy string.bytes

end CString

def IFLA_IFNAME : Nat := 3
def IFLA_MTU : Nat := 4
def IFLA_MASTER : Nat := 10
def IFLA_LINKINFO : Nat := 18
def IFLA_INFO_KIND : Nat := 1

/-- The attributes that carry a name, an MTU, a master or a kind. -/
def shownTypes : List Nat :=
  [IFLA_IFNAME, IFLA_MTU, IFLA_MASTER, IFLA_LINKINFO]

/-- An attribute that is none of these. -/
def IsOther (attr : Attribute) : Prop :=
  attr.Fits ∧ attr.masked.1 ∉ shownTypes

/-- What else a message says: its change mask, other attributes, in a message
of the bridge family too, and what stands in `IFLA_LINKINFO` beside the kind. -/
structure Details where
  ifiChange : BitVec 32
  others : List Attribute
  port : List Attribute
  infoOthers : List Attribute
  othersFit : ∀ attr ∈ others, IsOther attr
  portFit : ∀ attr ∈ port, IsOther attr
  infoFit : ∀ attr ∈ infoOthers, attr.Fits ∧ attr.masked.1 ≠ IFLA_INFO_KIND
  infoShort : ∀ order, (encodeAll order infoOthers).length ≤ 60000

/-- An interface.  A physical one has no kind. -/
structure Interface where
  index : BitVec 32
  devType : BitVec 16
  flags : BitVec 32
  name : CString
  mtu : BitVec 32
  master : Option (BitVec 32)
  kind : Option CString
  details : Details

def FAMILY_UNSPEC : BitVec 8 := 0
def FAMILY_BRIDGE : BitVec 8 := 7

namespace Interface

variable (order : ByteOrder) (link : Interface)

def header (family : BitVec 8) : IfInfoMsg where
  ifiFamily := family
  ifiPad := 0
  ifiType := link.devType
  ifiIndex := link.index
  ifiFlags := link.flags
  ifiChange := link.details.ifiChange

/-- The attributes that stand in messages of both families. -/
def common : List Attribute :=
  [(IFLA_IFNAME, link.name.payload), (IFLA_MTU, order.toBytes 4 link.mtu.toNat)] ++
    (link.master.map fun master => (IFLA_MASTER, order.toBytes 4 master.toNat)).toList

def infoAttrs : List Attribute :=
  (link.kind.map fun kind => (IFLA_INFO_KIND, kind.payload)).toList ++ link.details.infoOthers

/-- `IFLA_LINKINFO`, if there is something to put into it. -/
def linkInfoAttr : List Attribute :=
  if link.infoAttrs = [] then [] else [(IFLA_LINKINFO, encodeAll order link.infoAttrs)]

def body : List UInt8 :=
  (IfInfoMsg.layout order).write (link.header FAMILY_UNSPEC) ++
    encodeAll order (link.common order ++ link.linkInfoAttr order ++ link.details.others)

def bridgeBody : List UInt8 :=
  (IfInfoMsg.layout order).write (link.header FAMILY_BRIDGE) ++
    encodeAll order (link.common order ++ link.details.port)

end Interface

/-!
## Operations
-/

inductive Change where
  | rename (name : CString)
  | setMtu (mtu : BitVec 32)
  | setFlags (flags : BitVec 32)
  | enslave (master : BitVec 32)
  | release
  /-- Something that is not shown, such as the state of a bridge port. -/
  | touch

def Change.isRelease : Change → Bool
  | .release => true
  | _ => false

def Interface.change (link : Interface) (change : Change) (details : Details) : Interface :=
  let link := { link with details := details }
  match change with
  | .rename name => { link with name := name }
  | .setMtu mtu => { link with mtu := mtu }
  | .setFlags flags => { link with flags := flags }
  | .enslave master => { link with master := some master }
  | .release => { link with master := none }
  | .touch => link

/-- Whether a message of the bridge family is sent too, and when. -/
inductive Place where
  | absent
  | first
  | last

def Place.around (place : Place) (bridge message : Notification) : List Notification :=
  match place with
  | .absent => [message]
  | .first => [bridge, message]
  | .last => [message, bridge]

/-- An operation on links or on actions of traffic control. -/
inductive Operation where
  | create (link : Interface)
  | delete (index : BitVec 32) (place : Place)
  | change (index : BitVec 32) (change : Change) (details : Details) (place : Place)
  | action (removed : Bool) (family : UInt8) (attrs : List UInt8)

/-- Interfaces, one per index. -/
structure Kernel where
  links : List Interface
  oneLink : (links.map Interface.index).Nodup

namespace Kernel

variable (kernel : Kernel)

def link? (index : BitVec 32) : Option Interface :=
  kernel.links.find? (·.index = index)

def add (link : Interface) (free : link.index ∉ kernel.links.map Interface.index) : Kernel where
  links := kernel.links ++ [link]
  oneLink := by
    rw [map_append, nodup_append]
    refine ⟨kernel.oneLink, nodup_singleton _, ?_⟩
    rintro _ member _ same rfl
    exact free (mem_singleton.mp same ▸ member)

def remove (index : BitVec 32) : Kernel where
  links := kernel.links.filter (·.index ≠ index)
  oneLink := kernel.oneLink.sublist (filter_sublist.map _)

/-- An interface in the place of the one with its index. -/
def replace (link : Interface) : Kernel where
  links := kernel.links.map fun other => if other.index = link.index then link else other
  oneLink := by
    have same : (kernel.links.map fun other =>
        if other.index = link.index then link else other).map Interface.index =
          kernel.links.map Interface.index := by
      rw [map_map]
      refine map_congr_left fun other _ => ?_
      rw [Function.comp_apply]
      split
      · exact Eq.symm ‹_›
      · rfl
    rw [same]
    exact kernel.oneLink

variable (order : ByteOrder)

/-- What an operation leaves, and the messages that it sends.  An operation that
does not fit what is there is refused. -/
def apply : Operation → Kernel × List Notification
  | .create link =>
      if free : link.index ∉ kernel.links.map Interface.index then
        (kernel.add link free, [{ msgType := RTM_NEWLINK, body := link.body order }])
      else
        (kernel, [])
  | .delete index place =>
      match kernel.link? index with
      | none => (kernel, [])
      | some link =>
          (kernel.remove index,
            place.around { msgType := RTM_DELLINK, body := link.bridgeBody order }
              { msgType := RTM_DELLINK, body := link.body order })
  | .change index change details place =>
      match kernel.link? index with
      | none => (kernel, [])
      | some link =>
          let changed := link.change change details
          -- A port that leaves its bridge is deleted from the bridge family only.
          let bridge : Notification :=
            if change.isRelease then
              { msgType := RTM_DELLINK, body := link.bridgeBody order }
            else
              { msgType := RTM_NEWLINK, body := changed.bridgeBody order }
          (kernel.replace changed,
            place.around bridge { msgType := RTM_NEWLINK, body := changed.body order })
  | .action removed family attrs =>
      -- `struct tcamsg` has four bytes.
      (kernel,
        [{ msgType := if removed then RTM_DELACTION else RTM_NEWACTION
           body := [family, 0, 0, 0] ++ attrs }])

/-- The state that a sequence of operations leaves. -/
def after (kernel : Kernel) : List Operation → Kernel
  | [] => kernel
  | operation :: rest => after (kernel.apply order operation).1 rest

/-- The messages that a sequence of operations sends. -/
def notifications (kernel : Kernel) : List Operation → List Notification
  | [] => []
  | operation :: rest =>
      (kernel.apply order operation).2 ++ notifications (kernel.apply order operation).1 rest

end Kernel

/-!
## The mirror
-/

variable {ρ : Type}

/-- The closure of the reflector's documentation. -/
def reflectOp : NetworkEvent ρ → StoreOp (BitVec 32)
  | .newLink msg => .upsert msg.ifindex
  | .delLink msg => .remove msg.ifindex
  | _ => .ignore

/-- Events folded over a store. -/
def mirror (store : Store (BitVec 32) (NetworkEvent ρ)) (events : List (NetworkEvent ρ)) :
    Store (BitVec 32) (NetworkEvent ρ) :=
  events.foldl (fun store event => store.apply (reflectOp event) event) store

/-- The store that the initial dump of the links fills. -/
def Kernel.dumped (kernel : Kernel) (order : ByteOrder) : Store (BitVec 32) (NetworkEvent ρ) :=
  mirror Store.empty (kernel.links.filterMap fun link =>
    (LinkMessage.fromBytes order (link.body order)).map .newLink)

/-- What a mirror shows of an interface. -/
structure Shown where
  ifindex : BitVec 32
  flags : BitVec 32
  name : Option String
  mtu : Option (BitVec 32)
  master : Option (BitVec 32)
  kind : Option String

def shownOf (msg : LinkMessage) : Shown where
  ifindex := msg.ifindex
  flags := msg.flags
  name := msg.name
  mtu := msg.mtu
  master := msg.master
  kind := msg.kind

def Interface.shown (link : Interface) : Shown where
  ifindex := link.index
  flags := link.flags
  name := some link.name.text
  mtu := some link.mtu
  master := link.master
  kind := link.kind.map CString.text

def shownEvent : NetworkEvent ρ → Option Shown
  | .newLink msg => some (shownOf msg)
  | _ => none

/-- What a store shows under each index. -/
def seen (store : Store (BitVec 32) (NetworkEvent ρ)) (index : BitVec 32) :
    Option (Option Shown) :=
  (store index).map shownEvent

/-- The interfaces that there are, each with what is to be shown of it. -/
def Kernel.shown (kernel : Kernel) (index : BitVec 32) : Option (Option Shown) :=
  (kernel.link? index).map fun link => some link.shown

/-- The store holds exactly the interfaces that there are, each as it is. -/
def Mirrors (store : Store (BitVec 32) (NetworkEvent ρ)) (kernel : Kernel) : Prop :=
  seen store = kernel.shown

/-- A message of the bridge family stands last only for an interface without a
kind that does not leave its bridge, or for one that is deleted. -/
def Operation.Healed (kernel : Kernel) : Operation → Prop
  | .change index edit _ place =>
      ∀ link, kernel.link? index = some link → place = .last →
        edit.isRelease = false ∧ link.kind = none
  | _ => True

/-- Each operation meets this in the state in which it is done. -/
def Kernel.AllHealed (order : ByteOrder) (kernel : Kernel) : List Operation → Prop
  | [] => True
  | operation :: rest =>
      operation.Healed kernel ∧ (kernel.apply order operation).1.AllHealed order rest

/-!
## When events let a consumer mirror the links

Each message replaces or removes one entry of the store, and each operation
replaces or removes one interface.  If the last message that an operation sends
shows the interface as it then is, the store follows.
-/

variable {order : ByteOrder} {link : Interface}

/-!
## What messages are read as
-/

@[simp]
theorem parseStringFromBytes_payload (string : CString) :
    parseStringFromBytes string.payload = string.text := by
  rw [parseStringFromBytes, CString.payload, takeWhile_terminated string.noNul]
  rfl

def Shown.addAttr (order : ByteOrder) (shown : Shown) (attr : Attribute) : Shown :=
  let (attrType, data) := attr
  match attrType with
  | 3 => { shown with name := some (parseStringFromBytes data) }
  | 4 => { shown with mtu := u32Or order data shown.mtu }
  | 10 => { shown with master := u32Or order data shown.master }
  | 18 => { shown with kind := (parseLinkInfo order data).kind }
  | _ => shown

theorem shownOf_addAttr (msg : LinkMessage) (attr : Attribute) :
    shownOf (msg.addAttr order attr) = (shownOf msg).addAttr order attr := by
  obtain ⟨attrType, data⟩ := attr
  simp only [LinkMessage.addAttr, Shown.addAttr]
  split
  case h_27 => split <;> first | rfl | contradiction
  all_goals rfl

theorem shownOf_foldl (attrs : List Attribute) (msg : LinkMessage) :
    shownOf (attrs.foldl (LinkMessage.addAttr order) msg) =
      attrs.foldl (Shown.addAttr order) (shownOf msg) :=
  (foldl_hom shownOf fun msg attr => (shownOf_addAttr msg attr).symm).symm

theorem Shown.addAttr_other {attr : Attribute} (other : attr.1 ∉ shownTypes) (shown : Shown) :
    shown.addAttr order attr = shown := by
  obtain ⟨attrType, data⟩ := attr
  simp only [shownTypes, IFLA_IFNAME, IFLA_MTU, IFLA_MASTER, IFLA_LINKINFO, mem_cons,
    not_mem_nil, not_or] at other
  simp only [Shown.addAttr]
  split
  case h_5 => rfl
  all_goals simp at other

theorem Shown.foldl_others {attrs : List Attribute} (others : ∀ attr ∈ attrs, IsOther attr)
    (shown : Shown) : (attrs.map Attribute.masked).foldl (Shown.addAttr order) shown = shown := by
  induction attrs with
  | nil => rfl
  | cons attr rest ih =>
      obtain ⟨⟨-, other⟩, restOthers⟩ := forall_mem_cons.mp others
      rw [map_cons, foldl_cons, Shown.addAttr_other other]
      exact ih restOthers

theorem kind_foldl {attrs : List Attribute}
    (others : ∀ attr ∈ attrs, attr.Fits ∧ attr.masked.1 ≠ IFLA_INFO_KIND) (info : LinkInfo) :
    ((attrs.map Attribute.masked).foldl LinkInfo.addAttr info).kind = info.kind := by
  induction attrs generalizing info with
  | nil => rfl
  | cons attr rest ih =>
      obtain ⟨⟨-, notKind⟩, restOthers⟩ := forall_mem_cons.mp others
      rw [map_cons, foldl_cons, ih restOthers]
      generalize attr.masked = masked at notKind
      obtain ⟨attrType, payload⟩ := masked
      simp only [LinkInfo.addAttr]
      split
      · exact absurd rfl notKind
      all_goals rfl

theorem fits_of_short {attrType : Nat} {payload : List UInt8} (small : attrType < 256 ^ 2)
    (short : payload.length ≤ 65531) : Attribute.Fits (attrType, payload) :=
  ⟨small, Nat.add_le_add_left short 4⟩

theorem CString.payload_length (string : CString) : string.payload.length ≤ 256 := by
  rw [CString.payload, length_append]
  exact string.short

theorem toBytes_short (value : Nat) : (order.toBytes 4 value).length ≤ 65531 := by
  rw [order.toBytes_length]
  decide

namespace Interface

theorem infoAttrs_fit : ∀ attr ∈ link.infoAttrs, attr.Fits := by
  intro attr member
  rcases mem_append.mp member with isKind | other
  · obtain ⟨kind, -, rfl⟩ := Option.map_eq_some_iff.mp (Option.mem_toList.mp isKind)
    exact fits_of_short (by decide) (kind.payload_length.trans (by decide))
  · exact (link.details.infoFit attr other).1

theorem kind_parseLinkInfo :
    (parseLinkInfo order (encodeAll order link.infoAttrs)).kind = link.kind.map CString.text := by
  rw [parseLinkInfo, nested_encodeAll order infoAttrs_fit, infoAttrs, map_append,
    foldl_append, kind_foldl link.details.infoFit]
  cases link.kind with
  | none => rfl
  | some kind => exact congrArg some (parseStringFromBytes_payload kind)

theorem common_fit : ∀ attr ∈ link.common order, attr.Fits := by
  intro attr member
  rcases mem_append.mp member with first | isMaster
  · simp only [mem_cons, not_mem_nil, or_false] at first
    rcases first with rfl | rfl
    · exact fits_of_short (by decide) (link.name.payload_length.trans (by decide))
    · exact fits_of_short (by decide) (toBytes_short _)
  · obtain ⟨master, -, rfl⟩ := Option.map_eq_some_iff.mp (Option.mem_toList.mp isMaster)
    exact fits_of_short (by decide) (toBytes_short _)

theorem linkInfoAttr_fit : ∀ attr ∈ link.linkInfoAttr order, attr.Fits := by
  intro attr member
  rw [linkInfoAttr] at member
  split at member
  · cases member
  · cases mem_singleton.mp member
    refine fits_of_short (by decide) ?_
    have othersShort := link.details.infoShort order
    have kindShort : (encodeAll order
        (link.kind.map fun kind => (IFLA_INFO_KIND, kind.payload)).toList).length ≤ 300 := by
      cases link.kind with
      | none => exact Nat.zero_le _
      | some kind =>
          have bounded : ∀ attr ∈ [(IFLA_INFO_KIND, kind.payload)], attr.2.length ≤ 256 := by
            intro attr isKind
            cases mem_singleton.mp isKind
            exact kind.payload_length
          exact (encodeAll_length_le order bounded).trans (by simp)
    rw [infoAttrs, encodeAll, flatMap_append, ← encodeAll, ← encodeAll, length_append]
    omega

/-- What the common attributes say: all but the kind. -/
theorem shown_common (family : BitVec 8) :
    ((link.common order).map Attribute.masked).foldl (Shown.addAttr order)
      (shownOf (.ofHeader (link.header family))) = { link.shown with kind := none } := by
  have name := parseStringFromBytes_payload link.name
  cases isMaster : link.master <;>
    simp [common, isMaster, Attribute.masked, NLA_F_NET_BYTEORDER, IFLA_IFNAME, IFLA_MTU,
      IFLA_MASTER, Shown.addAttr, shownOf, LinkMessage.ofHeader, shown, header,
      LinkMessage.ifindex, LinkMessage.flags, LinkMessage.kind]

theorem shown_linkInfo :
    ((link.linkInfoAttr order).map Attribute.masked).foldl (Shown.addAttr order)
      { link.shown with kind := none } = link.shown := by
  rw [linkInfoAttr]
  split
  · rename_i noInfo
    have noKind : link.kind = none := by
      rw [infoAttrs, append_eq_nil_iff] at noInfo
      exact Option.map_eq_none_iff.mp (Option.toList_eq_nil_iff.mp noInfo.1)
    simp [shown, noKind]
  · simp [Attribute.masked, NLA_F_NET_BYTEORDER, IFLA_LINKINFO, Shown.addAttr,
      kind_parseLinkInfo, shown]

theorem shown_body : ∃ msg, LinkMessage.fromBytes order (link.body order) = some msg ∧
    shownOf msg = link.shown := by
  have fit : ∀ attr ∈ link.common order ++ link.linkInfoAttr order ++ link.details.others,
      attr.Fits := by
    intro attr member
    rcases mem_append.mp member with own | other
    · exact (mem_append.mp own).elim (common_fit attr) (linkInfoAttr_fit attr)
    · exact (link.details.othersFit attr other).1
  refine ⟨_, fromBytes_encodeAll order _ _ _ _ fit, ?_⟩
  rw [shownOf_foldl, map_append, map_append, foldl_append, foldl_append,
    shown_common, shown_linkInfo, Shown.foldl_others link.details.othersFit]

theorem shown_bridgeBody : ∃ msg, LinkMessage.fromBytes order (link.bridgeBody order) = some msg ∧
    shownOf msg = { link.shown with kind := none } := by
  have fit : ∀ attr ∈ link.common order ++ link.details.port, attr.Fits := by
    intro attr member
    rcases mem_append.mp member with own | other
    · exact common_fit attr own
    · exact (link.details.portFit attr other).1
  refine ⟨_, fromBytes_encodeAll order _ _ _ _ fit, ?_⟩
  rw [shownOf_foldl, map_append, foldl_append, shown_common,
    Shown.foldl_others link.details.portFit]

end Interface

/-!
## What a message does to the store
-/

section Store

variable {ρ : Type} {rest : Nat → List UInt8 → Option ρ}
variable {store : Store (BitVec 32) (NetworkEvent ρ)}

/-- A store after the events of messages. -/
def followed (order : ByteOrder) (rest : Nat → List UInt8 → Option ρ)
    (store : Store (BitVec 32) (NetworkEvent ρ)) (notifications : List Notification) :
    Store (BitVec 32) (NetworkEvent ρ) :=
  mirror store (notifications.filterMap fun notification =>
    parseRouteEvent order rest notification.msgType notification.body)

theorem followed_append (first second : List Notification) :
    followed order rest store (first ++ second) =
      followed order rest (followed order rest store first) second := by
  rw [followed, mirror, filterMap_append, foldl_append]
  rfl

theorem seen_insert (index : BitVec 32) (event : NetworkEvent ρ) :
    seen (store.insert index event) = Function.update (seen store) index (some (shownEvent event)) := by
  funext other
  by_cases same : other = index
  · subst same
    simp [seen, Store.insert]
  · simp [seen, Store.insert, same]

theorem seen_remove (index : BitVec 32) :
    seen (store.remove index) = Function.update (seen store) index none := by
  funext other
  by_cases same : other = index
  · subst same
    simp [seen, Store.remove]
  · simp [seen, Store.remove, same]

theorem followed_newLink {body : List UInt8} {msg : LinkMessage}
    (read : LinkMessage.fromBytes order body = some msg) :
    followed order rest store [{ msgType := RTM_NEWLINK, body := body }] =
      store.insert msg.ifindex (.newLink msg) := by
  have event : parseRouteEvent order rest RTM_NEWLINK body = some (.newLink msg) := by
    rw [parseRouteEvent, if_pos rfl, read]
    rfl
  simp [followed, mirror, event, Store.apply, reflectOp]

theorem followed_delLink {body : List UInt8} {msg : LinkMessage}
    (read : LinkMessage.fromBytes order body = some msg) :
    followed order rest store [{ msgType := RTM_DELLINK, body := body }] =
      store.remove msg.ifindex := by
  have event : parseRouteEvent order rest RTM_DELLINK body = some (.delLink msg) := by
    rw [parseRouteEvent, if_neg (by decide), if_pos rfl, read]
    rfl
  simp [followed, mirror, event, Store.apply, reflectOp]

theorem seen_body : seen (followed order rest store
      [{ msgType := RTM_NEWLINK, body := link.body order }]) =
    Function.update (seen store) link.index (some (some link.shown)) := by
  obtain ⟨msg, read, shown⟩ := @Interface.shown_body order link
  have index : msg.ifindex = link.index := congrArg Shown.ifindex shown
  rw [followed_newLink read, seen_insert, index, shownEvent, shown]

theorem seen_bridgeBody : seen (followed order rest store
      [{ msgType := RTM_NEWLINK, body := link.bridgeBody order }]) =
    Function.update (seen store) link.index (some (some { link.shown with kind := none })) := by
  obtain ⟨msg, read, shown⟩ := @Interface.shown_bridgeBody order link
  have index : msg.ifindex = link.index := congrArg Shown.ifindex shown
  rw [followed_newLink read, seen_insert, index, shownEvent, shown]

theorem seen_removed : seen (followed order rest store
      [{ msgType := RTM_DELLINK, body := link.body order }]) =
    Function.update (seen store) link.index none := by
  obtain ⟨msg, read, shown⟩ := @Interface.shown_body order link
  have index : msg.ifindex = link.index := congrArg Shown.ifindex shown
  rw [followed_delLink read, seen_remove, index]

theorem seen_bridgeRemoved : seen (followed order rest store
      [{ msgType := RTM_DELLINK, body := link.bridgeBody order }]) =
    Function.update (seen store) link.index none := by
  obtain ⟨msg, read, shown⟩ := @Interface.shown_bridgeBody order link
  have index : msg.ifindex = link.index := congrArg Shown.ifindex shown
  rw [followed_delLink read, seen_remove, index]

/-- An event of an action is not one of a link, whatever its message is read
as. -/
theorem followed_action (removed : Bool) (body : List UInt8) :
    followed order rest store
      [{ msgType := if removed then RTM_DELACTION else RTM_NEWACTION, body := body }] = store := by
  cases removed <;>
    cases read : TcMessage.fromBytes order body <;>
      simp [followed, mirror, parseRouteEvent, read, RTM_NEWLINK, RTM_DELLINK, RTM_NEWQDISC,
        RTM_DELQDISC, RTM_NEWTCLASS, RTM_DELTCLASS, RTM_NEWTFILTER, RTM_DELTFILTER, RTM_NEWACTION,
        RTM_DELACTION, Store.apply, reflectOp]

end Store

/-!
## What an operation does to the links
-/

section Links

variable {kernel : Kernel}

theorem Kernel.index_of_link? {index : BitVec 32} (found : kernel.link? index = some link) :
    link.index = index := by
  have isIndex := find?_some found
  exact of_decide_eq_true isIndex

theorem Kernel.shown_add (free : link.index ∉ kernel.links.map Interface.index) :
    (kernel.add link free).shown =
      Function.update kernel.shown link.index (some (some link.shown)) := by
  funext index
  by_cases same : index = link.index
  · subst same
    have absent : kernel.links.find? (·.index = link.index) = none := by
      rw [find?_eq_none]
      intro other member isIndex
      exact free (mem_map.mpr ⟨other, member, of_decide_eq_true isIndex⟩)
    simp [Kernel.shown, link?, add, find?_append, absent]
  · have otherIndex : link.index ≠ index := Ne.symm same
    simp [Kernel.shown, link?, add, find?_append, same, otherIndex]

theorem Kernel.shown_remove (index : BitVec 32) :
    (kernel.remove index).shown = Function.update kernel.shown index none := by
  funext other
  rw [Kernel.shown, link?, remove, find?_filter]
  by_cases same : other = index
  · subst same
    simp
  · have sameFound : (fun link : Interface => decide (decide (link.index ≠ index) = true ∧
        decide (link.index = other) = true)) = fun link => decide (link.index = other) := by
      funext link
      by_cases isOther : link.index = other <;> simp [isOther, same]
    rw [Function.update_of_ne same, sameFound]
    rfl

theorem Kernel.shown_replace {old : Interface} (found : kernel.link? link.index = some old) :
    (kernel.replace link).shown =
      Function.update kernel.shown link.index (some (some link.shown)) := by
  have sameIndex : ∀ other : Interface,
      (if other.index = link.index then link else other).index = other.index := by
    intro other
    split
    · exact Eq.symm ‹_›
    · rfl
  have found? : ∀ index, (kernel.replace link).link? index = (kernel.link? index).map fun other =>
      if other.index = link.index then link else other := by
    intro index
    rw [link?, replace, find?_map, link?]
    simp only [Function.comp_def, sameIndex]
  funext index
  rw [Kernel.shown, found?]
  by_cases same : index = link.index
  · subst same
    rw [found, Function.update_self]
    simp [index_of_link? found]
  · rw [Function.update_of_ne same, Kernel.shown, Option.map_map]
    refine Option.map_congr fun other isOther => ?_
    have otherIndex := index_of_link? (Option.mem_def.mp isOther)
    rw [Function.comp_apply, if_neg (otherIndex ▸ same)]

end Links

/-!
## Runs
-/

section Runs

variable {ρ : Type} {rest : Nat → List UInt8 → Option ρ} {kernel : Kernel}
variable {store : Store (BitVec 32) (NetworkEvent ρ)}

/-- A removal is followed, in whatever family it is announced first. -/
theorem seen_deleted (place : Place) :
    seen (followed order rest store (place.around
      { msgType := RTM_DELLINK, body := link.bridgeBody order }
      { msgType := RTM_DELLINK, body := link.body order })) =
        Function.update (seen store) link.index none := by
  cases place with
  | absent => exact seen_removed
  | first =>
      refine (congrArg seen (followed_append [_] [_])).trans ?_
      rw [seen_removed, seen_bridgeRemoved, Function.update_idem]
  | last =>
      refine (congrArg seen (followed_append [_] [_])).trans ?_
      rw [seen_bridgeRemoved, seen_removed, Function.update_idem]

/-- A change is followed if the message of the bridge family does not stand last,
or shows the interface as the other one does. -/
theorem seen_changed {place : Place} {bridge : Notification} {shown : Option (Option Shown)}
    (seenBridge : ∀ store : Store (BitVec 32) (NetworkEvent ρ),
      seen (followed order rest store [bridge]) = Function.update (seen store) link.index shown)
    (healed : place = .last → shown = some (some link.shown)) :
    seen (followed order rest store (place.around bridge
      { msgType := RTM_NEWLINK, body := link.body order })) =
        Function.update (seen store) link.index (some (some link.shown)) := by
  cases place with
  | absent => exact seen_body
  | first =>
      refine (congrArg seen (followed_append [_] [_])).trans ?_
      rw [seen_body, seenBridge, Function.update_idem]
  | last =>
      refine (congrArg seen (followed_append [_] [_])).trans ?_
      rw [seenBridge, seen_body, Function.update_idem, healed rfl]

theorem index_change (change : Change) (details : Details) :
    (link.change change details).index = link.index ∧
      (link.change change details).kind = link.kind := by
  cases change <;> exact ⟨rfl, rfl⟩

/-- An operation changes the mirror as it changes the links. -/
theorem mirrors_apply {operation : Operation} (mirrors : Mirrors store kernel)
    (healed : operation.Healed kernel) :
    Mirrors (followed order rest store (kernel.apply order operation).2)
      (kernel.apply order operation).1 := by
  unfold Mirrors at mirrors ⊢
  cases operation with
  | create link =>
      rw [Kernel.apply]
      split
      · rw [seen_body, Kernel.shown_add, mirrors]
      · exact mirrors
  | delete index place =>
      simp only [Kernel.apply]
      cases found : kernel.link? index with
      | none => exact mirrors
      | some link =>
          simp only
          rw [seen_deleted, Kernel.shown_remove, mirrors, Kernel.index_of_link? found]
  | change index change details place =>
      simp only [Kernel.apply]
      cases found : kernel.link? index with
      | none => exact mirrors
      | some link =>
          simp only
          obtain ⟨sameIndex, sameKind⟩ := @index_change link change details
          have here : kernel.link? (link.change change details).index = some link := by
            rw [sameIndex, Kernel.index_of_link? found, found]
          rw [Kernel.shown_replace here, ← mirrors]
          have isLast := healed link found
          cases released : change.isRelease with
          | true =>
              refine @seen_changed _ _ _ _ _ _ _ none (fun store => ?_) fun last => ?_
              · rw [sameIndex]
                exact seen_bridgeRemoved
              · rw [(isLast last).1] at released
                cases released
          | false =>
              refine seen_changed (fun store => seen_bridgeBody) fun last => ?_
              have noKind : (link.change change details).kind = none :=
                sameKind.trans (isLast last).2
              simp [Interface.shown, noKind]
  | action removed family attrs =>
      refine Eq.trans (congrArg seen ?_) mirrors
      exact followed_action removed _

/-- The initial dump fills the store with the links. -/
theorem mirrors_dumped : Mirrors (ρ := ρ) (kernel.dumped order) kernel := by
  have isFollowed : kernel.dumped order = followed order (fun _ _ => (none : Option ρ)) Store.empty
      (kernel.links.map fun link => { msgType := RTM_NEWLINK, body := link.body order }) := by
    rw [Kernel.dumped, followed, filterMap_map]
    rfl
  rw [isFollowed]
  clear isFollowed
  obtain ⟨links, oneLink⟩ := kernel
  induction links using List.reverseRecOn with
  | nil => rfl
  | append_singleton links link ih =>
      have nodup := oneLink
      rw [map_append, nodup_append] at nodup
      have free : link.index ∉ links.map Interface.index := fun member =>
        nodup.2.2 _ member _ (mem_singleton_self _) rfl
      have step := @Kernel.shown_add link ⟨links, nodup.1⟩ free
      unfold Mirrors at ih ⊢
      rw [map_append, followed_append]
      exact seen_body.trans ((congrArg (Function.update · _ _) (ih nodup.1)).trans step.symm)

/-- A run whose operations meet the condition is mirrored. -/
theorem mirrors_after {operations : List Operation} (healed : kernel.AllHealed order operations)
    (mirrors : Mirrors store kernel) :
    Mirrors (followed order rest store (kernel.notifications order operations))
      (kernel.after order operations) := by
  induction operations generalizing kernel store with
  | nil => exact mirrors
  | cons operation later ih =>
      obtain ⟨here, laterHealed⟩ := healed
      rw [Kernel.notifications, followed_append, Kernel.after]
      exact ih laterHealed (mirrors_apply mirrors here)

/-- The events of a run in which no message of the bridge family stands last
where it matters, folded over the initial dump, leave exactly the interfaces
that there are. -/
theorem mirrors_of_allHealed (order : ByteOrder) (rest : Nat → List UInt8 → Option ρ)
    (kernel : Kernel) (operations : List Operation) (datagrams : List (List Frame))
    (healed : kernel.AllHealed order operations)
    (carried : Carried (kernel.notifications order operations) datagrams) :
    Mirrors (mirror (kernel.dumped order) (eventsOf order (parseRouteEvent order rest) datagrams))
      (kernel.after order operations) := by
  rw [eventsOf_carried order _ carried]
  exact mirrors_after healed mirrors_dumped

/-- The condition is needed: after a change that does not meet it the store holds
something else, whatever it held before. -/
theorem not_mirrors_apply {index : BitVec 32} {change : Change} {details : Details} {place : Place}
    (unhealed : ¬ (Operation.change index change details place).Healed kernel) :
    ¬ Mirrors (followed order rest store
        (kernel.apply order (.change index change details place)).2)
      (kernel.apply order (.change index change details place)).1 := by
  simp only [Operation.Healed, not_forall] at unhealed
  obtain ⟨link, found, isLast, harmful⟩ := unhealed
  subst isLast
  obtain ⟨sameIndex, sameKind⟩ := @index_change link change details
  have here : kernel.link? (link.change change details).index = some link := by
    rw [sameIndex, Kernel.index_of_link? found, found]
  intro mirrors
  simp only [Mirrors, Kernel.apply, found] at mirrors
  have atIndex := congrFun (((congrArg seen (followed_append [_] [_])).symm.trans mirrors).trans
    (Kernel.shown_replace here)) link.index
  rw [sameIndex, Function.update_self] at atIndex
  cases released : change.isRelease with
  | true =>
      simp only [released, if_true] at atIndex
      rw [seen_bridgeRemoved, Function.update_self] at atIndex
      cases atIndex
  | false =>
      simp only [released, Bool.false_eq_true, if_false] at atIndex
      rw [seen_bridgeBody, sameIndex, Function.update_self] at atIndex
      have noKind := congrArg Shown.kind (Option.some.inj (Option.some.inj atIndex))
      exact harmful ⟨released, sameKind ▸ Option.map_eq_none_iff.mp noKind.symm⟩

end Runs

/-!
## A bridge port
-/

def noDetails : Details where
  ifiChange := 0
  others := []
  port := []
  infoOthers := []
  othersFit := forall_mem_nil _
  portFit := forall_mem_nil _
  infoFit := forall_mem_nil _
  infoShort := fun _ => Nat.zero_le _

def br0 : Interface where
  index := 1
  devType := 1
  flags := 1
  name := { bytes := [98, 114, 48], noNul := by decide +kernel, short := by decide +kernel }
  mtu := 1500
  master := none
  kind := some
    { bytes := [98, 114, 105, 100, 103, 101],
      noNul := by decide +kernel, short := by decide +kernel }
  details := noDetails

/-- A veth that is a port of `br0`. -/
def veth0 : Interface where
  index := 2
  devType := 1
  flags := 1
  name := { bytes := [118, 48], noNul := by decide +kernel, short := by decide +kernel }
  mtu := 1500
  master := some 1
  kind := some
    { bytes := [118, 101, 116, 104], noNul := by decide +kernel, short := by decide +kernel }
  details := noDetails

def bridged : Kernel where
  links := [br0, veth0]
  oneLink := by decide

/-- No message is of a type that is read otherwise. -/
def noRest (_ : Nat) (_ : List UInt8) : Option Unit :=
  none

/-- The port leaves its bridge, an action is added and the bridge is deleted. -/
def releasedFirst : List Operation :=
  [.change 2 .release noDetails .first, .action false 0 [], .delete 1 .absent]

theorem mirrors_of_allHealed_released :
    ∃ datagrams, Carried (bridged.notifications .little releasedFirst) datagrams ∧
      Mirrors (mirror (bridged.dumped .little)
          (eventsOf .little (parseRouteEvent .little noRest) datagrams))
        (bridged.after .little releasedFirst) := by
  obtain ⟨datagrams, carried⟩ :=
    @exists_carried (bridged.notifications .little releasedFirst) (by decide +kernel)
  refine ⟨datagrams, carried, ?_⟩
  refine mirrors_of_allHealed .little noRest bridged releasedFirst datagrams ⟨?_, ?_⟩ carried
  · intro _ _ isLast
    cases isLast
  · exact ⟨trivial, trivial, trivial⟩

/-- The port leaves its bridge, or another of its attributes changes, and the
message of the bridge family stands last. -/
def Unmirrored (change : Change) : Prop :=
  ∃ datagrams, Carried
      (bridged.notifications .little [.change 2 change noDetails .last]) datagrams ∧
    ¬ Mirrors (mirror (bridged.dumped .little)
        (eventsOf .little (parseRouteEvent .little noRest) datagrams))
      (bridged.after .little [.change 2 change noDetails .last])

theorem unmirrored_of_mem {change : Change} (member : change ∈ [Change.release, .touch]) :
    Unmirrored change := by
  have fit : ∀ change ∈ [Change.release, .touch], ∀ notification ∈
      bridged.notifications .little [.change 2 change noDetails .last],
      notification.msgType < 256 ^ 2 ∧ NLMSG_HDRLEN + notification.body.length < 256 ^ 4 := by
    decide +kernel
  obtain ⟨datagrams, carried⟩ := exists_carried (fit change member)
  refine ⟨datagrams, carried, ?_⟩
  rw [eventsOf_carried .little _ carried, Kernel.notifications, Kernel.notifications,
    List.append_nil]
  apply not_mirrors_apply
  intro healed
  cases (healed veth0 rfl rfl).2

theorem not_mirrors_port : Unmirrored .release ∧ Unmirrored .touch :=
  ⟨unmirrored_of_mem mem_cons_self, unmirrored_of_mem (mem_cons_of_mem _ mem_cons_self)⟩

end Nlink.LinkMirror
