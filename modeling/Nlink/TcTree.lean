import Nlink.FlowerFilter
import Nlink.Foundation.Effect
import Nlink.Foundation.Keyed
import Nlink.Foundation.StableSort
import Nlink.NetlinkBuilder

namespace Nlink.Tc

open Foundation
open Netlink (ENOENT EBUSY EEXIST ENODEV EINVAL)

/-!
# The traffic-control tree of a device

The root qdisc of a device has classes, qdiscs at its classes and filters.  A
request adds, changes or deletes one of these and is refused when it does not
fit the tree.
-/

inductive Error where
  | kernel (errno : Nat)
  | kernelWithContext (operation : String) (errno : Nat)
  | qdiscNotFound (kind interface : String)
  | invalidMessage (message : String)
  | notSupported (message : String)

namespace Error

/-- Only errors of the kernel take a context. -/
def withContext (operation : String) : Error → Error
  | .kernel errno => .kernelWithContext operation errno
  | other => other

def isNotFound : Error → Bool
  | .kernel errno => errno = ENOENT || errno = ENODEV
  | .kernelWithContext _ errno => errno = ENOENT || errno = ENODEV
  | .qdiscNotFound _ _ => true
  | .invalidMessage _ => false
  | .notSupported _ => false

end Error

/-!
## What a request says
-/

structure HtbQdiscConfig where
  defaultClass : BitVec 32

structure FqCodelConfig where
  target : Option Duration

inductive QdiscConfig where
  | htb (config : HtbQdiscConfig)
  | fqCodel (config : FqCodelConfig)
  | netem (config : NetemConfig)

/-- The attributes of a qdisc: the `defcls` of an HTB, the target of an
fq_codel, those of a netem. -/
inductive QdiscAttrs where
  | htb (defaultClass : BitVec 32)
  | fqCodel (targetUs : Option (BitVec 32))
  | netem (attrs : NetemAttrs)

/-- `write_options`. -/
def QdiscConfig.writeOptions : QdiscConfig → Except Error QdiscAttrs
  | .htb config => .ok (.htb config.defaultClass)
  | .fqCodel config => .ok (.fqCodel (config.target.map (·.asMicros)))
  | .netem config =>
      match config.writeOptions with
      | .ok attrs => .ok (.netem attrs)
      | .error message => .error (.invalidMessage message)

def QdiscConfig.kind : QdiscConfig → String
  | .htb _ => "htb"
  | .fqCodel _ => "fq_codel"
  | .netem _ => "netem"

structure HtbClassConfig where
  rate : Rate
  ceil : Option Rate

/-- The rates of `TCA_HTB_PARMS` and the attributes for rates over 32 bits. -/
structure HtbClassAttrs where
  rate : BitVec 32
  ceil : BitVec 32
  rate64 : Option (BitVec 64)
  ceil64 : Option (BitVec 64)

/-- `rate.min(u32::MAX as u64) as u32`. -/
def rate32 (rate : BitVec 64) : BitVec 32 :=
  BitVec.ofNat 32 (min rate.toNat (2 ^ 32 - 1))

/-- A rate is written in 64 bits when it needs them. -/
def rateOver32 (rate : BitVec 64) : Option (BitVec 64) :=
  if 2 ^ 32 ≤ rate.toNat then some rate else none

/-- `write_options`; what is derived from the rates is left out. -/
def HtbClassConfig.writeOptions (config : HtbClassConfig) : HtbClassAttrs :=
  let rate := config.rate.bytesPerSec
  let ceil := (config.ceil.getD config.rate).bytesPerSec
  { rate := rate32 rate
    ceil := rate32 ceil
    rate64 := rateOver32 rate
    ceil64 := rateOver32 ceil }

structure HtbClassOptions where
  rate : BitVec 64
  ceil : BitVec 64

/-- The 64-bit rates override the others. -/
def parseHtbClassOptions (attrs : HtbClassAttrs) : HtbClassOptions where
  rate := attrs.rate64.getD (attrs.rate.setWidth 64)
  ceil := attrs.ceil64.getD (attrs.ceil.setWidth 64)

theorem getD_rateOver32 (rate : BitVec 64) :
    (rateOver32 rate).getD ((rate32 rate).setWidth 64) = rate := by
  rw [rateOver32]
  by_cases wide : 2 ^ 32 ≤ rate.toNat
  · rw [if_pos wide, Option.getD_some]
  · rw [if_neg wide, Option.getD_none]
    apply BitVec.eq_of_toNat_eq
    have kept : min rate.toNat (2 ^ 32 - 1) = rate.toNat := by omega
    rw [rate32, kept, BitVec.toNat_setWidth, BitVec.toNat_ofNat]
    omega

/-- The options of an HTB class are read back. -/
theorem parseHtbClassOptions_writeOptions (config : HtbClassConfig) :
    parseHtbClassOptions config.writeOptions =
      { rate := config.rate.bytesPerSec
        ceil := (config.ceil.getD config.rate).bytesPerSec } := by
  rw [parseHtbClassOptions, HtbClassConfig.writeOptions]
  simp only [getD_rateOver32]

/-!
## The tree
-/

/-- What a qdisc reports of itself; `other` is a qdisc of which only the kind
is read. -/
inductive QdiscOptions where
  | htb (defaultClass : BitVec 32)
  | fqCodel (targetUs : BitVec 32)
  | netem (options : NetemOptions)
  | other (kind : String)

def QdiscOptions.kind : QdiscOptions → String
  | .htb _ => "htb"
  | .fqCodel _ => "fq_codel"
  | .netem _ => "netem"
  | .other kind => kind

/-- The target of an fq_codel that is given none. -/
def defaultTargetUs : BitVec 32 := 5000

def QdiscAttrs.settled : QdiscAttrs → QdiscOptions
  | .htb defaultClass => .htb defaultClass
  | .fqCodel targetUs => .fqCodel (targetUs.getD defaultTargetUs)
  | .netem attrs => .netem attrs.settled

structure Qdisc where
  parent : TcHandle
  handle : TcHandle
  options : QdiscOptions

inductive ClassOptions where
  | htb (attrs : HtbClassAttrs)
  | other (kind : String)

structure TcClass where
  handle : TcHandle
  parent : TcHandle
  options : ClassOptions

inductive FilterOptions where
  | flower (attrs : FlowerAttrs)
  | other (kind : String)

def FilterOptions.kind : FilterOptions → String
  | .flower _ => "flower"
  | .other kind => kind

structure TcFilter where
  parent : TcHandle
  protocol : BitVec 16
  priority : BitVec 16
  options : FilterOptions

/-- A root qdisc and what hangs below it. -/
structure TcTree where
  handle : TcHandle
  options : QdiscOptions
  classes : List TcClass
  leaves : List Qdisc
  filters : List TcFilter

structure Device where
  ifindex : BitVec 32
  tree : Option TcTree

namespace TcTree

def hasClass (tree : TcTree) (handle : TcHandle) : Bool :=
  tree.classes.any (·.handle = handle)

/-- Filters and classes can be under the root qdisc or under a class. -/
def isParent (tree : TcTree) (handle : TcHandle) : Bool :=
  handle = tree.handle || tree.hasClass handle

def hasLeaf (tree : TcTree) (parent : TcHandle) : Bool :=
  tree.leaves.any (·.parent = parent)

def usesHandle (tree : TcTree) (handle : TcHandle) : Bool :=
  tree.handle = handle || tree.leaves.any (·.handle = handle)

end TcTree

def FilterOptions.sameKeys : FilterOptions → FilterOptions → Bool
  | .flower first, .flower second =>
      { first with classid := none } = { second with classid := none }
  | _, _ => false

/-- Filters of one parent and priority have one protocol and one kind, and no
two have the same keys. -/
def TcFilter.clashes (filter other : TcFilter) : Bool :=
  filter.parent = other.parent && filter.priority = other.priority &&
    (filter.protocol ≠ other.protocol || filter.options.kind ≠ other.options.kind ||
      filter.options.sameKeys other.options)

/-!
## Requests
-/

/-- What runs over a connection, for one device. -/
abbrev Conn := EStateM Error Device

/-- Asks the kernel for another tree. -/
def sendAck (act : Option TcTree → Except Nat (Option TcTree)) : Conn Unit :=
  fun device =>
    match act device.tree with
    | .ok tree => .ok () { device with tree }
    | .error errno => .error (.kernel errno) device

/-- `map_err`. -/
def mapErr (wrap : Error → Error) (program : Conn α) : Conn α :=
  tryCatch program fun error => throw (wrap error)

/-- `let _ =`. -/
def ignoringError (program : Conn Unit) : Conn Unit :=
  tryCatch program fun _ => pure ()

open Error

/-- `RTM_NEWQDISC`, exclusive. -/
def createQdisc (parent handle : TcHandle) (attrs : QdiscAttrs) :
    Option TcTree → Except Nat (Option TcTree)
  | none =>
      if parent = TcHandle.ROOT then
        .ok (some
          { handle, options := attrs.settled, classes := [], leaves := []
            filters := [] })
      else
        .error ENOENT
  | some tree =>
      if parent = TcHandle.ROOT then
        .error EEXIST
      else if tree.hasClass parent = false then
        .error ENOENT
      else if tree.hasLeaf parent || tree.usesHandle handle then
        .error EEXIST
      else
        .ok (some
          { tree with leaves := tree.leaves ++ [{ parent, handle, options := attrs.settled }] })

/-- `RTM_NEWQDISC` for a qdisc that exists. -/
def changeQdisc (parent handle : TcHandle) (attrs : QdiscAttrs) :
    Option TcTree → Except Nat (Option TcTree)
  | none => .error ENOENT
  | some tree =>
      if parent = TcHandle.ROOT then
        if tree.handle ≠ handle then
          .error ENOENT
        else if tree.options.kind ≠ attrs.settled.kind then
          .error EINVAL
        else
          .ok (some { tree with options := attrs.settled })
      else if tree.leaves.any (fun leaf => leaf.parent = parent && leaf.handle = handle) then
        .ok (some
          { tree with
            leaves := tree.leaves.map fun leaf =>
              if leaf.parent = parent && leaf.handle = handle then
                { leaf with options := attrs.settled }
              else
                leaf })
      else
        .error ENOENT

/-- `RTM_NEWQDISC` in the place of what is there. -/
def replaceQdisc (parent handle : TcHandle) (attrs : QdiscAttrs) :
    Option TcTree → Except Nat (Option TcTree)
  | none => createQdisc parent handle attrs none
  | some tree =>
      if parent = TcHandle.ROOT then
        createQdisc parent handle attrs none
      else if tree.hasLeaf parent = false then
        createQdisc parent handle attrs (some tree)
      else if tree.handle = handle || tree.leaves.any
          (fun leaf => leaf.handle = handle && leaf.parent ≠ parent) then
        .error EEXIST
      else
        .ok (some
          { tree with
            leaves := tree.leaves.map fun leaf =>
              if leaf.parent = parent then { parent, handle, options := attrs.settled } else leaf })

/-- `RTM_DELQDISC`; no handle is any. -/
def deleteQdisc (parent : TcHandle) (handle : Option TcHandle) :
    Option TcTree → Except Nat (Option TcTree)
  | none => .error ENOENT
  | some tree =>
      if parent = TcHandle.ROOT then
        if handle.all (· = tree.handle) then .ok none else .error EINVAL
      else if tree.leaves.any
          (fun leaf => leaf.parent = parent && handle.all (· = leaf.handle)) then
        .ok (some
          { tree with leaves := tree.leaves.filter (·.parent ≠ parent) })
      else
        .error ENOENT

/-- `RTM_NEWTCLASS`, exclusive. -/
def createClass (parent classid : TcHandle) (attrs : HtbClassAttrs) :
    Option TcTree → Except Nat (Option TcTree)
  | none => .error ENOENT
  | some tree =>
      if tree.options.kind ≠ "htb" || tree.isParent parent = false then
        .error EINVAL
      else if tree.hasClass classid then
        .error EEXIST
      else
        .ok (some
          { tree with
            classes := tree.classes ++ [{ handle := classid, parent, options := .htb attrs }] })

/-- `RTM_NEWTCLASS` for a class that exists. -/
def changeClass (classid : TcHandle) (attrs : HtbClassAttrs) :
    Option TcTree → Except Nat (Option TcTree)
  | none => .error ENOENT
  | some tree =>
      if tree.hasClass classid = false then
        .error ENOENT
      else
        .ok (some
          { tree with
            classes := tree.classes.map fun tcClass =>
              if tcClass.handle = classid then
                { tcClass with options := .htb attrs }
              else
                tcClass })

/-- The class that a filter selects. -/
def flowerClassid (filter : TcFilter) : Option TcHandle :=
  match filter.options with
  | .flower attrs => attrs.classid
  | .other _ => none

/-- `RTM_DELTCLASS`; a class that has classes or that a filter selects
stays. -/
def deleteClass (classid : TcHandle) : Option TcTree → Except Nat (Option TcTree)
  | none => .error ENOENT
  | some tree =>
      if tree.hasClass classid = false then
        .error ENOENT
      else if tree.classes.any (·.parent = classid) ||
          tree.filters.any (flowerClassid · = some classid) then
        .error EBUSY
      else
        .ok (some
          { tree with
            classes := tree.classes.filter (·.handle ≠ classid)
            leaves := tree.leaves.filter (·.parent ≠ classid) })

/-- `RTM_NEWTFILTER`, exclusive. -/
def createFilter (filter : TcFilter) : Option TcTree → Except Nat (Option TcTree)
  | none => .error ENOENT
  | some tree =>
      if tree.isParent filter.parent = false then
        .error EINVAL
      else if tree.filters.any filter.clashes then
        .error EEXIST
      else
        .ok (some { tree with filters := tree.filters ++ [filter] })

/-- `RTM_DELTFILTER` for the filters of a priority. -/
def deleteFilter (parent : TcHandle) (protocol priority : BitVec 16) :
    Option TcTree → Except Nat (Option TcTree)
  | none => .error ENOENT
  | some tree =>
      let named := fun filter : TcFilter =>
        filter.parent = parent && filter.protocol = protocol && filter.priority = priority
      if tree.filters.any named then
        .ok (some { tree with filters := tree.filters.filter (!named ·) })
      else
        .error ENOENT

/-- Options that cannot be written are not sent. -/
def sendQdisc (config : QdiscConfig) (wrap : Error → Error)
    (act : QdiscAttrs → Option TcTree → Except Nat (Option TcTree)) :
    Conn Unit :=
  match config.writeOptions with
  | .ok attrs => mapErr wrap (sendAck (act attrs))
  | .error error => throw error

/-- `add_qdisc_by_index_full`. -/
def addQdiscFull (parent handle : TcHandle) (config : QdiscConfig) : Conn Unit :=
  sendQdisc config (withContext "add_qdisc") (createQdisc parent handle)

/-- `change_qdisc_by_index_full`. -/
def changeQdiscFull (parent handle : TcHandle) (config : QdiscConfig) : Conn Unit := do
  let ifindex := toString (← get).ifindex.toNat
  sendQdisc config
    (fun error =>
      if error.isNotFound then
        .qdiscNotFound config.kind ("ifindex " ++ ifindex)
      else
        error.withContext
          ("change_qdisc(ifindex " ++ ifindex ++ ", parent=" ++ parent.format ++ ")"))
    (changeQdisc parent handle)

/-- `replace_qdisc_by_index_full`. -/
def replaceQdiscFull (parent handle : TcHandle) (config : QdiscConfig) : Conn Unit :=
  sendQdisc config (withContext "replace_qdisc") (replaceQdisc parent handle)

/-- `del_qdisc_by_index_full`. -/
def delQdiscFull (parent : TcHandle) (handle : Option TcHandle) : Conn Unit := do
  let ifindex := toString (← get).ifindex.toNat
  mapErr
    (fun error =>
      if error.isNotFound then
        .qdiscNotFound (handle.getD parent).format ("ifindex " ++ ifindex)
      else
        error.withContext ("del_qdisc(ifindex " ++ ifindex ++ ", parent=" ++ parent.format ++ ")"))
    (sendAck (deleteQdisc parent handle))

/-- `add_class_by_index`. -/
def addClass (parent classid : TcHandle) (config : HtbClassConfig) : Conn Unit :=
  mapErr (withContext "add_class") (sendAck (createClass parent classid config.writeOptions))

/-- `change_class_by_index`; the class keeps its parent. -/
def changeClassFull (classid : TcHandle) (config : HtbClassConfig) : Conn Unit :=
  mapErr (withContext "change_class") (sendAck (changeClass classid config.writeOptions))

/-- `del_class_by_index`. -/
def delClass (classid : TcHandle) : Conn Unit :=
  mapErr (withContext "del_class") (sendAck (deleteClass classid))

/-- `add_filter_by_index_full`, of a flower filter. -/
def addFilterFull (parent : TcHandle) (protocol priority : BitVec 16)
    (filter : FlowerFilter) : Conn Unit :=
  mapErr (withContext "add_filter")
    (sendAck (createFilter
        { parent, protocol, priority
          options := .flower filter.writeOptions }))

/-- `del_filter_by_index`. -/
def delFilter (parent : TcHandle) (protocol priority : BitVec 16) : Conn Unit :=
  mapErr (withContext "del_filter") (sendAck (deleteFilter parent protocol priority))

open TcHandle

/-!
## Packets and their classes

An HTB tries the filters at its root for a packet by priority, and queues it in
the class that the first one that matches selects.  A packet that is left goes
to the default class, and past the shaper when there is none.
-/

section

-- What a filter of another kind does with a packet: nothing, or a match that
-- may select a class.
variable (others : String → Packet → Option (Option TcHandle))

namespace TcFilter

/-- What the filter does with a packet. -/
def result (filter : TcFilter) (packet : Packet) : Option (Option TcHandle) :=
  match filter.options with
  | .flower attrs => if attrs.selects packet then some attrs.classid else none
  | .other kind => others kind packet

/-- The filter is for the protocol of the packet. -/
def isFor (filter : TcFilter) (packet : Packet) : Bool :=
  filter.protocol = packet.networkType || filter.protocol = ETH_P_ALL

end TcFilter

namespace TcTree

/-- The filters at the root that are tried for a packet. -/
def tried (tree : TcTree) (packet : Packet) : List TcFilter :=
  tree.filters.filter fun filter => filter.parent = tree.handle && filter.isFor packet

def selected (tree : TcTree) (packet : Packet) : Option TcHandle :=
  ((sortByKey (·.priority.toNat) (tree.tried packet)).findSome? (·.result others packet)).join

/-- The class of a handle, if no other class is under it. -/
def leafClass (tree : TcTree) (handle : TcHandle) : Option TcClass :=
  if tree.classes.any (·.parent = handle) then none else lookupBy (·.handle) tree.classes handle

/-- The class that the root qdisc has for other packets. -/
def defaultHandle (tree : TcTree) : TcHandle :=
  match tree.options with
  | .htb defaultClass => TcHandle.new tree.handle.major (TcHandle.minor defaultClass)
  | _ => UNSPEC

/-- The class in which a packet is queued; without one it is not shaped. -/
def queue (tree : TcTree) (packet : Packet) : Option TcClass :=
  ((tree.selected others packet).bind tree.leafClass).or (tree.leafClass tree.defaultHandle)

end TcTree

end

/-!
## Trees that the kernel has

The classes of a tree have distinct handles, and its leaf qdiscs are not at the
root.
-/

namespace TcTree

structure WellFormed (tree : TcTree) : Prop where
  handles : (tree.classes.map (·.handle)).Nodup
  belowRoot : ∀ leaf ∈ tree.leaves, leaf.parent ≠ ROOT

end TcTree

/-- A device without a tree is well formed. -/
def WellFormed (tree : Option TcTree) : Prop :=
  ∀ built ∈ tree, built.WellFormed

theorem wellFormed_none : WellFormed none := by
  intro tree member
  cases member

end Nlink.Tc
