import Mathlib.Data.Vector.Defs
import Nlink.Xfrm

namespace Nlink.Xfrm

open Foundation Netlink
open List hiding Vector

/-!
# What the kernel notifies of

The kernel holds SAs and policies.  Each operation on them sends one message,
which is read as one event.
-/

/-!
## State
-/

/-- A destination, an SPI and a protocol. -/
structure SaKey where
  dst : Option IpAddr
  spi : BitVec 32
  proto : BitVec 8
  deriving DecidableEq

/-- An SA as the kernel sends it. -/
structure Sa where
  info : XfrmUsersaInfo
  attrs : List UInt8
  isIp : info.family = AF_INET ∨ info.family = AF_INET6

def Sa.key (sa : Sa) : SaKey where
  dst := toIp sa.info.id.daddr sa.info.family
  spi := sa.info.id.spi
  proto := sa.info.id.proto

/-- A policy as the kernel sends it.  No policy has the index zero. -/
structure Policy where
  info : XfrmUserpolicyInfo
  attrs : List UInt8
  indexed : info.index ≠ 0

def Policy.slot (policy : Policy) : XfrmSelector × BitVec 8 :=
  (policy.info.sel, policy.info.dir)

def Policy.place (policy : Policy) : BitVec 8 × BitVec 32 :=
  (policy.info.dir, policy.info.index)

/-- At most one SA per key, at most one policy per selector and direction, and
no index twice. -/
structure Kernel where
  sas : List Sa
  policies : List Policy
  oneSa : (sas.map Sa.key).Nodup
  onePolicy : (policies.map Policy.slot).Nodup
  ownIndex : (policies.map fun policy => policy.info.index).Nodup

/-!
## Operations
-/

inductive Operation where
  | putSa (update : Bool) (sa : Sa)
  | deleteSa (key : SaKey)
  | expireSa (key : SaKey) (curlft : XfrmLifetimeCur) (hard : Bool)
  | flushSas (proto : BitVec 8)
  | putPolicy (update : Bool) (policy : Policy)
  | deletePolicyAt (place : BitVec 8 × BitVec 32)
  | deletePolicyOf (slot : XfrmSelector × BitVec 8)
  | expirePolicy (place : BitVec 8 × BitVec 32) (curlft : XfrmLifetimeCur) (hard : Bool)
  | flushPolicies

section Bodies

variable (order : ByteOrder)

def saBody (sa : Sa) : List UInt8 :=
  (XfrmUsersaInfo.layout order).write sa.info ++ sa.attrs

/-- `struct xfrm_usersa_id`. -/
def saIdBody (sa : Sa) : List UInt8 :=
  (XfrmUsersaId.layout order).write
    { daddr := sa.info.id.daddr
      spi := sa.info.id.spi
      family := sa.info.family
      proto := sa.info.id.proto
      pad := Vector.replicate 1 0 }

/-- The byte behind the info struct of an expiry, and its padding. -/
def hardByte (hard : Bool) : List UInt8 :=
  (if hard then 1 else 0) :: List.replicate 7 0

def saExpireBody (sa : Sa) (curlft : XfrmLifetimeCur) (hard : Bool) : List UInt8 :=
  (XfrmUsersaInfo.layout order).write { sa.info with curlft := curlft } ++ hardByte hard

def policyBody (policy : Policy) : List UInt8 :=
  (XfrmUserpolicyInfo.layout order).write policy.info ++ policy.attrs

def XFRMA_POLICY : Nat := 7

def zeroSelector : XfrmSelector where
  daddr := Vector.replicate 16 0
  saddr := Vector.replicate 16 0
  dport := 0
  dportMask := 0
  sport := 0
  sportMask := 0
  family := 0
  prefixlenD := 0
  prefixlenS := 0
  proto := 0
  pad1 := Vector.replicate 3 0
  ifindex := 0
  user := 0

/-- `struct xfrm_userpolicy_id` with an index and no selector, or with a
selector and no index, and the whole policy behind it. -/
def policyIdBody (sel : XfrmSelector) (index : BitVec 32) (policy : Policy) : List UInt8 :=
  (XfrmUserpolicyId.layout order).write
      { sel := sel, index := index, dir := policy.info.dir, pad := Vector.replicate 3 0 } ++
    encodeAll order [(XFRMA_POLICY, policyBody order policy)]

def policyExpireBody (policy : Policy) (curlft : XfrmLifetimeCur) (hard : Bool) : List UInt8 :=
  (XfrmUserpolicyInfo.layout order).write { policy.info with curlft := curlft } ++ hardByte hard

end Bodies

namespace Kernel

theorem nodup_put {α κ : Type} [DecidableEq κ] (key : α → κ) {items : List α} (item : α)
    (nodup : (items.map key).Nodup) :
    ((items.filter (fun other => key other ≠ key item) ++ [item]).map key).Nodup := by
  rw [map_append, map_singleton, nodup_append]
  refine ⟨nodup.sublist (filter_sublist.map key), nodup_singleton _, ?_⟩
  rintro _ member _ same rfl
  obtain ⟨other, isOther, rfl⟩ := mem_map.mp member
  exact of_decide_eq_true (mem_filter.mp isOther).2 (mem_singleton.mp same)

/-- Only some SAs are left. -/
def keepSas (kernel : Kernel) (kept : Sa → Bool) : Kernel :=
  { kernel with
    sas := kernel.sas.filter kept
    oneSa := kernel.oneSa.sublist (filter_sublist.map _) }

/-- Only some policies are left. -/
def keepPolicies (kernel : Kernel) (kept : Policy → Bool) : Kernel :=
  { kernel with
    policies := kernel.policies.filter kept
    onePolicy := kernel.onePolicy.sublist (filter_sublist.map _)
    ownIndex := kernel.ownIndex.sublist (filter_sublist.map _) }

def putSa (kernel : Kernel) (sa : Sa) : Kernel :=
  { kernel with
    sas := kernel.sas.filter (fun other => other.key ≠ sa.key) ++ [sa]
    oneSa := nodup_put Sa.key sa kernel.oneSa }

/-- The index is that of no policy in another slot. -/
def IndexFree (kernel : Kernel) (policy : Policy) : Prop :=
  ∀ other ∈ kernel.policies, other.slot ≠ policy.slot → other.info.index ≠ policy.info.index

instance (kernel : Kernel) (policy : Policy) : Decidable (kernel.IndexFree policy) :=
  inferInstanceAs (Decidable (∀ other ∈ kernel.policies, _))

/-- A policy in the place of one with its selector and direction. -/
def putPolicy (kernel : Kernel) (policy : Policy) (free : kernel.IndexFree policy) : Kernel :=
  { kernel with
    policies := kernel.policies.filter (fun other => other.slot ≠ policy.slot) ++ [policy]
    onePolicy := nodup_put Policy.slot policy kernel.onePolicy
    ownIndex := by
      rw [map_append, map_singleton, nodup_append]
      refine ⟨kernel.ownIndex.sublist (filter_sublist.map _), nodup_singleton _, ?_⟩
      rintro _ member _ same rfl
      obtain ⟨other, isOther, rfl⟩ := mem_map.mp member
      obtain ⟨here, otherSlot⟩ := mem_filter.mp isOther
      exact free other here (of_decide_eq_true otherSlot) (mem_singleton.mp same) }

variable (order : ByteOrder)

/-- What an operation leaves, and the message that it sends.  An operation on
something that is not there is refused. -/
def apply (kernel : Kernel) : Operation → Kernel × Option Notification
  | .putSa update sa =>
      (kernel.putSa sa,
        some { msgType := if update then XFRM_MSG_UPDSA else XFRM_MSG_NEWSA
               body := saBody order sa })
  | .deleteSa key =>
      match kernel.sas.find? (·.key = key) with
      | none => (kernel, none)
      | some sa =>
          (kernel.keepSas (·.key ≠ key),
            some { msgType := XFRM_MSG_DELSA, body := saIdBody order sa })
  | .expireSa key curlft hard =>
      match kernel.sas.find? (·.key = key) with
      | none => (kernel, none)
      | some sa =>
          (if hard then kernel.keepSas (·.key ≠ key) else kernel,
            some { msgType := XFRM_MSG_EXPIRE, body := saExpireBody order sa curlft hard })
  | .flushSas proto =>
      (kernel.keepSas fun sa => proto ≠ 0 ∧ sa.key.proto ≠ proto,
        some { msgType := XFRM_MSG_FLUSHSA, body := [.ofBitVec proto] })
  | .putPolicy update policy =>
      if free : kernel.IndexFree policy then
        (kernel.putPolicy policy free,
          some { msgType := if update then XFRM_MSG_UPDPOLICY else XFRM_MSG_NEWPOLICY
                 body := policyBody order policy })
      else
        (kernel, none)
  | .deletePolicyAt place =>
      match kernel.policies.find? (·.place = place) with
      | none => (kernel, none)
      | some policy =>
          (kernel.keepPolicies (·.place ≠ place),
            some { msgType := XFRM_MSG_DELPOLICY
                   body := policyIdBody order zeroSelector place.2 policy })
  | .deletePolicyOf slot =>
      match kernel.policies.find? (·.slot = slot) with
      | none => (kernel, none)
      | some policy =>
          (kernel.keepPolicies (·.slot ≠ slot),
            some { msgType := XFRM_MSG_DELPOLICY, body := policyIdBody order slot.1 0 policy })
  | .expirePolicy place curlft hard =>
      match kernel.policies.find? (·.place = place) with
      | none => (kernel, none)
      | some policy =>
          (if hard then kernel.keepPolicies (·.place ≠ place) else kernel,
            some { msgType := XFRM_MSG_POLEXPIRE
                   body := policyExpireBody order policy curlft hard })
  | .flushPolicies =>
      (kernel.keepPolicies fun _ => false, some { msgType := XFRM_MSG_FLUSHPOLICY, body := [] })

/-- The state that a sequence of operations leaves. -/
def after (kernel : Kernel) : List Operation → Kernel
  | [] => kernel
  | operation :: rest => after (kernel.apply order operation).1 rest

/-- The messages that a sequence of operations sends. -/
def notifications (kernel : Kernel) : List Operation → List Notification
  | [] => []
  | operation :: rest =>
      (kernel.apply order operation).2.toList ++
        notifications (kernel.apply order operation).1 rest

end Kernel

/-- The events that a stream yields of datagrams. -/
def events (order : ByteOrder) (datagrams : List (List Frame)) : List XfrmEvent :=
  eventsOf order (parseXfrmEvent order) datagrams

/-!
## What is left, as far as notifications tell
-/

/-- An SA as its last message is read. -/
def Sa.asRead (order : ByteOrder) (sa : Sa) : SecurityAssociation :=
  (nlas order sa.attrs).foldl (SecurityAssociation.addAttr order) (saOfInfo sa.info)

/-- A policy as its last message is read. -/
def Policy.asRead (order : ByteOrder) (policy : Policy) : SecurityPolicy :=
  (nlas order policy.attrs).foldl (SecurityPolicy.addAttr order) (policyOfInfo policy.info)

/-- What identifies a policy: its selector, direction and index. -/
structure PolicyKey where
  sel : XfrmSelector
  dir : BitVec 8
  index : BitVec 32

def Policy.key (policy : Policy) : PolicyKey where
  sel := policy.info.sel
  dir := policy.info.dir
  index := policy.info.index

/-- The SAs and the policies, by what identifies them and with what is read of
them. -/
structure View where
  sas : List (SaKey × SecurityAssociation)
  policies : List (PolicyKey × SecurityPolicy)

def Kernel.view (order : ByteOrder) (kernel : Kernel) : View where
  sas := kernel.sas.map fun sa => (sa.key, sa.asRead order)
  policies := kernel.policies.map fun policy => (policy.key, policy.asRead order)

/-- The two sequences of operations leave the same SAs and policies if their
notifications are read as the same events, however they are split over
datagrams. -/
def Determined (order : ByteOrder) (kernel : Kernel) (first second : List Operation) : Prop :=
  ∀ firstDatagrams secondDatagrams,
    Carried (kernel.notifications order first) firstDatagrams →
    Carried (kernel.notifications order second) secondDatagrams →
    events order firstDatagrams = events order secondDatagrams →
    (kernel.after order first).view order = (kernel.after order second).view order

/-!
## Operations that their events tell of
-/

/-- Four bytes as an address. -/
def padded (octets : Vector UInt8 4) : XfrmAddress :=
  Vector.ofFn fun index => octets.toList.getD index 0

/-- The bytes of an address that its family does not use are zero. -/
def Unpadded (address : XfrmAddress) (family : BitVec 16) : Prop :=
  family = AF_INET → padded (firstFour address) = address

/-- The selector is limited to no interface, user or range of ports. -/
structure XfrmSelector.Plain (sel : XfrmSelector) : Prop where
  isIp : sel.family = AF_INET ∨ sel.family = AF_INET6
  daddr : Unpadded sel.daddr sel.family
  saddr : Unpadded sel.saddr sel.family
  dportMask : sel.dportMask = if sel.dport = 0 then 0 else 0xffff
  sportMask : sel.sportMask = if sel.sport = 0 then 0 else 0xffff
  pad1 : sel.pad1 = Vector.replicate 3 0
  ifindex : sel.ifindex = 0
  user : sel.user = 0

/-- A flush of SAs leaves none, a policy that is added has a plain selector, and
a policy that is deleted by its selector is the only one of its direction whose
selector is read so. -/
def Operation.Told (kernel : Kernel) : Operation → Prop
  | .flushSas proto => proto = 0 ∨ ∀ sa ∈ kernel.sas, sa.key.proto = proto
  | .putPolicy _ policy => policy.info.sel.Plain
  | .deletePolicyOf slot =>
      ∀ other ∈ kernel.policies, other.info.dir = slot.2 →
        TrafficSelector.fromSelector other.info.sel = .fromSelector slot.1 →
        other.info.sel = slot.1
  | _ => True

/-- Each operation is told of, in the state in which it is done. -/
def Kernel.AllTold (order : ByteOrder) (kernel : Kernel) : List Operation → Prop
  | [] => True
  | operation :: rest => operation.Told kernel ∧ (kernel.apply order operation).1.AllTold order rest

/-!
## When events determine what is left

An observer follows the SAs and policies by events alone.  An operation that its
event tells of changes the observer's view as it changes the kernel, so what is
left after a run is known from the events of the run.
-/

variable {order : ByteOrder}

/-!
## What notifications are read as
-/

theorem nlas_nil : nlas order [] = [] :=
  rfl

theorem parseSaPayload_write (info : XfrmUsersaInfo) (attrs : List UInt8) :
    parseSaPayload order ((XfrmUsersaInfo.layout order).write info ++ attrs) =
      some ((nlas order attrs).foldl (SecurityAssociation.addAttr order) (saOfInfo info)) := by
  rw [parseSaPayload]
  simp only [FixedLayout.fromPrefix?_write, Option.map_some]
  rw [drop_left' ((XfrmUsersaInfo.layout order).length_write info)]

theorem parseSpPayload_write (info : XfrmUserpolicyInfo) (attrs : List UInt8) :
    parseSpPayload order ((XfrmUserpolicyInfo.layout order).write info ++ attrs) =
      some ((nlas order attrs).foldl (SecurityPolicy.addAttr order) (policyOfInfo info)) := by
  rw [parseSpPayload]
  simp only [FixedLayout.fromPrefix?_write, Option.map_some]
  rw [drop_left' ((XfrmUserpolicyInfo.layout order).length_write info)]

theorem prefix?_append {size : Nat} {front : List UInt8} (length : front.length = size)
    (rest : List UInt8) : prefix? size (front ++ rest) = some front := by
  rw [prefix?, if_neg (by rw [length_append]; omega), take_left' length]

theorem hard_behind {size : Nat} {front : List UInt8} (length : front.length = size) (hard : Bool) :
    ((front ++ hardByte hard).getD size 0 != 0) = hard := by
  rw [getD_eq_getElem?_getD, getElem?_append_right (Nat.le_of_eq length), length, Nat.sub_self]
  cases hard <;> rfl

def event? (order : ByteOrder) (notification : Notification) : Option XfrmEvent :=
  parseXfrmEvent order notification.msgType notification.body

theorem event?_putSa (update : Bool) (sa : Sa) :
    event? order
      { msgType := if update then XFRM_MSG_UPDSA else XFRM_MSG_NEWSA
        body := saBody order sa } = some (.newSa (sa.asRead order)) := by
  have isSa : (if update then XFRM_MSG_UPDSA else XFRM_MSG_NEWSA) = XFRM_MSG_NEWSA ∨
      (if update then XFRM_MSG_UPDSA else XFRM_MSG_NEWSA) = XFRM_MSG_UPDSA := by
    cases update <;> simp
  rw [event?, parseXfrmEvent, if_pos isSa]
  simp only [saBody]
  rw [parseSaPayload_write]
  rfl

theorem event?_deleteSa (sa : Sa) :
    event? order { msgType := XFRM_MSG_DELSA, body := saIdBody order sa } =
      some (.delSa
        { dstAddr := sa.key.dst
          spi := sa.key.spi
          protocol := .fromU8 sa.key.proto }) := by
  have read := (XfrmUsersaId.layout order).fromPrefix?_write
    { daddr := sa.info.id.daddr
      spi := sa.info.id.spi
      family := sa.info.family
      proto := sa.info.id.proto
      pad := Vector.replicate 1 0 } []
  rw [List.append_nil] at read
  change ((XfrmUsersaId.layout order).fromPrefix? (saIdBody order sa)).map _ = _
  rw [saIdBody, read]
  rfl

variable (body : List UInt8)

theorem parseXfrmEvent_expire :
    parseXfrmEvent order XFRM_MSG_EXPIRE body =
      (prefix? (XfrmUsersaInfo.layout order).size body).bind fun front =>
        (parseSaPayload order front).map fun sa =>
          .expireSa sa (body.getD (XfrmUsersaInfo.layout order).size 0 != 0) := by
  simp [parseXfrmEvent, XFRM_MSG_EXPIRE, XFRM_MSG_NEWSA, XFRM_MSG_UPDSA, XFRM_MSG_DELSA,
    Option.map_eq_bind]

theorem event?_expireSa (sa : Sa) (curlft : XfrmLifetimeCur) (hard : Bool) :
    event? order
      { msgType := XFRM_MSG_EXPIRE, body := saExpireBody order sa curlft hard } =
      some (.expireSa (saOfInfo { sa.info with curlft := curlft }) hard) := by
  have length := (XfrmUsersaInfo.layout order).length_write { sa.info with curlft := curlft }
  have parsed := @parseSaPayload_write order { sa.info with curlft := curlft } []
  rw [List.append_nil, nlas_nil, foldl_nil] at parsed
  rw [event?, parseXfrmEvent_expire, saExpireBody, prefix?_append length,
    hard_behind length, Option.bind_some, parsed]
  rfl

theorem event?_putPolicy (update : Bool) (policy : Policy) :
    event? order
      { msgType := if update then XFRM_MSG_UPDPOLICY else XFRM_MSG_NEWPOLICY
        body := policyBody order policy } = some (.newPolicy (policy.asRead order)) := by
  have read := @parseSpPayload_write order policy.info policy.attrs
  have isPolicy : parseXfrmEvent order
      (if update then XFRM_MSG_UPDPOLICY else XFRM_MSG_NEWPOLICY) (policyBody order policy) =
        (parseSpPayload order (policyBody order policy)).map .newPolicy := by
    cases update <;> rfl
  rw [event?, isPolicy, policyBody, read]
  rfl

theorem event?_deletePolicy (sel : XfrmSelector) (index : BitVec 32) (policy : Policy) :
    event? order
      { msgType := XFRM_MSG_DELPOLICY, body := policyIdBody order sel index policy } =
      some (.delPolicy
        { selector := .fromSelector sel
          index := index
          direction := .fromU8 policy.info.dir }) := by
  change ((XfrmUserpolicyId.layout order).fromPrefix?
    (policyIdBody order sel index policy)).map _ = _
  rw [policyIdBody, FixedLayout.fromPrefix?_write]
  rfl

theorem parseXfrmEvent_polexpire :
    parseXfrmEvent order XFRM_MSG_POLEXPIRE body =
      (prefix? (XfrmUserpolicyInfo.layout order).size body).bind fun front =>
        (parseSpPayload order front).map fun policy =>
          .expirePolicy policy (body.getD (XfrmUserpolicyInfo.layout order).size 0 != 0) := by
  simp [parseXfrmEvent, XFRM_MSG_POLEXPIRE, XFRM_MSG_EXPIRE, XFRM_MSG_NEWSA, XFRM_MSG_UPDSA,
    XFRM_MSG_DELSA, XFRM_MSG_NEWPOLICY, XFRM_MSG_UPDPOLICY, XFRM_MSG_DELPOLICY, Option.map_eq_bind]

theorem event?_expirePolicy (policy : Policy) (curlft : XfrmLifetimeCur) (hard : Bool) :
    event? order
      { msgType := XFRM_MSG_POLEXPIRE, body := policyExpireBody order policy curlft hard } =
      some (.expirePolicy (policyOfInfo { policy.info with curlft := curlft }) hard) := by
  have length := (XfrmUserpolicyInfo.layout order).length_write
    { policy.info with curlft := curlft }
  have parsed := @parseSpPayload_write order { policy.info with curlft := curlft } []
  rw [List.append_nil, nlas_nil, foldl_nil] at parsed
  rw [event?, parseXfrmEvent_polexpire, policyExpireBody, prefix?_append length,
    hard_behind length, Option.bind_some, parsed]
  rfl

theorem event?_flushSas :
    event? order { msgType := XFRM_MSG_FLUSHSA, body := body } = some .flushSa :=
  rfl

theorem event?_flushPolicies :
    event? order { msgType := XFRM_MSG_FLUSHPOLICY, body := body } =
      some .flushPolicy :=
  rfl

theorem events_eq {notifications : List Notification} {datagrams : List (List Frame)}
    (carried : Carried notifications datagrams) :
    events order datagrams = notifications.filterMap (event? order) :=
  eventsOf_carried order (parseXfrmEvent order) carried

/-!
## An observer
-/

def SecurityAssociation.key (sa : SecurityAssociation) : SaKey where
  dst := sa.dstAddr
  spi := sa.spi
  proto := sa.protocol.number

def addressOf : Option IpAddr → XfrmAddress
  | some (.v4 octets) => padded octets
  | some (.v6 octets) => octets
  | none => Vector.replicate 16 0

def familyOf : Option IpAddr → BitVec 16
  | some (.v4 _) => AF_INET
  | some (.v6 _) => AF_INET6
  | none => 0

def TrafficSelector.plain (selector : TrafficSelector) : XfrmSelector where
  daddr := addressOf selector.dstAddr
  saddr := addressOf selector.srcAddr
  dport := selector.dstPort.getD 0
  dportMask := if selector.dstPort.isSome then 0xffff else 0
  sport := selector.srcPort.getD 0
  sportMask := if selector.srcPort.isSome then 0xffff else 0
  family := familyOf selector.dstAddr
  prefixlenD := selector.dstPrefixLen
  prefixlenS := selector.srcPrefixLen
  proto := selector.proto
  pad1 := Vector.replicate 3 0
  ifindex := 0
  user := 0

def SecurityPolicy.key (policy : SecurityPolicy) : PolicyKey where
  sel := policy.selector.plain
  dir := policy.direction.number
  index := policy.index

def View.follow (view : View) : XfrmEvent → View
  | .newSa sa =>
      { view with sas := view.sas.filter (fun entry => entry.1 ≠ sa.key) ++ [(sa.key, sa)] }
  | .delSa id =>
      { view with
        sas := view.sas.filter fun entry =>
          entry.1 ≠ { dst := id.dstAddr, spi := id.spi, proto := id.protocol.number } }
  | .expireSa sa hard =>
      if hard then { view with sas := view.sas.filter fun entry => entry.1 ≠ sa.key } else view
  | .flushSa => { view with sas := [] }
  | .newPolicy policy =>
      { view with
        policies := view.policies.filter (fun entry =>
            (entry.1.sel, entry.1.dir) ≠ (policy.key.sel, policy.key.dir)) ++
          [(policy.key, policy)] }
  | .delPolicy id =>
      { view with
        policies := view.policies.filter fun entry =>
          if id.index = 0 then
            ¬ (entry.1.dir = id.direction.number ∧ .fromSelector entry.1.sel = id.selector)
          else
            (entry.1.dir, entry.1.index) ≠ (id.direction.number, id.index) }
  | .expirePolicy policy hard =>
      if hard then
        { view with
          policies := view.policies.filter fun entry =>
            (entry.1.dir, entry.1.index) ≠ (policy.direction.number, policy.index) }
      else
        view
  | .flushPolicy => { view with policies := [] }
  | _ => view

@[simp]
theorem number_fromU8 (val : BitVec 8) : (IpsecProtocol.fromU8 val).number = val := by
  rw [IpsecProtocol.fromU8]
  split
  · exact Eq.symm ‹val = 50›
  · split
    · exact Eq.symm ‹val = 51›
    · split
      · exact Eq.symm ‹val = 108›
      · rfl

@[simp]
theorem direction_fromU8 (val : BitVec 8) : (PolicyDirection.fromU8 val).number = val := by
  rw [PolicyDirection.fromU8]
  split
  · exact Eq.symm ‹val = 0›
  · split
    · exact Eq.symm ‹val = 1›
    · split
      · exact Eq.symm ‹val = 2›
      · rfl

theorem addressOf_toIp {address : XfrmAddress} {family : BitVec 16}
    (isIp : family = AF_INET ∨ family = AF_INET6) (unpadded : Unpadded address family) :
    addressOf (toIp address family) = address ∧ familyOf (toIp address family) = family := by
  rcases isIp with rfl | rfl
  · exact ⟨unpadded rfl, rfl⟩
  · exact ⟨rfl, rfl⟩

theorem port_getD (port : BitVec 16) :
    (if port ≠ 0 then some port else none).getD 0 = port ∧
      (if (if port ≠ 0 then some port else none).isSome then 0xffff else 0 : BitVec 16) =
        if port = 0 then 0 else 0xffff := by
  by_cases isZero : port = 0
  · subst isZero
    exact ⟨rfl, rfl⟩
  · have isPort : (if port ≠ 0 then some port else none) = some port := if_pos isZero
    rw [isPort]
    exact ⟨rfl, (if_neg isZero).symm⟩

theorem plain_fromSelector {sel : XfrmSelector} (plain : sel.Plain) :
    (TrafficSelector.fromSelector sel).plain = sel := by
  obtain ⟨isIp, daddr, saddr, dportMask, sportMask, pad1, ifindex, user⟩ := plain
  obtain ⟨sameDaddr, sameFamily⟩ := addressOf_toIp isIp daddr
  obtain ⟨sameSaddr, -⟩ := addressOf_toIp isIp saddr
  obtain ⟨sameDport, sameDmask⟩ := port_getD sel.dport
  obtain ⟨sameSport, sameSmask⟩ := port_getD sel.sport
  rw [← dportMask] at sameDmask
  rw [← sportMask] at sameSmask
  cases sel
  simp only [TrafficSelector.plain, TrafficSelector.fromSelector, XfrmSelector.mk.injEq] at *
  exact ⟨sameDaddr, sameSaddr, sameDport, sameDmask, sameSport, sameSmask, sameFamily, trivial,
    trivial, trivial, pad1.symm, ifindex.symm, user.symm⟩

/-!
## What attributes leave alone
-/

theorem key_addAttr (sa : SecurityAssociation) (attr : Nat × List UInt8) :
    (sa.addAttr order attr).key = sa.key := by
  simp only [SecurityAssociation.addAttr]
  split <;> rfl

theorem key_addAttrs (attrs : List (Nat × List UInt8)) (sa : SecurityAssociation) :
    (attrs.foldl (SecurityAssociation.addAttr order) sa).key = sa.key := by
  induction attrs generalizing sa with
  | nil => rfl
  | cons attr rest ih => exact (ih _).trans (key_addAttr sa attr)

theorem policyKey_addAttr (policy : SecurityPolicy) (attr : Nat × List UInt8) :
    (policy.addAttr order attr).key = policy.key := by
  simp only [SecurityPolicy.addAttr]
  split <;> rfl

theorem policyKey_addAttrs (attrs : List (Nat × List UInt8)) (policy : SecurityPolicy) :
    (attrs.foldl (SecurityPolicy.addAttr order) policy).key = policy.key := by
  induction attrs generalizing policy with
  | nil => rfl
  | cons attr rest ih => exact (ih _).trans (policyKey_addAttr policy attr)

theorem key_saOfInfo (info : XfrmUsersaInfo) :
    (saOfInfo info).key =
      { dst := toIp info.id.daddr info.family, spi := info.id.spi, proto := info.id.proto } := by
  simp [saOfInfo, SecurityAssociation.key]

theorem key_asRead (sa : Sa) : (sa.asRead order).key = sa.key :=
  (key_addAttrs _ _).trans (key_saOfInfo sa.info)

theorem policyKey_asRead {policy : Policy} (plain : policy.info.sel.Plain) :
    (policy.asRead order).key = policy.key := by
  rw [Policy.asRead, policyKey_addAttrs]
  simp [policyOfInfo, SecurityPolicy.key, Policy.key, plain_fromSelector plain]

/-!
## Steps
-/

variable {kernel : Kernel}

theorem key_found {α κ : Type} [DecidableEq κ] {key : α → κ} {wanted : κ} {items : List α}
    {item : α} (found : items.find? (fun other => key other = wanted) = some item) :
    key item = wanted := by
  have isWanted := find?_some found
  exact of_decide_eq_true isWanted

theorem view_keepSas (kept : SaKey → Bool) :
    (kernel.keepSas fun sa => kept sa.key).view order =
      { kernel.view order with
        sas := (kernel.view order).sas.filter fun entry => kept entry.1 } := by
  simp only [Kernel.view, Kernel.keepSas, filter_map, Function.comp_def]

theorem view_keepPolicies (kept : PolicyKey → Bool) :
    (kernel.keepPolicies fun policy => kept policy.key).view order =
      { kernel.view order with
        policies := (kernel.view order).policies.filter fun entry => kept entry.1 } := by
  simp only [Kernel.view, Kernel.keepPolicies, filter_map, Function.comp_def]

/-- A sender's messages, followed by an observer. -/
def followed (order : ByteOrder) (view : View) (sent : Option Notification) : View :=
  (sent.toList.filterMap (event? order)).foldl View.follow view

theorem followed_some {notification : Notification} {event : XfrmEvent}
    (read : event? order notification = some event) (view : View) :
    followed order view (some notification) = view.follow event := by
  simp [followed, read]

/-- An operation that is told of changes the observer's view as it changes the
kernel. -/
theorem followed_apply {operation : Operation} (told : operation.Told kernel) :
    followed order (kernel.view order) (kernel.apply order operation).2 =
      (kernel.apply order operation).1.view order := by
  cases operation with
  | putSa update sa =>
      refine (followed_some (event?_putSa update sa) _).trans ?_
      simp only [View.follow, key_asRead]
      simp only [Kernel.apply, Kernel.putSa, Kernel.view, map_append, filter_map,
        Function.comp_def, map_singleton]
  | deleteSa key =>
      simp only [Kernel.apply]
      cases found : kernel.sas.find? (·.key = key) with
      | none => rfl
      | some sa =>
          have isKey : sa.key = key := key_found found
          refine (followed_some (event?_deleteSa sa) _).trans ?_
          simp only [View.follow, number_fromU8, isKey]
          exact (view_keepSas fun other => other ≠ key).symm
  | expireSa key curlft hard =>
      simp only [Kernel.apply]
      cases found : kernel.sas.find? (·.key = key) with
      | none => rfl
      | some sa =>
          have isKey : sa.key = key := key_found found
          refine (followed_some (event?_expireSa sa curlft hard) _).trans ?_
          cases hard with
          | false => rfl
          | true =>
              have sentKey : (saOfInfo { sa.info with curlft := curlft }).key = key :=
                (key_saOfInfo _).trans isKey
              simp only [View.follow, sentKey, if_true]
              exact (view_keepSas fun other => other ≠ key).symm
  | flushSas proto =>
      refine (followed_some (event?_flushSas _) _).trans ?_
      have none : kernel.sas.filter (fun sa => proto ≠ 0 ∧ sa.key.proto ≠ proto) = [] := by
        rw [filter_eq_nil_iff]
        intro sa member isKept
        obtain ⟨notAll, other⟩ := of_decide_eq_true isKept
        exact told.elim notAll fun only => other (only sa member)
      simp only [View.follow, Kernel.apply, Kernel.view, Kernel.keepSas, none, map_nil]
  | putPolicy update policy =>
      simp only [Kernel.apply]
      split
      · refine (followed_some (event?_putPolicy update policy) _).trans ?_
        simp only [View.follow, policyKey_asRead told]
        simp only [Kernel.putPolicy, Kernel.view, map_append, filter_map,
          Function.comp_def, map_singleton]
        rfl
      · rfl
  | deletePolicyAt place =>
      simp only [Kernel.apply]
      cases found : kernel.policies.find? (·.place = place) with
      | none => rfl
      | some policy =>
          have isPlace : policy.place = place := key_found found
          refine (followed_some (event?_deletePolicy _ _ policy) _).trans ?_
          have notZero : place.2 ≠ 0 := isPlace ▸ policy.indexed
          have direction : policy.info.dir = place.1 := congrArg Prod.fst isPlace
          simp only [View.follow, if_neg notZero, direction_fromU8, direction]
          exact (view_keepPolicies fun other => (other.dir, other.index) ≠ place).symm
  | deletePolicyOf slot =>
      simp only [Kernel.apply]
      cases found : kernel.policies.find? (·.slot = slot) with
      | none => rfl
      | some policy =>
          have isSlot : policy.slot = slot := key_found found
          refine (followed_some (event?_deletePolicy _ _ policy) _).trans ?_
          have direction : policy.info.dir = slot.2 := congrArg Prod.snd isSlot
          simp only [View.follow, if_true, direction_fromU8, direction]
          -- No other selector of this direction is read as the deleted one.
          have same : kernel.policies.filter (fun other =>
              ¬ (other.key.dir = slot.2 ∧
                TrafficSelector.fromSelector other.key.sel = .fromSelector slot.1)) =
              kernel.policies.filter (·.slot ≠ slot) := by
            refine filter_congr fun other member => decide_eq_decide.mpr (not_congr ?_)
            constructor
            · rintro ⟨isDirection, readSo⟩
              exact Prod.ext (told other member isDirection readSo) isDirection
            · rintro rfl
              exact ⟨rfl, rfl⟩
          simp only [Kernel.view, Kernel.keepPolicies, filter_map, Function.comp_def, ← same]
  | expirePolicy place curlft hard =>
      simp only [Kernel.apply]
      cases found : kernel.policies.find? (·.place = place) with
      | none => rfl
      | some policy =>
          have isPlace : policy.place = place := key_found found
          refine (followed_some (event?_expirePolicy policy curlft hard) _).trans ?_
          cases hard with
          | false => rfl
          | true =>
              have sent : ((PolicyDirection.fromU8 policy.info.dir).number, policy.info.index) =
                  place := by
                rw [direction_fromU8]
                exact isPlace
              simp only [View.follow, policyOfInfo, sent, if_true]
              exact (view_keepPolicies fun other => (other.dir, other.index) ≠ place).symm
  | flushPolicies =>
      refine (followed_some (event?_flushPolicies _) _).trans ?_
      simp only [View.follow, Kernel.apply, Kernel.view, Kernel.keepPolicies]
      rw [filter_eq_nil_iff.mpr (by simp)]
      rfl

/-- A run whose operations are told of is followed by its events. -/
theorem follow_run {operations : List Operation} (told : kernel.AllTold order operations) :
    ((kernel.notifications order operations).filterMap (event? order)).foldl
      View.follow (kernel.view order) = (kernel.after order operations).view order := by
  induction operations generalizing kernel with
  | nil => rfl
  | cons operation rest ih =>
      obtain ⟨here, later⟩ := told
      rw [Kernel.notifications, filterMap_append, foldl_append, Kernel.after]
      have step := @followed_apply order _ _ here
      rw [followed] at step
      rw [step]
      exact ih later

/-- Two runs whose operations are all told of leave the same SAs and policies if
their notifications are read as the same events. -/
theorem determined_of_allTold (order : ByteOrder) (kernel : Kernel)
    (first second : List Operation) (firstTold : kernel.AllTold order first)
    (secondTold : kernel.AllTold order second) : Determined order kernel first second := by
  intro firstDatagrams secondDatagrams firstCarried secondCarried sameEvents
  rw [events_eq firstCarried, events_eq secondCarried] at sameEvents
  rw [← follow_run firstTold, ← follow_run secondTold, sameEvents]

/-!
## A flush of one protocol
-/

/-- An SA of 192.0.2.1 with the SPI 256. -/
def saOfProto (proto : BitVec 8) : Sa where
  info :=
    { sel := { zeroSelector with family := AF_INET }
      id :=
        { daddr := padded #v[192, 0, 2, 1]
          spi := 256
          proto := proto
          pad := Vector.replicate 3 0 }
      saddr := padded #v[192, 0, 2, 2]
      lft := Vector.replicate 64 0
      curlft := { bytes := 0, packets := 0, times := Vector.replicate 16 0 }
      stats := Vector.replicate 12 0
      seq := 0
      reqid := 0
      family := AF_INET
      mode := 0
      replayWindow := 0
      flags := 0
      pad := Vector.replicate 7 0 }
  attrs := []
  isIp := .inl rfl

def espAndAh : Kernel where
  sas := [saOfProto 50, saOfProto 51]
  policies := []
  oneSa := by decide
  onePolicy := nodup_nil
  ownIndex := nodup_nil

/-- A policy for what is sent to 192.0.2.0/24. -/
def outPolicy : Policy where
  info :=
    { sel :=
        { zeroSelector with
          daddr := padded #v[192, 0, 2, 0]
          family := AF_INET
          prefixlenD := 24 }
      lft := Vector.replicate 64 0
      curlft := { bytes := 0, packets := 0, times := Vector.replicate 16 0 }
      priority := 0
      index := 9
      dir := 1
      action := 0
      flags := 0
      share := 0
      pad := Vector.replicate 4 0 }
  attrs := []
  indexed := by decide

/-- A policy comes and is deleted by its selector, and all SAs are flushed. -/
def policyAndFlush (isUpdate : Bool) : List Operation :=
  [.putPolicy isUpdate outPolicy, .deletePolicyOf outPolicy.slot, .flushSas 0]

theorem allTold_policyAndFlush (isUpdate : Bool) :
    espAndAh.AllTold .little (policyAndFlush isUpdate) := by
  refine ⟨⟨.inl rfl, fun _ => by decide, fun _ => by decide, rfl, rfl, rfl, rfl, rfl⟩, ?_, .inl rfl,
    trivial⟩
  intro other member _ _
  cases mem_singleton.mp member
  rfl

theorem determined_of_allTold_flushed :
    Determined .little espAndAh (policyAndFlush false) (policyAndFlush true) :=
  determined_of_allTold .little espAndAh _ _ (allTold_policyAndFlush false)
    (allTold_policyAndFlush true)

/-- `XFRM_MSG_FLUSHSA` with a `struct xfrm_usersa_flush`. -/
def flushFrame (proto : BitVec 8) : Frame :=
  have typeFits : XFRM_MSG_FLUSHSA < 256 ^ 2 := by decide
  have short : 17 < 256 ^ 4 := by decide
  Notification.frame { msgType := XFRM_MSG_FLUSHSA, body := [.ofBitVec proto] } typeFits short

theorem carried_flush (proto : BitVec 8) :
    Carried (espAndAh.notifications .little [.flushSas proto]) [[flushFrame proto]] :=
  .cons ⟨rfl, rfl⟩ .nil

/-- A flush of the ESP SAs and a flush of the AH SAs are read as one event. -/
theorem not_determined_flush : ¬ Determined .little espAndAh [.flushSas 50] [.flushSas 51] := by
  intro determined
  have sameEvents : events .little [[flushFrame 50]] = events .little [[flushFrame 51]] := by
    rw [events_eq (carried_flush 50), events_eq (carried_flush 51)]
    rfl
  have sameView := determined _ _ (carried_flush 50) (carried_flush 51) sameEvents
  have sameProtos := congrArg (fun view => view.sas.map fun entry => entry.1.proto) sameView
  revert sameProtos
  decide

end Nlink.Xfrm
