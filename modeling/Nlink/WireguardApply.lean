import Nlink.Foundation.Effect
import Nlink.WireguardSetDevice

namespace Nlink.Wireguard

open Foundation Netlink Network Nftables List

/-!
# Applying a configuration

The difference is computed for every declared device.  Then, device by device,
the scalars are written, peers are added, changed and removed, each with a
request of its own.
-/

structure WireguardConfigDiff where
  devicesToModify : List (String × DeviceChanges)
  devicesToAdd : List String

/-- What an apply has done so far: the kernel, and the counts that it
reports. -/
structure ApplyState where
  kernel : Kernel
  deviceWrites : Nat
  peerWrites : Nat
  peerRemovals : Nat

/-- An apply that has failed: the error, and what was done before it. -/
structure ApplyFailure where
  error : Error
  state : ApplyState

/-- What a write has done: it is counted, or it fails. -/
def ApplyState.sent (state : ApplyState) (written : Except Error Kernel)
    (counted : Kernel → ApplyState) : Except ApplyFailure ApplyState :=
  match written with
  | .ok kernel => .ok (counted kernel)
  | .error error => .error { error := error, state := state }

/-- The kernel after an apply, whether it has failed or not. -/
def kernelAfter : Except ApplyFailure ApplyState → Kernel
  | .ok state => state.kernel
  | .error failure => failure.state.kernel

namespace WireguardConfig

/-- One round of the loop of `diff`. -/
def diffDevice {order : ByteOrder} (dumps : Dumps order) (kernel : Kernel)
    (diff : WireguardConfigDiff) (declared : DeclaredWgDevice) : Except Error WireguardConfigDiff :=
  match kernel.getDevice dumps declared.ifname with
  | .ok current =>
      let changes := declared.diffAgainst current
      if changes.isEmpty then
        .ok diff
      else
        .ok
          { diff with devicesToModify := diff.devicesToModify ++ [(declared.ifname, changes)] }
  | .error (.interfaceNotFound _) =>
      .ok { diff with devicesToAdd := diff.devicesToAdd ++ [declared.ifname] }
  | .error error => .error error

/-- `WireguardConfig::diff`. -/
def diff {order : ByteOrder} (dumps : Dumps order) (config : WireguardConfig) (kernel : Kernel) :
    Except Error WireguardConfigDiff :=
  config.devices.foldlM (diffDevice dumps kernel) { devicesToModify := [], devicesToAdd := [] }

section Writes

variable (order : ByteOrder)

/-- `set_device_by_name`. -/
def setDeviceByName (kernel : Kernel) (ifname : String) (config : WgDeviceBuilder) :
    Except Error Kernel :=
  kernel.setDevice order ((config.tree order ifname).attrs order)

/-- `set_peer_by_name`. -/
def setPeerByName (kernel : Kernel) (ifname : String) (peer : WgPeerBuilder) :
    Except Error Kernel :=
  setDeviceByName order kernel ifname { WgDeviceBuilder.new with peers := [peer] }

/-- `del_peer_by_name`. -/
def delPeerByName (kernel : Kernel) (ifname : String) (publicKey : Key) : Except Error Kernel :=
  setPeerByName order kernel ifname (WgPeerBuilder.new publicKey).remove

def scalarBuilder (declared : DeclaredWgDevice) : WgDeviceBuilder :=
  { WgDeviceBuilder.new with
    privateKey := declared.privateKey
    listenPort := declared.listenPort
    fwmark := declared.fwmark }

/-- Write the scalars when one of them is to be changed. -/
def writeScalars (declared : DeclaredWgDevice) (changes : DeviceChanges)
    (state : ApplyState) : Except ApplyFailure ApplyState :=
  if changes.hasDeviceLevelChange then
    state.sent
      (setDeviceByName order state.kernel declared.ifname (scalarBuilder declared))
      fun kernel =>
        { state with
          kernel := kernel
          deviceWrites := state.deviceWrites + 1 }
  else
    .ok state

def writePeer (ifname : String) (state : ApplyState) (peer : WgPeerBuilder) :
    Except ApplyFailure ApplyState :=
  state.sent (setPeerByName order state.kernel ifname peer) fun kernel =>
    { state with
      kernel := kernel
      peerWrites := state.peerWrites + 1 }

def addPeer (ifname : String) (state : ApplyState) (added : DeclaredWgPeer) :
    Except ApplyFailure ApplyState :=
  writePeer order ifname state (added.applyToBuilder (.new added.publicKey))

def modifyPeer (declared : DeclaredWgDevice) (state : ApplyState)
    (modified : Key × PeerChanges) : Except ApplyFailure ApplyState :=
  match declared.peers.find? (·.publicKey = modified.1) with
  | some peer =>
      writePeer order declared.ifname state
        (peer.applyChangesToBuilder (.new modified.1) modified.2)
  | none =>
      .error
        { error :=
            .invalidMessage
              ("wireguard apply: diff references undeclared peer for `" ++ declared.ifname ++ "`")
          state := state }

def removePeer (ifname : String) (state : ApplyState) (removed : Key) :
    Except ApplyFailure ApplyState :=
  state.sent (delPeerByName order state.kernel ifname removed) fun kernel =>
    { state with
      kernel := kernel
      peerRemovals := state.peerRemovals + 1 }

/-- The writes to a declared device. -/
def applyChanges (declared : DeclaredWgDevice) (changes : DeviceChanges)
    (state : ApplyState) : Except ApplyFailure ApplyState := do
  let state ← writeScalars order declared changes state
  let state ← changes.peersToAdd.foldlM (addPeer order declared.ifname) state
  let state ← changes.peersToModify.foldlM (modifyPeer order declared) state
  changes.peersToRemove.foldlM (removePeer order declared.ifname) state

/-- One round of the loop of `apply`. -/
def applyDevice (config : WireguardConfig) (state : ApplyState)
    (modified : String × DeviceChanges) : Except ApplyFailure ApplyState :=
  match config.devices.find? (·.ifname = modified.1) with
  | some declared => applyChanges order declared modified.2 state
  | none =>
      .error
        { error :=
            .invalidMessage
              ("wireguard apply: diff references undeclared device `" ++ modified.1 ++ "`")
          state := state }

/-- `WireguardConfig::apply`. -/
def apply (dumps : Dumps order) (config : WireguardConfig) (kernel : Kernel) :
    Except ApplyFailure ApplyState :=
  let start : ApplyState :=
    { kernel := kernel
      deviceWrites := 0
      peerWrites := 0
      peerRemovals := 0 }
  match config.diff dumps kernel with
  | .error error => .error { error := error, state := start }
  | .ok diff =>
      if diff.devicesToAdd = [] then
        diff.devicesToModify.foldlM (applyDevice order config) start
      else
        .error
          { error :=
              .invalidMessage
                ("wireguard apply: declared device(s) " ++ ", ".intercalate diff.devicesToAdd ++
                  " do not exist; create them first " ++
                  "(WireguardConfig::ensure_devices with a same-namespace " ++
                  "Connection<Route>, " ++
                  "or declare the links in a NetworkConfig/Stack)")
            state := start }

end Writes

end WireguardConfig

/-- The requests that write peers. -/
def DeclaredWgDevice.writes (declared : DeclaredWgDevice) (changes : DeviceChanges) :
    List WgPeerBuilder :=
  changes.peersToAdd.map (fun added => added.applyToBuilder (.new added.publicKey)) ++
    changes.peersToModify.filterMap fun modified =>
      (declared.peers.find? (·.publicKey = modified.1)).map fun peer =>
        peer.applyChangesToBuilder (.new modified.1) modified.2

/-- The requests that remove peers. -/
def removals (keys : List Key) : List WgPeerBuilder :=
  keys.map fun removed => (WgPeerBuilder.new removed).remove

/-- The requests that are made for the peers of a device, in order. -/
def DeclaredWgDevice.requests (declared : DeclaredWgDevice) (changes : DeviceChanges) :
    List WgPeerBuilder :=
  declared.writes changes ++ removals changes.peersToRemove

namespace KernelDevice

/-- The device after requests about its peers. -/
def setPeers (device : KernelDevice) (peers : List WgPeerBuilder) :
    KernelDevice :=
  peers.foldl (fun device peer => device.setPeer peer.publicKey peer.request) device

/-- The device after the scalars are written, if one of them is changed. -/
def setDeclared (device : KernelDevice) (declared : DeclaredWgDevice)
    (changes : DeviceChanges) : KernelDevice :=
  if changes.hasDeviceLevelChange then
    device.setScalars ((WireguardConfig.scalarBuilder declared).request device.ifname)
  else
    device

/-- The device after a declaration has been applied to it, for what was read
of it. -/
def reconcile (device : KernelDevice) (declared : DeclaredWgDevice) (current : WgDevice) :
    KernelDevice :=
  let changes := declared.diffAgainst current
  (device.setDeclared declared changes).setPeers (declared.requests changes)

end KernelDevice

/-!
## What a successful apply has done

Every declared device that exists is reconciled with what it was before; no
other device changes.
-/

/-- One device of the kernel has changed. -/
def Sets (ifname : String) (before after : Kernel) (device : KernelDevice) :
    Prop :=
  after.device = Function.update before.device ifname (some device)

namespace Sets

variable {ifname : String} {before middle after : Kernel}
variable {device other : KernelDevice}

theorem refl (found : before.device ifname = some device) : Sets ifname before before device := by
  rw [Sets, ← found, Function.update_eq_self]

theorem trans (first : Sets ifname before middle device) (second : Sets ifname middle after other) :
    Sets ifname before after other := by
  rw [Sets, second, first, Function.update_idem]

theorem found (sets : Sets ifname before after device) : after.device ifname = some device := by
  rw [sets, Function.update_self]

theorem elsewhere (sets : Sets ifname before after device) {name : String}
    (different : name ≠ ifname) : after.device name = before.device name := by
  rw [sets, Function.update_of_ne different]

end Sets

namespace KernelDevice

variable (device : KernelDevice)

@[simp]
theorem setPeer_ifname (key : Key) (request : PeerRequest) :
    (device.setPeer key request).ifname = device.ifname := by
  rw [setPeer]
  split <;> rfl

theorem setPeers_append (peers more : List WgPeerBuilder) :
    device.setPeers (peers ++ more) = (device.setPeers peers).setPeers more :=
  foldl_append

theorem write_peer (peer : WgPeerBuilder) :
    device.write { WgDeviceBuilder.new with peers := [peer] } =
      device.setPeer peer.publicKey peer.request := by
  simp [write, setScalars, WgDeviceBuilder.request, WgDeviceBuilder.new]

end KernelDevice

namespace WireguardConfig

variable {order : ByteOrder} {kernel after : Kernel} {ifname : String}
variable {device : KernelDevice}

theorem setDeviceByName_found (found : kernel.device ifname = some device)
    (config : WgDeviceBuilder) :
    setDeviceByName order kernel ifname config =
      if ((config.tree order ifname).attrs order).Fits order then
        .ok (kernel.update (device.write config))
      else
        .error (.kernel EINVAL) :=
  Kernel.setDevice_tree order found config

theorem sets_update {kernel : Kernel} {device other : KernelDevice}
    (found : kernel.device ifname = some device) (named : other.ifname = device.ifname) :
    Sets ifname kernel (kernel.update other) other := by
  have name := kernel.named ifname device found
  rw [Sets, ← name, ← named]
  rfl

def peerRequest (order : ByteOrder) (ifname : String) (peer : WgPeerBuilder) :
    Attrs :=
  (({ WgDeviceBuilder.new with peers := [peer] } : WgDeviceBuilder).tree order ifname).attrs order

/-- A part of an apply makes requests about the peers of a device: all of them
when it succeeds, those before the first that does not fit when it fails. -/
def Makes (order : ByteOrder) (ifname : String) (before : Kernel)
    (device : KernelDevice) (peers : List WgPeerBuilder) :
    Except ApplyFailure ApplyState → Prop
  | .ok last =>
      (∀ peer ∈ peers, (peerRequest order ifname peer).Fits order) ∧
        Sets ifname before last.kernel (device.setPeers peers)
  | .error failure =>
      ∃ front refused back, peers = front ++ refused :: back ∧
        ¬ (peerRequest order ifname refused).Fits order ∧
        Sets ifname before failure.state.kernel (device.setPeers front)

namespace Makes

variable {before : Kernel} {peers more : List WgPeerBuilder}

theorem sets {last : ApplyState} (makes : Makes order ifname before device peers (.ok last)) :
    Sets ifname before last.kernel (device.setPeers peers) :=
  makes.2

variable {state : ApplyState}

theorem nil (set : Sets ifname before state.kernel device) :
    Makes order ifname before device [] (.ok state) := by
  refine ⟨fun peer mem => ?_, set⟩
  cases mem

theorem bind {result : Except ApplyFailure ApplyState}
    {next : ApplyState → Except ApplyFailure ApplyState}
    (first : Makes order ifname before device peers result)
    (second : ∀ middle, Sets ifname before middle.kernel (device.setPeers peers) →
        Makes order ifname middle.kernel (device.setPeers peers) more (next middle)) :
    Makes order ifname before device (peers ++ more) (result >>= next) := by
  cases result with
  | error failure =>
      obtain ⟨front, refused, back, rfl, unfit, set⟩ := first
      exact ⟨front, refused, back ++ more, by simp, unfit, set⟩
  | ok middle =>
      obtain ⟨fits, set⟩ := first
      have rest := second middle set
      change Makes order ifname before device (peers ++ more) (next middle)
      cases outcome : next middle with
      | error failure =>
          rw [outcome] at rest
          obtain ⟨front, refused, back, rfl, unfit, restSet⟩ := rest
          refine ⟨peers ++ front, refused, back, by simp, unfit, ?_⟩
          rw [KernelDevice.setPeers_append]
          exact set.trans restSet
      | ok last =>
          rw [outcome] at rest
          refine ⟨fun peer mem => ?_, ?_⟩
          · rcases mem_append.mp mem with mem | mem
            · exact fits peer mem
            · exact rest.1 peer mem
          · rw [KernelDevice.setPeers_append]
            exact set.trans rest.2

theorem sent {peer : WgPeerBuilder} {counted : Kernel → ApplyState}
    (counts : ∀ kernel, (counted kernel).kernel = kernel)
    (found : state.kernel.device ifname = some device) :
    Makes order ifname state.kernel device [peer]
      (state.sent (setPeerByName order state.kernel ifname peer) counted) := by
  rw [setPeerByName, setDeviceByName_found found]
  split
  · rename_i fits
    refine ⟨fun other mem => ?_, ?_⟩
    · rw [mem_singleton.mp mem]
      exact fits
    · rw [KernelDevice.write_peer, counts]
      exact sets_update found (device.setPeer_ifname _ _)
  · rename_i unfit
    exact ⟨[], peer, [], rfl, unfit, Sets.refl found⟩

theorem foldlM {ι : Type} {step : ApplyState → ι → Except ApplyFailure ApplyState}
    {builder : ι → Option WgPeerBuilder} {items : List ι}
    (each : ∀ item ∈ items, ∃ peer, builder item = some peer ∧ ∀ (state : ApplyState) device,
        state.kernel.device ifname = some device →
          Makes order ifname state.kernel device [peer] (step state item))
    (found : state.kernel.device ifname = some device) :
    Makes order ifname state.kernel device (items.filterMap builder) (items.foldlM step state) := by
  induction items generalizing state device with
  | nil => exact nil (Sets.refl found)
  | cons item rest ih =>
      obtain ⟨peer, built, makes⟩ := each item mem_cons_self
      rw [filterMap_cons_some built, foldlM_cons]
      change Makes order ifname _ _ ([peer] ++ rest.filterMap builder) _
      refine bind (makes state device found) fun middle set => ?_
      exact ih (fun other mem => each other (mem_cons_of_mem _ mem)) set.found

end Makes

theorem makes_writePeer {state : ApplyState} (peer : WgPeerBuilder)
    (found : state.kernel.device ifname = some device) :
    Makes order ifname state.kernel device [peer] (writePeer order ifname state peer) :=
  .sent (fun _ => rfl) found

theorem fits_scalarBuilder (order : ByteOrder) (device : KernelDevice)
    (declared : DeclaredWgDevice) :
    (((scalarBuilder declared).tree order device.ifname).attrs order).Fits
      order := by
  have short := device.nameShort
  rw [IFNAMSIZ] at short
  have name : NLA_HDRLEN + (asBytes device.ifname ++ [0]).length ≤ 65535 := by
    rw [length_append, NLA_HDRLEN, length_singleton]
    omega
  refine ⟨by decide, name, ?_⟩
  refine fits_attrSome order (by decide) ?_ ?_
  · simp [scalarBuilder, WgDeviceBuilder.new]
  refine fits_attrSome order (by decide) ?_ ?_
  · simp [scalarBuilder, AttrValue.payload, NLA_HDRLEN, Key.length_eq, WG_KEY_LEN]
  refine fits_attrSome order (by decide) ?_ ?_
  · simp [scalarBuilder, AttrValue.payload, NLA_HDRLEN]
  refine fits_attrSome order (by decide) ?_ trivial
  simp [scalarBuilder, AttrValue.payload, NLA_HDRLEN]

variable {declared : DeclaredWgDevice}

theorem writeScalars_sets (order : ByteOrder) {state : ApplyState}
    (changes : DeviceChanges) (found : state.kernel.device declared.ifname = some device) :
    ∃ next, writeScalars order declared changes state = .ok next ∧
      Sets declared.ifname state.kernel next.kernel (device.setDeclared declared changes) := by
  rw [KernelDevice.setDeclared, writeScalars]
  split
  · have fits := fits_scalarBuilder order device declared
    rw [state.kernel.named _ _ found] at fits
    rw [setDeviceByName_found found, if_pos fits]
    exact ⟨_, rfl, sets_update found rfl⟩
  · exact ⟨state, rfl, Sets.refl found⟩

def DeclaresModified (declared : DeclaredWgDevice) (changes : DeviceChanges) :
    Prop :=
  ∀ modified ∈ changes.peersToModify,
    ∃ peer, declared.peers.find? (·.publicKey = modified.1) = some peer

theorem declaresModified_diffAgainst (declared : DeclaredWgDevice) (current : WgDevice) :
    DeclaresModified declared (declared.diffAgainst current) := by
  intro modified mem
  simp only [DeclaredWgDevice.diffAgainst, mem_filterMap] at mem
  obtain ⟨peer, listed, differs⟩ := mem
  have named : modified.1 = peer.publicKey := by
    cases found :
        (DeclaredWgDevice.currKeys current).lookup peer.publicKey with
    | none => simp [found] at differs
    | some curr =>
        simp only [found, Option.bind_eq_bind, Option.bind_some] at differs
        split at differs
        · cases differs
        · cases differs
          rfl
  refine Option.ne_none_iff_exists'.mp fun absent => ?_
  exact lookupBy_eq_none_iff.mp absent (named ▸ mem_map_of_mem listed)

theorem makes_applyChanges (order : ByteOrder) {declared : DeclaredWgDevice}
    {changes : DeviceChanges} (declares : DeclaresModified declared changes) {state : ApplyState}
    (found : state.kernel.device declared.ifname = some device) :
    ∃ scalars : ApplyState, Sets declared.ifname state.kernel scalars.kernel
        (device.setDeclared declared changes) ∧
      Makes order declared.ifname scalars.kernel
        (device.setDeclared declared changes) (declared.requests changes)
        (applyChanges order declared changes state) := by
  obtain ⟨scalars, written, set⟩ := writeScalars_sets order changes found
  refine ⟨scalars, set, ?_⟩
  rw [DeclaredWgDevice.requests, DeclaredWgDevice.writes, removals, List.append_assoc,
    ← filterMap_eq_map', ← filterMap_eq_map']
  have run :
      applyChanges order declared changes state = (do
        let state ←
          changes.peersToAdd.foldlM (addPeer order declared.ifname) scalars
        let state ←
          changes.peersToModify.foldlM (modifyPeer order declared) state
        changes.peersToRemove.foldlM (removePeer order declared.ifname) state) := by
    rw [applyChanges, written]
    rfl
  rw [run]
  refine Makes.bind ?_ fun added addedSet => Makes.bind ?_ fun modified modifiedSet => ?_
  · refine Makes.foldlM (fun item _ => ⟨_, rfl, fun state device found => ?_⟩) set.found
    exact makes_writePeer _ found
  · refine Makes.foldlM (fun item mem => ?_) addedSet.found
    obtain ⟨peer, listed⟩ := declares item mem
    refine ⟨_, by rw [listed]; rfl, fun state device found => ?_⟩
    rw [modifyPeer, listed]
    exact makes_writePeer _ found
  · refine Makes.foldlM (fun item _ => ⟨_, rfl, fun state device found => ?_⟩) modifiedSet.found
    exact .sent (fun _ => rfl) found

variable {dumps : Dumps order}

/-- The changes of a declared device that exists, if there are any. -/
def entry (dumps : Dumps order) (kernel : Kernel) (declared : DeclaredWgDevice) :
    Option (String × DeviceChanges) := do
  let device ← kernel.device declared.ifname
  let changes := declared.diffAgainst (dumps device).read
  if changes.isEmpty then none else some (declared.ifname, changes)

theorem diffDevice_found
    (found : kernel.device declared.ifname = some device) (diff : WireguardConfigDiff) :
    diffDevice dumps kernel diff declared = .ok
        { diff with
          devicesToModify := diff.devicesToModify ++ (entry dumps kernel declared).toList } := by
  have read : kernel.getDevice dumps declared.ifname = .ok (dumps device).read := by
    rw [Kernel.getDevice, found]
    exact getDeviceByName_responses (dumps device) declared.ifname
  simp only [diffDevice, read, entry, found, Option.bind_eq_bind, Option.bind_some]
  split <;> simp

/-- The difference for a configuration of devices that exist. -/
theorem diff_of_exists {config : WireguardConfig}
    (present : ∀ declared ∈ config.devices, ∃ device, kernel.device declared.ifname = some device) :
    config.diff dumps kernel = .ok
        { devicesToModify := config.devices.filterMap (entry dumps kernel)
          devicesToAdd := [] } := by
  have loop : ∀ (devices : List DeclaredWgDevice) diff,
      (∀ declared ∈ devices, ∃ device, kernel.device declared.ifname = some device) →
      devices.foldlM (diffDevice dumps kernel) diff = .ok
          { diff with
            devicesToModify :=
              diff.devicesToModify ++ devices.filterMap (entry dumps kernel) } := by
    intro devices
    induction devices with
    | nil =>
        intro diff _
        simp [pure, Except.pure]
    | cons declared rest ih =>
        intro diff present
        obtain ⟨device, found⟩ := present declared mem_cons_self
        rw [foldlM_cons, diffDevice_found found]
        refine (ih _ fun other mem => present other (mem_cons_of_mem _ mem)).trans ?_
        rw [List.append_assoc]
        congr 3
        cases found : entry dumps kernel declared <;> simp [found]
  exact loop config.devices _ present

theorem nothing_of_isEmpty (device : KernelDevice) {changes : DeviceChanges}
    (empty : changes.isEmpty = true) (declared : DeclaredWgDevice) :
    device.setDeclared declared changes = device ∧ declared.requests changes = [] := by
  simp only [DeviceChanges.isEmpty, Bool.and_eq_true, Bool.not_eq_true', List.isEmpty_iff] at empty
  obtain ⟨⟨⟨scalars, added⟩, modified⟩, removed⟩ := empty
  rw [KernelDevice.setDeclared, scalars, DeclaredWgDevice.requests, DeclaredWgDevice.writes, added,
    modified, removed]
  exact ⟨rfl, rfl⟩

theorem reconcile_of_isEmpty {current : WgDevice}
    (empty : (declared.diffAgainst current).isEmpty = true) :
    device.reconcile declared current = device := by
  obtain ⟨scalars, requests⟩ := nothing_of_isEmpty device empty declared
  rw [KernelDevice.reconcile, scalars, requests]
  rfl

variable {config : WireguardConfig}

section

variable (names : (config.devices.map (·.ifname)).Nodup)

include names

theorem sets_applyDevice
    (listed : declared ∈ config.devices) {state last : ApplyState} {current : WgDevice}
    (found : state.kernel.device declared.ifname = some device)
    (run : applyDevice order config state
      (declared.ifname, declared.diffAgainst current) = .ok last) :
    Sets declared.ifname state.kernel last.kernel (device.reconcile declared current) := by
  have search : config.devices.find? (·.ifname = declared.ifname) = some declared :=
    (lookupBy_eq_some_iff names).mpr ⟨listed, rfl⟩
  rw [applyDevice, search] at run
  obtain ⟨scalars, scalarsSet, makes⟩ := makes_applyChanges order
    (declaresModified_diffAgainst declared current) found
  change applyChanges order declared _ state = _ at run
  rw [run] at makes
  exact scalarsSet.trans makes.sets

/-- The rounds of `apply` over some of the devices. -/
theorem foldlM_applyDevice
    {devices : List DeclaredWgDevice} (listed : ∀ declared ∈ devices, declared ∈ config.devices)
    (distinct : (devices.map (·.ifname)).Nodup) {state last : ApplyState}
    (untouched : ∀ declared ∈ devices,
      state.kernel.device declared.ifname = kernel.device declared.ifname)
    (run : (devices.filterMap (entry dumps kernel)).foldlM (applyDevice order config) state =
      .ok last) :
    (∀ declared ∈ devices, ∀ device, kernel.device declared.ifname = some device →
        last.kernel.device declared.ifname = some (device.reconcile declared (dumps device).read)) ∧
      ∀ name, name ∉ devices.map (·.ifname) →
        last.kernel.device name = state.kernel.device name := by
  induction devices generalizing state with
  | nil =>
      cases run
      refine ⟨fun declared mem => ?_, fun _ _ => rfl⟩
      cases mem
  | cons declared rest ih =>
      rw [map_cons, nodup_cons] at distinct
      obtain ⟨fresh, distinct⟩ := distinct
      have restListed : ∀ other ∈ rest, other ∈ config.devices :=
        fun other mem => listed other (mem_cons_of_mem _ mem)
      have here := untouched declared mem_cons_self
      -- After the round of `declared` the other devices are as they were.
      suffices ∃ middle : ApplyState,
          (rest.filterMap (entry dumps kernel)).foldlM (applyDevice order config) middle =
            .ok last ∧
          (∀ name, name ≠ declared.ifname → middle.kernel.device name = state.kernel.device name) ∧
          ∀ device, kernel.device declared.ifname = some device →
            middle.kernel.device declared.ifname =
              some (device.reconcile declared (dumps device).read) by
        obtain ⟨middle, restRun, elsewhere, reconciled⟩ := this
        have restUntouched : ∀ other ∈ rest, middle.kernel.device other.ifname =
              kernel.device other.ifname := by
          intro other mem
          rw [elsewhere]
          · exact untouched other (mem_cons_of_mem _ mem)
          · intro same
            exact fresh (same ▸ mem_map_of_mem mem)
        obtain ⟨later, others⟩ := ih restListed distinct restUntouched restRun
        refine ⟨?_, ?_⟩
        · intro other mem device found
          rcases mem_cons.mp mem with rfl | mem
          · rw [others _ fresh, reconciled device found]
          · exact later other mem device found
        · intro name absent
          rw [map_cons, mem_cons, not_or] at absent
          rw [others name absent.2, elsewhere name absent.1]
      cases changed : entry dumps kernel declared with
      | none =>
          rw [filterMap_cons_none changed] at run
          refine ⟨state, run, fun _ _ => rfl, fun device found => ?_⟩
          rw [here, found]
          simp only [entry, found, Option.bind_eq_bind, Option.bind_some] at changed
          split at changed
          · rename_i empty
            rw [reconcile_of_isEmpty empty]
          · cases changed
      | some modified =>
          rw [filterMap_cons_some changed, foldlM_cons, bind_eq_ok_iff] at run
          obtain ⟨middle, round, restRun⟩ := run
          cases found : kernel.device declared.ifname with
          | none => simp [entry, found] at changed
          | some device =>
              simp only [entry, found, Option.bind_eq_bind, Option.bind_some] at changed
              split at changed
              · cases changed
              · cases changed
                have set :=
                  sets_applyDevice names (listed declared mem_cons_self) (here.trans found) round
                refine ⟨middle, restRun, fun name => set.elsewhere, ?_⟩
                intro other same
                cases same
                exact set.found

theorem apply_reconciles
    (present : ∀ declared ∈ config.devices, ∃ device, kernel.device declared.ifname = some device)
    {last : ApplyState} (run : config.apply order dumps kernel = .ok last) :
    ∀ declared ∈ config.devices, ∀ device, kernel.device declared.ifname = some device →
        last.kernel.device declared.ifname =
          some (device.reconcile declared (dumps device).read) := by
  rw [apply, diff_of_exists present] at run
  exact (foldlM_applyDevice names (fun _ mem => mem) names (fun _ _ => rfl) run).1

end

end WireguardConfig

end Nlink.Wireguard
