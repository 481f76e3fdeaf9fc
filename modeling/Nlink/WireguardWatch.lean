import Nlink.Foundation.Cells
import Nlink.Foundation.Overlay
import Nlink.WireguardConfig

namespace Nlink.Wireguard.Watch

open Foundation List

/-!
# The polling watcher

The watcher polls interfaces and reports how each differs from its previous poll.
An observer who replays the reports on a table of peers has, after each poll,
what the polls have found.
-/

/-- What the watcher reports. -/
inductive WireguardEvent where
  | peerAdded (ifname : String) (peer : WgPeer)
  | peerRemoved (ifname : String) (publicKey : Key)
  | peerEndpointChanged (ifname : String) (publicKey : Key) (fromEndpoint toEndpoint : Option SocketAddr)
  | peerHandshakeRefreshed (ifname : String) (publicKey : Key) (time : SystemTime)
  | peerAllowedIpsChanged (ifname : String) (publicKey : Key) (previous current : List AllowedIp)

/-- A time is later than another one. -/
def isAfter (current previous : SystemTime) : Bool :=
  previous.secs < current.secs ||
    (previous.secs = current.secs && previous.nanos < current.nanos)

section Diff

variable (ifname : String)

/-- How a peer that was there before differs. -/
def peerChanges (pk : Key) (prev curr : WgPeer) : List WireguardEvent :=
  (if prev.endpoint ≠ curr.endpoint then
    [.peerEndpointChanged ifname pk prev.endpoint curr.endpoint]
  else
    []) ++
  (match prev.lastHandshake, curr.lastHandshake with
  | some p, some c => if isAfter c p then [.peerHandshakeRefreshed ifname pk c] else []
  | none, some c => [.peerHandshakeRefreshed ifname pk c]
  | _, none => []) ++
  if prev.allowedIps ≠ curr.allowedIps then
    [.peerAllowedIpsChanged ifname pk prev.allowedIps curr.allowedIps]
  else
    []

/-- The loops of `diff_device_states` over the maps of peers. -/
def diffPeers (prevPeers currPeers : HashMap Key WgPeer) : List WireguardEvent :=
  (currPeers.pairs.flatMap fun (pk, peer) =>
    if (prevPeers.lookup pk).isNone then [.peerAdded ifname peer] else []) ++
  (prevPeers.pairs.flatMap fun (pk, _) =>
    if (currPeers.lookup pk).isNone then [.peerRemoved ifname pk] else []) ++
  currPeers.pairs.flatMap fun (pk, curr) =>
    match prevPeers.lookup pk with
    | none => []
    | some prev => peerChanges ifname pk prev curr

/-- A map that peers are collected into, in whatever order it is iterated. -/
def Collected (peers : List WgPeer) (map : HashMap Key WgPeer) : Prop :=
  ∀ pk, map.lookup pk = (HashMap.collect (peers.map fun peer => (peer.publicKey, peer))).lookup pk

/-- `diff_device_states`. -/
def DiffDeviceStates (previous : Option WgDevice) (current : WgDevice)
    (out : List WireguardEvent) : Prop :=
  ∃ prevPeers currPeers,
    Collected ((previous.map WgDevice.peers).getD []) prevPeers ∧
      Collected current.peers currPeers ∧ out = diffPeers ifname prevPeers currPeers

end Diff

/-- The watcher; its connection and its interval are left out. -/
structure WireguardWatcher where
  interfaces : List String
  previous : HashMap String WgDevice

/-- `WireguardWatcher::new`. -/
def WireguardWatcher.new (interfaces : List String) : Except Error WireguardWatcher :=
  if interfaces.isEmpty then
    .error
      (.invalidMessage ("WireguardWatchOptions::interfaces is empty — " ++
          "specify at least one interface to watch"))
  else
    .ok { interfaces := interfaces, previous := ∅ }

/-- A poll of an interface: its name and what `get_device_by_name` returned. -/
abbrev Poll := String × Except Error WgDevice

/-- What the loop of `next_events` does with a poll: the events, and the snapshots
that are kept. -/
inductive Polled (previous : HashMap String WgDevice) :
    Poll → List WireguardEvent → HashMap String WgDevice → Prop
  | ok {ifname : String} {device : WgDevice} {events : List WireguardEvent}
      (diff : DiffDeviceStates ifname (previous.lookup ifname) device events) :
      Polled previous (ifname, .ok device) events (previous.insert ifname device)
  | error {ifname : String} (error : Error) :
      Polled previous (ifname, .error error)
        (((previous.lookup ifname).map fun device =>
          device.peers.map fun peer => .peerRemoved ifname peer.publicKey).getD [])
        (previous.erase ifname)

/-- Polls in turn, each with the events that it gives. -/
inductive Polls : HashMap String WgDevice → List (Poll × List WireguardEvent) →
    HashMap String WgDevice → Prop
  | nil (previous : HashMap String WgDevice) : Polls previous [] previous
  | cons {previous between last : HashMap String WgDevice} {poll : Poll}
      {events : List WireguardEvent} {rest : List (Poll × List WireguardEvent)}
      (first : Polled previous poll events between) (later : Polls between rest last) :
      Polls previous ((poll, events) :: rest) last

/-- `next_events`: each watched interface is polled, and all events are returned. -/
structure NextEvents (watcher : WireguardWatcher) (polls : List (Poll × List WireguardEvent))
    (allEvents : List WireguardEvent) (next : WireguardWatcher) : Prop where
  watched : polls.map (·.1.1) = watcher.interfaces
  polled : Polls watcher.previous polls next.previous
  kept : next.interfaces = watcher.interfaces
  returned : allEvents = polls.flatMap Prod.snd

/-- Calls of `next_events`, with the polls that each made and what it returned. -/
inductive Run : WireguardWatcher → List (List (Poll × List WireguardEvent) × List WireguardEvent) →
    WireguardWatcher → Prop
  | nil (watcher : WireguardWatcher) : Run watcher [] watcher
  | cons {watcher between last : WireguardWatcher} {polls : List (Poll × List WireguardEvent)}
      {allEvents : List WireguardEvent}
      {rest : List (List (Poll × List WireguardEvent) × List WireguardEvent)}
      (first : NextEvents watcher polls allEvents between) (later : Run between rest last) :
      Run watcher ((polls, allEvents) :: rest) last

/-!
## The observer's table
-/

/-- What the observer knows of a peer. -/
structure Entry where
  endpoint : Option SocketAddr
  allowedIps : List AllowedIp

def WgPeer.entry (peer : WgPeer) : Entry where
  endpoint := peer.endpoint
  allowedIps := peer.allowedIps

abbrev Table := String × Key → Option Entry

namespace WireguardEvent

def about : WireguardEvent → String × Key
  | .peerAdded ifname peer => (ifname, peer.publicKey)
  | .peerRemoved ifname pk => (ifname, pk)
  | .peerEndpointChanged ifname pk _ _ => (ifname, pk)
  | .peerHandshakeRefreshed ifname pk _ => (ifname, pk)
  | .peerAllowedIpsChanged ifname pk _ _ => (ifname, pk)

/-- What an event makes of the peer. -/
def act : WireguardEvent → Option Entry → Option Entry
  | .peerAdded _ peer, _ => some (WgPeer.entry peer)
  | .peerRemoved _ _, _ => none
  | .peerEndpointChanged _ _ _ toEndpoint, entry =>
      entry.map fun entry => { entry with endpoint := toEndpoint }
  | .peerHandshakeRefreshed _ _ _, entry => entry
  | .peerAllowedIpsChanged _ _ _ current, entry =>
      entry.map fun entry => { entry with allowedIps := current }

/-- An event tells of a change of what the observer knows: a peer that was not
there is added, one that was there is removed, and a change is from what it was to
something else. -/
def Accurate : Option Entry → WireguardEvent → Prop
  | entry, .peerAdded _ _ => entry = none
  | entry, .peerRemoved _ _ => entry ≠ none
  | entry, .peerEndpointChanged _ _ fromEndpoint toEndpoint =>
      fromEndpoint ≠ toEndpoint ∧
        ∃ allowedIps, entry = some { endpoint := fromEndpoint, allowedIps := allowedIps }
  | entry, .peerHandshakeRefreshed _ _ _ => entry ≠ none
  | entry, .peerAllowedIpsChanged _ _ previous current =>
      previous ≠ current ∧ ∃ endpoint, entry = some { endpoint := endpoint, allowedIps := previous }

end WireguardEvent

def Table.replay : Table → WireguardEvent → Table :=
  touch WireguardEvent.about WireguardEvent.act

/-- The peers of a device, by their keys. -/
def WgDevice.entries (device : Option WgDevice) (pk : Key) : Option Entry :=
  (device.bind fun device => lookupBy WgPeer.publicKey device.peers pk).map WgPeer.entry

/-- The device that the latest poll of each interface found. -/
def latest (found : String → Option WgDevice) (poll : Poll × List WireguardEvent) :
    String → Option WgDevice :=
  Function.update found poll.1.1 poll.1.2.toOption

/-- What the latest polls found, as a table. -/
def tableOf (found : String → Option WgDevice) : Table :=
  fun (ifname, pk) => WgDevice.entries (found ifname) pk

/-!
## The events of one peer
-/

section Cell

variable (ifname : String) (pk : Key)

/-- The events about a peer, by what it was and what it is. -/
def cellEvents : Option WgPeer → Option WgPeer → List WireguardEvent
  | none, none => []
  | none, some curr => [.peerAdded ifname curr]
  | some _, none => [.peerRemoved ifname pk]
  | some prev, some curr => peerChanges ifname pk prev curr

variable {ifname pk}

theorem isAfter_self (time : SystemTime) : isAfter time time = false := by
  simp [isAfter]

/-- The events about a handshake change nothing. -/
theorem act_handshake {events : List WireguardEvent} {entry : Option Entry}
    (handshakes : ∀ event ∈ events, ∃ time, event = .peerHandshakeRefreshed ifname pk time) :
    events.foldl (fun entry event => event.act entry) entry = entry ∧
      (entry ≠ none →
        AllAlong (fun entry event => event.act entry) WireguardEvent.Accurate entry events) := by
  induction events with
  | nil => exact ⟨rfl, fun _ => trivial⟩
  | cons event rest ih =>
      obtain ⟨⟨time, rfl⟩, restHandshakes⟩ := forall_mem_cons.mp handshakes
      obtain ⟨same, accurate⟩ := ih restHandshakes
      exact ⟨same, fun known => ⟨known, accurate known⟩⟩

theorem peerChanges_spec (prev curr : WgPeer) :
    (peerChanges ifname pk prev curr).foldl (fun entry event => event.act entry)
        (some (WgPeer.entry prev)) = some (WgPeer.entry curr) ∧
      AllAlong (fun entry event => event.act entry) WireguardEvent.Accurate
        (some (WgPeer.entry prev)) (peerChanges ifname pk prev curr) := by
  obtain ⟨handshakes, isHandshakes, split⟩ : ∃ handshakes : List WireguardEvent,
      (∀ event ∈ handshakes, ∃ time, event = .peerHandshakeRefreshed ifname pk time) ∧
      peerChanges ifname pk prev curr =
        (if prev.endpoint ≠ curr.endpoint then
          [.peerEndpointChanged ifname pk prev.endpoint curr.endpoint]
        else
          []) ++ handshakes ++
        if prev.allowedIps ≠ curr.allowedIps then
          [.peerAllowedIpsChanged ifname pk prev.allowedIps curr.allowedIps]
        else
          [] := by
    refine ⟨_, ?_, rfl⟩
    intro event member
    split at member
    · split at member
      · exact ⟨_, mem_singleton.mp member⟩
      · cases member
    · exact ⟨_, mem_singleton.mp member⟩
    · cases member
  obtain ⟨same, accurate⟩ := @act_handshake ifname pk handshakes
    (some { endpoint := curr.endpoint, allowedIps := prev.allowedIps }) isHandshakes
  have endpoint : ∀ first : List WireguardEvent,
      first = (if prev.endpoint ≠ curr.endpoint then
          [.peerEndpointChanged ifname pk prev.endpoint curr.endpoint]
        else
          []) →
      first.foldl (fun entry event => event.act entry) (some (WgPeer.entry prev)) =
          some { endpoint := curr.endpoint, allowedIps := prev.allowedIps } ∧
        AllAlong (fun entry event => event.act entry) WireguardEvent.Accurate
          (some (WgPeer.entry prev)) first := by
    rintro _ rfl
    split
    · rename_i different
      exact ⟨rfl, ⟨different, _, rfl⟩, trivial⟩
    · rename_i unchanged
      rw [not_not] at unchanged
      exact ⟨by rw [← unchanged]; rfl, trivial⟩
  obtain ⟨afterEndpoint, accurateEndpoint⟩ := endpoint _ rfl
  rw [split, foldl_append, foldl_append, allAlong_append, allAlong_append,
    foldl_append, afterEndpoint, same]
  split
  · rename_i different
    exact ⟨rfl, ⟨accurateEndpoint, accurate nofun⟩, ⟨different, _, rfl⟩, trivial⟩
  · rename_i unchanged
    rw [not_not] at unchanged
    exact ⟨by rw [unchanged]; rfl, ⟨accurateEndpoint, accurate nofun⟩, trivial⟩

/-- The events about a peer make what it was into what it is. -/
theorem cellEvents_spec (prev curr : Option WgPeer) :
    (cellEvents ifname pk prev curr).foldl (fun entry event => event.act entry)
        (prev.map WgPeer.entry) = curr.map WgPeer.entry ∧
      AllAlong (fun entry event => event.act entry) WireguardEvent.Accurate
        (prev.map WgPeer.entry) (cellEvents ifname pk prev curr) := by
  match prev, curr with
  | none, none => exact ⟨rfl, trivial⟩
  | none, some curr => exact ⟨rfl, rfl, trivial⟩
  | some prev, none => exact ⟨rfl, nofun, trivial⟩
  | some prev, some curr => exact peerChanges_spec prev curr

theorem cellEvents_self (peer : Option WgPeer) : cellEvents ifname pk peer peer = [] := by
  cases peer with
  | none => rfl
  | some peer =>
      rw [cellEvents, peerChanges]
      cases peer.lastHandshake <;> simp [isAfter_self]

end Cell

/-!
## The events of a poll
-/

section Events

variable {ifname : String}

/-- The events of a poll are, peer by peer, those about what it was and is. -/
def Describes (ifname : String) (prev curr : Key → Option WgPeer)
    (events : List WireguardEvent) : Prop :=
  (∀ pk, events.filter (·.about = (ifname, pk)) = cellEvents ifname pk (prev pk) (curr pk)) ∧
    ∀ event ∈ events, event.about.1 = ifname

variable {map : HashMap Key WgPeer}

theorem filter_pairs {entries : Key × WgPeer → List WireguardEvent}
    (labelled : ∀ pair ∈ map.pairs, ∀ event ∈ entries pair, event.about = (ifname, pair.1))
    (pk : Key) :
    (map.pairs.flatMap entries).filter (·.about = (ifname, pk)) =
      ((map.lookup pk).map fun peer => entries (pk, peer)).getD [] := by
  cases found : map.lookup pk with
  | none =>
      refine @filter_flatMap_of_no_key _ _ _ _ (fun pair => (ifname, pair.1)) _ _ _ labelled _ ?_
      rintro ⟨key, peer⟩ member same
      cases same
      rw [HashMap.mem_pairs_iff, found] at member
      cases member
  | some peer =>
      have member : (pk, peer) ∈ map.pairs := HashMap.mem_pairs_iff.mpr found
      refine @filter_flatMap_of_key _ _ _ _ (fun pair => (ifname, pair.1)) _ _ _ labelled ?_
        (pk, peer) member
      rw [show (fun pair : Key × WgPeer => (ifname, pair.1)) = Prod.mk ifname ∘ Prod.fst from rfl,
        ← map_map]
      exact (HashMap.nodup_pairs map).map fun _ _ same => (Prod.mk.inj same).2

theorem about_of_peerChanges {pk : Key} {prev curr : WgPeer} :
    ∀ event ∈ peerChanges ifname pk prev curr, event.about = (ifname, pk) := by
  intro event member
  rcases mem_append.mp member with front | allowedIps
  · rcases mem_append.mp front with endpoint | handshake
    · split at endpoint
      · rw [mem_singleton.mp endpoint]
        rfl
      · cases endpoint
    · split at handshake
      · split at handshake
        · rw [mem_singleton.mp handshake]
          rfl
        · cases handshake
      · rw [mem_singleton.mp handshake]
        rfl
      · cases handshake
  · split at allowedIps
    · rw [mem_singleton.mp allowedIps]
      rfl
    · cases allowedIps

/-- The peers of a map are under their keys. -/
def KeyedMap (map : HashMap Key WgPeer) : Prop :=
  ∀ pair ∈ map.pairs, pair.2.publicKey = pair.1

theorem describes_diffPeers {prevPeers currPeers : HashMap Key WgPeer}
    (keyed : KeyedMap currPeers) :
    Describes ifname prevPeers.lookup currPeers.lookup (diffPeers ifname prevPeers currPeers) := by
  have added : ∀ pair ∈ currPeers.pairs, ∀ event ∈
      (if (prevPeers.lookup pair.1).isNone then [WireguardEvent.peerAdded ifname pair.2] else []),
      event.about = (ifname, pair.1) := by
    intro pair member event isEvent
    split at isEvent
    · rw [mem_singleton.mp isEvent]
      exact congrArg (Prod.mk ifname) (keyed pair member)
    · cases isEvent
  have removed : ∀ pair ∈ prevPeers.pairs, ∀ event ∈
      (if (currPeers.lookup pair.1).isNone then [WireguardEvent.peerRemoved ifname pair.1] else []),
      event.about = (ifname, pair.1) := by
    intro pair _ event isEvent
    split at isEvent
    · rw [mem_singleton.mp isEvent]
      rfl
    · cases isEvent
  have changed : ∀ pair ∈ currPeers.pairs, ∀ event ∈
      (match prevPeers.lookup pair.1 with
      | none => []
      | some prev => peerChanges ifname pair.1 prev pair.2),
      event.about = (ifname, pair.1) := by
    intro pair _ event isEvent
    split at isEvent
    · cases isEvent
    · exact about_of_peerChanges event isEvent
  constructor
  · intro pk
    rw [diffPeers, filter_append, filter_append, filter_pairs added, filter_pairs removed,
      filter_pairs changed]
    cases prev : prevPeers.lookup pk <;> cases curr : currPeers.lookup pk <;>
      simp [prev, curr, cellEvents]
  · intro event member
    rcases mem_append.mp member with front | isChanged
    · rcases mem_append.mp front with isAdded | isRemoved
      · obtain ⟨pair, isPair, isEvent⟩ := mem_flatMap.mp isAdded
        rw [added pair isPair event isEvent]
      · obtain ⟨pair, isPair, isEvent⟩ := mem_flatMap.mp isRemoved
        rw [removed pair isPair event isEvent]
    · obtain ⟨pair, isPair, isEvent⟩ := mem_flatMap.mp isChanged
      rw [changed pair isPair event isEvent]

/-- A peer of a device that may not be there. -/
def peerOf (device : Option WgDevice) (pk : Key) : Option WgPeer :=
  device.bind fun device => lookupBy WgPeer.publicKey device.peers pk

/-- The peers of a device have distinct keys. -/
def Distinct (device : Option WgDevice) : Prop :=
  ∀ found ∈ device, (found.peers.map WgPeer.publicKey).Nodup

theorem Collected.lookup_eq {peers : List WgPeer}
    (collected : Collected peers map) (distinct : (peers.map WgPeer.publicKey).Nodup) (pk : Key) :
    map.lookup pk = lookupBy WgPeer.publicKey peers pk := by
  have keys : ((peers.map fun peer => (peer.publicKey, peer)).map Prod.fst).Nodup := by
    rw [map_map]
    exact distinct
  rw [collected pk]
  ext peer
  rw [HashMap.lookup_collect_iff keys, lookupBy_eq_some_iff distinct, mem_map]
  constructor
  · rintro ⟨other, member, same⟩
    obtain ⟨isKey, rfl⟩ := Prod.mk.inj same
    exact ⟨member, isKey⟩
  · rintro ⟨member, rfl⟩
    exact ⟨peer, member, rfl⟩

theorem Collected.keyed {peers : List WgPeer} (collected : Collected peers map) : KeyedMap map := by
  rintro ⟨pk, peer⟩ member
  rw [HashMap.mem_pairs_iff, collected pk] at member
  obtain ⟨other, -, same⟩ := mem_map.mp (HashMap.mem_of_lookup_collect member)
  obtain ⟨isKey, rfl⟩ := Prod.mk.inj same
  exact isKey

theorem describes_diff {previous : Option WgDevice} {current : WgDevice}
    {events : List WireguardEvent} (diff : DiffDeviceStates ifname previous current events)
    (prevDistinct : Distinct previous) (currDistinct : Distinct (some current)) :
    Describes ifname (peerOf previous) (peerOf (some current)) events := by
  obtain ⟨prevPeers, currPeers, prevCollected, currCollected, rfl⟩ := diff
  have prevPeer : prevPeers.lookup = peerOf previous := by
    funext pk
    cases previous with
    | none => exact prevCollected.lookup_eq nodup_nil pk
    | some device => exact prevCollected.lookup_eq (prevDistinct device rfl) pk
  have currPeer : currPeers.lookup = peerOf (some current) := by
    funext pk
    exact currCollected.lookup_eq (currDistinct current rfl) pk
  rw [← prevPeer, ← currPeer]
  exact describes_diffPeers currCollected.keyed

theorem describes_failure {previous : Option WgDevice} (distinct : Distinct previous) :
    Describes ifname (peerOf previous) (peerOf none)
      ((previous.map fun device =>
        device.peers.map fun peer => .peerRemoved ifname peer.publicKey).getD []) := by
  cases previous with
  | none => exact ⟨fun _ => rfl, fun _ member => nomatch member⟩
  | some device =>
      have nodup := distinct device rfl
      have labelled : ∀ peer ∈ device.peers, ∀ event ∈
          ([.peerRemoved ifname peer.publicKey] : List WireguardEvent),
          event.about = (ifname, peer.publicKey) := by
        intro peer _ event isEvent
        rw [mem_singleton.mp isEvent]
        rfl
      rw [Option.map_some, Option.getD_some, map_eq_flatMap]
      constructor
      · intro pk
        cases found : lookupBy WgPeer.publicKey device.peers pk with
        | none =>
            rw [peerOf, Option.bind_some, found]
            refine @filter_flatMap_of_no_key _ _ _ _ (fun peer => (ifname, peer.publicKey)) _ _ _
              labelled _ ?_
            intro peer member same
            exact lookupBy_eq_none_iff.mp found (mem_map.mpr ⟨peer, member, (Prod.mk.inj same).2⟩)
        | some peer =>
            obtain ⟨member, rfl⟩ := mem_of_lookupBy found
            rw [peerOf, Option.bind_some, found]
            refine @filter_flatMap_of_key _ _ _ _ (fun peer => (ifname, peer.publicKey)) _ _ _
              labelled ?_ peer member
            rw [show (fun peer : WgPeer => (ifname, peer.publicKey)) =
              Prod.mk ifname ∘ WgPeer.publicKey from rfl, ← map_map]
            exact nodup.map fun _ _ same => (Prod.mk.inj same).2
      · intro event member
        obtain ⟨peer, isPeer, isEvent⟩ := mem_flatMap.mp member
        rw [labelled peer isPeer event isEvent]

end Events

/-!
## Runs
-/

section Runs

/-- The snapshots that the watcher keeps are what the latest polls found. -/
def Keeps (previous : HashMap String WgDevice) (found : String → Option WgDevice) : Prop :=
  (∀ ifname, previous.lookup ifname = found ifname) ∧ ∀ ifname, Distinct (found ifname)

variable {events : List WireguardEvent} {found : String → Option WgDevice}

/-- What a poll does: its events describe how the interface differs from its
latest poll. -/
theorem Polled.spec {previous next : HashMap String WgDevice} {poll : Poll}
    (polled : Polled previous poll events next)
    (keeps : Keeps previous found)
    (distinct : Distinct poll.2.toOption) :
    Describes poll.1 (peerOf (found poll.1)) (peerOf poll.2.toOption) events ∧
      Keeps next (latest found (poll, events)) := by
  obtain ⟨same, nodup⟩ := keeps
  have stillDistinct : ∀ ifname, Distinct (latest found (poll, events) ifname) := by
    intro ifname
    rw [latest, Function.update_apply]
    split
    · exact distinct
    · exact nodup ifname
  cases polled with
  | @ok ifname device _ diff =>
      rw [same] at diff
      refine ⟨describes_diff diff (nodup ifname) distinct, fun other => ?_, stillDistinct⟩
      rw [latest, Function.update_apply]
      split
      · rename_i isName
        rw [isName, AList.lookup_insert]
        rfl
      · rename_i isOther
        rw [AList.lookup_insert_ne isOther, same]
  | @error ifname error =>
      rw [same]
      refine ⟨describes_failure (nodup ifname), fun other => ?_, stillDistinct⟩
      rw [latest, Function.update_apply]
      split
      · rename_i isName
        rw [isName, AList.lookup_erase]
        rfl
      · rename_i isOther
        rw [AList.lookup_erase_ne isOther, same]

/-- What a poll's events make of the observer's table. -/
theorem Describes.replayed {ifname : String} {prev curr : Option WgDevice}
    (describes : Describes ifname (peerOf prev) (peerOf curr) events)
    (isPrev : found ifname = prev) :
    events.foldl Table.replay (tableOf found) = tableOf (Function.update found ifname curr) ∧
      AllAlong Table.replay (fun table event => event.Accurate (table event.about))
        (tableOf found) events := by
  obtain ⟨cells, ofName⟩ := describes
  have own : ∀ key : String × Key, key.1 = ifname →
      events.filter (·.about = key) = cellEvents ifname key.2 (peerOf prev key.2)
        (peerOf curr key.2) ∧ tableOf found key = (peerOf prev key.2).map WgPeer.entry := by
    rintro ⟨_, pk⟩ rfl
    refine ⟨cells pk, ?_⟩
    rw [← isPrev]
    rfl
  have other : ∀ key : String × Key, key.1 ≠ ifname → events.filter (·.about = key) = [] := by
    intro key isOther
    rw [filter_eq_nil_iff]
    intro event member isAbout
    exact isOther (by rw [← of_decide_eq_true isAbout, ofName event member])
  constructor
  · funext key
    rw [Table.replay, foldl_touch]
    by_cases isOwn : key.1 = ifname
    · obtain ⟨isCell, isEntry⟩ := own key isOwn
      rw [isCell, isEntry, (cellEvents_spec _ _).1]
      obtain ⟨name, pk⟩ := key
      obtain rfl : name = ifname := isOwn
      change _ = WgDevice.entries (Function.update found name curr name) pk
      rw [Function.update_self]
      rfl
    · rw [other key isOwn, foldl_nil]
      obtain ⟨name, pk⟩ := key
      change WgDevice.entries (found name) pk =
        WgDevice.entries (Function.update found ifname curr name) pk
      rw [Function.update_of_ne isOwn]
  · rw [Table.replay, allAlong_touch_iff]
    intro key
    by_cases isOwn : key.1 = ifname
    · obtain ⟨isCell, isEntry⟩ := own key isOwn
      rw [isCell, isEntry]
      exact (cellEvents_spec _ _).2
    · rw [other key isOwn]
      trivial

/-- A poll that finds nothing new gives no events. -/
theorem Describes.eq_nil {ifname : String} {peers : Key → Option WgPeer}
    (describes : Describes ifname peers peers events) : events = [] := by
  obtain ⟨cells, ofName⟩ := describes
  refine eq_nil_iff_forall_not_mem.mpr fun event member => ?_
  have own : event ∈ events.filter (·.about = (ifname, event.about.2)) := by
    rw [mem_filter]
    exact ⟨member, decide_eq_true (Prod.ext (ofName event member) rfl)⟩
  rw [cells, cellEvents_self] at own
  cases own

def eventsOf (polls : List (Poll × List WireguardEvent)) : List WireguardEvent :=
  polls.flatMap Prod.snd

/-- The devices that polls found have peers with distinct keys. -/
def AllDistinct (polls : List (Poll × List WireguardEvent)) : Prop :=
  ∀ poll ∈ polls, Distinct poll.1.2.toOption

theorem Polls.append {previous between last : HashMap String WgDevice}
    {polls more : List (Poll × List WireguardEvent)} (first : Polls previous polls between)
    (later : Polls between more last) : Polls previous (polls ++ more) last := by
  induction first with
  | nil => exact later
  | cons poll rest ih => exact .cons poll (ih later)

/-- What holds along polls: the events of each are accurate and make the table what
the latest polls found, and a poll that finds what the latest one did has none. -/
theorem Polls.spec {previous last : HashMap String WgDevice}
    {polls : List (Poll × List WireguardEvent)} (run : Polls previous polls last)
    (keeps : Keeps previous found)
    (distinct : AllDistinct polls) :
    AllAlong Table.replay (fun table event => event.Accurate (table event.about)) (tableOf found)
        (eventsOf polls) ∧
      (∀ polled, polled <+: polls → (eventsOf polled).foldl Table.replay (tableOf found) =
        tableOf (polled.foldl latest found)) ∧
      AllAlong latest (fun found poll => poll.1.2.toOption = found poll.1.1 → poll.2 = []) found
        polls ∧
      Keeps last (polls.foldl latest found) := by
  induction run generalizing found with
  | nil previous =>
      refine ⟨trivial, fun polled isPrefix => ?_, trivial, keeps⟩
      rw [prefix_nil.mp isPrefix]
      rfl
  | @cons previous between last poll events rest first later ih =>
      obtain ⟨firstDistinct, restDistinct⟩ := forall_mem_cons.mp distinct
      obtain ⟨describes, keepsNext⟩ := first.spec keeps firstDistinct
      obtain ⟨replayed, accurate⟩ := describes.replayed rfl
      obtain ⟨restAccurate, restReplayed, restQuiet, restKeeps⟩ := ih keepsNext restDistinct
      have isNext : Function.update found poll.1 poll.2.toOption = latest found (poll, events) := rfl
      rw [isNext] at replayed
      refine ⟨?_, ?_, ⟨?_, restQuiet⟩, restKeeps⟩
      · rw [eventsOf, flatMap_cons, allAlong_append, replayed]
        exact ⟨accurate, restAccurate⟩
      · intro polled isPrefix
        rcases prefix_cons_iff.mp isPrefix with rfl | ⟨more, rfl, morePrefix⟩
        · rfl
        · rw [eventsOf, flatMap_cons, foldl_append, replayed, foldl_cons]
          exact restReplayed more morePrefix
      · intro same
        dsimp only at same
        rw [same] at describes
        exact describes.eq_nil

theorem Run.polls {watcher last : WireguardWatcher}
    {calls : List (List (Poll × List WireguardEvent) × List WireguardEvent)}
    (run : Run watcher calls last) :
    Polls watcher.previous (calls.flatMap Prod.fst) last.previous ∧
      ∀ call ∈ calls, call.1.map (·.1.1) = watcher.interfaces ∧ call.2 = eventsOf call.1 := by
  induction run with
  | nil watcher => exact ⟨.nil _, fun _ member => nomatch member⟩
  | cons first later ih =>
      obtain ⟨laterPolls, laterCalls⟩ := ih
      refine ⟨first.polled.append laterPolls, forall_mem_cons.mpr
        ⟨⟨first.watched, first.returned⟩, ?_⟩⟩
      rw [← first.kept]
      exact laterCalls

/-- Before any poll nothing is found, and the observer's table is empty. -/
def nothing : String → Option WgDevice :=
  fun _ => none

/-- The observer's table is, after each call, what the latest poll of each
interface found; each event tells of a change of the table that it finds; and a
poll that finds what the latest one did has no events. -/
theorem events_reconstruct {interfaces : List String} {watcher last : WireguardWatcher}
    {calls : List (List (Poll × List WireguardEvent) × List WireguardEvent)}
    (created : WireguardWatcher.new interfaces = .ok watcher) (run : Run watcher calls last)
    (distinct : AllDistinct (calls.flatMap Prod.fst)) :
    AllAlong Table.replay (fun table event => event.Accurate (table event.about))
        (fun _ => none) (calls.flatMap Prod.snd) ∧
      (∀ made, made <+: calls →
        (made.flatMap Prod.snd).foldl Table.replay (fun _ => none) =
          tableOf ((made.flatMap Prod.fst).foldl latest nothing)) ∧
      AllAlong latest (fun found poll => poll.1.2.toOption = found poll.1.1 → poll.2 = []) nothing
        (calls.flatMap Prod.fst) := by
  have empty : watcher.previous = ∅ := by
    rw [WireguardWatcher.new] at created
    split at created
    · cases created
    · cases created
      rfl
  have keeps : Keeps watcher.previous nothing := by
    rw [empty]
    exact ⟨fun _ => rfl, fun _ _ member => nomatch member⟩
  obtain ⟨polls, returned⟩ := run.polls
  have joined : ∀ made : List (List (Poll × List WireguardEvent) × List WireguardEvent),
      (∀ call ∈ made, call ∈ calls) →
      made.flatMap Prod.snd = eventsOf (made.flatMap Prod.fst) := by
    intro made members
    rw [eventsOf, flatMap_assoc]
    exact flatMap_congr fun call member => (returned call (members call member)).2
  obtain ⟨accurate, replayed, quiet, -⟩ := polls.spec keeps distinct
  refine ⟨?_, fun made isPrefix => ?_, quiet⟩
  · rw [joined calls fun _ member => member]
    exact accurate
  · rw [joined made fun _ member => isPrefix.subset member]
    obtain ⟨later, rfl⟩ := isPrefix
    refine replayed _ ?_
    rw [flatMap_append]
    exact prefix_append _ _

def onePeer : WgDevice :=
  { WgDevice.new with peers := [WgPeer.default] }

/-- Two calls: the first poll finds the device, and the second one fails. -/
def goneCalls : List (List (Poll × List WireguardEvent) × List WireguardEvent) :=
  [([(("wg0", .ok onePeer), [.peerAdded "wg0" WgPeer.default])], [.peerAdded "wg0" WgPeer.default]),
    ([(("wg0", .error (.interfaceNotFound "wg0")), [.peerRemoved "wg0" Key.zero])],
      [.peerRemoved "wg0" Key.zero])]

/-- The peer is added, and removed when its interface is gone. -/
theorem events_reconstruct_gone :
    ([.peerAdded "wg0" WgPeer.default, .peerRemoved "wg0" Key.zero] : List WireguardEvent).foldl
      Table.replay (fun _ => none) =
        tableOf ((goneCalls.flatMap Prod.fst).foldl latest nothing) := by
  have added : Polled ∅ ("wg0", .ok onePeer) [.peerAdded "wg0" WgPeer.default]
      ((∅ : HashMap String WgDevice).insert "wg0" onePeer) :=
    .ok ⟨∅, _, fun _ => rfl, fun _ => rfl, rfl⟩
  have removed : Polled ((∅ : HashMap String WgDevice).insert "wg0" onePeer)
      ("wg0", .error (.interfaceNotFound "wg0")) [.peerRemoved "wg0" Key.zero]
      (((∅ : HashMap String WgDevice).insert "wg0" onePeer).erase "wg0") :=
    .error _
  have first : NextEvents { interfaces := ["wg0"], previous := ∅ } _ _
      { interfaces := ["wg0"], previous := (∅ : HashMap String WgDevice).insert "wg0" onePeer } :=
    ⟨rfl, .cons added (.nil _), rfl, rfl⟩
  have second : NextEvents
      { interfaces := ["wg0"], previous := (∅ : HashMap String WgDevice).insert "wg0" onePeer } _ _
      { interfaces := ["wg0"],
        previous := ((∅ : HashMap String WgDevice).insert "wg0" onePeer).erase "wg0" } :=
    ⟨rfl, .cons removed (.nil _), rfl, rfl⟩
  have run : Run { interfaces := ["wg0"], previous := ∅ } goneCalls _ :=
    .cons first (.cons second (.nil _))
  have distinct : AllDistinct (goneCalls.flatMap Prod.fst) := by
    refine forall_mem_cons.mpr ⟨?_, forall_mem_cons.mpr ⟨?_, fun _ none => nomatch none⟩⟩
    · rintro _ ⟨⟩
      exact nodup_singleton _
    · rintro _ ⟨⟩
  have created : WireguardWatcher.new ["wg0"] = .ok { interfaces := ["wg0"], previous := ∅ } := rfl
  exact (events_reconstruct created run distinct).2.1 goneCalls prefix_rfl

end Runs

end Nlink.Wireguard.Watch
