import Nlink.Resync

namespace Nlink.Netlink.Reflector

open Foundation Resync List

/-!
# The reflector

`Reflect` passes the items of a resync-aware stream on and keeps a store up to
date from them.  Within a resync window it builds the new contents aside, and
readers see them when the window ends.
-/

/-- What an event means for the store. -/
inductive StoreOp (κ : Type u) where
  | upsert (key : κ)
  | remove (key : κ)
  | ignore

abbrev Store (κ : Type u) (ν : Type v) := κ → Option ν

section

variable {κ : Type u} {ν : Type v} {ε : Type w} {ω : Type x} {σ : Type y}
variable [DecidableEq κ]

namespace Store

/-- The store without entries. -/
def empty : Store κ ν :=
  fun _ => none

def insert (store : Store κ ν) (key : κ) (value : ν) : Store κ ν :=
  fun other => if other = key then some value else store other

def remove (store : Store κ ν) (key : κ) : Store κ ν :=
  fun other => if other = key then none else store other

/-- `apply`. -/
def apply (store : Store κ ν) (op : StoreOp κ) (value : ν) : Store κ ν :=
  match op with
  | .upsert key => store.insert key value
  | .remove key => store.remove key
  | .ignore => store

/-- What an item of a window adds to the new contents: only upserts count. -/
def stage (store : Store κ ν) (op : StoreOp κ) (value : ν) : Store κ ν :=
  match op with
  | .upsert key => store.insert key value
  | .remove _ | .ignore => store

end Store

/-- The adapter: its inner stream, the store, the state of the caller's closure,
and the contents that a window builds. -/
structure Reflect (σ : Type y) (κ : Type u) (ν : Type v) (ω : Type x) where
  inner : σ
  store : Store κ ν
  opState : ω
  staging : Option (Store κ ν)

namespace Reflect

/-- `reflect`. -/
def new (inner : σ) (store : Store κ ν) (opState : ω) : Reflect σ κ ν ω where
  inner := inner
  store := store
  opState := opState
  staging := none

variable (op : ω → ν → StoreOp κ × ω)

/-- An item that is not a marker. -/
def update (reflect : Reflect σ κ ν ω) (value : ν) : Reflect σ κ ν ω :=
  let (storeOp, opState) := op reflect.opState value
  match reflect.staging with
  | some stage =>
      { reflect with
        opState := opState
        staging := some (stage.stage storeOp value) }
  | none =>
      { reflect with
        opState := opState
        store := reflect.store.apply storeOp value }

/-- What the adapter does with an item before passing it on. -/
def onItem (reflect : Reflect σ κ ν ω) : ResyncedEvent ν → Reflect σ κ ν ω
  | .marker .resyncStart => { reflect with staging := some Store.empty }
  | .marker .resyncEnd =>
      match reflect.staging with
      | some next => { reflect with store := next, staging := none }
      | none => reflect
  | .event value => reflect.update op value
  | .resynced value => reflect.update op value

/-- `poll_next`. -/
def pollNext (pollInner : σ → Poll (Option (Item ε ν)) × σ) (reflect : Reflect σ κ ν ω) :
    Poll (Option (Item ε ν)) × Reflect σ κ ν ω :=
  match pollInner reflect.inner with
  | (.pending, inner) => (.pending, { reflect with inner := inner })
  | (.ready none, inner) => (.ready none, { reflect with inner := inner })
  | (.ready (some (.error error)), inner) =>
      (.ready (some (.error error)), { reflect with inner := inner })
  | (.ready (some (.ok item)), inner) =>
      (.ready (some (.ok item)), { reflect with inner := inner }.onItem op item)

end Reflect

/-!
## What readers see

The items so far end with events and perhaps an open window.  Before them stands
the last window that was completed, if there was one; readers see its contents,
or else the initial store, with the events applied.
-/

def events (values : List ν) : List (Item ε ν) :=
  values.map fun value => .ok (.event value)

/-- The values of the items that are not markers. -/
def payloads (items : List (Item ε ν)) : List ν :=
  items.filterMap fun item =>
    match item with
    | .ok (.event value) => some value
    | .ok (.resynced value) => some value
    | _ => none

variable (op : ω → ν → StoreOp κ × ω)

/-- The closure's state after it has classified these values. -/
def opAfter (opState : ω) (values : List ν) : ω :=
  values.foldl (fun opState value => (op opState value).2) opState

/-- The values with what each means for the store. -/
def classified : ω → List ν → List (StoreOp κ × ν)
  | _, [] => []
  | opState, value :: rest => ((op opState value).1, value) :: classified (op opState value).2 rest

/-- What an event says about a key, if it is about that key: the value that it
has from now on, or that it has none. -/
def told (key : κ) : StoreOp κ × ν → Option (Option ν)
  | (.upsert other, value) => if other = key then some (some value) else none
  | (.remove other, _) => if other = key then some none else none
  | (.ignore, _) => none

/-- The value that an item of a window lists under a key, if it lists one. -/
def listed (key : κ) : StoreOp κ × ν → Option ν
  | (.upsert other, value) => if other = key then some value else none
  | _ => none

/-- Each key has what the last event about it says, or else what it had. -/
def applied (opState : ω) (store : Store κ ν) (values : List ν) : Store κ ν :=
  fun key => ((classified op opState values).reverse.findSome? (told key)).getD (store key)

/-- Each key has the value that the window lists last under it. -/
def staged (opState : ω) (values : List ν) : Store κ ν :=
  fun key => (classified op opState values).reverse.findSome? (listed key)

variable (opState : ω) (initial : Store κ ν)

/-- Items up to the end of the last completed window, and the store then. -/
inductive IsBase : List (Item ε ν) → Store κ ν → Prop
  | initial : IsBase [] initial
  | window (earlier : List (Item ε ν)) (values : List ν) : IsBase (earlier ++ window values)
        (staged op (opAfter op opState (payloads earlier)) values)

/-- After these items no window is open, and the store is the last window's
with the events since. -/
def Settled (items : List (Item ε ν)) (store : Store κ ν) : Prop :=
  ∃ base start deltas, items = base ++ events deltas ∧ IsBase op opState initial base start ∧
      store = applied op (opAfter op opState (payloads base)) start deltas

/-- Items that leave the store alone: an error, or the part of a window. -/
inductive Unapplied : List (Item ε ν) → Prop
  | nothing : Unapplied []
  | error (error : ε) : Unapplied [.error error]
  | openWindow (values : List ν) :
      Unapplied (.ok (.marker .resyncStart) :: values.map fun value => .ok (.resynced value))

/-- What readers see after these items. -/
def Mirrors (items : List (Item ε ν)) (store : Store κ ν) : Prop :=
  ∃ settled current, items = settled ++ current ∧ Settled op opState initial settled store ∧
      Unapplied current

variable {op opState initial}

@[simp] theorem payloads_append (first second : List (Item ε ν)) :
    payloads (first ++ second) = payloads first ++ payloads second :=
  filterMap_append

@[simp] theorem payloads_events (values : List ν) :
    payloads (events values : List (Item ε ν)) = values := by
  rw [payloads, events, filterMap_map]
  exact filterMap_some

theorem payloads_marker (items : List (Item ε ν)) (marker : ResyncMarker) :
    payloads (items ++ yielded [.ready (some (.ok (.marker marker)))]) = payloads items := by
  rw [payloads_append]
  exact List.append_nil _

omit [DecidableEq κ] in
theorem opAfter_append (opState : ω) (first second : List ν) :
    opAfter op opState (first ++ second) = opAfter op (opAfter op opState first) second :=
  foldl_append

omit [DecidableEq κ] in
theorem classified_append_singleton (opState : ω) (values : List ν) (value : ν) :
    classified op opState (values ++ [value]) = classified op opState values ++
        [((op (opAfter op opState values) value).1, value)] := by
  induction values generalizing opState with
  | nil => rfl
  | cons first rest ih => exact congrArg (_ :: ·) (ih _)

/-- One more event does to the described contents what the adapter does. -/
theorem applied_append_singleton (opState : ω) (store : Store κ ν) (values : List ν) (value : ν) :
    applied op opState store (values ++ [value]) = (applied op opState store values).apply
        (op (opAfter op opState values) value).1 value := by
  funext key
  rw [applied, classified_append_singleton, reverse_append, reverse_singleton,
    singleton_append, findSome?_cons]
  cases (op (opAfter op opState values) value).1 with
  | upsert other | remove other =>
      by_cases same : other = key
      · simp [told, Store.apply, Store.insert, Store.remove, same]
      · simp [told, Store.apply, Store.insert, Store.remove, same, Ne.symm same, applied]
  | ignore => rfl

/-- One more item does to the described window what the adapter does. -/
theorem staged_append_singleton (opState : ω) (values : List ν) (value : ν) :
    staged op opState (values ++ [value]) = (staged op opState values).stage
        (op (opAfter op opState values) value).1 value := by
  funext key
  rw [staged, classified_append_singleton, reverse_append, reverse_singleton,
    singleton_append, findSome?_cons]
  cases (op (opAfter op opState values) value).1 with
  | upsert other =>
      by_cases same : other = key
      · simp [listed, Store.stage, Store.insert, same]
      · simp [listed, Store.stage, Store.insert, same, Ne.symm same, staged]
  | remove | ignore => rfl

variable {items : List (Item ε ν)}

theorem Settled.event {store : Store κ ν}
    (settled : Settled op opState initial items store) (value : ν) :
    Settled op opState initial (items ++ [.ok (.event value)])
      (store.apply (op (opAfter op opState (payloads items)) value).1 value) := by
  obtain ⟨base, start, deltas, rfl, isBase, rfl⟩ := settled
  refine ⟨base, start, deltas ++ [value], ?_, isBase, ?_⟩
  · simp [events]
  · rw [applied_append_singleton, payloads_append, payloads_events, opAfter_append]

/-- What holds of the adapter in each phase of the stream beneath it. -/
def Tracks (op : ω → ν → StoreOp κ × ω) (opState : ω) (initial : Store κ ν)
    (items : List (Item ε ν)) (reflect : Reflect σ κ ν ω) : Phase → Prop
  | .live =>
      Settled op opState initial items reflect.store ∧ reflect.staging = none ∧
        reflect.opState = opAfter op opState (payloads items)
  | .inWindow =>
      ∃ settled values, items = settled ++ .ok (.marker .resyncStart) ::
          values.map (fun value => .ok (.resynced value)) ∧
        Settled op opState initial settled reflect.store ∧
        reflect.staging = some (staged op (opAfter op opState (payloads settled)) values) ∧
        reflect.opState = opAfter op opState (payloads items)
  | .over => Mirrors op opState initial items reflect.store

theorem Tracks.mirrors {reflect : Reflect σ κ ν ω} {phase : Phase}
    (tracks : Tracks op opState initial items reflect phase) :
    Mirrors op opState initial items reflect.store := by
  cases phase with
  | live => exact ⟨items, [], (List.append_nil items).symm, tracks.1, .nothing⟩
  | inWindow =>
      obtain ⟨settled, values, shape, isSettled, _⟩ := tracks
      exact ⟨settled, _, shape, isSettled, .openWindow values⟩
  | _ => exact tracks

/-- What one poll of the stream beneath does to the adapter. -/
theorem Tracks.poll {reflect : Reflect σ κ ν ω} {phase next : Phase}
    {pollInner : σ → Poll (Option (Item ε ν)) × σ} {result : Poll (Option (Item ε ν))} {inner : σ}
    (tracks : Tracks op opState initial items reflect phase)
    (polled : pollInner reflect.inner = (result, inner)) (emits : Emits phase result next) :
    Tracks op opState initial (items ++ yielded [result])
      (reflect.pollNext op pollInner).2 next := by
  simp only [Reflect.pollNext, polled]
  cases emits with
  | pending =>
      rw [show yielded [.pending] = ([] : List (Item ε ν)) from rfl, List.append_nil]
      exact tracks
  | event value =>
      obtain ⟨settled, noStaging, opIs⟩ := tracks
      simp only [Reflect.onItem, Reflect.update, noStaging, opIs]
      refine ⟨settled.event value, rfl, ?_⟩
      rw [payloads_append, opAfter_append]
      rfl
  | error error => exact ⟨items, [.error error], rfl, tracks.1, .error error⟩
  | finished => exact ⟨items, [], rfl, tracks.1, .nothing⟩
  | resyncStart =>
      obtain ⟨settled, _, opIs⟩ := tracks
      refine ⟨items, [], rfl, settled, rfl, ?_⟩
      rw [payloads_marker]
      exact opIs
  | resynced value =>
      obtain ⟨settled, values, rfl, isSettled, staging, opIs⟩ := tracks
      have payloadsAre :
          payloads (settled ++ .ok (.marker .resyncStart) ::
              values.map (fun value => .ok (.resynced value)) : List (Item ε ν)) =
            payloads settled ++ values := by
        rw [payloads_append]
        simp [payloads, filterMap_map]
      rw [payloadsAre, opAfter_append] at opIs
      simp only [Reflect.onItem, Reflect.update, staging, opIs]
      refine ⟨settled, values ++ [value], ?_, isSettled, ?_, ?_⟩
      · simp [yielded]
      · rw [staged_append_singleton]
      · rw [payloads_append, payloadsAre, opAfter_append, opAfter_append]
        rfl
  | resyncEnd =>
      obtain ⟨settled, values, rfl, isSettled, staging, opIs⟩ := tracks
      simp only [Reflect.onItem, staging]
      refine ⟨⟨settled ++ window values, _, [], ?_, .window settled values, rfl⟩, rfl, ?_⟩
      · simp [window, yielded, events]
      · rw [payloads_marker]
        exact opIs
  | fused =>
      rw [show yielded [.ready none] = ([] : List (Item ε ν)) from rfl, List.append_nil]
      exact tracks

theorem Reflect.onItem_inner (reflect : Reflect σ κ ν ω) (item : ResyncedEvent ν) :
    (reflect.onItem op item).inner = reflect.inner := by
  cases item with
  | event _ | resynced _ =>
      simp only [Reflect.onItem, Reflect.update]
      split <;> rfl
  | marker marker =>
      cases marker with
      | resyncStart => rfl
      | resyncEnd =>
          simp only [Reflect.onItem]
          split <;> rfl

theorem Reflect.pollNext_inner (op : ω → ν → StoreOp κ × ω)
    (pollInner : σ → Poll (Option (Item ε ν)) × σ) (reflect : Reflect σ κ ν ω) :
    ((reflect.pollNext op pollInner).1, (reflect.pollNext op pollInner).2.inner) =
      pollInner reflect.inner := by
  rcases polled : pollInner reflect.inner with ⟨result, inner⟩
  simp only [Reflect.pollNext, polled]
  rcases result with _ | _ | _ | item
  · rfl
  · rfl
  · rfl
  · rw [onItem_inner]

theorem polls_reflect (op : ω → ν → StoreOp κ × ω) (pollInner : σ → Poll (Option (Item ε ν)) × σ)
    (count : Nat) (reflect : Reflect σ κ ν ω) :
    ((polls (Reflect.pollNext op pollInner) count reflect).1,
        (polls (Reflect.pollNext op pollInner) count reflect).2.inner) =
      polls pollInner count reflect.inner := by
  induction count with
  | zero => rfl
  | succ count ih =>
      have last := Reflect.pollNext_inner op pollInner
        (polls (Reflect.pollNext op pollInner) count reflect).2
      rw [polls_succ_last, polls_succ_last, ← ih, ← last]

theorem tracks_new {δ : Type y} (inner : ResyncStream δ ε ν) :
    Tracks op opState initial ([] : List (Item ε ν)) (Reflect.new inner initial opState) .live :=
  ⟨⟨[], initial, [], rfl, .initial, rfl⟩, rfl, rfl⟩

theorem mirrors_polls {δ : Type y} (isNoBufferSpace : ε → Bool) (resync : Nat → Snapshot ε ν)
    (pollEvents : δ → Poll (Option (Except ε ν)) × δ) (events : δ) (count : Nat) :
    let pollResync := ResyncStream.pollNext isNoBufferSpace resync pollEvents
    let reflected := polls (Reflect.pollNext op pollResync) count
      (Reflect.new (eventsWithResync events) initial opState)
    Mirrors op opState initial (yielded reflected.1) reflected.2.store := by
  intro pollResync reflected
  have preserved : ∀ items (reflect : Reflect (ResyncStream δ ε ν) κ ν ω),
      Tracks op opState initial items reflect reflect.inner.state.phase → Tracks op opState initial
          (items ++ yielded [(reflect.pollNext op pollResync).1])
          (reflect.pollNext op pollResync).2
          (reflect.pollNext op pollResync).2.inner.state.phase := by
    intro items reflect tracks
    have beneath := Reflect.pollNext_inner op pollResync reflect
    have emits : Emits reflect.inner.state.phase (pollResync reflect.inner).1
        (pollResync reflect.inner).2.state.phase :=
      ResyncStream.pollNext_emits isNoBufferSpace resync pollEvents reflect.inner
    rw [← beneath] at emits
    exact tracks.poll beneath.symm emits
  have tracks :=
    polls_track
      (fun items (reflect : Reflect (ResyncStream δ ε ν) κ ν ω) =>
        Tracks op opState initial items reflect reflect.inner.state.phase)
      preserved count (tracks_new (eventsWithResync events))
  exact tracks.mirrors

/-- Of every script and all snapshots, the resync stream yields each event, a
window for each overflow, and nothing after another error or a failed snapshot;
the reflector passes this on, and after every poll its readers see the last
completed window with the events since. -/
theorem resync_reflect_consistent (isNoBufferSpace : ε → Bool) (resync : Nat → Snapshot ε ν)
    (op : ω → ν → StoreOp κ × ω) (opState : ω) (initial : Store κ ν)
    (script : List (Poll (Option (Except ε ν)))) :
    let pollResync := ResyncStream.pollNext isNoBufferSpace resync pollScript
    let stream : ResyncStream _ ε ν := eventsWithResync script
    YieldsExactly pollResync stream (resynced isNoBufferSpace resync 0 (scriptItems script))
        (resyncedEnds isNoBufferSpace resync (scriptEnds script) 0 (scriptItems script)) ∧
      ∀ count,
        let reflected := polls (Reflect.pollNext op pollResync) count
          (Reflect.new stream initial opState)
        reflected.1 = (polls pollResync count stream).1 ∧
          Mirrors op opState initial (yielded reflected.1)
            reflected.2.store := by
  intro pollResync stream
  refine ⟨eventsWithResync_yieldsExactly isNoBufferSpace resync script, ?_⟩
  intro count reflected
  constructor
  · have passed := polls_reflect op pollResync count (Reflect.new stream initial opState)
    exact congrArg Prod.fst passed
  · exact mirrors_polls isNoBufferSpace resync pollScript script count

end

end Nlink.Netlink.Reflector
