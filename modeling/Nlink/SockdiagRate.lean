import Mathlib.Data.List.Basic
import Mathlib.Logic.Function.Basic

namespace Nlink.Sockdiag

/-!
# Rates of sockets

A tracker is handed one dump of TCP sockets after another.  It keeps the newest
counters of each cookie, and forgets a cookie that a number of dumps do not have.
-/

/-- The counters of `tcp_info` that rates are made of. -/
structure Counters where
  bytesAcked : Nat
  bytesReceived : Nat
  bytesSent : Nat
  bytesRetrans : Nat

/-- A socket of a dump; it has counters if they were asked for and it is a TCP
socket. -/
structure TrackedSocket where
  cookie : Nat
  tcpInfo : Option Counters

/-- A dump and when it is ingested. -/
structure Snapshot where
  sockets : List TrackedSocket
  instant : Nat

structure Entry where
  counters : Counters
  instant : Nat
  lastSeen : Nat

/-- What a socket did between two dumps.  Its rates are quotients of these
amounts. -/
structure SocketRate where
  cookie : Nat
  acked : Nat
  received : Nat
  sent : Nat
  retrans : Nat
  interval : Nat

structure SocketRateTracker where
  entries : Nat → Option Entry
  generation : Nat
  evictAfter : Nat

/-- A counter went backwards. -/
def Counters.Regressed (counters prev : Counters) : Prop :=
  counters.bytesAcked < prev.bytesAcked ∨ counters.bytesReceived < prev.bytesReceived ∨
    counters.bytesSent < prev.bytesSent ∨ counters.bytesRetrans < prev.bytesRetrans

instance (counters prev : Counters) : Decidable (counters.Regressed prev) :=
  inferInstanceAs (Decidable (_ ∨ _ ∨ _ ∨ _))

/-- The rate of a socket since the entry that there is for its cookie. -/
def rateSince (entries : Nat → Option Entry) (instant : Nat) (sock : TrackedSocket) :
    Option SocketRate := do
  let counters ← sock.tcpInfo
  let prev ← entries sock.cookie
  let interval := instant - prev.instant
  if interval = 0 ∨ counters.Regressed prev.counters then
    none
  else
    some
      { cookie := sock.cookie
        acked := counters.bytesAcked - prev.counters.bytesAcked
        received := counters.bytesReceived - prev.counters.bytesReceived
        sent := counters.bytesSent - prev.counters.bytesSent
        retrans := counters.bytesRetrans - prev.counters.bytesRetrans
        interval := interval }

namespace SocketRateTracker

/-- `SocketRateTracker::new`. -/
def new : SocketRateTracker where
  entries := fun _ => none
  generation := 0
  evictAfter := 3

def withEvictAfter (tracker : SocketRateTracker) (count : Nat) : SocketRateTracker :=
  { tracker with evictAfter := max count 1 }

/-- One round of the loop of `ingest`; every other socket with counters replaces
the entry for its cookie. -/
def ingestSocket (instant : Nat) (state : SocketRateTracker × List SocketRate)
    (sock : TrackedSocket) : SocketRateTracker × List SocketRate :=
  match sock.tcpInfo with
  | none => state
  | some counters =>
      ({ state.1 with
          entries := Function.update state.1.entries sock.cookie
            (some { counters, instant, lastSeen := state.1.generation }) },
        state.2 ++ (rateSince state.1.entries instant sock).toList)

def ingest (tracker : SocketRateTracker) (snapshot : Snapshot) :
    SocketRateTracker × List SocketRate :=
  let (tracker, rates) := snapshot.sockets.foldl (ingestSocket snapshot.instant)
    ({ tracker with generation := tracker.generation + 1 }, [])
  let horizon := tracker.generation - tracker.evictAfter
  ({ tracker with
      entries := fun cookie => (tracker.entries cookie).filter (horizon < ·.lastSeen) }, rates)

/-- The tracker after some dumps, the newest first. -/
def after (tracker : SocketRateTracker) : List Snapshot → SocketRateTracker
  | [] => tracker
  | snapshot :: earlier => ((tracker.after earlier).ingest snapshot).1

end SocketRateTracker

/-- The counters of a cookie in a dump, the last ones if there are several. -/
def lastOf : List TrackedSocket → Nat → Option Counters
  | [], _ => none
  | sock :: rest, cookie =>
      (lastOf rest cookie).or (if sock.cookie = cookie then sock.tcpInfo else none)

/-- The newest counters of a cookie in the last dumps, as many as are given; the
newest dump is the first. -/
def remembered : Nat → List Snapshot → Nat → Option Entry
  | 0, _, _ => none
  | _ + 1, [], _ => none
  | count + 1, snapshot :: earlier, cookie =>
      match lastOf snapshot.sockets cookie with
      | some counters =>
          some { counters, instant := snapshot.instant, lastSeen := earlier.length + 1 }
      | none => remembered count earlier cookie

theorem remembered_filter (count : Nat) (dumps : List Snapshot) (cookie : Nat) :
    (remembered (count + 1) dumps cookie).filter (dumps.length - count < ·.lastSeen) =
      remembered count dumps cookie := by
  induction dumps generalizing count with
  | nil => cases count <;> rfl
  | cons snapshot earlier ih =>
      rw [remembered, List.length_cons]
      cases count with
      | zero => cases lastOf snapshot.sockets cookie <;> simp [remembered]
      | succ count =>
          rw [remembered, Nat.add_sub_add_right]
          cases lastOf snapshot.sockets cookie with
          | none => exact ih count
          | some counters => exact Option.filter_some_pos (decide_eq_true (by simp only; omega))

namespace SocketRateTracker

theorem ingestSockets_entries (instant : Nat) (sockets : List TrackedSocket)
    (tracker : SocketRateTracker) (rates : List SocketRate) :
    (sockets.foldl (ingestSocket instant) (tracker, rates)).1 =
      { tracker with
        entries := fun cookie => ((lastOf sockets cookie).map fun counters =>
          { counters, instant, lastSeen := tracker.generation }).or (tracker.entries cookie) } := by
  induction sockets generalizing tracker rates with
  | nil => rfl
  | cons sock rest ih =>
      rw [List.foldl_cons, ingestSocket]
      cases hasInfo : sock.tcpInfo with
      | none => simp [ih, lastOf, hasInfo]
      | some counters =>
          rw [ih]
          congr 1
          funext cookie
          by_cases same : sock.cookie = cookie
          · subst same
            cases isLast : lastOf rest sock.cookie <;> simp [lastOf, hasInfo, isLast]
          · simp [lastOf, same, Function.update_of_ne (Ne.symm same)]

theorem ingestSockets_rates (instant : Nat) (sockets : List TrackedSocket)
    (tracker : SocketRateTracker) (rates : List SocketRate)
    (distinct : (sockets.map TrackedSocket.cookie).Nodup) :
    (sockets.foldl (ingestSocket instant) (tracker, rates)).2 =
      rates ++ sockets.filterMap (rateSince tracker.entries instant) := by
  induction sockets generalizing tracker rates with
  | nil => simp
  | cons sock rest ih =>
      rw [List.map_cons, List.nodup_cons] at distinct
      rw [List.foldl_cons, ingestSocket]
      cases hasInfo : sock.tcpInfo with
      | none => simp [ih _ _ distinct.2, rateSince, hasInfo]
      | some counters =>
          have unchanged : ∀ other ∈ rest, rateSince (Function.update tracker.entries sock.cookie
              (some { counters, instant, lastSeen := tracker.generation })) instant other =
                rateSince tracker.entries instant other := by
            intro other member
            have apart : other.cookie ≠ sock.cookie :=
              fun same => distinct.1 (same ▸ List.mem_map_of_mem member)
            simp [rateSince, Function.update_of_ne apart]
          rw [ih _ _ distinct.2, List.filterMap_congr unchanged, List.append_assoc]
          cases rate : rateSince tracker.entries instant sock <;> simp [rate]

theorem after_eq (evictAfter : Nat) (dumps : List Snapshot) :
    (new.withEvictAfter evictAfter).after dumps =
      { entries := remembered (max evictAfter 1) dumps
        generation := dumps.length
        evictAfter := max evictAfter 1 } := by
  obtain ⟨count, isCount⟩ : ∃ count, max evictAfter 1 = count + 1 :=
    ⟨max evictAfter 1 - 1, by omega⟩
  induction dumps with
  | nil =>
      rw [after, withEvictAfter, isCount]
      rfl
  | cons snapshot earlier ih =>
      rw [after, ih, ingest]
      simp only [ingestSockets_entries, List.length_cons]
      congr 1
      funext cookie
      rw [isCount, remembered, Nat.add_sub_add_right]
      cases lastOf snapshot.sockets cookie with
      | none => exact remembered_filter count earlier cookie
      | some counters => exact Option.filter_some_pos (decide_eq_true (by simp only; omega))

/-- Over every run, a tracker holds exactly the newest counters of each cookie in
the last dumps, and a socket has a rate exactly if its cookie was remembered, time
has passed, and no counter went backwards. -/
theorem ingest_exact (evictAfter : Nat) (dumps : List Snapshot) (snapshot : Snapshot)
    (distinct : (snapshot.sockets.map TrackedSocket.cookie).Nodup) :
    ((new.withEvictAfter evictAfter).after dumps).ingest snapshot =
      ({ entries := remembered (max evictAfter 1) (snapshot :: dumps)
         generation := dumps.length + 1
         evictAfter := max evictAfter 1 },
        snapshot.sockets.filterMap
          (rateSince (remembered (max evictAfter 1) dumps) snapshot.instant)) := by
  refine Prod.ext (after_eq evictAfter (snapshot :: dumps)) ?_
  rw [after_eq, ingest]
  exact ingestSockets_rates _ _ _ _ distinct

/-- The second dump with a cookie has its rate. -/
theorem ingest_exact_second :
    ((new.withEvictAfter 3).after [⟨[⟨7, some ⟨0, 0, 0, 0⟩⟩], 10⟩]).ingest
        ⟨[⟨7, some ⟨500, 20, 600, 100⟩⟩], 12⟩ =
      ({ entries := remembered 3 [⟨[⟨7, some ⟨500, 20, 600, 100⟩⟩], 12⟩,
          ⟨[⟨7, some ⟨0, 0, 0, 0⟩⟩], 10⟩]
         generation := 2
         evictAfter := 3 }, [⟨7, 500, 20, 600, 100, 2⟩]) :=
  ingest_exact 3 [⟨[⟨7, some ⟨0, 0, 0, 0⟩⟩], 10⟩] ⟨[⟨7, some ⟨500, 20, 600, 100⟩⟩], 12⟩ (by decide)

end SocketRateTracker

end Nlink.Sockdiag
