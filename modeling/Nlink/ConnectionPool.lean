import Nlink.Foundation.BoundedQueue
import Nlink.Foundation.Execution

namespace Nlink.Netlink.Pool

open Foundation List

/-!
# The connection pool

Idle connections wait in a bounded queue whose capacity is the size of the pool.
A call of `acquire` locks the receiving end and takes one out; a lease puts its
connection back when it is dropped.  An invalidated connection is closed, and a
task builds another one in its place.
-/

/-- A connection; each that is built has a number of its own. -/
abbrev Connection := Nat

/-- A call of `acquire`. -/
abbrev Call := Nat

/-- A lease on a connection. -/
structure PooledConnection where
  id : Nat
  conn : Option Connection
  deriving DecidableEq

/-- The lock on the queue's receiving end, and what its holder has done. -/
inductive Receiver where
  | free
  | receiving (call : Call)
  /-- A connection is out of the queue, its room is not given back yet. -/
  | received (call : Call) (conn : Connection)
  deriving DecidableEq

/-- A task that `invalidate` has spawned. -/
inductive Replenish where
  | building
  | built (conn : Connection)
  deriving DecidableEq

/-- The connection that a task has built. -/
def Replenish.conn : Replenish → Option Connection
  | .building => none
  | .built conn => some conn

/-- The pool, the calls and leases that exist, and the tasks.  What became of
the connections that are gone is recorded beside them. -/
structure ConnectionPool (queue : BoundedQueue Connection) where
  size : Nat
  available : queue.State
  receiver : Receiver
  waiting : List Call
  leases : List PooledConnection
  tasks : List Replenish
  nextLease : Nat
  nextConnection : Connection
  /-- Replenishments that failed. -/
  failed : Nat
  /-- Connections that were invalidated. -/
  invalidated : List Connection
  /-- Connections that the queue did not take. -/
  lost : List Connection

/-- Why a call of `acquire` ends without a connection. -/
inductive Leave where
  | cancelled
  | timedOut

/-- The steps of callers and of the tasks. -/
inductive Action where
  | acquire (call : Call)
  | lock (call : Call)
  | recv
  /-- The room is given back, the lock is released, and the lease is made. -/
  | grant
  | leave (call : Call) (reason : Leave)
  | dropLease (lease : PooledConnection)
  | invalidate (lease : PooledConnection)
  /-- The factory of a task builds a connection, or fails. -/
  | build (succeeds : Bool)
  | sendFresh (conn : Connection)

section Steps

variable (queue : BoundedQueue Connection)

/-- `ConnectionPoolBuilder::size`. -/
def builderSize (size : Nat) : Nat :=
  max size 1

/-- `ConnectionPoolBuilder::build` has sent as many new connections as the
queue has room for. -/
def new (requested : Nat) : ConnectionPool queue where
  size := builderSize requested
  available :=
    queue.sendAll (queue.create (builderSize requested)) (List.range (builderSize requested))
  receiver := .free
  waiting := []
  leases := []
  tasks := []
  nextLease := 0
  nextConnection := builderSize requested
  failed := 0
  invalidated := []
  lost := []

variable {queue}

namespace ConnectionPool

/-- `try_send`, whose result is not looked at: a connection that the queue does
not take is dropped. -/
def trySend (pool : ConnectionPool queue) (conn : Connection) : ConnectionPool queue :=
  match queue.trySend pool.available conn with
  | some available => { pool with available := available }
  | none => { pool with lost := conn :: pool.lost }

/-- The drop of a lease sends its connection back. -/
def dropLease (pool : ConnectionPool queue) (lease : PooledConnection) : ConnectionPool queue :=
  let pool := { pool with leases := pool.leases.erase lease }
  match lease.conn with
  | some conn => pool.trySend conn
  | none => pool

/-- `invalidate` closes the connection and spawns a task; the drop of the
lease, which has no connection any more, does nothing. -/
def invalidate (pool : ConnectionPool queue) (lease : PooledConnection) : ConnectionPool queue :=
  let pool := { pool with leases := pool.leases.erase lease }
  match lease.conn with
  | some conn =>
      { pool with
        invalidated := conn :: pool.invalidated
        tasks := .building :: pool.tasks }
  | none => pool

/-- The factory has built a connection or failed; a task that failed ends. -/
def build (pool : ConnectionPool queue) (succeeds : Bool) : ConnectionPool queue :=
  let tasks := pool.tasks.erase .building
  if succeeds then
    { pool with
      tasks := .built pool.nextConnection :: tasks
      nextConnection := pool.nextConnection + 1 }
  else
    { pool with
      tasks := tasks
      failed := pool.failed + 1 }

/-- A task sends what it has built, and ends. -/
def sendFresh (pool : ConnectionPool queue) (conn : Connection) : ConnectionPool queue :=
  let pool := { pool with tasks := pool.tasks.erase (.built conn) }
  pool.trySend conn

/-- A call that waits for the lock or for a connection is dropped. -/
def leave (pool : ConnectionPool queue) (call : Call) : Option (ConnectionPool queue) :=
  if pool.receiver = .receiving call then
    some { pool with receiver := .free }
  else if call ∈ pool.waiting then
    some { pool with waiting := pool.waiting.erase call }
  else
    none

/-- One step; actions that cannot happen in a state are refused. -/
def step? (pool : ConnectionPool queue) : Action → Option (ConnectionPool queue)
  | .acquire call => some { pool with waiting := call :: pool.waiting }
  | .lock call =>
      if pool.receiver = .free ∧ call ∈ pool.waiting then
        some
          { pool with
            receiver := .receiving call
            waiting := pool.waiting.erase call }
      else
        none
  | .recv =>
      match pool.receiver with
      | .receiving call =>
          (queue.recv pool.available).map fun taken =>
            { pool with
              receiver := .received call taken.1
              available := taken.2 }
      | _ => none
  | .grant =>
      match pool.receiver with
      | .received _ conn =>
          some
            { pool with
              receiver := .free
              available := queue.release pool.available
              leases := { id := pool.nextLease, conn := some conn } :: pool.leases
              nextLease := pool.nextLease + 1 }
      | _ => none
  | .leave call _ => pool.leave call
  | .dropLease lease => if lease ∈ pool.leases then some (pool.dropLease lease) else none
  | .invalidate lease => if lease ∈ pool.leases then some (pool.invalidate lease) else none
  | .build succeeds => if .building ∈ pool.tasks then some (pool.build succeeds) else none
  | .sendFresh conn => if .built conn ∈ pool.tasks then some (pool.sendFresh conn) else none

/-- The connections in the queue. -/
def idle (pool : ConnectionPool queue) : List Connection :=
  queue.items pool.available

/-- The connection that a call has taken out and not yet leased. -/
def granting (pool : ConnectionPool queue) : List Connection :=
  match pool.receiver with
  | .received _ conn => [conn]
  | _ => []

/-- The connections of the leases. -/
def leased (pool : ConnectionPool queue) : List Connection :=
  pool.leases.filterMap PooledConnection.conn

/-- The connections that tasks have built and not yet sent. -/
def fresh (pool : ConnectionPool queue) : List Connection :=
  pool.tasks.filterMap Replenish.conn

/-- Every connection that exists, at its place. -/
def places (pool : ConnectionPool queue) : List Connection :=
  pool.idle ++ (pool.granting ++ (pool.leased ++ pool.fresh))

end ConnectionPool

end Steps

/-!
## No connection is lost or shared

Every step moves connections between the queue, the leases and the tasks,
retires one, or adds a new one.  So the places where a connection can be never
hold one twice, and their number follows from the size of the pool.
-/

variable {queue : BoundedQueue Connection} {pool next : ConnectionPool queue}

namespace ConnectionPool

/-- Every connection that was ever built and not lost. -/
def everyConnection (pool : ConnectionPool queue) : List Connection :=
  pool.places ++ pool.invalidated

/-- What holds in every reachable state. -/
structure Ledger (pool : ConnectionPool queue) : Prop where
  room : queue.room pool.available + pool.idle.length + pool.granting.length = pool.size
  slots : pool.idle.length + pool.granting.length + pool.leases.length +
        pool.tasks.length + pool.failed =
      pool.size
  held : ∀ lease ∈ pool.leases, ∃ conn, lease.conn = some conn
  distinct : pool.everyConnection.Nodup
  known : ∀ conn ∈ pool.everyConnection, conn < pool.nextConnection
  nothingLost : pool.lost = []

theorem trySend_room (pool : ConnectionPool queue) (free : 0 < queue.room pool.available)
    (conn : Connection) :
    ∃ available, pool.trySend conn = { pool with available := available } ∧
        queue.items available = pool.idle ++ [conn] ∧
        queue.room available + 1 = queue.room pool.available := by
  obtain ⟨available, sent, items, room⟩ := queue.trySend_room pool.available conn free
  refine ⟨available, ?_, items, room⟩
  rw [trySend, sent]

theorem leased_perm {lease : PooledConnection} {conn : Connection} (member : lease ∈ pool.leases)
    (isHeld : lease.conn = some conn) :
    pool.leased.Perm (conn :: (pool.leases.erase lease).filterMap PooledConnection.conn) := by
  have split := (perm_cons_erase member).filterMap PooledConnection.conn
  rw [filterMap_cons_some isHeld] at split
  exact split

theorem fresh_perm {conn : Connection} (member : .built conn ∈ pool.tasks) : pool.fresh.Perm
      (conn :: (pool.tasks.erase (.built conn)).filterMap Replenish.conn) := by
  exact (perm_cons_erase member).filterMap Replenish.conn

theorem fresh_perm_of_building (member : .building ∈ pool.tasks) : pool.fresh.Perm
      ((pool.tasks.erase .building).filterMap Replenish.conn) := by
  exact (perm_cons_erase member).filterMap Replenish.conn

theorem count_everyConnection (pool : ConnectionPool queue) (conn : Connection) :
    pool.everyConnection.count conn = pool.idle.count conn + pool.granting.count conn +
        pool.leased.count conn + pool.fresh.count conn +
        pool.invalidated.count conn := by
  simp only [everyConnection, places, count_append]
  omega

namespace Ledger

theorem room_eq (ledger : Ledger pool) : queue.room pool.available =
      pool.leases.length + pool.tasks.length + pool.failed := by
  have room := ledger.room
  have slots := ledger.slots
  omega

theorem moved (ledger : Ledger pool) (next : ConnectionPool queue)
    (same : ∀ conn, next.everyConnection.count conn = pool.everyConnection.count conn)
    (counter : next.nextConnection = pool.nextConnection) :
    next.everyConnection.Nodup ∧ ∀ conn ∈ next.everyConnection, conn < next.nextConnection := by
  have perm : next.everyConnection.Perm pool.everyConnection := perm_iff_count.mpr same
  refine ⟨perm.nodup_iff.mpr ledger.distinct, fun conn member => ?_⟩
  rw [counter]
  exact ledger.known conn (perm.mem_iff.mp member)

theorem relock (ledger : Ledger pool) {receiver : Receiver} {waiting : List Call}
    (same : ConnectionPool.granting { pool with
      receiver := receiver, waiting := waiting } = pool.granting) :
    Ledger { pool with receiver := receiver, waiting := waiting } := by
  have moves :=
    ledger.moved { pool with receiver := receiver, waiting := waiting }
      (fun conn => by
        rw [count_everyConnection, count_everyConnection, same]
        rfl) rfl
  exact
    { room := same.symm ▸ ledger.room
      slots := same.symm ▸ ledger.slots
      held := ledger.held
      distinct := moves.1
      known := moves.2
      nothingLost := ledger.nothingLost }

variable {conn : Connection}

theorem recv (ledger : Ledger pool) {call : Call} {available : queue.State}
    (isReceiving : pool.receiver = .receiving call)
    (taken : queue.recv pool.available = some (conn, available)) :
    Ledger { pool with
      receiver := .received call conn, available := available } := by
  obtain ⟨items, room⟩ := queue.recv_eq_some taken
  have before : pool.granting = [] := by rw [granting, isReceiving]
  have idle : pool.idle = conn :: queue.items available := items
  have moves :=
    ledger.moved { pool with receiver := .received call conn, available := available }
      (fun other => by
        rw [count_everyConnection, count_everyConnection, before, idle]
        simp only [ConnectionPool.idle, granting, leased, fresh, count_cons, count_nil]
        omega) rfl
  have ledgerRoom := ledger.room
  have ledgerSlots := ledger.slots
  rw [before, idle] at ledgerRoom ledgerSlots
  exact
    { room := by
        simp only [ConnectionPool.idle, granting, room]
        simpa [Nat.add_assoc] using ledgerRoom
      slots := by
        simp only [ConnectionPool.idle, granting]
        simpa using ledgerSlots
      held := ledger.held
      distinct := moves.1
      known := moves.2
      nothingLost := ledger.nothingLost }

theorem grant (ledger : Ledger pool) {call : Call}
    (isReceived : pool.receiver = .received call conn) :
    Ledger { pool with
      receiver := .free
      available := queue.release pool.available
      leases := { id := pool.nextLease, conn := some conn } :: pool.leases
      nextLease := pool.nextLease + 1 } := by
  have before : pool.granting = [conn] := by rw [granting, isReceived]
  have idle : queue.items (queue.release pool.available) = pool.idle :=
    queue.items_release pool.available
  have moves :=
    ledger.moved
      { pool with
        receiver := .free
        available := queue.release pool.available
        leases := { id := pool.nextLease, conn := some conn } :: pool.leases
        nextLease := pool.nextLease + 1 }
      (fun other => by
        rw [count_everyConnection, count_everyConnection, before]
        simp only [ConnectionPool.idle, granting, leased, fresh, queue.items_release,
          filterMap_cons, count_cons, count_nil]
        omega) rfl
  have ledgerRoom := ledger.room
  have ledgerSlots := ledger.slots
  rw [before, length_singleton] at ledgerRoom ledgerSlots
  exact
    { room := by
        simp only [ConnectionPool.idle, granting, queue.room_release,
          queue.items_release, length_nil]
        simp only [ConnectionPool.idle] at ledgerRoom
        omega
      slots := by
        simp only [ConnectionPool.idle, granting, queue.items_release, length_nil, length_cons]
        simp only [ConnectionPool.idle] at ledgerSlots
        omega
      held := forall_mem_cons.mpr ⟨⟨conn, rfl⟩, ledger.held⟩
      distinct := moves.1
      known := moves.2
      nothingLost := ledger.nothingLost }

variable {lease : PooledConnection}

section

variable (ledger : Ledger pool)

include ledger

theorem dropLease_eq (member : lease ∈ pool.leases) (isHeld : lease.conn = some conn) :
    ∃ available, pool.dropLease lease =
          { pool with leases := pool.leases.erase lease, available := available } ∧
        queue.items available = pool.idle ++ [conn] ∧
        queue.room available + 1 = queue.room pool.available := by
  have free : 0 < queue.room pool.available := by
    have some_lease := length_pos_of_mem member
    rw [ledger.room_eq]
    omega
  rw [ConnectionPool.dropLease, isHeld]
  exact trySend_room { pool with leases := pool.leases.erase lease } free conn

theorem sendFresh_eq (member : .built conn ∈ pool.tasks) : ∃ available,
      pool.sendFresh conn =
          { pool with
            tasks := pool.tasks.erase (.built conn)
            available := available } ∧
        queue.items available = pool.idle ++ [conn] ∧
        queue.room available + 1 = queue.room pool.available := by
  have free : 0 < queue.room pool.available := by
    have some_task := length_pos_of_mem member
    rw [ledger.room_eq]
    omega
  exact trySend_room { pool with tasks := pool.tasks.erase (.built conn) } free conn

theorem returned {leases : List PooledConnection} {tasks : List Replenish}
    {available : queue.State} (items : queue.items available = pool.idle ++ [conn])
    (room : queue.room available + 1 = queue.room pool.available)
    (fewer : leases.length + tasks.length + 1 = pool.leases.length + pool.tasks.length)
    (held : ∀ lease ∈ leases, lease ∈ pool.leases)
    (split : ∀ other, pool.leased.count other + pool.fresh.count other =
        (leases.filterMap PooledConnection.conn).count other +
          (tasks.filterMap Replenish.conn).count other + [conn].count other) :
    Ledger { pool with
      leases := leases, tasks := tasks, available := available } := by
  have moves :=
    ledger.moved { pool with leases := leases, tasks := tasks, available := available }
      (fun other => by
        have count := split other
        rw [count_everyConnection, count_everyConnection]
        simp only [ConnectionPool.idle, granting, leased, fresh, items, count_append] at count ⊢
        omega) rfl
  have ledgerRoom := ledger.room
  have ledgerSlots := ledger.slots
  exact
    { room := by
        simp only [ConnectionPool.idle, granting, items, length_append,
          length_singleton] at ledgerRoom ⊢
        omega
      slots := by
        simp only [ConnectionPool.idle, granting, items, length_append,
          length_singleton] at ledgerSlots ⊢
        omega
      held := fun lease member => ledger.held lease (held lease member)
      distinct := moves.1
      known := moves.2
      nothingLost := ledger.nothingLost }

theorem dropLease (member : lease ∈ pool.leases) : Ledger (pool.dropLease lease) := by
  obtain ⟨conn, isHeld⟩ := ledger.held lease member
  obtain ⟨available, isNext, items, room⟩ := ledger.dropLease_eq member isHeld
  rw [isNext]
  refine ledger.returned items room ?_ (fun _ isOther => mem_of_mem_erase isOther) (fun other => ?_)
  · have some_lease := length_pos_of_mem member
    rw [length_erase_of_mem member]
    omega
  · rw [(leased_perm member isHeld).count_eq, count_cons, count_singleton]
    simp only [fresh]
    omega

theorem sendFresh (member : .built conn ∈ pool.tasks) : Ledger (pool.sendFresh conn) := by
  obtain ⟨available, isNext, items, room⟩ := ledger.sendFresh_eq member
  rw [isNext]
  refine ledger.returned items room ?_ (fun _ isLease => isLease) (fun other => ?_)
  · have some_task := length_pos_of_mem member
    rw [length_erase_of_mem member]
    omega
  · rw [(fresh_perm member).count_eq, count_cons, count_singleton]
    simp only [leased]
    omega

theorem invalidate (member : lease ∈ pool.leases) : Ledger (pool.invalidate lease) := by
  obtain ⟨conn, isHeld⟩ := ledger.held lease member
  have isNext : pool.invalidate lease =
        { pool with
          leases := pool.leases.erase lease
          invalidated := conn :: pool.invalidated
          tasks := .building :: pool.tasks } := by
    rw [ConnectionPool.invalidate, isHeld]
  rw [isNext]
  have split := leased_perm member isHeld
  have moves :=
    ledger.moved
      { pool with
        leases := pool.leases.erase lease
        invalidated := conn :: pool.invalidated
        tasks := .building :: pool.tasks }
      (fun other => by
        have count := split.count_eq other
        rw [count_everyConnection, count_everyConnection, count]
        simp only [ConnectionPool.idle, granting, leased, fresh,
          filterMap_cons, Replenish.conn, count_cons]
        omega) rfl
  have ledgerSlots := ledger.slots
  have fewer := length_erase_of_mem member
  have some_lease := length_pos_of_mem member
  exact
    { room := ledger.room
      slots := by
        simp only [ConnectionPool.idle, granting, length_cons, fewer] at ledgerSlots ⊢
        omega
      held := fun other isOther => ledger.held other (mem_of_mem_erase isOther)
      distinct := moves.1
      known := moves.2
      nothingLost := ledger.nothingLost }

/-- A task builds a connection that nobody has seen, or fails. -/
theorem build (member : .building ∈ pool.tasks) (succeeds : Bool) :
    Ledger (pool.build succeeds) := by
  have split := fresh_perm_of_building member
  have ledgerSlots := ledger.slots
  have fewer := length_erase_of_mem member
  have some_task := length_pos_of_mem member
  cases succeeds with
  | false =>
      have moves :=
        ledger.moved (pool.build false)
          (fun other => by
            rw [count_everyConnection, count_everyConnection, split.count_eq other]
            rfl) rfl
      exact
        { room := ledger.room
          slots := by
            change pool.idle.length + pool.granting.length +
              pool.leases.length + (pool.tasks.erase .building).length +
              (pool.failed + 1) = pool.size
            omega
          held := ledger.held
          distinct := moves.1
          known := moves.2
          nothingLost := ledger.nothingLost }
  | true =>
      have perm : (pool.build true).everyConnection.Perm
            (pool.nextConnection :: pool.everyConnection) := by
        refine perm_iff_count.mpr fun other => ?_
        rw [count_everyConnection, count_cons, count_everyConnection, split.count_eq other]
        simp only [ConnectionPool.build, if_true, ConnectionPool.idle, granting, leased, fresh,
          filterMap_cons, Replenish.conn, count_cons]
        omega
      exact
        { room := ledger.room
          slots := by
            change pool.idle.length + pool.granting.length +
              pool.leases.length + ((pool.tasks.erase .building).length + 1) +
              pool.failed = pool.size
            omega
          held := ledger.held
          distinct := by
            rw [perm.nodup_iff, nodup_cons]
            exact ⟨fun isOld => Nat.lt_irrefl _ (ledger.known _ isOld), ledger.distinct⟩
          known := fun conn isConn => by
            change conn < pool.nextConnection + 1
            rcases mem_cons.mp (perm.mem_iff.mp isConn) with rfl | isOld
            · exact Nat.lt_succ_self _
            · exact Nat.lt_succ_of_lt (ledger.known conn isOld)
          nothingLost := ledger.nothingLost }

/-- Every step keeps the ledger. -/
theorem step {action : Action} (stepped : pool.step? action = some next) : Ledger next := by
  cases action with
  | acquire call =>
      cases stepped
      exact ledger.relock rfl
  | lock call =>
      rw [step?, Option.ite_none_right_eq_some] at stepped
      obtain ⟨⟨isFree, _⟩, isNext⟩ := stepped
      cases isNext
      refine ledger.relock ?_
      rw [granting, granting, isFree]
  | recv =>
      rw [step?] at stepped
      split at stepped
      · rename_i call isReceiving
        obtain ⟨taken, isTaken, isNext⟩ := Option.map_eq_some_iff.mp stepped
        cases isNext
        exact ledger.recv isReceiving isTaken
      · cases stepped
  | grant =>
      rw [step?] at stepped
      split at stepped
      · rename_i call conn isReceived
        cases stepped
        exact ledger.grant isReceived
      · cases stepped
  | leave call reason =>
      rw [step?, leave] at stepped
      split at stepped
      · rename_i isReceiving
        cases stepped
        refine ledger.relock ?_
        rw [granting, granting, isReceiving]
      · rw [Option.ite_none_right_eq_some] at stepped
        cases stepped.2
        exact ledger.relock rfl
  | dropLease lease =>
      rw [step?, Option.ite_none_right_eq_some] at stepped
      cases stepped.2
      exact ledger.dropLease stepped.1
  | invalidate lease =>
      rw [step?, Option.ite_none_right_eq_some] at stepped
      cases stepped.2
      exact ledger.invalidate stepped.1
  | build succeeds =>
      rw [step?, Option.ite_none_right_eq_some] at stepped
      cases stepped.2
      exact ledger.build stepped.1 succeeds
  | sendFresh conn =>
      rw [step?, Option.ite_none_right_eq_some] at stepped
      cases stepped.2
      exact ledger.sendFresh stepped.1

end

theorem new (queue : BoundedQueue Connection) (requested : Nat) :
    Ledger (Pool.new queue requested) := by
  have fits : (List.range (builderSize requested)).length ≤
        queue.room (queue.create (builderSize requested)) := by
    rw [length_range]
    exact Nat.le_of_eq (queue.room_create _).symm
  obtain ⟨items, room⟩ := queue.sendAll_room fits
  rw [queue.items_create, List.nil_append] at items
  rw [queue.room_create, length_range] at room
  have idle : (Pool.new queue requested).idle = List.range (builderSize requested) := items
  have every : (Pool.new queue requested).everyConnection = List.range (builderSize requested) := by
    rw [everyConnection, places, idle]
    simp only [granting, leased, fresh, Pool.new, filterMap_nil, List.append_nil]
  exact
    { room := by
        rw [idle, length_range]
        simpa [granting, Pool.new] using room
      slots := by
        rw [idle, length_range]
        rfl
      held := fun lease member => by cases member
      distinct := every ▸ nodup_range
      known := fun conn member => by
        rw [every] at member
        exact mem_range.mp member
      nothingLost := rfl }

end Ledger

/-- What the pool promises in every state: where its connections are, how many
there are, and that none is at two places. -/
structure Accounted (size : Nat) (pool : ConnectionPool queue) : Prop where
  total : pool.idle.length + (pool.granting.length + pool.leases.length) + pool.tasks.length =
      size - pool.failed
  failures : pool.failed ≤ size
  held : ∀ lease ∈ pool.leases, ∃ conn, lease.conn = some conn
  oneHolder : pool.places.Nodup
  retired : ∀ conn ∈ pool.invalidated, conn ∉ pool.places
  nothingLost : pool.lost = []

/-- What the pool promises about a step: a lease that is dropped puts its
connection back, and an invalidated connection stays invalidated. -/
structure Conserves (pool : ConnectionPool queue) (action : Action)
    (next : ConnectionPool queue) : Prop where
  returned : ∀ lease conn, action = .dropLease lease →
    lease.conn = some conn → next.idle = pool.idle ++ [conn]
  closed : ∀ lease conn, action = .invalidate lease →
    lease.conn = some conn → conn ∈ next.invalidated
  stays : ∀ conn ∈ pool.invalidated, conn ∈ next.invalidated

theorem Ledger.accounted (ledger : Ledger pool) : Accounted pool.size pool := by
  have slots := ledger.slots
  obtain ⟨placesNodup, _, apart⟩ := nodup_append.mp ledger.distinct
  exact
    { total := by omega
      failures := by omega
      held := ledger.held
      oneHolder := placesNodup
      retired := fun conn isRetired isPlaced => apart conn isPlaced conn isRetired rfl
      nothingLost := ledger.nothingLost }

theorem trySend_eq (pool : ConnectionPool queue) (conn : Connection) :
    (pool.trySend conn).size = pool.size ∧ (pool.trySend conn).invalidated = pool.invalidated := by
  rw [trySend]
  split <;> exact ⟨rfl, rfl⟩

/-- No step changes the size of the pool or forgets what was invalidated. -/
theorem step_keeps {action : Action} (stepped : pool.step? action = some next) :
    next.size = pool.size ∧ ∀ conn ∈ pool.invalidated, conn ∈ next.invalidated := by
  cases action with
  | acquire call =>
      cases stepped
      exact ⟨rfl, fun _ isRetired => isRetired⟩
  | lock call =>
      rw [step?, Option.ite_none_right_eq_some] at stepped
      cases stepped.2
      exact ⟨rfl, fun _ isRetired => isRetired⟩
  | recv =>
      rw [step?] at stepped
      split at stepped
      · obtain ⟨taken, _, isNext⟩ := Option.map_eq_some_iff.mp stepped
        cases isNext
        exact ⟨rfl, fun _ isRetired => isRetired⟩
      · cases stepped
  | grant =>
      rw [step?] at stepped
      split at stepped
      · cases stepped
        exact ⟨rfl, fun _ isRetired => isRetired⟩
      · cases stepped
  | leave call reason =>
      rw [step?, leave] at stepped
      split at stepped
      · cases stepped
        exact ⟨rfl, fun _ isRetired => isRetired⟩
      · rw [Option.ite_none_right_eq_some] at stepped
        cases stepped.2
        exact ⟨rfl, fun _ isRetired => isRetired⟩
  | dropLease lease =>
      rw [step?, Option.ite_none_right_eq_some] at stepped
      cases stepped.2
      rw [dropLease]
      split
      · rw [(trySend_eq _ _).1, (trySend_eq _ _).2]
        exact ⟨rfl, fun _ isRetired => isRetired⟩
      · exact ⟨rfl, fun _ isRetired => isRetired⟩
  | invalidate lease =>
      rw [step?, Option.ite_none_right_eq_some] at stepped
      cases stepped.2
      rw [invalidate]
      split
      · exact ⟨rfl, fun _ isRetired => mem_cons_of_mem _ isRetired⟩
      · exact ⟨rfl, fun _ isRetired => isRetired⟩
  | build succeeds =>
      rw [step?, Option.ite_none_right_eq_some] at stepped
      cases stepped.2
      cases succeeds <;> exact ⟨rfl, fun _ isRetired => isRetired⟩
  | sendFresh conn =>
      rw [step?, Option.ite_none_right_eq_some] at stepped
      cases stepped.2
      rw [sendFresh, (trySend_eq _ _).1, (trySend_eq _ _).2]
      exact ⟨rfl, fun _ isRetired => isRetired⟩

theorem Ledger.conserves (ledger : Ledger pool) {action : Action}
    (stepped : pool.step? action = some next) :
    Conserves pool action next where
  returned := by
    rintro lease conn rfl isHeld
    rw [step?, Option.ite_none_right_eq_some] at stepped
    cases stepped.2
    obtain ⟨available, isNext, items, _⟩ := ledger.dropLease_eq stepped.1 isHeld
    rw [isNext]
    exact items
  closed := by
    rintro lease conn rfl isHeld
    rw [step?, Option.ite_none_right_eq_some] at stepped
    cases stepped.2
    rw [ConnectionPool.invalidate, isHeld]
    exact mem_cons_self ..
  stays := (step_keeps stepped).2

end ConnectionPool

open ConnectionPool

/-- For every size and every order of the callers' and the tasks' steps, the
pool neither loses nor shares a connection. -/
theorem pool_accounts (queue : BoundedQueue Connection) (requested : Nat)
    {steps : List (Action × ConnectionPool queue)}
    (execution : Execution ConnectionPool.step? (new queue requested) steps) :
    Execution.Always (Accounted (builderSize requested)) (new queue requested) steps ∧
      Execution.EachStep Conserves (new queue requested) steps := by
  have preserved : ∀ (pool : ConnectionPool queue) action next,
      (Ledger pool ∧ pool.size = builderSize requested) → True →
      pool.step? action = some next → Ledger next ∧ next.size = builderSize requested :=
    fun pool action next known _ stepped =>
      ⟨known.1.step stepped, (step_keeps stepped).1.trans known.2⟩
  have related : ∀ (pool : ConnectionPool queue) action next,
      (Ledger pool ∧ pool.size = builderSize requested) → True →
      pool.step? action = some next → Conserves pool action next :=
    fun pool action next known _ stepped => known.1.conserves stepped
  obtain ⟨always, each⟩ :=
    Execution.eachStep_of_preserved preserved related execution
      (Execution.guarded_true _ _) ⟨Ledger.new queue requested, rfl⟩
  refine ⟨always.mono fun pool known => ?_, each⟩
  rw [← known.2]
  exact known.1.accounted

/-- Two calls on a pool of two: one is cancelled, the other's lease is
invalidated and replaced. -/
def replacedLease : List Action :=
  [.acquire 7, .acquire 8, .lock 7, .leave 7 .cancelled, .lock 8, .recv, .grant,
    .invalidate { id := 0, conn := some 0 }, .build true, .sendFresh 2]

theorem pool_accounts_replacedLease : ∃ steps, steps.map Prod.fst = replacedLease ∧
        Execution.Always (Accounted 2) (new (listQueue Connection) 2) steps ∧
        Execution.EachStep Conserves (new (listQueue Connection) 2) steps := by
  obtain ⟨steps, actions, execution⟩ : ∃ steps, steps.map Prod.fst = replacedLease ∧
          Execution ConnectionPool.step? (new (listQueue Connection) 2)
            steps := by
    refine ⟨[(_, _), (_, _), (_, _), (_, _), (_, _), (_, _), (_, _), (_, _), (_, _), (_, _)], rfl,
      .cons rfl (.cons rfl (.cons rfl (.cons rfl (.cons rfl (.cons rfl
        (.cons rfl (.cons rfl (.cons rfl (.cons rfl (.nil _))))))))))⟩
  exact ⟨steps, actions, pool_accounts (listQueue Connection) 2 execution⟩

/-!
## No call waits in vain

Each connection comes back if its lease is dropped or its task succeeds.  Only
the replenishments that fail take something away for good.
-/

/-- Nobody gives up, no lease is invalidated, and no task fails. -/
def Action.helps : Action → Bool
  | .recv => true
  | .grant => true
  | .dropLease _ => true
  | .build succeeds => succeeds
  | .sendFresh _ => true
  | _ => false

namespace ConnectionPool

/-- Helpful steps of others let the call be the next that locks, and it is
granted a connection. -/
def CanServe (pool : ConnectionPool queue) (call : Call) : Prop :=
  ∃ actions, (∀ action ∈ actions, action.helps = true) ∧
    (run? step? pool (actions ++ [.lock call, .recv, .grant])).isSome = true

variable {call : Call}

theorem CanServe.of_step (action : Action) (helps : action.helps = true)
    (stepped : pool.step? action = some next) (serves : next.CanServe call) :
    pool.CanServe call := by
  obtain ⟨actions, allHelp, ran⟩ := serves
  refine ⟨action :: actions, forall_mem_cons.mpr ⟨helps, allHelp⟩, ?_⟩
  rw [cons_append, run?, stepped]
  exact ran

theorem recv_idle (pool : ConnectionPool queue) (isReceiving : pool.receiver = .receiving call)
    (idle : pool.idle ≠ []) :
    ∃ conn available, pool.step? .recv =
      some { pool with receiver := .received call conn, available := available } := by
  obtain ⟨conn, rest, isIdle⟩ := exists_cons_of_ne_nil idle
  obtain ⟨available, taken, -⟩ := queue.recv_item pool.available conn rest isIdle
  exact ⟨conn, available, by rw [step?, isReceiving]; simp [taken]⟩

theorem CanServe.of_free (isFree : pool.receiver = .free) (waits : call ∈ pool.waiting)
    (idle : pool.idle ≠ []) : pool.CanServe call := by
  have locked : pool.step? (.lock call) = some { pool with
      receiver := .receiving call, waiting := pool.waiting.erase call } :=
    if_pos ⟨isFree, waits⟩
  obtain ⟨conn, available, received⟩ := recv_idle { pool with
      receiver := .receiving call, waiting := pool.waiting.erase call } rfl idle
  refine ⟨[], fun _ member => absurd member not_mem_nil, ?_⟩
  rw [List.nil_append, run?, locked]
  simp only [run?, received]
  rfl

namespace Ledger

theorem refill (ledger : Ledger pool)
    (someOut : (∃ lease, lease ∈ pool.leases) ∨ ∃ conn, .built conn ∈ pool.tasks) :
    ∃ action next, action.helps = true ∧ pool.step? action = some next ∧ next.idle ≠ [] ∧
      next.receiver = pool.receiver ∧ next.waiting = pool.waiting := by
  rcases someOut with ⟨lease, member⟩ | ⟨conn, member⟩
  · obtain ⟨conn, isHeld⟩ := ledger.held lease member
    obtain ⟨available, isNext, items, -⟩ := ledger.dropLease_eq member isHeld
    refine ⟨.dropLease lease, _, rfl, if_pos member, ?_⟩
    rw [isNext]
    exact ⟨by simp [idle, items], rfl, rfl⟩
  · obtain ⟨available, isNext, items, -⟩ := ledger.sendFresh_eq member
    refine ⟨.sendFresh conn, _, rfl, if_pos member, ?_⟩
    rw [isNext]
    exact ⟨by simp [idle, items], rfl, rfl⟩

variable (ledger : Ledger pool) (waits : call ∈ pool.waiting)

include ledger waits

theorem canServe_of_received {other : Call} {conn : Connection}
    (isReceived : pool.receiver = .received other conn) : pool.CanServe call := by
  refine .of_step .grant rfl (by rw [step?, isReceived]) ?_
  obtain ⟨action, next, helps, stepped, idle, isFree, sameWaiting⟩ :=
    (ledger.grant isReceived).refill (.inl ⟨_, mem_cons_self ..⟩)
  exact .of_step action helps stepped (.of_free isFree (sameWaiting ▸ waits) idle)

theorem canServe_of_idle (idle : pool.idle ≠ []) : pool.CanServe call := by
  cases isReceiver : pool.receiver with
  | free => exact .of_free isReceiver waits idle
  | received other conn => exact ledger.canServe_of_received waits isReceiver
  | receiving other =>
      obtain ⟨conn, available, received⟩ := recv_idle pool isReceiver idle
      exact .of_step .recv rfl received ((ledger.step received).canServe_of_received waits rfl)

theorem canServe_of_out
    (someOut : (∃ lease, lease ∈ pool.leases) ∨ ∃ conn, .built conn ∈ pool.tasks) :
    pool.CanServe call := by
  obtain ⟨action, next, helps, stepped, idle, -, sameWaiting⟩ := ledger.refill someOut
  exact .of_step action helps stepped
    ((ledger.step stepped).canServe_of_idle (sameWaiting ▸ waits) idle)

theorem canServe (someLeft : pool.failed < pool.size) : pool.CanServe call := by
  have slots := ledger.slots
  by_cases idle : pool.idle = []
  · cases isReceiver : pool.receiver with
    | received other conn => exact ledger.canServe_of_received waits isReceiver
    | free | receiving other =>
        rw [idle, granting, isReceiver] at slots
        by_cases leases : pool.leases = []
        · have someTask : pool.tasks ≠ [] := by
            intro noTasks
            simp [leases, noTasks] at slots
            omega
          obtain ⟨task, member⟩ := exists_mem_of_ne_nil _ someTask
          cases task with
          | built conn => exact ledger.canServe_of_out waits (.inr ⟨conn, member⟩)
          | building =>
              refine .of_step (.build true) rfl (if_pos member) ?_
              exact (ledger.build member true).canServe_of_out waits
                (.inr ⟨pool.nextConnection, mem_cons_self ..⟩)
        · obtain ⟨lease, member⟩ := exists_mem_of_ne_nil _ leases
          exact ledger.canServe_of_out waits (.inl ⟨lease, member⟩)
  · exact ledger.canServe_of_idle waits idle

end Ledger

theorem step_failed {action : Action} (stepped : pool.step? action = some next) :
    pool.failed ≤ next.failed := by
  have sent : ∀ (pool : ConnectionPool queue) conn, (pool.trySend conn).failed = pool.failed := by
    intro pool conn
    rw [trySend]
    split <;> rfl
  cases action with
  | recv => cases taken : queue.recv pool.available <;> grind [step?]
  | _ => grind [step?, leave, dropLease, invalidate, build, sendFresh]

theorem failed_lt_of_run (ledger : Ledger pool) (actions : List Action)
    (ran : (run? step? pool (actions ++ [.grant])).isSome = true) : pool.failed < pool.size := by
  induction actions generalizing pool with
  | nil =>
      have slots := ledger.slots
      cases isReceiver : pool.receiver with
      | received call conn =>
          rw [granting, isReceiver, length_singleton] at slots
          omega
      | free | receiving call => simp [run?, step?, isReceiver] at ran
  | cons action rest ih =>
      rw [cons_append, run?] at ran
      cases stepped : pool.step? action with
      | none => simp [stepped] at ran
      | some next =>
          rw [stepped] at ran
          have later := ih (ledger.step stepped) ran
          rw [(step_keeps stepped).1] at later
          exact Nat.lt_of_le_of_lt (step_failed stepped) later

end ConnectionPool

/-- In every state of every run, a call that waits for the lock can be served,
whichever call the lock lets in next, exactly when not all replenishments have
failed.  When all have, no call is ever served again. -/
theorem waiting_canServe_iff (queue : BoundedQueue Connection) (requested : Nat)
    {steps : List (Action × ConnectionPool queue)}
    (execution : Execution ConnectionPool.step? (new queue requested) steps) {call : Call}
    (waits : call ∈ (Execution.final (new queue requested) steps).waiting) :
    ((Execution.final (new queue requested) steps).CanServe call ↔
        (Execution.final (new queue requested) steps).failed < builderSize requested) ∧
      ((Execution.final (new queue requested) steps).failed = builderSize requested →
        ∀ actions, run? ConnectionPool.step? (Execution.final (new queue requested) steps)
          (actions ++ [.grant]) = none) := by
  have always : Execution.Always (fun pool : ConnectionPool queue =>
      Ledger pool ∧ pool.size = builderSize requested) (new queue requested) steps :=
    Execution.always_of_preserved
      (fun pool action next known stepped =>
        ⟨known.1.step stepped, (step_keeps stepped).1.trans known.2⟩)
      execution ⟨Ledger.new queue requested, rfl⟩
  obtain ⟨ledger, sameSize⟩ := always.final
  rw [← sameSize]
  refine ⟨⟨?_, ledger.canServe waits⟩, fun allFailed actions => ?_⟩
  · rintro ⟨actions, -, ran⟩
    exact failed_lt_of_run ledger (actions ++ [.lock call, .recv]) (by simpa using ran)
  · by_contra ran
    have someLeft := failed_lt_of_run ledger actions (Option.isSome_iff_ne_none.mpr ran)
    omega

/-- A call on a new pool can be served. -/
theorem waiting_canServe_iff_new : ∃ steps, steps.map Prod.fst = [Action.acquire 7] ∧
    (Execution.final (new (listQueue Connection) 2) steps).CanServe 7 :=
  ⟨[(_, _)], rfl, (waiting_canServe_iff (listQueue Connection) 2 (.cons rfl (.nil _))
    (mem_cons_self ..)).1.mpr (by decide)⟩

/-!
## Connections come out in the order in which they went in
-/

namespace ConnectionPool

/-- The connection that a step takes out of the queue. -/
def takenOut (pool : ConnectionPool queue) : Action → List Connection
  | .recv => pool.idle.take 1
  | _ => []

/-- The connection that a step puts back. -/
def putBack (_ : ConnectionPool queue) : Action → List Connection
  | .dropLease lease => lease.conn.toList
  | .sendFresh conn => [conn]
  | _ => []

theorem Ledger.queued (ledger : Ledger pool) {action : Action}
    (stepped : pool.step? action = some next) :
    pool.takenOut action ++ next.idle = pool.idle ++ pool.putBack action := by
  cases action with
  | recv =>
      rw [step?] at stepped
      split at stepped
      · obtain ⟨taken, isTaken, isNext⟩ := Option.map_eq_some_iff.mp stepped
        cases isNext
        have items : pool.idle = _ := (queue.recv_eq_some isTaken).1
        rw [takenOut, items]
        exact (List.append_nil _).symm
      · cases stepped
  | grant =>
      rw [step?] at stepped
      split at stepped
      · cases stepped
        exact (queue.items_release _).trans (List.append_nil _).symm
      · cases stepped
  | dropLease lease =>
      rw [step?, Option.ite_none_right_eq_some] at stepped
      cases stepped.2
      obtain ⟨conn, isHeld⟩ := ledger.held lease stepped.1
      obtain ⟨available, isNext, items, -⟩ := ledger.dropLease_eq stepped.1 isHeld
      rw [isNext, putBack, isHeld]
      exact items
  | sendFresh conn =>
      rw [step?, Option.ite_none_right_eq_some] at stepped
      cases stepped.2
      obtain ⟨available, isNext, items, -⟩ := ledger.sendFresh_eq stepped.1
      rw [isNext]
      exact items
  | acquire call | lock call | leave call reason | invalidate lease | build succeeds =>
      have untouched : next.available = pool.available := by
        grind [step?, leave, ConnectionPool.invalidate, ConnectionPool.build]
      rw [idle, untouched]
      exact (List.append_nil _).symm

end ConnectionPool

/-- Over every run, the connections taken out and then those still in the queue are
those of the new pool and then those put back, in order. -/
theorem connections_inOrder (queue : BoundedQueue Connection) (requested : Nat)
    {steps : List (Action × ConnectionPool queue)}
    (execution : Execution ConnectionPool.step? (new queue requested) steps) :
    Execution.contributions takenOut (new queue requested) steps ++
        (Execution.final (new queue requested) steps).idle =
      (new queue requested).idle ++
        Execution.contributions putBack (new queue requested) steps := by
  have ledger := Ledger.new queue requested
  generalize new queue requested = pool at execution ledger ⊢
  induction execution with
  | nil => exact (List.append_nil _).symm
  | cons first _ ih =>
      rw [Execution.contributions, Execution.contributions, Execution.final, List.append_assoc,
        ih (ledger.step first), ← List.append_assoc, ledger.queued first, List.append_assoc]

/-- The first call on a new pool takes out the first connection. -/
theorem connections_inOrder_first : ∃ steps,
    steps.map Prod.fst = [Action.acquire 7, .lock 7, .recv] ∧
      Execution.contributions takenOut (new (listQueue Connection) 2) steps ++
          (Execution.final (new (listQueue Connection) 2) steps).idle = [0, 1] :=
  ⟨[(_, _), (_, _), (_, _)], rfl,
    connections_inOrder (listQueue Connection) 2 (.cons rfl (.cons rfl (.cons rfl (.nil _))))⟩

end Nlink.Netlink.Pool
