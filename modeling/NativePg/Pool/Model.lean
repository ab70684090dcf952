/-
  File:      NativePg/Pool/Model.lean
  Subject:   The connection pool (src/nativepg_internal/connection_pool/).

  * `NodeStatus`, `nextStatus`, `Node` -- `sansio_connection_node` and `connection_node`: what a
    connection is doing, and what the task that runs it does next;
  * `Shared` -- `conn_shared_state`. The timer `idle_connections_cv` is known by the calls of
    `get_connection` that wait on it: those parked, and those it has let go that have not resumed
    yet. All parked calls are alike, so their number is enough; of a call it has let go the model
    keeps whether a stop was requested of it;
  * `Pool` -- `co_connection_pool_impl`, the point its `run()` is at, and the connections users
    hold. A node is known by its index in `all_conns_`, from which nothing is ever removed;
  * `PoolAction`, `Pool.step` -- everything that can happen next: a coroutine runs from one point
    where it waits to the next. An action that is not possible is `none`; a `BOOST_ASSERT` that
    fires and a node that is not there are faults.
-/
import NativePg.ErrorCode

namespace NativePg

namespace Pooling

/-! ## 1. Connection nodes -/

/-- `node_status`. -/
inductive NodeStatus where
  | initial
  | connectInProgress
  | sleepConnectFailedInProgress
  | resetInProgress
  | pingInProgress
  | idle
  | inUse
  | terminated
  deriving DecidableEq, Repr

/-- `next_connection_action`. -/
inductive NextConnectionAction where
  | none
  | connect
  | sleepConnectFailed
  | idleWait
  | reset
  | ping
  deriving DecidableEq, Repr

/-- `collection_state`. -/
inductive CollectionState where
  | none
  | needsCollect
  | needsCollectWithReset
  deriving DecidableEq, Repr

namespace NodeStatus

/-- `is_pending`. -/
def isPending : NodeStatus → Bool
  | .initial | .idle | .inUse | .terminated => false
  | _ => true

/-- `status_to_action`. -/
def action : NodeStatus → NextConnectionAction
  | .connectInProgress => .connect
  | .sleepConnectFailedInProgress => .sleepConnectFailed
  | .pingInProgress => .ping
  | .resetInProgress => .reset
  | .idle | .inUse => .idleWait
  | .initial | .terminated => .none

end NodeStatus

/-- How far the task of a node has come: `run_async` has launched it, `run()` has begun, `run()` has
    returned. -/
inductive Task where
  | launched
  | running
  | finished
  deriving DecidableEq, Repr

/-- `connection_node`, with the task that runs it. -/
structure Node where
  status : NodeStatus := .initial
  collectionState : CollectionState := .none
  /-- `collection_ev_` is set. -/
  collectionEv : Bool := false
  /-- `last_act_`, in `run`. -/
  lastAct : NextConnectionAction := .none
  task : Task := .launched
  deriving DecidableEq, Repr

/-! ## 2. What the nodes share -/

/-- `conn_shared_state`. -/
structure Shared where
  /-- `idle_list` -/
  idleList : List Nat := []
  /-- The calls parked on `idle_connections_cv`. -/
  parked : Nat := 0
  /-- The calls `idle_connections_cv` has let go: has a stop been requested? -/
  runnable : List Bool := []
  numPendingConnections : Nat := 0
  numPendingRequests : Nat := 0
  numRunningConnections : Nat := 0
  /-- `conns_finished_cv` is set. -/
  connsFinished : Bool := false
  deriving DecidableEq, Repr

namespace Shared

/-- `idle_connections_cv.cancel_one()`. -/
def cancelOne (st : Shared) : Shared :=
  if st.parked = 0 then st
  else { st with parked := st.parked - 1, runnable := st.runnable ++ [false] }

/-- `idle_connections_cv.expires_at(min)`: every wait is over. -/
def cancelAll (st : Shared) : Shared :=
  { st with parked := 0, runnable := st.runnable ++ List.replicate st.parked false }

/-- `on_connection_start`. -/
def onConnectionStart (st : Shared) : Shared :=
  { st with numRunningConnections := st.numRunningConnections + 1 }

/-- `on_connection_finish`. -/
def onConnectionFinish (st : Shared) : Shared :=
  let st := { st with numRunningConnections := st.numRunningConnections - 1 }
  if st.numRunningConnections = 0 then { st with connsFinished := true } else st

/-- `entering_idle`, of node `i`. -/
def enteringIdle (st : Shared) (i : Nat) : Shared :=
  { st with idleList := st.idleList ++ [i] }.cancelOne

/-- `exiting_idle`, of node `i`. -/
def exitingIdle (st : Shared) (i : Nat) : Shared := { st with idleList := st.idleList.erase i }

/-- `entering_pending`. -/
def enteringPending (st : Shared) : Shared :=
  { st with numPendingConnections := st.numPendingConnections + 1 }

/-- `exiting_pending`. -/
def exitingPending (st : Shared) : Shared :=
  { st with numPendingConnections := st.numPendingConnections - 1 }

/-- The hooks `set_status` calls when node `i` leaves the first status for the second. -/
def hooks (st : Shared) (i : Nat) (status newStatus : NodeStatus) : Shared :=
  let st :=
    if newStatus = .idle ∧ status ≠ .idle then st.enteringIdle i
    else if newStatus ≠ .idle ∧ status = .idle then st.exitingIdle i
    else st
  if !status.isPending && newStatus.isPending then st.enteringPending
  else if status.isPending && !newStatus.isPending then st.exitingPending
  else st

end Shared

namespace Node

/-- `set_status`, of node `i`. The result is the action it returns. -/
def setStatus (node : Node) (i : Nat) (st : Shared) (newStatus : NodeStatus) :
    NextConnectionAction × Shared × Node :=
  (newStatus.action, st.hooks i node.status newStatus, { node with status := newStatus })

/-- `mark_as_in_use`. -/
def markAsInUse (node : Node) (i : Nat) (st : Shared) : Checked (Shared × Node) :=
  if node.status = .idle then .ok (node.setStatus i st .inUse).2 else .error .assertion

/-- `sansio_connection_node::resume`. -/
def resume (node : Node) (i : Nat) (st : Shared) (ec : ErrorCode) (colSt : CollectionState) :
    NextConnectionAction × Shared × Node :=
  match node.status with
  | .initial => node.setStatus i st .connectInProgress
  | .connectInProgress =>
      if ec.failed then node.setStatus i st .sleepConnectFailedInProgress
      else node.setStatus i st .idle
  | .sleepConnectFailedInProgress => node.setStatus i st .connectInProgress
  -- the wait finished with no interruptions: time to ping
  | .idle => node.setStatus i st .pingInProgress
  | .inUse =>
      match colSt with
      | .needsCollect => node.setStatus i st .idle
      | .needsCollectWithReset => node.setStatus i st .resetInProgress
      -- the user is still using the connection
      | .none => (.idleWait, st, node)
  | .pingInProgress | .resetInProgress =>
      if ec.failed then node.setStatus i st .connectInProgress else node.setStatus i st .idle
  | .terminated => (.none, st, node)

/-- The head of the loop of `run`: where a stop was requested, or nothing is left to do, the task
    finishes. -/
def loopTop (node : Node) (stopped : Bool) (st : Shared) : Shared × Node :=
  if stopped ∨ node.lastAct = .none then
    (st.onConnectionFinish, { node with task := .finished })
  else (st, node)

/-- `run`, up to the first operation it waits for. -/
def start (node : Node) (i : Nat) (stopped : Bool) (st : Shared) : Shared × Node :=
  let node := { node with task := .running }
  let (act, st, node) := node.resume i st.onConnectionStart .success .none
  { node with lastAct := act }.loopTop stopped st

/-- `run`, from the operation it waits for, which ends with `ec`, to the next. A reset runs no
    operation so far, and goes on with success; any code is taken here. -/
def proceed (node : Node) (i : Nat) (ec : ErrorCode) (stopped : Bool) (st : Shared) :
    Shared × Node :=
  let (act, st, node) :=
    if node.lastAct = .idleWait then
      { node with collectionEv := false, collectionState := .none }.resume i st ec
        node.collectionState
    else node.resume i st ec .none
  { node with lastAct := act }.loopTop stopped st

/-- `mark_as_collectable`. -/
def markAsCollectable (node : Node) (shouldReset : Bool) : Node :=
  { node with
    collectionState := if shouldReset then .needsCollectWithReset else .needsCollect
    collectionEv := true }

end Node

/-! ## 3. The pool -/

/-- `pool_params`, without the transport; the durations by their `count()`. -/
structure PoolParams where
  initialSize : Nat := 1
  maxSize : Nat := 151
  connectTimeout : Int := 20000000000
  retryInterval : Int := 30000000000
  pingInterval : Int := 30000000000
  pingTimeout : Int := 10000000000
  deriving DecidableEq, Repr

/-- `check_pool_params`: the message of the exception it throws. -/
def checkPoolParams (params : PoolParams) : Option String :=
  if params.maxSize = 0 then some "pool_params::max_size must be greater than zero"
  else if params.maxSize < params.initialSize then
    some "pool_params::max_size must be greater than pool_params::initial_size"
  else if params.connectTimeout < 0 then some "pool_params::connect_timeout must not be negative"
  else if params.retryInterval ≤ 0 then some "pool_params::retry_interval must be greater than zero"
  else if params.pingInterval < 0 then some "pool_params::ping_interval must not be negative"
  else if params.pingTimeout < 0 then some "pool_params::ping_timeout must not be negative"
  else none

/-- `num_connections_to_create`. -/
def numConnectionsToCreate (initialSize maxSize currentConnections pendingConnections
    pendingRequests : Nat) : Checked Nat :=
  if initialSize ≤ maxSize ∧ currentConnections ≤ maxSize ∧
      pendingConnections ≤ currentConnections then
    let requiredByRequests :=
      if pendingRequests > pendingConnections then pendingRequests - pendingConnections else 0
    let requiredByMin :=
      if currentConnections < initialSize then initialSize - currentConnections else 0
    let room := maxSize - currentConnections
    .ok (min (max requiredByRequests requiredByMin) room)
  else .error .assertion

/-- `co_connection_pool_impl::state_t`. -/
inductive PoolState where
  | initial
  | running
  | cancelled
  deriving DecidableEq, Repr

/-- Where `run()` is: not called yet, at the wait for `connections_needed_`, at the wait for
    `conns_finished_cv`, or done. -/
inductive RunPoint where
  | notCalled
  | waitsForNeed
  | waitsForTasks
  | returned
  deriving DecidableEq, Repr

/-- `co_connection_pool_impl`, where its `run()` is, and the nodes in users' `pooled_connection`s. -/
structure Pool where
  params : PoolParams
  state : PoolState := .initial
  allConns : List Node := []
  sharedSt : Shared := {}
  /-- `cancel_ev_` is set. -/
  cancelEv : Bool := false
  /-- `connections_needed_` is set. -/
  connectionsNeeded : Bool := false
  runPoint : RunPoint := .notCalled
  holders : List Nat := []
  deriving DecidableEq, Repr

namespace Pool

/-- `create_connections`; `create_connection` adds a node and launches its task. -/
def createConnections (p : Pool) : Checked Pool := do
  let n ← numConnectionsToCreate p.params.initialSize p.params.maxSize p.allConns.length
    p.sharedSt.numPendingConnections p.sharedSt.numPendingRequests
  if p.allConns.length + n ≤ p.params.maxSize then
    pure { p with allConns := p.allConns ++ List.replicate n {} }
  else .error .assertion

/-- `enter_request_pending`. -/
def enterRequestPending (p : Pool) : Pool :=
  { p with
    sharedSt := { p.sharedSt with numPendingRequests := p.sharedSt.numPendingRequests + 1 }
    connectionsNeeded := true }

/-- `exit_request_pending`. -/
def exitRequestPending (p : Pool) : Checked Pool :=
  if p.sharedSt.numPendingRequests > 0 then
    .ok { p with
      sharedSt := { p.sharedSt with numPendingRequests := p.sharedSt.numPendingRequests - 1 } }
  else .error .assertion

/-- `try_get_connection`: the node it returns. -/
def tryGetConnection (p : Pool) : Checked (Option Nat × Pool) :=
  match p.sharedSt.idleList with
  | [] => .ok (none, p)
  | i :: _ =>
    match p.allConns[i]? with
    | none => .error .outOfRange
    | some node => do
      let (st, node) ← node.markAsInUse i p.sharedSt
      pure (some i, { p with sharedSt := st, allConns := p.allConns.set i node })

/-- A call of `get_connection` goes to sleep on `idle_connections_cv`. -/
def park (p : Pool) : Pool :=
  let p := p.enterRequestPending
  { p with sharedSt := { p.sharedSt with parked := p.sharedSt.parked + 1 } }

/-- `run`, up to its first wait. -/
def run (p : Pool) : Checked Pool :=
  if p.state = .initial then do
    let p ← createConnections { p with state := .running }
    pure { p with runPoint := .waitsForNeed }
  else .error .assertion

/-- The loop of `run` once round, after a notification. -/
def onConnectionsNeeded (p : Pool) : Checked Pool :=
  createConnections { p with connectionsNeeded := false }

/-- The end of `run`, from the cancellation of its wait on. -/
def onCancel (p : Pool) : Pool :=
  { p with
    state := .cancelled
    cancelEv := true
    sharedSt := p.sharedSt.cancelAll
    runPoint := if p.allConns.isEmpty then .returned else .waitsForTasks }

/-- `get_connection`, up to its return or its first wait. -/
def getConnection (p : Pool) : Checked Pool :=
  if p.state = .cancelled then .ok p
  else do
    let (node, p) ← p.tryGetConnection
    match node with
    | some i => pure { p with holders := p.holders ++ [i] }
    | none => pure p.park

/-- The loop of `get_connection`, from one wait to the return or the next wait. -/
def onWake (p : Pool) (stopRequested : Bool) : Checked Pool := do
  let p ← p.exitRequestPending
  if p.state = .cancelled then pure p
  else
    let (node, p) ← p.tryGetConnection
    match node with
    | some i => pure { p with holders := p.holders ++ [i] }
    | none => if stopRequested then pure p else pure p.park

/-- What the task of node `i` makes of the pool. -/
def withNode (p : Pool) (i : Nat) (r : Shared × Node) : Pool :=
  { p with sharedSt := r.1, allConns := p.allConns.set i r.2 }

end Pool

/-! ## 4. Steps -/

/-- What can happen to a pool. -/
inductive PoolAction where
  /-- The user calls `run()`. -/
  | run
  /-- `run()` finds `connections_needed_` set. -/
  | connectionsNeeded
  /-- `run()` is told to stop. -/
  | cancel
  /-- `run()` finds `conns_finished_cv` set. -/
  | connsFinished
  /-- The task of node `i` starts; it may find that a stop was requested. -/
  | start (i : Nat) (stopped : Bool)
  /-- The operation the task of node `i` waits for ends. -/
  | proceed (i : Nat) (ec : ErrorCode) (stopped : Bool)
  /-- A user calls `get_connection`. -/
  | getConnection
  /-- A stop is requested of a call that is parked. -/
  | stopParked
  /-- A stop is requested of the call at `k` among those that were let go. -/
  | stopRunnable (k : Nat)
  /-- The call at `k` among those that were let go resumes. -/
  | wake (k : Nat)
  /-- The user at `k` among those that hold a connection returns it. -/
  | giveBack (k : Nat) (shouldReset : Bool)
  deriving DecidableEq, Repr

/-- The operation a node waits for can end: a stop ends any, the wait for the user to return the
    connection ends when it is returned or after the ping interval, and any other ends by itself. -/
def Node.canProceed (node : Node) (params : PoolParams) (stopped : Bool) : Bool :=
  stopped || node.lastAct ≠ .idleWait || node.collectionEv || 0 < params.pingInterval

namespace Pool

/-- One step. The token of a node's task is stopped by `cancel_ev_` only. -/
def step (p : Pool) : PoolAction → Option (Checked Pool)
  | .run => if p.runPoint = .notCalled then some p.run else none
  | .connectionsNeeded =>
      if p.runPoint = .waitsForNeed ∧ p.connectionsNeeded then some p.onConnectionsNeeded else none
  | .cancel => if p.runPoint = .waitsForNeed then some (.ok p.onCancel) else none
  | .connsFinished =>
      if p.runPoint = .waitsForTasks ∧ p.sharedSt.connsFinished then
        some (.ok { p with runPoint := .returned })
      else none
  | .start i stopped => do
      let node ← p.allConns[i]?
      if node.task = .launched ∧ (stopped → p.cancelEv) then
        some (.ok (p.withNode i (node.start i stopped p.sharedSt)))
      else none
  | .proceed i ec stopped => do
      let node ← p.allConns[i]?
      if node.task = .running ∧ (stopped → p.cancelEv) ∧ node.canProceed p.params stopped then
        some (.ok (p.withNode i (node.proceed i ec stopped p.sharedSt)))
      else none
  | .getConnection => some p.getConnection
  | .stopParked =>
      if 0 < p.sharedSt.parked then
        some (.ok { p with sharedSt := { p.sharedSt with
          parked := p.sharedSt.parked - 1
          runnable := p.sharedSt.runnable ++ [true] } })
      else none
  | .stopRunnable k =>
      if k < p.sharedSt.runnable.length then
        some (.ok { p with
          sharedSt := { p.sharedSt with runnable := p.sharedSt.runnable.set k true } })
      else none
  | .wake k => do
      let stopRequested ← p.sharedSt.runnable[k]?
      some (onWake { p with
        sharedSt := { p.sharedSt with runnable := p.sharedSt.runnable.eraseIdx k } } stopRequested)
  | .giveBack k shouldReset => do
      let i ← p.holders[k]?
      let node ← p.allConns[i]?
      some (.ok { p with
        holders := p.holders.eraseIdx k
        allConns := p.allConns.set i (node.markAsCollectable shouldReset) })

/-- The pool as constructed. -/
def new (params : PoolParams) : Pool := { params }

/-- The pools a new one can become, by the actions that were taken. -/
inductive Reaches (params : PoolParams) : List PoolAction → Pool → Prop where
  | new : Reaches params [] (new params)
  | step {as p a p'} (h : Reaches params as p) (hs : p.step a = some (.ok p')) :
      Reaches params (as ++ [a]) p'

end Pool

end Pooling

end NativePg
