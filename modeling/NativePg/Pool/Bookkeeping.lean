/-
  File:      NativePg/Pool/Bookkeeping.lean
  Subject:   What the pool knows about its connections is true.

  * `Node.Inv`, `Node.Moves` -- a node by itself: what holds of it, and what its task can make of it.
    `Node.start_spec`, `Node.proceed_spec`;
  * `Pool.Inv` -- the idle list, the two counters, the connections users hold and the size of the
    pool. `Inv.update`: a node moves, and the hooks are called;
  * `step_inv` -- every action keeps it, and no assertion fires;
  * **`reaches_bookkeeping`** -- so it holds of every pool.
-/
import Mathlib.Data.List.Nodup
import NativePg.Pool.Model

namespace NativePg

namespace Pooling

/-! ## 1. Counting -/

section
variable {α : Type} {l : List α} {i : Nat} {a : α}

/-- What one entry of a list counts for. -/
theorem countP_set_add (h : l[i]? = some a) (b : α) (q : α → Bool) :
    (l.set i b).countP q + (if q a then 1 else 0) = l.countP q + if q b then 1 else 0 := by
  obtain ⟨hi, ha⟩ := List.getElem?_eq_some_iff.mp h
  have hle : (if q l[i] = true then 1 else 0) ≤ l.countP q := List.boole_getElem_le_countP hi
  rw [List.countP_set hi, ← ha]
  omega

theorem mem_set_of {b c : α} (h : c ∈ l.set i b) : c ∈ l ∨ c = b := by
  rcases List.mem_or_eq_of_mem_set h with h | h
  · exact .inl h
  · exact .inr h

theorem getElem?_set_of {b : α} (h : l[i]? = some a) (k : Nat) :
    (l.set i b)[k]? = if k = i then some b else l[k]? := by
  obtain ⟨hi, -⟩ := List.getElem?_eq_some_iff.mp h
  by_cases hk : k = i
  · rw [if_pos hk, hk, List.getElem?_set_self hi]
  · rw [if_neg hk, List.getElem?_set_ne (Ne.symm hk)]

end

/-! ## 2. Nodes -/

namespace Node

/-- What holds of a node, whatever else happens in the pool. -/
structure Inv (node : Node) : Prop where
  collected : node.collectionState ≠ .none → node.status = .inUse
  launched : node.task = .launched ↔ node.status = .initial
  action : node.task = .running → node.lastAct = node.status.action
  alive : node.status ≠ .terminated

/-- The statuses a task can take its node to. -/
structure Moves (node : Node) (s : NodeStatus) : Prop where
  ne_initial : s ≠ .initial
  ne_terminated : s ≠ .terminated
  /-- A connection leaves its user only after it was returned. -/
  returned : node.status = .inUse → s = .inUse ∨ node.collectionState ≠ .none
  /-- Only `mark_as_in_use` gives it to a user. -/
  inUse : s = .inUse → node.status = .inUse ∧ node.collectionState = .none
  /-- A connection is ready, or goes on getting ready. -/
  pending : node.status.isPending = true ∨ node.status = .initial → s.isPending = true ∨ s = .idle
  /-- Nothing keeps a connection idle. -/
  idle : node.status = .idle → s.isPending = true

/-- A node as its task leaves it, in the status `s`: only a stop ends the task. -/
structure Leaves (node : Node) (i : Nat) (stopped : Bool) (st : Shared) (s : NodeStatus)
    (r : Shared × Node) : Prop where
  status : r.2.status = s
  collectionState : r.2.collectionState = .none
  action : r.2.lastAct = s.action
  shared : r.1 = if stopped then (st.hooks i node.status s).onConnectionFinish
    else st.hooks i node.status s
  task : r.2.task = if stopped then .finished else .running

theorem Inv.none_of_ne {node : Node} (h : node.Inv) (hne : node.status ≠ .inUse) :
    node.collectionState = .none := by
  by_contra hcol
  exact hne (h.collected hcol)

theorem Moves.action_ne {node : Node} {s : NodeStatus} (hm : node.Moves s) : s.action ≠ .none := by
  cases s with
  | initial => exact absurd rfl hm.ne_initial
  | terminated => exact absurd rfl hm.ne_terminated
  | _ => nofun

theorem Leaves.inv {node : Node} {i : Nat} {stopped : Bool} {st : Shared} {s : NodeStatus}
    {r : Shared × Node} (h : node.Leaves i stopped st s r) (hm : node.Moves s) : r.2.Inv where
  collected hcol := absurd h.collectionState hcol
  launched := by
    rw [h.status, h.task]
    refine iff_of_false ?_ hm.ne_initial
    cases stopped <;> simp
  action _ := by rw [h.action, h.status]
  alive := by
    rw [h.status]
    exact hm.ne_terminated

/-- The status `resume` sets. -/
def nextStatus (ec : ErrorCode) (colSt : CollectionState) : NodeStatus → NodeStatus
  | .initial | .sleepConnectFailedInProgress => .connectInProgress
  | .connectInProgress => if ec.failed then .sleepConnectFailedInProgress else .idle
  | .idle => .pingInProgress
  | .inUse =>
      match colSt with
      | .needsCollect => .idle
      | .needsCollectWithReset => .resetInProgress
      | .none => .inUse
  | .pingInProgress | .resetInProgress => if ec.failed then .connectInProgress else .idle
  | .terminated => .terminated

theorem resume_eq (node : Node) (i : Nat) (st : Shared) (ec : ErrorCode) (colSt : CollectionState) :
    node.resume i st ec colSt = ((nextStatus ec colSt node.status).action,
      st.hooks i node.status (nextStatus ec colSt node.status),
      { node with status := nextStatus ec colSt node.status }) := by
  obtain ⟨status, collectionState, collectionEv, lastAct, task⟩ := node
  unfold resume
  cases status with
  | initial | sleepConnectFailedInProgress | idle | terminated => rfl
  | connectInProgress | pingInProgress | resetInProgress =>
    by_cases hec : ec.failed = true <;> simp only [nextStatus, hec, if_true] <;> rfl
  | inUse => cases colSt <;> rfl

/-- The head of the loop, after `resume` has set the status. -/
theorem loopTop_leaves {node node' : Node} (i : Nat) (st : Shared) {s : NodeStatus}
    (hm : node.Moves s) (stopped : Bool) (hs : node'.status = s)
    (hcol : node'.collectionState = .none) (hact : node'.lastAct = s.action)
    (htask : node'.task = .running) :
    node.Leaves i stopped st s (node'.loopTop stopped (st.hooks i node.status s)) := by
  unfold loopTop
  cases stopped with
  | true =>
    rw [if_pos (.inl rfl)]
    exact ⟨hs, hcol, hact, rfl, rfl⟩
  | false =>
    have hgoes : ¬ (false = true ∨ node'.lastAct = .none) := by
      rw [hact]
      exact fun h => h.elim nofun hm.action_ne
    rw [if_neg hgoes]
    exact ⟨hs, hcol, hact, rfl, htask⟩

/-- A task that starts connects. -/
theorem start_spec {node : Node} (h : node.Inv) (htask : node.task = .launched) (i : Nat)
    (stopped : Bool) (st : Shared) :
    node.Moves .connectInProgress ∧
      node.Leaves i stopped st.onConnectionStart .connectInProgress (node.start i stopped st) := by
  have hstatus := h.launched.mp htask
  have hcol : node.collectionState = .none := h.none_of_ne (by rw [hstatus]; decide)
  have hnext : nextStatus .success .none node.status = .connectInProgress := by rw [hstatus]; rfl
  have hm : node.Moves .connectInProgress := by
    constructor <;> simp [hstatus, NodeStatus.isPending]
  refine ⟨hm, ?_⟩
  unfold start
  simp only [resume_eq, hnext]
  exact loopTop_leaves i st.onConnectionStart hm stopped rfl hcol rfl rfl

/-- **A task that goes on**: where it can take its node. -/
theorem moves_nextStatus {node : Node} (h : node.Inv) (htask : node.task = .running)
    (ec : ErrorCode) : node.Moves (nextStatus ec node.collectionState node.status) := by
  have hinitial : node.status ≠ .initial := by
    intro hstatus
    rw [h.launched.mpr hstatus] at htask
    cases htask
  have hcol := h.collected
  have halive := h.alive
  cases hstatus : node.status with
  | initial => exact absurd hstatus hinitial
  | terminated => exact absurd hstatus halive
  | connectInProgress | pingInProgress | resetInProgress =>
    cases hec : ec.failed <;> constructor <;>
      simp [hstatus, nextStatus, hec, NodeStatus.isPending]
  | sleepConnectFailedInProgress | idle =>
    constructor <;> simp [hstatus, nextStatus, NodeStatus.isPending]
  | inUse =>
    cases hcollect : node.collectionState <;> constructor <;>
      simp [hstatus, nextStatus, hcollect, NodeStatus.isPending]

theorem proceed_spec {node : Node} (h : node.Inv) (htask : node.task = .running) (i : Nat)
    (ec : ErrorCode) (stopped : Bool) (st : Shared) :
    node.Leaves i stopped st (nextStatus ec node.collectionState node.status)
      (node.proceed i ec stopped st) := by
  have hact := h.action htask
  have hm := moves_nextStatus h htask ec
  unfold proceed
  by_cases hwait : node.lastAct = .idleWait
  · simp only [if_pos hwait, resume_eq]
    exact loopTop_leaves i st hm stopped rfl rfl rfl htask
  · -- only a node that is idle or in use waits, so there is nothing to collect
    have hcol : node.collectionState = .none := by
      refine h.none_of_ne fun hstatus => hwait ?_
      rw [hact, hstatus]
      rfl
    simp only [if_neg hwait, resume_eq]
    rw [hcol] at hm ⊢
    exact loopTop_leaves i st hm stopped rfl rfl rfl htask

end Node

/-! ## 3. The hooks -/

namespace Shared

@[simp] theorem idleList_cancelOne (st : Shared) : st.cancelOne.idleList = st.idleList := by
  unfold cancelOne
  split <;> rfl

@[simp] theorem numPendingConnections_cancelOne (st : Shared) :
    st.cancelOne.numPendingConnections = st.numPendingConnections := by
  unfold cancelOne
  split <;> rfl

@[simp] theorem numPendingRequests_cancelOne (st : Shared) :
    st.cancelOne.numPendingRequests = st.numPendingRequests := by
  unfold cancelOne
  split <;> rfl

/-- `cancel_one` lets a call go; it goes on waiting for its turn. -/
theorem waiting_cancelOne (st : Shared) :
    st.cancelOne.parked + st.cancelOne.runnable.length = st.parked + st.runnable.length := by
  unfold cancelOne
  by_cases h : st.parked = 0
  · rw [if_pos h]
  · rw [if_neg h, List.length_append, List.length_singleton]
    show st.parked - 1 + (st.runnable.length + 1) = _
    omega

section
variable (st : Shared) (i : Nat) (s s' : NodeStatus)

/-- What the hooks do, the count of pending connections apart. -/
theorem hooks_apart {α : Type} (f : Shared → α)
    (hf : ∀ st n, f { st with numPendingConnections := n } = f st) :
    f (st.hooks i s s') =
      if s' = .idle ∧ s ≠ .idle then f (st.enteringIdle i)
      else if s' ≠ .idle ∧ s = .idle then f (st.exitingIdle i) else f st := by
  have hpending : ∀ st : Shared, f (if !s.isPending && s'.isPending then st.enteringPending
      else if s.isPending && !s'.isPending then st.exitingPending else st) = f st := by
    intro st
    split
    · exact hf _ _
    · split
      · exact hf _ _
      · rfl
  unfold hooks
  rw [hpending]
  split
  · rfl
  · split <;> rfl

theorem idleList_hooks :
    (st.hooks i s s').idleList =
      if s' = .idle ∧ s ≠ .idle then st.idleList ++ [i]
      else if s' ≠ .idle ∧ s = .idle then st.idleList.erase i else st.idleList := by
  rw [hooks_apart st i s s' (·.idleList) fun _ _ => rfl]
  simp [enteringIdle, exitingIdle]

/-- **The hooks keep the idle list**, where the list says that a node is idle when it is. -/
theorem mem_idleList_hooks {st : Shared} {i : Nat} {s s' : NodeStatus} (hnodup : st.idleList.Nodup)
    (hmem : i ∈ st.idleList ↔ s = .idle) (k : Nat) :
    k ∈ (st.hooks i s s').idleList ↔ (k ≠ i ∧ k ∈ st.idleList) ∨ (k = i ∧ s' = .idle) := by
  rw [idleList_hooks]
  by_cases hs : s = .idle <;> by_cases hs' : s' = .idle
  · have hi := hmem.mpr hs
    simp only [hs, hs', ne_eq, not_true_eq_false, and_false, if_false, and_true]
    by_cases hk : k = i
    · simp [hk, hi]
    · simp [hk]
  · simp only [hs, hs', false_and, if_false, ne_eq, not_false_eq_true, true_and, if_true,
      and_false, or_false]
    rw [hnodup.mem_erase_iff]
  · have hi : i ∉ st.idleList := fun hin => hs (hmem.mp hin)
    simp only [hs, hs', ne_eq, not_false_eq_true, and_self, if_true, List.mem_append,
      List.mem_singleton, and_true]
    constructor
    · rintro (hk | hk)
      · exact .inl ⟨fun e => hi (e ▸ hk), hk⟩
      · exact .inr hk
    · rintro (⟨-, hk⟩ | hk)
      · exact .inl hk
      · exact .inr hk
  · have hi : i ∉ st.idleList := fun hin => hs (hmem.mp hin)
    simp only [hs, hs', false_and, if_false, and_false, or_false]
    exact ⟨fun hk => ⟨fun e => hi (e ▸ hk), hk⟩, fun hk => hk.2⟩

theorem nodup_idleList_hooks {st : Shared} {i : Nat} {s s' : NodeStatus}
    (hnodup : st.idleList.Nodup) (hmem : i ∈ st.idleList ↔ s = .idle) :
    (st.hooks i s s').idleList.Nodup := by
  rw [idleList_hooks]
  split
  · rename_i henter
    refine List.nodup_append.mpr ⟨hnodup, List.nodup_singleton i, ?_⟩
    intro k hk k' hk' e
    rw [List.mem_singleton] at hk'
    exact henter.2 (hmem.mp (hk' ▸ e ▸ hk))
  · split
    · exact hnodup.erase i
    · exact hnodup

/-- The calls parked and the calls let go: an idle connection wakes one. -/
theorem calls_hooks :
    ((st.hooks i s s').parked, (st.hooks i s s').runnable) =
      if s' = .idle ∧ s ≠ .idle then (st.cancelOne.parked, st.cancelOne.runnable)
      else (st.parked, st.runnable) := by
  rw [hooks_apart st i s s' (fun st => (st.parked, st.runnable)) fun _ _ => rfl]
  have hcancel : ((st.enteringIdle i).parked, (st.enteringIdle i).runnable) =
      (st.cancelOne.parked, st.cancelOne.runnable) := by
    unfold enteringIdle cancelOne
    by_cases h : st.parked = 0 <;> simp [h]
  rw [hcancel]
  simp [exitingIdle]

theorem numPendingRequests_hooks :
    (st.hooks i s s').numPendingRequests = st.numPendingRequests := by
  rw [hooks_apart st i s s' (·.numPendingRequests) fun _ _ => rfl]
  simp [enteringIdle, exitingIdle]

theorem waiting_hooks :
    (st.hooks i s s').parked + (st.hooks i s s').runnable.length =
      st.parked + st.runnable.length := by
  have hcalls := calls_hooks st i s s'
  by_cases h : s' = .idle ∧ s ≠ .idle
  · rw [if_pos h] at hcalls
    obtain ⟨hparked, hrunnable⟩ := Prod.mk.inj hcalls
    rw [hparked, hrunnable, waiting_cancelOne]
  · rw [if_neg h] at hcalls
    obtain ⟨hparked, hrunnable⟩ := Prod.mk.inj hcalls
    rw [hparked, hrunnable]

theorem numPendingConnections_hooks :
    (st.hooks i s s').numPendingConnections =
      if !s.isPending && s'.isPending then st.numPendingConnections + 1
      else if s.isPending && !s'.isPending then st.numPendingConnections - 1
      else st.numPendingConnections := by
  have hidle : (if s' = .idle ∧ s ≠ .idle then st.enteringIdle i
      else if s' ≠ .idle ∧ s = .idle then st.exitingIdle i
      else st).numPendingConnections = st.numPendingConnections := by
    split
    · simp [enteringIdle]
    · split <;> rfl
  unfold hooks
  simp only
  split
  · simp only [enteringPending, hidle]
  · split
    · simp only [exitingPending, hidle]
    · exact hidle

end

/-- The two agree on everything but the count of running connections. -/
structure SameBooks (st st' : Shared) : Prop where
  idleList : st.idleList = st'.idleList
  parked : st.parked = st'.parked
  runnable : st.runnable = st'.runnable
  numPendingConnections : st.numPendingConnections = st'.numPendingConnections
  numPendingRequests : st.numPendingRequests = st'.numPendingRequests

theorem sameBooks_onConnectionFinish (st : Shared) : SameBooks st.onConnectionFinish st := by
  unfold onConnectionFinish
  simp only
  split <;> exact ⟨rfl, rfl, rfl, rfl, rfl⟩

theorem sameBooks_onConnectionStart (st : Shared) : SameBooks st.onConnectionStart st :=
  ⟨rfl, rfl, rfl, rfl, rfl⟩

theorem SameBooks.trans {st st' st'' : Shared} (h : SameBooks st st') (h' : SameBooks st' st'') :
    SameBooks st st'' :=
  ⟨h.idleList.trans h'.idleList, h.parked.trans h'.parked, h.runnable.trans h'.runnable,
    h.numPendingConnections.trans h'.numPendingConnections,
    h.numPendingRequests.trans h'.numPendingRequests⟩

theorem SameBooks.cancelOne {st st' : Shared} (h : SameBooks st st') :
    st.cancelOne.parked = st'.cancelOne.parked ∧ st.cancelOne.runnable = st'.cancelOne.runnable := by
  unfold Shared.cancelOne
  rw [h.parked]
  by_cases hzero : st'.parked = 0
  · rw [if_pos hzero, if_pos hzero]
    exact ⟨h.parked, h.runnable⟩
  · rw [if_neg hzero, if_neg hzero]
    exact ⟨rfl, by simp only [h.runnable]⟩

theorem SameBooks.hooks {st st' : Shared} (h : SameBooks st st') (i : Nat) (s s' : NodeStatus) :
    SameBooks (st.hooks i s s') (st'.hooks i s s') := by
  have hcalls : ((st.hooks i s s').parked, (st.hooks i s s').runnable) =
      ((st'.hooks i s s').parked, (st'.hooks i s s').runnable) := by
    rw [calls_hooks, calls_hooks, h.parked, h.runnable, h.cancelOne.1, h.cancelOne.2]
  obtain ⟨hparked, hrunnable⟩ := Prod.mk.inj hcalls
  refine ⟨?_, hparked, hrunnable, ?_, ?_⟩
  · rw [idleList_hooks, idleList_hooks, h.idleList]
  · rw [numPendingConnections_hooks, numPendingConnections_hooks, h.numPendingConnections]
  · rw [numPendingRequests_hooks, numPendingRequests_hooks, h.numPendingRequests]

end Shared

/-- **What a task does to the books**: the hooks, and nothing else. -/
theorem Node.Leaves.books {node : Node} {i : Nat} {stopped : Bool} {st st₀ : Shared}
    {s : NodeStatus} {r : Shared × Node} (hr : node.Leaves i stopped st s r)
    (hst : Shared.SameBooks st st₀) : Shared.SameBooks r.1 (st₀.hooks i node.status s) := by
  have hhooks := hst.hooks i node.status s
  rw [hr.shared]
  cases stopped with
  | false => exact hhooks
  | true => exact (Shared.sameBooks_onConnectionFinish _).trans hhooks

/-! ## 4. What holds of every pool -/

namespace Pool

/-- The state `run()` has left the pool in. -/
def stateAt : RunPoint → PoolState
  | .notCalled => .initial
  | .waitsForNeed => .running
  | .waitsForTasks | .returned => .cancelled

structure Inv (p : Pool) : Prop where
  state : p.state = stateAt p.runPoint
  params : checkPoolParams p.params = none
  nodes : ∀ node ∈ p.allConns, node.Inv
  nodup : p.sharedSt.idleList.Nodup
  idle : ∀ i, i ∈ p.sharedSt.idleList ↔
    ∃ node, p.allConns[i]? = some node ∧ node.status = .idle
  pending : p.sharedSt.numPendingConnections = p.allConns.countP (·.status.isPending)
  requests : p.sharedSt.numPendingRequests = p.sharedSt.parked + p.sharedSt.runnable.length
  unique : p.holders.Nodup
  held : ∀ i ∈ p.holders, ∃ node, p.allConns[i]? = some node ∧ node.status = .inUse ∧
    node.collectionState = .none
  size : p.allConns.length ≤ p.params.maxSize

section
variable {p : Pool}

theorem Inv.sizes (h : p.Inv) : p.params.initialSize ≤ p.params.maxSize := by
  have hparams := h.params
  by_contra hgt
  have hlt : p.params.maxSize < p.params.initialSize := by omega
  unfold checkPoolParams at hparams
  by_cases hzero : p.params.maxSize = 0
  · rw [if_pos hzero] at hparams
    cases hparams
  · rw [if_neg hzero, if_pos hlt] at hparams
    cases hparams

theorem Inv.getElem (h : p.Inv) {i : Nat} {node : Node} (hnode : p.allConns[i]? = some node) :
    node.Inv :=
  h.nodes node (List.mem_of_getElem? hnode)

theorem inv_new {params : PoolParams} (h : checkPoolParams params = none) : (new params).Inv where
  state := rfl
  params := h
  nodes := by simp [new]
  nodup := .nil
  idle := by simp [new]
  pending := rfl
  requests := rfl
  unique := .nil
  held := by simp [new]
  size := Nat.zero_le _

/-- **A node moves, and the hooks are called**: the rest of the shared state may be anything. -/
theorem Inv.update (h : p.Inv) {i : Nat} {node node' : Node} (hnode : p.allConns[i]? = some node)
    (hinv : node'.Inv) (st : Shared)
    (hidle : st.idleList = (p.sharedSt.hooks i node.status node'.status).idleList)
    (hpending : st.numPendingConnections =
      (p.sharedSt.hooks i node.status node'.status).numPendingConnections)
    (hrequests : st.numPendingRequests = st.parked + st.runnable.length)
    (hheld : i ∈ p.holders → node'.status = .inUse ∧ node'.collectionState = .none) :
    Inv (p.withNode i (st, node')) := by
  have hget : ∀ k, (p.allConns.set i node')[k]? = if k = i then some node' else p.allConns[k]? :=
    getElem?_set_of hnode
  have hmem : i ∈ p.sharedSt.idleList ↔ node.status = .idle := by
    rw [h.idle]
    constructor
    · rintro ⟨n, hn, hs⟩
      rw [hnode] at hn
      cases hn
      exact hs
    · exact fun hs => ⟨node, hnode, hs⟩
  have hmem' : ∀ k, k ∈ st.idleList ↔
      (k ≠ i ∧ k ∈ p.sharedSt.idleList) ∨ (k = i ∧ node'.status = .idle) := by
    intro k
    rw [hidle]
    exact Shared.mem_idleList_hooks h.nodup hmem k
  refine ⟨h.state, h.params, ?_, ?_, ?_, ?_, hrequests, h.unique, ?_, ?_⟩
  · intro n hn
    rcases mem_set_of hn with hn | rfl
    · exact h.nodes n hn
    · exact hinv
  · show st.idleList.Nodup
    rw [hidle]
    exact Shared.nodup_idleList_hooks h.nodup hmem
  · intro k
    show k ∈ st.idleList ↔ ∃ n, (p.allConns.set i node')[k]? = some n ∧ n.status = .idle
    rw [hmem', hget]
    by_cases hk : k = i
    · simp [hk]
    · simp [hk, h.idle]
  · show st.numPendingConnections = (p.allConns.set i node').countP _
    have hcount := countP_set_add hnode node' (·.status.isPending)
    rw [hpending, Shared.numPendingConnections_hooks, h.pending]
    cases hs : node.status.isPending <;> cases hs' : node'.status.isPending <;>
      simp only [hs, hs', Bool.false_eq_true, if_false, if_true, Bool.not_true, Bool.not_false,
        Bool.and_true, Bool.and_false] at hcount ⊢ <;> omega
  · intro k hk
    obtain ⟨n, hn, hstatus, hcol⟩ := h.held k hk
    show ∃ n, (p.allConns.set i node')[k]? = some n ∧ _
    rw [hget]
    by_cases hki : k = i
    · subst hki
      exact ⟨node', by rw [if_pos rfl], hheld hk⟩
    · exact ⟨n, by rw [if_neg hki, hn], hstatus, hcol⟩
  · show (p.allConns.set i node').length ≤ _
    rw [List.length_set]
    exact h.size

/-- Only the nodes, the users and the books of the shared state count. -/
theorem Inv.keep (h : p.Inv) {p' : Pool} (hstate : p'.state = stateAt p'.runPoint)
    (hparams : p'.params = p.params)
    (hconns : p'.allConns = p.allConns) (hholders : p'.holders = p.holders)
    (hidle : p'.sharedSt.idleList = p.sharedSt.idleList)
    (hpending : p'.sharedSt.numPendingConnections = p.sharedSt.numPendingConnections)
    (hrequests : p'.sharedSt.numPendingRequests =
      p'.sharedSt.parked + p'.sharedSt.runnable.length) : p'.Inv := by
  refine ⟨hstate, by rw [hparams]; exact h.params, by rw [hconns]; exact h.nodes,
    by rw [hidle]; exact h.nodup, ?_, by rw [hpending, hconns]; exact h.pending, hrequests,
    by rw [hholders]; exact h.unique, ?_, by rw [hconns, hparams]; exact h.size⟩
  · rw [hidle, hconns]
    exact h.idle
  · rw [hholders, hconns]
    exact h.held

/-! ## 5. Creating connections -/

/-- The number of connections `create_connections` adds. -/
def missing (p : Pool) : Nat :=
  min (max (p.sharedSt.numPendingRequests - p.sharedSt.numPendingConnections)
    (p.params.initialSize - p.allConns.length)) (p.params.maxSize - p.allConns.length)

theorem Inv.pending_le (h : p.Inv) : p.sharedSt.numPendingConnections ≤ p.allConns.length := by
  rw [h.pending]
  exact List.countP_le_length

/-- The pool with what was missing. -/
def grown (p : Pool) : Pool :=
  { p with allConns := p.allConns ++ List.replicate p.missing {} }

/-- `create_connections` adds what is missing; its assertions hold. -/
theorem createConnections_spec (p : Pool) (hsizes : p.params.initialSize ≤ p.params.maxSize)
    (hsize : p.allConns.length ≤ p.params.maxSize)
    (hpending : p.sharedSt.numPendingConnections ≤ p.allConns.length) :
    p.createConnections = .ok p.grown ∧ p.allConns.length + p.missing ≤ p.params.maxSize := by
  have hroom : p.allConns.length + p.missing ≤ p.params.maxSize := by
    unfold missing
    omega
  have hnum : numConnectionsToCreate p.params.initialSize p.params.maxSize p.allConns.length
      p.sharedSt.numPendingConnections p.sharedSt.numPendingRequests = .ok p.missing := by
    unfold numConnectionsToCreate missing
    rw [if_pos ⟨hsizes, hsize, hpending⟩]
    simp only [Except.ok.injEq]
    congr 2
    · split <;> omega
    · split <;> omega
  refine ⟨?_, hroom⟩
  simp only [createConnections, hnum, bind, Except.bind, if_pos hroom]
  rfl

theorem node_inv_new : Node.Inv {} := ⟨fun h => absurd rfl h, by simp, nofun, nofun⟩

/-- New nodes are neither idle nor pending, and nobody holds them. -/
theorem Inv.grown (h : p.Inv) : p.grown.Inv := by
  refine ⟨h.state, h.params, ?_, h.nodup, ?_, ?_, h.requests, h.unique, ?_, ?_⟩
  · intro node hnode
    rcases List.mem_append.mp hnode with hnode | hnode
    · exact h.nodes node hnode
    · rw [(List.mem_replicate.mp hnode).2]
      exact node_inv_new
  · intro i
    show i ∈ p.sharedSt.idleList ↔
      ∃ node, (p.allConns ++ _)[i]? = some node ∧ node.status = .idle
    rw [h.idle]
    constructor
    · rintro ⟨node, hnode, hs⟩
      exact ⟨node, List.getElem?_append_left (List.getElem?_eq_some_iff.mp hnode).1 ▸ hnode, hs⟩
    · rintro ⟨node, hnode, hs⟩
      by_cases hi : i < p.allConns.length
      · exact ⟨node, by rwa [List.getElem?_append_left hi] at hnode, hs⟩
      · rw [List.getElem?_append_right (by omega)] at hnode
        rw [(List.mem_replicate.mp (List.mem_of_getElem? hnode)).2] at hs
        cases hs
  · show p.sharedSt.numPendingConnections = (p.allConns ++ _).countP _
    rw [h.pending, List.countP_append, List.countP_replicate]
    rfl
  · intro i hi
    obtain ⟨node, hnode, hs⟩ := h.held i hi
    refine ⟨node, ?_, hs⟩
    show (p.allConns ++ _)[i]? = some node
    rw [List.getElem?_append_left (List.getElem?_eq_some_iff.mp hnode).1, hnode]
  · show (p.allConns ++ _).length ≤ _
    rw [List.length_append, List.length_replicate]
    exact (createConnections_spec p h.sizes h.size h.pending_le).2

/-! ## 6. Taking connections -/

/-- The pool after `mark_as_in_use` of the node at the front of the idle list. -/
def taken (p : Pool) (i : Nat) (node : Node) : Pool :=
  p.withNode i (p.sharedSt.hooks i .idle .inUse, { node with status := .inUse })

/-- `try_get_connection` finds the idle list empty, or takes the first node, which is idle. -/
theorem tryGetConnection_spec (h : p.Inv) :
    (p.sharedSt.idleList = [] ∧ p.tryGetConnection = .ok (none, p)) ∨
    ∃ i rest node, p.sharedSt.idleList = i :: rest ∧ p.allConns[i]? = some node ∧
      node.status = .idle ∧ p.tryGetConnection = .ok (some i, p.taken i node) := by
  cases hlist : p.sharedSt.idleList with
  | nil => exact .inl ⟨rfl, by simp only [tryGetConnection, hlist]⟩
  | cons i rest =>
    obtain ⟨node, hnode, hs⟩ := (h.idle i).mp (by rw [hlist]; exact List.mem_cons_self)
    refine .inr ⟨i, rest, node, rfl, hnode, hs, ?_⟩
    simp only [tryGetConnection, hlist, hnode, Node.markAsInUse, hs, if_true, Node.setStatus, bind,
      Except.bind]
    rfl

theorem Inv.taken (h : p.Inv) {i : Nat} {node : Node} (hnode : p.allConns[i]? = some node)
    (hs : node.status = .idle) : Inv { p.taken i node with holders := p.holders ++ [i] } := by
  have hfree : i ∉ p.holders := by
    intro hi
    obtain ⟨n, hn, hstatus, -⟩ := h.held i hi
    rw [hnode] at hn
    cases hn
    rw [hs] at hstatus
    cases hstatus
  have hnode' := h.getElem hnode
  have hcol := hnode'.none_of_ne (by rw [hs]; decide)
  have hinv : Node.Inv { node with status := .inUse } := by
    refine ⟨fun _ => rfl, ?_, fun htask => ?_, nofun⟩
    · refine iff_of_false (fun htask => ?_) nofun
      have := hnode'.launched.mp htask
      rw [hs] at this
      cases this
    · have := hnode'.action htask
      rw [hs] at this
      exact this
  have hupdate := h.update hnode hinv (p.sharedSt.hooks i .idle .inUse) (by rw [hs]) (by rw [hs])
    (by rw [Shared.numPendingRequests_hooks, Shared.waiting_hooks]; exact h.requests)
    fun hi => absurd hi hfree
  refine ⟨hupdate.state, hupdate.params, hupdate.nodes, hupdate.nodup, hupdate.idle, hupdate.pending,
    hupdate.requests, ?_, ?_, hupdate.size⟩
  · refine List.nodup_append.mpr ⟨h.unique, List.nodup_singleton i, ?_⟩
    intro k hk k' hk' e
    rw [List.mem_singleton] at hk'
    exact hfree (hk' ▸ e ▸ hk)
  · intro k hk
    rcases List.mem_append.mp hk with hk | hk
    · exact hupdate.held k hk
    · rw [List.mem_singleton] at hk
      subst hk
      refine ⟨{ node with status := .inUse }, ?_, rfl, hcol⟩
      show (p.allConns.set k _)[k]? = _
      rw [getElem?_set_of hnode, if_pos rfl]

/-! ## 7. What a step does -/

/-- The pool after the call at `k` has left the list of those that were let go, and
    `exit_request_pending`. -/
def resumed (p : Pool) (k : Nat) : Pool :=
  { p with sharedSt := { p.sharedSt with
      runnable := p.sharedSt.runnable.eraseIdx k
      numPendingRequests := p.sharedSt.numPendingRequests - 1 } }

/-- **Everything a step can do.** -/
inductive Change (p : Pool) : PoolAction → Pool → Prop where
  | run (h : p.runPoint = .notCalled) :
      Change p .run { p.grown with state := .running, runPoint := .waitsForNeed }
  | need (h : p.runPoint = .waitsForNeed) (hneed : p.connectionsNeeded = true) :
      Change p .connectionsNeeded { p.grown with connectionsNeeded := false }
  | cancel (h : p.runPoint = .waitsForNeed) : Change p .cancel p.onCancel
  | finished (h : p.runPoint = .waitsForTasks) (hset : p.sharedSt.connsFinished = true) :
      Change p .connsFinished { p with runPoint := .returned }
  | start {i stopped node r} (hnode : p.allConns[i]? = some node) (htask : node.task = .launched)
      (hstop : stopped = true → p.cancelEv = true) (hm : node.Moves .connectInProgress)
      (hr : node.Leaves i stopped p.sharedSt.onConnectionStart .connectInProgress r) :
      Change p (.start i stopped) (p.withNode i r)
  | proceed {i ec stopped node s r} (hnode : p.allConns[i]? = some node)
      (htask : node.task = .running) (hstop : stopped = true → p.cancelEv = true)
      (hm : node.Moves s) (hr : node.Leaves i stopped p.sharedSt s r) :
      Change p (.proceed i ec stopped) (p.withNode i r)
  | getRefused (h : p.state = .cancelled) : Change p .getConnection p
  | getTakes {i rest node} (h : p.state ≠ .cancelled) (hlist : p.sharedSt.idleList = i :: rest)
      (hnode : p.allConns[i]? = some node) (hs : node.status = .idle) :
      Change p .getConnection { p.taken i node with holders := p.holders ++ [i] }
  | getParks (h : p.state ≠ .cancelled) (hlist : p.sharedSt.idleList = []) :
      Change p .getConnection p.park
  | stopParked (h : 0 < p.sharedSt.parked) :
      Change p .stopParked { p with sharedSt := { p.sharedSt with
        parked := p.sharedSt.parked - 1
        runnable := p.sharedSt.runnable ++ [true] } }
  | stopRunnable {k} (h : k < p.sharedSt.runnable.length) :
      Change p (.stopRunnable k) { p with
        sharedSt := { p.sharedSt with runnable := p.sharedSt.runnable.set k true } }
  | wakeRefused {k} (hk : k < p.sharedSt.runnable.length) (h : p.state = .cancelled) :
      Change p (.wake k) (p.resumed k)
  | wakeTakes {k i rest node} (hk : k < p.sharedSt.runnable.length) (h : p.state ≠ .cancelled)
      (hlist : p.sharedSt.idleList = i :: rest) (hnode : p.allConns[i]? = some node)
      (hs : node.status = .idle) :
      Change p (.wake k) { (p.resumed k).taken i node with holders := p.holders ++ [i] }
  | wakeStops {k} (hk : k < p.sharedSt.runnable.length) (h : p.state ≠ .cancelled)
      (hlist : p.sharedSt.idleList = []) : Change p (.wake k) (p.resumed k)
  | wakeParks {k} (hk : k < p.sharedSt.runnable.length) (h : p.state ≠ .cancelled)
      (hlist : p.sharedSt.idleList = []) : Change p (.wake k) (p.resumed k).park
  | giveBack {k i node reset} (hk : p.holders[k]? = some i) (hnode : p.allConns[i]? = some node) :
      Change p (.giveBack k reset) { p with
        holders := p.holders.eraseIdx k
        allConns := p.allConns.set i (node.markAsCollectable reset) }

theorem Inv.resumed (h : p.Inv) {k : Nat} (hk : k < p.sharedSt.runnable.length) :
    (p.resumed k).Inv := by
  refine h.keep h.state rfl rfl rfl rfl rfl ?_
  have hlength := List.length_eraseIdx_of_lt hk
  have hrequests := h.requests
  show p.sharedSt.numPendingRequests - 1 = p.sharedSt.parked + (p.sharedSt.runnable.eraseIdx k).length
  omega

theorem getConnection_change (h : p.Inv) :
    ∃ p', p.getConnection = .ok p' ∧ Change p .getConnection p' := by
  unfold getConnection
  by_cases hstate : p.state = .cancelled
  · exact ⟨p, by rw [if_pos hstate], .getRefused hstate⟩
  · rw [if_neg hstate]
    rcases tryGetConnection_spec h with ⟨hlist, htry⟩ | ⟨i, rest, node, hlist, hnode, hs, htry⟩
    · exact ⟨p.park, by simp only [htry, bind, Except.bind]; rfl, .getParks hstate hlist⟩
    · exact ⟨_, by simp only [htry, bind, Except.bind]; rfl, .getTakes hstate hlist hnode hs⟩

theorem wake_change (h : p.Inv) {k : Nat} {stopRequested : Bool}
    (hk : p.sharedSt.runnable[k]? = some stopRequested) :
    ∃ p', onWake { p with sharedSt := { p.sharedSt with
        runnable := p.sharedSt.runnable.eraseIdx k } } stopRequested = .ok p' ∧
      Change p (.wake k) p' := by
  have hlt : k < p.sharedSt.runnable.length := (List.getElem?_eq_some_iff.mp hk).1
  have hpos : p.sharedSt.numPendingRequests > 0 := by
    rw [h.requests]
    omega
  have hexit : exitRequestPending { p with sharedSt := { p.sharedSt with
      runnable := p.sharedSt.runnable.eraseIdx k } } = .ok (p.resumed k) := by
    unfold exitRequestPending
    rw [if_pos hpos]
    rfl
  unfold onWake
  simp only [hexit, bind, Except.bind]
  by_cases hstate : p.state = .cancelled
  · exact ⟨p.resumed k, if_pos hstate, .wakeRefused hlt hstate⟩
  · have hneg : (p.resumed k).state ≠ .cancelled := hstate
    rw [if_neg hneg]
    rcases tryGetConnection_spec (h.resumed hlt) with
      ⟨hlist, htry⟩ | ⟨i, rest, node, hlist, hnode, hs, htry⟩
    · simp only [htry]
      cases stopRequested with
      | true => exact ⟨p.resumed k, rfl, .wakeStops hlt hstate hlist⟩
      | false => exact ⟨(p.resumed k).park, rfl, .wakeParks hlt hstate hlist⟩
    · simp only [htry]
      exact ⟨_, rfl, .wakeTakes hlt hstate hlist hnode hs⟩

/-- **A step does one of these things, and no assertion fires.** -/
theorem step_change (h : p.Inv) {a : PoolAction} {r : Checked Pool} (hstep : p.step a = some r) :
    ∃ p', r = .ok p' ∧ Change p a p' := by
  cases a with
  | run =>
    obtain ⟨hpoint, hrun⟩ := Option.ite_none_right_eq_some.mp hstep
    have hstate : p.state = .initial := by rw [h.state, hpoint]; rfl
    have hcreate : createConnections { p with state := .running } =
        .ok { p.grown with state := .running } :=
      (createConnections_spec { p with state := .running } h.sizes h.size h.pending_le).1
    refine ⟨_, ?_, .run hpoint⟩
    rw [← Option.some.inj hrun, Pool.run, if_pos hstate, hcreate]
    rfl
  | connectionsNeeded =>
    obtain ⟨⟨hpoint, hneed⟩, hrun⟩ := Option.ite_none_right_eq_some.mp hstep
    have hcreate : p.onConnectionsNeeded = .ok { p.grown with connectionsNeeded := false } :=
      (createConnections_spec { p with connectionsNeeded := false } h.sizes h.size h.pending_le).1
    exact ⟨_, by rw [← Option.some.inj hrun, hcreate], .need hpoint hneed⟩
  | cancel =>
    obtain ⟨hpoint, hrun⟩ := Option.ite_none_right_eq_some.mp hstep
    exact ⟨_, (Option.some.inj hrun).symm, .cancel hpoint⟩
  | connsFinished =>
    obtain ⟨⟨hpoint, hset⟩, hrun⟩ := Option.ite_none_right_eq_some.mp hstep
    exact ⟨_, (Option.some.inj hrun).symm, .finished hpoint hset⟩
  | start i stopped =>
    obtain ⟨node, hnode, hrest⟩ := Option.bind_eq_some_iff.mp hstep
    obtain ⟨⟨htask, hstop⟩, hrun⟩ := Option.ite_none_right_eq_some.mp hrest
    obtain ⟨hm, hr⟩ := Node.start_spec (h.getElem hnode) htask i stopped p.sharedSt
    exact ⟨_, (Option.some.inj hrun).symm, .start hnode htask hstop hm hr⟩
  | proceed i ec stopped =>
    obtain ⟨node, hnode, hrest⟩ := Option.bind_eq_some_iff.mp hstep
    obtain ⟨⟨htask, hstop, -⟩, hrun⟩ := Option.ite_none_right_eq_some.mp hrest
    have hinv := h.getElem hnode
    exact ⟨_, (Option.some.inj hrun).symm, .proceed hnode htask hstop
      (Node.moves_nextStatus hinv htask ec) (Node.proceed_spec hinv htask i ec stopped p.sharedSt)⟩
  | getConnection =>
    obtain ⟨p', hrun, hchange⟩ := getConnection_change h
    exact ⟨p', by rw [← Option.some.inj hstep, hrun], hchange⟩
  | stopParked =>
    obtain ⟨hpos, hrun⟩ := Option.ite_none_right_eq_some.mp hstep
    exact ⟨_, (Option.some.inj hrun).symm, .stopParked hpos⟩
  | stopRunnable k =>
    obtain ⟨hk, hrun⟩ := Option.ite_none_right_eq_some.mp hstep
    exact ⟨_, (Option.some.inj hrun).symm, .stopRunnable hk⟩
  | wake k =>
    obtain ⟨stopRequested, hk, hrun⟩ := Option.bind_eq_some_iff.mp hstep
    obtain ⟨p', hwake, hchange⟩ := wake_change h hk
    exact ⟨p', by rw [← Option.some.inj hrun, hwake], hchange⟩
  | giveBack k reset =>
    obtain ⟨i, hk, hrest⟩ := Option.bind_eq_some_iff.mp hstep
    obtain ⟨node, hnode, hrun⟩ := Option.bind_eq_some_iff.mp hrest
    exact ⟨_, (Option.some.inj hrun).symm, .giveBack hk hnode⟩

theorem Inv.park (h : p.Inv) : p.park.Inv := by
  refine h.keep h.state rfl rfl rfl rfl rfl ?_
  have hrequests := h.requests
  show p.sharedSt.numPendingRequests + 1 = p.sharedSt.parked + 1 + p.sharedSt.runnable.length
  omega

/-- The task of a node keeps the books. -/
theorem Inv.leaves (h : p.Inv) {i : Nat} {node : Node} (hnode : p.allConns[i]? = some node)
    {stopped : Bool} {st : Shared} (hst : Shared.SameBooks st p.sharedSt) {s : NodeStatus}
    (hm : node.Moves s) {r : Shared × Node} (hr : node.Leaves i stopped st s r) :
    (p.withNode i r).Inv := by
  have hbooks := hr.books hst
  have hrequests : r.1.numPendingRequests = r.1.parked + r.1.runnable.length := by
    rw [hbooks.numPendingRequests, hbooks.parked, hbooks.runnable, Shared.numPendingRequests_hooks,
      Shared.waiting_hooks]
    exact h.requests
  have hidle := hbooks.idleList
  have hpending := hbooks.numPendingConnections
  rw [← hr.status] at hidle hpending
  refine h.update hnode (hr.inv hm) r.1 hidle hpending hrequests fun hi => ?_
  -- the user has not returned it
  obtain ⟨n, hn, hstatus, hcol⟩ := h.held i hi
  rw [hnode] at hn
  cases hn
  rw [hr.status]
  exact ⟨(hm.returned hstatus).resolve_right fun hne => hne hcol, hr.collectionState⟩

/-- A returned connection is in use until its task collects it. -/
theorem Inv.giveBack (h : p.Inv) {k i : Nat} {node : Node} (hk : p.holders[k]? = some i)
    (hnode : p.allConns[i]? = some node) (reset : Bool) :
    Inv { p with
      holders := p.holders.eraseIdx k
      allConns := p.allConns.set i (node.markAsCollectable reset) } := by
  obtain ⟨n, hn, hstatus, -⟩ := h.held i (List.mem_of_getElem? hk)
  rw [hnode] at hn
  cases hn
  have hreleased : Inv { p with holders := p.holders.eraseIdx k } :=
    ⟨h.state, h.params, h.nodes, h.nodup, h.idle, h.pending, h.requests, h.unique.eraseIdx k,
      fun j hj => h.held j (List.mem_of_mem_eraseIdx hj), h.size⟩
  have hgone : i ∉ p.holders.eraseIdx k := by
    intro hi
    obtain ⟨j, hne, hj⟩ := List.mem_eraseIdx_iff_getElem?.mp hi
    have hlt := (List.getElem?_eq_some_iff.mp hj).1
    exact hne ((List.getElem?_inj hlt h.unique).mp (hj.trans hk.symm))
  have hinv := h.getElem hnode
  have hinv' : (node.markAsCollectable reset).Inv :=
    ⟨fun _ => hstatus, hinv.launched, hinv.action, hinv.alive⟩
  refine hreleased.update hnode hinv' p.sharedSt ?_ ?_ h.requests fun hi => absurd hi hgone
  · rw [Shared.idleList_hooks]
    simp [Node.markAsCollectable]
  · rw [Shared.numPendingConnections_hooks]
    simp [Node.markAsCollectable]

/-- **One step.** -/
theorem Change.inv (h : p.Inv) {a : PoolAction} {p' : Pool} (hc : Change p a p') : p'.Inv := by
  cases hc with
  | run hpoint => exact h.grown.keep rfl rfl rfl rfl rfl rfl h.requests
  | need hpoint _ => exact h.grown.keep h.state rfl rfl rfl rfl rfl h.requests
  | cancel hpoint =>
    refine h.keep ?_ rfl rfl rfl rfl rfl ?_
    · show PoolState.cancelled = stateAt (if p.allConns.isEmpty then _ else _)
      split <;> rfl
    · show p.sharedSt.numPendingRequests =
        0 + (p.sharedSt.runnable ++ List.replicate p.sharedSt.parked false).length
      rw [List.length_append, List.length_replicate, h.requests]
      omega
  | finished hpoint _ =>
    have hstate := h.state
    rw [hpoint] at hstate
    exact h.keep hstate rfl rfl rfl rfl rfl h.requests
  | start hnode _ _ hm hr => exact h.leaves hnode (Shared.sameBooks_onConnectionStart _) hm hr
  | proceed hnode _ _ hm hr => exact h.leaves hnode ⟨rfl, rfl, rfl, rfl, rfl⟩ hm hr
  | getRefused _ => exact h
  | getTakes _ _ hnode hs => exact h.taken hnode hs
  | getParks _ _ => exact h.park
  | stopParked hpos =>
    refine h.keep h.state rfl rfl rfl rfl rfl ?_
    have hrequests := h.requests
    show p.sharedSt.numPendingRequests =
      p.sharedSt.parked - 1 + (p.sharedSt.runnable ++ [true]).length
    rw [List.length_append, List.length_singleton]
    omega
  | stopRunnable _ =>
    refine h.keep h.state rfl rfl rfl rfl rfl ?_
    show p.sharedSt.numPendingRequests = p.sharedSt.parked + (p.sharedSt.runnable.set _ _).length
    rw [List.length_set]
    exact h.requests
  | wakeRefused hk _ | wakeStops hk _ _ => exact h.resumed hk
  | wakeTakes hk _ _ hnode hs => exact (h.resumed hk).taken hnode hs
  | wakeParks hk _ _ => exact (h.resumed hk).park
  | giveBack hk hnode => exact h.giveBack hk hnode _

/-- A step from a pool whose books are right: it does one of the things a step can do, and leaves
    the books right. -/
theorem step_inv (h : p.Inv) {a : PoolAction} {p' : Pool} (hs : p.step a = some (.ok p')) :
    Change p a p' ∧ p'.Inv := by
  obtain ⟨p'', heq, hc⟩ := step_change h hs
  cases heq
  exact ⟨hc, hc.inv h⟩

/-- **Every pool.** -/
theorem reaches_inv {params : PoolParams} (hparams : checkPoolParams params = none)
    {as : List PoolAction} (hr : Reaches params as p) : p.Inv := by
  induction hr with
  | new => exact inv_new hparams
  | step _ hs ih => exact (step_inv ih hs).2

/-- A user keeps its connection until it returns it. -/
theorem Change.holders {a : PoolAction} {p' : Pool} (hc : Change p a p') {i : Nat}
    (hi : i ∈ p.holders) :
    i ∈ p'.holders ∨ ∃ k reset, a = .giveBack k reset ∧ p.holders[k]? = some i := by
  cases hc with
  | getTakes _ _ _ _ | wakeTakes _ _ _ _ _ => exact .inl (List.mem_append_left _ hi)
  | @giveBack k j node reset hk hnode =>
    by_cases hj : j = i
    · exact .inr ⟨k, reset, rfl, hj ▸ hk⟩
    · refine .inl (List.mem_eraseIdx_iff_getElem?.mpr ?_)
      obtain ⟨l, hl⟩ := List.getElem?_of_mem hi
      refine ⟨l, fun hlk => hj ?_, hl⟩
      rw [hlk, hk] at hl
      exact Option.some.inj hl
  | _ => exact .inl hi

/-- **The books of the pool**, whatever the tasks, the users and their timers have done, from
    parameters the pool accepts: the idle list holds the idle nodes, each once; the counters count
    the nodes that are getting ready and the calls that wait; a connection in the hands of a user
    is in use, off the idle list and in no other user's hands, and stays so until it is returned;
    only a node in use waits to be collected; there are at most `max_size` nodes; and no step runs
    into an assertion. -/
theorem reaches_bookkeeping {params : PoolParams} (hparams : checkPoolParams params = none)
    {as : List PoolAction} (hr : Reaches params as p) :
    (p.sharedSt.idleList.Nodup ∧ ∀ i, i ∈ p.sharedSt.idleList ↔
      ∃ node, p.allConns[i]? = some node ∧ node.status = .idle) ∧
    p.sharedSt.numPendingConnections = p.allConns.countP (·.status.isPending) ∧
    p.sharedSt.numPendingRequests = p.sharedSt.parked + p.sharedSt.runnable.length ∧
    (∀ i ∈ p.holders, i ∉ p.sharedSt.idleList ∧
      ∃ node, p.allConns[i]? = some node ∧ node.status = .inUse) ∧
    p.holders.Nodup ∧
    (∀ a p', p.step a = some (.ok p') → ∀ i ∈ p.holders,
      i ∈ p'.holders ∨ ∃ k reset, a = .giveBack k reset ∧ p.holders[k]? = some i) ∧
    (∀ node ∈ p.allConns, node.collectionState ≠ .none → node.status = .inUse) ∧
    p.allConns.length ≤ p.params.maxSize ∧
    (∀ a r, p.step a = some r → ∃ p', r = .ok p') := by
  have h := reaches_inv hparams hr
  refine ⟨⟨h.nodup, h.idle⟩, h.pending, h.requests, fun i hi => ?_, h.unique, ?_, ?_, h.size, ?_⟩
  · obtain ⟨node, hnode, hstatus, -⟩ := h.held i hi
    refine ⟨fun hidle => ?_, node, hnode, hstatus⟩
    obtain ⟨node', hnode', hstatus'⟩ := (h.idle i).mp hidle
    rw [hnode] at hnode'
    cases hnode'
    rw [hstatus] at hstatus'
    cases hstatus'
  · intro a p' hs i hi
    exact (step_inv h hs).1.holders hi
  · exact fun node hnode => (h.nodes node hnode).collected
  · intro a r hs
    obtain ⟨p', heq, -⟩ := step_change h hs
    exact ⟨p', heq⟩

/-- A connection that a user holds while the ping interval elapses. -/
theorem reaches_bookkeeping_held :
    ∃ as p, Reaches {} as p ∧ p.holders = [0] ∧ 0 ∉ p.sharedSt.idleList := by
  have hr : Reaches {} _ _ := .step (.step (.step (.step (.step .new
    (show step _ .run = _ from rfl)) (show step _ (.start 0 false) = _ from rfl))
    (show step _ (.proceed 0 .success false) = _ from rfl)) (show step _ .getConnection = _ from rfl))
    (show step _ (.proceed 0 .operationCanceled false) = _ from rfl)
  obtain ⟨-, -, -, hheld, -⟩ := reaches_bookkeeping (by decide) hr
  exact ⟨_, _, hr, rfl, (hheld 0 List.mem_cons_self).1⟩

end

end Pool

end Pooling

end NativePg
