/-
  File:      NativePg/Pool/Shutdown.lean
  Subject:   `run()` waits for the connection tasks that have started, not for those launched.

  * `returned_unfinished` -- a task that has not started is not counted: when the other finishes,
    `run()` returns, and the task that was launched starts on a pool that may be gone;
  * `Pool.Waits` -- the task that is told to stop is not the last one running, or there is none left
    that has not started. `Orderly`: a run all of whose steps are so;
  * `Closing` -- the counter counts the tasks that run; once it has gone back to zero, all have
    finished;
  * **`orderly_finished`** -- in an orderly run `run()` returns after the last task, and the first
    step that is not orderly lets it return before.
-/
import NativePg.Pool.Bookkeeping

namespace NativePg

namespace Pooling

/-! ## 1. The counter of running connections -/

namespace Shared

/-- The hooks know nothing of running tasks. -/
theorem running_hooks (st : Shared) (i : Nat) (s s' : NodeStatus) :
    (st.hooks i s s').numRunningConnections = st.numRunningConnections ∧
      (st.hooks i s s').connsFinished = st.connsFinished := by
  have hcancel : ∀ st : Shared, st.cancelOne.numRunningConnections = st.numRunningConnections ∧
      st.cancelOne.connsFinished = st.connsFinished := by
    intro st
    unfold cancelOne
    split <;> exact ⟨rfl, rfl⟩
  have hhooks := hooks_apart st i s s' (fun st => (st.numRunningConnections, st.connsFinished))
    fun _ _ => rfl
  have henter := hcancel { st with idleList := st.idleList ++ [i] }
  simp only [enteringIdle, exitingIdle, henter.1, henter.2, ite_self, Prod.mk.injEq] at hhooks
  exact hhooks

/-- The last one to finish sets `conns_finished_cv`. -/
theorem onConnectionFinish_running (st : Shared) :
    st.onConnectionFinish.numRunningConnections = st.numRunningConnections - 1 ∧
      (st.onConnectionFinish.connsFinished = true ↔
        st.connsFinished = true ∨ st.numRunningConnections - 1 = 0) := by
  unfold onConnectionFinish
  simp only
  by_cases hzero : st.numRunningConnections - 1 = 0
  · rw [if_pos hzero]
    exact ⟨rfl, iff_of_true rfl (.inr hzero)⟩
  · rw [if_neg hzero]
    exact ⟨rfl, (or_iff_left hzero).symm⟩

end Shared

/-- What a task does to the counter. -/
theorem Node.Leaves.running {node : Node} {i : Nat} {stopped : Bool} {st : Shared} {s : NodeStatus}
    {r : Shared × Node} (hr : node.Leaves i stopped st s r) :
    r.1.numRunningConnections = st.numRunningConnections - stopped.toNat ∧
      (r.1.connsFinished = true ↔
        st.connsFinished = true ∨ stopped = true ∧ st.numRunningConnections - 1 = 0) := by
  obtain ⟨hrunning, hset⟩ := st.running_hooks i node.status s
  rw [hr.shared]
  cases stopped with
  | false => simp [hrunning, hset]
  | true =>
    obtain ⟨hrunning', hset'⟩ := (st.hooks i node.status s).onConnectionFinish_running
    rw [if_pos rfl, hrunning', hset', hrunning, hset]
    exact ⟨rfl, by simp⟩

namespace Pool

/-! ## 2. Orderly runs -/

/-- A task that is told to stop leaves another one running, or none that has not started. -/
def Waits (p : Pool) : PoolAction → Prop
  | .start i true | .proceed i _ true =>
      (∃ j node, j ≠ i ∧ p.allConns[j]? = some node ∧ node.task = .running) ∨
        ∀ j node, j ≠ i → p.allConns[j]? = some node → node.task ≠ .launched
  | _ => True

/-- The pools a new one can become when every step is such. -/
inductive Orderly (params : PoolParams) : List PoolAction → Pool → Prop where
  | new : Orderly params [] (new params)
  | step {as p a p'} (h : Orderly params as p) (hs : p.step a = some (.ok p')) (hw : p.Waits a) :
      Orderly params (as ++ [a]) p'

theorem Orderly.reaches {params : PoolParams} {as : List PoolAction} {p : Pool}
    (h : Orderly params as p) : Reaches params as p := by
  induction h with
  | new => exact .new
  | step _ hs _ ih => exact .step ih hs

/-- What holds of the tasks. -/
structure Closing (p : Pool) : Prop where
  running : p.sharedSt.numRunningConnections = p.allConns.countP (·.task = .running)
  stopped : p.cancelEv = true ↔ p.state = .cancelled
  set : p.sharedSt.connsFinished = true →
    p.cancelEv = true ∧ ∀ node ∈ p.allConns, node.task = .finished
  returned : p.runPoint = .returned → ∀ node ∈ p.allConns, node.task = .finished

section
variable {p : Pool}

/-- The tasks that run besides that of node `i`. -/
theorem countP_others {i : Nat} {node : Node} (hnode : p.allConns[i]? = some node) (node' : Node)
    (hdone : node'.task = .finished) :
    (p.allConns.set i node').countP (·.task = .running) = 0 ↔
      ¬ ∃ j n, j ≠ i ∧ p.allConns[j]? = some n ∧ n.task = .running := by
  rw [List.countP_eq_zero]
  constructor
  · rintro hall ⟨j, n, hne, hn, hrun⟩
    have hget : (p.allConns.set i node')[j]? = some n := by
      rw [getElem?_set_of hnode, if_neg hne, hn]
    exact hall n (List.mem_of_getElem? hget) (by simp [hrun])
  · intro hnone n hn hrun
    obtain ⟨j, hj⟩ := List.getElem?_of_mem hn
    rw [getElem?_set_of hnode] at hj
    have hrun : n.task = .running := by simpa using hrun
    by_cases hji : j = i
    · rw [if_pos hji, Option.some.injEq] at hj
      rw [← hj, hdone] at hrun
      cases hrun
    · rw [if_neg hji] at hj
      exact hnone ⟨j, n, hji, hj, hrun⟩

/-- The tasks of the pool after that of node `i` has moved. -/
theorem Closing.count (h : p.Closing) {i : Nat} {node : Node} {stopped : Bool} {st : Shared}
    {s : NodeStatus} {r : Shared × Node} (hnode : p.allConns[i]? = some node)
    (hst : st.numRunningConnections =
      p.sharedSt.numRunningConnections + if node.task = .running then 0 else 1)
    (hr : node.Leaves i stopped st s r) :
    st.numRunningConnections =
      (p.allConns.set i r.2).countP (·.task = .running) + stopped.toNat := by
  have hcount := countP_set_add hnode r.2 (·.task = .running)
  rw [hr.task] at hcount
  rw [hst, h.running]
  cases stopped <;> by_cases htask : node.task = .running <;>
    simp only [htask, decide_true, decide_false, Bool.false_eq_true, if_true, if_false,
      reduceCtorEq, Bool.toNat_true, Bool.toNat_false] at hcount ⊢ <;> omega

/-- **A task moves.** -/
theorem Closing.leaves (h : p.Closing) {i : Nat} {node : Node} {stopped : Bool} {st : Shared}
    {s : NodeStatus} {r : Shared × Node} (hnode : p.allConns[i]? = some node)
    (htask : node.task ≠ .finished) (hstop : stopped = true → p.cancelEv = true)
    (hr : node.Leaves i stopped st s r)
    (hst : st.numRunningConnections =
      p.sharedSt.numRunningConnections + if node.task = .running then 0 else 1)
    (hset : st.connsFinished = p.sharedSt.connsFinished)
    (hwaits : stopped = true →
      (∃ j n, j ≠ i ∧ p.allConns[j]? = some n ∧ n.task = .running) ∨
        ∀ j n, j ≠ i → p.allConns[j]? = some n → n.task ≠ .launched) :
    (p.withNode i r).Closing := by
  have hcount := h.count hnode hst hr
  obtain ⟨hrunning, hfinished⟩ := hr.running
  have hmem := List.mem_of_getElem? hnode
  refine ⟨?_, h.stopped, fun hnow => ?_, fun hpoint => ?_⟩
  · show r.1.numRunningConnections = _
    rw [hrunning, hcount]
    exact Nat.add_sub_cancel _ _
  · rcases hfinished.mp hnow with hbefore | ⟨hstopped, hzero⟩
    · exact absurd ((h.set (hset ▸ hbefore)).2 node hmem) htask
    · -- it was the last one
      refine ⟨hstop hstopped, fun n hn => ?_⟩
      have hdone : r.2.task = .finished := by rw [hr.task, if_pos hstopped]
      rw [hstopped] at hcount
      have hnone := (countP_others hnode r.2 hdone).mp (by
        rw [hcount] at hzero
        simpa using hzero)
      have hstarted := (hwaits hstopped).resolve_left hnone
      obtain ⟨j, hj⟩ := List.getElem?_of_mem hn
      have hj : (p.allConns.set i r.2)[j]? = some n := hj
      rw [getElem?_set_of hnode] at hj
      by_cases hji : j = i
      · rw [if_pos hji, Option.some.injEq] at hj
        rw [← hj, hdone]
      · rw [if_neg hji] at hj
        cases htask' : n.task with
        | launched => exact absurd htask' (hstarted j n hji hj)
        | running => exact absurd ⟨j, n, hji, hj, htask'⟩ hnone
        | finished => rfl
  · exact absurd (h.returned hpoint node hmem) htask

/-- Only these count. -/
theorem Closing.keep (h : p.Closing) {p' : Pool}
    (hconns : p'.allConns.map Node.task = p.allConns.map Node.task)
    (hcancel : p'.cancelEv = p.cancelEv) (hstate : p'.state = p.state)
    (hpoint : p'.runPoint = p.runPoint)
    (hrunning : p'.sharedSt.numRunningConnections = p.sharedSt.numRunningConnections)
    (hset : p'.sharedSt.connsFinished = p.sharedSt.connsFinished) : p'.Closing := by
  have hcount : p'.allConns.countP (·.task = .running) = p.allConns.countP (·.task = .running) := by
    have := congrArg (List.countP (· = .running)) hconns
    rwa [List.countP_map, List.countP_map] at this
  have hall : (∀ node ∈ p.allConns, node.task = .finished) →
      ∀ node ∈ p'.allConns, node.task = .finished := by
    intro hdone node hnode
    have hmem : node.task ∈ p.allConns.map Node.task := hconns ▸ List.mem_map_of_mem hnode
    obtain ⟨n, hn, heq⟩ := List.mem_map.mp hmem
    rw [← heq, hdone n hn]
  refine ⟨?_, ?_, fun hnow => ?_, fun hw => ?_⟩
  · rw [hrunning, hcount, h.running]
  · rw [hcancel, hstate]
    exact h.stopped
  · obtain ⟨hc, hdone⟩ := h.set (hset ▸ hnow)
    exact ⟨hcancel ▸ hc, hall hdone⟩
  · exact hall (h.returned (hpoint ▸ hw))

/-- New tasks do not run yet, and are launched on a pool that was not cancelled. -/
theorem Closing.grown (h : p.Closing) {p' : Pool} (hconns : p'.allConns = p.grown.allConns)
    (hcancel : p'.cancelEv = p.cancelEv) (hshared : p'.sharedSt = p.sharedSt)
    (hbefore : p.state ≠ .cancelled) (hstate : p'.state ≠ .cancelled)
    (hpoint : p'.runPoint ≠ .returned) : p'.Closing := by
  have hclear : p.cancelEv ≠ true := fun hc => hbefore (h.stopped.mp hc)
  refine ⟨?_, ?_, fun hnow => ?_, fun hw => absurd hw hpoint⟩
  · rw [hshared, hconns, h.running, Pool.grown, List.countP_append, List.countP_replicate]
    rfl
  · rw [hcancel]
    exact iff_of_false hclear hstate
  · exact absurd (h.set (hshared ▸ hnow)).1 hclear

theorem map_task_set {i : Nat} {node node' : Node} (hnode : p.allConns[i]? = some node)
    (htask : node'.task = node.task) :
    (p.allConns.set i node').map Node.task = p.allConns.map Node.task := by
  obtain ⟨hi, heq⟩ := List.getElem?_eq_some_iff.mp hnode
  rw [List.map_set, htask, ← heq]
  refine List.ext_getElem? fun k => ?_
  rw [List.getElem?_set]
  split
  · next h => simp [← h, hi]
  · rfl

/-- A user takes a connection: its task goes on. -/
theorem Closing.taken (h : p.Closing) {i : Nat} {node : Node} (hnode : p.allConns[i]? = some node)
    (holders : List Nat) : Closing { p.taken i node with holders } := by
  obtain ⟨hrunning, hset⟩ := p.sharedSt.running_hooks i .idle .inUse
  exact h.keep (map_task_set hnode rfl) rfl rfl rfl hrunning hset

/-- **One step.** -/
theorem Change.closing {a : PoolAction} {p' : Pool} (hi : p.Inv) (hc : Change p a p')
    (hw : p.Waits a) (h : p.Closing) : p'.Closing := by
  cases hc with
  | run hpoint =>
    refine h.grown rfl rfl rfl ?_ nofun nofun
    rw [hi.state, hpoint]
    nofun
  | need hpoint _ =>
    have hstate : p.state ≠ .cancelled := by
      rw [hi.state, hpoint]
      nofun
    exact h.grown rfl rfl rfl hstate hstate (by rw [Pool.grown, hpoint]; nofun)
  | cancel hpoint =>
    have hclear : p.cancelEv ≠ true := by
      intro hset
      have hstate := hi.state
      rw [h.stopped.mp hset, hpoint] at hstate
      cases hstate
    refine ⟨h.running, iff_of_true rfl rfl, fun hnow => absurd (h.set hnow).1 hclear, ?_⟩
    -- with no connection there is nothing to wait for
    intro hreturned node hnode
    have hnode : node ∈ p.allConns := hnode
    have hreturned : (if p.allConns.isEmpty then RunPoint.returned else .waitsForTasks) =
      .returned := hreturned
    cases hconns : p.allConns with
    | nil =>
      rw [hconns] at hnode
      cases hnode
    | cons _ _ =>
      rw [hconns] at hreturned
      cases hreturned
  | finished hpoint hset => exact ⟨h.running, h.stopped, h.set, fun _ => (h.set hset).2⟩
  | @start i stopped node r hnode htask hstop _ hr =>
    refine h.leaves hnode (by rw [htask]; nofun) hstop hr (by rw [htask]; rfl) rfl fun hs => ?_
    subst hs
    exact hw
  | @proceed i ec stopped node s r hnode htask hstop _ hr =>
    refine h.leaves hnode (by rw [htask]; nofun) hstop hr (by rw [htask]; rfl) rfl fun hs => ?_
    subst hs
    exact hw
  | getRefused _ => exact h
  | getTakes _ _ hnode _ => exact h.taken hnode _
  | @wakeTakes k _ _ _ _ _ _ hnode _ =>
    have hresumed : (p.resumed k).Closing := h.keep rfl rfl rfl rfl rfl rfl
    exact hresumed.taken hnode _
  | getParks _ _ | wakeParks _ _ _ | stopParked _ | stopRunnable _ | wakeRefused _ _
  | wakeStops _ _ _ => exact h.keep rfl rfl rfl rfl rfl rfl
  | giveBack _ hnode => exact h.keep (map_task_set hnode rfl) rfl rfl rfl rfl rfl

theorem closing_new (params : PoolParams) : (new params).Closing :=
  ⟨rfl, by simp [new], nofun, nofun⟩

theorem orderly_closing {params : PoolParams} (hparams : checkPoolParams params = none)
    {as : List PoolAction} (hr : Orderly params as p) : p.Closing := by
  induction hr with
  | new => exact closing_new params
  | step hr hs hw ih =>
    have hi := reaches_inv hparams hr.reaches
    exact (step_inv hi hs).1.closing hi hw ih

/-! ## 3. The last task to run need not be the last one -/

/-- A step that is not orderly sets `conns_finished_cv` while a task has not started. -/
theorem early_of_not_waits (hi : p.Inv) (h : p.Closing) {a : PoolAction} {p' : Pool}
    (hc : Change p a p') (hw : ¬ p.Waits a) :
    p'.runPoint = .waitsForTasks ∧ p'.sharedSt.connsFinished = true ∧
      ∃ node ∈ p'.allConns, node.task = .launched := by
  -- the task of node `i` is told to stop
  have hlast : ∀ {i node st s r}, p.allConns[i]? = some node → node.task ≠ .finished →
      p.cancelEv = true → st.numRunningConnections =
        p.sharedSt.numRunningConnections + (if node.task = .running then 0 else 1) →
      node.Leaves i true st s r →
      ¬ ((∃ j n, j ≠ i ∧ p.allConns[j]? = some n ∧ n.task = .running) ∨
        ∀ j n, j ≠ i → p.allConns[j]? = some n → n.task ≠ .launched) →
      (p.withNode i r).runPoint = .waitsForTasks ∧
        (p.withNode i r).sharedSt.connsFinished = true ∧
        ∃ node ∈ (p.withNode i r).allConns, node.task = .launched := by
    intro i node st s r hnode htask hstop hst hr hnot
    obtain ⟨hnone, hlaunched⟩ := not_or.mp hnot
    have hcount := h.count hnode hst hr
    rw [(countP_others hnode r.2 (by rw [hr.task, if_pos rfl])).mpr hnone] at hcount
    refine ⟨?_, ?_, ?_⟩
    · show p.runPoint = _
      have hstate := hi.state
      rw [h.stopped.mp hstop] at hstate
      cases hpoint : p.runPoint with
      | notCalled | waitsForNeed =>
        rw [hpoint] at hstate
        cases hstate
      | waitsForTasks => rfl
      | returned => exact absurd (h.returned hpoint node (List.mem_of_getElem? hnode)) htask
    · exact hr.running.2.mpr (.inr ⟨rfl, by rw [hcount]; rfl⟩)
    · simp only [not_forall, not_not] at hlaunched
      obtain ⟨j, n, hne, hn, hl⟩ := hlaunched
      refine ⟨n, List.mem_of_getElem? (?_ : (p.allConns.set i r.2)[j]? = some n), hl⟩
      rw [getElem?_set_of hnode, if_neg hne, hn]
  cases hc with
  | @start i stopped node r hnode htask hstop _ hr =>
    cases stopped with
    | false => exact absurd trivial hw
    | true => exact hlast hnode (by rw [htask]; nofun) (hstop rfl) (by rw [htask]; rfl) hr hw
  | @proceed i ec stopped node s r hnode htask hstop _ hr =>
    cases stopped with
    | false => exact absurd trivial hw
    | true => exact hlast hnode (by rw [htask]; nofun) (hstop rfl) (by rw [htask]; rfl) hr hw
  | _ => exact absurd trivial hw

/-- **`run()` returns after the last task**, in every run in which no task that is told to stop is
    the last one running while another has not started; and where that happens for the first time,
    `run()` can return at once, with a task that has not even started. -/
theorem orderly_finished {params : PoolParams} (hparams : checkPoolParams params = none)
    {as : List PoolAction} (hr : Orderly params as p) :
    (p.runPoint = .returned → ∀ node ∈ p.allConns, node.task = .finished) ∧
    ∀ a p', p.step a = some (.ok p') → ¬ p.Waits a →
      ∃ p'', p'.step .connsFinished = some (.ok p'') ∧ p''.runPoint = .returned ∧
        ∃ node ∈ p''.allConns, node.task ≠ .finished := by
  have h := orderly_closing hparams hr
  refine ⟨h.returned, fun a p' hs hw => ?_⟩
  have hi := reaches_inv hparams hr.reaches
  obtain ⟨hpoint, hset, node, hnode, htask⟩ := early_of_not_waits hi h (step_inv hi hs).1 hw
  refine ⟨{ p' with runPoint := .returned }, ?_, rfl, node, hnode, by rw [htask]; nofun⟩
  show (if _ then _ else _) = _
  rw [if_pos ⟨hpoint, hset⟩]

/-- Both tasks have started when the pool is cancelled. -/
theorem orderly_finished_two :
    ∃ as p, Orderly { initialSize := 2 } as p ∧ p.runPoint = .returned ∧
      ∀ node ∈ p.allConns, node.task = .finished := by
  have hr : Orderly { initialSize := 2 } _ _ :=
    .step (.step (.step (.step (.step (.step (.step .new
      (show step _ .run = _ from rfl) trivial)
      (show step _ (.start 0 false) = _ from rfl) trivial)
      (show step _ (.start 1 false) = _ from rfl) trivial)
      (show step _ .cancel = _ from rfl) trivial)
      (show step _ (.proceed 0 .operationCanceled true) = _ from rfl)
      (Or.inl ⟨1, _, by decide, rfl, rfl⟩))
      (show step _ (.proceed 1 .operationCanceled true) = _ from rfl)
      (Or.inr fun j node hne hnode => by
        match j, hne with
        | 0, _ => cases hnode; decide
        | _ + 2, _ => cases hnode))
      (show step _ .connsFinished = _ from rfl) trivial
  exact ⟨_, _, hr, rfl, (orderly_finished (by decide) hr).1 rfl⟩

/-- **One task is cancelled before the other has started**: `run()` returns, and the other task is
    still to come. -/
theorem returned_unfinished :
    ¬ ∀ params, checkPoolParams params = none → ∀ as p, Reaches params as p →
      p.runPoint = .returned → ∀ node ∈ p.allConns, node.task = .finished := by
  intro h
  have hr : Reaches { initialSize := 2 } _ _ := .step (.step (.step (.step (.step .new
    (show step _ .run = _ from rfl)) (show step _ (.start 0 false) = _ from rfl))
    (show step _ .cancel = _ from rfl))
    (show step _ (.proceed 0 .operationCanceled true) = _ from rfl))
    (show step _ .connsFinished = _ from rfl)
  have htask := h _ (by decide) _ _ hr rfl ({} : Node) (by decide)
  cases htask

end

end Pool

end Pooling

end NativePg
