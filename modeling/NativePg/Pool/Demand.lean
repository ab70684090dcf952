/-
  File:      NativePg/Pool/Demand.lean
  Subject:   The calls that wait for a connection, and the connections that will serve them.

  * `length_idleList` -- the idle list is as long as there are idle nodes;
  * `Shared.Attended` -- while a call is parked, every idle connection has a call on its way to it.
    **`reaches_attended`**: no wake-up is lost;
  * `underWay`, `Supplied` -- once `run()` has nothing to do, each parked call has a connection that
    is getting ready for it, or the pool is full. **`reaches_supplied`**.
-/
import NativePg.Pool.Bookkeeping

namespace NativePg

namespace Pooling

/-! ## 1. Idle connections -/

/-- A list of indices, each once, of the entries that pass a test: there are as many. -/
theorem length_eq_countP {α : Type} {l : List α} {q : α → Bool} {is : List Nat} (hnodup : is.Nodup)
    (hmem : ∀ i, i ∈ is ↔ ∃ a, l[i]? = some a ∧ q a = true) : is.length = l.countP q := by
  have hperm : is.Perm ((List.range l.length).filter fun i => l[i]?.any q) := by
    refine (List.perm_ext_iff_of_nodup hnodup (List.nodup_range.filter _)).mpr fun i => ?_
    rw [hmem, List.mem_filter, List.mem_range, Option.any_eq_true]
    constructor
    · rintro ⟨a, ha, hq⟩
      exact ⟨(List.getElem?_eq_some_iff.mp ha).1, a, ha, hq⟩
    · exact fun h => h.2
  have hmap : (List.range l.length).map (fun i => l[i]?) = l.map some := by
    refine List.ext_getElem (by simp) fun i h h' => ?_
    simp
  calc is.length = (List.range l.length).countP fun i => l[i]?.any q := by
        rw [hperm.length_eq, List.countP_eq_length_filter]
    _ = ((List.range l.length).map fun i => l[i]?).countP (·.any q) := by
        rw [List.countP_map]
        rfl
    _ = l.countP q := by
        rw [hmap, List.countP_map]
        rfl

namespace Pool

theorem Inv.length_idleList {p : Pool} (h : p.Inv) :
    p.sharedSt.idleList.length = p.allConns.countP (·.status = .idle) := by
  refine length_eq_countP h.nodup fun i => ?_
  rw [h.idle]
  simp

end Pool

/-! ## 2. Every wake-up finds its connection -/

namespace Shared

/-- While a call is parked, there are no more idle connections than calls that were let go. -/
def Attended (st : Shared) : Prop := 0 < st.parked → st.idleList.length ≤ st.runnable.length

/-- Only these count. -/
theorem Attended.congr {st st' : Shared} (h : st'.Attended) (hb : SameBooks st st') :
    st.Attended := by
  unfold Attended
  rw [hb.parked, hb.idleList, hb.runnable]
  exact h

/-- A connection that becomes idle lets a call go, and one that leaves is no longer there. -/
theorem Attended.hooks {st : Shared} (h : st.Attended) (i : Nat) (s s' : NodeStatus) :
    (st.hooks i s s').Attended := by
  have hcalls := calls_hooks st i s s'
  intro hpos
  rw [idleList_hooks]
  by_cases henter : s' = .idle ∧ s ≠ .idle
  · rw [if_pos henter] at hcalls ⊢
    obtain ⟨hparked, hrunnable⟩ := Prod.mk.inj hcalls
    rw [hparked] at hpos
    rw [hrunnable]
    unfold cancelOne at hpos ⊢
    by_cases hzero : st.parked = 0
    · rw [if_pos hzero] at hpos
      omega
    · have hle := h (by omega)
      rw [if_neg hzero]
      simp only [List.length_append, List.length_singleton]
      omega
  · rw [if_neg henter] at hcalls ⊢
    obtain ⟨hparked, hrunnable⟩ := Prod.mk.inj hcalls
    rw [hparked] at hpos
    rw [hrunnable]
    have hle := h hpos
    by_cases hexit : s' ≠ .idle ∧ s = .idle
    · rw [if_pos hexit]
      exact Nat.le_trans List.length_erase_le hle
    · rw [if_neg hexit]
      exact hle

/-- A node that is not becoming idle wakes nobody. -/
theorem parked_hooks {st : Shared} {i : Nat} {s s' : NodeStatus} (h : ¬ (s' = .idle ∧ s ≠ .idle)) :
    (st.hooks i s s').parked = st.parked ∧ (st.hooks i s s').runnable = st.runnable := by
  have hcalls := calls_hooks st i s s'
  rw [if_neg h] at hcalls
  exact Prod.mk.inj hcalls

theorem parked_hooks_le (st : Shared) (i : Nat) (s s' : NodeStatus) :
    (st.hooks i s s').parked ≤ st.parked := by
  by_cases h : s' = .idle ∧ s ≠ .idle
  · have hcalls := calls_hooks st i s s'
    rw [if_pos h] at hcalls
    rw [(Prod.mk.inj hcalls).1]
    unfold cancelOne
    split
    · exact Nat.le_refl _
    · exact Nat.sub_le _ _
  · exact Nat.le_of_eq (parked_hooks h).1

end Shared

namespace Pool

section
variable {p : Pool}

/-- What the task of a node does wakes calls, and parks none. -/
theorem leaves_parked_le {i : Nat} {node : Node} {stopped : Bool} {st st₀ : Shared} {s : NodeStatus}
    {r : Shared × Node} (hr : node.Leaves i stopped st s r) (hst : Shared.SameBooks st st₀) :
    r.1.parked ≤ st₀.parked := by
  rw [(hr.books hst).parked]
  exact Shared.parked_hooks_le st₀ i node.status s

/-- A pool that was cancelled has nobody parked. -/
theorem Change.gone {a : PoolAction} {p' : Pool} (hc : Change p a p')
    (h : p.state = .cancelled → p.sharedSt.parked = 0) :
    p'.state = .cancelled → p'.sharedSt.parked = 0 := by
  intro hstate
  cases hc with
  | run hpoint => cases hstate
  | cancel hpoint => rfl
  | start _ _ _ _ hr =>
    have hle := leaves_parked_le hr (Shared.sameBooks_onConnectionStart _)
    rw [h hstate] at hle
    exact Nat.le_zero.mp hle
  | proceed _ _ _ _ hr =>
    have hle := leaves_parked_le hr ⟨rfl, rfl, rfl, rfl, rfl⟩
    rw [h hstate] at hle
    exact Nat.le_zero.mp hle
  | getTakes hne | getParks hne | wakeTakes _ hne | wakeParks _ hne | wakeStops _ hne =>
    exact absurd hstate hne
  | stopParked hpos =>
    have hzero := h hstate
    omega
  | _ => exact h hstate

/-- A connection is taken, and as many calls were let go as before, or one fewer. -/
theorem attended_taken (h : p.sharedSt.Attended) {i : Nat} {rest : List Nat}
    (hlist : p.sharedSt.idleList = i :: rest) {runnable : List Bool}
    (hlength : p.sharedSt.runnable.length ≤ runnable.length + 1) (n : Nat) :
    (({ p.sharedSt with runnable, numPendingRequests := n } : Shared).hooks i .idle
      .inUse).Attended := by
  intro hpos
  rw [Shared.idleList_hooks, (Shared.parked_hooks (by simp)).2]
  rw [(Shared.parked_hooks (by simp)).1] at hpos
  have hle := h hpos
  simp only [hlist, List.length_cons] at hle
  simp only [reduceCtorEq, false_and, if_false, ne_eq, not_false_eq_true, and_self, if_true, hlist,
    List.erase_cons_head]
  omega

/-- **One step.** -/
theorem Change.attended {a : PoolAction} {p' : Pool} (hc : Change p a p')
    (hgone : p.state = .cancelled → p.sharedSt.parked = 0) (h : p.sharedSt.Attended) :
    p'.sharedSt.Attended := by
  cases hc with
  | run _ | need _ _ | finished _ _ | getRefused _ | giveBack _ _ => exact h
  | cancel _ => exact fun hpos => absurd hpos (Nat.lt_irrefl 0)
  | start _ _ _ _ hr =>
    exact (h.hooks _ _ _).congr (hr.books (Shared.sameBooks_onConnectionStart _))
  | proceed _ _ _ _ hr => exact (h.hooks _ _ _).congr (hr.books ⟨rfl, rfl, rfl, rfl, rfl⟩)
  | getTakes _ hlist _ _ => exact attended_taken h hlist (Nat.le_succ _) p.sharedSt.numPendingRequests
  | wakeTakes hk _ hlist _ _ =>
    refine attended_taken h hlist ?_ _
    have hlength := List.length_eraseIdx_of_lt hk
    omega
  | getParks _ hlist | wakeParks _ _ hlist | wakeStops _ _ hlist =>
    intro _
    show p.sharedSt.idleList.length ≤ _
    rw [hlist]
    exact Nat.zero_le _
  | wakeRefused _ hstate =>
    intro hpos
    have hpos : 0 < p.sharedSt.parked := hpos
    rw [hgone hstate] at hpos
    omega
  | stopParked hpos =>
    intro _
    have hle := h hpos
    show p.sharedSt.idleList.length ≤ (p.sharedSt.runnable ++ [true]).length
    rw [List.length_append]
    omega
  | stopRunnable _ =>
    intro hpos
    have hle := h hpos
    show p.sharedSt.idleList.length ≤ (p.sharedSt.runnable.set _ _).length
    rw [List.length_set]
    exact hle

theorem attended_of_reaches {params : PoolParams} (hparams : checkPoolParams params = none)
    {as : List PoolAction} (hr : Reaches params as p) :
    (p.state = .cancelled → p.sharedSt.parked = 0) ∧ p.sharedSt.Attended := by
  induction hr with
  | new => exact ⟨nofun, nofun⟩
  | step hr hs ih =>
    have hc := (step_inv (reaches_inv hparams hr) hs).1
    exact ⟨hc.gone ih.1, hc.attended ih.1 ih.2⟩

/-- **No wake-up is lost.** While a call of `get_connection` is parked, which no call is once the
    pool was cancelled, each idle connection has a call of its own that was let go and has not
    resumed: so where there is an idle connection, somebody is on the way to take it. -/
theorem reaches_attended {params : PoolParams} (hparams : checkPoolParams params = none)
    {as : List PoolAction} (hr : Reaches params as p)
    (hparked : 0 < p.sharedSt.parked) :
    p.allConns.countP (·.status = .idle) ≤ p.sharedSt.runnable.length ∧
      ((∃ node ∈ p.allConns, node.status = .idle) → p.sharedSt.runnable ≠ []) := by
  have hle : p.allConns.countP (·.status = .idle) ≤ p.sharedSt.runnable.length := by
    rw [← (reaches_inv hparams hr).length_idleList]
    exact (attended_of_reaches hparams hr).2 hparked
  refine ⟨hle, ?_⟩
  rintro ⟨node, hnode, hidle⟩ hnil
  have hpos : 0 < p.allConns.countP (·.status = .idle) :=
    List.countP_pos_iff.mpr ⟨node, hnode, by simp [hidle]⟩
  rw [hnil] at hle
  exact absurd hle (Nat.not_le.mpr hpos)

/-- Two calls wait when the connection is ready; one is let go, the other stays parked. -/
theorem reaches_attended_two_calls :
    ∃ as p, Reaches { maxSize := 1 } as p ∧ 0 < p.sharedSt.parked ∧
      (∃ node ∈ p.allConns, node.status = .idle) ∧ p.sharedSt.runnable ≠ [] := by
  have hr : Reaches { maxSize := 1 } _ _ := .step (.step (.step (.step (.step .new
    (show step _ .run = _ from rfl)) (show step _ .getConnection = _ from rfl))
    (show step _ .getConnection = _ from rfl)) (show step _ (.start 0 false) = _ from rfl))
    (show step _ (.proceed 0 .success false) = _ from rfl)
  have hidle := (reaches_attended (by decide) hr (by decide)).2
  exact ⟨_, _, hr, by decide, ⟨_, List.mem_cons_self, rfl⟩, hidle ⟨_, List.mem_cons_self, rfl⟩⟩

/-! ## 3. Every parked call has a connection under way -/

/-- The connections that are getting ready, and those whose task has not started yet. -/
def underWay (p : Pool) : Nat :=
  p.allConns.countP (·.status.isPending) + p.allConns.countP (·.status = .initial)

/-- What `run()` has seen to when it waits and was not notified. -/
structure Supplied (p : Pool) : Prop where
  initial : p.runPoint = .waitsForNeed → p.params.initialSize ≤ p.allConns.length
  parked : p.runPoint = .waitsForNeed → p.connectionsNeeded = false →
    p.allConns.length = p.params.maxSize ∨ p.sharedSt.parked ≤ p.underWay

/-- What one node counts for. -/
theorem underWay_set {i : Nat} {node : Node} (hnode : p.allConns[i]? = some node)
    (r : Shared × Node) :
    (p.withNode i r).underWay +
        (if node.status.isPending ∨ node.status = .initial then 1 else 0) =
      p.underWay + if r.2.status.isPending ∨ r.2.status = .initial then 1 else 0 := by
  have hpending := countP_set_add hnode r.2 (·.status.isPending)
  have hinitial := countP_set_add hnode r.2 (·.status = .initial)
  unfold underWay
  show (p.allConns.set i r.2).countP _ + (p.allConns.set i r.2).countP _ + _ = _
  cases hs : node.status <;> cases hs' : r.2.status <;>
    simp only [hs, hs', NodeStatus.isPending, decide_true, decide_false, Bool.false_eq_true,
      reduceCtorEq, if_true, if_false, or_true, or_false] at hpending hinitial ⊢ <;> omega

/-- **A node moves on.** One that was under way stays so, or it is idle and has let a call go. -/
theorem Supplied.leaves (h : p.Supplied) {i : Nat} {node : Node}
    (hnode : p.allConns[i]? = some node) {stopped : Bool} {st : Shared}
    (hst : Shared.SameBooks st p.sharedSt) {s : NodeStatus} (hm : node.Moves s)
    {r : Shared × Node} (hr : node.Leaves i stopped st s r) : (p.withNode i r).Supplied := by
  have hlength : (p.withNode i r).allConns.length = p.allConns.length := List.length_set
  refine ⟨fun hpoint => by rw [hlength]; exact h.initial hpoint, fun hpoint hneed => ?_⟩
  rw [hlength]
  refine (h.parked hpoint hneed).imp id fun hle => ?_
  have hset := underWay_set hnode r
  rw [hr.status] at hset
  show r.1.parked ≤ _
  by_cases hbefore : node.status.isPending = true ∨ node.status = .initial
  · rw [if_pos hbefore] at hset
    rcases hm.pending hbefore with hpending | hidle
    · have hparked := leaves_parked_le hr hst
      rw [if_pos (.inl hpending)] at hset
      omega
    · -- it has become idle
      have hneIdle : node.status ≠ .idle := by
        rintro hs
        rw [hs] at hbefore
        rcases hbefore with hb | hb <;> cases hb
      have hparked := (hr.books hst).parked
      have hcalls := Shared.calls_hooks p.sharedSt i node.status s
      rw [if_pos ⟨hidle, hneIdle⟩] at hcalls
      rw [(Prod.mk.inj hcalls).1] at hparked
      unfold Shared.cancelOne at hparked
      by_cases hzero : p.sharedSt.parked = 0
      · rw [if_pos hzero] at hparked
        omega
      · rw [if_neg hzero] at hparked
        have hparked : r.1.parked = p.sharedSt.parked - 1 := hparked
        omega
  · have hparked := leaves_parked_le hr hst
    rw [if_neg hbefore] at hset
    omega

/-- `create_connections` creates what is missing. -/
theorem supplied_grown (h : p.Inv) {p' : Pool} (hparams : p'.params = p.params)
    (hconns : p'.allConns = p.grown.allConns) (hshared : p'.sharedSt = p.sharedSt) :
    p'.Supplied := by
  have hrequests := h.requests
  have hpending := h.pending
  have hsizes := h.sizes
  have hlength : p'.allConns.length = p.allConns.length + p.missing := by
    rw [hconns, Pool.grown, List.length_append, List.length_replicate]
  have hunder : p'.underWay = p.underWay + p.missing := by
    unfold underWay
    rw [hconns, Pool.grown]
    simp only [List.countP_append, List.countP_replicate, NodeStatus.isPending, decide_true, if_true,
      Bool.false_eq_true, if_false]
    omega
  have hge : p.sharedSt.numPendingConnections ≤ p.underWay := by
    rw [hpending]
    exact Nat.le_add_right _ _
  have hsize := h.size
  have hmissing : p.missing = min (max (p.sharedSt.numPendingRequests -
      p.sharedSt.numPendingConnections) (p.params.initialSize - p.allConns.length))
      (p.params.maxSize - p.allConns.length) := rfl
  refine ⟨fun _ => ?_, fun _ _ => ?_⟩
  · rw [hparams, hlength]
    omega
  · rw [hparams, hlength, hshared, hunder]
    omega

/-- Only these count. -/
theorem Supplied.keep (h : p.Supplied) {p' : Pool} (hpoint : p'.runPoint = p.runPoint)
    (hparams : p'.params = p.params) (hlength : p'.allConns.length = p.allConns.length)
    (hunder : p'.underWay = p.underWay)
    (hneed : p'.connectionsNeeded = true ∨ p'.connectionsNeeded = p.connectionsNeeded ∧
      p'.sharedSt.parked ≤ p.sharedSt.parked) : p'.Supplied := by
  refine ⟨?_, ?_⟩
  · rw [hpoint, hparams, hlength]
    exact h.initial
  · rw [hpoint, hparams, hlength, hunder]
    intro hw hclear
    rcases hneed with hneed | ⟨hneed, hle⟩
    · rw [hneed] at hclear
      cases hclear
    · exact (h.parked hw (hneed ▸ hclear)).imp id fun hp => Nat.le_trans hle hp

/-- An idle connection was not under way, and one in use is not. -/
theorem underWay_taken {i : Nat} {node : Node} (hnode : p.allConns[i]? = some node)
    (hs : node.status = .idle) : (p.taken i node).underWay = p.underWay := by
  have hset := underWay_set hnode (p.sharedSt.hooks i .idle .inUse, { node with status := .inUse })
  rw [if_neg (by simp [hs, NodeStatus.isPending]), if_neg (by simp [NodeStatus.isPending])] at hset
  exact hset

/-- **One step.** -/
theorem Change.supplied {a : PoolAction} {p' : Pool} (hi : p.Inv) (hc : Change p a p')
    (h : p.Supplied) : p'.Supplied := by
  cases hc with
  | run _ | need _ _ => exact supplied_grown hi rfl rfl rfl
  | cancel _ =>
    have hpoint : p.onCancel.runPoint ≠ .waitsForNeed := by
      show (if p.allConns.isEmpty then RunPoint.returned else .waitsForTasks) ≠ _
      split <;> nofun
    exact ⟨fun hw => absurd hw hpoint, fun hw => absurd hw hpoint⟩
  | finished _ _ => exact ⟨nofun, nofun⟩
  | start hnode _ _ hm hr => exact h.leaves hnode (Shared.sameBooks_onConnectionStart _) hm hr
  | proceed hnode _ _ hm hr => exact h.leaves hnode ⟨rfl, rfl, rfl, rfl, rfl⟩ hm hr
  | getRefused _ => exact h
  | getTakes _ _ hnode hs =>
    refine h.keep rfl rfl List.length_set (underWay_taken hnode hs) (.inr ⟨rfl, ?_⟩)
    exact Shared.parked_hooks_le p.sharedSt _ _ _
  | wakeTakes _ _ _ hnode hs =>
    refine h.keep rfl rfl List.length_set (underWay_taken hnode hs) (.inr ⟨rfl, ?_⟩)
    exact Shared.parked_hooks_le (p.resumed _).sharedSt _ _ _
  | getParks _ _ | wakeParks _ _ _ => exact h.keep rfl rfl rfl rfl (.inl rfl)
  | stopParked _ => exact h.keep rfl rfl rfl rfl (.inr ⟨rfl, Nat.sub_le _ _⟩)
  | stopRunnable _ | wakeRefused _ _ | wakeStops _ _ _ =>
    exact h.keep rfl rfl rfl rfl (.inr ⟨rfl, Nat.le_refl _⟩)
  | giveBack hk hnode =>
    refine h.keep rfl rfl List.length_set ?_ (.inr ⟨rfl, Nat.le_refl _⟩)
    exact Nat.add_right_cancel (underWay_set hnode (p.sharedSt, _))

theorem supplied_of_reaches {params : PoolParams} (hparams : checkPoolParams params = none)
    {as : List PoolAction} (hr : Reaches params as p) : p.Supplied := by
  induction hr with
  | new => exact ⟨nofun, nofun⟩
  | step hr hs ih =>
    have hi := reaches_inv hparams hr
    exact (step_inv hi hs).1.supplied hi ih

/-- **Enough connections are under way.** When `run()` waits for `connections_needed_` and the event
    is clear, the pool is full or each parked call has a connection that is getting ready or whose
    task is about to start; and the pool has its initial size. -/
theorem reaches_supplied {params : PoolParams} (hparams : checkPoolParams params = none)
    {as : List PoolAction} (hr : Reaches params as p) (hpoint : p.runPoint = .waitsForNeed)
    (hneed : p.connectionsNeeded = false) :
    (p.allConns.length = p.params.maxSize ∨
      p.sharedSt.parked ≤ p.allConns.countP (·.status.isPending) +
        p.allConns.countP (·.status = .initial)) ∧
    p.params.initialSize ≤ p.allConns.length := by
  have h := supplied_of_reaches hparams hr
  exact ⟨h.parked hpoint hneed, h.initial hpoint⟩

/-- Two calls wait; `run()` has created a second connection, whose task has not started. -/
theorem reaches_supplied_two_calls :
    ∃ as p, Reaches {} as p ∧ p.sharedSt.parked = 2 ∧ p.allConns.length < p.params.maxSize ∧
      2 ≤ p.underWay := by
  have hr : Reaches {} _ _ := .step (.step (.step (.step (.step .new
    (show step _ .run = _ from rfl)) (show step _ (.start 0 false) = _ from rfl))
    (show step _ .getConnection = _ from rfl)) (show step _ .getConnection = _ from rfl))
    (show step _ .connectionsNeeded = _ from rfl)
  have hsupplied := (reaches_supplied (by decide) hr rfl rfl).1
  exact ⟨_, _, hr, rfl, by decide, hsupplied.resolve_left (by decide)⟩

end

end Pool

end Pooling

end NativePg
