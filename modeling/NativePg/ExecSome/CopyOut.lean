/-
  File:      NativePg/ExecSome/CopyOut.lean
  Subject:   The data of a COPY OUT on its way to the user, and the events around it.

  * `Tracks` -- what holds at the head of the loop: the views handed out so far and those
    collected are the payloads of the CopyData messages, all views lie in the committed area, and
    views are collected only inside a COPY. `Tracks.turn`, `Tracks.ends`: every turn keeps it;
  * **`exec_some_copy_out`** -- so no byte is lost, repeated or moved while a view refers to it;
  * `ErrorsInCopy` -- the condition on the server's messages under which the events have the shape
    of COPY blocks. **`exec_some_shape_iff`**: they have it exactly then; an ErrorResponse outside
    a COPY is reported as the end of one.
-/
import NativePg.ExecSome.Copy

namespace NativePg

open Framing

/-! ## 1. The invariant -/

/-- The response machine, before any message. -/
def Responding.start (req : Request) : Responding := (readResponseFsm req true, [])

namespace ExecSome

/-- What holds at the head of the loop. -/
structure Tracks (req : Request) (s : ExecSome) : Prop where
  wf : s.fsm.readFsm.Wf
  steps : Steps respond (Responding.start req) s.delivered (.ok (s.fsm.readFsm, s.calls))
  consumed_le : s.fsm.consumed ≤ s.st.committed.length
  copying : ReadResponseFsm.copying s.fsm.readFsm.state = inCopy s.delivered
  /-- Views are collected inside a COPY only. -/
  collected : s.copyBuffs ≠ [] → inCopy s.delivered = true
  /-- They lie in the messages that have been taken and not yet consumed. -/
  held : ∀ b ∈ s.copyBuffs, s.st.readBuffer.Holds s.fsm.consumed b
  handed : handedOut s.trace ++ s.st.readBuffer.views s.copyBuffs = copyPayload s.delivered
  moments : ∀ e ∈ s.trace, e.Sound
  phase : phaseOf (events s.trace) = (copyTrack s.delivered).map Phase.of

/-- What holds when the coroutine has returned `done`: `heard` are the messages behind which the
    response machine asked for more. -/
structure Stopped (req : Request) (s : ExecSome) (ec : ErrorCode) : Prop where
  handed : ec.failed = false → handedOut s.trace = copyPayload s.delivered
  moments : ∀ e ∈ s.trace, e.Sound
  heard : ∃ heard, phaseOf (events s.trace) = (copyTrack heard).map (fun _ => .ended) ∧
    ((s.delivered = heard ∧ ∃ σ, Steps respond (Responding.start req) heard (.ok σ)) ∨
      ∃ m x, s.delivered = heard ++ [m] ∧
        Steps respond (Responding.start req) (heard ++ [m]) (.error x))

/-- The coroutine as it goes on: behind three of the points it first clears the views. -/
def cleared (s : ExecSome) : ExecSome :=
  match s.fsm.resumePoint with
  | .copyData | .copyDone | .copyError => s.clear
  | _ => s

/-- What holds behind every call of `resume`. -/
def Sound (req : Request) (s : ExecSome) : Prop :=
  match s.result with
  | .error _ => False
  | .ok (.done ec) => s.Stopped req ec
  | .ok _ => s.cleared.Tracks req ∧
      (s.fsm.resumePoint = .write ∨ s.fsm.resumePoint = .read → s.copyBuffs = [])

section
variable {req : Request} {s s' : ExecSome} {msg : AnyBackendMessage} {size : Nat}
  {r : ReadResponseFsm.Reply} {ec : ErrorCode}

theorem Tracks.move (h : s.Tracks req) (hm : s.Reads msg size r) :
    s.fsm.readFsm.Move msg r := by
  obtain ⟨r', hr', hmove⟩ := ReadResponseFsm.resume_move h.wf msg
  cases hm.reply.symm.trans hr'
  exact hmove

/-- The views that are held lie in the committed area. -/
theorem Tracks.inside (h : s.Tracks req) {b : ConstBuffer} (hb : b ∈ s.copyBuffs) :
    s.st.readBuffer.Holds s.st.readBuffer.committedArea.length b :=
  ReadBuffer.Holds.mono (h.held b hb) h.consumed_le

/-- Outside a COPY no view is held. -/
theorem Tracks.empty (h : s.Tracks req) (hc : inCopy s.delivered = false) : s.copyBuffs = [] := by
  by_contra hne
  rw [h.collected hne] at hc
  cases hc

/-- Inside a COPY the events have opened a block, unless they had lost the shape before. -/
theorem Tracks.phase_eq (h : s.Tracks req) :
    phaseOf (events s.trace) = none ∧ copyTrack s.delivered = none ∨
      phaseOf (events s.trace) = some (Phase.of (inCopy s.delivered)) ∧
        copyTrack s.delivered = some (inCopy s.delivered) := by
  have hp := h.phase
  cases ht : copyTrack s.delivered with
  | none =>
    rw [ht] at hp
    exact .inl ⟨hp, rfl⟩
  | some c =>
    rw [ht] at hp
    rw [← (copyTrack_eq_some ht).2]
    exact .inr ⟨hp, rfl⟩

/-- What an accepted message does to the response machine. -/
theorem Tracks.step (h : s.Tracks req) (hm : s.Reads msg size r) (hr : r.result = .read) :
    r.fsm.Wf ∧
      Steps respond (Responding.start req) (s.delivered ++ [msg])
        (.ok (r.fsm, s.calls ++ r.calls)) ∧
      ReadResponseFsm.copying r.fsm.state = inCopy (s.delivered ++ [msg]) ∧
      (∀ m, msg = .copyOutResponse m → inCopy s.delivered = false) ∧
      (msg = .copyDone ∨ (∃ d, msg = .copyData d) → inCopy s.delivered = true) := by
  have hmove := h.move hm
  obtain ⟨hc, hout, hin⟩ := hmove.copying hr
  have hstep : respond (s.fsm.readFsm, s.calls) msg = .ok (r.fsm, s.calls ++ r.calls) := by
    simp [respond, hm.reply, hr]
  rw [h.copying] at hc hout hin
  exact ⟨hmove.wf h.wf hr, h.steps.snoc (.cons hstep .nil), by rw [hc, inCopy_snoc], hout, hin⟩

/-- A message the loop does not react to. -/
theorem Tracks.quiet (h : s.Tracks req) (hm : s.Reads msg size r) (hr : r.result = .read)
    (hq : msg.quiet = true) : (s.take msg size r).Tracks req := by
  obtain ⟨hwf, hsteps, hc, _, _⟩ := h.step hm hr
  have hin : inCopy (s.delivered ++ [msg]) = inCopy s.delivered := by
    rw [inCopy_snoc, copyStep_of_quiet hq]
  have htrack : copyTrack (s.delivered ++ [msg]) = copyTrack s.delivered := by
    have hne : ∀ e, msg ≠ .errorResponse e := by
      rintro e rfl
      cases hq
    rw [copyTrack_snoc]
    cases copyTrack s.delivered with
    | none => rfl
    | some c => rw [Option.bind_some, trackCopy_of_ne hne, copyStep_of_quiet hq]
  refine ⟨hwf, hsteps, hm.le, hc, fun hne => hin.trans (h.collected hne), fun b hb => ?_, ?_,
    h.moments, ?_⟩
  · exact (h.held b hb).mono (Nat.le_add_right _ _)
  · show _ = copyPayload (s.delivered ++ [msg])
    rw [copyPayload_snoc, copyPayload_of_quiet hq, List.append_nil]
    exact h.handed
  · show _ = (copyTrack (s.delivered ++ [msg])).map Phase.of
    rw [htrack]
    exact h.phase

/-- The view of a CopyData message is collected. -/
theorem Tracks.copyData {data : Bytes} (h : s.Tracks req) (hm : s.Reads (.copyData data) size r)
    (hr : r.result = .read) : ((s.push data).take (.copyData data) size r).Tracks req := by
  obtain ⟨hwf, hsteps, hc, _, hin⟩ := h.step hm hr
  have hcopy := hin (.inr ⟨data, rfl⟩)
  have hcopy' : inCopy (s.delivered ++ [.copyData data]) = true := by
    rw [inCopy_snoc, hcopy]
    rfl
  have htrack : copyTrack (s.delivered ++ [.copyData data]) = copyTrack s.delivered := by
    rw [copyTrack_snoc]
    cases copyTrack s.delivered <;> rfl
  obtain ⟨hsize, hle, hdata⟩ := payload_of_copyData hm.next
  have hlen : s.pending.length = s.st.readBuffer.committedArea.length - s.fsm.consumed :=
    List.length_drop
  have hview : s.st.readBuffer.view
      ⟨s.st.readBuffer.committedOffset + s.fsm.consumed + 5, data.length⟩ = data := by
    rw [Nat.add_assoc, s.st.readBuffer.view_eq (by omega), ← List.drop_drop]
    exact hdata.symm
  refine ⟨hwf, hsteps, hm.le, hc, fun _ => hcopy', fun b hb => ?_, ?_, h.moments, ?_⟩
  · rcases List.mem_append.mp hb with hb | hb
    · exact (h.held b hb).mono (Nat.le_add_right _ _)
    · rw [List.mem_singleton.mp hb]
      have hfirst : s.st.readBuffer.committedOffset ≤
          s.st.readBuffer.committedOffset + s.fsm.consumed + 5 := by omega
      have hlast : s.st.readBuffer.committedOffset + s.fsm.consumed + 5 + data.length ≤
          s.st.readBuffer.committedOffset + (s.fsm.consumed + size) := by omega
      exact ⟨hfirst, hlast⟩
  · show handedOut s.trace ++ s.st.readBuffer.views (s.copyBuffs ++ [_]) =
      copyPayload (s.delivered ++ [.copyData data])
    rw [ReadBuffer.views_snoc, hview, ← List.append_assoc, h.handed, copyPayload_snoc]
    rfl
  · show _ = (copyTrack (s.delivered ++ [.copyData data])).map Phase.of
    rw [htrack]
    exact h.phase

theorem Tracks.turn (h : s.Tracks req) (ht : s.Turn s') : s'.Tracks req := by
  cases ht with
  | copyData hm hr => exact h.copyData hm hr
  | quiet hm hr hq => exact h.quiet hm hr hq

theorem moments_snoc {trace : List Moment} {e : Moment} (h : ∀ e ∈ trace, e.Sound)
    (he : e.Sound) : ∀ e' ∈ trace ++ [e], e'.Sound := by
  intro e' hmem
  rcases List.mem_append.mp hmem with hmem | hmem
  · exact h e' hmem
  · rw [List.mem_singleton.mp hmem]
    exact he

/-- No view is held, and the next batch is asked for. -/
theorem Tracks.nextBatch (h : s.Tracks req) (hb : s.copyBuffs = []) : s.nextBatch.Sound req := by
  have hlen : 0 ≤ s.nextBatch.st.committed.length := Nat.zero_le _
  have hphase : phaseOf (events s.nextBatch.trace) = phaseOf (events s.trace) :=
    phaseOf_events_snoc _ _
  have hbuffs : s.nextBatch.copyBuffs = [] := hb
  refine ⟨⟨h.wf, h.steps, hlen, h.copying, fun hne => absurd hbuffs hne, fun b hmem => ?_, ?_, ?_,
    hphase.trans h.phase⟩, fun _ => hb⟩
  · rw [show s.nextBatch.cleared.copyBuffs = [] from hb] at hmem
    cases hmem
  · have hhanded := h.handed
    show handedOut (s.trace ++ [_]) ++ s.nextBatch.st.readBuffer.views s.copyBuffs =
      copyPayload s.delivered
    rw [hb, ReadBuffer.views_nil, List.append_nil] at hhanded ⊢
    rw [handedOut_snoc]
    simpa [Moment.handed] using hhanded
  · exact moments_snoc h.moments ⟨fun _ => hb, by simp⟩

/-- The views that are held are handed to the user, behind the message of `t` or behind none;
    the point `p` clears them. -/
theorem Tracks.handOut (h : s.Tracks req) {t : ExecSome} {p : ExecSomePoint}
    {res : ExecSomeResult} (hwf : t.fsm.readFsm.Wf)
    (hsteps : Steps respond (Responding.start req) t.delivered (.ok (t.fsm.readFsm, t.calls)))
    (hle : t.fsm.consumed ≤ t.st.committed.length)
    (hcopying : ReadResponseFsm.copying t.fsm.readFsm.state = inCopy t.delivered)
    (hsame : t.trace = s.trace ∧ t.copyBuffs = s.copyBuffs ∧ t.st = s.st)
    (hpayload : copyPayload t.delivered = copyPayload s.delivered)
    (hp : p = .copyData ∨ p = .copyDone ∨ p = .copyError)
    (hres : res = .copyData ∨ res = .copyDataWithEof)
    (hphase : (phaseOf (events s.trace)).bind (Phase.next · res) =
      (copyTrack t.delivered).map Phase.of) : (t.yields p res).Sound req := by
  obtain ⟨htrace, hbuffs, hst⟩ := hsame
  have hmoment : (Moment.mk res t.copyBuffs t.st.readBuffer).Sound := by
    refine ⟨fun e => ?_, fun _ b hb => ?_⟩
    · rcases hres with rfl | rfl <;> cases e
    · rw [hbuffs] at hb
      simp only [hst]
      exact h.inside hb
  have hhanded : (Moment.mk res t.copyBuffs t.st.readBuffer).handed =
      t.st.readBuffer.views t.copyBuffs := by
    rcases hres with rfl | rfl <;> rfl
  have hevent : res.isEvent = true := by
    rcases hres with rfl | rfl <;> rfl
  have hclear : (t.yields p res).cleared = (t.yields p res).clear := by
    rcases hp with rfl | rfl | rfl <;> rfl
  have htracks : (t.yields p res).clear.Tracks req := by
    refine ⟨hwf, hsteps, hle, hcopying, fun hne => absurd rfl hne, fun b hb => (by cases hb), ?_,
      moments_snoc (htrace ▸ h.moments) hmoment, ?_⟩
    · show handedOut (t.trace ++ [_]) ++ [] = copyPayload t.delivered
      rw [List.append_nil, handedOut_snoc, hhanded, htrace, hbuffs, hst, hpayload]
      exact h.handed
    · show phaseOf (events (t.trace ++ [_])) = _
      rw [phaseOf_events_snoc, htrace, if_pos hevent]
      exact hphase
  have hread : p = .write ∨ p = .read → t.copyBuffs = [] := by
    rcases hp with rfl | rfl | rfl <;> simp
  unfold Sound
  rw [hclear]
  rcases hres with rfl | rfl <;> exact ⟨htracks, hread⟩

/-- The end of a batch inside a COPY. -/
theorem Tracks.endBatch (h : s.Tracks req) (hb : s.copyBuffs ≠ []) :
    (s.yields .copyData .copyData).Sound req := by
  refine h.handOut h.wf h.steps h.consumed_le h.copying ⟨rfl, rfl, rfl⟩ rfl (.inl rfl) (.inl rfl) ?_
  rcases h.phase_eq with ⟨hp, ht⟩ | ⟨hp, ht⟩
  · rw [hp, ht]
    rfl
  · rw [hp, ht, h.collected hb]
    rfl

/-- The end of a COPY. -/
theorem Tracks.copyDone (h : s.Tracks req) (hm : s.Reads .copyDone size r)
    (hr : r.result = .read) :
    ((s.take .copyDone size r).yields .copyDone .copyDataWithEof).Sound req := by
  obtain ⟨hwf, hsteps, hc, _, hin⟩ := h.step hm hr
  refine h.handOut hwf hsteps hm.le hc ⟨rfl, rfl, rfl⟩ ?_ (.inr (.inl rfl)) (.inr rfl) ?_
  · exact (copyPayload_snoc _ _).trans (List.append_nil _)
  · show _ = (copyTrack (s.delivered ++ [.copyDone])).map Phase.of
    rw [copyTrack_snoc]
    rcases h.phase_eq with ⟨hp, ht⟩ | ⟨hp, ht⟩
    · rw [hp, ht]
      rfl
    · rw [hp, ht, hin (.inl rfl)]
      rfl

/-- An error: outside a COPY, both the events and the messages lose their order here. -/
theorem Tracks.copyError {e : ErrorResponse} (h : s.Tracks req)
    (hm : s.Reads (.errorResponse e) size r) (hr : r.result = .read) :
    ((s.take (.errorResponse e) size r).yields .copyError .copyDataWithEof).Sound req := by
  obtain ⟨hwf, hsteps, hc, _, _⟩ := h.step hm hr
  refine h.handOut hwf hsteps hm.le hc ⟨rfl, rfl, rfl⟩ ?_ (.inr (.inr rfl)) (.inr rfl) ?_
  · exact (copyPayload_snoc _ _).trans (List.append_nil _)
  · show _ = (copyTrack (s.delivered ++ [.errorResponse e])).map Phase.of
    rw [copyTrack_snoc]
    rcases h.phase_eq with ⟨hp, ht⟩ | ⟨hp, ht⟩
    · rw [hp, ht]
      rfl
    · rw [hp, ht]
      cases inCopy s.delivered <;> rfl

/-- The beginning of a COPY: no view is held, so none is mixed up with those of the COPY. -/
theorem Tracks.copyOut {m : CopyResponse} (h : s.Tracks req)
    (hm : s.Reads (.copyOutResponse m) size r) (hr : r.result = .read) :
    ((s.take (.copyOutResponse m) size r).yields .copyOut (.copyOut m)).Sound req := by
  obtain ⟨hwf, hsteps, hc, hout, _⟩ := h.step hm hr
  have hin := hout m rfl
  have hb := h.empty hin
  have hhanded := h.handed
  rw [hb, ReadBuffer.views_nil, List.append_nil] at hhanded
  refine ⟨⟨hwf, hsteps, hm.le, hc, fun hne => absurd hb hne, fun b hmem => ?_, ?_,
    moments_snoc h.moments ⟨by simp, by simp⟩, ?_⟩, fun _ => hb⟩
  · rw [show ((s.take (.copyOutResponse m) size r).yields .copyOut (.copyOut m)).cleared.copyBuffs =
      [] from hb] at hmem
    cases hmem
  · show handedOut (s.trace ++ [_]) ++ s.st.readBuffer.views s.copyBuffs =
      copyPayload (s.delivered ++ [.copyOutResponse m])
    rw [hb, ReadBuffer.views_nil, List.append_nil, handedOut_snoc, copyPayload_snoc, hhanded]
    rfl
  · show phaseOf (events (s.trace ++ [_])) =
      (copyTrack (s.delivered ++ [.copyOutResponse m])).map Phase.of
    rw [phaseOf_events_snoc, copyTrack_snoc]
    rcases h.phase_eq with ⟨hp, ht⟩ | ⟨hp, ht⟩
    · rw [hp, ht]
      rfl
    · rw [hp, ht, hin]
      rfl

/-- The events of a coroutine that has stopped. -/
theorem Tracks.phase_done (h : s.Tracks req) (hec : inCopy s.delivered = true → ec.failed = true)
    (e : Moment) (he : e.result = .done ec) :
    phaseOf (events (s.trace ++ [e])) = (copyTrack s.delivered).map fun _ => .ended := by
  rw [phaseOf_events_snoc, he]
  rcases h.phase_eq with ⟨hp, ht⟩ | ⟨hp, ht⟩
  · rw [hp, ht]
    rfl
  · rw [hp, ht]
    cases hin : inCopy s.delivered with
    | false => rfl
    | true => simp [ExecSomeResult.isEvent, Phase.of, Phase.next, hec hin]

/-- A message that cannot be parsed. -/
theorem Tracks.bad (h : s.Tracks req) (hbad : nextMessage s.pending = .bad ec) :
    (s.returns (.done ec)).Stopped req ec := by
  have hec := nextMessage_bad_failed hbad
  refine ⟨fun hok => absurd hec (by simp [hok]),
    moments_snoc h.moments ⟨by simp, by simp⟩, s.delivered, ?_, .inl ⟨rfl, _, h.steps⟩⟩
  exact h.phase_done (fun _ => hec) _ rfl

/-- The end of the response. -/
theorem Tracks.done (h : s.Tracks req) (hm : s.Reads msg size r) (hr : r.result = .done ec) :
    ((s.take msg size r).consume.returns (.done ec)).Stopped req ec := by
  have hmove := h.move hm
  have hstep : respond (s.fsm.readFsm, s.calls) msg = .error (s.calls ++ r.calls, .ok ec) := by
    simp [respond, hm.reply, hr]
  have hsuccess : ec.failed = false → inCopy s.delivered = false ∧ msg.quiet = true := by
    intro hok
    obtain ⟨hc, hq⟩ := hmove.copying_of_success hr hok
    exact ⟨h.copying.symm.trans hc, hq⟩
  refine ⟨fun hok => ?_, moments_snoc h.moments ⟨by simp, by simp⟩, s.delivered, ?_,
    .inr ⟨msg, _, rfl, h.steps.snoc (.last hstep)⟩⟩
  · obtain ⟨hc, hq⟩ := hsuccess hok
    have hhanded := h.handed
    rw [h.empty hc, ReadBuffer.views_nil, List.append_nil] at hhanded
    show handedOut (s.trace ++ [_]) = copyPayload (s.delivered ++ [msg])
    rw [handedOut_snoc, copyPayload_snoc, copyPayload_of_quiet hq, hhanded]
    rfl
  · refine h.phase_done (fun hin => ?_) _ rfl
    by_contra hne
    have hc := (hsuccess (by simpa using hne)).1
    rw [hin] at hc
    cases hc

theorem Tracks.ends (h : s.Tracks req) (he : s.Ends s') : s'.Sound req := by
  cases he with
  | behind hlt => exact absurd h.consumed_le (Nat.not_le.mpr hlt)
  | read _ hb => exact h.nextBatch hb
  | copyData _ hb => exact h.endBatch hb
  | bad hbad => exact h.bad hbad
  | fault hn hf =>
    obtain ⟨r, hr, _⟩ := ReadResponseFsm.resume_move h.wf _
    cases hf.symm.trans hr
  | done hm hr => exact h.done hm hr
  | copyOut hm hr => exact h.copyOut hm hr
  | copyDone hm hr => exact h.copyDone hm hr
  | copyError hm hr => exact h.copyError hm hr

theorem Tracks.batch (h : s.Tracks req) : s.batch.Sound req :=
  batch_rec Tracks.turn Tracks.ends s h

/-- **Every call of `resume` keeps the invariant.** -/
theorem Sound.resume (setup : HandlerSetup) {res : ExecSomeResult} (h : s.Sound req)
    (hready : s.Ready) (hres : s.result = .ok res) : (s.resume setup).Sound req := by
  have hlive : s.cleared.Tracks req ∧
      (s.fsm.resumePoint = .write ∨ s.fsm.resumePoint = .read → s.copyBuffs = []) := by
    obtain ⟨res', hres', hy⟩ := hready.yielded
    cases hres.symm.trans hres'
    unfold Sound at h
    rw [hres] at h
    cases res with
    | done ec =>
      revert hy
      cases s.fsm.resumePoint <;> simp [ExecSomePoint.Yields]
    | _ => exact h
  obtain ⟨htracks, hempty⟩ := hlive
  unfold cleared at htracks
  unfold ExecSome.resume
  split <;> rename_i hp <;> rw [hp] at htracks
  · exact absurd hp hready.started
  · exact htracks.nextBatch (hempty (.inl hp))
  · exact htracks.batch
  · exact htracks.nextBatch rfl
  · exact htracks.batch
  · exact htracks.batch
  · exact htracks.batch

end

end ExecSome

/-! ## 2. Whole runs -/

namespace ExecSomeSession

/-- What holds of a session at every moment of a run. -/
structure Tracked (req : Request) (s : ExecSomeSession) : Prop where
  inv : s.Inv
  sound : s.exec.Sound req
  done : ∀ {r}, s.action = .done r → ∃ ec, r = .ok ec ∧ s.exec.result = .ok (.done ec)

end ExecSomeSession

namespace ExecSome

variable {req : Request} {s : ExecSome}

/-- Where a batch is asked for, no view is held. -/
theorem sound_reading_iff (hp : s.fsm.resumePoint = .read) (hread : s.result = .ok .read) :
    s.Sound req ↔ s.Tracks req ∧ s.copyBuffs = [] := by
  have hcleared : s.cleared = s := by
    unfold cleared
    rw [hp]
  unfold Sound
  rw [hread]
  simp only [hcleared]
  exact ⟨fun h => ⟨h.1, h.2 (.inr hp)⟩, fun h => ⟨h.1, fun _ => h.2⟩⟩

/-- There the buffer may be moved, and may grow. -/
theorem Sound.of_buffer (h : s.Sound req) (hready : s.Ready) (hread : s.result = .ok .read)
    (rb : ReadBuffer) : ({ s with st := { s.st with readBuffer := rb } } : ExecSome).Sound req := by
  obtain ⟨hp, hzero⟩ := hready.reading hread
  obtain ⟨htracks, hb⟩ := (sound_reading_iff hp hread).mp h
  have hle : s.fsm.consumed ≤ rb.committedArea.length := hzero ▸ Nat.zero_le _
  have hhanded := htracks.handed
  rw [hb] at hhanded
  refine (sound_reading_iff (s := { s with st := { s.st with readBuffer := rb } }) hp hread).mpr
    ⟨⟨htracks.wf, htracks.steps, hle, htracks.copying, htracks.collected, fun b hmem => ?_, ?_,
      htracks.moments, htracks.phase⟩, hb⟩
  · have hmem' : b ∈ s.copyBuffs := hmem
    rw [hb] at hmem'
    cases hmem'
  · show handedOut s.trace ++ rb.views s.copyBuffs = _
    rw [hb]
    exact hhanded

/-- Waiting for the server keeps the invariant. -/
theorem Sound.readSomeMessages (h : s.Sound req) (hready : s.Ready)
    (hread : s.result = .ok .read) : s.readSomeMessages.Tracked req := by
  have hinv := (readSomeMessages_spec hready hread).1
  rcases s.readSomeMessages_cases with ⟨_, heq⟩ | ⟨k, rb, _, _, _, heq⟩
  · rw [heq] at hinv ⊢
    exact ⟨hinv, h, fun hr => (by cases hr)⟩
  · rw [heq] at hinv ⊢
    exact ⟨hinv, h.of_buffer hready hread rb, fun hr => (by cases hr)⟩

theorem Sound.dispatch (h : s.Sound req) {M : Bytes → ExecOutcome} (hM : s.Settles M) :
    s.dispatch.Tracked req := by
  have hinv := hM.dispatch.1
  unfold Settles at hM
  unfold ExecSome.dispatch at hinv ⊢
  split <;> rename_i hr <;> rw [hr] at hM hinv
  · unfold Sound at h
    rw [hr] at h
    exact h.elim
  · exact ⟨hinv, h, fun e => (by cases e; exact ⟨_, rfl, hr⟩)⟩
  · exact h.readSomeMessages hM.1 hr
  · rename_i res hdone hread
    cases res with
    | done ec => exact absurd rfl (hdone ec)
    | read => exact absurd rfl hread
    | _ => exact ⟨hinv, h, fun e => (by cases e)⟩

end ExecSome

variable {setup : HandlerSetup} {req : Request} {st : ConnectionState}
  {copyBuffs : List ConstBuffer} {stream unread : Bytes} {s : ExecSomeSession} {rooms : List Nat}

theorem ExecSomeSession.tracked_start (setup : HandlerSetup) (req : Request)
    (st : ConnectionState) (copyBuffs : List ConstBuffer) :
    (start setup req st copyBuffs).Tracked req := by
  have hM := ExecSome.start_settles setup req st copyBuffs
  refine ExecSome.Sound.dispatch ?_ hM
  unfold ExecSome.resume
  by_cases hec : (setupRequest req setup).failed = true
  · simp only [ExecSome.new, readResponseFsm, hec, if_true]
    refine ⟨fun hok => absurd hec (by simp [hok]), ?_, [], rfl, .inl ⟨rfl, _, .nil⟩⟩
    exact ExecSome.moments_snoc (fun e he => (by cases he)) ⟨by simp, by simp⟩
  · simp only [ExecSome.new, readResponseFsm, hec]
    refine ⟨⟨.init (accepted_of_setupRequest hec) true, .nil, Nat.zero_le _, rfl,
      fun hne => absurd rfl hne, fun b hb => (by cases hb), rfl, ?_, rfl⟩, fun _ => rfl⟩
    exact ExecSome.moments_snoc (fun e he => (by cases he)) ⟨by simp, by simp⟩

/-- **The invariant holds at every moment of a run.** -/
theorem exec_some_tracked
    (t : Run (execSomeMachine setup) (.start setup req st copyBuffs) stream s unread rooms) :
    s.Tracked req := by
  refine t.invariant ?_ ?_ (ExecSomeSession.tracked_start setup req st copyBuffs)
  · intro s res hs h
    obtain ⟨hready, hres, _⟩ := hs.inv.writing h
    have hhead : s.exec.AtHead s.exec.meaning :=
      ⟨hready.started, hready.consumed_le, fun _ => rfl⟩
    exact (hs.sound.resume setup hready hres).dispatch (hhead.resume setup)
  · intro s k hs h chunk hroom
    obtain ⟨hready, hread, _, _, _⟩ := hs.inv.reading h
    have hready' : (s.exec.receive chunk).Ready := by
      refine ⟨hready.yielded, ?_, hready.consumed_zero⟩
      rw [show (s.exec.receive chunk).fsm.consumed = 0 from (hready.reading hread).2]
      exact Nat.zero_le _
    exact (hs.sound.of_buffer hready hread _).readSomeMessages hready' hread

/-- Whether a session has ended. -/
def ExecSomeSession.isOver (s : ExecSomeSession) : Bool :=
  match s.action with
  | .done _ => true
  | _ => false

theorem ExecSomeSession.Tracked.stopped {ec : ErrorCode} (h : s.Tracked req)
    (he : s.action = .done (.ok ec)) : s.exec.Stopped req ec := by
  obtain ⟨ec', hr, hres⟩ := h.done he
  cases hr
  have hs := h.sound
  unfold ExecSome.Sound at hs
  rw [hres] at hs
  exact hs

theorem ExecSomeSession.Tracked.live (h : s.Tracked req) (hl : s.isOver = false) :
    s.exec.cleared.Tracks req := by
  have hresult : ∃ res, s.exec.result = .ok res ∧ ∀ ec, res ≠ .done ec := by
    have hready : s.exec.Ready := by
      cases ha : s.action with
      | done r => simp [isOver, ha] at hl
      | read k => exact (h.inv.reading ha).1
      | write res => exact (h.inv.writing ha).1
    obtain ⟨res, hres, hy⟩ := hready.yielded
    refine ⟨res, hres, fun ec e => ?_⟩
    subst e
    revert hy
    cases s.exec.fsm.resumePoint <;> simp [ExecSomePoint.Yields]
  obtain ⟨res, hres, hne⟩ := hresult
  have hs := h.sound
  unfold ExecSome.Sound at hs
  rw [hres] at hs
  cases res with
  | done ec => exact absurd rfl (hne ec)
  | _ => exact hs.1

/-- Every result of a run is sound. -/
theorem ExecSomeSession.Tracked.moments (h : s.Tracked req) : ∀ e ∈ s.exec.trace, e.Sound := by
  cases hl : s.isOver with
  | false =>
    have hlive := h.live hl
    have htrace : s.exec.cleared.trace = s.exec.trace := by
      unfold ExecSome.cleared
      split <;> rfl
    exact htrace ▸ hlive.moments
  | true =>
    cases ha : s.action with
    | done r =>
      obtain ⟨ec, rfl, _⟩ := h.done ha
      exact (h.stopped ha).moments
    | read k => simp [isOver, ha] at hl
    | write res => simp [isOver, ha] at hl

/-! ## 3. The data of a COPY -/

/-- **COPY data is neither lost, repeated nor reordered, and never dangles.** Whatever the
    server sends and however it arrives: a read is asked for only while no view is held, and
    every view that is handed out lies in the committed area at that moment. Where the request
    ends without an error, the bytes it has used are framed messages, these and no fewer drive the
    response machine to its end, and the views handed out are, byte for byte and in order, the
    payloads of the CopyData messages among them. -/
theorem exec_some_copy_out
    (t : Run (execSomeMachine setup) (.start setup req st copyBuffs) stream s unread rooms) :
    (∀ e ∈ s.exec.trace, e.result = .read → e.copyBuffs = []) ∧
      (∀ e ∈ s.exec.trace, e.result = .copyData ∨ e.result = .copyDataWithEof →
        ∀ b ∈ e.copyBuffs, e.readBuffer.committedOffset ≤ b.offset ∧
          b.offset + b.size ≤ e.readBuffer.preparedOffset) ∧
      ∀ ec, s.action = .done (.ok ec) → ec.failed = false →
        ∃ used msgs, st.committed ++ stream = used ++ (s.exec.st.committed ++ unread) ∧
          Frames messageParser used msgs ∧
          Steps respond (Responding.start req) msgs (.error (s.exec.calls, .ok ec)) ∧
          handedOut s.exec.trace = copyPayload msgs := by
  have htracked := exec_some_tracked t
  refine ⟨fun e he => (htracked.moments e he).read, fun e he hres b hb => ?_, fun ec he hec => ?_⟩
  · obtain ⟨hfirst, hlast⟩ := (htracked.moments e he).handed hres b hb
    have hle := e.readBuffer.committed_le
    rw [e.readBuffer.length_committedArea] at hlast
    exact ⟨hfirst, by omega⟩
  · have href := (exec_some_run t).1
    have hresult : (s.outcome unread).result = some (.ok ec) := by
      simp [ExecSomeSession.outcome, he]
    have hresult' : (execReference setup req true (st.committed ++ stream)).result =
        some (.ok ec) := by
      rw [← (settled_fields _).2.2, ← href, (settled_fields _).2.2, hresult]
    rw [settled_of_success hresult hec, settled_of_success hresult' hec] at href
    obtain ⟨used, hused, hframes⟩ := execReference_frames setup req true (st.committed ++ stream)
    have hsteps := execReference_steps setup req true (st.committed ++ stream) hec hresult'
    rw [← href] at hused hframes hsteps
    exact ⟨used, s.exec.delivered, hused, hframes, hsteps, (htracked.stopped he).handed hec⟩

/-- A COPY of two rows: CopyOutResponse, CopyData `ab`, CopyData `c`, CopyDone, CommandComplete
    and ReadyForQuery. -/
def copyBytes : Bytes :=
  [72, 0, 0, 0, 7, 0, 0, 0] ++ ([100, 0, 0, 0, 6] ++ ascii "ab") ++ ([100, 0, 0, 0, 5] ++ ascii "c") ++
    [99, 0, 0, 0, 4] ++ ([67, 0, 0, 0, 11] ++ ascii "COPY 2" ++ [0]) ++ [90, 0, 0, 0, 5, 73]

/-- The row `ab` arrives with the first read, and `c` with the second. -/
theorem exec_some_copy_out_two_rows :
    ∃ s rooms used msgs,
      Run (execSomeMachine fun _ _ => (.success, 1)) (.start (fun _ _ => (.success, 1))
        { messages := [.query] } {} []) copyBytes s [] rooms ∧
      events s.exec.trace =
        [.copyOut ⟨.text, {}⟩, .copyData, .copyDataWithEof, .done .success] ∧
      copyBytes = used ++ s.exec.st.committed ∧ Frames messageParser used msgs ∧
      Steps respond (Responding.start { messages := [.query] }) msgs
        (.error (s.exec.calls, .ok .success)) ∧
      handedOut s.exec.trace = ascii "abc" ∧ copyPayload msgs = ascii "abc" := by
  let M := execSomeMachine fun _ _ => (.success, 1)
  let s₀ : ExecSomeSession := .start (fun _ _ => (.success, 1)) { messages := [.query] } {} []
  let s₁ := M.received (M.wrote s₀) (copyBytes.take 15)
  let s₂ := M.received (M.wrote (M.wrote (M.wrote s₁))) (copyBytes.drop 15)
  have hfirst : M.action (M.wrote s₀) = .read 4096 := by decide +kernel
  have hsecond : M.action (M.wrote (M.wrote (M.wrote s₁))) = .read 4081 := by decide +kernel
  have hrun : Run M s₀ copyBytes (M.wrote (M.wrote s₂)) [] [4096, 4081] := by
    refine .write (w := .write) (by decide +kernel) ?_
    rw [← List.take_append_drop 15 copyBytes]
    refine .read hfirst (by decide) (by decide) ?_
    refine .write (w := .read) (by decide +kernel) ?_
    refine .write (w := .copyOut ⟨.text, {}⟩) (by decide +kernel) ?_
    refine .write (w := .copyData) (by decide +kernel) ?_
    rw [← List.append_nil (copyBytes.drop 15)]
    refine .read hsecond (by decide) (by decide) ?_
    refine .write (w := .read) (by decide +kernel) ?_
    refine .write (w := .copyDataWithEof) (by decide +kernel) ?_
    exact .done (r := .ok .success) (by decide +kernel)
  have hdone : (M.wrote (M.wrote s₂)).action = .done (.ok .success) := by decide +kernel
  have hhanded : handedOut (M.wrote (M.wrote s₂)).exec.trace = ascii "abc" := by decide +kernel
  obtain ⟨used, msgs, hused, hframes, hsteps, hdata⟩ :=
    (exec_some_copy_out hrun).2.2 .success hdone rfl
  rw [List.append_nil] at hused
  exact ⟨_, _, used, msgs, hrun, by decide +kernel, hused, hframes, hsteps, hhanded,
    hdata ▸ hhanded⟩

/-! ## 4. The order of events -/

/-- **Every error the response machine accepts comes inside a COPY**: of the messages the bytes
    begin with, handed to it one by one. -/
def ErrorsInCopy (req : Request) (bytes : Bytes) : Prop :=
  ∀ pre e σ, pre ++ [.errorResponse e] <+: messages messageParser bytes →
    Steps respond (Responding.start req) (pre ++ [.errorResponse e]) (.ok σ) → inCopy pre = true

theorem errorsInCopy_iff (req : Request) (bytes : Bytes) :
    ErrorsInCopy req bytes ↔
      ErrorsCovered (drainResponse (Responding.start req) bytes).accepted := by
  constructor
  · intro h pre e hp
    obtain ⟨hp', σ, hsteps⟩ := (prefix_accepted_iff respond _ bytes _).mp hp
    exact h pre e σ hp' hsteps
  · intro h pre e σ hp hsteps
    exact h pre e ((prefix_accepted_iff respond _ bytes _).mpr ⟨hp, σ, hsteps⟩)

/-- The messages behind which the response machine asked for more are those draining accepts. -/
theorem heard_eq_accepted {bytes : Bytes} {heard : List AnyBackendMessage}
    (h : (drainResponse (Responding.start req) bytes).delivered = heard ∧
        (∃ σ, Steps respond (Responding.start req) heard (.ok σ)) ∨
      ∃ m x, (drainResponse (Responding.start req) bytes).delivered = heard ++ [m] ∧
        Steps respond (Responding.start req) (heard ++ [m]) (.error x)) :
    (drainResponse (Responding.start req) bytes).accepted = heard := by
  have hsteps := drain_steps messageParser respond (Responding.start req) bytes
  have hd : drain messageParser respond (Responding.start req) bytes =
      drainResponse (Responding.start req) bytes := rfl
  rw [hd] at hsteps
  unfold Drained.accepted
  rcases h with ⟨hdel, σ, hσ⟩ | ⟨m, x, hdel, hx⟩
  · rw [hdel] at hsteps
    have hstate := hsteps.unique hσ
    split
    · rename_i x hend
      rw [hend] at hstate
      cases hstate
    · exact hdel
  · rw [hdel] at hsteps
    have hstate := hsteps.unique hx
    split
    · rw [hdel, List.dropLast_concat]
    · rename_i hne
      cases hend : (drainResponse (Responding.start req) bytes).ending with
      | finished x => exact absurd hend (hne x)
      | waiting σ k =>
        rw [hend] at hstate
        cases hstate
      | bad σ e =>
        rw [hend] at hstate
        cases hstate

/-- The messages a session has heard, and where its events have led behind them. -/
theorem ExecSomeSession.Tracked.heard (h : s.Tracked req) :
    ∃ heard g, phaseOf (events s.exec.trace) = (copyTrack heard).map g ∧
      (s.isOver = true → ∀ c, g c = .ended) ∧
      (s.exec.delivered = heard ∧ (∃ σ, Steps respond (Responding.start req) heard (.ok σ)) ∨
        ∃ m x, s.exec.delivered = heard ++ [m] ∧
          Steps respond (Responding.start req) (heard ++ [m]) (.error x)) := by
  cases hl : s.isOver with
  | false =>
    have hlive := h.live hl
    have hsame : s.exec.cleared.trace = s.exec.trace ∧
        s.exec.cleared.delivered = s.exec.delivered := by
      unfold ExecSome.cleared
      split <;> exact ⟨rfl, rfl⟩
    have hphase := hlive.phase
    have hsteps := hlive.steps
    rw [hsame.1, hsame.2] at hphase
    rw [hsame.2] at hsteps
    exact ⟨s.exec.delivered, Phase.of, hphase, fun e => (by cases e), .inl ⟨rfl, _, hsteps⟩⟩
  | true =>
    cases ha : s.action with
    | done r =>
      obtain ⟨ec, rfl, _⟩ := h.done ha
      obtain ⟨heard, hphase, hdel⟩ := (h.stopped ha).heard
      exact ⟨heard, fun _ => .ended, hphase, fun _ _ => rfl, hdel⟩
    | read k => simp [isOver, ha] at hl
    | write res => simp [isOver, ha] at hl

/-- The events have the shape exactly if every error that was heard came inside a COPY. -/
theorem shape_of_heard {isOver : Bool} {es : List ExecSomeResult} {heard : List AnyBackendMessage}
    {g : Bool → Phase} (hphase : phaseOf es = (copyTrack heard).map g)
    (hg : isOver = true → ∀ c, g c = .ended) : Shape isOver false es ↔ ErrorsCovered heard := by
  rw [shape_iff, hphase]
  by_cases hall : ErrorsCovered heard
  · rw [(copyTrack_spec heard).1 hall]
    exact ⟨fun _ => hall, fun _ => ⟨_, rfl, fun ho => hg ho _⟩⟩
  · rw [(copyTrack_spec heard).2 hall]
    refine ⟨fun ⟨p, hp, _⟩ => ?_, fun h => absurd h hall⟩
    cases hp

/-- **The events have the shape of COPY blocks exactly if the request is refused or every error
    the response machine accepts comes inside a COPY.** Any other ErrorResponse -- the answer to a
    plain failing query -- is reported as the end of a COPY that never began. -/
theorem exec_some_shape_iff
    (t : Run (execSomeMachine setup) (.start setup req st copyBuffs) stream s unread rooms) :
    Shape s.isOver false (events s.exec.trace) ↔
      (setupRequest req setup).failed = true ∨ ErrorsInCopy req (st.committed ++ stream) := by
  obtain ⟨heard, g, hphase, hg, hdel⟩ := (exec_some_tracked t).heard
  have hout : s.exec.delivered = (execReference setup req true (st.committed ++ stream)).delivered := by
    have href := congrArg ExecOutcome.delivered (exec_some_run t).1
    rwa [(settled_fields _).1, (settled_fields _).1] at href
  rw [shape_of_heard hphase hg]
  by_cases hec : (setupRequest req setup).failed = true
  · -- nothing is read, so nothing is heard
    have hnil : s.exec.delivered = [] := by
      rw [hout]
      simp only [execReference, if_pos hec]
    have hheard : heard = [] := by
      rcases hdel with ⟨hdel, _⟩ | ⟨m, x, hdel, _⟩
      · rw [← hdel, hnil]
      · rw [hnil] at hdel
        exact absurd hdel (by simp)
    subst hheard
    refine ⟨fun _ => .inl hec, fun _ pre e hp => ?_⟩
    exact absurd (List.prefix_nil.mp hp) (by simp)
  · have hdrain : s.exec.delivered =
        (drainResponse (Responding.start req) (st.committed ++ stream)).delivered := by
      rw [hout]
      simp only [execReference, if_neg hec, ExecOutcome.ofDrained, Responding.start]
      split <;> rfl
    rw [hdrain] at hdel
    rw [errorsInCopy_iff, heard_eq_accepted hdel]
    exact ⟨.inr, fun h => h.resolve_left hec⟩

theorem exec_some_shape_iff_two_rows :
    ∃ s unread rooms,
      Run (execSomeMachine fun _ _ => (.success, 1)) (.start (fun _ _ => (.success, 1))
        { messages := [.query] } {} []) copyBytes s unread rooms ∧
      Shape s.isOver false (events s.exec.trace) := by
  obtain ⟨s, unread, rooms, t⟩ := exec_some_run_exists (fun _ _ => (.success, 1))
    { messages := [.query] } {} [] copyBytes
  have hmessages : messages messageParser (({} : ConnectionState).committed ++ copyBytes) =
      [.copyOutResponse ⟨.text, {}⟩, .copyData (ascii "ab"), .copyData (ascii "c"), .copyDone,
        .commandComplete (ascii "COPY 2"), .readyForQuery .idle] := by
    decide +kernel
  refine ⟨s, unread, rooms, t, (exec_some_shape_iff t).mpr (.inr fun pre e σ hp _ => ?_)⟩
  have hmem := hp.subset (List.mem_append_right pre (List.mem_singleton_self _))
  rw [hmessages] at hmem
  simp at hmem

/-- The answer to a query that fails: ErrorResponse and ReadyForQuery. -/
def failedQueryBytes : Bytes :=
  [69, 0, 0, 0, 23] ++ (ascii "SERROR" ++ [0]) ++ (ascii "C42601" ++ [0]) ++ (ascii "Mno" ++ [0]) ++
    [0] ++ [90, 0, 0, 0, 5, 73]

/-- **A query that fails is reported as the end of a COPY.** -/
theorem failed_query_ends_copy :
    ∃ s rooms,
      Run (execSomeMachine fun _ _ => (.success, 1)) (.start (fun _ _ => (.success, 1))
        { messages := [.query] } {} []) failedQueryBytes s [] rooms ∧
      events s.exec.trace = [.copyDataWithEof, .done .success] ∧
      ¬Shape s.isOver false (events s.exec.trace) := by
  let M := execSomeMachine fun _ _ => (.success, 1)
  let s₀ : ExecSomeSession := .start (fun _ _ => (.success, 1)) { messages := [.query] } {} []
  let s₂ := M.received (M.wrote s₀) failedQueryBytes
  have hevents : events (M.wrote (M.wrote s₂)).exec.trace = [.copyDataWithEof, .done .success] := by
    decide +kernel
  have hrun : Run M s₀ failedQueryBytes (M.wrote (M.wrote s₂)) [] [4096] := by
    have hread : M.action (M.wrote s₀) = .read 4096 := by decide +kernel
    refine .write (w := .write) (by decide +kernel) ?_
    rw [← List.append_nil failedQueryBytes]
    refine .read hread (by decide) (by decide) ?_
    refine .write (w := .read) (by decide +kernel) ?_
    refine .write (w := .copyDataWithEof) (by decide +kernel) ?_
    exact .done (r := .ok .success) (by decide +kernel)
  refine ⟨_, _, hrun, hevents, ?_⟩
  rw [hevents]
  intro h
  cases h

end NativePg
