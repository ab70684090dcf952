/-
  File:      NativePg/Connect/Alike.lean
  Subject:   Two sessions that cannot be told apart.

  * `ConnectionState.Alike` -- two states that differ in the read buffer only, and there in no
    byte that has been received;
  * `loop_alike` -- the startup machine does the same on them: it sees the committed bytes and
    nothing else of the buffer;
  * `ConnectSession.Alike`, `complete_alike`, `run_alike` -- and so does the machine that connects,
    which looks at the write buffer only behind its own startup message.
-/
import NativePg.Connect.Fsm

namespace NativePg

open Framing

/-! ## 1. The startup machine -/

/-- The same but for the read buffers, which hold the same bytes. -/
structure ConnectionState.Alike (st₁ st₂ : ConnectionState) : Prop where
  rest : st₂ = { st₁ with readBuffer := st₂.readBuffer }
  committed : st₂.committed = st₁.committed

/-- The same result, up to the room a read is given. -/
inductive IoResult.Alike : Checked IoResult → Checked IoResult → Prop where
  | same {r} : Alike r r
  | read {room₁ room₂} : Alike (.ok (.read room₁)) (.ok (.read room₂))

structure StartupFsm.Reply.Alike (r₁ r₂ : StartupFsm.Reply) : Prop where
  fsm : r₂.fsm = r₁.fsm
  st : r₁.st.Alike r₂.st
  diag : r₂.diag = r₁.diag
  result : IoResult.Alike r₁.result r₂.result

/-- Another buffer with the same bytes. -/
theorem ConnectionState.Alike.of_buffer {st : ConnectionState} {rb : ReadBuffer}
    (h : rb.committedArea = st.committed) : st.Alike { st with readBuffer := rb } := ⟨rfl, h⟩

namespace StartupFsm

/-- **The startup machine sees the committed bytes, and nothing else of the read buffer.** -/
theorem loop_alike (ssl : OpenSsl) (r : StartupFsmImpl.Reply) (rb : ReadBuffer)
    (h : rb.committedArea = r.st.committed) :
    (loop ssl r).Alike (loop ssl (r.withBuffer rb)) := by
  induction r using taken_induction ssl generalizing rb with
  | h r ih =>
    have halike : r.st.Alike (r.withBuffer rb).st := .of_buffer h
    have hsame : (r.withBuffer rb).result = r.result := rfl
    cases hr : r.result with
    | error fault =>
      rw [loop_fault ssl hr, loop_fault ssl (hsame.trans hr)]
      exact ⟨rfl, halike, rfl, .same⟩
    | ok res =>
      cases res with
      | done ec =>
        rw [loop_done ssl hr, loop_done ssl (hsame.trans hr)]
        exact ⟨rfl, halike, rfl, .same⟩
      | write =>
        rw [loop_write ssl hr, loop_write ssl (hsame.trans hr)]
        exact ⟨rfl, halike, rfl, .same⟩
      | read =>
        have hr' := hsame.trans hr
        cases hn : nextMessage r.st.committed with
        | bad ec =>
          rw [loop_bad ssl hr hn, loop_bad ssl hr' ((congrArg nextMessage h).trans hn)]
          exact ⟨rfl, halike, rfl, .same⟩
        | needs k =>
          obtain ⟨rb₁, hc₁, _, h₁⟩ := loop_needs ssl hr hn
          obtain ⟨rb₂, hc₂, _, h₂⟩ := loop_needs ssl hr' ((congrArg nextMessage h).trans hn)
          rw [h₁, h₂]
          exact ⟨rfl, ⟨rfl, hc₂.trans (h.trans hc₁.symm)⟩, rfl, .read⟩
        | message msg size =>
          rw [loop_message ssl hr hn, loop_message ssl hr' ((congrArg nextMessage h).trans hn)]
          -- the message is taken off both buffers, which still hold the same bytes
          have htaken : taken ssl (r.withBuffer rb) msg size =
              (taken ssl r msg size).withBuffer (rb.consume size) := by
            have hwith : (r.withBuffer rb).toData.resume ssl msg =
                (r.toData.resume ssl msg).withBuffer rb :=
              StartupFsmImpl.resume_withBuffer r.toData ssl msg rb
            rw [taken, hwith]
            rfl
          have hrb : (rb.consume size).committedArea = (taken ssl r msg size).st.committed := by
            rw [taken_committed, ReadBuffer.committedArea_consume, h]
          obtain ⟨hf, hst, hd, hres⟩ := ih msg size hn (rb.consume size) hrb
          rw [htaken]
          exact ⟨hf, hst, hd, hres⟩

/-- What there is to know of a call: the state it works on may have another read buffer, as long as
    that holds the same bytes once those of a read have been committed. -/
theorem resume_alike (f : StartupFsm) (ssl : OpenSsl) {st₁ st₂ : ConnectionState}
    (h : st₁.Alike st₂) (diag : Diagnostics) (ioError : ErrorCode) (bytesRead : Nat)
    (hread : f.resumePoint = .reading → ioError.failed = false →
      (st₂.readBuffer.commit bytesRead).committedArea =
        (st₁.readBuffer.commit bytesRead).committedArea) :
    (f.resume ssl st₁ diag ioError bytesRead).Alike (f.resume ssl st₂ diag ioError bytesRead) := by
  obtain ⟨hrest, hcommitted⟩ := h
  -- the machine below the coroutine does not touch the read buffer
  have himpl : (loop ssl (StartupFsmImpl.Data.resume ⟨f.impl, st₁, diag⟩ ssl .none)).Alike
      (loop ssl (StartupFsmImpl.Data.resume ⟨f.impl, st₂, diag⟩ ssl .none)) := by
    have hbuf := StartupFsmImpl.resume_readBuffer ⟨f.impl, st₁, diag⟩ ssl .none
    have hwith := StartupFsmImpl.resume_withBuffer ⟨f.impl, st₁, diag⟩ ssl .none st₂.readBuffer
    rw [StartupFsmImpl.Data.withBuffer, ← hrest] at hwith
    rw [hwith]
    exact loop_alike ssl _ _ (by rw [ConnectionState.committed, hbuf]; exact hcommitted)
  unfold resume
  split
  · exact himpl
  · split
    · exact ⟨rfl, ⟨hrest, hcommitted⟩, rfl, .same⟩
    · exact himpl
  · rename_i hp
    split
    · exact ⟨rfl, ⟨hrest, hcommitted⟩, rfl, .same⟩
    · rename_i hec
      have halike := loop_alike ssl ⟨⟨f.impl, { st₁ with
        readBuffer := st₁.readBuffer.commit bytesRead }, diag⟩, .ok .read⟩
        (st₂.readBuffer.commit bytesRead) (hread hp (by simpa using hec))
      rw [hrest]
      exact halike

/-- What a call that asks for something leaves: a read is into the prepared area, and behind a
    write the coroutine knows of the write. -/
structure Reply.Asks (r : Reply) : Prop where
  read : ∀ {room}, r.result = .ok (.read room) → room = r.st.readBuffer.preparedSize
  write : ∀ {data}, r.result = .ok (.write data) → r.fsm.resumePoint = .writing

theorem resume_asks (f : StartupFsm) (ssl : OpenSsl) (st : ConnectionState) (diag : Diagnostics)
    (ioError : ErrorCode) (bytesRead : Nat) : (f.resume ssl st diag ioError bytesRead).Asks := by
  have hloop : ∀ r, (loop ssl r).Asks := fun r => ⟨fun h => (loop_read h).2.1, loop_writing⟩
  have hdone : ∀ ec, Reply.Asks { fsm := f, st, diag, result := .ok (.done ec) } :=
    fun ec => ⟨fun h => (by cases h), fun h => (by cases h)⟩
  unfold resume
  split
  · exact hloop _
  · split
    · exact hdone _
    · exact hloop _
  · split
    · exact hdone _
    · exact hloop _

/-- The first call writes the write buffer before it reads it. -/
theorem resume_initial {f : StartupFsm} (hf : f.resumePoint = .initial)
    (himpl : f.impl.resumePoint = .initial) (ssl : OpenSsl) (st : ConnectionState) (buffer : Bytes)
    (diag : Diagnostics) (ioError : ErrorCode) (bytesRead : Nat) :
    f.resume ssl { st with writeBuffer := buffer } diag ioError bytesRead =
      f.resume ssl st diag ioError bytesRead := by
  simp only [resume, hf, StartupFsmImpl.Data.resume, himpl]

end StartupFsm

/-! ## 2. The machine that connects -/

/-- The same result, up to the room a read is given. -/
inductive ConnectResult.Alike : Checked ConnectResult → Checked ConnectResult → Prop where
  | same {r} : Alike r r
  | read {room₁ room₂} : Alike (.ok (.read room₁)) (.ok (.read room₂))

/-- Up to the physical connect the startup machine is as constructed. -/
def ConnectFsm.Unstarted (f : ConnectFsm) : Prop :=
  f.resumePoint = .initial ∨ f.resumePoint = .connecting →
    f.startup.resumePoint = .initial ∧ f.startup.impl.resumePoint = .initial

theorem ConnectFsm.unstarted_of_point {f : ConnectFsm} (p : ConnectPoint) (h : f.resumePoint = p)
    (hp : p ≠ .initial ∧ p ≠ .connecting) : f.Unstarted := by
  rintro (h' | h')
  · exact absurd (h.symm.trans h') hp.1
  · exact absurd (h.symm.trans h') hp.2

namespace ConnectSession

/-- Two sessions that have done the same, and will do the same: they differ in the read buffer,
    and in the write buffer up to the startup message. -/
structure Alike (s₁ s₂ : ConnectSession) : Prop where
  fsm : s₂.fsm = s₁.fsm
  actions : s₂.actions = s₁.actions
  result : ConnectResult.Alike s₁.result s₂.result
  rest : s₂.st =
    { s₁.st with readBuffer := s₂.st.readBuffer, writeBuffer := s₂.st.writeBuffer }
  committed : s₂.st.committed = s₁.st.committed
  writeBuffer : s₁.fsm.resumePoint = .startup → s₂.st.writeBuffer = s₁.st.writeBuffer
  unstarted : s₁.request ≠ none → s₁.fsm.Unstarted

/-- A session that asks for a read asks for one into the prepared area; one that asks for a write
    has suspended the startup machine for it. -/
structure Asks (s : ConnectSession) : Prop where
  read : ∀ {room}, s.result = .ok (.read room) → room = s.st.readBuffer.preparedSize
  write : ∀ {data}, s.result = .ok (.write data) → s.fsm.startup.resumePoint = .writing

section
variable {s₁ s₂ : ConnectSession}

theorem Alike.ended_eq (h : s₁.Alike s₂) : s₂.ended = s₁.ended := by
  have hr := h.result
  unfold ended
  generalize s₁.result = r₁ at hr
  generalize s₂.result = r₂ at hr
  cases hr <;> rfl

/-- **Nothing can be seen of the difference.** -/
theorem Alike.outcome_eq (h : s₁.Alike s₂) : s₂.outcome = s₁.outcome := by
  unfold outcome
  rw [h.actions, h.ended_eq, h.rest]

end

/-! ## 3. Every step keeps sessions alike -/

section
variable {actions : List ConnectAction} {f : ConnectFsm} {ssl : OpenSsl} {st : ConnectionState}
  {ec : ErrorCode} {n : Nat}

theorem asks_onStartup {r : StartupFsm.Reply} (hr : r.Asks) :
    (next actions (f.onStartup r)).Asks := by
  unfold next ConnectFsm.onStartup
  simp only
  split
  · exact ⟨fun h => (by cases h), fun h => (by cases h)⟩
  · rename_i hres
    exact ⟨fun h => (by cases h; exact hr.read hres), fun h => (by cases h)⟩
  · rename_i hres
    exact ⟨fun h => (by cases h), fun _ => hr.write hres⟩
  · split <;> exact ⟨fun h => (by cases h), fun h => (by cases h)⟩

theorem asks_resume : (next actions (f.resume ssl st ec n)).Asks := by
  unfold ConnectFsm.resume
  split
  · exact ⟨fun h => (by cases h), fun h => (by cases h)⟩
  · split
    · exact ⟨fun h => (by cases h), fun h => (by cases h)⟩
    · exact asks_onStartup (StartupFsm.resume_asks ..)
  · exact ⟨fun h => (by cases h), fun h => (by cases h)⟩
  · exact asks_onStartup (StartupFsm.resume_asks ..)
  · exact ⟨fun h => (by cases h), fun h => (by cases h)⟩

theorem complete_asks {s : ConnectSession} (h : s.Asks) (c : Completion) :
    (s.complete ssl c).Asks := by
  unfold complete
  split
  · exact asks_resume
  · exact asks_resume
  · exact asks_resume
  · exact asks_resume
  · exact h
  · exact h

end

/-- The machine goes on alike from what the startup machine has returned. -/
theorem onStartup_alike {r₁ r₂ : StartupFsm.Reply} (h : r₁.Alike r₂) (f : ConnectFsm)
    (actions : List ConnectAction) :
    (next actions (f.onStartup r₁)).Alike (next actions (f.onStartup r₂)) := by
  obtain ⟨f₁, st₁, diag₁, res₁, _⟩ := r₁
  obtain ⟨f₂, st₂, diag₂, res₂, _⟩ := r₂
  obtain ⟨hf, ⟨hrest, hcommitted⟩, hdiag, hres⟩ := h
  simp only at hf hrest hcommitted hdiag hres
  subst hf hdiag
  obtain ⟨wb₁, rb₁, id₁, key₁, sd₁⟩ := st₁
  obtain ⟨wb₂, rb₂, id₂, key₂, sd₂⟩ := st₂
  cases hrest
  cases hres with
  | read =>
    exact ⟨rfl, rfl, .read, rfl, hcommitted, fun _ => rfl,
      fun _ => ConnectFsm.unstarted_of_point .startup rfl (by decide)⟩
  | same =>
    rcases res₁ with fault | ec | room | data
    · exact ⟨rfl, rfl, .same, rfl, hcommitted, fun _ => rfl, fun h => absurd rfl h⟩
    · by_cases hec : ec.failed = true
      · simp only [ConnectFsm.onStartup, hec, if_true]
        exact ⟨rfl, rfl, .same, rfl, hcommitted, fun _ => rfl,
          fun _ => ConnectFsm.unstarted_of_point .closingRefused rfl (by decide)⟩
      · simp only [ConnectFsm.onStartup, hec]
        exact ⟨rfl, rfl, .same, rfl, hcommitted, fun _ => rfl, fun h => absurd rfl h⟩
    · exact ⟨rfl, rfl, .same, rfl, hcommitted, fun _ => rfl,
        fun _ => ConnectFsm.unstarted_of_point .startup rfl (by decide)⟩
    · exact ⟨rfl, rfl, .same, rfl, hcommitted, fun _ => rfl,
        fun _ => ConnectFsm.unstarted_of_point .startup rfl (by decide)⟩

section
variable {f : ConnectFsm} {ssl : OpenSsl} {st₁ st₂ : ConnectionState} {ec : ErrorCode} {n : Nat}

/-- **A call does the same on both states.** -/
theorem resume_alike (actions : List ConnectAction) (hf : f.Unstarted)
    (hrest : st₂ = { st₁ with readBuffer := st₂.readBuffer, writeBuffer := st₂.writeBuffer })
    (hcommitted : st₂.committed = st₁.committed)
    (hwrite : f.resumePoint = .startup → st₂.writeBuffer = st₁.writeBuffer)
    (hread : f.startup.resumePoint = .reading → ec.failed = false →
      (st₂.readBuffer.commit n).committedArea = (st₁.readBuffer.commit n).committedArea) :
    (next actions (f.resume ssl st₁ ec n)).Alike (next actions (f.resume ssl st₂ ec n)) := by
  have hdiag : st₂.sharedDiag = st₁.sharedDiag := by rw [hrest]
  unfold ConnectFsm.resume
  split
  · rename_i hp
    exact ⟨rfl, rfl, .same, hrest, hcommitted, fun h => (by cases h), fun _ _ => hf (.inl hp)⟩
  · rename_i hp
    split
    · exact ⟨rfl, rfl, .same, hrest, hcommitted, fun h => (by cases h),
        fun _ => ConnectFsm.unstarted_of_point .closingUnconnected rfl (by decide)⟩
    · -- the write buffers may differ here, and are written first
      obtain ⟨hinit, himpl⟩ := hf (.inr hp)
      have hst : st₁.Alike { st₂ with writeBuffer := st₁.writeBuffer } :=
        ⟨by rw [hrest], hcommitted⟩
      have halike := StartupFsm.resume_alike f.startup ssl hst st₁.sharedDiag ec n hread
      rw [StartupFsm.resume_initial hinit himpl ssl st₂ st₁.writeBuffer] at halike
      rw [hdiag]
      exact onStartup_alike halike f actions
  · rename_i hp
    exact ⟨rfl, rfl, .same, hrest, hcommitted, fun h => (by cases hp.symm.trans h),
      fun h => absurd rfl h⟩
  · rename_i hp
    have hst : st₁.Alike st₂ := by
      refine ⟨?_, hcommitted⟩
      rw [hrest, hwrite hp]
    have halike := StartupFsm.resume_alike f.startup ssl hst st₁.sharedDiag ec n hread
    rw [hdiag]
    exact onStartup_alike halike f actions
  · rename_i hp
    exact ⟨rfl, rfl, .same, hrest, hcommitted, fun h => (by cases hp.symm.trans h),
      fun h => absurd rfl h⟩

end

section
variable {ssl : OpenSsl} {s₁ s₂ : ConnectSession}

/-- The step of `run_alike`. -/
theorem complete_alike (h : s₁.Alike s₂) (ha₁ : s₁.Asks) (ha₂ : s₂.Asks) {c : Completion}
    (hc₁ : s₁.Fits c) (hc₂ : s₂.Fits c) : (s₁.complete ssl c).Alike (s₂.complete ssl c) := by
  obtain ⟨f₁, st₁, res₁, actions₁⟩ := s₁
  obtain ⟨f₂, st₂, res₂, actions₂⟩ := s₂
  obtain ⟨hf, hactions, hres, hrest, hcommitted, hwrite, hunst⟩ := h
  simp only at hf hactions hres hrest hcommitted hwrite hunst
  subst hf hactions
  have hzero : ∀ rb : ReadBuffer, (rb.commit 0).committedArea = rb.committedArea := by
    intro rb
    simp [ReadBuffer.commit, ReadBuffer.committedArea]
  -- the bytes of a read are behind the committed ones, in both buffers
  have hread : ∀ {room₁ room₂}, res₁ = .ok (.read room₁) → res₂ = .ok (.read room₂) →
      ((st₂.readBuffer.receive c.data).commit c.data.length).committedArea =
        ((st₁.readBuffer.receive c.data).commit c.data.length).committedArea := by
    intro room₁ room₂ h₁ h₂
    have hfit₁ : c.data.length ≤ st₁.readBuffer.preparedSize :=
      Nat.le_trans (hc₁ _ h₁) (Nat.le_of_eq (ha₁.read h₁))
    have hfit₂ : c.data.length ≤ st₂.readBuffer.preparedSize :=
      Nat.le_trans (hc₂ _ h₂) (Nat.le_of_eq (ha₂.read h₂))
    rw [ReadBuffer.committedArea_receive_commit _ hfit₁,
      ReadBuffer.committedArea_receive_commit _ hfit₂]
    exact congrArg (· ++ c.data) hcommitted
  cases hres with
  | read =>
    exact resume_alike actions₂ (hunst (by simp [request, ConnectResult.request]))
      (by rw [hrest]) (by simpa [ConnectionState.committed] using hcommitted) hwrite
      (fun _ _ => hread rfl rfl)
  | same =>
    rcases res₁ with fault | ec | room | data | _ | _
    · exact ⟨rfl, rfl, .same, hrest, hcommitted, hwrite, hunst⟩
    · exact ⟨rfl, rfl, .same, hrest, hcommitted, hwrite, hunst⟩
    · exact resume_alike actions₂ (hunst (by simp [request, ConnectResult.request]))
        (by rw [hrest]) (by simpa [ConnectionState.committed] using hcommitted) hwrite
        (fun _ _ => hread rfl rfl)
    · have hw := ha₁.write rfl
      exact resume_alike actions₂ (hunst (by simp [request, ConnectResult.request])) hrest hcommitted
        hwrite (fun hp => by cases hp.symm.trans hw)
    · exact resume_alike actions₂ (hunst (by simp [request, ConnectResult.request])) hrest hcommitted
        hwrite (fun _ _ => by rw [hzero, hzero]; exact hcommitted)
    · exact resume_alike actions₂ (hunst (by simp [request, ConnectResult.request])) hrest hcommitted
        hwrite (fun _ _ => by rw [hzero, hzero]; exact hcommitted)

/-- **Alike sessions stay alike**, whatever the operations they ask for bring. -/
theorem run_alike (h : s₁.Alike s₂) (ha₁ : s₁.Asks) (ha₂ : s₂.Asks) :
    ∀ cs : List Completion, s₁.Possible ssl cs → s₂.Possible ssl cs →
      (s₁.run ssl cs).Alike (s₂.run ssl cs) := by
  intro cs
  induction cs generalizing s₁ s₂ with
  | nil => exact fun _ _ => h
  | cons c cs ih =>
    rintro ⟨hc₁, hp₁⟩ ⟨hc₂, hp₂⟩
    exact ih (complete_alike h ha₁ ha₂ hc₁ hc₂) (complete_asks ha₁ c) (complete_asks ha₂ c) hp₁ hp₂

theorem start_asks (ssl : OpenSsl) (params : ConnectParams) (st : ConnectionState) :
    (start ssl params st).Asks := asks_resume

/-- A new machine does the same on two states that differ in their buffers but not in the bytes
    the read buffers hold. -/
theorem start_alike (ssl : OpenSsl) (params : ConnectParams) {st₁ st₂ : ConnectionState}
    (hrest : st₂ = { st₁ with readBuffer := st₂.readBuffer, writeBuffer := st₂.writeBuffer })
    (hcommitted : st₂.committed = st₁.committed) :
    (start ssl params st₁).Alike (start ssl params st₂) :=
  resume_alike [] (fun _ => ⟨rfl, rfl⟩) hrest hcommitted (fun h => by cases h) (fun h => by cases h)

end

end ConnectSession

end NativePg
