/-
  File:      NativePg/ExecSome/Agree.lean
  Subject:   `exec_some_fsm` and `exec_fsm` agree where there is nothing to copy.

  * `resume_copyAllowed` -- allowing COPY changes the response machine's answer to a
    CopyOutResponse, and to nothing else;
  * `execReference_copyAllowed` -- so a response without one has the same reference either way;
  * **`exec_some_agrees`** -- whatever the two drivers' reads look like, they make the same handler
    calls, end with the same code, and after a success leave the same bytes.
-/
import NativePg.ExecSome.Reading

namespace NativePg

open Framing

/-! ## 1. A machine that allows COPY -/

namespace ReadResponseFsm

/-- The machine with COPY allowed. -/
def copyAllowed (f : ReadResponseFsm) : ReadResponseFsm := { f with allowCopy := true }

/-- The reply of such a machine. -/
def Reply.copyAllowed (r : Reply) : Reply := { r with fsm := r.fsm.copyAllowed }

section
variable (f : ReadResponseFsm) {msg : AnyBackendMessage}

theorem handleError_copyAllowed (e : ErrorResponse) :
    f.copyAllowed.handleError e = (f.handleError e).map Reply.copyAllowed := by
  have hreq : f.copyAllowed.req = f.req := rfl
  have hcurrent : f.copyAllowed.current = f.current := rfl
  unfold handleError
  rw [hreq, hcurrent]
  cases skipToSync (f.req.messages.drop (f.current + 1)) (f.current + 1) with
  | none => rfl
  | some p => rfl

theorem advance_copyAllowed (calls : List Call) :
    f.copyAllowed.advance calls = (f.advance calls).map Reply.copyAllowed := by
  show (if f.current + 1 ≥ f.req.messages.length then _ else _) =
    Except.map _ (if f.current + 1 ≥ f.req.messages.length then _ else _)
  split <;> rfl

theorem handleSingle_copyAllowed (completes : AnyBackendMessage → Option AnyRequestMessage) :
    handleSingle completes f.copyAllowed msg =
      (handleSingle completes f msg).map Reply.copyAllowed := by
  have hstate : f.copyAllowed.state = f.state := rfl
  unfold handleSingle
  rw [hstate]
  by_cases hs : f.state = .msgFirst
  · rw [if_neg (not_not_intro hs), if_neg (not_not_intro hs)]
    split
    · exact f.handleError_copyAllowed _
    · split
      · exact f.advance_copyAllowed _
      · rfl
  · rw [if_pos hs, if_pos hs]
    rfl

theorem handleExecute_copyAllowed (hm : ∀ m, msg ≠ .copyOutResponse m) :
    f.copyAllowed.handleExecute msg = (f.handleExecute msg).map Reply.copyAllowed := by
  have hstate : f.copyAllowed.state = f.state := rfl
  unfold handleExecute
  rw [hstate]
  split
  · split
    · exact absurd rfl (hm _)
    · exact f.handleError_copyAllowed _
    · exact f.advance_copyAllowed _
    · exact f.advance_copyAllowed _
    · exact f.advance_copyAllowed _
    · rfl
    · rfl
  · split
    · rfl
    · exact f.handleError_copyAllowed _
    · rfl
    · rfl
  · split
    · exact f.handleError_copyAllowed _
    · exact advance_copyAllowed { f with state := .msgFirst } _
    · rfl
  · rfl

theorem handleQueryFirst_copyAllowed (hm : ∀ m, msg ≠ .copyOutResponse m) :
    f.copyAllowed.handleQueryFirst msg = (f.handleQueryFirst msg).map Reply.copyAllowed := by
  have hstate : f.copyAllowed.state = f.state := rfl
  unfold handleQueryFirst
  rw [hstate]
  split
  · exact absurd rfl (hm _)
  · rfl
  · rfl
  · rfl
  · split <;> rfl
  · split
    · rfl
    · exact advance_copyAllowed { f with state := .msgFirst } []
  · rfl

theorem handleQuery_copyAllowed (hm : ∀ m, msg ≠ .copyOutResponse m) :
    f.copyAllowed.handleQuery msg = (f.handleQuery msg).map Reply.copyAllowed := by
  have hstate : f.copyAllowed.state = f.state := rfl
  unfold handleQuery
  rw [hstate]
  split
  · exact f.handleQueryFirst_copyAllowed hm
  · exact f.handleQueryFirst_copyAllowed hm
  · split <;> rfl
  · split
    · exact advance_copyAllowed { f with state := .msgFirst } []
    · rfl
  · split <;> rfl
  · split <;> rfl
  · rfl
  · rfl

theorem handleSync_copyAllowed :
    f.copyAllowed.handleSync msg = (f.handleSync msg).map Reply.copyAllowed := by
  have hstate : f.copyAllowed.state = f.state := rfl
  unfold handleSync
  rw [hstate]
  by_cases hs : f.state = .msgFirst
  · rw [if_neg (not_not_intro hs), if_neg (not_not_intro hs)]
    split
    · exact f.advance_copyAllowed []
    · rfl
  · rw [if_pos hs, if_pos hs]
    rfl

/-- **Allowing COPY changes the answer to a CopyOutResponse, and to nothing else.** -/
theorem resume_copyAllowed (hm : ∀ m, msg ≠ .copyOutResponse m) :
    f.copyAllowed.resume msg = (f.resume msg).map Reply.copyAllowed := by
  have hrem : f.copyAllowed.getRemainingMessages = f.getRemainingMessages := rfl
  have hcur : f.copyAllowed.current = f.current := rfl
  unfold resume
  rw [hrem, hcur]
  split
  · rfl
  · split
    · rename_i t i _
      cases t with
      | bind => exact handleSingle_copyAllowed { f with current := i } _
      | close => exact handleSingle_copyAllowed { f with current := i } _
      | describe => exact handleSingle_copyAllowed { f with current := i } _
      | parse => exact handleSingle_copyAllowed { f with current := i } _
      | execute => exact handleExecute_copyAllowed { f with current := i } hm
      | query => exact handleQuery_copyAllowed { f with current := i } hm
      | sync => exact handleSync_copyAllowed { f with current := i }
      | flush => rfl
    · rfl

end
end ReadResponseFsm

/-! ## 2. Whole responses -/

theorem respond_copyAllowed (s : Responding) {msg : AnyBackendMessage}
    (hm : ∀ m, msg ≠ .copyOutResponse m) :
    respond (s.1.copyAllowed, s.2) msg =
      (respond s msg).map fun s' => (s'.1.copyAllowed, s'.2) := by
  unfold respond
  simp only
  rw [s.1.resume_copyAllowed hm]
  cases s.1.resume msg with
  | error fault => rfl
  | ok r =>
    simp only [Except.map, ReadResponseFsm.Reply.copyAllowed]
    cases r.result <;> rfl

/-- **Without a CopyOutResponse, allowing COPY makes no difference to a whole response.** -/
theorem execReference_copyAllowed (setup : HandlerSetup) (req : Request) {bytes : Bytes}
    (hno : ∀ m, .copyOutResponse m ∉ messages messageParser bytes) :
    execReference setup req true bytes = execReference setup req false bytes := by
  unfold execReference
  simp only
  split
  · rfl
  · obtain ⟨hd, hr, he⟩ := drain_map (P := messageParser)
      (fun s : Responding => (s.1.copyAllowed, s.2)) bytes (readResponseFsm req false, [])
      fun s m hm => respond_copyAllowed s fun c hc => hno c (hc ▸ hm)
    have hstart : ((readResponseFsm req false).copyAllowed, ([] : List Call)) =
        (readResponseFsm req true, []) := rfl
    unfold ExecOutcome.ofDrained drainResponse
    simp only [hstart] at hd hr he
    rw [hd, hr, he]
    cases (drain messageParser respond (readResponseFsm req false, []) bytes).ending <;> rfl

/-! ## 3. The two drivers -/

theorem settled_fields (o : ExecOutcome) :
    o.settled.delivered = o.delivered ∧ o.settled.calls = o.calls ∧ o.settled.result = o.result := by
  unfold ExecOutcome.settled
  split
  · split <;> exact ⟨rfl, rfl, rfl⟩
  · exact ⟨rfl, rfl, rfl⟩

theorem settled_of_success {o : ExecOutcome} {ec : ErrorCode} (h : o.result = some (.ok ec))
    (hec : ec.failed = false) : o.settled = o := by
  unfold ExecOutcome.settled
  rw [h]
  simp [hec]

/-- **The two drivers agree.** The request runs on connections that hold the same received
    bytes; the server's bytes hold no CopyOutResponse; they arrive in reads of any sizes, not
    the same for the two. Then the handler sees the same calls, both end with the same code (or
    both wait for more), and behind a success both leave the same bytes. -/
theorem exec_some_agrees {setup : HandlerSetup} {req : Request} {st st' : ConnectionState}
    {copyBuffs : List ConstBuffer} {stream unread unread' : Bytes} {s : ExecSession}
    {s' : ExecSomeSession} {rooms rooms' : List Nat} (hst : st.committed = st'.committed)
    (hno : ∀ m, .copyOutResponse m ∉ messages messageParser (st.committed ++ stream))
    (t : Run (execMachine setup) (.start setup req false st) stream s unread rooms)
    (t' : Run (execSomeMachine setup) (.start setup req st' copyBuffs) stream s' unread' rooms') :
    s'.exec.calls = s.calls ∧
      ∃ ended : Option ErrorCode,
        (s.outcome unread).result = ended.map .ok ∧ (s'.outcome unread').result = ended.map .ok ∧
        ∀ ec, ended = some ec → ec.failed = false →
          s'.exec.st.committed ++ unread' = s.st.committed ++ unread := by
  have href := (exec_run t).1
  have hsome := (exec_some_run t').1
  rw [← hst, execReference_copyAllowed setup req hno, ← href] at hsome
  obtain ⟨_, hcalls, hresult⟩ := settled_fields (s.outcome unread)
  obtain ⟨_, hcalls', hresult'⟩ := settled_fields (s'.outcome unread')
  rw [hsome] at hcalls' hresult'
  have hres : (s'.outcome unread').result = (s.outcome unread).result := hresult'.symm.trans hresult
  refine ⟨hcalls'.symm.trans hcalls, ?_⟩
  cases hr : (s.outcome unread).result with
  | none =>
    rw [hr] at hres
    exact ⟨none, rfl, hres, fun ec h => by cases h⟩
  | some r =>
    obtain ⟨ec, rfl, _⟩ :=
      execReference_result setup req false (st.committed ++ stream) (href ▸ hr)
    rw [hr] at hres
    refine ⟨some ec, rfl, hres, fun ec' h hec => ?_⟩
    cases h
    rw [settled_of_success hr hec, settled_of_success hres hec] at hsome
    exact congrArg ExecOutcome.rest hsome

/-- CommandComplete and ReadyForQuery, as a server sends them. -/
def commandCompleteBytes : Bytes :=
  [67, 0, 0, 0, 8] ++ ascii "SET" ++ [0] ++ [90, 0, 0, 0, 5, 73]

/-- The `SET` ends with success for both, with the same two calls and the same bytes left. -/
theorem exec_some_agrees_command :
    ∃ s unread rooms s' unread' rooms',
      Run (execMachine fun _ _ => (.success, 1)) (.start (fun _ _ => (.success, 1))
        { messages := [.query] } false {}) commandCompleteBytes s unread rooms ∧
      Run (execSomeMachine fun _ _ => (.success, 1)) (.start (fun _ _ => (.success, 1))
        { messages := [.query] } {} []) commandCompleteBytes s' unread' rooms' ∧
      s.calls.length = 2 ∧ s'.exec.calls = s.calls ∧
      (s.outcome unread).result = some (.ok .success) ∧
      (s'.outcome unread').result = some (.ok .success) ∧
      s'.exec.st.committed ++ unread' = s.st.committed ++ unread := by
  obtain ⟨s, unread, rooms, t⟩ := exec_run_exists (fun _ _ => (.success, 1))
    { messages := [.query] } false {} commandCompleteBytes
  obtain ⟨s', unread', rooms', t'⟩ := exec_some_run_exists (fun _ _ => (.success, 1))
    { messages := [.query] } {} [] commandCompleteBytes
  have hmessages : messages messageParser
      (({} : ConnectionState).committed ++ commandCompleteBytes) =
        [.commandComplete (ascii "SET"), .readyForQuery .idle] := by
    decide +kernel
  have href : (s.outcome unread).settled.result = some (.ok .success) ∧
      (s.outcome unread).settled.calls.length = 2 := by
    rw [(exec_run t).1]
    decide +kernel
  obtain ⟨_, hcalls, hresult⟩ := settled_fields (s.outcome unread)
  obtain ⟨hsame, ended, hended, hended', hleft⟩ := exec_some_agrees rfl (by simp [hmessages]) t t'
  have hok : (s.outcome unread).result = some (.ok .success) := hresult ▸ href.1
  obtain rfl : ended = some .success := by
    cases ended with
    | none => rw [hended] at hok; cases hok
    | some ec => rw [hended] at hok; cases hok; rfl
  exact ⟨s, unread, rooms, s', unread', rooms', t, t',
    (congrArg List.length hcalls).symm.trans href.2, hsame, hok, hended', hleft .success rfl rfl⟩

end NativePg
