/-
  File:      NativePg/Connect/Reconnect.lean
  Subject:   Connecting again on the state an earlier session has left.

  * `Reconnects` -- from this state every connect looks like one on a new state;
  * `ConnectionState.Clean` -- no received bytes are left, and the diagnostics and the backend's
    identifiers are those of a new state. Nobody sees to it: `read_buffer::reset` is not called;
  * `Reading`, `Apart` -- a session that waits for bytes, and two sessions that some sequence of
    completions tells apart. `apart_of_leftover`, `apart_of_ready`: one that has bytes in its
    buffer, or has found an authentication there, is apart from one that has nothing;
  * `reconnects_iff` -- a state reconnects if and only if it is clean.
-/
import NativePg.Connect.Alike
import NativePg.Startup.Login

namespace NativePg

open Framing

/-! ## 1. What is asked for -/

/-- **A connect on this state is a connect on a new one**: whatever OpenSSL does, the parameters
    are and the operations bring, the actions are the same, and so is what is left at the end. -/
def Reconnects (st : ConnectionState) : Prop :=
  ∀ (ssl : OpenSsl) (params : ConnectParams) (cs : List Completion),
    (ConnectSession.start ssl params st).Possible ssl cs →
    (ConnectSession.start ssl params {}).Possible ssl cs →
    ((ConnectSession.start ssl params st).run ssl cs).outcome =
      ((ConnectSession.start ssl params {}).run ssl cs).outcome

/-- Nothing is left of an earlier session but the memory of the buffers. -/
structure ConnectionState.Clean (st : ConnectionState) : Prop where
  committed : st.committed = []
  sharedDiag : st.sharedDiag = []
  backendProcessId : st.backendProcessId = 0
  backendSecretKey : st.backendSecretKey = 0

theorem reconnects_of_clean {st : ConnectionState} (h : st.Clean) : Reconnects st := by
  intro ssl params cs hst hnew
  obtain ⟨hc, hd, hp, hk⟩ := h
  have hrest : st = { ({} : ConnectionState) with
      readBuffer := st.readBuffer, writeBuffer := st.writeBuffer } := by
    obtain ⟨wb, rb, pid, key, diag⟩ := st
    cases hd
    cases hp
    cases hk
    rfl
  have halike := ConnectSession.start_alike ssl params hrest
    (hc.trans (ReadBuffer.committedArea_new 4096).symm)
  exact (ConnectSession.run_alike halike (ConnectSession.start_asks ..)
    (ConnectSession.start_asks ..) cs hnew hst).outcome_eq

/-- A connect that fails at once leaves the diagnostics and the identifiers as they are. -/
theorem reconnects_rest {st : ConnectionState} (h : Reconnects st) :
    st.sharedDiag = [] ∧ st.backendProcessId = 0 ∧ st.backendSecretKey = 0 := by
  have hpossible : ∀ st', (ConnectSession.start unavailableOpenSsl {} st').Possible
      unavailableOpenSsl [{ ec := .operationCanceled }, {}] :=
    fun st' => ConnectSession.possible_of_no_data _ _ _ (by simp)
  have hsame := h unavailableOpenSsl {} _ (hpossible st) (hpossible {})
  have hend := congrArg ConnectOutcome.ending hsame
  simp only [ConnectSession.outcome, ConnectSession.ended, ConnectSession.run,
    ConnectSession.start, ConnectSession.next, ConnectFsm.resume] at hend
  injection hend with hend
  injection hend with _ hd hp hk
  exact ⟨hd, hp, hk⟩

/-! ## 2. A session that reads -/

namespace ConnectSession

/-- The session waits for bytes, with its machine at `p` and `bytes` in the buffer. -/
structure Reading (s : ConnectSession) (p : StartupPoint) (bytes : Bytes) : Prop where
  point : s.fsm.resumePoint = .startup
  io : s.fsm.startup.resumePoint = .reading
  impl : s.fsm.startup.impl.resumePoint = p
  committed : s.st.committed = bytes
  result : s.result = .ok (.read s.st.readBuffer.preparedSize)
  room : 0 < s.st.readBuffer.preparedSize
  needs : ∃ k, nextMessage bytes = .needs k

/-- A read has brought one byte. -/
def byte (x : UInt8) : Completion := { data := [x] }

section
variable {ssl : OpenSsl} {s : ConnectSession} {p : StartupPoint} {bytes : Bytes} {x : UInt8}
  {actions : List ConnectAction} {f : ConnectFsm} {r : StartupFsmImpl.Reply}

theorem Reading.request_eq (h : s.Reading p bytes) : s.request = some .read := by
  unfold request
  rw [h.result]
  rfl

theorem Reading.fits (h : s.Reading p bytes) (x : UInt8) : s.Fits (byte x) := by
  intro room hroom
  rw [h.result] at hroom
  cases hroom
  exact h.room

/-- A session that has asked for a read reads; what it has is the end of what it had. -/
theorem reading_of_request
    (h : (next actions (f.onStartup (StartupFsm.loop ssl r))).request = some .read) :
    ∃ room, (StartupFsm.loop ssl r).result = .ok (.read room) ∧
      (next actions (f.onStartup (StartupFsm.loop ssl r))).Reading
        (StartupFsm.loop ssl r).fsm.impl.resumePoint (StartupFsm.loop ssl r).st.committed := by
  cases hres : (StartupFsm.loop ssl r).result with
  | error fault =>
    simp [next, ConnectFsm.onStartup, hres, request, ConnectResult.request] at h
  | ok res =>
    cases res with
    | read room =>
      obtain ⟨hp, hroom, hpos, hneeds⟩ := StartupFsm.loop_read hres
      refine ⟨room, rfl, ?_⟩
      simp only [next, ConnectFsm.onStartup, hres]
      exact ⟨rfl, hp, rfl, rfl, by rw [hroom], hroom ▸ hpos, hneeds⟩
    | write data =>
      simp [next, ConnectFsm.onStartup, hres, request, ConnectResult.request] at h
    | done ec =>
      by_cases hec : ec.failed = true <;>
        simp [next, ConnectFsm.onStartup, hres, request, ConnectResult.request, hec] at h

theorem reading_of_needs (hr : r.result = .ok .read) {k : Nat}
    (hn : nextMessage r.st.committed = .needs k) :
    (next actions (f.onStartup (StartupFsm.loop ssl r))).Reading r.fsm.resumePoint
      r.st.committed := by
  obtain ⟨rb, hrb, hroom, hloop⟩ := StartupFsm.loop_needs ssl hr hn
  rw [hloop]
  exact ⟨rfl, rfl, rfl, hrb, rfl, hroom, k, hn⟩

/-- How a session goes on with one more byte: from a machine that waits, with the byte behind the
    others. -/
theorem Reading.complete_eq (h : s.Reading p bytes) (ssl : OpenSsl) (x : UInt8) :
    ∃ r : StartupFsmImpl.Reply, r.result = .ok .read ∧ r.fsm.resumePoint = p ∧
      r.st.committed = bytes ++ [x] ∧
      s.complete ssl (byte x) = next s.actions (s.fsm.onStartup (StartupFsm.loop ssl r)) := by
  have hfit : [x].length ≤ s.st.readBuffer.preparedSize := h.room
  refine ⟨⟨⟨s.fsm.startup.impl, { s.st with
    readBuffer := (s.st.readBuffer.receive [x]).commit [x].length }, s.st.sharedDiag⟩, .ok .read⟩,
    rfl, h.impl, ?_, ?_⟩
  · exact (s.st.readBuffer.committedArea_receive_commit hfit).trans
      (congrArg (· ++ [x]) h.committed)
  · simp [complete, byte, h.result, ConnectFsm.resume, h.point, StartupFsm.resume, h.io]

/-- A byte that does not complete a message is waited with. -/
theorem Reading.step_needs (h : s.Reading p bytes) {k : Nat}
    (hn : nextMessage (bytes ++ [x]) = .needs k) :
    (s.complete ssl (byte x)).Reading p (bytes ++ [x]) := by
  obtain ⟨r, hr, hp, hc, heq⟩ := h.complete_eq ssl x
  have hreading : (next s.actions (s.fsm.onStartup (StartupFsm.loop ssl r))).Reading _ _ :=
    reading_of_needs hr ((congrArg nextMessage hc).trans hn)
  rwa [heq, ← hp, ← hc]

/-- A byte that shows a message to be bad ends the session. -/
theorem Reading.step_bad (h : s.Reading p bytes) {ec : ErrorCode}
    (hn : nextMessage (bytes ++ [x]) = .bad ec) :
    (s.complete ssl (byte x)).request = some .close := by
  obtain ⟨r, hr, _, hc, heq⟩ := h.complete_eq ssl x
  have hec := nextMessage_bad_failed hn
  rw [heq, StartupFsm.loop_bad ssl hr ((congrArg nextMessage hc).trans hn)]
  simp [next, ConnectFsm.onStartup, request, ConnectResult.request, hec]

/-- Behind a message that takes all there is, a session that goes on reading has nothing. -/
theorem Reading.step_message (h : s.Reading p bytes) {msg : AnyBackendMessage}
    (hn : nextMessage (bytes ++ [x]) = .message msg (bytes.length + 1))
    (hreq : (s.complete ssl (byte x)).request = some .read) :
    ∃ p', (s.complete ssl (byte x)).Reading p' [] := by
  obtain ⟨r, hr, _, hc, heq⟩ := h.complete_eq ssl x
  rw [heq, StartupFsm.loop_message ssl hr ((congrArg nextMessage hc).trans hn)] at hreq ⊢
  obtain ⟨room, hres, hreading⟩ := reading_of_request hreq
  have hsuffix := StartupFsm.loop_suffix hres
  have hnil : (StartupFsm.taken ssl r msg (bytes.length + 1)).st.committed = [] := by
    rw [StartupFsm.taken_committed, hc]
    exact List.drop_eq_nil_of_le (by simp)
  rw [hnil] at hsuffix
  rw [List.suffix_nil.mp hsuffix] at hreading
  exact ⟨_, hreading⟩

/-- A byte that completes a message the machine ends at. -/
theorem Reading.step_done (h : s.Reading p bytes) {msg : AnyBackendMessage} {size : Nat}
    (hn : nextMessage (bytes ++ [x]) = .message msg size) {ec : ErrorCode}
    (hdone : ∀ d : StartupFsmImpl.Data, d.fsm.resumePoint = p →
      (d.resume ssl msg).result = .ok (.done ec)) :
    (s.complete ssl (byte x)).request = if ec.failed then some .close else none := by
  obtain ⟨r, hr, hp, hc, heq⟩ := h.complete_eq ssl x
  have hd : (StartupFsm.taken ssl r msg size).result = .ok (.done ec) := hdone r.toData hp
  rw [heq, StartupFsm.loop_message ssl hr ((congrArg nextMessage hc).trans hn),
    StartupFsm.loop_done ssl hd]
  by_cases hec : ec.failed = true
  · simp [next, ConnectFsm.onStartup, StartupFsm.Reply.after, request, ConnectResult.request, hec]
  · simp [next, ConnectFsm.onStartup, StartupFsm.Reply.after, request, ConnectResult.request, hec]

/-- Where a message is still missing bytes, it was missing bytes before. -/
theorem nextMessage_needs_of_append {data rest : Bytes} {k : Nat}
    (h : nextMessage (data ++ rest) = .needs k) : ∃ k, nextMessage data = .needs k := by
  cases hn : nextMessage data with
  | needs k => exact ⟨k, rfl⟩
  | bad ec =>
    have : nextMessage (data ++ rest) = .bad ec := messageParser.bad_append rest hn
    rw [h] at this
    cases this
  | message msg n =>
    have : nextMessage (data ++ rest) = .message msg n := messageParser.message_append rest hn
    rw [h] at this
    cases this

/-- Bytes that do not complete a message are waited with, one after the other. -/
theorem Reading.run_needs (h : s.Reading p bytes) (ssl : OpenSsl) (xs : Bytes) {k : Nat}
    (hn : nextMessage (bytes ++ xs) = .needs k) :
    (s.run ssl (xs.map byte)).Reading p (bytes ++ xs) ∧ s.Possible ssl (xs.map byte) := by
  induction xs generalizing s bytes with
  | nil =>
    rw [List.append_nil]
    exact ⟨h, trivial⟩
  | cons x xs ih =>
    rw [List.append_cons] at hn ⊢
    obtain ⟨k', hx⟩ := nextMessage_needs_of_append hn
    obtain ⟨hrun, hpossible⟩ := ih (h.step_needs hx) hn
    exact ⟨hrun, h.fits x, hpossible⟩

end

/-! ## 3. Telling two sessions apart -/

/-- Some sequence of completions makes the two ask for different things. -/
def Apart (ssl : OpenSsl) (s₁ s₂ : ConnectSession) : Prop :=
  ∃ cs, s₁.Possible ssl cs ∧ s₂.Possible ssl cs ∧
    (s₁.run ssl cs).request ≠ (s₂.run ssl cs).request

section
variable {ssl : OpenSsl} {s₁ s₂ : ConnectSession} {p p₁ p₂ : StartupPoint} {bytes : Bytes}
  {x : UInt8}

theorem Apart.now (h : s₁.request ≠ s₂.request) : Apart ssl s₁ s₂ := ⟨[], trivial, trivial, h⟩

theorem Apart.step {c : Completion} (h : Apart ssl (s₁.complete ssl c) (s₂.complete ssl c))
    (h₁ : s₁.Fits c) (h₂ : s₂.Fits c) : Apart ssl s₁ s₂ := by
  obtain ⟨cs, hp₁, hp₂, hne⟩ := h
  exact ⟨c :: cs, ⟨h₁, hp₁⟩, ⟨h₂, hp₂⟩, hne⟩

theorem possible_append {s : ConnectSession} {cs cs' : List Completion} (h : s.Possible ssl cs)
    (h' : (s.run ssl cs).Possible ssl cs') : s.Possible ssl (cs ++ cs') := by
  induction cs generalizing s with
  | nil => exact h'
  | cons c cs ih => exact ⟨h.1, ih h.2 h'⟩

theorem Apart.run {cs : List Completion} (h : Apart ssl (s₁.run ssl cs) (s₂.run ssl cs))
    (h₁ : s₁.Possible ssl cs) (h₂ : s₂.Possible ssl cs) : Apart ssl s₁ s₂ := by
  obtain ⟨cs', hp₁, hp₂, hne⟩ := h
  refine ⟨cs ++ cs', possible_append h₁ hp₁, possible_append h₂ hp₂, ?_⟩
  simpa [ConnectSession.run] using hne

/-- Two sessions that read may be fed bytes neither can do anything with. -/
theorem Reading.apart_of_run {bytes₁ bytes₂ xs : Bytes} {k₁ k₂ : Nat}
    (h₁ : s₁.Reading p₁ bytes₁) (h₂ : s₂.Reading p₂ bytes₂)
    (hn₁ : nextMessage (bytes₁ ++ xs) = .needs k₁) (hn₂ : nextMessage (bytes₂ ++ xs) = .needs k₂)
    (h : ∀ s₁ s₂ : ConnectSession, s₁.Reading p₁ (bytes₁ ++ xs) → s₂.Reading p₂ (bytes₂ ++ xs) →
      Apart ssl s₁ s₂) : Apart ssl s₁ s₂ := by
  obtain ⟨hr₁, hp₁⟩ := h₁.run_needs ssl xs hn₁
  obtain ⟨hr₂, hp₂⟩ := h₂.run_needs ssl xs hn₂
  exact (h _ _ hr₁ hr₂).run hp₁ hp₂

theorem Apart.symm (h : Apart ssl s₁ s₂) : Apart ssl s₂ s₁ := by
  obtain ⟨cs, hp₁, hp₂, hne⟩ := h
  exact ⟨cs, hp₂, hp₁, hne.symm⟩

/-- One waits with a byte the other ends at. -/
theorem Reading.apart_of_bad {bytes₁ bytes₂ : Bytes} {k : Nat} {ec : ErrorCode}
    (h₁ : s₁.Reading p₁ bytes₁) (h₂ : s₂.Reading p₂ bytes₂)
    (hn₁ : nextMessage (bytes₁ ++ [x]) = .needs k)
    (hn₂ : nextMessage (bytes₂ ++ [x]) = .bad ec) : Apart ssl s₁ s₂ := by
  refine Apart.step (Apart.now ?_) (h₁.fits x) (h₂.fits x)
  rw [(h₁.step_needs hn₁).request_eq, h₂.step_bad hn₂]
  simp

/-- A message that ends with a byte the other session waits with: the session ends there, or goes
    on with an empty buffer, and then it waits with what the other one ends at. -/
theorem Reading.apart_of_frame {bytes₁ bytes₂ ys : Bytes} {y : UInt8} {k k' : Nat} {ec : ErrorCode}
    {header : MessageHeader} (h₁ : s₁.Reading p₁ bytes₁) (h₂ : s₂.Reading p₂ bytes₂)
    (hh : parseHeader ((bytes₁ ++ [x]).take 5) = .ok header)
    (hsize : header.requiredSize = bytes₁.length + 1)
    (hn : nextMessage (bytes₂ ++ [x] ++ ys) = .needs k)
    (hy : nextMessage (ys ++ [y]) = .needs k')
    (hbad : nextMessage (bytes₂ ++ [x] ++ ys ++ [y]) = .bad ec) : Apart ssl s₁ s₂ := by
  obtain ⟨kx, hx⟩ := nextMessage_needs_of_append hn
  have h₂' : (s₂.complete ssl (byte x)).Reading p₂ (bytes₂ ++ [x]) := h₂.step_needs hx
  refine Apart.step ?_ (h₁.fits x) (h₂.fits x)
  have hle : header.requiredSize ≤ (bytes₁ ++ [x]).length := by simp [hsize]
  by_cases hreq : (s₁.complete ssl (byte x)).request = some .read
  · cases hb : parseAnyMessage header.type
      (((bytes₁ ++ [x]).drop 5).take (header.requiredSize - 5)) with
    | error ec' =>
      have hclose : (s₁.complete ssl (byte x)).request = some .close :=
        h₁.step_bad (NextMessage.badBody hh hle hb).eq
      rw [hreq] at hclose
      cases hclose
    | ok msg =>
      have hmsg := (NextMessage.whole hh hle hb).eq
      rw [hsize] at hmsg
      obtain ⟨p', h₁'⟩ := h₁.step_message hmsg hreq
      obtain ⟨ky, hys⟩ := nextMessage_needs_of_append hy
      refine h₁'.apart_of_run h₂' hys hn fun t₁ t₂ ht₁ ht₂ => ?_
      exact ht₁.apart_of_bad ht₂ hy hbad
  · refine Apart.now fun h => hreq ?_
    rw [h, h₂'.request_eq]

/-- A session in the middle of a message is told apart from a new one by bytes that are bad for the
    new one, as long as the message does not end with the last of them. -/
theorem Reading.apart_of_incomplete {xs : Bytes} {k : Nat} {ec : ErrorCode} {header : MessageHeader}
    (h₁ : s₁.Reading p₁ bytes) (h₂ : s₂.Reading p₂ []) (h5 : 5 ≤ bytes.length)
    (hh : parseHeader (bytes.take 5) = .ok header) (hlt : bytes.length < header.requiredSize)
    (hn : nextMessage xs = .needs k) (hbad : nextMessage (xs ++ [x]) = .bad ec)
    (hne : header.requiredSize ≠ bytes.length + xs.length + 1)
    (hrest : ∀ ys y zs, xs = ys ++ y :: zs → header.requiredSize = bytes.length + ys.length + 1 →
      ∃ k, nextMessage (zs ++ [x]) = .needs k) : Apart ssl s₁ s₂ := by
  have hhead : ∀ rest, parseHeader ((bytes ++ rest).take 5) = .ok header := fun rest => by
    rwa [take_append_header h5]
  have hwait : ∀ rest : Bytes, bytes.length + rest.length < header.requiredSize →
      nextMessage (bytes ++ rest) = .needs (header.requiredSize - (bytes ++ rest).length) :=
    fun rest hl => (NextMessage.incomplete (by simp; omega) (hhead rest) (by simpa using hl)).eq
  rcases Nat.lt_or_ge (bytes.length + xs.length) header.requiredSize with hlong | hshort
  · -- the message is longer than all of them
    refine h₁.apart_of_run h₂ (hwait xs hlong) hn fun t₁ t₂ ht₁ ht₂ => ?_
    have hall := hwait (xs ++ [x]) (by simp; omega)
    rw [← List.append_assoc] at hall
    exact ht₁.apart_of_bad ht₂ hall hbad
  · -- the message ends among them
    have hsplit : ∃ ys y zs, xs = ys ++ y :: zs ∧
        header.requiredSize = bytes.length + ys.length + 1 := by
      have hi : header.requiredSize - bytes.length - 1 < xs.length := by omega
      refine ⟨xs.take (header.requiredSize - bytes.length - 1), xs.get ⟨_, hi⟩,
        xs.drop (header.requiredSize - bytes.length - 1 + 1), ?_, ?_⟩
      · simp
      · rw [List.length_take]
        omega
    obtain ⟨ys, y, zs, rfl, hsize⟩ := hsplit
    obtain ⟨k', hy⟩ := hrest ys y zs rfl hsize
    obtain ⟨k₂, hys⟩ := nextMessage_needs_of_append hn
    refine h₁.apart_of_run h₂ (hwait ys (by omega)) hys fun t₁ t₂ ht₁ ht₂ => ?_
    have hcat : ys ++ y :: zs = ys ++ [y] ++ zs := List.append_cons ..
    rw [hcat] at hn hbad
    have hhead' := hhead (ys ++ [y])
    rw [← List.append_assoc] at hhead'
    exact ht₁.apart_of_frame ht₂ hhead' (by simpa using hsize) hn hy hbad

/-- A header whose last byte is zero belongs to a long message. -/
theorem parseHeader_round {front : Bytes} (hlen : front.length = 4) {header : MessageHeader}
    (hh : parseHeader (front ++ [0]) = .ok header) : 256 < header.requiredSize := by
  obtain ⟨a, b, c, d, rfl⟩ : ∃ a b c d, front = [a, b, c, d] := by
    match front, hlen with
    | [a, b, c, d], _ => exact ⟨a, b, c, d, rfl⟩
  obtain ⟨m, hm⟩ := BigEndian.dvd_toInt [b, c, d]
  have hsize : (([a, b, c, d] ++ [0]).drop 1).take 4 = [b, c, d] ++ [0] := rfl
  unfold parseHeader at hh
  rw [hsize, loadBigSigned, hm] at hh
  simp only at hh
  split at hh
  · cases hh
  · cases hh
    simp only [MessageHeader.requiredSize]
    omega

theorem nextMessage_short {data : Bytes} (h : data.length < 5) :
    nextMessage data = .needs (5 - data.length) := (NextMessage.short h).eq

/-- A session that has less than a header is told apart from a new one by zeros: they make a header
    the session ends at too early, or the header of a message that is longer than they are. -/
theorem Reading.apart_of_short (h₁ : s₁.Reading p₁ bytes) (h₂ : s₂.Reading p₂ [])
    (hpos : 0 < bytes.length) (hlt : bytes.length < 5) : Apart ssl s₁ s₂ := by
  obtain ⟨n, hn⟩ : ∃ n, bytes.length + n = 4 := ⟨4 - bytes.length, by omega⟩
  have hfront : (bytes ++ List.replicate n 0).length = 4 := by simpa using hn
  cases hh : parseHeader (bytes ++ List.replicate n 0 ++ [0]) with
  | error ec =>
    have hbad : nextMessage (bytes ++ List.replicate n 0 ++ [0]) = .bad ec := by
      refine (NextMessage.badHeader (by simp; omega) ?_).eq
      rwa [List.take_of_length_le (by simp; omega)]
    have hwait : nextMessage (bytes ++ List.replicate n 0) = _ := nextMessage_short (by omega)
    refine h₁.apart_of_run h₂ hwait (nextMessage_short (by simp; omega)) fun t₁ t₂ ht₁ ht₂ => ?_
    exact (ht₂.apart_of_bad ht₁ (nextMessage_short (by simp; omega)) hbad).symm
  | ok header =>
    have hsize := parseHeader_round hfront hh
    have hcat : bytes ++ List.replicate 4 0 ++ [0] =
        bytes ++ List.replicate n 0 ++ [0] ++ List.replicate (4 - n) 0 := by
      have hzeros : List.replicate 4 (0 : UInt8) ++ [0] =
          List.replicate n 0 ++ ([0] ++ List.replicate (4 - n) 0) := by
        obtain rfl | rfl | rfl | rfl : n = 0 ∨ n = 1 ∨ n = 2 ∨ n = 3 := by omega
        all_goals rfl
      simp only [List.append_assoc, hzeros]
    have hwait : ∃ k, nextMessage (bytes ++ List.replicate 4 0 ++ [0]) = .needs k := by
      rw [hcat]
      have hhead : parseHeader ((bytes ++ List.replicate n 0 ++ [0] ++
          List.replicate (4 - n) 0).take 5) = .ok header := by
        rwa [take_append_header (by simp; omega), List.take_of_length_le (by simp; omega)]
      exact ⟨_, (NextMessage.incomplete (by simp; omega) hhead (by simp; omega)).eq⟩
    obtain ⟨k, hk⟩ := hwait
    obtain ⟨k', hk'⟩ := nextMessage_needs_of_append hk
    refine h₁.apart_of_run h₂ hk' (nextMessage_short (by decide)) fun t₁ t₂ ht₁ ht₂ => ?_
    exact ht₁.apart_of_bad ht₂ hk
      (show nextMessage [0, 0, 0, 0, 0] = .bad ClientErrc.protocolValueError.code by decide)

/-- **A session that waits with bytes in its buffer is not a new one.** -/
theorem Reading.apart_of_leftover (h₁ : s₁.Reading p₁ bytes) (h₂ : s₂.Reading p₂ [])
    (hne : bytes ≠ []) : Apart ssl s₁ s₂ := by
  obtain ⟨k, hk⟩ := h₁.needs
  cases nextMessage_spec_of hk with
  | short hlt => exact h₁.apart_of_short h₂ (List.length_pos_iff.mpr hne) hlt
  | @incomplete header h5 hh hlt =>
    by_cases h : header.requiredSize = bytes.length + 5
    · -- five more bytes complete the message, and six are bad
      refine h₁.apart_of_incomplete h₂ h5 hh hlt
        (show nextMessage [0, 0, 0, 0, 5] = .needs 1 by decide)
        (show nextMessage [0, 0, 0, 0, 5, 0] = .bad ClientErrc.protocolValueError.code by decide)
        (by simp [h]) ?_
      intro ys y zs hxs hsize
      have hlen := congrArg List.length hxs
      simp only [List.length_append, List.length_cons, List.length_nil] at hlen
      have hzs : zs = [] := List.eq_nil_of_length_eq_zero (by omega)
      exact ⟨4, by rw [hzs]; decide⟩
    · refine h₁.apart_of_incomplete h₂ h5 hh hlt
        (show nextMessage [0, 0, 0, 0] = .needs 1 by decide)
        (show nextMessage [0, 0, 0, 0, 0] = .bad ClientErrc.protocolValueError.code by decide)
        (by simpa using h) ?_
      intro ys y zs hxs _
      have hlen := congrArg List.length hxs
      simp only [List.length_append, List.length_cons, List.length_nil] at hlen
      exact ⟨_, nextMessage_short (by simp; omega)⟩

/-- A session that has taken itself for authenticated accepts a ReadyForQuery, a new one does not. -/
theorem Reading.apart_of_ready (h₁ : s₁.Reading .readReady []) (h₂ : s₂.Reading .readAuth []) :
    Apart ssl s₁ s₂ := by
  have hfront : nextMessage ([] ++ [90, 0, 0, 0, 5]) = .needs 1 := by decide
  have hmsg : nextMessage ([] ++ [90, 0, 0, 0, 5] ++ [73]) = .message (.readyForQuery .idle) 6 := by
    decide +kernel
  refine h₁.apart_of_run h₂ hfront hfront fun t₁ t₂ ht₁ ht₂ => ?_
  refine Apart.step (Apart.now ?_) (ht₁.fits 73) (ht₂.fits 73)
  have hnone : (t₁.complete ssl (byte 73)).request =
      if ErrorCode.success.failed then some .close else none :=
    ht₁.step_done hmsg fun d hp => by
      simp [StartupFsmImpl.Data.resume, hp, StartupFsmImpl.Data.handleReady,
        StartupFsmImpl.Data.done]
  have hclose : (t₂.complete ssl (byte 73)).request =
      if ClientErrc.unexpectedMessage.code.failed then some .close else none :=
    ht₂.step_done hmsg fun d hp => by
      simp [StartupFsmImpl.Data.resume, hp, checkUnknownAuthMethods,
        StartupFsmImpl.Data.handleAuthResponse, StartupFsmImpl.Data.done]
  rw [hnone, hclose]
  simp

end

/-! ## 4. Behind the startup message -/

/-- The physical connect and the write of the startup message succeed: the machine waits for the
    authentication request, and looks at the bytes it finds. -/
theorem run_connected (ssl : OpenSsl) (st : ConnectionState) :
    ∃ (actions : List ConnectAction) (f : ConnectFsm) (r : StartupFsmImpl.Reply),
      r.result = .ok .read ∧ r.fsm.resumePoint = .readAuth ∧ r.st.committed = st.committed ∧
      (start ssl {} st).run ssl [{}, {}] = next actions (f.onStartup (StartupFsm.loop ssl r)) := by
  have hfirst : StartupFsm.loop ssl (StartupFsmImpl.Data.resume ⟨{ params := {} }, st, st.sharedDiag⟩
      ssl .none) =
      { fsm := ⟨.writing, { resumePoint := .writeStartup, params := {} }⟩
        st := { st with writeBuffer := (serializeStartup {}).2 }
        diag := st.sharedDiag
        result := .ok (.write (serializeStartup {}).2) } :=
    StartupFsm.loop_write ssl rfl
  have hconnect : (start ssl {} st).complete ssl {} = next [.connect] (ConnectFsm.onStartup
      { connectFsm {} with resumePoint := .connecting } (StartupFsm.loop ssl
        (StartupFsmImpl.Data.resume ⟨{ params := {} }, st, st.sharedDiag⟩ ssl .none))) := rfl
  rw [hfirst] at hconnect
  exact ⟨[.connect, .write (serializeStartup {}).2],
    { connectFsm {} with
      resumePoint := .startup
      startup := ⟨.writing, { resumePoint := .writeStartup, params := {} }⟩ },
    ⟨⟨{ resumePoint := .readAuth, params := {} },
      { st with writeBuffer := (serializeStartup {}).2 }, st.sharedDiag⟩, .ok .read⟩, rfl, rfl, rfl,
    by simp only [run, List.foldl_cons, List.foldl_nil, hconnect]; rfl⟩

/-- **A session on a state with bytes in its buffer is not one on a new state.** -/
theorem start_apart (ssl : OpenSsl) {st : ConnectionState} (hne : st.committed ≠ []) :
    Apart ssl (start ssl {} st) (start ssl {} {}) := by
  have hpossible : ∀ s : ConnectSession, s.Possible ssl [{}, {}] :=
    fun s => possible_of_no_data ssl _ s (by simp)
  refine Apart.run ?_ (hpossible _) (hpossible _)
  obtain ⟨_, _, r₁, _, hp₁, hc₁, heq₁⟩ := run_connected ssl st
  obtain ⟨_, _, r₂, hr₂, hp₂, hc₂, heq₂⟩ := run_connected ssl {}
  have hnew : r₂.st.committed = [] := hc₂.trans (ReadBuffer.committedArea_new 4096)
  have h₂ : ((start ssl {} {}).run ssl [{}, {}]).Reading .readAuth [] := by
    rw [heq₂, ← hp₂, ← hnew]
    exact reading_of_needs hr₂ ((congrArg nextMessage hnew).trans (nextMessage_short (by decide)))
  by_cases hreq : ((start ssl {} st).run ssl [{}, {}]).request = some .read
  · rw [heq₁] at hreq ⊢
    obtain ⟨room, hres, hreading⟩ := reading_of_request hreq
    -- it has taken an AuthenticationOk out of the buffer, or it still has what was there
    rcases StartupFsm.loop_position (.inl hp₁) hres with hready | ⟨_, hsame⟩
    · by_cases hnil : (StartupFsm.loop ssl r₁).st.committed = []
      · rw [hready, hnil] at hreading
        exact hreading.apart_of_ready h₂
      · exact hreading.apart_of_leftover h₂ hnil
    · refine hreading.apart_of_leftover h₂ ?_
      rwa [hsame, hc₁]
  · refine Apart.now fun h => hreq ?_
    rw [h, h₂.request_eq]

/-! ## 5. What is asked for last can be seen -/

/-- The last action is the one the session waits for. -/
def Logged (s : ConnectSession) : Prop := ∃ past, s.actions = past ++ s.request.toList

theorem complete_logged {ssl : OpenSsl} {s : ConnectSession} (h : s.Logged) (c : Completion) :
    (s.complete ssl c).Logged := by
  unfold complete
  split
  · exact ⟨s.actions, rfl⟩
  · exact ⟨s.actions, rfl⟩
  · exact ⟨s.actions, rfl⟩
  · exact ⟨s.actions, rfl⟩
  · exact h
  · exact h

theorem run_logged {ssl : OpenSsl} {s : ConnectSession} (h : s.Logged) :
    ∀ cs : List Completion, (s.run ssl cs).Logged := by
  intro cs
  induction cs generalizing s with
  | nil => exact h
  | cons c cs ih => exact ih (complete_logged h c)

/-- A session has ended, or it asks for something. -/
theorem ended_or_request (s : ConnectSession) :
    (s.ended = none ∧ ∃ a, s.request = some a) ∨ ((∃ r, s.ended = some r) ∧ s.request = none) := by
  unfold ended request
  rcases s.result with fault | ec | room | data | _ | _ <;> simp [ConnectResult.request]

theorem request_eq_of_outcome {s₁ s₂ : ConnectSession} (h₁ : s₁.Logged) (h₂ : s₂.Logged)
    (h : s₁.outcome = s₂.outcome) : s₁.request = s₂.request := by
  obtain ⟨past₁, h₁⟩ := h₁
  obtain ⟨past₂, h₂⟩ := h₂
  have hactions : s₁.actions = s₂.actions := congrArg ConnectOutcome.actions h
  have hending : s₁.ended.isSome = s₂.ended.isSome := by
    have := congrArg (fun o => o.ending.isSome) h
    simpa [outcome] using this
  rcases ended_or_request s₁ with ⟨he₁, a₁, hr₁⟩ | ⟨⟨_, he₁⟩, hr₁⟩ <;>
    rcases ended_or_request s₂ with ⟨he₂, a₂, hr₂⟩ | ⟨⟨_, he₂⟩, hr₂⟩ <;>
    simp [he₁, he₂] at hending
  · rw [h₁, h₂, hr₁, hr₂] at hactions
    rw [hr₁, hr₂]
    simpa using (List.append_inj' hactions rfl).2
  · rw [hr₁, hr₂]

end ConnectSession

/-! ## 6. Exactly the clean states reconnect -/

theorem committed_of_reconnects {st : ConnectionState} (h : Reconnects st) : st.committed = [] := by
  by_contra hne
  obtain ⟨cs, hst, hnew, hreq⟩ := ConnectSession.start_apart unavailableOpenSsl hne
  have hlogged : ∀ st', ((ConnectSession.start unavailableOpenSsl {} st').run unavailableOpenSsl
      cs).Logged := fun st' => ConnectSession.run_logged ⟨[], rfl⟩ cs
  exact hreq (ConnectSession.request_eq_of_outcome (hlogged st) (hlogged {})
    (h unavailableOpenSsl {} cs hst hnew))

/-- **A connect does not depend on the session before it if and only if that session has left
    nothing behind**: no received bytes that were not consumed, no diagnostics, no identifiers of
    the backend. Nothing in the library sees to it. -/
theorem reconnects_iff (st : ConnectionState) : Reconnects st ↔ st.Clean := by
  constructor
  · intro h
    obtain ⟨hd, hp, hk⟩ := reconnects_rest h
    exact ⟨committed_of_reconnects h, hd, hp, hk⟩
  · exact reconnects_of_clean

/-- AuthenticationOk and ReadyForQuery: all a server that asks for no password has to send. -/
def loginBytes : Bytes := [82, 0, 0, 0, 8, 0, 0, 0, 0, 90, 0, 0, 0, 5, 73]

/-- A connect to a server that sends these bytes in one read. -/
def oneRead (bytes : Bytes) : List Completion := [{}, {}, { data := bytes }]

/-- A connect on this state with the default parameters. -/
def connectOn (st : ConnectionState) : ConnectSession := .start unavailableOpenSsl {} st

/-- The server logs the client in and goes on with a notice; four bytes of it have arrived when the
    connection is lost. -/
def lostConnection : ConnectSession :=
  (connectOn {}).run unavailableOpenSsl (oneRead (loginBytes ++ [78, 0, 0, 0]))

/-- **The next connect takes the new server's answer for the rest of the old notice**, and waits for
    more of it where a connect on a new state has succeeded. -/
theorem lost_notice_breaks_reconnect :
    (connectOn {}).Possible unavailableOpenSsl (oneRead (loginBytes ++ [78, 0, 0, 0])) ∧
    lostConnection.ended = some (.ok .success) ∧
    ((connectOn lostConnection.st).run unavailableOpenSsl (oneRead loginBytes)).request =
      some .read ∧
    ((connectOn {}).run unavailableOpenSsl (oneRead loginBytes)).ended = some (.ok .success) ∧
    ¬Reconnects lostConnection.st := by
  refine ⟨by decide +kernel, by decide +kernel, by decide +kernel, by decide +kernel, fun h => ?_⟩
  have hst : (connectOn lostConnection.st).Possible unavailableOpenSsl (oneRead loginBytes) := by
    decide +kernel
  have hnew : (connectOn {}).Possible unavailableOpenSsl (oneRead loginBytes) := by
    decide +kernel
  have hended := congrArg (fun o => o.ending.isSome) (h unavailableOpenSsl {} _ hst hnew)
  exact absurd hended (by decide +kernel)

end NativePg
