/-
  File:      NativePg/ExecSome/Copy.lean
  Subject:   The terms in which a COPY OUT is described.

  * `inCopy` -- whether a COPY is under way behind some messages; `Move.copying`: the response
    machine knows it too, and is inside one of its COPY states exactly then;
  * `ReadBuffer.view` -- what a view refers to; `payload_of_copyData`: the view the loop keeps of a
    CopyData message is its payload;
  * `Moment.Sound`, `handedOut` -- what is to hold of a result, and what all of them hand out;
  * `Shape`, `phaseOf` -- the order of events a COPY is to show;
  * `ErrorsCovered`, `copyTrack` -- no error comes outside a COPY.
-/
import Mathlib.Data.List.Induction
import NativePg.ExecSome.Agree

namespace NativePg

open Framing

/-! ## 1. Messages and COPY -/

/-- Whether a COPY is under way behind a message. -/
def copyStep (inside : Bool) : AnyBackendMessage → Bool
  | .copyOutResponse _ => true
  | .copyDone | .errorResponse _ => false
  | _ => inside

/-- Whether a COPY is under way behind `msgs`. -/
def inCopy (msgs : List AnyBackendMessage) : Bool := msgs.foldl copyStep false

@[simp] theorem inCopy_snoc (msgs : List AnyBackendMessage) (msg : AnyBackendMessage) :
    inCopy (msgs ++ [msg]) = copyStep (inCopy msgs) msg := by
  simp [inCopy]

/-- The payload a message carries for the user. -/
def AnyBackendMessage.copyPayload : AnyBackendMessage → Bytes
  | .copyData data => data
  | _ => []

/-- The payloads of all CopyData messages, in order. -/
def copyPayload (msgs : List AnyBackendMessage) : Bytes :=
  msgs.flatMap AnyBackendMessage.copyPayload

@[simp] theorem copyPayload_snoc (msgs : List AnyBackendMessage) (msg : AnyBackendMessage) :
    copyPayload (msgs ++ [msg]) = copyPayload msgs ++ msg.copyPayload := by
  simp [copyPayload]

theorem copyStep_of_quiet {msg : AnyBackendMessage} (h : msg.quiet = true) (c : Bool) :
    copyStep c msg = c := by
  cases msg <;> first | rfl | cases h

theorem copyPayload_of_quiet {msg : AnyBackendMessage} (h : msg.quiet = true) :
    msg.copyPayload = [] := by
  cases msg <;> first | rfl | cases h

theorem quiet_of_isAsync {msg : AnyBackendMessage} (h : msg.isAsync = true) :
    msg.quiet = true := by
  cases msg <;> first | rfl | cases h

namespace ReadResponseFsm

open ReadResponse

/-- The states in which CopyData is accepted. -/
def copying : State → Bool
  | .execCopyOut | .queryCopyOut => true
  | _ => false

theorem Stays.copying {c : Bool} {m : RequestMessageType} {s s' : State} {msg : AnyBackendMessage}
    {cs : List AnyRequestMessage} (h : Stays c m s msg s' cs) :
    ReadResponseFsm.copying s' = copyStep (ReadResponseFsm.copying s) msg ∧
      (∀ m, msg = .copyOutResponse m → ReadResponseFsm.copying s = false) ∧
      (msg = .copyDone ∨ (∃ d, msg = .copyData d) → ReadResponseFsm.copying s = true) := by
  cases h <;> try (rename_i hs; rcases hs with rfl | rfl)
  all_goals simp [ReadResponseFsm.copying, copyStep]

theorem Finishes.copying {m : RequestMessageType} {s : State} {msg : AnyBackendMessage}
    {cs : List AnyRequestMessage} (h : Finishes m s msg cs) :
    ReadResponseFsm.copying s = false ∧ msg.quiet = true := by
  cases h <;> try (rename_i hs; rcases hs with rfl | rfl)
  all_goals exact ⟨rfl, rfl⟩

/-- **The machine is in a COPY state exactly while a COPY is under way**, and takes the messages
    of a COPY only there. -/
theorem Move.copying {f : ReadResponseFsm} {msg : AnyBackendMessage} {r : Reply}
    (h : f.Move msg r) (hr : r.result = .read) :
    ReadResponseFsm.copying r.fsm.state = copyStep (ReadResponseFsm.copying f.state) msg ∧
      (∀ m, msg = .copyOutResponse m → ReadResponseFsm.copying f.state = false) ∧
      (msg = .copyDone ∨ (∃ d, msg = .copyData d) → ReadResponseFsm.copying f.state = true) := by
  have hquiet : ∀ {c : Bool}, msg.quiet = true →
      (∀ m, msg = .copyOutResponse m → c = false) ∧
        (msg = .copyDone ∨ (∃ d, msg = .copyData d) → c = true) := by
    intro c hq
    refine ⟨fun m e => ?_, fun e => ?_⟩
    · subst e
      cases hq
    · rcases e with rfl | ⟨d, rfl⟩ <;> cases hq
  cases h with
  | async ha =>
    have hq := quiet_of_isAsync ha
    exact ⟨(copyStep_of_quiet hq _).symm, hquiet hq⟩
  | stay _ hs => exact hs.copying
  | finish _ hfin =>
    obtain ⟨hc, hq⟩ := hfin.copying
    refine ⟨?_, hquiet hq⟩
    rw [copyStep_of_quiet hq, hc]
    rfl
  | error e hmsg _ _ _ _ =>
    subst hmsg
    exact ⟨rfl, by simp, by simp⟩
  | reject g e => cases hr

/-- A response that ends without an error ends outside a COPY, with a message that is no part of
    one. -/
theorem Move.copying_of_success {f : ReadResponseFsm} {msg : AnyBackendMessage} {r : Reply}
    {ec : ErrorCode} (h : f.Move msg r) (hr : r.result = .done ec) (hec : ec.failed = false) :
    ReadResponseFsm.copying f.state = false ∧ msg.quiet = true := by
  cases h with
  | async _ => cases hr
  | stay _ _ => cases hr
  | finish _ hfin => exact hfin.copying
  | error _ _ _ _ _ _ => cases hr
  | reject g e =>
    cases hr
    exact absurd hec (by simp)

end ReadResponseFsm

/-! ## 2. Views into the read buffer -/

/-- The bytes a `const_buffer` refers to. -/
def ReadBuffer.view (rb : ReadBuffer) (b : ConstBuffer) : Bytes :=
  (rb.buffer.drop b.offset).take b.size

/-- The bytes several of them refer to, in order. -/
def ReadBuffer.views (rb : ReadBuffer) (bs : List ConstBuffer) : Bytes := bs.flatMap rb.view

/-- The view lies in the first `n` bytes of the committed area. -/
def ReadBuffer.Holds (rb : ReadBuffer) (n : Nat) (b : ConstBuffer) : Prop :=
  rb.committedOffset ≤ b.offset ∧ b.offset + b.size ≤ rb.committedOffset + n

@[simp] theorem ReadBuffer.views_nil (rb : ReadBuffer) : rb.views [] = [] := rfl

@[simp] theorem ReadBuffer.views_snoc (rb : ReadBuffer) (bs : List ConstBuffer) (b : ConstBuffer) :
    rb.views (bs ++ [b]) = rb.views bs ++ rb.view b := by
  simp [views]

theorem ReadBuffer.Holds.mono {rb : ReadBuffer} {n k : Nat} {b : ConstBuffer} (h : rb.Holds n b)
    (hk : n ≤ k) : rb.Holds k b :=
  ⟨h.1, Nat.le_trans h.2 (Nat.add_le_add_left hk _)⟩

/-- A view at `i` in the committed area is a part of that area. -/
theorem ReadBuffer.view_eq (rb : ReadBuffer) {i n : Nat} (h : i + n ≤ rb.committedArea.length) :
    rb.view ⟨rb.committedOffset + i, n⟩ = (rb.committedArea.drop i).take n := by
  have hp := rb.prepared_le
  rw [length_committedArea] at h
  unfold view committedArea
  rw [List.drop_drop, List.drop_take, List.take_take, Nat.min_eq_left (by omega)]

/-- A CopyData message is its body. -/
theorem body_of_copyData {t : UInt8} {body data : Bytes}
    (h : parseAnyMessage t body = .ok (.copyData data)) : data = body := by
  have htype : Char.ofNat t.toNat = 'd' := (Option.some.inj (parseAnyMessage_type h)).symm
  unfold parseAnyMessage at h
  rw [htype] at h
  cases h
  rfl

/-- **The payload of a CopyData message lies behind its five-byte header**, up to its end. -/
theorem payload_of_copyData {b data : Bytes} {size : Nat}
    (h : nextMessage b = .message (.copyData data) size) :
    5 + data.length = size ∧ size ≤ b.length ∧ data = (b.drop 5).take data.length := by
  have hle : size ≤ b.length := messageParser.message_le h
  cases nextMessage_spec_of h with
  | whole hh _ hb =>
    have h5 := parseHeader_size hh
    have hdata := body_of_copyData hb
    have hlen := congrArg List.length hdata
    rw [List.length_take, List.length_drop, Nat.min_eq_left (by omega)] at hlen
    refine ⟨by omega, hle, ?_⟩
    rw [hlen]
    exact hdata

/-- What a result hands to the user. -/
def Moment.handed (e : Moment) : Bytes :=
  match e.result with
  | .copyData | .copyDataWithEof => e.readBuffer.views e.copyBuffs
  | _ => []

/-- What a sequence of results hands to the user. -/
def handedOut (trace : List Moment) : Bytes := trace.flatMap Moment.handed

@[simp] theorem handedOut_snoc (trace : List Moment) (e : Moment) :
    handedOut (trace ++ [e]) = handedOut trace ++ e.handed := by
  simp [handedOut]

/-- A read is asked for only while no view is held, and the views that are handed out lie in the
    committed area. -/
structure Moment.Sound (e : Moment) : Prop where
  read : e.result = .read → e.copyBuffs = []
  handed : e.result = .copyData ∨ e.result = .copyDataWithEof →
    ∀ b ∈ e.copyBuffs, e.readBuffer.Holds e.readBuffer.committedArea.length b

/-! ## 3. The order of events -/

/-- The results a user of `exec_some` sees: all but `write` and `read`. -/
def ExecSomeResult.isEvent : ExecSomeResult → Bool
  | .write | .read => false
  | _ => true

/-- The events among the results of a run. -/
def events (trace : List Moment) : List ExecSomeResult :=
  (trace.map Moment.result).filter ExecSomeResult.isEvent

/-- **The shape of the events**: blocks `copy_out copy_data* copy_data_with_eof`, and then `done`;
    the last block may be cut short by a `done` that carries an error. A run that is not over yet
    shows a beginning of this. The flag says whether a block is open. -/
inductive Shape (isOver : Bool) : Bool → List ExecSomeResult → Prop where
  | unfinished {inside} (h : isOver = false) : Shape isOver inside []
  | done {ec} : Shape isOver false [.done ec]
  | cut {ec} (h : ec.failed = true) : Shape isOver true [.done ec]
  | copyOut {m es} (h : Shape isOver true es) : Shape isOver false (.copyOut m :: es)
  | copyData {es} (h : Shape isOver true es) : Shape isOver true (.copyData :: es)
  | copyDataWithEof {es} (h : Shape isOver false es) : Shape isOver true (.copyDataWithEof :: es)

/-- Where the events of a run have led. -/
inductive Phase where
  | outside
  | inside
  | ended
  deriving DecidableEq, Repr

/-- The phase outside or inside a block. -/
def Phase.of (inside : Bool) : Phase := if inside then .inside else .outside

/-- The phase behind one more event, if that event may come there. -/
def Phase.next : Phase → ExecSomeResult → Option Phase
  | .outside, .copyOut _ => some .inside
  | .outside, .done _ => some .ended
  | .inside, .copyData => some .inside
  | .inside, .copyDataWithEof => some .outside
  | .inside, .done ec => if ec.failed then some .ended else none
  | _, _ => none

/-- The phase behind a sequence of events, if they have the shape. -/
def phaseOf (es : List ExecSomeResult) : Option Phase := es.foldlM Phase.next .outside

theorem foldlM_ended (es : List ExecSomeResult) {p : Phase}
    (h : es.foldlM Phase.next .ended = some p) : es = [] ∧ p = .ended := by
  cases es with
  | nil =>
    cases h
    exact ⟨rfl, rfl⟩
  | cons e es =>
    have hnone : Phase.next .ended e = none := by cases e <;> rfl
    rw [List.foldlM_cons, hnone] at h
    cases h

theorem shape_iff_from (isOver : Bool) : ∀ (es : List ExecSomeResult) (inside : Bool),
    Shape isOver inside es ↔
      ∃ p, es.foldlM Phase.next (Phase.of inside) = some p ∧ (isOver = true → p = .ended)
  | [], inside => by
      constructor
      · intro h
        cases h with
        | unfinished h => exact ⟨_, rfl, fun ho => absurd ho (by simp [h])⟩
      · rintro ⟨p, hp, ho⟩
        cases hp
        refine .unfinished ?_
        cases isOver with
        | false => rfl
        | true => cases inside <;> cases ho rfl
  | e :: es, inside => by
      have ih := shape_iff_from isOver es
      rw [List.foldlM_cons]
      constructor
      · intro h
        cases h with
        | done => exact ⟨.ended, rfl, fun _ => rfl⟩
        | cut hec => exact ⟨.ended, by simp [Phase.of, Phase.next, hec], fun _ => rfl⟩
        | copyOut h => exact (ih true).mp h
        | copyData h => exact (ih true).mp h
        | copyDataWithEof h => exact (ih false).mp h
      · rintro ⟨p, hp, ho⟩
        cases inside <;> cases e
        case false.copyOut => exact .copyOut ((ih true).mpr ⟨p, hp, ho⟩)
        case true.copyData => exact .copyData ((ih true).mpr ⟨p, hp, ho⟩)
        case true.copyDataWithEof => exact .copyDataWithEof ((ih false).mpr ⟨p, hp, ho⟩)
        case false.done =>
          obtain ⟨rfl, _⟩ := foldlM_ended es hp
          exact .done
        case true.done ec =>
          by_cases hec : ec.failed = true
          · have hnext : Phase.next (Phase.of true) (.done ec) = some .ended := by
              simp [Phase.of, Phase.next, hec]
            rw [hnext] at hp
            obtain ⟨rfl, _⟩ := foldlM_ended es hp
            exact .cut hec
          · simp [Phase.of, Phase.next, hec] at hp
        all_goals cases hp

theorem shape_iff (isOver : Bool) (es : List ExecSomeResult) :
    Shape isOver false es ↔ ∃ p, phaseOf es = some p ∧ (isOver = true → p = .ended) :=
  shape_iff_from isOver es false

theorem phaseOf_events_snoc (trace : List Moment) (e : Moment) :
    phaseOf (events (trace ++ [e])) =
      if e.result.isEvent then (phaseOf (events trace)).bind (Phase.next · e.result)
      else phaseOf (events trace) := by
  unfold events phaseOf
  rw [List.map_append, List.filter_append, List.foldlM_append]
  split
  · rename_i h
    simp [h]
  · rename_i h
    simp [h]

/-! ## 4. Errors outside a COPY -/

/-- Whether a COPY is under way behind a message, if an error comes only inside one. -/
def trackCopy (inside : Bool) (msg : AnyBackendMessage) : Option Bool :=
  match msg with
  | .errorResponse _ => if inside then some false else none
  | msg => some (copyStep inside msg)

/-- The same, for a sequence of messages. -/
def copyTrack (msgs : List AnyBackendMessage) : Option Bool := msgs.foldlM trackCopy false

/-- Every error among the messages comes inside a COPY. -/
def ErrorsCovered (msgs : List AnyBackendMessage) : Prop :=
  ∀ pre e, pre ++ [.errorResponse e] <+: msgs → inCopy pre = true

@[simp] theorem copyTrack_snoc (msgs : List AnyBackendMessage) (msg : AnyBackendMessage) :
    copyTrack (msgs ++ [msg]) = (copyTrack msgs).bind (trackCopy · msg) := by
  simp [copyTrack, List.foldlM_append]

theorem trackCopy_of_ne {msg : AnyBackendMessage} (h : ∀ e, msg ≠ .errorResponse e)
    (inside : Bool) : trackCopy inside msg = some (copyStep inside msg) := by
  cases msg <;> first | rfl | exact absurd rfl (h _)

theorem errorsCovered_snoc (msgs : List AnyBackendMessage) (msg : AnyBackendMessage) :
    ErrorsCovered (msgs ++ [msg]) ↔
      ErrorsCovered msgs ∧ ∀ e, msg = .errorResponse e → inCopy msgs = true := by
  constructor
  · intro h
    refine ⟨fun pre e hp => h pre e (hp.trans (List.prefix_append msgs [msg])), fun e he => ?_⟩
    subst he
    exact h msgs e List.prefix_rfl
  · rintro ⟨hall, hlast⟩ pre e hp
    rcases List.prefix_concat_iff.mp hp with heq | hp
    · obtain ⟨rfl, he⟩ := List.append_inj' heq rfl
      exact hlast e (List.singleton_inj.mp he).symm
    · exact hall pre e hp

/-- **Tracking a COPY fails exactly at an error outside of one.** -/
theorem copyTrack_spec (msgs : List AnyBackendMessage) :
    (ErrorsCovered msgs → copyTrack msgs = some (inCopy msgs)) ∧
      (¬ErrorsCovered msgs → copyTrack msgs = none) := by
  induction msgs using List.reverseRecOn with
  | nil =>
    refine ⟨fun _ => rfl, fun h => absurd ?_ h⟩
    intro pre e hp
    exact absurd (List.prefix_nil.mp hp) (by simp)
  | append_singleton msgs msg ih =>
    rw [errorsCovered_snoc, copyTrack_snoc, inCopy_snoc]
    by_cases hall : ErrorsCovered msgs
    · rw [ih.1 hall, Option.bind_some]
      by_cases he : ∃ e, msg = .errorResponse e
      · obtain ⟨e, rfl⟩ := he
        cases hin : inCopy msgs <;> simp [trackCopy, copyStep, hall]
      · have hne : ∀ e, msg ≠ .errorResponse e := fun e h => he ⟨e, h⟩
        rw [trackCopy_of_ne hne]
        exact ⟨fun _ => rfl, fun h => absurd ⟨hall, fun e h' => absurd h' (hne e)⟩ h⟩
    · rw [ih.2 hall]
      exact ⟨fun h => absurd h.1 hall, fun _ => rfl⟩

theorem copyTrack_eq_some {msgs : List AnyBackendMessage} {c : Bool}
    (h : copyTrack msgs = some c) : ErrorsCovered msgs ∧ c = inCopy msgs := by
  by_cases hall : ErrorsCovered msgs
  · rw [(copyTrack_spec msgs).1 hall] at h
    exact ⟨hall, (Option.some.inj h).symm⟩
  · rw [(copyTrack_spec msgs).2 hall] at h
    cases h

end NativePg
