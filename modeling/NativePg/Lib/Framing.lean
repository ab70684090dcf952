/-
  File:      NativePg/Lib/Framing.lean
  Subject:   Reading messages off a byte stream that arrives in pieces.

  * `FrameParser` -- a function that says of the bytes it has whether they begin with a whole
    message, cannot begin with one, or are too few; its laws say that an answer other than
    "too few" does not change when more bytes arrive;
  * `drain` -- parses one message after the other and hands them to a consumer, until the bytes
    run out, a message is bad or the consumer has finished. `drain_frames`, `drain_steps`: what
    it leaves behind and what the consumer has seen;
  * `Frames` -- a string of bytes is the concatenation of given messages; `messages` -- those a
    stream begins with. `drain_map`: consumers that agree on these drain the stream alike;
  * `IoMachine`, `Run` -- a machine that asks for writes and reads, and its runs against a peer
    that splits its bytes into reads as it likes. `Run.refines`: a machine whose reads only
    extend what it has already understood gives the same result for every split;
  * `IoMachine.logged` -- the machine with a log of what it writes, which every run can keep.
-/
import Mathlib.Tactic.Common

namespace Framing

variable {α M E S X R W D : Type}

/-! ## 1. Parsers -/

/-- What a parser says of the bytes it has. -/
inductive Frame (M E : Type) where
  /-- Too few bytes: `k` more, at least. -/
  | needs (k : Nat)
  /-- No message begins with these bytes. -/
  | bad (e : E)
  /-- The first `n` bytes are the message `m`. -/
  | message (m : M) (n : Nat)
  deriving DecidableEq, Repr

/-- A parser of the first message of a stream. -/
structure FrameParser (α M E : Type) where
  next : List α → Frame M E
  needs_pos : ∀ {b k}, next b = .needs k → 0 < k
  message_pos : ∀ {b m n}, next b = .message m n → 0 < n
  message_le : ∀ {b m n}, next b = .message m n → n ≤ b.length
  message_take : ∀ {b m n}, next b = .message m n → next (b.take n) = .message m n
  message_append : ∀ {b m n} (c), next b = .message m n → next (b ++ c) = .message m n
  bad_append : ∀ {b e} (c), next b = .bad e → next (b ++ c) = .bad e

/-- `Frames P b ms`: the bytes `b` are the messages `ms`, one behind the other. -/
inductive Frames (P : FrameParser α M E) : List α → List M → Prop where
  | nil : Frames P [] []
  | cons {f b m ms} (hf : P.next f = .message m f.length) (h : Frames P b ms) :
      Frames P (f ++ b) (m :: ms)

/-! ## 2. Draining a buffer -/

/-- How draining ends: the consumer waits for more bytes, the next message is bad, or the
    consumer has finished with `x`. -/
inductive Ending (S E X : Type) where
  | waiting (s : S) (k : Nat)
  | bad (s : S) (e : E)
  | finished (x : X)

/-- What the messages consumed so far have made of the consumer. -/
def Ending.state : Ending S E X → Except X S
  | .waiting s _ => .ok s
  | .bad s _ => .ok s
  | .finished x => .error x

/-- The messages that were consumed, the bytes behind them, and how it ended. -/
structure Drained (α M S E X : Type) where
  delivered : List M
  rest : List α
  ending : Ending S E X

/-- Puts the messages of an earlier part in front. -/
def Drained.after (ms : List M) (d : Drained α M S E X) : Drained α M S E X :=
  { d with delivered := ms ++ d.delivered }

@[simp] theorem Drained.after_after (ms ms' : List M) (d : Drained α M S E X) :
    (d.after ms').after ms = d.after (ms ++ ms') := by
  simp [Drained.after]

/-- The consumer takes one message at a time, until it has finished. -/
def drain (P : FrameParser α M E) (step : S → M → Except X S) (s : S) (b : List α) :
    Drained α M S E X :=
  match h : P.next b with
  | .needs k => ⟨[], b, .waiting s k⟩
  | .bad e => ⟨[], b, .bad s e⟩
  | .message m n =>
    match step s m with
    | .error x => ⟨[m], b.drop n, .finished x⟩
    | .ok s' => (drain P step s' (b.drop n)).after [m]
termination_by b.length
decreasing_by
  have hpos := P.message_pos h
  have hle := P.message_le h
  simp only [List.length_drop]
  omega

section
variable {P : FrameParser α M E} {step : S → M → Except X S} {s s' : S} {b : List α}

theorem drain_eq : drain P step s b =
    match P.next b with
    | .needs k => ⟨[], b, .waiting s k⟩
    | .bad e => ⟨[], b, .bad s e⟩
    | .message m n =>
      match step s m with
      | .error x => ⟨[m], b.drop n, .finished x⟩
      | .ok s' => (drain P step s' (b.drop n)).after [m] := by
  rw [drain]
  split <;> rename_i h <;> rw [h]

theorem drain_needs {k : Nat} (h : P.next b = .needs k) :
    drain P step s b = ⟨[], b, .waiting s k⟩ := by
  rw [drain_eq, h]

theorem drain_bad {e : E} (h : P.next b = .bad e) : drain P step s b = ⟨[], b, .bad s e⟩ := by
  rw [drain_eq, h]

theorem drain_finished {m : M} {n : Nat} {x : X} (h : P.next b = .message m n)
    (hs : step s m = .error x) : drain P step s b = ⟨[m], b.drop n, .finished x⟩ := by
  simp only [drain_eq, h, hs]

theorem drain_step {m : M} {n : Nat} (h : P.next b = .message m n) (hs : step s m = .ok s') :
    drain P step s b = (drain P step s' (b.drop n)).after [m] := by
  rw [drain_eq]
  simp only [h, hs]

end

/-- **The bytes behind the result are the bytes behind the last message it consumed.** -/
theorem drain_frames (P : FrameParser α M E) (step : S → M → Except X S) (s : S) (b : List α) :
    ∃ used, b = used ++ (drain P step s b).rest ∧
      Frames P used (drain P step s b).delivered := by
  induction hl : b.length using Nat.strongRecOn generalizing s b with
  | ind l ih =>
    cases h : P.next b with
    | needs k => exact ⟨[], by simp [drain_needs h], by simpa [drain_needs h] using .nil⟩
    | bad e => exact ⟨[], by simp [drain_bad h], by simpa [drain_bad h] using .nil⟩
    | message m n =>
      have hle := P.message_le h
      have hpos := P.message_pos h
      have hlen : (b.take n).length = n := List.length_take_of_le hle
      have hf : P.next (b.take n) = .message m (b.take n).length := by
        rw [hlen]
        exact P.message_take h
      cases hs : step s m with
      | error x =>
        rw [drain_finished h hs]
        exact ⟨b.take n, (List.take_append_drop n b).symm, by simpa using Frames.cons hf .nil⟩
      | ok s' =>
        have hlt : (b.drop n).length < l := by
          rw [List.length_drop]
          omega
        obtain ⟨used, hused, hframes⟩ := ih _ hlt s' (b.drop n) rfl
        rw [drain_step h hs]
        refine ⟨b.take n ++ used, ?_, Frames.cons hf hframes⟩
        calc b = b.take n ++ b.drop n := (List.take_append_drop n b).symm
          _ = b.take n ++ (used ++ (drain P step s' (b.drop n)).rest) := by rw [← hused]
          _ = b.take n ++ used ++ (drain P step s' (b.drop n)).rest :=
              (List.append_assoc _ _ _).symm

/-- `Steps step s ms o`: the messages `ms` take the consumer from `s` to `o`; only the last one
    may finish it. -/
inductive Steps (step : S → M → Except X S) : S → List M → Except X S → Prop where
  | nil {s} : Steps step s [] (.ok s)
  | last {s m x} (h : step s m = .error x) : Steps step s [m] (.error x)
  | cons {s s' m ms o} (h : step s m = .ok s') (t : Steps step s' ms o) : Steps step s (m :: ms) o

theorem Steps.snoc {step : S → M → Except X S} {s s' : S} {ms : List M} {m : M} {o : Except X S}
    (h : Steps step s ms (.ok s')) (hm : Steps step s' [m] o) : Steps step s (ms ++ [m]) o := by
  induction ms generalizing s with
  | nil =>
    cases h
    exact hm
  | cons x xs ih =>
    cases h with
    | cons hx t => exact .cons hx (ih t)

/-- In front of a message the consumer has not finished. -/
theorem Steps.of_append {step : S → M → Except X S} {s : S} {ms ms' : List M} {o : Except X S}
    (h : Steps step s (ms ++ ms') o) (hne : ms' ≠ []) : ∃ s', Steps step s ms (.ok s') := by
  induction ms generalizing s with
  | nil => exact ⟨s, .nil⟩
  | cons m ms ih =>
    rw [List.cons_append] at h
    generalize hall : ms ++ ms' = all at h
    cases h with
    | last _ => exact absurd hall (by simp [hne])
    | cons hm t =>
      subst hall
      obtain ⟨s', hs'⟩ := ih t
      exact ⟨s', .cons hm hs'⟩

/-- The consumer is a function: messages take it to one state. -/
theorem Steps.unique {step : S → M → Except X S} {s : S} {ms : List M} {o o' : Except X S}
    (h : Steps step s ms o) (h' : Steps step s ms o') : o = o' := by
  induction h with
  | nil =>
    cases h'
    rfl
  | last h =>
    cases h' with
    | last h₁ => exact congrArg _ (Except.error.inj (h.symm.trans h₁))
    | cons h₁ _ => cases h.symm.trans h₁
  | cons h _ ih =>
    cases h' with
    | last h₁ => cases h.symm.trans h₁
    | cons h₁ t₁ =>
      cases h.symm.trans h₁
      exact ih t₁

/-- **The consumer has seen exactly the delivered messages**: stepping it through them, with no
    bytes around, gives the state it ended in. -/
theorem drain_steps (P : FrameParser α M E) (step : S → M → Except X S) (s : S) (b : List α) :
    Steps step s (drain P step s b).delivered (drain P step s b).ending.state := by
  induction hl : b.length using Nat.strongRecOn generalizing s b with
  | ind l ih =>
    cases h : P.next b with
    | needs k =>
      rw [drain_needs h]
      exact .nil
    | bad e =>
      rw [drain_bad h]
      exact .nil
    | message m n =>
      have hle := P.message_le h
      have hpos := P.message_pos h
      cases hs : step s m with
      | error x =>
        rw [drain_finished h hs]
        exact .last hs
      | ok s' =>
        have hlt : (b.drop n).length < l := by
          rw [List.length_drop]
          omega
        rw [drain_step h hs]
        exact .cons hs (ih _ hlt s' (b.drop n) rfl)

/-- **Draining ends behind the message that finishes the consumer.** -/
theorem drain_frames_finished {P : FrameParser α M E} {step : S → M → Except X S} {s : S} {x : X}
    {used : List α} {ms : List M} (hf : Frames P used ms) (hs : Steps step s ms (.error x))
    (rest : List α) : drain P step s (used ++ rest) = ⟨ms, rest, .finished x⟩ := by
  induction hf generalizing s with
  | nil => cases hs
  | @cons f b m ms hf hb ih =>
    cases hs with
    | last hm =>
      cases hb
      rw [List.append_nil, drain_finished (P.message_append _ hf) hm, List.drop_left]
    | cons hm t =>
      rw [List.append_assoc, drain_step (P.message_append _ hf) hm, List.drop_left, ih t]
      rfl

/-- A message draining stops at was bad. -/
theorem bad_of_drain (P : FrameParser α M E) (step : S → M → Except X S) (s : S) (b : List α)
    {s' : S} {e : E} (hd : (drain P step s b).ending = .bad s' e) : ∃ b', P.next b' = .bad e := by
  induction hl : b.length using Nat.strongRecOn generalizing s b with
  | ind l ih =>
    cases h : P.next b with
    | needs k =>
      rw [drain_needs h] at hd
      cases hd
    | bad e' =>
      rw [drain_bad h] at hd
      cases hd
      exact ⟨b, h⟩
    | message m n =>
      have hle := P.message_le h
      have hpos := P.message_pos h
      cases hs : step s m with
      | error x =>
        rw [drain_finished h hs] at hd
        cases hd
      | ok s₁ =>
        have hlt : (b.drop n).length < l := by
          rw [List.length_drop]
          omega
        rw [drain_step h hs] at hd
        exact ih _ hlt s₁ (b.drop n) hd rfl

/-! ## 3. The messages of a stream -/

/-- The messages `b` begins with, whatever a consumer makes of them. -/
def messages (P : FrameParser α M E) (b : List α) : List M :=
  (drain P (fun (_ : Unit) _ => (.ok () : Except Unit Unit)) () b).delivered

section
variable {P : FrameParser α M E}

theorem messages_of_message {b : List α} {m : M} {n : Nat} (h : P.next b = .message m n) :
    messages P b = m :: messages P (b.drop n) := by
  rw [messages, drain_step h rfl]
  rfl

/-- The delivered messages behind which the consumer asked for more. -/
def Drained.accepted (d : Drained α M S E X) : List M :=
  match d.ending with
  | .finished _ => d.delivered.dropLast
  | _ => d.delivered

theorem drain_accepted_step {step : S → M → Except X S} {s s' : S} {b : List α} {m : M} {n : Nat}
    (h : P.next b = .message m n) (hs : step s m = .ok s') :
    (drain P step s b).accepted = m :: (drain P step s' (b.drop n)).accepted := by
  have hne : ∀ x, (drain P step s' (b.drop n)).ending = .finished x →
      (drain P step s' (b.drop n)).delivered ≠ [] := by
    intro x hx hnil
    have hsteps := drain_steps P step s' (b.drop n)
    rw [hx, hnil] at hsteps
    cases hsteps
  rw [drain_step h hs]
  unfold Drained.accepted
  simp only [Drained.after, List.singleton_append]
  split
  · rename_i x hx
    exact List.dropLast_cons_of_ne_nil (hne x hx)
  · rfl

/-- **Draining goes on as long as the consumer lets it**: the beginnings of the accepted messages
    are the beginnings of the stream which the consumer accepts. -/
theorem prefix_accepted_iff (step : S → M → Except X S) (s : S) (b : List α) (ms : List M) :
    ms <+: (drain P step s b).accepted ↔
      ms <+: messages P b ∧ ∃ s', Steps step s ms (.ok s') := by
  induction ms generalizing s b with
  | nil => exact ⟨fun _ => ⟨List.nil_prefix, s, .nil⟩, fun _ => List.nil_prefix⟩
  | cons m ms ih =>
    cases h : P.next b with
    | needs k =>
      have hms : messages P b = [] := by rw [messages, drain_needs h]
      rw [drain_needs h, hms]
      exact ⟨fun hp => absurd (List.prefix_nil.mp hp) (by simp),
        fun hp => absurd (List.prefix_nil.mp hp.1) (by simp)⟩
    | bad e =>
      have hms : messages P b = [] := by rw [messages, drain_bad h]
      rw [drain_bad h, hms]
      exact ⟨fun hp => absurd (List.prefix_nil.mp hp) (by simp),
        fun hp => absurd (List.prefix_nil.mp hp.1) (by simp)⟩
    | message m' n =>
      rw [messages_of_message h, List.cons_prefix_cons]
      cases hs : step s m' with
      | error x =>
        rw [drain_finished h hs]
        refine ⟨fun hp => absurd (List.prefix_nil.mp hp) (by simp), ?_⟩
        rintro ⟨⟨rfl, _⟩, s', hsteps⟩
        cases hsteps with
        | cons h₁ _ => cases hs.symm.trans h₁
      | ok s₁ =>
        rw [drain_accepted_step h hs, List.cons_prefix_cons, ih]
        constructor
        · rintro ⟨rfl, hp, s', hsteps⟩
          exact ⟨⟨rfl, hp⟩, s', .cons hs hsteps⟩
        · rintro ⟨⟨rfl, hp⟩, s', hsteps⟩
          cases hsteps with
          | cons h₁ t =>
            cases hs.symm.trans h₁
            exact ⟨rfl, hp, s', t⟩

/-- **Two consumers that agree on the messages of the stream drain it alike.** The states of the
    one are images of the states of the other. -/
theorem drain_map {T : Type} {step : S → M → Except X S} {step' : T → M → Except X T} (g : S → T)
    (b : List α) (s : S)
    (hstep : ∀ s, ∀ m ∈ messages P b, step' (g s) m = (step s m).map g) :
    (drain P step' (g s) b).delivered = (drain P step s b).delivered ∧
      (drain P step' (g s) b).rest = (drain P step s b).rest ∧
      (drain P step' (g s) b).ending =
        match (drain P step s b).ending with
        | .waiting s k => .waiting (g s) k
        | .bad s e => .bad (g s) e
        | .finished x => .finished x := by
  induction hl : b.length using Nat.strongRecOn generalizing s b with
  | ind l ih =>
    cases h : P.next b with
    | needs k =>
      rw [drain_needs h, drain_needs h]
      exact ⟨rfl, rfl, rfl⟩
    | bad e =>
      rw [drain_bad h, drain_bad h]
      exact ⟨rfl, rfl, rfl⟩
    | message m n =>
      have hle := P.message_le h
      have hpos := P.message_pos h
      have hms := messages_of_message h
      have hm : step' (g s) m = (step s m).map g := hstep s m (by simp [hms])
      cases hs : step s m with
      | error x =>
        rw [hs] at hm
        rw [drain_finished h hs, drain_finished h hm]
        exact ⟨rfl, rfl, rfl⟩
      | ok s' =>
        rw [hs] at hm
        have hlt : (b.drop n).length < l := by
          rw [List.length_drop]
          omega
        obtain ⟨hd, hr, he⟩ := ih _ hlt (b.drop n) s'
          (fun s m' hm' => hstep s m' (by simp [hms, hm'])) rfl
        rw [drain_step h hs, drain_step h hm]
        exact ⟨congrArg (m :: ·) hd, hr, he⟩

end

/-! ## 4. Machines that read and write -/

/-- What a machine asks for: nothing more, a read into `room` free bytes, or a write. -/
inductive Action (R W : Type) where
  | done (r : R)
  | read (room : Nat)
  | write (w : W)
  deriving DecidableEq, Repr

/-- A machine in terms of what it asks for and how it goes on. -/
structure IoMachine (α S R W : Type) where
  action : S → Action R W
  /-- The write it asked for has succeeded. -/
  wrote : S → S
  /-- The read it asked for has brought these bytes. -/
  received : S → List α → S

/-- `Run M s stream s' unread rooms`: from `s`, against a peer that sends `stream` in reads of
    any size from one byte up to the room asked for, `M` stops in `s'` -- done, or waiting
    although the whole stream has arrived -- with `unread` still to be read. `rooms` are the
    sizes of the reads it asked for. -/
inductive Run (M : IoMachine α S R W) : S → List α → S → List α → List Nat → Prop where
  | done {s r stream} (h : M.action s = .done r) : Run M s stream s stream []
  | waiting {s k} (h : M.action s = .read k) : Run M s [] s [] [k]
  | write {s w stream s' unread rooms} (h : M.action s = .write w)
      (t : Run M (M.wrote s) stream s' unread rooms) : Run M s stream s' unread rooms
  | read {s k chunk stream s' unread rooms} (h : M.action s = .read k)
      (hpos : 1 ≤ chunk.length) (hroom : chunk.length ≤ k)
      (t : Run M (M.received s chunk) stream s' unread rooms) :
      Run M s (chunk ++ stream) s' unread (k :: rooms)

/-- A property that holds of the state a run starts in, and survives every write and every read,
    holds of the state it stops in. -/
theorem Run.invariant {M : IoMachine α S R W} {P : S → Prop}
    (hwrote : ∀ {s w}, P s → M.action s = .write w → P (M.wrote s))
    (hreceived : ∀ {s k}, P s → M.action s = .read k → ∀ chunk, chunk.length ≤ k →
      P (M.received s chunk))
    {s s' : S} {stream unread : List α} {rooms : List Nat} (t : Run M s stream s' unread rooms)
    (hs : P s) : P s' := by
  induction t with
  | done _ => exact hs
  | waiting _ => exact hs
  | write h _ ih => exact ih (hwrote hs h)
  | read h _ hroom _ ih => exact ih (hreceived hs h _ hroom)

/-- A run does not stop at a write. -/
theorem Run.stops {M : IoMachine α S R W} {s s' : S} {stream unread : List α} {rooms : List Nat}
    (t : Run M s stream s' unread rooms) (w : W) : M.action s' ≠ .write w := by
  induction t with
  | done h => simp [h]
  | waiting h => simp [h]
  | write _ _ ih => exact ih
  | read _ _ _ _ ih => exact ih

/-- `spec s stream` is what a run from `s` on `stream` is to end as; `observe s unread` is how a
    state that has stopped looks. -/
structure Refines (M : IoMachine α S R W) (Inv : S → Prop) (spec : S → List α → D)
    (observe : S → List α → D) : Prop where
  done : ∀ {s r}, Inv s → M.action s = .done r → ∀ stream, spec s stream = observe s stream
  waiting : ∀ {s k}, Inv s → M.action s = .read k → 0 < k ∧ spec s [] = observe s []
  wrote : ∀ {s w}, Inv s → M.action s = .write w →
    Inv (M.wrote s) ∧ ∀ stream, spec (M.wrote s) stream = spec s stream
  received : ∀ {s k}, Inv s → M.action s = .read k → ∀ chunk, chunk.length ≤ k →
    Inv (M.received s chunk) ∧
      ∀ stream, spec (M.received s chunk) stream = spec s (chunk ++ stream)

/-- **Every run ends as the specification says**, however the stream was split, and asks only
    for reads with room for a byte. -/
theorem Run.refines {M : IoMachine α S R W} {Inv : S → Prop} {spec observe : S → List α → D}
    (hM : Refines M Inv spec observe) {s s' : S} {stream unread : List α} {rooms : List Nat}
    (t : Run M s stream s' unread rooms) (hs : Inv s) :
    observe s' unread = spec s stream ∧ ∀ k ∈ rooms, 0 < k := by
  induction t with
  | done h => exact ⟨(hM.done hs h _).symm, by simp⟩
  | waiting h =>
    obtain ⟨hpos, heq⟩ := hM.waiting hs h
    exact ⟨heq.symm, by simpa using hpos⟩
  | write h _ ih =>
    obtain ⟨hinv, heq⟩ := hM.wrote hs h
    obtain ⟨hspec, hrooms⟩ := ih hinv
    exact ⟨hspec.trans (heq _), hrooms⟩
  | read h _ hroom _ ih =>
    obtain ⟨hinv, heq⟩ := hM.received hs h _ hroom
    obtain ⟨hspec, hrooms⟩ := ih hinv
    refine ⟨hspec.trans (heq _), fun k hk => ?_⟩
    rcases List.mem_cons.mp hk with rfl | hk
    · exact (hM.waiting hs h).1
    · exact hrooms k hk

/-- **Against every peer there is a run**: writes end (`rank` goes down), and a read takes at
    least one byte off the stream. -/
theorem Run.exists_of_rank {M : IoMachine α S R W} {Inv : S → Prop}
    {spec observe : S → List α → D} (hM : Refines M Inv spec observe) (rank : S → Nat)
    (hrank : ∀ {s w}, Inv s → M.action s = .write w → rank (M.wrote s) < rank s)
    (s : S) (stream : List α) (hs : Inv s) :
    ∃ s' unread rooms, Run M s stream s' unread rooms := by
  induction hl : stream.length using Nat.strongRecOn generalizing s stream with
  | ind l ih =>
    induction hr : rank s using Nat.strongRecOn generalizing s with
    | ind r ihr =>
      cases h : M.action s with
      | done x => exact ⟨s, stream, [], .done h⟩
      | write w =>
        have hlt : rank (M.wrote s) < r := hr ▸ hrank hs h
        obtain ⟨s', unread, rooms, t⟩ := ihr _ hlt (M.wrote s) (hM.wrote hs h).1 rfl
        exact ⟨s', unread, rooms, .write h t⟩
      | read k =>
        cases stream with
        | nil => exact ⟨s, [], [k], .waiting h⟩
        | cons x rest =>
          have hroom : [x].length ≤ k := (hM.waiting hs h).1
          have hlt : rest.length < l := by
            rw [← hl, List.length_cons]
            omega
          obtain ⟨s', unread, rooms, t⟩ := ih _ hlt (M.received s [x]) rest
            (hM.received hs h [x] hroom).1 rfl
          exact ⟨s', unread, k :: rooms, .read h (by simp) hroom t⟩

/-! ## 5. What is written -/

/-- The machine with a log of its writes. -/
def IoMachine.logged (M : IoMachine α S R W) : IoMachine α (S × List W) R W where
  action p := M.action p.1
  wrote p :=
    (M.wrote p.1,
      match M.action p.1 with
      | .write w => p.2 ++ [w]
      | _ => p.2)
  received p data := (M.received p.1 data, p.2)

/-- A log can be kept of every run. -/
theorem Run.logged {M : IoMachine α S R W} {s s' : S} {stream unread : List α} {rooms : List Nat}
    (t : Run M s stream s' unread rooms) (log : List W) :
    ∃ log', Run M.logged (s, log) stream (s', log') unread rooms := by
  induction t generalizing log with
  | done h => exact ⟨log, .done h⟩
  | waiting h => exact ⟨log, .waiting h⟩
  | @write s w stream s' unread rooms h _ ih =>
    obtain ⟨log', t⟩ := ih (log ++ [w])
    have hwrote : M.logged.wrote (s, log) = (M.wrote s, log ++ [w]) := by
      simp only [IoMachine.logged, h]
    exact ⟨log', .write h (hwrote ▸ t)⟩
  | read h hpos hroom _ ih =>
    obtain ⟨log', t⟩ := ih log
    exact ⟨log', .read h hpos hroom t⟩

/-- The log does not change the run. -/
theorem Run.of_logged {M : IoMachine α S R W} {p p' : S × List W} {stream unread : List α}
    {rooms : List Nat} (t : Run M.logged p stream p' unread rooms) :
    Run M p.1 stream p'.1 unread rooms := by
  induction t with
  | done h => exact .done h
  | waiting h => exact .waiting h
  | write h _ ih => exact .write h ih
  | read h hpos hroom _ ih => exact .read h hpos hroom ih

end Framing
