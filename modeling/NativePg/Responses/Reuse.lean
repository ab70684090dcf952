/-
  File:      NativePg/Responses/Reuse.lean
  Subject:   Using a handler, or a response, once more.

  * `Handler.Alike` -- a used object and a new one that cannot be told apart: only the column map of
    a resultset callback, which is read behind a row description, may be an old one.
    `Alike.onMessage`: they stay alike;
  * `layOut`, `responseSetup_eq` -- what `setup` of a response does, in closed form;
  * `Used` -- a response behind any number of earlier uses. Its `setup` does not put the cursor back;
  * **`reuse_iff`** -- a handler can always be used again. A response can exactly when every earlier
    call went to the first handler.
-/
import Mathlib.Data.List.Forall2
import NativePg.Responses.Routing
import NativePg.Responses.Steps

namespace NativePg

namespace Responses

open ReadResponseFsm

section
variable {V : Type}

/-! ## 1. Handlers that are alike -/

/-- A resultset callback `h` and a newer one: equal, but for the column map, which the newer one may
    not have, and the row buffer. -/
inductive ResultsetCallback.Alike : ResultsetCallback V → ResultsetCallback V → Prop where
  | mk (h : ResultsetCallback V) {posMap} (randomAccessData) (hmap : posMap = none ∨ posMap = h.posMap) :
      Alike h { h with posMap, randomAccessData }

namespace Handler

/-- A used handler and a newer one. -/
inductive Alike : Handler V → Handler V → Prop where
  | same (h : Handler V) : Alike h h
  | callback {h h' : ResultsetCallback V} (halike : h.Alike h') :
      Alike (.resultsetCallback h) (.resultsetCallback h')

/-- Two states of one object and of another, in the same world. -/
def SameState (p q : Handler V × World V) : Prop := p.1.Alike q.1 ∧ p.2 = q.2

theorem Alike.result {h h' : Handler V} (halike : h.Alike h') : h.result = h'.result := by
  cases halike with
  | same h => rfl
  | callback halike =>
    cases halike
    rfl

end Handler

namespace ResultsetCallback

variable {h h' : ResultsetCallback V}

/-- Agreement, where the world is not touched. -/
abbrev AgreeAlike (x y : Attempt (ResultsetCallback V)) : Prop := Agree .undefined Alike x y

theorem Alike.storeError (halike : h.Alike h') (ec : ErrorCode) :
    (h.storeError ec).Alike (h'.storeError ec) := by
  obtain ⟨data, hmap⟩ := halike
  unfold ResultsetCallback.storeError
  simp only
  split
  · exact .mk h data hmap
  · exact .mk { h with err := _ } data hmap

theorem Alike.onRowDescription (halike : h.Alike h') (ndebug : Bool) (msg : RowDescription) :
    AgreeAlike (h.onRowDescription ndebug msg) (h'.onRowDescription ndebug msg) := by
  obtain ⟨data, hmap⟩ := halike
  unfold ResultsetCallback.onRowDescription
  refine Agree.bind (R := Eq) (Agree.refl _ fun _ _ => rfl) fun _ _ _ => ?_
  refine Agree.bind (R := Eq) (Agree.refl _ fun _ _ => rfl) fun fields _ heq => ?_
  subst heq
  -- behind the description both have the same map
  have halike : ∀ map, ({ h with state := .parsingData, posMap := some map } :
      ResultsetCallback V).Alike
        { h with state := .parsingData, posMap := some map, randomAccessData := data } :=
    fun _ => .mk { h with state := .parsingData, posMap := some _ } data (.inr rfl)
  simp only
  split
  · exact .ok ((halike _).storeError _)
  · split
    · exact .ok ((halike _).storeError _)
    · exact .ok (halike _)

theorem Alike.onDone (halike : h.Alike h') (ndebug : Bool) :
    AgreeAlike (h.onDone ndebug) (h'.onDone ndebug) := by
  obtain ⟨data, hmap⟩ := halike
  unfold ResultsetCallback.onDone
  refine Agree.bind (R := Eq) (Agree.refl _ fun _ _ => rfl) fun _ _ _ => ?_
  exact .ok (.mk { h with state := .done } data hmap)

/-- A row is parsed with the map of the last description; a callback that has none is not in a state
    to parse one. -/
theorem Alike.onDataRow (halike : h.Alike h') (ndebug : Bool) (msg : DataRow) (w : World V) :
    Agree .undefined (fun p q => p.1.Alike q.1 ∧ p.2 = q.2) (h.onDataRow ndebug msg w)
      (h'.onDataRow ndebug msg w) := by
  obtain ⟨data, hmap⟩ := halike
  unfold ResultsetCallback.onDataRow
  refine Agree.bind (R := Eq) (Agree.refl _ fun _ _ => rfl) fun _ _ _ => ?_
  simp only
  split
  · exact .ok ⟨.mk h data hmap, rfl⟩
  · refine Agree.bind (R := Eq) (Agree.refl _ fun _ _ => rfl) fun columns _ heq => ?_
    subst heq
    rcases hmap with rfl | rfl
    · exact .undefined
    · exact Agree.refl _ fun p _ => ⟨.mk p.1 p.1.randomAccessData (.inr rfl), rfl⟩

theorem Alike.onMessage (halike : h.Alike h') (ndebug : Bool) (msg : AnyRequestMessage)
    (w : World V) :
    Agree .undefined (fun p q => p.1.Alike q.1 ∧ p.2 = q.2) (h.onMessage ndebug msg w)
      (h'.onMessage ndebug msg w) := by
  have hinfo : h'.info = h.info := by
    cases halike
    rfl
  cases msg with
  | errorResponse e =>
    obtain ⟨data, hmap⟩ := halike
    exact .ok ⟨.mk { h with err := maybeStoreError e h.err } data hmap, rfl⟩
  | parseComplete | bindComplete => exact .ok ⟨halike, rfl⟩
  | messageSkipped => exact .ok ⟨halike.storeError _, rfl⟩
  | rowDescription d =>
    exact (halike.onRowDescription ndebug d).bind fun a b hab => .ok ⟨hab, rfl⟩
  | dataRow d => exact halike.onDataRow ndebug d w
  | commandComplete tag | portalSuspended =>
    simp only [ResultsetCallback.onMessage, hinfo]
    exact (halike.onDone ndebug).bind fun a b hab => .ok ⟨hab, rfl⟩
  | closeComplete | parameterDescription _ | emptyQueryResponse =>
    refine Agree.bind (R := Eq) (Agree.refl _ fun _ _ => rfl) fun _ _ _ => ?_
    exact .ok ⟨halike.storeError _, rfl⟩

end ResultsetCallback

namespace Handler

/-- **One message**: a used handler and a newer one do the same with it, and stay alike. -/
theorem Alike.onMessage {h h' : Handler V} (halike : h.Alike h') (ndebug : Bool)
    (msg : AnyRequestMessage) (w : World V) :
    Agree .undefined SameState (h.onMessage ndebug msg w) (h'.onMessage ndebug msg w) := by
  cases halike with
  | same h => exact Agree.refl _ fun p _ => ⟨.same p.1, rfl⟩
  | callback halike =>
    exact (halike.onMessage ndebug msg w).map fun a b hab => ⟨.callback hab.1, hab.2⟩

theorem Alike.run {h h' : Handler V} (halike : h.Alike h') (ndebug : Bool)
    (msgs : List AnyRequestMessage) (w : World V) :
    Agree .undefined SameState (h.run ndebug msgs w) (h'.run ndebug msgs w) := by
  induction msgs generalizing h h' w with
  | nil => exact .ok ⟨halike, rfl⟩
  | cons msg msgs ih =>
    refine (halike.onMessage ndebug msg w).bind fun ⟨h, w⟩ ⟨h', w'⟩ hpq => ?_
    obtain ⟨halike, rfl⟩ := hpq
    exact ih halike w

/-! ## 2. Setting up a used handler -/

theorem reset_constructed (h : Handler V) : h.constructed.reset = h.constructed := by
  cases h <;> rfl

theorem setupResult_constructed (h : Handler V) (req : Request) (off : Nat) :
    h.constructed.setupResult req off = h.setupResult req off := by
  cases h <;> rfl

theorem clear_constructed (h : Handler V) (w : World V) : h.constructed.clear w = h.clear w := by
  cases h <;> rfl

/-- **`setup` leaves what looks like a new object.** -/
theorem alike_reset (h : Handler V) : h.reset.Alike h.constructed := by
  cases h with
  | resultsetCallback h => exact .callback (.mk { h with state := .parsingMeta, err := {} } [] (.inl rfl))
  | _ => exact .same _

end Handler

/-! ## 3. Setting up a response -/

/-- What `response_setup` returns, and the offsets of the handlers that were set up. -/
def layOut (req : Request) : List (Handler V) → Nat → Attempt (HandlerSetupResult × List Nat)
  | [], off => .ok ((.success, off), [])
  | h :: hs, off => do
    let res ← h.setupResult req off
    if res.1.failed then pure (res, [])
    else
      let (res', offsets) ← layOut req hs res.2
      pure (res', res.2 :: offsets)

/-- The number of handlers whose `setup` was called. -/
def touched (p : HandlerSetupResult × List Nat) : Nat :=
  if p.1.1.failed then p.2.length + 1 else p.2.length

/-- `setup` of the first `n` handlers. -/
def resetFirst (n : Nat) (hs : List (Handler V)) : List (Handler V) :=
  (hs.take n).map Handler.reset ++ hs.drop n

/-- **`response_setup`, in closed form.** -/
theorem responseSetup_eq (req : Request) : ∀ (hs : List (Handler V)) (offsets : List Nat) (off : Nat)
    (w : World V), responseSetup req hs offsets off w =
      (layOut req hs off).map fun p => (p.1, resetFirst (touched p) hs,
        p.2 ++ offsets.drop p.2.length, clearAll (hs.take (touched p)) w)
  | [], offsets, off, w => rfl
  | h :: hs, offsets, off, w => by
      unfold responseSetup layOut
      rw [Handler.setup_eq]
      cases h.setupResult req off with
      | error e => rfl
      | ok res =>
        simp only [Except.map, bind, Except.bind]
        cases hec : res.1.failed with
        | true =>
          rw [if_pos rfl, if_pos rfl]
          simp [pure, Except.pure, touched, hec, resetFirst, clearAll]
        | false =>
          have hfalse : ¬(false = true) := Bool.false_ne_true
          rw [if_neg hfalse, if_neg hfalse, responseSetup_eq req hs offsets.tail res.2 (h.clear w)]
          cases hlay : layOut req hs res.2 with
          | error e => rfl
          | ok p =>
            obtain ⟨res', offsets'⟩ := p
            cases hec' : res'.1.failed <;>
              simp [pure, Except.pure, Except.map, touched, hec', resetFirst, clearAll]

/-! ## 4. Responses that are alike -/

theorem forall₂_set {α : Type} {R : α → α → Prop} {l l' : List α} (h : List.Forall₂ R l l') {a b : α}
    (hab : R a b) : ∀ k : Nat, List.Forall₂ R (l.set k a) (l'.set k b) := by
  induction h with
  | nil => exact fun _ => .nil
  | cons hx hrest ih =>
    intro k
    cases k with
    | zero => exact .cons hab hrest
    | succ k => exact .cons hx (ih k)

theorem forall₂_getElem? {α : Type} {R : α → α → Prop} {l l' : List α} (h : List.Forall₂ R l l') :
    ∀ k : Nat, (l[k]? = none ∧ l'[k]? = none) ∨ ∃ a b, l[k]? = some a ∧ l'[k]? = some b ∧ R a b := by
  induction h with
  | nil => exact fun _ => .inl ⟨rfl, rfl⟩
  | cons hx hrest ih =>
    intro k
    cases k with
    | zero => exact .inr ⟨_, _, rfl, rfl, hx⟩
    | succ k => exact ih k

theorem map_result {hs hs' : List (Handler V)} (h : List.Forall₂ Handler.Alike hs hs') :
    hs.map (·.result) = hs'.map (·.result) := by
  induction h with
  | nil => rfl
  | cons hx _ ih => rw [List.map_cons, List.map_cons, hx.result, ih]

namespace Response

/-- A used response and a newer one. -/
structure Alike (r r' : Response V) : Prop where
  handlers : List.Forall₂ Handler.Alike r.handlers r'.handlers
  offsets : r.offsets = r'.offsets
  current : r.current = r'.current

/-- What the user of a response sees: the result of every handler, and his objects. -/
def view (p : Response V × World V) : List ExtendedError × World V :=
  (p.1.handlers.map (·.result), p.2)

/-- Two states of one response and of another, in the same world. -/
def SameState (p q : Response V × World V) : Prop := p.1.Alike q.1 ∧ p.2 = q.2

theorem view_eq {p q : Response V × World V} (h : SameState p q) : view p = view q := by
  obtain ⟨r, w⟩ := p
  obtain ⟨r', w'⟩ := q
  obtain ⟨⟨hhandlers, -, -⟩, rfl⟩ := h
  exact congrArg (·, w) (map_result hhandlers)

theorem Alike.onMessage {r r' : Response V} (halike : r.Alike r') (ndebug : Bool) (call : Call)
    (w : World V) :
    Agree .undefined SameState (r.onMessage ndebug call w) (r'.onMessage ndebug call w) := by
  obtain ⟨hhandlers, hoffsets, hcurrent⟩ := halike
  unfold Response.onMessage
  rw [hoffsets, hcurrent]
  cases r'.offsets[r'.current]? with
  | none => exact .undefined
  | some o =>
    simp only
    generalize (if call.offset ≥ o then r'.current + 1 else r'.current) = k
    obtain ⟨hnone, hnone'⟩ | ⟨h, h', hh, hh', hx⟩ := forall₂_getElem? hhandlers k
    · rw [hnone, hnone']
      cases r'.offsets[k]? <;> exact .undefined
    · rw [hh, hh']
      cases r'.offsets[k]? with
      | none => exact .undefined
      | some o =>
        refine Agree.bind (R := Eq) (Agree.refl _ fun _ _ => rfl) fun _ _ _ => ?_
        refine (hx.onMessage ndebug call.msg w).bind fun ⟨a, wa⟩ ⟨b, wb⟩ hab => ?_
        obtain ⟨hab, rfl⟩ := hab
        exact .ok ⟨⟨forall₂_set hhandlers hab k, rfl, rfl⟩, rfl⟩

/-- **Responses that are alike do the same with any calls.** -/
theorem Alike.run {r r' : Response V} (halike : r.Alike r') (ndebug : Bool) (calls : List Call)
    (w : World V) : Agree .undefined SameState (r.run ndebug calls w) (r'.run ndebug calls w) := by
  induction calls generalizing r r' w with
  | nil => exact .ok ⟨halike, rfl⟩
  | cons call calls ih =>
    refine (halike.onMessage ndebug call w).bind fun ⟨r, w⟩ ⟨r', w'⟩ hpq => ?_
    obtain ⟨halike, rfl⟩ := hpq
    exact ih halike w

/-! ## 5. Earlier uses -/

/-- **The calls of one use**, to its end or to where it was interrupted. Where a call throws, the
    cursor has moved, and of the handler only its arguments are known. -/
inductive Ends (ndebug : Bool) : Response V → World V → List Call → Response V → Prop where
  | stops (r w) : Ends ndebug r w [] r
  | goesOn {r w call r' w' calls r''} (hmsg : r.onMessage ndebug call w = .ok (r', w'))
      (hrest : Ends ndebug r' w' calls r'') : Ends ndebug r w (call :: calls) r''
  | throws {r w call k h h'} (hmsg : r.onMessage ndebug call w = .error .exception)
      (hk : k = advanceCursor r.offsets r.current call.offset) (hh : r.handlers[k]? = some h)
      (hargs : h'.constructed = h.constructed) :
      Ends ndebug r w [call] { r with handlers := r.handlers.set k h', current := k }

/-- One use: the request it was set up for, and the calls it got. -/
structure Use where
  req : Request
  calls : List Call

/-- **A response behind any number of uses**, each with its `setup`, and, where that has succeeded,
    the first of the calls the response machine makes. The objects may be changed in between. -/
inductive Used (ndebug : Bool) (r₀ : Response V) : List Use → Response V → Prop where
  | unused : Used ndebug r₀ [] r₀
  | again {uses r req w res r₁ w₁ calls r₂} (hused : Used ndebug r₀ uses r)
      (hsetup : r.setup req 0 w = .ok (res, r₁, w₁))
      (hcalls : calls ≠ [] → (NativePg.setupRequest req fun _ _ => res).failed = false ∧
        ∃ allowCopy msgs run, (readResponseFsm req allowCopy).feed msgs = .ok run ∧
          calls <+: run.calls)
      (hends : Ends ndebug r₁ w₁ calls r₂) : Used ndebug r₀ (uses ++ [⟨req, calls⟩]) r₂

/-- **`r` can be used as `r'` can**: for every request and in every world, `setup` returns the same,
    and behind it, and behind each of the calls the response machine makes, the user sees the
    same. -/
def SameUse (ndebug : Bool) (r r' : Response V) : Prop :=
  ∀ req w, Agree .undefined
    (fun p q => p.1 = q.1 ∧ view p.2 = view q.2 ∧
      ((NativePg.setupRequest req fun _ _ => q.1).failed = false → ∀ allowCopy msgs run calls,
        (readResponseFsm req allowCopy).feed msgs = .ok run → calls <+: run.calls →
        Agree .undefined (fun a b => view a = view b) (p.2.1.run ndebug calls p.2.2)
          (q.2.1.run ndebug calls q.2.2)))
    (r.setup req 0 w) (r'.setup req 0 w)

/-- What every use leaves as it was: the arguments of the handlers, and, while the cursor is at the
    first of them, the others. -/
structure Kept (hs : List (Handler V)) (r : Response V) : Prop where
  args : r.handlers.map Handler.constructed = hs.map Handler.constructed
  length : r.offsets.length = hs.length
  tail : r.current = 0 → ∀ h ∈ r.handlers.tail, h.constructed = h
  current : r.current = 0 ∨ r.current < hs.length

theorem Kept.length_handlers {hs : List (Handler V)} {r : Response V} (h : Kept hs r) :
    r.handlers.length = hs.length := by
  simpa using congrArg List.length h.args

theorem kept_new (hs : List (Handler V)) : Kept hs (new (hs.map Handler.constructed)) where
  args := by
    rw [new, List.map_map]
    refine List.map_congr_left fun h _ => ?_
    cases h <;> rfl
  length := by simp [new]
  tail _ h hh := by
    obtain ⟨h, -, rfl⟩ := List.mem_map.mp (List.mem_of_mem_tail hh)
    cases h <;> rfl
  current := .inl rfl

/-- A call that returns. -/
theorem onMessage_ok {ndebug : Bool} {r r' : Response V} {call : Call} {w w' : World V}
    (hmsg : r.onMessage ndebug call w = .ok (r', w')) :
    ∃ h h', r.handlers[advanceCursor r.offsets r.current call.offset]? = some h ∧
      h.onMessage ndebug call.msg w = .ok (h', w') ∧
      r' = { r with
        handlers := r.handlers.set (advanceCursor r.offsets r.current call.offset) h'
        current := advanceCursor r.offsets r.current call.offset } := by
  unfold onMessage at hmsg
  unfold advanceCursor
  rw [List.getD_eq_getElem?_getD]
  cases ho : r.offsets[r.current]? with
  | none =>
    rw [ho] at hmsg
    cases hmsg
  | some o =>
    rw [ho] at hmsg
    simp only [Option.getD_some] at hmsg ⊢
    generalize (if call.offset ≥ o then r.current + 1 else r.current) = k at hmsg ⊢
    cases hk : r.offsets[k]? with
    | none =>
      rw [hk] at hmsg
      cases hmsg
    | some o' =>
      cases hh : r.handlers[k]? with
      | none =>
        rw [hk, hh] at hmsg
        cases hmsg
      | some h =>
        rw [hk, hh] at hmsg
        obtain ⟨_, -, hmsg⟩ := bind_eq_ok.mp hmsg
        obtain ⟨⟨h', w''⟩, hh', hpure⟩ := bind_eq_ok.mp hmsg
        cases hpure
        exact ⟨h, h', rfl, hh', rfl⟩

theorem le_advanceCursor (offsets : List Nat) (current i : Nat) :
    current ≤ advanceCursor offsets current i := by
  unfold advanceCursor
  split <;> omega

/-- A call, whether it returns or throws. -/
theorem Kept.moved {hs : List (Handler V)} {r : Response V} (hr : Kept hs r) {k : Nat}
    {h h' : Handler V} (hk : r.current ≤ k) (hh : r.handlers[k]? = some h)
    (hargs : h'.constructed = h.constructed) :
    Kept hs { r with handlers := r.handlers.set k h', current := k } where
  args := by
    rw [← hr.args, List.map_set, hargs]
    have hget : (r.handlers.map Handler.constructed)[k]? = some h.constructed := by
      rw [List.getElem?_map, hh]
      rfl
    obtain ⟨hlt, heq⟩ := List.getElem?_eq_some_iff.mp hget
    rw [← heq]
    exact List.set_getElem_self hlt
  length := hr.length
  tail hcurrent x hx := by
    have hk0 : k = 0 := hcurrent
    subst hk0
    have htail : (r.handlers.set 0 h').tail = r.handlers.tail := by
      cases r.handlers <;> rfl
    rw [htail] at hx
    exact hr.tail (by omega) x hx
  current := by
    have hlt := (List.getElem?_eq_some_iff.mp hh).1
    rw [hr.length_handlers] at hlt
    exact .inr hlt

theorem Kept.ends {ndebug : Bool} {hs : List (Handler V)} {r r' : Response V} {w : World V}
    {calls : List Call} (h : Ends ndebug r w calls r') : Kept hs r → Kept hs r' := by
  induction h with
  | stops r w => exact id
  | goesOn hmsg _ ih =>
    intro hr
    obtain ⟨h, h', hh, hh', rfl⟩ := onMessage_ok hmsg
    exact ih (hr.moved (le_advanceCursor _ _ _) hh (Handler.constructed_onMessage hh'))
  | throws _ hk hh hargs =>
    intro hr
    exact hr.moved (hk ▸ le_advanceCursor _ _ _) hh hargs

/-- **The cursor leaves the first handler with the first call behind its messages**, and never comes
    back. -/
theorem Ends.current {ndebug : Bool} {r r' : Response V} {w : World V} {calls : List Call}
    (h : Ends ndebug r w calls r') {o : Nat} (ho : r.offsets[0]? = some o) :
    r'.current = 0 ↔ r.current = 0 ∧ ∀ call ∈ calls, call.offset < o := by
  -- one call
  have hstep : ∀ {r : Response V} (i : Nat), r.offsets[0]? = some o →
      (advanceCursor r.offsets r.current i = 0 ↔ r.current = 0 ∧ i < o) := by
    intro r i ho
    have hle := le_advanceCursor r.offsets r.current i
    constructor
    · intro h0
      have hcurrent : r.current = 0 := by omega
      refine ⟨hcurrent, ?_⟩
      unfold advanceCursor at h0
      rw [hcurrent, List.getD_eq_getElem?_getD, ho] at h0
      by_contra hge
      rw [if_pos (by simpa using hge)] at h0
      cases h0
    · rintro ⟨hcurrent, hlt⟩
      unfold advanceCursor
      rw [hcurrent, List.getD_eq_getElem?_getD, ho, if_neg (by simpa using hlt)]
  induction h with
  | stops r w => simp
  | goesOn hmsg _ ih =>
    obtain ⟨h, h', -, -, rfl⟩ := onMessage_ok hmsg
    refine (ih ho).trans ?_
    simp only [hstep _ ho, List.forall_mem_cons, and_assoc]
  | throws _ hk _ _ =>
    subst hk
    simp only [hstep _ ho, List.forall_mem_singleton]

/-! ## 6. Setting up a used response -/

/-- The offset `setup` of the first handler returns. -/
def firstOffset (hs : List (Handler V)) (req : Request) : Nat :=
  match hs with
  | [] => 0
  | h :: _ =>
    match h.setupResult req 0 with
    | .ok res => res.2
    | .error _ => 0

/-- `setup` reads no more of the handlers than their arguments. -/
theorem layOut_congr {req : Request} : ∀ {hs hs' : List (Handler V)} {off : Nat},
    hs.map Handler.constructed = hs'.map Handler.constructed → layOut req hs off = layOut req hs' off
  | [], [], _, _ => rfl
  | [], _ :: _, _, h => by cases h
  | _ :: _, [], _, h => by cases h
  | h :: hs, h' :: hs', off, heq => by
      obtain ⟨hh, hhs⟩ := List.cons.inj heq
      unfold layOut
      rw [← Handler.setupResult_constructed h, hh, Handler.setupResult_constructed h']
      simp only [layOut_congr hhs]

theorem layOut_length {req : Request} : ∀ {hs : List (Handler V)} {off : Nat}
    {p : HandlerSetupResult × List Nat}, layOut req hs off = .ok p →
    (p.1.1.failed = true → p.2.length < hs.length) ∧
      (p.1.1.failed = false → p.2.length = hs.length)
  | [], _, _, h => by
      cases h
      exact ⟨nofun, fun _ => rfl⟩
  | h :: hs, off, p, hlay => by
      obtain ⟨res, -, hlay⟩ := bind_eq_ok.mp hlay
      cases hec : res.1.failed with
      | true =>
        rw [if_pos hec] at hlay
        cases hlay
        exact ⟨fun _ => Nat.succ_pos _, fun hf => by rw [hec] at hf; cases hf⟩
      | false =>
        rw [if_neg (by rw [hec]; nofun)] at hlay
        obtain ⟨⟨res', offsets⟩, hrest, hpure⟩ := bind_eq_ok.mp hlay
        cases hpure
        obtain ⟨hlt, heq⟩ := layOut_length hrest
        exact ⟨fun hf => Nat.succ_lt_succ (hlt hf), fun hf => congrArg (· + 1) (heq hf)⟩

theorem layOut_head {req : Request} {h : Handler V} {hs : List (Handler V)}
    {p : HandlerSetupResult × List Nat} (hlay : layOut req (h :: hs) 0 = .ok p)
    (hec : p.1.1.failed = false) : p.2[0]? = some (firstOffset (h :: hs) req) := by
  obtain ⟨res, hres, hlay⟩ := bind_eq_ok.mp hlay
  cases hec' : res.1.failed with
  | true =>
    rw [if_pos hec'] at hlay
    cases hlay
    rw [hec'] at hec
    cases hec
  | false =>
    rw [if_neg (by rw [hec']; nofun)] at hlay
    obtain ⟨⟨res', offsets⟩, -, hpure⟩ := bind_eq_ok.mp hlay
    cases hpure
    simp [firstOffset, hres]

/-- **`setup` of a response**, in closed form. -/
theorem setup_eq (r : Response V) (req : Request) (w : World V) :
    r.setup req 0 w = (layOut req r.handlers 0).map fun p => (p.1,
      { r with
        handlers := resetFirst (touched p) r.handlers
        offsets := p.2 ++ r.offsets.drop p.2.length },
      clearAll (r.handlers.take (touched p)) w) := by
  unfold setup
  rw [responseSetup_eq]
  cases layOut req r.handlers 0 <;> rfl

theorem constructed_resetFirst (n : Nat) (hs : List (Handler V)) :
    (resetFirst n hs).map Handler.constructed = hs.map Handler.constructed := by
  have hreset : ∀ hs : List (Handler V),
      (hs.map Handler.reset).map Handler.constructed = hs.map Handler.constructed := by
    intro hs
    rw [List.map_map]
    exact List.map_congr_left fun h _ => h.constructed_reset
  rw [resetFirst, List.map_append, hreset, ← List.map_append, List.take_append_drop]

/-- `setup` changes nothing of a handler that is as constructed. -/
theorem resetFirst_of_constructed {hs : List (Handler V)} (h : ∀ x ∈ hs, x.constructed = x)
    (n : Nat) : resetFirst n hs = hs := by
  have hmap : (hs.take n).map Handler.reset = hs.take n := by
    conv_rhs => rw [← List.map_id (hs.take n)]
    refine List.map_congr_left fun x hx => ?_
    rw [← h x (List.mem_of_mem_take hx), Handler.reset_constructed]
    rfl
  rw [resetFirst, hmap, List.take_append_drop]

theorem tail_resetFirst : ∀ (n : Nat) (hs : List (Handler V)),
    (resetFirst n hs).tail = resetFirst (n - 1) hs.tail
  | 0, _ => rfl
  | _ + 1, [] => by simp [resetFirst]
  | _ + 1, _ :: _ => rfl

theorem Kept.setup {hs : List (Handler V)} {r r₁ : Response V} (hr : Kept hs r) {req : Request}
    {w w₁ : World V} {res : HandlerSetupResult} (hsetup : r.setup req 0 w = .ok (res, r₁, w₁)) :
    Kept hs r₁ ∧ r₁.current = r.current ∧ (res.1.failed = false → hs ≠ [] →
      r₁.offsets[0]? = some (firstOffset hs req)) := by
  rw [setup_eq, layOut_congr hr.args] at hsetup
  obtain ⟨p, hlay, heq⟩ := map_eq_ok.mp hsetup
  cases heq
  obtain ⟨hlt, heq⟩ := layOut_length hlay
  have hle : p.2.length ≤ hs.length := by
    cases hec : p.1.1.failed with
    | true => exact Nat.le_of_lt (hlt hec)
    | false => exact Nat.le_of_eq (heq hec)
  refine ⟨⟨(constructed_resetFirst _ _).trans hr.args, ?_, ?_, hr.current⟩, rfl, ?_⟩
  · rw [List.length_append, List.length_drop, hr.length]
    omega
  · intro hcurrent h hh
    rw [tail_resetFirst, resetFirst_of_constructed (hr.tail hcurrent)] at hh
    exact hr.tail hcurrent h hh
  · intro hec hne
    obtain ⟨h, hs, rfl⟩ := List.exists_cons_of_ne_nil hne
    have hhead := layOut_head hlay hec
    rw [List.getElem?_append_left (List.getElem?_eq_some_iff.mp hhead).1]
    exact hhead

theorem Used.kept {ndebug : Bool} {hs : List (Handler V)} {uses : List Use} {r : Response V}
    (h : Used ndebug (new (hs.map Handler.constructed)) uses r) : Kept hs r := by
  induction h with
  | unused => exact kept_new hs
  | again _ hsetup _ hends ih => exact Kept.ends hends (ih.setup hsetup).1

/-- A call was made, so there is a handler. -/
theorem Ends.handlers_ne_nil {ndebug : Bool} {r r' : Response V} {w : World V} {call : Call}
    {calls : List Call} (h : Ends ndebug r w (call :: calls) r') : r.handlers ≠ [] := by
  intro hnil
  cases h with
  | goesOn hmsg _ =>
    obtain ⟨h, h', hh, -⟩ := onMessage_ok hmsg
    rw [hnil] at hh
    cases hh
  | throws _ _ hh _ =>
    rw [hnil] at hh
    cases hh

/-- **The cursor is at the first handler as long as only that was called.** -/
theorem Used.current {ndebug : Bool} {hs : List (Handler V)} {uses : List Use} {r : Response V}
    (h : Used ndebug (new (hs.map Handler.constructed)) uses r) :
    r.current = 0 ↔ ∀ use ∈ uses, ∀ call ∈ use.calls, call.offset < firstOffset hs use.req := by
  induction h with
  | unused => simp [new]
  | @again uses r req w res r₁ w₁ calls r₂ hused hsetup hcalls hends ih =>
    obtain ⟨hkept, hcurrent, hoffset⟩ := hused.kept.setup hsetup
    rw [List.forall_mem_append, List.forall_mem_singleton, ← ih, ← hcurrent]
    cases calls with
    | nil =>
      cases hends
      simp
    | cons call calls =>
      have hne : hs ≠ [] := by
        intro hnil
        refine hends.handlers_ne_nil (List.length_eq_zero_iff.mp ?_)
        rw [hkept.length_handlers, hnil]
        rfl
      obtain ⟨-, hec, -⟩ := setupRequest_success (hcalls nofun).1
      exact hends.current (hoffset hec hne)

/-- The objects of handlers with the same arguments are cleared in the same way. -/
theorem clearAll_congr : ∀ {hs hs' : List (Handler V)} {w : World V},
    hs.map Handler.constructed = hs'.map Handler.constructed → clearAll hs w = clearAll hs' w
  | [], [], _, _ => rfl
  | [], _ :: _, _, h => by cases h
  | _ :: _, [], _, h => by cases h
  | h :: hs, h' :: hs', w, heq => by
      obtain ⟨hh, hhs⟩ := List.cons.inj heq
      have hclear : h.clear w = h'.clear w := by
        rw [← Handler.clear_constructed h, hh, Handler.clear_constructed]
      show clearAll hs (h.clear w) = clearAll hs' (h'.clear w)
      rw [hclear, clearAll_congr hhs]

/-- While the cursor is at the first handler, `setup` leaves handlers like new ones. -/
theorem Kept.alike_resetFirst {hs : List (Handler V)} {r : Response V} (hr : Kept hs r)
    (hcurrent : r.current = 0) {n : Nat} (hn : n ≠ 0) :
    List.Forall₂ Handler.Alike (resetFirst n r.handlers)
      (resetFirst n (hs.map Handler.constructed)) := by
  have hnew : ∀ x ∈ hs.map Handler.constructed, x.constructed = x := by
    intro x hx
    obtain ⟨x, -, rfl⟩ := List.mem_map.mp hx
    cases x <;> rfl
  rw [resetFirst_of_constructed hnew, ← hr.args]
  obtain ⟨n, rfl⟩ := Nat.exists_eq_succ_of_ne_zero hn
  have htail := hr.tail hcurrent
  cases hhandlers : r.handlers with
  | nil => simp [resetFirst]
  | cons h rest =>
    rw [hhandlers, List.tail_cons] at htail
    have hsplit : resetFirst (n + 1) (h :: rest) = h.reset :: resetFirst n rest := rfl
    rw [hsplit, resetFirst_of_constructed htail, List.map_cons]
    refine .cons h.alike_reset ?_
    rw [List.forall₂_map_right_iff, List.forall₂_same]
    intro x hx
    rw [htail x hx]
    exact .same x

/-- **A response whose cursor is at the first handler can be used like a new one.** -/
theorem Kept.sameUse {hs : List (Handler V)} {r : Response V} (hr : Kept hs r)
    (hcurrent : r.current = 0) (ndebug : Bool) :
    r.SameUse ndebug (new (hs.map Handler.constructed)) := by
  intro req w
  have hnew := kept_new hs
  rw [setup_eq, setup_eq, layOut_congr (hr.args.trans hnew.args.symm)]
  refine (Agree.refl (R := fun p q => p = q ∧ layOut req hs 0 = .ok p)
    _ fun p hp => ⟨rfl, ?_⟩).map fun p q hpq => ?_
  · rw [← layOut_congr hnew.args]
    exact hp
  obtain ⟨rfl, hlay⟩ := hpq
  obtain ⟨hlt, hlength⟩ := layOut_length hlay
  by_cases hs0 : hs = []
  · -- a response without handlers
    subst hs0
    have hnil : r.handlers = [] := List.length_eq_zero_iff.mp hr.length_handlers
    have hlengthr := hr.length
    obtain ⟨handlers, offsets, current⟩ := r
    obtain rfl := List.length_eq_zero_iff.mp hlengthr
    cases hcurrent
    cases hnil
    refine ⟨rfl, rfl, fun _ _ _ _ _ _ _ => Agree.refl _ fun _ _ => rfl⟩
  · have hn : touched p ≠ 0 := by
      unfold touched
      cases hec : p.1.1.failed with
      | true => simp
      | false =>
        rw [if_neg nofun, hlength hec]
        simpa using hs0
    have halike := hr.alike_resetFirst hcurrent hn
    have hw : clearAll (r.handlers.take (touched p)) w =
        clearAll ((hs.map Handler.constructed).take (touched p)) w := by
      refine clearAll_congr ?_
      rw [List.map_take, List.map_take, hr.args]
      exact congrArg _ hnew.args.symm
    refine ⟨rfl, ?_, fun hec allowCopy msgs run calls _ _ => ?_⟩
    · simp only [view, hw]
      exact congrArg (·, _) (map_result halike)
    · obtain ⟨-, hec, -⟩ := setupRequest_success hec
      simp only [hw]
      refine (Alike.run ⟨halike, ?_, hcurrent⟩ ndebug calls _).mono fun _ _ => view_eq
      have hdrop : ∀ {r : Response V}, Kept hs r → r.offsets.drop p.2.length = [] := by
        intro r hr
        rw [hlength hec, ← hr.length, List.drop_length]
      show p.2 ++ r.offsets.drop p.2.length = p.2 ++ _
      rw [hdrop hr, hdrop hnew]

end Response

end

/-! ## 7. An error in the first call -/

/-- The first message that the server answers may fail. -/
theorem exists_first_error (e : ErrorResponse) {m : RequestMessageType}
    {rest : List RequestMessageType} (hm : isSyncOrFlush m = false) :
    ∀ (pre : List RequestMessageType) {k : Nat} {f : ReadResponseFsm}, f.Wf → f.state = .msgFirst →
      f.getRemainingMessages = List.replicate k .flush ++ (pre ++ m :: rest) →
      (∀ x ∈ pre, isSyncOrFlush x = true) →
      ∃ msgs run, f.feed msgs = .ok run ∧
        [⟨.errorResponse e, f.current + k + pre.length⟩] <+: run.calls
  | [], k, f, hf, hs, hremaining, _ => by
      have hb : f.Before k m rest := ⟨hremaining, by rintro rfl; cases hm⟩
      by_cases hquery : m = .query
      · subst hquery
        have hstay : Stays f.allowCopy .query f.state (.errorResponse e) .queryNeedsReady
            [.errorResponse e] := .queryError e (hb.state hf) (by rw [hs]; nofun)
        refine ⟨[.errorResponse e], _, feed_cons (resume_stays hb hstay) rfl [], ?_⟩
        exact List.prefix_append _ _
      · have hext : m.isExtended = true := by
          cases m <;> first | rfl | exact absurd rfl hquery | cases hm
        have hend : m.endsUnit = false := by cases m <;> first | rfl | cases hext
        obtain ⟨b, hbatch⟩ := hb.batch hf
        obtain ⟨pre, post, rfl, hpre, -⟩ := (hbatch.tail_open hend).closes
        refine ⟨[.errorResponse e], _,
          feed_cons (resume_error e hb hext (hb.state hf) hpre) rfl [], ?_⟩
        exact ⟨_, rfl⟩
  | x :: pre, k, f, hf, hs, hremaining, hpre => by
      have hx := hpre x List.mem_cons_self
      have hpre' : ∀ x ∈ pre, isSyncOrFlush x = true := fun y hy => hpre y (List.mem_cons_of_mem x hy)
      by_cases hflush : x = .flush
      · subst hflush
        have hremaining' : f.getRemainingMessages =
            List.replicate (k + 1) .flush ++ (pre ++ m :: rest) := by
          rw [hremaining, List.replicate_succ', List.append_assoc]
          rfl
        obtain ⟨msgs, run, hrun, hcalls⟩ := exists_first_error e hm pre hf hs hremaining' hpre'
        refine ⟨msgs, run, hrun, ?_⟩
        have hoffset : f.current + k + (RequestMessageType.flush :: pre).length =
            f.current + (k + 1) + pre.length := by
          rw [List.length_cons]
          omega
        rw [hoffset]
        exact hcalls
      · obtain rfl : x = .sync := by
          cases x <;> first | rfl | exact absurd rfl hflush | cases hx
        -- the batch before it ends
        have hb : f.Before k .sync (pre ++ m :: rest) := ⟨hremaining, nofun⟩
        have hfin : Finishes .sync f.state (.readyForQuery .idle) [] := by
          rw [hs]
          exact .sync .idle
        have hresult : resultBefore (pre ++ m :: rest) = .read := by
          cases pre <;> rfl
        have hwf := Move.wf hf (.finish hb hfin) hresult
        obtain ⟨msgs, run, hrun, hcalls⟩ := exists_first_error e hm pre (k := 0) hwf rfl
          (by rw [getRemainingMessages_set, hb.drop_succ]; rfl) hpre'
        refine ⟨.readyForQuery .idle :: msgs, run, ?_, ?_⟩
        · rw [feed_cons (resume_finishes hb hfin) hresult, hrun]
          rfl
        · have hoffset : f.current + k + (RequestMessageType.sync :: pre).length =
              f.current + k + 1 + 0 + pre.length := by
            rw [List.length_cons]
            omega
          rw [hoffset]
          exact hcalls

section
variable {V : Type}

/-- The first message of a list that is reported. -/
theorem exists_first_reported {ms : List RequestMessageType}
    (h : ∃ m ∈ ms, isSyncOrFlush m = false) : ∃ pre m rest, ms = pre ++ m :: rest ∧
      (∀ x ∈ pre, isSyncOrFlush x = true) ∧ isSyncOrFlush m = false := by
  induction ms with
  | nil => simp at h
  | cons x ms ih =>
    cases hx : isSyncOrFlush x with
    | false => exact ⟨[], x, ms, rfl, by simp, hx⟩
    | true =>
      obtain ⟨m, hm, hr⟩ := h
      rcases List.mem_cons.mp hm with rfl | hm
      · rw [hx] at hr
        cases hr
      · obtain ⟨pre, m, rest, rfl, hpre, hm⟩ := ih ⟨m, hm, hr⟩
        exact ⟨x :: pre, m, rest, rfl, List.forall_mem_cons.mpr ⟨hx, hpre⟩, hm⟩

/-- Every handler that is set up stores an error. -/
theorem Handler.onMessage_error (h : Handler V) (ndebug : Bool) (e : ErrorResponse) (w : World V) :
    ∃ h' w', h.reset.onMessage ndebug (.errorResponse e) w = .ok (h', w') ∧
      h'.result = storeError e := by
  cases h with
  | resultsetsHandler h =>
    have hassert : ∀ n, boostAssert ndebug (decide (0 ≤ n)) = .ok () := by
      intro n
      exact boostAssert_eq_ok.mpr (.inr (by simp))
    simp only [reset, Handler.onMessage, ResultsetsHandler.onMessage, ResultsetsHandler.finish,
      Resultsets.finishResultset, Nat.zero_mul, hassert, bind, Except.bind, pure, Except.pure,
      Except.map]
    exact ⟨_, _, rfl, rfl⟩
  | _ => exact ⟨_, _, rfl, rfl⟩

namespace Response

/-- A call for the handler the cursor is at. -/
theorem onMessage_here {r : Response V} {o : Nat} {h : Handler V}
    (ho : r.offsets[r.current]? = some o) {call : Call} (hlt : call.offset < o)
    (hh : r.handlers[r.current]? = some h) (ndebug : Bool) (w : World V) :
    r.onMessage ndebug call w = r.forward ndebug r.current h call.msg w := by
  unfold onMessage forward
  simp only [ho, if_neg (Nat.not_le.mpr hlt), hh, boostAssert, hlt, decide_true, Bool.or_true,
    if_true, bind, Except.bind]
  cases h.onMessage ndebug call.msg w <;> rfl

/-- What a use with a call in it was. -/
theorem Used.accepted {ndebug : Bool} {hs : List (Handler V)} {uses : List Use} {r : Response V}
    (h : Used ndebug (new (hs.map Handler.constructed)) uses r) {use : Use} (huse : use ∈ uses)
    (hne : use.calls ≠ []) :
    ∃ p, layOut use.req hs 0 = .ok p ∧
      (NativePg.setupRequest use.req fun _ _ => p.1).failed = false ∧
      ∃ allowCopy msgs run, (readResponseFsm use.req allowCopy).feed msgs = .ok run ∧
        use.calls <+: run.calls := by
  induction h with
  | unused => cases huse
  | again hused hsetup hcalls _ ih =>
    rcases List.mem_append.mp huse with huse | huse
    · exact ih huse
    · obtain rfl := List.mem_singleton.mp huse
      rw [setup_eq, layOut_congr hused.kept.args] at hsetup
      obtain ⟨p, hlay, heq⟩ := map_eq_ok.mp hsetup
      cases heq
      exact ⟨p, hlay, (hcalls hne).1, (hcalls hne).2⟩

/-- `setup` that succeeds. -/
theorem Kept.setup_success {hs : List (Handler V)} {r : Response V} (hr : Kept hs r) {req : Request}
    {p : HandlerSetupResult × List Nat} (hlay : layOut req hs 0 = .ok p)
    (hec : p.1.1.failed = false) (w : World V) :
    r.setup req 0 w = .ok (p.1, { r with handlers := r.handlers.map Handler.reset, offsets := p.2 },
      clearAll r.handlers w) := by
  have hlength := (layOut_length hlay).2 hec
  have htouched : touched p = r.handlers.length := by
    unfold touched
    rw [if_neg (by rw [hec]; nofun), hlength, hr.length_handlers]
  have hdrop : r.offsets.drop p.2.length = [] := by
    rw [hlength, ← hr.length, List.drop_length]
  rw [setup_eq, layOut_congr hr.args, hlay]
  simp only [Except.map, htouched, resetFirst, List.take_length, List.drop_length, List.append_nil,
    hdrop]

theorem Kept.laid {hs : List (Handler V)} {r : Response V} (hr : Kept hs r) {req : Request}
    {p : HandlerSetupResult × List Nat} (hlay : layOut req hs 0 = .ok p)
    (hec : p.1.1.failed = false) :
    Laid req.messages 0 (r.handlers.map Handler.reset) p.2 := by
  have hsetup := hr.setup_success hlay hec ⟨fun _ => {}, fun _ => {}, fun _ => {}, []⟩
  obtain ⟨⟨res, hs', offsets', w'⟩, hx, heq⟩ := bind_eq_ok.mp hsetup
  simp only [pure, Except.pure, Except.ok.injEq, Prod.mk.injEq, mk.injEq] at heq
  obtain ⟨rfl, ⟨rfl, rfl, -⟩, -⟩ := heq
  exact (responseSetup_laid (hr.length.trans hr.length_handlers.symm) (Nat.zero_le _) hx hec).2.2.1

/-- The first handler may be told of an error, before anything else is reported. -/
theorem exists_error_inside {req : Request} (haccepted : req.Accepted) {h : Handler V}
    {hs : List (Handler V)} {o : Nat} {offsets : List Nat}
    (hlaid : Laid req.messages 0 (h :: hs) (o :: offsets)) (hcheck : h.isCheck = false)
    (e : ErrorResponse) (allowCopy : Bool) :
    ∃ msgs run i, (readResponseFsm req allowCopy).feed msgs = .ok run ∧
      [⟨.errorResponse e, i⟩] <+: run.calls ∧ i < o := by
  cases hlaid with
  | @cons _ _ slice _ _ _ hsplits hshape _ _ =>
    obtain ⟨pre, m, rest, rfl, hpre, hm⟩ := exists_first_reported (hshape.reported hcheck)
    have hdrop := hsplits.drop
    have hlength := hsplits.length
    rw [List.length_append, List.length_cons] at hlength
    have hremaining : (readResponseFsm req allowCopy).getRemainingMessages =
        List.replicate 0 .flush ++ (pre ++ m :: (rest ++ req.messages.drop o)) := by
      simpa [readResponseFsm, getRemainingMessages] using hdrop
    obtain ⟨msgs, run, hrun, hcalls⟩ :=
      exists_first_error e hm pre (Wf.init haccepted allowCopy) rfl hremaining hpre
    exact ⟨msgs, run, _, hrun, hcalls, by
      show 0 + 0 + pre.length < o
      omega⟩

/-- An error, told to the handler the cursor is at: what the first one then has. -/
theorem run_error {r : Response V} (hlt : r.current < r.handlers.length) {offsets : List Nat} {o : Nat}
    (ho : offsets[r.current]? = some o) {i : Nat} (hi : i < o) (ndebug : Bool) (e : ErrorResponse)
    (w : World V) :
    ∃ r' w', Response.run ndebug [⟨.errorResponse e, i⟩]
      { r with handlers := r.handlers.map Handler.reset, offsets } w = .ok (r', w') ∧
      (r'.handlers.map (·.result))[0]? = some (if r.current = 0 then storeError e else {}) := by
  obtain ⟨h', w', hmsg, hresult⟩ := (r.handlers[r.current]).onMessage_error ndebug e w
  have hh : (r.handlers.map Handler.reset)[r.current]? = some (r.handlers[r.current]).reset := by
    rw [List.getElem?_map, List.getElem?_eq_getElem hlt]
    rfl
  have hstep : Response.onMessage ndebug
      { r with handlers := r.handlers.map Handler.reset, offsets } ⟨.errorResponse e, i⟩ w =
      .ok ({ r with handlers := (r.handlers.map Handler.reset).set r.current h', offsets }, w') := by
    rw [onMessage_here ho hi hh, forward, hmsg]
    rfl
  refine ⟨{ r with handlers := (r.handlers.map Handler.reset).set r.current h', offsets }, w', ?_, ?_⟩
  · unfold Response.run
    rw [hstep]
    rfl
  · have hlt' : 0 < r.handlers.length := by omega
    by_cases hcurrent : r.current = 0
    · simp [hcurrent, hresult, hlt']
    · have hreset : ∀ h : Handler V, h.reset.result = {} := by
        intro h
        cases h <;> rfl
      simp [List.getElem?_set_ne hcurrent, List.getElem?_eq_getElem hlt', hreset, hcurrent]

/-- **A response whose cursor has moved cannot be used again**: the first error would be stored in the
    wrong handler. -/
theorem Used.not_sameUse {ndebug : Bool} {hs : List (Handler V)} {uses : List Use} {r : Response V}
    (h : Used ndebug (new (hs.map Handler.constructed)) uses r) (hcurrent : r.current ≠ 0) :
    ¬ r.SameUse ndebug (new (hs.map Handler.constructed)) := by
  intro hsame
  have hkept := h.kept
  have hnew := kept_new hs
  -- a use in which the cursor has moved
  obtain ⟨use, huse, call, hcall, hge⟩ :
      ∃ use ∈ uses, ∃ call ∈ use.calls, firstOffset hs use.req ≤ call.offset := by
    by_contra hnone
    refine hcurrent (h.current.mpr fun use huse call hcall => ?_)
    by_contra hge
    exact hnone ⟨use, huse, call, hcall, by omega⟩
  obtain ⟨p, hlay, hsuccess, allowCopy, msgs, run, hrun, hpre⟩ :=
    h.accepted huse (List.ne_nil_of_mem hcall)
  obtain ⟨haccepted, hec, -⟩ := setupRequest_success hsuccess
  have hlt : call.offset < use.req.messages.length :=
    (feed_inTurn haccepted allowCopy hrun).offset_lt call (hpre.subset hcall)
  have hcurrent' : r.current < hs.length := hkept.current.resolve_left hcurrent
  obtain ⟨h₀, hs, rfl⟩ : ∃ h₀ hs', hs = h₀ :: hs' :=
    List.exists_cons_of_ne_nil (by rintro rfl; cases hcurrent')
  -- its request once more
  obtain ⟨w⟩ : Nonempty (World V) := ⟨⟨fun _ => {}, fun _ => {}, fun _ => {}, []⟩⟩
  have hagree := hsame use.req w
  rw [hkept.setup_success hlay hec, hnew.setup_success hlay hec] at hagree
  obtain ⟨-, -, hcalls⟩ := hagree.ok_ok
  obtain ⟨o, offsets, hoffsets⟩ : ∃ o offsets, p.2 = o :: offsets :=
    List.exists_cons_of_length_eq_add_one ((layOut_length hlay).2 hec)
  have hlaid : Laid use.req.messages 0
      (((h₀ :: hs).map Handler.constructed).map Handler.reset) p.2 := hnew.laid hlay hec
  have hhead := layOut_head hlay hec
  rw [hoffsets] at hlaid hhead hcalls
  cases hhead
  have hcheck : h₀.constructed.reset.isCheck = false := by
    by_contra hcheck
    cases hlaid with
    | cons _ _ hend _ =>
      have := hend (Handler.takesRest_of_isCheck (by simpa using hcheck))
      omega
  obtain ⟨msgs', run', i, hrun', hpre', hi⟩ := exists_error_inside haccepted hlaid hcheck {} true
  have hviews := hcalls hsuccess true msgs' run' _ hrun' hpre'
  -- a new response stores the error in the first handler, the used one in another
  have hkeep : ∀ {r : Response V} (w), Kept (h₀ :: hs) r → r.current < (h₀ :: hs).length →
      ∃ r' w', Response.run ndebug [⟨.errorResponse {}, i⟩]
        { r with
          handlers := r.handlers.map Handler.reset
          offsets := firstOffset (h₀ :: hs) use.req :: offsets } w = .ok (r', w') ∧
        (r'.handlers.map (·.result))[0]? =
          some (if r.current = 0 then storeError {} else {}) := by
    intro r w hr hlt
    have hlt' : r.current < (firstOffset (h₀ :: hs) use.req :: offsets).length := by
      rw [hlaid.length_eq]
      simpa using hlt
    have ho := List.getElem?_eq_getElem hlt'
    have hmono := hlaid.mono (Nat.zero_le r.current) rfl ho
    exact run_error (by rw [hr.length_handlers]; exact hlt) ho (by omega) ndebug {} w
  obtain ⟨r', w', hr', hfirst⟩ := hkeep (clearAll r.handlers w) hkept hcurrent'
  obtain ⟨r'', w'', hr'', hfirst'⟩ := hkeep
    (clearAll (new ((h₀ :: hs).map Handler.constructed)).handlers w) hnew (Nat.succ_pos _)
  rw [hr', hr''] at hviews
  have hviews := congrArg (·.1[0]?) hviews.ok_ok
  simp only [view, hfirst, hfirst', if_neg hcurrent] at hviews
  cases hviews

end Response

/-! ## 8. Using a handler or a response again -/

namespace Handler

/-- A handler behind any calls of its functions. Where `on_message` has thrown, only the arguments
    are known. -/
inductive Used (ndebug : Bool) (h₀ : Handler V) : Handler V → Prop where
  | unused : Used ndebug h₀ h₀
  | setup {h req off w res h' w'} (hused : Used ndebug h₀ h)
      (hsetup : h.setup req off w = .ok (res, h', w')) : Used ndebug h₀ h'
  | message {h msg w h' w'} (hused : Used ndebug h₀ h)
      (hmsg : h.onMessage ndebug msg w = .ok (h', w')) : Used ndebug h₀ h'
  | throws {h msg w h'} (hused : Used ndebug h₀ h)
      (hmsg : h.onMessage ndebug msg w = .error .exception)
      (hargs : h'.constructed = h.constructed) : Used ndebug h₀ h'

/-- **`h` can be used as `h'` can**: for every request and in every world, `setup` returns the same,
    and behind it, and behind any messages, `result` and the objects are the same. -/
def SameUse (ndebug : Bool) (h h' : Handler V) : Prop :=
  ∀ req off w, Agree .undefined
    (fun p q => p.1 = q.1 ∧ p.2.1.result = q.2.1.result ∧ p.2.2 = q.2.2 ∧
      ∀ msgs, Agree .undefined (fun a b => a.1.result = b.1.result ∧ a.2 = b.2)
        (p.2.1.run ndebug msgs p.2.2) (q.2.1.run ndebug msgs q.2.2))
    (h.setup req off w) (h'.setup req off w)

theorem Used.constructed_eq {ndebug : Bool} {h₀ h : Handler V} (hused : Used ndebug h₀ h) :
    h.constructed = h₀.constructed := by
  induction hused with
  | unused => rfl
  | setup _ hsetup ih =>
    rw [setup_eq] at hsetup
    obtain ⟨res, -, heq⟩ := map_eq_ok.mp hsetup
    cases heq
    rw [constructed_reset]
    exact ih
  | message _ hmsg ih => exact (constructed_onMessage hmsg).trans ih
  | throws _ _ hargs ih => exact hargs.trans ih

theorem constructed_constructed (h : Handler V) : h.constructed.constructed = h.constructed := by
  cases h <;> rfl

/-- **A handler can always be used again.** -/
theorem sameUse_constructed (ndebug : Bool) (h : Handler V) : h.SameUse ndebug h.constructed := by
  intro req off w
  rw [setup_eq, setup_eq, setupResult_constructed, clear_constructed, reset_constructed]
  refine (Agree.refl (R := Eq) _ fun _ _ => rfl).map fun res _ heq => ?_
  subst heq
  refine ⟨rfl, h.alike_reset.result, rfl, fun msgs => ?_⟩
  exact (h.alike_reset.run ndebug msgs _).mono fun a b hab => ⟨hab.1.result, hab.2⟩

end Handler

namespace Response

/-- **When objects can be reused**, in a build with assertions or without. A handler on its own
    always: whatever was done with it before, behind the next `setup` it is like a new one. A
    response exactly when in all its earlier uses only the first handler was called, because
    `response::setup` does not put its cursor back. -/
theorem reuse_iff (ndebug : Bool) :
    (∀ h h' : Handler V, Handler.Used ndebug h.constructed h' →
      h'.SameUse ndebug h.constructed) ∧
    ∀ (hs : List (Handler V)) (uses : List Use) (r : Response V),
      Used ndebug (new (hs.map Handler.constructed)) uses r →
      (r.SameUse ndebug (new (hs.map Handler.constructed)) ↔
        ∀ use ∈ uses, ∀ call ∈ use.calls, call.offset < firstOffset hs use.req) := by
  refine ⟨fun h h' hused => ?_, fun hs uses r hused => ?_⟩
  · have heq := hused.constructed_eq
    rw [h.constructed_constructed] at heq
    rw [← heq]
    exact h'.sameUse_constructed ndebug
  · rw [← hused.current]
    constructor
    · intro hsame
      by_contra hcurrent
      exact hused.not_sameUse hcurrent hsame
    · exact fun hcurrent => hused.kept.sameUse hcurrent ndebug

/-- Two executions, each with its own `command_info`. -/
def twoExecutions : List (Handler Unit) :=
  [.checkExecute { info := some 0 }, .checkExecute { info := some 1 }]

def twoQueries : Request := { messages := [.query, .query] }

/-- The calls of a use of `twoExecutions` that is complete. -/
def completedCalls (tag : Bytes) : List Call :=
  [⟨.rowDescription {}, 0⟩, ⟨.commandComplete tag, 0⟩, ⟨.rowDescription {}, 1⟩,
    ⟨.commandComplete tag, 1⟩]

/-- The objects behind a `setup` and the first calls. -/
def infosAfter (r : Response Unit) (tag : Bytes) : Attempt (CommandInfo × CommandInfo) := do
  let (_, r, w) ← r.setup twoQueries 0 ⟨fun _ => {}, fun _ => {}, fun _ => {}, []⟩
  let (_, w) ← r.run false ((completedCalls tag).take 2) w
  pure (w.infos 0, w.infos 1)

/-- The response is used for two queries, and then again: the result of the first query is written
    to the `command_info` of the second. -/
theorem reused_wrong_info :
    ∃ r : Response Unit, Used false (new (twoExecutions.map Handler.constructed))
        [⟨twoQueries, completedCalls (ascii "BEGIN")⟩] r ∧
      infosAfter (new (twoExecutions.map Handler.constructed)) (ascii "BEGIN") =
        .ok ({ commandCompleteTag := ascii "BEGIN" }, {}) ∧
      infosAfter r (ascii "BEGIN") = .ok ({}, { commandCompleteTag := ascii "BEGIN" }) ∧
      ¬ r.SameUse false (new (twoExecutions.map Handler.constructed)) := by
  have hused : ∃ r : Response Unit, Used false (new (twoExecutions.map Handler.constructed))
      [⟨twoQueries, completedCalls (ascii "BEGIN")⟩] r ∧
        r = ⟨twoExecutions, [1, 2], 1⟩ := by
    refine ⟨_, .again .unused (w := ⟨fun _ => {}, fun _ => {}, fun _ => {}, []⟩) rfl
      (fun _ => ⟨rfl, false, [.commandComplete (ascii "BEGIN"), .readyForQuery .idle,
        .commandComplete (ascii "BEGIN"), .readyForQuery .idle], _, rfl, List.prefix_rfl⟩)
      (.goesOn rfl (.goesOn rfl (.goesOn rfl (.goesOn rfl (.stops _ _))))), rfl⟩
  obtain ⟨r, hused, rfl⟩ := hused
  exact ⟨_, hused, rfl, rfl, hused.not_sameUse nofun⟩

/-- The second query was never reached. -/
theorem reuse_iff_first_only :
    ∃ r : Response Unit, Used true (new (twoExecutions.map Handler.constructed))
        [⟨twoQueries, (completedCalls []).take 2⟩] r ∧
      r.SameUse true (new (twoExecutions.map Handler.constructed)) ∧
      Handler.SameUse true (.checkExecute { info := some 0, err := storeError {} } : Handler Unit)
        (.checkExecute { info := some 0 }) := by
  have hused : ∃ r : Response Unit, Used true (new (twoExecutions.map Handler.constructed))
      [⟨twoQueries, (completedCalls []).take 2⟩] r :=
    ⟨_, .again .unused (w := ⟨fun _ => {}, fun _ => {}, fun _ => {}, []⟩) rfl
      (fun _ => ⟨rfl, false, [.commandComplete []], _, rfl, List.prefix_rfl⟩)
      (.goesOn rfl (.goesOn rfl (.stops _ _)))⟩
  obtain ⟨r, hused⟩ := hused
  refine ⟨r, hused, ((reuse_iff true).2 _ _ _ hused).mpr (by decide), ?_⟩
  exact (reuse_iff true).1 (.checkExecute { info := some 0 }) _
    (.message (w := ⟨fun _ => {}, fun _ => {}, fun _ => {}, []⟩) .unused
      (rfl : Handler.onMessage true _ (.errorResponse {}) _ = _))

end Response

end

end Responses

end NativePg
