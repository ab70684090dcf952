/-
  File:      NativePg/Responses/Seen.lean
  Subject:   What each handler of a response gets.

  * `callsOf`, `seenBy` -- the calls a handler owns, and their messages. Behind the first of them
    come no calls of an earlier handler: `seenBy_suffix`;
  * **`run_seen`** -- an invariant of one handler and the messages it has got, kept by `on_message`
    and by the calls of the other handlers, holds of every handler behind every run;
  * **`Laid.answered`** -- what a handler gets in a complete response is what the machine reports
    for the messages of that handler.
-/
import NativePg.Lib.Outcomes
import NativePg.Responses.Routing

namespace NativePg

namespace Responses

open ReadResponseFsm

/-! ## 1. The messages of a handler -/

instance (offsets : List Nat) (k i : Nat) : Decidable (Owns offsets k i) :=
  decidable_of_iff
    ((k = 0 ∨ (offsets[k - 1]?).any (· ≤ i) = true) ∧ (offsets[k]?).any (i < ·) = true) <| by
      unfold Owns
      have hupper : (offsets[k]?).any (i < ·) = true ↔ ∃ o, offsets[k]? = some o ∧ i < o := by
        cases offsets[k]? <;> simp
      have hlower : (k = 0 ∨ (offsets[k - 1]?).any (· ≤ i) = true) ↔
          ∀ j, k = j + 1 → ∃ o, offsets[j]? = some o ∧ o ≤ i := by
        cases k with
        | zero => simp
        | succ k => cases h : offsets[k]? <;> simp [h]
      rw [hupper, hlower]

/-- The calls that the handler at `k` owns. -/
def callsOf (offsets : List Nat) (k : Nat) (calls : List Call) : List Call :=
  calls.filter fun call => decide (Owns offsets k call.offset)

/-- What the handler at `k` gets. -/
def seenBy (offsets : List Nat) (k : Nat) (calls : List Call) : List AnyRequestMessage :=
  (callsOf offsets k calls).map (·.msg)

section
variable {offsets : List Nat} {k : Nat}

theorem callsOf_append (calls calls' : List Call) :
    callsOf offsets k (calls ++ calls') = callsOf offsets k calls ++ callsOf offsets k calls' :=
  List.filter_append _ _

theorem callsOf_cons {call : Call} (h : Owns offsets k call.offset) (calls : List Call) :
    callsOf offsets k (call :: calls) = call :: callsOf offsets k calls :=
  List.filter_cons_of_pos (by simpa using h)

theorem callsOf_eq_self {calls : List Call} (h : ∀ call ∈ calls, Owns offsets k call.offset) :
    callsOf offsets k calls = calls :=
  List.filter_eq_self.mpr fun call hcall => by simpa using h call hcall

theorem callsOf_eq_nil {calls : List Call} (h : ∀ call ∈ calls, ¬ Owns offsets k call.offset) :
    callsOf offsets k calls = [] :=
  List.filter_eq_nil_iff.mpr fun call hcall => by simpa using h call hcall

theorem seenBy_own {call : Call} (h : Owns offsets k call.offset) (calls : List Call) :
    seenBy offsets k (calls ++ [call]) = seenBy offsets k calls ++ [call.msg] := by
  rw [seenBy, callsOf_append, callsOf_cons h, List.map_append]
  rfl

theorem seenBy_other {call : Call} (h : ¬ Owns offsets k call.offset) (calls : List Call) :
    seenBy offsets k (calls ++ [call]) = seenBy offsets k calls := by
  have hnil : callsOf offsets k [call] = [] := callsOf_eq_nil (by simpa using h)
  rw [seenBy, callsOf_append, hnil, List.append_nil]
  rfl

theorem seenBy_eq_map {calls : List Call} (h : ∀ call ∈ calls, Owns offsets k call.offset) :
    seenBy offsets k calls = calls.map (·.msg) := by
  rw [seenBy, callsOf_eq_self h]

theorem seenBy_eq_nil {calls : List Call} (h : ∀ call ∈ calls, ¬ Owns offsets k call.offset) :
    seenBy offsets k calls = [] := by
  rw [seenBy, callsOf_eq_nil h]
  rfl

end

/-! ## 2. The order of the calls -/

/-- Offsets never decrease. -/
theorem InTurn.mono {ms : List RequestMessageType} {lo : Nat} {pre post : List Call} {call : Call}
    (h : InTurn ms lo (pre ++ call :: post)) : ∀ c ∈ pre, c.offset ≤ call.offset := by
  -- behind a call of offset `i` there are none below it
  have hbehind : ∀ {calls : List Call} {i : Nat}, InTurn ms (i + 1) calls →
      ∀ c ∈ calls, i ≤ c.offset := by
    intro calls
    induction calls with
    | nil => simp
    | cons c calls ih =>
      intro i h
      cases h with
      | cons hle _ _ hrest =>
        refine List.forall_mem_cons.mpr ⟨by omega, fun c' hc' => ?_⟩
        have := ih hrest c' hc'
        omega
  induction pre generalizing lo with
  | nil => simp
  | cons c pre ih =>
    cases h with
    | cons _ _ _ hrest => exact List.forall_mem_cons.mpr ⟨hbehind hrest call (by simp), ih hrest⟩

section
variable {V : Type} {ms : List RequestMessageType} {off : Nat} {hs : List (Handler V)}
  {offsets : List Nat}

/-- Owners come in the order of offsets. -/
theorem Laid.owner_le (h : Laid ms off hs offsets) {j k i i' : Nat} (hj : Owns offsets j i)
    (hk : Owns offsets k i') (hle : i ≤ i') : j ≤ k := by
  by_contra hlt
  obtain ⟨o, ho, hi⟩ := hk.2
  obtain ⟨j, rfl⟩ : ∃ j', j = j' + 1 := ⟨j - 1, by omega⟩
  obtain ⟨o', ho', hi'⟩ := hj.1 j rfl
  have := h.mono (by omega) ho ho'
  omega

/-- Every offset inside the request has an owner. -/
theorem Laid.exists_owner (h : Laid ms off hs offsets) (hlast : lastOffset off offsets = ms.length)
    {i : Nat} (hoff : off ≤ i) (hi : i < ms.length) : ∃ k, Owns offsets k i := by
  induction h with
  | @nil off =>
    have : off = ms.length := hlast
    omega
  | @cons off off' slice h hs offsets hsplits hshape hend hrest ih =>
    by_cases hlt : i < off'
    · exact ⟨0, nofun, off', rfl, hlt⟩
    · have hlast' : lastOffset off' offsets = ms.length := by
        rw [← hlast]
        cases offsets <;> rfl
      obtain ⟨k, hlower, hupper⟩ := ih hlast' (by omega)
      refine ⟨k + 1, fun j hj => ?_, hupper⟩
      cases hj
      cases k with
      | zero => exact ⟨off', rfl, by omega⟩
      | succ k => exact hlower k rfl

/-- **Behind the first call of a handler come no calls of an earlier one**: what a handler has got is
    the end of all that was reported, while it is being called. -/
theorem seenBy_suffix (h : Laid ms off hs offsets) {k : Nat} : ∀ {pre : List Call} {call : Call}
    {post : List Call} {lo : Nat}, InTurn ms lo (pre ++ call :: post) → Owns offsets k call.offset →
    (∀ c ∈ pre, ∃ j, Owns offsets j c.offset) → seenBy offsets k pre <:+ pre.map (·.msg)
  | [], _, _, _, _, _, _ => List.suffix_refl _
  | c :: pre, call, post, lo, hturn, hk, howned => by
      by_cases hc : Owns offsets k c.offset
      · -- all the calls from here on are its own
        have hall : ∀ c' ∈ c :: pre, Owns offsets k c'.offset := by
          intro c' hc'
          obtain ⟨j, hj⟩ := howned c' hc'
          have hle : j ≤ k := h.owner_le hj hk (hturn.mono c' hc')
          have hge : k ≤ j := by
            rcases List.mem_cons.mp hc' with rfl | hmem
            · exact Nat.le_of_eq (h.owns_unique hc hj)
            · obtain ⟨p, q, rfl⟩ := List.append_of_mem hmem
              have hturn' : InTurn ms lo ((c :: p) ++ c' :: (q ++ call :: post)) := by
                simpa using hturn
              exact h.owner_le hc hj (hturn'.mono c (by simp))
          obtain rfl : j = k := by omega
          exact hj
        exact ⟨[], seenBy_eq_map hall⟩
      · have hcons : seenBy offsets k (c :: pre) = seenBy offsets k pre := by
          simp [seenBy, callsOf, hc]
        rw [hcons, List.map_cons]
        cases hturn with
        | cons _ _ _ hrest =>
          exact (seenBy_suffix h hrest hk fun c hc => howned c (List.mem_cons_of_mem _ hc)).trans
            (List.suffix_cons _ _)

/-! ## 3. An invariant of every handler -/

namespace Response

theorem run_of_error {ndebug : Bool} {call : Call} {post : List Call} {e : Failure} :
    ∀ {pre : List Call} {r r₁ : Response V} {w w₁ : World V}, r.run ndebug pre w = .ok (r₁, w₁) →
    r₁.onMessage ndebug call w₁ = .error e → r.run ndebug (pre ++ call :: post) w = .error e
  | [], _, _, _, _, hpre, hmsg => by
      cases hpre
      exact bind_eq_error.mpr (.inl hmsg)
  | _ :: _, _, _, _, _, hpre, hmsg => by
      obtain ⟨p, hcall, hrest⟩ := bind_eq_ok.mp hpre
      exact bind_eq_error.mpr (.inr ⟨p, hcall, run_of_error hrest hmsg⟩)

/-- **A run ends with an error where one of its calls does.** -/
theorem run_eq_error {ndebug : Bool} {calls : List Call} {r : Response V} {w : World V}
    {e : Failure} : r.run ndebug calls w = .error e ↔
    ∃ pre call post r₁ w₁, calls = pre ++ call :: post ∧ r.run ndebug pre w = .ok (r₁, w₁) ∧
      r₁.onMessage ndebug call w₁ = .error e := by
  constructor
  · intro h
    induction calls generalizing r w with
    | nil => cases h
    | cons call calls ih =>
      rcases bind_eq_error.mp h with hcall | ⟨⟨r₁, w₁⟩, hcall, hrest⟩
      · exact ⟨[], call, calls, r, w, rfl, rfl, hcall⟩
      · obtain ⟨pre, call', post, r₂, w₂, rfl, hpre, hmsg⟩ := ih hrest
        exact ⟨call :: pre, call', post, r₂, w₂, rfl, bind_eq_ok.mpr ⟨_, hcall, hpre⟩, hmsg⟩
  · rintro ⟨pre, call, post, r₁, w₁, rfl, hpre, hmsg⟩
    exact run_of_error hpre hmsg

/-- `P k seen h w` holds of each handler `h`, where `seen` is what it has got. -/
def Holds (P : Nat → List AnyRequestMessage → Handler V → World V → Prop) (calls : List Call)
    (r : Response V) (w : World V) : Prop :=
  ∀ k h, r.handlers[k]? = some h → P k (seenBy r.offsets k calls) h w

/-- One call is the next message of its owner, and no message of the others. -/
theorem forward_holds {P : Nat → List AnyRequestMessage → Handler V → World V → Prop}
    {r : Response V} (hlaid : Laid ms off hs r.offsets) {call : Call} {k : Nat}
    (howns : Owns r.offsets k call.offset) {h h' : Handler V} (hh : r.handlers[k]? = some h)
    {w w' : World V} {calls : List Call} (hholds : Holds P calls r w)
    (hstep : P k (seenBy r.offsets k calls ++ [call.msg]) h' w')
    (hframe : ∀ j seen x, j ≠ k → P j seen x w → P j seen x w') :
    Holds P (calls ++ [call]) { r with handlers := r.handlers.set k h', current := k } w' := by
  intro j x hx
  by_cases hjk : k = j
  · subst hjk
    rw [seenBy_own howns]
    have hlt := (List.getElem?_eq_some_iff.mp hh).1
    simp only [List.getElem?_set_self hlt, Option.some.injEq] at hx
    subst hx
    exact hstep
  · rw [seenBy_other fun hj => hjk (hlaid.owns_unique howns hj)]
    simp only [List.getElem?_set_ne hjk] at hx
    exact hframe j _ x (Ne.symm hjk) (hholds j x hx)

/-- **A run.** -/
theorem run_seen {P : Nat → List AnyRequestMessage → Handler V → World V → Prop} {ndebug : Bool}
    (hstep : ∀ {k seen h msg w h' w'}, P k seen h w → h.onMessage ndebug msg w = .ok (h', w') →
      P k (seen ++ [msg]) h' w')
    (hframe : ∀ {j k seen seen' h g msg w g' w'}, j ≠ k → P j seen h w → P k seen' g w →
      g.onMessage ndebug msg w = .ok (g', w') → P j seen h w') :
    ∀ {calls pre : List Call} {r r' : Response V} {w w' : World V} {lo : Nat},
      Laid ms off hs r.offsets → lastOffset off r.offsets = ms.length → r.Stands lo →
      InTurn ms lo calls → Holds P pre r w → r.run ndebug calls w = .ok (r', w') →
      Holds P (pre ++ calls) r' w'
  | [], pre, r, _, w, _, _, _, _, _, _, hholds, hrun => by
      cases hrun
      rw [List.append_nil]
      exact hholds
  | call :: calls, pre, r, r', w, w', lo, hlaid, hlast, hr, hturn, hholds, hrun => by
      obtain ⟨⟨r₁, w₁⟩, hmsg, hrun⟩ := bind_eq_ok.mp hrun
      cases hturn with
      | cons hle hlt hskip hrest =>
        obtain ⟨hoffsets, hr₁⟩ := stands_of_onMessage hlaid hlast hr hle hlt hskip hmsg
        obtain ⟨k, h, howns, hh, -, -, heq⟩ := onMessage_eq hlaid hlast hr hle hlt hskip ndebug w
        rw [heq] at hmsg
        obtain ⟨⟨h', w₂⟩, hh', hpure⟩ := map_eq_ok.mp hmsg
        cases hpure
        have hk := hholds k h hh
        have hholds₁ := forward_holds hlaid howns hh hholds (hstep hk hh')
          fun j seen x hjk hx => hframe hjk hx hk hh'
        rw [← hoffsets] at hlaid hlast
        have hall := run_seen hstep hframe hlaid hlast hr₁ hrest hholds₁ hrun
        rw [List.append_assoc] at hall
        exact hall

end Response

/-! ## 4. The messages of a handler, in a complete response -/

/-- Beyond the first handler. -/
theorem owns_succ {o k i : Nat} (hi : o ≤ i) : Owns (o :: offsets) (k + 1) i ↔ Owns offsets k i := by
  refine ⟨fun h => ⟨fun j hj => ?_, h.2⟩, fun h => ⟨fun j hj => ?_, h.2⟩⟩
  · subst hj
    exact h.1 (j + 1) rfl
  · cases hj
    cases k with
    | zero => exact ⟨o, rfl, hi⟩
    | succ k => exact h.1 k rfl

/-- **What a handler gets in a complete response**: the calls for its own messages, which have the
    shape of its class. -/
theorem Laid.answered {c : Bool} (h : Laid ms off hs offsets) {failed failed' : Bool}
    {calls : List Call} (hcalls : Answered c failed off (ms.drop off) calls failed') {k : Nat}
    {x : Handler V} (hx : hs[k]? = some x) :
    ∃ i j slice b b', Splits ms i j slice ∧ x.Shape slice ∧
      Answered c b i slice (callsOf offsets k calls) b' := by
  induction h generalizing failed calls k with
  | nil => cases hx
  | @cons off off' slice h hs offsets hsplits hshape hend hrest ih =>
    rw [hsplits.drop] at hcalls
    obtain ⟨cs, cs', mid, rfl, hfirst, hothers⟩ := hcalls.split
    rw [← hsplits.length] at hothers
    have hlower := fun call hcall => (hothers.offset_lt call hcall).1
    have hupper : ∀ call ∈ cs, call.offset < off' := by
      intro call hcall
      have := (hfirst.offset_lt call hcall).2
      rw [hsplits.length]
      exact this
    rw [callsOf_append]
    cases k with
    | zero =>
      cases hx
      refine ⟨off, off', slice, failed, mid, hsplits, hshape, ?_⟩
      have hown : ∀ call ∈ cs, Owns (off' :: offsets) 0 call.offset := fun call hcall =>
        ⟨nofun, off', rfl, hupper call hcall⟩
      have hother : ∀ call ∈ cs', ¬ Owns (off' :: offsets) 0 call.offset := by
        rintro call hcall ⟨-, o, ho, hlt⟩
        cases ho
        have := hlower call hcall
        omega
      rw [callsOf_eq_self hown, callsOf_eq_nil hother, List.append_nil]
      exact hfirst
    | succ k =>
      obtain ⟨i, j, slice', b, b', hsplits', hshape', hanswered⟩ := ih hothers hx
      refine ⟨i, j, slice', b, b', hsplits', hshape', ?_⟩
      have hother : ∀ call ∈ cs, ¬ Owns (off' :: offsets) (k + 1) call.offset := by
        rintro call hcall ⟨hlow, -⟩
        obtain ⟨o, ho, hle⟩ := hlow k rfl
        have hlaid : Laid ms off (h :: hs) (off' :: offsets) := .cons hsplits hshape hend hrest
        have := hlaid.mono (Nat.zero_le k) rfl ho
        have := hupper call hcall
        omega
      have hsame : callsOf (off' :: offsets) (k + 1) cs' = callsOf offsets k cs' := by
        refine List.filter_congr fun call hcall => ?_
        simp only [owns_succ (hlower call hcall)]
      rw [callsOf_eq_nil hother, List.nil_append, hsame]
      exact hanswered

/-! ## 5. A handler on its own -/

/-- `setup_request` with a handler on its own. -/
def Handler.setupRequest (h : Handler V) (req : Request) (w : World V) :
    Attempt (ErrorCode × Handler V × World V) :=
  if (checkRequest req).failed then .ok (checkRequest req, h, w)
  else do
    let (res, h, w) ← h.setup req 0 w
    pure (NativePg.setupRequest req fun _ _ => res, h, w)

/-- The response of one handler that is set up for a request. -/
def Response.single (h : Handler V) (req : Request) : Response V := ⟨[h], [req.messages.length], 0⟩

/-- **A handler on its own is set up as in a response of its own.** -/
theorem Handler.setupRequest_single {h h' : Handler V} {req : Request} {w w' : World V}
    {ec : ErrorCode} (hsetup : h.setupRequest req w = .ok (ec, h', w')) (hec : ec.failed = false) :
    (Response.new [h]).setupRequest req w = .ok (ec, .single h' req, w') := by
  unfold Handler.setupRequest at hsetup
  unfold Response.setupRequest
  cases haccepted : (checkRequest req).failed with
  | true =>
    rw [if_pos haccepted] at hsetup
    cases hsetup
    rw [haccepted] at hec
    cases hec
  | false =>
    rw [haccepted] at hsetup
    obtain ⟨⟨res, h₁, w₁⟩, hh, hpure⟩ := bind_eq_ok.mp hsetup
    cases hpure
    obtain ⟨-, hres, hoff⟩ := setupRequest_success hec
    have hrest : responseSetup req [h] [0] 0 w = .ok ((.success, res.2), [h'], [res.2], w') := by
      unfold responseSetup
      rw [hh]
      simp only [bind, Except.bind, hres, Bool.false_eq_true, if_false]
      rfl
    have hnew : (Response.new [h]).setup req 0 w =
        .ok ((.success, res.2), ⟨[h'], [res.2], 0⟩, w') := by
      show (responseSetup req [h] [0] 0 w >>= _) = _
      rw [hrest]
      rfl
    have hcode : (NativePg.setupRequest req fun _ _ => ((.success, res.2) : HandlerSetupResult)) =
        NativePg.setupRequest req fun _ _ => res := by
      have hsuccess : ErrorCode.success.failed = false := rfl
      simp only [NativePg.setupRequest, haccepted, hres, hsuccess, Bool.false_eq_true, if_false]
    rw [hnew, ← hcode, hoff]
    rfl

/-- A call of it is forwarded. -/
theorem Response.onMessage_single (ndebug : Bool) {req : Request} {call : Call}
    (hcall : call.offset < req.messages.length) (h : Handler V) (w : World V) :
    (Response.single h req).onMessage ndebug call w =
      (h.onMessage ndebug call.msg w).map fun p => (.single p.1 req, p.2) := by
  unfold Response.onMessage Response.single
  simp only [List.getElem?_cons_zero, ge_iff_le, Nat.not_le.mpr hcall, if_false, boostAssert,
    hcall, decide_true, Bool.or_true, if_true, bind, Except.bind]
  cases h.onMessage ndebug call.msg w <;> rfl

/-- The same of a run. -/
theorem Response.run_single (ndebug : Bool) (req : Request) : ∀ (calls : List Call) (h : Handler V)
    (w : World V), (∀ call ∈ calls, call.offset < req.messages.length) →
    (Response.single h req).run ndebug calls w =
      (h.run ndebug (calls.map (·.msg)) w).map fun p => (.single p.1 req, p.2)
  | [], _, _, _ => rfl
  | call :: calls, h, w, hlt => by
      obtain ⟨hcall, hcalls⟩ := List.forall_mem_cons.mp hlt
      show (Response.single h req).onMessage ndebug call w >>= (fun p => p.1.run ndebug calls p.2) =
        (h.onMessage ndebug call.msg w >>= fun p => p.1.run ndebug (calls.map (·.msg)) p.2).map _
      rw [onMessage_single ndebug hcall]
      cases h.onMessage ndebug call.msg w with
      | error e => rfl
      | ok p => exact run_single ndebug req calls p.1 p.2 hcalls

theorem owns_single (n i : Nat) : Owns [n] 0 i ↔ i < n := by
  refine ⟨?_, fun h => ⟨nofun, n, rfl, h⟩⟩
  rintro ⟨-, o, ho, hi⟩
  cases ho
  exact hi

theorem seenBy_single {n : Nat} {calls : List Call} (h : ∀ call ∈ calls, call.offset < n) :
    seenBy [n] 0 calls = calls.map (·.msg) :=
  seenBy_eq_map fun call hcall => (owns_single n call.offset).mpr (h call hcall)

end

end Responses

end NativePg
