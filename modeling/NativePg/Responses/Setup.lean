/-
  File:      NativePg/Responses/Setup.lean
  Subject:   The messages each handler takes when it is set up.

  * `Splits` -- the messages from one offset to another;
  * `ResultsetSlice`, `SingleSlice`, `Handler.Shape` -- what the messages of a handler look like:
    one resultset, one message with syncs and flushes around it, or several resultsets;
  * `Handler.setup_spec` -- a handler that is set up takes messages of its shape, has the private
    state of a new one, its column map apart, and has cleared the objects it points to;
  * `Laid` -- the messages of a request, handler by handler. **`setup_laid`**: that is how a response
    has laid them out.
-/
import Mathlib.Data.List.TakeWhile
import NativePg.Responses.Model

namespace NativePg

namespace Responses

/-! ## 1. Slices -/

/-- The messages `slice` stand from the offset `off` to the offset `off'`. -/
structure Splits (ms : List RequestMessageType) (off off' : Nat)
    (slice : List RequestMessageType) : Prop where
  drop : ms.drop off = slice ++ ms.drop off'
  length : off' = off + slice.length
  le : off' ≤ ms.length

section
variable {ms : List RequestMessageType} {off : Nat}

/-- An iterator that has moved over `slice`. -/
theorem splits_of_drop {slice rest : List RequestMessageType} (hoff : off ≤ ms.length)
    (h : ms.drop off = slice ++ rest) : Splits ms off (ms.length - rest.length) slice := by
  have hlength := congrArg List.length h
  rw [List.length_drop, List.length_append] at hlength
  have heq : ms.length - rest.length = off + slice.length := by omega
  refine ⟨?_, heq, Nat.sub_le _ _⟩
  rw [heq, ← List.drop_drop, h, List.drop_left]

theorem Splits.le_offset {off' : Nat} {slice : List RequestMessageType}
    (h : Splits ms off off' slice) : off ≤ off' := by
  have := h.length
  omega

theorem Splits.trans {off' off'' : Nat} {slice slice' : List RequestMessageType}
    (h : Splits ms off off' slice) (h' : Splits ms off' off'' slice') :
    Splits ms off off'' (slice ++ slice') := by
  refine ⟨?_, ?_, h'.le⟩
  · rw [h.drop, h'.drop, List.append_assoc]
  · rw [h'.length, h.length, List.length_append, Nat.add_assoc]

/-- The message at an index inside the slice. -/
theorem Splits.getElem? {off' : Nat} {slice : List RequestMessageType} (h : Splits ms off off' slice)
    {d : Nat} (hd : d < slice.length) : ms[off + d]? = slice[d]? := by
  rw [← List.getElem?_drop, h.drop, List.getElem?_append_left hd]

end

/-- The messages `resultset_setup` passes over on its way to the execute. -/
def isQuiet : RequestMessageType → Bool
  | .sync | .flush | .parse | .bind => true
  | _ => false

theorem isQuiet_of_isSyncOrFlush {m : RequestMessageType} (h : isSyncOrFlush m = true) :
    isQuiet m = true := by
  cases m <;> first | rfl | cases h

/-- The messages of one resultset: a query, or a describe and an execute. -/
inductive ResultsetSlice : List RequestMessageType → Prop where
  | query {pre} (hpre : ∀ m ∈ pre, isSyncOrFlush m = true) : ResultsetSlice (pre ++ [.query])
  | extended {pre mid post} (hpre : ∀ m ∈ pre, isQuiet m = true) (hmid : ∀ m ∈ mid, isQuiet m = true)
      (hpost : ∀ m ∈ post, isSyncOrFlush m = true) :
      ResultsetSlice (pre ++ .describe :: (mid ++ .execute :: post))

/-- One message, and syncs and flushes around it. -/
inductive SingleSlice (type : RequestMessageType) : List RequestMessageType → Prop where
  | mk {pre post} (hpre : ∀ m ∈ pre, isSyncOrFlush m = true)
      (hpost : ∀ m ∈ post, isSyncOrFlush m = true) : SingleSlice type (pre ++ type :: post)

theorem isSyncOrFlush_of_mem_takeWhile {ms : List RequestMessageType} {m : RequestMessageType}
    (h : m ∈ ms.takeWhile isSyncOrFlush) : isSyncOrFlush m = true :=
  List.mem_takeWhile_imp h

/-! ## 2. The setup functions -/

/-- The loop finds the execute behind at most one describe. -/
theorem resultsetLoop_spec : ∀ {ms rest : List RequestMessageType} {describeFound : Bool},
    resultsetLoop describeFound ms = some rest →
    ∃ mid, (∀ m ∈ mid, isQuiet m = true) ∧
      (describeFound = true → ms = mid ++ .execute :: rest) ∧
      (describeFound = false → ∃ pre, (∀ m ∈ pre, isQuiet m = true) ∧
        ms = pre ++ .describe :: (mid ++ .execute :: rest))
  | [], _, _, h => by cases h
  | m :: ms, rest, describeFound, h => by
      -- a message that is passed over
      have hpass : isQuiet m = true → resultsetLoop describeFound ms = some rest →
          ∃ mid, (∀ m ∈ mid, isQuiet m = true) ∧
            (describeFound = true → m :: ms = mid ++ .execute :: rest) ∧
            (describeFound = false → ∃ pre, (∀ m ∈ pre, isQuiet m = true) ∧
              m :: ms = pre ++ .describe :: (mid ++ .execute :: rest)) := by
        intro hm hloop
        obtain ⟨mid, hmid, hfound, hnot⟩ := resultsetLoop_spec hloop
        cases describeFound with
        | true =>
          refine ⟨m :: mid, ?_, fun _ => by rw [hfound rfl]; rfl, nofun⟩
          intro x hx
          rcases List.mem_cons.mp hx with rfl | hx
          · exact hm
          · exact hmid x hx
        | false =>
          obtain ⟨pre, hpre, heq⟩ := hnot rfl
          refine ⟨mid, hmid, nofun, fun _ => ⟨m :: pre, ?_, by rw [heq]; rfl⟩⟩
          intro x hx
          rcases List.mem_cons.mp hx with rfl | hx
          · exact hm
          · exact hpre x hx
      cases m with
      | sync | flush | parse | bind => exact hpass rfl h
      | query | close => cases h
      | describe =>
        cases describeFound with
        | true => cases h
        | false =>
          have hloop : resultsetLoop true ms = some rest := h
          obtain ⟨mid, hmid, hfound, -⟩ := resultsetLoop_spec hloop
          exact ⟨mid, hmid, nofun, fun _ => ⟨[], by simp, by rw [hfound rfl]; rfl⟩⟩
      | execute =>
        cases describeFound with
        | true =>
          cases h
          exact ⟨[], by simp, fun _ => rfl, nofun⟩
        | false => cases h

/-- What `resultset_setup` takes when `rest` is what it leaves: behind an execute, all syncs and
    flushes. -/
inductive Taken : List RequestMessageType → List RequestMessageType → Prop where
  | query {pre rest} (hpre : ∀ m ∈ pre, isSyncOrFlush m = true) : Taken (pre ++ [.query]) rest
  | extended {pre mid post rest} (hpre : ∀ m ∈ pre, isQuiet m = true)
      (hmid : ∀ m ∈ mid, isQuiet m = true) (hpost : ∀ m ∈ post, isSyncOrFlush m = true)
      (hrest : ∀ m ∈ rest.head?, isSyncOrFlush m = false) :
      Taken (pre ++ .describe :: (mid ++ .execute :: post)) rest

theorem Taken.resultsetSlice {slice rest : List RequestMessageType} (h : Taken slice rest) :
    ResultsetSlice slice := by
  cases h with
  | query hpre => exact .query hpre
  | extended hpre hmid hpost hrest => exact .extended hpre hmid hpost

section
variable {req : Request} {off : Nat} {res : HandlerSetupResult}

theorem isSyncOrFlush_head_dropWhile (ms : List RequestMessageType) {m : RequestMessageType}
    (h : m ∈ (ms.dropWhile isSyncOrFlush).head?) : isSyncOrFlush m = false := by
  have := List.head?_dropWhile_not isSyncOrFlush ms
  rw [Option.mem_def.mp h] at this
  simpa using this

/-- Where the first message that is no sync and no flush is not a query, the loop decides. -/
theorem resultsetSetup_of_ne_query {m : RequestMessageType} {it : List RequestMessageType}
    (hoff : off ≤ req.messages.length)
    (hit : (req.messages.drop off).dropWhile isSyncOrFlush = m :: it) (hm : m ≠ .query) :
    resultsetSetup req off = match resultsetLoop false (m :: it) with
      | none => .ok (ClientErrc.incompatibleResponseType.code, 0)
      | some it =>
        .ok (.success, req.messages.length - (it.dropWhile isSyncOrFlush).length) := by
  unfold resultsetSetup
  rw [if_neg (by omega), hit]
  cases m with
  | query => exact absurd rfl hm
  | bind | close | describe | execute | flush | parse | sync => rfl

/-- **The ways through `resultset_setup`**: it reads past the end, it takes a resultset, or it
    returns the error. -/
theorem resultsetSetup_cases (hoff : off ≤ req.messages.length) :
    ((∀ m ∈ req.messages.drop off, isSyncOrFlush m = true) ∧
      resultsetSetup req off = .error .undefined) ∨
    (∃ slice rest, req.messages.drop off = slice ++ rest ∧ Taken slice rest ∧
      resultsetSetup req off = .ok (.success, req.messages.length - rest.length)) ∨
    ((∃ m ∈ req.messages.drop off, isSyncOrFlush m = false) ∧
      resultsetSetup req off = .ok (ClientErrc.incompatibleResponseType.code, 0)) := by
  have hsplit := List.takeWhile_append_dropWhile (p := isSyncOrFlush) (l := req.messages.drop off)
  cases hit : (req.messages.drop off).dropWhile isSyncOrFlush with
  | nil =>
    refine .inl ⟨by simpa using List.dropWhile_eq_nil_iff.mp hit, ?_⟩
    rw [resultsetSetup, if_neg (by omega), hit]
  | cons m it =>
    rw [hit] at hsplit
    by_cases hquery : m = .query
    · subst hquery
      refine .inr (.inl ⟨(req.messages.drop off).takeWhile isSyncOrFlush ++ [.query], it, ?_,
        .query fun _ => isSyncOrFlush_of_mem_takeWhile, ?_⟩)
      · rw [List.append_assoc]
        exact hsplit.symm
      · rw [resultsetSetup, if_neg (by omega), hit]
    · rw [resultsetSetup_of_ne_query hoff hit hquery]
      cases hloop : resultsetLoop false (m :: it) with
      | none =>
        refine .inr (.inr ⟨⟨m, ?_, ?_⟩, rfl⟩)
        · rw [← hsplit]
          simp
        · exact isSyncOrFlush_head_dropWhile (req.messages.drop off) (by rw [hit]; rfl)
      | some rest =>
        obtain ⟨mid, hmid, -, hnot⟩ := resultsetLoop_spec hloop
        obtain ⟨pre, hpre, heq⟩ := hnot rfl
        have hpost := List.takeWhile_append_dropWhile (p := isSyncOrFlush) (l := rest)
        refine .inr (.inl ⟨(req.messages.drop off).takeWhile isSyncOrFlush ++ pre ++ .describe ::
          (mid ++ .execute :: rest.takeWhile isSyncOrFlush), rest.dropWhile isSyncOrFlush, ?_, ?_,
          rfl⟩)
        · refine hsplit.symm.trans ?_
          simp only [heq, List.append_assoc, List.cons_append, hpost]
        · refine .extended (fun x hx => ?_) hmid (fun _ => isSyncOrFlush_of_mem_takeWhile)
            fun _ => isSyncOrFlush_head_dropWhile rest
          rcases List.mem_append.mp hx with hx | hx
          · exact isQuiet_of_isSyncOrFlush (isSyncOrFlush_of_mem_takeWhile hx)
          · exact hpre x hx

/-- **`resultset_setup` takes the messages of one resultset.** -/
theorem resultsetSetup_spec (h : resultsetSetup req off = .ok res) (hec : res.1.failed = false) :
    ∃ slice, Splits req.messages off res.2 slice ∧ ResultsetSlice slice := by
  have hoff : off ≤ req.messages.length := by
    by_contra hoff
    rw [resultsetSetup, if_pos (by omega)] at h
    cases h
  rcases resultsetSetup_cases hoff with ⟨-, heq⟩ | ⟨slice, rest, hdrop, htaken, heq⟩ | ⟨-, heq⟩
  · rw [heq] at h
    cases h
  · rw [heq] at h
    cases h
    exact ⟨slice, splits_of_drop hoff hdrop, htaken.resultsetSlice⟩
  · rw [heq] at h
    cases h
    rw [ClientErrc.failed_code] at hec
    cases hec

/-- **`check_setup_impl` takes one message.** -/
theorem checkSetupImpl_spec {type : RequestMessageType}
    (h : checkSetupImpl req off type = .ok res) (hec : res.1.failed = false) :
    ∃ slice, Splits req.messages off res.2 slice ∧ SingleSlice type slice := by
  unfold checkSetupImpl at h
  by_cases hoff : req.messages.length < off
  · rw [if_pos hoff] at h
    cases h
  rw [if_neg hoff] at h
  have hle : off ≤ req.messages.length := by omega
  have hsplit := List.takeWhile_append_dropWhile (p := isSyncOrFlush) (l := req.messages.drop off)
  have hbad : ¬ (Except.ok (ClientErrc.incompatibleResponseType.code, 0) :
      Attempt HandlerSetupResult) = .ok res := by
    intro heq
    cases heq
    rw [ClientErrc.failed_code] at hec
    cases hec
  cases hit : (req.messages.drop off).dropWhile isSyncOrFlush with
  | nil =>
    rw [hit] at h
    exact absurd h hbad
  | cons m it =>
    rw [hit] at h hsplit
    simp only at h
    by_cases htype : m = type
    · subst htype
      rw [if_neg (by simp)] at h
      cases h
      have hpost := List.takeWhile_append_dropWhile (p := isSyncOrFlush) (l := it)
      refine ⟨(req.messages.drop off).takeWhile isSyncOrFlush ++ m :: it.takeWhile isSyncOrFlush,
        splits_of_drop hle ?_, .mk (fun _ => isSyncOrFlush_of_mem_takeWhile)
          fun _ => isSyncOrFlush_of_mem_takeWhile⟩
      refine hsplit.symm.trans ?_
      simp only [List.append_assoc, List.cons_append, hpost]
    · rw [if_pos htype] at h
      exact absurd h hbad

/-- **`resultsets_handler::setup` takes resultsets to the end of the request.** -/
theorem resultsetsLoop_spec : ∀ {n off : Nat} {res : HandlerSetupResult},
    resultsetsLoop req n off = .ok res → res.1.failed = false →
    res.2 = req.messages.length ∧ ∃ slices : List (List RequestMessageType), slices ≠ [] ∧
      (∀ s ∈ slices, ResultsetSlice s) ∧ Splits req.messages off res.2 slices.flatten
  | 0, _, _, h, _ => by cases h
  | n + 1, off, res, h, hec => by
      unfold resultsetsLoop at h
      cases hfirst : resultsetSetup req off with
      | error e =>
        rw [hfirst] at h
        cases h
      | ok res₁ =>
        rw [hfirst] at h
        simp only [bind, Except.bind] at h
        cases hec₁ : res₁.1.failed with
        | true =>
          rw [if_pos (by rw [hec₁]; rfl)] at h
          cases h
          rw [hec₁] at hec
          cases hec
        | false =>
          obtain ⟨slice, hsplits, hslice⟩ := resultsetSetup_spec hfirst hec₁
          by_cases hend : res₁.2 ≥ req.messages.length
          · rw [if_pos (by simp [hend])] at h
            cases h
            refine ⟨Nat.le_antisymm hsplits.le hend, [slice], by simp, by simpa using hslice, ?_⟩
            simpa using hsplits
          · rw [if_neg (by simp only [hec₁, Bool.false_or, decide_eq_true_eq]; exact hend)] at h
            obtain ⟨hlen, slices, -, hslices, hrest⟩ := resultsetsLoop_spec h hec
            refine ⟨hlen, slice :: slices, by simp, ?_, ?_⟩
            · intro s hs
              rcases List.mem_cons.mp hs with rfl | hs
              · exact hslice
              · exact hslices s hs
            · rw [List.flatten_cons]
              exact hsplits.trans hrest

end

/-! ## 3. Handlers -/

namespace Handler

variable {V : Type}

def isCheck : Handler V → Bool
  | .check _ => true
  | _ => false

/-- Does the handler take all messages to the end of the request? -/
def takesRest : Handler V → Bool
  | .check _ | .resultsetsHandler _ => true
  | _ => false

theorem takesRest_of_isCheck {h : Handler V} (hc : h.isCheck = true) : h.takesRest = true := by
  cases h with
  | check h => rfl
  | _ => cases hc

/-- What the messages of a handler look like. -/
def Shape : Handler V → List RequestMessageType → Prop
  | .check _, _ => True
  | .checkParse _, ms => SingleSlice .parse ms
  | .checkClose _, ms => SingleSlice .close ms
  | .describeInto _, ms => SingleSlice .describe ms
  | .checkExecute _, ms | .resultsetCallback _, ms => ResultsetSlice ms
  | .resultsetsHandler _, ms => ∃ slices : List (List RequestMessageType), slices ≠ [] ∧
      (∀ s ∈ slices, ResultsetSlice s) ∧ ms = slices.flatten

/-- The private state `setup` leaves. -/
def reset : Handler V → Handler V
  | .check _ => .check {}
  | .checkParse _ => .checkParse {}
  | .checkClose _ => .checkClose {}
  | .checkExecute h => .checkExecute { info := h.info }
  | .describeInto h => .describeInto { obj := h.obj }
  | .resultsetCallback h => .resultsetCallback { h with state := .parsingMeta, err := {} }
  | .resultsetsHandler h => .resultsetsHandler { obj := h.obj }

/-- What `setup` does to the objects. -/
def clear : Handler V → World V → World V
  | .check _, w | .checkParse _, w | .checkClose _, w => w
  | .checkExecute h, w => w.updateInfo h.info fun _ => {}
  | .describeInto h, w => w.setDescriptions h.obj {}
  | .resultsetCallback h, w => w.updateInfo h.info fun _ => {}
  | .resultsetsHandler h, w => w.setResults h.obj {}

/-- What `setup` returns. -/
def setupResult (h : Handler V) (req : Request) (off : Nat) : Attempt HandlerSetupResult :=
  match h with
  | .check _ => .ok (.success, req.messages.length)
  | .checkParse _ => checkSetupImpl req off .parse
  | .checkClose _ => checkSetupImpl req off .close
  | .describeInto _ => checkSetupImpl req off .describe
  | .checkExecute _ | .resultsetCallback _ => resultsetSetup req off
  | .resultsetsHandler _ => resultsetsLoop req (req.messages.length + 1) off

/-- **What `setup` does**: the result depends on the class and the request only. -/
theorem setup_eq (h : Handler V) (req : Request) (off : Nat) (w : World V) :
    h.setup req off w = (h.setupResult req off).map fun res => (res, h.reset, h.clear w) := by
  cases h with
  | check h => rfl
  | checkExecute h | resultsetCallback h =>
    simp only [setup, setupResult]
    cases resultsetSetup req off <;> rfl
  | checkParse h =>
    simp only [setup, setupResult]
    cases checkSetupImpl req off .parse <;> rfl
  | checkClose h =>
    simp only [setup, setupResult]
    cases checkSetupImpl req off .close <;> rfl
  | describeInto h =>
    simp only [setup, setupResult]
    cases checkSetupImpl req off .describe <;> rfl
  | resultsetsHandler h =>
    simp only [setup, setupResult]
    cases resultsetsLoop req (req.messages.length + 1) off <;> rfl

/-- **The messages a handler takes.** -/
theorem setupResult_spec {h : Handler V} {req : Request} {off : Nat} {res : HandlerSetupResult}
    (hoff : off ≤ req.messages.length) (hres : h.setupResult req off = .ok res)
    (hec : res.1.failed = false) :
    ∃ slice, Splits req.messages off res.2 slice ∧ h.Shape slice ∧
      (h.takesRest = true → res.2 = req.messages.length) := by
  cases h with
  | check h =>
    cases hres
    refine ⟨req.messages.drop off, ⟨?_, ?_, Nat.le_refl _⟩, trivial, fun _ => rfl⟩
    · simp
    · rw [List.length_drop]
      omega
  | checkExecute h | resultsetCallback h =>
    obtain ⟨slice, hsplits, hslice⟩ := resultsetSetup_spec hres hec
    exact ⟨slice, hsplits, hslice, nofun⟩
  | checkParse h | checkClose h | describeInto h =>
    obtain ⟨slice, hsplits, hslice⟩ := checkSetupImpl_spec hres hec
    exact ⟨slice, hsplits, hslice, nofun⟩
  | resultsetsHandler h =>
    obtain ⟨hend, slices, hne, hslices, hsplits⟩ := resultsetsLoop_spec hres hec
    exact ⟨_, hsplits, ⟨slices, hne, hslices, rfl⟩, fun _ => hend⟩

theorem shape_reset (h : Handler V) : h.reset.Shape = h.Shape := by
  cases h <;> rfl

theorem takesRest_reset (h : Handler V) : h.reset.takesRest = h.takesRest := by
  cases h <;> rfl

end Handler

/-! ## 4. Responses -/

/-- `setup_request` succeeds: the request is accepted, and the handler takes all of it. -/
theorem setupRequest_success {req : Request} {res : HandlerSetupResult}
    (h : (NativePg.setupRequest req fun _ _ => res).failed = false) :
    req.Accepted ∧ res.1.failed = false ∧ res.2 = req.messages.length := by
  unfold NativePg.setupRequest at h
  cases haccepted : (checkRequest req).failed with
  | true =>
    rw [if_pos haccepted, haccepted] at h
    cases h
  | false =>
    rw [if_neg (by rw [haccepted]; nofun)] at h
    obtain ⟨ec, off⟩ := res
    simp only at h
    cases hfailed : ec.failed with
    | true =>
      rw [if_pos hfailed, hfailed] at h
      cases h
    | false =>
      rw [if_neg (by rw [hfailed]; nofun)] at h
      refine ⟨haccepted, rfl, ?_⟩
      by_contra hne
      rw [if_pos hne, ClientErrc.failed_code] at h
      cases h

section
variable {V : Type}

/-- **The messages of a request from an offset on, handler by handler.** -/
inductive Laid (ms : List RequestMessageType) : Nat → List (Handler V) → List Nat → Prop where
  | nil {off} : Laid ms off [] []
  | cons {off off' slice h hs offsets} (hsplits : Splits ms off off' slice) (hshape : h.Shape slice)
      (hend : h.takesRest = true → off' = ms.length) (hrest : Laid ms off' hs offsets) :
      Laid ms off (h :: hs) (off' :: offsets)

/-- The offset behind the last handler. -/
def lastOffset (off : Nat) (offsets : List Nat) : Nat := offsets.getLastD off

/-- The objects of several handlers, cleared one after the other. -/
def clearAll (hs : List (Handler V)) (w : World V) : World V := hs.foldl (fun w h => h.clear w) w

theorem responseSetup_laid {req : Request} : ∀ {hs : List (Handler V)} {offsets : List Nat}
    {off : Nat} {w : World V} {res : HandlerSetupResult} {hs' : List (Handler V)}
    {offsets' : List Nat} {w' : World V}, offsets.length = hs.length → off ≤ req.messages.length →
    responseSetup req hs offsets off w = .ok (res, hs', offsets', w') → res.1.failed = false →
    hs' = hs.map Handler.reset ∧ w' = clearAll hs w ∧ Laid req.messages off hs' offsets' ∧
      res.2 = lastOffset off offsets'
  | [], offsets, off, w, _, _, _, _, hlength, _, h, _ => by
      cases h
      obtain rfl := List.length_eq_zero_iff.mp hlength
      exact ⟨rfl, rfl, .nil, rfl⟩
  | h :: hs, offsets, off, w, res, _, _, _, hlength, hoff, hsetup, hec => by
      unfold responseSetup at hsetup
      rw [Handler.setup_eq] at hsetup
      cases hres : h.setupResult req off with
      | error e =>
        rw [hres] at hsetup
        cases hsetup
      | ok res₁ =>
        rw [hres] at hsetup
        simp only [Except.map, bind, Except.bind] at hsetup
        cases hec₁ : res₁.1.failed with
        | true =>
          rw [if_pos hec₁] at hsetup
          cases hsetup
          rw [hec₁] at hec
          cases hec
        | false =>
          rw [if_neg (by rw [hec₁]; nofun)] at hsetup
          obtain ⟨slice, hsplits, hshape, hend⟩ := Handler.setupResult_spec hoff hres hec₁
          cases hrest : responseSetup req hs offsets.tail res₁.2 (h.clear w) with
          | error e =>
            rw [hrest] at hsetup
            cases hsetup
          | ok r =>
            obtain ⟨res₂, hs₂, offsets₂, w₂⟩ := r
            rw [hrest] at hsetup
            cases hsetup
            have htail : offsets.tail.length = hs.length := by
              rw [List.length_tail, hlength]
              rfl
            obtain ⟨rfl, rfl, hlaid, hlast⟩ := responseSetup_laid htail hsplits.le hrest hec
            refine ⟨rfl, rfl, .cons hsplits ?_ ?_ hlaid, ?_⟩
            · rw [Handler.shape_reset]
              exact hshape
            · rw [Handler.takesRest_reset]
              exact hend
            · rw [hlast]
              cases offsets₂ <;> rfl

namespace Response

/-- A response that is set up for a request: its handlers share out all of the messages. -/
structure Ready (r : Response V) (req : Request) : Prop where
  accepted : req.Accepted
  laid : Laid req.messages 0 r.handlers r.offsets
  last : lastOffset 0 r.offsets = req.messages.length

/-- **`setup_request` succeeds only on a response that is then set up**, with all handlers as new
    and all objects cleared. The cursor is where it was. -/
theorem setupRequest_spec {r r' : Response V} {req : Request} {w w' : World V} {ec : ErrorCode}
    (hlength : r.offsets.length = r.handlers.length)
    (h : r.setupRequest req w = .ok (ec, r', w')) (hec : ec.failed = false) :
    r'.Ready req ∧ r'.handlers = r.handlers.map Handler.reset ∧ r'.current = r.current ∧
      w' = clearAll r.handlers w := by
  unfold setupRequest at h
  cases haccepted : (checkRequest req).failed with
  | true =>
    rw [if_pos haccepted] at h
    cases h
    rw [haccepted] at hec
    cases hec
  | false =>
    rw [if_neg (by rw [haccepted]; nofun)] at h
    unfold setup at h
    cases hsetup : responseSetup req r.handlers r.offsets 0 w with
    | error e =>
      rw [hsetup] at h
      cases h
    | ok s =>
      obtain ⟨res, hs, offsets, w₁⟩ := s
      rw [hsetup] at h
      cases h
      obtain ⟨-, hres, hoff⟩ := setupRequest_success hec
      obtain ⟨hhs, hw, hlaid, hlast⟩ := responseSetup_laid hlength (Nat.zero_le _) hsetup hres
      exact ⟨⟨haccepted, hlaid, hlast.symm.trans hoff⟩, hhs, rfl, hw⟩

theorem length_new (handlers : List (Handler V)) :
    (new handlers).offsets.length = (new handlers).handlers.length :=
  List.length_map _

end Response

end

end Responses

end NativePg
