/-
  File:      NativePg/Responses/Turns.lean
  Subject:   The calls for the messages of one resultset, in their order.

  * `isPlain`, `isDescription`, `isRow`, `isCompletion` -- the kinds of messages that are reported;
  * `replied_plain`, `replied_describe`, `replied_execute` -- what is reported for one message;
  * `Phase` -- where in its statements a query is. `heard_phase`: the phase follows the machine;
  * `Turn` -- one call for a resultset: the request message it is for, and what was reported for the
    resultset before. **`turn_of_answered`**: every call is in one of these places.
-/
import Mathlib.Data.List.Induction
import NativePg.Responses.Seen

namespace NativePg

namespace Responses

open ReadResponseFsm ReadResponse

/-! ## 1. Kinds of messages -/

/-- Neither data nor its description: parse and bind are done, or something has failed. -/
def isPlain : AnyRequestMessage → Bool
  | .parseComplete | .bindComplete | .errorResponse _ | .messageSkipped => true
  | _ => false

def isDescription : AnyRequestMessage → Bool
  | .rowDescription _ => true
  | _ => false

def isRow : AnyRequestMessage → Bool
  | .dataRow _ => true
  | _ => false

def isCompletion : AnyRequestMessage → Bool
  | .commandComplete _ | .portalSuspended => true
  | _ => false

/-- The answer to a describe: a description, or none. -/
def isSettled : AnyRequestMessage → Bool
  | .rowDescription _ | .errorResponse _ | .messageSkipped => true
  | _ => false

/-! ## 2. What is reported for one message -/

section
variable {c failed failed' : Bool} {m : RequestMessageType} {s : State}
  {xs : List AnyRequestMessage}

/-- Only an execute and a query are answered with more than one message. -/
theorem heard_nil (h : Heard c m s xs) (hm : m ≠ .execute) (hm' : m ≠ .query) :
    s = .msgFirst ∧ xs = [] := by
  cases h with
  | nil => exact ⟨rfl, rfl⟩
  | stays _ hs => cases hs <;> first | exact absurd rfl hm | exact absurd rfl hm'

/-- The answer to an execute, up to its end. -/
theorem heard_execute (h : Heard c .execute s xs) :
    ∀ x ∈ xs, isRow x = true ∨ isDescription x = true := by
  induction h with
  | nil => simp
  | stays _ hs ih =>
    intro x hx
    rcases List.mem_append.mp hx with hx | hx
    · exact ih x hx
    · cases hs with
      | execRow | execCopyOut =>
        obtain rfl := List.mem_singleton.mp hx
        simp [isRow, isDescription]
      | execCopyData | execCopyDone => cases hx

theorem replied_silent (h : Replied c failed m xs) (hm : isSyncOrFlush m = true) : xs = [] := by
  cases h with
  | flush => rfl
  | skipped hext | cut _ hext _ =>
    cases m <;> first | exact absurd hm (by decide) | exact absurd hext (by decide)
  | finished _ h hfin =>
    obtain ⟨rfl, rfl⟩ := heard_nil h (by rintro rfl; cases hm) (by rintro rfl; cases hm)
    cases hfin <;> first | rfl | exact absurd hm (by decide)

theorem replied_plain (h : Replied c failed m xs) (hm : isQuiet m = true) :
    ∀ x ∈ xs, isPlain x = true := by
  have hne : m ≠ .execute ∧ m ≠ .query := by constructor <;> (rintro rfl; cases hm)
  cases h with
  | flush => simp
  | skipped _ => simp [isPlain]
  | cut e _ h =>
    obtain ⟨-, rfl⟩ := heard_nil h hne.1 hne.2
    simp [isPlain]
  | finished _ h hfin =>
    obtain ⟨rfl, rfl⟩ := heard_nil h hne.1 hne.2
    cases hfin <;> first | exact absurd hm (by decide) | simp [isPlain]

/-- The answer to a describe is one message. -/
theorem replied_describe (h : Replied c failed .describe xs) : ∃ x, xs = [x] ∧ isSettled x = true := by
  cases h with
  | skipped _ => exact ⟨_, rfl, rfl⟩
  | cut e _ h =>
    obtain ⟨-, rfl⟩ := heard_nil h nofun nofun
    exact ⟨_, rfl, rfl⟩
  | finished _ h hfin =>
    obtain ⟨rfl, rfl⟩ := heard_nil h nofun nofun
    cases hfin <;> exact ⟨_, rfl, rfl⟩

/-- What an execute ends with. -/
def endsExecute : AnyRequestMessage → Bool
  | .commandComplete _ | .portalSuspended | .emptyQueryResponse | .errorResponse _
  | .messageSkipped => true
  | _ => false

/-- The answer to an execute: rows, maybe the description of a COPY OUT, and its end. -/
theorem replied_execute (h : Replied c failed .execute xs) :
    ∃ ys last, xs = ys ++ [last] ∧ (∀ y ∈ ys, isRow y = true ∨ isDescription y = true) ∧
      endsExecute last = true := by
  cases h with
  | skipped _ => exact ⟨[], _, rfl, by simp, rfl⟩
  | cut e _ h => exact ⟨_, _, rfl, heard_execute h, rfl⟩
  | finished _ h hfin => cases hfin <;> exact ⟨_, _, rfl, heard_execute h, rfl⟩

/-! ## 3. Queries -/

/-- Where a query is: between its statements, in the rows of one, or behind the last. -/
inductive Phase where
  | between
  | inside
  | behind
  deriving DecidableEq

/-- A message of a query; `none` where it cannot come. -/
def Phase.next : Phase → AnyRequestMessage → Option Phase
  | .between, .rowDescription _ => some .inside
  | .between, .emptyQueryResponse => some .behind
  | .inside, .dataRow _ => some .inside
  | .inside, .commandComplete _ => some .between
  | .between, .errorResponse _ | .inside, .errorResponse _ => some .behind
  | _, _ => none

/-- The phase behind some messages. -/
def Phase.run (p : Phase) (xs : List AnyRequestMessage) : Option Phase := xs.foldlM Phase.next p

/-- The phase a state of the machine belongs to. -/
def phaseOf : State → Phase
  | .queryRows | .queryCopyOut | .queryCopyOutNeedsCommandComplete => .inside
  | .queryNeedsReady => .behind
  | _ => .between

theorem Phase.run_append (p : Phase) (xs ys : List AnyRequestMessage) :
    p.run (xs ++ ys) = (p.run xs).bind (·.run ys) := by
  unfold Phase.run
  rw [List.foldlM_append]
  rfl

/-- **The phase follows the machine.** -/
theorem heard_phase (h : Heard c .query s xs) : Phase.run .between xs = some (phaseOf s) := by
  induction h with
  | nil => rfl
  | @stays s xs msg s' cs h hs ih =>
    rw [Phase.run_append, ih]
    cases hs with
    | queryCopyOut _ _ hs | queryRowDescription _ hs | queryBareComplete _ hs | queryComplete _ hs =>
      rcases hs with rfl | rfl <;> rfl
    | queryEmpty | queryRow | queryCopyData | queryCopyDone => rfl
    | queryError e hh hs =>
      cases s <;> first | rfl | exact absurd rfl hs

/-- In the middle of a statement one description more than completions was reported. -/
theorem phase_counts (xs : List AnyRequestMessage) : ∀ p, Phase.run .between xs = some p →
    (p = .between → xs.countP isDescription = xs.countP isCompletion) ∧
      (p = .inside → xs.countP isDescription = xs.countP isCompletion + 1) := by
  induction xs using List.reverseRecOn with
  | nil =>
    intro p h
    cases h
    exact ⟨fun _ => rfl, nofun⟩
  | append_singleton xs x ih =>
    intro p h
    rw [Phase.run_append] at h
    obtain ⟨q, hq, hnext⟩ := Option.bind_eq_some_iff.mp h
    obtain ⟨hbetween, hinside⟩ := ih q hq
    have hnext : q.next x = some p := by simpa [Phase.run] using hnext
    cases q <;> cases x <;> cases hnext <;>
      simp [isDescription, isCompletion, hbetween, hinside]

/-- The answer to a query ends between two statements, or behind the last. -/
theorem replied_query (h : Replied c failed .query xs) :
    ∃ p, Phase.run .between xs = some p ∧ p ≠ .inside := by
  cases h with
  | skipped hext | cut _ hext _ => cases hext
  | finished _ h hfin =>
    cases hfin with
    | query _ hs =>
      rw [List.append_nil]
      refine ⟨_, heard_phase h, ?_⟩
      rcases hs with rfl | rfl <;> exact nofun

end

/-! ## 4. Resultsets -/

/-- **One call for a resultset**: it is for the request message `m`, `seen` was reported for the
    resultset before, and it reports `msg`. -/
inductive Turn (c : Bool) :
    RequestMessageType → List AnyRequestMessage → AnyRequestMessage → Prop where
  | plain {m seen msg} (hm : m ≠ .execute) (hm' : m ≠ .query) (hmsg : isPlain msg = true) :
      Turn c m seen msg
  | describe {seen d} (hseen : ∀ x ∈ seen, isPlain x = true) :
      Turn c .describe seen (.rowDescription d)
  | execute {before seen msg rest failed}
      (hbefore : ∀ x ∈ before, isPlain x = true ∨ isDescription x = true)
      (hsettled : ∃ x ∈ before, isSettled x = true)
      (hreplied : Replied c failed .execute (seen ++ msg :: rest)) :
      Turn c .execute (before ++ seen) msg
  | query {seen msg rest failed} (hreplied : Replied c failed .query (seen ++ msg :: rest)) :
      Turn c .query seen msg

section
variable {c failed failed' : Bool} {i : Nat} {ms : List RequestMessageType} {cs : List Call}

theorem answered_silent (h : Answered c failed i ms cs failed')
    (hms : ∀ m ∈ ms, isSyncOrFlush m = true) : cs = [] := by
  induction h with
  | nil => rfl
  | cons h _ ih =>
    obtain ⟨hm, hms⟩ := List.forall_mem_cons.mp hms
    rw [replied_silent h hm, ih hms]
    rfl

theorem answered_plain (h : Answered c failed i ms cs failed') (hms : ∀ m ∈ ms, isQuiet m = true) :
    ∀ call ∈ cs, isPlain call.msg = true := by
  induction h with
  | nil => simp
  | cons h _ ih =>
    obtain ⟨hm, hms⟩ := List.forall_mem_cons.mp hms
    intro call hcall
    rcases List.mem_append.mp hcall with hcall | hcall
    · obtain ⟨x, hx, rfl⟩ := List.mem_map.mp hcall
      exact replied_plain h hm x hx
    · exact ih hms call hcall

/-- The calls for the first of some messages. -/
theorem answered_cons {m : RequestMessageType} (h : Answered c failed i (m :: ms) cs failed') :
    ∃ xs cs' mid, cs = xs.map (⟨·, i⟩) ++ cs' ∧ Replied c failed m xs ∧
      Answered c mid (i + 1) ms cs' failed' := by
  cases h with
  | cons h hrest => exact ⟨_, _, _, rfl, h, hrest⟩

end

/-- A place in one list, in front of another. -/
theorem append_eq_split {α : Type} {xs ys pre post : List α} {x : α}
    (h : xs ++ ys = pre ++ x :: post) :
    (∃ post', xs = pre ++ x :: post') ∨ ∃ pre', pre = xs ++ pre' ∧ ys = pre' ++ x :: post := by
  rcases List.append_eq_append_iff.mp h with ⟨pre', hpre, hys⟩ | ⟨rest, hxs, hrest⟩
  · exact .inr ⟨pre', hpre, hys⟩
  · cases rest with
    | nil =>
      refine .inr ⟨[], by simpa using hxs.symm, ?_⟩
      simpa using hrest.symm
    | cons y rest =>
      cases hrest
      exact .inl ⟨rest, hxs⟩

section
variable {c failed failed' : Bool} {i : Nat} {slice : List RequestMessageType} {cs pre post : List Call}
  {call : Call}

theorem map_msg (xs : List AnyRequestMessage) (i : Nat) :
    (xs.map fun x => (⟨x, i⟩ : Call)).map (·.msg) = xs := by
  simp [Function.comp_def]

/-- A place in the calls of one message. -/
theorem split_map {xs : List AnyRequestMessage} {pre' post' : List Call}
    (h : xs.map (⟨·, i⟩) = pre' ++ call :: post') :
    ∃ seen rest, xs = seen ++ call.msg :: rest ∧ pre'.map (·.msg) = seen ∧ call.offset = i := by
  have hmsgs := congrArg (List.map (·.msg)) h
  rw [map_msg, List.map_append, List.map_cons] at hmsgs
  refine ⟨_, _, hmsgs, rfl, ?_⟩
  have hmem : call ∈ xs.map (fun x => (⟨x, i⟩ : Call)) := by rw [h]; simp
  obtain ⟨x, -, rfl⟩ := List.mem_map.mp hmem
  rfl

/-- A call for quiet messages. -/
theorem turn_of_quiet {ms : List RequestMessageType} (hms : ∀ m ∈ ms, isQuiet m = true)
    (h : Answered c failed i ms cs failed') (hcall : call ∈ cs) (seen : List AnyRequestMessage) :
    ∃ d m, d < ms.length ∧ call.offset = i + d ∧ ms[d]? = some m ∧ Turn c m seen call.msg := by
  obtain ⟨hle, hlt⟩ := h.offset_lt call hcall
  have hd : call.offset - i < ms.length := by omega
  have hm := hms _ (List.getElem_mem hd)
  refine ⟨call.offset - i, ms[call.offset - i], hd, by omega, List.getElem?_eq_getElem hd, ?_⟩
  refine .plain ?_ ?_ (answered_plain h hms call hcall)
  · intro hexec
    rw [hexec] at hm
    cases hm
  · intro hquery
    rw [hquery] at hm
    cases hm

/-- **The calls for the messages of one resultset**: those of the query, or those of the describe and
    of the execute with what is reported for the messages before them. -/
inductive ResultsetAnswer (c : Bool) (i : Nat) : List RequestMessageType → List Call → Prop where
  | query {ms xs b} (hreplied : Replied c b .query xs) :
      ResultsetAnswer c i (ms ++ [.query]) (xs.map (⟨·, i + ms.length⟩))
  | extended {ms mid post x ys cs₁ cs₂ b b₁ b₁' b₂ b₂'} (hms : ∀ m ∈ ms, isQuiet m = true)
      (hmid : ∀ m ∈ mid, isQuiet m = true) (hpost : ∀ m ∈ post, isSyncOrFlush m = true)
      (h₁ : Answered c b₁ i ms cs₁ b₁') (hx : isSettled x = true)
      (h₂ : Answered c b₂ (i + ms.length + 1) mid cs₂ b₂') (hreplied : Replied c b .execute ys) :
      ResultsetAnswer c i (ms ++ .describe :: (mid ++ .execute :: post))
        (cs₁ ++ ⟨x, i + ms.length⟩ :: (cs₂ ++ ys.map (⟨·, i + ms.length + 1 + mid.length⟩)))

theorem answered_resultset (hslice : ResultsetSlice slice)
    (h : Answered c failed i slice cs failed') : ResultsetAnswer c i slice cs := by
  cases hslice with
  | @query ms hms =>
    obtain ⟨cs₁, cs₂, mid, rfl, h₁, h₂⟩ := h.split
    obtain rfl := answered_silent h₁ hms
    obtain ⟨xs, cs₃, _, rfl, hreplied, hnil⟩ := answered_cons h₂
    cases hnil
    rw [List.nil_append, List.append_nil]
    exact .query hreplied
  | @extended ms mid post hms hmid hpost =>
    obtain ⟨cs₁, cs₂, _, rfl, h₁, h₂⟩ := h.split
    obtain ⟨xs, cs₃, _, rfl, hdescribe, h₃⟩ := answered_cons h₂
    obtain ⟨cs₄, cs₅, _, rfl, h₄, h₅⟩ := h₃.split
    obtain ⟨ys, cs₆, _, rfl, hexecute, h₆⟩ := answered_cons h₅
    obtain rfl := answered_silent h₆ hpost
    obtain ⟨x, rfl, hx⟩ := replied_describe hdescribe
    rw [List.append_nil]
    exact .extended hms hmid hpost h₁ hx h₄ hexecute

/-- **Every call for a resultset is one of its turns.** -/
theorem turn_of_answered (hslice : ResultsetSlice slice) (h : Answered c failed i slice cs failed')
    (hsplit : cs = pre ++ call :: post) :
    ∃ d m, call.offset = i + d ∧ slice[d]? = some m ∧ Turn c m (pre.map (·.msg)) call.msg := by
  cases answered_resultset hslice h with
  | @query ms xs b hreplied =>
    obtain ⟨seen, rest, rfl, rfl, hoffset⟩ := split_map hsplit
    exact ⟨ms.length, .query, hoffset, by simp, .query hreplied⟩
  | @extended ms mid _ x ys cs₁ cs₂ _ _ _ _ _ hms hmid _ h₁ hx h₂ hreplied =>
    rcases append_eq_split hsplit with ⟨_, rfl⟩ | ⟨pre₁, rfl, hsplit₁⟩
    · -- before the describe
      obtain ⟨d, m, hd, hoffset, hm, hturn⟩ :=
        turn_of_quiet hms h₁ (show call ∈ _ by simp) (pre.map (·.msg))
      exact ⟨d, m, hoffset, by rw [List.getElem?_append_left hd, hm], hturn⟩
    have hplain₁ : ∀ y ∈ cs₁.map (·.msg), isPlain y = true := by
      simpa using answered_plain h₁ hms
    cases pre₁ with
    | nil =>
      -- the describe itself
      cases hsplit₁
      refine ⟨ms.length, .describe, rfl, by simp, ?_⟩
      rw [List.append_nil]
      cases x with
      | rowDescription d => exact .describe hplain₁
      | errorResponse e | messageSkipped => exact .plain nofun nofun rfl
      | _ => cases hx
    | cons y pre₁ =>
      obtain ⟨rfl, hsplit₂⟩ := List.cons.inj hsplit₁
      rcases append_eq_split hsplit₂ with ⟨_, rfl⟩ | ⟨pre₂, rfl, hsplit₃⟩
      · -- between describe and execute
        obtain ⟨d, m, hd, hoffset, hm, hturn⟩ := turn_of_quiet hmid h₂ (show call ∈ _ by simp) _
        refine ⟨ms.length + 1 + d, m, by omega, ?_, hturn⟩
        rw [List.getElem?_append_right (by omega)]
        have hindex : ms.length + 1 + d - ms.length = d + 1 := by omega
        rw [hindex, List.getElem?_cons_succ, List.getElem?_append_left hd, hm]
      · -- the execute
        obtain ⟨seen, rest, rfl, rfl, hoffset⟩ := split_map hsplit₃
        refine ⟨ms.length + 1 + mid.length, .execute, by omega, ?_, ?_⟩
        · rw [List.getElem?_append_right (by omega)]
          have hindex : ms.length + 1 + mid.length - ms.length = mid.length + 1 := by omega
          rw [hindex, List.getElem?_cons_succ, List.getElem?_append_right (Nat.le_refl _)]
          simp
        · have hplain₂ : ∀ y ∈ cs₂.map (·.msg), isPlain y = true := by
            simpa using answered_plain h₂ hmid
          have hmap : (cs₁ ++ ⟨x, i + ms.length⟩ :: (cs₂ ++ pre₂)).map (·.msg) =
              (cs₁.map (·.msg) ++ x :: cs₂.map (·.msg)) ++ pre₂.map (·.msg) := by
            simp
          rw [hmap]
          refine .execute (fun y hy => ?_) ⟨x, by simp, hx⟩ hreplied
          rcases List.mem_append.mp hy with hy | hy
          · exact .inl (hplain₁ y hy)
          · rcases List.mem_cons.mp hy with rfl | hy
            · cases y with
              | rowDescription d => exact .inr rfl
              | errorResponse e | messageSkipped => exact .inl rfl
              | _ => cases hx
            · exact .inl (hplain₂ y hy)

/-- A call for a query comes in its phase. -/
theorem Turn.phase {seen : List AnyRequestMessage} {msg : AnyRequestMessage}
    (h : Turn c .query seen msg) :
    ∃ p p', Phase.run .between seen = some p ∧ p.next msg = some p' := by
  cases h with
  | plain _ hm' _ => exact absurd rfl hm'
  | query hreplied =>
    obtain ⟨p, hp, -⟩ := replied_query hreplied
    rw [Phase.run_append] at hp
    obtain ⟨q, hq, hnext⟩ := Option.bind_eq_some_iff.mp hp
    obtain ⟨q', hq', -⟩ := Option.bind_eq_some_iff.mp hnext
    exact ⟨q, q', hq, hq'⟩

/-- **Rows come behind a description**, or behind the failure of the message that asked for one. -/
theorem Turn.settled {m : RequestMessageType} {seen : List AnyRequestMessage} {d : DataRow}
    (h : Turn c m seen (.dataRow d)) : ∃ x ∈ seen, isSettled x = true := by
  cases h with
  | plain _ _ hmsg => cases hmsg
  | execute _ hsettled _ =>
    obtain ⟨x, hx, hset⟩ := hsettled
    exact ⟨x, List.mem_append_left _ hx, hset⟩
  | query hreplied =>
    obtain ⟨p, p', hp, hnext⟩ := Turn.phase (.query hreplied)
    obtain rfl : p = .inside := by cases p <;> first | rfl | cases hnext
    have hpos : 0 < seen.countP isDescription := by
      rw [(phase_counts seen _ hp).2 rfl]
      omega
    obtain ⟨x, hx, hdesc⟩ := List.countP_pos_iff.mp hpos
    refine ⟨x, hx, ?_⟩
    cases x with
    | rowDescription d => rfl
    | _ => cases hdesc

end

/-! ## 5. The calls of a handler -/

section
variable {V : Type} {r : Response V} {req : Request} {allowCopy : Bool}
  {msgs : List AnyBackendMessage} {run : Run}

/-- **What a handler of a response gets, to a call of its own**: the first calls of an answer to its
    messages. -/
theorem Response.Ready.answered (h : r.Ready req)
    (hrun : (readResponseFsm req allowCopy).feed msgs = .ok run) {pre post : List Call} {call : Call}
    (hcalls : run.calls = pre ++ call :: post) {k : Nat} (howns : Owns r.offsets k call.offset)
    {x : Handler V} (hx : r.handlers[k]? = some x) :
    ∃ i j slice rest b b', Splits req.messages i j slice ∧ x.Shape slice ∧
      Answered allowCopy b i slice (callsOf r.offsets k pre ++ call :: rest) b' := by
  obtain ⟨msgs', run', hrun', hfin, calls', heq⟩ := feed_extends (Wf.init h.accepted allowCopy) hrun
  have hanswered : Answered allowCopy false 0 (req.messages.drop 0) run'.calls false :=
    feed_answered h.accepted allowCopy hrun' hfin
  rw [← heq, hcalls] at hanswered
  obtain ⟨i, j, slice, b, b', hsplits, hshape, hslice⟩ := h.laid.answered hanswered hx
  refine ⟨i, j, slice, callsOf r.offsets k (post ++ calls'), b, b', hsplits, hshape, ?_⟩
  rw [List.append_assoc, List.cons_append, callsOf_append, callsOf_cons howns] at hslice
  exact hslice

/-- **A call for a handler of one resultset.** -/
theorem Response.Ready.turn (h : r.Ready req)
    (hrun : (readResponseFsm req allowCopy).feed msgs = .ok run) {pre post : List Call} {call : Call}
    (hcalls : run.calls = pre ++ call :: post) {k : Nat} (howns : Owns r.offsets k call.offset)
    {x : Handler V} (hx : r.handlers[k]? = some x)
    (hshape : ∀ slice, x.Shape slice → ResultsetSlice slice) :
    ∃ m, req.messages[call.offset]? = some m ∧
      Turn allowCopy m (seenBy r.offsets k pre) call.msg := by
  obtain ⟨i, j, slice, rest, b, b', hsplits, hslice, hanswered⟩ := h.answered hrun hcalls howns hx
  obtain ⟨d, m, hoffset, hm, hturn⟩ := turn_of_answered (hshape slice hslice) hanswered rfl
  refine ⟨m, ?_, hturn⟩
  rw [hoffset, hsplits.getElem? (List.getElem?_eq_some_iff.mp hm).1, hm]

end

end Responses

end NativePg
