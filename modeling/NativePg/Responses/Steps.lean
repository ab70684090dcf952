/-
  File:      NativePg/Responses/Steps.lean
  Subject:   What one message does to a handler.

  * `keepFirst` -- every handler keeps its first error. `errorOf`, `descriptionError`, `rowError`:
    the errors there are;
  * `CheckExecute.onMessage_ok`, ..., `ResultsetsHandler.onMessage_ok` -- a message that a handler
    returns from, class by class;
  * **`constructed_onMessage`** -- of any handler: its arguments stay. `onMessage_results`: only a
    resultsets handler writes to a `resultsets` object;
  * `xyCallback` -- a callback with two members, for runs on fixed messages.
-/
import NativePg.Lib.Outcomes
import NativePg.Responses.Setup

namespace NativePg

namespace Responses

/-! ## 1. Assertions and errors -/

theorem boostAssert_eq_ok {ndebug cond : Bool} {u : Unit} :
    boostAssert ndebug cond = .ok u ↔ ndebug = true ∨ cond = true := by
  unfold boostAssert
  cases ndebug <;> cases cond <;> simp

/-- An object that has an error keeps it. -/
def keepFirst (err : ExtendedError) : Option ExtendedError → ExtendedError
  | none => err
  | some e => if err.code.failed then err else e

/-- The error of a code, if it is one. -/
def ofCode (ec : ErrorCode) : Option ExtendedError :=
  if ec.failed then some { code := ec } else none

theorem failed_ofCode {ec : ErrorCode} {e : ExtendedError} (h : ofCode ec = some e) :
    e.code.failed = true := by
  unfold ofCode at h
  cases hec : ec.failed with
  | false =>
    rw [hec] at h
    cases h
  | true =>
    rw [hec] at h
    cases h
    exact hec

/-- The error an ErrorResponse is. -/
def errorOf : AnyRequestMessage → Option ExtendedError
  | .errorResponse err => some (storeError err)
  | _ => none

theorem maybeStoreErrorOf_eq (msg : AnyRequestMessage) (err : ExtendedError) :
    maybeStoreErrorOf msg err = keepFirst err (errorOf msg) := by
  cases msg <;> rfl

section
variable {V : Type}

namespace World

theorem updateInfo_results (w : World V) (info : Option Nat) (f : CommandInfo → CommandInfo) :
    (w.updateInfo info f).results = w.results := by
  cases info <;> rfl

theorem setResults_self (w : World V) (obj : Nat) (r : Resultsets) :
    (w.setResults obj r).results obj = r :=
  Function.update_self _ _ _

end World

/-! ## 2. Messages a handler returns from -/

/-- The loop over a view reads its items, and there are as many as it says. -/
theorem walk_eq_ok {α : Type} {v : ForwardParsingView} {t : ItemTraits α} {items : List α} :
    walk v t = .ok items ↔
      iterate t v.size v.data = .ok (some items) ∧ items.length = v.size := by
  unfold walk ForwardParsingView.items?
  cases iterate t v.size v.data with
  | error e => exact ⟨nofun, fun h => by cases h.1⟩
  | ok o =>
    cases o with
    | none => exact ⟨nofun, fun h => by cases h.1⟩
    | some xs =>
      simp only [bind, Except.bind, pure, Except.pure, Option.filter_some, decide_eq_true_eq]
      by_cases hlength : xs.length = v.size
      · rw [if_pos hlength]
        refine ⟨fun h => ?_, fun h => ?_⟩
        · cases h
          exact ⟨rfl, hlength⟩
        · cases h.1
          rfl
      · rw [if_neg hlength]
        refine ⟨nofun, fun h => ?_⟩
        cases h.1
        exact absurd h.2 hlength

/-- A view yields as many items as it says. -/
theorem length_of_walk {α : Type} {v : ForwardParsingView} {t : ItemTraits α} {items : List α}
    (h : walk v t = .ok items) : items.length = v.size := (walk_eq_ok.mp h).2

theorem CheckExecute.onMessage_ok {ndebug : Bool} {h h' : CheckExecute} {msg : AnyRequestMessage}
    {w w' : World V} (hmsg : h.onMessage ndebug msg w = .ok (h', w')) :
    h' = { h with err := keepFirst h.err (errorOf msg) } ∧ w'.results = w.results := by
  cases msg with
  | bindComplete | parseComplete | rowDescription _ | dataRow _ | errorResponse _ =>
    cases hmsg
    exact ⟨rfl, rfl⟩
  | commandComplete _ | portalSuspended =>
    cases hmsg
    exact ⟨rfl, w.updateInfo_results _ _⟩
  | closeComplete | parameterDescription _ | emptyQueryResponse | messageSkipped =>
    obtain ⟨_, _, hpure⟩ := bind_eq_ok.mp hmsg
    cases hpure
    exact ⟨rfl, rfl⟩

theorem DescribeInto.onMessage_ok {ndebug : Bool} {h h' : DescribeInto} {msg : AnyRequestMessage}
    {w w' : World V} (hmsg : h.onMessage ndebug msg w = .ok (h', w')) :
    h' = { h with err := keepFirst h.err (errorOf msg) } ∧ w'.results = w.results := by
  cases msg with
  | parameterDescription _ | errorResponse _ =>
    cases hmsg
    exact ⟨rfl, rfl⟩
  | rowDescription _ | parseComplete | bindComplete | dataRow _ | commandComplete _
  | portalSuspended | closeComplete | emptyQueryResponse | messageSkipped =>
    obtain ⟨_, _, hpure⟩ := bind_eq_ok.mp hmsg
    cases hpure
    exact ⟨rfl, rfl⟩

namespace ResultsetCallback

/-- What a row description gives: the code that is stored. -/
def descriptionError (members : List (Member V)) (fields : List FieldDescription) : ErrorCode :=
  let p := computePosMap fields (members.map (·.name))
  if p.1.failed then p.1 else firstError (compatibility members p.2)

theorem storeError_eq (h : ResultsetCallback V) {ec : ErrorCode} (hec : ec.failed = true) :
    h.storeError ec = { h with err := keepFirst h.err (ofCode ec) } := by
  unfold ResultsetCallback.storeError ofCode keepFirst
  rw [if_pos hec]
  cases h.err.code.failed <;> rfl

theorem onRowDescription_eq (ndebug : Bool) (h : ResultsetCallback V) (msg : RowDescription) :
    h.onRowDescription ndebug msg = (do
      boostAssert ndebug (h.state = .parsingMeta)
      let fields ← walk msg.fieldDescriptions fieldDescriptionTraits
      pure { h with
        state := .parsingData
        posMap := some (computePosMap fields (h.members.map (·.name))).2
        err := keepFirst h.err (ofCode (descriptionError h.members fields)) }) := by
  unfold onRowDescription
  cases boostAssert ndebug (h.state = .parsingMeta) with
  | error e => rfl
  | ok _ =>
    cases walk msg.fieldDescriptions fieldDescriptionTraits with
    | error e => rfl
    | ok fields =>
      simp only [bind, Except.bind, descriptionError]
      cases hmap : (computePosMap fields (h.members.map (·.name))).1.failed with
      | true =>
        simp only [if_true]
        rw [storeError_eq _ hmap]
      | false =>
        simp only [Bool.false_eq_true, if_false]
        cases hec : (firstError (compatibility h.members
            (computePosMap fields (h.members.map (·.name))).2)).failed with
        | true =>
          simp only [if_true]
          rw [storeError_eq _ hec]
        | false =>
          rw [ofCode, hec]
          rfl

/-- A row: it is dropped where there is an error already, else parsed. -/
theorem onDataRow_ok {ndebug : Bool} {h h' : ResultsetCallback V} {msg : DataRow} {w w' : World V}
    (hmsg : h.onDataRow ndebug msg w = .ok (h', w')) :
    (ndebug = true ∨ h.state = .parsingData) ∧ w'.results = w.results ∧
      ((h.err.code.failed = true ∧ h' = h) ∨
        (h.err.code.failed = false ∧ ∃ data posMap row,
          walk msg.columns fieldViewTraits = .ok data ∧ h.posMap = some posMap ∧
          parseRow data h.members posMap = .ok row ∧
          h' = { h with
            randomAccessData := data
            err := keepFirst h.err (ofCode (firstError (row.map (·.1)))) })) := by
  obtain ⟨_, hassert, hmsg⟩ := bind_eq_ok.mp hmsg
  have hstate : ndebug = true ∨ h.state = .parsingData := by
    simpa using boostAssert_eq_ok.mp hassert
  refine ⟨hstate, ?_⟩
  cases herr : h.err.code.failed with
  | true =>
    rw [if_pos herr] at hmsg
    cases hmsg
    exact ⟨rfl, .inl ⟨rfl, rfl⟩⟩
  | false =>
    rw [if_neg (by rw [herr]; nofun)] at hmsg
    obtain ⟨data, hdata, hmsg⟩ := bind_eq_ok.mp hmsg
    cases hmap : h.posMap with
    | none =>
      simp only [hmap] at hmsg
      cases hmsg
    | some posMap =>
      simp only [hmap] at hmsg
      obtain ⟨row, hrow, hmsg⟩ := bind_eq_ok.mp hmsg
      cases hec : (firstError (row.map (·.1))).failed with
      | true =>
        rw [if_pos hec, storeError_eq _ hec] at hmsg
        cases hmsg
        exact ⟨rfl, .inr ⟨rfl, data, posMap, row, hdata, rfl, hrow, by rw [← hmap]⟩⟩
      | false =>
        rw [if_neg (by rw [hec]; nofun)] at hmsg
        cases hmsg
        refine ⟨rfl, .inr ⟨rfl, data, posMap, row, hdata, rfl, hrow, ?_⟩⟩
        rw [ofCode, if_neg (by rw [hec]; nofun), ← hmap]
        rfl

/-- What a resultset callback is left with by a message it returns from. -/
inductive Left (h : ResultsetCallback V) : AnyRequestMessage → ResultsetCallback V → Prop where
  | error (e : ErrorResponse) :
      Left h (.errorResponse e) { h with err := keepFirst h.err (some (Responses.storeError e)) }
  | parseComplete : Left h .parseComplete h
  | bindComplete : Left h .bindComplete h
  | description {d fields} (hwalk : walk d.fieldDescriptions fieldDescriptionTraits = .ok fields) :
      Left h (.rowDescription d) { h with
        state := .parsingData
        posMap := some (computePosMap fields (h.members.map (·.name))).2
        err := keepFirst h.err (ofCode (descriptionError h.members fields)) }
  | dropped (d : DataRow) (herr : h.err.code.failed = true) : Left h (.dataRow d) h
  | row {d data posMap row} (herr : h.err.code.failed = false)
      (hwalk : walk d.columns fieldViewTraits = .ok data) (hmap : h.posMap = some posMap)
      (hrow : parseRow data h.members posMap = .ok row) :
      Left h (.dataRow d) { h with
        randomAccessData := data
        err := keepFirst h.err (ofCode (firstError (row.map (·.1)))) }
  | complete (tag : Bytes) : Left h (.commandComplete tag) { h with state := .done }
  | suspended : Left h .portalSuspended { h with state := .done }
  | skipped : Left h .messageSkipped
      { h with err := keepFirst h.err (ofCode ClientErrc.stepSkipped.code) }
  | unexpected {msg} (hmsg : msg = .closeComplete ∨ (∃ d, msg = .parameterDescription d) ∨
        msg = .emptyQueryResponse) :
      Left h msg { h with err := keepFirst h.err (ofCode ClientErrc.incompatibleResponseType.code) }

theorem onMessage_ok {ndebug : Bool} {h h' : ResultsetCallback V} {msg : AnyRequestMessage}
    {w w' : World V} (hmsg : h.onMessage ndebug msg w = .ok (h', w')) :
    h.Left msg h' ∧ w'.results = w.results := by
  cases msg with
  | errorResponse e =>
    cases hmsg
    exact ⟨.error e, rfl⟩
  | parseComplete =>
    cases hmsg
    exact ⟨.parseComplete, rfl⟩
  | bindComplete =>
    cases hmsg
    exact ⟨.bindComplete, rfl⟩
  | rowDescription d =>
    obtain ⟨_, hd, hpure⟩ := bind_eq_ok.mp hmsg
    cases hpure
    rw [onRowDescription_eq] at hd
    obtain ⟨_, -, hd⟩ := bind_eq_ok.mp hd
    obtain ⟨fields, hwalk, hpure⟩ := bind_eq_ok.mp hd
    cases hpure
    exact ⟨.description hwalk, rfl⟩
  | dataRow d =>
    obtain ⟨-, hresults, ⟨herr, rfl⟩ | ⟨herr, data, posMap, row, hwalk, hmap, hrow, rfl⟩⟩ :=
      onDataRow_ok hmsg
    · exact ⟨.dropped d herr, hresults⟩
    · exact ⟨.row herr hwalk hmap hrow, hresults⟩
  | commandComplete tag =>
    obtain ⟨_, hdone, hpure⟩ := bind_eq_ok.mp hmsg
    cases hpure
    obtain ⟨_, -, hpure⟩ := bind_eq_ok.mp hdone
    cases hpure
    exact ⟨.complete tag, w.updateInfo_results _ _⟩
  | portalSuspended =>
    obtain ⟨_, hdone, hpure⟩ := bind_eq_ok.mp hmsg
    cases hpure
    obtain ⟨_, -, hpure⟩ := bind_eq_ok.mp hdone
    cases hpure
    exact ⟨.suspended, w.updateInfo_results _ _⟩
  | messageSkipped =>
    cases hmsg
    rw [storeError_eq _ (ClientErrc.failed_code _)]
    exact ⟨.skipped, rfl⟩
  | closeComplete | parameterDescription _ | emptyQueryResponse =>
    obtain ⟨_, -, hpure⟩ := bind_eq_ok.mp hmsg
    cases hpure
    rw [storeError_eq _ (ClientErrc.failed_code _)]
    exact ⟨.unexpected (by simp), rfl⟩

end ResultsetCallback

namespace ResultsetsHandler

/-- Messages a resultsets handler returns from. -/
theorem onMessage_ok {ndebug : Bool} {h h' : ResultsetsHandler} {msg : AnyRequestMessage}
    {w w' : World V} (hmsg : h.onMessage ndebug msg w = .ok (h', w')) :
    h'.obj = h.obj ∧ h'.err = keepFirst h.err (errorOf msg) := by
  cases msg with
  | bindComplete | parseComplete =>
    cases hmsg
    exact ⟨rfl, rfl⟩
  | rowDescription d | dataRow d =>
    obtain ⟨_, -, hmsg⟩ := bind_eq_ok.mp hmsg
    obtain ⟨_, -, hpure⟩ := bind_eq_ok.mp hmsg
    cases hpure
    exact ⟨rfl, rfl⟩
  | commandComplete tag | portalSuspended =>
    obtain ⟨_, -, hmsg⟩ := bind_eq_ok.mp hmsg
    obtain ⟨_, -, hpure⟩ := bind_eq_ok.mp hmsg
    cases hpure
    exact ⟨rfl, rfl⟩
  | errorResponse e =>
    obtain ⟨_, -, hpure⟩ := bind_eq_ok.mp hmsg
    cases hpure
    exact ⟨rfl, rfl⟩
  | closeComplete | parameterDescription _ | emptyQueryResponse | messageSkipped =>
    obtain ⟨_, -, hpure⟩ := bind_eq_ok.mp hmsg
    cases hpure
    exact ⟨rfl, rfl⟩

end ResultsetsHandler

/-! ## 3. Any handler -/

namespace Handler

/-- The object with the same arguments, as its constructor leaves it. -/
def constructed : Handler V → Handler V
  | .check _ => .check {}
  | .checkParse _ => .checkParse {}
  | .checkClose _ => .checkClose {}
  | .checkExecute h => .checkExecute { info := h.info }
  | .describeInto h => .describeInto { obj := h.obj }
  | .resultsetCallback h =>
    .resultsetCallback { members := h.members, cb := h.cb, info := h.info }
  | .resultsetsHandler h => .resultsetsHandler { obj := h.obj }

theorem constructed_reset (h : Handler V) : h.reset.constructed = h.constructed := by
  cases h <;> rfl

/-- **A message changes no argument of a handler.** -/
theorem constructed_onMessage {ndebug : Bool} {h h' : Handler V} {msg : AnyRequestMessage}
    {w w' : World V} (hmsg : h.onMessage ndebug msg w = .ok (h', w')) :
    h'.constructed = h.constructed := by
  cases h with
  | check h | checkParse h | checkClose h =>
    cases hmsg
    rfl
  | checkExecute h =>
    obtain ⟨p, hp, heq⟩ := map_eq_ok.mp hmsg
    cases heq
    rw [(CheckExecute.onMessage_ok hp).1]
    rfl
  | describeInto h =>
    obtain ⟨p, hp, heq⟩ := map_eq_ok.mp hmsg
    cases heq
    rw [(DescribeInto.onMessage_ok hp).1]
    rfl
  | resultsetCallback h =>
    obtain ⟨p, hp, heq⟩ := map_eq_ok.mp hmsg
    cases heq
    have hleft := (ResultsetCallback.onMessage_ok hp).1
    generalize p.1 = h' at hleft
    cases hleft <;> rfl
  | resultsetsHandler h =>
    obtain ⟨p, hp, heq⟩ := map_eq_ok.mp hmsg
    cases heq
    simp only [constructed, (ResultsetsHandler.onMessage_ok hp).1]

/-- An object that is a callback behind a message was one before it. -/
theorem onMessage_eq_callback {ndebug : Bool} {h : Handler V} {cb' : ResultsetCallback V}
    {msg : AnyRequestMessage} {w w' : World V}
    (hmsg : h.onMessage ndebug msg w = .ok (.resultsetCallback cb', w')) :
    ∃ cb, h = .resultsetCallback cb ∧ cb.onMessage ndebug msg w = .ok (cb', w') := by
  cases h with
  | resultsetCallback cb =>
    obtain ⟨p, hp, heq⟩ := map_eq_ok.mp hmsg
    cases heq
    exact ⟨cb, rfl, hp⟩
  | check h | checkParse h | checkClose h => cases hmsg
  | checkExecute h | describeInto h | resultsetsHandler h =>
    obtain ⟨p, hp, heq⟩ := map_eq_ok.mp hmsg
    cases heq

/-- The same of a resultsets handler. -/
theorem onMessage_eq_resultsets {ndebug : Bool} {h : Handler V} {rs' : ResultsetsHandler}
    {msg : AnyRequestMessage} {w w' : World V}
    (hmsg : h.onMessage ndebug msg w = .ok (.resultsetsHandler rs', w')) :
    ∃ rs, h = .resultsetsHandler rs ∧ rs.onMessage ndebug msg w = .ok (rs', w') := by
  cases h with
  | resultsetsHandler rs =>
    obtain ⟨p, hp, heq⟩ := map_eq_ok.mp hmsg
    cases heq
    exact ⟨rs, rfl, hp⟩
  | check h | checkParse h | checkClose h => cases hmsg
  | checkExecute h | describeInto h | resultsetCallback h =>
    obtain ⟨p, hp, heq⟩ := map_eq_ok.mp hmsg
    cases heq

/-- Only a resultsets handler writes to a `resultsets` object. -/
theorem onMessage_results {ndebug : Bool} {h h' : Handler V} {msg : AnyRequestMessage}
    {w w' : World V} (hmsg : h.onMessage ndebug msg w = .ok (h', w')) :
    w'.results = w.results ∨ ∃ rs, h = .resultsetsHandler rs := by
  cases h with
  | check h | checkParse h | checkClose h =>
    cases hmsg
    exact .inl rfl
  | checkExecute h =>
    obtain ⟨p, hp, heq⟩ := map_eq_ok.mp hmsg
    cases heq
    exact .inl (CheckExecute.onMessage_ok hp).2
  | describeInto h =>
    obtain ⟨p, hp, heq⟩ := map_eq_ok.mp hmsg
    cases heq
    exact .inl (DescribeInto.onMessage_ok hp).2
  | resultsetCallback h =>
    obtain ⟨p, hp, heq⟩ := map_eq_ok.mp hmsg
    cases heq
    exact .inl (ResultsetCallback.onMessage_ok hp).2
  | resultsetsHandler h => exact .inr ⟨h, rfl⟩

end Handler

end

/-! ## 4. A callback -/

/-- A member that takes one type, and the number of bytes of a value that is not NULL. -/
def lengthMember (name : Bytes) : Member Nat where
  name
  isCompatible oid := if oid = 23 then .success else ClientErrc.incompatibleFieldType.code
  parseText fv _ := fv.elim (ClientErrc.unexpectedNull.code, 0) fun bytes => (.success, bytes.length)
  parseBinary _ _ := (.success, 0)

/-- A callback for rows with the members `x` and `y`. -/
def xyCallback : ResultsetCallback Nat where
  members := [lengthMember [120], lengthMember [121]]
  cb := 0

end Responses

end NativePg
