/-
  File:      NativePg/Responses/Model.lean
  Subject:   The response handlers (include/nativepg/responses/, src/responses.cpp).

  * `Failure`, `Attempt`, `boostAssert` -- how a call can fail to return. Every function that
    asserts takes `ndebug`: with it the assertions are compiled out;
  * `CommandInfo`, `FieldDescriptions`, `Resultsets` -- the objects of the user that handlers write
    to. Handlers hold pointers to them, and two handlers may share one: the objects are in a
    `World`, the pointers are numbers. A call of a user's callback is an entry of `World.rows`;
  * `Check`, ..., `ResultsetsHandler` -- the handler classes, each with its `setup` and its
    `on_message`; a `Handler` is one of them;
  * `Response` -- `response<Handlers...>`: its routing cursor, `setup`, `on_message`, `result`.

  A row type `T` is the list of its members (`Member`): the name of each, and what `field_traits` of
  its type do. `V` is the type of all their values.
-/
import NativePg.Lib.Decimal
import NativePg.Protocol.ConnectionState
import NativePg.Protocol.Views
import NativePg.Exec

namespace NativePg

namespace Responses

/-! ## 1. How a call ends -/

/-- What keeps a call from returning. -/
inductive Failure where
  /-- A `BOOST_ASSERT` fires. -/
  | assertion
  /-- Undefined behaviour: a read outside a range, or of an object that has no value. -/
  | undefined
  /-- An exception. -/
  | exception
  deriving DecidableEq, Repr

/-- The result of code that may fail to return. -/
abbrev Attempt (α : Type) := Except Failure α

/-- `BOOST_ASSERT`. -/
def boostAssert (ndebug cond : Bool) : Attempt Unit :=
  if ndebug || cond then .ok () else .error .assertion

/-- The items of a view, from `begin()` to `end()`. -/
def walk {α : Type} (v : ForwardParsingView) (t : ItemTraits α) : Attempt (List α) :=
  match v.items? t with
  | .ok (some items) => .ok items
  | _ => .error .undefined

/-! ## 2. Errors -/

/-- `extended_error`. -/
structure ExtendedError where
  code : ErrorCode := .success
  diag : Diagnostics := []
  deriving DecidableEq, Repr

/-- `store_error`. -/
def storeError (err : ErrorResponse) : ExtendedError where
  code := parseSqlstate (err.sqlstate.getD [])
  diag := Diagnostics.assign err

/-- `maybe_store_error`, of an error. -/
def maybeStoreError (err : ErrorResponse) (dest : ExtendedError) : ExtendedError :=
  if dest.code.failed then dest else storeError err

/-- `maybe_store_error`, of any message. -/
def maybeStoreErrorOf (msg : AnyRequestMessage) (dest : ExtendedError) : ExtendedError :=
  match msg with
  | .errorResponse err => maybeStoreError err dest
  | _ => dest

/-- The first of the codes that is an error: each is taken while there is none yet. -/
def firstError (ecs : List ErrorCode) : ErrorCode :=
  ecs.foldl (fun ec ec2 => if ec.failed then ec else ec2) .success

/-! ## 3. Command tags -/

/-- `skip_prefix`. -/
def skipPrefix (tag pre : Bytes) : Option Bytes :=
  if pre.isPrefixOf tag then some (tag.drop pre.length) else none

/-- `std::from_chars`, of a `std::uint64_t`: the number, and what lies behind its digits. -/
def fromChars (p : Bytes) : Except ErrorCode (Nat × Bytes) :=
  let digits := p.takeWhile Decimal.isDigit
  let num := Decimal.value digits
  if digits = [] then .error ⟨22, .generic⟩
  else if num < 2 ^ 64 then .ok (num, p.dropWhile Decimal.isDigit)
  else .error ⟨34, .generic⟩

/-- `parse_affected_rows`: the code, and the number it has set the output to. -/
def parseAffectedRows (p : Bytes) : ErrorCode × Option Nat :=
  match fromChars p with
  | .error ec => (ec, none)
  | .ok (num, []) => (.success, some num)
  | .ok (_, _ :: _) => (ClientErrc.extraBytes.code, none)

/-- `parse_command_complete_tag`. -/
def parseCommandCompleteTag (tag : Bytes) : ErrorCode × Option Nat :=
  match skipPrefix tag (ascii "INSERT") with
  | some [] => (ClientErrc.incompleteMessage.code, none)
  | some (c :: p) =>
    if c ≠ 32 then (.success, none)
    else
      -- the OID
      match p.dropWhile (· ≠ 32) with
      | [] => (ClientErrc.incompleteMessage.code, none)
      | _ :: p => parseAffectedRows p
  | none =>
    match ["DELETE", "UPDATE", "MERGE", "SELECT", "MOVE", "FETCH", "COPY"].findSome?
        (skipPrefix tag <| ascii ·) with
    | some [] => (ClientErrc.incompleteMessage.code, none)
    | some (c :: p) => if c ≠ 32 then (.success, none) else parseAffectedRows p
    | none => (.success, none)

/-- `command_info`. -/
structure CommandInfo where
  commandCompleteTag : Bytes := []
  affectedRows : Option Nat := none
  portalSuspended : Bool := false
  deriving DecidableEq, Repr

/-- `from_command_complete`: the code of the tag's parser is ignored. -/
def fromCommandComplete (obj : CommandInfo) (tag : Bytes) : CommandInfo :=
  { obj with commandCompleteTag := tag, affectedRows := (parseCommandCompleteTag tag).2 }

/-! ## 4. Descriptions and resultsets -/

/-- `offset_and_length`. -/
structure OffsetAndLength where
  offset : Nat
  length : Nat
  deriving DecidableEq, Repr

/-- `offsetted_field_description`. -/
structure OffsettedFieldDescription where
  name : OffsetAndLength
  tableOid : Int
  columnAttribute : Int
  typeOid : Int
  typeLength : Int
  typeModifier : Int
  fmtCode : FormatCode
  deriving DecidableEq, Repr

/-- `insert_data`. A length that comes from a message is below 2 ^ 31, so that it is not the one
    that stands for NULL, as the source asserts. -/
def insertData (dest value : Bytes) : OffsetAndLength × Bytes :=
  (⟨dest.length, value.length⟩, dest ++ value)

/-- The body of the loops over field descriptions, in `field_descriptions::assign` and
    `resultsets::add_row_description`. -/
def addFieldDescription (acc : List OffsettedFieldDescription × Bytes) (descr : FieldDescription) :
    List OffsettedFieldDescription × Bytes :=
  let (name, data) := insertData acc.2 descr.name
  let field : OffsettedFieldDescription := {
    name
    tableOid := descr.tableOid
    columnAttribute := descr.columnAttribute
    typeOid := descr.typeOid
    typeLength := descr.typeLength
    typeModifier := descr.typeModifier
    fmtCode := descr.fmtCode }
  (acc.1 ++ [field], data)

/-- `field_descriptions`. -/
structure FieldDescriptions where
  fieldDescr : List OffsettedFieldDescription := []
  data : Bytes := []
  deriving DecidableEq, Repr

/-- `field_descriptions::assign`. -/
def FieldDescriptions.assign (rowDescr : RowDescription) : Attempt FieldDescriptions := do
  let fields ← walk rowDescr.fieldDescriptions fieldDescriptionTraits
  let (fieldDescr, data) := fields.foldl addFieldDescription ([], [])
  pure { fieldDescr, data }

/-- `resultset_descriptor`. -/
structure ResultsetDescriptor where
  err : ExtendedError
  info : CommandInfo
  descr : OffsetAndLength
  values : OffsetAndLength
  deriving DecidableEq, Repr

/-- `resultsets`; a value that is NULL is `none`. -/
structure Resultsets where
  fieldDescr : List OffsettedFieldDescription := []
  values : List (Option OffsetAndLength) := []
  resultsets : List ResultsetDescriptor := []
  data : Bytes := []
  deriving DecidableEq, Repr

/-- A difference of two values of type `std::size_t`. -/
def sizeSub (a b : Nat) : Nat := if b ≤ a then a - b else a + 2 ^ 64 - b

namespace Resultsets

/-- `resultsets::add_row_description`. -/
def addRowDescription (r : Resultsets) (rowDescr : RowDescription) : Attempt Resultsets := do
  let fields ← walk rowDescr.fieldDescriptions fieldDescriptionTraits
  let (fieldDescr, data) := fields.foldl addFieldDescription (r.fieldDescr, r.data)
  pure { r with fieldDescr, data }

/-- The body of the loop of `resultsets::add_row`. -/
def addValue (acc : List (Option OffsetAndLength) × Bytes) :
    Option Bytes → List (Option OffsetAndLength) × Bytes
  | none => (acc.1 ++ [none], acc.2)
  | some value =>
    let (v, data) := insertData acc.2 value
    (acc.1 ++ [some v], data)

/-- `resultsets::add_row`. -/
def addRow (r : Resultsets) (row : DataRow) : Attempt Resultsets := do
  let columns ← walk row.columns fieldViewTraits
  let (values, data) := columns.foldl addValue (r.values, r.data)
  pure { r with values, data }

/-- `resultsets::finish_resultset`. -/
def finishResultset (ndebug : Bool) (r : Resultsets) (numRows numCols : Nat) (info : CommandInfo)
    (err : ExtendedError) : Attempt Resultsets := do
  let numValues := numCols * numRows
  boostAssert ndebug (numCols ≤ r.fieldDescr.length)
  boostAssert ndebug (numValues ≤ r.values.length)
  pure { r with resultsets := r.resultsets ++ [{
    err
    info
    descr := ⟨sizeSub r.fieldDescr.length numCols, numCols⟩
    values := ⟨sizeSub r.values.length numValues, numValues⟩ }] }

end Resultsets

/-- The objects handlers point to, and the rows users' callbacks were called with, each with the
    callback. -/
structure World (V : Type) where
  infos : Nat → CommandInfo
  descriptions : Nat → FieldDescriptions
  results : Nat → Resultsets
  rows : List (Nat × List V)

namespace World

variable {V : Type}

/-- Changes the `command_info` a handler points to, if it does. -/
def updateInfo (w : World V) (info : Option Nat) (f : CommandInfo → CommandInfo) : World V :=
  match info with
  | none => w
  | some i => { w with infos := Function.update w.infos i (f (w.infos i)) }

def setDescriptions (w : World V) (obj : Nat) (d : FieldDescriptions) : World V :=
  { w with descriptions := Function.update w.descriptions obj d }

def setResults (w : World V) (obj : Nat) (r : Resultsets) : World V :=
  { w with results := Function.update w.results obj r }

end World

/-! ## 5. Setting up -/

/-- `handler_setup_result`. -/
abbrev HandlerSetupResult := ErrorCode × Nat

/-- The messages the `setup` functions skip. -/
def isSyncOrFlush : RequestMessageType → Bool
  | .sync | .flush => true
  | _ => false

/-- The loop of `resultset_setup`, up to the execute: the messages behind it, or `none` where it
    returns an error or does not find one. -/
def resultsetLoop : Bool → List RequestMessageType → Option (List RequestMessageType)
  | _, [] => none
  | describeFound, m :: rest =>
    match m with
    | .sync | .flush | .parse | .bind => resultsetLoop describeFound rest
    | .describe => if describeFound then none else resultsetLoop true rest
    | .execute => if describeFound then some rest else none
    | _ => none

/-- `resultset_setup`. An iterator is known by the messages from it to the end. -/
def resultsetSetup (req : Request) (offset : Nat) : Attempt HandlerSetupResult :=
  if req.messages.length < offset then .error .undefined
  else
    match (req.messages.drop offset).dropWhile isSyncOrFlush with
    -- `*it` is read whether or not there is a message
    | [] => .error .undefined
    | .query :: it => .ok (.success, req.messages.length - it.length)
    | it =>
      match resultsetLoop false it with
      | none => .ok (ClientErrc.incompatibleResponseType.code, 0)
      | some it => .ok (.success, req.messages.length - (it.dropWhile isSyncOrFlush).length)

/-- `check_setup_impl`. -/
def checkSetupImpl (req : Request) (offset : Nat) (type : RequestMessageType) :
    Attempt HandlerSetupResult :=
  if req.messages.length < offset then .error .undefined
  else
    match (req.messages.drop offset).dropWhile isSyncOrFlush with
    | [] => .ok (ClientErrc.incompatibleResponseType.code, 0)
    | m :: it =>
      if m ≠ type then .ok (ClientErrc.incompatibleResponseType.code, 0)
      else .ok (.success, req.messages.length - (it.dropWhile isSyncOrFlush).length)

/-- The loop of `resultsets_handler::setup`. Each turn leaves fewer messages, so that as many turns
    as there are messages are enough. -/
def resultsetsLoop (req : Request) : Nat → Nat → Attempt HandlerSetupResult
  | 0, _ => .error .undefined
  | n + 1, offset => do
    let res ← resultsetSetup req offset
    if res.1.failed || res.2 ≥ req.messages.length then pure res
    else resultsetsLoop req n res.2

/-! ## 6. The handlers -/

section
variable {V : Type}

/-- `check`, `check_parse` and `check_close` have the same fields. -/
structure Check where
  err : ExtendedError := {}
  deriving DecidableEq, Repr

/-- `on_message` of `check`, `check_parse` and `check_close`. -/
def Check.onMessage (h : Check) (msg : AnyRequestMessage) : Check :=
  { h with err := maybeStoreErrorOf msg h.err }

/-- `check_execute`. -/
structure CheckExecute where
  info : Option Nat := none
  err : ExtendedError := {}
  deriving DecidableEq, Repr

/-- `check_execute::on_message`. -/
def CheckExecute.onMessage (ndebug : Bool) (h : CheckExecute) (msg : AnyRequestMessage)
    (w : World V) : Attempt (CheckExecute × World V) :=
  match msg with
  | .bindComplete | .parseComplete | .rowDescription _ | .dataRow _ => .ok (h, w)
  | .commandComplete tag => .ok (h, w.updateInfo h.info (fromCommandComplete · tag))
  | .portalSuspended => .ok (h, w.updateInfo h.info ({ · with portalSuspended := true }))
  | .errorResponse err => .ok ({ h with err := maybeStoreError err h.err }, w)
  -- the rest of the messages shouldn't arrive
  | .closeComplete | .parameterDescription _ | .emptyQueryResponse | .messageSkipped => do
    boostAssert ndebug false
    pure (h, w)

/-- `describe_into`. -/
structure DescribeInto where
  obj : Nat
  err : ExtendedError := {}
  deriving DecidableEq, Repr

/-- `describe_into::on_message`. -/
def DescribeInto.onMessage (ndebug : Bool) (h : DescribeInto) (msg : AnyRequestMessage)
    (w : World V) : Attempt (DescribeInto × World V) :=
  match msg with
  | .rowDescription m => do
    let d ← FieldDescriptions.assign m
    pure (h, w.setDescriptions h.obj d)
  | .parameterDescription _ => .ok (h, w)
  | .errorResponse err => .ok ({ h with err := maybeStoreError err h.err }, w)
  | .parseComplete | .bindComplete | .dataRow _ | .commandComplete _ | .portalSuspended
  | .closeComplete | .emptyQueryResponse | .messageSkipped => do
    boostAssert ndebug false
    pure (h, w)

/-- `pos_map_entry`; `db_index` is `none` where the source has `invalid_pos`. -/
structure PosMapEntry where
  dbIndex : Option Nat
  typeOid : Int
  fmtCode : FormatCode
  deriving DecidableEq, Repr

/-- What `compute_pos_map` does with the field at `dbIndex`. -/
def mapField (names : List Bytes) (output : List PosMapEntry) (field : FieldDescription × Nat) :
    List PosMapEntry :=
  match names.findIdx? (· = field.1.name) with
  | some cppIndex => output.set cppIndex ⟨some field.2, field.1.typeOid, field.1.fmtCode⟩
  | none => output

/-- `compute_pos_map`: the code, and the map. -/
def computePosMap (fields : List FieldDescription) (names : List Bytes) :
    ErrorCode × List PosMapEntry :=
  let output := fields.zipIdx.foldl (mapField names) (names.map fun _ => ⟨none, 0, .text⟩)
  (if output.any (·.dbIndex.isNone) then ClientErrc.fieldNotFound.code else .success, output)

/-- A member of a row type: its name, `field_is_compatible`, `field_parse_text` and
    `field_parse_binary`. The parse functions leave a value in the member. -/
structure Member (V : Type) where
  name : Bytes
  isCompatible : Int → ErrorCode
  parseText : Option Bytes → Int → ErrorCode × V
  parseBinary : Option Bytes → Int → ErrorCode × V

/-- `resultset_callback_t::state_t`. -/
inductive CallbackState where
  | parsingMeta
  | parsingData
  | done
  deriving DecidableEq, Repr

/-- `resultset_callback_t`. The map has no value until the first description. -/
structure ResultsetCallback (V : Type) where
  members : List (Member V)
  cb : Nat
  info : Option Nat := none
  state : CallbackState := .parsingMeta
  posMap : Option (List PosMapEntry) := none
  randomAccessData : List (Option Bytes) := []
  err : ExtendedError := {}

namespace ResultsetCallback

/-- `resultset_callback_t::store_error`. -/
def storeError (h : ResultsetCallback V) (ec : ErrorCode) : ResultsetCallback V :=
  if h.err.code.failed then h else { h with err := { code := ec } }

/-- The codes of the metadata check. -/
def compatibility (members : List (Member V)) (posMap : List PosMapEntry) : List ErrorCode :=
  (members.zip posMap).map fun (member, ent) => member.isCompatible ent.typeOid

/-- The visitor, for a row description. -/
def onRowDescription (ndebug : Bool) (h : ResultsetCallback V) (msg : RowDescription) :
    Attempt (ResultsetCallback V) := do
  boostAssert ndebug (h.state = .parsingMeta)
  let fields ← walk msg.fieldDescriptions fieldDescriptionTraits
  let (ec, posMap) := computePosMap fields (h.members.map (·.name))
  let h := { h with state := .parsingData, posMap := some posMap }
  if ec.failed then pure (h.storeError ec)
  else
    let ec := firstError (compatibility h.members posMap)
    if ec.failed then pure (h.storeError ec) else pure h

/-- One member of a row. `.at()` throws where the row is too short. -/
def parseMember (data : List (Option Bytes)) (member : Member V) (ent : PosMapEntry) :
    Attempt (ErrorCode × V) :=
  match ent.dbIndex.bind (data[·]?) with
  | none => .error .exception
  | some fv =>
    .ok (match ent.fmtCode with
      | .text => member.parseText fv ent.typeOid
      | .binary => member.parseBinary fv ent.typeOid)

/-- The members of a row, in order. -/
def parseRow (data : List (Option Bytes)) (members : List (Member V)) (posMap : List PosMapEntry) :
    Attempt (List (ErrorCode × V)) :=
  (members.zip posMap).mapM fun (member, ent) => parseMember data member ent

/-- The visitor, for a row. -/
def onDataRow (ndebug : Bool) (h : ResultsetCallback V) (msg : DataRow) (w : World V) :
    Attempt (ResultsetCallback V × World V) := do
  boostAssert ndebug (h.state = .parsingData)
  -- we still need to get to the CommandComplete message
  if h.err.code.failed then pure (h, w)
  else
    let data ← walk msg.columns fieldViewTraits
    let h := { h with randomAccessData := data }
    match h.posMap with
    | none => .error .undefined
    | some posMap =>
      let row ← parseRow h.randomAccessData h.members posMap
      let ec := firstError (row.map (·.1))
      if ec.failed then pure (h.storeError ec, w)
      else pure (h, { w with rows := w.rows ++ [(h.cb, row.map (·.2))] })

/-- `on_done`. -/
def onDone (ndebug : Bool) (h : ResultsetCallback V) : Attempt (ResultsetCallback V) := do
  boostAssert ndebug (h.state = .parsingData)
  pure { h with state := .done }

/-- `resultset_callback_t::on_message`. -/
def onMessage (ndebug : Bool) (h : ResultsetCallback V) (msg : AnyRequestMessage) (w : World V) :
    Attempt (ResultsetCallback V × World V) :=
  match msg with
  | .errorResponse err => .ok ({ h with err := maybeStoreError err h.err }, w)
  | .parseComplete | .bindComplete => .ok (h, w)
  | .rowDescription m => do
    let h ← h.onRowDescription ndebug m
    pure (h, w)
  | .dataRow m => h.onDataRow ndebug m w
  | .commandComplete tag => do
    let w := w.updateInfo h.info (fromCommandComplete · tag)
    let h ← h.onDone ndebug
    pure (h, w)
  | .portalSuspended => do
    let w := w.updateInfo h.info ({ · with portalSuspended := true })
    let h ← h.onDone ndebug
    pure (h, w)
  | .messageSkipped => .ok (h.storeError ClientErrc.stepSkipped.code, w)
  -- we shouldn't get any unexpected messages; the error is stored just in case
  | .closeComplete | .parameterDescription _ | .emptyQueryResponse => do
    let h := h.storeError ClientErrc.incompatibleResponseType.code
    boostAssert ndebug false
    pure (h, w)

end ResultsetCallback

/-- `resultsets_handler::state_t`. -/
inductive ResultsetsState where
  | parsingMeta
  | parsingData
  deriving DecidableEq, Repr

/-- `resultsets_handler`. -/
structure ResultsetsHandler where
  obj : Nat
  err : ExtendedError := {}
  state : ResultsetsState := .parsingMeta
  numCols : Nat := 0
  numRows : Nat := 0
  deriving DecidableEq, Repr

namespace ResultsetsHandler

/-- `reset_state`. -/
def resetState (h : ResultsetsHandler) : ResultsetsHandler :=
  { h with state := .parsingMeta, numCols := 0, numRows := 0 }

/-- `finish_resultset`, of the object pointed to, and `reset_state`. -/
def finish (ndebug : Bool) (h : ResultsetsHandler) (w : World V) (info : CommandInfo)
    (err : ExtendedError) : Attempt (ResultsetsHandler × World V) := do
  let r ← (w.results h.obj).finishResultset ndebug h.numRows h.numCols info err
  pure (h.resetState, w.setResults h.obj r)

/-- `resultsets_handler::on_message`. -/
def onMessage (ndebug : Bool) (h : ResultsetsHandler) (msg : AnyRequestMessage) (w : World V) :
    Attempt (ResultsetsHandler × World V) :=
  match msg with
  | .bindComplete | .parseComplete => .ok (h, w)
  | .rowDescription m => do
    boostAssert ndebug (h.state = .parsingMeta)
    let r ← (w.results h.obj).addRowDescription m
    pure ({ h with numCols := m.fieldDescriptions.size, state := .parsingData }, w.setResults h.obj r)
  | .dataRow m => do
    boostAssert ndebug (h.state = .parsingData)
    let r ← (w.results h.obj).addRow m
    pure ({ h with numRows := h.numRows + 1 }, w.setResults h.obj r)
  | .commandComplete tag => do
    boostAssert ndebug (h.state = .parsingData)
    h.finish ndebug w (fromCommandComplete {} tag) {}
  | .portalSuspended => do
    boostAssert ndebug (h.state = .parsingData)
    h.finish ndebug w { portalSuspended := true } {}
  | .errorResponse err =>
    { h with err := maybeStoreError err h.err }.finish ndebug w {} (storeError err)
  | .closeComplete | .parameterDescription _ | .emptyQueryResponse | .messageSkipped => do
    boostAssert ndebug false
    pure (h, w)

end ResultsetsHandler

end

/-- The built-in handlers. -/
inductive Handler (V : Type) where
  | check (h : Check)
  | checkExecute (h : CheckExecute)
  | checkParse (h : Check)
  | checkClose (h : Check)
  | describeInto (h : DescribeInto)
  | resultsetCallback (h : ResultsetCallback V)
  | resultsetsHandler (h : ResultsetsHandler)

namespace Handler

variable {V : Type}

/-- `setup`: the object after it and the world after it, and what it returns. -/
def setup (h : Handler V) (req : Request) (offset : Nat) (w : World V) :
    Attempt (HandlerSetupResult × Handler V × World V) :=
  match h with
  | .check h => pure ((.success, req.messages.length), .check { h with err := {} }, w)
  | .checkExecute h => do
    let res ← resultsetSetup req offset
    pure (res, .checkExecute { h with err := {} }, w.updateInfo h.info fun _ => {})
  | .checkParse h => do
    let res ← checkSetupImpl req offset .parse
    pure (res, .checkParse { h with err := {} }, w)
  | .checkClose h => do
    let res ← checkSetupImpl req offset .close
    pure (res, .checkClose { h with err := {} }, w)
  | .describeInto h => do
    let res ← checkSetupImpl req offset .describe
    pure (res, .describeInto { h with err := {} }, w.setDescriptions h.obj {})
  | .resultsetCallback h => do
    let res ← resultsetSetup req offset
    pure (res, .resultsetCallback { h with state := .parsingMeta, err := {} },
      w.updateInfo h.info fun _ => {})
  | .resultsetsHandler h => do
    let res ← resultsetsLoop req (req.messages.length + 1) offset
    pure (res, .resultsetsHandler { h with err := {} }.resetState, w.setResults h.obj {})

/-- `on_message`. -/
def onMessage (ndebug : Bool) (h : Handler V) (msg : AnyRequestMessage) (w : World V) :
    Attempt (Handler V × World V) :=
  match h with
  | .check h => .ok (.check (h.onMessage msg), w)
  | .checkParse h => .ok (.checkParse (h.onMessage msg), w)
  | .checkClose h => .ok (.checkClose (h.onMessage msg), w)
  | .checkExecute h => (h.onMessage ndebug msg w).map fun r => (.checkExecute r.1, r.2)
  | .describeInto h => (h.onMessage ndebug msg w).map fun r => (.describeInto r.1, r.2)
  | .resultsetCallback h => (h.onMessage ndebug msg w).map fun r => (.resultsetCallback r.1, r.2)
  | .resultsetsHandler h => (h.onMessage ndebug msg w).map fun r => (.resultsetsHandler r.1, r.2)

/-- `result`. -/
def result : Handler V → ExtendedError
  | .check h | .checkParse h | .checkClose h => h.err
  | .checkExecute h => h.err
  | .describeInto h => h.err
  | .resultsetCallback h => h.err
  | .resultsetsHandler h => h.err

/-- `on_message`, once for each of the messages. -/
def run (ndebug : Bool) : List AnyRequestMessage → Handler V → World V → Attempt (Handler V × World V)
  | [], h, w => .ok (h, w)
  | msg :: msgs, h, w => do
    let (h, w) ← h.onMessage ndebug msg w
    run ndebug msgs h w

end Handler

/-! ## 7. Responses -/

/-- `response<Handlers...>`. -/
structure Response (V : Type) where
  handlers : List (Handler V)
  offsets : List Nat
  current : Nat := 0

/-- `response_setup`, which overwrites the offsets as it goes: what it returns, and the handlers,
    the offsets and the world it leaves. -/
def responseSetup {V : Type} (req : Request) : List (Handler V) → List Nat → Nat → World V →
    Attempt (HandlerSetupResult × List (Handler V) × List Nat × World V)
  | [], offsets, initialOffset, w => .ok ((.success, initialOffset), [], offsets, w)
  | h :: hs, offsets, initialOffset, w => do
    let (res, h, w) ← h.setup req initialOffset w
    if res.1.failed then pure (res, h :: hs, offsets, w)
    else
      let (res', hs, offsets, w) ← responseSetup req hs offsets.tail res.2 w
      pure (res', h :: hs, res.2 :: offsets, w)

namespace Response

variable {V : Type}

/-- A response as constructed. -/
def new (handlers : List (Handler V)) : Response V where
  handlers
  offsets := handlers.map fun _ => 0

/-- `response::setup`. -/
def setup (r : Response V) (req : Request) (offset : Nat) (w : World V) :
    Attempt (HandlerSetupResult × Response V × World V) := do
  let (res, handlers, offsets, w) ← responseSetup req r.handlers r.offsets offset w
  pure (res, { r with handlers, offsets }, w)

/-- `response::on_message`. -/
def onMessage (ndebug : Bool) (r : Response V) (call : Call) (w : World V) :
    Attempt (Response V × World V) :=
  match r.offsets[r.current]? with
  | none => .error .undefined
  | some o =>
    let current := if call.offset ≥ o then r.current + 1 else r.current
    match r.offsets[current]?, r.handlers[current]? with
    | some o, some h => do
      boostAssert ndebug (call.offset < o)
      let (h, w) ← h.onMessage ndebug call.msg w
      pure ({ r with handlers := r.handlers.set current h, current }, w)
    | _, _ => .error .undefined

/-- `response::result`. -/
def result (r : Response V) : ExtendedError :=
  match (r.handlers.map (·.result)).find? (·.code.failed) with
  | some err => err
  | none => (r.handlers.map (·.result)).headD {}

/-- `on_message`, once for each of the calls. -/
def run (ndebug : Bool) : List Call → Response V → World V → Attempt (Response V × World V)
  | [], r, w => .ok (r, w)
  | call :: calls, r, w => do
    let (r, w) ← r.onMessage ndebug call w
    run ndebug calls r w

/-- `setup_request` with a response as the handler. -/
def setupRequest (r : Response V) (req : Request) (w : World V) :
    Attempt (ErrorCode × Response V × World V) :=
  if (checkRequest req).failed then .ok (checkRequest req, r, w)
  else do
    let (res, r, w) ← r.setup req 0 w
    pure (NativePg.setupRequest req fun _ _ => res, r, w)

end Response

end Responses

end NativePg
