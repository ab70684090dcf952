/-
  File:      NativePg/Statements/RowTypes.lean
  Subject:   The members of a C++ row type and the rows of a server (`resultset_callback`).

  * `columnNamed`, `readRow` -- what a row type is to hold of a row: each member the value in the
    last column of its name;
  * `decodeRow_sent` -- so it is decoded, in whatever formats the columns are sent;
    `exists_readRow`: whenever the types fit and NULL stands in optional members only;
  * `run_table` -- the callback on the messages of a table; `run_rejected`: on an error in its
    place.
-/
import NativePg.Statements.Answers
import NativePg.Responses.RowMapping

namespace NativePg

open NativePg.Types Responses

/-! ## 1. Members and columns -/

/-- The last column with a name, and its place. -/
def columnNamed (columns : List Column) (name : Bytes) : Option (Column × Nat) :=
  columns.zipIdx.reverse.find? (·.1.name = name)

/-- A member of a row type. -/
structure RowMember where
  name : Bytes
  type : FieldType

def RowMember.member (m : RowMember) : Member FieldValue := m.type.member m.name

/-- **What a member is to hold of a row.** -/
def readMember (columns : List Column) (row : Cells) (m : RowMember) : Option FieldValue := do
  let (_, i) ← columnNamed columns m.name
  let cell ← row[i]?
  m.type.read cell

/-- What a row type is to hold of it; none where a member has no column or takes no such value. -/
def readRow (columns : List Column) (members : List RowMember) (row : Cells) :
    Option (List FieldValue) :=
  members.mapM (readMember columns row)

/-- Every member has a column, and takes its type. -/
def Accepts (columns : List Column) (members : List RowMember) : Prop :=
  ∀ m ∈ members, ∃ c i, columnNamed columns m.name = some (c, i) ∧
    m.type.base.accepts c.typeOid = true

section
variable {columns : List Column} {members : List RowMember} {row : Cells}
  (formats : Nat → FormatCode)

theorem name_member (m : RowMember) : m.member.name = m.name := by
  obtain ⟨name, base, optional⟩ := m
  cases optional <;> cases base <;> rfl

theorem columnNamed_snoc (columns : List Column) (c : Column) (name : Bytes) :
    columnNamed (columns ++ [c]) name =
      if c.name = name then some (c, columns.length) else columnNamed columns name := by
  unfold columnNamed
  rw [List.zipIdx_append, List.reverse_append]
  by_cases h : c.name = name <;> simp [h]

/-- The description finds the same column. -/
theorem lastColumn_described (columns : List Column) (name : Bytes) :
    lastColumn (describedIn formats columns) name =
      (columnNamed columns name).map fun p => (p.1.described (formats p.2), p.2) := by
  induction columns using List.reverseRecOn with
  | nil => rfl
  | append_singleton columns c ih =>
    have hsnoc : describedIn formats (columns ++ [c]) =
        describedIn formats columns ++ [c.described (formats columns.length)] := by
      simp [describedIn, List.mapIdx_append]
    rw [hsnoc, lastColumn_snoc, columnNamed_snoc, ih]
    have hname : (c.described (formats columns.length)).name = c.name := rfl
    rw [hname]
    by_cases h : c.name = name
    · rw [if_pos h, if_pos h]
      simp [describedIn]
    · rw [if_neg h, if_neg h]

/-- The named column is where it says. -/
theorem getElem?_of_columnNamed {c : Column} {i : Nat} {name : Bytes}
    (h : columnNamed columns name = some (c, i)) : columns[i]? = some c := by
  have hmem := List.mem_of_find?_eq_some h
  rw [List.mem_reverse] at hmem
  exact List.mem_zipIdx_iff_getElem?.mp hmem

/-- The value in a column is of its type. -/
theorem RowTyped.oid (h : RowTyped columns row) {i : Nat} {c : Column} {cell : Option Datum}
    (hc : columns[i]? = some c) (hcell : row[i]? = some cell) : ∀ d ∈ cell, d.oid = c.typeOid := by
  induction h generalizing i with
  | nil => cases hc
  | cons hhead _ ih =>
    cases i with
    | zero =>
      cases hc
      cases hcell
      exact hhead
    | succ i => exact ih hc hcell

/-- **A member is decoded to what it is to hold.** -/
theorem decodeMember_sent (htyped : RowTyped columns row) {m : RowMember} {value : FieldValue}
    (h : readMember columns row m = some value) :
    decodeMember (describedIn formats columns) (sentIn formats row) m.member =
      some (.success, value) := by
  obtain ⟨⟨c, i⟩, hcolumn, h⟩ := Option.bind_eq_some_iff.mp h
  obtain ⟨cell, hcell, hread⟩ := Option.bind_eq_some_iff.mp h
  have hsent : (sentIn formats row)[i]? = some (cell.map (Datum.bytes (formats i))) := by
    simp [sentIn, hcell]
  have hparse := @parse_member m.type m.name cell value hread (formats i) c.typeOid
    (htyped.oid (getElem?_of_columnNamed hcolumn) hcell)
  rw [decodeMember, name_member, lastColumn_described, hcolumn]
  simp only [Option.map_some, Option.bind_eq_bind, Option.bind_some, hsent]
  exact congrArg some hparse

theorem decodeRow_sent (htyped : RowTyped columns row) {values : List FieldValue}
    (h : readRow columns members row = some values) :
    decodeRow (describedIn formats columns) (members.map RowMember.member) (sentIn formats row) =
      some (values.map fun v => (.success, v)) := by
  rw [decodeRow, List.mapM_map, mapM_eq_some]
  refine List.forall₂_map_right_iff.mpr ((mapM_eq_some.mp h).imp fun m value hread => ?_)
  exact decodeMember_sent formats htyped hread

/-- Rows that are as they should be are read to the end. -/
theorem readRows_sent : ∀ {rows : List Cells} {values : List (List FieldValue)},
    (∀ row ∈ rows, RowTyped columns row) → rows.mapM (readRow columns members) = some values →
    readRows (describedIn formats columns) (members.map RowMember.member)
      (rows.map (sentIn formats)) = some (values, none)
  | [], _, _, h => by
      cases h
      rfl
  | row :: rows, _, htyped, h => by
      obtain ⟨hrow, hrows⟩ := List.forall_mem_cons.mp htyped
      obtain ⟨vs, values, hvs, hvalues, rfl⟩ := List.forall₂_cons_left_iff.mp (mapM_eq_some.mp h)
      have hgood : (vs.map fun v => (ErrorCode.success, v)).find? (·.1.failed) = none := by
        simp [ErrorCode.failed_success]
      rw [List.map_cons, readRows, decodeRow_sent formats hrow hvs,
        readRows_sent hrows (mapM_eq_some.mpr hvalues)]
      simp only [Option.bind_eq_bind, Option.bind_some, hgood, List.map_map, Function.comp_def,
        List.map_id']

/-- NULL stands only in the columns of members that are optional. -/
def NullsFit (columns : List Column) (members : List RowMember) (row : Cells) : Prop :=
  ∀ m ∈ members, ∀ c i, columnNamed columns m.name = some (c, i) → row[i]? = some none →
    m.type.optional = true

/-- Then nothing is in the way of a row. -/
theorem exists_readRow (haccepts : Accepts columns members) (htyped : RowTyped columns row)
    (hnulls : NullsFit columns members row) :
    ∃ values, readRow columns members row = some values := by
  refine exists_mapM_eq_some fun m hm => ?_
  obtain ⟨c, i, hcolumn, hc⟩ := haccepts m hm
  have hat := getElem?_of_columnNamed hcolumn
  obtain ⟨hi, -⟩ := List.getElem?_eq_some_iff.mp hat
  obtain ⟨cell, hcell⟩ : ∃ cell, row[i]? = some cell :=
    ⟨_, List.getElem?_eq_getElem (htyped.length_eq ▸ hi)⟩
  have hread : (m.type.read cell).isSome = true := by
    cases cell with
    | none =>
      rw [FieldType.read, hnulls m hm c i hcolumn hcell]
      rfl
    | some d =>
      rw [← htyped.oid hat hcell d rfl] at hc
      exact read_isSome hc
  obtain ⟨value, hvalue⟩ := Option.isSome_iff_exists.mp hread
  exact ⟨value, by simp [readMember, hcolumn, hcell, hvalue]⟩

/-- The description is accepted. -/
theorem descriptionError_described (hnodup : (members.map (·.name)).Nodup)
    (haccepts : Accepts columns members) :
    ofCode (ResultsetCallback.descriptionError (members.map RowMember.member)
      (describedIn formats columns)) = none := by
  have hnames : ((members.map RowMember.member).map (·.name)).Nodup := by
    rw [List.map_map]
    simpa only [Function.comp_def, name_member] using hnodup
  have hcodes : (members.map RowMember.member).mapM
      (compatibleCode (describedIn formats columns)) = some (members.map fun _ => .success) := by
    rw [List.mapM_map, mapM_eq_some]
    refine List.forall₂_map_right_iff.mpr (List.forall₂_same.mpr fun m hm => ?_)
    obtain ⟨c, i, hcolumn, hc⟩ := haccepts m hm
    have hcode : m.member.isCompatible c.typeOid = .success := by
      rw [RowMember.member, isCompatible_member, if_pos hc]
    change compatibleCode _ m.member = _
    rw [compatibleCode, name_member, lastColumn_described, hcolumn]
    exact congrArg some hcode
  rw [ofCode_descriptionError hnames hcodes]
  simp [ErrorCode.failed_success]

end

/-! ## 2. The callback -/

section
variable {columns : List Column} {members : List RowMember} {rows : List Cells}
  {formats : Nat → FormatCode} {h : ResultsetCallback FieldValue} {w : World FieldValue}

open ResultsetCallback in
/-- **The callback on a table**: it is invoked once for every row, with what its row type is to hold
    of it. -/
theorem run_table (ndebug : Bool) (hmembers : h.members = members.map RowMember.member)
    (hnodup : (members.map (·.name)).Nodup) (hstate : h.state = .parsingMeta) (herr : h.err = {})
    (hdescription : (describeColumns formats columns).WellFormed)
    (hrows : ∀ row ∈ rows, (sendRow formats row).WellFormed)
    (haccepts : Accepts columns members) (htyped : ∀ row ∈ rows, RowTyped columns row)
    {values : List (List FieldValue)} (hvalues : rows.mapM (readRow columns members) = some values)
    (t : Terminator) :
    ∃ h' w', Handler.run ndebug
        (resultsetMessages (describedView formats columns) (rows.map (sentView formats)) t)
        (.resultsetCallback h) w = .ok (.resultsetCallback h', w') ∧
      h'.err = (errorOf t.message).getD {} ∧ w'.rows = w.rows ++ values.map fun vs => (h.cb, vs) := by
  have hnames : (h.members.map (·.name)).Nodup := by
    rw [hmembers, List.map_map]
    simpa only [Function.comp_def, name_member] using hnodup
  have hd : walk (describedView formats columns).fieldDescriptions fieldDescriptionTraits =
      .ok (describedIn formats columns) := by
    rw [walk, describedView, items?_flatMap fieldDescriptionTraits_encodes hdescription.fields]
  have hcells : List.Forall₂
      (fun (d : DataRow) cs => walk d.columns fieldViewTraits = .ok cs)
      (rows.map (sentView formats)) (rows.map (sentIn formats)) := by
    refine List.forall₂_map_left_iff.mpr (List.forall₂_map_right_iff.mpr
      (List.forall₂_same.mpr fun row hrow => ?_))
    rw [walk, sentView, items?_flatMap fieldViewTraits_encodes (hrows row hrow).columns]
  have hgood := descriptionError_described formats hnodup haccepts
  have hread := readRows_sent formats htyped hvalues
  rw [← hmembers] at hgood hread
  obtain ⟨h', w', hrun, herr', hinvoked⟩ := run_described hnames hstate herr hd hcells hgood hread t
  refine ⟨h', w', hrun, ?_, hinvoked⟩
  rw [herr']
  cases errorOf t.message <;> rfl

/-- The answers to the Parse and the Bind of a query are of no use to the callback. -/
theorem run_front (ndebug : Bool) (h : ResultsetCallback FieldValue) (w : World FieldValue) :
    ∀ {front : List AnyRequestMessage},
    (∀ msg ∈ front, msg = .parseComplete ∨ msg = .bindComplete) → ∀ msgs,
    Handler.run ndebug (front ++ msgs) (.resultsetCallback h) w =
      Handler.run ndebug msgs (.resultsetCallback h) w
  | [], _, _ => rfl
  | msg :: front, hfront, msgs => by
      obtain ⟨hmsg, hfront⟩ := List.forall_mem_cons.mp hfront
      rw [List.cons_append, ← run_front ndebug h w hfront msgs]
      rcases hmsg with rfl | rfl <;> rfl

/-- Steps that are skipped add nothing to an error. -/
theorem run_skipped (ndebug : Bool) (w : World FieldValue) : ∀ {msgs : List AnyRequestMessage}
    {h : ResultsetCallback FieldValue}, (∀ msg ∈ msgs, msg = .messageSkipped) →
    h.err.code.failed = true →
    Handler.run ndebug msgs (.resultsetCallback h) w = .ok (.resultsetCallback h, w)
  | [], _, _, _ => rfl
  | msg :: msgs, h, hmsgs, hfailed => by
      obtain ⟨rfl, hrest⟩ := List.forall_mem_cons.mp hmsgs
      have hsame : h.storeError ClientErrc.stepSkipped.code = h := by
        rw [ResultsetCallback.storeError, if_pos hfailed]
      have hstep : Handler.onMessage ndebug (.resultsetCallback h) .messageSkipped w =
          .ok (.resultsetCallback h, w) := by
        change Except.ok (Handler.resultsetCallback (h.storeError _), w) = _
        rw [hsame]
      rw [Handler.run_cons hstep]
      exact run_skipped ndebug w hrest hfailed

/-- **The callback on an error in place of a table**: it is not invoked, and the error is kept. -/
theorem run_rejected (ndebug : Bool) {front skipped : List AnyRequestMessage}
    (hfront : ∀ msg ∈ front, msg = .parseComplete ∨ msg = .bindComplete)
    (hskipped : ∀ msg ∈ skipped, msg = .messageSkipped) {err : ErrorResponse}
    (herror : (storeError err).code.failed = true) (herr : h.err = {}) :
    Handler.run ndebug (front ++ .errorResponse err :: skipped) (.resultsetCallback h) w =
      .ok (.resultsetCallback { h with err := storeError err }, w) := by
  have hstep : Handler.onMessage ndebug (.resultsetCallback h) (.errorResponse err) w =
      .ok (.resultsetCallback { h with err := storeError err }, w) := by
    change Except.ok (Handler.resultsetCallback { h with err := maybeStoreError err h.err }, w) = _
    rw [herr]
    rfl
  rw [run_front ndebug h w hfront, Handler.run_cons hstep]
  exact run_skipped ndebug w hskipped herror

end

end NativePg
