/-
  File:      NativePg/Responses/RowMapping.lean
  Subject:   The rows a `resultset_callback` passes on: which column a member is read from.

  The positions are computed when the description comes, and used when the rows come. Member order
  and column order have nothing to do with each other.

  * `lastColumn` -- the last column of a name. **`computePosMap_eq`**: the position table has, at
    every member, the last column of its name;
  * `decodeRow` -- what the members of a row are read as;
  * `Reading` -- a callback that has got its description. `onDataRow_skips`, `onDataRow_reads`: one
    row; `Reading.run`: rows up to the first that cannot be decoded, and behind it;
  * **`rows_mapped_by_name`** -- which rows the user's callback is invoked with, and the result.
-/
import Mathlib.Data.List.Induction
import Mathlib.Data.List.Nodup
import NativePg.Responses.Storage

namespace NativePg

namespace Responses

/-! ## 1. The position table -/

/-- The last column with a name, and its index. -/
def lastColumn (fields : List FieldDescription) (name : Bytes) : Option (FieldDescription × Nat) :=
  fields.zipIdx.reverse.find? (·.1.name = name)

theorem lastColumn_snoc (fields : List FieldDescription) (field : FieldDescription) (name : Bytes) :
    lastColumn (fields ++ [field]) name =
      if field.name = name then some (field, fields.length) else lastColumn fields name := by
  unfold lastColumn
  rw [List.zipIdx_append, List.reverse_append]
  simp only [List.zipIdx_cons, List.zipIdx_nil, List.reverse_cons, List.reverse_nil, List.nil_append,
    List.cons_append, List.find?_cons, Nat.zero_add]
  by_cases h : field.name = name
  · simp [h]
  · simp [h]

/-- **The last column with a name**: it has the name, and no column behind it has. -/
theorem lastColumn_eq_some {fields : List FieldDescription} {name : Bytes} {f : FieldDescription}
    {i : Nat} (h : lastColumn fields name = some (f, i)) :
    fields[i]? = some f ∧ f.name = name ∧
      ∀ {j : Nat} {g : FieldDescription}, i < j → fields[j]? = some g → g.name ≠ name := by
  induction fields using List.reverseRecOn with
  | nil => simp [lastColumn] at h
  | append_singleton fields field ih =>
    rw [lastColumn_snoc] at h
    by_cases hname : field.name = name
    · rw [if_pos hname] at h
      cases h
      refine ⟨by simp, hname, fun hj hg => ?_⟩
      have hlt := (List.getElem?_eq_some_iff.mp hg).1
      rw [List.length_append, List.length_singleton] at hlt
      omega
    · rw [if_neg hname] at h
      obtain ⟨hi, hf, hlast⟩ := ih h
      have hlt := (List.getElem?_eq_some_iff.mp hi).1
      refine ⟨?_, hf, fun {j g} hj hg => ?_⟩
      · rw [List.getElem?_append_left hlt]
        exact hi
      · by_cases hend : j < fields.length
        · rw [List.getElem?_append_left hend] at hg
          exact hlast hj hg
        · have hlt' := (List.getElem?_eq_some_iff.mp hg).1
          rw [List.length_append, List.length_singleton] at hlt'
          have hj' : j = fields.length := by omega
          rw [hj', List.getElem?_concat_length] at hg
          cases hg
          exact hname

/-- The entry of a name in the position table. -/
def posMapEntry (fields : List FieldDescription) (name : Bytes) : PosMapEntry :=
  match lastColumn fields name with
  | some (f, i) => ⟨some i, f.typeOid, f.fmtCode⟩
  | none => ⟨none, 0, .text⟩

theorem posMapEntry_isNone {fields : List FieldDescription} {name : Bytes} :
    (posMapEntry fields name).dbIndex.isNone = true ↔ lastColumn fields name = none := by
  unfold posMapEntry
  cases lastColumn fields name with
  | none => simp
  | some column => simp

theorem posMapEntry_snoc (fields : List FieldDescription) (field : FieldDescription) :
    posMapEntry (fields ++ [field]) = Function.update (posMapEntry fields) field.name
      ⟨some fields.length, field.typeOid, field.fmtCode⟩ := by
  funext name
  unfold posMapEntry
  rw [lastColumn_snoc]
  by_cases h : field.name = name
  · subst h
    simp
  · rw [if_neg h, Function.update_of_ne (Ne.symm h)]

/-- One field, with the names of the members all different. -/
theorem mapField_map {names : List Bytes} (hnodup : names.Nodup) (g : Bytes → PosMapEntry)
    (field : FieldDescription) (i : Nat) :
    mapField names (names.map g) (field, i) =
      names.map (Function.update g field.name ⟨some i, field.typeOid, field.fmtCode⟩) := by
  rw [hnodup.map_update]
  unfold mapField
  cases hfind : names.findIdx? (· = field.name) with
  | none =>
    have hnot : field.name ∉ names := by
      intro hmem
      simpa using List.findIdx?_eq_none_iff.mp hfind field.name hmem
    rw [if_neg hnot]
  | some k =>
    obtain ⟨hlt, hk⟩ := List.findIdx?_eq_some_iff_findIdx_eq.mp hfind
    rw [← hk] at hlt
    obtain ⟨name, hmem, hname⟩ := List.findIdx_lt_length.mp hlt
    rw [decide_eq_true_eq] at hname
    subst hname
    rw [if_pos hmem, ← hk]
    rfl

theorem foldl_mapField {names : List Bytes} (hnodup : names.Nodup) (fields : List FieldDescription) :
    fields.zipIdx.foldl (mapField names) (names.map fun _ => ⟨none, 0, .text⟩) =
      names.map (posMapEntry fields) := by
  induction fields using List.reverseRecOn with
  | nil => rfl
  | append_singleton fields field ih =>
    rw [List.zipIdx_append, List.foldl_append, ih, Nat.zero_add]
    simp only [List.zipIdx_cons, List.zipIdx_nil, List.foldl_cons, List.foldl_nil]
    rw [mapField_map hnodup, posMapEntry_snoc]

/-- **The position table**: at every member, the last column of its name; it is an error if there is
    none. -/
theorem computePosMap_eq {names : List Bytes} (hnodup : names.Nodup)
    (fields : List FieldDescription) :
    computePosMap fields names =
      (if ∃ name ∈ names, lastColumn fields name = none then ClientErrc.fieldNotFound.code
        else .success, names.map (posMapEntry fields)) := by
  unfold computePosMap
  rw [foldl_mapField hnodup]
  have hany : (names.map (posMapEntry fields)).any (·.dbIndex.isNone) =
      decide (∃ name ∈ names, lastColumn fields name = none) := by
    rw [Bool.eq_iff_iff, List.any_eq_true, decide_eq_true_iff]
    constructor
    · intro h
      obtain ⟨ent, hent, hnone⟩ := h
      obtain ⟨name, hname, rfl⟩ := List.mem_map.mp hent
      exact ⟨name, hname, posMapEntry_isNone.mp hnone⟩
    · intro h
      obtain ⟨name, hname, hnone⟩ := h
      exact ⟨_, List.mem_map_of_mem hname, posMapEntry_isNone.mpr hnone⟩
  simp only [hany, decide_eq_true_eq]

/-! ## 2. Decoding -/

section
variable {V : Type}

/-- `field_parse_text` or `field_parse_binary`. -/
def Member.parse (m : Member V) (fmtCode : FormatCode) (fv : Option Bytes) (typeOid : Int) :
    ErrorCode × V :=
  match fmtCode with
  | .text => m.parseText fv typeOid
  | .binary => m.parseBinary fv typeOid

/-- **What a member is read as**: the value in the last column of its name, with the type and the
    format of that column. There may be no such column, or no such value. -/
def decodeMember (fields : List FieldDescription) (row : List (Option Bytes)) (m : Member V) :
    Option (ErrorCode × V) := do
  let (f, i) ← lastColumn fields m.name
  let fv ← row[i]?
  pure (m.parse f.fmtCode fv f.typeOid)

/-- The members of a row. -/
def decodeRow (fields : List FieldDescription) (members : List (Member V))
    (row : List (Option Bytes)) : Option (List (ErrorCode × V)) :=
  members.mapM (decodeMember fields row)

/-- Does the type of a member accept the type of its column? -/
def compatibleCode (fields : List FieldDescription) (m : Member V) : Option ErrorCode :=
  (lastColumn fields m.name).map fun column => m.isCompatible column.1.typeOid

/-- `.at()` throws where there is no value. -/
def orThrow {α : Type} : Option α → Attempt α
  | none => .error .exception
  | some a => .ok a

theorem mapM_orThrow {α β : Type} (f : α → Option β) : ∀ l : List α,
    l.mapM (fun a => orThrow (f a)) = orThrow (l.mapM f)
  | [] => rfl
  | a :: l => by
      rw [List.mapM_cons, List.mapM_cons, mapM_orThrow f l]
      cases f a with
      | none => rfl
      | some b => cases l.mapM f <;> rfl

theorem zip_map_self {α β : Type} (f : α → β) : ∀ l : List α, l.zip (l.map f) = l.map fun a => (a, f a)
  | [] => rfl
  | a :: l => by rw [List.map_cons, List.zip_cons_cons, zip_map_self f l, List.map_cons]

open ResultsetCallback in
/-- **With the position table of the description**, the row is decoded. -/
theorem parseRow_eq (fields : List FieldDescription) (members : List (Member V))
    (row : List (Option Bytes)) :
    parseRow row members (members.map fun m => posMapEntry fields m.name) =
      orThrow (decodeRow fields members row) := by
  have hmember : ∀ m : Member V,
      parseMember row m (posMapEntry fields m.name) = orThrow (decodeMember fields row m) := by
    intro m
    unfold parseMember posMapEntry decodeMember
    cases lastColumn fields m.name with
    | none => rfl
    | some column =>
      obtain ⟨f, i⟩ := column
      simp only [Option.bind_some, Option.bind_eq_bind]
      cases row[i]? with
      | none => rfl
      | some fv => cases f.fmtCode <;> simp [orThrow, Member.parse]
  unfold parseRow decodeRow
  rw [zip_map_self, List.mapM_map]
  simp only [Function.comp_def, hmember]
  exact mapM_orThrow _ members

/-- The first code that is an error. -/
theorem foldl_firstError (ecs : List ErrorCode) : ∀ ec : ErrorCode,
    ofCode (ecs.foldl (fun ec ec2 => if ec.failed then ec else ec2) ec) =
      ((ec :: ecs).find? (·.failed)).map ({ code := · }) := by
  induction ecs with
  | nil =>
    intro ec
    cases h : ec.failed <;> simp [ofCode, h]
  | cons ec2 ecs ih =>
    intro ec
    rw [List.foldl_cons, ih]
    cases h : ec.failed <;> simp [h]

theorem ofCode_firstError (ecs : List ErrorCode) :
    ofCode (firstError ecs) = (ecs.find? (·.failed)).map ({ code := · }) := by
  unfold firstError
  rw [foldl_firstError]
  rfl

theorem firstError_of_some {results : List (ErrorCode × V)} {res : ErrorCode × V}
    (h : results.find? (·.1.failed) = some res) : firstError (results.map (·.1)) = res.1 := by
  have hcode := ofCode_firstError (results.map (·.1))
  rw [List.find?_map, Function.comp_def, h] at hcode
  unfold ofCode at hcode
  by_cases hfailed : (firstError (results.map (·.1))).failed = true
  · rw [if_pos hfailed] at hcode
    exact congrArg ExtendedError.code (Option.some.inj hcode)
  · rw [if_neg hfailed] at hcode
    cases hcode

theorem failed_firstError_of_none {results : List (ErrorCode × V)}
    (h : results.find? (·.1.failed) = none) : (firstError (results.map (·.1))).failed = false := by
  have hcode := ofCode_firstError (results.map (·.1))
  rw [List.find?_map, Function.comp_def, h] at hcode
  unfold ofCode at hcode
  by_cases hfailed : (firstError (results.map (·.1))).failed = true
  · rw [if_pos hfailed] at hcode
    cases hcode
  · simpa using hfailed

section
variable {fields : List FieldDescription} {members : List (Member V)}

open ResultsetCallback in
/-- **A description in which a member is missing.** -/
theorem descriptionError_of_missing (hnodup : (members.map (·.name)).Nodup)
    (h : ∃ m ∈ members, lastColumn fields m.name = none) :
    descriptionError members fields = ClientErrc.fieldNotFound.code := by
  obtain ⟨m, hm, hnone⟩ := h
  have hec : (computePosMap fields (members.map (·.name))).1 = ClientErrc.fieldNotFound.code := by
    rw [computePosMap_eq hnodup]
    exact if_pos ⟨m.name, List.mem_map_of_mem hm, hnone⟩
  unfold descriptionError
  simp only [hec, ClientErrc.failed_code, if_true]

open ResultsetCallback in
/-- **A description with all members**: the types are checked, in member order. -/
theorem ofCode_descriptionError (hnodup : (members.map (·.name)).Nodup) {codes : List ErrorCode}
    (hcodes : members.mapM (compatibleCode fields) = some codes) :
    ofCode (descriptionError members fields) =
      (codes.find? (·.failed)).map ({ code := · }) := by
  have hall := mapM_eq_some.mp hcodes
  have hnone : ¬∃ name ∈ members.map (·.name), lastColumn fields name = none := by
    intro h
    obtain ⟨name, hname, hnone⟩ := h
    obtain ⟨m, hm, rfl⟩ := List.mem_map.mp hname
    obtain ⟨ec, hec⟩ := exists_of_forall₂ hall m hm
    rw [compatibleCode, hnone] at hec
    cases hec
  have hcompat : compatibility members ((members.map (·.name)).map (posMapEntry fields)) = codes := by
    unfold compatibility
    rw [List.map_map, zip_map_self, List.map_map, ← List.forall₂_eq_eq_eq]
    refine List.forall₂_map_left_iff.mpr (hall.imp fun m ec hec => ?_)
    obtain ⟨column, hcolumn, rfl⟩ := Option.map_eq_some_iff.mp hec
    simp only [Function.comp_apply, posMapEntry, hcolumn]
  unfold descriptionError
  rw [computePosMap_eq hnodup, if_neg hnone]
  simp only [hcompat]
  rw [← ofCode_firstError]
  rfl

end

/-! ## 3. Rows -/

/-- **What the user's callback is invoked with**, row after row, and the error the rows end with: of
    the first row that cannot be decoded. `none` where a row is too short. -/
def readRows (fields : List FieldDescription) (members : List (Member V)) :
    List (List (Option Bytes)) → Option (List (List V) × Option ErrorCode)
  | [] => some ([], none)
  | row :: rows => do
    let results ← decodeRow fields members row
    match results.find? (·.1.failed) with
    | some res => some ([], some res.1)
    | none =>
      let (values, ec) ← readRows fields members rows
      some (results.map (·.2) :: values, ec)

namespace ResultsetCallback

/-- **A callback that has got its description.** -/
structure Reading (fields : List FieldDescription) (h : ResultsetCallback V) : Prop where
  state : h.state = .parsingData
  posMap : h.posMap = some (h.members.map fun m => posMapEntry fields m.name)

variable {ndebug : Bool} {fields : List FieldDescription} {h : ResultsetCallback V} {w : World V}

/-- Rows behind an error. -/
theorem onDataRow_skips (hstate : h.state = .parsingData) (herr : h.err.code.failed = true)
    (d : DataRow) : h.onDataRow ndebug d w = .ok (h, w) := by
  refine bind_eq_ok.mpr ⟨(), boostAssert_eq_ok.mpr (.inr (by simp [hstate])), ?_⟩
  rw [if_pos herr]
  rfl

/-- A row, with no error before. -/
theorem Reading.onDataRow_eq (hr : h.Reading fields) (herr : h.err.code.failed = false) {d : DataRow}
    {row : List (Option Bytes)} (hd : walk d.columns fieldViewTraits = .ok row) :
    h.onDataRow ndebug d w = (do
      let results ← orThrow (decodeRow fields h.members row)
      match results.find? (·.1.failed) with
      | some res => pure ({ h with randomAccessData := row, err := { code := res.1 } }, w)
      | none =>
        pure ({ h with randomAccessData := row },
          { w with rows := w.rows ++ [(h.cb, results.map (·.2))] })) := by
  have hassert : boostAssert ndebug (h.state = .parsingData) = .ok () :=
    boostAssert_eq_ok.mpr (.inr (by simp [hr.state]))
  unfold onDataRow
  rw [hassert, hd, herr]
  simp only [hr.posMap, parseRow_eq, bind, Except.bind, Bool.false_eq_true, if_false]
  cases decodeRow fields h.members row with
  | none => rfl
  | some results =>
    simp only [orThrow]
    cases hfind : results.find? (·.1.failed) with
    | none =>
      rw [failed_firstError_of_none hfind]
      rfl
    | some res =>
      have hfailed : res.1.failed = true := by simpa using List.find?_some hfind
      rw [firstError_of_some hfind, if_pos hfailed]
      simp only [ResultsetCallback.storeError, herr, Bool.false_eq_true, if_false]

section
variable {d : DataRow} {row : List (Option Bytes)} {results : List (ErrorCode × V)}

/-- A row that cannot be decoded. -/
theorem Reading.onDataRow_fails (hr : h.Reading fields) (herr : h.err.code.failed = false)
    (hd : walk d.columns fieldViewTraits = .ok row)
    (hresults : decodeRow fields h.members row = some results) {res : ErrorCode × V}
    (hfind : results.find? (·.1.failed) = some res) :
    h.onDataRow ndebug d w = .ok ({ h with randomAccessData := row, err := { code := res.1 } }, w) := by
  rw [hr.onDataRow_eq herr hd, hresults]
  simp only [orThrow, bind, Except.bind, hfind]
  rfl

/-- A row the user's callback is invoked with. -/
theorem Reading.onDataRow_passes (hr : h.Reading fields) (herr : h.err.code.failed = false)
    (hd : walk d.columns fieldViewTraits = .ok row)
    (hresults : decodeRow fields h.members row = some results)
    (hfind : results.find? (·.1.failed) = none) :
    h.onDataRow ndebug d w = .ok ({ h with randomAccessData := row },
      { w with rows := w.rows ++ [(h.cb, results.map (·.2))] }) := by
  rw [hr.onDataRow_eq herr hd, hresults]
  simp only [orThrow, bind, Except.bind, hfind]
  rfl

/-- A row that is too short. -/
theorem Reading.onDataRow_throws (hr : h.Reading fields) (herr : h.err.code.failed = false)
    (hd : walk d.columns fieldViewTraits = .ok row)
    (hresults : decodeRow fields h.members row = none) :
    h.onDataRow ndebug d w = .error .exception := by
  rw [hr.onDataRow_eq herr hd, hresults]
  rfl

end

theorem lift {h' : ResultsetCallback V} {msg : AnyRequestMessage} {w' : World V}
    (hmsg : h.onMessage ndebug msg w = .ok (h', w')) :
    (Handler.resultsetCallback h).onMessage ndebug msg w = .ok (.resultsetCallback h', w') := by
  rw [Handler.onMessage, hmsg]
  rfl

theorem lift_row {d : DataRow} {h' : ResultsetCallback V} {w' : World V}
    (hmsg : h.onDataRow ndebug d w = .ok (h', w')) :
    (Handler.resultsetCallback h).onMessage ndebug (.dataRow d) w = .ok (.resultsetCallback h', w') := by
  have hmsg' : h.onMessage ndebug (.dataRow d) w = .ok (h', w') := hmsg
  exact lift hmsg'

/-- A row, and what comes behind it. -/
theorem run_row {d : DataRow} {h' : ResultsetCallback V} {w' : World V}
    (hmsg : h.onDataRow ndebug d w = .ok (h', w')) (msgs : List AnyRequestMessage) :
    Handler.run ndebug (.dataRow d :: msgs) (.resultsetCallback h) w =
      Handler.run ndebug msgs (.resultsetCallback h') w' :=
  Handler.run_cons (lift_row hmsg) msgs

/-- Behind an error no row is looked at. -/
theorem run_skips (hstate : h.state = .parsingData) (herr : h.err.code.failed = true) :
    ∀ msgs : List DataRow, Handler.run ndebug (msgs.map .dataRow) (.resultsetCallback h) w =
      .ok (.resultsetCallback h, w)
  | [] => rfl
  | d :: msgs => by
      rw [List.map_cons, run_row (onDataRow_skips hstate herr d)]
      exact run_skips hstate herr msgs

/-- What the error of a callback is behind rows that ended with `ec`. -/
def errAfter (err : ExtendedError) : Option ErrorCode → ExtendedError
  | none => err
  | some ec => { code := ec }

/-- **Rows that are all long enough**, up to the first that cannot be decoded. -/
theorem Reading.run : ∀ {msgs : List DataRow} {cells : List (List (Option Bytes))},
    List.Forall₂ (fun (d : DataRow) cs => walk d.columns fieldViewTraits = .ok cs) msgs cells →
    ∀ {h : ResultsetCallback V} {w : World V} {values : List (List V)} {ec : Option ErrorCode},
      h.Reading fields → h.err.code.failed = false →
      readRows fields h.members cells = some (values, ec) →
      ∃ h' w', Handler.run ndebug (msgs.map .dataRow) (.resultsetCallback h) w =
          .ok (.resultsetCallback h', w') ∧
        h'.Reading fields ∧ h'.members = h.members ∧ h'.err = errAfter h.err ec ∧
        w'.rows = w.rows ++ values.map fun vs => (h.cb, vs)
  | [], _, hmsgs, h, w, values, ec, hr, herr, hread => by
      cases hmsgs
      cases hread
      exact ⟨h, w, rfl, hr, rfl, rfl, by simp⟩
  | d :: msgs, _, hmsgs, h, w, values, ec, hr, herr, hread => by
      obtain ⟨row, cells, hd, hrest, rfl⟩ := List.forall₂_cons_left_iff.mp hmsgs
      obtain ⟨results, hresults, hread⟩ := Option.bind_eq_some_iff.mp hread
      cases hfind : results.find? (·.1.failed) with
      | some res =>
        rw [hfind] at hread
        cases hread
        have hfailed : res.1.failed = true := by simpa using List.find?_some hfind
        let h' : ResultsetCallback V := { h with randomAccessData := row, err := { code := res.1 } }
        have hr' : h'.Reading fields := ⟨hr.state, hr.posMap⟩
        refine ⟨h', w, ?_, hr', rfl, rfl, by simp⟩
        rw [List.map_cons, run_row (hr.onDataRow_fails herr hd hresults hfind)]
        exact run_skips hr'.state hfailed msgs
      | none =>
        rw [hfind] at hread
        obtain ⟨⟨values', ec'⟩, hread', hcons⟩ := Option.bind_eq_some_iff.mp hread
        cases hcons
        have hr' : Reading fields { h with randomAccessData := row } := ⟨hr.state, hr.posMap⟩
        obtain ⟨h', w', hrun, hr'', hmembers, herr', hrows⟩ := Reading.run hrest hr' herr hread'
        refine ⟨h', w', ?_, hr'', hmembers, herr', ?_⟩
        · rw [List.map_cons, run_row (hr.onDataRow_passes herr hd hresults hfind)]
          exact hrun
        · rw [hrows]
          simp

/-- **A row that is too short** throws. -/
theorem Reading.run_throws : ∀ {msgs : List DataRow} {cells : List (List (Option Bytes))},
    List.Forall₂ (fun (d : DataRow) cs => walk d.columns fieldViewTraits = .ok cs) msgs cells →
    ∀ {h : ResultsetCallback V} {w : World V}, h.Reading fields → h.err.code.failed = false →
      readRows fields h.members cells = none → ∀ rest : List AnyRequestMessage,
      Handler.run ndebug (msgs.map .dataRow ++ rest) (.resultsetCallback h) w = .error .exception
  | [], _, hmsgs, h, w, _, _, hread, _ => by
      cases hmsgs
      cases hread
  | d :: msgs, _, hmsgs, h, w, hr, herr, hread, rest => by
      obtain ⟨row, cells, hd, hrest, rfl⟩ := List.forall₂_cons_left_iff.mp hmsgs
      rw [List.map_cons, List.cons_append]
      rw [readRows] at hread
      cases hresults : decodeRow fields h.members row with
      | none =>
        have hthrow : (Handler.resultsetCallback h).onMessage ndebug (.dataRow d) w =
            .error .exception := map_eq_error.mpr (hr.onDataRow_throws herr hd hresults)
        rw [Handler.run, hthrow]
        rfl
      | some results =>
        rw [hresults] at hread
        simp only [bind, Option.bind] at hread
        cases hfind : results.find? (·.1.failed) with
        | some res =>
          rw [hfind] at hread
          cases hread
        | none =>
          rw [hfind] at hread
          have hread' : readRows fields h.members cells = none := by
            cases hrec : readRows fields h.members cells with
            | none => rfl
            | some p =>
              simp only [hrec] at hread
              cases hread
          have hr' : Reading fields { h with randomAccessData := row } := ⟨hr.state, hr.posMap⟩
          rw [run_row (hr.onDataRow_passes herr hd hresults hfind)]
          exact Reading.run_throws hrest hr' herr hread' rest

/-! ## 4. A resultset -/

/-- The description. -/
theorem describes (hnodup : (h.members.map (·.name)).Nodup) (hstate : h.state = .parsingMeta)
    {d : RowDescription} (hd : walk d.fieldDescriptions fieldDescriptionTraits = .ok fields) :
    ∃ h', h.onMessage ndebug (.rowDescription d) w = .ok (h', w) ∧ h'.Reading fields ∧
      h'.members = h.members ∧ h'.cb = h.cb ∧
      h'.err = keepFirst h.err (ofCode (descriptionError h.members fields)) := by
  have hassert : boostAssert ndebug (h.state = .parsingMeta) = .ok () :=
    boostAssert_eq_ok.mpr (.inr (by simp [hstate]))
  have hdescribed : h.onRowDescription ndebug d = .ok { h with
      state := .parsingData
      posMap := some (computePosMap fields (h.members.map (·.name))).2
      err := keepFirst h.err (ofCode (descriptionError h.members fields)) } := by
    rw [onRowDescription_eq, hassert, hd]
    rfl
  refine ⟨_, bind_eq_ok.mpr ⟨_, hdescribed, rfl⟩, ⟨rfl, ?_⟩, rfl, rfl, rfl⟩
  rw [computePosMap_eq hnodup, List.map_map]
  rfl

/-- The terminator. -/
theorem terminates (hstate : h.state = .parsingData) (t : Terminator) :
    ∃ h' w', h.onMessage ndebug t.message w = .ok (h', w') ∧
      h'.err = keepFirst h.err (errorOf t.message) ∧ w'.rows = w.rows := by
  have hassert : boostAssert ndebug (h.state = .parsingData) = .ok () :=
    boostAssert_eq_ok.mpr (.inr (by simp [hstate]))
  have hrows : ∀ (info : Option Nat) (f : CommandInfo → CommandInfo),
      (w.updateInfo info f).rows = w.rows := by
    intro info f
    cases info <;> rfl
  cases t with
  | commandComplete tag =>
    exact ⟨{ h with state := .done }, _, bind_eq_ok.mpr ⟨_, bind_eq_ok.mpr ⟨(), hassert, rfl⟩, rfl⟩,
      rfl, hrows _ _⟩
  | portalSuspended =>
    exact ⟨{ h with state := .done }, _, bind_eq_ok.mpr ⟨_, bind_eq_ok.mpr ⟨(), hassert, rfl⟩, rfl⟩,
      rfl, hrows _ _⟩
  | errorResponse e => exact ⟨{ h with err := maybeStoreError e h.err }, w, rfl, rfl, rfl⟩

/-- The messages of a resultset. -/
def resultsetMessages (d : RowDescription) (rows : List DataRow) (t : Terminator) :
    List AnyRequestMessage :=
  .rowDescription d :: (rows.map .dataRow ++ [t.message])

section
variable {d : RowDescription} {rows : List DataRow} {cells : List (List (Option Bytes))}

/-- **A description with an error**, and any rows: the callback is not invoked. -/
theorem run_rows_of_described_badly (hnodup : (h.members.map (·.name)).Nodup)
    (hstate : h.state = .parsingMeta) (herr : h.err = {})
    (hd : walk d.fieldDescriptions fieldDescriptionTraits = .ok fields) {e : ExtendedError}
    (he : ofCode (descriptionError h.members fields) = some e) (rows : List DataRow) :
    ∃ h', Handler.run ndebug (.rowDescription d :: rows.map .dataRow) (.resultsetCallback h) w =
        .ok (.resultsetCallback h', w) ∧ h'.state = .parsingData ∧ h'.err = e := by
  obtain ⟨h', hmsg, hr, -, -, herr'⟩ := describes hnodup hstate hd
  have he' : h'.err = e := by
    rw [herr', herr, he]
    rfl
  refine ⟨h', ?_, hr.state, he'⟩
  rw [Handler.run_cons (lift hmsg)]
  exact run_skips hr.state (by rw [he']; exact failed_ofCode he) rows

/-- **A description without an error**, and rows that are long enough. -/
theorem run_rows_of_described (hnodup : (h.members.map (·.name)).Nodup)
    (hstate : h.state = .parsingMeta) (herr : h.err = {})
    (hd : walk d.fieldDescriptions fieldDescriptionTraits = .ok fields)
    (hrows : List.Forall₂ (fun (d : DataRow) cs => walk d.columns fieldViewTraits = .ok cs) rows
      cells)
    (hgood : ofCode (descriptionError h.members fields) = none) {values : List (List V)}
    {ec : Option ErrorCode} (hread : readRows fields h.members cells = some (values, ec)) :
    ∃ h' w', Handler.run ndebug (.rowDescription d :: rows.map .dataRow) (.resultsetCallback h) w =
        .ok (.resultsetCallback h', w') ∧
      h'.Reading fields ∧ h'.members = h.members ∧ h'.err = errAfter {} ec ∧
      w'.rows = w.rows ++ values.map fun vs => (h.cb, vs) := by
  obtain ⟨h₁, hmsg, hr, hmembers, hcb, herr₁⟩ := describes hnodup hstate hd
  have he₁ : h₁.err = {} := by
    rw [herr₁, herr, hgood]
    rfl
  rw [← hmembers] at hread
  obtain ⟨h', w', hrun, hr', hmembers', herr', hvalues⟩ := hr.run hrows (by rw [he₁]; rfl) hread
  refine ⟨h', w', ?_, hr', hmembers'.trans hmembers, ?_, ?_⟩
  · rw [Handler.run_cons (lift hmsg)]
    exact hrun
  · rw [herr', he₁]
  · rw [hvalues, hcb]

/-- **The terminator behind the rows.** -/
theorem run_resultsetMessages {h' : ResultsetCallback V} {w' : World V}
    (hrun : Handler.run ndebug (.rowDescription d :: rows.map .dataRow) (.resultsetCallback h) w =
      .ok (.resultsetCallback h', w')) (hstate : h'.state = .parsingData) (t : Terminator) :
    ∃ h'' w'', Handler.run ndebug (resultsetMessages d rows t) (.resultsetCallback h) w =
        .ok (.resultsetCallback h'', w'') ∧
      h''.err = keepFirst h'.err (errorOf t.message) ∧ w''.rows = w'.rows := by
  obtain ⟨h'', w'', hlast, herr, hvalues⟩ := terminates hstate t
  refine ⟨h'', w'', ?_, herr, hvalues⟩
  rw [resultsetMessages, ← List.cons_append, Handler.run_append hrun, Handler.run_cons (lift hlast)]
  rfl

/-- **All messages, behind a description with an error.** -/
theorem run_described_badly (hnodup : (h.members.map (·.name)).Nodup)
    (hstate : h.state = .parsingMeta) (herr : h.err = {})
    (hd : walk d.fieldDescriptions fieldDescriptionTraits = .ok fields) {e : ExtendedError}
    (he : ofCode (descriptionError h.members fields) = some e) (rows : List DataRow)
    (t : Terminator) :
    ∃ h' w', Handler.run ndebug (resultsetMessages d rows t) (.resultsetCallback h) w =
        .ok (.resultsetCallback h', w') ∧
      h'.err = keepFirst e (errorOf t.message) ∧ w'.rows = w.rows := by
  obtain ⟨h₁, hrun₁, hstate₁, herr₁⟩ := run_rows_of_described_badly hnodup hstate herr hd he rows
  obtain ⟨h', w', hrun, herr', hvalues⟩ := run_resultsetMessages hrun₁ hstate₁ t
  exact ⟨h', w', hrun, by rw [herr', herr₁], hvalues⟩

/-- **All messages, behind a description without an error.** -/
theorem run_described (hnodup : (h.members.map (·.name)).Nodup)
    (hstate : h.state = .parsingMeta) (herr : h.err = {})
    (hd : walk d.fieldDescriptions fieldDescriptionTraits = .ok fields)
    (hrows : List.Forall₂ (fun (d : DataRow) cs => walk d.columns fieldViewTraits = .ok cs) rows
      cells)
    (hgood : ofCode (descriptionError h.members fields) = none) {values : List (List V)}
    {ec : Option ErrorCode} (hread : readRows fields h.members cells = some (values, ec))
    (t : Terminator) :
    ∃ h' w', Handler.run ndebug (resultsetMessages d rows t) (.resultsetCallback h) w =
        .ok (.resultsetCallback h', w') ∧
      h'.err = keepFirst (errAfter {} ec) (errorOf t.message) ∧
      w'.rows = w.rows ++ values.map fun vs => (h.cb, vs) := by
  obtain ⟨h₁, w₁, hrun₁, hr, -, herr₁, hvalues₁⟩ :=
    run_rows_of_described hnodup hstate herr hd hrows hgood hread
  obtain ⟨h', w', hrun, herr', hvalues⟩ := run_resultsetMessages hrun₁ hr.state t
  exact ⟨h', w', hrun, by rw [herr', herr₁], by rw [hvalues, hvalues₁]⟩

/-- **A row that is too short** is not survived. -/
theorem run_of_short (hnodup : (h.members.map (·.name)).Nodup)
    (hstate : h.state = .parsingMeta) (herr : h.err = {})
    (hd : walk d.fieldDescriptions fieldDescriptionTraits = .ok fields)
    (hrows : List.Forall₂ (fun (d : DataRow) cs => walk d.columns fieldViewTraits = .ok cs) rows
      cells)
    (hgood : ofCode (descriptionError h.members fields) = none)
    (hread : readRows fields h.members cells = none) (t : Terminator) :
    Handler.run ndebug (resultsetMessages d rows t) (.resultsetCallback h) w =
      .error .exception := by
  obtain ⟨h₁, hmsg, hr, hmembers, -, herr₁⟩ := describes hnodup hstate hd
  have he₁ : h₁.err = {} := by
    rw [herr₁, herr, hgood]
    rfl
  rw [← hmembers] at hread
  rw [resultsetMessages, Handler.run_cons (lift hmsg)]
  exact hr.run_throws hrows (by rw [he₁]; rfl) hread [t.message]

end

end ResultsetCallback

/-- Does a row have no undecodable field? -/
def Decodes (results : List (ErrorCode × V)) : Bool := results.all fun res => !res.1.failed

theorem find?_failed_eq_none {results : List (ErrorCode × V)} :
    results.find? (·.1.failed) = none ↔ Decodes results = true := by
  rw [List.find?_eq_none, Decodes, List.all_eq_true]
  simp

section
variable {fields : List FieldDescription} {members : List (Member V)}

/-- **Rows that are all long enough are read up to the first with an undecodable field.** -/
theorem readRows_eq : ∀ {cells : List (List (Option Bytes))} {decoded : List (List (ErrorCode × V))},
    List.Forall₂ (fun row results => decodeRow fields members row = some results) cells decoded →
    readRows fields members cells =
      some ((decoded.takeWhile Decodes).map (·.map (·.2)),
        (decoded.flatten.find? (·.1.failed)).map (·.1))
  | [], _, h => by
      cases h
      rfl
  | row :: cells, _, h => by
      obtain ⟨results, decoded, hresults, hrest, rfl⟩ := List.forall₂_cons_left_iff.mp h
      rw [readRows, hresults, readRows_eq hrest, List.flatten_cons, List.find?_append]
      cases hfind : results.find? (·.1.failed) with
      | some res =>
        have hbad : ¬Decodes results = true := by
          rw [← find?_failed_eq_none, hfind]
          simp
        rw [List.takeWhile_cons_of_neg hbad]
        simp only [bind, Option.bind, hfind]
        rfl
      | none =>
        rw [List.takeWhile_cons_of_pos (find?_failed_eq_none.mp hfind)]
        simp only [bind, Option.bind, hfind]
        rfl

/-- A row with as many columns as the description is long enough. -/
theorem exists_decodeRow (hcolumns : ∀ m ∈ members, lastColumn fields m.name ≠ none)
    {row : List (Option Bytes)} (hwidth : row.length = fields.length) :
    ∃ results, decodeRow fields members row = some results := by
  refine exists_mapM_eq_some fun m hm => ?_
  obtain ⟨⟨f, i⟩, hcolumn⟩ := Option.ne_none_iff_exists'.mp (hcolumns m hm)
  have hlt := (List.getElem?_eq_some_iff.mp (lastColumn_eq_some hcolumn).1).1
  have hget : row[i]? = some row[i] := List.getElem?_eq_getElem (by omega)
  refine ⟨m.parse f.fmtCode row[i] f.typeOid, ?_⟩
  rw [decodeMember, hcolumn]
  simp [hget]

/-- Where every member has a column, the types of these say what codes there are. -/
theorem exists_codes (hcolumns : ∀ m ∈ members, lastColumn fields m.name ≠ none) :
    ∃ codes, members.mapM (compatibleCode fields) = some codes := by
  refine exists_mapM_eq_some fun m hm => ?_
  obtain ⟨column, hcolumn⟩ := Option.ne_none_iff_exists'.mp (hcolumns m hm)
  exact ⟨_, by rw [compatibleCode, hcolumn]; rfl⟩

theorem lastColumn_of_codes {codes : List ErrorCode}
    (hcodes : members.mapM (compatibleCode fields) = some codes) :
    ∀ m ∈ members, lastColumn fields m.name ≠ none := by
  intro m hm hnone
  obtain ⟨ec, hec⟩ := exists_of_forall₂ (mapM_eq_some.mp hcodes) m hm
  rw [compatibleCode, hnone] at hec
  cases hec

end

/-- **Row mapping by name.** A callback that is set up gets a description, rows with as many columns,
    and a CommandComplete. Where all members have a column, and their types accept the types of the
    last columns of their names, the user's callback is invoked with the rows before the first one
    with an undecodable field, and the result is the first decoding error. Where a member has no
    column, or a type is not accepted, it is not invoked at all. -/
theorem rows_mapped_by_name {ndebug : Bool} {h : ResultsetCallback V} {hdl : Handler V}
    {req : Request} {off : Nat} {w w₀ : World V} {res : HandlerSetupResult}
    (hsetup : (Handler.resultsetCallback h).setup req off w = .ok (res, hdl, w₀))
    (hnodup : (h.members.map (·.name)).Nodup) {d : RowDescription} {fields : List FieldDescription}
    (hd : walk d.fieldDescriptions fieldDescriptionTraits = .ok fields) {rows : List DataRow}
    {cells : List (List (Option Bytes))}
    (hrows : List.Forall₂ (fun (d : DataRow) cs => walk d.columns fieldViewTraits = .ok cs) rows
      cells)
    (hwidth : ∀ row ∈ cells, row.length = fields.length) (tag : Bytes) :
    ∃ hdl' w', hdl.run ndebug (.rowDescription d :: (rows.map .dataRow ++ [.commandComplete tag])) w₀ =
        .ok (hdl', w') ∧
      (∀ codes, h.members.mapM (compatibleCode fields) = some codes →
        (∀ ec ∈ codes, ec.failed = false) →
        ∃ decoded, cells.mapM (decodeRow fields h.members) = some decoded ∧
          w'.rows = w₀.rows ++
            (decoded.takeWhile Decodes).map (fun results => (h.cb, results.map (·.2))) ∧
          hdl'.result = match decoded.flatten.find? (·.1.failed) with
            | none => {}
            | some res => { code := res.1 }) ∧
      ((∃ m ∈ h.members, lastColumn fields m.name = none) →
        w'.rows = w₀.rows ∧ hdl'.result = { code := ClientErrc.fieldNotFound.code }) ∧
      (∀ codes ec, h.members.mapM (compatibleCode fields) = some codes →
        codes.find? (·.failed) = some ec → w'.rows = w₀.rows ∧ hdl'.result = { code := ec }) := by
  rw [Handler.setup_eq] at hsetup
  obtain ⟨res', -, heq⟩ := map_eq_ok.mp hsetup
  cases heq
  let h₀ : ResultsetCallback V := { h with state := .parsingMeta, err := {} }
  show ∃ hdl' w', Handler.run ndebug (ResultsetCallback.resultsetMessages d rows (.commandComplete tag))
    (.resultsetCallback h₀) _ = _ ∧ _
  by_cases hmissing : ∃ m ∈ h.members, lastColumn fields m.name = none
  · have he : ofCode (ResultsetCallback.descriptionError h₀.members fields) =
        some { code := ClientErrc.fieldNotFound.code } := by
      rw [show h₀.members = h.members from rfl, descriptionError_of_missing hnodup hmissing]
      rfl
    obtain ⟨h', w', hrun, herr, hnone⟩ := ResultsetCallback.run_described_badly (h := h₀)
      hnodup rfl rfl hd he rows (.commandComplete tag)
    have hcodes : ∀ codes, h.members.mapM (compatibleCode fields) ≠ some codes := by
      intro codes hcodes
      obtain ⟨m, hm, hcolumn⟩ := hmissing
      exact lastColumn_of_codes hcodes m hm hcolumn
    exact ⟨_, w', hrun, fun codes h => absurd h (hcodes codes), fun _ => ⟨hnone, herr⟩,
      fun codes _ h => absurd h (hcodes codes)⟩
  · have hcolumns : ∀ m ∈ h.members, lastColumn fields m.name ≠ none := fun m hm hnone =>
      hmissing ⟨m, hm, hnone⟩
    obtain ⟨codes, hcodes⟩ := exists_codes hcolumns
    have he := ofCode_descriptionError hnodup hcodes
    cases hfind : codes.find? (·.failed) with
    | some ec =>
      rw [hfind] at he
      obtain ⟨h', w', hrun, herr, hnone⟩ := ResultsetCallback.run_described_badly (h := h₀)
        hnodup rfl rfl hd he rows (.commandComplete tag)
      refine ⟨_, w', hrun, fun codes' hcodes' hall => ?_, fun h => absurd h hmissing,
        fun codes' ec' hcodes' hfind' => ?_⟩
      · rw [hcodes] at hcodes'
        cases hcodes'
        have hgood := hall ec (List.mem_of_find?_eq_some hfind)
        rw [List.find?_some hfind] at hgood
        cases hgood
      · rw [hcodes] at hcodes'
        cases hcodes'
        rw [hfind] at hfind'
        cases hfind'
        exact ⟨hnone, herr⟩
    | none =>
      rw [hfind] at he
      obtain ⟨decoded, hdecoded⟩ : ∃ decoded, cells.mapM (decodeRow fields h.members) =
          some decoded :=
        exists_mapM_eq_some fun row hrow => exists_decodeRow hcolumns (hwidth row hrow)
      obtain ⟨h', w', hrun, herr, hvalues⟩ := ResultsetCallback.run_described (h := h₀) hnodup rfl rfl
        hd hrows he (readRows_eq (mapM_eq_some.mp hdecoded)) (.commandComplete tag)
      refine ⟨_, w', hrun, fun codes' hcodes' _ => ⟨decoded, hdecoded, ?_, ?_⟩,
        fun h => absurd h hmissing, fun codes' ec' hcodes' hfind' => ?_⟩
      · rw [hvalues, List.map_map]
        rfl
      · refine Eq.trans herr ?_
        cases decoded.flatten.find? (·.1.failed) <;> rfl
      · rw [hcodes] at hcodes'
        cases hcodes'
        rw [hfind] at hfind'
        cases hfind'

end

/-- The columns `x`, `y`, `x`, of which the first is of another type, and two rows, the second with
    a NULL. -/
theorem rows_mapped_by_name_permuted :
    ∃ (hdl hdl' : Handler Nat) (w w₀ w' : World Nat),
      (Handler.resultsetCallback xyCallback).setup { messages := [.query] } 0 w =
        .ok ((.success, 1), hdl, w₀) ∧
      hdl.run false [.rowDescription ⟨⟨3, [120, 0, 0, 0, 0, 1, 0, 1, 0, 0, 0, 25, 0, 4, 0, 0, 0, 0, 0, 0,
          121, 0, 0, 0, 0, 1, 0, 2, 0, 0, 0, 23, 0, 4, 0, 0, 0, 0, 0, 0,
          120, 0, 0, 0, 0, 1, 0, 3, 0, 0, 0, 23, 0, 4, 0, 0, 0, 0, 0, 0]⟩⟩,
        .dataRow ⟨⟨3, [255, 255, 255, 255, 0, 0, 0, 1, 49, 0, 0, 0, 2, 50, 51]⟩⟩,
        .dataRow ⟨⟨3, [0, 0, 0, 0, 255, 255, 255, 255, 0, 0, 0, 1, 52]⟩⟩,
        .commandComplete (ascii "SELECT 2")] w₀ = .ok (hdl', w') ∧
      w'.rows = [(0, [2, 1])] ∧ hdl'.result = { code := ClientErrc.unexpectedNull.code } := by
  have hsetup : (Handler.resultsetCallback xyCallback).setup { messages := [.query] } 0
      ⟨fun _ => {}, fun _ => {}, fun _ => {}, []⟩ = .ok ((.success, 1), _, _) := rfl
  have hd : walk (RowDescription.mk ⟨3, [120, 0, 0, 0, 0, 1, 0, 1, 0, 0, 0, 25, 0, 4, 0, 0, 0, 0, 0, 0,
        121, 0, 0, 0, 0, 1, 0, 2, 0, 0, 0, 23, 0, 4, 0, 0, 0, 0, 0, 0,
        120, 0, 0, 0, 0, 1, 0, 3, 0, 0, 0, 23, 0, 4, 0, 0, 0, 0, 0, 0]⟩).fieldDescriptions
      fieldDescriptionTraits = .ok [⟨[120], 1, 1, 25, 4, 0, .text⟩, ⟨[121], 1, 2, 23, 4, 0, .text⟩,
        ⟨[120], 1, 3, 23, 4, 0, .text⟩] := rfl
  have hrows : List.Forall₂ (fun (d : DataRow) cs => walk d.columns fieldViewTraits = .ok cs)
      [⟨⟨3, [255, 255, 255, 255, 0, 0, 0, 1, 49, 0, 0, 0, 2, 50, 51]⟩⟩,
        ⟨⟨3, [0, 0, 0, 0, 255, 255, 255, 255, 0, 0, 0, 1, 52]⟩⟩]
      [[none, some [49], some [50, 51]], [some [], none, some [52]]] := .cons rfl (.cons rfl .nil)
  obtain ⟨hdl', w', hrun, hmapped, -, -⟩ := @rows_mapped_by_name Nat false _ _ _ _ _ _ _ hsetup
    (by decide) _ _ hd _ _ hrows (by decide) (ascii "SELECT 2")
  obtain ⟨decoded, hdecoded, hvalues, hresult⟩ := hmapped [.success, .success] rfl (by decide)
  cases hdecoded
  exact ⟨_, hdl', _, _, w', hsetup, hrun, hvalues, hresult⟩

end Responses

end NativePg
