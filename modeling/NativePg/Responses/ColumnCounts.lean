/-
  File:      NativePg/Responses/ColumnCounts.lean
  Subject:   Rows that do not have as many columns as their description.

  Nothing between the parser and the handlers compares the two counts, and the handlers do not
  either: "TODO: check that data_row has the appropriate size" (resultset_callback.hpp). So what
  happens depends on the rows.

  * `CallbackReports`, `ResultsetsReports` -- what is expected of the two handlers: an error, no
    call of the user's callback for such a row, and rows that show their own values only;
  * `StopsInTime` -- the callback has an error before it gets to such a row, or because of it;
  * `LongFirstRow` -- the only shape of values whose rows, counted back from the end, stay within
    what was received for them;
  * **`column_counts_exactly`** -- where the two handlers do what is expected.
-/
import NativePg.Lib.Delimited
import NativePg.Responses.RowMapping

namespace NativePg

namespace Responses

open Delimited

section
variable {V : Type}

/-! ## 1. The callback -/

/-- A row with as many columns as the description, and no undecodable field. -/
def Good (fields : List FieldDescription) (members : List (Member V)) (row : List (Option Bytes)) :
    Prop :=
  row.length = fields.length ∧
    ∃ results, decodeRow fields members row = some results ∧ Decodes results = true

/-- **The first row that is not good** has all columns the members need, and an undecodable field. -/
def StopsInTime (fields : List FieldDescription) (members : List (Member V))
    (cells : List (List (Option Bytes))) : Prop :=
  ∃ pre row post results, cells = pre ++ row :: post ∧ (∀ r ∈ pre, Good fields members r) ∧
    decodeRow fields members row = some results ∧ Decodes results = false

/-- **What is expected of `resultset_callback`**: it returns from every message, it has an error in
    the end, and the user's callback is not invoked for a row whose count is not the one of the
    description. -/
def CallbackReports (ndebug : Bool) (hdl : Handler V) (w : World V) (d : RowDescription)
    (rows : List DataRow) (t : Terminator) : Prop :=
  (∃ hdl' w', Handler.run ndebug (ResultsetCallback.resultsetMessages d rows t) hdl w =
      .ok (hdl', w') ∧ hdl'.result.code.failed = true) ∧
  ∀ {pre post : List DataRow} {row : DataRow}, rows = pre ++ row :: post →
    row.columns.size ≠ d.fieldDescriptions.size → ∀ {hdl₁ hdl₂ : Handler V} {w₁ w₂ : World V},
    Handler.run ndebug (.rowDescription d :: pre.map .dataRow) hdl w = .ok (hdl₁, w₁) →
    hdl₁.onMessage ndebug (.dataRow row) w₁ = .ok (hdl₂, w₂) → w₂.rows = w₁.rows

section
variable {fields : List FieldDescription} {members : List (Member V)}

theorem readRows_good : ∀ {pre : List (List (Option Bytes))}, (∀ r ∈ pre, Good fields members r) →
    ∃ values, ∀ rest, readRows fields members (pre ++ rest) =
      (readRows fields members rest).map fun p => (values ++ p.1, p.2)
  | [], _ => ⟨[], fun rest => by simp⟩
  | row :: pre, h => by
      obtain ⟨⟨-, results, hresults, hdecodes⟩, hpre⟩ := List.forall_mem_cons.mp h
      obtain ⟨values, hvalues⟩ := readRows_good hpre
      refine ⟨results.map (·.2) :: values, fun rest => ?_⟩
      rw [List.cons_append, readRows, hresults, hvalues]
      simp only [bind, Option.bind, find?_failed_eq_none.mpr hdecodes]
      cases readRows fields members rest with
      | none => rfl
      | some p => rfl

/-- The first failed result of a row that does not decode. -/
theorem exists_failed {results : List (ErrorCode × V)} (h : Decodes results = false) :
    ∃ res, results.find? (·.1.failed) = some res ∧ res.1.failed = true := by
  cases hfind : results.find? (·.1.failed) with
  | none =>
    rw [find?_failed_eq_none.mp hfind] at h
    cases h
  | some res => exact ⟨res, rfl, by simpa using List.find?_some hfind⟩

theorem readRows_stops {pre : List (List (Option Bytes))} {row : List (Option Bytes)}
    {results : List (ErrorCode × V)} (hpre : ∀ r ∈ pre, Good fields members r)
    (hresults : decodeRow fields members row = some results) (hbad : Decodes results = false)
    (post : List (List (Option Bytes))) :
    ∃ values ec, ec.failed = true ∧
      readRows fields members (pre ++ row :: post) = some (values, some ec) := by
  obtain ⟨values, hvalues⟩ := readRows_good hpre
  obtain ⟨res, hfind, hfailed⟩ := exists_failed hbad
  refine ⟨values ++ [], res.1, hfailed, ?_⟩
  rw [hvalues, readRows, hresults]
  simp only [bind, Option.bind, hfind]
  rfl

end

theorem failed_keepFirst_of_failed {err : ExtendedError} (h : err.code.failed = true)
    (o : Option ExtendedError) : (keepFirst err o).code.failed = true := by
  cases o with
  | none => exact h
  | some e => rw [keepFirst, if_pos h, h]

section
variable {ndebug : Bool} {h : ResultsetCallback V} {w : World V} {d : RowDescription}
  {fields : List FieldDescription} {rows : List DataRow} {cells : List (List (Option Bytes))}

open ResultsetCallback

theorem ofCode_eq_some {ec : ErrorCode} (h : ec.failed = true) : ofCode ec = some { code := ec } :=
  if_pos h

theorem ofCode_eq_none {ec : ErrorCode} (h : ec.failed = false) : ofCode ec = none := by
  rw [ofCode, h]
  rfl

/-- What a row does to a run that has got so far. -/
theorem worlds_of_row {msgs : List AnyRequestMessage} {h₁ h₂ : ResultsetCallback V}
    {hdl hdl₁ hdl₂ : Handler V} {w w₁ w₁' w₂ w₂' : World V} {row : DataRow}
    (hrun : Handler.run ndebug msgs hdl w = .ok (.resultsetCallback h₁, w₁'))
    (hrow : h₁.onDataRow ndebug row w₁' = .ok (h₂, w₂'))
    (hrun₁ : Handler.run ndebug msgs hdl w = .ok (hdl₁, w₁))
    (hmsg : hdl₁.onMessage ndebug (.dataRow row) w₁ = .ok (hdl₂, w₂)) : w₁ = w₁' ∧ w₂ = w₂' := by
  rw [hrun] at hrun₁
  cases hrun₁
  rw [lift_row hrow] at hmsg
  cases hmsg
  exact ⟨rfl, rfl⟩

/-- A description with an error, and whatever comes. -/
theorem callbackReports_of_described_badly (hnodup : (h.members.map (·.name)).Nodup)
    (hstate : h.state = .parsingMeta) (herr : h.err = {})
    (hd : walk d.fieldDescriptions fieldDescriptionTraits = .ok fields)
    (hfailed : (descriptionError h.members fields).failed = true) (t : Terminator) :
    CallbackReports ndebug (.resultsetCallback h) w d rows t := by
  have hbadly := @run_rows_of_described_badly V ndebug fields h w d hnodup hstate herr hd _
    (ofCode_eq_some hfailed)
  refine ⟨?_, fun {pre post row} _ _ {hdl₁ hdl₂ w₁ w₂} hrun₁ hmsg => ?_⟩
  · obtain ⟨h', w', hrun, herr', -⟩ := @run_described_badly V ndebug fields h w d hnodup hstate
      herr hd _ (ofCode_eq_some hfailed) rows t
    refine ⟨_, w', hrun, ?_⟩
    show h'.err.code.failed = true
    rw [herr']
    exact failed_keepFirst_of_failed hfailed _
  · obtain ⟨h₁, hrun, hstate₁, herr₁⟩ := hbadly pre
    have hfailed₁ : h₁.err.code.failed = true := by
      rw [herr₁]
      exact hfailed
    obtain ⟨rfl, rfl⟩ := worlds_of_row hrun (onDataRow_skips hstate₁ hfailed₁ row) hrun₁ hmsg
    rfl

/-- The first row that is not good stops the rows. -/
theorem callbackReports_of_stops (hnodup : (h.members.map (·.name)).Nodup)
    (hstate : h.state = .parsingMeta) (herr : h.err = {})
    (hd : walk d.fieldDescriptions fieldDescriptionTraits = .ok fields)
    (hrows : List.Forall₂ (fun (d : DataRow) cs => walk d.columns fieldViewTraits = .ok cs) rows
      cells)
    (hgood : (descriptionError h.members fields).failed = false)
    (hstops : StopsInTime fields h.members cells) (t : Terminator) :
    CallbackReports ndebug (.resultsetCallback h) w d rows t := by
  obtain ⟨pre, row, post, results, rfl, hpre, hresults, hbad⟩ := hstops
  have hreads : ∀ {msgs : List DataRow} {cs : List (List (Option Bytes))} {values : List (List V)}
      {ec : Option ErrorCode},
      List.Forall₂ (fun (d : DataRow) cs => walk d.columns fieldViewTraits = .ok cs) msgs cs →
      readRows fields h.members cs = some (values, ec) → ∃ h' w',
        Handler.run ndebug (.rowDescription d :: msgs.map .dataRow) (.resultsetCallback h) w =
          .ok (.resultsetCallback h', w') ∧
        h'.Reading fields ∧ h'.members = h.members ∧ h'.err = errAfter {} ec := by
    intro msgs cs values ec hmsgs hread
    obtain ⟨h', w', hrun, hr, hmembers, herr', -⟩ := run_rows_of_described hnodup hstate herr hd
      hmsgs (ofCode_eq_none hgood) hread
    exact ⟨h', w', hrun, hr, hmembers, herr'⟩
  refine ⟨?_, fun {pre' post' row'} heq hsize {hdl₁ hdl₂ w₁ w₂} hrun₁ hmsg => ?_⟩
  · obtain ⟨values, ec, hfailed, hread⟩ := readRows_stops hpre hresults hbad post
    obtain ⟨h', w', hrun, herr', -⟩ := @run_described V ndebug fields h w d rows _ hnodup hstate
      herr hd hrows (ofCode_eq_none hgood) _ _ hread t
    refine ⟨_, w', hrun, ?_⟩
    show h'.err.code.failed = true
    rw [herr']
    exact failed_keepFirst_of_failed hfailed _
  · rw [heq] at hrows
    obtain ⟨preC, rowC, postC, hcells, hpreC, hrowC, -⟩ := Flat.forall₂_cut hrows.flip
    have hwidth : rowC.length ≠ fields.length := by
      rw [length_of_walk hrowC, length_of_walk hd]
      exact hsize
    -- the row stands at the row that stops the rows, or behind it
    have hstands := cut_behind (fun r hr => (hpre r hr).1) hwidth hcells.symm
    rcases hstands with ⟨rfl, rfl⟩ | ⟨between, rfl⟩
    · obtain ⟨values, hvalues⟩ := readRows_good hpre
      have hread : readRows fields h.members preC = some (values ++ [], none) := by
        simpa [readRows] using hvalues []
      obtain ⟨h₁, w₁', hrun, hr, hmembers, herr₁⟩ := hreads hpreC.flip hread
      obtain ⟨res, hfind, -⟩ := exists_failed hbad
      rw [← hmembers] at hresults
      have hgood₁ : h₁.err.code.failed = false := by
        rw [herr₁]
        rfl
      obtain ⟨rfl, rfl⟩ :=
        worlds_of_row hrun (hr.onDataRow_fails hgood₁ hrowC hresults hfind) hrun₁ hmsg
      rfl
    · obtain ⟨values, ec, hfailed, hread⟩ := readRows_stops hpre hresults hbad between
      obtain ⟨h₁, w₁', hrun, hr, -, herr₁⟩ := hreads hpreC.flip hread
      have hfailed₁ : h₁.err.code.failed = true := by
        rw [herr₁]
        exact hfailed
      obtain ⟨rfl, rfl⟩ := worlds_of_row hrun (onDataRow_skips hr.state hfailed₁ row') hrun₁ hmsg
      rfl

/-- **Only then**: else the first row that is not good is too short to be read, or it is passed on. -/
theorem stops_of_callbackReports (hnodup : (h.members.map (·.name)).Nodup)
    (hstate : h.state = .parsingMeta) (herr : h.err = {})
    (hd : walk d.fieldDescriptions fieldDescriptionTraits = .ok fields)
    (hrows : List.Forall₂ (fun (d : DataRow) cs => walk d.columns fieldViewTraits = .ok cs) rows
      cells)
    (hgood : (descriptionError h.members fields).failed = false)
    (hcount : ∃ row ∈ cells, row.length ≠ fields.length) {t : Terminator}
    (hreports : CallbackReports ndebug (.resultsetCallback h) w d rows t) :
    StopsInTime fields h.members cells := by
  have hnone := ofCode_eq_none hgood
  have hexists : ∃ row ∈ cells, ¬Good fields h.members row := by
    obtain ⟨row, hrow, hlength⟩ := hcount
    exact ⟨row, hrow, fun hg => hlength hg.1⟩
  obtain ⟨pre, row, post, rfl, hpre, hnot⟩ := exists_first hexists
  obtain ⟨values, hvalues⟩ := readRows_good hpre
  cases hresults : decodeRow fields h.members row with
  | none =>
    -- the row is too short, and the run does not return
    have hread : readRows fields h.members (pre ++ row :: post) = none := by
      rw [hvalues, readRows, hresults]
      rfl
    obtain ⟨hdl', w', hrun, -⟩ := hreports.1
    rw [run_of_short hnodup hstate herr hd hrows hnone hread t] at hrun
    cases hrun
  | some results =>
    cases hdecodes : Decodes results with
    | false => exact ⟨pre, row, post, results, rfl, hpre, hresults, hdecodes⟩
    | true =>
      -- the row is passed on, although its count is another
      have hlength : row.length ≠ fields.length := fun hlength =>
        hnot ⟨hlength, results, hresults, hdecodes⟩
      obtain ⟨preM, rowM, postM, rfl, hpreM, hrowM, -⟩ := Flat.forall₂_cut hrows
      have hsize : rowM.columns.size ≠ d.fieldDescriptions.size := by
        rw [← length_of_walk hrowM, ← length_of_walk hd]
        exact hlength
      have hread : readRows fields h.members pre = some (values ++ [], none) := by
        simpa [readRows] using hvalues []
      obtain ⟨h₁, w₁, hrun, hr, hmembers, herr₁, -⟩ := @run_rows_of_described V ndebug fields h w d
        preM pre hnodup hstate herr hd hpreM hnone _ _ hread
      have hgood₁ : h₁.err.code.failed = false := by
        rw [herr₁]
        rfl
      rw [← hmembers] at hresults
      have hsame := hreports.2 rfl hsize hrun (lift_row (hr.onDataRow_passes hgood₁ hrowM hresults
        (find?_failed_eq_none.mpr hdecodes)))
      simp at hsame

/-- **Where `resultset_callback` does what is expected.** -/
theorem callbackReports_iff (hnodup : (h.members.map (·.name)).Nodup)
    (hstate : h.state = .parsingMeta) (herr : h.err = {})
    (hd : walk d.fieldDescriptions fieldDescriptionTraits = .ok fields)
    (hrows : List.Forall₂ (fun (d : DataRow) cs => walk d.columns fieldViewTraits = .ok cs) rows
      cells)
    (hcount : ∃ row ∈ cells, row.length ≠ fields.length) (t : Terminator) :
    CallbackReports ndebug (.resultsetCallback h) w d rows t ↔
      (descriptionError h.members fields).failed = true ∨ StopsInTime fields h.members cells := by
  cases hfailed : (descriptionError h.members fields).failed with
  | true =>
    exact ⟨fun _ => .inl rfl, fun _ =>
      callbackReports_of_described_badly hnodup hstate herr hd hfailed t⟩
  | false =>
    constructor
    · intro hreports
      exact .inr (stops_of_callbackReports hnodup hstate herr hd hrows hfailed hcount hreports)
    · intro hstops
      exact callbackReports_of_stops hnodup hstate herr hd hrows hfailed
        (hstops.resolve_left (by simp)) t

end

/-! ## 2. The resultsets handler -/

/-- Each row an entry shows is made of values that were received for it: `msgs` are the rows, and the
    values of a row are those that are there behind it and were not there before it. -/
def ShowsOwnValues (ndebug : Bool) (hdl : Handler V) (w : World V) (obj : Nat) (d : RowDescription)
    (rows : List DataRow) (e : ResultsetDescriptor) : Prop :=
  ∀ {pre post : List DataRow} {row : DataRow}, rows = pre ++ row :: post →
    0 < e.descr.length → ∀ {hdl₁ hdl₂ : Handler V} {w₁ w₂ : World V},
    Handler.run ndebug (.rowDescription d :: pre.map .dataRow) hdl w = .ok (hdl₁, w₁) →
    hdl₁.onMessage ndebug (.dataRow row) w₁ = .ok (hdl₂, w₂) →
    (w₁.results obj).values.length ≤ e.values.offset + pre.length * e.descr.length ∧
      e.values.offset + (pre.length + 1) * e.descr.length ≤ (w₂.results obj).values.length

/-- **What is expected of `resultsets_handler`**: it returns from every message, it has an error in
    the end, the ranges in the object are within its vectors, and its rows show their own values. -/
def ResultsetsReports (ndebug : Bool) (hdl : Handler V) (w : World V) (obj : Nat) (d : RowDescription)
    (rows : List DataRow) (t : Terminator) : Prop :=
  ∃ hdl' w', Handler.run ndebug (ResultsetCallback.resultsetMessages d rows t) hdl w =
      .ok (hdl', w') ∧ hdl'.result.code.failed = true ∧
    ∀ e ∈ (w'.results obj).resultsets,
      e.descr.offset + e.descr.length ≤ (w'.results obj).fieldDescr.length ∧
      e.values.offset + e.values.length ≤ (w'.results obj).values.length ∧
      ShowsOwnValues ndebug hdl w obj d rows e

/-- The first row is too long, and all others have as many values as there are columns. -/
def LongFirstRow (n : Nat) (cells : List (List (Option Bytes))) : Prop :=
  ∃ first rest, cells = first :: rest ∧ n < first.length ∧ ∀ row ∈ rest, row.length = n

/-! ## 3. Rows counted back from the end -/

section
variable {n off : Nat} {cells : List (List (Option Bytes))}

/-- The rows of width `n` that start at `off` stay within what was received for them. -/
def WithinRows (n off : Nat) (cells : List (List (Option Bytes))) : Prop :=
  ∀ {pre post : List (List (Option Bytes))} {row : List (Option Bytes)}, cells = pre ++ row :: post →
    pre.flatten.length ≤ off + pre.length * n ∧
      off + (pre.length + 1) * n ≤ (pre ++ [row]).flatten.length

/-- Behind the first row, the rows shown and the rows received end at the same places. -/
theorem WithinRows.length_flatten (h : WithinRows n off cells)
    (htotal : cells.flatten.length = off + cells.length * n) (pre post : List (List (Option Bytes)))
    (hcells : cells = pre ++ post) (hne : pre ≠ []) : pre.flatten.length = off + pre.length * n := by
  refine Nat.le_antisymm ?_ ?_
  · cases post with
    | nil =>
      rw [List.append_nil] at hcells
      rw [← hcells, htotal]
    | cons row post => exact (h hcells).1
  · rcases List.eq_nil_or_concat pre with rfl | ⟨pre', row, rfl⟩
    · exact absurd rfl hne
    · rw [List.concat_eq_append, List.append_assoc] at hcells
      rw [List.concat_eq_append, List.length_append, List.length_singleton]
      exact (h hcells).2

/-- **Only a first row may be too long.** -/
theorem withinRows_iff (hne : cells ≠ []) (htotal : cells.flatten.length = off + cells.length * n) :
    WithinRows n off cells ↔ ∃ first rest, cells = first :: rest ∧ n ≤ first.length ∧
      ∀ row ∈ rest, row.length = n := by
  constructor
  · intro h
    obtain ⟨first, rest, rfl⟩ := List.exists_cons_of_ne_nil hne
    refine ⟨first, rest, rfl, ?_, fun row hrow => ?_⟩
    · have hfirst := (@h [] rest first rfl).2
      simp only [List.nil_append, List.flatten_singleton, List.length_nil, Nat.zero_add,
        Nat.one_mul] at hfirst
      omega
    · obtain ⟨p, q, rfl⟩ := List.append_of_mem hrow
      have hbefore := h.length_flatten htotal (first :: p) (row :: q) rfl (by simp)
      have hbehind := h.length_flatten htotal (first :: (p ++ [row])) q (by simp) (by simp)
      simp only [List.flatten_cons, List.flatten_append, List.flatten_nil, List.append_nil,
        List.length_append, List.length_cons, List.length_nil, Nat.add_mul, Nat.zero_add,
        Nat.one_mul] at hbefore hbehind
      omega
  · intro h
    obtain ⟨first, rest, rfl, hfirst, hrest⟩ := h
    have hlength := Flat.length_flatten hrest
    rw [List.flatten_cons, List.length_append, hlength, List.length_cons, Nat.add_mul,
      Nat.one_mul] at htotal
    intro pre post row heq
    cases pre with
    | nil =>
      cases heq
      simp only [List.nil_append, List.flatten_nil, List.flatten_singleton, List.length_nil,
        Nat.zero_mul, Nat.zero_add, Nat.one_mul]
      omega
    | cons x pre =>
      rw [List.cons_append] at heq
      obtain ⟨rfl, rfl⟩ := List.cons.inj heq
      have hpre := Flat.length_flatten fun r hr => hrest r (List.mem_append_left _ hr)
      have hrow := hrest row (by simp)
      simp only [List.cons_append, List.flatten_cons, List.flatten_append, List.flatten_nil,
        List.append_nil, List.length_append, List.length_cons, hpre, hrow, Nat.add_mul, Nat.one_mul]
      omega

end

/-! ## 4. What the resultsets handler does -/

section
variable {ndebug : Bool} {h : ResultsetsHandler} {w : World V} {d : RowDescription}
  {fields : List FieldDescription} {rows : List DataRow} {cells : List (List (Option Bytes))}

open ResultsetsHandler

/-- The description and the rows, whatever their counts. -/
theorem run_rows_of_idle (hidle : h.Idle) (hempty : w.results h.obj = {})
    (hd : walk d.fieldDescriptions fieldDescriptionTraits = .ok fields)
    (hrows : List.Forall₂ (fun (d : DataRow) cs => walk d.columns fieldViewTraits = .ok cs) rows
      cells) :
    ∃ h₁ w₁, Handler.run ndebug (.rowDescription d :: rows.map .dataRow) (.resultsetsHandler h) w =
        .ok (.resultsetsHandler h₁, w₁) ∧ h₁.Holding {} fields cells w₁ ∧
      h₁.state = .parsingData ∧ h₁.obj = h.obj ∧ h₁.err = h.err := by
  have hholding := hidle.holding w
  rw [hempty] at hholding
  obtain ⟨h₁, w₁, hmsg, hh₁, hstate₁⟩ := hholding.describe hidle.state hd
  obtain ⟨hobj₁, herr₁⟩ := ResultsetsHandler.onMessage_ok hmsg
  obtain ⟨h₂, w₂, hrun, hh₂, hstate₂, hobj₂, herr₂⟩ := hh₁.run hstate₁ hrows
  refine ⟨h₂, w₂, ?_, hh₂, hstate₂, hobj₂.trans hobj₁, herr₂.trans herr₁⟩
  rw [Handler.run_cons (lift hmsg)]
  exact hrun

/-- There are the values that were received. -/
theorem ResultsetsHandler.Holding.length_values (hh : h.Holding {} fields cells w) :
    (w.results h.obj).values.length = cells.flatten.length := by
  obtain ⟨vs, hvs, hdenotes⟩ := hh.values
  rw [hvs, ← hdenotes.length_eq]
  rfl

theorem ResultsetsHandler.Holding.length_fieldDescr (hh : h.Holding {} fields cells w) :
    (w.results h.obj).fieldDescr.length = fields.length := by
  obtain ⟨ds, hds, hdescribes⟩ := hh.descrs
  rw [hds, ← hdescribes.length_eq]
  rfl

/-- What a row adds is what is received for it. -/
theorem showsOwnValues_iff (hidle : h.Idle) (hempty : w.results h.obj = {})
    (hd : walk d.fieldDescriptions fieldDescriptionTraits = .ok fields)
    (hrows : List.Forall₂ (fun (d : DataRow) cs => walk d.columns fieldViewTraits = .ok cs) rows
      cells) (e : ResultsetDescriptor) :
    ShowsOwnValues ndebug (.resultsetsHandler h) w h.obj d rows e ↔
      (0 < e.descr.length → WithinRows e.descr.length e.values.offset cells) := by
  -- before and behind a row
  have hrow : ∀ {pre : List DataRow} {row : DataRow} {preC : List (List (Option Bytes))}
      {rowC : List (Option Bytes)},
      List.Forall₂ (fun (d : DataRow) cs => walk d.columns fieldViewTraits = .ok cs) pre preC →
      walk row.columns fieldViewTraits = .ok rowC → ∃ h₁ h₂ w₁ w₂,
        Handler.run ndebug (.rowDescription d :: pre.map .dataRow) (.resultsetsHandler h) w =
          .ok (.resultsetsHandler h₁, w₁) ∧
        (Handler.resultsetsHandler h₁).onMessage ndebug (.dataRow row) w₁ =
          .ok (.resultsetsHandler h₂, w₂) ∧
        (w₁.results h.obj).values.length = preC.flatten.length ∧
        (w₂.results h.obj).values.length = (preC ++ [rowC]).flatten.length := by
    intro pre row preC rowC hpre hrowC
    obtain ⟨h₁, w₁, hrun, hh₁, hstate₁, hobj₁, -⟩ := run_rows_of_idle hidle hempty hd hpre
    obtain ⟨h₂, w₂, hmsg, hh₂, -⟩ := hh₁.row hstate₁ hrowC
    have hobj₂ : h₂.obj = h.obj := (ResultsetsHandler.onMessage_ok hmsg).1.trans hobj₁
    refine ⟨h₁, h₂, w₁, w₂, hrun, lift hmsg, ?_, ?_⟩
    · rw [← hobj₁]
      exact hh₁.length_values
    · rw [← hobj₂]
      exact hh₂.length_values
  constructor
  · intro hshows hpos pre post row hcells
    rw [hcells] at hrows
    obtain ⟨preM, rowM, postM, rfl, hpre, hrowM, -⟩ := Flat.forall₂_cut hrows
    obtain ⟨h₁, h₂, w₁, w₂, hrun, hmsg, hbefore, hbehind⟩ := hrow hpre hrowM
    have hwithin := hshows rfl hpos hrun hmsg
    rw [hbefore, hbehind, hpre.length_eq] at hwithin
    exact hwithin
  · intro hwithin pre post row heq hpos hdl₁ hdl₂ w₁ w₂ hrun₁ hmsg₁
    rw [heq] at hrows
    obtain ⟨preC, rowC, postC, hcells, hpre, hrowC, -⟩ := Flat.forall₂_cut hrows.flip
    obtain ⟨h₁, h₂, w₁', w₂', hrun, hmsg, hbefore, hbehind⟩ := hrow hpre.flip hrowC
    rw [hrun] at hrun₁
    cases hrun₁
    rw [hmsg] at hmsg₁
    cases hmsg₁
    rw [hbefore, hbehind, ← hpre.length_eq]
    exact hwithin hpos hcells

/-- The ends of a finished resultset. -/
theorem finish_inv {h' : ResultsetsHandler} {w' : World V} {info : CommandInfo} {err : ExtendedError}
    (hfinish : h.finish ndebug w info err = .ok (h', w')) :
    (w'.results h.obj).fieldDescr = (w.results h.obj).fieldDescr ∧
      (w'.results h.obj).values = (w.results h.obj).values ∧
      (w'.results h.obj).resultsets =
        (w.results h.obj).resultsets ++ [h.entry (w.results h.obj) info err] := by
  obtain ⟨r, hr, hpure⟩ := bind_eq_ok.mp hfinish
  cases hpure
  obtain ⟨_, -, hr⟩ := bind_eq_ok.mp hr
  obtain ⟨_, -, hpure⟩ := bind_eq_ok.mp hr
  cases hpure
  rw [World.setResults_self]
  exact ⟨rfl, rfl, rfl⟩

/-- The rows counted back from the end are within the values: there are enough of them. -/
theorem sizeSub_within {total m : Nat} : sizeSub total m + m ≤ total ↔ m ≤ total := by
  unfold sizeSub
  by_cases h : m ≤ total
  · rw [if_pos h]
    omega
  · rw [if_neg h]
    omega

/-- What the result is behind a terminator. -/
theorem failed_terminator {t : Terminator} :
    (keepFirst {} (errorOf t.message)).code.failed = true ↔
      ∃ e, t = .errorResponse e ∧ (storeError e).code.failed = true := by
  cases t with
  | commandComplete tag | portalSuspended =>
    refine ⟨fun h => ?_, fun h => ?_⟩
    · cases h
    · obtain ⟨e, he, -⟩ := h
      cases he
  | errorResponse e =>
    refine ⟨fun h => ⟨e, rfl, h⟩, fun h => ?_⟩
    obtain ⟨e', he, hfailed⟩ := h
    cases he
    exact hfailed

/-- The ranges of the entry, and its rows. -/
theorem entry_within_iff (hne : cells ≠ []) {total : Nat} (htotal : total = cells.flatten.length)
    (n : Nat) :
    (sizeSub n n + n ≤ n ∧ sizeSub total (n * cells.length) + n * cells.length ≤ total ∧
      (0 < n → WithinRows n (sizeSub total (n * cells.length)) cells)) ↔
    n = 0 ∨ ∃ first rest, cells = first :: rest ∧ n ≤ first.length ∧ ∀ row ∈ rest, row.length = n := by
  rw [sizeSub_within, sizeSub_within]
  rcases Nat.eq_zero_or_pos n with rfl | hpos
  · simp
  · have hsplit : n * cells.length ≤ total →
        cells.flatten.length = sizeSub total (n * cells.length) + cells.length * n := by
      intro hle
      rw [sizeSub, if_pos hle, ← htotal, Nat.mul_comm n]
      rw [Nat.mul_comm n] at hle
      omega
    constructor
    · intro h
      exact .inr ((withinRows_iff hne (hsplit h.2.1)).mp (h.2.2 hpos))
    · intro h
      have hrows := h.resolve_left (Nat.ne_of_gt hpos)
      have hle : n * cells.length ≤ total := by
        obtain ⟨first, rest, rfl, hfirst, hrest⟩ := hrows
        rw [htotal, List.flatten_cons, List.length_append, Flat.length_flatten hrest,
          List.length_cons, Nat.mul_add, Nat.mul_one, Nat.mul_comm n]
        omega
      exact ⟨Nat.le_refl _, hle, fun _ => (withinRows_iff hne (hsplit hle)).mpr hrows⟩

/-- Where some row has another width, it is the first one. -/
theorem longFirstRow_iff {n : Nat} (hcount : ∃ row ∈ cells, row.length ≠ n) :
    (∃ first rest, cells = first :: rest ∧ n ≤ first.length ∧ ∀ row ∈ rest, row.length = n) ↔
      LongFirstRow n cells := by
  constructor
  · intro hlong
    obtain ⟨first, rest, rfl, hfirst, hrest⟩ := hlong
    obtain ⟨row, hrow, hlength⟩ := hcount
    refine ⟨first, rest, rfl, Nat.lt_of_le_of_ne hfirst fun heq => ?_, hrest⟩
    rcases List.mem_cons.mp hrow with rfl | hrow
    · exact hlength heq.symm
    · exact hlength (hrest row hrow)
  · intro hlong
    obtain ⟨first, rest, rfl, hfirst, hrest⟩ := hlong
    exact ⟨first, rest, rfl, Nat.le_of_lt hfirst, hrest⟩

/-- **What `resultsets_handler` says with an entry** is right in the cases of `LongFirstRow`, and where
    there are no columns. `r` is the object behind the rows. -/
theorem entry_reports_iff (hidle : h.Idle) (hempty : w.results h.obj = {})
    (hd : walk d.fieldDescriptions fieldDescriptionTraits = .ok fields)
    (hrows : List.Forall₂ (fun (d : DataRow) cs => walk d.columns fieldViewTraits = .ok cs) rows
      cells)
    (hcount : ∃ row ∈ cells, row.length ≠ fields.length) {r : Resultsets}
    (hdescr : r.fieldDescr.length = fields.length) (hvalues : r.values.length = cells.flatten.length)
    {x : ResultsetsHandler} (hcols : x.numCols = fields.length) (hnum : x.numRows = cells.length)
    (info : CommandInfo) (err : ExtendedError) :
    ((x.entry r info err).descr.offset + (x.entry r info err).descr.length ≤ r.fieldDescr.length ∧
      (x.entry r info err).values.offset + (x.entry r info err).values.length ≤ r.values.length ∧
      ShowsOwnValues ndebug (.resultsetsHandler h) w h.obj d rows (x.entry r info err)) ↔
    (fields = [] ∨ LongFirstRow fields.length cells) := by
  have hne : cells ≠ [] := by
    obtain ⟨row, hrow, -⟩ := hcount
    exact List.ne_nil_of_mem hrow
  rw [showsOwnValues_iff hidle hempty hd hrows]
  simp only [ResultsetsHandler.entry, hcols, hnum, hdescr]
  rw [entry_within_iff hne hvalues, List.length_eq_zero_iff, longFirstRow_iff hcount]

/-- **Where `resultsets_handler` does what is expected.** -/
theorem resultsetsReports_iff (hidle : h.Idle) (herr : h.err = {}) (hempty : w.results h.obj = {})
    (hd : walk d.fieldDescriptions fieldDescriptionTraits = .ok fields)
    (hrows : List.Forall₂ (fun (d : DataRow) cs => walk d.columns fieldViewTraits = .ok cs) rows
      cells)
    (hcount : ∃ row ∈ cells, row.length ≠ fields.length) (t : Terminator) :
    ResultsetsReports ndebug (.resultsetsHandler h) w h.obj d rows t ↔
      (∃ e, t = .errorResponse e ∧ (storeError e).code.failed = true) ∧
      (fields = [] ∨ LongFirstRow fields.length cells) := by
  obtain ⟨h₁, w₁, hrun, hh₁, hstate₁, hobj₁, herr₁⟩ :=
    @run_rows_of_idle V ndebug h w d fields rows cells hidle hempty hd hrows
  have hmessages : Handler.run ndebug (ResultsetCallback.resultsetMessages d rows t)
      (.resultsetsHandler h) w = Handler.run ndebug [t.message] (.resultsetsHandler h₁) w₁ := by
    rw [ResultsetCallback.resultsetMessages, ← List.cons_append]
    exact Handler.run_append hrun _
  have hnone : (w₁.results h.obj).resultsets = [] := by
    rw [← hobj₁]
    exact hh₁.resultsets
  have hvalues : (w₁.results h.obj).values.length = cells.flatten.length := by
    rw [← hobj₁]
    exact hh₁.length_values
  have hdescr : (w₁.results h.obj).fieldDescr.length = fields.length := by
    rw [← hobj₁]
    exact hh₁.length_fieldDescr
  have hentry := @entry_reports_iff V ndebug h w d fields rows cells hidle hempty hd hrows hcount _
    hdescr hvalues
  constructor
  · intro hreports
    obtain ⟨hdl', w', hrun', hfailed, hentries⟩ := hreports
    rw [hmessages] at hrun'
    obtain ⟨⟨hdl₂, w₂⟩, hmsg, hrest⟩ := bind_eq_ok.mp hrun'
    cases hrest
    obtain ⟨⟨h₂, w₂⟩, hmsg₂, heq⟩ := map_eq_ok.mp hmsg
    cases heq
    have herr₂ := (ResultsetsHandler.onMessage_ok hmsg₂).2
    rw [herr₁, herr] at herr₂
    have hterminator : ∃ e, t = .errorResponse e ∧ (storeError e).code.failed = true := by
      rw [← failed_terminator, ← herr₂]
      exact hfailed
    refine ⟨hterminator, ?_⟩
    obtain ⟨e, rfl, -⟩ := hterminator
    obtain ⟨hd', hv', hr'⟩ := finish_inv hmsg₂
    simp only [hobj₁] at hd' hv' hr'
    rw [hnone, List.nil_append] at hr'
    have hthis := hentries _ (by rw [hr']; exact List.mem_singleton_self _)
    rw [hd', hv'] at hthis
    exact (hentry hh₁.numCols hh₁.numRows _ _).mp hthis
  · intro hholds
    obtain ⟨⟨e, rfl, hfailed⟩, hcond⟩ := hholds
    let x : ResultsetsHandler := { h₁ with err := maybeStoreError e h₁.err }
    have hthis := (@hentry x hh₁.numCols hh₁.numRows {} (storeError e)).mpr hcond
    have hfits : x.numCols ≤ (w₁.results x.obj).fieldDescr.length ∧
        x.numCols * x.numRows ≤ (w₁.results x.obj).values.length := by
      rw [show x.obj = h.obj from hobj₁]
      exact ⟨sizeSub_within.mp hthis.1, sizeSub_within.mp hthis.2.1⟩
    have hmsg : h₁.onMessage ndebug (.errorResponse e) w₁ = .ok (x.resetState, _) :=
      finish_eq_ok {} (storeError e) (.inr hfits)
    have hrun' := hmessages.trans (Handler.run_cons (lift hmsg) [])
    refine ⟨_, _, hrun', ?_, ?_⟩
    · show (maybeStoreError e h₁.err).code.failed = true
      rw [herr₁, herr]
      exact hfailed
    · rw [show x.obj = h.obj from hobj₁, World.setResults_self]
      simp only [hnone, List.nil_append, List.mem_singleton]
      intro e' he'
      subst he'
      exact hthis

end

/-! ## 5. Where the handlers do what is expected -/

/-- A member without a column of its name, or of a type that does not accept the type of that
    column. -/
def Mismatched (fields : List FieldDescription) (m : Member V) : Prop :=
  ∀ ec ∈ compatibleCode fields m, ec.failed = true

theorem failed_descriptionError_iff {fields : List FieldDescription} {members : List (Member V)}
    (hnodup : (members.map (·.name)).Nodup) :
    (ResultsetCallback.descriptionError members fields).failed = true ↔
      ∃ m ∈ members, Mismatched fields m := by
  by_cases hmissing : ∃ m ∈ members, lastColumn fields m.name = none
  · rw [descriptionError_of_missing hnodup hmissing]
    refine ⟨fun _ => ?_, fun _ => ClientErrc.failed_code _⟩
    obtain ⟨m, hm, hnone⟩ := hmissing
    refine ⟨m, hm, fun ec hec => ?_⟩
    rw [compatibleCode, hnone] at hec
    cases hec
  · obtain ⟨codes, hcodes⟩ := exists_codes fun m hm hnone => hmissing ⟨m, hm, hnone⟩
    have he := ofCode_descriptionError hnodup hcodes
    have hall := mapM_eq_some.mp hcodes
    constructor
    · intro hfailed
      rw [ofCode_eq_some hfailed] at he
      obtain ⟨ec, hfind, -⟩ := Option.map_eq_some_iff.mp he.symm
      obtain ⟨pre, post, rfl⟩ := List.append_of_mem (List.mem_of_find?_eq_some hfind)
      obtain ⟨ms, m, ms', rfl, -, hm, -⟩ := Flat.forall₂_cut hall
      refine ⟨m, by simp, fun ec' hec' => ?_⟩
      rw [hm] at hec'
      cases hec'
      simpa using List.find?_some hfind
    · intro hmismatched
      obtain ⟨m, hm, hbad⟩ := hmismatched
      obtain ⟨ms, ms', rfl⟩ := List.append_of_mem hm
      obtain ⟨pre, ec, post, rfl, -, hec, -⟩ := Flat.forall₂_cut hall.flip
      have hfailed := hbad ec hec
      cases hnot : (ResultsetCallback.descriptionError (ms ++ m :: ms') fields).failed with
      | true => rfl
      | false =>
        rw [ofCode_eq_none hnot] at he
        have hnone := Option.map_eq_none_iff.mp he.symm
        rw [List.find?_eq_none] at hnone
        exact absurd hfailed (hnone ec (by simp))

/-- **Exactly where.** A callback and a resultsets handler that are set up get a description, rows of
    which at least one has another number of columns, and a terminator. -/
theorem column_counts_exactly {ndebug : Bool} {cb : ResultsetCallback V} {rs : ResultsetsHandler}
    {hdl hdl' : Handler V} {req req' : Request} {off off' : Nat} {w w₀ u u₀ : World V}
    {res res' : HandlerSetupResult}
    (hcb : (Handler.resultsetCallback cb).setup req off w = .ok (res, hdl, w₀))
    (hrs : (Handler.resultsetsHandler rs).setup req' off' u = .ok (res', hdl', u₀))
    (hnodup : (cb.members.map (·.name)).Nodup) {d : RowDescription} {fields : List FieldDescription}
    (hd : walk d.fieldDescriptions fieldDescriptionTraits = .ok fields) {rows : List DataRow}
    {cells : List (List (Option Bytes))}
    (hrows : List.Forall₂ (fun (d : DataRow) cs => walk d.columns fieldViewTraits = .ok cs) rows
      cells)
    (hcount : ∃ row ∈ cells, row.length ≠ fields.length) (t : Terminator) :
    (CallbackReports ndebug hdl w₀ d rows t ↔
      (∃ m ∈ cb.members, Mismatched fields m) ∨ StopsInTime fields cb.members cells) ∧
    (ResultsetsReports ndebug hdl' u₀ rs.obj d rows t ↔
      (∃ e, t = .errorResponse e ∧ (storeError e).code.failed = true) ∧
      (fields = [] ∨ LongFirstRow fields.length cells)) := by
  rw [Handler.setup_eq] at hcb hrs
  obtain ⟨_, -, heq⟩ := map_eq_ok.mp hcb
  cases heq
  obtain ⟨_, -, heq⟩ := map_eq_ok.mp hrs
  cases heq
  constructor
  · rw [← failed_descriptionError_iff hnodup]
    exact callbackReports_iff (h := { cb with state := .parsingMeta, err := {} }) hnodup rfl rfl hd
      hrows hcount t
  · exact resultsetsReports_iff (h := { obj := rs.obj }) ⟨rfl, rfl, rfl⟩ rfl
      (u.setResults_self rs.obj {}) hd hrows hcount t

end

/-- The description of the columns `x` and `y`, with the type of `x`. -/
def xyDescription (oid : UInt8) : RowDescription :=
  ⟨⟨2, [120, 0, 0, 0, 0, 1, 0, 1, 0, 0, 0, oid, 0, 4, 0, 0, 0, 0, 0, 0,
    121, 0, 0, 0, 0, 1, 0, 2, 0, 0, 0, 23, 0, 4, 0, 0, 0, 0, 0, 0]⟩⟩

/-- A row of three columns, where `x` is of a type that is not accepted, and an error behind it. -/
theorem column_counts_exactly_long_row :
    ∃ (hdl hdl' : Handler Nat) (w w₀ u₀ : World Nat),
      (Handler.resultsetCallback xyCallback).setup { messages := [.query] } 0 w =
        .ok ((.success, 1), hdl, w₀) ∧
      (Handler.resultsetsHandler { obj := 0 }).setup { messages := [.query] } 0 w =
        .ok ((.success, 1), hdl', u₀) ∧
      CallbackReports false hdl w₀ (xyDescription 25)
        [⟨⟨3, [0, 0, 0, 0, 0, 0, 0, 0, 0, 0, 0, 0]⟩⟩] (.errorResponse {}) ∧
      ResultsetsReports false hdl' u₀ 0 (xyDescription 25)
        [⟨⟨3, [0, 0, 0, 0, 0, 0, 0, 0, 0, 0, 0, 0]⟩⟩] (.errorResponse {}) := by
  have hcb : (Handler.resultsetCallback xyCallback).setup { messages := [.query] } 0
      ⟨fun _ => {}, fun _ => {}, fun _ => {}, []⟩ = .ok ((.success, 1), _, _) := rfl
  have hrs : (Handler.resultsetsHandler { obj := 0 } : Handler Nat).setup { messages := [.query] } 0
      ⟨fun _ => {}, fun _ => {}, fun _ => {}, []⟩ = .ok ((.success, 1), _, _) := rfl
  have hd : walk (xyDescription 25).fieldDescriptions fieldDescriptionTraits =
      .ok [⟨[120], 1, 1, 25, 4, 0, .text⟩, ⟨[121], 1, 2, 23, 4, 0, .text⟩] := rfl
  have hrows : List.Forall₂ (fun (d : DataRow) cs => walk d.columns fieldViewTraits = .ok cs)
      [⟨⟨3, [0, 0, 0, 0, 0, 0, 0, 0, 0, 0, 0, 0]⟩⟩] [[some [], some [], some []]] := .cons rfl .nil
  obtain ⟨hcallback, hresultsets⟩ := @column_counts_exactly Nat false _ _ _ _ _ _ _ _ _ _ _ _ _ _
    hcb hrs (by decide) _ _ hd _ _ hrows ⟨_, List.mem_singleton_self _, by decide⟩
    (.errorResponse {})
  refine ⟨_, _, _, _, _, hcb, hrs, hcallback.mpr (.inl ⟨lengthMember [120], by simp [xyCallback], ?_⟩),
    hresultsets.mpr ⟨⟨{}, rfl, by decide⟩, .inr ⟨_, [], rfl, by decide, by simp⟩⟩⟩
  intro ec hec
  cases hec
  decide

/-- A row that is too short makes the callback throw; a row that is too long is passed on, and is no
    error. A short row is no error to the resultsets handler. -/
theorem short_and_long_rows :
    Handler.run false (ResultsetCallback.resultsetMessages (xyDescription 23)
        [⟨⟨1, [0, 0, 0, 0]⟩⟩] (.commandComplete (ascii "SELECT 1"))) (.resultsetCallback xyCallback)
      ⟨fun _ => {}, fun _ => {}, fun _ => {}, []⟩ = .error .exception ∧
    ¬CallbackReports false (.resultsetCallback xyCallback)
      ⟨fun _ => {}, fun _ => {}, fun _ => {}, []⟩ (xyDescription 23) [⟨⟨1, [0, 0, 0, 0]⟩⟩]
      (.commandComplete (ascii "SELECT 1")) ∧
    ¬CallbackReports false (.resultsetCallback xyCallback)
      ⟨fun _ => {}, fun _ => {}, fun _ => {}, []⟩ (xyDescription 23)
      [⟨⟨3, [0, 0, 0, 0, 0, 0, 0, 0, 0, 0, 0, 0]⟩⟩] (.commandComplete (ascii "SELECT 1")) ∧
    ¬ResultsetsReports true (.resultsetsHandler { obj := 0 } : Handler Nat)
      ⟨fun _ => {}, fun _ => {}, fun _ => {}, []⟩ 0 (xyDescription 23) [⟨⟨1, [0, 0, 0, 0]⟩⟩]
      (.commandComplete (ascii "SELECT 1")) := by
  refine ⟨rfl, ?_, ?_, ?_⟩
  · intro hreports
    obtain ⟨hdl', w', hrun, -⟩ := hreports.1
    cases hrun
  · intro hreports
    obtain ⟨hdl', w', hrun, hfailed⟩ := hreports.1
    cases hrun
    cases hfailed
  · intro hreports
    obtain ⟨hdl', w', hrun, hfailed, -⟩ := hreports
    cases hrun
    cases hfailed

end Responses

end NativePg
