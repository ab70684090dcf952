/-
  File:      NativePg/Responses/Storage.lean
  Subject:   What a `resultsets` object holds, and that it is what was sent.

  All resultsets share four vectors. An entry says where its descriptions and its values stand, by
  offsets counted back from the current ends.

  * `Describes`, `Denotes` -- a stored description, a stored value, and what they read as;
    `Denotes.mono`: they stay what they are when the vectors grow;
  * `Stores` -- an entry and the resultset it stands for. `Stores.shows`: the views say the same;
  * `Holding` -- a resultset that has begun: its descriptions and its values are the last ones.
    `Holding.row`, `Holding.finish`: one message;
  * **`resultsets_stored_faithfully`** -- whatever is sent is what the object shows.
-/
import NativePg.Responses.Steps
import NativePg.Responses.Views

namespace NativePg

namespace Responses

/-! ## 1. Stored descriptions and values -/

/-- A stored description reads as `f`. -/
def Describes (data : Bytes) (d : OffsettedFieldDescription) (f : FieldDescription) : Prop :=
  d.toFieldDescription data = .ok f

/-- A stored value reads as `c`; `none` is NULL. -/
def Denotes (data : Bytes) (v : Option OffsetAndLength) (c : Option Bytes) : Prop :=
  (OffsetAndLength.ofValue v).toFieldView data = .ok c

section
variable {data data' : Bytes}

theorem span_mono {α : Type} {xs xs' ys : List α} {off len : Nat} (hpre : xs <+: xs')
    (h : span xs off len = .ok ys) : span xs' off len = .ok ys :=
  span_eq_ok.mpr (Flat.sub_mono hpre (span_eq_ok.mp h))

theorem Describes.mono (hpre : data <+: data') {d : OffsettedFieldDescription} {f : FieldDescription}
    (h : Describes data d f) : Describes data' d f := by
  obtain ⟨name, hname, hpure⟩ := bind_eq_ok.mp h
  exact bind_eq_ok.mpr ⟨name, span_mono hpre hname, hpure⟩

theorem Denotes.mono (hpre : data <+: data') {v : Option OffsetAndLength} {c : Option Bytes}
    (h : Denotes data v c) : Denotes data' v c := by
  unfold Denotes OffsetAndLength.toFieldView at h ⊢
  by_cases hnull : (OffsetAndLength.ofValue v).length = OffsetAndLength.nullLength
  · rw [if_pos hnull] at h ⊢
    exact h
  · rw [if_neg hnull] at h ⊢
    obtain ⟨bytes, hbytes, hpure⟩ := bind_eq_ok.mp h
    exact bind_eq_ok.mpr ⟨bytes, span_mono hpre hbytes, hpure⟩

theorem forall₂_describes_mono (hpre : data <+: data') {ds : List OffsettedFieldDescription}
    {fs : List FieldDescription} (h : List.Forall₂ (Describes data) ds fs) :
    List.Forall₂ (Describes data') ds fs :=
  h.imp fun _ _ => Describes.mono hpre

theorem forall₂_denotes_mono (hpre : data <+: data') {vs : List (Option OffsetAndLength)}
    {cs : List (Option Bytes)} (h : List.Forall₂ (Denotes data) vs cs) :
    List.Forall₂ (Denotes data') vs cs :=
  h.imp fun _ _ => Denotes.mono hpre

end

/-- **The loops over field descriptions** append the descriptions, and the names. -/
theorem foldl_addFieldDescription : ∀ (fields : List FieldDescription)
    (acc : List OffsettedFieldDescription × Bytes), ∃ ds data,
      fields.foldl addFieldDescription acc = (acc.1 ++ ds, acc.2 ++ data) ∧
      List.Forall₂ (Describes (acc.2 ++ data)) ds fields
  | [], acc => ⟨[], [], by simp, .nil⟩
  | f :: fields, acc => by
      obtain ⟨ds, data, hfold, hds⟩ :=
        foldl_addFieldDescription fields (addFieldDescription acc f)
      have hhead : ∃ d, addFieldDescription acc f = (acc.1 ++ [d], acc.2 ++ f.name) ∧
          Describes (acc.2 ++ f.name) d f := by
        refine ⟨_, rfl, bind_eq_ok.mpr ⟨f.name, ?_, rfl⟩⟩
        exact span_eq_ok.mpr (Flat.sub_append_right _ _)
      obtain ⟨d, hstep, hd⟩ := hhead
      rw [hstep] at hfold hds
      rw [List.append_assoc] at hds
      refine ⟨d :: ds, f.name ++ data, ?_, .cons (hd.mono ?_) hds⟩
      · rw [List.foldl_cons, hstep, hfold]
        simp
      · rw [← List.append_assoc]
        exact List.prefix_append _ _

/-- A value whose length is not the one that stands for NULL. -/
def Storable (c : Option Bytes) : Prop := ∀ bytes ∈ c, bytes.length < OffsetAndLength.nullLength

/-- **The loop of `add_row`** appends the values, and their bytes. -/
theorem foldl_addValue : ∀ (cells : List (Option Bytes))
    (acc : List (Option OffsetAndLength) × Bytes), (∀ c ∈ cells, Storable c) → ∃ vs data,
      cells.foldl Resultsets.addValue acc = (acc.1 ++ vs, acc.2 ++ data) ∧
      List.Forall₂ (Denotes (acc.2 ++ data)) vs cells
  | [], acc, _ => ⟨[], [], by simp, .nil⟩
  | c :: cells, acc, hcells => by
      obtain ⟨vs, data, hfold, hvs⟩ := foldl_addValue cells (Resultsets.addValue acc c)
        fun x hx => hcells x (List.mem_cons_of_mem _ hx)
      have hhead : ∃ v bytes, Resultsets.addValue acc c = (acc.1 ++ [v], acc.2 ++ bytes) ∧
          Denotes (acc.2 ++ bytes) v c := by
        cases c with
        | none =>
          refine ⟨none, [], ?_, if_pos rfl⟩
          rw [Resultsets.addValue, List.append_nil]
        | some bytes =>
          refine ⟨_, bytes, rfl, ?_⟩
          have hlt : bytes.length < OffsetAndLength.nullLength :=
            hcells (some bytes) (by simp) bytes rfl
          refine (if_neg (Nat.ne_of_lt hlt)).trans (bind_eq_ok.mpr ⟨bytes, ?_, rfl⟩)
          exact span_eq_ok.mpr (Flat.sub_append_right _ _)
      obtain ⟨v, bytes, hstep, hv⟩ := hhead
      rw [hstep] at hfold hvs
      rw [List.append_assoc] at hvs
      refine ⟨v :: vs, bytes ++ data, ?_, .cons (hv.mono ?_) hvs⟩
      · rw [List.foldl_cons, hstep, hfold]
        simp
      · rw [← List.append_assoc]
        exact List.prefix_append _ _

theorem forall_of_iterate {α : Type} {t : ItemTraits α} {P : α → Prop}
    (hP : ∀ it a, t.dereference it = .ok a → P a) : ∀ {n : Nat} {it : Bytes} {items : List α},
    iterate t n it = .ok (some items) → ∀ a ∈ items, P a
  | 0, [], _, h | _ + 1, [], _, h => by
      cases h
      simp
  | 0, _ :: _, _, h => by cases h
  | n + 1, b :: it, _, h => by
      obtain ⟨item, hitem, h⟩ := bind_eq_ok.mp h
      obtain ⟨it', -, h⟩ := bind_eq_ok.mp h
      obtain ⟨o, ho, hpure⟩ := bind_eq_ok.mp h
      obtain ⟨items, rfl, rfl⟩ := Option.map_eq_some_iff.mp (Except.ok.inj hpure)
      exact List.forall_mem_cons.mpr ⟨hP _ _ hitem, forall_of_iterate hP ho⟩

/-- What holds of each item an iterator may yield holds of the items of a view. -/
theorem forall_of_walk {α : Type} {t : ItemTraits α} {P : α → Prop}
    (hP : ∀ it a, t.dereference it = .ok a → P a) {v : ForwardParsingView} {items : List α}
    (h : walk v t = .ok items) : ∀ a ∈ items, P a :=
  forall_of_iterate hP (walk_eq_ok.mp h).1

/-- The lengths in a message are below `2 ^ 31`. -/
theorem storable_of_walk {v : ForwardParsingView} {cells : List (Option Bytes)}
    (h : walk v fieldViewTraits = .ok cells) : ∀ c ∈ cells, Storable c := by
  refine forall_of_walk (fun it c hit => ?_) h
  obtain ⟨⟨size, rest⟩, hsize, hit⟩ := bind_eq_ok.mp hit
  simp only at hit
  by_cases hnull : size = -1
  · rw [if_pos hnull] at hit
    cases hit
    exact nofun
  · rw [if_neg hnull] at hit
    by_cases hbad : size < 0 ∨ rest.length < size.toNat
    · rw [if_pos hbad] at hit
      cases hit
    · rw [if_neg hbad] at hit
      cases hit
      unfold uncheckedGetIntegral at hsize
      by_cases hshort : it.length < 4
      · rw [if_pos hshort] at hsize
        cases hsize
      · rw [if_neg hshort] at hsize
        have hsize' : loadBigSigned (it.take 4) = size := congrArg Prod.fst (Except.ok.inj hsize)
        have hlt : loadBigSigned (it.take 4) < 2 ^ 31 :=
          loadBigSigned_lt (List.length_take_le 4 it)
        intro bytes hbytes
        cases hbytes
        rw [List.length_take, OffsetAndLength.nullLength]
        omega

/-! ## 2. Entries -/

/-- What the messages of one resultset say. -/
structure Content where
  fields : List FieldDescription
  rows : List (List (Option Bytes))
  info : CommandInfo
  err : ExtendedError

/-- All rows have as many columns as the description: at least one, or there are no rows. -/
structure Content.Rectangular (c : Content) : Prop where
  width : ∀ row ∈ c.rows, row.length = c.fields.length
  columns : c.fields ≠ [] ∨ c.rows = []

/-- The vectors of an object, and those of another that has grown from it. -/
structure Resultsets.Grows (r r' : Resultsets) : Prop where
  fieldDescr : r.fieldDescr <+: r'.fieldDescr
  values : r.values <+: r'.values
  data : r.data <+: r'.data

/-- **An entry stands for a resultset.** -/
structure Stores (r : Resultsets) (d : ResultsetDescriptor) (c : Content) : Prop where
  fields : ∃ ds, Flat.sub r.fieldDescr d.descr.offset d.descr.length = some ds ∧
    List.Forall₂ (Describes r.data) ds c.fields
  values : ∃ vs, Flat.sub r.values d.values.offset d.values.length = some vs ∧
    List.Forall₂ (Denotes r.data) vs c.rows.flatten
  rectangular : c.Rectangular
  info : d.info = c.info
  err : d.err = c.err

theorem Stores.mono {r r' : Resultsets} {d : ResultsetDescriptor} {c : Content} (h : Stores r d c)
    (hgrows : r.Grows r') : Stores r' d c := by
  obtain ⟨ds, hds, hdescribes⟩ := h.fields
  obtain ⟨vs, hvs, hdenotes⟩ := h.values
  exact {
    fields := ⟨ds, Flat.sub_mono hgrows.fieldDescr hds, forall₂_describes_mono hgrows.data hdescribes⟩
    values := ⟨vs, Flat.sub_mono hgrows.values hvs, forall₂_denotes_mono hgrows.data hdenotes⟩
    rectangular := h.rectangular
    info := h.info
    err := h.err }

/-- **A view shows a resultset**: its descriptions, its rows, each with its values, and how it
    ended. -/
structure ResultsetView.Shows (ndebug : Bool) (v : ResultsetView) (c : Content) : Prop where
  fields : ∃ fields, v.fieldDescriptions = .ok fields ∧ fields.range.Shows c.fields
  rows : ∃ rows views, v.rows ndebug = .ok rows ∧ rows.range.Shows views ∧
    List.Forall₂ (fun (view : RowView) row => view.range.Shows row) views c.rows
  info : v.info = c.info
  err : v.error = c.err

section
variable {data : Bytes}

/-- The row of a view that starts at the number of the row times the width. -/
theorem RowsView.dereference_eq_ok {values : List OffsetAndLength} {rows : List (List (Option Bytes))}
    {n : Nat} (hvalues : List.Forall₂ (fun v c => v.toFieldView data = .ok c) values rows.flatten)
    (hwidth : ∀ row ∈ rows, row.length = n) {i : Nat} {row : List (Option Bytes)}
    (hi : rows[i]? = some row) :
    ∃ view, RowsView.dereference { values, numColumns := n, data } (i * n) = .ok view ∧
      view.range.Shows row := by
  obtain ⟨vs, hvs, hrow⟩ := Flat.Forall₂.sub hvalues (Flat.sub_flatten hwidth hi)
  exact ⟨{ values := vs, data }, bind_eq_ok.mpr ⟨vs, span_eq_ok.mpr hvs, rfl⟩, contiguous_shows hrow⟩

/-- **Rows of one width are shown as such.** -/
theorem RowsView.shows {values : List OffsetAndLength} {rows : List (List (Option Bytes))} {n : Nat}
    (hvalues : List.Forall₂ (fun v c => v.toFieldView data = .ok c) values rows.flatten)
    (hwidth : ∀ row ∈ rows, row.length = n) (hcolumns : 0 < n ∨ rows = []) :
    ∃ views, (RowsView.range { values, numColumns := n, data }).Shows views ∧
      List.Forall₂ (fun (view : RowView) row => view.range.Shows row) views rows := by
  have hlength : values.length = rows.length * n := by
    rw [hvalues.length_eq, Flat.length_flatten hwidth]
  have hsize : RowsView.size { values, numColumns := n, data } = rows.length := by
    unfold RowsView.size
    rcases hcolumns with hpos | rfl
    · rw [if_neg (Nat.ne_of_gt hpos), hlength, Nat.mul_div_cancel _ hpos]
    · simp [hlength]
  obtain ⟨views, hget, hshows⟩ := Flat.exists_forall₂ fun hi =>
    RowsView.dereference_eq_ok hvalues hwidth hi
  have hcount : views.length = rows.length := hshows.length_eq
  refine ⟨views, ⟨hsize.trans hcount.symm, hget, ?_⟩, hshows⟩
  refine rangeFor_eq_ok ?_ ?_ ?_ ?_
  · show RowsView.size { values, numColumns := n, data } * n = 0 + views.length * n
    rw [hsize, hcount, Nat.zero_add]
  · rcases hcolumns with hpos | rfl
    · exact .inl hpos
    · exact .inr (List.length_eq_zero_iff.mp hcount)
  · rw [hlength, hcount]
    rcases hcolumns with hpos | rfl
    · exact Nat.le_mul_of_pos_right _ hpos
    · exact Nat.zero_le _
  · intro i view hi
    rw [Nat.zero_add]
    exact hget hi

/-- **The view of an entry shows the resultset it stands for.** -/
theorem Stores.shows {r : Resultsets} {d : ResultsetDescriptor} {c : Content} (h : Stores r d c)
    (ndebug : Bool) : (r.viewOf d).Shows ndebug c := by
  obtain ⟨ds, hds, hdescribes⟩ := h.fields
  obtain ⟨vs, hvs, hdenotes⟩ := h.values
  have hdescr : d.descr.length = c.fields.length := by
    rw [← Flat.length_sub hds, hdescribes.length_eq]
  have hvalues : List.Forall₂ (fun v c => v.toFieldView r.data = .ok c)
      (vs.map OffsetAndLength.ofValue) c.rows.flatten := List.forall₂_map_left_iff.mpr hdenotes
  have hcolumns : 0 < d.descr.length ∨ c.rows = [] := by
    rw [hdescr]
    exact h.rectangular.columns.imp_left List.length_pos_iff.mpr
  have hwidth : ∀ row ∈ c.rows, row.length = d.descr.length := by
    rw [hdescr]
    exact h.rectangular.width
  obtain ⟨views, hrange, hviews⟩ := RowsView.shows hvalues hwidth hcolumns
  have hlength : (vs.map OffsetAndLength.ofValue).length % d.descr.length = 0 := by
    rw [hvalues.length_eq, Flat.length_flatten hwidth, Nat.mul_mod_left]
  have hspan : span (r.values.map OffsetAndLength.ofValue) d.values.offset d.values.length =
      .ok (vs.map OffsetAndLength.ofValue) := by
    rw [span_eq_ok, Flat.sub_map, hvs]
    rfl
  exact {
    fields := ⟨_, bind_eq_ok.mpr ⟨ds, span_eq_ok.mpr hds, rfl⟩, contiguous_shows hdescribes⟩
    rows := by
      refine ⟨_, views, bind_eq_ok.mpr ⟨_, hspan, bind_eq_ok.mpr ⟨(), ?_, rfl⟩⟩, hrange, hviews⟩
      refine boostAssert_eq_ok.mpr (.inr ?_)
      rw [Bool.or_eq_true, decide_eq_true_eq]
      exact .inr hlength
    info := h.info
    err := h.err }

end

/-! ## 3. One message -/

section
variable {V : Type} {ndebug : Bool}

namespace ResultsetsHandler

/-- Between two resultsets. -/
structure Idle (h : ResultsetsHandler) : Prop where
  state : h.state = .parsingMeta
  numCols : h.numCols = 0
  numRows : h.numRows = 0

theorem idle_resetState (h : ResultsetsHandler) : h.resetState.Idle := ⟨rfl, rfl, rfl⟩

/-- **A resultset that has begun**, when the object was `r₀` before: its descriptions and its values
    are behind those. -/
structure Holding (r₀ : Resultsets) (fields : List FieldDescription)
    (rows : List (List (Option Bytes))) (h : ResultsetsHandler) (w : World V) : Prop where
  numCols : h.numCols = fields.length
  numRows : h.numRows = rows.length
  resultsets : (w.results h.obj).resultsets = r₀.resultsets
  data : r₀.data <+: (w.results h.obj).data
  descrs : ∃ ds, (w.results h.obj).fieldDescr = r₀.fieldDescr ++ ds ∧
    List.Forall₂ (Describes (w.results h.obj).data) ds fields
  values : ∃ vs, (w.results h.obj).values = r₀.values ++ vs ∧
    List.Forall₂ (Denotes (w.results h.obj).data) vs rows.flatten

variable {r₀ : Resultsets} {fields : List FieldDescription} {rows : List (List (Option Bytes))}
  {h : ResultsetsHandler} {w : World V}

theorem Idle.holding (hidle : h.Idle) (w : World V) : h.Holding (w.results h.obj) [] [] w where
  numCols := hidle.numCols
  numRows := hidle.numRows
  resultsets := rfl
  data := List.prefix_refl _
  descrs := ⟨[], by simp, .nil⟩
  values := ⟨[], by simp, .nil⟩

/-- A row description. -/
theorem Holding.describe {d : RowDescription} (hh : h.Holding r₀ [] [] w)
    (hstate : h.state = .parsingMeta)
    (hd : walk d.fieldDescriptions fieldDescriptionTraits = .ok fields) :
    ∃ h' w', h.onMessage ndebug (.rowDescription d) w = .ok (h', w') ∧
      h'.Holding r₀ fields [] w' ∧ h'.state = .parsingData := by
  obtain ⟨ds₀, hds₀, hnil⟩ := hh.descrs
  obtain ⟨vs₀, hvs₀, hdenotes⟩ := hh.values
  rw [List.forall₂_nil_right_iff] at hnil
  subst hnil
  obtain ⟨ds, data, hfold, hds⟩ :=
    foldl_addFieldDescription fields ((w.results h.obj).fieldDescr, (w.results h.obj).data)
  have hadd : (w.results h.obj).addRowDescription d = .ok { w.results h.obj with
      fieldDescr := (w.results h.obj).fieldDescr ++ ds
      data := (w.results h.obj).data ++ data } := by
    refine bind_eq_ok.mpr ⟨fields, hd, ?_⟩
    rw [hfold]
    rfl
  refine ⟨_, _, bind_eq_ok.mpr ⟨(), boostAssert_eq_ok.mpr (.inr (by simp [hstate])),
    bind_eq_ok.mpr ⟨_, hadd, rfl⟩⟩, ?_, rfl⟩
  refine ⟨(length_of_walk hd).symm, hh.numRows, ?_, ?_, ⟨ds, ?_, ?_⟩, ⟨vs₀, ?_, ?_⟩⟩
  all_goals simp only [World.setResults_self]
  · exact hh.resultsets
  · exact hh.data.trans (List.prefix_append _ _)
  · rw [hds₀, List.append_nil]
  · exact hds
  · exact hvs₀
  · exact forall₂_denotes_mono (List.prefix_append _ _) hdenotes

/-- A row. -/
theorem Holding.row {d : DataRow} {cells : List (Option Bytes)} (hh : h.Holding r₀ fields rows w)
    (hstate : h.state = .parsingData) (hd : walk d.columns fieldViewTraits = .ok cells) :
    ∃ h' w', h.onMessage ndebug (.dataRow d) w = .ok (h', w') ∧
      h'.Holding r₀ fields (rows ++ [cells]) w' ∧ h'.state = .parsingData := by
  obtain ⟨ds, hds, hdescribes⟩ := hh.descrs
  obtain ⟨vs, hvs, hdenotes⟩ := hh.values
  obtain ⟨vs', data, hfold, hvs'⟩ := foldl_addValue cells
    ((w.results h.obj).values, (w.results h.obj).data) (storable_of_walk hd)
  have hadd : (w.results h.obj).addRow d = .ok { w.results h.obj with
      values := (w.results h.obj).values ++ vs'
      data := (w.results h.obj).data ++ data } := by
    refine bind_eq_ok.mpr ⟨cells, hd, ?_⟩
    rw [hfold]
    rfl
  refine ⟨_, _, bind_eq_ok.mpr ⟨(), boostAssert_eq_ok.mpr (.inr (by simp [hstate])),
    bind_eq_ok.mpr ⟨_, hadd, rfl⟩⟩, ?_, hstate⟩
  refine ⟨hh.numCols, ?_, ?_, ?_, ⟨ds, ?_, ?_⟩, ⟨vs ++ vs', ?_, ?_⟩⟩
  all_goals simp only [World.setResults_self]
  · rw [hh.numRows, List.length_append, List.length_singleton]
  · exact hh.resultsets
  · exact hh.data.trans (List.prefix_append _ _)
  · exact hds
  · exact forall₂_describes_mono (List.prefix_append _ _) hdescribes
  · rw [hvs, List.append_assoc]
  · rw [List.flatten_append, List.flatten_singleton]
    exact List.rel_append (forall₂_denotes_mono (List.prefix_append _ _) hdenotes) hvs'

/-- The entry `finish_resultset` adds. -/
def entry (h : ResultsetsHandler) (r : Resultsets) (info : CommandInfo) (err : ExtendedError) :
    ResultsetDescriptor where
  err
  info
  descr := ⟨sizeSub r.fieldDescr.length h.numCols, h.numCols⟩
  values := ⟨sizeSub r.values.length (h.numCols * h.numRows), h.numCols * h.numRows⟩

/-- `finish_resultset` where its assertions hold, or are compiled out. -/
theorem finish_eq_ok (info : CommandInfo) (err : ExtendedError)
    (hfits : ndebug = true ∨ h.numCols ≤ (w.results h.obj).fieldDescr.length ∧
      h.numCols * h.numRows ≤ (w.results h.obj).values.length) :
    h.finish ndebug w info err = .ok (h.resetState, w.setResults h.obj { w.results h.obj with
      resultsets := (w.results h.obj).resultsets ++ [h.entry (w.results h.obj) info err] }) := by
  refine bind_eq_ok.mpr ⟨_, bind_eq_ok.mpr ⟨(), boostAssert_eq_ok.mpr (hfits.imp_right ?_),
    bind_eq_ok.mpr ⟨(), boostAssert_eq_ok.mpr (hfits.imp_right ?_), rfl⟩⟩, rfl⟩
  · intro h
    exact decide_eq_true h.1
  · intro h
    exact decide_eq_true h.2

theorem sizeSub_add (n m : Nat) : sizeSub (n + m) m = n := by
  rw [sizeSub, if_pos (Nat.le_add_left _ _), Nat.add_sub_cancel]

/-- **The end of a resultset**: the new entry stands for it. -/
theorem Holding.finish {info : CommandInfo} {err : ExtendedError} (hh : h.Holding r₀ fields rows w)
    (hrect : Content.Rectangular { fields, rows, info, err }) :
    ∃ w' d, h.finish ndebug w info err = .ok (h.resetState, w') ∧
      (w'.results h.obj).resultsets = r₀.resultsets ++ [d] ∧ r₀.Grows (w'.results h.obj) ∧
      Stores (w'.results h.obj) d { fields, rows, info, err } := by
  obtain ⟨ds, hds, hdescribes⟩ := hh.descrs
  obtain ⟨vs, hvs, hdenotes⟩ := hh.values
  have hwidth : ∀ row ∈ rows, row.length = fields.length := hrect.width
  have hcols : (w.results h.obj).fieldDescr.length = r₀.fieldDescr.length + h.numCols := by
    rw [hds, List.length_append, hdescribes.length_eq, hh.numCols]
  have hvals : (w.results h.obj).values.length = r₀.values.length + h.numCols * h.numRows := by
    rw [hvs, List.length_append, hdenotes.length_eq, Flat.length_flatten hwidth, hh.numCols,
      hh.numRows, Nat.mul_comm]
  refine ⟨_, h.entry (w.results h.obj) info err, finish_eq_ok info err (.inr ⟨?_, ?_⟩), ?_, ?_, ?_⟩
  · rw [hcols]
    exact Nat.le_add_left _ _
  · rw [hvals]
    exact Nat.le_add_left _ _
  all_goals simp only [World.setResults_self]
  · rw [hh.resultsets]
  · exact ⟨hds ▸ List.prefix_append _ _, hvs ▸ List.prefix_append _ _, hh.data⟩
  · refine ⟨⟨ds, ?_, hdescribes⟩, ⟨vs, ?_, hdenotes⟩, hrect, rfl, rfl⟩
    · simp only [entry, hcols, sizeSub_add]
      rw [hds, hh.numCols, ← hdescribes.length_eq]
      exact Flat.sub_append_right _ _
    · have hlength : h.numCols * h.numRows = vs.length := by
        rw [hdenotes.length_eq, Flat.length_flatten hwidth, hh.numCols, hh.numRows, Nat.mul_comm]
      simp only [entry, hvals, sizeSub_add]
      rw [hvs, hlength]
      exact Flat.sub_append_right _ _

end ResultsetsHandler

/-! ## 4. Runs -/

theorem Handler.run_cons {h h' : Handler V} {msg : AnyRequestMessage} {w w' : World V}
    (hmsg : h.onMessage ndebug msg w = .ok (h', w')) (msgs : List AnyRequestMessage) :
    Handler.run ndebug (msg :: msgs) h w = Handler.run ndebug msgs h' w' := by
  rw [Handler.run, hmsg]
  rfl

theorem Handler.run_append : ∀ {xs : List AnyRequestMessage} {h h' : Handler V} {w w' : World V},
    Handler.run ndebug xs h w = .ok (h', w') → ∀ ys : List AnyRequestMessage,
      Handler.run ndebug (xs ++ ys) h w = Handler.run ndebug ys h' w'
  | [], _, _, _, _, hrun, _ => by
      cases hrun
      rfl
  | x :: xs, h, h', w, w', hrun, ys => by
      obtain ⟨⟨h₁, w₁⟩, hmsg, hrest⟩ := bind_eq_ok.mp hrun
      rw [List.cons_append, Handler.run_cons hmsg]
      exact Handler.run_append hrest ys

theorem ResultsetsHandler.lift {h h' : ResultsetsHandler} {msg : AnyRequestMessage} {w w' : World V}
    (hmsg : h.onMessage ndebug msg w = .ok (h', w')) :
    (Handler.resultsetsHandler h).onMessage ndebug msg w = .ok (.resultsetsHandler h', w') := by
  rw [Handler.onMessage, hmsg]
  rfl

/-- The rows of a resultset. -/
theorem ResultsetsHandler.Holding.run {r₀ : Resultsets} {fields : List FieldDescription} :
    ∀ {msgs : List DataRow} {cells rows : List (List (Option Bytes))} {h : ResultsetsHandler}
      {w : World V}, h.Holding r₀ fields rows w → h.state = .parsingData →
      List.Forall₂ (fun (d : DataRow) cs => walk d.columns fieldViewTraits = .ok cs) msgs cells →
      ∃ h' w', Handler.run ndebug (msgs.map .dataRow) (.resultsetsHandler h) w =
          .ok (.resultsetsHandler h', w') ∧
        h'.Holding r₀ fields (rows ++ cells) w' ∧ h'.state = .parsingData ∧ h'.obj = h.obj ∧
        h'.err = h.err
  | [], _, rows, h, w, hh, hstate, hmsgs => by
      cases hmsgs
      exact ⟨h, w, rfl, by simpa using hh, hstate, rfl, rfl⟩
  | d :: msgs, _, rows, h, w, hh, hstate, hmsgs => by
      obtain ⟨cs, cells, hd, hrest, rfl⟩ := List.forall₂_cons_left_iff.mp hmsgs
      obtain ⟨h₁, w₁, hmsg, hh₁, hstate₁⟩ := hh.row hstate hd
      obtain ⟨hobj₁, herr₁⟩ := ResultsetsHandler.onMessage_ok hmsg
      obtain ⟨h', w', hrun, hh', hstate', hobj, herr⟩ := hh₁.run hstate₁ hrest
      refine ⟨h', w', ?_, ?_, hstate', hobj.trans hobj₁, herr.trans herr₁⟩
      · rw [List.map_cons, Handler.run_cons (ResultsetsHandler.lift hmsg)]
        exact hrun
      · rw [List.append_assoc] at hh'
        exact hh'

/-- What ends a resultset. -/
inductive Terminator where
  | commandComplete (tag : Bytes)
  | portalSuspended
  | errorResponse (err : ErrorResponse)

namespace Terminator

def message : Terminator → AnyRequestMessage
  | commandComplete tag => .commandComplete tag
  | portalSuspended => .portalSuspended
  | errorResponse err => .errorResponse err

/-- The command tag with the number of rows in it, and whether the portal is suspended. -/
def info : Terminator → CommandInfo
  | commandComplete tag => fromCommandComplete {} tag
  | portalSuspended => { portalSuspended := true }
  | errorResponse _ => {}

def err : Terminator → ExtendedError
  | commandComplete _ | portalSuspended => {}
  | errorResponse err => storeError err

end Terminator

/-- **The messages of one resultset, and what they say.** -/
inductive Carries : List AnyRequestMessage → Content → Prop where
  | described (d : RowDescription) (rows : List DataRow) (t : Terminator)
      {fields : List FieldDescription} {cells : List (List (Option Bytes))}
      (hd : walk d.fieldDescriptions fieldDescriptionTraits = .ok fields)
      (hrows : List.Forall₂ (fun (d : DataRow) cs => walk d.columns fieldViewTraits = .ok cs) rows
        cells)
      (hrect : Content.Rectangular ⟨fields, cells, t.info, t.err⟩) :
      Carries (.rowDescription d :: (rows.map .dataRow ++ [t.message])) ⟨fields, cells, t.info, t.err⟩
  | failed (e : ErrorResponse) : Carries [.errorResponse e] ⟨[], [], {}, storeError e⟩

/-- **The terminator.** -/
theorem ResultsetsHandler.Holding.terminate {r₀ : Resultsets} {fields : List FieldDescription}
    {rows : List (List (Option Bytes))} {h : ResultsetsHandler} {w : World V} (t : Terminator)
    (hh : h.Holding r₀ fields rows w) (hstate : h.state = .parsingData ∨ ∃ e, t = .errorResponse e)
    (hrect : Content.Rectangular ⟨fields, rows, t.info, t.err⟩) :
    ∃ h' w' d, h.onMessage ndebug t.message w = .ok (h', w') ∧ h'.Idle ∧
      (w'.results h.obj).resultsets = r₀.resultsets ++ [d] ∧ r₀.Grows (w'.results h.obj) ∧
      Stores (w'.results h.obj) d ⟨fields, rows, t.info, t.err⟩ := by
  cases t with
  | commandComplete tag =>
    have hdata : h.state = .parsingData := hstate.resolve_right (by simp)
    obtain ⟨w', d, hfinish, hstored⟩ := hh.finish hrect
    exact ⟨_, w', d, bind_eq_ok.mpr ⟨(), boostAssert_eq_ok.mpr (.inr (by simp [hdata])), hfinish⟩,
      h.idle_resetState, hstored⟩
  | portalSuspended =>
    have hdata : h.state = .parsingData := hstate.resolve_right (by simp)
    obtain ⟨w', d, hfinish, hstored⟩ := hh.finish hrect
    exact ⟨_, w', d, bind_eq_ok.mpr ⟨(), boostAssert_eq_ok.mpr (.inr (by simp [hdata])), hfinish⟩,
      h.idle_resetState, hstored⟩
  | errorResponse e =>
    have hh' : { h with err := maybeStoreError e h.err }.Holding r₀ fields rows w :=
      ⟨hh.numCols, hh.numRows, hh.resultsets, hh.data, hh.descrs, hh.values⟩
    obtain ⟨w', d, hfinish, hstored⟩ := hh'.finish hrect
    exact ⟨_, w', d, hfinish, ResultsetsHandler.idle_resetState _, hstored⟩

/-- **The messages of one resultset** leave one more entry, which stands for it. -/
theorem Carries.run {part : List AnyRequestMessage} {c : Content} (hc : Carries part c)
    {h : ResultsetsHandler} (hidle : h.Idle) (w : World V) :
    ∃ h' w' d, Handler.run ndebug part (.resultsetsHandler h) w = .ok (.resultsetsHandler h', w') ∧
      h'.Idle ∧ h'.obj = h.obj ∧
      (w'.results h.obj).resultsets = (w.results h.obj).resultsets ++ [d] ∧
      (w.results h.obj).Grows (w'.results h.obj) ∧ Stores (w'.results h.obj) d c := by
  cases hc with
  | described d rows t hd hrows hrect =>
    obtain ⟨h₁, w₁, hmsg, hh₁, hstate₁⟩ := (hidle.holding w).describe hidle.state hd
    have hobj₁ : h₁.obj = h.obj := (ResultsetsHandler.onMessage_ok hmsg).1
    obtain ⟨h₂, w₂, hrun, hh₂, hstate₂, hobj₂, -⟩ := hh₁.run hstate₁ hrows
    obtain ⟨h₃, w₃, e, hlast, hidle₃, hstored⟩ := hh₂.terminate t (.inl hstate₂) hrect
    have hobj₃ : h₃.obj = h₂.obj := (ResultsetsHandler.onMessage_ok hlast).1
    rw [hobj₂, hobj₁] at hstored
    refine ⟨h₃, w₃, e, ?_, hidle₃, hobj₃.trans (hobj₂.trans hobj₁), hstored⟩
    rw [Handler.run_cons (ResultsetsHandler.lift hmsg), Handler.run_append hrun,
      Handler.run_cons (ResultsetsHandler.lift hlast)]
    rfl
  | failed e =>
    obtain ⟨h₁, w₁, d, hmsg, hidle₁, hstored⟩ :=
      (hidle.holding w).terminate (.errorResponse e) (.inr ⟨e, rfl⟩) ⟨by simp, .inr rfl⟩
    refine ⟨h₁, w₁, d, ?_, hidle₁, (ResultsetsHandler.onMessage_ok hmsg).1, hstored⟩
    exact Handler.run_cons (ResultsetsHandler.lift hmsg) []

/-- **Resultset after resultset**: the entries stand for all that have come. -/
theorem stores_run : ∀ {parts : List (List AnyRequestMessage)} {contents : List Content},
    List.Forall₂ Carries parts contents → ∀ {h : ResultsetsHandler} {w : World V} {done : List Content},
    h.Idle → List.Forall₂ (Stores (w.results h.obj)) (w.results h.obj).resultsets done →
    ∃ h' w', Handler.run ndebug parts.flatten (.resultsetsHandler h) w =
        .ok (.resultsetsHandler h', w') ∧
      List.Forall₂ (Stores (w'.results h.obj)) (w'.results h.obj).resultsets (done ++ contents)
  | [], _, hparts, h, w, done, _, hdone => by
      cases hparts
      exact ⟨h, w, rfl, by simpa using hdone⟩
  | part :: parts, _, hparts, h, w, done, hidle, hdone => by
      obtain ⟨c, contents, hc, hrest, rfl⟩ := List.forall₂_cons_left_iff.mp hparts
      obtain ⟨h₁, w₁, d, hrun₁, hidle₁, hobj, hentries, hgrows, hstores⟩ := hc.run hidle w
      have hdone₁ : List.Forall₂ (Stores (w₁.results h₁.obj)) (w₁.results h₁.obj).resultsets
          (done ++ [c]) := by
        rw [hobj, hentries]
        exact List.rel_append (hdone.imp fun _ _ hs => hs.mono hgrows) (.cons hstores .nil)
      obtain ⟨h', w', hrun', hall⟩ := stores_run hrest hidle₁ hdone₁
      refine ⟨h', w', ?_, ?_⟩
      · rw [List.flatten_cons, Handler.run_append hrun₁]
        exact hrun'
      · rw [hobj, List.append_assoc] at hall
        exact hall

/-- **An object shows a list of resultsets**: there is one entry for each, in order, and its view
    shows it. -/
def Resultsets.Shows (ndebug : Bool) (r : Resultsets) (contents : List Content) : Prop :=
  ∃ views, r.range.Shows views ∧
    List.Forall₂ (fun (view : ResultsetView) c => view.Shows ndebug c) views contents

/-- **Resultsets are stored faithfully.** Whatever resultsets a handler that is set up gets, it
    returns from every message, and the object shows exactly these. -/
theorem resultsets_stored_faithfully {h : ResultsetsHandler} {hdl : Handler V} {req : Request}
    {off : Nat} {w w₀ : World V} {res : HandlerSetupResult}
    (hsetup : (Handler.resultsetsHandler h).setup req off w = .ok (res, hdl, w₀))
    {parts : List (List AnyRequestMessage)} {contents : List Content}
    (hparts : List.Forall₂ Carries parts contents) :
    ∃ hdl' w', hdl.run ndebug parts.flatten w₀ = .ok (hdl', w') ∧
      (w'.results h.obj).Shows ndebug contents := by
  rw [Handler.setup_eq] at hsetup
  obtain ⟨res', -, heq⟩ := map_eq_ok.mp hsetup
  cases heq
  have hempty : (w.setResults h.obj {}).results h.obj = {} := w.setResults_self _ _
  have hidle : ResultsetsHandler.Idle { obj := h.obj } := ⟨rfl, rfl, rfl⟩
  obtain ⟨h', w', hrun, hstores⟩ := @stores_run V ndebug parts contents hparts { obj := h.obj } _ [] hidle
    (by rw [hempty]; exact .nil)
  refine ⟨.resultsetsHandler h', w', hrun, (w'.results h.obj).resultsets.map
    (w'.results h.obj).viewOf, contiguous_shows ?_, List.forall₂_map_left_iff.mpr ?_⟩
  · exact List.forall₂_map_right_iff.mpr (List.forall₂_same.mpr fun _ _ => rfl)
  · exact hstores.imp fun _ _ hs => hs.shows ndebug

end

/-- A resultset with a NULL and an empty value, and behind it an error without a description. -/
theorem resultsets_stored_faithfully_null_and_empty :
    ∃ (hdl hdl' : Handler Unit) (w w₀ w' : World Unit),
      (Handler.resultsetsHandler { obj := 0 }).setup { messages := [.query, .query] } 0 w =
        .ok ((.success, 2), hdl, w₀) ∧
      hdl.run false [.rowDescription ⟨⟨1, [97, 0, 0, 0, 0, 1, 0, 2, 0, 0, 0, 25, 255, 255, 255, 255,
          255, 255, 0, 0]⟩⟩, .dataRow ⟨⟨1, [255, 255, 255, 255]⟩⟩, .dataRow ⟨⟨1, [0, 0, 0, 0]⟩⟩,
          .commandComplete (ascii "SELECT 2"), .errorResponse {}] w₀ = .ok (hdl', w') ∧
      (w'.results 0).Shows false
        [⟨[⟨[97], 1, 2, 25, -1, -1, .text⟩], [[none], [some []]],
          ⟨ascii "SELECT 2", some 2, false⟩, {}⟩, ⟨[], [], {}, storeError {}⟩] := by
  have hsetup : (Handler.resultsetsHandler { obj := 0 }).setup { messages := [.query, .query] } 0
      ⟨fun _ => {}, fun _ => {}, fun _ => {}, []⟩ = .ok ((.success, 2),
        (.resultsetsHandler { obj := 0 } : Handler Unit), _) := rfl
  have hinfo : Terminator.info (.commandComplete (ascii "SELECT 2")) =
      ⟨ascii "SELECT 2", some 2, false⟩ := by decide
  have hfirst : Carries _ ⟨[⟨[97], 1, 2, 25, -1, -1, .text⟩], [[none], [some []]], _, _⟩ := .described
    ⟨⟨1, [97, 0, 0, 0, 0, 1, 0, 2, 0, 0, 0, 25, 255, 255, 255, 255, 255, 255, 0, 0]⟩⟩
    [⟨⟨1, [255, 255, 255, 255]⟩⟩, ⟨⟨1, [0, 0, 0, 0]⟩⟩] (.commandComplete (ascii "SELECT 2")) rfl
    (.cons rfl (.cons rfl .nil)) ⟨by simp, .inl (by simp)⟩
  rw [hinfo] at hfirst
  obtain ⟨hdl', w', hrun, hshows⟩ := @resultsets_stored_faithfully Unit false _ _ _ _ _ _ _ hsetup
    _ _ (.cons hfirst (.cons (.failed {}) .nil))
  exact ⟨_, hdl', _, _, w', hsetup, hrun, hshows⟩

end Responses

end NativePg
