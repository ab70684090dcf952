/-
  File:      NativePg/Responses/Views.lean
  Subject:   Reading a `resultsets` object (include/nativepg/responses/: resultsets.hpp,
             resultset_view.hpp, rows_view.hpp, row_view.hpp, field_descriptions_view.hpp,
             detail/dynamic_utils.hpp).

  * `span`, `element` -- pointers into a vector. Outside of it nothing may be read;
  * `rangeFor` -- the loop over a range, by its iterators: a position, and how far it moves;
  * `FieldDescriptionsView`, `RowView`, `RowsView`, `ResultsetView`, and the accessors of
    `Resultsets`. Each of them but `ResultsetView` is a `Range`: `size()`, `operator[]`, and what
    iterating from `begin()` to `end()` yields;
  * `Range.Shows` -- all three say the same list. **`rangeFor_eq_ok`**: iterating is indexing.
-/
import NativePg.Lib.Flat
import NativePg.Responses.Model

namespace NativePg

namespace Responses

section
variable {α β : Type}

/-! ## 1. Pointers into a vector -/

/-- A span of `length` elements that starts `offset` elements into a vector. -/
def span (xs : List α) (offset length : Nat) : Attempt (List α) :=
  match Flat.sub xs offset length with
  | some ys => .ok ys
  | none => .error .undefined

theorem span_eq_ok {xs ys : List α} {offset length : Nat} :
    span xs offset length = .ok ys ↔ Flat.sub xs offset length = some ys := by
  unfold span
  cases Flat.sub xs offset length with
  | none => exact ⟨nofun, nofun⟩
  | some zs => simp

/-- An element of a vector. -/
def element (xs : List α) (i : Nat) : Attempt α :=
  match xs[i]? with
  | some x => .ok x
  | none => .error .undefined

theorem element_eq_ok {xs : List α} {i : Nat} {x : α} (h : xs[i]? = some x) :
    element xs i = .ok x := by
  rw [element, h]

/-! ## 2. Ranges -/

/-- `for (auto it = begin; it != last; ++it)`, with `*it` taken each time. An iterator is a position,
    and `++it` moves it by `stride`; at most as many turns are made as the first number says. -/
def rangeFor (deref : Nat → Attempt β) (stride last : Nat) : Nat → Nat → Attempt (List β)
  | 0, it => if it = last then .ok [] else .error .undefined
  | n + 1, it =>
    if it = last then .ok []
    else do
      let x ← deref it
      let xs ← rangeFor deref stride last n (it + stride)
      pure (x :: xs)

/-- **Iterating is indexing**: the positions are those of the elements. -/
theorem rangeFor_eq_ok {deref : Nat → Attempt β} {stride last : Nat} :
    ∀ {xs : List β} {n it : Nat}, last = it + xs.length * stride → (0 < stride ∨ xs = []) →
      xs.length ≤ n → (∀ {i : Nat} {x : β}, xs[i]? = some x → deref (it + i * stride) = .ok x) →
      rangeFor deref stride last n it = .ok xs
  | [], n, it, hlast, _, _, _ => by
      have hit : it = last := by simpa using hlast.symm
      cases n with
      | zero => rw [rangeFor, if_pos hit]
      | succ n => rw [rangeFor, if_pos hit]
  | x :: xs, 0, it, _, _, hn, _ => by simp at hn
  | x :: xs, n + 1, it, hlast, hstride, hn, hderef => by
      have hpos : 0 < stride := hstride.resolve_right (List.cons_ne_nil _ _)
      rw [List.length_cons, Nat.add_mul, Nat.one_mul] at hlast
      have hne : it ≠ last := by omega
      have hhead : deref it = .ok x := by simpa using @hderef 0 x rfl
      have htail : rangeFor deref stride last n (it + stride) = .ok xs := by
        refine rangeFor_eq_ok (by omega) (.inl hpos) (by simpa using hn) ?_
        intro i y hi
        have hnext := @hderef (i + 1) y (by simpa using hi)
        rw [Nat.add_mul, Nat.one_mul] at hnext
        rw [← hnext]
        congr 1
        omega
      rw [rangeFor, if_neg hne, hhead, htail]
      rfl

/-- A class with `size()`, `operator[]`, `begin()` and `end()`. -/
structure Range (β : Type) where
  size : Nat
  get : Nat → Attempt β
  /-- From `begin()` to `end()`. -/
  items : Attempt (List β)

/-- **A range shows a list**: by its size, by its elements, and when it is iterated over. -/
structure Range.Shows (r : Range β) (xs : List β) : Prop where
  size : r.size = xs.length
  get : ∀ {i : Nat} {x : β}, xs[i]? = some x → r.get i = .ok x
  items : r.items = .ok xs

/-- A range whose elements stand one beside the other in a vector. -/
def contiguous (xs : List α) (deref : α → Attempt β) : Range β where
  size := xs.length
  get i := do deref (← element xs i)
  items := rangeFor (fun it => do deref (← element xs it)) 1 xs.length xs.length 0

theorem contiguous_shows {xs : List α} {deref : α → Attempt β} {ys : List β}
    (h : List.Forall₂ (fun x y => deref x = .ok y) xs ys) : (contiguous xs deref).Shows ys := by
  have hget : ∀ {i : Nat} {y : β}, ys[i]? = some y →
      (do deref (← element xs i)) = (.ok y : Attempt β) := by
    intro i y hi
    obtain ⟨hlt, rfl⟩ := List.getElem?_eq_some_iff.mp hi
    have hlt' : i < xs.length := h.length_eq ▸ hlt
    rw [element_eq_ok (List.getElem?_eq_getElem hlt')]
    exact h.get hlt' hlt
  refine ⟨h.length_eq, hget, rangeFor_eq_ok ?_ (.inl Nat.one_pos) ?_ ?_⟩
  · rw [h.length_eq]
    omega
  · rw [h.length_eq]
  · intro i y hi
    rw [Nat.zero_add, Nat.mul_one]
    exact hget hi

end

/-! ## 3. Offsets and lengths -/

namespace OffsetAndLength

/-- The length that stands for NULL, `static_cast<std::size_t>(-1)`. -/
def nullLength : Nat := 2 ^ 64 - 1

/-- An element of `values_`, as `add_row` has pushed it. -/
def ofValue : Option OffsetAndLength → OffsetAndLength
  | none => ⟨0, nullLength⟩
  | some v => v

/-- `to_field_view`. -/
def toFieldView (v : OffsetAndLength) (data : Bytes) : Attempt (Option Bytes) :=
  if v.length = nullLength then .ok none
  else do
    let bytes ← span data v.offset v.length
    pure (some bytes)

/-- `to_string_view`. -/
def toStringView (v : OffsetAndLength) (data : Bytes) : Attempt Bytes := span data v.offset v.length

end OffsetAndLength

/-- `to_field_description`. -/
def OffsettedFieldDescription.toFieldDescription (d : OffsettedFieldDescription) (data : Bytes) :
    Attempt FieldDescription := do
  let name ← d.name.toStringView data
  pure {
    name
    tableOid := d.tableOid
    columnAttribute := d.columnAttribute
    typeOid := d.typeOid
    typeLength := d.typeLength
    typeModifier := d.typeModifier
    fmtCode := d.fmtCode }

/-! ## 4. The views -/

/-- `field_descriptions_view`. -/
structure FieldDescriptionsView where
  descrs : List OffsettedFieldDescription
  data : Bytes

def FieldDescriptionsView.range (v : FieldDescriptionsView) : Range FieldDescription :=
  contiguous v.descrs (·.toFieldDescription v.data)

/-- `row_view`. -/
structure RowView where
  values : List OffsetAndLength
  data : Bytes

def RowView.range (v : RowView) : Range (Option Bytes) :=
  contiguous v.values (·.toFieldView v.data)

/-- `rows_view`. -/
structure RowsView where
  values : List OffsetAndLength
  numColumns : Nat
  data : Bytes

namespace RowsView

/-- `rows_view::size`. -/
def size (v : RowsView) : Nat := if v.numColumns = 0 then 0 else v.values.length / v.numColumns

/-- `dereference`: the row that starts at a position. -/
def dereference (v : RowsView) (p : Nat) : Attempt RowView := do
  let values ← span v.values p v.numColumns
  pure { values, data := v.data }

/-- `operator[]`, and the iterators, which move by a row. -/
def range (v : RowsView) : Range RowView where
  size := v.size
  get i := v.dereference (i * v.numColumns)
  items := rangeFor v.dereference v.numColumns (v.size * v.numColumns) v.values.length 0

end RowsView

/-- `resultset_view`: the vectors pointed into, and the descriptor pointed to. -/
structure ResultsetView where
  descr : List OffsettedFieldDescription
  values : List OffsetAndLength
  data : Bytes
  result : ResultsetDescriptor

namespace ResultsetView

/-- `resultset_view::field_descriptions`. -/
def fieldDescriptions (v : ResultsetView) : Attempt FieldDescriptionsView := do
  let descrs ← span v.descr v.result.descr.offset v.result.descr.length
  pure { descrs, data := v.data }

/-- `resultset_view::rows`, with the assertion of the constructor of `rows_view`. Where there are no
    columns there are no values. -/
def rows (ndebug : Bool) (v : ResultsetView) : Attempt RowsView := do
  let values ← span v.values v.result.values.offset v.result.values.length
  boostAssert ndebug (values.isEmpty || values.length % v.result.descr.length = 0)
  pure { values, numColumns := v.result.descr.length, data := v.data }

/-- `resultset_view::info`. -/
def info (v : ResultsetView) : CommandInfo := v.result.info

/-- `resultset_view::error`. -/
def error (v : ResultsetView) : ExtendedError := v.result.err

end ResultsetView

namespace Resultsets

/-- The view of a descriptor. -/
def viewOf (r : Resultsets) (d : ResultsetDescriptor) : ResultsetView where
  descr := r.fieldDescr
  values := r.values.map OffsetAndLength.ofValue
  data := r.data
  result := d

/-- `resultsets::size`, `resultsets::operator[]`, and its iterators. -/
def range (r : Resultsets) : Range ResultsetView := contiguous r.resultsets (pure <| r.viewOf ·)

end Resultsets

end Responses

end NativePg
