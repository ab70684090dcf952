/-
  File:      NativePg/Protocol/Views.lean
  Subject:   Walking through the views of a message (include/nativepg/protocol/views.hpp, and the
             traits in src/messages.cpp).

  * `ItemTraits` -- `forward_traits<T>` and `random_access_traits<T>`: what an iterator reads at its
    position and where it goes next. Nothing is checked in the source; here an access behind the
    end of the view is a fault;
  * `stringTraits`, `fieldViewTraits`, `fieldDescriptionTraits`, `formatCodeTraits` -- the traits;
  * `iterate` -- the loop `for (auto it = v.begin(); it != v.end(); ++it)`;
  * `Encodes`, `iterate_flatMap` -- a view whose bytes are encoded items yields these items.
-/
import NativePg.Lib.Flat
import NativePg.Protocol.Messages

namespace NativePg

/-! ## 1. Unchecked reads -/

/-- `unchecked_get_string`: the string, and what lies behind it. `std::strlen` goes past the end
    where there is no NUL. -/
def uncheckedGetString (it : Bytes) : Checked (Bytes × Bytes) :=
  if it.all (· ≠ 0) then .error .outOfRange
  else
    let s := it.takeWhile (· ≠ 0)
    .ok (s, it.drop (s.length + 1))

/-- `unchecked_get_integral<IntType>`; `w` is `sizeof(IntType)`. -/
def uncheckedGetIntegral (w : Nat) (it : Bytes) : Checked (Int × Bytes) :=
  if it.length < w then .error .outOfRange else .ok (loadBigSigned (it.take w), it.drop w)

/-- A position `n` bytes further. -/
def advanceBy (n : Nat) (it : Bytes) : Checked Bytes :=
  if it.length < n then .error .outOfRange else .ok (it.drop n)

/-- `static_cast<format_code>`, of a value `parse` has found to be one of the two. -/
def toFormatCode (v : Int) : Checked FormatCode :=
  if v = 0 then .ok .text else if v = 1 then .ok .binary else .error .assertion

/-! ## 2. Traits -/

/-- What an iterator does with the bytes from its position on. -/
structure ItemTraits (α : Type) where
  dereference : Bytes → Checked α
  advance : Bytes → Checked Bytes

/-- `forward_traits<std::string_view>`. -/
def stringTraits : ItemTraits Bytes where
  dereference it := do
    let (s, _) ← uncheckedGetString it
    pure s
  advance it := do
    let (_, it) ← uncheckedGetString it
    pure it

/-- `forward_traits<field_view>`: an `Int32` and as many bytes. `none` is `field_view{}`, the NULL,
    which points to no bytes of a message. -/
def fieldViewTraits : ItemTraits (Option Bytes) where
  dereference it := do
    let (size, it) ← uncheckedGetIntegral 4 it
    if size = -1 then pure none
    else if size < 0 ∨ it.length < size.toNat then .error .outOfRange
    else pure (some (it.take size.toNat))
  advance it := do
    let (size, it) ← uncheckedGetIntegral 4 it
    advanceBy (if size > 0 then size.toNat else 0) it

/-- `forward_traits<field_description>`. -/
def fieldDescriptionTraits : ItemTraits FieldDescription where
  dereference it := do
    let (name, it) ← uncheckedGetString it
    let (tableOid, it) ← uncheckedGetIntegral 4 it
    let (columnAttribute, it) ← uncheckedGetIntegral 2 it
    let (typeOid, it) ← uncheckedGetIntegral 4 it
    let (typeLength, it) ← uncheckedGetIntegral 2 it
    let (typeModifier, it) ← uncheckedGetIntegral 4 it
    let (fmtCode, _) ← uncheckedGetIntegral 2 it
    let fmtCode ← toFormatCode fmtCode
    pure { name, tableOid, columnAttribute, typeOid, typeLength, typeModifier, fmtCode }
  advance it := do
    let (_, it) ← uncheckedGetString it
    advanceBy fieldDescriptionFixedSize it

/-- `random_access_traits<format_code>`; an iterator advances by `sizeof(format_code)`. -/
def formatCodeTraits : ItemTraits FormatCode where
  dereference it := do
    let (code, _) ← uncheckedGetIntegral 2 it
    toFormatCode code
  advance it := advanceBy 2 it

/-! ## 3. Iteration -/

/-- Goes on from a position to the end of the view, in at most as many steps; `none` where that is
    too few. -/
def iterate {α : Type} (t : ItemTraits α) : Nat → Bytes → Checked (Option (List α))
  | _, [] => pure (some [])
  | 0, _ :: _ => pure none
  | n + 1, it => do
    let item ← t.dereference it
    let it ← t.advance it
    return (← iterate t n it).map (item :: ·)

/-- The items from `begin()` to `end()`, where there are `size()` of them. -/
def ForwardParsingView.items? {α : Type} (v : ForwardParsingView) (t : ItemTraits α) :
    Checked (Option (List α)) := do
  let items ← iterate t v.size v.data
  pure (items.filter (·.length = v.size))

/-- The same for a view of items of `w` bytes; `end()` is so many of them behind `begin()`. -/
def RandomAccessParsingView.items? {α : Type} (v : RandomAccessParsingView) (w : Nat)
    (t : ItemTraits α) : Checked (Option (List α)) :=
  if v.data.length < w * v.size then .error .outOfRange
  else ForwardParsingView.items? ⟨v.size, v.data.take (w * v.size)⟩ t

/-- The traits read back what `enc` has written, for the items `P` holds of. -/
structure Encodes {α : Type} (t : ItemTraits α) (enc : α → Bytes) (P : α → Prop) : Prop where
  ne_nil : ∀ a, enc a ≠ []
  dereference : ∀ a rest, P a → t.dereference (enc a ++ rest) = .ok a
  advance : ∀ a rest, P a → t.advance (enc a ++ rest) = .ok rest

section
variable {α : Type} {t : ItemTraits α} {enc : α → Bytes} {P : α → Prop}

/-- **Iteration over encoded items yields the items**, and takes one step for each. -/
theorem iterate_flatMap (h : Encodes t enc P) : ∀ as : List α, (∀ a ∈ as, P a) →
    iterate t as.length (as.flatMap enc) = .ok (some as)
  | [], _ => rfl
  | a :: as, hP => by
      have ha := hP a (by simp)
      have hne : enc a ++ as.flatMap enc ≠ [] := by simp [h.ne_nil a]
      have ih := iterate_flatMap h as fun b hb => hP b (by simp [hb])
      rw [List.flatMap_cons, List.length_cons]
      unfold iterate
      split
      · contradiction
      · rename_i hlen _
        cases hlen
      · rename_i hlen _
        cases hlen
        simp only [h.dereference a _ ha, h.advance a _ ha, ih, bind, Except.bind]
        rfl

theorem items?_flatMap (h : Encodes t enc P) {as : List α} (hP : ∀ a ∈ as, P a) :
    ForwardParsingView.items? ⟨as.length, as.flatMap enc⟩ t = .ok (some as) := by
  unfold ForwardParsingView.items?
  rw [iterate_flatMap h as hP]
  simp [pure, Except.pure, bind, Except.bind]

theorem length_flatMap_fixed {w : Nat} (hw : ∀ a, (enc a).length = w) (as : List α) :
    (as.flatMap enc).length = w * as.length := by
  have hrows : ∀ row ∈ as.map enc, row.length = w := by
    intro row hrow
    obtain ⟨a, -, rfl⟩ := List.mem_map.mp hrow
    exact hw a
  rw [List.flatMap_def, Flat.length_flatten hrows, List.length_map, Nat.mul_comm]

/-- The same for items of one size. -/
theorem RandomAccessParsingView.items?_flatMap (h : Encodes t enc P) {w : Nat}
    (hw : ∀ a, (enc a).length = w) {as : List α} (hP : ∀ a ∈ as, P a) :
    RandomAccessParsingView.items? ⟨as.flatMap enc, as.length⟩ w t = .ok (some as) := by
  have hlen := length_flatMap_fixed hw as
  unfold RandomAccessParsingView.items?
  simp only
  rw [if_neg (by omega), ← hlen, List.take_length]
  exact NativePg.items?_flatMap h hP

end

/-! ## 4. Encoded items -/

/-- A string with its terminator. -/
def encString (s : Bytes) : Bytes := s ++ [0]

/-- The value of a format code. -/
def FormatCode.value : FormatCode → Int
  | .text => 0
  | .binary => 1

def encFormatCode (c : FormatCode) : Bytes := BigEndian.ofInt 2 c.value

/-- A column of a data row; NULL has the length -1. -/
def encColumn : Option Bytes → Bytes
  | none => BigEndian.ofInt 4 (-1)
  | some v => BigEndian.ofInt 4 v.length ++ v

/-- The fields of fixed length. -/
def encFixedFields (f : FieldDescription) : Bytes :=
  BigEndian.ofInt 4 f.tableOid ++ (BigEndian.ofInt 2 f.columnAttribute ++
    (BigEndian.ofInt 4 f.typeOid ++ (BigEndian.ofInt 2 f.typeLength ++
      BigEndian.ofInt 4 f.typeModifier)))

def encFieldDescription (f : FieldDescription) : Bytes :=
  encString f.name ++ (encFixedFields f ++ encFormatCode f.fmtCode)

/-- Their values are those of `Int16` and `Int32` fields, and the name has no NUL. -/
structure FieldDescription.WellFormed (f : FieldDescription) : Prop where
  name : (0 : UInt8) ∉ f.name
  tableOid : BigEndian.Fits 4 f.tableOid
  columnAttribute : BigEndian.Fits 2 f.columnAttribute
  typeOid : BigEndian.Fits 4 f.typeOid
  typeLength : BigEndian.Fits 2 f.typeLength
  typeModifier : BigEndian.Fits 4 f.typeModifier

/-- A column whose length fits its field. -/
def ColumnFits (c : Option Bytes) : Prop := ∀ v ∈ c, BigEndian.Fits 4 v.length

theorem uncheckedGetString_append {s : Bytes} (h : (0 : UInt8) ∉ s) (rest : Bytes) :
    uncheckedGetString (encString s ++ rest) = .ok (s, rest) := by
  have hall : ¬(s ++ 0 :: rest).all (· ≠ 0) = true := by simp
  unfold uncheckedGetString encString
  rw [List.append_assoc, List.singleton_append, if_neg hall]
  simp only
  rw [Delimited.drop_takeWhile_ne_append h, Delimited.takeWhile_ne_append h]

theorem uncheckedGetIntegral_append {w : Nat} {z : Int} (h : BigEndian.Fits w z) (rest : Bytes) :
    uncheckedGetIntegral w (BigEndian.ofInt w z ++ rest) = .ok (z, rest) := by
  unfold uncheckedGetIntegral
  rw [if_neg (by simp), List.take_left' (BigEndian.length_ofInt w z),
    List.drop_left' (BigEndian.length_ofInt w z)]
  rw [loadBigSigned, BigEndian.toInt_ofInt h]

theorem advanceBy_append {n : Nat} {bytes : Bytes} (h : bytes.length = n) (rest : Bytes) :
    advanceBy n (bytes ++ rest) = .ok rest := by
  unfold advanceBy
  rw [if_neg (by simp [h]), List.drop_left' h]

theorem fits_value (c : FormatCode) : BigEndian.Fits 2 c.value := by
  cases c <;> decide

theorem toFormatCode_value (c : FormatCode) : toFormatCode c.value = .ok c := by
  cases c <;> rfl

theorem stringTraits_encodes : Encodes stringTraits encString ((0 : UInt8) ∉ ·) where
  ne_nil s := by simp [encString]
  dereference s rest h := by
    simp only [stringTraits, uncheckedGetString_append h, bind, Except.bind]
    rfl
  advance s rest h := by
    simp only [stringTraits, uncheckedGetString_append h, bind, Except.bind]
    rfl

theorem formatCodeTraits_encodes : Encodes formatCodeTraits encFormatCode (fun _ => True) where
  ne_nil c := by cases c <;> decide
  dereference c rest _ := by
    simp only [formatCodeTraits, encFormatCode, uncheckedGetIntegral_append (fits_value c), bind,
      Except.bind]
    exact toFormatCode_value c
  advance c rest _ := advanceBy_append (BigEndian.length_ofInt 2 _) rest

/-- **NULL and the empty value are kept apart.** -/
theorem fieldViewTraits_encodes : Encodes fieldViewTraits encColumn ColumnFits where
  ne_nil c := by
    intro h
    have hlen := congrArg List.length h
    cases c <;> simp [encColumn] at hlen
  dereference c rest h := by
    cases c with
    | none =>
      simp only [fieldViewTraits, encColumn, bind, Except.bind,
        uncheckedGetIntegral_append (show BigEndian.Fits 4 (-1) by decide)]
      rfl
    | some v =>
      simp only [fieldViewTraits, encColumn, List.append_assoc, bind, Except.bind,
        uncheckedGetIntegral_append (h v rfl)]
      rw [if_neg (by omega), if_neg (by simp), Int.toNat_natCast, List.take_left]
      rfl
  advance c rest h := by
    cases c with
    | none =>
      simp only [fieldViewTraits, encColumn, bind, Except.bind,
        uncheckedGetIntegral_append (show BigEndian.Fits 4 (-1) by decide)]
      rfl
    | some v =>
      simp only [fieldViewTraits, encColumn, List.append_assoc, bind, Except.bind,
        uncheckedGetIntegral_append (h v rfl)]
      refine advanceBy_append ?_ rest
      split
      · rfl
      · omega

theorem length_encFixedFields (f : FieldDescription) :
    (encFixedFields f ++ encFormatCode f.fmtCode).length = fieldDescriptionFixedSize := by
  simp [encFixedFields, encFormatCode, fieldDescriptionFixedSize]

theorem fieldDescriptionTraits_encodes :
    Encodes fieldDescriptionTraits encFieldDescription FieldDescription.WellFormed where
  ne_nil f := by simp [encFieldDescription, encString]
  dereference f rest h := by
    unfold fieldDescriptionTraits encFieldDescription encFixedFields encFormatCode
    simp only [List.append_assoc, bind, Except.bind, uncheckedGetString_append h.name,
      uncheckedGetIntegral_append h.tableOid, uncheckedGetIntegral_append h.columnAttribute,
      uncheckedGetIntegral_append h.typeOid, uncheckedGetIntegral_append h.typeLength,
      uncheckedGetIntegral_append h.typeModifier, uncheckedGetIntegral_append (fits_value f.fmtCode),
      toFormatCode_value]
    rfl
  advance f rest h := by
    unfold fieldDescriptionTraits encFieldDescription
    simp only [List.append_assoc, bind, Except.bind, uncheckedGetString_append h.name]
    rw [← List.append_assoc]
    exact advanceBy_append (length_encFixedFields f) rest

end NativePg
