/-
  File:      NativePg/Protocol/ParameterDescription.lean
  Subject:   The parameters of a statement: a list of type OIDs, and the view that should show it.

  * `int32Traits`, `at?`, `get` -- `random_access_traits<std::int32_t>` and the two ways to an
    element of a `random_access_parsing_view`;
  * `Shows`, `shows_items` -- what a view of fixed-size items shows, and that a view of encoded
    items shows these;
  * `parseParameterDescription_ok`, `parseParameterDescription_encode` -- the parser accepts the
    encodings of lists and nothing else, but never stores the view;
  * `parameter_description_exactly` -- so what it is for holds of every body but one kind.
-/
import NativePg.Protocol.Encoding

namespace NativePg

open BigEndian ParseContext

/-! ## 1. Views of items of one size -/

/-- `random_access_traits<std::int32_t>`; an iterator advances by `sizeof(std::int32_t)`. -/
def int32Traits : ItemTraits Int where
  dereference it := do
    let (value, _) ← uncheckedGetIntegral 4 it
    pure value
  advance it := advanceBy 4 it

namespace RandomAccessParsingView

section
variable {α : Type} (v : RandomAccessParsingView) (w : Nat) (t : ItemTraits α)

/-- `unchecked_access`; `w` is `sizeof(T)`. -/
def uncheckedAccess (i : Nat) : Checked α := t.dereference (v.data.drop (w * i))

/-- `at`; `none` is the `std::out_of_range` that is thrown. -/
def at? (i : Nat) : Option (Checked α) :=
  if i < v.size then some (v.uncheckedAccess w t i) else none

/-- `operator[]`. -/
def get (i : Nat) : Checked α :=
  if i < v.size then v.uncheckedAccess w t i else .error .assertion

/-- **The view shows these items**: as many, in this order, by iteration and by both ways to an
    element. -/
structure Shows (items : List α) : Prop where
  size : v.size = items.length
  iteration : v.items? w t = .ok (some items)
  access : ∀ i (h : i < items.length), v.at? w t i = some (.ok items[i]) ∧
    v.get w t i = .ok items[i]

end

/-- **A view of encoded items shows the items.** -/
theorem shows_items {α : Type} {t : ItemTraits α} {enc : α → Bytes} {P : α → Prop} {w : Nat}
    (h : Encodes t enc P) (hw : ∀ a, (enc a).length = w) {as : List α} (hP : ∀ a ∈ as, P a) :
    Shows ⟨as.flatMap enc, as.length⟩ w t as where
  size := rfl
  iteration := items?_flatMap h hw hP
  access := by
    intro i hi
    have hsplit : as = as.take i ++ as[i] :: as.drop (i + 1) := by
      rw [List.getElem_cons_drop, List.take_append_drop]
    have hdrop : (as.flatMap enc).drop (w * i) = enc as[i] ++ (as.drop (i + 1)).flatMap enc := by
      have hfront : ((as.take i).flatMap enc).length = w * i := by
        rw [length_flatMap_fixed hw, List.length_take_of_le (Nat.le_of_lt hi)]
      have hbytes := congrArg (List.flatMap enc) hsplit
      rw [List.flatMap_append, List.flatMap_cons] at hbytes
      rw [hbytes, List.drop_left' hfront]
    have hread : uncheckedAccess ⟨as.flatMap enc, as.length⟩ w t i = .ok as[i] := by
      unfold uncheckedAccess
      rw [hdrop]
      exact h.dereference _ _ (hP _ (List.getElem_mem hi))
    unfold at? get
    rw [if_pos hi, if_pos hi, hread]
    exact ⟨rfl, rfl⟩

end RandomAccessParsingView

theorem int32Traits_encodes : Encodes int32Traits (ofInt 4) (Fits 4) where
  ne_nil z h := by
    have hlen := congrArg List.length h
    simp at hlen
  dereference z rest h := by
    simp only [int32Traits, uncheckedGetIntegral_append h, bind, Except.bind]
    rfl
  advance z rest _ := advanceBy_append (length_ofInt 4 z) rest

/-! ## 2. The parser -/

/-- The body of a ParameterDescription. -/
def encParameterDescription (oids : List Int) : Bytes :=
  ofInt 2 oids.length ++ oids.flatMap (ofInt 4)

/-- A list of at most 32767 OIDs, which are `std::int32_t`. -/
structure OidsWellFormed (oids : List Int) : Prop where
  length : oids.length ≤ 32767
  fits : ∀ oid ∈ oids, Fits 4 oid

/-- Bytes in groups of four are integers. -/
theorem exists_ints : ∀ (n : Nat) {bytes : Bytes}, bytes.length = n * 4 → ∃ ints : List Int,
    ints.length = n ∧ (∀ z ∈ ints, Fits 4 z) ∧ bytes = ints.flatMap (ofInt 4)
  | 0, bytes, h => by
      have hnil : bytes = [] := List.length_eq_zero_iff.mp (by omega)
      exact ⟨[], rfl, by simp, hnil⟩
  | n + 1, bytes, h => by
      have hwidth : (bytes.take 4).length = 4 := by
        rw [List.length_take]
        omega
      have hdrop : (bytes.drop 4).length = n * 4 := by
        rw [List.length_drop]
        omega
      obtain ⟨ints, hlen, hall, heq⟩ := exists_ints n hdrop
      have hfits := fits_toInt (bytes.take 4)
      have hback := ofInt_toInt (bytes.take 4)
      rw [hwidth] at hfits hback
      refine ⟨toInt (bytes.take 4) :: ints, by rw [List.length_cons, hlen], ?_, ?_⟩
      · intro z hz
        rcases List.mem_cons.mp hz with rfl | hz
        · exact hfits
        · exact hall z hz
      · rw [List.flatMap_cons, hback, ← heq, List.take_append_drop]

/-- **A body that is accepted encodes a list.** -/
theorem parseParameterDescription_ok {data : Bytes}
    (h : (parseParameterDescription data).1.failed = false) :
    ∃ oids, OidsWellFormed oids ∧ data = encParameterDescription oids := by
  unfold parseParameterDescription at h
  simp only at h
  obtain ⟨hgood, hnil⟩ := check_ok.mp h
  obtain ⟨bytes, hlen, hrest⟩ := checkSizeAndAdvance_takes hgood
  obtain ⟨hcount, hfits⟩ := getNonnegativeIntegral_takes hrest.good
  obtain ⟨oids, hoids, hall, hbytes⟩ := exists_ints _ hlen
  rw [← hoids] at hcount hfits
  have hdata := (hcount.trans hrest).whole hnil
  refine ⟨oids, ⟨?_, hall⟩, by rw [hdata, hbytes]; rfl⟩
  unfold Fits at hfits
  omega

/-- **The encoding of a list is accepted, and the view stays empty.** -/
theorem parseParameterDescription_encode {oids : List Int} (h : OidsWellFormed oids) :
    parseParameterDescription (encParameterDescription oids) = (.success, {}) := by
  have hle := h.length
  have hfits : Fits 2 oids.length := by
    unfold Fits
    omega
  have hcount := getNonnegativeIntegral_append ErrorCode.failed_success (oids.flatMap (ofInt 4)) hfits
  have hlen : oids.length * 4 = (oids.flatMap (ofInt 4)).length := by
    rw [length_flatMap_fixed (length_ofInt 4), Nat.mul_comm]
  have hbody := checkSizeAndAdvance_append (oids.flatMap (ofInt 4)) [] .success
  rw [List.append_nil] at hbody
  unfold parseParameterDescription encParameterDescription
  simp only [hcount]
  rw [hlen, hbody]
  rfl

/-! ## 3. What the message is for -/

def parameterDescriptionType : UInt8 := 't'.toNat.toUInt8

/-- What a ParameterDescription is for, at one body: a list of OIDs is parsed into a view that
    shows it, and anything else is rejected. -/
def DescribesParameters (body : Bytes) : Prop :=
  (∀ oids, OidsWellFormed oids → body = encParameterDescription oids →
    ∃ v, parseAnyMessage parameterDescriptionType body = .ok (.parameterDescription v) ∧
      v.Shows 4 int32Traits oids) ∧
  ((¬∃ oids, OidsWellFormed oids ∧ body = encParameterDescription oids) →
    ∃ ec, parseAnyMessage parameterDescriptionType body = .error ec)

theorem parseAnyMessage_parameterDescription (body : Bytes) :
    parseAnyMessage parameterDescriptionType body =
      parseAnyMessageImpl (parseParameterDescription body) .parameterDescription := rfl

/-- **The parameters are described for every body but the encodings of non-empty lists.** -/
theorem parameter_description_exactly (body : Bytes) :
    DescribesParameters body ↔
      ¬∃ oids, OidsWellFormed oids ∧ oids ≠ [] ∧ body = encParameterDescription oids := by
  unfold DescribesParameters
  rw [parseAnyMessage_parameterDescription]
  constructor
  · rintro ⟨hlist, -⟩ ⟨oids, hwf, hne, rfl⟩
    obtain ⟨v, hok, hshows⟩ := hlist oids hwf rfl
    rw [parseParameterDescription_encode hwf] at hok
    cases hok
    exact hne (List.length_eq_zero_iff.mp hshows.size.symm)
  · intro hempty
    refine ⟨fun oids hwf hbody => ?_, fun hno => ?_⟩
    · have hnil : oids = [] := by
        by_contra hne
        exact hempty ⟨oids, hwf, hne, hbody⟩
      subst hnil
      rw [hbody, parseParameterDescription_encode hwf]
      exact ⟨{}, rfl, RandomAccessParsingView.shows_items int32Traits_encodes (length_ofInt 4) hwf.fits⟩
    · unfold parseAnyMessageImpl
      split
      · exact ⟨_, rfl⟩
      · rename_i hgood
        exact absurd (parseParameterDescription_ok (eq_false_of_ne_true hgood)) hno

/-- A statement with one parameter, of the type `int4`, has none in its description. -/
theorem one_parameter_lost : ¬DescribesParameters (encParameterDescription [23]) := by
  rintro ⟨hlist, -⟩
  have hwf : OidsWellFormed [23] := ⟨by decide, by decide⟩
  obtain ⟨v, hok, hshows⟩ := hlist [23] hwf rfl
  rw [parseAnyMessage_parameterDescription, parseParameterDescription_encode hwf] at hok
  cases hok
  exact absurd hshows.size (by decide)

end NativePg
