/-
  File:      NativePg/Protocol/Decoding.lean
  Subject:   What a server makes of the messages the client writes.

  * `Content` -- the fields of the messages with texts, in the terms of the protocol;
  * `decode` -- a decoder of frames, after the message formats of PostgreSQL: a string ends at its
    first NUL, a length has to be that of the frame, and nothing may be left over; the user and the
    database of a startup message are the parameters of these names;
  * `ensures_body`, `ensures_startup` -- no string it reads has a NUL, no other parameter an empty
    name or one of these two; `reads_body`, `reads_startup` -- it reads the fields of a message with
    such strings;
  * `serialize_recovers_iff` -- when the fields of a message are recovered from what `serialize`
    wrote. The code does not look at the bytes of a string.
-/
import NativePg.Lib.Decode
import NativePg.Protocol.Serialize

namespace NativePg

open Decode

/-! ## 1. Contents -/

/-- The fields of a message. Format codes are the list on the wire, and a parameter of a statement
    is its value or NULL. -/
inductive Content where
  | query (text : Bytes)
  | parse (name text : Bytes) (oids : List Int)
  | bind (portal statement : Bytes) (paramCodes : List Int) (params : List (Option Bytes))
      (resultCodes : List Int)
  | describe (type : UInt8) (name : Bytes)
  | close (type : UInt8) (name : Bytes)
  | execute (name : Bytes) (rows : Int)
  | copyFail (text : Bytes)
  | password (text : Bytes)
  | startup (version : Int) (user : Bytes) (database : Option Bytes)
      (params : List (Bytes × Bytes))
  deriving DecidableEq, Repr

/-- The names a server takes for the user and the database. -/
def Reserved (name : Bytes) : Prop := name = ascii "user" ∨ name = ascii "database"

instance : DecidablePred Reserved := fun name =>
  inferInstanceAs (Decidable (name = ascii "user" ∨ name = ascii "database"))

/-- A startup parameter besides these two: its name is not empty, and no string has a NUL in it. -/
structure CleanParam (param : Bytes × Bytes) : Prop where
  ne_nil : param.1 ≠ []
  not_reserved : ¬Reserved param.1
  name : 0 ∉ param.1
  value : 0 ∉ param.2

/-- No string has a NUL in it, and each further startup parameter has a name of its own. -/
def Content.Clean : Content → Prop
  | .query text => 0 ∉ text
  | .parse name text _ => 0 ∉ name ∧ 0 ∉ text
  | .bind portal statement _ _ _ => 0 ∉ portal ∧ 0 ∉ statement
  | .describe _ name => 0 ∉ name
  | .close _ name => 0 ∉ name
  | .execute name _ => 0 ∉ name
  | .copyFail text => 0 ∉ text
  | .password text => 0 ∉ text
  | .startup _ user database params =>
      0 ∉ user ∧ (∀ name ∈ database, 0 ∉ name) ∧ ∀ param ∈ params, CleanParam param

instance : DecidablePred CleanParam := fun param =>
  decidable_of_iff (param.1 ≠ [] ∧ ¬Reserved param.1 ∧ 0 ∉ param.1 ∧ 0 ∉ param.2)
    ⟨fun h => ⟨h.1, h.2.1, h.2.2.1, h.2.2.2⟩, fun h => ⟨h.ne_nil, h.not_reserved, h.name, h.value⟩⟩

instance : DecidablePred Content.Clean
  | .query text | .copyFail text | .password text => inferInstanceAs (Decidable (0 ∉ text))
  | .parse name text _ => inferInstanceAs (Decidable (0 ∉ name ∧ 0 ∉ text))
  | .bind portal statement _ _ _ => inferInstanceAs (Decidable (0 ∉ portal ∧ 0 ∉ statement))
  | .describe _ name | .close _ name | .execute name _ => inferInstanceAs (Decidable (0 ∉ name))
  | .startup _ user database params =>
      inferInstanceAs (Decidable (0 ∉ user ∧ (∀ name ∈ database, 0 ∉ name) ∧
        ∀ param ∈ params, CleanParam param))

/-- The fields of the messages that carry strings. -/
def FrontendMessage.content : FrontendMessage → Option Content
  | .query text => some (.query text)
  | .parse name text oids => some (.parse name text (oids.map Int32.toInt))
  | .bind msg => some (.bind msg.portalName msg.statementName
      (msg.parameterFmtCodes.codes.map FormatCode.value) (msg.parametersFn.values.map some)
      (msg.resultFmtCodes.codes.map FormatCode.value))
  | .describe type name => some (.describe type.byte name)
  | .close type name => some (.close type.byte name)
  | .execute name rows => some (.execute name rows.toInt)
  | .copyFail text => some (.copyFail text)
  | .password text => some (.password text)
  | .startupMessage user database params =>
      some (.startup 196608 user database params)
  | _ => none

/-! ## 2. The decoder -/

/-- The value of a parameter: a length and as many bytes, or -1 for NULL. -/
def decodeParam : Decoder (Option Bytes) := do
  let size ← int 4
  if size = -1 then pure none
  else if size < 0 then failure
  else do
    let value ← bytes size.toNat
    pure (some value)

/-- The body of a message of some type. -/
def decodeBody : Char → Decoder Content
  | 'Q' => do
      let text ← string
      pure (.query text)
  | 'P' => do
      let name ← string
      let text ← string
      let oids ← counted 2 (int 4)
      pure (.parse name text oids)
  | 'B' => do
      let portal ← string
      let statement ← string
      let paramCodes ← counted 2 (int 2)
      let params ← counted 2 decodeParam
      let resultCodes ← counted 2 (int 2)
      pure (.bind portal statement paramCodes params resultCodes)
  | 'D' => do
      let type ← byte
      let name ← string
      pure (.describe type name)
  | 'C' => do
      let type ← byte
      let name ← string
      pure (.close type name)
  | 'E' => do
      let name ← string
      let rows ← int 4
      pure (.execute name rows)
  | 'f' => do
      let text ← string
      pure (.copyFail text)
  | 'p' => do
      let text ← string
      pure (.password text)
  | _ => failure

/-- Names and values up to an empty name, at most so many. -/
def decodePairs : Nat → Decoder (List (Bytes × Bytes))
  | 0 => failure
  | n + 1 => do
    let name ← string
    if name = [] then pure []
    else do
      let value ← string
      let params ← decodePairs n
      pure ((name, value) :: params)

/-- The parameters of a startup message; there are not more of them than bytes. -/
def decodeStartupParams : Decoder (List (Bytes × Bytes)) := fun input =>
  decodePairs input.length input

/-- What the pairs say of a name: the last of them counts. -/
def lastValue (name : Bytes) (pairs : List (Bytes × Bytes)) : Option Bytes :=
  (pairs.filter (·.1 = name)).getLast?.map Prod.snd

/-- The pairs that name neither the user nor the database. -/
def otherParams (pairs : List (Bytes × Bytes)) : List (Bytes × Bytes) :=
  pairs.filter fun p => ¬Reserved p.1

/-- The body of a startup message. The user has to be named; the database may be. -/
def decodeStartup : Decoder Content := do
  let version ← int 4
  let pairs ← decodeStartupParams
  match lastValue (ascii "user") pairs with
  | none => failure
  | some user =>
      pure (.startup version user (lastValue (ascii "database") pairs) (otherParams pairs))

/-- A length, which has to be that of the input, and a body. -/
def decodeSized (d : Decoder Content) (input : Bytes) : Option Content :=
  if 4 ≤ input.length ∧ BigEndian.toInt (input.take 4) = input.length then whole d (input.drop 4)
  else none

/-- A frame. The server knows whether it is to read a startup message, which has no type. -/
def decode (startup : Bool) (frame : Bytes) : Option Content :=
  if startup then decodeSized decodeStartup frame
  else
    match frame with
    | [] => none
    | t :: rest => decodeSized (decodeBody (Char.ofNat t.toNat)) rest

/-! ## 3. What is read -/

theorem ensures_pairs : ∀ n, Ensures (decodePairs n) fun params =>
    ∀ param ∈ params, param.1 ≠ [] ∧ 0 ∉ param.1 ∧ 0 ∉ param.2
  | 0 => ensures_failure
  | n + 1 => by
      refine ensures_string.bind fun name hname => ?_
      by_cases hempty : name = []
      · rw [if_pos hempty]
        exact ensures_pure (by simp)
      · rw [if_neg hempty]
        refine ensures_string.bind fun value hvalue => (ensures_pairs n).bind fun params hparams => ?_
        refine ensures_pure (List.forall_mem_cons.mpr ⟨⟨hempty, hname, hvalue⟩, hparams⟩)

theorem mem_of_lastValue {name value : Bytes} {pairs : List (Bytes × Bytes)}
    (h : lastValue name pairs = some value) : (name, value) ∈ pairs := by
  obtain ⟨pair, hlast, rfl⟩ := Option.map_eq_some_iff.mp h
  obtain ⟨hmem, hname⟩ := List.mem_filter.mp (List.mem_of_getLast? hlast)
  rw [← of_decide_eq_true hname]
  exact hmem

theorem ensures_startup : Ensures decodeStartup Content.Clean := by
  refine (ensures_true _).bind fun version _ => ?_
  have hpairs : Ensures decodeStartupParams fun pairs =>
      ∀ pair ∈ pairs, pair.1 ≠ [] ∧ 0 ∉ pair.1 ∧ 0 ∉ pair.2 :=
    fun input _ _ hrun => ensures_pairs input.length input _ _ hrun
  refine hpairs.bind fun pairs h => ?_
  cases huser : lastValue (ascii "user") pairs with
  | none => exact ensures_failure
  | some user =>
    refine ensures_pure ⟨(h _ (mem_of_lastValue huser)).2.2, fun database hdatabase => ?_,
      fun param hparam => ?_⟩
    · exact (h _ (mem_of_lastValue hdatabase)).2.2
    · obtain ⟨hmem, hother⟩ := List.mem_filter.mp hparam
      obtain ⟨hne, hname, hvalue⟩ := h param hmem
      exact ⟨hne, of_decide_eq_true hother, hname, hvalue⟩

/-- **Nothing else is read than strings without NUL.** -/
theorem ensures_body (t : Char) : Ensures (decodeBody t) Content.Clean := by
  unfold decodeBody
  split
  · exact ensures_string.bind fun _ htext => ensures_pure htext
  · refine ensures_string.bind fun name hname => ensures_string.bind fun text htext => ?_
    exact (ensures_true _).bind fun _ _ => ensures_pure ⟨hname, htext⟩
  · refine ensures_string.bind fun portal hportal => ensures_string.bind fun statement hstatement => ?_
    refine (ensures_true _).bind fun _ _ => (ensures_true _).bind fun _ _ => ?_
    exact (ensures_true _).bind fun _ _ => ensures_pure ⟨hportal, hstatement⟩
  · exact (ensures_true _).bind fun _ _ => ensures_string.bind fun _ hname => ensures_pure hname
  · exact (ensures_true _).bind fun _ _ => ensures_string.bind fun _ hname => ensures_pure hname
  · exact ensures_string.bind fun _ hname => (ensures_true _).bind fun _ _ => ensures_pure hname
  · exact ensures_string.bind fun _ htext => ensures_pure htext
  · exact ensures_string.bind fun _ htext => ensures_pure htext
  · exact ensures_failure

/-! ## 4. What was written -/

theorem reads_param {value : Bytes} (h : value.length ≤ int32Max) :
    Reads decodeParam (encColumn (some value)) (some value) := by
  refine (reads_int (fits_of_le_int32Max h)).bind ?_
  rw [if_neg (by omega), if_neg (by omega), Int.toNat_natCast]
  exact (reads_bytes value).bind_pure

theorem reads_codes {codes : List FormatCode} (h : tooMany codes = false) :
    Reads (counted 2 (int 2)) ((codesLayout codes).flatMap WireField.enc)
      (codes.map FormatCode.value) := by
  have hcount : codes.length ≤ int16Max := by simpa [tooMany] using h
  have hitems : ∀ z ∈ codes.map FormatCode.value, Reads (int 2) (BigEndian.ofInt 2 z) z := by
    intro z hz
    obtain ⟨c, -, rfl⟩ := List.mem_map.mp hz
    exact reads_int (fits_value c)
  have hlength : BigEndian.Fits 2 (codes.map FormatCode.value).length := by
    rw [List.length_map]
    exact fits_of_le_int16Max hcount
  have hreads := reads_counted hlength hitems
  rw [List.length_map, List.flatMap_map] at hreads
  simp only [codesLayout, List.flatMap_cons, List.flatMap_map]
  exact hreads

theorem reads_params {values : List Bytes} (h : tooMany values = false)
    (hfit : values.any tooLong = false) :
    Reads (counted 2 decodeParam) ((paramsLayout values).flatMap WireField.enc)
      (values.map some) := by
  have hcount : values.length ≤ int16Max := by simpa [tooMany] using h
  have hitems : ∀ p ∈ values.map some, Reads decodeParam (encColumn p) p := by
    intro p hp
    obtain ⟨v, hv, rfl⟩ := List.mem_map.mp hp
    exact reads_param (by simpa [tooLong] using List.any_eq_false.mp hfit v hv)
  have hlength : BigEndian.Fits 2 (values.map some).length := by
    rw [List.length_map]
    exact fits_of_le_int16Max hcount
  have hreads := reads_counted hlength hitems
  rw [List.length_map, List.flatMap_map] at hreads
  rw [enc_paramsLayout]
  exact hreads

/-- Fewer pairs than steps. -/
theorem reads_pairs : ∀ (n : Nat) {params : List (Bytes × Bytes)}, params.length < n →
    (∀ param ∈ params, param.1 ≠ [] ∧ 0 ∉ param.1 ∧ 0 ∉ param.2) →
    Reads (decodePairs n) ((params.flatMap fun p => encString p.1 ++ encString p.2) ++ [0]) params
  | 0, _, hn, _ => by omega
  | n + 1, [], _, _ => by
      have hend : (([] : List (Bytes × Bytes)).flatMap fun p => encString p.1 ++ encString p.2) ++
          [0] = ([] ++ [0]) ++ [] := rfl
      rw [hend]
      refine (reads_string (s := []) (by simp)).bind ?_
      rw [if_pos rfl]
      exact reads_pure []
  | n + 1, (name, value) :: params, hn, h => by
      obtain ⟨⟨hne, hname, hvalue⟩, hparams⟩ := List.forall_mem_cons.mp h
      have hrest := reads_pairs n (by simpa using hn) hparams
      rw [List.flatMap_cons, List.append_assoc, List.append_assoc]
      refine (reads_string hname).bind ?_
      rw [if_neg hne]
      exact (reads_string hvalue).bind hrest.bind_pure

theorem length_le_pairs : ∀ params : List (Bytes × Bytes),
    params.length ≤ (params.flatMap fun p => encString p.1 ++ encString p.2).length
  | [] => by simp
  | p :: params => by
      have ih := length_le_pairs params
      have hname : (encString p.1).length = p.1.length + 1 := by simp [encString]
      simp only [List.flatMap_cons, List.length_append, List.length_cons, hname]
      omega

section
variable {user : Bytes} {database : Option Bytes} {params : List (Bytes × Bytes)}

theorem lastValue_user (h : ∀ param ∈ params, ¬Reserved param.1) :
    lastValue (ascii "user") (startupParams user database params) = some user := by
  have hparams : params.filter (·.1 = ascii "user") = [] :=
    List.filter_eq_nil_iff.mpr fun p hp heq => h p hp (.inl (of_decide_eq_true heq))
  have hdatabase : (ascii "database" = ascii "user") = False := by decide
  unfold lastValue startupParams
  cases database <;> simp [hparams, hdatabase]

theorem lastValue_database (h : ∀ param ∈ params, ¬Reserved param.1) :
    lastValue (ascii "database") (startupParams user database params) = database := by
  have hparams : params.filter (·.1 = ascii "database") = [] :=
    List.filter_eq_nil_iff.mpr fun p hp heq => h p hp (.inr (of_decide_eq_true heq))
  have huser : (ascii "user" = ascii "database") = False := by decide
  unfold lastValue startupParams
  cases database <;> simp [hparams, huser]

theorem otherParams_startupParams (h : ∀ param ∈ params, ¬Reserved param.1) :
    otherParams (startupParams user database params) = params := by
  have huser : Reserved (ascii "user") := .inl rfl
  have hdatabase : Reserved (ascii "database") := .inr rfl
  have hparams : ∀ name value, (name, value) ∈ params → ¬Reserved name := fun _ _ hp => h _ hp
  unfold otherParams startupParams
  cases database <;> simpa [huser, hdatabase] using hparams

/-- **A startup message is read as the fields it was made of**, if these are clean. -/
theorem reads_startup (h : (Content.startup 196608 user database params).Clean) :
    Reads decodeStartup (FrontendMessage.startupMessage user database params).body
      (.startup 196608 user database params) := by
  obtain ⟨huser, hdatabase, hparams⟩ := h
  have hother : ∀ param ∈ params, ¬Reserved param.1 := fun p hp => (hparams p hp).not_reserved
  have hbody : (FrontendMessage.startupMessage user database params).body =
      BigEndian.ofInt 4 196608 ++ (((startupParams user database params).flatMap fun p =>
        encString p.1 ++ encString p.2) ++ [0]) := by
    simp only [FrontendMessage.body, FrontendMessage.layout, List.cons_append, List.flatMap_cons,
      List.flatMap_append, List.flatMap_assoc, List.flatMap_nil, List.append_nil, WireField.enc]
  have hpairs : ∀ pair ∈ startupParams user database params,
      pair.1 ≠ [] ∧ 0 ∉ pair.1 ∧ 0 ∉ pair.2 := by
    intro pair hpair
    unfold startupParams at hpair
    rcases List.mem_append.mp hpair with hpair | hpair
    · rcases List.mem_cons.mp hpair with rfl | hpair
      · exact ⟨(by decide : ascii "user" ≠ []), (by decide : 0 ∉ ascii "user"), huser⟩
      · obtain ⟨name, hname, rfl⟩ := List.mem_map.mp hpair
        exact ⟨(by decide : ascii "database" ≠ []), (by decide : 0 ∉ ascii "database"),
          hdatabase name (Option.mem_toList.mp hname)⟩
    · exact ⟨(hparams pair hpair).ne_nil, (hparams pair hpair).name, (hparams pair hpair).value⟩
  have hread : Reads decodeStartupParams
      (((startupParams user database params).flatMap fun p => encString p.1 ++ encString p.2) ++
        [0]) (startupParams user database params) := by
    intro rest
    refine reads_pairs _ ?_ hpairs rest
    have hlength := length_le_pairs (startupParams user database params)
    simp only [List.length_append, List.length_singleton]
    omega
  rw [hbody]
  refine (reads_int (z := 196608) (by decide)).bind (hread.bind_nil ?_)
  rw [lastValue_user hother, lastValue_database hother, otherParams_startupParams hother]
  exact reads_pure _

end

namespace FrontendMessage

theorem reads_bind {msg : Bind} (h : rejected (.bind msg) = false)
    (hportal : 0 ∉ msg.portalName) (hstatement : 0 ∉ msg.statementName) :
    Reads (decodeBody 'B') (body (.bind msg)) (.bind msg.portalName msg.statementName
      (msg.parameterFmtCodes.codes.map FormatCode.value) (msg.parametersFn.values.map some)
      (msg.resultFmtCodes.codes.map FormatCode.value)) := by
  simp only [rejected, Bool.or_eq_false_iff] at h
  obtain ⟨⟨hparamCodes, ⟨-, hlong⟩, hparams⟩, hresultCodes⟩ := h
  have hbody : body (.bind msg) = encString msg.portalName ++ (encString msg.statementName ++
      ((codesLayout msg.parameterFmtCodes.codes).flatMap WireField.enc ++
        ((paramsLayout msg.parametersFn.values).flatMap WireField.enc ++
          (codesLayout msg.resultFmtCodes.codes).flatMap WireField.enc))) := by
    simp only [body, layout, List.flatMap_append, List.flatMap_cons, List.flatMap_nil,
      List.append_nil, List.append_assoc, WireField.enc]
  rw [hbody]
  refine (reads_string hportal).bind ((reads_string hstatement).bind ?_)
  exact (reads_codes hparamCodes).bind ((reads_params hparams hlong).bind
    (reads_codes hresultCodes).bind_pure)

theorem reads_parse {name text : Bytes} {oids : List Int32}
    (h : rejected (.parse name text oids) = false) (hname : 0 ∉ name) (htext : 0 ∉ text) :
    Reads (decodeBody 'P') (body (.parse name text oids))
      (.parse name text (oids.map Int32.toInt)) := by
  have hcount : oids.length ≤ int16Max := by simpa [rejected, tooMany] using h
  have hbody : body (.parse name text oids) = encString name ++ (encString text ++
      (BigEndian.ofInt 2 (oids.map Int32.toInt).length ++
        (oids.map Int32.toInt).flatMap (BigEndian.ofInt 4))) := by
    simp only [body, layout, List.flatMap_append, List.flatMap_cons, List.flatMap_nil,
      List.append_nil, List.append_assoc, WireField.enc, List.flatMap_map, List.length_map]
  have hlength : BigEndian.Fits 2 (oids.map Int32.toInt).length := by
    rw [List.length_map]
    exact fits_of_le_int16Max hcount
  have hitems : ∀ z ∈ oids.map Int32.toInt, Reads (int 4) (BigEndian.ofInt 4 z) z := by
    intro z hz
    obtain ⟨oid, -, rfl⟩ := List.mem_map.mp hz
    exact reads_int (fits_toInt32 oid)
  rw [hbody]
  refine (reads_string hname).bind ((reads_string htext).bind ?_)
  exact (reads_counted hlength hitems).bind_pure

/-- **A body is read as the fields it was made of**, if these are clean. -/
theorem reads_body {m : FrontendMessage} {c : Content} {t : Char} (hcontent : m.content = some c)
    (htype : m.type = some t) (h : m.rejected = false) (hclean : c.Clean) :
    Reads (decodeBody t) m.body c := by
  cases m with
  | bind msg =>
    cases hcontent
    cases htype
    exact reads_bind h hclean.1 hclean.2
  | parse name text oids =>
    cases hcontent
    cases htype
    exact reads_parse h hclean.1 hclean.2
  | describe type name | close type name =>
    cases hcontent
    cases htype
    have hbody : [WireField.byte type.byte, .string name].flatMap WireField.enc =
        [type.byte] ++ encString name := by
      simp [WireField.enc]
    unfold body layout
    rw [hbody]
    exact (reads_byte _).bind (reads_string hclean).bind_pure
  | execute name rows =>
    cases hcontent
    cases htype
    have hbody : body (.execute name rows) = encString name ++ BigEndian.ofInt 4 rows.toInt := by
      simp [body, layout, WireField.enc]
    rw [hbody]
    exact (reads_string hclean).bind (reads_int (fits_toInt32 rows)).bind_pure
  | copyFail text | password text | query text =>
    cases hcontent
    cases htype
    have hbody : [WireField.string text].flatMap WireField.enc = encString text := by
      simp [WireField.enc]
    unfold body layout
    rw [hbody]
    exact (reads_string hclean).bind_pure
  | startupMessage user database params => cases htype
  | copyDone | flush | sync | terminate | cancelRequest | sslRequest | clientFirst => cases hcontent

end FrontendMessage

/-! ## 5. Frames -/

theorem decodeSized_of_fits (d : Decoder Content) {body : Bytes} (h : body.length + 4 ≤ int32Max) :
    decodeSized d (storeBigS32 (body.length + 4) ++ body) = whole d body := by
  have hlength := length_storeBigS32 (body.length + 4)
  have hvalue : BigEndian.toInt (storeBigS32 (body.length + 4)) = (body.length + 4 : Nat) := by
    rw [storeBigS32_eq h]
    exact BigEndian.toInt_ofInt (fits_of_le_int32Max h)
  unfold decodeSized
  rw [List.take_left' hlength, List.drop_left' hlength, hvalue, List.length_append, hlength]
  rw [if_pos ⟨by omega, by omega⟩]

/-- A length that was left zero is not that of the frame. -/
theorem decodeSized_zero (d : Decoder Content) (body : Bytes) :
    decodeSized d ([0, 0, 0, 0] ++ body) = none := by
  have hlength : ([0, 0, 0, 0] : Bytes).length = 4 := rfl
  have hvalue : BigEndian.toInt [0, 0, 0, 0] = 0 := by decide
  unfold decodeSized
  rw [List.take_left' hlength, hvalue, List.length_append, hlength, if_neg (by omega)]

namespace FrontendMessage

theorem ofNat_type {m : FrontendMessage} {t : Char} (h : m.type = some t) :
    Char.ofNat t.toNat.toUInt8.toNat = t := by
  cases m <;> cases h <;> rfl

theorem decode_typed {m : FrontendMessage} {t : Char} (h : m.type = some t) (rest : Bytes) :
    decode false (t.toNat.toUInt8 :: rest) = decodeSized (decodeBody t) rest := by
  have hdecode : decode false (t.toNat.toUInt8 :: rest) =
      decodeSized (decodeBody (Char.ofNat t.toNat.toUInt8.toNat)) rest := rfl
  rw [hdecode, ofNat_type h]

theorem startup_of_type_none {m : FrontendMessage} {c : Content} (hcontent : m.content = some c)
    (htype : m.type = none) :
    ∃ user database params, m = .startupMessage user database params ∧
      c = .startup 196608 user database params := by
  cases m with
  | startupMessage user database params =>
    cases hcontent
    exact ⟨user, database, params, rfl, rfl⟩
  | cancelRequest | sslRequest => cases hcontent
  | _ => cases htype

/-- **What is read off a message as the code writes it.** -/
theorem decode_emitted_iff {m : FrontendMessage} {c : Content} (hcontent : m.content = some c)
    (h : m.rejected = false) :
    decode m.type.isNone m.emitted = some c ↔ m.body.length + 4 ≤ int32Max ∧ c.Clean := by
  unfold emitted
  cases htype : m.type with
  | none =>
    obtain ⟨user, database, params, rfl, rfl⟩ := startup_of_type_none hcontent htype
    have hfit : (body (.startupMessage user database params)).length + 4 ≤ int32Max := by
      simpa [rejected] using h
    have hdecode : decode true (storeBigS32 ((body (.startupMessage user database params)).length + 4)
        ++ body (.startupMessage user database params)) =
        whole decodeStartup (body (.startupMessage user database params)) :=
      decodeSized_of_fits decodeStartup hfit
    rw [Option.isNone_none, Option.elim_none, hdecode]
    constructor
    · intro hread
      exact ⟨hfit, ensures_startup.of_whole hread⟩
    · rintro ⟨-, hclean⟩
      exact whole_of_reads (reads_startup hclean)
  | some t =>
    rw [Option.isNone_some, Option.elim_some]
    by_cases hfit : m.body.length + 4 ≤ int32Max
    · have hdecode : decode false (finalizeMessage t m.body) = whole (decodeBody t) m.body := by
        rw [finalizeMessage, if_neg (by omega), List.cons_append, decode_typed htype,
          decodeSized_of_fits _ hfit]
      rw [hdecode]
      constructor
      · intro hread
        exact ⟨hfit, (ensures_body t).of_whole hread⟩
      · rintro ⟨-, hclean⟩
        exact whole_of_reads (reads_body hcontent htype h hclean)
    · have hdecode : decode false (finalizeMessage t m.body) = none := by
        rw [finalizeMessage, if_pos (by omega), List.cons_append, decode_typed htype,
          decodeSized_zero]
      rw [hdecode]
      exact iff_of_false (Option.some_ne_none c).symm fun hcond => hfit hcond.1

/-! ## 6. Recovering the fields -/

/-- What is asked of `serialize`: it reports an error, or the fields of the message are read off what
    it has appended. -/
def Recovers (m : FrontendMessage) (out : Bytes) : Prop :=
  ∃ ec buffer, m.serialize out = .ok (ec, buffer) ∧
    (ec.failed = true ∨ ∃ frame content, buffer = out ++ frame ∧ m.content = some content ∧
      decode m.type.isNone frame = some content)

theorem recovers_iff_of_run {m : FrontendMessage} {out buffer : Bytes} {ec : ErrorCode}
    (h : m.serialize out = .ok (ec, buffer)) :
    m.Recovers out ↔ ec.failed = true ∨ ∃ frame content, buffer = out ++ frame ∧
      m.content = some content ∧ decode m.type.isNone frame = some content := by
  constructor
  · rintro ⟨ec', buffer', hrun, hcond⟩
    rw [h] at hrun
    cases hrun
    exact hcond
  · intro hcond
    exact ⟨ec, buffer, h, hcond⟩

/-- **When the fields of a message are recovered or an error is reported**, for every message with
    strings and whatever is in the buffer: the message is rejected, or its length fits, no string has
    a NUL in it, and no further startup parameter has an empty name or that of the user or of the
    database. -/
theorem serialize_recovers_iff {m : FrontendMessage} {c : Content} (out : Bytes)
    (hcontent : m.content = some c) :
    m.Recovers out ↔
      m.rejected = true ∨ (m.body.length + 4 ≤ int32Max ∧ c.Clean) := by
  obtain ⟨ec, buffer, hrun, hec, hbuffer⟩ := serialize_spec m out
    (by rintro rfl; cases hcontent) (by rintro _ _ rfl; cases hcontent)
  rw [recovers_iff_of_run hrun, hec]
  by_cases hrejected : m.rejected = true
  · exact iff_of_true (.inl hrejected) (.inl hrejected)
  · have hgood : m.rejected = false := by simpa using hrejected
    rw [← decode_emitted_iff hcontent hgood, hbuffer hgood]
    constructor
    · rintro (hbad | ⟨frame, c', hframe, hcontent', hdecode⟩)
      · exact absurd hbad hrejected
      · rw [← List.append_cancel_left hframe, ← hcontent', hcontent] at hdecode
        exact .inr hdecode
    · rintro (hbad | hdecode)
      · exact absurd hbad hrejected
      · exact .inr ⟨_, c, rfl, hcontent, hdecode⟩

/-- A startup message with all its fields. -/
def sampleStartup : FrontendMessage :=
  startupMessage (ascii "alice") (some (ascii "shop")) [(ascii "application_name", ascii "till")]

/-- Its fields, each in its place. -/
def sampleFields : Content :=
  .startup 196608 (ascii "alice") (some (ascii "shop")) [(ascii "application_name", ascii "till")]

/-- A query behind a sync, and a startup message. -/
theorem serialize_recovers_iff_query :
    (query (ascii "SELECT 1")).Recovers [83, 0, 0, 0, 4] ∧
      sampleStartup.content = some sampleFields ∧ sampleStartup.Recovers [] :=
  ⟨(serialize_recovers_iff (c := .query (ascii "SELECT 1")) [83, 0, 0, 0, 4] rfl).mpr
    (.inr ⟨by decide, (by decide : (0 : UInt8) ∉ ascii "SELECT 1")⟩), rfl,
    (serialize_recovers_iff (c := sampleFields) [] rfl).mpr (.inr ⟨by decide, by decide⟩)⟩

/-- A message whose frame is read as other fields. -/
theorem not_recovers_of_decode {m : FrontendMessage} {read : Option Content} (frame : Bytes)
    (hrun : m.serialize [] = .ok (.success, frame)) (hdecode : decode m.type.isNone frame = read)
    (hne : read ≠ m.content) : ¬m.Recovers [] := by
  rw [recovers_iff_of_run hrun]
  rintro (hfailed | ⟨frame', c, hframe, hcontent, hread⟩)
  · cases hfailed
  · rw [List.nil_append] at hframe
    rw [← hframe, hdecode] at hread
    exact hne (hread.trans hcontent.symm)

/-- A user name that goes on with a database. -/
def injectedUser : Bytes := ascii "u" ++ [0] ++ ascii "database" ++ [0] ++ ascii "d"

/-- User `u` and database `d`, as they are meant to be written. -/
def namedDatabase : FrontendMessage := startupMessage (ascii "u") (some (ascii "d")) []

/-- **A user name with a NUL in it is read as a user name and a database**, and a query with one is
    not read at all. A parameter with the name of the database is read as the database, and one with
    the name of the user as the user. -/
theorem injected_not_recovered :
    (startupMessage injectedUser none []).serialize [] = namedDatabase.serialize [] ∧
    ¬(startupMessage injectedUser none []).Recovers [] ∧
    ¬(query [97, 0, 98]).Recovers [] ∧
    (startupMessage (ascii "u") none [(ascii "database", ascii "d")]).serialize [] =
      namedDatabase.serialize [] ∧
    ¬(startupMessage (ascii "u") none [(ascii "database", ascii "d")]).Recovers [] ∧
    ¬(startupMessage (ascii "alice") none [(ascii "user", ascii "postgres")]).Recovers [] := by
  have hnamed : decode true namedDatabase.emitted = namedDatabase.content := by decide
  have hpostgres : decode true
      (startupMessage (ascii "alice") none [(ascii "user", ascii "postgres")]).emitted =
      (startupMessage (ascii "postgres") none []).content := by decide
  refine ⟨by decide, ?_, ?_, by decide, ?_, ?_⟩
  · exact not_recovers_of_decode namedDatabase.emitted (by decide) hnamed (by decide)
  · exact not_recovers_of_decode [81, 0, 0, 0, 8, 97, 0, 98, 0] (by decide)
      (show decode false _ = none by decide) (by decide)
  · exact not_recovers_of_decode namedDatabase.emitted (by decide) hnamed (by decide)
  · exact not_recovers_of_decode _ (by decide) hpostgres (by decide)

end FrontendMessage

end NativePg
