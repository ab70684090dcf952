/-
  File:      NativePg/Responses/Errors.lean
  Subject:   Which error a response reports.

  * `Stems`, `feed_stems` -- what is reported comes from the messages of the server; parsed messages
    are `Readable`;
  * `computePosMap_complete` -- a column map without an error finds every member in a row that has
    the columns of the description;
  * `Handler.raises` -- the error a message raises in a handler, by what the handler has got before.
    `Tracked`: what the handler is left with;
  * `FirstRaised` -- the first error raised by some calls;
  * **`result_first_raised`** -- whatever the server sends, `result()` is that error.
-/
import NativePg.Protocol.Encoding
import NativePg.Responses.Steps
import NativePg.Responses.Turns

namespace NativePg

namespace Responses

open ReadResponseFsm

/-! ## 1. What is reported comes from the server -/

/-- The data of a reported message, if it has any, is that of a message of the server, or the empty
    description. -/
def Stems (msgs : List AnyBackendMessage) : AnyRequestMessage → Prop
  | .rowDescription d => d = {} ∨ .rowDescription d ∈ msgs
  | .dataRow d => .dataRow d ∈ msgs
  | .errorResponse e => .errorResponse e ∈ msgs
  | _ => True

theorem Stems.mono {msgs msgs' : List AnyBackendMessage} (hsub : msgs ⊆ msgs') {x : AnyRequestMessage}
    (h : Stems msgs x) : Stems msgs' x := by
  cases x with
  | rowDescription d => exact h.imp id fun hd => hsub hd
  | dataRow _ | errorResponse _ => exact hsub h
  | _ => trivial

theorem stays_stems {c : Bool} {m : RequestMessageType} {s s' : ReadResponse.State}
    {msg : AnyBackendMessage} {cs : List AnyRequestMessage} (h : Stays c m s msg s' cs) :
    ∀ x ∈ cs, Stems [msg] x := by
  cases h <;> simp [Stems]

theorem finishes_stems {m : RequestMessageType} {s : ReadResponse.State} {msg : AnyBackendMessage}
    {cs : List AnyRequestMessage} (h : Finishes m s msg cs) : ∀ x ∈ cs, Stems [msg] x := by
  cases h <;> simp [Stems]

theorem skippedCalls_stems (msgs : List AnyBackendMessage) : ∀ (ms : List RequestMessageType) (i : Nat),
    ∀ call ∈ skippedCalls ms i, Stems msgs call.msg
  | [], _ => by simp [skippedCalls]
  | m :: ms, i => by
      have ih := skippedCalls_stems msgs ms (i + 1)
      cases m with
      | flush => exact ih
      | _ => exact List.forall_mem_cons.mpr ⟨trivial, ih⟩

theorem move_stems {f : ReadResponseFsm} {msg : AnyBackendMessage} {r : Reply} (h : f.Move msg r) :
    ∀ call ∈ r.calls, Stems [msg] call.msg := by
  cases h with
  | async _ | reject _ _ => simp
  | stay _ h => exact List.forall_mem_map.mpr (stays_stems h)
  | finish _ h => exact List.forall_mem_map.mpr (finishes_stems h)
  | error e hmsg _ _ _ _ =>
    subst hmsg
    exact List.forall_mem_cons.mpr ⟨by simp [Stems], skippedCalls_stems _ _ _⟩

theorem feed_stems {f : ReadResponseFsm} (hf : f.Wf) {msgs : List AnyBackendMessage} {run : Run}
    (hrun : f.feed msgs = .ok run) : ∀ call ∈ run.calls, Stems msgs call.msg := by
  refine feed_rec_of (P := fun _ msgs run => ∀ call ∈ run.calls, Stems msgs call.msg) ?_ ?_ ?_ hf hrun
  · simp
  · intro f msg msgs r ec _ hmove _ call hcall
    exact (move_stems hmove call hcall).mono (by simp)
  · intro f msg msgs r t _ hmove _ _ ih call hcall
    rcases List.mem_append.mp hcall with hcall | hcall
    · exact (move_stems hmove call hcall).mono (by simp)
    · exact (ih call hcall).mono (by simp)

/-- `parse_any_message` has returned this message. -/
def Parsed (msg : AnyBackendMessage) : Prop := ∃ t body, parseAnyMessage t body = .ok msg

/-- The views of a message can be walked through. -/
def Readable : AnyRequestMessage → Prop
  | .rowDescription d => ∃ fields, walk d.fieldDescriptions fieldDescriptionTraits = .ok fields
  | .dataRow d => ∃ data, walk d.columns fieldViewTraits = .ok data
  | _ => True

theorem walk_of_items {α : Type} {v : ForwardParsingView} {t : ItemTraits α} {items : List α}
    (h : v.items? t = .ok (some items)) : walk v t = .ok items := by
  unfold walk
  rw [h]

/-- **What is reported of parsed messages is readable.** -/
theorem Stems.readable {msgs : List AnyBackendMessage} (hparsed : ∀ msg ∈ msgs, Parsed msg)
    {x : AnyRequestMessage} (h : Stems msgs x) : Readable x := by
  cases x with
  | rowDescription d =>
    rcases h with rfl | h
    · exact ⟨[], rfl⟩
    · obtain ⟨t, body, hparse⟩ := hparsed _ h
      obtain ⟨m, hwf, -, -, -, hm⟩ := enc_of_parse hparse rfl
      cases m with
      | rowDescription fields =>
        cases hm
        exact ⟨fields, walk_of_items (items?_flatMap fieldDescriptionTraits_encodes hwf.fields)⟩
      | _ => cases hm
  | dataRow d =>
    obtain ⟨t, body, hparse⟩ := hparsed _ h
    obtain ⟨m, hwf, -, -, -, hm⟩ := enc_of_parse hparse rfl
    cases m with
    | dataRow columns =>
      cases hm
      exact ⟨columns, walk_of_items (items?_flatMap fieldViewTraits_encodes hwf.columns)⟩
    | _ => cases hm
  | _ => trivial

/-! ## 2. Column maps -/

/-- An entry of a column map that is unset, or that is the index of one of `n` columns. -/
def PosMapEntry.Inside (n : Nat) (ent : PosMapEntry) : Prop := ∀ i ∈ ent.dbIndex, i < n

theorem mapField_inside {n : Nat} {names : List Bytes} {output : List PosMapEntry}
    (h : ∀ ent ∈ output, ent.Inside n) {field : FieldDescription × Nat} (hfield : field.2 < n) :
    ∀ ent ∈ mapField names output field, ent.Inside n := by
  unfold mapField
  cases names.findIdx? (· = field.1.name) with
  | none => exact h
  | some k =>
    intro ent hent
    rcases List.mem_or_eq_of_mem_set hent with hent | rfl
    · exact h ent hent
    · intro i hi
      cases hi
      exact hfield

theorem foldl_mapField_inside {n : Nat} {names : List Bytes} :
    ∀ (fields : List (FieldDescription × Nat)) (output : List PosMapEntry),
      (∀ field ∈ fields, field.2 < n) → (∀ ent ∈ output, ent.Inside n) →
      ∀ ent ∈ fields.foldl (mapField names) output, ent.Inside n
  | [], _, _, h => h
  | field :: fields, output, hfields, h => by
      obtain ⟨hfield, hfields⟩ := List.forall_mem_cons.mp hfields
      exact foldl_mapField_inside fields _ hfields (mapField_inside h hfield)

/-- **A map without an error has a column for every member.** -/
theorem computePosMap_complete {fields : List FieldDescription} {names : List Bytes}
    (h : (computePosMap fields names).1.failed = false) :
    ∀ ent ∈ (computePosMap fields names).2, ∃ i, ent.dbIndex = some i ∧ i < fields.length := by
  intro ent hent
  have hinside : ent.Inside fields.length := by
    refine foldl_mapField_inside _ _ ?_ ?_ ent hent
    · intro field hfield
      have := List.mem_zipIdx hfield
      omega
    · intro ent hent
      obtain ⟨_, -, rfl⟩ := List.mem_map.mp hent
      intro i hi
      cases hi
  cases hindex : ent.dbIndex with
  | some i => exact ⟨i, rfl, hinside i hindex⟩
  | none =>
    -- then the map would have an error
    have hany : (computePosMap fields names).2.any (·.dbIndex.isNone) = true :=
      List.any_eq_true.mpr ⟨ent, hent, by rw [hindex]; rfl⟩
    have hcode : (computePosMap fields names).1 = ClientErrc.fieldNotFound.code := if_pos hany
    rw [hcode, ClientErrc.failed_code] at h
    cases h

theorem mapM_eq_ok {α β : Type} {f : α → Attempt β} : ∀ {l : List α},
    (∀ a ∈ l, ∃ b, f a = .ok b) → ∃ bs, l.mapM f = .ok bs
  | [], _ => ⟨[], rfl⟩
  | a :: l, h => by
      obtain ⟨⟨b, hb⟩, hl⟩ := List.forall_mem_cons.mp h
      obtain ⟨bs, hbs⟩ := mapM_eq_ok hl
      refine ⟨b :: bs, ?_⟩
      rw [List.mapM_cons, hb, hbs]
      rfl

section
variable {V : Type}

/-- **A row with as many columns as the description is parsed**; the members may still fail. -/
theorem parseRow_ok {members : List (Member V)} {fields : List FieldDescription}
    (hmap : (computePosMap fields (members.map (·.name))).1.failed = false)
    {data : List (Option Bytes)} (hlength : data.length = fields.length) :
    ∃ row, ResultsetCallback.parseRow data members
      (computePosMap fields (members.map (·.name))).2 = .ok row := by
  refine mapM_eq_ok fun p hp => ?_
  obtain ⟨i, hi, hlt⟩ := computePosMap_complete hmap p.2 (List.of_mem_zip hp).2
  have hget : data[i]? = some data[i] := List.getElem?_eq_getElem (by omega)
  simp only [ResultsetCallback.parseMember, hi, Option.bind_some, hget]
  exact ⟨_, rfl⟩

end

/-! ## 3. What a message raises -/

/-- The last description that was reported. -/
def lastDescription (msgs : List AnyRequestMessage) : Option RowDescription :=
  msgs.foldl (fun last msg => match msg with | .rowDescription d => some d | _ => last) none

theorem lastDescription_append (xs ys : List AnyRequestMessage) :
    lastDescription (xs ++ ys) = (lastDescription ys).or (lastDescription xs) := by
  induction ys using List.reverseRecOn with
  | nil => simp [lastDescription]
  | append_singleton ys y ih =>
    have hsnoc : ∀ zs : List AnyRequestMessage, lastDescription (zs ++ [y]) =
        match y with
        | .rowDescription d => some d
        | _ => lastDescription zs := fun zs => by simp [lastDescription]
    rw [← List.append_assoc, hsnoc, hsnoc, ih]
    cases y <;> rfl

theorem lastDescription_of_suffix {xs ys : List AnyRequestMessage} (h : ys <:+ xs) {d : RowDescription}
    (hd : lastDescription ys = some d) : lastDescription xs = some d := by
  obtain ⟨zs, rfl⟩ := h
  rw [lastDescription_append, hd]
  rfl

theorem exists_lastDescription {xs : List AnyRequestMessage} {x : AnyRequestMessage} (hx : x ∈ xs)
    (hd : isDescription x = true) : ∃ d, lastDescription xs = some d := by
  obtain ⟨pre, post, rfl⟩ := List.append_of_mem hx
  cases x with
  | rowDescription d =>
    have hone : lastDescription (.rowDescription d :: post) =
        (lastDescription post).or (some d) := lastDescription_append [_] post
    rw [lastDescription_append, hone]
    cases lastDescription post <;> exact ⟨_, rfl⟩
  | _ => cases hd

section
variable {V : Type}

/-- A description: a member without a column, or with a column of another type. -/
def descriptionRaises (members : List (Member V)) (d : RowDescription) : Option ExtendedError :=
  match walk d.fieldDescriptions fieldDescriptionTraits with
  | .ok fields => ofCode (ResultsetCallback.descriptionError members fields)
  | .error _ => none

/-- A row, behind the description `last`: a field that fails to parse. -/
def rowRaises (members : List (Member V)) (last : RowDescription) (d : DataRow) :
    Option ExtendedError :=
  match walk last.fieldDescriptions fieldDescriptionTraits, walk d.columns fieldViewTraits with
  | .ok fields, .ok data =>
    match ResultsetCallback.parseRow data members
        (computePosMap fields (members.map (·.name))).2 with
    | .ok row => ofCode (firstError (row.map (·.1)))
    | .error _ => none
  | _, _ => none

/-- **The error `msg` raises in a handler that has got `seen` before.** -/
def Handler.raises (h : Handler V) (seen : List AnyRequestMessage) (msg : AnyRequestMessage) :
    Option ExtendedError :=
  match msg, h with
  | .errorResponse e, _ => some (storeError e)
  | .rowDescription d, .resultsetCallback h => descriptionRaises h.members d
  | .dataRow d, .resultsetCallback h => (lastDescription seen).bind (rowRaises h.members · d)
  | .messageSkipped, .resultsetCallback _ => ofCode ClientErrc.stepSkipped.code
  | .emptyQueryResponse, .resultsetCallback _ | .closeComplete, .resultsetCallback _
  | .parameterDescription _, .resultsetCallback _ =>
    ofCode ClientErrc.incompatibleResponseType.code
  | _, _ => none

/-- An ErrorResponse is an error, unless its SQLSTATE is 00000. -/
def Fails (msg : AnyRequestMessage) : Prop :=
  ∀ e, msg = .errorResponse e → e.sqlstate ≠ some successfulCompletion

theorem failed_storeError {e : ErrorResponse} (h : e.sqlstate ≠ some successfulCompletion) :
    (storeError e).code.failed = true := by
  by_contra hfailed
  have hcode : processError e = (storeError e).code := rfl
  exact h ((failed_processError e).mp (by rw [hcode]; simpa using hfailed))

/-- What is raised is an error. -/
theorem Handler.failed_raises {h : Handler V} {seen : List AnyRequestMessage}
    {msg : AnyRequestMessage} (hfails : Fails msg) {e : ExtendedError}
    (hraises : h.raises seen msg = some e) : e.code.failed = true := by
  cases msg with
  | errorResponse err =>
    cases hraises
    exact failed_storeError (hfails err rfl)
  | rowDescription d =>
    cases h with
    | resultsetCallback h =>
      simp only [raises, descriptionRaises] at hraises
      cases hwalk : walk d.fieldDescriptions fieldDescriptionTraits with
      | ok fields =>
        rw [hwalk] at hraises
        exact failed_ofCode hraises
      | error _ =>
        rw [hwalk] at hraises
        cases hraises
    | _ => cases hraises
  | dataRow d =>
    cases h with
    | resultsetCallback h =>
      obtain ⟨last, -, hrow⟩ := Option.bind_eq_some_iff.mp hraises
      unfold rowRaises at hrow
      split at hrow
      · split at hrow
        · exact failed_ofCode hrow
        · cases hrow
      · cases hrow
    | _ => cases hraises
  | messageSkipped | emptyQueryResponse | closeComplete | parameterDescription _ =>
    cases h with
    | resultsetCallback h => exact failed_ofCode hraises
    | _ => cases hraises
  | _ => cases hraises

theorem Handler.raises_constructed (h : Handler V) (seen : List AnyRequestMessage)
    (msg : AnyRequestMessage) : h.constructed.raises seen msg = h.raises seen msg := by
  cases h <;> cases msg <;> rfl

/-! ## 4. What a handler is left with -/

theorem failed_keepFirst {err : ExtendedError} {o : Option ExtendedError}
    (h : (keepFirst err o).code.failed = false) :
    err.code.failed = false ∧ ∀ e ∈ o, e.code.failed = false := by
  cases o with
  | none => exact ⟨h, nofun⟩
  | some e =>
    have h : (if err.code.failed then err else e).code.failed = false := h
    cases herr : err.code.failed with
    | true =>
      rw [if_pos herr, herr] at h
      cases h
    | false =>
      rw [herr] at h
      refine ⟨rfl, fun x hx => ?_⟩
      cases hx
      exact h

theorem ofCode_of_failed {ec : ErrorCode} (h : ∀ e ∈ ofCode ec, e.code.failed = false) :
    ec.failed = false := by
  by_contra hec
  have hec : ec.failed = true := by simpa using hec
  have := h { code := ec } (by rw [ofCode, if_pos hec]; rfl)
  rw [hec] at this
  cases this

namespace ResultsetCallback

/-- A callback without an error: nothing it got was one, and its map is that of the last
    description, with a column for every member. -/
structure Mapped (seen : List AnyRequestMessage) (h : ResultsetCallback V) : Prop where
  clean : ∀ x ∈ seen, isSettled x = true → isDescription x = true
  map : ∀ d, lastDescription seen = some d → ∃ fields,
    walk d.fieldDescriptions fieldDescriptionTraits = .ok fields ∧
    h.posMap = some (computePosMap fields (h.members.map (·.name))).2 ∧
    (computePosMap fields (h.members.map (·.name))).1.failed = false

/-- A message without a description in it, and without a change to the map. -/
theorem Mapped.append {seen : List AnyRequestMessage} {h h' : ResultsetCallback V}
    (hm : h.Mapped seen) {msg : AnyRequestMessage} (hmsg : isSettled msg = false)
    (hmembers : h'.members = h.members) (hmap : h'.posMap = h.posMap) : h'.Mapped (seen ++ [msg]) where
  clean := by
    intro x hx hset
    rcases List.mem_append.mp hx with hx | hx
    · exact hm.clean x hx hset
    · obtain rfl := List.mem_singleton.mp hx
      rw [hmsg] at hset
      cases hset
  map d hd := by
    rw [hmembers, hmap]
    refine hm.map d ?_
    rw [lastDescription_append] at hd
    cases msg with
    | rowDescription d => cases hmsg
    | _ => exact hd

/-- What a description without an error means. -/
theorem failed_descriptionError {members : List (Member V)} {fields : List FieldDescription}
    (h : (descriptionError members fields).failed = false) :
    (computePosMap fields (members.map (·.name))).1.failed = false := by
  unfold descriptionError at h
  cases hmap : (computePosMap fields (members.map (·.name))).1.failed with
  | false => rfl
  | true =>
    simp only [hmap, if_true] at h
    cases h

/-- **A message keeps the map right.** -/
theorem Left.mapped {h h' : ResultsetCallback V} {msg : AnyRequestMessage} (hleft : h.Left msg h')
    (hfails : Fails msg) {seen : List AnyRequestMessage}
    (hm : h.err.code.failed = false → h.Mapped seen) (herr : h'.err.code.failed = false) :
    h'.Mapped (seen ++ [msg]) := by
  cases hleft with
  | error e =>
    have := (failed_keepFirst herr).2 _ rfl
    rw [failed_storeError (hfails e rfl)] at this
    cases this
  | parseComplete | bindComplete | complete _ | suspended => exact (hm herr).append rfl rfl rfl
  | dropped d hfailed =>
    rw [hfailed] at herr
    cases herr
  | row hfailed _ _ _ => exact (hm hfailed).append rfl rfl rfl
  | skipped | unexpected _ =>
    have := ofCode_of_failed (failed_keepFirst herr).2
    rw [ClientErrc.failed_code] at this
    cases this
  | @description d fields hwalk =>
    obtain ⟨hold, hnew⟩ := failed_keepFirst herr
    refine ⟨fun x hx hset => ?_, fun d' hd' => ?_⟩
    · rcases List.mem_append.mp hx with hx | hx
      · exact (hm hold).clean x hx hset
      · obtain rfl := List.mem_singleton.mp hx
        rfl
    · rw [lastDescription_append] at hd'
      cases hd'
      exact ⟨fields, hwalk, rfl, failed_descriptionError (ofCode_of_failed hnew)⟩

/-- A row comes behind a description, when there is no error. -/
theorem Mapped.described {seen : List AnyRequestMessage} {h : ResultsetCallback V}
    (hm : h.Mapped seen) (hsettled : ∃ x ∈ seen, isSettled x = true) :
    ∃ d, lastDescription seen = some d := by
  obtain ⟨x, hx, hset⟩ := hsettled
  exact exists_lastDescription hx (hm.clean x hx hset)

/-- **The error of a callback is the first that was raised.** -/
theorem Left.err {h h' : ResultsetCallback V} {msg : AnyRequestMessage} (hleft : h.Left msg h')
    {seen : List AnyRequestMessage} (hm : h.err.code.failed = false → h.Mapped seen)
    (hsettled : ∀ d, msg = .dataRow d → ∃ x ∈ seen, isSettled x = true) :
    h'.err = keepFirst h.err ((Handler.resultsetCallback h).raises seen msg) := by
  cases hleft with
  | error e => rfl
  | parseComplete | bindComplete | complete _ | suspended | skipped => rfl
  | unexpected hmsg => rcases hmsg with rfl | ⟨d, rfl⟩ | rfl <;> rfl
  | description hwalk =>
    simp only [Handler.raises, descriptionRaises, hwalk]
  | dropped d hfailed =>
    have hkeep : ∀ o, keepFirst h.err o = h.err := by
      intro o
      cases o with
      | none => rfl
      | some e => exact if_pos hfailed
    rw [hkeep]
  | @row d data posMap row hfailed hwalk hmap hrow =>
    have hmapped := hm hfailed
    obtain ⟨last, hlast⟩ := hmapped.described (hsettled d rfl)
    obtain ⟨fields, hfields, hposMap, -⟩ := hmapped.map last hlast
    rw [hmap] at hposMap
    cases hposMap
    simp only [Handler.raises, hlast, Option.bind_some, rowRaises, hfields, hwalk, hrow]

end ResultsetCallback

namespace Handler

/-- **A handler that was `h₀` when it was set up, and has got `seen`.** -/
structure Tracked (h₀ : Handler V) (seen : List AnyRequestMessage) (h : Handler V) : Prop where
  args : h.constructed = h₀.constructed
  fresh : seen = [] → h.result = {}
  mapped : ∀ cb, h = .resultsetCallback cb → cb.err.code.failed = false → cb.Mapped seen

def isCallback : Handler V → Bool
  | .resultsetCallback _ => true
  | _ => false

/-- What the next message has to be for a handler that has got `seen`. -/
structure Fit (h₀ : Handler V) (seen : List AnyRequestMessage) (msg : AnyRequestMessage) : Prop where
  readable : Readable msg
  fails : Fails msg
  settled : h₀.isCallback = true → ∀ d, msg = .dataRow d → ∃ x ∈ seen, isSettled x = true
  columns : h₀.isCallback = true → ∀ d, msg = .dataRow d → ∀ last, lastDescription seen = some last →
    d.columns.size = last.fieldDescriptions.size

theorem tracked_reset (h : Handler V) : h.reset.Tracked [] h.reset where
  args := rfl
  fresh _ := by cases h <;> rfl
  mapped cb hcb _ := ⟨by simp, nofun⟩

section
variable {h₀ h : Handler V} {seen : List AnyRequestMessage} {msg : AnyRequestMessage}

theorem Tracked.isCallback (ht : h₀.Tracked seen h) : h₀.isCallback = h.isCallback := by
  have hargs := ht.args
  cases h₀ <;> cases h <;> first | rfl | cases hargs

/-- **The error after a message**: the one before it, or what the message raises. -/
theorem Tracked.result (ht : h₀.Tracked seen h) (hfit : h₀.Fit seen msg) {w w' : World V}
    {h' : Handler V} (hmsg : h.onMessage true msg w = .ok (h', w')) :
    h'.result = keepFirst h.result (h₀.raises seen msg) := by
  have hraises : h₀.raises seen msg = h.raises seen msg := by
    rw [← raises_constructed, ← ht.args, raises_constructed]
  rw [hraises]
  have herror : h.isCallback = false → h.raises seen msg = errorOf msg := by
    cases h <;> cases msg <;> first | exact fun _ => rfl | exact nofun
  cases hh : h with
  | resultsetCallback cb =>
    subst hh
    obtain ⟨p, hp, heq⟩ := map_eq_ok.mp hmsg
    cases heq
    have hcb : h₀.isCallback = true := ht.isCallback
    exact (ResultsetCallback.onMessage_ok hp).1.err (ht.mapped cb rfl) (hfit.settled hcb)
  | check cb | checkParse cb | checkClose cb =>
    subst hh
    rw [herror rfl]
    cases hmsg
    exact maybeStoreErrorOf_eq _ _
  | checkExecute cb =>
    subst hh
    rw [herror rfl]
    obtain ⟨p, hp, heq⟩ := map_eq_ok.mp hmsg
    cases heq
    exact congrArg CheckExecute.err (CheckExecute.onMessage_ok hp).1
  | describeInto cb =>
    subst hh
    rw [herror rfl]
    obtain ⟨p, hp, heq⟩ := map_eq_ok.mp hmsg
    cases heq
    exact congrArg DescribeInto.err (DescribeInto.onMessage_ok hp).1
  | resultsetsHandler cb =>
    subst hh
    rw [herror rfl]
    obtain ⟨p, hp, heq⟩ := map_eq_ok.mp hmsg
    cases heq
    exact (ResultsetsHandler.onMessage_ok hp).2

/-- **One message.** -/
theorem Tracked.step (ht : h₀.Tracked seen h) (hfit : h₀.Fit seen msg) {w w' : World V}
    {h' : Handler V} (hmsg : h.onMessage true msg w = .ok (h', w')) :
    h₀.Tracked (seen ++ [msg]) h' where
  args := (constructed_onMessage hmsg).trans ht.args
  fresh hnil := by simp at hnil
  mapped cb' hcb' herr := by
    subst hcb'
    obtain ⟨cb, rfl, hp⟩ := onMessage_eq_callback hmsg
    exact (ResultsetCallback.onMessage_ok hp).1.mapped hfit.fails (ht.mapped cb rfl) herr

end

end Handler

/-! ## 5. Without assertions every call returns -/

theorem ResultsetCallback.onMessage_total {h : ResultsetCallback V} {seen : List AnyRequestMessage}
    {msg : AnyRequestMessage} (hm : h.err.code.failed = false → h.Mapped seen)
    (hfit : (Handler.resultsetCallback h).Fit seen msg) (w : World V) :
    ∃ p, h.onMessage true msg w = .ok p := by
  cases msg with
  | rowDescription d =>
    obtain ⟨fields, hwalk⟩ := hfit.readable
    simp only [ResultsetCallback.onMessage, ResultsetCallback.onRowDescription_eq, hwalk]
    exact ⟨_, rfl⟩
  | dataRow d =>
    obtain ⟨data, hwalk⟩ := hfit.readable
    simp only [ResultsetCallback.onMessage, ResultsetCallback.onDataRow, hwalk]
    cases herr : h.err.code.failed with
    | true => exact ⟨_, rfl⟩
    | false =>
      have hmapped := hm herr
      obtain ⟨last, hlast⟩ := hmapped.described (hfit.settled rfl d rfl)
      obtain ⟨fields, hfields, hposMap, hcomplete⟩ := hmapped.map last hlast
      have hlength : data.length = fields.length := by
        rw [length_of_walk hwalk, length_of_walk hfields]
        exact hfit.columns rfl d rfl last hlast
      obtain ⟨row, hrow⟩ := parseRow_ok hcomplete hlength
      simp only [hposMap, boostAssert, Bool.true_or, if_true, bind, Except.bind,
        Bool.false_eq_true, if_false, hrow]
      split
      · exact ⟨_, rfl⟩
      · exact ⟨_, rfl⟩
  | _ => exact ⟨_, rfl⟩

theorem ResultsetsHandler.onMessage_total (h : ResultsetsHandler) {msg : AnyRequestMessage}
    (hreadable : Readable msg) (w : World V) : ∃ p, h.onMessage true msg w = .ok p := by
  cases msg with
  | rowDescription d =>
    obtain ⟨fields, hwalk⟩ := hreadable
    simp only [ResultsetsHandler.onMessage, Resultsets.addRowDescription, hwalk]
    exact ⟨_, rfl⟩
  | dataRow d =>
    obtain ⟨data, hwalk⟩ := hreadable
    simp only [ResultsetsHandler.onMessage, Resultsets.addRow, hwalk]
    exact ⟨_, rfl⟩
  | _ => exact ⟨_, rfl⟩

theorem DescribeInto.onMessage_total (h : DescribeInto) {msg : AnyRequestMessage}
    (hreadable : Readable msg) (w : World V) : ∃ p, h.onMessage true msg w = .ok p := by
  cases msg with
  | rowDescription d =>
    obtain ⟨fields, hwalk⟩ := hreadable
    simp only [DescribeInto.onMessage, FieldDescriptions.assign, hwalk]
    exact ⟨_, rfl⟩
  | _ => exact ⟨_, rfl⟩

/-- **Without assertions every call returns.** -/
theorem Handler.Tracked.total {h₀ h : Handler V} {seen : List AnyRequestMessage}
    {msg : AnyRequestMessage} (ht : h₀.Tracked seen h) (hfit : h₀.Fit seen msg) (w : World V) :
    ∃ h' w', h.onMessage true msg w = .ok (h', w') := by
  cases h with
  | check h | checkParse h | checkClose h => exact ⟨_, _, rfl⟩
  | checkExecute h => cases msg <;> exact ⟨_, _, rfl⟩
  | describeInto h =>
    obtain ⟨p, hp⟩ := h.onMessage_total hfit.readable w
    exact ⟨_, _, map_eq_ok.mpr ⟨p, hp, rfl⟩⟩
  | resultsetCallback cb =>
    have hcb : h₀.isCallback = true := ht.isCallback
    have hfit' : (Handler.resultsetCallback cb).Fit seen msg :=
      ⟨hfit.readable, hfit.fails, fun _ => hfit.settled hcb, fun _ => hfit.columns hcb⟩
    obtain ⟨p, hp⟩ := ResultsetCallback.onMessage_total (ht.mapped cb rfl) hfit' w
    exact ⟨_, _, map_eq_ok.mpr ⟨p, hp, rfl⟩⟩
  | resultsetsHandler h =>
    obtain ⟨p, hp⟩ := h.onMessage_total hfit.readable w
    exact ⟨_, _, map_eq_ok.mpr ⟨p, hp, rfl⟩⟩

/-! ## 6. The first error of a response -/

/-- The first error of the handlers, in their order. -/
def firstFailed (hs : List (Handler V)) : Option ExtendedError :=
  (hs.map (·.result)).find? (·.code.failed)

theorem firstFailed_cons_true {h : Handler V} (hf : h.result.code.failed = true)
    (hs : List (Handler V)) : firstFailed (h :: hs) = some h.result :=
  List.find?_cons_of_pos hf

theorem firstFailed_cons_false {h : Handler V} (hf : h.result.code.failed = false)
    (hs : List (Handler V)) : firstFailed (h :: hs) = firstFailed hs :=
  List.find?_cons_of_neg (by rw [hf]; nofun)

theorem firstFailed_eq_none {hs : List (Handler V)} :
    firstFailed hs = none ↔ ∀ h ∈ hs, h.result.code.failed = false := by
  unfold firstFailed
  rw [List.find?_eq_none, List.forall_mem_map]
  simp

/-- An error behind which no handler was called: the last call changes nothing. -/
theorem firstFailed_set_some : ∀ {hs : List (Handler V)} {k : Nat} {h h' : Handler V}
    {e : ExtendedError}, firstFailed hs = some e → hs[k]? = some h →
    (∀ j x, k < j → hs[j]? = some x → x.result.code.failed = false) →
    (h.result.code.failed = true → h'.result = h.result) →
    firstFailed (hs.set k h') = some e
  | [], _, _, _, _, hfirst, _, _, _ => by cases hfirst
  | x :: hs, 0, h, h', e, hfirst, hh, hlater, hkeep => by
      cases hh
      cases hf : x.result.code.failed with
      | true =>
        rw [firstFailed_cons_true hf] at hfirst
        cases hfirst
        rw [List.set_cons_zero, firstFailed_cons_true (by rw [hkeep hf, hf]), hkeep hf]
      | false =>
        rw [firstFailed_cons_false hf] at hfirst
        have hnone : firstFailed hs = none := firstFailed_eq_none.mpr fun y hy => by
          obtain ⟨j, hj⟩ := List.getElem?_of_mem hy
          exact hlater (j + 1) y (Nat.succ_pos j) hj
        rw [hnone] at hfirst
        cases hfirst
  | x :: hs, k + 1, h, h', e, hfirst, hh, hlater, hkeep => by
      rw [List.set_cons_succ]
      cases hf : x.result.code.failed with
      | true =>
        rw [firstFailed_cons_true hf] at hfirst ⊢
        exact hfirst
      | false =>
        rw [firstFailed_cons_false hf] at hfirst ⊢
        exact firstFailed_set_some hfirst hh
          (fun j x hj hx => hlater (j + 1) x (Nat.succ_lt_succ hj) hx) hkeep

/-- No error so far: there is one if the handler that was called has one. -/
theorem firstFailed_set_none : ∀ {hs : List (Handler V)} {k : Nat} {h' : Handler V},
    firstFailed hs = none → k < hs.length →
    firstFailed (hs.set k h') = if h'.result.code.failed then some h'.result else none
  | [], _, _, _, hlt => by cases hlt
  | x :: hs, 0, h', hnone, _ => by
      have hnone' : firstFailed hs = none :=
        firstFailed_eq_none.mpr fun y hy => firstFailed_eq_none.mp hnone y (List.mem_cons_of_mem x hy)
      rw [List.set_cons_zero]
      cases hf : h'.result.code.failed with
      | true => rw [firstFailed_cons_true hf, if_pos rfl]
      | false => rw [firstFailed_cons_false hf, hnone', if_neg nofun]
  | x :: hs, k + 1, h', hnone, hlt => by
      have hx := firstFailed_eq_none.mp hnone x List.mem_cons_self
      rw [List.set_cons_succ, firstFailed_cons_false hx]
      rw [firstFailed_cons_false hx] at hnone
      exact firstFailed_set_none hnone (Nat.lt_of_succ_lt_succ hlt)

/-- **The first error that is raised by some calls**, in their order. -/
inductive FirstRaised (raised : List Call → Call → ExtendedError → Prop) :
    List Call → Option ExtendedError → Prop where
  | nil : FirstRaised raised [] none
  | quiet {pre call} (h : FirstRaised raised pre none) (hquiet : ∀ e, ¬ raised pre call e) :
      FirstRaised raised (pre ++ [call]) none
  | raised {pre call e} (h : FirstRaised raised pre none) (hraised : raised pre call e) :
      FirstRaised raised (pre ++ [call]) (some e)
  | later {pre call e} (h : FirstRaised raised pre (some e)) :
      FirstRaised raised (pre ++ [call]) (some e)

namespace Response

/-- The call raises the error `e` in the handler that it is for; `pre` are the calls before it. -/
def Raised (r : Response V) (pre : List Call) (call : Call) (e : ExtendedError) : Prop :=
  ∃ k h, Owns r.offsets k call.offset ∧ r.handlers[k]? = some h ∧
    h.raises (seenBy r.offsets k pre) call.msg = some e

/-- Each handler is tracked. -/
abbrev AllTracked (r : Response V) (calls : List Call) (r₁ : Response V) (w : World V) : Prop :=
  Holds (fun k seen x _ => ∃ h, r.handlers[k]? = some h ∧ h.Tracked seen x) calls r₁ w

section
variable {ms : List RequestMessageType} {hs : List (Handler V)} {r : Response V}

/-- **One call.** -/
theorem forward_firstRaised (hlaid : Laid ms 0 hs r.offsets) {pre post : List Call} {call : Call}
    (hturn : InTurn ms 0 (pre ++ call :: post)) {r₁ : Response V} {w w' : World V}
    (hoffsets : r₁.offsets = r.offsets) (htracked : r.AllTracked pre r₁ w) {k : Nat}
    {h₀ h h' : Handler V} (howns : Owns r.offsets k call.offset) (hh₀ : r.handlers[k]? = some h₀)
    (hh : r₁.handlers[k]? = some h) (hfit : h₀.Fit (seenBy r.offsets k pre) call.msg)
    (hmsg : h.onMessage true call.msg w = .ok (h', w'))
    (hfirst : FirstRaised r.Raised pre (firstFailed r₁.handlers)) :
    FirstRaised r.Raised (pre ++ [call]) (firstFailed (r₁.handlers.set k h')) := by
  have ht : h₀.Tracked (seenBy r.offsets k pre) h := by
    obtain ⟨x, hx, ht⟩ := htracked k h hh
    rw [hh₀] at hx
    cases hx
    rw [hoffsets] at ht
    exact ht
  have hresult := ht.result hfit hmsg
  -- the handlers behind this one have not been called
  have hlater : ∀ j x, k < j → r₁.handlers[j]? = some x → x.result.code.failed = false := by
    intro j x hj hx
    obtain ⟨y, -, hy⟩ := htracked j x hx
    have hnil : seenBy r₁.offsets j pre = [] := by
      rw [hoffsets]
      refine seenBy_eq_nil fun c hc hown => ?_
      have := hlaid.owner_le hown howns (hturn.mono c hc)
      omega
    rw [hy.fresh hnil]
    rfl
  cases hold : firstFailed r₁.handlers with
  | some e =>
    rw [hold] at hfirst
    rw [firstFailed_set_some hold hh hlater fun hf => ?_]
    · exact .later hfirst
    · rw [hresult]
      cases h₀.raises (seenBy r.offsets k pre) call.msg with
      | none => rfl
      | some e => exact if_pos hf
  | none =>
    rw [hold] at hfirst
    have hf := firstFailed_eq_none.mp hold h (List.mem_of_getElem? hh)
    rw [firstFailed_set_none hold (List.getElem?_eq_some_iff.mp hh).1, hresult]
    cases hraises : h₀.raises (seenBy r.offsets k pre) call.msg with
    | none =>
      rw [keepFirst, hf]
      refine .quiet hfirst ?_
      rintro e ⟨k', x, howns', hx, hraised⟩
      obtain rfl := hlaid.owns_unique howns' howns
      rw [hh₀] at hx
      cases hx
      rw [hraises] at hraised
      cases hraised
    | some e =>
      have hkeep : keepFirst h.result (some e) = e := if_neg (by rw [hf]; nofun)
      rw [hkeep, Handler.failed_raises hfit.fails hraises]
      exact .raised hfirst ⟨k, h₀, howns, hh₀, hraises⟩

/-- **A run**: every call returns, and the first error of the handlers is the first that is
    raised. -/
theorem run_firstRaised (hlaid : Laid ms 0 hs r.offsets) (hlast : lastOffset 0 r.offsets = ms.length)
    {all : List Call} (hall : InTurn ms 0 all)
    (hfit : ∀ pre call post k h, all = pre ++ call :: post → Owns r.offsets k call.offset →
      r.handlers[k]? = some h → h.Fit (seenBy r.offsets k pre) call.msg) :
    ∀ {calls pre : List Call} {r₁ : Response V} {w : World V} {lo : Nat}, pre ++ calls = all →
      r₁.offsets = r.offsets → r₁.Stands lo → InTurn ms lo calls → r.AllTracked pre r₁ w →
      FirstRaised r.Raised pre (firstFailed r₁.handlers) →
      ∃ r₂ w₂, r₁.run true calls w = .ok (r₂, w₂) ∧
        FirstRaised r.Raised all (firstFailed r₂.handlers)
  | [], pre, r₁, w, _, heq, _, _, _, _, hfirst => by
      rw [List.append_nil] at heq
      exact ⟨r₁, w, rfl, heq ▸ hfirst⟩
  | call :: calls, pre, r₁, w, lo, heq, hoffsets, hr₁, hturn, htracked, hfirst => by
      have hlaid₁ : Laid ms 0 hs r₁.offsets := hoffsets ▸ hlaid
      have hlast₁ : lastOffset 0 r₁.offsets = ms.length := hoffsets ▸ hlast
      cases hturn with
      | cons hle hlt hskip hrest =>
        obtain ⟨k, h, howns, hh, -, hpoints, hmsg⟩ :=
          onMessage_eq hlaid₁ hlast₁ hr₁ hle hlt hskip true w
        obtain ⟨h₀, hh₀, ht⟩ := htracked k h hh
        rw [hoffsets] at howns
        have hfit₀ := hfit pre call calls k h₀ heq.symm howns hh₀
        rw [hoffsets] at ht
        obtain ⟨h', w', hstep⟩ := ht.total hfit₀ w
        have hfirst' := forward_firstRaised hlaid (heq ▸ hall) hoffsets htracked howns hh₀ hh hfit₀
          hstep hfirst
        have heq' : (pre ++ [call]) ++ calls = all := by
          rw [List.append_assoc]
          exact heq
        have htracked' : r.AllTracked (pre ++ [call])
            { r₁ with handlers := r₁.handlers.set k h', current := k } w' := by
          refine forward_holds hlaid₁ (hoffsets ▸ howns) hh htracked ⟨h₀, hh₀, ?_⟩ fun _ _ _ _ hx => hx
          rw [hoffsets]
          exact ht.step hfit₀ hstep
        have hr₂ : ({ r₁ with handlers := r₁.handlers.set k h', current := k } :
            Response V).Stands (call.offset + 1) :=
          ⟨hpoints, by rw [List.length_set]; exact hr₁.length⟩
        obtain ⟨r₂, w₂, hrun, hfirst₂⟩ := run_firstRaised hlaid hlast hall hfit heq'
          (show ({ r₁ with handlers := r₁.handlers.set k h', current := k } : Response V).offsets =
            r.offsets from hoffsets) hr₂ hrest htracked' hfirst'
        refine ⟨r₂, w₂, ?_, hfirst₂⟩
        unfold Response.run
        rw [hmsg, forward, hstep]
        exact hrun

end

end Response

/-! ## 7. No error is lost or replaced -/

/-- **`result` is the first error raised** by the messages `xs`: it is one exactly when there is one,
    and then it is the earliest. -/
def IsFirstError {α : Type} (xs : List α) (raised : List α → α → ExtendedError → Prop)
    (result : ExtendedError) : Prop :=
  (result.code.failed = true ↔ ∃ pre x post e, xs = pre ++ x :: post ∧ raised pre x e) ∧
  ∀ pre x post e, xs = pre ++ x :: post → raised pre x e →
    (∀ pre' x' post' e', xs = pre' ++ x' :: post' → pre'.length < pre.length →
      ¬ raised pre' x' e') → result = e

theorem snoc_split {α : Type} {xs pre post : List α} {x y : α} (h : xs ++ [y] = pre ++ x :: post) :
    (pre = xs ∧ x = y) ∨ ∃ post', xs = pre ++ x :: post' := by
  rcases append_eq_split h with ⟨post', hxs⟩ | ⟨pre', rfl, hone⟩
  · exact .inr ⟨post', hxs⟩
  · cases pre' with
    | nil =>
      cases hone
      exact .inl ⟨by simp, rfl⟩
    | cons z pre' =>
      have hlength := congrArg List.length hone
      simp at hlength

/-- The first error raised, place by place. -/
theorem FirstRaised.spec {raised : List Call → Call → ExtendedError → Prop} {calls : List Call}
    {o : Option ExtendedError} (h : FirstRaised raised calls o) :
    (o = none → ∀ pre call post e, calls = pre ++ call :: post → ¬ raised pre call e) ∧
    ∀ e, o = some e → ∃ pre call post, calls = pre ++ call :: post ∧ raised pre call e ∧
      ∀ pre' call' post' e', calls = pre' ++ call' :: post' → raised pre' call' e' →
        pre.length ≤ pre'.length := by
  induction h with
  | nil => exact ⟨by simp, nofun⟩
  | quiet _ hquiet ih =>
    refine ⟨fun _ pre call post e heq hraised => ?_, nofun⟩
    rcases snoc_split heq with ⟨rfl, rfl⟩ | ⟨post', heq⟩
    · exact hquiet e hraised
    · exact ih.1 rfl pre call post' e heq hraised
  | @raised pre call e _ hraised ih =>
    refine ⟨nofun, fun e' he' => ?_⟩
    cases he'
    refine ⟨pre, call, [], rfl, hraised, fun pre' call' post' e' heq hraised' => ?_⟩
    rcases snoc_split heq with ⟨rfl, rfl⟩ | ⟨post', heq⟩
    · exact Nat.le_refl _
    · exact absurd hraised' (ih.1 rfl pre' call' post' e' heq)
  | @later pre call e _ ih =>
    refine ⟨nofun, fun e' he' => ?_⟩
    obtain ⟨pre₁, call₁, post₁, rfl, hraised, hfirst⟩ := ih.2 e' he'
    refine ⟨pre₁, call₁, post₁ ++ [call], by simp, hraised, fun pre' call' post' e' heq hraised' => ?_⟩
    rcases snoc_split heq with ⟨rfl, rfl⟩ | ⟨post', heq⟩
    · simp
    · exact hfirst pre' call' post' e' heq hraised'

namespace Response

theorem Raised.unique {ms : List RequestMessageType} {hs : List (Handler V)} {r : Response V}
    (hlaid : Laid ms 0 hs r.offsets) {pre : List Call} {call : Call} {e e' : ExtendedError}
    (h : r.Raised pre call e) (h' : r.Raised pre call e') : e = e' := by
  obtain ⟨k, x, howns, hx, hraises⟩ := h
  obtain ⟨k', x', howns', hx', hraises'⟩ := h'
  obtain rfl := hlaid.owns_unique howns howns'
  rw [hx] at hx'
  cases hx'
  rw [hraises] at hraises'
  exact Option.some.inj hraises'

/-- `result()`, by the first error of the handlers. -/
theorem result_eq (r : Response V) :
    (∀ e, firstFailed r.handlers = some e → r.result = e ∧ e.code.failed = true) ∧
      (firstFailed r.handlers = none → r.result.code.failed = false) := by
  have hresult : r.result = (firstFailed r.handlers).getD ((r.handlers.map (·.result)).headD {}) := by
    unfold Response.result firstFailed
    cases (r.handlers.map (·.result)).find? (·.code.failed) <;> rfl
  refine ⟨fun e he => ⟨by rw [hresult, he]; rfl, by simpa using List.find?_some he⟩, fun hnone => ?_⟩
  rw [hresult, hnone, Option.getD_none]
  cases hhandlers : r.handlers with
  | nil => rfl
  | cons h hs =>
    rw [hhandlers] at hnone
    exact firstFailed_eq_none.mp hnone h List.mem_cons_self

theorem isFirstError {ms : List RequestMessageType} {hs : List (Handler V)} {r r₁ : Response V}
    (hlaid : Laid ms 0 hs r.offsets) {calls : List Call}
    (hfirst : FirstRaised r.Raised calls (firstFailed r₁.handlers)) :
    IsFirstError calls r.Raised r₁.result := by
  obtain ⟨hnone, hsome⟩ := hfirst.spec
  obtain ⟨hresult, hsuccess⟩ := r₁.result_eq
  cases ho : firstFailed r₁.handlers with
  | none =>
    refine ⟨⟨fun hf => ?_, ?_⟩, fun pre call post e heq hraised => ?_⟩
    · rw [hsuccess ho] at hf
      cases hf
    · rintro ⟨pre, call, post, e, heq, hraised⟩
      exact absurd hraised (hnone ho pre call post e heq)
    · exact absurd hraised (hnone ho pre call post e heq)
  | some e =>
    obtain ⟨heq, hfailed⟩ := hresult e ho
    obtain ⟨pre₁, call₁, post₁, hcalls, hraised₁, hleast⟩ := hsome e ho
    refine ⟨⟨fun _ => ⟨pre₁, call₁, post₁, e, hcalls, hraised₁⟩, fun _ => by rw [heq]; exact hfailed⟩, ?_⟩
    intro pre call post e' hcalls' hraised hearliest
    rw [heq]
    -- both are the earliest
    have hle := hleast pre call post e' hcalls' hraised
    have hge : pre.length ≤ pre₁.length := by
      by_contra hlt
      exact hearliest pre₁ call₁ post₁ e hcalls (by omega) hraised₁
    obtain ⟨rfl, hrest⟩ := List.append_inj (hcalls.symm.trans hcalls') (by omega)
    cases hrest
    exact Raised.unique hlaid hraised₁ hraised

end Response

/-- Every DataRow has as many columns as the RowDescription that was reported before it. -/
def ColumnsMatch (calls : List Call) : Prop :=
  ∀ pre call post d last, calls = pre ++ call :: post → call.msg = .dataRow d →
    lastDescription (pre.map (·.msg)) = some last →
    d.columns.size = last.fieldDescriptions.size

section
variable {req : Request} {allowCopy : Bool} {msgs : List AnyBackendMessage} {run : Run}

/-- What the response machine reports fits the handlers it is for. -/
theorem Response.Ready.fit {r : Response V} (hready : r.Ready req)
    (hrun : (readResponseFsm req allowCopy).feed msgs = .ok run)
    (hparsed : ∀ msg ∈ msgs, Parsed msg)
    (hsqlstate : ∀ e, .errorResponse e ∈ msgs → e.sqlstate ≠ some successfulCompletion)
    (hcolumns : ColumnsMatch run.calls) {pre post : List Call} {call : Call}
    (hcalls : run.calls = pre ++ call :: post) {k : Nat} (howns : Owns r.offsets k call.offset)
    {h : Handler V} (hh : r.handlers[k]? = some h) : h.Fit (seenBy r.offsets k pre) call.msg := by
  have hturn := feed_inTurn hready.accepted allowCopy hrun
  have hstems := feed_stems (Wf.init hready.accepted allowCopy) hrun call (by rw [hcalls]; simp)
  refine ⟨hstems.readable hparsed, fun e he => ?_, fun hcb d hd => ?_, fun _ d hd last hlast => ?_⟩
  · rw [he] at hstems
    exact hsqlstate e hstems
  · have hshape : ∀ slice, h.Shape slice → ResultsetSlice slice := by
      cases h with
      | resultsetCallback h => exact fun _ hslice => hslice
      | _ => cases hcb
    obtain ⟨m, -, hturn⟩ := hready.turn hrun hcalls howns hh hshape
    rw [hd] at hturn
    exact hturn.settled
  · refine hcolumns pre call post d last hcalls hd ?_
    rw [hcalls] at hturn
    refine lastDescription_of_suffix (seenBy_suffix hready.laid hturn howns fun c hc => ?_) hlast
    exact hready.laid.exists_owner hready.last (Nat.zero_le _)
      (hturn.offset_lt c (List.mem_append_left _ hc))

theorem Response.run_isFirstError {handlers : List (Handler V)} {w w' : World V} {r : Response V}
    {ec : ErrorCode} (hsetup : (Response.new handlers).setupRequest req w = .ok (ec, r, w'))
    (hec : ec.failed = false) (hrun : (readResponseFsm req allowCopy).feed msgs = .ok run)
    (hparsed : ∀ msg ∈ msgs, Parsed msg)
    (hsqlstate : ∀ e, .errorResponse e ∈ msgs → e.sqlstate ≠ some successfulCompletion)
    (hcolumns : ColumnsMatch run.calls) :
    ∃ r₁ w₁, r.run true run.calls w' = .ok (r₁, w₁) ∧
      IsFirstError run.calls r.Raised r₁.result := by
  obtain ⟨hready, hhandlers, hcurrent, -⟩ := setupRequest_spec (length_new handlers) hsetup hec
  have hturn := feed_inTurn hready.accepted allowCopy hrun
  have hreset : ∀ h ∈ r.handlers, h.Tracked [] h := by
    intro h hh
    rw [hhandlers] at hh
    obtain ⟨x, -, rfl⟩ := List.mem_map.mp hh
    exact x.tracked_reset
  have hnone : firstFailed r.handlers = none :=
    firstFailed_eq_none.mpr fun h hh => by
      rw [(hreset h hh).fresh rfl]
      rfl
  obtain ⟨r₁, w₁, hr₁, hfirst⟩ := run_firstRaised hready.laid hready.last hturn
    (fun pre call post k h hcalls howns hh =>
      hready.fit hrun hparsed hsqlstate hcolumns hcalls howns hh)
    (List.nil_append run.calls) rfl (hready.stands hcurrent) hturn
    (fun k h hh => ⟨h, hh, hreset h (List.mem_of_getElem? hh)⟩) (by rw [hnone]; exact .nil)
  exact ⟨r₁, w₁, hr₁, isFirstError hready.laid hfirst⟩

/-- The same messages, under other names. -/
theorem IsFirstError.map {α β : Type} {f : α → β} {xs : List α}
    {raised : List α → α → ExtendedError → Prop} {raised' : List β → β → ExtendedError → Prop}
    {result : ExtendedError} (h : IsFirstError xs raised result)
    (hsame : ∀ pre x post e, xs = pre ++ x :: post →
      (raised pre x e ↔ raised' (pre.map f) (f x) e)) : IsFirstError (xs.map f) raised' result := by
  obtain ⟨hiff, hearliest⟩ := h
  -- a place among the names is a place among the messages
  have hplace : ∀ {pre : List β} {y : β} {post : List β}, xs.map f = pre ++ y :: post →
      ∃ pre₁ x post₁, xs = pre₁ ++ x :: post₁ ∧ pre₁.map f = pre ∧ f x = y := by
    intro pre y post heq
    obtain ⟨pre₁, rest, rfl, hpre, hrest⟩ := List.map_eq_append_iff.mp heq
    obtain ⟨x, post₁, rfl, hx, -⟩ := List.map_eq_cons_iff.mp hrest
    exact ⟨pre₁, x, post₁, rfl, hpre, hx⟩
  refine ⟨hiff.trans ⟨?_, ?_⟩, ?_⟩
  · rintro ⟨pre, x, post, e, rfl, hraised⟩
    exact ⟨pre.map f, f x, post.map f, e, by simp, (hsame pre x post e rfl).mp hraised⟩
  · rintro ⟨pre, y, post, e, heq, hraised⟩
    obtain ⟨pre₁, x, post₁, hxs, rfl, rfl⟩ := hplace heq
    exact ⟨pre₁, x, post₁, e, hxs, (hsame pre₁ x post₁ e hxs).mpr hraised⟩
  · intro pre y post e heq hraised hnone
    obtain ⟨pre₁, x, post₁, hxs, rfl, rfl⟩ := hplace heq
    refine hearliest pre₁ x post₁ e hxs ((hsame pre₁ x post₁ e hxs).mpr hraised) ?_
    intro pre' x' post' e' hxs' hlt hraised'
    refine hnone (pre'.map f) (f x') (post'.map f) e' ?_ (by simpa using hlt)
      ((hsame pre' x' post' e' hxs').mp hraised')
    rw [hxs']
    simp

/-- **No error is lost or replaced.** Whatever the server sends, as long as rows fit their
    description and no error calls itself a success, and with assertions compiled out, every call of
    `on_message` returns, and `result()` is the error of the earliest call that raised one: of a
    handler on its own, and of any response. -/
theorem result_first_raised (hrun : (readResponseFsm req allowCopy).feed msgs = .ok run)
    (hparsed : ∀ msg ∈ msgs, Parsed msg)
    (hsqlstate : ∀ e, .errorResponse e ∈ msgs → e.sqlstate ≠ some successfulCompletion)
    (hcolumns : ColumnsMatch run.calls) (w : World V) :
    (∀ (h h' : Handler V) (w' : World V) (ec : ErrorCode),
      h.setupRequest req w = .ok (ec, h', w') → ec.failed = false →
      ∃ h₁ w₁, h'.run true (run.calls.map (·.msg)) w' = .ok (h₁, w₁) ∧
        IsFirstError (run.calls.map (·.msg)) (fun seen msg e => h'.raises seen msg = some e)
          h₁.result) ∧
    ∀ (handlers : List (Handler V)) (r : Response V) (w' : World V) (ec : ErrorCode),
      (Response.new handlers).setupRequest req w = .ok (ec, r, w') → ec.failed = false →
      ∃ r₁ w₁, r.run true run.calls w' = .ok (r₁, w₁) ∧
        IsFirstError run.calls r.Raised r₁.result := by
  refine ⟨fun h h' w' ec hsetup hec => ?_, fun handlers r w' ec hsetup hec =>
    Response.run_isFirstError hsetup hec hrun hparsed hsqlstate hcolumns⟩
  have hsingle := Handler.setupRequest_single hsetup hec
  obtain ⟨hready, -⟩ := Response.setupRequest_spec (Response.length_new [h]) hsingle hec
  have hlt := (feed_inTurn hready.accepted allowCopy hrun).offset_lt
  obtain ⟨r₁, w₁, hr₁, hfirst⟩ :=
    Response.run_isFirstError hsingle hec hrun hparsed hsqlstate hcolumns
  rw [Response.run_single true req run.calls h' w' hlt] at hr₁
  obtain ⟨⟨h₁, w₂⟩, hh₁, heq⟩ := map_eq_ok.mp hr₁
  cases heq
  have hresult : (Response.single h₁ req).result = h₁.result := by
    unfold Response.result Response.single
    cases hf : h₁.result.code.failed <;> simp [hf]
  rw [hresult] at hfirst
  refine ⟨h₁, w₂, hh₁, hfirst.map fun pre call post e hcalls => ?_⟩
  -- there is one handler, and it owns everything
  have hseen : seenBy [req.messages.length] 0 pre = pre.map (·.msg) :=
    seenBy_single fun c hc => hlt c (by rw [hcalls]; exact List.mem_append_left _ hc)
  have hcall : call.offset < req.messages.length := hlt call (by rw [hcalls]; simp)
  constructor
  · rintro ⟨k, x, howns, hx, hraises⟩
    cases k with
    | succ k => cases hx
    | zero =>
      cases hx
      rw [← hseen]
      exact hraises
  · intro hraises
    refine ⟨0, h', (owns_single _ _).mpr hcall, rfl, ?_⟩
    show h'.raises (seenBy [req.messages.length] 0 pre) call.msg = some e
    rw [hseen]
    exact hraises

end

/-- A batch whose statement has no result: the callback does not find the column of its member. -/
theorem result_first_raised_no_data :
    ∃ (r r₁ : Response Unit) (w w₁ : World Unit),
      (Response.new [.checkParse {}, .resultsetCallback
        { members := [⟨[120], fun _ => .success, fun _ _ => (.success, ()),
          fun _ _ => (.success, ())⟩], cb := 0 }]).setupRequest
        { messages := [.parse, .bind, .describe, .execute, .sync] } w = .ok (.success, r, w) ∧
      r.run true [⟨.parseComplete, 0⟩, ⟨.bindComplete, 1⟩, ⟨.rowDescription {}, 2⟩] w =
        .ok (r₁, w₁) ∧
      r₁.result = { code := ClientErrc.fieldNotFound.code } := by
  have hrun : ∃ run, (readResponseFsm
      { messages := [.parse, .bind, .describe, .execute, .sync] } false).feed
        [.parseComplete, .bindComplete, .noData] = .ok run ∧
      run.calls = [⟨.parseComplete, 0⟩, ⟨.bindComplete, 1⟩, ⟨.rowDescription {}, 2⟩] :=
    ⟨_, rfl, rfl⟩
  obtain ⟨run, hrun, hcalls⟩ := hrun
  have hparsed : ∀ msg ∈ [AnyBackendMessage.parseComplete, .bindComplete, .noData], Parsed msg := by
    intro msg hmsg
    simp only [List.mem_cons, List.not_mem_nil, or_false] at hmsg
    rcases hmsg with rfl | rfl | rfl
    · exact ⟨49, [], rfl⟩
    · exact ⟨50, [], rfl⟩
    · exact ⟨110, [], rfl⟩
  have hsqlstate : ∀ e, AnyBackendMessage.errorResponse e ∈
      [AnyBackendMessage.parseComplete, .bindComplete, .noData] →
      e.sqlstate ≠ some successfulCompletion := by
    intro e he
    simp at he
  have hcolumns : ColumnsMatch run.calls := by
    intro pre call post d last heq hd
    have hmem : call ∈ run.calls := by
      rw [heq]
      simp
    rw [hcalls] at hmem
    simp only [List.mem_cons, List.not_mem_nil, or_false] at hmem
    rcases hmem with rfl | rfl | rfl <;> cases hd
  have hsetup : ∀ cb : ResultsetCallback Unit, cb.state = .parsingMeta → cb.err = {} →
      cb.info = none → (Response.new [.checkParse {}, .resultsetCallback cb]).setupRequest
      { messages := [.parse, .bind, .describe, .execute, .sync] }
      ⟨fun _ => {}, fun _ => {}, fun _ => {}, []⟩ =
      .ok (.success, ⟨[.checkParse {}, .resultsetCallback cb], [1, 5], 0⟩,
        ⟨fun _ => {}, fun _ => {}, fun _ => {}, []⟩) := by
    rintro ⟨members, cb, info, state, posMap, data, err⟩ rfl rfl rfl
    rfl
  obtain ⟨r₁, w₁, hr₁, hfirst⟩ := (result_first_raised hrun hparsed hsqlstate hcolumns _).2 _ _ _ _
    (hsetup ⟨[⟨[120], fun _ => .success, fun _ _ => (.success, ()), fun _ _ => (.success, ())⟩], 0,
      none, .parsingMeta, none, [], {}⟩ rfl rfl rfl) rfl
  rw [hcalls] at hr₁ hfirst
  refine ⟨_, r₁, _, w₁, hsetup _ rfl rfl rfl, hr₁, ?_⟩
  refine hfirst.2 [⟨.parseComplete, 0⟩, ⟨.bindComplete, 1⟩] ⟨.rowDescription {}, 2⟩ [] _ rfl
    ⟨1, _, by decide, rfl, rfl⟩ ?_
  -- neither of the completions raises anything
  rintro pre' call' post' e' heq hlt ⟨k, h, -, -, hraises⟩
  rcases pre' with _ | ⟨a, _ | ⟨b, pre'⟩⟩
  · cases heq
    cases h <;> cases hraises
  · cases heq
    cases h <;> cases hraises
  · simp only [List.length_cons, List.length_nil] at hlt
    omega

/-- A query without a statement: the callback has an error, although nothing has failed, nothing was
    described, nothing was parsed and nothing was skipped. -/
theorem emptyQuery_raises :
    ∃ (run : Run) (h : Handler Unit) (w : World Unit),
      (readResponseFsm { messages := [.query] } false).feed
        [.emptyQueryResponse, .readyForQuery .idle] = .ok run ∧
      run.finished = some .success ∧
      (Handler.resultsetCallback { members := [], cb := 0 }).setupRequest { messages := [.query] } w =
        .ok (.success, .resultsetCallback { members := [], cb := 0 }, w) ∧
      (Handler.resultsetCallback { members := [], cb := 0 }).run true (run.calls.map (·.msg)) w =
        .ok (h, w) ∧
      h.result.code.failed = true ∧
      ∀ call ∈ run.calls, call.msg ≠ .messageSkipped ∧ (∀ e, call.msg ≠ .errorResponse e) ∧
        isDescription call.msg = false ∧ isRow call.msg = false := by
  have hrun : ∃ run, (readResponseFsm { messages := [.query] } false).feed
      [.emptyQueryResponse, .readyForQuery .idle] = .ok run ∧ run.finished = some .success ∧
      run.calls = [⟨.emptyQueryResponse, 0⟩] := ⟨_, rfl, rfl, rfl⟩
  obtain ⟨run, hrun, hfin, hcalls⟩ := hrun
  refine ⟨run, .resultsetCallback
    { members := [], cb := 0, err := { code := ClientErrc.incompatibleResponseType.code } },
    ⟨fun _ => {}, fun _ => {}, fun _ => {}, []⟩, hrun, hfin, rfl, ?_, ClientErrc.failed_code _, ?_⟩
  · rw [hcalls]
    rfl
  · intro call hcall
    rw [hcalls] at hcall
    obtain rfl := List.mem_singleton.mp hcall
    exact ⟨by simp, by simp, rfl, rfl⟩

end

end Responses

end NativePg
