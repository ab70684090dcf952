/-
  File:      NativePg/RequestGrammar.lean
  Subject:   Which requests `check_request` accepts, and what it says of the others.

  * `RequestUnit`, `RequestUnits` -- the units of the comment above `check_request`: a query, or a
    batch of extended-query messages with its sync; and lists that are units, one behind the other;
  * `checkLoop_units`, `checkLoop_open` -- the loop is behind units where it was before them, and an
    open batch sets its flag;
  * `RequestShape`, `requestShape` -- every list is units, or units and an open batch, with or
    without a query behind it;
  * **`check_request_exactly`** -- the code for every request.
-/
import NativePg.Request

namespace NativePg

/-! ## 1. The grammar -/

/-- A unit: a simple query, or a batch that a sync closes. -/
inductive RequestUnit : List RequestMessageType → Prop where
  | query : RequestUnit [.query]
  | batch {ms : List RequestMessageType}
      (h : ∀ m ∈ ms, m ∈ [RequestMessageType.parse, .bind, .describe, .execute, .close, .flush]) :
      RequestUnit (ms ++ [.sync])

/-- Units, one behind the other. -/
def RequestUnits (ms : List RequestMessageType) : Prop :=
  ∃ units : List (List RequestMessageType), (∀ u ∈ units, RequestUnit u) ∧ ms = units.flatten

/-- Extended-query messages of a batch that is still open: at least one. -/
def OpenBatch (ms : List RequestMessageType) : Prop :=
  ms ≠ [] ∧ ∀ m ∈ ms, m ∈ [RequestMessageType.parse, .bind, .describe, .execute, .close, .flush]

/-- A query comes where a batch is open. -/
def Mixes (ms : List RequestMessageType) : Prop :=
  ∃ pre batch, RequestUnits pre ∧ OpenBatch batch ∧ pre ++ batch ++ [.query] <+: ms

/-- The messages of a batch are those that do not end a unit. -/
theorem mem_batch_iff {m : RequestMessageType} :
    m ∈ [RequestMessageType.parse, .bind, .describe, .execute, .close, .flush] ↔
      m.endsUnit = false := by
  cases m <;> decide

theorem RequestUnits.nil : RequestUnits [] := ⟨[], by simp, rfl⟩

theorem RequestUnits.cons {u ms : List RequestMessageType} (hu : RequestUnit u)
    (h : RequestUnits ms) : RequestUnits (u ++ ms) := by
  obtain ⟨units, hunits, rfl⟩ := h
  exact ⟨u :: units, List.forall_mem_cons.mpr ⟨hu, hunits⟩, rfl⟩

theorem RequestUnits.append {ms ms' : List RequestMessageType} (h : RequestUnits ms)
    (h' : RequestUnits ms') : RequestUnits (ms ++ ms') := by
  obtain ⟨units, hunits, rfl⟩ := h
  obtain ⟨units', hunits', rfl⟩ := h'
  exact ⟨units ++ units', List.forall_mem_append.mpr ⟨hunits, hunits'⟩, List.flatten_append.symm⟩

/-! ## 2. The loop -/

/-- A batch leaves the flag set, if there is anything in it. -/
theorem checkLoop_batch : ∀ {batch : List RequestMessageType} (b : Bool)
    (rest : List RequestMessageType), (∀ m ∈ batch, m.endsUnit = false) →
    checkLoop b (batch ++ rest) = checkLoop (b || !batch.isEmpty) rest
  | [], b, rest, _ => by simp
  | m :: batch, b, rest, h => by
      obtain ⟨hm, hbatch⟩ := List.forall_mem_cons.mp h
      have hstep : checkLoop b (m :: (batch ++ rest)) = checkLoop true (batch ++ rest) := by
        cases m with
        | query | sync => cases hm
        | bind | close | describe | execute | flush | parse => rfl
      rw [List.cons_append, hstep, checkLoop_batch true rest hbatch]
      simp

/-- **The loop is behind a unit where it was before it.** -/
theorem checkLoop_unit {u : List RequestMessageType} (h : RequestUnit u)
    (rest : List RequestMessageType) : checkLoop false (u ++ rest) = checkLoop false rest := by
  cases h with
  | query => rfl
  | @batch ms h =>
    rw [List.append_assoc, checkLoop_batch false _ fun m hm => mem_batch_iff.mp (h m hm)]
    rfl

theorem checkLoop_units {ms : List RequestMessageType} (h : RequestUnits ms)
    (rest : List RequestMessageType) : checkLoop false (ms ++ rest) = checkLoop false rest := by
  obtain ⟨units, hunits, rfl⟩ := h
  induction units with
  | nil => rfl
  | cons u units ih =>
    obtain ⟨hu, hunits⟩ := List.forall_mem_cons.mp hunits
    rw [List.flatten_cons, List.append_assoc, checkLoop_unit hu, ih hunits]

/-- What a list can be. -/
inductive RequestShape : List RequestMessageType → Prop where
  | complete {ms} (h : RequestUnits ms) : RequestShape ms
  | mixed {pre batch rest} (h : RequestUnits pre) (hb : OpenBatch batch) :
      RequestShape (pre ++ (batch ++ .query :: rest))
  | unfinished {pre batch} (h : RequestUnits pre) (hb : OpenBatch batch) :
      RequestShape (pre ++ batch)

theorem RequestShape.cons {u ms : List RequestMessageType} (hu : RequestUnit u)
    (h : RequestShape ms) : RequestShape (u ++ ms) := by
  cases h with
  | complete h => exact .complete (h.cons hu)
  | mixed h hb =>
    rw [← List.append_assoc]
    exact .mixed (h.cons hu) hb
  | unfinished h hb =>
    rw [← List.append_assoc]
    exact .unfinished (h.cons hu) hb

/-- **Every list is one of these**: `batch` is what is open so far. -/
theorem requestShape_of_open : ∀ (ms batch : List RequestMessageType),
    (∀ m ∈ batch, m.endsUnit = false) → RequestShape (batch ++ ms)
  | [], [], _ => .complete .nil
  | [], m :: batch, h => by
      rw [List.append_nil]
      exact @RequestShape.unfinished [] _ .nil
        ⟨List.cons_ne_nil _ _, fun x hx => mem_batch_iff.mpr (h x hx)⟩
  | m :: ms, batch, h => by
      cases hm : m.endsUnit with
      | false =>
        have ih := requestShape_of_open ms (batch ++ [m]) (by
          intro x hx
          rcases List.mem_append.mp hx with hx | hx
          · exact h x hx
          · rw [List.mem_singleton.mp hx]
            exact hm)
        rwa [List.append_assoc] at ih
      | true =>
        have hrest := requestShape_of_open ms [] (by simp)
        rw [List.nil_append] at hrest
        cases m with
        | sync =>
          have hu : RequestUnit (batch ++ [.sync]) := .batch fun x hx => mem_batch_iff.mpr (h x hx)
          have hshape := hrest.cons hu
          rwa [List.append_assoc] at hshape
        | query =>
          cases batch with
          | nil => exact RequestShape.cons (u := [.query]) .query hrest
          | cons b batch =>
            exact @RequestShape.mixed [] _ _ .nil
              ⟨List.cons_ne_nil _ _, fun x hx => mem_batch_iff.mpr (h x hx)⟩
        | bind | close | describe | execute | flush | parse => cases hm

theorem requestShape (ms : List RequestMessageType) : RequestShape ms :=
  requestShape_of_open ms [] (by simp)

theorem checkLoop_open {pre batch : List RequestMessageType} (h : RequestUnits pre)
    (hb : OpenBatch batch) (rest : List RequestMessageType) :
    checkLoop false (pre ++ (batch ++ rest)) = checkLoop true rest := by
  rw [checkLoop_units h, checkLoop_batch false rest fun m hm => mem_batch_iff.mp (hb.2 m hm)]
  cases batch with
  | nil => exact absurd rfl hb.1
  | cons m batch => rfl

/-! ## 3. The check -/

theorem checkLoop_of_units {ms : List RequestMessageType} (h : RequestUnits ms) :
    checkLoop false ms = .success := by
  have := checkLoop_units h []
  rwa [List.append_nil] at this

theorem checkLoop_of_mixes {ms : List RequestMessageType} (h : Mixes ms) :
    checkLoop false ms = ClientErrc.requestMixesSimpleAdvancedProtocols.code := by
  obtain ⟨pre, batch, hpre, hbatch, rest, rfl⟩ := h
  rw [List.append_assoc, List.append_assoc, checkLoop_open hpre hbatch]
  rfl

/-- **What the loop says of a list.** -/
theorem checkLoop_cases (ms : List RequestMessageType) :
    (checkLoop false ms = .success ∧ RequestUnits ms) ∨
    (checkLoop false ms = ClientErrc.requestMixesSimpleAdvancedProtocols.code ∧ Mixes ms) ∨
    checkLoop false ms = ClientErrc.requestEndsWithoutSync.code := by
  cases requestShape ms with
  | complete h => exact .inl ⟨checkLoop_of_units h, h⟩
  | @mixed pre batch rest h hb =>
    have hmixes : Mixes (pre ++ (batch ++ .query :: rest)) :=
      ⟨pre, batch, h, hb, rest, by simp⟩
    exact .inr (.inl ⟨checkLoop_of_mixes hmixes, hmixes⟩)
  | @unfinished pre batch h hb =>
    have := checkLoop_open h hb []
    rw [List.append_nil] at this
    exact .inr (.inr this)

theorem checkLoop_success_iff {ms : List RequestMessageType} :
    checkLoop false ms = .success ↔ RequestUnits ms := by
  refine ⟨fun h => ?_, checkLoop_of_units⟩
  rcases checkLoop_cases ms with ⟨-, hunits⟩ | ⟨hmixed, -⟩ | hopen
  · exact hunits
  · rw [hmixed] at h
    cases h
  · rw [hopen] at h
    cases h

theorem checkLoop_mixes_iff {ms : List RequestMessageType} :
    checkLoop false ms = ClientErrc.requestMixesSimpleAdvancedProtocols.code ↔ Mixes ms := by
  refine ⟨fun h => ?_, checkLoop_of_mixes⟩
  rcases checkLoop_cases ms with ⟨hgood, -⟩ | ⟨-, hmixes⟩ | hopen
  · rw [hgood] at h
    cases h
  · exact hmixes
  · rw [hopen] at h
    cases h

/-- **`check_request` accepts exactly its grammar**, and says what is wrong with everything else. Two
    accepted requests, one behind the other, are an accepted one. -/
theorem check_request_exactly (req : Request) :
    (checkRequest req = .success ↔ req.messages ≠ [] ∧ RequestUnits req.messages) ∧
    (checkRequest req = ClientErrc.emptyRequest.code ↔ req.messages = []) ∧
    (checkRequest req = ClientErrc.requestMixesSimpleAdvancedProtocols.code ↔ Mixes req.messages) ∧
    (checkRequest req = ClientErrc.requestEndsWithoutSync.code ↔
      req.messages ≠ [] ∧ ¬RequestUnits req.messages ∧ ¬Mixes req.messages) ∧
    (∀ req' req'' : Request, checkRequest req = .success → checkRequest req' = .success →
      req''.messages = req.messages ++ req'.messages → checkRequest req'' = .success) := by
  have hcheck : ∀ {r : Request}, r.messages ≠ [] → checkRequest r = checkLoop false r.messages := by
    intro r hne
    rw [checkRequest, if_neg (by simpa using hne)]
  have hempty : ∀ {r : Request}, r.messages = [] → checkRequest r = ClientErrc.emptyRequest.code := by
    intro r hnil
    rw [checkRequest, hnil]
    rfl
  have hsuccess : ∀ {r : Request},
      checkRequest r = .success ↔ r.messages ≠ [] ∧ RequestUnits r.messages := by
    intro r
    by_cases hnil : r.messages = []
    · rw [hempty hnil]
      exact iff_of_false (by decide) fun h => h.1 hnil
    · rw [hcheck hnil, checkLoop_success_iff]
      exact (and_iff_right hnil).symm
  have hnot_mixes : ¬Mixes [] := by
    intro h
    obtain ⟨pre, batch, -, -, hprefix⟩ := h
    simp at hprefix
  refine ⟨hsuccess, ?_, ?_, ?_, fun req' req'' h h' heq => ?_⟩
  · refine ⟨fun h => ?_, hempty⟩
    by_contra hne
    rw [hcheck hne] at h
    rcases checkLoop_cases req.messages with ⟨hcode, -⟩ | ⟨hcode, -⟩ | hcode <;> rw [hcode] at h <;>
      cases h
  · by_cases hnil : req.messages = []
    · rw [hempty hnil, hnil]
      exact iff_of_false (by decide) hnot_mixes
    · rw [hcheck hnil, checkLoop_mixes_iff]
  · by_cases hnil : req.messages = []
    · rw [hempty hnil]
      exact iff_of_false (by decide) fun h => h.1 hnil
    · rw [hcheck hnil, ← checkLoop_success_iff, ← checkLoop_mixes_iff]
      rcases checkLoop_cases req.messages with ⟨hcode, -⟩ | ⟨hcode, -⟩ | hcode
      · rw [hcode]
        exact iff_of_false (by decide) fun h => h.2.1 rfl
      · rw [hcode]
        exact iff_of_false (by decide) fun h => h.2.2 rfl
      · rw [hcode]
        exact iff_of_true rfl ⟨hnil, by decide, by decide⟩
  · obtain ⟨hne, hunits⟩ := hsuccess.mp h
    obtain ⟨-, hunits'⟩ := hsuccess.mp h'
    refine hsuccess.mpr ⟨?_, ?_⟩
    · rw [heq]
      exact List.append_ne_nil_of_left_ne_nil hne _
    · rw [heq]
      exact hunits.append hunits'

end NativePg
