/-
  File:      NativePg/Responses/SetupExact.lean
  Subject:   What `resultset_setup` recognises, and what its comment says it does.

  The comment of `resultset_setup` (src/responses.cpp) says: a query, or an extended query sequence
  with one describe and one execute, "but no sync messages in between". The code differs in two
  places: it reads `*it` where only syncs and flushes are left, and it passes over syncs inside an
  extended query sequence.

  * `Taken.setup`, `Taken.unique` -- the code takes what can be taken, and that is one slice;
  * `Documented`, `SyncInside` -- the shape of the comment, and what the code takes beside it;
  * `RunsOut` -- the requests on which `resultsets_handler::setup` reads past the end;
  * **`resultset_setup_exactly`** -- where the code does what its comment says.
-/
import NativePg.Lib.Delimited
import NativePg.Responses.Setup

namespace NativePg

namespace Responses

open Delimited

/-! ## 1. What the code takes -/

theorem resultsetLoop_quiet : ∀ {pre : List RequestMessageType} (describeFound : Bool)
    (ms : List RequestMessageType), (∀ m ∈ pre, isQuiet m = true) →
    resultsetLoop describeFound (pre ++ ms) = resultsetLoop describeFound ms
  | [], _, _, _ => rfl
  | m :: pre, describeFound, ms, h => by
      have ih := resultsetLoop_quiet describeFound ms fun x hx => h x (List.mem_cons_of_mem _ hx)
      have hm := h m (by simp)
      cases m with
      | sync | flush | parse | bind => exact ih
      | query | close | describe | execute => cases hm

/-- Where there is a describe and an execute, the loop finds them. -/
theorem resultsetLoop_extended {pre mid : List RequestMessageType} (rest : List RequestMessageType)
    (hpre : ∀ m ∈ pre, isQuiet m = true) (hmid : ∀ m ∈ mid, isQuiet m = true) :
    resultsetLoop false (pre ++ .describe :: (mid ++ .execute :: rest)) = some rest := by
  rw [resultsetLoop_quiet false _ hpre]
  exact resultsetLoop_quiet true _ hmid

section
variable {off : Nat} {slice slice' rest rest' : List RequestMessageType}

/-- **What can be taken is taken.** -/
theorem Taken.setup (h : Taken slice rest) (req : Request) (hoff : off ≤ req.messages.length)
    (hdrop : req.messages.drop off = slice ++ rest) :
    resultsetSetup req off = .ok (.success, req.messages.length - rest.length) := by
  cases h with
  | @query pre _ hpre =>
    have hit : (req.messages.drop off).dropWhile isSyncOrFlush = .query :: rest := by
      rw [hdrop, List.append_assoc]
      exact dropWhile_append_cons_of_pos hpre rfl
    rw [resultsetSetup, if_neg (by omega), hit]
  | @extended pre mid post _ hpre hmid hpost hrest =>
    have hpre' : ∀ m ∈ pre.dropWhile isSyncOrFlush, isQuiet m = true := fun m hm =>
      hpre m ((List.dropWhile_sublist _).subset hm)
    have hpost' : (post ++ rest).dropWhile isSyncOrFlush = rest := by
      rw [List.dropWhile_append_of_pos hpost]
      cases rest with
      | nil => rfl
      | cons m rest => exact List.dropWhile_cons_of_neg (by rw [hrest m rfl]; decide)
    have hit : (req.messages.drop off).dropWhile isSyncOrFlush =
        pre.dropWhile isSyncOrFlush ++ .describe :: (mid ++ .execute :: (post ++ rest)) := by
      rw [hdrop]
      simp only [List.append_assoc, List.cons_append]
      exact dropWhile_append_cons rfl
    obtain ⟨m, it, hcons, hquery⟩ : ∃ m it, pre.dropWhile isSyncOrFlush ++
        .describe :: (mid ++ .execute :: (post ++ rest)) = m :: it ∧ m ≠ .query := by
      cases heq : pre.dropWhile isSyncOrFlush with
      | nil => exact ⟨_, _, rfl, by decide⟩
      | cons m it =>
        refine ⟨m, _, rfl, ?_⟩
        intro hm
        have := hpre' m (by rw [heq]; simp)
        rw [hm] at this
        cases this
    rw [resultsetSetup_of_ne_query hoff (hit.trans hcons) hquery, ← hcons,
      resultsetLoop_extended _ hpre' hmid]
    simp only [hpost']

theorem success_ne_incompatible :
    ErrorCode.success ≠ ClientErrc.incompatibleResponseType.code := by decide

theorem Taken.not_incompatible {req : Request} (h : Taken slice rest)
    (hoff : off ≤ req.messages.length) (hdrop : req.messages.drop off = slice ++ rest) :
    resultsetSetup req off ≠ .ok (ClientErrc.incompatibleResponseType.code, 0) := by
  rw [h.setup req hoff hdrop]
  intro heq
  exact success_ne_incompatible (congrArg Prod.fst (Except.ok.inj heq))

/-- **There is one slice to take.** -/
theorem Taken.unique (h : Taken slice rest) (h' : Taken slice' rest')
    (heq : slice ++ rest = slice' ++ rest') : slice = slice' ∧ rest = rest' := by
  have hsetup := h.setup { messages := slice ++ rest } (Nat.zero_le _) rfl
  have hsetup' := h'.setup { messages := slice ++ rest } (Nat.zero_le _) heq
  rw [hsetup] at hsetup'
  have hend := congrArg Prod.snd (Except.ok.inj hsetup')
  have hlength := congrArg List.length heq
  simp only [List.length_append] at hend hlength
  exact List.append_inj' heq (by omega)

end

/-! ## 2. What the comment says -/

/-- The messages the comment names beside the describe and the execute. -/
def isStep : RequestMessageType → Bool
  | .parse | .bind | .flush => true
  | _ => false

theorem isQuiet_of_isStep {m : RequestMessageType} (h : isStep m = true) : isQuiet m = true := by
  cases m <;> first | rfl | cases h

/-- **The shape of the comment**, when `rest` is what stands behind: leading syncs and flushes, and
    one query; or leading syncs and flushes, an extended query sequence without a sync, and all
    syncs and flushes behind it. -/
inductive Documented : List RequestMessageType → List RequestMessageType → Prop where
  | query {pre rest} (hpre : ∀ m ∈ pre, isSyncOrFlush m = true) : Documented (pre ++ [.query]) rest
  | extended {pre a b post rest} (hpre : ∀ m ∈ pre, isSyncOrFlush m = true)
      (ha : ∀ m ∈ a, isStep m = true) (hb : ∀ m ∈ b, isStep m = true)
      (hpost : ∀ m ∈ post, isSyncOrFlush m = true)
      (hrest : ∀ m ∈ rest.head?, isSyncOrFlush m = false) :
      Documented (pre ++ a ++ .describe :: (b ++ .execute :: post)) rest

/-- An extended query sequence with a sync in it: behind its first message that is no sync and no
    flush, and before its execute. -/
def SyncInside (ms : List RequestMessageType) : Prop :=
  ∃ pre mid rest, (∀ m ∈ pre, isQuiet m = true) ∧ (∀ m ∈ mid, isQuiet m = true) ∧
    ms = pre ++ .describe :: (mid ++ .execute :: rest) ∧
    (.sync ∈ pre.dropWhile isSyncOrFlush ∨ .sync ∈ mid)

section
variable {slice rest : List RequestMessageType}

theorem Documented.taken (h : Documented slice rest) : Taken slice rest := by
  cases h with
  | query hpre => exact .query hpre
  | extended hpre ha hb hpost hrest =>
    refine .extended (fun m hm => ?_) (fun m hm => isQuiet_of_isStep (hb m hm)) hpost hrest
    rcases List.mem_append.mp hm with hm | hm
    · exact isQuiet_of_isSyncOrFlush (hpre m hm)
    · exact isQuiet_of_isStep (ha m hm)

/-- What is passed over and is no sync is a message of the comment. -/
theorem isStep_of_isQuiet {ms : List RequestMessageType} (h : ∀ m ∈ ms, isQuiet m = true)
    (hsync : .sync ∉ ms) : ∀ m ∈ ms, isStep m = true := by
  intro m hm
  have hquiet := h m hm
  cases m with
  | sync => exact absurd hm hsync
  | parse | bind | flush => rfl
  | query | close | describe | execute => cases hquiet

theorem Taken.documented (h : Taken slice rest) (hsync : ¬SyncInside (slice ++ rest)) :
    Documented slice rest := by
  cases h with
  | query hpre => exact .query hpre
  | @extended pre mid post _ hpre hmid hpost hrest =>
    have hinside : .sync ∉ pre.dropWhile isSyncOrFlush ∧ .sync ∉ mid := by
      rw [← not_or]
      intro h
      refine hsync ⟨pre, mid, post ++ rest, hpre, hmid, ?_, h⟩
      simp only [List.append_assoc, List.cons_append]
    have hpre' : ∀ m ∈ pre.dropWhile isSyncOrFlush, isQuiet m = true := fun m hm =>
      hpre m ((List.dropWhile_sublist _).subset hm)
    rw [← List.takeWhile_append_dropWhile (p := isSyncOrFlush) (l := pre)]
    exact .extended (fun _ => isSyncOrFlush_of_mem_takeWhile) (isStep_of_isQuiet hpre' hinside.1)
      (isStep_of_isQuiet hmid hinside.2) hpost hrest

theorem SyncInside.not_documented (h : SyncInside (slice ++ rest)) : ¬Documented slice rest := by
  obtain ⟨pre, mid, rest', hpre, hmid, heq, hsync⟩ := h
  intro hdoc
  cases hdoc with
  | query hpre' =>
    rw [List.append_assoc] at heq
    have hcut := cut_unique (fun m hm => isQuiet_of_isSyncOrFlush (hpre' m hm)) rfl hpre rfl heq
    exact absurd hcut.2.1 (by decide)
  | @extended pre' a b post _ hpre' ha hb hpost hrest =>
    simp only [List.append_assoc, List.cons_append] at heq
    rw [← List.append_assoc] at heq
    have hquiet : ∀ m ∈ pre' ++ a, isQuiet m = true := by
      intro m hm
      rcases List.mem_append.mp hm with hm | hm
      · exact isQuiet_of_isSyncOrFlush (hpre' m hm)
      · exact isQuiet_of_isStep (ha m hm)
    obtain ⟨rfl, -, htail⟩ := cut_unique hquiet rfl hpre rfl heq
    obtain ⟨rfl, -, -⟩ := cut_unique (fun m hm => isQuiet_of_isStep (hb m hm)) rfl hmid rfl htail
    rcases hsync with hsync | hsync
    · rw [List.dropWhile_append_of_pos hpre'] at hsync
      exact absurd (ha _ ((List.dropWhile_sublist _).subset hsync)) (by decide)
    · exact absurd (hb _ hsync) (by decide)

/-- An extended query sequence with what follows it can be taken, with syncs in it or without. -/
theorem exists_taken_extended {pre mid : List RequestMessageType} (rest : List RequestMessageType)
    (hpre : ∀ m ∈ pre, isQuiet m = true) (hmid : ∀ m ∈ mid, isQuiet m = true) :
    ∃ slice, pre ++ .describe :: (mid ++ .execute :: rest) =
      slice ++ rest.dropWhile isSyncOrFlush ∧ Taken slice (rest.dropWhile isSyncOrFlush) := by
  refine ⟨pre ++ .describe :: (mid ++ .execute :: rest.takeWhile isSyncOrFlush), ?_,
    .extended hpre hmid (fun _ => isSyncOrFlush_of_mem_takeWhile)
      fun _ => isSyncOrFlush_head_dropWhile rest⟩
  simp only [List.append_assoc, List.cons_append, List.takeWhile_append_dropWhile]

theorem Taken.exists_not_isSyncOrFlush (h : Taken slice rest) :
    ∃ m ∈ slice, isSyncOrFlush m = false := by
  cases h with
  | query hpre => exact ⟨.query, by simp, rfl⟩
  | extended hpre hmid hpost hrest => exact ⟨.describe, by simp, rfl⟩

end

/-- A slice of the documented shape from the offset `off` to `e`. -/
def DocumentedTo (req : Request) (off e : Nat) : Prop :=
  ∃ slice, Splits req.messages off e slice ∧ Documented slice (req.messages.drop e)

/-- **What is expected of `resultset_setup`**: it reads only messages there are, it succeeds exactly
    where there is a slice of the documented shape, with its end, and it returns
    `incompatible_response_type` in every other case. -/
def SetsUpAsDocumented (req : Request) (off : Nat) : Prop :=
  ∃ res, resultsetSetup req off = .ok res ∧
    (∀ e, res = (.success, e) ↔ DocumentedTo req off e) ∧
    ((¬∃ e, DocumentedTo req off e) → res.1 = ClientErrc.incompatibleResponseType.code)

section
variable {req : Request} {off : Nat}

theorem DocumentedTo.of_drop {slice rest : List RequestMessageType}
    (hoff : off ≤ req.messages.length) (hdrop : req.messages.drop off = slice ++ rest)
    (h : Documented slice rest) : DocumentedTo req off (req.messages.length - rest.length) := by
  have hsplits := splits_of_drop hoff hdrop
  refine ⟨slice, hsplits, ?_⟩
  have hrest := hsplits.drop.symm.trans hdrop
  rw [List.append_cancel_left hrest]
  exact h

theorem Splits.end_eq {e : Nat} {slice : List RequestMessageType}
    (h : Splits req.messages off e slice) :
    e = req.messages.length - (req.messages.drop e).length := by
  have hle := h.le
  rw [List.length_drop]
  omega

theorem setsUpAsDocumented_iff (hoff : off ≤ req.messages.length) :
    SetsUpAsDocumented req off ↔
      (∃ m ∈ req.messages.drop off, isSyncOrFlush m = false) ∧
      ¬SyncInside (req.messages.drop off) := by
  constructor
  · intro h
    obtain ⟨res, hres, hsucceeds, -⟩ := h
    rcases resultsetSetup_cases hoff with ⟨-, heq⟩ | ⟨slice, rest, hdrop, htaken, heq⟩ | ⟨hm, heq⟩
    · rw [heq] at hres
      cases hres
    · rw [heq] at hres
      cases hres
      rw [hdrop]
      obtain ⟨m, hm, hnot⟩ := htaken.exists_not_isSyncOrFlush
      refine ⟨⟨m, List.mem_append_left _ hm, hnot⟩, fun hinside => ?_⟩
      obtain ⟨slice', hsplits, hdoc⟩ := (hsucceeds _).mp rfl
      have hsame := htaken.unique hdoc.taken (hdrop.symm.trans hsplits.drop)
      rw [← hsame.1, ← hsame.2] at hdoc
      exact hinside.not_documented hdoc
    · refine ⟨hm, fun hinside => ?_⟩
      obtain ⟨pre, mid, rest, hpre, hmid, hdrop, -⟩ := hinside
      obtain ⟨slice, hsplit, htaken⟩ := exists_taken_extended rest hpre hmid
      exact htaken.not_incompatible hoff (hdrop.trans hsplit) heq
  · intro h
    obtain ⟨⟨m, hm, hnot⟩, hinside⟩ := h
    rcases resultsetSetup_cases hoff with ⟨hall, -⟩ | ⟨slice, rest, hdrop, htaken, heq⟩ | ⟨-, heq⟩
    · rw [hall m hm] at hnot
      cases hnot
    · rw [hdrop] at hinside
      have hdoc := DocumentedTo.of_drop hoff hdrop (htaken.documented hinside)
      refine ⟨_, heq, fun e => ⟨fun h => ?_, fun h => ?_⟩, fun h => absurd ⟨_, hdoc⟩ h⟩
      · cases h
        exact hdoc
      · obtain ⟨slice', hsplits, hdoc'⟩ := h
        have hsame := htaken.unique hdoc'.taken (hdrop.symm.trans hsplits.drop)
        rw [hsplits.end_eq, hsame.2]
    · refine ⟨_, heq, fun e => ⟨fun h => ?_, fun h => ?_⟩, fun _ => rfl⟩
      · exact absurd (congrArg Prod.fst h).symm success_ne_incompatible
      · obtain ⟨slice, hsplits, hdoc⟩ := h
        exact absurd heq (hdoc.taken.not_incompatible hoff hsplits.drop)

end

/-! ## 3. The loop of `resultsets_handler::setup` -/

/-- The messages are resultsets, the last of them is a query, and behind it there are syncs and
    flushes only, at least one. -/
def EndsBehindQuery (ms : List RequestMessageType) : Prop :=
  ∃ (slices : List (List RequestMessageType)) (pre post : List RequestMessageType),
    (∀ s ∈ slices, ResultsetSlice s) ∧ (∀ m ∈ pre, isSyncOrFlush m = true) ∧
    post ≠ [] ∧ (∀ m ∈ post, isSyncOrFlush m = true) ∧
    ms = slices.flatten ++ (pre ++ .query :: post)

/-- **The requests on which the loop reads past the end**: it reaches an offset from which on there
    are syncs and flushes only. -/
def RunsOut (ms : List RequestMessageType) : Prop :=
  (∀ m ∈ ms, isSyncOrFlush m = true) ∨ EndsBehindQuery ms

theorem EndsBehindQuery.exists_not_isSyncOrFlush {ms : List RequestMessageType}
    (h : EndsBehindQuery ms) : ∃ m ∈ ms, isSyncOrFlush m = false := by
  obtain ⟨slices, pre, post, -, -, -, -, rfl⟩ := h
  exact ⟨.query, by simp, rfl⟩

theorem ResultsetSlice.exists_taken {slice : List RequestMessageType} (h : ResultsetSlice slice)
    (rest : List RequestMessageType) :
    ∃ slice' rest', slice ++ rest = slice' ++ rest' ∧ Taken slice' rest' := by
  cases h with
  | query hpre => exact ⟨_, rest, rfl, .query hpre⟩
  | @extended pre mid post hpre hmid hpost =>
    obtain ⟨slice, hsplit, htaken⟩ := exists_taken_extended (post ++ rest) hpre hmid
    refine ⟨slice, _, ?_, htaken⟩
    simpa only [List.append_assoc, List.cons_append] using hsplit

theorem EndsBehindQuery.exists_taken {ms : List RequestMessageType} (h : EndsBehindQuery ms) :
    ∃ slice rest, ms = slice ++ rest ∧ Taken slice rest := by
  obtain ⟨slices, pre, post, hslices, hpre, -, -, rfl⟩ := h
  cases slices with
  | nil => exact ⟨pre ++ [.query], post, by simp, .query hpre⟩
  | cons s slices =>
    rw [List.flatten_cons, List.append_assoc]
    exact (hslices s (by simp)).exists_taken _

/-- Leading syncs and flushes do not matter. -/
theorem EndsBehindQuery.dropWhile {ms : List RequestMessageType} (h : EndsBehindQuery ms) :
    EndsBehindQuery (ms.dropWhile isSyncOrFlush) := by
  obtain ⟨slices, pre, post, hslices, hpre, hne, hpost, rfl⟩ := h
  cases slices with
  | nil =>
    refine ⟨[], [], post, by simp, by simp, hne, hpost, ?_⟩
    exact dropWhile_append_cons_of_pos hpre rfl
  | cons s slices =>
    have hs := hslices s (by simp)
    have hslices' : ∀ s ∈ slices, ResultsetSlice s := fun s hs =>
      hslices s (List.mem_cons_of_mem _ hs)
    cases hs with
    | @query lead hlead =>
      refine ⟨[.query] :: slices, pre, post, ?_, hpre, hne, hpost, ?_⟩
      · intro s hs
        rcases List.mem_cons.mp hs with rfl | hs
        · exact @ResultsetSlice.query [] (by simp)
        · exact hslices' s hs
      · simp only [List.flatten_cons, List.append_assoc]
        exact dropWhile_append_cons_of_pos hlead rfl
    | @extended lead mid tail hlead hmid htail =>
      refine ⟨(lead.dropWhile isSyncOrFlush ++ .describe :: (mid ++ .execute :: tail)) :: slices,
        pre, post, ?_, hpre, hne, hpost, ?_⟩
      · intro s hs
        rcases List.mem_cons.mp hs with rfl | hs
        · exact .extended (fun m hm => hlead m ((List.dropWhile_sublist _).subset hm)) hmid htail
        · exact hslices' s hs
      · simp only [List.flatten_cons, List.append_assoc, List.cons_append]
        exact dropWhile_append_cons rfl

/-- **One turn of the loop.** -/
theorem Taken.runsOut_iff {slice rest : List RequestMessageType} (h : Taken slice rest) :
    RunsOut (slice ++ rest) ↔ rest ≠ [] ∧ RunsOut rest := by
  constructor
  · intro hruns
    rcases hruns with hall | ⟨slices, pre, post, hslices, hpre, hne, hpost, heq⟩
    · obtain ⟨m, hm, hnot⟩ := h.exists_not_isSyncOrFlush
      rw [hall m (List.mem_append_left _ hm)] at hnot
      cases hnot
    · cases slices with
      | nil =>
        have hsame := h.unique (Taken.query hpre) (heq.trans (by simp; rfl))
        rw [hsame.2]
        exact ⟨hne, .inl hpost⟩
      | cons s slices =>
        have hbehind : EndsBehindQuery (slices.flatten ++ (pre ++ .query :: post)) :=
          ⟨slices, pre, post, fun s hs => hslices s (List.mem_cons_of_mem _ hs), hpre, hne, hpost,
            rfl⟩
        rw [List.flatten_cons, List.append_assoc] at heq
        cases hslices s (by simp) with
        | query hlead =>
          have hsame := h.unique (Taken.query hlead) heq
          rw [hsame.2]
          exact ⟨by simp, .inr hbehind⟩
        | extended hlead hmid htail =>
          simp only [List.append_assoc, List.cons_append] at heq
          obtain ⟨slice', hsplit, htaken⟩ := exists_taken_extended _ hlead hmid
          have hsame := h.unique htaken (heq.trans hsplit)
          rw [hsame.2, List.dropWhile_append_of_pos htail]
          have hends := hbehind.dropWhile
          refine ⟨?_, .inr hends⟩
          obtain ⟨m, hm, -⟩ := hends.exists_not_isSyncOrFlush
          exact List.ne_nil_of_mem hm
  · intro hrest
    obtain ⟨hne, hall | ⟨slices, pre, post, hslices, hpre, hpost, hsf, rfl⟩⟩ := hrest
    · cases h with
      | @query pre _ hpre =>
        refine .inr ⟨[], pre, rest, by simp, hpre, hne, hall, ?_⟩
        simp
      | extended _ _ _ hhead =>
        cases rest with
        | nil => exact absurd rfl hne
        | cons m rest =>
          have hm := hhead m rfl
          rw [hall m (by simp)] at hm
          cases hm
    · refine .inr ⟨slice :: slices, pre, post, ?_, hpre, hpost, hsf, ?_⟩
      · intro s hs
        rcases List.mem_cons.mp hs with rfl | hs
        · exact h.resultsetSlice
        · exact hslices s hs
      · rw [List.flatten_cons, List.append_assoc]

theorem resultsetsLoop_ok_iff {req : Request} : ∀ {n off : Nat}, off ≤ req.messages.length →
    req.messages.length - off < n →
    ((∃ res, resultsetsLoop req n off = .ok res) ↔ ¬RunsOut (req.messages.drop off))
  | 0, _, _, hn => absurd hn (Nat.not_lt_zero _)
  | n + 1, off, hoff, hn => by
      unfold resultsetsLoop
      rcases resultsetSetup_cases hoff with ⟨hall, heq⟩ | ⟨slice, rest, hdrop, htaken, heq⟩ |
        ⟨⟨m, hm, hnot⟩, heq⟩
      · rw [heq]
        constructor
        · intro h
          obtain ⟨res, hres⟩ := h
          cases hres
        · intro h
          exact absurd (.inl hall) h
      · have hsplits := splits_of_drop hoff hdrop
        have hrest := List.append_cancel_left (hsplits.drop.symm.trans hdrop)
        have hlength : 0 < slice.length := by
          obtain ⟨m, hm, -⟩ := htaken.exists_not_isSyncOrFlush
          exact List.length_pos_of_mem hm
        have hend := hsplits.length
        rw [heq, hdrop, htaken.runsOut_iff]
        simp only [bind, Except.bind]
        by_cases hnil : rest = []
        · subst hnil
          rw [if_pos (by simp)]
          simp [pure, Except.pure]
        · have hlt : 0 < rest.length := List.length_pos_iff.mpr hnil
          have hle : rest.length ≤ req.messages.length := by
            have := congrArg List.length hrest
            rw [List.length_drop] at this
            omega
          rw [if_neg (by
            simp only [ErrorCode.failed, Bool.or_eq_true, decide_eq_true_eq, not_or]
            exact ⟨by decide, by omega⟩)]
          rw [resultsetsLoop_ok_iff hsplits.le (by omega), hrest]
          simp [hnil]
      · rw [heq]
        simp only [bind, Except.bind, ClientErrc.failed_code, Bool.true_or, if_true]
        refine ⟨fun _ hruns => ?_, fun _ => ⟨_, rfl⟩⟩
        rcases hruns with hall | hends
        · rw [hall m hm] at hnot
          cases hnot
        · obtain ⟨slice, rest, hdrop, htaken⟩ := hends.exists_taken
          exact htaken.not_incompatible hoff hdrop heq

/-! ## 4. Where the code does what its comment says -/

/-- **Exactly where**: `resultset_setup` does what is documented where there is a message that is no
    sync and no flush, and no sync inside an extended query sequence; and the loop of
    `resultsets_handler::setup` stays within the messages unless it ends behind a query with syncs
    and flushes only. -/
theorem resultset_setup_exactly {V : Type} {req : Request} {off : Nat}
    (hoff : off ≤ req.messages.length) :
    (SetsUpAsDocumented req off ↔
      (∃ m ∈ req.messages.drop off, isSyncOrFlush m = false) ∧
      ¬SyncInside (req.messages.drop off)) ∧
    ∀ (h : ResultsetsHandler) (w : World V),
      (∃ r, (Handler.resultsetsHandler h).setup req off w = .ok r) ↔
        ¬RunsOut (req.messages.drop off) := by
  refine ⟨setsUpAsDocumented_iff hoff, fun h w => ?_⟩
  rw [← resultsetsLoop_ok_iff hoff (Nat.lt_succ_of_le (Nat.sub_le _ _)), Handler.setup_eq]
  simp only [Handler.setupResult]
  cases resultsetsLoop req (req.messages.length + 1) off with
  | error e =>
    constructor
    · intro h
      obtain ⟨r, hr⟩ := h
      cases hr
    · intro h
      obtain ⟨r, hr⟩ := h
      cases hr
  | ok res => exact ⟨fun _ => ⟨res, rfl⟩, fun _ => ⟨_, rfl⟩⟩

/-- A request with one query. -/
theorem resultset_setup_exactly_query :
    SetsUpAsDocumented { messages := [.query] } 0 ∧
    ∀ (h : ResultsetsHandler) (w : World Unit),
      ∃ r, (Handler.resultsetsHandler h).setup { messages := [.query] } 0 w = .ok r := by
  have hexactly := @resultset_setup_exactly Unit { messages := [.query] } 0 (by decide)
  refine ⟨hexactly.1.mpr ⟨⟨.query, by decide, rfl⟩, ?_⟩, fun h w => (hexactly.2 h w).mpr ?_⟩
  · intro h
    obtain ⟨pre, mid, rest, -, -, heq, -⟩ := h
    have hlength := congrArg List.length heq
    simp only [List.drop_zero, List.length_append, List.length_cons, List.length_nil] at hlength
    omega
  · intro h
    rcases h with hall | ⟨slices, pre, post, -, -, hne, -, heq⟩
    · exact absurd (hall .query (by decide)) (by decide)
    · have hlength := congrArg List.length heq
      have hpos := List.length_pos_iff.mpr hne
      simp only [List.drop_zero, List.length_append, List.length_cons, List.length_nil] at hlength
      omega

/-- A query and a sync: a second call, at offset 1, reads past the end, and so does
    `resultsets_handler::setup`. A sync behind the parse: the sequence is taken all the same. -/
theorem query_then_sync_runs_out :
    Request.Accepted { messages := [.query, .sync] } ∧
    ¬SetsUpAsDocumented { messages := [.query, .sync] } 1 ∧
    (∀ (h : ResultsetsHandler) (w : World Unit),
      (Handler.resultsetsHandler h).setup { messages := [.query, .sync] } 0 w =
        .error .undefined) ∧
    Request.Accepted { messages := [.parse, .sync, .bind, .describe, .execute, .sync] } ∧
    resultsetSetup { messages := [.parse, .sync, .bind, .describe, .execute, .sync] } 0 =
      .ok (.success, 6) ∧
    ¬SetsUpAsDocumented { messages := [.parse, .sync, .bind, .describe, .execute, .sync] } 0 := by
  refine ⟨by decide, ?_, fun _ _ => rfl, by decide, by decide, ?_⟩
  · rw [setsUpAsDocumented_iff (by decide)]
    intro h
    exact absurd h.1 (by decide)
  · rw [setsUpAsDocumented_iff (by decide)]
    intro h
    exact h.2 ⟨[.parse, .sync, .bind], [], [.sync], by decide, by decide, rfl, .inl (by decide)⟩

end Responses

end NativePg
