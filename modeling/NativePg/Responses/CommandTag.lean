/-
  File:      NativePg/Responses/CommandTag.lean
  Subject:   Command tags: the grammar `parse_command_complete_tag` reads, and that it stays within
             the tag.

  * `parseAffectedRowsAt`, `parseCommandCompleteTagAt` -- the two functions over positions in the
    tag, with the reads they make; `parseCommandCompleteTagAt_eq`: no read is outside, and the
    result is the one of `parseCommandCompleteTag`, which is over the rests of the tag;
  * `CountedTag` -- the tags with a number of rows, `Keyworded` -- the tags that begin with one of
    the commands;
  * **`command_tag_exactly`** -- the number and the code for every tag.
-/
import NativePg.Lib.Decimal
import NativePg.Responses.Model

namespace NativePg

namespace Responses

open Decimal (AllDigits value)

/-! ## 1. Positions in the tag -/

/-- `*p`. -/
def charAt (tag : Bytes) (p : Nat) : Checked UInt8 :=
  match tag[p]? with
  | some c => .ok c
  | none => .error .outOfRange

/-- `skip_prefix`, as a position. -/
def skipPrefixAt (tag pre : Bytes) : Option Nat :=
  if pre.isPrefixOf tag then some pre.length else none

/-- `parse_affected_rows`; the output is what it was where there is an error. -/
def parseAffectedRowsAt (tag : Bytes) (p : Nat) (output : Option Nat) :
    Checked (ErrorCode × Option Nat) :=
  if tag.length < p then .error .outOfRange
  else
    match fromChars (tag.drop p) with
    | .error ec => .ok (ec, output)
    | .ok (num, rest) =>
        -- `ptr != end`
        if tag.length - rest.length ≠ tag.length then .ok (ClientErrc.extraBytes.code, output)
        else .ok (.success, some num)

/-- `while (true)`: the position behind the OID and its space; `none` at the end of the tag. -/
def skipOid (tag : Bytes) (p : Nat) : Checked (Option Nat) :=
  if p = tag.length then .ok none
  else
    match _h : tag[p]? with
    | none => .error .outOfRange
    | some c => if c = 32 then .ok (some (p + 1)) else skipOid tag (p + 1)
termination_by tag.length - p
decreasing_by
  have hlt := (List.getElem?_eq_some_iff.mp _h).1
  omega

/-- `parse_command_complete_tag`. -/
def parseCommandCompleteTagAt (tag : Bytes) (_output : Option Nat) :
    Checked (ErrorCode × Option Nat) :=
  -- `output.reset()`
  let output : Option Nat := none
  match skipPrefixAt tag (ascii "INSERT") with
  | some p =>
      if p = tag.length then .ok (ClientErrc.incompleteMessage.code, output)
      else do
        let c ← charAt tag p
        if c ≠ 32 then pure (.success, output)
        else
          match ← skipOid tag (p + 1) with
          | none => pure (ClientErrc.incompleteMessage.code, output)
          | some p => parseAffectedRowsAt tag p output
  | none =>
      match ["DELETE", "UPDATE", "MERGE", "SELECT", "MOVE", "FETCH", "COPY"].findSome?
          (skipPrefixAt tag <| ascii ·) with
      | some p =>
          if p = tag.length then .ok (ClientErrc.incompleteMessage.code, output)
          else do
            let c ← charAt tag p
            if c ≠ 32 then pure (.success, output) else parseAffectedRowsAt tag (p + 1) output
      | none => .ok (.success, output)

section
variable {tag : Bytes} {p : Nat}

theorem skipPrefix_eq_map (tag pre : Bytes) :
    skipPrefix tag pre = (skipPrefixAt tag pre).map tag.drop := by
  unfold skipPrefix skipPrefixAt
  split <;> rfl

theorem le_of_skipPrefixAt {pre : Bytes} (h : skipPrefixAt tag pre = some p) : p ≤ tag.length := by
  unfold skipPrefixAt at h
  split at h
  · rename_i hpre
    cases h
    exact (List.isPrefixOf_iff_prefix.mp hpre).length_le
  · cases h

theorem parseAffectedRowsAt_eq (h : p ≤ tag.length) :
    parseAffectedRowsAt tag p none = .ok (parseAffectedRows (tag.drop p)) := by
  unfold parseAffectedRowsAt parseAffectedRows
  rw [if_neg (Nat.not_lt.mpr h)]
  cases hchars : fromChars (tag.drop p) with
  | error ec => rfl
  | ok r =>
    obtain ⟨num, rest⟩ := r
    have hrest : rest.length ≤ (tag.drop p).length := by
      unfold fromChars at hchars
      simp only at hchars
      split at hchars
      · cases hchars
      · split at hchars
        · cases hchars
          exact (List.dropWhile_sublist _).length_le
        · cases hchars
    rw [List.length_drop] at hrest
    cases rest with
    | nil => simp
    | cons c rest =>
      have hne : tag.length - (c :: rest).length ≠ tag.length := by
        rw [List.length_cons] at hrest ⊢
        omega
      simp only [if_pos hne]

/-- The loop finds the first space from its position on. -/
theorem skipOid_eq (h : p ≤ tag.length) :
    (∃ oid rest, tag.drop p = oid ++ 32 :: rest ∧ (32 : UInt8) ∉ oid ∧
      skipOid tag p = .ok (some (p + oid.length + 1))) ∨
    ((32 : UInt8) ∉ tag.drop p ∧ skipOid tag p = .ok none) := by
  induction hn : tag.length - p generalizing p with
  | zero =>
    have hp : p = tag.length := by omega
    right
    rw [skipOid, if_pos hp, hp, List.drop_length]
    exact ⟨List.not_mem_nil, rfl⟩
  | succ n ih =>
    have hlt : p < tag.length := by omega
    have hget : tag[p]? = some tag[p] := List.getElem?_eq_getElem hlt
    have hdrop : tag.drop p = tag[p] :: tag.drop (p + 1) := (List.getElem_cons_drop hlt).symm
    have hstep : skipOid tag p = if tag[p] = 32 then .ok (some (p + 1)) else skipOid tag (p + 1) := by
      rw [skipOid, if_neg (Nat.ne_of_lt hlt)]
      split
      · rename_i hnone
        rw [hget] at hnone
        cases hnone
      · rename_i c hc
        rw [hget] at hc
        cases hc
        rfl
    rw [hstep]
    by_cases hspace : tag[p] = 32
    · left
      refine ⟨[], tag.drop (p + 1), ?_, List.not_mem_nil, ?_⟩
      · rw [hdrop, hspace]
        rfl
      · rw [if_pos hspace]
        rfl
    · rw [if_neg hspace]
      rcases @ih (p + 1) (by omega) (by omega) with ⟨oid, rest, hrest, hoid, hskip⟩ | ⟨hno, hskip⟩
      · left
        refine ⟨tag[p] :: oid, rest, by rw [hdrop, hrest]; rfl, ?_, ?_⟩
        · simpa [Ne.symm hspace] using hoid
        · rw [hskip, List.length_cons]
          congr 2
          omega
      · right
        refine ⟨?_, hskip⟩
        rw [hdrop, List.mem_cons]
        exact not_or.mpr ⟨Ne.symm hspace, hno⟩

theorem charAt_eq (h : p < tag.length) : charAt tag p = .ok tag[p] := by
  unfold charAt
  rw [List.getElem?_eq_getElem h]

/-- What comes behind a command: a space, and what `f` reads. -/
def behindCommand (f : Bytes → ErrorCode × Option Nat) : Bytes → ErrorCode × Option Nat
  | [] => (ClientErrc.incompleteMessage.code, none)
  | c :: p => if c ≠ 32 then (.success, none) else f p

/-- The OID of INSERT is not looked at. -/
def behindOid (p : Bytes) : ErrorCode × Option Nat :=
  match p.dropWhile (· ≠ 32) with
  | [] => (ClientErrc.incompleteMessage.code, none)
  | _ :: p => parseAffectedRows p

/-- **What the tag begins with decides** which of them reads on. -/
theorem parseCommandCompleteTag_eq (tag : Bytes) : parseCommandCompleteTag tag =
    match skipPrefix tag (ascii "INSERT") with
    | some rest => behindCommand behindOid rest
    | none =>
        match ["DELETE", "UPDATE", "MERGE", "SELECT", "MOVE", "FETCH", "COPY"].findSome?
            (skipPrefix tag <| ascii ·) with
        | some rest => behindCommand parseAffectedRows rest
        | none => (.success, none) := by
  unfold parseCommandCompleteTag
  cases skipPrefix tag (ascii "INSERT") with
  | some rest =>
    cases rest with
    | nil => rfl
    | cons c p => rfl
  | none =>
    cases ["DELETE", "UPDATE", "MERGE", "SELECT", "MOVE", "FETCH", "COPY"].findSome?
        fun k => skipPrefix tag (ascii k) with
    | some rest =>
      cases rest with
      | nil => rfl
      | cons c p => rfl
    | none => rfl

/-- Behind a command, no read is outside of the tag. -/
theorem behindCommandAt_eq {r : Checked (ErrorCode × Option Nat)}
    {f : Bytes → ErrorCode × Option Nat} (hle : p ≤ tag.length)
    (hr : p + 1 ≤ tag.length → r = .ok (f (tag.drop (p + 1)))) :
    (if p = tag.length then Except.ok (ClientErrc.incompleteMessage.code, none)
      else do
        let c ← charAt tag p
        if c ≠ 32 then pure (ErrorCode.success, none) else r) =
      .ok (behindCommand f (tag.drop p)) := by
  by_cases hend : p = tag.length
  · rw [if_pos hend, hend, List.drop_length]
    rfl
  · have hlt : p < tag.length := by omega
    rw [if_neg hend, charAt_eq hlt, ← List.getElem_cons_drop hlt]
    simp only [bind, Except.bind, behindCommand]
    by_cases hspace : tag[p] = 32
    · rw [if_neg (by simp [hspace]), if_neg (by simp [hspace]), hr hlt]
    · rw [if_pos hspace, if_pos hspace]
      rfl

/-- Nor is one in the OID. -/
theorem skipOid_behind (h : p ≤ tag.length) :
    (skipOid tag p >>= fun
      | none => pure (ClientErrc.incompleteMessage.code, none)
      | some p => parseAffectedRowsAt tag p none) = .ok (behindOid (tag.drop p)) := by
  unfold behindOid
  rcases skipOid_eq h with ⟨oid, rest, hrest, hoid, hskip⟩ | ⟨hno, hskip⟩
  · have hbehind : (tag.drop p).dropWhile (· ≠ 32) = 32 :: rest := by
      rw [hrest]
      refine Delimited.dropWhile_append_cons_of_pos (fun c hc => ?_) (by simp)
      exact decide_eq_true fun h => hoid (h ▸ hc)
    have hsplit : tag.drop (p + oid.length + 1) = rest := by
      have hlen : (oid ++ [32]).length = oid.length + 1 := by simp
      rw [Nat.add_assoc p, ← List.drop_drop, hrest, List.append_cons, ← hlen, List.drop_left]
    have hle : p + oid.length + 1 ≤ tag.length := by
      have hlen := congrArg List.length hrest
      rw [List.length_drop, List.length_append, List.length_cons] at hlen
      omega
    rw [hskip, hbehind]
    refine (parseAffectedRowsAt_eq hle).trans ?_
    rw [hsplit]
  · have hbehind : (tag.drop p).dropWhile (· ≠ 32) = [] := by
      rw [List.dropWhile_eq_nil_iff]
      intro c hc
      exact decide_eq_true fun h => hno (h ▸ hc)
    rw [hskip, hbehind]
    rfl

/-- **No read is outside of the tag**, and the output does not depend on what was there before. -/
theorem parseCommandCompleteTagAt_eq (tag : Bytes) (output : Option Nat) :
    parseCommandCompleteTagAt tag output = .ok (parseCommandCompleteTag tag) := by
  have hfind : (["DELETE", "UPDATE", "MERGE", "SELECT", "MOVE", "FETCH", "COPY"].findSome?
      fun k => skipPrefix tag (ascii k)) =
      (["DELETE", "UPDATE", "MERGE", "SELECT", "MOVE", "FETCH", "COPY"].findSome?
        fun k => skipPrefixAt tag (ascii k)).map tag.drop := by
    rw [List.map_findSome?]
    congr 1
    funext k
    exact skipPrefix_eq_map tag (ascii k)
  rw [parseCommandCompleteTag_eq, hfind, skipPrefix_eq_map]
  unfold parseCommandCompleteTagAt
  simp only
  cases hinsert : skipPrefixAt tag (ascii "INSERT") with
  | some p => exact behindCommandAt_eq (le_of_skipPrefixAt hinsert) skipOid_behind
  | none =>
    cases hother : ["DELETE", "UPDATE", "MERGE", "SELECT", "MOVE", "FETCH", "COPY"].findSome?
        fun k => skipPrefixAt tag (ascii k) with
    | none => rfl
    | some p =>
      obtain ⟨k, -, hk⟩ := List.exists_of_findSome?_eq_some hother
      exact behindCommandAt_eq (le_of_skipPrefixAt hk) parseAffectedRowsAt_eq

end

/-! ## 2. The grammar -/

/-- The commands whose tag is the command and a number of rows. -/
def countedCommands : List String := ["DELETE", "UPDATE", "MERGE", "SELECT", "MOVE", "FETCH", "COPY"]

/-- The text is a number below `2 ^ 64` in decimal digits. -/
def IsCount (text : Bytes) (n : Nat) : Prop :=
  text ≠ [] ∧ AllDigits text ∧ value text = n ∧ n < 2 ^ 64

/-- **A tag with a number of rows**; the one of INSERT has another word before it. -/
inductive CountedTag : Bytes → Nat → Prop where
  | plain {command : String} {count : Bytes} {n : Nat} (hc : command ∈ countedCommands)
      (h : IsCount count n) : CountedTag (ascii command ++ 32 :: count) n
  | insert {oid count : Bytes} {n : Nat} (ho : (32 : UInt8) ∉ oid) (h : IsCount count n) :
      CountedTag (ascii "INSERT" ++ 32 :: (oid ++ 32 :: count)) n

/-- **A tag that begins with one of the commands**, followed by a space or by nothing. -/
def Keyworded (tag : Bytes) : Prop :=
  ∃ command ∈ "INSERT" :: countedCommands, tag = ascii command ∨
    ∃ rest, tag = ascii command ++ 32 :: rest

theorem skipPrefix_eq_some {tag pre rest : Bytes} :
    skipPrefix tag pre = some rest ↔ tag = pre ++ rest := by
  unfold skipPrefix
  split
  · rename_i hpre
    obtain ⟨rest', rfl⟩ := List.isPrefixOf_iff_prefix.mp hpre
    rw [List.drop_left, Option.some.injEq]
    exact ⟨fun h => by rw [h], fun h => List.append_cancel_left h⟩
  · rename_i hpre
    refine ⟨nofun, fun h => absurd ?_ hpre⟩
    exact List.isPrefixOf_iff_prefix.mpr ⟨rest, h.symm⟩

/-- No command is the beginning of another one. -/
theorem command_unique {tag : Bytes} {k k' : String} (hk : k ∈ "INSERT" :: countedCommands)
    (hk' : k' ∈ "INSERT" :: countedCommands) (h : ascii k <+: tag) (h' : ascii k' <+: tag) :
    k = k' := by
  have hall : ∀ k ∈ "INSERT" :: countedCommands, ∀ k' ∈ "INSERT" :: countedCommands,
      ascii k <+: ascii k' → k = k' := by decide
  rcases List.prefix_or_prefix_of_prefix h h' with hpre | hpre
  · exact hall k hk k' hk' hpre
  · exact (hall k' hk' k hk hpre).symm

/-- **What a tag begins with decides.** -/
theorem parseCommandCompleteTag_cases (tag : Bytes) :
    (∃ rest, tag = ascii "INSERT" ++ rest ∧ parseCommandCompleteTag tag =
      behindCommand behindOid rest) ∨
    (∃ command ∈ countedCommands, ∃ rest, tag = ascii command ++ rest ∧
      parseCommandCompleteTag tag = behindCommand parseAffectedRows rest) ∨
    ((∀ command ∈ "INSERT" :: countedCommands, ¬ascii command <+: tag) ∧
      parseCommandCompleteTag tag = (.success, none)) := by
  rw [parseCommandCompleteTag_eq]
  cases hinsert : skipPrefix tag (ascii "INSERT") with
  | some rest => exact .inl ⟨rest, skipPrefix_eq_some.mp hinsert, rfl⟩
  | none =>
    right
    cases hother : ["DELETE", "UPDATE", "MERGE", "SELECT", "MOVE", "FETCH", "COPY"].findSome?
        fun k => skipPrefix tag (ascii k) with
    | some rest =>
      obtain ⟨command, hc, hrest⟩ := List.exists_of_findSome?_eq_some hother
      exact .inl ⟨command, hc, rest, skipPrefix_eq_some.mp hrest, rfl⟩
    | none =>
      refine .inr ⟨fun command hc hpre => ?_, rfl⟩
      obtain ⟨rest, hrest⟩ := hpre
      have hsome := skipPrefix_eq_some.mpr hrest.symm
      rcases List.mem_cons.mp hc with rfl | hc
      · rw [hinsert] at hsome
        cases hsome
      · rw [List.findSome?_eq_none_iff.mp hother command hc] at hsome
        cases hsome

/-- `from_chars` reads the digits that are there. -/
theorem fromChars_eq {count rest : Bytes} (hne : count ≠ []) (hdigits : AllDigits count)
    (hends : Decimal.Ends rest) :
    fromChars (count ++ rest) =
      if value count < 2 ^ 64 then .ok (value count, rest) else .error ⟨34, .generic⟩ := by
  have htake : (count ++ rest).takeWhile Decimal.isDigit = count :=
    Decimal.takeWhile_isDigit hdigits hends
  have hdrop : (count ++ rest).dropWhile Decimal.isDigit = rest :=
    Decimal.dropWhile_isDigit hdigits hends
  unfold fromChars
  simp only [htake, hdrop]
  rw [if_neg hne]

/-- Every text is digits and something else. -/
theorem exists_digits (p : Bytes) : ∃ count rest, p = count ++ rest ∧ AllDigits count ∧
    Decimal.Ends rest :=
  ⟨p.takeWhile Decimal.isDigit, p.dropWhile Decimal.isDigit, List.takeWhile_append_dropWhile.symm,
    Decimal.allDigits_takeWhile p, Decimal.ends_dropWhile p⟩

/-- **The number of rows is all that is left of the tag.** -/
theorem parseAffectedRows_iff (p : Bytes) :
    (∀ n, (parseAffectedRows p).2 = some n ↔ IsCount p n) ∧
      ((parseAffectedRows p).1.failed = true ↔ (parseAffectedRows p).2 = none) := by
  obtain ⟨count, rest, rfl, hdigits, hends⟩ := exists_digits p
  unfold parseAffectedRows
  by_cases hne : count = []
  · -- there is no digit
    have hnone : fromChars (count ++ rest) = .error ⟨22, .generic⟩ := by
      have htake : (count ++ rest).takeWhile Decimal.isDigit = count :=
        Decimal.takeWhile_isDigit hdigits hends
      unfold fromChars
      simp only [htake]
      rw [if_pos hne]
    rw [hnone]
    refine ⟨fun n => ⟨nofun, fun h => ?_⟩, ⟨fun _ => rfl, fun _ => rfl⟩⟩
    exact absurd (by rw [hne, hends.eq_nil h.2.1]; rfl) h.1
  · rw [fromChars_eq hne hdigits hends]
    by_cases hfit : value count < 2 ^ 64
    · rw [if_pos hfit]
      cases rest with
      | nil =>
        rw [List.append_nil]
        refine ⟨fun n => ⟨fun h => ?_, fun h => ?_⟩, ⟨nofun, nofun⟩⟩
        · cases h
          exact ⟨hne, hdigits, rfl, hfit⟩
        · rw [← h.2.2.1]
      | cons c rest =>
        refine ⟨fun n => ⟨nofun, fun h => ?_⟩, ⟨fun _ => rfl, fun _ => rfl⟩⟩
        cases hends.eq_nil h.2.1
    · rw [if_neg hfit]
      refine ⟨fun n => ⟨nofun, fun h => ?_⟩, ⟨fun _ => rfl, fun _ => rfl⟩⟩
      obtain ⟨-, hall, hvalue, hlt⟩ := h
      rw [hends.eq_nil hall, List.append_nil] at hvalue
      omega

/-! ## 3. Tags -/

/-- What a reader of counts does: `P` are the texts it accepts, and everything else is an error. -/
def ReadsCount (f : Bytes → ErrorCode × Option Nat) (P : Bytes → Nat → Prop) : Prop :=
  ∀ p, (∀ n, (f p).2 = some n ↔ P p n) ∧ ((f p).1.failed = true ↔ (f p).2 = none)

theorem readsCount_behindOid : ReadsCount behindOid fun p n =>
    ∃ oid count, p = oid ++ 32 :: count ∧ (32 : UInt8) ∉ oid ∧ IsCount count n := by
  intro p
  by_cases hspace : (32 : UInt8) ∈ p
  · obtain ⟨oid, count, rfl, hoid⟩ := List.eq_append_cons_of_mem hspace
    have hpre : ∀ c ∈ oid, decide (c ≠ 32) = true := fun c hc =>
      decide_eq_true fun h => hoid (h ▸ hc)
    have hdrop : (oid ++ 32 :: count).dropWhile (· ≠ 32) = 32 :: count :=
      Delimited.dropWhile_append_cons_of_pos hpre (by simp)
    obtain ⟨hcount, hfailed⟩ := parseAffectedRows_iff count
    have heq : behindOid (oid ++ 32 :: count) = parseAffectedRows count := by
      rw [behindOid, hdrop]
    rw [heq]
    refine ⟨fun n => ?_, hfailed⟩
    rw [hcount]
    refine ⟨fun h => ⟨oid, count, rfl, hoid, h⟩, fun h => ?_⟩
    obtain ⟨oid', count', hsame, hoid', hn⟩ := h
    have hpre' : ∀ c ∈ oid', decide (c ≠ 32) = true := fun c hc =>
      decide_eq_true fun h => hoid' (h ▸ hc)
    obtain ⟨-, -, rfl⟩ := Delimited.cut_unique hpre (by simp) hpre' (by simp) hsame
    exact hn
  · have hdrop : p.dropWhile (· ≠ 32) = [] := by
      rw [List.dropWhile_eq_nil_iff]
      exact fun c hc => decide_eq_true fun h => hspace (h ▸ hc)
    have heq : behindOid p = (ClientErrc.incompleteMessage.code, none) := by
      rw [behindOid, hdrop]
    rw [heq]
    refine ⟨fun n => ⟨nofun, fun h => ?_⟩, ⟨fun _ => rfl, fun _ => ClientErrc.failed_code _⟩⟩
    obtain ⟨oid, count, rfl, -⟩ := h
    exact absurd (by simp) hspace

/-- **Behind a command**, a space and what is read behind it are what counts. -/
theorem behindCommand_iff {f : Bytes → ErrorCode × Option Nat} {P : Bytes → Nat → Prop}
    (hf : ReadsCount f P) (rest : Bytes) :
    (∀ n, (behindCommand f rest).2 = some n ↔ ∃ p, rest = 32 :: p ∧ P p n) ∧
      ((behindCommand f rest).1.failed = true ↔
        (behindCommand f rest).2 = none ∧ (rest = [] ∨ ∃ p, rest = 32 :: p)) := by
  cases rest with
  | nil =>
    refine ⟨fun n => ⟨nofun, fun h => ?_⟩, ⟨fun _ => ⟨rfl, .inl rfl⟩, fun _ => rfl⟩⟩
    obtain ⟨p, h, -⟩ := h
    cases h
  | cons c p =>
    have heq : behindCommand f (c :: p) = if c ≠ 32 then (.success, none) else f p := rfl
    rw [heq]
    by_cases hc : c = 32
    · obtain ⟨hcount, hfailed⟩ := hf p
      rw [if_neg (by simpa using hc), hc, hfailed]
      refine ⟨fun n => ?_, ⟨fun h => ⟨h, .inr ⟨p, rfl⟩⟩, fun h => h.1⟩⟩
      rw [hcount]
      refine ⟨fun h => ⟨p, rfl, h⟩, fun h => ?_⟩
      obtain ⟨p', h, hn⟩ := h
      cases h
      exact hn
    · rw [if_pos hc]
      refine ⟨fun n => ⟨nofun, fun h => ?_⟩, ⟨nofun, fun h => ?_⟩⟩
      · obtain ⟨p', h, -⟩ := h
        exact absurd (List.cons.inj h).1 hc
      · rcases h.2 with h | ⟨p', h⟩
        · cases h
        · exact absurd (List.cons.inj h).1 hc

/-- A tag that begins with a command: what stands behind it says whether a space or nothing does. -/
theorem keyworded_iff {command : String} (hc : command ∈ "INSERT" :: countedCommands) (rest : Bytes) :
    Keyworded (ascii command ++ rest) ↔ rest = [] ∨ ∃ p, rest = 32 :: p := by
  constructor
  · intro h
    obtain ⟨command', hc', htag⟩ := h
    have hpre : ascii command' <+: ascii command ++ rest := by
      rcases htag with htag | ⟨p, htag⟩
      · exact ⟨[], by rw [List.append_nil, htag]⟩
      · exact ⟨32 :: p, htag.symm⟩
    cases command_unique hc hc' ⟨rest, rfl⟩ hpre
    rcases htag with htag | ⟨p, htag⟩
    · exact .inl (by simpa using htag)
    · exact .inr ⟨p, List.append_cancel_left htag⟩
  · intro h
    rcases h with rfl | ⟨p, rfl⟩
    · exact ⟨command, hc, .inl (List.append_nil _)⟩
    · exact ⟨command, hc, .inr ⟨p, rfl⟩⟩

theorem CountedTag.keyword {tag : Bytes} {n : Nat} (h : CountedTag tag n) :
    ∃ command ∈ "INSERT" :: countedCommands, ascii command <+: tag := by
  cases h with
  | plain hc _ => exact ⟨_, List.mem_cons_of_mem _ hc, _, rfl⟩
  | insert _ _ => exact ⟨_, List.mem_cons_self .., _, rfl⟩

theorem countedTag_insert {rest : Bytes} {n : Nat} : CountedTag (ascii "INSERT" ++ rest) n ↔
    ∃ p, rest = 32 :: p ∧
      ∃ oid count, p = oid ++ 32 :: count ∧ (32 : UInt8) ∉ oid ∧ IsCount count n := by
  constructor
  · intro h
    generalize htag : ascii "INSERT" ++ rest = tag at h
    cases h with
    | @plain command count _ hc h =>
      have hsame := command_unique (List.mem_cons_of_mem _ hc) (List.mem_cons_self ..)
        ⟨32 :: count, rfl⟩ ⟨rest, htag⟩
      exact absurd (hsame ▸ hc) (by decide)
    | @insert oid count _ ho h =>
      exact ⟨_, List.append_cancel_left htag, oid, count, rfl, ho, h⟩
  · intro h
    obtain ⟨p, rfl, oid, count, rfl, ho, hn⟩ := h
    exact .insert ho hn

theorem countedTag_plain {command : String} (hc : command ∈ countedCommands) {rest : Bytes}
    {n : Nat} : CountedTag (ascii command ++ rest) n ↔ ∃ p, rest = 32 :: p ∧ IsCount p n := by
  constructor
  · intro h
    generalize htag : ascii command ++ rest = tag at h
    cases h with
    | @plain command' count _ hc' h =>
      cases command_unique (List.mem_cons_of_mem _ hc) (List.mem_cons_of_mem _ hc')
        ⟨rest, htag⟩ ⟨32 :: count, rfl⟩
      exact ⟨count, List.append_cancel_left htag, h⟩
    | @insert oid count _ ho h =>
      have hsame := command_unique (List.mem_cons_of_mem _ hc) (List.mem_cons_self ..)
        ⟨rest, htag⟩ ⟨32 :: (oid ++ 32 :: count), rfl⟩
      exact absurd (hsame ▸ hc) (by decide)
  · intro h
    obtain ⟨p, rfl, hn⟩ := h
    exact .plain hc hn

/-- **The number and the code for every tag**: the output is the number of rows of a tag that has
    one, and empty for every other; an error is only reported for a tag of one of the commands. -/
theorem command_tag_exactly (tag : Bytes) (output : Option Nat) :
    ∃ ec out, parseCommandCompleteTagAt tag output = .ok (ec, out) ∧
      (∀ n, out = some n ↔ CountedTag tag n) ∧
      (ec.failed = true ↔ out = none ∧ Keyworded tag) := by
  refine ⟨(parseCommandCompleteTag tag).1, (parseCommandCompleteTag tag).2,
    parseCommandCompleteTagAt_eq tag output, ?_⟩
  rcases parseCommandCompleteTag_cases tag with
    ⟨rest, rfl, hparse⟩ | ⟨command, hc, rest, rfl, hparse⟩ | ⟨hno, hparse⟩
  · obtain ⟨hcount, hfailed⟩ := behindCommand_iff readsCount_behindOid rest
    rw [hparse, keyworded_iff (List.mem_cons_self ..)]
    refine ⟨fun n => ?_, hfailed⟩
    rw [hcount, countedTag_insert]
  · obtain ⟨hcount, hfailed⟩ := behindCommand_iff (P := IsCount) parseAffectedRows_iff rest
    rw [hparse, keyworded_iff (List.mem_cons_of_mem _ hc)]
    refine ⟨fun n => ?_, hfailed⟩
    rw [hcount, countedTag_plain hc]
  · rw [hparse]
    refine ⟨fun n => ⟨nofun, fun h => ?_⟩, ⟨nofun, fun h => ?_⟩⟩
    · obtain ⟨command, hc, hpre⟩ := h.keyword
      exact absurd hpre (hno command hc)
    · obtain ⟨-, command, hc, rfl | ⟨rest, rfl⟩⟩ := h
      · exact absurd (List.prefix_refl _) (hno command hc)
      · exact absurd (List.prefix_append ..) (hno command hc)

end Responses

end NativePg
