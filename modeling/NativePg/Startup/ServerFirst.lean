/-
  File:      NativePg/Startup/ServerFirst.lean
  Subject:   What the client accepts as the server's first SCRAM message
             (src/nativepg_internal/scram_sha256_messages.hpp).

  * `parseServerFirstAt` -- the parser with its pointer into the message: a read at the end of the
    message or behind it is a fault. `ReadsValue`: what it finds of an attribute, by `readsValue`;
    `parseServerFirstAt_eq`: it computes `parseServerFirst`;
  * `IsServerFirst` -- the grammar. `parseServerFirst_ok_iff`: it is what is accepted;
  * `SaltReadable` -- decoding the salt looks no byte above 127 up.
    `returns_parseServerFirst_iff`: the parser returns there;
  * `server_first_exactly` -- the parser does what RFC 5802 says, unless the message begins with
    `m=`, or with such a salt.
-/
import NativePg.Lib.Decimal
import NativePg.Startup.Base64Exact
import NativePg.Startup.Scram

namespace NativePg

open Base64 (AgreesWith Returns noHighLookup)
open Decimal (AllDigits value)

/-! ## 1. The parser and its pointer -/

namespace ServerFirst

/-- `*p`. -/
def deref (data : Bytes) (p : Nat) : Checked UInt8 :=
  match data[p]? with
  | some c => .ok c
  | none => .error .outOfRange

/-- `p != last && *p == 'm'`, at the start. -/
def beginsWithM (data : Bytes) : Checked Bool :=
  if 0 = data.length then pure false
  else do
    let c ← deref data 0
    pure (c == 109)

/-- `if (p == last || *p++ != c) return invalid`: where `p` is then. -/
def expectAt (data : Bytes) (c : UInt8) (p : Nat) : Checked (Option Nat) :=
  if p = data.length then pure none
  else do
    let c' ← deref data p
    pure (if c' ≠ c then none else some (p + 1))

/-- The two characters an attribute begins with. -/
def attributeAt (data : Bytes) (name : Char) (p : Nat) : Checked (Option Nat) := do
  match ← expectAt data name.toNat.toUInt8 p with
  | none => pure none
  | some p => expectAt data 61 p

/-- The loops that look for the comma behind the nonce and the salt. -/
def findComma (data : Bytes) (accepts : UInt8 → Bool) (p : Nat) : Checked (Option Nat) :=
  if p = data.length then pure none
  else
    match h : data[p]? with
    | none => .error .outOfRange
    | some c =>
      if c = comma then pure (some p)
      else if !accepts c then pure none
      else findComma data accepts (p + 1)
termination_by data.length - p
decreasing_by
  have hlt := (List.getElem?_eq_some_iff.mp h).1
  omega

/-- The bytes from one pointer to another. -/
def slice (data : Bytes) (first last : Nat) : Bytes := (data.take last).drop first

end ServerFirst

open ServerFirst in
/-- `parse(span, server_first_message&)`, with the pointer `p`. -/
def parseServerFirstAt (data : Bytes) : Checked (Except ErrorCode ServerFirstMessage) := do
  let invalid := .error ClientErrc.invalidScramMessage.code
  if ← beginsWithM data then
    if 1 = data.length then pure invalid
    else
      let c ← deref data 1
      pure (if c ≠ comma then invalid
        else .error ClientErrc.mandatoryScramExtensionNotSupported.code)
  else
    match ← attributeAt data 'r' 0 with
    | none => pure invalid
    | some nonceFirst =>
      match ← findComma data scramIsPrintable nonceFirst with
      | none => pure invalid
      | some nonceLast =>
        let nonce := slice data nonceFirst nonceLast
        match ← attributeAt data 's' (nonceLast + 1) with
        | none => pure invalid
        | some saltFirst =>
          match ← findComma data (fun _ => true) saltFirst with
          | none => pure invalid
          | some saltLast =>
            match ← base64Decode (slice data saltFirst saltLast) [] with
            | .error ec => pure (.error ec)
            | .ok salt =>
              match ← attributeAt data 'i' (saltLast + 1) with
              | none => pure invalid
              | some iFirst =>
                match fromCharsU32 ((data.drop iFirst).takeWhile (· ≠ comma)) with
                | none => pure invalid
                | some iterationCount => pure (.ok { nonce, salt, iterationCount })

namespace ServerFirst

section
variable {data front rest : Bytes} {p : Nat} (hdata : data = front ++ rest) (hp : p = front.length)
include hdata hp

/-- The pointer is at the end of the message where nothing is left, and at what is left first. -/
theorem expectAt_eq (c : UInt8) :
    expectAt data c p = .ok (if rest.head? = some c then some (p + 1) else none) := by
  subst hdata hp
  unfold expectAt deref
  match rest with
  | [] => rw [List.append_nil, if_pos rfl]; rfl
  | c' :: rest =>
    rw [if_neg (by simp), List.getElem?_append_right (Nat.le_refl _), Nat.sub_self]
    simp only [List.getElem?_cons_zero, List.head?_cons, Option.some.injEq]
    by_cases h : c' = c
    · simp [h, bind, Except.bind, pure, Except.pure]
    · simp [h, bind, Except.bind, pure, Except.pure]

/-- An attribute's value begins behind its name and `=`. -/
theorem attributeAt_eq (name : Char) :
    attributeAt data name p = .ok ((attribute? name rest).map fun _ => p + 2) := by
  unfold attributeAt
  rw [expectAt_eq hdata hp]
  match rest, hdata with
  | [], _ => rfl
  | c :: rest, hdata =>
    by_cases hc : c = name.toNat.toUInt8
    · subst hc
      have hnext := @expectAt_eq data (front ++ [name.toNat.toUInt8]) rest (p + 1)
        (by simp [hdata]) (by simp [hp]) 61
      simp only [List.head?_cons, if_true, bind, Except.bind]
      rw [hnext]
      match rest with
      | [] => rfl
      | e :: rest =>
        by_cases he : e = 61
        · simp [attribute?, he]
        · simp [attribute?, he]
    · have hnone : attribute? name (c :: rest) = none := by
        match rest with
        | [] => rfl
        | e :: rest => simp [attribute?, hc]
      rw [List.head?_cons, if_neg (by simpa using hc), hnone]
      rfl

end

theorem splitComma_cons {c : UInt8} (h : c ≠ comma) (rest : Bytes) :
    splitComma (c :: rest) = (splitComma rest).map fun (field, p) => (c :: field, p) := by
  unfold splitComma
  by_cases hmem : comma ∈ rest
  · rw [if_pos (by simp [hmem]), if_pos hmem]
    simp [h]
  · rw [if_neg (by simp [hmem, h.symm]), if_neg hmem]
    rfl

/-- The loop finds the comma, unless a character in front of it is not accepted. -/
theorem findComma_eq (accepts : UInt8 → Bool) : ∀ (rest front : Bytes),
    findComma (front ++ rest) accepts front.length =
      .ok ((splitComma rest).bind fun (field, _) =>
        if field.all accepts then some (front.length + field.length) else none)
  | [], front => by
      unfold findComma
      rw [List.append_nil, if_pos rfl]
      rfl
  | c :: rest, front => by
      have hget : (front ++ c :: rest)[front.length]? = some c := by simp
      unfold findComma
      rw [if_neg (by simp)]
      split
      · rename_i h
        rw [hget] at h
        cases h
      · rename_i c' h
        rw [hget] at h
        cases h
        by_cases hc : c = comma
        · subst hc
          have hsplit : splitComma (comma :: rest) = some ([], rest) :=
            splitComma_eq_some.mpr ⟨rfl, List.not_mem_nil⟩
          rw [if_pos rfl, hsplit]
          rfl
        · have hnext := findComma_eq accepts rest (front ++ [c])
          rw [List.append_assoc, List.length_append, List.length_singleton] at hnext
          rw [if_neg hc, splitComma_cons hc]
          cases haccepts : accepts c with
          | false =>
            simp only [Bool.not_false, if_true]
            cases splitComma rest with
            | none => rfl
            | some x =>
              simp only [Option.map_some, Option.bind_some, List.all_cons, haccepts,
                Bool.false_and, Bool.false_eq_true, if_false]
              rfl
          | true =>
            simp only [Bool.not_true, Bool.false_eq_true, if_false]
            refine hnext.trans ?_
            cases splitComma rest with
            | none => rfl
            | some x => simp [haccepts, Nat.add_assoc, Nat.add_comm 1]

/-- The same, with the pointer by its number. -/
theorem findComma_of {data front rest : Bytes} {p : Nat} (hdata : data = front ++ rest)
    (hp : p = front.length) (accepts : UInt8 → Bool) :
    findComma data accepts p = .ok ((splitComma rest).bind fun (field, _) =>
      if field.all accepts then some (p + field.length) else none) := by
  subst hdata hp
  exact findComma_eq accepts rest front

theorem slice_of {data front field rest : Bytes} {p : Nat} (hdata : data = front ++ (field ++ rest))
    (hp : p = front.length) : slice data p (p + field.length) = field := by
  subst hdata hp
  unfold slice
  rw [← List.append_assoc, ← List.length_append, List.take_left, List.drop_left]

/-- **What the parser finds of an attribute** and of the comma that ends its value, where `rest` is
    left of the message: neither, a value with a character that is not accepted, or the value. -/
inductive ReadsValue (data : Bytes) (name : Char) (accepts : UInt8 → Bool) (p : Nat) (rest : Bytes) :
    Prop where
  | missing (hat : attributeAt data name p = .ok none)
      (hvalue : (attribute? name rest).bind splitComma = none)
  | unended {first : Nat} (hat : attributeAt data name p = .ok (some first))
      (hfind : findComma data accepts first = .ok none)
      (hvalue : (attribute? name rest).bind splitComma = none)
  | rejected {first : Nat} {field rest' : Bytes} (hat : attributeAt data name p = .ok (some first))
      (hfind : findComma data accepts first = .ok none)
      (hvalue : (attribute? name rest).bind splitComma = some (field, rest'))
      (hall : field.all accepts = false)
  | found {first last : Nat} {field front' rest' : Bytes}
      (hat : attributeAt data name p = .ok (some first))
      (hfind : findComma data accepts first = .ok (some last))
      (hvalue : (attribute? name rest).bind splitComma = some (field, rest'))
      (hall : field.all accepts = true) (hslice : slice data first last = field)
      (hdata : data = front' ++ rest') (hp : last + 1 = front'.length)

theorem readsValue {data front rest : Bytes} {p : Nat} (hdata : data = front ++ rest)
    (hp : p = front.length) (name : Char) (accepts : UInt8 → Bool) :
    ReadsValue data name accepts p rest := by
  have hat := attributeAt_eq hdata hp name
  cases hattr : attribute? name rest with
  | none =>
    rw [hattr] at hat
    exact .missing hat (by rw [hattr]; rfl)
  | some q =>
    rw [hattr] at hat
    obtain rfl := attribute?_eq_some.mp hattr
    have hbehind : data = (front ++ [name.toNat.toUInt8, 61]) ++ q := by simp [hdata]
    have hfirst : p + 2 = (front ++ [name.toNat.toUInt8, 61]).length := by simp [hp]
    have hfind := findComma_of hbehind hfirst accepts
    cases hsplit : splitComma q with
    | none =>
      rw [hsplit] at hfind
      exact .unended hat hfind (by rw [hattr]; exact hsplit)
    | some x =>
      obtain ⟨field, rest'⟩ := x
      have hvalue : (attribute? name (name.toNat.toUInt8 :: 61 :: q)).bind splitComma =
          some (field, rest') := by
        rw [hattr]
        exact hsplit
      obtain ⟨rfl, _⟩ := splitComma_eq_some.mp hsplit
      simp only [hsplit, Option.bind_some] at hfind
      cases hall : field.all accepts with
      | false =>
        rw [hall, if_neg Bool.false_ne_true] at hfind
        exact .rejected hat hfind hvalue hall
      | true =>
        rw [hall, if_pos rfl] at hfind
        refine .found hat hfind hvalue hall (slice_of hbehind hfirst)
          (show data = (front ++ [name.toNat.toUInt8, 61] ++ field ++ [comma]) ++ rest' by
            simp [hbehind]) ?_
        simp only [List.length_append, List.length_cons, List.length_nil]
        omega

/-- The two bytes that are looked at for an extension. -/
theorem beginsWithM_eq (data : Bytes) :
    beginsWithM data = .ok (decide (data.head? = some 109)) := by
  unfold beginsWithM deref
  match data with
  | [] => rfl
  | c :: rest =>
    rw [if_neg (by simp)]
    by_cases hc : c = 109
    · simp [hc, bind, Except.bind, pure, Except.pure]
    · simp [hc, bind, Except.bind, pure, Except.pure]

theorem deref_one {data : Bytes} (hm : data.head? = some 109) :
    (data = [109] ∧ data[1]? = none) ∨
      ∃ c, 1 ≠ data.length ∧ deref data 1 = .ok c ∧ data[1]? = some c := by
  unfold deref
  match data, hm with
  | [_], hm =>
    cases hm
    exact .inl ⟨rfl, rfl⟩
  | _ :: c :: rest, _ => exact .inr ⟨c, by simp, rfl, rfl⟩

end ServerFirst

open ServerFirst in
/-- **No read is outside of the message**, and what is computed is `parseServerFirst`. -/
theorem parseServerFirstAt_eq (data : Bytes) : parseServerFirstAt data = parseServerFirst data := by
  unfold parseServerFirstAt parseServerFirst
  simp only [beginsWithM_eq, bind, Except.bind]
  by_cases hm : data.head? = some 109
  · rw [if_pos hm]
    simp only [hm, decide_true, if_true]
    rcases deref_one hm with ⟨rfl, _⟩ | ⟨c, hne, hderef, hget⟩
    · rfl
    · rw [if_neg hne, hderef, hget]
      simp only [Option.some.injEq]
      by_cases hc : c = comma
      · simp [hc]
      · simp [hc]
  · rw [if_neg hm]
    simp only [hm, decide_false, Bool.false_eq_true, if_false]
    cases @readsValue data [] data 0 rfl rfl 'r' scramIsPrintable with
    | missing hat hvalue => simp only [hat, hvalue]
    | unended hat hfind hvalue => simp only [hat, hfind, hvalue]
    | rejected hat hfind hvalue hall =>
      simp only [hat, hfind, hvalue, hall, Bool.not_false, if_true]
    | @found nonceFirst nonceLast nonce _ rest hat hfind hvalue hall hslice hdata hp =>
      simp only [hat, hfind, hvalue, hall, hslice, Bool.not_true, Bool.false_eq_true, if_false]
      cases readsValue hdata hp 's' (fun _ => true) with
      | missing hat hvalue => simp only [hat, hvalue]
      | unended hat hfind hvalue => simp only [hat, hfind, hvalue]
      | @rejected _ field _ _ _ _ hall => simp at hall
      | @found saltFirst saltLast saltText front rest hat hfind hvalue _ hslice hdata hp =>
        simp only [hat, hfind, hvalue, hslice]
        rcases base64Decode saltText [] with fault | ec | salt
        · rfl
        · rfl
        -- the iteration count, behind the salt and its comma
        simp only [attributeAt_eq hdata hp]
        cases hattr : attribute? 'i' rest with
        | none => simp only [Option.map_none, Option.bind_none]
        | some q =>
          obtain rfl := attribute?_eq_some.mp hattr
          have hdrop : data.drop (saltLast + 1 + 2) = q := by
            have hbehind : data = (front ++ ['i'.toNat.toUInt8, 61]) ++ q := by simp [hdata]
            rw [hbehind]
            exact List.drop_left' (by simp [hp])
          cases hcount : fromCharsU32 (q.takeWhile (· ≠ comma)) with
          | none => simp only [Option.map_some, Option.bind_some, hdrop, hcount]
          | some count => simp only [Option.map_some, Option.bind_some, hdrop, hcount]

/-! ## 2. The grammar -/

/-- **The grammar**: `r=` nonce `,s=` base64 `,i=` digits, and nothing or a comma and anything. The
    salt is what its text is the base64 of, up to the bits a text leaves free. -/
inductive IsServerFirst : Bytes → ServerFirstMessage → Prop where
  | intro {nonce saltText salt digits ext : Bytes} (hnonce : nonce.all scramIsPrintable = true)
      (hsalt : AgreesWith saltText salt) (hne : digits ≠ []) (hdigits : AllDigits digits)
      (hlt : value digits < 2 ^ 32) (hext : Extensions ext) :
      IsServerFirst (serverFirstText nonce saltText digits ext)
        { nonce, salt, iterationCount := value digits }

/-- What `std::from_chars` reads all of. -/
theorem fromCharsU32_eq_some {text : Bytes} {n : Nat} :
    fromCharsU32 text = some n ↔
      text ≠ [] ∧ AllDigits text ∧ value text < 2 ^ 32 ∧ value text = n := by
  have hvalue : text.foldl (fun n c => n * 10 + (c.toNat - 48)) 0 = value text := by
    unfold value
    simp only [Nat.mul_comm]
  have hguard : (text.isEmpty || text.any (fun c => !(48 ≤ c && c ≤ 57))) = false ↔
      text ≠ [] ∧ AllDigits text := by
    simp [AllDigits, Decimal.isDigit]
  unfold fromCharsU32
  rw [hvalue]
  constructor
  · intro h
    split at h
    · cases h
    · rename_i hread
      obtain ⟨hne, hdigits⟩ := hguard.mp (eq_false_of_ne_true hread)
      simp only at h
      split at h
      · rename_i hlt
        cases h
        exact ⟨hne, hdigits, hlt, rfl⟩
      · cases h
  · intro h
    obtain ⟨hne, hdigits, hlt, rfl⟩ := h
    rw [hguard.mpr ⟨hne, hdigits⟩, if_neg (by decide)]
    exact if_pos hlt

theorem comma_notMem_of_agreesWith {s salt : Bytes} (h : AgreesWith s salt) : comma ∉ s := by
  intro hmem
  obtain ⟨_, body, pads, rfl, _, hbody⟩ := (Base64.spells_iff_agreesWith.mpr h).isBase64
  rcases List.mem_append.mp hmem with hmem | hmem
  · exact absurd (hbody comma hmem) (by decide)
  · exact absurd (List.eq_of_mem_replicate hmem) (by decide)

/-- **The grammar is what is accepted.** -/
theorem parseServerFirst_ok_iff {data : Bytes} {msg : ServerFirstMessage} :
    parseServerFirst data = .ok (.ok msg) ↔ IsServerFirst data msg := by
  rw [parseServerFirst_ok]
  constructor
  · intro h
    obtain ⟨saltText, digits, ext, rfl, hnonce, _, hsalt, hcount, hext⟩ := h
    obtain ⟨salt, hagrees, heq⟩ := base64Decode_ok_iff.mp hsalt
    obtain ⟨hne, hdigits, hlt, hvalue⟩ := fromCharsU32_eq_some.mp hcount
    rw [List.nil_append] at heq
    obtain ⟨nonce, _, _⟩ := msg
    subst heq hvalue
    exact .intro hnonce hagrees hne hdigits hlt hext
  · intro h
    obtain ⟨hnonce, hsalt, hne, hdigits, hlt, hext⟩ := h
    exact ⟨_, _, _, rfl, hnonce, comma_notMem_of_agreesWith hsalt,
      base64Decode_ok_iff.mpr ⟨_, hsalt, rfl⟩,
      fromCharsU32_eq_some.mpr ⟨hne, hdigits, hlt, rfl⟩, hext⟩

/-! ## 3. What is expected of the parser -/

/-- **Decoding the salt looks no byte above 127 up**, where the message has a salt. -/
def SaltReadable (data : Bytes) : Prop :=
  ∀ nonce saltText rest,
    data = ascii "r=" ++ (nonce ++ (ascii ",s=" ++ (saltText ++ comma :: rest))) →
    nonce.all scramIsPrintable = true → comma ∉ saltText →
      saltText.length % 4 ≠ 0 ∨ noHighLookup saltText = true

/-- **The parser returns unless the base64 decoder does not.** -/
theorem returns_parseServerFirst_iff (data : Bytes) :
    Returns (parseServerFirst data) ↔ SaltReadable data := by
  constructor
  · intro h nonce saltText rest hdata hprint hnot
    subst hdata
    have hnonce : (attribute? 'r' (ascii "r=" ++ (nonce ++ (ascii ",s=" ++
        (saltText ++ comma :: rest))))).bind splitComma =
          some (nonce, ascii "s=" ++ (saltText ++ comma :: rest)) :=
      attribute?_splitComma.mpr ⟨rfl, comma_notMem_of_printable hprint⟩
    have hsalt : (attribute? 's' (ascii "s=" ++ (saltText ++ comma :: rest))).bind splitComma =
        some (saltText, rest) := attribute?_splitComma.mpr ⟨rfl, hnot⟩
    unfold parseServerFirst at h
    rw [if_neg (by simp [ascii]), hnonce] at h
    simp only [hprint, Bool.not_true, Bool.false_eq_true, if_false] at h
    rw [hsalt] at h
    obtain ⟨r, hr, _⟩ := Base64.returns_bind.mp h
    exact (returns_base64Decode_iff saltText []).mp ⟨r, hr⟩
  · intro h
    unfold parseServerFirst
    simp only
    split
    · split <;> exact Base64.returns_ok _
    · split
      · exact Base64.returns_ok _
      · rename_i nonce p hnonce
        obtain ⟨rfl, _⟩ := attribute?_splitComma.mp hnonce
        split
        · exact Base64.returns_ok _
        · rename_i hprint
          split
          · exact Base64.returns_ok _
          · rename_i saltText p' hsalt
            obtain ⟨rfl, hnot⟩ := attribute?_splitComma.mp hsalt
            obtain ⟨r, hr⟩ := (returns_base64Decode_iff saltText []).mpr
              (h nonce saltText p' rfl (by simpa using hprint) hnot)
            refine Base64.returns_bind.mpr ⟨r, hr, ?_⟩
            cases r with
            | error ec => exact Base64.returns_ok _
            | ok salt =>
              simp only
              split <;> exact Base64.returns_ok _

/-- **What is expected of the parser and a message**: no read is outside of the message; the grammar
    is accepted; a message with an extension the client must understand is reported as one, and
    every other message is rejected. -/
structure ParsesServerFirst (data : Bytes) : Prop where
  safe : ∃ r, parseServerFirstAt data = .ok r
  accepts : ∀ msg, parseServerFirstAt data = .ok (.ok msg) ↔ IsServerFirst data msg
  extension : ascii "m=" <+: data → parseServerFirstAt data =
    .ok (.error ClientErrc.mandatoryScramExtensionNotSupported.code)
  rejects : (∀ msg, ¬IsServerFirst data msg) →
    ∃ ec, ec.failed = true ∧ parseServerFirstAt data = .ok (.error ec)

/-- Behind the `m` a comma is looked for, where `=` stands. -/
theorem parseServerFirst_extension {data : Bytes} (h : ascii "m=" <+: data) :
    parseServerFirst data = .ok (.error ClientErrc.invalidScramMessage.code) := by
  obtain ⟨rest, rfl⟩ := h
  rfl

/-- An extension is not reported. -/
theorem extension_not_reported : ¬∀ data, ParsesServerFirst data := by
  intro h
  have hext := (h (ascii "m=ext,r=abc,s=,i=1")).extension (by decide)
  rw [parseServerFirstAt_eq] at hext
  exact absurd hext (by decide)

/-- **The parser does what is expected where the message does not begin with `m=`, and no byte above
    127 in its salt is looked up**; and only there. -/
theorem server_first_exactly (data : Bytes) :
    ParsesServerFirst data ↔ ¬ascii "m=" <+: data ∧ SaltReadable data := by
  constructor
  · intro h
    refine ⟨fun hm => ?_, ?_⟩
    · have hext := h.extension hm
      rw [parseServerFirstAt_eq, parseServerFirst_extension hm, Except.ok.injEq,
        Except.error.injEq] at hext
      exact absurd hext (by decide)
    · have hsafe := h.safe
      rw [parseServerFirstAt_eq] at hsafe
      exact (returns_parseServerFirst_iff data).mp hsafe
  · intro h
    obtain ⟨hm, hsalt⟩ := h
    obtain ⟨r, hr⟩ := (returns_parseServerFirst_iff data).mpr hsalt
    refine ⟨?_, fun msg => ?_, fun hext => absurd hext hm, fun hnot => ?_⟩
    · rw [parseServerFirstAt_eq]
      exact ⟨r, hr⟩
    · rw [parseServerFirstAt_eq]
      exact parseServerFirst_ok_iff
    · rw [parseServerFirstAt_eq, hr]
      cases r with
      | error ec => exact ⟨ec, parseServerFirst_code hr, rfl⟩
      | ok msg => exact absurd (parseServerFirst_ok_iff.mp hr) (hnot msg)

end NativePg
