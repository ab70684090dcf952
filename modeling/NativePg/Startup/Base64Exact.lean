/-
  File:      NativePg/Startup/Base64Exact.lean
  Subject:   Which texts base64 decodes, and to what (src/nativepg_internal/base64.cpp).

  * `Spells`, `IsBase64`, `AgreesWith` -- groups of four digits, the texts of the grammar, and the
    texts that are the base64 of some bytes up to the bits their last character does not use:
    `decode_eq_some_iff`, `exists_spells_iff`, `spells_iff_agreesWith`;
  * `noHighLookup` -- no byte above 127 is looked up. `returns_decode_iff`: the decoder returns
    there;
  * `base64_round_trip`, `base64_decode_exactly` -- encoder and decoder.
-/
import NativePg.Startup.Base64Stores

namespace NativePg

namespace Base64

/-! ## 1. The texts that are decoded -/

/-- **The text spells the bytes**: groups of four digits, of which the last may be shorter. The bits
    of its last digit that make no byte are free. -/
inductive Spells : Bytes → Bytes → Prop where
  | nil : Spells [] []
  | one {v0 v1 : UInt8} (h0 : v0.toNat < 64) (h1 : v1.toNat < 64) :
      Spells [tab v0, tab v1, padding, padding] ((joinSextets v0 v1 0 0).take 1)
  | two {v0 v1 v2 : UInt8} (h0 : v0.toNat < 64) (h1 : v1.toNat < 64) (h2 : v2.toNat < 64) :
      Spells [tab v0, tab v1, tab v2, padding] ((joinSextets v0 v1 v2 0).take 2)
  | four {v0 v1 v2 v3 : UInt8} {s bytes : Bytes} (h0 : v0.toNat < 64) (h1 : v1.toNat < 64)
      (h2 : v2.toNat < 64) (h3 : v3.toNat < 64) (h : Spells s bytes) :
      Spells (tab v0 :: tab v1 :: tab v2 :: tab v3 :: s) (joinSextets v0 v1 v2 v3 ++ bytes)

/-- The digit `inverse_tab` has for a character is one that `tab` has the character for. -/
def inversesTab (c : UInt8) : Bool :=
  match inverseTab c with
  | .ok (some v) => decide (v.toNat < 64 ∧ c = tab v)
  | _ => true

theorem inversesTab_all : ∀ c, inversesTab c = true := forall_byte (by decide +kernel)

/-- A character with a digit is the character of the digit. -/
theorem inverseTab_some {c v : UInt8} (h : inverseTab c = .ok (some v)) :
    v.toNat < 64 ∧ c = tab v := by
  have hc := inversesTab_all c
  unfold inversesTab at hc
  rw [h] at hc
  exact of_decide_eq_true hc

/-- A character of the alphabet is the character of a digit. -/
theorem exists_digit {c : UInt8} (h : c ∈ alphabet) : ∃ v : UInt8, v.toNat < 64 ∧ c = tab v := by
  obtain ⟨i, hi, rfl⟩ := List.getElem_of_mem h
  have hlt : i < 64 := hi
  have hnat : i.toUInt8.toNat = i := by
    rw [Nat.toUInt8_eq, UInt8.toNat_ofNat']
    omega
  refine ⟨i.toUInt8, by omega, ?_⟩
  rw [tab, hnat, List.getD_eq_getElem?_getD, List.getElem?_eq_getElem hi, Option.getD_some]

theorem decodeQuad_some {c0 c1 c2 c3 : UInt8} {bytes : Bytes}
    (h : decodeQuad c0 c1 c2 c3 = .ok (some bytes)) :
    ∃ v0 v1 v2 v3 : UInt8, (v0.toNat < 64 ∧ c0 = tab v0) ∧ (v1.toNat < 64 ∧ c1 = tab v1) ∧
      (v2.toNat < 64 ∧ c2 = tab v2) ∧ (v3.toNat < 64 ∧ c3 = tab v3) ∧
      bytes = joinSextets v0 v1 v2 v3 := by
  obtain ⟨o0, h0, h⟩ := bind_eq_ok.mp h
  obtain ⟨o1, h1, h⟩ := bind_eq_ok.mp h
  obtain ⟨o2, h2, h⟩ := bind_eq_ok.mp h
  obtain ⟨o3, h3, h⟩ := bind_eq_ok.mp h
  match o0, o1, o2, o3, h with
  | some v0, some v1, some v2, some v3, h =>
    cases h
    exact ⟨v0, v1, v2, v3, inverseTab_some h0, inverseTab_some h1, inverseTab_some h2,
      inverseTab_some h3, rfl⟩

theorem decodeQuad_tab {v0 v1 v2 v3 : UInt8} (h0 : v0.toNat < 64) (h1 : v1.toNat < 64)
    (h2 : v2.toNat < 64) (h3 : v3.toNat < 64) :
    decodeQuad (tab v0) (tab v1) (tab v2) (tab v3) = .ok (some (joinSextets v0 v1 v2 v3)) := by
  unfold decodeQuad
  rw [inverseTab_tab h0, inverseTab_tab h1, inverseTab_tab h2, inverseTab_tab h3]
  rfl

/-- Without padding, the last four characters are as all others. -/
theorem decodeLast_eq {c0 c1 c2 c3 : UInt8} (h2 : c2 ≠ padding) (h3 : c3 ≠ padding) :
    decodeLast c0 c1 c2 c3 = decodeQuad c0 c1 c2 c3 := by
  unfold decodeLast getPadding
  rw [if_neg h3, if_neg h2]
  rfl

/-- **The last four characters**, if they are decoded. -/
theorem decodeLast_some {c0 c1 c2 c3 : UInt8} {bytes : Bytes}
    (h : decodeLast c0 c1 c2 c3 = .ok (some bytes)) : Spells [c0, c1, c2, c3] bytes := by
  by_cases h2 : c2 = padding
  · by_cases h3 : c3 = padding
    · subst h2 h3
      obtain ⟨o0, h0, h⟩ := bind_eq_ok.mp h
      obtain ⟨o1, h1, h⟩ := bind_eq_ok.mp h
      match o0, o1, h with
      | some v0, some v1, h =>
        cases h
        obtain ⟨hv0, rfl⟩ := inverseTab_some h0
        obtain ⟨hv1, rfl⟩ := inverseTab_some h1
        exact .one hv0 hv1
    · -- one `=`, which is looked up
      subst h2
      unfold decodeLast getPadding at h
      rw [if_neg h3, if_pos rfl] at h
      obtain ⟨o0, h0, h⟩ := bind_eq_ok.mp h
      obtain ⟨o1, h1, h⟩ := bind_eq_ok.mp h
      match o0, o1, h with
      | none, _, h => cases h
      | some _, none, h => cases h
      | some _, some _, h => cases h
  · by_cases h3 : c3 = padding
    · subst h3
      unfold decodeLast getPadding at h
      rw [if_pos rfl, if_neg h2] at h
      obtain ⟨o0, h0, h⟩ := bind_eq_ok.mp h
      obtain ⟨o1, h1, h⟩ := bind_eq_ok.mp h
      obtain ⟨o2, h2, h⟩ := bind_eq_ok.mp h
      match o0, o1, o2, h with
      | some v0, some v1, some v2, h =>
        cases h
        obtain ⟨hv0, rfl⟩ := inverseTab_some h0
        obtain ⟨hv1, rfl⟩ := inverseTab_some h1
        obtain ⟨hv2, rfl⟩ := inverseTab_some h2
        exact .two hv0 hv1 hv2
    · rw [decodeLast_eq h2 h3] at h
      obtain ⟨v0, v1, v2, v3, ⟨hv0, rfl⟩, ⟨hv1, rfl⟩, ⟨hv2, rfl⟩, ⟨hv3, rfl⟩, rfl⟩ :=
        decodeQuad_some h
      have hspells := Spells.four hv0 hv1 hv2 hv3 .nil
      rwa [List.append_nil] at hspells

/-- What is spelled is decoded. -/
theorem Spells.decode_eq {s bytes : Bytes} (h : Spells s bytes) : decode s = .ok (some bytes) := by
  induction h with
  | nil => rfl
  | one h0 h1 =>
    rw [decode, decodeLast, inverseTab_tab h0, inverseTab_tab h1]
    rfl
  | two h0 h1 h2 =>
    rw [decode, decodeLast, getPadding, if_pos rfl, if_neg (tab_ne_padding h2), inverseTab_tab h0,
      inverseTab_tab h1, inverseTab_tab h2]
    rfl
  | @four v0 v1 v2 v3 s bytes h0 h1 h2 h3 h ih =>
    by_cases hs : s = []
    · subst hs
      cases h
      rw [decode, decodeLast_eq (tab_ne_padding h2) (tab_ne_padding h3),
        decodeQuad_tab h0 h1 h2 h3, List.append_nil]
    · rw [decode_quad hs, decodeQuad_tab h0 h1 h2 h3, ih]
      rfl

/-- **A text is decoded to what it spells.** -/
theorem decode_eq_some_iff {s bytes : Bytes} : decode s = .ok (some bytes) ↔ Spells s bytes := by
  refine ⟨fun h => ?_, Spells.decode_eq⟩
  fun_induction decode s generalizing bytes with
  | case1 =>
    cases h
    exact .nil
  | case2 c0 c1 c2 c3 => exact decodeLast_some h
  | case3 c0 c1 c2 c3 rest hrest ih =>
    obtain ⟨o, hquad, h⟩ := bind_eq_ok.mp h
    cases o with
    | none => cases h
    | some first =>
      obtain ⟨o', hnext, h⟩ := bind_eq_ok.mp h
      cases o' with
      | none => cases h
      | some next =>
        cases h
        obtain ⟨v0, v1, v2, v3, ⟨hv0, rfl⟩, ⟨hv1, rfl⟩, ⟨hv2, rfl⟩, ⟨hv3, rfl⟩, rfl⟩ :=
          decodeQuad_some hquad
        exact .four hv0 hv1 hv2 hv3 (ih hnext)
  | case4 => cases h

/-! ## 2. The grammar, and the bits that are free -/

/-- **The texts of base64**: groups of four characters of the alphabet, where one or two `=` may
    stand at the end. -/
def IsBase64 (s : Bytes) : Prop :=
  s.length % 4 = 0 ∧ ∃ body pads, s = body ++ List.replicate pads padding ∧ pads ≤ 2 ∧
    ∀ c ∈ body, c ∈ alphabet

/-- What spells bytes is a text of base64. -/
theorem Spells.isBase64 {s bytes : Bytes} (h : Spells s bytes) : IsBase64 s := by
  induction h with
  | nil => exact ⟨rfl, [], 0, rfl, by decide, nofun⟩
  | @one v0 v1 h0 h1 =>
    refine ⟨by simp, [tab v0, tab v1], 2, rfl, by decide, ?_⟩
    simp [tab_mem h0, tab_mem h1]
  | @two v0 v1 v2 h0 h1 h2 =>
    refine ⟨by simp, [tab v0, tab v1, tab v2], 1, rfl, by decide, ?_⟩
    simp [tab_mem h0, tab_mem h1, tab_mem h2]
  | @four v0 v1 v2 v3 s bytes h0 h1 h2 h3 h ih =>
    obtain ⟨hlen, body, pads, rfl, hpads, hbody⟩ := ih
    refine ⟨?_, tab v0 :: tab v1 :: tab v2 :: tab v3 :: body, pads, rfl, hpads, ?_⟩
    · simp only [List.length_cons]
      omega
    · simpa [tab_mem h0, tab_mem h1, tab_mem h2, tab_mem h3] using hbody

/-- Every text of base64 spells some bytes. -/
theorem exists_spells {pads : Nat} (hpads : pads ≤ 2) : ∀ (body : Bytes),
    (∀ c ∈ body, c ∈ alphabet) → (body.length + pads) % 4 = 0 →
      ∃ bytes, Spells (body ++ List.replicate pads padding) bytes
  | [], _, hlen => by
      obtain rfl : pads = 0 := by
        simp only [List.length_nil] at hlen
        omega
      exact ⟨[], .nil⟩
  | [c0], _, hlen => by
      simp only [List.length_cons, List.length_nil] at hlen
      omega
  | [c0, c1], hbody, hlen => by
      obtain rfl : pads = 2 := by
        simp only [List.length_cons, List.length_nil] at hlen
        omega
      obtain ⟨v0, hv0, rfl⟩ := exists_digit (hbody c0 (by simp))
      obtain ⟨v1, hv1, rfl⟩ := exists_digit (hbody c1 (by simp))
      exact ⟨_, .one hv0 hv1⟩
  | [c0, c1, c2], hbody, hlen => by
      obtain rfl : pads = 1 := by
        simp only [List.length_cons, List.length_nil] at hlen
        omega
      obtain ⟨v0, hv0, rfl⟩ := exists_digit (hbody c0 (by simp))
      obtain ⟨v1, hv1, rfl⟩ := exists_digit (hbody c1 (by simp))
      obtain ⟨v2, hv2, rfl⟩ := exists_digit (hbody c2 (by simp))
      exact ⟨_, .two hv0 hv1 hv2⟩
  | c0 :: c1 :: c2 :: c3 :: body, hbody, hlen => by
      obtain ⟨v0, hv0, rfl⟩ := exists_digit (hbody c0 (by simp))
      obtain ⟨v1, hv1, rfl⟩ := exists_digit (hbody c1 (by simp))
      obtain ⟨v2, hv2, rfl⟩ := exists_digit (hbody c2 (by simp))
      obtain ⟨v3, hv3, rfl⟩ := exists_digit (hbody c3 (by simp))
      obtain ⟨bytes, h⟩ := exists_spells hpads body (fun c hc => hbody c (by simp [hc])) (by
        simp only [List.length_cons] at hlen
        omega)
      exact ⟨_, .four hv0 hv1 hv2 hv3 h⟩

theorem exists_spells_iff {s : Bytes} : (∃ bytes, Spells s bytes) ↔ IsBase64 s := by
  constructor
  · intro h
    obtain ⟨bytes, h⟩ := h
    exact h.isBase64
  · intro h
    obtain ⟨hlen, body, pads, rfl, hpads, hbody⟩ := h
    exact exists_spells hpads body hbody (by simpa using hlen)

/-- **The text is the base64 of the bytes, up to the unused low bits of its last character**: two
    for each `=`. -/
def AgreesWith (s bytes : Bytes) : Prop :=
  s = encode bytes ∨ ∃ (front : Bytes) (u v : UInt8) (pads : Nat), u.toNat < 64 ∧ v.toNat < 64 ∧
    u.toNat / 4 ^ pads = v.toNat / 4 ^ pads ∧
    encode bytes = front ++ tab u :: List.replicate pads padding ∧
    s = front ++ tab v :: List.replicate pads padding

/-- The sextets of the bytes that sextets make. -/
theorem exists_sextets {v0 v1 v2 v3 : UInt8} (h0 : v0.toNat < 64) (h1 : v1.toNat < 64)
    (h2 : v2.toNat < 64) (h3 : v3.toNat < 64) :
    ∃ b0 b1 b2 : UInt8, joinSextets v0 v1 v2 v3 = [b0, b1, b2] ∧ sextet0 b0 = v0 ∧
      sextet1 b0 b1 = v1 ∧ sextet2 b1 b2 = v2 ∧ sextet3 b2 = v3 ∧
      (sextet1 b0 0).toNat = v1.toNat / 16 * 16 ∧ (sextet2 b1 0).toNat = v2.toNat / 4 * 4 := by
  refine ⟨_, _, _, rfl, ?_⟩
  have hb0 : ((v0 <<< 2) + ((v1 &&& 0x30) >>> 4)).toNat = v0.toNat * 4 + v1.toNat / 16 := by
    rw [UInt8.toNat_add, (toNat_decoded _).1, (toNat_decoded _).2.1]
    omega
  have hb1 : (((v1 &&& 0xf) <<< 4) + ((v2 &&& 0x3c) >>> 2)).toNat =
      v1.toNat % 16 * 16 + v2.toNat / 4 := by
    rw [UInt8.toNat_add, (toNat_decoded _).2.2.1, (toNat_decoded _).2.2.2.1]
    omega
  have hb2 : (((v2 &&& 0x3) <<< 6) + v3).toNat = v2.toNat % 4 * 64 + v3.toNat := by
    rw [UInt8.toNat_add, (toNat_decoded _).2.2.2.2]
    omega
  refine ⟨?_, ?_, ?_, ?_, ?_, ?_⟩
  · rw [← UInt8.toNat_inj, toNat_sextet0, hb0]
    omega
  · rw [← UInt8.toNat_inj, toNat_sextet1, hb0, hb1]
    omega
  · rw [← UInt8.toNat_inj, toNat_sextet2, hb1, hb2]
    omega
  · rw [← UInt8.toNat_inj, toNat_sextet3, hb2]
    omega
  · rw [toNat_sextet1, hb0, show (0 : UInt8).toNat = 0 from rfl]
    omega
  · rw [toNat_sextet2, hb1, show (0 : UInt8).toNat = 0 from rfl]
    omega

/-- Four characters in front of both. -/
theorem AgreesWith.four {s bytes : Bytes} (h : AgreesWith s bytes) (b0 b1 b2 : UInt8) :
    AgreesWith (tab (sextet0 b0) :: tab (sextet1 b0 b1) :: tab (sextet2 b1 b2) ::
      tab (sextet3 b2) :: s) (b0 :: b1 :: b2 :: bytes) := by
  rcases h with rfl | ⟨front, u, v, pads, hu, hv, heq, henc, rfl⟩
  · exact .inl (encode_three b0 b1 b2 bytes).symm
  · refine .inr ⟨_ :: _ :: _ :: _ :: front, u, v, pads, hu, hv, heq, ?_, rfl⟩
    rw [encode_three, henc]
    rfl

/-- What is spelled agrees. -/
theorem Spells.agreesWith {s bytes : Bytes} (h : Spells s bytes) : AgreesWith s bytes := by
  induction h with
  | nil => exact .inl rfl
  | @one v0 v1 h0 h1 =>
    obtain ⟨b0, b1, b2, hjoin, rfl, _, _, _, hlow, _⟩ :=
      @exists_sextets v0 v1 0 0 h0 h1 (by decide) (by decide)
    rw [hjoin]
    refine .inr ⟨[tab (sextet0 b0)], sextet1 b0 0, v1, 2, sextet1_lt b0 0, h1, by omega, ?_, rfl⟩
    exact encode_one b0
  | @two v0 v1 v2 h0 h1 h2 =>
    obtain ⟨b0, b1, b2, hjoin, rfl, rfl, _, _, _, hlow⟩ :=
      @exists_sextets v0 v1 v2 0 h0 h1 h2 (by decide)
    rw [hjoin]
    refine .inr ⟨[tab (sextet0 b0), tab (sextet1 b0 b1)], sextet2 b1 0, v2, 1, sextet2_lt b1 0, h2,
      by omega, ?_, rfl⟩
    exact encode_two b0 b1
  | @four v0 v1 v2 v3 s bytes h0 h1 h2 h3 h ih =>
    obtain ⟨b0, b1, b2, hjoin, rfl, rfl, rfl, rfl, _, _⟩ := exists_sextets h0 h1 h2 h3
    rw [hjoin]
    exact ih.four b0 b1 b2

theorem spells_encode (bytes : Bytes) : Spells (encode bytes) bytes :=
  decode_eq_some_iff.mp (decode_encode bytes)

theorem tab_inj {u v : UInt8} (hu : u.toNat < 64) (hv : v.toNat < 64) (h : tab u = tab v) :
    u = v := by
  have htab := inverseTab_tab hu
  rw [h, inverseTab_tab hv] at htab
  cases htab
  rfl

/-- No padding comes first. -/
theorem encode_ne_padding (bytes s : Bytes) : encode bytes ≠ padding :: s := by
  intro h
  fun_cases reference bytes with
  | case1 b0 b1 b2 rest =>
    rw [encode_three] at h
    exact tab_ne_padding (sextet0_lt b0) (List.cons.inj h).1
  | case2 b0 b1 =>
    rw [encode_two] at h
    exact tab_ne_padding (sextet0_lt b0) (List.cons.inj h).1
  | case3 b0 =>
    rw [encode_one] at h
    exact tab_ne_padding (sextet0_lt b0) (List.cons.inj h).1
  | case4 => cases h

/-- The free bits of the last digit of one byte. -/
theorem spells_one {b0 v : UInt8} (hv : v.toNat < 64)
    (heq : (sextet1 b0 0).toNat / 16 = v.toNat / 16) :
    Spells [tab (sextet0 b0), tab v, padding, padding] [b0] := by
  have hspells := Spells.one (sextet0_lt b0) hv
  have hbyte : (sextet0 b0 <<< 2) + ((v &&& 0x30) >>> 4) = b0 := by
    have hlt := b0.toNat_lt
    rw [toNat_sextet1, show (0 : UInt8).toNat = 0 from rfl] at heq
    rw [← UInt8.toNat_inj, UInt8.toNat_add, (toNat_decoded _).1, (toNat_decoded _).2.1,
      toNat_sextet0]
    omega
  rwa [joinSextets, hbyte] at hspells

/-- The free bits of the last digit of two bytes. -/
theorem spells_two {b0 b1 v : UInt8} (hv : v.toNat < 64)
    (heq : (sextet2 b1 0).toNat / 4 = v.toNat / 4) :
    Spells [tab (sextet0 b0), tab (sextet1 b0 b1), tab v, padding] [b0, b1] := by
  have hspells := Spells.two (sextet0_lt b0) (sextet1_lt b0 b1) hv
  have hjoin := joinSextets_sextets b0 b1 0
  have hbyte : ((sextet1 b0 b1 &&& 0xf) <<< 4) + ((v &&& 0x3c) >>> 2) = b1 := by
    have hlt := b1.toNat_lt
    rw [toNat_sextet2, show (0 : UInt8).toNat = 0 from rfl] at heq
    rw [← UInt8.toNat_inj, UInt8.toNat_add, (toNat_decoded _).2.2.1, (toNat_decoded _).2.2.2.1,
      toNat_sextet1]
    omega
  rw [joinSextets, (List.cons.inj hjoin).1, hbyte] at hspells
  exact hspells

/-- **The free bits of the last digit change nothing.** -/
theorem spells_of_padded (bytes : Bytes) : ∀ {front : Bytes} {u v : UInt8} {pads : Nat},
    u.toNat < 64 → v.toNat < 64 → u.toNat / 4 ^ (pads + 1) = v.toNat / 4 ^ (pads + 1) →
    encode bytes = front ++ tab u :: padding :: List.replicate pads padding →
      Spells (front ++ tab v :: padding :: List.replicate pads padding) bytes := by
  fun_induction reference bytes with
  | case1 b0 b1 b2 rest ih =>
    intro front u v pads hu hv heq henc
    rw [encode_three] at henc
    simp only [List.cons_append, List.nil_append] at henc
    rcases front with _ | ⟨c0, _ | ⟨c1, _ | ⟨c2, _ | ⟨c3, front⟩⟩⟩⟩
    · simp only [List.nil_append, List.cons.injEq] at henc
      exact absurd henc.2.1 (tab_ne_padding (sextet1_lt b0 b1))
    · simp only [List.cons_append, List.nil_append, List.cons.injEq] at henc
      exact absurd henc.2.2.1 (tab_ne_padding (sextet2_lt b1 b2))
    · simp only [List.cons_append, List.nil_append, List.cons.injEq] at henc
      exact absurd henc.2.2.2.1 (tab_ne_padding (sextet3_lt b2))
    · simp only [List.cons_append, List.nil_append, List.cons.injEq] at henc
      exact absurd henc.2.2.2.2 (encode_ne_padding rest _)
    · simp only [List.cons_append, List.cons.injEq] at henc
      obtain ⟨rfl, rfl, rfl, rfl, henc⟩ := henc
      have hnext := Spells.four (sextet0_lt b0) (sextet1_lt b0 b1) (sextet2_lt b1 b2)
        (sextet3_lt b2) (ih hu hv heq henc)
      rwa [joinSextets_sextets] at hnext
  | case2 b0 b1 =>
    intro front u v pads hu hv heq henc
    rw [encode_two] at henc
    rcases front with _ | ⟨c0, _ | ⟨c1, _ | ⟨c2, _ | ⟨c3, front⟩⟩⟩⟩
    · simp only [List.nil_append, List.cons.injEq] at henc
      exact absurd henc.2.1 (tab_ne_padding (sextet1_lt b0 b1))
    · simp only [List.cons_append, List.nil_append, List.cons.injEq] at henc
      exact absurd henc.2.2.1 (tab_ne_padding (sextet2_lt b1 0))
    · simp only [List.cons_append, List.nil_append, List.cons.injEq, true_and] at henc
      obtain ⟨rfl, rfl, htab, hpads⟩ := henc
      obtain rfl : pads = 0 := by simpa using (congrArg List.length hpads).symm
      rw [← tab_inj (sextet2_lt b1 0) hu htab] at heq
      exact spells_two hv heq
    · simp only [List.cons_append, List.nil_append, List.cons.injEq] at henc
      exact absurd henc.2.2.2.1.symm (tab_ne_padding hu)
    · simp at henc
  | case3 b0 =>
    intro front u v pads hu hv heq henc
    rw [encode_one] at henc
    rcases front with _ | ⟨c0, _ | ⟨c1, _ | ⟨c2, _ | ⟨c3, front⟩⟩⟩⟩
    · simp only [List.nil_append, List.cons.injEq] at henc
      exact absurd henc.2.1 (tab_ne_padding (sextet1_lt b0 0))
    · simp only [List.cons_append, List.nil_append, List.cons.injEq, true_and] at henc
      obtain ⟨rfl, htab, hpads⟩ := henc
      obtain rfl : pads = 1 := by simpa using (congrArg List.length hpads).symm
      rw [← tab_inj (sextet1_lt b0 0) hu htab] at heq
      exact spells_one hv heq
    · simp only [List.cons_append, List.nil_append, List.cons.injEq] at henc
      exact absurd henc.2.2.1.symm (tab_ne_padding hu)
    · simp only [List.cons_append, List.nil_append, List.cons.injEq] at henc
      exact absurd henc.2.2.2.1.symm (tab_ne_padding hu)
    · simp at henc
  | case4 =>
    intro front u v pads hu hv heq henc
    simp [encode] at henc

/-- **A text spells the bytes whose base64 it is up to the bits that are free.** -/
theorem spells_iff_agreesWith {s bytes : Bytes} : Spells s bytes ↔ AgreesWith s bytes := by
  refine ⟨Spells.agreesWith, ?_⟩
  intro h
  obtain rfl | ⟨front, u, v, pads, hu, hv, heq, henc, rfl⟩ := h
  · exact spells_encode bytes
  · match pads with
    | 0 =>
      rw [Nat.pow_zero, Nat.div_one, Nat.div_one] at heq
      rw [← UInt8.toNat_inj.mp heq, ← henc]
      exact spells_encode bytes
    | pads + 1 => exact spells_of_padded bytes hu hv heq henc

/-! ## 3. The bytes that are looked up -/

/-- **No byte above 127 is looked up**: none stands in the groups in front of the first character
    that is not of the alphabet, nor in the group of that character. In the last group the
    character behind a `=` is not looked up. -/
def noHighLookup : Bytes → Bool
  | [c0, c1, c2, c3] => c0 < 128 && c1 < 128 && c2 < 128 && (c2 == padding || c3 < 128)
  | c0 :: c1 :: c2 :: c3 :: rest =>
    [c0, c1, c2, c3].all (· < 128) &&
      (!([c0, c1, c2, c3].all (alphabet.contains ·)) || noHighLookup rest)
  | _ => true

/-- It returns. -/
def Returns {α : Type} (x : Checked α) : Prop := ∃ a, x = .ok a

theorem returns_ok {α : Type} (a : α) : Returns (.ok a) := ⟨a, rfl⟩

theorem returns_bind {α β : Type} {x : Checked α} {f : α → Checked β} :
    Returns (x >>= f) ↔ ∃ a, x = .ok a ∧ Returns (f a) := by
  constructor
  · intro h
    obtain ⟨b, h⟩ := h
    obtain ⟨a, ha, hb⟩ := bind_eq_ok.mp h
    exact ⟨a, ha, b, hb⟩
  · intro h
    obtain ⟨a, ha, b, hb⟩ := h
    exact ⟨b, bind_eq_ok.mpr ⟨a, ha, hb⟩⟩

theorem returns_inverseTab {c : UInt8} : Returns (inverseTab c) ↔ c < 128 := by
  unfold inverseTab
  constructor
  · intro h
    obtain ⟨o, h⟩ := h
    by_contra hc
    rw [if_pos (UInt8.not_lt.mp hc)] at h
    cases h
  · intro h
    exact ⟨_, if_neg (UInt8.not_le.mpr h)⟩

/-- A lookup, and something that returns whatever is found. -/
theorem returns_lookup {α : Type} {c : UInt8} {f : Option UInt8 → Checked α} {p : Prop}
    (hf : ∀ o, Returns (f o) ↔ p) : Returns (inverseTab c >>= f) ↔ c < 128 ∧ p := by
  rw [returns_bind, ← returns_inverseTab]
  constructor
  · intro h
    obtain ⟨o, h, hr⟩ := h
    exact ⟨⟨o, h⟩, (hf o).mp hr⟩
  · intro h
    obtain ⟨⟨o, h⟩, hp⟩ := h
    exact ⟨o, h, (hf o).mpr hp⟩

theorem returns_decodeQuad {c0 c1 c2 c3 : UInt8} :
    Returns (decodeQuad c0 c1 c2 c3) ↔ c0 < 128 ∧ c1 < 128 ∧ c2 < 128 ∧ c3 < 128 ∧ True := by
  refine returns_lookup fun o0 => returns_lookup fun o1 => returns_lookup fun o2 =>
    returns_lookup fun o3 => ?_
  simp only [iff_true]
  split <;> exact returns_ok _

theorem returns_decodeLast {c0 c1 c2 c3 : UInt8} :
    Returns (decodeLast c0 c1 c2 c3) ↔
      c0 < 128 ∧ c1 < 128 ∧ c2 < 128 ∧ (c2 = padding ∨ c3 < 128) := by
  have hpadding : padding < 128 := by decide
  by_cases h2 : c2 = padding
  · have hright : (c2 < 128 ∧ (c2 = padding ∨ c3 < 128)) ↔ True := by simp [h2, hpadding]
    rw [hright]
    subst h2
    unfold decodeLast getPadding
    rw [if_pos rfl]
    refine returns_lookup fun o0 => returns_lookup fun o1 => ?_
    simp only [iff_true]
    by_cases h3 : c3 = padding
    · rw [if_pos h3]
      match o0, o1 with
      | none, _ | some _, none | some _, some _ => exact returns_ok _
    · -- `=` is looked up, and no digit
      rw [if_neg h3]
      match o0, o1 with
      | none, _ | some _, none | some _, some _ => exact returns_ok _
  · by_cases h3 : c3 = padding
    · have hright : (c2 = padding ∨ c3 < 128) ↔ True := by simp [h3, hpadding]
      rw [hright]
      unfold decodeLast getPadding
      rw [if_pos h3, if_neg h2]
      refine returns_lookup fun o0 => returns_lookup fun o1 => returns_lookup fun o2 => ?_
      simp only [iff_true]
      match o0, o1, o2 with
      | none, _, _ | some _, none, _ | some _, some _, none | some _, some _, some _ =>
        exact returns_ok _
    · rw [decodeLast_eq h2 h3, returns_decodeQuad]
      simp [h2]

/-- Where no fault is, the group is decoded if all of it is of the alphabet. -/
theorem mem_alphabet_of_some {c0 c1 c2 c3 : UInt8} {bytes : Bytes}
    (h : decodeQuad c0 c1 c2 c3 = .ok (some bytes)) :
    [c0, c1, c2, c3].all (alphabet.contains ·) = true := by
  obtain ⟨v0, v1, v2, v3, ⟨h0, rfl⟩, ⟨h1, rfl⟩, ⟨h2, rfl⟩, ⟨h3, rfl⟩, _⟩ := decodeQuad_some h
  simp [tab_mem h0, tab_mem h1, tab_mem h2, tab_mem h3]

theorem notMem_alphabet_of_none {c0 c1 c2 c3 : UInt8} (h : decodeQuad c0 c1 c2 c3 = .ok none) :
    [c0, c1, c2, c3].all (alphabet.contains ·) = false := by
  rw [← Bool.not_eq_true]
  intro hall
  simp only [List.all_cons, List.all_nil, Bool.and_true, Bool.and_eq_true, List.contains_iff_mem]
    at hall
  obtain ⟨v0, h0, rfl⟩ := exists_digit hall.1
  obtain ⟨v1, h1, rfl⟩ := exists_digit hall.2.1
  obtain ⟨v2, h2, rfl⟩ := exists_digit hall.2.2.1
  obtain ⟨v3, h3, rfl⟩ := exists_digit hall.2.2.2
  rw [decodeQuad_tab h0 h1 h2 h3] at h
  cases h

/-- **The decoder returns where no byte above 127 is looked up**, and only there. -/
theorem returns_decode_iff (s : Bytes) (hlen : s.length % 4 = 0) :
    Returns (decode s) ↔ noHighLookup s = true := by
  fun_induction decode s with
  | case1 => exact ⟨fun _ => rfl, fun _ => returns_ok _⟩
  | case2 c0 c1 c2 c3 =>
    rw [returns_decodeLast]
    simp [noHighLookup, and_assoc]
  | case3 c0 c1 c2 c3 rest hrest ih =>
    have hlen' : rest.length % 4 = 0 := by
      simp only [List.length_cons] at hlen
      omega
    have hquad := @returns_decodeQuad c0 c1 c2 c3
    have hall : [c0, c1, c2, c3].all (· < 128) = true ↔
        c0 < 128 ∧ c1 < 128 ∧ c2 < 128 ∧ c3 < 128 ∧ True := by simp
    rw [noHighLookup, Bool.and_eq_true, hall, ← hquad, returns_bind]
    constructor
    · intro h
      obtain ⟨o, ho, hr⟩ := h
      refine ⟨⟨o, ho⟩, ?_⟩
      cases o with
      | none =>
        rw [notMem_alphabet_of_none ho]
        rfl
      | some bytes =>
        obtain ⟨o', ho', _⟩ := returns_bind.mp hr
        rw [mem_alphabet_of_some ho, (ih hlen').mp ⟨o', ho'⟩]
        rfl
    · intro h
      obtain ⟨⟨o, ho⟩, hrest'⟩ := h
      refine ⟨o, ho, ?_⟩
      cases o with
      | none => exact returns_ok _
      | some bytes =>
        rw [mem_alphabet_of_some ho] at hrest'
        obtain ⟨o', ho'⟩ := (ih hlen').mpr hrest'
        exact returns_bind.mpr ⟨o', ho', returns_ok _⟩
    exact hrest
  | case4 input hnil hlast hquad =>
    obtain ⟨c0, c1, c2, c3, rest, rfl⟩ := exists_quad hnil hlen
    exact absurd rfl (hquad c0 c1 c2 c3 rest)

end Base64

/-! ## 4. The round trip -/

open Base64 (IsBase64 AgreesWith noHighLookup)

/-- **Base64 goes round**: encoding appends four characters for every three bytes begun, all of
    the alphabet or `=`; decoding them appends the bytes. Neither touches what was in the vector. -/
theorem base64_round_trip :
    (∀ b p q : Bytes, ∃ chars : Bytes, base64EncodeInto b p = .ok (p ++ chars) ∧
      chars.length = 4 * ((b.length + 2) / 3) ∧
      (∀ c ∈ chars, c ∈ Base64.alphabet ∨ c = Base64.padding) ∧
      base64DecodeInto chars q = .ok (.success, q ++ b)) ∧
    ∀ p : Bytes, Function.Injective fun b => base64EncodeInto b p := by
  have hround : ∀ b q : Bytes, base64DecodeInto (Base64.encode b) q = .ok (.success, q ++ b) := by
    intro b q
    have hdecode := base64Decode_encode b q
    rcases base64DecodeInto_cases (Base64.encode b) q with
      ⟨fault, h, _⟩ | ⟨room, h, _⟩ | ⟨bytes, h, h'⟩
    · rw [h] at hdecode
      cases hdecode
    · rw [h] at hdecode
      cases hdecode
    · rw [h, Except.ok.injEq, Except.ok.injEq] at hdecode
      rw [h', hdecode]
  refine ⟨fun b p q => ⟨Base64.encode b, base64EncodeInto_eq b p, Base64.length_encode b,
    fun c => Base64.mem_encode, hround b q⟩, fun p b b' heq => ?_⟩
  have heq' : Base64.encode b = Base64.encode b' := by
    simp only [base64EncodeInto_eq, base64Encode, Except.ok.injEq] at heq
    exact List.append_cancel_left heq
  have hb := hround b []
  rw [heq', hround b' [], Except.ok.injEq, Prod.mk.injEq] at hb
  exact hb.2.symm

example : base64DecodeInto (ascii "bGlnaHQgdw==") [7] = .ok (.success, 7 :: ascii "light w") := by
  rfl

/-! ## 5. Safe and exact decoding -/

/-- **What is expected of `base64_decode` and a text**, whatever the output holds: it makes no
    access outside of the table or of the vector, and keeps what was in it; it accepts the texts
    of base64, and appends the bytes whose base64 the text is. -/
structure DecodesExactly (s : Bytes) : Prop where
  safe : ∀ output, ∃ ec tail, base64DecodeInto s output = .ok (ec, output ++ tail)
  accepts : ∀ output, (∃ out, base64DecodeInto s output = .ok (.success, out)) ↔ IsBase64 s
  appends : ∀ output out, base64DecodeInto s output = .ok (.success, out) ↔
    ∃ bytes, AgreesWith s bytes ∧ out = output ++ bytes

/-- `base64_decode` succeeds with the bytes the text agrees with. -/
theorem base64Decode_ok_iff {s output out : Bytes} :
    base64Decode s output = .ok (.ok out) ↔
      ∃ bytes, AgreesWith s bytes ∧ out = output ++ bytes := by
  unfold base64Decode
  constructor
  · intro h
    split at h
    · cases h
    · obtain ⟨o, ho, h⟩ := bind_eq_ok.mp h
      match o, h with
      | some bytes, h =>
        cases h
        exact ⟨bytes, Base64.spells_iff_agreesWith.mp (Base64.decode_eq_some_iff.mp ho), rfl⟩
  · intro h
    obtain ⟨bytes, hagrees, rfl⟩ := h
    have hspells := Base64.spells_iff_agreesWith.mpr hagrees
    rw [if_neg (not_not.mpr hspells.isBase64.1), hspells.decode_eq]
    rfl

theorem base64DecodeInto_ok_iff {s output out : Bytes} :
    base64DecodeInto s output = .ok (.success, out) ↔
      ∃ bytes, AgreesWith s bytes ∧ out = output ++ bytes := by
  rw [← base64Decode_ok_iff]
  rcases base64DecodeInto_cases s output with ⟨fault, h, h'⟩ | ⟨room, h, h'⟩ | ⟨bytes, h, h'⟩
  · rw [h, h']
    exact ⟨nofun, nofun⟩
  · rw [h, h']
    refine ⟨fun heq => ?_, nofun⟩
    rw [Except.ok.injEq, Prod.mk.injEq] at heq
    exact absurd heq.1 (by decide)
  · rw [h, h']
    simp

/-- It returns where it looks no byte above 127 up. -/
theorem returns_base64Decode_iff (s output : Bytes) :
    Base64.Returns (base64Decode s output) ↔ s.length % 4 ≠ 0 ∨ noHighLookup s = true := by
  unfold base64Decode
  by_cases hlen : s.length % 4 = 0
  · rw [if_neg (not_not.mpr hlen), Base64.returns_bind]
    have hreturns := Base64.returns_decode_iff s hlen
    constructor
    · intro h
      obtain ⟨o, ho, _⟩ := h
      exact .inr (hreturns.mp ⟨o, ho⟩)
    · intro h
      obtain ⟨o, ho⟩ := hreturns.mpr (h.resolve_left (not_not.mpr hlen))
      refine ⟨o, ho, ?_⟩
      match o with
      | none | some _ => exact Base64.returns_ok _
  · rw [if_pos hlen]
    exact ⟨fun _ => .inl hlen, fun _ => Base64.returns_ok _⟩

/-- **`base64_decode` is safe and exact where it looks no byte above 127 up**, and only there: with
    such a byte the index into its table is that of no entry. -/
theorem base64_decode_exactly (s : Bytes) :
    DecodesExactly s ↔ s.length % 4 ≠ 0 ∨ noHighLookup s = true := by
  constructor
  · intro h
    obtain ⟨ec, tail, hsafe⟩ := h.safe []
    refine (returns_base64Decode_iff s []).mp ?_
    rcases base64DecodeInto_cases s [] with ⟨fault, _, h'⟩ | ⟨room, h, _⟩ | ⟨bytes, h, _⟩
    · rw [h'] at hsafe
      cases hsafe
    · exact ⟨_, h⟩
    · exact ⟨_, h⟩
  · intro h
    refine ⟨fun output => ?_, fun output => ?_, fun output out => base64DecodeInto_ok_iff⟩
    · obtain ⟨r, hr⟩ := (returns_base64Decode_iff s output).mpr h
      rcases base64DecodeInto_cases s output with ⟨fault, h, _⟩ | ⟨room, _, h'⟩ | ⟨bytes, _, h'⟩
      · rw [h] at hr
        cases hr
      · exact ⟨_, room, h'⟩
      · exact ⟨_, bytes, h'⟩
    · simp only [base64DecodeInto_ok_iff, ← Base64.exists_spells_iff,
        ← Base64.spells_iff_agreesWith]
      exact ⟨fun ⟨_, bytes, hbytes, _⟩ => ⟨bytes, hbytes⟩,
        fun ⟨bytes, hbytes⟩ => ⟨_, bytes, hbytes, rfl⟩⟩

/-- A salt with a byte above 127. -/
theorem high_byte_is_looked_up : ¬∀ s, DecodesExactly s := by
  intro h
  obtain ⟨ec, tail, hsafe⟩ := (h (0x80 :: ascii "AAA")).safe []
  rw [show base64DecodeInto (0x80 :: ascii "AAA") [] = .error .outOfRange from rfl] at hsafe
  cases hsafe

end NativePg
