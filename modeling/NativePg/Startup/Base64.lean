/-
  File:      NativePg/Startup/Base64.lean
  Subject:   Base64 (src/nativepg_internal/base64.cpp), which SCRAM messages carry binary data in.

  * `base64Encode`, `base64Decode` -- both append to a vector the caller hands in;
  * `inverseTab` -- the decoder's table has 256 entries and is indexed by a `char` turned into a
    `std::size_t`. Where `char` is signed, as on x86, a byte above 127 is an index far outside of
    the table: a fault;
  * `encode_eq_reference`, `decode_encode` -- the encoder computes base64, and the decoder inverts
    it.
-/
import NativePg.Protocol.BackendMessage

namespace NativePg

namespace Base64

/-! ## 1. Encoding -/

/-- `alphabet`. -/
def alphabet : Bytes :=
  ascii "ABCDEFGHIJKLMNOPQRSTUVWXYZabcdefghijklmnopqrstuvwxyz0123456789+/"

/-- `tab[i]`. -/
def tab (i : UInt8) : UInt8 := alphabet.getD i.toNat 0

/-- The padding character `'='`. -/
def padding : UInt8 := 61

/-- The four characters of three bytes. -/
def encodeThree (b0 b1 b2 : UInt8) : Bytes :=
  [tab ((b0 &&& 0xfc) >>> 2), tab (((b0 &&& 0x03) <<< 4) + ((b1 &&& 0xf0) >>> 4)),
    tab (((b2 &&& 0xc0) >>> 6) + ((b1 &&& 0x0f) <<< 2)), tab (b2 &&& 0x3f)]

/-- `case 2`: the last two bytes. -/
def encodeTwo (b0 b1 : UInt8) : Bytes :=
  [tab ((b0 &&& 0xfc) >>> 2), tab (((b0 &&& 0x03) <<< 4) + ((b1 &&& 0xf0) >>> 4)),
    tab ((b1 &&& 0x0f) <<< 2), padding]

/-- `case 1`: the last byte. -/
def encodeOne (b0 : UInt8) : Bytes :=
  [tab ((b0 &&& 0xfc) >>> 2), tab ((b0 &&& 0x03) <<< 4), padding, padding]

/-- `encode`: three bytes at a time, then what `len % 3` leaves. -/
def encode : Bytes → Bytes
  | b0 :: b1 :: b2 :: rest => encodeThree b0 b1 b2 ++ encode rest
  | [b0, b1] => encodeTwo b0 b1
  | [b0] => encodeOne b0
  | [] => []

/-! ## 2. Decoding -/

/-- `inverse_tab[static_cast<std::size_t>(c)]`; `none` is the entry -1. -/
def inverseTab (c : UInt8) : Checked (Option UInt8) :=
  if 128 ≤ c then .error .outOfRange
  else .ok (
    if c = 43 then some 62
    else if c = 47 then some 63
    else if 48 ≤ c ∧ c ≤ 57 then some (c - 48 + 52)
    else if 65 ≤ c ∧ c ≤ 90 then some (c - 65)
    else if 97 ≤ c ∧ c ≤ 122 then some (c - 97 + 26)
    else none)

/-- `get_padding`, of the last four characters. -/
def getPadding (c2 c3 : UInt8) : Nat :=
  (if c3 = padding then 1 else 0) + (if c2 = padding then 1 else 0)

/-- The three bytes of four decoded characters. -/
def joinSextets (v0 v1 v2 v3 : UInt8) : Bytes :=
  [(v0 <<< 2) + ((v1 &&& 0x30) >>> 4), ((v1 &&& 0xf) <<< 4) + ((v2 &&& 0x3c) >>> 2),
    ((v2 &&& 0x3) <<< 6) + v3]

/-- The last four characters: padded ones are not looked up, and their bytes not written. -/
def decodeLast (c0 c1 c2 c3 : UInt8) : Checked (Option Bytes) := do
  let pad := getPadding c2 c3
  let v0 ← inverseTab c0
  let v1 ← inverseTab c1
  let v2 ← if pad = 2 then pure (some 0) else inverseTab c2
  let v3 ← if pad > 0 then pure (some 0) else inverseTab c3
  match v0, v1, v2, v3 with
  | some v0, some v1, some v2, some v3 => pure (some ((joinSextets v0 v1 v2 v3).take (3 - pad)))
  | _, _, _, _ => pure none

/-- Four characters in front of the last four. -/
def decodeQuad (c0 c1 c2 c3 : UInt8) : Checked (Option Bytes) := do
  let v0 ← inverseTab c0
  let v1 ← inverseTab c1
  let v2 ← inverseTab c2
  let v3 ← inverseTab c3
  match v0, v1, v2, v3 with
  | some v0, some v1, some v2, some v3 => pure (some (joinSextets v0 v1 v2 v3))
  | _, _, _, _ => pure none

/-- `decode`: `none` where it returns false. The caller has checked that the length is a multiple
    of four (`BOOST_ASSERT`). -/
def decode : Bytes → Checked (Option Bytes)
  | [] => pure (some [])
  | [c0, c1, c2, c3] => decodeLast c0 c1 c2 c3
  | c0 :: c1 :: c2 :: c3 :: rest => do
    match ← decodeQuad c0 c1 c2 c3 with
    | none => pure none
    | some bytes => return (← decode rest).map (bytes ++ ·)
  | _ => .error .assertion

end Base64

/-! ## 3. The two functions SCRAM uses -/

/-- `base64_encode`. -/
def base64Encode (input dest : Bytes) : Bytes := dest ++ Base64.encode input

/-- `base64_decode`; what a failed call leaves in the output is thrown away by its callers. -/
def base64Decode (input output : Bytes) : Checked (Except ErrorCode Bytes) :=
  if input.length % 4 ≠ 0 then pure (.error ClientErrc.invalidBase64.code)
  else do
    match ← Base64.decode input with
    | some bytes => pure (.ok (output ++ bytes))
    | none => pure (.error ClientErrc.invalidBase64.code)

/-! ## 4. What the two functions compute

The characters are those of the base64 of RFC 4648: three bytes are a number of 24 bits, which four
digits to the base 64 spell. -/

namespace Base64

/-- The four characters of a number of 24 bits. -/
def quad (n : Nat) : Bytes :=
  [n / 2 ^ 18 % 64, n / 2 ^ 12 % 64, n / 2 ^ 6 % 64, n % 64].map fun digit => tab digit.toUInt8

/-- Base64, by arithmetic. -/
def reference : Bytes → Bytes
  | b0 :: b1 :: b2 :: rest =>
    quad (b0.toNat * 2 ^ 16 + b1.toNat * 2 ^ 8 + b2.toNat) ++ reference rest
  | [b0, b1] => (quad (b0.toNat * 2 ^ 16 + b1.toNat * 2 ^ 8)).take 3 ++ [padding]
  | [b0] => (quad (b0.toNat * 2 ^ 16)).take 2 ++ [padding, padding]
  | [] => []

/-- The parts of a byte the encoder takes. -/
theorem toNat_encoded : ∀ b : UInt8, ((b &&& 0xfc) >>> 2).toNat = b.toNat / 4 ∧
    ((b &&& 0x03) <<< 4).toNat = b.toNat % 4 * 16 ∧ ((b &&& 0xf0) >>> 4).toNat = b.toNat / 16 ∧
    ((b &&& 0xc0) >>> 6).toNat = b.toNat / 64 ∧ ((b &&& 0x0f) <<< 2).toNat = b.toNat % 16 * 4 ∧
    (b &&& 0x3f).toNat = b.toNat % 64 :=
  forall_byte (by decide +kernel)

/-- The parts of a sextet the decoder takes. -/
theorem toNat_decoded : ∀ v : UInt8, (v <<< 2).toNat = v.toNat * 4 % 256 ∧
    ((v &&& 0x30) >>> 4).toNat = v.toNat / 16 % 4 ∧ ((v &&& 0xf) <<< 4).toNat = v.toNat % 16 * 16 ∧
    ((v &&& 0x3c) >>> 2).toNat = v.toNat / 4 % 16 ∧ ((v &&& 0x3) <<< 6).toNat = v.toNat % 4 * 64 :=
  forall_byte (by decide +kernel)

section
variable (b0 b1 b2 : UInt8)

/-- The four sextets of three bytes. -/
def sextet0 : UInt8 := (b0 &&& 0xfc) >>> 2
def sextet1 : UInt8 := ((b0 &&& 0x03) <<< 4) + ((b1 &&& 0xf0) >>> 4)
def sextet2 : UInt8 := ((b2 &&& 0xc0) >>> 6) + ((b1 &&& 0x0f) <<< 2)
def sextet3 : UInt8 := b2 &&& 0x3f

theorem toNat_sextet0 : (sextet0 b0).toNat = b0.toNat / 4 := (toNat_encoded b0).1

theorem toNat_sextet1 : (sextet1 b0 b1).toNat = b0.toNat % 4 * 16 + b1.toNat / 16 := by
  have h1 := b1.toNat_lt
  rw [sextet1, UInt8.toNat_add, (toNat_encoded b0).2.1, (toNat_encoded b1).2.2.1]
  omega

theorem toNat_sextet2 : (sextet2 b1 b2).toNat = b1.toNat % 16 * 4 + b2.toNat / 64 := by
  have h2 := b2.toNat_lt
  rw [sextet2, UInt8.toNat_add, (toNat_encoded b2).2.2.2.1, (toNat_encoded b1).2.2.2.2.1]
  omega

theorem toNat_sextet3 : (sextet3 b2).toNat = b2.toNat % 64 := (toNat_encoded b2).2.2.2.2.2

/-- The sextets are the digits of the number the bytes are. -/
theorem quad_bytes : quad (b0.toNat * 2 ^ 16 + b1.toNat * 2 ^ 8 + b2.toNat) =
    [tab (sextet0 b0), tab (sextet1 b0 b1), tab (sextet2 b1 b2), tab (sextet3 b2)] := by
  have h0 := b0.toNat_lt
  have h1 := b1.toNat_lt
  have h2 := b2.toNat_lt
  have hsextet : ∀ {n : Nat} {v : UInt8}, v.toNat = n → n.toUInt8 = v := by
    rintro n v rfl
    simp
  unfold quad
  simp only [List.map_cons, List.map_nil]
  rw [hsextet (v := sextet0 b0) (by rw [toNat_sextet0]; omega),
    hsextet (v := sextet1 b0 b1) (by rw [toNat_sextet1]; omega),
    hsextet (v := sextet2 b1 b2) (by rw [toNat_sextet2]; omega),
    hsextet (v := sextet3 b2) (by rw [toNat_sextet3]; omega)]

/-- The decoder puts the bytes together again. -/
theorem joinSextets_sextets :
    joinSextets (sextet0 b0) (sextet1 b0 b1) (sextet2 b1 b2) (sextet3 b2) = [b0, b1, b2] := by
  have h0 := b0.toNat_lt
  have h1 := b1.toNat_lt
  have h2 := b2.toNat_lt
  unfold joinSextets
  congr 1
  · apply UInt8.toNat_inj.mp
    rw [UInt8.toNat_add, (toNat_decoded _).1, (toNat_decoded _).2.1, toNat_sextet0, toNat_sextet1]
    omega
  · congr 1
    · apply UInt8.toNat_inj.mp
      rw [UInt8.toNat_add, (toNat_decoded _).2.2.1, (toNat_decoded _).2.2.2.1, toNat_sextet1,
        toNat_sextet2]
      omega
    · congr 1
      apply UInt8.toNat_inj.mp
      rw [UInt8.toNat_add, (toNat_decoded _).2.2.2.2, toNat_sextet2, toNat_sextet3]
      omega

theorem encode_three (rest : Bytes) : encode (b0 :: b1 :: b2 :: rest) =
    [tab (sextet0 b0), tab (sextet1 b0 b1), tab (sextet2 b1 b2), tab (sextet3 b2)] ++ encode rest :=
  rfl

-- the bits a missing byte would give are zero
theorem encode_two : encode [b0, b1] =
    [tab (sextet0 b0), tab (sextet1 b0 b1), tab (sextet2 b1 0), padding] := by
  simp [encode, encodeTwo, sextet0, sextet1, sextet2]

theorem encode_one : encode [b0] = [tab (sextet0 b0), tab (sextet1 b0 0), padding, padding] := by
  simp [encode, encodeOne, sextet0, sextet1]

end

/-- **The encoder computes base64.** -/
theorem encode_eq_reference (l : Bytes) : encode l = reference l := by
  fun_induction reference l with
  | case1 b0 b1 b2 rest ih => rw [encode_three, quad_bytes, ih]
  | case2 b0 b1 =>
    have hquad := quad_bytes b0 b1 0
    rw [show (0 : UInt8).toNat = 0 from rfl, Nat.add_zero] at hquad
    rw [encode_two, hquad]
    rfl
  | case3 b0 =>
    have hquad := quad_bytes b0 0 0
    rw [show (0 : UInt8).toNat = 0 from rfl, Nat.zero_mul, Nat.add_zero] at hquad
    rw [encode_one, hquad]
    rfl
  | case4 => rfl

/-- The decoder's table inverts the encoder's. -/
theorem inverseTab_tab {v : UInt8} (h : v.toNat < 64) : inverseTab (tab v) = .ok (some v) := by
  have htab : ∀ n : Fin 64, inverseTab (tab n.val.toUInt8) = .ok (some n.val.toUInt8) := by
    decide +kernel
  simpa using htab ⟨v.toNat, h⟩

theorem tab_mem {v : UInt8} (h : v.toNat < 64) : tab v ∈ alphabet := by
  have htab : ∀ n : Fin 64, tab n.val.toUInt8 ∈ alphabet := by decide +kernel
  simpa using htab ⟨v.toNat, h⟩

theorem tab_ne_padding {v : UInt8} (h : v.toNat < 64) : tab v ≠ padding := by
  intro heq
  exact absurd (heq ▸ tab_mem h) (by decide)

section
variable (b0 b1 b2 : UInt8)

theorem sextet0_lt : (sextet0 b0).toNat < 64 := by
  have := b0.toNat_lt
  rw [toNat_sextet0]
  omega

theorem sextet1_lt : (sextet1 b0 b1).toNat < 64 := by
  have := b1.toNat_lt
  rw [toNat_sextet1]
  omega

theorem sextet2_lt : (sextet2 b1 b2).toNat < 64 := by
  have := b2.toNat_lt
  rw [toNat_sextet2]
  omega

theorem sextet3_lt : (sextet3 b2).toNat < 64 := by
  rw [toNat_sextet3]
  omega

theorem decodeQuad_sextets : decodeQuad (tab (sextet0 b0)) (tab (sextet1 b0 b1))
    (tab (sextet2 b1 b2)) (tab (sextet3 b2)) = .ok (some [b0, b1, b2]) := by
  unfold decodeQuad
  rw [inverseTab_tab (sextet0_lt b0), inverseTab_tab (sextet1_lt b0 b1),
    inverseTab_tab (sextet2_lt b1 b2), inverseTab_tab (sextet3_lt b2)]
  exact congrArg _ (congrArg _ (joinSextets_sextets b0 b1 b2))

theorem decodeLast_three : decodeLast (tab (sextet0 b0)) (tab (sextet1 b0 b1))
    (tab (sextet2 b1 b2)) (tab (sextet3 b2)) = .ok (some [b0, b1, b2]) := by
  unfold decodeLast getPadding
  rw [if_neg (tab_ne_padding (sextet3_lt b2)), if_neg (tab_ne_padding (sextet2_lt b1 b2)),
    inverseTab_tab (sextet0_lt b0), inverseTab_tab (sextet1_lt b0 b1),
    inverseTab_tab (sextet2_lt b1 b2), inverseTab_tab (sextet3_lt b2)]
  exact congrArg _ (congrArg _ (joinSextets_sextets b0 b1 b2))

theorem decodeLast_two : decodeLast (tab (sextet0 b0)) (tab (sextet1 b0 b1))
    (tab (sextet2 b1 0)) padding = .ok (some [b0, b1]) := by
  unfold decodeLast getPadding
  rw [if_pos rfl, if_neg (tab_ne_padding (sextet2_lt b1 0)), inverseTab_tab (sextet0_lt b0),
    inverseTab_tab (sextet1_lt b0 b1), inverseTab_tab (sextet2_lt b1 0)]
  have hjoin := joinSextets_sextets b0 b1 0
  exact congrArg _ (congrArg _ (congrArg (List.take 2) hjoin))

theorem decodeLast_one : decodeLast (tab (sextet0 b0)) (tab (sextet1 b0 0)) padding padding =
    .ok (some [b0]) := by
  unfold decodeLast getPadding
  rw [if_pos rfl, inverseTab_tab (sextet0_lt b0), inverseTab_tab (sextet1_lt b0 0)]
  have hjoin := joinSextets_sextets b0 0 0
  exact congrArg _ (congrArg _ (congrArg (List.take 1) hjoin))

end

theorem decode_quad {c0 c1 c2 c3 : UInt8} {rest : Bytes} (h : rest ≠ []) :
    decode (c0 :: c1 :: c2 :: c3 :: rest) = (do
      match ← decodeQuad c0 c1 c2 c3 with
      | none => pure none
      | some bytes => return (← decode rest).map (bytes ++ ·)) := by
  rw [decode]
  exact h

theorem length_encode (l : Bytes) : (encode l).length = 4 * ((l.length + 2) / 3) := by
  fun_induction encode l with
  | case1 b0 b1 b2 rest ih =>
    simp only [List.length_append, encodeThree, List.length_cons, List.length_nil, ih]
    omega
  | case2 | case3 => simp [encodeTwo, encodeOne]
  | case4 => rfl

theorem encode_ne_nil {l : Bytes} (h : l ≠ []) : encode l ≠ [] := by
  intro hnil
  have hlen := length_encode l
  have hpos := List.length_pos_iff.mpr h
  rw [hnil, List.length_nil] at hlen
  omega

/-- **The decoder inverts the encoder.** -/
theorem decode_encode (l : Bytes) : decode (encode l) = .ok (some l) := by
  fun_induction reference l with
  | case1 b0 b1 b2 rest ih =>
    rw [encode_three]
    by_cases hrest : rest = []
    · subst hrest
      exact decodeLast_three b0 b1 b2
    · simp only [List.cons_append, List.nil_append]
      rw [decode_quad (encode_ne_nil hrest), decodeQuad_sextets, ih]
      rfl
  | case2 b0 b1 =>
    rw [encode_two]
    exact decodeLast_two b0 b1
  | case3 b0 =>
    rw [encode_one]
    exact decodeLast_one b0
  | case4 => rfl

/-- Every character is one of the alphabet or the padding. -/
theorem mem_encode {l : Bytes} {c : UInt8} (h : c ∈ encode l) : c ∈ alphabet ∨ c = padding := by
  fun_induction reference l with
  | case1 b0 b1 b2 rest ih =>
    rw [encode_three] at h
    simp only [List.cons_append, List.nil_append, List.mem_cons] at h
    rcases h with rfl | rfl | rfl | rfl | h
    · exact .inl (tab_mem (sextet0_lt b0))
    · exact .inl (tab_mem (sextet1_lt b0 b1))
    · exact .inl (tab_mem (sextet2_lt b1 b2))
    · exact .inl (tab_mem (sextet3_lt b2))
    · exact ih h
  | case2 b0 b1 =>
    rw [encode_two] at h
    simp only [List.mem_cons, List.not_mem_nil, or_false] at h
    rcases h with rfl | rfl | rfl | rfl
    · exact .inl (tab_mem (sextet0_lt b0))
    · exact .inl (tab_mem (sextet1_lt b0 b1))
    · exact .inl (tab_mem (sextet2_lt b1 0))
    · exact .inr rfl
  | case3 b0 =>
    rw [encode_one] at h
    simp only [List.mem_cons, List.not_mem_nil, or_false] at h
    rcases h with rfl | rfl | rfl | rfl
    · exact .inl (tab_mem (sextet0_lt b0))
    · exact .inl (tab_mem (sextet1_lt b0 0))
    · exact .inr rfl
    · exact .inr rfl
  | case4 => cases h

end Base64

/-- **`base64_decode` inverts `base64_encode`.** -/
theorem base64Decode_encode (input output : Bytes) :
    base64Decode (Base64.encode input) output = .ok (.ok (output ++ input)) := by
  unfold base64Decode
  rw [if_neg (by rw [Base64.length_encode]; omega), Base64.decode_encode]
  rfl

example : base64Encode (ascii "light w") [] = ascii "bGlnaHQgdw==" := by decide

example : base64Decode (ascii "bGlnaHQgdw==") [] = .ok (.ok (ascii "light w")) := by rfl

end NativePg
