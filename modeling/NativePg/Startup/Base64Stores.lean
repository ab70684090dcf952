/-
  File:      NativePg/Startup/Base64Stores.lean
  Subject:   The stores of the base64 encoder and decoder (src/nativepg_internal/base64.cpp).

  * `encodeInto`, `decodeInto` -- the two loops with the stores they make: a store outside of the
    vector is a fault;
  * `base64EncodeInto`, `base64DecodeInto` -- the two functions, with the `resize` they begin with;
  * `Leaves` -- what the decoder leaves. `decodeInto_leaves`: the stores leave what is decoded;
  * `base64EncodeInto_eq`, `base64DecodeInto_cases` -- the functions append what they encode and
    decode, and store nothing outside of the vector.
-/
import NativePg.Lib.Outcomes
import NativePg.Protocol.SerializationContext
import NativePg.Startup.Base64

namespace NativePg

namespace Base64

/-! ## 1. The stores -/

/-- `encoded_size`. -/
def encodedSize (input : Bytes) : Nat := 4 * ((input.length + 2) / 3)

/-- `decoded_size`. -/
def decodedSize (input : Bytes) : Nat :=
  if input = [] then 0
  else input.length * 3 / 4 -
    getPadding (input.getD (input.length - 2) 0) (input.getD (input.length - 1) 0)

/-- Stores one by one. -/
def storeEach (to_ : Bytes) (dest : Nat) : Bytes → Checked Bytes
  | [] => pure to_
  | b :: bytes => do
    let to_ ← storeAt to_ dest [b]
    storeEach to_ (dest + 1) bytes

/-- `encode`, with `out` at the offset `dest`. -/
def encodeInto : Bytes → (to_ : Bytes) → (dest : Nat) → Checked Bytes
  | b0 :: b1 :: b2 :: rest, to_, dest => do
    let to_ ← storeEach to_ dest (encodeThree b0 b1 b2)
    encodeInto rest to_ (dest + 4)
  | [b0, b1], to_, dest => storeEach to_ dest (encodeTwo b0 b1)
  | [b0], to_, dest => storeEach to_ dest (encodeOne b0)
  | [], to_, _ => pure to_

/-- `decode`, with `dest` as an offset: whether it succeeds, and the vector. The bytes of a group are
    stored once its characters have been looked up. -/
def decodeInto : Bytes → (output : Bytes) → (dest : Nat) → Checked (Bool × Bytes)
  | [], output, _ => pure (true, output)
  | [c0, c1, c2, c3], output, dest => do
    match ← decodeLast c0 c1 c2 c3 with
    | none => pure (false, output)
    | some bytes =>
      let output ← storeEach output dest bytes
      pure (true, output)
  | c0 :: c1 :: c2 :: c3 :: rest, output, dest => do
    match ← decodeQuad c0 c1 c2 c3 with
    | none => pure (false, output)
    | some bytes =>
      let output ← storeEach output dest bytes
      decodeInto rest output (dest + 3)
  | _, _, _ => .error .assertion

end Base64

/-- `base64_encode`, with its `resize`. -/
def base64EncodeInto (input to_ : Bytes) : Checked Bytes :=
  Base64.encodeInto input (to_ ++ List.replicate (Base64.encodedSize input) 0) to_.length

/-- `base64_decode`, with its `resize`: the code, and the vector. -/
def base64DecodeInto (input output : Bytes) : Checked (ErrorCode × Bytes) :=
  if input.length % 4 ≠ 0 then pure (ClientErrc.invalidBase64.code, output)
  else do
    let (ok, output) ← Base64.decodeInto input
      (output ++ List.replicate (Base64.decodedSize input) 0) output.length
    pure (if ok then .success else ClientErrc.invalidBase64.code, output)

namespace Base64

/-! ## 2. What the stores leave -/

/-- **Stores into the room behind what is stored already**: the room gets smaller. -/
theorem storeEach_append : ∀ (bytes done room : Bytes) (dest : Nat), dest = done.length →
    bytes.length ≤ room.length →
      storeEach (done ++ room) dest bytes = .ok (done ++ bytes ++ room.drop bytes.length)
  | [], done, room, dest, _, _ => by
      rw [storeEach, List.append_nil, List.length_nil, List.drop_zero]
      rfl
  | b :: bytes, done, old :: room, dest, hdest, hroom => by
      have hstore := storeAt_append done [old] room [b] rfl
      have ih := storeEach_append bytes (done ++ [b]) room (dest + 1) (by simp [hdest])
        (Nat.le_of_succ_le_succ hroom)
      rw [storeEach, hdest, List.append_cons, List.append_assoc, hstore, ← hdest]
      rw [List.append_assoc] at ih
      refine ih.trans ?_
      simp

/-- Stores that fill the room. -/
theorem storeEach_fill {bytes done room : Bytes} {dest : Nat} (hdest : dest = done.length)
    (hroom : room.length = bytes.length) :
    storeEach (done ++ room) dest bytes = .ok (done ++ bytes) := by
  rw [storeEach_append bytes done room dest hdest hroom.ge, List.drop_of_length_le hroom.le,
    List.append_nil]

/-- **The encoder stores what it encodes**, where there is room for it. -/
theorem encodeInto_eq (input : Bytes) : ∀ (done room : Bytes) (dest : Nat), dest = done.length →
    room.length = encodedSize input →
      encodeInto input (done ++ room) dest = .ok (done ++ encode input) := by
  fun_induction encode input with
  | case1 b0 b1 b2 rest ih =>
    intro done room dest hdest hroom
    have hsize : encodedSize (b0 :: b1 :: b2 :: rest) = encodedSize rest + 4 := by
      simp only [encodedSize, List.length_cons]
      omega
    have hlen : (encodeThree b0 b1 b2).length = 4 := rfl
    have hstored := storeEach_append (encodeThree b0 b1 b2) done room dest hdest (by omega)
    have hrest := ih (done ++ encodeThree b0 b1 b2) (room.drop 4) (dest + 4) (by simp [hdest, hlen])
      (by rw [List.length_drop]; omega)
    rw [encodeInto, hstored]
    refine hrest.trans ?_
    rw [List.append_assoc]
  | case2 b0 b1 =>
    intro done room dest hdest hroom
    exact storeEach_fill hdest (hroom.trans (by simp [encodedSize, encodeTwo]))
  | case3 b0 =>
    intro done room dest hdest hroom
    exact storeEach_fill hdest (hroom.trans (by simp [encodedSize, encodeOne]))
  | case4 =>
    intro done room dest hdest hroom
    rw [List.length_eq_zero_iff.mp hroom]
    rfl

/-- What a run of the decoder leaves behind `done`, as `decode` says: a fault, a failure and some
    bytes, or the decoded bytes. -/
def Leaves (done : Bytes) : Checked (Option Bytes) → Checked (Bool × Bytes) → Prop
  | .error fault, r => r = .error fault
  | .ok none, r => ∃ room, r = .ok (false, done ++ room)
  | .ok (some bytes), r => r = .ok (true, done ++ bytes)

/-- What is decoded already stays in front. -/
theorem Leaves.behind {done bytes : Bytes} {r : Checked (Option Bytes)}
    {r' : Checked (Bool × Bytes)} (h : Leaves (done ++ bytes) r r') :
    Leaves done (r >>= fun o => pure (o.map (bytes ++ ·))) r' := by
  match r with
  | .error fault => exact h
  | .ok none =>
    obtain ⟨room, h⟩ := h
    exact ⟨bytes ++ room, by rw [h, List.append_assoc]⟩
  | .ok (some b) =>
    rw [show r' = _ from h, List.append_assoc]
    exact rfl

theorem decodedSize_last (c0 c1 c2 c3 : UInt8) :
    decodedSize [c0, c1, c2, c3] = 3 - getPadding c2 c3 := by
  simp [decodedSize]

theorem getPadding_le (c2 c3 : UInt8) : getPadding c2 c3 ≤ 2 := by
  unfold getPadding
  split <;> split <;> decide

theorem decodedSize_quad {c0 c1 c2 c3 : UInt8} {rest : Bytes} (hne : rest ≠ [])
    (hlen : rest.length % 4 = 0) :
    decodedSize (c0 :: c1 :: c2 :: c3 :: rest) = decodedSize rest + 3 := by
  have hpos := List.length_pos_iff.mpr hne
  have hpad := getPadding_le (rest.getD (rest.length - 2) 0) (rest.getD (rest.length - 1) 0)
  have h2 : (c0 :: c1 :: c2 :: c3 :: rest).length - 2 = rest.length - 2 + 1 + 1 + 1 + 1 := by
    simp only [List.length_cons]
    omega
  have h1 : (c0 :: c1 :: c2 :: c3 :: rest).length - 1 = rest.length - 1 + 1 + 1 + 1 + 1 := by
    simp only [List.length_cons]
    omega
  unfold decodedSize
  rw [if_neg (List.cons_ne_nil _ _), if_neg hne, h2, h1]
  simp only [List.getD_cons_succ, List.length_cons]
  omega

theorem length_decodeQuad {c0 c1 c2 c3 : UInt8} {bytes : Bytes}
    (h : decodeQuad c0 c1 c2 c3 = .ok (some bytes)) : bytes.length = 3 := by
  obtain ⟨o0, -, h⟩ := bind_eq_ok.mp h
  obtain ⟨o1, -, h⟩ := bind_eq_ok.mp h
  obtain ⟨o2, -, h⟩ := bind_eq_ok.mp h
  obtain ⟨o3, -, h⟩ := bind_eq_ok.mp h
  rcases o0 with _ | v0 <;> rcases o1 with _ | v1 <;> rcases o2 with _ | v2 <;>
    rcases o3 with _ | v3 <;> cases h
  rfl

theorem length_decodeLast {c0 c1 c2 c3 : UInt8} {bytes : Bytes}
    (h : decodeLast c0 c1 c2 c3 = .ok (some bytes)) : bytes.length = 3 - getPadding c2 c3 := by
  obtain ⟨o0, -, h⟩ := bind_eq_ok.mp h
  obtain ⟨o1, -, h⟩ := bind_eq_ok.mp h
  -- whether the last two characters are looked up
  simp only at h
  split at h <;> obtain ⟨o2, -, h⟩ := bind_eq_ok.mp h <;> split at h <;>
    obtain ⟨o3, -, h⟩ := bind_eq_ok.mp h <;> rcases o0 with _ | v0 <;> rcases o1 with _ | v1 <;>
    rcases o2 with _ | v2 <;> rcases o3 with _ | v3 <;> cases h <;>
    exact List.length_take.trans (Nat.min_eq_left (Nat.sub_le ..))

/-- The last four characters. -/
theorem decodeLast_leaves (c0 c1 c2 c3 : UInt8) {done room : Bytes} {dest : Nat}
    (hdest : dest = done.length) (hroom : room.length = decodedSize [c0, c1, c2, c3]) :
    Leaves done (decodeLast c0 c1 c2 c3)
      (decodeInto [c0, c1, c2, c3] (done ++ room) dest) := by
  rw [decodedSize_last] at hroom
  unfold decodeInto
  cases h : decodeLast c0 c1 c2 c3 with
  | error fault => exact rfl
  | ok o =>
    cases o with
    | none => exact ⟨room, rfl⟩
    | some bytes =>
      have hstored := storeEach_fill hdest (hroom.trans (length_decodeLast h).symm)
      exact congrArg (· >>= fun output => pure (true, output)) hstored

/-- A text in groups of four begins with one. -/
theorem exists_quad {input : Bytes} (hne : input ≠ []) (hlen : input.length % 4 = 0) :
    ∃ c0 c1 c2 c3 rest, input = c0 :: c1 :: c2 :: c3 :: rest := by
  rcases input with _ | ⟨c0, _ | ⟨c1, _ | ⟨c2, _ | ⟨c3, rest⟩⟩⟩⟩
  · exact absurd rfl hne
  · cases hlen
  · cases hlen
  · cases hlen
  · exact ⟨c0, c1, c2, c3, rest, rfl⟩

theorem decodeInto_quad {c0 c1 c2 c3 : UInt8} {rest output : Bytes} {dest : Nat} (h : rest ≠ []) :
    decodeInto (c0 :: c1 :: c2 :: c3 :: rest) output dest = (do
      match ← decodeQuad c0 c1 c2 c3 with
      | none => pure (false, output)
      | some bytes =>
        let output ← storeEach output dest bytes
        decodeInto rest output (dest + 3)) := by
  rw [decodeInto]
  exact h

/-- **The decoder stores what it decodes**, where there is room for it. -/
theorem decodeInto_leaves (input : Bytes) : ∀ (done room : Bytes) (dest : Nat),
    dest = done.length → input.length % 4 = 0 → room.length = decodedSize input →
      Leaves done (decode input) (decodeInto input (done ++ room) dest) := by
  fun_induction decode input with
  | case1 =>
    intro done room dest hdest hlen hroom
    rw [List.length_eq_zero_iff.mp hroom]
    exact rfl
  | case2 c0 c1 c2 c3 =>
    intro done room dest hdest hlen hroom
    exact decodeLast_leaves c0 c1 c2 c3 hdest hroom
  | case3 c0 c1 c2 c3 rest hrest ih =>
    intro done room dest hdest hlen hroom
    have hrest' : rest ≠ [] := hrest
    have hlen' : rest.length % 4 = 0 := by
      simp only [List.length_cons] at hlen
      omega
    rw [decodedSize_quad hrest' hlen'] at hroom
    rw [decodeInto_quad hrest']
    cases h : decodeQuad c0 c1 c2 c3 with
    | error fault => exact rfl
    | ok o =>
      cases o with
      | none => exact ⟨room, rfl⟩
      | some bytes =>
        have hbytes := length_decodeQuad h
        have hstored := storeEach_append bytes done room dest hdest (by omega)
        have hleaves := (ih (done ++ bytes) (room.drop bytes.length) (dest + 3)
          (by simp [hdest, hbytes]) hlen' (by rw [List.length_drop]; omega)).behind
        show Leaves done _ (storeEach (done ++ room) dest bytes >>= fun output =>
          decodeInto rest output (dest + 3))
        rw [hstored]
        exact hleaves
  | case4 input hnil hlast hquad =>
    intro done room dest hdest hlen hroom
    obtain ⟨c0, c1, c2, c3, rest, rfl⟩ := exists_quad hnil hlen
    exact absurd rfl (hquad c0 c1 c2 c3 rest)

end Base64

/-- **`base64_encode` appends what it encodes**, and stores nothing outside of its vector. -/
theorem base64EncodeInto_eq (input to_ : Bytes) :
    base64EncodeInto input to_ = .ok (base64Encode input to_) :=
  Base64.encodeInto_eq input to_ _ _ rfl List.length_replicate

/-- **`base64_decode` appends what it decodes**, or fails and appends something, or faults. -/
theorem base64DecodeInto_cases (input output : Bytes) :
    (∃ fault, base64Decode input output = .error fault ∧
      base64DecodeInto input output = .error fault) ∨
    (∃ room, base64Decode input output = .ok (.error ClientErrc.invalidBase64.code) ∧
      base64DecodeInto input output = .ok (ClientErrc.invalidBase64.code, output ++ room)) ∨
    ∃ bytes, base64Decode input output = .ok (.ok (output ++ bytes)) ∧
      base64DecodeInto input output = .ok (.success, output ++ bytes) := by
  unfold base64Decode base64DecodeInto
  by_cases hlen : input.length % 4 = 0
  · rw [if_neg (not_not.mpr hlen), if_neg (not_not.mpr hlen)]
    have hleaves := Base64.decodeInto_leaves input output
      (List.replicate (Base64.decodedSize input) 0) _ rfl hlen List.length_replicate
    generalize Base64.decode input = r at hleaves ⊢
    match r with
    | .error fault =>
      rw [show _ = _ from hleaves]
      exact .inl ⟨fault, rfl, rfl⟩
    | .ok none =>
      obtain ⟨room, hroom⟩ := hleaves
      rw [hroom]
      exact .inr (.inl ⟨room, rfl, rfl⟩)
    | .ok (some bytes) =>
      rw [show _ = _ from hleaves]
      exact .inr (.inr ⟨bytes, rfl, rfl⟩)
  · rw [if_pos hlen, if_pos hlen]
    exact .inr (.inl ⟨[], rfl, by rw [List.append_nil]; rfl⟩)

end NativePg
