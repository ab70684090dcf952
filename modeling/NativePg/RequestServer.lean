/-
  File:      NativePg/RequestServer.lean
  Subject:   What a server reads of the requests a client builds.

  * `Command` -- what one frame of a request tells the server. `RequestMessage.command` is what the
    client means by it;
  * `decodeCommand`, `readCommands` -- the server: it cuts what has arrived into frames and decodes
    each of them; it knows neither the client's messages nor where one request ends;
  * `readCommands_emitted_iff` -- when it reads what was meant;
  * **`build_read_iff`** -- a request that was built is read as it was meant just when every message
    fits its length field and no string in it has a NUL.
-/
import NativePg.Protocol.Decoding
import NativePg.RequestFailure

namespace NativePg

open Decode RequestBuilder

/-! ## 1. Commands -/

/-- What a frame tells the server. -/
inductive Command where
  | content (c : Content)
  | flush
  | sync
  deriving DecidableEq, Repr

namespace Command

/-- No string has a NUL in it. -/
def Clean : Command → Prop
  | .content c => c.Clean
  | .flush | .sync => True

instance : DecidablePred Clean
  | .content c => inferInstanceAs (Decidable c.Clean)
  | .flush | .sync => .isTrue trivial

/-- What kind of request message it is; none for the messages of a login or a copy. -/
def type : Command → Option RequestMessageType
  | .content (.query _) => some .query
  | .content (.parse ..) => some .parse
  | .content (.bind ..) => some .bind
  | .content (.describe ..) => some .describe
  | .content (.close ..) => some .close
  | .content (.execute ..) => some .execute
  | .content _ => none
  | .flush => some .flush
  | .sync => some .sync

end Command

namespace RequestMessage

/-- What the client means by a message. -/
def command : RequestMessage → Command
  | .bind msg => .content (.bind msg.portalName msg.statementName
      (msg.parameterFmtCodes.codes.map FormatCode.value) (msg.parametersFn.values.map some)
      (msg.resultFmtCodes.codes.map FormatCode.value))
  | .close type name => .content (.close type.byte name)
  | .describe type name => .content (.describe type.byte name)
  | .execute portalName maxNumRows => .content (.execute portalName maxNumRows.toInt)
  | .flush => .flush
  | .parse statementName text oids => .content (.parse statementName text (oids.map Int32.toInt))
  | .query text => .content (.query text)
  | .sync => .sync

theorem type_command (m : RequestMessage) : m.command.type = some m.type := by
  cases m <;> rfl

end RequestMessage

/-! ## 2. The server -/

/-- A frame of a request: `Flush` and `Sync` have no body. -/
def decodeCommand (frame : UInt8 × Bytes) : Option Command :=
  if frame.1 = RequestMessageType.flush.byte then
    if frame.2 = [] then some .flush else none
  else if frame.1 = RequestMessageType.sync.byte then
    if frame.2 = [] then some .sync else none
  else (whole (decodeBody (Char.ofNat frame.1.toNat)) frame.2).map .content

/-- Frames one behind the other. -/
def decodeCommands : List (UInt8 × Bytes) → Option (List Command)
  | [] => some []
  | frame :: frames => do
    let command ← decodeCommand frame
    let commands ← decodeCommands frames
    pure (command :: commands)

/-- The bytes of some requests. -/
def readCommands (bytes : Bytes) : Option (List Command) :=
  (splitFrames bytes).bind decodeCommands

/-! ## 3. Messages as they are written -/

namespace RequestMessage

/-- A message with fields is of another type than those without. -/
theorem decodeCommand_content {m : RequestMessage} {c : Content} {t : Char}
    (hcommand : m.command = .content c) (htype : m.value.type = some t) :
    m.value.content = some c ∧
      decodeCommand m.frame = (whole (decodeBody t) m.value.body).map .content := by
  cases m with
  | flush | sync => cases hcommand
  | _ =>
    cases hcommand
    cases htype
    exact ⟨rfl, rfl⟩

/-- **A message is read as it was meant** just when its strings are clean. -/
theorem decodeCommand_frame_iff {m : RequestMessage} (h : m.value.rejected = false) :
    decodeCommand m.frame = some m.command ↔ m.command.Clean := by
  cases hcommand : m.command with
  | flush | sync =>
    cases m <;> cases hcommand
    exact iff_of_true rfl trivial
  | content c =>
    obtain ⟨t, htype⟩ : ∃ t, m.value.type = some t := by
      cases m <;> exact ⟨_, rfl⟩
    obtain ⟨hcontent, hdecode⟩ := decodeCommand_content hcommand htype
    rw [hdecode, Option.map_eq_some_iff]
    constructor
    · rintro ⟨c', hread, hc⟩
      cases hc
      exact (ensures_body t).of_whole hread
    · intro hclean
      exact ⟨c, whole_of_reads (FrontendMessage.reads_body hcontent htype h hclean), rfl⟩

end RequestMessage

theorem decodeCommands_frames_iff : ∀ {ms : List RequestMessage},
    decodeCommands (ms.map (·.frame)) = some (ms.map (·.command)) ↔
      ∀ m ∈ ms, decodeCommand m.frame = some m.command
  | [] => by simp [decodeCommands]
  | m :: ms => by
      rw [List.forall_mem_cons, ← decodeCommands_frames_iff]
      simp only [List.map_cons, decodeCommands, Option.bind_eq_bind, Option.bind_eq_some_iff,
        Option.pure_def, Option.some.injEq, List.cons.injEq]
      constructor
      · rintro ⟨command, hcommand, commands, hcommands, rfl, rfl⟩
        exact ⟨hcommand, hcommands⟩
      · rintro ⟨hcommand, hcommands⟩
        exact ⟨_, hcommand, _, hcommands, rfl, rfl⟩

/-- A message that does not fit its length field is left with the length zero. -/
theorem emitted_of_not_fits {m : RequestMessage} (h : ¬FrameFits m.frame) :
    ∃ t : UInt8, m.value.emitted = t :: ([0, 0, 0, 0] ++ m.value.body) := by
  obtain ⟨t, htype⟩ : ∃ t, m.value.type = some t := by
    cases m <;> exact ⟨_, rfl⟩
  have hlong : m.value.body.length + 4 > int32Max := Nat.not_le.mp h
  refine ⟨t.toNat.toUInt8, ?_⟩
  unfold FrontendMessage.emitted finalizeMessage
  rw [htype, Option.elim_some]
  simp only
  rw [if_pos hlong]
  rfl

/-- Messages that are framed as they are written fit their length fields. -/
theorem frameFits_of_framed : ∀ {ms : List RequestMessage} {frames : List (UInt8 × Bytes)},
    Framed (ms.flatMap (·.value.emitted)) frames → ∀ m ∈ ms, FrameFits m.frame
  | [], _, _ => by simp
  | m :: ms, frames, h => by
      rw [List.flatMap_cons] at h
      obtain ⟨frames', h'⟩ := framed_of_emitted h
      refine List.forall_mem_cons.mpr ⟨?_, frameFits_of_framed h'⟩
      by_contra hfits
      obtain ⟨t, hemitted⟩ := emitted_of_not_fits hfits
      rw [hemitted, List.cons_append, List.append_assoc] at h
      exact not_framed_zero _ _ _ h

/-- **When a server reads what was meant**: every message fits its length field, and its strings are
    clean. One that does not, or is not, is not read as it was meant, whatever it is read as. -/
theorem readCommands_emitted_iff {ms : List RequestMessage}
    (h : ∀ m ∈ ms, m.value.rejected = false) :
    readCommands (ms.flatMap (·.value.emitted)) = some (ms.map (·.command)) ↔
      ∀ m ∈ ms, FrameFits m.frame ∧ m.command.Clean := by
  have hclean : (∀ m ∈ ms, FrameFits m.frame) →
      (readCommands (ms.flatMap (·.value.emitted)) = some (ms.map (·.command)) ↔
        ∀ m ∈ ms, m.command.Clean) := by
    intro hfits
    rw [readCommands, splitFrames_emitted hfits, Option.bind_some, decodeCommands_frames_iff]
    exact forall₂_congr fun m hm => RequestMessage.decodeCommand_frame_iff (h m hm)
  constructor
  · intro hread
    obtain ⟨frames, hsplit, -⟩ := Option.bind_eq_some_iff.mp hread
    have hfits := frameFits_of_framed (framed_of_splitLoop hsplit)
    exact fun m hm => ⟨hfits m hm, (hclean hfits).mp hread m hm⟩
  · intro hall
    exact (hclean fun m hm => (hall m hm).1).mpr fun m hm => (hall m hm).2

/-! ## 4. Requests as they are built -/

theorem build_performs : ∀ (cs : List AddCall) (req : RequestBuilder),
    (build cs).Performs req (messagesOf req.autosync cs) (autosyncAfter req.autosync cs)
  | [], req => ⟨.success, req, rfl, .inl ⟨rfl, by simp [messagesOf], (appended_nil req).symm⟩⟩
  | c :: cs, req => (perform_performs c req).andThen (build_performs cs _)

/-- What calls that return make of an empty request. -/
theorem build_spec {autosync : Bool} {calls : List AddCall} {ec : ErrorCode} {req : RequestBuilder}
    (hrun : build calls { autosync } = .ok (ec, req)) (hec : ec.failed = false) :
    req.payload = (messagesOf autosync calls).flatMap (·.value.emitted) ∧
      req.messages = (messagesOf autosync calls).map (·.type) ∧
      ∀ m ∈ messagesOf autosync calls, m.value.rejected = false := by
  obtain ⟨ec', req', hrun', ⟨-, hgood, rfl⟩ | ⟨hfailed, -⟩⟩ := build_performs calls { autosync }
  · rw [hrun] at hrun'
    cases hrun'
    exact ⟨rfl, rfl, hgood⟩
  · rw [hrun] at hrun'
    cases hrun'
    rw [hec] at hfailed
    cases hfailed

/-- **What a server reads of a request** that was built without an error: the messages of the calls,
    one for one and of the types that were noted in `messages()`, if and only if every message fits
    its length field and no string in it has a NUL. -/
theorem build_read_iff {autosync : Bool} {calls : List AddCall} {ec : ErrorCode}
    {req : RequestBuilder} (hrun : build calls { autosync } = .ok (ec, req))
    (hec : ec.failed = false) :
    (readCommands req.payload = some ((messagesOf autosync calls).map (·.command)) ↔
      ∀ m ∈ messagesOf autosync calls, FrameFits m.frame ∧ m.command.Clean) ∧
    ((messagesOf autosync calls).map (·.command)).map Command.type = req.messages.map some := by
  obtain ⟨hpayload, hmessages, hgood⟩ := build_spec hrun hec
  refine ⟨?_, ?_⟩
  · rw [hpayload]
    exact readCommands_emitted_iff hgood
  · rw [hmessages, List.map_map, List.map_map]
    exact List.map_congr_left fun m _ => m.type_command

/-- A query, and one with a NUL in it. -/
theorem build_read_iff_queries :
    (∃ req, build [.addSimpleQuery (ascii "BEGIN")] {} = .ok (.success, req) ∧
      readCommands req.payload = some [.content (.query (ascii "BEGIN"))]) ∧
    ∃ req, build [.addSimpleQuery [65, 0]] {} = .ok (.success, req) ∧
      readCommands req.payload ≠ some [.content (.query [65, 0])] := by
  refine ⟨⟨_, rfl, ?_⟩, _, rfl, ?_⟩
  · exact (@build_read_iff true [.addSimpleQuery (ascii "BEGIN")] _ _ rfl rfl).1.mpr (by decide)
  · intro hread
    have hall := (@build_read_iff true [.addSimpleQuery [65, 0]] _ _ rfl rfl).1.mp hread
    exact absurd hall (by decide)

end NativePg
