import Sdkd.IODispatch
import Sdkd.Lib.Determined

/-!
# Error replies

The reply to a line that is no JSON. Its request is parsed twice, both times without a reset, so that the
numbers and the command of the reply are those the memory of the request held before.

## Main definitions

- `Request.errorReply` — what `readRequest` answers
- `Request.ReplyDefined` — the reply is a function of the line

## Main results

- `Request.decode_eq_of_error`
- `errorReply_reads_memory`
-/

namespace Sdkd

namespace Request

variable [JsonAccess] [JsonReader]

/-- The response `readRequest` makes of a request that is not valid. -/
def errorReply (junk : Message) (str : String) : Response :=
  .ofRequest (decode junk str) (decode junk str).err

/-- The request of a line has the values of a reset, and its error reply does not depend on the memory the
request is made in. -/
structure ReplyDefined (str : String) : Prop where
  reqid : ∀ junk, (decode junk str).reqid = 0
  handleId : ∀ junk, (decode junk str).handleId = 0
  command : ∀ junk, (decode junk str).command = ⟨"", .invalidCommand⟩
  reply : Determined fun junk => (errorReply junk str).toJson

variable {str text : String}

/-- A line that does not parse leaves the members alone that a message does not construct. -/
theorem decode_eq_of_error (h : JsonReader.parse str = .error text) (junk : Message) :
    decode junk str = {
      reqid := junk.reqid
      handleId := junk.handleId
      command := ⟨"", junk.command.code⟩
      payload := .null
      err := .of Error.SUBSYSf_SDKD Error.SDKD_EINVAL text } := by
  unfold decode ofString refreshWith Message.refreshWith
  simp only [h, Message.uninitialised]
  rfl

theorem isValid_of_error (h : JsonReader.parse str = .error text) (junk : Message) :
    isValid (decode junk str) = false := by
  rw [Bool.eq_false_iff, ne_eq, isValid_decode_iff]
  rintro ⟨json, hjson, -⟩
  cases h.symm.trans hjson

/-- A message that holds `n` wherever a number is not constructed. -/
def memory (n : ℕ) (code : Code) : Message := ⟨n, n, ⟨"", code⟩, .null, .success⟩

theorem errorReply_reqid (h : JsonReader.parse str = .error text) (junk : Message) :
    (errorReply junk str).toJson.get "ReqID" = .int ((junk.reqid : ℤ).bmod (2 ^ 32)) := by
  unfold errorReply
  rw [decode_eq_of_error h]
  rfl

theorem errorReply_not_determined (h : JsonReader.parse str = .error text) :
    ¬ Determined fun junk => (errorReply junk str).toJson := by
  intro hdet
  have hreqid := hdet.of_eq (·.get "ReqID") (errorReply_reqid h) (memory 0 .invalidCommand)
    (memory 1 .invalidCommand)
  exact absurd (Json.int.inj hreqid) (by decide)

end Request

section Replies

variable [JsonAccess] [JsonReader] [JsonWriter]

/-- `readRequest` writes the error reply of a line that does not parse. -/
theorem IOProtoHandler.readRequest_of_error {io io' : IOProtoHandler} {c : Char} {cs : List Char}
    {text : String} (hget : io.getRawMessage = (.ok c cs, io'))
    (h : JsonReader.parse (String.ofList (c :: cs)) = .error text) (junk : Message) :
    io.readRequest junk =
      (.invalid, io'.writeResponse (Request.errorReply junk (String.ofList (c :: cs)))) := by
  unfold readRequest
  rw [hget]
  dsimp only
  rw [Request.isValid_of_error h]
  rfl

/-- **Error replies.** No line that fails to parse has a defined reply. The numbers and the command of its
request are those of the memory, and the reply that is queued for it changes with them. -/
theorem errorReply_reads_memory {str text : String} (h : JsonReader.parse str = .error text) :
    ¬ Request.ReplyDefined str ∧
    (∀ junk, (Request.decode junk str).reqid = junk.reqid ∧
      (Request.decode junk str).handleId = junk.handleId ∧
      (Request.decode junk str).command.code = junk.command.code) ∧
    ∀ (io io' : IOProtoHandler) c cs, io.getRawMessage = (.ok c cs, io') →
      String.ofList (c :: cs) = str →
      ¬ Determined fun junk => (io.readRequest junk).2.queued.map Response.toJson := by
  refine ⟨fun hdefined => Request.errorReply_not_determined h hdefined.reply, fun junk => ?_, ?_⟩
  · rw [Request.decode_eq_of_error h]
    exact ⟨rfl, rfl, rfl⟩
  · rintro io io' c cs hget rfl hdet
    refine Request.errorReply_not_determined h fun junk junk' => ?_
    have hqueued := hdet junk junk'
    simpa [IOProtoHandler.readRequest_of_error hget h] using hqueued

end Replies

section Examples

/-- A reader that has got a closing brace. -/
@[reducible] def braceReader : JsonReader where
  parse := fun str =>
    if str = "\x7d" then .error "* Line 1, Column 1\n  Syntax error: value, object or array expected.\n"
    else .ok .null

theorem brace_reads_memory :
    letI := JsonAccess.plain
    letI := braceReader
    (Request.decode (Request.memory 7 .goodbye) "\x7d").reqid = 7 ∧
      (Request.decode (Request.memory 7 .goodbye) "\x7d").handleId = 7 ∧
      (Request.decode (Request.memory 7 .goodbye) "\x7d").command.code = .goodbye := by
  let := JsonAccess.plain
  let := braceReader
  let := JsonWriter.compact
  have hrejected : ∃ text, JsonReader.parse "\x7d" = .error text := ⟨_, rfl⟩
  exact (errorReply_reads_memory hrejected.choose_spec).2.1 (Request.memory 7 .goodbye)

/-- The closing brace is answered under the number 7, if that is what the memory holds. -/
theorem brace_reply_not_defined :
    letI := JsonAccess.plain
    letI := braceReader
    letI := JsonWriter.compact
    ¬ Request.ReplyDefined "\x7d" ∧
      (Request.errorReply (Request.memory 7 .goodbye) "\x7d").encode ≠
        (Request.errorReply (Request.memory 0 .invalidCommand) "\x7d").encode := by
  let := JsonAccess.plain
  let := braceReader
  refine ⟨fun hdefined => absurd (hdefined.reqid (Request.memory 7 .goodbye)) ?_, ?_⟩
  · decide
  · intro henc
    have hlist := congrArg String.toList henc
    simp only [Response.encode, JsonWriter.write, String.toList_ofList] at hlist
    exact absurd hlist (by decide)

end Examples

end Sdkd
