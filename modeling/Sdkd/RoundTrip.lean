import Sdkd.ResultSet

/-!
# The identity of a request

A request is decoded, a response is made of it, and the line that encodes the response is read back: whether
that line still names the request.

## Main definitions

- `ReadsBack` — what is relied on of the JSON library
- `NamesRequest` — the line has the command and the two numbers of the request, and the right status

## Main results

- `namesRequest_iff` — exactly if both numbers are below `2 ^ 31`
-/

namespace Sdkd

/-- The number a JSON value stands for, whichever of the two integer kinds it has. -/
def Json.asNumber : Json → Option ℤ
  | .int i => some i
  | .uint n => some n
  | _ => none

/-- A value that is written and read back has the strings and the integers it had for its members. -/
def Json.ReadsBack [JsonReader] [JsonWriter] (root : Json) : Prop :=
  ∃ json, JsonReader.parse (JsonWriter.write root) = .ok json ∧
    (∀ name s, root.get name = .string s → json.get name = .string s) ∧
    ∀ name i, root.get name = .int i → (json.get name).asNumber = some i

namespace Response

/-! ## The members of an encoded response -/

section Members

variable (res : Response)

theorem toJson_command : res.toJson.get "Command" = .string res.command.cmdstr := by
  unfold toJson
  split_ifs <;> rfl

/-- The request id is written as an `int`. -/
theorem toJson_reqid : res.toJson.get "ReqID" = .int (toInt res.reqid) := by
  unfold toJson
  split_ifs <;> rfl

theorem toJson_handle : res.toJson.get "Handle" = .int (toInt res.handleId) := by
  unfold toJson
  split_ifs <;> rfl

theorem toJson_status : res.toJson.get "Status" = .int res.status := by
  unfold toJson status
  split_ifs <;> rfl

end Members

theorem status_eq_zero_iff (res : Response) : res.status = 0 ↔ res.err.isSet = false := by
  unfold status Error.isSet
  split_ifs with h <;> simp_all

end Response

/-- An unsigned number is the `int` it is cast to if and only if it is below `2 ^ 31`. -/
theorem toInt_eq_self_iff {n : ℕ} (h : n < 2 ^ 32) : toInt n = n ↔ n < 2 ^ 31 := by
  constructor
  · intro heq
    have hlt : toInt n < 2 ^ 31 := by
      unfold toInt
      exact Int.bmod_lt (by decide)
    omega
  · exact fun hlt => toInt_of_bounds (by omega) (by omega)

/-- The error of a response: its own, or that of the request. -/
theorem Response.ofRequest_isSet (req : Request) (err : Error) :
    (ofRequest req err).err.isSet = (err.isSet || req.err.isSet) := by
  unfold ofRequest
  cases h : err.isSet <;> simp [h]

section RoundTrip

variable [JsonReader] [JsonWriter]

/-- The line is read back with this command, these numbers, and a status that is zero exactly if `err` is
no error. -/
def NamesRequest (line cmd : String) (reqid handleId : ℕ) (err : Error) : Prop :=
  ∃ json, JsonReader.parse line = .ok json ∧
    json.get "Command" = .string cmd ∧
    (json.get "ReqID").asNumber = some (reqid : ℤ) ∧
    (json.get "Handle").asNumber = some (handleId : ℤ) ∧
    ((json.get "Status").asNumber = some 0 ↔ err.isSet = false)

/-- What the line is read back as. -/
theorem namesRequest_encode {res : Response} (hback : res.toJson.ReadsBack) (cmd : String)
    (reqid handleId : ℕ) (err : Error) :
    NamesRequest res.encode cmd reqid handleId err ↔
      res.command.cmdstr = cmd ∧ toInt res.reqid = reqid ∧ toInt res.handleId = handleId ∧
        (res.err.isSet = false ↔ err.isSet = false) := by
  obtain ⟨json, hjson, hstr, hint⟩ := hback
  have hcmd := hstr _ _ res.toJson_command
  have hreqid := hint _ _ res.toJson_reqid
  have hhandle := hint _ _ res.toJson_handle
  have hstatus := hint _ _ res.toJson_status
  have hnames : NamesRequest res.encode cmd reqid handleId err ↔
      json.get "Command" = .string cmd ∧ (json.get "ReqID").asNumber = some (reqid : ℤ) ∧
        (json.get "Handle").asNumber = some (handleId : ℤ) ∧
        ((json.get "Status").asNumber = some 0 ↔ err.isSet = false) := by
    constructor
    · rintro ⟨json', hjson', hrest⟩
      obtain rfl : json = json' := Except.ok.inj (hjson.symm.trans hjson')
      exact hrest
    · exact fun hrest => ⟨json, hjson, hrest⟩
  rw [hnames, hcmd, hreqid, hhandle, hstatus, ← res.status_eq_zero_iff]
  simp

/-- **The identity of a request.** Of every request with a command, and every response to it, the line is
read back with the same command, the same request id, the same handle and the right status if and only if
the two numbers are below `2 ^ 31`, and the request has a `CommandData` where the response is given no
error. -/
theorem namesRequest_iff [JsonAccess] (junk : Message) (str cmd : String) (json : Json) (err : Error)
    (rdata : Json) (hparse : JsonReader.parse str = .ok json) (hcmd : json.get "Command" = .string cmd)
    (hback : ((Response.ofRequest (Request.decode junk str) err).setResponseData rdata).toJson.ReadsBack) :
    NamesRequest ((Response.ofRequest (Request.decode junk str) err).setResponseData rdata).encode cmd
        (asUInt (json.get "ReqID")) (asUInt (json.get "Handle")) err ↔
      asUInt (json.get "ReqID") < 2 ^ 31 ∧ asUInt (json.get "Handle") < 2 ^ 31 ∧
      (err.isSet = true ∨ (json.get "CommandData").isNull = false) := by
  have hdecode : Request.decode junk str = _ := Request.decode_of_parse hparse
  have herr : (Request.decode junk str).err.isSet = (json.get "CommandData").isNull := by
    rw [hdecode]
    cases (json.get "CommandData").isNull <;> rfl
  have hcmdstr : (Request.decode junk str).command.cmdstr = cmd := by
    rw [hdecode, hcmd, JsonAccess.asString_string]
    rfl
  rw [namesRequest_encode hback, ← toInt_eq_self_iff (JsonAccess.asUInt_lt (json.get "ReqID")),
    ← toInt_eq_self_iff (JsonAccess.asUInt_lt (json.get "Handle"))]
  show (Request.decode junk str).command.cmdstr = cmd ∧
    toInt (Request.decode junk str).reqid = asUInt (json.get "ReqID") ∧
    toInt (Request.decode junk str).handleId = asUInt (json.get "Handle") ∧
    ((Response.ofRequest (Request.decode junk str) err).err.isSet = false ↔ err.isSet = false) ↔ _
  rw [Response.ofRequest_isSet, herr, and_iff_right hcmdstr, hdecode]
  cases err.isSet <;> simp

end RoundTrip

section Examples

/-- A request with an id. -/
def exampleIdentity (n : ℕ) : Json :=
  .object [("Command", .string "NEWHANDLE"), ("ReqID", .uint n), ("CommandData", .object [])]

def exampleIdentityLine (n : ℕ) : String :=
  String.ofList ((Json.render (exampleIdentity n)).filter (· ≠ '\n'))

/-- The response to it. -/
def exampleReply (n : ℕ) : Response where
  reqid := n
  handleId := 0
  command := ⟨"NEWHANDLE", .newhandle⟩
  payload := .object []
  err := .success
  responseData := .null

/-- A reader that knows these two lines. -/
@[reducible] def identityReader (n : ℕ) : JsonReader where
  parse := fun str =>
    letI := JsonWriter.compact
    if str = exampleIdentityLine n then .ok (exampleIdentity n)
    else if str = (exampleReply n).encode then .ok (exampleReply n).toJson
    else .error "Syntax error"

def identityJunk : Message := ⟨0, 0, ⟨"", .invalidCommand⟩, .null, .success⟩

theorem exampleReply_readsBack (n : ℕ) :
    letI := JsonWriter.compact
    letI := identityReader n
    (exampleReply n).toJson.ReadsBack := by
  let := JsonWriter.compact
  let := identityReader n
  refine ⟨(exampleReply n).toJson, ?_, fun _ _ h => h, fun name i h => by rw [h]; rfl⟩
  -- the line that is written ends with a line feed, that of the request has none
  have hne : (exampleReply n).encode ≠ exampleIdentityLine n := by
    intro heq
    obtain ⟨body, hbody, -⟩ := JsonWriter.write_line (exampleReply n).toJson
    have hmem : '\n' ∈ (exampleIdentityLine n).toList := by
      rw [← heq]
      simp [Response.encode, hbody]
    simp [exampleIdentityLine] at hmem
  exact (if_neg hne).trans (if_pos rfl)

theorem exampleReply_eq {n : ℕ} (hn : n < 2 ^ 32) :
    letI := JsonAccess.plain
    letI := identityReader n
    (Response.ofRequest (Request.decode identityJunk (exampleIdentityLine n)) .success).setResponseData
      .null = exampleReply n := by
  let := JsonAccess.plain
  let := identityReader n
  have hparse : JsonReader.parse (exampleIdentityLine n) = .ok (exampleIdentity n) := if_pos rfl
  rw [Request.decode_of_parse hparse]
  have hreqid : asUInt ((exampleIdentity n).get "ReqID") = n := Nat.mod_eq_of_lt hn
  rw [hreqid]
  rfl

theorem namesRequest_iff_small :
    letI := JsonAccess.plain
    letI := JsonWriter.compact
    letI := identityReader 42
    NamesRequest ((Response.ofRequest (Request.decode identityJunk (exampleIdentityLine 42))
        .success).setResponseData .null).encode "NEWHANDLE" (asUInt (Json.uint 42)) (asUInt Json.null)
        .success ↔
      asUInt (Json.uint 42) < 2 ^ 31 ∧ asUInt Json.null < 2 ^ 31 ∧
        (Error.success.isSet = true ∨ (Json.object []).isNull = false) := by
  let := JsonAccess.plain
  let := JsonWriter.compact
  let := identityReader 42
  have hback := exampleReply_readsBack 42
  rw [← exampleReply_eq (by decide)] at hback
  exact namesRequest_iff identityJunk (exampleIdentityLine 42) "NEWHANDLE" (exampleIdentity 42) .success
    .null (if_pos rfl) rfl hback

/-- The id `2 ^ 31` comes back as a negative number. -/
theorem reqid_not_named :
    letI := JsonAccess.plain
    letI := JsonWriter.compact
    letI := identityReader (2 ^ 31)
    let req := Request.decode identityJunk (exampleIdentityLine (2 ^ 31))
    let res := (Response.ofRequest req .success).setResponseData .null
    req.isValid = true ∧ res.toJson.ReadsBack ∧ res.toJson.get "ReqID" = .int (-2 ^ 31) ∧
      ¬ NamesRequest res.encode "NEWHANDLE" (asUInt (Json.uint (2 ^ 31))) (asUInt Json.null)
        .success := by
  let := JsonAccess.plain
  let := JsonWriter.compact
  let := identityReader (2 ^ 31)
  have hback := exampleReply_readsBack (2 ^ 31)
  intro req res
  have hres : res = exampleReply (2 ^ 31) := exampleReply_eq (by decide)
  have hvalid : req.isValid = true :=
    Request.isValid_decode_iff.mpr ⟨exampleIdentity (2 ^ 31), if_pos rfl, rfl⟩
  have hint : toInt (2 ^ 31 : ℕ) = -2 ^ 31 := by simp [toInt, Int.bmod]
  rw [hres]
  refine ⟨hvalid, hback, (Response.toJson_reqid _).trans (congrArg Json.int hint), fun h => ?_⟩
  have hreqid : toInt (2 ^ 31 : ℕ) = (2 ^ 31 : ℕ) := ((namesRequest_encode hback _ _ _ _).mp h).2.1
  have hlt : 2 ^ 31 < 2 ^ 31 := (toInt_eq_self_iff (by decide)).mp hreqid
  exact Nat.lt_irrefl _ hlt

end Examples

end Sdkd
