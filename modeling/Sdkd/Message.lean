import Sdkd.Json

/-!
# Errors, commands, requests and responses

`Error.h`, `Message.cpp`, `Request.cpp` and `Response.cpp`: the error object, the command names of the
wire protocol, the decoding of a request line and the encoding of a response line.
-/

namespace Sdkd

/-- How the process can die while it serves a request. -/
inductive Crash where
  | abort
  | assertion
  | uncaughtException
  | divisionByZero
  | outOfBounds
  | useAfterFree
  | nullPointer
  | exit (status : ℕ)
  deriving DecidableEq

/-- What `%s` prints of a string: the characters before the first zero. -/
def cString (s : String) : List Char := s.toList.takeWhile (· ≠ '\x00')

/-- `value.asCString()`, which the library asserts to be called on a string. -/
def asCString : Json → Except Crash (List Char)
  | .string s => .ok (cString s)
  | _ => .error .assertion

theorem asCString_of_isString [JsonAccess] {v : Json} (h : v.isString = true) :
    asCString v = .ok (cString (asString v)) := by
  cases v with
  | string s => rw [JsonAccess.asString_string, asCString]
  | _ => cases h

theorem isString_of_asCString {v : Json} {s : List Char} (h : asCString v = .ok s) : v.isString = true := by
  cases v with
  | string s => rfl
  | _ => cases h

/-- `std::error_code` as the cluster library reports it. -/
structure ErrorCode where
  value : ℤ
  message : String
  deriving DecidableEq

namespace ErrorCode

def success : ErrorCode := ⟨0, "success"⟩

/-- `operator bool` of `std::error_code`. -/
def isSet (ec : ErrorCode) : Bool := ec.value ≠ 0

end ErrorCode

structure Error where
  code : ℕ
  errstr : String
  deriving DecidableEq

namespace Error

def SUBSYSf_SDKD : ℕ := 0x20
def SDKD_EINVAL : ℕ := 0x200
def SDKD_ENOIMPL : ℕ := 0x300
def SDKD_ENOHANDLE : ℕ := 0x400
def SDKD_ENODS : ℕ := 0x500

def success : Error := ⟨0, ""⟩

/-- `Error(subsys, minor, errstr)`. -/
def of (subsys minor : ℕ) (errstr : String) : Error := ⟨subsys ||| minor, errstr⟩

/-- `operator bool`. -/
def isSet (e : Error) : Bool := e.code ≠ 0

def createInvalid (msg : String) : Error := of SUBSYSf_SDKD SDKD_EINVAL msg

@[simp] theorem isSet_success : success.isSet = false := rfl

@[simp] theorem isSet_createInvalid (msg : String) : (createInvalid msg).isSet = true := rfl

end Error

/-- The commands of `CBSDKD_XCOMMAND`. -/
inductive Code where
  | mcDsMutateSet | mcDsMutateAppend | mcDsMutatePrepend | mcDsMutateAdd | mcDsMutateReplace
  | mcDsDelete | mcDsTouch | mcDsGet | mcDsGetreplica | mcDsEndure | mcDsEndureseqno | mcDsObserve
  | mcDsStats | mcDsSdLoad | mcDsSdRun
  | cbViewLoad | cbViewQuery
  | cbN1qlCreateIndex | cbN1qlQuery | cbN1qlLoad
  | cbFtsLoad | cbFtsQuery | cbAsLoad | cbAsQuery
  | newhandle | closehandle | newdataset | deldataset | goodbye | cancel | info | ttl | getusage
  | uploadlogs
  | invalidCommand
  deriving DecidableEq

namespace Code

/-- The name of a command on the wire; the invalid command has none. -/
def name : Code → String
  | mcDsMutateSet => "MC_DS_MUTATE_SET"
  | mcDsMutateAppend => "MC_DS_MUTATE_APPEND"
  | mcDsMutatePrepend => "MC_DS_MUTATE_PREPEND"
  | mcDsMutateAdd => "MC_DS_MUTATE_ADD"
  | mcDsMutateReplace => "MC_DS_MUTATE_REPLACE"
  | mcDsDelete => "MC_DS_DELETE"
  | mcDsTouch => "MC_DS_TOUCH"
  | mcDsGet => "MC_DS_GET"
  | mcDsGetreplica => "MC_DS_GETREPLICA"
  | mcDsEndure => "MC_DS_ENDURE"
  | mcDsEndureseqno => "MC_DS_ENDURESEQNO"
  | mcDsObserve => "MC_DS_OBSERVE"
  | mcDsStats => "MC_DS_STATS"
  | mcDsSdLoad => "MC_DS_SD_LOAD"
  | mcDsSdRun => "MC_DS_SD_RUN"
  | cbViewLoad => "CB_VIEW_LOAD"
  | cbViewQuery => "CB_VIEW_QUERY"
  | cbN1qlCreateIndex => "CB_N1QL_CREATE_INDEX"
  | cbN1qlQuery => "CB_N1QL_QUERY"
  | cbN1qlLoad => "CB_N1QL_LOAD"
  | cbFtsLoad => "CB_FTS_LOAD"
  | cbFtsQuery => "CB_FTS_QUERY"
  | cbAsLoad => "CB_AS_LOAD"
  | cbAsQuery => "CB_AS_QUERY"
  | newhandle => "NEWHANDLE"
  | closehandle => "CLOSEHANDLE"
  | newdataset => "NEWDATASET"
  | deldataset => "DELDATASET"
  | goodbye => "GOODBYE"
  | cancel => "CANCEL"
  | info => "INFO"
  | ttl => "TTL"
  | getusage => "GETUSAGE"
  | uploadlogs => "UPLOADLOGS"
  | invalidCommand => ""

/-- The commands in the order of the source's list. -/
def all : List Code :=
  [mcDsMutateSet, mcDsMutateAppend, mcDsMutatePrepend, mcDsMutateAdd, mcDsMutateReplace, mcDsDelete,
   mcDsTouch, mcDsGet, mcDsGetreplica, mcDsEndure, mcDsEndureseqno, mcDsObserve, mcDsStats,
   mcDsSdLoad, mcDsSdRun, cbViewLoad, cbViewQuery, cbN1qlCreateIndex, cbN1qlQuery, cbN1qlLoad,
   cbFtsLoad, cbFtsQuery, cbAsLoad, cbAsQuery, newhandle, closehandle, newdataset, deldataset,
   goodbye, cancel, info, ttl, getusage, uploadlogs]

end Code

structure Command where
  cmdstr : String
  code : Code
  deriving DecidableEq

/-- `Command(str)`: the text is kept even when it names no command. -/
def Command.ofString (str : String) : Command :=
  ⟨str, (Code.all.find? fun c => c.name = str).getD .invalidCommand⟩

structure Message where
  reqid : ℕ
  handleId : ℕ
  command : Command
  payload : Json
  err : Error

abbrev Request := Message

namespace Message

/-- A message before its fields are assigned; `junk` holds what the memory happens to hold. -/
def uninitialised (junk : Message) : Message where
  reqid := junk.reqid
  handleId := junk.handleId
  command := ⟨"", junk.command.code⟩
  payload := .null
  err := .success

variable [JsonAccess] [JsonReader]

def refreshWith (m : Message) (str : String) (reset : Bool) : Bool × Message :=
  let m := if reset then
      { m with reqid := 0, handleId := 0, command := ⟨"", .invalidCommand⟩, payload := .null,
               err := ⟨0, m.err.errstr⟩ }
    else m
  match JsonReader.parse str with
  | .error text => (false, { m with err := .of Error.SUBSYSf_SDKD Error.SDKD_EINVAL text })
  | .ok json =>
    (true, { m with
      reqid := asUInt (json.get "ReqID")
      handleId := asUInt (json.get "Handle")
      command := .ofString (asString (json.get "Command"))
      payload := json })

end Message

namespace Request

/-- `isValid`: no error has been recorded. -/
def isValid (req : Request) : Bool := !req.err.isSet

variable [JsonAccess] [JsonReader]

def refreshWith (req : Request) (str : String) (reset : Bool) : Bool × Request :=
  match Message.refreshWith req str reset with
  | (true, m) =>
    let m := { m with payload := m.payload.get "CommandData" }
    if m.payload.isNull then
      (false, { m with err := .of Error.SUBSYSf_SDKD Error.SDKD_EINVAL "Couldn't find CommandData " })
    else (true, m)
  | (false, m) => (false, m)

/-- `Request(str)`: the base constructor parses the line, then the derived one parses it again. -/
def ofString (junk : Message) (str : String) : Request :=
  let base := (Message.refreshWith (.uninitialised junk) str false).2
  (refreshWith base str false).2

/-- `decode(str, NULL, true)`: an undecodable line still yields a request, which is not valid. -/
def decode (junk : Message) (str : String) : Request := ofString junk str

variable {junk : Message} {str : String}

/-- What a line that parses is decoded to; nothing of the memory is left in it. -/
theorem decode_of_parse {json : Json} (h : JsonReader.parse str = .ok json) :
    decode junk str = {
      reqid := asUInt (json.get "ReqID")
      handleId := asUInt (json.get "Handle")
      command := .ofString (asString (json.get "Command"))
      payload := json.get "CommandData"
      err := if (json.get "CommandData").isNull then
          .of Error.SUBSYSf_SDKD Error.SDKD_EINVAL "Couldn't find CommandData "
        else .success } := by
  unfold decode ofString refreshWith Message.refreshWith
  simp only [h, Message.uninitialised]
  cases (json.get "CommandData").isNull <;> rfl

theorem decode_of_error {text : String} (h : JsonReader.parse str = .error text) :
    (decode junk str).err = .of Error.SUBSYSf_SDKD Error.SDKD_EINVAL text := by
  unfold decode ofString refreshWith Message.refreshWith
  simp only [h]

/-- A valid request is a line that parses and has a CommandData. -/
theorem isValid_decode_iff : isValid (decode junk str) = true ↔
    ∃ json, JsonReader.parse str = .ok json ∧ (json.get "CommandData").isNull = false := by
  cases h : JsonReader.parse str with
  | error text =>
    rw [isValid, decode_of_error h]
    simp [Error.isSet, Error.of, Error.SUBSYSf_SDKD, Error.SDKD_EINVAL]
  | ok json =>
    rw [decode_of_parse h]
    cases hnull : (json.get "CommandData").isNull <;>
      simp [isValid, hnull, Error.isSet, Error.of, Error.success, Error.SUBSYSf_SDKD,
        Error.SDKD_EINVAL]

end Request

structure Response extends Message where
  responseData : Json

namespace Response

/-- `Response(req, err)`. -/
def ofRequest (req : Request) (err : Error) : Response :=
  { req with err := if err.isSet then err else req.err, responseData := .null }

def setResponseData (res : Response) (rdata : Json) : Response :=
  { res with responseData := rdata }

/-- The value of the `Status` field. -/
def status (res : Response) : ℕ := if res.err.isSet then res.err.code else 0

/-- Whether a response answers a request: it carries its command, request id and handle id. -/
def Answers (res : Response) (req : Request) : Prop :=
  res.command = req.command ∧ res.reqid = req.reqid ∧ res.handleId = req.handleId

/-- The object `encode` writes. -/
def toJson (res : Response) : Json :=
  let root := Json.null.set "Command" (.string res.command.cmdstr)
  let root := root.set "ReqID" (.int ((res.reqid : ℤ).bmod (2 ^ 32)))
  let root := root.set "Handle" (.int ((res.handleId : ℤ).bmod (2 ^ 32)))
  let root := root.set "ResponseData"
    (if res.responseData.isNull then .object [] else res.responseData)
  if res.err.isSet then
    (root.set "Status" (.int res.err.code)).set "ErrorString" (.string res.err.errstr)
  else root.set "Status" (.int 0)

def encode [JsonWriter] (res : Response) : String := JsonWriter.write res.toJson

@[simp] theorem answers_ofRequest (req : Request) (err : Error) : (ofRequest req err).Answers req :=
  ⟨rfl, rfl, rfl⟩

@[simp] theorem answers_setResponseData (req : Request) (err : Error) (rdata : Json) :
    ((ofRequest req err).setResponseData rdata).Answers req :=
  ⟨rfl, rfl, rfl⟩

theorem status_ofRequest_of_isSet {req : Request} {err : Error} (h : err.isSet = true) :
    (ofRequest req err).status ≠ 0 := by
  have hcode : err.code ≠ 0 := by simpa [Error.isSet] using h
  simp [ofRequest, status, h, hcode]

/-- The response to a valid request without an error of its own reports success. -/
theorem status_ofRequest_success {req : Request} (h : req.isValid = true) {err : Error}
    (he : err.isSet = false) : (ofRequest req err).status = 0 := by
  have hreq : req.err.isSet = false := by simpa [Request.isValid] using h
  simp [ofRequest, status, he, hreq]

end Response

end Sdkd
