import Sdkd.Collections
import Sdkd.Lib.Determined

/-!
# Handle input

What the constructor of `HandleOptions` makes of the payload of a NEWHANDLE. It assigns its fields on three
ways: with an Options object, without one, and up to the early return for bad hosts.

## Main definitions

- `HandleOptions.Accepted` — the options of the payload are valid
- `HandleOptions.Defined` — what a worker makes of the payload does not depend on the memory

## Main results

- `HandleOptions.ofJson_without_options`, `HandleOptions.ofJson_with_options`
- `HandleOptions.defined_iff`
-/

namespace Sdkd

namespace HandleOptions

section Payloads

variable [JsonAccess] {certfile : Option String} {payload : Json}

/-- The options of the payload are valid. -/
def Accepted (certfile : Option String) (payload : Json) : Prop :=
  ∃ junk o, ofJson junk certfile payload = .ok o ∧ o.isValid = true

/-- The file for the certificate: the process exits if SSL is asked for without a certificate or there is no file
for it. -/
def certPath (certfile : Option String) (opts : Json) : Except Crash String :=
  if asBool (opts.get "SSL") then
    if (asString (opts.get "ClusterCertificate")).length = 0 then .error (.exit 1)
    else
      match certfile with
      | none => .error .nullPointer
      | some path => if path.length = 0 then .error (.exit 1) else .ok path
  else .ok ""

/-- The host list: the hosts of the options behind the one of the payload. -/
def joinHosts (hostname hosts : String) : String :=
  if hosts.length ≠ 0 then (if hostname.length ≠ 0 then hostname ++ "," else hostname) ++ hosts
  else hostname

/-- Without options, the constructor assigns neither the kind of connection nor the collections. -/
theorem ofJson_without_options (hobject : isObject (payload.get "Options") = false) (junk : HandleOptions) :
    ofJson junk certfile payload = .ok {
      hostname := asString (payload.get "Hostname")
      username := ""
      password := ""
      bucket := asString (payload.get "Bucket")
      certpath := ""
      timeout := 0
      useSSL := junk.useSSL
      useCollections := junk.useCollections
      scopes := junk.scopes
      collections := junk.collections } := by
  unfold ofJson
  dsimp only
  rw [hobject]
  rfl

/-- With options and proper hosts it assigns everything. -/
theorem ofJson_with_options (hobject : isObject (payload.get "Options") = true) {hosts : String}
    (hhosts : getExtraHosts (payload.get "Options") = some hosts) (junk : HandleOptions) :
    ofJson junk certfile payload = (certPath certfile (payload.get "Options")).map fun path => {
      hostname := joinHosts (asString (payload.get "Hostname")) hosts
      username := asString ((payload.get "Options").get "Username")
      password := asString ((payload.get "Options").get "Password")
      bucket := asString (payload.get "Bucket")
      certpath := path
      timeout := asUInt ((payload.get "Options").get "Timeout")
      useSSL := asBool ((payload.get "Options").get "SSL")
      useCollections := asString (payload.get "Collections_type") = "many"
      scopes := asUInt (payload.get "Scopes")
      collections := asUInt (payload.get "Collections") } := by
  unfold ofJson certPath
  dsimp only
  rw [hobject, hhosts]
  cases hssl : asBool ((payload.get "Options").get "SSL") with
  | false => rfl
  | true =>
    simp only [Bool.not_true, Bool.false_eq_true, if_false, if_true]
    by_cases hcert : (asString ((payload.get "Options").get "ClusterCertificate")).length = 0
    · rw [if_pos hcert, if_pos hcert]
      rfl
    rw [if_neg hcert, if_neg hcert]
    cases certfile with
    | none => rfl
    | some path =>
      dsimp only
      by_cases hpath : path.length = 0
      · rw [if_pos hpath, if_pos hpath]
        rfl
      · rw [if_neg hpath, if_neg hpath]
        rfl

/-- The early return leaves no host, so that what it leaves is not valid. -/
theorem not_isValid_of_bad_hosts (hobject : isObject (payload.get "Options") = true)
    (hhosts : getExtraHosts (payload.get "Options") = none) {junk o : HandleOptions}
    (h : ofJson junk certfile payload = .ok o) : o.isValid = false := by
  unfold ofJson at h
  dsimp only at h
  rw [hobject, hhosts] at h
  obtain rfl := Except.ok.inj h
  simp [isValid]

theorem Accepted.hosts (h : Accepted certfile payload)
    (hobject : isObject (payload.get "Options") = true) :
    ∃ hosts, getExtraHosts (payload.get "Options") = some hosts := by
  obtain ⟨junk, o, hok, hvalid⟩ := h
  refine Option.ne_none_iff_exists'.mp fun hnone => ?_
  rw [not_isValid_of_bad_hosts hobject hnone hok] at hvalid
  cases hvalid

/-- Without a certificate that can be stored the process exits or dereferences a null pointer. -/
theorem certPath_error_ne {opts : Json} {e : Crash} (h : certPath certfile opts = .error e) :
    e ≠ .divisionByZero := by
  rintro rfl
  unfold certPath at h
  split_ifs at h
  · cases h
  · cases certfile with
    | none => cases h
    | some path =>
      dsimp only at h
      split_ifs at h
      cases h

/-- The file of the certificate is the one that was made for it, and none without SSL. -/
theorem certPath_of_ok {opts : Json} {path : String} (h : certPath certfile opts = .ok path) :
    path = if asBool (opts.get "SSL") then certfile.getD "" else "" := by
  unfold certPath at h
  split_ifs at h with hssl hcert
  · cases certfile with
    | none => cases h
    | some path' =>
      dsimp only at h
      split_ifs at h
      rw [if_pos hssl]
      exact (Except.ok.inj h).symm
  · rw [if_neg hssl]
    exact (Except.ok.inj h).symm

omit [JsonAccess] in
/-- Whether a handle uses collections shows in the collection of a key. -/
theorem getCollection_zero_ne {o o' : HandleOptions} (huse : o.useCollections = false)
    (huse' : o'.useCollections = true) (hscopes : o'.scopes = 1) (hcollections : o'.collections = 1) :
    o.getCollection "0" ≠ o'.getCollection "0" := by
  have hdefault : o.getCollection "0" = .ok ("_default", "_default") := by
    simp [getCollection, huse]
  rw [hdefault, getCollection_eq huse' (by simp [hscopes, hcollections]) (by simp [hscopes, hcollections])
    (takenDigits_ne_nil ⟨'0', by decide, by decide⟩), hscopes, hcollections, Nat.mul_one, Nat.mod_one]
  split_ifs
  · intro heq
    exact absurd (congrArg Prod.snd (Except.ok.inj heq)) (by decide)
  · simp

/-- Without options, the collection of a key is a matter of what the memory held. -/
theorem not_determined_collection (hobject : isObject (payload.get "Options") = false) :
    ¬ Determined fun junk => (ofJson junk certfile payload).bind (·.getCollection "0") := by
  intro h
  have hcollection := h ⟨"", "", "", "", false, false, "", 1, 1, 0⟩ ⟨"", "", "", "", false, true, "", 1, 1, 0⟩
  simp only [ofJson_without_options hobject, Except.bind] at hcollection
  exact getCollection_zero_ne rfl rfl rfl rfl hcollection

variable [JsonWriter]

/-- What a worker makes of the payload does not depend on what the memory held: the options, the handle it opens
with them, and the collection of each key. -/
structure Defined (certfile : Option String) (payload : Json) : Prop where
  options : Determined fun junk => ofJson junk certfile payload
  handle : ∀ (env : WorkerEnv) (wd : WorkerDispatch) md (req : Request), env.certfile = certfile →
    req.payload = payload →
    Determined fun junk => wd.initializeHandle { env with options := junk } md req
  collection : ∀ key, Determined fun junk => (ofJson junk certfile payload).bind (·.getCollection key)

/-- The worker looks at the memory through the constructor only. -/
theorem defined_of_determined (h : Determined fun junk => ofJson junk certfile payload) :
    Defined certfile payload where
  options := h
  handle := by
    rintro env wd md req rfl rfl junk junk'
    have heq : ofJson junk env.certfile req.payload = ofJson junk' env.certfile req.payload := h junk junk'
    unfold WorkerDispatch.initializeHandle
    dsimp only
    rw [heq]
  collection := fun key => h.comp (·.bind (·.getCollection key))

/-- **Handle options.** The options of a payload that is accepted are defined just if it has an Options object.
Where they are, the path of the certificate is the name of the file made for it. -/
theorem defined_iff (haccepted : Accepted certfile payload) :
    (Defined certfile payload ↔ isObject (payload.get "Options") = true) ∧
    (isObject (payload.get "Options") = true → ∀ junk o, ofJson junk certfile payload = .ok o →
      o.certpath = if asBool ((payload.get "Options").get "SSL") then certfile.getD "" else "") := by
  refine ⟨⟨fun hdefined => ?_, fun hobject => ?_⟩, fun hobject junk o hok => ?_⟩
  · by_contra hno
    exact not_determined_collection (Bool.eq_false_iff.mpr hno) (hdefined.collection "0")
  · obtain ⟨hosts, hhosts⟩ := haccepted.hosts hobject
    refine defined_of_determined fun junk junk' => ?_
    dsimp only
    rw [ofJson_with_options hobject hhosts, ofJson_with_options hobject hhosts]
  · obtain ⟨hosts, hhosts⟩ := haccepted.hosts hobject
    rw [ofJson_with_options hobject hhosts] at hok
    cases hpath : certPath certfile (payload.get "Options") with
    | error e =>
      rw [hpath] at hok
      cases hok
    | ok path =>
      rw [hpath] at hok
      obtain rfl := Except.ok.inj hok
      exact certPath_of_ok hpath

end Payloads

section Examples

/-- The payload of the NEWHANDLE that the demonstration client sends. -/
def demoHandle : Json := .object [("Bucket", .string "membase0"), ("Hostname", .string "localhost")]

/-- The same with options that are no object. -/
def wordOptions : Json :=
  .object [("Bucket", .string "membase0"), ("Hostname", .string "localhost"), ("Options", .string "none")]

/-- The payload of a handle with SSL, a backup node and collections. -/
def exampleHandleInput : Json :=
  .object [("Bucket", .string "membase0"), ("Hostname", .string "localhost"),
    ("Collections_type", .string "many"), ("Scopes", .uint 2), ("Collections", .uint 3),
    ("Options", .object [("OtherNodes", .array [.string "backup"]), ("SSL", .bool true),
      ("ClusterCertificate", .string "certificate"), ("Timeout", .uint 5)])]

/-- Memory of zeros. -/
def zeroed : HandleOptions := ⟨"", "", "", "", false, false, "", 0, 0, 0⟩

theorem exampleHandleInput_defined :
    letI := JsonAccess.plain
    letI := JsonWriter.compact
    Defined (some "certfile") exampleHandleInput ∧
    ∃ o, ofJson zeroed (some "certfile") exampleHandleInput = .ok o ∧ o.hostname = "localhost,backup;" ∧
      o.useCollections = true ∧ o.certpath = "certfile" := by
  let := JsonAccess.plain
  let := JsonWriter.compact
  let o : HandleOptions := ⟨"localhost,backup;", "", "", "membase0", true, true, "certfile", 2, 3, 5⟩
  have hok : ofJson zeroed (some "certfile") exampleHandleInput = .ok o := by decide +kernel
  obtain ⟨hdefined, hcertpath⟩ := defined_iff ⟨zeroed, o, hok, by decide⟩
  exact ⟨hdefined.mpr rfl, o, hok, rfl, rfl, hcertpath rfl zeroed o hok⟩

/-- A handle whose options are a string, or missing as those of the demonstration client where a null is no
object, has collections that depend on the memory. -/
theorem demoHandle_not_defined :
    letI := JsonAccess.plain
    letI := JsonWriter.compact
    (Accepted none wordOptions ∧ ¬ Defined none wordOptions) ∧
    Accepted none demoHandle ∧ ¬ Defined none demoHandle := by
  let := JsonAccess.plain
  let := JsonWriter.compact
  exact ⟨⟨⟨zeroed, _, rfl, by decide⟩, fun hdefined => not_determined_collection rfl (hdefined.collection "0")⟩,
    ⟨zeroed, _, rfl, by decide⟩, fun hdefined => not_determined_collection rfl (hdefined.collection "0")⟩

end Examples

end HandleOptions

end Sdkd
