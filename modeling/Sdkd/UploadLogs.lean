import Mathlib.Algebra.Order.BigOperators.Group.List
import Mathlib.Data.List.TakeWhile
import Sdkd.Lib.Fallible
import Sdkd.Lib.ShellWords
import Sdkd.Message

/-!
# Uploading the logs

The command line of UPLOADLOGS. Three strings of the client and the name of the log file are printed into a buffer of
1024 bytes as they are, and the shell is to find them again.

## Main definitions

- `uploadLogs` — the line that is printed and handed to the shell
- `Uploadable` — the members of the payload are strings and fit the buffer
- `UploadIntact` — the line fits and is split into what it was made of

## Main results

- `uploadLogs_ok_iff` — when the daemon comes to the shell
- `uploadIntact_iff`
-/

namespace Sdkd

/-- The size of the buffer of `uploadLogs`. -/
def commandSize : ℕ := 1024

section Upload

variable [JsonAccess]

/-- The line `uploadLogs` prints, without the zero at its end. -/
def printCommand (bucket accessKey secretKey lcblogFile : List Char) : List Char :=
  "python3 pylib/s3upload.py ".toList ++ bucket ++ ' ' :: accessKey ++ ' ' :: secretKey ++ ' ' ::
    lcblogFile ++ " cpp".toList

/-- What `uploadLogs` hands to `popen`: its three strings have to be strings, and the line with the zero at its
end has to fit the buffer. -/
def uploadLogs (payload : Json) (lcblogFile : String) : Except Crash (List Char) := do
  let bucket ← asCString (payload.get "S3_BUCKET")
  let accessKey ← asCString (payload.get "access_key")
  let secretKey ← asCString (payload.get "secret_key")
  let command := printCommand bucket accessKey secretKey (cString lcblogFile)
  if command.length + 1 ≤ commandSize then .ok command else .error .outOfBounds

/-- The members of the payload that are printed. -/
def uploadMembers (payload : Json) : List Json :=
  [payload.get "S3_BUCKET", payload.get "access_key", payload.get "secret_key"]

/-- The strings that are printed into the command. -/
def uploadArguments (payload : Json) (lcblogFile : String) : List String :=
  [asString (payload.get "S3_BUCKET"), asString (payload.get "access_key"),
    asString (payload.get "secret_key"), lcblogFile]

/-- The members are strings, and with the name of the log file they fit the buffer. -/
structure Uploadable (payload : Json) (lcblogFile : String) : Prop where
  strings : ∀ v ∈ uploadMembers payload, v.isString = true
  fits : ((uploadArguments payload lcblogFile).map fun s => (cString s).length).sum ≤ 990

/-- The words the command is to have. -/
def uploadWords (args : List String) : List String := ["python3", "pylib/s3upload.py"] ++ args ++ ["cpp"]

/-- The command fits its buffer, and the shell splits it into its words. -/
def UploadIntact (payload : Json) (lcblogFile : String) : Prop :=
  ∃ line, uploadLogs payload lcblogFile = .ok line ∧
    (Shell.split line).map (·.map Shell.Word.text) =
      some ((uploadWords (uploadArguments payload lcblogFile)).map String.toList)

/-- A string that is printed as it is and taken for a word by the shell. -/
def Argument (s : String) : Prop := '\x00' ∉ s.toList ∧ Shell.Literal s.toList

omit [JsonAccess] in
theorem cString_length_le (s : String) : (cString s).length ≤ s.toList.length :=
  (List.takeWhile_prefix _).length_le

omit [JsonAccess] in
theorem cString_eq_iff (s : String) : cString s = s.toList ↔ '\x00' ∉ s.toList := by
  unfold cString
  rw [List.takeWhile_eq_self_iff]
  constructor
  · intro hall hzero
    simpa using hall _ hzero
  · intro hzero c hc
    simp only [ne_eq, decide_eq_true_eq]
    rintro rfl
    exact hzero hc

omit [JsonAccess] in
/-- A cut string is shorter. -/
theorem cString_eq_of_length {s : String} (h : (cString s).length = s.toList.length) : cString s = s.toList :=
  (List.takeWhile_prefix _).eq_of_length h

/-- The line that is printed of members that are strings. -/
def uploadCommand (payload : Json) (lcblogFile : String) : List Char :=
  printCommand (cString (asString (payload.get "S3_BUCKET"))) (cString (asString (payload.get "access_key")))
    (cString (asString (payload.get "secret_key"))) (cString lcblogFile)

theorem uploadLogs_of_strings {payload : Json} (h : ∀ v ∈ uploadMembers payload, v.isString = true)
    (lcblogFile : String) : uploadLogs payload lcblogFile =
      if (uploadCommand payload lcblogFile).length + 1 ≤ commandSize then
        .ok (uploadCommand payload lcblogFile) else .error .outOfBounds := by
  simp only [uploadMembers, List.mem_cons, List.not_mem_nil, or_false, forall_eq_or_imp, forall_eq] at h
  obtain ⟨hbucket, haccess, hsecret⟩ := h
  unfold uploadLogs
  rw [asCString_of_isString hbucket, asCString_of_isString haccess, asCString_of_isString hsecret]
  rfl

omit [JsonAccess] in
/-- A member that is no string ends the process. -/
theorem strings_of_uploadLogs {payload : Json} {lcblogFile : String} {line : List Char}
    (h : uploadLogs payload lcblogFile = .ok line) : ∀ v ∈ uploadMembers payload, v.isString = true := by
  unfold uploadLogs at h
  obtain ⟨_, hbucket, h⟩ := Fallible.exists_of_bind_ok h
  obtain ⟨_, haccess, h⟩ := Fallible.exists_of_bind_ok h
  obtain ⟨_, hsecret, -⟩ := Fallible.exists_of_bind_ok h
  simp only [uploadMembers, List.mem_cons, List.not_mem_nil, or_false, forall_eq_or_imp, forall_eq]
  exact ⟨isString_of_asCString hbucket, isString_of_asCString haccess, isString_of_asCString hsecret⟩

omit [JsonAccess] in
theorem printCommand_length (bucket accessKey secretKey lcblogFile : List Char) :
    (printCommand bucket accessKey secretKey lcblogFile).length =
      33 + (bucket.length + (accessKey.length + (secretKey.length + lcblogFile.length))) := by
  have hfront : "python3 pylib/s3upload.py ".length = 26 := by decide
  have hback : " cpp".length = 4 := by decide
  unfold printCommand
  simp only [List.length_append, List.length_cons, String.length_toList]
  omega

theorem uploadCommand_length (payload : Json) (lcblogFile : String) :
    (uploadCommand payload lcblogFile).length =
      33 + ((uploadArguments payload lcblogFile).map fun s => (cString s).length).sum :=
  printCommand_length _ _ _ _

/-- The daemon comes to the shell just if the members are strings that fit the buffer. -/
theorem uploadLogs_ok_iff (payload : Json) (lcblogFile : String) :
    (∃ line, uploadLogs payload lcblogFile = .ok line) ↔ Uploadable payload lcblogFile := by
  have hsize : (uploadCommand payload lcblogFile).length + 1 ≤ commandSize ↔
      ((uploadArguments payload lcblogFile).map fun s => (cString s).length).sum ≤ 990 := by
    rw [uploadCommand_length, commandSize]
    omega
  constructor
  · rintro ⟨line, hline⟩
    have hstrings := strings_of_uploadLogs hline
    rw [uploadLogs_of_strings hstrings] at hline
    split_ifs at hline with hfits
    exact ⟨hstrings, hsize.mp hfits⟩
  · intro h
    exact ⟨_, (uploadLogs_of_strings h.strings lcblogFile).trans (if_pos (hsize.mpr h.fits))⟩

/-- The command is its words with blanks between them. -/
theorem uploadCommand_eq (payload : Json) (lcblogFile : String) :
    uploadCommand payload lcblogFile =
      [' '].intercalate ((uploadWords (uploadArguments payload lcblogFile)).map cString) := by
  have hfront : "python3 pylib/s3upload.py ".toList =
      cString "python3" ++ ' ' :: (cString "pylib/s3upload.py" ++ [' ']) := by
    rw [(cString_eq_iff "python3").mpr (by decide), (cString_eq_iff "pylib/s3upload.py").mpr (by decide)]
    rfl
  have hback : " cpp".toList = ' ' :: cString "cpp" := by
    rw [(cString_eq_iff "cpp").mpr (by decide)]
    rfl
  unfold uploadCommand printCommand uploadWords uploadArguments
  rw [hfront, hback]
  simp [List.intercalate_cons_cons]

omit [JsonAccess] in
/-- Words that come out of a line in full are not cut by their zeros. -/
theorem cString_eq_of_split {ws : List String} (hne : ws ≠ []) {words : List Shell.Word}
    (hsplit : Shell.split ([' '].intercalate (ws.map cString)) = some words)
    (htext : words.map Shell.Word.text = ws.map String.toList) : ∀ s ∈ ws, cString s = s.toList := by
  have hline := Shell.length_intercalate (mt List.map_eq_nil_iff.mp hne : ws.map cString ≠ [])
  have hcost := Shell.cost_split_le hsplit
  have hwords : (words.map fun w => w.text.length + 1) = ws.map fun s => s.toList.length + 1 := by
    have hmap := congrArg (List.map fun t : List Char => t.length + 1) htext
    rwa [List.map_map, List.map_map] at hmap
  rw [Shell.total_eq, hwords, hline, List.map_map] at hcost
  by_contra hcut
  push Not at hcut
  obtain ⟨s, hs, hcut⟩ := hcut
  have hlt : (ws.map ((fun t : List Char => t.length + 1) ∘ cString)).sum <
      (ws.map fun s => s.toList.length + 1).sum := by
    refine List.sum_lt_sum _ _ (fun s _ => Nat.succ_le_succ (cString_length_le s)) ⟨s, hs, ?_⟩
    exact Nat.succ_lt_succ ((cString_length_le s).lt_of_ne fun heq => hcut (cString_eq_of_length heq))
  omega

omit [JsonAccess] in
/-- Strings that are printed with blanks between them are split into these strings just if each of them is
an argument. -/
theorem split_printed_iff {ws : List String} (hne : ws ≠ []) :
    (Shell.split ([' '].intercalate (ws.map cString))).map (·.map Shell.Word.text) =
      some (ws.map String.toList) ↔ ∀ s ∈ ws, Argument s := by
  have hsame (hall : ∀ s ∈ ws, cString s = s.toList) : ws.map cString = ws.map String.toList :=
    List.map_congr_left hall
  constructor
  · intro h
    obtain ⟨words, hsplit, htext⟩ := Option.map_eq_some_iff.mp h
    have hall := cString_eq_of_split hne hsplit htext
    rw [hsame hall, Shell.split_intercalate_iff (mt List.map_eq_nil_iff.mp hne)] at h
    exact fun s hs => ⟨(cString_eq_iff s).mp (hall s hs), h _ (List.mem_map_of_mem hs)⟩
  · intro hargs
    rw [hsame fun s hs => (cString_eq_iff s).mpr (hargs s hs).1,
      Shell.split_intercalate_iff (mt List.map_eq_nil_iff.mp hne)]
    intro t ht
    obtain ⟨s, hs, rfl⟩ := List.mem_map.mp ht
    exact (hargs s hs).2

omit [JsonAccess] in
theorem argument_fixed : Argument "python3" ∧ Argument "pylib/s3upload.py" ∧ Argument "cpp" := by
  refine ⟨⟨by decide, ?_⟩, ⟨by decide, ?_⟩, ⟨by decide, ?_⟩⟩
  all_goals exact ⟨by decide, List.all_eq_true.mp (by decide), by decide, by decide⟩

/-- **Upload command.** The command fits its buffer and is split into its words just if its members are strings,
the strings that are printed into it are arguments, and these are not too long together. -/
theorem uploadIntact_iff (payload : Json) (lcblogFile : String) :
    UploadIntact payload lcblogFile ↔
      (∀ v ∈ uploadMembers payload, v.isString = true) ∧
      (∀ s ∈ uploadArguments payload lcblogFile, Argument s) ∧
        ((uploadArguments payload lcblogFile).map String.length).sum ≤ 990 := by
  have hwords : (Shell.split (uploadCommand payload lcblogFile)).map (·.map Shell.Word.text) =
      some ((uploadWords (uploadArguments payload lcblogFile)).map String.toList) ↔
      ∀ s ∈ uploadArguments payload lcblogFile, Argument s := by
    rw [uploadCommand_eq, split_printed_iff (by simp [uploadWords])]
    obtain ⟨hpython, hscript, hcpp⟩ := argument_fixed
    simp [uploadWords, hpython, hscript, hcpp, or_imp, forall_and]
  have hlengths (hargs : ∀ s ∈ uploadArguments payload lcblogFile, Argument s) :
      (uploadArguments payload lcblogFile).map (fun s => (cString s).length) =
        (uploadArguments payload lcblogFile).map String.length :=
    List.map_congr_left fun s hs => by rw [(cString_eq_iff s).mpr (hargs s hs).1, String.length_toList]
  constructor
  · rintro ⟨line, hline, hsplit⟩
    have huploadable := (uploadLogs_ok_iff payload lcblogFile).mp ⟨line, hline⟩
    rw [uploadLogs_of_strings huploadable.strings] at hline
    split_ifs at hline
    obtain rfl := Except.ok.inj hline
    have hargs := hwords.mp hsplit
    exact ⟨huploadable.strings, hargs, hlengths hargs ▸ huploadable.fits⟩
  · rintro ⟨hstrings, hargs, hsum⟩
    obtain ⟨line, hline⟩ :=
      (uploadLogs_ok_iff payload lcblogFile).mpr ⟨hstrings, by rwa [hlengths hargs]⟩
    refine ⟨line, hline, ?_⟩
    rw [uploadLogs_of_strings hstrings] at hline
    split_ifs at hline
    obtain rfl := Except.ok.inj hline
    exact hwords.mpr hargs

end Upload

/-- A bucket behind which another command begins. -/
def exampleUpload : Json :=
  .object [("S3_BUCKET", .string "logs;reboot"), ("access_key", .string "key"), ("secret_key", .string "secret")]

theorem exampleUpload_not_intact :
    letI := JsonAccess.plain
    ¬ UploadIntact exampleUpload "sdkd.log" := by
  let := JsonAccess.plain
  rintro ⟨line, hline, hsplit⟩
  obtain rfl : _ = line := Except.ok.inj hline
  exact absurd hsplit (by decide)

end Sdkd
