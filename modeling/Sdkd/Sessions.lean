import Sdkd.Lib.AssignedMap
import Sdkd.Pairing

/-!
# The sessions of the daemon

`Main.cpp`, `Daemon.cpp` and the listening socket of `sockutil.c`: the command line in its old form, and the
sessions the daemon serves one after the other. The port of the address is zero for any port; the first session
replaces it by the port the socket has got.

## Main definitions

- `Program.parseLegacyArgs` — `infofile=FILE,debug=1`
- `DaemonState`, `DaemonState.runServer`
- `DaemonRun` — the sessions served so far

## Main results

- `parseLegacyArgs_rendered` — the options written side by side are read back, the last of each key
- `DaemonRun.port` — all sessions listen on one port, which the port file names once
-/

namespace Sdkd

open Assignments (assigned Holds)

/-- What the sessions need of `DaemonOptions`. -/
structure DaemonOptions where
  debugLevel : ℤ
  portFile : Option String
  isPersistent : Bool
  initialTTL : ℤ
  portNumber : ℕ
  deriving DecidableEq

/-- The constructor fills the options with zeros. -/
def DaemonOptions.zero : DaemonOptions := ⟨0, none, false, 0, 0⟩

/-! ## The command line -/

namespace Program

/-- `CBSDKD_LOGLVL_DEBUG`. -/
def debugLevel : ℤ := 2

/-- What `getline` finds between commas. There is no piece behind a comma at the end. -/
def getlines (arg : String) : List String :=
  let pieces := Dataset.pieces arg
  if pieces.getLast? = some "" then pieces.dropLast else pieces

/-- The text before and behind the first `=`. Where there is none both are the whole text, for `npos + 1` is
zero. -/
def keyValue (kvpair : String) : String × String :=
  if '=' ∈ kvpair.toList then
    (String.ofList (kvpair.toList.takeWhile (· ≠ '=')),
      String.ofList (kvpair.toList.dropWhile (· ≠ '=')).tail)
  else (kvpair, kvpair)

/-- The map `opt_pairs`. -/
def optPairs (args : List String) : Std.TreeMap String String :=
  ((args.flatMap getlines).map keyValue).foldl (fun m e => m.insert e.1 e.2) ∅

/-- `parseLegacyArgs`. -/
def parseLegacyArgs (args : List String) (userOptions : DaemonOptions) : Bool × DaemonOptions :=
  let value (key : String) : String := (optPairs args)[key]?.getD ""
  if (value "infofile").length = 0 then (false, userOptions)
  else
    let userOptions := { userOptions with portFile := some (value "infofile") }
    (true, if (value "debug").length ≠ 0 then { userOptions with debugLevel := debugLevel } else userOptions)

/-- `main` up to the daemon: `parseCliOptions`, which another library reads, comes second. -/
def options (parseCliOptions : List String → DaemonOptions → DaemonOptions) (args : List String) :
    DaemonOptions :=
  let legacy := parseLegacyArgs args .zero
  if legacy.1 then legacy.2 else parseCliOptions args legacy.2

/-- A pair as it is written on the command line. -/
def renderPair (e : String × String) : List Char := e.1.toList ++ '=' :: e.2.toList

/-- An argument of several pairs. -/
def renderArg (es : List (String × String)) : String :=
  String.ofList (List.intercalate [','] (es.map renderPair))

/-- A pair that can be written: its key ends at the first `=`, and the pair at the next comma. -/
structure Writable (e : String × String) : Prop where
  key : ',' ∉ e.1.toList ∧ '=' ∉ e.1.toList
  value : ',' ∉ e.2.toList

variable {e : String × String} {es : List (String × String)}

theorem keyValue_renderPair (h : Writable e) : keyValue (String.ofList (renderPair e)) = e := by
  have hkey : ∀ c ∈ e.1.toList, decide (c ≠ '=') = true := by
    intro c hc
    refine decide_eq_true fun heq => h.key.2 (heq ▸ hc)
  unfold keyValue
  rw [String.toList_ofList, if_pos (by simp [renderPair]), renderPair,
    List.takeWhile_append_of_pos hkey, List.dropWhile_append_of_pos hkey]
  simp

/-- The pairs of an argument are found again. -/
theorem getlines_renderArg (h : ∀ e ∈ es, Writable e) :
    getlines (renderArg es) = es.map fun e => String.ofList (renderPair e) := by
  unfold getlines Dataset.pieces renderArg
  rw [String.toList_ofList]
  by_cases hes : es = []
  · subst hes
    rfl
  · have hcomma : ∀ l ∈ es.map renderPair, ',' ∉ l := by
      intro l hl
      obtain ⟨e, he, rfl⟩ := List.mem_map.mp hl
      simp [renderPair, (h e he).key.1, (h e he).value]
    rw [List.splitOn_intercalate ',' hcomma (by simpa using hes)]
    have hlast : ((es.map renderPair).map String.ofList).getLast? ≠ some "" := by
      intro hlast
      obtain ⟨l, hl, hempty⟩ := List.mem_map.mp (List.mem_of_getLast? hlast)
      obtain ⟨e, -, rfl⟩ := List.mem_map.mp hl
      simp [renderPair] at hempty
    dsimp only
    rw [if_neg hlast, List.map_map]
    rfl

/-- The map holds the pairs of all arguments, the last of each key. -/
theorem holds_optPairs (args : List String) :
    Holds (optPairs args) ((args.flatMap getlines).map keyValue) := by
  have hempty : Holds (∅ : Std.TreeMap String String) [] := Assignments.holds_empty
  have hholds := hempty.foldl ((args.flatMap getlines).map keyValue)
  rwa [List.nil_append] at hholds

/-- The value of a key on the command line, empty if it is not given. -/
def given (es : List (String × String)) (key : String) : String := (assigned es key).getD ""

theorem optPairs_renderArgs {groups : List (List (String × String))}
    (h : ∀ es ∈ groups, ∀ e ∈ es, Writable e) (key : String) :
    (optPairs (groups.map renderArg))[key]?.getD "" = given groups.flatten key := by
  have hpairs : ((groups.map renderArg).flatMap getlines).map keyValue = groups.flatten := by
    induction groups with
    | nil => rfl
    | cons es groups ih =>
      have hes := h es List.mem_cons_self
      rw [List.map_cons, List.flatMap_cons, List.map_append,
        ih fun es' hes' => h es' (List.mem_cons_of_mem _ hes'), getlines_renderArg hes, List.map_map,
        List.flatten_cons]
      congr 1
      calc es.map (keyValue ∘ fun e => String.ofList (renderPair e)) = es.map id :=
            List.map_congr_left fun e he => keyValue_renderPair (hes e he)
        _ = es := List.map_id es
  rw [holds_optPairs, hpairs]
  rfl

/-- **Legacy options.** Pairs written side by side, in any number of arguments, are read back: the last value of
each key counts, `infofile` names the port file, any `debug` but the empty one sets the level, and the other
options stay as they are. Without an `infofile` nothing is set, and the command line is read in its new form. -/
theorem parseLegacyArgs_rendered (groups : List (List (String × String)))
    (h : ∀ es ∈ groups, ∀ e ∈ es, Writable e) (o : DaemonOptions) :
    parseLegacyArgs (groups.map renderArg) o =
      if given groups.flatten "infofile" = "" then (false, o)
      else (true, { o with
        portFile := some (given groups.flatten "infofile")
        debugLevel := if given groups.flatten "debug" = "" then o.debugLevel else debugLevel }) := by
  unfold parseLegacyArgs
  simp only [optPairs_renderArgs h, String.length_eq_zero_iff, ne_eq]
  split_ifs <;> rfl

/-- The second argument has the last word. -/
theorem parseLegacyArgs_rendered_two :
    parseLegacyArgs ["debug=1,infofile=a", "infofile=b"] .zero =
      (true, { DaemonOptions.zero with portFile := some "b", debugLevel := 2 }) := by
  have hwritable : ∀ es ∈ [[("debug", "1"), ("infofile", "a")], [("infofile", "b")]], ∀ e ∈ es,
      Writable e := by
    simp only [List.forall_mem_cons]
    exact ⟨⟨⟨⟨by decide, by decide⟩, by decide⟩, ⟨⟨by decide, by decide⟩, by decide⟩, nofun⟩,
      ⟨⟨⟨by decide, by decide⟩, by decide⟩, nofun⟩, nofun⟩
  exact parseLegacyArgs_rendered _ hwritable .zero

end Program

/-! ## The daemon -/

/-- How the calls of `sdkd_start_listening` go, and the port a socket gets that is bound to any port. -/
structure ListenCalls where
  socket : Bool
  setsockopt : Bool
  bind : Bool
  getsockname : Bool
  listen : Bool
  anyPort : ℕ

/-- The port a socket gets that is bound to `port`. -/
def boundPort (calls : ListenCalls) (port : ℕ) : ℕ := if port = 0 then calls.anyPort else port

/-- `sdkd_start_listening`: the port the socket listens on, if all goes well, and the port of the address
behind the call. -/
def startListening (calls : ListenCalls) (port : ℕ) : Option ℕ × ℕ :=
  if !calls.socket then (none, port)
  else if !calls.setsockopt then (none, port)
  else if !calls.bind then (none, port)
  else if !calls.getsockname then (none, port)
  else if !calls.listen then (none, boundPort calls port)
  else (some (boundPort calls port), boundPort calls port)

/-- The daemon. `file` is what stands in the port file, and `sessions` are the ports of the sessions served; both
are history variables. -/
structure DaemonState where
  options : DaemonOptions
  port : ℕ
  infoFp : Bool
  file : Option String
  sessions : List ℕ

/-- How the process ends. -/
inductive Exit where
  | code (n : ℤ)
  deriving DecidableEq

namespace DaemonState

/-- The constructor, which opens the port file; a port has 16 bits. -/
def new (options : DaemonOptions) (opens : Bool) : Except Exit DaemonState :=
  if options.portFile = none ∧ options.portNumber = 0 then .error (.code 1)
  else if options.portFile ≠ none ∧ opens = false then .error (.code 0)
  else .ok ⟨options, options.portNumber % 2 ^ 16, options.portFile.isSome,
    options.portFile.map fun _ => "", []⟩

/-- `writePortInfo`. -/
def writePortInfo (d : DaemonState) : DaemonState :=
  if !d.infoFp then d
  else { d with file := d.file.map (· ++ toString d.port ++ "\n"), infoFp := false }

/-- `runServer`, when the control loop of its session has come to its end. -/
def runServer (d : DaemonState) (calls : ListenCalls) : Except Exit DaemonState :=
  let out := startListening calls d.port
  let d := { d with port := out.2 }
  match out.1 with
  | none => .error (.code 1)
  | some port => .ok { d.writePortInfo with sessions := d.sessions ++ [port] }

end DaemonState

/-- The sessions of `Daemon::run`, with the calls made for each: the first one, and others if the daemon is
persistent. -/
inductive DaemonRun (options : DaemonOptions) : List ListenCalls → DaemonState → Prop
  | start (opens : Bool) {d : DaemonState} (h : DaemonState.new options opens = .ok d) :
      DaemonRun options [] d
  | session {cs : List ListenCalls} {c : ListenCalls} {d d' : DaemonState} (h : DaemonRun options cs d)
      (hnext : cs = [] ∨ options.isPersistent = true) (hs : d.runServer c = .ok d') :
      DaemonRun options (cs ++ [c]) d'

/-- What the file says before the first session and from then on. -/
def portInfo (options : DaemonOptions) (text : String) : Option String := options.portFile.map fun _ => text

/-- No session has been served. -/
structure Unserved (options : DaemonOptions) (d : DaemonState) : Prop where
  options_eq : d.options = options
  port : d.port = options.portNumber % 2 ^ 16
  infoFp : d.infoFp = options.portFile.isSome
  file : d.file = portInfo options ""
  sessions : d.sessions = []

/-- `n` sessions have been served, all of them on the port `p`. -/
structure Served (options : DaemonOptions) (p n : ℕ) (d : DaemonState) : Prop where
  options_eq : d.options = options
  port : d.port = p
  infoFp : d.infoFp = false
  file : d.file = portInfo options (toString p ++ "\n")
  sessions : d.sessions = List.replicate n p

variable {options : DaemonOptions} {c : ListenCalls} {cs : List ListenCalls} {d d' : DaemonState} {p n : ℕ}

/-- A session that is served listens on the port of the address, or on any port, and leaves it there. -/
theorem runServer_eq (h : d.runServer c = .ok d') :
    d' = { ({ d with port := boundPort c d.port } : DaemonState).writePortInfo with
      sessions := d.sessions ++ [boundPort c d.port] } := by
  unfold DaemonState.runServer startListening at h
  split_ifs at h
  exact (Except.ok.inj h).symm

theorem Unserved.runServer (h : Unserved options d) (hs : d.runServer c = .ok d') :
    Served options (boundPort c (options.portNumber % 2 ^ 16)) 1 d' := by
  have hwritten : ({ d with port := boundPort c d.port } : DaemonState).writePortInfo =
      { d with port := boundPort c d.port, infoFp := false,
               file := d.file.map (· ++ toString (boundPort c d.port) ++ "\n") } := by
    unfold DaemonState.writePortInfo
    cases hfile : options.portFile with
    | none => simp [h.infoFp, h.file, portInfo, hfile]
    | some f => simp [h.infoFp, hfile]
  rw [runServer_eq hs, hwritten]
  refine ⟨h.options_eq, by rw [h.port], rfl, ?_, by simp [h.sessions, h.port]⟩
  simp [h.file, portInfo, h.port, Function.comp_def]

theorem Served.runServer (h : Served options p n d) (hp : p ≠ 0) (hs : d.runServer c = .ok d') :
    Served options p (n + 1) d' := by
  have hbound : boundPort c d.port = p := by rw [boundPort, h.port, if_neg hp]
  have hwritten : ({ d with port := p } : DaemonState).writePortInfo = { d with port := p } := by
    unfold DaemonState.writePortInfo
    rw [if_pos (by simp [h.infoFp])]
  rw [runServer_eq hs, hbound, hwritten]
  exact ⟨h.options_eq, rfl, h.infoFp, h.file, by simp [h.sessions, List.replicate_succ']⟩

theorem unserved_new {opens : Bool} (h : DaemonState.new options opens = .ok d) : Unserved options d := by
  unfold DaemonState.new at h
  split_ifs at h
  obtain rfl := Except.ok.inj h
  exact ⟨rfl, rfl, rfl, rfl, rfl⟩

/-- **Sessions.** In every run of the daemon whose sockets bound to any port get one that is not zero: before the
first session the port file is there and empty; from the first session on it has one line, which names the port of
that session, and every later session listens on this port, which is the one asked for if one was. A daemon that
is not persistent serves one session. -/
theorem DaemonRun.port (h : DaemonRun options cs d) (hany : ∀ c ∈ cs, c.anyPort ≠ 0) :
    (cs = [] ∧ Unserved options d) ∨
    (∃ p, p ≠ 0 ∧ (options.portNumber % 2 ^ 16 ≠ 0 → p = options.portNumber % 2 ^ 16) ∧
      Served options p cs.length d ∧ cs ≠ [] ∧ (options.isPersistent = false → cs.length = 1)) := by
  induction h with
  | start opens hnew => exact .inl ⟨rfl, unserved_new hnew⟩
  | @session cs c d d' hrun hnext hs ih =>
    have hnonzero : c.anyPort ≠ 0 := hany c (by simp)
    rcases ih fun c hc => hany c (List.mem_append_left _ hc) with ⟨rfl, hunserved⟩ |
        ⟨p, hp, hasked, hserved, hne, hone⟩
    · refine .inr ⟨_, ?_, fun hport => if_neg hport, hunserved.runServer hs, by simp, fun _ => rfl⟩
      split_ifs with hport
      · exact hnonzero
      · exact hport
    · refine .inr ⟨p, hp, hasked, ?_, by simp, fun hpersistent => ?_⟩
      · rw [List.length_append, List.length_singleton]
        exact hserved.runServer hp hs
      · rcases hnext with rfl | hyes
        · exact absurd rfl hne
        · rw [hyes] at hpersistent
          cases hpersistent

/-- A persistent daemon on any port, and calls that all go well. -/
def examplePersistent : DaemonOptions := { DaemonOptions.zero with portFile := some "info", isPersistent := true }

def exampleCalls (anyPort : ℕ) : ListenCalls := ⟨true, true, true, true, true, anyPort⟩

/-- Two sessions, the second one on the port the first one got. -/
theorem DaemonRun.port_two : ∃ d, DaemonRun examplePersistent [exampleCalls 4711, exampleCalls 4712] d ∧
    d.sessions = [4711, 4711] ∧ d.file = some "4711\n" ∧ ∃ p, Served examplePersistent p 2 d := by
  have hrun : DaemonRun examplePersistent ([exampleCalls 4711] ++ [exampleCalls 4712]) _ :=
    .session (.session (.start true rfl) (.inl rfl) rfl) (.inr rfl) rfl
  have hany : ∀ c ∈ [exampleCalls 4711, exampleCalls 4712], c.anyPort ≠ 0 := by decide
  rcases DaemonRun.port hrun hany with ⟨hnil, -⟩ | ⟨p, -, -, hserved, -⟩
  · cases hnil
  · exact ⟨_, hrun, rfl, by decide, p, hserved⟩

end Sdkd
