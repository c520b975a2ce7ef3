import Sdkd.HandleInput

/-!
# Host lists

The host list of a handle: its Hostname, and behind it the hosts of OtherNodes. A comma is put between the two
parts and a semicolon behind each of the other hosts, so that the list of a cluster with other hosts ends in
a separator.
-/

namespace Sdkd

/-- The two characters hosts are separated by. -/
def isSeparator (c : Char) : Bool := c = ',' ∨ c = ';'

/-- A host that can be told from its neighbours in a list. -/
structure Host where
  name : String
  ne_empty : name ≠ ""
  plain : ∀ c ∈ name.toList, isSeparator c = false

/-- An element of OtherNodes: a host, alone or in an array with one more element at most. -/
inductive OtherNode where
  | name (host : Host)
  | array (host : Host) (second : Option Json)

namespace OtherNode

def host : OtherNode → Host
  | name host => host
  | array host _ => host

def toJson : OtherNode → Json
  | name host => .string host.name
  | array host second => .array (.string host.name :: second.toList)

/-- The text `getExtraHosts` makes of OtherNodes. -/
def extraText (nodes : List OtherNode) : List Char := nodes.flatMap fun node => node.host.name.toList ++ [';']

end OtherNode

/-- The elements of a list with separators. An empty text has none. -/
def hostPieces (list : String) : List String :=
  if list = "" then [] else (list.toList.splitOnP isSeparator).map String.ofList

/-- A list of `hostname`, if there is one, and `hosts`. -/
structure HostListed (list hostname : String) (hosts : List String) : Prop where
  pieces : hostPieces list = (if hostname = "" then [] else [hostname]) ++ hosts
  ne_empty : ∀ p ∈ hostPieces list, p ≠ ""

theorem splitOnP_extraText (nodes : List OtherNode) :
    (OtherNode.extraText nodes).splitOnP isSeparator = nodes.map (·.host.name.toList) ++ [[]] := by
  induction nodes with
  | nil => rfl
  | cons node nodes ih =>
    unfold OtherNode.extraText at ih ⊢
    rw [List.flatMap_cons, List.append_assoc, List.singleton_append,
      List.splitOnP_append_cons_of_forall_mem node.host.plain ';' rfl, ih]
    rfl

theorem hostPieces_of_plain {name : String} (hplain : ∀ c ∈ name.toList, isSeparator c = false) :
    hostPieces name = if name = "" then [] else [name] := by
  unfold hostPieces
  rw [List.splitOnP_eq_singleton hplain]
  simp

/-- The list behind other hosts has an empty element at its end. -/
theorem hostPieces_joinHosts {hostname : String} (hplain : ∀ c ∈ hostname.toList, isSeparator c = false)
    {nodes : List OtherNode} (hne : nodes ≠ []) :
    hostPieces (HandleOptions.joinHosts hostname (String.ofList (OtherNode.extraText nodes))) =
      (if hostname = "" then [] else [hostname]) ++ nodes.map (·.host.name) ++ [""] := by
  have htext : OtherNode.extraText nodes ≠ [] := by
    obtain ⟨node, nodes, rfl⟩ := List.exists_cons_of_ne_nil hne
    simp [OtherNode.extraText]
  have hlen : (String.ofList (OtherNode.extraText nodes)).length ≠ 0 := by
    simpa using htext
  unfold HandleOptions.joinHosts
  rw [if_pos hlen]
  by_cases hempty : hostname = ""
  · subst hempty
    rw [if_neg (by simp), if_pos rfl, hostPieces, if_neg (by simpa using htext), String.toList_append,
      String.toList_ofList]
    simp [splitOnP_extraText]
  · have hcomma : (hostname ++ "," ++ String.ofList (OtherNode.extraText nodes)).toList =
        hostname.toList ++ ',' :: OtherNode.extraText nodes := by simp
    rw [if_pos (by simpa using hempty), if_neg hempty, hostPieces, if_neg (by simp), hcomma,
      List.splitOnP_append_cons_of_forall_mem hplain ',' rfl, splitOnP_extraText]
    simp

section Payloads

variable [JsonAccess] {certfile : Option String} {payload : Json}

theorem extraHosts_nodes (extras : String) (nodes : List OtherNode) :
    HandleOptions.extraHosts extras (nodes.map OtherNode.toJson) =
      some (extras ++ String.ofList (OtherNode.extraText nodes)) := by
  induction nodes generalizing extras with
  | nil => simp [HandleOptions.extraHosts, OtherNode.extraText]
  | cons node nodes ih =>
    have hstep : HandleOptions.extraHosts extras ((node :: nodes).map OtherNode.toJson) =
        HandleOptions.extraHosts (extras ++ node.host.name ++ ";") (nodes.map OtherNode.toJson) := by
      rw [List.map_cons]
      cases node with
      | name host => simp [HandleOptions.extraHosts, OtherNode.toJson, OtherNode.host, Json.isString,
          JsonAccess.asString_string]
      | array host second =>
        have hfirst (items : List Json) : (Json.array (.string host.name :: items)).index 0 =
          .string host.name := rfl
        cases second <;>
          simp [HandleOptions.extraHosts, OtherNode.toJson, OtherNode.host, Json.isString, Json.isArray,
            Json.size, hfirst, JsonAccess.asString_string]
    have htext : OtherNode.extraText (node :: nodes) =
        node.host.name.toList ++ ';' :: OtherNode.extraText nodes := by
      simp [OtherNode.extraText]
    rw [hstep, ih, htext, Option.some_inj, ← String.toList_inj]
    simp

/-- The hostname of a handle whose options have other nodes. -/
theorem hostname_of_nodes {nodes : List OtherNode}
    (hnodes : (payload.get "Options").get "OtherNodes" = .array (nodes.map OtherNode.toJson))
    {junk o : HandleOptions} (hok : HandleOptions.ofJson junk certfile payload = .ok o) :
    o.hostname = HandleOptions.joinHosts (asString (payload.get "Hostname"))
      (String.ofList (OtherNode.extraText nodes)) := by
  have hobject : isObject (payload.get "Options") = true := by
    cases hopts : payload.get "Options" with
    | object ms => exact JsonAccess.isObject_object ms
    | _ =>
      rw [hopts] at hnodes
      cases hnodes
  have hhosts : HandleOptions.getExtraHosts (payload.get "Options") =
      some ("" ++ String.ofList (OtherNode.extraText nodes)) := by
    unfold HandleOptions.getExtraHosts
    rw [hnodes]
    exact extraHosts_nodes "" nodes
  rw [HandleOptions.ofJson_with_options hobject hhosts] at hok
  cases hpath : HandleOptions.certPath certfile (payload.get "Options") with
  | error e =>
    rw [hpath] at hok
    cases hok
  | ok path =>
    rw [hpath] at hok
    obtain rfl := Except.ok.inj hok
    simp

/-- **Host lists.** The hostname of a handle is a list of the Hostname and the other hosts just if there are no
others: behind each of them comes a separator, also behind the last one. -/
theorem hostListed_iff {nodes : List OtherNode}
    (hnodes : (payload.get "Options").get "OtherNodes" = .array (nodes.map OtherNode.toJson))
    (hplain : ∀ c ∈ (asString (payload.get "Hostname")).toList, isSeparator c = false)
    {junk o : HandleOptions} (hok : HandleOptions.ofJson junk certfile payload = .ok o) :
    HostListed o.hostname (asString (payload.get "Hostname")) (nodes.map (·.host.name)) ↔ nodes = [] := by
  rw [hostname_of_nodes hnodes hok]
  constructor
  · intro hlisted
    by_contra hne
    have hpieces := hlisted.pieces
    rw [hostPieces_joinHosts hplain hne] at hpieces
    simp at hpieces
  · rintro rfl
    have hpieces : hostPieces (HandleOptions.joinHosts (asString (payload.get "Hostname"))
        (String.ofList (OtherNode.extraText []))) =
        if asString (payload.get "Hostname") = "" then [] else [asString (payload.get "Hostname")] :=
      hostPieces_of_plain hplain
    refine ⟨by simpa using hpieces, ?_⟩
    rw [hpieces]
    split_ifs with hempty
    · simp
    · simpa using hempty

end Payloads

section Examples

def exampleHost (name : String) (other : List OtherNode) : Json :=
  .object [("Bucket", .string "default"), ("Hostname", .string name),
    ("Options", .object [("OtherNodes", .array (other.map OtherNode.toJson))])]

theorem exampleHost_listed :
    letI := JsonAccess.plain
    ∃ o, HandleOptions.ofJson HandleOptions.zeroed none (exampleHost "a" []) = .ok o ∧
      HostListed o.hostname "a" [] := by
  let := JsonAccess.plain
  have hnodes : ((exampleHost "a" []).get "Options").get "OtherNodes" = .array ([].map OtherNode.toJson) := rfl
  have hname : asString ((exampleHost "a" []).get "Hostname") = "a" := rfl
  obtain ⟨o, hok⟩ : ∃ o, HandleOptions.ofJson HandleOptions.zeroed none (exampleHost "a" []) = .ok o := ⟨_, rfl⟩
  exact ⟨o, hok, (hostListed_iff hnodes (by rw [hname]; simp [isSeparator]) hok).mpr rfl⟩

/-- One other host. -/
def exampleOther : OtherNode := .name ⟨"b", by decide, by simp [isSeparator]⟩

/-- The list of two hosts is read as one of three. -/
theorem exampleOther_not_listed :
    letI := JsonAccess.plain
    ∃ o, HandleOptions.ofJson HandleOptions.zeroed none (exampleHost "a" [exampleOther]) = .ok o ∧
      o.hostname = "a,b;" ∧ ¬ HostListed o.hostname "a" ["b"] := by
  let := JsonAccess.plain
  refine ⟨_, rfl, by decide, fun hlisted => ?_⟩
  have hpieces := hlisted.pieces
  exact absurd hpieces (by decide)

end Examples

end Sdkd
