import Mathlib.Tactic.IntervalCases
import Sdkd.Iteration
import Sdkd.Lib.Words

/-!
# Subdocument schemas

The value of a subdocument load. `init_data` renders the schema as a string literal and takes away the quotes,
the end of the line and every backslash.

## Main definitions

- `LiteralChar` — how a character is written in a standard string literal
- `Survives` — what is left of its characters without backslashes is the schema itself

## Main results

- `schema_roundTrip_iff` — when the value is the schema
-/

namespace Sdkd

/-! ## String literals -/

/-- The characters a string literal cannot hold as they are. -/
def mustEscape (c : Char) : Bool := c = '"' ∨ c = '\\' ∨ c.toNat < 0x20

/-- The characters with an escape of two characters, and the second of these. -/
def twoCharEscapes : List (Char × Char) :=
  [('"', '"'), ('\\', '\\'), ('/', '/'), (Char.ofNat 8, 'b'), (Char.ofNat 12, 'f'), ('\n', 'n'),
    ('\r', 'r'), ('\t', 't')]

def HexDigit (d : ℕ) (c : Char) : Prop :=
  d < 16 ∧ (c = Nat.digitChar d ∨ c = (Nat.digitChar d).toUpper)

/-- How a character is written in a standard string literal. -/
inductive LiteralChar : Char → List Char → Prop
  | unescaped {c : Char} (h : mustEscape c = false) : LiteralChar c [c]
  | escaped {c name : Char} (h : (c, name) ∈ twoCharEscapes) : LiteralChar c ['\\', name]
  | unicode {c : Char} {d₁ d₂ d₃ d₄ : ℕ} {c₁ c₂ c₃ c₄ : Char} (h₁ : HexDigit d₁ c₁)
      (h₂ : HexDigit d₂ c₂) (h₃ : HexDigit d₃ c₃) (h₄ : HexDigit d₄ c₄)
      (hvalue : c.toNat = ((d₁ * 16 + d₂) * 16 + d₃) * 16 + d₄) :
      LiteralChar c ['\\', 'u', c₁, c₂, c₃, c₄]
  | surrogates {c : Char} {high low : List Char} (hhigh : ∀ x ∈ high, ∃ d, HexDigit d x)
      (hlow : ∀ x ∈ low, ∃ d, HexDigit d x) (hplane : 0x10000 ≤ c.toNat) :
      LiteralChar c (['\\', 'u'] ++ high ++ ['\\', 'u'] ++ low)

theorem HexDigit.ne_backslash {d : ℕ} {c : Char} (h : HexDigit d c) : c ≠ '\\' := by
  have hall : ∀ d < 16, Nat.digitChar d ≠ '\\' ∧ (Nat.digitChar d).toUpper ≠ '\\' := by decide
  obtain ⟨hd, rfl | rfl⟩ := h
  · exact (hall d hd).1
  · exact (hall d hd).2

/-- What is left of the characters without backslashes. -/
def unslashed (cs : List Char) : List Char := cs.filter (· ≠ '\\')

/-- Only of a backslash nothing is left. -/
theorem LiteralChar.unslashed_ne_nil {c : Char} {cs : List Char} (h : LiteralChar c cs) (hc : c ≠ '\\') :
    unslashed cs ≠ [] := by
  cases h with
  | unescaped => simp [unslashed, hc]
  | @escaped name hname =>
    have hall : ∀ e ∈ twoCharEscapes, e.1 ≠ '\\' → e.2 ≠ '\\' := by decide
    simp [unslashed, hall _ hname hc]
  | unicode => simp [unslashed]
  | surrogates => simp [unslashed]

/-- A single character is left if it is written by itself, or behind a backslash. -/
theorem LiteralChar.unslashed_eq_iff {c : Char} {cs : List Char} (h : LiteralChar c cs) (hc : c ≠ '\\') :
    unslashed cs = [c] ↔ cs = [c] ∨ cs = ['\\', c] := by
  constructor
  · intro heq
    cases h with
    | unescaped => exact .inl rfl
    | @escaped name hname =>
      have hall : ∀ e ∈ twoCharEscapes, e.1 ≠ '\\' → e.2 ≠ '\\' := by decide
      refine .inr ?_
      simpa [unslashed, hall _ hname hc] using heq
    | unicode h₁ h₂ h₃ h₄ =>
      simp [unslashed, h₁.ne_backslash] at heq
    | surrogates =>
      -- two letters are left at least
      have hlen := congrArg List.length heq
      simp [unslashed] at hlen
  · rintro (rfl | rfl) <;> simp [unslashed, hc]

/-- The characters of the text survive: none is a backslash, and each is written by itself or behind a
backslash. -/
def Survives (enc : Char → List Char) (s : String) : Prop :=
  ∀ c ∈ s.toList, c ≠ '\\' ∧ (enc c = [c] ∨ enc c = ['\\', c])

/-- A control character does not survive. -/
theorem LiteralChar.ne_of_control {c : Char} {cs : List Char} (h : LiteralChar c cs)
    (hc : c.toNat < 0x20) : ¬ (cs = [c] ∨ cs = ['\\', c]) := by
  cases h with
  | unescaped hno => simp [mustEscape, hc] at hno
  | @escaped name hname =>
    have hall : ∀ e ∈ twoCharEscapes, e.1.toNat < 0x20 → e.2 ≠ e.1 := by decide
    simpa using hall _ hname hc
  | unicode => simp
  | surrogates => simp

/-- Where a character is not escaped without need, and a quote is written behind a backslash, those survive
that are no backslash and no control character. -/
theorem survives_iff_plain {enc : Char → List Char} (hstd : ∀ c, LiteralChar c (enc c))
    (hmin : ∀ c, c ≠ '\\' → 0x20 ≤ c.toNat → enc c = if c = '"' then ['\\', '"'] else [c])
    (s : String) : Survives enc s ↔ ∀ c ∈ s.toList, c ≠ '\\' ∧ 0x20 ≤ c.toNat := by
  refine forall₂_congr fun c _ => and_congr_right fun hc => ?_
  constructor
  · intro hsurvives
    by_contra hcontrol
    exact (hstd c).ne_of_control (by omega) hsurvives
  · intro hplain
    rw [hmin c hc hplain]
    split_ifs with hquote
    · exact .inr (by rw [hquote])
    · exact .inl rfl

/-- What is left of a literal without backslashes is the text if and only if its characters survive. -/
theorem unslashed_literal_iff {enc : Char → List Char} (hstd : ∀ c, LiteralChar c (enc c)) (s : String) :
    unslashed (s.toList.flatMap enc) = s.toList ↔ Survives enc s := by
  have hflat : unslashed (s.toList.flatMap enc) = s.toList.flatMap fun c => unslashed (enc c) := by
    unfold unslashed
    rw [List.filter_flatMap]
  rw [hflat]
  by_cases hslash : '\\' ∈ s.toList
  · refine iff_of_false (fun heq => ?_) (fun h => (h _ hslash).1 rfl)
    rw [← heq] at hslash
    obtain ⟨c, -, hc⟩ := List.mem_flatMap.mp hslash
    simp [unslashed] at hc
  · have hne : ∀ c ∈ s.toList, c ≠ '\\' := by
      rintro c hc rfl
      exact hslash hc
    rw [Words.flatMap_eq_self_iff fun c hc => (hstd c).unslashed_ne_nil (hne c hc)]
    refine forall₂_congr fun c hc => ?_
    rw [(hstd c).unslashed_eq_iff (hne c hc), and_iff_right (hne c hc)]

/-! ## The value of a load -/

namespace Dataset

/-- Without its first character, its last two and its backslashes. -/
theorem stripRendering_toList {curv : String} {a b c : Char} {body : List Char}
    (h : curv.toList = a :: body ++ [b, c]) : (stripRendering curv).toList = unslashed body := by
  have hinner : ∀ ci ∈ body.zipIdx 1,
      decide (ci.1 ≠ '\\' ∧ ci.2 ≠ 0 ∧ ci.2 + 2 ≠ body.length + 3 ∧ ci.2 + 1 ≠ body.length + 3) =
        decide (ci.1 ≠ '\\') := by
    intro ci hci
    have hidx := List.mem_zipIdx hci
    rw [decide_eq_decide, and_iff_left (by omega)]
  unfold stripRendering
  rw [String.toList_ofList, h]
  simp only [List.cons_append, List.zipIdx_cons, List.zipIdx_append, List.length_cons,
    List.length_append, List.length_nil, List.zipIdx_nil]
  rw [List.filter_cons_of_neg (by simp), List.filter_append, List.filter_congr hinner,
    List.filter_cons_of_neg (by simp; omega), List.filter_cons_of_neg (by simp; omega),
    List.filter_nil, List.append_nil]
  -- the indices are gone from the test
  have hmap := List.filter_map (f := Prod.fst) (p := fun c : Char => decide (c ≠ '\\'))
    (l := body.zipIdx 1)
  rw [List.zipIdx_map_fst] at hmap
  exact hmap.symm

section Load

variable [JsonAccess] [JsonWriter]

/-- **Schema round trip.** Where the writer renders a string as a standard literal and a newline, the value of
every item of a load is the schema if and only if the characters of the schema survive. For a writer that
escapes no character without need that is, if the schema has no backslash and no control character. -/
theorem schema_roundTrip_iff (enc : Char → List Char) (hstd : ∀ c, LiteralChar c (enc c))
    (hwrite : ∀ s, (JsonWriter.write (.string s)).toList = '"' :: s.toList.flatMap enc ++ ['"', '\n'])
    (jspec : Json) (i : DatasetIterator) (idx : ℤ) :
    ∃ j, initData (sdOfJson jspec true).spec i idx = .ok j ∧
      (j.curv = asString (jspec.get "SDSchema") ↔ Survives enc (asString (jspec.get "SDSchema"))) ∧
      ((∀ c, c ≠ '\\' → 0x20 ≤ c.toNat → enc c = if c = '"' then ['\\', '"'] else [c]) →
        (j.curv = asString (jspec.get "SDSchema") ↔
          ∀ c ∈ (asString (jspec.get "SDSchema")).toList, c ≠ '\\' ∧ 0x20 ≤ c.toNat)) := by
  have hvalue : stripRendering (JsonWriter.write (.string (asString (jspec.get "SDSchema")))) =
      asString (jspec.get "SDSchema") ↔ Survives enc (asString (jspec.get "SDSchema")) := by
    rw [← unslashed_literal_iff hstd, ← stripRendering_toList (hwrite _), String.toList_inj]
  refine ⟨_, rfl, hvalue, fun hmin => ?_⟩
  rw [← survives_iff_plain hstd hmin]
  exact hvalue

end Load

section Examples

/-- How the fast writer of the JSON library writes a character. -/
def fastEscape (c : Char) : List Char :=
  if c = '"' then ['\\', '"']
  else if c = '\\' then ['\\', '\\']
  else if c.toNat < 0x20 then
    match twoCharEscapes.find? (·.1 = c) with
    | some e => ['\\', e.2]
    | none => ['\\', 'u', '0', '0', Nat.digitChar (c.toNat / 16), Nat.digitChar (c.toNat % 16)]
  else [c]

theorem literalChar_fastEscape (c : Char) : LiteralChar c (fastEscape c) := by
  unfold fastEscape
  split_ifs with hquote hslash hcontrol
  · obtain rfl := hquote
    exact .escaped (by decide)
  · obtain rfl := hslash
    exact .escaped (by decide)
  · split
    · next e he =>
      have hc : e.1 = c := by simpa using List.find?_some he
      exact .escaped (hc ▸ List.mem_of_find?_eq_some he)
    · have hzero : HexDigit 0 '0' := ⟨by decide, .inl rfl⟩
      exact .unicode hzero hzero ⟨by omega, .inl rfl⟩ ⟨by omega, .inl rfl⟩ (by omega)
  · exact .unescaped (by simp [mustEscape, hquote, hslash, hcontrol])

theorem newline_notMem_literal {c : Char} {cs : List Char} (h : LiteralChar c cs) : '\n' ∉ cs := by
  have hdigit : ∀ d < 16, Nat.digitChar d ≠ '\n' ∧ (Nat.digitChar d).toUpper ≠ '\n' := by decide
  have hhex : ∀ {d : ℕ} {c : Char}, HexDigit d c → '\n' ≠ c := by
    rintro d c ⟨hd, rfl | rfl⟩
    · exact (hdigit d hd).1.symm
    · exact (hdigit d hd).2.symm
  cases h with
  | unescaped hplain =>
    simp only [mustEscape, decide_eq_false_iff_not, not_or] at hplain
    rintro hmem
    obtain rfl := List.mem_singleton.mp hmem
    exact hplain.2.2 (by decide)
  | @escaped name hname =>
    have hall : ∀ e ∈ twoCharEscapes, '\n' ≠ e.2 := by decide
    simpa using hall _ hname
  | unicode h₁ h₂ h₃ h₄ => simp [hhex h₁, hhex h₂, hhex h₃, hhex h₄]
  | surrogates hhigh hlow =>
    have hdigits : ∀ {xs : List Char}, (∀ x ∈ xs, ∃ d, HexDigit d x) → '\n' ∉ xs := by
      intro xs hxs hmem
      obtain ⟨d, hd⟩ := hxs _ hmem
      exact hhex hd rfl
    simp [hdigits hhigh, hdigits hlow]

/-- A writer that renders strings as the fast writer does. -/
@[reducible] def fastWriter : JsonWriter where
  write := fun j =>
    match j with
    | .string s => String.ofList ('"' :: s.toList.flatMap fastEscape ++ ['"', '\n'])
    | j => JsonWriter.compact.write j
  write_line := by
    intro j
    cases j with
    | string s =>
      refine ⟨'"' :: s.toList.flatMap fastEscape ++ ['"'], by simp, ?_⟩
      have hbody : '\n' ∉ s.toList.flatMap fastEscape := by
        intro hmem
        obtain ⟨c, -, hc⟩ := List.mem_flatMap.mp hmem
        exact newline_notMem_literal (literalChar_fastEscape c) hc
      simp [hbody]
    | _ => exact JsonWriter.compact.write_line _

theorem fastEscape_minimal {c : Char} (hslash : c ≠ '\\') (hplain : 0x20 ≤ c.toNat) :
    fastEscape c = if c = '"' then ['\\', '"'] else [c] := by
  unfold fastEscape
  rw [if_neg hslash, if_neg (Nat.not_lt.mpr hplain)]

/-- A schema with quotes survives the writer that escapes nothing without need. -/
theorem schema_roundTrip_iff_object :
    letI := JsonAccess.plain
    letI := fastWriter
    let schema := "\x7b\"id\": 1\x7d"
    ∃ j, initData (sdOfJson (.object [("SDSchema", .string schema), ("Count", .uint 1)]) true).spec
        newIterator 0 = .ok j ∧
      (j.curv = schema ↔ Survives fastEscape schema) ∧ j.curv = schema := by
  let _ := JsonAccess.plain
  let _ := fastWriter
  obtain ⟨j, hj, hiff, hmin⟩ := schema_roundTrip_iff fastEscape literalChar_fastEscape
    (fun s => String.toList_ofList) (.object [("SDSchema", .string "\x7b\"id\": 1\x7d"),
      ("Count", .uint 1)]) newIterator 0
  have hchars : ("\x7b\"id\": 1\x7d".toList.all fun c => decide (c ≠ '\\' ∧ 0x20 ≤ c.toNat)) = true := by decide
  have hplain := fun c hc => of_decide_eq_true (List.all_eq_true.mp hchars c hc)
  exact ⟨j, hj, hiff, (hmin fun _ => fastEscape_minimal).mpr hplain⟩

/-- A schema of two lines loses its line break. -/
theorem twoLines_not_roundTrip :
    letI := JsonAccess.plain
    letI := fastWriter
    (verifySpec (sdOfJson (.object [("SDSchema", .string "\x7b\n\x7d"), ("Count", .uint 1)])
      true).spec).isSet = false ∧
    ∃ j, initData (sdOfJson (.object [("SDSchema", .string "\x7b\n\x7d"), ("Count", .uint 1)])
        true).spec newIterator 0 = .ok j ∧
      j.curv = "\x7bn\x7d" ∧ j.curv ≠ "\x7b\n\x7d" :=
  ⟨rfl, _, rfl, by decide, by decide⟩

end Examples

end Dataset

end Sdkd
