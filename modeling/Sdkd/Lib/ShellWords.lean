import Mathlib.Algebra.BigOperators.Group.List.Basic
import Mathlib.Algebra.GroupWithZero.Nat
import Mathlib.Algebra.Order.Group.Nat
import Mathlib.Data.List.Basic
import Mathlib.Tactic.SplitIfs

/-!
# Words of a shell command

A line that the POSIX shell runs as one simple command, and the words it splits it into. Words may be quoted in
every way there is. A line has no words here if it is anything but one simple command, or if they depend on more than
the line: on variables, on other commands, on files whose names match a pattern, or on the homes of users.

## Main definitions

- `split` — the words of a line
- `Literal` — a text that stands for itself as a word

## Main results

- `cost_split_le` — a word costs its characters and a blank, and a quoted one another character
- `split_intercalate_iff` — when texts with blanks between them are split into these texts
-/

namespace Shell

/-! ## Characters -/

def isBlank (c : Char) : Bool := c = ' ' ∨ c = '\t'

/-- A control operator, a redirection operator or the end of a command. -/
def isOperator (c : Char) : Bool := "|&;<>()\n".toList.contains c

/-- The beginning of an expansion. -/
def isExpansion (c : Char) : Bool := "$`".toList.contains c

def isQuote (c : Char) : Bool := c = '\\' ∨ c = '\'' ∨ c = '"'

/-- A character that stands for itself inside a word. -/
def isOrdinary (c : Char) : Bool := !isBlank c && !isOperator c && !isExpansion c && !isQuote c

/-! ## Words -/

/-- A word: its characters, each with whether it was quoted, and whether there was a quoting character in it. -/
structure Word where
  chars : List (Char × Bool)
  quoted : Bool
  deriving DecidableEq

namespace Word

def push (w : Word) (c : Char) (quoted : Bool) : Word := ⟨w.chars ++ [(c, quoted)], w.quoted || quoted⟩

def openQuote (w : Word) : Word := ⟨w.chars, true⟩

/-- Whether the characters behind an unquoted `[` make it a bracket expression: there is a `]` that is not
the first of them and comes before every slash. -/
def closes (cs : List (Char × Bool)) : Bool :=
  match if cs.head? = some ('!', false) then cs.tail else cs with
  | [] => false
  | c :: rest => c.1 ≠ '/' && (rest.takeWhile (·.1 ≠ '/')).contains (']', false)

/-- Whether the shell looks for files whose names match. -/
def isPattern : List (Char × Bool) → Bool
  | [] => false
  | c :: cs => c = ('*', false) || c = ('?', false) || (c = ('[', false) && closes cs) || isPattern cs

/-- The word does not depend on files or users. -/
def isFixed (w : Word) : Bool := !isPattern w.chars && w.chars.head? ≠ some ('~', false)

def text (w : Word) : List Char := w.chars.map Prod.fst

/-- The least number of characters the word takes in a line, with one blank. -/
def cost (w : Word) : ℕ := w.chars.length + 1 + if w.quoted then 1 else 0

end Word

/-! ## Scanning a line -/

inductive Mode where
  | blank | blankEscape | word | escape | single | double | doubleEscape | comment
  deriving DecidableEq

/-- An unquoted character that is no blank. -/
def inWord (w : Word) (c : Char) : Option (Mode × Word) :=
  if c = '\\' then some (.escape, w)
  else if c = '\'' then some (.single, w.openQuote)
  else if c = '"' then some (.double, w.openQuote)
  else if isOperator c ∨ isExpansion c then none
  else some (.word, w.push c false)

/-- One character. The word that ends with it, if there is one, is put out. -/
def next (m : Mode) (w : Word) (c : Char) : Option (Option Word × Mode × Word) :=
  match m with
  | .blank =>
    if isBlank c then some (none, .blank, ⟨[], false⟩)
    else if c = '#' then some (none, .comment, ⟨[], false⟩)
    else if c = '\\' then some (none, .blankEscape, ⟨[], false⟩)
    else (inWord ⟨[], false⟩ c).map (none, ·)
  | .blankEscape =>
    -- a line continuation is no part of a word
    if c = '\n' then some (none, .blank, ⟨[], false⟩)
    else some (none, .word, ⟨[(c, true)], true⟩)
  | .word =>
    if isBlank c then if w.isFixed then some (some w, .blank, ⟨[], false⟩) else none
    else (inWord w c).map (none, ·)
  | .escape => if c = '\n' then some (none, .word, w) else some (none, .word, w.push c true)
  | .single => if c = '\'' then some (none, .word, w) else some (none, .single, w.push c true)
  | .double =>
    if c = '"' then some (none, .word, w)
    else if c = '\\' then some (none, .doubleEscape, w)
    else if isExpansion c then none
    else some (none, .double, w.push c true)
  | .doubleEscape =>
    if c = '\n' then some (none, .double, w)
    else if isExpansion c ∨ c = '"' ∨ c = '\\' then some (none, .double, w.push c true)
    else some (none, .double, (w.push '\\' true).push c true)
  | .comment => if c = '\n' then none else some (none, .comment, ⟨[], false⟩)

/-- The end of the line. -/
def finish (m : Mode) (w : Word) : Option (List Word) :=
  match m with
  | .blank | .comment => some []
  | .word => if w.isFixed then some [w] else none
  | _ => none

def scan (m : Mode) (w : Word) : List Char → Option (List Word)
  | [] => finish m w
  | c :: cs =>
    match next m w c with
    | none => none
    | some (done, m', w') => (scan m' w' cs).map (done.toList ++ ·)

/-- The words of a line that is one simple command. -/
def split (line : List Char) : Option (List Word) := scan .blank ⟨[], false⟩ line

/-! ## What a word costs -/

/-- How many characters were read for the word at hand, at the least. -/
def potential (m : Mode) (w : Word) : ℕ :=
  match m with
  | .blank | .comment => 1
  | .blankEscape => 2
  | .word => w.cost
  | .escape | .single | .double => w.chars.length + 2
  | .doubleEscape => w.chars.length + 3

def total (ws : List Word) : ℕ := (ws.map Word.cost).sum

@[simp] theorem total_append (ws ws' : List Word) : total (ws ++ ws') = total ws + total ws' := by
  simp [total]

theorem Word.cost_le (w : Word) : w.cost ≤ w.chars.length + 2 := by
  unfold Word.cost
  split_ifs <;> omega

@[simp] theorem Word.push_length (w : Word) (c : Char) (quoted : Bool) :
    (w.push c quoted).chars.length = w.chars.length + 1 := by
  simp [push]

theorem Word.cost_push (w : Word) (c : Char) : (w.push c false).cost = w.cost + 1 := by
  unfold Word.cost
  rw [push_length]
  simp [push]
  omega

theorem inWord_potential {w w' : Word} {c : Char} {m' : Mode} (h : inWord w c = some (m', w')) :
    potential m' w' ≤ w.cost + 1 := by
  have hlen : w.chars.length + 2 ≤ w.cost + 1 := Nat.succ_le_succ (Nat.le_add_right _ _)
  unfold inWord at h
  split_ifs at h <;> cases h
  · exact hlen
  · exact hlen
  · exact hlen
  · exact (w.cost_push c).le

/-- A character pays for what is put out. -/
theorem next_potential {m m' : Mode} {w w' : Word} {c : Char} {done : Option Word}
    (h : next m w c = some (done, m', w')) :
    total done.toList + potential m' w' ≤ potential m w + 1 := by
  have hcost := w.cost_le
  have hpush := (w.push c true).cost_le
  unfold next at h
  cases m with
  | blank =>
    dsimp only at h
    split_ifs at h
    · cases h
      simp [total, potential]
    · cases h
      simp [total, potential]
    · cases h
      simp [total, potential]
    · obtain ⟨⟨m₁, w₁⟩, hword, heq⟩ := Option.map_eq_some_iff.mp h
      cases heq
      simpa [total, potential, Word.cost] using inWord_potential hword
  | blankEscape =>
    dsimp only at h
    split_ifs at h <;> cases h <;> simp [total, potential, Word.cost]
  | word =>
    dsimp only at h
    split_ifs at h
    · cases h
      simp [total, potential]
    · obtain ⟨⟨m₁, w₁⟩, hword, heq⟩ := Option.map_eq_some_iff.mp h
      cases heq
      simpa [total, potential] using inWord_potential hword
  | escape | single =>
    dsimp only at h
    split_ifs at h <;> cases h <;> simp [total, potential] at * <;> omega
  | double | doubleEscape =>
    dsimp only at h
    split_ifs at h <;> cases h <;> simp [total, potential] at * <;> omega
  | comment =>
    dsimp only at h
    split_ifs at h
    cases h
    simp [total, potential]

theorem finish_potential {m : Mode} {w : Word} {ws : List Word} (h : finish m w = some ws) :
    total ws ≤ potential m w := by
  unfold finish at h
  cases m with
  | blank | comment =>
    cases h
    simp [total]
  | word =>
    dsimp only at h
    split_ifs at h
    cases h
    simp [total, potential]
  | _ => cases h

theorem scan_potential {cs : List Char} {m : Mode} {w : Word} {ws : List Word} (h : scan m w cs = some ws) :
    total ws ≤ potential m w + cs.length := by
  induction cs generalizing m w ws with
  | nil => exact finish_potential h
  | cons c cs ih =>
    unfold scan at h
    split at h
    · cases h
    · next done m' w' hnext =>
      obtain ⟨ws', hscan, rfl⟩ := Option.map_eq_some_iff.mp h
      have hfirst := next_potential hnext
      have hrest := ih hscan
      rw [total_append, List.length_cons]
      omega

/-- A word costs its characters and a blank, and a quoted one another character. -/
theorem cost_split_le {line : List Char} {ws : List Word} (h : split line = some ws) :
    total ws ≤ line.length + 1 := by
  have hle := scan_potential h
  simpa [potential, Nat.add_comm] using hle

/-! ## Words without quotes -/

/-- If there is no quoting character in a word, it has ordinary characters only and at least one, and does not
begin like a comment. -/
def Word.Tidy (w : Word) : Prop :=
  w.quoted = false → w.chars ≠ [] ∧ w.chars.head? ≠ some ('#', false) ∧
    ∀ x ∈ w.chars, x.2 = false ∧ isOrdinary x.1 = true

/-- What is known of the word at hand. -/
def Inv (m : Mode) (w : Word) : Prop :=
  match m with
  | .blank | .comment | .blankEscape => True
  | .word | .escape => w.Tidy
  | .single | .double | .doubleEscape => w.quoted = true

theorem Word.tidy_of_quoted {w : Word} (h : w.quoted = true) : w.Tidy := fun hno => by
  rw [h] at hno
  cases hno

theorem Word.tidy_push {w : Word} (h : w.Tidy) {c : Char} (hc : isOrdinary c = true) : (w.push c false).Tidy := by
  intro hno
  obtain ⟨hne, hhead, hall⟩ := h (by simpa [push] using hno)
  refine ⟨by simp [push], ?_, ?_⟩
  · rwa [push, List.head?_append_of_ne_nil _ hne]
  · exact List.forall_mem_append.mpr ⟨hall, by simpa using hc⟩

theorem Word.tidy_first {c : Char} (hc : isOrdinary c = true) (hcomment : c ≠ '#') :
    (push ⟨[], false⟩ c false).Tidy := by
  intro _
  simp [push, hc, hcomment]

theorem isOrdinary_of_inWord {w w' : Word} {c : Char} {m' : Mode} (hblank : isBlank c = false)
    (h : inWord w c = some (m', w')) :
    (m' = .escape ∧ w' = w ∧ c = '\\') ∨ ((m' = .single ∨ m' = .double) ∧ w' = w.openQuote) ∨
      m' = .word ∧ w' = w.push c false ∧ isOrdinary c = true := by
  unfold inWord at h
  split_ifs at h with hslash hsingle hdouble hother <;> cases h
  · exact .inl ⟨rfl, rfl, hslash⟩
  · exact .inr (.inl ⟨.inl rfl, rfl⟩)
  · exact .inr (.inl ⟨.inr rfl, rfl⟩)
  · refine .inr (.inr ⟨rfl, rfl, ?_⟩)
    simp only [not_or, Bool.not_eq_true] at hother
    simp [isOrdinary, isQuote, hblank, hother, hslash, hsingle, hdouble]

theorem next_inv {m m' : Mode} {w w' : Word} {c : Char} {done : Option Word}
    (h : next m w c = some (done, m', w')) (hinv : Inv m w) :
    Inv m' w' ∧ ∀ d ∈ done.toList, d.Tidy ∧ d.isFixed = true := by
  unfold next at h
  cases m with
  | blank =>
    dsimp only at h
    split_ifs at h with hblank hcomment hslash
    · cases h
      exact ⟨trivial, by simp⟩
    · cases h
      exact ⟨trivial, by simp⟩
    · cases h
      exact ⟨trivial, by simp⟩
    · obtain ⟨⟨m₁, w₁⟩, hword, heq⟩ := Option.map_eq_some_iff.mp h
      cases heq
      obtain ⟨-, -, hc⟩ | ⟨hm | hm, rfl⟩ | ⟨rfl, rfl, hc⟩ :=
        isOrdinary_of_inWord (Bool.eq_false_iff.mpr hblank) hword
      · exact absurd hc hslash
      · subst hm
        exact ⟨rfl, by simp⟩
      · subst hm
        exact ⟨rfl, by simp⟩
      · exact ⟨Word.tidy_first hc hcomment, by simp⟩
  | blankEscape =>
    dsimp only at h
    split_ifs at h <;> cases h
    · exact ⟨trivial, by simp⟩
    · exact ⟨Word.tidy_of_quoted rfl, by simp⟩
  | word =>
    dsimp only at h
    split_ifs at h with hblank hfixed
    · cases h
      exact ⟨trivial, by simpa using ⟨hinv, hfixed⟩⟩
    · obtain ⟨⟨m₁, w₁⟩, hword, heq⟩ := Option.map_eq_some_iff.mp h
      cases heq
      obtain ⟨rfl, rfl, -⟩ | ⟨hm | hm, rfl⟩ | ⟨rfl, rfl, hc⟩ :=
        isOrdinary_of_inWord (Bool.eq_false_iff.mpr hblank) hword
      · exact ⟨hinv, by simp⟩
      · subst hm
        exact ⟨rfl, by simp⟩
      · subst hm
        exact ⟨rfl, by simp⟩
      · exact ⟨Word.tidy_push hinv hc, by simp⟩
  | escape =>
    dsimp only at h
    split_ifs at h <;> cases h
    · exact ⟨hinv, by simp⟩
    · exact ⟨Word.tidy_of_quoted (by simp [Word.push]), by simp⟩
  | single =>
    dsimp only at h
    split_ifs at h <;> cases h
    · exact ⟨Word.tidy_of_quoted hinv, by simp⟩
    · exact ⟨by simp [Inv, Word.push], by simp⟩
  | double =>
    dsimp only at h
    split_ifs at h <;> cases h
    · exact ⟨Word.tidy_of_quoted hinv, by simp⟩
    · exact ⟨hinv, by simp⟩
    · exact ⟨by simp [Inv, Word.push], by simp⟩
  | doubleEscape =>
    dsimp only at h
    split_ifs at h <;> cases h
    · exact ⟨hinv, by simp⟩
    · exact ⟨by simp [Inv, Word.push], by simp⟩
    · exact ⟨by simp [Inv, Word.push], by simp⟩
  | comment =>
    dsimp only at h
    split_ifs at h
    cases h
    exact ⟨trivial, by simp⟩

theorem finish_inv {m : Mode} {w : Word} {ws : List Word} (h : finish m w = some ws) (hinv : Inv m w) :
    ∀ d ∈ ws, d.Tidy ∧ d.isFixed = true := by
  unfold finish at h
  cases m with
  | blank | comment =>
    cases h
    simp
  | word =>
    dsimp only at h
    split_ifs at h with hfixed
    cases h
    simpa using ⟨hinv, hfixed⟩
  | _ => cases h

theorem scan_inv {cs : List Char} {m : Mode} {w : Word} {ws : List Word} (h : scan m w cs = some ws)
    (hinv : Inv m w) : ∀ d ∈ ws, d.Tidy ∧ d.isFixed = true := by
  induction cs generalizing m w ws with
  | nil => exact finish_inv h hinv
  | cons c cs ih =>
    unfold scan at h
    split at h
    · cases h
    · next done m' w' hnext =>
      obtain ⟨ws', hscan, rfl⟩ := Option.map_eq_some_iff.mp h
      obtain ⟨hinv', hdone⟩ := next_inv hnext hinv
      exact List.forall_mem_append.mpr ⟨hdone, ih hscan hinv'⟩

theorem split_inv {line : List Char} {ws : List Word} (h : split line = some ws) :
    ∀ d ∈ ws, d.Tidy ∧ d.isFixed = true :=
  scan_inv h trivial

/-! ## Literal words -/

/-- The text as an unquoted word. -/
def unquoted (t : List Char) : Word := ⟨t.map (·, false), false⟩

/-- The shell takes the text for the word it stands for. -/
structure Literal (t : List Char) : Prop where
  ne_nil : t ≠ []
  ordinary : ∀ c ∈ t, isOrdinary c = true
  comment : t.head? ≠ some '#'
  fixed : (unquoted t).isFixed = true

/-- A word without quotes is the text it has. -/
theorem Word.eq_unquoted {w : Word} (htidy : w.Tidy) (hno : w.quoted = false) : w = unquoted w.text := by
  obtain ⟨chars, quoted⟩ := w
  obtain ⟨-, -, hall⟩ := htidy hno
  obtain rfl : quoted = false := hno
  have hmap : chars = (chars.map Prod.fst).map (·, false) := by
    rw [List.map_map]
    refine (List.map_id chars).symm.trans (List.map_congr_left fun x hx => ?_)
    exact Prod.ext rfl (hall x hx).1
  exact congrArg (Word.mk · false) hmap

theorem Word.literal {w : Word} (htidy : w.Tidy) (hfixed : w.isFixed = true) (hno : w.quoted = false) :
    Literal w.text := by
  obtain ⟨hne, hhead, hall⟩ := htidy hno
  have heq := Word.eq_unquoted htidy hno
  refine ⟨?_, ?_, ?_, ?_⟩
  · simpa [Word.text] using hne
  · intro c hc
    obtain ⟨x, hx, rfl⟩ := List.mem_map.mp hc
    exact (hall x hx).2
  · intro hcomment
    refine hhead ?_
    rw [heq]
    simp [unquoted, hcomment]
  · rwa [← heq]

theorem inWord_of_ordinary {c : Char} (hc : isOrdinary c = true) (w : Word) :
    inWord w c = some (.word, w.push c false) := by
  simp only [isOrdinary, isQuote, Bool.and_eq_true, Bool.not_eq_true', decide_eq_false_iff_not, not_or] at hc
  obtain ⟨⟨⟨-, hop⟩, hexp⟩, hslash, hsingle, hdouble⟩ := hc
  unfold inWord
  rw [if_neg hslash, if_neg hsingle, if_neg hdouble, if_neg (by simp [hop, hexp])]

theorem not_isBlank_of_ordinary {c : Char} (hc : isOrdinary c = true) : ¬ isBlank c = true := by
  simp only [isOrdinary, Bool.and_eq_true, Bool.not_eq_true'] at hc
  simp [hc.1.1.1]

/-- Ordinary characters are read into the word at hand. -/
theorem scan_append {t : List Char} (ht : ∀ c ∈ t, isOrdinary c = true) (w : Word) (cs : List Char) :
    scan .word w (t ++ cs) = scan .word ⟨w.chars ++ t.map (·, false), w.quoted⟩ cs := by
  induction t generalizing w with
  | nil => simp
  | cons c t ih =>
    obtain ⟨hc, ht⟩ := List.forall_mem_cons.mp ht
    have hnext : next .word w c = some (none, .word, w.push c false) := by
      simp only [next, if_neg (not_isBlank_of_ordinary hc), inWord_of_ordinary hc, Option.map_some]
    rw [List.cons_append, scan, hnext]
    dsimp only
    rw [ih ht]
    simp [Word.push]

/-- A literal text is read into a word. -/
theorem scan_literal {t : List Char} (ht : Literal t) (w : Word) (cs : List Char) :
    scan .blank w (t ++ cs) = scan .word (unquoted t) cs := by
  obtain ⟨c, t, rfl⟩ := List.exists_cons_of_ne_nil ht.ne_nil
  obtain ⟨hc, hrest⟩ := List.forall_mem_cons.mp ht.ordinary
  have hcomment : c ≠ '#' := by simpa using ht.comment
  have hslash : c ≠ '\\' := by
    rintro rfl
    exact absurd hc (by decide)
  have hnext : next .blank w c = some (none, .word, Word.push ⟨[], false⟩ c false) := by
    simp only [next, if_neg (not_isBlank_of_ordinary hc), if_neg hcomment, if_neg hslash,
      inWord_of_ordinary hc, Option.map_some]
  rw [List.cons_append, scan, hnext]
  dsimp only
  rw [scan_append hrest]
  simp [Word.push, unquoted]

theorem split_of_literal {ts : List (List Char)} (hts : ∀ t ∈ ts, Literal t) :
    split ([' '].intercalate ts) = some (ts.map unquoted) := by
  unfold split
  induction ts with
  | nil => rfl
  | cons t ts ih =>
    obtain ⟨ht, hts⟩ := List.forall_mem_cons.mp hts
    cases ts with
    | nil =>
      rw [List.intercalate_singleton, ← List.append_nil t, scan_literal ht]
      simp [scan, finish, ht.fixed]
    | cons u us =>
      have hnext : next .word (unquoted t) ' ' = some (some (unquoted t), .blank, ⟨[], false⟩) := by
        simp only [next, if_pos ht.fixed]
        rfl
      rw [List.intercalate_cons_cons, List.append_assoc, scan_literal ht, List.singleton_append, scan, hnext]
      dsimp only
      rw [ih hts]
      rfl

/-- The length of a line, with one blank more. -/
theorem length_intercalate {ts : List (List Char)} (hne : ts ≠ []) :
    ([' '].intercalate ts).length + 1 = (ts.map fun t => t.length + 1).sum := by
  induction ts with
  | nil => exact absurd rfl hne
  | cons t ts ih =>
    cases ts with
    | nil => simp
    | cons u us =>
      have hrest := ih (List.cons_ne_nil _ _)
      rw [List.intercalate_cons_cons, List.map_cons, List.sum_cons, ← hrest]
      simp
      omega

theorem total_eq (ws : List Word) :
    total ws = (ws.map fun w => w.text.length + 1).sum + ws.countP (·.quoted) := by
  induction ws with
  | nil => rfl
  | cons w ws ih =>
    have hcons : total (w :: ws) = w.cost + total ws := by simp [total]
    rw [hcons, ih, List.map_cons, List.sum_cons, List.countP_cons, Word.cost, Word.text, List.length_map]
    omega

/-- The words of a line that is not longer than they are were not quoted. -/
theorem not_quoted_of_length {line : List Char} {ws : List Word} (h : split line = some ws)
    (hlen : line.length + 1 ≤ (ws.map fun w => w.text.length + 1).sum) :
    ∀ w ∈ ws, w.quoted = false := by
  have hcost := cost_split_le h
  rw [total_eq] at hcost
  have hzero : ws.countP (·.quoted) = 0 := by omega
  simpa [List.countP_eq_zero] using hzero

/-- Texts with blanks between them are split into these texts just if each of them is literal. -/
theorem split_intercalate_iff {ts : List (List Char)} (hne : ts ≠ []) :
    (split ([' '].intercalate ts)).map (·.map Word.text) = some ts ↔ ∀ t ∈ ts, Literal t := by
  constructor
  · intro h
    obtain ⟨ws, hsplit, rfl⟩ := Option.map_eq_some_iff.mp h
    have hlen := length_intercalate hne
    rw [List.map_map] at hlen
    have hquoted := not_quoted_of_length hsplit hlen.le
    intro t ht
    obtain ⟨w, hw, rfl⟩ := List.mem_map.mp ht
    obtain ⟨htidy, hfixed⟩ := split_inv hsplit w hw
    exact w.literal htidy hfixed (hquoted w hw)
  · intro hts
    rw [split_of_literal hts]
    simp [Word.text, unquoted, Function.comp_def]

end Shell
