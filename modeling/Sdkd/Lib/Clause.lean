import Mathlib.Data.List.Basic

/-!
# Conjunctions of equations between a name and a text

The syntax `name="text" and …` over any names and any escape sequences, and which texts are read back when
they are written between the quotes as they are.

## Main definitions

- `Grammar` — the names and the escape sequences
- `Grammar.Reads` — the text the characters between two quotes stand for
- `Grammar.Parses` — the equations a clause consists of
- `render` — a clause with its texts written as they are

## Main results

- `Grammar.parses_render_iff` — when a clause that is written so consists of the equations meant
-/

namespace Clause

/-- The names, and what the characters behind a backslash stand for. -/
structure Grammar where
  IsName : List Char → Prop
  Escape : List Char → List Char → Prop
  name_chars : ∀ p, IsName p → ∀ c ∈ p, c ≠ '=' ∧ c ≠ ' '
  escape_quote : ∀ e cs, Escape e cs → '"' ∈ e → cs = ['"']
  escape_length : ∀ e cs, Escape e cs → cs.length ≤ e.length

namespace Grammar

variable (G : Grammar)

/-- The text `v` the characters `b` between two quotes stand for. -/
inductive Reads : List Char → List Char → Prop
  | nil : Reads [] []
  | plain {c : Char} {v b : List Char} (hquote : c ≠ '"') (hslash : c ≠ '\\') (h : Reads v b) :
      Reads (c :: v) (c :: b)
  | escape {e cs v b : List Char} (he : G.Escape e cs) (h : Reads v b) :
      Reads (cs ++ v) ('\\' :: e ++ b)

def blanks (n : ℕ) : List Char := List.replicate n ' '

/-- The equations a clause consists of. -/
inductive Parses : List (List Char × List Char) → List Char → Prop
  | one {p v b : List Char} {n : ℕ} (hp : G.IsName p) (hv : G.Reads v b) :
      Parses [(p, v)] (p ++ '=' :: '"' :: (b ++ '"' :: blanks n))
  | more {p v b text : List Char} {es : List (List Char × List Char)} {m n : ℕ} (hp : G.IsName p)
      (hv : G.Reads v b) (hes : Parses es text) :
      Parses ((p, v) :: es)
        (p ++ '=' :: '"' :: (b ++ '"' :: (blanks m ++ 'a' :: 'n' :: 'd' :: (blanks (n + 1) ++ text))))

end Grammar

/-- A text without quotes and backslashes. -/
def Plain (v : List Char) : Prop := '"' ∉ v ∧ '\\' ∉ v

/-- The equations with their texts as they are. -/
def render : List (List Char × List Char) → List Char
  | [] => []
  | [(p, v)] => p ++ '=' :: '"' :: (v ++ ['"', ' '])
  | (p, v) :: e :: es =>
    p ++ '=' :: '"' :: (v ++ '"' :: ' ' :: ' ' :: 'a' :: 'n' :: 'd' :: ' ' :: render (e :: es))

/-- What follows on the first equation. -/
def renderTail : List (List Char × List Char) → List Char
  | [] => [' ']
  | e :: es => ' ' :: ' ' :: 'a' :: 'n' :: 'd' :: ' ' :: render (e :: es)

theorem render_cons (p v : List Char) (es : List (List Char × List Char)) :
    render ((p, v) :: es) = p ++ '=' :: '"' :: (v ++ '"' :: renderTail es) := by
  cases es <;> rfl

namespace Grammar

variable {G : Grammar} {v v' b r s : List Char}

/-! ## Literals -/

theorem Reads.of_plain (h : Plain v) : G.Reads v v := by
  induction v with
  | nil => exact .nil
  | cons c v ih =>
    obtain ⟨hquote, hslash⟩ := h
    rw [List.mem_cons, not_or] at hquote hslash
    exact .plain (Ne.symm hquote.1) (Ne.symm hslash.1) (ih ⟨hquote.2, hslash.2⟩)

/-- A literal is not shorter than its text, and only a plain one is as short. -/
theorem Reads.length_le (h : G.Reads v b) :
    v.length ≤ b.length ∧ (v.length = b.length → v = b ∧ Plain v) := by
  induction h with
  | nil => exact ⟨Nat.le_refl _, fun _ => ⟨rfl, by simp [Plain]⟩⟩
  | plain hquote hslash _ ih =>
    refine ⟨Nat.succ_le_succ ih.1, fun heq => ?_⟩
    obtain ⟨rfl, hplain⟩ := ih.2 (Nat.succ.inj heq)
    refine ⟨rfl, ?_, ?_⟩
    · simpa [Ne.symm hquote] using hplain.1
    · simpa [Ne.symm hslash] using hplain.2
  | escape he _ ih =>
    have hlen := G.escape_length _ _ he
    refine ⟨?_, fun heq => ?_⟩
    · simp only [List.cons_append, List.length_append, List.length_cons]
      omega
    · simp only [List.cons_append, List.length_append, List.length_cons] at heq
      omega

/-- A text without a quote ends before the first one. -/
theorem append_eq_quote {e x : List Char} (h : e ++ b = v ++ '"' :: x) (he : '"' ∉ e) :
    ∃ y, v = e ++ y ∧ b = y ++ '"' :: x := by
  rcases List.append_eq_append_iff.mp h with ⟨y, hv, hb⟩ | ⟨y, hv, hb⟩
  · exact ⟨y, hv, hb⟩
  · cases y with
    | nil => exact ⟨[], by simpa using hv.symm, by simpa using hb.symm⟩
    | cons a y =>
      obtain ⟨rfl, -⟩ := List.cons.inj hb
      exact absurd (by rw [hv]; simp) he

/-- What stands behind a closing quote is not taken into the literal: its text would be longer than what is
left of it. -/
theorem Reads.not_past {w z x : List Char} (h : G.Reads w b) (hw : w = z ++ v)
    (hb : b = v ++ '"' :: x) (hz : '"' ∉ z) : False := by
  induction h generalizing z v with
  | nil => simp at hb
  | @plain c w b hquote _ _ ih =>
    cases v with
    | nil => exact hquote (List.cons.inj hb).1
    | cons d v =>
      obtain ⟨rfl, htail⟩ := List.cons.inj hb
      cases z with
      | nil => exact ih (z := []) (List.cons.inj hw).2 htail hz
      | cons a z =>
        obtain ⟨-, hrest⟩ := List.cons.inj hw
        refine ih (z := z ++ [c]) (hrest.trans (by simp)) htail ?_
        rw [List.mem_cons, not_or] at hz
        simp [hz.2, Ne.symm hquote]
  | @escape e cs w b he _ ih =>
    cases v with
    | nil => exact absurd (List.cons.inj hb).1 (by decide)
    | cons d v =>
      obtain ⟨rfl, htail⟩ := List.cons.inj hb
      by_cases hquote : '"' ∈ e
      · -- it stands for a quote, but the text goes on with the backslash
        obtain rfl := G.escape_quote _ _ he hquote
        cases z with
        | nil => exact absurd (List.cons.inj hw).1 (by decide)
        | cons a z => exact hz (List.mem_cons.mpr (.inl (List.cons.inj hw).1))
      · obtain ⟨y, rfl, rfl⟩ := append_eq_quote htail hquote
        have hlen := G.escape_length _ _ he
        have hsplit : cs ++ w = (z ++ '\\' :: e) ++ y := by rw [hw]; simp
        rcases List.append_eq_append_iff.mp hsplit with ⟨z', hz', hw'⟩ | ⟨z', hz', -⟩
        · refine ih (z := z') hw' rfl fun hmem => ?_
          have hall : '"' ∈ z ++ '\\' :: e := hz' ▸ List.mem_append_right _ hmem
          simp [hz, hquote] at hall
        · have hlong := congrArg List.length hz'
          simp only [List.length_append, List.length_cons] at hlong
          omega

/-- What is read as itself up to a quote is plain. -/
theorem Reads.self (h : G.Reads v b) (heq : b ++ '"' :: r = v ++ '"' :: s) :
    b = v ∧ Plain v ∧ r = s := by
  obtain ⟨hle, hplain⟩ := h.length_le
  rcases List.append_eq_append_iff.mp heq with ⟨y, hv, hr⟩ | ⟨y, hv, hs⟩
  · have hlen := congrArg List.length hv
    rw [List.length_append] at hlen
    obtain ⟨rfl, hv'⟩ := hplain (by omega)
    refine ⟨rfl, hv', ?_⟩
    simpa using heq
  · cases y with
    | nil =>
      obtain ⟨-, hv'⟩ := hplain (by simp [hv])
      exact ⟨by simpa using hv, hv', by simpa using hs.symm⟩
    | cons a y =>
      obtain ⟨rfl, -⟩ := List.cons.inj hs
      exact (h.not_past (z := []) rfl hv (by simp)).elim

/-- A plain text up to a quote is read as nothing else. -/
theorem Reads.eq_of_plain (h : G.Reads v' b) (hv : Plain v) (heq : b ++ '"' :: r = v ++ '"' :: s) :
    v' = v ∧ r = s := by
  induction h generalizing v with
  | nil =>
    cases v with
    | nil => exact ⟨rfl, (List.cons.inj heq).2⟩
    | cons c v => exact absurd (List.mem_cons.mpr (.inl (List.cons.inj heq).1)) hv.1
  | plain hquote _ _ ih =>
    cases v with
    | nil => exact absurd (List.cons.inj heq).1 hquote
    | cons c v =>
      obtain ⟨rfl, hrest⟩ := List.cons.inj heq
      obtain ⟨rfl, hrs⟩ := ih ⟨fun h => hv.1 (.tail _ h), fun h => hv.2 (.tail _ h)⟩ hrest
      exact ⟨rfl, hrs⟩
  | escape =>
    cases v with
    | nil => exact absurd (List.cons.inj heq).1 (by decide)
    | cons c v => exact absurd (List.mem_cons.mpr (.inl (List.cons.inj heq).1)) hv.2

/-! ## Clauses -/

variable {p text tail : List Char} {es es' : List (List Char × List Char)}

/-- Names end at the equality sign. -/
theorem name_inj {p' : List Char} (hp : G.IsName p) (hp' : G.IsName p')
    (heq : p ++ '=' :: r = p' ++ '=' :: s) : p = p' ∧ r = s := by
  have hnot : ∀ q, G.IsName q → '=' ∉ q := fun q hq hmem => (G.name_chars q hq _ hmem).1 rfl
  rcases List.append_eq_append_iff.mp heq with ⟨y, rfl, hr⟩ | ⟨y, rfl, hs⟩
  · cases y with
    | nil => exact ⟨by simp, (List.cons.inj hr).2⟩
    | cons c y =>
      obtain ⟨rfl, -⟩ := List.cons.inj hr
      exact absurd (by simp) (hnot _ hp')
  · cases y with
    | nil => exact ⟨by simp, (List.cons.inj hs).2.symm⟩
    | cons c y =>
      obtain ⟨rfl, -⟩ := List.cons.inj hs
      exact absurd (by simp) (hnot _ hp)

/-- A text that does not start with a blank. -/
def Flush (text : List Char) : Prop := ∀ c ∈ text.head?, c ≠ ' '

theorem flush_name (hp : G.IsName p) : Flush (p ++ '=' :: r) := by
  cases p with
  | nil => simp [Flush]
  | cons c p =>
    intro d hd
    obtain rfl : c = d := by simpa using hd
    exact (G.name_chars _ hp c (by simp)).2

theorem blanks_inj {m n : ℕ} (hr : Flush r) (hs : Flush s) (heq : blanks m ++ r = blanks n ++ s) :
    r = s := by
  induction m generalizing n with
  | zero =>
    cases n with
    | zero => exact heq
    | succ n =>
      have hhead : r = ' ' :: (blanks n ++ s) := heq
      exact absurd rfl (hr ' ' (by rw [hhead]; rfl))
  | succ m ih =>
    cases n with
    | zero =>
      have hhead : ' ' :: (blanks m ++ r) = s := heq
      exact absurd rfl (hs ' ' (by rw [← hhead]; rfl))
    | succ n => exact ih (List.cons.inj heq).2

theorem notMem_blanks {c : Char} (hc : c ≠ ' ') (n : ℕ) : c ∉ blanks n :=
  fun hmem => hc (List.eq_of_mem_replicate hmem)

/-- What may follow on an equation: blanks, or a conjunction. -/
def Follows (G : Grammar) (es : List (List Char × List Char)) (tail : List Char) : Prop :=
  (es = [] ∧ ∃ n, tail = blanks n) ∨
    ∃ m n text, G.Parses es text ∧ tail = blanks m ++ 'a' :: 'n' :: 'd' :: (blanks (n + 1) ++ text)

theorem parses_cons_iff : G.Parses ((p, v) :: es) text ↔ G.IsName p ∧ ∃ b tail, G.Reads v b ∧
    G.Follows es tail ∧ text = p ++ '=' :: '"' :: (b ++ '"' :: tail) := by
  constructor
  · intro h
    cases h with
    | one hp hv => exact ⟨hp, _, _, hv, .inl ⟨rfl, _, rfl⟩, rfl⟩
    | more hp hv hes => exact ⟨hp, _, _, hv, .inr ⟨_, _, _, hes, rfl⟩, rfl⟩
  · rintro ⟨hp, b, tail, hv, ⟨rfl, n, rfl⟩ | ⟨m, n, text, hes, rfl⟩, rfl⟩
    · exact .one hp hv
    · exact .more hp hv hes

theorem Parses.ne_nil (h : G.Parses es text) : es ≠ [] := by
  cases h <;> simp

theorem Parses.text_ne_nil (h : G.Parses es text) : text ≠ [] := by
  cases h <;> simp

theorem Parses.flush (h : G.Parses es text) : Flush text := by
  cases h with
  | one hp => exact flush_name hp
  | more hp => exact flush_name hp

/-- The first equation has a name. -/
def Named (G : Grammar) (es : List (List Char × List Char)) : Prop := ∀ e ∈ es.head?, G.IsName e.1

theorem Parses.named (h : G.Parses es text) : G.Named es := by
  cases h with
  | one hp | more hp =>
    rintro e he
    obtain rfl := Option.some.inj he
    exact hp

theorem Follows.named (h : G.Follows es tail) : G.Named es := by
  obtain ⟨rfl, -⟩ | ⟨m, n, text, h, -⟩ := h
  · simp [Named]
  · exact h.named

/-- Behind an equation that is written stand the others. -/
theorem Follows.renderTail (hes : G.Named es) (h : G.Follows es' (renderTail es)) :
    (es' = [] ∧ es = []) ∨ (es ≠ [] ∧ G.Parses es' (render es)) := by
  cases es with
  | nil =>
    obtain ⟨rfl, -⟩ | ⟨m, n, text, -, heq⟩ := h
    · exact .inl ⟨rfl, rfl⟩
    · have hmem : 'a' ∈ Clause.renderTail [] := by simp [heq]
      simp [Clause.renderTail] at hmem
  | cons e es =>
    refine .inr ⟨List.cons_ne_nil e es, ?_⟩
    obtain ⟨rfl, n, heq⟩ | ⟨m, n, text, hparses, heq⟩ := h
    · exact absurd (show 'a' ∈ blanks n by simp [← heq, Clause.renderTail]) (notMem_blanks (by decide) n)
    · have hand : 'a' :: 'n' :: 'd' :: ' ' :: render (e :: es) =
          'a' :: 'n' :: 'd' :: (blanks (n + 1) ++ text) :=
        blanks_inj (m := 2) (n := m) (by simp [Flush]) (by simp [Flush]) heq
      have hbehind : ' ' :: render (e :: es) = blanks (n + 1) ++ text := by simpa using hand
      have hflush : Flush (render (e :: es)) := by
        rw [render_cons]
        exact flush_name (hes e rfl)
      have htext : render (e :: es) = text :=
        blanks_inj (m := 1) (n := n + 1) hflush hparses.flush hbehind
      rw [htext]
      exact hparses

/-- The equations a clause was written for have names, and plain texts. -/
theorem Parses.plain (h : G.Parses es (render es)) : ∀ e ∈ es, G.IsName e.1 ∧ Plain e.2 := by
  induction es with
  | nil => simp
  | cons e es ih =>
    obtain ⟨p, v⟩ := e
    obtain ⟨hp, b, tail, hv, hfollows, heq⟩ := parses_cons_iff.mp h
    rw [render_cons] at heq
    obtain ⟨-, hrest⟩ := name_inj hp hp heq
    obtain ⟨-, hplain, rfl⟩ := hv.self (List.cons.inj hrest).2.symm
    refine List.forall_mem_cons.mpr ⟨⟨hp, hplain⟩, ?_⟩
    obtain ⟨rfl, -⟩ | ⟨-, hes⟩ := hfollows.renderTail hfollows.named
    · simp
    · exact ih hes

theorem parses_render (hne : es ≠ []) (h : ∀ e ∈ es, G.IsName e.1 ∧ Plain e.2) :
    G.Parses es (render es) := by
  induction es with
  | nil => exact absurd rfl hne
  | cons e es ih =>
    obtain ⟨p, v⟩ := e
    obtain ⟨⟨hp, hv⟩, hes⟩ := List.forall_mem_cons.mp h
    refine parses_cons_iff.mpr ⟨hp, v, Clause.renderTail es, .of_plain hv, ?_, render_cons p v es⟩
    cases es with
    | nil => exact .inl ⟨rfl, 1, rfl⟩
    | cons e es => exact .inr ⟨2, 0, _, ih (List.cons_ne_nil e es) hes, rfl⟩

theorem Parses.unique (h : ∀ e ∈ es, G.IsName e.1 ∧ Plain e.2) (hparses : G.Parses es' (render es)) :
    es' = es := by
  induction es generalizing es' with
  | nil => exact absurd rfl hparses.text_ne_nil
  | cons e es ih =>
    obtain ⟨p, v⟩ := e
    obtain ⟨⟨hp, hv⟩, hes⟩ := List.forall_mem_cons.mp h
    obtain ⟨⟨p', v'⟩, es', rfl⟩ := List.exists_cons_of_ne_nil hparses.ne_nil
    obtain ⟨hp', b, tail, hv', hfollows, heq⟩ := parses_cons_iff.mp hparses
    rw [render_cons] at heq
    obtain ⟨rfl, hrest⟩ := name_inj hp hp' heq
    obtain ⟨rfl, rfl⟩ := hv'.eq_of_plain hv (List.cons.inj hrest).2.symm
    have hnamed : G.Named es := fun e he => (hes e (List.mem_of_mem_head? he)).1
    obtain ⟨rfl, rfl⟩ | ⟨-, hparses⟩ := hfollows.renderTail hnamed
    · rfl
    · rw [ih hes hparses]

/-- A clause that is written consists of the equations meant, and of no others, if and only if they have
names and plain texts. -/
theorem parses_render_iff (hne : es ≠ []) :
    (∀ es', G.Parses es' (render es) ↔ es' = es) ↔ ∀ e ∈ es, G.IsName e.1 ∧ Plain e.2 := by
  constructor
  · intro h
    exact ((h es).mpr rfl).plain
  · intro h es'
    refine ⟨Parses.unique h, ?_⟩
    rintro rfl
    exact parses_render hne h

end Grammar

end Clause
