import Mathlib.Data.List.Basic

/-!
# Line framing

A stream of symbols is cut into the lines ended by a delimiter and an unfinished rest. The cut can be
made one symbol at a time, so it does not depend on how the stream is divided into chunks.

## Main results

- `split_eq_iff` — the cut is the only way to write the stream as ended lines and a rest
- `ingest_append` — two chunks one after the other are as good as one
- `ingest_fst` — lines taken from the front of the queue do not matter to what is added at its end
-/

namespace Lines

variable {α : Type*} [DecidableEq α] (nl : α)

/-- One symbol: it ends the current line or joins it. -/
def feed (st : List (List α) × List α) (c : α) : List (List α) × List α :=
  if c = nl then (st.1 ++ [st.2], []) else (st.1, st.2 ++ [c])

def ingest (st : List (List α) × List α) (cs : List α) : List (List α) × List α :=
  cs.foldl (feed nl) st

/-- The lines of a stream that are ended, and its rest. -/
def split (cs : List α) : List (List α) × List α := ingest nl ([], []) cs

def complete (cs : List α) : List (List α) := (split nl cs).1

def rest (cs : List α) : List α := (split nl cs).2

/-- The lines that are not empty. -/
def nonEmpty (ls : List (List α)) : List (List α) := ls.filter (· ≠ [])

variable {nl}

theorem ingest_append (st : List (List α) × List α) (xs ys : List α) :
    ingest nl st (xs ++ ys) = ingest nl (ingest nl st xs) ys := by
  simp [ingest]

theorem ingest_cons (st : List (List α) × List α) (c : α) (cs : List α) :
    ingest nl st (c :: cs) = ingest nl (feed nl st c) cs := rfl

/-- The lines read before come first. -/
theorem ingest_eq (ls : List (List α)) (f cs : List α) :
    ingest nl (ls, f) cs = (ls ++ (ingest nl ([], f) cs).1, (ingest nl ([], f) cs).2) := by
  induction cs generalizing ls f with
  | nil => simp [ingest]
  | cons c cs ih =>
    rw [ingest_cons, ingest_cons]
    by_cases hc : c = nl
    · simp only [feed, hc, if_true, List.nil_append]
      rw [ih, ih [f], List.append_assoc]
    · simp only [feed, hc, if_false]
      exact ih _ _

theorem ingest_fst (ls : List (List α)) (f cs : List α) :
    (ingest nl (ls, f) cs).1 = ls ++ (ingest nl ([], f) cs).1 := by rw [ingest_eq]

theorem ingest_snd (ls : List (List α)) (f cs : List α) :
    (ingest nl (ls, f) cs).2 = (ingest nl ([], f) cs).2 := by rw [ingest_eq]

/-- A longer stream keeps the lines it had. -/
theorem complete_append (xs ys : List α) :
    complete nl (xs ++ ys) = complete nl xs ++ (ingest nl ([], rest nl xs) ys).1 := by
  simp only [complete, rest, split, ingest_append]
  exact ingest_fst _ _ _

theorem rest_append (xs ys : List α) :
    rest nl (xs ++ ys) = (ingest nl ([], rest nl xs) ys).2 := by
  simp only [rest, split, ingest_append]
  exact ingest_snd _ _ _

/-- Symbols that do not end the line join the rest. -/
theorem ingest_of_notMem (st : List (List α) × List α) {cs : List α} (h : nl ∉ cs) :
    ingest nl st cs = (st.1, st.2 ++ cs) := by
  induction cs generalizing st with
  | nil => simp [ingest]
  | cons c cs ih =>
    obtain ⟨hne, hcs⟩ : nl ≠ c ∧ nl ∉ cs := by simpa using h
    rw [ingest_cons, ih _ hcs]
    simp [feed, Ne.symm hne]

theorem ingest_line (st : List (List α) × List α) {l : List α} (h : nl ∉ l) :
    ingest nl st (l ++ [nl]) = (st.1 ++ [st.2 ++ l], []) := by
  rw [ingest_append, ingest_of_notMem st h]
  simp [ingest, feed]

/-- The lines and the rest make up the stream again, and none of them holds the delimiter. -/
theorem ingest_sound (f cs : List α) (hf : nl ∉ f) :
    f ++ cs = (ingest nl ([], f) cs).1.flatMap (· ++ [nl]) ++ (ingest nl ([], f) cs).2 ∧
    (∀ l ∈ (ingest nl ([], f) cs).1, nl ∉ l) ∧ nl ∉ (ingest nl ([], f) cs).2 := by
  induction cs generalizing f with
  | nil => simp [ingest, hf]
  | cons c cs ih =>
    rw [ingest_cons]
    by_cases hc : c = nl
    · obtain ⟨heq, hls, hrest⟩ := ih [] (by simp)
      simp only [feed, hc, if_true, List.nil_append]
      rw [ingest_fst, ingest_snd]
      refine ⟨?_, ?_, hrest⟩
      · rw [List.flatMap_append, List.append_assoc, ← heq]
        simp
      · simp only [List.singleton_append, List.forall_mem_cons]
        exact ⟨hf, hls⟩
    · simp only [feed, hc, if_false]
      obtain ⟨heq, hls⟩ := ih (f ++ [c]) (by simp [hf, Ne.symm hc])
      exact ⟨by rw [← heq]; simp, hls⟩

/-- **Framing is unambiguous.** -/
theorem split_eq_iff {cs : List α} {ls : List (List α)} {f : List α} :
    split nl cs = (ls, f) ↔
      cs = ls.flatMap (· ++ [nl]) ++ f ∧ (∀ l ∈ ls, nl ∉ l) ∧ nl ∉ f := by
  constructor
  · intro h
    have hsound := ingest_sound [] cs (List.not_mem_nil : nl ∉ [])
    have h' : ingest nl ([], []) cs = (ls, f) := h
    simpa [h'] using hsound
  · rintro ⟨rfl, hls, hf⟩
    have hlines : ∀ st : List (List α), ingest nl (st, []) (ls.flatMap (· ++ [nl])) = (st ++ ls, []) := by
      clear hf
      induction ls with
      | nil => simp [ingest]
      | cons l ls ih =>
        intro st
        rw [List.flatMap_cons, ingest_append, ingest_line _ (hls l (by simp))]
        rw [ih fun l' hl' => hls l' (List.mem_cons_of_mem _ hl')]
        simp
    rw [split, ingest_append, hlines, ingest_of_notMem _ hf]
    simp

/-- Lines that are written out are cut out again. -/
theorem complete_flatMap {ls : List (List α)} (h : ∀ l ∈ ls, nl ∉ l) :
    complete nl (ls.flatMap (· ++ [nl])) = ls := by
  have hsplit : split nl (ls.flatMap (· ++ [nl])) = (ls, []) :=
    split_eq_iff.mpr ⟨by simp, h, List.not_mem_nil⟩
  rw [complete, hsplit]

/-- The lines of an initial part of a stream are the first lines of the stream. -/
theorem complete_mono {xs ys : List α} (h : xs <+: ys) : complete nl xs <+: complete nl ys := by
  obtain ⟨zs, rfl⟩ := h
  rw [complete_append]
  exact List.prefix_append _ _

omit [DecidableEq α] in
theorem nonEmpty_append (xs ys : List (List α)) :
    nonEmpty (xs ++ ys) = nonEmpty xs ++ nonEmpty ys := by
  simp [nonEmpty]

end Lines
