import Mathlib.Data.List.Nodup
import Mathlib.Logic.Function.Basic

/-!
# Key-value stores

A store under operations each of which looks at the value of one key, and changes it or is refused.

## Main definitions

- `Op` — an operation: its key, and what it makes of the value there
- `run`, `answers` — the store behind a sequence of operations, and which of them it accepted
- `Legal` — a history with the answers of a store

## Main results

- `run_frame` — the keys no operation is about keep their values
- `run_key`, `answers_eq_map` — operations about different keys do not see each other
-/

namespace KeyValue

variable {κ α : Type*}

abbrev Store (κ α : Type*) := κ → Option α

/-- An operation: what it makes of the value of its key, or `none` where the store refuses it. -/
structure Op (κ α : Type*) where
  key : κ
  effect : Option α → Option (Option α)

namespace Op

/-- Look at the value, which has to be there, or change it. -/
def modify (k : κ) (f : α → α) : Op κ α := ⟨k, fun v => v.map fun a => some (f a)⟩

def read (k : κ) : Op κ α := modify k id

/-- Write the value, whether there is one or not. -/
def put (k : κ) (a : α) : Op κ α := ⟨k, fun _ => some (some a)⟩

/-- Write a value where there is none. -/
def add (k : κ) (a : α) : Op κ α := ⟨k, fun v => if v.isSome then none else some (some a)⟩

/-- Take away the value, which has to be there. -/
def remove (k : κ) : Op κ α := ⟨k, fun v => v.map fun _ => none⟩

/-- The store does not refuse the operation. -/
def accepted (op : Op κ α) (st : Store κ α) : Bool := (op.effect (st op.key)).isSome

theorem accepted_congr (op : Op κ α) {st st' : Store κ α} (h : st' op.key = st op.key) :
    op.accepted st' = op.accepted st := by
  unfold accepted
  rw [h]

section Accepted

variable (st : Store κ α) (k : κ) (a : α) (f : α → α)

@[simp] theorem accepted_modify : (modify k f).accepted st = (st k).isSome := by
  simp [accepted, modify]

@[simp] theorem accepted_read : (read k).accepted st = (st k).isSome := accepted_modify st k id

@[simp] theorem accepted_put : (put k a).accepted st = true := rfl

@[simp] theorem accepted_add : (add k a).accepted st = (st k).isNone := by
  unfold accepted add
  cases st k <;> simp

@[simp] theorem accepted_remove : (remove k).accepted st = (st k).isSome := by
  simp [accepted, remove]

end Accepted

variable [DecidableEq κ]

/-- The store behind the operation. -/
def apply (op : Op κ α) (st : Store κ α) : Store κ α :=
  match op.effect (st op.key) with
  | some v => Function.update st op.key v
  | none => st

theorem apply_of_ne (op : Op κ α) (st : Store κ α) {k : κ} (h : op.key ≠ k) : op.apply st k = st k := by
  unfold apply
  cases op.effect (st op.key) with
  | some v => exact Function.update_of_ne (Ne.symm h) _ _
  | none => rfl

theorem apply_key (op : Op κ α) (st : Store κ α) :
    op.apply st op.key = (op.effect (st op.key)).getD (st op.key) := by
  unfold apply
  cases heffect : op.effect (st op.key) with
  | some v => exact Function.update_self _ _ _
  | none => rfl

/-- What an operation does to its key depends on the value there only. -/
theorem apply_key_congr (op : Op κ α) {st st' : Store κ α} (h : st' op.key = st op.key) :
    op.apply st' op.key = op.apply st op.key := by
  rw [apply_key, apply_key, h]

end Op

variable [DecidableEq κ]

/-- The store behind a sequence of operations. -/
def run (ops : List (Op κ α)) (st : Store κ α) : Store κ α := ops.foldl (fun st op => op.apply st) st

/-- Which of the operations of a sequence are accepted. -/
def answers : List (Op κ α) → Store κ α → List Bool
  | [], _ => []
  | op :: ops, st => op.accepted st :: answers ops (op.apply st)

variable {ops : List (Op κ α)} {op : Op κ α} {st : Store κ α}

@[simp] theorem length_answers (ops : List (Op κ α)) (st : Store κ α) :
    (answers ops st).length = ops.length := by
  induction ops generalizing st with
  | nil => rfl
  | cons op ops ih => simp [answers, ih]

theorem run_cons (op : Op κ α) (ops : List (Op κ α)) (st : Store κ α) :
    run (op :: ops) st = run ops (op.apply st) := rfl

theorem run_append (ops ops' : List (Op κ α)) (st : Store κ α) : run (ops ++ ops') st = run ops' (run ops st) :=
  List.foldl_append

theorem answers_append (ops ops' : List (Op κ α)) (st : Store κ α) :
    answers (ops ++ ops') st = answers ops st ++ answers ops' (run ops st) := by
  induction ops generalizing st with
  | nil => rfl
  | cons op ops ih => rw [List.cons_append, answers, answers, ih, List.cons_append, run_cons]

/-- Operations that are never refused. -/
theorem answers_of_accepted (h : ∀ op ∈ ops, ∀ st, op.accepted st = true) : ∀ b ∈ answers ops st, b = true := by
  induction ops generalizing st with
  | nil => exact nofun
  | cons op ops ih =>
    obtain ⟨hop, hops⟩ := List.forall_mem_cons.mp h
    exact List.forall_mem_cons.mpr ⟨hop st, ih hops⟩

/-- The keys no operation is about keep their values. -/
theorem run_frame {k : κ} (h : ∀ op ∈ ops, op.key ≠ k) : run ops st k = st k := by
  induction ops generalizing st with
  | nil => rfl
  | cons op ops ih =>
    obtain ⟨hop, hops⟩ := List.forall_mem_cons.mp h
    rw [run_cons, ih hops, op.apply_of_ne st hop]

/-- An operation whose key no other has does to it what it would do on its own. -/
theorem run_key (hnodup : (ops.map Op.key).Nodup) (hop : op ∈ ops) (st : Store κ α) :
    run ops st op.key = op.apply st op.key := by
  induction ops generalizing st with
  | nil => cases hop
  | cons op' ops ih =>
    obtain ⟨hnew, hnodup⟩ := List.nodup_cons.mp hnodup
    rw [run_cons]
    rcases List.mem_cons.mp hop with rfl | hrest
    · exact run_frame fun op' hop' heq => hnew (List.mem_map.mpr ⟨op', hop', heq⟩)
    · have hne : op'.key ≠ op.key := fun heq => hnew (List.mem_map.mpr ⟨op, hrest, heq.symm⟩)
      rw [ih hnodup hrest, op.apply_key_congr (op'.apply_of_ne st hne)]

/-- Operations about different keys are accepted or refused as if each came first. -/
theorem answers_eq_map (hnodup : (ops.map Op.key).Nodup) :
    answers ops st = ops.map fun op => op.accepted st := by
  induction ops generalizing st with
  | nil => rfl
  | cons op ops ih =>
    obtain ⟨hnew, hnodup⟩ := List.nodup_cons.mp hnodup
    rw [answers, ih hnodup, List.map_cons]
    congr 1
    refine List.map_congr_left fun op' hop' => op'.accepted_congr (op.apply_of_ne st ?_)
    exact fun heq => hnew (List.mem_map.mpr ⟨op', hop', heq.symm⟩)

/-! ## Histories -/

/-- Operations, each with whether it has been accepted. -/
abbrev History (κ α : Type*) := List (Op κ α × Bool)

/-- A store that begins as `st` gives the answers of the history. -/
def Legal (l : History κ α) (st : Store κ α) : Prop :=
  l.map Prod.snd = answers (l.map Prod.fst) st

theorem legal_append {l l' : History κ α} :
    Legal (l ++ l') st ↔ Legal l st ∧ Legal l' (run (l.map Prod.fst) st) := by
  unfold Legal
  rw [List.map_append, List.map_append, answers_append]
  constructor
  · exact fun h => List.append_inj h (by simp)
  · rintro ⟨h, h'⟩
    rw [h, h']

end KeyValue
