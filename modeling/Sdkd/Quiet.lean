import Sdkd.Operation

/-!
# What the actions leave alone

Most actions of an operation neither send nor record anything: they move the iterator, count, raise a
flag or choose a branch. They are quiet.

## Main definitions

- `Session.Quiet`, `QuietAction`
-/

namespace Sdkd

open LoopProg

/-- From `s` to `s'` nothing is sent, waited for, recorded or timed. -/
structure Session.Quiet (s s' : Session) : Prop where
  pending : s'.pending = s.pending
  cursor : s'.cursor = s.cursor
  sent : s'.sent = s.sent
  clockReads : s'.clockReads = s.clockReads
  recorded : s'.rs.recorded = s.rs.recorded
  opstart : s'.rs.opstartTmsec = s.rs.opstartTmsec
  timestats : s'.rs.timestats = s.rs.timestats
  curWintime : s'.rs.curWintime = s.rs.curWintime
  options : s'.rs.options = s.rs.options
  operError : s'.rs.operError = s.rs.operError
  stats : s'.rs.stats = s.rs.stats

theorem Session.Quiet.refl (s : Session) : s.Quiet s := ⟨rfl, rfl, rfl, rfl, rfl, rfl, rfl, rfl, rfl, rfl, rfl⟩

/-- The action is quiet wherever it leads. -/
def QuietAction {L : Type*} (a : OpAction L) : Prop := ∀ s, (a s).All fun s' => s.ses.Quiet s'.ses

theorem QuietAction.maintains {L : Type*} {a : OpAction L} (h : QuietAction a) {P : Session → Prop}
    (hP : ∀ s s' : Session, s.Quiet s' → P s → P s') :
    Action.Maintains (fun s : OpState L => P s.ses) a := by
  intro s hs
  have hquiet := h s
  cases hout : a s <;> rw [hout] at hquiet
  case fail => trivial
  all_goals exact hP _ _ hquiet hs

theorem quiet_cancelCurrent {L : Type*} (s : OpState L) : s.ses.Quiet (cancelCurrent s).ses :=
  ⟨rfl, rfl, rfl, rfl, rfl, rfl, rfl, rfl, rfl, rfl, rfl⟩

section Actions

variable {L ι X : Type*} {it : IterOps ι} {o : HandleOptions} {w : World}

theorem quiet_resetCancel : QuietAction (resetCancel : OpAction L) :=
  fun _ => ⟨rfl, rfl, rfl, rfl, rfl, rfl, rfl, rfl, rfl, rfl, rfl⟩

theorem quiet_postsubmit : QuietAction (postsubmit : OpAction L) :=
  fun _ => ⟨rfl, rfl, rfl, rfl, rfl, rfl, rfl, rfl, rfl, rfl, rfl⟩

theorem quiet_delay : QuietAction (delay w : OpAction L) := by
  intro s
  obtain ⟨draws, hout⟩ := delay_outcome w s
  rw [hout]
  exact ⟨rfl, rfl, rfl, rfl, rfl, rfl, rfl, rfl, rfl, rfl, rfl⟩

theorem quiet_collectResult : QuietAction (collectResult : OpAction L) := by
  intro s
  rcases collectResult_outcome s with ⟨-, hout⟩ | ⟨-, hout⟩ <;> rw [hout]
  · exact .refl _
  · exact ⟨rfl, rfl, rfl, rfl, rfl, rfl, rfl, rfl, rfl, rfl, rfl⟩

theorem quiet_startDrain : QuietAction (startDrain : OpAction L) :=
  fun _ => ⟨rfl, rfl, rfl, rfl, rfl, rfl, rfl, rfl, rfl, rfl, rfl⟩

theorem quiet_startIter : QuietAction (startIter it : OpAction (DsLocal ι X)) := by
  intro s
  rcases startIter_outcome it s with ⟨i, -, hout⟩ | ⟨e, -, hout⟩ <;> rw [hout]
  · exact .refl _
  · trivial

theorem quiet_advanceIter : QuietAction (advanceIter it : OpAction (DsLocal ι X)) := by
  intro s
  rcases advanceIter_outcome it s with ⟨i, -, hout⟩ | ⟨e, -, hout⟩ <;> rw [hout]
  · exact .refl _
  · trivial

theorem quiet_lookupCollection : QuietAction (lookupCollection it o : OpAction (DsLocal ι X)) := by
  intro s
  rcases lookupCollection_outcome it o s with ⟨c, -, hout⟩ | ⟨e, -, hout⟩ <;> rw [hout]
  · exact .refl _
  · trivial

theorem quiet_checkBatch : QuietAction (checkBatch : OpAction (DsLocal ι BatchVars)) := by
  intro s
  unfold checkBatch
  split
  · exact ⟨rfl, rfl, rfl, rfl, rfl, rfl, rfl, rfl, rfl, rfl, rfl⟩
  · exact .refl _

theorem quiet_endBatch : QuietAction (endBatch : OpAction (DsLocal ι BatchVars)) := by
  intro s
  unfold endBatch
  dsimp only
  split_ifs
  · exact ⟨rfl, rfl, rfl, rfl, rfl, rfl, rfl, rfl, rfl, rfl, rfl⟩
  · exact ⟨rfl, rfl, rfl, rfl, rfl, rfl, rfl, rfl, rfl, rfl, rfl⟩
  · exact .refl _

theorem quiet_countItem : QuietAction (countItem : OpAction (DsLocal ι BatchVars)) :=
  fun _ => .refl _

theorem quiet_flushFull : QuietAction (flushFull : OpAction (DsLocal ι ViewVars)) :=
  fun _ => .refl _

theorem quiet_flushRest : QuietAction (flushRest : OpAction (DsLocal ι ViewVars)) :=
  fun _ => .refl _

theorem quiet_countValue : QuietAction (countValue : OpAction (DsLocal ι ViewVars)) :=
  fun _ => .refl _

theorem quiet_flushClear : QuietAction (flushClear : OpAction (DsLocal ι ViewVars)) := by
  intro s
  unfold flushClear
  dsimp only
  split <;> exact .refl _

theorem quiet_addValue [JsonWriter] : QuietAction (addValue it) := by
  intro s
  rcases addValue_outcome it s with ⟨-, hout⟩ | ⟨-, hout⟩ <;> rw [hout]
  · exact .refl _
  · trivial

theorem quiet_beginView : QuietAction beginView :=
  fun _ => ⟨rfl, rfl, rfl, rfl, rfl, rfl, rfl, rfl, rfl, rfl, rfl⟩

theorem quiet_countDown : QuietAction countDown := by
  intro s
  obtain ⟨loc, hout | hout⟩ := countDown_outcome s <;> rw [hout] <;> exact .refl _

theorem quiet_setUniqueId : QuietAction setUniqueId := fun _ => .refl _

end Actions

section Executors

variable [JsonAccess] {req : Request}

theorem quiet_checkNames : QuietAction (checkNames req) := by
  intro s
  unfold checkNames
  split <;> exact .refl _

omit [JsonAccess] in
theorem quiet_checkConsistency {L : Type*} : QuietAction (checkConsistency req : OpAction L) := by
  intro s
  rcases checkConsistency_outcome req s with ⟨-, hout⟩ | ⟨-, hout⟩ <;> rw [hout]
  · exact .refl _
  · trivial

theorem quiet_nextGenerator : QuietAction (nextGenerator req) := by
  intro s
  rcases nextGenerator_outcome req s with ⟨loc, hout⟩ | ⟨e, hout⟩ <;> rw [hout]
  · exact .refl _
  · trivial

end Executors

end Sdkd
