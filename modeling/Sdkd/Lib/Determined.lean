import Mathlib.Logic.Basic

/-!
# Results that do not depend on memory

A computation that reads memory nobody has written is a function of that memory. Its result is determined if
the function is constant.
-/

variable {ι α β : Type*}

/-- `f` gives the same result whatever the memory holds. -/
def Determined (f : ι → α) : Prop := ∀ m m', f m = f m'

namespace Determined

theorem comp {f : ι → α} (h : Determined f) (g : α → β) : Determined fun m => g (f m) :=
  fun m m' => congrArg g (h m m')

/-- What can be read off a determined result is determined. -/
theorem of_eq {f : ι → α} {f' : ι → β} (h : Determined f) (g : α → β) (heq : ∀ m, g (f m) = f' m) :
    Determined f' := fun m m' => by
  rw [← heq, ← heq, h m m']

end Determined
