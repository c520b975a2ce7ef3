import Sdkd.Guards

/-!
# The operations of the switch

The arms of the `switch` of `processRequest` that use the dataset lead to four kinds of operations.

## Main results

- `dsOperation_kind`
-/

namespace Sdkd

section Kinds

variable [JsonAccess] [JsonWriter]

/-- What an operation on a dataset is: one that sends a request for each item, a subdocument run, a
loader, or the view loader. -/
inductive DsKind (h : Handle) (w : World) (req : Request) (ds : Dataset) (opts : ResultOptions) :
    Operation → Prop where
  | items (checks : List (OpAction (DsLocal DatasetIterator Unit)))
      (mk : DocumentId → DatasetIterator → Option ClusterRequest)
      (hchecks : ∀ a ∈ checks, ∀ s, a s = .next s) (hmk : ∀ id i, (mk id i).isSome = true)
      (hcode : req.command.code.isDsOperation = true) :
      DsKind h w req ds opts
        ⟨_, dsOp ds.getIter h.options w opts checks mk, ⟨Dataset.newIterator, ("", ""), ()⟩⟩
  | subdoc (hcode : req.command.code = .mcDsSdRun) :
      DsKind h w req ds opts
        ⟨_, dsSDSinglePath ds.getIter h.options w opts, ⟨Dataset.newIterator, ("", ""), ()⟩⟩
  | load (hcode : req.command.code.isDsOperation = false) :
      DsKind h w req ds opts
        ⟨_, loader ds.getIter h.options w, ⟨Dataset.newIterator, ("", ""), .start⟩⟩
  | viewLoad (hcode : req.command.code = .cbViewLoad) :
      DsKind h w req ds opts
        ⟨_, viewLoader ds.getIter h.options w opts,
          ⟨Dataset.newIterator, ("", ""), .start (req.payload.get "Schema")⟩⟩

theorem dsOperation_kind {h : Handle} {w : World} {req : Request} {ds : Dataset}
    {opts : ResultOptions} {op : Operation} (hop : dsOperation h w req ds opts = some op) :
    DsKind h w req ds opts op := by
  unfold dsOperation at hop
  dsimp only at hop
  split at hop
  case h_15 => cases hop
  all_goals
    rename_i hcode
    obtain rfl := Option.some.inj hop
  case h_1 | h_2 | h_8 =>
    exact .items [] _ (by simp) (fun _ _ => rfl) (by rw [hcode]; rfl)
  case h_3 | h_4 | h_5 | h_6 | h_7 =>
    rw [hcode]
    refine .items [_] _ (List.forall_mem_singleton.mpr (checkMutation_of_isMutation rfl))
      (fun id i => mutationRequest_isSome rfl opts id _) (by rw [hcode]; rfl)
  case h_9 => exact .subdoc hcode
  case h_11 => exact .viewLoad hcode
  all_goals exact .load (by rw [hcode]; rfl)

end Kinds

end Sdkd
