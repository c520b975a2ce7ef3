import Sdkd.Handle

/-!
# The requests of a run

What is known of the requests of an operation that sends them in a fixed order.

## Main definitions

- `Logs` — the requests sent so far, of which the one with number `k` satisfies `φ k`
-/

namespace Sdkd

/-- `n` requests have been sent, and the one with number `k` satisfies `φ k`. -/
structure Logs (φ : ℕ → ClusterRequest → Prop) (n : ℕ) (sent : List ClusterRequest) : Prop where
  length : sent.length = n
  each : ∀ k r, sent[k]? = some r → φ k r

namespace Logs

variable {φ : ℕ → ClusterRequest → Prop} {n : ℕ} {sent : List ClusterRequest}

theorem nil : Logs φ 0 [] := ⟨rfl, fun _ _ h => by simp at h⟩

/-- One more request. -/
theorem snoc (h : Logs φ n sent) {r : ClusterRequest} (hr : φ n r) : Logs φ (n + 1) (sent ++ [r]) := by
  refine ⟨by rw [List.length_append, h.length, List.length_singleton], fun k r' hk => ?_⟩
  by_cases hlt : k < sent.length
  · rw [List.getElem?_append_left hlt] at hk
    exact h.each k r' hk
  · have hlast := (List.getElem?_eq_some_iff.mp hk).1
    rw [List.length_append, List.length_singleton] at hlast
    obtain rfl : k = n := by
      have := h.length
      omega
    rw [List.getElem?_append_right (Nat.le_of_not_lt hlt), h.length, Nat.sub_self] at hk
    obtain rfl := Option.some.inj hk
    exact hr

/-- What holds of the requests sent, one by one. -/
theorem imp {ψ : ℕ → ClusterRequest → Prop} (h : Logs φ n sent) (himp : ∀ k < n, ∀ r, φ k r → ψ k r) :
    Logs ψ n sent := by
  refine ⟨h.length, fun k r hk => himp k ?_ r (h.each k r hk)⟩
  exact h.length ▸ (List.getElem?_eq_some_iff.mp hk).1

/-- If each request is known, all of them are. -/
theorem eq_map {F : ℕ → ClusterRequest} (h : Logs (fun k r => r = F k) n sent) :
    sent = (List.range n).map F := by
  refine List.ext_getElem? fun k => ?_
  rw [List.getElem?_map]
  by_cases hk : k < n
  · have hlt : k < sent.length := by rwa [h.length]
    rw [List.getElem?_range hk, List.getElem?_eq_getElem hlt]
    exact congrArg some (h.each k _ (List.getElem?_eq_getElem hlt))
  · have hlen := h.length
    rw [List.getElem?_eq_none (by omega), List.getElem?_eq_none (by rw [List.length_range]; omega)]
    rfl

end Logs

end Sdkd
