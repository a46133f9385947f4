import TrafficAnalyzer.Lib.Lts

/-!
# Buffered simulation

A machine with buffers against a reference machine without them. The machine takes an input
before the reference machine works on it, and hands out a result after the reference machine has
produced it. The relation of a simulation says which inputs wait and which results are owed.

* `Simulation.run`: every run has a run of the reference machine behind it, with the same inputs
  up to the ones that wait and the same results up to the ones that are owed.
-/

namespace Lts

variable {σ ℓ τ κ ι ω : Type} {M : Lts σ ℓ} {N : Lts τ κ}

/-- A simulation of `N` by `M`. `rel s a waiting owed` relates the states. -/
structure Simulation (M : Lts σ ℓ) (N : Lts τ κ) (ι ω : Type) where
  input : Step σ ℓ → List ι
  output : Step σ ℓ → List ω
  work : Step τ κ → List ι
  result : Step τ κ → List ω
  rel : σ → τ → List ι → List ω → Prop
  step {s s' : σ} {l : ℓ} {a : τ} {waiting : List ι} {owed : List ω} :
    rel s a waiting owed → M.step s l = some s' →
      ∃ tr a' waiting' owed', Run N a tr a' ∧ rel s' a' waiting' owed' ∧
        waiting ++ input ⟨s, l, s'⟩ = tr.flatMap work ++ waiting' ∧
        owed ++ tr.flatMap result = output ⟨s, l, s'⟩ ++ owed'

namespace Simulation

variable (S : Simulation M N ι ω) {s t : σ} {a : τ} {tr : List (Step σ ℓ)}

/-- A step that the reference machine does not take part in. -/
theorem stutter {rel : σ → τ → List ι → List ω → Prop} {work : Step τ κ → List ι}
    {result : Step τ κ → List ω} {s' : σ} {waiting waiting' input : List ι}
    {owed owed' output : List ω} (hrel : rel s' a waiting' owed')
    (hin : waiting ++ input = waiting') (hout : owed = output ++ owed') :
    ∃ tr a' waiting' owed', Run N a tr a' ∧ rel s' a' waiting' owed' ∧
      waiting ++ input = tr.flatMap work ++ waiting' ∧
      owed ++ tr.flatMap result = output ++ owed' :=
  ⟨[], a, waiting', owed', .nil, hrel, hin, by rw [List.flatMap_nil, List.append_nil, hout]⟩

/-- Every run has a run of the reference machine behind it. -/
theorem run (h0 : S.rel s a [] []) (h : Run M s tr t) :
    ∃ reference b waiting owed, Run N a reference b ∧ S.rel t b waiting owed ∧
      tr.flatMap S.input = reference.flatMap S.work ++ waiting ∧
      reference.flatMap S.result = tr.flatMap S.output ++ owed := by
  induction h with
  | nil => exact ⟨[], a, [], [], .nil, h0, rfl, rfl⟩
  | @snoc tr t u l _ hs ih =>
    obtain ⟨ref, b, waiting, owed, hrun, hrel, hin, hout⟩ := ih
    obtain ⟨ref', b', waiting', owed', hrun', hrel', hin', hout'⟩ := S.step hrel hs
    refine ⟨ref ++ ref', b', waiting', owed', hrun.append hrun', hrel', ?_, ?_⟩
    · rw [List.flatMap_append, List.flatMap_singleton, hin, List.append_assoc, hin',
        List.flatMap_append, List.append_assoc]
    · rw [List.flatMap_append, hout, List.append_assoc, hout', List.flatMap_append,
        List.flatMap_singleton, List.append_assoc]

end Simulation

end Lts
