import Mathlib.Logic.Function.Basic

/-!
# A ledger of obligations

Holders hold tokens, and every token that was issued has to be settled exactly once: a
thread that has to be joined, a lock that has to be released. A holder holds one token at
most. `Balanced` says that every issued token is either held by one holder and not yet
settled, or held by nobody and settled once.
-/

@[ext]
structure Ledger (ι τ : Type) where
  held : ι → Option τ
  issued : τ → Prop
  settled : τ → Nat

namespace Ledger

variable {ι τ : Type} {L : Ledger ι τ} {i : ι} {t : τ}

structure Balanced (L : Ledger ι τ) : Prop where
  unique : ∀ {i j t}, L.held i = some t → L.held j = some t → i = j
  issued : ∀ {i t}, L.held i = some t → L.issued t
  owed : ∀ {i t}, L.held i = some t → L.settled t = 0
  paid : ∀ {t}, L.issued t → (∀ i, L.held i ≠ some t) → L.settled t = 1

/-- Nothing issued, nothing held. -/
theorem Balanced.empty (hheld : ∀ i, L.held i = none) (hissued : ∀ t, ¬ L.issued t) :
    L.Balanced := by
  have hnot : ∀ {i t}, L.held i ≠ some t := fun {i t} h => by
    rw [hheld] at h
    cases h
  exact ⟨fun h => absurd h hnot, fun h => absurd h hnot, fun h => absurd h hnot,
    fun h => absurd h (hissued _)⟩

/-- No token is settled twice. -/
theorem Balanced.settled_le (h : L.Balanced) (ht : L.issued t) : L.settled t ≤ 1 := by
  by_cases hheld : ∃ i, L.held i = some t
  · obtain ⟨i, hi⟩ := hheld
    rw [h.owed hi]
    exact Nat.zero_le 1
  · exact Nat.le_of_eq (h.paid ht fun i hi => hheld ⟨i, hi⟩)

variable [DecidableEq ι] [DecidableEq τ]

/-- A new token goes to a holder. -/
def issue (L : Ledger ι τ) (i : ι) (t : τ) : Ledger ι τ :=
  { L with held := Function.update L.held i (some t), issued := fun u => u = t ∨ L.issued u }

/-- A holder settles its token. -/
def settle (L : Ledger ι τ) (i : ι) (t : τ) : Ledger ι τ :=
  { L with
    held := Function.update L.held i none
    settled := Function.update L.settled t (L.settled t + 1) }

omit [DecidableEq τ] in
theorem issue_held (L : Ledger ι τ) (i : ι) (t : τ) :
    (L.issue i t).held = Function.update L.held i (some t) := rfl

theorem settle_held (L : Ledger ι τ) (i : ι) (t : τ) :
    (L.settle i t).held = Function.update L.held i none := rfl

theorem settle_settled (L : Ledger ι τ) (i : ι) (t : τ) :
    (L.settle i t).settled = Function.update L.settled t (L.settled t + 1) := rfl

omit [DecidableEq τ] in
theorem issue_held_some {j : ι} {u : τ} (h : (L.issue i t).held j = some u) :
    (j = i ∧ u = t) ∨ (j ≠ i ∧ L.held j = some u) := by
  rw [issue_held] at h
  by_cases hji : j = i
  · rw [hji, Function.update_self] at h
    exact .inl ⟨hji, (Option.some.inj h).symm⟩
  · rw [Function.update_of_ne hji] at h
    exact .inr ⟨hji, h⟩

omit [DecidableEq τ] in
/-- A fresh token may go to a holder that has none. -/
theorem Balanced.issue (h : L.Balanced) (hi : L.held i = none) (ht : ¬ L.issued t)
    (h0 : L.settled t = 0) : (L.issue i t).Balanced := by
  constructor
  · intro j k u hj hk
    rcases issue_held_some hj with ⟨rfl, rfl⟩ | ⟨_, hj'⟩ <;>
      rcases issue_held_some hk with ⟨rfl, hu⟩ | ⟨_, hk'⟩
    · rfl
    · exact absurd (h.issued hk') ht
    · exact absurd (hu ▸ h.issued hj') ht
    · exact h.unique hj' hk'
  · intro j u hj
    rcases issue_held_some hj with ⟨_, rfl⟩ | ⟨_, hj⟩
    · exact .inl rfl
    · exact .inr (h.issued hj)
  · intro j u hj
    rcases issue_held_some hj with ⟨_, rfl⟩ | ⟨_, hj⟩
    · exact h0
    · exact h.owed hj
  · rintro u (rfl | hu) hnone
    · exact absurd (by rw [issue_held, Function.update_self]) (hnone i)
    · refine h.paid hu fun j hj => ?_
      by_cases hji : j = i
      · rw [hji, hi] at hj
        cases hj
      · exact hnone j (by rw [issue_held, Function.update_of_ne hji, hj])

/-- A holder may settle the token that it holds. -/
theorem Balanced.settle (h : L.Balanced) (hi : L.held i = some t) : (L.settle i t).Balanced := by
  have hkept : ∀ {j u}, (L.settle i t).held j = some u → L.held j = some u ∧ u ≠ t := by
    intro j u hj
    rw [settle_held] at hj
    by_cases hji : j = i
    · rw [hji, Function.update_self] at hj
      cases hj
    · rw [Function.update_of_ne hji] at hj
      exact ⟨hj, fun hu => hji (h.unique hj (hu ▸ hi))⟩
  constructor
  · intro j k u hj hk
    exact h.unique (hkept hj).1 (hkept hk).1
  · intro j u hj
    exact h.issued (hkept hj).1
  · intro j u hj
    obtain ⟨hj, hne⟩ := hkept hj
    rw [settle_settled, Function.update_of_ne hne]
    exact h.owed hj
  · intro u hu hnone
    by_cases hut : u = t
    · rw [hut, settle_settled, Function.update_self, h.owed hi]
    · rw [settle_settled, Function.update_of_ne hut]
      refine h.paid hu fun j hj => hnone j ?_
      have hji : j ≠ i := by
        rintro rfl
        exact hut (Option.some.inj (hj.symm.trans hi))
      rw [settle_held, Function.update_of_ne hji, hj]

end Ledger
