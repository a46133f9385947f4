import Mathlib.Data.List.Induction

/-!
# Labelled transition systems and their runs

A system is given by its initial states and a step function that is partial in the
label: `none` means that the step is not enabled. Threads that interleave are one
system whose label says which thread moves and what it does.

A run is recorded step by step, each step with the states around it, so that a
property of runs can speak about the state in which a step was taken. `Run.induct`
is the rule for invariants that relate the run so far to the state it leads to,
`invariant` the one for invariants of the state alone.
-/

/-- A transition system with an executable step for every label. -/
structure Lts (σ ℓ : Type) where
  init : σ → Prop
  step : σ → ℓ → Option σ

namespace Lts

variable {σ ℓ : Type} {M : Lts σ ℓ}

/-- One step of a run: the label and the states around it. -/
structure Step (σ ℓ : Type) where
  before : σ
  label : ℓ
  after : σ

/-- `Run M s tr t`: the steps `tr` lead from `s` to `t`. -/
inductive Run (M : Lts σ ℓ) (s : σ) : List (Step σ ℓ) → σ → Prop
  | nil : Run M s [] s
  | snoc {tr : List (Step σ ℓ)} {t u : σ} {l : ℓ} :
      Run M s tr t → M.step t l = some u → Run M s (tr ++ [⟨t, l, u⟩]) u

theorem Run.single {s t : σ} {l : ℓ} (h : M.step s l = some t) : Run M s [⟨s, l, t⟩] t := by
  simpa using Run.snoc Run.nil h

theorem Run.append {s t u : σ} {a b : List (Step σ ℓ)} (ha : Run M s a t) (hb : Run M t b u) :
    Run M s (a ++ b) u := by
  induction hb with
  | nil => simpa using ha
  | snoc _ hl ih =>
    rw [← List.append_assoc]
    exact ih.snoc hl

theorem Run.nil_inv {s t : σ} (h : Run M s [] t) : t = s := by
  generalize he : ([] : List (Step σ ℓ)) = tr at h
  cases h with
  | nil => rfl
  | snoc _ _ => simp at he

theorem Run.snoc_inv {s t : σ} {tr : List (Step σ ℓ)} {x : Step σ ℓ}
    (h : Run M s (tr ++ [x]) t) :
    t = x.after ∧ Run M s tr x.before ∧ M.step x.before x.label = some x.after := by
  generalize he : tr ++ [x] = tr' at h
  cases h with
  | nil => simp at he
  | snoc hr hs =>
    obtain ⟨rfl, hlast⟩ := List.append_inj' he rfl
    obtain rfl := List.singleton_inj.mp hlast
    exact ⟨rfl, hr, hs⟩

theorem Run.split {s u : σ} {a b : List (Step σ ℓ)} (h : Run M s (a ++ b) u) :
    ∃ t, Run M s a t ∧ Run M t b u := by
  induction b using List.reverseRecOn generalizing u with
  | nil => exact ⟨u, by simpa using h, .nil⟩
  | append_singleton b x ih =>
    rw [← List.append_assoc] at h
    obtain ⟨rfl, hr, hs⟩ := h.snoc_inv
    obtain ⟨t, ha, hb⟩ := ih hr
    exact ⟨t, ha, hb.snoc hs⟩

theorem Run.cons_inv {s u : σ} {x : Step σ ℓ} {tr : List (Step σ ℓ)} (h : Run M s (x :: tr) u) :
    x.before = s ∧ M.step s x.label = some x.after ∧ Run M x.after tr u := by
  obtain ⟨v, h1, h2⟩ := Run.split (a := [x]) h
  rw [← List.nil_append [x]] at h1
  obtain ⟨rfl, hs, hstep⟩ := h1.snoc_inv
  have hb : x.before = s := hs.nil_inv
  exact ⟨hb, hb ▸ hstep, h2⟩

/-- A run around one of its steps. -/
theorem Run.around {s u : σ} {a b : List (Step σ ℓ)} {x : Step σ ℓ}
    (h : Run M s (a ++ x :: b) u) :
    Run M s a x.before ∧ M.step x.before x.label = some x.after ∧ Run M x.after b u := by
  obtain ⟨t, ha, hb⟩ := h.split
  obtain ⟨rfl, hs, hr⟩ := hb.cons_inv
  exact ⟨ha, hs, hr⟩

/-- Every recorded step is a step of the system. -/
theorem Run.step_of_mem {s u : σ} {tr : List (Step σ ℓ)} {x : Step σ ℓ} (h : Run M s tr u)
    (hx : x ∈ tr) : M.step x.before x.label = some x.after := by
  obtain ⟨a, b, rfl⟩ := List.append_of_mem hx
  exact h.around.2.1

/-- The state before a recorded step is reached by the steps before it. -/
theorem Run.before_of_mem {s u : σ} {tr : List (Step σ ℓ)} {x : Step σ ℓ} (h : Run M s tr u)
    (hx : x ∈ tr) : ∃ a, Run M s a x.before := by
  obtain ⟨a, b, rfl⟩ := List.append_of_mem hx
  exact ⟨a, h.around.1⟩

/-- A run ends in the last of its states. -/
theorem Run.states_end {s t : σ} {tr : List (Step σ ℓ)} (h : Run M s tr t) :
    ∃ before, s :: tr.map (·.after) = before ++ [t] := by
  cases h with
  | nil => exact ⟨[], rfl⟩
  | @snoc tr t u l _ _ => exact ⟨s :: tr.map (·.after), by simp⟩

/-- A preorder holds between all states of a run when every step keeps it. -/
theorem Run.pairwise_iff {r : σ → σ → Prop} (hrefl : ∀ a, r a a)
    (htrans : ∀ a b c, r a b → r b c → r a c) {s t : σ} {tr : List (Step σ ℓ)}
    (h : Run M s tr t) :
    (s :: tr.map (·.after)).Pairwise r ↔ ∀ x ∈ tr, r x.before x.after := by
  induction h with
  | nil => simp
  | @snoc tr t u l hr _ ih =>
    obtain ⟨before, hstates⟩ := hr.states_end
    rw [List.map_append, ← List.cons_append, List.pairwise_append, ih, hstates]
    simp only [List.map_cons, List.map_nil, List.mem_singleton, forall_eq, List.mem_append,
      List.pairwise_singleton, true_and]
    constructor
    · rintro ⟨hkeep, hlast⟩ x (hx | rfl)
      · exact hkeep x hx
      · exact hlast t (.inr rfl)
    · intro hall
      have hkeep : ∀ x ∈ tr, r x.before x.after := fun x hx => hall x (.inl hx)
      refine ⟨hkeep, fun a ha => htrans a t u ?_ (hall ⟨t, l, u⟩ (.inr rfl))⟩
      have hpair := ih.mpr hkeep
      rw [hstates, List.pairwise_append] at hpair
      rcases ha with ha | rfl
      · exact hpair.2.2 a ha t (List.mem_singleton_self t)
      · exact hrefl a

/-- Rule for an invariant of the run so far and the state it leads to. -/
theorem Run.induct {s t : σ} {tr : List (Step σ ℓ)} {I : List (Step σ ℓ) → σ → Prop}
    (h0 : I [] s)
    (hstep : ∀ tr t l u, Run M s tr t → I tr t → M.step t l = some u →
      I (tr ++ [⟨t, l, u⟩]) u)
    (h : Run M s tr t) : I tr t := by
  induction h with
  | nil => exact h0
  | snoc hr hl ih => exact hstep _ _ _ _ hr ih hl

/-! ## A component of a system -/

section Project

variable {τ κ : Type} {N : Lts τ κ} (π : σ → τ) (f : ℓ → Option κ)

/-- The step of a component with the states `π s`, when its label is one of the component. -/
def Step.project (x : Step σ ℓ) : Option (Step τ κ) :=
  (f x.label).map fun l => ⟨π x.before, l, π x.after⟩

/-- A run of a system is a run of its component: a step with a label of the component is a
step of it, and any other leaves it alone. -/
theorem Run.project {s t : σ} {tr : List (Step σ ℓ)} (h : Run M s tr t)
    (hmove : ∀ s l t k, M.step s l = some t → f l = some k → N.step (π s) k = some (π t))
    (hstay : ∀ s l t, M.step s l = some t → f l = none → π t = π s) :
    Run N (π s) (tr.filterMap (Step.project π f)) (π t) := by
  induction h with
  | nil => exact .nil
  | @snoc tr t u l _ hl ih =>
    rw [List.filterMap_append, List.filterMap_cons, List.filterMap_nil, Step.project]
    cases hf : f l with
    | none =>
      rw [hstay t l u hl hf]
      simpa using ih
    | some k => exact ih.snoc (hmove t l u k hl hf)

end Project

/-! ## Properties of all steps -/

theorem forall_split_snoc {α : Type} {Q : List α → α → Prop} {xs : List α} {y : α} :
    (∀ pre x post, xs ++ [y] = pre ++ x :: post → Q pre x) ↔
      (∀ pre x post, xs = pre ++ x :: post → Q pre x) ∧ Q xs y := by
  constructor
  · exact fun h => ⟨fun pre x post he => h pre x (post ++ [y]) (by simp [he]), h xs y [] rfl⟩
  · rintro ⟨hold, hlast⟩ pre x post he
    rcases List.eq_nil_or_concat post with rfl | ⟨post, z, rfl⟩
    · obtain ⟨rfl, hx⟩ := List.append_inj' he rfl
      exact List.singleton_inj.mp hx ▸ hlast
    · rw [List.concat_eq_append, ← List.cons_append, ← List.append_assoc] at he
      exact hold pre x post (List.append_inj' he rfl).1

/-- Two properties of steps hold all along a run together, when they agree at a step before
which the first has held. -/
theorem Run.forall_split_iff {A B : List (Step σ ℓ) → Step σ ℓ → Prop} {s t : σ}
    {tr : List (Step σ ℓ)} (h : Run M s tr t)
    (hstep : ∀ pre x, Run M s pre x.before → M.step x.before x.label = some x.after →
      (∀ p y q, pre = p ++ y :: q → A p y) → (A pre x ↔ B pre x)) :
    (∀ pre x post, tr = pre ++ x :: post → A pre x) ↔
      ∀ pre x post, tr = pre ++ x :: post → B pre x := by
  induction h with
  | nil => simp
  | @snoc tr t u l hr hl ih =>
    rw [forall_split_snoc, forall_split_snoc, ← ih]
    exact and_congr_right fun hA => hstep tr ⟨t, l, u⟩ hr hl hA

/-! ## Latches -/

/-- Some step of `tr` satisfies `set`, and no step after it satisfies `clear`. -/
def Latched (set clear : Step σ ℓ → Prop) (tr : List (Step σ ℓ)) : Prop :=
  ∃ p z q, tr = p ++ z :: q ∧ set z ∧ ∀ w ∈ q, ¬ clear w

theorem latched_snoc {set clear : Step σ ℓ → Prop} {tr : List (Step σ ℓ)} {x : Step σ ℓ} :
    Latched set clear (tr ++ [x]) ↔ set x ∨ (Latched set clear tr ∧ ¬ clear x) := by
  constructor
  · rintro ⟨p, z, q, he, hz, hq⟩
    rcases List.eq_nil_or_concat q with rfl | ⟨q, w, rfl⟩
    · obtain ⟨-, h⟩ := List.append_inj' he rfl
      obtain rfl := List.singleton_inj.mp h
      exact .inl hz
    · rw [List.concat_eq_append, ← List.cons_append, ← List.append_assoc] at he
      obtain ⟨rfl, h⟩ := List.append_inj' he rfl
      obtain rfl := List.singleton_inj.mp h
      exact .inr ⟨⟨p, z, q, rfl, hz, fun w hw => hq w (by simp [hw])⟩, hq x (by simp)⟩
  · rintro (hx | ⟨⟨p, z, q, rfl, hz, hq⟩, hx⟩)
    · exact ⟨tr, x, [], rfl, hx, by simp⟩
    · refine ⟨p, z, q ++ [x], by simp, hz, fun w hw => ?_⟩
      rcases List.mem_append.mp hw with hw | hw
      · exact hq w hw
      · exact List.mem_singleton.mp hw ▸ hx

/-- Before a step that sets the latch nothing matters any more. -/
theorem latched_append {set clear : Step σ ℓ → Prop} {a b : List (Step σ ℓ)} {x : Step σ ℓ}
    (hx : set x) : Latched set clear (a ++ x :: b) ↔ Latched set clear (x :: b) := by
  induction b using List.reverseRecOn with
  | nil =>
    have h : Latched set clear ([] ++ [x]) := latched_snoc.mpr (.inl hx)
    exact ⟨fun _ => h, fun _ => latched_snoc.mpr (.inl hx)⟩
  | append_singleton b y ih =>
    rw [← List.cons_append, ← List.append_assoc, latched_snoc, latched_snoc, ih]

/-- A property of states that every step sets, clears or keeps. -/
theorem Run.latched_iff {P : σ → Prop} {set clear : Step σ ℓ → Prop} {s t : σ}
    {tr : List (Step σ ℓ)} (h : Run M s tr t) (h0 : ¬ P s)
    (hstep : ∀ x ∈ tr, P x.after ↔ set x ∨ (P x.before ∧ ¬ clear x)) :
    P t ↔ Latched set clear tr := by
  induction h with
  | nil => exact ⟨fun h => absurd h h0, fun ⟨_, _, _, he, _⟩ => by simp at he⟩
  | snoc _ _ ih =>
    rw [latched_snoc, hstep _ (List.mem_append_right _ (List.mem_singleton_self _)),
      ih fun x hx => hstep x (List.mem_append_left _ hx)]

/-- A latch that is never cleared. -/
theorem latched_never {set : Step σ ℓ → Prop} {tr : List (Step σ ℓ)} :
    Latched set (fun _ => False) tr ↔ ∃ x ∈ tr, set x := by
  constructor
  · rintro ⟨p, z, q, rfl, hz, -⟩
    exact ⟨z, by simp, hz⟩
  · rintro ⟨z, hmem, hz⟩
    obtain ⟨p, q, rfl⟩ := List.append_of_mem hmem
    exact ⟨p, z, q, rfl, hz, fun _ _ => id⟩

/-- A property of states that steps set and no step clears. -/
theorem Run.marked_iff {P : σ → Prop} {mark : Step σ ℓ → Prop} {s t : σ}
    {tr : List (Step σ ℓ)} (h : Run M s tr t) (h0 : ¬ P s)
    (hstep : ∀ x ∈ tr, P x.after ↔ mark x ∨ P x.before) : P t ↔ ∃ x ∈ tr, mark x := by
  rw [← latched_never]
  refine h.latched_iff h0 fun x hx => ?_
  rw [hstep x hx, not_false_eq_true, and_true]

/-! ## Reachable states -/

/-- `t` is reached by some run from an initial state. -/
def Reachable (M : Lts σ ℓ) (t : σ) : Prop := ∃ s tr, M.init s ∧ Run M s tr t

/-- Rule for an invariant of the state alone. -/
theorem invariant {I : σ → Prop} (h0 : ∀ s, M.init s → I s)
    (hstep : ∀ t l u, I t → M.step t l = some u → I u) {t : σ} (h : M.Reachable t) : I t := by
  obtain ⟨s, tr, hs, hr⟩ := h
  exact hr.induct (I := fun _ t => I t) (h0 s hs) fun _ t l u _ => hstep t l u

/-- Execute a list of labels. -/
def exec (M : Lts σ ℓ) : σ → List ℓ → Option (List (Step σ ℓ) × σ)
  | s, [] => some ([], s)
  | s, l :: ls => do
    let t ← M.step s l
    let (tr, u) ← exec M t ls
    some (⟨s, l, t⟩ :: tr, u)

theorem exec_run {ls : List ℓ} {s u : σ} {tr : List (Step σ ℓ)}
    (h : M.exec s ls = some (tr, u)) : Run M s tr u := by
  induction ls generalizing s tr with
  | nil =>
    simp only [exec, Option.some.injEq, Prod.mk.injEq] at h
    obtain ⟨rfl, rfl⟩ := h
    exact .nil
  | cons l ls ih =>
    simp only [exec, Option.bind_eq_bind, Option.bind_eq_some_iff] at h
    obtain ⟨t, ht, ⟨tr', u'⟩, htr, he⟩ := h
    simp only [Option.some.injEq, Prod.mk.injEq] at he
    obtain ⟨rfl, rfl⟩ := he
    exact (Run.single ht).append (ih htr)

theorem exec_labels {ls : List ℓ} {s u : σ} {tr : List (Step σ ℓ)}
    (h : M.exec s ls = some (tr, u)) : tr.map (·.label) = ls := by
  induction ls generalizing s u tr with
  | nil =>
    simp only [exec, Option.some.injEq, Prod.mk.injEq] at h
    rw [← h.1, List.map_nil]
  | cons l ls ih =>
    simp only [exec, Option.bind_eq_bind, Option.bind_eq_some_iff] at h
    obtain ⟨t, -, ⟨tr', u'⟩, htr, he⟩ := h
    simp only [Option.some.injEq, Prod.mk.injEq] at he
    rw [← he.1, List.map_cons, ih htr]

/-- A run that is executed, with what was read off it and its last step. -/
theorem run_of_exec_snoc {β : Type} {f : List (Step σ ℓ) → Step σ ℓ → β} {ls : List ℓ} {s : σ}
    {b : β} (h : (M.exec s ls).map (fun r => r.1.getLast?.map (f r.1)) = some (some b)) :
    ∃ pre x, Run M s (pre ++ [x]) x.after ∧ (pre ++ [x]).map (·.label) = ls ∧
      f (pre ++ [x]) x = b := by
  obtain ⟨⟨tr, u⟩, hexec, hval⟩ := Option.map_eq_some_iff.mp h
  obtain ⟨x, hlast, hx⟩ := Option.map_eq_some_iff.mp hval
  obtain ⟨pre, htr⟩ := List.getLast?_eq_some_iff.mp hlast
  dsimp only at htr
  subst htr
  have hrun := exec_run hexec
  exact ⟨pre, x, hrun.snoc_inv.1 ▸ hrun, exec_labels hexec, hx⟩

theorem run_of_exec_last {β : Type} {f : Step σ ℓ → β} {ls : List ℓ} {s : σ} {b : β}
    (h : (M.exec s ls).map (fun r => r.1.getLast?.map f) = some (some b)) :
    ∃ pre x, Run M s (pre ++ [x]) x.after ∧ (pre ++ [x]).map (·.label) = ls ∧ f x = b :=
  run_of_exec_snoc (f := fun _ => f) h

/-- A run that is executed, with what was read off it. -/
theorem run_of_exec {β : Type} {f : List (Step σ ℓ) × σ → β} {ls : List ℓ} {s : σ} {b : β}
    (h : (M.exec s ls).map f = some b) : ∃ tr u, Run M s tr u ∧ f (tr, u) = b := by
  obtain ⟨⟨tr, u⟩, hexec, hval⟩ := Option.map_eq_some_iff.mp h
  exact ⟨tr, u, exec_run hexec, hval⟩

end Lts
