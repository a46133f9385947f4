import Mathlib.Data.List.FinRange
import Mathlib.Logic.Function.Basic
import TrafficAnalyzer.Lib.Defaults

/-!
# Hash tables with chains

An array of `n` chains and a hash function `h` that says in which chain the entry of a key
belongs. A new entry goes to the front of its chain, and a search takes the first entry of
the chain whose key compares equal.

* `find_push`, `find_put`: the two ways to write, as seen by a search. Keys that collide in a
  chain do not see each other.
* `keys_nodup`: in a table that is built by these operations no key has two entries.
-/

/-- The chains of a table with `n` of them. -/
abbrev Chains (n : Nat) (κ ν : Type) := Fin n → List (κ × ν)

namespace Chains

variable {n : Nat} {κ ν : Type} [DecidableEq κ]

/-- The table without entries. -/
def empty : Chains n κ ν := fun _ => []

/-- The value of the first entry in the chain of `k` that has the key `k`. -/
def find (h : κ → Fin n) (t : Chains n κ ν) (k : κ) : Option ν := (t (h k)).lookup k

/-- A new entry at the front of the chain of its key. -/
def push (h : κ → Fin n) (t : Chains n κ ν) (k : κ) (v : ν) : Chains n κ ν :=
  Function.update t (h k) ((k, v) :: t (h k))

/-- The first entry with the key `k` gets the value `v`. -/
def setFirst (k : κ) (v : ν) : List (κ × ν) → List (κ × ν)
  | [] => []
  | e :: es => if e.1 = k then (e.1, v) :: es else e :: setFirst k v es

/-- The value of a key, in its entry or in a new one. -/
def put (h : κ → Fin n) (t : Chains n κ ν) (k : κ) (v : ν) : Chains n κ ν :=
  if (find h t k).isSome then Function.update t (h k) (setFirst k v (t (h k))) else push h t k v

/-- The keys of all entries, chain after chain. -/
def keys (t : Chains n κ ν) : List κ := (List.finRange n).flatMap fun i => (t i).map Prod.fst

/-- Every entry is in the chain of its key, and no chain holds a key twice. -/
structure WellPlaced (h : κ → Fin n) (t : Chains n κ ν) : Prop where
  placed : ∀ i, ∀ e ∈ t i, h e.1 = i
  distinct : ∀ i, ((t i).map Prod.fst).Nodup

variable {h : κ → Fin n} {t : Chains n κ ν} {k k' : κ} {v : ν}

/-! ## Searching -/

theorem find_push : find h (push h t k v) k' = if k' = k then some v else find h t k' := by
  rcases Decidable.em (k' = k) with rfl | hne
  · rw [if_pos rfl, find, push, Function.update_self]
    exact List.lookup_cons_self
  · have hkey : (k' == k) = false := beq_eq_false_iff_ne.mpr hne
    rw [if_neg hne, find, find, push, Function.update_apply]
    split
    · next hsame => rw [List.lookup_cons, hkey, hsame]
    · rfl

theorem lookup_setFirst_self {es : List (κ × ν)} (hk : (es.lookup k).isSome) :
    (setFirst k v es).lookup k = some v := by
  induction es with
  | nil => cases hk
  | cons e es ih =>
    rw [setFirst]
    split
    · next he =>
      rw [he]
      exact List.lookup_cons_self
    · next he =>
      have hkey : (k == e.1) = false := beq_eq_false_iff_ne.mpr (Ne.symm he)
      rw [List.lookup_cons, hkey] at hk ⊢
      exact ih hk

theorem lookup_setFirst_other {es : List (κ × ν)} (hne : k' ≠ k) :
    (setFirst k v es).lookup k' = es.lookup k' := by
  induction es with
  | nil => rfl
  | cons e es ih =>
    rw [setFirst]
    split
    · next he =>
      have hkey : (k' == e.1) = false := beq_eq_false_iff_ne.mpr (he ▸ hne)
      rw [List.lookup_cons, List.lookup_cons, hkey]
    · rw [List.lookup_cons, List.lookup_cons, ih]

theorem find_put : find h (put h t k v) k' = if k' = k then some v else find h t k' := by
  unfold put
  split
  · next hfound =>
    rcases Decidable.em (k' = k) with rfl | hne
    · rw [if_pos rfl, find, Function.update_self]
      exact lookup_setFirst_self hfound
    · rw [if_neg hne, find, find, Function.update_apply]
      split
      · next hsame => rw [lookup_setFirst_other hne, hsame]
      · rfl
  · exact find_push

theorem keys_setFirst {es : List (κ × ν)} : (setFirst k v es).map Prod.fst = es.map Prod.fst := by
  induction es with
  | nil => rfl
  | cons e es ih =>
    rw [setFirst]
    split
    · rfl
    · rw [List.map_cons, List.map_cons, ih]

omit [DecidableEq κ] in
theorem WellPlaced.empty : WellPlaced h (Chains.empty : Chains n κ ν) :=
  ⟨fun _ _ he => absurd he List.not_mem_nil, fun _ => List.nodup_nil⟩

theorem WellPlaced.push (ht : WellPlaced h t) (hnew : (find h t k).isSome = false) :
    WellPlaced h (push h t k v) := by
  constructor
  · intro i e he
    rw [Chains.push, Function.update_apply] at he
    split at he
    · next hi =>
      rcases List.mem_cons.mp he with rfl | he
      · exact hi.symm
      · exact (ht.placed _ e he).trans hi.symm
    · exact ht.placed i e he
  · intro i
    rw [Chains.push, Function.update_apply]
    split
    · rw [List.map_cons, List.nodup_cons]
      refine ⟨fun hmem => ?_, ht.distinct _⟩
      rw [find, Defaults.lookup_isSome.mpr hmem] at hnew
      cases hnew
    · exact ht.distinct i

theorem WellPlaced.put (ht : WellPlaced h t) : WellPlaced h (put h t k v) := by
  unfold Chains.put
  split
  · constructor
    · intro i e he
      rw [Function.update_apply] at he
      split at he
      · next hi =>
        -- the keys of the chain are those from before
        have hkey : e.1 ∈ (setFirst k v (t (h k))).map Prod.fst := List.mem_map_of_mem he
        rw [keys_setFirst] at hkey
        obtain ⟨e', he', hsame⟩ := List.mem_map.mp hkey
        rw [hi, ← hsame]
        exact ht.placed _ e' he'
      · exact ht.placed i e he
    · intro i
      rw [Function.update_apply]
      split
      · rw [keys_setFirst]
        exact ht.distinct _
      · exact ht.distinct i
  · next hnew => exact ht.push (Bool.eq_false_iff.mpr hnew)

omit [DecidableEq κ] in
/-- Two entries of one key would be in one chain. -/
theorem keys_nodup (ht : WellPlaced h t) : (keys t).Nodup := by
  refine List.nodup_flatMap.mpr ⟨fun i _ => ht.distinct i, ?_⟩
  refine (List.nodup_finRange n).imp fun {i j} hij => ?_
  intro k hi hj
  obtain ⟨e, he, rfl⟩ := List.mem_map.mp hi
  obtain ⟨e', he', hsame⟩ := List.mem_map.mp hj
  have hi' := ht.placed i e he
  rw [← hsame, ht.placed j e' he'] at hi'
  exact hij hi'.symm

end Chains
