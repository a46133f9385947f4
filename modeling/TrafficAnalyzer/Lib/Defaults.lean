import Mathlib.Data.Finset.Card
import Mathlib.Data.Finset.Lattice.Lemmas

/-!
# Filling in defaults

A partial map receives a list of assignments one after the other. An assignment takes
effect where the map is `free`, and a value that has been set is not free any more, so the
first assignment of a key wins. `fill` also counts the assignments that take effect.

* `fill_apply`: what the map holds afterwards, key by key.
* `fill_count`: the count is the number of distinct keys that were free.
-/

namespace Defaults

variable {α β : Type} [DecidableEq α]

/-- The map after the assignments `xs`, and how many of them took effect. -/
def fill (free : Option β → Bool) (env : α → Option β) : List (α × β) → (α → Option β) × Nat
  | [] => (env, 0)
  | (k, v) :: xs =>
    if free (env k) then
      let (env, n) := fill free (Function.update env k (some v)) xs
      (env, n + 1)
    else fill free env xs

/-- The keys of `xs` at which `env` is free. -/
def freeKeys (free : Option β → Bool) (env : α → Option β) (xs : List (α × β)) : Finset α :=
  ((xs.map Prod.fst).filter fun k => free (env k)).toFinset

variable {free : Option β → Bool} {env : α → Option β} {xs : List (α × β)}

theorem mem_freeKeys {k : α} :
    k ∈ freeKeys free env xs ↔ k ∈ xs.map Prod.fst ∧ free (env k) = true := by
  rw [freeKeys, List.mem_toFinset, List.mem_filter]

/-- After an assignment its key is free no more, and nothing else changes. -/
theorem freeKeys_update {k0 : α} {v : β} (hv : free (some v) = false) :
    freeKeys free (Function.update env k0 (some v)) xs = (freeKeys free env xs).erase k0 := by
  ext k
  rw [Finset.mem_erase, mem_freeKeys, mem_freeKeys]
  rcases Decidable.em (k = k0) with rfl | hne
  · simp [hv]
  · simp [hne]

theorem freeKeys_cons {k0 : α} {v : β} :
    freeKeys free env ((k0, v) :: xs) =
      if free (env k0) then insert k0 (freeKeys free env xs) else freeKeys free env xs := by
  unfold freeKeys
  cases hfree : free (env k0) with
  | true => simp [hfree]
  | false => simp [hfree]

theorem fill_count (hset : ∀ x ∈ xs, free (some x.2) = false) :
    (fill free env xs).2 = (freeKeys free env xs).card := by
  induction xs generalizing env with
  | nil => rfl
  | cons x xs ih =>
    obtain ⟨k0, v⟩ := x
    have hrest := fun x hx => hset x (List.mem_cons_of_mem _ hx)
    have hv : free (some v) = false := hset (k0, v) (List.mem_cons_self ..)
    rw [freeKeys_cons]
    cases hfree : free (env k0) with
    | true =>
      simp only [fill, hfree, ↓reduceIte, ih hrest, freeKeys_update hv]
      rw [← Finset.erase_insert_eq_erase, Finset.card_erase_add_one (Finset.mem_insert_self ..)]
    | false =>
      simp only [fill, hfree, Bool.false_eq_true, ↓reduceIte]
      exact ih hrest

section Lookup

variable [BEq α] [LawfulBEq α]

omit [DecidableEq α] in
theorem lookup_isSome {k : α} : (xs.lookup k).isSome ↔ k ∈ xs.map Prod.fst := by
  rw [← Option.ne_none_iff_isSome, ne_eq, List.lookup_eq_none_iff, List.mem_map]
  simp only [bne_iff_ne, ne_eq, not_forall, not_not, exists_prop]
  exact ⟨fun ⟨x, hx, he⟩ => ⟨x, hx, he.symm⟩, fun ⟨x, hx, he⟩ => ⟨x, hx, he.symm⟩⟩

/-- Where the map was free the first assignment of the key counts, if there is one. -/
theorem fill_apply (hset : ∀ x ∈ xs, free (some x.2) = false) (k : α) :
    (fill free env xs).1 k = if free (env k) then (xs.lookup k).or (env k) else env k := by
  induction xs generalizing env with
  | nil => simp [fill]
  | cons x xs ih =>
    obtain ⟨k0, v⟩ := x
    have hrest := fun x hx => hset x (List.mem_cons_of_mem _ hx)
    have hv : free (some v) = false := hset (k0, v) (List.mem_cons_self ..)
    rcases Decidable.em (k = k0) with rfl | hne
    · cases hfree : free (env k) with
      | true => simp [fill, hfree, ih hrest, hv]
      | false => simp [fill, hfree, ih hrest]
    · have hlookup : ((k0, v) :: xs).lookup k = xs.lookup k := by
        rw [List.lookup_cons, beq_eq_false_iff_ne.mpr hne]
      rw [hlookup]
      cases hfree : free (env k0) with
      | true => simp [fill, hfree, ih hrest, Function.update_of_ne hne]
      | false => simp [fill, hfree, ih hrest]

end Lookup

end Defaults
