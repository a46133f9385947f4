import Mathlib.Data.List.Nodup
import Mathlib.Logic.Function.Basic

/-!
# Names repaired in one forward pass

Items come with a name or without one. An item keeps its name unless an item before it has
been given the same; else it gets the name that stands for its place. That name may be in use
before or behind it.

* `renumbered_iff`: the items that do not keep their name, by the names they come with.
* `assign_good_iff`: when the names given are distinct and every name that is unique is kept.
-/

namespace Renumber

variable {α : Type}

/-- An item without a name, with the name of an item before it, or with the name of the place
of an item before it that is one of these. -/
inductive Renumbered (num : Nat → α) (names : List (Option α)) : Nat → Prop
  | missing {i : Nat} : names[i]? = some none → Renumbered num names i
  | repeated {i j : Nat} {a : α} : j < i → names[j]? = some (some a) → names[i]? = some (some a) →
      Renumbered num names i
  | taken {i j : Nat} : Renumbered num names j → j < i → names[i]? = some (some (num j)) →
      Renumbered num names i

/-- A name that one of the first `i` items comes with, or the place of one that is
renumbered. -/
def GivenBefore (num : Nat → α) (names : List (Option α)) (i : Nat) (a : α) : Prop :=
  (∃ j < i, names[j]? = some (some a)) ∨ ∃ j < i, Renumbered num names j ∧ a = num j

section Names

variable {num : Nat → α} {names : List (Option α)} {i : Nat} {a b : α}

theorem renumbered_lt (h : Renumbered num names i) : i < names.length := by
  cases h with
  | missing h | repeated _ _ h | taken _ _ h => exact (List.getElem?_eq_some_iff.mp h).1

/-- An item with a name is renumbered exactly when the name is given before it. -/
theorem renumbered_iff (h : names[i]? = some (some a)) :
    Renumbered num names i ↔ GivenBefore num names i a := by
  constructor
  · intro hr
    cases hr with
    | missing hnone =>
      rw [h] at hnone
      cases hnone
    | repeated hj hname hi =>
      rw [h] at hi
      cases hi
      exact .inl ⟨_, hj, hname⟩
    | taken hr hj hi =>
      rw [h] at hi
      cases hi
      exact .inr ⟨_, hj, hr, rfl⟩
  · rintro (⟨j, hj, hname⟩ | ⟨j, hj, hr, rfl⟩)
    · exact .repeated hj hname h
    · exact .taken hr hj h

theorem GivenBefore.mono {k : Nat} (h : GivenBefore num names i a) (hk : i ≤ k) :
    GivenBefore num names k a := by
  rcases h with ⟨j, hj, hname⟩ | ⟨j, hj, hr⟩
  · exact .inl ⟨j, Nat.lt_of_lt_of_le hj hk, hname⟩
  · exact .inr ⟨j, Nat.lt_of_lt_of_le hj hk, hr⟩

/-- A renumbered item adds the name of its place. -/
theorem given_renumbered (hr : Renumbered num names i) :
    GivenBefore num names (i + 1) a ↔ GivenBefore num names i a ∨ a = num i := by
  constructor
  · rintro (⟨j, hj, hname⟩ | ⟨j, hj, hrj, rfl⟩)
    · rcases Nat.lt_or_eq_of_le (Nat.le_of_lt_succ hj) with hj | rfl
      · exact .inl (.inl ⟨j, hj, hname⟩)
      · exact .inl ((renumbered_iff hname).mp hr)
    · rcases Nat.lt_or_eq_of_le (Nat.le_of_lt_succ hj) with hj | rfl
      · exact .inl (.inr ⟨j, hj, hrj, rfl⟩)
      · exact .inr rfl
  · rintro (h | rfl)
    · exact h.mono (Nat.le_succ i)
    · exact .inr ⟨i, Nat.lt_succ_self i, hr, rfl⟩

/-- Another item adds its own name. -/
theorem given_kept (h : names[i]? = some (some b)) (hr : ¬ Renumbered num names i) :
    GivenBefore num names (i + 1) a ↔ GivenBefore num names i a ∨ a = b := by
  constructor
  · rintro (⟨j, hj, hname⟩ | ⟨j, hj, hrj, rfl⟩)
    · rcases Nat.lt_or_eq_of_le (Nat.le_of_lt_succ hj) with hj | rfl
      · exact .inl (.inl ⟨j, hj, hname⟩)
      · rw [h] at hname
        cases hname
        exact .inr rfl
    · rcases Nat.lt_or_eq_of_le (Nat.le_of_lt_succ hj) with hj | rfl
      · exact .inl (.inr ⟨j, hj, hrj, rfl⟩)
      · exact absurd hrj hr
  · rintro (h' | rfl)
    · exact h'.mono (Nat.le_succ i)
    · exact .inl ⟨i, Nat.lt_succ_self i, h⟩

end Names

variable [DecidableEq α] (num : Nat → α)

/-- The name of an item behind those that have been given the names `given`. -/
def pick (given : List α) : Option α → α
  | some a => if a ∈ given then num given.length else a
  | none => num given.length

def assign (given : List α) : List (Option α) → List α
  | [] => []
  | o :: os => pick num given o :: assign (given ++ [pick num given o]) os

/-- The place of a renumbered item is the name of no item before it, and not the name of just
one item. -/
def Clean (names : List (Option α)) : Prop :=
  ∀ i, Renumbered num names i →
    (∀ k < i, names[k]? ≠ some (some (num i))) ∧ names.count (some (num i)) ≠ 1

/-- The names given are distinct, and a name that only one item has is kept. -/
def Good (names : List (Option α)) : Prop :=
  (assign num [] names).Nodup ∧
    ∀ (i : Nat) (a : α), names[i]? = some (some a) → names.count (some a) = 1 →
      (assign num [] names)[i]? = some a

variable {num} {names : List (Option α)} {given : List α} {i : Nat} {a : α}

theorem length_assign (given : List α) (os : List (Option α)) :
    (assign num given os).length = os.length := by
  induction os generalizing given with
  | nil => rfl
  | cons o os ih => rw [assign, List.length_cons, ih, List.length_cons]

/-- Every item sees the names given before it. -/
theorem assign_get (given : List α) (os : List (Option α)) (i : Nat) :
    (assign num given os)[i]? =
      os[i]?.map (pick num (given ++ (assign num given os).take i)) := by
  induction os generalizing given i with
  | nil => rfl
  | cons o os ih =>
    cases i with
    | zero => simp [assign]
    | succ i =>
      rw [assign, List.getElem?_cons_succ, List.getElem?_cons_succ, List.take_succ_cons, ih,
        List.append_assoc]
      rfl

theorem get_of_name {o : Option α} (h : names[i]? = some o) :
    (assign num [] names)[i]? = some (pick num ((assign num [] names).take i) o) := by
  rw [assign_get, h]
  rfl

theorem length_take {o : Option α} (h : names[i]? = some o) :
    ((assign num [] names).take i).length = i := by
  have hi := (List.getElem?_eq_some_iff.mp h).1
  rw [List.length_take, length_assign]
  omega

/-- The names given so far are the names that items came with, and the places of those that
were renumbered. -/
theorem mem_take (hi : i ≤ names.length) :
    a ∈ (assign num [] names).take i ↔ GivenBefore num names i a := by
  induction i generalizing a with
  | zero => simp [GivenBefore]
  | succ i ih =>
    have hlt : i < names.length := hi
    have hname := List.getElem?_eq_getElem hlt
    rw [List.take_add_one, get_of_name hname, Option.toList_some, List.mem_append,
      List.mem_singleton, ih (Nat.le_of_lt hlt)]
    generalize names[i] = o at hname
    have hlen : ((assign num [] names).take i).length = i := length_take hname
    cases o with
    | none => rw [given_renumbered (.missing hname), pick, hlen]
    | some b =>
      rw [pick, hlen]
      split
      · next hb => rw [given_renumbered ((renumbered_iff hname).mpr ((ih (Nat.le_of_lt hlt)).mp hb))]
      · next hb =>
        rw [given_kept hname fun hr => hb ((ih (Nat.le_of_lt hlt)).mpr ((renumbered_iff hname).mp hr))]

/-- A renumbered item gets the name of its place, another one keeps its own. -/
theorem assign_renumbered (h : Renumbered num names i) :
    (assign num [] names)[i]? = some (num i) := by
  have hlt := renumbered_lt h
  have hname := List.getElem?_eq_getElem hlt
  rw [get_of_name hname]
  generalize names[i] = o at hname
  have hlen : ((assign num [] names).take i).length = i := length_take hname
  cases o with
  | none => rw [pick, hlen]
  | some b => rw [pick, if_pos ((mem_take (Nat.le_of_lt hlt)).mpr ((renumbered_iff hname).mp h)), hlen]

theorem assign_kept (hname : names[i]? = some (some a)) (h : ¬ Renumbered num names i) :
    (assign num [] names)[i]? = some a := by
  have hlt := (List.getElem?_eq_some_iff.mp hname).1
  rw [get_of_name hname, pick, if_neg fun hmem => h ?_]
  exact (renumbered_iff hname).mpr ((mem_take (Nat.le_of_lt hlt)).mp hmem)

section Goodness

/-- The name of a place is still free when the pass gives it, and no item behind it keeps it. -/
theorem Good.not_named_before (hgood : Good num names) (hr : Renumbered num names i) {k : Nat}
    (hk : k < i) : names[k]? ≠ some (some (num i)) := by
  intro hname
  have hlen : k + 1 ≤ names.length := (List.getElem?_eq_some_iff.mp hname).1
  have hgiven : GivenBefore num names (k + 1) (num i) := .inl ⟨k, Nat.lt_succ_self k, hname⟩
  obtain ⟨j, hj, hget⟩ := List.mem_take_iff_getElem.mp ((mem_take hlen).mpr hgiven)
  obtain ⟨hi, hgeti⟩ := List.getElem?_eq_some_iff.mp (assign_renumbered hr)
  have hsame := (List.Nodup.getElem_inj_iff hgood.1).mp (hget.trans hgeti.symm)
  omega

theorem Good.count_ne_one (hnum : Function.Injective num) (hgood : Good num names)
    (hr : Renumbered num names i) : names.count (some (num i)) ≠ 1 := by
  intro hcount
  have hmem : some (num i) ∈ names := List.count_pos_iff.mp (by omega)
  obtain ⟨k, hname⟩ := List.mem_iff_getElem?.mp hmem
  have hkept := hgood.2 k (num i) hname hcount
  obtain ⟨hk, hgetk⟩ := List.getElem?_eq_some_iff.mp hkept
  obtain ⟨hi, hgeti⟩ := List.getElem?_eq_some_iff.mp (assign_renumbered hr)
  have hsame := (List.Nodup.getElem_inj_iff hgood.1).mp (hgetk.trans hgeti.symm)
  subst hsame
  rcases hr with hnone | ⟨hj, hnamej, hnamek⟩ | ⟨hrj, hj, hnamek⟩
  · rw [hname] at hnone
    cases hnone
  · rw [hname] at hnamek
    cases hnamek
    exact hgood.not_named_before (.repeated hj hnamej hname) hj hnamej
  · rw [hname] at hnamek
    have := hnum (Option.some.inj (Option.some.inj hnamek))
    omega

/-- Without a clash at a renumbered item, no name is given that was given before. -/
theorem Clean.fresh (hnum : Function.Injective num) (hclean : Clean num names)
    (hget : (assign num [] names)[i]? = some a) : ¬ GivenBefore num names i a := by
  intro hgiven
  rcases Classical.em (Renumbered num names i) with hr | hr
  · rw [assign_renumbered hr] at hget
    cases hget
    rcases hgiven with ⟨j, hj, hname⟩ | ⟨j, hj, _, hsame⟩
    · exact (hclean i hr).1 j hj hname
    · exact absurd (hnum hsame) (Nat.ne_of_gt hj)
  · have hlt : i < names.length := by
      have hlen : (assign num [] names).length = names.length := length_assign [] names
      rw [← hlen]
      exact (List.getElem?_eq_some_iff.mp hget).1
    have hname := List.getElem?_eq_getElem hlt
    generalize names[i] = o at hname
    cases o with
    | none => exact hr (.missing hname)
    | some b =>
      rw [assign_kept hname hr] at hget
      cases hget
      exact hr ((renumbered_iff hname).mpr hgiven)

theorem Clean.nodup (hnum : Function.Injective num) (hclean : Clean num names) :
    (assign num [] names).Nodup := by
  rw [List.nodup_iff_getElem?_ne_getElem?]
  intro j i hj hi hsame
  rw [length_assign] at hi
  obtain ⟨o, hname⟩ : ∃ o, names[i]? = some o := ⟨_, List.getElem?_eq_getElem hi⟩
  have hget : (assign num [] names)[i]? = some (pick num ((assign num [] names).take i) o) :=
    get_of_name hname
  refine hclean.fresh hnum hget ((mem_take (Nat.le_of_lt hi)).mp ?_)
  rw [hget] at hsame
  exact List.mem_iff_getElem?.mpr ⟨j, by rw [List.getElem?_take_of_lt hj, hsame]⟩

/-- An item with a name of its own is not renumbered. -/
theorem Clean.kept (hclean : Clean num names) (hname : names[i]? = some (some a))
    (hcount : names.count (some a) = 1) : ¬ Renumbered num names i := by
  intro hr
  rcases (renumbered_iff hname).mp hr with ⟨j, hj, hnamej⟩ | ⟨j, _, hrj, rfl⟩
  · have hmem : some a ∈ names.take i :=
      List.mem_iff_getElem?.mpr ⟨j, by rw [List.getElem?_take_of_lt hj, hnamej]⟩
    have hmem' : some a ∈ names.drop i :=
      List.mem_iff_getElem?.mpr ⟨0, by rw [List.getElem?_drop, Nat.add_zero, hname]⟩
    have hsplit : (names.take i ++ names.drop i).count (some a) = _ := List.count_append
    rw [List.take_append_drop, hcount] at hsplit
    have := List.count_pos_iff.mpr hmem
    have := List.count_pos_iff.mpr hmem'
    omega
  · exact (hclean j hrj).2 hcount

theorem assign_good_iff (hnum : Function.Injective num) : Good num names ↔ Clean num names := by
  constructor
  · intro hgood i hr
    exact ⟨fun k hk => hgood.not_named_before hr hk, hgood.count_ne_one hnum hr⟩
  · intro hclean
    exact ⟨hclean.nodup hnum, fun i a hname hcount => assign_kept hname (hclean.kept hname hcount)⟩

end Goodness

end Renumber
