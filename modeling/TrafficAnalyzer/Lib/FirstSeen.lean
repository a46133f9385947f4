import Mathlib.Data.List.Induction
import Mathlib.Data.List.Nodup

/-!
# First occurrences

`List.eraseDups` keeps the first occurrence of every element, in order. This module says
what it does when the list grows at the end: by one element (`eraseDups_concat`, and
`take_eraseDups_concat` for a memory that keeps the first `n` of them), or by a block of
elements that are new together or known together (`Blocks.eraseDups_concat_new`,
`eraseDups_concat_known`).
-/

namespace FirstSeen

variable {α β : Type} [BEq α] [LawfulBEq α]

theorem eraseDups_concat (xs : List α) (x : α) :
    (xs ++ [x]).eraseDups = if x ∈ xs then xs.eraseDups else xs.eraseDups ++ [x] := by
  rw [List.eraseDups_append]
  by_cases h : x ∈ xs
  · simp [h, List.removeAll]
  · simp [h, List.removeAll, List.eraseDups_cons]

theorem length_eraseDups_le (xs : List α) : xs.eraseDups.length ≤ xs.length := by
  induction xs using List.reverseRecOn with
  | nil => exact Nat.le_refl 0
  | append_singleton xs x ih =>
    rw [eraseDups_concat, List.length_append, List.length_singleton]
    split
    · exact Nat.le_succ_of_le ih
    · rw [List.length_append, List.length_singleton]
      exact Nat.succ_le_succ ih

theorem nodup_eraseDups (xs : List α) : xs.eraseDups.Nodup := by
  induction xs using List.reverseRecOn with
  | nil => exact List.nodup_nil
  | append_singleton xs x ih =>
    rw [eraseDups_concat]
    split
    · exact ih
    · next h =>
      rw [← List.concat_eq_append]
      exact ih.concat (by simpa using h)

theorem eraseDups_of_nodup {xs : List α} (h : xs.Nodup) : xs.eraseDups = xs := by
  induction xs using List.reverseRecOn with
  | nil => rfl
  | append_singleton xs x ih =>
    obtain ⟨hxs, -, hd⟩ := List.nodup_append.mp h
    have hx : x ∉ xs := fun hmem => hd x hmem x (List.mem_singleton_self x) rfl
    rw [eraseDups_concat, if_neg hx, ih hxs]

/-- Elements that are all known add nothing. -/
theorem eraseDups_append_of_subset {xs ys : List α} (h : ys ⊆ xs) :
    (xs ++ ys).eraseDups = xs.eraseDups := by
  have hnone : ys.removeAll xs = [] := by
    rw [List.removeAll, List.filter_eq_nil_iff]
    intro y hy
    simpa using h hy
  rw [List.eraseDups_append, hnone, List.eraseDups_nil, List.append_nil]

/-- Elements that are all new are appended. -/
theorem eraseDups_append_of_disjoint {xs ys : List α} (h : xs.Disjoint ys) (hys : ys.Nodup) :
    (xs ++ ys).eraseDups = xs.eraseDups ++ ys := by
  have hall : ys.removeAll xs = ys := by
    rw [List.removeAll, List.filter_eq_self]
    intro y hy
    simpa using fun hx => h hx hy
  rw [List.eraseDups_append, hall, eraseDups_of_nodup hys]

/-! ## The first `n` distinct elements -/

theorem mem_eraseDups_of_mem_take {n : Nat} {xs : List α} {x : α} (h : x ∈ xs.eraseDups.take n) :
    x ∈ xs :=
  List.mem_eraseDups.mp (List.mem_of_mem_take h)

/-- A memory of `n` cells that stores what it has not stored yet holds the first `n`
distinct elements. -/
theorem take_eraseDups_concat (n : Nat) (xs : List α) (x : α) :
    (xs ++ [x]).eraseDups.take n =
      if x ∈ xs.eraseDups.take n then xs.eraseDups.take n
      else if (xs.eraseDups.take n).length < n then xs.eraseDups.take n ++ [x]
      else xs.eraseDups.take n := by
  rw [eraseDups_concat]
  by_cases hx : x ∈ xs
  · rw [if_pos hx]
    by_cases htake : x ∈ xs.eraseDups.take n
    · rw [if_pos htake]
    · -- a known element that is not stored came when the memory was full
      have hfull : ¬ (xs.eraseDups.take n).length < n := fun hlt => by
        have hall : xs.eraseDups.take n = xs.eraseDups :=
          List.take_of_length_le (by rw [List.length_take] at hlt; omega)
        rw [hall] at htake
        exact htake (List.mem_eraseDups.mpr hx)
      rw [if_neg htake, if_neg hfull]
  · rw [if_neg hx, if_neg fun h => hx (mem_eraseDups_of_mem_take h), List.length_take]
    rcases Nat.lt_or_ge xs.eraseDups.length n with hlt | hge
    · rw [if_pos (by omega), List.take_of_length_le (by simpa using Nat.succ_le_of_lt hlt),
        List.take_of_length_le (Nat.le_of_lt hlt)]
    · rw [if_neg (by omega), List.take_append_of_le_length hge]

/-! ## Blocks -/

/-- `f` gives blocks of distinct elements, and two blocks are the same or share nothing. -/
structure Blocks (f : β → List α) : Prop where
  nonempty : ∀ b, f b ≠ []
  nodup : ∀ b, (f b).Nodup
  apart : ∀ a b, f a = f b ∨ (f a).Disjoint (f b)

variable {f : β → List α}

omit [BEq α] [LawfulBEq α] in
/-- A block is known when it occurs already, and shares nothing with the others if not. -/
theorem Blocks.known_or_new (h : Blocks f) (bs : List β) (b : β) :
    (∃ a ∈ bs, f a = f b) ∨ (bs.flatMap f).Disjoint (f b) := by
  by_cases hb : ∃ a ∈ bs, f a = f b
  · exact .inl hb
  · refine .inr fun x hx hxb => ?_
    obtain ⟨a, ha, hxa⟩ := List.mem_flatMap.mp hx
    rcases h.apart a b with heq | hdis
    · exact hb ⟨a, ha, heq⟩
    · exact hdis hxa hxb

/-- The block of a member stands in the list of first occurrences as it is. -/
theorem Blocks.infix_of_mem (h : Blocks f) {bs : List β} {a : β} (ha : a ∈ bs) :
    f a <:+: (bs.flatMap f).eraseDups := by
  induction bs using List.reverseRecOn generalizing a with
  | nil => cases ha
  | append_singleton bs b ih =>
    rw [List.flatMap_append, List.flatMap_singleton]
    rcases List.mem_append.mp ha with hmem | hlast
    · rw [List.eraseDups_append]
      exact (ih hmem).trans (List.prefix_append _ _).isInfix
    · obtain rfl := List.mem_singleton.mp hlast
      rcases h.known_or_new bs a with ⟨c, hc, heq⟩ | hnew
      · have hsub : f a ⊆ bs.flatMap f := fun x hx => List.mem_flatMap.mpr ⟨c, hc, heq ▸ hx⟩
        rw [eraseDups_append_of_subset hsub, ← heq]
        exact ih hc
      · rw [eraseDups_append_of_disjoint hnew (h.nodup a)]
        exact (List.suffix_append _ _).isInfix

/-- A block that stands in the list already adds nothing. -/
theorem eraseDups_concat_known {bs : List β} {b : β}
    (hb : f b <:+: (bs.flatMap f).eraseDups) :
    ((bs ++ [b]).flatMap f).eraseDups = (bs.flatMap f).eraseDups := by
  rw [List.flatMap_append, List.flatMap_singleton]
  exact eraseDups_append_of_subset fun x hx => List.mem_eraseDups.mp (hb.subset hx)

/-- A block that does not stand in the list is appended. -/
theorem Blocks.eraseDups_concat_new (h : Blocks f) {bs : List β} {b : β}
    (hb : ¬ f b <:+: (bs.flatMap f).eraseDups) :
    ((bs ++ [b]).flatMap f).eraseDups = (bs.flatMap f).eraseDups ++ f b := by
  rw [List.flatMap_append, List.flatMap_singleton]
  rcases h.known_or_new bs b with ⟨a, ha, heq⟩ | hnew
  · exact absurd (heq ▸ h.infix_of_mem ha) hb
  · exact eraseDups_append_of_disjoint hnew (h.nodup b)

end FirstSeen
