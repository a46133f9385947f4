import Mathlib.Data.List.DropRight
import Mathlib.Data.List.Nodup

/-!
# A bounded memory of recent keys

Keys are offered one after the other. A memory of at most `limit` keys takes a key that it
does not hold, and forgets the oldest one when it grows too long. `taken` are the keys that a
memory takes.

* `after_eq`: the memory holds the last `limit` keys that were taken.
* `taken_nodup_iff`: no key is taken twice exactly when every key that is offered again is
  among the last `limit` keys that were offered for the first time.
-/

namespace Recency

variable {κ : Type} [BEq κ] [LawfulBEq κ]

/-- Offer a key: the memory afterwards, and whether the key was taken. -/
def offer (limit : Nat) (seen : List κ) (x : κ) : List κ × Bool :=
  if x ∈ seen then (seen, false)
  else if limit < (seen ++ [x]).length then ((seen ++ [x]).tail, true)
  else (seen ++ [x], true)

/-- The memory after a list of keys. -/
def after (limit : Nat) (seen xs : List κ) : List κ :=
  xs.foldl (fun seen x => (offer limit seen x).1) seen

/-- The keys that are taken. -/
def taken (limit : Nat) : List κ → List κ → List κ
  | _, [] => []
  | seen, x :: xs =>
    if (offer limit seen x).2 then x :: taken limit (offer limit seen x).1 xs
    else taken limit (offer limit seen x).1 xs

variable {limit : Nat} {seen xs ys a : List κ} {x : κ}

theorem after_append : after limit seen (xs ++ ys) = after limit (after limit seen xs) ys := by
  rw [after, after, after, List.foldl_append]

theorem taken_append :
    taken limit seen (xs ++ ys) = taken limit seen xs ++ taken limit (after limit seen xs) ys := by
  induction xs generalizing seen with
  | nil => rfl
  | cons x xs ih =>
    rw [List.cons_append, taken, taken, ih]
    split <;> rfl

theorem taken_sublist : (taken limit seen xs).Sublist xs := by
  induction xs generalizing seen with
  | nil => exact .slnil
  | cons x xs ih =>
    rw [taken]
    split
    · exact ih.cons_cons x
    · exact ih.cons x

/-- One more key, in a memory of the last `limit` keys. -/
theorem offer_rtake : (offer limit (xs.rtake limit) x).1 =
    if x ∈ xs.rtake limit then xs.rtake limit else (xs ++ [x]).rtake limit := by
  unfold offer
  split
  · rfl
  · cases limit with
    | zero => simp
    | succ n =>
      rw [List.rtake_concat_succ]
      have hlen : (xs.rtake (n + 1)).length = min (n + 1) xs.length := by
        rw [List.rtake, List.length_drop]
        omega
      rcases Nat.lt_or_ge n xs.length with hlt | hge
      · -- the memory is full, and its oldest key goes
        obtain ⟨y, ys, hys⟩ := List.exists_cons_of_ne_nil (l := xs.rtake (n + 1)) fun hnil => by
          rw [hnil, List.length_nil] at hlen
          omega
        have htail : (xs.rtake (n + 1)).tail = xs.rtake n := by
          rw [List.rtake, List.rtake, List.tail_drop]
          congr 1
          omega
        rw [if_pos (by rw [List.length_append, hlen, List.length_singleton]; omega), ← htail, hys]
        rfl
      · have hall : ∀ k, n ≤ k → xs.rtake k = xs := fun k hk => by
          rw [List.rtake, Nat.sub_eq_zero_of_le (Nat.le_trans hge hk), List.drop_zero]
        rw [if_neg (by rw [List.length_append, hlen, List.length_singleton]; omega),
          hall (n + 1) (Nat.le_succ n), hall n (Nat.le_refl n)]

theorem offer_snd : (offer limit seen x).2 = decide (x ∉ seen) := by
  unfold offer
  split
  · next h => simp [h]
  · next h => split <;> simp [h]

/-- The memory holds the last keys that were taken. -/
theorem after_eq : after limit [] xs = (taken limit [] xs).rtake limit := by
  induction xs using List.reverseRecOn with
  | nil => simp [after, taken]
  | append_singleton xs x ih =>
    rw [after_append, taken_append, after, List.foldl_cons, List.foldl_nil, taken, taken, offer_snd,
      ih, offer_rtake]
    rcases Decidable.em (x ∈ (taken limit [] xs).rtake limit) with h | h
    · simp [h]
    · simp [h]

theorem taken_snoc : taken limit [] (xs ++ [x]) =
    if x ∈ (taken limit [] xs).rtake limit then taken limit [] xs
    else taken limit [] xs ++ [x] := by
  rw [taken_append, after_eq, taken, taken, offer_snd]
  rcases Decidable.em (x ∈ (taken limit [] xs).rtake limit) with h | h
  · simp [h]
  · simp [h]

omit [BEq κ] [LawfulBEq κ] in
theorem mem_of_mem_rtake {n : Nat} (h : x ∈ xs.rtake n) : x ∈ xs := List.mem_of_mem_drop h

theorem eraseDups_snoc : (xs ++ [x]).eraseDups =
    if x ∈ xs then xs.eraseDups else xs.eraseDups ++ [x] := by
  rw [List.eraseDups_append]
  split
  · next h => simp [List.removeAll, h]
  · next h => simp [List.removeAll, h, List.eraseDups_cons]

/-- As long as no key is taken twice, a key is taken when it is offered for the first time. -/
theorem taken_eq_eraseDups (h : (taken limit [] xs).Nodup) :
    taken limit [] xs = xs.eraseDups := by
  induction xs using List.reverseRecOn with
  | nil => rfl
  | append_singleton xs x ih =>
    rw [taken_snoc] at h ⊢
    rw [eraseDups_snoc]
    split at h
    · next hmem =>
      have hx : x ∈ xs := taken_sublist.mem (mem_of_mem_rtake hmem)
      rw [if_pos hmem, if_pos hx, ih h]
    · next hmem =>
      have hprev := ih (List.nodup_append.mp h).1
      have hx : x ∉ xs := fun hx => by
        have hold : x ∈ taken limit [] xs := hprev ▸ List.mem_eraseDups.mpr hx
        exact (List.nodup_append.mp h).2.2 x hold x (List.mem_singleton_self x) rfl
      rw [if_neg hmem, if_neg hx, hprev]

/-- No key is taken twice exactly when every key that is offered again is still remembered by
a memory of the keys offered for the first time. -/
theorem taken_nodup_iff : (taken limit [] xs).Nodup ↔
    ∀ a x b, xs = a ++ x :: b → x ∈ a → x ∈ a.eraseDups.rtake limit := by
  constructor
  · rintro h a x b rfl hx
    rw [← List.singleton_append, ← List.append_assoc, taken_append] at h
    have hsnoc := (List.nodup_append.mp h).1
    rw [taken_snoc] at hsnoc
    split at hsnoc
    · next hmem => rwa [taken_eq_eraseDups hsnoc] at hmem
    · have hprev := taken_eq_eraseDups (List.nodup_append.mp hsnoc).1
      have hold : x ∈ taken limit [] a := hprev ▸ List.mem_eraseDups.mpr hx
      exact absurd rfl ((List.nodup_append.mp hsnoc).2.2 x hold x (List.mem_singleton_self x))
  · intro h
    induction xs using List.reverseRecOn with
    | nil => exact List.nodup_nil
    | append_singleton xs x ih =>
      have hprev := ih fun a y b he => h a y (b ++ [x]) (by rw [he, List.append_assoc]; rfl)
      rw [taken_snoc]
      split
      · exact hprev
      · next hmem =>
        refine List.nodup_append.mpr ⟨hprev, List.nodup_singleton x, ?_⟩
        rintro y hy z hz rfl
        obtain rfl := List.mem_singleton.mp hz
        have hrecent := h xs y [] rfl (taken_sublist.mem hy)
        rw [← taken_eq_eraseDups hprev] at hrecent
        exact hmem hrecent

theorem eraseDups_of_nodup (h : xs.Nodup) : xs.eraseDups = xs := by
  induction xs using List.reverseRecOn with
  | nil => rfl
  | append_singleton xs x ih =>
    obtain ⟨hxs, _, hne⟩ := List.nodup_append.mp h
    rw [eraseDups_snoc, if_neg fun hx => hne x hx x (List.mem_singleton_self x) rfl, ih hxs]

/-- A key is forgotten after `limit` others. -/
theorem not_mem_rtake (h : (x :: xs).Nodup) (hlen : xs.length = limit) :
    x ∉ (x :: xs).eraseDups.rtake limit := by
  have hdrop : (x :: xs).rtake limit = xs := by
    rw [List.rtake, List.length_cons, hlen, Nat.add_sub_cancel_left, List.drop_one, List.tail_cons]
  rw [eraseDups_of_nodup h, hdrop]
  exact (List.nodup_cons.mp h).1

end Recency
