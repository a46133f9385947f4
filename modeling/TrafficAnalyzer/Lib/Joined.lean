import Mathlib.Data.List.Infix
import Mathlib.Data.List.Perm.Subperm
import Mathlib.Algebra.BigOperators.Group.List.Basic
import Mathlib.Algebra.Order.BigOperators.Group.List
import Mathlib.Algebra.Order.Ring.Nat

/-!
# Words joined by a separator

A word list joined by a separator is searched for another one as plain text. When every
word starts with a mark that occurs nowhere else in it, and no word is a prefix of
another one, the text finds exactly the consecutive words (`join_infix_iff`).
-/

namespace Joined

variable {α : Type} {sep mark : α} {words ws ns : List (List α)}

/-- The words can be told apart in a joined text. -/
structure Tags (sep mark : α) (words : List (List α)) : Prop where
  sep_ne : mark ≠ sep
  starts : ∀ w ∈ words, ∃ rest, w = mark :: rest ∧ mark ∉ rest
  antichain : ∀ w ∈ words, ∀ v ∈ words, w <+: v → w = v

theorem join_append (hws : ws ≠ []) (hns : ns ≠ []) :
    [sep].intercalate (ws ++ ns) = [sep].intercalate ws ++ sep :: [sep].intercalate ns := by
  induction ws with
  | nil => exact absurd rfl hws
  | cons w ws ih =>
    rw [List.cons_append,
      List.intercalate_cons_of_ne_nil (List.append_ne_nil_of_right_ne_nil ws hns)]
    cases ws with
    | nil => simp
    | cons v ws => rw [ih (List.cons_ne_nil v ws), List.intercalate_cons_cons]; simp

/-- A joined text starts with the mark. -/
theorem Tags.join_starts (h : Tags sep mark words) (hns : ns ⊆ words) (hne : ns ≠ []) :
    ∃ text, [sep].intercalate ns = mark :: text := by
  obtain ⟨n, ns, rfl⟩ := List.exists_cons_of_ne_nil hne
  obtain ⟨rest, rfl, -⟩ := h.starts n (hns List.mem_cons_self)
  exact ⟨_, List.intercalate_cons_cons_left⟩

/-- A text that starts with `m` does not begin inside a part without `m`. -/
theorem infix_append_of_not_mem {m : α} {n u v : List α} (hm : m ∉ u)
    (h : m :: n <:+: u ++ v) : m :: n <:+: v := by
  induction u with
  | nil => exact h
  | cons a u ih =>
    rcases List.infix_cons_iff.mp h with hpre | hinf
    · obtain ⟨rfl, -⟩ := List.cons_prefix_cons.mp hpre
      exact absurd List.mem_cons_self hm
    · exact ih (fun hmem => hm (List.mem_cons_of_mem a hmem)) hinf

/-- Words at the front of the text are words at the front of the list. -/
theorem Tags.prefix_of_join (h : Tags sep mark words) (hns : ns ⊆ words) (hws : ws ⊆ words)
    (hpre : [sep].intercalate ns <+: [sep].intercalate ws) : ns <+: ws := by
  induction ns generalizing ws with
  | nil => exact List.nil_prefix
  | cons n ns ih =>
    obtain ⟨text, htext⟩ := h.join_starts hns (List.cons_ne_nil n ns)
    cases ws with
    | nil =>
      rw [htext] at hpre
      exact absurd (List.prefix_nil.mp hpre) (List.cons_ne_nil _ _)
    | cons w ws =>
      have hn := hns List.mem_cons_self
      have hw := hws List.mem_cons_self
      have hfront : ∀ (v : List α) vs, v <+: [sep].intercalate (v :: vs) := fun v vs => by
        cases vs <;> simp [List.append_assoc]
      -- one of the two first words is a prefix of the other
      obtain rfl : n = w := by
        rcases List.prefix_or_prefix_of_prefix ((hfront n ns).trans hpre) (hfront w ws) with hp | hp
        · exact h.antichain n hn w hw hp
        · exact (h.antichain w hw n hn hp).symm
      refine List.cons_prefix_cons.mpr ⟨rfl, ?_⟩
      cases ns with
      | nil => exact List.nil_prefix
      | cons n' ns =>
        cases ws with
        | nil =>
          have hlen := hpre.length_le
          simp only [List.intercalate_cons_cons, List.intercalate_singleton, List.length_append,
            List.length_singleton] at hlen
          omega
        | cons w' ws =>
          rw [List.intercalate_cons_cons, List.intercalate_cons_cons] at hpre
          exact ih (fun x hx => hns (List.mem_cons_of_mem _ hx))
            (fun x hx => hws (List.mem_cons_of_mem _ hx))
            ((List.prefix_append_right_inj _).mp hpre)

/-- Words in the text are consecutive words of the list. -/
theorem Tags.infix_of_join (h : Tags sep mark words) (hns : ns ⊆ words) (hws : ws ⊆ words)
    (hne : ns ≠ []) (hinf : [sep].intercalate ns <:+: [sep].intercalate ws) : ns <:+: ws := by
  obtain ⟨text, htext⟩ := h.join_starts hns hne
  induction ws with
  | nil =>
    rw [htext] at hinf
    exact absurd (List.infix_nil.mp hinf) (List.cons_ne_nil _ _)
  | cons w ws ih =>
    obtain ⟨rest, rfl, hrest⟩ := h.starts w (hws List.mem_cons_self)
    have htail : ws ⊆ words := fun x hx => hws (List.mem_cons_of_mem _ hx)
    rw [List.intercalate_cons_cons_left, List.infix_cons_iff,
      ← List.intercalate_cons_cons_left] at hinf
    rcases hinf with hpre | hinf
    · exact (h.prefix_of_join hns hws hpre).isInfix
    · cases ws with
      | nil =>
        rw [List.intercalate_singleton, htext] at hinf
        exact absurd (hinf.subset List.mem_cons_self) hrest
      | cons v ws =>
        -- the mark is neither inside the word nor the separator
        have hskip : mark ∉ rest ++ [sep] := by
          simpa [h.sep_ne] using hrest
        rw [List.intercalate_cons_cons, htext] at hinf
        have hlater := infix_append_of_not_mem hskip hinf
        rw [← htext] at hlater
        exact (ih htail hlater).trans (List.suffix_cons _ _).isInfix

theorem join_infix (hne : ns ≠ []) (h : ns <:+: ws) :
    [sep].intercalate ns <:+: [sep].intercalate ws := by
  obtain ⟨a, b, rfl⟩ := h
  have hleft : [sep].intercalate ns <:+: [sep].intercalate (a ++ ns) := by
    cases a with
    | nil => exact List.infix_rfl
    | cons x a =>
      rw [join_append (List.cons_ne_nil x a) hne]
      exact ((List.suffix_cons _ _).trans (List.suffix_append _ _)).isInfix
  refine hleft.trans ?_
  cases b with
  | nil => simp
  | cons x b =>
    rw [join_append (List.append_ne_nil_of_right_ne_nil a hne) (List.cons_ne_nil x b)]
    exact (List.prefix_append _ _).isInfix

/-- A joined text contains another one exactly when the words do. -/
theorem Tags.join_infix_iff (h : Tags sep mark words) (hns : ns ⊆ words) (hws : ws ⊆ words)
    (hne : ns ≠ []) : [sep].intercalate ns <:+: [sep].intercalate ws ↔ ns <:+: ws :=
  ⟨h.infix_of_join hns hws hne, join_infix hne⟩

/-! ## Lengths -/

theorem join_length_le (sep : α) (ws : List (List α)) :
    ([sep].intercalate ws).length ≤ (ws.map (·.length + 1)).sum := by
  induction ws with
  | nil => exact Nat.zero_le _
  | cons w ws ih =>
    cases ws with
    | nil => simp
    | cons v ws =>
      rw [List.intercalate_cons_cons, List.map_cons, List.sum_cons]
      simp only [List.length_append, List.length_singleton]
      exact Nat.add_le_add_left ih _

/-- Distinct words are no longer than all words together. -/
theorem join_length_le_of_nodup (hws : ws ⊆ words) (hd : ws.Nodup) :
    ([sep].intercalate ws).length ≤ (words.map (·.length + 1)).sum := by
  refine (join_length_le sep ws).trans ?_
  obtain ⟨vs, hperm, hsub⟩ := List.subperm_of_subset hd hws
  rw [← (hperm.map _).sum_eq]
  exact (hsub.map _).sum_le_sum fun _ _ => Nat.zero_le _

end Joined
