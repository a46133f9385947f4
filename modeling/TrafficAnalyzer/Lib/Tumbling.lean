import Mathlib.Data.List.Induction

/-!
# Tumbling windows

A tumbling window counts the events since its start, and the first event more than `width`
after the start begins the next window. A sliding window counts the events of the last
`width`. The two differ when a burst straddles the start of a window.

* `window_split`: the events before the current window, and how far back they lie.
* `exists_full_window`: `2 * k - 1` events in a sliding window put `k` of them into one
  tumbling window.
-/

namespace Tumbling

/-- The current window: its start and its events. -/
structure Window where
  start : Int
  members : List Int
deriving DecidableEq, Repr

/-- One event. -/
def Window.add (width : Int) (w : Window) (t : Int) : Window :=
  if width < t - w.start then ⟨t, [t]⟩ else ⟨w.start, w.members ++ [t]⟩

/-- The window after the events `ts`, when the first window starts at `start`. -/
def window (width start : Int) (ts : List Int) : Window :=
  ts.foldl (Window.add width) ⟨start, []⟩

/-- The events of the last `width`. -/
def sliding (width now : Int) (ts : List Int) : List Int :=
  ts.filter fun t => now - width ≤ t

variable {width start : Int}

theorem window_append (ts : List Int) (t : Int) :
    window width start (ts ++ [t]) = (window width start ts).add width t := by
  simp [window]

/-- The events before the current window: none, or a window that started more than `width`
earlier. -/
theorem window_split (width start : Int) (ts : List Int) :
    ∃ before, ts = before ++ (window width start ts).members ∧
      (before = [] ∨ ((window width start ts).start ∈ (window width start ts).members ∧
        (window width start before).start + width < (window width start ts).start)) := by
  induction ts using List.reverseRecOn with
  | nil => exact ⟨[], rfl, .inl rfl⟩
  | append_singleton ts t ih =>
    rw [window_append, Window.add]
    split
    · next hnew =>
      refine ⟨ts, rfl, .inr ⟨List.mem_singleton_self t, ?_⟩⟩
      exact Int.add_comm _ _ ▸ Int.add_lt_of_lt_sub_right hnew
    · obtain ⟨before, hts, hbefore⟩ := ih
      refine ⟨before, ?_, hbefore.imp_right fun h => ⟨List.mem_append_left _ h.1, h.2⟩⟩
      rw [← List.append_assoc, ← hts]

theorem length_window_le (width start : Int) (ts : List Int) :
    (window width start ts).members.length ≤ ts.length := by
  obtain ⟨before, hts, -⟩ := window_split width start ts
  calc (window width start ts).members.length
      ≤ (before ++ (window width start ts).members).length := by simp
    _ = ts.length := congrArg List.length hts.symm

/-- In a sorted list what comes before an element is not greater. -/
theorem le_of_mem_append {a b : List Int} (hs : (a ++ b).Pairwise (· ≤ ·)) {x y : Int}
    (hx : x ∈ a) (hy : y ∈ b) : x ≤ y :=
  (List.pairwise_append.mp hs).2.2 x hx y hy

theorem length_sliding_le (now : Int) (ts : List Int) :
    (sliding width now ts).length ≤ ts.length := List.length_filter_le _ _

theorem sliding_append (now : Int) (a b : List Int) :
    sliding width now (a ++ b) = sliding width now a ++ sliding width now b :=
  List.filter_append ..

/-- A window with `k` recent events was full at its last event, which is recent. -/
theorem full_at_last {ts : List Int} {now : Int} {k : Nat} (hk : 0 < k)
    (hs : ts.Pairwise (· ≤ ·))
    (hfull : k ≤ (sliding width now (window width start ts).members).length) :
    ∃ p t, ts = p ++ [t] ∧ now - width ≤ t ∧
      k ≤ (window width start (p ++ [t])).members.length := by
  obtain ⟨before, hts, -⟩ := window_split width start ts
  obtain ⟨x, hx⟩ := List.exists_mem_of_length_pos (Nat.lt_of_lt_of_le hk hfull)
  obtain ⟨hmem, hrecent⟩ := List.mem_filter.mp hx
  rcases List.eq_nil_or_concat ts with rfl | ⟨p, t, rfl⟩
  · cases hmem
  · rw [List.concat_eq_append] at *
    refine ⟨p, t, rfl, ?_, Nat.le_trans hfull (length_sliding_le now _)⟩
    have hxt : x ≤ t := by
      have hxts : x ∈ p ++ [t] := by
        rw [hts]
        exact List.mem_append_right _ hmem
      rcases List.mem_append.mp hxts with hp | ht
      · exact le_of_mem_append hs hp (List.mem_singleton_self t)
      · exact Int.le_of_eq (List.mem_singleton.mp ht)
    exact Int.le_trans (of_decide_eq_true hrecent) hxt

/-- `2 * k - 1` events in a sliding window put `k` of them into one tumbling window, at an
event of the sliding window. -/
theorem exists_full_window (start : Int) {ts : List Int} {now : Int} {k : Nat} (hk : 0 < k)
    (hs : ts.Pairwise (· ≤ ·)) (hnow : ∀ t ∈ ts, t ≤ now)
    (hmany : 2 * k - 1 ≤ (sliding width now ts).length) :
    ∃ p t q, ts = p ++ t :: q ∧ now - width ≤ t ∧
      k ≤ (window width start (p ++ [t])).members.length := by
  rcases Nat.lt_or_ge (sliding width now (window width start ts).members).length k with hlt | hge
  · -- too few in the current window: the others are in the one before it
    obtain ⟨before, hts, hbefore⟩ := window_split width start ts
    generalize window width start ts = cur at *
    subst hts
    obtain ⟨older, hold, holder⟩ := window_split width start before
    have hsorted := (List.pairwise_append.mp hs).1
    rw [sliding_append, List.length_append] at hmany
    have hrest : k ≤ (sliding width now before).length := by omega
    have hnone : sliding width now older = [] := by
      rw [sliding, List.filter_eq_nil_iff]
      intro x hx
      rcases holder with rfl | ⟨hstart, -⟩
      · cases hx
      rcases hbefore with rfl | ⟨hcur, hgap⟩
      · simp only [sliding, List.filter_nil, List.length_nil] at hrest
        omega
      rw [hold] at hsorted
      have hle := le_of_mem_append hsorted hx hstart
      have hcur' := hnow _ (List.mem_append_right before hcur)
      simp only [decide_eq_true_eq]
      omega
    have hfull : k ≤ (sliding width now (window width start before).members).length := by
      rwa [hold, sliding_append, hnone, List.nil_append] at hrest
    obtain ⟨p, t, rfl, hrecent, hlen⟩ := full_at_last hk hsorted hfull
    exact ⟨p, t, cur.members, List.append_assoc p [t] cur.members, hrecent, hlen⟩
  · obtain ⟨p, t, rfl, hrecent, hlen⟩ := full_at_last hk hs hge
    exact ⟨p, t, [], rfl, hrecent, hlen⟩

end Tumbling
