/-!
# Bounded queues

A first-in first-out queue of at most `capacity` items. The bound is a field, so that
a queue that holds more cannot be built. `push?` refuses an item when the queue is
full, `offer` drops it, and `pop?` takes the oldest item.
-/

structure BoundedQueue (α : Type) where
  capacity : Nat
  items : List α
  fits : items.length ≤ capacity

namespace BoundedQueue

variable {α : Type} {q q' : BoundedQueue α} {x : α}

def empty (capacity : Nat) : BoundedQueue α := ⟨capacity, [], Nat.zero_le _⟩

/-- Append an item, unless the queue is full. -/
def push? (q : BoundedQueue α) (x : α) : Option (BoundedQueue α) :=
  if h : q.items.length < q.capacity then
    some ⟨q.capacity, q.items ++ [x], by rw [List.length_append]; exact h⟩
  else none

/-- Append an item, or drop it when the queue is full. -/
def offer (q : BoundedQueue α) (x : α) : BoundedQueue α := (q.push? x).getD q

/-- Take the oldest item. -/
def pop? : BoundedQueue α → Option (α × BoundedQueue α)
  | ⟨_, [], _⟩ => none
  | ⟨capacity, x :: xs, h⟩ => some (x, ⟨capacity, xs, Nat.le_of_succ_le h⟩)

/-- The item, as a list, if the queue has room for it. -/
def taken (q : BoundedQueue α) (x : α) : List α :=
  if q.items.length < q.capacity then [x] else []

@[simp] theorem empty_items (capacity : Nat) : (empty capacity : BoundedQueue α).items = [] := rfl

theorem offer_items (q : BoundedQueue α) (x : α) : (q.offer x).items = q.items ++ q.taken x := by
  unfold offer push? taken
  split <;> simp

theorem mem_offer {y : α} (h : y ∈ (q.offer x).items) : y ∈ q.items ∨ y = x := by
  rw [offer_items, List.mem_append] at h
  refine h.imp_right fun hy => ?_
  unfold taken at hy
  split at hy
  · exact List.mem_singleton.mp hy
  · cases hy

@[simp] theorem offer_eq_nil : (q.offer x).items = [] ↔ q.items = [] ∧ q.taken x = [] := by
  rw [offer_items, List.append_eq_nil_iff]

theorem pop?_eq_some (h : q.pop? = some (x, q')) : q.items = x :: q'.items := by
  obtain ⟨capacity, items, hfit⟩ := q
  cases items with
  | nil => cases h
  | cons y ys =>
    simp only [pop?, Option.some.injEq, Prod.mk.injEq] at h
    obtain ⟨rfl, rfl⟩ := h
    rfl

theorem offer_capacity (q : BoundedQueue α) (x : α) : (q.offer x).capacity = q.capacity := by
  unfold offer push?
  split <;> rfl

theorem pop?_of_items {xs : List α} (h : q.items = x :: xs) :
    ∃ q', q.pop? = some (x, q') ∧ q'.items = xs := by
  obtain ⟨capacity, items, hfit⟩ := q
  cases h
  exact ⟨_, rfl, rfl⟩

theorem pop?_capacity (h : q.pop? = some (x, q')) : q'.capacity = q.capacity := by
  obtain ⟨capacity, items, hfit⟩ := q
  cases items with
  | nil => cases h
  | cons y ys =>
    simp only [pop?, Option.some.injEq, Prod.mk.injEq] at h
    obtain ⟨rfl, rfl⟩ := h
    rfl

theorem pop?_eq_none : q.pop? = none ↔ q.items = [] := by
  obtain ⟨capacity, items, hfit⟩ := q
  cases items <;> simp [pop?]

end BoundedQueue
