import TrafficAnalyzer.Lib.BoundedQueue
import TrafficAnalyzer.Agent.RingBuf

/-!
# The ring buffer as a queue

Seen from outside, a ring buffer is a bounded queue: the push of an item takes effect
when `head` is stored, the pop when `tail` is stored, and all other steps leave the
queue as it is. So the threads of the pipeline may be taken to push and pop in one step.

* `RingInv.contents_eq`: the slots between `tail` and `head` are the items not yet popped.
* `ring_refines`: every interleaving performs the operations of a bounded queue.
-/

namespace TrafficAnalyzer

variable {slotSize : Nat}

/-- The slots from `tail` on, up to `head`. -/
def RingState.contents (s : RingState slotSize) : List (Item slotSize) :=
  (List.range (s.rb.head - s.rb.tail).toNat).map fun j =>
    s.rb.slots (s.rb.index (s.rb.tail + UInt64.ofNat j))

/-- The queue `q` is what the state stores. -/
structure Represents (s : RingState slotSize) (q : BoundedQueue (Item slotSize)) : Prop where
  capacity : q.capacity = s.rb.capacity.toNat
  items : q.items = s.contents

/-- What a step does to the queue: a push or a pop at its return, and nothing else. A
pop has to give the item that the queue gives. -/
def queueEffect (q : BoundedQueue (Item slotSize)) (x : RingStep slotSize) :
    Option (BoundedQueue (Item slotSize)) :=
  match RingStep.pushed x, RingStep.popped x with
  | some item, _ => q.push? item
  | none, some item => do
    let (first, q) ← q.pop?
    if first = item then some q else none
  | none, none => some q

section Refinement

variable {cap start capacity : UInt64} {P C : List (Item slotSize)} {s s' s0 : RingState slotSize}
  {l : RingLabel slotSize} {q : BoundedQueue (Item slotSize)} {tr : List (RingStep slotSize)}

theorem RingInv.contents_eq (h : RingInv cap start P C s) : s.contents = P.drop C.length := by
  have hle := h.fifo.length_le
  have hcount : (s.rb.head - s.rb.tail).toNat = P.length - C.length := by
    rw [h.head, h.tail, sub_positions start hle h.dist_lt]
  have hlen : s.contents.length = P.length - C.length := by simp [RingState.contents, hcount]
  refine List.ext_getElem (by rw [hlen, List.length_drop]) fun j hj hj' => ?_
  rw [List.length_drop] at hj'
  have hpos : s.rb.tail + UInt64.ofNat j = start + UInt64.ofNat (C.length + j) := by
    rw [h.tail, UInt64.ofNat_add, UInt64.add_assoc]
  have hlt : C.length + j < P.length := by omega
  simp only [RingState.contents, List.getElem_map, List.getElem_range, List.getElem_drop, hpos,
    h.index]
  exact h.stored _ _ (Nat.le_add_right _ _) (List.getElem?_eq_getElem hlt)

theorem RingInv.represents (h : RingInv cap start P C s) (hcap : q.capacity = cap.toNat)
    (hitems : q.items = P.drop C.length) : Represents s q :=
  ⟨by rw [h.capacity, hcap], by rw [h.contents_eq, hitems]⟩

/-- The operations of the run so far lead to a queue that holds what is not yet
popped. -/
structure QueueInv (cap : UInt64) (tr : List (RingStep slotSize))
    (q : BoundedQueue (Item slotSize)) : Prop where
  performed : tr.foldlM queueEffect (.empty cap.toNat) = some q
  capacity : q.capacity = cap.toNat
  items : q.items = (pushed tr).drop (popped tr).length

theorem popped_of_pushed {x : RingStep slotSize} {item : Item slotSize}
    (h : RingStep.pushed x = some item) : RingStep.popped x = none := by
  obtain ⟨s, l, s'⟩ := x
  cases l <;> simp_all [RingStep.pushed, RingStep.popped]

theorem QueueInv.snoc {x : RingStep slotSize} (h : QueueInv cap tr q)
    (hinv : RingInv cap start (pushed (tr ++ [x])) (popped (tr ++ [x])) s')
    (hle : (popped tr).length ≤ (pushed tr).length) : ∃ q', QueueInv cap (tr ++ [x]) q' := by
  have hstep : (tr ++ [x]).foldlM queueEffect (.empty cap.toNat) = queueEffect q x := by
    rw [List.foldlM_append, h.performed]
    simp
  cases hpush : RingStep.pushed x with
  | some item =>
    have hpop := popped_of_pushed hpush
    -- the invariant after the step leaves room for the item
    have hroom : q.items.length < q.capacity := by
      have hbound := hinv.bound
      rw [pushed_snoc, popped_snoc, hpush, hpop] at hbound
      rw [h.items, h.capacity, List.length_drop]
      simp only [Option.toList_some, Option.toList_none, List.length_append,
        List.length_singleton, List.append_nil] at hbound
      omega
    refine ⟨q.offer item, ?_, ?_, ?_⟩
    · simp [hstep, queueEffect, hpush, BoundedQueue.offer, BoundedQueue.push?, hroom]
    · rw [BoundedQueue.offer_capacity, h.capacity]
    · rw [BoundedQueue.offer_items, BoundedQueue.taken, if_pos hroom, h.items, pushed_snoc,
        popped_snoc, hpush, hpop]
      simp [List.drop_append_of_le_length hle]
  | none =>
    cases hpop : RingStep.popped x with
    | some out =>
      obtain ⟨rest, hrest⟩ := hinv.fifo
      rw [pushed_snoc, popped_snoc, hpush, hpop] at hrest
      simp only [Option.toList_some, Option.toList_none, List.append_nil,
        List.append_assoc, List.singleton_append] at hrest
      have hitems : q.items = out :: rest := by rw [h.items, ← hrest, List.drop_left]
      obtain ⟨q', hq', hrest'⟩ := BoundedQueue.pop?_of_items hitems
      refine ⟨q', ?_, ?_, ?_⟩
      · simp [hstep, queueEffect, hpush, hpop, hq']
      · rw [BoundedQueue.pop?_capacity hq', h.capacity]
      · rw [hrest', pushed_snoc, popped_snoc, hpush, hpop]
        simp [← hrest, List.drop_append]
    | none =>
      refine ⟨q, ?_, h.capacity, ?_⟩
      · simp [hstep, queueEffect, hpush, hpop]
      · simp [h.items, pushed_snoc, popped_snoc, hpush, hpop]

/-- Every interleaving performs, one after the other, operations that the bounded queue
allows, and stores what the queue holds. -/
theorem ring_refines (h0 : IsStart capacity start s0) (h : Lts.Run (ringLts slotSize) s0 tr s) :
    ∃ q, tr.foldlM queueEffect (.empty (nextPow2 capacity).toNat) = some q ∧ Represents s q := by
  have hq : ∃ q, QueueInv (nextPow2 capacity) tr q := by
    induction h with
    | nil => exact ⟨.empty _, rfl, rfl, rfl⟩
    | snoc hr hs ih =>
      obtain ⟨q, hq⟩ := ih
      exact hq.snoc (ring_inv h0 (hr.snoc hs)) (ring_inv h0 hr).fifo.length_le
  obtain ⟨q, hq⟩ := hq
  exact ⟨q, hq.performed, (ring_inv h0 h).represents hq.capacity hq.items⟩

end Refinement

end TrafficAnalyzer
