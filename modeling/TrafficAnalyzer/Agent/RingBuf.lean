import Mathlib.Data.Fintype.Basic
import Mathlib.Logic.Function.Basic
import TrafficAnalyzer.Lib.Lts
import TrafficAnalyzer.Lib.Smear

/-!
# The ring buffer (`src/agent/core/ringbuf.c`)

One producer and one consumer share a `ringbuf_t`. A call of `rb_push` loads `head`,
loads `tail`, and either counts an overflow or copies the item into its slot and stores
`head + 1`; `rb_pop` is the mirror image. Every load, every byte of a copy and every
store is a step of its own, and the bytes of a copy come in any order. `size_t` is
`UInt64`, so the indices wrap.

* `nextPow2_pow`: the capacity is a power of two, or 0 when the rounding overflows.
* `ring_inv`: the invariant of all interleavings.
* `ring_spsc`: the popped items are a prefix of the pushed ones, the occupancy stays
  within the capacity, and a call that fails has seen a full or an empty buffer.
-/

namespace TrafficAnalyzer

/-! ## The buffer -/

/-- `next_pow2`. -/
def nextPow2 (n : UInt64) : UInt64 :=
  if n < 2 then 2
  else
    let n := n - 1
    let n := n ||| n >>> 1
    let n := n ||| n >>> 2
    let n := n ||| n >>> 4
    let n := n ||| n >>> 8
    let n := n ||| n >>> 16
    let n := n ||| n >>> 32
    n + 1

/-- The `slot_size` bytes of an item. -/
abbrev Item (slotSize : Nat) := Fin slotSize → UInt8

/-- `ringbuf_t`, with one function for the slot array. -/
structure Ringbuf (slotSize : Nat) where
  capacity : UInt64
  mask : UInt64
  slots : Nat → Item slotSize
  head : UInt64
  tail : UInt64
  overflowCount : UInt64

variable {slotSize : Nat}

/-- `rb_init`; `allocated` is whether `calloc` succeeds. -/
def rbInit (capacity : UInt64) (allocated : Bool) : Option (Ringbuf slotSize) :=
  let cap := nextPow2 capacity
  if allocated then
    some { capacity := cap, mask := cap - 1, slots := fun _ _ => 0, head := 0, tail := 0,
           overflowCount := 0 }
  else none

/-- The slot of the position `pos`: `pos & mask`. -/
def Ringbuf.index (rb : Ringbuf slotSize) (pos : UInt64) : Nat := (pos &&& rb.mask).toNat

/-! ## The threads -/

/-- Where the producer is inside `rb_push`. `full` is past the comparison that found no
room. -/
inductive Producer (slotSize : Nat)
  | idle
  | called (item : Item slotSize)
  | loadedHead (item : Item slotSize) (head : UInt64)
  | full
  | copying (item : Item slotSize) (head : UInt64) (done : List (Fin slotSize))

/-- Where the consumer is inside `rb_pop`. `empty` is past the comparison that found
nothing. -/
inductive Consumer (slotSize : Nat)
  | idle
  | called
  | loadedTail (tail : UInt64)
  | empty
  | copying (tail : UInt64) (out : Item slotSize) (done : List (Fin slotSize))

structure RingState (slotSize : Nat) where
  rb : Ringbuf slotSize
  producer : Producer slotSize
  consumer : Consumer slotSize

/-- The steps of `rb_push` and `rb_pop`. `pushReject` is the overflow count and the
return of -1, `pushReturn` the store of `head` and the return of 0. -/
inductive RingLabel (slotSize : Nat)
  | pushCall (item : Item slotSize)
  | pushLoadHead
  | pushLoadTail
  | pushReject
  | pushCopy (i : Fin slotSize)
  | pushReturn
  | popCall
  | popLoadTail
  | popLoadHead
  | popReject
  | popCopy (i : Fin slotSize)
  | popReturn

/-- One byte of the copy into slot `k`. -/
def Ringbuf.write (rb : Ringbuf slotSize) (k : Nat) (i : Fin slotSize) (b : UInt8) :
    Ringbuf slotSize :=
  { rb with slots := Function.update rb.slots k (Function.update (rb.slots k) i b) }

def ringStep (s : RingState slotSize) : RingLabel slotSize → Option (RingState slotSize)
  | .pushCall item =>
    match s.producer with
    | .idle => some { s with producer := .called item }
    | _ => none
  | .pushLoadHead =>
    match s.producer with
    | .called item => some { s with producer := .loadedHead item s.rb.head }
    | _ => none
  | .pushLoadTail =>
    match s.producer with
    | .loadedHead item head =>
      some { s with
        producer := if s.rb.capacity ≤ head - s.rb.tail then .full else .copying item head [] }
    | _ => none
  | .pushReject =>
    match s.producer with
    | .full =>
      some { s with
        rb := { s.rb with overflowCount := s.rb.overflowCount + 1 }
        producer := .idle }
    | _ => none
  | .pushCopy i =>
    match s.producer with
    | .copying item head done =>
      if i ∈ done then none
      else
        some { s with
          rb := s.rb.write (s.rb.index head) i (item i)
          producer := .copying item head (i :: done) }
    | _ => none
  | .pushReturn =>
    match s.producer with
    | .copying _ head done =>
      if ∀ i, i ∈ done then some { s with rb := { s.rb with head := head + 1 }, producer := .idle }
      else none
    | _ => none
  | .popCall =>
    match s.consumer with
    | .idle => some { s with consumer := .called }
    | _ => none
  | .popLoadTail =>
    match s.consumer with
    | .called => some { s with consumer := .loadedTail s.rb.tail }
    | _ => none
  | .popLoadHead =>
    match s.consumer with
    | .loadedTail tail =>
      some { s with
        consumer := if tail = s.rb.head then .empty else .copying tail (fun _ => 0) [] }
    | _ => none
  | .popReject =>
    match s.consumer with
    | .empty => some { s with consumer := .idle }
    | _ => none
  | .popCopy i =>
    match s.consumer with
    | .copying tail out done =>
      if i ∈ done then none
      else
        some { s with
          consumer :=
            .copying tail (Function.update out i (s.rb.slots (s.rb.index tail) i)) (i :: done) }
    | _ => none
  | .popReturn =>
    match s.consumer with
    | .copying tail _ done =>
      if ∀ i, i ∈ done then some { s with rb := { s.rb with tail := tail + 1 }, consumer := .idle }
      else none
    | _ => none

/-- The steps by what they need and what they change. -/
inductive RingMove : RingState slotSize → RingLabel slotSize → RingState slotSize → Prop
  | pushCall {rb co item} : RingMove ⟨rb, .idle, co⟩ (.pushCall item) ⟨rb, .called item, co⟩
  | pushLoadHead {rb co item} :
      RingMove ⟨rb, .called item, co⟩ .pushLoadHead ⟨rb, .loadedHead item rb.head, co⟩
  | pushFull {rb co item head} : rb.capacity ≤ head - rb.tail →
      RingMove ⟨rb, .loadedHead item head, co⟩ .pushLoadTail ⟨rb, .full, co⟩
  | pushRoom {rb co item head} : ¬ rb.capacity ≤ head - rb.tail →
      RingMove ⟨rb, .loadedHead item head, co⟩ .pushLoadTail ⟨rb, .copying item head [], co⟩
  | pushReject {rb co} :
      RingMove ⟨rb, .full, co⟩ .pushReject
        ⟨{ rb with overflowCount := rb.overflowCount + 1 }, .idle, co⟩
  | pushCopy {rb co item head done i} : i ∉ done →
      RingMove ⟨rb, .copying item head done, co⟩ (.pushCopy i)
        ⟨rb.write (rb.index head) i (item i), .copying item head (i :: done), co⟩
  | pushReturn {rb co item head done} : (∀ i, i ∈ done) →
      RingMove ⟨rb, .copying item head done, co⟩ .pushReturn
        ⟨{ rb with head := head + 1 }, .idle, co⟩
  | popCall {rb pr} : RingMove ⟨rb, pr, .idle⟩ .popCall ⟨rb, pr, .called⟩
  | popLoadTail {rb pr} : RingMove ⟨rb, pr, .called⟩ .popLoadTail ⟨rb, pr, .loadedTail rb.tail⟩
  | popEmpty {rb pr tail} : tail = rb.head →
      RingMove ⟨rb, pr, .loadedTail tail⟩ .popLoadHead ⟨rb, pr, .empty⟩
  | popItem {rb pr tail} : tail ≠ rb.head →
      RingMove ⟨rb, pr, .loadedTail tail⟩ .popLoadHead ⟨rb, pr, .copying tail (fun _ => 0) []⟩
  | popReject {rb pr} : RingMove ⟨rb, pr, .empty⟩ .popReject ⟨rb, pr, .idle⟩
  | popCopy {rb pr tail out done i} : i ∉ done →
      RingMove ⟨rb, pr, .copying tail out done⟩ (.popCopy i)
        ⟨rb, pr, .copying tail (Function.update out i (rb.slots (rb.index tail) i)) (i :: done)⟩
  | popReturn {rb pr tail out done} : (∀ i, i ∈ done) →
      RingMove ⟨rb, pr, .copying tail out done⟩ .popReturn
        ⟨{ rb with tail := tail + 1 }, pr, .idle⟩

/-- Inversion of the step function, which every invariant goes through. -/
theorem ringStep_move {s s' : RingState slotSize} {l : RingLabel slotSize}
    (h : ringStep s l = some s') : RingMove s l s' := by
  obtain ⟨rb, pr, co⟩ := s
  cases l with
  | pushLoadTail =>
    simp only [ringStep] at h
    split at h <;> cases h
    split
    · next hfull => exact .pushFull hfull
    · next hroom => exact .pushRoom hroom
  | popLoadHead =>
    simp only [ringStep] at h
    split at h <;> cases h
    split
    · next hempty => exact .popEmpty hempty
    · next hitem => exact .popItem hitem
  | pushCopy i =>
    simp only [ringStep] at h
    split at h
    · split at h <;> cases h
      next hi => exact .pushCopy hi
    · cases h
  | popCopy i =>
    simp only [ringStep] at h
    split at h
    · split at h <;> cases h
      next hi => exact .popCopy hi
    · cases h
  | pushReturn =>
    simp only [ringStep] at h
    split at h
    · split at h <;> cases h
      next hall => exact .pushReturn hall
    · cases h
  | popReturn =>
    simp only [ringStep] at h
    split at h
    · split at h <;> cases h
      next hall => exact .popReturn hall
    · cases h
  | _ =>
    simp only [ringStep] at h
    split at h
    · cases h
      constructor
    · cases h

theorem move_ringStep {s s' : RingState slotSize} {l : RingLabel slotSize}
    (h : RingMove s l s') : ringStep s l = some s' := by
  cases h <;> simp [ringStep, *]

/-- A buffer that `rb_init` made, with both indices at `start`, and no call running. -/
def IsStart (capacity start : UInt64) (s : RingState slotSize) : Prop :=
  ∃ rb, rbInit capacity true = some rb ∧
    s = ⟨{ rb with head := start, tail := start }, .idle, .idle⟩

def ringLts (slotSize : Nat) : Lts (RingState slotSize) (RingLabel slotSize) where
  init s := ∃ capacity start, IsStart capacity start s
  step := ringStep

abbrev RingStep (slotSize : Nat) := Lts.Step (RingState slotSize) (RingLabel slotSize)

/-- The item of a push that returns 0 in this step. -/
def RingStep.pushed (x : RingStep slotSize) : Option (Item slotSize) :=
  match x.label, x.before.producer with
  | .pushReturn, .copying item _ _ => some item
  | _, _ => none

/-- The item of a pop that returns 0 in this step. -/
def RingStep.popped (x : RingStep slotSize) : Option (Item slotSize) :=
  match x.label, x.before.consumer with
  | .popReturn, .copying _ out _ => some out
  | _, _ => none

def pushed (tr : List (RingStep slotSize)) : List (Item slotSize) := tr.filterMap RingStep.pushed
def popped (tr : List (RingStep slotSize)) : List (Item slotSize) := tr.filterMap RingStep.popped

/-! ## The capacity -/

/-- The value after the six smearing steps. -/
theorem nextPow2_smeared {n : UInt64} (h : ¬ n < 2) :
    ∃ y : UInt64, nextPow2 n = y + 1 ∧ Smeared 64 (n - 1).toNat y.toNat := by
  refine ⟨_, if_neg h, ?_⟩
  have h1 := (Smeared.one (n - 1).toNat).double.double.double.double.double.double
  simpa using h1

/-- From 2 on: the power of two above the highest set bit of `n - 1`, as a `size_t`. -/
theorem nextPow2_toNat {n : UInt64} (h : ¬ n < 2) :
    1 < n.toNat ∧ (nextPow2 n).toNat = 2 ^ ((n.toNat - 1).log2 + 1) % 2 ^ 64 := by
  obtain ⟨y, hy, hs⟩ := nextPow2_smeared h
  have hn : 2 ≤ n.toNat := Nat.le_of_not_lt fun hlt => h (UInt64.lt_iff_toNat_lt.mpr hlt)
  have hsub : (n - 1).toNat = n.toNat - 1 :=
    UInt64.toNat_sub_of_le _ _ (UInt64.le_iff_toNat_le.mpr (Nat.le_trans (by decide) hn))
  have hyv := hs.eq (n - 1).toNat_lt (by omega)
  rw [hy, UInt64.toNat_add, hyv, hsub, UInt64.toNat_one, Nat.sub_add_cancel Nat.one_le_two_pow]
  exact ⟨hn, rfl⟩

/-- The capacity is a power of two, or 0 when the rounding overflows. -/
theorem nextPow2_pow (n : UInt64) :
    nextPow2 n = 0 ∨ ∃ k, k < 64 ∧ (nextPow2 n).toNat = 2 ^ k := by
  by_cases h : n < 2
  · exact .inr ⟨1, by decide, by rw [nextPow2, if_pos h]; rfl⟩
  · obtain ⟨hn, hval⟩ := nextPow2_toNat h
    have hlog : (n.toNat - 1).log2 < 64 :=
      (Nat.log2_lt (by omega)).mpr (Nat.lt_of_le_of_lt (Nat.sub_le _ _) n.toNat_lt)
    by_cases htop : (n.toNat - 1).log2 = 63
    · left
      rw [htop] at hval
      exact UInt64.toNat_inj.mp (by simpa using hval)
    · right
      refine ⟨(n.toNat - 1).log2 + 1, by omega, ?_⟩
      rw [hval, Nat.mod_eq_of_lt (Nat.pow_lt_pow_right (by decide) (by omega))]

/-- The slot of a position in a buffer of capacity `cap`. -/
def slotOf (cap pos : UInt64) : Nat := (pos &&& (cap - 1)).toNat

/-- Masking is the remainder by the capacity, across the wrap of `size_t`. -/
theorem slotOf_add {cap : UInt64} {k : Nat} (hk : k < 64) (hcap : cap.toNat = 2 ^ k)
    (start : UInt64) (j : Nat) :
    slotOf cap (start + UInt64.ofNat j) = (start.toNat + j) % 2 ^ k := by
  have hle : (1 : UInt64) ≤ cap := by
    rw [UInt64.le_iff_toNat_le, hcap]
    exact Nat.one_le_two_pow
  have hdvd : 2 ^ k ∣ 2 ^ 64 := Nat.pow_dvd_pow 2 (by omega)
  rw [slotOf, UInt64.toNat_and, UInt64.toNat_sub_of_le _ _ hle, hcap, UInt64.toNat_one,
    Nat.and_two_pow_sub_one_eq_mod, UInt64.toNat_add, UInt64.toNat_ofNat', Nat.mod_mod_of_dvd _ hdvd,
    Nat.add_mod, Nat.mod_mod_of_dvd _ hdvd, ← Nat.add_mod]

/-- Positions less than a capacity apart have different slots. -/
theorem slotOf_ne {cap : UInt64} {k : Nat} (hk : k < 64) (hcap : cap.toNat = 2 ^ k)
    (start : UInt64) {a b : Nat} (hab : a < b) (hb : b < a + cap.toNat) :
    slotOf cap (start + UInt64.ofNat a) ≠ slotOf cap (start + UInt64.ofNat b) := by
  rw [slotOf_add hk hcap, slotOf_add hk hcap]
  intro h
  have hzero := Nat.sub_mod_eq_zero_of_mod_eq h.symm
  rw [show start.toNat + b - (start.toNat + a) = b - a by omega,
    Nat.mod_eq_of_lt (by omega)] at hzero
  omega

/-- The unsigned difference of two positions is their distance. -/
theorem sub_positions (start : UInt64) {c p : Nat} (hcp : c ≤ p) (h : p - c < 2 ^ 64) :
    (start + UInt64.ofNat p - (start + UInt64.ofNat c)).toNat = p - c := by
  rw [UInt64.toNat_sub, UInt64.toNat_add, UInt64.toNat_add, UInt64.toNat_ofNat',
    UInt64.toNat_ofNat']
  omega

theorem position_succ (start : UInt64) (p : Nat) :
    start + UInt64.ofNat p + 1 = start + UInt64.ofNat (p + 1) := by
  rw [UInt64.ofNat_add, UInt64.add_assoc]
  rfl

theorem position_inj (start : UInt64) {c p : Nat} (hcp : c ≤ p) (h : p - c < 2 ^ 64) :
    start + UInt64.ofNat c = start + UInt64.ofNat p ↔ c = p := by
  constructor
  · intro he
    have hsub := sub_positions start hcp h
    rw [← he, UInt64.sub_self] at hsub
    have : (0 : UInt64).toNat = 0 := rfl
    omega
  · rintro rfl
    rfl

/-! ## The invariant -/

/-- The capacities that `rb_init` produces. -/
def CapOk (cap : UInt64) : Prop := cap = 0 ∨ ∃ k, k < 64 ∧ cap.toNat = 2 ^ k

/-- What the producer relies on, with `p` items pushed and `c` popped: its copy of `head`
is current, there is room, and the copied bytes are in the slot. -/
def ProducerOk (cap : UInt64) (rb : Ringbuf slotSize) (p c : Nat) : Producer slotSize → Prop
  | .loadedHead _ head => head = rb.head
  | .copying item head done =>
    head = rb.head ∧ p < c + cap.toNat ∧ ∀ i ∈ done, rb.slots (slotOf cap head) i = item i
  | _ => True

/-- What the consumer relies on, with the items `P` pushed and `c` popped: its copy of
`tail` is current, an item is there, and the copied bytes are those of the item. -/
def ConsumerOk (rb : Ringbuf slotSize) (P : List (Item slotSize)) (c : Nat) :
    Consumer slotSize → Prop
  | .loadedTail tail => tail = rb.tail
  | .copying tail out done =>
    tail = rb.tail ∧ ∃ item, P[c]? = some item ∧ ∀ i ∈ done, out i = item i
  | _ => True

/-- The invariant, with the items `P` pushed and `C` popped since the start. -/
structure RingInv (cap start : UInt64) (P C : List (Item slotSize)) (s : RingState slotSize) :
    Prop where
  capacity : s.rb.capacity = cap
  mask : s.rb.mask = cap - 1
  head : s.rb.head = start + UInt64.ofNat P.length
  tail : s.rb.tail = start + UInt64.ofNat C.length
  fifo : C <+: P
  bound : P.length ≤ C.length + cap.toNat
  stored : ∀ j item, C.length ≤ j → P[j]? = some item →
    s.rb.slots (slotOf cap (start + UInt64.ofNat j)) = item
  producer : ProducerOk cap s.rb P.length C.length s.producer
  consumer : ConsumerOk s.rb P C.length s.consumer

section Invariant

variable {cap start : UInt64} {P C : List (Item slotSize)} {s s' : RingState slotSize}

theorem RingInv.index (h : RingInv cap start P C s) (pos : UInt64) :
    s.rb.index pos = slotOf cap pos := by
  rw [Ringbuf.index, h.mask, slotOf]

theorem RingInv.dist_lt (h : RingInv cap start P C s) : P.length - C.length < 2 ^ 64 := by
  have := h.bound
  have := cap.toNat_lt
  omega

/-- The consumer moves only forward, so room stays room. -/
theorem ProducerOk.popped {rb : Ringbuf slotSize} {p c : Nat} {t : UInt64}
    {pr : Producer slotSize} (h : ProducerOk cap rb p c pr) :
    ProducerOk cap { rb with tail := t } p (c + 1) pr := by
  cases pr with
  | copying item head done => exact ⟨h.1, by have := h.2.1; omega, h.2.2⟩
  | loadedHead item head => exact h
  | _ => trivial

/-- The producer only appends, so an item that is there stays there. -/
theorem ConsumerOk.pushed {rb : Ringbuf slotSize} {c : Nat} {t : UInt64} {item : Item slotSize}
    {co : Consumer slotSize} (h : ConsumerOk rb P c co) :
    ConsumerOk { rb with head := t } (P ++ [item]) c co := by
  cases co with
  | copying tail out done =>
    obtain ⟨htail, x, hx, hdone⟩ := h
    have hlt := (List.getElem?_eq_some_iff.mp hx).1
    exact ⟨htail, x, by rwa [List.getElem?_append_left hlt], hdone⟩
  | loadedTail tail => exact h
  | _ => trivial

/-- A byte of the producer's copy lands in no slot that holds a pushed item. -/
theorem RingInv.write (hcap : CapOk cap) (h : RingInv cap start P C s)
    (hroom : P.length < C.length + cap.toNat) (i : Fin slotSize) (b : UInt8) {j : Nat}
    {item : Item slotSize} (hj : C.length ≤ j) (hp : P[j]? = some item) :
    (s.rb.write (slotOf cap s.rb.head) i b).slots (slotOf cap (start + UInt64.ofNat j)) = item := by
  have hlt := (List.getElem?_eq_some_iff.mp hp).1
  rcases hcap with rfl | ⟨k, hk, hpow⟩
  · have h0 : (0 : UInt64).toNat = 0 := rfl
    omega
  · have hne := slotOf_ne hk hpow start hlt (by omega)
    rw [h.head]
    exact (Function.update_of_ne hne _ _).trans (h.stored j item hj hp)

/-- The bytes that are copied stay equal when one more of them is. -/
theorem copied_update {f g : Item slotSize} {done : List (Fin slotSize)} (i : Fin slotSize)
    (h : ∀ k ∈ done, f k = g k) : ∀ k ∈ i :: done, Function.update f i (g i) k = g k := by
  intro k hk
  rcases Decidable.em (k = i) with rfl | hne
  · rw [Function.update_self]
  · rw [Function.update_of_ne hne]
    exact h k ((List.mem_cons.mp hk).resolve_left hne)

section Step

variable {rb : Ringbuf slotSize} {pr : Producer slotSize} {co : Consumer slotSize}
  {item out : Item slotSize} {head tail : UInt64} {done : List (Fin slotSize)}

/-- A producer that does not see a full buffer has room, whatever the consumer does next. -/
theorem RingInv.pushRoom (h : RingInv cap start P C ⟨rb, .loadedHead item head, co⟩)
    (hroom : ¬ rb.capacity ≤ head - rb.tail) :
    RingInv cap start P C ⟨rb, .copying item head [], co⟩ := by
  have hhead : head = rb.head := h.producer
  rw [hhead, h.head, h.tail, h.capacity, UInt64.le_iff_toNat_le,
    sub_positions start h.fifo.length_le h.dist_lt] at hroom
  exact { h with producer := ⟨hhead, by omega, by simp⟩ }

theorem RingInv.pushCopy (hcap : CapOk cap)
    (h : RingInv cap start P C ⟨rb, .copying item head done, co⟩) (i : Fin slotSize) :
    RingInv cap start P C
      ⟨rb.write (rb.index head) i (item i), .copying item head (i :: done), co⟩ := by
  obtain ⟨hhead, hroom, hdone⟩ := h.producer
  have hhead : head = rb.head := hhead
  subst hhead
  rw [h.index]
  refine ⟨h.1, h.2, h.3, h.4, h.5, h.6, fun j it hj hit => h.write hcap hroom i _ hj hit,
    ⟨rfl, hroom, ?_⟩, h.9⟩
  simp only [Ringbuf.write, Function.update_self]
  exact copied_update i hdone

/-- The push returns 0: the item of its call is the last one pushed. -/
theorem RingInv.pushReturn (h : RingInv cap start P C ⟨rb, .copying item head done, co⟩)
    (hall : ∀ i, i ∈ done) :
    RingInv cap start (P ++ [item]) C ⟨{ rb with head := head + 1 }, .idle, co⟩ := by
  obtain ⟨hhead, hroom, hdone⟩ := h.producer
  have hhead : head = rb.head := hhead
  subst hhead
  refine ⟨h.1, h.2, ?_, h.4, h.5.trans (List.prefix_append _ _), ?_, ?_, trivial, h.9.pushed⟩
  · rw [h.head, position_succ, List.length_append, List.length_singleton]
  · rw [List.length_append, List.length_singleton]
    omega
  · intro j it hj hit
    rcases Nat.lt_or_ge j P.length with hlt | hge
    · rw [List.getElem?_append_left hlt] at hit
      exact h.stored j it hj hit
    · -- the new item: every byte has been copied
      have hjlt := (List.getElem?_eq_some_iff.mp hit).1
      rw [List.length_append, List.length_singleton] at hjlt
      obtain rfl : j = P.length := by omega
      rw [List.getElem?_concat_length, Option.some.injEq] at hit
      subst hit
      funext k
      rw [← h.head]
      exact hdone k (hall k)

/-- A consumer that does not see an empty buffer has an item, whatever the producer does
next. -/
theorem RingInv.popItem (h : RingInv cap start P C ⟨rb, pr, .loadedTail tail⟩)
    (hitem : tail ≠ rb.head) (out : Item slotSize) :
    RingInv cap start P C ⟨rb, pr, .copying tail out []⟩ := by
  have htail : tail = rb.tail := h.consumer
  rw [htail, h.head, h.tail, ne_eq, position_inj start h.fifo.length_le h.dist_lt] at hitem
  have hlt : C.length < P.length := Nat.lt_of_le_of_ne h.fifo.length_le hitem
  exact { h with consumer := ⟨htail, P[C.length], List.getElem?_eq_getElem hlt, by simp⟩ }

theorem RingInv.popCopy (h : RingInv cap start P C ⟨rb, pr, .copying tail out done⟩)
    (i : Fin slotSize) :
    RingInv cap start P C ⟨rb, pr,
      .copying tail (Function.update out i (rb.slots (rb.index tail) i)) (i :: done)⟩ := by
  obtain ⟨htail, item, hitem, hdone⟩ := h.consumer
  have htail : tail = rb.tail := htail
  subst htail
  rw [h.index, h.tail, h.stored C.length item (Nat.le_refl _) hitem]
  exact { h with consumer := ⟨h.tail.symm, item, hitem, copied_update i hdone⟩ }

/-- The pop returns 0: what it copied is the next item that was pushed. -/
theorem RingInv.popReturn (h : RingInv cap start P C ⟨rb, pr, .copying tail out done⟩)
    (hall : ∀ i, i ∈ done) :
    RingInv cap start P (C ++ [out]) ⟨{ rb with tail := tail + 1 }, pr, .idle⟩ := by
  obtain ⟨htail, item, hitem, hdone⟩ := h.consumer
  have htail : tail = rb.tail := htail
  subst htail
  obtain rfl : out = item := funext fun k => hdone k (hall k)
  obtain ⟨rest, rfl⟩ := h.fifo
  rw [List.getElem?_append_right (Nat.le_refl _), Nat.sub_self] at hitem
  obtain ⟨tl, rfl⟩ : ∃ tl, rest = out :: tl := List.head?_eq_some_iff.mp
    (by rw [List.head?_eq_getElem?]; exact hitem)
  refine ⟨h.1, h.2, h.3, ?_, ⟨tl, by simp⟩, ?_, fun j it hj hit => ?_, ?_, trivial⟩
  · rw [h.tail, position_succ, List.length_append, List.length_singleton]
  · have := h.bound
    simp only [List.length_append, List.length_singleton] at *
    omega
  · rw [List.length_append, List.length_singleton] at hj
    exact h.stored j it (by omega) hit
  · have hout : (C ++ [out]).length = C.length + 1 := by simp
    rw [hout]
    exact h.producer.popped

end Step

/-- The step lemma: every step keeps the invariant, with the item of a push or a pop that
returns 0 appended to its list. -/
theorem ringStep_inv (hcap : CapOk cap) (h : RingInv cap start P C s) {l : RingLabel slotSize}
    (hs : ringStep s l = some s') :
    RingInv cap start (P ++ (RingStep.pushed ⟨s, l, s'⟩).toList)
      (C ++ (RingStep.popped ⟨s, l, s'⟩).toList) s' := by
  cases ringStep_move hs <;>
    simp only [RingStep.pushed, RingStep.popped, Option.toList_none, Option.toList_some,
      List.append_nil]
  case pushCall => exact { h with producer := trivial }
  case pushLoadHead => exact { h with producer := rfl }
  case pushFull => exact { h with producer := trivial }
  case pushRoom hroom => exact h.pushRoom hroom
  -- the invariant does not read the counter
  case pushReject => exact ⟨h.1, h.2, h.3, h.4, h.5, h.6, h.7, trivial, h.9⟩
  case pushCopy i _ => exact h.pushCopy hcap i
  case pushReturn hall => exact h.pushReturn hall
  case popCall => exact { h with consumer := trivial }
  case popLoadTail => exact { h with consumer := rfl }
  case popEmpty => exact { h with consumer := trivial }
  case popItem hitem => exact h.popItem hitem _
  case popReject => exact { h with consumer := trivial }
  case popCopy i _ => exact h.popCopy i
  case popReturn hall => exact h.popReturn hall

end Invariant

/-! ## Runs -/

section Runs

variable {capacity start : UInt64} {s0 s : RingState slotSize} {tr : List (RingStep slotSize)}

/-- The step counts an overflow and returns -1. -/
def RingLabel.isReject : RingLabel slotSize → Bool
  | .pushReject => true
  | _ => false

/-- The pushes that have been rejected. -/
def rejections (tr : List (RingStep slotSize)) : Nat := tr.countP (·.label.isReject)

@[simp] theorem rejections_append (a b : List (RingStep slotSize)) :
    rejections (a ++ b) = rejections a + rejections b := List.countP_append

theorem pushed_snoc (tr : List (RingStep slotSize)) (x : RingStep slotSize) :
    pushed (tr ++ [x]) = pushed tr ++ (RingStep.pushed x).toList := by
  simp only [pushed, List.filterMap_append]
  cases h : RingStep.pushed x <;> simp [h]

theorem popped_snoc (tr : List (RingStep slotSize)) (x : RingStep slotSize) :
    popped (tr ++ [x]) = popped tr ++ (RingStep.popped x).toList := by
  simp only [popped, List.filterMap_append]
  cases h : RingStep.popped x <;> simp [h]

/-- The invariant of every interleaving. -/
theorem ring_inv (h0 : IsStart capacity start s0) (h : Lts.Run (ringLts slotSize) s0 tr s) :
    RingInv (nextPow2 capacity) start (pushed tr) (popped tr) s := by
  induction h with
  | nil =>
    obtain ⟨rb, hrb, rfl⟩ := h0
    simp only [rbInit, ↓reduceIte, Option.some.injEq] at hrb
    subst hrb
    exact ⟨rfl, rfl, by simp [pushed], by simp [popped], List.prefix_refl _, Nat.le_add_right _ _,
      by simp [pushed], trivial, trivial⟩
  | snoc _ hs ih =>
    rw [pushed_snoc, popped_snoc]
    exact ringStep_inv (nextPow2_pow capacity) ih hs

/-- The buffer is full after the steps `tr`: as many items as the capacity are stored. -/
def FullAfter (capacity : UInt64) (tr : List (RingStep slotSize)) : Prop :=
  (pushed tr).length = (popped tr).length + (nextPow2 capacity).toNat

/-- The buffer is empty after the steps `tr`. -/
def EmptyAfter (tr : List (RingStep slotSize)) : Prop := (pushed tr).length = (popped tr).length

/-- The step starts a call of `rb_push`, or of `rb_pop`. -/
def IsPushCall (x : RingStep slotSize) : Prop := ∃ item, x.label = .pushCall item
def IsPopCall (x : RingStep slotSize) : Prop := x.label = .popCall

/-- The producer gets to `full` by the comparison in `pushLoadTail` only. -/
theorem ringStep_full {s s' : RingState slotSize} {l : RingLabel slotSize}
    (hs : ringStep s l = some s') (hp : s'.producer = .full) :
    (s.producer = .full ∧ ∀ item, l ≠ .pushCall item) ∨
      (l = .pushLoadTail ∧ ∃ item head, s.producer = .loadedHead item head ∧
        s.rb.capacity ≤ head - s.rb.tail) := by
  cases ringStep_move hs
  case pushFull item head hfull => exact .inr ⟨rfl, item, head, rfl, hfull⟩
  all_goals first | cases hp; done | exact .inl ⟨hp, by simp⟩

/-- The consumer gets to `empty` by the comparison in `popLoadHead` only. -/
theorem ringStep_empty {s s' : RingState slotSize} {l : RingLabel slotSize}
    (hs : ringStep s l = some s') (hc : s'.consumer = .empty) :
    (s.consumer = .empty ∧ l ≠ .popCall) ∨
      (l = .popLoadHead ∧ ∃ tail, s.consumer = .loadedTail tail ∧ tail = s.rb.head) := by
  cases ringStep_move hs
  case popEmpty tail hempty => exact .inr ⟨rfl, tail, rfl, hempty⟩
  all_goals first | cases hc; done | exact .inl ⟨hc, by simp⟩

/-- A producer that has found no room has seen the buffer full since its call began. -/
theorem full_seen (h0 : IsStart capacity start s0) (h : Lts.Run (ringLts slotSize) s0 tr s)
    (hp : s.producer = .full) :
    ∃ a b, tr = a ++ b ∧ FullAfter capacity a ∧ ∀ x ∈ b, ¬ IsPushCall x := by
  induction h with
  | nil =>
    obtain ⟨rb, _, rfl⟩ := h0
    cases hp
  | @snoc tr s s' l hrun hs ih =>
    rcases ringStep_full hs hp with ⟨hfull, hcall⟩ | ⟨rfl, item, head, hpr, hcap⟩
    · obtain ⟨a, b, rfl, ha, hb⟩ := ih hfull
      refine ⟨a, b ++ [⟨s, l, s'⟩], by simp, ha, fun x hx => ?_⟩
      rcases List.mem_append.mp hx with hx | hx
      · exact hb x hx
      · rw [List.mem_singleton.mp hx]
        exact fun ⟨item, hi⟩ => hcall item hi
    · refine ⟨tr, [⟨s, .pushLoadTail, s'⟩], rfl, ?_, fun x hx => ?_⟩
      · have hinv := ring_inv h0 hrun
        have hhead := hinv.producer
        rw [hpr] at hhead
        rw [show head = s.rb.head from hhead, hinv.head, hinv.tail, hinv.capacity,
          UInt64.le_iff_toNat_le, sub_positions start hinv.fifo.length_le hinv.dist_lt] at hcap
        have hbound := hinv.bound
        have hle := hinv.fifo.length_le
        unfold FullAfter
        omega
      · rw [List.mem_singleton.mp hx]
        rintro ⟨item, hi⟩
        cases hi

/-- A consumer that has found nothing has seen the buffer empty since its call began. -/
theorem empty_seen (h0 : IsStart capacity start s0) (h : Lts.Run (ringLts slotSize) s0 tr s)
    (hc : s.consumer = .empty) :
    ∃ a b, tr = a ++ b ∧ EmptyAfter a ∧ ∀ x ∈ b, ¬ IsPopCall x := by
  induction h with
  | nil =>
    obtain ⟨rb, _, rfl⟩ := h0
    cases hc
  | @snoc tr s s' l hrun hs ih =>
    rcases ringStep_empty hs hc with ⟨hempty, hcall⟩ | ⟨rfl, tail, hco, htail⟩
    · obtain ⟨a, b, rfl, ha, hb⟩ := ih hempty
      refine ⟨a, b ++ [⟨s, l, s'⟩], by simp, ha, fun x hx => ?_⟩
      rcases List.mem_append.mp hx with hx | hx
      · exact hb x hx
      · rw [List.mem_singleton.mp hx]
        exact hcall
    · refine ⟨tr, [⟨s, .popLoadHead, s'⟩], rfl, ?_, fun x hx => ?_⟩
      · have hinv := ring_inv h0 hrun
        have hcur := hinv.consumer
        rw [hco] at hcur
        have heq : s.rb.tail = s.rb.head := (show tail = s.rb.tail from hcur) ▸ htail
        rw [hinv.head, hinv.tail, position_inj start hinv.fifo.length_le hinv.dist_lt] at heq
        exact heq.symm
      · rw [List.mem_singleton.mp hx]
        exact fun hcall => by cases hcall

theorem ringStep_overflow {s s' : RingState slotSize} {l : RingLabel slotSize}
    (hs : ringStep s l = some s') :
    s'.rb.overflowCount = s.rb.overflowCount + UInt64.ofNat (if l.isReject then 1 else 0) := by
  cases ringStep_move hs
  case pushReject => rfl
  all_goals exact (UInt64.add_zero _).symm

/-- The overflow counter counts the rejections modulo `2^64`. -/
theorem overflow_rejections (h0 : IsStart capacity start s0)
    (h : Lts.Run (ringLts slotSize) s0 tr s) :
    s.rb.overflowCount = UInt64.ofNat (rejections tr) := by
  induction h with
  | nil =>
    obtain ⟨rb, hrb, rfl⟩ := h0
    simp only [rbInit, ↓reduceIte, Option.some.injEq] at hrb
    subst hrb
    rfl
  | snoc _ hs ih =>
    rw [ringStep_overflow hs, ih, rejections_append, UInt64.ofNat_add]
    simp only [rejections, List.countP_singleton]

/-- The last part of a list that avoids `p` starts after every element with `p`. -/
theorem split_before {α : Type} {p : α → Prop} {xs zs a b : List α} {y : α}
    (h : xs ++ y :: zs = a ++ b) (hy : p y) (hb : ∀ x ∈ b, ¬ p x) :
    ∃ a', a = xs ++ y :: a' ∧ zs = a' ++ b := by
  rcases List.append_eq_append_iff.mp h with ⟨c, rfl, hc⟩ | ⟨c, rfl, rfl⟩
  · cases c with
    | nil => exact absurd hy (hb y (by rw [List.nil_append] at hc; simp [← hc]))
    | cons z c =>
      obtain ⟨rfl, rfl⟩ := List.cons.inj hc
      exact ⟨c, rfl, rfl⟩
  · exact absurd hy (hb y (by simp))

theorem producer_of_reject {s s' : RingState slotSize} (hs : ringStep s .pushReject = some s') :
    s.producer = .full := by
  cases ringStep_move hs
  rfl

theorem consumer_of_reject {s s' : RingState slotSize} (hs : ringStep s .popReject = some s') :
    s.consumer = .empty := by
  cases ringStep_move hs
  rfl

/-- Between the call of a rejected push and its return the buffer was full. -/
theorem push_saw_full {pre mid post : List (RingStep slotSize)} {call rej : RingStep slotSize}
    (h0 : IsStart capacity start s0)
    (h : Lts.Run (ringLts slotSize) s0 (pre ++ call :: (mid ++ rej :: post)) s)
    (hcall : IsPushCall call) (hrej : rej.label = .pushReject) :
    ∃ a b, mid = a ++ b ∧ FullAfter capacity (pre ++ call :: a) := by
  rw [← List.cons_append, ← List.append_assoc] at h
  obtain ⟨hrun, hs, _⟩ := h.around
  rw [hrej] at hs
  obtain ⟨a, b, hab, hfull, hb⟩ := full_seen h0 hrun (producer_of_reject hs)
  obtain ⟨a', rfl, hmid⟩ := split_before hab hcall hb
  exact ⟨a', b, hmid, hfull⟩

/-- Between the call of a failed pop and its return the buffer was empty. -/
theorem pop_saw_empty {pre mid post : List (RingStep slotSize)} {call rej : RingStep slotSize}
    (h0 : IsStart capacity start s0)
    (h : Lts.Run (ringLts slotSize) s0 (pre ++ call :: (mid ++ rej :: post)) s)
    (hcall : IsPopCall call) (hrej : rej.label = .popReject) :
    ∃ a b, mid = a ++ b ∧ EmptyAfter (pre ++ call :: a) := by
  rw [← List.cons_append, ← List.append_assoc] at h
  obtain ⟨hrun, hs, _⟩ := h.around
  rw [hrej] at hs
  obtain ⟨a, b, hab, hempty, hb⟩ := empty_seen h0 hrun (consumer_of_reject hs)
  obtain ⟨a', rfl, hmid⟩ := split_before hab hcall hb
  exact ⟨a', b, hmid, hempty⟩

/-- The buffer in every interleaving of one producer and one consumer, from any equal
start of the indices: FIFO without loss, duplication or torn slots, an occupancy within
the capacity, failures only for a reason seen during the call, and the overflow count up
to the wrap of its 64 bits. -/
theorem ring_spsc (h0 : IsStart capacity start s0) (h : Lts.Run (ringLts slotSize) s0 tr s) :
    popped tr <+: pushed tr ∧
      (pushed tr).length - (popped tr).length ≤ (nextPow2 capacity).toNat ∧
      (∀ pre call mid rej post, tr = pre ++ call :: (mid ++ rej :: post) → IsPushCall call →
        rej.label = .pushReject → ∃ a b, mid = a ++ b ∧ FullAfter capacity (pre ++ call :: a)) ∧
      (∀ pre call mid rej post, tr = pre ++ call :: (mid ++ rej :: post) → IsPopCall call →
        rej.label = .popReject → ∃ a b, mid = a ++ b ∧ EmptyAfter (pre ++ call :: a)) ∧
      s.rb.overflowCount = UInt64.ofNat (rejections tr) := by
  have hinv := ring_inv h0 h
  refine ⟨hinv.fifo, by have := hinv.bound; omega, ?_, ?_, overflow_rejections h0 h⟩
  · rintro pre call mid rej post rfl hcall hrej
    exact push_saw_full h0 h hcall hrej
  · rintro pre call mid rej post rfl hcall hrej
    exact pop_saw_empty h0 h hcall hrej

end Runs

/-! ## Two runs -/

/-- The steps of a push and of a pop that succeed. -/
def pushLabels (item : Item 1) : List (RingLabel 1) :=
  [.pushCall item, .pushLoadHead, .pushLoadTail, .pushCopy 0, .pushReturn]
def popLabels : List (RingLabel 1) := [.popCall, .popLoadTail, .popLoadHead, .popCopy 0, .popReturn]

/-- A buffer of two slots of one byte. -/
def twoSlots (start : UInt64) : RingState 1 :=
  ⟨{ capacity := 2, mask := 1, slots := fun _ _ => 0, head := start, tail := start,
     overflowCount := 0 }, .idle, .idle⟩

theorem twoSlots_isStart (start : UInt64) : IsStart 2 start (twoSlots start) := ⟨_, rfl, rfl⟩

/-- One item through a buffer whose indices wrap. -/
theorem ring_spsc_wrap :
    ∃ (s : RingState 1) (tr : List (RingStep 1)),
      Lts.Run (ringLts 1) (twoSlots (-1)) tr s ∧ s.rb.head = 0 ∧ (pushed tr).length = 1 ∧
        (popped tr).length = 1 ∧ popped tr <+: pushed tr := by
  have hok : ((ringLts 1).exec (twoSlots (-1)) (pushLabels (fun _ => 7) ++ popLabels)).map
      (fun r => (r.2.rb.head, (pushed r.1).length, (popped r.1).length)) = some (0, 1, 1) := by
    decide +kernel
  obtain ⟨tr, s, hrun, hval⟩ := Lts.run_of_exec hok
  simp only [Prod.mk.injEq] at hval
  exact ⟨s, tr, hrun, hval.1, hval.2.1, hval.2.2, (ring_spsc (twoSlots_isStart _) hrun).1⟩

theorem ringRun_snoc {s t u : RingState slotSize} {tr : List (RingStep slotSize)}
    {l : RingLabel slotSize} (h : Lts.Run (ringLts slotSize) s tr t) (hm : RingMove t l u) :
    Lts.Run (ringLts slotSize) s (tr ++ [⟨t, l, u⟩]) u :=
  h.snoc (move_ringStep hm)

/-- `k` rejected pushes from a full buffer. -/
theorem reject_cycle {s : RingState slotSize} (hidle : s.producer = .idle)
    (hfull : s.rb.capacity ≤ s.rb.head - s.rb.tail) (item : Item slotSize) (k : Nat) :
    ∃ tr t, Lts.Run (ringLts slotSize) s tr t ∧ rejections tr = k ∧ t.producer = .idle ∧
      t.rb.capacity ≤ t.rb.head - t.rb.tail := by
  induction k with
  | zero => exact ⟨[], s, .nil, rfl, hidle, hfull⟩
  | succ k ih =>
    obtain ⟨tr, ⟨rb, pr, co⟩, hrun, hk, rfl, hfull'⟩ := ih
    have h1 := ringRun_snoc hrun (l := .pushCall item) .pushCall
    have h2 := ringRun_snoc h1 .pushLoadHead
    have h3 := ringRun_snoc h2 (.pushFull hfull')
    refine ⟨_, _, ringRun_snoc h3 .pushReject, ?_, rfl, hfull'⟩
    simp only [rejections_append, hk]
    rfl

def Producer.isIdle : Producer slotSize → Bool
  | .idle => true
  | _ => false

/-- After `2^64` rejected pushes the overflow counter reads 0. -/
theorem overflow_wraps :
    ∃ (s : RingState 1) (tr : List (RingStep 1)),
      Lts.Run (ringLts 1) (twoSlots 0) tr s ∧ rejections tr = 2 ^ 64 ∧
        s.rb.overflowCount.toNat ≠ rejections tr := by
  have hok : ((ringLts 1).exec (twoSlots 0) (pushLabels (fun _ => 1) ++ pushLabels (fun _ => 2))).map
      (fun r => (r.2.producer.isIdle, decide (r.2.rb.capacity ≤ r.2.rb.head - r.2.rb.tail),
        rejections r.1)) = some (true, true, 0) := by decide +kernel
  obtain ⟨tr0, s0, hstart, hval⟩ := Lts.run_of_exec hok
  simp only [Prod.mk.injEq, decide_eq_true_eq] at hval
  obtain ⟨hidle, hfull, hnone⟩ := hval
  have hidle : s0.producer = .idle := by
    cases hp : s0.producer <;> simp_all [Producer.isIdle]
  obtain ⟨tr, s, hrun, hk, _⟩ := reject_cycle hidle hfull (fun _ => 3) (2 ^ 64)
  have hall := hstart.append hrun
  have hcount : rejections (tr0 ++ tr) = 2 ^ 64 := by
    rw [rejections_append, hnone, hk, Nat.zero_add]
  refine ⟨s, _, hall, hcount, ?_⟩
  rw [overflow_rejections (twoSlots_isStart 0) hall, hcount]
  decide

end TrafficAnalyzer
