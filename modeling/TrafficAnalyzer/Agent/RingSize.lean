import TrafficAnalyzer.Agent.RingBuf

/-!
# The depth that `rb_size` reads

`rb_size` loads `head` and then `tail`, and subtracts the two as `size_t`. The metrics
thread calls it beside the producer and the consumer, and both may move between the loads.

* `size_le_iff`: the value is at most the capacity exactly when the consumer has not taken
  more items between the loads than the buffer held at the first one.
* `size_wraps`: one push and one pop between the loads of an empty buffer give `2^64 - 1`.
-/

namespace TrafficAnalyzer

variable {slotSize : Nat}

/-! ## Three threads -/

/-- Where the third thread is inside `rb_size`. -/
inductive Sizer
  | idle
  | called
  | loadedHead (head : UInt64)

/-- The buffer with its two threads, and the thread that reads its size. -/
structure SizedRing (slotSize : Nat) where
  ring : RingState slotSize
  sizer : Sizer

/-- The steps of the three threads; `sizeReturn` is the load of `tail` and the return. -/
inductive SizedLabel (slotSize : Nat)
  | ring (l : RingLabel slotSize)
  | sizeCall
  | sizeLoadHead
  | sizeReturn

def sizedStep (s : SizedRing slotSize) : SizedLabel slotSize → Option (SizedRing slotSize)
  | .ring l => (ringStep s.ring l).map fun ring => { s with ring }
  | .sizeCall =>
    match s.sizer with
    | .idle => some { s with sizer := .called }
    | _ => none
  | .sizeLoadHead =>
    match s.sizer with
    | .called => some { s with sizer := .loadedHead s.ring.rb.head }
    | _ => none
  | .sizeReturn =>
    match s.sizer with
    | .loadedHead _ => some { s with sizer := .idle }
    | _ => none

def sizedLts (slotSize : Nat) : Lts (SizedRing slotSize) (SizedLabel slotSize) where
  init s := (∃ capacity start, IsStart capacity start s.ring) ∧ s.sizer = .idle
  step := sizedStep

abbrev SizedStep (slotSize : Nat) := Lts.Step (SizedRing slotSize) (SizedLabel slotSize)

/-- The value that `rb_size` returns in this step. -/
def SizedStep.size (x : SizedStep slotSize) : Option UInt64 :=
  match x.label, x.before.sizer with
  | .sizeReturn, .loadedHead head => some (head - x.before.ring.rb.tail)
  | _, _ => none

section Step

variable {s s' : SizedRing slotSize}

theorem sizeCall_sizer (h : sizedStep s .sizeCall = some s') : s'.sizer = .called := by
  simp only [sizedStep] at h
  split at h
  · rw [← Option.some.inj h]
  · cases h

theorem sizeLoadHead_sizer (h : sizedStep s .sizeLoadHead = some s') :
    s'.sizer = .loadedHead s.ring.rb.head := by
  simp only [sizedStep] at h
  split at h
  · rw [← Option.some.inj h]
  · cases h

theorem sizeReturn_sizer (h : sizedStep s .sizeReturn = some s') : s'.sizer = .idle := by
  simp only [sizedStep] at h
  split at h
  · rw [← Option.some.inj h]
  · cases h

end Step

/-! ## The buffer in a run -/

def SizedLabel.ring? : SizedLabel slotSize → Option (RingLabel slotSize)
  | .ring l => some l
  | _ => none

/-- The steps of the producer and the consumer. -/
def ringSteps (tr : List (SizedStep slotSize)) : List (RingStep slotSize) :=
  tr.filterMap (Lts.Step.project SizedRing.ring SizedLabel.ring?)

/-- The items in the buffer after the steps `tr`, and the items taken out in them. -/
def depthAfter (tr : List (SizedStep slotSize)) : Nat :=
  (pushed (ringSteps tr)).length - (popped (ringSteps tr)).length
def popsIn (tr : List (SizedStep slotSize)) : Nat := (popped (ringSteps tr)).length

section Runs

variable {capacity start : UInt64} {s0 s : SizedRing slotSize} {tr : List (SizedStep slotSize)}

theorem sized_ring (h : Lts.Run (sizedLts slotSize) s0 tr s) :
    Lts.Run (ringLts slotSize) s0.ring (ringSteps tr) s.ring := by
  refine h.project _ _ (fun s l t k hs hk => ?_) fun s l t hs hnone => ?_
  · cases l <;> cases hk
    obtain ⟨ring, hring, rfl⟩ := Option.map_eq_some_iff.mp hs
    exact hring
  · cases l with
    | ring l => cases hnone
    | sizeCall | sizeLoadHead | sizeReturn =>
      simp only [sizedLts, sizedStep] at hs
      split at hs <;> cases hs
      rfl

/-- The invariant of the buffer, whatever the third thread does. -/
theorem sized_inv (h0 : IsStart capacity start s0.ring) (h : Lts.Run (sizedLts slotSize) s0 tr s) :
    RingInv (nextPow2 capacity) start (pushed (ringSteps tr)) (popped (ringSteps tr)) s.ring :=
  ring_inv h0 (sized_ring h)

theorem popped_ringSteps_append (a b : List (SizedStep slotSize)) :
    popped (ringSteps (a ++ b)) = popped (ringSteps a) ++ popped (ringSteps b) := by
  simp only [popped, ringSteps, List.filterMap_append]

/-- A loaded `head` was loaded by the last step of the third thread. -/
theorem sizer_loaded (hidle : s0.sizer = .idle) (h : Lts.Run (sizedLts slotSize) s0 tr s)
    {head : UInt64} (hs : s.sizer = .loadedHead head) :
    ∃ pre load mid, tr = pre ++ load :: mid ∧ load.label = .sizeLoadHead ∧
      (∀ y ∈ mid, ∃ l, y.label = .ring l) ∧ head = load.before.ring.rb.head := by
  induction h with
  | nil => rw [hidle] at hs; cases hs
  | @snoc tr t u l _ hl ih =>
    cases l with
    | ring l =>
      obtain ⟨ring, -, rfl⟩ := Option.map_eq_some_iff.mp hl
      obtain ⟨pre, load, mid, rfl, hload, hmid, hhead⟩ := ih hs
      refine ⟨pre, load, mid ++ [⟨t, .ring l, ⟨ring, t.sizer⟩⟩], by simp, hload, fun y hy => ?_, hhead⟩
      rcases List.mem_append.mp hy with hy | hy
      · exact hmid y hy
      · exact ⟨l, by rw [List.mem_singleton.mp hy]⟩
    | sizeLoadHead =>
      rw [sizeLoadHead_sizer hl, Sizer.loadedHead.injEq] at hs
      exact ⟨tr, ⟨t, .sizeLoadHead, u⟩, [], rfl, rfl, by simp, hs.symm⟩
    | sizeCall =>
      rw [sizeCall_sizer hl] at hs
      cases hs
    | sizeReturn =>
      rw [sizeReturn_sizer hl] at hs
      cases hs

/-- The difference of two positions of which either may be ahead. -/
theorem sub_positions_le_iff (start cap : UInt64) {c p k : Nat} (hcp : c ≤ p)
    (hcap : p - c ≤ cap.toNat) :
    (start + UInt64.ofNat p - (start + UInt64.ofNat (c + k))).toNat ≤ cap.toNat ↔
      k % 2 ^ 64 ≤ p - c ∨ p - c + (2 ^ 64 - k % 2 ^ 64) ≤ cap.toNat := by
  have hlt := cap.toNat_lt
  have hstart := start.toNat_lt
  rw [UInt64.toNat_sub, UInt64.toNat_add, UInt64.toNat_add, UInt64.toNat_ofNat',
    UInt64.toNat_ofNat']
  omega

/-- In every run, each call of `rb_size` returns a value of at most the capacity exactly when
the consumer has taken at most as many items between the loads as the buffer held at the
first load, up to a whole turn of the indices. -/
theorem size_le_iff (h0 : IsStart capacity start s0.ring) (hidle : s0.sizer = .idle)
    {before post : List (SizedStep slotSize)} {ret : SizedStep slotSize}
    (h : Lts.Run (sizedLts slotSize) s0 (before ++ ret :: post) s)
    (hret : ret.label = .sizeReturn) :
    ∃ pre load mid v, before = pre ++ load :: mid ∧ load.label = .sizeLoadHead ∧
      (∀ y ∈ mid, ∃ l, y.label = .ring l) ∧ SizedStep.size ret = some v ∧
      (v.toNat ≤ (nextPow2 capacity).toNat ↔
        popsIn mid % 2 ^ 64 ≤ depthAfter pre ∨
          depthAfter pre + (2 ^ 64 - popsIn mid % 2 ^ 64) ≤ (nextPow2 capacity).toNat) := by
  obtain ⟨hbefore, hstep, -⟩ := h.around
  rw [hret] at hstep
  simp only [sizedLts, sizedStep] at hstep
  split at hstep
  · next head hsizer =>
    obtain ⟨pre, load, mid, rfl, hload, hmid, rfl⟩ := sizer_loaded hidle hbefore hsizer
    refine ⟨pre, load, mid, _, rfl, hload, hmid, by rw [SizedStep.size, hret, hsizer], ?_⟩
    have hpre := sized_inv h0 hbefore.around.1
    have hinv := sized_inv h0 hbefore
    have hpops : (popped (ringSteps (pre ++ load :: mid))).length =
        (popped (ringSteps pre)).length + popsIn mid := by
      have hskip : ringSteps (load :: mid) = ringSteps mid := by
        simp [ringSteps, Lts.Step.project, hload, SizedLabel.ring?]
      rw [popped_ringSteps_append, hskip, List.length_append]
      rfl
    rw [hpre.head, hinv.tail, hpops]
    exact sub_positions_le_iff _ _ hpre.fifo.length_le (by have := hpre.bound; omega)
  · cases hstep

end Runs

/-! ## Two readings -/

/-- The buffer of two slots, read by a third thread. -/
def twoSized : SizedRing 1 := ⟨twoSlots 0, .idle⟩

def pushOne : List (SizedLabel 1) := (pushLabels fun _ => 7).map .ring
def popOne : List (SizedLabel 1) := popLabels.map .ring

/-- The size of a buffer with one item, read while nothing else moves. -/
theorem size_le_iff_quiet :
    ∃ pre load mid ret s, Lts.Run (sizedLts 1) twoSized (pre ++ load :: mid ++ [ret]) s ∧
      (pre ++ load :: mid ++ [ret]).map (·.label) =
        pushOne ++ [.sizeCall, .sizeLoadHead, .sizeReturn] ∧
      SizedStep.size ret = some 1 ∧
      (popsIn mid % 2 ^ 64 ≤ depthAfter pre ∨
        depthAfter pre + (2 ^ 64 - popsIn mid % 2 ^ 64) ≤ (nextPow2 2).toNat) := by
  have hok : ((sizedLts 1).exec twoSized (pushOne ++ [.sizeCall, .sizeLoadHead, .sizeReturn])).map
      (fun r => r.1.getLast?.map fun x => (SizedStep.size x, x.label matches .sizeReturn)) =
        some (some (some 1, true)) := by decide +kernel
  obtain ⟨before, ret, hrun, hlabels, hlast⟩ := Lts.run_of_exec_last hok
  obtain ⟨hsize, hret⟩ := Prod.mk.inj hlast
  have hret' : ret.label = .sizeReturn := by
    cases hl : ret.label <;> simp_all
  obtain ⟨pre, load, mid, v, rfl, -, -, hv, hiff⟩ :=
    size_le_iff (twoSlots_isStart 0) rfl hrun hret'
  obtain rfl : (1 : UInt64) = v := Option.some.inj (hsize.symm.trans hv)
  exact ⟨pre, load, mid, ret, _, hrun, hlabels, hsize, hiff.mp (by decide)⟩

/-- An item that comes and goes between the two loads of an empty buffer. -/
theorem size_wraps :
    ∃ pre ret, Lts.Run (sizedLts 1) twoSized (pre ++ [ret]) ret.after ∧
      (pre ++ [ret]).map (·.label) =
        [.sizeCall, .sizeLoadHead] ++ pushOne ++ popOne ++ [.sizeReturn] ∧
      (SizedStep.size ret).map (·.toNat) = some (2 ^ 64 - 1) ∧
      ret.after.ring.rb.capacity = 2 := by
  have hok : ((sizedLts 1).exec twoSized
      ([.sizeCall, .sizeLoadHead] ++ pushOne ++ popOne ++ [.sizeReturn])).map
      (fun r => r.1.getLast?.map fun x =>
        ((SizedStep.size x).map (·.toNat), x.after.ring.rb.capacity)) =
        some (some (some (2 ^ 64 - 1), 2)) := by decide +kernel
  obtain ⟨pre, ret, hrun, hlabels, hlast⟩ := Lts.run_of_exec_last hok
  obtain ⟨hsize, hcap⟩ := Prod.mk.inj hlast
  exact ⟨pre, ret, hrun, hlabels, hsize, hcap⟩

end TrafficAnalyzer
