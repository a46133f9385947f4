import TrafficAnalyzer.Agent.RingBuf
import TrafficAnalyzer.Lib.CText

/-!
# The slots of the ring buffers (`src/agent/core/ringbuf.c`, `pipeline.c`)

`pipeline_run` takes the capacity from the environment and `rb_init` rounds it up, so that
`pos & mask` is the remainder by the capacity.

* `nextPow2_isLeast`: the capacity is the least power of two that is large enough.
* `index_add`: the slots of an index and of those behind it, also where the indices wrap.
* `ring_slots`: both for the buffers that `pipeline_run` sets up.
-/

namespace TrafficAnalyzer

open CText

variable {slotSize : Nat}

/-! ## `pipeline_run` -/

/-- `env_int`, where `getenv` answers `v`. -/
def envInt (v : Option Bytes) (fallback : Int) : Int :=
  match v with
  | none | some [] => fallback
  | some v =>
    let n := atoi v
    if n > 0 then n else fallback

def DEFAULT_BUFFER_SIZE : Int := 4096

/-- A ring buffer of `pipeline_run`, with the variable `AGENT_BUFFER_SIZE`. -/
def pipelineRing (bufferSize : Option Bytes) (allocated : Bool) : Option (Ringbuf slotSize) :=
  rbInit (UInt64.ofInt (envInt bufferSize DEFAULT_BUFFER_SIZE)) allocated

theorem wrap32_lt (n : Int) : wrap32 n < 2 ^ 31 := by
  have := Int.emod_lt_of_pos (n + 2 ^ 31) (b := 2 ^ 32) (by decide)
  unfold wrap32
  omega

/-- The capacity that is asked for is a positive `int`. -/
theorem envInt_positive (v : Option Bytes) :
    0 < envInt v DEFAULT_BUFFER_SIZE ∧ envInt v DEFAULT_BUFFER_SIZE < 2 ^ 31 := by
  unfold envInt
  split
  · decide
  · decide
  · dsimp only
    split
    · next hpos => exact ⟨hpos, wrap32_lt _⟩
    · decide

/-! ## The capacity -/

theorem nextPow2_isLeast {n : UInt64} (h : n.toNat ≤ 2 ^ 63) :
    IsLeast {m | (∃ k, m = 2 ^ k) ∧ max n.toNat 2 ≤ m} (nextPow2 n).toNat := by
  rcases Decidable.em (n < 2) with hn | hn
  · have hlt : n.toNat < 2 := UInt64.lt_iff_toNat_lt.mp hn
    rw [nextPow2, if_pos hn, Nat.max_eq_right (Nat.le_of_lt hlt)]
    exact ⟨⟨⟨1, rfl⟩, Nat.le_refl 2⟩, fun m hm => hm.2⟩
  · obtain ⟨hge, hval⟩ := nextPow2_toNat hn
    have hpos : n.toNat - 1 ≠ 0 := by omega
    have hlog : (n.toNat - 1).log2 < 63 := (Nat.log2_lt hpos).mpr (by omega)
    rw [Nat.mod_eq_of_lt (Nat.pow_lt_pow_right (by decide) (by omega))] at hval
    have hsame : ∀ m, max n.toNat 2 ≤ m ↔ n.toNat - 1 < m := fun m => by omega
    rw [hval]
    simp only [hsame]
    exact isLeast_pow_log2 hpos

section Slots

variable {capacity : UInt64} {rb : Ringbuf slotSize} {allocated : Bool}

theorem rbInit_fields (h : rbInit capacity allocated = some rb) :
    rb.capacity = nextPow2 capacity ∧ rb.mask = rb.capacity - 1 := by
  unfold rbInit at h
  split at h
  · cases h
    exact ⟨rfl, rfl⟩
  · cases h

/-- The capacity of a buffer that is not empty. -/
theorem rbInit_capacity (h : rbInit capacity allocated = some rb) (hle : capacity.toNat ≤ 2 ^ 63) :
    ∃ k, k < 64 ∧ rb.capacity.toNat = 2 ^ k := by
  rw [(rbInit_fields h).1]
  refine (nextPow2_pow capacity).resolve_left fun hzero => ?_
  have hge := Nat.le_trans (Nat.le_max_right _ _) (nextPow2_isLeast hle).1.2
  rw [hzero] at hge
  cases hge

/-- The slot `j` positions behind an index, which may lie behind the wrap of `size_t`. -/
theorem index_add (h : rbInit capacity allocated = some rb) (hle : capacity.toNat ≤ 2 ^ 63)
    (i : UInt64) (j : Nat) :
    rb.index (i + UInt64.ofNat j) = (i.toNat + j) % rb.capacity.toNat := by
  obtain ⟨k, hk, hpow⟩ := rbInit_capacity h hle
  rw [Ringbuf.index, (rbInit_fields h).2, hpow]
  exact slotOf_add hk hpow i j

theorem capacity_dvd (h : rbInit capacity allocated = some rb) (hle : capacity.toNat ≤ 2 ^ 63) :
    rb.capacity.toNat ∣ 2 ^ 64 := by
  obtain ⟨k, hk, hpow⟩ := rbInit_capacity h hle
  rw [hpow]
  exact Nat.pow_dvd_pow 2 (Nat.le_of_lt hk)

end Slots

theorem toNat_ofInt {n : Int} (hpos : 0 < n) (hlt : n < 2 ^ 31) :
    (UInt64.ofInt n).toNat = n.toNat := by
  have hmod : n % 2 ^ 64 = n := Int.emod_eq_of_lt (Int.le_of_lt hpos) (by omega)
  rw [UInt64.ofInt, hmod, UInt64.toNat_ofNat', Nat.mod_eq_of_lt (by omega)]

/-- The capacity is the least power of two from 2 on that holds what is asked for. Where a
positive `int` is asked for, as by `pipeline_run`, it divides `2 ^ 64`, and the slot of an index
is its remainder, as that of the next index is, also from `2 ^ 64 - 1` to 0. -/
theorem ring_slots (slotSize : Nat) :
    (∀ n : UInt64, n.toNat ≤ 2 ^ 63 →
      IsLeast {m | (∃ k, m = 2 ^ k) ∧ max n.toNat 2 ≤ m} (nextPow2 n).toNat) ∧
    (∀ (bufSize : Int) (allocated : Bool) (rb : Ringbuf slotSize), 0 < bufSize → bufSize < 2 ^ 31 →
      rbInit (UInt64.ofInt bufSize) allocated = some rb →
        IsLeast {m | (∃ k, m = 2 ^ k) ∧ max bufSize.toNat 2 ≤ m} rb.capacity.toNat ∧
        rb.capacity.toNat ∣ 2 ^ 64 ∧ rb.mask.toNat = rb.capacity.toNat - 1 ∧
        ∀ i : UInt64, rb.index i = i.toNat % rb.capacity.toNat ∧
          rb.index (i + 1) = (i.toNat + 1) % rb.capacity.toNat) ∧
    ∀ (bufferSize : Option Bytes) (allocated : Bool) (rb : Ringbuf slotSize),
      pipelineRing bufferSize allocated = some rb →
        ∃ bufSize : Int, 0 < bufSize ∧ bufSize < 2 ^ 31 ∧
          rbInit (UInt64.ofInt bufSize) allocated = some rb := by
  refine ⟨fun n => nextPow2_isLeast, fun bufSize allocated rb hpos hlt h => ?_,
    fun v allocated rb h => ⟨_, (envInt_positive v).1, (envInt_positive v).2, h⟩⟩
  have hsize := toNat_ofInt hpos hlt
  have hle : (UInt64.ofInt bufSize).toNat ≤ 2 ^ 63 := by omega
  obtain ⟨hcap, hmask⟩ := rbInit_fields h
  have hleast := nextPow2_isLeast hle
  rw [← hcap, hsize] at hleast
  refine ⟨hleast, capacity_dvd h hle, ?_, fun i => ⟨?_, index_add h hle i 1⟩⟩
  · have hone : 1 ≤ rb.capacity.toNat :=
      Nat.le_trans (Nat.le_trans (by decide) (Nat.le_max_right _ 2)) hleast.1.2
    rw [hmask]
    exact UInt64.toNat_sub_of_le _ _ (UInt64.le_iff_toNat_le.mpr hone)
  · have hslot := index_add h hle i 0
    rwa [show UInt64.ofNat 0 = 0 from rfl, Nat.add_zero, UInt64.add_zero] at hslot

theorem ring_slots_five :
    IsLeast {m | (∃ k, m = 2 ^ k) ∧ max 5 2 ≤ m} 8 ∧
    ∃ rb : Ringbuf 4, rbInit (UInt64.ofInt 5000) true = some rb ∧ rb.capacity.toNat ∣ 2 ^ 64 ∧
      rb.index (UInt64.ofNat (2 ^ 64 - 1)) = 8191 ∧
        rb.index (UInt64.ofNat (2 ^ 64 - 1) + 1) = 0 := by
  obtain ⟨hleast, hslots, _⟩ := ring_slots 4
  obtain ⟨_, hdvd, _, hindex⟩ := hslots 5000 true _ (by decide) (by decide) rfl
  refine ⟨hleast 5 (by decide), _, rfl, hdvd, ?_, ?_⟩
  · exact (hindex _).1.trans (by decide +kernel)
  · exact (hindex _).2.trans (by decide +kernel)

end TrafficAnalyzer
