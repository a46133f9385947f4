import TrafficAnalyzer.Lib.Lts
import TrafficAnalyzer.Lib.RealDouble
import TrafficAnalyzer.Lib.Tumbling
import TrafficAnalyzer.Agent.Steps

/-!
# The brute-force window

`detect_brute_force` counts the attempts of one source in a tumbling window of 60 s: the
first window starts with the record, and the first attempt more than 60 s after the start
begins the next one. A burst that straddles the start of a window is counted in two parts.

* `bruteForce_iff`: a call alerts exactly when it is an attempt and its window holds 30
  attempts. 59 attempts in the last 60 s are enough for an alert in these 60 s.
* `bruteForce_straddled`: 58 attempts within two seconds without an alert, and a call that
  is no attempt after 30 attempts.
-/

namespace TrafficAnalyzer

/-- One call of `detect_brute_force`. -/
structure AuthCall where
  flags : UInt8
  dstPort : UInt16
  now : Int
deriving DecidableEq, Repr

/-- The call is counted. -/
def AuthCall.attempt (c : AuthCall) : Bool := isAuthSyn c.flags c.dstPort

/-- The times of the attempts. -/
def attempts (cs : List AuthCall) : List Int :=
  cs.filterMap fun c => if c.attempt then some c.now else none

theorem attempts_append (a b : List AuthCall) : attempts (a ++ b) = attempts a ++ attempts b :=
  List.filterMap_append ..

theorem attempts_sorted {cs : List AuthCall} (h : cs.Pairwise (·.now ≤ ·.now)) :
    (attempts cs).Pairwise (· ≤ ·) := by
  refine List.Pairwise.filterMap _ (fun c c' hle t ht t' ht' => ?_) h
  split at ht <;> simp_all

/-- An attempt in the list of times is a call. -/
theorem attempts_split {cs : List AuthCall} {p q : List Int} {t : Int}
    (h : attempts cs = p ++ t :: q) :
    ∃ pre c post, cs = pre ++ c :: post ∧ attempts pre = p ∧ c.attempt = true ∧ c.now = t := by
  obtain ⟨a, b, rfl, hp, hb⟩ := List.filterMap_eq_append_iff.mp h
  obtain ⟨l, c, post, rfl, hnone, hc, -⟩ := List.filterMap_eq_cons_iff.mp hb
  have hl : attempts l = [] := List.filterMap_eq_nil_iff.mpr hnone
  refine ⟨a ++ l, c, post, by simp, ?_, ?_⟩
  · rw [attempts_append, hl, List.append_nil]
    exact hp
  · split at hc
    · next hattempt => exact ⟨hattempt, Option.some.inj hc⟩
    · cases hc

variable {R : Type} [Double R]

/-- One record, fresh at first, one call a step. -/
def authLts : Lts (Suspect R) AuthCall where
  init s := ∃ ip now, s = Suspect.fresh ip now
  step s c := some (detectBruteForce s c.flags c.dstPort c.now).1

abbrev AuthStep (R : Type) := Lts.Step (Suspect R) AuthCall

/-- The call returns BRUTE_FORCE. -/
def BruteAlert (x : AuthStep R) : Prop :=
  (detectBruteForce x.before x.label.flags x.label.dstPort x.label.now).2 = some .bruteForce

/-- The window of the attempts among the calls `cs`, for a record created at `t0`. -/
abbrev authWindow (t0 : Int) (cs : List AuthCall) : Tumbling.Window :=
  Tumbling.window BRUTE_WINDOW_SEC t0 (attempts cs)

/-- No window of the calls `cs` exhausts the counter. -/
def FewAttempts (t0 : Int) (cs : List AuthCall) : Prop :=
  ∀ pre, pre <+: cs → (authWindow t0 pre).members.length < 2 ^ 31

omit [Double R] in
theorem fewAttempts_of_length {t0 : Int} {cs : List AuthCall} (h : cs.length < 2 ^ 31) :
    FewAttempts t0 cs := fun _ hpre =>
  Nat.lt_of_le_of_lt (Nat.le_trans (Tumbling.length_window_le _ _ _)
    (Nat.le_trans (List.length_filterMap_le _ _) hpre.length_le)) h

omit [Double R] in
theorem authWindow_concat (t0 : Int) (cs : List AuthCall) (c : AuthCall) :
    authWindow t0 (cs ++ [c]) =
      if c.attempt then (authWindow t0 cs).add BRUTE_WINDOW_SEC c.now else authWindow t0 cs := by
  have hone : attempts [c] = if c.attempt then [c.now] else [] := by
    cases h : c.attempt <;> simp [attempts, h]
  rw [authWindow, attempts_append, hone]
  split
  · rw [Tumbling.window_append]
  · rw [List.append_nil]

/-- The counter and the start time of the record are those of the window. -/
theorem run_window {ip : UInt32} {t0 : Int} {s : Suspect R} {tr : List (AuthStep R)}
    (h : Lts.Run authLts (Suspect.fresh ip t0) tr s) (hfew : FewAttempts t0 (tr.map (·.label))) :
    s.bruteWindowStart = (authWindow t0 (tr.map (·.label))).start ∧
      s.bruteCount = (authWindow t0 (tr.map (·.label))).members.length := by
  induction h with
  | nil => exact ⟨rfl, rfl⟩
  | @snoc tr s s' c hr hstep ih =>
    obtain rfl : (detectBruteForce s c.flags c.dstPort c.now).1 = s' := Option.some.inj hstep
    rw [List.map_append, List.map_singleton] at *
    obtain ⟨hstart, hcount⟩ := ih fun pre hpre => hfew pre (hpre.trans (List.prefix_append _ _))
    have hlen := hfew _ (List.prefix_refl _)
    rw [authWindow_concat] at hlen ⊢
    rw [detectBruteForce_record]
    cases hc : c.attempt with
    | false =>
      have hplain : isAuthSyn c.flags c.dstPort = false := hc
      simpa [hplain] using ⟨hstart, hcount⟩
    | true =>
      have hauth : isAuthSyn c.flags c.dstPort = true := hc
      have hexpired : s.bruteExpired c.now =
          decide (BRUTE_WINDOW_SEC < c.now - (authWindow t0 (tr.map (·.label))).start) := by
        rw [← hstart]
        rfl
      simp only [hc, ↓reduceIte, Tumbling.Window.add] at hlen ⊢
      simp only [hauth, hexpired, Bool.true_and, decide_eq_true_eq, countIf_true]
      split
      · exact ⟨rfl, inc32_of_bounds (Int.le_refl 0) (by decide)⟩
      · next hopen =>
        rw [if_neg hopen] at hlen
        rw [List.length_append, List.length_singleton] at hlen ⊢
        refine ⟨hstart, ?_⟩
        rw [hcount, Int.natCast_succ]
        exact inc32_of_bounds (Int.natCast_nonneg _) (by omega)

/-- A call alerts exactly when it is an attempt and the counter it leaves reaches the
threshold. -/
theorem bruteAlert_iff {x : AuthStep R}
    (hx : authLts.step x.before x.label = some x.after) :
    BruteAlert x ↔ x.label.attempt = true ∧ BRUTE_THRESHOLD ≤ x.after.bruteCount := by
  have hafter := Option.some.inj hx
  rw [BruteAlert, detectBruteForce_attack, ← hafter, detectBruteForce_record]
  cases hc : isAuthSyn x.label.flags x.label.dstPort <;> simp [AuthCall.attempt, hc]

/-- In a run on one record in which no window exhausts the counter, a call alerts exactly
when it is an attempt and its window holds 30 attempts. When 59 attempts fall inside the
60 s that end with the call, some call inside these 60 s alerts. -/
theorem bruteForce_iff {ip : UInt32} {t0 : Int} {s : Suspect R} {pre : List (AuthStep R)}
    {x : AuthStep R} (h : Lts.Run authLts (Suspect.fresh ip t0) (pre ++ [x]) s)
    (hmono : ((pre ++ [x]).map (·.label)).Pairwise (·.now ≤ ·.now))
    (hfew : FewAttempts t0 ((pre ++ [x]).map (·.label))) :
    (BruteAlert x ↔ x.label.attempt = true ∧
      30 ≤ (authWindow t0 ((pre ++ [x]).map (·.label))).members.length) ∧
    (59 ≤ (Tumbling.sliding 60 x.label.now (attempts ((pre ++ [x]).map (·.label)))).length →
      ∃ y ∈ pre ++ [x], x.label.now - 60 ≤ y.label.now ∧ BruteAlert y) := by
  -- a call alerts when the window that it leaves is full
  have halert : ∀ p y q, pre ++ [x] = p ++ y :: q → (BruteAlert y ↔ y.label.attempt = true ∧
      30 ≤ (authWindow t0 ((p ++ [y]).map (·.label))).members.length) := fun p y q heq => by
    rw [heq] at h hfew
    obtain ⟨hp, hstep, -⟩ := h.around
    have hprefix : (p ++ [y]).map (·.label) <+: (p ++ y :: q).map (·.label) := by simp
    obtain ⟨-, hcount⟩ := run_window (hp.snoc hstep) fun l hl => hfew l (hl.trans hprefix)
    rw [bruteAlert_iff hstep, hcount]
    exact and_congr_right fun _ => Int.ofNat_le
  refine ⟨halert pre x [] rfl, fun hmany => ?_⟩
  have hnow : ∀ t ∈ attempts ((pre ++ [x]).map (·.label)), t ≤ x.label.now := fun t ht => by
    obtain ⟨a, b, hab⟩ := List.append_of_mem ht
    obtain ⟨l, c, l', hl, -, -, rfl⟩ := attempts_split hab
    have hc : c ∈ (pre ++ [x]).map (·.label) := hl ▸ List.mem_append_right l List.mem_cons_self
    rw [List.map_append, List.pairwise_append] at hmono
    rw [List.map_append] at hc
    rcases List.mem_append.mp hc with hold | hlast
    · exact hmono.2.2 c hold _ (List.mem_singleton_self _)
    · rw [List.mem_singleton.mp hlast]
  obtain ⟨p, t, q, hsplit, hrecent, hfull⟩ := Tumbling.exists_full_window t0 (k := 30)
    (by decide) (attempts_sorted hmono) hnow hmany
  obtain ⟨l, c, l', hl, hp, hattempt, rfl⟩ := attempts_split hsplit
  obtain ⟨a, b, heq, ha, hb⟩ := List.map_eq_append_iff.mp hl
  obtain ⟨y, b', rfl, rfl, hb'⟩ := List.map_eq_cons_iff.mp hb
  refine ⟨y, heq ▸ List.mem_append_right a List.mem_cons_self, hrecent,
    (halert a y b' heq).mpr ⟨hattempt, ?_⟩⟩
  rw [List.map_append, List.map_singleton, ha, authWindow_concat, if_pos hattempt, authWindow, hp,
    ← Tumbling.window_append]
  exact hfull

/-! ## A burst in one window and a burst in two -/

/-- An attempt on port 22, and a packet that is no attempt. -/
def sshSyn (now : Int) : AuthCall := ⟨NTA_TH_SYN, PORT_SSH, now⟩
def sshAck (now : Int) : AuthCall := ⟨NTA_TH_ACK, PORT_SSH, now⟩

/-- 30 attempts, one a second. -/
def steadyCalls : List AuthCall := (List.range 30).map fun i : Nat => sshSyn i

theorem bruteForce_iff_steady :
    ∃ (pre : List (AuthStep ℝ)) (x : AuthStep ℝ),
      Lts.Run authLts (Suspect.fresh 1 0) (pre ++ [x]) x.after ∧
        (pre ++ [x]).map (·.label) = steadyCalls ∧ BruteAlert x := by
  have hexec : ((authLts (R := ℝ)).exec (Suspect.fresh 1 0) steadyCalls).map
      (fun r => r.1.getLast?.map (·.label.attempt)) = some (some true) := by decide +kernel
  obtain ⟨pre, x, hrun, hlabels, hattempt⟩ := Lts.run_of_exec_last hexec
  have hiff := bruteForce_iff hrun (by rw [hlabels]; decide +kernel)
    (fewAttempts_of_length (by rw [hlabels]; decide +kernel))
  rw [hlabels] at hiff
  exact ⟨pre, x, hrun, hlabels, hiff.1.mpr ⟨hattempt, by decide +kernel⟩⟩

/-- 29 attempts at second 59 and 29 at second 61, in two windows; and 30 attempts and then
a packet that is no attempt. -/
def straddlingCalls : List AuthCall :=
  List.replicate 29 (sshSyn 59) ++ List.replicate 29 (sshSyn 61)
def acknowledgedCalls : List AuthCall := List.replicate 30 (sshSyn 59) ++ [sshAck 59]

/-- The last call of `cs` has 30 attempts in the 60 s before it, and does not alert. -/
def Misses (cs : List AuthCall) : Prop :=
  ∃ (pre : List (AuthStep ℝ)) (x : AuthStep ℝ),
    Lts.Run authLts (Suspect.fresh 1 0) (pre ++ [x]) x.after ∧
      (pre ++ [x]).map (·.label) = cs ∧
      30 ≤ (Tumbling.sliding 60 x.label.now (attempts ((pre ++ [x]).map (·.label)))).length ∧
      ¬ BruteAlert x

theorem bruteForce_straddled :
    (straddlingCalls.Pairwise (·.now ≤ ·.now) ∧ Misses straddlingCalls) ∧
      acknowledgedCalls.Pairwise (·.now ≤ ·.now) ∧ Misses acknowledgedCalls := by
  have hmiss : ∀ (cs : List AuthCall) (now : Int),
      ((authLts (R := ℝ)).exec (Suspect.fresh 1 0) cs).map (fun r => r.1.getLast?.map fun x =>
        (x.label.now, (detectBruteForce x.before x.label.flags x.label.dstPort x.label.now).2)) =
          some (some (now, none)) →
      30 ≤ (Tumbling.sliding 60 now (attempts cs)).length → Misses cs := fun cs now hexec hmany => by
    obtain ⟨pre, x, hrun, hlabels, hlast⟩ := Lts.run_of_exec_last hexec
    obtain ⟨hnow, hnone⟩ := Prod.mk.inj hlast
    refine ⟨pre, x, hrun, hlabels, by rwa [hnow, hlabels], ?_⟩
    rw [BruteAlert, hnone]
    exact fun h => by cases h
  refine ⟨⟨by decide +kernel, hmiss _ 61 (by decide +kernel) (by decide +kernel)⟩,
    by decide +kernel, hmiss _ 59 (by decide +kernel) (by decide +kernel)⟩

end TrafficAnalyzer
