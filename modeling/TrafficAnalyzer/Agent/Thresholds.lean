import TrafficAnalyzer.Lib.Ewma
import TrafficAnalyzer.Lib.RealDouble
import TrafficAnalyzer.Agent.Windows

/-!
# The range of the adaptive thresholds

`update_baseline` folds each minute that ends into three means and variances, and the flood
detectors cast a value made of two of them to `int`. In exact real arithmetic:

* `run_sampled`: the averages of a record are those of the minutes that have ended.
* `thresholds_in_range`: in which range the averages are, and that the casts stay in `int`.
* `history_baseline`: the record of a source is the result of such calls.
-/

namespace TrafficAnalyzer

/-! ## The calls and their minutes -/

/-- A call of `update_baseline`. -/
structure BaselineCall where
  newPort : Bool
  isDns : Bool
  now : Int
deriving DecidableEq

/-- A window that ended: its calls, of which the last one ended it, and its seconds. -/
structure Minute where
  calls : List BaselineCall
  elapsed : Int
deriving DecidableEq

/-- The windows that ended, and the current one. -/
structure Minutes where
  closed : List Minute
  start : Int
  current : List BaselineCall
deriving DecidableEq

def Minutes.add (m : Minutes) (c : BaselineCall) : Minutes :=
  if EWMA_WINDOW_SEC ≤ c.now - m.start then
    ⟨m.closed ++ [⟨m.current ++ [c], c.now - m.start⟩], c.now, []⟩
  else { m with current := m.current ++ [c] }

/-- The windows of these calls, when the first one starts at `start`. -/
def minutes (start : Int) (calls : List BaselineCall) : Minutes :=
  calls.foldl Minutes.add ⟨[], start, []⟩

/-- No window holds more packets than an `int` counts. -/
def Minutes.Short (m : Minutes) : Prop :=
  (∀ w ∈ m.closed, w.calls.length ≤ 2 ^ 31 - 1) ∧ m.current.length ≤ 2 ^ 31 - 1

instance (m : Minutes) : Decidable m.Short :=
  inferInstanceAs (Decidable
    ((∀ w ∈ m.closed, w.calls.length ≤ 2 ^ 31 - 1) ∧ m.current.length ≤ 2 ^ 31 - 1))

/-- The baseline of a new record after these calls. -/
def baselineAfter {R : Type} [Double R] (start : Int) (calls : List BaselineCall) : IpBaseline R :=
  calls.foldl (fun b c => updateBaseline b c.newPort c.isDns c.now)
    { IpBaseline.zero with windowStart := start }

theorem minutes_append (start : Int) (calls : List BaselineCall) (c : BaselineCall) :
    minutes start (calls ++ [c]) = (minutes start calls).add c := by
  simp [minutes]

theorem baselineAfter_append {R : Type} [Double R] (start : Int) (calls : List BaselineCall)
    (c : BaselineCall) :
    (baselineAfter start (calls ++ [c]) : IpBaseline R) =
      updateBaseline (baselineAfter start calls) c.newPort c.isDns c.now := by
  simp [baselineAfter]

section Windows

variable {m : Minutes} {c : BaselineCall}

/-- The window of a call is short, and so are those before it. -/
theorem Minutes.Short.of_add (h : (m.add c).Short) :
    (m.current ++ [c]).length ≤ 2 ^ 31 - 1 ∧ m.Short := by
  unfold Minutes.add at h
  split at h
  · have hlast := h.1 _ List.mem_concat_self
    refine ⟨hlast, fun w hw => h.1 w (List.mem_append_left _ hw), Nat.le_trans ?_ hlast⟩
    rw [List.length_append]
    exact Nat.le_add_right _ _
  · refine ⟨h.2, h.1, Nat.le_trans ?_ h.2⟩
    rw [List.length_append]
    exact Nat.le_add_right _ _

theorem minutes_elapsed (start : Int) (calls : List BaselineCall) :
    ∀ w ∈ (minutes start calls).closed, EWMA_WINDOW_SEC ≤ w.elapsed := by
  induction calls using List.reverseRecOn with
  | nil => exact fun w hw => absurd hw List.not_mem_nil
  | append_singleton calls c ih =>
    rw [minutes_append, Minutes.add]
    split
    · next hends =>
      intro w hw
      rcases List.mem_append.mp hw with hw | hw
      · exact ih w hw
      · rw [List.mem_singleton.mp hw]
        exact hends
    · exact ih

end Windows

/-! ## The samples -/

/-- What `update_baseline` takes from a window. -/
noncomputable def Minute.pps (w : Minute) : ℝ := w.calls.length / w.elapsed
def Minute.ports (w : Minute) : ℝ := w.calls.countP (·.newPort)
def Minute.dns (w : Minute) : ℝ := w.calls.countP (·.isDns)

/-- Averages that are still 0, or those of the samples `xs`. -/
def Learned (xs : List ℝ) (s : ℝ × ℝ) : Prop := (xs = [] ∧ s = (0, 0)) ∨ Ewma.Averaged xs s

/-- What one sample makes of averages, in a record that counts `count` samples. -/
noncomputable def learn (count : Int) (s : ℝ × ℝ) (x : ℝ) : ℝ × ℝ :=
  if count = 0 then (x, 0)
  else Ewma.step (if count < EWMA_CALIBRATION then ewmaAlphaFast else ewmaAlphaSlow) s x

theorem alpha_bounds (count : Int) :
    let alpha : ℝ := if count < EWMA_CALIBRATION then ewmaAlphaFast else ewmaAlphaSlow
    0 ≤ alpha ∧ alpha ≤ 1 := by
  have hfast : 0 ≤ (ewmaAlphaFast : ℝ) ∧ (ewmaAlphaFast : ℝ) ≤ 1 := by
    simp only [ewmaAlphaFast, Double.ofInt]
    norm_num
  have hslow : 0 ≤ (ewmaAlphaSlow : ℝ) ∧ (ewmaAlphaSlow : ℝ) ≤ 1 := by
    simp only [ewmaAlphaSlow, Double.ofInt]
    norm_num
  dsimp only
  split
  · exact hfast
  · exact hslow

theorem Learned.learn {xs : List ℝ} {s : ℝ × ℝ} (h : Learned xs s) {count : Int}
    (hfirst : xs = [] → count = 0) (x : ℝ) : Learned (xs ++ [x]) (learn count s x) := by
  unfold TrafficAnalyzer.learn
  split
  · exact .inr (.start xs x)
  · next hcount =>
    have hsamples := h.resolve_left fun hnone => hcount (hfirst hnone.1)
    obtain ⟨h0, h1⟩ := alpha_bounds count
    exact .inr (.step x h0 h1 hsamples)

/-- The end of a window, for all three averages. -/
theorem close_learn (b : IpBaseline ℝ) {now : Int} (hends : 0 < now - b.windowStart) :
    ((b.close now).ewmaPps, (b.close now).ewmaVarPps) =
        learn b.sampleCount (b.ewmaPps, b.ewmaVarPps)
          (b.pktInWindow / (now - b.windowStart : Int)) ∧
      ((b.close now).ewmaPorts, (b.close now).ewmaVarPorts) =
        learn b.sampleCount (b.ewmaPorts, b.ewmaVarPorts) b.portsInWindow ∧
      ((b.close now).ewmaDns, (b.close now).ewmaVarDns) =
        learn b.sampleCount (b.ewmaDns, b.ewmaVarDns) b.dnsInWindow := by
  have hstep : ∀ alpha mean var x : ℝ,
      ewmaStep alpha mean var x = Ewma.step alpha (mean, var) x := by
    intro alpha mean var x
    simp [ewmaStep, Ewma.step, Double.ofInt]
  have hlater : b.windowStart < now := Int.lt_of_sub_pos hends
  unfold learn
  split
  · next hfirst => simp [IpBaseline.close, difftime, hlater, hfirst, Double.ofInt]
  · next hnext => simp [IpBaseline.close, difftime, hlater, hnext, hstep, Double.ofInt]

/-! ## The record and its windows -/

/-- The record counts the packets of the current window, and its averages are those of the
windows that ended. -/
structure Sampled (m : Minutes) (b : IpBaseline ℝ) : Prop where
  start : b.windowStart = m.start
  packets : b.pktInWindow = m.current.length
  newPorts : b.portsInWindow = m.current.countP (·.newPort)
  queries : b.dnsInWindow = m.current.countP (·.isDns)
  first : m.closed = [] → b.sampleCount = 0
  pps : Learned (m.closed.map Minute.pps) (b.ewmaPps, b.ewmaVarPps)
  ports : Learned (m.closed.map Minute.ports) (b.ewmaPorts, b.ewmaVarPorts)
  dns : Learned (m.closed.map Minute.dns) (b.ewmaDns, b.ewmaVarDns)

theorem sampled_start (start : Int) : Sampled (minutes start []) (baselineAfter start []) := by
  have hzero : Learned [] ((Double.ofInt 0 : ℝ), (Double.ofInt 0 : ℝ)) :=
    .inl ⟨rfl, by simp [Double.ofInt]⟩
  exact ⟨rfl, rfl, rfl, rfl, fun _ => rfl, hzero, hzero, hzero⟩

section Step

variable {m : Minutes} {b : IpBaseline ℝ} {c : BaselineCall}

/-- A counter of the window that does not wrap. -/
theorem tick_count {p : BaselineCall → Bool} {n : Int} (hn : n = m.current.countP p)
    (hshort : (m.current ++ [c]).length ≤ 2 ^ 31 - 1) :
    (if p c then inc32 n else n) = (m.current ++ [c]).countP p := by
  have hle : m.current.countP p ≤ m.current.length := List.countP_le_length
  rw [List.length_append, List.length_singleton] at hshort
  rw [List.countP_append, List.countP_singleton, hn]
  split
  · rw [inc32_of_bounds (Int.natCast_nonneg _) (by omega)]
    rfl
  · rfl

/-- The counters with the call, before the window may end. -/
theorem Sampled.tick (h : Sampled m b) (hshort : (m.current ++ [c]).length ≤ 2 ^ 31 - 1) :
    Sampled { m with current := m.current ++ [c] } (b.tick c.newPort c.isDns) where
  start := h.start
  packets := by
    have hall := tick_count (p := fun _ => true) (c := c) (h.packets.trans (by simp)) hshort
    rw [if_pos rfl] at hall
    exact hall.trans (by simp)
  newPorts := tick_count (p := (·.newPort)) h.newPorts hshort
  queries := tick_count (p := (·.isDns)) h.queries hshort
  first := h.first
  pps := h.pps
  ports := h.ports
  dns := h.dns

/-- The end of the window. -/
theorem Sampled.close (h : Sampled m b) {now : Int} (hends : EWMA_WINDOW_SEC ≤ now - m.start) :
    Sampled ⟨m.closed ++ [⟨m.current, now - m.start⟩], now, []⟩ (b.close now) := by
  have hlong : 0 < now - b.windowStart := by
    rw [h.start]
    exact Int.lt_of_lt_of_le (by decide) hends
  have hfirst : ∀ f : Minute → ℝ, m.closed.map f = [] → b.sampleCount = 0 :=
    fun f hnone => h.first (List.map_eq_nil_iff.mp hnone)
  obtain ⟨hpps, hports, hdns⟩ := close_learn b hlong
  refine ⟨rfl, rfl, rfl, rfl, fun hnone => ?_, ?_, ?_, ?_⟩
  · exact absurd hnone (List.append_ne_nil_of_right_ne_nil _ (List.cons_ne_nil _ _))
  · rw [hpps, List.map_append, h.packets, h.start]
    exact h.pps.learn (hfirst _) _
  · rw [hports, List.map_append, h.newPorts]
    exact h.ports.learn (hfirst _) _
  · rw [hdns, List.map_append, h.queries]
    exact h.dns.learn (hfirst _) _

/-- The step lemma of the record. -/
theorem Sampled.add (h : Sampled m b) (hshort : (m.add c).Short) :
    Sampled (m.add c) (updateBaseline b c.newPort c.isDns c.now) := by
  have htick := h.tick hshort.of_add.1
  have hstart : (b.tick c.newPort c.isDns).windowStart = m.start := h.start
  unfold updateBaseline Minutes.add difftime
  dsimp only
  rw [hstart]
  split
  · next hends =>
    rw [if_neg (Int.not_lt.mpr hends)]
    exact htick.close hends
  · next hopen =>
    rw [if_pos (Int.not_le.mp hopen)]
    exact htick

end Step

/-- The run lemma: as long as no window is too long, the averages of the record are those of the
windows that have ended. -/
theorem run_sampled {start : Int} {calls : List BaselineCall} (h : (minutes start calls).Short) :
    Sampled (minutes start calls) (baselineAfter start calls) := by
  induction calls using List.reverseRecOn with
  | nil => exact sampled_start start
  | append_singleton calls c ih =>
    rw [minutes_append] at h ⊢
    rw [baselineAfter_append]
    exact (ih h.of_add.2).add h

/-! ## The ranges -/

/-- The variance is not negative, the mean is between the least and the largest sample, and the
variance is at most the square of the largest sample. -/
structure AveragesInRange (xs : List ℝ) (mean var : ℝ) : Prop where
  nonneg : 0 ≤ var
  between : ∀ lo hi, IsLeast {x | x ∈ xs} lo → IsGreatest {x | x ∈ xs} hi → lo ≤ mean ∧ mean ≤ hi
  square : ∀ hi, IsGreatest {x | x ∈ xs} hi → var ≤ hi ^ 2

/-- The two values that are cast are in the range of `int`, and so are the thresholds, which have
their lower bounds. -/
structure ThresholdsInRange (b : IpBaseline ℝ) : Prop where
  synCast : 0 ≤ (b.ewmaPps + 3 * √b.ewmaVarPps) * 2 ∧
    (b.ewmaPps + 3 * √b.ewmaVarPps) * 2 ≤ 2 ^ 31 - 1
  icmpCast : 0 ≤ (b.ewmaPps + 3 * √b.ewmaVarPps) * (3 / 2) ∧
    (b.ewmaPps + 3 * √b.ewmaVarPps) * (3 / 2) ≤ 2 ^ 31 - 1
  syn : 10 ≤ synFloodThreshold b ∧ synFloodThreshold b ≤ 2 ^ 31 - 1
  icmp : 5 ≤ icmpFloodThreshold b ∧ icmpFloodThreshold b ≤ 2 ^ 31 - 1

section Ranges

variable {xs : List ℝ} {s : ℝ × ℝ} {w : Minute} {b : IpBaseline ℝ}

theorem Learned.inRange (h : Learned xs s) (hxs : ∀ x ∈ xs, 0 ≤ x) :
    AveragesInRange xs s.1 s.2 := by
  rcases h with ⟨rfl, rfl⟩ | h
  · exact ⟨le_refl 0, fun lo hi hlo _ => absurd hlo.1 List.not_mem_nil,
      fun hi hhi => absurd hhi.1 List.not_mem_nil⟩
  · refine ⟨h.nonneg, fun lo hi hlo hhi => ?_, fun hi hhi => ?_⟩
    · have hwithin := h.within fun x hx => ⟨hlo.2 hx, hhi.2 hx⟩
      exact ⟨hwithin.low, hwithin.high⟩
    · exact (h.within fun x hx => ⟨hxs x hx, hhi.2 hx⟩).le_sq (le_refl 0)

theorem Learned.within (h : Learned xs s) {hi : ℝ} (hhi : 0 ≤ hi)
    (hxs : ∀ x ∈ xs, 0 ≤ x ∧ x ≤ hi) : Ewma.Within 0 hi s := by
  rcases h with ⟨-, rfl⟩ | h
  · exact .start (le_refl 0) hhi
  · exact h.within hxs

/-- A window takes a minute at least. -/
theorem Minute.pps_bounds (hlen : w.calls.length ≤ 2 ^ 31 - 1)
    (hlong : EWMA_WINDOW_SEC ≤ w.elapsed) : 0 ≤ w.pps ∧ w.pps ≤ (2 ^ 31 - 1) / 60 := by
  have hlen' : (w.calls.length : ℝ) ≤ 2147483647 := by exact_mod_cast hlen
  have hcount : (w.calls.length : ℝ) ≤ 2 ^ 31 - 1 := hlen'.trans (by norm_num)
  have hsecs : (60 : ℝ) ≤ w.elapsed := by exact_mod_cast hlong
  exact ⟨div_nonneg (Nat.cast_nonneg _) (by linarith),
    div_le_div₀ (by norm_num) hcount (by norm_num) hsecs⟩

/-- Three standard deviations are at most one and a half times the range. -/
theorem adaptive_bounds {hi mean var : ℝ} (h : Ewma.Within 0 hi (mean, var)) :
    0 ≤ mean + 3 * √var ∧ mean + 3 * √var ≤ 5 / 2 * hi := by
  have hlow : 0 ≤ mean := h.low
  have hhigh : mean ≤ hi := h.high
  have hspread : 4 * var ≤ (hi - 0) ^ 2 := h.four_mul_le
  have hsqrt : √var ≤ hi / 2 := Real.sqrt_le_iff.mpr ⟨by linarith, by linarith⟩
  exact ⟨add_nonneg hlow (mul_nonneg (by norm_num) (Real.sqrt_nonneg _)), by linarith⟩

/-- A threshold of the flood detectors, when the value that is cast is in range. -/
theorem floodThreshold_range {fixed floor : Int} {factor : ℝ}
    (h0 : 0 ≤ (b.ewmaPps + 3 * √b.ewmaVarPps) * factor)
    (h1 : (b.ewmaPps + 3 * √b.ewmaVarPps) * factor ≤ 2 ^ 31 - 1) (hfloor : floor ≤ fixed)
    (hfixed : fixed ≤ 2 ^ 31 - 1) :
    floor ≤ floodThreshold b fixed factor floor ∧
      floodThreshold b fixed factor floor ≤ 2 ^ 31 - 1 := by
  have hsigma : (b.ewmaPps + ewmaSigma * Double.sqrt b.ewmaVarPps) * factor =
      (b.ewmaPps + 3 * √b.ewmaVarPps) * factor := by simp [ewmaSigma, Double.ofInt, Double.sqrt]
  have hcast : Double.trunc ((b.ewmaPps + ewmaSigma * Double.sqrt b.ewmaVarPps) * factor) ≤
      2 ^ 31 - 1 := by
    rw [hsigma]
    refine (if_pos h0).trans_le ?_
    have hle := (Int.floor_le ((b.ewmaPps + 3 * √b.ewmaVarPps) * factor)).trans h1
    exact_mod_cast hle
  unfold floodThreshold
  split
  · dsimp only
    split
    · exact ⟨Int.le_refl _, Int.le_trans hfloor hfixed⟩
    · next hlow => exact ⟨Int.not_lt.mp hlow, hcast⟩
  · exact ⟨hfloor, hfixed⟩

theorem thresholds_of_within (h : Ewma.Within 0 ((2 ^ 31 - 1) / 60) (b.ewmaPps, b.ewmaVarPps)) :
    ThresholdsInRange b := by
  obtain ⟨hlow, hhigh⟩ := adaptive_bounds h
  have hsyn : 0 ≤ (b.ewmaPps + 3 * √b.ewmaVarPps) * 2 ∧
      (b.ewmaPps + 3 * √b.ewmaVarPps) * 2 ≤ 2 ^ 31 - 1 := ⟨by linarith, by linarith⟩
  have hicmp : 0 ≤ (b.ewmaPps + 3 * √b.ewmaVarPps) * (3 / 2) ∧
      (b.ewmaPps + 3 * √b.ewmaVarPps) * (3 / 2) ≤ 2 ^ 31 - 1 := ⟨by linarith, by linarith⟩
  have htwo : (Double.ofInt 2 : ℝ) = 2 := by simp [Double.ofInt]
  have hhalf : (Double.ofInt 3 / Double.ofInt 2 : ℝ) = 3 / 2 := by simp [Double.ofInt]
  refine ⟨hsyn, hicmp, ?_, ?_⟩
  · rw [synFloodThreshold, htwo]
    exact floodThreshold_range hsyn.1 hsyn.2 (by decide) (by decide)
  · rw [icmpFloodThreshold, hhalf]
    exact floodThreshold_range hicmp.1 hicmp.2 (by decide) (by decide)

end Ranges

/-- For all calls whose windows an `int` counts: the averages are in the range of the samples so
far, and the thresholds in that of `int`. -/
theorem thresholds_in_range {start : Int} {calls : List BaselineCall}
    (h : (minutes start calls).Short) :
    let closed := (minutes start calls).closed
    let b : IpBaseline ℝ := baselineAfter start calls
    AveragesInRange (closed.map Minute.pps) b.ewmaPps b.ewmaVarPps ∧
      AveragesInRange (closed.map Minute.ports) b.ewmaPorts b.ewmaVarPorts ∧
      AveragesInRange (closed.map Minute.dns) b.ewmaDns b.ewmaVarDns ∧ ThresholdsInRange b := by
  intro closed b
  have hb : Sampled (minutes start calls) b := run_sampled h
  have hpps : ∀ x ∈ closed.map Minute.pps, 0 ≤ x ∧ x ≤ (2 ^ 31 - 1) / 60 := by
    intro x hx
    obtain ⟨w, hw, rfl⟩ := List.mem_map.mp hx
    exact Minute.pps_bounds (h.1 w hw) (minutes_elapsed start calls w hw)
  have hcount : ∀ p : BaselineCall → Bool,
      ∀ x ∈ closed.map fun w => (w.calls.countP p : ℝ), 0 ≤ x := by
    intro p x hx
    obtain ⟨w, _, rfl⟩ := List.mem_map.mp hx
    exact Nat.cast_nonneg _
  exact ⟨hb.pps.inRange fun x hx => (hpps x hx).1, hb.ports.inRange (hcount _),
    hb.dns.inRange (hcount _), thresholds_of_within (hb.pps.within (by norm_num) hpps)⟩

/-- A packet every half minute, for as many minutes as the calibration takes. -/
def hundredMinutes : List BaselineCall :=
  (List.range 201).map fun i => ⟨i = 0, i % 3 = 0, 30 * i⟩

theorem thresholds_in_range_hundredMinutes :
    (minutes 0 hundredMinutes).closed.map (fun w => (w.calls.length, w.elapsed)) =
        (3, 60) :: List.replicate 99 (2, 60) ∧
      EWMA_CALIBRATION ≤ (baselineAfter 0 hundredMinutes : IpBaseline ℝ).sampleCount ∧
      AveragesInRange ((minutes 0 hundredMinutes).closed.map Minute.pps)
        (baselineAfter 0 hundredMinutes : IpBaseline ℝ).ewmaPps
        (baselineAfter 0 hundredMinutes : IpBaseline ℝ).ewmaVarPps ∧
      ThresholdsInRange (baselineAfter 0 hundredMinutes) := by
  have hshort : (minutes 0 hundredMinutes).Short := by decide +kernel
  obtain ⟨hpps, _, _, hrange⟩ := thresholds_in_range hshort
  exact ⟨by decide +kernel, by decide +kernel, hpps, hrange⟩

/-! ## The record of a source -/

variable {R : Type} [Double R]

/-- The call of `update_baseline` for a packet. -/
def Arrival.baselineCall (a : Arrival R) : BaselineCall := ⟨a.newPort, a.isDns, a.now⟩

/-- The baseline of a record comes from the calls for its well-formed packets. -/
theorem history_baseline {ip : UInt32} {as : List (Arrival R)} {s : Suspect R}
    (h : History ip as s) :
    ∃ start, s.baseline =
      baselineAfter start ((as.filter (·.wellFormed)).map Arrival.baselineCall) := by
  have hnext : ∀ (start : Int) (as : List (Arrival R)) (a : Arrival R),
      a.record.baseline =
        baselineAfter start ((as.filter (·.wellFormed)).map Arrival.baselineCall) →
      a.tracked.baseline = baselineAfter start
        (((as ++ [a]).filter (·.wellFormed)).map Arrival.baselineCall) := by
    intro start as a hrecord
    rw [tracked_baseline, hrecord, List.filter_append, List.map_append]
    cases hwell : a.wellFormed with
    | false => simp [hwell]
    | true =>
      have hone : [a].filter (·.wellFormed) = [a] := by simp [hwell]
      rw [hone, List.map_singleton, baselineAfter_append, if_pos rfl]
      rfl
  induction h with
  | @first a hfresh =>
    rw [result_tracked]
    refine ⟨a.now, hnext a.now [] a ?_⟩
    rw [hfresh]
    rfl
  | @next as s a _ ha ih =>
    obtain ⟨start, hstart⟩ := ih
    rw [result_tracked]
    refine ⟨start, hnext start as a ?_⟩
    rw [ha]
    exact hstart

end TrafficAnalyzer
