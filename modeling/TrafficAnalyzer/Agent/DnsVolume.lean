import TrafficAnalyzer.Agent.DnsNames
import TrafficAnalyzer.Agent.Reflectors
import TrafficAnalyzer.Agent.Windows

/-!
# The DNS volume of a source

The baseline learns how many DNS packets a source sends in a minute. `detect_dns_tunnel`
does not compare the current minute with it: it compares the number of queries since the
record was created, and the test is two-sided. In exact real arithmetic:

* `suspicious_iff`: when a query that is suspicious neither by its label nor by its entropy
  is counted all the same.
* `overVolume_iff`: when only a window above the learned volume is counted.
* `steady_reported`: a source that sends one query every minute is reported.
-/

namespace TrafficAnalyzer

variable {R : Type} [Double R]

/-! ## The query counter -/

/-- A DNS query with a name. -/
def Arrival.named (a : Arrival R) : Bool :=
  a.body.isDns fun payload => isQuery payload && decide (dnsName payload ≠ [])

omit [Double R] in
theorem named_udp {a : Arrival R} {srcPort dstPort : UInt16} {payload : Bytes}
    (h : a.body = .udp srcPort dstPort payload) :
    a.named =
      (isDnsPorts srcPort dstPort && (isQuery payload && decide (dnsName payload ≠ []))) := by
  simp [Arrival.named, h, Transport.isDns]

theorem tracked_dnsQueryCount (a : Arrival R) :
    a.tracked.dnsQueryCount = countIf a.named a.record.dnsQueryCount := by
  unfold Arrival.tracked
  cases hb : a.body with
  | tcp dstPort flags =>
    simp [detectStep, tcpStep_record, withBaseline, Arrival.named, hb, Transport.isDns]
  | udp srcPort dstPort payload =>
    rw [named_udp hb]
    cases hp : isDnsPorts srcPort dstPort <;> simp [detectStep, hp, dnsStep_record, withBaseline]
  | _ => simp [detectStep, detectIcmpFlood_record, withBaseline, Arrival.named, hb,
      Transport.isDns]

theorem tracked_named {as : List (Arrival R)} {a : Arrival R}
    (h : a.record.dnsQueryCount = wrap32 (as.countP (·.named))) :
    a.tracked.dnsQueryCount = wrap32 ((as ++ [a]).countP (·.named)) := by
  rw [tracked_dnsQueryCount]
  exact countP_tick _ _ a h

/-- The counter of a record counts the named queries of its whole life. -/
theorem history_named {ip : UInt32} {as : List (Arrival R)} {s : Suspect R}
    (h : History ip as s) : s.dnsQueryCount = wrap32 (as.countP (·.named)) := by
  induction h with
  | @first a hfresh =>
    rw [result_tracked]
    refine @tracked_named R _ [] a ?_
    rw [hfresh]
    exact WrapCount.wrap32_zero.symm
  | @next as s a _ ha ih =>
    rw [result_tracked]
    refine tracked_named ?_
    rw [ha]
    exact ih

/-- The counter after a packet of a run. -/
theorem run_named {st0 : Analyzer R} {pre : List (Seen R)} {x : Seen R} {ip : UInt32}
    {a : Arrival R} (h : Lts.Run analyzerLts (analyzerReset st0) pre x.before)
    (harr : x.before.arrival ip x.label = some a) :
    a.tracked.dnsQueryCount =
      wrap32 ((arrivals ip (epoch ip (pre ++ [x]))).countP (·.named)) := by
  obtain ⟨as, has, ⟨rfl, hfresh⟩ | ⟨rfl, s, hs, ha⟩⟩ := epoch_arrival pre (run_distinct h) harr
  · rw [has]
    refine tracked_named ?_
    rw [hfresh]
    exact WrapCount.wrap32_zero.symm
  · rw [has]
    refine tracked_named ?_
    have hnamed := history_named (run_history h hs)
    rwa [ha]

/-! ## The volume test -/

/-- The DNS packets of the window `w` are above the learned volume by three sigma. -/
def OverVolume (w : List (Arrival ℝ)) (b : IpBaseline ℝ) : Prop :=
  b.ewmaDns + 3 * √b.ewmaVarDns < w.countP (·.isDns)

/-- The count `n` is away from the learned volume by three sigma, on either side. -/
def Deviates (n : Int) (b : IpBaseline ℝ) : Prop :=
  0 < b.ewmaVarDns ∧ 3 * √b.ewmaVarDns < |(n : ℝ) - b.ewmaDns|

theorem isAnomaly_iff (n : Int) (b : IpBaseline ℝ) :
    isAnomaly (Double.ofInt n) b.ewmaDns b.ewmaVarDns = true ↔ Deviates n b := by
  unfold isAnomaly Deviates
  by_cases hvar : 0 < b.ewmaVarDns <;> simp [Double.lt, Double.ofInt, Double.fabs, Double.sqrt,
    ewmaSigma, hvar]

theorem dnsSuspicious_iff {s : Suspect ℝ} {domain : Bytes}
    (hlabel : (firstLabel domain).length ≤ DNS_SUBDOMAIN_LEN)
    (hentropy : calculateEntropy (R := ℝ) domain ≤ 7 / 2) :
    dnsSuspicious s domain = true ↔
      EWMA_CALIBRATION ≤ s.baseline.sampleCount ∧ Deviates s.dnsQueryCount s.baseline := by
  have hshort : decide ((domain.takeWhile (· ≠ '.'.toUInt8)).length > DNS_SUBDOMAIN_LEN) = false :=
    decide_eq_false (Nat.not_lt.mpr hlabel)
  have hlow : Double.lt dnsEntropyThresh (calculateEntropy (R := ℝ) domain) = false := by
    refine decide_eq_false (not_lt.mpr ?_)
    simpa [dnsEntropyThresh, Double.ofInt] using hentropy
  rw [dnsSuspicious, hshort, hlow, ← isAnomaly_iff]
  by_cases hcal : EWMA_CALIBRATION ≤ s.baseline.sampleCount <;> simp [hcal]

section Query

variable {a : Arrival ℝ} {srcPort dstPort : UInt16} {payload : Bytes}

/-- A query that is suspicious neither by its label nor by its entropy is counted exactly
when the queries of the whole life of the record are away from the learned volume of a
minute. -/
theorem suspicious_iff (hbody : a.body = .udp srcPort dstPort payload)
    (hports : isDnsPorts srcPort dstPort = true) (hquery : isQuery payload = true)
    (hlabel : (firstLabel (dnsName payload)).length ≤ DNS_SUBDOMAIN_LEN)
    (hentropy : calculateEntropy (R := ℝ) (dnsName payload) ≤ 7 / 2) :
    a.suspicious = true ↔ dnsName payload ≠ [] ∧
      EWMA_CALIBRATION ≤ a.tracked.baseline.sampleCount ∧
      Deviates a.tracked.dnsQueryCount a.tracked.baseline := by
  rw [suspicious_udp hbody, hports, hquery, Bool.true_and, Bool.true_and, querySuspicious,
    Bool.and_eq_true, decide_eq_true_eq, dnsSuspicious_iff hlabel hentropy]
  refine and_congr_right fun hname => ?_
  have hbase : a.tracked.baseline = (withBaseline a.record false true a.now).baseline := by
    simp [Arrival.tracked, detectStep, hbody, hports, dnsStep_record]
  have hcount : a.tracked.dnsQueryCount = inc32 a.record.dnsQueryCount := by
    rw [tracked_dnsQueryCount, named_udp hbody, hports, hquery, decide_eq_true hname]
    rfl
  rw [hbase, hcount]
  exact Iff.rfl

theorem inc32_ne (n : Int) : inc32 n ≠ n := by
  unfold inc32 wrap32
  omega

theorem counted_iff (a : Arrival ℝ) :
    a.tracked.dnsSuspiciousCount ≠ a.record.dnsSuspiciousCount ↔ a.suspicious = true := by
  rw [tracked_dnsSuspiciousCount]
  cases a.suspicious with
  | false => simp
  | true => simpa using inc32_ne _

/-- Only a window above the learned volume is counted, exactly when the queries since the
record was created are near the learned volume, the baseline is not calibrated, the query has
no name, or the window is above the learned volume. -/
theorem overVolume_iff {st0 : Analyzer ℝ} {pre : List (Seen ℝ)} {x : Seen ℝ} {ip : UInt32}
    (h : Lts.Run analyzerLts (analyzerReset st0) pre x.before)
    (harr : x.before.arrival ip x.label = some a) (hbody : a.body = .udp srcPort dstPort payload)
    (hports : isDnsPorts srcPort dstPort = true) (hquery : isQuery payload = true)
    (hlabel : (firstLabel (dnsName payload)).length ≤ DNS_SUBDOMAIN_LEN)
    (hentropy : calculateEntropy (R := ℝ) (dnsName payload) ≤ 7 / 2) :
    let life := arrivals ip (epoch ip (pre ++ [x]))
    let b := a.tracked.baseline
    (a.tracked.dnsSuspiciousCount ≠ a.record.dnsSuspiciousCount → OverVolume (windowOf life) b) ↔
      (dnsName payload ≠ [] → EWMA_CALIBRATION ≤ b.sampleCount →
        Deviates (wrap32 (life.countP (·.named))) b → OverVolume (windowOf life) b) := by
  intro life b
  rw [counted_iff, suspicious_iff hbody hports hquery hlabel hentropy, run_named h harr]
  simp only [and_imp]
  exact Iff.rfl

end Query

/-! ## One query a minute -/

/-- 1.2.3.4 asks for the name "a". -/
def steadyIp : UInt32 := 0x04030201
def steadyPayload : Bytes := List.replicate 12 0 ++ [1, 97, 0]
def steadyQuery (t : Int) : Call := ⟨dnsFrame [1, 2, 3, 4] [8, 8, 8, 8] 200 53 steadyPayload, t⟩

/-- `n` queries, one every minute. -/
def steadyTime (k : Nat) : Int := 1000 + 60 * k
def steadyQueries (n : Nat) : List Call := (List.range n).map fun k => steadyQuery (steadyTime k)

theorem steadyQueries_succ (n : Nat) :
    steadyQueries (n + 1) = steadyQueries n ++ [steadyQuery (steadyTime n)] := by
  simp [steadyQueries, List.range_succ]

theorem steadyQuery_classify (t : Int) :
    classify (steadyQuery t).packet = .ipv4 steadyIp (.udp 200 53 steadyPayload) :=
  (by decide +kernel : classify (dnsFrame [1, 2, 3, 4] [8, 8, 8, 8] 200 53 steadyPayload) =
    .ipv4 steadyIp (.udp 200 53 steadyPayload))

theorem steady_name : dnsName steadyPayload = [97] := by decide +kernel
theorem steady_query : isQuery steadyPayload = true := by decide +kernel

theorem steady_label : (firstLabel (dnsName steadyPayload)).length ≤ DNS_SUBDOMAIN_LEN := by
  rw [steady_name]
  decide

theorem steady_entropy : calculateEntropy (R := ℝ) (dnsName steadyPayload) ≤ 7 / 2 := by
  rw [steady_name, show ([97] : Bytes) = List.replicate 1 97 from rfl,
    calculateEntropy_replicate (by decide)]
  norm_num

/-- One EWMA step towards the sample 1 keeps the mean above it, and the variance positive. -/
theorem ewmaStep_one {alpha m v : ℝ} (h0 : 0 < alpha) (h1 : alpha < 1) (hm : 1 < m) (hm2 : m ≤ 2)
    (hv : 0 ≤ v) (hv1 : v ≤ 1) :
    let r := ewmaStep alpha m v (Double.ofInt 1)
    (1 < r.1 ∧ r.1 ≤ 2) ∧ 0 < r.2 ∧ r.2 ≤ 1 := by
  intro r
  have hr : r = (m + alpha * (1 - m), (1 - alpha) * (v + alpha * (1 - m) * (1 - m))) := by
    simp [r, ewmaStep, Double.ofInt]
  have hgap : 0 < (m - 1) * (m - 1) := by nlinarith
  have hgap1 : (m - 1) * (m - 1) ≤ 1 := by nlinarith
  have hpos : 0 < v + alpha * ((m - 1) * (m - 1)) := by nlinarith
  have hle : v + alpha * ((m - 1) * (m - 1)) ≤ 1 + alpha := by nlinarith
  have hsquare : alpha * (1 - m) * (1 - m) = alpha * ((m - 1) * (m - 1)) := by ring
  rw [hr, hsquare]
  refine ⟨⟨by nlinarith, by nlinarith⟩, mul_pos (by linarith) hpos, ?_⟩
  calc (1 - alpha) * (v + alpha * ((m - 1) * (m - 1)))
      ≤ (1 - alpha) * (1 + alpha) := mul_le_mul_of_nonneg_left hle (by linarith)
    _ ≤ 1 := by nlinarith

theorem close_first {b : IpBaseline R} (h : b.sampleCount = 0) (now : Int) :
    (b.close now).ewmaDns = Double.ofInt b.dnsInWindow ∧
      (b.close now).ewmaVarDns = Double.ofInt 0 := by
  simp [IpBaseline.close, h]

theorem close_next {b : IpBaseline R} (h : b.sampleCount ≠ 0) (now : Int) :
    ((b.close now).ewmaDns, (b.close now).ewmaVarDns) =
      ewmaStep (if b.sampleCount < EWMA_CALIBRATION then ewmaAlphaFast else ewmaAlphaSlow)
        b.ewmaDns b.ewmaVarDns (Double.ofInt b.dnsInWindow) := by
  simp [IpBaseline.close, h]

/-- The baseline after `k + 1` queries. -/
structure SteadyBaseline (k : Nat) (b : IpBaseline ℝ) : Prop where
  start : b.windowStart = steadyTime k
  samples : b.sampleCount = k
  window : b.dnsInWindow = if k = 0 then 1 else 0
  mean : 1 ≤ k → 1 < b.ewmaDns ∧ b.ewmaDns ≤ 2
  var : 1 ≤ k → 0 ≤ b.ewmaVarDns ∧ b.ewmaVarDns ≤ 1
  positive : 2 ≤ k → 0 < b.ewmaVarDns

theorem steady_expired {k : Nat} {b : IpBaseline ℝ} (h : SteadyBaseline k b) :
    b.windowExpired (steadyTime (k + 1)) = true := by
  rw [IpBaseline.windowExpired, h.start, difftime, steadyTime, steadyTime, EWMA_WINDOW_SEC]
  exact decide_eq_true (by omega)

/-- Every query closes a window: the first one with two queries, every other with one. -/
theorem SteadyBaseline.next {k : Nat} {b : IpBaseline ℝ} (h : SteadyBaseline k b)
    (hk : k < 2 ^ 30) :
    SteadyBaseline (k + 1) (updateBaseline b false true (steadyTime (k + 1))) := by
  rw [updateBaseline_expired _ _ (steady_expired h)]
  have hsamples : inc32 b.sampleCount = (k + 1 : Nat) := by
    rw [h.samples]
    exact inc32_of_bounds (Int.natCast_nonneg _) (by omega)
  have hwindow := h.window
  generalize hb : b.tick false true = b1
  have hb1 : b1.sampleCount = b.sampleCount ∧ b1.dnsInWindow = inc32 b.dnsInWindow ∧
      b1.ewmaDns = b.ewmaDns ∧ b1.ewmaVarDns = b.ewmaVarDns := by
    rw [← hb]
    exact ⟨rfl, rfl, rfl, rfl⟩
  obtain ⟨hs1, hw1, hm1, hv1⟩ := hb1
  rcases Nat.eq_zero_or_pos k with rfl | hpos
  · obtain ⟨hmean, hvar⟩ := close_first (hs1.trans h.samples) (steadyTime 1)
    rw [hw1, hwindow, if_pos rfl, show inc32 1 = 2 from rfl] at hmean
    refine ⟨rfl, by rw [close_sampleCount, hs1, hsamples], rfl, fun _ => ?_, fun _ => ?_, nofun⟩
    · rw [hmean]
      norm_num [Double.ofInt]
    · rw [hvar]
      norm_num [Double.ofInt]
  · have hne : b1.sampleCount ≠ 0 := by
      rw [hs1, h.samples]
      omega
    have hstep := close_next hne (steadyTime (k + 1))
    rw [hw1, hm1, hv1, hwindow, if_neg (Nat.ne_of_gt hpos), show inc32 0 = 1 from rfl] at hstep
    obtain ⟨hm, hm2⟩ := h.mean hpos
    obtain ⟨hv, hv2⟩ := h.var hpos
    have halpha : ∀ alpha : ℝ, alpha = (if b1.sampleCount < EWMA_CALIBRATION then ewmaAlphaFast
        else ewmaAlphaSlow) → 0 < alpha ∧ alpha < 1 := by
      rintro alpha rfl
      split <;> norm_num [ewmaAlphaFast, ewmaAlphaSlow, Double.ofInt]
    obtain ⟨ha0, ha1⟩ := halpha _ rfl
    obtain ⟨hmean, hpositive, hvar⟩ := ewmaStep_one ha0 ha1 hm hm2 hv hv2
    rw [← hstep] at hmean hpositive hvar
    exact ⟨rfl, by rw [close_sampleCount, hs1, hsamples], rfl, fun _ => hmean,
      fun _ => ⟨hpositive.le, hvar⟩, fun _ => hpositive⟩

/-- The record after `k + 1` queries: from the hundredth window on, every query is counted. -/
structure SteadyRecord (k : Nat) (s : Suspect ℝ) : Prop where
  baseline : SteadyBaseline k s.baseline
  seen : s.lastSeen = steadyTime k
  queries : s.dnsQueryCount = (k + 1 : Nat)
  marks : s.dnsSuspiciousCount = (k - 99 : Nat)

/-- The query number `k` on the record `s`. -/
def steadyArrival (s : Suspect ℝ) (k : Nat) : Arrival ℝ :=
  ⟨s, .udp 200 53 steadyPayload, (steadyQuery (steadyTime k)).packet.length, steadyTime k⟩

theorem steadyArrival_named (s : Suspect ℝ) (k : Nat) : (steadyArrival s k).named = true := by
  rw [named_udp (a := steadyArrival s k) rfl, steady_query, steady_name]
  rfl

theorem steadyArrival_suspicious (s : Suspect ℝ) (k : Nat) :
    (steadyArrival s k).suspicious = true ↔
      EWMA_CALIBRATION ≤ (steadyArrival s k).tracked.baseline.sampleCount ∧
        Deviates (inc32 s.dnsQueryCount) (steadyArrival s k).tracked.baseline := by
  have hbody : (steadyArrival s k).body = .udp 200 53 steadyPayload := rfl
  rw [suspicious_iff hbody (by decide) steady_query steady_label steady_entropy,
    tracked_dnsQueryCount, steadyArrival_named, steady_name]
  simp [steadyArrival]

/-- The learned volume stays near one query a minute, and the count of the queries leaves it. -/
theorem steady_deviates {k : Nat} {b : IpBaseline ℝ} (h : SteadyBaseline k b) (hk : 100 ≤ k) :
    Deviates (k + 1 : Nat) b := by
  obtain ⟨hv, hv2⟩ := h.var (by omega)
  obtain ⟨hm, hm2⟩ := h.mean (by omega)
  have hsqrt : √b.ewmaVarDns ≤ 1 := Real.sqrt_le_one.mpr hv2
  have hfar : (100 : ℝ) ≤ (k : ℝ) := by exact_mod_cast hk
  refine ⟨h.positive (by omega), ?_⟩
  push_cast
  rw [abs_of_pos (by linarith)]
  linarith

theorem steadyArrival_baseline (s : Suspect ℝ) (k : Nat) :
    (steadyArrival s k).tracked.baseline = updateBaseline s.baseline false true (steadyTime k) :=
  tracked_baseline _

/-- What the query number `k` leaves on a record of `k` queries. -/
theorem steadyArrival_result {k : Nat} {s : Suspect ℝ} (hk : k ≤ 2 ^ 30)
    (hbase : SteadyBaseline k (steadyArrival s k).tracked.baseline)
    (hseen : s.lastSeen = steadyTime k) (hqueries : s.dnsQueryCount = k)
    (hmarks : s.dnsSuspiciousCount = (k - 100 : Nat)) :
    ((steadyArrival s k).suspicious = true ↔ 100 ≤ k) ∧
      SteadyRecord k (steadyArrival s k).result.1 := by
  have hinc : inc32 s.dnsQueryCount = (k + 1 : Nat) := by
    rw [hqueries]
    exact inc32_of_bounds (Int.natCast_nonneg _) (by omega)
  have hsuspicious : (steadyArrival s k).suspicious = true ↔ 100 ≤ k := by
    rw [steadyArrival_suspicious, hbase.samples, EWMA_CALIBRATION, hinc]
    exact ⟨fun h => by omega, fun h => ⟨by omega, steady_deviates hbase h⟩⟩
  refine ⟨hsuspicious, ?_⟩
  rw [result_tracked]
  refine ⟨hbase, (detectStep_frame _ _ _ _).2.1.trans hseen, ?_, ?_⟩
  · refine (tracked_dnsQueryCount (steadyArrival s k)).trans ?_
    rw [steadyArrival_named]
    exact hinc
  · refine (tracked_dnsSuspiciousCount (steadyArrival s k)).trans ?_
    rw [show (steadyArrival s k).record.dnsSuspiciousCount = (k - 100 : Nat) from hmarks]
    cases hs : (steadyArrival s k).suspicious with
    | true =>
      have hcal := hsuspicious.mp hs
      rw [countIf_true, inc32_of_bounds (Int.natCast_nonneg _) (by omega)]
      omega
    | false =>
      have hcal : ¬ 100 ≤ k := fun h => Bool.false_ne_true (hs.symm.trans (hsuspicious.mpr h))
      rw [countIf_false]
      omega

/-- A state after `k + 1` queries. -/
structure Steady (k : Nat) (st : Analyzer ℝ) : Prop where
  home : st.homeCidrs.used = []
  distinct : Distinct st
  record : ∃ s, st.record steadyIp = some s ∧ SteadyRecord k s

theorem steady_isHome {st : Analyzer ℝ} (h : st.homeCidrs.used = []) (t : Int) :
    (st.cleaned t).isHome steadyIp = false := by
  rw [cleaned_isHome]
  simp [Analyzer.isHome, h]

/-- A query is the arrival on the record that the cleanup leaves. -/
theorem steadyQuery_arrival {st : Analyzer ℝ} {k : Nat} {s : Suspect ℝ}
    (hw : (st.cleaned (steadyTime k)).working steadyIp (steadyTime k) = some s) :
    st.arrival steadyIp (steadyQuery (steadyTime k)) = some (steadyArrival s k) := by
  have hw' : (st.cleaned (steadyQuery (steadyTime k)).now).working steadyIp
      (steadyQuery (steadyTime k)).now = some s := hw
  simp only [Analyzer.arrival, steadyQuery_classify, hw', ↓reduceIte, Option.map_some]
  rfl

theorem steady_after {st : Analyzer ℝ} {k : Nat} {a : Arrival ℝ} (hhome : st.homeCidrs.used = [])
    (hd : Distinct st) (harr : st.arrival steadyIp (steadyQuery (steadyTime k)) = some a)
    (hrec : SteadyRecord k a.result.1) :
    Steady k (processFrame st (steadyQuery (steadyTime k)).packet (steadyTime k)).1 := by
  refine ⟨?_, processFrame_distinct hd _ _, a.result.1, ?_, hrec⟩
  · rw [processFrame_homeCidrs, hhome]
  · have hafter := processFrame_record st steadyIp (steadyQuery (steadyTime k))
    rw [harr] at hafter
    exact hafter

/-- The next query finds the record of the last one, which a cleanup keeps. -/
theorem Steady.next {st : Analyzer ℝ} {k : Nat} (h : Steady k st) (hk : k < 2 ^ 30) :
    ∃ s, SteadyRecord k s ∧
      let a := steadyArrival { s with lastSeen := steadyTime (k + 1) } (k + 1)
      st.arrival steadyIp (steadyQuery (steadyTime (k + 1))) = some a ∧
      SteadyBaseline (k + 1) a.tracked.baseline ∧ (a.suspicious = true ↔ 100 ≤ k + 1) ∧
      Steady (k + 1)
        (processFrame st (steadyQuery (steadyTime (k + 1))).packet (steadyTime (k + 1))).1 := by
  obtain ⟨s, hs, hrec⟩ := h.record
  have halive : s.alive (steadyTime (k + 1)) = true := by
    rw [Suspect.alive, hrec.seen, difftime, steadyTime, steadyTime, INACTIVE_TIMEOUT]
    exact decide_eq_true (by omega)
  have hkept : (st.cleaned (steadyTime (k + 1))).record steadyIp = some s := by
    rw [cleaned_record h.distinct, hs]
    simp [Option.filter, halive]
  have hw : (st.cleaned (steadyTime (k + 1))).working steadyIp (steadyTime (k + 1)) =
      some { s with lastSeen := steadyTime (k + 1) } := by
    simp [Analyzer.working, steady_isHome h.home, hkept]
  have harr := steadyQuery_arrival hw
  have hbase : SteadyBaseline (k + 1)
      (steadyArrival { s with lastSeen := steadyTime (k + 1) } (k + 1)).tracked.baseline := by
    rw [steadyArrival_baseline]
    exact hrec.baseline.next hk
  obtain ⟨hsuspicious, hnext⟩ := steadyArrival_result hk hbase rfl hrec.queries hrec.marks
  exact ⟨s, hrec, harr, hbase, hsuspicious, steady_after h.home h.distinct harr hnext⟩

/-- The first query finds no record. -/
theorem steady_first :
    Steady 0 (processFrame .initial (steadyQuery (steadyTime 0)).packet (steadyTime 0)).1 := by
  have hw : ((.initial : Analyzer ℝ).cleaned (steadyTime 0)).working steadyIp (steadyTime 0) =
      some (Suspect.fresh steadyIp (steadyTime 0)) := rfl
  have harr := steadyQuery_arrival hw
  refine steady_after rfl List.nodup_nil harr ?_
  have hbase : SteadyBaseline 0
      (steadyArrival (Suspect.fresh steadyIp (steadyTime 0)) 0).tracked.baseline := by
    rw [steadyArrival_baseline, updateBaseline_open _ _ rfl]
    exact ⟨rfl, rfl, rfl, nofun, nofun, nofun⟩
  exact (steadyArrival_result (Nat.zero_le _) hbase rfl rfl rfl).2

theorem steady_calls {k : Nat} (hk : k < 2 ^ 30) :
    Steady k (afterCalls .initial (steadyQueries (k + 1))) := by
  induction k with
  | zero => exact steady_first
  | succ k ih =>
    obtain ⟨-, -, -, -, -, hnext⟩ := (ih (by omega)).next (by omega)
    rw [steadyQueries_succ, afterCalls_concat]
    exact hnext

/-- The packet that closes a window is in no window. -/
theorem closes_not_overVolume {as : List (Arrival ℝ)} {a : Arrival ℝ} {b : IpBaseline ℝ}
    (hcloses : a.closes = true) (hmean : 0 < b.ewmaDns) :
    ¬ OverVolume (windowOf (as ++ [a])) b := by
  have hsqrt := Real.sqrt_nonneg b.ewmaVarDns
  rw [windowOf_snoc, if_pos hcloses, OverVolume, List.countP_nil, Nat.cast_zero, not_lt]
  linarith

/-- The window of a query that comes a minute after the last one is not above the learned
volume. -/
theorem steady_window {pre : List (Seen ℝ)} {x : Seen ℝ} {k : Nat} {s : Suspect ℝ}
    (h : Lts.Run analyzerLts (analyzerReset .initial) pre x.before) (hrec : SteadyRecord k s) :
    let a := steadyArrival { s with lastSeen := steadyTime (k + 1) } (k + 1)
    x.before.arrival steadyIp x.label = some a → SteadyBaseline (k + 1) a.tracked.baseline →
      ¬ OverVolume (windowOf (arrivals steadyIp (epoch steadyIp (pre ++ [x]))))
        a.tracked.baseline := by
  intro a harr hbase
  obtain ⟨as, has, -⟩ := epoch_arrival pre (run_distinct h) harr
  rw [has]
  exact closes_not_overVolume (steady_expired hrec.baseline)
    (zero_lt_one.trans (hbase.mean (Nat.succ_pos k)).1)

/-- The last of `k + 2` queries. -/
theorem steady_last {k : Nat} (hk : k < 2 ^ 30) :
    ∃ (pre : List (Seen ℝ)) (x : Seen ℝ) (s : Suspect ℝ),
      let a := steadyArrival { s with lastSeen := steadyTime (k + 1) } (k + 1)
      Lts.Run analyzerLts (analyzerReset .initial) (pre ++ [x]) x.after ∧
      (pre ++ [x]).map (·.label) = steadyQueries (k + 2) ∧
      x.before.arrival steadyIp x.label = some a ∧ SteadyRecord k s ∧
      SteadyBaseline (k + 1) a.tracked.baseline ∧ (a.suspicious = true ↔ 100 ≤ k + 1) := by
  obtain ⟨s, hrec, harr, hbase, hsuspicious, -⟩ := (steady_calls hk).next hk
  have hrun := observe_run (R := ℝ) .initial (steadyQueries (k + 2))
  have hlabels := observe_labels (R := ℝ) .initial (steadyQueries (k + 2))
  have hsplit := observe_concat (R := ℝ) .initial (steadyQueries (k + 1))
    (steadyQuery (steadyTime (k + 1)))
  rw [← steadyQueries_succ] at hsplit
  rw [hsplit] at hrun hlabels
  exact ⟨_, _, s, hrun, hlabels, harr, hrec, hbase, hsuspicious⟩

/-- The query that finds the hundredth window closed is counted although its window is not above
the learned volume. So it is the queries of the whole life that are away from it. -/
theorem overVolume_iff_calibrated :
    ∃ (pre : List (Seen ℝ)) (x : Seen ℝ) (a : Arrival ℝ),
      Lts.Run analyzerLts (analyzerReset .initial) (pre ++ [x]) x.after ∧
      (pre ++ [x]).map (·.label) = steadyQueries 101 ∧
      x.before.arrival steadyIp x.label = some a ∧
      EWMA_CALIBRATION ≤ a.tracked.baseline.sampleCount ∧
      a.tracked.dnsSuspiciousCount ≠ a.record.dnsSuspiciousCount ∧
      Deviates (wrap32 ((arrivals steadyIp (epoch steadyIp (pre ++ [x]))).countP (·.named)))
        a.tracked.baseline := by
  obtain ⟨pre, x, s, hrun, hlabels, harr, hrec, hbase, hsuspicious⟩ :=
    steady_last (k := 99) (by decide)
  have hcounted := (counted_iff _).mpr (hsuspicious.mpr (by decide))
  have hwindow := steady_window hrun.snoc_inv.2.1 hrec harr hbase
  refine ⟨pre, x, _, hrun, hlabels, harr, ?_, hcounted, ?_⟩
  · rw [hbase.samples]
    decide
  · by_contra hnear
    have honly := (overVolume_iff hrun.snoc_inv.2.1 harr rfl (by decide) steady_query steady_label
      steady_entropy).mpr fun _ _ hfar => absurd hfar hnear
    exact hwindow (honly hcounted)

/-- A query that is counted and fills the counter is reported. -/
theorem tunnel_attack {a : Arrival ℝ} {srcPort dstPort : UInt16} {payload : Bytes}
    (hbody : a.body = .udp srcPort dstPort payload) (hports : isDnsPorts srcPort dstPort = true)
    (hquery : isQuery payload = true) (hsuspicious : a.suspicious = true)
    (hmarks : DNS_SUSPICIOUS_MAX ≤ inc32 a.record.dnsSuspiciousCount) :
    a.attack = some .dnsTunnel := by
  rw [suspicious_udp hbody, hports, hquery, Bool.true_and, Bool.true_and] at hsuspicious
  have hreply : isReply payload = false := by
    unfold isQuery at hquery
    unfold isReply
    cases hres : isResponse payload <;> simp_all
  have hverdict : (dnsTunnelStep (withBaseline a.record false true a.now) payload).2 =
      some .dnsTunnel := by
    rw [dnsTunnelStep_attack, if_pos ⟨hsuspicious, hmarks⟩]
  simp only [Arrival.attack, hbody, detectStep, hports, ↓reduceIte, dnsStep_attack, hreply, hquery,
    Bool.false_eq_true, hverdict, Option.some_or]

/-- A source that sends one query every minute, and learns this volume, is reported as a
tunnel in the 110th minute: its window is not above the learned volume. -/
theorem steady_reported :
    ∃ (pre : List (Seen ℝ)) (x : Seen ℝ) (a : Arrival ℝ),
      Lts.Run analyzerLts (analyzerReset .initial) (pre ++ [x]) x.after ∧
      (pre ++ [x]).map (·.label) = steadyQueries 110 ∧
      x.before.arrival steadyIp x.label = some a ∧ a.body = .udp 200 53 steadyPayload ∧
      (firstLabel (dnsName steadyPayload)).length ≤ DNS_SUBDOMAIN_LEN ∧
      calculateEntropy (R := ℝ) (dnsName steadyPayload) ≤ 7 / 2 ∧
      EWMA_CALIBRATION ≤ a.tracked.baseline.sampleCount ∧
      a.tracked.dnsSuspiciousCount ≠ a.record.dnsSuspiciousCount ∧
      ¬ OverVolume (windowOf (arrivals steadyIp (epoch steadyIp (pre ++ [x])))) a.tracked.baseline ∧
      Reports x .dnsTunnel := by
  obtain ⟨pre, x, s, hrun, hlabels, harr, hrec, hbase, hsuspicious⟩ :=
    steady_last (k := 108) (by decide)
  have hcounted := hsuspicious.mpr (by decide)
  have hwindow := steady_window hrun.snoc_inv.2.1 hrec harr hbase
  refine ⟨pre, x, _, hrun, hlabels, harr, rfl, steady_label, steady_entropy, ?_,
    (counted_iff _).mpr hcounted, hwindow, (reports_arrival hrun.snoc_inv.2.2 harr _).mpr ?_⟩
  · rw [hbase.samples]
    decide
  · refine tunnel_attack rfl (by decide) steady_query hcounted ?_
    rw [steadyArrival, hrec.marks]
    decide

end TrafficAnalyzer
