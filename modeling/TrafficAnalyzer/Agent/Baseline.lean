import TrafficAnalyzer.Agent.Records

/-!
# The adaptive baseline

`updateBaseline` counts a packet into the current one-minute window and, when the
window has expired, folds its metrics into the moving averages. `isAnomaly` is the
three-sigma test. `windowExpired` names the branch; the lemmas below say what each
branch leaves unchanged.
-/

namespace TrafficAnalyzer

variable {R : Type} [Double R]

/-- `EWMA_ALPHA_FAST`, `EWMA_ALPHA_SLOW` and `EWMA_SIGMA`. -/
def ewmaAlphaFast : R := Double.ofInt 3 / Double.ofInt 10
def ewmaAlphaSlow : R := Double.ofInt 1 / Double.ofInt 10
def ewmaSigma : R := Double.ofInt 3

/-- One EWMA update: the new mean and the new variance after the sample `x`. -/
def ewmaStep (alpha mean var x : R) : R × R :=
  let d := x - mean
  (mean + alpha * d, (Double.ofInt 1 - alpha) * (var + alpha * d * d))

/-- The window of `b` has expired at `now`. -/
def IpBaseline.windowExpired (b : IpBaseline R) (now : Int) : Bool :=
  decide (EWMA_WINDOW_SEC ≤ difftime now b.windowStart)

/-- The three counters of the current window. -/
def IpBaseline.tick (b : IpBaseline R) (newPort isDns : Bool) : IpBaseline R :=
  { b with
    pktInWindow := inc32 b.pktInWindow
    portsInWindow := if newPort then inc32 b.portsInWindow else b.portsInWindow
    dnsInWindow := if isDns then inc32 b.dnsInWindow else b.dnsInWindow }

/-- The end of a window: the averages absorb its metrics and the counters restart. -/
def IpBaseline.close (b : IpBaseline R) (now : Int) : IpBaseline R :=
  let elapsed := difftime now b.windowStart
  let pps : R :=
    if elapsed > 0 then Double.ofInt b.pktInWindow / Double.ofInt elapsed else Double.ofInt 0
  let ports : R := Double.ofInt b.portsInWindow
  let dns : R := Double.ofInt b.dnsInWindow
  let alpha : R := if b.sampleCount < EWMA_CALIBRATION then ewmaAlphaFast else ewmaAlphaSlow
  let b :=
    if b.sampleCount = 0 then
      { b with
        ewmaPps := pps, ewmaPorts := ports, ewmaDns := dns
        ewmaVarPps := Double.ofInt 0, ewmaVarPorts := Double.ofInt 0
        ewmaVarDns := Double.ofInt 0 }
    else
      let (ewmaPps, ewmaVarPps) := ewmaStep alpha b.ewmaPps b.ewmaVarPps pps
      let (ewmaPorts, ewmaVarPorts) := ewmaStep alpha b.ewmaPorts b.ewmaVarPorts ports
      let (ewmaDns, ewmaVarDns) := ewmaStep alpha b.ewmaDns b.ewmaVarDns dns
      { b with ewmaPps, ewmaVarPps, ewmaPorts, ewmaVarPorts, ewmaDns, ewmaVarDns }
  { b with
    sampleCount := inc32 b.sampleCount
    windowStart := now
    pktInWindow := 0, portsInWindow := 0, dnsInWindow := 0 }

/-- `update_baseline`. -/
def updateBaseline (b : IpBaseline R) (newPort isDns : Bool) (now : Int) : IpBaseline R :=
  let b := b.tick newPort isDns
  if difftime now b.windowStart < EWMA_WINDOW_SEC then b else b.close now

/-- `is_anomaly`. -/
def isAnomaly (observed ewma variance : R) : Bool :=
  if !Double.lt (Double.ofInt 0) variance then false
  else Double.lt (ewmaSigma * Double.sqrt variance) (Double.fabs (observed - ewma))

theorem updateBaseline_open {b : IpBaseline R} {now : Int} (newPort isDns : Bool)
    (h : b.windowExpired now = false) :
    updateBaseline b newPort isDns now = b.tick newPort isDns := by
  have h' : difftime now (b.tick newPort isDns).windowStart < EWMA_WINDOW_SEC := by
    simpa [IpBaseline.windowExpired, IpBaseline.tick] using h
  exact if_pos h'

theorem updateBaseline_expired {b : IpBaseline R} {now : Int} (newPort isDns : Bool)
    (h : b.windowExpired now = true) :
    updateBaseline b newPort isDns now = (b.tick newPort isDns).close now := by
  have h' : ¬ difftime now (b.tick newPort isDns).windowStart < EWMA_WINDOW_SEC := by
    simpa [IpBaseline.windowExpired, IpBaseline.tick] using h
  exact if_neg h'

@[simp] theorem close_sampleCount (b : IpBaseline R) (now : Int) :
    (b.close now).sampleCount = inc32 b.sampleCount := by
  by_cases h : b.sampleCount = 0 <;> simp [IpBaseline.close, h]

@[simp] theorem close_windowStart (b : IpBaseline R) (now : Int) :
    (b.close now).windowStart = now := rfl

omit [Double R] in
@[simp] theorem tick_sampleCount (b : IpBaseline R) (newPort isDns : Bool) :
    (b.tick newPort isDns).sampleCount = b.sampleCount := rfl

/-- A call closes at most one window, and exactly when the window has expired. -/
theorem updateBaseline_sampleCount (b : IpBaseline R) (newPort isDns : Bool) (now : Int) :
    (updateBaseline b newPort isDns now).sampleCount =
      if b.windowExpired now then inc32 b.sampleCount else b.sampleCount := by
  cases h : b.windowExpired now with
  | false => simp [updateBaseline_open newPort isDns h]
  | true => simp [updateBaseline_expired newPort isDns h]

end TrafficAnalyzer
