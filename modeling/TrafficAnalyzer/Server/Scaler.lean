/-!
# The decision of the scaler (`src/server/nta_scaler.c`)

One poll of `nta_scaler_thread_main`: from the queue length, the pool size and the clock
to a call of `pool_up`, a call of `pool_down`, or nothing.
-/

namespace TrafficAnalyzer

/-- The fields of `NtaScalerCfg` that the loop reads. -/
structure ScalerCfg where
  minWorkers : Int
  maxWorkers : Int
  scaleUpBacklog : Int
  scaleDownIdleSec : Int

inductive ScalerAction
  | up
  | down
  | stay
deriving DecidableEq, Repr

/-- The branches after `pool_size`: the call that follows and `idle_since` before it. The
clock is read only while the pool could shrink; 0 means that no idle time is running. -/
def scalerDecide (cfg : ScalerCfg) (idleSince cur messagesReady now : Int) :
    ScalerAction × Int :=
  if cfg.scaleUpBacklog ≤ messagesReady ∧ cur < cfg.maxWorkers then (.up, 0)
  else if messagesReady = 0 ∧ cfg.minWorkers < cur then
    if idleSince = 0 then (.stay, now)
    else if cfg.scaleDownIdleSec ≤ now - idleSince then (.down, idleSince)
    else (.stay, idleSince)
  else (.stay, 0)

end TrafficAnalyzer
