import TrafficAnalyzer.Lib.Lts
import TrafficAnalyzer.Server.Scaler

/-!
# The loop of the scaler (`src/server/nta_scaler.c`)

`nta_scaler_thread_main` on its own, poll after poll. What a poll meets is its label: the
answer of the queue, the time that has gone by, and whether the callback changes the pool.

1. `idleSince_running`: a value of `idle_since` other than 0 stands for an earlier poll from
   which on the queue has been empty.
2. `scaler_safe`: when the pool grows, when it shrinks, and between which sizes it stays.
-/

namespace TrafficAnalyzer

/-! ## The source -/

/-- One turn of the loop. `waited` is the time up to its reading of the clock, `took` the time
of the callback, and `moved` tells whether the callback changes the pool. -/
structure Poll where
  messagesReady : Option Int
  waited : Nat
  took : Nat
  moved : Bool
deriving DecidableEq, Repr

structure ScalerLoop where
  size : Int
  idleSince : Int
  clock : Int
deriving DecidableEq, Repr

/-- The body of the loop. `pool_up` and `pool_down` change the pool by at most one worker. -/
def pollStep (cfg : ScalerCfg) (s : ScalerLoop) (p : Poll) : ScalerLoop :=
  let now := s.clock + p.waited
  let later := now + p.took
  match p.messagesReady with
  | none => ⟨s.size, s.idleSince, later⟩
  | some ready =>
    match scalerDecide cfg s.idleSince s.size ready now with
    | (.up, idleSince) => ⟨s.size + p.moved.toNat, idleSince, later⟩
    | (.down, _) => ⟨s.size - p.moved.toNat, later, later⟩
    | (.stay, idleSince) => ⟨s.size, idleSince, later⟩

def scalerLts (cfg : ScalerCfg) : Lts ScalerLoop Poll where
  init s := s.idleSince = 0 ∧ 0 < s.clock
  step s p := some (pollStep cfg s p)

abbrev PollStep := Lts.Step ScalerLoop Poll

/-- The reading of the clock in a poll. -/
def pollTime (x : PollStep) : Int := x.before.clock + x.label.waited

/-- A poll that has found the queue empty and the pool above its minimum. -/
def FoundIdle (cfg : ScalerCfg) (x : PollStep) : Prop :=
  x.label.messagesReady = some 0 ∧ cfg.minWorkers < x.before.size

/-- A failed poll, or one that has found the queue empty. -/
def StaysIdle (cfg : ScalerCfg) (x : PollStep) : Prop :=
  x.label.messagesReady = none ∨ FoundIdle cfg x

def Grows (x : PollStep) : Prop := x.before.size < x.after.size

def Shrinks (x : PollStep) : Prop := x.after.size < x.before.size

/-- One of the polls has found the queue empty no later than at the time `t`, and none after
it has found it otherwise. -/
def IdleSince (cfg : ScalerCfg) (tr : List PollStep) (t : Int) : Prop :=
  ∃ a y b, tr = a ++ y :: b ∧ FoundIdle cfg y ∧ pollTime y ≤ t ∧ ∀ z ∈ b, StaysIdle cfg z

/-- A poll after the polls `pre`. -/
structure ScaledAt (cfg : ScalerCfg) (pre : List PollStep) (x : PollStep) : Prop where
  byOne : x.after.size ≤ x.before.size + 1 ∧ x.before.size ≤ x.after.size + 1
  grows : Grows x → x.before.size < cfg.maxWorkers ∧
    ∃ ready, x.label.messagesReady = some ready ∧ cfg.scaleUpBacklog ≤ ready
  shrinks : Shrinks x → FoundIdle cfg x ∧ IdleSince cfg pre (pollTime x - cfg.scaleDownIdleSec)
  apart : Shrinks x → ∀ y ∈ pre, Shrinks y →
    cfg.scaleDownIdleSec ≤ pollTime x - y.after.clock

/-! ## One poll -/

/-- The turns of the loop by the branch that they take. -/
inductive PollMove (cfg : ScalerCfg) (s : ScalerLoop) (p : Poll) : ScalerLoop → Prop
  | fail : p.messagesReady = none →
      PollMove cfg s p ⟨s.size, s.idleSince, s.clock + p.waited + p.took⟩
  | up {ready} : p.messagesReady = some ready → cfg.scaleUpBacklog ≤ ready →
      s.size < cfg.maxWorkers →
      PollMove cfg s p ⟨s.size + p.moved.toNat, 0, s.clock + p.waited + p.took⟩
  | start : p.messagesReady = some 0 → cfg.minWorkers < s.size →
      PollMove cfg s p ⟨s.size, s.clock + p.waited, s.clock + p.waited + p.took⟩
  | down : p.messagesReady = some 0 → cfg.minWorkers < s.size → s.idleSince ≠ 0 →
      cfg.scaleDownIdleSec ≤ s.clock + p.waited - s.idleSince →
      PollMove cfg s p
        ⟨s.size - p.moved.toNat, s.clock + p.waited + p.took, s.clock + p.waited + p.took⟩
  | wait : p.messagesReady = some 0 → cfg.minWorkers < s.size →
      PollMove cfg s p ⟨s.size, s.idleSince, s.clock + p.waited + p.took⟩
  | reset : PollMove cfg s p ⟨s.size, 0, s.clock + p.waited + p.took⟩

theorem pollStep_move (cfg : ScalerCfg) (s : ScalerLoop) (p : Poll) :
    PollMove cfg s p (pollStep cfg s p) := by
  unfold pollStep
  cases hready : p.messagesReady with
  | none => exact .fail hready
  | some ready =>
    dsimp only
    unfold scalerDecide
    split_ifs with hup hidle hzero hlong
    · exact .up hready hup.1 hup.2
    · obtain ⟨rfl, hmin⟩ := hidle
      exact .start hready hmin
    · obtain ⟨rfl, hmin⟩ := hidle
      exact .down hready hmin hzero hlong
    · obtain ⟨rfl, hmin⟩ := hidle
      exact .wait hready hmin
    · exact .reset

section Move

variable {cfg : ScalerCfg} {s u : ScalerLoop} {p : Poll}

theorem moved_le (p : Poll) : 0 ≤ (p.moved.toNat : Int) ∧ (p.moved.toNat : Int) ≤ 1 := by
  cases p.moved <;> decide

theorem PollMove.byOne (h : PollMove cfg s p u) : u.size ≤ s.size + 1 ∧ s.size ≤ u.size + 1 := by
  have hmoved := moved_le p
  cases h with
  | up => constructor <;> dsimp only <;> omega
  | down => constructor <;> dsimp only <;> omega
  | fail | start | wait | reset => constructor <;> exact Int.le_add_one (Int.le_refl _)

/-- Only the first branch lets the pool grow. -/
theorem PollMove.grows (h : PollMove cfg s p u) (hsize : s.size < u.size) :
    s.size < cfg.maxWorkers ∧
      ∃ ready, p.messagesReady = some ready ∧ cfg.scaleUpBacklog ≤ ready := by
  cases h with
  | up hready hup hmax => exact ⟨hmax, _, hready, hup⟩
  | down => exact absurd hsize (Int.not_lt.mpr (Int.sub_le_self _ (moved_le p).1))
  | fail | start | wait | reset => exact absurd hsize (Int.lt_irrefl _)

/-- Only the call of `pool_down` lets it shrink. -/
theorem PollMove.shrinks (h : PollMove cfg s p u) (hsize : u.size < s.size) :
    p.messagesReady = some 0 ∧ cfg.minWorkers < s.size ∧ s.idleSince ≠ 0 ∧
      cfg.scaleDownIdleSec ≤ s.clock + p.waited - s.idleSince ∧ u.idleSince = u.clock := by
  cases h with
  | down hready hmin hzero hlong => exact ⟨hready, hmin, hzero, hlong, rfl⟩
  | up => exact absurd hsize (Int.not_lt.mpr (Int.le_add_of_nonneg_right (moved_le p).1))
  | fail | start | wait | reset => exact absurd hsize (Int.lt_irrefl _)

theorem PollMove.clock (h : PollMove cfg s p u) : u.clock = s.clock + p.waited + p.took := by
  cases h <;> rfl

theorem PollMove.clock_le (h : PollMove cfg s p u) :
    s.clock + p.waited ≤ u.clock ∧ s.clock ≤ u.clock := by
  rw [h.clock]
  omega

end Move

/-! ## All polls -/

/-- What `idle_since`, the clock and the size of the pool say of the polls so far. -/
structure ScalerInv (cfg : ScalerCfg) (initial : Int) (tr : List PollStep) (s : ScalerLoop) :
    Prop where
  running : s.idleSince ≠ 0 → IdleSince cfg tr s.idleSince
  shrunk : ∀ y ∈ tr, Shrinks y → s.idleSince = 0 ∨ y.after.clock ≤ s.idleSince
  past : ∀ y ∈ tr, y.after.clock ≤ s.clock
  positive : 0 < s.clock
  low : min initial cfg.minWorkers ≤ s.size
  high : s.size ≤ max initial cfg.maxWorkers

section Run

variable {cfg : ScalerCfg} {initial t t' : Int} {tr : List PollStep} {s u s0 : ScalerLoop}
  {p : Poll}

/-- The idle time goes on. -/
theorem IdleSince.snoc (h : IdleSince cfg tr t) {x : PollStep} (hx : StaysIdle cfg x) :
    IdleSince cfg (tr ++ [x]) t := by
  obtain ⟨a, y, b, rfl, hy, htime, hb⟩ := h
  refine ⟨a, y, b ++ [x], by simp, hy, htime, fun z hz => ?_⟩
  rcases List.mem_append.mp hz with hz | hz
  · exact hb z hz
  · rw [List.mem_singleton.mp hz]
    exact hx

/-- The idle time starts. -/
theorem IdleSince.start {x : PollStep} (hx : FoundIdle cfg x) (htime : pollTime x ≤ t) :
    IdleSince cfg (tr ++ [x]) t :=
  ⟨tr, x, [], rfl, hx, htime, fun _ hz => absurd hz List.not_mem_nil⟩

theorem IdleSince.mono (h : IdleSince cfg tr t) (ht : t ≤ t') : IdleSince cfg tr t' := by
  obtain ⟨a, y, b, htr, hy, htime, hb⟩ := h
  exact ⟨a, y, b, htr, hy, Int.le_trans htime ht, hb⟩

/-- What a poll does is right when `idle_since` stands for the polls so far. -/
theorem PollMove.scaled (hm : PollMove cfg s p u) (h : ScalerInv cfg initial tr s) :
    ScaledAt cfg tr ⟨s, p, u⟩ where
  byOne := hm.byOne
  grows := hm.grows
  shrinks := by
    intro hshrinks
    obtain ⟨hready, hmin, hrunning, hlong, -⟩ := hm.shrinks hshrinks
    have hfirst : s.idleSince ≤ s.clock + p.waited - cfg.scaleDownIdleSec := by omega
    exact ⟨⟨hready, hmin⟩, (h.running hrunning).mono hfirst⟩
  apart := by
    intro hshrinks y hy hearlier
    obtain ⟨-, -, hrunning, hlong, -⟩ := hm.shrinks hshrinks
    have hsince := (h.shrunk y hy hearlier).resolve_left hrunning
    exact Int.le_trans hlong (Int.sub_le_sub_left hsince _)

/-- The invariant over one poll. -/
theorem PollMove.inv (hm : PollMove cfg s p u) (h : ScalerInv cfg initial tr s) :
    ScalerInv cfg initial (tr ++ [⟨s, p, u⟩]) u where
  running := by
    have hfrom := h.positive
    cases hm with
    | fail hnone => exact fun hrunning => (h.running hrunning).snoc (.inl hnone)
    | up | reset => exact fun hrunning => absurd rfl hrunning
    | start hready hmin => exact fun _ => .start ⟨hready, hmin⟩ (Int.le_refl _)
    | down hready hmin =>
      exact fun _ => .start ⟨hready, hmin⟩ (Int.le_add_of_nonneg_right (Int.natCast_nonneg _))
    | wait hready hmin => exact fun hrunning => (h.running hrunning).snoc (.inr ⟨hready, hmin⟩)
  shrunk := by
    intro y hy hshrinks
    rcases List.mem_append.mp hy with hy | hy
    · have hpast := h.past y hy
      have hold := h.shrunk y hy hshrinks
      have hclock := hm.clock_le.2
      cases hm with
      | fail | wait => exact hold
      | up | reset => exact .inl rfl
      | start =>
        exact .inr (Int.le_trans hpast (Int.le_add_of_nonneg_right (Int.natCast_nonneg _)))
      | down => exact .inr (Int.le_trans hpast hclock)
    · rw [List.mem_singleton.mp hy] at hshrinks ⊢
      exact .inr (Int.le_of_eq (hm.shrinks hshrinks).2.2.2.2.symm)
  past := by
    intro y hy
    rcases List.mem_append.mp hy with hy | hy
    · exact Int.le_trans (h.past y hy) hm.clock_le.2
    · obtain rfl := List.mem_singleton.mp hy
      exact Int.le_refl _
  positive := Int.lt_of_lt_of_le h.positive hm.clock_le.2
  low := by
    rcases Int.lt_or_le u.size s.size with hshrinks | hkeeps
    · have hmin := (hm.shrinks hshrinks).2.1
      have hone := hm.byOne.2
      exact Int.le_trans (Int.min_le_right _ _) (by omega)
    · exact Int.le_trans h.low hkeeps
  high := by
    rcases Int.lt_or_le s.size u.size with hgrows | hkeeps
    · have hmax := (hm.grows hgrows).1
      exact Int.le_trans hm.byOne.1 (Int.le_trans hmax (Int.le_max_right _ _))
    · exact Int.le_trans hkeeps h.high

theorem scaler_inv (h0 : (scalerLts cfg).init s0) (h : Lts.Run (scalerLts cfg) s0 tr s) :
    ScalerInv cfg s0.size tr s := by
  refine h.induct (I := ScalerInv cfg s0.size) ?_ fun _ t p u _ hinv hs => ?_
  · exact ⟨fun hrunning => absurd h0.1 hrunning, fun _ hy => absurd hy List.not_mem_nil,
      fun _ hy => absurd hy List.not_mem_nil, h0.2, Int.min_le_left _ _, Int.le_max_left _ _⟩
  · cases hs
    exact (pollStep_move cfg t p).inv hinv

/-- A value of `idle_since` other than 0 stands for an earlier poll from which on the queue has
been empty. -/
theorem idleSince_running (h0 : (scalerLts cfg).init s0) (h : Lts.Run (scalerLts cfg) s0 tr s)
    (hrunning : s.idleSince ≠ 0) : IdleSince cfg tr s.idleSince :=
  (scaler_inv h0 h).running hrunning

/-- The scaler changes the pool by one worker at most, grows it on a backlog only, shrinks it
after `scale_down_idle_sec` with an empty queue only, and keeps it between its bounds. -/
theorem scaler_safe (h0 : (scalerLts cfg).init s0) (h : Lts.Run (scalerLts cfg) s0 tr s) :
    (∀ pre x post, tr = pre ++ x :: post → ScaledAt cfg pre x) ∧
      min s0.size cfg.minWorkers ≤ s.size ∧ s.size ≤ max s0.size cfg.maxWorkers := by
  have hend := scaler_inv h0 h
  refine ⟨?_, hend.low, hend.high⟩
  rintro pre ⟨t, p, u⟩ post rfl
  obtain ⟨hbefore, hstep, -⟩ := h.around
  obtain rfl : pollStep cfg t p = u := Option.some.inj hstep
  exact (pollStep_move cfg t p).scaled (scaler_inv h0 hbefore)

end Run

/-- Three polls of the empty queue, one of them failed, in 60 seconds. -/
def idleMinute : List Poll :=
  [⟨some 0, 0, 0, true⟩, ⟨none, 30, 0, true⟩, ⟨some 0, 30, 2, true⟩, ⟨some 0, 59, 0, true⟩]

theorem scaler_safe_idleMinute :
    ∃ (tr : List PollStep) (s : ScalerLoop),
      Lts.Run (scalerLts ⟨2, 16, 1000, 60⟩) ⟨4, 0, 100⟩ tr s ∧
        tr.map (·.after.size) = [4, 4, 3, 3] ∧
        (∀ pre x post, tr = pre ++ x :: post → ScaledAt ⟨2, 16, 1000, 60⟩ pre x) ∧
        2 ≤ s.size ∧ s.size ≤ 16 := by
  have hok : ((scalerLts ⟨2, 16, 1000, 60⟩).exec ⟨4, 0, 100⟩ idleMinute).map
      (fun r => r.1.map (·.after.size)) = some [4, 4, 3, 3] := by
    decide
  obtain ⟨tr, s, hrun, hval⟩ := Lts.run_of_exec hok
  exact ⟨tr, s, hrun, hval, scaler_safe (by exact ⟨rfl, by decide⟩) hrun⟩

end TrafficAnalyzer
