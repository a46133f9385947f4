import TrafficAnalyzer.Lib.Lts
import TrafficAnalyzer.Agent.Steps

/-!
# Runs of the analyzer and the history of a record

The analyzer is a transition system whose labels are the calls of `analyze_packet`.
A record of the table is created, updated by the packets of its source, and evicted,
while packets of other sources interleave. This module separates one record from
that traffic:

* `processFrame_record`: a call changes the record of `ip` only by evicting it or by
  an `Arrival`, a packet of `ip` that the analyzer works on.
* `epoch ip tr` is the part of a run since the record of `ip` was created.
* `run_history`: the record is the result of the arrivals of its epoch, in order, from
  a fresh record (`History`).

Facts about one source are then inductions over `History`.
-/

namespace TrafficAnalyzer

/-- One call of `analyze_packet`. -/
structure Call where
  packet : Bytes
  now : Int
deriving DecidableEq, Repr

variable {R : Type} [Double R]

/-- The analyzer, started by `analyzer_reset`, one call a step. -/
def analyzerLts : Lts (Analyzer R) Call where
  init st := ∃ st0, st = analyzerReset st0
  step st c := (analyzePacket st c.packet c.now).map Prod.fst

/-- A call in a run, with the states around it. -/
abbrev Seen (R : Type) := Lts.Step (Analyzer R) Call

/-- The call returns 1 and records the attack `a`. -/
def Reports (x : Seen R) (a : Attack) : Prop :=
  ∃ outcome, analyzePacket x.before x.label.packet x.label.now = some (x.after, outcome) ∧
    outcome.ret = 1 ∧ ∃ d ∈ outcome.recorded, d.attackType = a

theorem analyzerLts_step {st st' : Analyzer R} {c : Call} :
    analyzerLts.step st c = some st' ↔ (processFrame st c.packet c.now).1 = st' := by
  simp [analyzerLts, analyzePacket_eq]

/-- The attacks that a call records. -/
def verdicts (st : Analyzer R) (c : Call) : List Attack :=
  (processFrame st c.packet c.now).2.recorded.map (·.attackType)

/-! ## Executing a run -/

/-- The calls `cs` from `st`, each with the states around it. -/
def observe (st : Analyzer R) : List Call → List (Seen R)
  | [] => []
  | c :: cs =>
    let st' := (processFrame st c.packet c.now).1
    ⟨st, c, st'⟩ :: observe st' cs

/-- The state after the calls `cs`. -/
def afterCalls (st : Analyzer R) (cs : List Call) : Analyzer R :=
  cs.foldl (fun st c => (processFrame st c.packet c.now).1) st

theorem observe_run (st : Analyzer R) (cs : List Call) :
    Lts.Run analyzerLts st (observe st cs) (afterCalls st cs) := by
  induction cs generalizing st with
  | nil => exact .nil
  | cons c cs ih =>
    exact Lts.Run.append (a := [⟨st, c, _⟩]) (.single (analyzerLts_step.mpr rfl)) (ih _)

theorem observe_labels (st : Analyzer R) (cs : List Call) :
    (observe st cs).map (·.label) = cs := by
  induction cs generalizing st with
  | nil => rfl
  | cons c cs ih => simp [observe, ih]

theorem afterCalls_concat (st : Analyzer R) (cs : List Call) (c : Call) :
    afterCalls st (cs ++ [c]) = (processFrame (afterCalls st cs) c.packet c.now).1 := by
  simp [afterCalls]

theorem observe_concat (st : Analyzer R) (cs : List Call) (c : Call) :
    observe st (cs ++ [c]) =
      observe st cs ++ [⟨afterCalls st cs, c, afterCalls st (cs ++ [c])⟩] := by
  induction cs generalizing st with
  | nil => rfl
  | cons c' cs ih => simp only [List.cons_append, observe, ih]; rfl

/-- The state before any packet, with an empty HOME_NET. -/
def Analyzer.initial : Analyzer R := ⟨.empty, .empty, 0, .empty⟩

/-- An Ethernet frame with an IPv4 header of 20 bytes, for the concrete runs. -/
def ipv4Frame (proto : UInt8) (src l4 : Bytes) : Bytes :=
  List.replicate 12 0 ++ [0x08, 0x00, 0x45, 0, 0, 0, 0, 0, 0, 0, 64, proto, 0, 0] ++ src ++
    [10, 0, 0, 1] ++ l4

def tcpFrame (src : Bytes) (dstPort : UInt8) (flags : UInt8) : Bytes :=
  ipv4Frame 6 src ([0, 80, 0, dstPort] ++ List.replicate 9 0 ++ [flags] ++ List.replicate 6 0)

example : classify (tcpFrame [1, 2, 3, 4] 22 0x02) = .ipv4 0x04030201 (.tcp 22 0x02) := by
  decide +kernel

/-! ## The record of a source -/

/-- No two records have one address. -/
def Distinct (st : Analyzer R) : Prop := (st.suspects.used.map (·.ip)).Nodup

/-- `cleanup_suspects` is due. -/
def Analyzer.due (st : Analyzer R) (now : Int) : Bool :=
  decide (CLEANUP_INTERVAL ≤ difftime now st.lastCleanup)

/-- A record that a due cleanup keeps. -/
def Suspect.alive (s : Suspect R) (now : Int) : Bool :=
  decide (difftime now s.lastSeen < INACTIVE_TIMEOUT)

/-- A packet that the analyzer works on, with the record it finds. -/
structure Arrival (R : Type) where
  record : Suspect R
  body : Transport
  length : Nat
  now : Int

/-- The record that an arrival leaves, and its outcome. -/
def Arrival.result (a : Arrival R) : Suspect R × Outcome :=
  transportStep a.record a.body a.record.ip a.length a.now

/-- What the detectors answer. -/
def Arrival.attack (a : Arrival R) : Option Attack :=
  (detectStep a.record a.body a.length a.now).2

/-- The record that the detectors leave, before the kill chain. -/
def Arrival.tracked (a : Arrival R) : Suspect R := (detectStep a.record a.body a.length a.now).1

/-- Apart from the kill chain, an arrival leaves what the detectors leave. -/
theorem result_tracked (a : Arrival R) : a.result.1 = a.tracked.withChain a.result.1 := by
  rw [Arrival.result, transportStep_record]
  exact advanceKillChain_frame _ _ _

/-- The arrival of a packet of `ip`, if the call is one. -/
def Analyzer.arrival (st : Analyzer R) (ip : UInt32) (c : Call) : Option (Arrival R) :=
  match classify c.packet with
  | .ipv4 src body =>
    if src = ip then
      ((st.cleaned c.now).working ip c.now).map fun s => ⟨s, body, c.packet.length, c.now⟩
    else none
  | _ => none

omit [Double R] in
theorem record_ip {st : Analyzer R} {ip : UInt32} {s : Suspect R} (h : st.record ip = some s) :
    s.ip = ip := by
  simpa using List.find?_some h

/-- The two ways to work on a record: it is found, or it is created in a free cell. -/
theorem working_cases {st : Analyzer R} {ip : UInt32} {now : Int} {s : Suspect R}
    (h : st.working ip now = some s) :
    (∃ s0, st.record ip = some s0 ∧ s = { s0 with lastSeen := now }) ∨
      (st.record ip = none ∧ st.suspects.count < MAX_SUSPECTS ∧ s = Suspect.fresh ip now) := by
  unfold Analyzer.working at h
  split at h
  · cases h
  cases hr : st.record ip with
  | some s0 =>
    simp only [hr, Option.some.injEq] at h
    exact .inl ⟨s0, rfl, h.symm⟩
  | none =>
    simp only [hr] at h
    split at h
    · cases h
    · next hfull => exact .inr ⟨rfl, Nat.lt_of_not_le hfull, (Option.some.inj h).symm⟩

theorem working_ip {st : Analyzer R} {ip : UInt32} {now : Int} {s : Suspect R}
    (h : st.working ip now = some s) : s.ip = ip := by
  rcases working_cases h with ⟨s0, hr, rfl⟩ | ⟨_, _, rfl⟩
  · show s0.ip = ip
    exact record_ip hr
  · rfl

omit [Double R] in
theorem cleaned_eq (st : Analyzer R) (now : Int) :
    st.cleaned now = if st.due now then
      { st with suspects := st.suspects.filter (·.alive now), lastCleanup := now } else st := by
  unfold Analyzer.cleaned Analyzer.due Suspect.alive
  by_cases h : difftime now st.lastCleanup < CLEANUP_INTERVAL
  · simp [h, Int.not_le.mpr h]
  · simp [h, Int.not_lt.mp h]

omit [Double R] in
theorem cleaned_homeCidrs (st : Analyzer R) (now : Int) :
    (st.cleaned now).homeCidrs = st.homeCidrs := by
  rw [cleaned_eq]
  split <;> rfl

omit [Double R] in
theorem cleaned_arpTable (st : Analyzer R) (now : Int) :
    (st.cleaned now).arpTable = st.arpTable := by
  rw [cleaned_eq]
  split <;> rfl

omit [Double R] in
/-- HOME_NET decides by the list of networks alone. -/
theorem isHome_congr {st st1 : Analyzer R} (h : st.homeCidrs = st1.homeCidrs) (ip : UInt32) :
    st.isHome ip = st1.isHome ip := by
  unfold Analyzer.isHome
  rw [h]

omit [Double R] in
theorem cleaned_isHome (st : Analyzer R) (now : Int) (ip : UInt32) :
    (st.cleaned now).isHome ip = st.isHome ip :=
  isHome_congr (cleaned_homeCidrs st now) ip

omit [Double R] in
/-- A due cleanup keeps the record of `ip` exactly when it is alive. -/
theorem cleaned_record {st : Analyzer R} (hd : Distinct st) (now : Int) (ip : UInt32) :
    (st.cleaned now).record ip =
      if st.due now then (st.record ip).filter (·.alive now) else st.record ip := by
  rw [cleaned_eq]
  split
  · exact Slots.find?_filter_key Suspect.ip ip _ hd
  · rfl

omit [Double R] in
/-- The cleanup keeps or drops a record, and changes none. -/
theorem cleaned_kept {st : Analyzer R} (hd : Distinct st) {now : Int} {ip : UInt32} {s : Suspect R}
    (h : (st.cleaned now).record ip = some s) : st.record ip = some s := by
  rw [cleaned_record hd] at h
  split at h
  · exact (Option.filter_eq_some_iff.mp h).1
  · exact h

omit [Double R] in
theorem cleaned_distinct {st : Analyzer R} (hd : Distinct st) (now : Int) :
    Distinct (st.cleaned now) := by
  rw [cleaned_eq]
  split
  · exact List.Nodup.sublist (List.filter_sublist.map _) hd
  · exact hd

section Store

variable {st : Analyzer R} {src : UInt32} {s : Suspect R}

omit [Double R] in
theorem store_record_self (hip : s.ip = src)
    (hroom : st.record src = none → st.suspects.count < MAX_SUSPECTS) :
    (st.store src s).record src = some s := by
  unfold Analyzer.store
  cases hr : st.record src with
  | some s0 => exact Slots.find?_replaceFirst_self hr (by simpa using hip)
  | none => exact Slots.find?_pushD_self hr (hroom hr) (by simpa using hip)

omit [Double R] in
theorem store_record_other (hip : s.ip = src) {ip : UInt32} (hne : ip ≠ src) :
    (st.store src s).record ip = st.record ip := by
  have hother : ∀ x : Suspect R, decide (x.ip = src) = true → decide (x.ip = ip) = false := by
    intro x hx
    simp only [decide_eq_true_eq] at hx
    simpa [hx] using Ne.symm hne
  unfold Analyzer.store
  cases st.record src with
  | some s0 => exact Slots.find?_replaceFirst_other hother (hother s (by simpa using hip))
  | none => exact Slots.find?_pushD_other (hother s (by simpa using hip))

omit [Double R] in
theorem store_distinct (hip : s.ip = src) (hd : Distinct st) : Distinct (st.store src s) := by
  unfold Distinct Analyzer.store
  cases hr : st.record src with
  | some s0 =>
    have hkeys := Slots.map_key_replaceFirst (a := s) Suspect.ip hr (by rw [hip, record_ip hr])
    simpa only [Option.isSome_some, ↓reduceIte, hkeys, Distinct] using hd
  | none =>
    refine Slots.nodup_key_pushD Suspect.ip hd fun hmem => ?_
    obtain ⟨x, hx, hkey⟩ := List.mem_map.mp hmem
    exact List.find?_eq_none.mp hr x hx (decide_eq_true (hkey.trans hip))

end Store

/-! ## What a call can do -/

/-- The ways in which the analyzer treats a capture in the cleaned state `st`: nothing, an
ARP alert, a new ARP entry, or a packet on the record of its source. -/
inductive FrameMove (st : Analyzer R) (p : Bytes) (now : Int) : Analyzer R × Outcome → Prop
  | skip :
      (∀ src body, classify p = .ipv4 src body → st.working src now = none) →
      FrameMove st p now (st, .quiet)
  | arpAlert {mac : Bytes} {ip : UInt32} {entry : ArpEntry} :
      classify p = .arpReply mac ip →
      st.arpTable.used.find? (·.mac = mac) = some entry → entry.ip ≠ ip →
      FrameMove st p now
        (st, ⟨1, [⟨inetNtoa ip, 0, "ARP", p.length, true, some .arpSpoof, .recon, 20, "T1557"⟩],
          [⟨.arpSpoof, inetNtoa ip, now⟩]⟩)
  | arpNew {mac : Bytes} {ip : UInt32} :
      classify p = .arpReply mac ip → st.arpTable.used.find? (·.mac = mac) = none →
      FrameMove st p now ({ st with arpTable := st.arpTable.pushD ⟨mac, ip⟩ }, .quiet)
  | packet {src : UInt32} {body : Transport} {s : Suspect R} :
      classify p = .ipv4 src body → st.working src now = some s →
      FrameMove st p now
        (st.store src (transportStep s body src p.length now).1,
          (transportStep s body src p.length now).2)

theorem processFrame_move (st : Analyzer R) (p : Bytes) (now : Int) :
    FrameMove (st.cleaned now) p now (processFrame st p now) := by
  unfold processFrame
  cases hc : classify p with
  | ignored => exact .skip fun src body h => by simp [hc] at h
  | arpReply mac ip =>
    simp only [Analyzer.processArp]
    cases hfind : (st.cleaned now).arpTable.used.find? (·.mac = mac) with
    | some entry =>
      dsimp only
      split
      · next hne => exact .arpAlert hc hfind hne
      · exact .skip fun src body h => by simp [hc] at h
    | none => exact .arpNew hc hfind
  | ipv4 src body =>
    simp only [Analyzer.processIp]
    cases hw : (st.cleaned now).working src now with
    | some s => exact .packet hc hw
    | none =>
      refine .skip fun src' body' h => ?_
      rw [hc, Frame.ipv4.injEq] at h
      rw [← h.1]
      exact hw

theorem frameMove_homeCidrs {st : Analyzer R} {p : Bytes} {now : Int} {r : Analyzer R × Outcome}
    (hm : FrameMove st p now r) : r.1.homeCidrs = st.homeCidrs := by
  cases hm <;> rfl

/-- A call changes no network. -/
theorem processFrame_homeCidrs (st : Analyzer R) (p : Bytes) (now : Int) :
    (processFrame st p now).1.homeCidrs = st.homeCidrs :=
  (frameMove_homeCidrs (processFrame_move st p now)).trans (cleaned_homeCidrs st now)

theorem frameMove_distinct {st : Analyzer R} {p : Bytes} {now : Int} {r : Analyzer R × Outcome}
    (hd : Distinct st) (hm : FrameMove st p now r) : Distinct r.1 := by
  cases hm with
  | packet _ hw => exact store_distinct ((transportStep_ip ..).trans (working_ip hw)) hd
  | skip | arpAlert | arpNew => exact hd

theorem processFrame_distinct {st : Analyzer R} (hd : Distinct st) (p : Bytes) (now : Int) :
    Distinct (processFrame st p now).1 :=
  frameMove_distinct (cleaned_distinct hd now) (processFrame_move st p now)

/-! ## The record of one source -/

/-- The record of `ip` after a call: an arrival leaves its result, and any other call
only the cleanup. -/
theorem processFrame_record (st : Analyzer R) (ip : UInt32) (c : Call) :
    (processFrame st c.packet c.now).1.record ip =
      match st.arrival ip c with
      | some a => some a.result.1
      | none => (st.cleaned c.now).record ip := by
  unfold processFrame Analyzer.arrival
  cases classify c.packet with
  | ignored => rfl
  | arpReply mac src =>
    simp only [Analyzer.processArp]
    split
    · split <;> rfl
    · rfl
  | ipv4 src body =>
    simp only [Analyzer.processIp]
    by_cases hsrc : src = ip
    · subst hsrc
      simp only [↓reduceIte]
      cases hw : (st.cleaned c.now).working src c.now with
      | none => rfl
      | some s =>
        have hip := working_ip hw
        refine (store_record_self ((transportStep_ip ..).trans hip) fun hn => ?_).trans ?_
        · rcases working_cases hw with ⟨s0, hr, _⟩ | ⟨_, hroom, _⟩
          · rw [hn] at hr
            cases hr
          · exact hroom
        · simp only [Option.map_some, Arrival.result, hip]
    · simp only [hsrc, ↓reduceIte]
      cases hw : (st.cleaned c.now).working src c.now with
      | none => rfl
      | some s =>
        exact store_record_other ((transportStep_ip ..).trans (working_ip hw)) (Ne.symm hsrc)

/-- The outcome of an IPv4 packet is that of its arrival. -/
theorem processFrame_outcome (st : Analyzer R) {c : Call} {src : UInt32} {body : Transport}
    (h : classify c.packet = .ipv4 src body) :
    (processFrame st c.packet c.now).2 =
      match st.arrival src c with
      | some a => a.result.2
      | none => .quiet := by
  unfold processFrame Analyzer.arrival
  simp only [h, Analyzer.processIp, ↓reduceIte]
  cases hw : (st.cleaned c.now).working src c.now with
  | none => rfl
  | some s => simp only [Option.map_some, Arrival.result, working_ip hw]

/-- What the arrivals of a source find: its last record, or a fresh one after none. -/
theorem arrival_cases {st : Analyzer R} {ip : UInt32} {c : Call} {a : Arrival R}
    (h : st.arrival ip c = some a) :
    a.now = c.now ∧ a.length = c.packet.length ∧ classify c.packet = .ipv4 ip a.body ∧
      ((∃ s, (st.cleaned c.now).record ip = some s ∧ a.record = { s with lastSeen := c.now }) ∨
        ((st.cleaned c.now).record ip = none ∧ a.record = Suspect.fresh ip c.now)) := by
  unfold Analyzer.arrival at h
  split at h
  · next src body hc =>
    split at h
    · next hsrc =>
      subst hsrc
      obtain ⟨s, hs, rfl⟩ := Option.map_eq_some_iff.mp h
      refine ⟨rfl, rfl, hc, ?_⟩
      rcases working_cases hs with ⟨s0, hr, hs0⟩ | ⟨hr, _, hs0⟩
      · exact .inl ⟨s0, hr, hs0⟩
      · exact .inr ⟨hr, hs0⟩
    · cases h
  · cases h

theorem not_reports_ignored {x : Seen R} {a : Attack} (hc : classify x.label.packet = .ignored) :
    ¬ Reports x a := by
  rintro ⟨outcome, hout, hret, _⟩
  rw [analyzePacket_eq, Option.some.injEq] at hout
  have hmove := processFrame_move x.before x.label.packet x.label.now
  rw [hout] at hmove
  generalize x.after = st at hmove
  cases hmove with
  | skip => cases hret
  | arpAlert hframe | arpNew hframe | packet hframe =>
    rw [hc] at hframe
    cases hframe

/-- A reported ARP reply contradicts an entry of the table. -/
theorem reports_arp {x : Seen R} {a : Attack} {mac : Bytes} {ip : UInt32}
    (hc : classify x.label.packet = .arpReply mac ip) (h : Reports x a) :
    a = .arpSpoof ∧ ∃ entry ∈ x.before.arpTable.used, entry.mac = mac ∧ entry.ip ≠ ip := by
  obtain ⟨outcome, hout, hret, d, hd, hattack⟩ := h
  rw [analyzePacket_eq, Option.some.injEq] at hout
  have hmove := processFrame_move x.before x.label.packet x.label.now
  rw [hout] at hmove
  generalize x.after = st at hmove
  cases hmove with
  | skip | arpNew => cases hret
  | @arpAlert mac' ip' entry hframe hfind hne =>
    obtain ⟨rfl, rfl⟩ := Frame.arpReply.inj (hc.symm.trans hframe)
    rw [cleaned_arpTable] at hfind
    rw [List.mem_singleton.mp hd] at hattack
    exact ⟨hattack.symm, entry, List.mem_of_find?_eq_some hfind,
      by simpa using List.find?_some hfind, hne⟩
  | packet hframe =>
    rw [hc] at hframe
    cases hframe

/-- An IPv4 packet is reported exactly when it is an arrival on which a detector alerts. -/
theorem reports_ipv4 {x : Seen R} {src : UInt32} {body : Transport}
    (hc : classify x.label.packet = .ipv4 src body)
    (hx : analyzerLts.step x.before x.label = some x.after) (a : Attack) :
    Reports x a ↔ ∃ ar, x.before.arrival src x.label = some ar ∧ ar.attack = some a := by
  rw [analyzerLts_step] at hx
  have hout := processFrame_outcome x.before hc
  simp only [Reports, analyzePacket_eq, Option.some.injEq, Prod.ext_iff, hx, true_and]
  cases harr : x.before.arrival src x.label with
  | none =>
    rw [harr] at hout
    simp [hout, Outcome.quiet]
  | some ar =>
    rw [harr] at hout
    obtain ⟨hret, hrec⟩ := transportStep_reports ar.record ar.body ar.record.ip ar.length ar.now
    simp only [hout, Option.some.injEq, exists_eq_left', Arrival.result, hret, hrec, Arrival.attack]
    cases (detectStep ar.record ar.body ar.length ar.now).2 <;> simp

/-- An arrival is reported exactly when a detector alerts on it. -/
theorem reports_arrival {x : Seen R} {ip : UInt32} {ar : Arrival R}
    (hx : analyzerLts.step x.before x.label = some x.after)
    (harr : x.before.arrival ip x.label = some ar) (a : Attack) :
    Reports x a ↔ ar.attack = some a := by
  rw [reports_ipv4 (arrival_cases harr).2.2.1 hx, harr]
  simp

/-- An arrival leaves its result as the record of its source. -/
theorem record_of_arrival {x : Seen R} {ip : UInt32} {ar : Arrival R}
    (hx : analyzerLts.step x.before x.label = some x.after)
    (harr : x.before.arrival ip x.label = some ar) : x.after.record ip = some ar.result.1 := by
  rw [← analyzerLts_step.mp hx, processFrame_record, harr]

/-- A call is reported exactly when it records an attack. -/
theorem reports_iff {x : Seen R} (hx : analyzerLts.step x.before x.label = some x.after)
    (a : Attack) : Reports x a ↔ a ∈ verdicts x.before x.label := by
  cases hc : classify x.label.packet with
  | ipv4 src body =>
    rw [reports_ipv4 hc hx, verdicts, processFrame_outcome _ hc]
    cases x.before.arrival src x.label with
    | none => simp [Outcome.quiet]
    | some ar =>
      simp only [Arrival.result, (transportStep_reports ..).2, Arrival.attack]
      cases h : (detectStep ar.record ar.body ar.length ar.now).2 <;> simp [h, eq_comm]
  | ignored =>
    simp [Reports, verdicts, analyzePacket_eq, processFrame, hc, Outcome.quiet]
  | arpReply mac ip =>
    rw [analyzerLts_step] at hx
    simp only [Reports, verdicts, analyzePacket_eq, Option.some.injEq, Prod.ext_iff, hx, true_and,
      exists_eq_left']
    simp only [processFrame, hc, Analyzer.processArp]
    split
    · split <;> simp [Outcome.quiet, eq_comm]
    · simp [Outcome.quiet]

/-! ## Histories -/

/-- `History ip as s`: the arrivals `as` of `ip`, the first on a fresh record, lead to the
record `s`. -/
inductive History (ip : UInt32) : List (Arrival R) → Suspect R → Prop
  | first {a : Arrival R} : a.record = Suspect.fresh ip a.now → History ip [a] a.result.1
  | next {as : List (Arrival R)} {s : Suspect R} {a : Arrival R} :
      History ip as s → a.record = { s with lastSeen := a.now } →
      History ip (as ++ [a]) a.result.1

/-- What an arrival of a history finds: a fresh record, or the result of those before it. -/
theorem History.record_cases {ip : UInt32} {as : List (Arrival R)} {s : Suspect R}
    (h : History ip as s) {pre post : List (Arrival R)} {a : Arrival R}
    (he : as = pre ++ a :: post) :
    (pre = [] ∧ a.record = Suspect.fresh ip a.now) ∨
      ∃ s0, History ip pre s0 ∧ a.record = { s0 with lastSeen := a.now } := by
  induction h generalizing post with
  | first hfresh =>
    cases pre with
    | nil =>
      obtain rfl := (List.cons.inj he).1
      exact .inl ⟨rfl, hfresh⟩
    | cons b pre => simp at he
  | @next as s x hs hx ih =>
    rcases List.eq_nil_or_concat post with rfl | ⟨post, y, rfl⟩
    · obtain ⟨rfl, hlast⟩ := List.append_inj' he rfl
      obtain rfl := List.singleton_inj.mp hlast
      exact .inr ⟨s, hs, hx⟩
    · rw [List.concat_eq_append, ← List.cons_append, ← List.append_assoc] at he
      exact ih (List.append_inj' he rfl).1

/-- The part of a run since the record of `ip` was created: it starts again with every
call that finds no record of `ip`. -/
def epoch (ip : UInt32) (tr : List (Seen R)) : List (Seen R) :=
  tr.foldl (fun acc x =>
    if ((x.before.cleaned x.label.now).record ip).isNone then [x] else acc ++ [x]) []

/-- The arrivals of `ip` among the calls `tr`. -/
def arrivals (ip : UInt32) (tr : List (Seen R)) : List (Arrival R) :=
  tr.filterMap fun x => x.before.arrival ip x.label

omit [Double R] in
theorem epoch_snoc (ip : UInt32) (tr : List (Seen R)) (x : Seen R) :
    epoch ip (tr ++ [x]) =
      if ((x.before.cleaned x.label.now).record ip).isNone then [x] else epoch ip tr ++ [x] := by
  simp [epoch]

omit [Double R] in
theorem epoch_suffix (ip : UInt32) (tr : List (Seen R)) : epoch ip tr <:+ tr := by
  induction tr using List.reverseRecOn with
  | nil => exact List.suffix_refl _
  | append_singleton tr x ih =>
    rw [epoch_snoc]
    split
    · exact List.suffix_append tr [x]
    · obtain ⟨pre, hpre⟩ := ih
      exact ⟨pre, by rw [← List.append_assoc, hpre]⟩

theorem arrivals_snoc (ip : UInt32) (tr : List (Seen R)) (x : Seen R) :
    arrivals ip (tr ++ [x]) = arrivals ip tr ++ (x.before.arrival ip x.label).toList := by
  simp only [arrivals, List.filterMap_append]
  cases h : x.before.arrival ip x.label <;> simp [h]

theorem run_distinct {st0 st : Analyzer R} {tr : List (Seen R)}
    (h : Lts.Run analyzerLts (analyzerReset st0) tr st) : Distinct st := by
  induction h with
  | nil => exact List.nodup_nil (α := UInt32)
  | snoc _ hs hd =>
    rw [← analyzerLts_step.mp hs]
    exact processFrame_distinct hd _ _

/-- An arrival is the last packet of its record: the first one, or one that follows the
packets so far. -/
theorem epoch_arrival (tr : List (Seen R)) {x : Seen R} {ip : UInt32} {a : Arrival R}
    (hd : Distinct x.before) (harr : x.before.arrival ip x.label = some a) :
    ∃ as, arrivals ip (epoch ip (tr ++ [x])) = as ++ [a] ∧
      ((as = [] ∧ a.record = Suspect.fresh ip a.now) ∨
        (as = arrivals ip (epoch ip tr) ∧
          ∃ s, x.before.record ip = some s ∧ a.record = { s with lastSeen := a.now })) := by
  obtain ⟨hnow, _, _, ⟨s, hs, ha⟩ | ⟨hs, ha⟩⟩ := arrival_cases harr
  · refine ⟨arrivals ip (epoch ip tr), ?_, .inr ⟨rfl, s, cleaned_kept hd hs, by rw [ha, hnow]⟩⟩
    rw [epoch_snoc, if_neg (by simp [hs]), arrivals_snoc, harr]
    rfl
  · refine ⟨[], ?_, .inl ⟨rfl, by rw [ha, hnow]⟩⟩
    rw [epoch_snoc, if_pos (by simp [hs])]
    simp [arrivals, harr]

/-- Any other call leaves the record and its packets, or evicts it. -/
theorem epoch_other (tr : List (Seen R)) {x : Seen R} {ip : UInt32} {s : Suspect R}
    (hd : Distinct x.before) (hx : analyzerLts.step x.before x.label = some x.after)
    (harr : x.before.arrival ip x.label = none) (hs : x.after.record ip = some s) :
    x.before.record ip = some s ∧
      arrivals ip (epoch ip (tr ++ [x])) = arrivals ip (epoch ip tr) := by
  rw [← analyzerLts_step.mp hx, processFrame_record, harr] at hs
  refine ⟨cleaned_kept hd hs, ?_⟩
  rw [epoch_snoc, if_neg (by simp [show (x.before.cleaned x.label.now).record ip = some s from hs]),
    arrivals_snoc, harr]
  exact List.append_nil _

/-- The record of a source is the result of the arrivals of its epoch. -/
theorem run_history {st0 st : Analyzer R} {tr : List (Seen R)} {ip : UInt32} {s : Suspect R}
    (h : Lts.Run analyzerLts (analyzerReset st0) tr st) (hs : st.record ip = some s) :
    History ip (arrivals ip (epoch ip tr)) s := by
  induction h generalizing s with
  | nil => cases hs
  | @snoc tr st st' c hr hl ih =>
    have hd := run_distinct hr
    cases harr : st.arrival ip c with
    | none =>
      obtain ⟨h0, hsame⟩ := epoch_other tr (x := ⟨st, c, st'⟩) hd hl harr hs
      exact hsame ▸ ih h0
    | some a =>
      obtain rfl := Option.some.inj
        (hs.symm.trans (record_of_arrival (x := ⟨st, c, st'⟩) hl harr))
      obtain ⟨as, has, ⟨rfl, hfresh⟩ | ⟨rfl, s0, h0, ha⟩⟩ :=
        epoch_arrival tr (x := ⟨st, c, st'⟩) hd harr
      · rw [has]
        exact .first hfresh
      · rw [has]
        exact (ih h0).next ha

end TrafficAnalyzer
