import TrafficAnalyzer.Lib.CText
import TrafficAnalyzer.Agent.Runs

/-!
# The detection collector (`src/agent/analysis/collector.c`)

In replay mode the packets go straight to `analyze_packet`, and each detection is copied
into an array of 1024 events. `detectionsOf` lists the detections of a packet sequence; the
collector holds the first 1024 of them, and none of their texts is cut.
-/

namespace TrafficAnalyzer

open CText

/-! ## The source -/

def MAX_DETECTIONS : Nat := 1024

/-- `sizeof(attack_type) - 1` and `sizeof(src_ip) - 1`. -/
def ATTACK_TYPE_ROOM : Nat := 31
def SRC_IP_ROOM : Nat := 15

structure DetectedEvent where
  attackType : Bytes
  srcIp : Bytes
  timestamp : Int
deriving DecidableEq, Repr

/-- `g_replay_mode`, and `g_events` with its `g_count`. -/
structure Collector where
  replayMode : Bool
  events : Slots DetectedEvent MAX_DETECTIONS

/-- `collector_reset`. -/
def Collector.reset (c : Collector) : Collector := { c with events := .empty }

/-- `collector_record`: a no-op outside the replay mode and on a full array. -/
def Collector.record (c : Collector) (attackType srcIp : Bytes) (ts : Int) : Collector :=
  if c.replayMode = false then c
  else
    { c with
      events := c.events.pushD
        ⟨strncpy ATTACK_TYPE_ROOM attackType, strncpy SRC_IP_ROOM srcIp, ts⟩ }

/-- The calls of `collector_record` in one `analyze_packet`. -/
def Collector.recordAll (c : Collector) (ds : List Detection) : Collector :=
  ds.foldl (fun c d => c.record (ascii d.attackType.name) (ascii d.srcIp) d.timestamp) c

section Replay

variable {R : Type} [Double R]

/-- The globals that a replay works on. -/
structure ReplayState (R : Type) where
  analyzer : Analyzer R
  collector : Collector

/-- `packet_handler` in replay mode. -/
def packetHandlerReplay (s : ReplayState R) (c : Call) : Option (ReplayState R) := do
  let (analyzer, outcome) ← analyzePacket s.analyzer c.packet c.now
  some ⟨analyzer, s.collector.recordAll outcome.recorded⟩

/-- `pcap_loop` over the packets of a file. -/
def pcapLoop (s : ReplayState R) : List Call → Option (ReplayState R)
  | [] => some s
  | c :: cs => do
    let s ← packetHandlerReplay s c
    pcapLoop s cs

/-! ## The detections of a packet sequence -/

/-- What `analyze_packet` reports on the packets, in order. -/
def detectionsOf (st : Analyzer R) : List Call → List Detection
  | [] => []
  | c :: cs =>
    let r := processFrame st c.packet c.now
    r.2.recorded ++ detectionsOf r.1 cs

theorem detectionsOf_concat (st : Analyzer R) (cs : List Call) (c : Call) :
    detectionsOf st (cs ++ [c]) =
      detectionsOf st cs ++ (processFrame (afterCalls st cs) c.packet c.now).2.recorded := by
  induction cs generalizing st with
  | nil => simp [detectionsOf, afterCalls]
  | cons c' cs ih =>
    rw [List.cons_append, detectionsOf, ih, detectionsOf, List.append_assoc]
    rfl

end Replay

/-! ## The copies -/

theorem name_short (a : Attack) :
    (0 : UInt8) ∉ ascii a.name ∧ (ascii a.name).length < ATTACK_TYPE_ROOM := by
  cases a <;> decide

theorem octet_short :
    ∀ n < 256, (0 : UInt8) ∉ ascii (toString n) ∧ (ascii (toString n)).length ≤ 3 := by
  decide +kernel

theorem octet_lt (a : UInt32) : (a &&& 0xFF).toNat < 256 := by
  rw [UInt32.toNat_and]
  exact Nat.lt_succ_of_le Nat.and_le_right

/-- Every text of `inet_ntoa` fits the event. -/
theorem inetNtoa_short (ip : UInt32) :
    (0 : UInt8) ∉ ascii (inetNtoa ip) ∧ (ascii (inetNtoa ip)).length ≤ SRC_IP_ROOM := by
  have hdot : (ascii ".").length = 1 ∧ (0 : UInt8) ∉ ascii "." := by decide
  have h1 := octet_short _ (octet_lt ip)
  have h2 := octet_short _ (octet_lt (ip >>> 8))
  have h3 := octet_short _ (octet_lt (ip >>> 16))
  have h4 := octet_short _ (octet_lt (ip >>> 24))
  simp only [inetNtoa, ascii_append, List.mem_append, List.length_append, not_or, hdot.1,
    SRC_IP_ROOM]
  refine ⟨?_, by omega⟩
  simp only [h1.1, h2.1, h3.1, h4.1, hdot.2, not_false_eq_true, and_self]

/-- The event that the collector makes of a detection. -/
def Detection.copied (d : Detection) : DetectedEvent :=
  ⟨strncpy ATTACK_TYPE_ROOM (ascii d.attackType.name), strncpy SRC_IP_ROOM (ascii d.srcIp),
    d.timestamp⟩

theorem recordAll_eq {c : Collector} (hmode : c.replayMode = true) (ds : List Detection) :
    c.recordAll ds = { c with events := (ds.map (·.copied)).foldl Slots.pushD c.events } := by
  induction ds generalizing c with
  | nil => rfl
  | cons d ds ih =>
    have hrecord : c.record (ascii d.attackType.name) (ascii d.srcIp) d.timestamp =
        { c with events := c.events.pushD d.copied } :=
      if_neg (by rw [hmode]; exact Bool.noConfusion)
    rw [Collector.recordAll, List.foldl_cons, ← Collector.recordAll, hrecord]
    exact ih (c := { c with events := c.events.pushD d.copied }) hmode

theorem recordAll_append (c : Collector) (ds ds' : List Detection) :
    c.recordAll (ds ++ ds') = (c.recordAll ds).recordAll ds' := List.foldl_append

variable {R : Type} [Double R]

/-- Every detection carries the text of an address. -/
theorem recorded_srcIp {st : Analyzer R} {p : Bytes} {now : Int} {d : Detection}
    (h : d ∈ (processFrame st p now).2.recorded) : ∃ ip, d.srcIp = inetNtoa ip := by
  have hmove := processFrame_move st p now
  generalize processFrame st p now = r at h hmove
  cases hmove with
  | skip | arpNew => cases h
  | @arpAlert mac ip => exact ⟨ip, by rw [List.mem_singleton.mp h]⟩
  | @packet src body s =>
    rw [(transportStep_reports s body src p.length now).2, List.mem_map] at h
    obtain ⟨a, -, rfl⟩ := h
    exact ⟨src, rfl⟩

/-- What the arrival of a packet of `ip` has recorded. -/
theorem arrival_recorded {st : Analyzer R} {ip : UInt32} {c : Call} {a : Arrival R}
    (h : st.arrival ip c = some a) :
    (processFrame st c.packet c.now).2.recorded =
      a.attack.toList.map fun k => ⟨k, inetNtoa ip, c.now⟩ := by
  obtain ⟨hnow, -, hc, hrec⟩ := arrival_cases h
  have hip : a.record.ip = ip := by
    rcases hrec with ⟨s, hs, hrec⟩ | ⟨-, hrec⟩
    · rw [hrec]
      exact (record_ip hs : s.ip = ip)
    · rw [hrec]
      rfl
  rw [processFrame_outcome st hc, h, ← hnow, ← hip]
  exact (transportStep_reports ..).2

theorem detectionsOf_srcIp {st : Analyzer R} {cs : List Call} {d : Detection}
    (h : d ∈ detectionsOf st cs) : ∃ ip, d.srcIp = inetNtoa ip := by
  induction cs generalizing st with
  | nil => cases h
  | cons c cs ih => exact (List.mem_append.mp h).elim recorded_srcIp ih

/-- The event of a detection, with the texts as they are. -/
def Detection.event (d : Detection) : DetectedEvent :=
  ⟨ascii d.attackType.name, ascii d.srcIp, d.timestamp⟩

theorem copied_eq {d : Detection} {ip : UInt32} (h : d.srcIp = inetNtoa ip) :
    d.copied = d.event := by
  have hname := name_short d.attackType
  have haddr := inetNtoa_short ip
  rw [← h] at haddr
  rw [Detection.copied, strncpy_of_fits hname.1 (Nat.le_of_lt hname.2),
    strncpy_of_fits haddr.1 haddr.2]
  rfl

theorem packetHandlerReplay_eq (s : ReplayState R) (c : Call) :
    packetHandlerReplay s c = some ⟨(processFrame s.analyzer c.packet c.now).1,
      s.collector.recordAll (processFrame s.analyzer c.packet c.now).2.recorded⟩ := by
  rw [packetHandlerReplay, analyzePacket_eq]
  rfl

/-- The loop over the packets never fails, and the collector is given all detections. -/
theorem pcapLoop_eq (s : ReplayState R) (cs : List Call) :
    pcapLoop s cs = some ⟨afterCalls s.analyzer cs,
      s.collector.recordAll (detectionsOf s.analyzer cs)⟩ := by
  induction cs generalizing s with
  | nil => rfl
  | cons c cs ih =>
    rw [pcapLoop, packetHandlerReplay_eq, Option.bind_eq_bind, Option.bind_some, ih, detectionsOf,
      recordAll_append]
    rfl

/-- After a reset in replay mode the collector holds the first 1024 detections, uncut. -/
theorem collected_events {c : Collector} (hmode : c.replayMode = true) (st : Analyzer R)
    (cs : List Call) :
    (c.reset.recordAll (detectionsOf st cs)).events.used =
      ((detectionsOf st cs).take MAX_DETECTIONS).map (·.event) := by
  have hcopied : (detectionsOf st cs).map (·.copied) = (detectionsOf st cs).map (·.event) :=
    List.map_congr_left fun d hd =>
      have ⟨_, hip⟩ := detectionsOf_srcIp hd
      copied_eq hip
  rw [recordAll_eq (by exact hmode), Slots.used_foldl_pushD, hcopied, List.map_take]
  rfl

end TrafficAnalyzer
