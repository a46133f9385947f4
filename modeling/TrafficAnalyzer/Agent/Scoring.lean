import TrafficAnalyzer.Agent.Collector
import TrafficAnalyzer.Agent.Floods
import TrafficAnalyzer.Server.Json

/-!
# Scoring a replay (`src/agent/replay/replay.c`)

`gabarito_load` reads the expected detections, `replay_file` analyzes the packets of one
file, and `compare_results` looks each entry up in the collector.

* `scoring_counts`: the entries that pass are those that one of the first 1024 detections
  matches.
* `scoring_misses`: a detection that the full collector drops, and an address that the entry
  cuts.
-/

namespace TrafficAnalyzer

open CText

/-! ## The source -/

def MAX_EXPECTED : Nat := 256

structure ExpectedDetection where
  attackType : Bytes
  srcIp : Bytes
  hasTimeWindow : Bool
  tStartSec : Int
  tEndSec : Int

/-- The entries with their count, and the time of the first packet. -/
structure Gabarito where
  entries : Slots ExpectedDetection MAX_EXPECTED
  pcapStartTs : Int

/-- The window of an item, if it has one. -/
def timeWindow (item : Json) : Option (Int × Int) :=
  match item.getItemAnyCase (ascii "time_window") with
  | some (.object members) =>
    let tw := Json.object members
    match tw.getItemAnyCase (ascii "start_sec"), tw.getItemAnyCase (ascii "end_sec") with
    | some (.number ts), some (.number te) => some (ts.toLongLong, te.toLongLong)
    | _, _ => none
  | _ => none

/-- The body of the loop of `gabarito_load`; an item without the two texts is skipped. -/
def expectedDetection (item : Json) : Option ExpectedDetection :=
  match item.getItemAnyCase (ascii "attack_type"), item.getItemAnyCase (ascii "src_ip") with
  | some (.string at'), some (.string ip) =>
    let e : ExpectedDetection :=
      ⟨strncpy ATTACK_TYPE_ROOM at', strncpy SRC_IP_ROOM ip, false, 0, 0⟩
    match timeWindow item with
    | some (ts, te) => some { e with hasTimeWindow := true, tStartSec := ts, tEndSec := te }
    | none => some e
  | _, _ => none

def gabaritoLoop (entries : Slots ExpectedDetection MAX_EXPECTED) :
    List Json → Slots ExpectedDetection MAX_EXPECTED
  | [] => entries
  | item :: items =>
    if entries.count < MAX_EXPECTED then
      match expectedDetection item with
      | none => gabaritoLoop entries items
      | some e => gabaritoLoop (entries.pushD e) items
    else entries

/-- `gabarito_load` on a file with this content, or on a file that cannot be opened, with
`cJSON_Parse` as a parameter. -/
def gabaritoLoad (cJSONParse : Bytes → Option Json) (file : Option Bytes) : Option Gabarito := do
  let content ← file
  let root ← cJSONParse (cString content)
  match root.getItemAnyCase (ascii "expected") with
  | some (.array items) => some ⟨gabaritoLoop .empty items, 0⟩
  | _ => none

/-- The test of one event in `compare_results`. -/
def ExpectedDetection.accepts (e : ExpectedDetection) (startTs : Int) (d : DetectedEvent) : Bool :=
  let rel := d.timestamp - startTs
  d.attackType = e.attackType ∧ d.srcIp = e.srcIp ∧
    ¬ (e.hasTimeWindow = true ∧ 0 < startTs ∧ (rel < e.tStartSec ∨ e.tEndSec < rel))

/-- The loop of `compare_results`: how many entries pass and fail. -/
def compareLoop (c : Collector) (startTs : Int) (passed failed : Nat) :
    List ExpectedDetection → Option (Nat × Nat)
  | [] => some (passed, failed)
  | e :: es => do
    let found ← c.events.scan (e.accepts startTs)
    if found.isSome then compareLoop c startTs (passed + 1) failed es
    else compareLoop c startTs passed (failed + 1) es

section Replay

variable {R : Type} [Double R]

structure ReplayResult (R : Type) where
  expectedCount : Nat
  passed : Nat
  failed : Nat
  score : R

/-- `passed / expected * 100.0`, and `100.0` when nothing is expected. -/
def scoreOf (passed expected : Nat) : R :=
  if 0 < expected then Double.ofInt passed / Double.ofInt expected * Double.ofInt 100
  else Double.ofInt 100

/-- `compare_results`; without entries the result is left as it is. -/
def compareResults (g : Option Gabarito) (c : Collector) (r : ReplayResult R) :
    Option (ReplayResult R) :=
  match g with
  | none => some r
  | some g =>
    if g.entries.count = 0 then some r
    else do
      let (passed, failed) ← compareLoop c g.pcapStartTs 0 0 g.entries.used
      some ⟨g.entries.count, passed, failed, scoreOf passed g.entries.count⟩

/-- `replay_file` up to `pcap_loop`: with a gabarito that has entries, the first packet is
read ahead for its time. -/
def readFirst (s : ReplayState R) (g : Option Gabarito) (packets : List Call) :
    Option (ReplayState R × Option Gabarito × List Call) :=
  match g, packets with
  | some g, c :: rest =>
    if 0 < g.entries.count then do
      let s ← packetHandlerReplay s c
      some (s, some { g with pcapStartTs := c.now }, rest)
    else some (s, some g, packets)
  | _, _ => some (s, g, packets)

/-- `replay_file` on the packets of a capture, or on a file that cannot be opened. -/
def replayFile (s : ReplayState R) (pcap : Option (List Call)) (g : Option Gabarito) :
    Option (ReplayState R × ReplayResult R) :=
  let r : ReplayResult R := ⟨0, 0, 0, Double.ofInt 0⟩
  match pcap with
  | none => some (s, r)
  | some packets => do
    let s : ReplayState R :=
      ⟨analyzerReset s.analyzer, { s.collector.reset with replayMode := true }⟩
    let (s, g, rest) ← readFirst s g packets
    let s ← pcapLoop s rest
    let s := { s with collector := { s.collector with replayMode := false } }
    let r ← compareResults g s.collector r
    some (s, r)

end Replay

/-! ## The entries of a gabarito -/

/-- An item of the file that is an entry: its two texts and its window in whole seconds. -/
structure Listed where
  attackType : Bytes
  srcIp : Bytes
  window : Option (Int × Int)
deriving DecidableEq

def listed (item : Json) : Option Listed :=
  match item.getItemAnyCase (ascii "attack_type"), item.getItemAnyCase (ascii "src_ip") with
  | some (.string at'), some (.string ip) => some ⟨cString at', cString ip, timeWindow item⟩
  | _, _ => none

/-- The entry that `gabarito_load` stores. -/
def Listed.stored (e : Listed) : ExpectedDetection where
  attackType := e.attackType.take ATTACK_TYPE_ROOM
  srcIp := e.srcIp.take SRC_IP_ROOM
  hasTimeWindow := e.window.isSome
  tStartSec := (e.window.map (·.1)).getD 0
  tEndSec := (e.window.map (·.2)).getD 0

theorem expectedDetection_eq (item : Json) :
    expectedDetection item = (listed item).map (·.stored) := by
  unfold expectedDetection listed
  split
  · rw [Option.map_some]
    cases h : timeWindow item <;> rfl
  · rfl

theorem gabaritoLoop_used (t : Slots ExpectedDetection MAX_EXPECTED) (items : List Json) :
    (gabaritoLoop t items).used =
      (t.used ++ items.filterMap expectedDetection).take MAX_EXPECTED := by
  induction items generalizing t with
  | nil => rw [gabaritoLoop, List.filterMap_nil, List.append_nil, List.take_of_length_le t.fits]
  | cons item items ih =>
    rw [gabaritoLoop]
    split
    · next hroom =>
      cases he : expectedDetection item with
      | none => rw [ih, List.filterMap_cons_none he]
      | some e =>
        rw [ih, List.filterMap_cons_some he, Slots.used_pushD, if_pos hroom, List.append_assoc]
        rfl
    · next hfull =>
      have hlen : t.used.length = MAX_EXPECTED := Nat.le_antisymm t.fits (Nat.le_of_not_lt hfull)
      rw [List.take_left' hlen]

/-- A gabarito file of at most 256 entries, and what `cJSON_Parse` makes of it. -/
structure GabaritoFile where
  cJSONParse : Bytes → Option Json
  content : Bytes
  root : Json
  items : List Json
  parses : cJSONParse (cString content) = some root
  expected : root.getItemAnyCase (ascii "expected") = some (.array items)
  few : (items.filterMap listed).length ≤ MAX_EXPECTED

def GabaritoFile.entries (f : GabaritoFile) : List Listed := f.items.filterMap listed

def GabaritoFile.load (f : GabaritoFile) : Option Gabarito :=
  gabaritoLoad f.cJSONParse (some f.content)

/-- The gabarito holds all the entries. -/
theorem GabaritoFile.load_eq (f : GabaritoFile) :
    ∃ g, f.load = some g ∧ g.pcapStartTs = 0 ∧ g.entries.used = f.entries.map (·.stored) := by
  have hmap : f.items.filterMap expectedDetection = f.entries.map (·.stored) := by
    rw [GabaritoFile.entries, List.map_filterMap]
    exact congrFun (congrArg List.filterMap (funext expectedDetection_eq)) f.items
  have hfew : (f.entries.map (·.stored)).length ≤ MAX_EXPECTED := by
    rw [List.length_map]
    exact f.few
  refine ⟨⟨gabaritoLoop .empty f.items, 0⟩, ?_, rfl, ?_⟩
  · simp only [GabaritoFile.load, gabaritoLoad, Option.bind_eq_bind, Option.bind_some, f.parses,
      f.expected]
  · rw [gabaritoLoop_used, hmap, Slots.used_empty, List.nil_append, List.take_of_length_le hfew]

/-! ## Matching -/

/-- The detection is the one that the entry expects, for a capture that begins at `t0`. -/
def Listed.Matches (e : Listed) (t0 : Int) (d : Detection) : Prop :=
  ascii d.attackType.name = e.attackType ∧ ascii d.srcIp = e.srcIp ∧
    ∀ w ∈ e.window, 0 < t0 → w.1 ≤ d.timestamp - t0 ∧ d.timestamp - t0 ≤ w.2

instance (e : Listed) (t0 : Int) (d : Detection) : Decidable (e.Matches t0 d) := by
  unfold Listed.Matches
  infer_instance

/-- The entry with the part of the address that is stored. -/
def Listed.cut (e : Listed) : Listed := { e with srcIp := e.srcIp.take SRC_IP_ROOM }

/-- An attack name is shorter than its field, and an address may fill its own. -/
theorem accepts_iff (e : Listed) (t0 : Int) (d : Detection) :
    e.stored.accepts t0 d.event = true ↔ e.cut.Matches t0 d := by
  simp only [ExpectedDetection.accepts, decide_eq_true_eq, Listed.Matches]
  refine and_congr (eq_comm.trans ((take_eq_iff (name_short d.attackType).2).trans eq_comm))
    (and_congr Iff.rfl ?_)
  cases hw : e.window with
  | none => simp [Listed.stored, Listed.cut, hw]
  | some w =>
    simp [Listed.stored, Listed.cut, hw, Detection.event]

/-! ## The score -/

theorem countP_not {α : Type} (p : α → Bool) (xs : List α) :
    xs.countP (fun x => !p x) = xs.length - xs.countP p := by
  rw [List.length_eq_countP_add_countP p, Nat.add_sub_cancel_left]
  exact List.countP_congr fun x _ => by simp

theorem compareLoop_eq (c : Collector) (startTs : Int) (passed failed : Nat)
    (es : List ExpectedDetection) :
    compareLoop c startTs passed failed es =
      some (passed + es.countP (fun e => c.events.used.any (e.accepts startTs)),
        failed + es.countP (fun e => !c.events.used.any (e.accepts startTs))) := by
  induction es generalizing passed failed with
  | nil => rfl
  | cons e es ih =>
    obtain ⟨found, hscan, hany⟩ := c.events.scan_isSome (e.accepts startTs)
    rw [compareLoop, hscan, Option.bind_eq_bind, Option.bind_some, hany, List.countP_cons,
      List.countP_cons]
    cases c.events.used.any (e.accepts startTs) with
    | true =>
      rw [if_pos rfl, ih]
      simp [Nat.add_assoc, Nat.add_comm]
    | false =>
      rw [if_neg Bool.false_ne_true, ih]
      simp [Nat.add_assoc, Nat.add_comm]

/-- The time of the first packet. -/
def firstTs (packets : List Call) : Int := (packets.head?.map (·.now)).getD 0

/-- Some detection of `ds` matches the entry. -/
def Found (e : Listed) (t0 : Int) (ds : List Detection) : Prop := ∃ d ∈ ds, e.Matches t0 d

instance (e : Listed) (t0 : Int) (ds : List Detection) : Decidable (Found e t0 ds) := by
  unfold Found
  infer_instance

section Runs

variable {R : Type} [Double R]

/-- A gabarito with entries learns the time of the first packet. -/
def Gabarito.timed (g : Gabarito) : List Call → Gabarito
  | [] => g
  | c :: _ => if 0 < g.entries.count then { g with pcapStartTs := c.now } else g

/-- The first packet is analyzed like the others. -/
theorem readFirst_eq (s : ReplayState R) (g : Option Gabarito) (packets : List Call) :
    ∃ s' rest, readFirst s g packets = some (s', g.map (·.timed packets), rest) ∧
      pcapLoop s' rest = pcapLoop s packets := by
  cases g with
  | none => exact ⟨s, packets, rfl, rfl⟩
  | some g =>
    cases packets with
    | nil => exact ⟨s, [], rfl, rfl⟩
    | cons c rest =>
      rcases Nat.eq_zero_or_pos g.entries.count with hzero | hpos
      · refine ⟨s, c :: rest, ?_, rfl⟩
        simp [readFirst, Gabarito.timed, hzero]
      · refine ⟨⟨(processFrame s.analyzer c.packet c.now).1,
          s.collector.recordAll (processFrame s.analyzer c.packet c.now).2.recorded⟩, rest, ?_, ?_⟩
        · simp [readFirst, Gabarito.timed, hpos, packetHandlerReplay_eq]
        · rw [pcapLoop, packetHandlerReplay_eq]
          rfl

/-- The state that a replay starts with. -/
def ReplayState.start (s : ReplayState R) : ReplayState R :=
  ⟨analyzerReset s.analyzer, { s.collector.reset with replayMode := true }⟩

/-- The state that a replay ends with. -/
def ReplayState.replayed (s : ReplayState R) (packets : List Call) : ReplayState R where
  analyzer := afterCalls (analyzerReset s.analyzer) packets
  collector :=
    { s.start.collector.recordAll (detectionsOf (analyzerReset s.analyzer) packets) with
      replayMode := false }

/-- The result of a replay before the comparison. -/
def ReplayResult.zero : ReplayResult R := ⟨0, 0, 0, Double.ofInt 0⟩

theorem replayFile_eq (s : ReplayState R) (packets : List Call) (g : Option Gabarito) :
    replayFile s (some packets) g =
      (compareResults (g.map (·.timed packets)) (s.replayed packets).collector .zero).map
        fun r => (s.replayed packets, r) := by
  obtain ⟨s', rest, hread, hloop⟩ := readFirst_eq s.start g packets
  rw [pcapLoop_eq s.start] at hloop
  have hread' : readFirst
      (⟨analyzerReset s.analyzer, { s.collector.reset with replayMode := true }⟩ : ReplayState R)
      g packets = some (s', g.map (·.timed packets), rest) := hread
  simp only [replayFile, hread', hloop, Option.bind_eq_bind, Option.bind_some]
  exact Option.map_eq_bind.symm

theorem replayed_events (s : ReplayState R) (packets : List Call) :
    (s.replayed packets).collector.events.used =
      ((detectionsOf (analyzerReset s.analyzer) packets).take MAX_DETECTIONS).map (·.event) := by
  exact collected_events (c := { s.collector with replayMode := true }) rfl _ _

theorem timed_entries (g : Gabarito) (packets : List Call) :
    (g.timed packets).entries = g.entries := by
  cases packets with
  | nil => rfl
  | cons c rest => rw [Gabarito.timed]; split <;> rfl

theorem timed_startTs {g : Gabarito} (h0 : g.pcapStartTs = 0) (hpos : 0 < g.entries.count)
    (packets : List Call) : (g.timed packets).pcapStartTs = firstTs packets := by
  cases packets with
  | nil => exact h0
  | cons c rest => rw [Gabarito.timed, if_pos hpos]; rfl

/-- Without entries the result is left as it is. -/
theorem compareResults_timed {g : Gabarito} (hzero : g.entries.count = 0) (packets : List Call)
    (c : Collector) (r : ReplayResult R) : compareResults (some (g.timed packets)) c r = some r :=
  if_pos (by rw [timed_entries]; exact hzero)

/-- With entries, the result is a score of all of them. -/
theorem compareResults_scored {g : Gabarito} (c : Collector) (r : ReplayResult R)
    (hpos : 0 < g.entries.count) :
    ∃ passed failed, compareResults (some g) c r =
      some ⟨g.entries.count, passed, failed, scoreOf passed g.entries.count⟩ := by
  simp only [compareResults, Nat.ne_of_gt hpos, ↓reduceIte, compareLoop_eq]
  exact ⟨_, _, rfl⟩

/-- With entries, the result counts those that one of the first 1024 detections passes. -/
theorem compareResults_replayed (s : ReplayState R) (packets : List Call) {g : Gabarito}
    (h0 : g.pcapStartTs = 0) (hpos : 0 < g.entries.count) {es : List Listed}
    (hes : g.entries.used = es.map (·.stored)) (r : ReplayResult R) :
    let ds := (detectionsOf (analyzerReset s.analyzer) packets).take MAX_DETECTIONS
    let passed := es.countP fun e => decide (Found e.cut (firstTs packets) ds)
    compareResults (some (g.timed packets)) (s.replayed packets).collector r =
      some ⟨es.length, passed, es.length - passed, scoreOf passed es.length⟩ := by
  intro ds passed
  have hcount : g.entries.count = es.length := by rw [Slots.count, hes, List.length_map]
  have hany (e : Listed) : (s.replayed packets).collector.events.used.any
      (e.stored.accepts (firstTs packets)) = decide (Found e.cut (firstTs packets) ds) := by
    rw [replayed_events, List.any_map, Bool.eq_iff_iff, List.any_eq_true, decide_eq_true_eq]
    exact exists_congr fun d => and_congr_right fun _ => accepts_iff e (firstTs packets) d
  have hpassed : g.entries.used.countP (fun e => (s.replayed packets).collector.events.used.any
      (e.accepts (firstTs packets))) = passed := by
    rw [hes, List.countP_map]
    exact List.countP_congr fun e _ => by rw [Function.comp_apply, hany]
  have hfailed : g.entries.used.countP (fun e => !(s.replayed packets).collector.events.used.any
      (e.accepts (firstTs packets))) = es.length - passed := by
    rw [← hcount, ← hpassed, Slots.count, countP_not]
  have hsome : es.length ≠ 0 := hcount ▸ Nat.pos_iff_ne_zero.mp hpos
  simp only [compareResults, timed_entries, timed_startTs h0 hpos, compareLoop_eq, hpassed, hfailed,
    hsome, ↓reduceIte, hcount, Option.bind_eq_bind, Option.bind_some, Nat.zero_add]

/-- What a replay counts. -/
theorem replay_passed (f : GabaritoFile) (s : ReplayState R) (packets : List Call) :
    ∃ s' r, replayFile s (some packets) f.load = some (s', r) ∧
      r.passed = f.entries.countP (fun e => decide (Found e.cut (firstTs packets)
        ((detectionsOf (analyzerReset s.analyzer) packets).take MAX_DETECTIONS))) ∧
      r.failed = f.entries.length - r.passed := by
  obtain ⟨g, hload, h0, hused⟩ := f.load_eq
  rw [hload, replayFile_eq]
  rcases Nat.eq_zero_or_pos g.entries.count with hzero | hpos
  · have hnil : f.entries = [] := by
      rw [Slots.count, hused, List.length_map] at hzero
      exact List.length_eq_zero_iff.mp hzero
    exact ⟨_, _, by rw [Option.map_some, compareResults_timed hzero]; rfl, by rw [hnil]; rfl,
      by rw [hnil]; rfl⟩
  · exact ⟨_, _, by rw [Option.map_some, compareResults_replayed s packets h0 hpos hused]; rfl,
      rfl, rfl⟩

/-- Over all packet sequences and all gabaritos of at most 256 entries: the entries that
pass are those that one of the first 1024 detections of the replay matches, and the others
fail. An entry keeps 15 characters of its address; its window counts from the first packet,
when that has a positive time. -/
theorem scoring_counts (f : GabaritoFile) (s : ReplayState R) (packets : List Call) :
    ∃ s' r, replayFile s (some packets) f.load = some (s', r) ∧
      r.passed = f.entries.countP (fun e => decide (Found e.cut (firstTs packets)
        ((detectionsOf (analyzerReset s.analyzer) packets).take MAX_DETECTIONS))) ∧
      r.passed + r.failed = f.entries.length := by
  obtain ⟨s', r, hrun, hpassed, hfailed⟩ := replay_passed f s packets
  have hle : r.passed ≤ f.entries.length := by
    rw [hpassed]
    exact List.countP_le_length
  exact ⟨s', r, hrun, hpassed, by rw [hfailed, Nat.add_sub_cancel' hle]⟩

/-- The replay counts every detection that was made, for the addresses as they are written. -/
def CountsEvery (f : GabaritoFile) (s : ReplayState R) (packets : List Call) : Prop :=
  ∀ s' r, replayFile s (some packets) f.load = some (s', r) →
    r.passed = f.entries.countP (fun e => decide (Found e (firstTs packets)
      (detectionsOf (analyzerReset s.analyzer) packets)))

theorem countsEvery_iff (f : GabaritoFile) (s : ReplayState R) (packets : List Call) :
    CountsEvery f s packets ↔
      f.entries.countP (fun e => decide (Found e.cut (firstTs packets)
        ((detectionsOf (analyzerReset s.analyzer) packets).take MAX_DETECTIONS))) =
      f.entries.countP (fun e => decide (Found e (firstTs packets)
        (detectionsOf (analyzerReset s.analyzer) packets))) := by
  obtain ⟨s', r, hrun, hpassed, -⟩ := replay_passed f s packets
  constructor
  · intro h
    rw [← hpassed, h s' r hrun]
  · intro h s'' r' hrun'
    rw [hrun, Option.some.injEq, Prod.mk.injEq] at hrun'
    rw [← hrun'.2, hpassed, h]

end Runs

/-! ## Two gabaritos -/

/-- An item with an attack type, an address and a window. -/
def gabaritoItem (attackType srcIp : String) (start stop : Nat) : Json :=
  .object [(ascii "attack_type", .string (ascii attackType)),
    (ascii "src_ip", .string (ascii srcIp)),
    (ascii "time_window", .object [(ascii "start_sec", .number (.ofNat start)),
      (ascii "end_sec", .number (.ofNat stop))])]

/-- The file of one item, as a parser that knows its text reads it. -/
def singleFile (text : Bytes) (item : Json) (h0 : (0 : UInt8) ∉ text) : GabaritoFile where
  cJSONParse s := if s = text then some (.object [(ascii "expected", .array [item])]) else none
  content := text
  root := .object [(ascii "expected", .array [item])]
  items := [item]
  parses := if_pos (cString_of_nul h0)
  expected := rfl
  few := (List.length_filterMap_le listed [item]).trans (show 1 ≤ 256 by decide)

/-- The flood of 1.2.3.4 in second 10 of the capture. -/
def floodFile : GabaritoFile :=
  singleFile (ascii "\x7b\"expected\":[\x7b\"attack_type\":\"ICMP_FLOOD\",\"src_ip\":\"1.2.3.4\"," ++
    ascii "\"time_window\":\x7b\"start_sec\":10,\"end_sec\":10\x7d\x7d]\x7d")
    (gabaritoItem "ICMP_FLOOD" "1.2.3.4" 10 10) (by decide +kernel)

/-- A NULL scan by an address with one digit too many. -/
def longFile : GabaritoFile :=
  singleFile (ascii "\x7b\"expected\":[\x7b\"attack_type\":\"NULL_SCAN\"," ++
    ascii "\"src_ip\":\"192.168.100.1000\"," ++
    ascii "\"time_window\":\x7b\"start_sec\":0,\"end_sec\":60\x7d\x7d]\x7d")
    (gabaritoItem "NULL_SCAN" "192.168.100.1000" 0 60) (by decide +kernel)

theorem icmp_attack {a : Arrival ℝ} {n : Nat} (hbody : a.body = .icmp)
    (hatk : a.attack = some .icmpFlood ↔ 21 ≤ wrap32 (n + 1)) (hn : n < 2 ^ 31 - 1) :
    a.attack = if 20 ≤ n then some .icmpFlood else none := by
  have hwrap : wrap32 (n + 1) = n + 1 := wrap32_of_bounds (by omega) (by omega)
  rw [hwrap] at hatk
  have hcases : a.attack = some .icmpFlood ∨ a.attack = none := by
    simp only [Arrival.attack, hbody, detectStep, detectIcmpFlood_attack]
    split
    · exact .inl rfl
    · exact .inr rfl
  split
  · exact hatk.mpr (by omega)
  · exact hcases.resolve_left fun h => by
      have := hatk.mp h
      omega

/-- What is reported of a flood: all packets but the first 20. -/
theorem flood_reported {ts : List Int} (hts : ∀ t ∈ ts, 1000 ≤ t ∧ t < 1060)
    (hlen : ts.length < 2 ^ 31 - 1) :
    detectionsOf (.initial : Analyzer ℝ) (floodCalls ts) =
      ((1000 :: ts).drop 20).map fun t => ⟨.icmpFlood, inetNtoa floodIp, t⟩ := by
  induction ts using List.reverseRecOn with
  | nil =>
    obtain ⟨a, harr, hbody, -, hatk, -⟩ := flooded_first (R := ℝ)
    have hnone := icmp_attack (n := 0) hbody hatk (by decide)
    rw [floodCalls, List.map_singleton, detectionsOf, detectionsOf, List.append_nil,
      arrival_recorded harr, hnone]
    rfl
  | append_singleton ts t ih =>
    have hprev : ∀ u ∈ ts, 1000 ≤ u ∧ u < 1060 := fun u hu => hts u (List.mem_append_left _ hu)
    obtain ⟨hflood, -⟩ := flood_arrivals (R := ℝ) ts hprev
    obtain ⟨h1, h2⟩ := hts t (by simp)
    obtain ⟨-, a, harr, hbody, -, hatk, -⟩ := flooded_next hflood h1 h2
    have hcalls : floodCalls (ts ++ [t]) = floodCalls ts ++ [icmpPacket t] := by simp [floodCalls]
    rw [List.length_append, List.length_singleton] at hlen
    have hlast : ([t] : List Int).drop (20 - (1000 :: ts).length) =
        if 20 ≤ ts.length + 1 then [t] else [] := by
      rw [List.length_cons]
      split
      · next h => rw [Nat.sub_eq_zero_of_le h]; rfl
      · next h => exact List.drop_eq_nil_of_le (by rw [List.length_singleton]; omega)
    rw [hcalls, detectionsOf_concat, ih hprev (by omega), arrival_recorded harr,
      icmp_attack hbody hatk hlen, ← List.cons_append, List.drop_append, List.map_append, hlast]
    congr 1
    split <;> rfl

/-- 1044 packets in the first second of the capture, and one ten seconds later. -/
def lateCalls : List Call := floodCalls (List.replicate 1043 1000 ++ [1010])

theorem late_reported :
    detectionsOf (.initial : Analyzer ℝ) lateCalls =
      List.replicate MAX_DETECTIONS ⟨.icmpFlood, inetNtoa floodIp, 1000⟩ ++
        [⟨.icmpFlood, inetNtoa floodIp, 1010⟩] := by
  have htimes : ∀ t ∈ List.replicate 1043 (1000 : Int) ++ [1010], 1000 ≤ t ∧ t < 1060 := by
    intro t ht
    rcases List.mem_append.mp ht with h | h
    · rw [List.eq_of_mem_replicate h]
      decide
    · rw [List.mem_singleton.mp h]
      decide
  have hlen : (List.replicate 1043 (1000 : Int) ++ [1010]).length < 2 ^ 31 - 1 := by
    rw [List.length_append, List.length_replicate]
    decide
  have hall : (1000 : Int) :: (List.replicate 1043 1000 ++ [1010]) =
      List.replicate 1044 1000 ++ [1010] := rfl
  have h20 : 20 ≤ (List.replicate 1044 (1000 : Int)).length := by
    rw [List.length_replicate]
    decide
  rw [lateCalls, flood_reported htimes hlen, hall, List.drop_append_of_le_length h20,
    List.drop_replicate, List.map_append, List.map_replicate]
  rfl

/-- The process at its start. -/
def idle : ReplayState ℝ := ⟨.initial, ⟨false, .empty⟩⟩

/-- The detection that the flood is expected for comes after 1024 others. -/
theorem lateFlood_missed : ¬ CountsEvery floodFile idle lateCalls := by
  have hentries : floodFile.entries = [⟨ascii "ICMP_FLOOD", ascii "1.2.3.4", some (10, 10)⟩] := by
    decide +kernel
  have hreported : detectionsOf (analyzerReset idle.analyzer) lateCalls = _ := late_reported
  have hlate : Listed.Matches ⟨ascii "ICMP_FLOOD", ascii "1.2.3.4", some (10, 10)⟩
      (firstTs lateCalls) ⟨.icmpFlood, inetNtoa floodIp, 1010⟩ := by decide +kernel
  have hearly : ¬ Listed.Matches (Listed.cut ⟨ascii "ICMP_FLOOD", ascii "1.2.3.4", some (10, 10)⟩)
      (firstTs lateCalls) ⟨.icmpFlood, inetNtoa floodIp, 1000⟩ := by decide +kernel
  rw [countsEvery_iff, hentries, hreported, List.take_left' List.length_replicate,
    List.countP_singleton, List.countP_singleton]
  rw [if_neg, if_pos]
  · exact Nat.zero_ne_one
  · exact decide_eq_true ⟨_, List.mem_append_right _ List.mem_cons_self, hlate⟩
  · rw [decide_eq_true_eq]
    rintro ⟨d, hd, hm⟩
    rw [List.eq_of_mem_replicate hd] at hm
    exact hearly hm

/-- Three NULL packets of 192.168.100.100. -/
def nullCalls : List Call := List.replicate 3 ⟨tcpFrame [192, 168, 100, 100] 22 0, 1000⟩

/-- A detection that the full collector drops, and one for an address that the entry cuts. -/
theorem scoring_misses :
    ¬ CountsEvery floodFile idle lateCalls ∧ ¬ CountsEvery longFile idle nullCalls := by
  refine ⟨lateFlood_missed, fun h => ?_⟩
  rw [countsEvery_iff] at h
  revert h
  decide +kernel

end TrafficAnalyzer
