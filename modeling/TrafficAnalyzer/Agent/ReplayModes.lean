import TrafficAnalyzer.Agent.Scoring

/-!
# The two replay modes (`src/agent/main.c`, `src/agent/cli.c`, `src/agent/replay/replay.c`)

`--replay` takes its exit status from the score of one file, `--replay-dir` from an aggregate
over the files of a directory. The score of a file that cannot be opened, or whose gabarito
has no entries, stays 0; the aggregate of the same file is 100.

* `verdicts_agree_iff`: when the two modes give the same verdict on one file.
* `verdicts_differ`: an empty gabarito, and a capture that cannot be opened.
-/

namespace TrafficAnalyzer

open CText

/-! ## `cli.c` -/

/-- `RunMode`. -/
inductive RunMode
  | live | replayFile | replayDir | listIfaces | serviceInstall | serviceUninstall
deriving DecidableEq, Repr

structure AgentArgs where
  mode : RunMode
  iface : Option Bytes
  pcapFile : Option Bytes
  expectFile : Option Bytes
  replayDir : Option Bytes
  reportFile : Option Bytes
  configFile : Option Bytes
  service : Bool

/-- An option with the value that follows it. -/
def AgentArgs.setValue (args : AgentArgs) (arg value : Bytes) : Option AgentArgs :=
  if arg = ascii "--config" then some { args with configFile := some value }
  else if arg = ascii "--replay" then
    some { args with mode := .replayFile, pcapFile := some value }
  else if arg = ascii "--replay-dir" then
    some { args with mode := .replayDir, replayDir := some value }
  else if arg = ascii "--expect" then some { args with expectFile := some value }
  else if arg = ascii "--report" then some { args with reportFile := some value }
  else none

/-- An option without a value, or the interface. -/
def AgentArgs.setFlag (args : AgentArgs) (arg : Bytes) : Option AgentArgs :=
  if arg = ascii "--list-interfaces" then some { args with mode := .listIfaces }
  else if arg = ascii "--service" then some { args with service := true }
  else if arg = ascii "--install-service" then some { args with mode := .serviceInstall }
  else if arg = ascii "--uninstall-service" then some { args with mode := .serviceUninstall }
  else if (args.mode = .live ∨ args.mode = .serviceInstall) ∧ arg.head? ≠ some 45 then
    some { args with iface := some arg }
  else none

/-- The loop of `parse_args`; no result means that the process exits with 1. -/
def parseLoop (args : AgentArgs) : List Bytes → Option AgentArgs
  | [] => some args
  | [arg] => args.setFlag arg
  | arg :: value :: rest =>
    match args.setValue arg value with
    | some args => parseLoop args rest
    | none =>
      match args.setFlag arg with
      | some args => parseLoop args (value :: rest)
      | none => none

/-- `parse_args` on the arguments after the name of the program. -/
def parseArgs (argv : List Bytes) : Option AgentArgs :=
  if argv = [] then none else parseLoop ⟨.live, none, none, none, none, none, none, false⟩ argv

/-! ## `replay.c` -/

/-- What the replay reads: files, captures, directories, and `cJSON_Parse`. -/
structure World where
  readFile : Bytes → Option Bytes
  pcapOpenOffline : Bytes → Option (List Call)
  readDir : Bytes → Option (List Bytes)
  cJSONParse : Bytes → Option Json

/-- `sizeof(pcap_path)` and `sizeof(gabarito_path)`. -/
def PATH_SIZE : Nat := 512

/-- The files that `replay_dir` takes. -/
def isPcapName (name : Bytes) : Bool :=
  5 ≤ name.length ∧ name.drop (name.length - 5) = ascii ".pcap"

/-- `snprintf(pcap_path, sizeof(pcap_path), "%s/%s", dir_path, name)`. -/
def pcapPath (dir name : Bytes) : Bytes := (dir ++ 47 :: name).take (PATH_SIZE - 1)

/-- `derive_gabarito_path`; no result means that the copy leaves no terminator. -/
def deriveGabaritoPath (path : Bytes) : Option Bytes :=
  let out := strncpy (PATH_SIZE - 1) path
  match beforeLast 46 out with
  | none => some out
  | some stem => if stem.length + 5 < PATH_SIZE then some (stem ++ ascii ".json") else none

section Replay

variable {R : Type} [Double R]

/-- The loop of `replay_dir` over the names in the directory. -/
def replayDirLoop (w : World) (dir : Bytes) (s : ReplayState R)
    (results : Slots (ReplayResult R) 256) : List Bytes → Option (Slots (ReplayResult R) 256)
  | [] => some results
  | name :: names =>
    if isPcapName name then do
      let path := pcapPath dir name
      let gabaritoPath ← deriveGabaritoPath path
      let g := gabaritoLoad w.cJSONParse (w.readFile gabaritoPath)
      let (s, r) ← replayFile s (w.pcapOpenOffline path) g
      replayDirLoop w dir s (results.pushD r) names
    else replayDirLoop w dir s results names

/-- The exit status that `replay_dir` leads to. -/
def replayDir (w : World) (s : ReplayState R) (dir : Bytes) : Option Nat :=
  match w.readDir dir with
  | none => some 0
  | some names => do
    let results ← replayDirLoop w dir s .empty names
    if results.count = 0 then some 0
    else
      let totalPassed := (results.used.map (·.passed)).sum
      let totalExpected := (results.used.map (·.expectedCount)).sum
      let aggregate : R := scoreOf totalPassed totalExpected
      some (if 0 < totalExpected ∧ Double.lt aggregate (Double.ofInt 80) then 1 else 0)

/-! ## `main.c` -/

/-- `main` without a `--config`, for the replay modes: the exit status. The other modes are
not about replays, and `others` is their status. -/
def agentMain (w : World) (others : AgentArgs → Nat) (s : ReplayState R) (argv : List Bytes) :
    Option Nat :=
  match parseArgs argv with
  | none => some 1
  | some args =>
    match args.configFile, args.mode, args.pcapFile, args.replayDir with
    | none, .replayFile, some pcapFile, _ => do
      let g := args.expectFile.bind fun path => gabaritoLoad w.cJSONParse (w.readFile path)
      let (_, r) ← replayFile s (w.pcapOpenOffline pcapFile) g
      some (if g.isSome ∧ Double.lt r.score (Double.ofInt 80) then 1 else 0)
    | none, .replayDir, _, some dir => replayDir w s dir
    | _, _, _, _ => some (others args)

/-! ## Paths -/

/-- The capture `dir/stem.pcap` and its gabarito. -/
def captureOf (dir stem : CStr) : Bytes := dir.1 ++ 47 :: (stem.1 ++ ascii ".pcap")
def gabaritoOf (dir stem : CStr) : Bytes := dir.1 ++ 47 :: (stem.1 ++ ascii ".json")

omit [Double R] in
theorem captureOf_nul (dir stem : CStr) : (0 : UInt8) ∉ captureOf dir stem := by
  have hdir := dir.2
  have hstem := stem.2
  have hext : (0 : UInt8) ∉ ascii ".pcap" := by decide
  simp only [captureOf, List.mem_append, List.mem_cons, not_or]
  exact ⟨hdir, by decide, hstem, hext⟩

theorem isPcapName_stem (stem : Bytes) : isPcapName (stem ++ ascii ".pcap") = true := by
  have hlen : (ascii ".pcap").length = 5 := by decide
  unfold isPcapName
  rw [List.length_append, hlen, Nat.add_sub_cancel, List.drop_left]
  simp

/-- The last dot is the one of the extension, and a path that fits leaves room for the
other extension. -/
theorem deriveGabaritoPath_captureOf {dir stem : CStr}
    (hfits : (captureOf dir stem).length < PATH_SIZE) :
    deriveGabaritoPath (captureOf dir stem) = some (gabaritoOf dir stem) := by
  have hsplit : captureOf dir stem = (dir.1 ++ 47 :: stem.1) ++ 46 :: ascii "pcap" := by
    simp [captureOf, ascii]
  have hdot : beforeLast 46 (captureOf dir stem) = some (dir.1 ++ 47 :: stem.1) := by
    rw [hsplit]
    exact beforeLast_append (by decide)
  have hroom : (dir.1 ++ 47 :: stem.1).length + 5 < PATH_SIZE := by
    rw [hsplit, List.length_append] at hfits
    exact hfits
  unfold deriveGabaritoPath
  rw [strncpy_of_fits (captureOf_nul dir stem) (Nat.le_sub_one_of_lt hfits)]
  dsimp only
  rw [hdot]
  dsimp only
  rw [if_pos hroom, gabaritoOf, List.append_assoc, List.cons_append]

/-! ## The result of one file -/

/-- Either the result is still the one before the comparison, and then nothing was compared,
or it is a score of entries. -/
theorem replayFile_cases (s : ReplayState R) (pcap : Option (List Call)) (g : Option Gabarito) :
    ∃ s' r, replayFile s pcap g = some (s', r) ∧
      ((r = .zero ∧ ∀ g0 ∈ g, ¬ (pcap.isSome = true ∧ 0 < g0.entries.count)) ∨
        (0 < r.expectedCount ∧ r.score = scoreOf r.passed r.expectedCount ∧
          ∃ g0, g = some g0 ∧ pcap.isSome = true ∧ 0 < g0.entries.count)) := by
  cases pcap with
  | none => exact ⟨s, .zero, rfl, .inl ⟨rfl, fun g0 _ h => Bool.false_ne_true h.1⟩⟩
  | some packets =>
    rw [replayFile_eq]
    cases g with
    | none => exact ⟨_, _, rfl, .inl ⟨rfl, fun g0 h => by cases h⟩⟩
    | some g =>
      rcases Nat.eq_zero_or_pos g.entries.count with hzero | hpos
      · refine ⟨_, .zero, by rw [Option.map_some, compareResults_timed hzero]; rfl, .inl ⟨rfl, ?_⟩⟩
        rintro g0 hg ⟨-, hpos⟩
        rw [Option.mem_some.mp hg] at hzero
        exact Nat.ne_of_gt hpos hzero
      · rw [← timed_entries g packets] at hpos
        obtain ⟨passed, failed, hcompare⟩ := compareResults_scored
          (s.replayed packets).collector (.zero : ReplayResult R) hpos
        refine ⟨_, _, by rw [Option.map_some, hcompare]; rfl, .inr ⟨hpos, rfl, g, rfl, rfl, ?_⟩⟩
        rwa [timed_entries] at hpos

/-! ## The verdicts -/

/-- The directory holds one capture, and its path fits the buffer. -/
structure World.HoldsOnly (w : World) (dir stem : CStr) : Prop where
  listed : ∃ names, w.readDir dir.1 = some names ∧
    names.filter isPcapName = [stem.1 ++ ascii ".pcap"]
  fits : (captureOf dir stem).length < PATH_SIZE

/-- The gabarito of the capture. -/
def World.gabarito (w : World) (dir stem : CStr) : Option Gabarito :=
  gabaritoLoad w.cJSONParse (w.readFile (gabaritoOf dir stem))

variable {w : World} {others : AgentArgs → Nat} {s : ReplayState R} {dir stem : CStr}

/-- The exit status of `--replay` on the capture with its gabarito. -/
theorem main_replay {s' : ReplayState R} {r : ReplayResult R}
    (hrun : replayFile s (w.pcapOpenOffline (captureOf dir stem)) (w.gabarito dir stem) =
      some (s', r)) :
    agentMain w others s [ascii "--replay", captureOf dir stem, ascii "--expect",
      gabaritoOf dir stem] =
      some (if (w.gabarito dir stem).isSome ∧ Double.lt r.score (Double.ofInt 80)
        then 1 else 0) := by
  have hargs : parseArgs [ascii "--replay", captureOf dir stem, ascii "--expect",
      gabaritoOf dir stem] = some ⟨.replayFile, none, some (captureOf dir stem),
        some (gabaritoOf dir stem), none, none, none, false⟩ := rfl
  rw [World.gabarito] at hrun ⊢
  simp only [agentMain, hargs, Option.bind_some, hrun, Option.bind_eq_bind]

/-- The other names in the directory are passed over. -/
theorem replayDirLoop_filter (d : Bytes) (s : ReplayState R) (results : Slots (ReplayResult R) 256)
    (names : List Bytes) :
    replayDirLoop w d s results names = replayDirLoop w d s results (names.filter isPcapName) := by
  induction names generalizing s results with
  | nil => rfl
  | cons name names ih =>
    cases hname : isPcapName name with
    | true =>
      rw [List.filter_cons_of_pos hname, replayDirLoop, replayDirLoop, if_pos hname, if_pos hname]
      simp only [ih]
    | false =>
      rw [List.filter_cons_of_neg (by rw [hname]; exact Bool.false_ne_true), replayDirLoop,
        if_neg (by rw [hname]; exact Bool.false_ne_true)]
      exact ih s results

/-- The exit status of `--replay-dir` on the directory. -/
theorem main_replayDir (hw : w.HoldsOnly dir stem) {s' : ReplayState R} {r : ReplayResult R}
    (hrun : replayFile s (w.pcapOpenOffline (captureOf dir stem)) (w.gabarito dir stem) =
      some (s', r)) :
    agentMain w others s [ascii "--replay-dir", dir.1] =
      some (if 0 < r.expectedCount ∧
        Double.lt (scoreOf r.passed r.expectedCount : R) (Double.ofInt 80) then 1 else 0) := by
  have hargs : parseArgs [ascii "--replay-dir", dir.1] =
    some ⟨.replayDir, none, none, none, some dir.1, none, none, false⟩ := rfl
  obtain ⟨names, hread, hnames⟩ := hw.listed
  have hpath : pcapPath dir.1 (stem.1 ++ ascii ".pcap") = captureOf dir stem :=
    List.take_of_length_le (Nat.le_sub_one_of_lt hw.fits)
  have hname : isPcapName (stem.1 ++ ascii ".pcap") = true := isPcapName_stem stem.1
  rw [World.gabarito] at hrun
  have hloop : replayDirLoop w dir.1 s .empty names = some (Slots.pushD .empty r) := by
    rw [replayDirLoop_filter, hnames, replayDirLoop, if_pos hname]
    simp only [hpath, deriveGabaritoPath_captureOf hw.fits, hrun, Option.bind_eq_bind,
      Option.bind_some, replayDirLoop]
  have hone : (Slots.pushD .empty r : Slots (ReplayResult R) 256).used = [r] := rfl
  simp only [agentMain, hargs, replayDir, hread, hloop, Option.bind_eq_bind, Option.bind_some,
    Slots.count, hone, List.length_singleton, List.map_singleton, List.sum_singleton]
  rfl

/-- With a gabarito that is not compared, the score stays 0 and nothing is expected. -/
theorem verdicts_blank (others : AgentArgs → Nat) (s : ReplayState R) (hw : w.HoldsOnly dir stem)
    (h80 : Double.lt (Double.ofInt 0 : R) (Double.ofInt 80) = true) {g : Gabarito}
    (hg : w.gabarito dir stem = some g)
    (hblank : ¬ ((w.pcapOpenOffline (captureOf dir stem)).isSome = true ∧ 0 < g.entries.count)) :
    agentMain w others s [ascii "--replay", captureOf dir stem, ascii "--expect",
        gabaritoOf dir stem] = some 1 ∧
      agentMain w others s [ascii "--replay-dir", dir.1] = some 0 := by
  obtain ⟨s', r, hrun, ⟨rfl, -⟩ | ⟨-, -, g0, hg0, hok⟩⟩ :=
    replayFile_cases s (w.pcapOpenOffline (captureOf dir stem)) (w.gabarito dir stem)
  · have hscore : (ReplayResult.zero : ReplayResult R).score = Double.ofInt 0 := rfl
    rw [main_replay hrun, main_replayDir hw hrun, hg, hscore]
    simp [h80, ReplayResult.zero]
  · rw [hg, Option.some.injEq] at hg0
    exact absurd (hg0 ▸ hok) hblank

/-- On a capture that is alone in its directory with its gabarito, `--replay` and
`--replay-dir` agree on whether they fail exactly when the gabarito, if it loads, has an
entry and the capture can be opened. -/
theorem verdicts_agree_iff (hw : w.HoldsOnly dir stem)
    (h80 : Double.lt (Double.ofInt 0 : R) (Double.ofInt 80) = true) :
    ∃ single whole,
      agentMain w others s [ascii "--replay", captureOf dir stem, ascii "--expect",
        gabaritoOf dir stem] = some single ∧
      agentMain w others s [ascii "--replay-dir", dir.1] = some whole ∧
      ((single ≠ 0 ↔ whole ≠ 0) ↔ ∀ g, w.gabarito dir stem = some g →
        (w.pcapOpenOffline (captureOf dir stem)).isSome = true ∧ 0 < g.entries.count) := by
  obtain ⟨s', r, hrun, ⟨rfl, hblank⟩ | ⟨hpos, hscore, g, hg, hok⟩⟩ :=
    replayFile_cases s (w.pcapOpenOffline (captureOf dir stem)) (w.gabarito dir stem)
  · cases hg : w.gabarito dir stem with
    | none =>
      refine ⟨_, _, main_replay hrun, main_replayDir hw hrun, ?_⟩
      simp [hg, ReplayResult.zero]
    | some g =>
      have hv := verdicts_blank others s hw h80 hg (hblank g hg)
      refine ⟨1, 0, hv.1, hv.2, iff_of_false (by simp) fun hall => ?_⟩
      exact hblank g hg (hall g rfl)
  · -- both take the same score of the same entries
    refine ⟨_, _, main_replay hrun, main_replayDir hw hrun, iff_of_true ?_ fun g0 hg0 => ?_⟩
    · rw [hg, hscore]
      simp [hpos]
    · rw [hg, Option.some.injEq] at hg0
      exact hg0 ▸ hok

end Replay

/-! ## Two directories -/

/-- The directory `d` with `a.pcap`, if it can be opened, and `a.json`. -/
def smallWorld (pcap : Option (List Call)) (text : Bytes) (doc : Json) : World where
  readFile path := if path = ascii "d/a.json" then some text else none
  pcapOpenOffline path := if path = ascii "d/a.pcap" then pcap else none
  readDir path :=
    if path = ascii "d" then some [ascii ".", ascii "a.json", ascii "..", ascii "a.pcap"] else none
  cJSONParse s := if s = text then some doc else none

def smallDir : CStr := ⟨ascii "d", by decide⟩
def smallStem : CStr := ⟨ascii "a", by decide⟩

theorem smallWorld_holds (pcap : Option (List Call)) (text : Bytes) (doc : Json) :
    (smallWorld pcap text doc).HoldsOnly smallDir smallStem where
  listed := ⟨_, rfl, by decide +kernel⟩
  fits := by decide +kernel

/-- A gabarito without entries, and one with the NULL scan of `nullCalls`. -/
def emptyWorld (pcap : Option (List Call)) : World :=
  smallWorld pcap (ascii "\x7b\"expected\":[]\x7d") (.object [(ascii "expected", .array [])])

def scanWorld (pcap : Option (List Call)) : World :=
  smallWorld pcap
    (ascii "\x7b\"expected\":[\x7b\"attack_type\":\"NULL_SCAN\"," ++
      ascii "\"src_ip\":\"192.168.100.100\"," ++
      ascii "\"time_window\":\x7b\"start_sec\":0,\"end_sec\":60\x7d\x7d]\x7d")
    (.object [(ascii "expected", .array [gabaritoItem "NULL_SCAN" "192.168.100.100" 0 60])])

theorem double_zero_lt : Double.lt (Double.ofInt 0 : ℝ) (Double.ofInt 80) = true := by
  simp [Double.lt, Double.ofInt]

theorem small_paths : captureOf smallDir smallStem = ascii "d/a.pcap" ∧
    gabaritoOf smallDir smallStem = ascii "d/a.json" := by
  decide +kernel

theorem verdicts_agree_iff_scan :
    ∃ single whole,
      agentMain (scanWorld (some nullCalls)) (fun _ => 0) idle
        [ascii "--replay", ascii "d/a.pcap", ascii "--expect", ascii "d/a.json"] = some single ∧
      agentMain (scanWorld (some nullCalls)) (fun _ => 0) idle
        [ascii "--replay-dir", ascii "d"] = some whole ∧ (single ≠ 0 ↔ whole ≠ 0) := by
  obtain ⟨single, whole, hsingle, hwhole, hiff⟩ := verdicts_agree_iff
    (w := scanWorld (some nullCalls)) (s := idle) (smallWorld_holds _ _ _) double_zero_lt
  have hcount : ((scanWorld (some nullCalls)).gabarito smallDir smallStem).map (·.entries.count) =
      some 1 := by decide +kernel
  rw [small_paths.1, small_paths.2] at hsingle
  refine ⟨single, whole, hsingle, hwhole, hiff.mpr fun g hg => ⟨by decide +kernel, ?_⟩⟩
  rw [hg, Option.map_some, Option.some.injEq] at hcount
  rw [hcount]
  decide

/-- The single replay of `d/a.pcap` fails and the replay of `d` passes. -/
def Disagree (w : World) : Prop :=
  w.HoldsOnly smallDir smallStem ∧
    agentMain w (fun _ => 0) idle
      [ascii "--replay", ascii "d/a.pcap", ascii "--expect", ascii "d/a.json"] = some 1 ∧
    agentMain w (fun _ => 0) idle [ascii "--replay-dir", ascii "d"] = some 0

theorem disagree_of_blank {w : World} {n : Nat} (hw : w.HoldsOnly smallDir smallStem)
    (hg : (w.gabarito smallDir smallStem).map (·.entries.count) = some n)
    (hn : (w.pcapOpenOffline (captureOf smallDir smallStem)).isSome = true → n = 0) :
    Disagree w := by
  obtain ⟨g, hload, rfl⟩ := Option.map_eq_some_iff.mp hg
  rw [Disagree, ← small_paths.1, ← small_paths.2]
  refine ⟨hw, verdicts_blank _ _ hw double_zero_lt hload fun hok => ?_⟩
  exact Nat.ne_of_gt hok.2 (hn hok.1)

/-- A capture that is analyzed against no entries, and one that cannot be opened. -/
theorem verdicts_differ : Disagree (emptyWorld (some nullCalls)) ∧ Disagree (scanWorld none) :=
  ⟨disagree_of_blank (n := 0) (smallWorld_holds _ _ _) (by decide +kernel) fun _ => rfl,
    disagree_of_blank (n := 1) (smallWorld_holds _ _ _) (by decide +kernel) (by decide +kernel)⟩

end TrafficAnalyzer
