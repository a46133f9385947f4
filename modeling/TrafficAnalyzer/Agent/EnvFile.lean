import TrafficAnalyzer.Agent.Config

/-!
# One file for the loader, a shell and systemd (`src/agent/core/config.c`)

The agent's file can be given to `--config`, sourced in a shell or loaded by systemd. A shell
and systemd take the last assignment of a key. `set_env_if_unset` looks at the environment in
which it has put the assignments before, so the loader takes the first.

1. `lineAssigns_envText`: on plain lines the loader parses the assignments as they are written.
2. `envFile_iff`: when the loader gives every key the value that sourcing the file gives.
3. `mtlsFile_port`: the file that `provision_agent.sh --mtls` writes.
-/

namespace TrafficAnalyzer

open CText

/-! ## The file and its meaning in a shell -/

def isNameByte (c : UInt8) : Bool :=
  (65 ≤ c ∧ c ≤ 90) ∨ (97 ≤ c ∧ c ≤ 122) ∨ c = 95 ∨ (48 ≤ c ∧ c ≤ 57)

/-- What has a meaning of its own in the value of an assignment in a shell, above the space:
quotes, the backslash and the backtick, and the characters of `$&|;<>()~`. -/
def shellSpecials : List UInt8 := [34, 39, 92, 96, 36, 38, 124, 59, 60, 62, 40, 41, 126]

def isPlainByte (c : UInt8) : Bool := 32 < c ∧ c ∉ shellSpecials

/-- A line `KEY=VALUE` without quotes. -/
structure EnvLine where
  key : Bytes
  value : Bytes
  name : key ≠ [] ∧ (∀ c ∈ key.head?, ¬ (48 ≤ c ∧ c ≤ 57)) ∧ ∀ c ∈ key, isNameByte c = true
  plain : value ≠ [] ∧ ∀ c ∈ value, isPlainByte c = true

def EnvLine.text (l : EnvLine) : Bytes := l.key ++ 61 :: l.value

/-- The assignment of a line. -/
def EnvLine.pair (l : EnvLine) : Bytes × Bytes := (l.key, l.value)

def envText (file : List EnvLine) : Bytes := file.flatMap fun l => l.text ++ [10]

/-- The environment after the file has been sourced: every line sets its key. -/
def sourceFile (env : Env) (file : List EnvLine) : Env :=
  file.foldl (fun env l => Function.update env l.key (some l.value)) env

/-- The loader gives every key of the file the value that sourcing the file gives. -/
def LoadsAsSourced (env : Env) (file : List EnvLine) : Prop :=
  ∀ l ∈ file, (configLoadFile env (some (envText file))).1 l.key = sourceFile env file l.key

/-- The value of the first line with the key. -/
def firstValue (file : List EnvLine) (key : Bytes) : Option Bytes :=
  (file.map EnvLine.pair).lookup key

/-- The value of the last one. -/
def lastValue (file : List EnvLine) (key : Bytes) : Option Bytes :=
  (file.map EnvLine.pair).reverse.lookup key

section Lines

variable {env : Env} {file : List EnvLine}

theorem sourceFile_apply (env : Env) (file : List EnvLine) (key : Bytes) :
    sourceFile env file key = (lastValue file key).or (env key) := by
  unfold sourceFile lastValue
  induction file generalizing env with
  | nil => rfl
  | cons l file ih =>
    rw [List.foldl_cons, ih, List.map_cons, List.reverse_cons, List.lookup_append,
      Option.or_assoc]
    congr 1
    rcases Decidable.em (key = l.key) with rfl | hne
    · simp [EnvLine.pair]
    · simp [EnvLine.pair, List.lookup_cons, beq_false_of_ne hne, Function.update_of_ne hne]

theorem isNameByte_bounds {c : UInt8} (h : isNameByte c = true) : 48 ≤ c ∧ c ≤ 122 ∧ c ≠ 61 := by
  unfold isNameByte at h
  grind

theorem isSpace_le {c : UInt8} (h : isSpace c = true) : c ≤ 32 := by
  unfold isSpace at h
  grind

theorem EnvLine.bytes (l : EnvLine) : ∀ c ∈ l.text, isSpace c = false := by
  intro c hc
  have hlow : 32 < c := by
    rcases List.mem_append.mp hc with hc | hc
    · have hname := isNameByte_bounds (l.name.2.2 c hc)
      grind
    · rcases List.mem_cons.mp hc with rfl | hc
      · decide
      · have hplain := l.plain.2 c hc
        unfold isPlainByte at hplain
        grind
  refine Bool.eq_false_iff.mpr fun hspace => ?_
  have hle := isSpace_le hspace
  grind

theorem trim_plain {s : Bytes} (h : ∀ c ∈ s, isSpace c = false) : trim s = s := by
  unfold trim
  have hfront : s.dropWhile isSpace = s := by
    cases s with
    | nil => rfl
    | cons c s => rw [List.dropWhile_cons, if_neg (by simp [h c List.mem_cons_self])]
  rw [hfront, List.rdropWhile_eq_self_iff]
  intro hne hspace
  rw [h _ (List.getLast_mem hne)] at hspace
  cases hspace

/-- The first byte of a line is the first byte of its key. -/
theorem EnvLine.head (l : EnvLine) : ∃ c rest, l.text = c :: rest ∧ isNameByte c = true := by
  obtain ⟨c, rest, hkey⟩ := List.exists_cons_of_ne_nil l.name.1
  exact ⟨c, rest ++ 61 :: l.value, by rw [EnvLine.text, hkey]; rfl,
    l.name.2.2 c (hkey ▸ List.mem_cons_self)⟩

theorem unquote_plain (l : EnvLine) : unquote l.value = l.value := by
  refine if_neg ?_
  rintro ⟨-, hquote, -⟩
  obtain ⟨c, rest, hvalue⟩ := List.exists_cons_of_ne_nil l.plain.1
  have hplain := l.plain.2 c (hvalue ▸ List.mem_cons_self)
  rw [hvalue, List.head?_cons, Option.some_inj, Option.some_inj] at hquote
  unfold isPlainByte shellSpecials at hplain
  grind

theorem EnvLine.configLine (l : EnvLine) : configLine l.text = some l.pair := by
  have hbytes := l.bytes
  have hcolon : (61 : UInt8) ∉ l.key := fun hmem =>
    (isNameByte_bounds (l.name.2.2 61 hmem)).2.2 rfl
  have hsplit : splitFirst 61 l.text = (l.key, some l.value) := splitFirst_append hcolon
  have hkey : trim l.key = l.key :=
    trim_plain fun c hc => hbytes c (List.mem_append_left _ hc)
  have hvalue : trim l.value = l.value :=
    trim_plain fun c hc => hbytes c (List.mem_append_right _ (List.mem_cons_of_mem _ hc))
  obtain ⟨c, rest, htext, hname⟩ := l.head
  have hstart : ¬ (l.text = [] ∨ l.text.head? = some 35) := by
    rw [htext]
    rintro (hnil | hhash)
    · cases hnil
    · rw [List.head?_cons, Option.some_inj] at hhash
      rw [hhash] at hname
      cases hname
  simp only [TrafficAnalyzer.configLine, trim_plain hbytes, if_neg hstart, hsplit, hkey, hvalue,
    unquote_plain]
  exact if_pos ⟨l.name.1, l.plain.1⟩

theorem stripBom_text (l : EnvLine) : stripBom l.text = l.text := by
  obtain ⟨c, rest, htext, hname⟩ := l.head
  rw [htext]
  unfold stripBom
  split
  · next heq =>
    cases heq
    cases hname
  · rfl

theorem splitOn_envText (file : List EnvLine) :
    (envText file).splitOn 10 = file.map EnvLine.text ++ [[]] := by
  induction file with
  | nil => rfl
  | cons l file ih =>
    have hnewline : (10 : UInt8) ∉ l.text := fun hmem => by cases l.bytes 10 hmem
    have htext : envText (l :: file) = l.text ++ 10 :: envText file := by
      rw [envText, List.flatMap_cons, List.append_assoc]
      rfl
    rw [htext, List.splitOn_append_cons_self_of_not_mem hnewline, ih]
    rfl

/-- On plain lines the loader parses the assignments as they are written. -/
theorem lineAssigns_envText (file : List EnvLine) :
    lineAssigns (envText file) = file.map EnvLine.pair := by
  have hstrip : stripFirst (file.map EnvLine.text ++ [[]]) = file.map EnvLine.text ++ [[]] := by
    cases file with
    | nil => rfl
    | cons l file => rw [List.map_cons, List.cons_append, stripFirst, stripBom_text]
  rw [lineAssigns, splitOn_envText, hstrip, List.filterMap_append, List.filterMap_map]
  have hlines : (TrafficAnalyzer.configLine ∘ EnvLine.text) = some ∘ EnvLine.pair :=
    funext EnvLine.configLine
  rw [hlines, List.filterMap_eq_map]
  exact List.append_nil _

end Lines

/-- The loader agrees with a shell exactly when each key has its last value already in the
first of the strings of `fgets` that assigns it; when every line fits into 1023 bytes, exactly
when the first and the last line of each key have the same value. -/
theorem envFile_iff {env : Env} {file : List EnvLine} (hunset : ∀ l ∈ file, env l.key = none) :
    (LoadsAsSourced env file ↔
      ∀ l ∈ file, (pieceAssigns (envText file)).lookup l.key = lastValue file l.key) ∧
      (ShortLines (envText file) → (LoadsAsSourced env file ↔
        ∀ l ∈ file, firstValue file l.key = lastValue file l.key)) := by
  have hall : LoadsAsSourced env file ↔
      ∀ l ∈ file, (pieceAssigns (envText file)).lookup l.key = lastValue file l.key := by
    refine forall₂_congr fun l hl => ?_
    rw [load_apply, sourceFile_apply, hunset l hl, Option.none_or, Option.or_none]
  refine ⟨hall, fun hshort => hall.trans ?_⟩
  rw [pieceAssigns_eq hshort, lineAssigns_envText]
  rfl

/-! ## Two files with a port twice -/

/-- The start of the file that `provision_agent.sh` writes. -/
def plainFile : List EnvLine :=
  [⟨ascii "AGENT_SERVER_HOST", ascii "localhost", by decide +kernel, by decide +kernel⟩,
    ⟨ascii "AGENT_SERVER_PORT", ascii "5674", by decide +kernel, by decide +kernel⟩,
    ⟨ascii "AGENT_VHOST", ascii "/", by decide +kernel, by decide +kernel⟩]

/-- The file with the port of TLS and, behind it, the first port again. -/
def backFile : List EnvLine :=
  plainFile ++ [⟨ascii "AGENT_SERVER_PORT", ascii "5671", by decide +kernel, by decide +kernel⟩,
    ⟨ascii "AGENT_SERVER_PORT", ascii "5674", by decide +kernel, by decide +kernel⟩]

theorem envFile_iff_backFile :
    backFile.countP (fun l => l.key = ascii "AGENT_SERVER_PORT") = 3 ∧
      LoadsAsSourced (fun _ => none) backFile :=
  ⟨by decide +kernel, (envFile_iff fun _ _ => rfl).1.mpr (by decide +kernel)⟩

/-- With `--mtls` there is a second port, and TLS is on. -/
def mtlsFile : List EnvLine :=
  plainFile ++ [⟨ascii "AGENT_SERVER_PORT", ascii "5671", by decide +kernel, by decide +kernel⟩,
    ⟨ascii "AGENT_USE_TLS", ascii "1", by decide +kernel, by decide +kernel⟩]

/-- The loader takes the first port, and a shell the second. -/
theorem mtlsFile_port : ¬ LoadsAsSourced (fun _ => none) mtlsFile := by
  have hloaded : (configLoadFile (fun _ => none) (some (envText mtlsFile))).1
      (ascii "AGENT_SERVER_PORT") = some (ascii "5674") := by decide +kernel
  have hsourced : sourceFile (fun _ => none) mtlsFile (ascii "AGENT_SERVER_PORT") =
      some (ascii "5671") := by decide +kernel
  intro h
  have hsame := h ⟨ascii "AGENT_SERVER_PORT", ascii "5671", by decide +kernel, by decide +kernel⟩ (by
    exact List.mem_append_right plainFile List.mem_cons_self)
  rw [hloaded, hsourced] at hsame
  exact absurd hsame (by decide)

end TrafficAnalyzer
