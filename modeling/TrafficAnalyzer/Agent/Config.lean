import Mathlib.Data.List.DropRight
import TrafficAnalyzer.Lib.CText
import TrafficAnalyzer.Lib.Defaults

/-!
# The configuration file (`src/agent/core/config.c`)

`config_load_file` reads the file with `fgets` into 1024 bytes, so a line of more than 1023
bytes arrives in pieces, and every piece is parsed as a line. `reference` is the documented
format, line by line.

1. `loads_iff`: the loader does what the reference says, and changes nothing when it runs a
   second time, exactly when the pieces and the environment are harmless (`CutsWell`). With lines
   of at most 1023 bytes only the environment matters.
2. `comment_becomes_assignment`: the end of a long comment is taken as an assignment.
-/

namespace TrafficAnalyzer

open CText Defaults

/-! ## The source -/

/-- `trim`. -/
def trim (s : Bytes) : Bytes := (s.dropWhile isSpace).rdropWhile isSpace

/-- One pair of equal quotes around a value is removed. -/
def unquote (val : Bytes) : Bytes :=
  if 2 ≤ val.length ∧ (val.head? = some 34 ∨ val.head? = some 39) ∧ val.getLast? = val.head? then
    val.tail.dropLast
  else val

/-- The body of the loop of `config_load_file` up to the assignment: the key and the value,
both not empty, or nothing for a line that is skipped. -/
def configLine (line : Bytes) : Option (Bytes × Bytes) :=
  let s := trim line
  if s = [] ∨ s.head? = some 35 then none
  else
    match splitFirst 61 s with
    | (_, none) => none
    | (key, some val) =>
      let key := trim key
      let val := unquote (trim val)
      if key ≠ [] ∧ val ≠ [] then some (key, val) else none

/-- What `getenv` answers for every name. -/
abbrev Env := Bytes → Option Bytes

/-- `setenv(key, val, 0)`: an existing variable is left alone, also an empty one. -/
def setenv (env : Env) (key val : Bytes) : Env :=
  if (env key).isSome then env else Function.update env key (some val)

/-- `set_env_if_unset`: the environment and the return value. -/
def setEnvIfUnset (env : Env) (key val : Bytes) : Env × Nat :=
  match env key with
  | some (_ :: _) => (env, 0)
  | _ => (setenv env key val, 1)

/-- `sizeof(line) - 1`. -/
def LINE_ROOM : Nat := 1023

/-- The strings that successive calls of `fgets` return, each with at most `size` bytes and
none past a newline. `cur` holds the bytes of the current one in reverse, and `room` how many
more it takes. -/
def fgetsPieces (size : Nat) : Nat → Bytes → Bytes → List Bytes
  | _, [], [] => []
  | _, cur, [] => [cur.reverse]
  | room, cur, c :: s =>
    if c = 10 ∨ room ≤ 1 then (c :: cur).reverse :: fgetsPieces size size [] s
    else fgetsPieces size (room - 1) (c :: cur) s

/-- A UTF-8 byte order mark is dropped. -/
def stripBom : Bytes → Bytes
  | 0xEF :: 0xBB :: 0xBF :: s => s
  | s => s

/-- `lineno == 1`. -/
def stripFirst : List Bytes → List Bytes
  | [] => []
  | s :: rest => stripBom s :: rest

/-- The loop of `config_load_file` over the strings that `fgets` returns. -/
def configLoadLoop (env : Env) (applied : Nat) : List Bytes → Env × Nat
  | [] => (env, applied)
  | s :: rest =>
    match configLine s with
    | none => configLoadLoop env applied rest
    | some (key, val) =>
      let (env, n) := setEnvIfUnset env key val
      configLoadLoop env (applied + n) rest

/-- `config_load_file` on a file with this content, or on a file that cannot be opened. -/
def configLoadFile (env : Env) (content : Option Bytes) : Env × Int :=
  match content with
  | none => (env, -1)
  | some content =>
    let (env, applied) :=
      configLoadLoop env 0 (stripFirst (fgetsPieces LINE_ROOM LINE_ROOM [] content))
    (env, applied)

/-! ## The documented format -/

/-- The assignments of the lines of the file. -/
def lineAssigns (content : Bytes) : List (Bytes × Bytes) :=
  (stripFirst (content.splitOn 10)).filterMap configLine

/-- Unset, or set to the empty string. -/
def isUnset (cur : Option Bytes) : Bool := cur = none ∨ cur = some []

/-- Every line sets its key when the key is unset or empty; the number of keys so set. -/
def reference (env : Env) (content : Bytes) : Env × Int :=
  let (env, n) := fill isUnset env (lineAssigns content)
  (env, n)

/-! ## The loader as a fill -/

/-- The assignments of the pieces in which the loader reads the file. -/
def pieceAssigns (content : Bytes) : List (Bytes × Bytes) :=
  (stripFirst (fgetsPieces LINE_ROOM LINE_ROOM [] content)).filterMap configLine

theorem configLine_value {s : Bytes} {x : Bytes × Bytes} (h : configLine s = some x) :
    x.2 ≠ [] := by
  unfold configLine at h
  dsimp only at h
  split at h
  · cases h
  split at h
  · cases h
  · split at h
    · next hne => exact Option.some.inj h ▸ hne.2
    · cases h

/-- The assignments of a key that is in the environment with an empty value. -/
def emptyHits (env : Env) (xs : List (Bytes × Bytes)) : Nat :=
  xs.countP fun x => env x.1 = some []

/-- The loop fills in the keys that are not in the environment, and counts an assignment of
an empty key too, which changes nothing. -/
theorem configLoadLoop_eq (env : Env) (applied : Nat) (pieces : List Bytes) :
    configLoadLoop env applied pieces =
      ((fill Option.isNone env (pieces.filterMap configLine)).1,
        applied + (fill Option.isNone env (pieces.filterMap configLine)).2 +
          emptyHits env (pieces.filterMap configLine)) := by
  induction pieces generalizing env applied with
  | nil => rfl
  | cons s rest ih =>
    cases hs : configLine s with
    | none => simp [configLoadLoop, hs, ih]
    | some x =>
      obtain ⟨key, val⟩ := x
      have hval : val ≠ [] := configLine_value hs
      simp only [configLoadLoop, hs, setEnvIfUnset, List.filterMap_cons, fill, emptyHits,
        List.countP_cons]
      rcases hcur : env key with _ | (_ | ⟨c, cur⟩)
      · have hhits : emptyHits (Function.update env key (some val)) (rest.filterMap configLine) =
            emptyHits env (rest.filterMap configLine) := by
          refine List.countP_congr fun x _ => ?_
          rcases Decidable.em (x.1 = key) with he | hne
          · simp [he, hcur, hval]
          · simp [Function.update_of_ne hne]
        simp only [setenv, hcur, ih, hhits, Option.isNone_none, Option.isSome_none,
          Bool.false_eq_true, ↓reduceIte]
        simp [emptyHits]
        omega
      · simp [setenv, hcur, ih, emptyHits]
        omega
      · simp [ih, emptyHits]

theorem configLoadFile_eq (env : Env) (content : Bytes) :
    configLoadFile env (some content) =
      ((fill Option.isNone env (pieceAssigns content)).1,
        (((fill Option.isNone env (pieceAssigns content)).2 +
          emptyHits env (pieceAssigns content) : Nat) : Int)) := by
  simp [configLoadFile, configLoadLoop_eq, pieceAssigns]

theorem pieceAssigns_value {content : Bytes} {x : Bytes × Bytes} (h : x ∈ pieceAssigns content) :
    x.2 ≠ [] := by
  obtain ⟨s, _, hs⟩ := List.mem_filterMap.mp h
  exact configLine_value hs

theorem lineAssigns_value {content : Bytes} {x : Bytes × Bytes} (h : x ∈ lineAssigns content) :
    x.2 ≠ [] := by
  obtain ⟨s, _, hs⟩ := List.mem_filterMap.mp h
  exact configLine_value hs

/-! ## When the loader follows the format -/

/-- The pieces of the file and the environment are harmless: a key that is empty in the
environment is assigned by no line and by no piece, and for a key that is not in the
environment the first piece that assigns it does what its line does. -/
def CutsWell (env : Env) (content : Bytes) : Prop :=
  ∀ key, match env key with
    | none => (pieceAssigns content).lookup key = (lineAssigns content).lookup key
    | some [] => (pieceAssigns content).lookup key = none ∧ (lineAssigns content).lookup key = none
    | some _ => True

/-- The loader leaves the environment and returns the count of the reference, every variable
it changes is assigned by a line, and a second run applies nothing. -/
structure LoadsAsDocumented (env : Env) (content : Bytes) : Prop where
  same : configLoadFile env (some content) = reference env content
  lines : ∀ key, (configLoadFile env (some content)).1 key ≠ env key →
    ∃ val, (key, val) ∈ lineAssigns content ∧
      (configLoadFile env (some content)).1 key = some val
  again : configLoadFile (configLoadFile env (some content)).1 (some content) =
    ((configLoadFile env (some content)).1, 0)

theorem load_apply (env : Env) (content key : Bytes) :
    (configLoadFile env (some content)).1 key =
      (env key).or ((pieceAssigns content).lookup key) := by
  rw [configLoadFile_eq, fill_apply fun x _ => rfl]
  cases env key <;> simp

theorem reference_apply (env : Env) (content key : Bytes) :
    (reference env content).1 key =
      if isUnset (env key) then ((lineAssigns content).lookup key).or (env key) else env key :=
  fill_apply (fun x hx => by simp [isUnset, lineAssigns_value hx]) key

theorem lookup_value {xs : List (Bytes × Bytes)} {key val : Bytes}
    (h : xs.lookup key = some val) : (key, val) ∈ xs := by
  obtain ⟨ys, zs, rfl, _⟩ := List.lookup_eq_some_iff.mp h
  simp

theorem emptyHits_eq_zero {env : Env} {xs : List (Bytes × Bytes)} :
    emptyHits env xs = 0 ↔ ∀ key, env key = some [] → xs.lookup key = none := by
  simp only [emptyHits, List.countP_eq_zero, decide_eq_true_eq, List.lookup_eq_none_iff, bne_iff_ne]
  constructor
  · rintro h key hkey x hx rfl
    exact h x hx hkey
  · exact fun h x hx hkey => h x.1 hkey x hx rfl

/-- The environments agree exactly when the lookups do. -/
theorem load_env_iff (env : Env) (content : Bytes) :
    (configLoadFile env (some content)).1 = (reference env content).1 ↔
      ∀ key, (env key = none → (pieceAssigns content).lookup key =
          (lineAssigns content).lookup key) ∧
        (env key = some [] → (lineAssigns content).lookup key = none) := by
  rw [funext_iff]
  refine forall_congr' fun key => ?_
  rw [load_apply, reference_apply]
  rcases hcur : env key with _ | (_ | ⟨c, cur⟩)
  · simp [isUnset]
  · -- an assignment of a line is not empty, so it would be seen
    have hne : ∀ val, (lineAssigns content).lookup key = some val → val ≠ [] := fun val h =>
      lineAssigns_value (lookup_value h)
    cases hval : (lineAssigns content).lookup key with
    | none => simp [isUnset]
    | some val => simp [isUnset, Ne.symm (hne val hval)]
  · simp [isUnset]

/-- `CutsWell` key by key. -/
theorem cutsWell_iff {env : Env} {content : Bytes} :
    CutsWell env content ↔ ∀ key,
      (env key = none → (pieceAssigns content).lookup key = (lineAssigns content).lookup key) ∧
        (env key = some [] → (pieceAssigns content).lookup key = none ∧
          (lineAssigns content).lookup key = none) := by
  refine forall_congr' fun key => ?_
  rcases env key with _ | (_ | ⟨c, cur⟩) <;> simp

theorem load_count (env : Env) (content : Bytes) :
    (configLoadFile env (some content)).2 =
      (((freeKeys Option.isNone env (pieceAssigns content)).card +
        emptyHits env (pieceAssigns content) : Nat) : Int) := by
  rw [configLoadFile_eq, fill_count fun _ _ => rfl]

theorem reference_count (env : Env) (content : Bytes) :
    (reference env content).2 =
      ((freeKeys isUnset env (lineAssigns content)).card : Int) :=
  congrArg Nat.cast (fill_count fun x hx => by simp [isUnset, lineAssigns_value hx])

/-- After a load the assigned keys are in the environment, so a second one finds none free,
and finds those empty that were empty before. -/
theorem load_again {env : Env} {content : Bytes} :
    configLoadFile (configLoadFile env (some content)).1 (some content) =
        ((configLoadFile env (some content)).1, 0) ↔
      ∀ key, env key = some [] → (pieceAssigns content).lookup key = none := by
  have happly := load_apply env content
  have hsame : (configLoadFile (configLoadFile env (some content)).1 (some content)).1 =
      (configLoadFile env (some content)).1 := by
    funext key
    rw [load_apply, happly]
    cases env key with
    | none => cases (pieceAssigns content).lookup key <;> rfl
    | some cur => rfl
  have hnone : freeKeys Option.isNone (configLoadFile env (some content)).1
      (pieceAssigns content) = ∅ := by
    refine Finset.eq_empty_of_forall_notMem fun key hkey => ?_
    obtain ⟨hmem, hfree⟩ := mem_freeKeys.mp hkey
    obtain ⟨val, hval⟩ := Option.isSome_iff_exists.mp (lookup_isSome.mpr hmem)
    rw [happly, hval] at hfree
    cases hcur : env key <;> simp [hcur] at hfree
  have hempty : ∀ key, (configLoadFile env (some content)).1 key = some [] ↔
      env key = some [] := fun key => by
    rw [happly]
    cases hcur : env key with
    | some cur => simp
    | none =>
      refine iff_of_false (fun h => ?_) (by simp)
      exact pieceAssigns_value (lookup_value h) rfl
  rw [Prod.ext_iff, load_count, hnone]
  simp only [hsame, true_and, Finset.card_empty, Nat.zero_add, Int.natCast_eq_zero,
    emptyHits_eq_zero, hempty]

theorem loads_iff_cutsWell (env : Env) (content : Bytes) :
    LoadsAsDocumented env content ↔ CutsWell env content := by
  rw [cutsWell_iff]
  constructor
  · intro h key
    have henv := (load_env_iff env content).mp (congrArg Prod.fst h.same) key
    exact ⟨henv.1, fun hcur => ⟨load_again.mp h.again key hcur, henv.2 hcur⟩⟩
  · intro h
    have hsame : (configLoadFile env (some content)).1 = (reference env content).1 :=
      (load_env_iff env content).mpr fun key => ⟨(h key).1, fun hcur => ((h key).2 hcur).2⟩
    have hhits : emptyHits env (pieceAssigns content) = 0 :=
      emptyHits_eq_zero.mpr fun key hcur => ((h key).2 hcur).1
    have hkeys : freeKeys Option.isNone env (pieceAssigns content) =
        freeKeys isUnset env (lineAssigns content) := by
      ext key
      rw [mem_freeKeys, mem_freeKeys, ← lookup_isSome, ← lookup_isSome]
      obtain ⟨hnone, hemptied⟩ := h key
      rcases hcur : env key with _ | (_ | ⟨c, cur⟩)
      · simp [isUnset, hnone hcur]
      · simp [isUnset, (hemptied hcur).2]
      · simp [isUnset]
    refine ⟨Prod.ext hsame ?_, fun key hne => ?_, load_again.mpr fun key hcur => ((h key).2 hcur).1⟩
    · rw [load_count, reference_count, hkeys, hhits, Nat.add_zero]
    · rw [load_apply] at hne ⊢
      cases hcur : env key with
      | some cur => simp [hcur] at hne
      | none =>
        rw [hcur] at hne
        rw [Option.none_or] at hne ⊢
        obtain ⟨val, hval⟩ := Option.ne_none_iff_exists'.mp hne
        exact ⟨val, lookup_value ((h key).1 hcur ▸ hval), hval⟩

/-! ## Short lines -/

section Pieces

variable {size room : Nat} {cur l rest : Bytes} {c : UInt8}

theorem fgetsPieces_cut (h : c = 10 ∨ room ≤ 1) :
    fgetsPieces size room cur (c :: rest) =
      (c :: cur).reverse :: fgetsPieces size size [] rest := by
  cases cur <;> simp [fgetsPieces, h]

theorem fgetsPieces_go (h : ¬ (c = 10 ∨ room ≤ 1)) :
    fgetsPieces size room cur (c :: rest) = fgetsPieces size (room - 1) (c :: cur) rest := by
  cases cur <;> simp [fgetsPieces, h]

/-- Before the newline and with more than one byte of room the call goes on. -/
theorem fgetsPieces_run (hl : (10 : UInt8) ∉ l) (hroom : l.length < room) :
    fgetsPieces size room cur (l ++ rest) =
      fgetsPieces size (room - l.length) (l.reverse ++ cur) rest := by
  induction l generalizing room cur with
  | nil => rfl
  | cons c l ih =>
    rw [List.mem_cons, not_or] at hl
    rw [List.length_cons] at hroom
    have hgo : ¬ (c = 10 ∨ room ≤ 1) := by
      rintro (rfl | hle)
      · exact hl.1 rfl
      · exact absurd hroom (by omega)
    rw [List.cons_append, fgetsPieces_go hgo, ih hl.2 (by omega)]
    simp [Nat.sub_sub, Nat.add_comm]

/-- A line with room for its newline is one piece. -/
theorem fgetsPieces_line (hl : (10 : UInt8) ∉ l) (hroom : l.length < room) :
    fgetsPieces size room cur (l ++ 10 :: rest) =
      (cur.reverse ++ l ++ [10]) :: fgetsPieces size size [] rest := by
  rw [fgetsPieces_run hl hroom, fgetsPieces_cut (.inl rfl)]
  simp

/-- A piece ends when the buffer is full. -/
theorem fgetsPieces_full (hl : (10 : UInt8) ∉ l) (hroom : l.length + 1 = room) :
    fgetsPieces size room cur (l ++ c :: rest) =
      (cur.reverse ++ l ++ [c]) :: fgetsPieces size size [] rest := by
  rw [fgetsPieces_run hl (by omega), fgetsPieces_cut (.inr (by omega))]
  simp

theorem fgetsPieces_last (hl : (10 : UInt8) ∉ l) (hne : l ≠ []) (hroom : l.length < room) :
    fgetsPieces size room [] l = [l] := by
  have hrun : fgetsPieces size room [] (l ++ []) =
      fgetsPieces size (room - l.length) (l.reverse ++ []) [] := fgetsPieces_run hl hroom
  rw [List.append_nil, List.append_nil] at hrun
  rw [hrun]
  obtain ⟨c, s, hs⟩ := List.exists_cons_of_ne_nil (List.reverse_ne_nil_iff.mpr hne)
  rw [hs, fgetsPieces, ← hs, List.reverse_reverse]
  simp

end Pieces

theorem trim_newline (s : Bytes) : trim (s ++ [10]) = trim s := by
  unfold trim
  rw [List.dropWhile_append]
  split
  · next h => simp [List.isEmpty_iff.mp h, isSpace]
  · exact List.rdropWhile_concat_pos _ _ _ rfl

theorem configLine_newline (s : Bytes) : configLine (s ++ [10]) = configLine s := by
  unfold configLine
  rw [trim_newline]

theorem stripBom_newline (s : Bytes) : stripBom (s ++ [10]) = stripBom s ++ [10] := by
  fun_cases stripBom s with
  | case1 s => rfl
  | case2 s hbom =>
    -- the newline is none of the three bytes, so it completes no mark
    refine stripBom.eq_2 _ fun t ht => ?_
    rcases s with _ | ⟨a, _ | ⟨b, _ | ⟨c, s⟩⟩⟩
    · cases ht
    · cases ht
    · cases ht
    · cases ht
      exact hbom s rfl

/-- How the loader reads a line that fits, up to its newline: the line with or without the
newline, and then at most the newline alone. -/
theorem fgetsPieces_short {l : Bytes} (rest : Bytes) (hl : (10 : UInt8) ∉ l)
    (hshort : l.length ≤ LINE_ROOM) :
    ∃ p tail, fgetsPieces LINE_ROOM LINE_ROOM [] (l ++ 10 :: rest) = p :: tail ∧
      (p = l ∨ p = l ++ [10]) ∧
      tail.filterMap configLine =
        (fgetsPieces LINE_ROOM LINE_ROOM [] rest).filterMap configLine := by
  rcases Nat.lt_or_eq_of_le hshort with hlt | heq
  · exact ⟨_, _, fgetsPieces_line hl hlt, .inr rfl, rfl⟩
  · -- the line fills the buffer, and its newline is a piece of its own
    have hne : l ≠ [] := fun h => absurd heq (by simp [h, LINE_ROOM])
    obtain ⟨init, c, rfl⟩ := List.eq_nil_or_concat' l |>.resolve_left hne
    rw [List.length_append, List.length_singleton] at heq
    have hfull : fgetsPieces LINE_ROOM LINE_ROOM [] (init ++ c :: 10 :: rest) =
        (init ++ [c]) :: fgetsPieces LINE_ROOM LINE_ROOM [] (10 :: rest) :=
      fgetsPieces_full (fun h => hl (List.mem_append_left _ h)) heq
    refine ⟨_, _, by rw [List.append_assoc]; exact hfull, .inl rfl, ?_⟩
    rw [fgetsPieces_cut (.inl rfl), List.filterMap_cons]
    rfl

theorem fgetsPieces_short_last {l : Bytes} (hl : (10 : UInt8) ∉ l) (hne : l ≠ [])
    (hshort : l.length ≤ LINE_ROOM) : fgetsPieces LINE_ROOM LINE_ROOM [] l = [l] := by
  rcases Nat.lt_or_eq_of_le hshort with hlt | heq
  · exact fgetsPieces_last hl hne hlt
  · obtain ⟨init, c, rfl⟩ := List.eq_nil_or_concat' l |>.resolve_left hne
    rw [List.length_append, List.length_singleton] at heq
    exact fgetsPieces_full (fun h => hl (List.mem_append_left _ h)) heq

/-- Every line has at most 1023 bytes. -/
def ShortLines (content : Bytes) : Prop := ∀ l ∈ content.splitOn 10, l.length ≤ LINE_ROOM

theorem shortLines_line {l rest : Bytes} (hl : (10 : UInt8) ∉ l)
    (h : ShortLines (l ++ 10 :: rest)) : l.length ≤ LINE_ROOM ∧ ShortLines rest := by
  rw [ShortLines, List.splitOn_append_cons_self_of_not_mem hl] at h
  exact ⟨h l (List.mem_cons_self ..), fun k hk => h k (List.mem_cons_of_mem _ hk)⟩

/-- When every line fits, the pieces assign what the lines assign. The first of either is
read through `f`, which is the mark that `lineno == 1` drops or nothing. -/
theorem pieces_eq_lines {f : Bytes → Bytes} {content : Bytes} (h : ShortLines content)
    (hf : ∀ l, configLine (f (l ++ [10])) = configLine (f l)) (hnil : configLine (f []) = none) :
    ((fgetsPieces LINE_ROOM LINE_ROOM [] content).modifyHead f).filterMap configLine =
      ((content.splitOn 10).modifyHead f).filterMap configLine := by
  induction hn : content.length using Nat.strong_induction_on generalizing content f with
  | _ n ih =>
    subst hn
    obtain ⟨hl, _⟩ | ⟨l, rest, hl, rfl, _⟩ := splitFirst_cases 10 content
    · rw [ShortLines, List.splitOn_eq_singleton hl] at h
      rw [List.splitOn_eq_singleton hl]
      rcases Decidable.em (content = []) with rfl | hne
      · -- no piece, and one line that is empty
        simp [fgetsPieces, hnil]
      · rw [fgetsPieces_short_last hl hne (h _ (List.mem_cons_self ..))]
    · obtain ⟨hshort, hrest⟩ := shortLines_line hl h
      obtain ⟨p, tail, hpieces, hp, htail⟩ := fgetsPieces_short rest hl hshort
      have hsame : configLine (f p) = configLine (f l) := by
        rcases hp with rfl | rfl
        · rfl
        · exact hf l
      -- behind the first line nothing is dropped
      have hlines := ih rest.length (by simp; omega) (f := id) hrest configLine_newline rfl rfl
      rw [List.modifyHead_id, id, id] at hlines
      rw [hpieces, List.splitOn_append_cons_self_of_not_mem hl, List.modifyHead_cons,
        List.modifyHead_cons, List.filterMap_cons, List.filterMap_cons, hsame, htail, hlines]

theorem stripFirst_eq (pieces : List Bytes) : stripFirst pieces = pieces.modifyHead stripBom := by
  cases pieces <;> rfl

theorem pieceAssigns_eq {content : Bytes} (h : ShortLines content) :
    pieceAssigns content = lineAssigns content := by
  rw [pieceAssigns, lineAssigns, stripFirst_eq, stripFirst_eq]
  refine pieces_eq_lines h (fun l => ?_) rfl
  rw [stripBom_newline, configLine_newline]

/-- Lines that fit are harmless when none assigns a key that the environment holds with an empty
value. -/
theorem cutsWell_short_iff {env : Env} {content : Bytes} (h : ShortLines content) :
    CutsWell env content ↔
      ∀ key, env key = some [] → (lineAssigns content).lookup key = none := by
  rw [cutsWell_iff, pieceAssigns_eq h]
  exact forall_congr' fun key => ⟨fun hkey hempty => (hkey.2 hempty).1,
    fun hkey => ⟨fun _ => rfl, fun hempty => ⟨hkey hempty, hkey hempty⟩⟩⟩

/-- The loader does what the documented format says, and a second load changes nothing,
exactly when the pieces and the environment are harmless; when every line fits into 1023 bytes,
exactly when no line assigns a key that the environment holds with an empty value. -/
theorem loads_iff (env : Env) (content : Bytes) :
    (LoadsAsDocumented env content ↔ CutsWell env content) ∧
      (ShortLines content → (LoadsAsDocumented env content ↔
        ∀ key, env key = some [] → (lineAssigns content).lookup key = none)) :=
  ⟨loads_iff_cutsWell env content,
    fun hshort => (loads_iff_cutsWell env content).trans (cutsWell_short_iff hshort)⟩

/-- A comment of 1023 bytes and an assignment behind it on the same line. -/
def longComment : Bytes := 35 :: List.replicate 1022 120 ++ ascii "KEY=VAL"

theorem longComment_pieces : pieceAssigns longComment = [(ascii "KEY", ascii "VAL")] := by
  decide +kernel

theorem longComment_lines : lineAssigns longComment = [] := by
  decide +kernel

/-- The end of a comment of more than 1023 bytes is taken as an assignment. -/
theorem comment_becomes_assignment : ¬ LoadsAsDocumented (fun _ => none) longComment := by
  intro h
  have henv := (load_env_iff _ longComment).mp (congrArg Prod.fst h.same) (ascii "KEY")
  have hkey := henv.1 rfl
  rw [longComment_pieces, longComment_lines] at hkey
  simp at hkey

end TrafficAnalyzer
