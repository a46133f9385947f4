import TrafficAnalyzer.Lib.CText
import TrafficAnalyzer.Lib.Spans
import TrafficAnalyzer.Server.Json

/-!
# Parsing WHOIS answers (`src/server/nta_whois.c`)

The answer of a server is scanned in place. A pointer is an offset into the answer, and every
read is checked: a definition of the first part has no result when it reads outside.

1. `parseRegional_lines`: `parse_regional` reads only the answer, and finds in it the first
   value of each field that is not empty.
2. `parseRefer_lines`: the same of `parse_refer`.
3. `whois_linewise`: both, and that an answer with CRLF at the ends of its lines gives the same.
-/

namespace TrafficAnalyzer

open Spans
open CText (splitFirst splitFirst_absent splitFirst_append splitFirst_cases)

/-! ## The source -/

/-- `NtaWhoisInfo`, with the strings that its arrays hold. -/
structure NtaWhoisInfo where
  org : Bytes
  country : Bytes
  netname : Bytes
  hasData : Int
deriving DecidableEq, Repr

def isBlank (c : UInt8) : Bool := c = 32 ∨ c = 9

/-- What `copy_trim` takes off the end of a value. -/
def isTrimmed (c : UInt8) : Bool := isBlank c ∨ c = 13 ∨ c = 10

/-- What `parse_refer` takes off the end of a value. -/
def isReferTrimmed (c : UInt8) : Bool := c = 13 ∨ c = 32

/-- `copy_trim` into an array of `cap` bytes: the string that it holds afterwards. -/
def copyTrim (cap : Nat) (buf : Bytes) (src n : Nat) : Option Bytes := do
  let front ← scan isBlank buf src n
  let len ← scanBack isTrimmed buf (src + front) (n - front)
  let bytes ← read buf (src + front) (if cap ≤ len then cap - 1 else len)
  some (cString bytes)

/-- `strncasecmp` of the line with a whole key, when it is 0. -/
def strncasecmp (buf : Bytes) : Nat → Bytes → Option Bool
  | _, [] => some true
  | p, k :: ks => do
    let c ← buf[p]?
    if toLower c = toLower k then strncasecmp buf (p + 1) ks else some false

/-- `while (p < line + line_len && (*p == ' ' || *p == '\t')) p++;`. -/
def skipBlanks (buf : Bytes) (p lineEnd : Nat) : Option Nat :=
  (scan isBlank buf p (lineEnd - p)).map (p + ·)

/-- `line_match_key`: where the value begins, when the line has the key. -/
def lineMatchKey (buf : Bytes) (line lineLen : Nat) (key : Bytes) : Option (Option Nat) :=
  if lineLen < key.length + 1 then some none
  else do
    let same ← strncasecmp buf line key
    if same = false then some none
    else do
      let p ← skipBlanks buf (line + key.length) (line + lineLen)
      if line + lineLen ≤ p then some none
      else do
        let c ← buf[p]?
        if c ≠ 58 then some none
        else do
          let v ← skipBlanks buf (p + 1) (line + lineLen)
          some (some v)

/-- A line in the loop of `parse_refer`; the flag is its `return 1`. -/
def referLine (outCap : Nat) (buf : Bytes) (p llen : Nat) (host : Option Bytes) :
    Option (Option Bytes × Bool) := do
  match ← lineMatchKey buf p llen (ascii "refer") with
  | none => some (host, false)
  | some v => do
    let n ← distance (p + llen) v
    let vlen ← scanBack isReferTrimmed buf v n
    if 0 < vlen ∧ vlen < outCap then do
      let bytes ← read buf v vlen
      some (some (cString bytes), true)
    else some (host, false)

/-- `parse_refer`: the host, if there is one. -/
def parseRefer (outCap : Nat) (buf : Bytes) : Option (Option Bytes) :=
  forLines 10 buf (referLine outCap buf) 0 buf.length none

def orgKeys : List Bytes :=
  [ascii "OrgName", ascii "owner", ascii "descr", ascii "org-name", ascii "organisation"]

def countryKeys : List Bytes := [ascii "Country", ascii "country"]

def netnameKeys : List Bytes := [ascii "NetName", ascii "netname"]

/-- The loop over the keys of a field. -/
def firstMatch (buf : Bytes) (p llen : Nat) : List Bytes → Option (Option Nat)
  | [] => some none
  | key :: keys => do
    match ← lineMatchKey buf p llen key with
    | some v => some (some v)
    | none => firstMatch buf p llen keys

/-- A field whose array has `cap` bytes, in the loop of `parse_regional`. -/
def regionalField (cap : Nat) (keys : List Bytes) (buf : Bytes) (p llen : Nat) (cur : Bytes) :
    Option Bytes :=
  if cur ≠ [] then some cur
  else do
    match ← firstMatch buf p llen keys with
    | none => some cur
    | some v => do
      let n ← distance (p + llen) v
      copyTrim cap buf v n

/-- A line in the loop of `parse_regional`. -/
def regionalLine (buf : Bytes) (p llen : Nat) (out : NtaWhoisInfo) :
    Option (NtaWhoisInfo × Bool) := do
  let org ← regionalField 256 orgKeys buf p llen out.org
  let country ← regionalField 8 countryKeys buf p llen out.country
  let netname ← regionalField 128 netnameKeys buf p llen out.netname
  some ({ out with org, country, netname }, false)

/-- `parse_regional`. -/
def parseRegional (buf : Bytes) (out : NtaWhoisInfo) : Option NtaWhoisInfo := do
  let out ← forLines 10 buf (regionalLine buf) 0 buf.length out
  some (if out.org ≠ [] ∨ out.country ≠ [] then { out with hasData := 1 } else out)

/-! ## Line by line -/

def trimValue (value : Bytes) : Bytes := (value.dropWhile isBlank).rdropWhile isTrimmed

/-- The text behind the first colon of a line, when the text before it is one of the names, up
to the case of letters and to blanks at its end. -/
def namedValue (keys : List Bytes) (line : Bytes) : Option Bytes :=
  match splitFirst 58 line with
  | (name, some value) =>
    if keys.any fun key => key.map toLower = (name.rdropWhile isBlank).map toLower then some value
    else none
  | (_, none) => none

/-- The first value of a field that is not empty, as far as its array takes it. -/
def whoisField (cap : Nat) (keys : List Bytes) (buf : Bytes) : Bytes :=
  let values := ((buf.splitOn 10).filterMap (namedValue keys)).map trimValue
  ((values.find? (· ≠ [])).getD []).take (cap - 1)

def referValue (value : Bytes) : Bytes := (value.dropWhile isBlank).rdropWhile isReferTrimmed

/-- The first host that is not empty and fits. -/
def whoisRefer (outCap : Nat) (buf : Bytes) : Option Bytes :=
  let hosts := ((buf.splitOn 10).filterMap (namedValue [ascii "refer"])).map referValue
  hosts.find? fun host => host ≠ [] ∧ host.length < outCap

/-- Every LF becomes CR LF. -/
def crlf (buf : Bytes) : Bytes := buf.flatMap fun c => if c = 10 then [13, 10] else [c]

/-! ## One line -/

section Line

variable {buf key line v : Bytes} {p n : Nat}

theorem strncasecmp_eq (h : p + key.length ≤ buf.length) :
    strncasecmp buf p key = some (decide ((span buf p key.length).map toLower = key.map toLower)) := by
  induction key generalizing p with
  | nil => simp [strncasecmp, span]
  | cons k ks ih =>
    rw [List.length_cons] at h ⊢
    have hp : p < buf.length := by omega
    simp only [strncasecmp, List.getElem?_eq_getElem hp, Option.bind_eq_bind, Option.bind_some,
      span_succ hp, List.map_cons, List.cons.injEq]
    split
    · next hk => simp [hk, ih (by omega : p + 1 + ks.length ≤ buf.length)]
    · next hk => simp [hk]

theorem skipBlanks_eq (buf : Bytes) (p n : Nat) (h : p + n ≤ buf.length) :
    skipBlanks buf p (p + n) =
      some (p + (n - ((span buf p n).dropWhile isBlank).length)) := by
  rw [skipBlanks, Nat.add_sub_cancel_left, scan_eq h, takeWhile_length, length_span h, Option.map_some]

/-- What `line_match_key` computes of a line: the text from the value on. -/
def keyValue (key line : Bytes) : Option Bytes :=
  if line.length < key.length + 1 then none
  else if (line.take key.length).map toLower = key.map toLower then
    match (line.drop key.length).dropWhile isBlank with
    | c :: rest => if c = 58 then some (rest.dropWhile isBlank) else none
    | [] => none
  else none

theorem lineMatchKey_eq (h : p + n ≤ buf.length) :
    lineMatchKey buf p n key =
      some ((keyValue key (span buf p n)).map fun v => p + (n - v.length)) := by
  unfold lineMatchKey keyValue
  rw [length_span h]
  split
  · rfl
  · next hlen =>
    have hkey : p + key.length + (n - key.length) = p + n := by omega
    have hskip := skipBlanks_eq buf (p + key.length) (n - key.length) (by omega)
    rw [hkey, ← span_drop] at hskip
    rw [strncasecmp_eq (by omega), span_take, Nat.min_eq_left (by omega), hskip]
    split
    · next hsame =>
      -- the blanks behind the key, and what follows them
      have hsuffix := List.dropWhile_suffix (l := (span buf p n).drop key.length) isBlank
      have hbound := hsuffix.length_le
      rw [List.length_drop, length_span h] at hbound
      rw [span_drop] at hsuffix hbound ⊢
      have hrest := span_suffix (by omega) hsuffix
      generalize (span buf (p + key.length) (n - key.length)).dropWhile isBlank = rest
        at hrest hbound ⊢
      simp only [Option.bind_eq_bind, Option.bind_some, hsame, decide_true, Bool.true_eq_false,
        if_false]
      cases rest with
      | nil =>
        rw [if_pos (by simp; omega)]
        rfl
      | cons c rest =>
        rw [List.length_cons] at hrest hbound ⊢
        have hp : p + key.length + (n - key.length - (rest.length + 1)) < buf.length := by omega
        rw [span_succ hp, List.cons.injEq] at hrest
        rw [if_neg (by omega), List.getElem?_eq_getElem hp, hrest.1, Option.bind_some]
        dsimp only
        have hlast := (List.dropWhile_suffix (l := rest) isBlank).length_le
        have hvalue := skipBlanks_eq buf
          (p + key.length + (n - key.length - (rest.length + 1)) + 1) rest.length (by omega)
        rw [hrest.2, show p + key.length + (n - key.length - (rest.length + 1)) + 1 + rest.length =
          p + n by omega] at hvalue
        split
        · rfl
        · next hcolon =>
          rw [hvalue, if_pos (Decidable.not_not.mp hcolon), Option.bind_some, Option.map_some]
          congr 2
          omega
    · next hdiffers => simp [hdiffers]

/-- A key as the source writes them. -/
def PlainKey (key : Bytes) : Prop :=
  (58 : UInt8) ∉ key.map toLower ∧ ∀ c ∈ key.getLast?, isBlank (toLower c) = false

theorem toLower_blank (c : UInt8) (h : isBlank c = true) : toLower c = c := by
  simp only [isBlank, decide_eq_true_eq] at h
  rcases h with rfl | rfl <;> rfl

theorem keyValue_iff :
    keyValue key line = some v ↔ ∃ name blanks value, line = name ++ blanks ++ 58 :: value ∧
      name.map toLower = key.map toLower ∧ (∀ c ∈ blanks, isBlank c = true) ∧
      v = value.dropWhile isBlank := by
  constructor
  · intro h
    unfold keyValue at h
    split at h
    · cases h
    · split at h
      · next hname =>
        split at h
        · next c value hrest =>
          split at h
          · next hcolon =>
            cases h
            refine ⟨_, (line.drop key.length).takeWhile isBlank, value, ?_, hname,
              fun c hc => List.mem_takeWhile_imp hc, rfl⟩
            rw [List.append_assoc, ← hcolon, ← hrest, List.takeWhile_append_dropWhile,
              List.take_append_drop]
          · cases h
        · cases h
      · cases h
  · rintro ⟨name, blanks, value, rfl, hname, hblanks, rfl⟩
    have hlen : key.length = name.length := by
      have hlens := congrArg List.length hname
      rw [List.length_map, List.length_map] at hlens
      exact hlens.symm
    unfold keyValue
    rw [if_neg (by simp [hlen]), hlen, List.append_assoc, List.take_left, if_pos hname,
      List.drop_left, List.dropWhile_append_of_pos hblanks]
    rfl

theorem namedValue_iff {keys : List Bytes} {value : Bytes} :
    namedValue keys line = some value ↔ ∃ name, (58 : UInt8) ∉ name ∧
      line = name ++ 58 :: value ∧
      (name.rdropWhile isBlank).map toLower ∈ keys.map (List.map toLower) := by
  constructor
  · intro h
    rcases splitFirst_cases 58 line with ⟨_, hsplit⟩ | ⟨name, rest, hname, hline, hsplit⟩
    · rw [namedValue, hsplit] at h
      cases h
    · rw [namedValue, hsplit] at h
      dsimp only at h
      split at h
      · next hkey =>
        cases h
        exact ⟨name, hname, hline, by simpa using hkey⟩
      · cases h
  · rintro ⟨name, hname, rfl, hkey⟩
    rw [namedValue, splitFirst_append hname]
    exact if_pos (by simpa using hkey)

theorem rdropWhile_blanks {name blanks : Bytes} (hblanks : ∀ c ∈ blanks, isBlank c = true) :
    (name ++ blanks).rdropWhile isBlank = name.rdropWhile isBlank := by
  have hrev : ∀ c ∈ blanks.reverse, isBlank c = true := fun c hc =>
    hblanks c (List.mem_reverse.mp hc)
  rw [List.rdropWhile, List.reverse_append, List.dropWhile_append_of_pos hrev, List.rdropWhile]

/-- A text that is a key up to case has no blank at its end, and no colon. -/
theorem PlainKey.name (hkey : PlainKey key) {name : Bytes}
    (hname : name.map toLower = key.map toLower) :
    (58 : UInt8) ∉ name ∧ name.rdropWhile isBlank = name := by
  constructor
  · intro hmem
    refine hkey.1 ?_
    rw [← hname]
    exact List.mem_map.mpr ⟨58, hmem, rfl⟩
  · rw [List.rdropWhile_eq_self_iff]
    intro hne hblank
    have hlast := congrArg List.getLast? hname
    rw [List.getLast?_map, List.getLast?_map, List.getLast?_eq_some_getLast hne, Option.map_some,
      toLower_blank _ hblank] at hlast
    obtain ⟨c, hc, hlower⟩ := Option.map_eq_some_iff.mp hlast.symm
    have hplain := hkey.2 c hc
    rw [hlower, hblank] at hplain
    cases hplain

/-- `line_match_key` finds the key exactly when the name before the first colon is the key, up
to the case of letters and to blanks at its end. -/
theorem keyValue_eq (hkey : PlainKey key) :
    keyValue key line = (namedValue [key] line).map (·.dropWhile isBlank) := by
  refine Option.ext fun v => ?_
  rw [Option.map_eq_some_iff, keyValue_iff]
  constructor
  · rintro ⟨name, blanks, value, rfl, hname, hblanks, rfl⟩
    obtain ⟨hcolon, hends⟩ := hkey.name hname
    refine ⟨value, namedValue_iff.mpr ⟨name ++ blanks, fun hmem => ?_, rfl, ?_⟩, rfl⟩
    · rcases List.mem_append.mp hmem with hmem | hmem
      · exact hcolon hmem
      · exact absurd (hblanks 58 hmem) (by decide)
    · rw [rdropWhile_blanks hblanks, hends, hname]
      exact List.mem_singleton_self _
  · rintro ⟨value, hvalue, rfl⟩
    obtain ⟨name, -, rfl, hname⟩ := namedValue_iff.mp hvalue
    refine ⟨name.rdropWhile isBlank, name.rtakeWhile isBlank, value, ?_,
      List.mem_singleton.mp hname, fun c hc => List.mem_rtakeWhile_imp hc, rfl⟩
    rw [List.rdropWhile_append_rtakeWhile]

theorem copyTrim_eq {cap : Nat} (h : p + n ≤ buf.length) :
    copyTrim cap buf p n = some (cString ((trimValue (span buf p n)).take (cap - 1))) := by
  have hfront := List.dropWhile_suffix (l := span buf p n) isBlank
  have hstretch := span_suffix h hfront
  have hbound := hfront.length_le
  rw [length_span h] at hbound
  rw [copyTrim, scan_eq h, takeWhile_length, length_span h, Option.bind_eq_bind, Option.bind_some,
    trimValue]
  generalize (span buf p n).dropWhile isBlank = front at hstretch hbound ⊢
  have hback := List.rdropWhile_prefix isTrimmed (l := front)
  rw [Nat.sub_sub_self hbound, scanBack_eq (by omega), hstretch, Option.bind_eq_bind,
    Option.bind_some]
  have hshort := hback.length_le
  have hcut := span_take buf (p + (n - front.length)) front.length
  rw [hstretch] at hcut
  have hvalue : (front.rdropWhile isTrimmed).take (cap - 1) = span buf (p + (n - front.length))
      (min (min (cap - 1) (front.rdropWhile isTrimmed).length) front.length) :=
    (congrArg _ (List.prefix_iff_eq_take.mp hback)).trans (by rw [List.take_take, hcut])
  have hlen : (if cap ≤ (front.rdropWhile isTrimmed).length then cap - 1
      else (front.rdropWhile isTrimmed).length) =
      min (min (cap - 1) (front.rdropWhile isTrimmed).length) front.length := by
    split <;> omega
  rw [hvalue, hlen, read_eq (by omega)]
  rfl

end Line

section Field

variable {buf line : Bytes} {keys : List Bytes} {p n cap : Nat}

theorem namedValue_cons (key : Bytes) (keys : List Bytes) (line : Bytes) :
    namedValue (key :: keys) line = (namedValue [key] line).or (namedValue keys line) := by
  rcases splitFirst_cases 58 line with ⟨_, hsplit⟩ | ⟨name, value, _, _, hsplit⟩
  · simp [namedValue, hsplit]
  · simp only [namedValue, hsplit, List.any_cons, List.any_nil, Bool.or_false, Bool.or_eq_true,
      decide_eq_true_eq]
    rcases Decidable.em (key.map toLower = (name.rdropWhile isBlank).map toLower) with hkey | hkey
    · rw [if_pos (.inl hkey), if_pos hkey]
      rfl
    · rw [if_neg hkey, Option.none_or]
      exact if_congr (or_iff_right hkey) rfl rfl

theorem firstMatch_eq (hkeys : ∀ key ∈ keys, PlainKey key) (h : p + n ≤ buf.length) :
    firstMatch buf p n keys =
      some ((namedValue keys (span buf p n)).map fun value =>
        p + (n - (value.dropWhile isBlank).length)) := by
  induction keys with
  | nil =>
    rcases splitFirst_cases 58 (span buf p n) with ⟨_, hsplit⟩ | ⟨name, value, _, _, hsplit⟩ <;>
      simp [firstMatch, namedValue, hsplit]
  | cons key keys ih =>
    rw [firstMatch, lineMatchKey_eq h, keyValue_eq (hkeys key List.mem_cons_self),
      namedValue_cons key keys, Option.bind_eq_bind, Option.bind_some]
    cases hvalue : namedValue [key] (span buf p n) with
    | none => exact ih fun key' hkey' => hkeys key' (List.mem_cons_of_mem _ hkey')
    | some value => rfl

/-- Where a value is in the answer. -/
theorem value_place {value : Bytes} (h : p + n ≤ buf.length)
    (hvalue : namedValue keys (span buf p n) = some value) :
    distance (p + n) (p + (n - (value.dropWhile isBlank).length)) =
        some (value.dropWhile isBlank).length ∧
      span buf (p + (n - (value.dropWhile isBlank).length)) (value.dropWhile isBlank).length =
        value.dropWhile isBlank ∧ (value.dropWhile isBlank).length ≤ n := by
  obtain ⟨name, -, hline, -⟩ := namedValue_iff.mp hvalue
  have hrest : value <:+ span buf p n :=
    hline ▸ (List.suffix_cons 58 value).trans (List.suffix_append name _)
  have hsuffix := (List.dropWhile_suffix (l := value) isBlank).trans hrest
  have hlen := hsuffix.length_le
  rw [length_span h] at hlen
  refine ⟨?_, span_suffix h hsuffix, hlen⟩
  rw [distance, if_pos (by omega)]
  congr 1
  omega

/-- What a line does to a field of `parse_regional`. -/
def fieldStep (cap : Nat) (keys : List Bytes) (cur line : Bytes) : Bytes :=
  if cur ≠ [] then cur
  else ((namedValue keys line).map fun value => (trimValue value).take (cap - 1)).getD []

theorem trimValue_dropWhile (value : Bytes) :
    trimValue (value.dropWhile isBlank) = trimValue value := by
  rw [trimValue, List.dropWhile_idempotent, trimValue]

theorem trimValue_subset (value : Bytes) : trimValue value ⊆ value := fun _ hc =>
  List.dropWhile_subset _ ((List.rdropWhile_prefix isTrimmed _).subset hc)

theorem regionalField_eq (hkeys : ∀ key ∈ keys, PlainKey key) (hnul : (0 : UInt8) ∉ buf)
    (h : p + n ≤ buf.length) (cur : Bytes) :
    regionalField cap keys buf p n cur = some (fieldStep cap keys cur (span buf p n)) := by
  unfold regionalField fieldStep
  split
  · rfl
  · next hcur =>
    rw [firstMatch_eq hkeys h, Option.bind_eq_bind, Option.bind_some]
    cases hvalue : namedValue keys (span buf p n) with
    | none => exact congrArg some (Decidable.not_not.mp hcur)
    | some value =>
      obtain ⟨hdistance, hspan, hlen⟩ := value_place h hvalue
      dsimp only [Option.map_some]
      rw [hdistance, Option.bind_eq_bind, Option.bind_some, copyTrim_eq (by omega), hspan,
        trimValue_dropWhile, cString_of_nul]
      · rfl
      · intro hmem
        obtain ⟨name, -, hline, -⟩ := namedValue_iff.mp hvalue
        have hin : (0 : UInt8) ∈ span buf p n := by
          rw [hline]
          exact List.mem_append_right _
            (List.mem_cons_of_mem _ (trimValue_subset value (List.mem_of_mem_take hmem)))
        exact hnul (List.mem_of_mem_drop (List.mem_of_mem_take hin))

/-- What a line does to the result of `parse_regional`. -/
def infoStep (out : NtaWhoisInfo) (line : Bytes) : NtaWhoisInfo :=
  { out with
    org := fieldStep 256 orgKeys out.org line
    country := fieldStep 8 countryKeys out.country line
    netname := fieldStep 128 netnameKeys out.netname line }

theorem regionalKeys_plain :
    (∀ key ∈ orgKeys, PlainKey key) ∧ (∀ key ∈ countryKeys, PlainKey key) ∧
      (∀ key ∈ netnameKeys, PlainKey key) ∧ PlainKey (ascii "refer") := by
  unfold PlainKey
  decide +kernel

theorem regionalLine_eq (hnul : (0 : UInt8) ∉ buf) (h : p + n ≤ buf.length) (out : NtaWhoisInfo) :
    regionalLine buf p n out = some (infoStep out (span buf p n), false) := by
  obtain ⟨horg, hcountry, hnetname, -⟩ := regionalKeys_plain
  rw [regionalLine, regionalField_eq horg hnul h, regionalField_eq hcountry hnul h,
    regionalField_eq hnetname hnul h]
  rfl

/-- What a line does in `parse_refer`. -/
def referStep (outCap : Nat) (host : Option Bytes) (line : Bytes) : Option Bytes × Bool :=
  match (namedValue [ascii "refer"] line).map referValue with
  | some value => if value ≠ [] ∧ value.length < outCap then (some value, true) else (host, false)
  | none => (host, false)

theorem referLine_eq {outCap : Nat} (hnul : (0 : UInt8) ∉ buf) (h : p + n ≤ buf.length)
    (host : Option Bytes) :
    referLine outCap buf p n host = some (referStep outCap host (span buf p n)) := by
  rw [referLine, lineMatchKey_eq h, keyValue_eq regionalKeys_plain.2.2.2, Option.bind_eq_bind,
    Option.bind_some, referStep]
  cases hvalue : namedValue [ascii "refer"] (span buf p n) with
  | none => rfl
  | some value =>
    obtain ⟨hdistance, hspan, hlen⟩ := value_place h hvalue
    dsimp only [Option.map_some, referValue]
    have hback := List.rdropWhile_prefix isReferTrimmed (value.dropWhile isBlank)
    have hshort := hback.length_le
    have hcut := span_take buf (p + (n - (value.dropWhile isBlank).length))
      (value.dropWhile isBlank).length ((value.dropWhile isBlank).rdropWhile isReferTrimmed).length
    rw [hspan, ← List.prefix_iff_eq_take.mp hback, Nat.min_eq_left hshort] at hcut
    rw [hdistance, Option.bind_eq_bind, Option.bind_some, scanBack_eq (by omega), hspan,
      Option.bind_eq_bind, Option.bind_some, read_eq (by omega), ← hcut,
      Option.bind_some, cString_of_nul, apply_ite some]
    · exact if_congr (and_congr_left' List.length_pos_iff) rfl rfl
    · intro hmem
      obtain ⟨name, -, hline, -⟩ := namedValue_iff.mp hvalue
      have hin : (0 : UInt8) ∈ span buf p n := by
        rw [hline]
        exact List.mem_append_right _
          (List.mem_cons_of_mem _ (List.dropWhile_subset _ (hback.subset hmem)))
      exact hnul (List.mem_of_mem_drop (List.mem_of_mem_take hin))

end Field

/-! ## All lines -/

section Lines

variable {buf : Bytes} {keys : List Bytes} {cap : Nat}

theorem fieldStep_keeps {cur : Bytes} (hcur : cur ≠ []) (lines : List Bytes) :
    lines.foldl (fieldStep cap keys) cur = cur := by
  induction lines with
  | nil => rfl
  | cons line lines ih => rw [List.foldl_cons, fieldStep, if_pos hcur, ih]

/-- The first value that is not empty stays. -/
theorem fieldStep_first (hcap : 2 ≤ cap) (lines : List Bytes) :
    lines.foldl (fieldStep cap keys) [] =
      ((((lines.filterMap (namedValue keys)).map trimValue).find? (· ≠ [])).getD []).take
        (cap - 1) := by
  induction lines with
  | nil => simp
  | cons line lines ih =>
    rw [List.foldl_cons, fieldStep, if_neg (not_not_intro rfl), List.filterMap_cons]
    cases hvalue : namedValue keys line with
    | none => exact ih
    | some value =>
      rw [Option.map_some, Option.getD_some, List.map_cons, List.find?_cons]
      cases htrim : trimValue value with
      | nil =>
        rw [List.take_nil]
        exact ih
      | cons c cs =>
        refine fieldStep_keeps ?_ lines
        rw [show cap - 1 = (cap - 2) + 1 by omega]
        exact List.cons_ne_nil _ _

theorem infoStep_foldl (out : NtaWhoisInfo) (lines : List Bytes) :
    lines.foldl infoStep out =
      { out with
        org := lines.foldl (fieldStep 256 orgKeys) out.org
        country := lines.foldl (fieldStep 8 countryKeys) out.country
        netname := lines.foldl (fieldStep 128 netnameKeys) out.netname } := by
  induction lines generalizing out with
  | nil => rfl
  | cons line lines ih => exact ih (infoStep out line)

theorem namedValue_nil (keys : List Bytes) : namedValue keys [] = none := by
  rw [namedValue, splitFirst_absent List.not_mem_nil]

theorem fieldStep_nil (cap : Nat) (keys : List Bytes) (cur : Bytes) :
    fieldStep cap keys cur [] = cur := by
  rw [fieldStep, namedValue_nil]
  split
  · rfl
  · next hcur => exact (Decidable.not_not.mp hcur).symm

theorem infoStep_nil (out : NtaWhoisInfo) : infoStep out [] = out := by
  rw [infoStep, fieldStep_nil, fieldStep_nil, fieldStep_nil]

/-- The loop of `parse_regional`. -/
theorem regional_foldl (hnul : (0 : UInt8) ∉ buf) (out : NtaWhoisInfo) :
    forLines 10 buf (regionalLine buf) 0 buf.length out =
      some ((buf.splitOn 10).foldl infoStep out) := by
  have hloop := forLines_eq (e := 10) (g := fun out line => (infoStep out line, false))
    (fun _ _ out hin => regionalLine_eq hnul hin out)
    (fun out => by rw [infoStep_nil]) (Nat.le_of_eq (Nat.zero_add buf.length)) out
  rw [hloop, foldStop_eq_foldl, span_all]

/-- The loop of `parse_refer`. -/
theorem refer_fold (hnul : (0 : UInt8) ∉ buf) (outCap : Nat) :
    parseRefer outCap buf = some (foldStop (referStep outCap) none (buf.splitOn 10)) := by
  have hloop := forLines_eq (e := 10) (g := referStep outCap)
    (fun _ _ host hin => referLine_eq hnul hin host)
    (fun host => by rw [referStep, namedValue_nil]; rfl)
    (Nat.le_of_eq (Nat.zero_add buf.length)) none
  rw [parseRefer, hloop, span_all]

/-- `parse_regional` reads only the answer, and finds the first value of each field that is not
empty. -/
theorem parseRegional_lines (hnul : (0 : UInt8) ∉ buf) :
    ∃ info, parseRegional buf ⟨[], [], [], 0⟩ = some info ∧ info.org = whoisField 256 orgKeys buf ∧
      info.country = whoisField 8 countryKeys buf ∧
      info.netname = whoisField 128 netnameKeys buf ∧
      (info.hasData = 1 ↔ info.org ≠ [] ∨ info.country ≠ []) := by
  rw [parseRegional, regional_foldl hnul, infoStep_foldl, fieldStep_first (by decide),
    fieldStep_first (by decide), fieldStep_first (by decide), Option.bind_eq_bind, Option.bind_some]
  refine ⟨_, rfl, ?_⟩
  split
  · next hdata => exact ⟨rfl, rfl, rfl, fun _ => hdata, fun _ => rfl⟩
  · next hdata => exact ⟨rfl, rfl, rfl, nofun, fun hsome => absurd hsome hdata⟩

/-- `parse_refer` reads only the answer, and finds the first host that is not empty and fits. -/
theorem parseRefer_lines (hnul : (0 : UInt8) ∉ buf) (outCap : Nat) :
    parseRefer outCap buf = some (whoisRefer outCap buf) := by
  rw [refer_fold hnul, whoisRefer]
  induction buf.splitOn 10 with
  | nil => rfl
  | cons line lines ih =>
    rw [foldStop, referStep, List.filterMap_cons]
    cases hvalue : namedValue [ascii "refer"] line with
    | none => exact ih
    | some value =>
      dsimp only [Option.map_some]
      rw [List.map_cons, List.find?_cons]
      split
      · next hfits => simp [hfits]
      · next hfits =>
        rw [decide_eq_false hfits]
        exact ih

/-! ## CRLF -/

theorem crlf_cons (c : UInt8) (buf : Bytes) :
    crlf (c :: buf) = if c = 10 then 13 :: 10 :: crlf buf else c :: crlf buf := by
  rw [crlf, List.flatMap_cons, crlf]
  split <;> rfl

/-- Each line keeps its text, with or without a CR behind it. -/
theorem crlf_lines (buf : Bytes) :
    List.Forall₂ (fun l m => m = l ∨ m = l ++ [13]) (buf.splitOn 10) ((crlf buf).splitOn 10) := by
  induction buf with
  | nil => exact .cons (.inl rfl) .nil
  | cons c buf ih =>
    rw [crlf_cons]
    split
    · next hc =>
      subst hc
      have hline : ([13] ++ 10 :: crlf buf).splitOn 10 = [13] :: (crlf buf).splitOn 10 :=
        List.splitOn_append_cons_self_of_not_mem (by decide) (crlf buf)
      rw [List.splitOn_cons_eq_if_modifyHead, if_pos (beq_self_eq_true _)]
      exact hline ▸ .cons (.inr rfl) ih
    · next hc =>
      have hne : ¬ (c == 10) = true := fun he => hc (beq_iff_eq.mp he)
      rw [List.splitOn_cons_eq_if_modifyHead, List.splitOn_cons_eq_if_modifyHead, if_neg hne,
        if_neg hne]
      generalize buf.splitOn 10 = ls at ih ⊢
      generalize (crlf buf).splitOn 10 = ms at ih ⊢
      cases ih with
      | nil => exact .nil
      | cons hhead htail => exact .cons (hhead.imp (congrArg _) (congrArg _)) htail

theorem namedValue_cr (keys : List Bytes) (line : Bytes) :
    namedValue keys (line ++ [13]) = (namedValue keys line).map (· ++ [13]) := by
  rcases splitFirst_cases 58 line with ⟨hnone, hsplit⟩ | ⟨name, value, hname, rfl, hsplit⟩
  · have hnone' : (58 : UInt8) ∉ line ++ [13] := fun hmem =>
      (List.mem_append.mp hmem).elim hnone (by decide)
    rw [namedValue, namedValue, hsplit, splitFirst_absent hnone']
    rfl
  · rw [namedValue, namedValue, hsplit, List.append_assoc, List.cons_append,
      splitFirst_append hname]
    dsimp only
    split <;> rfl

/-- A CR at the end of a value is trimmed. -/
theorem trim_cr {q : UInt8 → Bool} (hq : q 13 = true) (value : Bytes) :
    ((value ++ [13]).dropWhile isBlank).rdropWhile q = (value.dropWhile isBlank).rdropWhile q := by
  rw [List.dropWhile_append]
  split
  · next hblank =>
    rw [List.isEmpty_iff.mp hblank]
    exact (List.rdropWhile_singleton q 13).trans (if_pos hq)
  · exact List.rdropWhile_concat_pos q _ 13 hq

theorem fieldStep_cr (cap : Nat) (keys : List Bytes) (cur line : Bytes) :
    fieldStep cap keys cur (line ++ [13]) = fieldStep cap keys cur line := by
  rw [fieldStep, fieldStep, namedValue_cr, Option.map_map]
  have htrim : (fun value => (trimValue value).take (cap - 1)) ∘ (· ++ [13]) =
      fun value => (trimValue value).take (cap - 1) :=
    funext fun value => congrArg (List.take (cap - 1)) (trim_cr (by decide) value)
  rw [htrim]

theorem referStep_cr (outCap : Nat) (host : Option Bytes) (line : Bytes) :
    referStep outCap host (line ++ [13]) = referStep outCap host line := by
  have htrim : referValue ∘ (· ++ [13]) = referValue :=
    funext fun value => trim_cr (by decide) value
  rw [referStep, referStep, namedValue_cr, Option.map_map, htrim]

theorem crlf_nul (hnul : (0 : UInt8) ∉ buf) : (0 : UInt8) ∉ crlf buf := by
  intro hmem
  obtain ⟨c, hc, hin⟩ := List.mem_flatMap.mp hmem
  split at hin
  · exact absurd hin (by decide)
  · exact hnul (List.mem_singleton.mp hin ▸ hc)

/-- A fold over the lines that does not see a CR at the end of a line. -/
theorem crlf_fold {σ : Type} {g : σ → Bytes → σ × Bool}
    (hg : ∀ s line, g s (line ++ [13]) = g s line) (s : σ) (buf : Bytes) :
    foldStop g s ((crlf buf).splitOn 10) = foldStop g s (buf.splitOn 10) := by
  refine foldStop_congr ((crlf_lines buf).imp fun line line' hline s => ?_) s
  rcases hline with rfl | rfl
  · rfl
  · exact hg s line

theorem parseRegional_crlf (hnul : (0 : UInt8) ∉ buf) (out : NtaWhoisInfo) :
    parseRegional (crlf buf) out = parseRegional buf out := by
  have hfold := crlf_fold (g := fun out line => (infoStep out line, false))
    (fun out line => by simp only [infoStep, fieldStep_cr]) out buf
  rw [foldStop_eq_foldl, foldStop_eq_foldl] at hfold
  rw [parseRegional, regional_foldl (crlf_nul hnul), hfold, parseRegional, regional_foldl hnul]

theorem parseRefer_crlf (hnul : (0 : UInt8) ∉ buf) (outCap : Nat) :
    parseRefer outCap (crlf buf) = parseRefer outCap buf := by
  rw [refer_fold (crlf_nul hnul), refer_fold hnul, crlf_fold (referStep_cr outCap)]

end Lines

/-- Both parsers stay within the answer, `parse_regional` finds the first value of each field
that is not empty, and neither sees a difference between LF and CRLF. -/
theorem whois_linewise (buf : CStr) :
    (∃ info, parseRegional buf.1 ⟨[], [], [], 0⟩ = some info ∧
      info.org = whoisField 256 orgKeys buf.1 ∧ info.country = whoisField 8 countryKeys buf.1 ∧
      info.netname = whoisField 128 netnameKeys buf.1 ∧
      (info.hasData = 1 ↔ info.org ≠ [] ∨ info.country ≠ [])) ∧
      parseRegional (crlf buf.1) ⟨[], [], [], 0⟩ = parseRegional buf.1 ⟨[], [], [], 0⟩ ∧
      ∀ outCap, parseRefer outCap buf.1 = some (whoisRefer outCap buf.1) ∧
        parseRefer outCap (crlf buf.1) = parseRefer outCap buf.1 :=
  ⟨parseRegional_lines buf.2, parseRegional_crlf buf.2 _, fun outCap =>
    ⟨parseRefer_lines buf.2 outCap, parseRefer_crlf buf.2 outCap⟩⟩

end TrafficAnalyzer
