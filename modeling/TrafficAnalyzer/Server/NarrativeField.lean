import TrafficAnalyzer.Lib.StringField
import TrafficAnalyzer.Server.TrafficPoint

/-!
# Writing a narrative (`nta_influx_write_narrative` in `src/server/nta_influx.c`)

The narrative is the text of a language model and goes into a string field. Allocations
succeed.

* `lpEscapeStrField_eq`: in the buffer that the caller allocates the whole text is escaped.
* `narrative_enclosed`: what is written cannot end the field, and is decoded to the narrative
  with its line feeds as `\n` and without its carriage returns.
* `narrative_posted`: the field of a posted line is read back, whatever stands after it.
-/

namespace TrafficAnalyzer

open LineProtocol Printf

/-! ## The writer -/

/-- The loop of `lp_escape_str_field` with `w` bytes written: what it writes from there. -/
def lpEscapeStrFieldLoop (cap : Nat) : Nat → Bytes → Bytes
  | _, [] => []
  | w, c :: cs =>
    if c ≠ 0 ∧ w + 2 < cap then
      if c = 92 ∨ c = 34 then
        if w + 1 + 1 ≥ cap then [92]
        else 92 :: c :: lpEscapeStrFieldLoop cap (w + 2) cs
      else if c = 10 then
        if w + 1 + 1 ≥ cap then [92]
        else 92 :: 110 :: lpEscapeStrFieldLoop cap (w + 2) cs
      else if c = 13 then lpEscapeStrFieldLoop cap w cs
      else c :: lpEscapeStrFieldLoop cap (w + 1) cs
    else []

def lpEscapeStrField (cap : Nat) (s : Bytes) : Bytes := lpEscapeStrFieldLoop cap 0 s

/-- The buffer for the escaped narrative. -/
def narrCap (narrative : Bytes) : Nat := narrative.length * 2 + 16

/-- `snprintf` with `"%s"` into a buffer of `MAX_TAG_LEN` bytes. -/
def tagCopy (s : Bytes) : Bytes := (cString s).take (maxTagLen - 1)

/-- The measurement and the tags of the line. -/
def narrativeTags (root : Option Json) (agentId backend : Option CStr) : Bytes :=
  let str (key fallback : String) : Bytes :=
    tagCopy ((root.bind fun r => jsonGetStr r (ascii key)).getD (ascii fallback))
  let named (id : Option CStr) : Bytes := (id.map (·.1)).getD (ascii "unknown")
  let esc := lpEscape maxTagLen
  ascii "incident_narrative,agent_id=" ++ esc (named agentId) ++
    ascii ",src_ip=" ++ esc (str "src_ip" "0.0.0.0") ++
    ascii ",attack_type=" ++ esc (str "attack_type" "UNKNOWN") ++
    ascii ",kill_chain_stage=" ++ esc (str "kill_chain_stage" "UNKNOWN") ++
    ascii ",backend=" ++ esc (named backend)

/-- What follows the narrative. -/
def narrativeRest (root : Option Json) : Bytes :=
  ascii ",kc_score=" ++
    formatG 6 ((root.bind fun r => jsonGetNum r (ascii "kc_score")).getD .zero) ++ ascii "\n"

/-- The line that the call of `snprintf` formats. -/
def narrativeLine (root : Option Json) (narrative : CStr) (agentId backend : Option CStr) : Bytes :=
  narrativeTags root agentId backend ++ ascii " narrative=\"" ++
    lpEscapeStrField (narrCap narrative.1) narrative.1 ++ ascii "\"" ++ narrativeRest root

/-- `nta_influx_write_narrative`: the value it returns and the body it posts. -/
def ntaInfluxWriteNarrative (ready : Bool) (parseJson : Bytes → Option Json) (post : Bytes → Int)
    (eventJson : Option Bytes) (narrative agentId backend : Option CStr) : Int × Option Bytes :=
  match narrative with
  | none => (-1, none)
  | some narrative =>
    if ready = false ∨ narrative.1 = [] then (-1, none)
    else
      let root := (eventJson.filter fun b => 0 < b.length).bind parseJson
      let line := narrativeLine root narrative agentId backend
      if line.length = 0 ∨ line.length ≥ narrCap narrative.1 + 1024 then (-1, none)
      else (post line, some line)

/-! ## The escape -/

/-- What is written for a byte. -/
def strFieldByte (c : UInt8) : Bytes :=
  if c = 92 ∨ c = 34 then [92, c] else if c = 10 then [92, 110] else if c = 13 then [] else [c]

/-- The tokens of what is written for a byte. -/
def strFieldTokens (c : UInt8) : List StringToken :=
  if c = 92 ∨ c = 34 then [.escaped c]
  else if c = 10 then [.literal 92, .literal 110]
  else if c = 13 then [] else [.literal c]

/-- A text without its carriage returns and with `\n` for its line feeds. -/
def oneLine (s : Bytes) : Bytes :=
  s.flatMap fun c => if c = 13 then [] else if c = 10 then ascii "\\n" else [c]

theorem lpEscapeStrFieldLoop_eq {cap w : Nat} {s : Bytes} (hs : (0 : UInt8) ∉ s)
    (hcap : w + 2 * s.length + 2 < cap) :
    lpEscapeStrFieldLoop cap w s = s.flatMap strFieldByte := by
  induction s generalizing w with
  | nil => rfl
  | cons c cs ih =>
    rw [List.length_cons] at hcap
    rw [List.mem_cons, not_or] at hs
    obtain ⟨h0, hcs⟩ := hs
    rw [lpEscapeStrFieldLoop, if_pos ⟨Ne.symm h0, by omega⟩, List.flatMap_cons, strFieldByte,
      if_neg (by omega : ¬ w + 1 + 1 ≥ cap), if_neg (by omega : ¬ w + 1 + 1 ≥ cap),
      ih hcs (by omega), ih hcs (by omega), ih hcs (by omega)]
    split
    · rfl
    · split
      · rfl
      · split <;> rfl

/-- In the buffer of the caller no byte is left out. -/
theorem lpEscapeStrField_eq (s : CStr) :
    lpEscapeStrField (narrCap s.1) s.1 = s.1.flatMap strFieldByte :=
  lpEscapeStrFieldLoop_eq s.2 (by unfold narrCap; omega)

theorem stringTokens_strField (s : Bytes) :
    stringTokens (s.flatMap strFieldByte) = s.flatMap strFieldTokens := by
  induction s with
  | nil => rfl
  | cons c cs ih =>
    rw [List.flatMap_cons, List.flatMap_cons, ← ih, strFieldByte, strFieldTokens]
    split
    · next hc => exact stringTokens_escaped (decide_eq_true hc) _
    · next hc =>
      split
      · exact (stringTokens_backslash rfl _).trans
          (congrArg _ (stringTokens_plain (by decide) _))
      · split
        · rfl
        · exact stringTokens_plain (fun h => hc (.inl h)) _

/-- No byte leaves a bare quote. -/
theorem quote_strFieldTokens (c : UInt8) : .literal quote ∉ strFieldTokens c := by
  unfold strFieldTokens
  split
  · simp
  · next hc =>
    split
    · decide
    · split
      · simp
      · rw [List.mem_singleton, StringToken.literal.injEq]
        exact fun he => hc (.inr he.symm)

/-- No byte leaves an open backslash at the end. -/
theorem getLast_strFieldTokens (c : UInt8) :
    (strFieldTokens c).getLast? ≠ some (.literal backslash) := by
  unfold strFieldTokens
  split
  · simp
  · next hc =>
    split
    · decide
    · split
      · simp
      · rw [List.getLast?_singleton, ne_eq, Option.some.injEq, StringToken.literal.injEq]
        exact fun he => hc (.inl he)

theorem enclosed_strField (s : Bytes) : Enclosed (s.flatMap strFieldByte) where
  quotes := by
    rw [stringTokens_strField, List.mem_flatMap]
    rintro ⟨c, -, hc⟩
    exact quote_strFieldTokens c hc
  last := by
    rw [stringTokens_strField]
    induction s using List.reverseRecOn with
    | nil => simp
    | append_singleton s c ih =>
      rw [List.flatMap_append, List.flatMap_singleton, List.getLast?_append]
      have hc := getLast_strFieldTokens c
      cases hlast : (strFieldTokens c).getLast? with
      | none => exact ih
      | some t => exact fun he => hc (hlast.trans he)

theorem newline_strField (s : Bytes) : newline ∉ s.flatMap strFieldByte := by
  rw [List.mem_flatMap]
  rintro ⟨c, -, hc⟩
  unfold strFieldByte at hc
  split at hc
  · next h => rcases h with rfl | rfl <;> exact absurd hc (by decide)
  · split at hc
    · exact absurd hc (by decide)
    · next hn =>
      split at hc
      · cases hc
      · exact hn (List.mem_singleton.mp hc).symm

theorem value_strFieldTokens (c : UInt8) :
    (strFieldTokens c).map StringToken.value =
      if c = 13 then [] else if c = 10 then ascii "\\n" else [c] := by
  unfold strFieldTokens
  split
  · next hc => rcases hc with rfl | rfl <;> rfl
  · split
    · next hc => rw [hc]; rfl
    · split <;> rfl

theorem decodeString_strField (s : Bytes) : decodeString (s.flatMap strFieldByte) = oneLine s := by
  rw [decodeString, stringTokens_strField, List.map_flatMap, oneLine]
  exact List.flatMap_congr fun c _ => value_strFieldTokens c

/-- For every narrative, what is written is the escape of the whole text. It has no newline,
no quote that would end the field and no backslash that would take the closing quote, and it
decodes to the narrative on one line. -/
theorem narrative_enclosed (narrative : CStr) :
    lpEscapeStrField (narrCap narrative.1) narrative.1 = narrative.1.flatMap strFieldByte ∧
      newline ∉ lpEscapeStrField (narrCap narrative.1) narrative.1 ∧
      .literal quote ∉ stringTokens (lpEscapeStrField (narrCap narrative.1) narrative.1) ∧
      (stringTokens (lpEscapeStrField (narrCap narrative.1) narrative.1)).getLast? ≠
        some (.literal backslash) ∧
      decodeString (lpEscapeStrField (narrCap narrative.1) narrative.1) = oneLine narrative.1 := by
  rw [lpEscapeStrField_eq]
  exact ⟨rfl, newline_strField _, (enclosed_strField _).quotes, (enclosed_strField _).last,
    decodeString_strField _⟩

theorem narrativeLine_eq (root : Option Json) (text : CStr) (agentId backend : Option CStr) :
    narrativeLine root text agentId backend =
      narrativeTags root agentId backend ++ ascii " narrative=\"" ++
        (text.1.flatMap strFieldByte ++ quote :: narrativeRest root) := by
  rw [narrativeLine, lpEscapeStrField_eq]
  simp only [List.append_assoc]
  rfl

/-- In a posted line the field is read back, and the rest of the line stands after it. -/
theorem narrative_posted {ready : Bool} {parseJson : Bytes → Option Json} {post : Bytes → Int}
    {eventJson : Option Bytes} {narrative agentId backend : Option CStr} {line : Bytes}
    (h : (ntaInfluxWriteNarrative ready parseJson post eventJson narrative agentId backend).2 =
      some line) :
    ∃ text root field, narrative = some text ∧
      line = narrativeTags root agentId backend ++ ascii " narrative=\"" ++ field ∧
      readString field = some (oneLine text.1, narrativeRest root) := by
  cases narrative with
  | none => cases h
  | some text =>
    unfold ntaInfluxWriteNarrative at h
    dsimp only at h
    split at h
    · cases h
    · split at h
      · cases h
      · obtain rfl := Option.some.inj h
        refine ⟨text, _, _, rfl, narrativeLine_eq _ text agentId backend, ?_⟩
        rw [readString_enclosed (enclosed_strField _), decodeString_strField]

end TrafficAnalyzer
