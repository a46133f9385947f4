import TrafficAnalyzer.Lib.ReadDecimal
import TrafficAnalyzer.Server.Influx

/-!
# Writing the metrics (`nta_influx_write_metrics` in `src/server/nta_influx.c`)

Every numeric member of a JSON object becomes a field, printed with `%.6g`.

* `writeMetrics_posts`: a line that fits is posted with all fields.
* `metrics_exact_iff`: the fields are the counters of the object exactly when these have at
  most six significant digits.
-/

namespace TrafficAnalyzer

open LineProtocol Printf

/-! ## The writer -/

/-- The loop over the members with `fieldCount` fields written: it ends where a field does not
fit. -/
def metricsLoop : List (Bytes × Json) → Nat → Bytes → Nat × Bytes
  | [], fieldCount, lp => (fieldCount, lp)
  | (name, .number x) :: members, fieldCount, lp =>
    let field := (if fieldCount = 0 then [] else ascii ",") ++ lpEscape maxTagLen name ++
      ascii "=" ++ formatG 6 x
    match snprintfAt lpBufSize field lp with
    | some lp => metricsLoop members (fieldCount + 1) lp
    | none => (fieldCount, lp)
  | _ :: members, fieldCount, lp => metricsLoop members fieldCount lp

/-- The text before the fields. -/
def metricsHead (agentId : Option CStr) : Bytes :=
  ascii "pipeline_metrics,agent_id=" ++
    lpEscape maxTagLen ((agentId.map (·.1)).getD (ascii "unknown")) ++ ascii " "

/-- `nta_influx_write_metrics`: the value it returns and the body it posts. -/
def ntaInfluxWriteMetrics (ready : Bool) (parseJson : Bytes → Option Json) (post : Bytes → Int)
    (body : Option Bytes) (agentId : Option CStr) : Int × Option Bytes :=
  match body with
  | none => (-1, none)
  | some b =>
    if ready = false ∨ b.length = 0 then (-1, none)
    else
      match parseJson b with
      | some (.object members) =>
        match snprintfAt lpBufSize (metricsHead agentId) [] with
        | none => (-1, none)
        | some lp =>
          let (fieldCount, lp) := metricsLoop members 0 lp
          if fieldCount = 0 then (0, none)
          else
            match snprintfAt lpBufSize (ascii "\n") lp with
            | none => (-1, none)
            | some lp => (post lp, some lp)
      | _ => (-1, none)

/-! ## The line -/

/-- The numeric members. -/
def counters (members : List (Bytes × Json)) : List (Bytes × Binary64) :=
  members.filterMap fun m =>
    match m.2 with
    | .number x => some (m.1, x)
    | _ => none

/-- The field of a member: its name as far as `lp_escape` reads it, and its text. -/
def metricsField (c : Bytes × Binary64) : Bytes × Bytes :=
  (lpTaken maxTagLen c.1, formatG 6 c.2)

def metricsPoint (members : List (Bytes × Json)) (agentId : Option CStr) : Point where
  measurement := ascii "pipeline_metrics"
  tags := [(ascii "agent_id", lpTaken maxTagLen ((agentId.map (·.1)).getD (ascii "unknown")))]
  fields := (counters members).map metricsField
  timestamp := none

/-- The texts of fields of which `fieldCount` stand before. -/
def fieldsText : Nat → List (Bytes × Binary64) → Bytes
  | _, [] => []
  | fieldCount, c :: cs =>
    (if fieldCount = 0 then [] else ascii ",") ++ lpEscape maxTagLen c.1 ++ ascii "=" ++
      formatG 6 c.2 ++ fieldsText (fieldCount + 1) cs

theorem snprintfAt_some {piece lp : Bytes} (hne : piece ≠ [])
    (hfits : (lp ++ piece).length < lpBufSize) : snprintfAt lpBufSize piece lp = some (lp ++ piece) := by
  have hpos := List.length_pos_iff.mpr hne
  rw [List.length_append] at hfits
  rw [snprintfAt, if_neg (by omega)]

/-- When all fields fit the loop writes them all. -/
theorem metricsLoop_eq {members : List (Bytes × Json)} {fieldCount : Nat} {lp : Bytes}
    (hfits : (lp ++ fieldsText fieldCount (counters members)).length < lpBufSize) :
    metricsLoop members fieldCount lp =
      (fieldCount + (counters members).length, lp ++ fieldsText fieldCount (counters members)) := by
  induction members generalizing fieldCount lp with
  | nil => simp [metricsLoop, counters, fieldsText]
  | cons m members ih =>
    obtain ⟨name, v⟩ := m
    cases v with
    | number x =>
      have hc : counters ((name, .number x) :: members) = (name, x) :: counters members := rfl
      rw [hc, fieldsText, ← List.append_assoc] at hfits
      rw [hc, fieldsText, ← List.append_assoc, metricsLoop]
      dsimp only at hfits ⊢
      rw [snprintfAt_some (by simp [ascii]) (by rw [List.length_append] at hfits; omega)]
      dsimp only
      rw [ih hfits, List.length_cons, Nat.add_assoc, Nat.add_comm 1]
    | null | bool | string | array | object => exact ih hfits

theorem escape_lpTaken (s : Bytes) : escape (lpTaken maxTagLen s) = lpEscape maxTagLen s :=
  (lpEscape_eq maxTagLen s).symm

theorem fieldsText_succ (k : Nat) (cs : List (Bytes × Binary64)) :
    fieldsText (k + 1) cs =
      ((cs.map metricsField).flatMap (pairTokens comma)).flatMap fun t => t.1 :: escape t.2 := by
  induction cs generalizing k with
  | nil => rfl
  | cons c cs ih =>
    rw [fieldsText, ih (k + 1), List.map_cons, List.flatMap_cons, List.flatMap_append]
    simp only [pairTokens, metricsField, List.flatMap_cons, List.flatMap_nil, escape_lpTaken,
      escape_of_plain (formatG_plain 6 c.2), Nat.add_one_ne_zero, if_false]
    simp [ascii, comma, equals]

/-- The line before its newline. -/
theorem render_metricsPoint {members : List (Bytes × Json)} (hsome : counters members ≠ [])
    (agentId : Option CStr) :
    render (metricsPoint members agentId) =
      metricsHead agentId ++ fieldsText 0 (counters members) ++ ascii "\n" := by
  obtain ⟨c, cs, hc⟩ := List.exists_cons_of_ne_nil hsome
  have hname : escape (ascii "pipeline_metrics") = ascii "pipeline_metrics" := by decide
  have hkey : escape (ascii "agent_id") = ascii "agent_id" := by decide
  have hfields : (metricsPoint members agentId).fields = metricsField c :: cs.map metricsField := by
    rw [metricsPoint, hc, List.map_cons]
  rw [render, unlex, Point.tokens_eq_cons hfields, hc, fieldsText, fieldsText_succ]
  simp only [metricsPoint, metricsField, pairTokens, List.flatMap_append, List.flatMap_cons,
    List.flatMap_nil, Option.toList_none, List.map_nil, List.append_nil, hname, hkey,
    escape_lpTaken, escape_of_plain (formatG_plain 6 c.2), if_true, metricsHead]
  simp [ascii, comma, equals, space, newline]

theorem lpEscapeLoop_length {cap w : Nat} (hw : w < cap) (s : Bytes) :
    w + (lpEscapeLoop cap w s).length < cap := by
  induction s generalizing w with
  | nil => exact hw
  | cons c cs ih =>
    rw [lpEscapeLoop]
    split
    · next h =>
      split
      · rw [if_neg (by omega), List.length_cons, List.length_cons]
        have := ih (w := w + 2) (by omega)
        omega
      · rw [List.length_cons]
        have := ih (w := w + 1) (by omega)
        omega
    · exact hw

/-- The text before the fields always fits. -/
theorem metricsHead_length (agentId : Option CStr) :
    (metricsHead agentId).length < lpBufSize := by
  have hagent := lpEscapeLoop_length (by decide : 0 < maxTagLen)
    ((agentId.map (·.1)).getD (ascii "unknown"))
  rw [Nat.zero_add, ← lpEscape] at hagent
  have hcap : maxTagLen + 27 < lpBufSize := by decide
  have hname : (ascii "pipeline_metrics,agent_id=").length = 26 := by decide
  have hspace : (ascii " ").length = 1 := by decide
  rw [metricsHead, List.length_append, List.length_append, hname, hspace]
  omega

section Call

variable {ready : Bool} {parseJson : Bytes → Option Json} {post : Bytes → Int} {b : Bytes}
  {agentId : Option CStr} {members : List (Bytes × Json)}

/-- A line that fits is posted with all its fields; without a number nothing is posted. -/
theorem writeMetrics_posts (hready : ready = true) (hbody : b.length ≠ 0)
    (hroot : parseJson b = some (.object members))
    (hfits : (render (metricsPoint members agentId)).length < lpBufSize) :
    ntaInfluxWriteMetrics ready parseJson post (some b) agentId =
      if counters members = [] then (0, none)
      else (post (render (metricsPoint members agentId)),
        some (render (metricsPoint members agentId))) := by
  have hcall : ¬ (ready = false ∨ b.length = 0) := by simp [hready, hbody]
  have hhead : snprintfAt lpBufSize (metricsHead agentId) [] = some (metricsHead agentId) :=
    snprintfAt_some (by simp [metricsHead, ascii]) (metricsHead_length agentId)
  unfold ntaInfluxWriteMetrics
  dsimp only
  rw [if_neg hcall, hroot]
  dsimp only
  rw [hhead]
  dsimp only
  by_cases hnone : counters members = []
  · have hloop := @metricsLoop_eq members 0 (metricsHead agentId)
      (by rw [hnone, fieldsText, List.append_nil]; exact metricsHead_length agentId)
    rw [hloop, hnone]
    rfl
  · rw [render_metricsPoint hnone] at hfits ⊢
    have hloop := @metricsLoop_eq members 0 (metricsHead agentId)
      (by rw [List.length_append] at hfits; exact Nat.lt_of_le_of_lt (Nat.le_add_right _ _) hfits)
    have hcount : (counters members).length ≠ 0 := List.length_eq_zero_iff.not.mpr hnone
    rw [hloop, if_neg hnone]
    dsimp only
    rw [Nat.zero_add, if_neg hcount, snprintfAt_some (by simp [ascii]) hfits]

/-- A line that fits carries the counters of the object exactly when each of them has at most
six significant digits. -/
theorem metrics_exact_iff (hready : ready = true) (hbody : b.length ≠ 0)
    (hroot : parseJson b = some (.object members))
    (hcounters : ∀ c ∈ counters members, ∃ n : ℕ, c.2.value = some (n : ℚ))
    (hfits : (render (metricsPoint members agentId)).length < lpBufSize) :
    (ntaInfluxWriteMetrics ready parseJson post (some b) agentId =
      if counters members = [] then (0, none)
      else (post (render (metricsPoint members agentId)),
        some (render (metricsPoint members agentId)))) ∧
    ((∀ c ∈ counters members, readDecimal (metricsField c).2 = c.2.value) ↔
      ∀ c ∈ counters members, ∀ n : ℕ, c.2.value = some (n : ℚ) → FewDigits 6 n) := by
  refine ⟨writeMetrics_posts hready hbody hroot hfits, ?_⟩
  refine forall₂_congr fun c hc => ?_
  obtain ⟨n, hn⟩ := hcounters c hc
  rw [metricsField, readDecimal_formatG_iff (by decide) hn]
  constructor
  · intro hfew m hm
    have hmn : (m : ℚ) = n := Option.some.inj (hm.symm.trans hn)
    rwa [Nat.cast_injective hmn]
  · exact fun h => h n hn

end Call

/-! ## A counter of seven digits -/

/-- The payload with the one counter `n`, written as `digits`. -/
def counterText (digits : String) : Bytes :=
  ascii "\x7b\"events_sent\":" ++ ascii digits ++ ascii "\x7d"

def counterMembers (n : Nat) : List (Bytes × Json) :=
  [(ascii "events_sent", .number (.ofNat n))]

def parseCounter (digits : String) (n : Nat) (s : Bytes) : Option Json :=
  if s = counterText digits then some (.object (counterMembers n)) else none

/-- A line of the agent `agent-1` with the one field. -/
def counterLine (value : String) : Bytes :=
  ascii "pipeline_metrics,agent_id=" ++ ascii "agent-1" ++ ascii " " ++
    (ascii "events_sent" ++ ascii "=" ++ ascii value) ++ ascii "\n"

theorem counterLine_eq {n : Nat} {value : String} (h : formatG 6 (.ofNat n) = ascii value) :
    render (metricsPoint (counterMembers n) (some agent1)) = counterLine value := by
  have hagent : lpEscape maxTagLen (ascii "agent-1") = ascii "agent-1" := by decide
  have hname : lpEscape maxTagLen (ascii "events_sent") = ascii "events_sent" := by decide
  have hcounters : counters (counterMembers n) = [(ascii "events_sent", .ofNat n)] := rfl
  rw [render_metricsPoint (by rw [hcounters]; exact List.cons_ne_nil _ _), hcounters, metricsHead,
    agent1, Option.map_some, Option.getD_some, hagent, fieldsText, fieldsText, hname, h,
    if_pos rfl, List.nil_append, List.append_nil, counterLine]

/-- A counter with a short text is posted. -/
theorem counter_posted {n : Nat} {digits value : String} (h : formatG 6 (.ofNat n) = ascii value)
    (hlen : value.length < 100) :
    (render (metricsPoint (counterMembers n) (some agent1))).length < lpBufSize ∧
    ntaInfluxWriteMetrics true (parseCounter digits n) (fun _ => 0) (some (counterText digits))
      (some agent1) = (0, some (counterLine value)) := by
  have hfits : (render (metricsPoint (counterMembers n) (some agent1))).length < lpBufSize := by
    have hascii : ∀ s : String, (ascii s).length = s.length := fun s => by
      rw [ascii, List.length_map, String.length_toList]
    rw [counterLine_eq h, counterLine]
    simp only [List.length_append, hascii, lpBufSize]
    have hhead : "pipeline_metrics,agent_id=".length = 26 := by decide
    have hagent : "agent-1".length = 7 := by decide
    have hname : "events_sent".length = 11 := by decide
    have hsigns : " ".length = 1 ∧ "=".length = 1 ∧ "\n".length = 1 := by decide
    omega
  refine ⟨hfits, ?_⟩
  rw [writeMetrics_posts rfl (by simp [counterText, ascii]) (if_pos rfl) hfits, counterLine_eq h]
  rfl

theorem metrics_exact_iff_small :
    ntaInfluxWriteMetrics true (parseCounter "123456" 123456) (fun _ => 0)
        (some (counterText "123456")) (some agent1) = (0, some (counterLine "123456")) ∧
    ∀ c ∈ counters (counterMembers 123456), readDecimal (metricsField c).2 = c.2.value := by
  have hformat : formatG 6 (.ofNat 123456) = ascii "123456" := by decide +kernel
  obtain ⟨hfits, hcall⟩ := @counter_posted _ "123456" _ hformat (by decide)
  have hvalue : (Binary64.ofNat 123456).value = some ((123456 : ℕ) : ℚ) :=
    Binary64.value_ofNat (by decide)
  have hcounters : ∀ c ∈ counters (counterMembers 123456),
      ∃ n : ℕ, c.2.value = some (n : ℚ) := by
    rintro c hc
    obtain rfl := List.mem_singleton.mp hc
    exact ⟨123456, hvalue⟩
  have hiff := (@metrics_exact_iff true (parseCounter "123456" 123456) (fun _ => 0)
    (counterText "123456") (some agent1) (counterMembers 123456) rfl
    (by simp [counterText, ascii]) (if_pos rfl) hcounters hfits).2
  refine ⟨hcall, hiff.mpr fun c hc n hn => ?_⟩
  obtain rfl := List.mem_singleton.mp hc
  obtain rfl : n = 123456 := Nat.cast_injective (Option.some.inj (hn.symm.trans hvalue))
  exact ⟨123456, 0, by decide, rfl⟩

/-- The counter 1234567 is stored as 1234570. -/
theorem counter_rounded :
    ntaInfluxWriteMetrics true (parseCounter "1234567" 1234567) (fun _ => 0)
        (some (counterText "1234567")) (some agent1) = (0, some (counterLine "1.23457e+06")) ∧
    (render (metricsPoint (counterMembers 1234567) (some agent1))).length < lpBufSize ∧
    (metricsPoint (counterMembers 1234567) (some agent1)).fields =
      [(ascii "events_sent", ascii "1.23457e+06")] ∧
    (Binary64.ofNat 1234567).value = some 1234567 ∧
    readDecimal (ascii "1.23457e+06") = some 1234570 ∧
    ¬ ∀ c ∈ counters (counterMembers 1234567), readDecimal (metricsField c).2 = c.2.value := by
  have hformat : formatG 6 (.ofNat 1234567) = ascii "1.23457e+06" := by decide +kernel
  have hread : readDecimal (ascii "1.23457e+06") = some 1234570 := by decide +kernel
  have hvalue : (Binary64.ofNat 1234567).value = some 1234567 :=
    Binary64.value_ofNat (n := 1234567) (by decide)
  have hfield : metricsField (ascii "events_sent", .ofNat 1234567) =
      (ascii "events_sent", ascii "1.23457e+06") := by
    have hname : lpTaken maxTagLen (ascii "events_sent") = ascii "events_sent" := by decide
    rw [metricsField, hformat, hname]
  obtain ⟨hfits, hcall⟩ := @counter_posted _ "1234567" _ hformat (by decide)
  refine ⟨hcall, hfits, congrArg (fun f => [f]) hfield, hvalue, hread, fun hall => ?_⟩
  have h := hall (ascii "events_sent", .ofNat 1234567) (.head _)
  rw [hfield, hread, hvalue, Option.some.injEq] at h
  exact absurd h (by decide)

end TrafficAnalyzer
