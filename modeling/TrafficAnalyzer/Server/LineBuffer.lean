import TrafficAnalyzer.Lib.PrintBuffer
import TrafficAnalyzer.Server.Influx

/-!
# The buffer of a batch

`nta_influx_write_traffic` lets `build_traffic_point` print every line into the rest of one
array on the stack, and posts as much of the array as the calls have answered for. Here the
array is memory: a call that gives up leaves what it has printed.

* `buildTrafficPointAt_spec`: a call writes its line behind the lines before it, or answers 0,
  and never touches these.
* `writeTrafficBuf_eq`: what is posted is the text that `nta_influx_write_traffic` accumulates.
* `posted_whole_lines`: the body is made of whole lines.
-/

namespace TrafficAnalyzer

open LineProtocol Printf PrintBuffer

/-! ## The writer -/

/-- The prints of `build_traffic_point`, with the conditions under which it makes them. -/
def trafficPrints (evt : Json) (agentId : Option CStr) (en : Enrichers) : List (Bool × Bytes) :=
  let esc := lpEscape maxTagLen
  let agent := match agentId with
    | some s => s.1
    | none => ascii "unknown"
  let attack := (jsonGetStr evt (ascii "attack_type")).getD []
  let stage := (jsonGetStr evt (ascii "kill_chain_stage")).getD []
  let mitre := (jsonGetStr evt (ascii "mitre")).getD []
  let gr := geoResult en evt
  let port := (jsonGetNum evt (ascii "port")).getD .zero
  let bytes := (jsonGetNum evt (ascii "bytes")).getD .zero
  let isScan := (jsonGetNum evt (ascii "is_scan")).getD .zero
  let kcScore := jsonGetNum evt (ascii "kc_score")
  let ioc := iocSource en evt
  let abuse := abuseScore en evt
  [(true, ascii "traffic,agent_id=" ++ esc agent ++ ascii ",src_ip=" ++ esc (eventSrcIp evt) ++
      ascii ",protocol=" ++ esc ((jsonGetStr evt (ascii "proto")).getD (ascii "UNKNOWN"))),
    (cString attack ≠ [], ascii ",attack_type=" ++ esc attack),
    (cString stage ≠ [], ascii ",kill_chain_stage=" ++ esc stage),
    (cString mitre ≠ [], ascii ",mitre=" ++ esc mitre),
    (ioc.isSome, ascii ",ioc_hit=1,ioc_source=" ++ esc (ioc.getD [])),
    (gr.hasAsn, ascii ",asn=" ++ esc (ascii "AS" ++ decimal gr.asnNumber.toNat)),
    (gr.hasAsn ∧ gr.asnOrg.1 ≠ [], ascii ",asn_org=" ++ esc gr.asnOrg.1),
    (true, ascii " port=" ++ decimalInt port.toLongLong ++ ascii "i,bytes=" ++ formatG 6 bytes ++
      ascii ",is_scan=" ++ formatG 6 isScan),
    (kcScore.isSome, ascii ",kc_score=" ++ formatG 6 (kcScore.getD .zero)),
    (gr.hasGeo, ascii ",lat=" ++ formatF 6 gr.lat ++ ascii ",lon=" ++ formatF 6 gr.lon),
    (abuse.isSome, ascii ",abuse_score=" ++ decimalInt (abuse.getD 0)),
    (true, ascii "\n")]

/-- `build_traffic_point(lp + base, cap, …)`: the array afterwards, and the value returned. -/
def buildTrafficPointAt (lp : Bytes) (base cap : Nat) (evt : Json) (agentId : Option CStr)
    (en : Enrichers) : Bytes × Nat :=
  if cap < 64 then (lp, 0)
  else
    let (lp, w) := printAll base cap (trafficPrints evt agentId en) lp 0
    (lp, w.getD 0)

/-- The loop over the elements of an array: the array `lp` and `lp_len`. -/
def appendEventsBuf (agentId : Option CStr) :
    List (Json × Enrichers) → Bytes → Nat → Bytes × Nat
  | [], lp, lpLen => (lp, lpLen)
  | (item, en) :: items, lp, lpLen =>
    if item.isObject then
      let (lp, w) := buildTrafficPointAt lp lpLen (lpBufSize - lpLen) item agentId en
      appendEventsBuf agentId items lp (if 0 < w then lpLen + w else lpLen)
    else appendEventsBuf agentId items lp lpLen

/-- `nta_influx_write_traffic` with its array: `stack` is what the array holds at first. -/
def ntaInfluxWriteTrafficBuf (stack : Bytes) (ready : Bool) (parseJson : Bytes → Option Json)
    (post : Bytes → Int) (en : Nat → Enrichers) (body : Option Bytes) (agentId : Option CStr) :
    Int × Option Bytes :=
  match body with
  | none => (-1, none)
  | some b =>
    if ready = false ∨ b.length = 0 then (-1, none)
    else
      match parseJson b with
      | none => (-1, none)
      | some root =>
        let (lp, lpLen) := appendEventsBuf agentId (payloadItems en root) stack 0
        if lpLen = 0 then (0, none) else (post (lp.take lpLen), some (lp.take lpLen))

/-! ## One line -/

variable {lp : Bytes} {base : Nat} {evt : Json} {agentId : Option CStr} {en : Enrichers}

/-- A chain of checked prints, as `build_traffic_point` is written over texts. -/
theorem foldlM_snprintfIf (cap : Nat) (ps : List (Bool × Bytes)) (out : Bytes) :
    ps.foldlM (fun out p => snprintfIf cap p.1 p.2 out) out =
      (texts cap ps out.length).map (out ++ ·) := by
  induction ps generalizing out with
  | nil => simp [texts]
  | cons p ps ih =>
    obtain ⟨c, text⟩ := p
    cases c with
    | false => exact ih out
    | true =>
      rw [List.foldlM_cons, snprintfIf, if_pos rfl, snprintfAt, texts]
      split
      · rfl
      · rw [Option.bind_eq_bind, Option.bind_some, ih, List.length_append, Option.map_map]
        congr 1
        funext t
        exact List.append_assoc out text t

/-- The prints add up to the line of the event. -/
theorem trafficPrints_texts {cap : Nat} (hcap : ¬ cap < 64) :
    texts cap (trafficPrints evt agentId en) 0 =
      fits cap (render (trafficPoint evt agentId en)) := by
  have hchain : (trafficPrints evt agentId en).foldlM
      (fun out p => snprintfIf cap p.1 p.2 out) [] = texts cap (trafficPrints evt agentId en) 0 := by
    rw [foldlM_snprintfIf]
    exact Option.map_id'
  have hbuild := buildTrafficPoint_eq cap evt agentId en
  rw [if_neg hcap] at hbuild
  rw [← hchain, ← hbuild]
  unfold buildTrafficPoint trafficPrints
  rw [if_neg hcap]
  simp only [List.foldlM_cons, List.foldlM_nil, bind_pure]
  rfl

/-- A call leaves the bytes before `base` alone, and answers with the length of its line or
with 0; the line stands behind these bytes. -/
theorem buildTrafficPointAt_spec (evt : Json) (agentId : Option CStr) (en : Enrichers)
    {cap : Nat} (h : base + cap ≤ lp.length) :
    Keeps base lp (buildTrafficPointAt lp base cap evt agentId en).1 ∧
      (buildTrafficPointAt lp base cap evt agentId en).2 =
        ((buildTrafficPoint cap evt agentId en).map List.length).getD 0 ∧
      ∀ line, buildTrafficPoint cap evt agentId en = some line →
        (buildTrafficPointAt lp base cap evt agentId en).1.take (base + line.length) =
          lp.take base ++ line := by
  rw [buildTrafficPoint_eq]
  unfold buildTrafficPointAt
  split
  · exact ⟨.refl base lp, rfl, fun line hline => nomatch hline⟩
  · next hcap =>
    rw [← trafficPrints_texts hcap]
    refine ⟨printAll_keeps h (Nat.zero_le cap), ?_, fun line hline => ?_⟩
    · dsimp only
      rw [printAll_snd]
      simp only [Nat.zero_add]
    · exact printAll_texts h (Nat.zero_le cap) hline

/-- A line that fits into what is left of the array is the line that the call prints into an
empty one. -/
theorem buildTrafficPoint_alone {w : Nat} {line : Bytes}
    (h : buildTrafficPoint (lpBufSize - w) evt agentId en = some line) :
    buildTrafficPoint lpBufSize evt agentId en = some line ∧
      line = render (trafficPoint evt agentId en) ∧ w + line.length < lpBufSize := by
  have hroom := buildTrafficPoint_room 0 evt agentId en
  rw [buildTrafficPoint_room] at h
  split at h
  · next hfit =>
    cases h
    rw [Nat.sub_zero, if_pos ⟨by decide, by omega⟩] at hroom
    exact ⟨hroom, rfl, hfit.2⟩
  · cases h

theorem render_ne_nil (p : Point) : render p ≠ [] := unlex_ne_nil _ _

/-! ## The batch -/

/-- The array holds the accumulated text at its front. -/
structure Holds (lp : Bytes) (lpLen : Nat) (text : Bytes) : Prop where
  size : lp.length = lpBufSize
  len : lpLen = text.length
  room : lpLen ≤ lpBufSize
  front : lp.take lpLen = text

theorem Holds.append {lpLen : Nat} {text : Bytes} (h : Holds lp lpLen text)
    (item : Json) (agentId : Option CStr) (en : Enrichers) :
    Holds (buildTrafficPointAt lp lpLen (lpBufSize - lpLen) item agentId en).1
      (if 0 < (buildTrafficPointAt lp lpLen (lpBufSize - lpLen) item agentId en).2 then
        lpLen + (buildTrafficPointAt lp lpLen (lpBufSize - lpLen) item agentId en).2 else lpLen)
      (text ++ (buildTrafficPoint (lpBufSize - lpLen) item agentId en).getD []) := by
  have hspace : lpLen + (lpBufSize - lpLen) ≤ lp.length := by
    rw [h.size, Nat.add_sub_cancel' h.room]
  obtain ⟨hkeeps, hw, hline⟩ := buildTrafficPointAt_spec item agentId en hspace
  rw [hw]
  cases hbuild : buildTrafficPoint (lpBufSize - lpLen) item agentId en with
  | none =>
    rw [Option.map_none, Option.getD_none, if_neg (Nat.lt_irrefl 0), Option.getD_none,
      List.append_nil]
    exact ⟨hkeeps.size.trans h.size, h.len, h.room, hkeeps.front.trans h.front⟩
  | some line =>
    obtain ⟨_, hrender, hfit⟩ := buildTrafficPoint_alone hbuild
    have hpos : 0 < line.length := List.length_pos_iff.mpr (hrender ▸ render_ne_nil _)
    rw [Option.map_some, Option.getD_some, if_pos hpos, Option.getD_some]
    refine ⟨hkeeps.size.trans h.size, ?_, Nat.le_of_lt hfit, ?_⟩
    · rw [List.length_append, ← h.len]
    · rw [hline line hbuild, h.front]

/-- The loop accumulates in the array what it accumulates as a text. -/
theorem appendEventsBuf_holds (agentId : Option CStr) (items : List (Json × Enrichers))
    {lpLen : Nat} {text : Bytes} (h : Holds lp lpLen text) :
    Holds (appendEventsBuf agentId items lp lpLen).1 (appendEventsBuf agentId items lp lpLen).2
      (appendEvents agentId items text) := by
  induction items generalizing lp lpLen text with
  | nil => exact h
  | cons x items ih =>
    obtain ⟨item, en⟩ := x
    rw [appendEventsBuf]
    split
    · next hitem =>
      rw [appendEvents_object hitem, ← h.len]
      exact ih (h.append item agentId en)
    · next hitem =>
      rw [appendEvents, if_neg hitem]
      exact ih h

/-- Whatever the array holds at first, the call does what it does over texts. -/
theorem writeTrafficBuf_eq {stack : Bytes} (hstack : stack.length = lpBufSize) (ready : Bool)
    (parseJson : Bytes → Option Json) (post : Bytes → Int) (en : Nat → Enrichers)
    (body : Option Bytes) (agentId : Option CStr) :
    ntaInfluxWriteTrafficBuf stack ready parseJson post en body agentId =
      ntaInfluxWriteTraffic ready parseJson post en body agentId := by
  have hempty : Holds stack 0 [] := ⟨hstack, rfl, Nat.zero_le _, rfl⟩
  cases body with
  | none => rfl
  | some b =>
    rw [ntaInfluxWriteTrafficBuf, ntaInfluxWriteTraffic]
    split
    · rfl
    · cases parseJson b with
      | none => rfl
      | some root =>
        have hlp := appendEventsBuf_holds agentId (payloadItems en root) hempty
        dsimp only
        rw [hlp.front, hlp.len]

/-! ## Whole lines -/

/-- What `build_traffic_point` produces for one element in an array that holds no line yet. -/
def lineAlone (lp : Bytes) (agentId : Option CStr) (x : Json × Enrichers) : Bytes :=
  let (lp, w) := buildTrafficPointAt lp 0 lpBufSize x.1 agentId x.2
  lp.take w

/-- The element is an object, and alone in an empty array it yields its complete line. -/
def YieldsLine (agentId : Option CStr) (x : Json × Enrichers) : Prop :=
  x.1.isObject = true ∧ ∀ lp : Bytes, lp.length = lpBufSize →
    0 < (buildTrafficPointAt lp 0 lpBufSize x.1 agentId x.2).2 ∧
      lineAlone lp agentId x = render (trafficPoint x.1 agentId x.2)

theorem yieldsLine_of_fits {w : Nat} {x : Json × Enrichers} {line : Bytes}
    (hobj : x.1.isObject = true)
    (h : buildTrafficPoint (lpBufSize - w) x.1 agentId x.2 = some line) :
    YieldsLine agentId x ∧ line = render (trafficPoint x.1 agentId x.2) := by
  obtain ⟨halone, hrender, _⟩ := buildTrafficPoint_alone h
  refine ⟨⟨hobj, fun lp hlp => ?_⟩, hrender⟩
  obtain ⟨_, hw, hline⟩ := buildTrafficPointAt_spec x.1 agentId x.2
    (show 0 + lpBufSize ≤ lp.length by rw [hlp, Nat.zero_add])
  have hwritten := hline line halone
  rw [halone, Option.map_some, Option.getD_some] at hw
  rw [Nat.zero_add, List.take_zero, List.nil_append] at hwritten
  rw [hw]
  refine ⟨List.length_pos_iff.mpr (hrender ▸ render_ne_nil _), ?_⟩
  rw [lineAlone]
  dsimp only
  rw [hw, hwritten, hrender]

/-- The accumulated text grows by the lines of some of the elements, in their order. -/
theorem appendEvents_lines (agentId : Option CStr) (items : List (Json × Enrichers))
    (text : Bytes) : ∃ kept : List (Json × Enrichers), kept.Sublist items ∧
      (∀ x ∈ kept, YieldsLine agentId x) ∧
      appendEvents agentId items text =
        text ++ (kept.map fun x => render (trafficPoint x.1 agentId x.2)).flatten := by
  induction items generalizing text with
  | nil => exact ⟨[], .slnil, by simp, by simp [appendEvents]⟩
  | cons x items ih =>
    obtain ⟨item, en⟩ := x
    rcases Bool.eq_false_or_eq_true item.isObject with hitem | hitem
    · rw [appendEvents_object hitem]
      cases hbuild : buildTrafficPoint (lpBufSize - text.length) item agentId en with
      | none =>
        obtain ⟨kept, hsub, hkept, htext⟩ := ih text
        rw [Option.getD_none, List.append_nil]
        exact ⟨kept, hsub.cons _, hkept, htext⟩
      | some line =>
        obtain ⟨hyields, rfl⟩ := yieldsLine_of_fits (x := (item, en)) hitem hbuild
        obtain ⟨kept, hsub, hkept, htext⟩ := ih (text ++ render (trafficPoint item agentId en))
        refine ⟨(item, en) :: kept, hsub.cons_cons _, ?_, ?_⟩
        · intro y hy
          rcases List.mem_cons.mp hy with rfl | hy
          · exact hyields
          · exact hkept y hy
        · rw [Option.getD_some, htext, List.map_cons, List.flatten_cons, List.append_assoc]
    · rw [appendEvents, if_neg (by rw [hitem]; exact Bool.false_ne_true)]
      obtain ⟨kept, hsub, hkept, htext⟩ := ih text
      exact ⟨kept, hsub.cons _, hkept, htext⟩

/-- The body that is posted for an array is made of the complete lines of some of its objects,
in their order, each as it comes out alone; and no call of `build_traffic_point`, also one
that gives up, touches the lines before its own. -/
theorem posted_whole_lines {stack : Bytes} (hstack : stack.length = lpBufSize) {ready : Bool}
    {parseJson : Bytes → Option Json} {post : Bytes → Int} {en : Nat → Enrichers} {b : Bytes}
    {agentId : Option CStr} {items : List Json} {rc : Int} {body : Bytes}
    (hroot : parseJson b = some (.array items))
    (h : ntaInfluxWriteTrafficBuf stack ready parseJson post en (some b) agentId =
      (rc, some body)) :
    (∃ kept : List (Json × Enrichers), kept.Sublist (payloadItems en (.array items)) ∧
      (∀ x ∈ kept, YieldsLine agentId x) ∧
      ∀ lp : Bytes, lp.length = lpBufSize → body = (kept.map (lineAlone lp agentId)).flatten) ∧
    ∀ (lp : Bytes) (lpLen : Nat) (evt : Json) (en : Enrichers), lp.length = lpBufSize →
      lpLen ≤ lpBufSize →
      (buildTrafficPointAt lp lpLen (lpBufSize - lpLen) evt agentId en).1.take lpLen =
        lp.take lpLen := by
  refine ⟨?_, ?_⟩
  · rw [writeTrafficBuf_eq hstack] at h
    obtain ⟨kept, hsub, hkept, htext⟩ :=
      appendEvents_lines agentId (payloadItems en (.array items)) []
    have hbody : body = appendEvents agentId (payloadItems en (.array items)) [] := by
      simp only [ntaInfluxWriteTraffic, hroot] at h
      split at h
      · cases h
      · split at h
        · cases h
        · cases h
          rfl
    refine ⟨kept, hsub, hkept, fun lp hlp => ?_⟩
    rw [hbody, htext, List.nil_append]
    refine congrArg List.flatten (List.map_congr_left fun x hx => ?_)
    exact (((hkept x hx).2 lp hlp).2).symm
  · intro lp lpLen evt en hlp hlen
    exact (buildTrafficPointAt_spec evt agentId en (by rw [hlp, Nat.add_sub_cancel' hlen])).1.front

/-- The two connections are posted from an array that held other bytes. -/
theorem posted_whole_lines_connections :
    ∃ kept : List (Json × Enrichers),
      kept.Sublist (payloadItems (fun _ => noEnrichers)
        (.array [connection 80, connection 443])) ∧
      (∀ x ∈ kept, YieldsLine (some agent1) x) ∧
      ∀ lp : Bytes, lp.length = lpBufSize →
        connectionLines.flatten = (kept.map (lineAlone lp (some agent1))).flatten := by
  have hstack : (List.replicate lpBufSize (255 : UInt8)).length = lpBufSize :=
    List.length_replicate
  have hcall : ntaInfluxWriteTrafficBuf (List.replicate lpBufSize 255) true parseConnections
      (fun _ => 0) (fun _ => noEnrichers) (some connectionsText) (some agent1) =
        (0, some connectionLines.flatten) := by
    rw [writeTrafficBuf_eq hstack]
    exact connectionLines_posted
  exact (posted_whole_lines hstack (if_pos rfl) hcall).1

end TrafficAnalyzer
