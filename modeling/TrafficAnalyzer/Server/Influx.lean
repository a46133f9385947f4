import TrafficAnalyzer.Server.LineSafety

/-!
# Writing a batch (`nta_influx_write_traffic` in `src/server/nta_influx.c`)

* `appendEvents_eq`: the buffer holds the lines of the events that fit, in order.
* `writeTraffic_carries_iff`: a call that returns 0 has posted every line exactly when all
  lines together fit the buffer.
* `stored_eq_distinct_tags`: as many points are stored as the events have different tags.
-/

namespace TrafficAnalyzer

open LineProtocol Printf

/-! ## The writer -/

def lpBufSize : Nat := 16384

/-- The loop over the elements of an array: the text in the buffer after it. The enrichers
may answer differently for each element. -/
def appendEvents (agentId : Option CStr) : List (Json × Enrichers) → Bytes → Bytes
  | [], lp => lp
  | (item, en) :: items, lp =>
    if item.isObject then
      match buildTrafficPoint (lpBufSize - lp.length) item agentId en with
      | some line => appendEvents agentId items (lp ++ line)
      | none => appendEvents agentId items lp
    else appendEvents agentId items lp

/-- The elements of an array, or a single value, with the enrichers at their turn. -/
def payloadItems (en : Nat → Enrichers) : Json → List (Json × Enrichers)
  | .array items => items.mapIdx fun i item => (item, en i)
  | root => [(root, en 0)]

/-- `nta_influx_write_traffic`: the value it returns and the body it posts. `parseJson` is
`cJSON_ParseWithLength` and `post` is `influx_post`. -/
def ntaInfluxWriteTraffic (ready : Bool) (parseJson : Bytes → Option Json) (post : Bytes → Int)
    (en : Nat → Enrichers) (body : Option Bytes) (agentId : Option CStr) : Int × Option Bytes :=
  match body with
  | none => (-1, none)
  | some b =>
    if ready = false ∨ b.length = 0 then (-1, none)
    else
      match parseJson b with
      | none => (-1, none)
      | some root =>
        -- a single object takes the same steps as an array of one
        let lp := appendEvents agentId (payloadItems en root) []
        if lp.length = 0 then (0, none) else (post lp, some lp)

/-! ## What is posted -/

/-- The lines of the objects of a payload. -/
def eventLines (agentId : Option CStr) (items : List (Json × Enrichers)) : List Bytes :=
  (items.filter fun x => x.1.isObject).map fun x => render (trafficPoint x.1 agentId x.2)

/-- Each line in turn finds 64 bytes free and leaves one. -/
def FitsFrom : Nat → List Bytes → Prop
  | _, [] => True
  | w, line :: lines =>
    w + 64 ≤ lpBufSize ∧ w + line.length < lpBufSize ∧ FitsFrom (w + line.length) lines

/-- The lines that `appendEvents` takes. -/
def fittingLines : Nat → List Bytes → List Bytes
  | _, [] => []
  | w, line :: lines =>
    if w + 64 ≤ lpBufSize ∧ w + line.length < lpBufSize then
      line :: fittingLines (w + line.length) lines
    else fittingLines w lines

theorem buildTrafficPoint_room (w : Nat) (evt : Json) (agentId : Option CStr) (en : Enrichers) :
    buildTrafficPoint (lpBufSize - w) evt agentId en =
      if w + 64 ≤ lpBufSize ∧ w + (render (trafficPoint evt agentId en)).length < lpBufSize then
        some (render (trafficPoint evt agentId en)) else none := by
  rw [buildTrafficPoint_eq, fits]
  by_cases hroom : w + 64 ≤ lpBufSize
  · rw [if_neg (by omega)]
    refine if_congr ?_ rfl rfl
    omega
  · rw [if_pos (by omega), if_neg fun h => hroom h.1]

theorem appendEvents_object {agentId : Option CStr} {item : Json} {en : Enrichers}
    (hitem : item.isObject = true) (items : List (Json × Enrichers)) (lp : Bytes) :
    appendEvents agentId ((item, en) :: items) lp = appendEvents agentId items
      (lp ++ (buildTrafficPoint (lpBufSize - lp.length) item agentId en).getD []) := by
  rw [appendEvents, if_pos hitem]
  cases buildTrafficPoint (lpBufSize - lp.length) item agentId en with
  | none => rw [Option.getD_none, List.append_nil]
  | some line => rfl

theorem eventLines_object {agentId : Option CStr} {item : Json} (hitem : item.isObject = true)
    (en : Enrichers) (items : List (Json × Enrichers)) :
    eventLines agentId ((item, en) :: items) =
      render (trafficPoint item agentId en) :: eventLines agentId items := by
  simp [eventLines, hitem]

theorem eventLines_other {agentId : Option CStr} {item : Json} (hitem : ¬ item.isObject = true)
    (en : Enrichers) (items : List (Json × Enrichers)) :
    eventLines agentId ((item, en) :: items) = eventLines agentId items := by
  simp [eventLines, hitem]

/-- The buffer holds the lines that fit. -/
theorem appendEvents_eq (agentId : Option CStr) (items : List (Json × Enrichers)) (lp : Bytes) :
    appendEvents agentId items lp =
      lp ++ (fittingLines lp.length (eventLines agentId items)).flatten := by
  induction items generalizing lp with
  | nil => simp [appendEvents, eventLines, fittingLines]
  | cons x items ih =>
    obtain ⟨item, en⟩ := x
    by_cases hitem : item.isObject = true
    · rw [appendEvents_object hitem, ih, buildTrafficPoint_room, eventLines_object hitem,
        fittingLines]
      split
      · simp
      · simp
    · rw [appendEvents, if_neg hitem, ih, eventLines_other hitem]

theorem fittingLines_sublist (w : Nat) (lines : List Bytes) :
    (fittingLines w lines).Sublist lines := by
  induction lines generalizing w with
  | nil => exact .slnil
  | cons line lines ih =>
    rw [fittingLines]
    split
    · exact (ih _).cons_cons _
    · exact (ih _).cons _

theorem fittingLines_eq_self {w : Nat} {lines : List Bytes} :
    fittingLines w lines = lines ↔ FitsFrom w lines := by
  induction lines generalizing w with
  | nil => simp [fittingLines, FitsFrom]
  | cons line lines ih =>
    rw [fittingLines, FitsFrom]
    split
    · next h => rw [List.cons.injEq, eq_self, true_and, ih, and_iff_right h.1, and_iff_right h.2]
    · next h =>
      have hlt : (fittingLines w lines).length < (line :: lines).length :=
        Nat.lt_succ_of_le (fittingLines_sublist w lines).length_le
      refine iff_of_false (fun heq => ?_) fun hf => h ⟨hf.1, hf.2.1⟩
      rw [heq] at hlt
      exact absurd hlt (Nat.lt_irrefl _)

/-- All lines fit: together they leave a byte, and those before the last leave 64. -/
def FitsBuffer (lines : List Bytes) : Prop :=
  lines.flatten.length < lpBufSize ∧ lines.dropLast.flatten.length + 64 ≤ lpBufSize

theorem fitsFrom_iff {w : Nat} {lines : List Bytes} (hne : lines ≠ []) :
    FitsFrom w lines ↔
      w + lines.flatten.length < lpBufSize ∧ w + lines.dropLast.flatten.length + 64 ≤ lpBufSize := by
  induction lines generalizing w with
  | nil => exact absurd rfl hne
  | cons line lines ih =>
    cases lines with
    | nil => simp [FitsFrom, and_comm]
    | cons l ls =>
      have hall : (line :: l :: ls).flatten.length = line.length + (l :: ls).flatten.length := by
        rw [List.flatten_cons, List.length_append]
      have hinit : (line :: (l :: ls).dropLast).flatten.length =
          line.length + (l :: ls).dropLast.flatten.length := by
        rw [List.flatten_cons, List.length_append]
      rw [FitsFrom, ih (List.cons_ne_nil l ls), List.dropLast_cons_cons, hall, hinit]
      omega

theorem fitsFrom_zero_iff (lines : List Bytes) : FitsFrom 0 lines ↔ FitsBuffer lines := by
  cases lines with
  | nil => simp [FitsFrom, FitsBuffer, lpBufSize]
  | cons l ls => rw [fitsFrom_iff (List.cons_ne_nil l ls), FitsBuffer, Nat.zero_add, Nat.zero_add]

/-- The body is made of segments among which every line has its own. -/
def Carries (body : Bytes) (lines : List Bytes) : Prop :=
  ∃ segments : List Bytes, segments.flatten = body ∧ lines.Sublist segments

theorem length_flatten_le {xs ys : List Bytes} (h : xs.Sublist ys) :
    xs.flatten.length ≤ ys.flatten.length := by
  induction h with
  | slnil => exact Nat.le_refl _
  | cons l hsub ih =>
    rw [List.flatten_cons, List.length_append]
    exact Nat.le_add_left_of_le ih
  | cons_cons l hsub ih =>
    rw [List.flatten_cons, List.flatten_cons, List.length_append, List.length_append]
    exact Nat.add_le_add_left ih _

/-- A sublist without some nonempty texts is shorter. -/
theorem sublist_eq_of_length {xs ys : List Bytes} (h : xs.Sublist ys) (hne : ∀ l ∈ ys, l ≠ [])
    (hlen : ys.flatten.length ≤ xs.flatten.length) : xs = ys := by
  induction h with
  | slnil => rfl
  | cons l hsub ih =>
    have hl := List.length_pos_iff.mpr (hne l (by simp))
    have := length_flatten_le hsub
    rw [List.flatten_cons, List.length_append] at hlen
    omega
  | cons_cons l hsub ih =>
    rw [List.flatten_cons, List.flatten_cons, List.length_append, List.length_append] at hlen
    rw [ih (fun l' hl' => hne l' (List.mem_cons_of_mem _ hl')) (by omega)]

/-- The lines that fit carry all lines only if none was skipped. -/
theorem carries_fittingLines_iff {lines : List Bytes} (hne : ∀ l ∈ lines, l ≠ []) (w : Nat) :
    Carries (fittingLines w lines).flatten lines ↔ FitsFrom w lines := by
  rw [← fittingLines_eq_self]
  constructor
  · rintro ⟨segments, hflat, hsub⟩
    -- a skipped line would make the body shorter than all lines together
    have hlen := length_flatten_le hsub
    rw [hflat] at hlen
    exact sublist_eq_of_length (fittingLines_sublist w lines) hne hlen
  · intro h
    exact ⟨lines, by rw [h], List.Sublist.refl lines⟩

theorem eventLines_ne_nil {agentId : Option CStr} {items : List (Json × Enrichers)} :
    ∀ l ∈ eventLines agentId items, l ≠ [] := by
  intro l hl
  obtain ⟨x, -, rfl⟩ := List.mem_map.mp hl
  exact unlex_ne_nil _ _

/-- The body that a call posts; where it returns 0 without posting, every line is missing. -/
theorem writeTraffic_posted {ready : Bool} {parseJson : Bytes → Option Json} {post : Bytes → Int}
    {en : Nat → Enrichers} {b : Bytes} {agentId : Option CStr} {root : Json} {rc : Int}
    {posted : Option Bytes} (hroot : parseJson b = some root)
    (h : ntaInfluxWriteTraffic ready parseJson post en (some b) agentId = (rc, posted))
    (hok : rc = 0 ∨ posted.isSome = true) :
    posted.getD [] = (fittingLines 0 (eventLines agentId (payloadItems en root))).flatten := by
  have hlp := appendEvents_eq agentId (payloadItems en root) []
  rw [List.nil_append, List.length_nil] at hlp
  simp only [ntaInfluxWriteTraffic, hroot, hlp] at h
  split at h
  · cases h
    rcases hok with hok | hok <;> cases hok
  · split at h
    · next hnil =>
      cases h
      exact (List.length_eq_zero_iff.mp hnil).symm
    · cases h
      rfl

/-- Lines that all fit are posted. -/
theorem writeTraffic_eq {parseJson : Bytes → Option Json} {post : Bytes → Int}
    {en : Nat → Enrichers} {b : Bytes} {agentId : Option CStr} {root : Json} (hb : b ≠ [])
    (hroot : parseJson b = some root) (hfit : FitsBuffer (eventLines agentId (payloadItems en root)))
    (hsome : (eventLines agentId (payloadItems en root)).flatten ≠ []) :
    ntaInfluxWriteTraffic true parseJson post en (some b) agentId =
      (post (eventLines agentId (payloadItems en root)).flatten,
        some (eventLines agentId (payloadItems en root)).flatten) := by
  have hlp := appendEvents_eq agentId (payloadItems en root) []
  rw [List.nil_append, List.length_nil,
    fittingLines_eq_self.mpr ((fitsFrom_zero_iff _).mpr hfit)] at hlp
  have hbody : ¬ (true = false ∨ b.length = 0) :=
    fun h => h.elim Bool.noConfusion fun hnil => hb (List.length_eq_zero_iff.mp hnil)
  simp only [ntaInfluxWriteTraffic, hroot, hlp]
  rw [if_neg hbody, if_neg (List.length_eq_zero_iff.not.mpr hsome)]

theorem carries_iff_fitsBuffer (agentId : Option CStr) (items : List (Json × Enrichers)) :
    Carries (fittingLines 0 (eventLines agentId items)).flatten (eventLines agentId items) ↔
      FitsBuffer (eventLines agentId items) := by
  rw [carries_fittingLines_iff eventLines_ne_nil, fitsFrom_zero_iff]

/-- A call that returns 0 has posted the line of every event exactly when all lines fit the
buffer. -/
theorem writeTraffic_carries_iff {ready : Bool} {parseJson : Bytes → Option Json}
    {post : Bytes → Int} {en : Nat → Enrichers} {b : Bytes} {agentId : Option CStr} {root : Json}
    {posted : Option Bytes} (hroot : parseJson b = some root)
    (h : ntaInfluxWriteTraffic ready parseJson post en (some b) agentId = (0, posted)) :
    Carries (posted.getD []) (eventLines agentId (payloadItems en root)) ↔
      FitsBuffer (eventLines agentId (payloadItems en root)) := by
  rw [writeTraffic_posted hroot h (.inl rfl)]
  exact carries_iff_fitsBuffer agentId _

/-- The text of an event of the agent. -/
def eventText : Bytes :=
  ascii "\x7b\"src_ip\":\"198.51.100.7\",\"proto\":\"TCP\",\"port\":80,\"bytes\":60\x7d"

theorem tcpLine_render :
    render (trafficPoint (eventOf (ascii "TCP")) (some agent1) noEnrichers) = tcpLine := by
  have h := tcpLine_eq
  rw [buildTrafficPoint_eq, if_neg (by decide), fits] at h
  split at h
  · exact Option.some.inj h
  · cases h

theorem tcpLine_length : tcpLine.length = 86 := by decide

/-- A batch of `n` such events, as a text and as a value. -/
def batchText (n : Nat) : Bytes :=
  ascii "[" ++ (ascii ",").intercalate (List.replicate n eventText) ++ ascii "]"

def batch (n : Nat) : Json := .array (List.replicate n (eventOf (ascii "TCP")))

def parseBatch (n : Nat) (s : Bytes) : Option Json :=
  if s = batchText n then some (batch n) else none

theorem eventLines_batch (n : Nat) :
    eventLines (some agent1) (payloadItems (fun _ => noEnrichers) (batch n)) =
      List.replicate n tcpLine := by
  have hitems : payloadItems (fun _ => noEnrichers) (batch n) =
      List.replicate n (eventOf (ascii "TCP"), noEnrichers) := by
    refine List.eq_replicate_iff.mpr ⟨by simp [payloadItems, batch], fun x hx => ?_⟩
    obtain ⟨i, hi, rfl⟩ := List.mem_mapIdx.mp hx
    rw [List.getElem_replicate]
  rw [hitems, eventLines, List.filter_replicate_of_pos rfl, List.map_replicate, tcpLine_render]

theorem batchText_ne (n : Nat) : batchText n ≠ [] := by
  rw [batchText, List.append_assoc]
  exact List.cons_ne_nil _ _

/-- The buffer holds 190 of these lines. -/
theorem replicate_fits_iff (n : Nat) : FitsBuffer (List.replicate n tcpLine) ↔ n ≤ 190 := by
  have hlen : ∀ k, (List.replicate k tcpLine).flatten.length = k * 86 := fun k => by
    rw [List.length_flatten, List.map_replicate, tcpLine_length, List.sum_replicate_nat]
  rw [FitsBuffer, List.dropLast_replicate, hlen, hlen, lpBufSize]
  omega

/-- A batch of 190 events is posted whole. -/
theorem writeTraffic_carries_batch :
    ∃ posted, ntaInfluxWriteTraffic true (parseBatch 190) (fun _ => 0) (fun _ => noEnrichers)
        (some (batchText 190)) (some agent1) = (0, posted) ∧
      posted = some (List.replicate 190 tcpLine).flatten ∧
      Carries (posted.getD [])
        (eventLines (some agent1) (payloadItems (fun _ => noEnrichers) (batch 190))) := by
  have hroot : parseBatch 190 (batchText 190) = some (batch 190) := if_pos rfl
  have hlines := eventLines_batch 190
  have hfits : FitsBuffer (List.replicate 190 tcpLine) :=
    (replicate_fits_iff 190).mpr (Nat.le_refl 190)
  have hsome : (List.replicate 190 tcpLine).flatten ≠ [] := by
    rw [List.replicate_succ, List.flatten_cons]
    exact fun h => absurd (List.append_eq_nil_iff.mp h).1 (by decide)
  have hcall := @writeTraffic_eq (parseBatch 190) (fun _ => 0) (fun _ => noEnrichers)
    (batchText 190) (some agent1) (batch 190) (batchText_ne 190) hroot (hlines ▸ hfits)
    (hlines ▸ hsome)
  refine ⟨_, hcall, by rw [hlines], ?_⟩
  exact (writeTraffic_carries_iff hroot hcall).mpr (hlines ▸ hfits)

/-- Two hundred events are more than the buffer holds; the call still returns 0. -/
theorem batch_truncated :
    ∃ posted, ntaInfluxWriteTraffic true (parseBatch 200) (fun _ => 0) (fun _ => noEnrichers)
        (some (batchText 200)) (some agent1) = (0, posted) ∧
      ¬ Carries (posted.getD [])
        (eventLines (some agent1) (payloadItems (fun _ => noEnrichers) (batch 200))) := by
  have hroot : parseBatch 200 (batchText 200) = some (batch 200) := if_pos rfl
  obtain ⟨posted, hcall⟩ : ∃ posted, ntaInfluxWriteTraffic true (parseBatch 200) (fun _ => 0)
      (fun _ => noEnrichers) (some (batchText 200)) (some agent1) = (0, posted) := by
    have hne : ¬ (true = false ∨ (batchText 200).length = 0) := by
      rintro (h | h)
      · cases h
      · exact batchText_ne 200 (List.length_eq_zero_iff.mp h)
    simp only [ntaInfluxWriteTraffic, hroot, if_neg hne]
    split
    · exact ⟨_, rfl⟩
    · exact ⟨_, rfl⟩
  refine ⟨posted, hcall, ?_⟩
  rw [writeTraffic_posted hroot hcall (.inl rfl), carries_iff_fitsBuffer, eventLines_batch,
    replicate_fits_iff]
  decide

/-! ## What is stored -/

theorem mapM_parse_eq {agentId : Option CStr} {xs : List (Json × Enrichers)} {ps : List Point}
    (h : (xs.map fun x => render (trafficPoint x.1 agentId x.2)).mapM parse = some ps) :
    ps = xs.map fun x => trafficPoint x.1 agentId x.2 := by
  induction xs generalizing ps with
  | nil =>
    cases h
    rfl
  | cons x xs ih =>
    rw [List.map_cons, List.mapM_cons] at h
    obtain ⟨p, hp, h1⟩ := Option.bind_eq_some_iff.mp h
    obtain ⟨qs, hqs, h2⟩ := Option.bind_eq_some_iff.mp h1
    cases h2
    obtain ⟨-, rfl⟩ := (parse_render_eq_some (trafficPoint_shaped x.1 agentId x.2)).mp hp
    rw [ih hqs, List.map_cons]

/-- The points of a batch have no timestamp: two of them replace each other exactly when
their tags are equal, and as many are stored as there are different tags. -/
theorem stored_eq_distinct_tags {ready : Bool} {parseJson : Bytes → Option Json}
    {post : Bytes → Int} {en : Nat → Enrichers} {b : Bytes} {agentId : Option CStr}
    {items : List Json} {rc : Int} {text : Bytes} {ps : List Point}
    (hroot : parseJson b = some (.array items)) (hobj : ∀ item ∈ items, item.isObject = true)
    (hfit : FitsBuffer (eventLines agentId (payloadItems en (.array items))))
    (h : ntaInfluxWriteTraffic ready parseJson post en (some b) agentId = (rc, some text))
    (hps : (eventLines agentId (payloadItems en (.array items))).mapM parse = some ps) :
    text = (eventLines agentId (payloadItems en (.array items))).flatten ∧
      ps = items.mapIdx (fun i item => trafficPoint item agentId (en i)) ∧
      (∀ p ∈ ps, p.measurement = ascii "traffic" ∧ p.timestamp = none) ∧
      ((ps.map (·.key)).Nodup ↔ (ps.map (·.tags)).Nodup) ∧
      (ps.foldl write []).length = (ps.map (·.tags)).dedup.length := by
  have htext : text = (eventLines agentId (payloadItems en (.array items))).flatten := by
    have hposted := writeTraffic_posted hroot h (.inr rfl)
    rwa [fittingLines_eq_self.mpr ((fitsFrom_zero_iff _).mpr hfit)] at hposted
  have hall : (payloadItems en (.array items)).filter (fun x => x.1.isObject) =
      payloadItems en (.array items) := by
    refine List.filter_eq_self.mpr fun x hx => ?_
    obtain ⟨i, hi, rfl⟩ := List.mem_mapIdx.mp hx
    exact hobj _ (List.getElem_mem hi)
  rw [eventLines, hall] at hps
  have hpoints : ps = items.mapIdx fun i item => trafficPoint item agentId (en i) := by
    refine (List.mapIdx_eq_iff.mpr fun i => ?_).symm
    rw [mapM_parse_eq hps, payloadItems, List.getElem?_map, List.getElem?_mapIdx, Option.map_map]
    rfl
  have hshape : ∀ p ∈ ps, p.measurement = ascii "traffic" ∧ p.timestamp = none := by
    intro p hp
    rw [hpoints] at hp
    obtain ⟨i, hi, rfl⟩ := List.mem_mapIdx.mp hp
    exact ⟨rfl, rfl⟩
  have hkeys : ps.map (·.key) = (ps.map (·.tags)).map fun tags => (ascii "traffic", tags, none) := by
    rw [List.map_map]
    refine List.map_congr_left fun p hp => ?_
    obtain ⟨hm, ht⟩ := hshape p hp
    rw [Function.comp_apply, Point.key, hm, ht]
  -- measurement and timestamp are the same for all, so the tags are the key
  have hinj : Function.Injective fun tags : List (Bytes × Bytes) =>
      (ascii "traffic", tags, (none : Option Bytes)) :=
    fun a b hab => (Prod.mk.inj (Prod.mk.inj hab).2).1
  refine ⟨htext, hpoints, hshape, ?_, ?_⟩
  · rw [hkeys, List.nodup_map_iff hinj]
  · rw [length_foldl_write, hkeys, List.dedup_map_of_injective hinj, List.length_map]

/-- Two connections of one host to two ports. -/
def connection (port : Nat) : Json :=
  .object [(ascii "src_ip", .string (ascii "198.51.100.7")), (ascii "proto", .string (ascii "TCP")),
    (ascii "port", .number (.ofNat port)), (ascii "bytes", .number (.ofNat 60))]

def connectionText (port : Bytes) : Bytes :=
  ascii "\x7b\"src_ip\":\"198.51.100.7\",\"proto\":\"TCP\",\"port\":" ++ port ++
    ascii ",\"bytes\":60\x7d"

def connectionsText : Bytes :=
  ascii "[" ++ connectionText (ascii "80") ++ ascii "," ++ connectionText (ascii "443") ++ ascii "]"

def parseConnections (s : Bytes) : Option Json :=
  if s = connectionsText then some (.array [connection 80, connection 443]) else none

/-- The lines of the two connections. -/
def connectionLines : List Bytes :=
  [tcpLine, ascii "traffic,agent_id=agent-1,src_ip=198.51.100.7,protocol=TCP" ++
    ascii " port=443i,bytes=60,is_scan=0\n"]

theorem connectionLines_eq : eventLines (some agent1) (payloadItems (fun _ => noEnrichers)
    (.array [connection 80, connection 443])) = connectionLines := by
  have hsecond : render (trafficPoint (connection 443) (some agent1) noEnrichers) =
      ascii "traffic,agent_id=agent-1,src_ip=198.51.100.7,protocol=TCP" ++
        ascii " port=443i,bytes=60,is_scan=0\n" := by
    decide +kernel
  rw [connectionLines, ← tcpLine_render, ← hsecond]
  rfl

theorem connectionLines_fit : FitsBuffer connectionLines := by
  unfold FitsBuffer connectionLines
  simp only [List.flatten_cons, List.flatten_nil, List.append_nil, List.dropLast_cons_cons,
    List.dropLast_singleton, List.length_append, tcpLine_length]
  decide

theorem connectionLines_posted :
    ntaInfluxWriteTraffic true parseConnections (fun _ => 0) (fun _ => noEnrichers)
      (some connectionsText) (some agent1) = (0, some connectionLines.flatten) := by
  have hcall := @writeTraffic_eq parseConnections (fun _ => 0) (fun _ => noEnrichers)
    connectionsText (some agent1) (.array [connection 80, connection 443]) (by decide) (if_pos rfl)
  rw [connectionLines_eq] at hcall
  refine hcall connectionLines_fit fun h => ?_
  have hlen := congrArg List.length h
  rw [connectionLines, List.flatten_cons, List.length_append, tcpLine_length] at hlen
  exact absurd hlen (by simp)

/-- The two lines are read, and the second point replaces the first. -/
theorem connectionLines_parse :
    ∃ ps, connectionLines.mapM parse = some ps ∧ ps.length = 2 ∧ ¬ (ps.map (·.key)).Nodup ∧
      (ps.foldl write []).length = 1 := by
  have hrest : (connectionLines.mapM parse).map (fun ps =>
      (ps.length, decide (ps.map (·.key)).Nodup, (ps.foldl write []).length)) =
      some (2, false, 1) := by
    decide +kernel
  obtain ⟨ps, hps, hval⟩ := Option.map_eq_some_iff.mp hrest
  simp only [Prod.mk.injEq] at hval
  exact ⟨ps, hps, hval.1, of_decide_eq_false hval.2.1, hval.2.2⟩

theorem stored_eq_distinct_tags_connections :
    ∃ ps, (eventLines (some agent1) (payloadItems (fun _ => noEnrichers)
        (.array [connection 80, connection 443]))).mapM parse = some ps ∧
      (ps.foldl write []).length = (ps.map (·.tags)).dedup.length := by
  have hroot : parseConnections connectionsText = some (.array [connection 80, connection 443]) :=
    if_pos rfl
  have hobj : ∀ item ∈ [connection 80, connection 443], item.isObject = true := by decide
  obtain ⟨ps, hps, -⟩ := connectionLines_parse
  have hfit := connectionLines_fit
  rw [← connectionLines_eq] at hps hfit
  exact ⟨ps, hps,
    (stored_eq_distinct_tags hroot hobj hfit connectionLines_posted hps).2.2.2.2⟩

/-- The two events differ in a field only, and one of them is lost. -/
theorem connections_collide :
    ntaInfluxWriteTraffic true parseConnections (fun _ => 0) (fun _ => noEnrichers)
        (some connectionsText) (some agent1) = (0, some connectionLines.flatten) ∧
      eventLines (some agent1) (payloadItems (fun _ => noEnrichers)
        (.array [connection 80, connection 443])) = connectionLines ∧
      FitsBuffer connectionLines ∧ connection 80 ≠ connection 443 ∧
      ∃ ps, connectionLines.mapM parse = some ps ∧ ps.length = 2 ∧
        ¬ (ps.map (·.key)).Nodup ∧ (ps.foldl write []).length = 1 := by
  refine ⟨connectionLines_posted, connectionLines_eq, connectionLines_fit, fun h => ?_,
    connectionLines_parse⟩
  have := congrArg (fun evt => jsonGetNum evt (ascii "port")) h
  exact absurd this (by decide)

end TrafficAnalyzer
