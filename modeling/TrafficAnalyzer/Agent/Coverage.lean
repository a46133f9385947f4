import TrafficAnalyzer.Agent.Tables

/-!
# Which frames are published and which leave a trace

`CompleteFrame` and `Malformed` say over the bytes of a capture that header validation
accepts or rejects it. Both are compared with what `analyze_packet` does:

1. `publishes_iff`: a complete frame of a source outside HOME_NET publishes exactly one
   event, with the address of the source, when the source has a record or the table has
   room, and nothing otherwise. `full_table_silences`: a full table is reachable.
2. `malformed_ignored_iff`: a malformed frame leaves what the cleanup alone would leave,
   except that a truncated TCP or UDP header is noticed after the source has been looked
   up: the frame creates or refreshes the record of its source. `short_syn_tracked` is such
   a frame.
-/

namespace TrafficAnalyzer

variable {R : Type} [Double R]

/-! ## Header validation over bytes -/

/-- The fields that `analyze_packet` reads from an IPv4 frame. -/
def etherTypeOf (p : Bytes) : UInt16 := wordAt p 12
def ipHlenOf (p : Bytes) : Nat := ipv4Hlen (byteAt p 14)
def srcIpOf (p : Bytes) : UInt32 := dwordAt p 26
def protoOf (p : Bytes) : UInt8 := byteAt p 23
def l4LenOf (p : Bytes) : Nat := p.length - 14 - ipHlenOf p

/-- An IPv4 frame with a complete header. -/
structure CompleteIpv4 (p : Bytes) : Prop where
  header : 14 + 20 ≤ p.length
  etherType : etherTypeOf p = 0x0800
  ihl : 20 ≤ ipHlenOf p
  inside : 14 + ipHlenOf p ≤ p.length

/-- An IPv4 frame whose transport header is complete too. -/
structure CompleteFrame (p : Bytes) : Prop extends CompleteIpv4 p where
  transport : protoOf p = NTA_PROTO_ICMP ∨ (protoOf p = NTA_PROTO_TCP ∧ 20 ≤ l4LenOf p) ∨
    (protoOf p = NTA_PROTO_UDP ∧ 8 ≤ l4LenOf p)

/-- The transport header of a TCP or UDP packet is cut. -/
structure ShortTransport (p : Bytes) : Prop extends CompleteIpv4 p where
  cut : (protoOf p = NTA_PROTO_TCP ∧ l4LenOf p < 20) ∨ (protoOf p = NTA_PROTO_UDP ∧ l4LenOf p < 8)

/-- A frame that fails header validation. -/
inductive Malformed (p : Bytes) : Prop
  | ethernet : p.length < 14 → Malformed p
  | arp : etherTypeOf p = 0x0806 → p.length < 42 → Malformed p
  | ipv4 : etherTypeOf p = 0x0800 → p.length < 34 → Malformed p
  | ihl : etherTypeOf p = 0x0800 → ipHlenOf p < 20 → Malformed p
  | options : etherTypeOf p = 0x0800 → p.length < 14 + ipHlenOf p → Malformed p
  | transport : ShortTransport p → Malformed p

theorem classifyTransport_eq (p : Bytes) :
    classifyTransport p (ipHlenOf p) =
      let l4 := 14 + ipHlenOf p
      if protoOf p = NTA_PROTO_ICMP then .icmp
      else if protoOf p = NTA_PROTO_TCP then
        if l4LenOf p < 20 then .other else .tcp (wordAt p (l4 + 2)) (byteAt p (l4 + 13))
      else if protoOf p = NTA_PROTO_UDP then
        if l4LenOf p < 8 then .other
        else .udp (wordAt p l4) (wordAt p (l4 + 2)) (p.drop (l4 + 8))
      else .other := rfl

theorem classifyIpv4_eq (p : Bytes) :
    classifyIpv4 p =
      if p.length < 34 then .ignored
      else if ipHlenOf p < 20 ∨ 14 + ipHlenOf p > p.length then .ignored
      else .ipv4 (srcIpOf p) (classifyTransport p (ipHlenOf p)) := rfl

/-- An IPv4 frame is left to `classifyIpv4`. -/
theorem classify_ipv4 {p : Bytes} (hlen : 14 ≤ p.length) (htype : etherTypeOf p = 0x0800) :
    classify p = classifyIpv4 p := by
  have htype : wordAt p 12 = 0x0800 := htype
  unfold classify
  rw [if_neg (Nat.not_lt.mpr hlen), htype, if_neg (by decide), if_neg (by decide)]

theorem classify_complete {p : Bytes} (h : CompleteIpv4 p) :
    classify p = .ipv4 (srcIpOf p) (classifyTransport p (ipHlenOf p)) := by
  have hok : ¬ (ipHlenOf p < 20 ∨ 14 + ipHlenOf p > p.length) := by
    rintro (hlt | hgt)
    · exact absurd h.ihl (Nat.not_le.mpr hlt)
    · exact absurd h.inside (Nat.not_le.mpr hgt)
  rw [classify_ipv4 (Nat.le_of_add_right_le h.header) h.etherType, classifyIpv4_eq,
    if_neg (Nat.not_lt.mpr h.header), if_neg hok]

/-- A complete transport header is one that publishes. -/
theorem publishes_complete {p : Bytes} (h : CompleteFrame p) :
    (classifyTransport p (ipHlenOf p)).publishes.isSome := by
  rw [classifyTransport_eq]
  rcases h.transport with hicmp | ⟨htcp, hlen⟩ | ⟨hudp, hlen⟩
  · simp [hicmp, Transport.publishes]
  · simp [htcp, Nat.not_lt.mpr hlen, NTA_PROTO_ICMP, NTA_PROTO_TCP, Transport.publishes]
  · simp [hudp, Nat.not_lt.mpr hlen, NTA_PROTO_ICMP, NTA_PROTO_TCP, NTA_PROTO_UDP,
      Transport.publishes]

theorem classifyTransport_short {p : Bytes} (h : ShortTransport p) :
    classifyTransport p (ipHlenOf p) = .other := by
  rw [classifyTransport_eq]
  rcases h.cut with ⟨htcp, hlen⟩ | ⟨hudp, hlen⟩
  · simp [htcp, hlen, NTA_PROTO_ICMP, NTA_PROTO_TCP]
  · simp [hudp, hlen, NTA_PROTO_ICMP, NTA_PROTO_TCP, NTA_PROTO_UDP]

/-- An IPv4 frame that `classifyIpv4` drops. -/
theorem classify_dropped {p : Bytes} (htype : etherTypeOf p = 0x0800)
    (h : classifyIpv4 p = .ignored) : classify p = .ignored := by
  rcases Nat.lt_or_ge p.length 14 with hlen | hlen
  · exact if_pos hlen
  · rw [classify_ipv4 hlen htype, h]

/-- Every malformed frame is dropped before a table is looked at, unless it is its
transport header that is cut. -/
theorem classify_malformed {p : Bytes} (h : Malformed p) :
    classify p = .ignored ∨ ShortTransport p := by
  cases h with
  | ethernet hlen => exact .inl (if_pos hlen)
  | arp htype hlen =>
    left
    unfold classify
    split
    · rfl
    · exact if_pos htype
  | ipv4 htype hlen => exact .inl (classify_dropped htype (if_pos hlen))
  | ihl htype hlt =>
    refine .inl (classify_dropped htype ?_)
    rw [classifyIpv4_eq, if_pos (show _ ∨ 14 + ipHlenOf p > p.length from .inl hlt), ite_self]
  | options htype hgt =>
    refine .inl (classify_dropped htype ?_)
    rw [classifyIpv4_eq, if_pos (show ipHlenOf p < 20 ∨ _ from .inr hgt), ite_self]
  | transport hshort => exact .inr hshort

/-! ## Publication -/

/-- A transport part that publishes does so once, with the address of the source. -/
theorem transportStep_published {t : Transport} (ht : t.publishes.isSome) (s : Suspect R)
    (src : UInt32) (length : Nat) (now : Int) :
    ∃ e, (transportStep s t src length now).2.published = [e] ∧ e.srcIp = inetNtoa src := by
  obtain ⟨⟨port, proto⟩, h⟩ := Option.isSome_iff_exists.mp ht
  simp only [transportStep, h, conclude]
  exact ⟨_, rfl, rfl⟩

omit [Double R] in
/-- The source can be tracked: it has a record or the table has room. -/
def Analyzer.canTrack (st : Analyzer R) (src : UInt32) : Prop :=
  (st.record src).isSome ∨ st.suspects.count < MAX_SUSPECTS

theorem working_eq_none {st : Analyzer R} {src : UInt32} {now : Int} :
    st.working src now = none ↔
      st.isHome src ∨ (st.record src = none ∧ MAX_SUSPECTS ≤ st.suspects.count) := by
  unfold Analyzer.working
  cases st.isHome src with
  | true => simp
  | false =>
    cases st.record src with
    | some s => simp
    | none => simp

theorem working_isSome {st : Analyzer R} {src : UInt32} (hhome : st.isHome src = false)
    (now : Int) : (st.working src now).isSome ↔ st.canTrack src := by
  rw [← Option.ne_none_iff_isSome, ne_eq, working_eq_none, Analyzer.canTrack, hhome,
    ← Option.ne_none_iff_isSome]
  simp only [Bool.false_eq_true, false_or, not_and_or, Nat.not_le, ne_eq]

theorem processFrame_published {st : Analyzer R} {p : Bytes} (now : Int) (hp : CompleteFrame p)
    (hhome : st.isHome (srcIpOf p) = false) :
    ((st.cleaned now).canTrack (srcIpOf p) →
      ∃ e, (processFrame st p now).2.published = [e] ∧ e.srcIp = inetNtoa (srcIpOf p)) ∧
      (¬ (st.cleaned now).canTrack (srcIpOf p) → (processFrame st p now).2.published = []) := by
  rw [← working_isSome ((cleaned_isHome st now _).trans hhome) now]
  simp only [processFrame, classify_complete hp.toCompleteIpv4, Analyzer.processIp]
  cases hw : (st.cleaned now).working (srcIpOf p) now with
  | none => exact ⟨fun h => by simp at h, fun _ => rfl⟩
  | some s =>
    exact ⟨fun _ => transportStep_published (publishes_complete hp) _ _ _ _, fun h => by simp at h⟩

/-- A complete frame of a source outside HOME_NET publishes exactly one event, which
carries the address of the source, when after the cleanup the source has a record or the
table has room; otherwise it publishes nothing. -/
theorem publishes_iff (st : Analyzer R) {p : Bytes} (now : Int) (hp : CompleteFrame p)
    (hhome : isHomeIp st.homeCidrs (srcIpOf p) = some false) :
    ∃ mid st' o, cleanupSuspects st now = some mid ∧ analyzePacket st p now = some (st', o) ∧
      (mid.canTrack (srcIpOf p) →
        ∃ e, o.published = [e] ∧ e.srcIp = inetNtoa (srcIpOf p)) ∧
      (¬ mid.canTrack (srcIpOf p) → o.published = []) := by
  have hhome' := Option.some.inj ((isHomeIp_eq st (srcIpOf p)).symm.trans hhome)
  exact ⟨st.cleaned now, _, _, cleanupSuspects_eq st now, analyzePacket_eq st p now,
    processFrame_published now hp hhome'⟩

theorem icmpFrame_complete (a b c d : UInt8) : CompleteFrame (ipv4Frame 1 [a, b, c, d] []) where
  header := Nat.le_refl 34
  etherType := show be16 0x08 0x00 = 0x0800 by decide
  ihl := show 20 ≤ ipv4Hlen 0x45 by decide
  inside := show 14 + ipv4Hlen 0x45 ≤ 34 by decide
  transport := .inl rfl

/-- The first packet of a source, on an empty table. -/
theorem publishes_iff_icmp :
    let p := ipv4Frame 1 [1, 2, 3, 4] []
    ∃ mid st' o, cleanupSuspects (.initial : Analyzer ℝ) 0 = some mid ∧
      analyzePacket (.initial : Analyzer ℝ) p 0 = some (st', o) ∧
      (mid.canTrack (srcIpOf p) → ∃ e, o.published = [e] ∧ e.srcIp = inetNtoa (srcIpOf p)) ∧
      (¬ mid.canTrack (srcIpOf p) → o.published = []) :=
  publishes_iff .initial 0 (icmpFrame_complete 1 2 3 4) (isHomeIp_eq _ _)

/-! ### A full table -/

/-- The addresses with a record. -/
def Analyzer.tracked (st : Analyzer R) : List UInt32 := st.suspects.used.map (·.ip)

omit [Double R] in
theorem record_eq_none {st : Analyzer R} {ip : UInt32} :
    st.record ip = none ↔ ip ∉ st.tracked := by
  simp [Analyzer.record, Analyzer.tracked, List.find?_eq_none]

/-- A packet of a new source takes the next slot. -/
theorem processFrame_tracked_new {st : Analyzer R} {c : Call} (hdue : st.due c.now = false)
    (hp : CompleteIpv4 c.packet) (hhome : st.isHome (srcIpOf c.packet) = false)
    (hnew : srcIpOf c.packet ∉ st.tracked) (hroom : st.suspects.count < MAX_SUSPECTS) :
    (processFrame st c.packet c.now).1.tracked = st.tracked ++ [srcIpOf c.packet] ∧
      (processFrame st c.packet c.now).1.lastCleanup = st.lastCleanup ∧
      (processFrame st c.packet c.now).1.homeCidrs = st.homeCidrs := by
  have hclean : st.cleaned c.now = st := by
    rw [cleaned_eq, hdue]
    rfl
  have hrec := record_eq_none.mpr hnew
  have hw : st.working (srcIpOf c.packet) c.now = some (Suspect.fresh (srcIpOf c.packet) c.now) := by
    simp [Analyzer.working, hhome, hrec, hroom]
  simp only [processFrame, classify_complete hp, hclean, Analyzer.processIp, hw, Analyzer.store,
    hrec, Option.isSome_none, Bool.false_eq_true, ↓reduceIte, Analyzer.tracked,
    Slots.used_pushD, if_pos hroom, List.map_append, List.map_singleton, transportStep_ip]
  exact ⟨rfl, trivial, trivial⟩

/-- Packets of distinct new sources take a slot each, while there are slots. -/
theorem afterCalls_tracked {st : Analyzer R} {cs : List Call}
    (hdue : ∀ c ∈ cs, st.due c.now = false) (hp : ∀ c ∈ cs, CompleteIpv4 c.packet)
    (hhome : st.homeCidrs = .empty)
    (hnew : (st.tracked ++ cs.map (srcIpOf ·.packet)).Nodup)
    (hroom : st.suspects.count + cs.length ≤ MAX_SUSPECTS) :
    (afterCalls st cs).tracked = st.tracked ++ cs.map (srcIpOf ·.packet) ∧
      (afterCalls st cs).lastCleanup = st.lastCleanup ∧ (afterCalls st cs).homeCidrs = .empty := by
  induction cs generalizing st with
  | nil => exact ⟨(List.append_nil _).symm, rfl, hhome⟩
  | cons c cs ih =>
    have hc := List.mem_cons_self (a := c) (l := cs)
    have happend : st.tracked ++ (c :: cs).map (srcIpOf ·.packet) =
        (st.tracked ++ [srcIpOf c.packet]) ++ cs.map (srcIpOf ·.packet) := by simp
    rw [happend] at hnew ⊢
    have hfresh : srcIpOf c.packet ∉ st.tracked := fun hmem =>
      List.disjoint_of_nodup_append hnew.of_append_left hmem (List.mem_singleton_self _)
    rw [List.length_cons] at hroom
    obtain ⟨htracked, hclock, hhomes⟩ := processFrame_tracked_new (hdue c hc) (hp c hc)
      (by simp [Analyzer.isHome, hhome]) hfresh (by omega)
    have hcount := congrArg List.length htracked
    simp only [Analyzer.tracked, List.length_append, List.length_map, List.length_singleton]
      at hcount
    rw [← htracked] at hnew ⊢
    rw [← hclock]
    refine ih (fun d hd => ?_) (fun d hd => hp d (List.mem_cons_of_mem _ hd)) (hhomes.trans hhome)
      hnew (by simp only [Slots.count] at hroom ⊢; omega)
    rw [Analyzer.due, hclock]
    exact hdue d (List.mem_cons_of_mem _ hd)

/-- A hundred sources, then 1.2.3.4, one ICMP packet each. -/
def otherSources : List Call :=
  (List.range 100).map fun i => ⟨ipv4Frame 1 [10, 0, 0, UInt8.ofNat i] [], 0⟩
def unseenSource : Call := ⟨ipv4Frame 1 [1, 2, 3, 4] [], 0⟩

theorem otherSources_ips : otherSources.map (srcIpOf ·.packet) =
    (List.range 100).map fun i => UInt32.ofNat (10 + 2 ^ 24 * i) := by
  have hload : otherSources.map (srcIpOf ·.packet) =
      (List.range 100).map fun i => load32 10 0 0 (UInt8.ofNat i) := by
    rw [otherSources, List.map_map]
    rfl
  rw [hload]
  decide +kernel

theorem otherSources_nodup : (otherSources.map (srcIpOf ·.packet)).Nodup := by
  rw [otherSources_ips]
  refine List.nodup_range.map_on fun i hi j hj h => ?_
  rw [List.mem_range] at hi hj
  have hval := congrArg UInt32.toNat h
  rw [UInt32.toNat_ofNat', UInt32.toNat_ofNat'] at hval
  omega

theorem otherSources_run :
    ∃ (tr : List (Seen R)) (st : Analyzer R), Lts.Run analyzerLts (analyzerReset .initial) tr st ∧
      st.tracked = otherSources.map (srcIpOf ·.packet) ∧ st.lastCleanup = 0 ∧
        st.homeCidrs = .empty := by
  refine ⟨_, _, observe_run .initial otherSources,
    afterCalls_tracked (fun c hc => ?_) (fun c hc => ?_) rfl
      otherSources_nodup (Nat.le_refl 100)⟩
  all_goals
    obtain ⟨i, _, rfl⟩ := List.mem_map.mp hc
  · rfl
  · exact (icmpFrame_complete ..).toCompleteIpv4

/-- When the table holds a hundred other sources, a complete packet is not published. -/
theorem full_table_silences :
    ∃ (tr : List (Seen ℝ)) (st st' : Analyzer ℝ) (o : Outcome),
      Lts.Run analyzerLts (analyzerReset .initial) tr st ∧
        CompleteFrame unseenSource.packet ∧
        isHomeIp st.homeCidrs (srcIpOf unseenSource.packet) = some false ∧
        analyzePacket st unseenSource.packet unseenSource.now = some (st', o) ∧
        o.published = [] := by
  obtain ⟨tr, st, hrun, htracked, hclock, hhome⟩ := otherSources_run (R := ℝ)
  have hcomplete : CompleteFrame unseenSource.packet := icmpFrame_complete 1 2 3 4
  have hnothome : st.isHome (srcIpOf unseenSource.packet) = false := by
    simp [Analyzer.isHome, hhome]
  have hclean : st.cleaned unseenSource.now = st := by
    rw [cleaned_eq, Analyzer.due, hclock]
    rfl
  have hunseen : srcIpOf unseenSource.packet ∉ otherSources.map (srcIpOf ·.packet) := by
    rw [otherSources_ips, List.mem_map]
    rintro ⟨i, hi, h⟩
    have hval := congrArg UInt32.toNat (h.trans (by decide : _ = (0x04030201 : UInt32)))
    rw [UInt32.toNat_ofNat', (by decide : (0x04030201 : UInt32).toNat = 67305985)] at hval
    omega
  have hfull : ¬ (st.cleaned unseenSource.now).canTrack (srcIpOf unseenSource.packet) := by
    rw [hclean]
    rintro (hrec | hroom)
    · rw [record_eq_none.mpr (by rwa [htracked])] at hrec
      cases hrec
    · have hcount : st.tracked.length = 100 := by rw [htracked]; rfl
      rw [Analyzer.tracked, List.length_map] at hcount
      exact absurd hroom (by rw [Slots.count, hcount]; decide)
  exact ⟨tr, st, _, _, hrun, hcomplete, (isHomeIp_eq _ _).trans (congrArg some hnothome),
    analyzePacket_eq _ _ _, (processFrame_published _ hcomplete hnothome).2 hfull⟩

/-! ## Malformed frames -/

/-- The call leaves both tables as `cleanup_suspects(now)` alone would leave them, and
publishes and records nothing. -/
def Ignores (st : Analyzer R) (c : Call) : Prop :=
  ∃ mid st' o, cleanupSuspects st c.now = some mid ∧
    analyzePacket st c.packet c.now = some (st', o) ∧
    st'.suspects = mid.suspects ∧ st'.arpTable = mid.arpTable ∧
    o.published = [] ∧ o.recorded = []

/-- Looking up `src` at `now` leaves no trace: the source is in HOME_NET, its record has
the time of the call already, or it has none and gets none, because the table is full and
the cleanup drops nothing. -/
def SilentLookup (st : Analyzer R) (src : UInt32) (now : Int) : Prop :=
  st.isHome src ∨ (∃ s, st.record src = some s ∧ s.lastSeen = now) ∨
    (st.record src = none ∧ st.suspects.count = MAX_SUSPECTS ∧
      (st.due now → ∀ s ∈ st.suspects.used, s.alive now))

theorem ignores_iff (st : Analyzer R) (c : Call) :
    Ignores st c ↔
      (processFrame st c.packet c.now).1.suspects = (st.cleaned c.now).suspects ∧
        (processFrame st c.packet c.now).1.arpTable = (st.cleaned c.now).arpTable ∧
        (processFrame st c.packet c.now).2.published = [] ∧
        (processFrame st c.packet c.now).2.recorded = [] := by
  constructor
  · rintro ⟨mid, st', o, hmid, hcall, h⟩
    obtain rfl := Option.some.inj ((cleanupSuspects_eq st c.now).symm.trans hmid)
    rw [Option.some.inj ((analyzePacket_eq st c.packet c.now).symm.trans hcall)]
    exact h
  · exact fun h => ⟨_, _, _, cleanupSuspects_eq st c.now, analyzePacket_eq st c.packet c.now, h⟩

/-- Storing the looked-up record again changes the table unless the lookup did not. -/
theorem store_same_iff {st : Analyzer R} {src : UInt32} {now : Int} {s : Suspect R}
    (hw : st.working src now = some s) :
    (st.store src s).suspects = st.suspects ↔
      ∃ s0, st.record src = some s0 ∧ s0.lastSeen = now := by
  rcases working_cases hw with ⟨s0, hr, rfl⟩ | ⟨hr, hroom, rfl⟩
  · obtain ⟨_, hlt, hget⟩ := Slots.scan_found hr
    simp only [Analyzer.store, hr, Option.isSome_some, ↓reduceIte, Option.some.injEq,
      exists_eq_left']
    constructor
    · intro h
      have hcell := congrArg (fun t => t.used[st.suspects.used.findIdx (·.ip = src)]?) h
      simp only [Slots.used_replaceFirst, hget] at hcell
      rw [List.getElem?_set_self hlt, Option.some.injEq] at hcell
      exact (congrArg Suspect.lastSeen hcell).symm
    · rintro rfl
      refine Slots.ext_used ?_
      obtain ⟨_, hcell⟩ := List.getElem?_eq_some_iff.mp hget
      exact (congrArg _ hcell.symm).trans (List.set_getElem_self _)
  · simp only [Analyzer.store, hr, Option.isSome_none, Bool.false_eq_true, ↓reduceIte]
    constructor
    · intro h
      have hlen := congrArg (fun t => t.used.length) h
      simp only [Slots.used_pushD, if_pos hroom, List.length_append, List.length_singleton] at hlen
      exact absurd hlen (Nat.succ_ne_self _)
    · rintro ⟨s0, h, _⟩
      cases h

omit [Double R] in
/-- A cleanup that leaves a full table has dropped nothing. -/
theorem cleaned_full (st : Analyzer R) (now : Int) :
    MAX_SUSPECTS ≤ (st.cleaned now).suspects.count ↔
      st.suspects.count = MAX_SUSPECTS ∧ (st.due now → ∀ s ∈ st.suspects.used, s.alive now) := by
  have hfits := st.suspects.fits
  rw [cleaned_eq]
  cases hdue : st.due now with
  | false =>
    simp only [Bool.false_eq_true, ↓reduceIte, false_implies, and_true]
    exact ⟨fun h => Nat.le_antisymm hfits h, fun h => h.ge⟩
  | true =>
    simp only [↓reduceIte, forall_const, Slots.count, Slots.used_filter]
    constructor
    · intro h
      have hle := List.length_filter_le (fun s : Suspect R => s.alive now) st.suspects.used
      have hlen := Nat.le_antisymm hfits (h.trans hle)
      exact ⟨hlen, List.length_filter_eq_length_iff.mp (Nat.le_antisymm hle (hlen.le.trans h))⟩
    · rintro ⟨hlen, hall⟩
      rw [List.length_filter_eq_length_iff.mpr hall]
      exact hlen.ge

omit [Double R] in
/-- `SilentLookup` is a condition on the cleaned state. -/
theorem silentLookup_cleaned {st : Analyzer R} (hd : Distinct st) (src : UInt32) (now : Int) :
    SilentLookup st src now ↔
      (st.cleaned now).isHome src ∨
        (∃ s, (st.cleaned now).record src = some s ∧ s.lastSeen = now) ∨
          ((st.cleaned now).record src = none ∧ MAX_SUSPECTS ≤ (st.cleaned now).suspects.count) := by
  have hstamped : (∃ s, (st.cleaned now).record src = some s ∧ s.lastSeen = now) ↔
      ∃ s, st.record src = some s ∧ s.lastSeen = now := by
    rw [cleaned_record hd]
    split
    · -- a record with the time of the call is alive
      refine exists_congr fun s => ?_
      rw [Option.filter_eq_some_iff]
      refine ⟨fun h => ⟨h.1.1, h.2⟩, fun h => ⟨⟨h.1, ?_⟩, h.2⟩⟩
      simp [Suspect.alive, h.2, difftime, INACTIVE_TIMEOUT]
    · rfl
  rw [SilentLookup, cleaned_isHome, hstamped, cleaned_full]
  refine or_congr_right (or_congr_right (and_congr_left fun h => ⟨fun hr => ?_, fun hr => ?_⟩))
  · rw [cleaned_record hd, hr]
    split <;> rfl
  · -- nothing was dropped, so the record is not one that the cleanup has dropped
    rw [cleaned_record hd] at hr
    split at hr
    · next hdue =>
      cases hrec : st.record src with
      | none => rfl
      | some s =>
        have halive := h.2 hdue s (List.mem_of_find?_eq_some hrec)
        simp [hrec, Option.filter_some, halive] at hr
    · exact hr

/-- A packet whose transport header is cut is ignored exactly when the lookup of its source
leaves no trace. -/
theorem ignores_short {st : Analyzer R} (hd : Distinct st) {c : Call}
    (hc : ShortTransport c.packet) :
    Ignores st c ↔ SilentLookup st (srcIpOf c.packet) c.now := by
  rw [ignores_iff, silentLookup_cleaned hd]
  simp only [processFrame, classify_complete hc.toCompleteIpv4, classifyTransport_short hc,
    Analyzer.processIp]
  cases hw : (st.cleaned c.now).working (srcIpOf c.packet) c.now with
  | none =>
    refine iff_of_true ⟨rfl, rfl, rfl, rfl⟩ ?_
    exact (working_eq_none.mp hw).imp_right Or.inr
  | some s =>
    have hsome : ¬ (st.cleaned c.now).working (srcIpOf c.packet) c.now = none := by simp [hw]
    obtain ⟨hhome, hroom⟩ := not_or.mp fun h => hsome (working_eq_none.mpr h)
    have hstored := store_same_iff hw
    simp only [hhome, hroom, or_false, false_or, Bool.false_eq_true]
    exact ⟨fun h => hstored.mp h.1, fun h => ⟨hstored.mpr h, rfl, rfl, rfl⟩⟩

/-- In every run, a malformed frame is ignored exactly when it is not a packet with a cut
TCP or UDP header whose source gets a record or a new time stamp from the lookup. -/
theorem malformed_ignored_iff {st0 st : Analyzer R} {tr : List (Seen R)}
    (hrun : Lts.Run analyzerLts (analyzerReset st0) tr st) :
    ∀ x ∈ tr, Malformed x.label.packet →
      (Ignores x.before x.label ↔
        (ShortTransport x.label.packet →
          SilentLookup x.before (srcIpOf x.label.packet) x.label.now)) := by
  intro x hx hbad
  obtain ⟨a, b, rfl⟩ := List.append_of_mem hx
  have hd := run_distinct hrun.around.1
  rcases classify_malformed hbad with hignored | hshort
  · have hnot : ¬ ShortTransport x.label.packet := fun h => by
      rw [classify_complete h.toCompleteIpv4] at hignored
      cases hignored
    refine iff_of_true ((ignores_iff _ _).mpr ?_) fun h => absurd h hnot
    simp [processFrame, hignored, Outcome.quiet]
  · rw [ignores_short hd hshort]
    exact ⟨fun h _ => h, fun h => h hshort⟩

/-- A SYN packet of 1.2.3.4 that is cut after its ports. -/
def shortSyn (now : Int) : Call := ⟨ipv4Frame 6 [1, 2, 3, 4] [0, 80, 0, 22], now⟩

theorem shortSyn_short (now : Int) : ShortTransport (shortSyn now).packet where
  header := show 34 ≤ 38 by decide
  etherType := show be16 0x08 0x00 = 0x0800 by decide
  ihl := show 20 ≤ ipv4Hlen 0x45 by decide
  inside := show 14 + ipv4Hlen 0x45 ≤ 38 by decide
  cut := .inl ⟨rfl, show 38 - 14 - ipv4Hlen 0x45 < 20 by decide⟩

/-- The second cut SYN of one second changes nothing any more. -/
theorem malformed_ignored_iff_twice :
    Ignores (afterCalls (.initial : Analyzer ℝ) [shortSyn 7]) (shortSyn 7) := by
  have hrun : Lts.Run analyzerLts (analyzerReset .initial)
      (observe (.initial : Analyzer ℝ) [shortSyn 7, shortSyn 7]) _ := observe_run .initial _
  refine (malformed_ignored_iff hrun _ (List.mem_cons_of_mem _ (List.mem_cons_self ..))
    (.transport (shortSyn_short 7))).mpr fun _ => .inr (.inl ?_)
  have hseen : ((afterCalls (.initial : Analyzer ℝ) [shortSyn 7]).record 0x04030201).map
      (·.lastSeen) = some 7 := by decide +kernel
  exact Option.map_eq_some_iff.mp hseen

/-- A cut SYN of an unknown source takes a slot of the table. -/
theorem short_syn_tracked :
    Lts.Reachable analyzerLts (.initial : Analyzer ℝ) ∧ Malformed (shortSyn 7).packet ∧
      ¬ Ignores (.initial : Analyzer ℝ) (shortSyn 7) := by
  refine ⟨⟨.initial, [], ⟨.initial, rfl⟩, .nil⟩, .transport (shortSyn_short 7), fun h => ?_⟩
  have hsame := congrArg Slots.count ((ignores_iff _ _).mp h).1
  revert hsame
  decide +kernel

end TrafficAnalyzer
