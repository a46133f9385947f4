import Mathlib.Data.List.DropRight
import TrafficAnalyzer.Lib.WrapCount
import TrafficAnalyzer.Agent.Soundness

/-!
# What a baseline window counts

`windowOf as` are the packets of the current baseline window of a source: the well-formed
ones after the packet that closed the window before. The record counts these packets, the
DNS packets among them, and the TCP packets whose port is not on the record's list
(`history_tracks`). The list belongs to the port scan detector: it is never cleared with
the window, it holds 15 ports at most, and it is filled only by packets on which no other
detector alerts.

* `windows_account_iff`: when the three counters are the numbers of packets, of DNS packets
  and of distinct ports.
* `ports_uncounted`: a port that an earlier window has seen is not counted.
-/

namespace TrafficAnalyzer

variable {R : Type} [Double R]

/-! ## The current window -/

/-- A well-formed ICMP, TCP or UDP packet. -/
def Arrival.wellFormed (a : Arrival R) : Bool := a.body.publishes.isSome

/-- A UDP packet with a DNS port. -/
def Arrival.isDns (a : Arrival R) : Bool := a.body.isDns fun _ => true

/-- A TCP packet whose port is not on the list of the record. -/
def Arrival.newPort (a : Arrival R) : Bool :=
  a.body.isTcp fun dstPort _ => dstPort ∉ a.record.ports.used

/-- The packets of the current window. -/
def windowOf (as : List (Arrival R)) : List (Arrival R) :=
  (as.rtakeWhile fun a => !a.closes).filter (·.wellFormed)

omit [Double R] in
theorem windowOf_snoc (as : List (Arrival R)) (a : Arrival R) :
    windowOf (as ++ [a]) =
      if a.closes then [] else if a.wellFormed then windowOf as ++ [a] else windowOf as := by
  unfold windowOf
  rw [List.rtakeWhile_concat]
  cases a.closes with
  | true => rfl
  | false =>
    rw [Bool.not_false, if_pos rfl, List.filter_append]
    cases h : a.wellFormed <;> simp [h]

/-- The baseline after a packet. -/
theorem tracked_baseline (a : Arrival R) :
    a.tracked.baseline =
      if a.wellFormed then updateBaseline a.record.baseline a.newPort a.isDns a.now
      else a.record.baseline := by
  unfold Arrival.tracked Arrival.wellFormed Arrival.newPort Arrival.isDns
  cases a.body with
  | icmp => rfl
  | tcp dstPort flags => simp [detectStep, tcpStep_record, withBaseline, Transport.publishes,
      Transport.isTcp, Transport.isDns]
  | udp srcPort dstPort payload =>
    simp only [detectStep, Transport.publishes, Transport.isTcp, Transport.isDns, Bool.and_true]
    split <;> simp [dnsStep_record, withBaseline]
  | other => rfl

/-! ## The counters of the record -/

/-- The counters of the window: the packets, the DNS packets, and the TCP packets with a
port that is not on the list. -/
structure WindowTrack (w : List (Arrival R)) (b : IpBaseline R) : Prop where
  packets : b.pktInWindow = wrap32 w.length
  dns : b.dnsInWindow = wrap32 (w.countP (·.isDns))
  ports : b.portsInWindow = wrap32 (w.countP (·.newPort))

omit [Double R] in
theorem tracks_empty {b : IpBaseline R} (hpkt : b.pktInWindow = 0) (hdns : b.dnsInWindow = 0)
    (hports : b.portsInWindow = 0) : WindowTrack [] b :=
  ⟨hpkt.trans WrapCount.wrap32_zero.symm, hdns.trans WrapCount.wrap32_zero.symm,
    hports.trans WrapCount.wrap32_zero.symm⟩

omit [Double R] in
/-- A counter of the window and one more packet. -/
theorem countP_tick (p : Arrival R → Bool) (w : List (Arrival R)) (a : Arrival R) {n : Int}
    (h : n = wrap32 (w.countP p)) :
    (if p a then inc32 n else n) = wrap32 ((w ++ [a]).countP p) := by
  rw [List.countP_append, List.countP_singleton, h]
  split
  · rw [WrapCount.wrap32_succ]
    rfl
  · rfl

/-- What one packet does to the counters of the window. -/
theorem WindowTrack.step {as : List (Arrival R)} {a : Arrival R}
    (h : WindowTrack (windowOf as) a.record.baseline) :
    WindowTrack (windowOf (as ++ [a])) a.tracked.baseline := by
  rw [windowOf_snoc, tracked_baseline]
  cases hwell : a.wellFormed with
  | false =>
    have hopen : a.closes = false := by
      rw [Arrival.closes, show a.body.publishes.isSome = false from hwell, Bool.false_and]
    simpa [hopen] using h
  | true =>
    have hcloses : a.closes = a.record.baseline.windowExpired a.now := by
      rw [Arrival.closes, show a.body.publishes.isSome = true from hwell, Bool.true_and]
    cases hexp : a.record.baseline.windowExpired a.now with
    | true =>
      simp only [hcloses, hexp, ↓reduceIte, updateBaseline_expired _ _ hexp]
      exact tracks_empty rfl rfl rfl
    | false =>
      simp only [hcloses, hexp, ↓reduceIte, Bool.false_eq_true, updateBaseline_open _ _ hexp]
      refine ⟨?_, countP_tick _ _ a h.dns, countP_tick _ _ a h.ports⟩
      rw [IpBaseline.tick, h.packets, WrapCount.wrap32_succ, List.length_append]
      rfl

theorem history_tracks {ip : UInt32} {as : List (Arrival R)} {s : Suspect R}
    (h : History ip as s) : WindowTrack (windowOf as) s.baseline := by
  induction h with
  | @first a hfresh =>
    rw [result_tracked]
    refine @WindowTrack.step R _ [] a ?_
    rw [hfresh]
    exact tracks_empty rfl rfl rfl
  | @next as s a _ ha ih =>
    rw [result_tracked]
    refine WindowTrack.step ?_
    rw [ha]
    exact ih

/-! ## The documented counts -/

/-- The counters are the numbers of packets, of DNS packets and of distinct ports. -/
structure Accounts (w : List (Arrival R)) (b : IpBaseline R) : Prop where
  packets : b.pktInWindow = w.length
  dns : b.dnsInWindow = w.countP (·.isDns)
  ports : b.portsInWindow = (scannedPorts w).length

instance (w : List (Arrival R)) (b : IpBaseline R) : Decidable (Accounts w b) :=
  decidable_of_iff
    (b.pktInWindow = w.length ∧ b.dnsInWindow = w.countP (·.isDns) ∧
      b.portsInWindow = (scannedPorts w).length)
    ⟨fun h => ⟨h.1, h.2.1, h.2.2⟩, fun h => ⟨h.1, h.2, h.3⟩⟩

/-- A packet of the window `w` that is counted once: the counter does not wrap, and the list
has the port of the packet exactly when the window does. -/
def CountsOnce (w : List (Arrival R)) (a : Arrival R) : Prop :=
  a.wellFormed = true → a.closes = false → w.length + 1 < 2 ^ 31 ∧
    ∀ port, a.body.tcpPort = some port → (port ∈ a.record.ports.used ↔ port ∈ scannedPorts w)

omit [Double R] in
/-- A window with a packet more has one more port, or no port more. -/
theorem length_scannedPorts_snoc (w : List (Arrival R)) (a : Arrival R) :
    (scannedPorts (w ++ [a])).length =
      match a.body.tcpPort with
      | none => (scannedPorts w).length
      | some port =>
        if port ∈ scannedPorts w then (scannedPorts w).length else (scannedPorts w).length + 1 := by
  unfold scannedPorts
  rw [List.filterMap_append]
  cases hport : a.body.tcpPort with
  | none => simp [hport]
  | some port =>
    have hone : [a].filterMap (·.body.tcpPort) = [port] := by simp [hport]
    rw [hone, (List.perm_append_singleton port _).dedup.length_eq, List.dedup_cons]
    simp only [List.mem_dedup]
    split <;> rfl

omit [Double R] in
theorem length_scannedPorts_le (w : List (Arrival R)) : (scannedPorts w).length ≤ w.length :=
  (List.dedup_sublist _).length_le.trans (List.length_filterMap_le _ _)

omit [Double R] in
theorem newPort_iff (a : Arrival R) :
    a.newPort = true ↔ ∃ port, a.body.tcpPort = some port ∧ port ∉ a.record.ports.used := by
  unfold Arrival.newPort
  cases a.body <;> simp [Transport.isTcp, Transport.tcpPort]

omit [Double R] in
theorem accounts_nil {b : IpBaseline R} (hpkt : b.pktInWindow = 0) (hdns : b.dnsInWindow = 0)
    (hports : b.portsInWindow = 0) : Accounts [] b :=
  ⟨hpkt, hdns, hports⟩

omit [Double R] in
/-- The port counter of an open window stays right exactly when the list decides as the
window does. -/
theorem ports_tick_iff {w : List (Arrival R)} {a : Arrival R} {n : Int}
    (hn : n = (scannedPorts w).length) (hlen : w.length + 1 < 2 ^ 31) :
    (if a.newPort then inc32 n else n) = (scannedPorts (w ++ [a])).length ↔
      ∀ port, a.body.tcpPort = some port →
        (port ∈ a.record.ports.used ↔ port ∈ scannedPorts w) := by
  have hle := length_scannedPorts_le w
  have hinc : inc32 n = n + 1 := by
    rw [hn]
    exact inc32_of_bounds (Int.natCast_nonneg _) (by omega)
  rw [length_scannedPorts_snoc, hinc, hn]
  cases hport : a.body.tcpPort with
  | none =>
    have hnew : ¬ a.newPort = true := by simp [newPort_iff, hport]
    simp [hnew]
  | some port =>
    have hnew : a.newPort = true ↔ port ∉ a.record.ports.used := by simp [newPort_iff, hport]
    simp only [hnew, Option.some.injEq, forall_eq']
    by_cases hlist : port ∈ a.record.ports.used <;>
      by_cases hwindow : port ∈ scannedPorts w <;> simp [hlist, hwindow]

/-- What one packet does to counters that are right: they stay right exactly when the packet
is counted once. -/
theorem accounts_step_iff {as : List (Arrival R)} {a : Arrival R}
    (h : Accounts (windowOf as) a.record.baseline) :
    Accounts (windowOf (as ++ [a])) a.tracked.baseline ↔ CountsOnce (windowOf as) a := by
  rw [windowOf_snoc, tracked_baseline]
  unfold CountsOnce
  cases hwell : a.wellFormed with
  | false =>
    have hopen : a.closes = false := by
      rw [Arrival.closes, show a.body.publishes.isSome = false from hwell, Bool.false_and]
    simpa [hopen] using h
  | true =>
    have hcloses : a.closes = a.record.baseline.windowExpired a.now := by
      rw [Arrival.closes, show a.body.publishes.isSome = true from hwell, Bool.true_and]
    cases hexp : a.record.baseline.windowExpired a.now with
    | true =>
      simp only [hcloses, hexp, ↓reduceIte, updateBaseline_expired _ _ hexp, reduceCtorEq,
        IsEmpty.forall_iff, implies_true, iff_true]
      exact accounts_nil rfl rfl rfl
    | false =>
      simp only [hcloses, hexp, ↓reduceIte, updateBaseline_open _ _ hexp, Bool.false_eq_true,
        forall_const]
      constructor
      · rintro ⟨hpkt, -, hports⟩
        have hlen : (windowOf as).length + 1 < 2 ^ 31 := by
          rw [List.length_append, List.length_singleton] at hpkt
          replace hpkt : inc32 a.record.baseline.pktInWindow = _ := hpkt
          rw [h.packets, inc32, wrap32] at hpkt
          omega
        exact ⟨hlen, (ports_tick_iff h.ports hlen).mp hports⟩
      · rintro ⟨hlen, hports⟩
        refine ⟨?_, ?_, (ports_tick_iff h.ports hlen).mpr hports⟩
        · rw [IpBaseline.tick, h.packets, List.length_append, List.length_singleton]
          exact inc32_of_bounds (Int.natCast_nonneg _) (by omega)
        · have hle := List.countP_le_length (p := (·.isDns)) (l := windowOf as)
          simp only [IpBaseline.tick, h.dns]
          rw [List.countP_append, List.countP_singleton]
          split
          · exact inc32_of_bounds (Int.natCast_nonneg _) (by omega)
          · rfl

section Account

variable {st0 st : Analyzer R} {tr : List (Seen R)} {ip : UInt32}

/-- The record of `ip` after the call `x`, with the calls `pre` before it, accounts for its
window. -/
def AccountsAfter (ip : UInt32) (pre : List (Seen R)) (x : Seen R) : Prop :=
  ∀ s ∈ x.after.record ip, Accounts (windowOf (arrivals ip (epoch ip (pre ++ [x])))) s.baseline

/-- The call `x`, with the calls `pre` before it, is no packet of `ip` or one that is counted
once; `as` are the earlier packets of the record. -/
def CountsOnceAfter (ip : UInt32) (pre : List (Seen R)) (x : Seen R) : Prop :=
  ∀ as a, x.before.arrival ip x.label = some a → arrivals ip (epoch ip (pre ++ [x])) = as ++ [a] →
    CountsOnce (windowOf as) a

/-- The record that a run leaves, when every call has accounted for it. -/
theorem accounts_last {s : Suspect R} (h : Lts.Run analyzerLts (analyzerReset st0) tr st)
    (hall : ∀ pre x post, tr = pre ++ x :: post → AccountsAfter ip pre x)
    (hs : st.record ip = some s) : Accounts (windowOf (arrivals ip (epoch ip tr))) s.baseline := by
  rcases List.eq_nil_or_concat tr with rfl | ⟨pre, x, rfl⟩
  · obtain rfl := h.nil_inv
    cases hs
  · rw [List.concat_eq_append] at *
    obtain ⟨rfl, -, -⟩ := h.snoc_inv
    exact hall pre x [] rfl s hs

/-- In every run, the counters of the record of `ip` are right after every call exactly when
every packet of `ip` is counted once. -/
theorem windows_account_iff (h : Lts.Run analyzerLts (analyzerReset st0) tr st) :
    (∀ pre x post, tr = pre ++ x :: post → AccountsAfter ip pre x) ↔
      ∀ pre x post, tr = pre ++ x :: post → CountsOnceAfter ip pre x := by
  refine h.forall_split_iff fun pre x hpre hx hall => ?_
  have hd := run_distinct hpre
  have hlast : ∀ s, x.before.record ip = some s →
      Accounts (windowOf (arrivals ip (epoch ip pre))) s.baseline :=
    fun s hs => accounts_last hpre hall hs
  cases harr : x.before.arrival ip x.label with
  | none =>
    refine iff_of_true (fun s hs => ?_) (fun as a ha => absurd (harr.symm.trans ha) nofun)
    obtain ⟨hs0, hsame⟩ := epoch_other pre hd hx harr hs
    rw [hsame]
    exact hlast s hs0
  | some a =>
    obtain ⟨as, has, hfound⟩ := epoch_arrival pre hd harr
    have hbefore : Accounts (windowOf as) a.record.baseline := by
      rcases hfound with ⟨rfl, hfresh⟩ | ⟨rfl, s, hs, ha⟩
      · rw [hfresh]
        exact accounts_nil rfl rfl rfl
      · rw [ha]
        exact hlast s hs
    have hafter : AccountsAfter ip pre x ↔
        Accounts (windowOf (as ++ [a])) a.tracked.baseline := by
      rw [AccountsAfter, record_of_arrival hx harr, has]
      simp only [Option.mem_def, Option.some.injEq, forall_eq']
      rw [result_tracked]
      exact Iff.rfl
    rw [hafter, accounts_step_iff hbefore]
    constructor
    · intro hcount as' a' ha' has'
      obtain ⟨rfl, hlast⟩ := List.append_inj' (has.symm.trans has') rfl
      exact List.singleton_inj.mp hlast ▸ hcount
    · exact fun hcount => hcount as a harr has

end Account

/-! ## A port of an earlier window -/

/-- 1.2.3.4 sends to its port 80 at the times `ts`. -/
def webCalls (ts : List Int) : List Call := ts.map fun t => ⟨tcpFrame [1, 2, 3, 4] 80 0x10, t⟩

def webRun (ts : List Int) : List (Seen R) := observe .initial (webCalls ts)

theorem webRun_snoc (ts : List Int) (t : Int) :
    (webRun (ts ++ [t]) : List (Seen R)) =
      webRun ts ++ [⟨afterCalls .initial (webCalls ts), ⟨tcpFrame [1, 2, 3, 4] 80 0x10, t⟩,
        afterCalls .initial (webCalls (ts ++ [t]))⟩] := by
  simp only [webRun, webCalls, List.map_append, List.map_singleton, observe_concat]

/-- The two packets of the first window are counted once. -/
theorem windows_account_iff_first :
    Lts.Run analyzerLts (analyzerReset (.initial : Analyzer ℝ)) (webRun [1000, 1001])
        (afterCalls .initial (webCalls [1000, 1001])) ∧
      ∀ pre x post, (webRun [1000, 1001] : List (Seen ℝ)) = pre ++ x :: post →
        CountsOnceAfter 0x04030201 pre x := by
  have hrun : Lts.Run analyzerLts (analyzerReset (.initial : Analyzer ℝ)) (webRun [1000, 1001])
      (afterCalls .initial (webCalls [1000, 1001])) := observe_run .initial _
  refine ⟨hrun, (windows_account_iff hrun).mp ?_⟩
  rw [show [1000, 1001] = ([] ++ [(1000 : Int)]) ++ [1001] from rfl, webRun_snoc, webRun_snoc,
    Lts.forall_split_snoc, Lts.forall_split_snoc]
  refine ⟨⟨fun pre x post he => absurd he (by simp [webRun, webCalls, observe]), ?_⟩, ?_⟩
  · unfold AccountsAfter
    decide +kernel
  · unfold AccountsAfter
    decide +kernel

/-- The port 80 is on the list when the second window begins, and its packet of that window
is not counted as a port. -/
theorem ports_uncounted :
    Lts.Run analyzerLts (analyzerReset (.initial : Analyzer ℝ)) (webRun [1000, 1060, 1061])
        (afterCalls .initial (webCalls [1000, 1060, 1061])) ∧
      (webCalls [1000, 1060, 1061]).Pairwise (·.now ≤ ·.now) ∧
      ∃ s ∈ (afterCalls (.initial : Analyzer ℝ) (webCalls [1000, 1060, 1061])).record 0x04030201,
        ¬ Accounts (windowOf (arrivals 0x04030201
          (epoch 0x04030201 (webRun [1000, 1060, 1061])))) s.baseline :=
  ⟨observe_run .initial _, by decide, by decide +kernel⟩

end TrafficAnalyzer
