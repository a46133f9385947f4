import TrafficAnalyzer.Agent.Correlation
import TrafficAnalyzer.Agent.Soundness

/-!
# Reflectors

A DNS reflector answers small requests with large responses. The requests are addressed to
it and its responses carry its address as the source, so the two are packets of different
sources. The analyzer counts both under the source of the packet: the request bytes in the
record of a server are those of the requests that the server itself has sent.

* `arrivals_stay`: the packets of a source that is never evicted are those of its record.
* `amplification_iff`: when the documented rule is kept at a response.
* `amplification_missed`: a reflector that is not reported.
-/

namespace TrafficAnalyzer

variable {R : Type} [Double R]

/-! ## Bytes -/

/-- A DNS response sent from port 53. -/
def Arrival.sendsReply (a : Arrival R) : Bool :=
  match a.body with
  | .udp srcPort _ payload => srcPort = 53 && isReply payload
  | _ => false

/-- The captured bytes of the DNS responses among the packets of a source. -/
def repliesSent (as : List (Arrival R)) : Nat := bytesOf (·.sendsReply) as

/-- The destination address of an IPv4 packet. -/
def destIp (p : Bytes) : UInt32 := dwordAt p (NTA_ETH_HLEN + 16)

/-- The packet is a DNS request addressed to `ip`. -/
def asks (ip : UInt32) (p : Bytes) : Bool :=
  match classify p with
  | .ipv4 _ (.udp _ dstPort payload) => dstPort = 53 && isQuery payload && destIp p = ip
  | _ => false

/-- The captured bytes of the DNS requests addressed to `ip`. -/
def requestsTo (ip : UInt32) (tr : List (Seen R)) : Nat :=
  ((tr.filter fun x => asks ip x.label.packet).map (·.label.packet.length)).sum

/-- The documented rule: the responses of `ip` exceed ten times the requests to it, and
these are at least 100 bytes. -/
def Amplifies (ip : UInt32) (tr : List (Seen R)) : Prop :=
  100 ≤ requestsTo ip tr ∧ 10 * requestsTo ip tr < repliesSent (arrivals ip tr)

/-! ## The byte counters of a record -/

omit [Double R] in
theorem toNat_count {n : UInt64} {k : Nat} (h : n.toNat = k % 2 ^ 64) (b : Bool) (m : Nat) :
    (if b then n + UInt64.ofNat m else n).toNat = (k + if b then m else 0) % 2 ^ 64 := by
  cases b with
  | true =>
    simp only [↓reduceIte, UInt64.toNat_add, UInt64.toNat_ofNat', h, Nat.add_mod_mod,
      Nat.mod_add_mod]
  | false => simpa using h

/-- The request and response bytes of a record are those of its packets, modulo 2^64. -/
theorem history_bytes {ip : UInt32} {as : List (Arrival R)} {s : Suspect R}
    (h : History ip as s) :
    s.dnsReqBytes.toNat = requestBytes as % 2 ^ 64 ∧
      s.dnsRespBytes.toNat = responseBytes as % 2 ^ 64 := by
  have hstep : ∀ (as : List (Arrival R)) {a : Arrival R},
      a.record.dnsReqBytes.toNat = requestBytes as % 2 ^ 64 →
      a.record.dnsRespBytes.toNat = responseBytes as % 2 ^ 64 →
      a.result.1.dnsReqBytes.toNat = requestBytes (as ++ [a]) % 2 ^ 64 ∧
        a.result.1.dnsRespBytes.toNat = responseBytes (as ++ [a]) % 2 ^ 64 := by
    intro as a hreq hresp
    rw [result_tracked]
    refine ⟨?_, ?_⟩
    · rw [requestBytes, bytesOf_snoc]
      exact tracked_dnsReqBytes a ▸ toNat_count hreq _ _
    · rw [responseBytes, bytesOf_snoc]
      exact tracked_dnsRespBytes a ▸ toNat_count hresp _ _
  induction h with
  | @first a hfresh => exact hstep [] (by rw [hfresh]; rfl) (by rw [hfresh]; rfl)
  | @next as s a _ ha ih => exact hstep as (by rw [ha]; exact ih.1) (by rw [ha]; exact ih.2)

/-! ## A source that stays tracked -/

/-- While the record of `ip` is never evicted, it has been there since the first packet. -/
theorem arrivals_stay {st0 st : Analyzer R} {tr : List (Seen R)} {ip : UInt32}
    (h : Lts.Run analyzerLts (analyzerReset st0) tr st) (hstay : ∀ y ∈ tr, ¬ Evicts ip y) :
    arrivals ip (epoch ip tr) = arrivals ip tr ∧ (st.record ip = none → arrivals ip tr = []) := by
  induction h with
  | nil => exact ⟨rfl, fun _ => rfl⟩
  | @snoc tr st st' c hr hstep ih =>
    obtain ⟨hsame, hnone⟩ := ih fun y hy => hstay y (List.mem_append_left _ hy)
    have hkept : ¬ Evicts ip (⟨st, c, st'⟩ : Seen R) := hstay _ (by simp)
    have hclean : (st.cleaned c.now).record ip = none → arrivals ip tr = [] := fun hno => by
      refine hnone (Option.eq_none_iff_forall_ne_some.mpr fun s hs => ?_)
      have hsome := (cleaned_record_iff (x := ⟨st, c, st'⟩) (run_distinct hr)).mpr ⟨hs, hkept⟩
      rw [hno] at hsome
      cases hsome
    rw [epoch_snoc, arrivals_snoc]
    refine ⟨?_, fun hno => ?_⟩
    · split
      · next hfirst =>
        have hnil := hclean (Option.isNone_iff_eq_none.mp hfirst)
        rw [hnil, ← List.nil_append [_], arrivals_snoc]
        rfl
      · rw [arrivals_snoc, hsame]
    · rw [analyzerLts_step] at hstep
      rw [← hstep, processFrame_record] at hno
      cases harr : st.arrival ip c with
      | some a =>
        rw [harr] at hno
        cases hno
      | none =>
        rw [harr] at hno
        simp [hclean hno]

/-! ## Reports -/

theorem reply_not_query {payload : Bytes} (h : isReply payload = true) :
    isQuery payload = false := by
  unfold isReply at h
  unfold isQuery
  cases hres : isResponse payload with
  | true => simp
  | false => simp [hres] at h

/-- A DNS response is reported exactly when the counters it leaves are in the ratio. -/
theorem reply_attack {a : Arrival R} {srcPort dstPort : UInt16} {payload : Bytes}
    (hbody : a.body = .udp srcPort dstPort payload) (hports : isDnsPorts srcPort dstPort = true)
    (hreply : isReply payload = true) :
    a.attack = some .amplification ↔ 100 ≤ a.tracked.dnsReqBytes.toNat ∧
      10 * a.tracked.dnsReqBytes.toNat % 2 ^ 64 < a.tracked.dnsRespBytes.toNat := by
  have hatk : a.attack = if a.tracked.dnsReqBytes < 100 then none
      else if a.tracked.dnsReqBytes * AMPLIFICATION_RATIO < a.tracked.dnsRespBytes then
        some .amplification
      else none := by
    simp only [Arrival.attack, Arrival.tracked, hbody, detectStep, hports, ↓reduceIte,
      dnsStep_attack, hreply, detectAmplification_attack]
    simp only [detectAmplification_record, dnsStep_record, hreply, reply_not_query hreply,
      Bool.false_and, Bool.false_eq_true, ↓reduceIte]
  have h10 : AMPLIFICATION_RATIO.toNat = 10 := rfl
  have h100 : (100 : UInt64).toNat = 100 := rfl
  have hmin : a.tracked.dnsReqBytes < 100 ↔ ¬ 100 ≤ a.tracked.dnsReqBytes.toNat := by
    rw [UInt64.lt_iff_toNat_lt, h100, Nat.not_le]
  have hratio : a.tracked.dnsReqBytes * AMPLIFICATION_RATIO < a.tracked.dnsRespBytes ↔
      10 * a.tracked.dnsReqBytes.toNat % 2 ^ 64 < a.tracked.dnsRespBytes.toNat := by
    rw [UInt64.lt_iff_toNat_lt, UInt64.toNat_mul, h10, Nat.mul_comm]
  rw [hatk, Option.ite_none_left_eq_some, Option.ite_none_right_eq_some, hmin, hratio, not_not]
  exact and_congr_right fun _ => and_iff_left rfl

/-- At a DNS response of a source that stays tracked, the documented rule is kept exactly
when the documented ratio is not exceeded, or the source has itself sent 100 bytes of plain
DNS requests and the responses counted for it exceed ten times these bytes, in 64-bit
sums. -/
theorem amplification_iff {st0 st : Analyzer R} {tr : List (Seen R)} {x : Seen R} {ip : UInt32}
    {dstPort : UInt16} {payload : Bytes} {a : Arrival R}
    (h : Lts.Run analyzerLts (analyzerReset st0) (tr ++ [x]) st)
    (hstay : ∀ y ∈ tr ++ [x], ¬ Evicts ip y) (harr : x.before.arrival ip x.label = some a)
    (hbody : a.body = .udp 53 dstPort payload) (hreply : isReply payload = true) :
    (Amplifies ip (tr ++ [x]) → Reports x .amplification) ↔
      (Amplifies ip (tr ++ [x]) → 100 ≤ requestBytes (arrivals ip (tr ++ [x])) % 2 ^ 64 ∧
        10 * (requestBytes (arrivals ip (tr ++ [x])) % 2 ^ 64) % 2 ^ 64 <
          responseBytes (arrivals ip (tr ++ [x])) % 2 ^ 64) := by
  obtain ⟨rfl, -, hstep⟩ := h.snoc_inv
  obtain ⟨hreq, hresp⟩ := history_bytes (run_history h (record_of_arrival hstep harr))
  rw [(arrivals_stay h hstay).1] at hreq hresp
  have hports : isDnsPorts 53 dstPort = true := by simp [isDnsPorts]
  rw [reports_arrival hstep harr, reply_attack hbody hports hreply, ← hreq, ← hresp, result_tracked]
  rfl

/-! ## A reflector -/

/-- The server 8.8.8.8. -/
def reflectorIp : UInt32 := 0x08080808

def dnsFrame (src dst : Bytes) (srcPort dstPort : UInt8) (payload : Bytes) : Bytes :=
  List.replicate 12 0 ++ [0x08, 0x00, 0x45, 0, 0, 0, 0, 0, 0, 0, 64, 17, 0, 0] ++ src ++ dst ++
    [0, srcPort, 0, dstPort, 0, 0, 0, 0] ++ payload

/-- A request of 54 bytes, and a response of 1245 bytes. -/
def dnsRequest (src dst : Bytes) : Call := ⟨dnsFrame src dst 200 53 (List.replicate 12 0), 1000⟩
def reflectedPayload : Bytes := [0, 0, 0x80] ++ List.replicate 1200 0
def dnsResponse (src dst : Bytes) : Call := ⟨dnsFrame src dst 53 200 reflectedPayload, 1000⟩

theorem reflectedPayload_reply : isReply reflectedPayload = true := by decide +kernel

/-- Two requests to the server and its response to one of them. -/
def reflectedCalls : List Call :=
  [dnsRequest [1, 2, 3, 4] [8, 8, 8, 8], dnsRequest [1, 2, 3, 4] [8, 8, 8, 8],
    dnsResponse [8, 8, 8, 8] [1, 2, 3, 4]]

/-- The server resolves the requests at another server before it answers. -/
def resolvedCalls : List Call :=
  [dnsRequest [8, 8, 8, 8] [9, 9, 9, 9], dnsRequest [8, 8, 8, 8] [9, 9, 9, 9]] ++ reflectedCalls

instance (ip : UInt32) (x : Seen R) : Decidable (Evicts ip x) :=
  decidable_of_iff (x.before.due x.label.now = true ∧
    ∃ s ∈ x.before.record ip, s.alive x.label.now = false) (by simp [Evicts])

instance (ip : UInt32) (tr : List (Seen R)) : Decidable (Amplifies ip tr) :=
  inferInstanceAs (Decidable (_ ∧ _))

/-- A run over the calls `cs` in which the server is never evicted and sends more than the
documented rule allows, and whose last packet is the response to 1.2.3.4. -/
structure Reflected (cs : List Call) (tr : List (Seen ℝ)) (x : Seen ℝ) (a : Arrival ℝ) : Prop where
  run : Lts.Run analyzerLts (analyzerReset .initial) (tr ++ [x]) x.after
  labels : (tr ++ [x]).map (·.label) = cs
  stays : ∀ y ∈ tr ++ [x], ¬ Evicts reflectorIp y
  amplifies : Amplifies reflectorIp (tr ++ [x])
  arrival : x.before.arrival reflectorIp x.label = some a
  body : a.body = .udp 53 200 reflectedPayload

theorem reflected_of_exec {β : Type} {g : List (Seen ℝ) → Arrival ℝ → β} {v : β} (cs : List Call)
    (h : (analyzerLts.exec (analyzerReset .initial) cs).map (fun r => r.1.getLast?.map fun x =>
      ((decide (∀ y ∈ r.1, ¬ Evicts reflectorIp y) && decide (Amplifies reflectorIp r.1)),
        (x.before.arrival reflectorIp x.label).map fun a => (a.body, g r.1 a))) =
      some (some (true, some (.udp 53 200 reflectedPayload, v)))) :
    ∃ tr x a, Reflected cs tr x a ∧ g (tr ++ [x]) a = v := by
  obtain ⟨tr, x, hrun, hlabels, hval⟩ := Lts.run_of_exec_snoc (f := fun tr x =>
    ((decide (∀ y ∈ tr, ¬ Evicts reflectorIp y) && decide (Amplifies reflectorIp tr)),
      (x.before.arrival reflectorIp x.label).map fun a => (a.body, g tr a))) h
  obtain ⟨hchecks, harr⟩ := Prod.mk.inj hval
  obtain ⟨hstays, hamp⟩ := Bool.and_eq_true_iff.mp hchecks
  obtain ⟨a, ha, hread⟩ := Option.map_eq_some_iff.mp harr
  obtain ⟨hbody, hv⟩ := Prod.mk.inj hread
  exact ⟨tr, x, a, ⟨hrun, hlabels, of_decide_eq_true hstays, of_decide_eq_true hamp, ha, hbody⟩, hv⟩

/-- The server has sent requests itself: its response is reported. -/
theorem amplification_iff_resolved :
    ∃ tr x a, Reflected resolvedCalls tr x a ∧ Reports x .amplification := by
  obtain ⟨tr, x, a, hr, hbytes⟩ := reflected_of_exec resolvedCalls (v := (108, 1245))
    (g := fun tr _ => (requestBytes (arrivals reflectorIp tr),
      responseBytes (arrivals reflectorIp tr))) (by decide +kernel)
  obtain ⟨hreq, hresp⟩ := Prod.mk.inj hbytes
  refine ⟨tr, x, a, hr, ?_⟩
  refine (amplification_iff hr.run hr.stays hr.arrival hr.body reflectedPayload_reply).mpr
    (fun _ => ?_) hr.amplifies
  rw [hreq, hresp]
  decide

/-- The server has sent no request: no record relates the requests to its response. -/
theorem amplification_missed :
    ∃ tr x a, Reflected reflectedCalls tr x a ∧ isReply reflectedPayload = true ∧
      ¬ Reports x .amplification := by
  obtain ⟨tr, x, a, hr, hattack⟩ := reflected_of_exec reflectedCalls (v := none)
    (g := fun _ a => a.attack) (by decide +kernel)
  refine ⟨tr, x, a, hr, reflectedPayload_reply, ?_⟩
  rw [reports_arrival hr.run.snoc_inv.2.2 hr.arrival, hattack]
  exact fun h => by cases h

end TrafficAnalyzer
