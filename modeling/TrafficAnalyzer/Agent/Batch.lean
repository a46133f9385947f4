import TrafficAnalyzer.Agent.Agreement
import TrafficAnalyzer.Agent.Incidents
import TrafficAnalyzer.Agent.Publication
import TrafficAnalyzer.Cjson.RoundTrip

/-!
# The message of a batch (`publisher_send_batch`)

A batch leaves the agent as one JSON array with an object for each event.

* `sendBatch_parses`: the body of a message is parsed as the batch.
* `run_sendable`: every event of a batch that a run sends has short visible texts and small
  numbers.
* `sendBatch_sends`: such a batch is always sent.
-/

namespace TrafficAnalyzer

open Cjson CText Printf

/-! ## The source -/

/-- The object that `publisher_send_batch` builds of one event. -/
def EventSlot.json (e : EventSlot) : Json :=
  .object [
    (ascii "src_ip", .string (cString e.srcIp)),
    (ascii "port", .number (.ofInt e.port)),
    (ascii "proto", .string (cString e.proto)),
    (ascii "bytes", .number (.ofInt e.bytes)),
    (ascii "is_scan", .number (.ofInt (if e.isScan then 1 else 0))),
    (ascii "attack_type", .string (cString e.attackType)),
    (ascii "kill_chain_stage", .string (cString e.killChainStage)),
    (ascii "kc_score", .number (.ofInt e.kcScore)),
    (ascii "mitre", .string (cString e.mitre))]

def batchJson (batch : List EventSlot) : Json := .array (batch.map EventSlot.json)

/-- `publisher_send_batch`: the value it returns and the body that it hands to `publish_to`. `up`
is whether there is a connection at first, and `publishTo` whether `publish_to` returns 0. -/
def publisherSendBatch (up : Bool) (publishTo : Bytes → Bool) (batch : List EventSlot) :
    Option (Int × Option Bytes) :=
  if batch = [] then some (0, none)
  else if up then
    (cJSONPrintUnformatted (batchJson batch)).map fun msg =>
      match msg with
      | none => (-1, none)
      | some msg => (if publishTo (cString msg) then 0 else -1, some (cString msg))
  else some (-1, none)

/-! ## The body is the batch -/

/-- The numbers of a slot are of the type `int`. -/
structure EventSlot.Ints (e : EventSlot) : Prop where
  port : (e.port : Int) ≤ INT_MAX
  bytes : (e.bytes : Int) ≤ INT_MAX
  kcScore : INT_MIN ≤ e.kcScore ∧ e.kcScore ≤ INT_MAX

theorem exact_cString (s : Bytes) : Exact (.string (cString s)) := .string (cString_nul s)

theorem exact_nat {n : Nat} (h : (n : Int) ≤ INT_MAX) : Exact (.number (.ofInt n)) :=
  .number ((by decide : INT_MIN ≤ 0).trans (Int.natCast_nonneg n)) h

theorem EventSlot.Ints.exact {e : EventSlot} (h : e.Ints) : Exact e.json := by
  have hscan : Exact (.number (.ofInt (if e.isScan then 1 else 0))) := by
    cases e.isScan
    · exact exact_nat (by decide)
    · exact exact_nat (by decide)
  refine .object ?_ ?_
  · simp only [List.forall_mem_cons, List.not_mem_nil, false_implies, implies_true, and_true]
    decide
  · simp only [List.forall_mem_cons, List.not_mem_nil, false_implies, implies_true, and_true]
    exact ⟨exact_cString _, exact_nat h.port, exact_cString _, exact_nat h.bytes, hscan,
      exact_cString _, exact_cString _, .number h.kcScore.1 h.kcScore.2, exact_cString _⟩

theorem nesting_batchJson (batch : List EventSlot) : nesting (batchJson batch) ≤ 2 := by
  have hitems : nestingItems (batch.map EventSlot.json) ≤ 1 := by
    induction batch with
    | nil => exact Nat.zero_le _
    | cons e batch ih => exact Nat.max_le.mpr ⟨Nat.le_refl _, ih⟩
  exact Nat.succ_le_succ hitems

/-- The text of a batch. -/
def messageText (batch : List EventSlot) : Bytes := Cjson.render false 0 (batchJson batch)

/-- What `publisher_send_batch` hands to `publish_to` is the text of the batch, which fits a block
of `INT_MAX` bytes or is not sent. -/
theorem publisherSendBatch_eq {publishTo : Bytes → Bool} {batch : List EventSlot}
    (hne : batch ≠ []) :
    publisherSendBatch true publishTo batch =
      some (if (messageText batch).length + 2 ≤ INT_MAX.toNat then
        (if publishTo (messageText batch) then 0 else -1, some (messageText batch))
        else (-1, none)) := by
  rw [publisherSendBatch, if_neg hne, if_pos rfl, cJSONPrintUnformatted, print_eq, Option.map_some]
  by_cases hlen : (messageText batch).length + 2 ≤ INT_MAX.toNat
  · have hplain : cString (messageText batch) = messageText batch := cString_of_nul (render_ne _ 0)
    rw [if_pos hlen, ← messageText, if_pos hlen]
    dsimp only
    rw [hplain]
  · rw [if_neg hlen, ← messageText, if_neg hlen]

/-- A body that leaves the agent is parsed as the batch. -/
theorem sendBatch_parses {up : Bool} {publishTo : Bytes → Bool} {batch : List EventSlot} {rc : Int}
    {body : Bytes} (hints : ∀ e ∈ batch, e.Ints)
    (h : publisherSendBatch up publishTo batch = some (rc, some body)) :
    cJSONParseWithLength body = some (some (batchJson batch)) := by
  have hexact : Exact (batchJson batch) := by
    refine .array fun v hv => ?_
    obtain ⟨e, he, rfl⟩ := List.mem_map.mp hv
    exact (hints e he).exact
  by_cases hne : batch = []
  · rw [publisherSendBatch, if_pos hne] at h
    cases h
  cases up with
  | false =>
    rw [publisherSendBatch, if_neg hne] at h
    cases h
  | true =>
    rw [publisherSendBatch_eq hne] at h
    split at h
    · next hlen =>
      obtain ⟨-, rfl⟩ : _ ∧ messageText batch = body := by simpa using h
      have hprint : print false (batchJson batch) = some (some (messageText batch)) := by
        rw [print_eq]
        exact congrArg some (if_pos hlen)
      have hparse := parse_print false (batchJson batch) hprint (follow_nil _)
      rw [List.append_nil, if_pos ((nesting_batchJson batch).trans (by decide)),
        reread_exact hexact] at hparse
      exact hparse
    · cases h

/-! ## The length of the body -/

/-- The texts of a slot are not longer than its arrays. -/
structure EventSlot.Rooms (e : EventSlot) : Prop where
  srcIp : e.srcIp.length ≤ SRC_IP_ROOM
  proto : e.proto.length ≤ PROTO_ROOM
  attackType : e.attackType.length ≤ ATTACK_TYPE_ROOM
  killChainStage : e.killChainStage.length ≤ STAGE_ROOM
  mitre : e.mitre.length ≤ MITRE_ROOM

theorem length_quote_le (s : Bytes) : (quote s).length ≤ 6 * s.length + 2 := by
  have hcut : (cString s).length ≤ s.length := (List.takeWhile_prefix _).length_le
  have hescaped : ∀ t : Bytes, (t.flatMap escapeByte).length ≤ 6 * t.length := by
    intro t
    induction t with
    | nil => exact Nat.le_refl 0
    | cons c t ih =>
      have hbyte : (escapeByte c).length ≤ 6 := by
        rw [length_escapeByte]
        split
        · decide
        · split <;> decide
      rw [List.flatMap_cons, List.length_append, List.length_cons, Nat.mul_succ, Nat.add_comm]
      exact Nat.add_le_add ih hbyte
  have hbody := (hescaped (cString s)).trans (Nat.mul_le_mul_left 6 hcut)
  rw [quote, List.length_append, List.length_cons, List.length_singleton]
  exact Nat.succ_le_succ (Nat.succ_le_succ hbody)

theorem length_json_le {e : EventSlot} (h : e.Rooms) (depth : Nat) :
    (Cjson.render false depth e.json).length ≤ 998 := by
  obtain ⟨hip, hproto, hattack, hstage, hmitre⟩ := h
  have htext : ∀ {s : Bytes} {n : Nat}, s.length ≤ n → (quote (cString s)).length ≤ 6 * n + 2 :=
    fun {s n} hs => (length_quote_le _).trans
      (Nat.add_le_add_right (Nat.mul_le_mul_left 6 ((List.takeWhile_prefix _).length_le.trans hs)) 2)
  have hnames : (quote (ascii "src_ip")).length = 8 ∧ (quote (ascii "port")).length = 6 ∧
      (quote (ascii "proto")).length = 7 ∧ (quote (ascii "bytes")).length = 7 ∧
      (quote (ascii "is_scan")).length = 9 ∧ (quote (ascii "attack_type")).length = 13 ∧
      (quote (ascii "kill_chain_stage")).length = 18 ∧ (quote (ascii "kc_score")).length = 10 ∧
      (quote (ascii "mitre")).length = 7 := by decide
  have hip := htext hip
  have hproto := htext hproto
  have hattack := htext hattack
  have hstage := htext hstage
  have hmitre := htext hmitre
  have hport := length_numberText_le (.ofInt e.port)
  have hbytes := length_numberText_le (.ofInt e.bytes)
  have hscan := length_numberText_le (.ofInt (if e.isScan then 1 else 0))
  have hkc := length_numberText_le (.ofInt e.kcScore)
  unfold SRC_IP_ROOM at hip
  unfold PROTO_ROOM at hproto
  unfold ATTACK_TYPE_ROOM at hattack
  unfold STAGE_ROOM at hstage
  unfold MITRE_ROOM at hmitre
  simp only [EventSlot.json, Cjson.render, renderMembers, spaced, Bool.false_eq_true, if_false,
    List.isEmpty_cons, List.isEmpty_nil, if_true, List.length_append, List.length_cons,
    List.length_nil, hnames]
  omega

theorem length_messageText_le {batch : List EventSlot} (h : ∀ e ∈ batch, e.Rooms) :
    (messageText batch).length ≤ 1000 * batch.length + 2 := by
  have hitems : (renderItems false 1 (batch.map EventSlot.json)).length ≤ 1000 * batch.length := by
    induction batch with
    | nil => exact Nat.le_refl 0
    | cons e batch ih =>
      obtain ⟨he, hbatch⟩ := List.forall_mem_cons.mp h
      have hcomma : (if (batch.map EventSlot.json).isEmpty then [] else
          44 :: spaced false [32]).length ≤ 1 := by
        split <;> decide
      have hone := length_json_le he 1
      have hrest := ih hbatch
      rw [List.map_cons, renderItems, List.length_append, List.length_append, List.length_cons]
      omega
  rw [messageText, batchJson, Cjson.render, List.length_append, List.length_cons]
  exact Nat.succ_le_succ (Nat.succ_le_succ hitems)

/-- A batch of two million events is not too long. -/
theorem sendBatch_sends {publishTo : Bytes → Bool} {batch : List EventSlot} (hne : batch ≠ [])
    (hrooms : ∀ e ∈ batch, e.Rooms) (hlen : batch.length ≤ 2000000) :
    publisherSendBatch true publishTo batch =
      some (if publishTo (messageText batch) then 0 else -1, some (messageText batch)) := by
  have hmax : INT_MAX.toNat = 2147483647 := by decide
  have htext := length_messageText_le hrooms
  rw [publisherSendBatch_eq hne, if_pos (by omega)]

/-! ## The events of the analyzer -/

/-- An event that the analyzer makes of a captured packet. -/
structure Event.Sendable (e : Event) : Prop where
  standard : e.Standard
  port : e.port < 2 ^ 16
  bytes : e.bytes ≤ SNAP_LEN
  score : 0 ≤ e.kcScore ∧ e.kcScore ≤ 100

variable {R : Type}

/-- Every record has a score of the scale. -/
def Analyzer.Scored (st : Analyzer R) : Prop :=
  ∀ s ∈ st.suspects.used, 0 ≤ s.kcScore ∧ s.kcScore ≤ 100

theorem Analyzer.Scored.cleaned {st : Analyzer R} (h : st.Scored) (now : Int) :
    (st.cleaned now).Scored := by
  intro s hs
  rw [cleaned_eq] at hs
  split at hs
  · rw [Slots.used_filter] at hs
    exact h s (List.mem_of_mem_filter hs)
  · exact h s hs

theorem Analyzer.Scored.store {st : Analyzer R} {s : Suspect R} (h : st.Scored) (src : UInt32)
    (hs : 0 ≤ s.kcScore ∧ s.kcScore ≤ 100) : (st.store src s).Scored := by
  intro x hx
  unfold Analyzer.store at hx
  dsimp only at hx
  split at hx
  · rw [Slots.used_replaceFirst] at hx
    rcases List.mem_or_eq_of_mem_set hx with hx | rfl
    · exact h x hx
    · exact hs
  · rcases Slots.mem_pushD hx with hx | rfl
    · exact h x hx
    · exact hs

theorem advanceKillChain_score {s : Suspect R} (attack : Option Attack) (now : Int)
    (h : 0 ≤ s.kcScore ∧ s.kcScore ≤ 100) :
    0 ≤ (advanceKillChain s attack now).kcScore ∧ (advanceKillChain s attack now).kcScore ≤ 100 := by
  unfold advanceKillChain
  dsimp only
  split
  · exact h
  · exact calculateKcScore_bounds _ now

variable [Double R]

theorem working_score {st : Analyzer R} {src : UInt32} {now : Int} {s : Suspect R} (h : st.Scored)
    (hw : st.working src now = some s) : 0 ≤ s.kcScore ∧ s.kcScore ≤ 100 := by
  rcases working_cases hw with ⟨s0, hr, rfl⟩ | ⟨-, -, rfl⟩
  · exact h s0 (List.mem_of_find?_eq_some hr)
  · exact ⟨Int.le_refl 0, (by decide : (0 : Int) ≤ 100)⟩

theorem transportStep_score {s : Suspect R} (t : Transport) (src : UInt32) (length : Nat)
    (now : Int) (h : 0 ≤ s.kcScore ∧ s.kcScore ≤ 100) :
    0 ≤ (transportStep s t src length now).1.kcScore ∧
      (transportStep s t src length now).1.kcScore ≤ 100 := by
  have hframe := (detectStep_frame s t length now).2.2.2.2.2.2.1
  rw [transportStep_record]
  exact advanceKillChain_score _ _ (hframe ▸ h)

theorem publishes_port {t : Transport} {port : Nat} {proto : String}
    (h : t.publishes = some (port, proto)) : port < 2 ^ 16 := by
  cases t with
  | other => cases h
  | icmp =>
    cases h
    decide
  | tcp dstPort flags =>
    cases h
    exact dstPort.toNat_lt
  | udp srcPort dstPort payload =>
    cases h
    exact dstPort.toNat_lt

theorem transportStep_event {s : Suspect R} {t : Transport} {src : UInt32} {length : Nat}
    {now : Int} {e : Event} (h : e ∈ (transportStep s t src length now).2.published) :
    e.port < 2 ^ 16 ∧ e.bytes = length ∧
      e.kcScore = (transportStep s t src length now).1.kcScore := by
  unfold transportStep at h ⊢
  split at h
  · cases h
  · next hpub =>
    rw [List.mem_singleton.mp h]
    exact ⟨publishes_port hpub, rfl, rfl⟩

/-- One packet: the scores stay on the scale, and the event can be sent. -/
theorem processFrame_sendable {st : Analyzer R} {p : Bytes} {now : Int} (h : st.Scored)
    (hp : p.length ≤ SNAP_LEN) :
    (processFrame st p now).1.Scored ∧
      ∀ e ∈ (processFrame st p now).2.published, e.Sendable := by
  have hstandard := frameMove_standard (processFrame_move st p now)
  have hclean := h.cleaned now
  have hmove := processFrame_move st p now
  generalize processFrame st p now = r at hmove hstandard
  cases hmove with
  | skip => exact ⟨hclean, fun e he => absurd he List.not_mem_nil⟩
  | arpNew => exact ⟨hclean, fun e he => absurd he List.not_mem_nil⟩
  | arpAlert =>
    refine ⟨hclean, fun e he => ?_⟩
    have hstd := hstandard e he
    obtain rfl := List.mem_singleton.mp he
    exact ⟨hstd, (by decide : 0 < 2 ^ 16), hp, (by decide : (0 : Int) ≤ 20 ∧ (20 : Int) ≤ 100)⟩
  | @packet src body s hclass hwork =>
    have hscore := transportStep_score body src p.length now (working_score hclean hwork)
    refine ⟨hclean.store src hscore, fun e he => ?_⟩
    obtain ⟨hport, hbytes, hkc⟩ := transportStep_event he
    exact ⟨hstandard e he, hport, hbytes ▸ hp, hkc ▸ hscore⟩

/-! ## The events of a run -/

/-- Every packet and every event in the pipeline is as the analyzer needs and makes it. -/
structure CarriesSendable (s : Pipeline R) : Prop where
  scored : s.analyzer.Scored
  packets : ∀ p ∈ s.rbPkt.items, p.data.length ≤ SNAP_LEN
  pending : ∀ es, s.analysis = .running es → ∀ e ∈ es, e.Sendable
  events : ∀ e ∈ s.rbEvt.items, e.Sendable
  batch : ∀ e ∈ s.batch, e.Sendable

theorem pipelineStep_sendable {cfg : PipelineConfig} {s s' : Pipeline R} {l : PipelineLabel}
    (h : CarriesSendable s) (hs : pipelineStep cfg s l = some s') : CarriesSendable s' := by
  obtain ⟨hscored, hpackets, hpending, hevents, hbatch⟩ := h
  cases pipelineStep_move hs with
  | capPush hrun =>
    refine ⟨hscored, fun p hp => ?_, hpending, hevents, hbatch⟩
    rcases BoundedQueue.mem_offer hp with hp | rfl
    · exact hpackets p hp
    · exact List.length_take_le _ _
  | @anaPop slot _ _ _ hrun hpop hpkt =>
    have hitems := BoundedQueue.pop?_eq_some hpop
    have hslot : slot.data.length ≤ SNAP_LEN :=
      hpackets slot (by rw [hitems]; exact List.mem_cons_self)
    rw [analyzePacket_eq] at hpkt
    have hframe := @processFrame_sendable R _ s.analyzer slot.data slot.ts hscored hslot
    rw [Option.some.inj hpkt] at hframe
    refine ⟨hframe.1, fun p hp => hpackets p ?_, ?_, hevents, hbatch⟩
    · rw [hitems]
      exact List.mem_cons_of_mem _ hp
    · intro es hes
      cases hes
      exact hframe.2
  | anaPublish hrun =>
    obtain ⟨hnext, hrest⟩ := List.forall_mem_cons.mp (hpending _ hrun)
    refine ⟨hscored, hpackets, ?_, fun e he => ?_, hbatch⟩
    · intro es hes
      cases hes
      exact hrest
    · rcases BoundedQueue.mem_offer he with he | rfl
      · exact hevents e he
      · exact hnext
  | pubPop hpoll hpop =>
    have hitems := BoundedQueue.pop?_eq_some hpop
    rw [hitems] at hevents
    obtain ⟨hnext, hrest⟩ := List.forall_mem_cons.mp hevents
    refine ⟨hscored, hpackets, hpending, hrest, ?_⟩
    exact List.forall_mem_append.mpr ⟨hbatch, List.forall_mem_singleton.mpr hnext⟩
  | pubSent =>
    exact ⟨hscored, hpackets, hpending, hevents, fun e he => absurd he List.not_mem_nil⟩
  | anaCheckOpen =>
    refine ⟨hscored, hpackets, ?_, hevents, hbatch⟩
    intro es hes
    cases hes
    exact fun e he => absurd he List.not_mem_nil
  | anaPopEmpty | anaCheckDone | anaDone =>
    exact ⟨hscored, hpackets, fun es hes => by (cases hes), hevents, hbatch⟩
  | _ => exact ⟨hscored, hpackets, hpending, hevents, hbatch⟩

variable {cfg : PipelineConfig} {s0 t : Pipeline R} {tr : List (PipelineStep R)}

theorem run_carriesSendable (h0 : IsLaunch s0) (hnew : s0.analyzer.suspects.used = [])
    (h : Lts.Run (pipelineLts R cfg) s0 tr t) : CarriesSendable t := by
  refine h.induct (I := fun _ t => CarriesSendable t) ?_ fun _ _ _ _ _ => pipelineStep_sendable
  refine ⟨fun s hs => ?_, fun p hp => ?_, ?_, fun e he => ?_, fun e he => ?_⟩
  · rw [hnew] at hs
    cases hs
  · rw [h0.rbPkt] at hp
    cases hp
  · intro es hes
    rw [h0.analysis] at hes
    cases hes
    exact fun e he => absurd he List.not_mem_nil
  · rw [h0.rbEvt] at he
    cases he
  · rw [h0.batch] at he
    cases he

/-- A batch that a run sends is not longer than `batch_size`, and its events can be sent. -/
theorem run_sendable (h0 : IsLaunch s0) (hnew : s0.analyzer.suspects.used = [])
    (h : Lts.Run (pipelineLts R cfg) s0 tr t) {batch : List Event} (hb : batch ∈ sentBatches tr) :
    batch ≠ [] ∧ batch.length ≤ cfg.batchSize ∧ ∀ e ∈ batch, e.Sendable := by
  obtain ⟨⟨s, l, s'⟩, hx, hsent⟩ := List.mem_filterMap.mp hb
  obtain ⟨before, after, rfl⟩ := List.append_of_mem hx
  obtain ⟨hr, hs, -⟩ := h.around
  unfold PipelineStep.sentBatch at hsent
  split at hsent
  · next hl =>
    obtain rfl := Option.some.inj hsent
    dsimp only at hl
    subst hl
    have hpublish := run_publishInv h0 hr
    have hmove : PipelineMove cfg s (.pubSend true) s' := pipelineStep_move hs
    cases hmove with
    | pubSent hsend =>
      exact ⟨hpublish.sending hsend, hpublish.room, (run_carriesSendable h0 hnew hr).batch⟩
  · cases hsent

end TrafficAnalyzer
