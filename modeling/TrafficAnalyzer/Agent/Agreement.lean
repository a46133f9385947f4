import TrafficAnalyzer.Agent.Collector

/-!
# The event and the detection of a packet

A reported packet leaves the analyzer twice: `publish_packet` enqueues an event for the
broker, and `collector_record` keeps a detection for the replay. The two calls stand side by
side in each protocol branch, and the ARP detector has a pair of its own.

* `EventAgrees`: what the return value, the event and the detection say together.
* `published_slot`: no text of an event is cut.
* `analyzePacket_agrees`: the result of every call agrees, and the two copies have the same
  texts.
-/

namespace TrafficAnalyzer

open CText

/-! ## The source -/

/-- `event_slot_t`, and the room of its other texts. -/
structure EventSlot where
  srcIp : Bytes
  port : Nat
  proto : Bytes
  bytes : Nat
  isScan : Bool
  attackType : Bytes
  killChainStage : Bytes
  kcScore : Int
  mitre : Bytes
deriving DecidableEq, Repr

def PROTO_ROOM : Nat := 7
def STAGE_ROOM : Nat := 15
def MITRE_ROOM : Nat := 47

/-- `safe_attack`. -/
def safeAttack (attackType : Option Attack) : String := (attackType.map (·.name)).getD "NONE"

/-- `publish_packet`: the event for `pipeline_push_event`, none in replay mode. Of the texts
only the attack can be absent. -/
def publishPacket (replayMode : Bool) (e : Event) : Option EventSlot :=
  if replayMode then none
  else
    some {
      srcIp := strncpy SRC_IP_ROOM (ascii e.srcIp)
      port := e.port
      proto := strncpy PROTO_ROOM (ascii e.proto)
      bytes := e.bytes
      isScan := e.isScan
      attackType := strncpy ATTACK_TYPE_ROOM (ascii (safeAttack e.attackType))
      killChainStage := strncpy STAGE_ROOM (ascii (kcStageName e.killChainStage))
      kcScore := e.kcScore
      mitre := strncpy MITRE_ROOM (ascii e.mitre) }

/-! ## One outcome -/

/-- The return value, the event and the detection of a call agree. -/
structure EventAgrees (o : Outcome) : Prop where
  once : o.published.length ≤ 1
  scan : o.ret = 1 ↔ ∃ e, o.published = [e] ∧ e.isScan = true
  recorded : o.ret = 1 ↔ ∃ d, o.recorded = [d]
  unrecorded : o.ret ≠ 1 → o.ret = 0 ∧ o.recorded = []
  same : ∀ e ∈ o.published, ∀ d ∈ o.recorded, e.attackType = some d.attackType ∧
    e.srcIp = d.srcIp ∧ e.mitre = attackToMitre (some d.attackType)
  quiet : o.ret = 0 → ∀ e ∈ o.published, e.attackType = none ∧ e.mitre = ""

theorem agrees_quiet : EventAgrees .quiet where
  once := Nat.zero_le 1
  scan := by simp [Outcome.quiet]
  recorded := by simp [Outcome.quiet]
  unrecorded := fun _ => ⟨rfl, rfl⟩
  same := fun _ he => absurd he List.not_mem_nil
  quiet := fun _ _ he => absurd he List.not_mem_nil

/-- An alert of the attack `a`, published and recorded for one source. -/
theorem agrees_alert {e : Event} {d : Detection} (hscan : e.isScan = true)
    (hattack : e.attackType = some d.attackType) (hip : e.srcIp = d.srcIp)
    (hmitre : e.mitre = attackToMitre (some d.attackType)) : EventAgrees ⟨1, [e], [d]⟩ where
  once := Nat.le_refl 1
  scan := iff_of_true rfl ⟨e, rfl, hscan⟩
  recorded := iff_of_true rfl ⟨d, rfl⟩
  unrecorded := fun h => absurd rfl h
  same := fun e' he d' hd => by
    rw [List.mem_singleton.mp he, List.mem_singleton.mp hd]
    exact ⟨hattack, hip, hmitre⟩
  quiet := fun h => absurd h Nat.one_ne_zero

/-- An event without an alert. -/
theorem agrees_event {e : Event} (hscan : e.isScan = false) (hattack : e.attackType = none)
    (hmitre : e.mitre = "") : EventAgrees ⟨0, [e], []⟩ where
  once := Nat.le_refl 1
  scan := iff_of_false nofun fun ⟨e', he, h⟩ => by
    rw [← List.singleton_inj.mp he, hscan] at h
    cases h
  recorded := iff_of_false nofun nofun
  unrecorded := fun _ => ⟨rfl, rfl⟩
  same := fun _ _ _ hd => absurd hd List.not_mem_nil
  quiet := fun _ e' he => by
    rw [List.mem_singleton.mp he]
    exact ⟨hattack, hmitre⟩

/-! ## The texts of an event -/

/-- The slot with the texts of the event as they are. -/
def Event.slot (e : Event) : EventSlot :=
  ⟨ascii e.srcIp, e.port, ascii e.proto, e.bytes, e.isScan, ascii (safeAttack e.attackType),
    ascii (kcStageName e.killChainStage), e.kcScore, ascii e.mitre⟩

/-- The events that the analyzer makes: a printed address, a known protocol, and the MITRE
text of the attack. -/
structure Event.Standard (e : Event) : Prop where
  srcIp : ∃ ip, e.srcIp = inetNtoa ip
  proto : e.proto ∈ ["ARP", "ICMP", "TCP", "UDP"]
  mitre : e.mitre = attackToMitre e.attackType

theorem proto_short :
    ∀ proto ∈ ["ARP", "ICMP", "TCP", "UDP"], strncpy PROTO_ROOM (ascii proto) = ascii proto := by
  decide

theorem safeAttack_short (attackType : Option Attack) :
    strncpy ATTACK_TYPE_ROOM (ascii (safeAttack attackType)) = ascii (safeAttack attackType) := by
  cases attackType with
  | none => decide
  | some a => exact strncpy_of_fits (name_short a).1 (Nat.le_of_lt (name_short a).2)

theorem stage_short (stage : KillChainStage) :
    strncpy STAGE_ROOM (ascii (kcStageName stage)) = ascii (kcStageName stage) := by
  cases stage <;> decide

theorem mitre_short (attackType : Option Attack) :
    strncpy MITRE_ROOM (ascii (attackToMitre attackType)) = ascii (attackToMitre attackType) := by
  cases attackType with
  | none => decide
  | some a => cases a <;> decide

theorem Event.Standard.slot_eq {e : Event} (h : e.Standard) :
    publishPacket false e = some e.slot := by
  obtain ⟨ip, hip⟩ := h.srcIp
  have haddr := inetNtoa_short ip
  rw [publishPacket, if_neg Bool.false_ne_true, proto_short _ h.proto, safeAttack_short,
    stage_short, h.mitre, mitre_short, ← h.mitre, hip, strncpy_of_fits haddr.1 haddr.2, ← hip]
  rfl

/-! ## Every call -/

variable {R : Type} [Double R]

omit [Double R] in
theorem conclude_agrees (s : Suspect R) (attack : Option Attack) (srcIp : UInt32) (port : Nat)
    (proto : String) (length : Nat) (now : Int) :
    EventAgrees (conclude s attack srcIp port proto length now).2 := by
  cases attack with
  | none => exact agrees_event rfl rfl rfl
  | some a => exact agrees_alert rfl rfl rfl rfl

theorem transportStep_agrees (s : Suspect R) (t : Transport) (src : UInt32) (length : Nat)
    (now : Int) : EventAgrees (transportStep s t src length now).2 := by
  unfold transportStep
  split
  · exact agrees_quiet
  · exact conclude_agrees _ _ _ _ _ _ _

theorem publishes_proto {t : Transport} {port : Nat} {proto : String}
    (h : t.publishes = some (port, proto)) : proto ∈ ["ARP", "ICMP", "TCP", "UDP"] := by
  cases t <;> cases h <;> decide

theorem transportStep_standard {s : Suspect R} {t : Transport} {src : UInt32} {length : Nat}
    {now : Int} {e : Event} (h : e ∈ (transportStep s t src length now).2.published) :
    e.Standard := by
  unfold transportStep at h
  split at h
  · cases h
  · next port proto hpub =>
    rw [List.mem_singleton.mp h]
    exact ⟨⟨src, rfl⟩, publishes_proto hpub, rfl⟩

theorem frameMove_agrees {st : Analyzer R} {p : Bytes} {now : Int} {r : Analyzer R × Outcome}
    (hm : FrameMove st p now r) : EventAgrees r.2 := by
  cases hm with
  | skip | arpNew => exact agrees_quiet
  | arpAlert => exact agrees_alert rfl rfl rfl rfl
  | packet => exact transportStep_agrees _ _ _ _ _

theorem frameMove_standard {st : Analyzer R} {p : Bytes} {now : Int} {r : Analyzer R × Outcome}
    (hm : FrameMove st p now r) : ∀ e ∈ r.2.published, e.Standard := by
  cases hm with
  | skip | arpNew => exact fun _ he => absurd he List.not_mem_nil
  | @arpAlert mac ip =>
    intro e he
    rw [List.mem_singleton.mp he]
    exact ⟨⟨ip, rfl⟩, List.mem_cons_self, rfl⟩
  | packet => exact fun e he => transportStep_standard he

/-- No text of an event is cut. -/
theorem published_slot {st : Analyzer R} {p : Bytes} {now : Int} {e : Event}
    (h : e ∈ (processFrame st p now).2.published) : publishPacket false e = some e.slot :=
  (frameMove_standard (processFrame_move st p now) e h).slot_eq

/-- In every state and for every frame, the return value, the event and the detection agree,
and the event in the queue has the texts of the detection in the collector. -/
theorem analyzePacket_agrees (st : Analyzer R) (packet : Bytes) (now : Int) :
    ∃ st' outcome, analyzePacket st packet now = some (st', outcome) ∧ EventAgrees outcome ∧
      ∀ e ∈ outcome.published, ∃ slot, publishPacket false e = some slot ∧
        ∀ d ∈ outcome.recorded, slot.attackType = d.copied.attackType ∧
          slot.srcIp = d.copied.srcIp ∧ slot.mitre = ascii (attackToMitre (some d.attackType)) := by
  refine ⟨_, _, analyzePacket_eq st packet now, ?_, fun e he => ⟨e.slot, published_slot he, ?_⟩⟩
  · exact frameMove_agrees (processFrame_move st packet now)
  · intro d hd
    obtain ⟨hattack, hip, hmitre⟩ :=
      (frameMove_agrees (processFrame_move st packet now)).same e he d hd
    obtain ⟨ip, haddr⟩ := recorded_srcIp hd
    rw [copied_eq haddr, Event.slot, hattack, hip, hmitre]
    exact ⟨rfl, rfl, rfl⟩

end TrafficAnalyzer
