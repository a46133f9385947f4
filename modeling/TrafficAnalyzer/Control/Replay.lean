import TrafficAnalyzer.Control.Commands
import TrafficAnalyzer.Lib.FirstSeen
import TrafficAnalyzer.Lib.Recency

/-!
# Replayed commands (`scripts/agent_ctl.py`)

`verify` checks the signature and the time window of a message and remembers the nonces of the
last 4096 commands that it accepted. A command may be valid for any time, so it can outlive the
memory of its nonce.

1. `accepted_nonces`: the nonces that one process accepts are those that a bounded memory takes.
2. `replay_safe`: no command is accepted twice when every command that comes again, still in its
   window, was among the last 4096 commands to come for the first time; the condition is
   necessary when no two commands share a nonce.
3. `replay_after_eviction`: a command is accepted again after 4096 others.
-/

namespace TrafficAnalyzer

/-! ## `agent_ctl.py` -/

def NONCE_CACHE_SIZE : Nat := 4096

def CLOCK_SKEW_TOLERANCE : Int := 5

/-- `NonceCache`: the keys of `seen` in the order of their insertion. -/
structure NonceCache where
  limit : Nat
  seen : List PyStr

/-- `NonceCache()`. -/
def NonceCache.new : NonceCache := ⟨NONCE_CACHE_SIZE, []⟩

/-- `NonceCache.accept`. -/
def NonceCache.accept (cache : NonceCache) (nonce : PyStr) : NonceCache × Bool :=
  if nonce ∈ cache.seen then (cache, false)
  else
    let seen := cache.seen ++ [nonce]
    if seen.length > cache.limit then (⟨cache.limit, seen.tail⟩, true)
    else (⟨cache.limit, seen⟩, true)

/-- `hmac.compare_digest` on two `str`: a `TypeError` unless both are ASCII. -/
def compareDigest (a b : PyStr) : Option Bool :=
  if (a.all fun c => decide (c < 128)) ∧ (b.all fun c => decide (c < 128)) then some (decide (a = b))
  else none

/-- Why a message is dropped. -/
inductive Drop
  | invalidJson
  | notObject
  | noSig
  | badHmac
  | badTimes
  | expired (age ttl : Int)
  | future (delta : Int)
  | nonce
deriving DecidableEq

/-- The text of the log. -/
def Drop.text : Drop → String
  | .invalidJson => "drop: JSON inválido"
  | .notObject => "drop: payload não é objeto"
  | .noSig => "drop: sem sig"
  | .badHmac => "drop: HMAC inválido"
  | .badTimes => "drop: issued_at/ttl inválido"
  | .expired age ttl => "drop: expirado (idade=" ++ toString age ++ "s ttl=" ++ toString ttl ++ "s)"
  | .future delta => "drop: issued_at no futuro (delta=" ++ toString delta ++ "s)"
  | .nonce => "drop: nonce ausente ou reusado"

/-- What the checks before the nonce make of a message: an exception that `verify` does not
catch, a drop, or the payload and its signature. -/
inductive Checked
  | raised
  | dropped (reason : Drop)
  | passed (msg : PyDict) (sig : PyStr)

/-- The checks of `verify` on `issued_at` and `ttl`, with `now = int(time.time())`. -/
def checkTimes (msg : PyDict) (now : Int) : Option Drop :=
  match (msg.get (py "issued_at")).bind PyValue.asInt, (msg.get (py "ttl")).bind PyValue.asInt with
  | some issued, some ttl =>
    if ttl ≤ 0 then some .badTimes
    else if now - issued > ttl then some (.expired (now - issued) ttl)
    else if issued - now > CLOCK_SKEW_TOLERANCE then some (.future (issued - now))
    else none
  | _, _ => some .badTimes

/-- `verify` up to the nonce. -/
def checkMessage (lib : Libraries) (keyHex : PyStr) (body : Bytes) (now : Int) : Checked :=
  match loadBody lib body with
  | .raised => .raised
  | .invalid => .dropped .invalidJson
  | .value (.dict entries) =>
    let msg := PyDict.without entries (py "sig")
    match PyDict.get entries (py "sig") with
    | some (.str sig) =>
      match sign lib msg keyHex with
      | none => .raised
      | some expected =>
        match compareDigest sig expected with
        | none => .raised
        | some false => .dropped .badHmac
        | some true =>
          match checkTimes msg now with
          | some reason => .dropped reason
          | none => .passed msg sig
    | _ => .dropped .noSig
  | .value _ => .dropped .notObject

/-- What `verify` returns, or that it raises. -/
inductive Verdict
  | raised
  | dropped (reason : Drop)
  | accepted (msg : PyDict)

def verify (lib : Libraries) (keyHex : PyStr) (cache : NonceCache) (body : Bytes) (now : Int) :
    NonceCache × Verdict :=
  match checkMessage lib keyHex body now with
  | .raised => (cache, .raised)
  | .dropped reason => (cache, .dropped reason)
  | .passed msg _ =>
    match msg.get (py "nonce") with
    | some (.str nonce) =>
      let (cache, new) := cache.accept nonce
      (cache, if new then .accepted msg else .dropped .nonce)
    | _ => (cache, .dropped .nonce)

/-- A message, and the clock when `on_msg` is called with it. -/
structure Delivery where
  body : Bytes
  now : Int

/-- One process: what becomes of the deliveries, up to the first exception. -/
def agentCtl (lib : Libraries) (keyHex : PyStr) :
    NonceCache → List Delivery → List (Delivery × Verdict)
  | _, [] => []
  | cache, d :: ds =>
    match verify lib keyHex cache d.body d.now with
    | (_, .raised) => [(d, .raised)]
    | (cache, verdict) => (d, verdict) :: agentCtl lib keyHex cache ds

/-! ## Commands -/

/-- A signed command, by its nonce and its signature. -/
structure Command where
  nonce : PyStr
  sig : PyStr
deriving DecidableEq

section Commands

variable (lib : Libraries) (keyHex : PyStr)

/-- The command of a delivery with a valid signature and inside its window. -/
def validCommand (d : Delivery) : Option Command :=
  match checkMessage lib keyHex d.body d.now with
  | .passed msg sig =>
    match msg.get (py "nonce") with
    | some (.str nonce) => some ⟨nonce, sig⟩
    | _ => none
  | _ => none

/-- The command that was accepted. -/
def acceptedCommand (x : Delivery × Verdict) : Option Command :=
  match x.2 with
  | .accepted _ => validCommand lib keyHex x.1
  | _ => none

/-- The commands that a process with this cache accepts, in order. -/
def acceptedFrom (cache : NonceCache) (ds : List Delivery) : List Command :=
  (agentCtl lib keyHex cache ds).filterMap (acceptedCommand lib keyHex)

/-- The commands that a process accepts from its start. -/
def acceptedCommands (ds : List Delivery) : List Command := acceptedFrom lib keyHex .new ds

/-- `verify` raises an exception. -/
def raises (d : Delivery) : Bool :=
  match checkMessage lib keyHex d.body d.now with
  | .raised => true
  | _ => false

/-- The commands that reach the nonce check before an exception ends the process. -/
def presented (ds : List Delivery) : List Command :=
  (ds.takeWhile fun d => !raises lib keyHex d).filterMap (validCommand lib keyHex)

/-- No command is accepted twice. -/
def NoReplay (ds : List Delivery) : Prop := (acceptedCommands lib keyHex ds).Nodup

/-- Every command that comes again was among the last 4096 commands to come for the first
time. -/
def Remembered (ds : List Delivery) : Prop :=
  ∀ earlier c later, presented lib keyHex ds = earlier ++ c :: later →
    c.nonce ∈ earlier.map Command.nonce →
      c.nonce ∈ (earlier.map Command.nonce).eraseDups.rtake NONCE_CACHE_SIZE

/-- No two signed commands share a nonce. -/
def NoncesIdentify (ds : List Delivery) : Prop :=
  ∀ c ∈ presented lib keyHex ds, ∀ c' ∈ presented lib keyHex ds, c.nonce = c'.nonce → c = c'

end Commands

/-! ## The nonce cache as a bounded memory -/

section Replay

variable {lib : Libraries} {keyHex : PyStr} {cache : NonceCache} {d : Delivery}
  {ds : List Delivery}

theorem accept_eq (cache : NonceCache) (nonce : PyStr) :
    cache.accept nonce = (⟨cache.limit, (Recency.offer cache.limit cache.seen nonce).1⟩,
      (Recency.offer cache.limit cache.seen nonce).2) := by
  unfold NonceCache.accept Recency.offer
  split
  · rfl
  · dsimp only
    split <;> rfl

/-- What `verify` does with a delivery: raise, drop it before the nonce is looked at, or ask the
cache about the nonce of its command. -/
theorem verify_cases (lib : Libraries) (keyHex : PyStr) (cache : NonceCache) (d : Delivery) :
    (raises lib keyHex d = true ∧ verify lib keyHex cache d.body d.now = (cache, .raised)) ∨
    (raises lib keyHex d = false ∧ validCommand lib keyHex d = none ∧
      ∃ reason, verify lib keyHex cache d.body d.now = (cache, .dropped reason)) ∨
    (raises lib keyHex d = false ∧ ∃ c msg, validCommand lib keyHex d = some c ∧
      verify lib keyHex cache d.body d.now = ((cache.accept c.nonce).1,
        if (cache.accept c.nonce).2 then .accepted msg else .dropped .nonce)) := by
  unfold raises validCommand verify
  cases hcheck : checkMessage lib keyHex d.body d.now with
  | raised => exact .inl ⟨rfl, rfl⟩
  | dropped reason => exact .inr (.inl ⟨rfl, rfl, reason, rfl⟩)
  | passed msg sig =>
    dsimp only
    split
    · next nonce _ => exact .inr (.inr ⟨rfl, ⟨nonce, sig⟩, msg, rfl, rfl⟩)
    · exact .inr (.inl ⟨rfl, rfl, .nonce, rfl⟩)

theorem presented_raises (h : raises lib keyHex d = true) : presented lib keyHex (d :: ds) = [] := by
  simp [presented, h]

theorem presented_cons (h : raises lib keyHex d = false) :
    presented lib keyHex (d :: ds) =
      (validCommand lib keyHex d).toList ++ presented lib keyHex ds := by
  cases hc : validCommand lib keyHex d <;> simp [presented, h, hc]

/-- What the first delivery adds to the accepted commands. -/
theorem acceptedFrom_cons (cache : NonceCache) (d : Delivery) (ds : List Delivery) :
    acceptedFrom lib keyHex cache (d :: ds) =
      if raises lib keyHex d then []
      else
        match validCommand lib keyHex d with
        | none => acceptedFrom lib keyHex cache ds
        | some c => (if (cache.accept c.nonce).2 then [c] else []) ++
            acceptedFrom lib keyHex (cache.accept c.nonce).1 ds := by
  unfold acceptedFrom
  obtain ⟨hraise, hv⟩ | ⟨hraise, hc, reason, hv⟩ | ⟨hraise, c, msg, hc, hv⟩ :=
    verify_cases lib keyHex cache d
  · rw [hraise, if_pos rfl, agentCtl, hv]
    rfl
  · rw [hraise, hc, agentCtl, hv]
    rfl
  · rw [hraise, hc, agentCtl, hv, if_neg Bool.false_ne_true]
    dsimp only
    cases (cache.accept c.nonce).2 with
    | true =>
      have hhead : acceptedCommand lib keyHex (d, .accepted msg) = some c := hc
      simp [hhead]
    | false => rfl

/-- A process that starts with some cache accepts the nonces that the memory takes. -/
theorem accepted_nonces_from (cache : NonceCache) (ds : List Delivery) :
    (acceptedFrom lib keyHex cache ds).map Command.nonce =
      Recency.taken cache.limit cache.seen ((presented lib keyHex ds).map Command.nonce) := by
  induction ds generalizing cache with
  | nil => rfl
  | cons d ds ih =>
    rw [acceptedFrom_cons]
    cases hraise : raises lib keyHex d with
    | true =>
      rw [presented_raises hraise]
      rfl
    | false =>
      rw [presented_cons hraise, if_neg Bool.false_ne_true]
      cases validCommand lib keyHex d with
      | none => exact ih cache
      | some c =>
        have hrest := ih (cache.accept c.nonce).1
        dsimp only
        rw [accept_eq] at hrest ⊢
        rw [Option.toList_some, List.singleton_append, List.map_cons, List.map_append, hrest,
          Recency.taken]
        split <;> rfl

theorem accepted_nonces (ds : List Delivery) :
    (acceptedCommands lib keyHex ds).map Command.nonce =
      Recency.taken NONCE_CACHE_SIZE [] ((presented lib keyHex ds).map Command.nonce) :=
  accepted_nonces_from .new ds

/-- An accepted command was presented. -/
theorem acceptedFrom_sublist (cache : NonceCache) (ds : List Delivery) :
    (acceptedFrom lib keyHex cache ds).Sublist (presented lib keyHex ds) := by
  induction ds generalizing cache with
  | nil => exact .slnil
  | cons d ds ih =>
    rw [acceptedFrom_cons]
    cases hraise : raises lib keyHex d with
    | true => exact List.nil_sublist _
    | false =>
      rw [presented_cons hraise, if_neg Bool.false_ne_true]
      cases validCommand lib keyHex d with
      | none => exact ih cache
      | some c =>
        refine List.Sublist.append ?_ (ih _)
        split
        · exact List.Sublist.refl _
        · exact List.nil_sublist _

/-- No nonce is accepted twice exactly when every command that comes again is remembered. -/
theorem nonces_nodup_iff (ds : List Delivery) :
    ((acceptedCommands lib keyHex ds).map Command.nonce).Nodup ↔ Remembered lib keyHex ds := by
  rw [accepted_nonces, Recency.taken_nodup_iff]
  constructor
  · intro h earlier c later he hc
    exact h _ c.nonce (later.map Command.nonce) (by rw [he, List.map_append]; rfl) hc
  · intro h a x b he hx
    obtain ⟨earlier, rest, hsplit, rfl, hrest⟩ := List.map_eq_append_iff.mp he
    obtain ⟨c, later, rfl, rfl, _⟩ := List.map_eq_cons_iff.mp hrest
    exact h earlier c later hsplit hx

/-- As many commands as the cache holds are all remembered. -/
theorem remembered_of_short (h : (presented lib keyHex ds).length ≤ NONCE_CACHE_SIZE) :
    Remembered lib keyHex ds := by
  intro earlier c later hsplit hc
  rw [hsplit, List.length_append] at h
  have hdups := FirstSeen.length_eraseDups_le (earlier.map Command.nonce)
  rw [List.length_map] at hdups
  have hall : ((earlier.map Command.nonce).eraseDups).rtake NONCE_CACHE_SIZE =
      (earlier.map Command.nonce).eraseDups := by
    rw [List.rtake, Nat.sub_eq_zero_of_le (by omega), List.drop_zero]
  rw [hall]
  exact List.mem_eraseDups.mpr hc

/-- With one command to a nonce the condition is exact. -/
theorem noReplay_iff (hid : NoncesIdentify lib keyHex ds) :
    NoReplay lib keyHex ds ↔ Remembered lib keyHex ds := by
  rw [← nonces_nodup_iff]
  refine ⟨fun h => h.map_on fun c hc c' hc' => ?_, List.Nodup.of_map Command.nonce⟩
  exact hid c ((acceptedFrom_sublist _ ds).mem hc) c' ((acceptedFrom_sublist _ ds).mem hc')

/-- A body that `ctl.py` has published, read back as it was written, passes the checks as long
as the clock is in its window. -/
theorem checkMessage_ctl {body : Bytes} {op sig nonce : PyStr} {ip : Option PyStr}
    {issuedAt ttl now : Int}
    (hsign : sign lib (ctlPayload op ip issuedAt nonce ttl) keyHex = some sig)
    (hload : loadBody lib body = .value (.dict (signed (ctlPayload op ip issuedAt nonce ttl) sig)))
    (hpos : 0 < ttl) (hage : now - issuedAt ≤ ttl) (hskew : issuedAt - now ≤ CLOCK_SKEW_TOLERANCE) :
    checkMessage lib keyHex body now = .passed (ctlPayload op ip issuedAt nonce ttl) sig := by
  obtain ⟨hget, hrest⟩ := signed_pop op ip issuedAt nonce ttl sig
  obtain ⟨hissued, httl, _⟩ := ctlPayload_get op ip issuedAt nonce ttl
  have hascii : sig.all (fun c => decide (c < 128)) = true :=
    List.all_eq_true.mpr fun c hc => decide_eq_true (sign_ascii hsign c hc)
  have hdigest : compareDigest sig sig = some true := by simp [compareDigest, hascii]
  have htimes : checkTimes (ctlPayload op ip issuedAt nonce ttl) now = none := by
    simp only [checkTimes, hissued, httl, Option.bind_some, PyValue.asInt]
    rw [if_neg (Int.not_le.mpr hpos), if_neg (Int.not_lt.mpr hage), if_neg (Int.not_lt.mpr hskew)]
  simp only [checkMessage, hload, hget, hrest, hsign, hdigest, htimes]

theorem validCommand_ctl {op sig nonce : PyStr} {ip : Option PyStr} {issuedAt ttl : Int}
    (h : checkMessage lib keyHex d.body d.now =
      .passed (ctlPayload op ip issuedAt nonce ttl) sig) :
    validCommand lib keyHex d = some ⟨nonce, sig⟩ ∧ raises lib keyHex d = false := by
  obtain ⟨_, _, hnonce⟩ := ctlPayload_get op ip issuedAt nonce ttl
  simp only [validCommand, raises, h, hnonce, and_self]

end Replay

/-- No command is accepted twice when every command that comes again is remembered, and, as
long as no two commands share a nonce, only then. -/
theorem replay_safe (lib : Libraries) (keyHex : PyStr) (ds : List Delivery) :
    (Remembered lib keyHex ds → NoReplay lib keyHex ds) ∧
      (NoncesIdentify lib keyHex ds → NoReplay lib keyHex ds → Remembered lib keyHex ds) :=
  ⟨fun h => List.Nodup.of_map Command.nonce ((nonces_nodup_iff ds).mpr h),
    fun hid => (noReplay_iff hid).mp⟩

/-! ## A command that outlives its nonce -/

/-- A nonce for every number below 65536, in the form of a UUID. -/
def exampleNonce (i : Nat) : PyStr :=
  py "00000000-0000-4000-8000-00000000" ++
    [hexDigit (i / 4096 % 16), hexDigit (i / 256 % 16), hexDigit (i / 16 % 16), hexDigit (i % 16)]

/-- A command that is valid for a day. -/
def examplePayload (nonce : PyStr) : PyDict :=
  ctlPayload (py "quarantine") none 1700000000 nonce 86400

/-- The text of a signed payload. -/
def exampleText (nonce sig : PyStr) : PyStr :=
  py "\x7b\"op\": \"quarantine\", \"args\": \x7b\x7d, \"issued_at\": 1700000000, " ++
    (py "\"nonce\": \"" ++ (nonce ++ (py "\", \"ttl\": 86400, \"sig\": \"" ++
      (sig ++ py "\"\x7d"))))

/-- `json.loads` on a text of that form. -/
def exampleLoads (text : PyStr) : Loaded :=
  let s := (text.drop 58).drop 10
  let nonce := s.take 36
  let s := (s.drop 36).drop 25
  let sig := s.take (s.length - 2)
  if text = exampleText nonce sig then .value (.dict (signed (examplePayload nonce) sig))
  else .invalid

/-- The text under a key of a payload. -/
def strAt (d : PyDict) (key : PyStr) : PyStr :=
  match d.get key with
  | some (.str s) => s
  | _ => []

/-- The libraries as they behave on these payloads, with any message authentication code. -/
def exampleLib (mac : Bytes → Bytes → Bytes) : Libraries where
  loads := exampleLoads
  dumps d := (exampleText (strAt d (py "nonce")) (strAt d (py "sig"))).map UInt8.ofNat
  dumpsSorted d := some (
    ascii "\x7b\"args\":\x7b\x7d,\"issued_at\":1700000000,\"nonce\":\"" ++
      (strAt d (py "nonce")).map UInt8.ofNat ++ ascii "\",\"op\":\"quarantine\",\"ttl\":86400\x7d")
  mac := mac

def exampleKey : PyStr := py "00"

section Eviction

variable (mac : Bytes → Bytes → Bytes)

/-- The command with number `i`, as `ctl.py` publishes it, delivered in the second of its
issue. -/
def exampleDelivery (i : Nat) : Delivery where
  body := (cmdSend (exampleLib mac) exampleKey (py "quarantine") none 1700000000 (exampleNonce i)
    86400).getD []
  now := 1700000000

/-- The numbers below 4097, and 0 again. -/
def evictionOrder : List Nat := List.range (NONCE_CACHE_SIZE + 1) ++ [0]

/-- 4097 commands, and the first one again. -/
def evictionRun : List Delivery := evictionOrder.map (exampleDelivery mac)

def exampleCommand (i : Nat) : Command where
  nonce := exampleNonce i
  sig := (sign (exampleLib mac) (examplePayload (exampleNonce i)) exampleKey).getD []

theorem exampleNonce_inj {i j : Nat} (hi : i < 65536) (hj : j < 65536)
    (h : exampleNonce i = exampleNonce j) : i = j := by
  have hdigit : ∀ {m n : Nat}, m < 16 → n < 16 → hexDigit m = hexDigit n → m = n := by
    intro m n hm hn hmn
    unfold hexDigit at hmn
    split at hmn <;> split at hmn <;> omega
  have htail := List.append_cancel_left h
  simp only [List.cons.injEq, and_true] at htail
  obtain ⟨h3, h2, h1, h0⟩ := htail
  have h3 := hdigit (Nat.mod_lt _ (by decide)) (Nat.mod_lt _ (by decide)) h3
  have h2 := hdigit (Nat.mod_lt _ (by decide)) (Nat.mod_lt _ (by decide)) h2
  have h1 := hdigit (Nat.mod_lt _ (by decide)) (Nat.mod_lt _ (by decide)) h1
  have h0 := hdigit (Nat.mod_lt _ (by decide)) (Nat.mod_lt _ (by decide)) h0
  omega

/-- Such a text is read back as it was written. -/
theorem exampleLoads_text {nonce : PyStr} (hlen : nonce.length = 36) (sig : PyStr) :
    exampleLoads (exampleText nonce sig) =
      .value (.dict (signed (examplePayload nonce) sig)) := by
  have hs : ((exampleText nonce sig).drop 58).drop 10 = nonce ++
      (py "\", \"ttl\": 86400, \"sig\": \"" ++ (sig ++ py "\"\x7d")) := by
    rw [exampleText, List.drop_left' (by decide), List.drop_left' (by decide)]
  have hrest : ((((exampleText nonce sig).drop 58).drop 10).drop 36).drop 25 =
      sig ++ py "\"\x7d" := by
    rw [hs, List.drop_left' hlen, List.drop_left' (by decide)]
  unfold exampleLoads
  dsimp only
  rw [hrest, hs, List.take_left' hlen, List.length_append,
    List.take_left' (by rw [show (py "\"\x7d").length = 2 by decide]; rfl)]
  exact if_pos rfl

theorem py_ascii {s : String} (h : (py s).all (fun c => decide (c < 128)) = true) :
    ∀ c ∈ py s, c < 128 := fun c hc => of_decide_eq_true (List.all_eq_true.mp h c hc)

theorem exampleText_ascii {nonce sig : PyStr} (hnonce : ∀ c ∈ nonce, c < 128)
    (hsig : ∀ c ∈ sig, c < 128) : ∀ c ∈ exampleText nonce sig, c < 128 := by
  unfold exampleText
  refine List.forall_mem_append.mpr ⟨py_ascii (by decide), ?_⟩
  refine List.forall_mem_append.mpr ⟨py_ascii (by decide), ?_⟩
  refine List.forall_mem_append.mpr ⟨hnonce, ?_⟩
  refine List.forall_mem_append.mpr ⟨py_ascii (by decide), ?_⟩
  exact List.forall_mem_append.mpr ⟨hsig, py_ascii (by decide)⟩

theorem exampleNonce_ascii (i : Nat) : ∀ c ∈ exampleNonce i, c < 128 := by
  intro c hc
  rcases List.mem_append.mp hc with hc | hc
  · exact py_ascii (by decide) c hc
  · simp only [List.mem_cons, List.not_mem_nil, or_false] at hc
    rcases hc with rfl | rfl | rfl | rfl <;> exact hexDigit_lt (Nat.mod_lt _ (by decide))

/-- Every delivery of the run is valid. -/
theorem exampleDelivery_valid (i : Nat) :
    validCommand (exampleLib mac) exampleKey (exampleDelivery mac i) =
        some (exampleCommand mac i) ∧
      raises (exampleLib mac) exampleKey (exampleDelivery mac i) = false := by
  have hsign : sign (exampleLib mac) (examplePayload (exampleNonce i)) exampleKey =
      some (exampleCommand mac i).sig := rfl
  have hbody : (exampleDelivery mac i).body =
      (exampleText (exampleNonce i) (exampleCommand mac i).sig).map UInt8.ofNat := by
    have hsend : cmdSend (exampleLib mac) exampleKey (py "quarantine") none 1700000000
        (exampleNonce i) 86400 =
          some ((exampleText (exampleNonce i) (exampleCommand mac i).sig).map UInt8.ofNat) := by
      rw [cmdSend]
      exact (congrArg (Option.bind · _) hsign).trans rfl
    rw [exampleDelivery, hsend, Option.getD_some]
  have hload : loadBody (exampleLib mac) (exampleDelivery mac i).body =
      .value (.dict (signed (examplePayload (exampleNonce i)) (exampleCommand mac i).sig)) := by
    have hascii := exampleText_ascii (exampleNonce_ascii i) (sign_ascii hsign)
    rw [loadBody, hbody, decodeUtf8_ascii hascii]
    exact exampleLoads_text rfl _
  have hcheck : checkMessage (exampleLib mac) exampleKey (exampleDelivery mac i).body 1700000000 =
      .passed (examplePayload (exampleNonce i)) (exampleCommand mac i).sig :=
    checkMessage_ctl hsign hload (by decide) (by decide) (by decide)
  exact validCommand_ctl hcheck

theorem presented_eviction (is : List Nat) :
    presented (exampleLib mac) exampleKey (is.map (exampleDelivery mac)) =
      is.map (exampleCommand mac) := by
  induction is with
  | nil => rfl
  | cons i is ih =>
    obtain ⟨hvalid, hraise⟩ := exampleDelivery_valid mac i
    rw [List.map_cons, presented_cons hraise, hvalid, ih]
    rfl

/-- A command that comes again behind another one is remembered, and not accepted again. -/
theorem replay_safe_again : exampleNonce 0 ≠ exampleNonce 1 ∧ ∀ mac : Bytes → Bytes → Bytes,
    presented (exampleLib mac) exampleKey ([0, 1, 0].map (exampleDelivery mac)) =
        [exampleCommand mac 0, exampleCommand mac 1, exampleCommand mac 0] ∧
      (acceptedCommands (exampleLib mac) exampleKey ([0, 1, 0].map (exampleDelivery mac))).map
        Command.nonce = [exampleNonce 0, exampleNonce 1] ∧
      NoReplay (exampleLib mac) exampleKey ([0, 1, 0].map (exampleDelivery mac)) := by
  refine ⟨by decide +kernel, fun mac => ?_⟩
  have hpresented := presented_eviction mac [0, 1, 0]
  refine ⟨hpresented, ?_, (replay_safe _ _ _).1 (remembered_of_short ?_)⟩
  · rw [accepted_nonces, hpresented]
    exact (by decide +kernel : Recency.taken NONCE_CACHE_SIZE [] [exampleNonce 0, exampleNonce 1,
      exampleNonce 0] = [exampleNonce 0, exampleNonce 1])
  · rw [hpresented, List.length_map]
    decide

theorem eviction_identify :
    NoncesIdentify (exampleLib mac) exampleKey (evictionRun mac) := by
  have hlt : ∀ i ∈ evictionOrder, i < 65536 := by
    intro i hi
    rcases List.mem_append.mp hi with hi | hi
    · exact Nat.lt_of_lt_of_le (List.mem_range.mp hi) (by decide)
    · rw [List.mem_singleton.mp hi]
      decide
  rw [NoncesIdentify, evictionRun, presented_eviction]
  intro c hc c' hc' hnonce
  obtain ⟨i, hi, rfl⟩ := List.mem_map.mp hc
  obtain ⟨j, hj, rfl⟩ := List.mem_map.mp hc'
  rw [exampleNonce_inj (hlt i hi) (hlt j hj) hnonce]

theorem eviction_forgets :
    ¬ Remembered (exampleLib mac) exampleKey (evictionRun mac) := by
  intro h
  rw [Remembered, evictionRun, presented_eviction, evictionOrder, List.map_append] at h
  have hfirst := h _ (exampleCommand mac 0) [] rfl
  have hnodup : ((List.range (NONCE_CACHE_SIZE + 1)).map exampleNonce).Nodup := by
    refine List.nodup_range.map_on fun i hi j hj => exampleNonce_inj ?_ ?_
    · exact Nat.lt_of_lt_of_le (List.mem_range.mp hi) (by decide)
    · exact Nat.lt_of_lt_of_le (List.mem_range.mp hj) (by decide)
  have hnonces : ((List.range (NONCE_CACHE_SIZE + 1)).map (exampleCommand mac)).map
      Command.nonce = exampleNonce 0 ::
        ((List.range NONCE_CACHE_SIZE).map Nat.succ).map exampleNonce := by
    have hcommand : Command.nonce ∘ exampleCommand mac = exampleNonce := rfl
    rw [List.map_map, hcommand, List.range_succ_eq_map, List.map_cons]
  rw [List.range_succ_eq_map, List.map_cons] at hnodup
  rw [hnonces] at hfirst
  exact Recency.not_mem_rtake hnodup (by rw [List.length_map, List.length_map, List.length_range])
    (hfirst (List.mem_cons_self ..))

end Eviction

/-- Whatever the message authentication code, the first of 4097 commands is accepted again
behind the last, in the second of its issue. -/
theorem replay_after_eviction :
    ¬ ∃ mac : Bytes → Bytes → Bytes, NoReplay (exampleLib mac) exampleKey (evictionRun mac) := by
  rintro ⟨mac, h⟩
  exact eviction_forgets mac ((noReplay_iff (eviction_identify mac)).mp h)

end TrafficAnalyzer
