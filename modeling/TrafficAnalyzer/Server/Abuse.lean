import TrafficAnalyzer.Lib.Lts
import TrafficAnalyzer.Server.Ioc

/-!
# The reputation cache (`src/server/nta_abuse.c`)

Workers ask `nta_abuse_score` for the score of an address. A call reads the clock, takes the
lock, and either answers from the cache or asks AbuseIPDB, still under the lock. The reading
of the clock, the section up to the HTTP request, and the section behind it are steps of
their own.

1. `abuse_paced`: two requests for one string are more than the TTL of the first apart, and
   what is answered in between is its score, as long as every requested string fits the table
   and every request is sent in the second in which its call has read the clock.
2. `longAddress_asked_twice`: a string of 46 bytes is asked twice in one second.
-/

namespace TrafficAnalyzer

open Chains

/-! ## The source -/

def CACHE_BUCKETS : Nat := 4096

/-- `hash_ip(ip) % CACHE_BUCKETS`. -/
def cacheBucket (ip : Bytes) : Fin CACHE_BUCKETS :=
  ⟨(hashIp ip).toNat % CACHE_BUCKETS, Nat.mod_lt _ (by decide)⟩

/-- `CacheEntry`, without its key. -/
structure CacheEntry where
  score : Int
  expiresAt : Int
deriving DecidableEq, Repr

/-- The fields of `NtaAbuseCfg` that a lookup reads. -/
structure NtaAbuseCfg where
  ttlSec : Int
  negTtlSec : Int

abbrev AbuseCache := Chains CACHE_BUCKETS Bytes CacheEntry

/-- `is_private_ip`, on a string that is not `NULL`. -/
def isPrivateIp (ip : Bytes) : Bool :=
  ip = [] ∨ ip.take 4 = ascii "127." ∨ ip.take 8 = ascii "192.168." ∨ ip.take 3 = ascii "10." ∨
    ip.take 4 = ascii "172."

/-- `cache_get_locked`. -/
def cacheGetLocked (cache : AbuseCache) (ip : Bytes) (now : Int) : Option Int :=
  match find cacheBucket cache ip with
  | some e => if e.expiresAt < now then none else some e.score
  | none => none

/-- `cache_put_locked`. -/
def cachePutLocked (cache : AbuseCache) (ip : Bytes) (score expiresAt : Int) : AbuseCache :=
  if IP_KEY_MAX ≤ ip.length then cache
  else put cacheBucket cache ip ⟨score, expiresAt⟩

/-- The cast to `int`: truncation towards zero, and the least value out of range. -/
def toInt (x : Binary64) : Int :=
  if -2 ^ 31 ≤ x.toLongLong ∧ x.toLongLong < 2 ^ 31 then x.toLongLong else -2 ^ 31

/-- How a request ends: without a response, or with its code and the value of its body. -/
inductive HttpOutcome
  | failed
  | response (httpCode : Int) (root : Option Json)

/-- `http_query_locked`: a score between 0 and 100, or -1. -/
def httpQueryLocked : HttpOutcome → Int
  | .failed => -1
  | .response httpCode root =>
    if httpCode < 200 ∨ httpCode ≥ 300 then -1
    else
      match (root.bind (·.getItem (ascii "data"))).bind
          (·.getItem (ascii "abuseConfidenceScore")) with
      | some (.number x) => if toInt x < 0 then 0 else if toInt x > 100 then 100 else toInt x
      | _ => -1

/-- The time for which an answer is kept. -/
def NtaAbuseCfg.ttl (cfg : NtaAbuseCfg) (score : Int) : Int :=
  if score ≥ 0 then cfg.ttlSec else cfg.negTtlSec

/-! ## The workers -/

/-- Where a worker is in `nta_abuse_score`: outside, before the lock, or at the HTTP request
that it has sent at the time `sent`. -/
inductive AbusePhase
  | outside
  | waiting (ip : Bytes) (now : Int)
  | querying (ip : Bytes) (now sent : Int)
  | returned (score : Int)
deriving DecidableEq, Repr

structure AbuseState where
  clock : Int
  cache : AbuseCache
  holder : Option Nat
  phases : Nat → AbusePhase

inductive AbuseLabel
  | tick (secs : Nat)
  | call (w : Nat) (ip : Bytes)
  | lock (w : Nat)
  | reply (w : Nat) (outcome : HttpOutcome)

def AbuseState.setPhase (s : AbuseState) (w : Nat) (p : AbusePhase) : AbuseState :=
  { s with phases := Function.update s.phases w p }

/-- `nta_abuse_score` up to the lock. -/
def AbuseState.enter (s : AbuseState) (w : Nat) (ip : Bytes) : AbuseState :=
  if isPrivateIp ip then s.setPhase w (.returned (-1)) else s.setPhase w (.waiting ip s.clock)

/-- The request that a call sends with the lock. -/
def AbuseState.send (s : AbuseState) (w : Nat) (ip : Bytes) (now : Int) : AbuseState :=
  { s.setPhase w (.querying ip now s.clock) with holder := some w }

/-- The end of `nta_abuse_score` behind a request. -/
def AbuseState.finish (s : AbuseState) (w : Nat) (ip : Bytes) (score expiresAt : Int) :
    AbuseState :=
  { s.setPhase w (.returned score) with
    cache := cachePutLocked s.cache ip score expiresAt
    holder := none }

/-- The steps of the clock and of `nta_abuse_score`. -/
def abuseStep (cfg : NtaAbuseCfg) (s : AbuseState) : AbuseLabel → Option AbuseState
  | .tick secs => some { s with clock := s.clock + secs }
  | .call w ip =>
    match s.phases w with
    | .outside | .returned _ => some (s.enter w ip)
    | _ => none
  | .lock w =>
    match s.phases w, s.holder with
    | .waiting ip now, none =>
      match cacheGetLocked s.cache ip now with
      | some score => some (s.setPhase w (.returned score))
      | none => some (s.send w ip now)
    | _, _ => none
  | .reply w outcome =>
    match s.phases w with
    | .querying ip now _ =>
      let score := httpQueryLocked outcome
      some (s.finish w ip score (now + cfg.ttl score))
    | _ => none

/-- `nta_abuse_open`, at some time. -/
def AbuseState.start (clock : Int) : AbuseState := ⟨clock, Chains.empty, none, fun _ => .outside⟩

def abuseLts (cfg : NtaAbuseCfg) : Lts AbuseState AbuseLabel where
  init s := ∃ clock, s = .start clock
  step := abuseStep cfg

abbrev AbuseStep := Lts.Step AbuseState AbuseLabel

/-- The worker is outside `nta_abuse_score`. -/
def AbusePhase.IsFree (p : AbusePhase) : Prop := p = .outside ∨ ∃ score, p = .returned score

/-- The steps by what they need and what they change. -/
inductive AbuseMove (cfg : NtaAbuseCfg) (s : AbuseState) : AbuseLabel → AbuseState → Prop
  | tick {secs} : AbuseMove cfg s (.tick secs) { s with clock := s.clock + secs }
  | skip {w ip} : (s.phases w).IsFree → isPrivateIp ip = true →
      AbuseMove cfg s (.call w ip) (s.setPhase w (.returned (-1)))
  | call {w ip} : (s.phases w).IsFree → isPrivateIp ip = false →
      AbuseMove cfg s (.call w ip) (s.setPhase w (.waiting ip s.clock))
  | hit {w ip now e} : s.phases w = .waiting ip now → s.holder = none →
      find cacheBucket s.cache ip = some e → now ≤ e.expiresAt →
      AbuseMove cfg s (.lock w) (s.setPhase w (.returned e.score))
  | send {w ip now} : s.phases w = .waiting ip now → s.holder = none →
      (∀ e, find cacheBucket s.cache ip = some e → e.expiresAt < now) →
      AbuseMove cfg s (.lock w) (s.send w ip now)
  | reply {w ip now sent outcome} : s.phases w = .querying ip now sent →
      AbuseMove cfg s (.reply w outcome)
        (s.finish w ip (httpQueryLocked outcome) (now + cfg.ttl (httpQueryLocked outcome)))

section Step

variable {cfg : NtaAbuseCfg} {s s' : AbuseState} {l : AbuseLabel}

theorem cacheGetLocked_some {cache : AbuseCache} {ip : Bytes} {now score : Int}
    (h : cacheGetLocked cache ip now = some score) :
    ∃ e, find cacheBucket cache ip = some e ∧ now ≤ e.expiresAt ∧ e.score = score := by
  unfold cacheGetLocked at h
  split at h
  · next e hfind =>
    split at h
    · cases h
    · next hlive => exact ⟨e, hfind, Int.not_lt.mp hlive, Option.some.inj h⟩
  · cases h

theorem cacheGetLocked_none {cache : AbuseCache} {ip : Bytes} {now : Int}
    (h : cacheGetLocked cache ip now = none) (e : CacheEntry)
    (hfind : find cacheBucket cache ip = some e) : e.expiresAt < now := by
  rw [cacheGetLocked, hfind] at h
  dsimp only at h
  split at h
  · assumption
  · cases h

theorem cacheGetLocked_miss {cache : AbuseCache} {ip : Bytes} {now : Int}
    (h : ∀ e, find cacheBucket cache ip = some e → e.expiresAt < now) :
    cacheGetLocked cache ip now = none := by
  unfold cacheGetLocked
  split
  · next e hfind => rw [if_pos (h e hfind)]
  · rfl

theorem enter_move {w : Nat} (hfree : (s.phases w).IsFree) (ip : Bytes) :
    AbuseMove cfg s (.call w ip) (s.enter w ip) := by
  unfold AbuseState.enter
  cases hip : isPrivateIp ip with
  | true => exact .skip hfree hip
  | false => exact .call hfree hip

theorem abuseStep_move (h : abuseStep cfg s l = some s') : AbuseMove cfg s l s' := by
  cases l with
  | tick secs =>
    cases h
    exact .tick
  | call w ip =>
    rw [abuseStep] at h
    split at h <;> cases h
    · next hphase => exact enter_move (.inl hphase) ip
    · next score hphase => exact enter_move (.inr ⟨score, hphase⟩) ip
  | lock w =>
    rw [abuseStep] at h
    split at h
    · next hphase hholder =>
      split at h
      · next score hget =>
        cases h
        obtain ⟨e, hfind, hlive, rfl⟩ := cacheGetLocked_some hget
        exact .hit hphase hholder hfind hlive
      · next hget =>
        cases h
        exact .send hphase hholder (cacheGetLocked_none hget)
    · cases h
  | reply w outcome =>
    rw [abuseStep] at h
    split at h <;> cases h
    next hphase => exact .reply hphase

theorem move_abuseStep (h : AbuseMove cfg s l s') : abuseStep cfg s l = some s' := by
  cases h with
  | tick => rfl
  | skip hfree hip =>
    rcases hfree with hphase | ⟨score, hphase⟩
    · simp [abuseStep, hphase, AbuseState.enter, hip]
    · simp [abuseStep, hphase, AbuseState.enter, hip]
  | call hfree hip =>
    rcases hfree with hphase | ⟨score, hphase⟩
    · simp [abuseStep, hphase, AbuseState.enter, hip]
    · simp [abuseStep, hphase, AbuseState.enter, hip]
  | hit hphase hholder hfind hlive =>
    simp [abuseStep, hphase, hholder, cacheGetLocked, hfind, Int.not_lt.mpr hlive]
  | @send w ip now hphase hholder hmiss =>
    simp [abuseStep, hphase, hholder, cacheGetLocked_miss hmiss]
  | reply hphase => simp [abuseStep, hphase]

theorem setPhase_phases (s : AbuseState) (w i : Nat) (p : AbusePhase) :
    (s.setPhase w p).phases i = if i = w then p else s.phases i :=
  Function.update_apply _ _ _ _

theorem setPhase_self (s : AbuseState) (w : Nat) (p : AbusePhase) : (s.setPhase w p).phases w = p :=
  Function.update_self ..

theorem send_phases (s : AbuseState) (w i : Nat) (ip : Bytes) (now : Int) :
    (s.send w ip now).phases i = if i = w then .querying ip now s.clock else s.phases i :=
  setPhase_phases s w i _

theorem send_self (s : AbuseState) (w : Nat) (ip : Bytes) (now : Int) :
    (s.send w ip now).phases w = .querying ip now s.clock :=
  setPhase_self s w _

theorem finish_phases (s : AbuseState) (w i : Nat) (ip : Bytes) (score expiresAt : Int) :
    (s.finish w ip score expiresAt).phases i = if i = w then .returned score else s.phases i :=
  setPhase_phases s w i _

end Step

/-! ## Requests and answers -/

/-- The request that a step sends: its string, the clock as its call has read it, and the
time. -/
def sentBy (x : AbuseStep) : Option (Bytes × Int × Int) :=
  match x.label with
  | .lock w =>
    match x.after.phases w with
    | .querying ip now sent => some (ip, now, sent)
    | _ => none
  | _ => none

/-- The string and the score of a call that is answered from the cache. -/
def answeredBy (x : AbuseStep) : Option (Bytes × Int) :=
  match x.label with
  | .lock w =>
    match x.before.phases w, x.after.phases w with
    | .waiting ip _, .returned score => some (ip, score)
    | _, _ => none
  | _ => none

/-- A request that is over. -/
structure Query where
  ip : Bytes
  sent : Int
  score : Int
deriving DecidableEq, Repr

def finishedBy (x : AbuseStep) : Option Query :=
  match x.label with
  | .reply w outcome =>
    match x.before.phases w with
    | .querying ip _ sent => some ⟨ip, sent, httpQueryLocked outcome⟩
    | _ => none
  | _ => none

def queries (tr : List AbuseStep) : List Query := tr.filterMap finishedBy

def lastQuery (ip : Bytes) (tr : List AbuseStep) : Option Query :=
  ((queries tr).filter fun q => q.ip = ip).getLast?

/-- A step after the steps `pre`: a request comes later than the TTL of every request for its
string, an answer from the cache is the score of the last one, and no string has two
entries. -/
structure PacedAt (cfg : NtaAbuseCfg) (pre : List AbuseStep) (x : AbuseStep) : Prop where
  spaced : ∀ ip now sent, sentBy x = some (ip, now, sent) →
    ∀ q ∈ queries pre, q.ip = ip → cfg.ttl q.score < sent - q.sent
  cached : ∀ ip score, answeredBy x = some (ip, score) →
    ∃ q, lastQuery ip pre = some q ∧ q.score = score
  single : (keys x.after.cache).Nodup

def Paced (cfg : NtaAbuseCfg) (tr : List AbuseStep) : Prop :=
  ∀ pre x post, tr = pre ++ x :: post → PacedAt cfg pre x

/-- The string that a worker with the lock does not find in the cache, and the clock as its
call has read it. -/
def missedBy (x : AbuseStep) : Option (Bytes × Int) :=
  match x.label with
  | .lock w =>
    match x.before.phases w with
    | .waiting ip now =>
      if (cacheGetLocked x.before.cache ip now).isNone then some (ip, now) else none
    | _ => none
  | _ => none

/-- A miss of a string that the table does not take, or of a call that has read the clock in
an earlier second. -/
def Disrupts (x : AbuseStep) : Prop :=
  ∃ r ∈ missedBy x, IP_KEY_MAX ≤ r.1.length ∨ r.2 ≠ x.before.clock

instance (x : AbuseStep) : Decidable (Disrupts x) :=
  inferInstanceAs (Decidable (∃ r ∈ missedBy x, IP_KEY_MAX ≤ r.1.length ∨ r.2 ≠ x.before.clock))

/-! ## The invariants -/

/-- What holds in every state. -/
structure AbuseInv (s : AbuseState) : Prop where
  placed : WellPlaced cacheBucket s.cache
  short : ∀ ip, IP_KEY_MAX ≤ ip.length → find cacheBucket s.cache ip = none
  waiting : ∀ w ip now, s.phases w = .waiting ip now → isPrivateIp ip = false ∧ now ≤ s.clock
  querying : ∀ w ip now sent, s.phases w = .querying ip now sent →
    isPrivateIp ip = false ∧ now ≤ sent ∧ sent ≤ s.clock ∧ s.holder = some w

/-- What the cache knows of the requests so far, as long as no step disrupts. -/
structure CacheKnows (cfg : NtaAbuseCfg) (tr : List AbuseStep) (s : AbuseState) : Prop where
  answers : ∀ ip e, find cacheBucket s.cache ip = some e →
    ∃ q, lastQuery ip tr = some q ∧ q.score = e.score
  known : ∀ q ∈ queries tr, ∃ e, find cacheBucket s.cache q.ip = some e ∧
    q.sent + cfg.ttl q.score ≤ e.expiresAt
  asked : ∀ w ip now sent, s.phases w = .querying ip now sent → ip.length < IP_KEY_MAX ∧
    now = sent ∧ ∀ q ∈ queries tr, q.ip = ip → q.sent + cfg.ttl q.score < sent

section Invariants

variable {cfg : NtaAbuseCfg} {s s' : AbuseState} {l : AbuseLabel} {tr : List AbuseStep}

theorem find_cachePutLocked {cache : AbuseCache} {ip : Bytes} {score expiresAt : Int}
    (k : Bytes) (hip : ip.length < IP_KEY_MAX) :
    find cacheBucket (cachePutLocked cache ip score expiresAt) k =
      if k = ip then some ⟨score, expiresAt⟩ else find cacheBucket cache k := by
  rw [cachePutLocked, if_neg (Nat.not_le.mpr hip), find_put]

theorem AbuseInv.start (clock : Int) : AbuseInv (.start clock) where
  placed := .empty
  short := fun _ _ => rfl
  waiting := fun _ _ _ h => nomatch h
  querying := fun _ _ _ _ h => nomatch h

/-- A worker that goes on to a place outside the lock. -/
theorem AbuseInv.leave (h : AbuseInv s) {w : Nat} {p : AbusePhase}
    (hp : ∀ ip now sent, p ≠ .querying ip now sent)
    (hwait : ∀ ip now, p = .waiting ip now → isPrivateIp ip = false ∧ now ≤ s.clock) :
    AbuseInv (s.setPhase w p) where
  placed := h.placed
  short := h.short
  waiting := by
    intro i ip now hi
    rw [setPhase_phases] at hi
    split at hi
    · exact hwait ip now hi
    · exact h.waiting i ip now hi
  querying := by
    intro i ip now sent hi
    rw [setPhase_phases] at hi
    split at hi
    · exact absurd hi (hp ip now sent)
    · exact h.querying i ip now sent hi

/-- Two workers do not query at once. -/
theorem AbuseInv.alone (h : AbuseInv s) {i w : Nat} {ip ip' : Bytes} {now now' sent sent' : Int}
    (hw : s.phases w = .querying ip now sent) (hi : s.phases i = .querying ip' now' sent') :
    i = w := by
  have hholder := (h.querying w ip now sent hw).2.2.2
  have hother := (h.querying i ip' now' sent' hi).2.2.2
  rw [hholder] at hother
  exact (Option.some.inj hother).symm

/-- The step lemma of the states. -/
theorem abuseStep_inv (h : AbuseInv s) (hs : abuseStep cfg s l = some s') : AbuseInv s' := by
  cases abuseStep_move hs with
  | @tick secs =>
    have hclock : s.clock ≤ s.clock + secs := Int.le_add_of_nonneg_right (Int.natCast_nonneg secs)
    refine ⟨h.placed, h.short, fun w ip now hw => ?_, fun w ip now sent hw => ?_⟩
    · exact ⟨(h.waiting w ip now hw).1, Int.le_trans (h.waiting w ip now hw).2 hclock⟩
    · obtain ⟨hip, hnow, hsent, hholder⟩ := h.querying w ip now sent hw
      exact ⟨hip, hnow, Int.le_trans hsent hclock, hholder⟩
  | skip => exact h.leave nofun nofun
  | call _ hip =>
    refine h.leave nofun fun ip now hp => ?_
    cases hp
    exact ⟨hip, Int.le_refl _⟩
  | hit => exact h.leave nofun nofun
  | @send w ip now hphase hholder hmiss =>
    obtain ⟨hip, hnow⟩ := h.waiting w ip now hphase
    refine ⟨h.placed, h.short, fun i ip' now' hi => ?_, fun i ip' now' sent' hi => ?_⟩
    · rw [send_phases] at hi
      split at hi
      · cases hi
      · exact h.waiting i ip' now' hi
    · rw [send_phases] at hi
      split at hi
      · next hi' =>
        cases hi
        exact ⟨hip, hnow, Int.le_refl _, congrArg some hi'.symm⟩
      · -- nobody else holds the lock
        have hother := (h.querying i ip' now' sent' hi).2.2.2
        rw [hholder] at hother
        cases hother
  | @reply w ip now sent outcome hphase =>
    refine ⟨?_, fun k hk => ?_, fun i ip' now' hi => ?_, fun i ip' now' sent' hi => ?_⟩
    · rw [AbuseState.finish, cachePutLocked]
      split
      · exact h.placed
      · exact h.placed.put
    · rw [AbuseState.finish, cachePutLocked]
      split
      · exact h.short k hk
      · next hshort =>
        rw [find_put, if_neg fun he : k = ip => hshort (he ▸ hk)]
        exact h.short k hk
    · rw [finish_phases] at hi
      split at hi
      · cases hi
      · exact h.waiting i ip' now' hi
    · rw [finish_phases] at hi
      split at hi
      · cases hi
      · next hne => exact absurd (h.alone hphase hi) hne

theorem queries_snoc (x : AbuseStep) :
    queries (tr ++ [x]) = queries tr ++ (finishedBy x).toList := by
  rw [queries, queries, List.filterMap_append]
  cases hx : finishedBy x with
  | none => simp [hx]
  | some q => simp [hx]

/-- A step that finishes no request. -/
theorem queries_same {x : AbuseStep} (hx : finishedBy x = none) :
    queries (tr ++ [x]) = queries tr := by
  rw [queries_snoc, hx, Option.toList_none, List.append_nil]

theorem lastQuery_same {x : AbuseStep} (hx : finishedBy x = none) (ip : Bytes) :
    lastQuery ip (tr ++ [x]) = lastQuery ip tr := by
  rw [lastQuery, lastQuery, queries_same hx]

theorem lastQuery_snoc {x : AbuseStep} {q : Query} (hx : finishedBy x = some q) (ip : Bytes) :
    lastQuery ip (tr ++ [x]) = if q.ip = ip then some q else lastQuery ip tr := by
  rw [lastQuery, lastQuery, queries_snoc, hx, Option.toList_some, List.filter_append]
  split
  · next hip => simp [hip]
  · next hip => simp [hip]

/-- A step that changes neither the cache nor the requests, and starts none. -/
theorem CacheKnows.keep (h : CacheKnows cfg tr s) {x : AbuseStep} (hx : finishedBy x = none)
    (hcache : s'.cache = s.cache)
    (hphases : ∀ w ip now sent, s'.phases w = .querying ip now sent →
      s.phases w = .querying ip now sent) : CacheKnows cfg (tr ++ [x]) s' where
  answers := by
    intro ip e he
    rw [lastQuery_same hx]
    rw [hcache] at he
    exact h.answers ip e he
  known := by
    intro q hq
    rw [queries_same hx] at hq
    rw [hcache]
    exact h.known q hq
  asked := by
    intro w ip now sent hw
    rw [queries_same hx]
    exact h.asked w ip now sent (hphases w ip now sent hw)

/-- A worker that goes on to a place outside the lock starts no request. -/
theorem CacheKnows.leave (h : CacheKnows cfg tr s) {x : AbuseStep} (hx : finishedBy x = none)
    {w : Nat} {p : AbusePhase} (hp : ∀ ip now sent, p ≠ .querying ip now sent) :
    CacheKnows cfg (tr ++ [x]) (s.setPhase w p) := by
  refine h.keep hx rfl fun i ip now sent hi => ?_
  rw [setPhase_phases] at hi
  split at hi
  · exact absurd hi (hp ip now sent)
  · exact hi

theorem ttl_pos (hpos : 0 < cfg.ttlSec) (hneg : 0 < cfg.negTtlSec) (score : Int) :
    0 < cfg.ttl score := by
  unfold NtaAbuseCfg.ttl
  split
  · exact hpos
  · exact hneg

/-- A step of a cache that knows the requests keeps the discipline. -/
theorem abuseStep_paced (hinv : AbuseInv s) (h : CacheKnows cfg tr s)
    (hs : abuseStep cfg s l = some s') : PacedAt cfg tr ⟨s, l, s'⟩ := by
  have hsingle : (keys s'.cache).Nodup := keys_nodup (abuseStep_inv hinv hs).placed
  cases abuseStep_move hs with
  | tick => exact ⟨nofun, nofun, hsingle⟩
  | skip => exact ⟨nofun, nofun, hsingle⟩
  | call => exact ⟨nofun, nofun, hsingle⟩
  | reply => exact ⟨nofun, nofun, hsingle⟩
  | @hit w ip now e hphase _ hfind _ =>
    refine ⟨fun ip' now' sent' hx => ?_, fun ip' score hx => ?_, hsingle⟩
    · simp [sentBy, setPhase_self] at hx
    · simp only [answeredBy, hphase, setPhase_self, Option.some.injEq, Prod.mk.injEq] at hx
      obtain ⟨rfl, rfl⟩ := hx
      exact h.answers ip e hfind
  | @send w ip now hphase _ hmiss =>
    refine ⟨fun ip' now' sent' hx q hq hip => ?_, fun ip' score hx => ?_, hsingle⟩
    · simp only [sentBy, send_self, Option.some.injEq, Prod.mk.injEq] at hx
      obtain ⟨rfl, rfl, rfl⟩ := hx
      obtain ⟨e, hfind, hexp⟩ := h.known q hq
      have hlate := hmiss e (hip ▸ hfind)
      have hnow := (hinv.waiting w ip now hphase).2
      omega
    · simp [answeredBy, hphase, send_self] at hx

/-- A step that does not disrupt leaves the cache knowing the requests. -/
theorem abuseStep_known (hpos : 0 < cfg.ttlSec) (hneg : 0 < cfg.negTtlSec) (hinv : AbuseInv s)
    (h : CacheKnows cfg tr s) (hs : abuseStep cfg s l = some s')
    (hcalm : ¬ Disrupts ⟨s, l, s'⟩) : CacheKnows cfg (tr ++ [⟨s, l, s'⟩]) s' := by
  cases abuseStep_move hs with
  | tick => exact h.keep rfl rfl fun _ _ _ _ hw => hw
  | skip => exact h.leave rfl nofun
  | call => exact h.leave rfl nofun
  | hit => exact h.leave rfl nofun
  | @send w ip now hphase hholder hmiss =>
    have hmissed : missedBy ⟨s, .lock w, s.send w ip now⟩ = some (ip, now) := by
      simp [missedBy, hphase, cacheGetLocked_miss hmiss]
    have hok : ¬ (IP_KEY_MAX ≤ ip.length ∨ now ≠ s.clock) := fun hbad =>
      hcalm ⟨(ip, now), hmissed, hbad⟩
    obtain ⟨hshort, hnow⟩ := not_or.mp hok
    have hq : queries (tr ++ [⟨s, .lock w, s.send w ip now⟩]) = queries tr := queries_same rfl
    refine ⟨fun k e he => ?_, fun q hmem => ?_, fun i ip' now' sent' hi => ?_⟩
    · rw [lastQuery_same rfl]
      exact h.answers k e he
    · rw [hq] at hmem
      exact h.known q hmem
    · rw [hq]
      rw [send_phases] at hi
      split at hi
      · cases hi
        refine ⟨Nat.lt_of_not_le hshort, Decidable.not_not.mp hnow, fun q hmem hip => ?_⟩
        obtain ⟨e, hfind, hexp⟩ := h.known q hmem
        have hlate := hmiss e (hip ▸ hfind)
        rw [Decidable.not_not.mp hnow] at hlate
        exact Int.lt_of_le_of_lt hexp hlate
      · exact h.asked i ip' now' sent' hi
  | @reply w ip now sent outcome hphase =>
    obtain ⟨hshort, rfl, hold⟩ := h.asked w ip now sent hphase
    have hfinished : finishedBy ⟨s, .reply w outcome, s.finish w ip (httpQueryLocked outcome)
        (now + cfg.ttl (httpQueryLocked outcome))⟩ = some ⟨ip, now, httpQueryLocked outcome⟩ := by
      simp [finishedBy, hphase]
    refine ⟨fun k e he => ?_, fun q hmem => ?_, fun i ip' now' sent' hi => ?_⟩
    · rw [lastQuery_snoc hfinished]
      rw [AbuseState.finish, find_cachePutLocked k hshort] at he
      split at he
      · next hk =>
        cases he
        exact ⟨_, if_pos hk.symm, rfl⟩
      · next hk =>
        rw [if_neg fun hip => hk hip.symm]
        exact h.answers k e he
    · rw [AbuseState.finish, find_cachePutLocked q.ip hshort]
      rw [queries_snoc, hfinished, Option.toList_some] at hmem
      have hnew := ttl_pos hpos hneg (httpQueryLocked outcome)
      rcases List.mem_append.mp hmem with hmem | hmem
      · split
        · next hip =>
          have hearlier := hold q hmem hip
          exact ⟨_, rfl, Int.le_of_lt (Int.lt_trans hearlier (Int.lt_add_of_pos_right now hnew))⟩
        · exact h.known q hmem
      · obtain rfl := List.mem_singleton.mp hmem
        exact ⟨_, if_pos rfl, Int.le_refl _⟩
    · rw [finish_phases] at hi
      split at hi
      · cases hi
      · next hne => exact absurd (hinv.alone hphase hi) hne

theorem run_abuseInv {s0 : AbuseState} (h0 : (abuseLts cfg).init s0)
    (h : Lts.Run (abuseLts cfg) s0 tr s) : AbuseInv s := by
  obtain ⟨clock, rfl⟩ := h0
  exact h.induct (I := fun _ s => AbuseInv s) (.start clock) fun _ _ _ _ _ hi hs => abuseStep_inv hi hs

/-- A run without a step that disrupts keeps the discipline. -/
theorem run_paced (hpos : 0 < cfg.ttlSec) (hneg : 0 < cfg.negTtlSec) {s0 : AbuseState}
    (h0 : (abuseLts cfg).init s0) (h : Lts.Run (abuseLts cfg) s0 tr s)
    (hcalm : ∀ x ∈ tr, ¬ Disrupts x) : Paced cfg tr ∧ CacheKnows cfg tr s := by
  induction h with
  | nil =>
    obtain ⟨clock, rfl⟩ := h0
    refine ⟨fun pre x post he => ?_, ⟨nofun, fun q hq => ?_, nofun⟩⟩
    · cases pre <;> cases he
    · exact absurd hq List.not_mem_nil
  | @snoc tr t u l hr hs ih =>
    obtain ⟨hpaced, hknows⟩ := ih fun x hx => hcalm x (List.mem_append_left _ hx)
    have hinv := run_abuseInv h0 hr
    have hlast := hcalm ⟨t, l, u⟩ (List.mem_append_right _ (List.mem_singleton_self _))
    exact ⟨Lts.forall_split_snoc.mpr ⟨hpaced, abuseStep_paced hinv hknows hs⟩,
      abuseStep_known hpos hneg hinv hknows hs hlast⟩

/-- When the cache has no answer that lasts `d` seconds, a worker sends a request then. -/
theorem ask_again {w : Nat} {ip : Bytes} (d : Nat) (hfree : (s.phases w).IsFree)
    (hholder : s.holder = none) (hip : isPrivateIp ip = false)
    (hmiss : ∀ e, find cacheBucket s.cache ip = some e → e.expiresAt < s.clock + d) :
    ∃ tr x t, Lts.Run (abuseLts cfg) s (tr ++ [x]) t ∧ queries tr = [] ∧
      sentBy x = some (ip, s.clock + d, s.clock + d) := by
  let later : AbuseState := { s with clock := s.clock + d }
  let called := later.setPhase w (.waiting ip later.clock)
  have htick : (abuseLts cfg).step s (.tick d) = some later := rfl
  have hcall : AbuseMove cfg later (.call w ip) called := .call hfree hip
  have hsend : AbuseMove cfg called (.lock w) (called.send w ip later.clock) :=
    .send (setPhase_self later w _) hholder hmiss
  refine ⟨_, _, _, ((Lts.Run.single htick).snoc (move_abuseStep hcall)).snoc
    (move_abuseStep hsend), rfl, ?_⟩
  simp only [sentBy, send_self]
  rfl

/-- A failure that is stored late, or not at all, is not known for its TTL. -/
theorem failure_expires (hinv : AbuseInv s) {ip : Bytes} {now : Int} (hnow : now ≤ s.clock)
    (hbad : IP_KEY_MAX ≤ ip.length ∨ now ≠ s.clock) {e : CacheEntry}
    (he : find cacheBucket (cachePutLocked s.cache ip (-1) (now + cfg.negTtlSec)) ip = some e) :
    e.expiresAt < s.clock + cfg.negTtlSec := by
  rw [cachePutLocked] at he
  split at he
  · next hlong =>
    rw [hinv.short ip hlong] at he
    cases he
  · next hshort =>
    have hstale : now ≠ s.clock := hbad.resolve_left hshort
    rw [find_put, if_pos rfl] at he
    cases he
    exact Int.add_lt_add_right (Int.lt_iff_le_and_ne.mpr ⟨hnow, hstale⟩) _

/-- After a step that disrupts the same string can be asked for once more too early. -/
theorem disrupts_step (hneg : 0 < cfg.negTtlSec) (hinv : AbuseInv s)
    (hs : abuseStep cfg s l = some s') (hx : Disrupts ⟨s, l, s'⟩) :
    ∃ tr' t, Lts.Run (abuseLts cfg) s' tr' t ∧ ∀ pre, ¬ Paced cfg (pre ++ ⟨s, l, s'⟩ :: tr') := by
  obtain ⟨⟨ip, now⟩, hmissed, hbad⟩ := hx
  cases abuseStep_move hs with
  | tick => cases hmissed
  | skip => cases hmissed
  | call => cases hmissed
  | reply => cases hmissed
  | hit hphase _ hfind hlive =>
    simp [missedBy, hphase, cacheGetLocked, hfind, Int.not_lt.mpr hlive] at hmissed
  | @send w ip' now' hphase hholder hmiss =>
    simp only [missedBy, hphase, cacheGetLocked_miss hmiss, Option.isNone_none, if_true,
      Option.mem_def, Option.some.injEq, Prod.mk.injEq] at hmissed
    obtain ⟨rfl, rfl⟩ := hmissed
    obtain ⟨hip, hnow⟩ := hinv.waiting w ip' now' hphase
    -- the request fails, and the worker asks again after the TTL of a failure
    let asked := s.send w ip' now'
    let failed := asked.finish w ip' (-1) (now' + cfg.negTtlSec)
    have hfail : AbuseMove cfg asked (.reply w .failed) failed := .reply (send_self s w ip' now')
    have hreply : (abuseLts cfg).step asked (.reply w .failed) = some failed :=
      move_abuseStep hfail
    have hd : ((cfg.negTtlSec.toNat : Nat) : Int) = cfg.negTtlSec :=
      Int.toNat_of_nonneg (Int.le_of_lt hneg)
    have hexpired : ∀ e, find cacheBucket failed.cache ip' = some e →
        e.expiresAt < s.clock + cfg.negTtlSec.toNat := by
      intro e he
      rw [hd]
      exact failure_expires hinv hnow hbad he
    have hfree : (failed.phases w).IsFree := .inr ⟨-1, setPhase_self asked w _⟩
    obtain ⟨tr', x, t, hrun, hquiet, hsent⟩ :=
      @ask_again cfg failed w ip' cfg.negTtlSec.toNat hfree rfl hip hexpired
    refine ⟨_, t, (Lts.Run.single hreply).append hrun, fun pre hpaced => ?_⟩
    have hq : finishedBy ⟨asked, .reply w .failed, failed⟩ = some ⟨ip', s.clock, -1⟩ := by
      simp only [finishedBy, asked, send_self]
      rfl
    have hmem : (⟨ip', s.clock, -1⟩ : Query) ∈ queries
        (pre ++ ⟨s, .lock w, asked⟩ :: ⟨asked, .reply w .failed, failed⟩ :: tr') :=
      List.mem_filterMap.mpr ⟨_, by simp, hq⟩
    have hlast := hpaced (pre ++ ⟨s, .lock w, asked⟩ :: ⟨asked, .reply w .failed, failed⟩ :: tr')
      x [] (by simp [asked])
    have hearly : cfg.negTtlSec < s.clock + cfg.negTtlSec.toNat - s.clock :=
      hlast.spaced ip' _ _ hsent _ hmem rfl
    rw [hd] at hearly
    omega

/-- The run up to a step that disrupts can go on to break the discipline, whatever the steps
before it were. -/
theorem disrupted_fails (hneg : 0 < cfg.negTtlSec) {s0 : AbuseState} (h0 : (abuseLts cfg).init s0)
    {pre post : List AbuseStep} {x : AbuseStep}
    (h : Lts.Run (abuseLts cfg) s0 (pre ++ x :: post) s) (hx : Disrupts x) :
    ∃ tr' t, Lts.Run (abuseLts cfg) s0 (pre ++ x :: tr') t ∧
      ∀ earlier, ¬ Paced cfg (earlier ++ x :: tr') := by
  obtain ⟨hbefore, hstep, -⟩ := h.around
  obtain ⟨tr', t, hnext, hbad⟩ := disrupts_step hneg (run_abuseInv h0 hbefore) hstep hx
  refine ⟨tr', t, ?_, hbad⟩
  rw [List.append_cons]
  exact (hbefore.snoc hstep).append hnext

/-- Requests for one string are further apart than the TTL of each, with its score as the
answer in between, when no step disrupts. Whenever one does, the run up to this very step can go
on so that the steps from it on break this. -/
theorem abuse_paced (hpos : 0 < cfg.ttlSec) (hneg : 0 < cfg.negTtlSec) {s0 : AbuseState}
    (h0 : (abuseLts cfg).init s0) (h : Lts.Run (abuseLts cfg) s0 tr s) :
    ((∀ x ∈ tr, ¬ Disrupts x) → Paced cfg tr) ∧
      ∀ pre x post, tr = pre ++ x :: post → Disrupts x →
        ∃ tr' t, Lts.Run (abuseLts cfg) s0 (pre ++ x :: tr') t ∧
          ∀ earlier, ¬ Paced cfg (earlier ++ x :: tr') :=
  ⟨fun hcalm => (run_paced hpos hneg h0 h hcalm).1,
    fun _ _ _ htr hx => disrupted_fails hneg h0 (htr ▸ h) hx⟩

end Invariants

/-! ## Two runs -/

/-- `nta_abuse_load_cfg_from_env` without the variables. -/
def defaultAbuseCfg : NtaAbuseCfg := ⟨86400, 300⟩

/-- A request fails; 300 seconds later the answer is still the cached one, and a second after
that there is a new request. -/
def twiceAfterFailure (ip : Bytes) : List AbuseLabel :=
  [.call 0 ip, .lock 0, .reply 0 .failed, .tick 300, .call 1 ip, .lock 1, .tick 1, .call 0 ip,
    .lock 0]

theorem abuse_paced_twice :
    ∃ (tr : List AbuseStep) (s : AbuseState),
      Lts.Run (abuseLts defaultAbuseCfg) (.start 0) tr s ∧
        tr.filterMap sentBy = [(ascii "1.2.3.4", 0, 0), (ascii "1.2.3.4", 301, 301)] ∧
        tr.filterMap answeredBy = [(ascii "1.2.3.4", -1)] ∧ Paced defaultAbuseCfg tr := by
  have hok : ((abuseLts defaultAbuseCfg).exec (.start 0) (twiceAfterFailure (ascii "1.2.3.4"))).map
      (fun r => (r.1.filterMap sentBy, r.1.filterMap answeredBy,
        r.1.all fun x => decide (¬ Disrupts x))) =
      some ([(ascii "1.2.3.4", 0, 0), (ascii "1.2.3.4", 301, 301)], [(ascii "1.2.3.4", -1)],
        true) := by
    decide +kernel
  obtain ⟨tr, s, hrun, hval⟩ := Lts.run_of_exec hok
  simp only [Prod.mk.injEq, List.all_eq_true, decide_eq_true_eq] at hval
  obtain ⟨hsent, hanswered, hcalm⟩ := hval
  exact ⟨tr, s, hrun, hsent, hanswered,
    (abuse_paced (by decide) (by decide) ⟨0, rfl⟩ hrun).1 hcalm⟩

/-- A string of 46 bytes, one more than the table takes. -/
def longAddress : Bytes := List.replicate 46 57

/-- It is asked for twice in one second. -/
theorem longAddress_asked_twice :
    ∃ (tr : List AbuseStep) (s : AbuseState),
      Lts.Run (abuseLts defaultAbuseCfg) (.start 0) tr s ∧
        tr.filterMap sentBy = [(longAddress, 0, 0), (longAddress, 0, 0)] ∧
        ¬ Paced defaultAbuseCfg tr := by
  have hok : ((abuseLts defaultAbuseCfg).exec (.start 0)
      [.call 0 longAddress, .lock 0, .reply 0 .failed, .call 0 longAddress, .lock 0]).map
      (fun r => (r.1.filterMap sentBy, decide (⟨longAddress, 0, -1⟩ ∈ queries r.1.dropLast),
        decide (r.1.getLast?.bind sentBy = some (longAddress, 0, 0)))) =
      some ([(longAddress, 0, 0), (longAddress, 0, 0)], true, true) := by
    decide +kernel
  obtain ⟨tr, s, hrun, hval⟩ := Lts.run_of_exec hok
  simp only [Prod.mk.injEq, decide_eq_true_eq, Option.bind_eq_some_iff] at hval
  obtain ⟨hsent, hquery, x, hlast, hx⟩ := hval
  refine ⟨tr, s, hrun, hsent, fun hpaced => ?_⟩
  have hsplit : tr = tr.dropLast ++ [x] := (List.dropLast_append_getLast? x hlast).symm
  have hearly := (hpaced tr.dropLast x [] hsplit).spaced longAddress 0 0 hx _ hquery rfl
  exact absurd hearly (by decide)

end TrafficAnalyzer
