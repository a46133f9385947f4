import Mathlib.Logic.Function.Basic
import TrafficAnalyzer.Lib.Lts

/-!
# Stop requests (`pipeline_request_stop`)

`pipeline_request_stop` clears `g_running`, and breaks the loop of the handle that it finds
in `g_pcap_handle`. It is called by a signal handler or the service manager, at any moment
of the life of `capture_thread`, and any number of times. Every load and every store of
`g_pcap_handle` is a step of its own.

* `Heeds`: no completed request is ignored, and no closed handle is used.
* `Overtakes`: the steps in which a request and the capture pass each other unseen.
* `stop_heeded`: in a run without such a step every state heeds.
* `overtaken_fails`: the run up to such a step can go on to a state that does not.
* `stop_ignored`: a request before the handle is stored leaves the agent in `pcap_loop`.
-/

namespace TrafficAnalyzer

/-! ## The source -/

/-- Where `capture_thread` is. `entering` is past the store of the handle, up to the call of
`pcap_loop`; `closed` is past `pcap_close`. -/
inductive CapturePc
  | starting
  | opened (ok : Bool)
  | failing
  | entering
  | looping
  | returned
  | closed
  | leaving
  | exited
deriving DecidableEq, Repr

/-- Where a call of `pipeline_request_stop` is. `loading` is past the test of
`g_pcap_handle`, and `calling` has loaded the argument of `pcap_breakloop`, a handle or
NULL. The calls on NULL and on a closed handle do not return. -/
inductive RequestPc
  | idle
  | started
  | loading
  | calling (handle : Bool)
  | completed
  | nullCall
  | usedClosed
deriving DecidableEq, Repr

/-- The globals, the handle of libpcap, and the threads. `capture_thread` opens one handle,
so `g_pcap_handle` is it or NULL. -/
structure StopState where
  running : Bool
  pcapHandle : Bool
  captureError : Bool
  captureDone : Bool
  breakPending : Bool
  handleClosed : Bool
  capture : CapturePc
  requests : Nat → RequestPc

inductive StopLabel
  | open (ok : Bool)
  | store
  | fail
  | enterLoop
  | loopReturn (error : Bool)
  | close
  | clear
  | leave
  | requestStart (i : Nat)
  | requestCheck (i : Nat)
  | requestLoad (i : Nat)
  | requestCall (i : Nat)
deriving DecidableEq, Repr

def StopState.setRequest (s : StopState) (i : Nat) (pc : RequestPc) : StopState :=
  { s with requests := Function.update s.requests i pc }

/-- `capture_thread`, from `pcap_open_live` on. `pcap_loop` returns on an error or when a
break is pending, which it consumes. -/
def captureStep (s : StopState) : StopLabel → Option StopState
  | .open ok =>
    match s.capture with
    | .starting => some { s with capture := .opened ok }
    | _ => none
  | .store =>
    match s.capture with
    | .opened ok =>
      some { s with pcapHandle := ok, capture := if ok then .entering else .failing }
    | _ => none
  | .fail =>
    match s.capture with
    | .failing => some { s with running := false, captureError := true, capture := .leaving }
    | _ => none
  | .enterLoop =>
    match s.capture with
    | .entering => some { s with capture := .looping }
    | _ => none
  | .loopReturn error =>
    match s.capture with
    | .looping =>
      if error || s.breakPending then some { s with breakPending := false, capture := .returned }
      else none
    | _ => none
  | .close =>
    match s.capture with
    | .returned => some { s with handleClosed := true, capture := .closed }
    | _ => none
  | .clear =>
    match s.capture with
    | .closed => some { s with pcapHandle := false, capture := .leaving }
    | _ => none
  | .leave =>
    match s.capture with
    | .leaving => some { s with captureDone := true, capture := .exited }
    | _ => none
  | _ => none

/-- One call of `pipeline_request_stop`. -/
def requestStep (s : StopState) : StopLabel → Option StopState
  | .requestStart i =>
    match s.requests i with
    | .idle => some { s.setRequest i .started with running := false }
    | _ => none
  | .requestCheck i =>
    match s.requests i with
    | .started => some (s.setRequest i (if s.pcapHandle then .loading else .completed))
    | _ => none
  | .requestLoad i =>
    match s.requests i with
    | .loading => some (s.setRequest i (.calling s.pcapHandle))
    | _ => none
  | .requestCall i =>
    match s.requests i with
    | .calling false => some (s.setRequest i .nullCall)
    | .calling true =>
      if s.handleClosed then some (s.setRequest i .usedClosed)
      else some { s.setRequest i .completed with breakPending := true }
    | _ => none
  | _ => none

def stopStep (s : StopState) (l : StopLabel) : Option StopState :=
  (captureStep s l).or (requestStep s l)

/-- The start of the process. -/
def StopState.initial : StopState :=
  { running := true, pcapHandle := false, captureError := false, captureDone := false,
    breakPending := false, handleClosed := false, capture := .starting,
    requests := fun _ => .idle }

def stopLts : Lts StopState StopLabel where
  init s := s = .initial
  step := stopStep

abbrev StopStep := Lts.Step StopState StopLabel

/-! ## Inversion -/

/-- The steps by what they need and what they change. -/
inductive StopMove (s : StopState) : StopLabel → StopState → Prop
  | opened {ok} : s.capture = .starting → StopMove s (.open ok) { s with capture := .opened ok }
  | stored : s.capture = .opened true →
      StopMove s .store { s with pcapHandle := true, capture := .entering }
  | storedNull : s.capture = .opened false →
      StopMove s .store { s with pcapHandle := false, capture := .failing }
  | fail : s.capture = .failing →
      StopMove s .fail { s with running := false, captureError := true, capture := .leaving }
  | enterLoop : s.capture = .entering → StopMove s .enterLoop { s with capture := .looping }
  | loopReturn {error} : s.capture = .looping → (error || s.breakPending) = true →
      StopMove s (.loopReturn error) { s with breakPending := false, capture := .returned }
  | close : s.capture = .returned →
      StopMove s .close { s with handleClosed := true, capture := .closed }
  | clear : s.capture = .closed →
      StopMove s .clear { s with pcapHandle := false, capture := .leaving }
  | leave : s.capture = .leaving →
      StopMove s .leave { s with captureDone := true, capture := .exited }
  | requestStart {i} : s.requests i = .idle →
      StopMove s (.requestStart i) { s.setRequest i .started with running := false }
  | requestFound {i} : s.requests i = .started → s.pcapHandle = true →
      StopMove s (.requestCheck i) (s.setRequest i .loading)
  | requestNull {i} : s.requests i = .started → s.pcapHandle = false →
      StopMove s (.requestCheck i) (s.setRequest i .completed)
  | requestLoad {i} : s.requests i = .loading →
      StopMove s (.requestLoad i) (s.setRequest i (.calling s.pcapHandle))
  | requestNullCall {i} : s.requests i = .calling false →
      StopMove s (.requestCall i) (s.setRequest i .nullCall)
  | requestUse {i} : s.requests i = .calling true → s.handleClosed = true →
      StopMove s (.requestCall i) (s.setRequest i .usedClosed)
  | requestBreak {i} : s.requests i = .calling true → s.handleClosed = false →
      StopMove s (.requestCall i) { s.setRequest i .completed with breakPending := true }

theorem stopStep_move {s s' : StopState} {l : StopLabel} (h : stopStep s l = some s') :
    StopMove s l s' := by
  cases l with
  | store =>
    simp only [stopStep, captureStep, requestStep, Option.or_none] at h
    split at h <;> cases h
    next ok hc =>
      cases ok with
      | true => exact .stored hc
      | false => exact .storedNull hc
  | loopReturn error =>
    simp only [stopStep, captureStep, requestStep, Option.or_none] at h
    split at h
    · next hc =>
      split at h <;> cases h
      next hreturn => exact .loopReturn hc hreturn
    · cases h
  | requestCheck i =>
    simp only [stopStep, captureStep, requestStep, Option.none_or] at h
    split at h <;> cases h
    next hr =>
      cases hp : s.pcapHandle with
      | true => exact .requestFound hr hp
      | false => exact .requestNull hr hp
  | requestCall i =>
    simp only [stopStep, captureStep, requestStep, Option.none_or] at h
    split at h
    · next hr => cases h; exact .requestNullCall hr
    · next hr =>
      split at h <;> cases h
      · next hclosed => exact .requestUse hr hclosed
      · next hopen => exact .requestBreak hr (by simpa using hopen)
    · cases h
  | requestStart | requestLoad =>
    simp only [stopStep, captureStep, requestStep, Option.none_or] at h
    split at h
    · next hr => cases h; constructor; exact hr
    · cases h
  | _ =>
    simp only [stopStep, captureStep, requestStep, Option.or_none] at h
    split at h
    · next hc => cases h; constructor; exact hc
    · cases h

theorem move_stopStep {s s' : StopState} {l : StopLabel} (h : StopMove s l s') :
    stopStep s l = some s' := by
  cases h <;> simp [stopStep, captureStep, requestStep, *]

/-! ## What a stop request is for -/

/-- `capture_thread` is about to enter `pcap_loop`, or inside it. -/
def CapturePc.Waits (c : CapturePc) : Prop := c = .entering ∨ c = .looping

/-- A completed request has broken the loop, and none has used a closed handle. -/
structure Heeds (s : StopState) : Prop where
  noticed : ∀ i, s.requests i = .completed → s.capture.Waits → s.breakPending = true
  unclosed : ∀ i, s.requests i ≠ .usedClosed

/-- A request has found the handle, and is still to break its loop. -/
def RequestPc.Holds (r : RequestPc) : Prop := r = .loading ∨ r = .calling true

/-- The request `i` and the capture overtake each other in this step: the handle is stored
after the request has found none, it is closed while the request holds it, or the request
finds it between `pcap_close` and the clearing of `g_pcap_handle`. -/
def OvertakenBy (i : Nat) (x : StopStep) : Prop :=
  match x.label with
  | .store => x.before.capture = .opened true ∧ x.before.requests i = .completed
  | .close => (x.before.requests i).Holds
  | .requestCheck j => j = i ∧ x.before.capture = .closed ∧ x.before.requests i = .started
  | _ => False

def Overtakes (x : StopStep) : Prop := ∃ i, OvertakenBy i x

/-! ## The invariants -/

/-- The captures with an open handle, with one in `g_pcap_handle`, and past `pcap_close`. -/
def CapturePc.IsOpen (c : CapturePc) : Prop := c.Waits ∨ c = .returned
def CapturePc.HasHandle (c : CapturePc) : Prop := c.IsOpen ∨ c = .closed
def CapturePc.HasClosed (c : CapturePc) : Prop := c = .closed ∨ c = .leaving ∨ c = .exited

instance (c : CapturePc) : Decidable c.Waits := inferInstanceAs (Decidable (_ ∨ _))
instance (c : CapturePc) : Decidable c.IsOpen := inferInstanceAs (Decidable (_ ∨ _))
instance (c : CapturePc) : Decidable c.HasHandle := inferInstanceAs (Decidable (_ ∨ _))
instance (c : CapturePc) : Decidable c.HasClosed := inferInstanceAs (Decidable (_ ∨ _ ∨ _))
instance (r : RequestPc) : Decidable r.Holds := inferInstanceAs (Decidable (_ ∨ _))

/-- The handle has been stored, if there is one. -/
def CapturePc.Past (c : CapturePc) : Prop := c.IsOpen ∨ c.HasClosed

instance (c : CapturePc) : Decidable c.Past := inferInstanceAs (Decidable (_ ∨ _))

/-- What holds in every run: the handle is found, and a break is pending, only past its store. -/
structure StoreInv (s : StopState) : Prop where
  handle : s.pcapHandle = true ↔ s.capture.HasHandle
  shut : s.capture = .closed → s.handleClosed = true
  held : ∀ i, (s.requests i).Holds → s.capture.Past
  pending : s.breakPending = true → s.capture.Past

/-- What the capture and the requests rely on besides, as long as they do not overtake each
other. -/
structure Calm (s : StopState) : Prop where
  closed : s.handleClosed = true → s.capture.HasClosed
  held : ∀ i, (s.requests i).Holds → s.capture.IsOpen
  heeds : Heeds s

section Step

variable {s s' : StopState} {l : StopLabel}

theorem setRequest_requests (s : StopState) (i j : Nat) (pc : RequestPc) :
    (s.setRequest i pc).requests j = if j = i then pc else s.requests j :=
  Function.update_apply _ _ _ _

theorem not_closed_of_open {c : CapturePc} (h : c.IsOpen) : ¬ c.HasClosed := by
  rcases h with (rfl | rfl) | rfl <;> decide

theorem StoreInv.move {c : CapturePc} (h : StoreInv s)
    (hhandle : c.HasHandle ↔ s.capture.HasHandle) (hpast : s.capture.Past → c.Past)
    (hshut : c ≠ .closed) : StoreInv { s with capture := c } where
  handle := h.handle.trans hhandle.symm
  shut := fun hc => absurd hc hshut
  held := fun i hi => hpast (h.held i hi)
  pending := fun hp => hpast (h.pending hp)

theorem StoreInv.flags (h : StoreInv s) (running captureError captureDone : Bool) :
    StoreInv { s with running, captureError, captureDone } :=
  ⟨h.handle, h.shut, h.held, h.pending⟩

theorem StoreInv.request {pc : RequestPc} (h : StoreInv s) (i : Nat)
    (hheld : pc.Holds → s.capture.Past) : StoreInv (s.setRequest i pc) where
  handle := h.handle
  shut := h.shut
  held := fun j hj => by
    rw [setRequest_requests] at hj
    split at hj
    · exact hheld hj
    · exact h.held j hj
  pending := h.pending

/-- The step lemma, for every step. -/
theorem stopStep_storeInv (h : StoreInv s) (hs : stopStep s l = some s') : StoreInv s' := by
  cases stopStep_move hs with
  | @opened ok hc =>
    cases ok <;> exact h.move (by rw [hc]; decide) (by rw [hc]; decide) nofun
  | enterLoop hc => exact h.move (by rw [hc]; decide) (by rw [hc]; decide) nofun
  | stored hc =>
    have hpast : CapturePc.Past .entering := .inl (.inl (.inl rfl))
    exact ⟨iff_of_true rfl (.inl (.inl (.inl rfl))), nofun, fun _ _ => hpast, fun _ => hpast⟩
  | storedNull hc =>
    have hnext : StoreInv { s with capture := .failing } :=
      h.move (by rw [hc]; decide) (by rw [hc]; decide) nofun
    have hnull : s.pcapHandle = false := by
      rw [← Bool.not_eq_true, h.handle, hc]
      decide
    exact hnull ▸ hnext
  | fail hc =>
    exact (h.move (c := .leaving) (by rw [hc]; decide) (by rw [hc]; decide) nofun).flags _ _ _
  | loopReturn hc =>
    have hnext : StoreInv { s with capture := .returned } :=
      h.move (by rw [hc]; decide) (by rw [hc]; decide) nofun
    exact ⟨hnext.handle, hnext.shut, hnext.held, nofun⟩
  | close hc =>
    have hpast : CapturePc.Past .closed := .inr (.inl rfl)
    exact ⟨h.handle.trans (iff_of_true (hc ▸ .inl (.inr rfl)) (.inr rfl)), fun _ => rfl,
      fun _ _ => hpast, fun _ => hpast⟩
  | clear hc =>
    have hpast : CapturePc.Past .leaving := .inr (.inr (.inl rfl))
    exact ⟨iff_of_false nofun (by decide : ¬ CapturePc.HasHandle .leaving), nofun,
      fun _ _ => hpast, fun _ => hpast⟩
  | leave hc =>
    exact (h.move (c := .exited) (by rw [hc]; decide) (by rw [hc]; decide) nofun).flags _ _ _
  | @requestStart i _ =>
    have hstarted : StoreInv (s.setRequest i .started) :=
      h.request i fun hp => absurd hp (by decide)
    exact hstarted.flags _ _ _
  | @requestFound i _ hhandle =>
    refine h.request i fun _ => ?_
    rcases h.handle.mp hhandle with hopen | hclosed
    · exact .inl hopen
    · exact .inr (.inl hclosed)
  | @requestNull i | @requestNullCall i | @requestUse i =>
    exact h.request i fun hp => absurd hp (by decide)
  | @requestLoad i hi => exact h.request i fun _ => h.held i (.inl hi)
  | @requestBreak i hi _ =>
    have hnext : StoreInv { s with breakPending := true } :=
      ⟨h.handle, h.shut, h.held, fun _ => h.held i (.inr hi)⟩
    exact hnext.request i fun hp => absurd hp (by decide)

/-- A capture that goes on and changes nothing that the requests see of it. -/
theorem Calm.move {c : CapturePc} (h : Calm s) (hwaits : c.Waits → s.capture.Waits)
    (hopen : s.capture.IsOpen → c.IsOpen) (hclosed : s.capture.HasClosed → c.HasClosed) :
    Calm { s with capture := c } where
  closed := fun hc => hclosed (h.closed hc)
  held := fun i hi => hopen (h.held i hi)
  heeds := ⟨fun i hi hc => h.heeds.noticed i hi (hwaits hc), h.heeds.unclosed⟩

/-- Neither `g_running` nor the flags of the capture matter. -/
theorem Calm.flags (h : Calm s) (running captureError captureDone : Bool) :
    Calm { s with running, captureError, captureDone } :=
  ⟨h.closed, h.held, h.heeds.noticed, h.heeds.unclosed⟩

/-- A step of a request. -/
theorem Calm.request {pc : RequestPc} (h : Calm s) (i : Nat)
    (hheld : pc.Holds → s.capture.IsOpen)
    (hdone : pc = .completed → s.capture.Waits → s.breakPending = true)
    (hused : pc ≠ .usedClosed) : Calm (s.setRequest i pc) where
  closed := h.closed
  held := fun j hj => by
    rw [setRequest_requests] at hj
    split at hj
    · exact hheld hj
    · exact h.held j hj
  heeds := by
    refine ⟨fun j hj hc => ?_, fun j => ?_⟩
    · rw [setRequest_requests] at hj
      split at hj
      · exact hdone hj hc
      · exact h.heeds.noticed j hj hc
    · rw [setRequest_requests]
      split
      · exact hused
      · exact h.heeds.unclosed j

/-- The handle is stored while no request is completed. -/
theorem Calm.store (h : Calm s) (hc : s.capture = .opened true)
    (hnone : ∀ i, s.requests i ≠ .completed) :
    Calm { s with pcapHandle := true, capture := .entering } where
  closed := fun hclosed => absurd (h.closed hclosed) (by rw [hc]; decide)
  held := fun _ _ => .inl (.inl rfl)
  heeds := ⟨fun i hi => absurd hi (hnone i), h.heeds.unclosed⟩

/-- The handle is closed while no request holds it. -/
theorem Calm.close (h : Calm s) (hfree : ∀ i, ¬ (s.requests i).Holds) :
    Calm { s with handleClosed := true, capture := .closed } where
  closed := fun _ => .inl rfl
  held := fun i hi => absurd hi (hfree i)
  heeds := ⟨fun i _ hw => absurd hw (by decide : ¬ CapturePc.Waits .closed), h.heeds.unclosed⟩

/-- The step lemma for a step in which nothing is overtaken. -/
theorem stopStep_calm (hinv : StoreInv s) (h : Calm s) (hs : stopStep s l = some s')
    (hcalm : ¬ Overtakes ⟨s, l, s'⟩) : Calm s' := by
  cases stopStep_move hs with
  | @opened ok hc =>
    cases ok <;> exact h.move (by rw [hc]; decide) (by rw [hc]; decide) (by rw [hc]; decide)
  | enterLoop hc => exact h.move (by rw [hc]; decide) (by rw [hc]; decide) (by rw [hc]; decide)
  | stored hc => exact h.store hc fun i hi => hcalm ⟨i, hc, hi⟩
  | storedNull hc =>
    have hnext : Calm { s with capture := .failing } :=
      h.move (by rw [hc]; decide) (by rw [hc]; decide) (by rw [hc]; decide)
    exact ⟨hnext.closed, hnext.held, hnext.heeds.noticed, hnext.heeds.unclosed⟩
  | fail hc =>
    exact (h.move (c := .leaving) (by rw [hc]; decide) (by rw [hc]; decide)
      (by rw [hc]; decide)).flags _ _ _
  | loopReturn hc =>
    have hnext : Calm { s with capture := .returned } :=
      h.move (by rw [hc]; decide) (by rw [hc]; decide) (by rw [hc]; decide)
    exact ⟨hnext.closed, hnext.held,
      fun i _ hw => absurd hw (by decide : ¬ CapturePc.Waits .returned), hnext.heeds.unclosed⟩
  | close hc => exact h.close fun i hi => hcalm ⟨i, hi⟩
  | clear hc =>
    have hfree : ∀ i, ¬ (s.requests i).Holds := fun i hi =>
      absurd (h.held i hi) (by rw [hc]; decide)
    exact ⟨fun _ => .inr (.inl rfl), fun i hi => absurd hi (hfree i),
      fun i _ hw => absurd hw (by decide : ¬ CapturePc.Waits .leaving), h.heeds.unclosed⟩
  | leave hc =>
    exact (h.move (c := .exited) (by rw [hc]; decide) (by rw [hc]; decide)
      (by rw [hc]; decide)).flags _ _ _
  | @requestStart i _ =>
    have hstarted : Calm (s.setRequest i .started) :=
      h.request i (fun hp => absurd hp (by decide)) nofun nofun
    exact hstarted.flags _ _ _
  | @requestFound i hi hhandle =>
    refine h.request i (fun _ => (hinv.handle.mp hhandle).resolve_right fun hc => ?_) nofun nofun
    exact hcalm ⟨i, rfl, hc, hi⟩
  | @requestNull i _ hnull =>
    refine h.request i (fun hp => absurd hp (by decide)) (fun _ hw => ?_) nofun
    exact absurd (hinv.handle.mpr (.inl (.inl hw))) (by rw [hnull]; exact Bool.false_ne_true)
  | @requestLoad i hi => exact h.request i (fun _ => h.held i (.inl hi)) nofun nofun
  | @requestNullCall i _ => exact h.request i (fun hp => absurd hp (by decide)) nofun nofun
  | @requestUse i hi hclosed =>
    exact absurd (h.closed hclosed) (not_closed_of_open (h.held i (.inr hi)))
  | @requestBreak i hi _ =>
    have hnext : Calm { s with breakPending := true } :=
      ⟨h.closed, h.held, fun _ _ _ => rfl, h.heeds.unclosed⟩
    exact hnext.request i (fun hp => absurd hp (by decide)) (fun _ _ => rfl) nofun

end Step

/-! ## Runs -/

section Runs

variable {s : StopState} {tr : List StopStep}

theorem run_storeInv (h : Lts.Run stopLts .initial tr s) : StoreInv s := by
  induction h with
  | nil =>
    exact ⟨iff_of_false nofun (by decide), nofun,
      fun _ hi => absurd hi (by decide : ¬ RequestPc.Holds .idle), nofun⟩
  | snoc _ hs ih => exact stopStep_storeInv ih hs

theorem run_calm (h : Lts.Run stopLts .initial tr s) (hcalm : ∀ x ∈ tr, ¬ Overtakes x) :
    Calm s := by
  induction h with
  | nil => exact ⟨nofun, fun _ hi => absurd hi (by decide : ¬ RequestPc.Holds .idle), nofun, nofun⟩
  | @snoc tr t u l hrun hs ih =>
    exact stopStep_calm (run_storeInv hrun) (ih fun x hx => hcalm x (List.mem_append_left _ hx)) hs
      (hcalm _ (List.mem_append_right _ (List.mem_singleton_self _)))

/-- A request that holds the handle after `pcap_close`, with `g_pcap_handle` not cleared,
can use it. -/
theorem held_fails {i : Nat} (hi : (s.requests i).Holds) (hhandle : s.pcapHandle = true)
    (hclosed : s.handleClosed = true) :
    ∃ tr t, Lts.Run stopLts s tr t ∧ ¬ Heeds t := by
  have hcall : ∀ s : StopState, s.requests i = .calling true → s.handleClosed = true →
      stopLts.step s (.requestCall i) = some (s.setRequest i .usedClosed) :=
    fun s hi hclosed => move_stopStep (.requestUse hi hclosed)
  have hbad : ∀ s : StopState, ¬ Heeds (s.setRequest i .usedClosed) := fun s h =>
    h.unclosed i (by rw [setRequest_requests, if_pos rfl])
  rcases hi with hi | hi
  · have hload : stopLts.step s (.requestLoad i) = some (s.setRequest i (.calling true)) :=
      hhandle ▸ move_stopStep (.requestLoad hi)
    have hnext : (s.setRequest i (.calling true)).requests i = .calling true := by
      rw [setRequest_requests, if_pos rfl]
    exact ⟨_, _, (Lts.Run.single hload).snoc (hcall _ hnext hclosed), hbad _⟩
  · exact ⟨_, _, .single (hcall _ hi hclosed), hbad _⟩

/-- A step that overtakes leads to a state that does not heed a request. -/
theorem overtakes_step {l : StopLabel} {s' : StopState} (hinv : StoreInv s)
    (hs : stopStep s l = some s') (hx : Overtakes ⟨s, l, s'⟩) :
    ∃ tr t, Lts.Run stopLts s' tr t ∧ ¬ Heeds t := by
  obtain ⟨i, hx⟩ := hx
  cases stopStep_move hs with
  | stored hc =>
    have hnobreak : s.breakPending = false := by
      cases hp : s.breakPending with
      | false => rfl
      | true =>
        have hreached := hinv.pending hp
        rw [hc] at hreached
        exact absurd hreached (by decide)
    exact ⟨[], _, .nil, fun hheeds => Bool.false_ne_true
      (hnobreak.symm.trans (hheeds.noticed i hx.2 (.inl rfl)))⟩
  | storedNull hc =>
    rw [OvertakenBy, hc] at hx
    cases hx.1
  | close hc => exact held_fails hx (hinv.handle.mpr (.inl (.inr hc))) rfl
  | @requestFound j _ hhandle =>
    refine held_fails (i := j) (.inl ?_) hhandle (hinv.shut hx.2.1)
    rw [setRequest_requests, if_pos rfl]
  | requestNull _ hnull =>
    exact absurd (hinv.handle.mpr (.inr hx.2.1)) (by rw [hnull]; exact Bool.false_ne_true)
  | _ => exact absurd hx id

/-- The run up to a step that overtakes can go on to a state that does not heed a request. -/
theorem overtaken_fails {pre post : List StopStep} {x : StopStep}
    (h : Lts.Run stopLts .initial (pre ++ x :: post) s) (hx : Overtakes x) :
    ∃ tr' t, Lts.Run stopLts .initial (pre ++ x :: tr') t ∧ ¬ Heeds t := by
  obtain ⟨hbefore, hstep, -⟩ := h.around
  obtain ⟨tr', t, hnext, hbad⟩ := overtakes_step (run_storeInv hbefore) hstep hx
  refine ⟨tr', t, ?_, hbad⟩
  rw [List.append_cons]
  exact (hbefore.snoc hstep).append hnext

/-- When a request and the capture never overtake each other, every state of the run heeds the
requests. Whenever they do, the run up to this very step can go on to a state that does not. -/
theorem stop_heeded (h : Lts.Run stopLts .initial tr s) :
    ((∀ x ∈ tr, ¬ Overtakes x) → Heeds s ∧ ∀ x ∈ tr, Heeds x.before) ∧
      ∀ pre x post, tr = pre ++ x :: post → Overtakes x →
        ∃ tr' t, Lts.Run stopLts .initial (pre ++ x :: tr') t ∧ ¬ Heeds t := by
  refine ⟨fun hcalm => ⟨(run_calm h hcalm).heeds, fun x hx => ?_⟩, fun pre x post htr hx => ?_⟩
  · obtain ⟨a, b, rfl⟩ := List.append_of_mem hx
    exact (run_calm h.around.1 fun y hy => hcalm y (List.mem_append_left _ hy)).heeds
  · exact overtaken_fails (htr ▸ h) hx

end Runs

/-! ## Three runs -/

instance (i : Nat) (x : StopStep) : Decidable (OvertakenBy i x) :=
  match x with
  | ⟨s, .store, _⟩ =>
    inferInstanceAs (Decidable (s.capture = .opened true ∧ s.requests i = .completed))
  | ⟨s, .close, _⟩ => inferInstanceAs (Decidable (s.requests i).Holds)
  | ⟨s, .requestCheck j, _⟩ =>
    inferInstanceAs (Decidable (j = i ∧ s.capture = .closed ∧ s.requests i = .started))
  | ⟨_, .open _, _⟩ | ⟨_, .fail, _⟩ | ⟨_, .enterLoop, _⟩ | ⟨_, .loopReturn _, _⟩ | ⟨_, .clear, _⟩
  | ⟨_, .leave, _⟩ | ⟨_, .requestStart _, _⟩ | ⟨_, .requestLoad _, _⟩ | ⟨_, .requestCall _, _⟩ =>
    inferInstanceAs (Decidable False)

/-- A request that is never started stays idle. -/
theorem stays_idle {i : Nat} {tr : List StopStep} {s : StopState}
    (h : Lts.Run stopLts .initial tr s) (hnone : ∀ x ∈ tr, x.label ≠ .requestStart i) :
    s.requests i = .idle := by
  induction h with
  | nil => rfl
  | @snoc tr t u l _ hs ih =>
    have hidle := ih fun x hx => hnone x (List.mem_append_left _ hx)
    have hlabel : l ≠ .requestStart i :=
      hnone ⟨t, l, u⟩ (List.mem_append_right _ (List.mem_singleton_self _))
    have hother : ∀ {j : Nat} {pc : RequestPc}, j ≠ i → (t.setRequest j pc).requests i = .idle :=
      fun hj => by rw [setRequest_requests, if_neg (Ne.symm hj), hidle]
    cases stopStep_move hs with
    | requestStart => exact hother fun hj => hlabel (hj ▸ rfl)
    | requestFound hj | requestNull hj | requestLoad hj | requestNullCall hj | requestUse hj
    | requestBreak hj =>
      exact hother fun he => by rw [← he, hj] at hidle; cases hidle
    | _ => exact hidle

theorem idle_not_overtaken {i : Nat} {x : StopStep} (h : x.before.requests i = .idle) :
    ¬ OvertakenBy i x := by
  unfold OvertakenBy
  split <;> simp [h, RequestPc.Holds]

/-- A request while the loop runs: it returns, and the handle is closed. -/
def orderlyStop : List StopLabel :=
  [.open true, .store, .enterLoop, .requestStart 0, .requestCheck 0, .requestLoad 0,
    .requestCall 0, .loopReturn false, .close, .clear, .leave]

theorem stop_heeded_orderly :
    ∃ tr s, Lts.Run stopLts .initial tr s ∧ tr.map (·.label) = orderlyStop ∧
      s.requests 0 = .completed ∧ s.capture = .exited ∧ Heeds s ∧ ∀ x ∈ tr, Heeds x.before := by
  have hok : (stopLts.exec .initial orderlyStop).map
      (fun r => (r.1.map (·.label), r.2.requests 0, r.2.capture,
        r.1.all fun x => !decide (OvertakenBy 0 x))) =
        some (orderlyStop, .completed, .exited, true) := by decide +kernel
  obtain ⟨tr, s, hrun, hval⟩ := Lts.run_of_exec hok
  simp only [Prod.mk.injEq, List.all_eq_true, Bool.not_eq_true', decide_eq_false_iff_not] at hval
  obtain ⟨hlabels, hdone, hexit, hfirst⟩ := hval
  have hcalm : ∀ x ∈ tr, ¬ Overtakes x := by
    rintro x hx ⟨i, hover⟩
    by_cases hi : i = 0
    · exact hfirst x hx (hi ▸ hover)
    · obtain ⟨a, b, rfl⟩ := List.append_of_mem hx
      refine idle_not_overtaken (stays_idle hrun.around.1 fun y hy hstart => hi ?_) hover
      have hmem : StopLabel.requestStart i ∈ orderlyStop :=
        hlabels ▸ hstart ▸ List.mem_map_of_mem (List.mem_append_left _ hy)
      simpa [orderlyStop] using hmem
  exact ⟨tr, s, hrun, hlabels, hdone, hexit, (stop_heeded hrun).1 hcalm⟩

/-- A request before the handle is stored. -/
def earlyStop : List StopLabel :=
  [.requestStart 0, .requestCheck 0, .open true, .store, .enterLoop]

/-- A second request that has found the handle when the first one has stopped the loop. -/
def lateStop : List StopLabel :=
  [.open true, .store, .enterLoop, .requestStart 0, .requestStart 1, .requestCheck 0,
    .requestCheck 1, .requestLoad 0, .requestLoad 1, .requestCall 0, .loopReturn false, .close,
    .requestCall 1]

/-- The early request is completed and the agent stays in `pcap_loop`; the late one calls
`pcap_breakloop` on the closed handle. -/
theorem stop_ignored :
    (∃ tr s, Lts.Run stopLts .initial tr s ∧ tr.map (·.label) = earlyStop ∧
        s.running = false ∧ s.requests 0 = .completed ∧ s.capture = .looping ∧ ¬ Heeds s) ∧
      ∃ tr s, Lts.Run stopLts .initial tr s ∧ tr.map (·.label) = lateStop ∧
        s.requests 1 = .usedClosed ∧ ¬ Heeds s := by
  have hearly : (stopLts.exec .initial earlyStop).map
      (fun r => (r.1.map (·.label), r.2.running, r.2.requests 0, r.2.capture, r.2.breakPending)) =
        some (earlyStop, false, .completed, .looping, false) := by decide +kernel
  have hlate : (stopLts.exec .initial lateStop).map
      (fun r => (r.1.map (·.label), r.2.requests 1)) = some (lateStop, .usedClosed) := by
    decide +kernel
  obtain ⟨tr, s, hrun, hval⟩ := Lts.run_of_exec hearly
  obtain ⟨tr', s', hrun', hval'⟩ := Lts.run_of_exec hlate
  simp only [Prod.mk.injEq] at hval hval'
  obtain ⟨hlabels, hrunning, hdone, hloop, hnobreak⟩ := hval
  refine ⟨⟨tr, s, hrun, hlabels, hrunning, hdone, hloop, fun h => ?_⟩,
    tr', s', hrun', hval'.1, hval'.2, fun h => h.unclosed 1 hval'.2⟩
  exact Bool.false_ne_true (hnobreak.symm.trans (h.noticed 0 hdone (.inr hloop)))

end TrafficAnalyzer
