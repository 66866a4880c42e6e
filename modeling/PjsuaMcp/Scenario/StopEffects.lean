import PjsuaMcp.Scenario.LoopSteps

/-!
# What the moves of a run do to its stop condition

The handlers of `stop_on` depend on four things: the phase of `run`, the future
that they complete, the subscriptions, and the ids that others give back to the
bus. A move subscribes one of the handlers, calls one, completes the future,
leaves the wait, raises, or leaves the stop condition alone.

## Implementation notes

Nothing is said about the bus once `run` has left its wait.
-/

namespace PjsuaMcp.Scenario

open Library

def Callback.isStop : Callback → Bool
  | stop _ => true
  | _ => false

/-- The outcome that `run` carries along after its wait. -/
def Phase.outcome? : Phase → Option Outcome
  | unsubscribing _ outcome | removing _ outcome | stopping outcome | finishing outcome
  | detaching outcome | returning outcome => some outcome
  | returned result => some result.outcome
  | _ => none

def Phase.hasRaised : Phase → Bool
  | raised _ => true
  | _ => false

namespace ScenarioSpec

/-- The entry of `stop_on` names an event. -/
def names (spec : Dict) : Bool := (spec.get "event").truthy

/-- The entries of `stop_on` whose handlers have been subscribed. -/
def subscribed (scn : ScenarioSpec) : Phase → List Dict
  | .entering | .arming _ | .assigning .. => []
  | .subscribing rest => (scn.stopOn.take (scn.stopOn.length - rest.length)).filter names
  | _ => scn.stopOn.filter names

end ScenarioSpec

namespace Phase

/-- What `run` has still to subscribe are the last entries of `stop_on`. -/
def Suffixed (scn : ScenarioSpec) (phase : Phase) : Prop :=
  ∀ rest, phase = .subscribing rest → rest <:+ scn.stopOn

/-- `run` neither subscribes a handler nor leaves its wait nor raises. -/
structure Passes (scn : ScenarioSpec) (phase phase' : Phase) : Prop where
  outcome : phase'.outcome? = phase.outcome?
  raised : phase'.hasRaised = phase.hasRaised
  subscribed : phase.Suffixed scn →
    phase'.Suffixed scn ∧ scn.subscribed phase' = scn.subscribed phase

variable {scn : ScenarioSpec} {p q r : Phase}

theorem Passes.refl (p : Phase) : Passes scn p p := ⟨rfl, rfl, fun h => ⟨h, rfl⟩⟩

theorem Passes.trans (h : Passes scn p q) (h' : Passes scn q r) : Passes scn p r where
  outcome := h'.outcome.trans h.outcome
  raised := h'.raised.trans h.raised
  subscribed hsuffix := by
    obtain ⟨hq, heq⟩ := h.subscribed hsuffix
    obtain ⟨hr, heq'⟩ := h'.subscribed hq
    exact ⟨hr, heq'.trans heq⟩

/-- Steps outside of the loop over `stop_on`. -/
theorem Passes.of_not_subscribing (outcome : q.outcome? = p.outcome?)
    (raised : q.hasRaised = p.hasRaised) (subscribed : scn.subscribed q = scn.subscribed p)
    (other : ∀ rest, q ≠ .subscribing rest) : Passes scn p q :=
  ⟨outcome, raised, fun _ => ⟨fun rest hq => (other rest hq).elim, subscribed⟩⟩

/-- One entry further in the loop over `stop_on`. -/
theorem subscribed_cons {spec : Dict} {rest : List Dict} (h : spec :: rest <:+ scn.stopOn) :
    scn.subscribed (.subscribing rest) =
      scn.subscribed (.subscribing (spec :: rest)) ++ [spec].filter ScenarioSpec.names := by
  obtain ⟨before, hbefore⟩ := h
  have htake : ∀ tail, before ++ tail = scn.stopOn →
      scn.stopOn.take (scn.stopOn.length - tail.length) = before := by
    intro tail htail
    rw [← htail, List.length_append, Nat.add_sub_cancel, List.take_left]
  have hrest : scn.stopOn.take (scn.stopOn.length - rest.length) = before ++ [spec] := by
    rw [← hbefore, List.length_append, List.length_cons,
      show before.length + (rest.length + 1) - rest.length = (before ++ [spec]).length by
        rw [List.length_append, List.length_singleton]; omega,
      show before ++ spec :: rest = before ++ [spec] ++ rest by simp, List.take_left]
  simp only [ScenarioSpec.subscribed, hrest, htake _ hbefore, List.filter_append]

end Phase

/-- The future of the stop condition after a callback. -/
def Future.after (py : PyText) (future : Future) (callback : Callback) (ev : Event) : Future :=
  match callback with
  | .stop spec => if stopMatches py spec ev = some true then future.post ev else future
  | _ => future

namespace Run

variable {py : PyText} {engine : Bool} {scn : ScenarioSpec} {s s' s'' : Run}

/-- Some coroutine waits for an event under this id. -/
def WaitsUnder (s : Run) (id : Nat) : Prop :=
  ∃ t future k, s.task? t = some (.waiting id future k)

/-- Neither the bus nor the stop condition changes. -/
structure Still (scn : ScenarioSpec) (s s' : Run) : Prop where
  rt : s'.rt = s.rt
  future : s'.stopFuture = s.stopFuture
  phase : s.phase.Passes scn s'.phase
  waits : ∀ id, s'.WaitsUnder id → s.WaitsUnder id

theorem Still.refl (s : Run) : Still scn s s := ⟨rfl, rfl, .refl _, fun _ h => h⟩

theorem Still.trans (h : Still scn s s') (h' : Still scn s' s'') : Still scn s s'' :=
  ⟨h'.rt.trans h.rt, h'.future.trans h.future, h.phase.trans h'.phase,
    fun id hid => h.waits id (h'.waits id hid)⟩

/-- Where no coroutine changes, none waits under another id. -/
theorem WaitsUnder.congr {id : Nat} (h : s'.WaitsUnder id) (hruns : s'.runs = s.runs)
    (hphase : ∀ future k, s'.phase = .acting (.waiting id future k) → s.phase = s'.phase) :
    s.WaitsUnder id := by
  obtain ⟨t, future, k, ht⟩ := h
  cases t with
  | run =>
      have hacting := task?_run_some ht
      refine ⟨.run, future, k, ?_⟩
      rw [task?, hphase future k hacting, hacting]
  | hookRun n =>
      refine ⟨.hookRun n, future, k, ?_⟩
      rw [task?, ← hruns]
      exact ht

theorem Still.of_fields (hrt : s'.rt = s.rt) (hfuture : s'.stopFuture = s.stopFuture)
    (hruns : s'.runs = s.runs) (hphase : s'.phase = s.phase) : Still scn s s' where
  rt := hrt
  future := hfuture
  phase := by rw [hphase]; exact .refl _
  waits _ h := h.congr hruns fun _ _ _ => hphase.symm

/-- `run` goes on to another phase, which holds no coroutine. -/
theorem Still.of_phase {p : Phase} (hp : s.phase = p) (hrt : s'.rt = s.rt)
    (hfuture : s'.stopFuture = s.stopFuture) (hruns : s'.runs = s.runs)
    (hphase : p.Passes scn s'.phase)
    (hacting : ∀ id future k, s'.phase ≠ .acting (.waiting id future k)) : Still scn s s' where
  rt := hrt
  future := hfuture
  phase := by rw [hp]; exact hphase
  waits id h := h.congr hruns fun future k hwaiting => (hacting id future k hwaiting).elim

/-- The state of a task is no matter of the stop condition. -/
theorem passes_setTask {t : Task} {old : TaskState} (hold : s.task? t = some old)
    (state : TaskState) : s.phase.Passes scn (s.setTask t state).phase := by
  cases t with
  | hookRun n => exact .refl _
  | run =>
      change s.phase.Passes scn (.acting state)
      rw [task?_run_some hold]
      exact .of_not_subscribing rfl rfl rfl fun rest h => by cases h

/-- A task in a new state waits under a new subscription at most. -/
theorem waitsUnder_setTask {t : Task} {old state : TaskState} (hold : s.task? t = some old)
    {id : Nat} (h : (s.setTask t state).WaitsUnder id) :
    s.WaitsUnder id ∨ ∃ future k, state = .waiting id future k := by
  obtain ⟨t', future, k, ht'⟩ := h
  cases t with
  | run =>
      cases t' with
      | run => exact .inr ⟨future, k, Option.some.inj ht'⟩
      | hookRun n => exact .inl ⟨.hookRun n, future, k, ht'⟩
  | hookRun n =>
      cases t' with
      | run => exact .inl ⟨.run, future, k, ht'⟩
      | hookRun m =>
          have hm : (s.runs.set n state)[m]? = some (.waiting id future k) := ht'
          rcases eq_or_ne n m with rfl | hne
          · obtain ⟨hlt, hat⟩ := List.getElem?_eq_some_iff.mp hm
            rw [List.getElem_set_self] at hat
            exact .inr ⟨future, k, hat⟩
          · rw [List.getElem?_set_ne hne] at hm
            exact .inl ⟨.hookRun m, future, k, hm⟩

theorem Still.setTask {t : Task} {old : TaskState} (hold : s.task? t = some old)
    {state : TaskState}
    (hwaits : ∀ id future k, state = .waiting id future k → s.WaitsUnder id) :
    Still scn s (s.setTask t state) where
  rt := by cases t <;> rfl
  future := by cases t <;> rfl
  phase := passes_setTask hold state
  waits id h := by
    rcases waitsUnder_setTask hold h with h | ⟨future, k, hstate⟩
    · exact h
    · exact hwaits id future k hstate

theorem Still.perform (s : Run) (t : Task) (op : Op) : Still scn s (s.perform t op) :=
  .of_fields rfl rfl rfl rfl

theorem Still.withCurrent (h : Still scn s s') (current : Option Task) :
    Still scn s { s' with current := current } :=
  h.trans (.of_fields rfl rfl rfl rfl)

theorem waitsUnder_moveBus {m : BusMove} {id : Nat}
    (h : (s.moveBus py engine m).WaitsUnder id) : s.WaitsUnder id := by
  obtain ⟨t, future, k, ht⟩ := h
  exact ⟨t, future, k, waiting_of_moveBus ht⟩

/-! ## What a move can do -/

/-- Moves of the bus that neither subscribe a stop handler nor can remove one. -/
inductive Harmless (s : Run) : BusMove → Prop
  | subscribe {patterns callback once} (other : callback.isStop = false) :
      Harmless s (.subscribe patterns callback once)
  | unsubscribe {id} (gives : s.WaitsUnder id ∨
      ∀ sub, s.rt.bus.subs.get? id = some sub → sub.callback.isStop = false) :
      Harmless s (.unsubscribe id)
  | arm {spec patternName} : Harmless s (.arm spec patternName)
  | assign {h} : Harmless s (.assign h)
  | remove {h} : Harmless s (.remove h)
  | emit {ev} : Harmless s (.emit ev)

/-- At most one harmless move of the bus; only a new subscription can be waited under. -/
inductive CalmBus (py : PyText) (s s' : Run) : Prop
  | still (rt : s'.rt = s.rt) (waits : ∀ id, s'.WaitsUnder id → s.WaitsUnder id)
  | move {m} (harmless : s.Harmless m) (rt : s'.rt = s.rt.step py m)
      (waits : ∀ id, s'.WaitsUnder id → s.WaitsUnder id)
  | wait {patterns callback once} (other : callback.isStop = false)
      (rt : s'.rt = s.rt.step py (.subscribe patterns callback once))
      (waits : ∀ id, s'.WaitsUnder id → s.WaitsUnder id ∨ id = s.rt.bus.ids)

/-- The future after the call that emission `i` makes next. -/
def futureAfter (py : PyText) (s : Run) (i : Nat) : Future :=
  match s.rt.called i with
  | some (callback, ev) => s.stopFuture.after py callback ev
  | none => s.stopFuture

/-- The entry can be subscribed. -/
def readable (spec : Dict) : Bool :=
  (((spec.get "match").or (.dict [])).toEntries?).isSome && (patternList (spec.get "event")).isSome

/-- The next move of `run` raises: on an entry of `stop_on`, or in an emit of its own. -/
def raises (scn : ScenarioSpec) (s : Run) : Move → Bool
  | .next info =>
      s.current = some .run && s.loopEmit.isNone &&
      match s.phase with
      | .subscribing (spec :: _) => ScenarioSpec.names spec && !readable spec
      | .replaying (phone :: _) =>
          info.any fun info => (s.rt.bus.snapshot (replayEvent phone info)).isNone
      | .starting =>
          (s.rt.bus.snapshot
            (lifecycleEvent "scenario.started" [("name".toList, .str scn.name)])).isNone
      | .stopping outcome =>
          (s.rt.bus.snapshot (lifecycleEvent "scenario.stopped" (outcomeData outcome))).isNone
      | _ => false
  | _ => false

/-- What a move `a` other than an emission going on does to the stop condition. -/
inductive Effect (py : PyText) (scn : ScenarioSpec) (s : Run) (a : Move) (s' : Run) : Prop
  | calm (future : s'.stopFuture = s.stopFuture) (phase : s.phase.Passes scn s'.phase)
      (bus : s.phase.outcome? = none → CalmBus py s s')
  | settle (still : Still scn { s with stopFuture := s.stopFuture.settle } s')
  | subscribe {spec rest patterns} (phase : s.phase = .subscribing (spec :: rest))
      (phase' : s'.phase = .subscribing rest) (named : ScenarioSpec.names spec = true)
      (listed : patternList (spec.get "event") = some patterns)
      (rt : s'.rt = s.rt.step py (.subscribe patterns (.stop spec) false))
      (future : s'.stopFuture = s.stopFuture) (waits : ∀ id, s'.WaitsUnder id → s.WaitsUnder id)
  | stop {reason} (phase : s.phase = .awaiting)
      (phase' : s'.phase = .unsubscribing s.stopSubs ⟨"ok", reason⟩)
      (result : s.stopFuture.result.isSome = true) (future : s'.stopFuture = s.stopFuture)
  | expire {outcome} (ha : a = .expire .run) (free : s.current = none)
      (phase : s.phase = .awaiting) (phase' : s'.phase = .unsubscribing s.stopSubs outcome)
      (timeout : scn.stopOn ≠ [] →
        outcome.status = "timeout" ∧ s'.stopFuture = s.stopFuture.cancel)
  | raise {exn} (raises : s.raises scn a = true) (phase' : s'.phase = .raised exn)

theorem Effect.of_still {a : Move} (h : Still scn s s') : Effect py scn s a s' :=
  .calm h.future h.phase fun _ => .still h.rt h.waits

theorem Effect.of_move {a : Move} (engine : Bool) (m : BusMove) (harmless : s.Harmless m)
    (h : Still scn s s') (h' : Still scn (s'.moveBus py engine m) s'') :
    Effect py scn s a s'' :=
  .calm (h'.future.trans h.future) (h.phase.trans h'.phase) fun _ =>
    .move harmless (h'.rt.trans (congrArg (HookRuntime.step py · m) h.rt)) fun id hid =>
      h.waits id (waitsUnder_moveBus (h'.waits id hid))

/-! ## The coroutines -/

theorem Still.setTask_ready {t : Task} {old : TaskState} (hold : s.task? t = some old)
    (c : Coro Unit) : Still scn s (s.setTask t (.ready c)) :=
  .setTask hold fun _ _ _ h => by cases h

/-- The end of a task does nothing to the stop future. -/
theorem effect_finish {a : Move} {t : Task} {state : TaskState} (ht : s.task? t = some state)
    (failure : Option Exn) : Effect py scn s a (s.finish t failure) := by
  refine .of_still ?_
  cases t with
  | hookRun n => exact (Still.setTask ht fun _ _ _ h => by cases h).withCurrent none
  | run =>
      have hphase := task?_run_some ht
      have hpasses : Phase.Passes scn (.acting state) .awaiting :=
        .of_not_subscribing rfl rfl rfl fun rest h => by cases h
      cases failure with
      | none => exact .of_phase hphase rfl rfl rfl hpasses fun _ _ _ h => by cases h
      | some exn => exact .of_phase hphase rfl rfl rfl hpasses fun _ _ _ h => by cases h

/-- A coroutine that asks for something does nothing to the stop future. -/
theorem effect_askFor {a : Move} {t : Task} {state : TaskState} (ht : s.task? t = some state)
    (op : Op) (k : Except Exn Value → Coro Unit) :
    Effect py scn s a (s.askFor py engine t op k) := by
  have ht' : (s.perform t op).task? t = some state := (task?_perform t op).trans ht
  have hperform : Still scn s (s.perform t op) := .perform s t op
  cases op with
  | recordAction | recordMeta => exact .of_still (hperform.trans (.setTask_ready ht' _))
  | runPj call =>
      exact .of_still ((Still.setTask ht fun _ _ _ h => by cases h).withCurrent none)
  | sleep ms =>
      exact .of_still ((hperform.trans (.setTask ht' fun _ _ _ h => by cases h)).withCurrent none)
  | waitFor eventType phone timeoutMs =>
      simp only [askFor]
      split
      · exact .of_still (hperform.trans (.setTask_ready ht' _))
      · next patterns _ =>
          let moved := (s.perform t (.waitFor eventType phone timeoutMs)).moveBus py engine
            (.subscribe patterns (.waiter t s.rt.bus.ids phone) false)
          have hmoved : moved.task? t = some state := task?_moveBus ht' _
          have hrt : (moved.setTask t (.waiting s.rt.bus.ids {} k)).rt =
              s.rt.step py (.subscribe patterns (.waiter t s.rt.bus.ids phone) false) := by
            cases t <;> rfl
          refine .calm (by cases t <;> rfl) (passes_setTask hmoved _) fun _ =>
            .wait rfl hrt fun id h => ?_
          have h : (moved.setTask t (.waiting s.rt.bus.ids {} k)).WaitsUnder id := h
          rcases waitsUnder_setTask hmoved h with h | ⟨future, k', hstate⟩
          · exact .inl (hperform.waits id (waitsUnder_moveBus h))
          · cases hstate
            exact .inr rfl
  | emit body =>
      let ev := s.stamped py body
      simp only [askFor, emitOnLoop]
      cases (s.perform t (.emit body)).rt.bus.snapshot body with
      | none => exact .of_still (hperform.trans (.setTask_ready ht' _))
      | some found =>
          let moved := (s.perform t (.emit body)).moveBus py engine (.emit ev)
          have hmoved : moved.task? t = some state := task?_moveBus ht' _
          refine .of_move engine (.emit ev) .emit hperform ?_
          have hemit : Still scn moved
              { moved with loopEmit := some (s.perform t (.emit body)).rt.emissions.length } :=
            .of_fields rfl rfl rfl rfl
          refine hemit.trans (.setTask_ready (?_ : _ = some state) _)
          rw [← hmoved]
          cases t <;> rfl

/-- A coroutine that goes on does nothing to the stop future. -/
theorem effect_goOn {a : Move} {t : Task} {c : Coro Unit} (ht : s.task? t = some (.ready c)) :
    Effect py scn s a (s.goOn py engine t c) := by
  cases c with
  | pure => exact effect_finish ht none
  | raise exn => exact effect_finish ht (some exn)
  | call op k => exact effect_askFor ht op k

/-! ## The coroutine of `run` -/

/-- An emission of `run` may find the bus raising. -/
theorem effect_emitThen {a : Move} {body : EventBody} {p phase : Phase} (hp : s.phase = p)
    (hpasses : p.Passes scn phase)
    (hacting : ∀ id future k, phase ≠ .acting (.waiting id future k))
    (hraises : (s.rt.bus.snapshot body).isNone = true → s.raises scn a = true) :
    Effect py scn s a (s.emitThen py engine body phase) := by
  simp only [emitThen, emitOnLoop]
  cases hsnapshot : s.rt.bus.snapshot body with
  | none => exact .raise (hraises (by rw [hsnapshot]; rfl)) rfl
  | some found =>
      refine .of_move engine (.emit (s.stamped py body)) .emit (.refl s) ?_
      exact .of_phase hp rfl rfl rfl hpasses hacting

/-- A stop condition is subscribed for the stop future. -/
theorem effect_subscribeStop {info : Option RegInfo} {spec : Dict} {rest : List Dict}
    (holds : s.current = some .run) (free : s.loopEmit = none)
    (hphase : s.phase = .subscribing (spec :: rest)) :
    Effect py scn s (.next info) (s.subscribeStop py engine spec rest) := by
  simp only [subscribeStop]
  by_cases hnamed : ScenarioSpec.names spec = true
  · have hevent : (!(spec.get "event").truthy) = false := by
      rw [Bool.not_eq_false']
      exact hnamed
    rw [hevent]
    simp only [Bool.false_eq_true, if_false]
    split
    · next hlisted =>
        refine .subscribe hphase rfl hnamed hlisted rfl rfl fun id h => ?_
        have h : WaitsUnder (s.moveBus py engine _) id := h.congr rfl fun _ _ h => by cases h
        exact waitsUnder_moveBus h
    · next hunread =>
        refine .raise ?_ rfl
        have hreadable : readable spec = false := by
          unfold readable
          cases hentries : ((spec.get "match").or (.dict [])).toEntries? with
          | none => rfl
          | some entries =>
              cases hpatterns : patternList (spec.get "event") with
              | none => rfl
              | some patterns => exact (hunread _ _ hentries hpatterns).elim
        simp [raises, holds, free, hphase, hnamed, hreadable]
  · have hevent : (!(spec.get "event").truthy) = true := by
      rw [Bool.not_eq_true']
      exact eq_false_of_ne_true hnamed
    rw [hevent]
    simp only [if_true]
    refine .of_still (.of_phase hphase rfl rfl rfl ⟨rfl, rfl, fun hsuffix => ?_⟩
      fun _ _ _ h => by cases h)
    have hcons := hsuffix _ rfl
    refine ⟨fun rest' h => ?_, ?_⟩
    · cases h
      exact (List.suffix_cons spec rest).trans hcons
    · rw [Phase.subscribed_cons hcons, List.filter_cons_of_neg hnamed, List.filter_nil,
        List.append_nil]

/-- After the wait the bus does not matter any more. -/
theorem effect_left {a : Move} {p : Phase} {outcome : Outcome} (hp : s.phase = p)
    (hleft : p.outcome? = some outcome) (future : s'.stopFuture = s.stopFuture)
    (hpasses : p.Passes scn s'.phase) : Effect py scn s a s' := by
  subst hp
  refine .calm future hpasses fun h => ?_
  rw [hleft] at h
  cases h

/-- A phase that is only passed on. -/
theorem Phase.Goes.passes {registered : List Nat} {p p' : Phase}
    (goes : Phase.Goes scn registered p p') : p.Passes scn p' := by
  cases goes with
  | armed =>
      refine ⟨rfl, rfl, fun _ => ⟨fun rest h => ?_, ?_⟩⟩
      · cases h
        exact List.suffix_refl _
      · simp [ScenarioSpec.subscribed]
  | subscribed =>
      refine .of_not_subscribing rfl rfl ?_ fun rest h => by cases h
      simp [ScenarioSpec.subscribed]
  | _ => exact .of_not_subscribing rfl rfl rfl fun rest h => by cases h

theorem Phase.Moves.passes {p p' : Phase} {m : BusMove} (moves : Phase.Moves py s.rt p m p') :
    p.Passes scn p' := by
  cases moves with
  | arm | assign | unsubscribe | remove =>
      exact .of_not_subscribing rfl rfl rfl fun rest h => by cases h

/-- The moves that `run` makes before its wait are harmless. -/
theorem effect_moves {a : Move} {p p' : Phase} {m : BusMove} (hphase : s.phase = p)
    (moves : Phase.Moves py s.rt p m p') :
    Effect py scn s a { s.moveBus py engine m with phase := p' } := by
  have hpasses : p.Passes scn p' := moves.passes
  cases moves with
  | @arm spec =>
      exact .of_move engine (.arm spec "<scenario>".toList) .arm (.refl s)
        (.of_phase hphase rfl rfl rfl hpasses fun _ _ _ h => by cases h)
  | @assign h =>
      exact .of_move engine (.assign h) .assign (.refl s)
        (.of_phase hphase rfl rfl rfl hpasses fun _ _ _ h => by cases h)
  | unsubscribe | remove => exact effect_left hphase rfl rfl hpasses

theorem effect_emits {info : Option RegInfo} {p p' : Phase} {body : EventBody}
    (holds : s.current = some .run) (free : s.loopEmit = none) (hphase : s.phase = p)
    (emits : Phase.Emits scn info p body p') :
    Effect py scn s (.next info) (s.emitThen py engine body p') := by
  have hraises : (s.rt.bus.snapshot body).isNone = true → s.raises scn (.next info) = true := by
    intro hnone
    cases emits <;>
      simp only [raises, holds, free, hphase, Option.isNone_none, decide_true, Bool.true_and] <;>
      exact hnone
  cases emits with
  | replay | start | stop =>
      refine effect_emitThen hphase ?_ (fun _ _ _ h => by cases h) hraises
      exact .of_not_subscribing rfl rfl rfl fun rest h => by cases h

/-- What each move of `run` does to the stop future. -/
theorem NextMove.effect {info : Option RegInfo} (h : NextMove py engine scn s info s')
    (holds : s.current = some .run) (free : s.loopEmit = none) :
    Effect py scn s (.next info) s' := by
  cases h with
  | enter phase =>
      refine .of_move engine (.subscribe [.str ['*']] .recorder false) (.subscribe rfl)
        (.refl s) (.of_phase phase rfl rfl rfl ?_ fun _ _ _ h => by cases h)
      exact .of_not_subscribing rfl rfl rfl fun rest h => by cases h
  | refuse phase =>
      refine .of_still (.of_phase phase rfl rfl rfl ?_ fun _ _ _ h => by cases h)
      exact .of_not_subscribing rfl rfl rfl fun rest h => by cases h
  | go phase goes =>
      refine .of_still (.of_phase phase rfl rfl rfl goes.passes fun _ _ _ h => ?_)
      cases goes <;> cases h
  | move phase moves => exact effect_moves phase moves
  | emit phase emits => exact effect_emits holds free phase emits
  | subscribe phase => exact effect_subscribeStop holds free phase
  | leave phase result => exact .stop phase rfl result rfl
  | wait phase =>
      refine .of_still ((Still.refl s).withCurrent none |>.trans ?_)
      exact .of_fields rfl rfl rfl phase.symm
  | finish phase | detach phase | detached phase | ret phase =>
      exact effect_left phase rfl rfl (.of_not_subscribing rfl rfl rfl fun rest h => by cases h)
  | idle => exact .of_still (.refl s)

theorem effect_runNext {info : Option RegInfo} (holds : s.current = some .run)
    (free : s.loopEmit = none) :
    Effect py scn s (.next info) (s.runNext py engine scn info) :=
  (s.runNext_spec info).effect holds free

/-! ## The loop -/

theorem effect_next (info : Option RegInfo) :
    Effect py scn s (.next info) (s.next py engine scn info) := by
  simp only [Run.next]
  split
  · next t hcurrent hfree =>
      split
      · next c ht => exact effect_goOn ht
      · split
        · next hrun => exact effect_runNext (hrun ▸ hcurrent) hfree
        · exact .of_still (.refl s)
  · exact .of_still (.refl s)

/-- A turn of a task. -/
theorem effect_turn (t : Task) : Effect py scn s (.turn t) (s.turn py engine scn t) := by
  simp only [Run.turn]
  split
  · exact .of_still (.refl s)
  · split
    · exact .of_still ((Still.refl s).withCurrent (some t))
    · next subId future k ht =>
        split
        · refine .of_move engine (.unsubscribe subId) (.unsubscribe (.inl ⟨t, future, k, ht⟩))
            (.refl s) ?_
          exact (Still.setTask_ready (task?_moveBus ht _) _).withCurrent (some t)
        · exact .of_still (.refl s)
    · split
      · next hphase _ _ =>
          split
          · next hresult => exact .stop hphase rfl hresult.2 rfl
          · exact .of_still (.refl s)
      · exact .of_still (.refl s)

theorem effect_wake (t : Task) : Effect py scn s (.wake t) (s.wake t) := by
  simp only [Run.wake]
  split
  · next k ht => exact .of_still (.setTask_ready ht _)
  · exact .of_still (.refl s)

/-- The future of a `wait_for` is not that of the stop condition. -/
theorem Still.setTask_future {t : Task} {subId : Nat} {future : Future}
    {k : Except Exn Value → Coro Unit} (ht : s.task? t = some (.waiting subId future k))
    (future' : Future) : Still scn s (s.setTask t (.waiting subId future' k)) := by
  refine .setTask ht fun id future'' k' h => ?_
  cases h
  exact ⟨t, future, k, ht⟩

/-- A timeout may end the wait. -/
theorem effect_expire (t : Task) : Effect py scn s (.expire t) (s.expire py scn t) := by
  simp only [Run.expire]
  split
  · exact .of_still (.refl s)
  · next hfree =>
      have free : s.current = none := Option.not_isSome_iff_eq_none.mp hfree
      split
      · next subId future k ht => exact .of_still (.setTask_future ht _)
      · split
        · next hphase _ =>
            split
            · next hempty =>
                exact .expire rfl free hphase rfl fun hne => (hne hempty).elim
            · exact .expire rfl free hphase rfl fun _ => ⟨rfl, rfl⟩
        · exact .of_still (.refl s)

theorem effect_settle (t : Task) : Effect py scn s (.settle t) (s.settle t) := by
  simp only [Run.settle]
  split
  · exact .of_still (.refl s)
  · split
    · next subId future k ht => exact .of_still (.setTask_future ht _)
    · exact .of_still (.refl s)

/-- The stop future is settled in the loop's thread. -/
theorem effect_settleStop : Effect py scn s .settleStop s.settleStop := by
  simp only [Run.settleStop]
  split
  · exact .of_still (.refl s)
  · exact .settle (.refl _)

theorem effect_runJob (t : Task) (answer : Except Exn Value) :
    Effect py scn s (.runJob t answer) (s.runJob t answer) := by
  simp only [Run.runJob]
  split
  · next call k ht =>
      have ht' : (s.perform t (.runPj call)).task? t = some (.inExecutor call k) :=
        (task?_perform t _).trans ht
      exact .of_still ((Still.perform s t _).trans (.setTask_ready ht' _))
  · exact .of_still (.refl s)

/-- A move other than the next one of an emission. -/
theorem step_effect {a : Move} (en : s.enabled a = true) (other : ∀ i, a ≠ .bus (.advance i)) :
    Effect py scn s a (s.step py engine scn a) := by
  cases a with
  | bus m =>
      cases m with
      | subscribe patterns callback once =>
          have hforeign : callback.isStop = false := by
            cases callback <;> first | rfl | cases en
          exact .of_move engine _ (.subscribe hforeign) (.refl s) (.refl _)
      | unsubscribe subId =>
          refine .of_move engine _ (.unsubscribe (.inr fun sub hget => ?_)) (.refl s) (.refl _)
          simp only [enabled, hget] at en
          cases hcallback : sub.callback <;> rw [hcallback] at en <;> first | rfl | cases en
      | emit ev => exact .of_move engine _ .emit (.refl s) (.refl _)
      | advance i => exact (other i rfl).elim
      | arm | assign | remove => cases en
  | next info => exact effect_next info
  | turn t => exact effect_turn t
  | wake t => exact effect_wake t
  | expire t => exact effect_expire t
  | settle t => exact effect_settle t
  | settleStop => exact effect_settleStop
  | runJob t answer => exact effect_runJob t answer

/-! ## Emissions -/

/-- What the next move of emission `i` does to the stop condition. -/
structure Advanced (py : PyText) (scn : ScenarioSpec) (s : Run) (i : Nat) (s' : Run) : Prop where
  rt : s'.rt = s.rt.step py (.advance i)
  future : s'.stopFuture = s.futureAfter py i
  phase : s.phase.Passes scn s'.phase
  waits : ∀ id, s'.WaitsUnder id → s.WaitsUnder id

/-- A callback completes the future of its own subscription only. -/
theorem deliver_stopFuture (callback : Callback) (ev : Event) :
    (s.deliver py callback ev).stopFuture = s.stopFuture.after py callback ev := by
  cases callback with
  | stop spec =>
      simp only [deliver, Future.after]
      split <;> rfl
  | waiter t handlerId phone =>
      simp only [deliver]
      split
      · split
        · cases t <;> rfl
        · rfl
      · rfl
  | recorder | hook | foreign => rfl

theorem deliver_waits (callback : Callback) (ev : Event) :
    s.phase.Passes scn (s.deliver py callback ev).phase ∧
      ∀ id, (s.deliver py callback ev).WaitsUnder id → s.WaitsUnder id := by
  cases callback with
  | stop spec =>
      simp only [deliver]
      split
      · exact ⟨.refl _, fun id h => h.congr rfl fun _ _ _ => rfl⟩
      · exact ⟨.refl _, fun _ h => h⟩
  | waiter t handlerId phone =>
      simp only [deliver]
      split
      · next subId future k ht =>
          split
          · have hstill : Still scn s (s.setTask t (.waiting subId (future.post ev) k)) :=
              .setTask_future ht _
            exact ⟨hstill.phase, hstill.waits⟩
          · exact ⟨.refl _, fun _ h => h⟩
      · exact ⟨.refl _, fun _ h => h⟩
  | recorder => exact ⟨.refl _, fun id h => h.congr rfl fun _ _ _ => rfl⟩
  | hook | foreign => exact ⟨.refl _, fun _ h => h⟩

/-- An emission on another thread may set the stop future. -/
theorem advance_advanced (s : Run) (i : Nat) : Advanced py scn s i (s.advance py engine i) := by
  have hdone : ∀ s₁ : Run, s₁.rt = s.rt → s₁.stopFuture = s.futureAfter py i →
      s.phase.Passes scn s₁.phase → (∀ id, s₁.WaitsUnder id → s.WaitsUnder id) →
      Advanced py scn s i
        (if (s₁.moveBus py engine (.advance i)).loopEmit = some i ∧
            ((s₁.moveBus py engine (.advance i)).rt.emissions[i]?).any Emission.finished = true then
          { s₁.moveBus py engine (.advance i) with loopEmit := none }
        else s₁.moveBus py engine (.advance i)) := by
    intro s₁ hrt hfuture hphase hwaits
    have hmoved : Advanced py scn s i (s₁.moveBus py engine (.advance i)) :=
      ⟨congrArg (HookRuntime.step py · (.advance i)) hrt, hfuture, hphase,
        fun id h => hwaits id (waitsUnder_moveBus h)⟩
    split
    · exact ⟨hmoved.rt, hmoved.future, hmoved.phase,
        fun id h => hmoved.waits id (h.congr rfl fun _ _ _ => rfl)⟩
    · exact hmoved
  unfold Run.advance
  cases hcalled : s.rt.called i with
  | none =>
      refine hdone s rfl ?_ (.refl _) fun _ h => h
      rw [futureAfter, hcalled]
  | some called =>
      obtain ⟨callback, ev⟩ := called
      have hdeliver : s.phase.Passes scn (s.deliver py callback ev).phase ∧ _ :=
        deliver_waits callback ev
      refine hdone _ (Local.deliver s callback ev).rt ?_ hdeliver.1 hdeliver.2
      rw [deliver_stopFuture, futureAfter, hcalled]

end Run

end PjsuaMcp.Scenario
