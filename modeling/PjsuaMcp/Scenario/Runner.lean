import PjsuaMcp.Scenario.ActionExecutor

/-!
# A scenario run

`ScenarioRunner.run` with everything that goes on around it: the threads that
emit events, the loop that runs one coroutine at a time, the executor threads,
and the coroutines of the hooks. `run` holds the loop except while it awaits
its initial actions, the stop condition or the timeout.

## Implementation notes

The run begins when validation has passed or has been skipped; a scenario that
fails it arms nothing. Times are not modelled: a sleep or a timeout may end at
any moment. Between two moves of the coroutine that holds the loop the other
threads may move, but no other coroutine. The result keeps the timeline, the
status and the errors; the artifacts are left out.
-/

namespace PjsuaMcp.Scenario

open Library

structure ScenarioSpec where
  name : Text
  phones : List Value
  hooks : List Dict
  initialActions : List Value
  stopOn : List Dict
  timeoutMs : Int

/-- `list(v or [])`. -/
def Value.listOr (v : Value) : Except Exn (List Value) :=
  match (v.or (.list [])).elements? with
  | some xs => .ok xs
  | none => .error .builtin

/-- `[dict(x) for x in (v or [])]`. -/
def Value.dictsOr (v : Value) : Except Exn (List Dict) := do
  let xs ← v.listOr
  xs.mapM fun x =>
    match x.toDict? with
    | some d => .ok d
    | none => .error .builtin

/-- `Scenario.from_dict`; the description is left out. -/
def ScenarioSpec.fromDict (py : PyText) (d : Dict) : Except Exn ScenarioSpec := do
  let phones ← (d.getOr "phones" (.list [])).listOr
  let hooks ← (d.get "hooks").dictsOr
  let initialActions ← (d.get "initial_actions").listOr
  let stopOn ← (d.get "stop_on").dictsOr
  let timeoutMs ← match py.toInt (d.getOr "timeout_ms" (.int 60000)) with
    | some ms => .ok ms
    | none => .error .builtin
  let name := py.str (d.getOr "name" (.ofString "<anonymous>"))
  return ⟨name, phones, hooks, initialActions, stopOn, timeoutMs⟩

/-- One row of the timeline; `metadata` is the kind `"meta"`. -/
inductive Entry
  | event (ev : Event)
  | action (type : String) (phoneId callId : Value) (data : Dict) (hookId patternName : Text)
  | metadata (type : String) (data : Dict) (error : Option Exn)

/-- The row that the recorder adds for an operation of a handler. -/
def Op.row? : Op → Option Entry
  | recordAction action phoneId callId data hookId patternName =>
      some (.action action phoneId callId data hookId patternName)
  | recordMeta type data error => some (.metadata type data error)
  | _ => none

/-- A future with the `set_result` callbacks that are scheduled for it on the loop. -/
structure Future where
  result : Option Event := none
  cancelled : Bool := false
  posted : List Event := []

namespace Future

def done (f : Future) : Bool := f.result.isSome || f.cancelled

/-- `if future.done(): return`, else `call_soon_threadsafe(future.set_result, ev)`. -/
def post (f : Future) (ev : Event) : Future :=
  if f.done then f else { f with posted := f.posted ++ [ev] }

/-- The loop runs the first scheduled callback; on a future that is done it raises. -/
def settle (f : Future) : Future :=
  match f.posted with
  | [] => f
  | ev :: rest =>
      if f.done then { f with posted := rest }
      else { f with result := some ev, posted := rest }

/-- `cancel`. -/
def cancel (f : Future) : Future := if f.done then f else { f with cancelled := true }

end Future

/-- What a coroutine of `execute` waits for. -/
inductive TaskState
  /-- The loop. -/
  | ready (c : Coro Unit)
  /-- A function in the queue of the executor threads. -/
  | inExecutor (call : PjCall) (k : Except Exn Value → Coro Unit)
  | asleep (k : Except Exn Value → Coro Unit)
  /-- The future of a `wait_for`, or its timeout. -/
  | waiting (subId : Nat) (future : Future) (k : Except Exn Value → Coro Unit)
  | done (failure : Option Exn)

def TaskState.isDone : TaskState → Bool
  | done _ => true
  | _ => false

structure Outcome where
  status : String
  reason : Text

structure ScenarioResult where
  outcome : Outcome
  timeline : List Entry
  errors : List (String × Exn)

/-- Where `run` is; the lists are what its loops have still to go through. -/
inductive Phase
  | entering
  | arming (rest : List Dict)
  /-- Inside `arm`, before `hook.sub_id = sub_id`. -/
  | assigning (h : Nat) (rest : List Dict)
  | subscribing (rest : List Dict)
  | replaying (rest : List Value)
  | starting
  | beginning
  /-- In the coroutine of the initial actions. -/
  | acting (state : TaskState)
  | awaiting
  | unsubscribing (rest : List Nat) (outcome : Outcome)
  | removing (rest : List Nat) (outcome : Outcome)
  | stopping (outcome : Outcome)
  | finishing (outcome : Outcome)
  | detaching (outcome : Outcome)
  | returning (outcome : Outcome)
  | returned (result : ScenarioResult)
  | raised (exn : Exn)

def Phase.hasReturned : Phase → Bool
  | returned _ => true
  | _ => false

/-- The entries of `get_registration_info` that the replay passes on. -/
structure RegInfo where
  statusCode : Value
  reason : Value
  expires : Value

structure Run where
  rt : HookRuntime
  /-- The coroutines of `rt.scheduled`, in the same order. -/
  runs : List TaskState
  phase : Phase
  /-- The coroutine that holds the loop. -/
  current : Option Task
  /-- The emit that the coroutine holding the loop is inside of. -/
  loopEmit : Option Nat
  recorderSub : Option Nat
  stopSubs : List Nat
  stopFuture : Future
  timeline : List Entry
  errors : List (String × Exn)
  /-- The operations of coroutines so far; a function counts when an executor thread runs it. -/
  performed : List (Task × Op)

/-- What a move may do on the loop, the executor threads and the other threads. -/
inductive Move
  /-- Another thread emits, or subscribes or unsubscribes something of its own, or any emit in
  progress goes on. -/
  | bus (m : BusMove)
  /-- The coroutine that holds the loop goes on; `info` is the registration of the phone that
  the replay has reached, when it is registered. -/
  | next (info : Option RegInfo)
  /-- The loop, being free, resumes a coroutine. -/
  | turn (t : Task)
  /-- A sleep is over. -/
  | wake (t : Task)
  /-- A `wait_for` times out. -/
  | expire (t : Task)
  /-- The loop runs a scheduled `set_result`. -/
  | settle (t : Task)
  | settleStop
  /-- An executor thread runs a queued function. -/
  | runJob (t : Task) (answer : Except Exn Value)

/-- `bool(stop handler lets the event pass)`; nothing when a predicate raises. -/
def stopMatches (py : PyText) (spec : Dict) (ev : Event) : Option Bool :=
  let phone := spec.get "phone_id"
  let callId := spec.get "call_id"
  if !phone.isNull && !ev.phoneId.eq phone then some false
  else if !callId.isNull && !ev.callId.eq callId then some false
  else eventMatchesPredicates py ev ((((spec.get "match").or (.dict [])).toEntries?).getD [])

/-- The predicate of `wait_until`. -/
def waiterMatches (phone : Value) (ev : Event) : Bool :=
  phone.isNull || ev.phoneId.eq phone || ev.phoneId.isNull

/-- The callback of another subscriber than a hook that the next move of emission `i` calls. -/
def HookRuntime.called (rt : HookRuntime) (i : Nat) : Option (Callback × Event) :=
  match rt.emissions[i]? with
  | some e =>
      match e.todo with
      | sub :: _ => if sub.callback.isHook then none else some (sub.callback, e.event)
      | [] => none
  | none => none

namespace Run

variable (py : PyText) (engine : Bool) (scenario : ScenarioSpec)

def initial : Run where
  rt := .initial
  runs := []
  phase := .entering
  current := some .run
  loopEmit := none
  recorderSub := none
  stopSubs := []
  stopFuture := {}
  timeline := []
  errors := []
  performed := []

/-- The state of a coroutine of `execute`; that of the initial actions is in the phase. -/
def task? (s : Run) : Task → Option TaskState
  | .run =>
      match s.phase with
      | .acting state => some state
      | _ => none
  | .hookRun n => s.runs[n]?

def setTask (s : Run) (t : Task) (state : TaskState) : Run :=
  match t with
  | .run => { s with phase := .acting state }
  | .hookRun n => { s with runs := s.runs.set n state }

/-! ## Emits -/

/-- The callbacks of the recorder, the stop handlers and `wait_for`. -/
def deliver (s : Run) (callback : Callback) (ev : Event) : Run :=
  match callback with
  | .recorder => { s with timeline := s.timeline ++ [.event ev] }
  | .stop spec =>
      if stopMatches py spec ev = some true then { s with stopFuture := s.stopFuture.post ev }
      else s
  | .waiter t handlerId phone =>
      match s.task? t with
      | some (.waiting subId future k) =>
          -- the handler of an earlier call finds a future that is done
          if handlerId = subId && waiterMatches phone ev then
            s.setTask t (.waiting subId (future.post ev) k)
          else s
      | _ => s
  | .hook _ | .foreign => s

/-- The coroutine `self._exec(hook.then, hook, event)` of a firing. -/
def hookCoro (s : Run) (firing : Nat × Event) : TaskState :=
  match s.rt.hooks[firing.1]? with
  | some hook => .ready (execute py engine hook.thenActions hook firing.2)
  | none => .done none

/-- A move on the bus, with the coroutines that it schedules. -/
def moveBus (s : Run) (m : BusMove) : Run :=
  let rt := s.rt.step py m
  { s with
    rt := rt
    runs := s.runs ++ (rt.scheduled.drop s.runs.length).map (s.hookCoro py engine) }

/-- An emission goes on; at its end the coroutine that has called `emit` goes on too. -/
def advance (s : Run) (i : Nat) : Run :=
  let s := match s.rt.called i with
    | some (callback, ev) => s.deliver py callback ev
    | none => s
  let s := s.moveBus py engine (.advance i)
  if s.loopEmit = some i ∧ (s.rt.emissions[i]?).any Emission.finished then
    { s with loopEmit := none }
  else s

/-- The event that is made on the loop thread next. -/
def stamped (s : Run) (body : EventBody) : Event :=
  { body with timestamp := py.monotonic s.rt.emissions.length }

/-- `emit` on the loop thread, or nothing when it raises. -/
def emitOnLoop (s : Run) (body : EventBody) : Option Run :=
  match s.rt.bus.snapshot body with
  | none => none
  | some _ =>
      some { s.moveBus py engine (.emit (s.stamped py body)) with
        loopEmit := some s.rt.emissions.length }

/-! ## Coroutines -/

/-- The coroutine has come to its end; `run` goes on from its initial actions. -/
def finish (s : Run) (t : Task) (failure : Option Exn) : Run :=
  match t with
  | .hookRun _ => { s.setTask t (.done failure) with current := none }
  | .run =>
      match failure with
      | none => { s with phase := .awaiting }
      | some exn =>
          { s with
            phase := .awaiting
            errors := s.errors ++ [("initial_actions", exn)]
            timeline := s.timeline ++ [.metadata "initial.error" [] (some exn)] }

/-- An operation that the loop thread carries out. -/
def perform (s : Run) (t : Task) (op : Op) : Run :=
  { s with
    performed := s.performed ++ [(t, op)]
    timeline := s.timeline ++ op.row?.toList }

/-- The coroutine holding the loop asks for an operation. -/
def askFor (s : Run) (t : Task) (op : Op) (k : Except Exn Value → Coro Unit) : Run :=
  match op with
  | .recordAction .. | .recordMeta .. => (s.perform t op).setTask t (.ready (k (.ok .null)))
  | .runPj call => { s.setTask t (.inExecutor call k) with current := none }
  | .sleep _ => { (s.perform t op).setTask t (.asleep k) with current := none }
  | .waitFor eventType phone _ =>
      match patternList eventType with
      | none => (s.perform t op).setTask t (.ready (k (.error .builtin)))
      | some patterns =>
          let subId := s.rt.bus.ids
          let s := (s.perform t op).moveBus py engine
            (.subscribe patterns (.waiter t subId phone) false)
          { s.setTask t (.waiting subId {} k) with current := none }
  | .emit body =>
      let s := s.perform t op
      match s.emitOnLoop py engine body with
      | none => s.setTask t (.ready (k (.error .builtin)))
      | some s => s.setTask t (.ready (k (.ok .null)))

/-- The coroutine holding the loop goes on. -/
def goOn (s : Run) (t : Task) : Coro Unit → Run
  | .pure _ => s.finish t none
  | .raise exn => s.finish t (some exn)
  | .call op k => s.askFor py engine t op k

/-! ## The coroutine of `run` -/

/-- An emit of `run`; when it raises, so does `run`. -/
def emitThen (s : Run) (body : EventBody) (phase : Phase) : Run :=
  match s.emitOnLoop py engine body with
  | some s => { s with phase := phase }
  | none => { s with phase := .raised .builtin, current := none }

def lifecycleEvent (type : String) (data : Dict) : EventBody :=
  ⟨type.toList, .null, .null, data⟩

/-- The subscription of one `stop_on` entry. -/
def subscribeStop (s : Run) (spec : Dict) (rest : List Dict) : Run :=
  let eventType := spec.get "event"
  if !eventType.truthy then { s with phase := .subscribing rest }
  else
    match ((spec.get "match").or (.dict [])).toEntries?, patternList eventType with
    | some _, some patterns =>
        { s.moveBus py engine (.subscribe patterns (.stop spec) false) with
          stopSubs := s.stopSubs ++ [s.rt.bus.ids]
          phase := .subscribing rest }
    | _, _ => { s with phase := .raised .builtin, current := none }

/-- The event that stands for an earlier registration. -/
def replayEvent (phone : Value) (info : RegInfo) : EventBody where
  type := "reg.success".toList
  phoneId := phone
  callId := .null
  data := [("status_code".toList, info.statusCode), ("reason".toList, info.reason),
    ("expires".toList, info.expires), ("synthetic".toList, .bool true)]

def outcomeData (outcome : Outcome) : Dict :=
  [("status".toList, .ofString outcome.status), ("reason".toList, .str outcome.reason)]

/-- `run` leaves its wait. -/
def leave (s : Run) (status : String) (reason : Text) : Run :=
  { s with phase := .unsubscribing s.stopSubs ⟨status, reason⟩, current := some .run }

def initHook : Hook :=
  ⟨"<init>".toList, [], none, [], scenario.initialActions, true, "<scenario>".toList, none⟩

/-- The next move of `run` while it holds the loop outside of its initial actions. -/
def runNext (s : Run) (info : Option RegInfo) : Run :=
  match s.phase with
  | .entering =>
      { s.moveBus py engine (.subscribe [.str ['*']] .recorder false) with
        recorderSub := some s.rt.bus.ids
        timeline := s.timeline ++ [.metadata "scenario.started" [("name".toList, .str scenario.name),
          ("phones".toList, .list scenario.phones)] none]
        phase := .arming scenario.hooks }
  | .arming [] => { s with phase := .subscribing scenario.stopOn }
  | .arming (spec :: rest) =>
      match Hook.ofSpec py (py.uuid s.rt.hooks.length) spec "<scenario>".toList with
      | .error exn =>
          { s with errors := s.errors ++ [("scenario_hooks", exn)], phase := .arming rest }
      | .ok _ =>
          { s.moveBus py engine (.arm spec "<scenario>".toList) with
            phase := .assigning s.rt.hooks.length rest }
  | .assigning h rest => { s.moveBus py engine (.assign h) with phase := .arming rest }
  | .subscribing [] => { s with phase := .replaying scenario.phones }
  | .subscribing (spec :: rest) => s.subscribeStop py engine spec rest
  | .replaying [] => { s with phase := .starting }
  | .replaying (phone :: rest) =>
      match info with
      | none => { s with phase := .replaying rest }
      | some info => s.emitThen py engine (replayEvent phone info) (.replaying rest)
  | .starting =>
      s.emitThen py engine
        (lifecycleEvent "scenario.started" [("name".toList, .str scenario.name)]) .beginning
  | .beginning =>
      if scenario.initialActions.isEmpty then { s with phase := .awaiting }
      else
        let event := s.stamped py (lifecycleEvent "scenario.started" [])
        { s with
          phase := .acting (.ready
            (execute py engine scenario.initialActions (initHook scenario) event)) }
  | .awaiting =>
      -- awaiting a future that has its result does not give up the loop
      if scenario.stopOn ≠ [] ∧ s.stopFuture.result.isSome then s.leave "ok" "stop_on matched".toList
      else { s with current := none }
  | .unsubscribing [] outcome => { s with phase := .removing s.rt.registered outcome }
  | .unsubscribing (subId :: rest) outcome =>
      { s.moveBus py engine (.unsubscribe subId) with phase := .unsubscribing rest outcome }
  | .removing [] outcome => { s with phase := .stopping outcome }
  | .removing (h :: rest) outcome =>
      { s.moveBus py engine (.remove h) with phase := .removing rest outcome }
  | .stopping outcome =>
      s.emitThen py engine (lifecycleEvent "scenario.stopped" (outcomeData outcome))
        (.finishing outcome)
  | .finishing outcome =>
      { s with
        timeline := s.timeline ++ [.metadata "scenario.stopped" (outcomeData outcome) none]
        phase := .detaching outcome }
  | .detaching outcome =>
      match s.recorderSub with
      | some subId =>
          { s.moveBus py engine (.unsubscribe subId) with
            recorderSub := none, phase := .returning outcome }
      | none => { s with phase := .returning outcome }
  | .returning outcome =>
      { s with phase := .returned ⟨outcome, s.timeline, s.errors⟩, current := none }
  | .acting _ | .returned _ | .raised _ => s

/-! ## The loop -/

/-- The coroutine that holds the loop goes on, unless it is inside an emit. -/
def next (s : Run) (info : Option RegInfo) : Run :=
  match s.current, s.loopEmit with
  | some t, none =>
      match s.task? t with
      | some (.ready c) => s.goOn py engine t c
      | _ => if t = .run then s.runNext py engine scenario info else s
  | _, _ => s

/-- The free loop resumes a coroutine; a `wait_for` gives up its subscription first. -/
def turn (s : Run) (t : Task) : Run :=
  if s.current.isSome then s
  else
    match s.task? t with
    | some (.ready _) => { s with current := some t }
    | some (.waiting subId future k) =>
        if future.done then
          let answer := if future.cancelled then .error .timeout else .ok .null
          { (s.moveBus py engine (.unsubscribe subId)).setTask t (.ready (k answer)) with
            current := some t }
        else s
    | _ =>
        match t, s.phase with
        | .run, .awaiting =>
            if scenario.stopOn ≠ [] ∧ s.stopFuture.result.isSome then
              s.leave "ok" "stop_on matched".toList
            else s
        | _, _ => s

def wake (s : Run) (t : Task) : Run :=
  match s.task? t with
  | some (.asleep k) => s.setTask t (.ready (k (.ok .null)))
  | _ => s

/-- A timeout on the free loop: of a `wait_for`, or of the wait of `run`. -/
def expire (s : Run) (t : Task) : Run :=
  if s.current.isSome then s
  else
    match s.task? t with
    | some (.waiting subId future k) =>
        -- a result that the coroutine has not yet seen is lost to the timeout
        s.setTask t (.waiting subId { future with cancelled := true } k)
    | _ =>
        match t, s.phase with
        | .run, .awaiting =>
            if scenario.stopOn = [] then
              s.leave "ok" "full duration (no stop_on defined)".toList
            else
              { s with stopFuture := s.stopFuture.cancel }.leave "timeout"
                ("timeout after ".toList ++ py.str (.int scenario.timeoutMs) ++ "ms".toList)
        | _, _ => s

def settle (s : Run) (t : Task) : Run :=
  if s.current.isSome then s
  else
    match s.task? t with
    | some (.waiting subId future k) => s.setTask t (.waiting subId future.settle k)
    | _ => s

def settleStop (s : Run) : Run :=
  if s.current.isSome then s else { s with stopFuture := s.stopFuture.settle }

/-- The function is called on an executor thread, which is where the managers see it. -/
def runJob (s : Run) (t : Task) (answer : Except Exn Value) : Run :=
  match s.task? t with
  | some (.inExecutor call k) => (s.perform t (.runPj call)).setTask t (.ready (k answer))
  | _ => s

def step (s : Run) : Move → Run
  | .bus (.advance i) => s.advance py engine i
  | .bus m => s.moveBus py engine m
  | .next info => s.next py engine scenario info
  | .turn t => s.turn py engine scenario t
  | .wake t => s.wake t
  | .expire t => s.expire py scenario t
  | .settle t => s.settle t
  | .settleStop => s.settleStop
  | .runJob t answer => s.runJob t answer

/-- Other threads subscribe for themselves only and leave the scenario's subscriptions alone. -/
def enabled (s : Run) : Move → Bool
  | .bus (.subscribe _ callback _) =>
      match callback with
      | .foreign => true
      | _ => false
  | .bus (.unsubscribe subId) =>
      match s.rt.bus.subs.get? subId with
      | some sub =>
          match sub.callback with
          | .foreign => true
          | _ => false
      | none => true
  | .bus (.emit _) | .bus (.advance _) => true
  | .bus _ => false
  | _ => true

end Run

/-- The run of one scenario among the other users of the bus. -/
def scenarioSystem (py : PyText) (engine : Bool) (scenario : ScenarioSpec) :
    GuardedSystem Run Move where
  init := .initial
  enabled s a := s.enabled a = true
  step := Run.step py engine scenario

instance (py : PyText) (engine : Bool) (scenario : ScenarioSpec) (s : Run) (a : Move) :
    Decidable ((scenarioSystem py engine scenario).enabled s a) :=
  inferInstanceAs (Decidable (s.enabled a = true))

end PjsuaMcp.Scenario
