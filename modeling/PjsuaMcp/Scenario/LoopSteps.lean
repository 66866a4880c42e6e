import PjsuaMcp.Scenario.Attachment
import PjsuaMcp.Scenario.Runner

/-!
# What the moves of a run can change

A move is either the next move of `run` itself or a `LoopStep`: some coroutine
that has not come to its end performs at most one operation, the bus makes at
most one move that neither arms nor removes a hook, and everything else that
changes belongs to the coroutines and the wait of `run`. The next move of `run`
is told by `runNext_spec`, from which all that is known about it follows; it is a
`RunStep`: it arms, assigns or removes one hook, subscribes one stop condition, or
goes on to the next phase with one quiet move of the bus at most.
-/

namespace PjsuaMcp.Scenario

open Library

/-- The phases in which `run` does not hold the loop, and the one it enters after them. -/
def Phase.inWait : Phase → Bool
  | acting _ | awaiting | unsubscribing .. => true
  | _ => false

/-- The phases that `run` goes through without arming or removing a hook. -/
inductive Phase.Next (scn : ScenarioSpec) : Phase → Phase → Prop
  | stay {phase} (h : ∀ i rest, phase ≠ .assigning i rest) : Next scn phase phase
  | enter : Next scn .entering (.arming scn.hooks)
  | armed : Next scn (.arming []) (.subscribing scn.stopOn)
  | skip {spec rest} : Next scn (.subscribing (spec :: rest)) (.subscribing rest)
  | subscribed : Next scn (.subscribing []) (.replaying scn.phones)
  | replay {phone rest} : Next scn (.replaying (phone :: rest)) (.replaying rest)
  | replayed : Next scn (.replaying []) .starting
  | start : Next scn .starting .beginning
  | act {state} : Next scn .beginning (.acting state)
  | await : Next scn .beginning .awaiting
  | leave {ids outcome} : Next scn .awaiting (.unsubscribing ids outcome)
  | unsubscribe {id rest outcome} :
      Next scn (.unsubscribing (id :: rest) outcome) (.unsubscribing rest outcome)
  | removed {outcome} : Next scn (.removing [] outcome) (.stopping outcome)
  | stop {outcome} : Next scn (.stopping outcome) (.finishing outcome)
  | finish {outcome} : Next scn (.finishing outcome) (.detaching outcome)
  | detach {outcome} : Next scn (.detaching outcome) (.returning outcome)
  | ret {outcome result} : Next scn (.returning outcome) (.returned result)
  | raiseSubscribing {spec rest} : Next scn (.subscribing (spec :: rest)) (.raised .builtin)
  | raiseReplaying {phone rest} : Next scn (.replaying (phone :: rest)) (.raised .builtin)
  | raiseStarting : Next scn .starting (.raised .builtin)
  | raiseStopping {outcome} : Next scn (.stopping outcome) (.raised .builtin)

theorem Phase.Next.not_assigning {scn : ScenarioSpec} {phase phase' : Phase}
    (next : Phase.Next scn phase phase') : ∀ i rest, phase ≠ .assigning i rest := by
  cases next with
  | stay h => exact h
  | _ => simp

/-- The moves of the bus that leave the hooks of the scenario to `run`. -/
def BusMove.quiet : BusMove → Bool
  | subscribe _ callback _ => !callback.isHook
  | unsubscribe _ | emit _ | advance _ => true
  | arm .. | assign _ | remove _ => false

/-- A quiet move is always possible. -/
theorem BusMove.enabled_of_quiet {m : BusMove} (h : m.quiet = true) :
    HookRuntime.enabled m = true := by
  cases m <;> first | rfl | exact h

namespace Run

variable {py : PyText} {engine : Bool} {scenario : ScenarioSpec} {s s' s'' : Run}

/-- The coroutine exists and has not come to its end. -/
def Unfinished (s : Run) (t : Task) : Prop := ∃ state, s.task? t = some state ∧ state.isDone = false

/-- What the set-up of `run` leaves behind: its subscriptions and the hooks that it could not
arm. -/
def setUp (s : Run) : List Nat × List (String × Exn) :=
  (s.stopSubs, s.errors.filter fun e => e.1 = "scenario_hooks")

/-- Changes that neither the bus nor the managers see. -/
structure Local (s s' : Run) : Prop where
  rt : s'.rt = s.rt
  phase : s'.phase = s.phase ∨ (s.phase.inWait = true ∧ s'.phase.inWait = true)
  length : s'.runs.length = s.runs.length
  finished : ∀ (n : Nat) (state : TaskState), s.runs[n]? = some state → state.isDone = true →
    s'.runs[n]? = some state
  performed : s'.performed = s.performed
  timeline : s.timeline ⊆ s'.timeline
  setUp : s'.setUp = s.setUp

theorem Local.refl (s : Run) : Local s s :=
  ⟨rfl, .inl rfl, rfl, fun _ _ h _ => h, rfl, List.Subset.refl _, rfl⟩

theorem Local.trans (h : Local s s') (h' : Local s' s'') : Local s s'' where
  rt := h'.rt.trans h.rt
  phase := by
    rcases h'.phase with heq' | ⟨hin', hout'⟩
    · rw [heq']
      exact h.phase
    · rcases h.phase with heq | ⟨hin, _⟩
      · exact .inr ⟨heq ▸ hin', hout'⟩
      · exact .inr ⟨hin, hout'⟩
  length := h'.length.trans h.length
  finished n state hn hd := h'.finished n state (h.finished n state hn hd) hd
  performed := h'.performed.trans h.performed
  timeline _ hrow := h'.timeline (h.timeline hrow)
  setUp := h'.setUp.trans h.setUp

theorem task?_run_some {state : TaskState} (h : s.task? .run = some state) :
    s.phase = .acting state := by
  simp only [task?] at h
  split at h
  next hphase =>
    cases h
    exact hphase
  next => cases h

theorem Local.setTask {t : Task} (open_t : s.Unfinished t) (state : TaskState) :
    Local s (s.setTask t state) := by
  obtain ⟨old, hold, hopen⟩ := open_t
  cases t with
  | run =>
      have hphase := task?_run_some hold
      refine ⟨rfl, .inr ⟨?_, rfl⟩, rfl, fun _ _ h _ => h, rfl, List.Subset.refl _, rfl⟩
      rw [hphase]
      rfl
  | hookRun n =>
      refine ⟨rfl, .inl rfl, List.length_set, fun m state' hm hd => ?_, rfl, List.Subset.refl _,
        rfl⟩
      have hne : n ≠ m := by
        rintro rfl
        have hsame : s.runs[n]? = some old := hold
        rw [hsame] at hm
        cases hm
        rw [hopen] at hd
        cases hd
      exact (List.getElem?_set_ne hne).trans hm

/-- Updates of the loop's own bookkeeping. -/
theorem Local.of_fields (hrt : s'.rt = s.rt) (hruns : s'.runs = s.runs)
    (hphase : s'.phase = s.phase ∨ (s.phase.inWait = true ∧ s'.phase.inWait = true))
    (hperformed : s'.performed = s.performed) (htimeline : s.timeline ⊆ s'.timeline)
    (hsetUp : s'.setUp = s.setUp) : Local s s' :=
  ⟨hrt, hphase, by rw [hruns], fun _ _ h _ => hruns ▸ h, hperformed, htimeline, hsetUp⟩

/-- A callback reaches a future at most. -/
theorem Local.deliver (s : Run) (callback : Callback) (ev : Event) :
    Local s (s.deliver py callback ev) := by
  cases callback with
  | recorder => exact .of_fields rfl rfl (.inl rfl) rfl (List.subset_append_left _ _) rfl
  | stop spec =>
      simp only [Run.deliver]
      split
      · exact .of_fields rfl rfl (.inl rfl) rfl (List.Subset.refl _) rfl
      · exact .refl s
  | waiter t handlerId phone =>
      simp only [Run.deliver]
      split
      next subId future k ht =>
        split
        · exact .setTask ⟨_, ht, rfl⟩ _
        · exact .refl s
      next => exact .refl s
  | hook | foreign => exact .refl s

/-- At most one operation of a coroutine that has not come to its end. -/
def Performs (s s' : Run) : Prop :=
  s' = s ∨ ∃ t op, s.Unfinished t ∧ s' = s.perform t op

/-- At most one quiet move of the bus. -/
def MovesBus (py : PyText) (engine : Bool) (s s' : Run) : Prop :=
  s' = s ∨ ∃ m, m.quiet = true ∧ s' = s.moveBus py engine m

def LoopStep (py : PyText) (engine : Bool) (s s' : Run) : Prop :=
  ∃ s₁ s₂ s₃, Performs s s₁ ∧ Local s₁ s₂ ∧ MovesBus py engine s₂ s₃ ∧ Local s₃ s'

/-- A local step, without any move of the bus. -/
theorem LoopStep.of_local (h : Local s s') : LoopStep py engine s s' :=
  ⟨s, s, s, .inl rfl, .refl s, .inl rfl, h⟩

theorem LoopStep.of_moveBus {m : BusMove} (quiet : m.quiet = true)
    (h : Local (s.moveBus py engine m) s') : LoopStep py engine s s' :=
  ⟨s, s, _, .inl rfl, .refl s, .inr ⟨m, quiet, rfl⟩, h⟩

theorem Unfinished.perform {t : Task} (open_t : s.Unfinished t) (t' : Task) (op : Op) :
    (s.perform t' op).Unfinished t := by
  obtain ⟨state, hstate, hopen⟩ := open_t
  refine ⟨state, ?_, hopen⟩
  cases t <;> exact hstate

/-- An operation that is performed, and a local step. -/
theorem LoopStep.of_perform {t : Task} {op : Op} (open_t : s.Unfinished t)
    (h : Local (s.perform t op) s') : LoopStep py engine s s' :=
  ⟨_, _, _, .inr ⟨t, op, open_t, rfl⟩, h, .inl rfl, .refl s'⟩

theorem LoopStep.of_perform_moveBus {t : Task} (op : Op) (m : BusMove) (open_t : s.Unfinished t)
    (quiet : m.quiet = true) (h : Local ((s.perform t op).moveBus py engine m) s') :
    LoopStep py engine s s' :=
  ⟨s.perform t op, s.perform t op, _, .inr ⟨t, op, open_t, rfl⟩, .refl _, .inr ⟨m, quiet, rfl⟩, h⟩

/-- Coroutines only join at the end. -/
theorem Unfinished.moveBus {t : Task} (open_t : s.Unfinished t) (m : BusMove) :
    (s.moveBus py engine m).Unfinished t := by
  obtain ⟨state, hstate, hopen⟩ := open_t
  refine ⟨state, ?_, hopen⟩
  cases t with
  | run => exact hstate
  | hookRun n =>
      exact cell_append hstate _

theorem task?_perform {t : Task} (t' : Task) (op : Op) :
    (s.perform t' op).task? t = s.task? t := by
  cases t <;> rfl

/-- A coroutine that exists stays so. -/
theorem task?_moveBus {t : Task} {state : TaskState} (h : s.task? t = some state) (m : BusMove) :
    (s.moveBus py engine m).task? t = some state := by
  cases t with
  | run => exact h
  | hookRun n =>
      exact cell_append h _

/-- The bus schedules coroutines that are ready, so one that waits has been there before. -/
theorem waiting_of_moveBus {t : Task} {m : BusMove} {id : Nat} {future : Future}
    {k : Except Exn Value → Coro Unit}
    (h : (s.moveBus py engine m).task? t = some (.waiting id future k)) :
    s.task? t = some (.waiting id future k) := by
  cases t with
  | run => exact h
  | hookRun n =>
      rcases Nat.lt_or_ge n s.runs.length with hlt | hge
      · exact (List.getElem?_append_left hlt).symm.trans h
      · have hnew := (List.getElem?_append_right hge).symm.trans h
        obtain ⟨firing, -, hfiring⟩ := List.mem_map.mp (List.mem_of_getElem? hnew)
        unfold hookCoro at hfiring
        split at hfiring <;> cases hfiring

/-- An emission on another thread calls its next subscription. -/
theorem LoopStep.advance (s : Run) (i : Nat) : LoopStep py engine s (s.advance py engine i) := by
  have hdone : ∀ s₁ : Run, Local s s₁ → LoopStep py engine s
      (if (s₁.moveBus py engine (.advance i)).loopEmit = some i ∧
          ((s₁.moveBus py engine (.advance i)).rt.emissions[i]?).any Emission.finished = true then
        { s₁.moveBus py engine (.advance i) with loopEmit := none }
      else s₁.moveBus py engine (.advance i)) := by
    intro s₁ h
    refine ⟨s, s₁, _, .inl rfl, h, .inr ⟨.advance i, rfl, rfl⟩, ?_⟩
    split
    · exact .of_fields rfl rfl (.inl rfl) rfl (List.Subset.refl _) rfl
    · exact .refl _
  unfold Run.advance
  cases hcall : s.rt.called i with
  | none => exact hdone s (.refl s)
  | some called => exact hdone _ (.deliver s called.1 called.2)

theorem advance_rt (s : Run) (i : Nat) :
    (s.advance py engine i).rt = s.rt.advance py i := by
  have hdone : ∀ s₁ : Run, s₁.rt = s.rt →
      (if (s₁.moveBus py engine (.advance i)).loopEmit = some i ∧
          ((s₁.moveBus py engine (.advance i)).rt.emissions[i]?).any Emission.finished = true then
        { s₁.moveBus py engine (.advance i) with loopEmit := none }
      else s₁.moveBus py engine (.advance i)).rt = s.rt.advance py i := by
    intro s₁ same
    rw [← same]
    split <;> rfl
  unfold Run.advance
  cases s.rt.called i with
  | none => exact hdone s rfl
  | some called => exact hdone _ (Local.deliver s called.1 called.2).rt

theorem Local.withCurrent (h : Local s s') (current : Option Task) :
    Local s { s' with current := current } :=
  h.trans (.of_fields rfl rfl (.inl rfl) rfl (List.Subset.refl _) rfl)

/-- A coroutine awaits the answer to what it asks for. -/
theorem LoopStep.askFor {t : Task} {op : Op} {k : Except Exn Value → Coro Unit}
    (open_t : s.Unfinished t) : LoopStep py engine s (s.askFor py engine t op k) := by
  have open_op : (s.perform t op).Unfinished t := open_t.perform t op
  cases op with
  | recordAction | recordMeta => exact .of_perform open_t (.setTask open_op _)
  | runPj call => exact .of_local ((Local.setTask open_t _).withCurrent none)
  | sleep ms => exact .of_perform open_t ((Local.setTask open_op _).withCurrent none)
  | waitFor eventType phone timeoutMs =>
      simp only [Run.askFor]
      split
      next => exact .of_perform open_t (.setTask open_op _)
      next patterns _ =>
        refine .of_perform_moveBus (.waitFor eventType phone timeoutMs)
          (.subscribe patterns (.waiter t s.rt.bus.ids phone) false) open_t rfl ?_
        exact (Local.setTask (open_op.moveBus _) _).withCurrent none
  | emit body =>
      let ev := s.stamped py body
      simp only [Run.askFor, Run.emitOnLoop]
      cases (s.perform t (.emit body)).rt.bus.snapshot body with
      | none => exact .of_perform open_t (.setTask open_op _)
      | some found =>
          refine .of_perform_moveBus (.emit body) (.emit ev) open_t rfl ?_
          refine Local.trans ?_ (.setTask (t := t) ?_ _)
          · exact .of_fields rfl rfl (.inl rfl) rfl (List.Subset.refl _) rfl
          · have open_bus : ((s.perform t (.emit body)).moveBus py engine (.emit ev)).Unfinished t :=
              open_op.moveBus (.emit ev)
            obtain ⟨state, hstate, hopen⟩ := open_bus
            refine ⟨state, ?_, hopen⟩
            cases t <;> exact hstate

/-- A task ends. -/
theorem LoopStep.finish {t : Task} (open_t : s.Unfinished t) (failure : Option Exn) :
    LoopStep py engine s (s.finish t failure) := by
  refine .of_local ?_
  cases t with
  | hookRun n => exact (Local.setTask open_t _).withCurrent none
  | run =>
      obtain ⟨state, hstate, _⟩ := open_t
      have hphase := task?_run_some hstate
      have hin : s.phase.inWait = true := by
        rw [hphase]
        rfl
      cases failure with
      | none => exact .of_fields rfl rfl (.inr ⟨hin, rfl⟩) rfl (List.Subset.refl _) rfl
      | some exn =>
          refine .of_fields rfl rfl (.inr ⟨hin, rfl⟩) rfl (List.subset_append_left _ _) ?_
          simp [setUp, Run.finish]

/-- A coroutine goes on to its next await. -/
theorem LoopStep.goOn {t : Task} {c : Coro Unit} (open_t : s.Unfinished t) :
    LoopStep py engine s (s.goOn py engine t c) := by
  cases c with
  | pure => exact .finish open_t none
  | raise exn => exact .finish open_t (some exn)
  | call => exact .askFor open_t

theorem Local.leave (status : String) (reason : Text) (hphase : s.phase = .awaiting) :
    Local s (s.leave status reason) := by
  refine .of_fields rfl rfl (.inr ⟨?_, rfl⟩) rfl (List.Subset.refl _) rfl
  rw [hphase]
  rfl

/-- A task takes its turn. -/
theorem LoopStep.turn (t : Task) : LoopStep py engine s (s.turn py engine scenario t) := by
  simp only [Run.turn]
  split
  · exact .of_local (.refl s)
  · split
    next c _ => exact .of_local ((Local.refl s).withCurrent (some t))
    next subId future k ht =>
      split
      · have open_t : s.Unfinished t := ⟨_, ht, rfl⟩
        refine .of_moveBus (m := .unsubscribe subId) rfl ?_
        exact (Local.setTask (open_t.moveBus _) _).withCurrent (some t)
      · exact .of_local (.refl s)
    next =>
      split
      next hphase _ _ =>
        split
        · exact .of_local (.leave _ _ hphase)
        · exact .of_local (.refl s)
      next => exact .of_local (.refl s)

theorem Local.wake (t : Task) : Local s (s.wake t) := by
  simp only [Run.wake]
  split
  next k ht => exact .setTask ⟨_, ht, rfl⟩ _
  next => exact .refl s

theorem Local.settle (t : Task) : Local s (s.settle t) := by
  simp only [Run.settle]
  split
  · exact .refl s
  · split
    next subId future k ht => exact .setTask ⟨_, ht, rfl⟩ _
    next => exact .refl s

theorem Local.settleStop (s : Run) : Local s s.settleStop := by
  simp only [Run.settleStop]
  split
  · exact .refl s
  · exact .of_fields rfl rfl (.inl rfl) rfl (List.Subset.refl _) rfl

theorem Local.expire (t : Task) : Local s (s.expire py scenario t) := by
  simp only [Run.expire]
  split
  · exact .refl s
  · split
    next subId future k ht => exact .setTask ⟨_, ht, rfl⟩ _
    next =>
      split
      next hphase _ =>
        split
        · exact .leave _ _ hphase
        · have hstop : Local s { s with stopFuture := s.stopFuture.cancel } :=
            .of_fields rfl rfl (.inl rfl) rfl (List.Subset.refl _) rfl
          exact hstop.trans (.leave _ _ hphase)
      next => exact .refl s

/-- A job on another thread answers. -/
theorem LoopStep.runJob (t : Task) (answer : Except Exn Value) :
    LoopStep py engine s (s.runJob t answer) := by
  simp only [Run.runJob]
  split
  next call k ht =>
    have open_t : s.Unfinished t := ⟨_, ht, rfl⟩
    exact .of_perform open_t (.setTask (open_t.perform _ _) _)
  next => exact .of_local (.refl s)

/-- A move is the next one of `run`, which holds the loop, or a loop step. -/
theorem step_cases {a : Move} (en : s.enabled a = true) :
    LoopStep py engine s (s.step py engine scenario a) ∨
      ∃ info, s.current = some .run ∧
        s.step py engine scenario a = s.runNext py engine scenario info := by
  cases a with
  | bus m =>
      cases m with
      | subscribe patterns callback once =>
          have quiet : BusMove.quiet (.subscribe patterns callback once) = true := by
            cases callback <;> first | rfl | cases en
          exact .inl (.of_moveBus quiet (.refl _))
      | unsubscribe subId => exact .inl (.of_moveBus (m := .unsubscribe subId) rfl (.refl _))
      | emit ev => exact .inl (.of_moveBus (m := .emit ev) rfl (.refl _))
      | advance i => exact .inl (.advance s i)
      | arm | assign | remove => cases en
  | next info =>
      simp only [Run.step, Run.next]
      split
      next t hcurrent _ =>
        split
        next c ht => exact .inl (.goOn ⟨_, ht, rfl⟩)
        next =>
          split
          next hrun => exact .inr ⟨info, hrun ▸ hcurrent, rfl⟩
          next => exact .inl (.of_local (.refl s))
      next => exact .inl (.of_local (.refl s))
  | turn t => exact .inl (.turn t)
  | wake t => exact .inl (.of_local (.wake t))
  | expire t => exact .inl (.of_local (.expire t))
  | settle t => exact .inl (.of_local (.settle t))
  | settleStop => exact .inl (.of_local (.settleStop s))
  | runJob t answer => exact .inl (.runJob t answer)

/-! ## The hooks of a run -/

/-- The bus makes at most one move. -/
def BusStep (py : PyText) (s s' : Run) : Prop :=
  s'.rt = s.rt ∨ ∃ m, HookRuntime.enabled m = true ∧ s'.rt = s.rt.step py m

/-- A loop step moves the bus at most once, and neither arms nor removes a hook. -/
theorem LoopStep.rt (h : LoopStep py engine s s') :
    s'.rt = s.rt ∨ ∃ m : BusMove, m.quiet = true ∧ s'.rt = s.rt.step py m := by
  obtain ⟨s₁, s₂, s₃, hperforms, hlocal, hmoves, hlocal'⟩ := h
  have h₂ : s₂.rt = s.rt := by
    rw [hlocal.rt]
    rcases hperforms with rfl | ⟨_, _, _, rfl⟩ <;> rfl
  rcases hmoves with rfl | ⟨m, quiet, rfl⟩
  · exact .inl (hlocal'.rt.trans h₂)
  · exact .inr ⟨m, quiet, hlocal'.rt.trans (h₂ ▸ rfl)⟩

/-- To the bus, a step of the event loop is one of its moves, or none. -/
theorem LoopStep.busStep (h : LoopStep py engine s s') : BusStep py s s' := by
  rcases h.rt with hrt | ⟨m, quiet, hrt⟩
  · exact .inl hrt
  · exact .inr ⟨m, m.enabled_of_quiet quiet, hrt⟩

/-! ## The moves of `run` -/

/-- The phases that `run` goes through without doing anything else; `registered` are the hooks of
the run. -/
inductive Phase.Goes (scn : ScenarioSpec) (registered : List Nat) : Phase → Phase → Prop
  | armed : Goes scn registered (.arming []) (.subscribing scn.stopOn)
  | subscribed : Goes scn registered (.subscribing []) (.replaying scn.phones)
  | skip {phone rest} : Goes scn registered (.replaying (phone :: rest)) (.replaying rest)
  | replayed : Goes scn registered (.replaying []) .starting
  | await : Goes scn registered .beginning .awaiting
  | act {coro} : Goes scn registered .beginning (.acting (.ready coro))
  | unsubscribed {outcome} :
      Goes scn registered (.unsubscribing [] outcome) (.removing registered outcome)
  | removed {outcome} : Goes scn registered (.removing [] outcome) (.stopping outcome)

/-- Those that it goes through with one move of the bus. -/
inductive Phase.Moves (py : PyText) (rt : HookRuntime) : Phase → BusMove → Phase → Prop
  | arm {spec rest hook}
      (accepted : Hook.ofSpec py (py.uuid rt.hooks.length) spec "<scenario>".toList = .ok hook) :
      Moves py rt (.arming (spec :: rest)) (.arm spec "<scenario>".toList)
        (.assigning rt.hooks.length rest)
  | assign {h rest} : Moves py rt (.assigning h rest) (.assign h) (.arming rest)
  | unsubscribe {subId rest outcome} :
      Moves py rt (.unsubscribing (subId :: rest) outcome) (.unsubscribe subId)
        (.unsubscribing rest outcome)
  | remove {h rest outcome} :
      Moves py rt (.removing (h :: rest) outcome) (.remove h) (.removing rest outcome)

/-- Those that it goes through with an emit. -/
inductive Phase.Emits (scn : ScenarioSpec) : Option RegInfo → Phase → EventBody → Phase → Prop
  | replay {phone rest info} :
      Emits scn (some info) (.replaying (phone :: rest)) (replayEvent phone info) (.replaying rest)
  | start {info} :
      Emits scn info .starting
        (lifecycleEvent "scenario.started" [("name".toList, .str scn.name)]) .beginning
  | stop {info outcome} :
      Emits scn info (.stopping outcome) (lifecycleEvent "scenario.stopped" (outcomeData outcome))
        (.finishing outcome)

/-- What `run` does next when it holds the loop. -/
inductive NextMove (py : PyText) (engine : Bool) (scn : ScenarioSpec) (s : Run)
    (info : Option RegInfo) : Run → Prop
  | enter (phase : s.phase = .entering) :
      NextMove py engine scn s info
        { s.moveBus py engine (.subscribe [.str ['*']] .recorder false) with
          recorderSub := some s.rt.bus.ids
          timeline := s.timeline ++ [.metadata "scenario.started"
            [("name".toList, .str scn.name), ("phones".toList, .list scn.phones)] none]
          phase := .arming scn.hooks }
  | refuse {spec rest exn} (phase : s.phase = .arming (spec :: rest))
      (refused : Hook.ofSpec py (py.uuid s.rt.hooks.length) spec "<scenario>".toList = .error exn) :
      NextMove py engine scn s info
        { s with errors := s.errors ++ [("scenario_hooks", exn)], phase := .arming rest }
  | go {p p'} (phase : s.phase = p) (goes : Phase.Goes scn s.rt.registered p p') :
      NextMove py engine scn s info { s with phase := p' }
  | move {p p' m} (phase : s.phase = p) (moves : Phase.Moves py s.rt p m p') :
      NextMove py engine scn s info { s.moveBus py engine m with phase := p' }
  | emit {p p' body} (phase : s.phase = p) (emits : Phase.Emits scn info p body p') :
      NextMove py engine scn s info (s.emitThen py engine body p')
  | subscribe {spec rest} (phase : s.phase = .subscribing (spec :: rest)) :
      NextMove py engine scn s info (s.subscribeStop py engine spec rest)
  | leave (phase : s.phase = .awaiting) (result : s.stopFuture.result.isSome = true) :
      NextMove py engine scn s info (s.leave "ok" "stop_on matched".toList)
  | wait (phase : s.phase = .awaiting) :
      NextMove py engine scn s info { s with phase := .awaiting, current := none }
  | finish {outcome} (phase : s.phase = .finishing outcome) :
      NextMove py engine scn s info
        { s with
          timeline := s.timeline ++ [.metadata "scenario.stopped" (outcomeData outcome) none]
          phase := .detaching outcome }
  | detach {outcome subId} (phase : s.phase = .detaching outcome)
      (recorder : s.recorderSub = some subId) :
      NextMove py engine scn s info
        { s.moveBus py engine (.unsubscribe subId) with
          recorderSub := none, phase := .returning outcome }
  | detached {outcome} (phase : s.phase = .detaching outcome) (recorder : s.recorderSub = none) :
      NextMove py engine scn s info { s with phase := .returning outcome }
  | ret {outcome} (phase : s.phase = .returning outcome) :
      NextMove py engine scn s info
        { s with phase := .returned ⟨outcome, s.timeline, s.errors⟩, current := none }
  | idle (h : ∀ h rest, s.phase ≠ .assigning h rest) : NextMove py engine scn s info s

/-- What `run` does from each of its phases, up to its next await. -/
theorem runNext_spec (s : Run) (info : Option RegInfo) :
    NextMove py engine scenario s info (s.runNext py engine scenario info) := by
  cases hphase : s.phase with
  | entering =>
      simp only [runNext, hphase]
      exact .enter hphase
  | arming rest =>
      cases rest with
      | nil =>
          simp only [runNext, hphase]
          exact .go hphase .armed
      | cons spec rest =>
          simp only [runNext, hphase]
          split
          · next refused => exact .refuse hphase refused
          · next accepted => exact .move hphase (.arm accepted)
  | assigning h rest =>
      simp only [runNext, hphase]
      exact .move hphase .assign
  | subscribing rest =>
      cases rest with
      | nil =>
          simp only [runNext, hphase]
          exact .go hphase .subscribed
      | cons spec rest =>
          simp only [runNext, hphase]
          exact .subscribe hphase
  | replaying rest =>
      cases rest with
      | nil =>
          simp only [runNext, hphase]
          exact .go hphase .replayed
      | cons phone rest =>
          cases info with
          | none =>
              simp only [runNext, hphase]
              exact .go hphase .skip
          | some info =>
              simp only [runNext, hphase]
              exact .emit hphase .replay
  | starting =>
      simp only [runNext, hphase]
      exact .emit hphase .start
  | beginning =>
      simp only [runNext, hphase]
      split_ifs
      · exact .go hphase .await
      · exact .go hphase .act
  | awaiting =>
      simp only [runNext, hphase]
      split_ifs with hresult
      · exact .leave hphase hresult.2
      · exact .wait hphase
  | unsubscribing rest outcome =>
      cases rest with
      | nil =>
          simp only [runNext, hphase]
          exact .go hphase .unsubscribed
      | cons subId rest =>
          simp only [runNext, hphase]
          exact .move hphase .unsubscribe
  | removing rest outcome =>
      cases rest with
      | nil =>
          simp only [runNext, hphase]
          exact .go hphase .removed
      | cons h rest =>
          simp only [runNext, hphase]
          exact .move hphase .remove
  | stopping outcome =>
      simp only [runNext, hphase]
      exact .emit hphase .stop
  | finishing outcome =>
      simp only [runNext, hphase]
      exact .finish hphase
  | detaching outcome =>
      simp only [runNext, hphase]
      split
      · next recorder => exact .detach hphase recorder
      · next recorder => exact .detached hphase recorder
  | returning outcome =>
      simp only [runNext, hphase]
      exact .ret hphase
  | acting | returned | raised =>
      simp only [runNext, hphase]
      exact .idle (by simp [hphase])

/-! ## What they change -/

/-- Changes of `run` outside of its phase that the bus does not see. -/
structure Plain (s s' : Run) : Prop where
  rt : s'.rt = s.rt
  runs : s'.runs = s.runs
  performed : s'.performed = s.performed
  timeline : s.timeline ⊆ s'.timeline
  setUp : s'.setUp = s.setUp

/-- What the next move of `run` can do. -/
inductive RunStep (py : PyText) (engine : Bool) (scn : ScenarioSpec) (s : Run) : Run → Prop
  | plain {s' : Run} (same : Plain s s') (next : Phase.Next scn s.phase s'.phase) :
      RunStep py engine scn s s'
  | bus {s' : Run} (m : BusMove) (quiet : m.quiet = true) (same : Plain (s.moveBus py engine m) s')
      (next : Phase.Next scn s.phase s'.phase) : RunStep py engine scn s s'
  | refuse {spec rest exn} (phase : s.phase = .arming (spec :: rest))
      (refused : Hook.ofSpec py (py.uuid s.rt.hooks.length) spec "<scenario>".toList = .error exn) :
      RunStep py engine scn s
        { s with errors := s.errors ++ [("scenario_hooks", exn)], phase := .arming rest }
  | arm {spec rest hook} (phase : s.phase = .arming (spec :: rest))
      (accepted : Hook.ofSpec py (py.uuid s.rt.hooks.length) spec "<scenario>".toList = .ok hook) :
      RunStep py engine scn s
        { s.moveBus py engine (.arm spec "<scenario>".toList) with
          phase := .assigning s.rt.hooks.length rest }
  | assign {h rest} (phase : s.phase = .assigning h rest) :
      RunStep py engine scn s
        { s.moveBus py engine (.assign h) with phase := .arming rest }
  | subscribe {spec rest patterns} (phase : s.phase = .subscribing (spec :: rest)) :
      RunStep py engine scn s
        { s.moveBus py engine (.subscribe patterns (.stop spec) false) with
          stopSubs := s.stopSubs ++ [s.rt.bus.ids]
          phase := .subscribing rest }
  | beginRemoving {outcome} (phase : s.phase = .unsubscribing [] outcome) :
      RunStep py engine scn s { s with phase := .removing s.rt.registered outcome }
  | remove {h rest outcome} (phase : s.phase = .removing (h :: rest) outcome) :
      RunStep py engine scn s
        { s.moveBus py engine (.remove h) with phase := .removing rest outcome }

theorem Plain.of_fields (hrt : s'.rt = s.rt) (hruns : s'.runs = s.runs)
    (hperformed : s'.performed = s.performed) (htimeline : s'.timeline = s.timeline)
    (hsetUp : s'.setUp = s.setUp) : Plain s s' :=
  ⟨hrt, hruns, hperformed, fun _ hrow => htimeline ▸ hrow, hsetUp⟩

/-- A phase that is only passed on. -/
theorem Phase.Goes.next {registered : List Nat} {p p' : Phase}
    (goes : Phase.Goes scenario registered p p') (h : ∀ outcome, p ≠ .unsubscribing [] outcome) :
    Phase.Next scenario p p' := by
  cases goes with
  | armed => exact .armed
  | subscribed => exact .subscribed
  | skip => exact .replay
  | replayed => exact .replayed
  | await => exact .await
  | act => exact .act
  | unsubscribed => exact (h _ rfl).elim
  | removed => exact .removed

/-- A phase that emits goes on to the next one, or raises. -/
theorem Phase.Emits.next {info : Option RegInfo} {p p' : Phase} {body : EventBody}
    (emits : Phase.Emits scenario info p body p') :
    Phase.Next scenario p p' ∧ Phase.Next scenario p (.raised .builtin) := by
  cases emits with
  | replay => exact ⟨.replay, .raiseReplaying⟩
  | start => exact ⟨.start, .raiseStarting⟩
  | stop => exact ⟨.stop, .raiseStopping⟩

/-- `run` emits and goes on. -/
theorem runStep_emitThen {body : EventBody} {phase : Phase}
    (next : Phase.Next scenario s.phase phase)
    (raised : Phase.Next scenario s.phase (.raised .builtin)) :
    RunStep py engine scenario s (s.emitThen py engine body phase) := by
  simp only [Run.emitThen, Run.emitOnLoop]
  cases s.rt.bus.snapshot body with
  | none => exact .plain (.of_fields rfl rfl rfl rfl rfl) raised
  | some found => exact .bus (.emit (s.stamped py body)) rfl (.of_fields rfl rfl rfl rfl rfl) next

/-- `run` subscribes to the next stop condition. -/
theorem runStep_subscribeStop {spec : Dict} {rest : List Dict}
    (hphase : s.phase = .subscribing (spec :: rest)) :
    RunStep py engine scenario s (s.subscribeStop py engine spec rest) := by
  simp only [Run.subscribeStop]
  split
  · exact .plain (.of_fields rfl rfl rfl rfl rfl) (hphase ▸ .skip)
  · split
    · exact .subscribe hphase
    · exact .plain (.of_fields rfl rfl rfl rfl rfl) (hphase ▸ .raiseSubscribing)

/-- The moves of `run` are steps of the run. -/
theorem NextMove.runStep {info : Option RegInfo} (h : NextMove py engine scenario s info s') :
    RunStep py engine scenario s s' := by
  cases h with
  | enter phase =>
      refine .bus (.subscribe [.str ['*']] .recorder false) rfl ?_ (phase ▸ .enter)
      exact ⟨rfl, rfl, rfl, List.subset_append_left _ _, rfl⟩
  | refuse phase refused => exact .refuse phase refused
  | @go p p' phase goes =>
      by_cases hstops : ∃ outcome, p = .unsubscribing [] outcome
      · obtain ⟨outcome, rfl⟩ := hstops
        cases goes
        exact .beginRemoving phase
      · exact .plain (.of_fields rfl rfl rfl rfl rfl)
          (phase ▸ goes.next fun outcome heq => hstops ⟨outcome, heq⟩)
  | move phase moves =>
      cases moves with
      | arm accepted => exact .arm phase accepted
      | assign => exact .assign phase
      | @unsubscribe subId =>
          exact .bus (.unsubscribe subId) rfl (.of_fields rfl rfl rfl rfl rfl)
            (phase ▸ .unsubscribe)
      | remove => exact .remove phase
  | emit phase emits => exact runStep_emitThen (phase ▸ emits.next.1) (phase ▸ emits.next.2)
  | subscribe phase => exact runStep_subscribeStop phase
  | leave phase => exact .plain (.of_fields rfl rfl rfl rfl rfl) (phase ▸ .leave)
  | wait phase =>
      refine .plain (.of_fields rfl rfl rfl rfl rfl) ?_
      rw [phase]
      exact .stay (by simp)
  | finish phase =>
      refine .plain ?_ (phase ▸ .finish)
      exact ⟨rfl, rfl, rfl, List.subset_append_left _ _, rfl⟩
  | @detach outcome subId phase =>
      refine .bus (.unsubscribe subId) rfl ?_ (phase ▸ .detach)
      exact .of_fields rfl rfl rfl rfl rfl
  | detached phase => exact .plain (.of_fields rfl rfl rfl rfl rfl) (phase ▸ .detach)
  | ret phase => exact .plain (.of_fields rfl rfl rfl rfl rfl) (phase ▸ .ret)
  | idle h => exact .plain (.of_fields rfl rfl rfl rfl rfl) (.stay h)

theorem runNext_cases (info : Option RegInfo) :
    RunStep py engine scenario s (s.runNext py engine scenario info) :=
  (s.runNext_spec info).runStep

theorem RunStep.busStep (h : RunStep py engine scenario s s') : BusStep py s s' := by
  cases h with
  | plain same => exact .inl same.rt
  | bus m quiet same => exact .inr ⟨m, m.enabled_of_quiet quiet, same.rt⟩
  | refuse | beginRemoving => exact .inl rfl
  | @arm spec => exact .inr ⟨.arm spec "<scenario>".toList, rfl, rfl⟩
  | @assign h => exact .inr ⟨.assign h, rfl, rfl⟩
  | @subscribe spec rest patterns =>
      exact .inr ⟨.subscribe patterns (.stop spec) false, rfl, rfl⟩
  | @remove h => exact .inr ⟨.remove h, rfl, rfl⟩

/-! ## What has been performed -/

/-- What has been performed stays performed. -/
theorem LoopStep.performed (h : LoopStep py engine s s') : s.performed ⊆ s'.performed := by
  obtain ⟨s₁, s₂, s₃, hperforms, hlocal, hmoves, hlocal'⟩ := h
  have h₁ : s.performed ⊆ s₁.performed := by
    rcases hperforms with rfl | ⟨t, op, -, rfl⟩
    · exact List.Subset.refl _
    · exact List.subset_append_left _ _
  have h₃ : s₃.performed = s₂.performed := by
    rcases hmoves with rfl | ⟨m, -, rfl⟩ <;> rfl
  rw [hlocal'.performed, h₃, hlocal.performed]
  exact h₁

theorem RunStep.performed (h : RunStep py engine scenario s s') : s'.performed = s.performed := by
  cases h with
  | plain same => exact same.performed
  | bus m quiet same => exact same.performed
  | _ => rfl

/-- What has been performed stays performed, whatever the step. -/
theorem step_performed {a : Move} (en : s.enabled a = true) :
    s.performed ⊆ (s.step py engine scenario a).performed := by
  rcases step_cases en with hloop | ⟨info, -, hnext⟩
  · exact LoopStep.performed hloop
  · rw [hnext, (runNext_cases info).performed]
    exact List.Subset.refl _

/-- The bus and the hooks of a scenario run go through a run of the hook system. -/
theorem reachable_rt (run : (scenarioSystem py engine scenario).Reachable s) :
    (hookSystem py).Reachable s.rt := by
  refine run.invariant (P := fun s => (hookSystem py).Reachable s.rt) .init ?_
  intro s a en _ ih
  have hstep : BusStep py s (s.step py engine scenario a) := by
    rcases step_cases en with hloop | ⟨info, _, hnext⟩
    · exact LoopStep.busStep hloop
    · exact hnext ▸ (runNext_cases info).busStep
  rcases hstep with hsame | ⟨m, hm, hmove⟩
  · exact hsame.symm ▸ ih
  · exact hmove.symm ▸ ih.step hm trivial

end Run

end PjsuaMcp.Scenario
