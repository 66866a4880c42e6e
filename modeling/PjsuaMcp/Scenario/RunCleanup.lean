import PjsuaMcp.Scenario.StopHandlers

/-!
# What a run leaves on the bus

Every subscription that a run makes is kept somewhere: the recorder's in
`recorderSub`, those of the stop conditions in `stopSubs`, that of a `wait_for` in
the coroutine that waits, those of the hooks in the hooks. A run that returns has
given back all of them but those of the coroutines that still wait, and it has
never taken away a subscription of anyone else.
-/

namespace PjsuaMcp.Scenario

open Library

/-! ## Who keeps which subscription -/

/-- The recorder has been stopped. -/
def Phase.isDetached : Phase → Bool
  | returning _ | returned _ => true
  | _ => false

/-- The ids of the stop conditions that `run` has still to give back. -/
def Phase.stopIds (stopSubs : List Nat) : Phase → List Nat
  | unsubscribing rest _ => rest
  | removing .. | stopping _ | finishing _ | detaching _ | returning _ | returned _ => []
  | _ => stopSubs

/-- `run` neither runs a coroutine nor goes through the stop conditions. -/
def Phase.isPlain : Phase → Bool
  | acting _ | unsubscribing .. => false
  | _ => true

/-- A subscription of another user that stays until its owner takes it away. -/
def Subscription.Lasting (sub : Subscription) : Prop :=
  sub.callback = .foreign ∧ sub.once = false

/-- The id is used up, and no lasting subscription of another user has it. -/
def EventBus.Foregoes (bus : EventBus) (id : Nat) : Prop :=
  id < bus.ids ∧ ∀ sub, bus.subs.get? id = some sub → ¬sub.Lasting

namespace Run

variable {py : PyText} {engine : Bool} {scn : ScenarioSpec} {s s' s'' : Run}

/-- The coroutine waits under the id. -/
def Waits (s : Run) (t : Task) (id : Nat) : Prop :=
  ∃ future k, s.task? t = some (.waiting id future k)

/-- The run keeps the id of a subscription that calls `callback`. Hooks are not looked at here. -/
def HeldFor (s : Run) (id : Nat) : Callback → Prop
  | .recorder => s.recorderSub = some id ∧ s.phase.isDetached = false
  | .stop _ => id ∈ s.phase.stopIds s.stopSubs
  | .waiter t subId _ => subId = id ∧ s.Waits t id
  | .hook _ | .foreign => True

/-- The ids that the run may give back to the bus, besides those of its hooks. -/
def Gives (s : Run) (id : Nat) : Prop := s.Releases id ∨ s.recorderSub = some id

/-- Every subscription of the run is kept by it, and it keeps no id of another user. -/
structure Accounted (s : Run) : Prop where
  keyed : ∀ id sub, s.rt.bus.subs.get? id = some sub → sub.subId = id ∧ id < s.rt.bus.ids
  held : ∀ id sub, s.rt.bus.subs.get? id = some sub → s.HeldFor id sub.callback
  apart : ∀ id, s.Gives id → s.rt.bus.Foregoes id
  spared : ∀ id, s.rt.Releases id → s.rt.bus.Foregoes id

/-- Neither the bus nor what the run keeps changes. -/
structure Keeps (s s' : Run) : Prop where
  rt : s'.rt = s.rt
  holds : ∀ id callback, s.HeldFor id callback → s'.HeldFor id callback
  gives : ∀ id, s'.Gives id → s.Gives id

/-- How the subscriptions change hands in a move; other users take back the ids in `taken`. -/
inductive HandOver (py : PyText) (taken : Nat → Prop) (s s' : Run) : Prop
  | still (keeps : s.Keeps s')
  | move (m : BusMove) (rt : s'.rt = s.rt.step py m)
      (new : ∀ patterns callback once, m = .subscribe patterns callback once →
        s'.HeldFor s.rt.bus.ids callback)
      (holds : ∀ id callback, m ≠ .unsubscribe id → s.HeldFor id callback → s'.HeldFor id callback)
      (gives : ∀ id, s'.Gives id → s.Gives id ∨
        id = s.rt.bus.ids ∧ ∃ patterns callback once,
          m = .subscribe patterns callback once ∧ callback ≠ .foreign)
      (back : ∀ id, m = .unsubscribe id → s.Gives id ∨ taken id)

end Run

/-! ## The bus -/

namespace EventBus

variable {bus : EventBus} {id : Nat}

theorem Foregoes.without (h : bus.Foregoes id) (q : Nat → Bool) : (bus.without q).Foregoes id :=
  ⟨h.1, fun sub hget => h.2 sub (get?_without hget).1⟩

theorem Foregoes.subscribe (h : bus.Foregoes id) (patterns : List Value) (callback : Callback)
    (once : Bool) : (bus.subscribe patterns callback once).Foregoes id := by
  refine ⟨Nat.lt_succ_of_lt h.1, fun sub hget => ?_⟩
  rcases get?_subscribe hget with ⟨rfl, -⟩ | hget
  · exact (Nat.lt_irrefl _ h.1).elim
  · exact h.2 sub hget

theorem Foregoes.step {rt : HookRuntime} (h : rt.bus.Foregoes id) (py : PyText) (m : BusMove) :
    (rt.step py m).bus.Foregoes id := by
  rcases step_bus py rt m with ⟨q, hbus, -⟩ | ⟨patterns, callback, once, hbus, -⟩ <;> rw [hbus]
  · exact h.without q
  · exact h.subscribe patterns callback once

theorem foregoes_new (patterns : List Value) {callback : Callback} (once : Bool)
    (hkeys : ∀ id sub, bus.subs.get? id = some sub → id < bus.ids) (h : callback ≠ .foreign) :
    (bus.subscribe patterns callback once).Foregoes bus.ids := by
  refine ⟨Nat.lt_succ_self _, fun sub hget hlasting => ?_⟩
  rcases get?_subscribe hget with ⟨-, hcallback⟩ | hget
  · exact h (hcallback ▸ hlasting.1)
  · exact Nat.lt_irrefl _ (hkeys _ sub hget)

end EventBus

/-- What hooks and emissions give back after a move is no lasting subscription of another user. -/
theorem HookRuntime.spared_step {rt : HookRuntime} {py : PyText} (m : BusMove)
    (keyed : ∀ id sub, rt.bus.subs.get? id = some sub → sub.subId = id ∧ id < rt.bus.ids)
    (spared : ∀ id, rt.Releases id → rt.bus.Foregoes id) (id : Nat)
    (h : (rt.step py m).Releases id) : (rt.step py m).bus.Foregoes id := by
  rcases releases_step h with h | ⟨rfl, patterns, k, hbus⟩ | ⟨k, sub, hget, honce, rfl⟩
  · exact (spared id h).step py m
  · rw [hbus]
    refine EventBus.foregoes_new patterns false (fun id sub hget => (keyed id sub hget).2) ?_
    intro h
    cases h
  · refine EventBus.Foregoes.step ?_ py m
    obtain ⟨hkey, hlt⟩ := keyed k sub hget
    rw [hkey]
    refine ⟨hlt, fun sub' hget' hlasting => ?_⟩
    rw [hget] at hget'
    cases hget'
    rw [hlasting.2] at honce
    cases honce

/-- Subscriptions are filed under their own ids. -/
theorem HookRuntime.keyed_step {rt : HookRuntime} (py : PyText) (m : BusMove)
    (keyed : ∀ id sub, rt.bus.subs.get? id = some sub → sub.subId = id ∧ id < rt.bus.ids)
    (id : Nat) (sub : Subscription) (hget : (rt.step py m).bus.subs.get? id = some sub) :
    sub.subId = id ∧ id < (rt.step py m).bus.ids := by
  rcases EventBus.step_bus py rt m with ⟨q, hbus, -⟩ | ⟨patterns, callback, once, hbus, -⟩ <;>
    rw [hbus] at hget ⊢
  · exact keyed id sub (EventBus.get?_without hget).1
  · rw [EventBus.subscribe, OrderedDict.get?_set] at hget
    split_ifs at hget with hid
    · cases hget
      exact ⟨hid, hid ▸ Nat.lt_succ_self _⟩
    · obtain ⟨hkey, hlt⟩ := keyed id sub hget
      exact ⟨hkey, Nat.lt_succ_of_lt hlt⟩

namespace Run

variable {py : PyText} {engine : Bool} {scn : ScenarioSpec} {taken : Nat → Prop} {s s' s'' : Run}

/-- A step that hands every subscription over keeps them accounted for. -/
theorem Accounted.handOver (acc : s.Accounted) (h : HandOver py taken s s') : s'.Accounted := by
  cases h with
  | still keeps =>
      refine ⟨?_, fun id sub hget => ?_, fun id h => ?_, ?_⟩
      · rw [keeps.rt]
        exact acc.keyed
      · exact keeps.holds id _ (acc.held id sub (keeps.rt ▸ hget))
      · rw [keeps.rt]
        exact acc.apart id (keeps.gives id h)
      · rw [keeps.rt]
        exact acc.spared
  | move m rt new holds gives _ =>
      refine ⟨?_, fun id sub hget => ?_, fun id h => ?_, ?_⟩
      · rw [rt]
        exact HookRuntime.keyed_step py m acc.keyed
      · rw [rt] at hget
        have hkept : m ≠ .unsubscribe id := by
          rintro rfl
          exact (EventBus.get?_unsubscribe hget).1 rfl
        rcases EventBus.step_bus py s.rt m with
          ⟨q, hbus, -⟩ | ⟨patterns, callback, once, hbus, hwho⟩
        · rw [hbus] at hget
          exact holds id _ hkept (acc.held id sub (EventBus.get?_without hget).1)
        · rw [hbus] at hget
          rcases EventBus.get?_subscribe hget with ⟨rfl, hcallback⟩ | hget
          · rw [hcallback]
            rcases hwho with hm | ⟨k, rfl⟩
            · exact new patterns callback once hm
            · trivial
          · exact holds id _ hkept (acc.held id sub hget)
      · rw [rt]
        rcases gives id h with h | ⟨rfl, patterns, callback, once, rfl, hother⟩
        · exact (acc.apart id h).step py m
        · exact EventBus.foregoes_new patterns once (fun id sub hget => (acc.keyed id sub hget).2)
            hother
      · rw [rt]
        exact HookRuntime.spared_step m acc.keyed acc.spared

/-! ## Small changes -/

theorem Keeps.refl (s : Run) : s.Keeps s := ⟨rfl, fun _ _ h => h, fun _ h => h⟩

theorem Keeps.trans (h : s.Keeps s') (h' : s'.Keeps s'') : s.Keeps s'' where
  rt := h'.rt.trans h.rt
  holds id callback held := h'.holds id callback (h.holds id callback held)
  gives id given := h.gives id (h'.gives id given)

theorem HandOver.refl (s : Run) : HandOver py taken s s := .still (.refl s)

theorem Keeps.handOver (h : s.Keeps s') (h' : HandOver py taken s' s'') :
    HandOver py taken s s'' := by
  cases h' with
  | still keeps => exact .still (h.trans keeps)
  | move m rt new holds gives back =>
      refine .move m (h.rt ▸ rt) (h.rt ▸ new)
        (fun id callback hm held => holds id callback hm (h.holds id callback held))
        (fun id given => ?_) fun id hm => (back id hm).imp_left (h.gives id)
      rw [← h.rt]
      exact (gives id given).imp_left (h.gives id)

/-- A hand-over, and a step that keeps what is held. -/
theorem HandOver.keeps (h : HandOver py taken s s') (h' : s'.Keeps s'') :
    HandOver py taken s s'' := by
  cases h with
  | still keeps => exact .still (keeps.trans h')
  | move m rt new holds gives back =>
      exact .move m (h'.rt.trans rt) (fun patterns callback once hm =>
        h'.holds _ _ (new patterns callback once hm))
        (fun id callback hm held => h'.holds id callback (holds id callback hm held))
        (fun id given => gives id (h'.gives id given)) back

/-- What the run keeps depends on its coroutines, its phase and its two lists of ids. -/
theorem HeldFor.congr {id : Nat} {callback : Callback} (h : s.HeldFor id callback)
    (hruns : s'.runs = s.runs) (hphase : s'.phase = s.phase)
    (hstop : s'.stopSubs = s.stopSubs) (hrec : s'.recorderSub = s.recorderSub) :
    s'.HeldFor id callback := by
  have htask : ∀ t, s'.task? t = s.task? t := by
    intro t
    cases t with
    | run => rw [task?, task?, hphase]
    | hookRun n => rw [task?, task?, hruns]
  cases callback with
  | recorder => rwa [HeldFor, hrec, hphase]
  | stop spec => rwa [HeldFor, hphase, hstop]
  | waiter t subId phone => rwa [HeldFor, Waits, htask]
  | hook | foreign => trivial

/-- What a step has to give back is in these fields. -/
theorem Gives.congr {id : Nat} (h : s'.Gives id) (hruns : s'.runs = s.runs)
    (hphase : s'.phase = s.phase) (hstop : s'.stopSubs = s.stopSubs)
    (hrec : s'.recorderSub = s.recorderSub) : s.Gives id := by
  rcases h with h | h
  · exact .inl (h.congr hruns hphase hstop)
  · exact .inr (hrec ▸ h)

/-- Updates of fields that hold no ids. -/
theorem Keeps.of_fields (hrt : s'.rt = s.rt) (hruns : s'.runs = s.runs)
    (hphase : s'.phase = s.phase) (hstop : s'.stopSubs = s.stopSubs)
    (hrec : s'.recorderSub = s.recorderSub) : s.Keeps s' :=
  ⟨hrt, fun _ _ h => h.congr hruns hphase hstop hrec, fun _ h => h.congr hruns hphase hstop hrec⟩

/-- The state of one task is replaced. -/
theorem task?_setTask {t : Task} {old : TaskState} (hold : s.task? t = some old)
    (state : TaskState) (t' : Task) :
    (s.setTask t state).task? t' = if t' = t then some state else s.task? t' := by
  cases t with
  | run =>
      cases t' with
      | run => rfl
      | hookRun n => rfl
  | hookRun n =>
      have hn : s.runs[n]? = some old := hold
      have hlt := (List.getElem?_eq_some_iff.mp hn).1
      cases t' with
      | run => rfl
      | hookRun k =>
          simp only [task?, setTask, List.getElem?_set, Task.hookRun.injEq, eq_comm (a := k),
            hlt, if_true]

theorem Waits.setTask {t t' : Task} {old state : TaskState} {id : Nat} (h : s.Waits t' id)
    (hold : s.task? t = some old)
    (hkeep : ∀ future k, old = .waiting id future k → ∃ future k, state = .waiting id future k) :
    (s.setTask t state).Waits t' id := by
  obtain ⟨future, k, ht'⟩ := h
  rw [Waits, task?_setTask hold]
  split_ifs with heq
  · rw [heq, hold, Option.some.injEq] at ht'
    obtain ⟨future, k, hstate⟩ := hkeep future k ht'
    exact ⟨future, k, congrArg some hstate⟩
  · exact ⟨future, k, ht'⟩

theorem HeldFor.setTask {t : Task} {old state : TaskState} {id : Nat} {callback : Callback}
    (h : s.HeldFor id callback) (hold : s.task? t = some old)
    (hkeep : ∀ future k, old = .waiting id future k → ∃ future k, state = .waiting id future k) :
    (s.setTask t state).HeldFor id callback := by
  have hphase : (s.setTask t state).phase.isDetached = s.phase.isDetached ∧
      (s.setTask t state).phase.stopIds s.stopSubs = s.phase.stopIds s.stopSubs := by
    cases t with
    | hookRun n => exact ⟨rfl, rfl⟩
    | run =>
        rw [task?_run_some hold]
        exact ⟨rfl, rfl⟩
  have hsubs : (s.setTask t state).recorderSub = s.recorderSub ∧
      (s.setTask t state).stopSubs = s.stopSubs := by
    cases t <;> exact ⟨rfl, rfl⟩
  cases callback with
  | recorder => rwa [HeldFor, hsubs.1, hphase.1]
  | stop spec => rwa [HeldFor, hsubs.2, hphase.2]
  | waiter t' subId phone => exact ⟨h.1, h.2.setTask hold hkeep⟩
  | hook | foreign => trivial

/-- A task in a new state may give back what it waits under, and nothing else that is new. -/
theorem Gives.of_setTask {t : Task} {old state : TaskState} {id : Nat}
    (h : (s.setTask t state).Gives id) (hold : s.task? t = some old) :
    s.Gives id ∨ ∃ future k, state = .waiting id future k := by
  rcases h with h | h
  · cases h with
    | waiting h => exact (waitsUnder_setTask hold h).imp_left fun h => .inl (.waiting h)
    | stop h => cases t <;> exact .inl (.inl (.stop h))
    | unsubscribing h hid =>
        cases t with
        | hookRun n => exact .inl (.inl (.unsubscribing h hid))
        | run => cases h
  · cases t <;> exact .inl (.inr h)

/-- A coroutine goes on to a state in which it waits under the same ids. -/
theorem Keeps.setTask {t : Task} {old state : TaskState} (hold : s.task? t = some old)
    (hkeep : ∀ id, (∃ future k, old = .waiting id future k) ↔
      ∃ future k, state = .waiting id future k) : s.Keeps (s.setTask t state) := by
  refine ⟨by cases t <;> rfl, fun id callback h => ?_, fun id h => ?_⟩
  · exact h.setTask hold fun future k hwaiting => (hkeep id).mp ⟨future, k, hwaiting⟩
  · rcases h.of_setTask hold with h | hwaiting
    · exact h
    · obtain ⟨future, k, hold'⟩ := (hkeep id).mpr hwaiting
      exact .inl (.waiting ⟨t, future, k, hold.trans (congrArg some hold')⟩)

theorem HeldFor.moveBus {id : Nat} {callback : Callback} (h : s.HeldFor id callback) (m : BusMove) :
    (s.moveBus py engine m).HeldFor id callback := by
  cases callback with
  | recorder | stop => exact h
  | waiter t subId phone =>
      obtain ⟨hid, future, k, ht⟩ := h
      exact ⟨hid, future, k, task?_moveBus ht m⟩
  | hook | foreign => trivial

theorem Gives.of_moveBus {id : Nat} {m : BusMove} (h : (s.moveBus py engine m).Gives id) :
    s.Gives id := by
  rcases h with h | h
  · cases h with
    | waiting h => exact .inl (.waiting (waitsUnder_moveBus h))
    | stop h => exact .inl (.stop h)
    | unsubscribing h hid => exact .inl (.unsubscribing h hid)
  · exact .inr h

/-- A move of the bus that subscribes and gives back nothing for the run. -/
theorem HandOver.moveBus (s : Run) (m : BusMove) (new : ∀ patterns callback once,
    m = .subscribe patterns callback once → s.HeldFor s.rt.bus.ids callback)
    (back : ∀ id, m = .unsubscribe id → taken id) :
    HandOver py taken s (s.moveBus py engine m) :=
  .move m rfl (fun patterns callback once hm => (new patterns callback once hm).moveBus m)
    (fun _ _ _ h => h.moveBus m) (fun _ h => .inl h.of_moveBus) fun id hm => .inr (back id hm)

/-! ## Emits and coroutines -/

/-- A callback takes no subscription. -/
theorem Keeps.deliver (s : Run) (callback : Callback) (ev : Event) :
    s.Keeps (s.deliver py callback ev) := by
  cases callback with
  | recorder => exact .of_fields rfl rfl rfl rfl rfl
  | stop spec =>
      simp only [Run.deliver]
      split
      · exact .of_fields rfl rfl rfl rfl rfl
      · exact .refl s
  | waiter t handlerId phone =>
      simp only [Run.deliver]
      split
      next subId future k ht =>
        split
        · exact .setTask ht fun id => by simp
        · exact .refl s
      next => exact .refl s
  | hook | foreign => exact .refl s

/-- An emission may drop a subscription that is made once. -/
theorem handOver_advance (s : Run) (i : Nat) : HandOver py taken s (s.advance py engine i) := by
  have hdone : ∀ s₁ : Run, s.Keeps s₁ → HandOver py taken s
      (if (s₁.moveBus py engine (.advance i)).loopEmit = some i ∧
          ((s₁.moveBus py engine (.advance i)).rt.emissions[i]?).any Emission.finished = true then
        { s₁.moveBus py engine (.advance i) with loopEmit := none }
      else s₁.moveBus py engine (.advance i)) := by
    intro s₁ keeps
    have hmove : HandOver py taken s₁ (s₁.moveBus py engine (.advance i)) :=
      .moveBus s₁ (.advance i) (fun _ _ _ h => by cases h) fun _ h => by cases h
    split
    · exact keeps.handOver (hmove.keeps (.of_fields rfl rfl rfl rfl rfl))
    · exact keeps.handOver hmove
  unfold Run.advance
  cases hcall : s.rt.called i with
  | none => exact hdone s (.refl s)
  | some called => exact hdone _ (.deliver s called.1 called.2)

/-- The phase goes on, and what `run` keeps of its own stays kept. -/
theorem Keeps.of_phase (hrt : s'.rt = s.rt) (hruns : s'.runs = s.runs)
    (hstop : s'.stopSubs = s.stopSubs) (hrec : s'.recorderSub = s.recorderSub)
    (hdetached : s.phase.isDetached = false → s'.phase.isDetached = false)
    (hstops : ∀ id ∈ s.phase.stopIds s.stopSubs, id ∈ s'.phase.stopIds s.stopSubs)
    (hacting : ∀ id, ¬s.Waits .run id) (hacting' : ∀ id, ¬s'.Waits .run id)
    (hids : ∀ id rest outcome, s'.phase = .unsubscribing rest outcome → id ∈ rest →
      s.Gives id) : s.Keeps s' where
  rt := hrt
  holds id callback h := by
    cases callback with
    | recorder => exact ⟨hrec ▸ h.1, hdetached h.2⟩
    | stop spec =>
        rw [HeldFor, hstop]
        exact hstops id h
    | waiter t subId phone =>
        obtain ⟨hid, hwaits⟩ := h
        cases t with
        | run => exact (hacting id hwaits).elim
        | hookRun n =>
            rw [Waits, task?, ← hruns] at hwaits
            exact ⟨hid, hwaits⟩
    | hook | foreign => trivial
  gives id h := by
    rcases h with h | h
    · cases h with
      | waiting h =>
          obtain ⟨t, future, k, ht⟩ := h
          cases t with
          | run => exact (hacting' id ⟨future, k, ht⟩).elim
          | hookRun n =>
              rw [task?, hruns] at ht
              exact .inl (.waiting ⟨.hookRun n, future, k, ht⟩)
      | stop h => exact .inl (.stop (hstop ▸ h))
      | unsubscribing h hid => exact hids id _ _ h hid
    · exact .inr (hrec ▸ h)

theorem not_waits_of_task? {state : TaskState} (ht : s.task? .run = some state)
    (hstate : ∀ id future k, state ≠ .waiting id future k) (id : Nat) : ¬s.Waits .run id := by
  rintro ⟨future, k, hwaiting⟩
  rw [ht, Option.some.injEq] at hwaiting
  exact hstate id future k hwaiting

theorem not_waits_of_phase (hphase : ∀ state, s.phase ≠ .acting state) (id : Nat) :
    ¬s.Waits .run id := by
  rintro ⟨future, k, hwaiting⟩
  exact hphase _ (task?_run_some hwaiting)

/-- A task that ends was waiting for nothing. -/
theorem Keeps.finish {t : Task} {c : Coro Unit} (ht : s.task? t = some (.ready c))
    (failure : Option Exn) : s.Keeps (s.finish t failure) := by
  cases t with
  | hookRun n =>
      exact (Keeps.setTask ht fun id => by simp).trans (.of_fields rfl rfl rfl rfl rfl)
  | run =>
      have hphase := task?_run_some ht
      have hawait : s.Keeps { s with phase := .awaiting } :=
        .of_phase rfl rfl rfl rfl (fun _ => rfl) (fun id h => by rwa [hphase] at h)
          (not_waits_of_task? ht fun _ _ _ h => by cases h)
          (not_waits_of_phase fun _ h => by cases h) fun _ _ _ h => by cases h
      cases failure with
      | none => exact hawait
      | some exn => exact hawait.trans (.of_fields rfl rfl rfl rfl rfl)

theorem Keeps.perform (s : Run) (t : Task) (op : Op) : s.Keeps (s.perform t op) :=
  .of_fields rfl rfl rfl rfl rfl

/-- The coroutine goes on to a state in which it does not wait. -/
theorem Keeps.setTask_busy {t : Task} {c : Coro Unit} (ht : s.task? t = some (.ready c))
    {state : TaskState} (hstate : ∀ id future k, state ≠ .waiting id future k) :
    s.Keeps (s.setTask t state) := by
  refine .setTask ht fun id => iff_of_false ?_ ?_
  · rintro ⟨future, k, h⟩
    cases h
  · rintro ⟨future, k, h⟩
    exact hstate id future k h

theorem Keeps.withCurrent (h : s.Keeps s') (current : Option Task) :
    s.Keeps { s' with current := current } := h.trans (.of_fields rfl rfl rfl rfl rfl)

/-- A `wait_for` subscribes, and its coroutine keeps the id. -/
theorem handOver_wait (engine : Bool) {t : Task} {old : TaskState} (ht : s.task? t = some old)
    (hold : ∀ id future k, old ≠ .waiting id future k) (patterns : List Value) (phone : Value)
    (k : Except Exn Value → Coro Unit) :
    HandOver py taken s ((s.moveBus py engine (.subscribe patterns (.waiter t s.rt.bus.ids phone)
      false)).setTask t (.waiting s.rt.bus.ids {} k)) := by
  have hmoved : (s.moveBus py engine (.subscribe patterns (.waiter t s.rt.bus.ids phone)
      false)).task? t = some old := task?_moveBus ht _
  refine .move (.subscribe patterns (.waiter t s.rt.bus.ids phone) false) ?_ ?_ ?_ ?_
    fun _ h => by cases h
  · cases t <;> rfl
  · intro patterns' callback once hm
    cases hm
    refine ⟨rfl, {}, k, ?_⟩
    rw [task?_setTask hmoved, if_pos rfl]
  · intro id callback _ held
    exact (held.moveBus _).setTask hmoved fun future k' hwaiting =>
      (hold id future k' hwaiting).elim
  · intro id given
    rcases given.of_setTask hmoved with given | ⟨future, k', hwaiting⟩
    · exact .inl given.of_moveBus
    · cases hwaiting
      refine .inr ⟨rfl, patterns, _, false, rfl, fun h => ?_⟩
      cases h

/-- A coroutine that waits for an event holds its subscription. -/
theorem handOver_askFor {t : Task} {c : Coro Unit} (ht : s.task? t = some (.ready c)) (op : Op)
    (k : Except Exn Value → Coro Unit) : HandOver py taken s (s.askFor py engine t op k) := by
  have hop : (s.perform t op).task? t = some (.ready c) := (task?_perform t op).trans ht
  have keeps : s.Keeps (s.perform t op) := .perform s t op
  cases op with
  | recordAction | recordMeta =>
      exact .still (keeps.trans (.setTask_busy hop fun _ _ _ h => by cases h))
  | runPj call =>
      exact .still ((Keeps.setTask_busy ht fun _ _ _ h => by cases h).withCurrent none)
  | sleep ms =>
      exact .still ((keeps.trans (.setTask_busy hop fun _ _ _ h => by cases h)).withCurrent none)
  | waitFor eventType phone timeoutMs =>
      simp only [Run.askFor]
      split
      next => exact .still (keeps.trans (.setTask_busy hop fun _ _ _ h => by cases h))
      next patterns _ =>
        have hwait : HandOver py taken (s.perform t (.waitFor eventType phone timeoutMs)) _ :=
          handOver_wait engine hop (fun _ _ _ h => by cases h) patterns phone k
        exact keeps.handOver (hwait.keeps (.of_fields rfl rfl rfl rfl rfl))
  | emit body =>
      let ev := s.stamped py body
      simp only [Run.askFor, Run.emitOnLoop]
      cases (s.perform t (.emit body)).rt.bus.snapshot body with
      | none => exact .still (keeps.trans (.setTask_busy hop fun _ _ _ h => by cases h))
      | some found =>
          have hmove : HandOver py taken (s.perform t (.emit body))
              ((s.perform t (.emit body)).moveBus py engine (.emit ev)) :=
            .moveBus _ (.emit ev) (fun _ _ _ h => by cases h) fun _ h => by cases h
          have hmoved : ((s.perform t (.emit body)).moveBus py engine (.emit ev)).task? t =
              some (.ready c) := task?_moveBus hop _
          have hemit : HandOver py taken (s.perform t (.emit body))
              { (s.perform t (.emit body)).moveBus py engine (.emit ev) with
                loopEmit := some (s.perform t (.emit body)).rt.emissions.length } :=
            hmove.keeps (.of_fields rfl rfl rfl rfl rfl)
          refine keeps.handOver (hemit.keeps ?_)
          refine Keeps.setTask_busy (c := c) ?_ (fun _ _ _ h => by cases h)
          cases t <;> exact hmoved

theorem handOver_goOn {t : Task} {c : Coro Unit} (ht : s.task? t = some (.ready c)) :
    HandOver py taken s (s.goOn py engine t c) := by
  cases c with
  | pure => exact .still (.finish ht none)
  | raise exn => exact .still (.finish ht (some exn))
  | call op k => exact handOver_askFor ht op k

/-! ## The moves of `run` -/

/-- `run` goes on to the next phase without giving anything back. -/
structure Onward (p p' : Phase) : Prop where
  detached : p.isDetached = false → p'.isDetached = false
  stops : ∀ stopSubs, ∀ id ∈ p.stopIds stopSubs, id ∈ p'.stopIds stopSubs
  idle : ∀ state, p ≠ .acting state
  ready : ∀ id future k, p' ≠ .acting (.waiting id future k)
  waits : ∀ rest outcome, p' ≠ .unsubscribing rest outcome

theorem Keeps.onward {p p' : Phase} (hphase : s.phase = p) (hphase' : s'.phase = p')
    (onward : Onward p p') (hrt : s'.rt = s.rt) (hruns : s'.runs = s.runs)
    (hstop : s'.stopSubs = s.stopSubs) (hrec : s'.recorderSub = s.recorderSub) : s.Keeps s' := by
  subst hphase hphase'
  refine .of_phase hrt hruns hstop hrec onward.detached (onward.stops _)
    (not_waits_of_phase onward.idle) ?_ fun id rest outcome h => (onward.waits rest outcome h).elim
  rintro id ⟨future, k, hwaiting⟩
  exact onward.ready id future k (task?_run_some hwaiting)

/-- Between two plain phases with the same ids to give back. -/
theorem onward_of_plain {p p' : Phase} (plain : p.isPlain = true) (plain' : p'.isPlain = true)
    (detached : p'.isDetached = p.isDetached)
    (stops : ∀ stopSubs, p.stopIds stopSubs = [] ∨ p'.stopIds stopSubs = stopSubs) :
    Onward p p' := by
  have hstops : ∀ stopSubs, p.stopIds stopSubs = [] ∨ p.stopIds stopSubs = stopSubs := by
    intro stopSubs
    cases p with
    | unsubscribing => cases plain
    | _ => first | exact .inr rfl | exact .inl rfl
  refine ⟨fun h => detached ▸ h, fun stopSubs id hid => ?_, ?_, ?_, ?_⟩
  · rcases stops stopSubs with h | h
    · rw [h] at hid
      cases hid
    · rcases hstops stopSubs with h' | h'
      · rw [h'] at hid
        cases hid
      · rwa [h, ← h']
  · rintro state rfl
    cases plain
  · rintro id future k rfl
    cases plain'
  · rintro rest outcome rfl
    cases plain'

/-- `run` emits, and holds what it held. -/
theorem handOver_emitThen (body : EventBody) {p phase : Phase} (hphase : s.phase = p)
    (onward : Onward p phase) (raised : Onward p (.raised .builtin)) :
    HandOver py taken s (s.emitThen py engine body phase) := by
  let ev := s.stamped py body
  simp only [Run.emitThen, Run.emitOnLoop]
  cases s.rt.bus.snapshot body with
  | none => exact .still (.onward hphase rfl raised rfl rfl rfl rfl)
  | some found =>
      have hmove : HandOver py taken s (s.moveBus py engine (.emit ev)) :=
        .moveBus s (.emit ev) (fun _ _ _ h => by cases h) fun _ h => by cases h
      exact hmove.keeps (.onward hphase rfl onward rfl rfl rfl rfl)

/-- A move of the bus that gives nothing back, with the next phase. -/
theorem HandOver.moveBus_onward {m : BusMove} {p p' : Phase} (hphase : s.phase = p)
    (onward : Onward p p') (hm : ∀ patterns callback once, m ≠ .subscribe patterns callback once)
    (hm' : ∀ id, m ≠ .unsubscribe id) :
    HandOver py taken s { s.moveBus py engine m with phase := p' } := by
  have hmove : HandOver py taken s (s.moveBus py engine m) :=
    .moveBus s m (fun _ _ _ h => (hm _ _ _ h).elim) fun id h => (hm' id h).elim
  exact hmove.keeps (.onward hphase rfl onward rfl rfl rfl rfl)

/-- Only hooks wait before and after the move. -/
theorem Waits.of_idle {m : BusMove} {t : Task} {id : Nat} (h : s.Waits t id)
    (idle : ∀ state, s.phase ≠ .acting state)
    (hruns : s'.runs = (s.moveBus py engine m).runs) : s'.Waits t id := by
  cases t with
  | run => exact (not_waits_of_phase idle id h).elim
  | hookRun n =>
      obtain ⟨future, k, ht⟩ := h
      have hmoved : (s.moveBus py engine m).task? (.hookRun n) = some (.waiting id future k) :=
        task?_moveBus ht m
      refine ⟨future, k, ?_⟩
      rw [task?, hruns]
      exact hmoved

theorem Gives.of_idle {m : BusMove} {id : Nat} (h : s'.Gives id)
    (idle : ∀ state, s'.phase ≠ .acting state)
    (waits : ∀ rest outcome, s'.phase ≠ .unsubscribing rest outcome)
    (hruns : s'.runs = (s.moveBus py engine m).runs) :
    s.WaitsUnder id ∨ id ∈ s'.stopSubs ∨ s'.recorderSub = some id := by
  rcases h with h | h
  · cases h with
    | waiting h =>
        obtain ⟨t, future, k, ht⟩ := h
        cases t with
        | run => exact (idle _ (task?_run_some ht)).elim
        | hookRun n =>
            rw [task?, hruns] at ht
            have hmoved : (s.moveBus py engine m).task? (.hookRun n) =
                some (.waiting id future k) := ht
            exact .inl ⟨.hookRun n, future, k, waiting_of_moveBus hmoved⟩
    | stop h => exact .inr (.inl h)
    | unsubscribing h => exact (waits _ _ h).elim
  · exact .inr (.inr h)

/-- `run` holds the subscription of a stop condition in its list. -/
theorem handOver_subscribeStop {spec : Dict} {rest : List Dict}
    (hphase : s.phase = .subscribing (spec :: rest)) :
    HandOver py taken s (s.subscribeStop py engine spec rest) := by
  have onward : Onward (.subscribing (spec :: rest)) (.subscribing rest) :=
    onward_of_plain rfl rfl rfl fun _ => .inr rfl
  have raised : Onward (.subscribing (spec :: rest)) (.raised .builtin) :=
    onward_of_plain rfl rfl rfl fun _ => .inr rfl
  simp only [Run.subscribeStop]
  split
  · exact .still (.onward hphase rfl onward rfl rfl rfl rfl)
  · split
    next patterns _ _ =>
      refine .move (.subscribe patterns (.stop spec) false) rfl
        (fun patterns' callback once hm => ?_) (fun id callback _ held => ?_)
        (fun id given => ?_) fun _ h => by cases h
      · cases hm
        exact List.mem_append_right _ (List.mem_singleton_self _)
      · cases callback with
        | recorder => exact ⟨held.1, rfl⟩
        | stop spec' =>
            rw [HeldFor, hphase] at held
            exact List.mem_append_left _ held
        | waiter t subId phone =>
            refine ⟨held.1, held.2.of_idle ?_ rfl⟩
            rw [hphase]
            exact onward.idle
        | hook | foreign => trivial
      · rcases given.of_idle (fun _ h => by cases h) (fun _ _ h => by cases h) rfl with h | h | h
        · exact .inl (.inl (.waiting h))
        · rcases List.mem_append.mp h with h | h
          · exact .inl (.inl (.stop h))
          · refine .inr ⟨List.mem_singleton.mp h, patterns, _, false, rfl, fun h => ?_⟩
            cases h
        · exact .inl (.inr h)
    next => exact .still (.onward hphase rfl raised rfl rfl rfl rfl)

/-- `run` subscribes the recorder. -/
theorem handOver_entering (hphase : s.phase = .entering) (fresh : s.recorderSub = none)
    (timeline : List Entry) :
    HandOver py taken s
      { s.moveBus py engine (.subscribe [.str ['*']] .recorder false) with
        recorderSub := some s.rt.bus.ids, timeline := timeline, phase := .arming scn.hooks } := by
  refine .move (.subscribe [.str ['*']] .recorder false) rfl (fun patterns callback once hm => ?_)
    (fun id callback _ held => ?_) (fun id given => ?_) fun _ h => by cases h
  · cases hm
    exact ⟨rfl, rfl⟩
  · cases callback with
    | recorder =>
        have hsome := held.1
        rw [fresh] at hsome
        cases hsome
    | stop spec =>
        rw [HeldFor, hphase] at held
        exact held
    | waiter t subId phone =>
        refine ⟨held.1, held.2.of_idle ?_ rfl⟩
        rw [hphase]
        intro state h
        cases h
    | hook | foreign => trivial
  · rcases given.of_idle (fun _ h => by cases h) (fun _ _ h => by cases h) rfl with h | h | h
    · exact .inl (.inl (.waiting h))
    · exact .inl (.inl (.stop h))
    · refine .inr ⟨(Option.some.inj h).symm, [.str ['*']], .recorder, false, rfl, fun h => ?_⟩
      cases h

/-- `run` gives a subscription back, and nothing but its id is no longer kept. -/
theorem handOver_unsubscribe {subId : Nat} {p' : Phase} (recorderSub : Option Nat)
    (given : s.Gives subId)
    (idle : ∀ state, s.phase ≠ .acting state) (idle' : ∀ state, p' ≠ .acting state)
    (hrec : ∀ id, id ≠ subId → s.recorderSub = some id → s.phase.isDetached = false →
      recorderSub = some id ∧ p'.isDetached = false)
    (hstops : ∀ id, id ≠ subId → id ∈ s.phase.stopIds s.stopSubs → id ∈ p'.stopIds s.stopSubs)
    (hrec' : recorderSub = none ∨ recorderSub = s.recorderSub)
    (hids : ∀ id rest outcome, p' = .unsubscribing rest outcome → id ∈ rest → s.Gives id) :
    HandOver py taken s { s.moveBus py engine (.unsubscribe subId) with
      recorderSub := recorderSub
      phase := p' } := by
  refine .move (.unsubscribe subId) rfl (fun patterns callback once hm => by cases hm)
    (fun id callback hm held => ?_) (fun id given => .inl ?_) fun id hm => .inl ?_
  · have hne : id ≠ subId := by
      rintro rfl
      exact hm rfl
    cases callback with
    | recorder => exact hrec id hne held.1 held.2
    | stop spec => exact hstops id hne held
    | waiter t subId' phone => exact ⟨held.1, held.2.of_idle idle rfl⟩
    | hook | foreign => trivial
  · rcases given with h | h
    · cases h with
      | waiting h =>
          obtain ⟨t, future, k, ht⟩ := h
          cases t with
          | run => exact (idle' _ (task?_run_some ht)).elim
          | hookRun n =>
              have hmoved : (s.moveBus py engine (.unsubscribe subId)).task? (.hookRun n) =
                  some (.waiting id future k) := ht
              exact .inl (.waiting ⟨.hookRun n, future, k, waiting_of_moveBus hmoved⟩)
      | stop h => exact .inl (.stop h)
      | unsubscribing h hid => exact hids id _ _ h hid
    · rcases hrec' with hnone | hsame
      · have hsome : recorderSub = some id := h
        rw [hnone] at hsome
        cases hsome
      · exact .inr (hsame ▸ h)
  · cases hm
    exact given

/-- `run` leaves its wait with all stop conditions still to give back. -/
theorem Keeps.leave (status : String) (reason : Text) (hphase : s.phase = .awaiting) :
    s.Keeps (s.leave status reason) := by
  refine .of_phase rfl rfl rfl rfl (fun _ => rfl) (fun id h => ?_) (not_waits_of_phase ?_)
    (not_waits_of_phase fun _ h => by cases h) fun id rest outcome h hid => ?_
  · rwa [hphase] at h
  · rw [hphase]
    intro state h
    cases h
  · cases h
    exact .inl (.stop hid)

/-- `run` gives the recorder's subscription back. -/
theorem handOver_detach {outcome : Outcome} {subId : Nat} (hphase : s.phase = .detaching outcome)
    (hsub : s.recorderSub = some subId) :
    HandOver py taken s { s.moveBus py engine (.unsubscribe subId) with
      recorderSub := none, phase := .returning outcome } := by
  refine handOver_unsubscribe none (.inr hsub) ?_ (fun _ h => by cases h)
    (fun id hne h _ => ?_) (fun id _ hid => ?_) (.inl rfl) fun _ _ _ h => by cases h
  · rw [hphase]
    intro state h
    cases h
  · rw [hsub, Option.some_inj] at h
    exact (hne h.symm).elim
  · rw [hphase] at hid
    exact hid

/-- A recorder that never started has nothing to give back. -/
theorem Keeps.detached {outcome : Outcome} (hphase : s.phase = .detaching outcome)
    (hsub : s.recorderSub = none) : s.Keeps { s with phase := .returning outcome } := by
  refine ⟨rfl, fun id callback held => ?_, fun id given => ?_⟩
  · cases callback with
    | recorder =>
        have hsome := held.1
        rw [hsub] at hsome
        cases hsome
    | stop spec =>
        rw [HeldFor, hphase] at held
        exact held
    | waiter t subId phone =>
        obtain ⟨hid, future, k, ht⟩ := held
        cases t with
        | run =>
            rw [task?_run_some ht] at hphase
            cases hphase
        | hookRun n => exact ⟨hid, future, k, ht⟩
    | hook | foreign => trivial
  · rcases given with h | h
    · exact .inl (h.of_phase rfl rfl rfl)
    · exact .inr h

/-- A phase that is only passed on holds nothing new. -/
theorem Phase.Goes.onward {registered : List Nat} {p p' : Phase}
    (goes : Phase.Goes scn registered p p') : Onward p p' := by
  cases goes with
  | armed | subscribed | skip | replayed | await =>
      exact onward_of_plain rfl rfl rfl fun _ => .inr rfl
  | act => exact ⟨fun _ => rfl, fun _ _ h => h, by simp, by simp, by simp⟩
  | unsubscribed => exact ⟨fun _ => rfl, fun _ _ h => (by cases h), by simp, by simp, by simp⟩
  | removed => exact onward_of_plain rfl rfl rfl fun _ => .inl rfl

theorem Phase.Emits.onward {info : Option RegInfo} {p p' : Phase} {body : EventBody}
    (emits : Phase.Emits scn info p body p') : Onward p p' ∧ Onward p (.raised .builtin) := by
  cases emits with
  | replay | start =>
      exact ⟨onward_of_plain rfl rfl rfl fun _ => .inr rfl,
        onward_of_plain rfl rfl rfl fun _ => .inr rfl⟩
  | stop =>
      exact ⟨onward_of_plain rfl rfl rfl fun _ => .inl rfl,
        onward_of_plain rfl rfl rfl fun _ => .inl rfl⟩

theorem handOver_moves {p p' : Phase} {m : BusMove} (hphase : s.phase = p)
    (moves : Phase.Moves py s.rt p m p') :
    HandOver py taken s { s.moveBus py engine m with phase := p' } := by
  cases moves with
  | arm | assign =>
      exact .moveBus_onward hphase (onward_of_plain rfl rfl rfl fun _ => .inr rfl)
        (fun _ _ _ h => by cases h) fun _ h => by cases h
  | remove =>
      exact .moveBus_onward hphase (onward_of_plain rfl rfl rfl fun _ => .inl rfl)
        (fun _ _ _ h => by cases h) fun _ h => by cases h
  | @unsubscribe subId rest outcome =>
      have given : s.Gives subId := .inl (.unsubscribing hphase List.mem_cons_self)
      refine handOver_unsubscribe s.recorderSub given ?_ (fun _ h => by cases h)
        (fun id _ h _ => ⟨h, rfl⟩) (fun id hne hid => ?_) (.inr rfl)
        fun id rest' outcome' h hid => ?_
      · rw [hphase]
        intro state h
        cases h
      · rw [hphase] at hid
        exact (List.mem_cons.mp hid).resolve_left hne
      · cases h
        exact .inl (.unsubscribing hphase (List.mem_cons_of_mem subId hid))

/-- Each move of `run` hands its subscriptions over. -/
theorem NextMove.handOver {info : Option RegInfo} (h : NextMove py engine scn s info s')
    (fresh : s.phase = .entering → s.recorderSub = none) : HandOver py taken s s' := by
  have later : ∀ {p p' : Phase}, p.isPlain = true → p'.isPlain = true →
      p'.isDetached = p.isDetached → (∀ ids, p.stopIds ids = []) → Onward p p' :=
    fun plain plain' detached stops => onward_of_plain plain plain' detached fun ids =>
      .inl (stops ids)
  cases h with
  | enter phase => exact handOver_entering phase (fresh phase) _
  | refuse phase =>
      exact .still (.onward phase rfl (onward_of_plain rfl rfl rfl fun _ => .inr rfl)
        rfl rfl rfl rfl)
  | go phase goes => exact .still (.onward phase rfl goes.onward rfl rfl rfl rfl)
  | move phase moves => exact handOver_moves phase moves
  | emit phase emits => exact handOver_emitThen _ phase emits.onward.1 emits.onward.2
  | subscribe phase => exact handOver_subscribeStop phase
  | leave phase => exact .still (.leave _ _ phase)
  | wait phase =>
      exact .still (.onward phase rfl (onward_of_plain rfl rfl rfl fun _ => .inr rfl)
        rfl rfl rfl rfl)
  | finish phase | ret phase =>
      exact .still (.onward phase rfl (later rfl rfl rfl fun _ => rfl) rfl rfl rfl rfl)
  | detach phase recorder => exact handOver_detach phase recorder
  | detached phase recorder => exact .still (.detached phase recorder)
  | idle => exact .refl s

theorem handOver_runNext (fresh : s.phase = .entering → s.recorderSub = none)
    (info : Option RegInfo) : HandOver py taken s (s.runNext py engine scn info) :=
  (s.runNext_spec info).handOver fresh

/-! ## The loop -/

theorem handOver_next (fresh : s.phase = .entering → s.recorderSub = none)
    (info : Option RegInfo) : HandOver py taken s (s.next py engine scn info) := by
  simp only [Run.next]
  split
  next t hcurrent _ =>
    split
    next c ht => exact handOver_goOn ht
    next =>
      split
      · exact handOver_runNext fresh info
      · exact .refl s
  next => exact .refl s

/-- A `wait_for` that is over gives its subscription back. -/
theorem handOver_waited {t : Task} {subId : Nat} {future : Future}
    {k : Except Exn Value → Coro Unit} (ht : s.task? t = some (.waiting subId future k))
    (c : Coro Unit) (current : Option Task) :
    HandOver py taken s { (s.moveBus py engine (.unsubscribe subId)).setTask t (.ready c) with
      current := current } := by
  have hmoved : (s.moveBus py engine (.unsubscribe subId)).task? t =
      some (.waiting subId future k) := task?_moveBus ht _
  have hover : HandOver py taken s
      ((s.moveBus py engine (.unsubscribe subId)).setTask t (.ready c)) := by
    refine .move (.unsubscribe subId) (by cases t <;> rfl) (fun _ _ _ h => by cases h)
      (fun id callback hm held => ?_) (fun id given => .inl ?_) fun id hm => .inl (.inl ?_)
    · refine (held.moveBus _).setTask hmoved fun future' k' hwaiting => ?_
      cases hwaiting
      exact (hm rfl).elim
    · rcases given.of_setTask hmoved with given | ⟨future', k', hready⟩
      · exact given.of_moveBus
      · cases hready
    · cases hm
      exact .waiting ⟨t, future, k, ht⟩
  exact hover.keeps (.of_fields rfl rfl rfl rfl rfl)

theorem handOver_turn (t : Task) : HandOver py taken s (s.turn py engine scn t) := by
  simp only [Run.turn]
  split
  · exact .refl s
  · split
    next c _ => exact .still ((Keeps.refl s).withCurrent (some t))
    next subId future k ht =>
      split
      · exact handOver_waited ht _ (some t)
      · exact .refl s
    next =>
      split
      next hphase _ _ =>
        split
        · exact .still (.leave _ _ hphase)
        · exact .refl s
      next => exact .refl s

theorem Keeps.wake (t : Task) : s.Keeps (s.wake t) := by
  simp only [Run.wake]
  split
  next k ht => exact .setTask ht fun id => by simp
  next => exact .refl s

theorem Keeps.expire (t : Task) : s.Keeps (s.expire py scn t) := by
  simp only [Run.expire]
  split
  · exact .refl s
  · split
    next subId future k ht => exact .setTask ht fun id => by simp
    next =>
      split
      next hphase _ =>
        split
        · exact .leave _ _ hphase
        · have hstop : s.Keeps { s with stopFuture := s.stopFuture.cancel } :=
            .of_fields rfl rfl rfl rfl rfl
          exact hstop.trans (.leave _ _ hphase)
      next => exact .refl s

theorem Keeps.settle (t : Task) : s.Keeps (s.settle t) := by
  simp only [Run.settle]
  split
  · exact .refl s
  · split
    next subId future k ht => exact .setTask ht fun id => by simp
    next => exact .refl s

theorem Keeps.settleStop (s : Run) : s.Keeps s.settleStop := by
  simp only [Run.settleStop]
  split
  · exact .refl s
  · exact .of_fields rfl rfl rfl rfl rfl

theorem Keeps.runJob (t : Task) (answer : Except Exn Value) : s.Keeps (s.runJob t answer) := by
  simp only [Run.runJob]
  split
  next call k ht =>
    have hop : (s.perform t (.runPj call)).task? t = some (.inExecutor call k) :=
      (task?_perform t _).trans ht
    exact (Keeps.perform s t _).trans (.setTask hop fun id => by simp)
  next => exact .refl s

/-- Every step hands the subscriptions over, those of foreign callers aside. -/
theorem handOver_step (fresh : s.phase = .entering → s.recorderSub = none) {a : Move}
    (en : s.enabled a = true) :
    HandOver py (fun id => a = .bus (.unsubscribe id)) s (s.step py engine scn a) := by
  cases a with
  | bus m =>
      cases m with
      | subscribe patterns callback once =>
          refine .moveBus s _ (fun patterns' callback' once' h => ?_) fun _ h => by cases h
          cases h
          cases callback with
          | foreign => trivial
          | _ => cases en
      | unsubscribe subId =>
          refine .moveBus s _ (fun _ _ _ h => by cases h) fun id h => ?_
          cases h
          rfl
      | emit ev => exact .moveBus s _ (fun _ _ _ h => by cases h) fun _ h => by cases h
      | advance i => exact handOver_advance s i
      | arm | assign | remove => cases en
  | next info => exact handOver_next fresh info
  | turn t => exact handOver_turn t
  | wake t => exact .still (.wake t)
  | expire t => exact .still (.expire t)
  | settle t => exact .still (.settle t)
  | settleStop => exact .still (.settleStop s)
  | runJob t answer => exact .still (.runJob t answer)

/-! ## Runs -/

theorem initial_accounted : initial.Accounted where
  keyed _ _ hget := by cases hget
  held _ _ hget := by cases hget
  apart id given := by
    rcases given with h | h
    · cases h with
      | waiting h =>
          obtain ⟨t, future, k, ht⟩ := h
          cases t <;> cases ht
      | stop h => cases h
      | unsubscribing h => cases h
    · cases h
  spared id h := by
    cases h with
    | hook h | arming h | once h | toRemove h => cases h

/-- The recorder is subscribed once. -/
theorem fresh_of_reachable (run : (scenarioSystem py engine scn).Reachable s)
    (hphase : s.phase = .entering) : s.recorderSub = none := by
  obtain ⟨w, hw, rfl⟩ := exists_recording run
  exact (Recording.reachable_sound hw).told.guarded.fresh hphase

/-- Every subscription of a reachable run is accounted for. -/
theorem reachable_accounted (run : (scenarioSystem py engine scn).Reachable s) : s.Accounted :=
  run.invariant_using (fun _ run => fresh_of_reachable run) initial_accounted
    fun _ _ en _ fresh acc => acc.handOver (handOver_step fresh en)

/-- A lasting subscription of another user stays in a move that does not take it away. -/
theorem Accounted.lasting_step (acc : s.Accounted) (h : HandOver py taken s s') {id : Nat}
    {sub : Subscription} (hget : s.rt.bus.subs.get? id = some sub) (lasting : sub.Lasting)
    (hkeep : ¬taken id) : s'.rt.bus.subs.get? id = some sub := by
  cases h with
  | still keeps => rwa [keeps.rt]
  | move m rt _ _ _ back =>
      rw [rt]
      rcases EventBus.step_bus py s.rt m with
        ⟨q, hbus, hgone⟩ | ⟨patterns, callback, once, hbus, -⟩
      · have hq : q id = true := by
          by_contra hq
          rcases hgone id (eq_false_of_ne_true hq) with hm | hreleased
          · exact (acc.apart id ((back id hm).resolve_right hkeep)).2 sub hget lasting
          · exact (acc.spared id hreleased).2 sub hget lasting
        rw [hbus, EventBus.without, OrderedDict.get?_filterKeys, if_pos hq, hget]
      · have hne : s.rt.bus.ids ≠ id := (acc.keyed id sub hget).2.ne'
        rw [hbus, EventBus.subscribe, OrderedDict.get?_set_of_ne _ hne, hget]

/-- What a run that has returned leaves on the bus: of its own, the subscriptions of coroutines
that still wait for an event, and nothing else; of the others, everything that they have not taken
away themselves. -/
theorem bus_after_return (run : (scenarioSystem py engine scn).Reachable s) {moves : List Move}
    (legal : (scenarioSystem py engine scn).Legal (fun _ _ => True) s moves) :
    let s' := (scenarioSystem py engine scn).run s moves
    (s'.phase.hasReturned = true → ∀ id sub, s'.rt.bus.subs.get? id = some sub →
      sub.callback = .foreign ∨
        ∃ n phone, sub.callback = .waiter (.hookRun n) id phone ∧ s'.Waits (.hookRun n) id) ∧
    ∀ id sub, s.rt.bus.subs.get? id = some sub → sub.Lasting →
      .bus (.unsubscribe id) ∉ moves → s'.rt.bus.subs.get? id = some sub := by
  intro s'
  have run' : (scenarioSystem py engine scn).Reachable s' := run.run legal
  refine ⟨fun ret id sub hget => ?_, fun id sub hget lasting hkeep => ?_⟩
  · have held := (reachable_accounted run').held id sub hget
    obtain ⟨result, hresult⟩ := Phase.result_of_returned ret
    cases hcallback : sub.callback with
    | foreign => exact .inl rfl
    | hook h =>
        have gone := (reachable_sound run').inPhase.detached h (Phase.past_of_returned ret h)
        exact (gone ⟨id, sub, hget, hcallback⟩).elim
    | recorder =>
        rw [hcallback, HeldFor, hresult] at held
        cases held.2
    | stop spec =>
        rw [hcallback, HeldFor, hresult] at held
        cases held
    | waiter t subId phone =>
        rw [hcallback] at held
        obtain ⟨rfl, hwaits⟩ := held
        cases t with
        | run => exact (not_waits_of_phase (fun _ h => by rw [hresult] at h; cases h) _ hwaits).elim
        | hookRun n => exact .inr ⟨n, phone, rfl, hwaits⟩
  · induction moves generalizing s with
    | nil => exact hget
    | cons a moves ih =>
        have acc := reachable_accounted run
        have hone : (s.step py engine scn a).rt.bus.subs.get? id = some sub :=
          acc.lasting_step (handOver_step (fresh_of_reachable run) legal.1) hget lasting
            fun ha => hkeep (ha ▸ List.mem_cons_self)
        exact ih (run.step legal.1 trivial) legal.2.2 run' hone fun h =>
          hkeep (List.mem_cons_of_mem a h)

end Run

/-! ## A listener that outlives a run -/

/-- Somebody else listens to an event that the run does not know. -/
def listener : Subscription := ⟨1, [.str "other".toList], .foreign, false, true⟩

def listening : Run :=
  (scenarioSystem .ascii true lateHangup).step .initial
    (.bus (.subscribe listener.patterns .foreign false))

def Move.unsubscribes : Move → Bool
  | .bus (.unsubscribe _) => true
  | _ => false

theorem bus_after_late_hangup :
    let s' := (scenarioSystem .ascii true lateHangup).run listening
      (stopWhileWaiting ++ [.next none])
    s'.phase.hasReturned = true ∧
      (∀ id sub, s'.rt.bus.subs.get? id = some sub → sub.callback = .foreign ∨
        ∃ n phone, sub.callback = .waiter (.hookRun n) id phone ∧ s'.Waits (.hookRun n) id) ∧
      s'.rt.bus.subs.get? 1 = some listener := by
  have run : (scenarioSystem .ascii true lateHangup).Reachable listening :=
    GuardedSystem.Reach.init.step rfl trivial
  have legal : (scenarioSystem .ascii true lateHangup).Legal (fun _ _ => True) listening
      (stopWhileWaiting ++ [.next none]) := by decide +kernel
  have ret : ((scenarioSystem .ascii true lateHangup).run listening
      (stopWhileWaiting ++ [.next none])).phase.hasReturned = true := by decide +kernel
  have after := Run.bus_after_return run legal
  have kept : (stopWhileWaiting ++ [Move.next none]).all (fun m => !m.unsubscribes) = true := by
    decide +kernel
  refine ⟨ret, after.1 ret, after.2 1 listener rfl ⟨rfl, rfl⟩ fun h => ?_⟩
  exact absurd (List.all_eq_true.1 kept _ h) Bool.false_ne_true

end PjsuaMcp.Scenario
