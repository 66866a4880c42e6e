import PjsuaMcp.Scenario.Chronicle
import PjsuaMcp.Scenario.AfterReturn

/-!
# Runs with their chronicles

The chronicle of a run notes who has made each row of the timeline, which
emissions have begun while the recorder was subscribed, and which hook is behind
each coroutine. A recording is a run that takes its chronicle along. Each move
adds rows of one maker only, and what it adds keeps the chronicle true to the
run.
-/

namespace PjsuaMcp.Scenario

open Library

/-! ## Recordings -/

/-- Who makes the rows that a move adds to the timeline: an emission, or the coroutine that holds
the loop. -/
def Run.mover (s : Run) : Move → Origin
  | .bus (.advance i) => .emission i
  | _ => .task (s.current.getD .run)

/-- The emission that goes on. -/
def Move.emission : Move → Nat
  | .bus (.advance i) => i
  | _ => 0

/-- The chronicle with what the move `a` has added to the run. -/
def Chronicle.extend (c : Chronicle) (a : Move) (s s' : Run) : Chronicle where
  log := c.log ++ (s'.timeline.drop c.log.length).map fun entry => (s.mover a, entry)
  firings := c.firings ++
    (s'.rt.scheduled.drop c.firings.length).map fun firing => (a.emission, firing)
  watched := c.watched ++
    if s.recorderSub.isSome then
      (List.range s'.rt.emissions.length).drop s.rt.emissions.length
    else []

structure Recording where
  run : Run
  chronicle : Chronicle

namespace Recording

def initial : Recording := ⟨.initial, .initial⟩

def step (py : PyText) (engine : Bool) (scenario : ScenarioSpec) (w : Recording) (a : Move) :
    Recording :=
  let s' := w.run.step py engine scenario a
  ⟨s', w.chronicle.extend a w.run s'⟩

end Recording

/-- The runs of a scenario with their chronicles. -/
def recordings (py : PyText) (engine : Bool) (scenario : ScenarioSpec) :
    GuardedSystem Recording Move where
  init := .initial
  enabled w a := w.run.enabled a = true
  step := Recording.step py engine scenario

instance (py : PyText) (engine : Bool) (scenario : ScenarioSpec) (w : Recording) (a : Move) :
    Decidable ((recordings py engine scenario).enabled w a) :=
  inferInstanceAs (Decidable (w.run.enabled a = true))

section Projection

variable {py : PyText} {engine : Bool} {scenario : ScenarioSpec}

/-- A recording goes along with a run, -/
theorem reachable_run {w : Recording} (run : (recordings py engine scenario).Reachable w) :
    (scenarioSystem py engine scenario).Reachable w.run := by
  induction run with
  | init => exact .init
  | step _ en _ ih => exact ih.step en trivial

/-- and every run can be recorded. -/
theorem exists_recording {s : Run} (run : (scenarioSystem py engine scenario).Reachable s) :
    ∃ w, (recordings py engine scenario).Reachable w ∧ w.run = s := by
  induction run with
  | init => exact ⟨_, .init, rfl⟩
  | step _ en _ ih =>
      obtain ⟨w, hw, rfl⟩ := ih
      exact ⟨_, hw.step en trivial, rfl⟩

end Projection

/-! ## The ids that the run gives back -/

namespace Run

/-- The ids under which coroutines wait, and those of the stop conditions. -/
inductive Releases (s : Run) (id : Nat) : Prop
  | waiting (h : ∃ t future k, s.task? t = some (.waiting id future k))
  | stop (h : id ∈ s.stopSubs)
  | unsubscribing {rest outcome} (h : s.phase = .unsubscribing rest outcome) (hid : id ∈ rest)

theorem Releases.congr {s s' : Run} {id : Nat} (h : s'.Releases id) (hruns : s'.runs = s.runs)
    (hphase : s'.phase = s.phase) (hstop : s'.stopSubs = s.stopSubs) : s.Releases id := by
  cases h with
  | waiting h =>
      obtain ⟨t, future, k, ht⟩ := h
      refine .waiting ⟨t, future, k, ?_⟩
      cases t with
      | run =>
          rw [task?, hphase] at ht
          exact ht
      | hookRun n =>
          rw [task?, hruns] at ht
          exact ht
  | stop h => exact .stop (hstop ▸ h)
  | unsubscribing h hid => exact .unsubscribing (hphase ▸ h) hid

/-- `run` has entered, and neither acts nor gives back its stop conditions. -/
def settled : Phase → Bool
  | .entering | .acting _ | .unsubscribing .. => false
  | _ => true

/-- Where `run` itself does not wait, the ids are those of the hooks and those still to give
back. -/
theorem Releases.of_not_waiting {s s' : Run} {id : Nat} (h : s'.Releases id)
    (hruns : s'.runs = s.runs) (hstop : s'.stopSubs = s.stopSubs)
    (hacting : ∀ future k, s'.phase ≠ .acting (.waiting id future k))
    (hids : ∀ rest outcome, s'.phase = .unsubscribing rest outcome → id ∈ rest → s.Releases id) :
    s.Releases id := by
  cases h with
  | waiting h =>
      obtain ⟨t, future, k, ht⟩ := h
      cases t with
      | run => exact (hacting future k (task?_run_some ht)).elim
      | hookRun n =>
          refine .waiting ⟨.hookRun n, future, k, ?_⟩
          rw [task?, hruns] at ht
          exact ht
  | stop h => exact .stop (hstop ▸ h)
  | unsubscribing h hid => exact hids _ _ h hid

/-- In a settled phase only the hooks are waiting. -/
theorem Releases.of_phase {s s' : Run} {id : Nat} (h : s'.Releases id)
    (hruns : s'.runs = s.runs) (hstop : s'.stopSubs = s.stopSubs)
    (hsettled : settled s'.phase = true) : s.Releases id := by
  refine h.of_not_waiting hruns hstop (fun _ _ hphase => ?_) fun _ _ hphase _ => ?_
  · rw [hphase] at hsettled
    cases hsettled
  · rw [hphase] at hsettled
    cases hsettled

/-- `run` is between the start and the stop of the recorder. -/
def recordingPhase : Phase → Bool
  | .entering | .returning _ | .returned _ | .raised _ => false
  | _ => true

/-- `run` neither enters again nor comes back between the start and the stop. -/
structure Goes (phase phase' : Phase) : Prop where
  entering : phase' = .entering → phase = .entering
  recording : recordingPhase phase' = true → recordingPhase phase = true

theorem Goes.refl (phase : Phase) : Goes phase phase := ⟨id, id⟩

theorem Goes.of_settled {phase phase' : Phase} (h : settled phase' = true)
    (hrec : recordingPhase phase' = true → recordingPhase phase = true) : Goes phase phase' := by
  refine ⟨fun hphase => ?_, hrec⟩
  rw [hphase] at h
  cases h

/-- The recorder is there in the phases between its start and its stop, and nobody else gives its
id back. -/
structure Guarded (s : Run) : Prop where
  spared : ∀ id, s.Releases id → s.rt.bus.Spares id
  fresh : s.phase = .entering → s.recorderSub = none
  attached : recordingPhase s.phase = true → s.recorderSub.isSome = true

/-- The run and its chronicle agree. -/
structure Told (c : Chronicle) (s : Run) : Prop where
  guarded : s.Guarded
  kept : Kept c s.recorderSub s.rt
  rows : c.log.map Prod.snd = s.timeline

end Run

/-- Rows of one origin that are not events. -/
def Chronicle.notes (c : Chronicle) (o : Origin) (rows : List Entry) : Chronicle :=
  { c with log := c.log ++ rows.map fun entry => (o, entry) }

def Entry.isEvent : Entry → Bool
  | .event _ => true
  | _ => false

theorem Kept.notes {c : Chronicle} {rec : Option Nat} {rt : HookRuntime} (inv : Kept c rec rt)
    (t : Task) {rows : List Entry} (plain : ∀ entry ∈ rows, entry.isEvent = false) :
    Kept (c.notes (.task t) rows) rec rt := by
  have hrows : ∀ i, (c.notes (.task t) rows).rowsOf i = c.rowsOf i := by
    intro i
    have hnone : (rows.map fun entry => (Origin.task t, entry)).filter
        (fun r => r.1 = .emission i) = [] := by
      refine List.filter_eq_nil_iff.mpr fun r hr => ?_
      obtain ⟨entry, -, rfl⟩ := List.mem_map.mp hr
      simp
    rw [Chronicle.rowsOf, Chronicle.notes, List.filter_append, hnone, List.append_nil]
    rfl
  have huntouched : ∀ i, c.Untouched i → (c.notes (.task t) rows).Untouched i :=
    fun i h => ⟨(hrows i).trans h.1, h.2⟩
  refine ⟨inv.fired, inv.keyed, inv.recorder, inv.order, inv.spared, fun i e he => ?_,
    fun i hi => ?_, fun f hf => List.mem_append_left _ (inv.caused f hf), fun r hr ev hev => ?_⟩
  · cases inv.followed i e he with
    | ahead leads untouched => exact .ahead leads (huntouched i untouched)
    | behind noted gone => exact .behind ((hrows i).trans noted) gone
    | unseen silent untouched early => exact .unseen silent (huntouched i untouched) early
  · exact (inv.unborn i hi).imp_left (huntouched i)
  · rcases List.mem_append.mp hr with hr | hr
    · exact inv.events r hr ev hev
    · obtain ⟨entry, hentry, rfl⟩ := List.mem_map.mp hr
      have hplain := plain entry hentry
      rw [show entry = .event ev from hev] at hplain
      cases hplain

namespace Run

variable {py : PyText} {engine : Bool} {scenario : ScenarioSpec} {c : Chronicle} {s s' : Run}

/-- Changes that leave the bus alone and wait under no new ids. -/
theorem Guarded.of_fields (h : s.Guarded) (hrt : s'.rt = s.rt)
    (hsub : s'.recorderSub = s.recorderSub) (hreleases : ∀ id, s'.Releases id → s.Releases id)
    (goes : Goes s.phase s'.phase) : s'.Guarded where
  spared id hid := hrt ▸ h.spared id (hreleases id hid)
  fresh hentering := hsub.trans (h.fresh (goes.entering hentering))
  attached hrec := by
    rw [hsub]
    exact h.attached (goes.recording hrec)

/-- A coroutine goes on; it waits under an id that is not the recorder's. -/
theorem Guarded.setTask (h : s.Guarded) {t : Task} {old : TaskState} (hold : s.task? t = some old)
    {state : TaskState} (spared : ∀ id future k, state = .waiting id future k →
      s.rt.bus.Spares id) : (s.setTask t state).Guarded where
  spared id hid := by
    cases t with
    | run =>
        cases hid with
        | waiting hid =>
            obtain ⟨t', future, k, ht'⟩ := hid
            cases t' with
            | run => exact spared id future k (Option.some.inj ht')
            | hookRun n => exact h.spared id (.waiting ⟨.hookRun n, future, k, ht'⟩)
        | stop hid => exact h.spared id (.stop hid)
        | unsubscribing hphase => cases hphase
    | hookRun n =>
        cases hid with
        | waiting hid =>
            obtain ⟨t', future, k, ht'⟩ := hid
            cases t' with
            | run => exact h.spared id (.waiting ⟨.run, future, k, ht'⟩)
            | hookRun m =>
                have hm : (s.runs.set n state)[m]? = some (.waiting id future k) := ht'
                rcases eq_or_ne n m with rfl | hne
                · obtain ⟨hlt, hat⟩ := List.getElem?_eq_some_iff.mp hm
                  rw [List.getElem_set_self] at hat
                  exact spared id future k hat
                · rw [List.getElem?_set_ne hne] at hm
                  exact h.spared id (.waiting ⟨.hookRun m, future, k, hm⟩)
        | stop hid => exact h.spared id (.stop hid)
        | unsubscribing hphase hid => exact h.spared id (.unsubscribing hphase hid)
  fresh hentering := by
    cases t with
    | run => cases hentering
    | hookRun n => exact h.fresh hentering
  attached hrec := by
    cases t with
    | run =>
        refine h.attached ?_
        rw [task?_run_some hold]
        rfl
    | hookRun n => exact h.attached hrec

/-- A move of the bus schedules only coroutines that are ready. -/
theorem Guarded.moveBus (h : s.Guarded) (m : BusMove) : (s.moveBus py engine m).Guarded where
  spared id hid := by
    refine EventBus.Spares.step (h.spared id ?_) py m
    cases hid with
    | waiting hid =>
        obtain ⟨t, future, k, ht⟩ := hid
        exact .waiting ⟨t, future, k, waiting_of_moveBus ht⟩
    | stop hid => exact .stop hid
    | unsubscribing hphase hid => exact .unsubscribing hphase hid
  fresh := h.fresh
  attached := h.attached

namespace Told

theorem of_fields (told : Told c s) (hrt : s'.rt = s.rt) (hsub : s'.recorderSub = s.recorderSub)
    (htimeline : s'.timeline = s.timeline) (hreleases : ∀ id, s'.Releases id → s.Releases id)
    (goes : Goes s.phase s'.phase) : Told c s' where
  guarded := told.guarded.of_fields hrt hsub hreleases goes
  kept := by
    rw [hrt, hsub]
    exact told.kept
  rows := told.rows.trans htimeline.symm

/-- Rows of a coroutine. -/
theorem notes (told : Told c s) (t : Task) {rows : List Entry}
    (plain : ∀ entry ∈ rows, entry.isEvent = false) :
    Told (c.notes (.task t) rows) { s with timeline := s.timeline ++ rows } where
  guarded := told.guarded.of_fields rfl rfl (fun _ h => h.congr rfl rfl rfl) (.refl _)
  kept := told.kept.notes t plain
  rows := by
    rw [Chronicle.notes, List.map_append, told.rows, List.map_map]
    exact congrArg _ (List.map_id rows)

theorem perform (told : Told c s) (t t' : Task) (op : Op) :
    Told (c.notes (.task t) op.row?.toList) (s.perform t' op) := by
  have hplain : ∀ entry ∈ op.row?.toList, entry.isEvent = false := by
    intro entry hentry
    cases op <;> simp only [Op.row?, Option.toList_some, Option.toList_none, List.mem_singleton,
      List.not_mem_nil] at hentry <;> rw [hentry] <;> rfl
  exact (told.notes t hplain).of_fields rfl rfl rfl (fun _ h => h.congr rfl rfl rfl) (.refl _)

theorem setTask (told : Told c s) {t : Task} {old : TaskState} (hold : s.task? t = some old)
    {state : TaskState} (spared : ∀ id future k, state = .waiting id future k →
      s.rt.bus.Spares id) : Told c (s.setTask t state) where
  guarded := told.guarded.setTask hold spared
  kept := by
    cases t <;> exact told.kept
  rows := by
    cases t <;> exact told.rows

/-- A move of the bus that keeps the chronicle. -/
theorem moveBus (told : Told c s) {m : BusMove} {c' : Chronicle} (hlog : c'.log = c.log)
    (kept : Kept c' s.recorderSub (s.rt.step py m)) : Told c' (s.moveBus py engine m) where
  guarded := told.guarded.moveBus m
  kept := kept
  rows := by
    rw [hlog]
    exact told.rows

end Told

@[simp] theorem notes_nil (c : Chronicle) (o : Origin) : c.notes o [] = c := by
  rw [Chronicle.notes, List.map_nil, List.append_nil]

/-- Only a coroutine that exists adds rows. -/
def Owned (s : Run) (t : Task) (rows : List Entry) : Prop :=
  rows = [] ∨ t = .run ∨ ∃ state, s.task? t = some state

/-- What a move of the coroutine `t` tells: rows of its own, and perhaps a new emission. -/
inductive Tells (c : Chronicle) (s : Run) (t : Task) (s' : Run) : Prop
  | rows {rows : List Entry} (owned : s.Owned t rows) (told : Told (c.notes (.task t) rows) s')
      (emissions : s'.rt.emissions.length = s.rt.emissions.length)
  | emit {rows : List Entry} (owned : s.Owned t rows)
      (told : Told ((c.notes (.task t) rows).watch s.rt.emissions.length s.recorderSub.isSome) s')
      (emissions : s'.rt.emissions.length = s.rt.emissions.length + 1)

theorem Tells.silent (told : Told c s') (t : Task)
    (emissions : s'.rt.emissions.length = s.rt.emissions.length) : Tells c s t s' :=
  .rows (.inl rfl) (by rwa [notes_nil]) emissions

/-- Changes after the move that nobody else sees. -/
theorem Tells.of_fields {s₁ : Run} {t : Task} (tells : Tells c s t s₁) (hrt : s'.rt = s₁.rt)
    (hsub : s'.recorderSub = s₁.recorderSub) (htimeline : s'.timeline = s₁.timeline)
    (hreleases : ∀ id, s'.Releases id → s₁.Releases id)
    (goes : Goes s₁.phase s'.phase) : Tells c s t s' := by
  cases tells with
  | rows owned told emissions =>
      exact .rows owned (told.of_fields hrt hsub htimeline hreleases goes) (hrt ▸ emissions)
  | emit owned told emissions =>
      exact .emit owned (told.of_fields hrt hsub htimeline hreleases goes) (hrt ▸ emissions)

theorem Tells.setTask {s₁ : Run} {t t' : Task} (tells : Tells c s t s₁) {old : TaskState}
    (hold : s₁.task? t' = some old) {state : TaskState}
    (spared : ∀ id future k, state = .waiting id future k → s₁.rt.bus.Spares id) :
    Tells c s t (s₁.setTask t' state) := by
  have hrt : (s₁.setTask t' state).rt = s₁.rt := by cases t' <;> rfl
  cases tells with
  | rows owned told emissions => exact .rows owned (told.setTask hold spared) (hrt ▸ emissions)
  | emit owned told emissions => exact .emit owned (told.setTask hold spared) (hrt ▸ emissions)

/-- The loop is given to a coroutine, or is free. -/
theorem Tells.withCurrent {s₁ : Run} {t : Task} (tells : Tells c s t s₁) (current : Option Task) :
    Tells c s t { s₁ with current := current } :=
  tells.of_fields rfl rfl rfl (fun _ h => h.congr rfl rfl rfl) (.refl _)

theorem Told.tells (told : Told c s) (t : Task) : Tells c s t s := .silent told t rfl

theorem Told.tells_perform (told : Told c s) {t : Task} {state : TaskState}
    (ht : s.task? t = some state) (op : Op) : Tells c s t (s.perform t op) :=
  .rows (.inr (.inr ⟨state, ht⟩)) (told.perform t t op) rfl

/-- A quiet move of the bus that is no emit. -/
theorem Tells.moveBus {s₁ : Run} {t : Task} {rows : List Entry} (owned : s.Owned t rows)
    (told : Told (c.notes (.task t) rows) s₁)
    (emissions : s₁.rt.emissions.length = s.rt.emissions.length) {m : BusMove}
    (kept : Kept (c.notes (.task t) rows) s₁.recorderSub (s₁.rt.step py m))
    (same : (s₁.rt.step py m).emissions = s₁.rt.emissions) :
    Tells c s t (s₁.moveBus py engine m) := by
  refine .rows owned (told.moveBus rfl kept) ?_
  change (s₁.rt.step py m).emissions.length = _
  rw [same, emissions]

/-- `emit` on a bus that can read its patterns. -/
theorem Tells.emitting {s₁ : Run} {t : Task} {rows : List Entry} (owned : s.Owned t rows)
    (told : Told (c.notes (.task t) rows) s₁)
    (emissions : s₁.rt.emissions.length = s.rt.emissions.length)
    (hsub : s₁.recorderSub = s.recorderSub) {ev : Event} {found : List Subscription}
    (hfound : s₁.rt.bus.snapshot ev = some found) :
    Tells c s t (s₁.moveBus py engine (.emit ev)) := by
  refine .emit owned ?_ ?_
  · rw [← emissions, ← hsub]
    exact told.moveBus rfl (told.kept.emit hfound)
  · change (s₁.rt.emit ev).emissions.length = _
    rw [HookRuntime.emit, hfound, List.length_append, emissions]
    rfl

/-- Someone else than the recorder leaves. -/
theorem Told.tells_unsubscribe (told : Told c s) (t : Task) {subId : Nat}
    (other : ∀ sub, s.rt.bus.subs.get? subId = some sub → sub.callback ≠ .recorder) :
    Tells c s t (s.moveBus py engine (.unsubscribe subId)) := by
  have hkept : Kept c s.recorderSub (s.rt.step py (.unsubscribe subId)) := by
    refine told.kept.unsubscribe fun k hk => ?_
    cases hk
    exact other
  exact .silent (told.moveBus rfl hkept) t rfl

/-! ## The coroutines -/

theorem recordingPhase_of_task {state : TaskState} (h : s.task? .run = some state) :
    recordingPhase s.phase = true := by
  rw [task?_run_some h]
  rfl

theorem not_waiting_ready {bus : EventBus} {coro : Coro Unit} :
    ∀ id future k, TaskState.ready coro = .waiting id future k → bus.Spares id :=
  fun _ _ _ h => by cases h

/-- A task that ends says so in the timeline, if it failed. -/
theorem Told.tells_finish (told : Told c s) {t : Task} {state : TaskState}
    (ht : s.task? t = some state) (failure : Option Exn) : Tells c s t (s.finish t failure) := by
  cases t with
  | hookRun n =>
      exact ((told.tells (.hookRun n)).setTask ht (fun _ _ _ h => by cases h)).withCurrent none
  | run =>
      have hrec := recordingPhase_of_task ht
      cases failure with
      | none =>
          exact (told.tells .run).of_fields rfl rfl rfl (fun _ h => h.of_phase rfl rfl rfl)
            (.of_settled rfl fun _ => hrec)
      | some exn =>
          have hrow : Tells c s .run
              { s with timeline := s.timeline ++ [.metadata "initial.error" [] (some exn)] } :=
            .rows (.inr (.inl rfl)) (told.notes .run fun entry hentry => by
              rw [List.mem_singleton.mp hentry]
              rfl) rfl
          exact hrow.of_fields rfl rfl rfl (fun _ h => h.of_phase rfl rfl rfl)
            (.of_settled rfl fun _ => hrec)

/-- A coroutine that awaits an answer notes what it asks for. -/
theorem Told.tells_askFor (told : Told c s) {t : Task} {state : TaskState}
    (ht : s.task? t = some state) (op : Op) (k : Except Exn Value → Coro Unit) :
    Tells c s t (s.askFor py engine t op k) := by
  have hperform := told.tells_perform ht op
  have ht' : (s.perform t op).task? t = some state := (task?_perform t op).trans ht
  cases op with
  | recordAction | recordMeta => exact hperform.setTask ht' not_waiting_ready
  | runPj call =>
      exact ((told.tells t).setTask ht (fun _ _ _ h => by cases h)).withCurrent none
  | sleep ms => exact (hperform.setTask ht' (fun _ _ _ h => by cases h)).withCurrent none
  | waitFor eventType phone timeoutMs =>
      simp only [askFor]
      split
      · exact hperform.setTask ht' not_waiting_ready
      · next patterns _ =>
          have hnew : Callback.waiter t s.rt.bus.ids phone ≠ .recorder := fun h => by cases h
          have hsubscribed : Tells c s t ((s.perform t (.waitFor eventType phone timeoutMs)).moveBus
              py engine (.subscribe patterns (.waiter t s.rt.bus.ids phone) false)) := by
            have htold := told.perform t t (.waitFor eventType phone timeoutMs)
            refine .moveBus (.inr (.inr ⟨state, ht⟩)) htold ?_ ?_ ?_
            · rfl
            · exact htold.kept.subscribe patterns false hnew (.inl rfl)
            · rfl
          refine (hsubscribed.setTask (task?_moveBus ht' _) fun id future k' h => ?_).withCurrent none
          cases h
          exact EventBus.spares_new patterns false told.kept.lt_ids hnew
  | emit body =>
      let ev := s.stamped py body
      simp only [askFor, emitOnLoop]
      cases hfound : (s.perform t (.emit body)).rt.bus.snapshot body with
      | none => exact hperform.setTask ht' not_waiting_ready
      | some found =>
          have hemit : Tells c s t ((s.perform t (.emit body)).moveBus py engine (.emit ev)) :=
            Tells.emitting (.inr (.inr ⟨state, ht⟩)) (told.perform t t (.emit body)) rfl rfl hfound
          have hmoved : ((s.perform t (.emit body)).moveBus py engine (.emit ev)).task? t =
              some state := task?_moveBus ht' (.emit ev)
          have hlooped : Run.task?
              { (s.perform t (.emit body)).moveBus py engine (.emit ev) with
                loopEmit := some (s.perform t (.emit body)).rt.emissions.length } t = some state := by
            cases t <;> exact hmoved
          refine Tells.setTask ?_ hlooped not_waiting_ready
          exact hemit.of_fields rfl rfl rfl (fun _ h => h.congr rfl rfl rfl) (.refl _)

theorem Told.tells_goOn (told : Told c s) {t : Task} {state : TaskState}
    (ht : s.task? t = some state) (coro : Coro Unit) : Tells c s t (s.goOn py engine t coro) := by
  cases coro with
  | pure => exact told.tells_finish ht none
  | raise exn => exact told.tells_finish ht (some exn)
  | call op k => exact told.tells_askFor ht op k

/-! ## The coroutine of `run` -/

/-- `run` goes on to a settled phase. -/
theorem Tells.withPhase {s₁ : Run} {t : Task} (tells : Tells c s t s₁) (hrt : s'.rt = s₁.rt)
    (hruns : s'.runs = s₁.runs) (hsub : s'.recorderSub = s₁.recorderSub)
    (htimeline : s'.timeline = s₁.timeline) (hstop : s'.stopSubs = s₁.stopSubs)
    (hsettled : settled s'.phase = true)
    (hrec : recordingPhase s'.phase = true → recordingPhase s₁.phase = true) : Tells c s t s' :=
  tells.of_fields hrt hsub htimeline (fun _ h => h.of_phase hruns hstop hsettled)
    (.of_settled hsettled hrec)

/-- `run` emits and goes on to the next phase. -/
theorem Told.tells_emitThen (told : Told c s) (body : EventBody) {phase : Phase}
    (hsettled : settled phase = true)
    (hrec : recordingPhase phase = true → recordingPhase s.phase = true) :
    Tells c s .run (s.emitThen py engine body phase) := by
  let ev := s.stamped py body
  simp only [emitThen, emitOnLoop]
  cases hfound : s.rt.bus.snapshot body with
  | none => exact (told.tells .run).withPhase rfl rfl rfl rfl rfl rfl fun h => by cases h
  | some found =>
      have htold : Told (c.notes (.task .run) []) s := by rwa [notes_nil]
      have hemit : Tells c s .run (s.moveBus py engine (.emit ev)) :=
        Tells.emitting (.inl rfl) htold rfl rfl hfound
      exact hemit.withPhase rfl rfl rfl rfl rfl hsettled hrec

theorem Told.tells_subscribeStop (told : Told c s) {spec : Dict} {rest : List Dict}
    (hphase : s.phase = .subscribing (spec :: rest)) :
    Tells c s .run (s.subscribeStop py engine spec rest) := by
  have hrec : recordingPhase s.phase = true := by rw [hphase]; rfl
  simp only [subscribeStop]
  split
  · exact (told.tells .run).withPhase rfl rfl rfl rfl rfl rfl fun _ => hrec
  · split
    · next patterns _ _ =>
        have hnew : Callback.stop spec ≠ .recorder := fun h => by cases h
        have hkept := told.kept.subscribe patterns false hnew (.inl rfl)
        have hmoved : Told c (s.moveBus py engine (.subscribe patterns (.stop spec) false)) :=
          told.moveBus rfl hkept
        refine .silent ?_ _ ?_
        · refine ⟨⟨fun id h => ?_, fun h => ?_, fun _ => ?_⟩, hkept, told.rows⟩
          · cases h with
            | waiting h =>
                obtain ⟨t, future, k, ht⟩ := h
                cases t with
                | run => cases ht
                | hookRun n => exact hmoved.guarded.spared id (.waiting ⟨.hookRun n, future, k, ht⟩)
            | stop h =>
                rcases List.mem_append.mp h with h | h
                · exact hmoved.guarded.spared id (.stop h)
                · rw [List.mem_singleton.mp h]
                  exact EventBus.spares_new patterns false told.kept.lt_ids hnew
            | unsubscribing h => cases h
          · cases h
          · exact told.guarded.attached hrec
        · rfl
    · exact (told.tells .run).withPhase rfl rfl rfl rfl rfl rfl fun h => by cases h

/-- `run` leaves its wait, with its stop conditions to give back. -/
theorem Told.tells_leave (told : Told c s) {t : Task} (hphase : s.phase = .awaiting)
    (status : String) (reason : Text) : Tells c s t (s.leave status reason) := by
  refine (told.tells t).of_fields rfl rfl rfl (fun id h => ?_) ⟨fun h => ?_, fun _ => ?_⟩
  · refine h.of_not_waiting rfl rfl (fun _ _ h => by cases h) fun _ _ h hid => ?_
    cases h
    exact .stop hid
  · cases h
  · rw [hphase]
    rfl

/-- The start of the recorder. -/
theorem Told.tells_enter (told : Told c s) (hphase : s.phase = .entering) :
    Tells c s .run
      { s.moveBus py engine (.subscribe [.str ['*']] .recorder false) with
        recorderSub := some s.rt.bus.ids
        timeline := s.timeline ++ [.metadata "scenario.started" [("name".toList,
          .str scenario.name), ("phones".toList, .list scenario.phones)] none]
        phase := .arming scenario.hooks } := by
  have hnone : s.recorderSub = none := told.guarded.fresh hphase
  have hkept : Kept c (some s.rt.bus.ids)
      (s.rt.step py (.subscribe [.str ['*']] .recorder false)) := by
    have hkept := told.kept
    rw [hnone] at hkept
    exact hkept.start
  have hguarded : (s.moveBus py engine (.subscribe [.str ['*']] .recorder false)).Guarded :=
    told.guarded.moveBus _
  have htold : Told (c.notes (.task .run) [.metadata "scenario.started" [("name".toList,
      .str scenario.name), ("phones".toList, .list scenario.phones)] none])
      { s.moveBus py engine (.subscribe [.str ['*']] .recorder false) with
        recorderSub := some s.rt.bus.ids
        timeline := s.timeline ++ [.metadata "scenario.started" [("name".toList,
          .str scenario.name), ("phones".toList, .list scenario.phones)] none]
        phase := .arming scenario.hooks } := by
    refine ⟨⟨fun id h => ?_, fun h => ?_, fun _ => rfl⟩,
      hkept.notes .run (fun entry hentry => ?_), ?_⟩
    · exact hguarded.spared id (h.of_phase rfl rfl rfl)
    · cases h
    · rw [List.mem_singleton.mp hentry]
      rfl
    · rw [Chronicle.notes, List.map_append, told.rows]
      rfl
  exact .rows (.inr (.inl rfl)) htold rfl

/-- The stop of the recorder: the hooks are gone. -/
theorem Told.tells_detach (told : Told c s) (sound : s.Sound) {outcome : Outcome} {subId : Nat}
    (hphase : s.phase = .detaching outcome) (hsub : s.recorderSub = some subId) :
    Tells c s .run { s.moveBus py engine (.unsubscribe subId) with
      recorderSub := none, phase := .returning outcome } := by
  have hbare : ∀ h, ¬s.rt.Attached h := fun h => sound.inPhase.detached h (by rw [hphase]; trivial)
  have hkept : Kept c none { s.rt with bus := s.rt.bus.unsubscribe (some subId) } := by
    have hkept := told.kept
    rw [hsub] at hkept
    exact hkept.stop hbare
  have hguarded : (s.moveBus py engine (.unsubscribe subId)).Guarded := told.guarded.moveBus _
  refine .silent ?_ _ ?_
  · refine ⟨⟨fun id h => ?_, fun h => ?_, fun h => ?_⟩, hkept, told.rows⟩
    · exact hguarded.spared id (h.of_phase rfl rfl rfl)
    · cases h
    · cases h
  · rfl

theorem Told.tells_goes (told : Told c s) {registered : List Nat} {p p' : Phase}
    (hphase : s.phase = p) (goes : Phase.Goes scenario registered p p') :
    Tells c s .run { s with phase := p' } := by
  have hrec : recordingPhase s.phase = true := by
    rw [hphase]
    cases goes <;> rfl
  cases goes with
  | act =>
      refine (told.tells .run).of_fields rfl rfl rfl (fun id h => ?_) ⟨fun h => ?_, fun _ => hrec⟩
      · exact h.of_not_waiting rfl rfl (fun _ _ h => by cases h) fun _ _ h => by cases h
      · cases h
  | _ => exact (told.tells .run).withPhase rfl rfl rfl rfl rfl rfl fun _ => hrec

theorem Told.tells_moves (told : Told c s) {p p' : Phase} {m : BusMove} (hphase : s.phase = p)
    (moves : Phase.Moves py s.rt p m p') :
    Tells c s .run { s.moveBus py engine m with phase := p' } := by
  have hrec : recordingPhase s.phase = true := by
    rw [hphase]
    cases moves <;> rfl
  have hmoved : ∀ {m : BusMove}, Kept c s.recorderSub (s.rt.step py m) →
      (s.rt.step py m).emissions = s.rt.emissions → Tells c s .run (s.moveBus py engine m) :=
    fun kept same => .silent (told.moveBus rfl kept) _ (congrArg List.length same)
  cases moves with
  | @arm spec =>
      have harm : Tells c s .run (s.moveBus py engine (.arm spec "<scenario>".toList)) := by
        refine hmoved (told.kept.arm (told.guarded.attached hrec) py spec _) ?_
        rcases HookRuntime.arm_cases py s.rt spec "<scenario>".toList with hsame | ⟨_, -, harm⟩
        · rw [HookRuntime.step, hsame]
        · rw [HookRuntime.step, harm]
      exact harm.withPhase rfl rfl rfl rfl rfl rfl fun _ => hrec
  | @assign h =>
      have hassign : Tells c s .run (s.moveBus py engine (.assign h)) :=
        hmoved (told.kept.assign h) (HookRuntime.assign_emissions s.rt h)
      exact hassign.withPhase rfl rfl rfl rfl rfl rfl fun _ => hrec
  | @remove h =>
      have hremoved : Tells c s .run (s.moveBus py engine (.remove h)) :=
        hmoved (told.kept.remove h) (HookRuntime.remove_emissions s.rt h)
      exact hremoved.withPhase rfl rfl rfl rfl rfl rfl fun _ => hrec
  | @unsubscribe subId =>
      have hspared := told.guarded.spared subId (.unsubscribing hphase List.mem_cons_self)
      have hgone : Tells c s .run (s.moveBus py engine (.unsubscribe subId)) :=
        told.tells_unsubscribe .run hspared.2
      refine hgone.of_fields rfl rfl rfl (fun id h => ?_) ⟨fun h => ?_, fun _ => hrec⟩
      · refine h.of_not_waiting rfl rfl (fun _ _ h => by cases h) fun _ _ h hid => ?_
        cases h
        exact .unsubscribing hphase (List.mem_cons_of_mem _ hid)
      · cases h

theorem Told.tells_emits (told : Told c s) {info : Option RegInfo} {p p' : Phase}
    {body : EventBody} (hphase : s.phase = p) (emits : Phase.Emits scenario info p body p') :
    Tells c s .run (s.emitThen py engine body p') := by
  have hrec : recordingPhase s.phase = true := by
    rw [hphase]
    cases emits <;> rfl
  cases emits with
  | replay | start | stop => exact told.tells_emitThen _ rfl fun _ => hrec

/-- The last row of the recorder. -/
theorem Told.tells_lastRow (told : Told c s) {outcome : Outcome}
    (hphase : s.phase = .finishing outcome) :
    Tells c s .run { s with
      timeline := s.timeline ++ [.metadata "scenario.stopped" (outcomeData outcome) none]
      phase := .detaching outcome } := by
  have hrow : Tells c s .run { s with
      timeline := s.timeline ++ [.metadata "scenario.stopped" (outcomeData outcome) none] } :=
    .rows (.inr (.inl rfl))
      (told.notes .run fun entry hentry => by rw [List.mem_singleton.mp hentry]; rfl) rfl
  refine hrow.withPhase rfl rfl rfl rfl rfl rfl fun _ => ?_
  rw [hphase]
  rfl

theorem Told.tells_nextMove (told : Told c s) (sound : s.Sound) {info : Option RegInfo}
    (h : NextMove py engine scenario s info s') : Tells c s .run s' := by
  cases h with
  | enter phase => exact told.tells_enter phase
  | refuse phase =>
      refine (told.tells .run).withPhase rfl rfl rfl rfl rfl rfl fun _ => ?_
      rw [phase]
      rfl
  | go phase goes => exact told.tells_goes phase goes
  | move phase moves => exact told.tells_moves phase moves
  | emit phase emits => exact told.tells_emits phase emits
  | subscribe phase => exact told.tells_subscribeStop phase
  | leave phase => exact told.tells_leave phase _ _
  | wait phase =>
      refine (told.tells .run).withPhase rfl rfl rfl rfl rfl rfl fun _ => ?_
      rw [phase]
      rfl
  | finish phase => exact told.tells_lastRow phase
  | detach phase recorder => exact told.tells_detach sound phase recorder
  | detached | ret =>
      exact (told.tells .run).withPhase rfl rfl rfl rfl rfl rfl fun h => by cases h
  | idle => exact told.tells .run

theorem Told.tells_runNext (told : Told c s) (sound : s.Sound) (info : Option RegInfo) :
    Tells c s .run (s.runNext py engine scenario info) :=
  told.tells_nextMove sound (s.runNext_spec info)

/-! ## The moves -/

/-- The id under which a coroutine waits is not the recorder's. -/
theorem Guarded.waiting (h : s.Guarded) {t : Task} {subId : Nat} {future : Future}
    {k : Except Exn Value → Coro Unit} (ht : s.task? t = some (.waiting subId future k)) :
    s.rt.bus.Spares subId :=
  h.spared subId (.waiting ⟨t, future, k, ht⟩)

theorem Told.tells_next (told : Told c s) (sound : s.Sound) {t : Task} (holds : s.current = some t)
    (info : Option RegInfo) : Tells c s t (s.next py engine scenario info) := by
  simp only [next, holds]
  split
  · next heq _ =>
      cases heq
      split
      · next coro ht => exact told.tells_goOn ht coro
      · split_ifs with hrun
        · rw [hrun]
          exact told.tells_runNext sound info
        · exact told.tells t
  · exact told.tells t

/-- A task takes its turn; a wait that is over gives its subscription back. -/
theorem Told.tells_turn (told : Told c s) (t t' : Task) :
    Tells c s t (s.turn py engine scenario t') := by
  simp only [turn]
  split
  · exact told.tells t
  · split
    · exact (told.tells t).withCurrent _
    · next subId future k ht' =>
        split
        · have hgone : Tells c s t (s.moveBus py engine (.unsubscribe subId)) :=
            told.tells_unsubscribe t (told.guarded.waiting ht').2
          exact (hgone.setTask (task?_moveBus ht' _) not_waiting_ready).withCurrent _
        · exact told.tells t
    · split
      · next hphase _ _ =>
          split
          · exact told.tells_leave hphase _ _
          · exact told.tells t
      · exact told.tells t

theorem Told.tells_wake (told : Told c s) (t t' : Task) : Tells c s t (s.wake t') := by
  simp only [wake]
  split
  · next k ht' => exact (told.tells t).setTask ht' not_waiting_ready
  · exact told.tells t

/-- A coroutine keeps on waiting. -/
theorem Told.tells_future (told : Told c s) (t : Task) {t' : Task} {subId : Nat} {future : Future}
    {k : Except Exn Value → Coro Unit} (ht' : s.task? t' = some (.waiting subId future k))
    (future' : Future) : Tells c s t (s.setTask t' (.waiting subId future' k)) := by
  refine (told.tells t).setTask ht' fun id f k' h => ?_
  cases h
  exact told.guarded.waiting ht'

theorem Told.tells_expire (told : Told c s) (t t' : Task) :
    Tells c s t (s.expire py scenario t') := by
  simp only [expire]
  split
  · exact told.tells t
  · split
    · next subId future k ht' => exact told.tells_future t ht' _
    · split
      · next hphase _ =>
          split
          · exact told.tells_leave hphase _ _
          · have hleave : Tells c s t (s.leave "timeout"
                ("timeout after ".toList ++ py.str (.int scenario.timeoutMs) ++ "ms".toList)) :=
              told.tells_leave hphase _ _
            exact hleave.of_fields rfl rfl rfl (fun _ h => h.congr rfl rfl rfl) (.refl _)
      · exact told.tells t

theorem Told.tells_settle (told : Told c s) (t t' : Task) : Tells c s t (s.settle t') := by
  simp only [settle]
  split
  · exact told.tells t
  · split
    · next subId future k ht' => exact told.tells_future t ht' _
    · exact told.tells t

theorem Told.tells_settleStop (told : Told c s) (t : Task) : Tells c s t s.settleStop := by
  simp only [settleStop]
  split
  · exact told.tells t
  · exact (told.tells t).of_fields rfl rfl rfl (fun _ h => h.congr rfl rfl rfl) (.refl _)

/-- The answer of the job is handed on silently. -/
theorem Told.tells_runJob (told : Told c s) (t t' : Task) (answer : Except Exn Value) :
    Tells c s t (s.runJob t' answer) := by
  simp only [runJob]
  split
  · next call k ht' =>
      have hperform : Told c (s.perform t' (.runPj call)) := by
        have htold := told.perform t t' (.runPj call)
        rwa [show (Op.runPj call).row?.toList = [] from rfl, notes_nil] at htold
      have hjob : Tells c s t (s.perform t' (.runPj call)) := .silent hperform t rfl
      exact hjob.setTask ((task?_perform t' (.runPj call)).trans ht') not_waiting_ready
  · exact told.tells t

/-- Another thread uses the bus. -/
theorem Told.tells_bus (told : Told c s) (t : Task) {m : BusMove}
    (en : s.enabled (.bus m) = true) (other : ∀ i, m ≠ .advance i) :
    Tells c s t (s.moveBus py engine m) := by
  cases m with
  | subscribe patterns callback once =>
      have hforeign : callback = .foreign := by
        cases callback <;> first | rfl | cases en
      have hkept : Kept c s.recorderSub (s.rt.step py (.subscribe patterns callback once)) := by
        rw [hforeign]
        exact told.kept.subscribe patterns once (fun h => by cases h) (.inl rfl)
      exact .silent (told.moveBus rfl hkept) t rfl
  | unsubscribe subId =>
      refine told.tells_unsubscribe t fun sub hget hrec => ?_
      simp only [enabled, hget, hrec] at en
      cases en
  | emit ev =>
      cases hfound : s.rt.bus.snapshot ev with
      | none =>
          have hsame : s.rt.step py (.emit ev) = s.rt := by
            simp only [HookRuntime.step, HookRuntime.emit, hfound]
          have hkept : Kept c s.recorderSub (s.rt.step py (.emit ev)) := by
            rw [hsame]
            exact told.kept
          refine .silent (told.moveBus rfl hkept) t ?_
          change (s.rt.step py (.emit ev)).emissions.length = _
          rw [hsame]
      | some found =>
          have htold : Told (c.notes (.task t) []) s := by rwa [notes_nil]
          exact .emitting (.inl rfl) htold rfl rfl hfound
  | arm | assign | remove => cases en
  | advance i => exact (other i rfl).elim

end Run

end PjsuaMcp.Scenario
