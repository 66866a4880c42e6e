import PjsuaMcp.Scenario.AfterReturn
import PjsuaMcp.Scenario.Validator

/-!
# What an `ok` report promises of the run

The validator, `arm`, the set-up of the stop conditions and the executor each
convert the same values by themselves. Where all of them accept a scenario, the
run arms every hook with the action specs that the validator has gone through,
and subscribes every stop condition.

## Implementation notes

`Phase.left` is what the set-up of `run` has still before it, so that one
invariant speaks about the set-up and about everything after it.
-/

namespace PjsuaMcp.Scenario

open Library

/-- The entries of `hooks` and of `stop_on` that `run` has still to go through. -/
def Phase.left (scn : ScenarioSpec) : Phase → List Dict × List Dict
  | entering => (scn.hooks, scn.stopOn)
  | arming rest | assigning _ rest => (rest, scn.stopOn)
  | subscribing rest => ([], rest)
  | _ => ([], [])

theorem Phase.left_of_inWait {scn : ScenarioSpec} {phase : Phase} (h : phase.inWait = true) :
    phase.left scn = ([], []) := by
  cases phase with
  | acting | awaiting | unsubscribing => rfl
  | _ => cases h

theorem Phase.Next.left {scn : ScenarioSpec} {phase phase' : Phase}
    (next : Phase.Next scn phase phase') (hstop : ∀ spec rest, phase ≠ .subscribing (spec :: rest)) :
    phase'.left scn = phase.left scn := by
  cases next with
  | skip | raiseSubscribing => exact absurd rfl (hstop _ _)
  | _ => rfl

/-- The executor has a handler for the action. -/
def Dispatched (py : PyText) (engine : Bool) (spec : Value) : Prop :=
  ∃ name args, normalizeAction py spec = .ok (name, args) ∧
    ∃ entry ∈ dispatch py engine, entry.1.toList = name

/-- The hook has the patterns of the entry and the specs that the validator goes through. -/
structure ArmedAs (h : Dict) (hook : Hook) : Prop where
  when : patternList (h.get "when") = some hook.when
  actions : validatedSpecs h = some hook.thenActions

/-- Between the two states `run` has made the subscription of the `stop_on` entry. -/
def SubscribesStop (spec : Dict) (s s' : Run) : Prop :=
  ∃ patterns, patternList (spec.get "event") = some patterns ∧
    s'.rt.bus.subs.get? s.rt.bus.ids =
      some ⟨s.rt.bus.ids, patterns, .stop spec, false, true⟩ ∧
    s'.stopSubs = s.stopSubs ++ [s.rt.bus.ids]

/-- The run does with the scenario what the validator has looked at. -/
structure Faithful (py : PyText) (engine : Bool) (scn : ScenarioSpec) (s : Run) : Prop where
  /-- No hook has failed to arm. -/
  errors : ∀ e ∈ s.errors, e.1 ≠ "scenario_hooks"
  /-- The hooks are those of the entries that `run` has gone through, in their order. -/
  armed : ∃ done, done ++ (s.phase.left scn).1 = scn.hooks ∧ List.Forall₂ ArmedAs done s.rt.hooks
  /-- What a hook gives to the loop executes the specs of its entry, with handlers for all. -/
  spawned : ∀ m, HookRuntime.enabled m = true →
    ∀ state ∈ (s.moveBus py engine m).runs.drop s.runs.length,
      ∃ h ∈ scn.hooks, ∃ specs hook ev, validatedSpecs h = some specs ∧
        (∀ spec ∈ specs, Dispatched py engine spec) ∧
        state = .ready (execute py engine specs hook ev)
  initial : ∀ spec ∈ scn.initialActions, Dispatched py engine spec
  /-- `run` has a subscription for every `stop_on` entry that it has gone through. -/
  subscribed : ∃ done, done ++ (s.phase.left scn).2 = scn.stopOn ∧ done.length = s.stopSubs.length
  subscribes : ∀ info spec rest, s.phase = .subscribing (spec :: rest) → s.current = some .run →
    s.loopEmit = none → SubscribesStop spec s (s.step py engine scn (.next info))

/-- The validator returns a report, and an `ok` report is kept by every run. -/
def PreflightSound (py : PyText) (engine : Bool) (d : Dict) : Prop :=
  ∃ report, validateDict py d = .ok report ∧
    (report.status = "ok" → ∀ scn, ScenarioSpec.fromDict py d = .ok scn →
      ∀ s, (scenarioSystem py engine scn).Reachable s → Faithful py engine scn s)

/-! ## What the other readers accept -/

def Value.strOrList : Value → Bool
  | str _ | list _ => true
  | _ => false

/-- `dict(spec.get("match") or {})` succeeds. -/
def MatchReadable (spec : Dict) : Prop := ((spec.get "match").or (.dict [])).toEntries?.isSome = true

/-- `arm` accepts the `when` and the `match` of the entry. -/
structure Armable (h : Dict) : Prop where
  when : (h.get "when").strOrList = true
  matched : MatchReadable h

/-- The set-up makes a subscription of the entry. -/
structure Subscribable (spec : Dict) : Prop where
  truthy : (spec.get "event").truthy = true
  event : (patternList (spec.get "event")).isSome = true
  matched : MatchReadable spec

/-- The validator can go through the hooks; and when it finds nothing, the other readers accept
the hooks and the stop conditions too. -/
structure Agreed (py : PyText) (scn : ScenarioSpec) : Prop where
  checkable : ∀ h ∈ scn.hooks, Checkable h
  armable : Clean py scn → ∀ h ∈ scn.hooks, Armable h
  subscribable : Clean py scn → ∀ spec ∈ scn.stopOn, Subscribable spec

section Readers

variable {py : PyText} {engine : Bool}

theorem validatedSpecs_eq (h : Dict) :
    validatedSpecs h = ((h.get "then").or (.list [])).elements? := by
  simp only [validatedSpecs, Dict.getOr, Dict.get]
  cases h.get? "then" with
  | none => rfl
  | some v => rfl

theorem Dispatched.of_known {spec : Value} (known : KnownAction py spec) :
    Dispatched py engine spec := by
  obtain ⟨name, args, hread, hname⟩ := known
  obtain ⟨key, hkey, rfl⟩ := List.mem_map.mp hname
  have hkeys : (dispatch py engine).map Prod.fst = knownActions := rfl
  rw [← hkeys] at hkey
  obtain ⟨entry, hentry, rfl⟩ := List.mem_map.mp hkey
  exact ⟨_, args, hread, entry, hentry, rfl⟩

/-- `arm` accepts an entry with a readable `when`, `match` and `then`. -/
theorem ofSpec_of_armable {hookId : Text} {h : Dict} {patternName : Text} (arm : Armable h)
    {specs : List Value} (hspecs : validatedSpecs h = some specs) :
    ∃ hook, Hook.ofSpec py hookId h patternName = .ok hook := by
  obtain ⟨entries, hentries⟩ := Option.isSome_iff_exists.mp arm.matched
  rw [validatedSpecs_eq] at hspecs
  have hwhen := arm.when
  cases hv : h.get "when" with
  | str | list =>
      simp only [Hook.ofSpec, hv, hentries, hspecs]
      exact ⟨_, rfl⟩
  | _ =>
      rw [hv] at hwhen
      cases hwhen

/-- What `arm` has accepted, and what it has made of it. -/
theorem ofSpec_ok {hookId : Text} {h : Dict} {patternName : Text} {hook : Hook}
    (hok : Hook.ofSpec py hookId h patternName = .ok hook) : Armable h ∧ ArmedAs h hook := by
  cases hm : ((h.get "match").or (.dict [])).toEntries? with
  | none =>
      cases hv : h.get "when" <;> simp only [Hook.ofSpec, hv, hm] at hok <;> cases hok
  | some entries =>
      have hmatch : MatchReadable h := Option.isSome_of_eq_some hm
      cases ht : ((h.get "then").or (.list [])).elements? with
      | none =>
          cases hv : h.get "when" <;> simp only [Hook.ofSpec, hv, hm, ht] at hok <;> cases hok
      | some specs =>
          have hspecs : validatedSpecs h = some specs := (validatedSpecs_eq h).trans ht
          cases hv : h.get "when" with
          | str | list =>
              simp only [Hook.ofSpec, hv, hm, ht] at hok
              cases hok
              refine ⟨⟨?_, hmatch⟩, ?_, hspecs⟩ <;> rw [hv] <;> rfl
          | _ =>
              simp only [Hook.ofSpec, hv] at hok
              cases hok

theorem subscribeStop_of_subscribable (py : PyText) (engine : Bool) (s : Run) {spec : Dict}
    (sub : Subscribable spec) (rest : List Dict) :
    ∃ patterns, patternList (spec.get "event") = some patterns ∧
      s.subscribeStop py engine spec rest =
        { s.moveBus py engine (.subscribe patterns (.stop spec) false) with
          stopSubs := s.stopSubs ++ [s.rt.bus.ids]
          phase := .subscribing rest } := by
  obtain ⟨patterns, hpatterns⟩ := Option.isSome_iff_exists.mp sub.event
  obtain ⟨entries, hentries⟩ := Option.isSome_iff_exists.mp sub.matched
  refine ⟨patterns, hpatterns, ?_⟩
  simp only [Run.subscribeStop, sub.truthy, hpatterns, hentries, Bool.not_true,
    Bool.false_eq_true, if_false]

theorem subscribesStop_of_subscribable {s : Run} {spec : Dict} {rest : List Dict}
    (sub : Subscribable spec) : SubscribesStop spec s (s.subscribeStop py engine spec rest) := by
  obtain ⟨patterns, hpatterns, heq⟩ := subscribeStop_of_subscribable py engine s sub rest
  rw [heq]
  exact ⟨patterns, hpatterns, OrderedDict.get?_set_self _ _ _, rfl⟩

/-- The set-up makes no subscription of any other entry. -/
theorem subscribable_of_subscribes {s : Run} {spec : Dict} {rest : List Dict}
    (h : SubscribesStop spec s (s.subscribeStop py engine spec rest)) : Subscribable spec := by
  obtain ⟨patterns, hpatterns, _, hstops⟩ := h
  have hnew : s.stopSubs ≠ s.stopSubs ++ [s.rt.bus.ids] := by simp
  cases htruthy : (spec.get "event").truthy with
  | false =>
      simp only [Run.subscribeStop, htruthy, Bool.not_false, if_true] at hstops
      exact absurd hstops hnew
  | true =>
      refine ⟨htruthy, Option.isSome_of_eq_some hpatterns, ?_⟩
      by_contra hmatch
      rw [MatchReadable, Option.not_isSome_iff_eq_none] at hmatch
      simp only [Run.subscribeStop, htruthy, hmatch, Bool.not_true, Bool.false_eq_true,
        if_false] at hstops
      exact hnew hstops

end Readers

namespace Run

variable {py : PyText} {engine : Bool} {scn : ScenarioSpec} {s s' : Run}

/-! ## Moves outside of the set-up -/

/-- The set-up does not go on, and no hook is armed. -/
structure KeepsSetUp (py : PyText) (scn : ScenarioSpec) (s s' : Run) : Prop where
  rt : s'.rt = s.rt ∨
    ∃ m, (∀ spec patternName, m ≠ BusMove.arm spec patternName) ∧ s'.rt = s.rt.step py m
  setUp : s'.setUp = s.setUp
  left : s'.phase.left scn = s.phase.left scn

theorem LoopStep.setUp (h : LoopStep py engine s s') : s'.setUp = s.setUp := by
  obtain ⟨s₁, s₂, s₃, hperforms, hlocal, hmoves, hlocal'⟩ := h
  have h₁ : s₁.setUp = s.setUp := by
    rcases hperforms with rfl | ⟨_, _, _, rfl⟩ <;> rfl
  have h₃ : s₃.setUp = s₂.setUp := by
    rcases hmoves with rfl | ⟨_, _, rfl⟩ <;> rfl
  rw [hlocal'.setUp, h₃, hlocal.setUp, h₁]

theorem LoopStep.keepsSetUp (h : LoopStep py engine s s') : KeepsSetUp py scn s s' where
  rt := by
    rcases h.rt with hrt | ⟨m, quiet, hrt⟩
    · exact .inl hrt
    · exact .inr ⟨m, m.not_arm_of_quiet quiet, hrt⟩
  setUp := h.setUp
  left := by
    rcases h.phase with heq | ⟨hin, hout⟩
    · rw [heq]
    · rw [Phase.left_of_inWait hin, Phase.left_of_inWait hout]

/-- Only the moves that go through an entry of `hooks` or `stop_on` go on in the set-up. -/
theorem RunStep.keepsSetUp (h : RunStep py engine scn s s')
    (harm : ∀ spec rest, s.phase ≠ .arming (spec :: rest))
    (hstop : ∀ spec rest, s.phase ≠ .subscribing (spec :: rest)) : KeepsSetUp py scn s s' := by
  cases h with
  | plain same next => exact ⟨.inl same.rt, same.setUp, next.left hstop⟩
  | bus m quiet same next =>
      exact ⟨.inr ⟨m, m.not_arm_of_quiet quiet, same.rt⟩, same.setUp, next.left hstop⟩
  | refuse hphase | arm hphase => exact absurd hphase (harm _ _)
  | subscribe hphase => exact absurd hphase (hstop _ _)
  | @assign i rest hphase => exact ⟨.inr ⟨.assign i, by simp, rfl⟩, rfl, by rw [hphase]; rfl⟩
  | beginRemoving hphase => exact ⟨.inl rfl, rfl, by rw [hphase]; rfl⟩
  | @remove i rest outcome hphase =>
      exact ⟨.inr ⟨.remove i, by simp, rfl⟩, rfl, by rw [hphase]; rfl⟩

/-! ## The set-up of a scenario that all readers accept -/

/-- The hooks and the subscriptions are those of the entries gone through so far. -/
structure InSetUp (scn : ScenarioSpec) (s : Run) : Prop where
  errors : s.setUp.2 = []
  armed : ∃ done, done ++ (s.phase.left scn).1 = scn.hooks ∧ List.Forall₂ ArmedAs done s.rt.hooks
  subscribed : ∃ done, done ++ (s.phase.left scn).2 = scn.stopOn ∧ done.length = s.setUp.1.length

theorem armed_step {rt : HookRuntime} {m : BusMove} {done : List Dict}
    (hm : ∀ spec patternName, m ≠ .arm spec patternName)
    (armed : List.Forall₂ ArmedAs done rt.hooks) : List.Forall₂ ArmedAs done (rt.step py m).hooks := by
  rw [List.forall₂_iff_get] at armed ⊢
  obtain ⟨hlen, hget⟩ := armed
  have hlen' := HookRuntime.length_hooks_of_not_arm (s := rt) py hm
  refine ⟨hlen.trans hlen'.symm, fun i hi hi' => ?_⟩
  have hold : i < rt.hooks.length := hlen' ▸ hi'
  obtain ⟨subId, hnew⟩ := HookRuntime.hooks_step py m (List.getElem?_eq_getElem hold)
  have hsame : (rt.step py m).hooks[i] = { rt.hooks[i] with subId := subId } :=
    (List.getElem?_eq_some_iff.mp hnew).2
  obtain ⟨hwhen, hactions⟩ := hget i hi hold
  simp only [List.get_eq_getElem, hsame]
  exact ⟨hwhen, hactions⟩

theorem InSetUp.keep (inv : InSetUp scn s) (h : KeepsSetUp py scn s s') : InSetUp scn s' where
  errors := h.setUp ▸ inv.errors
  armed := by
    obtain ⟨done, hdone, hooks⟩ := inv.armed
    refine ⟨done, h.left ▸ hdone, ?_⟩
    rcases h.rt with hsame | ⟨m, hm, hmove⟩
    · exact hsame ▸ hooks
    · exact hmove ▸ armed_step hm hooks
  subscribed := h.setUp ▸ h.left ▸ inv.subscribed

/-- A hook that `arm` accepts joins the hooks. -/
theorem InSetUp.arm (inv : InSetUp scn s) {spec : Dict} {rest : List Dict} {hook : Hook}
    (hphase : s.phase = .arming (spec :: rest))
    (hok : Hook.ofSpec py (py.uuid s.rt.hooks.length) spec "<scenario>".toList = .ok hook)
    (info : Option RegInfo) : InSetUp scn (s.runNext py engine scn info) := by
  have hnext : s.runNext py engine scn info =
      { s.moveBus py engine (.arm spec "<scenario>".toList) with
        phase := .assigning s.rt.hooks.length rest } := by
    simp only [Run.runNext, hphase, hok]
  have hhooks : (s.rt.step py (.arm spec "<scenario>".toList)).hooks = s.rt.hooks ++ [hook] := by
    simp only [HookRuntime.step, HookRuntime.arm, hok]
  obtain ⟨done, hdone, hooks⟩ := inv.armed
  rw [hphase] at hdone
  rw [hnext]
  refine ⟨inv.errors, ⟨done ++ [spec], by simpa [Phase.left] using hdone, ?_⟩, ?_⟩
  · change List.Forall₂ ArmedAs (done ++ [spec])
      (s.rt.step py (.arm spec "<scenario>".toList)).hooks
    rw [hhooks]
    exact List.rel_append hooks (.cons (ofSpec_ok hok).2 .nil)
  · have hsub := inv.subscribed
    rw [hphase] at hsub
    exact hsub

/-- An entry that can be subscribed joins the subscriptions. -/
theorem InSetUp.subscribe (inv : InSetUp scn s) {spec : Dict} {rest : List Dict}
    (hphase : s.phase = .subscribing (spec :: rest)) (sub : Subscribable spec)
    (info : Option RegInfo) : InSetUp scn (s.runNext py engine scn info) := by
  obtain ⟨patterns, _, heq⟩ := subscribeStop_of_subscribable py engine s sub rest
  have hnext : s.runNext py engine scn info = s.subscribeStop py engine spec rest := by
    simp only [Run.runNext, hphase]
  rw [hnext, heq]
  refine ⟨inv.errors, ?_, ?_⟩
  · have harmed := inv.armed
    rw [hphase] at harmed
    exact harmed
  · obtain ⟨done, hdone, hlen⟩ := inv.subscribed
    rw [hphase] at hdone
    refine ⟨done ++ [spec], by simpa [Phase.left] using hdone, ?_⟩
    simpa [setUp] using hlen

/-- Every state of a run of a scenario that the validator and the other readers accept. -/
theorem reachable_inSetUp (agreed : Agreed py scn) (clean : Clean py scn)
    (run : (scenarioSystem py engine scn).Reachable s) : InSetUp scn s := by
  refine run.invariant (P := InSetUp scn) ⟨rfl, ⟨[], rfl, .nil⟩, [], rfl, rfl⟩ ?_
  intro s a en _ inv
  rcases step_cases en with hloop | ⟨info, _, hnext⟩
  · exact inv.keep (LoopStep.keepsSetUp hloop)
  · change InSetUp scn (s.step py engine scn a)
    rw [hnext]
    by_cases harm : ∃ spec rest, s.phase = .arming (spec :: rest)
    · obtain ⟨spec, rest, hphase⟩ := harm
      obtain ⟨done, hdone, _⟩ := inv.armed
      have hspec : spec ∈ scn.hooks := by
        rw [← hdone, hphase]
        exact List.mem_append_right done List.mem_cons_self
      have hthen := (agreed.checkable spec hspec (clean.hooks spec hspec).when).2
      obtain ⟨specs, hspecs⟩ := Option.isSome_iff_exists.mp hthen
      obtain ⟨hook, hok⟩ := ofSpec_of_armable (agreed.armable clean spec hspec) hspecs
      exact inv.arm hphase hok info
    · by_cases hstop : ∃ spec rest, s.phase = .subscribing (spec :: rest)
      · obtain ⟨spec, rest, hphase⟩ := hstop
        obtain ⟨done, hdone, _⟩ := inv.subscribed
        have hspec : spec ∈ scn.stopOn := by
          rw [← hdone, hphase]
          exact List.mem_append_right done List.mem_cons_self
        exact inv.subscribe hphase (agreed.subscribable clean spec hspec) info
      · refine inv.keep ((runNext_cases info).keepsSetUp ?_ ?_)
        · exact fun spec rest h => harm ⟨spec, rest, h⟩
        · exact fun spec rest h => hstop ⟨spec, rest, h⟩

theorem mem_hooks_of_armed {done rest : List Dict} (hdone : done ++ rest = scn.hooks)
    {hooks : List Hook} (armed : List.Forall₂ ArmedAs done hooks) {i : Nat} {hook : Hook}
    (obj : hooks[i]? = some hook) : ∃ h ∈ scn.hooks, ArmedAs h hook := by
  rw [List.forall₂_iff_get] at armed
  obtain ⟨hi, rfl⟩ := List.getElem?_eq_some_iff.mp obj
  have hdi : i < done.length := armed.1 ▸ hi
  refine ⟨done[i], ?_, armed.2 i hdi hi⟩
  rw [← hdone]
  exact List.mem_append_left rest (List.getElem_mem hdi)

/-- What a move of the bus gives to the loop is the execution of a hook's own actions. -/
theorem spawned_of_moveBus (sound : s.Sound) {m : BusMove} {state : TaskState}
    (hstate : state ∈ (s.moveBus py engine m).runs.drop s.runs.length) :
    ∃ (i : Nat) (hook : Hook) (ev : Event), s.rt.hooks[i]? = some hook ∧
      state = .ready (execute py engine hook.thenActions hook ev) := by
  have hruns : (s.moveBus py engine m).runs.drop s.runs.length =
      ((s.rt.step py m).scheduled.drop s.rt.scheduled.length).map (s.hookCoro py engine) := by
    rw [← sound.core.paired]
    exact List.drop_left
  rw [hruns] at hstate
  rcases HookRuntime.scheduled_step py s.rt m with hsame | ⟨i, e, he, hholds, hnew⟩
  · rw [hsame, List.drop_length] at hstate
    cases hstate
  · rw [hnew, List.drop_left] at hstate
    obtain ⟨sub, hsub, call⟩ := Emission.holds_iff.mp hholds
    have hi := sound.core.informed.known e he sub hsub i call
    have obj : s.rt.hooks[i]? = some s.rt.hooks[i] := List.getElem?_eq_getElem hi
    refine ⟨i, s.rt.hooks[i], e.event, obj, ?_⟩
    rw [List.map_singleton, List.mem_singleton] at hstate
    rw [hstate]
    simp only [hookCoro, obj]

theorem next_runNext (hrun : s.current = some .run) (hfree : s.loopEmit = none)
    (hphase : ∀ state, s.phase ≠ .acting state) (info : Option RegInfo) :
    s.step py engine scn (.next info) = s.runNext py engine scn info := by
  have htask : s.task? .run = none := by
    cases htask : s.task? .run with
    | none => rfl
    | some state => exact absurd (task?_run_some htask) (hphase state)
  simp only [Run.step, Run.next, hrun, hfree, htask, if_true]

/-- Where all readers accept the scenario and the validator finds nothing, every run is
faithful. -/
theorem faithful_of_agreed (agreed : Agreed py scn) (clean : Clean py scn)
    (run : (scenarioSystem py engine scn).Reachable s) : Faithful py engine scn s := by
  have inv := reachable_inSetUp agreed clean run
  refine ⟨?_, inv.armed, ?_, ?_, inv.subscribed, ?_⟩
  · intro e he hstage
    have hmem : e ∈ s.setUp.2 := List.mem_filter.mpr ⟨he, decide_eq_true hstage⟩
    rw [inv.errors] at hmem
    cases hmem
  · intro m _ state hstate
    obtain ⟨i, hook, ev, obj, rfl⟩ := spawned_of_moveBus (reachable_sound run) hstate
    obtain ⟨done, hdone, hooks⟩ := inv.armed
    obtain ⟨h, hh, armed⟩ := mem_hooks_of_armed hdone hooks obj
    refine ⟨h, hh, hook.thenActions, hook, ev, armed.actions, fun spec hspec => ?_, rfl⟩
    exact .of_known ((clean.hooks h hh).actions _ armed.actions spec hspec)
  · exact fun spec hspec => .of_known (clean.initialActions spec hspec)
  · intro info spec rest hphase hrun hfree
    obtain ⟨done, hdone, _⟩ := inv.subscribed
    have hspec : spec ∈ scn.stopOn := by
      rw [← hdone, hphase]
      exact List.mem_append_right done List.mem_cons_self
    rw [next_runNext hrun hfree (by simp [hphase])]
    simp only [Run.runNext, hphase]
    exact subscribesStop_of_subscribable (agreed.subscribable clean spec hspec)

/-! ## A run through the set-up -/

/-- `run` holds the loop, outside of an emit. -/
def Holds (s : Run) : Prop := s.current = some .run ∧ s.loopEmit = none

/-- A move of `run` in its set-up. -/
theorem reachable_next (run : (scenarioSystem py engine scn).Reachable s) (hold : s.Holds)
    (hphase : ∀ state, s.phase ≠ .acting state) :
    (scenarioSystem py engine scn).Reachable (s.runNext py engine scn none) := by
  rw [← next_runNext hold.1 hold.2 hphase]
  have en : (scenarioSystem py engine scn).enabled s (.next none) := rfl
  exact run.step en trivial

/-- A run that arms its hooks without an error gets to the stop conditions, and `arm` has
accepted every entry. -/
theorem arms_all (sound : ∀ s, (scenarioSystem py engine scn).Reachable s → s.setUp.2 = [])
    {rest : List Dict} (run : (scenarioSystem py engine scn).Reachable s) (hold : s.Holds)
    (hphase : s.phase = .arming rest) :
    (∀ h ∈ rest, Armable h) ∧
      ∃ s', (scenarioSystem py engine scn).Reachable s' ∧ s'.Holds ∧
        s'.phase = .subscribing scn.stopOn := by
  induction rest generalizing s with
  | nil =>
      have run' := reachable_next run hold (by simp [hphase])
      have hnext : s.runNext py engine scn none = { s with phase := .subscribing scn.stopOn } := by
        simp only [Run.runNext, hphase]
      rw [hnext] at run'
      exact ⟨List.forall_mem_nil _, _, run', hold, rfl⟩
  | cons h rest ih =>
      have run₁ := reachable_next run hold (by simp [hphase])
      cases hspec : Hook.ofSpec py (py.uuid s.rt.hooks.length) h "<scenario>".toList with
      | error exn =>
          have hnext : s.runNext py engine scn none =
              { s with
                errors := s.errors ++ [("scenario_hooks", exn)], phase := .arming rest } := by
            simp only [Run.runNext, hphase, hspec]
          have hnone := sound _ run₁
          rw [hnext] at hnone
          simp [setUp] at hnone
      | ok hook =>
          have hnext : s.runNext py engine scn none =
              { s.moveBus py engine (.arm h "<scenario>".toList) with
                phase := .assigning s.rt.hooks.length rest } := by
            simp only [Run.runNext, hphase, hspec]
          rw [hnext] at run₁
          have run₂ := reachable_next run₁ hold (by simp)
          obtain ⟨hrest, hreach⟩ := ih run₂ hold rfl
          exact ⟨List.forall_mem_cons.mpr ⟨(ofSpec_ok hspec).1, hrest⟩, hreach⟩

/-- A run whose every move at a stop condition makes a subscription has accepted all of them. -/
theorem subscribes_all
    (sound : ∀ s, (scenarioSystem py engine scn).Reachable s → ∀ spec rest,
      s.phase = .subscribing (spec :: rest) → s.Holds →
        SubscribesStop spec s (s.step py engine scn (.next none)))
    {rest : List Dict} (run : (scenarioSystem py engine scn).Reachable s) (hold : s.Holds)
    (hphase : s.phase = .subscribing rest) : ∀ spec ∈ rest, Subscribable spec := by
  induction rest generalizing s with
  | nil => exact List.forall_mem_nil _
  | cons spec rest ih =>
      have hnext : s.runNext py engine scn none = s.subscribeStop py engine spec rest := by
        simp only [Run.runNext, hphase]
      have hsub := sound s run spec rest hphase hold
      rw [next_runNext hold.1 hold.2 (by simp [hphase]), hnext] at hsub
      have sub := subscribable_of_subscribes hsub
      have run' := reachable_next run hold (by simp [hphase])
      obtain ⟨patterns, _, heq⟩ := subscribeStop_of_subscribable py engine s sub rest
      rw [hnext, heq] at run'
      exact List.forall_mem_cons.mpr ⟨sub, ih run' hold rfl⟩

/-- A scenario with nothing that the validator looks for, all of whose runs are faithful, is
accepted by the other readers. -/
theorem accepted_of_faithful
    (faithful : ∀ s, (scenarioSystem py engine scn).Reachable s → Faithful py engine scn s) :
    (∀ h ∈ scn.hooks, Armable h) ∧ ∀ spec ∈ scn.stopOn, Subscribable spec := by
  have start : (scenarioSystem py engine scn).Reachable initial := .init
  have run₁ := reachable_next start ⟨rfl, rfl⟩ (by simp [initial])
  have noError : ∀ s, (scenarioSystem py engine scn).Reachable s → s.setUp.2 = [] := by
    intro s run
    refine List.filter_eq_nil_iff.mpr fun e he => ?_
    simpa using (faithful s run).errors e he
  obtain ⟨hhooks, s', run', hold, hphase⟩ := arms_all noError run₁ ⟨rfl, rfl⟩ rfl
  refine ⟨hhooks, subscribes_all (fun s run spec rest hphase hold => ?_) run' hold hphase⟩
  exact (faithful s run).subscribes none spec rest hphase hold.1 hold.2

end Run

theorem sound_of_agreed {py : PyText} {engine : Bool} {d : Dict} {scn : ScenarioSpec}
    (hread : ScenarioSpec.fromDict py d = .ok scn) (agreed : Agreed py scn) :
    PreflightSound py engine d := by
  simp only [PreflightSound, validateDict, hread]
  cases hval : validateScenario py scn with
  | error exn => exact absurd agreed.checkable (validateScenario_raises_iff.mp ⟨exn, hval⟩)
  | ok report =>
      refine ⟨report, rfl, fun hok scn' hsame s run => ?_⟩
      cases hsame
      exact Run.faithful_of_agreed agreed ((status_ok_iff hval).mp hok) run

theorem agreed_of_sound {py : PyText} {engine : Bool} {d : Dict} {scn : ScenarioSpec}
    (hread : ScenarioSpec.fromDict py d = .ok scn) (sound : PreflightSound py engine d) :
    Agreed py scn := by
  simp only [PreflightSound, validateDict, hread] at sound
  obtain ⟨report, hval, hfaithful⟩ := sound
  have checkable : ∀ h ∈ scn.hooks, Checkable h := by
    by_contra bad
    obtain ⟨exn, hraise⟩ := validateScenario_raises_iff.mpr bad
    rw [hval] at hraise
    cases hraise
  have accepted := fun clean : Clean py scn =>
    Run.accepted_of_faithful (hfaithful ((status_ok_iff hval).mpr clean) scn rfl)
  exact ⟨checkable, fun clean => (accepted clean).1, fun clean => (accepted clean).2⟩

theorem accepted_of_sound {py : PyText} {engine : Bool} {d : Dict} {scn : ScenarioSpec}
    {report : Report} (hread : ScenarioSpec.fromDict py d = .ok scn)
    (hval : validateScenario py scn = .ok report) (hok : report.status = "ok")
    (sound : PreflightSound py engine d) :
    (∀ h ∈ scn.hooks, Armable h) ∧ ∀ spec ∈ scn.stopOn, Subscribable spec := by
  have agreed := agreed_of_sound hread sound
  have clean := (status_ok_iff hval).mp hok
  exact ⟨agreed.armable clean, agreed.subscribable clean⟩

/-- Pre-flight validation is total and sound for a dictionary exactly when the readers agree on
the scenario that it is read as. -/
theorem preflight_sound_iff (py : PyText) (engine : Bool) (d : Dict) :
    PreflightSound py engine d ↔ ∀ scn, ScenarioSpec.fromDict py d = .ok scn → Agreed py scn := by
  constructor
  · exact fun sound scn hread => agreed_of_sound hread sound
  · intro agreed
    cases hread : ScenarioSpec.fromDict py d with
    | error exn =>
        refine ⟨⟨"error", [.parse exn], "<parse-failed>".toList⟩, ?_, fun hok => ?_⟩
        · simp only [validateDict, hread]
        · simp at hok
    | ok scn => exact sound_of_agreed hread (agreed scn hread)

def hookWithWhen (when : Value) : Dict :=
  [("hooks".toList, .list [.dict [("when".toList, when)]])]

def stopWithPhone (phone : Value) : Dict :=
  [("stop_on".toList, .list [.dict [("phone_id".toList, phone)]])]

/-- The validator raises on a `when` that is a number, lets a `when` through that is a dictionary
and that `arm` refuses, and a stop condition without an event that is never subscribed. -/
theorem preflight_misses :
    ¬PreflightSound .ascii true (hookWithWhen (.int 5)) ∧
      ¬PreflightSound .ascii true (hookWithWhen (.dict [("reg.success".toList, .int 1)])) ∧
      ¬PreflightSound .ascii true (stopWithPhone (.ofString "a")) := by
  refine ⟨?_, fun sound => ?_, fun sound => ?_⟩
  · rintro ⟨report, hreport, _⟩
    have hraise : validateDict .ascii (hookWithWhen (.int 5)) = .error .builtin := rfl
    rw [hraise] at hreport
    cases hreport
  · obtain ⟨armable, _⟩ := accepted_of_sound rfl rfl rfl sound
    cases (armable _ List.mem_cons_self).when
  · obtain ⟨_, subscribable⟩ := accepted_of_sound rfl rfl rfl sound
    cases (subscribable _ List.mem_cons_self).truthy

end PjsuaMcp.Scenario
