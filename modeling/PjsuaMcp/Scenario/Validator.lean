import PjsuaMcp.Scenario.KnownEvents
import PjsuaMcp.Scenario.Runner

/-!
# The validator

`validate_scenario` goes over the hooks, the stop conditions and the initial
actions of a scenario and collects what it finds wrong. It reads the values of
a scenario in its own way: what it does not try to convert it does not find.

## Implementation notes

The issue of a scenario that cannot be read keeps the exception where the
source keeps its text.
-/

namespace PjsuaMcp.Scenario

/-- `KNOWN_ACTIONS`. -/
def knownActions : List String :=
  ["answer", "hangup", "hangup_all", "reject", "hold", "unhold", "send_dtmf", "blind_transfer",
    "attended_transfer", "conference", "make_call", "play_audio", "stop_audio", "send_message",
    "set_codecs", "wait", "wait_until", "emit", "checkpoint", "log"]

inductive Issue
  | parse (exn : Exn)
  | hook (source : String) (index : Nat) (msg : Text)
  | action (source : String) (hook step : Nat) (msg : Text)
  | stopOn (index : Nat) (msg : Text)
  | initialAction (index : Nat) (msg : Text)
  deriving Repr

structure Report where
  status : String
  issues : List Issue
  scenarioName : Text
  deriving Repr

/-- The text of an exception that the engine raises itself. -/
def Exn.message : Exn → Text
  | actionError message | valueError message => message
  | builtin | timeout | external _ => []

section

variable (py : PyText)

/-- `_check_action_spec`: the message of the error, when there is one. -/
def checkActionSpec (spec : Value) : Option Text :=
  match normalizeAction py spec with
  | .error exn => some ("bad action spec: ".toList ++ exn.message)
  | .ok (name, _) =>
      if name ∈ knownActions.map String.toList then none
      else some ("unknown action: ".toList ++ py.repr (.str name))

/-- What `_check_hook` goes through under `then`. -/
def validatedSpecs (h : Dict) : Option (List Value) :=
  ((h.getOr "then" (.list [])).or (.list [])).elements?

def unknownEvent (w : Value) : Text := "unknown event type: ".toList ++ py.repr w

/-- `_check_hook`; what cannot be gone through raises. -/
def checkHook (h : Dict) (source : String) (index : Nat) : Except Exn (List Issue) :=
  let when := h.get "when"
  if !when.truthy then .ok [.hook source index "missing `when:`".toList]
  else
    match patternList when, validatedSpecs h with
    | some whens, some specs =>
        let events := whens.filter fun w => !isKnownEvent (py.str w)
        let actions := specs.zipIdx.filterMap fun (spec, step) =>
          (checkActionSpec py spec).map (.action source index step)
        .ok (events.map (fun w => .hook source index (unknownEvent py w)) ++ actions)
    | _, _ => .error .builtin

/-- The check of one `stop_on` entry. -/
def checkStop (s : Dict) (index : Nat) : Option Issue :=
  let ev := s.get "event"
  if !ev.isNull && !isKnownEvent (py.str ev) then some (.stopOn index (unknownEvent py ev))
  else none

/-- `validate_scenario` of a `Scenario`. -/
def validateScenario (scn : ScenarioSpec) : Except Exn Report := do
  let hooks ← scn.hooks.zipIdx.mapM fun (h, i) => checkHook py h "scenario.hooks" i
  let stops := scn.stopOn.zipIdx.filterMap fun (s, i) => checkStop py s i
  let initial := scn.initialActions.zipIdx.filterMap fun (spec, i) =>
    (checkActionSpec py spec).map (.initialAction i)
  let issues := hooks.flatten ++ stops ++ initial
  return ⟨if issues.isEmpty then "ok" else "error", issues, scn.name⟩

/-- `validate_scenario` of a dictionary. -/
def validateDict (d : Dict) : Except Exn Report :=
  match ScenarioSpec.fromDict py d with
  | .error exn => .ok ⟨"error", [.parse exn], "<parse-failed>".toList⟩
  | .ok scn => validateScenario py scn

/-! ## What the validator looks for -/

/-- The spec is read as an action that the validator knows. -/
def KnownAction (spec : Value) : Prop :=
  ∃ name args, normalizeAction py spec = .ok (name, args) ∧ name ∈ knownActions.map String.toList

/-- The hook has events and actions, all of them known. -/
structure CleanHook (h : Dict) : Prop where
  when : (h.get "when").truthy = true
  events : ∀ whens, patternList (h.get "when") = some whens →
    ∀ w ∈ whens, isKnownEvent (py.str w) = true
  actions : ∀ specs, validatedSpecs h = some specs → ∀ spec ∈ specs, KnownAction py spec

/-- An entry of `stop_on` names no event, or a known one. -/
def CleanStop (s : Dict) : Prop :=
  (s.get "event").isNull = true ∨ isKnownEvent (py.str (s.get "event")) = true

structure Clean (scn : ScenarioSpec) : Prop where
  hooks : ∀ h ∈ scn.hooks, CleanHook py h
  stopOn : ∀ s ∈ scn.stopOn, CleanStop py s
  initialActions : ∀ spec ∈ scn.initialActions, KnownAction py spec

/-- The lists of the hook can be gone through, where the validator gets to them. -/
def Checkable (h : Dict) : Prop :=
  (h.get "when").truthy = true →
    (patternList (h.get "when")).isSome = true ∧ (validatedSpecs h).isSome = true

variable {py}

/-- An action passes when it is a known one. -/
theorem checkActionSpec_eq_none {spec : Value} :
    checkActionSpec py spec = none ↔ KnownAction py spec := by
  simp only [checkActionSpec, KnownAction]
  cases normalizeAction py spec with
  | error exn => exact iff_of_false nofun fun ⟨_, _, hread, _⟩ => nomatch hread
  | ok action =>
      obtain ⟨name, args⟩ := action
      by_cases hname : name ∈ knownActions.map String.toList
      · exact iff_of_true (if_pos hname) ⟨name, args, rfl, hname⟩
      · refine iff_of_false (by simp only [if_neg hname, reduceCtorEq, not_false_eq_true]) ?_
        rintro ⟨_, _, hread, hknown⟩
        cases hread
        exact hname hknown

theorem forall_mem_zipIdx {α : Type} {P : α → Prop} {xs : List α} {n : Nat} :
    (∀ a ∈ xs.zipIdx n, P a.1) ↔ ∀ x ∈ xs, P x := by
  have hfst : (xs.zipIdx n).map Prod.fst = xs := List.zipIdx_map_fst n xs
  constructor
  · intro h x hx
    rw [← hfst] at hx
    obtain ⟨a, ha, rfl⟩ := List.mem_map.mp hx
    exact h a ha
  · intro h a ha
    exact h a.1 (hfst ▸ List.mem_map_of_mem ha)

theorem actionIssues_eq_nil {specs : List Value} {issue : Nat → Text → Issue} :
    (specs.zipIdx.filterMap fun a => (checkActionSpec py a.1).map (issue a.2)) = [] ↔
      ∀ spec ∈ specs, KnownAction py spec := by
  simp only [List.filterMap_eq_nil_iff, Option.map_eq_none_iff, checkActionSpec_eq_none]
  exact forall_mem_zipIdx (P := KnownAction py)

/-- A stop condition passes when its event is a known one. -/
theorem checkStop_eq_none {s : Dict} {i : Nat} : checkStop py s i = none ↔ CleanStop py s := by
  simp only [checkStop, CleanStop]
  cases (s.get "event").isNull <;> cases isKnownEvent (py.str (s.get "event")) <;> simp

theorem stopIssues_eq_nil {stops : List Dict} :
    (stops.zipIdx.filterMap fun a => checkStop py a.1 a.2) = [] ↔ ∀ s ∈ stops, CleanStop py s := by
  simp only [List.filterMap_eq_nil_iff, checkStop_eq_none]
  exact forall_mem_zipIdx (P := CleanStop py)

/-- A hook that cannot be read raises. -/
theorem checkHook_raises {h : Dict} {source : String} {i : Nat} (bad : ¬Checkable h) :
    checkHook py h source i = .error .builtin := by
  simp only [Checkable, Classical.not_imp, not_and_or] at bad
  obtain ⟨hwhen, hbad⟩ := bad
  simp only [checkHook, hwhen, Bool.not_true, Bool.false_eq_true, if_false]
  split
  next hwhens hspecs => simp [hwhens, hspecs] at hbad
  next => rfl

/-- Any other one is reported on, and has no issue when it is clean. -/
theorem checkHook_of_checkable (py : PyText) {h : Dict} (good : Checkable h) (source : String)
    (i : Nat) :
    ∃ issues, checkHook py h source i = .ok issues ∧ (issues = [] ↔ CleanHook py h) := by
  cases hwhen : (h.get "when").truthy with
  | false =>
      refine ⟨_, by simp only [checkHook, hwhen, Bool.not_false, if_true]; rfl, ?_⟩
      refine iff_of_false (List.cons_ne_nil _ _) fun clean => ?_
      rw [clean.when] at hwhen
      cases hwhen
  | true =>
      obtain ⟨hwhens, hspecs⟩ := good hwhen
      obtain ⟨whens, hwhens⟩ := Option.isSome_iff_exists.mp hwhens
      obtain ⟨specs, hspecs⟩ := Option.isSome_iff_exists.mp hspecs
      refine ⟨_, by simp only [checkHook, hwhen, hwhens, hspecs, Bool.not_true,
        Bool.false_eq_true, if_false]; rfl, ?_⟩
      rw [List.append_eq_nil_iff, List.map_eq_nil_iff, List.filter_eq_nil_iff,
        actionIssues_eq_nil]
      constructor
      · rintro ⟨hevents, hactions⟩
        refine ⟨hwhen, fun whens' heq w hw => ?_, fun specs' heq => ?_⟩
        · cases hwhens.symm.trans heq
          simpa using hevents w hw
        · cases hspecs.symm.trans heq
          exact hactions
      · intro clean
        refine ⟨fun w hw => ?_, clean.actions specs hspecs⟩
        simpa using clean.events whens hwhens w hw

theorem checkHooks_of_checkable (py : PyText) {hooks : List Dict}
    (good : ∀ h ∈ hooks, Checkable h) (n : Nat) :
    ∃ found, ((hooks.zipIdx n).mapM fun a => checkHook py a.1 "scenario.hooks" a.2) = .ok found ∧
      (found.flatten = [] ↔ ∀ h ∈ hooks, CleanHook py h) := by
  induction hooks generalizing n with
  | nil => exact ⟨[], rfl, by simp⟩
  | cons h rest ih =>
      obtain ⟨issues, hhead, hclean⟩ :=
        checkHook_of_checkable py (good h List.mem_cons_self) "scenario.hooks" n
      obtain ⟨found, htail, hrest⟩ := ih (fun h' hh' => good h' (List.mem_cons_of_mem _ hh')) (n + 1)
      refine ⟨issues :: found, ?_, ?_⟩
      · simp only [List.zipIdx_cons, List.mapM_cons, hhead, htail]
        rfl
      · simp only [List.flatten_cons, List.append_eq_nil_iff, hclean, hrest, List.forall_mem_cons]

theorem checkHooks_raises (py : PyText) {hooks : List Dict} (bad : ¬∀ h ∈ hooks, Checkable h)
    (n : Nat) :
    ∃ exn, ((hooks.zipIdx n).mapM fun a => checkHook py a.1 "scenario.hooks" a.2) = .error exn := by
  induction hooks generalizing n with
  | nil => exact absurd (List.forall_mem_nil _) bad
  | cons h rest ih =>
      rw [List.forall_mem_cons, not_and_or] at bad
      simp only [List.zipIdx_cons, List.mapM_cons]
      by_cases hh : Checkable h
      · obtain ⟨issues, hhead, _⟩ := checkHook_of_checkable py hh "scenario.hooks" n
        obtain ⟨exn, htail⟩ := ih (bad.resolve_left (not_not_intro hh)) (n + 1)
        exact ⟨exn, by rw [hhead, htail]; rfl⟩
      · exact ⟨.builtin, by rw [checkHook_raises hh]; rfl⟩

/-- The validator raises exactly on a hook whose lists it cannot go through. -/
theorem validateScenario_raises_iff {scn : ScenarioSpec} :
    (∃ exn, validateScenario py scn = .error exn) ↔ ¬∀ h ∈ scn.hooks, Checkable h := by
  constructor
  · rintro ⟨exn, hraise⟩ good
    obtain ⟨found, hfound, _⟩ := checkHooks_of_checkable py good 0
    simp only [validateScenario, hfound, bind, Except.bind] at hraise
    cases hraise
  · intro bad
    obtain ⟨exn, hraise⟩ := checkHooks_raises py bad 0
    exact ⟨exn, by simp only [validateScenario, hraise, bind, Except.bind]⟩

/-- The report is `ok` exactly when the scenario has nothing that the validator looks for. -/
theorem status_ok_iff {scn : ScenarioSpec} {report : Report}
    (h : validateScenario py scn = .ok report) : report.status = "ok" ↔ Clean py scn := by
  have good : ∀ h ∈ scn.hooks, Checkable h := by
    by_contra bad
    obtain ⟨exn, hraise⟩ := validateScenario_raises_iff.mpr bad
    rw [h] at hraise
    cases hraise
  obtain ⟨found, hfound, hclean⟩ := checkHooks_of_checkable py good 0
  simp only [validateScenario, hfound, bind, Except.bind] at h
  cases h
  have hstatus : ∀ issues : List Issue,
      (if issues.isEmpty then "ok" else "error") = "ok" ↔ issues = [] := by
    intro issues
    cases issues <;> simp
  rw [hstatus, List.append_eq_nil_iff, List.append_eq_nil_iff, hclean, stopIssues_eq_nil,
    actionIssues_eq_nil]
  constructor
  · rintro ⟨⟨hooks, stops⟩, initial⟩
    exact ⟨hooks, stops, initial⟩
  · rintro ⟨hooks, stops, initial⟩
    exact ⟨⟨hooks, stops⟩, initial⟩

end

end PjsuaMcp.Scenario
