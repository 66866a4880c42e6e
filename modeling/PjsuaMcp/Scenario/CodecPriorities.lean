import PjsuaMcp.Scenario.LoopSteps

/-!
# The codec priorities of the endpoint

The priorities belong to the endpoint, not to a phone. They are set when the
server starts, so that every codec a phone may want is enabled, and by the
action `set_codecs` of a scenario; no other part of the program sets them, and
nothing sets them back. What they are is what the latest call of `set_codecs`
has made of them.

## Implementation notes

The library lists the codecs in an order of its own at every call; it may be any
order of the codec ids that the endpoint offers. A call of `set_codecs` is one
step. `str.upper` is a parameter.
-/

namespace PjsuaMcp.Scenario

open Library

/-- Codec ids and their priorities. -/
abbrev Priorities := OrderedDict Text Int

/-- `AUDIO_CODEC_SUPERSET`. -/
def audioCodecSuperset : List Text :=
  ["PCMA".toList, "PCMU".toList, "G722".toList, "G729".toList, "opus".toList,
    "telephone-event".toList]

section SetCodecs

variable (upper : Text → Text) (allIds : List Text)

/-- `_resolve`: the first of the ids that begins with the name. -/
def resolve (name : Text) : Option Text :=
  allIds.find? fun cid => (upper name).isPrefixOf (upper cid)

/-- What a name enables; an empty id is no id. -/
def enabledBy (name : Text) : Option Text := (resolve upper allIds name).filter fun cid => cid ≠ []

/-- One turn of the loop over `enumerate(codecs)`. -/
def enable (acc : List (Text × Int) × Priorities) (item : Text × Nat) :
    List (Text × Int) × Priorities :=
  match enabledBy upper allIds item.1 with
  | some cid =>
      let priority : Int := 255 - item.2
      (acc.1 ++ [(cid, priority)], acc.2.set cid priority)
  | none => acc

/-- `set_codecs` and its result, when `codecSetPriority` succeeds. -/
def setCodecs (codecs : List Text) (d : Priorities) : List (Text × Int) × Priorities :=
  codecs.zipIdx.foldl (enable upper allIds) ([], allIds.foldl (fun d cid => d.set cid 0) d)

/-- `enable_audio_codec_superset`. -/
def enableAudioCodecSuperset : Priorities → List (Text × Int) × Priorities :=
  setCodecs upper allIds audioCodecSuperset

/-- The encoding name of the codec is in the superset, whatever the case of its letters. -/
def inSuperset (cid : Text) : Bool :=
  audioCodecSuperset.any fun name => upper (cid.takeWhile (· ≠ '/')) = upper name

/-- Some name enables the codec, and the last that does is not the 256th, which would get the
priority 0. -/
def Enables (codecs : List Text) (cid : Text) : Prop :=
  ∃ before name after, codecs = before ++ name :: after ∧
    enabledBy upper allIds name = some cid ∧ before.length ≠ 255 ∧
    ∀ name' ∈ after, enabledBy upper allIds name' ≠ some cid

end SetCodecs

/-! ## What `set_codecs` leaves behind -/

variable {upper : Text → Text} {allIds : List Text}

/-- The first loop disables every codec. -/
theorem get?_disabled (d : Priorities) (cid : Text) :
    (allIds.foldl (fun d cid => d.set cid 0) d).get? cid =
      if cid ∈ allIds then some 0 else d.get? cid := by
  induction allIds generalizing d with
  | nil => simp
  | cons first rest ih =>
      rw [List.foldl_cons, ih, OrderedDict.get?_set]
      by_cases hrest : cid ∈ rest
      · simp [hrest]
      · simp [hrest, eq_comm]

theorem setCodecs_concat (codecs : List Text) (name : Text) (d : Priorities) :
    setCodecs upper allIds (codecs ++ [name]) d =
      enable upper allIds (setCodecs upper allIds codecs d) (name, codecs.length) := by
  simp [setCodecs, List.zipIdx_append]

theorem not_enables_nil (cid : Text) : ¬Enables upper allIds [] cid := by
  rintro ⟨before, name, after, hsplit, -⟩
  cases before <;> cases hsplit

/-- The last name decides about the codec that it stands for. -/
theorem enables_concat (codecs : List Text) (name cid : Text) :
    Enables upper allIds (codecs ++ [name]) cid ↔
      if enabledBy upper allIds name = some cid then codecs.length ≠ 255
      else Enables upper allIds codecs cid := by
  constructor
  · rintro ⟨before, name', after, hsplit, henabled, hlength, hlast⟩
    rcases List.eq_nil_or_concat after with rfl | ⟨after, name'', rfl⟩
    · obtain ⟨rfl, hname⟩ := List.append_inj' hsplit rfl
      cases hname
      rwa [if_pos henabled]
    · have hsplit : codecs ++ [name] = (before ++ name' :: after) ++ [name''] := by
        rw [hsplit, List.concat_eq_append, List.append_assoc, List.cons_append]
      obtain ⟨hcodecs, hname⟩ := List.append_inj' hsplit rfl
      cases hname
      rw [if_neg (hlast name (by simp))]
      exact ⟨before, name', after, hcodecs, henabled, hlength, fun x hx => hlast x (by simp [hx])⟩
  · split_ifs with henabled
    · intro hlength
      exact ⟨codecs, name, [], rfl, henabled, hlength, fun x hx => by cases hx⟩
    · rintro ⟨before, name', after, rfl, henabled', hlength, hlast⟩
      refine ⟨before, name', after ++ [name], by simp, henabled', hlength, fun x hx => ?_⟩
      rcases List.mem_append.mp hx with hx | hx
      · exact hlast x hx
      · rw [List.mem_singleton.mp hx]
        exact henabled

/-- A codec of the list is enabled by the names, or disabled. -/
theorem setCodecs_priority {cid : Text} (hcid : cid ∈ allIds) (codecs : List Text)
    (d : Priorities) :
    ∃ priority, (setCodecs upper allIds codecs d).2.get? cid = some priority ∧
      (priority ≠ 0 ↔ Enables upper allIds codecs cid) := by
  induction codecs using List.reverseRecOn with
  | nil =>
      refine ⟨0, ?_, iff_of_false (fun h => h rfl) (not_enables_nil cid)⟩
      exact (get?_disabled d cid).trans (if_pos hcid)
  | append_singleton codecs name ih =>
      obtain ⟨priority, hpriority, hiff⟩ := ih
      rw [setCodecs_concat, enable]
      cases htarget : enabledBy upper allIds name with
      | none =>
          refine ⟨priority, hpriority, hiff.trans ?_⟩
          rw [enables_concat, htarget, if_neg (Option.some_ne_none cid).symm]
      | some cid' =>
          dsimp only
          rw [enables_concat, htarget, OrderedDict.get?_set]
          by_cases hsame : cid' = cid
          · refine ⟨255 - codecs.length, by rw [if_pos hsame], ?_⟩
            rw [if_pos (congrArg some hsame)]
            omega
          · refine ⟨priority, by rw [if_neg hsame, hpriority], ?_⟩
            rw [if_neg fun h => hsame (Option.some.inj h)]
            exact hiff

/-! ## The server -/

/-- The names that an executor thread hands to `set_codecs` in a move. -/
def Run.codecsSet (s : Run) : Move → Option (List Text)
  | .runJob t _ =>
      match s.task? t with
      | some (.inExecutor (.setCodecs codecs) _) => some codecs
      | _ => none
  | _ => none

/-- The endpoint and the runs of scenarios, which may be over. -/
structure Host where
  priorities : Priorities
  runs : List (ScenarioSpec × Run)
  /-- The codec ids and the names of the latest call of `set_codecs`; nothing in the program reads
  it. -/
  latest : Option (List Text × List Text)

inductive HostAction
  /-- `lifespan`, before the first tool call. -/
  | startUp (allIds : List Text)
  /-- A tool other than `run_scenario`; none of them sets priorities. -/
  | toolCall
  /-- `run_scenario`. -/
  | runScenario (scenario : ScenarioSpec)
  /-- A run goes on; the ids are what the endpoint lists if codecs are set. -/
  | move (n : Nat) (m : Move) (allIds : List Text)

namespace Host

def initial (priorities : Priorities) : Host := ⟨priorities, [], none⟩

def setCodecs (upper : Text → Text) (h : Host) (allIds codecs : List Text) : Host :=
  { h with
    priorities := (Scenario.setCodecs upper allIds codecs h.priorities).2
    latest := some (allIds, codecs) }

def move (upper : Text → Text) (py : PyText) (h : Host) (n : Nat) (m : Move)
    (allIds : List Text) : Host :=
  match h.runs[n]? with
  | none => h
  | some (scenario, s) =>
      let h := { h with runs := h.runs.set n (scenario, s.step py true scenario m) }
      match s.codecsSet m with
      | some codecs => h.setCodecs upper allIds codecs
      | none => h

def step (upper : Text → Text) (py : PyText) (h : Host) : HostAction → Host
  | .startUp allIds =>
      { h with
        priorities := (enableAudioCodecSuperset upper allIds h.priorities).2
        latest := some (allIds, audioCodecSuperset) }
  | .toolCall => h
  | .runScenario scenario => { h with runs := h.runs ++ [(scenario, .initial)] }
  | .move n m allIds => h.move upper py n m allIds

/-- The endpoint lists its codecs, and what a run does is up to the run. -/
def enabled (codecs : List Text) (h : Host) : HostAction → Bool
  | .startUp allIds => h.latest.isNone && allIds.isPerm codecs
  | .toolCall | .runScenario _ => h.latest.isSome
  | .move n m allIds => (h.runs[n]?).any (fun r => r.2.enabled m) && allIds.isPerm codecs

end Host

/-- A server on an endpoint with these codecs, in every order of tool calls and of the moves of the
runs. -/
def hosts (upper : Text → Text) (py : PyText) (offered : Priorities) :
    GuardedSystem Host HostAction where
  init := .initial offered
  enabled h a := h.enabled offered.keys a = true
  step := Host.step upper py

instance (upper : Text → Text) (py : PyText) (offered : Priorities) (h : Host) (a : HostAction) :
    Decidable ((hosts upper py offered).enabled h a) :=
  inferInstanceAs (Decidable (h.enabled offered.keys a = true))

namespace Host

variable {py : PyText} {offered : Priorities} {h : Host}

/-- The priorities are those of the latest call, on a list of the codecs that are offered. -/
def Settled (upper : Text → Text) (offered : Priorities) (h : Host) : Prop :=
  ∀ allIds codecs, h.latest = some (allIds, codecs) → allIds.Perm offered.keys ∧
    ∃ d, h.priorities = (Scenario.setCodecs upper allIds codecs d).2

/-- Setting codecs settles the priorities anew. -/
theorem settled_setCodecs (h : Host) {allIds : List Text} (offers : allIds.Perm offered.keys)
    (codecs : List Text) : (h.setCodecs upper allIds codecs).Settled upper offered := by
  intro allIds' codecs' hlatest
  cases hlatest
  exact ⟨offers, h.priorities, rfl⟩

theorem Settled.step (settled : h.Settled upper offered) {a : HostAction}
    (en : h.enabled offered.keys a = true) : (h.step upper py a).Settled upper offered := by
  cases a with
  | startUp allIds =>
      simp only [enabled, Bool.and_eq_true, List.isPerm_iff] at en
      exact h.settled_setCodecs en.2 audioCodecSuperset
  | toolCall => exact settled
  | runScenario scenario => exact settled
  | move n m allIds =>
      simp only [enabled, Bool.and_eq_true, List.isPerm_iff] at en
      simp only [Host.step, move]
      split
      · exact settled
      · split
        · exact settled_setCodecs _ en.2 _
        · exact settled

/-- The priorities are settled in every reachable state. -/
theorem reachable_settled (run : (hosts upper py offered).Reachable h) :
    h.Settled upper offered :=
  run.invariant (P := fun h => h.Settled upper offered) (fun allIds codecs h => by cases h)
    fun _ _ en _ settled => settled.step en

/-- Every run is one of its scenario, and the latest names are those of the start-up or of a run. -/
structure Sourced (py : PyText) (h : Host) : Prop where
  runs : ∀ r ∈ h.runs, (scenarioSystem py true r.1).Reachable r.2
  latest : ∀ allIds codecs, h.latest = some (allIds, codecs) → codecs = audioCodecSuperset ∨
    ∃ r ∈ h.runs, ∃ t, (t, .runPj (.setCodecs codecs)) ∈ r.2.performed

/-- The codecs that a run sets are those of an action that it performs. -/
theorem performed_codecsSet {engine : Bool} {scenario : ScenarioSpec} {s : Run} {m : Move}
    {codecs : List Text} (hset : s.codecsSet m = some codecs) :
    ∃ t, (t, .runPj (.setCodecs codecs)) ∈ (s.step py engine scenario m).performed := by
  cases m with
  | runJob t answer =>
      simp only [Run.codecsSet] at hset
      split at hset
      · next ht =>
          cases hset
          refine ⟨t, ?_⟩
          simp only [Run.step, Run.runJob, ht]
          cases t <;> simp [Run.setTask, Run.perform]
      · cases hset
  | _ => cases hset

theorem Sourced.move (sourced : h.Sourced py) {n : Nat} {m : Move} {allIds : List Text}
    (en : (h.runs[n]?).any (fun r => r.2.enabled m) = true) :
    (h.move upper py n m allIds).Sourced py := by
  unfold Host.move
  split
  · exact sourced
  · next scenario s hn =>
      rw [hn] at en
      have en : s.enabled m = true := en
      have hold : (scenario, s) ∈ h.runs := List.mem_of_getElem? hn
      have hnew : (scenario, s.step py true scenario m) ∈
          h.runs.set n (scenario, s.step py true scenario m) :=
        List.mem_set (List.getElem?_eq_some_iff.mp hn).1 _
      have hruns : ∀ r ∈ h.runs.set n (scenario, s.step py true scenario m),
          (scenarioSystem py true r.1).Reachable r.2 := by
        intro r hr
        rcases List.mem_or_eq_of_mem_set hr with hr | rfl
        · exact sourced.runs r hr
        · exact (sourced.runs _ hold).step en trivial
      split
      · next codecs hset =>
          refine ⟨hruns, fun allIds' codecs' hlatest => .inr ⟨_, hnew, ?_⟩⟩
          cases hlatest
          exact performed_codecsSet hset
      · refine ⟨hruns, fun allIds' codecs' hlatest => ?_⟩
        refine (sourced.latest allIds' codecs' hlatest).imp_right ?_
        rintro ⟨r, hr, t, hperformed⟩
        by_cases hmoved : r = (scenario, s)
        · subst hmoved
          exact ⟨_, hnew, t, Run.step_performed en hperformed⟩
        · exact ⟨r, mem_set_of_mem hn (Ne.symm hmoved) hr _, t, hperformed⟩

theorem Sourced.step (sourced : h.Sourced py) {codecs : List Text} {a : HostAction}
    (en : h.enabled codecs a = true) : (h.step upper py a).Sourced py := by
  cases a with
  | startUp allIds =>
      refine ⟨sourced.runs, fun allIds' codecs' hlatest => .inl ?_⟩
      cases hlatest
      rfl
  | toolCall => exact sourced
  | runScenario scenario =>
      refine ⟨fun r hr => ?_, fun allIds' codecs' hlatest => ?_⟩
      · rcases List.mem_append.mp hr with hr | hr
        · exact sourced.runs r hr
        · rw [List.mem_singleton.mp hr]
          exact .init
      · refine (sourced.latest allIds' codecs' hlatest).imp_right ?_
        rintro ⟨r, hr, t, hperformed⟩
        exact ⟨r, List.mem_append_left _ hr, t, hperformed⟩
  | move n m allIds =>
      simp only [enabled, Bool.and_eq_true] at en
      exact sourced.move en.1

theorem initial_sourced (py : PyText) (offered : Priorities) : (initial offered).Sourced py where
  runs r hr := by cases hr
  latest allIds codecs hlatest := by cases hlatest

/-- The codecs that were set come from the profile or from an action. -/
theorem reachable_sourced (run : (hosts upper py offered).Reachable h) : h.Sourced py :=
  run.invariant (P := fun h => h.Sourced py) (initial_sourced py offered)
    fun _ _ en _ sourced => sourced.step en

end Host

/-- After start-up, in every state of every order of tool calls and runs, the offered codecs of the
superset are enabled if and only if the latest call of `set_codecs` has enabled each of them; this
is the call of the start-up or one that a run has performed. -/
theorem superset_enabled_iff {py : PyText} {offered : Priorities} {h : Host}
    (run : (hosts upper py offered).Reachable h) {codecs : List Text}
    (latest : h.latest = some (allIds, codecs)) :
    ((∀ cid ∈ offered.keys, inSuperset upper cid = true → (h.priorities.get? cid).getD 0 ≠ 0) ↔
      ∀ cid ∈ offered.keys, inSuperset upper cid = true → Enables upper allIds codecs cid) ∧
    (codecs = audioCodecSuperset ∨
      ∃ r ∈ h.runs, (scenarioSystem py true r.1).Reachable r.2 ∧
        ∃ t, (t, .runPj (.setCodecs codecs)) ∈ r.2.performed) := by
  obtain ⟨offers, d, hpriorities⟩ := Host.reachable_settled run allIds codecs latest
  have sourced := Host.reachable_sourced run
  constructor
  · have heach : ∀ cid ∈ offered.keys, ((h.priorities.get? cid).getD 0 ≠ 0 ↔
        Enables upper allIds codecs cid) := by
      intro cid hcid
      obtain ⟨priority, hpriority, hiff⟩ : ∃ priority,
          (setCodecs upper allIds codecs d).2.get? cid = some priority ∧
            (priority ≠ 0 ↔ Enables upper allIds codecs cid) :=
        setCodecs_priority (offers.mem_iff.mpr hcid) codecs d
      rw [hpriorities, hpriority]
      exact hiff
    exact forall₂_congr fun cid hcid => imp_congr_right fun _ => heach cid hcid
  · refine (sourced.latest allIds codecs latest).imp_right ?_
    rintro ⟨r, hr, hperformed⟩
    exact ⟨r, hr, sourced.runs r hr, hperformed⟩

/-! ## A scenario that narrows the codecs -/

/-- A scenario whose one initial action sets the codecs. -/
def codecOverride (codecs : List String) : ScenarioSpec where
  name := "override".toList
  phones := []
  hooks := []
  initialActions := [.dict [("set_codecs".toList, .list (codecs.map .ofString))]]
  stopOn := []
  timeoutMs := 0

/-- Three codecs of the superset, with the priorities that the library has given them. -/
def threeCodecs : Priorities :=
  ((OrderedDict.empty.set "PCMA/8000/1".toList 128).set "PCMU/8000/1".toList 128).set
    "G722/16000/1".toList 130

def threeCodecIds : List Text :=
  ["PCMA/8000/1".toList, "PCMU/8000/1".toList, "G722/16000/1".toList]

/-- Start-up, and the scenario from its start over the action and the timeout to its return. -/
def overridden (codecs : List String) : List HostAction :=
  let goesOn (n : Nat) : List Move := List.replicate n (.next none)
  let emits (i : Nat) : List Move := List.replicate 2 (.bus (.advance i))
  let moves := goesOn 5 ++ emits 0 ++ goesOn 3 ++ [.runJob .run (.ok .null), .turn .run] ++
    goesOn 2 ++ [.expire .run] ++ goesOn 3 ++ emits 1 ++ goesOn 3
  .startUp threeCodecIds :: .runScenario (codecOverride codecs) ::
    moves.map fun m => .move 0 m threeCodecIds

/-- The server with ASCII texts. -/
def asciiHost : GuardedSystem Host HostAction := hosts (List.map Char.toUpper) .ascii threeCodecs

instance (h : Host) (a : HostAction) : Decidable (asciiHost.enabled h a) :=
  inferInstanceAs (Decidable (h.enabled threeCodecs.keys a = true))

/-- The scenario has returned, and one codec of the superset is still disabled. -/
theorem override_outlives_scenario :
    asciiHost.Reachable (asciiHost.run (.initial threeCodecs) (overridden ["G722"])) ∧
      (asciiHost.run (.initial threeCodecs) (overridden ["G722"])).runs.map
        (fun r => r.2.phase.hasReturned) = [true] ∧
      "PCMA/8000/1".toList ∈ threeCodecs.keys ∧
      inSuperset (List.map Char.toUpper) "PCMA/8000/1".toList = true ∧
      (asciiHost.run (.initial threeCodecs) (overridden ["G722"])).priorities.get?
        "PCMA/8000/1".toList = some 0 := by
  refine ⟨GuardedSystem.Reach.init.run ?_, ?_⟩ <;> decide +kernel

/-- A scenario that names them all leaves the one it names last enabled. -/
theorem reordered_superset_enabled :
    ((asciiHost.run (.initial threeCodecs) (overridden ["g722", "PCMU", "PCMA"])).priorities.get?
      "PCMA/8000/1".toList).getD 0 ≠ 0 := by
  have run : asciiHost.Reachable
      (asciiHost.run (.initial threeCodecs) (overridden ["g722", "PCMU", "PCMA"])) :=
    GuardedSystem.Reach.init.run (by decide +kernel)
  have latest : (asciiHost.run (.initial threeCodecs)
      (overridden ["g722", "PCMU", "PCMA"])).latest =
        some (threeCodecIds, ["g722".toList, "PCMU".toList, "PCMA".toList]) := by
    decide +kernel
  refine (superset_enabled_iff run latest).1.mpr (fun cid hcid _ => ?_) _ (by decide) (by decide)
  have hids : threeCodecs.keys = threeCodecIds := by decide
  rw [hids, threeCodecIds] at hcid
  simp only [List.mem_cons, List.not_mem_nil, or_false] at hcid
  obtain rfl | rfl | rfl := hcid
  · exact ⟨["g722".toList, "PCMU".toList], _, [], rfl, by decide, by decide, by decide⟩
  · exact ⟨["g722".toList], _, ["PCMA".toList], rfl, by decide, by decide, by decide⟩
  · exact ⟨[], _, ["PCMU".toList, "PCMA".toList], rfl, by decide, by decide, by decide⟩

end PjsuaMcp.Scenario
