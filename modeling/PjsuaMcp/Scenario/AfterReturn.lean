import PjsuaMcp.Scenario.LoopSteps

/-!
# What still happens after a run has returned

`run` removes the hooks before it returns, but keeps no hold on the coroutines
that they have started. After the return the bus holds no subscription of a
hook; what is still performed belongs to coroutines that had not come to their
end, or to emits that had copied a hook before it was removed.
-/

namespace PjsuaMcp.Scenario

open Library

/-- From this phase on the hook is out of the bus. -/
def Phase.past : Phase → Nat → Prop
  | removing rest _, h => h ∉ rest
  | stopping _, _ | finishing _, _ | detaching _, _ | returning _, _ | returned _, _ => True
  | _, _ => False

theorem Phase.result_of_returned {phase : Phase} (h : phase.hasReturned = true) :
    ∃ result, phase = .returned result := by
  cases phase with
  | returned result => exact ⟨result, rfl⟩
  | _ => cases h

theorem Phase.past_of_returned {phase : Phase} (h : phase.hasReturned = true) (hook : Nat) :
    phase.past hook := by
  cases phase with
  | returned => trivial
  | _ => cases h

theorem Phase.not_past_of_inWait {phase : Phase} (h : phase.inWait = true) (hook : Nat) :
    ¬phase.past hook := by
  cases phase with
  | acting | awaiting | unsubscribing => exact id
  | _ => cases h

theorem Phase.running_of_inWait {phase : Phase} (h : phase.inWait = true) :
    phase.hasReturned = false := by
  cases phase with
  | returned => cases h
  | _ => rfl

/-- What has been set up before stays set up. -/
theorem Phase.Next.past {scn : ScenarioSpec} {phase phase' : Phase}
    (next : Phase.Next scn phase phase') (h : Nat) (hpast : phase'.past h) : phase.past h := by
  cases next with
  | stay => exact hpast
  | removed => exact List.not_mem_nil
  | stop | finish | detach | ret => trivial
  | _ => exact False.elim hpast

theorem Phase.Next.running {scn : ScenarioSpec} {phase phase' : Phase}
    (next : Phase.Next scn phase phase') (before : phase.hasReturned = false)
    (hlast : ∀ outcome, phase ≠ .returning outcome) : phase'.hasReturned = false := by
  cases next with
  | stay => exact before
  | ret => exact absurd rfl (hlast _)
  | _ => rfl

/-- Arms are unfinished only inside `arm`, and hooks are detached as `run` goes through them. -/
structure InPhase (rt : HookRuntime) (phase : Phase) : Prop where
  arming : ∀ h, rt.arming.get? h ≠ none → ∃ rest, phase = .assigning h rest
  detached : ∀ h, phase.past h → ¬rt.Attached h

theorem InPhase.armed {rt : HookRuntime} {phase : Phase} (inv : InPhase rt phase)
    (hp : ∀ h rest, phase ≠ .assigning h rest) (h : Nat) : rt.arming.get? h = none := by
  by_contra hne
  obtain ⟨rest, hphase⟩ := inv.arming h hne
  exact hp h rest hphase

theorem InPhase.same_rt {rt : HookRuntime} {phase phase' : Phase} (inv : InPhase rt phase)
    (hp : ∀ h rest, phase ≠ .assigning h rest) (hpast : ∀ h, phase'.past h → phase.past h) :
    InPhase rt phase' where
  arming h hne := absurd (inv.armed hp h) hne
  detached h hpast' := inv.detached h (hpast h hpast')

theorem BusMove.not_arm_of_quiet {m : BusMove} (quiet : m.quiet = true) (spec : Dict)
    (patternName : Text) : m ≠ .arm spec patternName := by
  rintro rfl
  cases quiet

/-- A quiet move attaches nothing. -/
theorem HookRuntime.not_attached_quiet {py : PyText} {rt : HookRuntime} {m : BusMove}
    (quiet : m.quiet = true) {h : Nat} (gone : ¬rt.Attached h) : ¬(rt.step py m).Attached h := by
  intro at_h
  rcases attached_of_step (m.enabled_of_quiet quiet) at_h with at_h | ⟨spec, name, heq, _⟩
  · exact gone at_h
  · exact m.not_arm_of_quiet quiet spec name heq

/-- A move that neither arms nor removes a hook. -/
theorem InPhase.quiet_step {py : PyText} {rt : HookRuntime} {phase phase' : Phase}
    (inv : InPhase rt phase) {m : BusMove} (quiet : m.quiet = true)
    (hp : (∀ h rest, phase ≠ .assigning h rest) ∨ phase' = phase)
    (hpast : ∀ h, phase'.past h → phase.past h) : InPhase (rt.step py m) phase' where
  arming h hne := by
    have hne : rt.arming.get? h ≠ none :=
      fun armed => hne (HookRuntime.arming_step h (m.not_arm_of_quiet quiet) armed)
    rcases hp with hp | rfl
    · exact absurd (inv.armed hp h) hne
    · exact inv.arming h hne
  detached h hpast' := HookRuntime.not_attached_quiet quiet (inv.detached h (hpast h hpast'))

namespace Run

variable {py : PyText} {engine : Bool} {scenario : ScenarioSpec} {s s' : Run}

/-! ## Every state of a run -/

/-- The hooks are in order, there is a coroutine for every firing, and the timeline has every
row that has been recorded. -/
structure Core (s : Run) : Prop where
  housed : s.rt.Housed
  informed : s.rt.Informed
  paired : s.runs.length = s.rt.scheduled.length
  recorded : ∀ p ∈ s.performed, ∀ entry, p.2.row? = some entry → entry ∈ s.timeline

theorem Core.of_fields (core : s.Core) (hrt : s'.rt = s.rt)
    (hlen : s'.runs.length = s.runs.length) (hperformed : s'.performed = s.performed)
    (htimeline : s.timeline ⊆ s'.timeline) : s'.Core where
  housed := hrt ▸ core.housed
  informed := hrt ▸ core.informed
  paired := by rw [hlen, hrt, core.paired]
  recorded p hp entry hentry := htimeline (core.recorded p (hperformed ▸ hp) entry hentry)

theorem Core.perform (core : s.Core) (t : Task) (op : Op) : (s.perform t op).Core where
  housed := core.housed
  informed := core.informed
  paired := core.paired
  recorded p hp entry hentry := by
    rcases List.mem_append.mp hp with hp | hp
    · exact List.mem_append_left _ (core.recorded p hp entry hentry)
    · rw [List.mem_singleton.mp hp] at hentry
      refine List.mem_append_right _ ?_
      rw [hentry]
      exact List.mem_singleton_self entry

/-- Coroutines that are scheduled stay so, in their places. -/
theorem scheduled_grows (py : PyText) (rt : HookRuntime) (m : BusMove) :
    rt.scheduled <+: (rt.step py m).scheduled := by
  rcases HookRuntime.scheduled_step py rt m with heq | ⟨h, e, _, _, heq⟩
  · rw [heq]
  · rw [heq]
    exact List.prefix_append _ _

/-- A move of the bus keeps the runs and what they have performed. -/
theorem Core.moveBus (core : s.Core) {m : BusMove} (en : HookRuntime.enabled m = true) :
    (s.moveBus py engine m).Core := by
  have sound : (s.rt.step py m).Housed ∧ (s.rt.step py m).Informed :=
    HookRuntime.step_housed_informed en ⟨core.housed, core.informed⟩
  refine ⟨sound.1, sound.2, ?_, core.recorded⟩
  have hle := (scheduled_grows py s.rt m).length_le
  simp only [Run.moveBus, List.length_append, List.length_map, List.length_drop, core.paired]
  omega

/-- The invariant of every run. -/
structure Sound (s : Run) : Prop where
  core : s.Core
  inPhase : InPhase s.rt s.phase

/-- A step that is local to one task. -/
theorem Sound.of_local (sound : s.Sound) (h : Local s s') : s'.Sound where
  core := sound.core.of_fields h.rt h.length h.performed h.timeline
  inPhase := by
    rw [h.rt]
    rcases h.phase with heq | ⟨hin, hout⟩
    · rw [heq]
      exact sound.inPhase
    · refine sound.inPhase.same_rt (fun h rest hphase => ?_) fun h hpast => ?_
      · rw [hphase] at hin
        cases hin
      · exact absurd hpast (Phase.not_past_of_inWait hout h)

theorem Sound.perform (sound : s.Sound) (t : Task) (op : Op) : (s.perform t op).Sound :=
  ⟨sound.core.perform t op, sound.inPhase⟩

theorem Sound.moveBus (sound : s.Sound) {m : BusMove} (quiet : m.quiet = true) :
    (s.moveBus py engine m).Sound :=
  ⟨sound.core.moveBus (m.enabled_of_quiet quiet),
    sound.inPhase.quiet_step quiet (.inr rfl) fun _ hpast => hpast⟩

/-- A step of the event loop. -/
theorem Sound.loopStep (sound : s.Sound) (h : LoopStep py engine s s') : s'.Sound := by
  obtain ⟨s₁, s₂, s₃, hperforms, hlocal, hmoves, hlocal'⟩ := h
  have sound₁ : s₁.Sound := by
    rcases hperforms with rfl | ⟨t, op, _, rfl⟩
    · exact sound
    · exact sound.perform t op
  have sound₂ := sound₁.of_local hlocal
  have sound₃ : s₃.Sound := by
    rcases hmoves with rfl | ⟨m, quiet, rfl⟩
    · exact sound₂
    · exact sound₂.moveBus quiet
  exact sound₃.of_local hlocal'

/-! ## The moves of `run` -/

/-- `run` moves on without the bus. -/
theorem Sound.phase_step (sound : s.Sound) (hrt : s'.rt = s.rt) (hruns : s'.runs = s.runs)
    (hperformed : s'.performed = s.performed) (htimeline : s.timeline ⊆ s'.timeline)
    (hp : ∀ h rest, s.phase ≠ .assigning h rest)
    (hpast : ∀ h, s'.phase.past h → s.phase.past h) : s'.Sound where
  core := sound.core.of_fields hrt (by rw [hruns]) hperformed htimeline
  inPhase := hrt ▸ sound.inPhase.same_rt hp hpast

/-- `run` moves on with a quiet move of the bus. -/
theorem Sound.bus_step (sound : s.Sound) {m : BusMove} (quiet : m.quiet = true)
    (hrt : s'.rt = (s.moveBus py engine m).rt) (hruns : s'.runs = (s.moveBus py engine m).runs)
    (hperformed : s'.performed = s.performed) (htimeline : s.timeline ⊆ s'.timeline)
    (hp : ∀ h rest, s.phase ≠ .assigning h rest)
    (hpast : ∀ h, s'.phase.past h → s.phase.past h) : s'.Sound where
  core := by
    have core : (s.moveBus py engine m).Core := sound.core.moveBus (m.enabled_of_quiet quiet)
    exact core.of_fields hrt (by rw [hruns]) hperformed htimeline
  inPhase := hrt ▸ sound.inPhase.quiet_step quiet (.inl hp) hpast

/-- The next hook is armed. -/
theorem Sound.arm (sound : s.Sound) {spec : Dict} {rest : List Dict} (patternName : Text)
    (hphase : s.phase = .arming (spec :: rest)) :
    Sound { s.moveBus py engine (.arm spec patternName) with
      phase := .assigning s.rt.hooks.length rest } where
  core := (sound.core.moveBus (m := .arm spec patternName) rfl).of_fields rfl rfl rfl
    (List.Subset.refl _)
  inPhase := by
    refine ⟨fun h hne => ⟨rest, ?_⟩, fun h hpast => False.elim hpast⟩
    have armed := sound.inPhase.armed (by simp [hphase]) h
    have hne : (s.rt.arm py spec patternName).arming.get? h ≠ none := hne
    rcases HookRuntime.arm_cases py s.rt spec patternName with hsame | ⟨new, _, harm⟩
    · rw [hsame] at hne
      exact absurd armed hne
    · rw [harm, OrderedDict.get?_set] at hne
      split at hne
      next hh => rw [hh]
      next => exact absurd armed hne

/-- A hook is assigned its subscription. -/
theorem Sound.assign (sound : s.Sound) {h : Nat} {rest : List Dict}
    (hphase : s.phase = .assigning h rest) :
    Sound { s.moveBus py engine (.assign h) with phase := .arming rest } where
  core := (sound.core.moveBus (m := .assign h) rfl).of_fields rfl rfl rfl (List.Subset.refl _)
  inPhase := by
    refine ⟨fun h' hne => ?_, fun h hpast => False.elim hpast⟩
    have hne : (s.rt.assign h).arming.get? h' ≠ none := hne
    have hother : s.rt.arming.get? h' ≠ none → h' = h := by
      intro hne'
      obtain ⟨rest', hphase'⟩ := sound.inPhase.arming h' hne'
      rw [hphase] at hphase'
      cases hphase'
      rfl
    simp only [HookRuntime.assign] at hne
    split at hne
    next hnone =>
      rw [hother hne] at hne
      exact absurd hnone hne
    next =>
      rw [OrderedDict.get?_pop] at hne
      split at hne
      · exact absurd rfl hne
      next hh => exact absurd (hother hne) hh

/-- When the stop handlers are gone, every hook in the bus is in `_hooks`. -/
theorem Sound.begin_removing (sound : s.Sound) {outcome : Outcome}
    (hphase : s.phase = .unsubscribing [] outcome) :
    Sound { s with phase := .removing s.rt.registered outcome } where
  core := sound.core.of_fields rfl rfl rfl (List.Subset.refl _)
  inPhase := by
    have hp : ∀ h rest, s.phase ≠ .assigning h rest := by simp [hphase]
    refine ⟨fun h hne => absurd (sound.inPhase.armed hp h) hne, ?_⟩
    rintro h hpast ⟨id, sub, hget, call⟩
    rcases sound.core.housed.home id sub h hget call with harm | ⟨hreg, _⟩
    · rw [sound.inPhase.armed hp h] at harm
      cases harm
    · exact hpast hreg

/-- A hook is taken off the bus. -/
theorem Sound.remove (sound : s.Sound) {h : Nat} {rest : List Nat} {outcome : Outcome}
    (hphase : s.phase = .removing (h :: rest) outcome) :
    Sound { s.moveBus py engine (.remove h) with phase := .removing rest outcome } where
  core := (sound.core.moveBus (m := .remove h) rfl).of_fields rfl rfl rfl (List.Subset.refl _)
  inPhase := by
    have armed := sound.inPhase.armed (by simp [hphase])
    refine ⟨fun h' hne => ?_, fun h' hpast at_h => ?_⟩
    · have hkept : (s.rt.step py (.remove h)).arming.get? h' = none :=
        HookRuntime.arming_step h' (by simp) (armed h')
      exact absurd hkept hne
    · have at_h : (s.rt.step py (.remove h)).Attached h' := at_h
      have at_s : s.rt.Attached h' := by
        rcases HookRuntime.attached_of_step rfl at_h with at_s | ⟨_, _, heq, _⟩
        · exact at_s
        · cases heq
      by_cases hh : h' = h
      · subst hh
        by_cases hreg : h' ∈ s.rt.registered
        · exact sound.core.housed.remove_detaches hreg at_h
        · obtain ⟨id, sub, hget, call⟩ := at_s
          rcases sound.core.housed.home id sub h' hget call with harm | ⟨hreg', _⟩
          · rw [armed h'] at harm
            cases harm
          · exact hreg hreg'
      · refine sound.inPhase.detached h' ?_ at_s
        rw [hphase]
        exact fun hmem => hpast ((List.mem_cons.mp hmem).resolve_left hh)

/-- A step of `run` itself. -/
theorem Sound.runStep (sound : s.Sound) (h : RunStep py engine scenario s s') : s'.Sound := by
  cases h with
  | plain same next =>
      exact sound.phase_step same.rt same.runs same.performed same.timeline next.not_assigning
        next.past
  | bus m quiet same next =>
      exact sound.bus_step quiet same.rt same.runs same.performed same.timeline
        next.not_assigning next.past
  | refuse hphase =>
      exact sound.phase_step rfl rfl rfl (List.Subset.refl _) (by simp [hphase])
        fun h => False.elim
  | arm hphase => exact sound.arm _ hphase
  | assign hphase => exact sound.assign hphase
  | @subscribe spec rest patterns hphase =>
      exact sound.bus_step (m := .subscribe patterns (.stop spec) false) rfl rfl rfl rfl
        (List.Subset.refl _) (by simp [hphase]) fun h => False.elim
  | beginRemoving hphase => exact sound.begin_removing hphase
  | remove hphase => exact sound.remove hphase

/-- Every step keeps the run sound. -/
theorem Sound.step (sound : s.Sound) {a : Move} (en : s.enabled a = true) :
    (s.step py engine scenario a).Sound := by
  rcases step_cases en with hloop | ⟨info, _, hnext⟩
  · exact sound.loopStep hloop
  · rw [hnext]
    exact sound.runStep (runNext_cases info)

theorem initial_sound : initial.Sound where
  core := ⟨HookRuntime.initial_housed, HookRuntime.initial_informed, rfl, nofun⟩
  inPhase := ⟨fun _ hne => absurd rfl hne, fun _ => False.elim⟩

/-- Every reachable run is sound. -/
theorem reachable_sound (run : (scenarioSystem py engine scenario).Reachable s) : s.Sound :=
  run.invariant initial_sound fun _ _ en _ sound => sound.step en

/-! ## The step that returns -/

/-- The event loop leaves `run` where it is, or within its wait. -/
theorem LoopStep.phase (h : LoopStep py engine s s') :
    s'.phase = s.phase ∨ (s.phase.inWait = true ∧ s'.phase.inWait = true) := by
  obtain ⟨s₁, s₂, s₃, hperforms, hlocal, hmoves, hlocal'⟩ := h
  have h₁ : s₁.phase = s.phase := by
    rcases hperforms with rfl | ⟨_, _, _, rfl⟩ <;> rfl
  have h₃ : s₃.phase = s₂.phase := by
    rcases hmoves with rfl | ⟨_, _, rfl⟩ <;> rfl
  have hphase := hlocal.phase
  have hphase' := hlocal'.phase
  rw [h₁] at hphase
  rw [h₃] at hphase'
  rcases hphase' with heq' | ⟨hin', hout'⟩
  · rw [heq']
    exact hphase
  · rcases hphase with heq | ⟨hin, _⟩
    · exact .inr ⟨heq ▸ hin', hout'⟩
    · exact .inr ⟨hin, hout'⟩

/-- Only the last move of `run` returns. -/
theorem RunStep.running (h : RunStep py engine scenario s s')
    (before : s.phase.hasReturned = false) (hlast : ∀ outcome, s.phase ≠ .returning outcome) :
    s'.phase.hasReturned = false := by
  cases h with
  | plain _ next | bus _ _ _ next => exact next.running before hlast
  | refuse | arm | assign | subscribe | beginRemoving | remove => rfl

/-- The move at which `run` returns puts the timeline of that moment into the result. -/
theorem timeline_of_return {a : Move} {result : ScenarioResult} (en : s.enabled a = true)
    (before : s.phase.hasReturned = false)
    (ret : (s.step py engine scenario a).phase = .returned result) :
    result.timeline = s.timeline ∧ (s.step py engine scenario a).performed = s.performed := by
  have after : (s.step py engine scenario a).phase.hasReturned = true := by
    rw [ret]
    rfl
  rcases step_cases en with hloop | ⟨info, _, hnext⟩
  · rcases hloop.phase with heq | ⟨_, hout⟩
    · rw [heq, before] at after
      cases after
    · rw [ret] at hout
      cases hout
  · rw [hnext] at ret after ⊢
    by_cases hlast : ∃ outcome, s.phase = .returning outcome
    · obtain ⟨outcome, hphase⟩ := hlast
      simp only [Run.runNext, hphase] at ret ⊢
      cases ret
      exact ⟨rfl, trivial⟩
    · rw [(runNext_cases info).running before (not_exists.mp hlast)] at after
      cases after

/-! ## What is left behind -/

/-- An emit in progress has the hook still to call for the event. -/
def InFlight (s : Run) (h : Nat) (ev : Event) : Prop :=
  ∃ e ∈ s.rt.emissions, e.holds h = true ∧ e.event = ev

/-- A coroutine of a hook that goes on after `s₀`: it has not come to its end there, or it is
scheduled later by an emit that was in progress there. -/
def LeftBehind (s₀ s : Run) (n : Nat) : Prop :=
  s₀.Unfinished (.hookRun n) ∨ ∃ h ev, s.rt.scheduled[n]? = some (h, ev) ∧ s₀.InFlight h ev

/-- What the state after the return says of every later state. -/
structure Since (s₀ s : Run) : Prop where
  gone : ∀ h, ¬s.rt.Attached h
  returned : s.phase.hasReturned = true
  held : ∀ e ∈ s.rt.emissions, ∀ h, e.holds h = true → s₀.InFlight h e.event
  finished : ∀ (n : Nat) (state : TaskState), s₀.runs[n]? = some state → state.isDone = true →
    s.runs[n]? = some state
  fresh : ∀ n firing, s₀.runs.length ≤ n → s.rt.scheduled[n]? = some firing →
    s₀.InFlight firing.1 firing.2
  performed : ∃ later, s.performed = s₀.performed ++ later ∧
    ∀ p ∈ later, ∃ n, p.1 = .hookRun n ∧ s₀.LeftBehind s n

variable {s₀ : Run}

/-- At the return, nothing has happened since. -/
theorem Since.refl (sound : s.Sound) (ret : s.phase.hasReturned = true) : Since s s where
  gone h := sound.inPhase.detached h (Phase.past_of_returned ret h)
  returned := ret
  held e he h hholds := ⟨e, he, hholds, rfl⟩
  finished _ _ hn _ := hn
  fresh n firing hle hn := by
    have hlt := (List.getElem?_eq_some_iff.mp hn).1
    rw [sound.core.paired] at hle
    omega
  performed := ⟨[], (List.append_nil _).symm, nofun⟩

/-- What is performed from now on is performed by a task left behind. -/
theorem Since.perform (since : Since s₀ s) (sound : s.Sound) {t : Task} (open_t : s.Unfinished t)
    (op : Op) : Since s₀ (s.perform t op) where
  gone := since.gone
  returned := since.returned
  held := since.held
  finished := since.finished
  fresh := since.fresh
  performed := by
    obtain ⟨later, hlater, hleft⟩ := since.performed
    refine ⟨later ++ [(t, op)], ?_, fun p hp => ?_⟩
    · simp only [Run.perform, hlater, List.append_assoc]
    · rcases List.mem_append.mp hp with hp | hp
      · exact hleft p hp
      · rw [List.mem_singleton.mp hp]
        obtain ⟨state, hstate, hopen⟩ := open_t
        cases t with
        | run =>
            have hret := since.returned
            rw [task?_run_some hstate] at hret
            cases hret
        | hookRun n =>
            refine ⟨n, rfl, ?_⟩
            have hn : s.runs[n]? = some state := hstate
            by_cases hle : s₀.runs.length ≤ n
            · have hlt := (List.getElem?_eq_some_iff.mp hn).1
              rw [sound.core.paired] at hlt
              have hfiring := List.getElem?_eq_getElem hlt
              exact .inr ⟨_, _, hfiring, since.fresh n _ hle hfiring⟩
            · -- had it come to its end before, it would be at its end now
              refine .inl ⟨s₀.runs[n], List.getElem?_eq_getElem (Nat.lt_of_not_le hle), ?_⟩
              by_contra hdone
              have hkept := since.finished n _ (List.getElem?_eq_getElem (Nat.lt_of_not_le hle))
                (by simpa using hdone)
              rw [hn] at hkept
              cases hkept
              exact hdone hopen

theorem Since.of_local (since : Since s₀ s) (h : Local s s') : Since s₀ s' where
  gone := h.rt ▸ since.gone
  returned := by
    rcases h.phase with heq | ⟨hin, _⟩
    · exact heq ▸ since.returned
    · have hret := since.returned
      rw [Phase.running_of_inWait hin] at hret
      cases hret
  held := h.rt ▸ since.held
  finished n state hn hd := h.finished n state (since.finished n state hn hd) hd
  fresh := h.rt ▸ since.fresh
  performed := by
    simp only [LeftBehind, h.rt, h.performed]
    exact since.performed

theorem Since.moveBus (since : Since s₀ s) {m : BusMove} (quiet : m.quiet = true) :
    Since s₀ (s.moveBus py engine m) where
  gone h := HookRuntime.not_attached_quiet quiet (since.gone h)
  returned := since.returned
  held e he h hholds := by
    have he : e ∈ (s.rt.step py m).emissions := he
    rcases HookRuntime.holds_of_step he hholds with ⟨e', he', hholds', hevent⟩ | at_h
    · exact hevent ▸ since.held e' he' h hholds'
    · exact absurd at_h (since.gone h)
  finished n state hn hd := by
    exact cell_append (since.finished n state hn hd) _
  fresh n firing hle hn := by
    have hn : (s.rt.step py m).scheduled[n]? = some firing := hn
    rcases HookRuntime.scheduled_step py s.rt m with heq | ⟨h, e, he, hholds, heq⟩
    · rw [heq] at hn
      exact since.fresh n firing hle hn
    · rw [heq] at hn
      obtain hold | ⟨rfl, rfl⟩ := cell_of_concat hn
      · exact since.fresh n firing hle hold
      · exact since.held e he h hholds
  performed := by
    obtain ⟨later, hlater, hleft⟩ := since.performed
    refine ⟨later, hlater, fun p hp => ?_⟩
    obtain ⟨n, hn, hcase⟩ := hleft p hp
    refine ⟨n, hn, hcase.imp_right ?_⟩
    rintro ⟨h, ev, hfiring, hflight⟩
    refine ⟨h, ev, ?_, hflight⟩
    obtain ⟨rest, hrest⟩ := scheduled_grows py s.rt m
    have hlt := (List.getElem?_eq_some_iff.mp hfiring).1
    change (s.rt.step py m).scheduled[n]? = some (h, ev)
    rw [← hrest, List.getElem?_append_left hlt, hfiring]

/-- After the return, the event loop only serves the tasks left behind. -/
theorem Since.loopStep (since : Since s₀ s) (sound : s.Sound) (h : LoopStep py engine s s') :
    Since s₀ s' := by
  obtain ⟨s₁, s₂, s₃, hperforms, hlocal, hmoves, hlocal'⟩ := h
  have since₁ : Since s₀ s₁ := by
    rcases hperforms with rfl | ⟨t, op, open_t, rfl⟩
    · exact since
    · exact since.perform sound open_t op
  have since₂ := since₁.of_local hlocal
  have since₃ : Since s₀ s₃ := by
    rcases hmoves with rfl | ⟨m, quiet, rfl⟩
    · exact since₂
    · exact since₂.moveBus quiet
  exact since₃.of_local hlocal'

/-- What holds since the return holds after every further step. -/
theorem Since.step (since : Since s₀ s) (sound : s.Sound) {a : Move} (en : s.enabled a = true) :
    Since s₀ (s.step py engine scenario a) := by
  rcases step_cases en with hloop | ⟨info, _, hnext⟩
  · exact since.loopStep sound hloop
  · have hret := since.returned
    rw [hnext]
    simp only [Run.runNext]
    cases hphase : s.phase <;> rw [hphase] at hret <;> first | exact since | cases hret

end Run

open Run in
/-- `run` returns at the move `a`. The result has every row recorded so far, the bus has no hook
of the scenario from then on, and what is performed later belongs to coroutines that were left
behind. -/
theorem performed_after_return {py : PyText} {engine : Bool} {scenario : ScenarioSpec}
    {s₁ s₀ : Run} {a : Move} {moves : List Move}
    (run : (scenarioSystem py engine scenario).Reachable s₁) (en : s₁.enabled a = true)
    (before : s₁.phase.hasReturned = false) (last : s₀ = (scenarioSystem py engine scenario).step s₁ a)
    (ret : s₀.phase.hasReturned = true)
    (legal : (scenarioSystem py engine scenario).Legal (fun _ _ => True) s₀ moves) :
    (∃ result, s₀.phase = .returned result ∧
        ∀ p ∈ s₀.performed, ∀ entry, p.2.row? = some entry → entry ∈ result.timeline) ∧
      (∀ h, ¬((scenarioSystem py engine scenario).run s₀ moves).rt.Attached h) ∧
      ∃ later, ((scenarioSystem py engine scenario).run s₀ moves).performed =
          s₀.performed ++ later ∧
        (∀ p ∈ later, ∃ n, p.1 = .hookRun n ∧
          s₀.LeftBehind ((scenarioSystem py engine scenario).run s₀ moves) n) ∧
        ((∀ n, ¬s₀.Unfinished (.hookRun n)) → (∀ h ev, ¬s₀.InFlight h ev) → later = []) := by
  have sound₁ := reachable_sound run
  have last : s₀ = s₁.step py engine scenario a := last
  subst last
  have sound₀ : (s₁.step py engine scenario a).Sound := sound₁.step en
  obtain ⟨result, hresult⟩ := Phase.result_of_returned ret
  obtain ⟨htimeline, hperformed⟩ := timeline_of_return en before hresult
  have both := legal.invariant
    (P := fun s => s.Sound ∧ Since (s₁.step py engine scenario a) s)
    (fun s m hen _ ⟨sound, since⟩ => ⟨sound.step hen, since.step sound hen⟩)
    ⟨sound₀, Since.refl sound₀ ret⟩
  obtain ⟨-, since⟩ := both
  obtain ⟨later, hlater, hleft⟩ := since.performed
  refine ⟨⟨result, hresult, fun p hp entry hentry => ?_⟩, since.gone, later, hlater, hleft,
    fun hdone hidle => ?_⟩
  · rw [htimeline]
    exact sound₁.core.recorded p (hperformed ▸ hp) entry hentry
  · refine List.eq_nil_iff_forall_not_mem.mpr fun p hp => ?_
    obtain ⟨n, _, hopen | ⟨h, ev, _, hflight⟩⟩ := hleft p hp
    · exact hdone n hopen
    · exact hidle h ev hflight

/-! ## A hook that outlives its run -/

/-- A hook that hangs up five seconds after the call is confirmed, in a run that stops when the
call is disconnected. -/
def lateHangup : ScenarioSpec where
  name := "late".toList
  phones := []
  hooks := [[("when".toList, .ofString "call.state.confirmed"),
    ("then".toList, .list [.dict [("wait".toList, .int 5000)], .ofString "hangup"])]]
  initialActions := []
  stopOn := [[("event".toList, .ofString "call.state.disconnected")]]
  timeoutMs := 60000

def callEvent (type : String) : Event := ⟨⟨type.toList, .ofString "a", .int 1, []⟩, 0⟩

def nexts (n : Nat) : List Move := List.replicate n (.next none)

def advances (i n : Nat) : List Move := List.replicate n (.bus (.advance i))

/-- Arm, start, fire the hook into its wait, stop, and go on to the last move of `run`. -/
def stopWhileWaiting : List Move :=
  nexts 8 ++ advances 0 2 ++ nexts 3 ++
    .bus (.emit (callEvent "call.state.confirmed")) :: advances 1 7 ++
    .turn (.hookRun 0) :: nexts 2 ++
    .bus (.emit (callEvent "call.state.disconnected")) :: advances 2 3 ++
    .settleStop :: .turn .run :: nexts 5 ++ advances 3 2 ++ nexts 2

def returning : Run := (scenarioSystem .ascii true lateHangup).run .initial stopWhileWaiting

def justReturned : Run := (scenarioSystem .ascii true lateHangup).step returning (.next none)

/-- The wait ends, and the hook goes on to hang up. -/
def wakeAfterReturn : List Move :=
  .wake (.hookRun 0) :: .turn (.hookRun 0) :: nexts 3 ++ [.runJob (.hookRun 0) (.ok .null)]

/-- `hangup(phone_id="a", call_id=1)`. -/
def Op.hangsUp : Op → Bool
  | .runPj (.hangup phone callId) => phone.eq (.ofString "a") && callId.eq (.int 1)
  | _ => false

theorem hangup_after_return :
    (scenarioSystem .ascii true lateHangup).Reachable justReturned ∧
      justReturned.phase.hasReturned = true ∧
      (scenarioSystem .ascii true lateHangup).Legal (fun _ _ => True) justReturned
        wakeAfterReturn ∧
      ∃ p ∈ ((scenarioSystem .ascii true lateHangup).run justReturned
          wakeAfterReturn).performed.drop justReturned.performed.length,
        p.1 = .hookRun 0 ∧ p.2.hangsUp = true := by
  have run : (scenarioSystem .ascii true lateHangup).Reachable returning :=
    GuardedSystem.Reach.init.run (by decide +kernel)
  have last : (scenarioSystem .ascii true lateHangup).Reachable
      ((scenarioSystem .ascii true lateHangup).step returning (.next none)) := run.step rfl trivial
  refine ⟨last, ?_⟩
  decide +kernel

theorem hangup_left_behind :
    ∃ later, ((scenarioSystem .ascii true lateHangup).run justReturned
          wakeAfterReturn).performed = justReturned.performed ++ later ∧
      ∀ p ∈ later, ∃ n, p.1 = .hookRun n ∧ justReturned.LeftBehind
        ((scenarioSystem .ascii true lateHangup).run justReturned wakeAfterReturn) n := by
  have run : (scenarioSystem .ascii true lateHangup).Reachable returning :=
    GuardedSystem.Reach.init.run (by decide +kernel)
  have legal : (scenarioSystem .ascii true lateHangup).Legal (fun _ _ => True) justReturned
      wakeAfterReturn := by decide +kernel
  obtain ⟨-, -, later, hlater, hleft, -⟩ :=
    performed_after_return run rfl (by decide +kernel) rfl (by decide +kernel) legal
  exact ⟨later, hlater, hleft⟩

end PjsuaMcp.Scenario
