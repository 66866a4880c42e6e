import PjsuaMcp.Scenario.ChronicledRuns

/-!
# What the timeline of a run tells

Every emission that has begun while the recorder was subscribed has exactly one
row, which is its event, when it is over; and what a hook does comes after the
event that it was called for. Other threads may emit at any time, callbacks may
raise, and hooks may emit as well.
-/

namespace PjsuaMcp.Scenario

open Library

/-- The row of a coroutine of a hook has the event that the hook was called for before it. -/
def Chronicle.Chronological (c : Chronicle) : Prop :=
  ∀ before row, before ++ [row] <+: c.log → ∀ n, row.1 = .task (.hookRun n) →
    ∃ f, c.firings[n]? = some f ∧ (.emission f.1, .event f.2.2) ∈ before

/-- The timeline, row by row with who has made it, and the hooks that have fired. -/
structure Recording.InOrder (w : Recording) : Prop where
  timeline : w.chronicle.log.map Prod.snd = w.run.timeline
  firings : w.chronicle.firings.map Prod.snd = w.run.rt.scheduled
  /-- An emission that has begun after the start of the recorder and is over has one row. -/
  once : ∀ i ∈ w.chronicle.watched, ∀ e, w.run.rt.emissions[i]? = some e → e.finished = true →
    w.chronicle.rowsOf i = [(.emission i, .event e.event)]
  /-- The rows of an emission are its event, -/
  event : ∀ i entry, (.emission i, entry) ∈ w.chronicle.log →
    ∃ e, w.run.rt.emissions[i]? = some e ∧ entry = .event e.event
  /-- and there are no others that are events. -/
  emitted : ∀ r ∈ w.chronicle.log, ∀ ev, r.2 = .event ev → ∃ i, r.1 = .emission i
  chronological : w.chronicle.Chronological
  /-- The result keeps the rows up to the return. -/
  result : ∀ result, w.run.phase = .returned result → result.timeline <+: w.run.timeline

/-! ## Emissions that are over -/

namespace HookRuntime

variable {py : PyText} {s s' : HookRuntime}

/-- An emission is over when it has called everything. -/
def Settled (s : HookRuntime) : Prop := ∀ e ∈ s.emissions, e.finished = true → e.todo = []

/-- A move of an emission changes that emission only. -/
theorem Advances.emissions {i : Nat} {e : Emission} (he : s.emissions[i]? = some e)
    (h : Advances py s i e s') :
    ∃ e', s'.emissions = s.emissions.set i e' ∧ (∀ sub ∈ e'.todo, sub ∈ e.todo) ∧
      (e'.finished = true → e.finished = true ∨ e.todo = []) := by
  have hreturned : e.returned.finished = true → e.finished = true := by
    cases htodo : e.todo <;> simp only [Emission.returned, htodo, imp_self]
  cases h with
  | idle last =>
      obtain ⟨hlt, hat⟩ := List.getElem?_eq_some_iff.mp he
      exact ⟨e, by rw [← hat, List.set_getElem_self], fun _ h => h, fun _ => .inr last⟩
  | finish last => exact ⟨_, rfl, fun _ h => h, fun _ => .inr last⟩
  | skip => exact ⟨_, rfl, fun _ => Emission.mem_todo_returned, fun h => .inl (hreturned h)⟩
  | schedule => exact ⟨_, rfl, fun _ => Emission.mem_todo_returned, fun h => .inl (hreturned h)⟩
  | enter | test | pass | detach | clear => exact ⟨_, rfl, fun _ h => h, .inl⟩

theorem advance_length (py : PyText) (s : HookRuntime) (i : Nat) :
    (s.advance py i).emissions.length = s.emissions.length := by
  obtain ⟨s', hmove, rfl | ⟨e, he, moved⟩⟩ := advance_cases py s i <;> rw [hmove]
  obtain ⟨e', hset, -⟩ := moved.emissions he
  rw [hset, List.length_set]

theorem Settled.step (h : s.Settled) (a : BusMove) : (s.step py a).Settled := by
  cases a with
  | subscribe | unsubscribe => exact h
  | arm spec patternName =>
      rcases arm_cases py s spec patternName with hsame | ⟨hook, -, harm⟩
      · rwa [HookRuntime.step, hsame]
      · rw [HookRuntime.step, harm]
        exact h
  | assign k =>
      rw [Settled, HookRuntime.step, assign_emissions]
      exact h
  | remove k =>
      rw [Settled, HookRuntime.step, remove_emissions]
      exact h
  | emit ev =>
      rw [HookRuntime.step, HookRuntime.emit]
      split
      · exact h
      · intro e he hfinished
        rcases List.mem_append.mp he with he | he
        · exact h e he hfinished
        · rw [List.mem_singleton.mp he] at hfinished
          cases hfinished
  | advance i =>
      obtain ⟨s', hmove, rfl | ⟨e, he, moved⟩⟩ := advance_cases py s i <;>
        rw [HookRuntime.step, hmove]
      · exact h
      · obtain ⟨e', hset, htodo, hfin⟩ := moved.emissions he
        intro e'' he'' hfinished
        rw [hset] at he''
        rcases List.mem_or_eq_of_mem_set he'' with he'' | rfl
        · exact h e'' he'' hfinished
        · have hempty : e.todo = [] := (hfin hfinished).elim (h e (List.mem_of_getElem? he)) id
          refine List.eq_nil_iff_forall_not_mem.mpr fun sub hsub => ?_
          rw [hempty] at htodo
          cases htodo sub hsub

theorem reachable_settled (run : (hookSystem py).Reachable s) : s.Settled := by
  refine run.invariant (P := Settled) ?_ fun _ a _ _ h => h.step a
  intro e he
  cases he

end HookRuntime

/-! ## One move -/

namespace Run

variable {py : PyText} {engine : Bool} {scenario : ScenarioSpec} {c : Chronicle} {s s' : Run}

/-- `s₁` is `s` after a callback; the chronicle has its row already. -/
structure Heard (c : Chronicle) (s s₁ : Run) : Prop where
  guarded : s₁.Guarded
  rt : s₁.rt = s.rt
  sub : s₁.recorderSub = s.recorderSub
  rows : c.log.map Prod.snd = s₁.timeline

/-- A callback other than the recorder's adds no row. -/
theorem Told.heard_other (told : Told c s) {callback : Callback} (other : callback ≠ .recorder)
    (ev : Event) {c' : Chronicle} (same : c'.log = c.log) :
    Heard c' s (s.deliver py callback ev) := by
  have hrows : c'.log.map Prod.snd = s.timeline := by
    rw [same]
    exact told.rows
  have hquiet : Heard c' s s := ⟨told.guarded, rfl, rfl, hrows⟩
  cases callback with
  | recorder => exact (other rfl).elim
  | stop spec =>
      simp only [deliver]
      split
      · have hguarded : Guarded { s with stopFuture := s.stopFuture.post ev } :=
          told.guarded.of_fields rfl rfl (fun _ h => h.congr rfl rfl rfl) (.refl _)
        exact ⟨hguarded, rfl, rfl, hrows⟩
      · exact hquiet
  | waiter t handlerId phone =>
      simp only [deliver]
      split
      · next subId future k ht =>
          split
          · have hguarded : (s.setTask t (.waiting subId (future.post ev) k)).Guarded := by
              refine told.guarded.setTask ht fun id f k' h => ?_
              cases h
              exact told.guarded.waiting ht
            cases t <;> exact ⟨hguarded, rfl, rfl, hrows⟩
          · exact hquiet
      · exact hquiet
  | hook | foreign => exact hquiet

/-- What an emission calls is told of. -/
theorem Told.heard (told : Told c s) {i : Nat} {c' : Chronicle} (adds : Kept.Adds c s.rt i c')
    {callback : Callback} {ev : Event} (hcall : s.rt.called i = some (callback, ev)) :
    Heard c' s (s.deliver py callback ev) := by
  by_cases hrec : callback = .recorder
  · subst hrec
    refine ⟨?_, rfl, rfl, ?_⟩
    · exact told.guarded.of_fields rfl rfl (fun _ h => h.congr rfl rfl rfl) (.refl _)
    · cases adds with
      | nothing none | firing none => exact (none ev hcall).elim
      | row records =>
          rw [Kept.Records, hcall] at records
          cases records
          rw [Chronicle.note, List.map_append, told.rows]
          rfl
  · refine told.heard_other hrec ev ?_
    cases adds with
    | nothing | firing => rfl
    | row records =>
        rw [Kept.Records, hcall] at records
        cases records
        exact (hrec rfl).elim

/-- An emission goes on: the chronicle gains what `Adds` says. -/
theorem Told.advance (told : Told c s) (i : Nat) :
    ∃ c', Kept.Adds c s.rt i c' ∧ Told c' (s.advance py engine i) := by
  obtain ⟨c', adds, kept⟩ := told.kept.advance py i
  refine ⟨c', adds, ?_⟩
  have hdone : ∀ s₁ : Run, Heard c' s s₁ → Told c'
      (if (s₁.moveBus py engine (.advance i)).loopEmit = some i ∧
          ((s₁.moveBus py engine (.advance i)).rt.emissions[i]?).any Emission.finished = true then
        { s₁.moveBus py engine (.advance i) with loopEmit := none }
      else s₁.moveBus py engine (.advance i)) := by
    intro s₁ heard
    have htold : Told c' (s₁.moveBus py engine (.advance i)) := by
      refine ⟨heard.guarded.moveBus _, ?_, heard.rows⟩
      change Kept c' s₁.recorderSub (s₁.rt.advance py i)
      rw [heard.rt, heard.sub]
      exact kept
    split
    · exact htold.of_fields rfl rfl rfl (fun _ h => h.congr rfl rfl rfl) (.refl _)
    · exact htold
  unfold Run.advance
  cases hcall : s.rt.called i with
  | some called => exact hdone _ (told.heard adds hcall)
  | none =>
      refine hdone s ⟨told.guarded, rfl, rfl, ?_⟩
      cases adds with
      | nothing | firing => exact told.rows
      | row records =>
          rw [Kept.Records, hcall] at records
          cases records

/-- The chronicle of the next state, from what a move has added. -/
theorem extend_eq {a : Move} {c' : Chronicle} (rows : List Entry) (fired : List (Nat × Event))
    (told' : Told c' s') (log : c'.log = c.log ++ rows.map fun entry => (s.mover a, entry))
    (firings : c'.firings = c.firings ++ fired.map fun firing => (a.emission, firing))
    (watched : c'.watched = c.watched ++ if s.recorderSub.isSome then
      (List.range s'.rt.emissions.length).drop s.rt.emissions.length else []) :
    c.extend a s s' = c' := by
  have hrows : s'.timeline.drop c.log.length = rows := by
    rw [← told'.rows, log, List.map_append, List.drop_left' (List.length_map _), List.map_map]
    exact List.map_id rows
  have hfired : s'.rt.scheduled.drop c.firings.length = fired := by
    rw [← told'.kept.fired, firings, List.map_append, List.drop_left' (List.length_map _),
      List.map_map]
    exact List.map_id fired
  obtain ⟨log', firings', watched'⟩ := c'
  cases log
  cases firings
  cases watched
  rw [Chronicle.extend, hrows, hfired]
  rfl

/-- What the chronicle gains by a move. -/
structure Gains (c : Chronicle) (s : Run) (a : Move) (s' : Run) : Prop where
  told : Told (c.extend a s s') s'
  firings : c.firings <+: (c.extend a s s').firings
  log : ∃ rows : List Entry,
    (c.extend a s s').log = c.log ++ rows.map (fun entry => (s.mover a, entry)) ∧
    ∀ n, s.mover a = .task (.hookRun n) → rows = [] ∨ n < s.runs.length

theorem Tells.gains {t : Task} (tells : Tells c s t s') {a : Move}
    (mover : s.mover a = .task t) : Gains c s a s' := by
  have howned : ∀ {rows}, s.Owned t rows →
      ∀ n, s.mover a = .task (.hookRun n) → rows = [] ∨ n < s.runs.length := by
    rintro rows owned n hmover
    rw [mover] at hmover
    cases hmover
    rcases owned with hnil | hrun | ⟨state, ht⟩
    · exact .inl hnil
    · cases hrun
    · exact .inr (List.getElem?_eq_some_iff.mp ht).1
  cases tells with
  | @rows rows owned told' emissions =>
      have heq : c.extend a s s' = c.notes (.task t) rows := by
        refine extend_eq rows [] told' (by rw [mover]; rfl) (List.append_nil _).symm ?_
        rw [emissions, List.drop_of_length_le (List.length_range.le), ite_self, List.append_nil]
        rfl
      exact ⟨heq ▸ told', heq ▸ List.prefix_rfl, rows, by rw [heq, mover]; rfl, howned owned⟩
  | @emit rows owned told' emissions =>
      have heq : c.extend a s s' =
          (c.notes (.task t) rows).watch s.rt.emissions.length s.recorderSub.isSome := by
        refine extend_eq rows [] told' (by rw [mover]; rfl) (List.append_nil _).symm ?_
        rw [emissions, List.range_succ, List.drop_left' List.length_range]
        rfl
      exact ⟨heq ▸ told', heq ▸ List.prefix_rfl, rows, by rw [heq, mover]; rfl, howned owned⟩

theorem Told.gains_advance (told : Told c s) (i : Nat) :
    Gains c s (.bus (.advance i)) (s.advance py engine i) := by
  have hadvance : ∃ c', Kept.Adds c s.rt i c' ∧ Told c' (s.advance py engine i) := told.advance i
  obtain ⟨c', adds, told'⟩ := hadvance
  have hwatched : c.watched = c.watched ++ if s.recorderSub.isSome then
      (List.range (s.advance py engine i).rt.emissions.length).drop s.rt.emissions.length
      else [] := by
    rw [advance_rt, HookRuntime.advance_length, List.drop_of_length_le List.length_range.le,
      ite_self, List.append_nil]
  have hother : ∀ n, s.mover (.bus (.advance i)) ≠ .task (.hookRun n) := fun n h => by cases h
  cases adds with
  | nothing =>
      have heq : c.extend (.bus (.advance i)) s (s.advance py engine i) = c :=
        extend_eq [] [] told' (List.append_nil _).symm (List.append_nil _).symm hwatched
      exact ⟨by rw [heq]; exact told', by rw [heq], [], by rw [heq]; exact (List.append_nil _).symm,
        fun n h => (hother n h).elim⟩
  | @row ev =>
      have heq : c.extend (.bus (.advance i)) s (s.advance py engine i) =
          c.note (.emission i) (.event ev) :=
        extend_eq [.event ev] [] told' rfl (List.append_nil _).symm hwatched
      exact ⟨heq ▸ told', by rw [heq]; exact List.prefix_rfl, [.event ev], by rw [heq]; rfl,
        fun n h => (hother n h).elim⟩
  | @firing h ev =>
      have heq : c.extend (.bus (.advance i)) s (s.advance py engine i) = c.fire i h ev :=
        extend_eq [] [(h, ev)] told' (List.append_nil _).symm rfl hwatched
      exact ⟨heq ▸ told', by rw [heq]; exact List.prefix_append _ _, [],
        by rw [heq]; exact (List.append_nil _).symm, fun n h => (hother n h).elim⟩

/-- Every move extends the chronicle by what it has done. -/
theorem Told.gains (told : Told c s) (sound : s.Sound) {a : Move} (en : s.enabled a = true) :
    Gains c s a (s.step py engine scenario a) := by
  have hmover : (∀ i, a ≠ .bus (.advance i)) → s.mover a = .task (s.current.getD .run) := by
    intro hother
    unfold mover
    split
    · next i => exact (hother i rfl).elim
    · rfl
  cases a with
  | bus m =>
      by_cases hadvance : ∃ i, m = .advance i
      · obtain ⟨i, rfl⟩ := hadvance
        exact told.gains_advance i
      · have hother : ∀ i, m ≠ .advance i := not_exists.mp hadvance
        have hstep : s.step py engine scenario (.bus m) = s.moveBus py engine m := by
          cases m with
          | advance i => exact (hother i rfl).elim
          | subscribe | unsubscribe | arm | assign | remove | emit => rfl
        rw [hstep]
        exact (told.tells_bus _ en hother).gains (hmover fun i h => hother i (Move.bus.inj h))
  | next info =>
      cases hcurrent : s.current with
      | none =>
          have hsame : s.step py engine scenario (.next info) = s := by
            simp only [Run.step, Run.next, hcurrent]
          rw [hsame]
          exact (told.tells _).gains (hmover fun i h => by cases h)
      | some t =>
          have hholds : s.mover (.next info) = .task (s.current.getD .run) :=
            hmover fun i h => by cases h
          refine (told.tells_next sound hcurrent info).gains ?_
          rw [hholds, hcurrent]
          rfl
  | turn t => exact (told.tells_turn _ t).gains (hmover fun i h => by cases h)
  | wake t => exact (told.tells_wake _ t).gains (hmover fun i h => by cases h)
  | expire t => exact (told.tells_expire _ t).gains (hmover fun i h => by cases h)
  | settle t => exact (told.tells_settle _ t).gains (hmover fun i h => by cases h)
  | settleStop => exact (told.tells_settleStop _).gains (hmover fun i h => by cases h)
  | runJob t answer =>
      exact (told.tells_runJob _ t answer).gains (hmover fun i h => by cases h)

end Run

/-! ## Cause before effect -/

/-- New rows come after everything that has been called so far. -/
theorem Chronicle.Chronological.append {c c' : Chronicle} (h : c.Chronological)
    (caused : ∀ f ∈ c.firings, (.emission f.1, .event f.2.2) ∈ c.log)
    (firings : c.firings <+: c'.firings) {o : Origin} {rows : List Entry}
    (log : c'.log = c.log ++ rows.map fun entry => (o, entry))
    (owned : ∀ n, o = .task (.hookRun n) → rows = [] ∨ n < c.firings.length) :
    c'.Chronological := by
  have hkept : ∀ {n : Nat} {f}, c.firings[n]? = some f → c'.firings[n]? = some f := by
    intro n f hf
    obtain ⟨later, hlater⟩ := firings
    rw [← hlater, List.getElem?_append_left (List.getElem?_eq_some_iff.mp hf).1, hf]
  intro before row hprefix n hrow
  rw [log] at hprefix
  have hold : before ++ [row] <+: c.log → ∃ f, c'.firings[n]? = some f ∧
      (.emission f.1, .event f.2.2) ∈ before := by
    intro hprefix
    obtain ⟨f, hf, hmem⟩ := h before row hprefix n hrow
    exact ⟨f, hkept hf, hmem⟩
  rcases List.prefix_or_prefix_of_prefix hprefix (List.prefix_append _ _) with hle | hge
  · exact hold hle
  · rcases List.prefix_concat_iff.mp hge with heq | ⟨new, rfl⟩
    · exact hold (heq ▸ List.prefix_rfl)
    · rw [List.append_assoc, List.prefix_append_right_inj] at hprefix
      have hmem : row ∈ rows.map fun entry => (o, entry) :=
        hprefix.subset (List.mem_append_right _ (List.mem_singleton_self row))
      obtain ⟨entry, hentry, rfl⟩ := List.mem_map.mp hmem
      have hlt : n < c.firings.length :=
        (owned n hrow).resolve_left (List.ne_nil_of_mem hentry)
      refine ⟨c.firings[n], hkept (List.getElem?_eq_getElem hlt), ?_⟩
      exact List.mem_append_left _ (caused _ (List.getElem_mem hlt))

/-! ## Every recording -/

namespace Recording

variable {py : PyText} {engine : Bool} {scenario : ScenarioSpec} {w : Recording}

theorem initial_told : Run.Told .initial .initial where
  guarded := by
    refine ⟨fun id h => ?_, fun _ => rfl, fun h => by cases h⟩
    cases h with
    | waiting h =>
        obtain ⟨t, future, k, ht⟩ := h
        cases t <;> cases ht
    | stop h => cases h
    | unsubscribing h => cases h
  kept := by
    refine ⟨rfl, fun _ _ h => (by cases h), fun _ _ h => (by cases h), fun _ h => (by cases h),
      fun id h => ?_, fun _ _ h => (by cases h), fun i _ => ⟨⟨rfl, fun _ h => (by cases h)⟩,
      fun h => (by cases h)⟩, fun _ h => (by cases h), fun _ h => (by cases h)⟩
    cases h with
    | hook h | arming h | once h | toRemove h => cases h
  rows := rfl

/-- The invariant of every recording. -/
structure Sound (w : Recording) : Prop where
  told : w.run.Told w.chronicle
  chronological : w.chronicle.Chronological
  result : ∀ result, w.run.phase = .returned result → result.timeline <+: w.run.timeline

theorem initial_sound : Sound .initial where
  told := initial_told
  chronological before row hprefix := by
    have hmem : row ∈ ([] : List (Origin × Entry)) :=
      hprefix.subset (List.mem_append_right _ (List.mem_singleton_self row))
    cases hmem
  result result h := by cases h

/-- A run that has returned stays so. -/
theorem returned_step {s : Run} {a : Move} (en : s.enabled a = true) {result : ScenarioResult}
    (ret : s.phase = .returned result) :
    (s.step py engine scenario a).phase = .returned result := by
  rcases Run.step_cases en with hloop | ⟨info, -, hnext⟩
  · rcases hloop.phase with hsame | ⟨hwait, -⟩
    · rw [hsame, ret]
    · rw [ret] at hwait
      cases hwait
  · rw [hnext]
    simp only [Run.runNext, ret]

/-- Every step keeps the recording sound. -/
theorem Sound.step (sound : w.Sound) (hrun : w.run.Sound) {a : Move}
    (en : w.run.enabled a = true) : (w.step py engine scenario a).Sound := by
  have gained : Run.Gains w.chronicle w.run a (w.run.step py engine scenario a) :=
    sound.told.gains hrun en
  obtain ⟨rows, hlog, howned⟩ := gained.log
  have hgrows : w.run.timeline <+: (w.run.step py engine scenario a).timeline := by
    rw [← sound.told.rows, ← gained.told.rows, hlog, List.map_append]
    exact List.prefix_append _ _
  have hlength : w.run.runs.length = w.chronicle.firings.length := by
    rw [hrun.core.paired, ← sound.told.kept.fired, List.length_map]
  refine ⟨gained.told, ?_, fun result hresult => ?_⟩
  · refine sound.chronological.append sound.told.kept.caused gained.firings hlog fun n hn => ?_
    rw [← hlength]
    exact howned n hn
  · cases before : w.run.phase.hasReturned with
    | false =>
        rw [(Run.timeline_of_return en before hresult).1]
        exact hgrows
    | true =>
        obtain ⟨result', hphase⟩ := Phase.result_of_returned before
        have hsame : result' = result := by
          rw [show (w.step py engine scenario a).run = w.run.step py engine scenario a from rfl,
            returned_step en hphase] at hresult
          exact Phase.returned.inj hresult
        exact (sound.result result (hsame ▸ hphase)).trans hgrows

/-- Every reachable recording is sound. -/
theorem reachable_sound (run : (recordings py engine scenario).Reachable w) : w.Sound :=
  run.invariant_using (fun _ run => Run.reachable_sound (reachable_run run)) initial_sound
    fun _ _ en _ hrun sound => sound.step hrun en

/-- The one row of an emission that was over after the start of the recorder. -/
theorem Sound.once (sound : w.Sound) (settled : w.run.rt.Settled) {i : Nat}
    (hi : i ∈ w.chronicle.watched) {e : Emission} (he : w.run.rt.emissions[i]? = some e)
    (finished : e.finished = true) : w.chronicle.Noted i e.event := by
  have hempty : e.todo = [] := settled e (List.mem_of_getElem? he) finished
  cases sound.told.kept.followed i e he with
  | ahead leads =>
      rw [hempty] at leads
      cases leads
  | behind noted => exact noted
  | unseen _ _ early => exact (early hi).elim

theorem Sound.event (sound : w.Sound) {i : Nat} {entry : Entry}
    (hmem : (.emission i, entry) ∈ w.chronicle.log) :
    ∃ e, w.run.rt.emissions[i]? = some e ∧ entry = .event e.event := by
  have hrows : (.emission i, entry) ∈ w.chronicle.rowsOf i :=
    List.mem_filter.mpr ⟨hmem, decide_eq_true rfl⟩
  have htouched : ¬w.chronicle.Untouched i := fun h => by
    rw [h.1] at hrows
    cases hrows
  cases he : w.run.rt.emissions[i]? with
  | none => exact (htouched (sound.told.kept.unborn i (List.getElem?_eq_none_iff.mp he)).1).elim
  | some e =>
      refine ⟨e, rfl, ?_⟩
      cases sound.told.kept.followed i e he with
      | ahead _ untouched | unseen _ untouched => exact (htouched untouched).elim
      | behind noted =>
          rw [noted, List.mem_singleton] at hrows
          exact (Prod.mk.inj hrows).2

/-- In every run the timeline is in order: each event that is emitted while the recorder is
subscribed has its row, once, and what the coroutine of a hook adds stands behind the row of the
event that the hook was called for. The result has all the rows of the move at which `run`
returns. -/
theorem timeline_inOrder (run : (recordings py engine scenario).Reachable w) :
    w.InOrder ∧ ∀ a result, w.run.enabled a = true → w.run.phase.hasReturned = false →
      (w.step py engine scenario a).run.phase = .returned result →
      result.timeline = w.run.timeline := by
  have sound := reachable_sound run
  have hsettled := HookRuntime.reachable_settled (Run.reachable_rt (reachable_run run))
  refine ⟨?_, fun a result en before ret => (Run.timeline_of_return en before ret).1⟩
  exact
    { timeline := sound.told.rows
      firings := sound.told.kept.fired
      once := fun i hi e he hfinished => sound.once hsettled hi he hfinished
      event := fun i entry => sound.event
      emitted := sound.told.kept.events
      chronological := sound.chronological
      result := sound.result }

/-- The run with the hook that hangs up after the return. -/
def late : Recording :=
  (recordings .ascii true lateHangup).run .initial
    (stopWhileWaiting ++ .next none :: wakeAfterReturn)

/-- Four events are emitted, the hook is called by the second of them, and it waits and hangs
up. -/
theorem late_inOrder :
    late.InOrder ∧ late.chronicle.watched = [0, 1, 2, 3] ∧
      late.chronicle.firings.map Prod.fst = [1] ∧
      late.chronicle.log.map Prod.fst =
        [.task .run, .emission 0, .emission 1, .task (.hookRun 0), .emission 2, .emission 3,
          .task .run, .task (.hookRun 0)] := by
  have run : (recordings .ascii true lateHangup).Reachable late :=
    GuardedSystem.Reach.init.run (by decide +kernel)
  exact ⟨(timeline_inOrder run).1, by decide +kernel⟩

end Recording

end PjsuaMcp.Scenario
