import PjsuaMcp.Scenario.StopHandlers

/-!
# The stop condition decides how a run ends

A watch is a run with the notices of its emissions. As long as `run` does not
give up a result that is on its way, it ends with `"ok"` exactly when some
event has matched an entry of `stop_on` that had been subscribed before, no
matter which thread has emitted it and when.
-/

namespace PjsuaMcp.Scenario

open Library

/-! ## Watches -/

/-- `run` waits no longer: it has left its wait, or raised. -/
def Phase.isOver (phase : Phase) : Bool := phase.outcome?.isSome || phase.hasRaised

/-- The run has ended with `"ok"`, or is about to. -/
def Phase.endsOk (phase : Phase) : Bool := phase.outcome?.map Outcome.status = some "ok"

theorem Phase.endsOk_iff {phase : Phase} :
    phase.endsOk = true ↔ ∃ outcome, phase.outcome? = some outcome ∧ outcome.status = "ok" := by
  rw [Phase.endsOk, decide_eq_true_eq, Option.map_eq_some_iff]

/-- The emission that the move lets go on calls its next handler. -/
def Run.tells (s : Run) (a : Move) (heard : List Notice) : List Notice :=
  match a with
  | .bus (.advance i) =>
      if s.phase.isOver then heard else heard.modify i fun n => n.hear (s.rt.called i)
  | _ => heard

structure Watch where
  run : Run
  /-- What every emission has told the stop condition while `run` was waiting or on its way. -/
  heard : List Notice

namespace Watch

def initial : Watch := ⟨.initial, []⟩

/-- The notices of the emissions that have begun between `s` and `s'`. -/
def begun (scn : ScenarioSpec) (s s' : Run) : List Notice :=
  (s'.rt.emissions.drop s.rt.emissions.length).map fun e =>
    ⟨e.event, scn.subscribed s.phase, []⟩

def step (py : PyText) (engine : Bool) (scn : ScenarioSpec) (w : Watch) (a : Move) : Watch :=
  let s' := w.run.step py engine scn a
  ⟨s', w.run.tells a w.heard ++ begun scn w.run s'⟩

/-- An event has matched an entry that had been subscribed, before `run` left its wait. -/
def Matched (py : PyText) (w : Watch) : Prop :=
  ∃ n ∈ w.heard, ∃ spec ∈ n.called, spec ∈ n.entries ∧ fits py spec n.event

end Watch

/-- The runs of a scenario, watched. -/
def watches (py : PyText) (engine : Bool) (scn : ScenarioSpec) : GuardedSystem Watch Move where
  init := .initial
  enabled w a := w.run.enabled a = true
  step := Watch.step py engine scn

instance (py : PyText) (engine : Bool) (scn : ScenarioSpec) (w : Watch) (a : Move) :
    Decidable ((watches py engine scn).enabled w a) :=
  inferInstanceAs (Decidable (w.run.enabled a = true))

/-- A matching event has completed the future, or its `set_result` is scheduled. -/
def Future.hasNews (future : Future) : Bool := future.result.isSome || !future.posted.isEmpty

/-- The wait of `run` times out. -/
def Run.timesOut (s : Run) : Move → Bool
  | .expire .run =>
      s.current.isNone &&
      match s.phase with
      | .awaiting => true
      | _ => false
  | _ => false

/-- `run` gives up, by its timeout or an exception, while a match is on its way to it. -/
def Run.losesMatch (scn : ScenarioSpec) (s : Run) (a : Move) : Bool :=
  s.stopFuture.hasNews && (s.timesOut a || s.raises scn a)

section Projection

variable {py : PyText} {engine : Bool} {scn : ScenarioSpec} {ok : Run → Move → Prop}

/-- A watch goes along with a run, -/
theorem watch_run {w : Watch} (run : (watches py engine scn).Reach (fun w a => ok w.run a) w) :
    (scenarioSystem py engine scn).Reach ok w.run := by
  induction run with
  | init => exact .init
  | step _ en hok ih => exact ih.step en hok

/-- and every run can be watched. -/
theorem exists_watch {s : Run} (run : (scenarioSystem py engine scn).Reach ok s) :
    ∃ w, (watches py engine scn).Reach (fun w a => ok w.run a) w ∧ w.run = s := by
  induction run with
  | init => exact ⟨_, .init, rfl⟩
  | step _ en hok ih =>
      obtain ⟨w, hw, rfl⟩ := ih
      exact ⟨_, hw.step en hok, rfl⟩

end Projection

/-! ## The future -/

namespace Future

variable {f : Future}

theorem hasNews_settle (h : f.cancelled = false) : f.settle.hasNews = f.hasNews := by
  obtain ⟨result, cancelled, posted⟩ := f
  cases h
  cases posted with
  | nil => rfl
  | cons ev rest => cases result <;> simp [settle, hasNews, done]

theorem cancelled_settle : f.settle.cancelled = f.cancelled := by
  unfold settle
  split
  · rfl
  · split <;> rfl

theorem result_settle (h : f.result.isSome = true) : f.settle.result = f.result := by
  unfold settle
  split
  · rfl
  · rw [if_pos (by rw [done, h, Bool.true_or])]

theorem settle_of_no_news (h : f.hasNews = false) : f.settle = f := by
  obtain ⟨result, cancelled, posted⟩ := f
  cases posted with
  | nil => rfl
  | cons ev rest => simp [hasNews] at h

theorem hasNews_post (ev : Event) (h : f.cancelled = false) : (f.post ev).hasNews = true := by
  obtain ⟨result, cancelled, posted⟩ := f
  cases h
  cases result <;> simp [post, hasNews, done]

theorem cancelled_post (ev : Event) : (f.post ev).cancelled = f.cancelled := by
  unfold post
  split <;> rfl

theorem post_of_done (ev : Event) (h : f.done = true) : f.post ev = f := if_pos h

theorem cancel_of_no_news (h : f.hasNews = false) :
    f.cancel.cancelled = true ∧ f.cancel.hasNews = false := by
  obtain ⟨result, cancelled, posted⟩ := f
  cases result <;> cases cancelled <;> simp_all [cancel, hasNews, done]

theorem hasNews_of_result (h : f.result.isSome = true) : f.hasNews = true := by
  rw [hasNews, h, Bool.true_or]

/-- The future does not change any more once `run` has left its wait. -/
def ClosedBy (f : Future) (outcome : Outcome) : Prop :=
  if outcome.status = "ok" then f.result.isSome = true
  else f.cancelled = true ∧ f.hasNews = false

theorem ClosedBy.done {outcome : Outcome} (h : f.ClosedBy outcome) : f.done = true := by
  unfold ClosedBy at h
  split_ifs at h
  · rw [Future.done, h, Bool.true_or]
  · rw [Future.done, h.1, Bool.or_true]

theorem ClosedBy.settle {outcome : Outcome} (h : f.ClosedBy outcome) :
    f.settle.ClosedBy outcome := by
  unfold ClosedBy at h ⊢
  split_ifs at h ⊢
  · rw [result_settle h]
    exact h
  · rw [settle_of_no_news h.2]
    exact h

end Future

/-! ## What holds of a watch -/

namespace Watch

variable {py : PyText} {engine : Bool} {scn : ScenarioSpec} {w : Watch}

/-- While `run` has not left its wait, the future has news exactly when an event has matched. -/
structure Early (py : PyText) (scn : ScenarioSpec) (w : Watch) : Prop where
  manned : w.run.rt.Manned (scn.subscribed w.run.phase)
  waits : ∀ id, w.run.WaitsUnder id → w.run.rt.bus.Clears id
  length : w.heard.length = w.run.rt.emissions.length
  follows : ∀ (i : Nat) (n : Notice) (e : Emission), w.heard[i]? = some n →
    w.run.rt.emissions[i]? = some e → n.Follows e
  cancelled : w.run.stopFuture.cancelled = false
  news : w.run.stopFuture.hasNews = true ↔ w.Matched py

/-- When `run` has left its wait, everything is decided. -/
structure Late (py : PyText) (w : Watch) : Prop where
  decided : w.run.phase.endsOk = true ↔ w.Matched py
  closed : ∀ outcome, w.run.phase.outcome? = some outcome → w.run.stopFuture.ClosedBy outcome

structure Sound (py : PyText) (scn : ScenarioSpec) (w : Watch) : Prop where
  suffixed : w.run.phase.Suffixed scn
  early : w.run.phase.isOver = false → Early py scn w
  late : w.run.phase.isOver = true → Late py w

theorem initial_sound : Sound py scn .initial where
  suffixed rest h := by cases h
  early _ :=
    { manned := HookRuntime.initial_manned
      waits := fun id h => by
        obtain ⟨t, future, k, ht⟩ := h
        cases t <;> cases ht
      length := rfl
      follows := fun i n e h => by cases h
      cancelled := rfl
      news := by
        constructor
        · exact fun h => by cases h
        · rintro ⟨n, hn, -⟩
          cases hn }
  late h := by cases h

/-! ### Notices -/

/-- Notices of emissions that have just begun match nothing. -/
theorem matched_append {heard : List Notice} {s s' s₁ s₂ : Run} :
    Matched py ⟨s₁, heard ++ begun scn s s'⟩ ↔ Matched py ⟨s₂, heard⟩ := by
  constructor
  · rintro ⟨n, hn, spec, hspec, h⟩
    rcases List.mem_append.mp hn with hn | hn
    · exact ⟨n, hn, spec, hspec, h⟩
    · obtain ⟨e, -, rfl⟩ := List.mem_map.mp hn
      cases hspec
  · rintro ⟨n, hn, h⟩
    exact ⟨n, List.mem_append_left _ hn, h⟩

theorem begun_eq_nil {s s' : Run} (h : s'.rt.emissions.length ≤ s.rt.emissions.length) :
    begun scn s s' = [] := by
  rw [begun, List.drop_of_length_le h, List.map_nil]

/-- A move other than that of an emission calls no handler. -/
theorem tells_other {s : Run} {a : Move} (other : ∀ i, a ≠ .bus (.advance i))
    (heard : List Notice) : s.tells a heard = heard := by
  unfold Run.tells
  split
  · next i => exact (other i rfl).elim
  · rfl

/-! ### Moves while `run` waits -/

/-- A harmless move of the bus begins at most one emission. -/
theorem harmless_emissions {s : Run} {m : BusMove} (h : s.Harmless m) :
    (s.rt.step py m).emissions = s.rt.emissions ∨
      ∃ (ev : Event) (found : List Subscription), s.rt.bus.snapshot ev = some found ∧
        (s.rt.step py m).emissions = s.rt.emissions ++ [{ event := ev, todo := found }] := by
  cases h with
  | subscribe | unsubscribe => exact .inl rfl
  | @arm spec patternName =>
      rcases HookRuntime.arm_cases py s.rt spec patternName with hno | ⟨hook, -, harm⟩
      · exact .inl (by rw [HookRuntime.step, hno])
      · exact .inl (by rw [HookRuntime.step, harm])
  | @assign k => exact .inl (HookRuntime.assign_emissions s.rt k)
  | @remove k => exact .inl (HookRuntime.remove_emissions s.rt k)
  | @emit ev =>
      cases hsnapshot : s.rt.bus.snapshot ev with
      | none => exact .inl (by rw [HookRuntime.step, HookRuntime.emit, hsnapshot])
      | some found =>
          exact .inr ⟨ev, found, hsnapshot, by rw [HookRuntime.step, HookRuntime.emit, hsnapshot]⟩

/-- What a move has to keep while `run` waits. -/
theorem Early.of_run (early : Early py scn w) {s' : Run}
    (manned : s'.rt.Manned (scn.subscribed s'.phase))
    (waits : ∀ id, s'.WaitsUnder id → s'.rt.bus.Clears id)
    (emissions : s'.rt.emissions = w.run.rt.emissions ∨
      ∃ (ev : Event) (found : List Subscription), w.run.rt.bus.snapshot ev = some found ∧
        s'.rt.emissions = w.run.rt.emissions ++ [{ event := ev, todo := found }])
    (cancelled : s'.stopFuture.cancelled = false)
    (news : s'.stopFuture.hasNews = w.run.stopFuture.hasNews) :
    Early py scn ⟨s', w.heard ++ begun scn w.run s'⟩ := by
  have hnews : s'.stopFuture.hasNews = true ↔
      Matched py ⟨s', w.heard ++ begun scn w.run s'⟩ := by
    rw [news, early.news]
    exact matched_append.symm
  rcases emissions with hsame | ⟨ev, found, hsnapshot, hnew⟩
  · have hbegun : begun scn w.run s' = [] := begun_eq_nil (by rw [hsame])
    refine ⟨manned, waits, ?_, fun i n e hn he => ?_, cancelled, hnews⟩
    · simp only [hbegun, List.append_nil, hsame, early.length]
    · rw [hbegun, List.append_nil] at hn
      exact early.follows i n e hn (hsame ▸ he)
  · have hbegun : begun scn w.run s' = [⟨ev, scn.subscribed w.run.phase, []⟩] := by
      rw [begun, hnew, List.drop_left, List.map_singleton]
    refine ⟨manned, waits, ?_, fun i n e hn he => ?_, cancelled, hnews⟩
    · simp only [hbegun, hnew, List.length_append, early.length, List.length_singleton]
    · simp only [hbegun] at hn
      simp only [hnew] at he
      rcases Nat.lt_or_ge i w.heard.length with hlt | hge
      · rw [List.getElem?_append_left hlt] at hn
        rw [List.getElem?_append_left (early.length ▸ hlt)] at he
        exact early.follows i n e hn he
      · rw [List.getElem?_append_right hge] at hn
        rw [List.getElem?_append_right (early.length ▸ hge), ← early.length] at he
        rw [List.getElem?_singleton] at hn he
        split_ifs at hn he
        cases hn
        cases he
        exact early.manned.follows hsnapshot

/-- Moves that leave the stop condition alone. -/
theorem Early.calm (early : Early py scn w) {s' : Run} (bus : w.run.CalmBus py s')
    (future : s'.stopFuture = w.run.stopFuture)
    (subscribed : scn.subscribed s'.phase = scn.subscribed w.run.phase) :
    Early py scn ⟨s', w.heard ++ begun scn w.run s'⟩ := by
  have hcancelled : s'.stopFuture.cancelled = false := future ▸ early.cancelled
  have hnews : s'.stopFuture.hasNews = w.run.stopFuture.hasNews := by rw [future]
  have hmanned := early.manned
  rw [← subscribed] at hmanned
  cases bus with
  | still rt waits =>
      refine early.of_run (rt ▸ hmanned) (fun id h => ?_) (.inl (by rw [rt])) hcancelled hnews
      rw [rt]
      exact early.waits id (waits id h)
  | @move m harmless rt waits =>
      have hmoved : (w.run.rt.step py m).Manned (scn.subscribed s'.phase) := by
        refine hmanned.step (fun patterns callback once hm => ?_) fun id hm sub hget => ?_
        · subst hm
          cases harmless with
          | subscribe other => exact other
        · subst hm
          cases harmless with
          | unsubscribe gives =>
              rcases gives with hwaits | hother
              · exact eq_false_of_ne_true ((early.waits id hwaits).2 sub hget)
              · exact hother sub hget
      refine early.of_run (rt ▸ hmoved) (fun id h => ?_) ?_ hcancelled hnews
      · rw [rt]
        exact (early.waits id (waits id h)).step py m
      · rw [rt]
        exact harmless_emissions harmless
  | @wait patterns callback once other rt waits =>
      have hmoved : (w.run.rt.step py (.subscribe patterns callback once)).Manned
          (scn.subscribed s'.phase) := by
        refine hmanned.step (fun _ _ _ hm => ?_) fun _ hm => by cases hm
        cases hm
        exact other
      refine early.of_run (rt ▸ hmoved) (fun id h => ?_) (.inl (by rw [rt]; rfl)) hcancelled hnews
      rw [rt]
      rcases waits id h with h | rfl
      · exact (early.waits id h).step py _
      · refine EventBus.avoids_new patterns once (fun id sub hget => (hmanned.keyed id sub hget).2) ?_
        rw [other]
        exact Bool.false_ne_true

theorem Early.settle (early : Early py scn w) {s' : Run}
    (still : Run.Still scn { w.run with stopFuture := w.run.stopFuture.settle } s')
    (suffixed : w.run.phase.Suffixed scn) :
    Early py scn ⟨s', w.heard ++ begun scn w.run s'⟩ := by
  have hsubscribed : scn.subscribed s'.phase = scn.subscribed w.run.phase :=
    (still.phase.subscribed suffixed).2
  have hrt : s'.rt = w.run.rt := still.rt
  refine early.of_run ?_ (fun id h => ?_) (.inl (by rw [hrt])) ?_ ?_
  · rw [hrt, hsubscribed]
    exact early.manned
  · rw [hrt]
    refine early.waits id ?_
    exact (still.waits id h).congr rfl fun _ _ _ => rfl
  · rw [still.future]
    exact Future.cancelled_settle.trans early.cancelled
  · rw [still.future]
    exact Future.hasNews_settle early.cancelled

/-- `run` subscribes the handler of one entry more. -/
theorem Early.subscribe (early : Early py scn w) {s' : Run} {spec : Dict} {rest : List Dict}
    {patterns : List Value} (suffixed : w.run.phase.Suffixed scn)
    (phase : w.run.phase = .subscribing (spec :: rest)) (phase' : s'.phase = .subscribing rest)
    (named : ScenarioSpec.names spec = true)
    (listed : patternList (spec.get "event") = some patterns)
    (rt : s'.rt = w.run.rt.step py (.subscribe patterns (.stop spec) false))
    (future : s'.stopFuture = w.run.stopFuture)
    (waits : ∀ id, s'.WaitsUnder id → w.run.WaitsUnder id) :
    Early py scn ⟨s', w.heard ++ begun scn w.run s'⟩ := by
  have hsubscribed : scn.subscribed s'.phase = scn.subscribed w.run.phase ++ [spec] := by
    rw [phase', phase, Phase.subscribed_cons (suffixed _ phase), List.filter_cons_of_pos named,
      List.filter_nil]
  refine early.of_run ?_ (fun id h => ?_) (.inl (by rw [rt]; rfl)) (future ▸ early.cancelled)
    (by rw [future])
  · rw [rt, hsubscribed]
    exact early.manned.subscribe listed
  · rw [rt]
    exact (early.waits id (waits id h)).step py _

/-- The next call of emission `i` is to a stop handler whose ids and predicates fit. -/
def completes (py : PyText) (s : Run) (i : Nat) : Prop :=
  ∃ spec ev, s.rt.called i = some (.stop spec, ev) ∧ stopMatches py spec ev = some true

/-- The future has news after a call of a handler that fits. -/
theorem hasNews_futureAfter {s : Run} (i : Nat) (h : s.stopFuture.cancelled = false) :
    (s.futureAfter py i).cancelled = false ∧
      ((s.futureAfter py i).hasNews = true ↔ s.stopFuture.hasNews = true ∨ completes py s i) := by
  have hsame : s.futureAfter py i = s.stopFuture → ¬completes py s i →
      (s.futureAfter py i).cancelled = false ∧
        ((s.futureAfter py i).hasNews = true ↔
          s.stopFuture.hasNews = true ∨ completes py s i) := by
    intro hfuture hno
    rw [hfuture]
    exact ⟨h, (or_iff_left hno).symm⟩
  cases hcalled : s.rt.called i with
  | none =>
      refine hsame (by rw [Run.futureAfter, hcalled]) ?_
      rintro ⟨spec, ev, hcall, -⟩
      rw [hcalled] at hcall
      cases hcall
  | some called =>
      obtain ⟨callback, ev⟩ := called
      by_cases hfit : ∃ spec, callback = .stop spec ∧ stopMatches py spec ev = some true
      · obtain ⟨spec, rfl, hmatch⟩ := hfit
        have hfuture : s.futureAfter py i = s.stopFuture.post ev := by
          rw [Run.futureAfter, hcalled]
          exact if_pos hmatch
        rw [hfuture]
        have hcompletes : completes py s i := ⟨spec, ev, hcalled, hmatch⟩
        exact ⟨(Future.cancelled_post ev).trans h,
          iff_of_true (Future.hasNews_post ev h) (.inr hcompletes)⟩
      · refine hsame ?_ ?_
        · rw [Run.futureAfter, hcalled]
          cases callback with
          | stop spec => exact if_neg fun hmatch => hfit ⟨spec, rfl, hmatch⟩
          | recorder | hook | waiter | foreign => rfl
        · rintro ⟨spec, ev', hcall, hmatch⟩
          rw [hcalled] at hcall
          cases hcall
          exact hfit ⟨spec, rfl, hmatch⟩

/-- An event has matched after a call when it had before, or this call has been to a handler that
fits. -/
theorem Early.matched_hear (early : Early py scn w) (i : Nat) (s' : Run) :
    Matched py ⟨s', w.heard.modify i fun n => n.hear (w.run.rt.called i)⟩ ↔
      w.Matched py ∨ completes py w.run i := by
  constructor
  · rintro ⟨n, hn, spec, hspec, hentries, hfits⟩
    obtain ⟨j, hj⟩ := List.mem_iff_getElem?.mp hn
    rw [List.getElem?_modify] at hj
    obtain ⟨old, hold, hnotice⟩ := Option.map_eq_some_iff.mp hj
    have hmem : old ∈ w.heard := List.mem_of_getElem? hold
    split_ifs at hnotice with hij
    · subst hnotice
      rw [Notice.hear_entries] at hentries
      rw [Notice.hear_event] at hfits
      rcases Notice.mem_hear_called.mp hspec with hspec | ⟨ev, hcalled⟩
      · exact .inl ⟨old, hmem, spec, hspec, hentries, hfits⟩
      · obtain ⟨e, sub, rest, he, hev, -⟩ := HookRuntime.head_of_called hcalled
        have hevent : old.event = ev := (early.follows j old e hold (hij ▸ he)).event.trans hev
        exact .inr ⟨spec, ev, hcalled, hevent ▸ hfits.2⟩
    · subst hnotice
      exact .inl ⟨old, hmem, spec, hspec, hentries, hfits⟩
  · rintro (⟨n, hn, spec, hspec, hentries, hfits⟩ | ⟨spec, ev, hcalled, hmatch⟩)
    · obtain ⟨j, hj⟩ := List.mem_iff_getElem?.mp hn
      have hnew : (w.heard.modify i fun n => n.hear (w.run.rt.called i))[j]? =
          some (if i = j then n.hear (w.run.rt.called i) else n) := by
        rw [List.getElem?_modify, hj]
        rfl
      refine ⟨_, List.mem_of_getElem? hnew, spec, ?_⟩
      split_ifs
      · rw [Notice.hear_entries, Notice.hear_event]
        exact ⟨Notice.mem_hear_called.mpr (.inl hspec), hentries, hfits⟩
      · exact ⟨hspec, hentries, hfits⟩
    · obtain ⟨e, sub, rest, he, hev, head, hcallback⟩ := HookRuntime.head_of_called hcalled
      have hlt : i < w.heard.length := by
        rw [early.length]
        exact (List.getElem?_eq_some_iff.mp he).1
      have hold : w.heard[i]? = some w.heard[i] := List.getElem?_eq_getElem hlt
      have hfollows := early.follows i _ e hold he
      obtain ⟨hentry, hpattern⟩ := hfollows.ahead sub (head ▸ List.mem_cons_self) spec hcallback
      have hnew : (w.heard.modify i fun n => n.hear (w.run.rt.called i))[i]? =
          some (w.heard[i].hear (w.run.rt.called i)) := by
        rw [List.getElem?_modify_eq, hold]
        rfl
      refine ⟨_, List.mem_of_getElem? hnew, spec, ?_⟩
      rw [Notice.hear_entries, Notice.hear_event]
      refine ⟨Notice.mem_hear_called.mpr (.inr ⟨ev, hcalled⟩), hentry, hpattern, ?_⟩
      rw [hfollows.event, hev]
      exact hmatch

/-- The next move of an emission while `run` waits. -/
theorem Early.advance (early : Early py scn w) {s' : Run} {i : Nat}
    (suffixed : w.run.phase.Suffixed scn) (waiting : w.run.phase.isOver = false)
    (advanced : Run.Advanced py scn w.run i s') :
    Early py scn ⟨s', w.run.tells (.bus (.advance i)) w.heard ++ begun scn w.run s'⟩ := by
  have hlength : s'.rt.emissions.length = w.run.rt.emissions.length := by
    rw [advanced.rt]
    exact HookRuntime.advance_length py w.run.rt i
  have hheard : w.run.tells (.bus (.advance i)) w.heard ++ begun scn w.run s' =
      w.heard.modify i fun n => n.hear (w.run.rt.called i) := by
    rw [begun_eq_nil hlength.le, List.append_nil, Run.tells, waiting]
    simp only [Bool.false_eq_true, if_false]
  have hmanned : s'.rt.Manned (scn.subscribed s'.phase) := by
    rw [advanced.rt, (advanced.phase.subscribed suffixed).2]
    exact early.manned.step (fun _ _ _ hm => by cases hm) fun _ hm => by cases hm
  have hwaits : ∀ id, s'.WaitsUnder id → s'.rt.bus.Clears id := by
    intro id h
    rw [advanced.rt]
    exact (early.waits id (advanced.waits id h)).step py _
  have hafter : (w.run.futureAfter py i).cancelled = false ∧
      ((w.run.futureAfter py i).hasNews = true ↔
        w.run.stopFuture.hasNews = true ∨ completes py w.run i) :=
    hasNews_futureAfter i early.cancelled
  obtain ⟨hcancelled, hnews⟩ := hafter
  rw [hheard]
  refine ⟨hmanned, hwaits, ?_, fun j n e hn he => ?_, ?_, ?_⟩
  · rw [List.length_modify, hlength]
    exact early.length
  · rw [advanced.rt] at he
    exact HookRuntime.follows_advance early.follows hn he
  · rw [advanced.future]
    exact hcancelled
  · rw [advanced.future, hnews, early.news]
    exact (early.matched_hear i s').symm

/-! ### Moves in general -/

/-- Passing on does not end the wait. -/
theorem isOver_congr {phase phase' : Phase} (h : phase.Passes scn phase') :
    phase'.isOver = phase.isOver := by
  rw [Phase.isOver, Phase.isOver, h.outcome, h.raised]

theorem outcome?_of_not_over {phase : Phase} (h : phase.isOver = false) :
    phase.outcome? = none := by
  rw [Phase.isOver, Bool.or_eq_false_iff] at h
  exact Option.isNone_iff_eq_none.mp (by rw [← Option.not_isSome, h.1]; rfl)

theorem closedBy_futureAfter {s : Run} {outcome : Outcome} (h : s.stopFuture.ClosedBy outcome)
    (i : Nat) : (s.futureAfter py i).ClosedBy outcome := by
  have hsame : s.futureAfter py i = s.stopFuture := by
    unfold Run.futureAfter
    split
    · next callback ev _ =>
        unfold Future.after
        split
        · split_ifs
          · exact Future.post_of_done ev h.done
          · rfl
        · rfl
    · rfl
  rw [hsame]
  exact h

/-- Nothing is decided anew. -/
theorem Late.keep (late : Late py w) {w' : Watch}
    (outcome : w'.run.phase.outcome? = w.run.phase.outcome?)
    (matched : w'.Matched py ↔ w.Matched py)
    (future : ∀ outcome, w.run.stopFuture.ClosedBy outcome → w'.run.stopFuture.ClosedBy outcome) :
    Late py w' where
  decided := by
    rw [Phase.endsOk, outcome, matched]
    exact late.decided
  closed o ho := future o (late.closed o (outcome ▸ ho))

/-- A phase that passes keeps what is so, before the wait is left and after. -/
theorem Sound.of_passes (sound : Sound py scn w) {w' : Watch}
    (phase : w.run.phase.Passes scn w'.run.phase)
    (early : w.run.phase.isOver = false → Early py scn w → Early py scn w')
    (matched : w.run.phase.isOver = true → (w'.Matched py ↔ w.Matched py))
    (future : w.run.phase.isOver = true → ∀ outcome, w.run.stopFuture.ClosedBy outcome →
      w'.run.stopFuture.ClosedBy outcome) : Sound py scn w' where
  suffixed := (phase.subscribed sound.suffixed).1
  early hover := by
    rw [isOver_congr phase] at hover
    exact early hover (sound.early hover)
  late hover := by
    rw [isOver_congr phase] at hover
    exact (sound.late hover).keep phase.outcome (matched hover) (future hover)

/-- Where `run` leaves its wait or raises, everything is decided. -/
theorem Sound.of_over {w' : Watch} (hover : w'.run.phase.isOver = true) (late : Late py w') :
    Sound py scn w' where
  suffixed rest h := by
    rw [h] at hover
    cases hover
  early h := by
    rw [hover] at h
    cases h
  late _ := late

theorem not_matched_of_no_news (sound : Sound py scn w)
    (h : w.run.stopFuture.hasNews = false) : ¬w.Matched py := by
  intro hmatched
  cases hover : w.run.phase.isOver with
  | false =>
      rw [(sound.early hover).news.mpr hmatched] at h
      cases h
  | true =>
      obtain ⟨outcome, houtcome, hok⟩ :=
        Phase.endsOk_iff.mp ((sound.late hover).decided.mpr hmatched)
      have hclosed := (sound.late hover).closed outcome houtcome
      rw [Future.ClosedBy, if_pos hok] at hclosed
      rw [Future.hasNews_of_result hclosed] at h
      cases h

/-- An emission may bring the match. -/
theorem Sound.advance (sound : Sound py scn w) (i : Nat) :
    Sound py scn (w.step py engine scn (.bus (.advance i))) := by
  have advanced : Run.Advanced py scn w.run i (w.run.step py engine scn (.bus (.advance i))) :=
    Run.advance_advanced w.run i
  refine sound.of_passes advanced.phase
    (fun hover early => early.advance sound.suffixed hover advanced) (fun hover => ?_)
    fun _ outcome hclosed => ?_
  · have htells : w.run.tells (.bus (.advance i)) w.heard = w.heard := by
      rw [Run.tells, hover]
      rfl
    rw [Watch.step, htells]
    exact matched_append
  · change (w.run.step py engine scn (.bus (.advance i))).stopFuture.ClosedBy outcome
    rw [advanced.future]
    exact closedBy_futureAfter hclosed i

/-- `run` leaves its wait for an event. -/
theorem Sound.stop (sound : Sound py scn w) {s' : Run} {ids : List Nat} {reason : Text}
    (phase : w.run.phase = .awaiting) (phase' : s'.phase = .unsubscribing ids ⟨"ok", reason⟩)
    (result : w.run.stopFuture.result.isSome = true) (future : s'.stopFuture = w.run.stopFuture) :
    Sound py scn ⟨s', w.heard ++ begun scn w.run s'⟩ := by
  have early := sound.early (by rw [phase]; rfl)
  have hmatched : w.Matched py := early.news.mp (Future.hasNews_of_result result)
  refine .of_over (by rw [phase']; rfl) ⟨?_, fun outcome houtcome => ?_⟩
  · rw [matched_append, phase']
    exact iff_of_true rfl hmatched
  · rw [phase'] at houtcome
    cases houtcome
    rw [future, Future.ClosedBy, if_pos rfl]
    exact result

/-- Its wait times out, and no event has matched. -/
theorem Sound.expire (sound : Sound py scn w) {s' : Run} {ids : List Nat} {outcome : Outcome}
    (phase' : s'.phase = .unsubscribing ids outcome) (status : outcome.status = "timeout")
    (future : s'.stopFuture = w.run.stopFuture.cancel)
    (news : w.run.stopFuture.hasNews = false) :
    Sound py scn ⟨s', w.heard ++ begun scn w.run s'⟩ := by
  have hnot : outcome.status ≠ "ok" := by
    rw [status]
    decide
  have hcancel : w.run.stopFuture.cancel.cancelled = true ∧
      w.run.stopFuture.cancel.hasNews = false := Future.cancel_of_no_news news
  refine .of_over (by rw [phase']; rfl) ⟨?_, fun outcome' houtcome => ?_⟩
  · rw [matched_append, phase']
    refine iff_of_false (fun hok => ?_) (not_matched_of_no_news sound news)
    obtain ⟨outcome', houtcome, hok⟩ := Phase.endsOk_iff.mp hok
    cases houtcome
    exact hnot hok
  · rw [phase'] at houtcome
    cases houtcome
    rw [Future.ClosedBy, if_neg hnot, future]
    exact hcancel

/-- It raises, and no event has matched. -/
theorem Sound.raise (sound : Sound py scn w) {s' : Run} {exn : Exn}
    (phase' : s'.phase = .raised exn) (news : w.run.stopFuture.hasNews = false) :
    Sound py scn ⟨s', w.heard ++ begun scn w.run s'⟩ := by
  refine .of_over (by rw [phase']; rfl) ⟨?_, fun outcome houtcome => ?_⟩
  · rw [matched_append, phase']
    exact iff_of_false Bool.false_ne_true (not_matched_of_no_news sound news)
  · rw [phase'] at houtcome
    cases houtcome

/-- A wait that ends without losing a match has no news waiting. -/
theorem losesMatch_eq_false {s : Run} {a : Move} (h : s.losesMatch scn a = false)
    (ends : s.timesOut a = true ∨ s.raises scn a = true) : s.stopFuture.hasNews = false := by
  rwa [Run.losesMatch, (Bool.or_eq_true _ _).mpr ends, Bool.and_true] at h

/-- The moves other than those of an emission. -/
theorem Sound.effect (sound : Sound py scn w)
    (named : ∃ spec ∈ scn.stopOn, ScenarioSpec.names spec) {a : Move} {s' : Run}
    (effect : Run.Effect py scn w.run a s') (keeps : w.run.losesMatch scn a = false) :
    Sound py scn ⟨s', w.heard ++ begun scn w.run s'⟩ := by
  cases effect with
  | calm same phase bus =>
      refine sound.of_passes phase (fun hover early => ?_) (fun _ => matched_append)
        fun _ outcome hclosed => ?_
      · exact early.calm (bus (outcome?_of_not_over hover)) same
          (phase.subscribed sound.suffixed).2
      · exact same.symm ▸ hclosed
  | settle still =>
      refine sound.of_passes still.phase (fun hover early => early.settle still sound.suffixed)
        (fun _ => matched_append) fun _ outcome hclosed => ?_
      have hfuture := still.future
      exact hfuture.symm ▸ hclosed.settle
  | @subscribe spec rest patterns phase phase' named listed rt future waits =>
      have hover : w.run.phase.isOver = false := by rw [phase]; rfl
      refine ⟨fun rest' hrest => ?_, fun _ => ?_, fun hover' => ?_⟩
      · rw [phase'] at hrest
        cases hrest
        exact (List.suffix_cons spec rest).trans (sound.suffixed _ phase)
      · exact (sound.early hover).subscribe sound.suffixed phase phase' named listed rt future
          waits
      · rw [phase'] at hover'
        cases hover'
  | stop phase phase' result future => exact sound.stop phase phase' result future
  | expire ha free phase phase' timeout =>
      obtain ⟨spec, hspec, -⟩ := named
      obtain ⟨hstatus, hfuture⟩ := timeout (List.ne_nil_of_mem hspec)
      refine sound.expire phase' hstatus hfuture (losesMatch_eq_false keeps (.inl ?_))
      rw [ha, Run.timesOut, free, phase]
      rfl
  | raise raises phase' => exact sound.raise phase' (losesMatch_eq_false keeps (.inr raises))

theorem Sound.step (sound : Sound py scn w) (named : ∃ spec ∈ scn.stopOn, ScenarioSpec.names spec)
    {a : Move} (en : w.run.enabled a = true) (keeps : w.run.losesMatch scn a = false) :
    Sound py scn (w.step py engine scn a) := by
  by_cases hadvance : ∃ i, a = .bus (.advance i)
  · obtain ⟨i, rfl⟩ := hadvance
    exact sound.advance i
  · have other : ∀ i, a ≠ .bus (.advance i) := fun i h => hadvance ⟨i, h⟩
    have heffect : Run.Effect py scn w.run a (w.run.step py engine scn a) :=
      Run.step_effect en other
    rw [Watch.step, tells_other other]
    exact sound.effect named heffect keeps

/-- The runs that never give up a match. -/
theorem reach_sound (named : ∃ spec ∈ scn.stopOn, ScenarioSpec.names spec)
    (run : (watches py engine scn).Reach (fun w a => w.run.losesMatch scn a = false) w) :
    Sound py scn w :=
  run.invariant initial_sound fun _ _ en keeps sound => sound.step named en keeps

/-- What the stop condition does for a run. -/
structure Decided (py : PyText) (engine : Bool) (scn : ScenarioSpec) (w : Watch) : Prop where
  /-- A run that is over has ended with `"ok"` exactly when an event has matched. -/
  status : w.run.phase.isOver = true → (w.run.phase.endsOk = true ↔ w.Matched py)
  returned : ∀ result, w.run.phase = .returned result →
    (result.outcome.status = "ok" ↔ w.Matched py)
  /-- Every entry that has been subscribed has its handler on the bus. -/
  manned : w.run.phase.isOver = false → ∀ spec ∈ scn.subscribed w.run.phase,
    ∃ id sub, w.run.rt.bus.subs.get? id = some sub ∧ sub.Watches spec
  /-- Every emission has a notice. -/
  noticed : w.run.phase.isOver = false →
    w.heard.map Notice.event = w.run.rt.emissions.map Emission.event
  /-- An emission that is over has called the handlers of all entries that its event matches. -/
  lossless : w.run.phase.isOver = false → ∀ (i : Nat) (n : Notice) (e : Emission),
    w.heard[i]? = some n → w.run.rt.emissions[i]? = some e → e.finished = true →
    ∀ spec ∈ n.entries, fits py spec n.event → spec ∈ n.called
  /-- A match wakes `run`. -/
  wakes : w.run.phase = .awaiting → w.run.current = none → w.Matched py →
    (w.run.settleStop.turn py engine scn .run).phase.endsOk = true

/-- The first callback that the loop runs completes the future. -/
theorem result_of_news {future : Future} (h : future.hasNews = true)
    (hcancelled : future.cancelled = false) : future.settle.result.isSome = true := by
  obtain ⟨result, cancelled, posted⟩ := future
  cases hcancelled
  cases posted with
  | nil => simpa [Future.hasNews, Future.settle] using h
  | cons ev rest => cases result <;> simp [Future.settle, Future.done]

theorem Early.wakes (early : Early py scn w) (named : ∃ spec ∈ scn.stopOn, ScenarioSpec.names spec)
    (phase : w.run.phase = .awaiting) (free : w.run.current = none) (hmatched : w.Matched py) :
    (w.run.settleStop.turn py engine scn .run).phase.endsOk = true := by
  obtain ⟨spec, hspec, -⟩ := named
  have hresult := result_of_news (early.news.mpr hmatched) early.cancelled
  have hsettle : w.run.settleStop = { w.run with stopFuture := w.run.stopFuture.settle } :=
    if_neg (by rw [free]; exact Bool.false_ne_true)
  have hturn : w.run.settleStop.turn py engine scn .run =
      w.run.settleStop.leave "ok" "stop_on matched".toList := by
    rw [hsettle]
    simp only [Run.turn, Run.task?, free, phase, Option.isSome_none, Bool.false_eq_true, if_false]
    rw [if_pos ⟨List.ne_nil_of_mem hspec, hresult⟩]
  rw [hturn]
  rfl

/-- A run that never gives up a match ends with `"ok"` exactly when an event has matched. -/
theorem ends_ok_iff_matched {py : PyText} {engine : Bool} {scn : ScenarioSpec} {w : Watch}
    (named : ∃ spec ∈ scn.stopOn, ScenarioSpec.names spec)
    (run : (watches py engine scn).Reach (fun w a => w.run.losesMatch scn a = false) w) :
    Decided py engine scn w where
  status hover := ((reach_sound named run).late hover).decided
  returned result hphase := by
    have hover : w.run.phase.isOver = true := by rw [hphase]; rfl
    rw [← ((reach_sound named run).late hover).decided, Phase.endsOk_iff, hphase]
    constructor
    · exact fun hok => ⟨_, rfl, hok⟩
    · rintro ⟨outcome, houtcome, hok⟩
      cases houtcome
      exact hok
  manned hover := ((reach_sound named run).early hover).manned.present
  noticed hover := by
    have early := (reach_sound named run).early hover
    refine List.ext_getElem (by rw [List.length_map, List.length_map, early.length]) ?_
    intro i hi hi'
    rw [List.length_map] at hi hi'
    rw [List.getElem_map, List.getElem_map]
    exact (early.follows i _ _ (List.getElem?_eq_getElem hi) (List.getElem?_eq_getElem hi')).event
  lossless hover i n e hn he hfinished spec hspec hfits := by
    have hsettled : w.run.rt.Settled :=
      HookRuntime.reachable_settled (Run.reachable_rt (watch_run (run.mono fun _ _ _ => trivial)))
    have hlast : e.todo = [] := hsettled e (List.mem_of_getElem? he) hfinished
    have hfollows := ((reach_sound named run).early hover).follows i n e hn he
    rcases hfollows.reached spec hspec hfits.1 with hcalled | ⟨sub, hsub, -⟩
    · exact hcalled
    · rw [hlast] at hsub
      cases hsub
  wakes phase free :=
    ((reach_sound named run).early (by rw [phase]; rfl)).wakes named phase free

/-! ### A match that comes with the timeout -/

/-- The initial actions emit the event that the run waits for, for no time at all. -/
def atOnce : ScenarioSpec where
  name := "at once".toList
  phones := []
  hooks := []
  initialActions := [.dict [("emit".toList, .ofString "done")]]
  stopOn := [[("event".toList, .ofString "user.done")]]
  timeoutMs := 0

/-- Up to the wait: the handler of the stop condition has been called. -/
def intoWait : List Move :=
  nexts 6 ++ advances 0 2 ++ nexts 2 ++ advances 1 3 ++ nexts 2

/-- From the wait to the return. -/
def outOfWait : List Move := nexts 4 ++ advances 2 2 ++ nexts 3

/-- The timeout comes before the scheduled `set_result`. -/
def overtaken : Watch :=
  (watches .ascii true atOnce).run .initial (intoWait ++ .expire .run :: outOfWait)

/-- The scheduled `set_result` comes first. -/
def inTime : Watch :=
  (watches .ascii true atOnce).run .initial (intoWait ++ .settleStop :: .turn .run :: outOfWait)

theorem overtaken_not_ok :
    (∃ spec ∈ atOnce.stopOn, ScenarioSpec.names spec) ∧
      (watches .ascii true atOnce).Reachable overtaken ∧
      overtaken.run.phase.hasReturned = true ∧ overtaken.Matched .ascii ∧
      overtaken.run.phase.endsOk = false := by
  have run : (watches .ascii true atOnce).Reachable overtaken :=
    GuardedSystem.Reach.init.run (by decide +kernel)
  refine ⟨⟨_, List.mem_cons_self, rfl⟩, run, by decide +kernel, ?_, by decide +kernel⟩
  exact ⟨_, List.mem_of_getElem? (i := 1) rfl, _, List.mem_of_getElem? (i := 0) rfl,
    List.mem_of_getElem? (i := 0) rfl, by decide +kernel⟩

theorem inTime_ok : Decided .ascii true atOnce inTime ∧ inTime.run.phase.hasReturned = true ∧
    inTime.run.phase.endsOk = true := by
  have run : (watches .ascii true atOnce).Reach
      (fun w a => w.run.losesMatch atOnce a = false) inTime :=
    GuardedSystem.Reach.init.run (by decide +kernel)
  exact ⟨ends_ok_iff_matched ⟨_, List.mem_cons_self, rfl⟩ run, by decide +kernel⟩

end Watch

end PjsuaMcp.Scenario
