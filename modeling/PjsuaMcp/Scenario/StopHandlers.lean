import PjsuaMcp.Scenario.TimelineOrder
import PjsuaMcp.Scenario.StopEffects

/-!
# The handlers of the stop condition on the bus

Until `run` leaves its wait nobody takes the handlers of `stop_on` from the bus.
An emission copies every handler whose pattern fits its event, and it has not
finished before it has called them all. A notice keeps for one emission what
was subscribed when it began, and what it has called since.
-/

namespace PjsuaMcp.Scenario

open Library

/-- The event has the type that the entry names. -/
def patternFits (spec : Dict) (ev : Event) : Prop :=
  (patternList (spec.get "event")).bind (patternsMatch ev.type) = some true

instance (spec : Dict) (ev : Event) : Decidable (patternFits spec ev) :=
  inferInstanceAs (Decidable (_ = some true))

/-- The event matches the pattern, the ids and the predicates of the entry. -/
def fits (py : PyText) (spec : Dict) (ev : Event) : Prop :=
  patternFits spec ev ∧ stopMatches py spec ev = some true

instance (py : PyText) (spec : Dict) (ev : Event) : Decidable (fits py spec ev) :=
  inferInstanceAs (Decidable (_ ∧ _))

theorem patternFits_iff {spec : Dict} {ev : Event} {patterns : List Value}
    (listed : patternList (spec.get "event") = some patterns) :
    patternFits spec ev ↔ patternsMatch ev.type patterns = some true := by
  rw [patternFits, listed, Option.bind_some]

/-- A subscription of the entry. -/
structure Subscription.Watches (sub : Subscription) (spec : Dict) : Prop where
  callback : sub.callback = .stop spec
  patterns : patternList (spec.get "event") = some sub.patterns
  active : sub.active = true
  once : sub.once = false

theorem Subscription.Watches.isStop {sub : Subscription} {spec : Dict} (h : sub.Watches spec) :
    sub.callback.isStop = true := by
  rw [h.callback]
  rfl

/-- No stop handler has the id. -/
abbrev EventBus.Clears : EventBus → Nat → Prop :=
  EventBus.Avoids fun callback => callback.isStop = true

namespace HookRuntime

variable {py : PyText} {rt rt' : HookRuntime} {entries : List Dict}

/-! ## Who is on the bus -/

/-- The entries of the stop condition have their handlers on the bus, and nobody gives their ids
back. -/
structure Manned (entries : List Dict) (rt : HookRuntime) : Prop where
  keyed : ∀ id sub, rt.bus.subs.get? id = some sub → sub.subId = id ∧ id < rt.bus.ids
  present : ∀ spec ∈ entries, ∃ id sub, rt.bus.subs.get? id = some sub ∧ sub.Watches spec
  only : ∀ id sub, rt.bus.subs.get? id = some sub → sub.callback.isStop = true →
    ∃ spec ∈ entries, sub.Watches spec
  cleared : ∀ id, rt.Releases id → rt.bus.Clears id

/-- What a subscription that joins needs to be. -/
theorem Manned.of_subscribe (inv : Manned entries rt) {entries' : List Dict}
    {patterns : List Value} {callback : Callback} {once : Bool}
    (hbus : rt'.bus = rt.bus.subscribe patterns callback once)
    (old : ∀ spec ∈ entries, spec ∈ entries')
    (new : ∀ spec ∈ entries', spec ∈ entries ∨
      Subscription.Watches ⟨rt.bus.ids, patterns, callback, once, true⟩ spec)
    (only : callback.isStop = true → ∃ spec ∈ entries',
      Subscription.Watches ⟨rt.bus.ids, patterns, callback, once, true⟩ spec)
    (cleared : ∀ id, rt'.Releases id → rt'.bus.Clears id) : Manned entries' rt' where
  keyed id sub hget := by
    rw [hbus] at hget ⊢
    rw [EventBus.subscribe, OrderedDict.get?_set] at hget
    split_ifs at hget with hid
    · cases hget
      exact ⟨hid, hid ▸ Nat.lt_succ_self _⟩
    · obtain ⟨hkey, hlt⟩ := inv.keyed id sub hget
      exact ⟨hkey, Nat.lt_succ_of_lt hlt⟩
  present spec hspec := by
    rw [hbus]
    rcases new spec hspec with hspec | hwatches
    · obtain ⟨id, sub, hget, hwatches⟩ := inv.present spec hspec
      refine ⟨id, sub, ?_, hwatches⟩
      have hne : rt.bus.ids ≠ id := (inv.keyed id sub hget).2.ne'
      rw [EventBus.subscribe, OrderedDict.get?_set_of_ne _ hne]
      exact hget
    · refine ⟨rt.bus.ids, _, ?_, hwatches⟩
      rw [EventBus.subscribe, OrderedDict.get?_set, if_pos rfl]
  only id sub hget hstop := by
    rw [hbus, EventBus.subscribe, OrderedDict.get?_set] at hget
    split_ifs at hget
    · cases hget
      exact only hstop
    · obtain ⟨spec, hspec, hwatches⟩ := inv.only id sub hget hstop
      exact ⟨spec, old spec hspec, hwatches⟩
  cleared := cleared

/-- Whatever is given back after a move has no stop handler. -/
theorem Manned.cleared_step (inv : Manned entries rt) (m : BusMove) (id : Nat)
    (h : (rt.step py m).Releases id) : (rt.step py m).bus.Clears id := by
  rcases releases_step h with h | ⟨rfl, patterns, k, hbus⟩ | ⟨k, sub, hget, honce, rfl⟩
  · exact (inv.cleared id h).step py m
  · rw [hbus]
    exact EventBus.avoids_new patterns false (fun id sub hget => (inv.keyed id sub hget).2)
      Bool.false_ne_true
  · have steady : ∀ k sub, rt.bus.subs.get? k = some sub → sub.callback.isStop = true →
        sub.once = false := by
      intro k sub hget hstop
      obtain ⟨spec, -, hwatches⟩ := inv.only k sub hget hstop
      exact hwatches.once
    exact (EventBus.avoids_once inv.keyed steady hget honce).step py m

/-- The stop handlers stay as they are where none of them is subscribed or taken away. -/
theorem Manned.step (inv : Manned entries rt) {m : BusMove}
    (other : ∀ patterns callback once, m = .subscribe patterns callback once →
      callback.isStop = false)
    (spares : ∀ id, m = .unsubscribe id → ∀ sub, rt.bus.subs.get? id = some sub →
      sub.callback.isStop = false) : Manned entries (rt.step py m) := by
  rcases EventBus.step_bus py rt m with ⟨q, hbus, hgives⟩ | ⟨patterns, callback, once, hbus, hwho⟩
  · have hkeeps : ∀ id sub, rt.bus.subs.get? id = some sub → sub.callback.isStop = true →
        q id = true := by
      intro id sub hget hstop
      by_contra hq
      rcases hgives id (eq_false_of_ne_true hq) with hm | hreleases
      · rw [spares id hm sub hget] at hstop
        cases hstop
      · exact (inv.cleared id hreleases).2 sub hget hstop
    refine ⟨fun id sub hget => ?_, fun spec hspec => ?_, fun id sub hget => ?_,
      inv.cleared_step m⟩
    · rw [hbus] at hget ⊢
      exact inv.keyed id sub (EventBus.get?_without hget).1
    · obtain ⟨id, sub, hget, hwatches⟩ := inv.present spec hspec
      refine ⟨id, sub, ?_, hwatches⟩
      rw [hbus, EventBus.without, OrderedDict.get?_filterKeys,
        if_pos (hkeeps id sub hget hwatches.isStop)]
      exact hget
    · rw [hbus] at hget
      exact inv.only id sub (EventBus.get?_without hget).1
  · have hother : callback.isStop = false := by
      rcases hwho with hm | ⟨h, rfl⟩
      · exact other patterns callback once hm
      · rfl
    refine inv.of_subscribe hbus (fun _ h => h) (fun _ h => .inl h) (fun hstop => ?_)
      (inv.cleared_step m)
    rw [hother] at hstop
    cases hstop

/-- The handler of one entry more. -/
theorem Manned.subscribe (inv : Manned entries rt) {spec : Dict} {patterns : List Value}
    (listed : patternList (spec.get "event") = some patterns) :
    Manned (entries ++ [spec]) (rt.step py (.subscribe patterns (.stop spec) false)) := by
  have hwatches : Subscription.Watches ⟨rt.bus.ids, patterns, .stop spec, false, true⟩ spec :=
    ⟨rfl, listed, rfl, rfl⟩
  refine inv.of_subscribe rfl (fun _ h => List.mem_append_left _ h) (fun spec' hspec' => ?_)
    (fun _ => ⟨spec, List.mem_append_right _ List.mem_cons_self, hwatches⟩) (inv.cleared_step _)
  rcases List.mem_append.mp hspec' with h | h
  · exact .inl h
  · rw [List.mem_singleton.mp h]
    exact .inr hwatches

theorem initial_manned : Manned [] initial where
  keyed _ _ hget := by cases hget
  present _ h := by cases h
  only _ _ hget := by cases hget
  cleared id h := by
    cases h with
    | hook obj => cases obj
    | arming h => cases h
    | once he => cases he
    | toRemove he => cases he

end HookRuntime

/-! ## What an emission tells the handlers -/

/-- What one emission has had to do with the stop condition. -/
structure Notice where
  event : Event
  /-- The entries that had been subscribed when the emission began. -/
  entries : List Dict
  /-- The entries whose handlers it has called. -/
  called : List Dict

namespace Notice

/-- The emission makes its next call. -/
def hear (n : Notice) : Option (Callback × Event) → Notice
  | some (.stop spec, _) => { n with called := n.called ++ [spec] }
  | _ => n

@[simp] theorem hear_event (n : Notice) (call : Option (Callback × Event)) :
    (n.hear call).event = n.event := by
  unfold hear
  split <;> rfl

@[simp] theorem hear_entries (n : Notice) (call : Option (Callback × Event)) :
    (n.hear call).entries = n.entries := by
  unfold hear
  split <;> rfl

theorem mem_hear_called {n : Notice} {call : Option (Callback × Event)} {spec : Dict} :
    spec ∈ (n.hear call).called ↔ spec ∈ n.called ∨ ∃ ev, call = some (.stop spec, ev) := by
  cases call with
  | none => simp [hear]
  | some c =>
      obtain ⟨callback, ev⟩ := c
      cases callback <;> simp [hear, eq_comm]

/-- The notice agrees with the emission: the handlers of the entries that fit have been called or
are still to be called, and no others. -/
structure Follows (n : Notice) (e : Emission) : Prop where
  event : n.event = e.event
  ahead : ∀ sub ∈ e.todo, ∀ spec, sub.callback = .stop spec →
    spec ∈ n.entries ∧ patternFits spec n.event
  called : ∀ spec ∈ n.called, spec ∈ n.entries ∧ patternFits spec n.event
  reached : ∀ spec ∈ n.entries, patternFits spec n.event →
    spec ∈ n.called ∨ ∃ sub ∈ e.todo, sub.callback = .stop spec

variable {n : Notice} {e e' : Emission}

/-- The emission goes on without a call. -/
theorem Follows.stay (h : n.Follows e) (event : e'.event = e.event) (todo : e'.todo = e.todo) :
    n.Follows e' where
  event := h.event.trans event.symm
  ahead sub hsub := h.ahead sub (todo ▸ hsub)
  called := h.called
  reached spec hspec hfits := by
    rw [todo]
    exact h.reached spec hspec hfits

/-- The emission has called its first handler. -/
theorem Follows.call (h : n.Follows e) {sub : Subscription} {rest : List Subscription}
    (head : e.todo = sub :: rest) {call : Option (Callback × Event)}
    (hcall : ∀ spec, sub.callback = .stop spec ↔ ∃ ev, call = some (.stop spec, ev)) :
    (n.hear call).Follows e.returned := by
  have htodo : e.returned.todo = rest := (HookRuntime.Emission.todo_returned head).1
  have hevent : e.returned.event = e.event := by
    rw [Emission.returned, head]
  refine ⟨by rw [hear_event, h.event, hevent], fun sub' hsub' spec hspec => ?_,
    fun spec hspec => ?_, fun spec hspec hfits => ?_⟩
  · rw [hear_entries, hear_event]
    refine h.ahead sub' ?_ spec hspec
    rw [head]
    exact List.mem_cons_of_mem _ (htodo ▸ hsub')
  · rw [hear_entries, hear_event]
    rcases mem_hear_called.mp hspec with hspec | hnow
    · exact h.called spec hspec
    · refine h.ahead sub ?_ spec ((hcall spec).mpr hnow)
      rw [head]
      exact List.mem_cons_self
  · rw [hear_entries] at hspec
    rw [hear_event] at hfits
    rw [htodo, mem_hear_called]
    rcases h.reached spec hspec hfits with hspec | ⟨sub', hsub', hcallback⟩
    · exact .inl (.inl hspec)
    · rw [head] at hsub'
      rcases List.mem_cons.mp hsub' with rfl | hsub'
      · exact .inl (.inr ((hcall spec).mp hcallback))
      · exact .inr ⟨sub', hsub', hcallback⟩

end Notice

namespace HookRuntime

variable {py : PyText} {rt rt' : HookRuntime} {entries : List Dict}

/-- What an emission copies from the bus. -/
theorem Manned.follows (inv : Manned entries rt) {ev : Event} {found : List Subscription}
    (hsnapshot : rt.bus.snapshot ev = some found) :
    Notice.Follows ⟨ev, entries, []⟩ { event := ev, todo := found } := by
  have hfound := EventBus.snapshot_eq_filter hsnapshot
  have hnone : ∀ spec ∈ ([] : List Dict), spec ∈ entries ∧ patternFits spec ev := fun _ h =>
    (List.not_mem_nil h).elim
  refine ⟨rfl, fun sub hsub spec hcallback => ?_, hnone, fun spec hspec hfits => ?_⟩
  · rw [hfound] at hsub
    obtain ⟨hmem, hmatch⟩ := List.mem_filter.mp hsub
    rw [Bool.and_eq_true, decide_eq_true_eq] at hmatch
    obtain ⟨id, hget⟩ := EventBus.mem_order.mp hmem
    obtain ⟨spec', hspec', hwatches⟩ := inv.only id sub hget (by rw [hcallback]; rfl)
    have hsame : spec' = spec := Callback.stop.inj (hwatches.callback.symm.trans hcallback)
    subst hsame
    exact ⟨hspec', (patternFits_iff hwatches.patterns).mpr hmatch.2⟩
  · obtain ⟨id, sub, hget, hwatches⟩ := inv.present spec hspec
    refine .inr ⟨sub, ?_, hwatches.callback⟩
    rw [hfound]
    refine List.mem_filter.mpr ⟨EventBus.mem_order.mpr ⟨id, hget⟩, ?_⟩
    rw [Bool.and_eq_true, decide_eq_true_eq]
    exact ⟨hwatches.active, (patternFits_iff hwatches.patterns).mp hfits⟩

/-- The first handler of an emission is called at its next move, unless it is a hook's. -/
theorem called_of_head {i : Nat} {e : Emission} (he : rt.emissions[i]? = some e)
    {sub : Subscription} {rest : List Subscription} (head : e.todo = sub :: rest) :
    rt.called i = if sub.callback.isHook then none else some (sub.callback, e.event) := by
  rw [called, he]
  simp only [head]

/-- The next move of an emission that a notice follows. -/
theorem Advances.follows {n : Notice} {i : Nat} {e : Emission} (he : rt.emissions[i]? = some e)
    (moved : Advances py rt i e rt') (h : n.Follows e) :
    ∃ e', rt'.emissions = rt.emissions.set i e' ∧ (n.hear (rt.called i)).Follows e' := by
  -- a hook's callback tells the stop condition nothing
  have hhook : ∀ {sub rest k}, e.todo = sub :: rest → sub.callback = .hook k →
      rt.called i = none := by
    intro sub rest k head call
    rw [called_of_head he head, call]
    rfl
  have hstay : ∀ {e' : Emission}, rt.called i = none → e'.event = e.event → e'.todo = e.todo →
      (n.hear (rt.called i)).Follows e' := by
    intro e' hnone hevent htodo
    rw [hnone]
    exact h.stay hevent htodo
  have hlast : e.todo = [] → rt.called i = none := by
    intro last
    rw [called, he]
    simp only [last]
  cases moved with
  | idle last =>
      obtain ⟨hlt, hat⟩ := List.getElem?_eq_some_iff.mp he
      exact ⟨e, by rw [← hat, List.set_getElem_self], hstay (hlast last) rfl rfl⟩
  | finish last => exact ⟨_, rfl, hstay (hlast last) rfl rfl⟩
  | enter head call => exact ⟨_, rfl, hstay (hhook head call) rfl rfl⟩
  | test head call => exact ⟨_, rfl, hstay (hhook head call) rfl rfl⟩
  | pass head call => exact ⟨_, rfl, hstay (hhook head call) rfl rfl⟩
  | detach head call => exact ⟨_, rfl, hstay (hhook head call) rfl rfl⟩
  | clear head call => exact ⟨_, rfl, hstay (hhook head call) rfl rfl⟩
  | schedule head call =>
      refine ⟨_, rfl, h.call head fun spec => ?_⟩
      rw [hhook head call, call]
      constructor
      · exact fun h => by cases h
      · rintro ⟨ev, h⟩
        cases h
  | @skip sub rest head other =>
      refine ⟨_, rfl, h.call head fun spec => ?_⟩
      rw [called_of_head he head]
      cases sub.callback <;> simp [Callback.isHook]

/-- The call that an emission makes next is that of its first subscription. -/
theorem head_of_called {i : Nat} {callback : Callback} {ev : Event}
    (h : rt.called i = some (callback, ev)) :
    ∃ e sub rest, rt.emissions[i]? = some e ∧ e.event = ev ∧ e.todo = sub :: rest ∧
      sub.callback = callback := by
  unfold called at h
  split at h
  · next e he =>
      split at h
      · next sub rest head =>
          split_ifs at h
          cases h
          exact ⟨e, sub, rest, he, rfl, head, rfl⟩
      · cases h
  · cases h

/-- The notices go along with the emissions when emission `i` goes on. -/
theorem follows_advance {heard : List Notice} {i j : Nat}
    (follows : ∀ (j : Nat) (n : Notice) (e : Emission), heard[j]? = some n →
      rt.emissions[j]? = some e → n.Follows e) {n : Notice} {e : Emission}
    (hn : (heard.modify i fun n => n.hear (rt.called i))[j]? = some n)
    (he : (rt.step py (.advance i)).emissions[j]? = some e) : n.Follows e := by
  rw [List.getElem?_modify] at hn
  obtain ⟨old, hold, hnotice⟩ := Option.map_eq_some_iff.mp hn
  cases hi : rt.emissions[i]? with
  | none =>
      have hstep : rt.step py (.advance i) = rt := by
        rw [HookRuntime.step, HookRuntime.advance, hi]
      rw [hstep] at he
      have hne : i ≠ j := by
        rintro rfl
        rw [hi] at he
        cases he
      rw [if_neg hne] at hnotice
      exact hnotice ▸ follows j old e hold he
  | some e₀ =>
      have moved : Advances py rt i e₀ (rt.step py (.advance i)) := advance_advances hi
      by_cases hij : i = j
      · subst hij
        rw [if_pos rfl] at hnotice
        obtain ⟨e', hset, hfollows⟩ := moved.follows hi (follows i old e₀ hold hi)
        rw [hset, List.getElem?_set_self (List.getElem?_eq_some_iff.mp hi).1] at he
        cases he
        exact hnotice ▸ hfollows
      · rw [if_neg hij] at hnotice
        obtain ⟨e', hset, -⟩ := moved.emissions hi
        rw [hset, List.getElem?_set_ne hij] at he
        exact hnotice ▸ follows j old e hold he

end HookRuntime

end PjsuaMcp.Scenario
