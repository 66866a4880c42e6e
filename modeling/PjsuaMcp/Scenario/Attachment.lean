import PjsuaMcp.Scenario.HookRuntime

/-!
# Where a hook is attached

A hook occurs in the bus under one id at most: the one that its unfinished
`arm` is about to assign, or the one that is assigned to it. A callback that
has called `unsubscribe` has detached its hook, also when another emit had
cleared `hook.sub_id` before it.
-/

namespace PjsuaMcp.Scenario

open Library

def Callback.isHookOf (h : Nat) : Callback → Bool
  | .hook h' => h' = h
  | _ => false

@[simp] theorem Callback.isHookOf_iff {h : Nat} {callback : Callback} :
    callback.isHookOf h = true ↔ callback = .hook h := by
  cases callback <;> simp [isHookOf]

/-- The emission has a callback of the hook to call or is in it. -/
def Emission.holds (e : Emission) (h : Nat) : Bool := e.todo.any fun sub => sub.callback.isHookOf h

theorem Emission.holds_iff {e : Emission} {h : Nat} :
    e.holds h = true ↔ ∃ sub ∈ e.todo, sub.callback = .hook h := by
  simp [holds]

namespace HookRuntime

variable {py : PyText} {s : HookRuntime}

/-- The hook has a subscription in the bus. -/
def Attached (s : HookRuntime) (h : Nat) : Prop :=
  ∃ id sub, s.bus.subs.get? id = some sub ∧ sub.callback = .hook h

/-- With fewer subscriptions, fewer hooks are attached. -/
theorem Attached.of_shrink {s' : HookRuntime} {h : Nat} (at_h : s'.Attached h)
    (sub_of : ∀ id sub, s'.bus.subs.get? id = some sub → s.bus.subs.get? id = some sub) :
    s.Attached h := by
  obtain ⟨id, sub, hget, call⟩ := at_h
  exact ⟨id, sub, sub_of id sub hget, call⟩

theorem Attached.of_bus_eq {s' : HookRuntime} {h : Nat} (at_h : s'.Attached h)
    (same : s'.bus = s.bus) : s.Attached h :=
  at_h.of_shrink fun _ _ hget => same ▸ hget

/-- What an emit copies is attached. -/
theorem attached_of_snapshot {ev : Event} {subs : List Subscription}
    (hsnap : s.bus.snapshot ev = some subs) {sub : Subscription} (hsub : sub ∈ subs) {h : Nat}
    (call : sub.callback = .hook h) : s.Attached h := by
  obtain ⟨id, hget⟩ := EventBus.mem_of_mem_snapshot hsnap hsub
  exact ⟨id, sub, hget, call⟩

/-! ## What one move of an emission can be -/

/-- The moves of emission `i`, which is `e`, with what each has found. -/
inductive Advances (py : PyText) (s : HookRuntime) (i : Nat) (e : Emission) : HookRuntime → Prop
  | idle (last : e.todo = []) : Advances py s i e s
  | finish (last : e.todo = []) :
      Advances py s i e
        { s.setEmission i { e with finished := true } with bus := s.bus.dropOnce e.toRemove }
  | skip {sub rest} (head : e.todo = sub :: rest)
      (other : ∀ h, sub.callback = .hook h → ∀ hook, s.hooks[h]? = some hook →
        e.stage = .between ∧ hookMatches py hook e.event ≠ some true) :
      Advances py s i e (s.setEmission i e.returned)
  | enter {sub rest h hook} (head : e.todo = sub :: rest) (call : sub.callback = .hook h)
      (obj : s.hooks[h]? = some hook) (stage : e.stage = .between)
      (matched : hookMatches py hook e.event = some true) :
      Advances py s i e (s.setEmission i { e with stage := .matched })
  | test {sub rest h hook} (head : e.todo = sub :: rest) (call : sub.callback = .hook h)
      (obj : s.hooks[h]? = some hook) (stage : e.stage = .matched) (once : hook.once = true)
      (assigned : hook.subId ≠ none) :
      Advances py s i e (s.setEmission i { e with stage := .detaching })
  | pass {sub rest h hook} (head : e.todo = sub :: rest) (call : sub.callback = .hook h)
      (obj : s.hooks[h]? = some hook) (stage : e.stage = .matched)
      (free : hook.once = true → hook.subId = none) :
      Advances py s i e (s.setEmission i { e with stage := .scheduling })
  | detach {sub rest h hook} (head : e.todo = sub :: rest) (call : sub.callback = .hook h)
      (obj : s.hooks[h]? = some hook) (stage : e.stage = .detaching) :
      Advances py s i e
        { s.setEmission i { e with stage := .clearing } with
          bus := s.bus.unsubscribe hook.subId }
  | clear {sub rest h hook} (head : e.todo = sub :: rest) (call : sub.callback = .hook h)
      (obj : s.hooks[h]? = some hook) (stage : e.stage = .clearing) :
      Advances py s i e
        { s.setEmission i { e with stage := .scheduling } with
          hooks := s.hooks.set h { hook with subId := none } }
  | schedule {sub rest h hook} (head : e.todo = sub :: rest) (call : sub.callback = .hook h)
      (obj : s.hooks[h]? = some hook) (stage : e.stage = .scheduling) :
      Advances py s i e
        { s.setEmission i e.returned with scheduled := s.scheduled ++ [(h, e.event)] }

/-- A callback that returns leaves its emission with the rest. -/
theorem callback_advances {i : Nat} {e : Emission} {sub : Subscription}
    {rest : List Subscription} {h : Nat} {hook : Hook} (head : e.todo = sub :: rest)
    (call : sub.callback = .hook h) (obj : s.hooks[h]? = some hook) :
    Advances py s i e (s.callback py i e h hook) := by
  cases stage : e.stage with
  | between =>
      simp only [callback, stage]
      split
      next hm => exact .enter head call obj stage hm
      next hm =>
        refine .skip head fun h' call' hook' obj' => ?_
        have hsame : h = h' := Callback.hook.inj (call.symm.trans call')
        subst hsame
        rw [obj] at obj'
        cases obj'
        exact ⟨stage, hm⟩
  | matched =>
      simp only [callback, stage]
      split
      next ht =>
        rw [Bool.and_eq_true] at ht
        exact .test head call obj stage ht.1 (Option.isSome_iff_ne_none.mp ht.2)
      next ht =>
        refine .pass head call obj stage fun once => ?_
        simpa [once] using ht
  | detaching =>
      simp only [callback, stage]
      exact .detach head call obj stage
  | clearing =>
      simp only [callback, stage]
      exact .clear head call obj stage
  | scheduling =>
      simp only [callback, stage]
      exact .schedule head call obj stage

/-- An emission advances by one subscription. -/
theorem advance_advances {i : Nat} {e : Emission} (he : s.emissions[i]? = some e) :
    Advances py s i e (s.advance py i) := by
  simp only [advance, he]
  obtain ⟨ev, todo, stage, toRemove, finished⟩ := e
  cases todo with
  | nil =>
      cases finished with
      | true => exact .idle rfl
      | false => exact .finish rfl
  | cons sub rest =>
      obtain ⟨subId, patterns, callback, once, active⟩ := sub
      cases callback with
      | hook h =>
          cases obj : s.hooks[h]? with
          | some hook =>
              simp only [obj]
              exact callback_advances rfl rfl obj
          | none =>
              simp only [obj]
              refine .skip rfl fun h' call hook obj' => ?_
              cases call
              rw [obj] at obj'
              cases obj'
      | recorder | stop | waiter | foreign =>
          refine .skip rfl fun h call => ?_
          cases call

/-- The next move of emission `i` does nothing, or is one of `Advances`. -/
theorem advance_cases (py : PyText) (s : HookRuntime) (i : Nat) :
    ∃ s', s.advance py i = s' ∧
      (s' = s ∨ ∃ e, s.emissions[i]? = some e ∧ Advances py s i e s') := by
  refine ⟨_, rfl, ?_⟩
  cases he : s.emissions[i]? with
  | none => exact .inl (by simp only [advance, he])
  | some e => exact .inr ⟨e, rfl, advance_advances he⟩

/-! ## The one id of a hook -/

/-- Every hook in the bus is there under the id that `arm` will assign or has assigned. -/
structure Housed (s : HookRuntime) : Prop where
  lt_ids : ∀ id sub, s.bus.subs.get? id = some sub → id < s.bus.ids
  home : ∀ id sub h, s.bus.subs.get? id = some sub → sub.callback = .hook h →
    s.arming.get? h = some id ∨
      (h ∈ s.registered ∧ ∃ hook, s.hooks[h]? = some hook ∧ hook.subId = some id)
  unassigned : ∀ h id, s.arming.get? h = some id →
    h ∉ s.registered ∧ ∃ hook, s.hooks[h]? = some hook ∧ hook.subId = none
  registered_lt : ∀ h ∈ s.registered, h < s.hooks.length

/-- What the emissions know of the hooks that they hold. -/
structure Informed (s : HookRuntime) : Prop where
  known : ∀ e ∈ s.emissions, ∀ sub ∈ e.todo, ∀ h, sub.callback = .hook h → h < s.hooks.length
  tested : ∀ e ∈ s.emissions, ∀ sub rest h, e.todo = sub :: rest → sub.callback = .hook h →
    e.stage = .detaching → s.arming.get? h = none
  detached : ∀ e ∈ s.emissions, ∀ sub rest h, e.todo = sub :: rest → sub.callback = .hook h →
    e.stage = .clearing → s.arming.get? h = none ∧ ¬s.Attached h

/-- A hook that is attached exists. -/
theorem Housed.lt_length (inv : s.Housed) {h : Nat} (at_h : s.Attached h) :
    h < s.hooks.length := by
  obtain ⟨id, sub, hget, call⟩ := at_h
  rcases inv.home id sub h hget call with harm | ⟨_, hook, obj, _⟩
  · obtain ⟨_, hook, obj, _⟩ := inv.unassigned h id harm
    exact (List.getElem?_eq_some_iff.mp obj).1
  · exact (List.getElem?_eq_some_iff.mp obj).1

/-- Two subscriptions of one hook are one. -/
theorem Housed.id_unique (inv : s.Housed) {id id' : Nat} {sub sub' : Subscription} {h : Nat}
    (hget : s.bus.subs.get? id = some sub) (call : sub.callback = .hook h)
    (hget' : s.bus.subs.get? id' = some sub') (call' : sub'.callback = .hook h) : id = id' := by
  rcases inv.home id sub h hget call with harm | ⟨hreg, hook, obj, assigned⟩ <;>
    rcases inv.home id' sub' h hget' call' with harm' | ⟨hreg', hook', obj', assigned'⟩
  · exact Option.some.inj (harm.symm.trans harm')
  · exact absurd hreg' (inv.unassigned h id harm).1
  · exact absurd hreg (inv.unassigned h id' harm').1
  · rw [obj] at obj'
    cases obj'
    exact Option.some.inj (assigned.symm.trans assigned')

/-- Fewer subscriptions stay housed. -/
theorem Housed.shrink {bus : EventBus} (inv : s.Housed)
    (sub_of : ∀ id sub, bus.subs.get? id = some sub → s.bus.subs.get? id = some sub)
    (hids : s.bus.ids ≤ bus.ids) : Housed { s with bus := bus } where
  lt_ids id sub hget := Nat.lt_of_lt_of_le (inv.lt_ids id sub (sub_of id sub hget)) hids
  home id sub h hget call := inv.home id sub h (sub_of id sub hget) call
  unassigned := inv.unassigned
  registered_lt := inv.registered_lt

theorem Housed.unsubscribe (inv : s.Housed) (subId : Option Nat) :
    Housed { s with bus := s.bus.unsubscribe subId } := by
  refine inv.shrink (fun _ _ hget => (EventBus.get?_unsubscribe hget).2) ?_
  cases subId <;> exact Nat.le_refl _

theorem Housed.dropOnce (inv : s.Housed) (toRemove : List Nat) :
    Housed { s with bus := s.bus.dropOnce toRemove } :=
  inv.shrink (fun _ _ => EventBus.get?_dropOnce) (Nat.le_refl _)

/-- The call of `unsubscribe` for a hook detaches it: when `sub_id` is clear it is no longer
attached, otherwise it is attached under that id. -/
theorem Housed.detached (inv : s.Housed) {h : Nat} {hook : Hook}
    (armed : s.arming.get? h = none) (obj : s.hooks[h]? = some hook) :
    ¬Attached { s with bus := s.bus.unsubscribe hook.subId } h := by
  rintro ⟨id, sub, hget, call⟩
  obtain ⟨hne, hget⟩ := EventBus.get?_unsubscribe hget
  rcases inv.home id sub h hget call with harm | ⟨_, hook', obj', assigned⟩
  · rw [armed] at harm
    cases harm
  · rw [obj] at obj'
    cases obj'
    exact hne assigned.symm

/-- A detached hook can leave `_hooks`. -/
theorem Housed.unregister (inv : s.Housed) {h : Nat} (gone : ¬s.Attached h) :
    Housed { s with registered := s.registered.filter (· ≠ h) } where
  lt_ids := inv.lt_ids
  home id sub h' hget call := by
    rcases inv.home id sub h' hget call with harm | ⟨hreg, hobj⟩
    · exact .inl harm
    · refine .inr ⟨List.mem_filter.mpr ⟨hreg, decide_eq_true ?_⟩, hobj⟩
      rintro rfl
      exact gone ⟨id, sub, hget, call⟩
  unassigned h' id hget := by
    obtain ⟨hreg, hobj⟩ := inv.unassigned h' id hget
    exact ⟨fun hmem => hreg (List.mem_of_mem_filter hmem), hobj⟩
  registered_lt h' hmem := inv.registered_lt h' (List.mem_of_mem_filter hmem)

/-- A registered hook is no longer being armed. -/
theorem Housed.arming_of_registered (inv : s.Housed) {h : Nat} (hreg : h ∈ s.registered) :
    s.arming.get? h = none := by
  cases harm : s.arming.get? h with
  | none => rfl
  | some id => exact absurd hreg (inv.unassigned h id harm).1

theorem Housed.arming_of_assigned (inv : s.Housed) {h : Nat} {hook : Hook}
    (obj : s.hooks[h]? = some hook) (assigned : hook.subId ≠ none) : s.arming.get? h = none := by
  cases harm : s.arming.get? h with
  | none => rfl
  | some id =>
      obtain ⟨_, hook', obj', clear⟩ := inv.unassigned h id harm
      rw [obj] at obj'
      cases obj'
      exact absurd clear assigned

theorem Housed.subscribe (inv : s.Housed) (patterns : List Value) {callback : Callback}
    (other : callback.isHook = false) (once : Bool) :
    Housed { s with bus := s.bus.subscribe patterns callback once } where
  lt_ids id sub hget := by
    rcases EventBus.get?_subscribe hget with ⟨rfl, _⟩ | hget
    · exact Nat.lt_succ_self _
    · exact Nat.lt_succ_of_lt (inv.lt_ids id sub hget)
  home id sub h hget call := by
    rcases EventBus.get?_subscribe hget with ⟨_, hcall⟩ | hget
    · rw [← hcall, call] at other
      cases other
    · exact inv.home id sub h hget call
  unassigned := inv.unassigned
  registered_lt := inv.registered_lt

/-- The hook that a spec makes has no `sub_id` yet. -/
theorem ofSpec_subId {hookId : Text} {spec : Dict} {patternName : Text} {hook : Hook}
    (h : Hook.ofSpec py hookId spec patternName = .ok hook) : hook.subId = none := by
  simp only [Hook.ofSpec, bind, Except.bind] at h
  repeat' split at h
  all_goals cases h
  all_goals rfl

/-- `arm` does nothing, or subscribes a new hook under a new id. -/
theorem arm_cases (py : PyText) (s : HookRuntime) (spec : Dict) (patternName : Text) :
    s.arm py spec patternName = s ∨ ∃ hook, hook.subId = none ∧
      s.arm py spec patternName =
        { s with
          bus := s.bus.subscribe hook.when (.hook s.hooks.length) false
          hooks := s.hooks ++ [hook]
          arming := s.arming.set s.hooks.length s.bus.ids } := by
  cases hspec : Hook.ofSpec py (py.uuid s.hooks.length) spec patternName with
  | error exn => exact .inl (by simp only [arm, hspec])
  | ok hook => exact .inr ⟨hook, ofSpec_subId hspec, by simp only [arm, hspec]⟩

/-- Arming a hook subscribes it. -/
theorem Housed.arm (inv : s.Housed) (spec : Dict) (patternName : Text) :
    (s.arm py spec patternName).Housed := by
  rcases arm_cases py s spec patternName with hsame | ⟨new, clear, harm⟩
  · rw [hsame]
    exact inv
  · rw [harm]
    have hold : ∀ {h hook}, s.hooks[h]? = some hook → (s.hooks ++ [new])[h]? = some hook :=
      fun obj => cell_append obj _
    have hnew : ∀ {h hook}, s.hooks[h]? = some hook → s.hooks.length ≠ h :=
      fun obj => Nat.ne_of_gt (List.getElem?_eq_some_iff.mp obj).1
    refine ⟨?_, ?_, ?_, ?_⟩
    · intro id sub hget
      rcases EventBus.get?_subscribe hget with ⟨rfl, _⟩ | hget
      · exact Nat.lt_succ_self _
      · exact Nat.lt_succ_of_lt (inv.lt_ids id sub hget)
    · intro id sub h hget call
      rcases EventBus.get?_subscribe hget with ⟨rfl, hcall⟩ | hget
      · rw [hcall] at call
        cases call
        exact .inl (OrderedDict.get?_set_self _ _ _)
      · rcases inv.home id sub h hget call with harm | ⟨hreg, hook, obj, assigned⟩
        · obtain ⟨_, hook, obj, _⟩ := inv.unassigned h id harm
          exact .inl ((OrderedDict.get?_set_of_ne _ (hnew obj) _).trans harm)
        · exact .inr ⟨hreg, hook, hold obj, assigned⟩
    · intro h id hget
      rw [OrderedDict.get?_set] at hget
      split at hget
      next hh =>
        subst hh
        refine ⟨fun hreg => Nat.lt_irrefl _ (inv.registered_lt _ hreg), new, ?_, clear⟩
        simp
      next =>
        obtain ⟨hreg, hook, obj, hclear⟩ := inv.unassigned h id hget
        exact ⟨hreg, hook, hold obj, hclear⟩
    · intro h hreg
      rw [List.length_append]
      exact Nat.lt_add_right 1 (inv.registered_lt h hreg)

/-- The subscription is assigned to its hook. -/
theorem Housed.assign (inv : s.Housed) (h : Nat) : (s.assign h).Housed := by
  cases harm : s.arming.get? h with
  | none =>
      simp only [HookRuntime.assign, harm]
      exact inv
  | some subId =>
      obtain ⟨_, new, objNew, _⟩ := inv.unassigned h subId harm
      simp only [HookRuntime.assign, harm]
      have hother : ∀ {h' hook}, h' ≠ h → s.hooks[h']? = some hook →
          (s.hooks.modify h fun hook => { hook with subId := some subId })[h']? = some hook := by
        intro h' hook hne obj
        rw [List.getElem?_modify, obj]
        simp [Ne.symm hne]
      refine ⟨inv.lt_ids, ?_, ?_, ?_⟩
      · intro id sub h' hget call
        by_cases hh : h' = h
        · subst hh
          rcases inv.home id sub h' hget call with harm' | ⟨hreg, _⟩
          · refine .inr ⟨by simp, { new with subId := some subId }, ?_, ?_⟩
            · simp [objNew]
            · exact harm.symm.trans harm'
          · exact absurd hreg (inv.unassigned h' subId harm).1
        · rcases inv.home id sub h' hget call with harm' | ⟨hreg, hook, obj, assigned⟩
          · exact .inl (by simp [hh, harm'])
          · exact .inr ⟨List.mem_append_left _ hreg, hook, hother hh obj, assigned⟩
      · intro h' id hget
        rw [OrderedDict.get?_pop] at hget
        split at hget
        · cases hget
        next hh =>
          obtain ⟨hreg, hook, obj, clear⟩ := inv.unassigned h' id hget
          refine ⟨?_, hook, hother hh obj, clear⟩
          simpa [hh] using hreg
      · intro h' hreg
        rw [List.length_modify]
        rcases List.mem_append.mp hreg with hreg | hreg
        · exact inv.registered_lt h' hreg
        · rw [List.mem_singleton.mp hreg]
          exact (List.getElem?_eq_some_iff.mp objNew).1

/-- `remove` detaches a hook that is in `_hooks`. -/
theorem Housed.remove_detaches (inv : s.Housed) {h : Nat} (hreg : h ∈ s.registered) :
    ¬(s.remove h).Attached h := by
  have obj := List.getElem?_eq_getElem (inv.registered_lt h hreg)
  simp only [HookRuntime.remove, if_pos hreg, obj, Option.bind_some]
  exact inv.detached (inv.arming_of_registered hreg) obj

/-- A hook that is removed is taken off the bus. -/
theorem Housed.remove (inv : s.Housed) (h : Nat) : (s.remove h).Housed := by
  by_cases hreg : h ∈ s.registered
  · have gone := inv.remove_detaches hreg
    simp only [HookRuntime.remove, if_pos hreg] at gone ⊢
    exact (inv.unsubscribe _).unregister gone
  · simp only [HookRuntime.remove, if_neg hreg]
    exact inv

/-- The emissions have no part in it. -/
theorem Housed.congr {s' : HookRuntime} (inv : s.Housed) (hbus : s'.bus = s.bus)
    (hhooks : s'.hooks = s.hooks) (hreg : s'.registered = s.registered)
    (harm : s'.arming = s.arming) : s'.Housed := by
  refine ⟨?_, ?_, ?_, ?_⟩
  · rw [hbus]
    exact inv.lt_ids
  · rw [hbus, hhooks, hreg, harm]
    exact inv.home
  · rw [hhooks, hreg, harm]
    exact inv.unassigned
  · rw [hhooks, hreg]
    exact inv.registered_lt

theorem Housed.emit (inv : s.Housed) (ev : Event) : (s.emit ev).Housed :=
  inv.congr (emit_bus s ev) (emit_hooks s ev) (emit_registered s ev) (emit_arming s ev)

theorem Housed.setEmission (inv : s.Housed) (i : Nat) (e : Emission) :
    (s.setEmission i e).Housed :=
  inv.congr rfl rfl rfl rfl

/-- Clearing `sub_id` is harmless for a detached hook. -/
theorem Housed.clear (inv : s.Housed) {h : Nat} {hook : Hook} (obj : s.hooks[h]? = some hook)
    (gone : ¬s.Attached h) :
    Housed { s with hooks := s.hooks.set h { hook with subId := none } } where
  lt_ids := inv.lt_ids
  home id sub h' hget call := by
    rcases inv.home id sub h' hget call with harm | ⟨hreg, hook', obj', assigned⟩
    · exact .inl harm
    · refine .inr ⟨hreg, hook', ?_, assigned⟩
      have hne : h ≠ h' := by
        rintro rfl
        exact gone ⟨id, sub, hget, call⟩
      rw [List.getElem?_set_ne hne, obj']
  unassigned h' id hget := by
    obtain ⟨hreg, hook', obj', clear⟩ := inv.unassigned h' id hget
    refine ⟨hreg, ?_⟩
    by_cases hh : h = h'
    · subst hh
      exact ⟨_, List.getElem?_set_self (List.getElem?_eq_some_iff.mp obj).1, rfl⟩
    · exact ⟨hook', by rw [List.getElem?_set_ne hh, obj'], clear⟩
  registered_lt h' hmem := by
    rw [List.length_set]
    exact inv.registered_lt h' hmem

/-- An emission advances, and may detach a hook. -/
theorem Housed.advance (inv : s.Housed) (informed : s.Informed) (i : Nat) :
    (s.advance py i).Housed := by
  obtain ⟨s', hmove, rfl | ⟨e, he, moved⟩⟩ := advance_cases py s i <;> rw [hmove]
  · exact inv
  · cases moved with
    | idle => exact inv
    | finish => exact (inv.dropOnce _).setEmission _ _
    | skip | enter | test | pass => exact inv.setEmission _ _
    | detach => exact (inv.unsubscribe _).setEmission _ _
    | clear head call obj stage =>
        have gone := (informed.detached e (List.mem_of_getElem? he) _ _ _ head call stage).2
        exact (inv.clear obj gone).setEmission _ _
    | schedule => exact inv.congr rfl rfl rfl rfl

/-! ## What the emissions know -/

/-- Moves that leave the emissions alone and change only what no emission has met. -/
theorem Informed.of_same_emissions {s' : HookRuntime} (inv : s.Informed)
    (same : s'.emissions = s.emissions) (hlen : s.hooks.length ≤ s'.hooks.length)
    (harm : ∀ h < s.hooks.length, s.arming.get? h = none → s'.arming.get? h = none)
    (hatt : ∀ h < s.hooks.length, s'.Attached h → s.Attached h) : s'.Informed where
  known e he sub hsub h call := Nat.lt_of_lt_of_le (inv.known e (same ▸ he) sub hsub h call) hlen
  tested e he sub rest h head call stage := by
    have hlt := inv.known e (same ▸ he) sub (head ▸ List.mem_cons_self) h call
    exact harm h hlt (inv.tested e (same ▸ he) sub rest h head call stage)
  detached e he sub rest h head call stage := by
    have hlt := inv.known e (same ▸ he) sub (head ▸ List.mem_cons_self) h call
    obtain ⟨armed, gone⟩ := inv.detached e (same ▸ he) sub rest h head call stage
    exact ⟨harm h hlt armed, fun at_h => gone (hatt h hlt at_h)⟩

/-- One emission moves on, and every other one keeps what it knows. -/
theorem Informed.setEmission (inv : s.Informed) {i : Nat} {e : Emission}
    (known : ∀ sub ∈ e.todo, ∀ h, sub.callback = .hook h → h < s.hooks.length)
    (tested : ∀ sub rest h, e.todo = sub :: rest → sub.callback = .hook h →
      e.stage = .detaching → s.arming.get? h = none)
    (detached : ∀ sub rest h, e.todo = sub :: rest → sub.callback = .hook h →
      e.stage = .clearing → s.arming.get? h = none ∧ ¬s.Attached h) :
    (s.setEmission i e).Informed := by
  refine ⟨fun e' he' => ?_, fun e' he' => ?_, fun e' he' => ?_⟩ <;>
    rcases List.mem_or_eq_of_mem_set he' with he' | rfl
  · exact inv.known e' he'
  · exact known
  · exact inv.tested e' he'
  · exact tested
  · exact inv.detached e' he'
  · exact detached

/-- An emission that has not yet tested `sub_id`, or is past it, knows nothing. -/
theorem Informed.setEmission_of_stage (inv : s.Informed) {i : Nat} {e : Emission}
    (known : ∀ sub ∈ e.todo, ∀ h, sub.callback = .hook h → h < s.hooks.length)
    (stage : e.stage ≠ .detaching ∧ e.stage ≠ .clearing) : (s.setEmission i e).Informed :=
  inv.setEmission known (fun _ _ _ _ _ hs => absurd hs stage.1)
    fun _ _ _ _ _ hs => absurd hs stage.2

theorem Emission.todo_returned {e : Emission} {sub : Subscription} {rest : List Subscription}
    (head : e.todo = sub :: rest) : e.returned.todo = rest ∧ e.returned.stage = .between := by
  simp only [Emission.returned, head, and_self]

theorem Informed.returned (inv : s.Informed) {i : Nat} {e : Emission} (he : e ∈ s.emissions)
    {sub : Subscription} {rest : List Subscription} (head : e.todo = sub :: rest) :
    (s.setEmission i e.returned).Informed := by
  obtain ⟨htodo, hstage⟩ := Emission.todo_returned head
  refine inv.setEmission_of_stage ?_ (by simp [hstage])
  rw [htodo]
  exact fun sub' hsub' => inv.known e he sub' (head ▸ List.mem_cons_of_mem _ hsub')

theorem Informed.shrink (inv : s.Informed) {bus : EventBus}
    (sub_of : ∀ id sub, bus.subs.get? id = some sub → s.bus.subs.get? id = some sub) :
    Informed { s with bus := bus } :=
  inv.of_same_emissions rfl (Nat.le_refl _) (fun _ _ armed => armed)
    fun _ _ at_h => at_h.of_shrink sub_of

/-- What an emission has yet to call stays known to it. -/
theorem Informed.advance (inv : s.Informed) (housed : s.Housed) (i : Nat) :
    (s.advance py i).Informed := by
  obtain ⟨s', hmove, rfl | ⟨e, he, moved⟩⟩ := advance_cases py s i <;> rw [hmove]
  · exact inv
  have hmem := List.mem_of_getElem? he
  have known := inv.known e hmem
  cases moved with
  | idle => exact inv
  | finish last =>
      have kept : Informed { s with bus := s.bus.dropOnce e.toRemove } :=
        inv.shrink fun _ _ => EventBus.get?_dropOnce
      refine kept.setEmission known ?_ ?_ <;> simp [last]
  | skip head => exact inv.returned hmem head
  | enter | pass => exact inv.setEmission_of_stage known (by simp)
  | test head call obj stage once assigned =>
      refine inv.setEmission known (fun sub' rest' h' head' call' _ => ?_) (by simp)
      cases head.symm.trans head'
      cases call.symm.trans call'
      exact housed.arming_of_assigned obj assigned
  | @detach sub rest h hook head call obj stage =>
      have armed := inv.tested e hmem _ _ _ head call stage
      have kept : Informed { s with bus := s.bus.unsubscribe hook.subId } :=
        inv.shrink fun _ _ hget => (EventBus.get?_unsubscribe hget).2
      refine kept.setEmission known (by simp) fun sub' rest' h' head' call' _ => ?_
      cases head.symm.trans head'
      cases call.symm.trans call'
      exact ⟨armed, housed.detached armed obj⟩
  | clear =>
      have kept := inv.setEmission_of_stage (i := i) (e := { e with stage := .scheduling })
        known (by simp)
      refine kept.of_same_emissions rfl ?_ (fun _ _ armed => armed) fun _ _ at_h => at_h
      rw [List.length_set]
      exact Nat.le_refl _
  | schedule head =>
      have kept := inv.returned (i := i) hmem head
      exact ⟨kept.known, kept.tested, kept.detached⟩

/-- An emission starts with the subscriptions of the bus. -/
theorem Informed.emit (inv : s.Informed) (housed : s.Housed) (ev : Event) :
    (s.emit ev).Informed := by
  cases hsnap : s.bus.snapshot ev with
  | none =>
      simp only [HookRuntime.emit, hsnap]
      exact inv
  | some subs =>
      simp only [HookRuntime.emit, hsnap]
      refine ⟨fun e he => ?_, fun e he => ?_, fun e he => ?_⟩ <;>
        rcases List.mem_append.mp he with he | he
      · exact inv.known e he
      · rw [List.mem_singleton.mp he]
        exact fun sub hsub h call => housed.lt_length (attached_of_snapshot hsnap hsub call)
      · exact inv.tested e he
      · rw [List.mem_singleton.mp he]
        intro _ _ _ _ _ hs
        cases hs
      · exact inv.detached e he
      · rw [List.mem_singleton.mp he]
        intro _ _ _ _ _ hs
        cases hs

/-- A hook that is armed is new to every emission. -/
theorem Informed.arm (inv : s.Informed) (spec : Dict) (patternName : Text) :
    (s.arm py spec patternName).Informed := by
  rcases arm_cases py s spec patternName with hsame | ⟨new, _, harm⟩
  · rw [hsame]
    exact inv
  · rw [harm]
    refine inv.of_same_emissions rfl (by simp) (fun h hlt armed => ?_) fun h hlt at_h => ?_
    · exact (OrderedDict.get?_set_of_ne _ (Nat.ne_of_gt hlt) _).trans armed
    · obtain ⟨id, sub, hget, call⟩ := at_h
      rcases EventBus.get?_subscribe hget with ⟨_, hcall⟩ | hget
      · rw [hcall] at call
        exact absurd (Callback.hook.inj call) (Nat.ne_of_gt hlt)
      · exact ⟨id, sub, hget, call⟩

/-- `assign` ends the `arm` of its own hook. -/
theorem assign_arming {h h' : Nat} (armed : s.arming.get? h' = none) :
    (s.assign h).arming.get? h' = none := by
  simp only [HookRuntime.assign]
  split
  · exact armed
  · simp [armed]

@[simp] theorem assign_length (s : HookRuntime) (h : Nat) :
    (s.assign h).hooks.length = s.hooks.length := by
  simp only [HookRuntime.assign]
  split
  · rfl
  · exact List.length_modify ..

theorem Informed.assign (inv : s.Informed) (h : Nat) : (s.assign h).Informed :=
  inv.of_same_emissions (by simp) (by simp) (fun _ _ => assign_arming) fun _ _ at_h =>
    at_h.of_bus_eq (by simp)

theorem remove_subs {h id : Nat} {sub : Subscription}
    (hget : (s.remove h).bus.subs.get? id = some sub) : s.bus.subs.get? id = some sub := by
  simp only [HookRuntime.remove] at hget
  split at hget
  · exact (EventBus.get?_unsubscribe hget).2
  · exact hget

theorem Informed.remove (inv : s.Informed) (h : Nat) : (s.remove h).Informed :=
  inv.of_same_emissions (by simp) (by simp) (by simp) fun _ _ at_h =>
    at_h.of_shrink fun _ _ => remove_subs

/-! ## Every run -/

/-- `sub_id` is the only field of a hook object that is ever written. -/
theorem hooks_step (py : PyText) (a : BusMove) {h : Nat} {hook : Hook} (obj : s.hooks[h]? = some hook) :
    ∃ subId, (s.step py a).hooks[h]? = some { hook with subId := subId } := by
  have hlt := (List.getElem?_eq_some_iff.mp obj).1
  cases a with
  | subscribe | unsubscribe => exact ⟨hook.subId, obj⟩
  | arm spec patternName =>
      rcases arm_cases py s spec patternName with hsame | ⟨new, _, harm⟩
      · exact ⟨hook.subId, by rw [step, hsame, obj]⟩
      · exact ⟨hook.subId, by rw [step, harm, List.getElem?_append_left hlt, obj]⟩
  | assign h' =>
      simp only [step, HookRuntime.assign]
      split
      next => exact ⟨hook.subId, obj⟩
      next subId _ =>
        rw [List.getElem?_modify, obj]
        by_cases hh : h' = h
        · exact ⟨some subId, by simp [hh]⟩
        · exact ⟨hook.subId, by simp [hh]⟩
  | remove h' => exact ⟨hook.subId, by rw [step, remove_hooks, obj]⟩
  | emit ev => exact ⟨hook.subId, by rw [step, emit_hooks, obj]⟩
  | advance i =>
      obtain ⟨s', hmove, rfl | ⟨e, he, moved⟩⟩ := advance_cases py s i <;> rw [step, hmove]
      · exact ⟨hook.subId, obj⟩
      cases moved with
      | @clear _ _ h' hook' _ _ obj' =>
          by_cases hh : h' = h
          · subst hh
            rw [obj] at obj'
            cases obj'
            exact ⟨none, List.getElem?_set_self hlt⟩
          · exact ⟨hook.subId, by rw [List.getElem?_set_ne hh, obj]⟩
      | idle | finish | skip | enter | test | pass | detach | schedule =>
          exact ⟨hook.subId, obj⟩

theorem subscribe_attached {patterns : List Value} {callback : Callback} {once : Bool}
    (other : callback.isHook = false) {h : Nat}
    (at_h : Attached { s with bus := s.bus.subscribe patterns callback once } h) :
    s.Attached h := by
  obtain ⟨id, sub, hget, call⟩ := at_h
  rcases EventBus.get?_subscribe hget with ⟨_, hcall⟩ | hget
  · rw [← hcall, call] at other
    cases other
  · exact ⟨id, sub, hget, call⟩

/-- Only `arm` attaches a hook, and only the hook that it makes. -/
theorem attached_of_step {a : BusMove} (en : enabled a = true) {h : Nat}
    (at_h : (s.step py a).Attached h) :
    s.Attached h ∨ ∃ spec patternName, a = .arm spec patternName ∧ h = s.hooks.length := by
  cases a with
  | subscribe patterns callback once =>
      exact .inl (subscribe_attached (by simpa [enabled] using en) at_h)
  | unsubscribe subId =>
      exact .inl (at_h.of_shrink fun _ _ hget => (EventBus.get?_unsubscribe hget).2)
  | arm spec patternName =>
      rcases arm_cases py s spec patternName with hsame | ⟨new, _, harm⟩
      · rw [step, hsame] at at_h
        exact .inl at_h
      · rw [step, harm] at at_h
        obtain ⟨id, sub, hget, call⟩ := at_h
        rcases EventBus.get?_subscribe hget with ⟨_, hcall⟩ | hget
        · rw [hcall] at call
          exact .inr ⟨spec, patternName, rfl, (Callback.hook.inj call).symm⟩
        · exact .inl ⟨id, sub, hget, call⟩
  | assign h' => exact .inl (at_h.of_bus_eq (assign_bus s h'))
  | remove h' => exact .inl (at_h.of_shrink fun _ _ => remove_subs)
  | emit ev => exact .inl (at_h.of_bus_eq (emit_bus s ev))
  | advance i =>
      obtain ⟨s', hmove, rfl | ⟨e, he, moved⟩⟩ := advance_cases py s i <;> rw [step, hmove] at at_h
      · exact .inl at_h
      cases moved with
      | finish => exact .inl (at_h.of_shrink fun _ _ => EventBus.get?_dropOnce)
      | detach => exact .inl (at_h.of_shrink fun _ _ hget => (EventBus.get?_unsubscribe hget).2)
      | idle | skip | enter | test | pass | clear | schedule => exact .inl at_h

theorem length_hooks_step (py : PyText) (a : BusMove) :
    s.hooks.length ≤ (s.step py a).hooks.length := by
  by_contra hlt
  have obj := List.getElem?_eq_getElem (Nat.lt_of_not_le hlt)
  obtain ⟨subId, obj'⟩ := hooks_step py a obj
  exact Nat.lt_irrefl _ (List.getElem?_eq_some_iff.mp obj').1

/-- Only `arm` makes hook objects. -/
theorem length_hooks_of_not_arm (py : PyText) {a : BusMove}
    (hnew : ∀ spec patternName, a ≠ .arm spec patternName) :
    (s.step py a).hooks.length = s.hooks.length := by
  cases a with
  | subscribe | unsubscribe => rfl
  | arm spec patternName => exact absurd rfl (hnew spec patternName)
  | assign h => exact assign_length s h
  | remove h => rw [step, remove_hooks]
  | emit ev => rw [step, emit_hooks]
  | advance i =>
      obtain ⟨s', hmove, rfl | ⟨e, he, moved⟩⟩ := advance_cases py s i <;> rw [step, hmove]
      cases moved with
      | clear => exact List.length_set
      | idle | finish | skip | enter | test | pass | detach | schedule => rfl

/-- Every move keeps both. -/
theorem step_housed_informed {a : BusMove} (en : enabled a = true)
    (inv : s.Housed ∧ s.Informed) : (s.step py a).Housed ∧ (s.step py a).Informed := by
  obtain ⟨housed, informed⟩ := inv
  cases a with
  | subscribe patterns callback once =>
      have other : callback.isHook = false := by simpa [enabled] using en
      refine ⟨housed.subscribe patterns other once, ?_⟩
      exact informed.of_same_emissions rfl (Nat.le_refl _) (fun _ _ armed => armed)
        fun _ _ at_h => subscribe_attached other at_h
  | unsubscribe subId =>
      exact ⟨housed.unsubscribe _, informed.shrink fun _ _ hget => (EventBus.get?_unsubscribe hget).2⟩
  | arm spec patternName => exact ⟨housed.arm spec patternName, informed.arm spec patternName⟩
  | assign h => exact ⟨housed.assign h, informed.assign h⟩
  | remove h => exact ⟨housed.remove h, informed.remove h⟩
  | emit ev => exact ⟨housed.emit ev, informed.emit housed ev⟩
  | advance i => exact ⟨housed.advance informed i, informed.advance housed i⟩

theorem initial_housed : initial.Housed := ⟨nofun, nofun, nofun, nofun⟩

theorem initial_informed : initial.Informed := ⟨nofun, nofun, nofun⟩

theorem housed_informed {ok : HookRuntime → BusMove → Prop} (run : (hookSystem py).Reach ok s) :
    s.Housed ∧ s.Informed :=
  run.invariant (P := fun s => s.Housed ∧ s.Informed) ⟨initial_housed, initial_informed⟩
    fun _ _ en _ inv => step_housed_informed en inv

/-! ## What an emission can still do -/

theorem Emission.holds_of_sublist {e e' : Emission} (fewer : e'.todo.Sublist e.todo) {h : Nat}
    (hholds : e'.holds h = true) : e.holds h = true := by
  obtain ⟨sub, hsub, call⟩ := Emission.holds_iff.mp hholds
  exact Emission.holds_iff.mpr ⟨sub, fewer.subset hsub, call⟩

/-- A callback that returns leaves less to be called. -/
theorem Emission.returned_le {e : Emission} {sub : Subscription} {rest : List Subscription}
    (head : e.todo = sub :: rest) :
    e.returned.event = e.event ∧ e.returned.todo.Sublist e.todo := by
  refine ⟨by simp only [Emission.returned, head], ?_⟩
  rw [(Emission.todo_returned head).1, head]
  exact List.sublist_cons_self sub rest

/-- A move of an emission keeps the other emissions, and leaves it with the same event and with
no more to call. -/
theorem Advances.mem_emissions {i : Nat} {e e' : Emission} {s' : HookRuntime}
    (moved : Advances py s i e s') (he' : e' ∈ s'.emissions) :
    e' ∈ s.emissions ∨ (e'.event = e.event ∧ e'.todo.Sublist e.todo) := by
  cases moved with
  | idle => exact .inl he'
  | skip head | schedule head =>
      refine (List.mem_or_eq_of_mem_set he').imp_right ?_
      rintro rfl
      exact Emission.returned_le head
  | finish | enter | test | pass | detach | clear =>
      refine (List.mem_or_eq_of_mem_set he').imp_right ?_
      rintro rfl
      exact ⟨rfl, List.Sublist.refl _⟩

/-- What an emission holds after a move it held before, or the move is the emit that has found it
attached. -/
theorem holds_of_step {a : BusMove} {e' : Emission} (he' : e' ∈ (s.step py a).emissions) {h : Nat}
    (hholds : e'.holds h = true) :
    (∃ e ∈ s.emissions, e.holds h = true ∧ e.event = e'.event) ∨ s.Attached h := by
  have hkeep : e' ∈ s.emissions → (∃ e ∈ s.emissions, e.holds h = true ∧ e.event = e'.event) ∨
      s.Attached h := fun he => .inl ⟨e', he, hholds, rfl⟩
  cases a with
  | subscribe | unsubscribe => exact hkeep he'
  | arm spec patternName =>
      rcases arm_cases py s spec patternName with hsame | ⟨new, _, harm⟩
      · rw [step, hsame] at he'
        exact hkeep he'
      · rw [step, harm] at he'
        exact hkeep he'
  | assign h' => exact hkeep (assign_emissions s h' ▸ he')
  | remove h' => exact hkeep (remove_emissions s h' ▸ he')
  | emit ev =>
      cases hsnap : s.bus.snapshot ev with
      | none =>
          simp only [step, HookRuntime.emit, hsnap] at he'
          exact hkeep he'
      | some subs =>
          simp only [step, HookRuntime.emit, hsnap] at he'
          rcases List.mem_append.mp he' with he' | he'
          · exact hkeep he'
          · rw [List.mem_singleton.mp he'] at hholds
            obtain ⟨sub, hsub, call⟩ := Emission.holds_iff.mp hholds
            exact .inr (attached_of_snapshot hsnap hsub call)
  | advance i =>
      obtain ⟨s', hmove, rfl | ⟨e, he, moved⟩⟩ := advance_cases py s i <;> rw [step, hmove] at he'
      · exact hkeep he'
      · rcases moved.mem_emissions he' with he' | ⟨hevent, fewer⟩
        · exact hkeep he'
        · refine .inl ⟨e, List.mem_of_getElem? he, ?_, hevent.symm⟩
          exact Emission.holds_of_sublist fewer hholds

/-- A move schedules nothing, or a hook that some emission holds, for the event of that. -/
theorem scheduled_step (py : PyText) (s : HookRuntime) (a : BusMove) :
    (s.step py a).scheduled = s.scheduled ∨
      ∃ h, ∃ e ∈ s.emissions, e.holds h = true ∧
        (s.step py a).scheduled = s.scheduled ++ [(h, e.event)] := by
  cases a with
  | subscribe | unsubscribe => exact .inl rfl
  | arm spec patternName =>
      rcases arm_cases py s spec patternName with hsame | ⟨new, _, harm⟩
      · exact .inl (by rw [step, hsame])
      · exact .inl (by rw [step, harm])
  | assign h' => exact .inl (assign_scheduled s h')
  | remove h' => exact .inl (remove_scheduled s h')
  | emit ev => exact .inl (emit_scheduled s ev)
  | advance i =>
      obtain ⟨s', hmove, rfl | ⟨e, he, moved⟩⟩ := advance_cases py s i <;> rw [step, hmove]
      · exact .inl rfl
      cases moved with
      | @schedule sub rest h hook head call =>
          refine .inr ⟨h, e, List.mem_of_getElem? he, ?_, rfl⟩
          exact Emission.holds_iff.mpr ⟨sub, head ▸ List.mem_cons_self, call⟩
      | idle | finish | skip | enter | test | pass | detach | clear => exact .inl rfl

/-- Only `arm` and its end change which arms are unfinished. -/
theorem arming_step {a : BusMove} (h : Nat) (hnew : ∀ spec patternName, a ≠ .arm spec patternName)
    (armed : s.arming.get? h = none) : (s.step py a).arming.get? h = none := by
  cases a with
  | subscribe | unsubscribe => exact armed
  | arm spec patternName => exact absurd rfl (hnew spec patternName)
  | assign h' => exact assign_arming armed
  | remove h' => rwa [step, remove_arming]
  | emit ev => rwa [step, emit_arming]
  | advance i =>
      obtain ⟨s', hmove, rfl | ⟨e, he, moved⟩⟩ := advance_cases py s i <;> rw [step, hmove]
      · exact armed
      · cases moved <;> exact armed

end HookRuntime

end PjsuaMcp.Scenario
