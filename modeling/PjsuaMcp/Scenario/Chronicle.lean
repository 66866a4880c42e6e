import PjsuaMcp.Scenario.Runner
import PjsuaMcp.Scenario.Attachment

/-!
# The recorder comes before the hooks

A chronicle keeps with every row of the timeline who has made it, and with
every firing of a hook the emission that was going through the bus. While the
recorder is subscribed it stands in front of all hooks, and so it does in
everything that an emit copies; no id that is given back to the bus is its own.
So an emission that calls a hook has its row in the timeline already.

## Implementation notes

Nothing in the program reads a chronicle. It is built beside the run from what
each move adds to the timeline and to the scheduled coroutines.
-/

namespace PjsuaMcp.Scenario

open Library

/-- Who has made a row of the timeline. -/
inductive Origin
  | emission (i : Nat)
  | task (t : Task)
  deriving DecidableEq, Repr

structure Chronicle where
  /-- The rows of the timeline. -/
  log : List (Origin × Entry)
  /-- The scheduled hooks and their events, each with the emission that has called the hook. -/
  firings : List (Nat × Nat × Event)
  /-- The emissions that have begun while the recorder was subscribed. -/
  watched : List Nat

namespace Chronicle

def initial : Chronicle := ⟨[], [], []⟩

def note (c : Chronicle) (o : Origin) (entry : Entry) : Chronicle :=
  { c with log := c.log ++ [(o, entry)] }

def fire (c : Chronicle) (i h : Nat) (ev : Event) : Chronicle :=
  { c with firings := c.firings ++ [(i, h, ev)] }

/-- Emission `i` begins. -/
def watch (c : Chronicle) (i : Nat) (recording : Bool) : Chronicle :=
  { c with watched := c.watched ++ if recording then [i] else [] }

/-- The rows that emission `i` has made. -/
def rowsOf (c : Chronicle) (i : Nat) : List (Origin × Entry) :=
  c.log.filter fun r => r.1 = .emission i

/-- The emission has made no row and called no hook that has fired. -/
def Untouched (c : Chronicle) (i : Nat) : Prop := c.rowsOf i = [] ∧ ∀ f ∈ c.firings, f.1 ≠ i

/-- The emission has made one row, which is its event. -/
def Noted (c : Chronicle) (i : Nat) (ev : Event) : Prop :=
  c.rowsOf i = [(.emission i, .event ev)]

variable {c : Chronicle} {i : Nat}

/-- A note is among the rows of its own origin. -/
theorem rowsOf_note (o : Origin) (entry : Entry) :
    (c.note o entry).rowsOf i =
      c.rowsOf i ++ if o = .emission i then [(o, entry)] else [] := by
  rw [rowsOf, note, List.filter_append, rowsOf]
  congr 1
  split_ifs with h <;> simp [h]

theorem rowsOf_note_of_ne {o : Origin} (h : o ≠ .emission i) (entry : Entry) :
    (c.note o entry).rowsOf i = c.rowsOf i := by
  rw [rowsOf_note, if_neg h, List.append_nil]

theorem Untouched.note (h : c.Untouched i) {o : Origin} (hne : o ≠ .emission i) (entry : Entry) :
    (c.note o entry).Untouched i :=
  ⟨by rw [rowsOf_note_of_ne hne, h.1], h.2⟩

theorem Untouched.fire (h : c.Untouched i) {j : Nat} (hne : j ≠ i) (hook : Nat) (ev : Event) :
    (c.fire j hook ev).Untouched i := by
  refine ⟨h.1, fun f hf => ?_⟩
  rcases List.mem_append.mp hf with hf | hf
  · exact h.2 f hf
  · rwa [List.mem_singleton.mp hf]

theorem Noted.mem {ev : Event} (h : c.Noted i ev) : (.emission i, .event ev) ∈ c.log := by
  have hmem : (Origin.emission i, Entry.event ev) ∈ c.rowsOf i := h ▸ List.mem_singleton_self _
  exact List.mem_of_mem_filter hmem

end Chronicle

/-! ## The place of the recorder -/

/-- The recorder is there once, and no hook before it. -/
inductive Leads : List Subscription → Prop
  | here {sub rest} (recorder : sub.callback = .recorder)
      (alone : ∀ other ∈ rest, other.callback ≠ .recorder) : Leads (sub :: rest)
  | there {sub rest} (other : sub.callback ≠ .recorder) (unhooked : sub.callback.isHook = false)
      (tail : Leads rest) : Leads (sub :: rest)

/-- There is neither the recorder nor a hook. -/
def Silent (subs : List Subscription) : Prop :=
  ∀ sub ∈ subs, sub.callback ≠ .recorder ∧ sub.callback.isHook = false

theorem Leads.filter {subs : List Subscription} (h : Leads subs) {p : Subscription → Bool}
    (keeps : ∀ sub ∈ subs, sub.callback = .recorder → p sub = true) : Leads (subs.filter p) := by
  induction h with
  | @here sub rest recorder alone =>
      rw [List.filter_cons_of_pos (keeps sub List.mem_cons_self recorder)]
      exact .here recorder fun other hother => alone other (List.mem_of_mem_filter hother)
  | @there sub rest other unhooked _ ih =>
      have hrest := ih fun sub hsub => keeps sub (List.mem_cons_of_mem _ hsub)
      rw [List.filter_cons]
      split_ifs
      · exact .there other unhooked hrest
      · exact hrest

theorem Leads.concat {subs : List Subscription} (h : Leads subs) {sub : Subscription}
    (other : sub.callback ≠ .recorder) : Leads (subs ++ [sub]) := by
  induction h with
  | here recorder alone =>
      refine .here recorder fun sub' hsub' => ?_
      rcases List.mem_append.mp hsub' with hsub' | hsub'
      · exact alone sub' hsub'
      · rwa [List.mem_singleton.mp hsub']
  | there other' unhooked _ ih => exact .there other' unhooked ih

/-- The recorder is subscribed first of all. -/
theorem Silent.concat_recorder {subs : List Subscription} (h : Silent subs) {sub : Subscription}
    (recorder : sub.callback = .recorder) : Leads (subs ++ [sub]) := by
  induction subs with
  | nil => exact .here recorder fun _ hother => by cases hother
  | cons first rest ih =>
      obtain ⟨hfirst, hrest⟩ := List.forall_mem_cons.mp h
      exact .there hfirst.1 hfirst.2 (ih hrest)

/-- What is called first is the recorder, or something that is neither recorder nor hook. -/
theorem Leads.head_unhooked {sub : Subscription} {rest : List Subscription}
    (h : Leads (sub :: rest)) : sub.callback.isHook = false := by
  cases h with
  | here recorder => rw [recorder]; rfl
  | there _ unhooked => exact unhooked

/-- The subscriptions in the order in which an emit calls them. -/
def EventBus.order (bus : EventBus) : List Subscription := bus.subs.entries.map Prod.snd

/-- What an emit copies are the active subscriptions whose patterns fit. -/
theorem EventBus.snapshot_eq_filter {bus : EventBus} {ev : Event} {found : List Subscription}
    (h : bus.snapshot ev = some found) :
    found = bus.order.filter fun sub =>
      sub.active && decide (patternsMatch ev.type sub.patterns = some true) := by
  have hlist : ∀ {subs found : List Subscription}, EventBus.matching ev.type subs = some found →
      found = subs.filter fun sub =>
        sub.active && decide (patternsMatch ev.type sub.patterns = some true) := by
    intro subs
    induction subs with
    | nil =>
        intro found h
        cases h
        rfl
    | cons sub rest ih =>
        intro found h
        rw [EventBus.matching] at h
        rw [List.filter_cons]
        cases hactive : sub.active with
        | false =>
            rw [hactive] at h
            simpa [hactive] using ih h
        | true =>
            rw [hactive, if_pos rfl] at h
            split at h
            · next hmatch =>
                obtain ⟨tail, htail, rfl⟩ := Option.map_eq_some_iff.mp h
                simp [hmatch, ih htail]
            · next hmatch => simpa [hmatch] using ih h
            · cases h
  exact hlist h

/-! ## What holds of the bus -/

/-- The id is used up, and no callback of the kind `p` has it. -/
def EventBus.Avoids (p : Callback → Prop) (bus : EventBus) (id : Nat) : Prop :=
  id < bus.ids ∧ ∀ sub, bus.subs.get? id = some sub → ¬p sub.callback

/-- The id is used up, and it is not the recorder's. -/
def EventBus.Spares (bus : EventBus) (id : Nat) : Prop :=
  id < bus.ids ∧ ∀ sub, bus.subs.get? id = some sub → sub.callback ≠ .recorder

/-- The ids that hooks and emissions give back to the bus. -/
inductive HookRuntime.Releases (rt : HookRuntime) (id : Nat) : Prop
  | hook {hook : Hook} (obj : hook ∈ rt.hooks) (assigned : hook.subId = some id)
  | arming {h : Nat} (unassigned : rt.arming.get? h = some id)
  | once {e : Emission} {sub : Subscription} (he : e ∈ rt.emissions) (hsub : sub ∈ e.todo)
      (once : sub.once = true) (hid : sub.subId = id)
  | toRemove {e : Emission} (he : e ∈ rt.emissions) (hid : id ∈ e.toRemove)

/-- What is given back depends on the hooks, the arms and the emissions only. -/
theorem HookRuntime.Releases.of_fields {rt rt' : HookRuntime} {id : Nat} (h : rt'.Releases id)
    (hooks : rt'.hooks = rt.hooks) (arming : rt'.arming = rt.arming)
    (emissions : rt'.emissions = rt.emissions) : rt.Releases id := by
  cases h with
  | hook obj assigned => exact .hook (hooks ▸ obj) assigned
  | arming unassigned => exact .arming (arming ▸ unassigned)
  | once he hsub once hid => exact .once (emissions ▸ he) hsub once hid
  | toRemove he hid => exact .toRemove (emissions ▸ he) hid

/-- A move of an emission gives back nothing new. -/
theorem HookRuntime.Releases.of_emission {rt rt' : HookRuntime} {id i : Nat} {e e' : Emission}
    (h : rt'.Releases id) (he : rt.emissions[i]? = some e)
    (hooks : ∀ hook ∈ rt'.hooks, hook.subId = some id → hook ∈ rt.hooks)
    (arming : rt'.arming = rt.arming) (emissions : rt'.emissions = rt.emissions.set i e')
    (todo : ∀ sub ∈ e'.todo, sub ∈ e.todo)
    (toRemove : ∀ id ∈ e'.toRemove, id ∈ e.toRemove ∨
      ∃ sub ∈ e.todo, sub.once = true ∧ sub.subId = id) : rt.Releases id := by
  have hmem : e ∈ rt.emissions := List.mem_of_getElem? he
  cases h with
  | hook obj assigned => exact .hook (hooks _ obj assigned) assigned
  | arming unassigned => exact .arming (arming ▸ unassigned)
  | once he' hsub once hid =>
      rw [emissions] at he'
      rcases List.mem_or_eq_of_mem_set he' with he' | rfl
      · exact .once he' hsub once hid
      · exact .once hmem (todo _ hsub) once hid
  | toRemove he' hid =>
      rw [emissions] at he'
      rcases List.mem_or_eq_of_mem_set he' with he' | rfl
      · exact .toRemove he' hid
      · rcases toRemove id hid with hid | ⟨sub, hsub, once, hid⟩
        · exact .toRemove hmem hid
        · exact .once hmem hsub once hid

/-- How far emission `i` has come with the recorder: it will call it before any hook, or has called
it, or it began without the recorder and has nothing to do with the scenario. -/
inductive Followed (c : Chronicle) (i : Nat) (e : Emission) : Prop
  | ahead (leads : Leads e.todo) (untouched : c.Untouched i)
  | behind (noted : c.Noted i e.event) (gone : ∀ sub ∈ e.todo, sub.callback ≠ .recorder)
  | unseen (silent : Silent e.todo) (untouched : c.Untouched i) (early : i ∉ c.watched)

/-- The bus, with the recorder under the id `rec`, and the chronicle of its emissions. -/
structure Kept (c : Chronicle) (rec : Option Nat) (rt : HookRuntime) : Prop where
  fired : c.firings.map Prod.snd = rt.scheduled
  keyed : ∀ id sub, rt.bus.subs.get? id = some sub → sub.subId = id ∧ id < rt.bus.ids
  recorder : ∀ id sub, rt.bus.subs.get? id = some sub → sub.callback = .recorder →
    rec = some id ∧ sub.patterns = [.str ['*']] ∧ sub.active = true ∧ sub.once = false
  order : if rec.isSome then Leads rt.bus.order else Silent rt.bus.order
  spared : ∀ id, rt.Releases id → rt.bus.Spares id
  followed : ∀ i e, rt.emissions[i]? = some e → Followed c i e
  unborn : ∀ i, rt.emissions.length ≤ i → c.Untouched i ∧ i ∉ c.watched
  caused : ∀ f ∈ c.firings, (.emission f.1, .event f.2.2) ∈ c.log
  events : ∀ r ∈ c.log, ∀ ev, r.2 = .event ev → ∃ i, r.1 = .emission i

theorem EventBus.mem_order {bus : EventBus} {sub : Subscription} :
    sub ∈ bus.order ↔ ∃ id, bus.subs.get? id = some sub := by
  simp only [order, List.mem_map, OrderedDict.get?_eq_some_iff]
  constructor
  · rintro ⟨⟨id, sub'⟩, hmem, rfl⟩
    exact ⟨id, hmem⟩
  · rintro ⟨id, hmem⟩
    exact ⟨(id, sub), hmem, rfl⟩

namespace EventBus

variable {bus : EventBus}

/-- The bus without some of its subscriptions. -/
def without (bus : EventBus) (p : Nat → Bool) : EventBus :=
  { bus with subs := bus.subs.filterKeys p }

theorem get?_without {p : Nat → Bool} {id : Nat} {sub : Subscription}
    (h : (bus.without p).subs.get? id = some sub) :
    bus.subs.get? id = some sub ∧ p id = true := by
  simp only [without, OrderedDict.get?_filterKeys] at h
  split_ifs at h with hp
  exact ⟨h, hp⟩

theorem without_true : bus.without (fun _ => true) = bus := by
  obtain ⟨⟨entries, nodup⟩, ids⟩ := bus
  simp [without, OrderedDict.filterKeys]

section Avoids

variable {p : Callback → Prop} {id : Nat}

theorem Avoids.without (h : bus.Avoids p id) (q : Nat → Bool) : (bus.without q).Avoids p id :=
  ⟨h.1, fun sub hget => h.2 sub (get?_without hget).1⟩

theorem Avoids.subscribe (h : bus.Avoids p id) (patterns : List Value) (callback : Callback)
    (once : Bool) : (bus.subscribe patterns callback once).Avoids p id := by
  refine ⟨Nat.lt_succ_of_lt h.1, fun sub hget => ?_⟩
  rcases get?_subscribe hget with ⟨rfl, -⟩ | hget
  · exact (Nat.lt_irrefl _ h.1).elim
  · exact h.2 sub hget

/-- A subscription that is just made is for its own callback. -/
theorem avoids_new (patterns : List Value) {callback : Callback} (once : Bool)
    (hkeys : ∀ id sub, bus.subs.get? id = some sub → id < bus.ids) (h : ¬p callback) :
    (bus.subscribe patterns callback once).Avoids p bus.ids := by
  refine ⟨Nat.lt_succ_self _, fun sub hget => ?_⟩
  rcases get?_subscribe hget with ⟨-, hcallback⟩ | hget
  · rwa [hcallback]
  · exact (Nat.lt_irrefl _ (hkeys _ sub hget)).elim

/-- A subscription for one event is not of a kind that stays. -/
theorem avoids_once (hkeyed : ∀ id sub, bus.subs.get? id = some sub → sub.subId = id ∧ id < bus.ids)
    (steady : ∀ id sub, bus.subs.get? id = some sub → p sub.callback → sub.once = false)
    {sub : Subscription} (hget : bus.subs.get? id = some sub) (once : sub.once = true) :
    bus.Avoids p sub.subId := by
  obtain ⟨hkey, hlt⟩ := hkeyed id sub hget
  rw [hkey]
  refine ⟨hlt, fun sub' hget' hp => ?_⟩
  rw [hget] at hget'
  cases hget'
  rw [steady id sub hget hp] at once
  cases once

end Avoids

/-- What a move does to the bus: some ids go, which are given back, or one subscription joins. -/
theorem step_bus (py : PyText) (rt : HookRuntime) (m : BusMove) :
    (∃ q : Nat → Bool, (rt.step py m).bus = rt.bus.without q ∧
      ∀ id, q id = false → m = .unsubscribe id ∨ rt.Releases id) ∨
    ∃ patterns callback once, (rt.step py m).bus = rt.bus.subscribe patterns callback once ∧
      (m = .subscribe patterns callback once ∨ ∃ h, callback = .hook h) := by
  have hsame : ∀ rt' : HookRuntime, rt'.bus = rt.bus → ∃ q : Nat → Bool,
      rt'.bus = rt.bus.without q ∧ ∀ id, q id = false → m = .unsubscribe id ∨ rt.Releases id :=
    fun rt' h => ⟨fun _ => true, h.trans without_true.symm, fun _ hid => by cases hid⟩
  have hunsubscribe : ∀ (rt' : HookRuntime) (subId : Option Nat),
      rt'.bus = rt.bus.unsubscribe subId →
      (∀ id, subId = some id → m = .unsubscribe id ∨ rt.Releases id) → ∃ q : Nat → Bool,
      rt'.bus = rt.bus.without q ∧ ∀ id, q id = false → m = .unsubscribe id ∨ rt.Releases id := by
    intro rt' subId hbus hgives
    cases subId with
    | none => exact hsame rt' hbus
    | some k =>
        refine ⟨fun k' => k' ≠ k, hbus, fun id hid => hgives id ?_⟩
        rw [of_decide_eq_false hid |> not_not.mp]
  cases m with
  | subscribe patterns callback once => exact .inr ⟨patterns, callback, once, rfl, .inl rfl⟩
  | unsubscribe subId =>
      exact .inl (hunsubscribe _ (some subId) rfl fun id hid => .inl (by rw [Option.some.inj hid]))
  | arm spec patternName =>
      rcases HookRuntime.arm_cases py rt spec patternName with hno | ⟨hook, -, harm⟩
      · exact .inl (hsame _ (by rw [HookRuntime.step, hno]))
      · exact .inr ⟨_, _, _, by rw [HookRuntime.step, harm], .inr ⟨_, rfl⟩⟩
  | assign k => exact .inl (hsame _ (HookRuntime.assign_bus rt k))
  | remove k =>
      by_cases hreg : k ∈ rt.registered
      · have hbus : (rt.remove k).bus = rt.bus.unsubscribe ((rt.hooks[k]?).bind Hook.subId) := by
          rw [HookRuntime.remove, if_pos hreg]
        refine .inl (hunsubscribe _ _ hbus fun id hid => .inr ?_)
        obtain ⟨hook, hobj, hassigned⟩ := Option.bind_eq_some_iff.mp hid
        exact .hook (List.mem_of_getElem? hobj) hassigned
      · have hbus : (rt.remove k).bus = rt.bus := by rw [HookRuntime.remove, if_neg hreg]
        exact .inl (hsame _ hbus)
  | emit ev => exact .inl (hsame _ (HookRuntime.emit_bus rt ev))
  | advance i =>
      refine .inl ?_
      obtain ⟨rt', hmove, rfl | ⟨e, he, moved⟩⟩ := HookRuntime.advance_cases py rt i <;>
        rw [HookRuntime.step, hmove]
      · exact hsame _ rfl
      · cases moved with
        | idle | skip | enter | test | pass | clear | schedule => exact hsame _ rfl
        | finish =>
            refine ⟨fun id => id ∉ e.toRemove, rfl, fun id hid => .inr ?_⟩
            exact .toRemove (List.mem_of_getElem? he) (not_not.mp (of_decide_eq_false hid))
        | @detach _ _ _ hook _ _ obj =>
            exact hunsubscribe _ hook.subId rfl fun id hid =>
              .inr (.hook (List.mem_of_getElem? obj) hid)

/-- An id of another kind stays so. -/
theorem Avoids.step {p : Callback → Prop} {rt : HookRuntime} {id : Nat} (h : rt.bus.Avoids p id)
    (py : PyText) (m : BusMove) : (rt.step py m).bus.Avoids p id := by
  rcases step_bus py rt m with ⟨q, hbus, -⟩ | ⟨patterns, callback, once, hbus, -⟩ <;> rw [hbus]
  · exact h.without q
  · exact h.subscribe patterns callback once

theorem spares_iff {id : Nat} : bus.Spares id ↔ bus.Avoids (· = .recorder) id := Iff.rfl

theorem Spares.without {id : Nat} (h : bus.Spares id) (p : Nat → Bool) :
    (bus.without p).Spares id := (spares_iff.mp h).without p

theorem Spares.subscribe {id : Nat} (h : bus.Spares id) (patterns : List Value)
    (callback : Callback) (once : Bool) : (bus.subscribe patterns callback once).Spares id :=
  (spares_iff.mp h).subscribe patterns callback once

theorem spares_new (patterns : List Value) {callback : Callback} (once : Bool)
    (hkeys : ∀ id sub, bus.subs.get? id = some sub → id < bus.ids) (h : callback ≠ .recorder) :
    (bus.subscribe patterns callback once).Spares bus.ids :=
  spares_iff.mpr (avoids_new patterns once hkeys h)

theorem Spares.unsubscribe {id : Nat} (h : bus.Spares id) (subId : Option Nat) :
    (bus.unsubscribe subId).Spares id := by
  cases subId with
  | none => exact h
  | some k => exact h.without fun k' => k' ≠ k

/-- What is spared stays so. -/
theorem Spares.step {rt : HookRuntime} {id : Nat} (h : rt.bus.Spares id) (py : PyText)
    (m : BusMove) : (rt.step py m).bus.Spares id := (spares_iff.mp h).step py m

/-- A new subscription is called last. -/
theorem order_subscribe (patterns : List Value) (callback : Callback) (once : Bool)
    (hkeys : ∀ id sub, bus.subs.get? id = some sub → id < bus.ids) :
    (bus.subscribe patterns callback once).order =
      bus.order ++ [⟨bus.ids, patterns, callback, once, true⟩] := by
  have hnone : bus.subs.get? bus.ids = none :=
    Option.eq_none_iff_forall_ne_some.mpr fun sub hget =>
      Nat.lt_irrefl _ (hkeys _ sub hget)
  simp only [order, subscribe, OrderedDict.entries_set_of_get?_none hnone, List.map_append,
    List.map_cons, List.map_nil]

end EventBus

/-! ## What a move gives back -/

theorem Emission.mem_todo_returned {e : Emission} {sub : Subscription} (h : sub ∈ e.returned.todo) :
    sub ∈ e.todo := by
  cases htodo : e.todo with
  | nil =>
      rw [Emission.returned, htodo] at h
      exact htodo ▸ h
  | cons first rest =>
      rw [(HookRuntime.Emission.todo_returned htodo).1] at h
      exact List.mem_cons_of_mem _ h

theorem Emission.mem_toRemove_returned {e : Emission} {id : Nat} (h : id ∈ e.returned.toRemove) :
    id ∈ e.toRemove ∨ ∃ sub ∈ e.todo, sub.once = true ∧ sub.subId = id := by
  cases htodo : e.todo with
  | nil =>
      rw [Emission.returned, htodo] at h
      exact .inl h
  | cons first rest =>
      simp only [Emission.returned, htodo] at h
      split_ifs at h with honce
      · rcases List.mem_append.mp h with h | h
        · exact .inl h
        · exact .inr ⟨first, List.mem_cons_self, honce, (List.mem_singleton.mp h).symm⟩
      · exact .inl h

namespace HookRuntime

section Releases

variable {py : PyText} {rt : HookRuntime} {id : Nat}

/-- A hook that is armed gives back the id that it has got. -/
theorem releases_arm {spec : Dict} {patternName : Text}
    (h : (rt.arm py spec patternName).Releases id) :
    rt.Releases id ∨ (id = rt.bus.ids ∧ ∃ patterns k,
      (rt.arm py spec patternName).bus = rt.bus.subscribe patterns (.hook k) false) := by
  rcases arm_cases py rt spec patternName with hno | ⟨hook, hfree, harm⟩
  · rw [hno] at h
    exact .inl h
  · rw [harm] at h ⊢
    cases h with
    | hook obj assigned =>
        rcases List.mem_append.mp obj with obj | obj
        · exact .inl (.hook obj assigned)
        · rw [List.mem_singleton.mp obj, hfree] at assigned
          cases assigned
    | @arming k unassigned =>
        rw [OrderedDict.get?_set] at unassigned
        split_ifs at unassigned
        · exact .inr ⟨(Option.some.inj unassigned).symm, _, _, rfl⟩
        · exact .inl (.arming unassigned)
    | once he hsub once hid => exact .inl (.once he hsub once hid)
    | toRemove he hid => exact .inl (.toRemove he hid)

/-- The id moves from the arm to its hook. -/
theorem releases_assign {k : Nat} (h : (rt.assign k).Releases id) : rt.Releases id := by
  unfold HookRuntime.assign at h
  cases harming : rt.arming.get? k with
  | none =>
      rw [harming] at h
      exact h
  | some subId =>
      rw [harming] at h
      cases h with
      | @hook hook obj assigned =>
          obtain ⟨n, hn⟩ := List.mem_iff_getElem?.mp obj
          rw [List.getElem?_modify] at hn
          obtain ⟨old, hold, hnew⟩ := Option.map_eq_some_iff.mp hn
          split_ifs at hnew
          · rw [← hnew] at assigned
            exact .arming (harming.trans assigned)
          · exact .hook (List.mem_of_getElem? hold) (hnew ▸ assigned)
      | @arming k' unassigned =>
          rw [OrderedDict.get?_pop] at unassigned
          split_ifs at unassigned
          exact .arming unassigned
      | once he hsub once hid => exact .once he hsub once hid
      | toRemove he hid => exact .toRemove he hid

theorem releases_remove {k : Nat} (h : (rt.remove k).Releases id) : rt.Releases id :=
  h.of_fields (remove_hooks rt k) (remove_arming rt k) (remove_emissions rt k)

/-- A new emission will give back what it has copied of the subscriptions for one event. -/
theorem releases_emit {ev : Event} (h : (rt.emit ev).Releases id) :
    rt.Releases id ∨
      ∃ k sub, rt.bus.subs.get? k = some sub ∧ sub.once = true ∧ sub.subId = id := by
  rw [HookRuntime.emit] at h
  split at h
  · exact .inl h
  · next found hsnapshot =>
      cases h with
      | hook obj assigned => exact .inl (.hook obj assigned)
      | arming unassigned => exact .inl (.arming unassigned)
      | once he hsub once hid =>
          rcases List.mem_append.mp he with he | he
          · exact .inl (.once he hsub once hid)
          · rw [List.mem_singleton.mp he] at hsub
            obtain ⟨k, hget⟩ := EventBus.mem_of_mem_snapshot hsnapshot hsub
            exact .inr ⟨k, _, hget, once, hid⟩
      | toRemove he hid =>
          rcases List.mem_append.mp he with he | he
          · exact .inl (.toRemove he hid)
          · rw [List.mem_singleton.mp he] at hid
            cases hid

theorem releases_advance {i : Nat} (h : (rt.advance py i).Releases id) : rt.Releases id := by
  obtain ⟨rt', hmove, rfl | ⟨e, he, moved⟩⟩ := advance_cases py rt i <;> rw [hmove] at h
  · exact h
  · cases moved with
    | idle => exact h
    | finish | enter | test | pass | detach =>
        exact h.of_emission he (fun _ obj _ => obj) rfl rfl (fun _ h => h) fun _ h => .inl h
    | skip | schedule =>
        exact h.of_emission he (fun _ obj _ => obj) rfl rfl
          (fun _ => Emission.mem_todo_returned) fun _ => Emission.mem_toRemove_returned
    | clear =>
        refine h.of_emission he (fun hook obj assigned => ?_) rfl rfl (fun _ h => h)
          fun _ h => .inl h
        rcases List.mem_or_eq_of_mem_set obj with obj | rfl
        · exact obj
        · cases assigned

/-- What is given back after a move was so before, or it is the id of a new hook, or that of a
subscription for one event. -/
theorem releases_step {m : BusMove} (h : (rt.step py m).Releases id) :
    rt.Releases id ∨
      (id = rt.bus.ids ∧
        ∃ patterns k, (rt.step py m).bus = rt.bus.subscribe patterns (.hook k) false) ∨
      ∃ k sub, rt.bus.subs.get? k = some sub ∧ sub.once = true ∧ sub.subId = id := by
  cases m with
  | subscribe | unsubscribe => exact .inl (h.of_fields rfl rfl rfl)
  | arm => exact (releases_arm h).imp_right .inl
  | assign => exact .inl (releases_assign h)
  | remove => exact .inl (releases_remove h)
  | emit => exact (releases_emit h).imp_right .inr
  | advance => exact .inl (releases_advance h)

end Releases

end HookRuntime

namespace Kept

variable {c : Chronicle} {rec : Option Nat} {rt : HookRuntime}

theorem lt_ids (inv : Kept c rec rt) (id : Nat) (sub : Subscription)
    (hget : rt.bus.subs.get? id = some sub) : id < rt.bus.ids := (inv.keyed id sub hget).2

/-- Subscriptions other than the recorder may go. -/
theorem without (inv : Kept c rec rt) {p : Nat → Bool}
    (keeps : ∀ id sub, rt.bus.subs.get? id = some sub → sub.callback = .recorder → p id = true) :
    Kept c rec { rt with bus := rt.bus.without p } where
  fired := inv.fired
  keyed id sub hget := inv.keyed id sub (EventBus.get?_without hget).1
  recorder id sub hget := inv.recorder id sub (EventBus.get?_without hget).1
  order := by
    have hfilter : (rt.bus.without p).order = rt.bus.order.filter fun sub => p sub.subId := by
      simp only [EventBus.order, EventBus.without, OrderedDict.entries_filterKeys, List.filter_map]
      congr 1
      refine List.filter_congr fun entry hentry => ?_
      have hget := (rt.bus.subs.get?_eq_some_iff entry.1 entry.2).mpr hentry
      rw [Function.comp_apply, (inv.keyed entry.1 entry.2 hget).1]
    have hkeeps : ∀ sub ∈ rt.bus.order, sub.callback = .recorder → p sub.subId = true := by
      intro sub hsub hrec
      obtain ⟨id, hget⟩ := EventBus.mem_order.mp hsub
      rw [(inv.keyed id sub hget).1]
      exact keeps id sub hget hrec
    have horder := inv.order
    change if rec.isSome then Leads (rt.bus.without p).order else Silent (rt.bus.without p).order
    rw [hfilter]
    split_ifs at horder ⊢
    · exact horder.filter hkeeps
    · exact fun sub hsub => horder sub (List.mem_of_mem_filter hsub)
  spared id h := (inv.spared id (h.of_fields rfl rfl rfl)).without p
  followed := inv.followed
  unborn := inv.unborn
  caused := inv.caused
  events := inv.events

theorem unsubscribe (inv : Kept c rec rt) {id : Option Nat}
    (other : ∀ k, id = some k → ∀ sub, rt.bus.subs.get? k = some sub →
      sub.callback ≠ .recorder) :
    Kept c rec { rt with bus := rt.bus.unsubscribe id } := by
  cases id with
  | none => exact inv
  | some k =>
      refine inv.without (p := fun k' => k' ≠ k) fun k' sub hget hrec => decide_eq_true ?_
      rintro rfl
      exact other k' rfl sub hget hrec

theorem dropOnce (inv : Kept c rec rt) {toRemove : List Nat}
    (spared : ∀ id ∈ toRemove, rt.bus.Spares id) :
    Kept c rec { rt with bus := rt.bus.dropOnce toRemove } := by
  refine inv.without (p := fun k => k ∉ toRemove) fun k sub hget hrec => decide_eq_true ?_
  exact fun hmem => (spared k hmem).2 sub hget hrec

theorem keyed_subscribe (inv : Kept c rec rt) (patterns : List Value) (callback : Callback)
    (once : Bool) (id : Nat) (sub : Subscription)
    (hget : (rt.bus.subscribe patterns callback once).subs.get? id = some sub) :
    sub.subId = id ∧ id < (rt.bus.subscribe patterns callback once).ids := by
  simp only [EventBus.subscribe, OrderedDict.get?_set] at hget
  split_ifs at hget with hid
  · cases hget
    exact ⟨hid, hid ▸ Nat.lt_succ_self _⟩
  · obtain ⟨hkey, hlt⟩ := inv.keyed id sub hget
    exact ⟨hkey, Nat.lt_succ_of_lt hlt⟩

/-- A subscription that is not the recorder's joins, a hook's only when the recorder is there. -/
theorem subscribe (inv : Kept c rec rt) (patterns : List Value) {callback : Callback} (once : Bool)
    (other : callback ≠ .recorder) (unhooked : callback.isHook = false ∨ rec.isSome = true) :
    Kept c rec { rt with bus := rt.bus.subscribe patterns callback once } where
  fired := inv.fired
  keyed := inv.keyed_subscribe _ _ _
  recorder id sub hget hrec := by
    rcases EventBus.get?_subscribe hget with ⟨-, hcallback⟩ | hget
    · exact (other (hcallback.symm.trans hrec)).elim
    · exact inv.recorder id sub hget hrec
  order := by
    have horder := inv.order
    change if rec.isSome then Leads (rt.bus.subscribe patterns callback once).order
      else Silent (rt.bus.subscribe patterns callback once).order
    rw [EventBus.order_subscribe _ _ _ inv.lt_ids]
    split_ifs at horder ⊢ with hrec
    · exact horder.concat other
    · intro sub hsub
      rcases List.mem_append.mp hsub with hsub | hsub
      · exact horder sub hsub
      · rw [List.mem_singleton.mp hsub]
        exact ⟨other, unhooked.resolve_right hrec⟩
  spared id h := (inv.spared id (h.of_fields rfl rfl rfl)).subscribe patterns callback once
  followed := inv.followed
  unborn := inv.unborn
  caused := inv.caused
  events := inv.events

/-- The recorder joins. -/
theorem start (inv : Kept c none rt) :
    Kept c (some rt.bus.ids)
      { rt with bus := rt.bus.subscribe [.str ['*']] .recorder false } where
  fired := inv.fired
  keyed := inv.keyed_subscribe _ _ _
  recorder id sub hget hrec := by
    simp only [EventBus.subscribe, OrderedDict.get?_set] at hget
    split_ifs at hget with hid
    · cases hget
      exact ⟨congrArg some hid, rfl, rfl, rfl⟩
    · cases (inv.recorder id sub hget hrec).1
  order := by
    have horder := inv.order
    change Leads (rt.bus.subscribe _ _ _).order
    rw [EventBus.order_subscribe _ _ _ inv.lt_ids]
    exact Silent.concat_recorder horder rfl
  spared id h := (inv.spared id (h.of_fields rfl rfl rfl)).subscribe _ _ _
  followed := inv.followed
  unborn := inv.unborn
  caused := inv.caused
  events := inv.events

/-- The recorder leaves when no hook is subscribed any more. -/
theorem stop {id : Nat} (inv : Kept c (some id) rt) (bare : ∀ h, ¬rt.Attached h) :
    Kept c none { rt with bus := rt.bus.unsubscribe (some id) } where
  fired := inv.fired
  keyed id' sub hget := inv.keyed id' sub (EventBus.get?_unsubscribe hget).2
  recorder id' sub hget hrec := by
    obtain ⟨hne, hget⟩ := EventBus.get?_unsubscribe hget
    exact (hne (inv.recorder id' sub hget hrec).1.symm).elim
  order := by
    change Silent (rt.bus.unsubscribe (some id)).order
    intro sub hsub
    obtain ⟨id', hget⟩ := EventBus.mem_order.mp hsub
    obtain ⟨hne, hget⟩ := EventBus.get?_unsubscribe hget
    refine ⟨fun hrec => hne (inv.recorder id' sub hget hrec).1.symm, ?_⟩
    cases hcallback : sub.callback with
    | hook h => exact (bare h ⟨id', sub, hget, hcallback⟩).elim
    | _ => rfl
  spared id' h := (inv.spared id' (h.of_fields rfl rfl rfl)).without fun k => k ≠ id
  followed := inv.followed
  unborn := inv.unborn
  caused := inv.caused
  events := inv.events

/-- Changes of the hooks and their arms that give back no id of the recorder. -/
theorem withHooks (inv : Kept c rec rt) {rt' : HookRuntime} (hbus : rt'.bus = rt.bus)
    (hemissions : rt'.emissions = rt.emissions) (hscheduled : rt'.scheduled = rt.scheduled)
    (hspared : ∀ id, rt'.Releases id → rt.bus.Spares id) : Kept c rec rt' where
  fired := inv.fired.trans hscheduled.symm
  keyed := hbus ▸ inv.keyed
  recorder := hbus ▸ inv.recorder
  order := hbus ▸ inv.order
  spared := hbus ▸ hspared
  followed := hemissions ▸ inv.followed
  unborn := hemissions ▸ inv.unborn
  caused := inv.caused
  events := inv.events

/-- `arm` up to the return of `subscribe`, while the recorder is there. -/
theorem arm (inv : Kept c rec rt) (attached : rec.isSome = true) (py : PyText) (spec : Dict)
    (patternName : Text) : Kept c rec (rt.arm py spec patternName) := by
  rcases HookRuntime.arm_cases py rt spec patternName with hsame | ⟨hook, -, harm⟩
  · rwa [hsame]
  · have hnew : Kept c rec
        { rt with bus := rt.bus.subscribe hook.when (.hook rt.hooks.length) false } :=
      inv.subscribe hook.when false (fun h => by cases h) (.inr attached)
    have hspared : ∀ id, (rt.arm py spec patternName).Releases id →
        (rt.arm py spec patternName).bus.Spares id := by
      intro id h
      rcases HookRuntime.releases_arm h with h | ⟨rfl, patterns, k, hbus⟩
      · exact (inv.spared id h).step py (.arm spec patternName)
      · rw [hbus]
        exact EventBus.spares_new patterns false inv.lt_ids (by intro h; cases h)
    rw [harm] at hspared ⊢
    exact hnew.withHooks rfl rfl rfl hspared

theorem assign (inv : Kept c rec rt) (h : Nat) : Kept c rec (rt.assign h) :=
  inv.withHooks (HookRuntime.assign_bus rt h) (HookRuntime.assign_emissions rt h)
    (HookRuntime.assign_scheduled rt h) fun id hid =>
      inv.spared id (HookRuntime.releases_assign hid)

theorem remove (inv : Kept c rec rt) (h : Nat) : Kept c rec (rt.remove h) := by
  unfold HookRuntime.remove
  split_ifs
  · have hgone : Kept c rec
        { rt with bus := rt.bus.unsubscribe ((rt.hooks[h]?).bind Hook.subId) } := by
      refine inv.unsubscribe fun k hk => ?_
      obtain ⟨hook, hhook, hid⟩ := Option.bind_eq_some_iff.mp hk
      exact (inv.spared k (.hook (List.mem_of_getElem? hhook) hid)).2
    exact hgone.withHooks rfl rfl rfl fun id hid => hgone.spared id (hid.of_fields rfl rfl rfl)
  · exact inv

/-- `emit` copies the recorder in front of the hooks. -/
theorem emit (inv : Kept c rec rt) {ev : Event} {found : List Subscription}
    (hfound : rt.bus.snapshot ev = some found) :
    Kept (c.watch rt.emissions.length rec.isSome) rec (rt.emit ev) := by
  have hfilter := EventBus.snapshot_eq_filter hfound
  have hnew : Followed (c.watch rt.emissions.length rec.isSome) rt.emissions.length
      { event := ev, todo := found } := by
    obtain ⟨huntouched, hearly⟩ := inv.unborn _ (Nat.le_refl _)
    have horder := inv.order
    split_ifs at horder with hrec
    · refine .ahead ?_ huntouched
      rw [hfilter]
      refine horder.filter fun sub hsub hsubRec => ?_
      obtain ⟨id, hget⟩ := EventBus.mem_order.mp hsub
      obtain ⟨-, hpatterns, hactive, -⟩ := inv.recorder id sub hget hsubRec
      simp [hactive, hpatterns, patternsMatch, patternMatches]
    · refine .unseen ?_ huntouched ?_
      · rw [hfilter]
        exact fun sub hsub => horder sub (List.mem_of_mem_filter hsub)
      · simpa [Chronicle.watch, hrec] using hearly
  have hold : ∀ i e, rt.emissions[i]? = some e → Followed c i e →
      Followed (c.watch rt.emissions.length rec.isSome) i e := by
    intro i e he hfollowed
    have hlt : i < rt.emissions.length := (List.getElem?_eq_some_iff.mp he).1
    cases hfollowed with
    | ahead leads untouched => exact .ahead leads untouched
    | behind noted gone => exact .behind noted gone
    | unseen silent untouched early =>
        refine .unseen silent untouched fun hmem => ?_
        rcases List.mem_append.mp hmem with hmem | hmem
        · exact early hmem
        · split_ifs at hmem
          · exact Nat.ne_of_lt hlt (List.mem_singleton.mp hmem)
          · cases hmem
  have gives : ∀ {id}, (rt.emit ev).Releases id → rt.Releases id ∨
      ∃ k sub, rt.bus.subs.get? k = some sub ∧ sub.once = true ∧ sub.subId = id :=
    HookRuntime.releases_emit
  rw [HookRuntime.emit, hfound] at gives ⊢
  refine ⟨inv.fired, inv.keyed, inv.recorder, inv.order, fun id h => ?_, fun i e he => ?_,
    fun i hi => ?_, inv.caused, inv.events⟩
  · rcases gives h with h | ⟨k, sub, hget, once, rfl⟩
    · exact inv.spared id h
    · exact EventBus.spares_iff.mpr (EventBus.avoids_once inv.keyed
        (fun k sub hget hrec => (inv.recorder k sub hget hrec).2.2.2) hget once)
  · obtain he' | ⟨rfl, rfl⟩ := cell_of_concat he
    · exact hold i e he' (inv.followed i e he')
    · exact hnew
  · simp only [List.length_append, List.length_singleton] at hi
    obtain ⟨huntouched, hearly⟩ := inv.unborn i (by omega)
    refine ⟨huntouched, fun hmem => ?_⟩
    rcases List.mem_append.mp hmem with hmem | hmem
    · exact hearly hmem
    · split_ifs at hmem
      · have := List.mem_singleton.mp hmem
        omega
      · cases hmem

/-- Emission `i` moves on; what the chronicle gains belongs to it. -/
theorem setEmission (inv : Kept c rec rt) {i : Nat} {e e' : Emission}
    (he : rt.emissions[i]? = some e) {c' : Chronicle} {scheduled : List (Nat × Event)}
    (fired : c'.firings.map Prod.snd = scheduled)
    (todo : ∀ sub ∈ e'.todo, sub ∈ e.todo)
    (toRemove : ∀ id ∈ e'.toRemove, id ∈ e.toRemove ∨
      ∃ sub ∈ e.todo, sub.once = true ∧ sub.subId = id)
    (followed : Followed c' i e')
    (others : ∀ j, j ≠ i → c.Untouched j → c'.Untouched j)
    (rows : ∀ j, j ≠ i → c'.rowsOf j = c.rowsOf j) (watched : c'.watched = c.watched)
    (caused : ∀ f ∈ c'.firings, (.emission f.1, .event f.2.2) ∈ c'.log)
    (events : ∀ r ∈ c'.log, ∀ ev, r.2 = .event ev → ∃ i, r.1 = .emission i) :
    Kept c' rec { rt.setEmission i e' with scheduled := scheduled } where
  fired := fired
  keyed := inv.keyed
  recorder := inv.recorder
  order := inv.order
  spared id h := inv.spared id (h.of_emission he (fun _ obj _ => obj) rfl rfl todo toRemove)
  followed j e'' hj := by
    rcases eq_or_ne j i with rfl | hne
    · rw [HookRuntime.setEmission, List.getElem?_set_self (List.getElem?_eq_some_iff.mp he).1] at hj
      cases hj
      exact followed
    · rw [HookRuntime.setEmission, List.getElem?_set_ne hne.symm] at hj
      cases inv.followed j e'' hj with
      | ahead leads untouched => exact .ahead leads (others j hne untouched)
      | behind noted gone => exact .behind ((rows j hne).trans noted) gone
      | unseen silent untouched early =>
          exact .unseen silent (others j hne untouched) (watched ▸ early)
  unborn j hj := by
    rw [HookRuntime.setEmission, List.length_set] at hj
    have hlt := (List.getElem?_eq_some_iff.mp he).1
    obtain ⟨huntouched, hearly⟩ := inv.unborn j hj
    exact ⟨others j (by omega) huntouched, watched ▸ hearly⟩
  caused := caused
  events := events

/-- Emission `i` moves on without a trace. -/
theorem setEmission_silent (inv : Kept c rec rt) {i : Nat} {e e' : Emission}
    (he : rt.emissions[i]? = some e) (todo : ∀ sub ∈ e'.todo, sub ∈ e.todo)
    (toRemove : ∀ id ∈ e'.toRemove, id ∈ e.toRemove ∨
      ∃ sub ∈ e.todo, sub.once = true ∧ sub.subId = id)
    (followed : Followed c i e') : Kept c rec (rt.setEmission i e') :=
  inv.setEmission he inv.fired todo toRemove followed (fun _ _ h => h) (fun _ _ => rfl) rfl
    inv.caused inv.events

/-- The callback goes on. -/
theorem setEmission_stage (inv : Kept c rec rt) {i : Nat} {e : Emission}
    (he : rt.emissions[i]? = some e) (stage : Stage) (finished : Bool) :
    Kept c rec (rt.setEmission i { e with stage := stage, finished := finished }) := by
  refine inv.setEmission_silent he (fun _ h => h) (fun _ h => .inl h) ?_
  cases inv.followed i e he with
  | ahead leads untouched => exact .ahead leads untouched
  | behind noted gone => exact .behind noted gone
  | unseen silent untouched early => exact .unseen silent untouched early

/-- An emission that has come to a hook has its row, and the recorder behind it. -/
theorem behind_of_hook (inv : Kept c rec rt) {i : Nat} {e : Emission}
    (he : rt.emissions[i]? = some e) {sub : Subscription} {rest : List Subscription}
    (head : e.todo = sub :: rest) (hook : sub.callback.isHook = true) :
    c.Noted i e.event ∧ ∀ sub ∈ e.todo, sub.callback ≠ .recorder := by
  cases inv.followed i e he with
  | ahead leads =>
      rw [(head ▸ leads : Leads (sub :: rest)).head_unhooked] at hook
      cases hook
  | behind noted gone => exact ⟨noted, gone⟩
  | unseen silent =>
      rw [(silent sub (head ▸ List.mem_cons_self)).2] at hook
      cases hook

/-- The recorder is called: the row that it adds is the first one of the emission. -/
theorem setEmission_recorded (inv : Kept c rec rt) {i : Nat} {e : Emission}
    (he : rt.emissions[i]? = some e) {sub : Subscription} {rest : List Subscription}
    (head : e.todo = sub :: rest) (recorder : sub.callback = .recorder) :
    Kept (c.note (.emission i) (.event e.event)) rec (rt.setEmission i e.returned) := by
  obtain ⟨htodo, hevent⟩ : e.returned.todo = rest ∧ e.returned.event = e.event :=
    ⟨(HookRuntime.Emission.todo_returned head).1, (HookRuntime.Emission.returned_le head).1⟩
  have hfollowed : Followed (c.note (.emission i) (.event e.event)) i e.returned := by
    cases inv.followed i e he with
    | ahead leads untouched =>
        rw [head] at leads
        cases leads with
        | here _ alone =>
            refine .behind ?_ (htodo.symm ▸ alone)
            rw [Chronicle.Noted, Chronicle.rowsOf_note, untouched.1, hevent, if_pos rfl]
            rfl
        | there other => exact (other recorder).elim
    | behind _ gone => exact (gone sub (head ▸ List.mem_cons_self) recorder).elim
    | unseen silent => exact ((silent sub (head ▸ List.mem_cons_self)).1 recorder).elim
  have hne : ∀ j, j ≠ i → Origin.emission i ≠ .emission j := by
    rintro j hj h
    exact hj (Origin.emission.inj h).symm
  refine inv.setEmission he inv.fired (fun _ => Emission.mem_todo_returned)
    (fun _ => Emission.mem_toRemove_returned) hfollowed
    (fun j hj h => h.note (hne j hj) _) (fun j hj => Chronicle.rowsOf_note_of_ne (hne j hj) _) rfl
    (fun f hf => List.mem_append_left _ (inv.caused f hf)) fun r hr ev hev => ?_
  rcases List.mem_append.mp hr with hr | hr
  · exact inv.events r hr ev hev
  · exact ⟨i, by rw [List.mem_singleton.mp hr]⟩

/-- A hook is scheduled by an emission whose row is there. -/
theorem setEmission_scheduled (inv : Kept c rec rt) {i : Nat} {e : Emission}
    (he : rt.emissions[i]? = some e) {sub : Subscription} {rest : List Subscription}
    (head : e.todo = sub :: rest) {h : Nat} (call : sub.callback = .hook h) :
    Kept (c.fire i h e.event) rec
      { rt.setEmission i e.returned with scheduled := rt.scheduled ++ [(h, e.event)] } := by
  obtain ⟨noted, gone⟩ := inv.behind_of_hook he head (by rw [call]; rfl)
  have hfired : (c.fire i h e.event).firings.map Prod.snd = rt.scheduled ++ [(h, e.event)] := by
    rw [Chronicle.fire, List.map_append, inv.fired]
    rfl
  have hfollowed : Followed (c.fire i h e.event) i e.returned := by
    refine .behind ?_ fun sub' hsub' => gone sub' (Emission.mem_todo_returned hsub')
    rw [(HookRuntime.Emission.returned_le head).1]
    exact noted
  refine inv.setEmission he hfired (fun _ => Emission.mem_todo_returned)
    (fun _ => Emission.mem_toRemove_returned) hfollowed
    (fun j hj h' => h'.fire (Ne.symm hj) _ _) (fun _ _ => rfl) rfl (fun f hf => ?_) inv.events
  rcases List.mem_append.mp hf with hf | hf
  · exact inv.caused f hf
  · rw [List.mem_singleton.mp hf]
    exact noted.mem

/-- A callback other than the recorder's returns. -/
theorem followed_returned (inv : Kept c rec rt) {i : Nat} {e : Emission}
    (he : rt.emissions[i]? = some e) {sub : Subscription} {rest : List Subscription}
    (head : e.todo = sub :: rest) (other : sub.callback ≠ .recorder) : Followed c i e.returned := by
  obtain ⟨htodo, hevent⟩ : e.returned.todo = rest ∧ e.returned.event = e.event :=
    ⟨(HookRuntime.Emission.todo_returned head).1, (HookRuntime.Emission.returned_le head).1⟩
  cases inv.followed i e he with
  | ahead leads untouched =>
      rw [head] at leads
      cases leads with
      | here recorder => exact (other recorder).elim
      | there _ _ tail => exact .ahead (htodo.symm ▸ tail) untouched
  | behind noted gone =>
      refine .behind (hevent.symm ▸ noted) fun sub' hsub' => ?_
      exact gone sub' (Emission.mem_todo_returned hsub')
  | unseen silent untouched early =>
      refine .unseen (fun sub' hsub' => ?_) untouched early
      exact silent sub' (Emission.mem_todo_returned hsub')

/-- The next move of emission `i` calls the recorder. -/
def Records (rt : HookRuntime) (i : Nat) (ev : Event) : Prop :=
  rt.called i = some (.recorder, ev)

/-- An emission is recorded when it calls the recorder next. -/
theorem records_iff {i : Nat} {e : Emission} (he : rt.emissions[i]? = some e) (ev : Event) :
    Records rt i ev ↔ ev = e.event ∧ ∃ sub rest, e.todo = sub :: rest ∧ sub.callback = .recorder := by
  unfold Records HookRuntime.called
  rw [he]
  cases htodo : e.todo with
  | nil => simp [htodo]
  | cons sub rest =>
      simp only [htodo]
      cases hcallback : sub.callback <;> simp [Callback.isHook, hcallback, eq_comm]

/-- What the next move of emission `i` adds to the chronicle: its event where it calls the
recorder, a firing where it schedules a hook. -/
inductive Adds (c : Chronicle) (rt : HookRuntime) (i : Nat) : Chronicle → Prop
  | nothing (none : ∀ ev, ¬Records rt i ev) : Adds c rt i c
  | row {ev} (records : Records rt i ev) : Adds c rt i (c.note (.emission i) (.event ev))
  | firing {h ev} (none : ∀ ev, ¬Records rt i ev) : Adds c rt i (c.fire i h ev)

theorem advance (inv : Kept c rec rt) (py : PyText) (i : Nat) :
    ∃ c', Adds c rt i c' ∧ Kept c' rec (rt.advance py i) := by
  cases he : rt.emissions[i]? with
  | none =>
      refine ⟨c, .nothing fun ev => ?_, ?_⟩
      · simp [Records, HookRuntime.called, he]
      · rwa [HookRuntime.advance, he]
  | some e =>
      have hmoved : HookRuntime.Advances py rt i e (rt.advance py i) :=
        HookRuntime.advance_advances he
      have hunrecorded : ∀ {sub rest}, e.todo = sub :: rest → sub.callback ≠ .recorder →
          ∀ ev, ¬Records rt i ev := by
        intro sub rest head other ev hrec
        obtain ⟨-, sub', rest', head', hrec⟩ := (records_iff he ev).mp hrec
        rw [head] at head'
        cases head'
        exact other hrec
      have hhook : ∀ {sub : Subscription} {h}, sub.callback = .hook h → sub.callback ≠ .recorder := by
        intro sub h call hrec
        rw [hrec] at call
        cases call
      have hlast : e.todo = [] → ∀ ev, ¬Records rt i ev := by
        intro last ev hrec
        obtain ⟨-, sub, rest, head, -⟩ := (records_iff he ev).mp hrec
        rw [last] at head
        cases head
      have gives : ∀ {id}, (rt.advance py i).Releases id → rt.Releases id :=
        HookRuntime.releases_advance
      generalize rt.advance py i = rt' at hmoved gives ⊢
      cases hmoved with
      | idle last => exact ⟨c, .nothing (hlast last), inv⟩
      | finish last =>
          refine ⟨c, .nothing (hlast last), ?_⟩
          exact (inv.setEmission_stage he e.stage true).dropOnce fun id hid =>
            inv.spared id (.toRemove (List.mem_of_getElem? he) hid)
      | @skip sub rest head _ =>
          by_cases hrec : sub.callback = .recorder
          · exact ⟨_, .row ((records_iff he _).mpr ⟨rfl, sub, rest, head, hrec⟩),
              inv.setEmission_recorded he head hrec⟩
          · refine ⟨c, .nothing (hunrecorded head hrec), ?_⟩
            exact inv.setEmission_silent he (fun _ => Emission.mem_todo_returned)
              (fun _ => Emission.mem_toRemove_returned) (inv.followed_returned he head hrec)
      | enter head call =>
          exact ⟨c, .nothing (hunrecorded head (hhook call)), inv.setEmission_stage he _ _⟩
      | test head call =>
          exact ⟨c, .nothing (hunrecorded head (hhook call)), inv.setEmission_stage he _ _⟩
      | pass head call =>
          exact ⟨c, .nothing (hunrecorded head (hhook call)), inv.setEmission_stage he _ _⟩
      | @detach sub rest h hook head call obj =>
          refine ⟨c, .nothing (hunrecorded head (hhook call)), ?_⟩
          refine (inv.setEmission_stage he .clearing e.finished).unsubscribe fun k hk => ?_
          exact (inv.spared k (.hook (List.mem_of_getElem? obj) hk)).2
      | @clear sub rest h hook head call obj =>
          refine ⟨c, .nothing (hunrecorded head (hhook call)), ?_⟩
          exact (inv.setEmission_stage he .scheduling e.finished).withHooks rfl rfl rfl
            fun id hid => inv.spared id (gives hid)
      | schedule head call =>
          exact ⟨_, .firing (hunrecorded head (hhook call)), inv.setEmission_scheduled he head call⟩

end Kept

end PjsuaMcp.Scenario
