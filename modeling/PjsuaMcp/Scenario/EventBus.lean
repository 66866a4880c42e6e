import PjsuaMcp.Scenario.Value
import PjsuaMcp.Library.OrderedDict
import PjsuaMcp.Library.Cells

/-!
# The event bus

Subscriptions in the order they were made, and what `emit` copies out of them
under the lock. The callbacks run on the copy, after the lock is released.

## Implementation notes

A pattern that is not a string makes `_matches` raise, and the emit with it;
`wait_until` passes such patterns through, so they are kept. Timestamps are
left out.
-/

namespace PjsuaMcp.Scenario

open Library

/-- What an emitter passes; `phone_id` and `call_id` are as it gave them. -/
structure EventBody where
  type : Text
  phoneId : Value
  callId : Value
  data : Dict
  deriving Inhabited, Repr

/-- A single event on the bus. -/
structure Event extends EventBody where
  timestamp : ℚ
  deriving Inhabited, Repr

instance : Coe Event EventBody := ⟨Event.toEventBody⟩

/-- `getattr(event, key, None)` for the fields of an event. -/
def Event.attr (ev : Event) (key : Text) : Value :=
  if key = "type".toList then .str ev.type
  else if key = "phone_id".toList then ev.phoneId
  else if key = "call_id".toList then ev.callId
  else if key = "data".toList then .dict ev.data
  else if key = "timestamp".toList then .float ev.timestamp
  else .null

/-- A coroutine that the loop runs: `ScenarioRunner.run`, or one firing of a hook. -/
inductive Task
  | run
  | hookRun (n : Nat)
  deriving DecidableEq, Repr

/-- The function that a subscription calls. -/
inductive Callback
  /-- `TimelineRecorder._on_event`. -/
  | recorder
  /-- The callback that `HookRuntime.arm` makes for its `h`-th hook. -/
  | hook (h : Nat)
  /-- The handler of one `stop_on` entry. -/
  | stop (spec : Dict)
  /-- The handler of one call of `wait_for`, which is known by the id of its subscription, with the
  `phone_id` that its predicate compares. -/
  | waiter (task : Task) (subId : Nat) (phone : Value)
  /-- A subscriber from outside the scenario. -/
  | foreign

def Callback.isHook : Callback → Bool
  | hook _ => true
  | _ => false

structure Subscription where
  subId : Nat
  patterns : List Value
  callback : Callback
  once : Bool
  active : Bool := true

/-- One pattern of `_matches`; a pattern that is no string raises. -/
def patternMatches (eventType : Text) : Value → Option Bool
  | .str p =>
      if p = ['*'] then some true
      else if p.drop (p.length - 2) = ['.', '*'] then
        let base := p.take (p.length - 2)
        some (eventType = base || (base ++ ['.']).isPrefixOf eventType)
      else some (p = eventType)
  | _ => none

/-- `_matches`: the first pattern that fits decides, an unreadable one before it raises. -/
def patternsMatch (eventType : Text) : List Value → Option Bool
  | [] => some false
  | p :: rest =>
      match patternMatches eventType p with
      | some true => some true
      | some false => patternsMatch eventType rest
      | none => none

/-- `isinstance(event_type, str)` and the two ways to make a list of it. -/
def patternList : Value → Option (List Value)
  | .str s => some [.str s]
  | v => v.elements?

structure EventBus where
  subs : OrderedDict Nat Subscription
  ids : Nat

namespace EventBus

def initial : EventBus := ⟨.empty, 1⟩

/-- The id is taken from the counter and the entry made under the lock. -/
def subscribe (bus : EventBus) (patterns : List Value) (callback : Callback)
    (once : Bool) : EventBus where
  subs := bus.subs.set bus.ids ⟨bus.ids, patterns, callback, once, true⟩
  ids := bus.ids + 1

/-- `_subs.pop(sub_id, None)`; no entry has the key `None`. -/
def unsubscribe (bus : EventBus) : Option Nat → EventBus
  | some subId => { bus with subs := bus.subs.pop subId }
  | none => bus

/-- The filter that `emit` runs over the subscriptions under the lock. -/
def matching (eventType : Text) : List Subscription → Option (List Subscription)
  | [] => some []
  | sub :: rest =>
      if sub.active then
        match patternsMatch eventType sub.patterns with
        | some true => (matching eventType rest).map (sub :: ·)
        | some false => matching eventType rest
        | none => none
      else matching eventType rest

/-- The subscriptions that `emit` is going to call, or nothing when it raises. -/
def snapshot (bus : EventBus) (ev : EventBody) : Option (List Subscription) :=
  matching ev.type (bus.subs.entries.map Prod.snd)

/-- The removal of the bus-level `once` subscriptions at the end of `emit`. -/
def dropOnce (bus : EventBus) (toRemove : List Nat) : EventBus :=
  { bus with subs := bus.subs.filterKeys fun id => id ∉ toRemove }

/-- The subscriptions that match are called in the order of the bus. -/
theorem matching_sublist {eventType : Text} {subs found : List Subscription}
    (h : matching eventType subs = some found) : found.Sublist subs := by
  induction subs generalizing found with
  | nil =>
      cases h
      exact List.Sublist.slnil
  | cons sub rest ih =>
      simp only [matching] at h
      split at h
      · split at h
        · obtain ⟨tail, htail, rfl⟩ := Option.map_eq_some_iff.mp h
          exact (ih htail).cons_cons sub
        · exact (ih h).cons sub
        · cases h
      · exact (ih h).cons sub

/-- A snapshot is taken from the subscriptions of the moment, in their order. -/
theorem snapshot_sublist {bus : EventBus} {ev : EventBody} {found : List Subscription}
    (h : bus.snapshot ev = some found) : found.Sublist (bus.subs.entries.map Prod.snd) :=
  matching_sublist h

/-- What is called was subscribed when the event was emitted. -/
theorem mem_of_mem_snapshot {bus : EventBus} {ev : EventBody} {found : List Subscription}
    (h : bus.snapshot ev = some found) {sub : Subscription} (hsub : sub ∈ found) :
    ∃ id, bus.subs.get? id = some sub := by
  obtain ⟨⟨id, sub'⟩, hmem, rfl⟩ := List.mem_map.mp ((snapshot_sublist h).subset hsub)
  exact ⟨id, (bus.subs.get?_eq_some_iff id sub').mpr hmem⟩

theorem get?_unsubscribe {bus : EventBus} {subId : Option Nat} {id : Nat} {sub : Subscription}
    (hget : (bus.unsubscribe subId).subs.get? id = some sub) :
    some id ≠ subId ∧ bus.subs.get? id = some sub := by
  cases subId with
  | none => exact ⟨nofun, hget⟩
  | some subId =>
      simp only [unsubscribe, OrderedDict.get?_pop] at hget
      split at hget
      · cases hget
      next hne => exact ⟨fun heq => hne (Option.some.inj heq), hget⟩

theorem get?_dropOnce {bus : EventBus} {toRemove : List Nat} {id : Nat} {sub : Subscription}
    (hget : (bus.dropOnce toRemove).subs.get? id = some sub) : bus.subs.get? id = some sub := by
  simp only [dropOnce, OrderedDict.get?_filterKeys] at hget
  split at hget
  · exact hget
  · cases hget

/-- A new subscription is found under the new id, the others where they were. -/
theorem get?_subscribe {bus : EventBus} {patterns : List Value} {callback : Callback} {once : Bool}
    {id : Nat} {sub : Subscription}
    (hget : (bus.subscribe patterns callback once).subs.get? id = some sub) :
    (id = bus.ids ∧ sub.callback = callback) ∨ bus.subs.get? id = some sub := by
  simp only [subscribe, OrderedDict.get?_set] at hget
  split at hget
  next hid =>
    cases hget
    exact .inl ⟨hid.symm, rfl⟩
  next => exact .inr hget

end EventBus

end PjsuaMcp.Scenario
