import PjsuaMcp.Scenario.EventBus
import PjsuaMcp.Library.GuardedSystem
import PjsuaMcp.Library.Separated

/-!
# Hooks on the bus

A hook is armed by a subscription whose callback first matches the event, then
detaches the hook when it is a `once` hook, then schedules its actions on the
loop. The callback is called by every emit that has the subscription in its
snapshot, on the thread of that emit.

## Implementation notes

An emit in progress is an `Emission`: the subscriptions it has still to call
and how far the callback of the first one has come. One `advance` goes to the
next point at which another thread can see a difference. Reading `hook.sub_id`
for the call of `unsubscribe` and popping the entry are one such move: ids are
not reused, so what happens between the two cannot change the entry that goes.
-/

namespace PjsuaMcp.Scenario

open Library

/-- One armed hook; `subId` is the only field written after `arm` has made it. -/
structure Hook where
  hookId : Text
  when : List Value
  onPhone : Option Text
  matchPreds : List (Value × Value)
  thenActions : List Value
  once : Bool
  patternName : Text
  subId : Option Nat

/-! ## Matching -/

/-- `_dotted_get`: the entry at the end of a path through nested dictionaries. -/
def dottedGet : Value → List Text → Value
  | v, [] => v
  | .dict entries, part :: rest =>
      match entries.lookup part with
      | some v => dottedGet v rest
      | none => .null
  | _, _ :: _ => .null

/-- The class `[1-6]xx` that an expected value names. -/
def statusClass : Text → Option Int
  | [d, 'x', 'x'] => if '1' ≤ d ∧ d ≤ '6' then some (100 * (d.toNat - '0'.toNat)) else none
  | _ => none

/-- `_value_matches`; nothing when the expression after `~` does not compile. -/
def valueMatches (py : PyText) (expected actual : Value) : Option Bool :=
  match expected with
  | .null => some actual.isNull
  | .list xs => some (xs.any fun x => x.eq actual)
  | .str ('~' :: pattern) =>
      if actual.isNull then some false else py.search pattern (py.str actual)
  | .str s =>
      match statusClass s with
      | some low =>
          match py.toInt actual with
          | some code => some (low ≤ code && code < low + 100)
          | none => some false
      | none => some ((Value.str s).eq actual)
  | v => some (v.eq actual)

/-- The value a predicate is compared with: from the payload, else a field of the event. -/
def Event.predicateValue (ev : Event) (key : Text) : Value :=
  let actual := dottedGet (.dict ev.data) (split ['.'] key)
  if actual.isNull then ev.attr key else actual

/-- `_event_matches_predicates`: in the order of the entries, up to the first that fails; a key
that is no string raises. -/
def eventMatchesPredicates (py : PyText) (ev : Event) : List (Value × Value) → Option Bool
  | [] => some true
  | (.str key, expected) :: rest =>
      match valueMatches py expected (ev.predicateValue key) with
      | some true => eventMatchesPredicates py ev rest
      | r => r
  | _ => none

/-- `_hook_matches`. -/
def hookMatches (py : PyText) (hook : Hook) (ev : Event) : Option Bool :=
  match hook.onPhone with
  | some phone =>
      if (Value.str phone).eq ev.phoneId then eventMatchesPredicates py ev hook.matchPreds
      else some false
  | none => eventMatchesPredicates py ev hook.matchPreds

/-- The hook that `arm` makes of one entry of a `hooks:` list, before it has subscribed. -/
def Hook.ofSpec (py : PyText) (hookId : Text) (spec : Dict) (patternName : Text) :
    Except Exn Hook := do
  let when ← match spec.get "when" with
    | .str s => pure [.str s]
    | .list xs => pure xs
    | v => throw (.valueError ("hook `when` must be string or list, got ".toList ++ v.typeName))
  let onPhone := match spec.get "on_phone" with
    | .null | .str [] => none
    | v => some (py.str v)
  let matchPreds ← match ((spec.get "match").or (.dict [])).toEntries? with
    | some entries => pure entries
    | none => throw .builtin
  let thenActions ← match ((spec.get "then").or (.list [])).elements? with
    | some actions => pure actions
    | none => throw .builtin
  let once := (spec.getOr "once" (.bool true)).truthy
  return ⟨hookId, when, onPhone, matchPreds, thenActions, once, patternName, none⟩

/-! ## Emits in progress -/

/-- How far the callback of the first subscription of an emission has come. -/
inductive Stage
  /-- It has not been called. -/
  | between
  /-- The event matches; `hook.once and hook.sub_id is not None` comes next. -/
  | matched
  /-- The test held; `unsubscribe(hook.sub_id)` comes next. -/
  | detaching
  /-- `hook.sub_id = None` comes next. -/
  | clearing
  /-- `run_coroutine_threadsafe` comes next. -/
  | scheduling
  deriving DecidableEq, Repr

/-- A call of `emit` after its snapshot. -/
structure Emission where
  event : Event
  todo : List Subscription
  stage : Stage := .between
  toRemove : List Nat := []
  finished : Bool := false

/-- The first callback has returned or raised. -/
def Emission.returned (e : Emission) : Emission :=
  match e.todo with
  | [] => e
  | sub :: rest =>
      { e with
        todo := rest
        stage := .between
        toRemove := if sub.once then e.toRemove ++ [sub.subId] else e.toRemove }

/-- The bus with the hook objects, the emits in progress and the scheduled coroutines. -/
structure HookRuntime where
  bus : EventBus
  /-- The hook objects in the order they were made; callbacks refer to them by place. -/
  hooks : List Hook
  /-- The keys of `_hooks`. -/
  registered : List Nat
  /-- Calls of `arm` between `subscribe` and the assignment of `hook.sub_id`. -/
  arming : OrderedDict Nat Nat
  emissions : List Emission
  /-- The hook and the event of every coroutine given to the loop, oldest first. -/
  scheduled : List (Nat × Event)

namespace HookRuntime

def initial : HookRuntime := ⟨.initial, [], [], .empty, [], []⟩

variable (py : PyText)

def setEmission (s : HookRuntime) (i : Nat) (e : Emission) : HookRuntime :=
  { s with emissions := s.emissions.set i e }

/-- `arm` up to the return of `subscribe`; a spec that cannot be read arms nothing. -/
def arm (s : HookRuntime) (spec : Dict) (patternName : Text) : HookRuntime :=
  match Hook.ofSpec py (py.uuid s.hooks.length) spec patternName with
  | .error _ => s
  | .ok hook =>
      { s with
        bus := s.bus.subscribe hook.when (.hook s.hooks.length) false
        hooks := s.hooks ++ [hook]
        arming := s.arming.set s.hooks.length s.bus.ids }

/-- The end of `arm`: `hook.sub_id = sub_id` and the entry in `_hooks`. -/
def assign (s : HookRuntime) (h : Nat) : HookRuntime :=
  match s.arming.get? h with
  | none => s
  | some subId =>
      { s with
        hooks := s.hooks.modify h fun hook => { hook with subId := some subId }
        registered := s.registered ++ [h]
        arming := s.arming.pop h }

/-- `remove`. -/
def remove (s : HookRuntime) (h : Nat) : HookRuntime :=
  if h ∈ s.registered then
    { s with
      registered := s.registered.filter (· ≠ h)
      bus := s.bus.unsubscribe ((s.hooks[h]?).bind Hook.subId) }
  else s

/-- `emit` up to the release of the lock; when a pattern raises, nothing is called. -/
def emit (s : HookRuntime) (ev : Event) : HookRuntime :=
  match s.bus.snapshot ev with
  | none => s
  | some subs => { s with emissions := s.emissions ++ [{ event := ev, todo := subs }] }

/-- The next move of the callback of hook `h` under emission `i`. -/
def callback (s : HookRuntime) (i : Nat) (e : Emission) (h : Nat) (hook : Hook) : HookRuntime :=
  match e.stage with
  | .between =>
      if hookMatches py hook e.event = some true then s.setEmission i { e with stage := .matched }
      else s.setEmission i e.returned
  | .matched =>
      if hook.once && hook.subId.isSome then s.setEmission i { e with stage := .detaching }
      else s.setEmission i { e with stage := .scheduling }
  | .detaching =>
      { s.setEmission i { e with stage := .clearing } with bus := s.bus.unsubscribe hook.subId }
  | .clearing =>
      { s.setEmission i { e with stage := .scheduling } with
        hooks := s.hooks.set h { hook with subId := none } }
  | .scheduling =>
      { s.setEmission i e.returned with scheduled := s.scheduled ++ [(h, e.event)] }

/-- The next move of emission `i`. The callbacks of other subscribers leave the hooks alone. -/
def advance (s : HookRuntime) (i : Nat) : HookRuntime :=
  match s.emissions[i]? with
  | none => s
  | some e =>
      match e.todo with
      | [] =>
          if e.finished then s
          else { s.setEmission i { e with finished := true } with bus := s.bus.dropOnce e.toRemove }
      | sub :: _ =>
          match sub.callback with
          | .hook h =>
              match s.hooks[h]? with
              | some hook => s.callback py i e h hook
              | none => s.setEmission i e.returned
          | _ => s.setEmission i e.returned

/-! ## What these leave alone -/

section Frames

variable (s : HookRuntime) (h : Nat) (ev : Event)

/-- The subscription id reaches the hook, and nothing else changes on the bus. -/
@[simp] theorem assign_bus : (s.assign h).bus = s.bus := by
  simp only [assign]
  split <;> rfl

@[simp] theorem assign_emissions : (s.assign h).emissions = s.emissions := by
  simp only [assign]
  split <;> rfl

@[simp] theorem assign_scheduled : (s.assign h).scheduled = s.scheduled := by
  simp only [assign]
  split <;> rfl

/-- A hook that is removed is still an object. -/
@[simp] theorem remove_hooks : (s.remove h).hooks = s.hooks := by
  simp only [remove]
  split <;> rfl

@[simp] theorem remove_arming : (s.remove h).arming = s.arming := by
  simp only [remove]
  split <;> rfl

@[simp] theorem remove_emissions : (s.remove h).emissions = s.emissions := by
  simp only [remove]
  split <;> rfl

@[simp] theorem remove_scheduled : (s.remove h).scheduled = s.scheduled := by
  simp only [remove]
  split <;> rfl

/-- Emitting leaves the subscriptions alone. -/
@[simp] theorem emit_bus : (s.emit ev).bus = s.bus := by
  simp only [emit]
  split <;> rfl

@[simp] theorem emit_hooks : (s.emit ev).hooks = s.hooks := by
  simp only [emit]
  split <;> rfl

@[simp] theorem emit_registered : (s.emit ev).registered = s.registered := by
  simp only [emit]
  split <;> rfl

@[simp] theorem emit_arming : (s.emit ev).arming = s.arming := by
  simp only [emit]
  split <;> rfl

@[simp] theorem emit_scheduled : (s.emit ev).scheduled = s.scheduled := by
  simp only [emit]
  split <;> rfl

end Frames

end HookRuntime

/-- What threads do with the bus and the hooks, one move at a time. -/
inductive BusMove
  | subscribe (patterns : List Value) (callback : Callback) (once : Bool)
  | unsubscribe (subId : Nat)
  | arm (spec : Dict) (patternName : Text)
  | assign (h : Nat)
  | remove (h : Nat)
  | emit (ev : Event)
  | advance (i : Nat)

namespace HookRuntime

def step (py : PyText) (s : HookRuntime) : BusMove → HookRuntime
  | .subscribe patterns callback once =>
      { s with bus := s.bus.subscribe patterns callback once }
  | .unsubscribe subId => { s with bus := s.bus.unsubscribe (some subId) }
  | .arm spec patternName => s.arm py spec patternName
  | .assign h => s.assign h
  | .remove h => s.remove h
  | .emit ev => s.emit ev
  | .advance i => s.advance py i

/-- Only `arm` makes callbacks of hooks. -/
def enabled : BusMove → Bool
  | .subscribe _ callback _ => !callback.isHook
  | _ => true

end HookRuntime

/-- The moves of any number of threads, in any order. -/
def hookSystem (py : PyText) : GuardedSystem HookRuntime BusMove where
  init := .initial
  enabled _ a := HookRuntime.enabled a = true
  step := HookRuntime.step py

instance (py : PyText) (s : HookRuntime) (a : BusMove) : Decidable ((hookSystem py).enabled s a) :=
  inferInstanceAs (Decidable (HookRuntime.enabled a = true))

end PjsuaMcp.Scenario
