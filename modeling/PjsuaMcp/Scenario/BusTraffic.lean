import PjsuaMcp.Scenario.EventBus
import PjsuaMcp.Library.GuardedSystem

/-!
# The event bus and its threads

Several threads subscribe, unsubscribe and emit; a callback may do the same
while its own emission waits for it. An emission works through the copy that it
took under the lock, one callback after the other, and removes the `once`
subscriptions among them at the end. `Delivered` says what such a history should
look like, and `undisturbed` names the actions that keep it so.

## Implementation notes

The actions of all threads are interleaved at the points where a callback begins
and returns and where the lock is taken. Emissions are numbered in the order of
their copies. A callback that raises returns like any other one.
-/

namespace PjsuaMcp.Scenario

open Library

/-- What has happened on the bus: the ids that an emission should reach are those of the active
subscriptions that match when it begins. -/
inductive Mark
  | subscribed (id : Nat) (once : Bool)
  | unsubscribed (id : Nat)
  | emitted (e : Nat) (ids : List Nat)
  | invoked (e id : Nat)
  | finished (e : Nat)
  deriving DecidableEq, Repr

/-- Where an emission is: between two callbacks, inside one, or at its end. -/
inductive Progress
  | next (todo : List Subscription) (toRemove : List Nat)
  | inside (sub : Subscription) (todo : List Subscription) (toRemove : List Nat)
  | finished

namespace Progress

/-- The subscriptions whose callbacks are still to begin. -/
def todo : Progress → List Subscription
  | next todo _ => todo
  | inside _ todo _ => todo
  | finished => []

def todoIds (p : Progress) : List Nat := p.todo.map Subscription.subId

/-- These, and the one that is running. -/
def subs : Progress → List Subscription
  | next todo _ => todo
  | inside sub todo _ => sub :: todo
  | finished => []

/-- The ids that have been invoked and not yet removed, as far as they are `once`. -/
def doneIds : Progress → List Nat
  | next _ toRemove => toRemove
  | inside sub _ toRemove => sub.subId :: toRemove
  | finished => []

end Progress

/-- The active subscriptions that match. -/
def EventBus.matchingIds (bus : EventBus) (ev : Event) : List Nat :=
  ((bus.subs.entries.map Prod.snd).filter fun sub =>
    sub.active && patternsMatch ev.type sub.patterns == some true).map Subscription.subId

structure Traffic where
  bus : EventBus
  emissions : List Progress
  history : List Mark

inductive BusAction
  | subscribe (patterns : List Value) (callback : Callback) (once : Bool)
  | unsubscribe (id : Nat)
  | emit (ev : Event)
  | call (e : Nat)
  | callReturned (e : Nat)
  | finish (e : Nat)

namespace Traffic

/-- An emission goes on, and what happens thereby is noted. -/
def advance (t : Traffic) (e : Nat) (p : Progress) (marks : List Mark) : Traffic :=
  { t with emissions := t.emissions.set e p, history := t.history ++ marks }

/-- `emit` up to the release of the lock. -/
def emit (t : Traffic) (ev : Event) : Traffic :=
  let e := t.emissions.length
  let emitted := Mark.emitted e (t.bus.matchingIds ev)
  match t.bus.snapshot ev with
  | none =>
      { t with
        emissions := t.emissions ++ [.finished]
        history := t.history ++ [emitted, .finished e] }
  | some found =>
      { t with
        emissions := t.emissions ++ [.next found []]
        history := t.history ++ [emitted] }

/-- The next callback of an emission begins. -/
def call (t : Traffic) (e : Nat) : Traffic :=
  match t.emissions[e]? with
  | some (.next (sub :: todo) toRemove) =>
      t.advance e (.inside sub todo toRemove) [.invoked e sub.subId]
  | _ => t

/-- It returns, or raises. -/
def callReturned (t : Traffic) (e : Nat) : Traffic :=
  match t.emissions[e]? with
  | some (.inside sub todo toRemove) =>
      t.advance e (.next todo (if sub.once then toRemove ++ [sub.subId] else toRemove)) []
  | _ => t

/-- The end of `emit`. -/
def finish (t : Traffic) (e : Nat) : Traffic :=
  match t.emissions[e]? with
  | some (.next [] toRemove) =>
      { t.advance e .finished [.finished e] with bus := t.bus.dropOnce toRemove }
  | _ => t

/-- An id that has not been handed out is nobody's: nothing is noted for it. -/
def step (t : Traffic) : BusAction → Traffic
  | .subscribe patterns callback once =>
      { t with
        bus := t.bus.subscribe patterns callback once
        history := t.history ++ [.subscribed t.bus.ids once] }
  | .unsubscribe id =>
      { t with
        bus := t.bus.unsubscribe (some id)
        history := t.history ++ if id < t.bus.ids then [.unsubscribed id] else [] }
  | .emit ev => t.emit ev
  | .call e => t.call e
  | .callReturned e => t.callReturned e
  | .finish e => t.finish e

end Traffic

/-- The bus with its threads. -/
def busTraffic : GuardedSystem Traffic BusAction where
  init := ⟨.initial, [], []⟩
  enabled := fun _ _ => True
  step := Traffic.step

instance (t : Traffic) (a : BusAction) : Decidable (busTraffic.enabled t a) :=
  inferInstanceAs (Decidable True)

/-! ## What is promised -/

/-- The mark is an invocation under this id. -/
def Mark.invokes (id : Nat) : Mark → Bool
  | invoked _ i => i = id
  | _ => false

/-- A `once` subscription is invoked at most once, none is invoked after it was unsubscribed, and
an emission that has finished has invoked each subscription it should reach once, and no other. -/
structure Delivered (history : List Mark) : Prop where
  once : ∀ {id}, .subscribed id true ∈ history → history.countP (Mark.invokes id) ≤ 1
  unsubscribed : history.Pairwise fun before after =>
    ∀ id e, before = .unsubscribed id → after ≠ .invoked e id
  each : ∀ {e ids}, .emitted e ids ∈ history → .finished e ∈ history →
    ∀ id, history.count (.invoked e id) = if id ∈ ids then 1 else 0

/-- No emission catches a `once` subscription that an earlier one is still to invoke or to remove,
none raises with subscriptions to reach, and nothing is unsubscribed that an emission is still to
invoke. -/
def undisturbed (t : Traffic) : BusAction → Bool
  | .emit ev =>
      match t.bus.snapshot ev with
      | none => t.bus.matchingIds ev = []
      | some found => found.all fun sub => !sub.once ||
          t.emissions.all fun p => sub.subId ∉ p.todoIds ++ p.doneIds
  | .unsubscribe id => t.emissions.all fun p => id ∉ p.todoIds
  | _ => true

/-! ## The copy -/

theorem map_matching {eventType : Text} {subs found : List Subscription}
    (h : EventBus.matching eventType subs = some found) :
    found = subs.filter fun sub =>
      sub.active && patternsMatch eventType sub.patterns == some true := by
  induction subs generalizing found with
  | nil =>
      cases h
      rfl
  | cons sub rest ih =>
      simp only [EventBus.matching] at h
      cases hactive : sub.active with
      | false =>
          simp only [hactive, Bool.false_eq_true, if_false] at h
          rw [ih h, List.filter_cons_of_neg (by simp [hactive])]
      | true =>
          simp only [hactive, if_true] at h
          split at h
          · next hmatch =>
              obtain ⟨tail, htail, rfl⟩ := Option.map_eq_some_iff.mp h
              rw [ih htail, List.filter_cons_of_pos (by simp [hactive, hmatch])]
          · next hmatch => rw [ih h, List.filter_cons_of_neg (by simp [hmatch])]
          · cases h

/-- The copy holds the subscriptions that the emission should reach. -/
theorem EventBus.snapshot_ids {bus : EventBus} {ev : Event} {found : List Subscription}
    (h : bus.snapshot ev = some found) :
    found.map Subscription.subId = bus.matchingIds ev := by
  rw [matchingIds, map_matching h]

namespace Traffic

/-! ## Steps -/

/-- What an action does to the emissions: it begins one, carries one on, or none. -/
inductive Moves (t : Traffic) (a : BusAction) : Prop
  | subscribed {patterns callback once} (ha : a = .subscribe patterns callback once)
      (eq : t.step a = { t with
        bus := t.bus.subscribe patterns callback once
        history := t.history ++ [.subscribed t.bus.ids once] })
  | unsubscribed {id} (ha : a = .unsubscribe id)
      (eq : t.step a = { t with
        bus := t.bus.unsubscribe (some id)
        history := t.history ++ if id < t.bus.ids then [.unsubscribed id] else [] })
  | raised {ev} (ha : a = .emit ev) (snap : t.bus.snapshot ev = none)
      (eq : t.step a = { t with
        emissions := t.emissions ++ [.finished]
        history := t.history ++ [.emitted t.emissions.length (t.bus.matchingIds ev),
          .finished t.emissions.length] })
  | emitted {ev found} (ha : a = .emit ev) (snap : t.bus.snapshot ev = some found)
      (eq : t.step a = { t with
        emissions := t.emissions ++ [.next found []]
        history := t.history ++ [.emitted t.emissions.length (t.bus.matchingIds ev)] })
  | called {e sub todo toRemove} (at_ : t.emissions[e]? = some (.next (sub :: todo) toRemove))
      (eq : t.step a = t.advance e (.inside sub todo toRemove) [.invoked e sub.subId])
  | returned {e sub todo toRemove} (at_ : t.emissions[e]? = some (.inside sub todo toRemove))
      (eq : t.step a = t.advance e
        (.next todo (if sub.once then toRemove ++ [sub.subId] else toRemove)) [])
  | ended {e toRemove} (at_ : t.emissions[e]? = some (.next [] toRemove))
      (eq : t.step a = { t.advance e .finished [.finished e] with
        bus := t.bus.dropOnce toRemove })
  | idle (eq : t.step a = t)

theorem step_moves (t : Traffic) (a : BusAction) : t.Moves a := by
  cases a with
  | subscribe patterns callback once => exact .subscribed rfl rfl
  | unsubscribe id => exact .unsubscribed rfl rfl
  | emit ev =>
      cases hsnap : t.bus.snapshot ev with
      | none => exact .raised rfl hsnap (by simp only [step, emit, hsnap])
      | some found => exact .emitted rfl hsnap (by simp only [step, emit, hsnap])
  | call e =>
      cases hat : t.emissions[e]? with
      | none => exact .idle (by simp only [step, call, hat])
      | some p =>
          cases p with
          | next todo toRemove =>
              cases todo with
              | nil => exact .idle (by simp only [step, call, hat])
              | cons sub todo => exact .called hat (by simp only [step, call, hat])
          | inside sub todo toRemove => exact .idle (by simp only [step, call, hat])
          | finished => exact .idle (by simp only [step, call, hat])
  | callReturned e =>
      cases hat : t.emissions[e]? with
      | none => exact .idle (by simp only [step, callReturned, hat])
      | some p =>
          cases p with
          | next todo toRemove => exact .idle (by simp only [step, callReturned, hat])
          | inside sub todo toRemove =>
              exact .returned hat (by simp only [step, callReturned, hat])
          | finished => exact .idle (by simp only [step, callReturned, hat])
  | finish e =>
      cases hat : t.emissions[e]? with
      | none => exact .idle (by simp only [step, finish, hat])
      | some p =>
          cases p with
          | next todo toRemove =>
              cases todo with
              | nil => exact .ended hat (by simp only [step, finish, hat])
              | cons sub todo => exact .idle (by simp only [step, finish, hat])
          | inside sub todo toRemove => exact .idle (by simp only [step, finish, hat])
          | finished => exact .idle (by simp only [step, finish, hat])

/-! ## Ids -/

/-- Ids are handed out once, with one flag, and every id in use has been handed out. -/
structure Known (t : Traffic) : Prop where
  entry : ∀ {id sub}, t.bus.subs.get? id = some sub →
    sub.subId = id ∧ .subscribed id sub.once ∈ t.history
  held : ∀ {e : Nat} {p : Progress}, t.emissions[e]? = some p → ∀ sub ∈ p.subs,
    .subscribed sub.subId sub.once ∈ t.history
  fresh : ∀ {id once}, .subscribed id once ∈ t.history → id < t.bus.ids
  flag : ∀ {id once once'}, .subscribed id once ∈ t.history → .subscribed id once' ∈ t.history →
    once = once'
  invoked : ∀ {e id}, .invoked e id ∈ t.history →
    (∃ once, .subscribed id once ∈ t.history) ∧ e < t.emissions.length
  emitted : ∀ {e ids}, .emitted e ids ∈ t.history → e < t.emissions.length
  finished : ∀ {e}, .finished e ∈ t.history → t.emissions[e]? = some .finished

theorem initial_known : Known ⟨.initial, [], []⟩ where
  entry := by simp [EventBus.initial]
  held := by simp
  fresh := by simp
  flag := by simp
  invoked := by simp
  emitted := by simp
  finished := by simp

/-- An emission goes on with no more subscriptions than it had. -/
theorem Known.advance {t : Traffic} (h : t.Known) {e : Nat} {q p : Progress} {marks : List Mark}
    (hat : t.emissions[e]? = some q) (hopen : q ≠ .finished) (hsubs : p.subs ⊆ q.subs)
    (hmarks : ∀ m ∈ marks, (∃ sub ∈ q.subs, m = .invoked e sub.subId) ∨
      (m = .finished e ∧ p = .finished)) : (t.advance e p marks).Known := by
  have hlt := (List.getElem?_eq_some_iff.mp hat).1
  have hnot : ∀ {id once}, .subscribed id once ∉ marks := by
    intro id once hmem
    rcases hmarks _ hmem with ⟨_, _, heq⟩ | ⟨heq, -⟩ <;> cases heq
  have hold : ∀ {id once}, .subscribed id once ∈ t.history ++ marks →
      .subscribed id once ∈ t.history := fun hmem =>
    (List.mem_append.mp hmem).resolve_right hnot
  constructor
  · intro id sub hget
    obtain ⟨hid, hmark⟩ := h.entry hget
    exact ⟨hid, List.mem_append_left _ hmark⟩
  · intro i r hi sub hsub
    refine List.mem_append_left _ ?_
    obtain ⟨-, rfl⟩ | ⟨-, hold⟩ := cell_of_set hi
    · exact h.held hat sub (hsubs hsub)
    · exact h.held hold sub hsub
  · exact fun hmem => h.fresh (hold hmem)
  · exact fun hmem hmem' => h.flag (hold hmem) (hold hmem')
  · intro i id hmem
    rw [Traffic.advance, List.length_set]
    rcases List.mem_append.mp hmem with hmem | hmem
    · obtain ⟨⟨once, hmark⟩, hi⟩ := h.invoked hmem
      exact ⟨⟨once, List.mem_append_left _ hmark⟩, hi⟩
    · rcases hmarks _ hmem with ⟨sub, hsub, heq⟩ | ⟨heq, -⟩
      · cases heq
        exact ⟨⟨_, List.mem_append_left _ (h.held hat sub hsub)⟩, hlt⟩
      · cases heq
  · intro i ids hmem
    rw [Traffic.advance, List.length_set]
    rcases List.mem_append.mp hmem with hmem | hmem
    · exact h.emitted hmem
    · rcases hmarks _ hmem with ⟨_, _, heq⟩ | ⟨heq, -⟩ <;> cases heq
  · intro i hmem
    rw [Traffic.advance, List.getElem?_set]
    rcases List.mem_append.mp hmem with hmem | hmem
    · rw [if_neg, h.finished hmem]
      rintro rfl
      rw [h.finished hmem] at hat
      exact hopen (Option.some.inj hat).symm
    · rcases hmarks _ hmem with ⟨_, _, heq⟩ | ⟨heq, rfl⟩
      · cases heq
      · cases heq
        simp [hlt]

/-- A bus with fewer entries. -/
theorem Known.shrink {t : Traffic} (h : t.Known) {bus : EventBus} (hids : bus.ids = t.bus.ids)
    (hget : ∀ {id sub}, bus.subs.get? id = some sub → t.bus.subs.get? id = some sub) :
    ({ t with bus := bus } : Traffic).Known where
  entry hsub := h.entry (hget hsub)
  held := h.held
  fresh hmem := hids ▸ h.fresh hmem
  flag := h.flag
  invoked := h.invoked
  emitted := h.emitted
  finished := h.finished

/-- A mark that only concerns the past. -/
theorem Known.note {t : Traffic} (h : t.Known) (id : Nat) :
    ({ t with history := t.history ++ [.unsubscribed id] } : Traffic).Known where
  entry hget := ⟨(h.entry hget).1, List.mem_append_left _ (h.entry hget).2⟩
  held hat sub hsub := List.mem_append_left _ (h.held hat sub hsub)
  fresh hmem := h.fresh (by simpa using hmem)
  flag hmem hmem' := h.flag (by simpa using hmem) (by simpa using hmem')
  invoked hmem := by
    obtain ⟨⟨once, hmark⟩, hlt⟩ := h.invoked (by simpa using hmem)
    exact ⟨⟨once, List.mem_append_left _ hmark⟩, hlt⟩
  emitted hmem := h.emitted (by simpa using hmem)
  finished hmem := h.finished (by simpa using hmem)

/-- A new emission, whose subscriptions come from the bus. -/
theorem Known.begin {t : Traffic} (h : t.Known) {p : Progress} {ids : List Nat} {rest : List Mark}
    (hsubs : ∀ sub ∈ p.subs, ∃ id, t.bus.subs.get? id = some sub)
    (hrest : ∀ m ∈ rest, m = .finished t.emissions.length ∧ p = .finished) :
    ({ t with
      emissions := t.emissions ++ [p]
      history := t.history ++ .emitted t.emissions.length ids :: rest } : Traffic).Known := by
  have hold : ∀ {m}, m ∈ t.history ++ .emitted t.emissions.length ids :: rest →
      m ∈ t.history ∨ m = .emitted t.emissions.length ids ∨
        (m = .finished t.emissions.length ∧ p = .finished) := by
    intro m hmem
    rcases List.mem_append.mp hmem with hmem | hmem
    · exact .inl hmem
    · rcases List.mem_cons.mp hmem with hmem | hmem
      · exact .inr (.inl hmem)
      · exact .inr (.inr (hrest m hmem))
  have hflag : ∀ {id once}, .subscribed id once ∈ t.history ++ .emitted t.emissions.length ids ::
      rest → .subscribed id once ∈ t.history := by
    intro id once hmem
    rcases hold hmem with hmem | heq | ⟨heq, -⟩
    · exact hmem
    · cases heq
    · cases heq
  constructor
  · exact fun hget => ⟨(h.entry hget).1, List.mem_append_left _ (h.entry hget).2⟩
  · intro i q hi sub hsub
    refine List.mem_append_left _ ?_
    rw [List.getElem?_append] at hi
    split_ifs at hi
    · exact h.held hi sub hsub
    · rw [List.getElem?_singleton] at hi
      split_ifs at hi
      cases hi
      obtain ⟨id, hget⟩ := hsubs sub hsub
      obtain ⟨rfl, hmark⟩ := h.entry hget
      exact hmark
  · exact fun hmem => h.fresh (hflag hmem)
  · exact fun hmem hmem' => h.flag (hflag hmem) (hflag hmem')
  · intro i id hmem
    rw [List.length_append]
    rcases hold hmem with hmem | heq | ⟨heq, -⟩
    · obtain ⟨⟨once, hmark⟩, hi⟩ := h.invoked hmem
      exact ⟨⟨once, List.mem_append_left _ hmark⟩, Nat.lt_add_right _ hi⟩
    · cases heq
    · cases heq
  · intro i ids' hmem
    rw [List.length_append]
    rcases hold hmem with hmem | heq | ⟨heq, -⟩
    · exact Nat.lt_add_right _ (h.emitted hmem)
    · cases heq
      exact Nat.lt_add_one _
    · cases heq
  · intro i hmem
    rcases hold hmem with hmem | heq | ⟨heq, rfl⟩
    · have hfin := h.finished hmem
      rw [List.getElem?_append_left (List.getElem?_eq_some_iff.mp hfin).1, hfin]
    · cases heq
    · cases heq
      simp

theorem Known.subscribe {t : Traffic} (h : t.Known) (patterns : List Value) (callback : Callback)
    (once : Bool) : (t.step (.subscribe patterns callback once)).Known := by
  have hmark : ∀ {m : Mark}, m ∈ t.history ++ [.subscribed t.bus.ids once] →
      m ∈ t.history ∨ m = .subscribed t.bus.ids once := by
    intro m hmem
    simpa using hmem
  constructor
  · intro id sub hget
    simp only [step, EventBus.subscribe, OrderedDict.get?_set] at hget
    split_ifs at hget with hid
    · cases hget
      exact ⟨hid, List.mem_append_right _ (by simp [hid])⟩
    · exact ⟨(h.entry hget).1, List.mem_append_left _ (h.entry hget).2⟩
  · exact fun hat sub hsub => List.mem_append_left _ (h.held hat sub hsub)
  · intro id once' hmem
    rcases hmark hmem with hmem | heq
    · exact Nat.lt_add_right 1 (h.fresh hmem)
    · cases heq
      exact Nat.lt_add_one _
  · intro id b b' hmem hmem'
    rcases hmark hmem with hmem | heq
    · rcases hmark hmem' with hmem' | heq'
      · exact h.flag hmem hmem'
      · cases heq'
        exact absurd (h.fresh hmem) (lt_irrefl _)
    · cases heq
      rcases hmark hmem' with hmem' | heq'
      · exact absurd (h.fresh hmem') (lt_irrefl _)
      · cases heq'
        rfl
  · intro e id hmem
    obtain ⟨⟨b, hsub⟩, hlt⟩ := h.invoked ((hmark hmem).resolve_right (by simp))
    exact ⟨⟨b, List.mem_append_left _ hsub⟩, hlt⟩
  · exact fun hmem => h.emitted ((hmark hmem).resolve_right (by simp))
  · exact fun hmem => h.finished ((hmark hmem).resolve_right (by simp))

theorem step_known {t : Traffic} (h : t.Known) (a : BusAction) : (t.step a).Known := by
  cases t.step_moves a with
  | subscribed ha eq => exact ha ▸ h.subscribe _ _ _
  | @unsubscribed id ha eq =>
      rw [eq]
      have hless : ({ t with bus := t.bus.unsubscribe (some id) } : Traffic).Known :=
        h.shrink rfl fun hget => (EventBus.get?_unsubscribe hget).2
      split_ifs
      · exact hless.note _
      · rw [List.append_nil]
        exact hless
  | raised ha snap eq =>
      rw [eq]
      exact h.begin (p := .finished) (by simp [Progress.subs]) (by simp)
  | emitted ha snap eq =>
      rw [eq]
      exact h.begin (fun sub hsub => EventBus.mem_of_mem_snapshot snap hsub) (by simp)
  | called hat eq =>
      rw [eq]
      refine h.advance hat (by simp) (fun _ hsub => hsub) fun m hm => .inl ⟨_, List.mem_cons_self, ?_⟩
      exact List.mem_singleton.mp hm
  | returned hat eq =>
      rw [eq]
      exact h.advance hat (by simp) (fun _ hsub => List.mem_cons_of_mem _ hsub) (by simp)
  | ended hat eq =>
      rw [eq]
      refine Known.shrink (h.advance hat (by simp) (by simp [Progress.subs]) fun m hm =>
        .inr ⟨List.mem_singleton.mp hm, rfl⟩) rfl ?_
      exact fun hget => EventBus.get?_dropOnce hget
  | idle eq => exact eq.symm ▸ h

end Traffic

end PjsuaMcp.Scenario
