import PjsuaMcp.Scenario.Runner
import PjsuaMcp.Library.Cells

/-!
# Futures and the handlers that complete them

`EventBus.wait_for` and the stop condition of a run make a future, subscribe
handlers that complete it, and wait for it with a timeout. A handler runs on
the thread of the emit: it looks at the event, then at `future.done()`, and
then has the loop call `set_result`. In between, other threads and the loop go
on; a second handler may find the same future not done.

## Implementation notes

A handler is known by the id of its subscription, and `emit` copies it together
with the subscription. Any future can be cancelled at any time: by the timeout
of its wait, or with the task that waits.
-/

namespace PjsuaMcp.Scenario

open Library

inductive FutureState
  | pending
  | finished (ev : Event)
  | cancelled

def FutureState.done : FutureState → Bool
  | pending => false
  | finished _ | cancelled => true

/-- The future in this state, with the callbacks that are scheduled for it. -/
def FutureState.withPosted (posted : List Event) : FutureState → Future
  | pending => { posted }
  | finished ev => { result := some ev, posted }
  | cancelled => { cancelled := true, posted }

theorem FutureState.post_withPosted (state : FutureState) (posted : List Event) (ev : Event) :
    (state.withPosted posted).post ev =
      if state.done then state.withPosted posted else state.withPosted (posted ++ [ev]) := by
  cases state <;> rfl

/-- `handler`, with the future and the predicate of its closure. -/
structure EventHandler where
  future : Nat
  /-- Nothing when it raises. -/
  predicate : Event → Option Bool

/-- A call of `emit` after its snapshot. -/
structure Broadcast where
  event : Event
  todo : List (Subscription × Option EventHandler)
  /-- The first handler has found its future not done; `call_soon_threadsafe` comes next. -/
  accepted : Bool := false
  toRemove : List Nat := []
  finished : Bool := false

/-- The first callback has returned or raised. -/
def Broadcast.returned (b : Broadcast) : Broadcast :=
  match b.todo with
  | [] => b
  | (sub, _) :: rest =>
      { b with
        todo := rest
        accepted := false
        toRemove := if sub.once then b.toRemove ++ [sub.subId] else b.toRemove }

/-- The bus, the futures and the callbacks that the loop has still to run. -/
structure EventLoop where
  bus : EventBus
  /-- The handlers among the subscriptions. -/
  handlers : OrderedDict Nat EventHandler
  futures : List FutureState
  broadcasts : List Broadcast
  /-- The `set_result` callbacks that have been scheduled, oldest first. -/
  ready : List (Nat × Event)
  /-- The callbacks that have raised `InvalidStateError`. -/
  refused : List (Nat × Event)

inductive LoopAction
  | createFuture
  | subscribeHandler (patterns : List Value) (handler : EventHandler)
  /-- Some other callback. -/
  | subscribe (patterns : List Value) (once : Bool)
  | unsubscribe (subId : Nat)
  | emit (ev : Event)
  /-- An emit goes on. -/
  | advance (i : Nat)
  /-- The loop runs the first callback. -/
  | runReady
  | cancel (f : Nat)

namespace EventLoop

def initial : EventLoop := ⟨.initial, .empty, [], [], [], []⟩

def setBroadcast (s : EventLoop) (i : Nat) (b : Broadcast) : EventLoop :=
  { s with broadcasts := s.broadcasts.set i b }

/-- `emit` up to the release of the lock; when a pattern raises, nothing is called. -/
def emit (s : EventLoop) (ev : Event) : EventLoop :=
  match s.bus.snapshot ev with
  | none => s
  | some subs =>
      { s with
        broadcasts := s.broadcasts ++
          [{ event := ev, todo := subs.map fun sub => (sub, s.handlers.get? sub.subId) }] }

/-- The handler lets the event pass, and its future is not done. -/
def passes (s : EventLoop) (handler : EventHandler) (ev : Event) : Bool :=
  match handler.predicate ev, s.futures[handler.future]? with
  | some true, some .pending => true
  | _, _ => false

/-- The next move of the handler that emission `i` calls. -/
def call (s : EventLoop) (i : Nat) (b : Broadcast) (handler : EventHandler) : EventLoop :=
  if b.accepted then
    { s.setBroadcast i b.returned with ready := s.ready ++ [(handler.future, b.event)] }
  else if s.passes handler b.event then s.setBroadcast i { b with accepted := true }
  else s.setBroadcast i b.returned

/-- The next move of emission `i`; the callbacks of other subscribers leave the futures alone. -/
def advance (s : EventLoop) (i : Nat) : EventLoop :=
  match s.broadcasts[i]? with
  | none => s
  | some b =>
      match b.todo with
      | [] =>
          if b.finished then s
          else
            { s.setBroadcast i { b with finished := true } with bus := s.bus.dropOnce b.toRemove }
      | (_, none) :: _ => s.setBroadcast i b.returned
      | (_, some handler) :: _ => s.call i b handler

/-- `set_result`, which raises on a future that is done. -/
def runReady (s : EventLoop) : EventLoop :=
  match s.ready with
  | [] => s
  | (f, ev) :: rest =>
      match s.futures[f]? with
      | some .pending => { s with futures := s.futures.set f (.finished ev), ready := rest }
      | _ => { s with ready := rest, refused := s.refused ++ [(f, ev)] }

/-- `cancel`, which does nothing to a future that is done. -/
def cancel (s : EventLoop) (f : Nat) : EventLoop :=
  match s.futures[f]? with
  | some .pending => { s with futures := s.futures.set f .cancelled }
  | _ => s

def step (s : EventLoop) : LoopAction → EventLoop
  | .createFuture => { s with futures := s.futures ++ [.pending] }
  | .subscribeHandler patterns handler =>
      { s with
        bus := s.bus.subscribe patterns .foreign false
        handlers := s.handlers.set s.bus.ids handler }
  | .subscribe patterns once => { s with bus := s.bus.subscribe patterns .foreign once }
  | .unsubscribe subId => { s with bus := s.bus.unsubscribe (some subId) }
  | .emit ev => s.emit ev
  | .advance i => s.advance i
  | .runReady => s.runReady
  | .cancel f => s.cancel f

/-- A handler is made for a future that exists. -/
def enabled (s : EventLoop) : LoopAction → Bool
  | .subscribeHandler _ handler => handler.future < s.futures.length
  | _ => true

end EventLoop

def eventLoop : GuardedSystem EventLoop LoopAction where
  init := .initial
  enabled s a := s.enabled a = true
  step := EventLoop.step

instance (s : EventLoop) (a : LoopAction) : Decidable (eventLoop.enabled s a) :=
  inferInstanceAs (Decidable (s.enabled a = true))

/-! ## What is on its way to a future -/

/-- The first handler of the emission is about to schedule a result for `f`. -/
def Broadcast.holds (f : Nat) (b : Broadcast) : Bool :=
  b.accepted && (b.todo.head?.bind Prod.snd).any fun handler => handler.future = f

namespace EventLoop

/-- The results that are going to be set on `f`. -/
def outstanding (s : EventLoop) (f : Nat) : Nat :=
  s.broadcasts.countP (Broadcast.holds f) + s.ready.countP fun c => c.1 = f

/-- The future that the next move of emission `i` finds not done. -/
def accepts (s : EventLoop) (i : Nat) : Option Nat :=
  match s.broadcasts[i]? with
  | some b =>
      match b.todo with
      | (_, some handler) :: _ =>
          if !b.accepted && s.passes handler b.event then some handler.future else none
      | _ => none
  | none => none

/-- No handler passes its check, and no timeout comes, while a result is on its way to the same
future. -/
def alone (s : EventLoop) : LoopAction → Bool
  | .advance i => (s.accepts i).all fun f => s.outstanding f = 0
  | .cancel f => s.outstanding f = 0
  | _ => true

/-- No `set_result` has been run on a future that was done, and none will be of those that are on
their way. -/
structure CompletedOnce (s : EventLoop) : Prop where
  refused : s.refused = []
  once : ∀ f, s.outstanding f ≤ 1
  pending : ∀ f, 0 < s.outstanding f → s.futures[f]? = some .pending

variable {s s' : EventLoop}

/-! ## How many results are on their way -/

theorem passes_pending {handler : EventHandler} {ev : Event} (h : s.passes handler ev = true) :
    s.futures[handler.future]? = some .pending := by
  unfold passes at h
  split at h
  · next hfuture => exact hfuture
  · cases h

/-- What a handler accepts is for a future that is not done. -/
theorem accepts_pending {i f : Nat} (h : s.accepts i = some f) :
    s.futures[f]? = some .pending := by
  unfold accepts at h
  split at h
  · split at h
    · split_ifs at h with hpasses
      cases h
      rw [Bool.and_eq_true] at hpasses
      exact passes_pending hpasses.2
    · cases h
  · cases h

/-- Emission `i` goes on, and `more` is scheduled. -/
theorem outstanding_of_set {i : Nat} {b b' : Broadcast} (hb : s.broadcasts[i]? = some b)
    (hset : s'.broadcasts = s.broadcasts.set i b') {more : List (Nat × Event)}
    (hready : s'.ready = s.ready ++ more) {f k : Nat}
    (hcount : (if b'.holds f then 1 else 0) + more.countP (fun c => c.1 = f) =
      (if b.holds f then 1 else 0) + k) : s'.outstanding f = s.outstanding f + k := by
  have hadd := countP_set_add (p := Broadcast.holds f) hb b'
  simp only [outstanding, hset, hready, List.countP_append]
  omega

/-- The next move of an emission adds what it accepts. -/
theorem outstanding_advance (i f : Nat) :
    (s.advance i).outstanding f = s.outstanding f + if s.accepts i = some f then 1 else 0 := by
  cases hb : s.broadcasts[i]? with
  | none => simp [advance, accepts, hb]
  | some b =>
      simp only [advance, accepts, hb]
      have hnone : s.ready = s.ready ++ [] := (List.append_nil _).symm
      obtain ⟨event, todo, accepted, toRemove, finished⟩ := b
      cases todo with
      | nil =>
          cases finished with
          | true => simp
          | false =>
              apply outstanding_of_set hb
              · rfl
              · exact hnone
              · simp [Broadcast.holds]
      | cons head rest =>
          obtain ⟨sub, callback⟩ := head
          cases callback with
          | none =>
              apply outstanding_of_set hb
              · rfl
              · exact hnone
              · simp [Broadcast.holds, Broadcast.returned]
          | some handler =>
              cases accepted with
              | true =>
                  apply outstanding_of_set hb
                  · rfl
                  · exact rfl
                  · simp [Broadcast.holds, Broadcast.returned]
              | false =>
                  simp only [call, Bool.false_eq_true, if_false, Bool.not_false, Bool.true_and]
                  split
                  · apply outstanding_of_set hb
                    · rfl
                    · exact hnone
                    · simp [Broadcast.holds]
                  · apply outstanding_of_set hb
                    · rfl
                    · exact hnone
                    · simp [Broadcast.holds, Broadcast.returned]

/-- `set_result` completes a future that is not done, and raises on any other. -/
theorem runReady_cons {f : Nat} {ev : Event} {rest : List (Nat × Event)}
    (h : s.ready = (f, ev) :: rest) :
    (s.futures[f]? = some .pending ∧
      s.runReady = { s with futures := s.futures.set f (.finished ev), ready := rest }) ∨
    (s.futures[f]? ≠ some .pending ∧
      s.runReady = { s with ready := rest, refused := s.refused ++ [(f, ev)] }) := by
  simp only [runReady, h]
  split
  · next hpending => exact .inl ⟨hpending, rfl⟩
  · next hdone => exact .inr ⟨hdone, rfl⟩

/-- The loop takes one result off. -/
theorem outstanding_runReady {f : Nat} {ev : Event} {rest : List (Nat × Event)}
    (h : s.ready = (f, ev) :: rest) (g : Nat) :
    s.outstanding g = s.runReady.outstanding g + if f = g then 1 else 0 := by
  have hcount : s.outstanding g = s.broadcasts.countP (Broadcast.holds g) +
      (rest.countP (fun c => c.1 = g) + if f = g then 1 else 0) := by
    rw [outstanding, h, List.countP_cons]
    simp
  rcases runReady_cons h with ⟨-, hrun⟩ | ⟨-, hrun⟩
  · rw [hrun, hcount]
    exact (Nat.add_assoc _ _ _).symm
  · rw [hrun, hcount]
    exact (Nat.add_assoc _ _ _).symm

/-- Nothing is on its way to a future after the other moves that was not before. -/
theorem outstanding_step {a : LoopAction} (hadvance : ∀ i, a ≠ .advance i) (hrun : a ≠ .runReady)
    (f : Nat) : (s.step a).outstanding f = s.outstanding f := by
  cases a with
  | createFuture | subscribeHandler | subscribe | unsubscribe => rfl
  | emit ev =>
      simp only [step, emit]
      split
      · rfl
      · simp [outstanding, Broadcast.holds]
  | advance i => exact (hadvance i rfl).elim
  | runReady => exact (hrun rfl).elim
  | cancel g =>
      simp only [step, cancel]
      split <;> rfl

/-! ## What happens to the futures -/

theorem advance_futures (i : Nat) : (s.advance i).futures = s.futures := by
  unfold advance call
  repeat' split
  all_goals rfl

theorem advance_refused (i : Nat) : (s.advance i).refused = s.refused := by
  unfold advance call
  repeat' split
  all_goals rfl

/-- Only a pending future changes: the loop completes it, or it is cancelled. -/
theorem step_keeps {f : Nat} {state : FutureState} (h : s.futures[f]? = some state)
    {a : LoopAction} (hpending : state = .pending → a ≠ .cancel f ∧ a ≠ .runReady) :
    (s.step a).futures[f]? = some state := by
  have hset : ∀ g new, s.futures[g]? = some .pending → (state = .pending → g ≠ f) →
      (s.futures.set g new)[f]? = some state := by
    intro g new hg hother
    have hne : g ≠ f := by
      rintro rfl
      exact hother (Option.some.inj (h.symm.trans hg)) rfl
    rw [List.getElem?_set_ne hne]
    exact h
  cases a with
  | createFuture => exact cell_append h _
  | subscribeHandler | subscribe | unsubscribe => exact h
  | emit ev =>
      simp only [step, emit]
      split <;> exact h
  | advance i =>
      rw [step, advance_futures]
      exact h
  | runReady =>
      cases hready : s.ready with
      | nil =>
          simp only [step, runReady, hready]
          exact h
      | cons c rest =>
          rcases runReady_cons hready with ⟨hfirst, hrun⟩ | ⟨-, hrun⟩
          · rw [step, hrun]
            exact hset _ _ hfirst fun hp => ((hpending hp).2 rfl).elim
          · rw [step, hrun]
            exact h
  | cancel g =>
      simp only [step, cancel]
      split
      · next hfirst =>
          exact hset g _ hfirst fun hp hg => (hpending hp).1 (by rw [hg])
      · exact h

/-- A future that is done stays as it is. -/
theorem step_done {f : Nat} {state : FutureState} (h : s.futures[f]? = some state)
    (hdone : state.done = true) (a : LoopAction) : (s.step a).futures[f]? = some state := by
  refine step_keeps h fun hpending => ?_
  rw [hpending] at hdone
  cases hdone

/-- A future that is pending stays so, unless the loop completes it or it is cancelled. -/
theorem step_pending {f : Nat} (h : s.futures[f]? = some .pending) {a : LoopAction}
    (hcancel : a ≠ .cancel f) (hrun : a ≠ .runReady) :
    (s.step a).futures[f]? = some .pending :=
  step_keeps h fun _ => ⟨hcancel, hrun⟩

theorem step_refused {a : LoopAction} (hrun : a ≠ .runReady) : (s.step a).refused = s.refused := by
  cases a with
  | createFuture | subscribeHandler | subscribe | unsubscribe => rfl
  | emit ev =>
      simp only [step, emit]
      split <;> rfl
  | advance i => exact advance_refused i
  | runReady => exact (hrun rfl).elim
  | cancel g =>
      simp only [step, cancel]
      split <;> rfl

/-! ## Runs that keep the results apart -/

/-- The loop runs a callback of which there is no second one. -/
theorem CompletedOnce.runReady (h : s.CompletedOnce) : s.runReady.CompletedOnce := by
  cases hready : s.ready with
  | nil =>
      have hsame : s.runReady = s := by simp only [EventLoop.runReady, hready]
      rw [hsame]
      exact h
  | cons c rest =>
      obtain ⟨f, ev⟩ := c
      have hout := outstanding_runReady hready
      have hf : s.outstanding f = s.runReady.outstanding f + 1 := by
        rw [hout f, if_pos rfl]
      have hpending : s.futures[f]? = some .pending := h.pending f (by omega)
      rcases runReady_cons hready with ⟨-, hrun⟩ | ⟨hdone, -⟩
      · refine ⟨by rw [hrun]; exact h.refused, fun g => ?_, fun g hg => ?_⟩
        · have hle := h.once g
          rw [hout g] at hle
          omega
        · have hne : f ≠ g := by
            rintro rfl
            have hle := h.once f
            omega
          have hg' : 0 < s.outstanding g := by
            rw [hout g]
            omega
          rw [hrun, List.getElem?_set_ne hne]
          exact h.pending g hg'
      · exact (hdone hpending).elim

/-- A handler whose future has nothing on its way passes its check. -/
theorem CompletedOnce.advance (h : s.CompletedOnce) {i : Nat}
    (alone : s.alone (.advance i) = true) : (s.advance i).CompletedOnce := by
  have hout := outstanding_advance (s := s) i
  refine ⟨by rw [advance_refused]; exact h.refused, fun f => ?_, fun f hf => ?_⟩
  · rw [hout f]
    split_ifs with haccepts
    · rw [EventLoop.alone, haccepts, Option.all_some, decide_eq_true_eq] at alone
      omega
    · exact h.once f
  · rw [advance_futures]
    rw [hout f] at hf
    split_ifs at hf with haccepts
    · exact accepts_pending haccepts
    · exact h.pending f hf

theorem CompletedOnce.step (h : s.CompletedOnce) {a : LoopAction} (alone : s.alone a = true) :
    (s.step a).CompletedOnce := by
  by_cases hadvance : ∃ i, a = .advance i
  · obtain ⟨i, rfl⟩ := hadvance
    exact h.advance alone
  · by_cases hrun : a = .runReady
    · rw [hrun]
      exact h.runReady
    · have hout := outstanding_step (s := s) (fun i ha => hadvance ⟨i, ha⟩) hrun
      refine ⟨(step_refused hrun).trans h.refused, fun f => (hout f).trans_le (h.once f),
        fun f hf => ?_⟩
      rw [hout f] at hf
      refine step_pending (h.pending f hf) ?_ hrun
      rintro rfl
      rw [EventLoop.alone, decide_eq_true_eq] at alone
      omega

theorem initial_completedOnce : CompletedOnce .initial where
  refused := rfl
  once _ := Nat.zero_le 1
  pending f h := by cases h

/-! ## Runs that do not -/

/-- A `set_result` has been run on a future that was done, or will be. -/
def Doomed (s : EventLoop) : Prop :=
  s.refused ≠ [] ∨ ∃ f, 2 ≤ s.outstanding f ∨
    (0 < s.outstanding f ∧ ∃ state, s.futures[f]? = some state ∧ state.done = true)

/-- Where a handler passes its check or a timeout comes while a result is on its way, the loop is
going to run a `set_result` on a future that is done. -/
theorem CompletedOnce.doomed (h : s.CompletedOnce) {a : LoopAction} (alone : s.alone a = false) :
    (s.step a).Doomed := by
  cases a with
  | advance i =>
      cases haccepts : s.accepts i with
      | none =>
          rw [EventLoop.alone, haccepts] at alone
          cases alone
      | some f =>
          rw [EventLoop.alone, haccepts, Option.all_some, decide_eq_false_iff_not] at alone
          refine .inr ⟨f, .inl ?_⟩
          rw [EventLoop.step, outstanding_advance, if_pos haccepts]
          omega
  | cancel f =>
      rw [EventLoop.alone, decide_eq_false_iff_not] at alone
      have hpos : 0 < s.outstanding f := Nat.pos_of_ne_zero alone
      have hpending := h.pending f hpos
      have hstep : s.step (.cancel f) = { s with futures := s.futures.set f .cancelled } := by
        simp only [EventLoop.step, EventLoop.cancel, hpending]
      refine .inr ⟨f, .inr ⟨?_, .cancelled, ?_, rfl⟩⟩
      · rw [hstep]
        exact hpos
      · rw [hstep, List.getElem?_set_self (List.getElem?_eq_some_iff.mp hpending).1]
  | createFuture | subscribeHandler | subscribe | unsubscribe | emit | runReady => cases alone

/-- Nothing can be taken back from the loop. -/
theorem Doomed.step (h : s.Doomed) (a : LoopAction) : (s.step a).Doomed := by
  by_cases hrun : a = .runReady
  · subst hrun
    cases hready : s.ready with
    | nil =>
        have hsame : s.step .runReady = s := by simp only [EventLoop.step, runReady, hready]
        rw [hsame]
        exact h
    | cons c rest =>
        obtain ⟨f, ev⟩ := c
        have hout := outstanding_runReady hready
        rcases runReady_cons hready with ⟨hpending, hcomplete⟩ | ⟨-, hrefuse⟩
        · have hfinished : s.runReady.futures[f]? = some (.finished ev) := by
            rw [hcomplete, List.getElem?_set_self (List.getElem?_eq_some_iff.mp hpending).1]
          rcases h with hrefused | ⟨g, hg⟩
          · refine .inl ?_
            rw [EventLoop.step, hcomplete]
            exact hrefused
          · refine .inr ⟨g, ?_⟩
            have hcount := hout g
            by_cases hfg : f = g
            · subst hfg
              rw [if_pos rfl] at hcount
              rcases hg with htwo | ⟨-, state, hstate, hdone⟩
              · exact .inr ⟨by change 0 < s.runReady.outstanding f; omega, _, hfinished, rfl⟩
              · rw [hpending] at hstate
                cases hstate
                cases hdone
            · rw [if_neg hfg, Nat.add_zero] at hcount
              change 2 ≤ s.runReady.outstanding g ∨ 0 < s.runReady.outstanding g ∧ _
              rw [← hcount]
              rcases hg with htwo | ⟨hpos, state, hstate, hdone⟩
              · exact .inl htwo
              · exact .inr ⟨hpos, state, step_done hstate hdone .runReady, hdone⟩
        · refine .inl ?_
          rw [EventLoop.step, hrefuse]
          simp
  · rcases h with hrefused | ⟨f, hf⟩
    · exact .inl (by rwa [step_refused hrun])
    · have hmono : s.outstanding f ≤ (s.step a).outstanding f := by
        by_cases hadvance : ∃ i, a = .advance i
        · obtain ⟨i, rfl⟩ := hadvance
          rw [EventLoop.step, outstanding_advance]
          omega
        · exact (outstanding_step (fun i ha => hadvance ⟨i, ha⟩) hrun f).ge
      refine .inr ⟨f, ?_⟩
      rcases hf with htwo | ⟨hpos, state, hstate, hdone⟩
      · exact .inl (htwo.trans hmono)
      · exact .inr ⟨hpos.trans_le hmono, state, step_done hstate hdone a, hdone⟩

/-! ## The futures of a scenario run -/

/-- A future as the run of a scenario keeps it. -/
def view (s : EventLoop) (f : Nat) : Option Future :=
  (s.futures[f]?).map (FutureState.withPosted ((s.ready.filter fun c => c.1 = f).map Prod.snd))

/-- A handler that lets the event pass is one step of a run, from its call to its return. -/
theorem view_call {i : Nat} {b : Broadcast} {sub : Subscription} {handler : EventHandler}
    {rest : List (Subscription × Option EventHandler)} (hb : s.broadcasts[i]? = some b)
    (htodo : b.todo = (sub, some handler) :: rest) (fresh : b.accepted = false)
    (matched : handler.predicate b.event = some true) :
    (if s.passes handler b.event then (s.advance i).advance i else s.advance i).view
        handler.future = (s.view handler.future).map fun future => future.post b.event := by
  obtain ⟨event, todo, accepted, toRemove, finished⟩ := b
  cases htodo
  cases fresh
  have hcall : s.advance i =
      s.call i ⟨event, (sub, some handler) :: rest, false, toRemove, finished⟩ handler := by
    simp only [advance, hb]
  by_cases hpasses : s.passes handler event = true
  · have hpending := passes_pending hpasses
    have hfirst : s.advance i =
        s.setBroadcast i ⟨event, (sub, some handler) :: rest, true, toRemove, finished⟩ := by
      simp only [hcall, call, hpasses, Bool.false_eq_true, if_false, if_true]
    have hat : (s.advance i).broadcasts[i]? =
        some ⟨event, (sub, some handler) :: rest, true, toRemove, finished⟩ := by
      rw [hfirst]
      exact List.getElem?_set_self (List.getElem?_eq_some_iff.mp hb).1
    have hready : ((s.advance i).advance i).ready = s.ready ++ [(handler.future, event)] := by
      rw [advance, hat]
      simp only [call, if_true, hfirst, setBroadcast]
    rw [if_pos hpasses, view, view, advance_futures, advance_futures, hready, hpending,
      Option.map_some, Option.map_some, Option.map_some, FutureState.post_withPosted,
      List.filter_append, List.map_append]
    simp [FutureState.done]
  · have hsame : (s.advance i).ready = s.ready := by
      rw [hcall, call]
      simp only [hpasses, Bool.false_eq_true, if_false, setBroadcast]
    rw [if_neg hpasses, view, view, advance_futures, hsame]
    cases hstate : s.futures[handler.future]? with
    | none => rfl
    | some state =>
        have hdone : state.done = true := by
          cases state with
          | pending => exact (hpasses (by rw [passes, matched, hstate])).elim
          | finished | cancelled => rfl
        rw [Option.map_some, Option.map_some, FutureState.post_withPosted, hdone, if_pos rfl]

/-- The loop settles the future of the first callback, and no other. -/
theorem view_runReady {f : Nat} {ev : Event} {rest : List (Nat × Event)}
    (hready : s.ready = (f, ev) :: rest) (g : Nat) :
    s.runReady.view g = if f = g then (s.view g).map Future.settle else s.view g := by
  have hposted : ∀ g, (s.ready.filter fun c => c.1 = g).map Prod.snd =
      if f = g then ev :: (rest.filter fun c => c.1 = g).map Prod.snd
      else (rest.filter fun c => c.1 = g).map Prod.snd := by
    intro g
    rw [hready, List.filter_cons]
    by_cases hfg : f = g <;> simp [hfg]
  rcases runReady_cons hready with ⟨hpending, hrun⟩ | ⟨hdone, hrun⟩
  · by_cases hfg : f = g
    · subst hfg
      rw [hrun, if_pos rfl, view, view, hposted, if_pos rfl, hpending,
        List.getElem?_set_self (List.getElem?_eq_some_iff.mp hpending).1]
      rfl
    · rw [hrun, if_neg hfg, view, view, hposted, if_neg hfg, List.getElem?_set_ne hfg]
  · by_cases hfg : f = g
    · subst hfg
      rw [hrun, if_pos rfl, view, view, hposted, if_pos rfl]
      cases hstate : s.futures[f]? with
      | none => rfl
      | some state =>
          cases state with
          | pending => exact (hdone hstate).elim
          | finished | cancelled => rfl
    · rw [hrun, if_neg hfg, view, view, hposted, if_neg hfg]

theorem view_cancel (f : Nat) : (s.cancel f).view f = (s.view f).map Future.cancel := by
  unfold cancel
  cases hstate : s.futures[f]? with
  | none => simp [view, hstate]
  | some state =>
      cases state with
      | pending =>
          simp only [view, hstate, List.getElem?_set_self (List.getElem?_eq_some_iff.mp hstate).1]
          rfl
      | finished | cancelled =>
          simp only [view, hstate]
          rfl

/-- Nobody has a result on the way. -/
def AtRest (s : EventLoop) : Prop := ∀ f, s.outstanding f = 0

theorem Doomed.refused (h : s.Doomed) (rest : s.AtRest) : s.refused ≠ [] := by
  rcases h with hrefused | ⟨f, htwo | ⟨hpos, -⟩⟩
  · exact hrefused
  · rw [rest f] at htwo
    omega
  · rw [rest f] at hpos
    omega

/-- A run at whose end nothing is on its way has refused nothing only if it has kept the results of
every future apart. -/
theorem CompletedOnce.legal (h : s.CompletedOnce) {as : List LoopAction}
    (legal : eventLoop.Legal (fun _ _ => True) s as) (rest : (eventLoop.run s as).AtRest)
    (refused : (eventLoop.run s as).refused = []) :
    eventLoop.Legal (fun s a => s.alone a = true) s as := by
  induction as generalizing s with
  | nil => trivial
  | cons a as ih =>
      cases halone : s.alone a with
      | true =>
          exact ⟨legal.1, halone, ih (h.step halone) legal.2.2 rest refused⟩
      | false =>
          have hdoomed : (eventLoop.run (s.step a) as).Doomed :=
            legal.2.2.invariant (fun _ a _ _ hs => hs.step a) (h.doomed halone)
          exact (hdoomed.refused rest refused).elim

/-- Every future is completed at most once, and no `set_result` is run on one that is done, in the
runs in which no handler passes its check and no timeout comes while a result is on its way to the
same future; and in no other run that comes to rest. -/
theorem completed_once_iff {as : List LoopAction}
    (legal : eventLoop.Legal (fun _ _ => True) .initial as) :
    (eventLoop.Legal (fun s a => s.alone a = true) .initial as →
      (eventLoop.run .initial as).CompletedOnce) ∧
    ((eventLoop.run .initial as).AtRest →
      ((eventLoop.run .initial as).refused = [] ↔
        eventLoop.Legal (fun s a => s.alone a = true) .initial as)) := by
  have hkeep : eventLoop.Legal (fun s a => s.alone a = true) .initial as →
      (eventLoop.run .initial as).CompletedOnce := fun halone =>
    halone.invariant (fun _ _ _ alone h => h.step alone) initial_completedOnce
  refine ⟨hkeep, fun rest => ⟨fun refused => ?_, fun halone => (hkeep halone).refused⟩⟩
  exact initial_completedOnce.legal legal rest refused

/-! ## Two matching events before the loop runs -/

/-- `wait_for("target")` without a predicate. -/
def waitForTarget : List LoopAction :=
  [.createFuture, .subscribeHandler [.ofString "target"] ⟨0, fun _ => some true⟩]

def target : Event := ⟨⟨"target".toList, .null, .null, []⟩, 0⟩

/-- An emit of one event to the one handler: its check, the scheduling and the end. -/
def emitTarget (i : Nat) : List LoopAction :=
  [.emit target, .advance i, .advance i, .advance i]

/-- Two emits, then the loop. -/
def twoEmits : List LoopAction :=
  waitForTarget ++ emitTarget 0 ++ emitTarget 1 ++ [.runReady, .runReady]

/-- One emit, then the timeout, then the loop. -/
def lateTimeout : List LoopAction := waitForTarget ++ emitTarget 0 ++ [.cancel 0, .runReady]

/-- The loop runs between the emits. -/
def loopBetween : List LoopAction :=
  waitForTarget ++ emitTarget 0 ++ [.runReady] ++ emitTarget 1 ++ [.cancel 0]

theorem set_twice :
    eventLoop.Legal (fun _ _ => True) .initial twoEmits ∧
      (eventLoop.run .initial twoEmits).refused ≠ [] ∧
      eventLoop.Legal (fun _ _ => True) .initial lateTimeout ∧
      (eventLoop.run .initial lateTimeout).refused ≠ [] := by
  refine ⟨by decide +kernel, ?_, by decide +kernel, ?_⟩ <;> exact List.cons_ne_nil _ _

theorem loopBetween_completed : (eventLoop.run .initial loopBetween).CompletedOnce :=
  (completed_once_iff (by decide +kernel)).1 (by decide +kernel)

end EventLoop

end PjsuaMcp.Scenario
