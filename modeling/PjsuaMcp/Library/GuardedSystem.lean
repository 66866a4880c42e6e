import Mathlib.Data.List.Induction
import Mathlib.Tactic.Common

/-!
# Guarded transition systems

A system has one initial state, an enabling condition on actions, and a total
step function. Runs may be restricted to the actions that a side condition
`ok` admits in the state where they are taken; the plain reachable states are
those of the condition that admits everything.

## Implementation notes

The side condition reads the state before the action, never the state after
it. A result about `Reach S ok` therefore speaks about whole runs whose every
step was admissible when it was taken.
-/

namespace PjsuaMcp.Library

structure GuardedSystem (σ α : Type*) where
  init : σ
  enabled : σ → α → Prop
  step : σ → α → σ

namespace GuardedSystem

variable {σ α : Type*} (S : GuardedSystem σ α)

/-- The states of the runs all of whose actions are enabled and admitted by `ok`. -/
inductive Reach (ok : σ → α → Prop) : σ → Prop
  | init : Reach ok S.init
  | step {s a} (run : Reach ok s) (en : S.enabled s a) (hok : ok s a) : Reach ok (S.step s a)

/-- The states of all runs. -/
abbrev Reachable : σ → Prop := S.Reach fun _ _ => True

variable {S}

/-- A property of the initial state that every admitted step keeps holds along every run. -/
theorem Reach.invariant {ok : σ → α → Prop} {P : σ → Prop} (h0 : P S.init)
    (hstep : ∀ s a, S.enabled s a → ok s a → P s → P (S.step s a)) {s : σ}
    (run : S.Reach ok s) : P s := by
  induction run with
  | init => exact h0
  | step _ en hok ih => exact hstep _ _ en hok ih

/-- The invariant rule with a fact already known of every state of the run. -/
theorem Reach.invariant_using {ok : σ → α → Prop} {P Q : σ → Prop}
    (hQ : ∀ s, S.Reach ok s → Q s) (h0 : P S.init)
    (hstep : ∀ s a, S.enabled s a → ok s a → Q s → P s → P (S.step s a)) {s : σ}
    (run : S.Reach ok s) : P s := by
  induction run with
  | init => exact h0
  | step run en hok ih => exact hstep _ _ en hok (hQ _ run) ih

/-- A weaker side condition admits more runs. -/
theorem Reach.mono {ok ok' : σ → α → Prop} (h : ∀ s a, ok s a → ok' s a) {s : σ}
    (run : S.Reach ok s) : S.Reach ok' s := by
  induction run with
  | init => exact .init
  | step _ en hok ih => exact .step ih en (h _ _ hok)

/-- Restricted runs reach reachable states only. -/
theorem Reach.reachable {ok : σ → α → Prop} {s : σ} (run : S.Reach ok s) : S.Reachable s :=
  run.mono fun _ _ _ => trivial

variable (S)

/-- The state after a list of actions. -/
def run : σ → List α → σ := List.foldl S.step

/-- Every action of the list is enabled and admitted where it is taken. -/
def Legal (ok : σ → α → Prop) : σ → List α → Prop
  | _, [] => True
  | s, a :: rest => S.enabled s a ∧ ok s a ∧ Legal ok (S.step s a) rest

instance Legal.decidable {ok : σ → α → Prop} [∀ s a, Decidable (S.enabled s a)]
    [∀ s a, Decidable (ok s a)] : ∀ s as, Decidable (S.Legal ok s as)
  | _, [] => inferInstanceAs (Decidable True)
  | s, a :: rest =>
      have : Decidable (S.Legal ok (S.step s a) rest) := Legal.decidable (S.step s a) rest
      inferInstanceAs (Decidable (S.enabled s a ∧ ok s a ∧ S.Legal ok (S.step s a) rest))

variable {S}

/-- A legal list of actions extends a run by its own length. -/
theorem Reach.run {ok : σ → α → Prop} {s : σ} (h : S.Reach ok s) {as : List α}
    (legal : S.Legal ok s as) : S.Reach ok (S.run s as) := by
  induction as generalizing s with
  | nil => exact h
  | cons a rest ih => exact ih (h.step legal.1 legal.2.1) legal.2.2

theorem run_concat (s : σ) (as : List α) (a : α) : S.run s (as ++ [a]) = S.step (S.run s as) a := by
  rw [GuardedSystem.run, List.foldl_append]
  rfl

theorem legal_concat {ok : σ → α → Prop} {s : σ} {as : List α} {a : α} :
    S.Legal ok s (as ++ [a]) ↔
      S.Legal ok s as ∧ S.enabled (S.run s as) a ∧ ok (S.run s as) a := by
  induction as generalizing s with
  | nil => exact ⟨fun h => ⟨trivial, h.1, h.2.1⟩, fun h => ⟨h.2.1, h.2.2, trivial⟩⟩
  | cons b rest ih =>
      constructor
      · intro h
        obtain ⟨hrest, hlast⟩ := ih.mp h.2.2
        exact ⟨⟨h.1, h.2.1, hrest⟩, hlast⟩
      · intro h
        exact ⟨h.1.1, h.1.2.1, ih.mpr ⟨h.1.2.2, h.2⟩⟩

/-- The invariant rule for the actions taken so far together with the state they have led to. -/
theorem Legal.trace_invariant {ok : σ → α → Prop} {P : List α → σ → Prop} (h0 : P [] S.init)
    (hstep : ∀ as a s, s = S.run S.init as → S.Reach ok s → S.enabled s a → ok s a → P as s →
      P (as ++ [a]) (S.step s a))
    {as : List α} (legal : S.Legal ok S.init as) : P as (S.run S.init as) := by
  induction as using List.reverseRecOn with
  | nil => exact h0
  | append_singleton as a ih =>
      obtain ⟨hfirst, en, hok⟩ := legal_concat.mp legal
      rw [run_concat]
      exact hstep as a _ rfl (Reach.init.run hfirst) en hok (ih hfirst)

/-- The invariant rule for the actions that follow a given state. -/
theorem Legal.invariant {ok : σ → α → Prop} {P : σ → Prop}
    (hstep : ∀ s a, S.enabled s a → ok s a → P s → P (S.step s a)) {s : σ} (h : P s)
    {as : List α} (legal : S.Legal ok s as) : P (S.run s as) := by
  induction as generalizing s with
  | nil => exact h
  | cons a rest ih => exact ih (hstep s a legal.1 legal.2.1 h) legal.2.2

end GuardedSystem

end PjsuaMcp.Library
