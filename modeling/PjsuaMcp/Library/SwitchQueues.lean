import Mathlib.Logic.Function.Iterate
import Mathlib.Tactic.Common

/-!
# Switches driven by two request queues

A family of switches is turned on by the requests of one queue and off by those
of another. A drain serves all start requests and then all stop requests. It is
suspended while a switch is being turned on, which takes effect only when it
resumes, and after a switch has been turned off; requests may arrive meanwhile.

`Settles` predicts which switches are on after every request has been served.
Draining does not change the prediction, so a program that wants some switches
on has to keep `Settles` right at its requests only.

## Implementation notes

A suspended stop pass does not return to the start queue. A start request made
then waits for the next drain and is served after the remaining stops, which is
why `Settles` reads differently in that phase.
-/

namespace PjsuaMcp.Library

inductive SwitchQueues.Phase (κ : Type*)
  | idle
  | starting (k : κ)
  | stopping

structure SwitchQueues (κ : Type*) where
  on : κ → Bool
  starts : List κ
  stops : List κ
  phase : SwitchQueues.Phase κ

namespace SwitchQueues

variable {κ : Type*}

/-- The switch is on once the current drain and one more drain have run. -/
def Settles (q : SwitchQueues κ) (k : κ) : Prop :=
  match q.phase with
  | .idle => (q.on k = true ∨ k ∈ q.starts) ∧ k ∉ q.stops
  | .starting j => (q.on k = true ∨ k ∈ q.starts ∨ k = j) ∧ k ∉ q.stops
  | .stopping => (q.on k = true ∧ k ∉ q.stops) ∨ k ∈ q.starts

/-- When nothing waits, the prediction is what is on. -/
theorem settles_of_quiet {q : SwitchQueues κ} (hidle : q.phase = .idle) (hstarts : q.starts = [])
    (hstops : q.stops = []) (k : κ) : q.Settles k ↔ q.on k = true := by
  simp [Settles, hidle, hstarts, hstops]

/-! ## Requests -/

def requestStart (q : SwitchQueues κ) (k : κ) : SwitchQueues κ :=
  { q with starts := q.starts ++ [k] }

/-- A stop is requested only for a switch that is on. -/
def requestStop (q : SwitchQueues κ) (k : κ) : SwitchQueues κ :=
  { q with stops := q.stops ++ if q.on k then [k] else [] }

/-- A start request holds unless a stop that is already queued will undo it. -/
def startHolds (q : SwitchQueues κ) (k : κ) : Prop :=
  match q.phase with
  | .stopping => True
  | _ => k ∉ q.stops

/-- A stop request holds if the switch is on and no start waits for the next drain. -/
def stopHolds (q : SwitchQueues κ) (k : κ) : Prop :=
  match q.phase with
  | .stopping => q.on k = true ∧ k ∉ q.starts
  | _ => q.on k = true

/-- A start takes effect unless a stop that is queued will undo it. -/
theorem settles_requestStart_self (q : SwitchQueues κ) (k : κ) :
    (q.requestStart k).Settles k ↔ q.startHolds k := by
  unfold Settles startHolds requestStart
  cases q.phase <;> simp

theorem settles_requestStart_of_ne (q : SwitchQueues κ) {j k : κ} (h : k ≠ j) :
    (q.requestStart j).Settles k ↔ q.Settles k := by
  unfold Settles requestStart
  cases q.phase <;> simp [h]

/-- A stop request turns a settling switch off exactly when it holds. -/
theorem settles_requestStop_self (q : SwitchQueues κ) (k : κ) :
    (q.requestStop k).Settles k ↔ q.Settles k ∧ ¬ q.stopHolds k := by
  unfold Settles stopHolds requestStop
  cases q.on k <;> cases q.phase <;> simp
  exact fun hstart => .inr hstart

theorem settles_requestStop_of_ne (q : SwitchQueues κ) {j k : κ} (h : k ≠ j) :
    (q.requestStop j).Settles k ↔ q.Settles k := by
  unfold Settles requestStop
  cases q.on j <;> cases q.phase <;> simp [h]

instance [DecidableEq κ] (q : SwitchQueues κ) (k : κ) : Decidable (q.Settles k) :=
  match q with
  | ⟨on, starts, stops, .idle⟩ =>
      inferInstanceAs (Decidable ((on k = true ∨ k ∈ starts) ∧ k ∉ stops))
  | ⟨on, starts, stops, .starting j⟩ =>
      inferInstanceAs (Decidable ((on k = true ∨ k ∈ starts ∨ k = j) ∧ k ∉ stops))
  | ⟨on, starts, stops, .stopping⟩ =>
      inferInstanceAs (Decidable ((on k = true ∧ k ∉ stops) ∨ k ∈ starts))

instance [DecidableEq κ] (q : SwitchQueues κ) (k : κ) : Decidable (q.startHolds k) :=
  match q with
  | ⟨_, _, _, .stopping⟩ => inferInstanceAs (Decidable True)
  | ⟨_, _, stops, .idle⟩ => inferInstanceAs (Decidable (k ∉ stops))
  | ⟨_, _, stops, .starting _⟩ => inferInstanceAs (Decidable (k ∉ stops))

instance [DecidableEq κ] (q : SwitchQueues κ) (k : κ) : Decidable (q.stopHolds k) :=
  match q with
  | ⟨on, starts, _, .stopping⟩ => inferInstanceAs (Decidable (on k = true ∧ k ∉ starts))
  | ⟨on, _, _, .idle⟩ => inferInstanceAs (Decidable (on k = true))
  | ⟨on, _, _, .starting _⟩ => inferInstanceAs (Decidable (on k = true))

/-! ## Draining -/

section Drain

variable [DecidableEq κ]

/-- The stop pass, up to its next suspension. -/
def serveStops (q : SwitchQueues κ) : List κ → SwitchQueues κ
  | [] => { q with stops := [], phase := .idle }
  | k :: rest =>
      if q.on k then
        { q with stops := rest, on := Function.update q.on k false, phase := .stopping }
      else q.serveStops rest

/-- The start pass, up to its next suspension, running on into the stop pass. -/
def serveStarts (q : SwitchQueues κ) : List κ → SwitchQueues κ
  | [] => { q with starts := [] }.serveStops q.stops
  | k :: rest =>
      if q.on k then q.serveStarts rest else { q with starts := rest, phase := .starting k }

/-- A drain up to its first suspension. -/
def begin (q : SwitchQueues κ) : SwitchQueues κ := q.serveStarts q.starts

/-- The suspended request takes effect and the passes go on. -/
def resume (q : SwitchQueues κ) : SwitchQueues κ :=
  match q.phase with
  | .idle => q
  | .starting k => { q with on := Function.update q.on k true }.serveStarts q.starts
  | .stopping => q.serveStops q.stops

/-- A drain from start to end with no request arriving meanwhile. -/
def drained (q : SwitchQueues κ) : SwitchQueues κ :=
  resume^[q.starts.length + q.stops.length] q.begin

/-- The stop pass settles what is on, or waits for the next drain, and is not to be stopped. -/
theorem settles_serveStops (q : SwitchQueues κ) (stops : List κ) (k : κ) :
    (q.serveStops stops).Settles k ↔ (q.on k = true ∧ k ∉ stops) ∨ k ∈ q.starts := by
  induction stops with
  | nil => simp [serveStops, Settles]
  | cons j rest ih =>
      simp only [serveStops]
      split_ifs with hon
      · simp only [Settles]
        by_cases hk : k = j
        · simp [hk]
        · simp [hk]
      · rw [ih]
        by_cases hk : k = j
        · simp [hk, hon]
        · simp [hk]

/-- Serving the starts, then the stops, ends in these positions. -/
theorem settles_serveStarts (q : SwitchQueues κ) (starts : List κ) (k : κ) :
    (q.serveStarts starts).Settles k ↔ (q.on k = true ∨ k ∈ starts) ∧ k ∉ q.stops := by
  induction starts with
  | nil => simp [serveStarts, settles_serveStops]
  | cons j rest ih =>
      simp only [serveStarts]
      split_ifs with hon
      · rw [ih]
        by_cases hk : k = j
        · simp [hk, hon]
        · simp [hk]
      · simp only [Settles, List.mem_cons]
        tauto

/-- Starting a drain does not change the prediction. -/
theorem settles_begin {q : SwitchQueues κ} (h : q.phase = .idle) (k : κ) :
    q.begin.Settles k ↔ q.Settles k := by
  rw [begin, settles_serveStarts, Settles, h]

/-- Nor does resuming it. -/
theorem settles_resume (q : SwitchQueues κ) (k : κ) : q.resume.Settles k ↔ q.Settles k := by
  unfold resume
  cases hphase : q.phase with
  | idle => rfl
  | starting j =>
      rw [settles_serveStarts, Settles, hphase]
      by_cases hk : k = j
      · simp [hk]
      · simp [hk]
  | stopping =>
      rw [settles_serveStops, Settles, hphase]

theorem settles_drained {q : SwitchQueues κ} (h : q.phase = .idle) (k : κ) :
    q.drained.Settles k ↔ q.Settles k := by
  unfold drained
  generalize q.starts.length + q.stops.length = n
  induction n with
  | zero => exact settles_begin h k
  | succ n ih => rw [Function.iterate_succ_apply', settles_resume, ih]

/-! ## A drain ends -/

/-- Requests still to be served, the suspended one included. -/
def remaining (q : SwitchQueues κ) : Nat :=
  q.starts.length + q.stops.length + match q.phase with
    | .idle => 0
    | _ => 1

/-- No start request waits behind the stop pass, and nothing waits when idle. -/
def InOrder (q : SwitchQueues κ) : Prop :=
  match q.phase with
  | .idle => q.starts = [] ∧ q.stops = []
  | .starting _ => True
  | .stopping => q.starts = []

theorem serveStops_remaining (q : SwitchQueues κ) (stops : List κ) :
    (q.serveStops stops).remaining ≤ q.starts.length + stops.length := by
  induction stops with
  | nil => simp [serveStops, remaining]
  | cons j rest ih =>
      simp only [serveStops]
      split_ifs
      · simp only [remaining, List.length_cons]
        omega
      · rw [List.length_cons]
        omega

theorem serveStarts_remaining (q : SwitchQueues κ) (starts : List κ) :
    (q.serveStarts starts).remaining ≤ starts.length + q.stops.length := by
  induction starts with
  | nil => exact serveStops_remaining _ _
  | cons j rest ih =>
      simp only [serveStarts]
      split_ifs
      · rw [List.length_cons]
        omega
      · simp only [remaining, List.length_cons]
        omega

theorem serveStops_inOrder {q : SwitchQueues κ} (h : q.starts = []) (stops : List κ) :
    (q.serveStops stops).InOrder := by
  induction stops with
  | nil => exact ⟨h, rfl⟩
  | cons j rest ih =>
      simp only [serveStops]
      split_ifs
      · exact h
      · exact ih

theorem serveStarts_inOrder (q : SwitchQueues κ) (starts : List κ) :
    (q.serveStarts starts).InOrder := by
  induction starts with
  | nil => exact serveStops_inOrder rfl _
  | cons j rest ih =>
      simp only [serveStarts]
      split_ifs
      · exact ih
      · trivial

/-- Every resumption serves at least the suspended request. -/
theorem resume_remaining (q : SwitchQueues κ) :
    q.phase = .idle ∨ q.resume.remaining < q.remaining := by
  cases hphase : q.phase with
  | idle => exact .inl rfl
  | starting j =>
      right
      have hpass := serveStarts_remaining { q with on := Function.update q.on j true } q.starts
      have hresume : q.resume =
          { q with on := Function.update q.on j true }.serveStarts q.starts := by
        rw [resume, hphase]
      rw [hresume]
      refine Nat.lt_of_le_of_lt hpass ?_
      simp [remaining, hphase]
  | stopping =>
      right
      have hpass := serveStops_remaining q q.stops
      have hresume : q.resume = q.serveStops q.stops := by rw [resume, hphase]
      rw [hresume]
      refine Nat.lt_of_le_of_lt hpass ?_
      simp [remaining, hphase]

theorem resume_inOrder {q : SwitchQueues κ} (h : q.InOrder) : q.resume.InOrder := by
  unfold resume
  cases hphase : q.phase with
  | idle => exact h
  | starting j => exact serveStarts_inOrder _ _
  | stopping =>
      refine serveStops_inOrder ?_ q.stops
      rw [InOrder, hphase] at h
      exact h

theorem iterate_resume_inOrder (n : Nat) {q : SwitchQueues κ} (h : q.InOrder)
    (hn : q.remaining ≤ n) :
    (resume^[n] q).InOrder ∧ (resume^[n] q).phase = .idle := by
  induction n generalizing q with
  | zero =>
      refine ⟨h, ?_⟩
      cases hphase : q.phase with
      | idle => exact hphase
      | _ => simp [remaining, hphase] at hn
  | succ n ih =>
      rw [Function.iterate_succ_apply]
      refine ih (resume_inOrder h) ?_
      rcases q.resume_remaining with hidle | hless
      · rw [resume, hidle]
        have hempty : q.starts = [] ∧ q.stops = [] := by
          rw [InOrder, hidle] at h
          exact h
        simp [remaining, hidle, hempty.1, hempty.2]
      · omega

/-- A drain with no request arriving meanwhile ends, with both queues empty. -/
theorem drained_idle (q : SwitchQueues κ) :
    q.drained.phase = .idle ∧ q.drained.starts = [] ∧ q.drained.stops = [] := by
  obtain ⟨horder, hidle⟩ := iterate_resume_inOrder (q.starts.length + q.stops.length)
    (serveStarts_inOrder q q.starts) (serveStarts_remaining q q.starts)
  rw [InOrder, hidle] at horder
  exact ⟨hidle, horder⟩

end Drain

end SwitchQueues

end PjsuaMcp.Library
