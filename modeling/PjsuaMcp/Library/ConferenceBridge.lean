import Mathlib.Data.Bool.Basic
import Mathlib.Data.List.Basic
import Mathlib.Tactic.Common

/-!
# Conference bridges

Ports are put on a bridge and taken off it, and a port transmits to another one
from a request on, until it is told to stop or one of the two is taken off. A
bridge is given by its operations and by the laws that they obey; what it is made
of is left open. What is proved here holds of every bridge.

## Implementation notes

A port that is put on the bridge is a new one, so it has no transmissions, also
when there was a port of this name. A request between ports that are not both on
the bridge has no effect.
-/

namespace PjsuaMcp.Library

/-- The device is on the bridge from the start. -/
structure ConferenceBridge (P : Type) [DecidableEq P] (device : P) where
  State : Type
  start : State
  isOpen : State → P → Bool
  transmits : State → P → P → Bool
  addPort : State → P → State
  removePort : State → P → State
  startTransmit : State → P → P → State
  stopTransmit : State → P → P → State
  isOpen_start : ∀ p, isOpen start p = decide (p = device)
  isOpen_addPort : ∀ b r p, isOpen (addPort b r) p = (decide (p = r) || isOpen b p)
  isOpen_removePort : ∀ b r p, isOpen (removePort b r) p = (!decide (p = r) && isOpen b p)
  isOpen_startTransmit : ∀ b r s p, isOpen (startTransmit b r s) p = isOpen b p
  isOpen_stopTransmit : ∀ b r s p, isOpen (stopTransmit b r s) p = isOpen b p
  transmits_start : ∀ p q, transmits start p q = false
  transmits_addPort : ∀ b r p q, transmits (addPort b r) p q =
    (transmits b p q && !decide (p = r ∨ q = r))
  transmits_removePort : ∀ b r p q, transmits (removePort b r) p q =
    (transmits b p q && !decide (p = r ∨ q = r))
  transmits_startTransmit : ∀ b r s p q, transmits (startTransmit b r s) p q =
    (transmits b p q || decide (p = r ∧ q = s) && isOpen b r && isOpen b s)
  transmits_stopTransmit : ∀ b r s p q, transmits (stopTransmit b r s) p q =
    (transmits b p q && !decide (p = r ∧ q = s))

/-- The operations of a bridge. -/
inductive BridgeOp (P : Type)
  | addPort (r : P)
  | removePort (r : P)
  | startTransmit (r s : P)
  | stopTransmit (r s : P)
  deriving DecidableEq, Repr

namespace ConferenceBridge

variable {P : Type} [DecidableEq P] {device : P} (B : ConferenceBridge P device)

def apply (b : B.State) : BridgeOp P → B.State
  | .addPort r => B.addPort b r
  | .removePort r => B.removePort b r
  | .startTransmit r s => B.startTransmit b r s
  | .stopTransmit r s => B.stopTransmit b r s

def run (b : B.State) (ops : List (BridgeOp P)) : B.State := ops.foldl B.apply b

@[simp] theorem run_nil (b : B.State) : B.run b [] = b := rfl

@[simp] theorem run_cons (b : B.State) (op : BridgeOp P) (ops : List (BridgeOp P)) :
    B.run b (op :: ops) = B.run (B.apply b op) ops := rfl

/-- One of the operations has asked for the transmission. -/
theorem transmits_run_cases {b : B.State} {ops : List (BridgeOp P)} {p q : P}
    (h : B.transmits (B.run b ops) p q = true) :
    B.transmits b p q = true ∨ .startTransmit p q ∈ ops := by
  induction ops generalizing b with
  | nil => exact .inl h
  | cons op ops ih =>
      obtain hone | hrest := ih h
      · cases op with
        | addPort r =>
            rw [apply, B.transmits_addPort] at hone
            exact .inl (Bool.and_elim_left hone)
        | removePort r =>
            rw [apply, B.transmits_removePort] at hone
            exact .inl (Bool.and_elim_left hone)
        | startTransmit r s =>
            rw [apply, B.transmits_startTransmit, Bool.or_eq_true, Bool.and_assoc,
              Bool.and_eq_true, decide_eq_true_eq] at hone
            obtain hold | ⟨⟨rfl, rfl⟩, -⟩ := hone
            · exact .inl hold
            · exact .inr List.mem_cons_self
        | stopTransmit r s =>
            rw [apply, B.transmits_stopTransmit] at hone
            exact .inl (Bool.and_elim_left hone)
      · exact .inr (List.mem_cons_of_mem op hrest)

/-- A port that is not taken off stays on the bridge. -/
theorem isOpen_run {b : B.State} {p : P} (hopen : B.isOpen b p = true) {ops : List (BridgeOp P)}
    (kept : .removePort p ∉ ops) : B.isOpen (B.run b ops) p = true := by
  induction ops generalizing b with
  | nil => exact hopen
  | cons op ops ih =>
      apply ih _ fun hmem => kept (List.mem_cons_of_mem op hmem)
      cases op with
      | addPort r => rw [apply, B.isOpen_addPort, hopen, Bool.or_true]
      | removePort r =>
          have hne : p ≠ r := by
            rintro rfl
            exact kept List.mem_cons_self
          rw [apply, B.isOpen_removePort, hopen, decide_eq_false hne]
          rfl
      | startTransmit r s => rwa [apply, B.isOpen_startTransmit]
      | stopTransmit r s => rwa [apply, B.isOpen_stopTransmit]

/-- Requests alone neither open nor close a port. -/
theorem isOpen_run_requests (b : B.State) (pairs : List (P × P)) (p : P) :
    B.isOpen (B.run b (pairs.map fun e => .startTransmit e.1 e.2)) p = B.isOpen b p := by
  induction pairs generalizing b with
  | nil => rfl
  | cons e rest ih => rw [List.map_cons, run_cons, ih, apply, B.isOpen_startTransmit]

/-- Every request between open ports is granted. -/
theorem transmits_run_requests {b : B.State} {pairs : List (P × P)} {p q : P}
    (hp : B.isOpen b p = true) (hq : B.isOpen b q = true)
    (h : B.transmits b p q = true ∨ (p, q) ∈ pairs) :
    B.transmits (B.run b (pairs.map fun e => .startTransmit e.1 e.2)) p q = true := by
  induction pairs generalizing b with
  | nil => exact h.resolve_right List.not_mem_nil
  | cons e rest ih =>
      rw [List.map_cons, run_cons]
      apply ih
      · rwa [apply, B.isOpen_startTransmit]
      · rwa [apply, B.isOpen_startTransmit]
      · rw [apply, B.transmits_startTransmit]
        obtain hold | hnew := h
        · exact .inl (by rw [hold, Bool.true_or])
        obtain rfl | hrest := List.mem_cons.mp hnew
        · exact .inl (by simp [hp, hq])
        · exact .inr hrest

/-- Only ports that are on the bridge transmit, and to such ports only. -/
def OpenEnds (b : B.State) : Prop :=
  ∀ p q, B.transmits b p q = true → B.isOpen b p = true ∧ B.isOpen b q = true

theorem openEnds_start : B.OpenEnds B.start := by
  intro p q h
  rw [B.transmits_start] at h
  cases h

variable {B}

theorem OpenEnds.apply {b : B.State} (h : B.OpenEnds b) (op : BridgeOp P) :
    B.OpenEnds (B.apply b op) := by
  intro p q htransmits
  cases op with
  | addPort r =>
      rw [ConferenceBridge.apply, B.transmits_addPort] at htransmits
      obtain ⟨hp, hq⟩ := h p q (Bool.and_elim_left htransmits)
      rw [ConferenceBridge.apply, B.isOpen_addPort, B.isOpen_addPort, hp, hq]
      simp
  | removePort r =>
      rw [ConferenceBridge.apply, B.transmits_removePort, Bool.and_eq_true, Bool.not_eq_true',
        decide_eq_false_iff_not, not_or] at htransmits
      obtain ⟨hold, hpr, hqr⟩ := htransmits
      obtain ⟨hp, hq⟩ := h p q hold
      rw [ConferenceBridge.apply, B.isOpen_removePort, B.isOpen_removePort, hp, hq]
      simp [hpr, hqr]
  | startTransmit r s =>
      rw [ConferenceBridge.apply, B.transmits_startTransmit, Bool.or_eq_true] at htransmits
      rw [ConferenceBridge.apply, B.isOpen_startTransmit, B.isOpen_startTransmit]
      obtain hold | hnew := htransmits
      · exact h p q hold
      · simp only [Bool.and_eq_true, decide_eq_true_eq] at hnew
        obtain ⟨⟨⟨rfl, rfl⟩, hp⟩, hq⟩ := hnew
        exact ⟨hp, hq⟩
  | stopTransmit r s =>
      rw [ConferenceBridge.apply, B.transmits_stopTransmit] at htransmits
      rw [ConferenceBridge.apply, B.isOpen_stopTransmit, B.isOpen_stopTransmit]
      exact h p q (Bool.and_elim_left htransmits)

/-- Only open ports are connected, whatever was requested. -/
theorem OpenEnds.run {b : B.State} (h : B.OpenEnds b) (ops : List (BridgeOp P)) :
    B.OpenEnds (B.run b ops) := by
  induction ops generalizing b with
  | nil => exact h
  | cons op ops ih => exact ih (h.apply op)

/-! ## A bridge that lists its ports -/

/-- The ports and the transmissions as lists. -/
def listing (device : P) : ConferenceBridge P device where
  State := List P × List (P × P)
  start := ([device], [])
  isOpen b p := decide (p ∈ b.1)
  transmits b p q := decide ((p, q) ∈ b.2)
  addPort b r := (r :: b.1, b.2.filter fun e => !decide (e.1 = r ∨ e.2 = r))
  removePort b r :=
    (b.1.filter fun p => !decide (p = r), b.2.filter fun e => !decide (e.1 = r ∨ e.2 = r))
  startTransmit b r s := (b.1, if r ∈ b.1 ∧ s ∈ b.1 then (r, s) :: b.2 else b.2)
  stopTransmit b r s := (b.1, b.2.filter fun e => !decide (e.1 = r ∧ e.2 = s))
  isOpen_start p := by simp
  isOpen_addPort b r p := by simp
  isOpen_removePort b r p := by simp [and_comm]
  isOpen_startTransmit b r s p := rfl
  isOpen_stopTransmit b r s p := rfl
  transmits_start p q := by simp
  transmits_addPort b r p q := by simp
  transmits_removePort b r p q := by simp
  transmits_startTransmit b r s p q := by
    dsimp only
    split_ifs with hends
    · simp [hends, Bool.or_comm]
    · by_cases hr : r ∈ b.1 <;> simp_all
  transmits_stopTransmit b r s p q := by simp

end ConferenceBridge

end PjsuaMcp.Library
