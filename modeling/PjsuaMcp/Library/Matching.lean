import Mathlib.Tactic.Common

/-!
# Backtracking matchers

A matcher reads a prefix of its input. It returns every way to do so, each with
the value read and the input left over, in the order in which a backtracking
engine tries them. Patterns are built in monadic style, and `run` takes the
first way, which is the match that such an engine reports.

## Implementation notes

The membership lemmas describe all ways to match, not only the first one. What
holds of all of them holds of the reported match by `mem_of_run`.
-/

namespace PjsuaMcp.Library

/-- All ways to read a prefix of the input, best first. -/
def Matcher (τ α : Type) := List τ → List (α × List τ)

namespace Matcher

variable {τ α β : Type}

instance : Monad (Matcher τ) where
  pure a := fun input => [(a, input)]
  bind m k := fun input => (m input).flatMap fun r => k r.1 r.2

/-- The reported match. -/
def run (m : Matcher τ α) (input : List τ) : Option α := (m input).head?.map Prod.fst

/-- Exactly these tokens. -/
def lit [DecidableEq τ] (word : List τ) : Matcher τ Unit := fun input =>
  if word.isPrefixOf input then [((), input.drop word.length)] else []

/-- Tokens satisfying `p`, as many as possible, possibly none. -/
def many (p : τ → Bool) : Matcher τ (List τ)
  | [] => [([], [])]
  | c :: rest =>
      if p c then (many p rest).map (fun r => (c :: r.1, r.2)) ++ [([], c :: rest)]
      else [([], c :: rest)]

/-- Tokens satisfying `p`, as many as possible, at least one. -/
def many1 (p : τ → Bool) : Matcher τ (List τ)
  | [] => []
  | c :: rest => if p c then (many p rest).map (fun r => (c :: r.1, r.2)) else []

/-- The matcher if possible, otherwise nothing. -/
def opt (m : Matcher τ Unit) : Matcher τ Unit := fun input => m input ++ [((), input)]

/-- Read nothing, and require that the rest of the input satisfies `p`. -/
def ahead (p : List τ → Bool) : Matcher τ Unit := fun input => if p input then [((), input)] else []

/-! ## What a match says about the input -/

/-- What a run finds is one of the readings. -/
theorem mem_of_run {m : Matcher τ α} {input : List τ} {a : α} (h : m.run input = some a) :
    ∃ rest, (a, rest) ∈ m input := by
  obtain ⟨r, hr, rfl⟩ := Option.map_eq_some_iff.mp h
  exact ⟨r.2, List.mem_of_head? hr⟩

@[simp] theorem mem_pure {a b : α} {input rest : List τ} :
    (b, rest) ∈ (pure a : Matcher τ α) input ↔ b = a ∧ rest = input := by
  change (b, rest) ∈ [(a, input)] ↔ _
  rw [List.mem_singleton, Prod.mk.injEq]

/-- One pattern after the other. -/
@[simp] theorem mem_bind {m : Matcher τ α} {k : α → Matcher τ β} {b : β} {input rest : List τ} :
    (b, rest) ∈ (m >>= k) input ↔ ∃ a mid, (a, mid) ∈ m input ∧ (b, rest) ∈ k a mid := by
  change (b, rest) ∈ (m input).flatMap (fun r => k r.1 r.2) ↔ _
  rw [List.mem_flatMap, Prod.exists]

/-- A word is read as it stands. -/
@[simp] theorem mem_lit [DecidableEq τ] {word input rest : List τ} {u : Unit} :
    (u, rest) ∈ lit word input ↔ input = word ++ rest := by
  unfold lit
  split_ifs with h
  · obtain ⟨tail, rfl⟩ := List.isPrefixOf_iff_prefix.mp h
    simp [eq_comm]
  · refine iff_of_false List.not_mem_nil fun heq => h ?_
    exact List.isPrefixOf_iff_prefix.mpr ⟨rest, heq.symm⟩

/-- Any number of characters of a class. -/
@[simp] theorem mem_many {p : τ → Bool} {word input rest : List τ} :
    (word, rest) ∈ many p input ↔ input = word ++ rest ∧ ∀ c ∈ word, p c = true := by
  induction input generalizing word rest with
  | nil =>
      rw [many, List.mem_singleton, Prod.mk.injEq]
      constructor
      · rintro ⟨rfl, rfl⟩
        exact ⟨rfl, List.forall_mem_nil _⟩
      · rintro ⟨heq, -⟩
        exact List.append_eq_nil_iff.mp heq.symm
  | cons c input ih =>
      cases word with
      | nil =>
          have hmem : ([], rest) ∈ many p (c :: input) ↔ rest = c :: input := by
            by_cases hc : p c = true <;> simp [many, hc]
          rw [hmem, List.nil_append, eq_comm]
          exact (and_iff_left (List.forall_mem_nil _)).symm
      | cons d word =>
          by_cases hc : p c = true
          · have hmem : (d :: word, rest) ∈ many p (c :: input) ↔
                c = d ∧ (word, rest) ∈ many p input := by
              simp [many, hc, and_comm]
            rw [hmem, ih]
            constructor
            · rintro ⟨rfl, rfl, hall⟩
              exact ⟨rfl, List.forall_mem_cons.mpr ⟨hc, hall⟩⟩
            · rintro ⟨heq, hall⟩
              obtain ⟨rfl, rfl⟩ := List.cons.inj heq
              exact ⟨rfl, rfl, (List.forall_mem_cons.mp hall).2⟩
          · refine iff_of_false (by simp [many, hc]) ?_
            rintro ⟨heq, hall⟩
            obtain ⟨rfl, -⟩ := List.cons.inj heq
            exact hc (hall c List.mem_cons_self)

/-- One character of a class at least. -/
@[simp] theorem mem_many1 {p : τ → Bool} {word input rest : List τ} :
    (word, rest) ∈ many1 p input ↔
      input = word ++ rest ∧ word ≠ [] ∧ ∀ c ∈ word, p c = true := by
  cases input with
  | nil =>
      refine iff_of_false List.not_mem_nil ?_
      rintro ⟨heq, hne, -⟩
      exact hne (List.append_eq_nil_iff.mp heq.symm).1
  | cons c input =>
      have hmany : (word, rest) ∈ many1 p (c :: input) ↔
          word ≠ [] ∧ (word, rest) ∈ many p (c :: input) := by
        by_cases hc : p c = true
        · cases word <;> simp [many1, many, hc]
        · cases word <;> simp [many1, many, hc]
      rw [hmany, mem_many]
      exact and_left_comm

/-- A look ahead reads nothing. -/
@[simp] theorem mem_ahead {p : List τ → Bool} {input rest : List τ} {u : Unit} :
    (u, rest) ∈ ahead p input ↔ p input = true ∧ rest = input := by
  unfold ahead
  split_ifs with h <;> simp [h]

end Matcher

end PjsuaMcp.Library
