import Mathlib.Data.List.DropRight
import Mathlib.Tactic.Common

/-!
# Bounded deques

A deque with a limit lets go of its leftmost element when an append at the right
makes it too long. After any sequence of appends and clears it holds the end of
what has been appended since the last clear.

## Implementation notes

`sliceFrom` is the slice `l[i:]`, whose start counts from the right when it is
negative. There is no negative zero, so `l[-n:]` is the end of length `n` for
positive `n` only.
-/

namespace PjsuaMcp.Library

variable {α : Type*}

/-! ## Ends of a list -/

theorem rtake_of_length_le {l : List α} {n : Nat} (h : l.length ≤ n) : l.rtake n = l := by
  rw [List.rtake, Nat.sub_eq_zero_of_le h, List.drop_zero]

theorem length_rtake (l : List α) (n : Nat) : (l.rtake n).length = min n l.length := by
  rw [List.rtake, List.length_drop]
  omega

/-- Taking more than there is takes everything. -/
theorem rtake_min_length (l : List α) (n : Nat) : l.rtake (min n l.length) = l.rtake n := by
  rw [List.rtake, List.rtake]
  congr 1
  omega

/-- Elements that do not fit have no influence on later ends. -/
theorem rtake_rtake_append (l : List α) (n : Nat) (x : α) :
    (l.rtake n ++ [x]).rtake n = (l ++ [x]).rtake n := by
  cases n with
  | zero => rw [List.rtake_zero, List.rtake_zero]
  | succ n =>
      rw [List.rtake_concat_succ, List.rtake_concat_succ]
      congr 1
      rw [List.rtake_eq_reverse_take_reverse, List.rtake_eq_reverse_take_reverse,
        List.rtake_eq_reverse_take_reverse, List.reverse_reverse, List.take_take,
        Nat.min_eq_left (Nat.le_succ n)]

/-- `l[i:]`. -/
def sliceFrom (l : List α) (i : Int) : List α :=
  if i < 0 then l.drop (l.length - i.natAbs) else l.drop i.toNat

theorem sliceFrom_zero (l : List α) : sliceFrom l 0 = l := rfl

/-- A negative index counts from the end. -/
theorem sliceFrom_neg (l : List α) {n : Nat} (h : 0 < n) : sliceFrom l (-n) = l.rtake n := by
  rw [sliceFrom, if_pos (by omega), Int.natAbs_neg, Int.natAbs_natCast, List.rtake]

/-- `l[-last_n:]`, when `last_n` is given. -/
def lastOf (lastN : Option Int) (l : List α) : List α := lastN.elim l fun n => sliceFrom l (-n)

theorem lastOf_nil (lastN : Option Int) : lastOf lastN ([] : List α) = [] := by
  cases lastN with
  | none => rfl
  | some n =>
      rw [lastOf, Option.elim_some, sliceFrom]
      split_ifs <;> exact List.drop_nil

/-- Nothing else is handed out than what is there. -/
theorem mem_of_mem_lastOf {lastN : Option Int} {l : List α} {x : α} (h : x ∈ lastOf lastN l) :
    x ∈ l := by
  cases lastN with
  | none => exact h
  | some n =>
      rw [lastOf, Option.elim_some, sliceFrom] at h
      split_ifs at h <;> exact List.mem_of_mem_drop h

/-! ## The deque -/

structure BoundedDeque (α : Type*) (maxlen : Nat) where
  items : List α
  bounded : items.length ≤ maxlen

namespace BoundedDeque

variable {maxlen : Nat}

def empty : BoundedDeque α maxlen := ⟨[], Nat.zero_le maxlen⟩

/-- The new element joins at the right; when the deque is full, the leftmost one leaves. -/
def append (q : BoundedDeque α maxlen) (x : α) : BoundedDeque α maxlen where
  items := if q.items.length < maxlen then q.items ++ [x] else (q.items ++ [x]).tail
  bounded := by
    have hbounded := q.bounded
    split_ifs with hroom
    · rw [List.length_append, List.length_singleton]
      exact hroom
    · rw [List.length_tail, List.length_append, List.length_singleton, Nat.add_sub_cancel]
      exact hbounded

/-- Appending drops the oldest item once the deque is full. -/
theorem items_append (q : BoundedDeque α maxlen) (x : α) :
    (q.append x).items = (q.items ++ [x]).rtake maxlen := by
  have hbounded := q.bounded
  rw [append]
  split_ifs with hroom
  · refine (rtake_of_length_le ?_).symm
    rw [List.length_append, List.length_singleton]
    exact hroom
  · have hfull : q.items.length = maxlen := by omega
    have hone : (q.items ++ [x]).length - maxlen = 1 := by
      rw [List.length_append, List.length_singleton]
      omega
    rw [List.rtake, hone, List.drop_one]

/-! ## Runs -/

inductive Op (α : Type*)
  | append (x : α)
  | clear

/-- What an operation appends. -/
def Op.value? : Op α → Option α
  | .append x => some x
  | .clear => none

def apply (q : BoundedDeque α maxlen) : Op α → BoundedDeque α maxlen
  | .append x => q.append x
  | .clear => empty

def run (maxlen : Nat) (ops : List (Op α)) : BoundedDeque α maxlen := ops.foldl apply empty

/-- What has been appended since the last clear. -/
def sinceClear (ops : List (Op α)) : List α :=
  (ops.rtakeWhile fun op => op.value?.isSome).filterMap Op.value?

theorem sinceClear_append (ops : List (Op α)) (x : α) :
    sinceClear (ops ++ [.append x]) = sinceClear ops ++ [x] := by
  rw [sinceClear, List.rtakeWhile_concat_pos _ _ _ rfl, List.filterMap_append]
  rfl

theorem sinceClear_clear (ops : List (Op α)) : sinceClear (ops ++ [.clear]) = [] := by
  rw [sinceClear, List.rtakeWhile_concat_neg _ _ _ Bool.false_ne_true]
  rfl

/-- The deque holds the end of what has been appended since the last clear. -/
theorem items_run (maxlen : Nat) (ops : List (Op α)) :
    (run maxlen ops).items = (sinceClear ops).rtake maxlen := by
  induction ops using List.reverseRecOn with
  | nil => exact (List.rtake_nil maxlen).symm
  | append_singleton ops op ih =>
      have hstep : run maxlen (ops ++ [op]) = (run maxlen ops).apply op := by
        rw [run, List.foldl_append]
        rfl
      rw [hstep]
      cases op with
      | append x =>
          rw [apply, items_append, ih, rtake_rtake_append, sinceClear_append]
      | clear =>
          rw [apply, sinceClear_clear, List.rtake_nil]
          rfl

end BoundedDeque

end PjsuaMcp.Library
