import PjsuaMcp.Library.BoundedDeque
import PjsuaMcp.SipLog.Ownership

/-!
# The log writer

`SipLogWriter` receives the log of the library entry by entry and keeps the last
ones in a bounded deque. `get_entries` filters them by a text and returns the
end of what is left.

## Implementation notes

`write`, `clear` and the copy that `get_entries` takes hold the same lock, so
that the calls of a writer have an order.
-/

namespace PjsuaMcp.SipLog

open Sdp (Text)
open Library

/-- `pj.LogEntry`, as far as `write` reads it. -/
structure PjLogEntry where
  level : Int
  msg : Text
  threadName : Text
  deriving DecidableEq, Repr

/-- The dict that `get_entries` makes of an entry. -/
structure LogRow where
  level : Int
  msg : Text
  thread : Text
  deriving DecidableEq, Repr

def LogEntry.row (e : LogEntry) : LogRow where
  level := e.level
  msg := e.msg
  thread := e.threadName

/-- The entry that `write` keeps. -/
def PjLogEntry.logEntry (entry : PjLogEntry) : LogEntry where
  level := entry.level
  msg := entry.msg.rdropWhile (· = '\n')
  threadName := entry.threadName

structure SipLogWriter (maxEntries : Nat) where
  entries : BoundedDeque LogEntry maxEntries

namespace SipLogWriter

variable {maxEntries : Nat}

def init (maxEntries : Nat) : SipLogWriter maxEntries := ⟨.empty⟩

def write (w : SipLogWriter maxEntries) (entry : PjLogEntry) : SipLogWriter maxEntries :=
  { w with entries := w.entries.append entry.logEntry }

def clear (w : SipLogWriter maxEntries) : SipLogWriter maxEntries := { w with entries := .empty }

def getEntries (w : SipLogWriter maxEntries) (lastN : Option Int) (filterText : Option Text) :
    List LogRow :=
  let entries := w.entries.items
  let entries := (given filterText).elim entries fun text =>
    entries.filter fun e => text <:+: e.msg
  let entries := lastN.elim entries fun n => sliceFrom entries (-n)
  entries.map LogEntry.row

/-! ## Sequences of calls -/

inductive LogCall
  | write (entry : PjLogEntry)
  | clear
  deriving DecidableEq, Repr

def apply (w : SipLogWriter maxEntries) : LogCall → SipLogWriter maxEntries
  | .write entry => w.write entry
  | .clear => w.clear

def run (maxEntries : Nat) (calls : List LogCall) : SipLogWriter maxEntries :=
  calls.foldl apply (init maxEntries)

/-- What a call does to the deque. -/
def LogCall.op : LogCall → BoundedDeque.Op LogEntry
  | .write entry => .append entry.logEntry
  | .clear => .clear

/-- The entries written since the last clear. -/
def written (calls : List LogCall) : List LogEntry :=
  BoundedDeque.sinceClear (calls.map LogCall.op)

/-- The entries whose message contains the text; an empty text is in every message. -/
def containing (filterText : Option Text) (entries : List LogEntry) : List LogEntry :=
  entries.filter fun e => filterText.getD [] <:+: e.msg

/-- The entries with the text among the last `max_entries` written since the last clear. -/
def found (maxEntries : Nat) (calls : List LogCall) (filterText : Option Text) : List LogEntry :=
  containing filterText ((written calls).rtake maxEntries)

/-- The rows are the last `n` of the entries, or all of them where there are fewer. -/
structure AnswersLast (entries : List LogEntry) (n : Nat) (rows : List LogRow) : Prop where
  rows_eq : rows = (entries.rtake (min n entries.length)).map LogEntry.row
  length_le : rows.length ≤ n

/-- The deque of a writer goes through the operations of its calls. -/
theorem entries_run (maxEntries : Nat) (calls : List LogCall) :
    (run maxEntries calls).entries = BoundedDeque.run maxEntries (calls.map LogCall.op) := by
  induction calls using List.reverseRecOn with
  | nil => rfl
  | append_singleton calls call ih =>
      have hstep : run maxEntries (calls ++ [call]) = (run maxEntries calls).apply call := by
        rw [run, List.foldl_append]
        rfl
      rw [hstep, List.map_append, BoundedDeque.run, List.foldl_append, ← BoundedDeque.run, ← ih]
      cases call <;> rfl

/-- The filter of `get_entries` is the one of the specification. -/
theorem containing_eq (filterText : Option Text) (entries : List LogEntry) :
    containing filterText entries = (given filterText).elim entries fun text =>
      entries.filter fun e => text <:+: e.msg := by
  have hall : containing none entries = entries :=
    List.filter_eq_self.mpr fun e _ => decide_eq_true List.nil_infix
  cases filterText with
  | none => exact hall
  | some text =>
      cases text with
      | nil => exact hall
      | cons c text => rfl

/-- `get_entries` cuts the slice out of the entries that are found. -/
theorem getEntries_run (maxEntries : Nat) (calls : List LogCall) (lastN : Option Int)
    (filterText : Option Text) :
    (run maxEntries calls).getEntries lastN filterText =
      (lastN.elim (found maxEntries calls filterText) fun n =>
        sliceFrom (found maxEntries calls filterText) (-n)).map LogEntry.row := by
  have hitems : (run maxEntries calls).entries.items = (written calls).rtake maxEntries := by
    rw [entries_run, BoundedDeque.items_run, written]
  simp only [getEntries]
  rw [hitems, ← containing_eq, ← found]

/-- The last `n` entries that are found are returned unless `n` is zero and there are some. -/
theorem getEntries_answersLast_iff (maxEntries : Nat) (calls : List LogCall)
    (filterText : Option Text) (n : Nat) :
    AnswersLast (found maxEntries calls filterText) n
        ((run maxEntries calls).getEntries (some n) filterText) ↔
      0 < n ∨ found maxEntries calls filterText = [] := by
  rw [getEntries_run, Option.elim_some]
  generalize found maxEntries calls filterText = entries
  rcases Nat.eq_zero_or_pos n with rfl | hpos
  · rw [Int.natCast_zero, Int.neg_zero, sliceFrom_zero]
    constructor
    · intro h
      have hlen := h.length_le
      rw [List.length_map] at hlen
      exact .inr (List.length_eq_zero_iff.mp (Nat.le_zero.mp hlen))
    · rintro (hpos | rfl)
      · exact (Nat.lt_irrefl _ hpos).elim
      · exact ⟨rfl, Nat.le_refl _⟩
  · refine iff_of_true ?_ (.inl hpos)
    rw [sliceFrom_neg entries hpos]
    refine ⟨?_, ?_⟩
    · rw [rtake_min_length]
    · rw [List.length_map, length_rtake]
      exact Nat.min_le_left _ _

/-- An entry of the library, with the newline that ends it. -/
def registerEntry : PjLogEntry where
  level := 4
  msg := "REGISTER sip:example.com\n".toList
  threadName := "main".toList

/-- Asked for no entries, the writer returns all. -/
theorem getEntries_zero :
    ¬AnswersLast (found 5000 [.write registerEntry] none) 0
      ((run 5000 [.write registerEntry]).getEntries (some 0) none) := by
  intro h
  exact absurd h.length_le (by decide)

end SipLogWriter

end PjsuaMcp.SipLog
