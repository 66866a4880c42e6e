import PjsuaMcp.SipLog.Metadata
import PjsuaMcp.Sdp.Rewriter

/-!
# Lines of a message

Both parsers of a logged message put `\n` in the place of `\r\n`, cut the text
at `\n` and strip the lines at their ends. A line is then the same with and
without a carriage return in front of its newline.
-/

namespace PjsuaMcp.SipLog

open Sdp (Text lf)
open Library

/-- `text.replace("\r\n", "\n")`. -/
def normalizeNewlines : Text → Text
  | '\r' :: '\n' :: rest => '\n' :: normalizeNewlines rest
  | c :: rest => c :: normalizeNewlines rest
  | [] => []

/-- `text.partition(sep)` for one character, without the separator itself. -/
def partition (sep : Char) (text : Text) : Text × Text :=
  (text.takeWhile (· ≠ sep), (text.dropWhile (· ≠ sep)).drop 1)

/-- `partition` cuts at the first separator. -/
theorem partition_append {sep : Char} {before : Text} (h : sep ∉ before) (after : Text) :
    partition sep (before ++ sep :: after) = (before, after) := by
  have hall : ∀ c ∈ before, decide (c ≠ sep) = true :=
    fun c hc => decide_eq_true (ne_of_mem_of_not_mem hc h)
  rw [partition, List.takeWhile_append_of_pos hall, List.dropWhile_append_of_pos hall]
  simp

/-- Nothing is stripped from a text without blanks. -/
theorem strip_eq_self {blank : Char → Bool} {text : Text} (h : ∀ c ∈ text, blank c = false) :
    (text.dropWhile blank).rdropWhile blank = text := by
  have hnone : ∀ c ∈ text, ¬blank c = true := by
    intro c hc
    rw [h c hc]
    exact Bool.false_ne_true
  have hleft : text.dropWhile blank = text := by
    rw [List.dropWhile_eq_self_iff]
    exact fun hlen => hnone _ (List.getElem_mem hlen)
  rw [hleft, List.rdropWhile_eq_self_iff]
  exact fun hne => hnone _ (List.getLast_mem hne)

/-- The same line, up to a carriage return at its end. -/
def SameLine (line line' : Text) : Prop := line = line' ∨ line' = line ++ ['\r']

namespace CharTables

variable (u : CharTables)

/-- `text.rstrip()`. -/
def rstrip (text : Text) : Text := text.rdropWhile u.isSpace

/-- What `int` strips: `str.strip` takes four ASCII separators more. -/
def isIntSpace (c : Char) : Bool := u.isSpace c && !decide ('\x1c' ≤ c ∧ c ≤ '\x1f')

/-- Groups of digits joined by underscores. -/
def natOf (text : Text) : Option Nat :=
  let groups := split ['_'] text
  if groups.all (fun group => !group.isEmpty && group.all u.isDigit) then u.int groups.flatten
  else none

/-- `int(text)`, `none` for a `ValueError`. -/
def intOf (text : Text) : Option Int :=
  match (text.dropWhile u.isIntSpace).rdropWhile u.isIntSpace with
  | '-' :: digits => (u.natOf digits).map fun n => -(n : Int)
  | '+' :: digits => (u.natOf digits).map Int.ofNat
  | digits => (u.natOf digits).map Int.ofNat

/-! ## Lines of a normalised text -/

/-- A carriage return at the end is stripped. -/
theorem rstrip_append_cr (line : Text) : u.rstrip (line ++ ['\r']) = u.rstrip line :=
  List.rdropWhile_concat_pos _ _ _ (u.space_of_mem '\r' (by decide))

theorem rstrip_eq_nil {text : Text} (h : ∀ c ∈ text, u.isSpace c = true) : u.rstrip text = [] :=
  List.rdropWhile_eq_nil_iff.mpr h

/-- Nothing is stripped in front of a character that is no blank. -/
theorem rstrip_append {before : Text} {c : Char} (hc : u.isSpace c = false) (after : Text) :
    u.rstrip (before ++ c :: after) = before ++ c :: u.rstrip after := by
  simp only [rstrip, List.rdropWhile, List.reverse_append, List.reverse_cons, List.append_assoc,
    List.dropWhile_append, List.dropWhile_cons]
  split_ifs with hempty hspace
  all_goals simp_all

variable {u}

/-- Lines that are the same but for a carriage return are stripped to the same text. -/
theorem rstrip_eq_of_sameLine {line line' : Text} (h : SameLine line line') :
    u.rstrip line = u.rstrip line' := by
  rcases h with rfl | rfl
  · rfl
  · exact (u.rstrip_append_cr line).symm

end CharTables

theorem SameLine.refl (line : Text) : SameLine line line := .inl rfl

theorem SameLine.cons {line line' : Text} (h : SameLine line line') (c : Char) :
    SameLine (c :: line) (c :: line') :=
  h.imp (congrArg _) (congrArg _)

theorem SameLine.prefix_iff {line line' start : Text} (h : SameLine line line')
    (hstart : '\r' ∉ start) : start <+: line ↔ start <+: line' := by
  rcases h with rfl | rfl
  · rfl
  · rw [List.prefix_concat_iff, or_iff_right]
    rintro rfl
    exact hstart (List.mem_append_right _ List.mem_cons_self)

theorem split_lf_newline (rest : Text) : split lf ('\n' :: rest) = [] :: split lf rest := rfl

theorem split_lf_cons {c : Char} (hc : c ≠ '\n') (rest : Text) :
    split lf (c :: rest) = (split lf rest).modifyHead (c :: ·) := by
  have hnot : ¬ lf.isPrefixOf (c :: rest) = true := by
    rw [List.isPrefixOf_iff_prefix]
    intro hbegins
    exact hc (List.cons_prefix_cons.mp hbegins).1.symm
  change (if lf.isPrefixOf (c :: rest) then _ else (split lf rest).modifyHead (c :: ·)) = _
  rw [if_neg hnot]

theorem forall₂_modifyHead {lines lines' : List Text} (h : List.Forall₂ SameLine lines lines')
    (c : Char) : List.Forall₂ SameLine (lines.modifyHead (c :: ·)) (lines'.modifyHead (c :: ·)) := by
  cases h with
  | nil => exact .nil
  | cons hhead htail => exact .cons (hhead.cons c) htail

/-- Normalising takes carriage returns away at the ends of lines only. -/
theorem split_normalizeNewlines (text : Text) :
    List.Forall₂ SameLine (split lf (normalizeNewlines text)) (split lf text) := by
  fun_induction normalizeNewlines text with
  | case1 rest ih =>
      have hcr : ('\r' : Char) ≠ '\n' := by decide
      rw [split_lf_newline, split_lf_cons hcr, split_lf_newline]
      exact .cons (.inr rfl) ih
  | case2 c rest hcrlf ih =>
      by_cases hc : c = '\n'
      · subst hc
        exact .cons (.refl _) ih
      · rw [split_lf_cons hc, split_lf_cons hc]
        exact forall₂_modifyHead ih c
  | case3 => exact .cons (.refl _) .nil

/-! ## Numerals -/

/-- Tables that know the digits of ASCII. -/
structure DigitTables extends tables : CharTables where
  isDigit_ascii : ∀ c : Char, c.isDigit = true → isDigit c = true
  digitValue_ascii : ∀ c : Char, c.isDigit = true → digitValue c = c.toNat - '0'.toNat

def DigitTables.ascii : DigitTables where
  tables := CharTables.ascii
  isDigit_ascii _ h := h
  digitValue_ascii _ _ := rfl

namespace DigitTables

variable (u : DigitTables)

theorem number_eq_ofDigitChars {digits : Text} (h : ∀ c ∈ digits, c.isDigit = true) :
    u.number digits = Nat.ofDigitChars 10 digits 0 := by
  rw [CharTables.number, Nat.ofDigitChars_eq_foldl]
  refine List.foldl_ext _ _ 0 fun n c hc => ?_
  rw [u.digitValue_ascii c (h c hc)]

/-- A printed number is read back unless it has too many digits. -/
theorem natOf_toDigits (n : Nat) : u.natOf (Nat.toDigits 10 n) =
    if (Nat.toDigits 10 n).length ≤ 4300 then some n else none := by
  have hdigits : ∀ c ∈ Nat.toDigits 10 n, c.isDigit = true :=
    fun c hc => Nat.isDigit_of_mem_toDigits (by decide) (by decide) hc
  have hone : split ['_'] (Nat.toDigits 10 n) = [Nat.toDigits 10 n] := by
    refine split_of_free ?_
    rw [List.singleton_infix_iff]
    exact Nat.underscore_not_in_toDigits
  have hall : (Nat.toDigits 10 n).all u.isDigit = true :=
    List.all_eq_true.mpr fun c hc => u.isDigit_ascii c (hdigits c hc)
  have hnumber : u.number (Nat.toDigits 10 n) = n := by
    rw [u.number_eq_ofDigitChars hdigits, Nat.ofDigitChars_ten_toDigits]
  simp [CharTables.natOf, CharTables.int, hone, hall, hnumber, Nat.toDigits_ne_nil]

/-- `int()` reads a written number back, up to 4300 digits. -/
theorem intOf_toDigits (n : Nat) : u.intOf (Nat.toDigits 10 n) =
    if (Nat.toDigits 10 n).length ≤ 4300 then some (n : Int) else none := by
  have hdigits : ∀ c ∈ Nat.toDigits 10 n, c.isDigit = true :=
    fun c hc => Nat.isDigit_of_mem_toDigits (by decide) (by decide) hc
  have hblank : ∀ c ∈ Nat.toDigits 10 n, u.isIntSpace c = false := by
    intro c hc
    have hword := u.word_of_digit c (u.isDigit_ascii c (hdigits c hc))
    rw [CharTables.isIntSpace, u.not_space_of_word c hword, Bool.false_and]
  have hstrip : ((Nat.toDigits 10 n).dropWhile u.isIntSpace).rdropWhile u.isIntSpace =
      Nat.toDigits 10 n := strip_eq_self hblank
  have hread : u.intOf (Nat.toDigits 10 n) = (u.natOf (Nat.toDigits 10 n)).map Int.ofNat := by
    rw [CharTables.intOf, hstrip]
    -- A digit is no sign.
    split
    · next digits heq =>
        have hminus := hdigits '-' (heq ▸ List.mem_cons_self)
        cases hminus
    · next digits heq =>
        have hplus := hdigits '+' (heq ▸ List.mem_cons_self)
        cases hplus
    · rfl
  rw [hread, u.natOf_toDigits]
  split_ifs <;> rfl

end DigitTables

end PjsuaMcp.SipLog
