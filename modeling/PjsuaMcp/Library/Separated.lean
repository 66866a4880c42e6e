import Mathlib.Data.List.Basic
import Mathlib.Data.List.Infix

/-!
# Lists cut at separators

`split sep` cuts a list at the non-overlapping occurrences of `sep`, from the
left. Joining pieces that do not contain the separator and cutting the result
again gives the pieces back, provided the separator does not overlap itself.
`words p` cuts at every run of entries satisfying `p` and drops empty pieces.

## Implementation notes

The first argument of `splitFrom` counts the entries of an occurrence that are
still to be skipped, so that the recursion is structural.
-/

namespace PjsuaMcp.Library

variable {α : Type*}

/-! ## Cutting at a separator -/

/-- No proper nonempty end of the separator is also a beginning of it. -/
def Borderless (sep : List α) : Prop :=
  ∀ border, border ≠ [] → border <:+ sep → border <+: sep → border = sep

theorem borderless_singleton (c : α) : Borderless [c] := by
  intro border hne hend _
  rw [List.suffix_cons_iff, List.suffix_nil] at hend
  exact hend.resolve_right hne

/-- The separator does not begin inside a piece that does not contain it. -/
theorem not_prefix_of_free {sep piece rest : List α} (hborder : Borderless sep)
    (hfree : ¬ sep <:+: piece) (hne : piece ≠ []) : ¬ sep <+: piece ++ sep ++ rest := by
  intro hbegins
  by_cases hlen : sep.length ≤ piece.length
  · have hin : sep <+: piece := by
      refine List.prefix_of_prefix_length_le hbegins ?_ hlen
      rw [List.append_assoc]
      exact List.prefix_append _ _
    exact hfree hin.isInfix
  · have hin : piece <+: sep := by
      refine List.prefix_of_prefix_length_le ?_ hbegins (by omega)
      rw [List.append_assoc]
      exact List.prefix_append _ _
    obtain ⟨border, rfl⟩ := hin
    have hlonger : border ≠ [] := by
      rintro rfl
      rw [List.append_nil] at hlen
      omega
    rw [List.append_assoc, List.prefix_append_right_inj] at hbegins
    have hbegin : border <+: piece ++ border := by
      refine List.prefix_of_prefix_length_le hbegins (List.prefix_append _ _) ?_
      rw [List.length_append]
      omega
    have heq := congrArg List.length (hborder border hlonger (List.suffix_append _ _) hbegin)
    rw [List.length_append] at heq
    exact hne (List.length_eq_zero_iff.mp (by omega))

theorem intercalate_modifyHead (sep : List α) (c : α) {pieces : List (List α)} (hne : pieces ≠ []) :
    sep.intercalate (pieces.modifyHead (c :: ·)) = c :: sep.intercalate pieces := by
  obtain ⟨head, tail, rfl⟩ := List.exists_cons_of_ne_nil hne
  rw [List.modifyHead_cons]
  cases tail with
  | nil => rw [List.intercalate_singleton, List.intercalate_singleton]
  | cons next tail =>
      rw [List.intercalate_cons_cons, List.intercalate_cons_cons, List.cons_append, List.cons_append]

/-- One more piece at the end. -/
theorem intercalate_concat {sep : List α} {pieces : List (List α)} (hne : pieces ≠ [])
    (last : List α) : sep.intercalate (pieces ++ [last]) = sep.intercalate pieces ++ sep ++ last := by
  induction pieces with
  | nil => exact (hne rfl).elim
  | cons piece pieces ih =>
      cases pieces with
      | nil => simp
      | cons next pieces =>
          have hrest := ih (List.cons_ne_nil _ _)
          rw [List.cons_append] at hrest
          rw [List.cons_append, List.cons_append, List.intercalate_cons_cons, hrest,
            List.intercalate_cons_cons, List.append_assoc, List.append_assoc, List.append_assoc,
            List.append_assoc, List.append_assoc]

theorem map_intercalate {β : Type*} (f : α → β) (sep : List α) (pieces : List (List α)) :
    (sep.intercalate pieces).map f = (sep.map f).intercalate (pieces.map (List.map f)) := by
  induction pieces with
  | nil => rfl
  | cons piece pieces ih =>
      cases pieces with
      | nil => rw [List.intercalate_singleton, List.map_singleton, List.intercalate_singleton]
      | cons next pieces =>
          rw [List.intercalate_cons_cons, List.map_append, List.map_append, ih, List.map_cons,
            List.map_cons, List.map_cons, List.intercalate_cons_cons]

theorem infix_intercalate_of_mem (sep : List α) {pieces : List (List α)} {piece : List α}
    (h : piece ∈ pieces) : piece <:+: sep.intercalate pieces := by
  induction pieces with
  | nil => cases h
  | cons head tail ih =>
      cases tail with
      | nil =>
          obtain rfl := List.mem_singleton.mp h
          rw [List.intercalate_singleton]
      | cons next tail =>
          rw [List.intercalate_cons_cons, List.append_assoc]
          rcases List.mem_cons.mp h with rfl | htail
          · exact (List.prefix_append _ _).isInfix
          · exact (ih htail).trans ((List.suffix_append _ _).trans (List.suffix_append _ _)).isInfix

section Split

variable [DecidableEq α]

def splitFrom (sep : List α) : Nat → List α → List (List α)
  | _, [] => [[]]
  | skip + 1, _ :: rest => splitFrom sep skip rest
  | 0, c :: rest =>
      if sep.isPrefixOf (c :: rest) then [] :: splitFrom sep (sep.length - 1) rest
      else (splitFrom sep 0 rest).modifyHead (c :: ·)

/-- Cut at the occurrences of `sep`, from the left. -/
def split (sep l : List α) : List (List α) := splitFrom sep 0 l

theorem splitFrom_skip (sep : List α) {skip rest : List α} :
    splitFrom sep skip.length (skip ++ rest) = splitFrom sep 0 rest := by
  induction skip with
  | nil => rfl
  | cons c skip ih => exact ih

/-- A piece that is free of the separator is split off. -/
theorem split_append {sep piece : List α} (hsep : sep ≠ []) (hborder : Borderless sep)
    (hfree : ¬ sep <:+: piece) (rest : List α) :
    split sep (piece ++ sep ++ rest) = piece :: split sep rest := by
  induction piece with
  | nil =>
      cases sep with
      | nil => exact (hsep rfl).elim
      | cons c tail =>
          have hhere : (c :: tail).isPrefixOf (c :: tail ++ rest) = true :=
            List.isPrefixOf_iff_prefix.mpr (List.prefix_append _ _)
          change (if (c :: tail).isPrefixOf (c :: tail ++ rest) then
            [] :: splitFrom (c :: tail) tail.length (tail ++ rest) else _) = _
          rw [if_pos hhere, splitFrom_skip]
          rfl
  | cons c piece ih =>
      have hnot : ¬ sep.isPrefixOf (c :: (piece ++ sep ++ rest)) = true := by
        rw [List.isPrefixOf_iff_prefix]
        have hne : c :: piece ≠ [] := List.cons_ne_nil _ _
        exact not_prefix_of_free hborder hfree hne
      have hrest := ih fun hin => hfree (List.infix_cons hin)
      change (if sep.isPrefixOf (c :: (piece ++ sep ++ rest)) then _ else
        (split sep (piece ++ sep ++ rest)).modifyHead (c :: ·)) = _
      rw [if_neg hnot, hrest, List.modifyHead_cons]

/-- Without a separator there is one piece. -/
theorem split_of_free {sep piece : List α} (hfree : ¬ sep <:+: piece) : split sep piece = [piece] := by
  induction piece with
  | nil => rfl
  | cons c piece ih =>
      have hnot : ¬ sep.isPrefixOf (c :: piece) = true := by
        rw [List.isPrefixOf_iff_prefix]
        exact fun hbegins => hfree hbegins.isInfix
      have hrest := ih fun hin => hfree (List.infix_cons hin)
      change (if sep.isPrefixOf (c :: piece) then _ else
        (split sep piece).modifyHead (c :: ·)) = _
      rw [if_neg hnot, hrest, List.modifyHead_cons]

/-- Cutting takes a join apart. -/
theorem split_intercalate {sep : List α} (hsep : sep ≠ []) (hborder : Borderless sep)
    {pieces : List (List α)} (hne : pieces ≠ []) (hfree : ∀ piece ∈ pieces, ¬ sep <:+: piece) :
    split sep (sep.intercalate pieces) = pieces := by
  induction pieces with
  | nil => exact (hne rfl).elim
  | cons piece pieces ih =>
      obtain ⟨hhead, htail⟩ := List.forall_mem_cons.mp hfree
      cases pieces with
      | nil => rw [List.intercalate_singleton, split_of_free hhead]
      | cons next pieces =>
          rw [List.intercalate_cons_cons, split_append hsep hborder hhead,
            ih (List.cons_ne_nil _ _) htail]

theorem split_intercalate_singleton {c : α} {pieces : List (List α)} (hne : pieces ≠ [])
    (hfree : ∀ piece ∈ pieces, c ∉ piece) : split [c] ([c].intercalate pieces) = pieces := by
  refine split_intercalate (List.cons_ne_nil _ _) (borderless_singleton c) hne fun piece hpiece => ?_
  rw [List.singleton_infix_iff]
  exact hfree piece hpiece

theorem splitFrom_eq_cons (sep : List α) (skip : Nat) (l : List α) :
    ∃ head tail, splitFrom sep skip l = head :: tail := by
  induction l generalizing skip with
  | nil => exact ⟨[], [], rfl⟩
  | cons c rest ih =>
      cases skip with
      | succ skip => exact ih skip
      | zero =>
          obtain ⟨head, tail, h⟩ := ih 0
          simp only [splitFrom]
          split_ifs
          · exact ⟨_, _, rfl⟩
          · exact ⟨c :: head, tail, by rw [h, List.modifyHead_cons]⟩

/-- The first piece is a beginning of the list. -/
theorem head_split_begins {sep l head : List α} {tail : List (List α)}
    (h : splitFrom sep 0 l = head :: tail) : head <+: l := by
  induction l generalizing head tail with
  | nil =>
      cases h
      exact List.prefix_refl _
  | cons c rest ih =>
      simp only [splitFrom] at h
      split_ifs at h
      · cases h
        exact List.nil_prefix
      · obtain ⟨head', tail', hrest⟩ := splitFrom_eq_cons sep 0 rest
        rw [hrest, List.modifyHead_cons] at h
        cases h
        exact (List.prefix_cons_inj c).mpr (ih hrest)

/-- No piece contains the separator. -/
theorem free_of_mem_splitFrom {sep : List α} (hsep : sep ≠ []) {skip : Nat} {l piece : List α}
    (h : piece ∈ splitFrom sep skip l) : ¬ sep <:+: piece := by
  have hnil : ¬ sep <:+: [] := fun hin => hsep (List.infix_nil.mp hin)
  induction l generalizing skip piece with
  | nil =>
      rw [splitFrom, List.mem_singleton] at h
      exact h ▸ hnil
  | cons c rest ih =>
      cases skip with
      | succ skip => exact ih h
      | zero =>
          simp only [splitFrom] at h
          split_ifs at h with hhere
          · rcases List.mem_cons.mp h with rfl | htail
            · exact hnil
            · exact ih htail
          · obtain ⟨head, tail, hrest⟩ := splitFrom_eq_cons sep 0 rest
            rw [hrest, List.modifyHead_cons] at h
            have hmem : ∀ q ∈ head :: tail, ¬ sep <:+: q := fun q hq => ih (hrest ▸ hq)
            obtain ⟨hhead, htail⟩ := List.forall_mem_cons.mp hmem
            rcases List.mem_cons.mp h with rfl | hpiece
            · rw [List.infix_cons_iff]
              rintro (hbegins | hin)
              · refine hhere (List.isPrefixOf_iff_prefix.mpr (hbegins.trans ?_))
                exact (List.prefix_cons_inj c).mpr (head_split_begins hrest)
              · exact hhead hin
            · exact htail piece hpiece

theorem free_of_mem_split {sep : List α} (hsep : sep ≠ []) {l piece : List α}
    (h : piece ∈ split sep l) : ¬ sep <:+: piece :=
  free_of_mem_splitFrom hsep h

/-- Joining the pieces gives the text back. -/
theorem intercalate_splitFrom {sep : List α} (hsep : sep ≠ []) (skip : Nat) (l : List α) :
    sep.intercalate (splitFrom sep skip l) = l.drop skip := by
  induction l generalizing skip with
  | nil => rw [splitFrom, List.intercalate_singleton, List.drop_nil]
  | cons c rest ih =>
      cases skip with
      | succ skip => exact ih skip
      | zero =>
          simp only [splitFrom, List.drop_zero]
          obtain ⟨first, tail, rfl⟩ := List.exists_cons_of_ne_nil hsep
          split_ifs with hhere
          · obtain ⟨after, hafter⟩ := List.isPrefixOf_iff_prefix.mp hhere
            obtain ⟨next, others, hnext⟩ := splitFrom_eq_cons (first :: tail) tail.length rest
            have hrest := ih tail.length
            rw [List.length_cons, Nat.add_sub_cancel, hnext, List.intercalate_cons_cons, ← hnext,
              hrest, List.nil_append, ← hafter]
            obtain ⟨-, rfl⟩ := List.cons.inj hafter
            exact congrArg _ List.drop_left
          · obtain ⟨next, others, hnext⟩ := splitFrom_eq_cons (first :: tail) 0 rest
            rw [intercalate_modifyHead _ _ (hnext ▸ List.cons_ne_nil _ _), ih 0, List.drop_zero]

/-- Joining puts the pieces together again. -/
theorem intercalate_split {sep : List α} (hsep : sep ≠ []) (l : List α) :
    sep.intercalate (split sep l) = l :=
  intercalate_splitFrom hsep 0 l

theorem infix_of_mem_split {sep : List α} (hsep : sep ≠ []) {l piece : List α}
    (h : piece ∈ split sep l) : piece <:+: l := by
  have hin := infix_intercalate_of_mem sep h
  rwa [intercalate_split hsep] at hin

/-! ## The first and the last occurrence -/

/-- What lies in front of the first occurrence of `sep`, and what behind it. -/
def cutFirst (sep : List α) : List α → Option (List α × List α)
  | [] => if sep.isPrefixOf [] then some ([], []) else none
  | c :: rest =>
      if sep.isPrefixOf (c :: rest) then some ([], (c :: rest).drop sep.length)
      else (cutFirst sep rest).map fun r => (c :: r.1, r.2)

/-- What lies in front of the last occurrence of `sep`. -/
def beforeLast (sep : List α) : List α → Option (List α)
  | [] => if sep.isPrefixOf [] then some [] else none
  | c :: rest =>
      match beforeLast sep rest with
      | some before => some (c :: before)
      | none => if sep.isPrefixOf (c :: rest) then some [] else none

/-- An occurrence is the first one when there is none that ends earlier. -/
theorem cutFirst_append {sep before : List α} (hsep : sep ≠ [])
    (hfirst : ¬ sep <:+: before ++ sep.dropLast) (after : List α) :
    cutFirst sep (before ++ (sep ++ after)) = some (before, after) := by
  induction before with
  | nil =>
      have hhere : sep.isPrefixOf (sep ++ after) = true :=
        List.isPrefixOf_iff_prefix.mpr (List.prefix_append _ _)
      obtain ⟨c, tail, rfl⟩ := List.exists_cons_of_ne_nil hsep
      rw [List.nil_append, List.cons_append, cutFirst, ← List.cons_append, if_pos hhere,
        List.drop_left]
  | cons c before ih =>
      have hnot : ¬ sep.isPrefixOf (c :: (before ++ (sep ++ after))) = true := by
        rw [List.isPrefixOf_iff_prefix]
        intro hbegins
        refine hfirst (List.IsPrefix.isInfix ?_)
        refine List.prefix_of_prefix_length_le hbegins ?_ ?_
        · rw [List.cons_append, List.prefix_cons_inj, List.prefix_append_right_inj]
          exact (List.dropLast_prefix sep).trans (List.prefix_append _ _)
        · rw [List.length_append, List.length_cons, List.length_dropLast]
          omega
      rw [List.cons_append, cutFirst, if_neg hnot, ih fun hin => hfirst (List.infix_cons hin)]
      rfl

theorem beforeLast_eq_none {sep l : List α} (h : ¬ sep <:+: l) : beforeLast sep l = none := by
  induction l with
  | nil =>
      rw [beforeLast, if_neg]
      rw [List.isPrefixOf_iff_prefix]
      exact fun hbegins => h hbegins.isInfix
  | cons c rest ih =>
      rw [beforeLast, ih fun hin => h (List.infix_cons hin)]
      refine if_neg ?_
      rw [List.isPrefixOf_iff_prefix]
      exact fun hbegins => h hbegins.isInfix

/-- An occurrence is the last one when there is none that begins later. -/
theorem beforeLast_append {sep after : List α} (hsep : sep ≠ [])
    (hlast : ¬ sep <:+: sep.tail ++ after) (before : List α) :
    beforeLast sep (before ++ (sep ++ after)) = some before := by
  induction before with
  | nil =>
      have hhere : sep.isPrefixOf (sep ++ after) = true :=
        List.isPrefixOf_iff_prefix.mpr (List.prefix_append _ _)
      obtain ⟨c, tail, rfl⟩ := List.exists_cons_of_ne_nil hsep
      rw [List.nil_append, List.cons_append, beforeLast, ← List.cons_append, if_pos hhere]
      rw [List.tail_cons] at hlast
      rw [beforeLast_eq_none hlast]
  | cons c before ih => rw [List.cons_append, beforeLast, ih]

end Split

theorem mem_of_mem_intercalate {sep : List α} {pieces : List (List α)} {c : α}
    (h : c ∈ sep.intercalate pieces) : c ∈ sep ∨ ∃ piece ∈ pieces, c ∈ piece := by
  induction pieces with
  | nil => cases h
  | cons piece pieces ih =>
      cases pieces with
      | nil =>
          rw [List.intercalate_singleton] at h
          exact .inr ⟨piece, List.mem_cons_self, h⟩
      | cons next pieces =>
          rw [List.intercalate_cons_cons, List.append_assoc, List.mem_append, List.mem_append] at h
          rcases h with hpiece | hsep | hrest
          · exact .inr ⟨piece, List.mem_cons_self, hpiece⟩
          · exact .inl hsep
          · rcases ih hrest with hsep | ⟨q, hq, hc⟩
            · exact .inl hsep
            · exact .inr ⟨q, List.mem_cons_of_mem _ hq, hc⟩

/-! ## Words -/

/-- The maximal runs of entries that do not satisfy `p`. -/
def words (p : α → Bool) (l : List α) : List (List α) :=
  (l.splitOnP p).filter fun word => !word.isEmpty

variable {p : α → Bool}

@[simp] theorem words_nil : words p [] = [] := by
  simp [words, List.splitOnP_nil]

/-- A separating entry cuts the list. -/
theorem words_append_cons {c : α} (hc : p c = true) (l rest : List α) :
    words p (l ++ c :: rest) = words p l ++ words p rest := by
  rw [words, List.splitOnP_append_cons l rest hc, List.filter_append, words, words]

theorem words_of_word {word : List α} (hne : word ≠ []) (hword : ∀ c ∈ word, p c = false) :
    words p word = [word] := by
  rw [words, List.splitOnP_eq_singleton hword, List.filter_cons_of_pos]
  · rfl
  · simpa using hne

/-- Separating entries in front are skipped. -/
theorem words_gap_append {gap : List α} (hgap : ∀ c ∈ gap, p c = true) (rest : List α) :
    words p (gap ++ rest) = words p rest := by
  induction gap with
  | nil => rfl
  | cons c gap ih =>
      obtain ⟨hc, htail⟩ := List.forall_mem_cons.mp hgap
      calc words p ([] ++ c :: (gap ++ rest))
        _ = words p [] ++ words p (gap ++ rest) := words_append_cons hc [] _
        _ = words p rest := by rw [words_nil, List.nil_append, ih htail]

/-- A word and the gap after it. -/
theorem words_append_gap {word gap : List α} (hne : word ≠ []) (hword : ∀ c ∈ word, p c = false)
    (hgapne : gap ≠ []) (hgap : ∀ c ∈ gap, p c = true) (rest : List α) :
    words p (word ++ gap ++ rest) = word :: words p rest := by
  obtain ⟨c, gap, rfl⟩ := List.exists_cons_of_ne_nil hgapne
  obtain ⟨hc, htail⟩ := List.forall_mem_cons.mp hgap
  rw [List.append_assoc, List.cons_append, words_append_cons hc, words_of_word hne hword,
    words_gap_append htail, List.singleton_append]

/-- Separating entries at the end add no word. -/
theorem words_append_trailing {gap : List α} (hgap : ∀ c ∈ gap, p c = true) (l : List α) :
    words p (l ++ gap) = words p l := by
  cases gap with
  | nil => rw [List.append_nil]
  | cons c gap =>
      obtain ⟨hc, htail⟩ := List.forall_mem_cons.mp hgap
      have hnone : words p gap = [] := by
        rw [← List.append_nil gap, words_gap_append htail, words_nil]
      rw [words_append_cons hc, hnone, List.append_nil]

/-- Words joined by one separating entry are the words of the join. -/
theorem words_intercalate {c : α} (hc : p c = true) {pieces : List (List α)}
    (hpieces : ∀ word ∈ pieces, word ≠ [] ∧ ∀ d ∈ word, p d = false) :
    words p ([c].intercalate pieces) = pieces := by
  induction pieces with
  | nil => rw [List.intercalate_nil, words_nil]
  | cons word pieces ih =>
      obtain ⟨⟨hne, hword⟩, htail⟩ := List.forall_mem_cons.mp hpieces
      cases pieces with
      | nil => rw [List.intercalate_singleton, words_of_word hne hword]
      | cons next pieces =>
          rw [List.intercalate_cons_cons, words_append_gap hne hword (List.cons_ne_nil _ _)
            (by simpa using hc), ih htail]

theorem mem_splitOnP {l word : List α} (h : word ∈ l.splitOnP p) : ∀ c ∈ word, p c = false := by
  induction l generalizing word with
  | nil =>
      rw [List.splitOnP_nil, List.mem_singleton] at h
      subst h
      exact List.forall_mem_nil _
  | cons c l ih =>
      obtain ⟨head, tail, hl⟩ := List.exists_cons_of_ne_nil (List.splitOnP_ne_nil p l)
      have hmem : ∀ q ∈ head :: tail, ∀ d ∈ q, p d = false := fun q hq => ih (hl ▸ hq)
      obtain ⟨hhead, htail⟩ := List.forall_mem_cons.mp hmem
      rw [List.splitOnP_cons_eq_if_modifyHead, hl] at h
      split_ifs at h with hc
      · rcases List.mem_cons.mp h with rfl | hword
        · exact List.forall_mem_nil _
        · exact hmem word hword
      · rw [List.modifyHead_cons] at h
        rcases List.mem_cons.mp h with rfl | hword
        · exact List.forall_mem_cons.mpr ⟨Bool.eq_false_iff.mpr hc, hhead⟩
        · exact htail word hword

theorem mem_words {l word : List α} (h : word ∈ words p l) :
    word ≠ [] ∧ ∀ c ∈ word, p c = false := by
  obtain ⟨hword, hne⟩ := List.mem_filter.mp h
  exact ⟨by simpa using hne, mem_splitOnP hword⟩

end PjsuaMcp.Library
