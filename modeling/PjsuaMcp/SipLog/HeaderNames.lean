import Mathlib
import PjsuaMcp.SipLog.Structured

/-!
# Header names and values

The canonical spelling of a header name forgets the letter case and nothing
else. The loop of `parse_sip_headers` collects, for each canonical name, the
values of its headers in their order.
-/

namespace PjsuaMcp.SipLog

open Sdp (Text lf)
open Library

/-- The characters of a SIP token. -/
def isTokenChar (c : Char) : Bool := c.isAlphanum || c ∈ "-.!%*_+`'~".toList

def IsToken (name : Text) : Prop := name ≠ [] ∧ ∀ c ∈ name, isTokenChar c = true

/-! ## Characters -/

theorem toNat_lt_of_isAlphanum {c : Char} (h : c.isAlphanum = true) : c.toNat < 128 := by
  simp only [Char.isAlphanum, Char.isAlpha, Char.isUpper, Char.isLower, Char.isDigit,
    Bool.or_eq_true, Bool.and_eq_true, decide_eq_true_eq, UInt32.le_iff_toNat_le] at h
  have hv : c.toNat = c.val.toNat := rfl
  simp at h
  omega

theorem toNat_lt_of_isTokenChar {c : Char} (h : isTokenChar c = true) : c.toNat < 128 := by
  rcases (Bool.or_eq_true _ _).mp h with halpha | hother
  · exact toNat_lt_of_isAlphanum halpha
  · have hall : ("-.!%*_+`'~".toList.all fun c => c.toNat < 128) = true := by decide
    exact of_decide_eq_true (List.all_eq_true.mp hall c (of_decide_eq_true hother))

theorem IsToken.isAscii {name : Text} (h : IsToken name) : IsAscii name :=
  fun c hc => toNat_lt_of_isTokenChar (h.2 c hc)

/-- What holds of the first 128 characters holds of ASCII characters. -/
theorem ascii_induction {p : Char → Prop} (h : ∀ n < 128, p (Char.ofNat n)) {c : Char}
    (hc : c.toNat < 128) : p c := by
  rw [← Char.ofNat_toNat c]
  exact h _ hc

theorem toNat_toLower_lt {c : Char} (hc : c.toNat < 128) : c.toLower.toNat < 128 := by
  by_cases hupper : c.isUpper = true
  · have hle : c.toNat ≤ 90 := by
      simp only [Char.isUpper, decide_eq_true_eq, UInt32.le_iff_toNat_le] at hupper
      exact hupper.2
    have hvalid : (c.toNat + 32).isValidChar := by omega
    rw [Char.toLower_eq_of_isUpper hupper, Char.toNat_ofNat, if_pos hvalid]
    omega
  · rwa [Char.toLower_eq_of_not_isUpper hupper]

/-- A token has no blanks. -/
theorem notMem_asciiSpaces_of_isTokenChar {c : Char} (h : isTokenChar c = true) :
    c ∉ Sdp.asciiSpaces :=
  ascii_induction (p := fun c => isTokenChar c = true → c ∉ Sdp.asciiSpaces) (by decide)
    (toNat_lt_of_isTokenChar h) h

namespace HeaderTables

variable {u : HeaderTables}

theorem not_space_of_isTokenChar {c : Char} (h : isTokenChar c = true) : u.isSpace c = false := by
  rw [u.isSpace_ascii c (toNat_lt_of_isTokenChar h)]
  exact decide_eq_false (notMem_asciiSpaces_of_isTokenChar h)

/-! ## Canonical names -/

/-- Stripping a token changes nothing. -/
theorem strip_token {name : Text} (h : IsToken name) : u.strip name = name :=
  strip_eq_self fun c hc => not_space_of_isTokenChar (h.2 c hc)

theorem lower_token {name : Text} (h : IsToken name) : u.lower name = name.map Char.toLower :=
  u.lower_ascii name h.isAscii

/-- Capitalising changes the letter case only. -/
theorem map_toLower_capitalize {text : Text} (h : IsAscii text) :
    (u.capitalize text).map Char.toLower = text.map Char.toLower := by
  rw [u.capitalize_ascii text h]
  cases text with
  | nil => rfl
  | cons c rest => simp

/-- So does the canonical spelling. -/
theorem map_toLower_canonicalHeaderName {name : Text} (h : IsToken name) :
    (u.canonicalHeaderName name).map Char.toLower = name.map Char.toLower := by
  unfold canonicalHeaderName
  dsimp only
  rw [strip_token h, lower_token h]
  split
  · rename_i canonical hlookup
    have hall : ∀ e ∈ headerCanonicalCase, e.2.map Char.toLower = e.1 := by decide
    obtain ⟨before, after, htable, -⟩ := List.lookup_eq_some_iff.mp hlookup
    refine hall (_, canonical) ?_
    rw [htable]
    exact List.mem_append_right _ List.mem_cons_self
  · have hpieces : ∀ piece ∈ split ['-'] (name.map Char.toLower),
        (u.capitalize piece).map Char.toLower = piece := by
      intro piece hpiece
      have hchars : ∀ c ∈ piece, c.toNat < 128 ∧ c.toLower = c := by
        intro c hc
        have hmem := (infix_of_mem_split (List.cons_ne_nil _ _) hpiece).subset hc
        obtain ⟨d, hd, rfl⟩ := List.mem_map.mp hmem
        exact ⟨toNat_toLower_lt (h.isAscii d hd), Char.toLower_toLower_eq_toLower d⟩
      rw [map_toLower_capitalize fun c hc => (hchars c hc).1]
      exact (List.map_congr_left fun c hc => (hchars c hc).2).trans (List.map_id' piece)
    rw [map_intercalate, List.map_map]
    change ['-'].intercalate (List.map (fun piece => (u.capitalize piece).map Char.toLower) _) = _
    rw [List.map_congr_left hpieces, List.map_id']
    exact intercalate_split (List.cons_ne_nil _ _) _

/-- Names that differ in case only have the same canonical form. -/
theorem canonicalHeaderName_congr {name name' : Text} (h : IsToken name) (h' : IsToken name')
    (hsame : u.lower name = u.lower name') :
    u.canonicalHeaderName name = u.canonicalHeaderName name' := by
  simp only [canonicalHeaderName, strip_token h, strip_token h', hsame]

/-- Two names have one canonical spelling exactly when they are equal up to the letter case. -/
theorem canonicalHeaderName_eq_iff {name name' : Text} (h : IsToken name) (h' : IsToken name') :
    u.canonicalHeaderName name = u.canonicalHeaderName name' ↔ u.lower name = u.lower name' := by
  refine ⟨fun hsame => ?_, canonicalHeaderName_congr h h'⟩
  rw [lower_token h, lower_token h', ← map_toLower_canonicalHeaderName (u := u) h, hsame,
    map_toLower_canonicalHeaderName h']

/-! ## Collected values -/

end HeaderTables

/-- What stands in the dict for these values of one header. -/
def valueOf : List Text → Option HeaderValue
  | [] => none
  | [v] => some (.one v)
  | vs => some (.many vs)

namespace HeaderTables

/-- A value is added to those that its header has. -/
theorem get?_addValue {headers : Headers} {canon : Text} {vs : List Text}
    (h : headers.get? canon = valueOf vs) (v key : Text) :
    (addValue headers canon v).get? key =
      if canon = key then valueOf (vs ++ [v]) else headers.get? key := by
  unfold addValue
  rw [h]
  rcases vs with _ | ⟨w, _ | ⟨w', vs⟩⟩
  · exact OrderedDict.get?_set _ _ _ _
  · exact OrderedDict.get?_set _ _ _ _
  · exact OrderedDict.get?_set _ _ _ _

/-- The values of a name, in the order of their headers. -/
theorem get?_addValues (pairs : List (Text × Text)) (key : Text) :
    (pairs.foldl (fun headers p => addValue headers p.1 p.2) .empty).get? key =
      valueOf ((pairs.filter fun p => p.1 = key).map Prod.snd) := by
  induction pairs using List.reverseRecOn generalizing key with
  | nil => rfl
  | append_singleton pairs p ih =>
      rw [List.foldl_concat, get?_addValue (ih p.1), List.filter_append, List.map_append]
      split_ifs with hkey
      · subst hkey
        simp
      · rw [ih]
        simp [hkey]

end HeaderTables

end PjsuaMcp.SipLog
