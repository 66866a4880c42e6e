import PjsuaMcp.SipLog.HeaderNames
import PjsuaMcp.SipLog.MessageBodies
import PjsuaMcp.SipLog.SdpSections

/-!
# Structuring undoes rendering

A message as the library dumps it: an envelope line, the start line, the
headers, a blank line, the body and the trailer. `structurize_message` gets the
headers and the body back.
-/

namespace PjsuaMcp.SipLog

open Sdp (Text lf crlf)
open Library

/-- A header with a trimmed value on one line. -/
structure Header (u : HeaderTables) where
  name : Text
  value : Text
  token : IsToken name
  trimmed : u.strip value = value
  newline_notMem : '\n' ∉ value

/-- A request or a response as the library dumps it. -/
structure Dump (u : HeaderTables) where
  envelope : Text
  startLine : Text
  headers : List (Header u)
  body : Text
  /-- The lines of the message end with `\r\n`, otherwise with `\n`. -/
  crlfEnds : Bool
  /-- So does the body, in front of the trailer. -/
  crlfTrailer : Bool
  envelope_line : '\n' ∉ envelope
  envelope_txrx : (CharTables.searchIn u.txrxRequestRe envelope).isSome ∨
    (CharTables.searchIn u.txrxResponseRe envelope).isSome
  startLine_line : '\r' ∉ startLine ∧ '\n' ∉ startLine
  startLine_form : isStartLine startLine = true

variable {u : HeaderTables}

def Header.line (h : Header u) : Text := h.name ++ ": ".toList ++ h.value

namespace Dump

variable (d : Dump u)

def eol : Text := if d.crlfEnds then crlf else lf

/-- The start line and the headers. -/
def lines : List Text := d.startLine :: d.headers.map Header.line

def text : Text :=
  d.envelope ++ lf ++ d.lines.flatMap (fun line => line ++ d.eol) ++ d.eol ++ d.body ++
    (if d.crlfTrailer then ['\r'] else []) ++ trailer

/-- The values of the headers that have this name, whatever the letter case. -/
def valuesOf (name : Text) : List Text :=
  (d.headers.filter fun h => u.lower h.name = u.lower name).map Header.value

end Dump

/-! ## Stripping -/

namespace CharTables

variable (t : CharTables)

/-- Stripping at both ends, in either order. -/
theorem strip_eq (text : Text) : t.strip text = (t.rstrip text).dropWhile t.isSpace := by
  cases hdrop : text.dropWhile t.isSpace with
  | nil =>
      rw [strip, hdrop, t.rstrip_eq_nil (List.dropWhile_eq_nil_iff.mp hdrop)]
      rfl
  | cons c rest =>
      have hc : t.isSpace c = false := by
        have hne : text.dropWhile t.isSpace ≠ [] := hdrop ▸ List.cons_ne_nil _ _
        have hhead := List.head_dropWhile_not t.isSpace hne
        simpa only [hdrop, List.head_cons] using hhead
      have hblanks : ∀ d ∈ text.takeWhile t.isSpace, t.isSpace d = true :=
        fun d hd => List.mem_takeWhile_imp hd
      have htext : text = text.takeWhile t.isSpace ++ c :: rest := by
        rw [← hdrop, List.takeWhile_append_dropWhile]
      rw [strip, hdrop]
      calc t.rstrip ([] ++ c :: rest)
        _ = c :: t.rstrip rest := t.rstrip_append hc rest
        _ = (text.takeWhile t.isSpace ++ c :: t.rstrip rest).dropWhile t.isSpace := by
            rw [List.dropWhile_append_of_pos hblanks,
              List.dropWhile_cons_of_neg (by rw [hc]; exact Bool.false_ne_true)]
        _ = (t.rstrip text).dropWhile t.isSpace := by
            rw [← t.rstrip_append hc, ← htext]

theorem strip_rstrip (text : Text) : t.strip (t.rstrip text) = t.strip text := by
  rw [strip_eq, strip_eq, rstrip, rstrip, List.rdropWhile_idempotent]

end CharTables

/-! ## Header lines -/

namespace Header

variable (h : Header u)

theorem notMem_name {c : Char} (hc : isTokenChar c = false) : c ∉ h.name := by
  intro hmem
  rw [h.token.2 c hmem] at hc
  cases hc

theorem line_eq : h.line = h.name ++ ':' :: (' ' :: h.value) := by
  simp [line]

/-- A header line is not empty. -/
theorem line_ne_nil : h.line ≠ [] := by
  rw [line_eq]
  exact List.append_ne_nil_of_right_ne_nil _ (List.cons_ne_nil _ _)

theorem last_ne : h.value.getLast? ≠ some '\r' := by
  intro hlast
  have hstripped : h.value = u.rstrip (h.value.dropWhile u.isSpace) := h.trimmed.symm
  rw [hstripped] at hlast
  have hne : u.rstrip (h.value.dropWhile u.isSpace) ≠ [] :=
    List.ne_nil_of_mem (List.mem_of_getLast? hlast)
  have hnot := List.rdropWhile_last_not u.isSpace _ hne
  have hend : (List.rdropWhile u.isSpace (h.value.dropWhile u.isSpace)).getLast hne = '\r' :=
    (List.getLast_eq_iff_getLast?_eq_some hne).mpr hlast
  rw [hend] at hnot
  exact hnot (u.space_of_mem '\r' (by decide))

/-- A header line is one line. -/
theorem newline_notMem_line : '\n' ∉ h.line := by
  simp only [line_eq, List.mem_append, List.mem_cons, not_or]
  exact ⟨h.notMem_name (by decide), by decide, by decide, h.newline_notMem⟩

end Header

namespace HeaderTables

/-- Reading a header line adds its value under the canonical name. -/
theorem addHeader_line (headers : Headers) (h : Header u) :
    u.addHeader headers h.line = addValue headers (u.canonicalHeaderName h.name) h.value := by
  have hcolon : u.isSpace ':' = false := by
    rw [u.isSpace_ascii ':' (by decide)]
    decide
  have hblank : u.isSpace ' ' = true := u.space_of_mem ' ' (by decide)
  have hline : u.rstrip h.line = h.name ++ ':' :: u.rstrip (' ' :: h.value) := by
    rw [h.line_eq, CharTables.rstrip_append _ hcolon]
  have hvalue : u.strip (u.rstrip (' ' :: h.value)) = h.value := by
    rw [CharTables.strip_rstrip, CharTables.strip, List.dropWhile_cons_of_pos hblank]
    exact h.trimmed
  have hguard : ¬ ((u.rstrip h.line).isEmpty || decide (':' ∉ u.rstrip h.line)) = true := by
    rw [hline]
    simp
  unfold addHeader
  dsimp only
  rw [if_neg hguard, hline, partition_append (h.notMem_name (by decide)), hvalue]

end HeaderTables

/-! ## The start line -/

namespace HeaderTables

theorem not_space_of_alphanum {c : Char} (h : c.isAlphanum = true) : u.isSpace c = false :=
  not_space_of_isTokenChar (by rw [isTokenChar, h]; rfl)

/-- A start line is one with blanks around it, too. -/
theorem isStartLine_strip {line : Text} (h : isStartLine line = true) :
    isStartLine (u.strip line) = true := by
  simp only [isStartLine, Bool.or_eq_true, List.isPrefixOf_iff_prefix,
    List.isSuffixOf_iff_suffix] at h ⊢
  rcases h with ⟨rest, rfl⟩ | ⟨before, rfl⟩
  · refine .inl ?_
    have hslash : u.isSpace '/' = false := u.not_space_of_mem '/' (by decide)
    have hs : ¬ u.isSpace 'S' = true := by
      rw [not_space_of_alphanum (by decide)]
      exact Bool.false_ne_true
    have hstrip : u.strip ("SIP/".toList ++ rest) = "SIP".toList ++ '/' :: u.rstrip rest := by
      rw [CharTables.strip, show "SIP/".toList ++ rest = 'S' :: ("IP/".toList ++ rest) from rfl,
        List.dropWhile_cons_of_neg hs]
      have hafter : u.rstrip ("SIP".toList ++ '/' :: rest) = "SIP".toList ++ '/' :: u.rstrip rest :=
        u.rstrip_append hslash rest
      exact hafter
    rw [hstrip]
    exact ⟨u.rstrip rest, rfl⟩
  · refine .inr ?_
    have hzero : u.isSpace '0' = false := not_space_of_alphanum (by decide)
    have hs : ¬ u.isSpace 'S' = true := by
      rw [not_space_of_alphanum (by decide)]
      exact Bool.false_ne_true
    have hrstrip : u.rstrip (before ++ "SIP/2.0".toList) = before ++ "SIP/2.0".toList := by
      have h : u.rstrip ((before ++ "SIP/2.".toList) ++ ['0']) =
          (before ++ "SIP/2.".toList) ++ '0' :: u.rstrip [] := u.rstrip_append hzero []
      rw [u.rstrip_eq_nil (List.forall_mem_nil _), List.append_assoc] at h
      exact h
    have hword : "SIP/2.0".toList.dropWhile u.isSpace = "SIP/2.0".toList :=
      List.dropWhile_cons_of_neg hs
    rw [CharTables.strip_eq, hrstrip, List.dropWhile_append, hword]
    split_ifs
    · exact List.suffix_refl _
    · exact List.suffix_append _ _

theorem skipStartLine_cons {line : Text} (h : isStartLine line = true) (rest : List Text) :
    u.skipStartLine (line :: rest) = rest :=
  if_pos (isStartLine_strip h)

end HeaderTables

/-! ## Line ends -/

theorem normalizeNewlines_newline (rest : Text) :
    normalizeNewlines ('\n' :: rest) = '\n' :: normalizeNewlines rest := by
  simp [normalizeNewlines]

theorem normalizeNewlines_cons {c : Char} (hc : c ≠ '\r') (rest : Text) :
    normalizeNewlines (c :: rest) = c :: normalizeNewlines rest := by
  simp [normalizeNewlines, hc]

theorem normalizeNewlines_cons_cons {d : Char} (hd : d ≠ '\n') (c : Char) (rest : Text) :
    normalizeNewlines (c :: d :: rest) = c :: normalizeNewlines (d :: rest) := by
  simp [normalizeNewlines, hd]

/-- A line end, of either kind, behind a line without carriage return at its end. -/
theorem normalizeNewlines_line {line eol : Text} (heol : eol = crlf ∨ eol = lf)
    (hfree : '\n' ∉ line) (hlast : line.getLast? ≠ some '\r') (rest : Text) :
    normalizeNewlines (line ++ (eol ++ rest)) = line ++ '\n' :: normalizeNewlines rest := by
  induction line with
  | nil =>
      rcases heol with rfl | rfl
      · rfl
      · exact normalizeNewlines_newline rest
  | cons c line ih =>
      rw [List.mem_cons, not_or] at hfree
      have hlast' : line.getLast? ≠ some '\r' := by
        cases line with
        | nil => exact (Option.some_ne_none _).symm
        | cons d line => rwa [List.getLast?_cons_cons] at hlast
      have hrest := ih hfree.2 hlast'
      by_cases hc : c = '\r'
      · cases line with
        | nil => exact (hlast (hc ▸ rfl)).elim
        | cons d line =>
            have hd : d ≠ '\n' := fun hd => hfree.2 (hd ▸ List.mem_cons_self)
            rw [List.cons_append, List.cons_append, normalizeNewlines_cons_cons hd, ← List.cons_append,
              hrest, List.cons_append, List.cons_append, List.cons_append]
      · rw [List.cons_append, normalizeNewlines_cons hc, hrest, List.cons_append]

/-- A line that is not empty and has no line break in it or at its end. -/
structure IsLine (line : Text) : Prop where
  ne_nil : line ≠ []
  newline_notMem : '\n' ∉ line
  last_ne : line.getLast? ≠ some '\r'

/-- Normalised lines end in a line feed. -/
theorem normalizeNewlines_lines {lines : List Text} {eol : Text} (heol : eol = crlf ∨ eol = lf)
    (hlines : ∀ line ∈ lines, IsLine line) (rest : Text) :
    normalizeNewlines (lines.flatMap (fun line => line ++ eol) ++ rest) =
      lines.flatMap (fun line => line ++ lf) ++ normalizeNewlines rest := by
  induction lines with
  | nil => rfl
  | cons line lines ih =>
      obtain ⟨hline, htail⟩ := List.forall_mem_cons.mp hlines
      rw [List.flatMap_cons, List.flatMap_cons, List.append_assoc, List.append_assoc,
        normalizeNewlines_line heol hline.newline_notMem hline.last_ne, ih htail]
      simp only [lf, List.append_assoc, List.cons_append, List.nil_append]

theorem flatMap_lf {lines : List Text} (hne : lines ≠ []) :
    lines.flatMap (fun line => line ++ lf) = lf.intercalate lines ++ lf := by
  induction lines with
  | nil => exact (hne rfl).elim
  | cons line lines ih =>
      cases lines with
      | nil => simp
      | cons next lines =>
          rw [List.flatMap_cons, ih (List.cons_ne_nil _ _), List.intercalate_cons_cons,
            List.append_assoc, List.append_assoc, List.append_assoc]

theorem blankLine_infix_append {line : Text} (hline : '\n' ∉ line) (rest : Text) :
    ['\n', '\n'] <:+: line ++ '\n' :: rest ↔ ['\n', '\n'] <:+: '\n' :: rest := by
  induction line with
  | nil => rfl
  | cons c line ih =>
      rw [List.mem_cons, not_or] at hline
      rw [List.cons_append, List.infix_cons_iff, ih hline.2, or_iff_right]
      exact fun hbegins => hline.1 (List.cons_prefix_cons.mp hbegins).1

/-- Between lines that are not empty there is no blank line. -/
theorem not_blankLine_infix {lines : List Text} (hlines : ∀ line ∈ lines, IsLine line) :
    ¬ ['\n', '\n'] <:+: lines.flatMap (fun line => line ++ lf) := by
  induction lines with
  | nil => decide
  | cons line lines ih =>
      obtain ⟨hline, htail⟩ := List.forall_mem_cons.mp hlines
      rw [List.flatMap_cons, List.append_assoc, lf, List.singleton_append,
        blankLine_infix_append hline.newline_notMem, List.infix_cons_iff, or_iff_right]
      · exact ih htail
      · intro hbegins
        rw [List.cons_prefix_cons] at hbegins
        cases lines with
        | nil => exact absurd hbegins.2 (by decide)
        | cons next lines =>
            obtain ⟨hne, hfree, -⟩ := htail next List.mem_cons_self
            obtain ⟨c, next, rfl⟩ := List.exists_cons_of_ne_nil hne
            rw [List.flatMap_cons, List.cons_append, List.cons_append, List.cons_prefix_cons]
              at hbegins
            exact hfree (hbegins.2.1 ▸ List.mem_cons_self)

/-- Without carriage returns at their ends, lines are the same only when they are equal. -/
theorem eq_of_sameLines {lines lines' : List Text} (h : List.Forall₂ SameLine lines lines')
    (hlines : ∀ line ∈ lines', line.getLast? ≠ some '\r') : lines = lines' := by
  induction h with
  | nil => rfl
  | cons hline _ ih =>
      obtain ⟨hhead, htail⟩ := List.forall_mem_cons.mp hlines
      rcases hline with rfl | rfl
      · rw [ih htail]
      · exact (hhead List.getLast?_concat).elim

/-- Splitting normalised lines gives the lines back. -/
theorem split_normalized {lines : List Text} (hne : lines ≠ []) (hlines : ∀ line ∈ lines, IsLine line) :
    split lf (normalizeNewlines (lf.intercalate lines)) = lines := by
  have hcut : split lf (lf.intercalate lines) = lines :=
    split_intercalate_singleton hne fun line hline => (hlines line hline).newline_notMem
  have hsame := split_normalizeNewlines (lf.intercalate lines)
  rw [hcut] at hsame
  exact eq_of_sameLines hsame fun line hline => (hlines line hline).last_ne

/-! ## Parsing the head of a message -/

theorem Header.isLine (h : Header u) : IsLine h.line where
  ne_nil := h.line_ne_nil
  newline_notMem := h.newline_notMem_line
  last_ne := by
    intro hlast
    rw [h.line_eq, List.getLast?_append_of_ne_nil _ (List.cons_ne_nil _ _)] at hlast
    by_cases hvalue : h.value = []
    · rw [hvalue] at hlast
      revert hlast
      decide
    · have hend : h.value.getLast? = some '\r' := by
        rwa [List.getLast?_cons_cons, List.getLast?_cons_of_ne_nil hvalue] at hlast
      exact h.last_ne hend

/-- The head of a dump is made of lines. -/
theorem Dump.isLine (d : Dump u) : ∀ line ∈ d.lines, IsLine line := by
  refine List.forall_mem_cons.mpr ⟨⟨?_, ?_, ?_⟩, ?_⟩
  · intro hnil
    have hform := d.startLine_form
    rw [hnil] at hform
    revert hform
    decide
  · exact d.startLine_line.2
  · exact fun hlast => d.startLine_line.1 (List.mem_of_getLast? hlast)
  · intro line hline
    obtain ⟨h, -, rfl⟩ := List.mem_map.mp hline
    exact h.isLine

namespace HeaderTables

theorem foldl_addHeader (hs : List (Header u)) (headers : Headers) :
    (hs.map Header.line).foldl u.addHeader headers =
      (hs.map fun h => (u.canonicalHeaderName h.name, h.value)).foldl
        (fun headers p => addValue headers p.1 p.2) headers := by
  induction hs generalizing headers with
  | nil => rfl
  | cons h hs ih =>
      rw [List.map_cons, List.foldl_cons, addHeader_line, ih]
      rfl

/-- Reading the head of a dump adds its headers in turn. -/
theorem parseSipHeaders_lines (d : Dump u) :
    u.parseSipHeaders (lf.intercalate d.lines) =
      (d.headers.map fun h => (u.canonicalHeaderName h.name, h.value)).foldl
        (fun headers p => addValue headers p.1 p.2) .empty := by
  have hlines : d.lines ≠ [] := List.cons_ne_nil _ _
  have hsplit := split_normalized hlines d.isLine
  have hne : lf.intercalate d.lines ≠ [] := by
    intro hnil
    have hin : d.startLine <:+: lf.intercalate d.lines :=
      infix_intercalate_of_mem lf List.mem_cons_self
    rw [hnil, List.infix_nil] at hin
    exact (d.isLine _ List.mem_cons_self).ne_nil hin
  have htake : d.lines.takeWhile (fun line => !line.isEmpty) = d.lines := by
    rw [List.takeWhile_eq_self_iff]
    intro line hline
    simpa using (d.isLine line hline).ne_nil
  rw [parseSipHeaders, if_neg (by rwa [List.isEmpty_iff])]
  dsimp only
  rw [hsplit, htake, Dump.lines, skipStartLine_cons d.startLine_form, foldl_addHeader]

/-- The values under a canonical name are those of the headers that have the name. -/
theorem get?_parseSipHeaders (d : Dump u) {name : Text} (hname : IsToken name) :
    (u.parseSipHeaders (lf.intercalate d.lines)).get? (u.canonicalHeaderName name) =
      valueOf (d.valuesOf name) := by
  rw [parseSipHeaders_lines, get?_addValues, Dump.valuesOf, List.filter_map, List.map_map]
  congr 2
  refine List.filter_congr fun h _ => ?_
  exact decide_eq_decide.mpr (canonicalHeaderName_eq_iff h.token hname)

/-- A header that was read is one of the dump. -/
theorem exists_header_of_get? (d : Dump u) {key : Text} {value : HeaderValue}
    (h : (u.parseSipHeaders (lf.intercalate d.lines)).get? key = some value) :
    ∃ hd ∈ d.headers, u.canonicalHeaderName hd.name = key := by
  rw [parseSipHeaders_lines, get?_addValues] at h
  have hne : ((d.headers.map fun h => (u.canonicalHeaderName h.name, h.value)).filter
      fun p => p.1 = key) ≠ [] := by
    intro hnil
    rw [hnil] at h
    cases h
  obtain ⟨p, hp⟩ := List.exists_mem_of_ne_nil _ hne
  obtain ⟨hmem, hkey⟩ := List.mem_filter.mp hp
  obtain ⟨hd, hhd, rfl⟩ := List.mem_map.mp hmem
  exact ⟨hd, hhd, of_decide_eq_true hkey⟩

end HeaderTables

/-! ## The envelope -/

theorem isSome_searchIn_append {α : Type} {m : Option Char → Matcher Char α}
    (hm : ∀ prev, Matcher.Local (m prev)) {head : Text} (h : (CharTables.searchIn m head).isSome)
    (body : Text) : (CharTables.searchIn m (head ++ body)).isSome := by
  by_contra hnone
  rw [Bool.not_eq_true, Option.isSome_eq_false_iff, Option.isNone_iff_eq_none] at hnone
  have hends : EndsInHead m head body := by
    intro r hr
    rw [CharTables.searchIn, hr] at hnone
    cases hnone
  rw [← searchIn_append hm hends, hnone] at h
  cases h

/-! ## The whole message -/

/-- A carriage return at the end of a line makes no difference to the body. -/
theorem parseSdpBody_congr {t : CharTables} {text text' : Text}
    (h : List.Forall₂ SameLine (split lf text) (split lf text')) :
    t.parseSdpBody text = t.parseSdpBody text' := by
  by_cases hversion : HasVersionLine (split lf text)
  · rw [CharTables.parseSdpBody_of_version hversion,
      CharTables.parseSdpBody_of_version ((CharTables.hasVersionLine_congr h).mp hversion),
      CharTables.readLines_congr h]
  · rw [CharTables.parseSdpBody_of_not_version hversion,
      CharTables.parseSdpBody_of_not_version fun h' =>
        hversion ((CharTables.hasVersionLine_congr h).mpr h')]

theorem sameLines_append_cr (text : Text) :
    List.Forall₂ SameLine (split lf text) (split lf (text ++ ['\r'])) := by
  induction text with
  | nil => exact .cons (.inr rfl) .nil
  | cons c rest ih =>
      by_cases hc : c = '\n'
      · subst hc
        exact .cons (.refl _) ih
      · rw [List.cons_append, split_lf_cons hc, split_lf_cons hc]
        exact forall₂_modifyHead ih c

/-- The body is found behind the blank line, with normalised line ends. -/
theorem parseSdpBody_normalized {t : CharTables} (body : Text) (cr : Bool) :
    t.parseSdpBody (normalizeNewlines (body ++ if cr then ['\r'] else [])) =
      t.parseSdpBody body := by
  rw [parseSdpBody_congr (split_normalizeNewlines _)]
  cases cr with
  | false => rw [if_neg Bool.false_ne_true, List.append_nil]
  | true => exact (parseSdpBody_congr (sameLines_append_cr body)).symm

namespace Dump

variable (d : Dump u)

theorem eol_cases : d.eol = crlf ∨ d.eol = lf := by
  unfold eol
  split_ifs
  · exact .inl rfl
  · exact .inr rfl

/-- What lies behind the envelope line. -/
def sipText : Text :=
  d.lines.flatMap (fun line => line ++ d.eol) ++
    (d.eol ++ (d.body ++ if d.crlfTrailer then ['\r'] else []))

theorem text_eq : d.text = d.envelope ++ '\n' :: (d.sipText ++ trailer) := by
  simp only [text, sipText, lf, List.append_assoc, List.cons_append, List.nil_append]

/-- The body of a dump starts after its first empty line. -/
theorem cutFirst_sipText :
    cutFirst ['\n', '\n'] (normalizeNewlines d.sipText) =
      some (lf.intercalate d.lines,
        normalizeNewlines (d.body ++ if d.crlfTrailer then ['\r'] else [])) := by
  have hlines : d.lines ≠ [] := List.cons_ne_nil _ _
  have hblank := normalizeNewlines_line d.eol_cases (List.not_mem_nil (a := '\n'))
    (Option.some_ne_none _).symm (d.body ++ if d.crlfTrailer then ['\r'] else [])
  have hfirst : ¬ ['\n', '\n'] <:+: lf.intercalate d.lines ++ ['\n', '\n'].dropLast := by
    have hnone := not_blankLine_infix d.isLine
    rwa [flatMap_lf hlines] at hnone
  rw [List.nil_append, List.nil_append] at hblank
  rw [sipText, normalizeNewlines_lines d.eol_cases d.isLine, flatMap_lf hlines, hblank,
    List.append_assoc]
  exact cutFirst_append (List.cons_ne_nil _ _) hfirst _

end Dump

namespace HeaderTables

theorem isToken_contentType : IsToken contentType :=
  ⟨by decide, List.all_eq_true.mp (by decide)⟩

/-- `Content-Type` is in its canonical form. -/
theorem canonicalHeaderName_contentType : u.canonicalHeaderName contentType = contentType := by
  have hlow : contentType.map Char.toLower = "content-type".toList := by decide
  have htable : headerCanonicalCase.lookup "content-type".toList = none := by decide
  have hsplit : split ['-'] "content-type".toList = ["content".toList, "type".toList] := by decide
  have hcontent : IsToken "content".toList := ⟨by decide, List.all_eq_true.mp (by decide)⟩
  have htype : IsToken "type".toList := ⟨by decide, List.all_eq_true.mp (by decide)⟩
  unfold canonicalHeaderName
  dsimp only
  rw [strip_token isToken_contentType, lower_token isToken_contentType, hlow, htable, hsplit]
  simp only [List.map_cons, List.map_nil, u.capitalize_ascii _ hcontent.isAscii,
    u.capitalize_ascii _ htype.isAscii]
  decide

/-- The body is parsed exactly when its type is given once and is SDP. -/
theorem sdpOf_headers (d : Dump u) :
    u.sdpOf (u.parseSipHeaders (lf.intercalate d.lines))
        (normalizeNewlines (d.body ++ if d.crlfTrailer then ['\r'] else [])) =
      match d.valuesOf contentType with
      | [v] => if "application/sdp".toList <:+: u.lower v then u.parseSdpBody d.body else none
      | _ => none := by
  have hvalues := get?_parseSipHeaders d isToken_contentType
  rw [canonicalHeaderName_contentType] at hvalues
  rw [sdpOf, hvalues, parseSdpBody_normalized]
  rcases d.valuesOf contentType with _ | ⟨v, _ | ⟨w, vs⟩⟩ <;> rfl

end HeaderTables

/-- A dump with an envelope is a message, with the metadata that is read of it. -/
theorem structurizeMessage_dump (u : HeaderTables) (d : Dump u) {md : SipMetadata}
    (hmd : u.parseSipMetadata d.text = some md) :
    u.structurizeMessage d.text = some (some
      { ts := CharTables.searchIn u.timestampRe d.text
        direction := md.direction
        method := md.method
        cseq := md.cseq
        callId := md.sipCallId
        fromUri := md.fromUri
        toUri := md.toUri
        headers := u.parseSipHeaders (lf.intercalate d.lines)
        sdp := u.sdpOf (u.parseSipHeaders (lf.intercalate d.lines))
          (normalizeNewlines (d.body ++ if d.crlfTrailer then ['\r'] else []))
        statusCode := md.statusCode }) := by
  have hne : d.text ≠ [] := by
    rw [d.text_eq]
    exact List.append_ne_nil_of_right_ne_nil _ (List.cons_ne_nil _ _)
  have htxrx : (CharTables.searchIn u.txrxResponseRe d.text).isSome ∨
      (CharTables.searchIn u.txrxRequestRe d.text).isSome := by
    rw [d.text_eq]
    exact d.envelope_txrx.symm.imp
      (fun h => isSome_searchIn_append (local_txrxResponseRe u.tables) h _)
      (fun h => isSome_searchIn_append (local_txrxRequestRe u.tables) h _)
  obtain ⟨hdirection, hmethod⟩ := (CharTables.parseSipMetadata_spec hne hmd).enveloped htxrx
  have hguard : ¬ (md.direction.isNone || (md.method.isNone && md.statusCode.isNone)) = true := by
    rw [Option.isNone_eq_false_iff.mpr hdirection, Option.isNone_eq_false_iff.mpr hmethod]
    exact Bool.false_ne_true
  have hrest : (partition '\n' d.text).2 = d.sipText ++ trailer := by
    rw [d.text_eq, partition_append d.envelope_line]
  have htrailer : beforeLast trailer (d.sipText ++ trailer) = some d.sipText := by
    have hlast : beforeLast trailer (d.sipText ++ (trailer ++ [])) = some d.sipText :=
      beforeLast_append (by decide) (by decide) d.sipText
    rwa [List.append_nil] at hlast
  unfold HeaderTables.structurizeMessage
  rw [if_neg (by rwa [List.isEmpty_iff]), hmd, Option.bind_eq_bind, Option.bind_some,
    if_neg hguard]
  dsimp only
  rw [hrest, htrailer, Option.getD_some, d.cutFirst_sipText, Option.getD_some]
  rfl

/-- The values of one header: alone, or in their order where there are several. -/
theorem structurizeMessage_text (u : HeaderTables) (d : Dump u) :
    u.LongNumber d.text ∨ ∃ m, u.structurizeMessage d.text = some (some m) ∧
      (∀ h ∈ d.headers,
        m.headers.get? (u.canonicalHeaderName h.name) = valueOf (d.valuesOf h.name)) ∧
      (∀ key ∈ m.headers.keys, ∃ h ∈ d.headers, u.canonicalHeaderName h.name = key) ∧
      m.sdp =
        match d.valuesOf contentType with
        | [v] => if "application/sdp".toList <:+: u.lower v then u.parseSdpBody d.body else none
        | _ => none := by
  refine (u.longNumber_or_parse d.text).imp_right ?_
  rintro ⟨md, hmd⟩
  refine ⟨_, structurizeMessage_dump u d hmd, ?_, ?_, ?_⟩
  · intro h _
    exact u.get?_parseSipHeaders d h.token
  · intro key hkey
    obtain ⟨value, hvalue⟩ := (OrderedDict.mem_keys_iff _ key).mp hkey
    exact u.exists_header_of_get? d hvalue
  · exact u.sdpOf_headers d

/-! ## A dumped request -/

def viaHeader : Header HeaderTables.ascii where
  name := "Via".toList
  value := "SIP/2.0/UDP 10.0.0.1".toList
  token := ⟨by decide, List.all_eq_true.mp (by decide)⟩
  trimmed := by decide
  newline_notMem := by decide

def lowerViaHeader : Header HeaderTables.ascii where
  name := "via".toList
  value := "SIP/2.0/UDP 10.0.0.2".toList
  token := ⟨by decide, List.all_eq_true.mp (by decide)⟩
  trimmed := by decide
  newline_notMem := by decide

def typeHeader : Header HeaderTables.ascii where
  name := "CONTENT-TYPE".toList
  value := "application/sdp".toList
  token := ⟨by decide, List.all_eq_true.mp (by decide)⟩
  trimmed := by decide
  newline_notMem := by decide

/-- The body begins with a blank line and has the text of the trailer in it. -/
def inviteDump : Dump HeaderTables.ascii where
  envelope := "TX 9 bytes Request msg INVITE/cseq=1".toList
  startLine := "INVITE sip:b SIP/2.0".toList
  headers := [viaHeader, typeHeader, lowerViaHeader]
  body := "\n\nv=0\n--end msg--\nVia: x".toList
  crlfEnds := true
  crlfTrailer := false
  envelope_line := by decide
  envelope_txrx := .inl (by decide)
  startLine_line := by decide
  startLine_form := by decide

theorem inviteDump_structured :
    ∃ m, HeaderTables.ascii.structurizeMessage inviteDump.text = some (some m) ∧
      m.headers.get? "Via".toList =
        some (.many ["SIP/2.0/UDP 10.0.0.1".toList, "SIP/2.0/UDP 10.0.0.2".toList]) ∧
      m.sdp = some { version := 0, origin := none, media := [] } := by
  obtain ⟨m, hm, hheaders, -, hsdp⟩ :=
    (structurizeMessage_text HeaderTables.ascii inviteDump).resolve_left
      (CharTables.not_longNumber (by decide +kernel))
  have hvia := hheaders viaHeader List.mem_cons_self
  have hname : HeaderTables.ascii.canonicalHeaderName viaHeader.name = "Via".toList := by decide
  rw [hname] at hvia
  exact ⟨m, hm, hvia, hsdp⟩

end PjsuaMcp.SipLog
