import PjsuaMcp.Library.Matching
import PjsuaMcp.Library.Separated

/-!
# The line patterns of the SDP filter

The three regular expressions of `sdp_rewriter`, as backtracking matchers, and
what a line that one of them accepts looks like.

## Implementation notes

`\d`, `\s`, `\w` and `str.lower` read the Unicode database of the interpreter.
`CharTables` stands for that database; its fields that are propositions say how
these classes lie to each other, and that the few ASCII characters which occur
in the patterns are in the right ones.
-/

namespace PjsuaMcp.Sdp

open Library

abbrev Text := List Char

instance : LawfulBEq Text := inferInstance

structure CharTables where
  isDigit : Char → Bool
  isSpace : Char → Bool
  isWord : Char → Bool
  lower : Text → Text
  word_of_digit : ∀ c, isDigit c = true → isWord c = true
  not_space_of_word : ∀ c, isWord c = true → isSpace c = false
  space_of_mem : ∀ c ∈ [' ', '\r', '\n'], isSpace c = true
  not_space_of_mem : ∀ c ∈ ['m', '=', '/'], isSpace c = false

def asciiSpaces : Text :=
  [' ', '\t', '\n', '\r', '\x0b', '\x0c', '\x1c', '\x1d', '\x1e', '\x1f']

/-- The classes of the ASCII characters. -/
def CharTables.ascii : CharTables where
  isDigit c := c.isDigit
  isSpace c := c ∈ asciiSpaces
  isWord c := c.isAlphanum || c = '_'
  lower text := text.map Char.toLower
  word_of_digit := by
    intro c hc
    simp [Char.isAlphanum, hc]
  not_space_of_word := by
    intro c hc
    refine decide_eq_false fun hmem => ?_
    have hall : asciiSpaces.all (fun c => !(c.isAlphanum || c = '_')) = true := by decide
    have hnot := List.all_eq_true.mp hall c hmem
    rw [hc] at hnot
    cases hnot
  space_of_mem := List.all_eq_true.mp (by decide)
  not_space_of_mem c hc := by
    have hall : ['m', '=', '/'].all (fun c => !decide (c ∈ asciiSpaces)) = true := by decide
    exact (Bool.not_eq_true' _).mp (List.all_eq_true.mp hall c hc)

/-- The four groups of `_M_LINE_RE`. -/
structure MediaLine where
  media : Text
  port : Text
  proto : Text
  fmts : Text
  deriving DecidableEq, Repr

namespace CharTables

variable (u : CharTables)

/-- `.`: anything but a newline. -/
def dot (c : Char) : Bool := c ≠ '\n'

/-- `$`: at the end, or before a newline at the end. -/
def lineEnd : Matcher Char Unit := .ahead fun rest => rest = [] ∨ rest = ['\n']

/-- `_RTPMAP_RE`: the payload type and the encoding name. -/
def rtpmapRe : Matcher Char (Text × Text) := do
  .lit "a=rtpmap:".toList
  let pt ← .many1 u.isDigit
  let _ ← .many1 u.isSpace
  let name ← .many1 fun c => c ≠ '/' && !u.isSpace c
  .opt do
    .lit ['/']
    let _ ← .many dot
  lineEnd
  return (pt, name)

/-- `_FMTP_RE`; after a digit, `\b` holds where no word character follows. -/
def fmtpRe : Matcher Char Text := do
  .lit "a=fmtp:".toList
  let pt ← .many1 u.isDigit
  .ahead fun rest => !rest.head?.any u.isWord
  return pt

/-- `_M_LINE_RE`. -/
def mLineRe : Matcher Char MediaLine := do
  .lit "m=".toList
  let media ← .many1 u.isWord
  let _ ← .many1 u.isSpace
  let port ← .many1 u.isDigit
  let _ ← .many1 u.isSpace
  let proto ← .many1 fun c => u.isWord c || c = '/'
  let _ ← .many1 u.isSpace
  let fmts ← .many1 dot
  lineEnd
  return ⟨media, port, proto, fmts⟩

def rtpmap (line : Text) : Option (Text × Text) := u.rtpmapRe.run line

def fmtp (line : Text) : Option Text := u.fmtpRe.run line

def mLine (line : Text) : Option MediaLine := u.mLineRe.run line

/-! ## What accepted lines look like -/

theorem prefix_of_rtpmap {line : Text} {r : Text × Text} (h : u.rtpmap line = some r) :
    "a=".toList <+: line := by
  obtain ⟨rest, hmem⟩ := Matcher.mem_of_run h
  simp only [rtpmapRe, Matcher.mem_bind, Matcher.mem_lit] at hmem
  obtain ⟨-, mid, rfl, -⟩ := hmem
  exact ⟨"rtpmap:".toList ++ mid, rfl⟩

theorem prefix_of_fmtp {line pt : Text} (h : u.fmtp line = some pt) : "a=".toList <+: line := by
  obtain ⟨rest, hmem⟩ := Matcher.mem_of_run h
  simp only [fmtpRe, Matcher.mem_bind, Matcher.mem_lit] at hmem
  obtain ⟨-, mid, rfl, -⟩ := hmem
  exact ⟨"fmtp:".toList ++ mid, rfl⟩

/-- A word without spaces in it. -/
def IsToken (word : Text) : Prop := word ≠ [] ∧ ∀ c ∈ word, u.isSpace c = false

def IsGap (gap : Text) : Prop := gap ≠ [] ∧ ∀ c ∈ gap, u.isSpace c = true

/-- An accepted media line is three words, each followed by a gap, and then the formats. -/
theorem mLine_spec {line : Text} {m : MediaLine} (h : u.mLine line = some m) :
    u.IsToken m.media ∧ u.IsToken m.port ∧ u.IsToken m.proto ∧
      ∃ gap₁ gap₂ gap₃ last, u.IsGap gap₁ ∧ u.IsGap gap₂ ∧ u.IsGap gap₃ ∧
        (∀ c ∈ last, u.isSpace c = true) ∧
        line = ("m=".toList ++ m.media) ++ gap₁ ++ (m.port ++ gap₂ ++
          (m.proto ++ gap₃ ++ (m.fmts ++ last))) := by
  obtain ⟨rest, hmem⟩ := Matcher.mem_of_run h
  simp only [mLineRe, Matcher.mem_bind, Matcher.mem_lit, Matcher.mem_many1, lineEnd,
    Matcher.mem_ahead, Matcher.mem_pure] at hmem
  obtain ⟨-, _, rfl, media, _, ⟨rfl, hmedia, hmediaw⟩, gap₁, _, ⟨rfl, hgap₁⟩, port, _,
    ⟨rfl, hport, hportd⟩, gap₂, _, ⟨rfl, hgap₂⟩, proto, _, ⟨rfl, hproto, hprotow⟩, gap₃, _,
    ⟨rfl, hgap₃⟩, fmts, _, ⟨rfl, -, -⟩, -, last, ⟨hlast, rfl⟩, rfl, rfl⟩ := hmem
  have hword : ∀ c, u.isWord c = true → u.isSpace c = false := u.not_space_of_word
  refine ⟨⟨hmedia, fun c hc => hword c (hmediaw c hc)⟩,
    ⟨hport, fun c hc => hword c (u.word_of_digit c (hportd c hc))⟩, ⟨hproto, fun c hc => ?_⟩,
    gap₁, gap₂, gap₃, rest, hgap₁, hgap₂, hgap₃, ?_, ?_⟩
  · rcases Bool.or_eq_true_iff.mp (hprotow c hc) with hw | hslash
    · exact hword c hw
    · rw [of_decide_eq_true hslash]
      exact u.not_space_of_mem '/' (by decide)
  · rcases of_decide_eq_true hlast with rfl | rfl
    · exact List.forall_mem_nil _
    · intro c hc
      rw [List.mem_singleton.mp hc]
      exact u.space_of_mem '\n' (by decide)
  · simp only [List.append_assoc]

end CharTables

end PjsuaMcp.Sdp
