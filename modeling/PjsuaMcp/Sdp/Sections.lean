import PjsuaMcp.Sdp.Rewriter

/-!
# Media sections of an SDP text

What an SDP text says, read without the filter: its lines, its media sections,
the formats each section lists, and the names its `a=rtpmap` lines give to
them. A section is kept together with all lines that follow its media line, so
that both ideas of where it ends can be compared: the next media line, and the
next media line that the filter recognises.
-/

namespace PjsuaMcp.Sdp

open Library

def isMediaLine (line : Text) : Bool := "m=".toList.isPrefixOf line

/-- A media line, and everything after it. -/
structure Section where
  line : Text
  after : List Text
  deriving DecidableEq, Repr

/-- The lines of the section, up to the next media line. -/
def Section.body (sec : Section) : List Text := sec.after.takeWhile fun line => !isMediaLine line

def sections : List Text → List Section
  | [] => []
  | line :: rest => if isMediaLine line then ⟨line, rest⟩ :: sections rest else sections rest

theorem suffix_of_mem_sections {lines : List Text} {sec : Section} (h : sec ∈ sections lines) :
    sec.line :: sec.after <:+ lines := by
  induction lines with
  | nil => cases h
  | cons line rest ih =>
      simp only [sections] at h
      split_ifs at h
      · rcases List.mem_cons.mp h with rfl | hrest
        · exact List.suffix_refl _
        · exact (ih hrest).trans (List.suffix_cons _ _)
      · exact (ih h).trans (List.suffix_cons _ _)

theorem isMediaLine_of_mem_sections {lines : List Text} {sec : Section}
    (h : sec ∈ sections lines) : isMediaLine sec.line = true := by
  induction lines with
  | nil => cases h
  | cons line rest ih =>
      simp only [sections] at h
      split_ifs at h with hline
      · rcases List.mem_cons.mp h with rfl | hrest
        · exact hline
        · exact ih hrest
      · exact ih h

theorem isMediaLine_rebuild (m : MediaLine) (ordered : List Text) :
    isMediaLine (m.rebuild ordered) = true := by
  apply List.isPrefixOf_iff_prefix.mpr
  unfold MediaLine.rebuild
  generalize "m=".toList = start
  simp only [List.append_assoc]
  exact List.prefix_append _ _

namespace CharTables

variable (u : CharTables)

/-- The words of a line: for a media line the media, the port, the protocol and the formats. -/
def tokens (line : Text) : List Text := words u.isSpace line

def isAudio (sec : Section) : Bool := (u.tokens sec.line).head? = some "m=audio".toList

/-- The format list. -/
def formats (sec : Section) : List Text := (u.tokens sec.line).drop 3

def audioSections (lines : List Text) : List Section := (sections lines).filter u.isAudio

/-- The names that the `a=rtpmap` lines in `body` give to `pt`, in lower case. -/
def rtpmapNames (body : List Text) (pt : Text) : List Text :=
  body.filterMap fun line => (u.rtpmap line).bind fun r =>
    if r.1 = pt then some (u.lower r.2) else none

/-- The encoding name of `pt` is one of `names`: the name that the section's own `a=rtpmap`
gives, and the static name only without one. -/
def admits (names : List Text) (sec : Section) (pt : Text) : Bool :=
  if u.rtpmapNames sec.body pt = [] then staticAllowed names pt
  else (u.rtpmapNames sec.body pt).any fun name => name ∈ names

/-- The section's own `a=rtpmap` says that `pt` is no codec. -/
def isTelephoneEvent (sec : Section) (pt : Text) : Bool :=
  telephoneEvent ∈ u.rtpmapNames sec.body pt

/-- The section lists an audio codec. -/
def listsCodec (sec : Section) : Bool := (u.formats sec).any fun pt => !u.isTelephoneEvent sec pt

/-- The filter recognises every media line. -/
def Recognised (lines : List Text) : Prop :=
  ∀ line ∈ lines, isMediaLine line = true → (u.mLine line).isSome = true

/-! ## Media lines -/

theorem isMediaLine_of_mLine {line : Text} {m : MediaLine} (h : u.mLine line = some m) :
    isMediaLine line = true := by
  obtain ⟨-, -, -, gap₁, gap₂, gap₃, last, -, -, -, -, rfl⟩ := u.mLine_spec h
  rw [isMediaLine, List.isPrefixOf_iff_prefix, List.append_assoc, List.append_assoc]
  exact List.prefix_append _ _

/-- Neither an `a=rtpmap` nor an `a=fmtp` line is a media line. -/
theorem dangling_of_isMediaLine {line : Text} (h : isMediaLine line = true) (keep : List Text) :
    u.dangling keep line = false := by
  have hnot : ¬ "a=".toList <+: line := by
    intro ha
    have hm := List.isPrefixOf_iff_prefix.mp h
    have heq := List.prefix_of_prefix_length_le ha hm (by decide)
    revert heq
    decide
  have hrtpmap : u.rtpmap line = none :=
    Option.eq_none_iff_forall_ne_some.mpr fun r hr => hnot (u.prefix_of_rtpmap hr)
  have hfmtp : u.fmtp line = none :=
    Option.eq_none_iff_forall_ne_some.mpr fun pt hpt => hnot (u.prefix_of_fmtp hpt)
  rw [dangling, hrtpmap, hfmtp]
  rfl

theorem isToken_media {word : Text} (h : u.IsToken word) : u.IsToken ("m=".toList ++ word) := by
  have hall : "m=".toList.all (fun c => decide (c ∈ ['m', '=', '/'])) = true := by decide
  have hletters : ∀ c ∈ "m=".toList, c ∈ ['m', '=', '/'] :=
    fun c hc => of_decide_eq_true (List.all_eq_true.mp hall c hc)
  refine ⟨List.append_ne_nil_of_left_ne_nil (by decide) _, fun c hc => ?_⟩
  rcases List.mem_append.mp hc with hm | hword
  · exact u.not_space_of_mem c (hletters c hm)
  · exact h.2 c hword

/-- The words of a line that the filter recognises are those it has read. -/
theorem tokens_of_mLine {line : Text} {m : MediaLine} (h : u.mLine line = some m) :
    u.tokens line = ("m=".toList ++ m.media) :: m.port :: m.proto :: words u.isSpace m.fmts := by
  obtain ⟨hmedia, hport, hproto, gap₁, gap₂, gap₃, last, hgap₁, hgap₂, hgap₃, hlast, rfl⟩ :=
    u.mLine_spec h
  obtain ⟨hne, hword⟩ := u.isToken_media hmedia
  rw [tokens, words_append_gap hne hword hgap₁.1 hgap₁.2,
    words_append_gap hport.1 hport.2 hgap₂.1 hgap₂.2,
    words_append_gap hproto.1 hproto.2 hgap₃.1 hgap₃.2, words_append_trailing hlast]

/-- The formats of a section are the words behind its profile. -/
theorem formats_of_mLine {sec : Section} {m : MediaLine} (h : u.mLine sec.line = some m) :
    u.formats sec = words u.isSpace m.fmts := by
  rw [formats, u.tokens_of_mLine h]
  rfl

/-- An audio section says so in its media line. -/
theorem isAudio_of_mLine {sec : Section} {m : MediaLine} (h : u.mLine sec.line = some m) :
    u.isAudio sec = decide (m.media = "audio".toList) := by
  rw [isAudio, u.tokens_of_mLine h]
  refine decide_eq_decide.mpr ?_
  rw [List.head?_cons, Option.some.injEq]
  exact List.append_right_inj "m=".toList

/-- The words of a rebuilt media line. -/
theorem tokens_rebuild {m : MediaLine} (hmedia : u.IsToken m.media) (hport : u.IsToken m.port)
    (hproto : u.IsToken m.proto) {ordered : List Text} (hordered : ∀ pt ∈ ordered, u.IsToken pt) :
    u.tokens (m.rebuild ordered) = ("m=".toList ++ m.media) :: m.port :: m.proto :: ordered := by
  have hblank : u.isSpace ' ' = true := u.space_of_mem ' ' (by decide)
  have hgap : ∀ c ∈ [' '], u.isSpace c = true := fun c hc => by
    rw [List.mem_singleton.mp hc, hblank]
  have hgapne : [' '] ≠ [] := List.cons_ne_nil _ _
  obtain ⟨hne, hword⟩ := u.isToken_media hmedia
  have hassoc : m.rebuild ordered = ("m=".toList ++ m.media) ++ [' '] ++ (m.port ++ [' '] ++
      (m.proto ++ [' '] ++ [' '].intercalate ordered)) := by
    unfold MediaLine.rebuild
    generalize "m=".toList = start
    simp only [List.append_assoc]
  rw [hassoc, tokens, words_append_gap hne hword hgapne hgap,
    words_append_gap hport.1 hport.2 hgapne hgap, words_append_gap hproto.1 hproto.2 hgapne hgap]
  congr 3
  exact words_intercalate hblank hordered

end CharTables

end PjsuaMcp.Sdp
