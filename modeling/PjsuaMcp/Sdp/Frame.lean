import PjsuaMcp.Sdp.FilteredText

/-!
# What the filter leaves alone

Outside the codec lists of the audio sections nothing should change. `Framed`
compares two lists of lines in this respect, section by section. The filter cuts
sections at the media lines that it recognises, so an audio block may reach over
other sections; `leavesAlone` says that no line gets lost in this way, nor one of
a payload type that was never listed.
-/

namespace PjsuaMcp.Sdp

open Library

namespace CharTables

variable (u : CharTables)

/-- An `a=rtpmap` or `a=fmtp` line of one of these payload types. -/
def mentions (pts : List Text) (line : Text) : Bool :=
  ((u.rtpmap line).any fun r => r.1 ∈ pts) || (u.fmtp line).any fun pt => pt ∈ pts

/-- The payload types that `line` lists and `line'` does not. -/
def removedTypes (line line' : Text) : List Text :=
  (u.formats ⟨line, []⟩).filter fun pt => pt ∉ u.formats ⟨line', []⟩

/-- The lines `out` are the lines before them with another format list in the media line of an
audio section, and without the `a=rtpmap` and `a=fmtp` lines of the payload types that were
removed there; `removed` are those of the section that the first line is in. -/
inductive Framed : List Text → List Text → List Text → Prop
  | nil {removed} : Framed removed [] []
  | audio {removed line line' rest out} (media : isMediaLine line = true)
      (isAudio : u.isAudio ⟨line, rest⟩ = true) (media' : isMediaLine line' = true)
      (same : (u.tokens line').take 3 = (u.tokens line).take 3)
      (tail : Framed (u.removedTypes line line') rest out) :
      Framed removed (line :: rest) (line' :: out)
  | other {removed line rest out} (media : isMediaLine line = true)
      (notAudio : u.isAudio ⟨line, rest⟩ = false) (tail : Framed [] rest out) :
      Framed removed (line :: rest) (line :: out)
  | kept {removed line rest out} (plain : isMediaLine line = false)
      (clear : u.mentions removed line = false) (tail : Framed removed rest out) :
      Framed removed (line :: rest) (line :: out)
  | dropped {removed line rest out} (plain : isMediaLine line = false)
      (of_removed : u.mentions removed line = true) (tail : Framed removed rest out) :
      Framed removed (line :: rest) out

/-- The same for texts, cut at the line separator of the first one. -/
def FramedText (sdp out : Text) : Prop :=
  u.Framed [] (split (lineSep sdp) sdp) (split (lineSep sdp) out)

/-- The payload types that the filter keeps in the block of an audio section. -/
def keptTypes (names : List Text) (sec : Section) : List Text :=
  withStatic names (u.formats sec) (u.keptByName names (u.blockBody sec.after))

/-- Of the lines up to the next recognised media line, none is dangling: before the next media
line of any kind none of a type that is neither kept nor listed, behind it none of a type that is
not kept. -/
def spares (keep listed lines : List Text) : Bool :=
  let body := lines.takeWhile fun line => !isMediaLine line
  (body.all fun line => !u.dangling (keep ++ listed) line) &&
    ((u.blockBody lines).drop body.length).all fun line => !u.dangling keep line

/-- The filter drops no line behind the section, and in it only lines of the types it lists. -/
def leavesAlone (names : List Text) (sec : Section) : Bool :=
  u.spares (u.keptTypes names sec) (u.formats sec) sec.after

/-! ## Lines of removed types -/

theorem fmtp_eq_none_of_rtpmap {line : Text} {r : Text × Text} (h : u.rtpmap line = some r) :
    u.fmtp line = none := by
  refine Option.eq_none_iff_forall_ne_some.mpr fun pt hpt => ?_
  obtain ⟨_, hr⟩ := Matcher.mem_of_run h
  obtain ⟨_, hf⟩ := Matcher.mem_of_run hpt
  simp only [rtpmapRe, Matcher.mem_bind, Matcher.mem_lit] at hr
  simp only [fmtpRe, Matcher.mem_bind, Matcher.mem_lit] at hf
  obtain ⟨-, mid, rfl, -⟩ := hr
  obtain ⟨-, mid', heq, -⟩ := hf
  have hthird := congrArg (fun text : Text => text[2]?) heq
  cases hthird

/-- Where the filter drops a line as dangling, its type was removed from the list, unless it was
never there. -/
theorem mentions_removed (keep listed : List Text) (line : Text) :
    u.mentions (listed.filter fun pt => pt ∉ keep) line =
      (u.dangling keep line && !u.dangling (keep ++ listed) line) := by
  cases hr : u.rtpmap line with
  | some r =>
      rw [mentions, dangling, dangling, hr, u.fmtp_eq_none_of_rtpmap hr]
      by_cases hkeep : r.1 ∈ keep <;> by_cases hlisted : r.1 ∈ listed <;> simp [hkeep, hlisted]
  | none =>
      rw [mentions, dangling, dangling, hr]
      cases u.fmtp line with
      | none => rfl
      | some pt =>
          by_cases hkeep : pt ∈ keep <;> by_cases hlisted : pt ∈ listed <;> simp [hkeep, hlisted]

theorem dangling_of_append {keep listed : List Text} {line : Text}
    (h : u.dangling (keep ++ listed) line = true) : u.dangling keep line = true := by
  simp only [dangling, Bool.or_eq_true, Option.any_eq_true, List.mem_append, not_or,
    decide_eq_true_eq] at h ⊢
  rcases h with ⟨r, hr, hnot, -⟩ | ⟨pt, hpt, hnot, -⟩
  · exact .inl ⟨r, hr, hnot⟩
  · exact .inr ⟨pt, hpt, hnot⟩

/-! ## What lies up to the next recognised media line -/

theorem mLine_eq_none_of_plain {line : Text} (h : isMediaLine line = false) :
    u.mLine line = none := by
  cases hm : u.mLine line with
  | none => rfl
  | some m =>
      rw [u.isMediaLine_of_mLine hm] at h
      cases h

theorem spares_of_mLine {line : Text} {m : MediaLine} (h : u.mLine line = some m)
    (keep listed rest : List Text) : u.spares keep listed (line :: rest) = true := by
  simp [spares, u.isMediaLine_of_mLine h, u.blockBody_cons_of_some h]

theorem spares_plain {line : Text} (h : isMediaLine line = false) (keep listed rest : List Text) :
    u.spares keep listed (line :: rest) =
      (!u.dangling (keep ++ listed) line && u.spares keep listed rest) := by
  simp [spares, h, u.blockBody_cons_of_none (u.mLine_eq_none_of_plain h), Bool.and_assoc]

/-- The section's own lines are the first ones of the block. -/
theorem blockBody_eq_append (lines : List Text) :
    u.blockBody lines = (lines.takeWhile fun line => !isMediaLine line) ++
      (u.blockBody lines).drop (lines.takeWhile fun line => !isMediaLine line).length := by
  induction lines with
  | nil => rfl
  | cons line rest ih =>
      cases h : isMediaLine line with
      | true => simp [h]
      | false =>
          rw [u.blockBody_cons_of_none (u.mLine_eq_none_of_plain h)]
          simp only [List.takeWhile_cons, h, Bool.not_false, if_true, List.length_cons,
            List.drop_succ_cons, List.cons_append]
          rw [← ih]

/-- Behind a media line that is not recognised nothing counts as listed. -/
theorem spares_unrecognised {line : Text} (h : isMediaLine line = true) (hm : u.mLine line = none)
    (keep listed rest : List Text) :
    u.spares keep listed (line :: rest) = u.spares keep [] rest := by
  have hall : (u.blockBody rest).all (fun line => !u.dangling keep line) =
      u.spares keep [] rest := by
    rw [u.blockBody_eq_append rest, List.all_append, spares, List.append_nil]
  rw [← hall]
  simp [spares, h, u.blockBody_cons_of_none hm, u.dangling_of_isMediaLine h]

/-! ## Comparing line by line -/

/-- In a block no rewritten text begins with a line of a type that is not kept. -/
theorem clear_of_rewrite {names keep : List Text} {lines out : List Text} {line : Text}
    (hplain : isMediaLine line = false) (h : u.rewrite names (some keep) lines = line :: out) :
    u.dangling keep line = false := by
  induction lines with
  | nil => cases h
  | cons head rest ih =>
      simp only [rewrite] at h
      split at h
      · rename_i m hm
        split_ifs at h
        · obtain ⟨rfl, -⟩ := List.cons.inj h
          rw [isMediaLine_rebuild] at hplain
          cases hplain
        · obtain ⟨rfl, -⟩ := List.cons.inj h
          rw [u.isMediaLine_of_mLine hm] at hplain
          cases hplain
      · rw [Option.any_some] at h
        split_ifs at h with hdangling
        · exact ih h
        · obtain ⟨rfl, -⟩ := List.cons.inj h
          exact (Bool.not_eq_true _).mp hdangling

variable {u}

theorem framed_audio {removed rest out : List Text} {line line' : Text}
    (media : isMediaLine line = true) (haudio : u.isAudio ⟨line, rest⟩ = true) :
    u.Framed removed (line :: rest) (line' :: out) ↔
      isMediaLine line' = true ∧ (u.tokens line').take 3 = (u.tokens line).take 3 ∧
        u.Framed (u.removedTypes line line') rest out := by
  constructor
  · intro h
    cases h with
    | audio _ _ media' same tail => exact ⟨media', same, tail⟩
    | other _ notAudio _ => exact (Bool.false_ne_true (notAudio.symm.trans haudio)).elim
    | kept plain _ _ => exact (Bool.false_ne_true (plain.symm.trans media)).elim
    | dropped plain _ _ => exact (Bool.false_ne_true (plain.symm.trans media)).elim
  · rintro ⟨media', same, tail⟩
    exact .audio media haudio media' same tail

theorem framed_other {removed rest out : List Text} {line : Text}
    (media : isMediaLine line = true) (hnot : u.isAudio ⟨line, rest⟩ = false) :
    u.Framed removed (line :: rest) (line :: out) ↔ u.Framed [] rest out := by
  constructor
  · intro h
    cases h with
    | audio _ isAudio _ _ _ => exact (Bool.false_ne_true (hnot.symm.trans isAudio)).elim
    | other _ _ tail => exact tail
    | kept plain _ _ => exact (Bool.false_ne_true (plain.symm.trans media)).elim
    | dropped plain _ _ => exact (Bool.false_ne_true (plain.symm.trans media)).elim
  · exact .other media hnot

theorem framed_plain {removed rest out : List Text} {line : Text}
    (plain : isMediaLine line = false) :
    u.Framed removed (line :: rest) out ↔
      if u.mentions removed line then u.Framed removed rest out
      else ∃ out', out = line :: out' ∧ u.Framed removed rest out' := by
  constructor
  · intro h
    cases h with
    | audio media _ _ _ _ => exact (Bool.false_ne_true (plain.symm.trans media)).elim
    | other media _ _ => exact (Bool.false_ne_true (plain.symm.trans media)).elim
    | kept _ clear tail => simpa [clear] using tail
    | dropped _ of_removed tail => simpa [of_removed] using tail
  · intro h
    split_ifs at h with hmentions
    · exact .dropped plain hmentions h
    · obtain ⟨out', rfl, tail⟩ := h
      exact .kept plain ((Bool.not_eq_true _).mp hmentions) tail

variable (u)

/-- A text is framed by itself. -/
theorem framed_self (lines : List Text) : u.Framed [] lines lines := by
  induction lines with
  | nil => exact .nil
  | cons line rest ih =>
      cases media : isMediaLine line with
      | true =>
          cases haudio : u.isAudio ⟨line, rest⟩ with
          | true =>
              have hnone : u.removedTypes line line = [] := by simp [removedTypes]
              exact .audio media haudio media rfl (hnone ▸ ih)
          | false => exact .other media haudio ih
      | false => exact .kept media (by simp [mentions]) ih

/-- What was removed from the format list of the block that a line is in: the block keeps the
types of the first list and lists those of the second. -/
def removedIn (cur : Option (List Text × List Text)) : List Text :=
  cur.elim [] fun c => c.2.filter fun pt => pt ∉ c.1

/-- In a block, a line other than a media line is dealt with as it should be if and only if it is
not dropped without its type having been listed. -/
theorem framed_rewrite_plain (names : List Text) (cur : Option (List Text × List Text))
    {line : Text} (plain : isMediaLine line = false) (rest : List Text) :
    u.Framed (removedIn cur) (line :: rest) (u.rewrite names (cur.map Prod.fst) (line :: rest)) ↔
      (∀ c ∈ cur, u.dangling (c.1 ++ c.2) line = false) ∧
        u.Framed (removedIn cur) rest (u.rewrite names (cur.map Prod.fst) rest) := by
  have hcopied : ∀ removed out, u.mentions removed line = false →
      (u.Framed removed (line :: rest) (line :: out) ↔ u.Framed removed rest out) := by
    intro removed out hclear
    simp [framed_plain plain, hclear]
  simp only [rewrite, u.mLine_eq_none_of_plain plain]
  cases cur with
  | none => simp [hcopied, removedIn, mentions]
  | some c =>
      obtain ⟨keep, listed⟩ := c
      have hmentions := u.mentions_removed keep listed line
      simp only [removedIn, Option.elim_some, Option.map_some, Option.any_some, Option.mem_def,
        Option.some.injEq, forall_eq']
      by_cases hdangling : u.dangling keep line = true
      · rw [hdangling, Bool.true_and] at hmentions
        rw [framed_plain plain, hmentions, if_pos hdangling, List.nil_append]
        cases hlisted : u.dangling (keep ++ listed) line with
        | false => simp
        | true =>
            -- The line is missing, and nothing that comes later can stand in its place.
            refine iff_of_false ?_ (by simp)
            simp only [Bool.not_true, Bool.false_eq_true, if_false, not_exists, not_and]
            intro out hout _
            rw [u.clear_of_rewrite plain hout] at hdangling
            cases hdangling
      · have hlisted : u.dangling (keep ++ listed) line = false :=
          (Bool.not_eq_true _).mp fun h => hdangling (u.dangling_of_append h)
        rw [if_neg hdangling, List.singleton_append, hcopied, hlisted, and_iff_right rfl]
        rw [hmentions, (Bool.not_eq_true _).mp hdangling, Bool.false_and]

/-- The media line that is put in the place of an audio section's lists what the block keeps. -/
theorem framed_rebuild {line : Text} {m : MediaLine} (hm : u.mLine line = some m)
    (haudio : m.media = "audio".toList) (keep removed rest out : List Text) :
    u.Framed removed (line :: rest)
        (m.rebuild (orderFmts (words u.isSpace m.fmts) keep) :: out) ↔
      u.Framed (removedIn (some (keep, words u.isSpace m.fmts))) rest out := by
  obtain ⟨hmedia, hport, hproto, -⟩ := u.mLine_spec hm
  have hself : u.isAudio ⟨line, rest⟩ = true := by
    rw [u.isAudio_of_mLine hm, haudio]
    exact decide_eq_true rfl
  have hwords : ∀ pt ∈ orderFmts (words u.isSpace m.fmts) keep, u.IsToken pt :=
    fun pt hpt => mem_words (List.mem_of_mem_filter hpt)
  have htokens := u.tokens_rebuild hmedia hport hproto hwords
  have hsame : (u.tokens (m.rebuild (orderFmts (words u.isSpace m.fmts) keep))).take 3 =
      (u.tokens line).take 3 := by
    rw [htokens, u.tokens_of_mLine hm]
    rfl
  have hformats : u.formats ⟨line, []⟩ = words u.isSpace m.fmts := u.formats_of_mLine hm
  have hremoved : u.removedTypes line (m.rebuild (orderFmts (words u.isSpace m.fmts) keep)) =
      removedIn (some (keep, words u.isSpace m.fmts)) := by
    rw [removedTypes, hformats, formats, htokens, removedIn, Option.elim_some]
    refine List.filter_congr fun pt hpt => ?_
    simp [orderFmts, hpt]
  rw [framed_audio (u.isMediaLine_of_mLine hm) hself, hremoved,
    and_iff_right (isMediaLine_rebuild m _), and_iff_right hsame]

/-- A copied media line begins a section of which nothing was removed. -/
theorem framed_copied {line : Text} (media : isMediaLine line = true)
    (removed rest out : List Text) :
    u.Framed removed (line :: rest) (line :: out) ↔ u.Framed [] rest out := by
  cases haudio : u.isAudio ⟨line, rest⟩ with
  | true =>
      have hnone : u.removedTypes line line = [] := by simp [removedTypes]
      rw [framed_audio media haudio, hnone, and_iff_right media, and_iff_right rfl]
  | false => exact framed_other media haudio

/-- Every audio section that the filter recognises is left alone but for its codec list. -/
def SectionsLeftAlone (names lines : List Text) : Prop :=
  ∀ sec ∈ u.audioSections lines, (u.mLine sec.line).isSome = true → u.leavesAlone names sec = true

theorem sectionsLeftAlone_cons (names : List Text) (line : Text) (rest : List Text) :
    u.SectionsLeftAlone names (line :: rest) ↔
      ((∃ m, u.mLine line = some m ∧ m.media = "audio".toList) →
        u.leavesAlone names ⟨line, rest⟩ = true) ∧ u.SectionsLeftAlone names rest := by
  rw [SectionsLeftAlone, audioSections_cons, List.forall_mem_append]
  have hself : ∀ m, u.mLine line = some m →
      u.isAudio ⟨line, rest⟩ = decide (m.media = "audio".toList) :=
    fun _ hm => u.isAudio_of_mLine hm
  refine and_congr_left fun _ => ?_
  constructor
  · rintro h ⟨m, hm, haudio⟩
    refine h ⟨line, rest⟩ ?_ (Option.isSome_of_mem hm)
    simp [u.isMediaLine_of_mLine hm, hself m hm, haudio]
  · intro h sec hsec hsome
    split_ifs at hsec with hhere
    · rw [List.mem_singleton.mp hsec] at hsome ⊢
      obtain ⟨m, hm⟩ := Option.isSome_iff_exists.mp hsome
      rw [Bool.and_eq_true, hself m hm] at hhere
      exact h ⟨m, hm, of_decide_eq_true hhere.2⟩
    · cases hsec

/-- The rewriting leaves everything outside the codec lists alone if and only if it drops nothing
in the block that the first line is in, and nothing in the blocks of the sections that follow. -/
theorem framed_rewrite_iff (names : List Text) (cur : Option (List Text × List Text))
    (lines : List Text) :
    u.Framed (removedIn cur) lines (u.rewrite names (cur.map Prod.fst) lines) ↔
      (∀ c ∈ cur, u.spares c.1 c.2 lines = true) ∧ u.SectionsLeftAlone names lines := by
  induction lines generalizing cur with
  | nil =>
      refine iff_of_true .nil ⟨fun _ _ => rfl, fun sec hsec => ?_⟩
      cases hsec
  | cons line rest ih =>
      rw [sectionsLeftAlone_cons]
      cases media : isMediaLine line with
      | false =>
          have hnot : ¬ ∃ m, u.mLine line = some m ∧ m.media = "audio".toList := by
            simp [u.mLine_eq_none_of_plain media]
          simp only [u.framed_rewrite_plain names cur media rest, ih, u.spares_plain media,
            hnot, false_implies, true_and, Bool.and_eq_true, Bool.not_eq_true', ← and_assoc,
            forall_and]
      | true =>
          cases hm : u.mLine line with
          | none =>
              -- The section goes on as part of the block before it, with nothing listed.
              have hkept : (((cur.map Prod.fst).any fun keep => u.dangling keep line) : Bool) =
                  false := by
                simp [Option.any_map, u.dangling_of_isMediaLine media]
              have hrest := ih (cur.map fun c => (c.1, []))
              have hremoved : removedIn (cur.map fun c => (c.1, ([] : List Text))) = [] := by
                cases cur <;> rfl
              rw [hremoved, Option.map_map] at hrest
              simp only [rewrite, hm, hkept, Bool.false_eq_true, if_false, List.singleton_append]
              rw [u.framed_copied media]
              simp only [u.spares_unrecognised media hm]
              refine hrest.trans (and_congr ?_ ?_)
              · cases cur <;> simp
              · simp
          | some m =>
              have hspared : ∀ c ∈ cur, u.spares c.1 c.2 (line :: rest) = true :=
                fun c _ => u.spares_of_mLine hm c.1 c.2 rest
              rw [and_iff_right hspared]
              simp only [rewrite, hm]
              split_ifs with haudio
              · have hrest := ih (some (u.keptTypes names ⟨line, rest⟩, words u.isSpace m.fmts))
                have hformats : u.formats ⟨line, rest⟩ = words u.isSpace m.fmts :=
                  u.formats_of_mLine hm
                have hhere : u.leavesAlone names ⟨line, rest⟩ =
                    u.spares (u.keptTypes names ⟨line, rest⟩) (words u.isSpace m.fmts) rest := by
                  rw [leavesAlone, hformats]
                have hkeep : withStatic names (words u.isSpace m.fmts)
                    (u.keptByName names (u.blockBody rest)) = u.keptTypes names ⟨line, rest⟩ := by
                  rw [keptTypes, hformats]
                rw [hkeep, u.framed_rebuild hm haudio, hhere]
                refine hrest.trans ?_
                simp [haudio]
              · rw [u.framed_copied media]
                have hnot : ¬ ∃ m', some m = some m' ∧ m'.media = "audio".toList := by
                  rintro ⟨m', hm', haudio'⟩
                  cases hm'
                  exact haudio haudio'
                refine (ih none).trans (and_congr_left fun _ => ?_)
                exact iff_of_true (fun c hc => by cases hc) fun h => (hnot h).elim

/-! ## The filter -/

/-- The filter leaves everything outside the codec lists of the audio sections alone, if and only
if it does nothing (no name in the allow-list, no text, a block that would keep no payload type),
or every audio section that it recognises spares what its block reaches over. -/
theorem filterAudioCodecs_frames_iff (sdp : Text) (allowed : List Text) (preserveDtmf : Bool) :
    u.FramedText sdp (u.filterAudioCodecs sdp allowed preserveDtmf) ↔
      u.loweredNames allowed = [] ∨ sdp = [] ∨
      (u.sectionsIn sdp sdp).any (u.keepsNothing (u.allowedSet allowed preserveDtmf)) = true ∨
      ∀ sec ∈ u.sectionsIn sdp sdp, (u.mLine sec.line).isSome = true →
        u.leavesAlone (u.allowedSet allowed preserveDtmf) sec = true := by
  have hself : u.FramedText sdp sdp := u.framed_self _
  unfold filterAudioCodecs
  dsimp only
  split_ifs with hnames hsdp hbail
  · exact iff_of_true hself (.inl (List.isEmpty_iff.mp hnames))
  · exact iff_of_true hself (.inr (.inl (List.isEmpty_iff.mp hsdp)))
  · rw [any_keep_isEmpty] at hbail
    exact iff_of_true hself (.inr (.inr (.inl hbail)))
  · rw [any_keep_isEmpty] at hbail
    rw [List.isEmpty_iff] at hnames hsdp
    rw [or_iff_right hnames, or_iff_right hsdp, sectionsIn, or_iff_right hbail, FramedText,
      split_emit]
    refine (u.framed_rewrite_iff _ none _).trans (and_iff_right fun c hc => ?_)
    cases hc

/-- The port of the video section is written with a port count. -/
def countedPort : Text :=
  "m=audio 4000 RTP/AVP 0 8\nm=video 5000/2 RTP/AVP 96\na=rtpmap:96 H264/90000".toList

set_option maxRecDepth 2000 in
/-- The video section goes out without its `a=rtpmap`. -/
theorem countedPort_not_framed :
    ascii.filterAudioCodecs countedPort ["PCMA".toList] false =
      "m=audio 4000 RTP/AVP 8\nm=video 5000/2 RTP/AVP 96".toList ∧
    ¬ ascii.FramedText countedPort (ascii.filterAudioCodecs countedPort ["PCMA".toList] false) := by
  have hout : split (lineSep countedPort)
      (ascii.filterAudioCodecs countedPort ["PCMA".toList] false) =
        ["m=audio 4000 RTP/AVP 8".toList, "m=video 5000/2 RTP/AVP 96".toList] := by decide
  have hin : split (lineSep countedPort) countedPort =
      ["m=audio 4000 RTP/AVP 0 8".toList, "m=video 5000/2 RTP/AVP 96".toList,
        "a=rtpmap:96 H264/90000".toList] := by decide
  refine ⟨by decide, ?_⟩
  rw [FramedText, hin, hout, framed_audio (by decide) (by decide)]
  rintro ⟨-, -, h⟩
  rw [framed_other (by decide) (by decide), framed_plain (by decide), if_neg (by decide)] at h
  obtain ⟨out, hnil, -⟩ := h
  cases hnil

end CharTables

end PjsuaMcp.Sdp
