import PjsuaMcp.Sdp.Rewriting

/-!
# The filtered text

The filter joins the lines it puts out and so decides how they are read again.
The separator cannot appear in a line, neither in a copied one nor in a rebuilt
media line, so the output has exactly the lines of the rewriting. What the
filter does to a whole text is then one statement with two cases.
-/

namespace PjsuaMcp.Sdp

open Library

/-! ## Line separators -/

/-- Lines end in a line feed, with a carriage return before it or without. -/
theorem lineSep_cases (sdp : Text) : lineSep sdp = crlf ∨ lineSep sdp = lf := by
  unfold lineSep
  split_ifs
  · exact .inl rfl
  · exact .inr rfl

theorem lineSep_ne_nil (sdp : Text) : lineSep sdp ≠ [] := by
  rcases lineSep_cases sdp with h | h <;> simp [h, crlf, lf]

theorem newline_mem_lineSep (sdp : Text) : '\n' ∈ lineSep sdp := by
  rcases lineSep_cases sdp with h | h <;> simp [h, crlf, lf]

theorem borderless_lineSep (sdp : Text) : Borderless (lineSep sdp) := by
  intro border hne hend hbegin
  rcases lineSep_cases sdp with h | h
  · rw [h, crlf] at hend hbegin ⊢
    rw [List.suffix_cons_iff, List.suffix_cons_iff, List.suffix_nil] at hend
    rcases hend with rfl | rfl | rfl
    · rfl
    · revert hbegin
      decide
    · exact (hne rfl).elim
  · rw [h] at hend hbegin ⊢
    exact borderless_singleton '\n' border hne hend hbegin

namespace CharTables

variable (u : CharTables)

/-- The media sections of `text` with `audio` in them, `text` being cut into lines as `sdp` is. -/
def sectionsIn (sdp text : Text) : List Section := u.audioSections (split (lineSep sdp) text)

theorem newline_notMem_of_isToken {word : Text} (h : u.IsToken word) : '\n' ∉ word := by
  intro hmem
  have hspace := h.2 '\n' hmem
  rw [u.space_of_mem '\n' (by decide)] at hspace
  cases hspace

theorem newline_notMem_rebuild {line : Text} {m : MediaLine} (hm : u.mLine line = some m)
    {ordered : List Text} (hordered : ∀ pt ∈ ordered, u.IsToken pt) :
    '\n' ∉ m.rebuild ordered := by
  obtain ⟨hmedia, hport, hproto, -⟩ := u.mLine_spec hm
  have hformats : '\n' ∉ [' '].intercalate ordered := by
    intro hmem
    rcases mem_of_mem_intercalate hmem with hblank | ⟨pt, hpt, hmem⟩
    · revert hblank
      decide
    · exact u.newline_notMem_of_isToken (hordered pt hpt) hmem
  have hstart : '\n' ∉ "m=".toList := by decide
  have hblank : '\n' ∉ [' '] := by decide
  unfold MediaLine.rebuild
  generalize "m=".toList = start at hstart ⊢
  simp only [List.mem_append, not_or]
  exact ⟨⟨⟨⟨⟨⟨⟨hstart, u.newline_notMem_of_isToken hmedia⟩, hblank⟩,
    u.newline_notMem_of_isToken hport⟩, hblank⟩, u.newline_notMem_of_isToken hproto⟩, hblank⟩,
    hformats⟩

/-- Rewriting puts the separator into no line. -/
theorem free_of_mem_rewrite {sep : Text} (hsep : '\n' ∈ sep) (names : List Text)
    {cur : Option (List Text)} {lines : List Text} (hlines : ∀ line ∈ lines, ¬ sep <:+: line) :
    ∀ line ∈ u.rewrite names cur lines, ¬ sep <:+: line := by
  induction lines generalizing cur with
  | nil =>
      intro line hline
      cases hline
  | cons line rest ih =>
      obtain ⟨hfree, hrest⟩ := List.forall_mem_cons.mp hlines
      intro out hout
      simp only [rewrite] at hout
      split at hout
      · rename_i m hm
        split_ifs at hout
        · rcases List.mem_cons.mp hout with rfl | hlater
          · intro hin
            refine u.newline_notMem_rebuild hm (fun pt hpt => ?_) (hin.subset hsep)
            exact mem_words (List.mem_of_mem_filter hpt)
          · exact ih hrest out hlater
        · rcases List.mem_cons.mp hout with rfl | hlater
          · exact hfree
          · exact ih hrest out hlater
      · rcases List.mem_append.mp hout with hhere | hlater
        · split_ifs at hhere
          · cases hhere
          · rw [List.mem_singleton.mp hhere]
            exact hfree
        · exact ih hrest out hlater

theorem rewrite_ne_nil (names : List Text) {lines : List Text} (h : lines ≠ []) :
    u.rewrite names none lines ≠ [] := by
  obtain ⟨line, rest, rfl⟩ := List.exists_cons_of_ne_nil h
  simp only [rewrite, Option.any_none, Bool.false_eq_true, if_false]
  split
  · split_ifs
    · exact List.cons_ne_nil _ _
    · exact List.cons_ne_nil _ _
  · exact List.cons_ne_nil _ _

/-- The emitted text, cut into lines again. -/
theorem split_emit (sdp : Text) (names : List Text) :
    split (lineSep sdp) (u.emit (split (lineSep sdp) sdp)
        (u.scanAudioBlocks (split (lineSep sdp) sdp) names) (lineSep sdp)) =
      u.rewrite names none (split (lineSep sdp) sdp) := by
  obtain ⟨first, rest, hlines⟩ := splitFrom_eq_cons (lineSep sdp) 0 sdp
  have hne : split (lineSep sdp) sdp ≠ [] := by
    rw [split, hlines]
    exact List.cons_ne_nil _ _
  have hfree : ∀ line ∈ split (lineSep sdp) sdp, ¬ lineSep sdp <:+: line :=
    fun line hline => free_of_mem_split (lineSep_ne_nil sdp) hline
  rw [emit, scanAudioBlocks, (u.emitFrom_eq_rewrite names (Nat.zero_add _).symm).1]
  exact split_intercalate (lineSep_ne_nil sdp) (borderless_lineSep sdp)
    (u.rewrite_ne_nil names hne) (u.free_of_mem_rewrite (newline_mem_lineSep sdp) names hfree)

/-! ## The bail-out -/

/-- The block of a recognised audio section keeps no payload type at all. -/
def keepsNothing (names : List Text) (sec : Section) : Bool :=
  (u.mLine sec.line).isSome && (u.keptByName names (u.blockBody sec.after)).isEmpty &&
    !(u.formats sec).any (staticAllowed names)

/-- The recorded blocks are the recognised audio sections. -/
theorem scanLines_sections (names : List Text) (total i : Nat) (cur : Option AudioBlock)
    (lines : List Text) :
    (u.scanLines names total i cur lines).map (fun blk => (blk.fmts, blk.keep)) =
      (cur.toList.map fun blk =>
        (blk.fmts, blk.keep ++ u.keptByName names (u.blockBody lines))) ++
      ((u.audioSections lines).filter fun sec => (u.mLine sec.line).isSome).map fun sec =>
        (u.formats sec, u.keptByName names (u.blockBody sec.after)) := by
  induction lines generalizing i cur with
  | nil =>
      have hnone : u.audioSections [] = [] := rfl
      simp [scanLines, blockBody, keptByName, hnone]
  | cons line rest ih =>
      rw [audioSections_cons, List.filter_append, List.map_append]
      cases hm : u.mLine line with
      | some m =>
          have haudio : u.isAudio ⟨line, rest⟩ = decide (m.media = "audio".toList) :=
            u.isAudio_of_mLine hm
          have hformats : u.formats ⟨line, rest⟩ = words u.isSpace m.fmts := u.formats_of_mLine hm
          have hclosed : (cur.map fun blk => { blk with stop := i }).toList.map
              (fun blk => (blk.fmts, blk.keep)) = cur.toList.map fun blk =>
                (blk.fmts, blk.keep ++ u.keptByName names (u.blockBody (line :: rest))) := by
            rw [u.blockBody_cons_of_some hm]
            cases cur <;> simp [keptByName]
          simp only [scanLines, hm, List.map_append, ih, u.isMediaLine_of_mLine hm, haudio, hclosed]
          by_cases hm' : m.media = "audio".toList
          · simp [hm', hm, hformats]
          · simp only [if_neg hm', decide_eq_false hm', Bool.and_false, Bool.false_eq_true, if_false,
              Option.toList_none, List.map_nil, List.nil_append, List.filter_nil]
      | none =>
          have hbody := u.blockBody_cons_of_none hm rest
          have hskip : ((if isMediaLine line && u.isAudio ⟨line, rest⟩ then
              [(⟨line, rest⟩ : Section)] else []).filter fun sec => (u.mLine sec.line).isSome) =
              [] := by
            split_ifs
            · simp [hm]
            · rfl
          rw [hskip, List.map_nil, List.nil_append, hbody]
          simp only [scanLines, hm, ih]
          congr 1
          cases cur with
          | none => rfl
          | some blk =>
              simp only [Option.map_some, Option.toList_some, List.map_cons, List.map_nil,
                noteRtpmap_eq]
              rw [u.keptByName_cons names line (u.blockBody rest), List.append_assoc]

/-- The filter bails out exactly if it would keep nothing in some audio section. -/
theorem any_keep_isEmpty (names : List Text) (lines : List Text) :
    ((u.scanAudioBlocks lines names).any fun blk => blk.keep.isEmpty) =
      (u.audioSections lines).any (u.keepsNothing names) := by
  have hempty : ∀ fmts kept : List Text, (withStatic names fmts kept).isEmpty =
      (kept.isEmpty && !fmts.any (staticAllowed names)) := by
    intro fmts kept
    rw [Bool.eq_iff_iff, List.isEmpty_iff, List.eq_nil_iff_forall_not_mem]
    simp only [mem_withStatic, not_or, Bool.and_eq_true, List.isEmpty_iff, Bool.not_eq_true',
      List.any_eq_false, List.eq_nil_iff_forall_not_mem, not_and]
    constructor
    · exact fun h => ⟨fun q => (h q).1, fun q hq => (h q).2 hq⟩
    · exact fun h q => ⟨h.1 q, h.2 q⟩
  have hsections := u.scanLines_sections names lines.length 0 none lines
  rw [Option.toList_none, List.map_nil, List.nil_append] at hsections
  calc (u.scanAudioBlocks lines names).any (fun blk => blk.keep.isEmpty)
    _ = ((u.scanLines names lines.length 0 none lines).map fun blk => (blk.fmts, blk.keep)).any
          (fun r => (withStatic names r.1 r.2).isEmpty) := by
        rw [scanAudioBlocks, List.any_map, List.any_map]
        congr 1
        funext blk
        simp only [Function.comp_apply, AudioBlock.addStatic_eq]
    _ = (u.audioSections lines).any (u.keepsNothing names) := by
        rw [hsections, List.any_map, List.any_filter]
        congr 1
        funext sec
        simp only [Function.comp_apply, hempty, keepsNothing, Bool.and_assoc]

/-- The filter returns its input, or a text whose audio sections list what is kept. -/
theorem filterAudioCodecs_cases (sdp : Text) (allowed : List Text) (preserveDtmf : Bool) :
    (u.loweredNames allowed = [] ∨ sdp = [] ∨
        (u.sectionsIn sdp sdp).any (u.keepsNothing (u.allowedSet allowed preserveDtmf)) = true) ∧
      u.filterAudioCodecs sdp allowed preserveDtmf = sdp ∨
    (u.loweredNames allowed ≠ [] ∧ sdp ≠ [] ∧
        (u.sectionsIn sdp sdp).any (u.keepsNothing (u.allowedSet allowed preserveDtmf)) = false) ∧
      (u.sectionsIn sdp (u.filterAudioCodecs sdp allowed preserveDtmf)).map u.formats =
        (u.sectionsIn sdp sdp).map (u.keptFormats (u.allowedSet allowed preserveDtmf)) := by
  unfold filterAudioCodecs
  dsimp only
  split_ifs with hnames hsdp hbail
  · exact .inl ⟨.inl (List.isEmpty_iff.mp hnames), rfl⟩
  · exact .inl ⟨.inr (.inl (List.isEmpty_iff.mp hsdp)), rfl⟩
  · rw [any_keep_isEmpty] at hbail
    exact .inl ⟨.inr (.inr hbail), rfl⟩
  · rw [any_keep_isEmpty, Bool.not_eq_true] at hbail
    rw [List.isEmpty_iff] at hnames hsdp
    refine .inr ⟨⟨hnames, hsdp, hbail⟩, ?_⟩
    rw [sectionsIn, split_emit, formats_rewrite]
    rfl

end CharTables

end PjsuaMcp.Sdp
