import PjsuaMcp.Sdp.Frame

/-!
# Filtering twice

What the filter has put out is cut into lines, scanned and judged again by the
next run of the filter. A rewritten media line is recognised again, unless no
format was left on it; then the lines behind it belong to the block before it,
which keeps more types than it did. Either way nothing is left to drop.
-/

namespace PjsuaMcp.Sdp

open Library

namespace CharTables

variable (u : CharTables)

/-! ## Rewritten media lines -/

/-- The characters of an accepted media line's first three words. -/
theorem chars_of_mLine {line : Text} {m : MediaLine} (h : u.mLine line = some m) :
    (∀ c ∈ m.media, u.isWord c = true) ∧ (∀ c ∈ m.port, u.isDigit c = true) ∧
      ∀ c ∈ m.proto, (u.isWord c || c = '/') = true := by
  obtain ⟨rest, hmem⟩ := Matcher.mem_of_run h
  simp only [mLineRe, Matcher.mem_bind, Matcher.mem_lit, Matcher.mem_many1, lineEnd,
    Matcher.mem_ahead, Matcher.mem_pure] at hmem
  obtain ⟨-, _, rfl, media, _, ⟨rfl, -, hmedia⟩, _, _, -, port, _, ⟨rfl, -, hport⟩, _, _, -,
    proto, _, ⟨rfl, -, hproto⟩, _, _, -, _, _, -, -, _, -, rfl, -⟩ := hmem
  exact ⟨hmedia, hport, hproto⟩

/-- A rewritten line with formats is recognised again, with the same words. -/
theorem mLine_rebuild {line : Text} {m : MediaLine} (hm : u.mLine line = some m)
    {ordered : List Text} (hne : ordered ≠ []) (hordered : ∀ pt ∈ ordered, u.IsToken pt) :
    ∃ m', u.mLine (m.rebuild ordered) = some m' ∧ m'.media = m.media ∧ m'.port = m.port ∧
      m'.proto = m.proto ∧ words u.isSpace m'.fmts = ordered := by
  obtain ⟨hmedia, hport, hproto, -⟩ := u.mLine_spec hm
  obtain ⟨hmediaw, hportd, hprotow⟩ := u.chars_of_mLine hm
  have hblank : ∀ c ∈ [' '], u.isSpace c = true := by
    intro c hc
    rw [List.mem_singleton.mp hc]
    exact u.space_of_mem ' ' (by decide)
  have hfmts : [' '].intercalate ordered ≠ [] := by
    intro hnil
    have hwords := words_intercalate (hblank ' ' (List.mem_singleton_self _)) hordered
    rw [hnil, words_nil] at hwords
    exact hne hwords.symm
  have hdot : ∀ c ∈ [' '].intercalate ordered, dot c = true := by
    intro c hc
    refine decide_eq_true ?_
    rintro rfl
    rcases mem_of_mem_intercalate hc with hgap | ⟨pt, hpt, hmem⟩
    · revert hgap
      decide
    · exact u.newline_notMem_of_isToken (hordered pt hpt) hmem
  have hway : (⟨m.media, m.port, m.proto, [' '].intercalate ordered⟩, []) ∈
      u.mLineRe (m.rebuild ordered) := by
    simp only [mLineRe, Matcher.mem_bind, Matcher.mem_lit, Matcher.mem_many1, lineEnd,
      Matcher.mem_ahead, Matcher.mem_pure]
    refine ⟨(), _, ?_, m.media, _, ⟨rfl, hmedia.1, hmediaw⟩, [' '], _, ⟨rfl, by decide, hblank⟩,
      m.port, _, ⟨rfl, hport.1, hportd⟩, [' '], _, ⟨rfl, by decide, hblank⟩, m.proto, _,
      ⟨rfl, hproto.1, hprotow⟩, [' '], _, ⟨rfl, by decide, hblank⟩, [' '].intercalate ordered, [],
      ⟨(List.append_nil _).symm, hfmts, hdot⟩, (), [], ⟨by decide, rfl⟩, rfl, rfl⟩
    unfold MediaLine.rebuild
    generalize "m=".toList = start
    simp only [List.append_assoc]
  have hsome : (u.mLine (m.rebuild ordered)).isSome = true := by
    rw [mLine, Matcher.run, Option.isSome_map, List.isSome_head?]
    exact List.ne_nil_of_mem hway
  obtain ⟨m', hm'⟩ := Option.isSome_iff_exists.mp hsome
  have htokens := u.tokens_of_mLine hm'
  rw [u.tokens_rebuild hmedia hport hproto hordered] at htokens
  simp only [List.cons.injEq, List.append_cancel_left_eq] at htokens
  obtain ⟨hmedia', hport', hproto', hfmts'⟩ := htokens
  exact ⟨m', hm', hmedia'.symm, hport'.symm, hproto'.symm, hfmts'.symm⟩

/-- Without formats it is not: the pattern wants a character behind the gap. -/
theorem mLine_rebuild_nil {line : Text} {m : MediaLine} (hm : u.mLine line = some m) :
    u.mLine (m.rebuild []) = none := by
  refine Option.eq_none_iff_forall_ne_some.mpr fun m' hm' => ?_
  obtain ⟨hmedia, hport, hproto, -⟩ := u.mLine_spec hm
  have htokens := u.tokens_of_mLine hm'
  rw [u.tokens_rebuild hmedia hport hproto (List.forall_mem_nil _)] at htokens
  simp only [List.cons.injEq, List.append_cancel_left_eq] at htokens
  obtain ⟨hmedia', hport', hproto', -⟩ := htokens
  obtain ⟨rest, hmem⟩ := Matcher.mem_of_run hm'
  simp only [mLineRe, Matcher.mem_bind, Matcher.mem_lit, Matcher.mem_many1, lineEnd,
    Matcher.mem_ahead, Matcher.mem_pure] at hmem
  obtain ⟨-, _, hline, media, _, ⟨rfl, -, -⟩, gap₁, _, ⟨rfl, hgap₁, -⟩, port, _, ⟨rfl, -, -⟩,
    gap₂, _, ⟨rfl, hgap₂, -⟩, proto, _, ⟨rfl, -, -⟩, gap₃, _, ⟨rfl, hgap₃, -⟩, fmts, _,
    ⟨rfl, hfmts, -⟩, -, last, -, rfl, -⟩ := hmem
  have hlength := congrArg List.length hline
  simp only [MediaLine.rebuild, List.intercalate_nil, List.append_nil, List.length_append,
    List.length_singleton] at hlength
  dsimp only at hmedia' hport' hproto'
  subst hmedia' hport' hproto'
  have h₁ := List.length_pos_of_ne_nil hgap₁
  have h₂ := List.length_pos_of_ne_nil hgap₂
  have h₃ := List.length_pos_of_ne_nil hgap₃
  have h₄ := List.length_pos_of_ne_nil hfmts
  omega

/-! ## Blocks of rewritten lines -/

/-- The lines of a block that name or describe a payload type name one of these. -/
def Settles (keep lines : List Text) : Prop :=
  ∀ line ∈ u.blockBody lines, u.dangling keep line = false

variable {u}

theorem Settles.nil (keep : List Text) : u.Settles keep [] := List.forall_mem_nil _

theorem Settles.of_mLine {line : Text} {m : MediaLine} (h : u.mLine line = some m)
    (keep rest : List Text) : u.Settles keep (line :: rest) := by
  rw [Settles, u.blockBody_cons_of_some h]
  exact List.forall_mem_nil _

theorem settles_cons {line : Text} (h : u.mLine line = none) (keep rest : List Text) :
    u.Settles keep (line :: rest) ↔ u.dangling keep line = false ∧ u.Settles keep rest := by
  rw [Settles, u.blockBody_cons_of_none h, List.forall_mem_cons]
  rfl

theorem dangling_mono {keep keep' : List Text} (hsub : keep ⊆ keep') {line : Text}
    (h : u.dangling keep line = false) : u.dangling keep' line = false := by
  simp only [dangling, Bool.or_eq_false_iff, Option.any_eq_false, decide_eq_false_iff_not,
    not_not] at h ⊢
  exact ⟨fun r hr => hsub (h.1 r hr), fun pt hpt => hsub (h.2 pt hpt)⟩

theorem Settles.mono {keep keep' lines : List Text} (h : u.Settles keep lines)
    (hsub : keep ⊆ keep') : u.Settles keep' lines :=
  fun line hline => dangling_mono hsub (h line hline)

/-- A line that names a kept type is not dangling. -/
theorem keptByName_of_dangling {names keep : List Text} {line : Text}
    (hkeep : u.keptByName names [line] ⊆ keep) (h : u.dangling keep line = true) :
    u.keptByName names [line] = [] := by
  cases hr : u.rtpmap line with
  | none => simp [keptByName, hr]
  | some r =>
      by_cases hname : u.lower r.2 ∈ names
      · have hmem : r.1 ∈ keep := hkeep (by simp [keptByName, hr, hname])
        rw [dangling, hr, u.fmtp_eq_none_of_rtpmap hr] at h
        simp [hmem] at h
      · simp [keptByName, hr, hname]

/-- The formats that are left on a media line, none of which is there: no static name was
allowed. -/
theorem withStatic_subset {names fmts kept : List Text}
    (h : orderFmts fmts (withStatic names fmts kept) = []) : withStatic names fmts kept ⊆ kept := by
  intro pt hpt
  rcases mem_withStatic.mp hpt with hkept | ⟨hfmt, hstatic⟩
  · exact hkept
  · have hleft : pt ∈ orderFmts fmts (withStatic names fmts kept) :=
      List.mem_filter.mpr ⟨hfmt, decide_eq_true hpt⟩
    rw [h] at hleft
    cases hleft

variable (u)

/-- In a rewritten block the same types are kept by name, and every type that a line names or
describes is kept, by the block before or by the rewritten one. -/
theorem settles_rewrite (names : List Text) {keep lines : List Text}
    (hkeep : u.keptByName names (u.blockBody lines) ⊆ keep) :
    u.keptByName names (u.blockBody lines) ⊆
        u.keptByName names (u.blockBody (u.rewrite names (some keep) lines)) ∧
      u.Settles (keep ++ u.keptByName names (u.blockBody (u.rewrite names (some keep) lines)))
        (u.rewrite names (some keep) lines) := by
  induction lines generalizing keep with
  | nil => exact ⟨List.Subset.refl _, Settles.nil _⟩
  | cons line rest ih =>
      cases hm : u.mLine line with
      | none =>
          rw [u.blockBody_cons_of_none hm, keptByName_cons, List.append_subset] at hkeep
          obtain ⟨hnamed, hsettles⟩ := ih hkeep.2
          rw [u.blockBody_cons_of_none hm, u.keptByName_cons names line (u.blockBody rest)]
          simp only [rewrite, hm, Option.any_some]
          split_ifs with hdangling
          · rw [keptByName_of_dangling hkeep.1 hdangling]
            exact ⟨hnamed, hsettles⟩
          · rw [List.singleton_append, u.blockBody_cons_of_none hm,
              u.keptByName_cons names line (u.blockBody (u.rewrite names (some keep) rest))]
            have hboth : ∀ {a b c : List Text}, b ⊆ c → a ++ b ⊆ a ++ c := fun h =>
              List.append_subset.mpr ⟨List.subset_append_left _ _,
                List.subset_append_of_subset_right _ h⟩
            refine ⟨hboth hnamed, ?_⟩
            rw [settles_cons hm]
            exact ⟨dangling_mono (List.subset_append_left _ _) ((Bool.not_eq_true _).mp hdangling),
              hsettles.mono (hboth (List.subset_append_right _ _))⟩
      | some m =>
          rw [u.blockBody_cons_of_some hm]
          refine ⟨List.nil_subset _, ?_⟩
          simp only [rewrite, hm]
          split_ifs with haudio
          · generalize hblock : withStatic names (words u.isSpace m.fmts)
              (u.keptByName names (u.blockBody rest)) = keep'
            have hnamed' : u.keptByName names (u.blockBody rest) ⊆ keep' := by
              intro pt hpt
              rw [← hblock]
              exact mem_withStatic.mpr (.inl hpt)
            obtain ⟨hnamed, hsettles⟩ := ih hnamed'
            by_cases hleft : orderFmts (words u.isSpace m.fmts) keep' = []
            · -- the line is no media line to the filter any more: its block goes on with this one
              have hnone := u.mLine_rebuild_nil hm
              rw [hleft, settles_cons hnone, u.blockBody_cons_of_none hnone, keptByName_cons]
              refine ⟨u.dangling_of_isMediaLine (isMediaLine_rebuild m []) _, hsettles.mono ?_⟩
              have hsub : keep' ⊆ u.keptByName names (u.blockBody rest) := by
                rw [← hblock] at hleft ⊢
                exact withStatic_subset hleft
              intro pt hpt
              refine List.mem_append_right _ (List.mem_append_right _ ?_)
              rcases List.mem_append.mp hpt with hpt | hpt
              · exact hnamed (hsub hpt)
              · exact hpt
            · obtain ⟨m', hm', -⟩ := u.mLine_rebuild hm hleft fun pt hpt =>
                mem_words (List.mem_of_mem_filter hpt)
              exact Settles.of_mLine hm' _ _
          · exact Settles.of_mLine hm _ _

/-- Rewriting rewritten lines changes nothing, in a block that keeps every type named there. -/
theorem rewrite_rewrite (names : List Text) {cur cur' : Option (List Text)} {lines : List Text}
    (h : ∀ keep ∈ cur', u.Settles keep (u.rewrite names cur lines)) :
    u.rewrite names cur' (u.rewrite names cur lines) = u.rewrite names cur lines := by
  induction lines generalizing cur cur' with
  | nil => rfl
  | cons line rest ih =>
      cases hm : u.mLine line with
      | none =>
          simp only [rewrite, hm] at h ⊢
          split_ifs at h ⊢ with hdangling
          · exact ih h
          · simp only [List.singleton_append, settles_cons hm] at h
            have hstays : (cur'.any fun keep => u.dangling keep line) = false := by
              rw [Option.any_eq_false]
              intro keep hkeep
              exact (h keep hkeep).1
            rw [List.singleton_append, rewrite, hm]
            dsimp only
            rw [hstays, ih fun keep hkeep => (h keep hkeep).2]
            rfl
      | some m =>
          simp only [rewrite, hm] at h ⊢
          split_ifs at h ⊢ with haudio
          · generalize hblock : withStatic names (words u.isSpace m.fmts)
              (u.keptByName names (u.blockBody rest)) = keep at h ⊢
            have hnamed : u.keptByName names (u.blockBody rest) ⊆ keep := by
              intro pt hpt
              rw [← hblock]
              exact mem_withStatic.mpr (.inl hpt)
            obtain ⟨hnamed', hsettles⟩ := u.settles_rewrite names hnamed
            by_cases hleft : orderFmts (words u.isSpace m.fmts) keep = []
            · have hnone := u.mLine_rebuild_nil hm
              rw [hleft] at h ⊢
              have hstays : (cur'.any fun keep => u.dangling keep (m.rebuild [])) = false := by
                rw [Option.any_eq_false]
                intro keep _
                exact u.dangling_of_isMediaLine (isMediaLine_rebuild m []) keep
              simp only [settles_cons hnone] at h
              rw [rewrite, hnone]
              dsimp only
              rw [hstays, ih fun keep hkeep => (h keep hkeep).2]
              rfl
            · obtain ⟨m', hm', hmedia, hport, hproto, hfmts⟩ := u.mLine_rebuild hm hleft fun pt hpt =>
                mem_words (List.mem_of_mem_filter hpt)
              have hstatic : ∀ pt ∈ keep, pt ∈ u.keptByName names (u.blockBody rest) ∨
                  (pt ∈ orderFmts (words u.isSpace m.fmts) keep ∧
                    staticAllowed names pt = true) := by
                intro pt hpt
                rcases mem_withStatic.mp (hblock ▸ hpt) with hname | ⟨hfmt, hstatic⟩
                · exact .inl hname
                · exact .inr ⟨List.mem_filter.mpr ⟨hfmt, decide_eq_true hpt⟩, hstatic⟩
              -- what the next run keeps in this block
              generalize hagain : withStatic names (orderFmts (words u.isSpace m.fmts) keep)
                (u.keptByName names (u.blockBody (u.rewrite names (some keep) rest))) = keep₂
              have hkeep₂ : keep ++ u.keptByName names
                  (u.blockBody (u.rewrite names (some keep) rest)) ⊆ keep₂ := by
                intro pt hpt
                rw [← hagain, mem_withStatic]
                rcases List.mem_append.mp hpt with hpt | hpt
                · exact (hstatic pt hpt).imp_left fun hname => hnamed' hname
                · exact .inl hpt
              have hsame : orderFmts (orderFmts (words u.isSpace m.fmts) keep) keep₂ =
                  orderFmts (words u.isSpace m.fmts) keep := by
                refine List.filter_eq_self.mpr fun pt hpt => decide_eq_true ?_
                exact hkeep₂ (List.mem_append_left _ (of_decide_eq_true (List.mem_filter.mp hpt).2))
              rw [rewrite, hm']
              dsimp only
              rw [hmedia, if_pos haudio, hfmts, hagain, hsame]
              congr 1
              · rw [MediaLine.rebuild, MediaLine.rebuild, hmedia, hport, hproto]
              · refine ih fun keep' hkeep' => ?_
                cases hkeep'
                exact hsettles.mono hkeep₂
          · rw [rewrite, hm]
            dsimp only
            rw [if_neg haudio, ih fun keep hkeep => by cases hkeep]

end CharTables

/-! ## The separator of the output -/

/-- Only the last line may end with a carriage return. -/
def Separated (lines : List Text) : Prop :=
  lines.Pairwise fun line _ => line.getLast? ≠ some '\r'

/-- A carriage return in front of the newline behind a line is the line's last character. -/
theorem crlf_infix_append {line : Text} (hline : '\n' ∉ line) (rest : Text) :
    crlf <:+: line ++ '\n' :: rest ↔ line.getLast? = some '\r' ∨ crlf <:+: rest := by
  induction line with
  | nil => simp [crlf, List.infix_cons_iff]
  | cons c line ih =>
      rw [List.mem_cons, not_or] at hline
      have hhere : crlf <+: c :: (line ++ '\n' :: rest) ↔ c = '\r' ∧ line = [] := by
        rw [crlf, List.cons_prefix_cons, eq_comm]
        refine and_congr_right fun _ => ?_
        cases line with
        | nil => simp
        | cons d line =>
            refine iff_of_false (fun hbegins => ?_) (List.cons_ne_nil _ _)
            rw [List.cons_append, List.cons_prefix_cons] at hbegins
            exact hline.2 (hbegins.1 ▸ List.mem_cons_self)
      rw [List.cons_append, List.infix_cons_iff, hhere, ih hline.2]
      cases line with
      | nil => simp
      | cons d line => simp

/-- Lines without newlines, joined by newlines: where a carriage return stands in front of one. -/
theorem crlf_infix_intercalate {lines : List Text} (hfree : ∀ line ∈ lines, '\n' ∉ line) :
    ¬crlf <:+: lf.intercalate lines ↔ Separated lines := by
  induction lines with
  | nil => simp [Separated, crlf]
  | cons line lines ih =>
      obtain ⟨hline, hlines⟩ := List.forall_mem_cons.mp hfree
      cases lines with
      | nil =>
          rw [List.intercalate_singleton]
          exact iff_of_true (fun hin => hline (hin.subset (by decide))) (List.pairwise_singleton _ _)
      | cons next lines =>
          rw [List.intercalate_cons_cons, List.append_assoc, lf, List.singleton_append,
            crlf_infix_append hline, not_or, Separated, List.pairwise_cons]
          refine and_congr ?_ (ih hlines)
          exact ⟨fun h _ _ => h, fun h => h next List.mem_cons_self⟩

theorem getLast?_rebuild (m : MediaLine) {ordered : List Text}
    (hordered : ∀ pt ∈ ordered, '\r' ∉ pt) : (m.rebuild ordered).getLast? ≠ some '\r' := by
  intro hlast
  have hmem : ∀ {l : Text}, l.getLast? = some '\r' → '\r' ∈ l := List.mem_of_getLast?
  rw [MediaLine.rebuild, List.getLast?_append] at hlast
  rcases Option.or_eq_some_iff.mp hlast with hformats | ⟨-, hgap⟩
  · rcases mem_of_mem_intercalate (hmem hformats) with hblank | ⟨pt, hpt, hin⟩
    · revert hblank
      decide
    · exact hordered pt hpt hin
  · rw [List.getLast?_append] at hgap
    cases hgap

namespace CharTables

variable (u : CharTables)

theorem separated_rewrite (names : List Text) (cur : Option (List Text)) {lines : List Text}
    (h : Separated lines) : Separated (u.rewrite names cur lines) := by
  induction lines generalizing cur with
  | nil => exact h
  | cons line rest ih =>
      obtain ⟨hline, hrest⟩ := List.pairwise_cons.mp h
      -- where a line is followed by another one after rewriting, it was before
      have hcopied : ∀ cur', Separated (line :: u.rewrite names cur' rest) := by
        intro cur'
        refine List.pairwise_cons.mpr ⟨fun out hout => ?_, ih cur' hrest⟩
        cases rest with
        | nil => cases hout
        | cons next rest => exact hline next List.mem_cons_self
      simp only [rewrite]
      split
      · rename_i m hm
        split_ifs with haudio
        · refine List.pairwise_cons.mpr ⟨fun _ _ => getLast?_rebuild m fun pt hpt hin => ?_,
            ih _ hrest⟩
          have hspace := (mem_words (List.mem_of_mem_filter hpt)).2 '\r' hin
          rw [u.space_of_mem '\r' (by decide)] at hspace
          cases hspace
        · exact hcopied none
      · split_ifs
        · exact ih cur hrest
        · exact hcopied cur

/-- When rewriting leaves one line of several, that line is a rewritten media line. -/
theorem newline_notMem_of_rewrite {names : List Text} {first next out : Text} {rest : List Text}
    (h : u.rewrite names none (first :: next :: rest) = [out]) : '\n' ∉ out := by
  rw [rewrite] at h
  cases hm : u.mLine first with
  | some m =>
      rw [hm] at h
      dsimp only at h
      split_ifs at h
      · rw [← (List.cons.inj h).1]
        exact u.newline_notMem_rebuild hm fun pt hpt => mem_words (List.mem_of_mem_filter hpt)
      · exact (u.rewrite_ne_nil names (List.cons_ne_nil _ _) (List.cons.inj h).2).elim
  | none =>
      rw [hm] at h
      exact (u.rewrite_ne_nil names (List.cons_ne_nil _ _) (List.cons.inj h).2).elim

/-- The emitted text is cut into the same lines again. -/
theorem split_emitted (sdp : Text) (names : List Text) :
    split (lineSep ((lineSep sdp).intercalate (u.rewrite names none (split (lineSep sdp) sdp))))
        ((lineSep sdp).intercalate (u.rewrite names none (split (lineSep sdp) sdp))) =
      u.rewrite names none (split (lineSep sdp) sdp) := by
  have hback := intercalate_split (lineSep_ne_nil sdp) sdp
  have hfree : ∀ line ∈ split (lineSep sdp) sdp, ¬ lineSep sdp <:+: line :=
    fun line hline => free_of_mem_split (lineSep_ne_nil sdp) hline
  obtain ⟨first, rest, hlines⟩ := splitFrom_eq_cons (lineSep sdp) 0 sdp
  have hne : split (lineSep sdp) sdp ≠ [] := by
    rw [split, hlines]
    exact List.cons_ne_nil _ _
  have hout := u.rewrite_ne_nil names hne
  have houtfree : ∀ line ∈ u.rewrite names none (split (lineSep sdp) sdp),
      ¬ lineSep sdp <:+: line := u.free_of_mem_rewrite (newline_mem_lineSep sdp) names hfree
  -- with the separator of the input, the output is cut into its lines
  have hsplit : lineSep ((lineSep sdp).intercalate (u.rewrite names none (split (lineSep sdp) sdp))) =
      lineSep sdp → split (lineSep ((lineSep sdp).intercalate
        (u.rewrite names none (split (lineSep sdp) sdp)))) ((lineSep sdp).intercalate
          (u.rewrite names none (split (lineSep sdp) sdp))) =
      u.rewrite names none (split (lineSep sdp) sdp) := by
    intro hsame
    rw [hsame]
    exact split_intercalate (lineSep_ne_nil sdp) (borderless_lineSep sdp) hout houtfree
  by_cases hcrlf : crlf <:+: sdp
  · have hsep : lineSep sdp = crlf := if_pos hcrlf
    rw [hsep] at hback hlines hfree hout houtfree hsplit ⊢
    cases hlist : u.rewrite names none (split crlf sdp) with
    | nil => exact (hout hlist).elim
    | cons line lines =>
        rw [hlist] at hsplit houtfree
        cases lines with
        | nil =>
            have hnewline : '\n' ∉ line := by
              cases rest with
              | nil =>
                  rw [split, hlines, List.intercalate_singleton] at hback
                  refine (hfree first ?_ (hback ▸ hcrlf)).elim
                  rw [split, hlines]
                  exact List.mem_cons_self
              | cons next rest =>
                  rw [split, hlines] at hlist
                  exact u.newline_notMem_of_rewrite hlist
            rw [List.intercalate_singleton]
            exact split_of_free fun hin => hnewline (hin.subset (newline_mem_lineSep line))
        | cons next lines =>
            refine hsplit (if_pos ?_)
            rw [List.intercalate_cons_cons]
            exact (List.infix_append _ _ _)
  · have hsep : lineSep sdp = lf := if_neg hcrlf
    rw [hsep] at hback hlines hfree hout houtfree hsplit ⊢
    have hchars : ∀ {text : Text}, ¬ lf <:+: text ↔ '\n' ∉ text := by
      intro text
      rw [lf, List.singleton_infix_iff]
    have hseparated : Separated (split lf sdp) := by
      rw [← crlf_infix_intercalate fun line hline => hchars.mp (hfree line hline), hback]
      exact hcrlf
    refine hsplit (if_neg ?_)
    rw [crlf_infix_intercalate fun line hline => hchars.mp (houtfree line hline)]
    exact u.separated_rewrite names none hseparated

/-! ## The filter -/

/-- A second run of the filter finds nothing to do. -/
theorem filterAudioCodecs_idem (sdp : Text) (allowed : List Text) (preserveDtmf : Bool) :
    u.filterAudioCodecs (u.filterAudioCodecs sdp allowed preserveDtmf) allowed preserveDtmf =
      u.filterAudioCodecs sdp allowed preserveDtmf := by
  by_cases hchanged : u.filterAudioCodecs sdp allowed preserveDtmf = sdp
  · rw [hchanged, hchanged]
  · have hemit : u.filterAudioCodecs sdp allowed preserveDtmf = (lineSep sdp).intercalate
        (u.rewrite (u.allowedSet allowed preserveDtmf) none (split (lineSep sdp) sdp)) := by
      rw [filterAudioCodecs] at hchanged ⊢
      dsimp only at hchanged ⊢
      split_ifs at hchanged ⊢
      · exact (hchanged rfl).elim
      · exact (hchanged rfl).elim
      · exact (hchanged rfl).elim
      · rw [emit, scanAudioBlocks, (u.emitFrom_eq_rewrite _ (Nat.zero_add _).symm).1]
    have hagain := u.split_emitted sdp (u.allowedSet allowed preserveDtmf)
    rw [← hemit] at hagain
    generalize u.filterAudioCodecs sdp allowed preserveDtmf = out at hemit hagain ⊢
    have hback : (lineSep out).intercalate (split (lineSep out) out) = out :=
      intercalate_split (lineSep_ne_nil out) out
    rw [filterAudioCodecs]
    dsimp only
    split_ifs
    · rfl
    · rfl
    · rfl
    · rw [emit, scanAudioBlocks, (u.emitFrom_eq_rewrite _ (Nat.zero_add _).symm).1]
      rw [hagain] at hback ⊢
      rw [u.rewrite_rewrite _ fun keep hkeep => by cases hkeep]
      exact hback

end CharTables

end PjsuaMcp.Sdp
