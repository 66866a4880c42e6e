import PjsuaMcp.Sdp.Sections

/-!
# The two passes as one rewriting

The two passes of the filter talk about lines by their numbers. `rewrite` does
the same work in one pass over the lines, carrying the kept payload types of
the block it is in; `emitFrom_eq_rewrite` connects the two. The format lists of
the rewritten lines are then read off section by section.
-/

namespace PjsuaMcp.Sdp

open Library

/-! ## Static names -/

/-- The payload types kept after the static fallback. -/
def withStatic (names fmts keep : List Text) : List Text :=
  fmts.foldl
    (fun keep pt =>
      if pt ∈ keep then keep else if staticAllowed names pt then keep ++ [pt] else keep)
    keep

/-- The fallback changes nothing but the kept payload types. -/
theorem AudioBlock.addStatic_eq (names : List Text) (blk : AudioBlock) :
    blk.addStatic names = { blk with keep := withStatic names blk.fmts blk.keep } := by
  have hfold : ∀ (fmts : List Text) (blk : AudioBlock),
      fmts.foldl
        (fun blk pt =>
          if pt ∈ blk.keep then blk
          else if staticAllowed names pt then { blk with keep := blk.keep ++ [pt] } else blk)
        blk = { blk with keep := withStatic names fmts blk.keep } := by
    intro fmts
    induction fmts with
    | nil => exact fun _ => rfl
    | cons pt fmts ih =>
        intro blk
        rw [List.foldl_cons, ih, withStatic, withStatic, List.foldl_cons]
        split_ifs <;> rfl
  exact hfold blk.fmts blk

theorem mem_withStatic {names fmts keep : List Text} {q : Text} :
    q ∈ withStatic names fmts keep ↔
      q ∈ keep ∨ (q ∈ fmts ∧ staticAllowed names q = true) := by
  induction fmts generalizing keep with
  | nil => simp [withStatic]
  | cons pt fmts ih =>
      have hstep : withStatic names (pt :: fmts) keep = withStatic names fmts
          (if pt ∈ keep then keep else if staticAllowed names pt then keep ++ [pt] else keep) := rfl
      have hone : q ∈ (if pt ∈ keep then keep else if staticAllowed names pt then keep ++ [pt] else keep) ↔
          q ∈ keep ∨ (q = pt ∧ staticAllowed names q = true) := by
        split_ifs with hmem hallowed
        · refine (or_iff_left_of_imp ?_).symm
          rintro ⟨rfl, -⟩
          exact hmem
        · rw [List.mem_append, List.mem_singleton]
          exact or_congr_right (iff_self_and.mpr fun h => h ▸ hallowed)
        · refine (or_iff_left ?_).symm
          rintro ⟨rfl, h⟩
          exact hallowed h
      rw [hstep, ih, hone, List.mem_cons, or_and_right, or_assoc]

namespace CharTables

variable (u : CharTables)

/-! ## Blocks -/

/-- The lines up to the next media line that the filter recognises. -/
def blockBody (after : List Text) : List Text := after.takeWhile fun line => (u.mLine line).isNone

/-- The payload types that the allowed `a=rtpmap` lines of a block name. -/
def keptByName (names : List Text) (body : List Text) : List Text :=
  body.filterMap fun line => (u.rtpmap line).bind fun r =>
    if u.lower r.2 ∈ names then some r.1 else none

theorem noteRtpmap_eq (names : List Text) (blk : AudioBlock) (line : Text) :
    u.noteRtpmap names blk line = { blk with keep := blk.keep ++ u.keptByName names [line] } := by
  unfold noteRtpmap
  cases hline : u.rtpmap line with
  | none => simp [keptByName, hline]
  | some r =>
      dsimp only
      split_ifs with hname
      · simp [keptByName, hline, hname]
      · simp [keptByName, hline, hname]

theorem blockBody_cons_of_some {line : Text} {m : MediaLine} (h : u.mLine line = some m)
    (rest : List Text) : u.blockBody (line :: rest) = [] := by
  rw [blockBody, List.takeWhile_cons_of_neg]
  simp [h]

theorem blockBody_cons_of_none {line : Text} (h : u.mLine line = none) (rest : List Text) :
    u.blockBody (line :: rest) = line :: u.blockBody rest := by
  rw [blockBody, List.takeWhile_cons_of_pos]
  · rfl
  · rw [h]
    rfl

theorem keptByName_cons (names : List Text) (line : Text) (body : List Text) :
    u.keptByName names (line :: body) = u.keptByName names [line] ++ u.keptByName names body := by
  rw [keptByName, ← List.singleton_append, List.filterMap_append]
  rfl

/-- An open block is closed where the next recognised media line stands, with the payload types
named in between; scanning goes on from there without an open block. -/
theorem scanLines_some (names : List Text) {total i : Nat} {blk : AudioBlock} {lines : List Text}
    (htotal : total = i + lines.length) (hstop : blk.stop = total) :
    u.scanLines names total i (some blk) lines =
      { blk with
        stop := i + (u.blockBody lines).length
        keep := blk.keep ++ u.keptByName names (u.blockBody lines) } ::
      u.scanLines names total (i + (u.blockBody lines).length) none
        (lines.drop (u.blockBody lines).length) := by
  induction lines generalizing i blk with
  | nil =>
      rw [List.length_nil, Nat.add_zero] at htotal
      simp [scanLines, blockBody, keptByName, ← htotal, ← hstop]
  | cons line rest ih =>
      rw [List.length_cons] at htotal
      cases hm : u.mLine line with
      | some m =>
          rw [u.blockBody_cons_of_some hm]
          simp [scanLines, hm, keptByName]
      | none =>
          rw [u.blockBody_cons_of_none hm]
          have hrest := @ih (i + 1) { blk with keep := blk.keep ++ u.keptByName names [line] }
            (by omega) hstop
          simp only [scanLines, hm, Option.map_some, List.length_cons, List.drop_succ_cons]
          rw [noteRtpmap_eq, hrest, u.keptByName_cons names line (u.blockBody rest),
            ← List.append_assoc, Nat.add_right_comm i 1, Nat.add_assoc i]

/-- Every block starts where scanning starts or later, and stops after its start. -/
theorem scanLines_bounds (names : List Text) {total i j : Nat} {cur : Option AudioBlock}
    {lines : List Text} (htotal : total = i + lines.length) (hj : j ≤ i)
    (hcur : ∀ blk ∈ cur, j ≤ blk.start ∧ blk.start < i ∧ blk.stop = total) :
    ∀ blk ∈ u.scanLines names total i cur lines, j ≤ blk.start ∧ blk.start < blk.stop := by
  induction lines generalizing i cur with
  | nil =>
      intro blk hblk
      obtain ⟨hstart, hlt, hstop⟩ := hcur blk (Option.mem_toList.mp hblk)
      rw [List.length_nil] at htotal
      exact ⟨hstart, by omega⟩
  | cons line rest ih =>
      rw [List.length_cons] at htotal
      intro blk hblk
      simp only [scanLines] at hblk
      split at hblk
      · rename_i m _
        rcases List.mem_append.mp hblk with hclosed | hlater
        · rw [Option.mem_toList, Option.map_eq_some_iff] at hclosed
          obtain ⟨blk', hblk', rfl⟩ := hclosed
          obtain ⟨hstart, hlt, -⟩ := hcur blk' hblk'
          exact ⟨hstart, hlt⟩
        · refine ih (by omega) (by omega) ?_ blk hlater
          intro blk' hblk'
          split_ifs at hblk'
          · cases hblk'
            exact ⟨hj, by simp⟩
          · cases hblk'
      · refine ih (by omega) (by omega) ?_ blk hblk
        intro blk' hblk'
        rw [Option.mem_def, Option.map_eq_some_iff] at hblk'
        obtain ⟨blk'', hblk'', rfl⟩ := hblk'
        obtain ⟨hstart, hlt, hstop⟩ := hcur blk'' hblk''
        rw [noteRtpmap_eq]
        exact ⟨hstart, by dsimp only; omega, hstop⟩

/-! ## One pass -/

/-- The lines after filtering; `cur` is what the open audio block keeps. -/
def rewrite (names : List Text) : Option (List Text) → List Text → List Text
  | _, [] => []
  | cur, line :: rest =>
      match u.mLine line with
      | some m =>
          if m.media = "audio".toList then
            let fmts := words u.isSpace m.fmts
            let keep := withStatic names fmts (u.keptByName names (u.blockBody rest))
            m.rebuild (orderFmts fmts keep) :: rewrite names (some keep) rest
          else line :: rewrite names none rest
      | none =>
          (if cur.any fun keep => u.dangling keep line then [] else [line]) ++
            rewrite names cur rest

theorem emitFrom_cons_of_lt {i : Nat} {line : Text} {rest : List Text} {blocks : List AudioBlock}
    (h : ∀ blk ∈ blocks, i < blk.stop) :
    u.emitFrom i blocks (line :: rest) =
      u.emitLine i line blocks.head? ++ u.emitFrom (i + 1) blocks rest := by
  have hdrop : blocks.dropWhile (fun blk => blk.stop ≤ i) = blocks := by
    cases blocks with
    | nil => rfl
    | cons blk blocks =>
        rw [List.dropWhile_cons_of_neg]
        simpa using h blk List.mem_cons_self
  rw [emitFrom, hdrop]

/-- A line before the first recorded block is copied. -/
theorem emitLine_of_lt {i : Nat} (line : Text) {cur : Option AudioBlock}
    (h : ∀ blk ∈ cur, i < blk.start) : u.emitLine i line cur = [line] := by
  cases cur with
  | none => rfl
  | some blk =>
      have hlt := h blk rfl
      have hne : i ≠ blk.start := by omega
      have hnot : ¬ blk.start < i := by omega
      unfold emitLine
      cases u.mLine line <;> simp [hne, hnot]

/-- Recorded blocks that start after line `i`. -/
theorem mem_blocks_bounds (names : List Text) {total i : Nat} {lines : List Text}
    (htotal : total = i + lines.length) {blk : AudioBlock}
    (h : blk ∈ (u.scanLines names total i none lines).map (AudioBlock.addStatic names)) :
    i ≤ blk.start ∧ blk.start < blk.stop := by
  obtain ⟨blk', hblk', rfl⟩ := List.mem_map.mp h
  rw [AudioBlock.addStatic_eq]
  refine u.scanLines_bounds names htotal (Nat.le_refl i) ?_ blk' hblk'
  intro blk hblk
  cases hblk

/-- A block that is open at line `i` and those recorded behind its body stop after line `i`. -/
theorem stops_ahead (names : List Text) {total i n : Nat} {rest : List Text}
    (htotal : total = i + (rest.length + 1)) (hn : n ≤ rest.length) {blk : AudioBlock}
    (hstop : i < blk.stop) :
    ∀ blk' ∈ blk :: (u.scanLines names total (i + 1 + n) none (rest.drop n)).map
      (AudioBlock.addStatic names), i < blk'.stop := by
  intro blk' hblk'
  rcases List.mem_cons.mp hblk' with rfl | hlater
  · exact hstop
  · have := u.mem_blocks_bounds names (by rw [List.length_drop]; omega) hlater
    omega

/-- The second pass, with the blocks that the first one records, is the rewriting. -/
theorem emitFrom_eq_rewrite (names : List Text) {total i : Nat} {lines : List Text}
    (htotal : total = i + lines.length) :
    u.emitFrom i ((u.scanLines names total i none lines).map (AudioBlock.addStatic names)) lines =
        u.rewrite names none lines ∧
      ∀ blk : AudioBlock, blk.start < i → blk.stop = i + (u.blockBody lines).length →
        u.emitFrom i (blk :: (u.scanLines names total (i + (u.blockBody lines).length) none
          (lines.drop (u.blockBody lines).length)).map (AudioBlock.addStatic names)) lines =
        u.rewrite names (some blk.keep) lines := by
  induction lines generalizing i with
  | nil => exact ⟨rfl, fun _ _ _ => rfl⟩
  | cons line rest ih =>
      rw [List.length_cons] at htotal
      obtain ⟨hnone, hsome⟩ := ih (i := i + 1) (by omega)
      have hbounds : ∀ blk ∈ (u.scanLines names total (i + 1) none rest).map
          (AudioBlock.addStatic names), i + 1 ≤ blk.start ∧ blk.start < blk.stop :=
        fun blk hblk => u.mem_blocks_bounds names (by omega) hblk
      -- Outside a block the line is copied, and the recorded blocks all lie ahead.
      have hcopy : u.emitFrom i ((u.scanLines names total (i + 1) none rest).map
          (AudioBlock.addStatic names)) (line :: rest) = line :: u.rewrite names none rest := by
        rw [u.emitFrom_cons_of_lt fun blk hblk => by have := hbounds blk hblk; omega,
          u.emitLine_of_lt line fun blk hblk => by
            have := hbounds blk (List.mem_of_head? hblk); omega, hnone]
        rfl
      cases hm : u.mLine line with
      | none =>
          have hbody := u.blockBody_cons_of_none hm rest
          have hlen : (u.blockBody rest).length ≤ rest.length :=
            (List.takeWhile_prefix _).length_le
          constructor
          · simp only [scanLines, hm, Option.map_none, rewrite, Option.any_none]
            rw [hcopy]
            rfl
          · intro blk hstart hstop
            rw [hbody, List.length_cons] at hstop
            rw [hbody, List.length_cons, List.drop_succ_cons, ← Nat.add_assoc, Nat.add_right_comm]
            have hahead := u.stops_ahead names htotal hlen (show i < blk.stop by omega)
            rw [u.emitFrom_cons_of_lt hahead, hsome blk (by omega) (by omega)]
            have hin : blk.start < i ∧ i < blk.stop := ⟨hstart, by omega⟩
            simp [emitLine, hm, rewrite, hin.1, hin.2]
      | some m =>
          have hbody := u.blockBody_cons_of_some hm rest
          have hlen : (u.blockBody rest).length ≤ rest.length :=
            (List.takeWhile_prefix _).length_le
          have hfirst : u.emitFrom i ((u.scanLines names total i none (line :: rest)).map
              (AudioBlock.addStatic names)) (line :: rest) =
              u.rewrite names none (line :: rest) := by
            simp only [scanLines, hm, Option.map_none, Option.toList_none, List.nil_append, rewrite]
            split_ifs with haudio
            · -- The block that opens here stops where the next recognised media line stands.
              have hscan := @scanLines_some u names total (i + 1)
                ⟨i, total, words u.isSpace m.fmts, []⟩ rest (by omega) rfl
              rw [hscan, List.map_cons, AudioBlock.addStatic_eq]
              dsimp only
              rw [List.nil_append]
              generalize hblk : AudioBlock.mk i _ _ _ = blk
              have hstart : blk.start = i := by rw [← hblk]
              have hstop : blk.stop = i + 1 + (u.blockBody rest).length := by rw [← hblk]
              have hahead := u.stops_ahead names htotal hlen (show i < blk.stop by omega)
              rw [u.emitFrom_cons_of_lt hahead, hsome blk (by omega) hstop, List.head?_cons,
                emitLine, hm]
              simp only [if_true, ← hblk, List.singleton_append]
            · exact hcopy
          refine ⟨hfirst, fun blk hstart hstop => ?_⟩
          rw [hbody, List.length_nil, Nat.add_zero] at hstop
          rw [hbody, List.length_nil, Nat.add_zero, List.drop_zero, emitFrom,
            List.dropWhile_cons_of_pos (by simp [hstop])]
          rw [emitFrom] at hfirst
          rw [hfirst]
          simp only [rewrite, hm]

/-! ## Format lists -/

/-- The filter keeps a payload type that the section lists. -/
def keeps (names : List Text) (sec : Section) (pt : Text) : Bool :=
  pt ∈ u.keptByName names (u.blockBody sec.after) || staticAllowed names pt

/-- The format list after filtering; a media line that is not recognised is copied. -/
def keptFormats (names : List Text) (sec : Section) : List Text :=
  if (u.mLine sec.line).isSome then (u.formats sec).filter (u.keeps names sec) else u.formats sec

theorem orderFmts_eq (names fmts kept : List Text) :
    orderFmts fmts (withStatic names fmts kept) =
      fmts.filter fun pt => pt ∈ kept || staticAllowed names pt := by
  apply List.filter_congr
  intro pt hpt
  rw [Bool.eq_iff_iff, decide_eq_true_eq, mem_withStatic, Bool.or_eq_true, decide_eq_true_eq]
  simp only [hpt, true_and]

theorem audioSections_cons (line : Text) (rest : List Text) :
    u.audioSections (line :: rest) =
      (if isMediaLine line && u.isAudio ⟨line, rest⟩ then [⟨line, rest⟩] else []) ++
        u.audioSections rest := by
  rw [audioSections, sections]
  cases isMediaLine line with
  | false => rfl
  | true =>
      rw [if_pos rfl, List.filter_cons]
      cases u.isAudio ⟨line, rest⟩ <;> rfl

/-- The rebuilt media line of an audio block, read again. -/
theorem audioSections_rebuild {line : Text} {m : MediaLine} (hm : u.mLine line = some m)
    (haudio : m.media = "audio".toList) (names kept rest : List Text) :
    (u.audioSections (m.rebuild (orderFmts (words u.isSpace m.fmts)
        (withStatic names (words u.isSpace m.fmts) kept)) :: rest)).map u.formats =
      ((words u.isSpace m.fmts).filter fun pt => pt ∈ kept || staticAllowed names pt) ::
        (u.audioSections rest).map u.formats := by
  obtain ⟨hmedia, hport, hproto, -⟩ := u.mLine_spec hm
  rw [orderFmts_eq]
  generalize hordered : (words u.isSpace m.fmts).filter _ = ordered
  have hwords : ∀ pt ∈ ordered, u.IsToken pt := by
    intro pt hpt
    rw [← hordered] at hpt
    exact mem_words (List.mem_of_mem_filter hpt)
  have htokens := u.tokens_rebuild hmedia hport hproto hwords
  have hline : isMediaLine (m.rebuild ordered) = true := isMediaLine_rebuild m ordered
  have hself : u.isAudio ⟨m.rebuild ordered, rest⟩ = true := by
    rw [isAudio, htokens, haudio]
    exact decide_eq_true rfl
  have hformats : u.formats ⟨m.rebuild ordered, rest⟩ = ordered := by
    rw [formats, htokens]
    rfl
  rw [audioSections_cons, hline, hself]
  simp only [Bool.and_self, if_true, List.singleton_append, List.map_cons, hformats]

/-- The audio sections stay in their order, each with the format list that is kept. -/
theorem formats_rewrite (names : List Text) (cur : Option (List Text)) (lines : List Text) :
    (u.audioSections (u.rewrite names cur lines)).map u.formats =
      (u.audioSections lines).map (u.keptFormats names) := by
  induction lines generalizing cur with
  | nil => rfl
  | cons line rest ih =>
      have hcopied : ∀ cur', (u.mLine line = none ∨ ¬ u.isAudio ⟨line, rest⟩ = true) →
          (u.audioSections (line :: u.rewrite names cur' rest)).map u.formats =
            (u.audioSections (line :: rest)).map (u.keptFormats names) := by
        intro cur' hline
        have hsame : u.isAudio ⟨line, u.rewrite names cur' rest⟩ = u.isAudio ⟨line, rest⟩ := rfl
        rw [audioSections_cons, audioSections_cons, List.map_append, List.map_append, ih, hsame]
        congr 1
        split_ifs with haudio
        · rw [Bool.and_eq_true] at haudio
          have hnone := hline.resolve_right fun hnot => hnot haudio.2
          simp only [List.map_cons, List.map_nil, keptFormats, hnone]
          rfl
        · rfl
      cases hm : u.mLine line with
      | none =>
          cases hmedia : isMediaLine line with
          | true =>
              have hkept : (cur.any fun keep => u.dangling keep line) = false := by
                cases cur with
                | none => rfl
                | some keep => exact u.dangling_of_isMediaLine hmedia keep
              simp only [rewrite, hm, hkept, Bool.false_eq_true, if_false, List.singleton_append]
              exact hcopied cur (.inl hm)
          | false =>
              have hplain : u.audioSections (line :: rest) = u.audioSections rest := by
                rw [audioSections_cons, hmedia]
                rfl
              simp only [rewrite, hm]
              split_ifs
              · rw [List.nil_append, ih, hplain]
              · rw [List.singleton_append, audioSections_cons, hmedia, hplain]
                exact ih cur
      | some m =>
          have hmedia := u.isMediaLine_of_mLine hm
          have haudio : u.isAudio ⟨line, rest⟩ = decide (m.media = "audio".toList) :=
            u.isAudio_of_mLine hm
          have hformats : u.formats ⟨line, rest⟩ = words u.isSpace m.fmts := u.formats_of_mLine hm
          simp only [rewrite, hm]
          split_ifs with hm'
          · rw [u.audioSections_rebuild hm hm', ih, audioSections_cons, hmedia, haudio]
            simp only [hm', decide_true, Bool.and_self, if_true, List.singleton_append,
              List.map_cons, keptFormats, hm, Option.isSome_some, hformats]
            rfl
          · refine hcopied none (.inr ?_)
            rw [haudio, decide_eq_true_eq]
            exact hm'

end CharTables

end PjsuaMcp.Sdp
