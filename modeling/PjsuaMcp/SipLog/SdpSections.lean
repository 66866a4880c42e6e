import PjsuaMcp.SipLog.SdpBody

/-!
# Media sections of a logged body

The loop of `parse_sdp_body` over a session part and media sections, and the
text that they make up. The block that a section leaves behind is a function of
the section, whatever was open before.
-/

namespace PjsuaMcp.SipLog

open Sdp (Text lf)
open Library

theorem map_pt_updateCodec {f : Codec → Codec} (hf : ∀ codec, (f codec).pt = codec.pt) (pt : Int)
    (codecs : List Codec) : (updateCodec pt f codecs).map Codec.pt = codecs.map Codec.pt := by
  induction codecs with
  | nil => rfl
  | cons codec rest ih =>
      rw [updateCodec]
      split_ifs
      · rw [List.map_cons, hf, List.map_cons]
      · rw [List.map_cons, ih, List.map_cons]

theorem newCodec_pt (pt : Int) : (newCodec pt).pt = pt := by
  unfold newCodec
  split <;> rfl

/-- The codecs of a block are those of its payload types, in their order. -/
def MediaBlock.Listed (blk : MediaBlock) : Prop := blk.codecs.map Codec.pt = blk.payloadTypes

/-- Updating a codec lists no other payload type. -/
theorem MediaBlock.Listed.update {blk : MediaBlock} (h : blk.Listed) {f : Codec → Codec}
    (hf : ∀ codec, (f codec).pt = codec.pt) (pt : Int) :
    ({ blk with codecs := updateCodec pt f blk.codecs } : MediaBlock).Listed :=
  (map_pt_updateCodec hf pt blk.codecs).trans h

/-- All blocks of the scan list their codecs. -/
def SdpScan.Listed (scan : SdpScan) : Prop := ∀ blk ∈ scan.media ++ scan.current.toList, blk.Listed

/-- A line of the text begins with `v=`. -/
def HasVersionLine (lines : List Text) : Prop := ∃ line ∈ lines, "v=".toList <+: line

namespace CharTables

variable {u : CharTables}

/-! ## Runs over lines -/

theorem rstrip_media {line : Text} (h : "m=".toList <+: line) :
    u.rstrip line = "m=".toList ++ u.rstrip (line.drop 2) := by
  obtain ⟨value, rfl⟩ := h
  have hequals : u.isSpace '=' = false := u.not_space_of_mem '=' (by decide)
  have hstrip : u.rstrip (['m'] ++ '=' :: value) = ['m'] ++ '=' :: u.rstrip value :=
    u.rstrip_append hequals value
  exact hstrip

@[simp] theorem readLines_nil (scan : SdpScan) : u.readLines scan [] = scan := rfl

@[simp] theorem readLines_cons (scan : SdpScan) (line : Text) (lines : List Text) :
    u.readLines scan (line :: lines) = u.readLines (u.readLine scan (u.rstrip line)) lines := rfl

theorem readLines_append (scan : SdpScan) (lines lines' : List Text) :
    u.readLines scan (lines ++ lines') = u.readLines (u.readLines scan lines) lines' :=
  List.foldl_append

/-- Lines without a media line change the current block only. -/
theorem readLines_plain {lines : List Text} (h : ∀ line ∈ lines, ¬ "m=".toList <+: line)
    (scan : SdpScan) :
    (u.readLines scan lines).media = scan.media ∧
      (u.readLines scan lines).current =
        scan.current.map fun blk => lines.foldl (fun blk line => u.change blk (u.rstrip line)) blk := by
  induction lines generalizing scan with
  | nil => exact ⟨rfl, by simp⟩
  | cons line lines ih =>
      obtain ⟨hline, hlines⟩ := List.forall_mem_cons.mp h
      have hplain : ¬ "m=".toList <+: u.rstrip line :=
        fun hbegins => hline (hbegins.trans (List.rdropWhile_prefix _ _))
      obtain ⟨hmedia, hcurrent⟩ := readLine_plain hplain scan
      obtain ⟨hmedia', hcurrent'⟩ := ih hlines (u.readLine scan (u.rstrip line))
      rw [readLines_cons, hmedia', hcurrent', hmedia, hcurrent, Option.map_map]
      exact ⟨rfl, rfl⟩

theorem version_readLines {scan : SdpScan} (h : scan.version.isSome) (lines : List Text) :
    (u.readLines scan lines).version.isSome := by
  induction lines generalizing scan with
  | nil => exact h
  | cons line lines ih => exact ih (version_readLine h _)

end CharTables

/-! ## Session part and media sections -/

/-- The lines in front of the media sections, one of which is a `v=` line. -/
structure SessionPart where
  lines : List Text
  newline_notMem : ∀ line ∈ lines, '\n' ∉ line
  plain : ∀ line ∈ lines, ¬ "m=".toList <+: line
  versioned : ∃ line ∈ lines, "v=".toList <+: line

/-- An `m=` line and the lines up to the next one. -/
structure MediaSection where
  line : Text
  others : List Text
  media : "m=".toList <+: line
  plain : ∀ line ∈ others, ¬ "m=".toList <+: line
  newline_notMem : ∀ line' ∈ line :: others, '\n' ∉ line'

def MediaSection.lines (sec : MediaSection) : List Text := sec.line :: sec.others

/-- These lines, with or without a line end behind the last one. A line may end with a carriage
return. -/
def textOf (closed : Bool) (lines : List Text) : Text :=
  lf.intercalate lines ++ if closed then lf else []

namespace CharTables

variable (u : CharTables)

/-- The session part has a version that can be read. -/
def ReadsVersion (session : SessionPart) : Prop :=
  ∃ line ∈ session.lines, ∃ value, u.rstrip line = "v=".toList ++ value ∧ (u.intOf value).isSome

/-- What a section leaves behind. -/
def blockOf (sec : MediaSection) : Option MediaBlock :=
  (u.newMedia (u.rstrip (sec.line.drop 2))).map fun blk =>
    sec.others.foldl (fun blk line => u.change blk (u.rstrip line)) blk

variable {u}

/-- A section closes the block before it and opens its own. -/
theorem readLines_section (sec : MediaSection) (scan : SdpScan) :
    (u.readLines scan sec.lines).media = scan.media ++ scan.current.toList ∧
      (u.readLines scan sec.lines).current = u.blockOf sec := by
  rw [MediaSection.lines, readLines_cons, rstrip_media sec.media, readLine_media]
  exact readLines_plain sec.plain _

/-- Sections add their blocks one after the other. -/
theorem readLines_sections (sections : List MediaSection) (scan : SdpScan) :
    (u.readLines scan (sections.flatMap MediaSection.lines)).media ++
        (u.readLines scan (sections.flatMap MediaSection.lines)).current.toList =
      scan.media ++ scan.current.toList ++ sections.flatMap fun sec => (u.blockOf sec).toList := by
  induction sections generalizing scan with
  | nil => simp
  | cons sec sections ih =>
      obtain ⟨hmedia, hcurrent⟩ := readLines_section (u := u) sec scan
      rw [List.flatMap_cons, readLines_append, ih, hmedia, hcurrent, List.flatMap_cons,
        List.append_assoc]

/-- The session part has no media block. -/
theorem readLines_session (session : SessionPart) :
    (u.readLines {} session.lines).media = [] ∧ (u.readLines {} session.lines).current = none :=
  readLines_plain session.plain {}

/-- The version is read from the session part. -/
theorem version_session {session : SessionPart} (h : u.ReadsVersion session) (scan : SdpScan) :
    (u.readLines scan session.lines).version.isSome := by
  obtain ⟨line, hmem, value, hline, hvalue⟩ := h
  obtain ⟨before, after, hlines⟩ := List.append_of_mem hmem
  rw [hlines, readLines_append, readLines_cons, hline]
  refine version_readLines ?_ after
  rw [show "v=".toList ++ value = ['v'] ++ '=' :: value from rfl, readLine_of_kind (by decide),
    if_pos rfl]
  simp [hvalue]

/-! ## The parser on a text -/

/-- A carriage return at the end of a line makes no difference to the scan. -/
theorem readLines_congr {lines lines' : List Text} (h : List.Forall₂ SameLine lines lines')
    (scan : SdpScan) : u.readLines scan lines = u.readLines scan lines' := by
  induction h generalizing scan with
  | nil => rfl
  | cons hline _ ih => rw [readLines_cons, readLines_cons, rstrip_eq_of_sameLine hline, ih]

theorem hasVersionLine_congr {lines lines' : List Text} (h : List.Forall₂ SameLine lines lines') :
    HasVersionLine lines ↔ HasVersionLine lines' := by
  induction h with
  | nil => rfl
  | cons hline _ ih =>
      simp only [HasVersionLine, List.exists_mem_cons_iff] at ih ⊢
      rw [hline.prefix_iff (by decide), ih]

/-- Carriage returns in front of newlines make no difference. -/
theorem parseSdpBody_of_version {text : Text} (h : HasVersionLine (split lf text)) :
    u.parseSdpBody text = SdpScan.finish (u.readLines {} (split lf text)) := by
  have hnorm := split_normalizeNewlines text
  obtain ⟨line, hline, hbegins⟩ := h
  have hin : "v=".toList <:+: text :=
    hbegins.isInfix.trans (infix_of_mem_split (by decide) hline)
  have hne : text ≠ [] := by
    rintro rfl
    exact absurd (List.infix_nil.mp hin) (by decide)
  have hguard : ¬ (text.isEmpty || !decide ("v=".toList <:+: text)) = true := by
    rw [decide_eq_true hin]
    simp [hne]
  have hany : ((split lf (normalizeNewlines text)).any fun line => "v=".toList.isPrefixOf line) =
      true := by
    obtain ⟨line', hline', hbegins'⟩ := (hasVersionLine_congr hnorm).mpr ⟨line, hline, hbegins⟩
    exact List.any_eq_true.mpr ⟨line', hline', List.isPrefixOf_iff_prefix.mpr hbegins'⟩
  rw [parseSdpBody, if_neg hguard]
  dsimp only
  rw [if_pos hany, readLines_congr hnorm]

theorem parseSdpBody_of_not_version {text : Text} (h : ¬ HasVersionLine (split lf text)) :
    u.parseSdpBody text = none := by
  have hany : ¬ ((split lf (normalizeNewlines text)).any fun line =>
      "v=".toList.isPrefixOf line) = true := by
    intro hany
    obtain ⟨line, hline, hbegins⟩ := List.any_eq_true.mp hany
    exact h ((hasVersionLine_congr (split_normalizeNewlines text)).mp
      ⟨line, hline, List.isPrefixOf_iff_prefix.mp hbegins⟩)
  rw [parseSdpBody]
  dsimp only
  rw [if_neg hany, ite_self]

/-- The text of some lines is split into these lines. -/
theorem split_textOf {lines : List Text} (hne : lines ≠ []) (hfree : ∀ line ∈ lines, '\n' ∉ line)
    (closed : Bool) :
    split lf (textOf closed lines) = lines ++ if closed then [[]] else [] := by
  cases closed with
  | false =>
      rw [textOf, if_neg Bool.false_ne_true, if_neg Bool.false_ne_true, List.append_nil,
        List.append_nil]
      exact split_intercalate_singleton hne hfree
  | true =>
      have hfree' : ∀ line ∈ lines ++ [[]], '\n' ∉ line :=
        List.forall_mem_append.mpr ⟨hfree, List.forall_mem_singleton.mpr List.not_mem_nil⟩
      have hcut := split_intercalate_singleton (by simp) hfree'
      rw [intercalate_concat hne, List.append_nil] at hcut
      exact hcut

/-- The parser on the lines of a session part and of media sections. -/
theorem parseSdpBody_textOf (session : SessionPart) {lines : List Text}
    (hfree : ∀ line ∈ lines, '\n' ∉ line) (closed : Bool) :
    u.parseSdpBody (textOf closed (session.lines ++ lines)) =
      SdpScan.finish (u.readLines {} (session.lines ++ lines)) := by
  obtain ⟨line, hline, hbegins⟩ := session.versioned
  have hne : session.lines ++ lines ≠ [] :=
    List.append_ne_nil_of_left_ne_nil (List.ne_nil_of_mem hline) _
  have hfree' : ∀ line ∈ session.lines ++ lines, '\n' ∉ line :=
    List.forall_mem_append.mpr ⟨session.newline_notMem, hfree⟩
  rw [parseSdpBody_of_version, split_textOf hne hfree' closed]
  · cases closed with
    | false => rw [if_neg Bool.false_ne_true, List.append_nil]
    | true =>
        rw [if_pos rfl, readLines_append, readLines_cons]
        rfl
  · rw [split_textOf hne hfree' closed]
    exact ⟨line, List.mem_append_left _ (List.mem_append_left _ hline), hbegins⟩

/-- The last block is closed at the end of the text. -/
theorem mediaOf_finish (scan : SdpScan) :
    mediaOf (SdpScan.finish scan) = scan.media ++ scan.current.toList := by
  unfold SdpScan.finish
  dsimp only
  split_ifs with h
  · rw [Bool.and_eq_true, List.isEmpty_iff] at h
    exact h.2.symm
  · rfl

theorem isSome_finish {scan : SdpScan} (h : scan.version.isSome) :
    (SdpScan.finish scan).isSome = true := by
  unfold SdpScan.finish
  dsimp only
  rw [Option.isNone_eq_false_iff.mpr h]
  rfl

/-! ## Codecs -/

/-- A new block lists the payload types of its media line. -/
theorem listed_newMedia {value : Text} {blk : MediaBlock} (h : u.newMedia value = some blk) :
    blk.Listed := by
  unfold newMedia at h
  split at h
  · split at h
    · cases h
      simp [MediaBlock.Listed, Function.comp_def, newCodec_pt]
    · cases h
  · cases h

theorem listed_applyRtpmap {blk : MediaBlock} (h : blk.Listed) (value : Text) :
    (u.applyRtpmap blk value).Listed := by
  unfold applyRtpmap
  dsimp only
  split_ifs
  · split
    · apply h.update
      intro codec
      rfl
    · exact h
  · exact h

theorem listed_applyFmtp {blk : MediaBlock} (h : blk.Listed) (value : Text) :
    (u.applyFmtp blk value).Listed := by
  unfold applyFmtp
  dsimp only
  split_ifs
  · split
    · apply h.update
      intro codec
      rfl
    · exact h
  · exact h

/-- An attribute lists no other payload type. -/
theorem listed_applyAttribute {blk : MediaBlock} (h : blk.Listed) (value : Text) :
    (u.applyAttribute blk value).Listed := by
  unfold applyAttribute
  dsimp only
  split_ifs
  · exact listed_applyRtpmap h _
  · exact listed_applyFmtp h _
  · split <;> exact h
  · exact h
  · exact h

theorem listed_readLine {scan : SdpScan} (h : scan.Listed) (line : Text) :
    (u.readLine scan line).Listed := by
  by_cases hmem : '=' ∈ line
  · obtain ⟨kind, value, rfl, hkind⟩ := List.eq_append_cons_of_mem hmem
    obtain ⟨hmedia, hcurrent⟩ := List.forall_mem_append.mp h
    rw [readLine_of_kind hkind]
    split_ifs
    · exact h
    · exact h
    · refine List.forall_mem_append.mpr ⟨h, fun blk hblk => ?_⟩
      exact listed_newMedia (Option.mem_toList.mp hblk)
    · refine List.forall_mem_append.mpr ⟨hmedia, fun blk hblk => ?_⟩
      obtain ⟨blk, hopen, rfl⟩ := Option.map_eq_some_iff.mp (Option.mem_toList.mp hblk)
      exact listed_applyAttribute (hcurrent blk (Option.mem_toList.mpr hopen)) value
    · exact h
  · rwa [readLine_of_notMem hmem]

theorem listed_readLines {scan : SdpScan} (h : scan.Listed) (lines : List Text) :
    (u.readLines scan lines).Listed := by
  induction lines generalizing scan with
  | nil => exact h
  | cons line lines ih => exact ih (listed_readLine h _)

/-- Every block that is read lists the payload types of its media line. -/
theorem listed_parseSdpBody (text : Text) : ∀ blk ∈ mediaOf (u.parseSdpBody text), blk.Listed := by
  by_cases h : HasVersionLine (split lf text)
  · rw [parseSdpBody_of_version h, mediaOf_finish]
    have hstart : SdpScan.Listed {} := List.forall_mem_nil _
    exact listed_readLines hstart _
  · rw [parseSdpBody_of_not_version h]
    exact List.forall_mem_nil _

/-! ## Sections one by one -/

theorem newline_notMem_sections (sections : List MediaSection) :
    ∀ line ∈ sections.flatMap MediaSection.lines, '\n' ∉ line := by
  intro line hline
  obtain ⟨sec, -, hmem⟩ := List.mem_flatMap.mp hline
  exact sec.newline_notMem line hmem

/-- The blocks of a text are those of its sections, in their order. -/
theorem mediaOf_sections (session : SessionPart) (sections : List MediaSection) (closed : Bool) :
    mediaOf (u.parseSdpBody
        (textOf closed (session.lines ++ sections.flatMap MediaSection.lines))) =
      sections.flatMap fun sec => (u.blockOf sec).toList := by
  obtain ⟨hmedia, hcurrent⟩ := readLines_session (u := u) session
  rw [parseSdpBody_textOf session (newline_notMem_sections sections), mediaOf_finish,
    readLines_append, readLines_sections,
    hmedia, hcurrent]
  rfl

theorem mediaOf_section (session : SessionPart) (sec : MediaSection) (closed : Bool) :
    mediaOf (u.parseSdpBody (textOf closed (session.lines ++ sec.lines))) =
      (u.blockOf sec).toList := by
  have h := mediaOf_sections (u := u) session [sec] closed
  rwa [List.flatMap_singleton, List.flatMap_singleton] at h

/-- A text with a version is read. -/
theorem isSome_parseSdpBody {session : SessionPart} (h : u.ReadsVersion session) {lines : List Text}
    (hfree : ∀ line ∈ lines, '\n' ∉ line) (closed : Bool) :
    (u.parseSdpBody (textOf closed (session.lines ++ lines))).isSome = true := by
  rw [parseSdpBody_textOf session hfree, readLines_append]
  exact isSome_finish (version_readLines (version_session h _) _)

/-- Media sections are parsed as if each of them stood alone behind the session part; one with a
malformed media line gives no block. Where the version can be read, there is a result. A block has
one codec for each of its payload types, in their order. -/
theorem parseSdpBody_sections (u : CharTables) (session : SessionPart)
    (sections : List MediaSection) (closed : Bool) :
    (mediaOf (u.parseSdpBody
        (textOf closed (session.lines ++ sections.flatMap MediaSection.lines))) =
      sections.flatMap fun sec =>
        mediaOf (u.parseSdpBody (textOf closed (session.lines ++ sec.lines)))) ∧
    (∀ sec : MediaSection, u.newMedia (u.rstrip (sec.line.drop 2)) = none →
      mediaOf (u.parseSdpBody (textOf closed (session.lines ++ sec.lines))) = []) ∧
    (u.ReadsVersion session → (u.parseSdpBody
        (textOf closed (session.lines ++ sections.flatMap MediaSection.lines))).isSome = true ∧
      ∀ sec : MediaSection,
        (u.parseSdpBody (textOf closed (session.lines ++ sec.lines))).isSome = true) ∧
    ∀ text, ∀ blk ∈ mediaOf (u.parseSdpBody text), blk.codecs.map Codec.pt = blk.payloadTypes := by
  refine ⟨?_, fun sec hbad => ?_, fun hversion => ⟨?_, fun sec => ?_⟩, listed_parseSdpBody⟩
  · rw [mediaOf_sections]
    simp only [mediaOf_section]
  · rw [mediaOf_section, blockOf, hbad]
    rfl
  · exact isSome_parseSdpBody hversion (newline_notMem_sections sections) closed
  · exact isSome_parseSdpBody hversion sec.newline_notMem closed

end CharTables

/-! ## An audio section behind a malformed one -/

def shortSession : SessionPart where
  lines := ["v=0\r".toList]
  newline_notMem := by decide
  plain := by decide
  versioned := by decide

/-- The port is no integer. -/
def malformedSection : MediaSection where
  line := "m=video x RTP/AVP 96\r".toList
  others := ["a=inactive\r".toList]
  media := by decide
  plain := by decide
  newline_notMem := by decide

def audioSection : MediaSection where
  line := "m=audio 4000 RTP/AVP 8\r".toList
  others := ["a=rtcp:4001\r".toList]
  media := by decide
  plain := by decide
  newline_notMem := by decide

/-- The direction of the malformed section does not get into the audio section. -/
theorem malformedSection_dropped :
    (CharTables.ascii.parseSdpBody (textOf true (shortSession.lines ++
      [malformedSection, audioSection].flatMap MediaSection.lines))).isSome = true ∧
    mediaOf (CharTables.ascii.parseSdpBody (textOf true (shortSession.lines ++
      [malformedSection, audioSection].flatMap MediaSection.lines))) =
      [{ type := "audio".toList, port := 4000, protocol := "RTP/AVP".toList, payloadTypes := [8],
         codecs := [newCodec 8], rtcpPort := some 4001 }] := by
  have hversion : CharTables.ascii.ReadsVersion shortSession :=
    ⟨"v=0\r".toList, List.mem_singleton_self _, ['0'], by decide, by decide⟩
  obtain ⟨hparts, hbad, hsome, -⟩ := CharTables.ascii.parseSdpBody_sections shortSession
    [malformedSection, audioSection] true
  refine ⟨(hsome hversion).1, ?_⟩
  have hmalformed := hbad malformedSection (by decide)
  rw [hparts, List.flatMap_cons, List.flatMap_singleton, hmalformed]
  decide

end PjsuaMcp.SipLog
