import PjsuaMcp.Sdp.FilteredText

/-!
# The filter lists the admitted payload types

A payload type is admitted by the name that the section's own `a=rtpmap` gives
it, and by its static name only without one. The filter falls back to the
static name of every payload type that was not kept by name, also of one whose
`a=rtpmap` gives another name. The two agree exactly where no listed payload
type is remapped to a name that is not admitted while its static name is.
-/

namespace PjsuaMcp.Sdp

open Library

theorem filter_eq_filter_iff {α : Type*} {l : List α} {p q : α → Bool} :
    l.filter p = l.filter q ↔ ∀ a ∈ l, p a = q a := by
  constructor
  · intro h a ha
    have hiff : a ∈ l.filter p ↔ a ∈ l.filter q := by rw [h]
    rw [List.mem_filter, List.mem_filter, and_iff_right ha, and_iff_right ha] at hiff
    exact Bool.eq_iff_iff.mpr hiff
  · exact List.filter_congr

theorem takeWhile_congr {α : Type*} {l : List α} {p q : α → Bool} (h : ∀ a ∈ l, p a = q a) :
    l.takeWhile p = l.takeWhile q := by
  induction l with
  | nil => rfl
  | cons a l ih =>
      obtain ⟨ha, hl⟩ := List.forall_mem_cons.mp h
      rw [List.takeWhile_cons, List.takeWhile_cons, ha, ih hl]

namespace CharTables

variable (u : CharTables)

/-- The section's `a=rtpmap` lines give `pt` names of which none is admitted, but its static
name is. -/
def overridesStatic (names : List Text) (sec : Section) (pt : Text) : Bool :=
  u.rtpmapNames sec.body pt ≠ [] &&
    !((u.rtpmapNames sec.body pt).any fun name => name ∈ names) && staticAllowed names pt

theorem mem_keptByName {names body : List Text} {pt : Text} :
    pt ∈ u.keptByName names body ↔ ∃ name ∈ u.rtpmapNames body pt, name ∈ names := by
  simp only [keptByName, rtpmapNames, List.mem_filterMap, Option.bind_eq_some_iff,
    Option.ite_none_right_eq_some, Option.some.injEq]
  constructor
  · rintro ⟨line, hline, r, hr, hname, rfl⟩
    exact ⟨_, ⟨line, hline, r, hr, rfl, rfl⟩, hname⟩
  · rintro ⟨name, ⟨line, hline, r, hr, rfl, rfl⟩, hname⟩
    exact ⟨line, hline, r, hr, hname, rfl⟩

/-- Where every media line is recognised, a block is the body of its section. -/
theorem blockBody_eq_body {lines : List Text} (hrec : u.Recognised lines) {sec : Section}
    (hsec : sec ∈ sections lines) : u.blockBody sec.after = sec.body := by
  have hsub : ∀ line ∈ sec.after, line ∈ lines := fun line hline =>
    (suffix_of_mem_sections hsec).subset (List.mem_cons_of_mem _ hline)
  have hsame : ∀ line ∈ sec.after, (u.mLine line).isNone = !isMediaLine line := by
    intro line hline
    cases hm : u.mLine line with
    | some m => rw [u.isMediaLine_of_mLine hm]; rfl
    | none =>
        cases hmedia : isMediaLine line with
        | false => rfl
        | true =>
            have hsome := hrec line (hsub line hline) hmedia
            rw [hm] at hsome
            cases hsome
  exact takeWhile_congr hsame

/-- The filter keeps what is admitted, except for an overridden static name. -/
theorem keeps_eq_admits_iff {names : List Text} {sec : Section}
    (hbody : u.blockBody sec.after = sec.body) (pt : Text) :
    u.keeps names sec pt = u.admits names sec pt ↔ u.overridesStatic names sec pt = false := by
  have hkept : decide (pt ∈ u.keptByName names (u.blockBody sec.after)) =
      (u.rtpmapNames sec.body pt).any fun name => name ∈ names := by
    rw [Bool.eq_iff_iff, decide_eq_true_eq, u.mem_keptByName, hbody, List.any_eq_true]
    simp only [decide_eq_true_eq]
  rw [keeps, hkept, admits, overridesStatic]
  split_ifs with hnone
  · simp [hnone]
  · cases (u.rtpmapNames sec.body pt).any fun name => name ∈ names <;>
      cases staticAllowed names pt <;> simp [hnone]

instance (lines : List Text) : Decidable (u.Recognised lines) :=
  inferInstanceAs (Decidable (∀ line ∈ lines, isMediaLine line = true → (u.mLine line).isSome = true))

/-- When the filter changes a text whose media lines it recognises, every audio section of the
output lists exactly the admitted payload types of the input, in their order, if and only if no
payload type that an audio section lists overrides its static name. -/
theorem formats_admitted_iff {sdp : Text} {allowed : List Text} {preserveDtmf : Bool}
    (hrec : u.Recognised (split (lineSep sdp) sdp))
    (hne : u.filterAudioCodecs sdp allowed preserveDtmf ≠ sdp) :
    (u.sectionsIn sdp (u.filterAudioCodecs sdp allowed preserveDtmf)).map u.formats =
        ((u.sectionsIn sdp sdp).map fun sec =>
          (u.formats sec).filter (u.admits (u.allowedSet allowed preserveDtmf) sec)) ↔
      ∀ sec ∈ u.sectionsIn sdp sdp, ∀ pt ∈ u.formats sec,
        u.overridesStatic (u.allowedSet allowed preserveDtmf) sec pt = false := by
  have hformats := (u.filterAudioCodecs_cases sdp allowed preserveDtmf).resolve_left
    fun hsame => hne hsame.2
  rw [hformats.2, List.map_inj_left]
  refine forall₂_congr fun sec hsec => ?_
  have hsec' : sec ∈ sections (split (lineSep sdp) sdp) := List.mem_of_mem_filter hsec
  have hmedia : isMediaLine sec.line = true := isMediaLine_of_mem_sections hsec'
  have hline := hrec sec.line ((suffix_of_mem_sections hsec').subset List.mem_cons_self) hmedia
  rw [keptFormats, if_pos hline, filter_eq_filter_iff]
  exact forall₂_congr fun pt _ => u.keeps_eq_admits_iff (u.blockBody_eq_body hrec hsec') pt

/-- Payload type 0 is mapped to a codec that is not allowed, and PCMU is allowed. -/
def remappedStatic : Text := "m=audio 4000 RTP/AVP 0 8 18\r\na=rtpmap:0 CLEARMODE/8000".toList

/-- Payload type 0 stays in the format list under its static name. -/
theorem remappedStatic_listed :
    ascii.Recognised (split (lineSep remappedStatic) remappedStatic) ∧
    ascii.filterAudioCodecs remappedStatic ["PCMU".toList, "PCMA".toList] false ≠ remappedStatic ∧
    (ascii.sectionsIn remappedStatic
        (ascii.filterAudioCodecs remappedStatic ["PCMU".toList, "PCMA".toList] false)).map
      ascii.formats = [["0".toList, "8".toList]] ∧
    ((ascii.sectionsIn remappedStatic remappedStatic).map fun sec => (ascii.formats sec).filter
      (ascii.admits (ascii.allowedSet ["PCMU".toList, "PCMA".toList] false) sec)) =
        [["8".toList]] := by
  decide

/-- A section without any `a=rtpmap`, and one that is remapped to an allowed name. -/
def compactOffer : Text :=
  "m=audio 4000 RTP/AVP 0 8\r\na=sendrecv\r\nm=audio 4002 RTP/AVP 0 8\r\na=rtpmap:0 PCMA/8000".toList

theorem formats_admitted_compact :
    (ascii.sectionsIn compactOffer
        (ascii.filterAudioCodecs compactOffer ["PCMA".toList] true)).map ascii.formats =
      (ascii.sectionsIn compactOffer compactOffer).map fun sec => (ascii.formats sec).filter
        (ascii.admits (ascii.allowedSet ["PCMA".toList] true) sec) :=
  (ascii.formats_admitted_iff (by decide) (by decide)).mpr (by decide)

end CharTables

end PjsuaMcp.Sdp
