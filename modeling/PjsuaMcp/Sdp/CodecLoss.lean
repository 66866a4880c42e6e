import PjsuaMcp.Sdp.FilteredText
import Mathlib.Data.List.Forall2

/-!
# Audio sections that lose their codecs

The filter returns its input when some block would keep no payload type at all.
A block may keep payload types and still list no codec afterwards: what it keeps
may not be listed, and `telephone-event` is always kept on the way out.
-/

namespace PjsuaMcp.Sdp

open Library

namespace CharTables

variable (u : CharTables)

/-- One of `fmts` is not `telephone-event` in the section. -/
def hasCodec (sec : Section) (fmts : List Text) : Bool :=
  fmts.any fun pt => !u.isTelephoneEvent sec pt

/-- Every audio section of `sdp` that lists a codec lists one in `out` as well; and where the
filter would leave such a section without a codec, `out` is `sdp` unchanged. -/
def CodecsSurvive (names : List Text) (sdp out : Text) : Prop :=
  List.Forall₂ (fun sec sec' => u.listsCodec sec = true → u.hasCodec sec (u.formats sec') = true)
      (u.sectionsIn sdp sdp) (u.sectionsIn sdp out) ∧
    ((∃ sec ∈ u.sectionsIn sdp sdp, u.listsCodec sec = true ∧
      u.hasCodec sec (u.keptFormats names sec) = false) → out = sdp)

/-- The names that a call lets through, as its SDP callback hands them to the filter. -/
def callNames (call : Calls.SipCall) : List Text :=
  u.allowedSet ((call.codecs.getD []).map String.toList) true

/-- The callback is the filter with `telephone-event` preserved. -/
theorem onCallSdpCreated_eq (call : Calls.SipCall) (sdp : Text) :
    u.onCallSdpCreated call sdp =
      u.filterAudioCodecs sdp ((call.codecs.getD []).map String.toList) true := by
  unfold onCallSdpCreated
  cases call.codecs with
  | none => rfl
  | some names =>
      dsimp only [Option.getD_some]
      split_ifs with hempty hchanged
      · rcases Bool.or_eq_true_iff.mp hempty with hnames | hsdp
        · rw [List.isEmpty_iff.mp hnames]
          rfl
        · rw [List.isEmpty_iff.mp hsdp]
          unfold filterAudioCodecs
          split_ifs <;> rfl
      · rfl
      · exact (not_not.mp hchanged).symm

/-- What a call sends in the place of `sdp` keeps a codec in every audio section that lists one,
if and only if the call's allow-list has no name, or some block keeps no payload type, or every
such section lists a codec that is kept. -/
theorem codecs_survive_iff (call : Calls.SipCall) (sdp : Text) :
    u.CodecsSurvive (u.callNames call) sdp (u.onCallSdpCreated call sdp) ↔
      u.loweredNames ((call.codecs.getD []).map String.toList) = [] ∨
      (u.sectionsIn sdp sdp).any (u.keepsNothing (u.callNames call)) = true ∨
      ∀ sec ∈ u.sectionsIn sdp sdp, u.listsCodec sec = true →
        u.hasCodec sec (u.keptFormats (u.callNames call) sec) = true := by
  rw [onCallSdpCreated_eq]
  rcases u.filterAudioCodecs_cases sdp ((call.codecs.getD []).map String.toList) true with
    ⟨hcase, hsame⟩ | ⟨⟨hnames, -, hbail⟩, hformats⟩
  · refine iff_of_true ⟨?_, fun _ => hsame⟩ ?_
    · rw [hsame, List.forall₂_same]
      exact fun sec _ hlists => hlists
    · rcases hcase with hnames | rfl | hbail
      · exact .inl hnames
      · refine .inr (.inr fun sec hsec => ?_)
        cases hsec
      · exact .inr (.inl hbail)
  · have hsections : List.Forall₂
        (fun sec sec' => u.listsCodec sec = true → u.hasCodec sec (u.formats sec') = true)
        (u.sectionsIn sdp sdp) (u.sectionsIn sdp (u.filterAudioCodecs sdp
          ((call.codecs.getD []).map String.toList) true)) ↔
        ∀ sec ∈ u.sectionsIn sdp sdp, u.listsCodec sec = true →
          u.hasCodec sec (u.keptFormats (u.callNames call) sec) = true := by
      rw [← List.forall₂_map_right_iff
        (R := fun sec fmts => u.listsCodec sec = true → u.hasCodec sec fmts = true), hformats,
        List.forall₂_map_right_iff, List.forall₂_same]
      rfl
    have hbail' : ¬ (u.sectionsIn sdp sdp).any (u.keepsNothing (u.callNames call)) = true := by
      rw [callNames, hbail]
      exact Bool.false_ne_true
    rw [CodecsSurvive, hsections, or_iff_right hnames, or_iff_right hbail']
    refine and_iff_left_of_imp fun hall => ?_
    rintro ⟨sec, hsec, hlists, hnone⟩
    rw [hall sec hsec hlists] at hnone
    cases hnone

/-- A call on a phone whose codec list is PCMA only. -/
def pcmaCall : Calls.SipCall :=
  .new { phoneId := "alice", callId := 0, direction := .inbound, sipCallId := "", autoAnswer := false }
    false (some ["PCMA"]) .incoming

/-- PCMA has an `a=rtpmap`, but is not listed. -/
def unlistedPcma : Text := "m=audio 4000 RTP/AVP 0\r\na=rtpmap:8 PCMA/8000".toList

/-- The section that listed PCMU goes out with an empty format list. -/
theorem unlistedPcma_empties :
    ascii.onCallSdpCreated pcmaCall unlistedPcma =
      "m=audio 4000 RTP/AVP \r\na=rtpmap:8 PCMA/8000".toList ∧
    ¬ ascii.CodecsSurvive (ascii.callNames pcmaCall) unlistedPcma
      (ascii.onCallSdpCreated pcmaCall unlistedPcma) := by
  have hin : ascii.sectionsIn unlistedPcma unlistedPcma =
      [⟨"m=audio 4000 RTP/AVP 0".toList, ["a=rtpmap:8 PCMA/8000".toList]⟩] := by decide
  have hout : ascii.sectionsIn unlistedPcma (ascii.onCallSdpCreated pcmaCall unlistedPcma) =
      [⟨"m=audio 4000 RTP/AVP ".toList, ["a=rtpmap:8 PCMA/8000".toList]⟩] := by decide
  refine ⟨by decide, ?_⟩
  rintro ⟨h, -⟩
  rw [hin, hout, List.forall₂_cons] at h
  exact absurd (h.1 (by decide)) (by decide)

end CharTables

end PjsuaMcp.Sdp
