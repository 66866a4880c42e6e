import PjsuaMcp.Library.PosixPath
import PjsuaMcp.Server.Phones
import PjsuaMcp.SipLog.Lines

/-!
# Names of recordings

A recording lies in the directory of its phone, under a name that holds the id
of the call and a timestamp. Older recordings lie in one directory and have the
phone id in their name. `list_recordings` reads both from the path again.

## Implementation notes

The parts of a name are joined by underscores, and the parser cuts at all of
them. Call ids have none, but phone ids may have some.
-/

namespace PjsuaMcp.Server

open Sdp (Text)
open SipLog (CharTables DigitTables)
open Library
open Calls (PhoneId CallId SipCall)

/-- `RECORDINGS_ROOT`. -/
def recordingsRoot : PosixPath := .ofText "/recordings".toList

/-- The file that `_start_recording` creates. -/
def recordingFile (p : PhoneId) (c : CallId) (timestamp : String) : PosixPath :=
  (recordingsRoot.joinpath p.toList).joinpath
    ("call_".toList ++ (toString c).toList ++ ['_'] ++ timestamp.toList ++ ".wav".toList)

/-- `/recordings/call_<phone_id>_<call_id>_<ts>.wav`. -/
def legacyRecordingPath (p : PhoneId) (c : CallId) (timestamp : String) : String :=
  "/recordings/call_" ++ p ++ "_" ++ toString c ++ "_" ++ timestamp ++ ".wav"

/-- `_parse_recording_filename`. -/
def parseRecordingFilename (u : CharTables) (path : PosixPath) : Option Text × Option Int :=
  let parts := split ['_'] path.stem
  if parts.length < 2 ∨ parts[0]? ≠ some "call".toList then (none, none)
  else if path.parent.name ≠ [] ∧ path.parent ≠ recordingsRoot then
    (some path.parent.name, parts[1]?.bind u.intOf)
  else if 3 ≤ parts.length then (parts[1]?, parts[2]?.bind u.intOf)
  else (none, none)

/-- Digits and underscores. -/
def IsTimestamp (timestamp : String) : Prop :=
  ∀ ch ∈ timestamp.toList, ch.isDigit = true ∨ ch = '_'

instance (timestamp : String) : Decidable (IsTimestamp timestamp) :=
  decidable_of_iff (timestamp.toList.all (fun ch => ch.isDigit || ch = '_') = true)
    (by simp [IsTimestamp])

/-- The parser finds the ids in the path. -/
def Recovers (u : CharTables) (path : String) (p : PhoneId) (n : Nat) : Prop :=
  parseRecordingFilename u (.ofText path.toList) = (some p.toList, some (n : Int))

/-! ## Paths -/

/-- What the name of a recording has behind its kind, or its phone id. -/
def callFields (n : Nat) (timestamp : String) : Text :=
  Nat.toDigits 10 n ++ '_' :: timestamp.toList

theorem isPart_of_isPhoneId {p : PhoneId} (h : isPhoneId p.toList = true) : IsPart p.toList := by
  have hchars : ∀ c ∈ p.toList, isIdChar c = true := by
    simp only [isPhoneId, Bool.and_eq_true, List.all_eq_true] at h
    exact h.1.2
  have hne : p.toList ≠ [] := fun hnil => ne_empty_of_isPhoneId h (String.toList_eq_nil_iff.mp hnil)
  refine ⟨hne, fun hdot => ?_, fun hslash => ?_⟩
  · have hchar := hchars '.' (hdot ▸ List.mem_cons_self)
    cases hchar
  · have hchar := hchars '/' hslash
    cases hchar

/-- A name without a slash is a part of a path, with `.wav` behind it. -/
theorem isPart_wav {base : Text} (h : '/' ∉ base) : IsPart (base ++ ".wav".toList) := by
  have hw : 'w' ∈ base ++ ".wav".toList := List.mem_append_right _ (by decide)
  refine ⟨List.ne_nil_of_mem hw, fun hdot => ?_, fun hslash => ?_⟩
  · rw [hdot] at hw
    revert hw
    decide
  · rcases List.mem_append.mp hslash with hbase | hext
    · exact h hbase
    · revert hext
      decide

theorem no_slash_callFields (n : Nat) {timestamp : String} (h : IsTimestamp timestamp) :
    '/' ∉ callFields n timestamp := by
  intro hslash
  rcases List.mem_append.mp hslash with hdigits | htimestamp
  · have hdigit := Nat.isDigit_of_mem_toDigits (by decide) (by decide) hdigits
    cases hdigit
  · rcases List.mem_cons.mp htimestamp with heq | hmem
    · cases heq
    · rcases h '/' hmem with hdigit | heq
      · cases hdigit
      · cases heq

theorem toList_toString_natCast (n : Nat) : (toString (n : Int)).toList = Nat.toDigits 10 n :=
  Nat.toList_repr

/-- The path of a recording that is not yet in the directory of a phone. -/
def legacyRecordingFile (p : PhoneId) (n : Nat) (timestamp : String) : PosixPath :=
  recordingsRoot.joinpath
    (("call_".toList ++ p.toList ++ '_' :: callFields n timestamp) ++ ".wav".toList)

theorem recordingFile_eq (p : PhoneId) (n : Nat) (timestamp : String) :
    recordingFile p n timestamp = (recordingsRoot.joinpath p.toList).joinpath
      (("call_".toList ++ callFields n timestamp) ++ ".wav".toList) := by
  rw [recordingFile, toList_toString_natCast, callFields]
  congr 1
  simp only [List.append_assoc, List.cons_append, List.nil_append]

theorem str_recordingsRoot : recordingsRoot.str = "/recordings".toList := by
  decide

theorem parts_recordingsRoot_ne_nil : recordingsRoot.parts ≠ [] := by
  decide

section Accepted

variable {p : PhoneId} (hp : isPhoneId p.toList = true) (n : Nat) {timestamp : String}
  (htimestamp : IsTimestamp timestamp)

include htimestamp

theorem isPart_recordingName :
    IsPart (("call_".toList ++ callFields n timestamp) ++ ".wav".toList) := by
  refine isPart_wav fun hslash => ?_
  rcases List.mem_append.mp hslash with hcall | hfields
  · revert hcall
    decide
  · exact no_slash_callFields n htimestamp hfields

include hp

theorem isPart_legacyName :
    IsPart (("call_".toList ++ p.toList ++ '_' :: callFields n timestamp) ++ ".wav".toList) := by
  refine isPart_wav fun hslash => ?_
  rcases List.mem_append.mp hslash with hfront | hback
  · rcases List.mem_append.mp hfront with hcall | hphone
    · revert hcall
      decide
    · exact (isPart_of_isPhoneId hp).no_slash hphone
  · rcases List.mem_cons.mp hback with heq | hfields
    · cases heq
    · exact no_slash_callFields n htimestamp hfields

/-- The path that a call keeps is that of the file that it has created. -/
theorem str_recordingFile :
    (recordingFile p n timestamp).str = (SipCall.recordingPath p n timestamp).toList := by
  have hphone := isPart_of_isPhoneId hp
  have hdir : (recordingsRoot.joinpath p.toList).parts ≠ [] := by
    rw [(recordingsRoot.joinpath_part hphone).2]
    exact List.append_ne_nil_of_right_ne_nil _ (List.cons_ne_nil _ _)
  have hslash : "/recordings/".toList = "/recordings".toList ++ ['/'] := by decide
  have hcall : "/call_".toList = '/' :: "call_".toList := by decide
  have hsep : "_".toList = ['_'] := by decide
  rw [recordingFile_eq, PosixPath.str_joinpath _ (isPart_recordingName n htimestamp) hdir,
    PosixPath.str_joinpath _ hphone parts_recordingsRoot_ne_nil, str_recordingsRoot]
  unfold SipCall.recordingPath
  simp only [callFields, String.toList_append, toList_toString_natCast, hslash, hcall, hsep,
    List.append_assoc, List.cons_append, List.nil_append]

theorem str_legacyRecordingFile :
    (legacyRecordingFile p n timestamp).str = (legacyRecordingPath p n timestamp).toList := by
  have hslash : "/recordings/call_".toList = "/recordings".toList ++ '/' :: "call_".toList := by
    decide
  have hsep : "_".toList = ['_'] := by decide
  rw [legacyRecordingFile, PosixPath.str_joinpath _ (isPart_legacyName hp n htimestamp)
    parts_recordingsRoot_ne_nil, str_recordingsRoot]
  unfold legacyRecordingPath
  simp only [callFields, String.toList_append, toList_toString_natCast, hslash, hsep,
    List.append_assoc, List.cons_append, List.nil_append]

end Accepted

/-! ## Reading the names -/

/-- A piece without underscores is cut off at the first one behind it. -/
theorem split_underscore {piece : Text} (h : '_' ∉ piece) (rest : Text) :
    split ['_'] (piece ++ '_' :: rest) = piece :: split ['_'] rest := by
  have hfree : ¬['_'] <:+: piece := by rwa [List.singleton_infix_iff]
  have hcut := split_append (List.cons_ne_nil _ _) (borderless_singleton '_') hfree rest
  rwa [List.append_assoc, List.singleton_append] at hcut

theorem stem_wav {path : PosixPath} {base : Text} (h : path.name = base ++ ".wav".toList)
    (hne : base ≠ []) : path.stem = base := by
  rw [PosixPath.stem, h]
  exact stemOf_append hne (by decide) (by decide)

/-- The first field of a name says that it is a recording. -/
theorem split_call (rest : Text) :
    split ['_'] ("call_".toList ++ rest) = "call".toList :: split ['_'] rest := by
  have hfree : '_' ∉ "call".toList := by decide
  have hsplit : "call_".toList = "call".toList ++ ['_'] := by decide
  rw [hsplit, List.append_assoc, List.singleton_append, split_underscore hfree]

theorem split_callFields (n : Nat) (timestamp : String) : split ['_'] (callFields n timestamp) =
    Nat.toDigits 10 n :: split ['_'] timestamp.toList :=
  split_underscore Nat.underscore_not_in_toDigits timestamp.toList

section Accepted

variable (u : DigitTables) {p : PhoneId} (hp : isPhoneId p.toList = true) (n : Nat)
  {timestamp : String} (htimestamp : IsTimestamp timestamp)

include hp htimestamp

/-- In the directory of a phone the id of the phone is the name of the directory. -/
theorem parse_recordingFile :
    parseRecordingFilename u.tables (recordingFile p n timestamp) =
      (some p.toList, u.intOf (Nat.toDigits 10 n)) := by
  have hphone := isPart_of_isPhoneId hp
  have hname := isPart_recordingName n htimestamp
  have hparent : (recordingFile p n timestamp).parent = recordingsRoot.joinpath p.toList := by
    rw [recordingFile_eq, PosixPath.parent_joinpath _ hname]
  have hparts : split ['_'] (recordingFile p n timestamp).stem =
      "call".toList :: Nat.toDigits 10 n :: split ['_'] timestamp.toList := by
    have hstem : (recordingFile p n timestamp).stem = "call_".toList ++ callFields n timestamp := by
      refine stem_wav ?_ (List.append_ne_nil_of_left_ne_nil (by decide) _)
      rw [recordingFile_eq, PosixPath.name_joinpath _ hname]
    rw [hstem, split_call, split_callFields]
  have hbelow : recordingsRoot.joinpath p.toList ≠ recordingsRoot := by
    intro heq
    have hlen := congrArg List.length (recordingsRoot.joinpath_part hphone).2
    rw [heq, List.length_append, List.length_singleton] at hlen
    omega
  simp only [parseRecordingFilename]
  rw [hparts, hparent, PosixPath.name_joinpath _ hphone, if_neg, if_pos ⟨hphone.ne_nil, hbelow⟩]
  · rfl
  · simp

theorem parts_legacyRecordingFile : split ['_'] (legacyRecordingFile p n timestamp).stem =
    "call".toList :: split ['_'] (p.toList ++ '_' :: callFields n timestamp) := by
  have hstem : (legacyRecordingFile p n timestamp).stem =
      "call_".toList ++ p.toList ++ '_' :: callFields n timestamp := by
    refine stem_wav ?_ ?_
    · rw [legacyRecordingFile, PosixPath.name_joinpath _ (isPart_legacyName hp n htimestamp)]
    · exact List.append_ne_nil_of_right_ne_nil _ (List.cons_ne_nil _ _)
  rw [hstem, List.append_assoc, split_call]

theorem parent_legacyRecordingFile :
    (legacyRecordingFile p n timestamp).parent = recordingsRoot := by
  rw [legacyRecordingFile, PosixPath.parent_joinpath _ (isPart_legacyName hp n htimestamp)]

/-- Elsewhere the ids are what lies between the first underscores. -/
theorem parse_legacyRecordingFile (hfree : '_' ∉ p.toList) :
    parseRecordingFilename u.tables (legacyRecordingFile p n timestamp) =
      (some p.toList, u.intOf (Nat.toDigits 10 n)) := by
  have hparent := parent_legacyRecordingFile hp n htimestamp
  simp only [parseRecordingFilename]
  rw [parts_legacyRecordingFile hp n htimestamp, split_underscore hfree, split_callFields, hparent,
    if_neg, if_neg, if_pos]
  · rfl
  · simp
  · exact fun h => h.2 rfl
  · simp

/-- No id with an underscore is read from a name. -/
theorem not_underscore_of_parse_legacy {q : Text}
    (h : (parseRecordingFilename u.tables (legacyRecordingFile p n timestamp)).1 = some q) :
    '_' ∉ q := by
  have hparent := parent_legacyRecordingFile hp n htimestamp
  simp only [parseRecordingFilename] at h
  split_ifs at h with hshort hbelow hlong
  · exact (hbelow.2 hparent).elim
  · have hmem : q ∈ split ['_'] (legacyRecordingFile p n timestamp).stem := List.mem_of_getElem? h
    have hpiece := free_of_mem_split (List.cons_ne_nil _ _) hmem
    rwa [List.singleton_infix_iff] at hpiece

/-- The id of a call is read back if it is not too long. -/
theorem recovers_recordingPath_iff :
    Recovers u.tables (SipCall.recordingPath p n timestamp) p n ↔
      (Nat.toDigits 10 n).length ≤ 4300 := by
  rw [Recovers, ← str_recordingFile hp n htimestamp, PosixPath.ofText_str,
    parse_recordingFile u hp n htimestamp, u.intOf_toDigits]
  split_ifs with hlen <;> simp [hlen]

/-- A phone id with an underscore is not read back from a flat name. -/
theorem recovers_legacyRecordingPath_iff :
    Recovers u.tables (legacyRecordingPath p n timestamp) p n ↔
      '_' ∉ p.toList ∧ (Nat.toDigits 10 n).length ≤ 4300 := by
  rw [Recovers, ← str_legacyRecordingFile hp n htimestamp, PosixPath.ofText_str]
  by_cases hfree : '_' ∈ p.toList
  · refine iff_of_false (fun h => ?_) fun h => h.1 hfree
    exact not_underscore_of_parse_legacy u hp n htimestamp (congrArg Prod.fst h) hfree
  · rw [parse_legacyRecordingFile u hp n htimestamp hfree, u.intOf_toDigits]
    split_ifs with hlen <;> simp [hlen, hfree]

end Accepted

theorem isPhoneId_of_validated {p : PhoneId} (h : validatePhoneId (.str p.toList) = .ok p) :
    isPhoneId p.toList = true := by
  rw [validatePhoneId] at h
  split_ifs at h with hid
  exact hid

/-- Both layouts are read where the phone id has no underscore, up to the length of a number that
can be converted. -/
theorem recovers_iff (u : DigitTables) {p : PhoneId}
    (hp : validatePhoneId (.str p.toList) = .ok p) (n : Nat) {timestamp : String}
    (htimestamp : IsTimestamp timestamp) :
    Recovers u.tables (SipCall.recordingPath p n timestamp) p n ∧
        Recovers u.tables (legacyRecordingPath p n timestamp) p n ↔
      '_' ∉ p.toList ∧ (Nat.toDigits 10 n).length ≤ 4300 := by
  have hid := isPhoneId_of_validated hp
  rw [recovers_recordingPath_iff u hid n htimestamp,
    recovers_legacyRecordingPath_iff u hid n htimestamp]
  exact and_iff_right_of_imp And.right

theorem recovers_iff_alice :
    Recovers CharTables.ascii (SipCall.recordingPath "alice" 3 "20260101_120000") "alice" 3 ∧
      Recovers CharTables.ascii (legacyRecordingPath "alice" 3 "20260101_120000") "alice" 3 :=
  (recovers_iff .ascii (by decide) 3 (by decide)).mpr (by decide)

/-- The id of a phone with an underscore is lost in the older layout. -/
theorem underscore_not_recovered :
    validatePhoneId (.str "a_b".toList) = .ok "a_b" ∧ IsTimestamp "20260101_120000" ∧
      ¬(Recovers CharTables.ascii (SipCall.recordingPath "a_b" 3 "20260101_120000") "a_b" 3 ∧
        Recovers CharTables.ascii (legacyRecordingPath "a_b" 3 "20260101_120000") "a_b" 3) := by
  have htimestamp : IsTimestamp "20260101_120000" := by decide
  refine ⟨by decide, htimestamp, fun h => ?_⟩
  have hlegacy := (recovers_legacyRecordingPath_iff .ascii (by decide) 3 htimestamp).mp h.2
  revert hlegacy
  decide

end PjsuaMcp.Server
