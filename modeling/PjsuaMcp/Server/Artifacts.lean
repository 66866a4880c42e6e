import PjsuaMcp.Calls.CallFiles
import PjsuaMcp.Rtp.LeakDetection
import PjsuaMcp.Server.RecordingNames
import Mathlib.Data.Char
import Mathlib.Data.List.Lex

/-!
# The files of a run

The tools that list recordings and analyse captures, and the summary of a
scenario run, know only what lies on disk: they read the phone and the call from
the names. For the files that a run has left, this gives back the calls that
they belong to.

## Implementation notes

A file tree is what `glob`, `stat` and `exists` answer, in any order of the
directory entries. A directory that is not there has no files.
-/

namespace PjsuaMcp.Server

open Sdp (Text)
open SipLog (CharTables DigitTables)
open Library
open Calls (PhoneId CallId SipCall Sys Naming server)

/-- The phone ids of `add_phone`, the call ids of the library and the timestamps of `strftime`. -/
def fileNaming : Naming where
  phone p := isPhoneId p.toList
  call c := 0 ≤ c ∧ c < 2147483648
  stamp t := IsTimestamp t

/-- `external_path`, of a path that is not `None`. -/
def externalPath (containerPath containerRoot : PosixPath) (hostRoot : Option Text) : Text :=
  match hostRoot with
  | none => containerPath.str
  | some host =>
      (containerPath.relativeTo containerRoot).elim containerPath.str fun rel =>
        ((PosixPath.ofText host).append rel).str

/-- `with_suffix(".meta.json")`. -/
def metaPath (recording : PosixPath) : PosixPath := recording.withSuffix ".meta.json".toList

structure FileTree where
  rootExists : Bool
  wavs : List PosixPath
  metas : List PosixPath
  pcaps : List PosixPath
  size : PosixPath → Nat
  mtime : PosixPath → Nat

/-! ## Listing the recordings -/

/-- An entry of the answer of `list_recordings`. -/
structure RecordingRow where
  filename : Text
  filePath : Text
  fileSize : Nat
  phoneId : Option Text
  callId : Option Int
  metaPath : Option Text
  deriving DecidableEq, Repr

section Listing

variable (u : CharTables) (hostRoot : Option Text) (tree : FileTree)

def recordingRow (f : PosixPath) : RecordingRow where
  filename := f.name
  filePath := externalPath f recordingsRoot hostRoot
  fileSize := tree.size f
  phoneId := (parseRecordingFilename u f).1
  callId := (parseRecordingFilename u f).2
  metaPath :=
    if metaPath f ∈ tree.metas then some (externalPath (metaPath f) recordingsRoot hostRoot)
    else none

/-- What the two filters let through. -/
def RecordingRow.matches (row : RecordingRow) (phoneId : Option Text) (callId : Option Int) :
    Bool :=
  (phoneId.all fun p => row.phoneId = some p) && callId.all fun c => row.callId = some c

/-- The order of the rows, by path and backwards. -/
def RecordingRow.precedes (row row' : RecordingRow) : Bool := row'.filePath ≤ row.filePath

/-- `list_recordings`. -/
def listRecordings (phoneId : Option Text) (callId : Option Int) : List RecordingRow :=
  if !tree.rootExists then []
  else
    ((tree.wavs.map (recordingRow u hostRoot tree)).filter fun row =>
      row.matches phoneId callId).mergeSort RecordingRow.precedes

end Listing

/-! ## The artifacts of a scenario -/

/-- `_latest_after`: the first of the files with the latest modification time. -/
def latestAfter (mtime : PosixPath → Nat) (startedAt : Nat) (files : List PosixPath) :
    Option PosixPath :=
  files.foldl
    (fun best f =>
      if mtime f < startedAt then best
      else if best.all fun b => mtime b < mtime f then some f else best)
    none

/-- The files of a directory. -/
def filesIn (files : List PosixPath) (dir : PosixPath) : List PosixPath :=
  files.filter fun f => f.parent = dir

def capturesRoot : PosixPath := .ofText "/captures".toList

/-- What `collect_artifacts` says of one phone. -/
structure PhoneArtifacts where
  recording : Option Text
  recordingMeta : Option Text
  pcap : Option Text
  deriving DecidableEq, Repr

section Collecting

variable (tree : FileTree) (startedAt : Nat) (hostRecordings hostCaptures : Option Text)

def latestRecording (p : PhoneId) : Option PosixPath :=
  latestAfter tree.mtime startedAt (filesIn tree.wavs (recordingsRoot.joinpath p.toList))

def latestPcap (p : PhoneId) : Option PosixPath :=
  latestAfter tree.mtime startedAt (filesIn tree.pcaps (capturesRoot.joinpath p.toList))

/-- The body of the loop of `collect_artifacts`. -/
def phoneArtifacts (p : PhoneId) : Option PhoneArtifacts :=
  let recording := latestRecording tree startedAt p
  let pcap := latestPcap tree startedAt p
  if recording.isNone && pcap.isNone then none
  else
    let recordingMeta := (recording.map metaPath).filter fun f => f ∈ tree.metas
    some
      { recording := recording.map fun f => externalPath f recordingsRoot hostRecordings
        recordingMeta := recordingMeta.map fun f => externalPath f recordingsRoot hostRecordings
        pcap := pcap.map fun f => externalPath f capturesRoot hostCaptures }

/-- `collect_artifacts`. -/
def collectArtifacts (phones : List PhoneId) : OrderedDict PhoneId (Option PhoneArtifacts) :=
  phones.foldl
    (fun result p => result.set p (phoneArtifacts tree startedAt hostRecordings hostCaptures p))
    .empty

end Collecting

/-! ## The names of recordings -/

/-- What a WAV of the call is called. -/
structure IsRecording (call : SipCall) (w : String) (n : Nat) (timestamp : String) : Prop where
  phone : isPhoneId call.phoneId.toList = true
  id : call.callId = n
  digits : (Nat.toDigits 10 n).length ≤ 4300
  stamp : IsTimestamp timestamp
  path : PosixPath.ofText w.toList = recordingFile call.phoneId n timestamp
  text : (recordingFile call.phoneId n timestamp).str = w.toList

/-- Every WAV of a call is named as a recording of it. -/
theorem isRecording_of_named {call : SipCall} (named : call.Named fileNaming) {w : String}
    (hw : w ∈ call.wavs) : ∃ n timestamp, IsRecording call w n timestamp := by
  obtain ⟨timestamp, hstamp, hpath⟩ := named.wavs w hw
  have hid : (0 : Int) ≤ call.callId ∧ (call.callId : Int) < 2147483648 := of_decide_eq_true named.id
  obtain ⟨n, hn⟩ := Int.eq_ofNat_of_zero_le hid.1
  have hstamp : IsTimestamp timestamp := of_decide_eq_true hstamp
  have hdigits : (Nat.toDigits 10 n).length ≤ 10 := by
    rw [Nat.length_toDigits_le_iff (by decide) (by decide)]
    have hlt : (n : Int) < 2147483648 := hn ▸ hid.2
    omega
  rw [hn] at hpath
  have htext : (recordingFile call.phoneId n timestamp).str = w.toList := by
    rw [hpath, str_recordingFile named.phone n hstamp]
  refine ⟨n, timestamp, named.phone, hn, hdigits.trans (by decide), hstamp, ?_, htext⟩
  rw [← htext, PosixPath.ofText_str]

namespace IsRecording

variable {call : SipCall} {w : String} {n : Nat} {timestamp : String}
  (h : IsRecording call w n timestamp)

include h

/-- The name without its suffix. -/
theorem isPart_base : '/' ∉ "call_".toList ++ callFields n timestamp := by
  intro hslash
  apply (List.mem_append.mp hslash).elim
  · decide
  · exact no_slash_callFields n h.stamp

theorem path_eq : PosixPath.ofText w.toList =
    (recordingsRoot.joinpath call.phoneId.toList).joinpath
      (("call_".toList ++ callFields n timestamp) ++ ".wav".toList) := by
  rw [h.path, recordingFile_eq]

theorem parent : (PosixPath.ofText w.toList).parent =
    recordingsRoot.joinpath call.phoneId.toList := by
  rw [h.path_eq, PosixPath.parent_joinpath _ (isPart_wav h.isPart_base)]

/-- The phone and the call are read back from the name of a recording. -/
theorem parse (u : DigitTables) :
    parseRecordingFilename u.tables (PosixPath.ofText w.toList) =
      (some call.phoneId.toList, some call.callId) := by
  rw [h.path, parse_recordingFile u h.phone n h.stamp, u.intOf_toDigits, if_pos h.digits, h.id]

/-- The sidecar lies beside the WAV. -/
theorem metaPath_eq : metaPath (PosixPath.ofText w.toList) =
    (recordingsRoot.joinpath call.phoneId.toList).joinpath
      (("call_".toList ++ callFields n timestamp) ++ ".meta.json".toList) := by
  have hname : (PosixPath.ofText w.toList).name =
      ("call_".toList ++ callFields n timestamp) ++ ".wav".toList := by
    rw [h.path_eq, PosixPath.name_joinpath _ (isPart_wav h.isPart_base)]
  have hstem := stem_wav hname (List.append_ne_nil_of_left_ne_nil (by decide) _)
  rw [metaPath, PosixPath.withSuffix, h.parent, hstem]

theorem isPart_meta :
    IsPart (("call_".toList ++ callFields n timestamp) ++ ".meta.json".toList) := by
  have hm : 'm' ∈ ("call_".toList ++ callFields n timestamp) ++ ".meta.json".toList :=
    List.mem_append_right _ (by decide)
  refine ⟨List.ne_nil_of_mem hm, fun hdot => ?_, fun hslash => ?_⟩
  · rw [hdot] at hm
    revert hm
    decide
  · apply (List.mem_append.mp hslash).elim h.isPart_base
    decide

theorem below : ∃ rel, (PosixPath.ofText w.toList).relativeTo recordingsRoot = some rel := by
  obtain ⟨hroot, hparts⟩ := recordingsRoot.joinpath_part (isPart_of_isPhoneId h.phone)
  obtain ⟨hroot', hparts'⟩ := (recordingsRoot.joinpath call.phoneId.toList).joinpath_part
    (isPart_wav h.isPart_base)
  rw [h.path_eq]
  apply PosixPath.relativeTo_isSome (hroot'.trans hroot)
  rw [hparts', hparts, List.append_assoc]
  exact List.prefix_append _ _

theorem str_path : (PosixPath.ofText w.toList).str = w.toList := by
  rw [h.path, h.text]

end IsRecording

/-- Two recordings with one sidecar are the same. -/
theorem metaPath_inj {call call' : SipCall} {w w' : String} {n n' : Nat}
    {timestamp timestamp' : String} (h : IsRecording call w n timestamp)
    (h' : IsRecording call' w' n' timestamp')
    (heq : metaPath (.ofText w.toList) = metaPath (.ofText w'.toList)) : w = w' := by
  rw [h.metaPath_eq, h'.metaPath_eq] at heq
  have hparent := congrArg PosixPath.parent heq
  rw [PosixPath.parent_joinpath _ h.isPart_meta, PosixPath.parent_joinpath _ h'.isPart_meta]
    at hparent
  have hname := congrArg PosixPath.name heq
  rw [PosixPath.name_joinpath _ h.isPart_meta, PosixPath.name_joinpath _ h'.isPart_meta] at hname
  have hbase := List.append_cancel_right hname
  have hpath : PosixPath.ofText w.toList = PosixPath.ofText w'.toList := by
    rw [h.path_eq, h'.path_eq, hparent, hbase]
  have htext : w.toList = w'.toList := by
    rw [← h.str_path, ← h'.str_path, hpath]
  exact String.toList_inj.mp htext

/-- Below its root every file has an outside path of its own. -/
theorem externalPath_inj {f f' root rel rel' : PosixPath} {hostRoot : Option Text}
    (h : f.relativeTo root = some rel) (h' : f'.relativeTo root = some rel')
    (heq : externalPath f root hostRoot = externalPath f' root hostRoot) : f = f' := by
  cases hostRoot with
  | none => exact PosixPath.str_injective heq
  | some host =>
      simp only [externalPath, h, h', Option.elim_some] at heq
      exact PosixPath.append_inj_of_relativeTo h h' (PosixPath.str_injective heq)

/-! ## The files that a run leaves -/

/-- The directory tree holds the recordings and sidecars of these calls and no others. -/
structure FileTree.Holds (tree : FileTree) (calls : List SipCall) : Prop where
  root : tree.wavs ≠ [] → tree.rootExists = true
  nodup : tree.wavs.Nodup
  wavs : ∀ f, f ∈ tree.wavs ↔ ∃ call ∈ calls, ∃ w ∈ call.wavs, f = .ofText w.toList
  metas : ∀ f, f ∈ tree.metas ↔
    ∃ call ∈ calls, ∃ m ∈ call.sidecars, f = metaPath (.ofText m.recording.toList)

/-- A tree with the files of these calls only. -/
def FileTree.ofCalls (calls : List SipCall) (size mtime : PosixPath → Nat) : FileTree where
  rootExists := true
  wavs := ((calls.flatMap SipCall.wavs).map fun w => .ofText w.toList).dedup
  metas := (calls.flatMap SipCall.sidecars).map fun m => metaPath (.ofText m.recording.toList)
  pcaps := []
  size := size
  mtime := mtime

theorem FileTree.ofCalls_holds (calls : List SipCall) (size mtime : PosixPath → Nat) :
    (FileTree.ofCalls calls size mtime).Holds calls where
  root _ := rfl
  nodup := List.nodup_dedup _
  wavs f := by
    simp only [FileTree.ofCalls, List.mem_dedup, List.mem_map, List.mem_flatMap]
    constructor
    · rintro ⟨w, ⟨call, hcall, hw⟩, rfl⟩
      exact ⟨call, hcall, w, hw, rfl⟩
    · rintro ⟨call, hcall, w, hw, rfl⟩
      exact ⟨w, ⟨call, hcall, hw⟩, rfl⟩
  metas f := by
    simp only [FileTree.ofCalls, List.mem_map, List.mem_flatMap]
    constructor
    · rintro ⟨m, ⟨call, hcall, hm⟩, rfl⟩
      exact ⟨call, hcall, m, hm, rfl⟩
    · rintro ⟨call, hcall, m, hm, rfl⟩
      exact ⟨m, ⟨call, hcall, hm⟩, rfl⟩

/-- Some sidecar of these calls describes the recording. -/
def Described (calls : List SipCall) (w : String) : Prop :=
  ∃ call ∈ calls, ∃ m ∈ call.sidecars, m.recording = w

instance (calls : List SipCall) (w : String) : Decidable (Described calls w) :=
  inferInstanceAs (Decidable (∃ call ∈ calls, ∃ m ∈ call.sidecars, m.recording = w))

section Holds

variable {tree : FileTree} {calls : List SipCall} (holds : tree.Holds calls)
  (named : ∀ call ∈ calls, call.Named fileNaming)

include holds named

/-- A sidecar stands beside exactly the recordings that have one. -/
theorem metaPath_mem_iff {call : SipCall} (hcall : call ∈ calls) {w : String}
    (hw : w ∈ call.wavs) : metaPath (.ofText w.toList) ∈ tree.metas ↔ Described calls w := by
  obtain ⟨n, timestamp, h⟩ := isRecording_of_named (named call hcall) hw
  rw [holds.metas, Described]
  constructor
  · rintro ⟨call', hcall', m, hm, heq⟩
    obtain ⟨n', timestamp', h'⟩ := isRecording_of_named (named call' hcall')
      ((named call' hcall').recordings m hm)
    exact ⟨call', hcall', m, hm, (metaPath_inj h h' heq).symm⟩
  · rintro ⟨call', hcall', m, hm, rfl⟩
    exact ⟨call', hcall', m, hm, rfl⟩

/-- The row of a recording, told from its call. -/
def describedRow (hostRoot : Option Text) (tree : FileTree) (calls : List SipCall) (call : SipCall)
    (w : String) : RecordingRow where
  filename := (PosixPath.ofText w.toList).name
  filePath := externalPath (.ofText w.toList) recordingsRoot hostRoot
  fileSize := tree.size (.ofText w.toList)
  phoneId := some call.phoneId.toList
  callId := some call.callId
  metaPath :=
    if Described calls w then
      some (externalPath (metaPath (.ofText w.toList)) recordingsRoot hostRoot)
    else none

/-- The row of a recording is the one that its call describes. -/
theorem recordingRow_eq (u : DigitTables) (hostRoot : Option Text) {call : SipCall}
    (hcall : call ∈ calls) {w : String} (hw : w ∈ call.wavs) :
    recordingRow u.tables hostRoot tree (.ofText w.toList) =
      describedRow hostRoot tree calls call w := by
  obtain ⟨n, timestamp, h⟩ := isRecording_of_named (named call hcall) hw
  have hmeta := metaPath_mem_iff holds named hcall hw
  simp only [recordingRow, describedRow, h.parse u, hmeta]

theorem nodup_filePaths (u : CharTables) (hostRoot : Option Text) :
    ((tree.wavs.map (recordingRow u hostRoot tree)).map RecordingRow.filePath).Nodup := by
  rw [List.map_map]
  apply holds.nodup.map_on
  intro f hf f' hf' heq
  obtain ⟨call, hcall, w, hw, rfl⟩ := (holds.wavs f).mp hf
  obtain ⟨call', hcall', w', hw', rfl⟩ := (holds.wavs f').mp hf'
  obtain ⟨n, timestamp, h⟩ := isRecording_of_named (named call hcall) hw
  obtain ⟨n', timestamp', h'⟩ := isRecording_of_named (named call' hcall') hw'
  obtain ⟨rel, hrel⟩ := h.below
  obtain ⟨rel', hrel'⟩ := h'.below
  exact externalPath_inj hrel hrel' heq

end Holds

theorem listRecordings_eq {u : CharTables} {hostRoot : Option Text} {tree : FileTree}
    {calls : List SipCall} (holds : tree.Holds calls) (phoneId : Option Text)
    (callId : Option Int) : listRecordings u hostRoot tree phoneId callId =
      ((tree.wavs.map (recordingRow u hostRoot tree)).filter fun row =>
        row.matches phoneId callId).mergeSort RecordingRow.precedes := by
  unfold listRecordings
  split_ifs with hroot
  · have hnone : tree.wavs = [] := by
      by_contra hne
      rw [holds.root hne] at hroot
      cases hroot
    rw [hnone, List.map_nil, List.filter_nil, List.mergeSort_nil]
  · rfl

/-- A row passes the filters when it has what they ask for. -/
theorem RecordingRow.matches_iff {row : RecordingRow} {phoneId : Option Text}
    {callId : Option Int} : row.matches phoneId callId = true ↔
      (∀ p, phoneId = some p → row.phoneId = some p) ∧
        ∀ c, callId = some c → row.callId = some c := by
  rw [RecordingRow.matches, Bool.and_eq_true, Option.all_eq_true, Option.all_eq_true]
  simp only [decide_eq_true_eq]

/-- The files of every run keep their names. -/
theorem calls_named {s : Sys}
    (run : server.Reach (fun s a => s.keepsTo fileNaming a = true) s) :
    ∀ call ∈ s.objs, call.Named fileNaming := by
  intro call hcall
  obtain ⟨o, ho⟩ := List.mem_iff_getElem?.mp hcall
  exact (Calls.reach_named run).calls o call ho

/-- Rows with paths of their own are sorted strictly. -/
theorem pairwise_mergeSort_precedes {rows : List RecordingRow}
    (h : (rows.map RecordingRow.filePath).Nodup) :
    (rows.mergeSort RecordingRow.precedes).Pairwise fun row row' =>
      row'.filePath < row.filePath := by
  have hsorted : (rows.mergeSort RecordingRow.precedes).Pairwise fun row row' =>
      RecordingRow.precedes row row' = true := by
    apply List.pairwise_mergeSort
    · intro a b c hab hbc
      exact decide_eq_true ((of_decide_eq_true hbc).trans (of_decide_eq_true hab))
    · intro a b
      rw [Bool.or_eq_true]
      exact (le_total b.filePath a.filePath).imp decide_eq_true decide_eq_true
  have hdistinct : ((rows.mergeSort RecordingRow.precedes).map RecordingRow.filePath).Nodup :=
    ((List.mergeSort_perm rows _).map _).nodup_iff.mpr h
  apply hsorted.imp₂ _ (List.pairwise_map.mp hdistinct)
  intro row row' hle hne
  exact lt_of_le_of_ne (of_decide_eq_true hle) (Ne.symm hne)

/-- Whatever run has left the recordings on disk, and whatever the order of the directory
entries: `list_recordings` has one row for every recording of the calls that are asked for, with
the phone and the id of its call, and with the path of a sidecar exactly when one was written for
it. The rows descend strictly by path. -/
theorem listRecordings_run (u : DigitTables) (hostRoot : Option Text) {s : Sys}
    (run : server.Reach (fun s a => s.keepsTo fileNaming a = true) s) {tree : FileTree}
    (holds : tree.Holds s.objs) (phoneId : Option Text) (callId : Option Int) :
    (listRecordings u.tables hostRoot tree phoneId callId).Pairwise
        (fun row row' => row'.filePath < row.filePath) ∧
      ∀ row, row ∈ listRecordings u.tables hostRoot tree phoneId callId ↔
        ∃ call ∈ s.objs, ∃ w ∈ call.wavs,
          (∀ p, phoneId = some p → call.phoneId.toList = p) ∧
          (∀ c, callId = some c → call.callId = c) ∧
          row = describedRow hostRoot tree s.objs call w := by
  have named := calls_named run
  rw [listRecordings_eq holds]
  constructor
  · exact pairwise_mergeSort_precedes
      ((nodup_filePaths holds named u.tables hostRoot).sublist (List.filter_sublist.map _))
  · intro row
    rw [List.mem_mergeSort, List.mem_filter, List.mem_map, RecordingRow.matches_iff]
    constructor
    · rintro ⟨⟨f, hf, rfl⟩, hphone, hid⟩
      obtain ⟨call, hcall, w, hw, rfl⟩ := (holds.wavs f).mp hf
      have hrow := recordingRow_eq holds named u hostRoot hcall hw
      rw [hrow] at hphone hid ⊢
      exact ⟨call, hcall, w, hw, fun p hp => Option.some.inj (hphone p hp),
        fun c hc => Option.some.inj (hid c hc), rfl⟩
    · rintro ⟨call, hcall, w, hw, hphone, hid, rfl⟩
      have hrow := recordingRow_eq holds named u hostRoot hcall hw
      refine ⟨⟨_, (holds.wavs _).mpr ⟨call, hcall, w, hw, rfl⟩, hrow⟩, ?_, ?_⟩
      · intro p hp
        exact congrArg some (hphone p hp)
      · intro c hc
        exact congrArg some (hid c hc)

/-- An active audio media whose recorder opens at this time. -/
def stampedMedia (stamp : String) : Calls.MediaStatus :=
  { Calls.MediaStatus.active with recorder := ⟨true, true, stamp, stamp⟩ }

/-- A recorded call of Alice that has ended, and one of Bob that goes on. -/
def twoRecordings : List Calls.Action :=
  [.addPhone "alice" { domain := "example.org", recordingEnabled := true } ⟨some 1, true⟩,
   .addPhone "bob" { domain := "example.org", recordingEnabled := true } ⟨some 2, true⟩,
   .incomingCall "alice" 0 none, .mediaState 0 [stampedMedia "20260101_120000_000001"],
   .incomingCall "bob" 1 none, .mediaState 1 [stampedMedia "20260101_120000_000002"],
   .callState 0 (.plain 0 .disconnected "a") .writes "t"]

theorem twoRecordings_legal :
    server.Legal (fun s a => s.keepsTo fileNaming a = true) .initial twoRecordings := by
  decide

theorem listRecordings_twoRecordings :
    let calls := (server.run .initial twoRecordings).objs
    let tree := FileTree.ofCalls calls (fun _ => 0) fun _ => 0
    let rows := listRecordings CharTables.ascii none tree (some "alice".toList) none
    rows.Pairwise (fun row row' => row'.filePath < row.filePath) ∧
      ∃ row ∈ rows, row.callId = some 0 ∧ row.metaPath.isSome = true := by
  intro calls tree rows
  have run : server.Reach (fun s a => s.keepsTo fileNaming a = true)
      (server.run .initial twoRecordings) := GuardedSystem.Reach.init.run twoRecordings_legal
  obtain ⟨hsorted, hrows⟩ := listRecordings_run .ascii none run
    (FileTree.ofCalls_holds calls (fun _ => 0) fun _ => 0) (some "alice".toList) none
  refine ⟨hsorted, ?_⟩
  have hcall : ∃ call ∈ calls, call.phoneId = "alice" ∧ call.callId = 0 ∧
      ∃ w ∈ call.wavs, Described calls w := by
    decide
  obtain ⟨call, hcall, hphone, hid, w, hw, hdescribed⟩ := hcall
  refine ⟨describedRow none tree calls call w, (hrows _).mpr ⟨call, hcall, w, hw, ?_, ?_, rfl⟩,
    ?_, ?_⟩
  · intro p hp
    cases hp
    rw [hphone]
  · intro c hc
    cases hc
  · exact congrArg some hid
  · rw [describedRow, if_pos hdescribed]
    rfl

/-! ## The latest files of a phone -/

/-- No file is as new as asked for, or the best one is and none is newer. -/
def IsLatest (mtime : PosixPath → Nat) (startedAt : Nat) (files : List PosixPath)
    (best : Option PosixPath) : Prop :=
  best.elim (∀ f ∈ files, mtime f < startedAt) fun b =>
    b ∈ files ∧ startedAt ≤ mtime b ∧ ∀ f ∈ files, mtime f ≤ mtime b

/-- The loop over the files finds the latest of them. -/
theorem isLatest_latestAfter (mtime : PosixPath → Nat) (startedAt : Nat)
    (files : List PosixPath) :
    IsLatest mtime startedAt files (latestAfter mtime startedAt files) := by
  induction files using List.reverseRecOn with
  | nil => exact fun f hf => absurd hf List.not_mem_nil
  | append_singleton files f ih =>
      rw [latestAfter, List.foldl_append, ← latestAfter, List.foldl_cons, List.foldl_nil]
      cases hbest : latestAfter mtime startedAt files with
      | none =>
          rw [hbest] at ih
          have hall : ∀ g ∈ files, mtime g < startedAt := ih
          split_ifs with hold hfirst
          · intro g hg
            exact (List.mem_append.mp hg).elim (hall g)
              fun hlast => List.mem_singleton.mp hlast ▸ hold
          · refine ⟨List.mem_append_right _ (List.mem_singleton_self f), not_lt.mp hold, ?_⟩
            intro g hg
            apply (List.mem_append.mp hg).elim
            · intro hmem
              have hlt := hall g hmem
              omega
            · intro hlast
              rw [List.mem_singleton.mp hlast]
          · exact absurd rfl hfirst
      | some b =>
          rw [hbest] at ih
          obtain ⟨hmem, hnew, hmax⟩ : b ∈ files ∧ startedAt ≤ mtime b ∧
            ∀ g ∈ files, mtime g ≤ mtime b := ih
          have hkeep : mtime f ≤ mtime b →
              IsLatest mtime startedAt (files ++ [f]) (some b) := by
            intro hle
            refine ⟨List.mem_append_left _ hmem, hnew, fun g hg => ?_⟩
            exact (List.mem_append.mp hg).elim (hmax g)
              fun hlast => List.mem_singleton.mp hlast ▸ hle
          split_ifs with hold hlater
          · exact hkeep (by omega)
          · rw [Option.all_some, decide_eq_true_eq] at hlater
            refine ⟨List.mem_append_right _ (List.mem_singleton_self f), not_lt.mp hold, ?_⟩
            intro g hg
            apply (List.mem_append.mp hg).elim
            · intro hmem
              exact (hmax g hmem).trans hlater.le
            · intro hlast
              rw [List.mem_singleton.mp hlast]
          · rw [Option.all_some, decide_eq_true_eq, not_lt] at hlater
            exact hkeep hlater

theorem get?_collectArtifacts (tree : FileTree) (startedAt : Nat)
    (hostRecordings hostCaptures : Option Text) {phones : List PhoneId} {p : PhoneId}
    (h : p ∈ phones) :
    (collectArtifacts tree startedAt hostRecordings hostCaptures phones).get? p =
      some (phoneArtifacts tree startedAt hostRecordings hostCaptures p) := by
  rw [collectArtifacts]
  induction phones using List.reverseRecOn with
  | nil => cases h
  | append_singleton phones q ih =>
      rw [List.foldl_append, List.foldl_cons, List.foldl_nil, OrderedDict.get?_set]
      split_ifs with heq
      · rw [heq]
      · apply ih
        apply (List.mem_append.mp h).resolve_right
        intro hlast
        exact heq (List.mem_singleton.mp hlast).symm

/-- Some recording of the phone is as new as asked for. -/
def Recent (tree : FileTree) (startedAt : Nat) (calls : List SipCall) (p : PhoneId) : Prop :=
  ∃ call ∈ calls, call.phoneId = p ∧ ∃ w ∈ call.wavs,
    startedAt ≤ tree.mtime (.ofText w.toList)

/-- The recording is as new as asked for, and no recording of the phone is newer. -/
def NewestOf (tree : FileTree) (startedAt : Nat) (calls : List SipCall) (p : PhoneId)
    (w : String) : Prop :=
  startedAt ≤ tree.mtime (.ofText w.toList) ∧
    ∀ call ∈ calls, call.phoneId = p → ∀ w' ∈ call.wavs,
      tree.mtime (.ofText w'.toList) ≤ tree.mtime (.ofText w.toList)

section Latest

variable {tree : FileTree} {calls : List SipCall} (holds : tree.Holds calls)
  (named : ∀ call ∈ calls, call.Named fileNaming)

include holds named

/-- The directory of a phone holds the recordings of its calls. -/
theorem mem_filesIn_iff {p : PhoneId} (hp : isPhoneId p.toList = true) (f : PosixPath) :
    f ∈ filesIn tree.wavs (recordingsRoot.joinpath p.toList) ↔
      ∃ call ∈ calls, call.phoneId = p ∧ ∃ w ∈ call.wavs, f = .ofText w.toList := by
  rw [filesIn, List.mem_filter, holds.wavs]
  constructor
  · rintro ⟨⟨call, hcall, w, hw, rfl⟩, hdir⟩
    obtain ⟨n, timestamp, h⟩ := isRecording_of_named (named call hcall) hw
    have hparent := of_decide_eq_true hdir
    have hname := congrArg PosixPath.name (h.parent.symm.trans hparent)
    rw [PosixPath.name_joinpath _ (isPart_of_isPhoneId h.phone),
      PosixPath.name_joinpath _ (isPart_of_isPhoneId hp)] at hname
    exact ⟨call, hcall, String.toList_inj.mp hname, w, hw, rfl⟩
  · rintro ⟨call, hcall, rfl, w, hw, rfl⟩
    obtain ⟨n, timestamp, h⟩ := isRecording_of_named (named call hcall) hw
    exact ⟨⟨call, hcall, w, hw, rfl⟩, decide_eq_true h.parent⟩

/-- No recording of the phone is recent, or the latest one is that of one of its calls. -/
theorem latestRecording_cases (startedAt : Nat) {p : PhoneId} (hp : isPhoneId p.toList = true) :
    (latestRecording tree startedAt p = none ∧ ¬Recent tree startedAt calls p) ∨
      ∃ call ∈ calls, call.phoneId = p ∧ ∃ w ∈ call.wavs,
        latestRecording tree startedAt p = some (.ofText w.toList) ∧
          NewestOf tree startedAt calls p w := by
  have hfiles := mem_filesIn_iff holds named hp
  have hlatest := isLatest_latestAfter tree.mtime startedAt
    (filesIn tree.wavs (recordingsRoot.joinpath p.toList))
  rw [← latestRecording] at hlatest
  cases hbest : latestRecording tree startedAt p with
  | none =>
      left
      refine ⟨rfl, ?_⟩
      rintro ⟨call, hcall, hphone, w, hw, hnew⟩
      rw [hbest] at hlatest
      have hold := hlatest _ ((hfiles _).mpr ⟨call, hcall, hphone, w, hw, rfl⟩)
      exact absurd hnew (not_le.mpr hold)
  | some f =>
      right
      rw [hbest] at hlatest
      obtain ⟨hmem, hnew, hmax⟩ := hlatest
      obtain ⟨call, hcall, hphone, w, hw, rfl⟩ := (hfiles f).mp hmem
      refine ⟨call, hcall, hphone, w, hw, rfl, hnew, ?_⟩
      intro call' hcall' hphone' w' hw'
      exact hmax _ ((hfiles _).mpr ⟨call', hcall', hphone', w', hw', rfl⟩)

end Latest

/-- What a scenario run reports of the files of a phone, among the files that any run of the
server has left: something exactly when a recording of the phone or a capture is recent enough;
the recording is then the newest one of the calls of this phone, never one of another phone, and
a sidecar is named exactly when one was written for this recording. -/
theorem collectArtifacts_run (startedAt : Nat) (hostRecordings hostCaptures : Option Text)
    {s : Sys} (run : server.Reach (fun s a => s.keepsTo fileNaming a = true) s)
    {tree : FileTree} (holds : tree.Holds s.objs) {phones : List PhoneId} {p : PhoneId}
    (hp : p ∈ phones) (valid : isPhoneId p.toList = true) :
    ∃ artifacts,
      (collectArtifacts tree startedAt hostRecordings hostCaptures phones).get? p =
        some artifacts ∧
      (artifacts.isSome = true ↔
        Recent tree startedAt s.objs p ∨ (latestPcap tree startedAt p).isSome = true) ∧
      ∀ a, artifacts = some a →
        a.pcap = (latestPcap tree startedAt p).map
          (fun f => externalPath f capturesRoot hostCaptures) ∧
        (a.recording.isSome = true ↔ Recent tree startedAt s.objs p) ∧
        ∀ path, a.recording = some path →
          ∃ call ∈ s.objs, call.phoneId = p ∧ ∃ w ∈ call.wavs,
            NewestOf tree startedAt s.objs p w ∧
            path = externalPath (.ofText w.toList) recordingsRoot hostRecordings ∧
            a.recordingMeta =
              if Described s.objs w then
                some (externalPath (metaPath (.ofText w.toList)) recordingsRoot hostRecordings)
              else none := by
  have named := calls_named run
  refine ⟨_, get?_collectArtifacts tree startedAt hostRecordings hostCaptures hp, ?_⟩
  unfold phoneArtifacts
  rcases latestRecording_cases holds named startedAt valid with
    ⟨hnone, hold⟩ | ⟨call, hcall, hphone, w, hw, hsome, hnewest⟩
  · rw [hnone]
    cases hpcap : latestPcap tree startedAt p with
    | none =>
        refine ⟨by simpa using hold, fun a ha => ?_⟩
        cases ha
    | some f =>
        refine ⟨by simp, fun a ha => ?_⟩
        cases ha
        refine ⟨rfl, by simpa using hold, fun path hpath => ?_⟩
        cases hpath
  · have hrecent : Recent tree startedAt s.objs p := ⟨call, hcall, hphone, w, hw, hnewest.1⟩
    have hmeta := metaPath_mem_iff holds named hcall hw
    rw [hsome]
    refine ⟨by simpa using Or.inl hrecent, fun a ha => ?_⟩
    cases ha
    refine ⟨rfl, by simpa using hrecent, fun path hpath => ?_⟩
    cases hpath
    refine ⟨call, hcall, hphone, w, hw, hnewest, rfl, ?_⟩
    by_cases hdescribed : Described s.objs w
    · simp [Option.filter, hmeta, hdescribed]
    · simp [Option.filter, hmeta, hdescribed]

theorem collectArtifacts_twoRecordings :
    let calls := (server.run .initial twoRecordings).objs
    let tree := FileTree.ofCalls calls (fun _ => 0) fun _ => 5
    ∃ a path, (collectArtifacts tree 5 none none ["alice"]).get? "alice" = some (some a) ∧
      a.recording = some path ∧ a.recordingMeta.isSome = true ∧
        ∃ call ∈ calls, call.phoneId = "alice" ∧ ∃ w ∈ call.wavs, path = w.toList := by
  intro calls tree
  have run : server.Reach (fun s a => s.keepsTo fileNaming a = true)
      (server.run .initial twoRecordings) := GuardedSystem.Reach.init.run twoRecordings_legal
  obtain ⟨artifacts, hget, hsome, hall⟩ := collectArtifacts_run 5 none none run
    (FileTree.ofCalls_holds calls (fun _ => 0) fun _ => 5) (p := "alice")
    List.mem_cons_self (by decide)
  have hrecorded : ∃ call ∈ calls, call.phoneId = "alice" ∧ call.wavs ≠ [] := by
    decide
  have hdescribed : ∀ call ∈ calls, call.phoneId = "alice" → ∀ w ∈ call.wavs,
      Described calls w := by
    decide
  obtain ⟨call, hcall, hphone, hne⟩ := hrecorded
  obtain ⟨w, hw⟩ := List.exists_mem_of_ne_nil _ hne
  have hrecent : Recent tree 5 calls "alice" := ⟨call, hcall, hphone, w, hw, le_refl _⟩
  obtain ⟨a, rfl⟩ := Option.isSome_iff_exists.mp (hsome.mpr (.inl hrecent))
  obtain ⟨-, hrecording, hpaths⟩ := hall a rfl
  obtain ⟨path, hpath⟩ := Option.isSome_iff_exists.mp (hrecording.mpr hrecent)
  obtain ⟨call', hcall', hphone', w', hw', -, rfl, hmeta⟩ := hpaths path hpath
  refine ⟨a, _, hget, hpath, ?_, call', hcall', hphone', w', hw', ?_⟩
  · rw [hmeta, if_pos (hdescribed call' hcall' hphone' w' hw')]
    rfl
  · obtain ⟨n, timestamp, h⟩ := isRecording_of_named (calls_named run call' hcall') hw'
    exact h.str_path

/-! ## Captures and the calls recorded beside them -/

/-- What a sidecar says about the capture of its call. -/
def captureData (m : Calls.Sidecar) : Rtp.Sidecar :=
  ⟨m.pcap.map String.toList, m.localRtpPort, some m.callId⟩

/-- The directories of recordings hold the sidecars of these calls, all of them readable. -/
def HoldsSidecars (disk : Rtp.Disk) (calls : List SipCall) : Prop :=
  ∀ p data, some data ∈ disk.recordings p ↔
    ∃ call ∈ calls, ∃ m ∈ call.sidecars,
      (metaPath (.ofText m.recording.toList)).parent = recordingsRoot.joinpath p.toList ∧
        data = captureData m

/-- The sidecar was written for a recording of the call, and it names the capture. -/
def NamesCapture (target : Text) (call : SipCall) (m : Calls.Sidecar) : Prop :=
  m ∈ call.sidecars ∧ m.pcap.map String.toList = some target

/-- The directory of a capture is that of its phone. -/
theorem phone_of_captureFile {p q : PhoneId} (hp : isPhoneId p.toList = true)
    (hq : isPhoneId q.toList = true) {c : Option CallId} {stamp : String} {name : Text}
    (h : (Sys.captureFile q c stamp).toList = Rtp.pathUnder Rtp.capturesRoot p name) : q = p := by
  have hfile : ∃ rest, (Sys.captureFile q c stamp).toList =
      "/captures/".toList ++ (q.toList ++ '/' :: rest) := by
    cases c with
    | none =>
        refine ⟨("capture_" ++ stamp ++ ".pcap").toList, ?_⟩
        have hslash : "/capture_".toList = '/' :: "capture_".toList := by decide
        simp only [Sys.captureFile, String.toList_append, hslash, List.append_assoc,
          List.cons_append]
    | some c =>
        refine ⟨("call_" ++ toString c ++ "_" ++ stamp ++ ".pcap").toList, ?_⟩
        have hslash : "/call_".toList = '/' :: "call_".toList := by decide
        simp only [Sys.captureFile, String.toList_append, hslash, List.append_assoc,
          List.cons_append]
  obtain ⟨rest, hrest⟩ := hfile
  have htarget : Rtp.pathUnder Rtp.capturesRoot p name =
      "/captures/".toList ++ (p.toList ++ '/' :: name) := by
    have hroot : "/captures/".toList = Rtp.capturesRoot ++ ['/'] := by decide
    simp only [Rtp.pathUnder, hroot, List.append_assoc, List.cons_append, List.nil_append]
  rw [hrest, htarget] at h
  have hsame := List.append_cancel_left h
  have htake : ∀ {r : PhoneId} (tail : Text), isPhoneId r.toList = true →
      (r.toList ++ '/' :: tail).takeWhile (· ≠ '/') = r.toList := by
    intro r tail hr
    rw [List.takeWhile_append_of_pos, List.takeWhile_cons_of_neg, List.append_nil]
    · decide
    · intro ch hch
      exact decide_eq_true (ne_of_mem_of_not_mem hch (isPart_of_isPhoneId hr).no_slash)
  apply String.toList_inj.mp
  rw [← htake rest hq, hsame, htake name hp]

theorem analyzePcap_phoneRtpPort {dpkt : Rtp.Dpkt} {upper : Text → Text} {path : Text}
    {file : Rtp.PcapFile} {port : Option Int} {expected : Option (List Text)} {report : Rtp.Report}
    (h : Rtp.analyzePcap dpkt upper path file port expected = .ok report) :
    report.phoneRtpPort = port := by
  unfold Rtp.analyzePcap at h
  cases file with
  | missing | cannotRead | unreadable =>
      cases h
      rfl
  | capture linktype bufs failure =>
      dsimp only at h
      split_ifs at h
      · cases h
        rfl
      · cases failure with
        | some reason =>
            cases reason with
            | osError reason =>
                cases h
                rfl
            | needData reason => cases h
        | none =>
            cases port with
            | none =>
                cases h
                rfl
            | some port =>
                cases h
                rfl

/-- The tool fails on no other capture than one of a known link type that ends inside the header
of a packet. -/
theorem analyzePcap_error {dpkt : Rtp.Dpkt} {upper : Text → Text} {path : Text}
    {file : Rtp.PcapFile} {port : Option Int} {expected : Option (List Text)} {reason : Text}
    (h : Rtp.analyzePcap dpkt upper path file port expected = .error reason) :
    ∃ linktype bufs, file = .capture linktype bufs (some (.needData reason)) := by
  unfold Rtp.analyzePcap at h
  cases file with
  | missing | cannotRead | unreadable => cases h
  | capture linktype bufs failure =>
      dsimp only at h
      split_ifs at h
      cases failure with
      | some failure =>
          cases failure with
          | osError reason => cases h
          | needData reason =>
              cases h
              exact ⟨linktype, bufs, rfl⟩
      | none =>
          cases port with
          | none => cases h
          | some port => cases h

section Lookup

variable {disk : Rtp.Disk} {calls : List SipCall} (holds : HoldsSidecars disk calls)
  (named : ∀ call ∈ calls, call.Named fileNaming)

include holds named

/-- Only the directory of the phone is searched, and nothing is missed. -/
theorem lookupMetaForPcap_cases {p : PhoneId} (valid : isPhoneId p.toList = true) (name : Text) :
    (Rtp.lookupMetaForPcap disk p (Rtp.pathUnder Rtp.capturesRoot p name) = none ∧
      ∀ call ∈ calls, ∀ m,
        ¬NamesCapture (Rtp.pathUnder Rtp.capturesRoot p name) call m) ∨
      ∃ call ∈ calls, call.phoneId = p ∧ ∃ m,
        NamesCapture (Rtp.pathUnder Rtp.capturesRoot p name) call m ∧
          Rtp.lookupMetaForPcap disk p (Rtp.pathUnder Rtp.capturesRoot p name) =
            some (captureData m) := by
  cases hfound : Rtp.lookupMetaForPcap disk p (Rtp.pathUnder Rtp.capturesRoot p name) with
  | none =>
      left
      refine ⟨rfl, ?_⟩
      rintro call hcall m ⟨hm, hpcap⟩
      obtain ⟨file, hfile, htarget⟩ := Option.map_eq_some_iff.mp hpcap
      obtain ⟨c, stamp, -, rfl⟩ := (named call hcall).pcaps m hm file hfile
      have hphone := phone_of_captureFile valid (named call hcall).phone htarget
      obtain ⟨n, timestamp, h⟩ := isRecording_of_named (named call hcall)
        ((named call hcall).recordings m hm)
      have hdata : some (captureData m) ∈ disk.recordings p := by
        apply (holds p _).mpr
        refine ⟨call, hcall, m, hm, ?_, rfl⟩
        rw [h.metaPath_eq, PosixPath.parent_joinpath _ h.isPart_meta, hphone]
      have hnone := List.find?_eq_none.mp hfound (captureData m)
        (List.mem_filterMap.mpr ⟨_, hdata, rfl⟩)
      exact hnone (decide_eq_true hpcap)
  | some data =>
      right
      rw [Rtp.lookupMetaForPcap] at hfound
      have hmem := List.mem_of_find?_eq_some hfound
      have hmatch := List.find?_some hfound
      have hpcap := of_decide_eq_true hmatch
      obtain ⟨_, hdata, rfl⟩ := List.mem_filterMap.mp hmem
      obtain ⟨call, hcall, m, hm, hdir, rfl⟩ := (holds p data).mp hdata
      obtain ⟨n, timestamp, h⟩ := isRecording_of_named (named call hcall)
        ((named call hcall).recordings m hm)
      rw [h.metaPath_eq, PosixPath.parent_joinpath _ h.isPart_meta] at hdir
      have hname := congrArg PosixPath.name hdir
      rw [PosixPath.name_joinpath _ (isPart_of_isPhoneId h.phone),
        PosixPath.name_joinpath _ (isPart_of_isPhoneId valid)] at hname
      exact ⟨call, hcall, String.toList_inj.mp hname, m, ⟨hm, hpcap⟩, rfl⟩

end Lookup

/-- `analyze_capture` on a capture of a phone, over the sidecars that any run of the server has
left. Unless the capture ends inside the header of a packet, which the tool answers with an error,
either no sidecar of any phone names this capture, and the report knows no port; or it has the
port, and where none was asked for the id, of a call of this phone with such a sidecar. -/
theorem analyzeCapture_run (dpkt : Rtp.Dpkt) (upper : Text → Text) (hostRoot : Option Text)
    {s : Sys} (run : server.Reach (fun s a => s.keepsTo fileNaming a = true) s)
    {disk : Rtp.Disk} (holds : HoldsSidecars disk s.objs) {p : PhoneId}
    (valid : isPhoneId p.toList = true) {callId : Option CallId} {name : Text}
    (found : Rtp.resolvePcap disk p callId = some name) :
    (∃ linktype bufs reason,
      disk.file (Rtp.pathUnder Rtp.capturesRoot p name) =
        .capture linktype bufs (some (.needData reason)) ∧
      Rtp.analyzeCapture dpkt upper s.phones disk hostRoot p callId = .failed p reason) ∨
    ∃ owner report,
      Rtp.analyzeCapture dpkt upper s.phones disk hostRoot p callId =
        .analyzed p owner (Rtp.pathUnder (hostRoot.getD Rtp.capturesRoot) p name) report ∧
      ((report.phoneRtpPort = none ∧ owner = callId ∧
          ∀ call ∈ s.objs, ∀ m,
            ¬NamesCapture (Rtp.pathUnder Rtp.capturesRoot p name) call m) ∨
        ∃ call ∈ s.objs, call.phoneId = p ∧ ∃ m,
          NamesCapture (Rtp.pathUnder Rtp.capturesRoot p name) call m ∧
            report.phoneRtpPort = m.localRtpPort ∧ owner = callId.or (some call.callId)) := by
  have named := calls_named run
  simp only [Rtp.analyzeCapture, found]
  split
  · next reason hraised =>
      obtain ⟨linktype, bufs, hfile⟩ := analyzePcap_error hraised
      exact .inl ⟨linktype, bufs, reason, hfile, rfl⟩
  · next report hreport =>
      refine .inr ⟨_, report, rfl, ?_⟩
      rw [analyzePcap_phoneRtpPort hreport]
      rcases lookupMetaForPcap_cases holds named valid name with
        ⟨hnone, hnever⟩ | ⟨call, hcall, hphone, m, hnames, hsome⟩
      · left
        rw [hnone]
        exact ⟨rfl, Option.or_none, hnever⟩
      · right
        refine ⟨call, hcall, hphone, m, hnames, ?_, ?_⟩
        · rw [hsome]
          rfl
        · have hid := ((named call hcall).owner m hnames.1).2
          rw [hsome, ← hid]
          rfl

/-- The directories with the sidecars of these calls, and one capture of Alice. -/
def diskOfCalls (calls : List SipCall) (name : Text) : Rtp.Disk where
  captures p := if p = "alice" then some [⟨name, 0⟩] else none
  recordings p :=
    ((calls.flatMap SipCall.sidecars).filter fun m =>
      (metaPath (.ofText m.recording.toList)).parent = recordingsRoot.joinpath p.toList).map
        fun m => some (captureData m)
  file _ := .capture 113 [] none

theorem diskOfCalls_holds (calls : List SipCall) (name : Text) :
    HoldsSidecars (diskOfCalls calls name) calls := by
  intro p data
  simp only [diskOfCalls, List.mem_map, List.mem_filter, List.mem_flatMap, Option.some.injEq,
    decide_eq_true_eq]
  constructor
  · rintro ⟨m, ⟨⟨call, hcall, hm⟩, hdir⟩, rfl⟩
    exact ⟨call, hcall, m, hm, hdir, rfl⟩
  · rintro ⟨call, hcall, m, hm, hdir, rfl⟩
    exact ⟨m, ⟨⟨call, hcall, hm⟩, hdir⟩, rfl⟩

/-- A call of Alice that is recorded and captured. -/
def capturedCall : List Calls.Action :=
  [.addPhone "alice" { domain := "example.org", recordingEnabled := true, captureEnabled := true }
      ⟨some 1, true⟩,
   .incomingCall "alice" 0 none, .mediaState 0 [stampedMedia "20260101_120000_000001"],
   .processAutoCaptures, .resumeAutoCaptures "20260101_120000_000002",
   .callState 0 (.plain 0 .disconnected "a") ⟨true, "end", some (some 4000, none)⟩ "t"]

theorem capturedCall_legal :
    server.Legal (fun s a => s.keepsTo fileNaming a = true) .initial capturedCall := by
  decide

theorem analyzeCapture_capturedCall :
    let s := server.run .initial capturedCall
    let name := "call_0_20260101_120000_000002.pcap".toList
    ∃ owner report,
      Rtp.analyzeCapture Rtp.plainDpkt id s.phones (diskOfCalls s.objs name) none "alice" none =
        .analyzed "alice" owner "/captures/alice/call_0_20260101_120000_000002.pcap".toList
          report ∧
      report.phoneRtpPort = some 4000 ∧ owner = some 0 := by
  intro s name
  have run : server.Reach (fun s a => s.keepsTo fileNaming a = true) s :=
    GuardedSystem.Reach.init.run capturedCall_legal
  have hfound : Rtp.resolvePcap (diskOfCalls s.objs name) "alice" none = some name := by decide
  obtain ⟨_, _, _, hcut, -⟩ | ⟨owner, report, hanswer, hport⟩ :=
    analyzeCapture_run Rtp.plainDpkt id none run (diskOfCalls_holds s.objs name) (by decide) hfound
  · cases hcut
  have hnames : ∃ call ∈ s.objs, ∃ m ∈ call.sidecars,
      m.pcap.map String.toList = some (Rtp.pathUnder Rtp.capturesRoot "alice" name) := by
    decide
  have hall : ∀ call ∈ s.objs, call.callId = 0 ∧
      ∀ m ∈ call.sidecars, m.localRtpPort = some 4000 := by
    decide
  obtain ⟨call, hcall, m, hm, hpcap⟩ := hnames
  refine ⟨owner, report, hanswer, ?_⟩
  rcases hport with ⟨-, -, hnever⟩ | ⟨call', hcall', -, m', hnames', hsame, howner⟩
  · exact absurd ⟨hm, hpcap⟩ (hnever call hcall m)
  · rw [hsame, howner, (hall call' hcall').1]
    exact ⟨(hall call' hcall').2 m' hnames'.1, rfl⟩

end PjsuaMcp.Server
