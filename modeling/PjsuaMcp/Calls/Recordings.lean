import PjsuaMcp.Calls.Lifecycle

/-!
# Recording segments and their sidecars

A recorder opens a WAV, and stopping it writes the sidecar of that WAV. `Filed`
holds of a call whose WAVs all have a sidecar, except the one being recorded.
Calls leave `_calls` by their end, with their phone, and at cleanup, and only
the first of these stops the recorder: `recordingOk` names the steps after
which no WAV is left without its sidecar.
-/

namespace PjsuaMcp.Calls

open Library

namespace SipCall

/-- No recorder is open and every WAV of the call has a sidecar. -/
def SegmentsClosed (call : SipCall) : Prop :=
  call.recorder = none ∧ ∀ w ∈ call.wavs, ∃ m ∈ call.sidecars, m.recording = w

/-- The file of the open recorder is the one in the call info, and every other WAV of the
call has a sidecar. -/
structure Filed (call : SipCall) : Prop where
  file_eq : call.recordingFile = call.recorder
  wavs : ∀ w ∈ call.wavs, (∃ m ∈ call.sidecars, m.recording = w) ∨ call.recorder = some w

/-- The part of a call that `Filed` is about. -/
def segments (call : SipCall) : Option String × Option String × List String × List Sidecar :=
  (call.recorder, call.recordingFile, call.wavs, call.sidecars)

/-- `Filed` depends on the segments only. -/
theorem Filed.of_segments_eq {call call' : SipCall} (h : call.Filed)
    (heq : call'.segments = call.segments) : call'.Filed := by
  simp only [segments, Prod.mk.injEq] at heq
  obtain ⟨hrecorder, hfile, hwavs, hsidecars⟩ := heq
  constructor
  · rw [hfile, hrecorder]
    exact h.file_eq
  · rw [hwavs, hsidecars, hrecorder]
    exact h.wavs

/-- Without an open recorder, every segment is closed. -/
theorem Filed.segmentsClosed {call : SipCall} (h : call.Filed) (hnone : call.recorder = none) :
    call.SegmentsClosed := by
  refine ⟨hnone, fun w hw => (h.wavs w hw).resolve_right ?_⟩
  rw [hnone]
  exact (Option.some_ne_none w).symm

theorem filed_new (identity : CallIdentity) (recordingEnabled : Bool)
    (codecs : Option (List String)) (inv : InvState) :
    (new identity recordingEnabled codecs inv).Filed := ⟨rfl, by simp [new]⟩

/-! ## Starting and stopping -/

/-- Opening a recorder opens a segment. -/
theorem Filed.startRecording {call : SipCall} (h : call.Filed) (audMed : Bool)
    (env : RecorderEnv) : (call.startRecording audMed env).Filed := by
  unfold SipCall.startRecording
  split_ifs with _ hopen
  · exact h
  · exact h
  · exact h.of_segments_eq rfl
  · exact h
  · exact h
  · refine ⟨rfl, fun w hw => ?_⟩
    rcases List.mem_append.mp hw with hold | hnew
    · left
      refine (h.wavs w hold).resolve_right fun hw => hopen ?_
      rw [hw]
      rfl
    · right
      rw [List.mem_singleton.mp hnew]

theorem Filed.reconnectRecorder {call : SipCall} (h : call.Filed) (env : RecorderEnv) :
    (call.reconnectRecorder env).Filed := by
  unfold SipCall.reconnectRecorder
  split_ifs
  · exact h
  · exact h.startRecording true env
  · exact h

@[simp] theorem snapshotRtpPorts_segments (call : SipCall) (ports : TransportPorts) :
    (call.snapshotRtpPorts ports).segments = call.segments := by
  unfold snapshotRtpPorts
  split <;> rfl

theorem stopRecording_of_none {call : SipCall} (h : call.recorder = none) (pcap : Option String)
    (env : SidecarEnv) : call.stopRecording pcap env = { call with pendingStart := false } := by
  rw [SipCall.stopRecording, if_pos (by rw [h]; rfl)]

/-- Stopping closes the open segment, provided that its sidecar can be written. -/
theorem Filed.stopRecording {call : SipCall} (h : call.Filed) (pcap : Option String)
    {env : SidecarEnv} (hwritten : call.recorder.isSome = true → env.written = true) :
    (call.stopRecording pcap env).SegmentsClosed := by
  cases hrecorder : call.recorder with
  | none =>
      rw [stopRecording_of_none hrecorder]
      have hsame : ({ call with pendingStart := false } : SipCall).Filed := h.of_segments_eq rfl
      exact hsame.segmentsClosed hrecorder
  | some path =>
      have hfile : call.recordingFile = some path := h.file_eq.trans hrecorder
      have hsame := call.snapshotRtpPorts_segments env.ports
      simp only [segments, Prod.mk.injEq] at hsame
      unfold SipCall.stopRecording
      simp only [hrecorder, Option.isNone_some, Bool.false_eq_true, if_false, writeMetaSidecar,
        hfile, hwritten (by rw [hrecorder]; rfl), if_true]
      refine ⟨rfl, fun w hw => ?_⟩
      rw [hsame.2.2.1] at hw
      simp only [hsame.2.2.2, List.mem_append, List.mem_singleton]
      rcases h.wavs w hw with ⟨m, hm, hmw⟩ | hopen
      · exact ⟨m, .inl hm, hmw⟩
      · refine ⟨_, .inr rfl, ?_⟩
        rw [hrecorder] at hopen
        exact Option.some.inj hopen

/-- Closed segments need no open recorder. -/
theorem SegmentsClosed.filed {call : SipCall} (h : call.SegmentsClosed)
    (hfile : call.recordingFile = none) : call.Filed :=
  ⟨hfile.trans h.1.symm, fun w hw => .inl (h.2 w hw)⟩

/-- The end of a recording forgets its file. -/
theorem Filed.stopRecording_file {call : SipCall} (h : call.Filed) (pcap : Option String)
    (env : SidecarEnv) : (call.stopRecording pcap env).recordingFile = none := by
  cases hrecorder : call.recorder with
  | none =>
      rw [stopRecording_of_none hrecorder]
      exact h.file_eq.trans hrecorder
  | some path => rw [SipCall.stopRecording, if_neg (by rw [hrecorder]; simp)]

/-- Switching recording closes a segment, if its sidecar can be written. -/
theorem Filed.toggleRecording {call : SipCall} (h : call.Filed) (enabled : Bool)
    (pcap : Option String) (rec : RecorderEnv) {env : SidecarEnv}
    (hwritten : enabled = false → call.recorder.isSome = true → env.written = true) :
    (call.toggleRecording enabled pcap rec env).Filed := by
  have hflag : ({ call with recordingEnabled := enabled } : SipCall).Filed := h.of_segments_eq rfl
  unfold SipCall.toggleRecording
  cases enabled with
  | true =>
      rw [if_pos rfl]
      split_ifs
      · exact hflag.startRecording true rec
      · exact h.of_segments_eq rfl
  | false =>
      exact (hflag.stopRecording pcap (hwritten rfl)).filed (hflag.stopRecording_file pcap env)

/-! ## Callbacks -/

@[simp] theorem stopPlayer_segments (call : SipCall) :
    call.stopPlayer.segments = call.segments := by
  unfold stopPlayer
  split_ifs <;> rfl

@[simp] theorem startDefaultMoh_segments (call : SipCall) (m : MediaStatus) :
    (call.startDefaultMoh m).1.segments = call.segments := by
  unfold startDefaultMoh
  split_ifs
  · rfl
  · exact stopPlayer_segments call
  · exact stopPlayer_segments call

@[simp] theorem ensurePlayer_segments (call : SipCall) (m : MediaStatus) :
    (call.ensurePlayer m).1.segments = call.segments := by
  unfold ensurePlayer
  split_ifs
  · rfl
  · exact startDefaultMoh_segments call m

@[simp] theorem cacheCodec_segments (call : SipCall) (codecName : Option String) :
    (call.cacheCodec codecName).segments = call.segments := by
  unfold cacheCodec
  split <;> rfl

theorem Filed.onAudioActive {call : SipCall} (h : call.Filed) (m : MediaStatus) :
    (call.onAudioActive m).1.Filed := by
  have hplayed : (call.markAudioActive.ensurePlayer m).1.Filed :=
    h.of_segments_eq (ensurePlayer_segments call.markAudioActive m)
  unfold SipCall.onAudioActive
  dsimp only
  split_ifs
  · exact hplayed
  · refine (hplayed.reconnectRecorder m.recorder).of_segments_eq ?_
    rw [snapshotRtpPorts_segments, cacheCodec_segments]

/-- A media callback opens a segment at most. -/
theorem Filed.onCallMediaState {call : SipCall} (h : call.Filed) (media : List MediaStatus) :
    (call.onCallMediaState media).Filed := by
  induction media generalizing call with
  | nil => exact h
  | cons m rest ih =>
      simp only [SipCall.onCallMediaState]
      split_ifs
      · exact h.onAudioActive m
      · exact ih (h.onAudioActive m)
      · exact ih h

end SipCall

namespace Sys

/-- Every tracked call is filed. -/
def AllFiled (s : Sys) : Prop := ∀ c o call, s.calls.get? c = some o → s.objs[o]? = some call →
  call.Filed

/-- The calls that leave `_calls` between two states have their segments closed. -/
def LeavesClosed (s s' : Sys) : Prop := ∀ o, s.Tracks o → ¬ s'.Tracks o →
  ∃ call, s'.objs[o]? = some call ∧ call.SegmentsClosed

/-- None of the objects has an open recorder. -/
def noneOpen (s : Sys) (os : List ObjId) : Bool :=
  os.all fun o => s.objs[o]?.all fun call => call.recorder.isNone

/-- A sidecar that is due can be written, and calls are untracked without having ended only
while they are not being recorded. -/
def recordingOk (s : Sys) : Action → Bool
  | .callState o ci env _ => s.objs[o]?.all fun call =>
      ci.state ≠ .disconnected || s.calls.get? call.callId ≠ some o ||
        call.recorder.isNone || env.written
  | .setRecordingEnabled p false _ env => !s.phones.contains p ||
      (s.callsOf p).all fun o => s.objs[o]?.all fun call =>
        call.recorder.isNone || (env o).written
  | .dropPhone p => !s.phones.contains p || s.noneOpen (s.callsOf p)
  | .addPhone p _ _ => !s.phones.contains p || s.noneOpen (s.callsOf p)
  | .reregisterPhone p _ _ => !s.phones.contains p || s.noneOpen (s.callsOf p)
  | .cleanup => s.noneOpen (s.calls.entries.map Prod.snd)
  | _ => true

/-! ## Steps that untrack nothing -/

/-- No call leaves the table. -/
theorem leavesClosed_of_calls {s s' : Sys}
    (hcalls : ∀ c o, s.calls.get? c = some o → s'.calls.get? c = some o) : s.LeavesClosed s' :=
  fun _ ⟨c, hc⟩ hgone => absurd ⟨c, hcalls c _ hc⟩ hgone

/-- A step that touches neither the table nor any segment. -/
theorem allFiled_of_segments {s s' : Sys} (h : s.AllFiled) (hcalls : s'.calls = s.calls)
    (hsegments : s'.objs.map SipCall.segments = s.objs.map SipCall.segments) : s'.AllFiled := by
  intro c o call' hc ho
  rw [hcalls] at hc
  have heq : (s'.objs.map SipCall.segments)[o]? = some call'.segments := by
    rw [List.getElem?_map, ho]
    rfl
  rw [hsegments, List.getElem?_map, Option.map_eq_some_iff] at heq
  obtain ⟨call, hcall, hsame⟩ := heq
  exact (h c o call hc hcall).of_segments_eq hsame.symm

theorem map_segments_of_map_core {calls calls' : List SipCall}
    (h : calls'.map SipCall.core = calls.map SipCall.core) :
    calls'.map SipCall.segments = calls.map SipCall.segments :=
  calc calls'.map SipCall.segments
    _ = (calls'.map SipCall.core).map SipCall.segments := by rw [List.map_map]; rfl
    _ = (calls.map SipCall.core).map SipCall.segments := by rw [h]
    _ = calls.map SipCall.segments := by rw [List.map_map]; rfl

/-- Updating one object by a filed one. -/
theorem allFiled_set {s s' : Sys} (h : s.AllFiled) {o : ObjId} {call : SipCall}
    (hcalls : ∀ c i, s'.calls.get? c = some i → s.calls.get? c = some i)
    (hobjs : s'.objs = s.objs.set o call)
    (hfiled : ∀ c, s'.calls.get? c = some o → call.Filed) : s'.AllFiled := by
  intro c i call' hc hi
  rw [hobjs] at hi
  obtain ⟨rfl, rfl⟩ | ⟨-, hold⟩ := cell_of_set hi
  · exact hfiled c hc
  · exact h c i call' (hcalls c i hc) hold

theorem newCall_filed {s : Sys} {a : Action} {call : SipCall} (h : s.newCall a = some call) :
    call.Filed := by
  cases a with
  | makeCall phone destUri placed =>
      cases placed with
      | none => cases h
      | some ci =>
          simp only [newCall] at h
          split at h
          · cases h
          · obtain ⟨cfg, -, rfl⟩ := Option.map_eq_some_iff.mp h
            exact SipCall.filed_new _ _ _ _
  | incomingCall p c ci =>
      obtain ⟨cfg, -, rfl⟩ := Option.map_eq_some_iff.mp h
      exact SipCall.filed_new _ _ _ _
  | _ => cases h

/-- A call that is created leaves the others where they are. -/
theorem recording_newCall {s : Sys} {a : Action} (en : s.enabled a = true) (hs : s.table.Sound)
    (h : s.AllFiled) (ha : a.creates = true) :
    (s.step a).AllFiled ∧ s.LeavesClosed (s.step a) := by
  rcases s.step_newCall a ha with ⟨-, hsame⟩ | ⟨call, _, _, _, hcall, hstep⟩
  · rw [hsame]
    exact ⟨h, leavesClosed_of_calls fun _ _ hc => hc⟩
  · have hnone := get?_eq_none_of_idFree hs (newCall_spec hcall en).1
    constructor
    · intro c o other hc ho
      rcases (tracked_newCall en hs hcall ha c other).mp ⟨o, hc, ho⟩ with
        ⟨-, rfl⟩ | ⟨-, i, hi, hother⟩
      · exact newCall_filed hcall
      · exact h c i other hi hother
    · refine leavesClosed_of_calls fun c o hc => ?_
      have hcalls : (s.step a).calls = s.calls.set call.callId s.objs.length := by rw [hstep]; rfl
      have hne : call.callId ≠ c := by
        rintro rfl
        rw [hnone] at hc
        cases hc
      rw [hcalls, OrderedDict.get?_set_of_ne _ hne, hc]

/-! ## The end of a call -/

/-- A call that ends closes its segment before it leaves the table. -/
theorem recording_ended {s : Sys} (hs : s.table.Sound) (h : s.AllFiled) {o : ObjId}
    {call : SipCall} {ci : CallInfo} {env : SidecarEnv} (timestamp : String)
    (ho : s.objs[o]? = some call) (hstate : ci.state = .disconnected)
    (hwritten : s.calls.get? call.callId = some o → call.recorder.isSome = true →
      env.written = true) :
    (s.onCallState o ci env timestamp).AllFiled ∧
      s.LeavesClosed (s.onCallState o ci env timestamp) := by
  obtain ⟨f, ends⟩ := onCallState_untracks hs ho hstate env timestamp
  have hget : ∀ c, (s.onCallState o ci env timestamp).calls.get? c =
      if f c = true then s.calls.get? c else none := by
    intro c
    rw [ends.calls, OrderedDict.get?_filterKeys]
  constructor
  · refine allFiled_set h ?_ ends.objs ?_
    · intro c i hc
      rw [hget] at hc
      split_ifs at hc
      exact hc
    · intro c hc
      rw [hget] at hc
      split_ifs at hc with hkeep
      exact absurd hc ((ends.keeps c).mp hkeep)
  · rintro i ⟨c, hc⟩ hgone
    -- the only id that is removed is that of `o`
    have hio : i = o := by
      by_contra hne
      have hkeep : f c = true := (ends.keeps c).mpr fun ho' => hne (Option.some.inj (hc ▸ ho'))
      exact hgone ⟨c, by rw [hget, if_pos hkeep, hc]⟩
    subst hio
    have hcall := hs.key_eq hc (table_heap_of_some ho)
    have hfiled : (call.updateInfo ci).Filed := (h c i call hc ho).of_segments_eq rfl
    refine ⟨s.endedCall call ci env, ?_, ?_⟩
    · rw [ends.objs]
      exact List.getElem?_set_self (List.getElem?_eq_some_iff.mp ho).1
    · have hstopped := hfiled.stopRecording (s.currentPcapPathFor call.phoneId)
        (hwritten (hcall ▸ hc))
      have hsame := ((call.updateInfo ci).stopRecording (s.currentPcapPathFor call.phoneId)
        env).stopPlayer_segments
      simp only [SipCall.segments, Prod.mk.injEq] at hsame
      rw [SipCall.SegmentsClosed, endedCall, hsame.1, hsame.2.2.1, hsame.2.2.2]
      exact hstopped

/-! ## Untracking without an end -/

/-- A phone that is dropped leaves no segment open, if none of its calls is recorded. -/
theorem recording_dropPhone {s : Sys} (h : s.AllFiled) (hs : s.table.Sound) (p : PhoneId)
    (hok : (!s.phones.contains p || s.noneOpen (s.callsOf p)) = true) :
    (s.dropPhone p).AllFiled ∧ s.LeavesClosed (s.dropPhone p) := by
  cases hp : s.phones.get? p with
  | none =>
      rw [dropPhone_of_unknown hp]
      exact ⟨h, leavesClosed_of_calls fun _ _ hc => hc⟩
  | some cfg =>
      have hopen : s.noneOpen (s.callsOf p) = true := by
        simpa [OrderedDict.contains, hp] using hok
      obtain ⟨transports, hdrop⟩ := dropPhone_eq hp
      have hcalls : (s.dropPhone p).calls = s.calls.filterKeys fun c => c ∉ s.idsOf p := by
        rw [hdrop]
        rfl
      have hobjs : (s.dropPhone p).objs = s.objs := by
        rw [hdrop]
        rfl
      constructor
      · intro c o call hc ho
        rw [hcalls, OrderedDict.get?_filterKeys] at hc
        rw [hobjs] at ho
        split_ifs at hc
        exact h c o call hc ho
      · rintro o ⟨c, hc⟩ hgone
        have hid : s.callPhone.get? c = some p := by
          by_contra hne
          refine hgone ⟨c, ?_⟩
          rw [hcalls, OrderedDict.get?_filterKeys, if_pos, hc]
          exact decide_eq_true fun hmem => hne ((s.mem_idsOf_iff p c).mp hmem)
        obtain ⟨k, hk, -⟩ := hs.entry hc
        rw [table_heap, Option.map_eq_some_iff] at hk
        obtain ⟨call, ho, -⟩ := hk
        have hnone := List.all_eq_true.mp hopen o ((s.mem_callsOf_iff p o).mpr ⟨c, hc, hid⟩)
        rw [ho, Option.all_some, Option.isNone_iff_eq_none] at hnone
        exact ⟨call, by rw [hobjs, ho], (h c o call hc ho).segmentsClosed hnone⟩

theorem recording_addPhone {s : Sys} (h : s.AllFiled) (hs : s.table.Sound) (p : PhoneId)
    (cfg : PhoneConfig) (out : AddOutcome)
    (hok : (!s.phones.contains p || s.noneOpen (s.callsOf p)) = true) :
    (s.addPhone p cfg out).AllFiled ∧ s.LeavesClosed (s.addPhone p cfg out) := by
  obtain ⟨hfiled, hleaves⟩ := recording_dropPhone h hs p hok
  obtain ⟨_, _, _, _, heq⟩ := (s.dropPhone p).createPhone_eq p cfg out
  rw [addPhone, heq]
  exact ⟨hfiled, hleaves⟩

/-- Shutting down leaves no segment open, if no call is recorded. -/
theorem recording_cleanup {s : Sys} (h : s.AllFiled) (hs : s.table.Sound)
    (hok : s.recordingOk .cleanup = true) : s.cleanup.AllFiled ∧ s.LeavesClosed s.cleanup := by
  constructor
  · intro c o call hc
    cases hc
  · rintro o ⟨c, hc⟩ -
    obtain ⟨k, hk, -⟩ := hs.entry hc
    rw [table_heap, Option.map_eq_some_iff] at hk
    obtain ⟨call, ho, -⟩ := hk
    have hmem : o ∈ s.calls.entries.map Prod.snd :=
      List.mem_map_of_mem ((s.calls.get?_eq_some_iff c o).mp hc)
    have hnone := List.all_eq_true.mp hok o hmem
    rw [ho, Option.all_some, Option.isNone_iff_eq_none] at hnone
    exact ⟨call, ho, (h c o call hc ho).segmentsClosed hnone⟩

/-! ## One step -/

/-- Switching recording takes no call out of the table. -/
theorem recording_toggle {s : Sys} (h : s.AllFiled) (p : PhoneId) (enabled : Bool)
    (rec : ObjId → RecorderEnv) (env : ObjId → SidecarEnv)
    (hok : s.recordingOk (.setRecordingEnabled p enabled rec env) = true) :
    (s.setRecordingEnabled p enabled rec env).AllFiled ∧
      s.LeavesClosed (s.setRecordingEnabled p enabled rec env) := by
  unfold setRecordingEnabled
  cases hp : s.phones.get? p with
  | none => exact ⟨h, leavesClosed_of_calls fun _ _ hc => hc⟩
  | some cfg =>
      refine ⟨?_, leavesClosed_of_calls fun _ _ hc => hc⟩
      intro c o call' hc ho
      simp only [mapObjs, List.getElem?_mapIdx, Option.map_eq_some_iff] at ho
      obtain ⟨call, hcall, rfl⟩ := ho
      split_ifs with hmem
      · refine (h c o call hc hcall).toggleRecording enabled _ _ ?_
        rintro rfl hopen
        simp only [recordingOk, OrderedDict.contains, hp, Option.isSome_some, Bool.not_true,
          Bool.false_or, List.all_eq_true] at hok
        have hwritten := hok o hmem
        rw [hcall, Option.all_some, Bool.or_eq_true] at hwritten
        refine hwritten.resolve_left fun hnone => ?_
        rw [Option.isNone_iff_eq_none.mp hnone] at hopen
        cases hopen
      · exact h c o call hc hcall

/-- New media close the running segment before they begin another. -/
theorem recording_media {s : Sys} (h : s.AllFiled) {o : ObjId} {call : SipCall}
    (ho : s.objs[o]? = some call) (media : List MediaStatus) :
    (s.onCallMediaState o media).AllFiled ∧ s.LeavesClosed (s.onCallMediaState o media) := by
  obtain ⟨_, _, heq⟩ := onCallMediaState_eq ho media
  rw [heq]
  refine ⟨allFiled_set h (fun _ _ hc => hc) rfl fun c hc => ?_,
    leavesClosed_of_calls fun _ _ hc => hc⟩
  exact (h c o call hc ho).onCallMediaState media

/-- An admitted step closes the segments of the calls that leave, and keeps the calls that
stay filed. -/
theorem recording_step {s : Sys} {a : Action} (en : s.enabled a = true) (hs : s.table.Sound)
    (hok : s.recordingOk a = true) (h : s.AllFiled) :
    (s.step a).AllFiled ∧ s.LeavesClosed (s.step a) := by
  have hcore : ∀ {s' t : Sys}, s' = t → t.calls = s.calls →
      t.objs.map SipCall.core = s.objs.map SipCall.core → s'.AllFiled ∧ s.LeavesClosed s' := by
    rintro s' t rfl hcalls hcores
    exact ⟨allFiled_of_segments h hcalls (map_segments_of_map_core hcores),
      leavesClosed_of_calls fun c o hc => by rw [hcalls, hc]⟩
  cases a with
  | makeCall phone destUri placed => exact recording_newCall en hs h rfl
  | incomingCall p c ci => exact recording_newCall en hs h rfl
  | callState o ci env timestamp =>
      obtain ⟨call, ho, -⟩ := exists_of_objActive en
      by_cases hstate : ci.state = .disconnected
      · refine recording_ended hs h timestamp ho hstate fun hc hopen => ?_
        rw [Option.isSome_iff_ne_none] at hopen
        simpa [recordingOk, ho, hstate, hc, hopen] using hok
      · change (s.onCallState o ci env timestamp).AllFiled ∧
          s.LeavesClosed (s.onCallState o ci env timestamp)
        rw [onCallState_refreshed ho hstate]
        refine ⟨allFiled_set h (fun _ _ hc => hc) rfl fun c hc => ?_,
          leavesClosed_of_calls fun _ _ hc => hc⟩
        exact (h c o call hc ho).of_segments_eq rfl
  | mediaState o media =>
      obtain ⟨call, ho, -⟩ := exists_of_objActive en
      exact recording_media h ho media
  | answerCall phone c code =>
      obtain ⟨_, _, _, heq, hcores⟩ := s.actOnIncoming_eq phone c (.answer code)
      exact hcore heq rfl hcores
  | rejectCall phone c code =>
      obtain ⟨_, _, _, heq, hcores⟩ := s.actOnIncoming_eq phone c (.hangup code)
      exact hcore heq rfl hcores
  | callOp op =>
      obtain ⟨_, _, heq, hcores⟩ := s.callOp_eq op
      exact hcore heq rfl hcores
  | autoAnswerNext =>
      obtain ⟨_, _, heq, hcores⟩ := s.autoAnswerNext_eq
      exact hcore heq rfl hcores
  | pollAutoAnswers => exact hcore rfl rfl rfl
  | processAutoCaptures =>
      obtain ⟨_, _, _, _, heq⟩ := s.drainStarts_eq s.autoCapturePendingStart
      exact hcore heq rfl rfl
  | resumeAutoCaptures stamp =>
      obtain ⟨_, _, _, _, heq⟩ := s.resumeAutoCaptures_eq stamp
      exact hcore heq rfl rfl
  | setCaptureEnabled p enabled =>
      obtain ⟨_, _, _, heq⟩ := s.setCaptureEnabled_eq p enabled
      exact hcore heq rfl rfl
  | setRecordingEnabled p enabled rec env => exact recording_toggle h p enabled rec env hok
  | setCodecsForPhone p codecs =>
      obtain ⟨_, _, _, heq, hcores⟩ := s.setCodecsForPhone_eq p codecs
      exact hcore heq rfl hcores
  | setAutoAnswer p enabled =>
      change (s.setAutoAnswer p enabled).AllFiled ∧ s.LeavesClosed (s.setAutoAnswer p enabled)
      unfold setAutoAnswer
      split
      · exact hcore rfl rfl rfl
      · exact hcore rfl rfl rfl
  | addPhone p cfg out => exact recording_addPhone h hs p cfg out hok
  | dropPhone p => exact recording_dropPhone h hs p hok
  | reregisterPhone p creds out =>
      change (s.reregisterPhone p creds out).AllFiled ∧ s.LeavesClosed (s.reregisterPhone p creds out)
      rcases s.reregisterPhone_cases p creds out with ⟨-, hsame⟩ | ⟨cfg, -, hadd⟩
      · rw [hsame]
        exact ⟨h, leavesClosed_of_calls fun _ _ hc => hc⟩
      · rw [hadd]
        exact recording_addPhone h hs p _ out hok
  | cleanup => exact recording_cleanup h hs hok

end Sys

/-! ## Runs -/

/-- Along a run of admitted steps, whenever an admitted step takes a call out of `_calls`, its
recorder is closed and every WAV it opened has a sidecar. -/
theorem segments_closed {s : Sys} (run : server.Reach (fun s a => s.recordingOk a = true) s)
    {a : Action} (en : s.enabled a = true) (hok : s.recordingOk a = true) {o : ObjId}
    (htracked : s.Tracks o) (hgone : ¬ (s.step a).Tracks o) :
    ∃ call, (s.step a).objs[o]? = some call ∧ call.recorder = none ∧
      ∀ w ∈ call.wavs, ∃ m ∈ call.sidecars, m.recording = w := by
  have hsound := fun s (run : server.Reach (fun s a => s.recordingOk a = true) s) =>
    reachable_sound run.reachable
  have hfiled : s.AllFiled := by
    refine run.invariant_using hsound (P := Sys.AllFiled) ?_ ?_
    · intro c o call hc
      cases hc
    · exact fun s a en hok hs h => (Sys.recording_step en hs hok h).1
  exact (Sys.recording_step en (hsound s run) hok hfiled).2 o htracked hgone

/-- A call is being recorded when its phone is dropped. -/
def droppedWhileRecording : List Action :=
  [.addPhone "alice" { domain := "example.org", recordingEnabled := true } ⟨some 1, true⟩,
   .incomingCall "alice" 0 (some (.plain 0 .incoming "a")), .mediaState 0 [.active],
   .dropPhone "alice"]

/-- The call has left `_calls` with an open recorder and a WAV without a sidecar. -/
theorem droppedWhileRecording_open :
    server.Reachable (server.run .initial droppedWhileRecording) ∧
    (server.run .initial (droppedWhileRecording.take 3)).calls.get? 0 = some 0 ∧
    (server.run .initial droppedWhileRecording).calls.get? 0 = none ∧
    (server.run .initial droppedWhileRecording).objs.map (fun call =>
      (call.recorder.isSome, call.wavs.length, call.sidecars)) = [(true, 1, [])] := by
  refine ⟨GuardedSystem.Reach.init.run ?_, ?_⟩ <;> decide

/-- The same call, ended before its phone is dropped. -/
theorem segments_closed_ended :
    ∃ call, ((server.run .initial (droppedWhileRecording.take 3)).step
        (.callState 0 (.plain 0 .disconnected "a") .writes "t")).objs[0]? = some call ∧
      call.recorder = none ∧ ∀ w ∈ call.wavs, ∃ m ∈ call.sidecars, m.recording = w := by
  have run : server.Reach (fun s a => s.recordingOk a = true)
      (server.run .initial (droppedWhileRecording.take 3)) :=
    GuardedSystem.Reach.init.run (by decide)
  refine segments_closed run (a := .callState 0 (.plain 0 .disconnected "a") .writes "t")
    (by decide) (by decide) ⟨0, by decide⟩ ?_
  rintro ⟨c, hc⟩
  have hempty : ((server.run .initial (droppedWhileRecording.take 3)).step
      (.callState 0 (.plain 0 .disconnected "a") .writes "t")).calls = .empty := by decide
  rw [hempty] at hc
  cases hc

end PjsuaMcp.Calls
