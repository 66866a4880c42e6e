import PjsuaMcp.Calls.Recordings

/-!
# The recording machine of a call

`_recorder`, `_recording_file`, `_info["recording_file"]` and `_pending_start`
form the machine idle, pending, active that `SipCall` describes in a comment.
It is driven by the media callback, the toggle and the end of the call.
`Machine` says how the fields lie to each other between two of these, and
`musicStarts` names the media callbacks that leave it intact: an exception from
the default music leaves the callback before the recorder is opened.
-/

namespace PjsuaMcp.Calls

open Library

/-- The directory is writable and the recorder is created. -/
def RecorderEnv.succeeds (env : RecorderEnv) : Bool := env.writable && env.created

namespace SipCall

/-- The recorder is open while recording is enabled and audio has been active; its file is named
everywhere it is kept, every closed segment has its sidecar, in the order of opening, and an
ended call records nothing. -/
structure Machine (call : SipCall) : Prop where
  open_iff : call.inv ≠ .disconnected →
    (call.recorder.isSome = true ↔ call.recordingEnabled = true ∧ call.hasAudMed = true)
  file_eq : call.recordingFile = call.recorder
  info_eq : call.info.recordingFile = call.recorder
  pending : call.pendingStart = true → call.recorder = none
  closed : call.sidecars.map Sidecar.recording ++ call.recorder.toList = call.wavs
  ended : call.inv = .disconnected → call.recorder = none

/-- The default music does not leave the media callback while a recorder has to be opened. -/
def musicStarts (call : SipCall) (media : List MediaStatus) : Bool :=
  match media.find? (·.audioActive) with
  | none => true
  | some m =>
      !call.recordingEnabled || call.recorder.isSome || call.playerFile.isSome ||
        !m.mohExists || m.playerCreated

/-! ## Its parts -/

/-- The part of `Machine` that is about the segments. -/
structure Paired (call : SipCall) : Prop where
  file_eq : call.recordingFile = call.recorder
  info_eq : call.info.recordingFile = call.recorder
  pending : call.pendingStart = true → call.recorder = none
  closed : call.sidecars.map Sidecar.recording ++ call.recorder.toList = call.wavs

/-- An open recorder is wanted, and there is audio for it. -/
def Wanted (call : SipCall) : Prop :=
  call.recorder.isSome = true → call.recordingEnabled = true ∧ call.hasAudMed = true

/-- A recorder is open as soon as recording is enabled. -/
def Steady (call : SipCall) : Prop := call.recordingEnabled = true → call.recorder.isSome = true

/-- The fields that these read. -/
def machineView (call : SipCall) : (Option String × Option String × Option String × Bool) ×
    (List String × List Sidecar × Bool × Bool) :=
  ((call.recorder, call.recordingFile, call.info.recordingFile, call.pendingStart),
    (call.wavs, call.sidecars, call.recordingEnabled, call.hasAudMed))

section View

variable {call call' : SipCall} (same : call'.machineView = call.machineView)

include same

/-- `Paired` depends on the view only. -/
theorem Paired.of_view (h : call.Paired) : call'.Paired := by
  simp only [machineView, Prod.mk.injEq] at same
  obtain ⟨⟨hrecorder, hfile, hinfo, hpending⟩, hwavs, hsidecars, -, -⟩ := same
  constructor
  · rw [hfile, hrecorder]
    exact h.file_eq
  · rw [hinfo, hrecorder]
    exact h.info_eq
  · rw [hpending, hrecorder]
    exact h.pending
  · rw [hsidecars, hrecorder, hwavs]
    exact h.closed

theorem Wanted.of_view (h : call.Wanted) : call'.Wanted := by
  simp only [machineView, Prod.mk.injEq] at same
  obtain ⟨⟨hrecorder, -, -, -⟩, -, -, henabled, haudio⟩ := same
  rw [Wanted, hrecorder, henabled, haudio]
  exact h

theorem Steady.of_view (h : call.Steady) : call'.Steady := by
  simp only [machineView, Prod.mk.injEq] at same
  obtain ⟨⟨hrecorder, -, -, -⟩, -, -, henabled, -⟩ := same
  rw [Steady, hrecorder, henabled]
  exact h

end View

theorem Machine.paired {call : SipCall} (h : call.Machine) : call.Paired :=
  ⟨h.file_eq, h.info_eq, h.pending, h.closed⟩

/-- A call that is alive records only what is wanted. -/
theorem Machine.wanted {call : SipCall} (h : call.Machine) (active : call.inv ≠ .disconnected) :
    call.Wanted := (h.open_iff active).mp

/-- The machine of a call that has not ended. -/
theorem Paired.machine {call : SipCall} (h : call.Paired) (active : call.inv ≠ .disconnected)
    (wanted : call.Wanted)
    (opens : call.recordingEnabled = true → call.hasAudMed = true → call.recorder.isSome = true) :
    call.Machine :=
  ⟨fun _ => ⟨wanted, fun hopen => opens hopen.1 hopen.2⟩, h.file_eq, h.info_eq, h.pending,
    h.closed, fun hended => absurd hended active⟩

theorem Steady.machine {call : SipCall} (steady : call.Steady) (h : call.Paired)
    (active : call.inv ≠ .disconnected) (wanted : call.Wanted) : call.Machine :=
  h.machine active wanted fun henabled _ => steady henabled

theorem machine_core {call : SipCall} : call.core.Machine ↔ call.Machine :=
  ⟨fun h => ⟨h.open_iff, h.file_eq, h.info_eq, h.pending, h.closed, h.ended⟩,
    fun h => ⟨h.open_iff, h.file_eq, h.info_eq, h.pending, h.closed, h.ended⟩⟩

/-- A new call records nothing. -/
theorem machine_new (identity : CallIdentity) (recordingEnabled : Bool)
    (codecs : Option (List String)) (inv : InvState) :
    (new identity recordingEnabled codecs inv).Machine :=
  ⟨fun _ => by simp [new], rfl, rfl, fun _ => rfl, rfl, fun _ => rfl⟩

/-! ## Starting and stopping -/

/-- A recorder that is opened opens its segment. -/
theorem Paired.startRecording {call : SipCall} (h : call.Paired) (env : RecorderEnv) :
    (call.startRecording true env).Paired := by
  unfold SipCall.startRecording
  split_ifs with _ hopen
  · exact h
  · exact h
  · contradiction
  · exact h
  · exact h
  · have hnone : call.recorder = none := by simpa using hopen
    have hclosed := h.closed
    rw [hnone, Option.toList_none, List.append_nil] at hclosed
    refine ⟨rfl, rfl, fun hpending => absurd hpending Bool.false_ne_true, ?_⟩
    rw [← hclosed]
    rfl

theorem Wanted.startRecording {call : SipCall} (h : call.Wanted) (env : RecorderEnv)
    (audio : call.hasAudMed = true) : (call.startRecording true env).Wanted := by
  unfold SipCall.startRecording
  split_ifs with hdisabled
  · exact h
  · exact h
  · contradiction
  · exact h
  · exact h
  · exact fun _ => ⟨by simpa using hdisabled, audio⟩

/-- With a recorder that opens, the attempt leaves one open whenever recording is enabled. -/
theorem startRecording_steady {call : SipCall} {env : RecorderEnv} (ok : env.succeeds = true) :
    (call.startRecording true env).Steady := by
  simp only [RecorderEnv.succeeds, Bool.and_eq_true] at ok
  intro henabled
  unfold startRecording at henabled ⊢
  split_ifs at henabled ⊢ with hdisabled hopen
  all_goals simp_all

theorem startRecording_hasAudMed (call : SipCall) (audMed : Bool) (env : RecorderEnv) :
    (call.startRecording audMed env).hasAudMed = call.hasAudMed := by
  unfold startRecording
  split_ifs <;> rfl

theorem Paired.reconnectRecorder {call : SipCall} (h : call.Paired) (env : RecorderEnv) :
    (call.reconnectRecorder env).Paired := by
  unfold SipCall.reconnectRecorder
  split_ifs
  · exact h
  · exact h.startRecording env
  · exact h

theorem Wanted.reconnectRecorder {call : SipCall} (h : call.Wanted) (env : RecorderEnv)
    (audio : call.hasAudMed = true) : (call.reconnectRecorder env).Wanted := by
  unfold SipCall.reconnectRecorder
  split_ifs
  · exact h
  · exact h.startRecording env audio
  · exact h

theorem reconnectRecorder_steady {call : SipCall} {env : RecorderEnv}
    (ok : env.succeeds = true) : (call.reconnectRecorder env).Steady := by
  unfold reconnectRecorder
  split_ifs with hdisabled hidle
  · intro henabled
    simp [henabled] at hdisabled
  · exact startRecording_steady ok
  · intro _
    simp only [Bool.or_eq_true, not_or, Option.isNone_iff_eq_none] at hidle
    exact Option.isSome_iff_ne_none.mpr hidle.2

theorem snapshotRtpPorts_machineView (call : SipCall) (ports : TransportPorts) :
    (call.snapshotRtpPorts ports).machineView = call.machineView := by
  unfold snapshotRtpPorts
  split <;> rfl

/-- Stopping files the open segment and leaves the machine idle. -/
theorem Paired.stopRecording {call : SipCall} (h : call.Paired) (pcap : Option String)
    {env : SidecarEnv} (written : env.written = true) :
    (call.stopRecording pcap env).Paired ∧ (call.stopRecording pcap env).recorder = none := by
  cases hrecorder : call.recorder with
  | none =>
      rw [stopRecording_of_none hrecorder]
      exact ⟨⟨h.file_eq, h.info_eq, fun _ => hrecorder, h.closed⟩, hrecorder⟩
  | some path =>
      have hfile : call.recordingFile = some path := h.file_eq.trans hrecorder
      have hsame := call.snapshotRtpPorts_machineView env.ports
      simp only [machineView, Prod.mk.injEq] at hsame
      obtain ⟨-, hwavs, hsidecars, -⟩ := hsame
      have hclosed := h.closed
      rw [hrecorder, Option.toList_some] at hclosed
      unfold SipCall.stopRecording
      simp only [hrecorder, Option.isNone_some, Bool.false_eq_true, if_false, writeMetaSidecar,
        hfile, written, if_true]
      refine ⟨⟨rfl, rfl, fun _ => rfl, ?_⟩, trivial⟩
      rw [hsidecars, hwavs, List.map_append, Option.toList_none, List.append_nil, ← hclosed]
      rfl

/-- Stopping turns no switch. -/
theorem stopRecording_switches (call : SipCall) (pcap : Option String) (env : SidecarEnv) :
    (call.stopRecording pcap env).recordingEnabled = call.recordingEnabled ∧
      (call.stopRecording pcap env).hasAudMed = call.hasAudMed := by
  have hports : (call.snapshotRtpPorts env.ports).recordingEnabled = call.recordingEnabled ∧
      (call.snapshotRtpPorts env.ports).hasAudMed = call.hasAudMed := by
    unfold snapshotRtpPorts
    split <;> exact ⟨rfl, rfl⟩
  unfold stopRecording
  split_ifs
  · exact ⟨rfl, rfl⟩
  · simp only [writeMetaSidecar]
    split
    · exact ⟨rfl, rfl⟩
    · split_ifs <;> exact hports

/-! ## The toggle -/

/-- The toggle leaves the machine intact: it opens a recorder, defers that to the first media, or
closes the open segment. -/
theorem Machine.toggleRecording {call : SipCall} (h : call.Machine)
    (active : call.inv ≠ .disconnected) (enabled : Bool) (pcap : Option String)
    {rec : RecorderEnv} {env : SidecarEnv} (ok : rec.succeeds = true)
    (written : env.written = true) : (call.toggleRecording enabled pcap rec env).Machine := by
  have hskeleton := call.toggleRecording_skeleton enabled pcap rec env
  have hinv : (call.toggleRecording enabled pcap rec env).inv ≠ .disconnected := by
    rw [show (call.toggleRecording enabled pcap rec env).inv = call.inv from
      congrArg Skeleton.inv hskeleton]
    exact active
  have flagged : ({ call with recordingEnabled := enabled } : SipCall).Paired :=
    ⟨h.file_eq, h.info_eq, h.pending, h.closed⟩
  cases enabled with
  | false =>
      obtain ⟨paired, hnone⟩ := flagged.stopRecording pcap written
      have hoff := (stopRecording_switches { call with recordingEnabled := false } pcap env).1
      refine paired.machine hinv (fun hopen => ?_) fun henabled _ => ?_
      · rw [hnone] at hopen
        cases hopen
      · rw [hoff] at henabled
        cases henabled
  | true =>
      have wanted : ({ call with recordingEnabled := true } : SipCall).Wanted :=
        fun hopen => ⟨rfl, (h.wanted active hopen).2⟩
      cases haudio : call.hasAudMed with
      | true =>
          have heq : call.toggleRecording true pcap rec env =
              ({ call with recordingEnabled := true } : SipCall).startRecording true rec := by
            simp [SipCall.toggleRecording, haudio]
          rw [heq] at hinv ⊢
          exact (startRecording_steady ok).machine (flagged.startRecording rec) hinv
            (wanted.startRecording rec haudio)
      | false =>
          -- without audio no recorder has been opened yet
          have hnone : call.recorder = none := by
            by_contra hopen
            have hfalse := (h.wanted active (Option.isSome_iff_ne_none.mpr hopen)).2
            rw [haudio] at hfalse
            cases hfalse
          have heq : call.toggleRecording true pcap rec env =
              { call with recordingEnabled := true, pendingStart := true } := by
            simp [SipCall.toggleRecording, haudio]
          rw [heq]
          refine Paired.machine ⟨h.file_eq, h.info_eq, fun _ => hnone, h.closed⟩ active wanted ?_
          intro _ haud
          rw [show call.hasAudMed = true from haud] at haudio
          cases haudio

theorem toggleRecording_hasAudMed (call : SipCall) (enabled : Bool) (pcap : Option String)
    (rec : RecorderEnv) (env : SidecarEnv) :
    (call.toggleRecording enabled pcap rec env).hasAudMed = call.hasAudMed := by
  unfold toggleRecording
  dsimp only
  split_ifs
  · exact startRecording_hasAudMed _ true rec
  · rfl
  · exact (stopRecording_switches _ pcap env).2

/-! ## Media -/

theorem stopPlayer_machineView (call : SipCall) :
    call.stopPlayer.machineView = call.machineView := by
  unfold stopPlayer
  split_ifs <;> rfl

theorem ensurePlayer_machineView (call : SipCall) (m : MediaStatus) :
    (call.ensurePlayer m).1.machineView = call.machineView := by
  unfold ensurePlayer startDefaultMoh
  split_ifs
  · rfl
  · rfl
  · exact stopPlayer_machineView call
  · exact stopPlayer_machineView call

theorem cacheCodec_machineView (call : SipCall) (codecName : Option String) :
    (call.cacheCodec codecName).machineView = call.machineView := by
  unfold cacheCodec
  split <;> rfl

/-- The default music raises exactly when no player runs and its file cannot be played. -/
theorem ensurePlayer_raises (call : SipCall) (m : MediaStatus) :
    (call.ensurePlayer m).2 =
      (!call.playerFile.isSome && m.mohExists && !m.playerCreated) := by
  unfold ensurePlayer startDefaultMoh
  cases call.playerFile with
  | some path => rfl
  | none => cases m.mohExists <;> cases m.playerCreated <;> rfl

/-- Music that cannot be played leaves the callback before the recorder. -/
theorem onAudioActive_raised {call : SipCall} {m : MediaStatus}
    (raised : (call.markAudioActive.ensurePlayer m).2 = true) :
    call.onAudioActive m = ((call.markAudioActive.ensurePlayer m).1, true) := by
  simp [onAudioActive, raised]

/-- Where the music plays, the recorder is reconnected. -/
theorem onAudioActive_played {call : SipCall} {m : MediaStatus}
    (played : (call.markAudioActive.ensurePlayer m).2 = false) :
    ∃ call', call.onAudioActive m = (call', false) ∧ call'.machineView =
      ((call.markAudioActive.ensurePlayer m).1.reconnectRecorder m.recorder).machineView := by
  refine ⟨_, by rw [onAudioActive, played]; rfl, ?_⟩
  rw [snapshotRtpPorts_machineView, cacheCodec_machineView]

theorem ensurePlayer_hasAudMed (call : SipCall) (m : MediaStatus) :
    (call.markAudioActive.ensurePlayer m).1.hasAudMed = true :=
  congrArg (fun view => view.2.2.2.2) (ensurePlayer_machineView call.markAudioActive m)

/-- An active media keeps the segments paired and opens no recorder that is not wanted. -/
theorem Paired.onAudioActive {call : SipCall} (paired : call.Paired) (wanted : call.Wanted)
    (m : MediaStatus) : (call.onAudioActive m).1.Paired ∧ (call.onAudioActive m).1.Wanted := by
  have hview := ensurePlayer_machineView call.markAudioActive m
  have marked : call.markAudioActive.Paired :=
    ⟨paired.file_eq, paired.info_eq, paired.pending, paired.closed⟩
  have markedWanted : call.markAudioActive.Wanted := fun hopen => ⟨(wanted hopen).1, rfl⟩
  have playedPaired := Paired.of_view hview marked
  have playedWanted := Wanted.of_view hview markedWanted
  cases raised : (call.markAudioActive.ensurePlayer m).2 with
  | true =>
      rw [onAudioActive_raised raised]
      exact ⟨playedPaired, playedWanted⟩
  | false =>
      obtain ⟨call', heq, hsame⟩ := onAudioActive_played raised
      rw [heq]
      exact ⟨(playedPaired.reconnectRecorder m.recorder).of_view hsame,
        (playedWanted.reconnectRecorder m.recorder (ensurePlayer_hasAudMed call m)).of_view hsame⟩

/-- A recorder that is open as it should be stays so, and one is opened unless the music raises. -/
theorem onAudioActive_steady {call : SipCall} {m : MediaStatus} (ok : m.recorder.succeeds = true)
    (steady : (call.markAudioActive.ensurePlayer m).2 = true → call.Steady) :
    (call.onAudioActive m).1.Steady := by
  cases raised : (call.markAudioActive.ensurePlayer m).2 with
  | true =>
      rw [onAudioActive_raised raised]
      have marked : call.markAudioActive.Steady := steady raised
      exact Steady.of_view (ensurePlayer_machineView call.markAudioActive m) marked
  | false =>
      obtain ⟨call', heq, hsame⟩ := onAudioActive_played raised
      rw [heq]
      exact (reconnectRecorder_steady ok).of_view hsame

/-- A whole media callback, media by media. -/
theorem Paired.onCallMediaState {call : SipCall} (paired : call.Paired) (wanted : call.Wanted)
    (media : List MediaStatus) :
    (call.onCallMediaState media).Paired ∧ (call.onCallMediaState media).Wanted := by
  induction media generalizing call with
  | nil => exact ⟨paired, wanted⟩
  | cons m rest ih =>
      obtain ⟨hpaired, hwanted⟩ := paired.onAudioActive wanted m
      simp only [SipCall.onCallMediaState]
      split_ifs
      · exact ⟨hpaired, hwanted⟩
      · exact ih hpaired hwanted
      · exact ih paired wanted

/-- A recorder that was open stays open, or is reopened, through the callback. -/
theorem Steady.onCallMediaState {call : SipCall} (steady : call.Steady) {media : List MediaStatus}
    (ok : ∀ m ∈ media, m.recorder.succeeds = true) : (call.onCallMediaState media).Steady := by
  induction media generalizing call with
  | nil => exact steady
  | cons m rest ih =>
      obtain ⟨hm, hrest⟩ := List.forall_mem_cons.mp ok
      have hone := onAudioActive_steady hm fun _ => steady
      simp only [SipCall.onCallMediaState]
      split_ifs
      · exact hone
      · exact ih hone hrest
      · exact ih steady hrest

theorem reconnectRecorder_hasAudMed (call : SipCall) (env : RecorderEnv) :
    (call.reconnectRecorder env).hasAudMed = call.hasAudMed := by
  unfold reconnectRecorder
  split_ifs
  · rfl
  · exact startRecording_hasAudMed call true env
  · rfl

theorem onAudioActive_hasAudMed (call : SipCall) (m : MediaStatus) :
    (call.onAudioActive m).1.hasAudMed = true := by
  have hplayed := ensurePlayer_hasAudMed call m
  cases raised : (call.markAudioActive.ensurePlayer m).2 with
  | true =>
      rw [onAudioActive_raised raised]
      exact hplayed
  | false =>
      obtain ⟨call', heq, hsame⟩ := onAudioActive_played raised
      rw [heq]
      have hview := congrArg (fun view => view.2.2.2.2) hsame
      exact hview.trans ((reconnectRecorder_hasAudMed _ _).trans hplayed)

/-- A call has had audio once one of its media was active. -/
theorem onCallMediaState_hasAudMed (call : SipCall) (media : List MediaStatus) :
    (call.onCallMediaState media).hasAudMed =
      (call.hasAudMed || media.any (·.audioActive)) := by
  induction media generalizing call with
  | nil => exact (Bool.or_false _).symm
  | cons m rest ih =>
      have hone := onAudioActive_hasAudMed call m
      cases hm : m.audioActive with
      | true =>
          simp only [onCallMediaState, hm, if_true, List.any_cons, Bool.true_or, Bool.or_true]
          split_ifs
          · exact hone
          · rw [ih, hone, Bool.true_or]
      | false => simp [onCallMediaState, hm, ih]

/-- The media that are not active are passed over. -/
theorem onCallMediaState_find (call : SipCall) (media : List MediaStatus) :
    (media.find? (·.audioActive) = none ∧ call.onCallMediaState media = call) ∨
    ∃ m rest, media.find? (·.audioActive) = some m ∧ m :: rest <:+ media ∧
      call.onCallMediaState media =
        if (call.onAudioActive m).2 then (call.onAudioActive m).1
        else (call.onAudioActive m).1.onCallMediaState rest := by
  induction media with
  | nil => exact .inl ⟨rfl, rfl⟩
  | cons m rest ih =>
      cases hm : m.audioActive with
      | true =>
          refine .inr ⟨m, rest, List.find?_cons_of_pos hm, List.suffix_refl _, ?_⟩
          simp only [SipCall.onCallMediaState, hm, if_true]
      | false =>
          have hskip : call.onCallMediaState (m :: rest) = call.onCallMediaState rest := by
            simp [SipCall.onCallMediaState, hm]
          rw [List.find?_cons_of_neg (by simp [hm]), hskip]
          rcases ih with hnone | ⟨first, later, hfirst, hsuffix, heq⟩
          · exact .inl hnone
          · exact .inr ⟨first, later, hfirst, hsuffix.trans (List.suffix_cons m rest), heq⟩

/-- The media callback leaves the machine intact exactly when the music starts. -/
theorem Machine.onCallMediaState_iff {call : SipCall} (h : call.Machine)
    (active : call.inv ≠ .disconnected) {media : List MediaStatus}
    (ok : ∀ m ∈ media, m.recorder.succeeds = true) :
    (call.onCallMediaState media).Machine ↔ call.musicStarts media = true := by
  have hskeleton := call.onCallMediaState_skeleton media
  have hinv : (call.onCallMediaState media).inv ≠ .disconnected := by
    rw [show (call.onCallMediaState media).inv = call.inv from congrArg Skeleton.inv hskeleton]
    exact active
  obtain ⟨paired, wanted⟩ := h.paired.onCallMediaState (h.wanted active) media
  rcases call.onCallMediaState_find media with ⟨hnone, hsame⟩ | ⟨m, rest, hfirst, hsuffix, heq⟩
  · rw [hsame, musicStarts, hnone]
    exact iff_of_true h rfl
  · obtain ⟨hm, hrest⟩ := List.forall_mem_cons.mp fun m' hm' => ok m' (hsuffix.subset hm')
    have hmusic : call.musicStarts media = true ↔
        ((call.markAudioActive.ensurePlayer m).2 = true → call.Steady) := by
      have hplayer : call.markAudioActive.playerFile = call.playerFile := rfl
      simp only [musicStarts, hfirst, ensurePlayer_raises, hplayer, Steady]
      cases call.playerFile.isSome <;> cases m.mohExists <;> cases m.playerCreated <;>
        cases call.recordingEnabled <;> cases call.recorder.isSome <;> simp
    rw [hmusic]
    constructor
    · intro hmachine raised
      -- the callback has ended with the exception
      rw [heq, onAudioActive_raised raised, if_pos rfl] at hmachine hinv
      have hview := ensurePlayer_machineView call.markAudioActive m
      have hsteady : (call.markAudioActive.ensurePlayer m).1.Steady := fun henabled =>
        (hmachine.open_iff hinv).mpr ⟨henabled, ensurePlayer_hasAudMed call m⟩
      have marked : call.markAudioActive.Steady := Steady.of_view hview.symm hsteady
      exact marked
    · intro steady
      have hone := onAudioActive_steady hm steady
      refine Steady.machine ?_ paired hinv wanted
      rw [heq]
      split_ifs
      · exact hone
      · exact hone.onCallMediaState hrest

end SipCall

namespace Sys

/-! ## How an action changes a call object -/

/-- The ways in which `o` becomes `call'`. -/
inductive ObjectStep (s : Sys) (a : Action) (o : ObjId) (call' : SipCall) : Prop
  | kept {call} (ho : s.objs[o]? = some call) (same : call'.core = call.core)
  | created (fresh : s.objs[o]? = none) (new : s.newCall a = some call')
  | refreshed {call ci env timestamp} (ha : a = .callState o ci env timestamp)
      (ho : s.objs[o]? = some call) (state : ci.state ≠ .disconnected)
      (eq : call' = call.updateInfo ci)
  | ended {call ci env timestamp} (ha : a = .callState o ci env timestamp)
      (ho : s.objs[o]? = some call) (state : ci.state = .disconnected)
      (eq : call' = s.endedCall call ci env)
  | media {call media} (ha : a = .mediaState o media) (ho : s.objs[o]? = some call)
      (eq : call' = call.onCallMediaState media)
  | toggled {call p enabled rec env} (ha : a = .setRecordingEnabled p enabled rec env)
      (ho : s.objs[o]? = some call) (owned : o ∈ s.callsOf p)
      (eq : call' = call.toggleRecording enabled (s.currentPcapPathFor call.phoneId) (rec o) (env o))

/-- The heap only grows, and each of its objects has come about in one of these ways. -/
structure HeapStep (s : Sys) (a : Action) (s' : Sys) : Prop where
  grows : s.objs.length ≤ s'.objs.length
  object : ∀ o call', s'.objs[o]? = some call' → s.ObjectStep a o call'

theorem HeapStep.of_objs {s s' : Sys} (a : Action) (hobjs : s'.objs = s.objs) :
    s.HeapStep a s' where
  grows := hobjs ▸ le_refl _
  object := fun _ _ ho => .kept (hobjs ▸ ho) rfl

theorem HeapStep.of_cores {s s' t : Sys} (a : Action) (heq : s' = t)
    (hcores : t.objs.map SipCall.core = s.objs.map SipCall.core) : s.HeapStep a s' := by
  subst heq
  constructor
  · have hlength := congrArg List.length hcores
    rw [List.length_map, List.length_map] at hlength
    exact hlength.ge
  · intro o call' ho
    have hcore : (s'.objs.map SipCall.core)[o]? = some call'.core := by
      rw [List.getElem?_map, ho]
      rfl
    rw [hcores, List.getElem?_map, Option.map_eq_some_iff] at hcore
    obtain ⟨call, hcall, hsame⟩ := hcore
    exact .kept hcall hsame.symm

/-- Only the object that is set has changed. -/
theorem HeapStep.of_set {s s' : Sys} {a : Action} {o : ObjId} {call : SipCall}
    (hobjs : s'.objs = s.objs.set o call) (changed : s.ObjectStep a o call) :
    s.HeapStep a s' := by
  constructor
  · rw [hobjs, List.length_set]
  · intro i call' hi
    rw [hobjs] at hi
    obtain ⟨rfl, rfl⟩ | ⟨-, hold⟩ := cell_of_set hi
    · exact changed
    · exact .kept hold rfl

/-- A new call is appended to the heap. -/
theorem heapStep_creates {s : Sys} {a : Action} (ha : a.creates = true) :
    s.HeapStep a (s.step a) := by
  rcases s.step_newCall a ha with ⟨-, hsame⟩ | ⟨call, _, _, _, hnew, hstep⟩
  · exact .of_objs a (by rw [hsame])
  · have hobjs : (s.step a).objs = s.objs ++ [call] := by
      rw [hstep]
      rfl
    constructor
    · rw [hobjs, List.length_append]
      exact Nat.le_add_right _ _
    · intro o call' ho
      rw [hobjs] at ho
      obtain hold | ⟨rfl, rfl⟩ := cell_of_concat ho
      · exact .kept hold rfl
      · exact .created (List.getElem?_eq_none_iff.mpr le_rfl) hnew

/-- Switching recording reaches the calls of the phone. -/
theorem heapStep_toggle (s : Sys) (p : PhoneId) (enabled : Bool) (rec : ObjId → RecorderEnv)
    (env : ObjId → SidecarEnv) : s.HeapStep (.setRecordingEnabled p enabled rec env)
      (s.setRecordingEnabled p enabled rec env) := by
  unfold setRecordingEnabled
  split
  · exact .of_objs _ rfl
  · constructor
    · exact (List.length_mapIdx).ge
    · intro o call' ho
      simp only [mapObjs, List.getElem?_mapIdx, Option.map_eq_some_iff] at ho
      obtain ⟨call, hcall, rfl⟩ := ho
      split_ifs with hmem
      · exact .toggled rfl hcall hmem rfl
      · exact .kept hcall rfl

theorem onCallMediaState_objs {s : Sys} {o : ObjId} {call : SipCall} (ho : s.objs[o]? = some call)
    (media : List MediaStatus) :
    (s.onCallMediaState o media).objs = s.objs.set o (call.onCallMediaState media) := by
  obtain ⟨_, _, heq⟩ := onCallMediaState_eq ho media
  rw [heq]

/-- Whatever an enabled action does to an object is one of the listed ways. -/
theorem step_heap {s : Sys} (hs : s.table.Sound) {a : Action} (en : s.enabled a = true) :
    s.HeapStep a (s.step a) := by
  cases a with
  | makeCall phone destUri placed => exact heapStep_creates rfl
  | incomingCall p c ci => exact heapStep_creates rfl
  | callState o ci env timestamp =>
      obtain ⟨call, ho, -⟩ := exists_of_objActive en
      by_cases hstate : ci.state = .disconnected
      · obtain ⟨_, ends⟩ := onCallState_untracks hs ho hstate env timestamp
        exact .of_set ends.objs (.ended rfl ho hstate rfl)
      · have heq : s.step (.callState o ci env timestamp) =
            { s with objs := s.objs.set o (call.updateInfo ci) } :=
          onCallState_refreshed ho hstate env timestamp
        exact .of_set (congrArg Sys.objs heq) (.refreshed rfl ho hstate rfl)
  | mediaState o media =>
      obtain ⟨call, ho, -⟩ := exists_of_objActive en
      exact .of_set (onCallMediaState_objs ho media) (.media rfl ho rfl)
  | answerCall phone c code =>
      obtain ⟨_, _, _, heq, hcores⟩ := s.actOnIncoming_eq phone c (.answer code)
      exact .of_cores _ heq hcores
  | rejectCall phone c code =>
      obtain ⟨_, _, _, heq, hcores⟩ := s.actOnIncoming_eq phone c (.hangup code)
      exact .of_cores _ heq hcores
  | callOp op =>
      obtain ⟨_, _, heq, hcores⟩ := s.callOp_eq op
      exact .of_cores _ heq hcores
  | autoAnswerNext =>
      obtain ⟨_, _, heq, hcores⟩ := s.autoAnswerNext_eq
      exact .of_cores _ heq hcores
  | pollAutoAnswers => exact .of_objs _ rfl
  | processAutoCaptures =>
      obtain ⟨_, _, _, _, heq⟩ := s.drainStarts_eq s.autoCapturePendingStart
      exact .of_cores _ heq rfl
  | resumeAutoCaptures stamp =>
      obtain ⟨_, _, _, _, heq⟩ := s.resumeAutoCaptures_eq stamp
      exact .of_cores _ heq rfl
  | setCaptureEnabled p enabled =>
      obtain ⟨_, _, _, heq⟩ := s.setCaptureEnabled_eq p enabled
      exact .of_cores _ heq rfl
  | setRecordingEnabled p enabled rec env => exact s.heapStep_toggle p enabled rec env
  | setCodecsForPhone p codecs =>
      obtain ⟨_, _, _, heq, hcores⟩ := s.setCodecsForPhone_eq p codecs
      exact .of_cores _ heq hcores
  | setAutoAnswer p enabled =>
      change s.HeapStep _ (s.setAutoAnswer p enabled)
      unfold setAutoAnswer
      split
      · exact .of_objs _ rfl
      · exact .of_objs _ rfl
  | addPhone p cfg out => exact .of_objs _ (s.addPhone_objs p cfg out)
  | dropPhone p => exact .of_objs _ (s.dropPhone_objs p)
  | reregisterPhone p creds out =>
      change s.HeapStep _ (s.reregisterPhone p creds out)
      rcases s.reregisterPhone_cases p creds out with ⟨-, hsame⟩ | ⟨cfg, -, hadd⟩
      · exact .of_objs _ (congrArg Sys.objs hsame)
      · rw [hadd]
        exact .of_objs _ (s.addPhone_objs p _ out)
  | cleanup => exact .of_objs _ rfl

/-! ## One step of the machine -/

/-- The recordings directory is writable, recorders are created and sidecars written. -/
def filesSucceed (s : Sys) : Action → Bool
  | .callState _ _ env _ => env.written
  | .mediaState _ media => media.all fun m => m.recorder.succeeds
  | .setRecordingEnabled p _ rec env =>
      (s.callsOf p).all fun o => (rec o).succeeds && (env o).written
  | _ => true

/-- The default music raises in no media callback that has to open a recorder. -/
def musicStarts (s : Sys) : Action → Bool
  | .mediaState o media => s.objs[o]?.all fun call => call.musicStarts media
  | _ => true

/-- Audio has been active on the call object `o`. -/
def audioAt (s : Sys) (o : ObjId) : Bool := s.objs[o]?.any SipCall.hasAudMed

/-- The action reports active audio on the call object `o`. -/
def audioFor (o : ObjId) : Action → Bool
  | .mediaState i media => i = o && media.any (·.audioActive)
  | _ => false

/-- Every call object is in a state of the machine. -/
def Machines (s : Sys) : Prop := ∀ (o : ObjId) (call : SipCall), s.objs[o]? = some call →
  call.Machine

theorem endedCall_hasAudMed (s : Sys) (call : SipCall) (ci : CallInfo) (env : SidecarEnv) :
    (s.endedCall call ci env).hasAudMed = call.hasAudMed := by
  have hview := ((call.updateInfo ci).stopRecording (s.currentPcapPathFor call.phoneId)
    env).stopPlayer_machineView
  exact (congrArg (fun view => view.2.2.2.2) hview).trans
    (SipCall.stopRecording_switches (call.updateInfo ci) _ env).2

/-- A new call is in a state of the machine, and silent. -/
theorem newCall_machine {s : Sys} {a : Action} {call : SipCall} (h : s.newCall a = some call) :
    call.Machine ∧ call.hasAudMed = false := by
  cases a with
  | makeCall phone destUri placed =>
      cases placed with
      | none => cases h
      | some ci =>
          simp only [newCall] at h
          split at h
          · cases h
          · obtain ⟨cfg, -, rfl⟩ := Option.map_eq_some_iff.mp h
            exact ⟨SipCall.machine_new _ _ _ _, rfl⟩
  | incomingCall p c ci =>
      obtain ⟨cfg, -, rfl⟩ := Option.map_eq_some_iff.mp h
      exact ⟨SipCall.machine_new _ _ _ _, rfl⟩
  | _ => cases h

/-- Only a call that has not ended is toggled. -/
theorem live_of_mem_callsOf {s : Sys} (hs : s.table.Sound) {p : PhoneId} {o : ObjId}
    {call : SipCall} (owned : o ∈ s.callsOf p) (ho : s.objs[o]? = some call) :
    call.inv ≠ .disconnected := by
  obtain ⟨c, hc, -⟩ := (s.mem_callsOf_iff p o).mp owned
  exact hs.live hc (table_heap_of_some ho)

/-- A call that ends closes its segment. -/
theorem endedCall_machine {s : Sys} {call : SipCall} (h : call.Machine) {ci : CallInfo}
    {env : SidecarEnv} (written : env.written = true) (hstate : ci.state = .disconnected) :
    (s.endedCall call ci env).Machine := by
  have updated : (call.updateInfo ci).Paired := ⟨h.file_eq, h.info_eq, h.pending, h.closed⟩
  obtain ⟨paired, hnone⟩ := updated.stopRecording (s.currentPcapPathFor call.phoneId) written
  have hview := ((call.updateInfo ci).stopRecording (s.currentPcapPathFor call.phoneId)
    env).stopPlayer_machineView
  have stopped := SipCall.Paired.of_view hview paired
  have hclosed : (s.endedCall call ci env).recorder = none :=
    (congrArg (fun view => view.1.1) hview).trans hnone
  have hinv : (s.endedCall call ci env).inv = .disconnected :=
    (s.endedCall_inv call ci env).trans hstate
  exact ⟨fun active => absurd hinv active, stopped.file_eq, stopped.info_eq, stopped.pending,
    stopped.closed, fun _ => hclosed⟩

/-- A step keeps every object in the machine, unless the music raises in it. -/
theorem step_machines {s : Sys} (hs : s.table.Sound) (h : s.Machines) {a : Action}
    (en : s.enabled a = true) (files : s.filesSucceed a = true)
    (music : s.musicStarts a = true) : (s.step a).Machines := by
  intro o call' ho
  cases (step_heap hs en).object o call' ho with
  | kept hcall same =>
      rw [← SipCall.machine_core, same, SipCall.machine_core]
      exact h o _ hcall
  | created _ hnew => exact (newCall_machine hnew).1
  | refreshed ha hcall state eq =>
      subst ha eq
      obtain ⟨call, hi, active⟩ := exists_of_objActive en
      rw [hcall] at hi
      cases hi
      have machine := h o _ hcall
      exact ⟨fun _ => machine.open_iff active, machine.file_eq, machine.info_eq, machine.pending,
        machine.closed, fun hended => absurd hended state⟩
  | ended ha hcall state eq =>
      subst ha eq
      exact endedCall_machine (h o _ hcall) files state
  | media ha hcall eq =>
      subst ha eq
      obtain ⟨call, hi, active⟩ := exists_of_objActive en
      rw [hcall] at hi
      cases hi
      rw [musicStarts, hcall] at music
      exact ((h o _ hcall).onCallMediaState_iff active (List.all_eq_true.mp files)).mpr music
  | toggled ha hcall owned eq =>
      subst ha eq
      have hfiles := List.all_eq_true.mp files o owned
      rw [Bool.and_eq_true] at hfiles
      exact (h o _ hcall).toggleRecording (live_of_mem_callsOf hs owned hcall) _ _ hfiles.1 hfiles.2

/-- The step leaves the machine where the music raises while a recorder has to be opened. -/
theorem step_machines_iff {s : Sys} (hs : s.table.Sound) (h : s.Machines) {a : Action}
    (en : s.enabled a = true) (files : s.filesSucceed a = true) :
    (s.step a).Machines ↔ s.musicStarts a = true := by
  refine ⟨fun hstep => ?_, step_machines hs h en files⟩
  cases a with
  | mediaState o media =>
      obtain ⟨call, ho, active⟩ := exists_of_objActive en
      have hlt := (List.getElem?_eq_some_iff.mp ho).1
      have hafter : (s.step (.mediaState o media)).objs[o]? =
          some (call.onCallMediaState media) := by
        rw [show (s.step (.mediaState o media)).objs = s.objs.set o (call.onCallMediaState media)
          from onCallMediaState_objs ho media]
        exact List.getElem?_set_self hlt
      rw [musicStarts, ho]
      exact ((h o call ho).onCallMediaState_iff active (List.all_eq_true.mp files)).mp
        (hstep o _ hafter)
  | _ => rfl

/-! ## When audio has been active -/

/-- A call has audio when it had some before, or when this step brings it. -/
theorem step_audioAt {s : Sys} (hs : s.table.Sound) {a : Action} (en : s.enabled a = true)
    (o : ObjId) : (s.step a).audioAt o = (s.audioAt o || audioFor o a) := by
  have hother : (∀ media, a ≠ .mediaState o media) →
      (s.step a).audioAt o = (s.audioAt o || audioFor o a) := by
    intro hne
    have hquiet : audioFor o a = false := by
      cases a with
      | mediaState i media =>
          have hio : i ≠ o := fun hio => hne media (hio ▸ rfl)
          simp [audioFor, hio]
      | _ => rfl
    rw [hquiet, Bool.or_false, audioAt, audioAt]
    cases hafter : (s.step a).objs[o]? with
    | none =>
        cases hbefore : s.objs[o]? with
        | none => rfl
        | some call =>
            have hlt := (List.getElem?_eq_some_iff.mp hbefore).1
            have hgone := List.getElem?_eq_none_iff.mp hafter
            exact absurd (hlt.trans_le (step_heap hs en).grows) (not_lt.mpr hgone)
    | some call' =>
        cases (step_heap hs en).object o call' hafter with
        | kept hcall same =>
            rw [hcall]
            have haudio : call'.core.hasAudMed = _ := congrArg SipCall.hasAudMed same
            exact haudio
        | created fresh hnew =>
            rw [fresh]
            exact (newCall_machine hnew).2
        | refreshed _ hcall _ eq =>
            rw [hcall, eq]
            rfl
        | ended _ hcall _ eq =>
            rw [hcall, eq]
            exact endedCall_hasAudMed _ _ _ _
        | media ha => exact absurd ha (hne _)
        | toggled _ hcall _ eq =>
            rw [hcall, eq]
            exact SipCall.toggleRecording_hasAudMed _ _ _ _ _
  cases a with
  | mediaState i media =>
      by_cases hio : i = o
      · subst hio
        obtain ⟨call, ho, -⟩ := exists_of_objActive en
        have hlt := (List.getElem?_eq_some_iff.mp ho).1
        have hobjs : (s.step (.mediaState i media)).objs =
            s.objs.set i (call.onCallMediaState media) := onCallMediaState_objs ho media
        rw [audioAt, audioAt, hobjs, List.getElem?_set_self hlt, ho]
        simp [audioFor, SipCall.onCallMediaState_hasAudMed]
      · exact hother fun other heq => hio (by cases heq; rfl)
  | _ => exact hother fun _ heq => by cases heq

end Sys

/-! ## Runs -/

/-- Audio has been active on an object at the end of a run when it was at its start, or one of the
actions reported it. -/
theorem run_audioAt {s : Sys} (hs : s.table.Sound) {ok : Sys → Action → Prop} {as : List Action}
    (legal : server.Legal ok s as) (o : ObjId) :
    (server.run s as).audioAt o = (s.audioAt o || as.any (Sys.audioFor o)) := by
  induction as generalizing s with
  | nil => exact (Bool.or_false _).symm
  | cons a rest ih =>
      obtain ⟨en, -, hrest⟩ := legal
      have hrun := ih (Sys.step_sound en hs) hrest
      rw [List.any_cons, ← Bool.or_assoc, ← Sys.step_audioAt hs en o]
      exact hrun

theorem initial_machines : Sys.initial.Machines := by
  intro o call ho
  cases ho

/-- Along a run in which all files can be written and the music never raises, every call object
is in a state of the machine, with audio active as soon as one of its media callbacks reported
it; and the next step leaves the machine exactly when the music raises in it. -/
theorem recording_machine {as : List Action}
    (legal : server.Legal (fun s a => s.filesSucceed a = true ∧ s.musicStarts a = true)
      .initial as) :
    (∀ (o : ObjId) (call : SipCall), (server.run .initial as).objs[o]? = some call →
      call.Machine ∧ (call.hasAudMed = true ↔ ∃ media, .mediaState o media ∈ as ∧
        ∃ m ∈ media, m.audioActive = true)) ∧
    ∀ a, server.enabled (server.run .initial as) a →
      (server.run .initial as).filesSucceed a = true →
      ((server.run .initial (as ++ [a])).Machines ↔
        (server.run .initial as).musicStarts a = true) := by
  have run := GuardedSystem.Reach.init.run legal
  have hs := reachable_sound run.reachable
  have hmachines : (server.run .initial as).Machines := by
    refine run.invariant_using (P := Sys.Machines) (fun s hrun => reachable_sound hrun.reachable)
      initial_machines ?_
    exact fun s a en hok hs h => Sys.step_machines hs h en hok.1 hok.2
  refine ⟨fun o call ho => ⟨hmachines o call ho, ?_⟩, fun a en files => ?_⟩
  · have haudio : (server.run .initial as).audioAt o = as.any (Sys.audioFor o) :=
      run_audioAt (reachable_sound .init) legal o
    rw [Sys.audioAt, ho] at haudio
    have hreported : call.hasAudMed = as.any (Sys.audioFor o) := haudio
    rw [hreported, List.any_eq_true]
    constructor
    · rintro ⟨a, ha, hfor⟩
      cases a with
      | mediaState i media =>
          simp only [Sys.audioFor, Bool.and_eq_true, decide_eq_true_eq, List.any_eq_true] at hfor
          obtain ⟨rfl, hactive⟩ := hfor
          exact ⟨media, ha, hactive⟩
      | _ => cases hfor
    · rintro ⟨media, ha, hactive⟩
      refine ⟨_, ha, ?_⟩
      simpa [Sys.audioFor] using hactive
  · rw [GuardedSystem.run, List.foldl_append]
    exact Sys.step_machines_iff hs hmachines en files

/-- Default music that cannot be played, while the call of a recorded phone becomes active. -/
def musicRaises : List Action :=
  [.addPhone "alice" { domain := "example.org", recordingEnabled := true } ⟨some 1, true⟩,
   .incomingCall "alice" 0 (some (.plain 0 .incoming "a")),
   .mediaState 0 [⟨true, true, false, .opens, none, none⟩]]

/-- All files can be written, and no recorder is open although recording is enabled and audio has
been active. -/
theorem musicRaises_unrecorded :
    server.Legal (fun s a => s.filesSucceed a = true) .initial musicRaises ∧
    (server.run .initial musicRaises).objs.map (fun call =>
      (call.inv, call.recordingEnabled, call.hasAudMed, call.recorder)) =
        [(.incoming, true, true, none)] := by
  decide

/-- A call whose recording is enabled before there is audio, and disabled while it is open. -/
def recordedTwice : List Action :=
  [.addPhone "alice" { domain := "example.org" } ⟨some 1, true⟩,
   .incomingCall "alice" 0 (some (.plain 0 .incoming "a")),
   .setRecordingEnabled "alice" true (fun _ => .opens) (fun _ => .writes),
   .mediaState 0 [.active],
   .setRecordingEnabled "alice" false (fun _ => .opens) (fun _ => .writes),
   .setRecordingEnabled "alice" true (fun _ => .opens) (fun _ => .writes)]

/-- The machine of that call, and the music that the next media callback must not raise in. -/
theorem recordedTwice_machine :
    (∀ (o : ObjId) (call : SipCall), (server.run .initial recordedTwice).objs[o]? = some call →
      call.Machine ∧ (call.hasAudMed = true ↔ ∃ media, .mediaState o media ∈ recordedTwice ∧
        ∃ m ∈ media, m.audioActive = true)) ∧
    ∀ a, server.enabled (server.run .initial recordedTwice) a →
      (server.run .initial recordedTwice).filesSucceed a = true →
      ((server.run .initial (recordedTwice ++ [a])).Machines ↔
        (server.run .initial recordedTwice).musicStarts a = true) :=
  recording_machine (by decide)

/-! ## The history entry -/

/-- Stopping resets the cached file of an open segment. -/
theorem SipCall.stopRecording_info {call : SipCall} (pcap : Option String) (env : SidecarEnv)
    (hopen : call.recorder.isSome = true) :
    (call.stopRecording pcap env).info.recordingFile = none := by
  rw [← Option.not_isNone, Bool.not_eq_true'] at hopen
  simp [stopRecording, hopen]

theorem SipCall.stopPlayer_recordingFile (call : SipCall) :
    call.stopPlayer.info.recordingFile = call.info.recordingFile :=
  congrArg (fun view => view.1.2.2.1) (stopPlayer_machineView call)

/-- A call that ends is filed last in the history. -/
theorem Sys.pushHistory_getLast (s : Sys) (info : CachedInfo) (timestamp : String) :
    ∃ entry, (s.pushHistory info timestamp).callHistory.getLast? = some entry ∧
      entry.phoneId = info.phoneId ∧ entry.timestamp = timestamp ∧
      entry.recordingFile = info.recordingFile := by
  let entry : HistoryEntry :=
    { phoneId := info.phoneId, remoteUri := info.remoteUri, duration := info.duration,
      lastStatus := info.lastStatus, lastStatusText := info.lastStatusText, codec := info.codec,
      recordingFile := info.recordingFile, timestamp := timestamp }
  refine ⟨entry, ?_, rfl, rfl, rfl⟩
  change ((s.callHistory ++ [entry]).drop ((s.callHistory ++ [entry]).length - 100)).getLast? = _
  rw [List.getLast?_drop, if_neg, List.getLast?_concat]
  rw [List.length_append, List.length_singleton]
  omega

/-- Of what follows the end of a call, one part writes the history. -/
theorem Sys.onCallDisconnected_callHistory (s : Sys) (info : CachedInfo) (timestamp : String) :
    (s.onCallDisconnected info timestamp).callHistory =
      (s.pushHistory info timestamp).callHistory := by
  unfold onCallDisconnected
  dsimp only
  split_ifs
  · rw [queueStopIfCapturing_eq]
    rfl
  · rfl

/-- The entry that the DISCONNECTED callback of a call appends carries the path of an open segment
only if there is none: stopping the recorder has reset the cached path by then. -/
theorem history_recordingFile_iff {s : Sys} {o : ObjId} {call : SipCall}
    (ho : s.objs[o]? = some call) {ci : CallInfo} (ended : ci.state = .disconnected)
    (env : SidecarEnv) (timestamp : String) :
    ∃ entry, (server.step s (.callState o ci env timestamp)).callHistory.getLast? = some entry ∧
      entry.phoneId = call.info.phoneId ∧ entry.timestamp = timestamp ∧
      ((∀ w, call.recorder = some w → entry.recordingFile = some w) ↔ call.recorder = none) := by
  let t : Sys := { s with objs := s.objs.set o (s.endedCall call ci env) }
  obtain ⟨entry, hlast, hphone, hstamp, hfile⟩ :=
    t.pushHistory_getLast (s.endedCall call ci env).info timestamp
  have hinfo : (s.endedCall call ci env).info.phoneId = call.info.phoneId :=
    congrArg SipCall.Skeleton.infoPhoneId (s.endedCall_track call ci env)
  refine ⟨entry, ?_, hphone.trans hinfo, hstamp, fun hcarried => ?_, fun hnone w hopen => ?_⟩
  · change (s.onCallState o ci env timestamp).callHistory.getLast? = _
    rw [Sys.onCallState_ended ho ended, Sys.onCallDisconnected_callHistory, hlast]
  · by_contra hopen
    obtain ⟨w, hw⟩ := Option.ne_none_iff_exists'.mp hopen
    have hreset : (s.endedCall call ci env).info.recordingFile = none := by
      rw [Sys.endedCall, SipCall.stopPlayer_recordingFile]
      exact SipCall.stopRecording_info _ env (Option.isSome_iff_ne_none.mpr hopen)
    have hentry := hcarried w hw
    rw [hfile, hreset] at hentry
    cases hentry
  · rw [hnone] at hopen
    cases hopen

/-- A call of a recorded phone that ends while its segment is open. -/
def endedWhileRecording : List Action :=
  [.addPhone "alice" { domain := "example.org", recordingEnabled := true } ⟨some 1, true⟩,
   .incomingCall "alice" 0 (some (.plain 0 .incoming "a")), .mediaState 0 [.active],
   .callState 0 (.plain 0 .disconnected "a") .writes "t"]

/-- Its WAV has a sidecar, and its history entry names no file. -/
theorem endedWhileRecording_unnamed :
    server.Legal (fun s a => s.filesSucceed a = true) .initial endedWhileRecording ∧
    (server.run .initial (endedWhileRecording.take 3)).objs.map SipCall.recorder =
      [some (SipCall.recordingPath "alice" 0 "stamp")] ∧
    (server.run .initial endedWhileRecording).callHistory.map HistoryEntry.recordingFile =
      [none] := by
  decide

/-- The same call at its end. -/
theorem endedWhileRecording_history :
    ∃ entry, (server.step (server.run .initial (endedWhileRecording.take 3))
        (.callState 0 (.plain 0 .disconnected "a") .writes "t")).callHistory.getLast? =
          some entry ∧
      entry.phoneId = "alice" ∧ entry.timestamp = "t" ∧
      ((∀ w, some (SipCall.recordingPath "alice" 0 "stamp") = some w →
        entry.recordingFile = some w) ↔
          some (SipCall.recordingPath "alice" 0 "stamp") = none) :=
  @history_recordingFile_iff (server.run .initial (endedWhileRecording.take 3)) 0
    ((server.run .initial (endedWhileRecording.take 3)).objs.getLast (by decide)) (by decide)
    (.plain 0 .disconnected "a") rfl .writes "t"

end PjsuaMcp.Calls
