import Mathlib.Data.List.Basic

/-!
# One SIP call object

`SipCall` carries what the Python call object carries: the cached call info,
the recording machine, the music player, and the flags that the callbacks
guard themselves with. The outcomes that the call reads from outside (is the
recordings directory writable, did the library create the recorder, which RTP
ports are in use) are arguments of the callback that reads them.

## Implementation notes

`inv` is the invite session state inside the library, `wavs` and `sidecars`
are the files the call has left on disk, and `finallyAnswered` remembers that
a final answer or a hangup was sent. The Python object does not store these
four; statements about runs are made in terms of them. Audio routing on the
conference bridge has no field: nothing reads it back.
-/

namespace PjsuaMcp.Calls

abbrev PhoneId := String
abbrev CallId := Int

/-- Invite session states of the library, in its own numbering order. -/
inductive InvState
  | null | calling | incoming | early | connecting | confirmed | disconnected
  deriving DecidableEq, Repr

inductive Direction
  | outbound | inbound
  deriving DecidableEq, Repr

/-- What `getInfo()` returns about a call. -/
structure CallInfo where
  id : CallId
  state : InvState
  stateText : String
  remoteUri : String
  lastStatusCode : Int
  lastReason : String
  duration : Int
  callIdString : String
  deriving DecidableEq, Repr

/-- The cached `_info` dictionary of a call; `state = none` is the initial `"NONE"`. -/
structure CachedInfo where
  phoneId : PhoneId
  state : Option InvState
  stateText : String
  remoteUri : String
  lastStatus : Int
  lastStatusText : String
  duration : Int
  codec : String
  recordingFile : Option String
  playingFile : Option String
  deriving DecidableEq, Repr

/-- The content of a `.meta.json` sidecar. -/
structure Sidecar where
  phoneId : PhoneId
  callId : CallId
  direction : Direction
  startedAt : Option String
  endedAt : String
  duration : Int
  codec : String
  remoteUri : String
  lastStatus : Int
  lastStatusText : String
  recording : String
  pcap : Option String
  localRtpPort : Option Int
  remoteRtpPort : Option Int
  deriving DecidableEq, Repr

/-- What is fixed when a call object is created. `sipCallId` is the SIP Call-ID
header captured then (empty when it could not be read), and `autoAnswer` says
that the call came in on a phone whose `auto_answer` was set. -/
structure CallIdentity where
  phoneId : PhoneId
  callId : CallId
  direction : Direction
  sipCallId : String
  autoAnswer : Bool
  deriving DecidableEq, Repr

structure SipCall extends CallIdentity where
  recorder : Option String
  recordingFile : Option String
  recordingStartedAt : Option String
  recordingEnabled : Bool
  codecs : Option (List String)
  pendingStart : Bool
  playerFile : Option String
  hasAudMed : Bool
  localRtpPort : Option Int
  remoteRtpPort : Option Int
  autoCaptureStarted : Bool
  info : CachedInfo
  inv : InvState
  wavs : List String
  sidecars : List Sidecar
  finallyAnswered : Bool
  deriving DecidableEq, Repr

/-- Outcome of opening a recorder: directory writable, recorder created, and the
two timestamps read on the way. -/
structure RecorderEnv where
  writable : Bool
  created : Bool
  stamp : String
  startedAt : String

/-- What `getMedTransportInfo` yields: nothing when it raises, otherwise the two
parsed ports. -/
abbrev TransportPorts := Option (Option Int × Option Int)

/-- Outcome of writing a sidecar. -/
structure SidecarEnv where
  written : Bool
  endedAt : String
  ports : TransportPorts

/-- One entry of `ci.media`, with the outcomes its handling reads. -/
structure MediaStatus where
  audioActive : Bool
  mohExists : Bool
  playerCreated : Bool
  recorder : RecorderEnv
  codecName : Option String
  ports : TransportPorts

/-- Call info that says no more than an id, a state and a Call-ID header. -/
def CallInfo.plain (c : CallId) (state : InvState) (callIdString : String) : CallInfo where
  id := c
  state := state
  stateText := ""
  remoteUri := ""
  lastStatusCode := 0
  lastReason := ""
  duration := 0
  callIdString := callIdString

/-- A recorder that opens. -/
def RecorderEnv.opens : RecorderEnv := ⟨true, true, "stamp", "start"⟩

/-- A sidecar that is written; the ports could not be read. -/
def SidecarEnv.writes : SidecarEnv := ⟨true, "end", none⟩

/-- An active audio media; there is no default music, and the recorder opens. -/
def MediaStatus.active : MediaStatus := ⟨true, false, false, .opens, none, none⟩

namespace SipCall

/-- `list(codecs) if codecs else None`. -/
def codecFilter (codecs : Option (List String)) : Option (List String) :=
  codecs.bind fun names => if names.isEmpty then none else some names

/-- A freshly constructed call object. -/
def new (identity : CallIdentity) (recordingEnabled : Bool) (codecs : Option (List String))
    (inv : InvState) : SipCall where
  toCallIdentity := identity
  recorder := none
  recordingFile := none
  recordingStartedAt := none
  recordingEnabled := recordingEnabled
  codecs := codecFilter codecs
  pendingStart := false
  playerFile := none
  hasAudMed := false
  localRtpPort := none
  remoteRtpPort := none
  autoCaptureStarted := false
  info :=
    { phoneId := identity.phoneId, state := none, stateText := "", remoteUri := "",
      lastStatus := 0, lastStatusText := "", duration := 0, codec := "",
      recordingFile := none, playingFile := none }
  inv := inv
  wavs := []
  sidecars := []
  finallyAnswered := false

/-- `isActive()`: the session exists and has not ended. -/
def isActive (call : SipCall) : Bool := call.inv ≠ .disconnected

/-! ## Recording -/

/-- `/recordings/<phone_id>/call_<call_id>_<stamp>.wav`. -/
def recordingPath (p : PhoneId) (c : CallId) (stamp : String) : String :=
  "/recordings/" ++ p ++ "/call_" ++ toString c ++ "_" ++ stamp ++ ".wav"

/-- `_start_recording`; `audMed` says whether an audio media was passed. -/
def startRecording (call : SipCall) (audMed : Bool) (env : RecorderEnv) : SipCall :=
  if !call.recordingEnabled then call
  else if call.recorder.isSome then call
  else if !audMed then { call with pendingStart := true }
  else if !env.writable then call
  else if !env.created then call
  else
    let path := recordingPath call.phoneId call.callId env.stamp
    { call with
      recorder := some path
      recordingFile := some path
      recordingStartedAt := some env.startedAt
      pendingStart := false
      info := { call.info with recordingFile := some path }
      wavs := call.wavs ++ [path] }

/-- `_reconnect_recorder`: the deferred start happens here; an open recorder is only rewired. -/
def reconnectRecorder (call : SipCall) (env : RecorderEnv) : SipCall :=
  if !call.recordingEnabled then call
  else if call.pendingStart || call.recorder.isNone then call.startRecording true env
  else call

/-- `_snapshot_rtp_ports`: a port that could not be read leaves the earlier one in place. -/
def snapshotRtpPorts (call : SipCall) (ports : TransportPorts) : SipCall :=
  match ports with
  | none => call
  | some (loc, rem) =>
      { call with
        localRtpPort := loc.or call.localRtpPort
        remoteRtpPort := rem.or call.remoteRtpPort }

/-- The meta record of the segment `path`. Both sources of the call id, `getInfo()`
and the file name, yield the id the call was created with. -/
def metaSidecar (call : SipCall) (path : String) (pcap : Option String) (env : SidecarEnv) : Sidecar where
  phoneId := call.phoneId
  callId := call.callId
  direction := call.direction
  startedAt := call.recordingStartedAt
  endedAt := env.endedAt
  duration := call.info.duration
  codec := call.info.codec
  remoteUri := call.info.remoteUri
  lastStatus := call.info.lastStatus
  lastStatusText := call.info.lastStatusText
  recording := path
  pcap := pcap
  localRtpPort := call.localRtpPort
  remoteRtpPort := call.remoteRtpPort

/-- `_write_meta_sidecar`; a failed write is logged and swallowed. -/
def writeMetaSidecar (call : SipCall) (pcap : Option String) (env : SidecarEnv) : SipCall :=
  match call.recordingFile with
  | none => call
  | some path =>
      let call := call.snapshotRtpPorts env.ports
      if env.written then
        { call with sidecars := call.sidecars ++ [call.metaSidecar path pcap env] }
      else call

/-- `_stop_recording`. -/
def stopRecording (call : SipCall) (pcap : Option String) (env : SidecarEnv) : SipCall :=
  if call.recorder.isNone then { call with pendingStart := false }
  else
    let call := call.writeMetaSidecar pcap env
    { call with
      recorder := none
      recordingFile := none
      recordingStartedAt := none
      pendingStart := false
      info := { call.info with recordingFile := none } }

/-- The body of the loop of `set_recording_enabled`, for one call. -/
def toggleRecording (call : SipCall) (enabled : Bool) (pcap : Option String)
    (rec : RecorderEnv) (env : SidecarEnv) : SipCall :=
  let call := { call with recordingEnabled := enabled }
  if enabled then
    if call.hasAudMed then call.startRecording true rec
    else { call with pendingStart := true }
  else call.stopRecording pcap env

/-! ## Playback -/

/-- `_stop_player`. -/
def stopPlayer (call : SipCall) : SipCall :=
  if call.playerFile.isSome then
    { call with playerFile := none, info := { call.info with playingFile := none } }
  else call

def defaultMohFile : String := "/app/audio/moh.wav"

/-- `_start_default_moh`; the flag says that `play_file` raised. -/
def startDefaultMoh (call : SipCall) (m : MediaStatus) : SipCall × Bool :=
  if !m.mohExists then (call, false)
  else if !m.playerCreated then (call.stopPlayer, true)
  else
    let call := call.stopPlayer
    ({ call with
        playerFile := some defaultMohFile
        info := { call.info with playingFile := some defaultMohFile } }, false)

/-! ## Callbacks -/

/-- The part of `onCallState` that refreshes the cached info. -/
def updateInfo (call : SipCall) (ci : CallInfo) : SipCall :=
  { call with
    inv := ci.state
    info :=
      { call.info with
        state := some ci.state
        stateText := ci.stateText
        remoteUri := ci.remoteUri
        lastStatus := ci.lastStatusCode
        lastStatusText := ci.lastReason
        duration := ci.duration } }

/-- The audio media is cached and the first-active flag raised. -/
def markAudioActive (call : SipCall) : SipCall :=
  { call with hasAudMed := true, autoCaptureStarted := true }

/-- A running player is only reconnected; otherwise the default music starts. -/
def ensurePlayer (call : SipCall) (m : MediaStatus) : SipCall × Bool :=
  if call.playerFile.isSome then (call, false) else call.startDefaultMoh m

/-- `_info["codec"]`, unless `getStreamInfo` raised. -/
def cacheCodec (call : SipCall) (codecName : Option String) : SipCall :=
  match codecName with
  | none => call
  | some name => { call with info := { call.info with codec := name } }

/-- The body of the loop of `onCallMediaState` for one active audio media. The flag
says that an exception left the loop. -/
def onAudioActive (call : SipCall) (m : MediaStatus) : SipCall × Bool :=
  let played := call.markAudioActive.ensurePlayer m
  if played.2 then (played.1, true)
  else
    (((played.1.reconnectRecorder m.recorder).cacheCodec m.codecName).snapshotRtpPorts m.ports,
      false)

/-- `onCallMediaState`, without the call into the manager. -/
def onCallMediaState (call : SipCall) : List MediaStatus → SipCall
  | [] => call
  | m :: rest =>
      if m.audioActive then
        if (call.onAudioActive m).2 then (call.onAudioActive m).1
        else (call.onAudioActive m).1.onCallMediaState rest
      else call.onCallMediaState rest

/-- The first active audio media of a call pokes the manager, once per call object. -/
def firesFirstActive (call : SipCall) (media : List MediaStatus) : Bool :=
  !call.autoCaptureStarted && media.any (·.audioActive)

/-! ## What the operations leave alone -/

/-- The parts of a call that recording and playback never write. -/
structure Skeleton where
  identity : CallIdentity
  infoPhoneId : PhoneId
  inv : InvState
  state : Option InvState
  finallyAnswered : Bool
  autoCaptureStarted : Bool

def skeleton (call : SipCall) : Skeleton :=
  ⟨call.toCallIdentity, call.info.phoneId, call.inv, call.info.state, call.finallyAnswered,
    call.autoCaptureStarted⟩

@[simp] theorem startRecording_skeleton (call : SipCall) (audMed : Bool) (env : RecorderEnv) :
    (call.startRecording audMed env).skeleton = call.skeleton := by
  unfold startRecording
  split_ifs <;> rfl

@[simp] theorem reconnectRecorder_skeleton (call : SipCall) (env : RecorderEnv) :
    (call.reconnectRecorder env).skeleton = call.skeleton := by
  unfold reconnectRecorder
  split_ifs <;> simp

@[simp] theorem snapshotRtpPorts_skeleton (call : SipCall) (ports : TransportPorts) :
    (call.snapshotRtpPorts ports).skeleton = call.skeleton := by
  unfold snapshotRtpPorts
  split <;> rfl

@[simp] theorem writeMetaSidecar_skeleton (call : SipCall) (pcap : Option String)
    (env : SidecarEnv) : (call.writeMetaSidecar pcap env).skeleton = call.skeleton := by
  unfold writeMetaSidecar
  split
  · rfl
  · dsimp only
    split_ifs
    · exact snapshotRtpPorts_skeleton call env.ports
    · exact snapshotRtpPorts_skeleton call env.ports

@[simp] theorem stopRecording_skeleton (call : SipCall) (pcap : Option String)
    (env : SidecarEnv) : (call.stopRecording pcap env).skeleton = call.skeleton := by
  unfold stopRecording
  split_ifs
  · rfl
  · exact writeMetaSidecar_skeleton call pcap env

@[simp] theorem toggleRecording_skeleton (call : SipCall) (enabled : Bool) (pcap : Option String)
    (rec : RecorderEnv) (env : SidecarEnv) :
    (call.toggleRecording enabled pcap rec env).skeleton = call.skeleton := by
  unfold toggleRecording
  dsimp only
  split_ifs
  · exact startRecording_skeleton _ true rec
  · rfl
  · exact stopRecording_skeleton _ pcap env

@[simp] theorem stopPlayer_skeleton (call : SipCall) :
    call.stopPlayer.skeleton = call.skeleton := by
  unfold stopPlayer
  split_ifs <;> rfl

@[simp] theorem startDefaultMoh_skeleton (call : SipCall) (m : MediaStatus) :
    (call.startDefaultMoh m).1.skeleton = call.skeleton := by
  unfold startDefaultMoh
  split_ifs
  · rfl
  · exact stopPlayer_skeleton call
  · exact stopPlayer_skeleton call

@[simp] theorem ensurePlayer_skeleton (call : SipCall) (m : MediaStatus) :
    (call.ensurePlayer m).1.skeleton = call.skeleton := by
  unfold ensurePlayer
  split_ifs
  · rfl
  · exact startDefaultMoh_skeleton call m

@[simp] theorem cacheCodec_skeleton (call : SipCall) (codecName : Option String) :
    (call.cacheCodec codecName).skeleton = call.skeleton := by
  unfold cacheCodec
  split <;> rfl

/-- Handling an active media writes exactly one of these parts: the first-active flag. -/
theorem onAudioActive_skeleton (call : SipCall) (m : MediaStatus) :
    (call.onAudioActive m).1.skeleton = { call.skeleton with autoCaptureStarted := true } := by
  have hmark : call.markAudioActive.skeleton =
      { call.skeleton with autoCaptureStarted := true } := rfl
  unfold onAudioActive
  dsimp only
  split_ifs
  · rw [ensurePlayer_skeleton, hmark]
  · rw [snapshotRtpPorts_skeleton, cacheCodec_skeleton, reconnectRecorder_skeleton,
      ensurePlayer_skeleton, hmark]

/-- The skeleton without the answer flag: what no command sent to the call changes. -/
def track (call : SipCall) : Skeleton := { call.skeleton with finallyAnswered := false }

/-- What the table tracks of a call is in its skeleton. -/
theorem track_eq_of_skeleton_eq {call call' : SipCall} (h : call'.skeleton = call.skeleton) :
    call'.track = call.track := by
  rw [track, track, h]

/-- A call without its answer flag and codec filter: what neither commands nor a new codec
list change. -/
def core (call : SipCall) : SipCall := { call with finallyAnswered := false, codecs := none }

theorem map_track_of_map_core {calls calls' : List SipCall}
    (h : calls'.map core = calls.map core) : calls'.map track = calls.map track :=
  calc calls'.map track
    _ = (calls'.map core).map track := by rw [List.map_map]; rfl
    _ = (calls.map core).map track := by rw [h]
    _ = calls.map track := by rw [List.map_map]; rfl

/-- A media callback counts the call, and leaves the rest of the skeleton alone. -/
theorem onCallMediaState_skeleton (call : SipCall) (media : List MediaStatus) :
    (call.onCallMediaState media).skeleton = { call.skeleton with
      autoCaptureStarted := call.autoCaptureStarted || media.any (·.audioActive) } := by
  induction media generalizing call with
  | nil => simp [onCallMediaState, skeleton]
  | cons m rest ih =>
      have hone := onAudioActive_skeleton call m
      cases hm : m.audioActive with
      | false => simp [onCallMediaState, hm, ih]
      | true =>
          simp only [onCallMediaState, hm, if_true, List.any_cons, Bool.true_or, Bool.or_true]
          split_ifs with hraised
          · exact hone
          · rw [ih, hone]
            have hflag : (call.onAudioActive m).1.autoCaptureStarted = true :=
              congrArg Skeleton.autoCaptureStarted hone
            simp [hflag]

end SipCall

end PjsuaMcp.Calls
