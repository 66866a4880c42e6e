import PjsuaMcp.Calls.Isolation
import PjsuaMcp.Calls.RecordingMachine
import PjsuaMcp.Library.ConferenceBridge

/-!
# The audio of a call on the conference bridge

The audio of a call, its player and its recorder are ports of the conference
bridge of the library, and `startTransmit` connects one with another. A port that
goes takes its connections along: the recorder and the player go with their
objects, and a re-INVITE may give the call a new audio port. The methods of
`SipCall` are read as lists of operations on these ports. `Wiring` is what a call
sees of the bridge; what its connections ought to be is told from the call alone.

## Implementation notes

A connection with an audio port that is gone cannot be made; `startTransmit`
raises, and the callers log that and go on. `play_file` raises in turn, which is
the case of `opened` being false; the player that it has created goes with it.
-/

namespace PjsuaMcp.Calls

open Library

/-- The ports of a call. -/
inductive PortKind
  | remote
  | player
  | recorder
  deriving DecidableEq, Repr

/-- The ports on the bridge: those of the call objects, and the playback device. -/
inductive Port
  | playback
  | ofCall (o : ObjId) (kind : PortKind)
  deriving DecidableEq, Repr

/-- A conference bridge with the playback device on it. -/
abbrev AudioBridge := ConferenceBridge Port .playback

/-- The connections that are made for a call. -/
inductive Wire
  | remoteToPlayback
  | playerToRemote
  | remoteToRecorder
  | playerToRecorder
  deriving DecidableEq, Repr

namespace Wire

def source : Wire → PortKind
  | remoteToPlayback => .remote
  | playerToRemote => .player
  | remoteToRecorder => .remote
  | playerToRecorder => .player

/-- The port of the call that listens; the playback device is none of them. -/
def sink : Wire → Option PortKind
  | remoteToPlayback => none
  | playerToRemote => some .remote
  | remoteToRecorder => some .recorder
  | playerToRecorder => some .recorder

def touches (wire : Wire) (kind : PortKind) : Bool :=
  wire.source = kind || wire.sink = some kind

def sourcePort (wire : Wire) (o : ObjId) : Port := .ofCall o wire.source

def sinkPort (wire : Wire) (o : ObjId) : Port :=
  match wire.sink with
  | none => .playback
  | some kind => .ofCall o kind

end Wire

/-- What a method of a call does to the ports of this call. -/
inductive PortOp
  | create (kind : PortKind)
  | destroy (kind : PortKind)
  | startTransmit (wire : Wire)
  | stopTransmit (wire : Wire)
  deriving DecidableEq, Repr

def PortOp.onBridge (o : ObjId) : PortOp → BridgeOp Port
  | create kind => .addPort (.ofCall o kind)
  | destroy kind => .removePort (.ofCall o kind)
  | startTransmit wire => .startTransmit (wire.sourcePort o) (wire.sinkPort o)
  | stopTransmit wire => .stopTransmit (wire.sourcePort o) (wire.sinkPort o)

/-- What happens to the audio port before the media callback: it may be gone, and each of the
media that are active has kept it or has a new one. -/
structure PortEnv where
  lost : Bool
  renewed : Bool

/-! ## The methods of the call -/

namespace SipCall

/-- The end of `_start_recording` and of `_reconnect_recorder`. -/
def connectRecorderPorts (call : SipCall) : List PortOp :=
  .startTransmit .remoteToRecorder ::
    if call.playerFile.isSome then [.startTransmit .playerToRecorder] else []

/-- `_start_recording`. -/
def startRecordingPorts (call : SipCall) (audMed : Bool) (env : RecorderEnv) : List PortOp :=
  if !call.recordingEnabled then []
  else if call.recorder.isSome then []
  else if !audMed then []
  else if !env.writable then []
  else if !env.created then []
  else .create .recorder :: call.connectRecorderPorts

/-- `_reconnect_recorder`. -/
def reconnectRecorderPorts (call : SipCall) (env : RecorderEnv) : List PortOp :=
  if !call.recordingEnabled then []
  else if call.pendingStart || call.recorder.isNone then call.startRecordingPorts true env
  else call.connectRecorderPorts

/-- `_stop_recording`. -/
def stopRecordingPorts (call : SipCall) : List PortOp :=
  if call.recorder.isNone then [] else [.destroy .recorder]

/-- The body of the loop of `set_recording_enabled`. -/
def toggleRecordingPorts (call : SipCall) (enabled : Bool) (rec : RecorderEnv) : List PortOp :=
  let call := { call with recordingEnabled := enabled }
  if enabled then
    if call.hasAudMed then call.startRecordingPorts true rec else []
  else call.stopRecordingPorts

/-- `_stop_player`. -/
def stopPlayerPorts (call : SipCall) : List PortOp :=
  if call.playerFile.isSome then
    (if call.hasAudMed then [.stopTransmit .playerToRemote] else []) ++ [.destroy .player]
  else []

/-- The new player is connected in `play_file`. -/
def connectPlayerPorts (call : SipCall) : List PortOp :=
  .startTransmit .playerToRemote ::
    if call.recorder.isSome then [.startTransmit .playerToRecorder] else []

/-- `play_file`. -/
def playFilePorts (call : SipCall) (opened : Bool) : List PortOp :=
  if !call.hasAudMed then []
  else if !opened then call.stopPlayerPorts
  else call.stopPlayerPorts ++ .create .player :: call.connectPlayerPorts

/-- `_start_default_moh`. -/
def startDefaultMohPorts (call : SipCall) (mohExists opened : Bool) : List PortOp :=
  if mohExists then call.playFilePorts opened else []

/-- `stop_playback`. -/
def stopPlaybackPorts (call : SipCall) (mohExists opened : Bool) : List PortOp :=
  call.stopPlayerPorts ++ call.stopPlayer.startDefaultMohPorts mohExists opened

/-- A running player is reconnected; otherwise the default music starts. -/
def ensurePlayerPorts (call : SipCall) (m : MediaStatus) : List PortOp :=
  if call.playerFile.isSome then [.startTransmit .playerToRemote]
  else call.startDefaultMohPorts m.mohExists m.playerCreated

/-- The body of the loop of `onCallMediaState` for one active audio media. -/
def onAudioActivePorts (call : SipCall) (m : MediaStatus) (fresh : Bool) : List PortOp :=
  let played := call.markAudioActive.ensurePlayer m
  (if fresh then [.create .remote] else []) ++ .startTransmit .remoteToPlayback ::
    (call.markAudioActive.ensurePlayerPorts m ++
      if played.2 then [] else played.1.reconnectRecorderPorts m.recorder)

/-- The loop of `onCallMediaState`. -/
def mediaLoopPorts (call : SipCall) (fresh : Bool) : List MediaStatus → List PortOp
  | [] => []
  | m :: rest =>
      if m.audioActive then
        if (call.onAudioActive m).2 then call.onAudioActivePorts m fresh
        else call.onAudioActivePorts m fresh ++ (call.onAudioActive m).1.mediaLoopPorts fresh rest
      else call.mediaLoopPorts fresh rest

/-- `onCallMediaState`; an active media has its port, if need be a new one. -/
def onCallMediaStatePorts (call : SipCall) (env : PortEnv) (remoteOpen : Bool)
    (media : List MediaStatus) : List PortOp :=
  (if env.lost then [.destroy .remote] else []) ++
    call.mediaLoopPorts (env.lost || env.renewed || !remoteOpen) media

/-- The end of a call: its audio port is gone, and recorder and player are stopped. -/
def onDisconnectedPorts (call : SipCall) : List PortOp :=
  .destroy .remote :: (call.stopRecordingPorts ++ call.stopPlayerPorts)

end SipCall

/-! ## What a call sees of the bridge -/

/-- Which ports of a call are on the bridge, and which of its connections are there. -/
structure Wiring where
  isOpen : PortKind → Bool
  wires : Wire → Bool

namespace Wiring

/-- Both ports of the connection are on the bridge. -/
def ready (w : Wiring) (wire : Wire) : Bool := w.isOpen wire.source && wire.sink.all w.isOpen

def apply (w : Wiring) : PortOp → Wiring
  | .create kind =>
      { isOpen := fun k => decide (k = kind) || w.isOpen k
        wires := fun wire => w.wires wire && !wire.touches kind }
  | .destroy kind =>
      { isOpen := fun k => !decide (k = kind) && w.isOpen k
        wires := fun wire => w.wires wire && !wire.touches kind }
  | .startTransmit wire =>
      { w with wires := fun other => w.wires other || decide (other = wire) && w.ready wire }
  | .stopTransmit wire =>
      { w with wires := fun other => w.wires other && !decide (other = wire) }

def after (w : Wiring) (ops : List PortOp) : Wiring := ops.foldl apply w

@[simp] theorem after_nil (w : Wiring) : w.after [] = w := rfl

@[simp] theorem after_cons (w : Wiring) (op : PortOp) (ops : List PortOp) :
    w.after (op :: ops) = (w.apply op).after ops := rfl

@[simp] theorem after_append (w : Wiring) (first second : List PortOp) :
    w.after (first ++ second) = (w.after first).after second :=
  List.foldl_append

@[simp] theorem isOpen_create (w : Wiring) (kind k : PortKind) :
    (w.apply (.create kind)).isOpen k = (decide (k = kind) || w.isOpen k) := rfl

@[simp] theorem isOpen_destroy (w : Wiring) (kind k : PortKind) :
    (w.apply (.destroy kind)).isOpen k = (!decide (k = kind) && w.isOpen k) := rfl

@[simp] theorem isOpen_startTransmit (w : Wiring) (wire : Wire) :
    (w.apply (.startTransmit wire)).isOpen = w.isOpen := rfl

@[simp] theorem isOpen_stopTransmit (w : Wiring) (wire : Wire) :
    (w.apply (.stopTransmit wire)).isOpen = w.isOpen := rfl

end Wiring

namespace AudioBridge

variable (B : AudioBridge)

/-- The part of the bridge that belongs to a call. -/
def wiring (b : B.State) (o : ObjId) : Wiring where
  isOpen kind := B.isOpen b (.ofCall o kind)
  wires wire := B.transmits b (wire.sourcePort o) (wire.sinkPort o)

/-- What the methods of a call do to the bridge. -/
def perform (b : B.State) (o : ObjId) (ops : List PortOp) : B.State :=
  B.run b (ops.map (PortOp.onBridge o))

/-- Several calls, each with its own part. -/
def performAll (b : B.State) (os : List ObjId) (ops : ObjId → List PortOp) : B.State :=
  os.foldl (fun b o => B.perform b o (ops o)) b

variable {B} {b : B.State}

theorem wiring_apply (hdevice : B.isOpen b .playback = true) (o : ObjId) (op : PortOp) :
    B.wiring (B.apply b (op.onBridge o)) o = (B.wiring b o).apply op := by
  cases op with
  | create kind =>
      simp only [wiring, Wiring.apply, ConferenceBridge.apply, PortOp.onBridge, B.isOpen_addPort,
        B.transmits_addPort, Wiring.mk.injEq]
      refine ⟨funext fun k => by simp, funext fun wire => ?_⟩
      cases wire <;> cases kind <;>
        simp [Wire.sourcePort, Wire.sinkPort, Wire.touches, Wire.source, Wire.sink]
  | destroy kind =>
      simp only [wiring, Wiring.apply, ConferenceBridge.apply, PortOp.onBridge,
        B.isOpen_removePort, B.transmits_removePort, Wiring.mk.injEq]
      refine ⟨funext fun k => by simp, funext fun wire => ?_⟩
      cases wire <;> cases kind <;>
        simp [Wire.sourcePort, Wire.sinkPort, Wire.touches, Wire.source, Wire.sink]
  | startTransmit wire =>
      simp only [wiring, Wiring.apply, ConferenceBridge.apply, PortOp.onBridge,
        B.isOpen_startTransmit, B.transmits_startTransmit, Wiring.mk.injEq]
      refine ⟨trivial, funext fun other => ?_⟩
      cases wire <;> cases other <;>
        simp [Wire.sourcePort, Wire.sinkPort, Wire.source, Wire.sink, Wiring.ready, hdevice]
  | stopTransmit wire =>
      simp only [wiring, Wiring.apply, ConferenceBridge.apply, PortOp.onBridge,
        B.isOpen_stopTransmit, B.transmits_stopTransmit, Wiring.mk.injEq]
      refine ⟨trivial, funext fun other => ?_⟩
      cases wire <;> cases other <;>
        simp [Wire.sourcePort, Wire.sinkPort, Wire.source, Wire.sink]

/-- The part of another call stays as it is. -/
theorem wiring_apply_of_ne {o other : ObjId} (hne : other ≠ o) (op : PortOp) :
    B.wiring (B.apply b (op.onBridge o)) other = B.wiring b other := by
  have hports : ∀ kind k, Port.ofCall other kind ≠ .ofCall o k := by
    intro kind k heq
    exact hne (Port.ofCall.inj heq).1
  cases op with
  | create kind =>
      simp only [wiring, ConferenceBridge.apply, PortOp.onBridge, B.isOpen_addPort,
        B.transmits_addPort, Wiring.mk.injEq]
      refine ⟨funext fun k => by simp [hports], funext fun wire => ?_⟩
      cases wire <;> simp [Wire.sourcePort, Wire.sinkPort, Wire.source, Wire.sink, hports]
  | destroy kind =>
      simp only [wiring, ConferenceBridge.apply, PortOp.onBridge, B.isOpen_removePort,
        B.transmits_removePort, Wiring.mk.injEq]
      refine ⟨funext fun k => by simp [hports], funext fun wire => ?_⟩
      cases wire <;> simp [Wire.sourcePort, Wire.sinkPort, Wire.source, Wire.sink, hports]
  | startTransmit wire =>
      simp only [wiring, ConferenceBridge.apply, PortOp.onBridge, B.isOpen_startTransmit,
        B.transmits_startTransmit, Wiring.mk.injEq]
      exact ⟨trivial, funext fun w => by simp [Wire.sourcePort, hports]⟩
  | stopTransmit wire =>
      simp only [wiring, ConferenceBridge.apply, PortOp.onBridge, B.isOpen_stopTransmit,
        B.transmits_stopTransmit, Wiring.mk.injEq]
      exact ⟨trivial, funext fun w => by simp [Wire.sourcePort, hports]⟩

/-- No call takes the playback device off the bridge. -/
theorem device_perform (hdevice : B.isOpen b .playback = true) (o : ObjId) (ops : List PortOp) :
    B.isOpen (B.perform b o ops) .playback = true := by
  apply B.isOpen_run hdevice
  intro hmem
  obtain ⟨op, -, hop⟩ := List.mem_map.mp hmem
  cases op <;> cases hop

/-- What a call does to its own ports, seen on its own wiring. -/
theorem wiring_perform (hdevice : B.isOpen b .playback = true) (o : ObjId) (ops : List PortOp) :
    B.wiring (B.perform b o ops) o = (B.wiring b o).after ops := by
  induction ops generalizing b with
  | nil => rfl
  | cons op ops ih =>
      have hstays : B.isOpen (B.apply b (op.onBridge o)) .playback = true :=
        device_perform hdevice o [op]
      rw [Wiring.after_cons, ← wiring_apply hdevice]
      exact ih hstays

/-- What a call does to its ports is not seen on the wiring of another one. -/
theorem wiring_perform_of_ne {o other : ObjId} (hne : other ≠ o) (ops : List PortOp) :
    B.wiring (B.perform b o ops) other = B.wiring b other := by
  induction ops generalizing b with
  | nil => rfl
  | cons op ops ih =>
      calc B.wiring (B.perform (B.apply b (op.onBridge o)) o ops) other
        _ = B.wiring (B.apply b (op.onBridge o)) other := ih
        _ = B.wiring b other := wiring_apply_of_ne hne op

/-- No call closes the sound device. -/
theorem device_performAll (hdevice : B.isOpen b .playback = true) (os : List ObjId)
    (ops : ObjId → List PortOp) : B.isOpen (B.performAll b os ops) .playback = true := by
  induction os generalizing b with
  | nil => exact hdevice
  | cons o os ih => exact ih (device_perform hdevice o (ops o))

/-- Connections between open ports only, after every call has done its part. -/
theorem openEnds_performAll (h : B.OpenEnds b) (os : List ObjId) (ops : ObjId → List PortOp) :
    B.OpenEnds (B.performAll b os ops) := by
  induction os generalizing b with
  | nil => exact h
  | cons o os ih => exact ih (h.run _)

/-- No call touches the part of another one, so the order of the calls does not matter. -/
theorem wiring_performAll (hdevice : B.isOpen b .playback = true) {os : List ObjId}
    (nodup : os.Nodup) (ops : ObjId → List PortOp) (o : ObjId) :
    B.wiring (B.performAll b os ops) o =
      if o ∈ os then (B.wiring b o).after (ops o) else B.wiring b o := by
  induction os generalizing b with
  | nil => rfl
  | cons first os ih =>
      obtain ⟨hfirst, hrest⟩ := List.nodup_cons.mp nodup
      have hstep : B.wiring (B.performAll b (first :: os) ops) o =
          if o ∈ os then (B.wiring (B.perform b first (ops first)) o).after (ops o)
          else B.wiring (B.perform b first (ops first)) o :=
        ih (device_perform hdevice first (ops first)) hrest
      rw [hstep]
      by_cases ho : o = first
      · subst ho
        rw [if_neg hfirst, if_pos List.mem_cons_self, wiring_perform hdevice]
      · rw [wiring_perform_of_ne ho]
        simp [ho]

/-- What is connected can be. -/
theorem ready_of_wires (ends : B.OpenEnds b) {o : ObjId} {wire : Wire}
    (hwire : (B.wiring b o).wires wire = true) : (B.wiring b o).ready wire = true := by
  obtain ⟨hsource, hsink⟩ := ends _ _ hwire
  unfold Wiring.ready
  rw [Bool.and_eq_true]
  refine ⟨hsource, ?_⟩
  cases wire with
  | remoteToPlayback => rfl
  | _ => exact hsink

/-- The methods of a call make connections of this call only. -/
theorem transmits_perform_cases {o : ObjId} {ops : List PortOp} {p q : Port}
    (h : B.transmits (B.perform b o ops) p q = true) :
    B.transmits b p q = true ∨ ∃ wire : Wire, p = wire.sourcePort o ∧ q = wire.sinkPort o := by
  obtain hold | hnew := B.transmits_run_cases h
  · exact .inl hold
  · obtain ⟨op, -, hop⟩ := List.mem_map.mp hnew
    cases op with
    | startTransmit wire =>
        cases hop
        exact .inr ⟨wire, rfl, rfl⟩
    | _ => cases hop

/-- The connections of a whole run lie within one call's ports each. -/
theorem transmits_performAll_cases {os : List ObjId} {ops : ObjId → List PortOp} {p q : Port}
    (h : B.transmits (B.performAll b os ops) p q = true) :
    B.transmits b p q = true ∨
      ∃ (o : ObjId) (wire : Wire), p = wire.sourcePort o ∧ q = wire.sinkPort o := by
  induction os generalizing b with
  | nil => exact .inl h
  | cons o os ih =>
      obtain hone | hrest := ih h
      · exact (transmits_perform_cases hone).imp_right fun hwire => ⟨o, hwire⟩
      · exact .inr hrest

end AudioBridge

/-! ## What ought to be connected -/

/-- The peer is heard on the playback device, the player by the peer, and both by the recorder. -/
def SipCall.sounds (call : SipCall) (remoteOpen : Bool) : Wire → Bool
  | .remoteToPlayback => remoteOpen
  | .playerToRemote => call.playerFile.isSome && remoteOpen
  | .remoteToRecorder => call.recorder.isSome && remoteOpen
  | .playerToRecorder => call.playerFile.isSome && call.recorder.isSome

/-- What an operation leaves unconnected, beside what was missing before. -/
def PortOp.leaves (missing : Wire → Bool) : PortOp → Wire → Bool
  | create kind => fun wire => missing wire || wire.touches kind
  | destroy kind => fun wire => missing wire && !wire.touches kind
  | startTransmit wire => fun other => missing other && !decide (other = wire)
  | stopTransmit wire => fun other => missing other || decide (other = wire)

namespace Wiring

/-- A new port is of no use to the connections of the other ones. -/
theorem ready_create (w : Wiring) {kind : PortKind} {wire : Wire}
    (h : wire.touches kind = false) : (w.apply (.create kind)).ready wire = w.ready wire := by
  revert h
  cases wire <;> cases kind <;> simp [ready, Wire.touches, Wire.source, Wire.sink]

/-- The connections that touch a closed port are no longer asked for. -/
theorem ready_destroy (w : Wiring) (kind : PortKind) (wire : Wire) :
    (w.apply (.destroy kind)).ready wire = (w.ready wire && !wire.touches kind) := by
  cases wire <;> cases kind <;> simp [ready, Wire.touches, Wire.source, Wire.sink]

/-- Ports that are on the bridge are connected, but for the missing connections. -/
def ConnectedBut (missing : Wire → Bool) (w : Wiring) : Prop :=
  ∀ wire, missing wire = false → w.ready wire = true → w.wires wire = true

namespace ConnectedBut

variable {missing : Wire → Bool} {w : Wiring}

/-- More connections may be missing. -/
theorem mono {missing' : Wire → Bool} (h : w.ConnectedBut missing)
    (le : ∀ wire, missing wire = true → missing' wire = true) : w.ConnectedBut missing' := by
  intro wire hthere
  apply h wire
  cases hmissing : missing wire with
  | false => rfl
  | true => exact absurd (le wire hmissing) (Bool.eq_false_iff.mp hthere)

/-- A port that is not on the bridge misses no connection. -/
theorem closed (h : w.ConnectedBut missing) {kind : PortKind} (hclosed : w.isOpen kind = false) :
    w.ConnectedBut fun wire => missing wire && !wire.touches kind := by
  intro wire hthere hready
  apply h wire _ hready
  have huntouched : wire.touches kind = false := by
    by_contra htouches
    cases wire <;> cases kind <;> simp_all [ready, Wire.touches, Wire.source, Wire.sink]
  simpa [huntouched] using hthere

theorem apply (h : w.ConnectedBut missing) (op : PortOp) :
    (w.apply op).ConnectedBut (op.leaves missing) := by
  intro wire hthere hready
  have hold := h wire
  cases op with
  | create kind =>
      simp only [PortOp.leaves, Bool.or_eq_false_iff] at hthere
      rw [ready_create w hthere.2] at hready
      simp [Wiring.apply, hold hthere.1 hready, hthere.2]
  | destroy kind =>
      rw [ready_destroy, Bool.and_eq_true, Bool.not_eq_true'] at hready
      simp only [PortOp.leaves, hready.2, Bool.not_false, Bool.and_true] at hthere
      simp [Wiring.apply, hold hthere hready.1, hready.2]
  | startTransmit other =>
      by_cases hwire : wire = other
      · subst hwire
        have hbefore : w.ready wire = true := hready
        simp [Wiring.apply, hbefore]
      · simp only [PortOp.leaves, hwire, decide_false, Bool.not_false, Bool.and_true] at hthere
        simp [Wiring.apply, hold hthere hready]
  | stopTransmit other =>
      simp only [PortOp.leaves, Bool.or_eq_false_iff] at hthere
      simp [Wiring.apply, hold hthere.1 hready, hthere.2]

theorem after (h : w.ConnectedBut missing) (ops : List PortOp) :
    (w.after ops).ConnectedBut (ops.foldl (fun missing op => op.leaves missing) missing) := by
  induction ops generalizing w missing with
  | nil => exact h
  | cons op ops ih => exact ih (h.apply op)

end ConnectedBut

end Wiring

/-! ## What the connections are read off -/

namespace SipCall

/-- The part of a call that its connections are read off. -/
structure AudioView where
  recorder : Option String
  playerFile : Option String
  recordingEnabled : Bool
  hasAudMed : Bool
  pendingStart : Bool

def audioView (call : SipCall) : AudioView :=
  ⟨call.recorder, call.playerFile, call.recordingEnabled, call.hasAudMed, call.pendingStart⟩

@[simp] theorem snapshotRtpPorts_audioView (call : SipCall) (ports : TransportPorts) :
    (call.snapshotRtpPorts ports).audioView = call.audioView := by
  unfold snapshotRtpPorts
  split <;> rfl

@[simp] theorem cacheCodec_audioView (call : SipCall) (codecName : Option String) :
    (call.cacheCodec codecName).audioView = call.audioView := by
  unfold cacheCodec
  split <;> rfl

theorem writeMetaSidecar_audioView (call : SipCall) (pcap : Option String) (env : SidecarEnv) :
    (call.writeMetaSidecar pcap env).audioView = call.audioView := by
  unfold writeMetaSidecar
  split
  · rfl
  · dsimp only
    split_ifs
    · exact call.snapshotRtpPorts_audioView env.ports
    · exact call.snapshotRtpPorts_audioView env.ports

theorem stopRecording_audioView (call : SipCall) (pcap : Option String) (env : SidecarEnv) :
    (call.stopRecording pcap env).audioView =
      { call.audioView with recorder := none, pendingStart := false } := by
  unfold stopRecording
  split_ifs with hnone
  · rw [audioView, audioView, Option.isNone_iff_eq_none.mp hnone]
  · have hwritten := call.writeMetaSidecar_audioView pcap env
    simp only [audioView, AudioView.mk.injEq] at hwritten ⊢
    exact ⟨trivial, hwritten.2.1, hwritten.2.2.1, hwritten.2.2.2.1, trivial⟩

theorem stopPlayer_audioView (call : SipCall) :
    call.stopPlayer.audioView = { call.audioView with playerFile := none } := by
  unfold stopPlayer
  split_ifs with hplayer
  · rfl
  · rw [Option.not_isSome_iff_eq_none] at hplayer
    rw [audioView, hplayer]

end SipCall

namespace Wiring

variable {missing : Wire → Bool} {w : Wiring}

@[simp] theorem isOpen_connectRecorder (w : Wiring) (call : SipCall) :
    (w.after call.connectRecorderPorts).isOpen = w.isOpen := by
  unfold SipCall.connectRecorderPorts
  split_ifs <;> rfl

@[simp] theorem isOpen_connectPlayer (w : Wiring) (call : SipCall) :
    (w.after call.connectPlayerPorts).isOpen = w.isOpen := by
  unfold SipCall.connectPlayerPorts
  split_ifs <;> rfl

/-- A recorder that is connected hears everything that there is. -/
theorem ConnectedBut.connectRecorder (h : w.ConnectedBut missing) (call : SipCall)
    (player : w.isOpen .player = call.playerFile.isSome) :
    (w.after call.connectRecorderPorts).ConnectedBut
      fun wire => missing wire && !wire.touches .recorder := by
  unfold SipCall.connectRecorderPorts
  split_ifs with hplayer
  · apply (h.after _).mono
    intro wire
    cases wire <;> simp [PortOp.leaves, Wire.touches, Wire.source, Wire.sink]
  · have hclosed : w.isOpen .player = false := by simpa [hplayer] using player
    have hremote := h.apply (.startTransmit .remoteToRecorder)
    apply (hremote.closed hclosed).mono
    intro wire
    cases wire <;> simp [PortOp.leaves, Wire.touches, Wire.source, Wire.sink]

/-- A player that is connected is heard by everything that there is. -/
theorem ConnectedBut.connectPlayer (h : w.ConnectedBut missing) (call : SipCall)
    (recorder : w.isOpen .recorder = call.recorder.isSome) :
    (w.after call.connectPlayerPorts).ConnectedBut
      fun wire => missing wire && !wire.touches .player := by
  unfold SipCall.connectPlayerPorts
  split_ifs with hrecorder
  · apply (h.after _).mono
    intro wire
    cases wire <;> simp [PortOp.leaves, Wire.touches, Wire.source, Wire.sink]
  · have hclosed : w.isOpen .recorder = false := by simpa [hrecorder] using recorder
    have hremote := h.apply (.startTransmit .playerToRemote)
    apply (hremote.closed hclosed).mono
    intro wire
    cases wire <;> simp [PortOp.leaves, Wire.touches, Wire.source, Wire.sink]

end Wiring

/-- The ports of the call are those that it has opened, and they are connected but for what is
missing. -/
structure Plugged (missing : Wire → Bool) (call : SipCall) (w : Wiring) : Prop where
  connected : w.ConnectedBut missing
  remote : w.isOpen .remote = true → call.hasAudMed = true
  player : w.isOpen .player = call.playerFile.isSome
  recorder : w.isOpen .recorder = call.recorder.isSome

/-- What is open or pending fits to the switches of the call as well. -/
structure WiredBut (missing : Wire → Bool) (call : SipCall) (w : Wiring) : Prop
    extends Plugged missing call w where
  switched : call.recorder.isSome = true → call.recordingEnabled = true ∧ call.hasAudMed = true
  pending : call.pendingStart = true → call.recorder = none

namespace Plugged

variable {missing : Wire → Bool} {call : SipCall} {w : Wiring}

/-- What ought to be connected is what can be. -/
theorem sounds_eq (h : Plugged missing call w) (wire : Wire) :
    call.sounds (w.isOpen .remote) wire = w.ready wire := by
  have hplayer := h.player
  have hrecorder := h.recorder
  cases wire <;>
    simp [SipCall.sounds, Wiring.ready, Wire.source, Wire.sink, hplayer, hrecorder, Bool.and_comm]

/-- A stopped recorder takes its connections along. -/
theorem stopRecording (h : Plugged missing call w) (pcap : Option String) (env : SidecarEnv) :
    WiredBut missing (call.stopRecording pcap env) (w.after call.stopRecordingPorts) := by
  have hview := call.stopRecording_audioView pcap env
  simp only [SipCall.audioView, SipCall.AudioView.mk.injEq] at hview
  obtain ⟨hrecorder, hplayer, henabled, haudio, hpending⟩ := hview
  unfold SipCall.stopRecordingPorts
  split_ifs with hnone
  · have hclosed : w.isOpen .recorder = false := by
      rw [h.recorder, Option.isNone_iff_eq_none.mp hnone]
      rfl
    refine ⟨⟨h.connected, ?_, ?_, ?_⟩, ?_, fun _ => hrecorder⟩
    · rw [haudio]
      exact h.remote
    · rw [hplayer]
      exact h.player
    · rw [hrecorder]
      exact hclosed
    · simp [hrecorder]
  · refine ⟨⟨?_, ?_, ?_, ?_⟩, ?_, fun _ => hrecorder⟩
    · apply (h.connected.apply (.destroy .recorder)).mono
      exact fun wire hwire => Bool.and_elim_left hwire
    · rw [haudio]
      simpa using h.remote
    · rw [hplayer]
      simpa using h.player
    · simp [hrecorder]
    · simp [hrecorder]

end Plugged

namespace WiredBut

variable {missing : Wire → Bool} {call : SipCall} {w : Wiring}

/-- A step that leaves the audio view of the call alone. -/
theorem of_view {call' : SipCall} (h : WiredBut missing call w)
    (same : call'.audioView = call.audioView) : WiredBut missing call' w := by
  simp only [SipCall.audioView, SipCall.AudioView.mk.injEq] at same
  obtain ⟨hrecorder, hplayer, henabled, haudio, hpending⟩ := same
  refine ⟨⟨h.connected, ?_, ?_, ?_⟩, ?_, ?_⟩
  · rw [haudio]
    exact h.remote
  · rw [hplayer]
    exact h.player
  · rw [hrecorder]
    exact h.recorder
  · rw [hrecorder, henabled, haudio]
    exact h.switched
  · rw [hpending, hrecorder]
    exact h.pending

theorem connectedBut {missing' : Wire → Bool} (h : WiredBut missing call w)
    (connected : w.ConnectedBut missing') : WiredBut missing' call w :=
  ⟨{ h.toPlugged with connected := connected }, h.switched, h.pending⟩

theorem mono {missing' : Wire → Bool} (h : WiredBut missing call w)
    (le : ∀ wire, missing wire = true → missing' wire = true) : WiredBut missing' call w :=
  h.connectedBut (h.connected.mono le)

/-- Further connections do no harm. -/
theorem of_more {w' : Wiring} (h : WiredBut missing call w) (same : w'.isOpen = w.isOpen)
    (more : ∀ wire, w.wires wire = true → w'.wires wire = true) : WiredBut missing call w' := by
  refine ⟨⟨fun wire hthere hready => more wire ?_, ?_, ?_, ?_⟩, h.switched, h.pending⟩
  · apply h.connected wire hthere
    rwa [Wiring.ready, ← same]
  · rw [same]
    exact h.remote
  · rw [same]
    exact h.player
  · rw [same]
    exact h.recorder

/-- Connecting a wire makes up for its being missing. -/
theorem startTransmit (h : WiredBut missing call w) (wire : Wire) :
    WiredBut (fun other => missing other && !decide (other = wire)) call
      (w.apply (.startTransmit wire)) :=
  ⟨⟨h.connected.apply (.startTransmit wire), h.remote, h.player, h.recorder⟩, h.switched,
    h.pending⟩

/-- Cutting a wire, which is missing from then on. -/
theorem stopTransmit (h : WiredBut missing call w) (wire : Wire) :
    WiredBut (fun other => missing other || decide (other = wire)) call
      (w.apply (.stopTransmit wire)) :=
  ⟨⟨h.connected.apply (.stopTransmit wire), h.remote, h.player, h.recorder⟩, h.switched,
    h.pending⟩

/-! ## Recorder -/

/-- A recorder that is opened is connected both ways. -/
theorem startRecording (h : WiredBut missing call w) (audio : call.hasAudMed = true)
    (env : RecorderEnv) :
    WiredBut missing (call.startRecording true env)
      (w.after (call.startRecordingPorts true env)) := by
  unfold SipCall.startRecording SipCall.startRecordingPorts
  split_ifs with hoff hopen
  · exact h
  · exact h
  · contradiction
  · exact h
  · exact h
  · refine ⟨⟨?_, ?_, ?_, ?_⟩, fun _ => ⟨by simpa using hoff, audio⟩, ?_⟩
    · have hcreated := h.connected.apply (.create .recorder)
      have hconnected := hcreated.connectRecorder call (by simpa using h.player)
      apply hconnected.mono
      intro wire
      cases wire <;> simp [PortOp.leaves, Wire.touches, Wire.source, Wire.sink]
    · simpa using h.remote
    · simpa using h.player
    · simp
    · intro hpending
      cases hpending

/-- Whatever a recorder should hear is connected with it afterwards. -/
theorem reconnectRecorder (h : WiredBut missing call w) (audio : call.hasAudMed = true)
    (env : RecorderEnv) :
    WiredBut (fun wire => missing wire && !wire.touches .recorder) (call.reconnectRecorder env)
      (w.after (call.reconnectRecorderPorts env)) := by
  have hidle : call.recorder = none →
      WiredBut (fun wire => missing wire && !wire.touches .recorder) call w := by
    intro hnone
    have hclosed : w.isOpen .recorder = false := by
      rw [h.recorder, hnone]
      rfl
    exact h.connectedBut (h.connected.closed hclosed)
  unfold SipCall.reconnectRecorder SipCall.reconnectRecorderPorts
  split_ifs with hoff hpending
  · apply hidle
    by_contra hopen
    have henabled := (h.switched (Option.isSome_iff_ne_none.mpr hopen)).1
    rw [henabled] at hoff
    cases hoff
  · rw [Bool.or_eq_true, Option.isNone_iff_eq_none] at hpending
    exact (hidle (hpending.elim h.pending id)).startRecording audio env
  · refine ⟨⟨h.connected.connectRecorder call h.player, ?_, ?_, ?_⟩, h.switched, h.pending⟩
    · simpa using h.remote
    · simpa using h.player
    · simpa using h.recorder

theorem toggleRecording (h : WiredBut missing call w) (enabled : Bool) (pcap : Option String)
    (rec : RecorderEnv) (env : SidecarEnv) :
    WiredBut missing (call.toggleRecording enabled pcap rec env)
      (w.after (call.toggleRecordingPorts enabled rec)) := by
  unfold SipCall.toggleRecording SipCall.toggleRecordingPorts
  dsimp only
  cases enabled with
  | true =>
      have hflag : WiredBut missing { call with recordingEnabled := true } w :=
        ⟨⟨h.connected, h.remote, h.player, h.recorder⟩,
          fun hopen => ⟨rfl, (h.switched hopen).2⟩, h.pending⟩
      rw [if_pos rfl, if_pos rfl]
      split_ifs with haudio
      · exact hflag.startRecording haudio rec
      · refine ⟨⟨h.connected, h.remote, h.player, h.recorder⟩, hflag.switched, fun _ => ?_⟩
        by_contra hopen
        exact haudio (h.switched (Option.isSome_iff_ne_none.mpr hopen)).2
  | false =>
      -- the switch is off while the recorder is still open
      have hflag : Plugged missing { call with recordingEnabled := false } w :=
        ⟨h.connected, h.remote, h.player, h.recorder⟩
      exact hflag.stopRecording pcap env

/-! ## Player -/

/-- A stopped player takes its connections along. -/
theorem stopPlayer (h : WiredBut missing call w) :
    WiredBut missing call.stopPlayer (w.after call.stopPlayerPorts) := by
  have hview := call.stopPlayer_audioView
  simp only [SipCall.audioView, SipCall.AudioView.mk.injEq] at hview
  obtain ⟨hrecorder, hplayer, henabled, haudio, hpending⟩ := hview
  have hswitched : call.stopPlayer.recorder.isSome = true →
      call.stopPlayer.recordingEnabled = true ∧ call.stopPlayer.hasAudMed = true := by
    rw [hrecorder, henabled, haudio]
    exact h.switched
  have hidle : call.stopPlayer.pendingStart = true → call.stopPlayer.recorder = none := by
    rw [hpending, hrecorder]
    exact h.pending
  unfold SipCall.stopPlayerPorts
  by_cases hfile : call.playerFile.isSome = true
  · have hquiet : WiredBut (fun wire => missing wire || decide (wire = .playerToRemote)) call
        (w.after (if call.hasAudMed then [.stopTransmit .playerToRemote] else [])) := by
      split_ifs
      · exact h.stopTransmit .playerToRemote
      · exact h.mono fun wire hwire => by rw [hwire, Bool.true_or]
    rw [if_pos hfile, Wiring.after_append]
    refine ⟨⟨?_, ?_, ?_, ?_⟩, hswitched, hidle⟩
    · apply (hquiet.connected.apply (.destroy .player)).mono
      intro wire
      cases wire <;> simp [PortOp.leaves, Wire.touches, Wire.source, Wire.sink]
    · rw [haudio]
      simpa using hquiet.remote
    · simp [hplayer]
    · rw [hrecorder]
      simpa using hquiet.recorder
  · rw [if_neg hfile]
    refine ⟨⟨h.connected, ?_, ?_, ?_⟩, hswitched, hidle⟩
    · rw [haudio]
      exact h.remote
    · rw [hplayer, Wiring.after_nil, h.player]
      simpa using hfile
    · rw [hrecorder]
      exact h.recorder

theorem playFile (h : WiredBut missing call w) (filePath : String) (opened : Bool) :
    WiredBut missing (call.playFile filePath opened).2 (w.after (call.playFilePorts opened)) := by
  have hstopped := h.stopPlayer
  have hview := call.stopPlayer_audioView
  simp only [SipCall.audioView, SipCall.AudioView.mk.injEq] at hview
  unfold SipCall.playFile SipCall.playFilePorts
  split_ifs
  · exact h
  · exact hstopped
  · rw [Wiring.after_append]
    refine ⟨⟨?_, ?_, ?_, ?_⟩, hstopped.switched, hstopped.pending⟩
    · have hcreated := hstopped.connected.apply (.create .player)
      have hconnected := hcreated.connectPlayer call
        (by simpa [hview.1] using hstopped.recorder)
      apply hconnected.mono
      intro wire
      cases wire <;> simp [PortOp.leaves, Wire.touches, Wire.source, Wire.sink]
    · simpa using hstopped.remote
    · simp
    · simpa using hstopped.recorder

/-- `_start_default_moh` is `play_file` on the default music, if there is one. -/
theorem startDefaultMoh_eq (audio : call.hasAudMed = true) (m : MediaStatus) :
    (call.startDefaultMoh m).1 =
      if m.mohExists then (call.playFile SipCall.defaultMohFile m.playerCreated).2 else call := by
  unfold SipCall.startDefaultMoh SipCall.playFile
  cases m.mohExists with
  | false => rfl
  | true =>
      rw [audio]
      cases m.playerCreated <;> rfl

/-- A player that is running or starts is connected with the peer afterwards. -/
theorem ensurePlayer (h : WiredBut missing call w) (audio : call.hasAudMed = true)
    (m : MediaStatus) :
    WiredBut (fun wire => missing wire && !decide (wire = .playerToRemote))
      (call.ensurePlayer m).1 (w.after (call.ensurePlayerPorts m)) := by
  unfold SipCall.ensurePlayer SipCall.ensurePlayerPorts
  split_ifs with hplayer
  · exact h.startTransmit .playerToRemote
  · -- without a player there is nothing that the peer misses
    have hclosed : w.isOpen .player = false := by simpa [hplayer] using h.player
    have hsilent :
        WiredBut (fun wire => missing wire && !decide (wire = .playerToRemote)) call w := by
      apply h.connectedBut
      apply (h.connected.closed hclosed).mono
      intro wire
      cases wire <;> simp [Wire.touches, Wire.source, Wire.sink]
    rw [startDefaultMoh_eq audio, SipCall.startDefaultMohPorts]
    split_ifs
    · exact hsilent.playFile SipCall.defaultMohFile m.playerCreated
    · exact hsilent

theorem stopPlayback (h : WiredBut missing call w) (mohExists opened : Bool) :
    WiredBut missing (call.stopPlayback mohExists opened).2
      (w.after (call.stopPlaybackPorts mohExists opened)) := by
  unfold SipCall.stopPlayback SipCall.stopPlaybackPorts SipCall.startDefaultMohPorts
  rw [Wiring.after_append]
  split_ifs
  · exact h.stopPlayer.playFile SipCall.defaultMohFile opened
  · exact h.stopPlayer

/-! ## The audio port -/

/-- A port that is gone takes its connections along. -/
theorem loseRemote (h : WiredBut missing call w) :
    WiredBut missing call (w.apply (.destroy .remote)) := by
  refine ⟨⟨?_, ?_, ?_, ?_⟩, h.switched, h.pending⟩
  · apply (h.connected.apply (.destroy .remote)).mono
    exact fun wire hwire => Bool.and_elim_left hwire
  · intro hopen
    cases hopen
  · simpa using h.player
  · simpa using h.recorder

/-- Nothing need be connected with a port that has just been opened. -/
theorem openRemote (h : WiredBut missing call w) (fresh : Bool) :
    WiredBut (fun wire => missing wire || wire.touches .remote) call.markAudioActive
      (w.after (if fresh then [.create .remote] else [])) := by
  have hswitched : call.recorder.isSome = true →
      call.markAudioActive.recordingEnabled = true ∧ call.markAudioActive.hasAudMed = true :=
    fun hopen => ⟨(h.switched hopen).1, rfl⟩
  split_ifs
  · exact ⟨⟨h.connected.apply (.create .remote), fun _ => rfl, h.player, h.recorder⟩, hswitched,
      h.pending⟩
  · have hconnected : w.ConnectedBut fun wire => missing wire || wire.touches .remote :=
      h.connected.mono fun wire hwire => by rw [hwire, Bool.true_or]
    exact ⟨⟨hconnected, fun _ => rfl, h.player, h.recorder⟩, hswitched, h.pending⟩

/-- An active media leaves everything connected, but for the recorder when an exception has ended
the callback. -/
theorem onAudioActive (h : WiredBut missing call w) (m : MediaStatus) (fresh : Bool) :
    WiredBut (fun wire => (call.onAudioActive m).2 && wire.touches .recorder)
      (call.onAudioActive m).1 (w.after (call.onAudioActivePorts m fresh)) := by
  have hplayed := ((h.openRemote fresh).startTransmit .remoteToPlayback).ensurePlayer rfl m
  unfold SipCall.onAudioActive SipCall.onAudioActivePorts
  simp only [Wiring.after_append, Wiring.after_cons]
  generalize w.after (if fresh then [.create .remote] else []) = opened at hplayed ⊢
  split_ifs
  · apply hplayed.mono
    intro wire
    cases wire <;> simp [Wire.touches, Wire.source, Wire.sink]
  · have haudio := SipCall.ensurePlayer_hasAudMed call m
    apply of_view _ (SipCall.snapshotRtpPorts_audioView _ _)
    apply of_view _ (SipCall.cacheCodec_audioView _ _)
    apply (hplayed.reconnectRecorder haudio m.recorder).mono
    intro wire
    cases wire <;> simp [Wire.touches, Wire.source, Wire.sink]

end WiredBut

namespace SipCall

/-- An exception leaves `onCallMediaState`. -/
def mediaRaises (call : SipCall) : List MediaStatus → Bool
  | [] => false
  | m :: rest =>
      if m.audioActive then
        (call.onAudioActive m).2 || (call.onAudioActive m).1.mediaRaises rest
      else call.mediaRaises rest

/-- The recorder was left behind by the last media callback that had an active media. -/
def leftBehind (call : SipCall) (failed : Bool) (media : List MediaStatus) : Bool :=
  if media.any (·.audioActive) then call.mediaRaises media else failed

/-- Where nothing was left behind before, a callback leaves behind what it fails at. -/
theorem leftBehind_false (call : SipCall) (media : List MediaStatus) :
    call.leftBehind false media = call.mediaRaises media := by
  unfold leftBehind
  split_ifs with hany
  · rfl
  · induction media with
    | nil => rfl
    | cons m rest ih =>
        simp only [List.any_cons, Bool.or_eq_true, not_or] at hany
        rw [mediaRaises, if_neg hany.1, ih hany.2]

end SipCall

namespace WiredBut

variable {call : SipCall} {w : Wiring} {failed : Bool}

/-- The loop over the media of one callback, media by media. -/
theorem mediaLoop (h : WiredBut (fun wire => failed && wire.touches .recorder) call w)
    (fresh : Bool) (media : List MediaStatus) :
    WiredBut (fun wire => call.leftBehind failed media && wire.touches .recorder)
      (call.onCallMediaState media) (w.after (call.mediaLoopPorts fresh media)) := by
  induction media generalizing call w failed with
  | nil => exact h
  | cons m rest ih =>
      cases hm : m.audioActive with
      | false =>
          have hskip := ih h
          simpa only [SipCall.leftBehind, SipCall.mediaRaises, SipCall.onCallMediaState,
            SipCall.mediaLoopPorts, List.any_cons, hm, Bool.false_or, if_false,
            Bool.false_eq_true] using hskip
      | true =>
          have hone := h.onAudioActive m fresh
          have hleft : call.leftBehind failed (m :: rest) =
              ((call.onAudioActive m).2 || (call.onAudioActive m).1.mediaRaises rest) := by
            simp [SipCall.leftBehind, SipCall.mediaRaises, hm]
          rw [hleft]
          simp only [SipCall.onCallMediaState, SipCall.mediaLoopPorts, hm, if_true]
          cases hraised : (call.onAudioActive m).2 with
          | true =>
              rw [hraised] at hone
              simpa using hone
          | false =>
              rw [hraised] at hone
              have hrest := ih hone
              rw [SipCall.leftBehind_false] at hrest
              simpa using hrest

/-- After a media callback only a recorder may not be connected. -/
theorem onCallMediaState (h : WiredBut (fun wire => failed && wire.touches .recorder) call w)
    (env : PortEnv) (remoteOpen : Bool) (media : List MediaStatus) :
    WiredBut (fun wire => call.leftBehind failed media && wire.touches .recorder)
      (call.onCallMediaState media)
      (w.after (call.onCallMediaStatePorts env remoteOpen media)) := by
  unfold SipCall.onCallMediaStatePorts
  rw [Wiring.after_append]
  cases env.lost with
  | false => exact h.mediaLoop _ media
  | true => exact h.loseRemote.mediaLoop _ media

/-! ## Both ends of a call -/

/-- A call without ports. -/
theorem silent {missing : Wire → Bool} (closed : ∀ kind, w.isOpen kind = false)
    (recorder : call.recorder = none) (player : call.playerFile = none) :
    WiredBut missing call w := by
  refine ⟨⟨fun wire _ hready => ?_, fun hopen => ?_, ?_, ?_⟩, ?_, fun _ => recorder⟩
  · rw [Wiring.ready, closed] at hready
    cases hready
  · rw [closed] at hopen
    cases hopen
  · rw [closed, player]
    rfl
  · rw [closed, recorder]
    rfl
  · simp [recorder]

/-- What the last state of a call does to its ports. -/
theorem onDisconnected {missing : Wire → Bool} (h : WiredBut missing call w) (ci : CallInfo)
    (pcap : Option String) (env : SidecarEnv) :
    WiredBut missing ((call.updateInfo ci).stopRecording pcap env).stopPlayer
      (w.after call.onDisconnectedPorts) := by
  have hupdated : WiredBut missing (call.updateInfo ci) (w.apply (.destroy .remote)) :=
    h.loseRemote.of_view rfl
  have hview := (call.updateInfo ci).stopRecording_audioView pcap env
  simp only [SipCall.audioView, SipCall.AudioView.mk.injEq] at hview
  have hplayer : ((call.updateInfo ci).stopRecording pcap env).stopPlayerPorts =
      call.stopPlayerPorts := by
    unfold SipCall.stopPlayerPorts
    rw [hview.2.1, hview.2.2.2.1]
    rfl
  have hstopped := (hupdated.toPlugged.stopRecording pcap env).stopPlayer
  rw [hplayer] at hstopped
  unfold SipCall.onDisconnectedPorts
  rw [Wiring.after_cons, Wiring.after_append]
  exact hstopped

end WiredBut

end PjsuaMcp.Calls
