import PjsuaMcp.Calls.Ledgers
import PjsuaMcp.Calls.PhoneParts

/-!
# The names of the files that calls leave

A recording is named after its phone, its call and the time of its start, and
a capture after its phone. `Naming` says which phone ids, call ids and
timestamps may occur. What is kept of a name in a call or in a sidecar is
always the name of a file that was created for this call.
-/

namespace PjsuaMcp.Calls

open Library

/-- The phone ids, call ids and timestamps that may occur in the name of a file. -/
structure Naming where
  phone : PhoneId → Bool
  call : CallId → Bool
  stamp : String → Bool

/-- A capture of the phone. -/
def Naming.IsCapture (n : Naming) (p : PhoneId) (file : String) : Prop :=
  ∃ c stamp, n.stamp stamp = true ∧ file = Sys.captureFile p c stamp

namespace SipCall

/-- The recordings and the sidecars of the call bear its name. -/
structure Named (n : Naming) (call : SipCall) : Prop where
  phone : n.phone call.phoneId = true
  id : n.call call.callId = true
  wavs : ∀ w ∈ call.wavs,
    ∃ stamp, n.stamp stamp = true ∧ w = recordingPath call.phoneId call.callId stamp
  file : ∀ path, call.recordingFile = some path → path ∈ call.wavs
  recordings : ∀ m ∈ call.sidecars, m.recording ∈ call.wavs
  owner : ∀ m ∈ call.sidecars, m.phoneId = call.phoneId ∧ m.callId = call.callId
  pcaps : ∀ m ∈ call.sidecars, ∀ file, m.pcap = some file → n.IsCapture call.phoneId file

variable {n : Naming}

/-- A step that changes neither the identity nor the files of the call. -/
theorem Named.of_view {call call' : SipCall} (h : call.Named n)
    (identity : call'.toCallIdentity = call.toCallIdentity)
    (same : call'.machineView = call.machineView) : call'.Named n := by
  have hphone : call'.phoneId = call.phoneId := congrArg CallIdentity.phoneId identity
  have hid : call'.callId = call.callId := congrArg CallIdentity.callId identity
  simp only [machineView, Prod.mk.injEq] at same
  obtain ⟨⟨-, hfile, -, -⟩, hwavs, hsidecars, -, -⟩ := same
  constructor
  · rw [hphone]
    exact h.phone
  · rw [hid]
    exact h.id
  · rw [hwavs, hphone, hid]
    exact h.wavs
  · rw [hfile, hwavs]
    exact h.file
  · rw [hsidecars, hwavs]
    exact h.recordings
  · rw [hsidecars, hphone, hid]
    exact h.owner
  · rw [hsidecars, hphone]
    exact h.pcaps

/-- A new call has no files. -/
theorem named_new {identity : CallIdentity} (hphone : n.phone identity.phoneId = true)
    (hid : n.call identity.callId = true) (recordingEnabled : Bool)
    (codecs : Option (List String)) (inv : InvState) :
    (new identity recordingEnabled codecs inv).Named n where
  phone := hphone
  id := hid
  wavs w hw := by cases hw
  file path hpath := by cases hpath
  recordings m hm := by cases hm
  owner m hm := by cases hm
  pcaps m hm := by cases hm

/-- A recorder that opens adds a WAV under the name of the call. -/
theorem Named.startRecording {call : SipCall} (h : call.Named n) (audMed : Bool)
    {env : RecorderEnv} (hstamp : n.stamp env.stamp = true) :
    (call.startRecording audMed env).Named n := by
  unfold SipCall.startRecording
  split_ifs
  · exact h
  · exact h
  · exact ⟨h.phone, h.id, h.wavs, h.file, h.recordings, h.owner, h.pcaps⟩
  · exact h
  · exact h
  · constructor
    · exact h.phone
    · exact h.id
    · intro w hw
      apply (List.mem_append.mp hw).elim (h.wavs w)
      intro hnew
      exact ⟨env.stamp, hstamp, List.mem_singleton.mp hnew⟩
    · intro path hpath
      apply List.mem_append_right
      rw [Option.some.inj hpath]
      exact List.mem_singleton_self _
    · intro m hm
      exact List.mem_append_left _ (h.recordings m hm)
    · exact h.owner
    · exact h.pcaps

/-- A reconnected recorder has a name of the same form. -/
theorem Named.reconnectRecorder {call : SipCall} (h : call.Named n) {env : RecorderEnv}
    (hstamp : n.stamp env.stamp = true) : (call.reconnectRecorder env).Named n := by
  unfold SipCall.reconnectRecorder
  split_ifs
  · exact h
  · exact h.startRecording true hstamp
  · exact h

theorem Named.snapshotRtpPorts {call : SipCall} (h : call.Named n) (ports : TransportPorts) :
    (call.snapshotRtpPorts ports).Named n := by
  apply h.of_view _ (snapshotRtpPorts_machineView call ports)
  exact congrArg Skeleton.identity (snapshotRtpPorts_skeleton call ports)

/-- The sidecar of a segment names the WAV that the recorder was opened on. -/
theorem Named.writeMetaSidecar {call : SipCall} (h : call.Named n) {pcap : Option String}
    (hpcap : ∀ file, pcap = some file → n.IsCapture call.phoneId file) (env : SidecarEnv) :
    (call.writeMetaSidecar pcap env).Named n := by
  have hports := h.snapshotRtpPorts env.ports
  have hsame := congrArg Skeleton.identity (snapshotRtpPorts_skeleton call env.ports)
  have hphone : (call.snapshotRtpPorts env.ports).phoneId = call.phoneId :=
    congrArg CallIdentity.phoneId hsame
  have hview := snapshotRtpPorts_machineView call env.ports
  simp only [machineView, Prod.mk.injEq] at hview
  unfold SipCall.writeMetaSidecar
  cases hfile : call.recordingFile with
  | none => exact h
  | some path =>
      have hpath : path ∈ (call.snapshotRtpPorts env.ports).wavs := by
        rw [hview.2.1]
        exact h.file path hfile
      dsimp only
      split_ifs
      · constructor
        · exact hports.phone
        · exact hports.id
        · exact hports.wavs
        · exact hports.file
        · intro m hm
          apply (List.mem_append.mp hm).elim (hports.recordings m)
          intro hnew
          rw [List.mem_singleton.mp hnew]
          exact hpath
        · intro m hm
          apply (List.mem_append.mp hm).elim (hports.owner m)
          intro hnew
          rw [List.mem_singleton.mp hnew]
          exact ⟨rfl, rfl⟩
        · intro m hm file hfile
          apply (List.mem_append.mp hm).elim fun hold => hports.pcaps m hold file hfile
          intro hnew
          rw [List.mem_singleton.mp hnew] at hfile
          rw [hphone]
          exact hpcap file hfile
      · exact hports

/-- The sidecar of a segment that ends names a capture of the call's own phone. -/
theorem Named.stopRecording {call : SipCall} (h : call.Named n) {pcap : Option String}
    (hpcap : ∀ file, pcap = some file → n.IsCapture call.phoneId file) (env : SidecarEnv) :
    (call.stopRecording pcap env).Named n := by
  have hwritten := h.writeMetaSidecar hpcap env
  unfold SipCall.stopRecording
  split_ifs
  · exact ⟨h.phone, h.id, h.wavs, h.file, h.recordings, h.owner, h.pcaps⟩
  · refine ⟨hwritten.phone, hwritten.id, hwritten.wavs, fun path hpath => ?_,
      hwritten.recordings, hwritten.owner, hwritten.pcaps⟩
    cases hpath

/-- Switching recording names a file at most once, on either side. -/
theorem Named.toggleRecording {call : SipCall} (h : call.Named n) (enabled : Bool)
    {pcap : Option String} (hpcap : ∀ file, pcap = some file → n.IsCapture call.phoneId file)
    {rec : RecorderEnv} (hstamp : n.stamp rec.stamp = true) (env : SidecarEnv) :
    (call.toggleRecording enabled pcap rec env).Named n := by
  have hflag : { call with recordingEnabled := enabled }.Named n :=
    ⟨h.phone, h.id, h.wavs, h.file, h.recordings, h.owner, h.pcaps⟩
  unfold SipCall.toggleRecording
  dsimp only
  split_ifs
  · exact hflag.startRecording true hstamp
  · exact ⟨h.phone, h.id, h.wavs, h.file, h.recordings, h.owner, h.pcaps⟩
  · exact hflag.stopRecording hpcap env

theorem Named.onAudioActive {call : SipCall} (h : call.Named n) {m : MediaStatus}
    (hstamp : n.stamp m.recorder.stamp = true) : (call.onAudioActive m).1.Named n := by
  have hmark : call.markAudioActive.Named n :=
    ⟨h.phone, h.id, h.wavs, h.file, h.recordings, h.owner, h.pcaps⟩
  have hplayed : (call.markAudioActive.ensurePlayer m).1.Named n :=
    hmark.of_view (congrArg Skeleton.identity (ensurePlayer_skeleton _ m))
      (ensurePlayer_machineView _ m)
  unfold SipCall.onAudioActive
  dsimp only
  split_ifs
  · exact hplayed
  · apply Named.snapshotRtpPorts
    apply Named.of_view _ (congrArg Skeleton.identity (cacheCodec_skeleton _ m.codecName))
      (cacheCodec_machineView _ m.codecName)
    exact hplayed.reconnectRecorder hstamp

/-- Every recorder that a media callback opens has a name of the same form. -/
theorem Named.onCallMediaState {call : SipCall} (h : call.Named n) {media : List MediaStatus}
    (hstamps : ∀ m ∈ media, n.stamp m.recorder.stamp = true) :
    (call.onCallMediaState media).Named n := by
  induction media generalizing call with
  | nil => exact h
  | cons m rest ih =>
      have hstamp := hstamps m List.mem_cons_self
      have hrest := fun m hm => hstamps m (List.mem_cons_of_mem _ hm)
      unfold SipCall.onCallMediaState
      split_ifs
      · exact h.onAudioActive hstamp
      · exact ih (h.onAudioActive hstamp) hrest
      · exact ih h hrest

end SipCall

/-- The actions that start and stop captures. -/
def Action.drains : Action → Bool
  | .processAutoCaptures | .resumeAutoCaptures _ => true
  | _ => false

namespace Sys

/-- The phone ids, call ids and timestamps that an action brings along. -/
def keepsTo (n : Naming) (s : Sys) : Action → Bool
  | .makeCall _ _ (some ci) => n.call ci.id
  | .incomingCall _ c _ => n.call c
  | .mediaState _ media => media.all fun m => n.stamp m.recorder.stamp
  | .setRecordingEnabled _ _ rec _ =>
      (List.range s.objs.length).all fun o => n.stamp (rec o).stamp
  | .resumeAutoCaptures stamp => n.stamp stamp
  | .addPhone p _ _ => n.phone p
  | _ => true

/-- All phones, captures and calls keep to the naming. -/
structure Named (n : Naming) (s : Sys) : Prop where
  phones : ∀ p ∈ s.phones.keys, n.phone p = true
  captures : ∀ p capture, s.phoneProcesses.get? p = some capture → n.IsCapture p capture.file
  calls : ∀ (o : ObjId) (call : SipCall), s.objs[o]? = some call → call.Named n

variable {n : Naming}

/-! ## Running captures -/

theorem dropPhone_captures (s : Sys) (p : PhoneId) :
    (s.dropPhone p).phoneProcesses = s.phoneProcesses := by
  cases hp : s.phones.get? p with
  | none => rw [dropPhone_of_unknown hp]
  | some cfg =>
      obtain ⟨_, hdrop⟩ := dropPhone_eq hp
      rw [hdrop]
      rfl

theorem addPhone_captures (s : Sys) (p : PhoneId) (cfg : PhoneConfig) (out : AddOutcome) :
    (s.addPhone p cfg out).phoneProcesses = s.phoneProcesses := by
  obtain ⟨_, _, _, _, hcreate⟩ := (s.dropPhone p).createPhone_eq p cfg out
  calc (s.addPhone p cfg out).phoneProcesses
    _ = (s.dropPhone p).phoneProcesses := by rw [addPhone, hcreate]
    _ = s.phoneProcesses := s.dropPhone_captures p

/-- Captures start and stop only where the two queues are drained. -/
theorem step_captures (s : Sys) {a : Action} (en : s.enabled a = true) (ha : a.drains = false) :
    (s.step a).phoneProcesses = s.phoneProcesses := by
  have of_eq : ∀ {s' t : Sys}, s' = t → t.phoneProcesses = s.phoneProcesses →
      s'.phoneProcesses = s.phoneProcesses := by
    rintro s' t rfl h
    exact h
  have hcreates : a.creates = true → (s.step a).phoneProcesses = s.phoneProcesses := by
    intro hnew
    rcases s.step_newCall a hnew with ⟨-, hsame⟩ | ⟨_, _, _, _, -, hstep⟩
    · rw [hsame]
    · rw [hstep]
      rfl
  cases a with
  | makeCall phone destUri placed => exact hcreates rfl
  | incomingCall p c ci => exact hcreates rfl
  | callState o ci env timestamp =>
      obtain ⟨call, ho, -⟩ := exists_of_objActive en
      change (s.onCallState o ci env timestamp).phoneProcesses = s.phoneProcesses
      by_cases hstate : ci.state = .disconnected
      · obtain ⟨_, hended⟩ := onCallDisconnected_eq
          { s with objs := s.objs.set o (s.endedCall call ci env) }
          (s.endedCall call ci env).info timestamp
        rw [onCallState_ended ho hstate, hended]
        rfl
      · rw [onCallState_refreshed ho hstate]
  | mediaState o media =>
      obtain ⟨call, ho, -⟩ := exists_of_objActive en
      obtain ⟨_, _, h⟩ := onCallMediaState_eq ho media
      exact of_eq h rfl
  | answerCall phone c code =>
      obtain ⟨_, _, _, h, -⟩ := s.actOnIncoming_eq phone c (.answer code)
      exact of_eq h rfl
  | rejectCall phone c code =>
      obtain ⟨_, _, _, h, -⟩ := s.actOnIncoming_eq phone c (.hangup code)
      exact of_eq h rfl
  | callOp op =>
      obtain ⟨_, _, h, -⟩ := s.callOp_eq op
      exact of_eq h rfl
  | pollAutoAnswers => rfl
  | autoAnswerNext =>
      obtain ⟨_, _, h, -⟩ := s.autoAnswerNext_eq
      exact of_eq h rfl
  | processAutoCaptures => cases ha
  | resumeAutoCaptures stamp => cases ha
  | setCaptureEnabled p enabled =>
      obtain ⟨_, _, _, h⟩ := s.setCaptureEnabled_eq p enabled
      exact of_eq h rfl
  | setRecordingEnabled p enabled rec env =>
      obtain ⟨_, _, h, -⟩ := s.setRecordingEnabled_eq p enabled rec env
      exact of_eq h rfl
  | setCodecsForPhone p codecs =>
      obtain ⟨_, _, _, h, -⟩ := s.setCodecsForPhone_eq p codecs
      exact of_eq h rfl
  | setAutoAnswer p enabled =>
      change (s.setAutoAnswer p enabled).phoneProcesses = s.phoneProcesses
      unfold setAutoAnswer
      split <;> rfl
  | addPhone p cfg out => exact s.addPhone_captures p cfg out
  | dropPhone p => exact s.dropPhone_captures p
  | reregisterPhone p creds out =>
      change (s.reregisterPhone p creds out).phoneProcesses = s.phoneProcesses
      rcases s.reregisterPhone_cases p creds out with ⟨-, hsame⟩ | ⟨cfg, -, hadd⟩
      · rw [hsame]
      · rw [hadd, addPhone_captures]
  | cleanup => rfl

/-- The captures of `s'` are among those of `s`. -/
def FewerCaptures (s s' : Sys) : Prop :=
  ∀ p capture, s'.phoneProcesses.get? p = some capture → s.phoneProcesses.get? p = some capture

/-- Stops take captures away. -/
theorem drainStops_fewer (s : Sys) (stops : List PhoneId) :
    s.FewerCaptures (s.drainStops stops) := by
  induction stops with
  | nil => exact fun _ _ h => h
  | cons p rest ih =>
      unfold drainStops
      split_ifs
      · intro q capture h
        change (s.phoneProcesses.pop p).get? q = some capture at h
        rw [OrderedDict.get?_pop] at h
        split_ifs at h
        exact h
      · exact ih

/-- The starts that are served before the next stamp add no capture. -/
theorem drainStarts_fewer (s : Sys) (starts : List (PhoneId × Option CallId)) :
    s.FewerCaptures (s.drainStarts starts) := by
  induction starts with
  | nil => exact drainStops_fewer _ s.autoCapturePendingStop
  | cons e rest ih =>
      unfold drainStarts
      split_ifs
      · exact ih
      · exact fun _ _ h => h

/-- A capture that is new is that of the phone whose start has been awaited. -/
theorem resume_captures (s : Sys) (stamp : String) {p : PhoneId} {capture : PhoneCapture}
    (h : (s.resumeAutoCaptures stamp).phoneProcesses.get? p = some capture) :
    s.phoneProcesses.get? p = some capture ∨ ∃ c, capture.file = captureFile p c stamp := by
  unfold resumeAutoCaptures at h
  cases hdrain : s.drain with
  | idle =>
      simp only [hdrain] at h
      exact .inl h
  | starting q c =>
      simp only [hdrain] at h
      have hset := drainStarts_fewer _ _ p capture h
      change (s.phoneProcesses.set q _).get? p = some capture at hset
      rw [OrderedDict.get?_set] at hset
      split_ifs at hset with hq
      · right
        cases hset
        exact ⟨c, by rw [hq]⟩
      · exact .inl hset
  | stopping q =>
      simp only [hdrain] at h
      exact .inl (drainStops_fewer _ _ p capture h)

/-- Every capture keeps to the naming after a step. -/
theorem step_isCapture {s : Sys} {a : Action} (en : s.enabled a = true)
    (names : s.keepsTo n a = true)
    (h : ∀ p capture, s.phoneProcesses.get? p = some capture → n.IsCapture p capture.file) :
    ∀ p capture, (s.step a).phoneProcesses.get? p = some capture →
      n.IsCapture p capture.file := by
  intro p capture hget
  cases hdrains : a.drains with
  | false =>
      rw [s.step_captures en hdrains] at hget
      exact h p capture hget
  | true =>
      cases a with
      | processAutoCaptures => exact h p capture (drainStarts_fewer s _ p capture hget)
      | resumeAutoCaptures stamp =>
          apply (s.resume_captures stamp hget).elim (h p capture)
          rintro ⟨c, hfile⟩
          exact ⟨c, stamp, names, hfile⟩
      | _ => cases hdrains

/-! ## Registered phones -/

/-- Registering a phone adds no other name to the roster. -/
theorem addPhone_named {s : Sys} (h : ∀ q ∈ s.phones.keys, n.phone q = true) {p : PhoneId}
    (hp : n.phone p = true) (cfg : PhoneConfig) (out : AddOutcome) :
    ∀ q ∈ (s.addPhone p cfg out).phones.keys, n.phone q = true := by
  intro q hq
  by_cases heq : q = p
  · rw [heq]
    exact hp
  · have hpart : (s.addPhone p cfg out).phones.get? q = s.phones.get? q :=
      congrArg PhonePart.config (s.part_addPhone_of_ne heq cfg out)
    apply h q
    rw [OrderedDict.mem_keys_iff, ← hpart, ← OrderedDict.mem_keys_iff]
    exact hq

theorem step_phones {s : Sys} {a : Action} (en : s.enabled a = true)
    (names : s.keepsTo n a = true) (h : ∀ q ∈ s.phones.keys, n.phone q = true) :
    ∀ q ∈ (s.step a).phones.keys, n.phone q = true := by
  cases a with
  | addPhone p cfg out => exact addPhone_named h names cfg out
  | dropPhone p =>
      intro q hq
      apply h q
      rw [show (s.step (.dropPhone p)).phones = s.phones.pop p from s.dropPhone_phones p,
        OrderedDict.pop, OrderedDict.keys_filterKeys] at hq
      exact List.mem_of_mem_filter hq
  | reregisterPhone p creds out =>
      change ∀ q ∈ (s.reregisterPhone p creds out).phones.keys, n.phone q = true
      rcases s.reregisterPhone_cases p creds out with ⟨-, hsame⟩ | ⟨cfg, hp, hadd⟩
      · rw [hsame]
        exact h
      · rw [hadd]
        apply addPhone_named h _ _ out
        exact h p ((OrderedDict.mem_keys_iff _ _).mpr ⟨cfg, hp⟩)
  | _ =>
      rw [keys_of_roster (step_transports en rfl).2]
      exact h

/-! ## Calls -/

/-- A new call belongs to a phone that is registered. -/
theorem newCall_named {s : Sys} {a : Action} {call : SipCall} (names : s.keepsTo n a = true)
    (h : ∀ q ∈ s.phones.keys, n.phone q = true) (new : s.newCall a = some call) :
    call.Named n := by
  have hphone : ∀ {p cfg}, s.phones.get? p = some cfg → n.phone p = true := fun hp =>
    h _ ((OrderedDict.mem_keys_iff _ _).mpr ⟨_, hp⟩)
  cases a with
  | makeCall phone destUri placed =>
      cases placed with
      | none => cases new
      | some ci =>
          simp only [newCall] at new
          split at new
          · cases new
          · obtain ⟨cfg, hp, rfl⟩ := Option.map_eq_some_iff.mp new
            have hid : n.call ci.id = true := names
            exact SipCall.named_new (hphone hp) hid _ _ _
  | incomingCall p c ci =>
      obtain ⟨cfg, hp, rfl⟩ := Option.map_eq_some_iff.mp new
      have hid : n.call c = true := names
      exact SipCall.named_new (hphone hp) hid _ _ _
  | _ => cases new

/-- What `current_pcap_path_for` answers is the file of a capture of that phone. -/
theorem isCapture_of_current {s : Sys}
    (h : ∀ p capture, s.phoneProcesses.get? p = some capture → n.IsCapture p capture.file)
    (p : PhoneId) (file : String) (hfile : s.currentPcapPathFor p = some file) :
    n.IsCapture p file := by
  obtain ⟨capture, hget, rfl⟩ := Option.map_eq_some_iff.mp hfile
  exact h p capture hget

/-- Whatever a step does, the files of every call keep their form. -/
theorem step_calls {s : Sys} (hs : s.table.Sound) {a : Action} (en : s.enabled a = true)
    (names : s.keepsTo n a = true) (h : s.Named n) :
    ∀ (o : ObjId) (call : SipCall), (s.step a).objs[o]? = some call → call.Named n := by
  intro o call' ho'
  have hpcap := isCapture_of_current h.captures
  cases (step_heap hs en).object o call' ho' with
  | @kept call ho same =>
      have hidentity : call'.toCallIdentity = call.toCallIdentity :=
        congrArg (fun call => call.toCallIdentity) same
      have hview : call'.machineView = call.machineView :=
        calc call'.machineView
          _ = call'.core.machineView := rfl
          _ = call.core.machineView := by rw [same]
          _ = call.machineView := rfl
      exact (h.calls o call ho).of_view hidentity hview
  | created fresh new => exact newCall_named names h.phones new
  | @refreshed call ci env timestamp ha ho state eq =>
      rw [eq]
      exact (h.calls o call ho).of_view rfl rfl
  | @ended call ci env timestamp ha ho state eq =>
      have hupdated : (call.updateInfo ci).Named n := (h.calls o call ho).of_view rfl rfl
      have hstopped := hupdated.stopRecording (hpcap call.phoneId) env
      rw [eq, endedCall]
      apply hstopped.of_view _ (SipCall.stopPlayer_machineView _)
      exact congrArg SipCall.Skeleton.identity (SipCall.stopPlayer_skeleton _)
  | @media call media ha ho eq =>
      subst ha
      rw [eq]
      exact (h.calls o call ho).onCallMediaState (List.all_eq_true.mp names)
  | @toggled call p enabled rec env ha ho owned eq =>
      subst ha
      have hlt := (List.getElem?_eq_some_iff.mp ho).1
      rw [eq]
      apply (h.calls o call ho).toggleRecording enabled (hpcap call.phoneId)
      exact List.all_eq_true.mp names o (List.mem_range.mpr hlt)

theorem named_initial : Sys.initial.Named n where
  phones p hp := by cases hp
  captures p capture hp := by cases hp
  calls o call ho := by cases ho

/-- Names keep their form under every step that keeps to it. -/
theorem step_named {s : Sys} (hs : s.table.Sound) {a : Action} (en : s.enabled a = true)
    (names : s.keepsTo n a = true) (h : s.Named n) : (s.step a).Named n where
  phones := step_phones en names h.phones
  captures := step_isCapture en names h.captures
  calls := step_calls hs en names h

end Sys

/-- Along every run that keeps to a naming, so does everything that is kept of a name. -/
theorem reach_named {n : Naming} {s : Sys}
    (run : server.Reach (fun s a => s.keepsTo n a = true) s) : s.Named n := by
  have hsound := fun s (run : server.Reach (fun s a => s.keepsTo n a = true) s) =>
    reachable_sound run.reachable
  apply run.invariant_using hsound
  · exact Sys.named_initial
  · exact fun s a en names hs h => Sys.step_named hs en names h

end PjsuaMcp.Calls
