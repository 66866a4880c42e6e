import PjsuaMcp.Calls.FailedAdd
import PjsuaMcp.Calls.RecordingMachine
import PjsuaMcp.Library.BoundedDeque

/-!
# Ended calls and open transports over whole runs

A call enters the history when its DISCONNECTED callback runs, and its object
does not change any more from then on. So the history is the end of the list of
all calls that have ended, each with what its object says of it. The file of a
recording is never among that: stopping the recorder has reset the cached path
before the entry is made.

A transport is opened for every attempt to create a phone and closed with the
phone. An attempt whose account cannot be created leaves its transport behind,
and nothing closes that one any more.
-/

namespace PjsuaMcp.Calls

open Library

/-- What `_on_call_disconnected` files about a call. -/
def CachedInfo.historyEntry (info : CachedInfo) (timestamp : String) : HistoryEntry where
  phoneId := info.phoneId
  remoteUri := info.remoteUri
  duration := info.duration
  lastStatus := info.lastStatus
  lastStatusText := info.lastStatusText
  codec := info.codec
  recordingFile := info.recordingFile
  timestamp := timestamp

/-- `get_call_history`. -/
def Sys.getCallHistory (s : Sys) (phone : Option PhoneId) (lastN : Option Int) :
    List HistoryEntry :=
  lastOf lastN (phone.elim s.callHistory fun p => s.callHistory.filter fun h => h.phoneId = p)

/-- The object whose end the action reports, and the time that is filed with it. -/
def Action.ending : Action → Option (ObjId × String)
  | .callState o ci _ timestamp => if ci.state = .disconnected then some (o, timestamp) else none
  | _ => none

/-- The actions that open and close transports. -/
def Action.phoneSet : Action → Bool
  | .addPhone _ _ _ | .dropPhone _ | .reregisterPhone _ _ _ => true
  | _ => false

/-- The ends that a list of actions reports, in their order. -/
def endings (as : List Action) : List (ObjId × String) := as.filterMap Action.ending

theorem endings_concat (as : List Action) (a : Action) :
    endings (as ++ [a]) = endings as ++ a.ending.toList := by
  rw [endings, List.filterMap_append]
  cases h : a.ending with
  | none => simp [endings, h]
  | some e => simp [endings, h]

/-! ## The cached path of the open recording -/

namespace SipCall

/-- The cached info names the file of the open recorder and no other. -/
def NamesOpen (call : SipCall) : Prop := call.info.recordingFile = call.recorder

theorem NamesOpen.of_view {call call' : SipCall} (h : call.NamesOpen)
    (same : call'.machineView = call.machineView) : call'.NamesOpen := by
  simp only [machineView, Prod.mk.injEq] at same
  rw [NamesOpen, same.1.2.2.1, same.1.1]
  exact h

theorem NamesOpen.startRecording {call : SipCall} (h : call.NamesOpen) (audMed : Bool)
    (env : RecorderEnv) : (call.startRecording audMed env).NamesOpen := by
  unfold SipCall.startRecording
  split_ifs
  · exact h
  · exact h
  · exact h
  · exact h
  · exact h
  · rfl

theorem NamesOpen.reconnectRecorder {call : SipCall} (h : call.NamesOpen) (env : RecorderEnv) :
    (call.reconnectRecorder env).NamesOpen := by
  unfold SipCall.reconnectRecorder
  split_ifs
  · exact h
  · exact h.startRecording true env
  · exact h

/-- Where a recording ends, nothing is recorded and no file is named. -/
theorem NamesOpen.stopRecording {call : SipCall} (h : call.NamesOpen) (pcap : Option String)
    (env : SidecarEnv) :
    (call.stopRecording pcap env).NamesOpen ∧ (call.stopRecording pcap env).recorder = none := by
  unfold SipCall.stopRecording
  split_ifs with hnone
  · exact ⟨h, Option.isNone_iff_eq_none.mp hnone⟩
  · exact ⟨rfl, rfl⟩

theorem NamesOpen.toggleRecording {call : SipCall} (h : call.NamesOpen) (enabled : Bool)
    (pcap : Option String) (rec : RecorderEnv) (env : SidecarEnv) :
    (call.toggleRecording enabled pcap rec env).NamesOpen := by
  have hflag : { call with recordingEnabled := enabled }.NamesOpen := h
  unfold SipCall.toggleRecording
  dsimp only
  split_ifs
  · exact hflag.startRecording true rec
  · exact h
  · exact (hflag.stopRecording pcap env).1

theorem NamesOpen.onAudioActive {call : SipCall} (h : call.NamesOpen) (m : MediaStatus) :
    (call.onAudioActive m).1.NamesOpen := by
  have hmark : call.markAudioActive.NamesOpen := h
  have hplayed : (call.markAudioActive.ensurePlayer m).1.NamesOpen :=
    hmark.of_view (ensurePlayer_machineView _ m)
  unfold SipCall.onAudioActive
  dsimp only
  split_ifs
  · exact hplayed
  · apply NamesOpen.of_view _ (snapshotRtpPorts_machineView _ _)
    apply NamesOpen.of_view _ (cacheCodec_machineView _ _)
    exact hplayed.reconnectRecorder m.recorder

/-- A media callback names the file of the recorder that it opens. -/
theorem NamesOpen.onCallMediaState {call : SipCall} (h : call.NamesOpen)
    (media : List MediaStatus) : (call.onCallMediaState media).NamesOpen := by
  induction media generalizing call with
  | nil => exact h
  | cons m rest ih =>
      unfold SipCall.onCallMediaState
      split_ifs
      · exact h.onAudioActive m
      · exact ih (h.onAudioActive m)
      · exact ih h

end SipCall

namespace Sys

/-- A call that ends names no file. -/
theorem endedCall_unnamed {s : Sys} {call : SipCall} (h : call.NamesOpen) (ci : CallInfo)
    (env : SidecarEnv) : (s.endedCall call ci env).info.recordingFile = none := by
  have hupdated : (call.updateInfo ci).NamesOpen := h
  obtain ⟨hnames, hclosed⟩ := hupdated.stopRecording (s.currentPcapPathFor call.phoneId) env
  rw [endedCall, SipCall.stopPlayer_recordingFile]
  exact hnames.trans hclosed

/-- A new call names no file, and records nothing. -/
theorem newCall_names {s : Sys} {a : Action} {call : SipCall} (h : s.newCall a = some call) :
    call.NamesOpen := by
  cases a with
  | makeCall phone destUri placed =>
      cases placed with
      | none => cases h
      | some ci =>
          simp only [newCall] at h
          split at h
          · cases h
          · obtain ⟨cfg, -, rfl⟩ := Option.map_eq_some_iff.mp h
            rfl
  | incomingCall p c ci =>
      obtain ⟨cfg, -, rfl⟩ := Option.map_eq_some_iff.mp h
      rfl
  | _ => cases h

/-! ## What most actions leave alone -/

/-- The registered phones, each with its transport, in the order of registration. -/
def roster (s : Sys) : List (PhoneId × Option Int) :=
  s.phones.entries.map fun e => (e.1, e.2.transportId)

theorem keys_of_roster {s s' : Sys} (h : s'.roster = s.roster) :
    s'.phones.keys = s.phones.keys := by
  have hkeys := congrArg (List.map Prod.fst) h
  rwa [roster, roster, List.map_map, List.map_map] at hkeys

/-- Neither a call has ended nor a phone come or gone. -/
structure Settled (s s' : Sys) : Prop where
  callHistory : s'.callHistory = s.callHistory
  transports : s'.transports = s.transports
  roster : s'.roster = s.roster

theorem Settled.of_eq {s s' t : Sys} (h : s' = t) (hhistory : t.callHistory = s.callHistory)
    (htransports : t.transports = s.transports) (hphones : t.phones = s.phones) :
    s.Settled s' where
  callHistory := h ▸ hhistory
  transports := h ▸ htransports
  roster := by rw [h, Sys.roster, hphones, Sys.roster]

/-- A phone is given new settings and keeps its transport. -/
theorem Settled.of_set {s s' t : Sys} {p : PhoneId} {cfg cfg' : PhoneConfig} (h : s' = t)
    (hp : s.phones.get? p = some cfg) (hhistory : t.callHistory = s.callHistory)
    (htransports : t.transports = s.transports) (hphones : t.phones = s.phones.set p cfg')
    (hsame : cfg'.transportId = cfg.transportId) : s.Settled s' where
  callHistory := h ▸ hhistory
  transports := h ▸ htransports
  roster := by
    rw [h, Sys.roster, hphones]
    exact OrderedDict.map_entries_set hp (fun e => (e.1, e.2.transportId))
      (congrArg (Prod.mk p) hsame)

theorem settled_setCaptureEnabled (s : Sys) (p : PhoneId) (enabled : Bool) :
    s.Settled (s.setCaptureEnabled p enabled) := by
  unfold setCaptureEnabled
  cases hp : s.phones.get? p with
  | none => exact .of_eq rfl rfl rfl rfl
  | some cfg =>
      dsimp only
      split_ifs
      · exact .of_set rfl hp rfl rfl rfl rfl
      · exact .of_set rfl hp rfl rfl rfl rfl
      · exact .of_set (queueStopIfCapturing_eq _ p) hp rfl rfl rfl rfl

theorem settled_setRecordingEnabled (s : Sys) (p : PhoneId) (enabled : Bool)
    (rec : ObjId → RecorderEnv) (env : ObjId → SidecarEnv) :
    s.Settled (s.setRecordingEnabled p enabled rec env) := by
  unfold setRecordingEnabled
  cases hp : s.phones.get? p with
  | none => exact .of_eq rfl rfl rfl rfl
  | some cfg => exact .of_set rfl hp rfl rfl rfl rfl

theorem settled_setCodecsForPhone (s : Sys) (p : PhoneId) (codecs : List String) :
    s.Settled (s.setCodecsForPhone p codecs) := by
  unfold setCodecsForPhone
  cases hp : s.phones.get? p with
  | none => exact .of_eq rfl rfl rfl rfl
  | some cfg =>
      dsimp only
      obtain ⟨_, hsend, -⟩ := sendAll_eq _ _
      exact .of_set hsend hp rfl rfl rfl rfl

theorem settled_setAutoAnswer (s : Sys) (p : PhoneId) (enabled : Bool) :
    s.Settled (s.setAutoAnswer p enabled) := by
  unfold setAutoAnswer
  cases hp : s.phones.get? p with
  | none => exact .of_eq rfl rfl rfl rfl
  | some cfg => exact .of_set rfl hp rfl rfl rfl rfl

/-- Every action that changes no call's life and no phone's registration. -/
theorem step_settled (s : Sys) (a : Action) (ha : a.lifecycle = false) : s.Settled (s.step a) := by
  cases a with
  | makeCall | incomingCall | callState | mediaState => cases ha
  | addPhone | dropPhone | reregisterPhone | cleanup => cases ha
  | answerCall phone c code =>
      obtain ⟨_, _, _, h, -⟩ := s.actOnIncoming_eq phone c (.answer code)
      exact .of_eq h rfl rfl rfl
  | rejectCall phone c code =>
      obtain ⟨_, _, _, h, -⟩ := s.actOnIncoming_eq phone c (.hangup code)
      exact .of_eq h rfl rfl rfl
  | callOp op =>
      obtain ⟨_, _, h, -⟩ := s.callOp_eq op
      exact .of_eq h rfl rfl rfl
  | pollAutoAnswers => exact .of_eq rfl rfl rfl rfl
  | autoAnswerNext =>
      obtain ⟨_, _, h, -⟩ := s.autoAnswerNext_eq
      exact .of_eq h rfl rfl rfl
  | processAutoCaptures =>
      obtain ⟨_, _, _, _, h⟩ := s.drainStarts_eq s.autoCapturePendingStart
      exact .of_eq h rfl rfl rfl
  | resumeAutoCaptures stamp =>
      obtain ⟨_, _, _, _, h⟩ := s.resumeAutoCaptures_eq stamp
      exact .of_eq h rfl rfl rfl
  | setCaptureEnabled p enabled => exact s.settled_setCaptureEnabled p enabled
  | setRecordingEnabled p enabled rec env => exact s.settled_setRecordingEnabled p enabled rec env
  | setCodecsForPhone p codecs => exact s.settled_setCodecsForPhone p codecs
  | setAutoAnswer p enabled => exact s.settled_setAutoAnswer p enabled

/-- A new call, and a callback that is not the end of one, settle nothing either. -/
theorem callbacks_settled {s : Sys} {a : Action} (en : s.enabled a = true)
    (ha : a.phoneSet = false) (hending : a.ending = none) : s.Settled (s.step a) := by
  have hcreates : a.creates = true → s.Settled (s.step a) := by
    intro hnew
    rcases s.step_newCall a hnew with ⟨-, hsame⟩ | ⟨_, _, _, _, -, hstep⟩
    · exact .of_eq hsame rfl rfl rfl
    · exact .of_eq hstep rfl rfl rfl
  cases a with
  | makeCall phone destUri placed => exact hcreates rfl
  | incomingCall p c ci => exact hcreates rfl
  | callState o ci env timestamp =>
      obtain ⟨call, ho, -⟩ := exists_of_objActive en
      have hstate : ci.state ≠ .disconnected := by
        intro hstate
        rw [Action.ending, if_pos hstate] at hending
        cases hending
      exact .of_eq (onCallState_refreshed ho hstate env timestamp) rfl rfl rfl
  | mediaState o media =>
      obtain ⟨call, ho, -⟩ := exists_of_objActive en
      obtain ⟨_, _, h⟩ := onCallMediaState_eq ho media
      exact .of_eq h rfl rfl rfl
  | cleanup => exact .of_eq rfl rfl rfl rfl
  | addPhone | dropPhone | reregisterPhone => cases ha
  | _ => exact s.step_settled _ rfl

/-! ## Ended calls -/

/-- What an ended object says of its call. -/
def endEntry (s : Sys) (e : ObjId × String) : Option HistoryEntry :=
  s.objs[e.1]?.map fun call => call.info.historyEntry e.2

def Ended (s : Sys) (o : ObjId) : Prop :=
  ∃ call, s.objs[o]? = some call ∧ call.inv = .disconnected

/-- The reported ends are those of the ended objects, each reported once, and the history is the
end of that list. -/
structure Filed (s : Sys) (ends : List (ObjId × String)) : Prop where
  nodup : (ends.map Prod.fst).Nodup
  mem_iff : ∀ o, o ∈ ends.map Prod.fst ↔ s.Ended o
  history : s.callHistory = (ends.filterMap s.endEntry).rtake 100
  names : ∀ (o : ObjId) (call : SipCall), s.objs[o]? = some call → call.NamesOpen
  unnamed : ∀ (o : ObjId) (call : SipCall), s.objs[o]? = some call → call.inv = .disconnected →
    call.info.recordingFile = none

theorem core_info {call call' : SipCall} (same : call'.core = call.core) :
    call'.info = call.info ∧ call'.inv = call.inv ∧ call'.recorder = call.recorder :=
  ⟨congrArg (fun call => call.info) same, congrArg (fun call => call.inv) same,
    congrArg (fun call => call.recorder) same⟩

/-- What has ended keeps its info, and what is new or still alive has not ended. -/
structure Endures (s s' : Sys) : Prop where
  info : ∀ (o : ObjId) (call : SipCall), s.objs[o]? = some call → call.inv = .disconnected →
    ∃ call', s'.objs[o]? = some call' ∧ call'.inv = .disconnected ∧ call'.info = call.info
  ended : ∀ o, s'.Ended o → s.Ended o

/-- No step leaves a file named without its recorder. -/
theorem names_step {s : Sys} (hs : s.table.Sound) {a : Action} (en : s.enabled a = true)
    (names : ∀ (o : ObjId) (call : SipCall), s.objs[o]? = some call → call.NamesOpen) :
    ∀ (o : ObjId) (call : SipCall), (s.step a).objs[o]? = some call → call.NamesOpen := by
  intro o call' ho'
  cases (step_heap hs en).object o call' ho' with
  | kept ho same =>
      obtain ⟨hinfo, -, hrecorder⟩ := core_info same
      rw [SipCall.NamesOpen, hinfo, hrecorder]
      exact names o _ ho
  | created fresh new => exact newCall_names new
  | @refreshed call ci env timestamp ha ho state eq =>
      have hnames : call.NamesOpen := names o call ho
      rw [eq]
      exact hnames
  | @ended call ci env timestamp ha ho state eq =>
      have hnames : call.NamesOpen := names o call ho
      have hupdated : (call.updateInfo ci).NamesOpen := hnames
      rw [eq, endedCall]
      exact (hupdated.stopRecording _ env).1.of_view (SipCall.stopPlayer_machineView _)
  | @media call media ha ho eq =>
      rw [eq]
      exact (names o _ ho).onCallMediaState media
  | toggled ha ho owned eq =>
      rw [eq]
      exact (names o _ ho).toggleRecording _ _ _ _

/-- An action that reports no end ends no call and touches no ended one. -/
theorem endures_step {s : Sys} (hs : s.table.Sound) {a : Action} (en : s.enabled a = true)
    (hending : a.ending = none) : s.Endures (s.step a) := by
  have heap := step_heap hs en
  constructor
  · intro o call ho hinv
    have hlt := (List.getElem?_eq_some_iff.mp ho).1
    obtain ⟨call', ho'⟩ : ∃ call', (s.step a).objs[o]? = some call' :=
      ⟨_, List.getElem?_eq_getElem (hlt.trans_le heap.grows)⟩
    have dead : s.objActive o = false := by
      rw [objActive, ho, Option.any_some, SipCall.isActive, hinv]
      rfl
    refine ⟨call', ho', ?_⟩
    cases heap.object o call' ho' with
    | kept hold same =>
        rw [ho] at hold
        cases hold
        exact ⟨(core_info same).2.1.trans hinv, (core_info same).1⟩
    | created fresh new =>
        rw [ho] at fresh
        cases fresh
    | refreshed ha hold state eq =>
        subst ha
        exact absurd (dead.symm.trans en) Bool.false_ne_true
    | ended ha hold state eq =>
        subst ha
        exact absurd (dead.symm.trans en) Bool.false_ne_true
    | media ha hold eq =>
        subst ha
        exact absurd (dead.symm.trans en) Bool.false_ne_true
    | toggled ha hold owned eq =>
        rw [ho] at hold
        cases hold
        exact absurd hinv (live_of_mem_callsOf hs owned ho)
  · rintro o ⟨call', ho', hinv'⟩
    cases heap.object o call' ho' with
    | kept hold same => exact ⟨_, hold, (core_info same).2.1.symm.trans hinv'⟩
    | created fresh new => exact absurd hinv' (newCall_spec new en).2.1
    | refreshed ha hold state eq =>
        rw [eq] at hinv'
        exact absurd hinv' state
    | ended ha hold state eq =>
        rw [ha, Action.ending, if_pos state] at hending
        cases hending
    | @media call media ha hold eq =>
        have hinv : call'.inv = call.inv := by
          rw [eq]
          exact congrArg SipCall.Skeleton.inv (call.onCallMediaState_skeleton media)
        exact ⟨call, hold, hinv.symm.trans hinv'⟩
    | @toggled call _ _ _ _ ha hold owned eq =>
        have hinv : call'.inv = call.inv := by
          rw [eq]
          exact congrArg SipCall.Skeleton.inv (call.toggleRecording_skeleton _ _ _ _)
        exact ⟨call, hold, hinv.symm.trans hinv'⟩

/-- A step in which no call ends keeps the history right. -/
theorem Filed.endures {s s' : Sys} {ends : List (ObjId × String)} (h : s.Filed ends)
    (endures : s.Endures s') (hhistory : s'.callHistory = s.callHistory)
    (names : ∀ (o : ObjId) (call : SipCall), s'.objs[o]? = some call → call.NamesOpen) : s'.Filed ends where
  nodup := h.nodup
  mem_iff := by
    intro o
    rw [h.mem_iff]
    constructor
    · rintro ⟨call, ho, hinv⟩
      obtain ⟨call', ho', hinv', -⟩ := endures.info o call ho hinv
      exact ⟨call', ho', hinv'⟩
    · exact endures.ended o
  history := by
    rw [hhistory, h.history]
    congr 1
    apply List.filterMap_congr
    intro e he
    obtain ⟨call, ho, hinv⟩ := (h.mem_iff e.1).mp (List.mem_map_of_mem he)
    obtain ⟨call', ho', -, hinfo⟩ := endures.info e.1 call ho hinv
    rw [endEntry, endEntry, ho, ho', Option.map_some, Option.map_some, hinfo]
  names := names
  unnamed := by
    intro o call' ho' hinv'
    obtain ⟨call, ho, hinv⟩ := endures.ended o ⟨call', ho', hinv'⟩
    obtain ⟨call'', ho'', -, hinfo⟩ := endures.info o call ho hinv
    rw [ho'] at ho''
    cases ho''
    rw [hinfo]
    exact h.unnamed o call ho hinv

/-- The end of a call adds it to the list. -/
theorem Filed.ended {s s' : Sys} {ends : List (ObjId × String)} (h : s.Filed ends) {o : ObjId}
    {call closed : SipCall} {timestamp : String} (ho : s.objs[o]? = some call)
    (hlive : call.inv ≠ .disconnected) (hobjs : s'.objs = s.objs.set o closed)
    (hinv : closed.inv = .disconnected) (hunnamed : closed.info.recordingFile = none)
    (hhistory : s'.callHistory =
      (s.callHistory ++ [closed.info.historyEntry timestamp]).rtake 100)
    (names : ∀ (o : ObjId) (call : SipCall), s'.objs[o]? = some call → call.NamesOpen) :
    s'.Filed (ends ++ [(o, timestamp)]) := by
  have hself : s'.objs[o]? = some closed := by
    rw [hobjs, List.getElem?_set_self (List.getElem?_eq_some_iff.mp ho).1]
  have hother : ∀ i : ObjId, i ≠ o → s'.objs[i]? = s.objs[i]? := by
    intro i hi
    rw [hobjs, List.getElem?_set_ne (Ne.symm hi)]
  have hnew : o ∉ ends.map Prod.fst := by
    rw [h.mem_iff]
    rintro ⟨call', ho', hinv'⟩
    rw [ho] at ho'
    cases ho'
    exact hlive hinv'
  constructor
  · rw [List.map_append, List.nodup_append]
    refine ⟨h.nodup, List.nodup_singleton _, ?_⟩
    rintro i hi j hj rfl
    rw [List.mem_singleton.mp hj] at hi
    exact hnew hi
  · intro i
    rw [List.map_append, List.mem_append, h.mem_iff, List.map_singleton, List.mem_singleton]
    by_cases hi : i = o
    · subst hi
      exact ⟨fun _ => ⟨closed, hself, hinv⟩, fun _ => .inr rfl⟩
    · rw [Ended, Ended, hother i hi]
      exact ⟨fun hended => hended.resolve_right hi, fun hended => .inl hended⟩
  · have hold : ends.filterMap s'.endEntry = ends.filterMap s.endEntry := by
      apply List.filterMap_congr
      intro e he
      have hne : e.1 ≠ o := fun heq => hnew (heq ▸ List.mem_map_of_mem he)
      rw [endEntry, hother e.1 hne, endEntry]
    have hlast : [(o, timestamp)].filterMap s'.endEntry =
        [closed.info.historyEntry timestamp] := by
      simp [endEntry, hself]
    rw [List.filterMap_append, hold, hlast, ← rtake_rtake_append, ← h.history]
    exact hhistory
  · exact names
  · intro i call' hi hinv'
    by_cases heq : i = o
    · subst heq
      rw [hself] at hi
      cases hi
      exact hunnamed
    · rw [hother i heq] at hi
      exact h.unnamed i call' hi hinv'

theorem dropPhone_callHistory (s : Sys) (p : PhoneId) :
    (s.dropPhone p).callHistory = s.callHistory := by
  cases hp : s.phones.get? p with
  | none => rw [dropPhone_of_unknown hp]
  | some cfg =>
      obtain ⟨_, hdrop⟩ := dropPhone_eq hp
      rw [hdrop]
      rfl

theorem addPhone_callHistory (s : Sys) (p : PhoneId) (cfg : PhoneConfig) (out : AddOutcome) :
    (s.addPhone p cfg out).callHistory = s.callHistory := by
  obtain ⟨_, _, _, _, h⟩ := (s.dropPhone p).createPhone_eq p cfg out
  rw [addPhone, h]
  exact s.dropPhone_callHistory p

/-- The history after the end of a call. -/
theorem onCallState_callHistory {s : Sys} {o : ObjId} {call : SipCall} {ci : CallInfo}
    (ho : s.objs[o]? = some call) (hstate : ci.state = .disconnected) (env : SidecarEnv)
    (timestamp : String) : (s.onCallState o ci env timestamp).callHistory =
      (s.callHistory ++ [(s.endedCall call ci env).info.historyEntry timestamp]).rtake 100 := by
  rw [onCallState_ended ho hstate, onCallDisconnected_callHistory]
  rfl

/-- Nothing but the end of a call writes to the history. -/
theorem step_callHistory {s : Sys} {a : Action} (en : s.enabled a = true)
    (hending : a.ending = none) : (s.step a).callHistory = s.callHistory := by
  cases a with
  | addPhone p cfg out => exact s.addPhone_callHistory p cfg out
  | dropPhone p => exact s.dropPhone_callHistory p
  | reregisterPhone p creds out =>
      change (s.reregisterPhone p creds out).callHistory = s.callHistory
      rcases s.reregisterPhone_cases p creds out with ⟨-, hsame⟩ | ⟨cfg, -, hadd⟩
      · rw [hsame]
      · rw [hadd, addPhone_callHistory]
  | _ => exact (callbacks_settled en rfl hending).callHistory

theorem initial_filed : Sys.initial.Filed [] where
  nodup := List.nodup_nil
  mem_iff o :=
    ⟨fun h => (List.not_mem_nil h).elim, fun h => h.elim fun _ ended => by cases ended.1⟩
  history := rfl
  names _ _ ho := by cases ho
  unnamed _ _ ho := by cases ho

/-- Every step files the call that ends with it, and no other one. -/
theorem step_filed {s : Sys} (hs : s.table.Sound) {a : Action} (en : s.enabled a = true)
    {ends : List (ObjId × String)} (h : s.Filed ends) :
    (s.step a).Filed (ends ++ a.ending.toList) := by
  cases hending : a.ending with
  | none =>
      rw [Option.toList_none, List.append_nil]
      exact h.endures (endures_step hs en hending) (step_callHistory en hending)
        (names_step hs en h.names)
  | some e =>
      cases a with
      | callState o ci env timestamp =>
          rw [Action.ending] at hending
          split_ifs at hending with hstate
          cases hending
          obtain ⟨call, ho, hlive⟩ := exists_of_objActive en
          obtain ⟨_, untracks⟩ := onCallState_untracks hs ho hstate env timestamp
          exact h.ended ho hlive untracks.objs ((s.endedCall_inv call ci env).trans hstate)
            (endedCall_unnamed (h.names o call ho) ci env)
            (onCallState_callHistory ho hstate env timestamp) (names_step hs en h.names)
      | _ => cases hending

end Sys

/-- `get_call_history` after any run: the calls that have ended are filed once each, in the order
of their ends, with what their objects say, and the last hundred of them are kept. No entry names
a recording. -/
theorem getCallHistory_run {as : List Action}
    (legal : server.Legal (fun _ _ => True) .initial as) :
    let s := server.run .initial as
    ((endings as).map Prod.fst).Nodup ∧
      (∀ o, o ∈ (endings as).map Prod.fst ↔
        ∃ call, s.objs[o]? = some call ∧ call.inv = .disconnected) ∧
      (∀ phone lastN, s.getCallHistory phone lastN =
        lastOf lastN ((((endings as).filterMap s.endEntry).rtake 100).filter fun h =>
          phone.all fun p => h.phoneId = p)) ∧
      ∀ phone lastN, ∀ h ∈ s.getCallHistory phone lastN, h.recordingFile = none := by
  intro s
  have filed : s.Filed (endings as) := by
    apply GuardedSystem.Legal.trace_invariant (P := fun as s => s.Filed (endings as)) _ _ legal
    · exact Sys.initial_filed
    · intro as a s _ run en _ h
      rw [endings_concat]
      exact Sys.step_filed (reachable_sound run) en h
  have hanswer : ∀ phone lastN, s.getCallHistory phone lastN =
      lastOf lastN ((((endings as).filterMap s.endEntry).rtake 100).filter fun h =>
        phone.all fun p => h.phoneId = p) := by
    intro phone lastN
    rw [Sys.getCallHistory, ← filed.history]
    cases phone with
    | none =>
        congr 1
        exact (List.filter_eq_self.mpr fun _ _ => rfl).symm
    | some p => rfl
  refine ⟨filed.nodup, filed.mem_iff, hanswer, fun phone lastN h hh => ?_⟩
  rw [hanswer] at hh
  have hkept := List.mem_of_mem_drop (List.mem_of_mem_filter (mem_of_mem_lastOf hh))
  obtain ⟨e, he, hentry⟩ := List.mem_filterMap.mp hkept
  obtain ⟨call, ho, hinv⟩ := (filed.mem_iff e.1).mp (List.mem_map_of_mem he)
  rw [Sys.endEntry, ho, Option.map_some, Option.some.injEq] at hentry
  rw [← hentry]
  exact filed.unnamed e.1 call ho hinv

/-- Two calls of Alice; Bob's call ends between them, and a fourth one goes on. -/
def threeEnded : List Action :=
  [.addPhone "alice" { domain := "example.org" } ⟨some 1, true⟩,
   .addPhone "bob" { domain := "example.org" } ⟨some 2, true⟩,
   .incomingCall "alice" 0 (some (.plain 0 .incoming "a")),
   .incomingCall "bob" 1 (some (.plain 1 .incoming "b")),
   .callState 1 (.plain 1 .disconnected "b") .writes "t1",
   .incomingCall "alice" 1 (some (.plain 1 .incoming "c")),
   .incomingCall "alice" 2 (some (.plain 2 .incoming "d")),
   .callState 2 (.plain 1 .disconnected "c") .writes "t2",
   .callState 0 (.plain 0 .disconnected "a") .writes "t3"]

theorem getCallHistory_threeEnded :
    let s := server.run .initial threeEnded
    endings threeEnded = [(1, "t1"), (2, "t2"), (0, "t3")] ∧
      (∀ o, o ∈ (endings threeEnded).map Prod.fst ↔
        ∃ call, s.objs[o]? = some call ∧ call.inv = .disconnected) ∧
      (s.getCallHistory (some "alice") (some 1)).map HistoryEntry.timestamp = ["t3"] := by
  have legal : server.Legal (fun _ _ => True) .initial threeEnded := by decide
  exact ⟨by decide, (getCallHistory_run legal).2.1, by decide⟩

/-! ## Open transports -/

/-- The transport that an attempt leaves open when its account cannot be created. -/
def AddOutcome.stray (out : AddOutcome) : List Int :=
  if out.accountCreated then [] else out.transport.toList

namespace Sys

/-- The transport that an action leaves open without a phone. -/
def strayOf (s : Sys) : Action → List Int
  | .addPhone _ _ out => out.stray
  | .reregisterPhone p _ out => if s.phones.contains p then out.stray else []
  | _ => []

/-- `create_transport` answers with an id that no open transport has. -/
def freshTransport (s : Sys) : Action → Bool
  | .addPhone p _ out | .reregisterPhone p _ out =>
      out.transport.all fun t => t ∉ (s.dropPhone p).transports
  | _ => true

/-- The transports that the actions leave behind, in the order of the attempts. -/
def strays : Sys → List Action → List Int
  | _, [] => []
  | s, a :: rest => s.strayOf a ++ strays (s.step a) rest

theorem strays_concat (s : Sys) (as : List Action) (a : Action) :
    s.strays (as ++ [a]) = s.strays as ++ (server.run s as).strayOf a := by
  induction as generalizing s with
  | nil => exact List.append_nil _
  | cons b rest ih =>
      rw [List.cons_append, strays, strays, ih, List.append_assoc]
      rfl

/-- Each phone has a transport of its own, and what is open besides is stray. -/
structure Balanced (s : Sys) (strays : List Int) : Prop where
  owned : ∃ ids : List Int, (s.phones.entries.map fun e => e.2.transportId) = ids.map some ∧
    s.transports.Perm (ids ++ strays)
  nodup : s.transports.Nodup

/-- A step that opens and closes no transport. -/
theorem Balanced.of_eq {s s' : Sys} {strays : List Int} (h : s.Balanced strays)
    (htransports : s'.transports = s.transports) (hroster : s'.roster = s.roster) :
    s'.Balanced strays where
  owned := by
    obtain ⟨ids, hids, hperm⟩ := h.owned
    have hown := congrArg (List.map Prod.snd) hroster
    rw [roster, roster, List.map_map, List.map_map] at hown
    exact ⟨ids, hown.trans hids, htransports ▸ hperm⟩
  nodup := htransports ▸ h.nodup

/-- A dropped phone takes its own transport along and no other. -/
theorem Balanced.dropPhone {s : Sys} {strays : List Int} (h : s.Balanced strays) (p : PhoneId) :
    (s.dropPhone p).Balanced strays := by
  cases hp : s.phones.get? p with
  | none =>
      rw [dropPhone_of_unknown hp]
      exact h
  | some cfg =>
      obtain ⟨ids, hids, hperm⟩ := h.owned
      have hsplit := OrderedDict.entries_eq_of_get?_some hp
      rw [hsplit, List.map_append, List.map_cons] at hids
      obtain ⟨before, rest, rfl, hbefore, hrest⟩ := List.map_eq_append_iff.mp hids.symm
      obtain ⟨t, after, rfl, ht, hafter⟩ := List.map_eq_cons_iff.mp hrest
      have hnodup := hperm.nodup_iff.mp h.nodup
      have hkeep : ∀ l : List Int, t ∉ l → l.filter (fun i => some i ≠ cfg.transportId) = l := by
        intro l hl
        refine List.filter_eq_self.mpr fun i hi => decide_eq_true ?_
        rw [← ht]
        exact fun heq => hl (Option.some.inj heq ▸ hi)
      have hmiddle : (before ++ t :: (after ++ strays)).Nodup := by
        rw [List.append_assoc, List.cons_append] at hnodup
        exact hnodup
      have hout := List.nodup_middle.mp hmiddle
      have hfresh : t ∉ before ++ (after ++ strays) := (List.nodup_cons.mp hout).1
      refine ⟨⟨before ++ after, ?_, ?_⟩, ?_⟩
      · rw [dropPhone_phones, OrderedDict.entries_pop, List.map_append,
          List.map_append, hbefore, hafter]
      · rw [dropPhone_transports hp]
        refine (hperm.filter _).trans (List.Perm.of_eq ?_)
        rw [List.append_assoc, List.cons_append, List.filter_append, List.filter_cons_of_neg,
          ← List.filter_append, hkeep _ hfresh, List.append_assoc]
        rw [decide_eq_true_eq, ← ht]
        exact fun hne => hne rfl
      · rw [dropPhone_transports hp]
        exact h.nodup.filter _

/-- An attempt adds its transport to the phone it creates, or leaves it stray. -/
theorem Balanced.createPhone {s : Sys} {strays : List Int} (h : s.Balanced strays) {p : PhoneId}
    (hp : s.phones.get? p = none) (cfg : PhoneConfig) {out : AddOutcome}
    (fresh : out.transport.all (fun t => t ∉ s.transports) = true) :
    (s.createPhone p cfg out).Balanced (strays ++ out.stray) := by
  obtain ⟨ids, hids, hperm⟩ := h.owned
  unfold Sys.createPhone
  cases htransport : out.transport with
  | none =>
      have hstray : out.stray = [] := by simp [AddOutcome.stray, htransport]
      rw [hstray, List.append_nil]
      exact h
  | some tp =>
      rw [htransport, Option.all_some, decide_eq_true_eq] at fresh
      have hnodup : (s.transports ++ [tp]).Nodup := by
        rw [List.nodup_append]
        refine ⟨h.nodup, List.nodup_singleton tp, ?_⟩
        rintro i hi j hj rfl
        rw [List.mem_singleton.mp hj] at hi
        exact fresh hi
      dsimp only
      split_ifs with haccount
      · have hstray : out.stray = [] := by rw [AddOutcome.stray, if_pos haccount]
        refine ⟨⟨ids ++ [tp], ?_, ?_⟩, hnodup⟩
        · rw [List.map_append, ← hids]
          change ((s.phones.set p { cfg with transportId := some tp }).entries.map
            fun e => e.2.transportId) = _
          rw [OrderedDict.entries_set_of_get?_none hp, List.map_append]
          rfl
        · rw [hstray, List.append_nil]
          calc (s.transports ++ [tp]).Perm (ids ++ strays ++ [tp]) := hperm.append_right [tp]
            _ = ids ++ (strays ++ [tp]) := List.append_assoc _ _ _
            (ids ++ (strays ++ [tp])).Perm (ids ++ ([tp] ++ strays)) :=
              List.perm_append_comm.append_left ids
            _ = ids ++ [tp] ++ strays := (List.append_assoc _ _ _).symm
      · have hstray : out.stray = [tp] := by
          rw [AddOutcome.stray, if_neg haccount, htransport, Option.toList_some]
        refine ⟨⟨ids, hids, ?_⟩, hnodup⟩
        rw [hstray, ← List.append_assoc]
        exact hperm.append_right [tp]

/-- A phone that fails to register leaves its transport behind as a stray. -/
theorem Balanced.addPhone {s : Sys} {strays : List Int} (h : s.Balanced strays) (p : PhoneId)
    (cfg : PhoneConfig) {out : AddOutcome}
    (fresh : out.transport.all (fun t => t ∉ (s.dropPhone p).transports) = true) :
    (s.addPhone p cfg out).Balanced (strays ++ out.stray) := by
  have hgone : (s.dropPhone p).phones.get? p = none := by
    rw [dropPhone_phones, OrderedDict.get?_pop, if_pos rfl]
  exact (h.dropPhone p).createPhone hgone cfg fresh

/-- Calls and settings open and close no transport. -/
theorem step_transports {s : Sys} {a : Action} (en : s.enabled a = true)
    (ha : a.phoneSet = false) :
    (s.step a).transports = s.transports ∧ (s.step a).roster = s.roster := by
  cases hending : a.ending with
  | none =>
      have hsettled := callbacks_settled en ha hending
      exact ⟨hsettled.transports, hsettled.roster⟩
  | some e =>
      cases a with
      | callState o ci env timestamp =>
          rw [Action.ending] at hending
          split_ifs at hending with hstate
          obtain ⟨call, ho, -⟩ := exists_of_objActive en
          obtain ⟨_, hended⟩ :=
            ({ s with objs := s.objs.set o (s.endedCall call ci env) }).onCallDisconnected_eq
              (s.endedCall call ci env).info timestamp
          have hstep : s.step (.callState o ci env timestamp) = _ :=
            (onCallState_ended ho hstate env timestamp).trans hended
          rw [hstep]
          exact ⟨rfl, rfl⟩
      | _ => cases hending

/-- Every step keeps the open transports accounted for. -/
theorem step_balanced {s : Sys} {a : Action} (en : s.enabled a = true)
    (fresh : s.freshTransport a = true) {strays : List Int} (h : s.Balanced strays) :
    (s.step a).Balanced (strays ++ s.strayOf a) := by
  cases a with
  | addPhone p cfg out => exact h.addPhone p cfg fresh
  | dropPhone p =>
      change (s.dropPhone p).Balanced (strays ++ [])
      rw [List.append_nil]
      exact h.dropPhone p
  | reregisterPhone p creds out =>
      change (s.reregisterPhone p creds out).Balanced (strays ++ s.strayOf _)
      rw [strayOf, OrderedDict.contains]
      rcases s.reregisterPhone_cases p creds out with ⟨hp, hsame⟩ | ⟨cfg, hp, hadd⟩
      · rw [hsame, hp, Option.isSome_none, if_neg Bool.false_ne_true, List.append_nil]
        exact h
      · rw [hadd, hp, Option.isSome_some, if_pos rfl]
        exact h.addPhone p _ fresh
  | _ =>
      obtain ⟨htransports, hroster⟩ := step_transports en rfl
      change (s.step _).Balanced (strays ++ [])
      rw [List.append_nil]
      exact h.of_eq htransports hroster

theorem initial_balanced : Sys.initial.Balanced [] where
  owned := ⟨[], rfl, List.Perm.nil⟩
  nodup := List.nodup_nil

end Sys

/-- The open transports after any run: every registered phone has one of its own, no two of them
the same, and the others are those whose account could not be created. They stay open for good,
one for each such attempt. -/
theorem transports_run {as : List Action}
    (legal : server.Legal (fun s a => s.freshTransport a = true) .initial as) :
    let s := server.run .initial as
    s.transports.Nodup ∧ ∃ ids : List Int,
      (s.phones.entries.map fun e => e.2.transportId) = ids.map some ∧
        s.transports.Perm (ids ++ Sys.initial.strays as) := by
  have balanced : (server.run .initial as).Balanced (Sys.initial.strays as) := by
    apply GuardedSystem.Legal.trace_invariant (P := fun as s => s.Balanced (Sys.initial.strays as))
      _ _ legal
    · exact Sys.initial_balanced
    · rintro as a s rfl - en fresh h
      rw [Sys.strays_concat]
      exact Sys.step_balanced en fresh h
  exact ⟨balanced.nodup, balanced.owned⟩

/-- Bob's account cannot be created; Alice registers again under another transport. -/
def strayTransport : List Action :=
  [.addPhone "alice" { domain := "example.org" } ⟨some 1, true⟩,
   .addPhone "bob" { domain := "example.org" } ⟨some 2, false⟩,
   .reregisterPhone "alice" ⟨some "secret", none, none⟩ ⟨some 3, true⟩,
   .addPhone "carol" { domain := "example.org" } ⟨some 1, true⟩]

theorem transports_strayTransport :
    let s := server.run .initial strayTransport
    s.transports = [2, 3, 1] ∧ Sys.initial.strays strayTransport = [2] ∧
      s.transports.Nodup ∧ ∃ ids : List Int,
        (s.phones.entries.map fun e => e.2.transportId) = ids.map some ∧
          s.transports.Perm (ids ++ Sys.initial.strays strayTransport) := by
  have legal : server.Legal (fun s a => s.freshTransport a = true) .initial strayTransport := by
    decide
  exact ⟨by decide, by decide, transports_run legal⟩

end PjsuaMcp.Calls
