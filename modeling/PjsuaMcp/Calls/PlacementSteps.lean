import PjsuaMcp.Calls.Placement

/-!
# What a turn of the switchboard can do

`Effect` says once what each turn does to the calls, their objects and the
configs, with what it has found; everything else in the state of the managers
is left open. Two settings of a call object follow the config of its phone, and
no callback touches them.
-/

namespace PjsuaMcp.Calls

open Library

/-- What `update_phone` changes in a call object. -/
structure Settings where
  recordingEnabled : Bool
  codecs : Option (List String)
  deriving DecidableEq, Repr

def PhoneConfig.settings (cfg : PhoneConfig) : Settings :=
  ⟨cfg.recordingEnabled, SipCall.codecFilter cfg.codecs⟩

/-- The settings after the change. -/
def Change.on : Change → Settings → Settings
  | codecs names, x => { x with codecs := SipCall.codecFilter (some names) }
  | recordingEnabled enabled, x => { x with recordingEnabled := enabled }

@[simp] theorem Change.on_on (change : Change) (x : Settings) :
    change.on (change.on x) = change.on x := by
  cases change <;> rfl

/-- A change to the config is a change to its settings. -/
@[simp] theorem Change.write_settings (change : Change) (cfg : PhoneConfig) :
    (change.write cfg).settings = change.on cfg.settings := by
  cases change <;> rfl

namespace SipCall

def settings (call : SipCall) : Settings := ⟨call.recordingEnabled, call.codecs⟩

/-! ## What keeps the settings of a call -/

@[simp] theorem startRecording_settings (call : SipCall) (audMed : Bool) (env : RecorderEnv) :
    (call.startRecording audMed env).settings = call.settings := by
  unfold startRecording
  split_ifs <;> rfl

@[simp] theorem reconnectRecorder_settings (call : SipCall) (env : RecorderEnv) :
    (call.reconnectRecorder env).settings = call.settings := by
  unfold reconnectRecorder
  split_ifs <;> simp

@[simp] theorem snapshotRtpPorts_settings (call : SipCall) (ports : TransportPorts) :
    (call.snapshotRtpPorts ports).settings = call.settings := by
  unfold snapshotRtpPorts
  split <;> rfl

@[simp] theorem writeMetaSidecar_settings (call : SipCall) (pcap : Option String)
    (env : SidecarEnv) : (call.writeMetaSidecar pcap env).settings = call.settings := by
  unfold writeMetaSidecar
  split
  · rfl
  · dsimp only
    split_ifs
    · exact snapshotRtpPorts_settings call env.ports
    · exact snapshotRtpPorts_settings call env.ports

/-- The end of a recording leaves the settings alone. -/
@[simp] theorem stopRecording_settings (call : SipCall) (pcap : Option String)
    (env : SidecarEnv) : (call.stopRecording pcap env).settings = call.settings := by
  unfold stopRecording
  split_ifs
  · rfl
  · exact writeMetaSidecar_settings call pcap env

/-- The toggle turns its own switch. -/
theorem toggleRecording_settings (call : SipCall) (enabled : Bool) (pcap : Option String)
    (rec : RecorderEnv) (env : SidecarEnv) :
    (call.toggleRecording enabled pcap rec env).settings =
      (Change.recordingEnabled enabled).on call.settings := by
  unfold toggleRecording
  dsimp only
  split_ifs
  · exact startRecording_settings _ true rec
  · rfl
  · exact stopRecording_settings _ pcap env

@[simp] theorem stopPlayer_settings (call : SipCall) :
    call.stopPlayer.settings = call.settings := by
  unfold stopPlayer
  split_ifs <;> rfl

@[simp] theorem startDefaultMoh_settings (call : SipCall) (m : MediaStatus) :
    (call.startDefaultMoh m).1.settings = call.settings := by
  unfold startDefaultMoh
  split_ifs
  · rfl
  · exact stopPlayer_settings call
  · exact stopPlayer_settings call

@[simp] theorem ensurePlayer_settings (call : SipCall) (m : MediaStatus) :
    (call.ensurePlayer m).1.settings = call.settings := by
  unfold ensurePlayer
  split_ifs
  · rfl
  · exact startDefaultMoh_settings call m

@[simp] theorem cacheCodec_settings (call : SipCall) (codecName : Option String) :
    (call.cacheCodec codecName).settings = call.settings := by
  unfold cacheCodec
  split <;> rfl

theorem onAudioActive_settings (call : SipCall) (m : MediaStatus) :
    (call.onAudioActive m).1.settings = call.settings := by
  have hmark : call.markAudioActive.settings = call.settings := rfl
  unfold onAudioActive
  dsimp only
  split_ifs
  · rw [ensurePlayer_settings, hmark]
  · rw [snapshotRtpPorts_settings, cacheCodec_settings, reconnectRecorder_settings,
      ensurePlayer_settings, hmark]

theorem onCallMediaState_settings (call : SipCall) (media : List MediaStatus) :
    (call.onCallMediaState media).settings = call.settings := by
  induction media generalizing call with
  | nil => rfl
  | cons m rest ih =>
      have hone := onAudioActive_settings call m
      rw [onCallMediaState]
      split_ifs
      · exact hone
      · rw [ih, hone]
      · exact ih call

/-- The object is the same call in the same state of its session. -/
structure Alike (call call' : SipCall) : Prop where
  identity : call'.toCallIdentity = call.toCallIdentity
  phone : call'.info.phoneId = call.info.phoneId
  inv : call'.inv = call.inv
  state : call'.info.state = call.info.state

/-- A step that leaves the skeleton and the settings alone. -/
theorem Alike.of_skeleton {call call' : SipCall} (h : call'.skeleton = call.skeleton) :
    call.Alike call' where
  identity := congrArg Skeleton.identity h
  phone := congrArg Skeleton.infoPhoneId h
  inv := congrArg Skeleton.inv h
  state := congrArg Skeleton.state h

/-- The objects of a heap in which one has been replaced by a like one. -/
theorem Alike.of_set {call call' : SipCall} (alike : call.Alike call') {objs : List SipCall}
    {o i : Nat} {x : SipCall} (ho : objs[o]? = some call) (hx : (objs.set o call')[i]? = some x) :
    ∃ y, objs[i]? = some y ∧ x.inv = y.inv ∧ x.callId = y.callId := by
  obtain ⟨rfl, rfl⟩ | ⟨-, hold⟩ := cell_of_set hx
  · exact ⟨call, ho, alike.inv, congrArg CallIdentity.callId alike.identity⟩
  · exact ⟨x, hold, rfl, rfl⟩

/-- A media callback leaves everything alone that a placement reads. -/
theorem alike_onCallMediaState (call : SipCall) (media : List MediaStatus) :
    call.Alike (call.onCallMediaState media) := by
  have hskeleton := onCallMediaState_skeleton call media
  exact ⟨congrArg Skeleton.identity hskeleton, congrArg Skeleton.infoPhoneId hskeleton,
    congrArg Skeleton.inv hskeleton, congrArg Skeleton.state hskeleton⟩

/-- Closing the files of a call leaves everything alone that a placement reads. -/
theorem alike_closed (call : SipCall) (pcap : Option String) (env : SidecarEnv) :
    call.Alike (call.stopRecording pcap env).stopPlayer :=
  .of_skeleton ((stopPlayer_skeleton _).trans (stopRecording_skeleton call pcap env))

end SipCall

/-! ## The calls of a state -/

/-- The states agree on the tracked calls, the call objects and the configs. -/
structure Sys.SameCalls (s s' : Sys) : Prop where
  calls : s'.calls = s.calls
  callPhone : s'.callPhone = s.callPhone
  objs : s'.objs = s.objs
  phones : s'.phones = s.phones

namespace Sys

theorem SameCalls.refl (s : Sys) : s.SameCalls s := ⟨rfl, rfl, rfl, rfl⟩

/-- The table depends on the calls only. -/
theorem SameCalls.table {s s' : Sys} (h : s.SameCalls s') : s'.table = s.table := by
  rw [Sys.table, h.calls, h.callPhone, h.objs, Sys.table]

theorem sameCalls_track (s : Sys) (sipCallId : String) (owner : OwnerInfo) :
    s.SameCalls (s.trackSipCallId sipCallId owner) := by
  obtain ⟨index, heq⟩ := s.trackSipCallId_eq sipCallId owner
  rw [heq]
  exact ⟨rfl, rfl, rfl, rfl⟩

/-- What `_on_call_disconnected` does to the calls. -/
theorem sameCalls_disconnected (s : Sys) (info : CachedInfo) (timestamp : String) :
    (s.untrack s.staleIds).SameCalls (s.onCallDisconnected info timestamp) := by
  obtain ⟨history, heq⟩ := s.onCallDisconnected_eq info timestamp
  rw [heq]
  exact ⟨rfl, rfl, rfl, rfl⟩

theorem sameCalls_media {s : Sys} {o : ObjId} {call : SipCall} (ho : s.objs[o]? = some call)
    (media : List MediaStatus) :
    Sys.SameCalls { s with objs := s.objs.set o (call.onCallMediaState media) }
      (s.onCallMediaState o media) := by
  obtain ⟨_, _, heq⟩ := onCallMediaState_eq ho media
  rw [heq]
  exact ⟨rfl, rfl, rfl, rfl⟩

end Sys

/-- A change of one call object. -/
theorem Change.apply_calls {change : Change} {s : Sys} {o : ObjId} {call : SipCall}
    (rec : RecorderEnv) (env : SidecarEnv) :
    ∃ call', call.Alike call' ∧ call'.settings = change.on call.settings ∧
      Sys.SameCalls { s with objs := s.objs.set o call' } (change.apply s o call rec env) := by
  cases change with
  | codecs names =>
      refine ⟨{ call with codecs := SipCall.codecFilter (some names) }, ⟨rfl, rfl, rfl, rfl⟩, rfl, ?_⟩
      simp only [Change.apply]
      split_ifs
      · exact ⟨rfl, rfl, rfl, rfl⟩
      · exact .refl _
  | recordingEnabled enabled =>
      exact ⟨_, .of_skeleton (SipCall.toggleRecording_skeleton call enabled _ rec env),
        SipCall.toggleRecording_settings call enabled _ rec env, .refl _⟩

/-! ## The effects of a turn -/

namespace Switchboard

/-- What a turn may do. -/
inductive Effect (w : Switchboard) : Turn → Switchboard → Prop
  | idle {a} : Effect w a w
  /-- `make_call` has begun; it may have raised already. -/
  | planned {a placing} (unborn : placing.object? = none)
      (config : ∀ p cfg destUri, placing = .built p cfg destUri → w.sys.phones.get? p = some cfg) :
      Effect w a { w with placings := w.placings ++ [placing] }
  | failed {a k placing} (hk : w.placings[k]? = some placing)
      (unregistered : ∀ o, placing ≠ .returned o) : Effect w a (w.setPlacing k .raised)
  | placed {k p cfg destUri ci} (hk : w.placings[k]? = some (.built p cfg destUri)) :
      Effect w (.place k (some ci))
        { w.setPlacing k (.placed w.sys.objs.length destUri) with
          sys := w.sys.pushCall (Sys.outboundCall p cfg ci) }
  | arrived {p cfg c ci} (hcfg : w.sys.phones.get? p = some cfg) :
      Effect w (.incoming p c ci)
        { w with
          placings := w.placings ++ [.arriving w.sys.objs.length]
          sys := w.sys.pushCall (Sys.inboundCall p cfg c ci) }
  | registered {k o call destUri ci sys} (hk : w.placings[k]? = some (.placed o destUri))
      (ho : w.sys.objs[o]? = some call) (same : (w.sys.registerCall o call).SameCalls sys) :
      Effect w (.register k (some ci)) { w.setPlacing k (.returned o) with sys := sys }
  | enqueued {k o call ci sys} (hk : w.placings[k]? = some (.arriving o))
      (ho : w.sys.objs[o]? = some call) (same : (w.sys.registerCall o call).SameCalls sys) :
      Effect w (.enqueue k ci) { w.setPlacing k (.returned o) with sys := sys }
  | refreshed {o call ci} (ho : w.sys.objs[o]? = some call) :
      Effect w (.callState o ci)
        { w with
          sys := w.sys.refreshInfo o call ci
          callbacks := w.callbacks.set o
            (if ci.state = .disconnected then .ending else .emitting ci.state) }
  | closed {o call call' env timestamp sys} (hcallback : w.callbacks.get? o = some .ending)
      (ho : w.sys.objs[o]? = some call) (alike : call.Alike call')
      (settings : call'.settings = call.settings)
      (same : (Sys.untrack { w.sys with objs := w.sys.objs.set o call' }
        (Sys.staleIds { w.sys with objs := w.sys.objs.set o call' })).SameCalls sys) :
      Effect w (.disconnect o env timestamp)
        { w with sys := sys, callbacks := w.callbacks.set o (.emitting .disconnected) }
  | emitted {o call state} (hcallback : w.callbacks.get? o = some (.emitting state))
      (ho : w.sys.objs[o]? = some call) :
      Effect w (.emit o)
        { w with
          callbacks := w.callbacks.pop o
          announced := w.announced ++ [⟨o, state, w.ownTracked o call⟩] }
  | changed {o call call' media sys} (ho : w.sys.objs[o]? = some call) (alike : call.Alike call')
      (settings : call'.settings = call.settings)
      (same : Sys.SameCalls { w.sys with objs := w.sys.objs.set o call' } sys) :
      Effect w (.mediaState o media) { w with sys := sys }
  | written {p cfg change} (hcfg : w.sys.phones.get? p = some cfg) :
      Effect w (.write p change)
        { w with
          sys := { w.sys with phones := w.sys.phones.set p (change.write cfg) }
          update := some ⟨p, change, none⟩ }
  | taken {p change} (hupdate : w.update = some ⟨p, change, none⟩) :
      Effect w .take { w with update := some ⟨p, change, some (w.sys.callsOf p)⟩ }
  | applied {rec env p change o rest call call' sys}
      (hupdate : w.update = some ⟨p, change, some (o :: rest)⟩)
      (ho : w.sys.objs[o]? = some call) (alike : call.Alike call')
      (settings : call'.settings = change.on call.settings)
      (same : Sys.SameCalls { w.sys with objs := w.sys.objs.set o call' } sys) :
      Effect w (.apply rec env) { w with sys := sys, update := some ⟨p, change, some rest⟩ }
  | skipped {rec env p change o rest} (hupdate : w.update = some ⟨p, change, some (o :: rest)⟩)
      (ho : w.sys.objs[o]? = none) :
      Effect w (.apply rec env) { w with update := some ⟨p, change, some rest⟩ }
  | finished {rec env p change} (hupdate : w.update = some ⟨p, change, some []⟩) :
      Effect w (.apply rec env) { w with update := none }

variable (w : Switchboard)

/-- The first turn of `make_call` puts the call object on the heap. -/
theorem construct_effect (phone : Option PhoneId) (destUri : String) :
    Effect w (.construct phone destUri) (w.construct phone destUri) := by
  unfold construct
  split
  · exact .planned rfl fun p cfg destUri h => by cases h
  · split
    · exact .planned rfl fun p cfg destUri h => by cases h
    · next p _ _ cfg hcfg =>
        refine .planned rfl fun p' cfg' destUri' h => ?_
        cases h
        exact hcfg

/-- The second turn of `make_call` places the call. -/
theorem place_effect (k : Nat) (placed : Option CallInfo) :
    Effect w (.place k placed) (w.place k placed) := by
  unfold place
  split
  · next hk =>
      split
      · exact .failed hk fun o h => by cases h
      · exact .placed hk
  · exact .idle

/-- The third turn of `make_call` files the call under its id. -/
theorem register_effect (k : Nat) (info : Option CallInfo) :
    Effect w (.register k info) (w.register k info) := by
  unfold register
  split
  · next hk =>
      split
      · next ho => exact .registered hk ho (Sys.sameCalls_track _ _ _)
      · exact .failed hk fun o h => by cases h
  · exact .idle

/-- An incoming call is created and filed in one turn. -/
theorem incoming_effect (p : PhoneId) (c : CallId) (ci : Option CallInfo) :
    Effect w (.incoming p c ci) (w.incoming p c ci) := by
  unfold incoming
  split
  · exact .idle
  · next hcfg => exact .arrived hcfg

/-- An incoming call is queued in the turn after its creation. -/
theorem enqueue_effect (k : Nat) (ci : Option CallInfo) :
    Effect w (.enqueue k ci) (w.enqueue k ci) := by
  unfold enqueue
  split
  · next o hk =>
      split
      · next call ho =>
          have htrack := Sys.sameCalls_track ((w.sys.registerCall o call).enqueueCall call)
            (Sys.capturedCallId ci)
            { phoneId := call.phoneId, pjsuaCallId := call.callId,
              remoteUri := (ci.map CallInfo.remoteUri).getD "" }
          exact .enqueued hk ho ⟨htrack.calls, htrack.callPhone, htrack.objs, htrack.phones⟩
      · exact .idle
  · exact .idle

/-- A state callback rewrites its call. -/
theorem callState_effect (o : ObjId) (ci : CallInfo) :
    Effect w (.callState o ci) (w.callState o ci) := by
  unfold callState
  split
  · exact .idle
  · next ho => exact .refreshed ho

/-- The end of a call takes it out of the table. -/
theorem disconnect_effect (o : ObjId) (env : SidecarEnv) (timestamp : String) :
    Effect w (.disconnect o env timestamp) (w.disconnect o env timestamp) := by
  unfold disconnect
  split
  · next call hcallback ho =>
      exact .closed hcallback ho (SipCall.alike_closed call _ env) (by simp)
        (Sys.sameCalls_disconnected _ _ timestamp)
  · exact .idle

theorem emit_effect (o : ObjId) : Effect w (.emit o) (w.emit o) := by
  unfold emit
  split
  · next hcallback ho => exact .emitted hcallback ho
  · exact .idle

/-- A media callback rewrites its call. -/
theorem mediaState_effect (o : ObjId) (media : List MediaStatus) :
    Effect w (.mediaState o media) { w with sys := w.sys.onCallMediaState o media } := by
  cases ho : w.sys.objs[o]? with
  | none =>
      rw [Sys.onCallMediaState_of_unknown ho]
      exact .idle
  | some call =>
      exact .changed ho (SipCall.alike_onCallMediaState call media)
        (SipCall.onCallMediaState_settings call media) (Sys.sameCalls_media ho media)

/-- An update writes the config before it reaches the calls. -/
theorem write_effect (p : PhoneId) (change : Change) :
    Effect w (.write p change) (w.write p change) := by
  unfold write
  split
  · exact .idle
  · next hcfg => exact .written hcfg

/-- An update takes the next call that it has to reach. -/
theorem take_effect : Effect w .take w.take := by
  unfold take
  split
  · next hupdate => exact .taken hupdate
  · exact .idle

/-- An update hands its change on to the call that it has taken. -/
theorem apply_effect (rec : RecorderEnv) (env : SidecarEnv) :
    Effect w (.apply rec env) (w.apply rec env) := by
  unfold apply
  split
  · next hupdate => exact .finished hupdate
  · next hupdate =>
      split
      · next ho =>
          obtain ⟨call', alike, settings, same⟩ := Change.apply_calls rec env
          exact .applied hupdate ho alike settings same
      · next ho => exact .skipped hupdate ho
  · exact .idle

/-- What each turn does, case by case. -/
theorem step_effect (a : Turn) : Effect w a (w.step a) := by
  cases a with
  | construct phone destUri => exact w.construct_effect phone destUri
  | place k placed => exact w.place_effect k placed
  | register k info => exact w.register_effect k info
  | incoming p c ci => exact w.incoming_effect p c ci
  | enqueue k ci => exact w.enqueue_effect k ci
  | callState o ci => exact w.callState_effect o ci
  | disconnect o env timestamp => exact w.disconnect_effect o env timestamp
  | emit o => exact w.emit_effect o
  | mediaState o media => exact w.mediaState_effect o media
  | write p change => exact w.write_effect p change
  | take => exact w.take_effect
  | apply rec env => exact w.apply_effect rec env

end Switchboard

/-! ## The tables of a switchboard -/

namespace Sys

/-- An object on the heap that is not in the table. -/
theorem pushCall_table (s : Sys) (call : SipCall) :
    (s.pushCall call).table = s.table.push call.track := by
  simp [table, pushCall, CallTable.push]

@[simp] theorem pushCall_length (s : Sys) (call : SipCall) :
    (s.pushCall call).objs.length = s.objs.length + 1 := List.length_append

theorem registerCall_table (s : Sys) (o : ObjId) (call : SipCall) :
    (s.registerCall o call).table = s.table.enter o call.track := rfl

/-- A call object that is replaced by one alike. -/
theorem linked_alike {s : Sys} (h : s.table.Linked) {o : ObjId} {call call' : SipCall}
    (ho : s.objs[o]? = some call) (alike : call.Alike call') :
    (table { s with objs := s.objs.set o call' }).Linked := by
  have hk := table_heap_of_some ho
  rw [set_table]
  refine h.update hk alike.identity alike.phone ?_
  change call'.info.state = some .disconnected ↔ call'.inv = .disconnected
  rw [alike.state, alike.inv]
  exact h.state_iff hk

end Sys

namespace Switchboard

/-- The tracked calls are linked, and each of them has been registered by a method that has
returned. -/
structure Wired (w : Switchboard) : Prop where
  linked : w.sys.table.Linked
  bound : ∀ placing ∈ w.placings, ∀ o, placing.object? = some o → o < w.sys.objs.length
  registered : ∀ c o, w.sys.calls.get? c = some o → .returned o ∈ w.placings

variable {w w' : Switchboard}

/-- Some placings are replaced or added, and objects may be added; the tracked calls stay. -/
theorem Wired.of_placings (h : w.Wired) (linked : w'.sys.table.Linked)
    (length : w.sys.objs.length ≤ w'.sys.objs.length)
    (bound : ∀ placing ∈ w'.placings, placing ∈ w.placings ∨
      ∀ o, placing.object? = some o → o < w'.sys.objs.length)
    (registered : ∀ c o, w'.sys.calls.get? c = some o → w.sys.calls.get? c = some o)
    (returned : ∀ o, .returned o ∈ w.placings → .returned o ∈ w'.placings) : w'.Wired where
  linked := linked
  bound placing hmem o ho := by
    rcases bound placing hmem with hold | hnew
    · exact Nat.lt_of_lt_of_le (h.bound placing hold o ho) length
    · exact hnew o ho
  registered c o hc := returned o (h.registered c o (registered c o hc))

/-- One object is changed and some calls are untracked. -/
theorem Wired.of_change (h : w.Wired) {o : ObjId} {call' : SipCall}
    (linked : w'.sys.table.Linked) (objs : w'.sys.objs = w.sys.objs.set o call')
    (calls : ∀ c i, w'.sys.calls.get? c = some i → w.sys.calls.get? c = some i)
    (placings : w'.placings = w.placings) : w'.Wired := by
  refine h.of_placings linked ?_ (fun placing hmem => .inl (placings ▸ hmem)) calls
    fun i hi => placings ▸ hi
  rw [objs, List.length_set]

/-- A call is registered. -/
theorem Wired.register (h : w.Wired) {k : Nat} {placing : Placing} {o : ObjId} {call : SipCall}
    {sys : Sys} (hk : w.placings[k]? = some placing) (hobject : placing.object? = some o)
    (unreturned : ∀ i, placing ≠ .returned i) (ho : w.sys.objs[o]? = some call)
    (same : (w.sys.registerCall o call).SameCalls sys) :
    Wired { w.setPlacing k (.returned o) with sys := sys } where
  linked := by
    change sys.table.Linked
    rw [same.table, Sys.registerCall_table]
    exact h.linked.enter (Sys.table_heap_of_some ho)
  bound placing' hmem i hi := by
    change i < sys.objs.length
    rw [same.objs]
    rcases List.mem_or_eq_of_mem_set hmem with hold | rfl
    · exact h.bound placing' hold i hi
    · cases hi
      exact h.bound placing (List.mem_of_getElem? hk) o hobject
  registered c i hc := by
    have hc : sys.calls.get? c = some i := hc
    simp only [same.calls, Sys.registerCall, OrderedDict.get?_set] at hc
    split_ifs at hc
    · cases hc
      exact List.mem_set (List.getElem?_eq_some_iff.mp hk).1 _
    · exact mem_set_of_mem hk (unreturned i) (h.registered c i hc) _

/-- A call object is put on the heap. -/
theorem Wired.push (h : w.Wired) {call : SipCall} (live : call.inv ≠ .disconnected)
    (unreported : call.info.state = none) (hphone : call.info.phoneId = call.phoneId)
    {placings : List Placing}
    (bound : ∀ placing ∈ placings, placing ∈ w.placings ∨
      placing.object? = some w.sys.objs.length)
    (returned : ∀ o, .returned o ∈ w.placings → .returned o ∈ placings) :
    Wired { w with placings := placings, sys := w.sys.pushCall call } := by
  refine h.of_placings ?_ ?_ (fun placing hmem => ?_) (fun _ _ hc => hc) returned
  · change (w.sys.pushCall call).table.Linked
    rw [Sys.pushCall_table]
    refine h.linked.push live ?_ hphone
    change call.info.state ≠ _
    rw [unreported]
    exact (Option.some_ne_none _).symm
  · exact (w.sys.pushCall_length call).ge.trans' (Nat.le_succ _)
  · refine (bound placing hmem).imp_right fun hnew o ho => ?_
    rw [hnew] at ho
    cases ho
    exact (w.sys.pushCall_length call).ge.trans' (Nat.lt_succ_self _)

/-- Every turn of those kinds keeps the switchboard wired. -/
theorem Wired.effect (h : w.Wired) {a : Turn} (en : w.enabled a = true) (effect : Effect w a w') :
    w'.Wired := by
  cases effect with
  | idle => exact h
  | planned unborn =>
      refine h.of_placings h.linked le_rfl (fun placing hmem => ?_) (fun _ _ hc => hc)
        fun o ho => List.mem_append_left _ ho
      rcases List.mem_append.mp hmem with hold | hnew
      · exact .inl hold
      · right
        intro o ho
        rw [List.mem_singleton.mp hnew, unborn] at ho
        cases ho
  | @failed _ k placing hk unregistered =>
      refine h.of_placings h.linked le_rfl (fun placing' hmem => ?_) (fun _ _ hc => hc)
        fun o ho => mem_set_of_mem hk (unregistered o) ho _
      rcases List.mem_or_eq_of_mem_set hmem with hold | rfl
      · exact .inl hold
      · exact .inr fun o ho => by cases ho
  | @placed k p cfg destUri ci hk =>
      have hstate : ci.state ≠ .disconnected := by
        simp only [enabled, Bool.and_eq_true, decide_eq_true_eq] at en
        exact en.2
      refine h.push hstate rfl rfl (fun placing hmem => ?_)
        fun o ho => mem_set_of_mem hk (fun h => by cases h) ho _
      rcases List.mem_or_eq_of_mem_set hmem with hold | hnew
      · exact .inl hold
      · exact .inr (by rw [hnew]; rfl)
  | arrived =>
      refine h.push (fun h => by cases h) rfl rfl (fun placing hmem => ?_)
        fun o ho => List.mem_append_left _ ho
      rcases List.mem_append.mp hmem with hold | hnew
      · exact .inl hold
      · exact .inr (by rw [List.mem_singleton.mp hnew]; rfl)
  | registered hk ho same => exact h.register hk rfl (fun _ h => by cases h) ho same
  | enqueued hk ho same => exact h.register hk rfl (fun _ h => by cases h) ho same
  | @refreshed o call ci ho =>
      refine h.of_change ?_ rfl (fun _ _ hc => hc) rfl
      change (w.sys.refreshInfo o call ci).table.Linked
      rw [Sys.refreshInfo, Sys.set_table]
      exact h.linked.update (Sys.table_heap_of_some ho) rfl rfl Option.some_inj
  | closed hcallback ho alike settings same =>
      refine h.of_change ?_ same.objs (fun c i hc => ?_) rfl
      · rw [same.table, Sys.untrack_table]
        exact (Sys.linked_alike h.linked ho alike).remove _
      · rw [same.calls] at hc
        exact (CallTable.shrinks_remove w.sys.table _).calls hc
  | emitted => exact ⟨h.linked, h.bound, h.registered⟩
  | changed ho alike settings same =>
      refine h.of_change ?_ same.objs (fun c i hc => ?_) rfl
      · rw [same.table]
        exact Sys.linked_alike h.linked ho alike
      · rwa [same.calls] at hc
  | written => exact ⟨h.linked, h.bound, h.registered⟩
  | taken => exact ⟨h.linked, h.bound, h.registered⟩
  | applied hupdate ho alike settings same =>
      refine h.of_change ?_ same.objs (fun c i hc => ?_) rfl
      · rw [same.table]
        exact Sys.linked_alike h.linked ho alike
      · rwa [same.calls] at hc
  | skipped => exact ⟨h.linked, h.bound, h.registered⟩
  | finished => exact ⟨h.linked, h.bound, h.registered⟩

theorem initial_wired (phones : OrderedDict PhoneId PhoneConfig) : (initial phones).Wired where
  linked := CallTable.sound_empty.toLinked
  bound placing hmem := by cases hmem
  registered c o hc := by cases hc

/-- The switchboard is wired in every reachable state. -/
theorem reachable_wired {phones : OrderedDict PhoneId PhoneConfig}
    (run : (switchboards phones).Reachable w) : w.Wired :=
  run.invariant (initial_wired phones) fun w a en _ h => h.effect en (w.step_effect a)

end Switchboard

end PjsuaMcp.Calls
