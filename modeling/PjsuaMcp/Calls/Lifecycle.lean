import PjsuaMcp.Calls.Frames

/-!
# What the lifecycle actions do

One inversion lemma for each action that creates, ends or untracks calls or
makes one audio-active. Each says which fields change; on the call table they
are the operations `add`, `update` and `remove`. The table of every reachable
state is sound: the tracked calls are live, are tracked under their own ids,
and are owned by their own phones.
-/

namespace PjsuaMcp.Calls

open Library

namespace Sys

/-! ## New calls -/

/-- The call object that an action creates in this state, if it creates one. -/
def newCall (s : Sys) : Action → Option SipCall
  | .makeCall phone _ (some ci) =>
      match s.resolvePhone phone with
      | .error _ => none
      | .ok p => (s.phones.get? p).map fun cfg => outboundCall p cfg ci
  | .incomingCall p c ci => (s.phones.get? p).map fun cfg => inboundCall p cfg c ci
  | _ => none

theorem trackCall_table (s : Sys) (call : SipCall) :
    (s.trackCall call).table = s.table.add call.track := by
  simp [table, trackCall, CallTable.add, SipCall.track, SipCall.skeleton]

theorem trackSipCallId_eq (s : Sys) (sipCallId : String) (owner : OwnerInfo) :
    ∃ index, s.trackSipCallId sipCallId owner = { s with sipCallIdIndex := index } := by
  unfold trackSipCallId
  split_ifs
  · exact ⟨s.sipCallIdIndex, rfl⟩
  · exact ⟨_, rfl⟩

/-- A call is placed, and indexed under the header read back, or nothing happens. -/
theorem makeCall_cases (s : Sys) (phone : Option PhoneId) (destUri : String)
    (placed : Option CallInfo) :
    (s.newCall (.makeCall phone destUri placed) = none ∧
      (s.makeCall phone destUri placed).2 = s) ∨
    ∃ p cfg ci owner, placed = some ci ∧ s.resolvePhone phone = .ok p ∧
      s.phones.get? p = some cfg ∧ owner.phoneId = p ∧ owner.pjsuaCallId = ci.id ∧
      s.newCall (.makeCall phone destUri placed) = some (outboundCall p cfg ci) ∧
      (s.makeCall phone destUri placed).2 =
        (s.trackCall (outboundCall p cfg ci)).trackSipCallId ci.callIdString owner := by
  cases hp : s.resolvePhone phone with
  | error e =>
      left
      cases placed <;> simp [makeCall, newCall, hp]
  | ok p =>
      cases hcfg : s.phones.get? p with
      | none =>
          left
          cases placed <;> simp [makeCall, newCall, hp, hcfg]
      | some cfg =>
          cases placed with
          | none =>
              left
              simp [makeCall, newCall, hp, hcfg]
          | some ci =>
              right
              refine ⟨p, cfg, ci, ⟨p, ci.id, if ci.remoteUri = "" then destUri else ci.remoteUri⟩,
                rfl, rfl, hcfg, rfl, rfl, ?_, ?_⟩
              · simp [newCall, hp, hcfg]
              · simp only [makeCall, hp, hcfg]

/-- A delivered call is tracked and queued; a call for an unknown phone is ignored. -/
theorem onIncomingCall_cases (s : Sys) (p : PhoneId) (c : CallId) (ci : Option CallInfo) :
    (s.phones.get? p = none ∧ s.newCall (.incomingCall p c ci) = none ∧
      s.onIncomingCall p c ci = s) ∨
    ∃ cfg owner, s.phones.get? p = some cfg ∧ owner.phoneId = p ∧ owner.pjsuaCallId = c ∧
      s.newCall (.incomingCall p c ci) = some (inboundCall p cfg c ci) ∧
      s.onIncomingCall p c ci =
        ({ s.trackCall (inboundCall p cfg c ci) with
            incomingQueue := appendTo s.incomingQueue p c
            autoAnswerPending := if cfg.autoAnswer then appendTo s.autoAnswerPending p c
              else s.autoAnswerPending }).trackSipCallId (capturedCallId ci) owner := by
  cases hcfg : s.phones.get? p with
  | none =>
      left
      simp [onIncomingCall, newCall, hcfg]
  | some cfg =>
      right
      refine ⟨cfg, ⟨p, c, (ci.map CallInfo.remoteUri).getD ""⟩, rfl, rfl, rfl, ?_, ?_⟩
      · simp [newCall, hcfg]
      · simp only [onIncomingCall, hcfg]
        rfl

/-- What every new call is like, when the library gives out ids that are `free`. -/
theorem newCall_spec_of {s : Sys} {a : Action} {call : SipCall} (h : s.newCall a = some call)
    (free : CallId → Bool)
    (hmake : ∀ phone destUri ci, a = .makeCall phone destUri (some ci) →
      free ci.id = true ∧ ci.state ≠ .disconnected)
    (hincoming : ∀ p c ci, a = .incomingCall p c ci → free c = true) :
    free call.callId = true ∧ call.inv ≠ .disconnected ∧ call.info.state = none ∧
      call.info.phoneId = call.phoneId ∧
      call.autoCaptureStarted = false ∧ call.recorder = none ∧ call.wavs = [] ∧
      call.finallyAnswered = false := by
  cases a with
  | makeCall phone destUri placed =>
      cases placed with
      | none => cases h
      | some ci =>
          simp only [newCall] at h
          split at h
          · cases h
          · obtain ⟨cfg, -, rfl⟩ := Option.map_eq_some_iff.mp h
            obtain ⟨hfree, hstate⟩ := hmake phone destUri ci rfl
            exact ⟨hfree, hstate, rfl, rfl, rfl, rfl, rfl, rfl⟩
  | incomingCall p c ci =>
      obtain ⟨cfg, -, rfl⟩ := Option.map_eq_some_iff.mp h
      exact ⟨hincoming p c ci rfl, by simp [inboundCall, SipCall.new], rfl, rfl, rfl, rfl, rfl, rfl⟩
  | _ => cases h

/-- What every new call is like. -/
theorem newCall_spec {s : Sys} {a : Action} {call : SipCall} (h : s.newCall a = some call)
    (en : s.enabled a = true) :
    s.idFree call.callId = true ∧ call.inv ≠ .disconnected ∧ call.info.state = none ∧
      call.info.phoneId = call.phoneId ∧
      call.autoCaptureStarted = false ∧ call.recorder = none ∧ call.wavs = [] ∧
      call.finallyAnswered = false := by
  apply newCall_spec_of h s.idFree
  · rintro phone destUri ci rfl
    simpa [enabled] using en
  · rintro p c ci rfl
    exact en

/-- An action that creates calls adds the new call to the table, or changes nothing. -/
theorem step_newCall (s : Sys) (a : Action) (ha : a.creates = true) :
    (s.newCall a = none ∧ s.step a = s) ∨
    ∃ call queues pending index, s.newCall a = some call ∧
      s.step a = { s.trackCall call with
        incomingQueue := queues, autoAnswerPending := pending, sipCallIdIndex := index } := by
  cases a with
  | makeCall phone destUri placed =>
      rcases s.makeCall_cases phone destUri placed with h | ⟨p, cfg, ci, owner, -, -, -, -, -, hnew, h⟩
      · exact .inl h
      · obtain ⟨index, hindex⟩ :=
          (s.trackCall (outboundCall p cfg ci)).trackSipCallId_eq ci.callIdString owner
        exact .inr ⟨_, s.incomingQueue, s.autoAnswerPending, index, hnew, h.trans hindex⟩
  | incomingCall p c ci =>
      rcases s.onIncomingCall_cases p c ci with ⟨-, h⟩ | ⟨cfg, owner, -, -, -, hnew, h⟩
      · exact .inl h
      · obtain ⟨index, hindex⟩ := trackSipCallId_eq _ (capturedCallId ci) owner
        exact .inr ⟨_, _, _, index, hnew, h.trans hindex⟩
  | _ => cases ha

/-! ## Callbacks -/

/-- The call object after its DISCONNECTED callback. -/
def endedCall (s : Sys) (call : SipCall) (ci : CallInfo) (env : SidecarEnv) : SipCall :=
  ((call.updateInfo ci).stopRecording (s.currentPcapPathFor call.phoneId) env).stopPlayer

/-- Closing the files of a call leaves its track as `_update_info` left it. -/
theorem endedCall_track (s : Sys) (call : SipCall) (ci : CallInfo) (env : SidecarEnv) :
    (s.endedCall call ci env).track = (call.updateInfo ci).track :=
  SipCall.track_eq_of_skeleton_eq <| by
    rw [endedCall, SipCall.stopPlayer_skeleton, SipCall.stopRecording_skeleton]

theorem updateInfo_track (call : SipCall) (ci : CallInfo) :
    (call.updateInfo ci).track =
      { call.track with inv := ci.state, state := some ci.state } := rfl

/-- Ending a call touches the tables, the queues of ids, the counters and the stop queue. -/
theorem onCallDisconnected_eq (s : Sys) (info : CachedInfo) (timestamp : String) :
    ∃ history, s.onCallDisconnected info timestamp =
      { s.untrack s.staleIds with
        callHistory := history
        incomingQueue := s.incomingQueue.mapValues fun _ queue =>
          queue.filter fun c => (s.untrack s.staleIds).calls.contains c
        activeCallsByPhone := (decrementActive s.activeCallsByPhone info.phoneId).1
        autoCapturePendingStop := s.autoCapturePendingStop ++
          if (decrementActive s.activeCallsByPhone info.phoneId).2 ∧ s.isPhoneCapturing info.phoneId
            then [info.phoneId] else [] } := by
  refine ⟨(s.pushHistory info timestamp).callHistory, ?_⟩
  let counted : Sys :=
    { s.untrack s.staleIds with
      callHistory := (s.pushHistory info timestamp).callHistory
      incomingQueue := s.incomingQueue.mapValues fun _ queue =>
        queue.filter fun c => (s.untrack s.staleIds).calls.contains c
      activeCallsByPhone := (decrementActive s.activeCallsByPhone info.phoneId).1 }
  change (if (decrementActive s.activeCallsByPhone info.phoneId).2 = true then
    counted.queueStopIfCapturing info.phoneId else counted) = _
  by_cases hflag : (decrementActive s.activeCallsByPhone info.phoneId).2 = true
  · rw [if_pos hflag, queueStopIfCapturing_eq]
    simp only [hflag, true_and]
    rfl
  · simp only [hflag, Bool.false_eq_true, false_and, if_false, List.append_nil]
    rfl

theorem untrack_table (s : Sys) (ids : List CallId) :
    (s.untrack ids).table = s.table.remove ids := rfl

theorem staleIds_eq (s : Sys) : s.staleIds = s.table.stale := by
  unfold staleIds CallTable.stale
  congr 1
  apply List.filter_congr
  intro e _
  rw [table_heap]
  cases s.objs[e.2]? <;> rfl

theorem set_table (s : Sys) (o : ObjId) (call : SipCall) :
    { s with objs := s.objs.set o call }.table = s.table.update o call.track := by
  simp [table, CallTable.update, List.map_set]

/-- A state callback before the end only refreshes the call object. -/
theorem onCallState_refreshed {s : Sys} {o : ObjId} {call : SipCall} {ci : CallInfo}
    (ho : s.objs[o]? = some call) (hstate : ci.state ≠ .disconnected) (env : SidecarEnv)
    (timestamp : String) :
    s.onCallState o ci env timestamp = { s with objs := s.objs.set o (call.updateInfo ci) } := by
  simp [onCallState, ho, hstate]

/-- The DISCONNECTED callback closes the object and then removes the stale ids. -/
theorem onCallState_ended {s : Sys} {o : ObjId} {call : SipCall} {ci : CallInfo}
    (ho : s.objs[o]? = some call) (hstate : ci.state = .disconnected) (env : SidecarEnv)
    (timestamp : String) :
    s.onCallState o ci env timestamp =
      ({ s with objs := s.objs.set o (s.endedCall call ci env) }).onCallDisconnected
        (s.endedCall call ci env).info timestamp := by
  simp only [onCallState, ho, hstate, if_true]
  rfl

/-- A call that ends is updated and taken out with the other stale ones. -/
theorem onCallState_ended_table {s : Sys} {o : ObjId} {call : SipCall} {ci : CallInfo}
    (ho : s.objs[o]? = some call) (hstate : ci.state = .disconnected) (env : SidecarEnv)
    (timestamp : String) :
    (s.onCallState o ci env timestamp).table =
      (s.table.update o (call.updateInfo ci).track).remove
        (s.table.update o (call.updateInfo ci).track).stale := by
  rw [onCallState_ended ho hstate]
  obtain ⟨history, h⟩ :=
    ({ s with objs := s.objs.set o (s.endedCall call ci env) }).onCallDisconnected_eq
      (s.endedCall call ci env).info timestamp
  rw [h]
  change (Sys.untrack _ _).table = _
  rw [untrack_table, staleIds_eq, set_table, endedCall_track]

/-- The counter goes up, and the first active call of a phone with capture enabled asks
for a start. -/
theorem registerCallActive_eq (s : Sys) (p : PhoneId) (c : CallId) :
    s.registerCallActive p c =
      { s with
        activeCallsByPhone := s.activeCallsByPhone.set p (s.activeCount p + 1)
        autoCapturePendingStart := s.autoCapturePendingStart ++
          if s.activeCount p = 0 ∧ (s.phones.get? p).any PhoneConfig.captureEnabled
            then [(p, some c)] else [] } := by
  unfold registerCallActive
  simp only [Nat.add_eq_right]
  split_ifs
  · rfl
  · rw [List.append_nil]

theorem onCallMediaState_of_unknown {s : Sys} {o : ObjId} (ho : s.objs[o]? = none)
    (media : List MediaStatus) : s.onCallMediaState o media = s := by
  simp only [onCallMediaState, ho]

/-- The object is changed, and the counter and the pending starts may be. -/
theorem onCallMediaState_eq {s : Sys} {o : ObjId} {call : SipCall} (ho : s.objs[o]? = some call)
    (media : List MediaStatus) :
    ∃ counts starts, s.onCallMediaState o media =
      { s with
        objs := s.objs.set o (call.onCallMediaState media)
        activeCallsByPhone := counts
        autoCapturePendingStart := starts } := by
  simp only [onCallMediaState, ho]
  split_ifs
  · exact ⟨_, _, registerCallActive_eq _ _ _⟩
  · exact ⟨_, _, rfl⟩

theorem onCallMediaState_table {s : Sys} {o : ObjId} {call : SipCall}
    (ho : s.objs[o]? = some call) (media : List MediaStatus) :
    (s.onCallMediaState o media).table =
      s.table.update o (call.onCallMediaState media).track := by
  obtain ⟨_, _, heq⟩ := onCallMediaState_eq ho media
  rw [heq]
  exact s.set_table o _

/-- A callback with active audio counts the call, once. -/
theorem onCallMediaState_track (call : SipCall) (media : List MediaStatus) :
    (call.onCallMediaState media).track = { call.track with
      autoCaptureStarted := call.autoCaptureStarted || media.any (·.audioActive) } := by
  rw [SipCall.track, SipCall.onCallMediaState_skeleton]
  rfl

theorem onCallMediaState_identity (call : SipCall) (media : List MediaStatus) :
    (call.onCallMediaState media).track.identity = call.track.identity := by
  rw [onCallMediaState_track]

/-! ## Phones -/

theorem mem_idsOf_iff (s : Sys) (p : PhoneId) (c : CallId) :
    c ∈ s.idsOf p ↔ s.callPhone.get? c = some p := by
  simp [idsOf, ← OrderedDict.get?_eq_some_iff]

/-- The calls of a phone are those filed under an id that it owns. -/
theorem mem_callsOf_iff (s : Sys) (p : PhoneId) (o : ObjId) :
    o ∈ s.callsOf p ↔ ∃ c, s.calls.get? c = some o ∧ s.callPhone.get? c = some p := by
  simp [callsOf, OrderedDict.get?_eq_some_iff]

/-- Dropping a registered phone removes it, its queues, its counter and its calls. -/
theorem dropPhone_eq {s : Sys} {p : PhoneId} {cfg : PhoneConfig} (hp : s.phones.get? p = some cfg) :
    ∃ transports, s.dropPhone p =
      { s.untrack (s.idsOf p) with
        phones := s.phones.pop p
        transports := transports
        incomingQueue := s.incomingQueue.pop p
        autoAnswerPending := s.autoAnswerPending.pop p
        activeCallsByPhone := s.activeCallsByPhone.pop p
        autoCapturePendingStop :=
          s.autoCapturePendingStop ++ if s.isPhoneCapturing p then [p] else [] } := by
  simp only [dropPhone, hp, onPhoneDropped, queueStopIfCapturing_eq]
  exact ⟨_, rfl⟩

theorem dropPhone_of_unknown {s : Sys} {p : PhoneId} (hp : s.phones.get? p = none) :
    s.dropPhone p = s := by
  simp [dropPhone, hp]

theorem dropPhone_phones (s : Sys) (p : PhoneId) : (s.dropPhone p).phones = s.phones.pop p := by
  cases hp : s.phones.get? p with
  | none =>
      rw [dropPhone_of_unknown hp]
      exact (s.phones.pop_of_get?_none hp).symm
  | some cfg =>
      obtain ⟨_, h⟩ := dropPhone_eq hp
      rw [h]

/-- Dropping a phone forgets its calls, or nothing if the phone is unknown. -/
theorem dropPhone_table (s : Sys) (p : PhoneId) :
    (s.dropPhone p).table = s.table ∨ (s.dropPhone p).table = s.table.remove (s.idsOf p) := by
  cases hp : s.phones.get? p with
  | none => exact .inl (by rw [dropPhone_of_unknown hp])
  | some cfg =>
      obtain ⟨transports, h⟩ := dropPhone_eq hp
      exact .inr (by rw [h]; rfl)

/-- Creating a phone touches the registry and adds empty queues. -/
theorem createPhone_eq (s : Sys) (p : PhoneId) (cfg : PhoneConfig) (out : AddOutcome) :
    ∃ phones transports queues pending, s.createPhone p cfg out =
      { s with phones := phones, transports := transports, incomingQueue := queues,
               autoAnswerPending := pending } := by
  unfold createPhone
  split
  · exact ⟨s.phones, s.transports, s.incomingQueue, s.autoAnswerPending, rfl⟩
  · dsimp only
    split_ifs
    · exact ⟨_, _, _, _, rfl⟩
    · exact ⟨s.phones, _, s.incomingQueue, s.autoAnswerPending, rfl⟩

/-- The new account has no calls yet. -/
theorem addPhone_table (s : Sys) (p : PhoneId) (cfg : PhoneConfig) (out : AddOutcome) :
    (s.addPhone p cfg out).table = (s.dropPhone p).table := by
  obtain ⟨_, _, _, _, h⟩ := (s.dropPhone p).createPhone_eq p cfg out
  rw [addPhone, h]
  rfl

theorem addPhone_counts (s : Sys) (p : PhoneId) (cfg : PhoneConfig) (out : AddOutcome) :
    (s.addPhone p cfg out).activeCallsByPhone = (s.dropPhone p).activeCallsByPhone := by
  obtain ⟨_, _, _, _, h⟩ := (s.dropPhone p).createPhone_eq p cfg out
  rw [addPhone, h]

theorem dropPhone_objs (s : Sys) (p : PhoneId) : (s.dropPhone p).objs = s.objs := by
  cases hp : s.phones.get? p with
  | none => rw [dropPhone_of_unknown hp]
  | some cfg =>
      obtain ⟨_, hdrop⟩ := dropPhone_eq hp
      rw [hdrop]
      rfl

theorem addPhone_objs (s : Sys) (p : PhoneId) (cfg : PhoneConfig) (out : AddOutcome) :
    (s.addPhone p cfg out).objs = s.objs := by
  obtain ⟨_, _, _, _, heq⟩ := (s.dropPhone p).createPhone_eq p cfg out
  rw [addPhone, heq]
  exact s.dropPhone_objs p

/-- A phone that registers again is dropped and added, or unknown. -/
theorem reregisterPhone_cases (s : Sys) (p : PhoneId) (creds : Credentials) (out : AddOutcome) :
    (s.phones.get? p = none ∧ s.reregisterPhone p creds out = s) ∨
    ∃ cfg, s.phones.get? p = some cfg ∧
      s.reregisterPhone p creds out = s.addPhone p (cfg.withCredentials creds) out := by
  unfold reregisterPhone
  cases hp : s.phones.get? p with
  | none => exact .inl ⟨rfl, rfl⟩
  | some cfg => exact .inr ⟨cfg, rfl, rfl⟩

/-! ## Soundness of the table along every run -/

/-- An id that the library may hand out is not tracked. -/
theorem get?_eq_none_of_idFree {s : Sys} (h : s.table.Sound) {c : CallId}
    (hfree : s.idFree c = true) : s.calls.get? c = none := by
  cases hc : s.calls.get? c with
  | none => rfl
  | some o =>
      obtain ⟨k, hk, hid, -⟩ := h.entry hc
      have hlive := h.live hc hk
      rw [table_heap, Option.map_eq_some_iff] at hk
      obtain ⟨call, hcall, rfl⟩ := hk
      have hobj := List.all_eq_true.mp hfree call (List.mem_of_getElem? hcall)
      simp only [SipCall.isActive, Bool.or_eq_true, Bool.not_eq_true', decide_eq_true_eq,
        decide_eq_false_iff_not, not_not] at hobj
      rcases hobj with hne | hdisc
      · exact (hne hid).elim
      · exact (hlive hdisc).elim

theorem exists_of_objActive {s : Sys} {o : ObjId} (h : s.objActive o = true) :
    ∃ call, s.objs[o]? = some call ∧ call.inv ≠ .disconnected := by
  simpa [objActive, SipCall.isActive, Option.any_eq_true] using h

theorem table_heap_of_some {s : Sys} {o : ObjId} {call : SipCall} (h : s.objs[o]? = some call) :
    s.table.heap[o]? = some call.track := by
  rw [table_heap, h]
  rfl

/-- The table stays sound when a phone is dropped. -/
theorem dropPhone_sound {s : Sys} (h : s.table.Sound) (p : PhoneId) :
    (s.dropPhone p).table.Sound := by
  rcases s.dropPhone_table p with hsame | hrem
  · rw [hsame]
    exact h
  · rw [hrem]
    exact h.remove _

/-- A new call keeps the call table sound, also when it takes the place of another one. -/
theorem creates_sound {s : Sys} {a : Action} (ha : a.creates = true) (h : s.table.Sound)
    (hnew : ∀ call, s.newCall a = some call →
      call.inv ≠ .disconnected ∧ call.info.state = none ∧ call.info.phoneId = call.phoneId) :
    (s.step a).table.Sound := by
  rcases s.step_newCall a ha with ⟨-, hsame⟩ | ⟨call, queues, pending, index, hcall, hstep⟩
  · rw [hsame]
    exact h
  · obtain ⟨hinv, hstate, hphone⟩ := hnew call hcall
    rw [hstep]
    change (s.trackCall call).table.Sound
    rw [trackCall_table]
    refine h.add hinv ?_ hphone
    change call.info.state ≠ _
    rw [hstate]
    exact (Option.some_ne_none _).symm

/-- Every enabled action keeps the call table sound. -/
theorem step_sound {s : Sys} {a : Action} (en : s.enabled a = true) (h : s.table.Sound) :
    (s.step a).table.Sound := by
  have hnew : a.creates = true → (s.step a).table.Sound := by
    intro ha
    apply creates_sound ha h
    intro call hcall
    obtain ⟨-, hinv, hstate, hphone, -⟩ := newCall_spec hcall en
    exact ⟨hinv, hstate, hphone⟩
  cases a with
  | makeCall phone destUri placed => exact hnew rfl
  | incomingCall p c ci => exact hnew rfl
  | callState o ci env timestamp =>
      obtain ⟨call, ho, -⟩ := exists_of_objActive en
      have hk := table_heap_of_some ho
      by_cases hstate : ci.state = .disconnected
      · change (s.onCallState o ci env timestamp).table.Sound
        rw [onCallState_ended_table ho hstate, updateInfo_track, hstate]
        have hlinked : (s.table.update o { call.track with
            inv := .disconnected, state := some .disconnected }).Linked :=
          h.toLinked.update hk rfl rfl ⟨fun _ => rfl, fun _ => rfl⟩
        exact hlinked.remove_stale
      · change (s.onCallState o ci env timestamp).table.Sound
        rw [onCallState_refreshed ho hstate, set_table, updateInfo_track]
        exact h.update hk rfl rfl hstate fun heq => hstate (Option.some.inj heq)
  | mediaState o media =>
      obtain ⟨call, ho, hlive⟩ := exists_of_objActive en
      have hk := table_heap_of_some ho
      change (s.onCallMediaState o media).table.Sound
      rw [onCallMediaState_table ho, onCallMediaState_track]
      exact h.update hk rfl rfl hlive fun heq => hlive ((h.state_iff hk).mp heq)
  | addPhone p cfg out =>
      change (s.addPhone p cfg out).table.Sound
      rw [addPhone_table]
      exact dropPhone_sound h p
  | dropPhone p => exact dropPhone_sound h p
  | reregisterPhone p creds out =>
      change (s.reregisterPhone p creds out).table.Sound
      rcases s.reregisterPhone_cases p creds out with ⟨-, hsame⟩ | ⟨cfg, -, hadd⟩
      · rw [hsame]
        exact h
      · rw [hadd, addPhone_table]
        exact dropPhone_sound h p
  | cleanup =>
      exact ⟨⟨rfl, by simp [step, cleanup, table], h.state_iff, h.phone_eq⟩, by simp [step, cleanup, table]⟩
  | _ =>
      rw [(s.step_quiet _ rfl).table]
      exact h

/-- The calls tracked after a new call: the new one, and the old ones under other ids. -/
theorem tracked_newCall {s : Sys} {a : Action} {call : SipCall} (en : s.enabled a = true)
    (hs : s.table.Sound) (hcall : s.newCall a = some call) (ha : a.creates = true)
    (c : CallId) (other : SipCall) :
    (∃ o, (s.step a).calls.get? c = some o ∧ (s.step a).objs[o]? = some other) ↔
      (c = call.callId ∧ other = call) ∨
      (c ≠ call.callId ∧ ∃ o, s.calls.get? c = some o ∧ s.objs[o]? = some other) := by
  obtain ⟨hfree, -⟩ := newCall_spec hcall en
  have hnone := get?_eq_none_of_idFree hs hfree
  rcases s.step_newCall a ha with ⟨hno, -⟩ | ⟨call', _, _, _, hcall', hstep⟩
  · rw [hno] at hcall
    cases hcall
  · rw [hcall] at hcall'
    cases hcall'
    have hcalls : (s.step a).calls = s.calls.set call.callId s.objs.length := by rw [hstep]; rfl
    have hobjs : (s.step a).objs = s.objs ++ [call] := by rw [hstep]; rfl
    rw [hcalls, hobjs]
    by_cases hc : c = call.callId
    · subst hc
      simp [hnone, eq_comm]
    · simp only [OrderedDict.get?_set, if_neg (Ne.symm hc), hc, false_and, ne_eq, not_false_eq_true,
        true_and, false_or]
      refine exists_congr fun o => and_congr_right fun ho => ?_
      have hlt := hs.lt_length ho
      rw [table, List.length_map] at hlt
      rw [List.getElem?_append_left hlt]

/-! ## Ended calls -/

/-- The object `o` has become `call'` and its id, where tracked, has left the dictionaries and
the queues; `f` tests the ids that stay. -/
structure Untracks (s s' : Sys) (o : ObjId) (call' : SipCall) (f : CallId → Bool) : Prop where
  objs : s'.objs = s.objs.set o call'
  calls : s'.calls = s.calls.filterKeys f
  owner : s'.callPhone = s.callPhone.filterKeys f
  keeps : ∀ c, f c = true ↔ s.calls.get? c ≠ some o
  queue : ∀ p, s'.queueOf p = (s.queueOf p).filter s'.calls.contains

theorem endedCall_inv (s : Sys) (call : SipCall) (ci : CallInfo) (env : SidecarEnv) :
    (s.endedCall call ci env).inv = ci.state :=
  congrArg SipCall.Skeleton.inv (s.endedCall_track call ci env)

/-- The DISCONNECTED callback of a call untracks that call and no other. -/
theorem onCallState_untracks {s : Sys} (hs : s.table.Sound) {o : ObjId} {call : SipCall}
    {ci : CallInfo} (ho : s.objs[o]? = some call) (hstate : ci.state = .disconnected)
    (env : SidecarEnv) (timestamp : String) :
    ∃ f, s.Untracks (s.onCallState o ci env timestamp) o (s.endedCall call ci env) f := by
  let t : Sys := { s with objs := s.objs.set o (s.endedCall call ci env) }
  obtain ⟨history, heq⟩ := t.onCallDisconnected_eq (s.endedCall call ci env).info timestamp
  have hstale : ∀ c, c ∈ t.staleIds ↔ s.calls.get? c = some o := by
    intro c
    rw [staleIds_eq, set_table, endedCall_track]
    refine hs.mem_stale_update (table_heap_of_some ho) ?_ ?_ hstate (congrArg some hstate) c
    all_goals rfl
  rw [onCallState_ended ho hstate, heq]
  refine ⟨fun c => c ∉ t.staleIds, rfl, rfl, rfl, fun c => ?_, fun p => ?_⟩
  · rw [decide_eq_true_eq, hstale]
  · rw [queueOf, OrderedDict.get?_mapValues]
    change (Option.map _ (s.incomingQueue.get? p)).getD [] = _
    rw [queueOf]
    cases s.incomingQueue.get? p <;> rfl

/-! ## Actions that create no call -/

/-- Dropping a phone tracks nothing new. -/
theorem dropPhone_shrinks (s : Sys) (p : PhoneId) : s.table.Shrinks (s.dropPhone p).table := by
  rcases s.dropPhone_table p with hsame | hrem
  · rw [hsame]
    exact .refl _
  · rw [hrem]
    exact CallTable.shrinks_remove _ _

theorem dropPhone_index (s : Sys) (p : PhoneId) :
    (s.dropPhone p).sipCallIdIndex = s.sipCallIdIndex := by
  cases hp : s.phones.get? p with
  | none => rw [dropPhone_of_unknown hp]
  | some cfg =>
      obtain ⟨transports, h⟩ := dropPhone_eq hp
      rw [h]
      rfl

theorem addPhone_index (s : Sys) (p : PhoneId) (cfg : PhoneConfig) (out : AddOutcome) :
    (s.addPhone p cfg out).sipCallIdIndex = s.sipCallIdIndex := by
  obtain ⟨_, _, _, _, h⟩ := (s.dropPhone p).createPhone_eq p cfg out
  rw [addPhone, h]
  exact s.dropPhone_index p

/-- Dropping a phone makes nothing wait for an answer. -/
theorem dropPhone_waiting (s : Sys) (p : PhoneId) : (s.dropPhone p).waiting ⊆ s.waiting := by
  cases hp : s.phones.get? p with
  | none => rw [dropPhone_of_unknown hp]; exact fun _ he => he
  | some cfg =>
      obtain ⟨transports, h⟩ := dropPhone_eq hp
      rw [h]
      rintro ⟨q, c⟩ he
      rcases List.mem_append.mp he with hnow | hlater
      · exact List.mem_append_left _ hnow
      · refine List.mem_append_right _ ((mem_queuedIds_iff _ q c).mpr ?_)
        obtain ⟨queue, hqueue, hc⟩ := (mem_queuedIds_iff _ q c).mp hlater
        rw [OrderedDict.get?_pop] at hqueue
        split_ifs at hqueue
        exact ⟨queue, hqueue, hc⟩

theorem cleanup_waiting (s : Sys) : s.cleanup.waiting ⊆ s.waiting := by
  rintro ⟨p, c⟩ he
  rcases List.mem_append.mp he with hnow | hlater
  · exact List.mem_append_left _ hnow
  · obtain ⟨queue, hqueue, hc⟩ := (mem_queuedIds_iff _ p c).mp hlater
    simp only [cleanup, OrderedDict.get?_mapValues, Option.map_eq_some_iff] at hqueue
    obtain ⟨-, -, rfl⟩ := hqueue
    cases hc

/-- A new phone has an empty queue, unless it has one already. -/
theorem createPhone_waiting (s : Sys) (p : PhoneId) (cfg : PhoneConfig) (out : AddOutcome) :
    (s.createPhone p cfg out).waiting ⊆ s.waiting := by
  unfold createPhone
  split
  · exact fun _ he => he
  · dsimp only
    split_ifs
    · rintro ⟨q, c⟩ he
      rcases List.mem_append.mp he with hnow | hlater
      · exact List.mem_append_left _ hnow
      · refine List.mem_append_right _ ((mem_queuedIds_iff _ q c).mpr ?_)
        obtain ⟨queue, hqueue, hc⟩ := (mem_queuedIds_iff _ q c).mp hlater
        simp only [onPhoneAdded, OrderedDict.get?_setdefault] at hqueue
        split_ifs at hqueue with hq
        · subst hq
          cases hold : s.autoAnswerPending.get? p with
          | none =>
              rw [hold] at hqueue
              cases hqueue
              cases hc
          | some old =>
              rw [hold] at hqueue
              exact ⟨old, rfl, by cases hqueue; exact hc⟩
        · exact ⟨queue, hqueue, hc⟩
    · exact fun _ he => he

/-- An action that creates no call tracks no more calls and makes no more ids wait for an
automatic answer; it leaves identities and the SIP Call-ID index alone. -/
structure NoNewCall (s s' : Sys) : Prop where
  shrinks : s.table.Shrinks s'.table
  index : s'.sipCallIdIndex = s.sipCallIdIndex
  waiting : s'.waiting ⊆ s.waiting

theorem Quiet.noNewCall {s s' : Sys} (h : s.Quiet s') : s.NoNewCall s' where
  shrinks := by
    rw [h.table]
    exact .refl _
  index := h.index
  waiting := h.waiting

/-- Registering a phone creates no call. -/
theorem addPhone_noNewCall (s : Sys) (p : PhoneId) (cfg : PhoneConfig) (out : AddOutcome) :
    s.NoNewCall (s.addPhone p cfg out) where
  shrinks := by
    rw [addPhone_table]
    exact s.dropPhone_shrinks p
  index := s.addPhone_index p cfg out
  waiting := fun _ he => s.dropPhone_waiting p ((s.dropPhone p).createPhone_waiting p cfg out he)

/-- Calls come from `make_call` and from incoming calls only. -/
theorem step_noNewCall {s : Sys} {a : Action} (en : s.enabled a = true) (ha : a.creates = false) :
    s.NoNewCall (s.step a) := by
  cases a with
  | makeCall | incomingCall => cases ha
  | callState o ci env timestamp =>
      obtain ⟨call, ho, -⟩ := exists_of_objActive en
      have hupdate : s.table.Shrinks (s.table.update o (call.updateInfo ci).track) :=
        CallTable.shrinks_update (table_heap_of_some ho) rfl
      by_cases hstate : ci.state = .disconnected
      · change s.NoNewCall (s.onCallState o ci env timestamp)
        have htable := onCallState_ended_table ho hstate env timestamp
        rw [onCallState_ended ho hstate] at htable ⊢
        obtain ⟨history, heq⟩ :=
          ({ s with objs := s.objs.set o (s.endedCall call ci env) }).onCallDisconnected_eq
            (s.endedCall call ci env).info timestamp
        constructor
        · rw [htable]
          exact hupdate.trans (CallTable.shrinks_remove _ _)
        · rw [heq]
          rfl
        · rw [heq]
          exact fun _ he => he
      · change s.NoNewCall (s.onCallState o ci env timestamp)
        rw [onCallState_refreshed ho hstate]
        refine ⟨?_, rfl, fun _ he => he⟩
        rw [set_table]
        exact hupdate
  | mediaState o media =>
      obtain ⟨call, ho, -⟩ := exists_of_objActive en
      change s.NoNewCall (s.onCallMediaState o media)
      have hupdate := CallTable.shrinks_update (table_heap_of_some ho)
        (onCallMediaState_identity call media)
      rw [← onCallMediaState_table ho] at hupdate
      obtain ⟨_, _, heq⟩ := onCallMediaState_eq ho media
      refine ⟨hupdate, ?_, ?_⟩
      · rw [heq]
      · rw [heq]
        exact fun _ he => he
  | addPhone p cfg out => exact s.addPhone_noNewCall p cfg out
  | dropPhone p => exact ⟨s.dropPhone_shrinks p, s.dropPhone_index p, s.dropPhone_waiting p⟩
  | reregisterPhone p creds out =>
      change s.NoNewCall (s.reregisterPhone p creds out)
      rcases s.reregisterPhone_cases p creds out with ⟨-, hsame⟩ | ⟨cfg, -, hadd⟩
      · rw [hsame]
        exact ⟨.refl _, rfl, fun _ he => he⟩
      · rw [hadd]
        exact s.addPhone_noNewCall p _ out
  | cleanup =>
      refine ⟨⟨fun hc => ?_, fun hk => ⟨_, hk, rfl⟩⟩, rfl, ?_⟩
      · cases hc
      · exact s.cleanup_waiting
  | _ => exact (s.step_quiet _ rfl).noNewCall

end Sys

/-- In every reachable state the tracked calls are live calls under their own ids. -/
theorem reachable_sound {s : Sys} (run : server.Reachable s) : s.table.Sound :=
  run.invariant (P := fun s => s.table.Sound) CallTable.sound_empty fun _ _ en _ h =>
    Sys.step_sound en h

end PjsuaMcp.Calls
