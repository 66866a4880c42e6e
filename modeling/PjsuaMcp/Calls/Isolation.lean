import PjsuaMcp.Calls.OwnCalls

/-!
# Calls stay with their phones

In every run the two dictionaries of `CallManager` agree with each other and with
the call objects, and the queues hold ids of their own phones. So an operation
reaches the calls of its phone only, and an id of another phone is refused.

## Implementation notes

An id may come back while an older call object still has it: the phone of that
object was dropped, and nothing was heard of its end. `Endpoint` therefore keeps
the call objects whose ids the library has not released. Callbacks run between
the operations, so a call is not seen to have ended before its DISCONNECTED
callback, and none comes after it.
-/

namespace PjsuaMcp.Calls

open Library

/-- The server with the call objects whose ids the library still uses. -/
structure Endpoint where
  sys : Sys
  inUse : List ObjId

inductive EndpointAction
  | act (a : Action)
  | operate (op : PhoneOp)

namespace Endpoint

/-- No call in use has the id. -/
def idReleased (w : Endpoint) (c : CallId) : Bool :=
  w.inUse.all fun o => w.sys.objs[o]?.all fun call => call.callId ≠ c

/-- What the library and the event loop guarantee about the next action. -/
def enabled (w : Endpoint) : EndpointAction → Bool
  | .act (.makeCall _ _ (some ci)) => w.idReleased ci.id && ci.state ≠ .disconnected
  | .act (.incomingCall _ c _) => w.idReleased c
  | .act a => w.sys.enabled a
  | .operate _ => true

/-- The call objects of a phone are shut down with its account. -/
def withoutPhone (w : Endpoint) (p : PhoneId) : List ObjId :=
  if w.sys.phones.contains p then
    w.inUse.filter fun o => w.sys.objs[o]?.all fun call => call.phoneId ≠ p
  else w.inUse

/-- A new call takes its id, and the DISCONNECTED callback of a call or the drop of its phone
releases it. -/
def inUseAfter (w : Endpoint) : Action → List ObjId
  | .makeCall phone destUri placed =>
      if (w.sys.newCall (.makeCall phone destUri placed)).isSome then
        w.inUse ++ [w.sys.objs.length]
      else w.inUse
  | .incomingCall p c ci =>
      if (w.sys.newCall (.incomingCall p c ci)).isSome then w.inUse ++ [w.sys.objs.length]
      else w.inUse
  | .callState o ci _ _ =>
      if ci.state = .disconnected then w.inUse.filter fun i => i ≠ o else w.inUse
  | .addPhone p _ _ | .dropPhone p | .reregisterPhone p _ _ => w.withoutPhone p
  | _ => w.inUse

def step (w : Endpoint) : EndpointAction → Endpoint
  | .act a => ⟨w.sys.step a, w.inUseAfter a⟩
  | .operate op => ⟨(op.run w.sys).state, w.inUse⟩

end Endpoint

/-- The server as the library drives it. -/
def endpoint : GuardedSystem Endpoint EndpointAction where
  init := ⟨Sys.initial, []⟩
  enabled := fun w a => w.enabled a = true
  step := Endpoint.step

instance (w : Endpoint) (a : EndpointAction) : Decidable (endpoint.enabled w a) :=
  inferInstanceAs (Decidable (w.enabled a = true))

/-! ## What every state satisfies -/

/-- `_calls`, `_call_phone` and the call objects agree, and the queues hold ids of their own
phones. -/
structure Isolated (s : Sys) : Prop where
  domains : ∀ c, c ∈ s.callPhone.keys ↔ c ∈ s.calls.keys
  owner : ∀ c o, s.calls.get? c = some o →
    ∃ call, s.objs[o]? = some call ∧ s.callPhone.get? c = some call.phoneId
  queue : ∀ p, ∀ c ∈ s.queueOf p, c ∈ s.calls.keys ∧ s.callPhone.get? c = some p

/-- The invariant: the call table is sound, the queues are owned, and the ids of tracked calls are
in use. -/
structure Contained (w : Endpoint) : Prop where
  sound : w.sys.table.Sound
  queues : w.sys.QueuesOwned
  inUse : ∀ {c : CallId} {o : ObjId}, w.sys.calls.get? c = some o → o ∈ w.inUse

theorem contained_initial : Contained ⟨Sys.initial, []⟩ where
  sound := CallTable.sound_empty
  queues := by
    intro p c hc
    cases hc
  inUse := by
    intro c o hc
    cases hc

/-- An id that is released is not tracked. -/
theorem Contained.untracked {w : Endpoint} (h : Contained w) {c : CallId}
    (hc : w.idReleased c = true) : w.sys.calls.get? c = none := by
  cases hget : w.sys.calls.get? c with
  | none => rfl
  | some o =>
      obtain ⟨k, hk, hid, -⟩ := h.sound.entry hget
      rw [Sys.table_heap, Option.map_eq_some_iff] at hk
      obtain ⟨call, hcall, rfl⟩ := hk
      have hother := List.all_eq_true.mp hc o (h.inUse hget)
      rw [hcall] at hother
      exact (of_decide_eq_true hother hid).elim

/-- What the tools of one phone can reach is its own. -/
theorem Contained.isolated {w : Endpoint} (h : Contained w) : Isolated w.sys where
  domains c := by
    have hkeys : w.sys.callPhone.keys = w.sys.calls.keys := h.sound.keys_eq
    rw [hkeys]
  owner c o hc := by
    obtain ⟨k, hk, -, howner⟩ := h.sound.entry hc
    rw [Sys.table_heap, Option.map_eq_some_iff] at hk
    obtain ⟨call, hcall, rfl⟩ := hk
    exact ⟨call, hcall, howner⟩
  queue p c hc := by
    have howner := h.queues p c hc
    have hkeys : w.sys.callPhone.keys = w.sys.calls.keys := h.sound.keys_eq
    refine ⟨?_, howner⟩
    rw [← hkeys, OrderedDict.mem_keys_iff]
    exact ⟨p, howner⟩

/-! ## Actions that create and end no call -/

/-- The call table stays, and the queues only lose ids. -/
structure Still (s s' : Sys) : Prop where
  table : s'.table = s.table
  queue : ∀ p, s'.queueOf p ⊆ s.queueOf p

/-- A step that changes neither the ids in use nor the queues' contents. -/
theorem Contained.still {w : Endpoint} (h : Contained w) {s' : Sys} (hs : Still w.sys s') :
    Contained ⟨s', w.inUse⟩ where
  sound := by
    change s'.table.Sound
    rw [hs.table]
    exact h.sound
  queues p c hc := by
    have howner : s'.callPhone = w.sys.callPhone := congrArg CallTable.owner hs.table
    change s'.callPhone.get? c = some p
    rw [howner]
    exact h.queues p c (hs.queue p hc)
  inUse {c o} hc := by
    have hcalls : s'.calls = w.sys.calls := congrArg CallTable.calls hs.table
    apply h.inUse
    rw [← hcalls]
    exact hc

theorem Still.refl (s : Sys) : Still s s := ⟨rfl, fun _ _ hc => hc⟩

theorem getIncomingCall_queueOf (s : Sys) (p : PhoneId) (c : Option CallId) (q : PhoneId) :
    (s.getIncomingCall p c).2.queueOf q ⊆ s.queueOf q := by
  cases c with
  | some c => exact fun _ hc => hc
  | none =>
      have hsuffix := s.popTracked_suffix (s.queueOf p)
      have hset : (s.getIncomingCall p none).2 = s.setQueue p (s.popTracked (s.queueOf p)).2 := by
        unfold Sys.getIncomingCall
        dsimp only
        cases (s.popTracked (s.queueOf p)).1 <;> rfl
      have hempty : s.queueOf p = [] → (s.popTracked (s.queueOf p)).2 = [] := by
        intro h
        rw [h]
        rfl
      rw [hset, Sys.queueOf_setQueue hempty]
      split_ifs with hq
      · rw [← hq]
        exact hsuffix.subset
      · exact fun _ hc => hc

/-- An answer puts nothing on a queue. -/
theorem actOnIncoming_queueOf (s : Sys) (phone : Option PhoneId) (c : Option CallId)
    (cmd : Command) (q : PhoneId) : (s.actOnIncoming phone c cmd).2.queueOf q ⊆ s.queueOf q := by
  unfold Sys.actOnIncoming
  cases s.resolvePhone phone with
  | error e => exact fun _ hc => hc
  | ok p =>
      have hqueue := getIncomingCall_queueOf s p c q
      dsimp only [Sys.sendTo]
      cases (s.getIncomingCall p c).1 with
      | error e => exact hqueue
      | ok o => exact hqueue

/-- Every action outside the lifecycle list. -/
theorem step_still (s : Sys) (a : Action) (ha : a.lifecycle = false) : Still s (s.step a) := by
  refine ⟨(s.step_quiet a ha).table, ?_⟩
  intro q
  have hsame : ∀ {t : Sys}, s.step a = t → t.incomingQueue = s.incomingQueue →
      (s.step a).queueOf q ⊆ s.queueOf q := by
    intro t ht hqueue
    rw [ht, Sys.queueOf, hqueue]
    exact fun _ hc => hc
  cases a with
  | makeCall | incomingCall | callState | mediaState => cases ha
  | addPhone | dropPhone | reregisterPhone | cleanup => cases ha
  | answerCall phone c code => exact actOnIncoming_queueOf s phone c (.answer code) q
  | rejectCall phone c code => exact actOnIncoming_queueOf s phone c (.hangup code) q
  | callOp op =>
      obtain ⟨_, _, h, -⟩ := s.callOp_eq op
      exact hsame h rfl
  | pollAutoAnswers => exact hsame rfl rfl
  | autoAnswerNext =>
      obtain ⟨_, _, h, -⟩ := s.autoAnswerNext_eq
      exact hsame h rfl
  | processAutoCaptures =>
      obtain ⟨_, _, _, _, h⟩ := s.drainStarts_eq s.autoCapturePendingStart
      exact hsame h rfl
  | resumeAutoCaptures stamp =>
      obtain ⟨_, _, _, _, h⟩ := s.resumeAutoCaptures_eq stamp
      exact hsame h rfl
  | setCaptureEnabled p enabled =>
      obtain ⟨_, _, _, h⟩ := s.setCaptureEnabled_eq p enabled
      exact hsame h rfl
  | setRecordingEnabled p enabled rec env =>
      obtain ⟨_, _, h, -⟩ := s.setRecordingEnabled_eq p enabled rec env
      exact hsame h rfl
  | setCodecsForPhone p codecs =>
      obtain ⟨_, _, _, h, -⟩ := s.setCodecsForPhone_eq p codecs
      exact hsame h rfl
  | setAutoAnswer p enabled =>
      change (s.setAutoAnswer p enabled).queueOf q ⊆ _
      unfold Sys.setAutoAnswer
      split <;> exact fun _ hc => hc

/-- Changing what the call table does not see of one call. -/
theorem changeFound_still (s : Sys) (found : Except String ObjId)
    {f : SipCall → Option String × SipCall} (hf : ∀ call, (f call).2.skeleton = call.skeleton) :
    Still s (s.changeFound found f).2 := by
  unfold Sys.changeFound
  cases found with
  | error e => exact .refl s
  | ok o =>
      cases ho : s.objs[o]? with
      | none =>
          simp only [ho]
          exact .refl s
      | some call =>
          simp only [ho]
          refine ⟨?_, fun _ _ hc => hc⟩
          rw [Sys.set_table, SipCall.track_eq_of_skeleton_eq (hf call)]
          obtain ⟨hlt, hget⟩ := List.getElem?_eq_some_iff.mp (Sys.table_heap_of_some ho)
          rw [CallTable.update, ← hget, List.set_getElem_self]

/-- No tool of a phone hands out ids or files calls elsewhere. -/
theorem run_still (s : Sys) (op : PhoneOp) : Still s (op.run s).state := by
  cases op with
  | answerCall phone c statusCode => exact step_still s (.answerCall phone c statusCode) rfl
  | rejectCall phone c statusCode => exact step_still s (.rejectCall phone c statusCode) rfl
  | callOp op => exact step_still s (.callOp op) rfl
  | getCallInfo phone c => exact .refl s
  | playAudio filePath phone c opened =>
      exact changeFound_still s _ fun call => call.playFile_skeleton filePath opened
  | stopAudio phone c mohExists opened =>
      exact changeFound_still s _ fun call => call.stopPlayback_skeleton mohExists opened
  | conference callIds phone => exact .refl s
  | setRecordingEnabled p enabled rec env =>
      exact step_still s (.setRecordingEnabled p enabled rec env) rfl
  | setCodecsForPhone p codecs => exact step_still s (.setCodecsForPhone p codecs) rfl

/-! ## New calls -/

/-- A new call is queued for its own phone, if at all. -/
theorem newCall_queueOf {s : Sys} {a : Action} (ha : a.creates = true) {call : SipCall}
    (hcall : s.newCall a = some call) (p : PhoneId) :
    ∀ c ∈ (s.step a).queueOf p, c ∈ s.queueOf p ∨ c = call.callId ∧ p = call.phoneId := by
  intro c hc
  cases a with
  | makeCall phone destUri placed =>
      change c ∈ ((s.makeCall phone destUri placed).2).queueOf p at hc
      rcases s.makeCall_cases phone destUri placed with
        ⟨-, h⟩ | ⟨q, cfg, ci, owner, -, -, -, -, -, -, h⟩
      · rw [h] at hc
        exact .inl hc
      · obtain ⟨_, hindex⟩ :=
          (s.trackCall (Sys.outboundCall q cfg ci)).trackSipCallId_eq ci.callIdString owner
        rw [h, hindex] at hc
        exact .inl hc
  | incomingCall q i ci =>
      change c ∈ (s.onIncomingCall q i ci).queueOf p at hc
      rcases s.onIncomingCall_cases q i ci with ⟨-, -, h⟩ | ⟨cfg, owner, -, -, -, hnew, h⟩
      · rw [h] at hc
        exact .inl hc
      · rw [hnew, Option.some.injEq] at hcall
        subst hcall
        have hqueue : (s.onIncomingCall q i ci).incomingQueue =
            Sys.appendTo s.incomingQueue q i := by
          obtain ⟨_, hindex⟩ := Sys.trackSipCallId_eq _ (Sys.capturedCallId ci) owner
          rw [h, hindex]
        rw [Sys.queueOf_appendTo hqueue, List.mem_append] at hc
        rcases hc with hold | hself
        · exact .inl hold
        · split_ifs at hself with hq
          · exact .inr ⟨List.mem_singleton.mp hself, hq.symm⟩
          · cases hself
  | _ => cases ha

/-- A new call is filed under its own phone. -/
theorem Contained.newCall {w : Endpoint} (h : Contained w) {a : Action} (ha : a.creates = true)
    (en : w.enabled (.act a) = true) : Contained (w.step (.act a)) := by
  have hborn : ∀ call, w.sys.newCall a = some call → w.sys.calls.get? call.callId = none ∧
      call.inv ≠ .disconnected ∧ call.info.state = none ∧ call.info.phoneId = call.phoneId := by
    intro call hcall
    obtain ⟨hfree, hinv, hstate, hphone, -⟩ :=
      Sys.newCall_spec_of hcall w.idReleased (by
        rintro phone destUri ci rfl
        simpa [Endpoint.enabled] using en) (by
        rintro p c ci rfl
        exact en)
    exact ⟨h.untracked hfree, hinv, hstate, hphone⟩
  have hsound := Sys.creates_sound ha h.sound fun call hcall => (hborn call hcall).2
  rcases w.sys.step_newCall a ha with ⟨hnone, hsame⟩ | ⟨call, _, _, _, hcall, hstep⟩
  · have hinUse : w.inUseAfter a = w.inUse := by
      cases a with
      | makeCall phone destUri placed => simp [Endpoint.inUseAfter, hnone]
      | incomingCall p c ci => simp [Endpoint.inUseAfter, hnone]
      | _ => cases ha
    have hw : w.step (.act a) = w := by rw [Endpoint.step, hsame, hinUse]
    rw [hw]
    exact h
  · have hinUse : w.inUseAfter a = w.inUse ++ [w.sys.objs.length] := by
      cases a with
      | makeCall phone destUri placed => simp [Endpoint.inUseAfter, hcall]
      | incomingCall p c ci => simp [Endpoint.inUseAfter, hcall]
      | _ => cases ha
    have huntracked := (hborn call hcall).1
    constructor
    · exact hsound
    · intro p c hc
      have howner : (w.sys.step a).callPhone = w.sys.callPhone.set call.callId call.phoneId := by
        rw [hstep]
        rfl
      change (w.sys.step a).callPhone.get? c = some p
      rw [howner, OrderedDict.get?_set]
      rcases newCall_queueOf ha hcall p c hc with hold | ⟨rfl, rfl⟩
      · have hc' := h.queues p c hold
        have hne : call.callId ≠ c := by
          rintro rfl
          have hkeys : w.sys.callPhone.keys = w.sys.calls.keys := h.sound.keys_eq
          rw [OrderedDict.get?_eq_none_iff, ← hkeys, ← OrderedDict.get?_eq_none_iff, hc']
            at huntracked
          cases huntracked
        rw [if_neg hne, hc']
      · rw [if_pos rfl]
    · intro c o hc
      change o ∈ w.inUseAfter a
      have hcalls : (w.sys.step a).calls = w.sys.calls.set call.callId w.sys.objs.length := by
        rw [hstep]
        rfl
      change (w.sys.step a).calls.get? c = some o at hc
      rw [hcalls, OrderedDict.get?_set] at hc
      rw [hinUse, List.mem_append, List.mem_singleton]
      split_ifs at hc
      · exact .inr (Option.some.inj hc).symm
      · exact .inl (h.inUse hc)

/-! ## Calls that end -/

/-- A call that ends is forgotten everywhere. -/
theorem Contained.callState {w : Endpoint} (h : Contained w) {o : ObjId} {ci : CallInfo}
    {env : SidecarEnv} {timestamp : String}
    (en : w.sys.enabled (.callState o ci env timestamp) = true) :
    Contained (w.step (.act (.callState o ci env timestamp))) := by
  obtain ⟨call, ho, -⟩ := Sys.exists_of_objActive en
  have hsound := Sys.step_sound en h.sound
  by_cases hstate : ci.state = .disconnected
  · obtain ⟨f, hends⟩ := Sys.onCallState_untracks h.sound ho hstate env timestamp
    have hkept : ∀ {c i}, (w.sys.onCallState o ci env timestamp).calls.get? c = some i →
        f c = true ∧ w.sys.calls.get? c = some i := by
      intro c i hc
      rw [hends.calls, OrderedDict.get?_filterKeys] at hc
      split_ifs at hc with hf
      exact ⟨hf, hc⟩
    constructor
    · exact hsound
    · intro p c hc
      change c ∈ (w.sys.onCallState o ci env timestamp).queueOf p at hc
      change (w.sys.onCallState o ci env timestamp).callPhone.get? c = some p
      rw [hends.queue p, List.mem_filter] at hc
      obtain ⟨i, hi⟩ := (OrderedDict.contains_iff _ c).mp hc.2
      rw [hends.owner, OrderedDict.get?_filterKeys, if_pos (hkept hi).1]
      exact h.queues p c hc.1
    · intro c i hc
      obtain ⟨hf, hget⟩ := hkept hc
      change i ∈ if ci.state = .disconnected then w.inUse.filter fun i => i ≠ o else w.inUse
      rw [if_pos hstate, List.mem_filter, decide_eq_true_eq]
      refine ⟨h.inUse hget, ?_⟩
      rintro rfl
      exact (hends.keeps c).mp hf hget
  · have hrefreshed := Sys.onCallState_refreshed ho hstate env timestamp
    constructor
    · exact hsound
    · intro p c hc
      change c ∈ (w.sys.onCallState o ci env timestamp).queueOf p at hc
      change (w.sys.onCallState o ci env timestamp).callPhone.get? c = some p
      rw [hrefreshed] at hc ⊢
      exact h.queues p c hc
    · intro c i hc
      change (w.sys.onCallState o ci env timestamp).calls.get? c = some i at hc
      change i ∈ if ci.state = .disconnected then w.inUse.filter fun i => i ≠ o else w.inUse
      rw [if_neg hstate]
      rw [hrefreshed] at hc
      exact h.inUse hc

theorem Contained.mediaState {w : Endpoint} (h : Contained w) {o : ObjId}
    {media : List MediaStatus} (en : w.sys.enabled (.mediaState o media) = true) :
    Contained (w.step (.act (.mediaState o media))) := by
  have hsame : (w.sys.onCallMediaState o media).calls = w.sys.calls ∧
      (w.sys.onCallMediaState o media).callPhone = w.sys.callPhone ∧
      (w.sys.onCallMediaState o media).incomingQueue = w.sys.incomingQueue := by
    cases ho : w.sys.objs[o]? with
    | none =>
        rw [Sys.onCallMediaState_of_unknown ho]
        exact ⟨rfl, rfl, rfl⟩
    | some call =>
        obtain ⟨_, _, heq⟩ := Sys.onCallMediaState_eq ho media
        rw [heq]
        exact ⟨rfl, rfl, rfl⟩
  constructor
  · exact Sys.step_sound en h.sound
  · intro p c hc
    change c ∈ ((w.sys.onCallMediaState o media).incomingQueue.get? p).getD [] at hc
    change (w.sys.onCallMediaState o media).callPhone.get? c = some p
    rw [hsame.2.2] at hc
    rw [hsame.2.1]
    exact h.queues p c hc
  · intro c i hc
    change (w.sys.onCallMediaState o media).calls.get? c = some i at hc
    rw [hsame.1] at hc
    exact h.inUse hc

/-! ## Phones that go -/

/-- A phone that is dropped gives its ids back. -/
theorem Contained.dropPhone {w : Endpoint} (h : Contained w) (p : PhoneId) :
    Contained ⟨w.sys.dropPhone p, w.withoutPhone p⟩ := by
  cases hp : w.sys.phones.get? p with
  | none =>
      have hinUse : w.withoutPhone p = w.inUse := by
        simp [Endpoint.withoutPhone, OrderedDict.contains, hp]
      rw [Sys.dropPhone_of_unknown hp, hinUse]
      exact h
  | some cfg =>
      obtain ⟨_, hdrop⟩ := Sys.dropPhone_eq hp
      have hcontains : w.sys.phones.contains p = true := by simp [OrderedDict.contains, hp]
      constructor
      · exact Sys.dropPhone_sound h.sound p
      · intro q c hc
        change (w.sys.dropPhone p).callPhone.get? c = some q
        change c ∈ ((w.sys.dropPhone p).incomingQueue.get? q).getD [] at hc
        rw [hdrop] at hc ⊢
        change c ∈ ((w.sys.incomingQueue.pop p).get? q).getD [] at hc
        rw [OrderedDict.get?_pop] at hc
        split_ifs at hc with hq
        · cases hc
        · have howner := h.queues q c hc
          have hkept : c ∉ w.sys.idsOf p := by
            rw [Sys.mem_idsOf_iff, howner, Option.some.injEq]
            exact hq
          simpa [Sys.untrack, hkept] using howner
      · intro c o hc
        change (w.sys.dropPhone p).calls.get? c = some o at hc
        rw [hdrop] at hc
        change (w.sys.calls.filterKeys fun c => c ∉ w.sys.idsOf p).get? c = some o at hc
        rw [OrderedDict.get?_filterKeys] at hc
        split_ifs at hc with hkept
        obtain ⟨k, hk, -, howner⟩ := h.sound.entry hc
        rw [Sys.table_heap, Option.map_eq_some_iff] at hk
        obtain ⟨call, hcall, rfl⟩ := hk
        change o ∈ w.withoutPhone p
        rw [Endpoint.withoutPhone, if_pos hcontains, List.mem_filter, hcall]
        refine ⟨h.inUse hc, ?_⟩
        rw [Option.all_some, decide_eq_true_eq]
        rintro rfl
        rw [decide_eq_true_eq, Sys.mem_idsOf_iff] at hkept
        exact hkept howner

/-- A phone that is replaced gives the ids of its old account back. -/
theorem Contained.addPhone {w : Endpoint} (h : Contained w) (p : PhoneId) (cfg : PhoneConfig)
    (out : AddOutcome) : Contained ⟨w.sys.addPhone p cfg out, w.withoutPhone p⟩ := by
  have hdropped := h.dropPhone p
  obtain ⟨_, _, _, _, hcreate⟩ := (w.sys.dropPhone p).createPhone_eq p cfg out
  have htable := w.sys.addPhone_table p cfg out
  constructor
  · change (w.sys.addPhone p cfg out).table.Sound
    rw [htable]
    exact hdropped.sound
  · intro q c hc
    have howner : (w.sys.addPhone p cfg out).callPhone = (w.sys.dropPhone p).callPhone :=
      congrArg CallTable.owner htable
    change c ∈ ((w.sys.dropPhone p).createPhone p cfg out).queueOf q at hc
    change (w.sys.addPhone p cfg out).callPhone.get? c = some q
    rw [Sys.createPhone_queueOf] at hc
    rw [howner]
    exact hdropped.queues q c hc
  · intro c o hc
    have hcalls : (w.sys.addPhone p cfg out).calls = (w.sys.dropPhone p).calls :=
      congrArg CallTable.calls htable
    change (w.sys.addPhone p cfg out).calls.get? c = some o at hc
    rw [hcalls] at hc
    exact hdropped.inUse hc

theorem contained_cleanup (w : Endpoint) (h : Contained w) :
    Contained (w.step (.act .cleanup)) where
  sound := Sys.step_sound rfl h.sound
  queues := by
    intro p c hc
    change c ∈ ((w.sys.incomingQueue.mapValues fun _ _ => []).get? p).getD [] at hc
    rw [OrderedDict.get?_mapValues] at hc
    have hempty : ((w.sys.incomingQueue.get? p).map fun _ => ([] : List CallId)).getD [] = [] := by
      cases w.sys.incomingQueue.get? p <;> rfl
    rw [hempty] at hc
    cases hc
  inUse := by
    intro c o hc
    cases hc

/-! ## Along every run -/

/-- What the library promises keeps calls with their phones. -/
theorem step_contained {w : Endpoint} {a : EndpointAction} (en : w.enabled a = true)
    (h : Contained w) : Contained (w.step a) := by
  cases a with
  | operate op => exact h.still (run_still w.sys op)
  | act a =>
      cases a with
      | makeCall phone destUri placed => exact h.newCall rfl en
      | incomingCall p c ci => exact h.newCall rfl en
      | callState o ci env timestamp => exact h.callState en
      | mediaState o media => exact h.mediaState en
      | addPhone p cfg out => exact h.addPhone p cfg out
      | dropPhone p => exact h.dropPhone p
      | reregisterPhone p creds out =>
          change Contained ⟨w.sys.reregisterPhone p creds out, w.withoutPhone p⟩
          rcases w.sys.reregisterPhone_cases p creds out with ⟨hp, hsame⟩ | ⟨cfg, -, hadd⟩
          · have hinUse : w.withoutPhone p = w.inUse := by
              simp [Endpoint.withoutPhone, OrderedDict.contains, hp]
            rw [hsame, hinUse]
            exact h
          · rw [hadd]
            exact h.addPhone p _ out
      | cleanup => exact contained_cleanup w h
      | _ => exact h.still (step_still w.sys _ rfl)

/-- What is tracked is in use, in every reachable state. -/
theorem contained_of_reachable {w : Endpoint} (run : endpoint.Reachable w) : Contained w :=
  run.invariant (P := Contained) contained_initial fun _ _ en _ h => step_contained en h

/-- In every reachable state the dictionaries and the queues keep calls with their phones; an
operation reaches the calls of its phone only, and it is refused when it is given an id that is
not one of them. -/
theorem phones_isolated {w : Endpoint} (run : endpoint.Reachable w) :
    Isolated w.sys ∧ ∀ (op : PhoneOp) (p : PhoneId), op.scope w.sys = some p →
      (∀ o ∈ (op.run w.sys).touched, w.sys.Owns p o) ∧
      ∀ c ∈ op.explicitIds, w.sys.callPhone.get? c ≠ some p →
        PhoneOp.Refused w.sys (op.run w.sys) := by
  have h := contained_of_reachable run
  refine ⟨h.isolated, ?_⟩
  intro op p hscope
  constructor
  · intro o ho
    obtain ⟨e, he, ho⟩ := List.mem_flatMap.mp ho
    obtain ⟨hreceiver, hargument⟩ := PhoneOp.run_reaches h.queues hscope e he
    rcases List.mem_cons.mp ho with rfl | ho
    · exact hreceiver
    · exact hargument o ho
  · intro c hc hforeign
    exact PhoneOp.run_refused hscope hc hforeign

/-- Two phones with a call each; then bob hangs up alice's call. -/
def aliceAndBob : List EndpointAction :=
  [.act (.addPhone "alice" { domain := "d" } ⟨some 1, true⟩),
    .act (.addPhone "bob" { domain := "d" } ⟨some 2, true⟩),
    .act (.incomingCall "alice" 0 none), .act (.incomingCall "bob" 1 none)]

theorem phones_isolated_refused :
    PhoneOp.Refused (endpoint.run endpoint.init aliceAndBob).sys
      ((PhoneOp.callOp (.hangup (some "bob") (some 0))).run
        (endpoint.run endpoint.init aliceAndBob).sys) := by
  have hrun : endpoint.Reachable (endpoint.run endpoint.init aliceAndBob) :=
    GuardedSystem.Reach.init.run (by decide)
  exact ((phones_isolated hrun).2 (.callOp (.hangup (some "bob") (some 0))) "bob" rfl).2 0
    (by decide) (by decide)

end PjsuaMcp.Calls
