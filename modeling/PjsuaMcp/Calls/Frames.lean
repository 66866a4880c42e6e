import PjsuaMcp.Calls.CallTable
import PjsuaMcp.Calls.System

/-!
# What the actions leave alone

Most actions leave the call table alone: they change neither the tracked calls
nor the parts of a call that the lifecycle callbacks write. Each operation has
one lemma that names the fields it may change, and `step_quiet` collects them
for every action that does not create, end or untrack calls or make one
audio-active.
-/

namespace PjsuaMcp.Calls

open Library

/-- The actions that may create, end or untrack a call, or make it audio-active. -/
def Action.lifecycle : Action → Bool
  | .makeCall _ _ _ | .incomingCall _ _ _ | .callState _ _ _ _ | .mediaState _ _ => true
  | .addPhone _ _ _ | .dropPhone _ | .reregisterPhone _ _ _ | .cleanup => true
  | _ => false

/-- The actions that may put a new call on the heap. -/
def Action.creates : Action → Bool
  | .makeCall _ _ _ | .incomingCall _ _ _ => true
  | _ => false

namespace Sys

/-! ## Commands -/

/-- Sending a command touches the command list and the answer flags only. -/
theorem send_eq (s : Sys) (o : ObjId) (cmd : Command) :
    ∃ objs, s.send o cmd = { s with objs := objs, commands := s.commands ++ [(o, cmd)] } ∧
      objs.map SipCall.core = s.objs.map SipCall.core := by
  refine ⟨_, rfl, ?_⟩
  split_ifs
  · apply List.ext_getElem?
    intro i
    simp only [List.getElem?_map, List.getElem?_modify]
    cases s.objs[i]? with
    | none => rfl
    | some call =>
        by_cases hi : o = i
        · simp [hi, SipCall.core]
        · simp [hi]
  · rfl

theorem sendAll_eq (s : Sys) (cmds : List (ObjId × Command)) :
    ∃ objs, s.sendAll cmds = { s with objs := objs, commands := s.commands ++ cmds } ∧
      objs.map SipCall.core = s.objs.map SipCall.core := by
  induction cmds generalizing s with
  | nil => exact ⟨s.objs, by simp [sendAll], rfl⟩
  | cons e rest ih =>
      obtain ⟨objs, hsend, htrack⟩ := s.send_eq e.1 e.2
      obtain ⟨objs', hrest, htrack'⟩ := ih (s.send e.1 e.2)
      refine ⟨objs', ?_, ?_⟩
      · change (s.send e.1 e.2).sendAll rest = _
        rw [hrest, hsend]
        simp
      · rw [htrack', hsend, htrack]

/-- A call tool touches the calls and the commands sent. -/
theorem callOp_eq (s : Sys) (op : CallOp) :
    ∃ objs cmds, s.callOp op = { s with objs := objs, commands := s.commands ++ cmds } ∧
      objs.map SipCall.core = s.objs.map SipCall.core := by
  unfold callOp
  cases op.commands s with
  | error e => exact ⟨s.objs, [], by simp, rfl⟩
  | ok cmds =>
      obtain ⟨objs, h, ht⟩ := s.sendAll_eq cmds
      exact ⟨objs, cmds, h, ht⟩

/-! ## Lookups with a queue -/

theorem setQueue_eq (s : Sys) (p : PhoneId) (queue : List CallId) :
    ∃ queues, s.setQueue p queue = { s with incomingQueue := queues } := by
  unfold setQueue
  split_ifs
  · exact ⟨_, rfl⟩
  · exact ⟨s.incomingQueue, rfl⟩

theorem getIncomingCall_eq (s : Sys) (p : PhoneId) (c : Option CallId) :
    ∃ queues, (s.getIncomingCall p c).2 = { s with incomingQueue := queues } := by
  cases c with
  | some c => exact ⟨s.incomingQueue, rfl⟩
  | none =>
      obtain ⟨queues, h⟩ := s.setQueue_eq p (s.popTracked (s.queueOf p)).2
      refine ⟨queues, ?_⟩
      simp only [getIncomingCall]
      cases (s.popTracked (s.queueOf p)).1 with
      | some o => exact h
      | none => exact h

/-- Answering and rejecting touch a queue, the command list and the answer flags. -/
theorem actOnIncoming_eq (s : Sys) (phone : Option PhoneId) (c : Option CallId) (cmd : Command) :
    ∃ queues objs cmds, (s.actOnIncoming phone c cmd).2 =
        { s with incomingQueue := queues, objs := objs, commands := s.commands ++ cmds } ∧
      objs.map SipCall.core = s.objs.map SipCall.core := by
  unfold actOnIncoming
  cases s.resolvePhone phone with
  | error e => exact ⟨s.incomingQueue, s.objs, [], by simp, rfl⟩
  | ok p =>
      obtain ⟨queues, hfound⟩ := s.getIncomingCall_eq p c
      dsimp only [sendTo]
      cases (s.getIncomingCall p c).1 with
      | error e => exact ⟨queues, s.objs, [], by simp [hfound], rfl⟩
      | ok o =>
          obtain ⟨objs, hsend, ht⟩ := (s.getIncomingCall p c).2.send_eq o cmd
          refine ⟨queues, objs, [(o, cmd)], ?_, ?_⟩
          · dsimp only
            rw [hsend, hfound]
          · rw [ht, hfound]

/-- An automatic answer takes its phone off the list and sends a command. -/
theorem autoAnswerNext_eq (s : Sys) :
    ∃ objs cmds, s.autoAnswerNext =
        { s with autoAnswering := s.autoAnswering.tail, objs := objs,
                 commands := s.commands ++ cmds } ∧
      objs.map SipCall.core = s.objs.map SipCall.core := by
  unfold autoAnswerNext
  split
  · rename_i h
    exact ⟨s.objs, [], by rw [h, List.append_nil, List.tail_nil, ← h], rfl⟩
  · rename_i p c rest h
    dsimp only
    split
    · exact ⟨s.objs, [], by rw [h, List.append_nil, List.tail_cons], rfl⟩
    · rename_i o _
      obtain ⟨objs, hsend, ht⟩ := { s with autoAnswering := rest }.send_eq o (.answer 200)
      exact ⟨objs, [(o, .answer 200)], by rw [hsend, h]; rfl, ht⟩

/-! ## Toggles -/

/-- Changing some objects without touching one view of them. -/
theorem mapObjs_view {β : Type*} (view : SipCall → β) (s : Sys) (os : List ObjId)
    (f : ObjId → SipCall → SipCall) (hf : ∀ o call, view (f o call) = view call) :
    (s.mapObjs os f).objs.map view = s.objs.map view := by
  apply List.ext_getElem?
  intro i
  simp only [mapObjs, List.getElem?_map, List.getElem?_mapIdx]
  cases s.objs[i]? with
  | none => rfl
  | some call =>
      by_cases hi : i ∈ os <;> simp [hi, hf]

theorem setRecordingEnabled_eq (s : Sys) (p : PhoneId) (enabled : Bool)
    (rec : ObjId → RecorderEnv) (env : ObjId → SidecarEnv) :
    ∃ phones objs, s.setRecordingEnabled p enabled rec env =
        { s with phones := phones, objs := objs } ∧
      objs.map SipCall.track = s.objs.map SipCall.track := by
  unfold setRecordingEnabled
  split
  · exact ⟨s.phones, s.objs, rfl, rfl⟩
  · refine ⟨_, _, rfl, mapObjs_view SipCall.track _ _ _ ?_⟩
    intro o call
    exact SipCall.track_eq_of_skeleton_eq (SipCall.toggleRecording_skeleton call enabled _ _ _)

/-- Setting the codecs of a phone reaches its calls by command. -/
theorem setCodecsForPhone_eq (s : Sys) (p : PhoneId) (codecs : List String) :
    ∃ phones objs cmds, s.setCodecsForPhone p codecs =
        { s with phones := phones, objs := objs, commands := s.commands ++ cmds } ∧
      objs.map SipCall.core = s.objs.map SipCall.core := by
  unfold setCodecsForPhone
  split
  · exact ⟨s.phones, s.objs, [], by simp, rfl⟩
  · dsimp only
    obtain ⟨objs, hsend, ht⟩ := sendAll_eq _ _
    refine ⟨_, objs, _, hsend, ht.trans (mapObjs_view SipCall.core _ _ _ ?_)⟩
    intro o call
    rfl

/-! ## The capture queues -/

/-- A stop is queued exactly when the phone's tcpdump is running. -/
theorem queueStopIfCapturing_eq (s : Sys) (p : PhoneId) :
    s.queueStopIfCapturing p = { s with autoCapturePendingStop :=
      s.autoCapturePendingStop ++ if s.isPhoneCapturing p then [p] else [] } := by
  unfold queueStopIfCapturing
  split_ifs
  · rfl
  · rw [List.append_nil]

theorem setCaptureEnabled_eq (s : Sys) (p : PhoneId) (enabled : Bool) :
    ∃ phones starts stops, s.setCaptureEnabled p enabled =
      { s with phones := phones, autoCapturePendingStart := starts,
               autoCapturePendingStop := stops } := by
  unfold setCaptureEnabled
  split
  · exact ⟨s.phones, s.autoCapturePendingStart, s.autoCapturePendingStop, rfl⟩
  · dsimp only
    split_ifs
    · exact ⟨_, _, s.autoCapturePendingStop, rfl⟩
    · exact ⟨_, s.autoCapturePendingStart, s.autoCapturePendingStop, rfl⟩
    · exact ⟨_, s.autoCapturePendingStart, _, queueStopIfCapturing_eq _ p⟩

theorem drainStops_eq (s : Sys) (stops : List PhoneId) :
    ∃ stops' processes drain, s.drainStops stops =
      { s with autoCapturePendingStop := stops', phoneProcesses := processes, drain := drain } := by
  induction stops with
  | nil => exact ⟨_, s.phoneProcesses, _, rfl⟩
  | cons p rest ih =>
      unfold drainStops
      split_ifs
      · exact ⟨_, _, _, rfl⟩
      · exact ih

theorem drainStarts_eq (s : Sys) (starts : List (PhoneId × Option CallId)) :
    ∃ starts' stops' processes drain, s.drainStarts starts =
      { s with autoCapturePendingStart := starts', autoCapturePendingStop := stops',
               phoneProcesses := processes, drain := drain } := by
  induction starts with
  | nil =>
      obtain ⟨stops, processes, drain, h⟩ :=
        { s with autoCapturePendingStart := [] }.drainStops_eq s.autoCapturePendingStop
      exact ⟨_, stops, processes, drain, h⟩
  | cons e rest ih =>
      unfold drainStarts
      split_ifs
      · exact ih
      · exact ⟨_, s.autoCapturePendingStop, s.phoneProcesses, _, rfl⟩

theorem resumeAutoCaptures_eq (s : Sys) (stamp : String) :
    ∃ starts stops processes drain, s.resumeAutoCaptures stamp =
      { s with autoCapturePendingStart := starts, autoCapturePendingStop := stops,
               phoneProcesses := processes, drain := drain } := by
  unfold resumeAutoCaptures
  split
  · exact ⟨s.autoCapturePendingStart, s.autoCapturePendingStop, s.phoneProcesses, s.drain, rfl⟩
  · obtain ⟨starts, stops, processes, drain, h⟩ := drainStarts_eq _ s.autoCapturePendingStart
    exact ⟨starts, stops, processes, drain, h⟩
  · obtain ⟨stops, processes, drain, h⟩ := s.drainStops_eq s.autoCapturePendingStop
    exact ⟨s.autoCapturePendingStart, stops, processes, drain, h⟩

/-! ## Together -/

/-- The ids on the queues of incoming calls. -/
theorem mem_queuedIds_iff (queues : OrderedDict PhoneId (List CallId)) (p : PhoneId) (c : CallId) :
    (p, c) ∈ queuedIds queues ↔ ∃ queue, queues.get? p = some queue ∧ c ∈ queue := by
  simp only [queuedIds, List.mem_flatMap, List.mem_map, Prod.mk.injEq, OrderedDict.get?_eq_some_iff]
  constructor
  · rintro ⟨⟨p', queue⟩, he, c', hc', rfl, rfl⟩
    exact ⟨queue, he, hc'⟩
  · rintro ⟨queue, he, hc⟩
    exact ⟨(p, queue), he, c, hc, rfl, rfl⟩

/-- The ids that will still be answered automatically, each with the phone it came in on. -/
def waiting (s : Sys) : List (PhoneId × CallId) :=
  s.autoAnswering ++ queuedIds s.autoAnswerPending

/-- Polling only takes phones off the waiting list. -/
theorem pollAutoAnswers_waiting (s : Sys) : s.pollAutoAnswers.waiting ⊆ s.waiting := by
  rintro ⟨p, c⟩ he
  rcases List.mem_append.mp he with hnow | hlater
  · exact List.mem_append_right _ hnow
  · obtain ⟨queue, hqueue, hc⟩ := (mem_queuedIds_iff _ p c).mp hlater
    simp only [pollAutoAnswers, OrderedDict.get?_mapValues, Option.map_eq_some_iff] at hqueue
    obtain ⟨-, -, rfl⟩ := hqueue
    cases hc

/-- What no action outside the lifecycle list changes, and what it may only use up. -/
structure Quiet (s s' : Sys) : Prop where
  table : s'.table = s.table
  counts : s'.activeCallsByPhone = s.activeCallsByPhone
  index : s'.sipCallIdIndex = s.sipCallIdIndex
  waiting : s'.waiting ⊆ s.waiting

/-- New objects with the old tracks leave the call table alone. -/
theorem Quiet.of_eq {s s' t : Sys} (h : s' = t) (hcalls : t.calls = s.calls)
    (howner : t.callPhone = s.callPhone)
    (htracks : t.objs.map SipCall.track = s.objs.map SipCall.track)
    (hcounts : t.activeCallsByPhone = s.activeCallsByPhone)
    (hindex : t.sipCallIdIndex = s.sipCallIdIndex) (hwaiting : t.waiting ⊆ s.waiting) :
    s.Quiet s' where
  table := by rw [h, Sys.table, Sys.table, hcalls, howner, htracks]
  counts := h ▸ hcounts
  index := h ▸ hindex
  waiting := h ▸ hwaiting

/-- Every action outside the lifecycle list is quiet. -/
theorem step_quiet (s : Sys) (a : Action) (ha : a.lifecycle = false) : s.Quiet (s.step a) := by
  cases a with
  | makeCall | incomingCall | callState | mediaState => cases ha
  | addPhone | dropPhone | reregisterPhone | cleanup => cases ha
  | answerCall phone c code =>
      obtain ⟨_, objs, _, h, ht⟩ := s.actOnIncoming_eq phone c (.answer code)
      exact .of_eq h rfl rfl (SipCall.map_track_of_map_core ht) rfl rfl (fun _ he => he)
  | rejectCall phone c code =>
      obtain ⟨_, objs, _, h, ht⟩ := s.actOnIncoming_eq phone c (.hangup code)
      exact .of_eq h rfl rfl (SipCall.map_track_of_map_core ht) rfl rfl (fun _ he => he)
  | callOp op =>
      obtain ⟨objs, _, h, ht⟩ := s.callOp_eq op
      exact .of_eq h rfl rfl (SipCall.map_track_of_map_core ht) rfl rfl (fun _ he => he)
  | pollAutoAnswers => exact ⟨rfl, rfl, rfl, s.pollAutoAnswers_waiting⟩
  | autoAnswerNext =>
      obtain ⟨objs, _, h, ht⟩ := s.autoAnswerNext_eq
      refine .of_eq h rfl rfl (SipCall.map_track_of_map_core ht) rfl rfl ?_
      intro e he
      rcases List.mem_append.mp he with hnow | hlater
      · exact List.mem_append_left _ (List.mem_of_mem_tail hnow)
      · exact List.mem_append_right _ hlater
  | processAutoCaptures =>
      obtain ⟨_, _, _, _, h⟩ := s.drainStarts_eq s.autoCapturePendingStart
      exact .of_eq h rfl rfl rfl rfl rfl (fun _ he => he)
  | resumeAutoCaptures stamp =>
      obtain ⟨_, _, _, _, h⟩ := s.resumeAutoCaptures_eq stamp
      exact .of_eq h rfl rfl rfl rfl rfl (fun _ he => he)
  | setCaptureEnabled p enabled =>
      obtain ⟨_, _, _, h⟩ := s.setCaptureEnabled_eq p enabled
      exact .of_eq h rfl rfl rfl rfl rfl (fun _ he => he)
  | setRecordingEnabled p enabled rec env =>
      obtain ⟨_, objs, h, ht⟩ := s.setRecordingEnabled_eq p enabled rec env
      exact .of_eq h rfl rfl ht rfl rfl (fun _ he => he)
  | setCodecsForPhone p codecs =>
      obtain ⟨_, objs, _, h, ht⟩ := s.setCodecsForPhone_eq p codecs
      exact .of_eq h rfl rfl (SipCall.map_track_of_map_core ht) rfl rfl (fun _ he => he)
  | setAutoAnswer p enabled =>
      change s.Quiet (s.setAutoAnswer p enabled)
      unfold setAutoAnswer
      split <;> exact ⟨rfl, rfl, rfl, fun _ he => he⟩

end Sys

end PjsuaMcp.Calls
