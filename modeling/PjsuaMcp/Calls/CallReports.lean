import PjsuaMcp.Calls.Accounts
import PjsuaMcp.Calls.RecordingMachine
import PjsuaMcp.Scenario.KnownEvents

/-!
# What the bus is told of a call, and what the call manager keeps

Hooks and timelines learn the states of calls from the bus, the tools from the
cached info of the call object. The last state that the bus was told of under a
tracked id is what the call object says, although ids are given out again and a
call whose phone was dropped may still report under its id.

## Implementation notes

On the bus a call is known by its phone and its id only. The library gives an id
to a new call when every call that had it has ended, so at most one call object
that has not ended reports under an id.
-/

namespace PjsuaMcp.Calls

open Library

/-- What a report tells of the state of the call with the id. -/
def Report.stateOf (c : CallId) : Report → Option (CallIdentity × CallInfo)
  | .callState _ call ci => if call.callId = c then some (call, ci) else none
  | _ => none

/-- The last state that was reported under the id. -/
def lastStateOf (reports : List Report) (c : CallId) : Option (CallIdentity × CallInfo) :=
  (reports.filterMap (Report.stateOf c)).getLast?

/-- The call object that a report comes from. -/
def Report.object : Report → Option ObjId
  | .callState o _ _ | .dtmfIn o _ _ => some o
  | _ => none

/-- The report is the last one of a call. -/
def Report.isEnd : Report → Bool
  | .callState _ _ ci => ci.state = .disconnected
  | _ => false

/-- The cached info says what the report says. -/
structure CachedInfo.Says (info : CachedInfo) (ci : CallInfo) : Prop where
  state : info.state = some ci.state
  stateText : info.stateText = ci.stateText
  remoteUri : info.remoteUri = ci.remoteUri
  lastStatus : info.lastStatus = ci.lastStatusCode
  lastStatusText : info.lastStatusText = ci.lastReason
  duration : info.duration = ci.duration

/-- The call object agrees with what was reported under its id. -/
structure SipCall.Told (call : SipCall) (reports : List Report) : Prop where
  silent : call.info.state = none →
    ∀ e, lastStateOf reports call.callId = some e → e.2.state = .disconnected
  said : call.info.state ≠ none →
    ∃ ci, lastStateOf reports call.callId = some (call.toCallIdentity, ci) ∧ call.info.Says ci

/-- Ids of calls that have not ended differ, these calls agree with the bus, what the bus takes
for alive is, and what has ended reports no more. -/
structure Faithful (s : Sys) (reports : List Report) : Prop where
  alone : ∀ (o o' : ObjId) (call call' : SipCall), s.objs[o]? = some call →
    s.objs[o']? = some call' → call.inv ≠ .disconnected → call'.inv ≠ .disconnected →
      call.callId = call'.callId → o = o'
  told : ∀ (o : ObjId) (call : SipCall), s.objs[o]? = some call → call.inv ≠ .disconnected →
    call.Told reports
  alive : ∀ c e, lastStateOf reports c = some e → e.2.state ≠ .disconnected →
    ∃ (o : ObjId) (call : SipCall), s.objs[o]? = some call ∧ call.callId = c ∧
      call.inv ≠ .disconnected
  gone : ∀ r ∈ reports, r.isEnd = true → ∀ o, r.object = some o →
    ∃ call : SipCall, s.objs[o]? = some call ∧ call.inv = .disconnected
  final : ∀ before r after, reports = before ++ r :: after → r.isEnd = true →
    ∀ r' ∈ after, r'.object ≠ r.object

/-- The end of a call is reported by a call object. -/
theorem Report.object_of_isEnd {r : Report} (hend : r.isEnd = true) : none ≠ r.object := by
  cases r with
  | callState o call ci => exact (Option.some_ne_none o).symm
  | _ => cases hend

/-! ## Reports under one id -/

/-- Reports of other calls do not change the last one of this call. -/
theorem lastStateOf_append_of_ne {reports later : List Report} {c : CallId}
    (h : ∀ r ∈ later, r.stateOf c = none) :
    lastStateOf (reports ++ later) c = lastStateOf reports c := by
  rw [lastStateOf, List.filterMap_append, List.filterMap_eq_nil_iff.mpr h, List.append_nil,
    lastStateOf]

/-- The last report of a call, where one more is made. -/
theorem lastStateOf_concat (reports : List Report) (o : ObjId) (call : CallIdentity)
    (ci : CallInfo) (c : CallId) :
    lastStateOf (reports ++ [.callState o call ci]) c =
      if call.callId = c then some (call, ci) else lastStateOf reports c := by
  split_ifs with hc
  · rw [lastStateOf, List.filterMap_append]
    simp [Report.stateOf, hc]
  · apply lastStateOf_append_of_ne
    intro r hr
    rw [List.mem_singleton.mp hr]
    exact if_neg hc

/-- What a report that comes last may have before it. -/
theorem final_concat {reports : List Report} {r : Report}
    (h : ∀ before e after, reports = before ++ e :: after → e.isEnd = true →
      ∀ r' ∈ after, r'.object ≠ e.object)
    (hlast : ∀ e ∈ reports, e.isEnd = true → r.object ≠ e.object) :
    ∀ before e after, reports ++ [r] = before ++ e :: after → e.isEnd = true →
      ∀ r' ∈ after, r'.object ≠ e.object := by
  intro before e after heq hend r' hr'
  obtain ⟨init, last, rfl⟩ : ∃ init last, after = init ++ [last] :=
    ⟨_, _, (List.dropLast_append_getLast (List.ne_nil_of_mem hr')).symm⟩
  have hsplit : reports ++ [r] = (before ++ e :: init) ++ [last] := by
    rw [heq, List.append_assoc, List.cons_append]
  obtain ⟨hreports, hr⟩ := List.append_inj' hsplit rfl
  cases hr
  obtain hinit | hlast' := List.mem_append.mp hr'
  · exact h before e init hreports hend r' hinit
  · rw [List.mem_singleton.mp hlast']
    apply hlast e _ hend
    rw [hreports]
    exact List.mem_append_right _ List.mem_cons_self

/-! ## What is heard of a call -/

namespace SipCall

/-- The part of a call that its reports tell. -/
structure Heard where
  identity : CallIdentity
  inv : InvState
  info : CachedInfo

/-- Recording, playback and codecs are not reported. -/
def heard (call : SipCall) : Heard where
  identity := call.toCallIdentity
  inv := call.inv
  info := { call.info with codec := "", recordingFile := none, playingFile := none }

theorem startRecording_heard (call : SipCall) (audMed : Bool) (env : RecorderEnv) :
    (call.startRecording audMed env).heard = call.heard := by
  unfold startRecording
  split_ifs <;> rfl

theorem reconnectRecorder_heard (call : SipCall) (env : RecorderEnv) :
    (call.reconnectRecorder env).heard = call.heard := by
  unfold reconnectRecorder
  split_ifs
  · rfl
  · exact call.startRecording_heard true env
  · rfl

theorem snapshotRtpPorts_heard (call : SipCall) (ports : TransportPorts) :
    (call.snapshotRtpPorts ports).heard = call.heard := by
  unfold snapshotRtpPorts
  split <;> rfl

theorem writeMetaSidecar_heard (call : SipCall) (pcap : Option String) (env : SidecarEnv) :
    (call.writeMetaSidecar pcap env).heard = call.heard := by
  unfold writeMetaSidecar
  split
  · rfl
  · dsimp only
    split_ifs
    · exact call.snapshotRtpPorts_heard env.ports
    · exact call.snapshotRtpPorts_heard env.ports

/-- The end of a recording is no news of the call's state. -/
theorem stopRecording_heard (call : SipCall) (pcap : Option String) (env : SidecarEnv) :
    (call.stopRecording pcap env).heard = call.heard := by
  unfold stopRecording
  split_ifs
  · rfl
  · exact call.writeMetaSidecar_heard pcap env

theorem toggleRecording_heard (call : SipCall) (enabled : Bool) (pcap : Option String)
    (rec : RecorderEnv) (env : SidecarEnv) :
    (call.toggleRecording enabled pcap rec env).heard = call.heard := by
  unfold toggleRecording
  dsimp only
  split_ifs
  · exact startRecording_heard _ true rec
  · rfl
  · exact stopRecording_heard _ pcap env

theorem stopPlayer_heard (call : SipCall) : call.stopPlayer.heard = call.heard := by
  unfold stopPlayer
  split_ifs <;> rfl

theorem ensurePlayer_heard (call : SipCall) (m : MediaStatus) :
    (call.ensurePlayer m).1.heard = call.heard := by
  unfold ensurePlayer startDefaultMoh
  split_ifs
  · rfl
  · rfl
  · exact call.stopPlayer_heard
  · exact call.stopPlayer_heard

theorem onAudioActive_heard (call : SipCall) (m : MediaStatus) :
    (call.onAudioActive m).1.heard = call.heard := by
  have hplayed : (call.markAudioActive.ensurePlayer m).1.heard = call.heard :=
    call.markAudioActive.ensurePlayer_heard m
  unfold onAudioActive
  dsimp only
  split_ifs
  · exact hplayed
  · rw [snapshotRtpPorts_heard]
    cases m.codecName with
    | none => exact (reconnectRecorder_heard _ _).trans hplayed
    | some name => exact (reconnectRecorder_heard _ _).trans hplayed

theorem onCallMediaState_heard (call : SipCall) (media : List MediaStatus) :
    (call.onCallMediaState media).heard = call.heard := by
  induction media generalizing call with
  | nil => rfl
  | cons m rest ih =>
      rw [onCallMediaState]
      split_ifs
      · exact call.onAudioActive_heard m
      · exact (ih _).trans (call.onAudioActive_heard m)
      · exact ih call

/-- Agreement with the bus is told from what is heard. -/
theorem Told.of_heard {call call' : SipCall} {reports : List Report} (h : call.Told reports)
    (same : call'.heard = call.heard) : call'.Told reports := by
  obtain ⟨hidentity, -, hinfo⟩ := Heard.mk.inj same
  have hid : call'.callId = call.callId := congrArg CallIdentity.callId hidentity
  simp only [CachedInfo.mk.injEq, and_true] at hinfo
  obtain ⟨-, hstate, htext, huri, hstatus, hstatusText, hduration⟩ := hinfo
  constructor
  · rw [hstate, hid]
    exact h.silent
  · rw [hstate, hid, hidentity]
    intro hsaid
    obtain ⟨ci, hlast, hsays⟩ := h.said hsaid
    refine ⟨ci, hlast, hstate.trans hsays.state, htext.trans hsays.stateText,
      huri.trans hsays.remoteUri, hstatus.trans hsays.lastStatus,
      hstatusText.trans hsays.lastStatusText, hduration.trans hsays.duration⟩

/-- `_update_info` takes over what pjsip says. -/
theorem updateInfo_says (call : SipCall) (ci : CallInfo) : (call.updateInfo ci).info.Says ci :=
  ⟨rfl, rfl, rfl, rfl, rfl, rfl⟩

end SipCall

/-! ## Steps -/

namespace Faithful

variable {s s' : Sys} {reports : List Report}

/-- Nothing that is heard of a call has changed. -/
theorem of_heard (h : Faithful s reports)
    (forth : ∀ (o : ObjId) (call' : SipCall), s'.objs[o]? = some call' →
      ∃ call : SipCall, s.objs[o]? = some call ∧ call'.heard = call.heard)
    (back : ∀ (o : ObjId) (call : SipCall), s.objs[o]? = some call →
      ∃ call' : SipCall, s'.objs[o]? = some call' ∧ call'.heard = call.heard) :
    Faithful s' reports where
  alone o o' x y hx hy hliveX hliveY hid := by
    obtain ⟨x', hx', hsameX⟩ := forth o x hx
    obtain ⟨y', hy', hsameY⟩ := forth o' y hy
    obtain ⟨hidX, hinvX, -⟩ := SipCall.Heard.mk.inj hsameX
    obtain ⟨hidY, hinvY, -⟩ := SipCall.Heard.mk.inj hsameY
    apply h.alone o o' x' y' hx' hy' (hinvX ▸ hliveX) (hinvY ▸ hliveY)
    rw [← hidX, ← hidY]
    exact hid
  told o x hx hlive := by
    obtain ⟨x', hx', hsame⟩ := forth o x hx
    have hinv : x.inv = x'.inv := congrArg SipCall.Heard.inv hsame
    exact (h.told o x' hx' (hinv ▸ hlive)).of_heard hsame
  alive c e hlast hstate := by
    obtain ⟨o, x, hx, hid, hlive⟩ := h.alive c e hlast hstate
    obtain ⟨x', hx', hsame⟩ := back o x hx
    obtain ⟨hidentity, hinv, -⟩ := SipCall.Heard.mk.inj hsame
    refine ⟨o, x', hx', ?_, hinv.symm ▸ hlive⟩
    rw [hidentity]
    exact hid
  gone r hr hend o hsource := by
    obtain ⟨x, hx, hinv⟩ := h.gone r hr hend o hsource
    obtain ⟨x', hx', hsame⟩ := back o x hx
    exact ⟨x', hx', (congrArg SipCall.Heard.inv hsame).trans hinv⟩
  final := h.final

/-- Under the id of a new call nothing is taken for alive. -/
theorem created (h : Faithful s reports) {call : SipCall} (hobjs : s'.objs = s.objs ++ [call])
    (hfree : s.idFree call.callId = true) (hstate : call.info.state = none) :
    Faithful s' reports := by
  have hother : ∀ (o : ObjId) (x : SipCall), s.objs[o]? = some x → x.inv ≠ .disconnected →
      x.callId ≠ call.callId := by
    intro o x hx hlive hid
    have hfree := List.all_eq_true.mp hfree x (List.mem_of_getElem? hx)
    simp [hid, SipCall.isActive, hlive] at hfree
  have hkept : ∀ (o : ObjId) (x : SipCall), s.objs[o]? = some x → s'.objs[o]? = some x := by
    intro o x hx
    rw [hobjs, List.getElem?_append_left (List.getElem?_eq_some_iff.mp hx).1, hx]
  refine ⟨fun o o' x y hx hy hliveX hliveY hid => ?_, fun o x hx hlive => ?_,
    fun c e hlast hlive => ?_, fun r hr hend o hsource => ?_, h.final⟩
  · rw [hobjs] at hx hy
    obtain holdX | ⟨rfl, rfl⟩ := cell_of_concat hx
    · obtain holdY | ⟨rfl, rfl⟩ := cell_of_concat hy
      · exact h.alone o o' x y holdX holdY hliveX hliveY hid
      · exact absurd hid (hother o x holdX hliveX)
    · obtain holdY | ⟨rfl, rfl⟩ := cell_of_concat hy
      · exact absurd hid.symm (hother o' y holdY hliveY)
      · rfl
  · rw [hobjs] at hx
    obtain hold | ⟨rfl, rfl⟩ := cell_of_concat hx
    · exact h.told o x hold hlive
    · refine ⟨fun _ e hlast => ?_, fun hsaid => absurd hstate hsaid⟩
      by_contra hopen
      obtain ⟨o, y, hy, hid, hliveY⟩ := h.alive _ e hlast hopen
      exact hother o y hy hliveY hid
  · obtain ⟨o, x, hx, hid, hliveX⟩ := h.alive c e hlast hlive
    exact ⟨o, x, hkept o x hx, hid, hliveX⟩
  · obtain ⟨x, hx, hinv⟩ := h.gone r hr hend o hsource
    exact ⟨x, hkept o x hx, hinv⟩

/-- A call that has not ended has not reported its end. -/
theorem not_ended (h : Faithful s reports) {o : ObjId} {call : SipCall}
    (ho : s.objs[o]? = some call) (hlive : call.inv ≠ .disconnected) :
    ∀ r ∈ reports, r.isEnd = true → some o ≠ r.object := by
  intro r hr hend hsource
  obtain ⟨x, hx, hinv⟩ := h.gone r hr hend o hsource.symm
  rw [ho] at hx
  cases hx
  exact hlive hinv

/-- A report that tells no state leaves the rest to stand. -/
theorem report (h : Faithful s reports) {r : Report} (hstate : ∀ c, r.stateOf c = none)
    (hend : r.isEnd = false) (hsource : ∀ e ∈ reports, e.isEnd = true → r.object ≠ e.object) :
    Faithful s (reports ++ [r]) := by
  have hlast : ∀ c, lastStateOf (reports ++ [r]) c = lastStateOf reports c := by
    intro c
    apply lastStateOf_append_of_ne
    intro e he
    rw [List.mem_singleton.mp he]
    exact hstate c
  refine ⟨h.alone, fun i x hx hlive => ?_, fun c e he => ?_, fun e he hended i hi => ?_, ?_⟩
  · have htold := h.told i x hx hlive
    constructor
    · rw [hlast]
      exact htold.silent
    · rw [hlast]
      exact htold.said
  · rw [hlast] at he
    exact h.alive c e he
  · obtain hold | hnew := List.mem_append.mp he
    · exact h.gone e hold hended i hi
    · rw [List.mem_singleton.mp hnew, hend] at hended
      cases hended
  · exact final_concat h.final hsource

/-- A state callback is reported as it is kept. -/
theorem callState (h : Faithful s reports) {o : ObjId} {call call' : SipCall} {ci : CallInfo}
    (ho : s.objs[o]? = some call) (hlive : call.inv ≠ .disconnected)
    (hobjs : s'.objs = s.objs.set o call') (hheard : call'.heard = (call.updateInfo ci).heard) :
    Faithful s' (reports ++ [.callState o call.toCallIdentity ci]) := by
  obtain ⟨hidentity, hinv, -⟩ := SipCall.Heard.mk.inj hheard
  have hid : call'.callId = call.callId := congrArg CallIdentity.callId hidentity
  have hself : s'.objs[o]? = some call' := by
    rw [hobjs, List.getElem?_set_self (List.getElem?_eq_some_iff.mp ho).1]
  have hothers : ∀ {i : ObjId}, i ≠ o → s'.objs[i]? = s.objs[i]? := fun hi => by
    rw [hobjs, List.getElem?_set_ne hi.symm]
  have hbefore : ∀ {i : ObjId} {x : SipCall}, s'.objs[i]? = some x → x.inv ≠ .disconnected →
      ∃ y : SipCall, s.objs[i]? = some y ∧ y.inv ≠ .disconnected ∧ y.callId = x.callId := by
    intro i x hx hliveX
    by_cases hi : i = o
    · subst hi
      rw [hself] at hx
      cases hx
      exact ⟨call, ho, hlive, hid.symm⟩
    · rw [hothers hi] at hx
      exact ⟨x, hx, hliveX, rfl⟩
  refine ⟨fun i j x y hx hy hliveX hliveY hsame => ?_, fun i x hx hliveX => ?_,
    fun c e he hopen => ?_, fun r hr hend i hsource => ?_, ?_⟩
  · obtain ⟨x', hx', hliveX', hidX⟩ := hbefore hx hliveX
    obtain ⟨y', hy', hliveY', hidY⟩ := hbefore hy hliveY
    exact h.alone i j x' y' hx' hy' hliveX' hliveY' (by rw [hidX, hidY, hsame])
  · by_cases hi : i = o
    · subst hi
      rw [hself] at hx
      cases hx
      have htold : (call.updateInfo ci).Told
          (reports ++ [.callState i call.toCallIdentity ci]) := by
        constructor
        · intro hnone
          cases hnone
        · intro _
          refine ⟨ci, ?_, call.updateInfo_says ci⟩
          rw [lastStateOf_concat]
          exact if_pos rfl
      exact htold.of_heard hheard
    · rw [hothers hi] at hx
      have hne : call.callId ≠ x.callId := fun heq =>
        hi (h.alone i o x call hx ho hliveX hlive heq.symm)
      have htold := h.told i x hx hliveX
      constructor
      · rw [lastStateOf_concat, if_neg hne]
        exact htold.silent
      · rw [lastStateOf_concat, if_neg hne]
        exact htold.said
  · rw [lastStateOf_concat] at he
    split_ifs at he with hc
    · cases he
      exact ⟨o, call', hself, hid.trans hc, hinv ▸ hopen⟩
    · obtain ⟨i, x, hx, hidX, hliveX⟩ := h.alive c e he hopen
      have hi : i ≠ o := by
        rintro rfl
        rw [ho] at hx
        cases hx
        exact hc hidX
      exact ⟨i, x, (hothers hi).trans hx, hidX, hliveX⟩
  · obtain hold | hnew := List.mem_append.mp hr
    · obtain ⟨x, hx, hended⟩ := h.gone r hold hend i hsource
      have hi : i ≠ o := by
        rintro rfl
        rw [ho] at hx
        cases hx
        exact hlive hended
      exact ⟨x, (hothers hi).trans hx, hended⟩
    · rw [List.mem_singleton.mp hnew] at hend hsource
      cases hsource
      exact ⟨call', hself, hinv.trans (of_decide_eq_true hend)⟩
  · exact final_concat h.final (h.not_ended ho hlive)

end Faithful

/-! ## Runs -/

/-- An action that is no callback on the state of a call, and creates none, is not heard of. -/
theorem Sys.step_heard {s : Sys} (hs : s.table.Sound) {a : Action} (en : s.enabled a = true)
    (hcreates : a.creates = false) (hcallback : ∀ o ci env timestamp, a ≠ .callState o ci env timestamp)
    (o : ObjId) (call' : SipCall) (ho' : (s.step a).objs[o]? = some call') :
    ∃ call : SipCall, s.objs[o]? = some call ∧ call'.heard = call.heard := by
  cases (step_heap hs en).object o call' ho' with
  | @kept call ho same =>
      have hcore : call'.core.heard = call.core.heard := by rw [same]
      exact ⟨call, ho, hcore⟩
  | created fresh new =>
      cases a with
      | makeCall => cases hcreates
      | incomingCall => cases hcreates
      | _ => cases new
  | refreshed ha => exact absurd ha (hcallback _ _ _ _)
  | ended ha => exact absurd ha (hcallback _ _ _ _)
  | @media call media ha ho eq => exact ⟨call, ho, eq ▸ call.onCallMediaState_heard media⟩
  | @toggled call p enabled rec env ha ho owned eq =>
      exact ⟨call, ho, eq ▸ call.toggleRecording_heard enabled _ _ _⟩

namespace Observed

variable {w : Observed}

/-- The calls and the reports of them agree after every step of the manager. -/
theorem act_faithful (hs : w.sys.table.Sound) (h : Faithful w.sys w.reports) {a : Action}
    (en : w.sys.enabled a = true) : Faithful (w.sys.step a) (w.reports ++ w.reportsOf a) := by
  cases hcreates : a.creates with
  | true =>
      have hnone : w.reportsOf a = [] := by
        cases a with
        | callState => cases hcreates
        | _ => rfl
      rw [hnone, List.append_nil]
      obtain ⟨-, hsame⟩ | ⟨call, _, _, _, hnew, hstep⟩ := w.sys.step_newCall a hcreates
      · rw [hsame]
        exact h
      · obtain ⟨hfree, -, hstate, -⟩ := Sys.newCall_spec hnew en
        refine h.created ?_ hfree hstate
        rw [hstep]
        rfl
  | false =>
      by_cases hcallback : ∃ o ci env timestamp, a = .callState o ci env timestamp
      · obtain ⟨o, ci, env, timestamp, rfl⟩ := hcallback
        obtain ⟨call, ho, hlive⟩ := Sys.exists_of_objActive en
        have hreports : w.reportsOf (.callState o ci env timestamp) =
            [.callState o call.toCallIdentity ci] := by
          rw [reportsOf, ho]
          rfl
        rw [hreports]
        by_cases hstate : ci.state = .disconnected
        · obtain ⟨_, ends⟩ := Sys.onCallState_untracks hs ho hstate env timestamp
          apply h.callState ho hlive ends.objs
          rw [Sys.endedCall, SipCall.stopPlayer_heard, SipCall.stopRecording_heard]
        · refine h.callState ho hlive ?_ rfl
          exact congrArg Sys.objs (Sys.onCallState_refreshed ho hstate env timestamp)
      · simp only [not_exists] at hcallback
        have hnone : w.reportsOf a = [] := by
          cases a with
          | callState o ci env timestamp => exact absurd rfl (hcallback o ci env timestamp)
          | _ => rfl
        rw [hnone, List.append_nil]
        have hforth := Sys.step_heard hs en hcreates hcallback
        refine h.of_heard hforth fun o call ho => ?_
        have hlt := (List.getElem?_eq_some_iff.mp ho).1.trans_le (Sys.step_heap hs en).grows
        obtain ⟨call', hcall', hsame⟩ := hforth o _ (List.getElem?_eq_getElem hlt)
        rw [ho] at hcall'
        cases hcall'
        exact ⟨_, List.getElem?_eq_getElem hlt, hsame⟩

/-- The calls and what the bus was told of them, along a step. -/
theorem step_faithful (hs : w.sys.table.Sound) (h : Faithful w.sys w.reports)
    {a : ObservedAction} (en : w.enabled a = true) :
    (w.step a).sys.table.Sound ∧ Faithful (w.step a).sys (w.step a).reports := by
  cases a with
  | act a => exact ⟨Sys.step_sound en hs, act_faithful hs h en⟩
  | onDtmfDigit o digit =>
      obtain ⟨call, ho, hlive⟩ := Sys.exists_of_objActive en
      refine ⟨hs, ?_⟩
      rw [step, ho]
      exact h.report (fun _ => rfl) rfl (h.not_ended ho hlive)
  | onRegState k info =>
      refine ⟨hs, ?_⟩
      rw [step, List.getElem?_eq_getElem (of_decide_eq_true en)]
      exact h.report (fun _ => rfl) rfl fun e _ hend => Report.object_of_isEnd hend
  | onInstantMessage k msg =>
      refine ⟨hs, ?_⟩
      rw [step, List.getElem?_eq_getElem (of_decide_eq_true en)]
      exact h.report (fun _ => rfl) rfl fun e _ hend => Report.object_of_isEnd hend

end Observed

theorem isKnownEvent_regState (info : RegInfo) :
    Scenario.isKnownEvent info.eventType.toList = true := by
  have hall : ∀ t ∈ ["reg.success", "reg.started", "reg.unregistered", "reg.failed"],
      Scenario.isKnownEvent t.toList = true := by decide +kernel
  apply hall
  unfold RegInfo.eventType
  split_ifs <;> simp

theorem isKnownEvent_callState (state : InvState) :
    Scenario.isKnownEvent ("call.state." ++ state.name).toList = true := by
  rw [String.toList_append]
  cases state <;> decide +kernel

/-- The validator knows the type of every event that a callback puts on the bus. -/
theorem Report.isKnownEvent (r : Report) : Scenario.isKnownEvent r.event.type = true := by
  cases r with
  | callState o call ci => exact isKnownEvent_callState ci.state
  | dtmfIn o call digit => exact (by decide +kernel : Scenario.isKnownEvent "dtmf.in".toList = true)
  | regState k p info => exact isKnownEvent_regState info
  | instantMessage k p msg =>
      exact (by decide +kernel : Scenario.isKnownEvent "im.received".toList = true)

/-- In every state of every run, what the object of a tracked call says is the last state that the
bus was told of under its id; as long as the call has told nothing, the last one is the end of an
earlier call. Nothing comes from a call after its end, what the bus takes for alive is, and the
validator knows all the events. -/
theorem callReports_run {w : Observed} (run : observed.Reachable w) :
    (∀ (c : CallId) (o : ObjId) (call : SipCall), w.sys.calls.get? c = some o →
      w.sys.objs[o]? = some call →
      (call.info.state = none →
        ∀ e, lastStateOf w.reports c = some e → e.2.state = .disconnected) ∧
      (call.info.state ≠ none →
        ∃ ci, lastStateOf w.reports c = some (call.toCallIdentity, ci) ∧ call.info.Says ci)) ∧
    (∀ before r after, w.reports = before ++ r :: after → r.isEnd = true →
      ∀ r' ∈ after, r'.object ≠ r.object) ∧
    (∀ c e, lastStateOf w.reports c = some e → e.2.state ≠ .disconnected →
      ∃ (o : ObjId) (call : SipCall), w.sys.objs[o]? = some call ∧ call.callId = c ∧
        call.inv ≠ .disconnected) ∧
    ∀ r ∈ w.reports, Scenario.isKnownEvent r.event.type = true := by
  have hinit : observed.init.sys.table.Sound ∧ Faithful observed.init.sys observed.init.reports := by
    refine ⟨CallTable.sound_empty, ⟨?_, ?_, ?_, ?_, ?_⟩⟩
    · intro o o' call call' ho
      cases ho
    · intro o call ho
      cases ho
    · intro c e he
      cases he
    · intro r hr
      cases hr
    · intro before r after heq
      cases before <;> cases heq
  obtain ⟨hs, h⟩ : w.sys.table.Sound ∧ Faithful w.sys w.reports :=
    run.invariant (P := fun w => w.sys.table.Sound ∧ Faithful w.sys w.reports) hinit
      fun w a en _ hw => Observed.step_faithful hw.1 hw.2 en
  refine ⟨fun c o call hc ho => ?_, h.final, h.alive, fun r _ => r.isKnownEvent⟩
  have hk := Sys.table_heap_of_some ho
  have hid : c = call.callId := hs.key_eq hc hk
  have htold := h.told o call ho (hs.live hc hk)
  rw [hid]
  exact ⟨htold.silent, htold.said⟩

/-- The id of a call that has ended goes to a call of another phone. -/
def idAgain : List ObservedAction :=
  [.act (.addPhone "alice" { domain := "d" } ⟨some 1, true⟩),
    .act (.addPhone "bob" { domain := "d" } ⟨some 2, true⟩),
    .act (.incomingCall "alice" 0 none),
    .act (.callState 0 (.plain 0 .disconnected "") .writes "t"),
    .act (.incomingCall "bob" 0 none),
    .act (.callState 1 (.plain 0 .confirmed "") .writes "t")]

theorem callReports_run_idAgain :
    ∃ call ci, (observed.run observed.init idAgain).sys.objs[1]? = some call ∧
      call.phoneId = "bob" ∧
      lastStateOf (observed.run observed.init idAgain).reports 0 =
        some (call.toCallIdentity, ci) ∧ call.info.Says ci := by
  have run : observed.Reachable (observed.run observed.init idAgain) :=
    GuardedSystem.Reach.init.run (by decide)
  obtain ⟨call, ho, hphone, hstate⟩ : ∃ call : SipCall,
      (observed.run observed.init idAgain).sys.objs[1]? = some call ∧ call.phoneId = "bob" ∧
        call.info.state ≠ none := ⟨_, rfl, by decide, by decide⟩
  obtain ⟨ci, hlast, hsays⟩ := ((callReports_run run).1 0 1 call (by decide) ho).2 hstate
  exact ⟨call, ci, ho, hphone, hlast, hsays⟩

end PjsuaMcp.Calls
