import PjsuaMcp.Calls.State

/-!
# Operations and callbacks of `CallManager`

Each definition follows one method. An operation that may raise returns the
outcome together with the state it leaves, because a method that raises may
already have changed a queue.

## Implementation notes

A method runs to completion before the next one; the awaits of
`process_auto_captures` and the answers of `process_auto_answers` are separate
steps. Library methods are recorded in `commands` and take effect on a call
through the callbacks that report it.
-/

namespace PjsuaMcp.Calls

open Library

def defaultPhoneId : PhoneId := "default"

namespace Sys

/-! ## Phone resolution and call lookup -/

/-- `_resolve_phone`. -/
def resolvePhone (s : Sys) : Option PhoneId → Except String PhoneId
  | some p => .ok p
  | none =>
      if s.phones.contains defaultPhoneId then .ok defaultPhoneId
      else
        match s.phones.keys with
        | [p] => .ok p
        | _ => .error "phone_id is required — multiple phones registered"

/-- `_ensure_call_belongs_to`. -/
def ensureCallBelongsTo (s : Sys) (p : PhoneId) (c : CallId) : Except String Unit :=
  match s.callPhone.get? c with
  | none => .error ("Call " ++ toString c ++ " not found")
  | some owner =>
      if owner = p then .ok ()
      else .error ("call_id " ++ toString c ++ " belongs to phone_id '" ++ owner ++
        "', not '" ++ p ++ "'")

/-- `_get_call_by_id`. -/
def getCallById (s : Sys) (c : CallId) : Except String ObjId :=
  match s.calls.get? c with
  | some o => .ok o
  | none => .error ("Call " ++ toString c ++ " not found")

/-- `call.isActive()` on the object `o`. -/
def objActive (s : Sys) (o : ObjId) : Bool := s.objs[o]?.any SipCall.isActive

/-- The scan at the end of `_get_call`: the first active call of the phone. -/
def firstActive (s : Sys) (p : PhoneId) : Option ObjId :=
  (s.calls.entries.find? fun e => s.callPhone.get? e.1 = some p ∧ s.objActive e.2).map Prod.snd

def noActiveCall (p : PhoneId) : String := "No active call found for phone '" ++ p ++ "'"

/-- An explicit id must belong to the phone and be tracked. -/
def getOwnedCall (s : Sys) (p : PhoneId) (c : CallId) : Except String ObjId :=
  match s.ensureCallBelongsTo p c with
  | .error e => .error e
  | .ok () => s.getCallById c

/-- `_get_call` without `from_incoming`. -/
def findCall (s : Sys) (p : PhoneId) : Option CallId → Except String ObjId
  | some c => s.getOwnedCall p c
  | none =>
      match s.firstActive p with
      | some o => .ok o
      | none => .error (noActiveCall p)

/-- The `while queue` loop of `_get_call`: pop ids until one is tracked. -/
def popTracked (s : Sys) : List CallId → Option ObjId × List CallId
  | [] => (none, [])
  | c :: rest =>
      match s.calls.get? c with
      | some o => (some o, rest)
      | none => s.popTracked rest

/-- Popping mutates the queue list of the phone in place, when there is one. -/
def setQueue (s : Sys) (p : PhoneId) (queue : List CallId) : Sys :=
  if s.incomingQueue.contains p then { s with incomingQueue := s.incomingQueue.set p queue }
  else s

/-- `_get_call` with `from_incoming=True`. -/
def getIncomingCall (s : Sys) (p : PhoneId) : Option CallId → Except String ObjId × Sys
  | some c => (s.getOwnedCall p c, s)
  | none =>
      let popped := s.popTracked (s.queueOf p)
      let s := s.setQueue p popped.2
      match popped.1 with
      | some o => (.ok o, s)
      | none => (s.findCall p none, s)

/-! ## Sending commands -/

/-- Invoke a library method on a call object. -/
def send (s : Sys) (o : ObjId) (cmd : Command) : Sys :=
  { s with
    commands := s.commands ++ [(o, cmd)]
    objs :=
      if cmd.isFinal then s.objs.modify o fun call => { call with finallyAnswered := true }
      else s.objs }

def sendAll (s : Sys) (cmds : List (ObjId × Command)) : Sys :=
  cmds.foldl (fun s e => s.send e.1 e.2) s

/-- Send a command to the call that was found; a failed lookup sends nothing. -/
def sendTo (found : Except String ObjId × Sys) (cmd : Command) : Except String ObjId × Sys :=
  match found.1 with
  | .error e => (.error e, found.2)
  | .ok o => (.ok o, found.2.send o cmd)

/-- Look up an incoming call of the resolved phone and send it a command. -/
def actOnIncoming (s : Sys) (phone : Option PhoneId) (c : Option CallId) (cmd : Command) :
    Except String ObjId × Sys :=
  match s.resolvePhone phone with
  | .error e => (.error e, s)
  | .ok p => sendTo (s.getIncomingCall p c) cmd

/-- `answer_call`; the outcome is the object that was answered. -/
def answerCall (s : Sys) (phone : Option PhoneId) (c : Option CallId) (statusCode : Int) :
    Except String ObjId × Sys :=
  s.actOnIncoming phone c (.answer statusCode)

/-- `reject_call`; the outcome is the object that was hung up. -/
def rejectCall (s : Sys) (phone : Option PhoneId) (c : Option CallId) (statusCode : Int) :
    Except String ObjId × Sys :=
  s.actOnIncoming phone c (.hangup statusCode)

/-- The operations that look up calls without touching a queue and then only send. -/
inductive CallOp
  | hangup (phone : Option PhoneId) (c : Option CallId)
  | hangupAll (phone : Option PhoneId)
  | blindTransfer (destUri : String) (phone : Option PhoneId) (c : Option CallId)
  | attendedTransfer (phone : Option PhoneId) (c dest : Option CallId)
  | hold (c : CallId) (phone : Option PhoneId)
  | unhold (c : CallId) (phone : Option PhoneId)
  | sendDtmf (c : CallId) (digits : String) (phone : Option PhoneId)
  deriving DecidableEq, Repr

/-- The active calls of the phone, in dictionary order. -/
def activeCallsOf (s : Sys) (p : PhoneId) : List ObjId :=
  (s.calls.entries.filter fun e => s.callPhone.get? e.1 = some p ∧ s.objActive e.2).map Prod.snd

/-- `hangup_all` walks the calls of one phone, or all calls, and skips the inactive ones. -/
def hangupAllTargets (s : Sys) : Option PhoneId → List ObjId
  | some p => s.activeCallsOf p
  | none => (s.calls.entries.map Prod.snd).filter s.objActive

/-- `attended_transfer` uses the two given legs, or the first two active calls
as soon as one of them is missing. -/
def attendedLegs (s : Sys) (p : PhoneId) (c dest : Option CallId) :
    Except String (ObjId × ObjId) :=
  match s.activeCallsOf p with
  | first :: second :: _ =>
      match c, dest with
      | some c, some dest => do
          s.ensureCallBelongsTo p c
          s.ensureCallBelongsTo p dest
          return (← s.getCallById c, ← s.getCallById dest)
      | _, _ => .ok (first, second)
  | _ => .error ("[" ++ p ++ "] Need at least 2 active calls for attended transfer")

/-- The commands an operation sends, or the error it raises before sending any. -/
def CallOp.commands (s : Sys) : CallOp → Except String (List (ObjId × Command))
  | .hangup phone c => do
      let p ← s.resolvePhone phone
      return [(← s.findCall p c, .hangup 603)]
  | .hangupAll phone => .ok ((s.hangupAllTargets phone).map fun o => (o, .hangup 603))
  | .blindTransfer destUri phone c => do
      let p ← s.resolvePhone phone
      return [(← s.findCall p c, .xfer destUri)]
  | .attendedTransfer phone c dest => do
      let p ← s.resolvePhone phone
      let legs ← s.attendedLegs p c dest
      return [(legs.1, .xferReplaces legs.2)]
  | .hold c phone => do
      let p ← s.resolvePhone phone
      return [(← s.getOwnedCall p c, .setHold)]
  | .unhold c phone => do
      let p ← s.resolvePhone phone
      return [(← s.getOwnedCall p c, .reinvite)]
  | .sendDtmf c digits phone => do
      let p ← s.resolvePhone phone
      let o ← s.getOwnedCall p c
      return digits.toList.map fun digit => (o, .dialDtmf digit)

/-- Run such an operation; when it raises, nothing has been sent. -/
def callOp (s : Sys) (op : CallOp) : Sys :=
  match op.commands s with
  | .error _ => s
  | .ok cmds => s.sendAll cmds

/-! ## New calls -/

/-- `_track_sip_call_id`. -/
def trackSipCallId (s : Sys) (sipCallId : String) (owner : OwnerInfo) : Sys :=
  if sipCallId = "" then s
  else { s with sipCallIdIndex := s.sipCallIdIndex.set sipCallId owner }

/-- Put a new call object on the heap and track it under its numeric id. -/
def trackCall (s : Sys) (call : SipCall) : Sys :=
  { s with
    objs := s.objs ++ [call]
    calls := s.calls.set call.callId s.objs.length
    callPhone := s.callPhone.set call.callId call.phoneId }

/-- `queues.setdefault(p, []).append(c)`. -/
def appendTo (queues : OrderedDict PhoneId (List CallId)) (p : PhoneId) (c : CallId) :
    OrderedDict PhoneId (List CallId) :=
  queues.set p ((queues.get? p).getD [] ++ [c])

/-- The header and URI that `getInfo()` gave right after creation; empty when it raised. -/
def capturedCallId (ci : Option CallInfo) : String := (ci.map CallInfo.callIdString).getD ""

/-- The call object that `make_call` builds for a phone with this configuration. -/
def outboundCall (p : PhoneId) (cfg : PhoneConfig) (ci : CallInfo) : SipCall :=
  SipCall.new
    { phoneId := p, callId := ci.id, direction := .outbound, sipCallId := ci.callIdString,
      autoAnswer := false }
    cfg.recordingEnabled cfg.codecs ci.state

/-- `make_call`; `placed` is the library's answer, `none` when `makeCall` raised. -/
def makeCall (s : Sys) (phone : Option PhoneId) (destUri : String) (placed : Option CallInfo) :
    Except String CallId × Sys :=
  match s.resolvePhone phone with
  | .error e => (.error e, s)
  | .ok p =>
      match s.phones.get? p with
      | none => (.error ("Phone '" ++ p ++ "' not found — add_phone first"), s)
      | some cfg =>
          match placed with
          | none => (.error "makeCall failed", s)
          | some ci =>
              let s := s.trackCall (outboundCall p cfg ci)
              (.ok ci.id, s.trackSipCallId ci.callIdString
                { phoneId := p, pjsuaCallId := ci.id,
                  remoteUri := if ci.remoteUri = "" then destUri else ci.remoteUri })

/-- The call object that `_on_incoming_call` builds. -/
def inboundCall (p : PhoneId) (cfg : PhoneConfig) (c : CallId) (ci : Option CallInfo) : SipCall :=
  SipCall.new
    { phoneId := p, callId := c, direction := .inbound, sipCallId := capturedCallId ci,
      autoAnswer := cfg.autoAnswer }
    cfg.recordingEnabled cfg.codecs .incoming

/-- `_on_incoming_call`; `ci` is what `getInfo()` returned, `none` when it raised. -/
def onIncomingCall (s : Sys) (p : PhoneId) (c : CallId) (ci : Option CallInfo) : Sys :=
  match s.phones.get? p with
  | none => s
  | some cfg =>
      let s := s.trackCall (inboundCall p cfg c ci)
      let s :=
        { s with
          incomingQueue := appendTo s.incomingQueue p c
          autoAnswerPending :=
            if cfg.autoAnswer then appendTo s.autoAnswerPending p c else s.autoAnswerPending }
      s.trackSipCallId (capturedCallId ci)
        { phoneId := p, pjsuaCallId := c, remoteUri := (ci.map CallInfo.remoteUri).getD "" }

/-! ## Automatic answers -/

/-- The ids in all queues, each with the phone it waits for. -/
def queuedIds (queues : OrderedDict PhoneId (List CallId)) : List (PhoneId × CallId) :=
  queues.entries.flatMap fun e => e.2.map fun c => (e.1, c)

/-- The first half of `process_auto_answers`: take every waiting id. -/
def pollAutoAnswers (s : Sys) : Sys :=
  { s with
    autoAnswering := queuedIds s.autoAnswerPending
    autoAnswerPending := s.autoAnswerPending.mapValues fun _ _ => [] }

/-- One round of its second half: answer the call now tracked under the taken id. -/
def autoAnswerNext (s : Sys) : Sys :=
  match s.autoAnswering with
  | [] => s
  | (_, c) :: rest =>
      let s := { s with autoAnswering := rest }
      match s.calls.get? c with
      | none => s
      | some o => s.send o (.answer 200)

/-! ## Callbacks of a call object -/

/-- `_register_call_active`. -/
def registerCallActive (s : Sys) (p : PhoneId) (c : CallId) : Sys :=
  let newCount := s.activeCount p + 1
  let s := { s with activeCallsByPhone := s.activeCallsByPhone.set p newCount }
  if newCount = 1 ∧ (s.phones.get? p).any PhoneConfig.captureEnabled then
    { s with autoCapturePendingStart := s.autoCapturePendingStart ++ [(p, some c)] }
  else s

/-- `onCallMediaState`: the call object, then the poke of the manager. The two touch
different parts of the state. -/
def onCallMediaState (s : Sys) (o : ObjId) (media : List MediaStatus) : Sys :=
  match s.objs[o]? with
  | none => s
  | some call =>
      let s := { s with objs := s.objs.set o (call.onCallMediaState media) }
      if call.firesFirstActive media then s.registerCallActive call.phoneId call.callId else s

/-- The ids whose cached state is DISCONNECTED. -/
def staleIds (s : Sys) : List CallId :=
  (s.calls.entries.filter fun e =>
    s.objs[e.2]?.any fun call => call.info.state = some .disconnected).map Prod.fst

/-- The counter part of `_on_call_disconnected`; the flag says that the key was removed. -/
def decrementActive (counts : OrderedDict PhoneId Nat) (p : PhoneId) :
    OrderedDict PhoneId Nat × Bool :=
  match counts.get? p with
  | none => (counts, false)
  | some count =>
      if count - 1 ≤ 0 then (counts.pop p, true) else (counts.set p (count - 1), false)

/-- Drop the calls whose id is in `ids`. -/
def untrack (s : Sys) (ids : List CallId) : Sys :=
  { s with
    calls := s.calls.filterKeys fun c => c ∉ ids
    callPhone := s.callPhone.filterKeys fun c => c ∉ ids }

/-- The queue part of `_on_call_disconnected`: only tracked ids stay queued. -/
def purgeQueues (s : Sys) : Sys :=
  { s with incomingQueue :=
      s.incomingQueue.mapValues fun _ queue => queue.filter fun c => s.calls.contains c }

/-- Ask for a stop when the phone's tcpdump is running. -/
def queueStopIfCapturing (s : Sys) (p : PhoneId) : Sys :=
  if s.isPhoneCapturing p then
    { s with autoCapturePendingStop := s.autoCapturePendingStop ++ [p] }
  else s

/-- `_call_history` keeps its last hundred entries. -/
def pushHistory (s : Sys) (info : CachedInfo) (timestamp : String) : Sys :=
  let entry : HistoryEntry :=
    { phoneId := info.phoneId, remoteUri := info.remoteUri, duration := info.duration,
      lastStatus := info.lastStatus, lastStatusText := info.lastStatusText, codec := info.codec,
      recordingFile := info.recordingFile, timestamp := timestamp }
  let history := s.callHistory ++ [entry]
  { s with callHistory := history.drop (history.length - 100) }

/-- `_on_call_disconnected`. -/
def onCallDisconnected (s : Sys) (info : CachedInfo) (timestamp : String) : Sys :=
  let s := s.pushHistory info timestamp
  let s := (s.untrack s.staleIds).purgeQueues
  let counted := decrementActive s.activeCallsByPhone info.phoneId
  let s := { s with activeCallsByPhone := counted.1 }
  if counted.2 then s.queueStopIfCapturing info.phoneId else s

/-- `onCallState`; the sidecar outcome and the timestamp are read only on DISCONNECTED. -/
def onCallState (s : Sys) (o : ObjId) (ci : CallInfo) (env : SidecarEnv) (timestamp : String) :
    Sys :=
  match s.objs[o]? with
  | none => s
  | some call =>
      let call := call.updateInfo ci
      if ci.state = .disconnected then
        let call := (call.stopRecording (s.currentPcapPathFor call.phoneId) env).stopPlayer
        { s with objs := s.objs.set o call }.onCallDisconnected call.info timestamp
      else { s with objs := s.objs.set o call }

/-! ## Per-phone toggles -/

/-- The objects of the tracked calls of `p`. -/
def callsOf (s : Sys) (p : PhoneId) : List ObjId :=
  (s.calls.entries.filter fun e => s.callPhone.get? e.1 = some p).map Prod.snd

/-- Change the objects in `os`, each by its own function. -/
def mapObjs (s : Sys) (os : List ObjId) (f : ObjId → SipCall → SipCall) : Sys :=
  { s with objs := s.objs.mapIdx fun o call => if o ∈ os then f o call else call }

/-- `update_phone(recording_enabled=...)`: the flag, then `set_recording_enabled`. -/
def setRecordingEnabled (s : Sys) (p : PhoneId) (enabled : Bool)
    (rec : ObjId → RecorderEnv) (env : ObjId → SidecarEnv) : Sys :=
  match s.phones.get? p with
  | none => s
  | some cfg =>
      let s := { s with phones := s.phones.set p { cfg with recordingEnabled := enabled } }
      s.mapObjs (s.callsOf p) fun o call =>
        call.toggleRecording enabled (s.currentPcapPathFor call.phoneId) (rec o) (env o)

/-- `update_phone(codecs=...)`: the config, the filter of every call of the phone, and a
re-INVITE on the confirmed ones. -/
def setCodecsForPhone (s : Sys) (p : PhoneId) (codecs : List String) : Sys :=
  match s.phones.get? p with
  | none => s
  | some cfg =>
      let s := { s with phones := s.phones.set p { cfg with codecs := some codecs } }
      let confirmed := (s.callsOf p).filter fun o => s.objs[o]?.any fun call =>
        call.inv = .confirmed
      let s := s.mapObjs (s.callsOf p) fun _ call =>
        { call with codecs := SipCall.codecFilter (some codecs) }
      s.sendAll (confirmed.map fun o => (o, .reinvite))

/-- `update_phone(auto_answer=...)`. -/
def setAutoAnswer (s : Sys) (p : PhoneId) (enabled : Bool) : Sys :=
  match s.phones.get? p with
  | none => s
  | some cfg => { s with phones := s.phones.set p { cfg with autoAnswer := enabled } }

/-- `cleanup`. -/
def cleanup (s : Sys) : Sys :=
  { s with
    calls := .empty
    callPhone := .empty
    activeCallsByPhone := .empty
    incomingQueue := s.incomingQueue.mapValues fun _ _ => []
    autoAnswerPending := s.autoAnswerPending.mapValues fun _ _ => []
    autoCapturePendingStart := []
    autoCapturePendingStop := [] }

end Sys

end PjsuaMcp.Calls
