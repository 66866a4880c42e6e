import PjsuaMcp.Calls.IncomingQueue

/-!
# The operations of a phone

Every call operation with what it does to the outside: whether it raises, and on
which call objects it invokes methods of the library, in order. Asking a call for
its state is such a method as well as hanging it up. The state that an operation
leaves is the one of the manager's own definition of it.

## Implementation notes

Playing and recording invoke methods of players, recorders and audio ports. They
are counted for the call whose audio they belong to. `play_file` raises without
audio media, and when the library cannot open the file.
-/

namespace PjsuaMcp.Calls

open Library

/-- Methods of the library that are invoked on a call or on its audio. -/
inductive Method
  | isActive
  | getInfo
  | getStreamStat
  | audio
  | command (cmd : Command)
  deriving DecidableEq, Repr

/-- The call that a method is given beside its receiver. -/
def Method.argument : Method → List ObjId
  | .command (.xferReplaces dest) => [dest]
  | _ => []

/-! ## Methods of one call -/

namespace SipCall

/-- `play_file` with what it raises; the library may fail to open the file. -/
def playFile (filePath : String) (opened : Bool) (call : SipCall) : Option String × SipCall :=
  if !call.hasAudMed then (some "Call has no active audio media", call)
  else if !opened then (some "createPlayer failed", call.stopPlayer)
  else
    let call := call.stopPlayer
    (none,
      { call with
        playerFile := some filePath
        info := { call.info with playingFile := some filePath } })

/-- `stop_playback`: the default music resumes. -/
def stopPlayback (mohExists opened : Bool) (call : SipCall) : Option String × SipCall :=
  if mohExists then call.stopPlayer.playFile defaultMohFile opened else (none, call.stopPlayer)

/-- Without audio media there is no port whose methods could be invoked. -/
def audioMethods (call : SipCall) : List Method := if call.hasAudMed then [.audio] else []

/-- What `set_recording_enabled` invokes: opening a recorder needs audio media, and closing one
reads the call info and the ports for the sidecar. -/
def recordingMethods (enabled : Bool) (call : SipCall) : List Method :=
  if enabled then call.audioMethods
  else if call.recorder.isSome then [.getInfo, .audio]
  else []

/-- `set_codecs_for_phone` sends a re-INVITE to a confirmed call. -/
def codecMethods (call : SipCall) : List Method :=
  .getInfo :: if call.inv = .confirmed then [.command .reinvite] else []

theorem playFile_skeleton (call : SipCall) (filePath : String) (opened : Bool) :
    (call.playFile filePath opened).2.skeleton = call.skeleton := by
  unfold playFile
  split_ifs
  · rfl
  · exact stopPlayer_skeleton call
  · exact stopPlayer_skeleton call

theorem stopPlayback_skeleton (call : SipCall) (mohExists opened : Bool) :
    (call.stopPlayback mohExists opened).2.skeleton = call.skeleton := by
  unfold stopPlayback
  split_ifs
  · rw [playFile_skeleton, stopPlayer_skeleton]
  · exact stopPlayer_skeleton call

end SipCall

/-! ## The operations -/

/-- What one operation has done. -/
structure Outcome where
  raised : Option String
  methods : List (ObjId × Method)
  state : Sys

/-- The call objects that an operation reaches. -/
def Outcome.touched (outcome : Outcome) : List ObjId :=
  outcome.methods.flatMap fun e => e.1 :: e.2.argument

inductive PhoneOp
  | answerCall (phone : Option PhoneId) (c : Option CallId) (statusCode : Int)
  | rejectCall (phone : Option PhoneId) (c : Option CallId) (statusCode : Int)
  | callOp (op : Sys.CallOp)
  | getCallInfo (phone : Option PhoneId) (c : Option CallId)
  | playAudio (filePath : String) (phone : Option PhoneId) (c : Option CallId) (opened : Bool)
  | stopAudio (phone : Option PhoneId) (c : Option CallId) (mohExists opened : Bool)
  | conference (callIds : List CallId) (phone : Option PhoneId)
  | setRecordingEnabled (p : PhoneId) (enabled : Bool)
      (rec : ObjId → RecorderEnv) (env : ObjId → SidecarEnv)
  | setCodecsForPhone (p : PhoneId) (codecs : List String)

namespace Sys

/-- What an operation raises, if it does. -/
def errorOf {α : Type} : Except String α → Option String
  | .error e => some e
  | .ok _ => none

/-- The scan of `_get_call` asks the calls of the phone up to the first active one. -/
def scanned (s : Sys) (p : PhoneId) : List (ObjId × Method) :=
  ((s.callsOf p).take ((s.callsOf p).findIdx s.objActive + 1)).map fun o => (o, .isActive)

/-- The methods that `_get_call` invokes. -/
def askedFor (s : Sys) (p : PhoneId) : Option CallId → List (ObjId × Method)
  | some _ => []
  | none => s.scanned p

/-- The same with `from_incoming`: no call is asked when the queue yields one. -/
def askedForIncoming (s : Sys) (p : PhoneId) : Option CallId → List (ObjId × Method)
  | some _ => []
  | none => if (s.popTracked (s.queueOf p)).1.isSome then [] else s.scanned p

/-- Invoke methods on the call that was found; the list is what the lookup has asked. -/
def invokeOn (asked : List (ObjId × Method)) (found : Except String ObjId)
    (methods : ObjId → List Method) : List (ObjId × Method) :=
  match found with
  | .error _ => asked
  | .ok o => asked ++ (methods o).map fun m => (o, m)

/-- What the resolved phone is asked; nothing when there is none. -/
def ofPhone (s : Sys) (phone : Option PhoneId) (methods : PhoneId → List (ObjId × Method)) :
    List (ObjId × Method) :=
  match s.resolvePhone phone with
  | .error _ => []
  | .ok p => methods p

/-- The methods that an object of the heap is invoked with. -/
def methodsAt (s : Sys) (methods : SipCall → List Method) (o : ObjId) : List Method :=
  (s.objs[o]?.map methods).getD []

/-- `_get_call` for the resolved phone. -/
def lookup (s : Sys) (phone : Option PhoneId) (c : Option CallId) : Except String ObjId :=
  match s.resolvePhone phone with
  | .error e => .error e
  | .ok p => s.findCall p c

/-- Change the call that was found by an operation that may raise. -/
def changeFound (s : Sys) (found : Except String ObjId)
    (f : SipCall → Option String × SipCall) : Option String × Sys :=
  match found with
  | .error e => (some e, s)
  | .ok o =>
      match s.objs[o]? with
      | none => (none, s)
      | some call => ((f call).1, { s with objs := s.objs.set o (f call).2 })

/-- The first loop of `conference`. -/
def ensureAll (s : Sys) (p : PhoneId) : List CallId → Except String Unit
  | [] => .ok ()
  | c :: rest =>
      match s.ensureCallBelongsTo p c with
      | .error e => .error e
      | .ok () => s.ensureAll p rest

/-- Its second loop. -/
def getAll (s : Sys) : List CallId → Except String (List ObjId)
  | [] => .ok []
  | c :: rest =>
      match s.getCallById c with
      | .error e => .error e
      | .ok o =>
          match s.getAll rest with
          | .error e => .error e
          | .ok os => .ok (o :: os)

/-- `conference`: the calls whose audio is bridged. -/
def conferenceCalls (s : Sys) (phone : Option PhoneId) (callIds : List CallId) :
    Except String (List ObjId) := do
  let p ← s.resolvePhone phone
  s.ensureAll p callIds
  let os ← s.getAll callIds
  let ports := os.filter fun o => s.objs[o]?.any SipCall.hasAudMed
  if ports.length < 2 then
    .error ("[" ++ p ++ "] Need at least 2 calls with active audio for conference")
  else .ok ports

/-- Every port of a conference is connected with every other one. -/
def bridge : Except String (List ObjId) → List (ObjId × Method)
  | .error _ => []
  | .ok ports => ports.map fun o => (o, .audio)

/-- The methods that an operation invokes before it sends its commands. -/
def CallOp.asked (s : Sys) : CallOp → List (ObjId × Method)
  | .hangup phone c => s.ofPhone phone fun p => s.askedFor p c
  | .hangupAll (some p) => (s.callsOf p).map fun o => (o, .isActive)
  | .hangupAll none => s.calls.entries.map fun e => (e.2, .isActive)
  | .blindTransfer _ phone c => s.ofPhone phone fun p => s.askedFor p c
  | .attendedTransfer phone _ _ =>
      s.ofPhone phone fun p => (s.callsOf p).map fun o => (o, .isActive)
  | .hold _ _ | .unhold _ _ | .sendDtmf _ _ _ => []

/-- The commands that an operation sends, as methods. -/
def CallOp.sent (s : Sys) (op : CallOp) : List (ObjId × Method) :=
  match op.commands s with
  | .error _ => []
  | .ok cmds => cmds.map fun e => (e.1, .command e.2)

end Sys

open Sys

/-- Run an operation. -/
def PhoneOp.run (s : Sys) : PhoneOp → Outcome
  | .answerCall phone c statusCode =>
      let answered := s.answerCall phone c statusCode
      { raised := errorOf answered.1
        methods := s.ofPhone phone fun p => invokeOn (s.askedForIncoming p c) answered.1
          fun _ => [.command (.answer statusCode), .getInfo]
        state := answered.2 }
  | .rejectCall phone c statusCode =>
      let rejected := s.rejectCall phone c statusCode
      { raised := errorOf rejected.1
        methods := s.ofPhone phone fun p => invokeOn (s.askedForIncoming p c) rejected.1
          fun _ => [.command (.hangup statusCode)]
        state := rejected.2 }
  | .callOp op =>
      { raised := errorOf (op.commands s)
        methods := op.asked s ++ op.sent s
        state := s.callOp op }
  | .getCallInfo phone c =>
      { raised := errorOf (s.lookup phone c)
        methods := s.ofPhone phone fun p =>
          invokeOn (s.askedFor p c) (s.lookup phone c) fun _ => [.getInfo, .getStreamStat]
        state := s }
  | .playAudio filePath phone c opened =>
      let played := s.changeFound (s.lookup phone c) (SipCall.playFile filePath opened)
      { raised := played.1
        methods := s.ofPhone phone fun p =>
          invokeOn (s.askedFor p c) (s.lookup phone c) (s.methodsAt SipCall.audioMethods)
        state := played.2 }
  | .stopAudio phone c mohExists opened =>
      let stopped := s.changeFound (s.lookup phone c) (SipCall.stopPlayback mohExists opened)
      { raised := stopped.1
        methods := s.ofPhone phone fun p =>
          invokeOn (s.askedFor p c) (s.lookup phone c) (s.methodsAt SipCall.audioMethods)
        state := stopped.2 }
  | .conference callIds phone =>
      { raised := errorOf (s.conferenceCalls phone callIds)
        methods := bridge (s.conferenceCalls phone callIds)
        state := s }
  | .setRecordingEnabled p enabled rec env =>
      { raised := none
        methods := (s.callsOf p).flatMap fun o =>
          (s.methodsAt (SipCall.recordingMethods enabled) o).map fun m => (o, m)
        state := s.setRecordingEnabled p enabled rec env }
  | .setCodecsForPhone p codecs =>
      { raised := none
        methods := (s.callsOf p).flatMap fun o =>
          (s.methodsAt SipCall.codecMethods o).map fun m => (o, m)
        state := s.setCodecsForPhone p codecs }

/-! ## For whom, and on which calls -/

/-- The phone that an operation is invoked for; `hangup_all` without a phone is for none. -/
def Sys.CallOp.scope (s : Sys) : CallOp → Option PhoneId
  | .hangupAll phone => phone
  | .hangup phone _ | .blindTransfer _ phone _ | .attendedTransfer phone _ _ | .hold _ phone
  | .unhold _ phone | .sendDtmf _ _ phone => (s.resolvePhone phone).toOption

def PhoneOp.scope (s : Sys) : PhoneOp → Option PhoneId
  | .callOp op => op.scope s
  | .answerCall phone _ _ | .rejectCall phone _ _ | .getCallInfo phone _
  | .playAudio _ phone _ _ | .stopAudio phone _ _ _ | .conference _ phone =>
      (s.resolvePhone phone).toOption
  | .setRecordingEnabled p _ _ _ | .setCodecsForPhone p _ => some p

/-- The call ids that are given; one leg of an attended transfer alone does not count. -/
def Sys.CallOp.explicitIds : CallOp → List CallId
  | .hangup _ c | .blindTransfer _ _ c => c.toList
  | .hangupAll _ => []
  | .attendedTransfer _ (some c) (some dest) => [c, dest]
  | .attendedTransfer _ _ _ => []
  | .hold c _ | .unhold c _ | .sendDtmf c _ _ => [c]

def PhoneOp.explicitIds : PhoneOp → List CallId
  | .callOp op => op.explicitIds
  | .answerCall _ c _ | .rejectCall _ c _ | .getCallInfo _ c | .playAudio _ _ c _
  | .stopAudio _ c _ _ => c.toList
  | .conference callIds _ => callIds
  | .setRecordingEnabled _ _ _ _ | .setCodecsForPhone _ _ => []

end PjsuaMcp.Calls
