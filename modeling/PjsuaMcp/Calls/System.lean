import PjsuaMcp.Calls.Registry
import PjsuaMcp.Calls.Capture
import PjsuaMcp.Library.GuardedSystem

/-!
# The server as a transition system

An action is one method of the registry or the call manager, one callback of
the library, or one stretch of a coroutine between two awaits. A tool call of
the server is a sequence of such actions: dropping a phone with its calls is
`hangupAll` and then `dropPhone`, and loading a profile in replace mode is
`hangupAll`, a `dropPhone` for every phone, and an `addPhone` for every entry.
Callbacks may come between the actions of one tool call.

## Implementation notes

`enabled` is what the library promises. A call object gets no callback after
its DISCONNECTED one, and a numeric id is given to a new call only when every
call that had it has ended. Call objects that have left `_calls` may still get
callbacks.
-/

namespace PjsuaMcp.Calls

open Library

inductive Action
  | makeCall (phone : Option PhoneId) (destUri : String) (placed : Option CallInfo)
  | incomingCall (p : PhoneId) (c : CallId) (ci : Option CallInfo)
  | callState (o : ObjId) (ci : CallInfo) (env : SidecarEnv) (timestamp : String)
  | mediaState (o : ObjId) (media : List MediaStatus)
  | answerCall (phone : Option PhoneId) (c : Option CallId) (statusCode : Int)
  | rejectCall (phone : Option PhoneId) (c : Option CallId) (statusCode : Int)
  | callOp (op : Sys.CallOp)
  | pollAutoAnswers
  | autoAnswerNext
  | processAutoCaptures
  | resumeAutoCaptures (stamp : String)
  | setCaptureEnabled (p : PhoneId) (enabled : Bool)
  | setRecordingEnabled (p : PhoneId) (enabled : Bool)
      (rec : ObjId → RecorderEnv) (env : ObjId → SidecarEnv)
  | setCodecsForPhone (p : PhoneId) (codecs : List String)
  | setAutoAnswer (p : PhoneId) (enabled : Bool)
  | addPhone (p : PhoneId) (cfg : PhoneConfig) (out : AddOutcome)
  | dropPhone (p : PhoneId)
  | reregisterPhone (p : PhoneId) (creds : Credentials) (out : AddOutcome)
  | cleanup

namespace Sys

/-- The library may give the id `c` to a new call: no call that has not ended has it. -/
def idFree (s : Sys) (c : CallId) : Bool :=
  s.objs.all fun call => call.callId ≠ c || !call.isActive

/-- What the library and the event loop guarantee about the next action. -/
def enabled (s : Sys) : Action → Bool
  | .makeCall _ _ (some ci) => s.idFree ci.id && ci.state ≠ .disconnected
  | .incomingCall _ c _ => s.idFree c
  | .callState o _ _ _ => s.objActive o
  | .mediaState o _ => s.objActive o
  | .pollAutoAnswers => s.autoAnswering.isEmpty
  | .processAutoCaptures => s.drain = .idle
  | .resumeAutoCaptures _ => s.drain ≠ .idle
  | _ => true

/-- The state after an action. -/
def step (s : Sys) : Action → Sys
  | .makeCall phone destUri placed => (s.makeCall phone destUri placed).2
  | .incomingCall p c ci => s.onIncomingCall p c ci
  | .callState o ci env timestamp => s.onCallState o ci env timestamp
  | .mediaState o media => s.onCallMediaState o media
  | .answerCall phone c statusCode => (s.answerCall phone c statusCode).2
  | .rejectCall phone c statusCode => (s.rejectCall phone c statusCode).2
  | .callOp op => s.callOp op
  | .pollAutoAnswers => s.pollAutoAnswers
  | .autoAnswerNext => s.autoAnswerNext
  | .processAutoCaptures => s.processAutoCaptures
  | .resumeAutoCaptures stamp => s.resumeAutoCaptures stamp
  | .setCaptureEnabled p enabled => s.setCaptureEnabled p enabled
  | .setRecordingEnabled p enabled rec env => s.setRecordingEnabled p enabled rec env
  | .setCodecsForPhone p codecs => s.setCodecsForPhone p codecs
  | .setAutoAnswer p enabled => s.setAutoAnswer p enabled
  | .addPhone p cfg out => s.addPhone p cfg out
  | .dropPhone p => s.dropPhone p
  | .reregisterPhone p creds out => s.reregisterPhone p creds out
  | .cleanup => s.cleanup

end Sys

/-- The server: registry, call manager and capture manager together. -/
def server : GuardedSystem Sys Action where
  init := Sys.initial
  enabled := fun s a => s.enabled a = true
  step := Sys.step

instance (s : Sys) (a : Action) : Decidable (server.enabled s a) :=
  inferInstanceAs (Decidable (s.enabled a = true))

end PjsuaMcp.Calls
