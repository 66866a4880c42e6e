import PjsuaMcp.Calls.SipCall
import PjsuaMcp.Library.OrderedDict

/-!
# The state shared by registry, call manager and capture manager

One flat record holds the phone registry, the open transports, the call
objects, the dictionaries and queues of `CallManager`, and the process table of
`PcapManager`. Call objects live in a heap that only grows; the dictionaries
refer to them by position, so an object keeps its identity after it has left
`_calls` and after its numeric id has been given to another call.

## Implementation notes

The registry keeps `_accounts` and `_configs` under one lock and always writes
both, so they are one dictionary here. `commands` lists the library methods
invoked on call objects, in order; the Python program keeps no such list.
-/

namespace PjsuaMcp.Calls

open Library

abbrev ObjId := Nat

/-- `PhoneConfig`. -/
structure PhoneConfig where
  domain : String
  username : Option String := none
  password : Option String := none
  realm : String := "*"
  srtp : Bool := false
  autoAnswer : Bool := false
  transport : String := "udp"
  localPort : Int := 0
  codecs : Option (List String) := none
  transportId : Option Int := none
  recordingEnabled : Bool := false
  captureEnabled : Bool := false
  deriving DecidableEq, Repr

/-- A value of `_sip_call_id_index`. -/
structure OwnerInfo where
  phoneId : PhoneId
  pjsuaCallId : CallId
  remoteUri : String
  deriving DecidableEq, Repr

/-- An entry of `_call_history`. -/
structure HistoryEntry where
  phoneId : PhoneId
  remoteUri : String
  duration : Int
  lastStatus : Int
  lastStatusText : String
  codec : String
  recordingFile : Option String
  timestamp : String
  deriving DecidableEq, Repr

/-- A running capture of one phone. -/
structure PhoneCapture where
  file : String
  callId : Option CallId
  startedAt : String
  deriving DecidableEq, Repr

/-- Where `process_auto_captures` is suspended: not running, inside the start of one
phone's tcpdump, or inside the stop of one. -/
inductive DrainState
  | idle
  | starting (p : PhoneId) (c : Option CallId)
  | stopping (p : PhoneId)
  deriving DecidableEq, Repr

/-- Library methods invoked on a call object. -/
inductive Command
  | answer (statusCode : Int)
  | hangup (statusCode : Int)
  | xfer (destUri : String)
  | xferReplaces (dest : ObjId)
  | setHold
  | reinvite
  | dialDtmf (digit : Char)
  deriving DecidableEq, Repr

/-- A final answer or a hangup: the incoming call is no longer waiting. -/
def Command.isFinal : Command → Bool
  | .answer statusCode => 200 ≤ statusCode
  | .hangup _ => true
  | _ => false

structure Sys where
  phones : OrderedDict PhoneId PhoneConfig
  transports : List Int
  objs : List SipCall
  calls : OrderedDict CallId ObjId
  callPhone : OrderedDict CallId PhoneId
  incomingQueue : OrderedDict PhoneId (List CallId)
  autoAnswerPending : OrderedDict PhoneId (List CallId)
  autoAnswering : List (PhoneId × CallId)
  callHistory : List HistoryEntry
  activeCallsByPhone : OrderedDict PhoneId Nat
  autoCapturePendingStart : List (PhoneId × Option CallId)
  autoCapturePendingStop : List PhoneId
  sipCallIdIndex : OrderedDict String OwnerInfo
  phoneProcesses : OrderedDict PhoneId PhoneCapture
  drain : DrainState
  commands : List (ObjId × Command)
  deriving DecidableEq

namespace Sys

/-- A server that has just started: no phones, no calls, empty queues. -/
def initial : Sys where
  phones := .empty
  transports := []
  objs := []
  calls := .empty
  callPhone := .empty
  incomingQueue := .empty
  autoAnswerPending := .empty
  autoAnswering := []
  callHistory := []
  activeCallsByPhone := .empty
  autoCapturePendingStart := []
  autoCapturePendingStop := []
  sipCallIdIndex := .empty
  phoneProcesses := .empty
  drain := .idle
  commands := []

/-- The object tracked under the numeric id `c`, if any. -/
def trackedCall (s : Sys) (c : CallId) : Option SipCall :=
  (s.calls.get? c).bind fun o => s.objs[o]?

/-- The object `o` is the one `_calls` holds under its numeric id. -/
def Tracks (s : Sys) (o : ObjId) : Prop := ∃ c, s.calls.get? c = some o

/-- `_active_calls_by_phone.get(p, 0)`. -/
def activeCount (s : Sys) (p : PhoneId) : Nat := (s.activeCallsByPhone.get? p).getD 0

/-- `_incoming_queue.get(p, [])`. -/
def queueOf (s : Sys) (p : PhoneId) : List CallId := (s.incomingQueue.get? p).getD []

/-- `is_phone_capturing`. -/
def isPhoneCapturing (s : Sys) (p : PhoneId) : Bool := s.phoneProcesses.contains p

/-- `current_pcap_path_for`. -/
def currentPcapPathFor (s : Sys) (p : PhoneId) : Option String :=
  (s.phoneProcesses.get? p).map PhoneCapture.file

end Sys

end PjsuaMcp.Calls
