import PjsuaMcp.SipLog.Metadata
import PjsuaMcp.Calls.State

/-!
# Which phone a log entry belongs to

`_build_phones_meta` collects what is known of each registered phone,
`_resolve_owner` compares it with the metadata of an entry, and
`filter_entries_by_owner` keeps the entries of one phone.

## Implementation notes

The sets of a `PhoneMeta` are lists here, read through membership only. The
port of a transport is asked from the engine, which is a parameter.
-/

namespace PjsuaMcp.SipLog

open Sdp (Text)
open Library
open Calls (PhoneId PhoneConfig OwnerInfo)

/-- `PhoneMeta`. -/
structure PhoneMeta where
  phoneId : PhoneId
  username : Option Text := none
  localPort : Option Nat := none
  sipCallIds : List Text := []
  remoteUris : List Text := []
  deriving DecidableEq, Repr

abbrev Phones := OrderedDict PhoneId PhoneMeta

/-! ## Building the family of phones -/

/-- The sets that one phone has in `by_phone`. -/
structure Slot where
  sipCallIds : List Text := []
  remoteUris : List Text := []
  deriving DecidableEq, Repr

def Slot.add (slot : Slot) (sipId : Text) (remoteUri : Text) : Slot where
  sipCallIds := slot.sipCallIds ++ [sipId]
  remoteUris := if remoteUri.isEmpty then slot.remoteUris else slot.remoteUris ++ [remoteUri]

/-- One round of the loop over the index. -/
def addToSlot (byPhone : OrderedDict PhoneId Slot) (entry : String × OwnerInfo) :
    OrderedDict PhoneId Slot :=
  if entry.2.phoneId = "" then byPhone
  else
    byPhone.set entry.2.phoneId
      (((byPhone.get? entry.2.phoneId).getD {}).add entry.1.toList entry.2.remoteUri.toList)

def slotsByPhone (index : OrderedDict String OwnerInfo) : OrderedDict PhoneId Slot :=
  index.entries.foldl addToSlot .empty

/-- What is known of one registered phone. -/
def phoneMeta (transportPort : Int → Option Nat) (index : OrderedDict String OwnerInfo)
    (p : PhoneId) (cfg : PhoneConfig) : PhoneMeta :=
  let slot := ((slotsByPhone index).get? p).getD {}
  { phoneId := p
    username := cfg.username.map String.toList
    localPort := cfg.transportId.bind transportPort
    sipCallIds := slot.sipCallIds
    remoteUris := slot.remoteUris }

/-- `_build_phones_meta`. -/
def buildPhonesMeta (transportPort : Int → Option Nat) (s : Calls.Sys) : Phones where
  entries := s.phones.entries.map fun e => (e.1, phoneMeta transportPort s.sipCallIdIndex e.1 e.2)
  nodup_keys := by
    simpa only [List.map_map, Function.comp_def] using s.phones.nodup_keys

/-! ## The owner of an entry -/

/-- `sip:<username>@`. -/
def sipUser (username : Text) : Text := "sip:".toList ++ username ++ ['@']

/-- A name that is there and not empty. -/
def given (name : Option Text) : Option Text := name.filter fun text => !text.isEmpty

namespace CharTables

variable (u : CharTables)

/-- The Call-ID is one of the phone's. -/
def ownsCallId (md : SipMetadata) (phone : PhoneMeta) : Bool :=
  (given md.sipCallId).any fun callId => callId ∈ phone.sipCallIds

/-- The URI of a call dump is a remote URI of the phone. -/
def ownsDump (md : SipMetadata) (phone : PhoneMeta) : Bool :=
  (given md.dumpRemoteUri).any fun uri =>
    phone.remoteUris.any fun remote => u.normalizeSipUri remote = u.normalizeSipUri uri

/-- A Via line has the port of the phone's transport. -/
def ownsVia (md : SipMetadata) (phone : PhoneMeta) : Bool :=
  phone.localPort.any fun port => port ≠ 0 && port ∈ md.viaPorts

/-- The From URI of a REGISTER has the phone's username. -/
def ownsRegister (md : SipMetadata) (phone : PhoneMeta) : Bool :=
  md.method = some "REGISTER".toList && (given md.fromUri).any fun uri =>
    (given phone.username).any fun username => sipUser username <:+: uri

/-- The four ways to recognise the owner, in the order in which they are tried. -/
def signals (md : SipMetadata) : List (PhoneMeta → Bool) :=
  [ownsCallId md, u.ownsDump md, ownsVia md, ownsRegister md]

/-- `_resolve_owner`. -/
def resolveOwner (md : SipMetadata) (phones : Phones) : Option PhoneId :=
  (u.signals md).findSome? fun signal => phones.findKey? signal

end CharTables

/-! ## Filtering the log -/

/-- `LogEntry`. -/
structure LogEntry where
  level : Int
  msg : Text
  threadName : Text
  deriving DecidableEq, Repr

/-- The arguments of `filter_entries_by_owner` besides the entries and the phones. -/
structure LogFilter where
  targetPhone : Option PhoneId := none
  targetSipCallId : Option Text := none
  method : Option Text := none
  direction : Option Text := none
  statusCode : Option Nat := none
  cseq : Option Nat := none
  deriving DecidableEq, Repr

/-- A wanted value is not the one found. -/
def mismatch {α : Type} [DecidableEq α] (wanted found : Option α) : Bool :=
  wanted.isSome && found ≠ wanted

/-- The text that the fallback looks for. -/
def targetSubstring (phones : Phones) (p : PhoneId) : Option Text :=
  if p = "" then none else (given ((phones.get? p).bind PhoneMeta.username)).map sipUser

inductive Verdict
  | keep
  | fallback
  | drop
  deriving DecidableEq, Repr

namespace CharTables

variable (u : CharTables)

/-- Some metadata filter rejects the entry. -/
def rejectedByMetadata (flt : LogFilter) (md : SipMetadata) : Bool :=
  mismatch ((given flt.method).map u.upper) md.method ||
    mismatch ((given flt.direction).map u.upper) md.direction ||
    mismatch flt.statusCode md.statusCode || mismatch flt.cseq md.cseq

/-- The body of the loop of `filter_entries_by_owner`, with the metadata of the entry. -/
def verdict (phones : Phones) (flt : LogFilter) (entry : LogEntry) (md : SipMetadata) : Verdict :=
  if u.rejectedByMetadata flt md then .drop
  else if mismatch flt.targetSipCallId md.sipCallId then .drop
  else
    match flt.targetPhone with
    | none => .keep
    | some p =>
        match u.resolveOwner md phones with
        | some owner => if owner = p then .keep else .drop
        | none =>
            if (targetSubstring phones p).any fun text => text <:+: entry.msg then .fallback
            else .drop

/-- Kept entries, and how many of them by the fallback. -/
def addEntry (phones : Phones) (flt : LogFilter) (out : List LogEntry × Nat) (entry : LogEntry) :
    Option (List LogEntry × Nat) := do
  let md ← u.parseSipMetadata entry.msg
  match u.verdict phones flt entry md with
  | .keep => return (out.1 ++ [entry], out.2)
  | .fallback => return (out.1 ++ [entry], out.2 + 1)
  | .drop => return out

/-- `filter_entries_by_owner`, `none` where the metadata of an entry cannot be read. -/
def filterEntriesByOwner (entries : List LogEntry) (phones : Phones) (flt : LogFilter) :
    Option (List LogEntry × Nat) :=
  if flt = {} then some (entries, 0) else entries.foldlM (u.addEntry phones flt) ([], 0)

end CharTables

end PjsuaMcp.SipLog
