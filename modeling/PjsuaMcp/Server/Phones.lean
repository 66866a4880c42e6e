import PjsuaMcp.Server.Profile
import PjsuaMcp.Calls.System
import PjsuaMcp.Library.FunctionTable

/-!
# The tools that manage phones

The server keeps two things beside the registry: the tools that FastMCP offers,
and the names of the tools of each phone, `_phone_tools`. The tools add, drop,
update and load phones; two of the tools of a phone renew and end its
registration.

## Implementation notes

The table of FastMCP is a parameter: `add_tool` keeps a tool that is already
there, and `remove_tool` fails on one that is not; `unregister_phone_tools` passes
over such a failure. The function behind a tool of a phone is closed over the
phone id. The answers of the library to the creation of transport and account are
arguments, and so is `str.lower`. The arguments of a tool have the types that
its signature gives; a profile may give values of other types.
-/

namespace PjsuaMcp.Server

open Sdp (Text)
open Library
open Calls (PhoneId CallId ObjId PhoneConfig AddOutcome Credentials Sys RecorderEnv SidecarEnv)

/-- A registered function: a static tool, or an action with the phone in its closure. -/
inductive Tool
  | static (name : Text)
  | phone (p : PhoneId) (action : Text)
  deriving DecidableEq, Repr

/-- A table as FastMCP keeps it. -/
abbrev ToolTable := FunctionTable Text Tool

structure State (T : ToolTable) where
  sys : Sys
  phoneTools : OrderedDict PhoneId (List Text)
  tools : T.Table

/-- The tools of the module, each under its own name. -/
def staticBindings : List (Text × Tool) := staticTools.map fun name => (name, .static name)

/-- `_add(fn, action, …)` for each action. -/
def phoneBindings (p : PhoneId) : List (Text × Tool) :=
  phoneActions.map fun action => (toolName p action, .phone p action)

namespace State

variable {T : ToolTable}

/-- The tools that `list_tools` shows. -/
def mcpTools (st : State T) : List Text := T.listed st.tools

variable (T) in
def initial : State T where
  sys := Sys.initial
  phoneTools := .empty
  tools := T.addAll T.empty staticBindings

/-- `unregister_phone_tools`, and the entry in `_phone_tools` goes. -/
def unregisterTools (st : State T) (p : PhoneId) : State T :=
  { st with
    phoneTools := st.phoneTools.pop p
    tools := T.removeAll st.tools ((st.phoneTools.get? p).getD []) }

/-- `register_phone_tools`, and the entry in `_phone_tools`. -/
def registerTools (st : State T) (p : PhoneId) : State T :=
  { st with
    phoneTools := st.phoneTools.set p (toolNames p)
    tools := T.addAll st.tools (phoneBindings p) }

end State

/-- The keys of `TRANSPORT_MAP`. -/
def transportNames : List Text := ["udp".toList, "tcp".toList, "tls".toList]

/-- The transport names that `create_transport` accepts; it fails on a value without `lower`. -/
def acceptsTransport (lower : Text → Text) : Yaml → Bool
  | .str name => lower name ∈ transportNames
  | _ => false

/-- The answer to the creation of a transport: a name that is not accepted raises. -/
def checkedOutcome (lower : Text → Text) (transport : Yaml) (out : AddOutcome) : AddOutcome :=
  { out with transport := if acceptsTransport lower transport then out.transport else none }

inductive AddError
  | idType
  | invalidId
  | transport
  | account
  | notFound
  deriving DecidableEq, Repr

/-- `_validate_phone_id`. -/
def validatePhoneId : Yaml → Except AddError PhoneId
  | .str p => if isPhoneId p then .ok (String.ofList p) else .error .invalidId
  | _ => .error .idType

/-- Whether `PhoneRegistry.add_phone` returns, and what it raises otherwise. -/
def registered (out : AddOutcome) : Except AddError Unit :=
  if out.transport.isNone then .error .transport
  else if out.accountCreated then .ok ()
  else .error .account

namespace State

variable {T : ToolTable}

/-- `_add_phone_impl`; the state is what it leaves behind, also when it raises. -/
def addPhoneImpl (lower : Text → Text) (st : State T) (phoneId transport : Yaml) (cfg : PhoneConfig)
    (out : AddOutcome) : Except AddError PhoneId × State T :=
  match validatePhoneId phoneId with
  | .error e => (.error e, st)
  | .ok p =>
      let st := if st.phoneTools.contains p then st.unregisterTools p else st
      let out := checkedOutcome lower transport out
      let st := { st with sys := st.sys.addPhone p cfg out }
      match registered out with
      | .error e => (.error e, st)
      | .ok () => (.ok p, st.registerTools p)

/-- `_drop_phone_impl`: whether the phone was there. -/
def dropPhoneImpl (st : State T) (p : PhoneId) (hangupCalls : Bool) : Bool × State T :=
  if st.sys.phones.contains p then
    let st :=
      if hangupCalls then { st with sys := st.sys.callOp (.hangupAll (some p)) } else st
    let st := st.unregisterTools p
    (true, { st with sys := st.sys.dropPhone p })
  else (false, st)

end State

/-- The arguments of `update_phone`, with what the recorders of the calls answer. -/
structure PhoneUpdate where
  autoAnswer : Option Bool := none
  codecs : Option (List String) := none
  recordingEnabled : Option Bool := none
  captureEnabled : Option Bool := none
  credentials : Credentials := ⟨none, none, none⟩
  recorders : ObjId → RecorderEnv
  sidecars : ObjId → SidecarEnv

/-- `reregister_needed`. -/
def Credentials.given (creds : Credentials) : Bool :=
  creds.password.isSome || creds.realm.isSome || creds.srtp.isSome

namespace State

variable {T : ToolTable}

/-- The changes of `update_phone` that are made at once. -/
def applyUpdate (sys : Sys) (p : PhoneId) (upd : PhoneUpdate) : Sys :=
  let sys := match upd.autoAnswer with
    | some enabled => sys.setAutoAnswer p enabled
    | none => sys
  let sys := match upd.codecs with
    | some codecs => sys.setCodecsForPhone p codecs
    | none => sys
  let sys := match upd.recordingEnabled with
    | some enabled => sys.setRecordingEnabled p enabled upd.recorders upd.sidecars
    | none => sys
  match upd.captureEnabled with
  | some enabled => sys.setCaptureEnabled p enabled
  | none => sys

/-- `reregister_phone`: the transport name is the one of the configuration. -/
def reregisterPhone (lower : Text → Text) (st : State T) (p : PhoneId) (creds : Credentials)
    (out : AddOutcome) : Except AddError Unit × State T :=
  match st.sys.phones.get? p with
  | none => (.error .notFound, st)
  | some cfg =>
      let out := checkedOutcome lower (.str cfg.transport.toList) out
      (registered out, { st with sys := st.sys.reregisterPhone p creds out })

/-- `update_phone`. -/
def updatePhone (lower : Text → Text) (st : State T) (p : PhoneId) (upd : PhoneUpdate)
    (out : AddOutcome) : Except AddError Unit × State T :=
  if st.sys.phones.contains p then
    let st := { st with sys := applyUpdate st.sys p upd }
    if Credentials.given upd.credentials then st.reregisterPhone lower p upd.credentials out
    else (.ok (), st)
  else (.error .notFound, st)

end State

/-! ## Loading a profile -/

/-- The status `"ok"`, `"partial"` or `"error"`. -/
inductive LoadStatus
  | ok
  | partly
  | error
  deriving DecidableEq, Repr

structure LoadReport where
  status : LoadStatus
  rejected : Option ProfileError := none
  dropped : List PhoneId := []
  added : List PhoneId := []
  errors : List (Yaml × AddError) := []

/-- What the loop over the specs has done. -/
structure AddedSpecs (T : ToolTable) where
  added : List PhoneId
  errors : List (Yaml × AddError)
  state : State T

namespace State

variable {T : ToolTable} (lower : Text → Text) (str : Yaml → String)

/-- `_add_phone_impl(**spec)`. -/
def addSpec (st : State T) (spec : Mapping) (out : AddOutcome) :
    Except AddError PhoneId × State T :=
  st.addPhoneImpl lower (specId spec) (specTransport spec) (configOf str spec) out

/-- The loop over the specs, from spec `i` on. -/
def addSpecs (outs : Nat → AddOutcome) : Nat → State T → List Mapping → AddedSpecs T
  | _, st, [] => ⟨[], [], st⟩
  | i, st, spec :: rest =>
      let result := st.addSpec lower str spec (outs i)
      let others := addSpecs outs (i + 1) result.2 rest
      match result.1 with
      | .ok p => { others with added := p :: others.added }
      | .error e => { others with errors := (specId spec, e) :: others.errors }

/-- The loop over the phones to tear down. -/
def dropPhones (st : State T) (ids : List PhoneId) : State T :=
  ids.foldl (fun st p => (st.dropPhoneImpl p true).2) st

/-- Replace mode hangs up all calls, when there are phones, and drops every phone. -/
def tearDown (st : State T) (ids : List PhoneId) : State T :=
  if ids.isEmpty then st
  else dropPhones { st with sys := st.sys.callOp (.hangupAll none) } ids

/-- `load_phones`. -/
def loadPhones (st : State T) (file : ProfileFile) (merge : Bool) (outs : Nat → AddOutcome) :
    LoadReport × State T :=
  match loadProfileYaml file with
  | .error e => ({ status := .error, rejected := some e }, st)
  | .ok specs =>
      let existing := if merge then [] else st.sys.phones.keys
      let result := addSpecs lower str outs 0 (st.tearDown existing) specs
      ({ status := if result.errors.isEmpty then .ok else .partly
         dropped := existing
         added := result.added
         errors := result.errors },
        result.state)

end State

/-! ## Tool calls one after the other -/

inductive ToolCall
  | addPhone (p : PhoneId) (cfg : PhoneConfig) (out : AddOutcome)
  | dropPhone (p : PhoneId) (hangupCalls : Bool)
  | updatePhone (p : PhoneId) (upd : PhoneUpdate) (out : AddOutcome)
  | loadPhones (file : ProfileFile) (merge : Bool) (outs : Nat → AddOutcome)
  /-- The tool `<p>_register`. -/
  | register (p : PhoneId) (out : AddOutcome)
  /-- The tool `<p>_unregister`. -/
  | unregister (p : PhoneId)

/-- The state after a tool call. -/
def State.step {T : ToolTable} (lower : Text → Text) (str : Yaml → String) (st : State T) :
    ToolCall → State T
  | .addPhone p cfg out =>
      (st.addPhoneImpl lower (.str p.toList) (.str cfg.transport.toList) cfg out).2
  | .dropPhone p hangupCalls => (st.dropPhoneImpl p hangupCalls).2
  | .updatePhone p upd out => (st.updatePhone lower p upd out).2
  | .loadPhones file merge outs => (st.loadPhones lower str file merge outs).2
  | .register p out => (st.reregisterPhone lower p ⟨none, none, none⟩ out).2
  | .unregister _ => st

/-- The server under tool calls, each of which ends before the next begins. -/
def toolServer (T : ToolTable) (lower : Text → Text) (str : Yaml → String) :
    GuardedSystem (State T) ToolCall where
  init := State.initial T
  enabled := fun _ _ => True
  step := State.step lower str

end PjsuaMcp.Server
