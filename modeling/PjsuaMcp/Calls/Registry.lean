import PjsuaMcp.Calls.Manager

/-!
# Adding, dropping and replacing phones

The methods of `PhoneRegistry` that change the set of phones, with the hooks
that `CallManager` installs on them. Replacing a phone is dropping it and
adding it again, and a fresh registration cycle replaces the phone by itself.

## Implementation notes

The outcomes of the two library calls on the way (creating the transport and
creating the account) are arguments. When one of them raises, what was done
before it stays done.
-/

namespace PjsuaMcp.Calls

open Library

/-- What the library answers while a phone is added: the transport id, or nothing when
`create_transport` raised, and whether `SipAccount.create` succeeded. -/
structure AddOutcome where
  transport : Option Int
  accountCreated : Bool
  deriving DecidableEq, Repr

/-- The credentials that `update_phone` may change before it registers again. -/
structure Credentials where
  password : Option String
  realm : Option String
  srtp : Option Bool
  deriving DecidableEq, Repr

/-- `update_phone` overwrites the credentials that were given; `add_phone`, which registers the
phone again, takes an empty realm for any. -/
def PhoneConfig.withCredentials (cfg : PhoneConfig) (creds : Credentials) : PhoneConfig :=
  let realm := creds.realm.getD cfg.realm
  { cfg with
    password := creds.password.or cfg.password
    realm := if realm.isEmpty then "*" else realm
    srtp := creds.srtp.getD cfg.srtp }

namespace Sys

/-- `_on_phone_added`. -/
def onPhoneAdded (s : Sys) (p : PhoneId) : Sys :=
  { s with
    incomingQueue := s.incomingQueue.setdefault p []
    autoAnswerPending := s.autoAnswerPending.setdefault p [] }

/-- The ids that `_call_phone` gives to `p`. -/
def idsOf (s : Sys) (p : PhoneId) : List CallId :=
  (s.callPhone.entries.filter fun e => e.2 = p).map Prod.fst

/-- `_on_phone_dropped`. -/
def onPhoneDropped (s : Sys) (p : PhoneId) : Sys :=
  let s :=
    { s with
      incomingQueue := s.incomingQueue.pop p
      autoAnswerPending := s.autoAnswerPending.pop p
      activeCallsByPhone := s.activeCallsByPhone.pop p }
  (s.untrack (s.idsOf p)).queueStopIfCapturing p

/-- `close_transport`, when the config carries a transport id. -/
def closeTransport (s : Sys) (transportId : Option Int) : Sys :=
  { s with transports := s.transports.filter fun t => some t ≠ transportId }

/-- `drop_phone`. -/
def dropPhone (s : Sys) (p : PhoneId) : Sys :=
  match s.phones.get? p with
  | none => s
  | some cfg =>
      let s := { s with phones := s.phones.pop p }
      (s.onPhoneDropped p).closeTransport cfg.transportId

/-- The second half of `add_phone`, after a phone of the same id has been dropped. -/
def createPhone (s : Sys) (p : PhoneId) (cfg : PhoneConfig) (out : AddOutcome) : Sys :=
  match out.transport with
  | none => s
  | some tp =>
      let s := { s with transports := s.transports ++ [tp] }
      if out.accountCreated then
        { s with phones := s.phones.set p { cfg with transportId := some tp } }.onPhoneAdded p
      else s

/-- `add_phone`. -/
def addPhone (s : Sys) (p : PhoneId) (cfg : PhoneConfig) (out : AddOutcome) : Sys :=
  (s.dropPhone p).createPhone p cfg out

/-- `update_phone` with credentials, and `reregister_phone`: the phone replaces itself. -/
def reregisterPhone (s : Sys) (p : PhoneId) (creds : Credentials) (out : AddOutcome) : Sys :=
  match s.phones.get? p with
  | none => s
  | some cfg => s.addPhone p (cfg.withCredentials creds) out

end Sys

end PjsuaMcp.Calls
