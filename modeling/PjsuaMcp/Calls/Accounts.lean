import PjsuaMcp.Calls.Ledgers
import PjsuaMcp.Library.BoundedDeque
import PjsuaMcp.Scenario.EventBus

/-!
# Account objects and what the callbacks put on the bus

A registered phone has an account object, which keeps the last registration
state and the messages that have come in. The callbacks of accounts and calls
report on the event bus. `Observed` runs them beside the server and keeps
what was reported, so what the tools say of a phone can be compared with what
the bus was told.

## Implementation notes

Account objects live in a heap that only grows, as the call objects do, and may
still be called back when their phone has another one. A report names the object
it comes from; the event on the bus does not. `_incoming_calls` is never used and
left out. Events are reported while a default bus is set, which is the time
between start and shutdown.
-/

namespace PjsuaMcp.Calls

open Library

abbrev AccountId := Nat

/-! ## One account -/

/-- `_reg_info`, and what `getInfo()` of an account tells. -/
structure RegInfo where
  isRegistered : Bool
  statusCode : Int
  reason : String
  expires : Int
  deriving DecidableEq, Repr

def RegInfo.initial : RegInfo := ⟨false, 0, "", 0⟩

def RegInfo.notConfigured : RegInfo := ⟨false, 0, "Phone not configured", 0⟩

/-- A SIP MESSAGE as it is kept. -/
structure Message where
  fromUri : String
  toUri : String
  body : String
  contentType : String
  timestamp : String
  deriving DecidableEq, Repr

structure SipAccount where
  phoneId : PhoneId
  regInfo : RegInfo
  messages : BoundedDeque Message 100

namespace SipAccount

def new (p : PhoneId) : SipAccount := ⟨p, .initial, .empty⟩

/-- The part of `onRegState` that keeps the state. -/
def onRegState (acc : SipAccount) (info : RegInfo) : SipAccount := { acc with regInfo := info }

/-- The part of `onInstantMessage` that keeps the message. -/
def onInstantMessage (acc : SipAccount) (msg : Message) : SipAccount :=
  { acc with messages := acc.messages.append msg }

/-- `get_messages`; zero asks for all of them, as leaving the number out does. -/
def getMessages (acc : SipAccount) (lastN : Option Int) : List Message :=
  lastOf lastN acc.messages.items

end SipAccount

/-! ## Reports -/

/-- A report to the bus, with the object that it comes from. -/
inductive Report
  | callState (o : ObjId) (call : CallIdentity) (ci : CallInfo)
  | dtmfIn (o : ObjId) (call : CallIdentity) (digit : String)
  | regState (k : AccountId) (p : PhoneId) (info : RegInfo)
  | instantMessage (k : AccountId) (p : PhoneId) (msg : Message)
  deriving DecidableEq, Repr

/-- `_call_state_name` in lower case. -/
def InvState.name : InvState → String
  | null => "null"
  | calling => "calling"
  | incoming => "incoming"
  | early => "early"
  | connecting => "connecting"
  | confirmed => "confirmed"
  | disconnected => "disconnected"

def Direction.name : Direction → String
  | outbound => "outbound"
  | inbound => "inbound"

/-- The type of the event that `onRegState` emits. -/
def RegInfo.eventType (info : RegInfo) : String :=
  if info.isRegistered then "reg.success"
  else if info.statusCode = 0 then "reg.started"
  else if info.expires = 0 then "reg.unregistered"
  else "reg.failed"

open Scenario in
/-- What the emitter passes to the bus. -/
def Report.event : Report → EventBody
  | .callState _ call ci =>
      { type := ("call.state." ++ ci.state.name).toList
        phoneId := .ofString call.phoneId
        callId := .int call.callId
        data :=
          [("state".toList, .ofString ci.state.name),
            ("remote_uri".toList, .ofString ci.remoteUri),
            ("last_status".toList, .int ci.lastStatusCode),
            ("last_status_text".toList, .ofString ci.lastReason),
            ("direction".toList, .ofString call.direction.name)] }
  | .dtmfIn _ call digit =>
      { type := "dtmf.in".toList
        phoneId := .ofString call.phoneId
        callId := .int call.callId
        data := [("digit".toList, .ofString digit), ("method".toList, .ofString "rfc2833")] }
  | .regState _ p info =>
      { type := info.eventType.toList
        phoneId := .ofString p
        callId := .null
        data :=
          [("status_code".toList, .int info.statusCode), ("reason".toList, .ofString info.reason),
            ("expires".toList, .int info.expires)] }
  | .instantMessage _ p msg =>
      { type := "im.received".toList
        phoneId := .ofString p
        callId := .null
        data :=
          [("from".toList, .ofString msg.fromUri), ("to".toList, .ofString msg.toUri),
            ("body".toList, .ofString msg.body),
            ("content_type".toList, .ofString msg.contentType)] }

/-- The account that a report comes from. -/
def Report.account : Report → Option AccountId
  | .regState k _ _ | .instantMessage k _ _ => some k
  | _ => none

/-- What the event gives as its phone. -/
def Report.phoneId : Report → PhoneId
  | .callState _ call _ | .dtmfIn _ call _ => call.phoneId
  | .regState _ p _ | .instantMessage _ p _ => p

/-- The registration states that an account has reported. -/
def regStatesOf (reports : List Report) (k : AccountId) : List RegInfo :=
  reports.filterMap fun
    | .regState k' _ info => if k' = k then some info else none
    | _ => none

/-- The messages that an account has reported. -/
def messagesOf (reports : List Report) (k : AccountId) : List Message :=
  reports.filterMap fun
    | .instantMessage k' _ msg => if k' = k then some msg else none
    | _ => none

/-! ## The server with its accounts -/

/-- `registered` is `_accounts`, with positions in the heap of account objects. -/
structure Observed where
  sys : Sys
  accounts : List SipAccount
  registered : OrderedDict PhoneId AccountId
  reports : List Report

inductive ObservedAction
  | act (a : Action)
  | onDtmfDigit (o : ObjId) (digit : String)
  | onRegState (k : AccountId) (info : RegInfo)
  | onInstantMessage (k : AccountId) (msg : Message)

namespace Observed

/-- `add_phone`: the account of a phone that is there is dropped first. -/
def enroll (w : Observed) (p : PhoneId) (out : AddOutcome) :
    List SipAccount × OrderedDict PhoneId AccountId :=
  if out.transport.isSome && out.accountCreated then
    (w.accounts ++ [.new p], (w.registered.pop p).set p w.accounts.length)
  else (w.accounts, w.registered.pop p)

/-- What an action does to the accounts. -/
def accountsAfter (w : Observed) : Action → List SipAccount × OrderedDict PhoneId AccountId
  | .addPhone p _ out => w.enroll p out
  | .reregisterPhone p _ out =>
      if w.sys.phones.contains p then w.enroll p out else (w.accounts, w.registered)
  | .dropPhone p => (w.accounts, w.registered.pop p)
  | _ => (w.accounts, w.registered)

/-- What a call reports when its state has changed. -/
def reportsOf (w : Observed) : Action → List Report
  | .callState o ci _ _ =>
      (w.sys.objs[o]?.map fun call => Report.callState o call.toCallIdentity ci).toList
  | _ => []

def enabled (w : Observed) : ObservedAction → Bool
  | .act a => w.sys.enabled a
  | .onDtmfDigit o _ => w.sys.objActive o
  | .onRegState k _ | .onInstantMessage k _ => k < w.accounts.length

def step (w : Observed) : ObservedAction → Observed
  | .act a =>
      { sys := w.sys.step a
        accounts := (w.accountsAfter a).1
        registered := (w.accountsAfter a).2
        reports := w.reports ++ w.reportsOf a }
  | .onDtmfDigit o digit =>
      { w with reports := w.reports ++
          (w.sys.objs[o]?.map fun call => Report.dtmfIn o call.toCallIdentity digit).toList }
  | .onRegState k info =>
      { w with
        accounts := w.accounts.modify k fun acc => acc.onRegState info
        reports := w.reports ++
          (w.accounts[k]?.map fun acc => Report.regState k acc.phoneId info).toList }
  | .onInstantMessage k msg =>
      { w with
        accounts := w.accounts.modify k fun acc => acc.onInstantMessage msg
        reports := w.reports ++
          (w.accounts[k]?.map fun acc => Report.instantMessage k acc.phoneId msg).toList }

/-! ## What the tools say of a phone -/

/-- `get_account`. -/
def getAccount (w : Observed) (p : PhoneId) : Option SipAccount :=
  (w.registered.get? p).bind fun k => w.accounts[k]?

/-- `get_messages`. -/
def getMessages (w : Observed) (p : PhoneId) (lastN : Option Int) : List Message :=
  match w.getAccount p with
  | none => []
  | some acc => acc.getMessages lastN

/-- `get_registration_info`. -/
def getRegistrationInfo (w : Observed) (p : PhoneId) : RegInfo :=
  match w.getAccount p with
  | none => .notConfigured
  | some acc => acc.regInfo

end Observed

/-- The server with the callbacks of calls and accounts. -/
def observed : GuardedSystem Observed ObservedAction where
  init := ⟨Sys.initial, [], .empty, []⟩
  enabled := fun w a => w.enabled a = true
  step := Observed.step

instance (w : Observed) (a : ObservedAction) : Decidable (observed.enabled w a) :=
  inferInstanceAs (Decidable (w.enabled a = true))

/-! ## Reports of one account -/

theorem regStatesOf_append (reports later : List Report) (k : AccountId) :
    regStatesOf (reports ++ later) k = regStatesOf reports k ++ regStatesOf later k :=
  List.filterMap_append

theorem messagesOf_append (reports later : List Report) (k : AccountId) :
    messagesOf (reports ++ later) k = messagesOf reports k ++ messagesOf later k :=
  List.filterMap_append

/-- An account that is not among the sources has reported nothing. -/
theorem reported_nothing {reports : List Report} {k : AccountId}
    (h : ∀ r ∈ reports, r.account ≠ some k) :
    regStatesOf reports k = [] ∧ messagesOf reports k = [] := by
  constructor
  · apply List.filterMap_eq_nil_iff.mpr
    intro r hr
    cases r with
    | regState k' p info => exact if_neg fun hk => h _ hr (congrArg some hk)
    | _ => rfl
  · apply List.filterMap_eq_nil_iff.mpr
    intro r hr
    cases r with
    | instantMessage k' p msg => exact if_neg fun hk => h _ hr (congrArg some hk)
    | _ => rfl

/-! ## What every state satisfies -/

/-- The account has kept the last state and the last hundred messages that it has reported. -/
structure SipAccount.Keeps (acc : SipAccount) (reports : List Report) (k : AccountId) : Prop where
  regInfo : acc.regInfo = (regStatesOf reports k).getLast?.getD .initial
  messages : acc.messages.items = (messagesOf reports k).rtake 100

/-- Every registered phone has an account of its own, and the accounts keep what they report. -/
structure Observed.Enrolled (w : Observed) : Prop where
  keys : w.registered.keys = w.sys.phones.keys
  account : ∀ p k, w.registered.get? p = some k →
    ∃ acc, w.accounts[k]? = some acc ∧ acc.phoneId = p
  keeps : ∀ (k : AccountId) (acc : SipAccount), w.accounts[k]? = some acc → acc.Keeps w.reports k
  named : ∀ r ∈ w.reports, ∀ k, r.account = some k →
    ∃ acc, w.accounts[k]? = some acc ∧ acc.phoneId = r.phoneId

/-- Reports of other accounts leave what an account keeps right. -/
theorem SipAccount.Keeps.append {acc : SipAccount} {reports later : List Report} {k : AccountId}
    (h : acc.Keeps reports k) (others : ∀ r ∈ later, r.account ≠ some k) :
    acc.Keeps (reports ++ later) k := by
  obtain ⟨hregs, hmessages⟩ := reported_nothing others
  constructor
  · rw [regStatesOf_append, hregs, List.append_nil]
    exact h.regInfo
  · rw [messagesOf_append, hmessages, List.append_nil]
    exact h.messages

theorem SipAccount.keeps_new {reports : List Report} {k : AccountId} (p : PhoneId)
    (others : ∀ r ∈ reports, r.account ≠ some k) : (SipAccount.new p).Keeps reports k := by
  obtain ⟨hregs, hmessages⟩ := reported_nothing others
  constructor
  · rw [hregs]
    rfl
  · rw [hmessages]
    rfl

namespace Observed

variable {w : Observed}

/-! ## Actions of the server -/

/-- No step of the call manager reports in an account's name. -/
theorem reportsOf_account {a : Action} : ∀ r ∈ w.reportsOf a, r.account = none := by
  intro r hr
  cases a with
  | callState o ci env timestamp =>
      obtain ⟨call, -, rfl⟩ := Option.map_eq_some_iff.mp (Option.mem_toList.mp hr)
      rfl
  | _ => cases hr

/-- An action leaves the accounts as they are, drops one, or gives a phone a new one. -/
theorem accountsAfter_cases (w : Observed) (a : Action) :
    w.accountsAfter a = (w.accounts, w.registered) ∨
    (∃ p, w.accountsAfter a = (w.accounts, w.registered.pop p)) ∨
    ∃ p, w.accountsAfter a =
      (w.accounts ++ [.new p], (w.registered.pop p).set p w.accounts.length) := by
  have henroll : ∀ p out, w.enroll p out = (w.accounts, w.registered.pop p) ∨
      w.enroll p out = (w.accounts ++ [.new p], (w.registered.pop p).set p w.accounts.length) := by
    intro p out
    unfold enroll
    split_ifs
    · exact .inr rfl
    · exact .inl rfl
  cases a with
  | addPhone p cfg out =>
      obtain hdropped | hadded := henroll p out
      · exact .inr (.inl ⟨p, hdropped⟩)
      · exact .inr (.inr ⟨p, hadded⟩)
  | dropPhone p => exact .inr (.inl ⟨p, rfl⟩)
  | reregisterPhone p creds out =>
      simp only [accountsAfter]
      split_ifs
      · obtain hdropped | hadded := henroll p out
        · exact .inr (.inl ⟨p, hdropped⟩)
        · exact .inr (.inr ⟨p, hadded⟩)
      · exact .inl rfl
  | _ => exact .inl rfl

/-- The accounts are filed under the phones that are registered. -/
theorem enroll_keys (h : w.registered.keys = w.sys.phones.keys) (p : PhoneId) (cfg : PhoneConfig)
    (out : AddOutcome) : (w.enroll p out).2.keys = (w.sys.addPhone p cfg out).phones.keys := by
  have hpop : (w.registered.pop p).keys = (w.sys.dropPhone p).phones.keys := by
    rw [Sys.dropPhone_phones, OrderedDict.pop, OrderedDict.pop, OrderedDict.keys_filterKeys,
      OrderedDict.keys_filterKeys, h]
  have hgone : (w.sys.dropPhone p).phones.get? p = none := by
    rw [Sys.dropPhone_phones, OrderedDict.get?_pop, if_pos rfl]
  have hfree : (w.registered.pop p).get? p = none := by
    rw [OrderedDict.get?_pop, if_pos rfl]
  unfold enroll Sys.addPhone Sys.createPhone
  cases out.transport with
  | none => exact hpop
  | some tp =>
      cases out.accountCreated with
      | false => exact hpop
      | true =>
          calc ((w.registered.pop p).set p w.accounts.length).keys
            _ = (w.registered.pop p).keys ++ [p] := OrderedDict.keys_set_of_get?_none hfree _
            _ = (w.sys.dropPhone p).phones.keys ++ [p] := by rw [hpop]
            _ = _ := (OrderedDict.keys_set_of_get?_none hgone _).symm

/-- `_accounts` and `_configs` are written together. -/
theorem accountsAfter_keys (h : w.registered.keys = w.sys.phones.keys) {a : Action}
    (en : w.sys.enabled a = true) :
    (w.accountsAfter a).2.keys = (w.sys.step a).phones.keys := by
  cases a with
  | addPhone p cfg out => exact enroll_keys h p cfg out
  | dropPhone p =>
      change (w.registered.pop p).keys = (w.sys.dropPhone p).phones.keys
      rw [Sys.dropPhone_phones, OrderedDict.pop, OrderedDict.pop, OrderedDict.keys_filterKeys,
        OrderedDict.keys_filterKeys, h]
  | reregisterPhone p creds out =>
      change _ = (w.sys.reregisterPhone p creds out).phones.keys
      obtain ⟨hp, hsame⟩ | ⟨cfg, hp, hadd⟩ := w.sys.reregisterPhone_cases p creds out
      · have hcontains : w.sys.phones.contains p = false := by rw [OrderedDict.contains, hp]; rfl
        rw [accountsAfter, hcontains, hsame]
        exact h
      · have hcontains : w.sys.phones.contains p = true := by rw [OrderedDict.contains, hp]; rfl
        rw [accountsAfter, hcontains, hadd]
        exact enroll_keys h p _ out
  | _ =>
      rw [Sys.keys_of_roster (Sys.step_transports en rfl).2]
      exact h

/-- An account object stays on the heap. -/
theorem accountsAfter_keeps (w : Observed) (a : Action) {k : AccountId} {acc : SipAccount}
    (hacc : w.accounts[k]? = some acc) : (w.accountsAfter a).1[k]? = some acc := by
  obtain hsame | ⟨p, hdropped⟩ | ⟨p, hadded⟩ := w.accountsAfter_cases a
  · rw [hsame]
    exact hacc
  · rw [hdropped]
    exact hacc
  · rw [hadded]
    exact (List.getElem?_append_left (List.getElem?_eq_some_iff.mp hacc).1).trans hacc

theorem Enrolled.act (h : w.Enrolled) {a : Action} (en : w.sys.enabled a = true) :
    (w.step (.act a)).Enrolled where
  keys := accountsAfter_keys h.keys en
  account p k hk := by
    change (w.accountsAfter a).2.get? p = some k at hk
    obtain hsame | ⟨q, hdropped⟩ | ⟨q, hadded⟩ := w.accountsAfter_cases a
    · rw [hsame] at hk
      obtain ⟨acc, hacc, hphone⟩ := h.account p k hk
      exact ⟨acc, w.accountsAfter_keeps a hacc, hphone⟩
    · rw [hdropped, OrderedDict.get?_pop] at hk
      split_ifs at hk
      obtain ⟨acc, hacc, hphone⟩ := h.account p k hk
      exact ⟨acc, w.accountsAfter_keeps a hacc, hphone⟩
    · rw [hadded, OrderedDict.get?_set, OrderedDict.get?_pop] at hk
      split_ifs at hk with hq
      · cases hk
        refine ⟨.new q, ?_, hq⟩
        change (w.accountsAfter a).1[w.accounts.length]? = _
        rw [hadded, List.getElem?_concat_length]
      · obtain ⟨acc, hacc, hphone⟩ := h.account p k hk
        exact ⟨acc, w.accountsAfter_keeps a hacc, hphone⟩
  keeps k acc hacc := by
    have hothers : ∀ r ∈ w.reportsOf a, r.account ≠ some k := by
      intro r hr
      rw [reportsOf_account r hr]
      exact (Option.some_ne_none k).symm
    apply SipAccount.Keeps.append _ hothers
    change (w.accountsAfter a).1[k]? = some acc at hacc
    obtain hsame | ⟨q, hdropped⟩ | ⟨q, hadded⟩ := w.accountsAfter_cases a
    · rw [hsame] at hacc
      exact h.keeps k acc hacc
    · rw [hdropped] at hacc
      exact h.keeps k acc hacc
    · rw [hadded] at hacc
      obtain hold | ⟨rfl, rfl⟩ := cell_of_concat hacc
      · exact h.keeps k acc hold
      · apply SipAccount.keeps_new
        intro r hr hk
        obtain ⟨acc, hacc, -⟩ := h.named r hr _ hk
        exact absurd (List.getElem?_eq_some_iff.mp hacc).1 (lt_irrefl _)
  named r hr k hk := by
    obtain hold | hnew := List.mem_append.mp hr
    · obtain ⟨acc, hacc, hphone⟩ := h.named r hold k hk
      exact ⟨acc, w.accountsAfter_keeps a hacc, hphone⟩
    · rw [reportsOf_account r hnew] at hk
      cases hk

/-! ## Callbacks -/

/-- The account and the bus are told the same. -/
theorem Enrolled.callback (h : w.Enrolled) {k : AccountId} {acc : SipAccount}
    (hacc : w.accounts[k]? = some acc) {f : SipAccount → SipAccount} {r : Report}
    (hphone : ∀ acc, (f acc).phoneId = acc.phoneId) (hsource : r.account = some k)
    (hname : acc.phoneId = r.phoneId) (hkeeps : (f acc).Keeps (w.reports ++ [r]) k) :
    Enrolled { w with accounts := w.accounts.modify k f, reports := w.reports ++ [r] } := by
  have hchange : ∀ (i : AccountId) (x : SipAccount), w.accounts[i]? = some x →
      ∃ y, (w.accounts.modify k f)[i]? = some y ∧ y.phoneId = x.phoneId := by
    intro i x hx
    rw [List.getElem?_modify, hx]
    refine ⟨_, rfl, ?_⟩
    dsimp only
    split_ifs
    · exact hphone x
    · rfl
  refine ⟨h.keys, fun p i hi => ?_, fun i y hy => ?_, fun r' hr' i hi => ?_⟩
  · obtain ⟨x, hx, hp⟩ := h.account p i hi
    obtain ⟨y, hy, hsame⟩ := hchange i x hx
    exact ⟨y, hy, hsame.trans hp⟩
  · dsimp only at hy
    rw [List.getElem?_modify] at hy
    by_cases hik : k = i
    · subst hik
      rw [hacc] at hy
      simp only [Option.map_eq_map, Option.map_some, if_true, Option.some.injEq] at hy
      rw [← hy]
      exact hkeeps
    · have hold : w.accounts[i]? = some y := by simpa [hik] using hy
      apply (h.keeps i y hold).append
      intro r' hr' hi
      rw [List.mem_singleton.mp hr', hsource] at hi
      exact hik (Option.some.inj hi)
  · obtain hold | hnew := List.mem_append.mp hr'
    · obtain ⟨x, hx, hp⟩ := h.named r' hold i hi
      obtain ⟨y, hy, hsame⟩ := hchange i x hx
      exact ⟨y, hy, hsame.trans hp⟩
    · rw [List.mem_singleton.mp hnew] at hi ⊢
      cases hsource.symm.trans hi
      obtain ⟨y, hy, hsame⟩ := hchange k acc hacc
      exact ⟨y, hy, hsame.trans hname⟩

/-- A callback about a registration is kept by the account that it comes from. -/
theorem Enrolled.onRegState (h : w.Enrolled) {k : AccountId} (en : k < w.accounts.length)
    (info : RegInfo) : (w.step (.onRegState k info)).Enrolled := by
  have hacc := List.getElem?_eq_getElem en
  have hkeeps := h.keeps k _ hacc
  rw [step, hacc]
  apply h.callback (f := fun acc => acc.onRegState info) hacc (fun _ => rfl) rfl rfl
  constructor
  · rw [regStatesOf_append]
    simp [SipAccount.onRegState, regStatesOf]
  · rw [messagesOf_append]
    simpa [SipAccount.onRegState, messagesOf] using hkeeps.messages

/-- A message is kept by the account that it comes to. -/
theorem Enrolled.onInstantMessage (h : w.Enrolled) {k : AccountId} (en : k < w.accounts.length)
    (msg : Message) : (w.step (.onInstantMessage k msg)).Enrolled := by
  have hacc := List.getElem?_eq_getElem en
  have hkeeps := h.keeps k _ hacc
  rw [step, hacc]
  apply h.callback (f := fun acc => acc.onInstantMessage msg) hacc (fun _ => rfl) rfl rfl
  constructor
  · rw [regStatesOf_append]
    simpa [SipAccount.onInstantMessage, regStatesOf] using hkeeps.regInfo
  · rw [messagesOf_append, SipAccount.onInstantMessage, BoundedDeque.items_append,
      hkeeps.messages, rtake_rtake_append]
    simp [messagesOf]

/-- What is reported of a call concerns no account. -/
theorem Enrolled.onDtmfDigit (h : w.Enrolled) (o : ObjId) (digit : String) :
    (w.step (.onDtmfDigit o digit)).Enrolled := by
  have hsource : ∀ r ∈ (w.sys.objs[o]?.map fun call =>
      Report.dtmfIn o call.toCallIdentity digit).toList, r.account = none := by
    intro r hr
    obtain ⟨call, -, rfl⟩ := Option.map_eq_some_iff.mp (Option.mem_toList.mp hr)
    rfl
  refine ⟨h.keys, h.account, fun k acc hacc => ?_, fun r hr k hk => ?_⟩
  · apply (h.keeps k acc hacc).append
    intro r hr
    rw [hsource r hr]
    exact (Option.some_ne_none k).symm
  · obtain hold | hnew := List.mem_append.mp hr
    · exact h.named r hold k hk
    · rw [hsource r hnew] at hk
      cases hk

theorem step_enrolled (h : w.Enrolled) {a : ObservedAction} (en : w.enabled a = true) :
    (w.step a).Enrolled := by
  cases a with
  | act a => exact h.act en
  | onDtmfDigit o digit => exact h.onDtmfDigit o digit
  | onRegState k info => exact h.onRegState (of_decide_eq_true en) info
  | onInstantMessage k msg => exact h.onInstantMessage (of_decide_eq_true en) msg

theorem enrolled_initial : observed.init.Enrolled where
  keys := rfl
  account p k hk := by cases hk
  keeps k acc hacc := by cases hacc
  named r hr := by cases hr

/-! ## The tools -/

/-- The account of a registered phone is there, under its own id. -/
theorem getAccount_of_registered (h : w.Enrolled) {p : PhoneId} {k : AccountId}
    (hk : w.registered.get? p = some k) :
    ∃ acc, w.getAccount p = some acc ∧ acc.phoneId = p ∧ w.accounts[k]? = some acc := by
  obtain ⟨acc, hacc, hphone⟩ := h.account p k hk
  refine ⟨acc, ?_, hphone, hacc⟩
  rw [getAccount, hk]
  exact hacc

/-- The action gives the phone a new account. -/
def Enrolls (w : Observed) (p : PhoneId) (a : Action) : Prop :=
  ∃ tp, (∃ cfg, a = .addPhone p cfg ⟨some tp, true⟩) ∨
    (p ∈ w.sys.phones.keys ∧ ∃ creds, a = .reregisterPhone p creds ⟨some tp, true⟩)

theorem Enrolls.accountsAfter {p : PhoneId} {a : Action} (h : w.Enrolls p a) :
    w.accountsAfter a =
      (w.accounts ++ [.new p], (w.registered.pop p).set p w.accounts.length) := by
  obtain ⟨tp, ⟨cfg, rfl⟩ | ⟨hp, creds, rfl⟩⟩ := h
  · rfl
  · have hcontains : w.sys.phones.contains p = true :=
      (w.sys.phones.contains_iff p).mpr ((w.sys.phones.mem_keys_iff p).mp hp)
    rw [Observed.accountsAfter, if_pos hcontains]
    rfl

/-- A phone keeps its account when another one is given a new account. -/
theorem getAccount_enrolls (h : w.Enrolled) {p q : PhoneId} (hq : q ≠ p) {a : Action}
    (enrolls : w.Enrolls p a) : (w.step (.act a)).getAccount q = w.getAccount q := by
  have hregistered : (w.accountsAfter a).2.get? q = w.registered.get? q := by
    rw [enrolls.accountsAfter, OrderedDict.get?_set_of_ne _ hq.symm, OrderedDict.get?_pop,
      if_neg hq]
  change ((w.accountsAfter a).2.get? q).bind (fun k => (w.accountsAfter a).1[k]?) = _
  rw [hregistered, getAccount]
  cases hk : w.registered.get? q with
  | none => rfl
  | some k =>
      obtain ⟨acc, hacc, -⟩ := h.account q k hk
      exact (w.accountsAfter_keeps a hacc).trans hacc.symm

/-- A phone that is registered anew starts with a fresh account. -/
theorem getAccount_enrolled {p : PhoneId} {a : Action} (enrolls : w.Enrolls p a) :
    (w.step (.act a)).getAccount p = some (.new p) := by
  change ((w.accountsAfter a).2.get? p).bind (fun k => (w.accountsAfter a).1[k]?) = _
  rw [enrolls.accountsAfter, OrderedDict.get?_set_self, Option.bind_some,
    List.getElem?_concat_length]

end Observed

/-- In every state of every run the registry has accounts for exactly the phones that are
configured. What it tells of a phone is what the account that the phone has now has reported to
the bus: the last registration state, and the last hundred messages. Earlier accounts of the phone
and accounts of other phones have no part in it, and a phone that is added or registers again
starts afresh. -/
theorem accounts_run {w : Observed} (run : observed.Reachable w) :
    w.registered.keys = w.sys.phones.keys ∧
    (∀ p, p ∉ w.sys.phones.keys →
      w.getRegistrationInfo p = .notConfigured ∧ ∀ lastN, w.getMessages p lastN = []) ∧
    (∀ p ∈ w.sys.phones.keys, ∃ k, (∀ q, w.registered.get? q = some k ↔ q = p) ∧
      (∀ r ∈ w.reports, r.account = some k → r.phoneId = p) ∧
      w.getRegistrationInfo p = (regStatesOf w.reports k).getLast?.getD .initial ∧
      ∀ lastN, w.getMessages p lastN = lastOf lastN ((messagesOf w.reports k).rtake 100)) ∧
    ∀ p a w', w.Enrolls p a → w' = w.step (.act a) →
      w'.getRegistrationInfo p = .initial ∧ (∀ lastN, w'.getMessages p lastN = []) ∧
      ∀ q, q ≠ p → w'.getRegistrationInfo q = w.getRegistrationInfo q ∧
        ∀ lastN, w'.getMessages q lastN = w.getMessages q lastN := by
  have h : w.Enrolled := run.invariant Observed.enrolled_initial fun w a en _ h =>
    Observed.step_enrolled h en
  refine ⟨h.keys, fun p hp => ?_, fun p hp => ?_, ?_⟩
  · have hnone : w.getAccount p = none := by
      rw [← h.keys, OrderedDict.mem_keys_iff, not_exists, ← Option.eq_none_iff_forall_ne_some] at hp
      rw [Observed.getAccount, hp]
      rfl
    rw [Observed.getRegistrationInfo, hnone]
    refine ⟨rfl, fun lastN => ?_⟩
    rw [Observed.getMessages, hnone]
  · rw [← h.keys, OrderedDict.mem_keys_iff] at hp
    obtain ⟨k, hk⟩ := hp
    obtain ⟨acc, hget, hphone, hacc⟩ := Observed.getAccount_of_registered h hk
    have hkeeps := h.keeps k acc hacc
    have hsame : ∀ {acc' : SipAccount}, w.accounts[k]? = some acc' → acc' = acc := fun hacc' =>
      Option.some.inj (hacc'.symm.trans hacc)
    refine ⟨k, fun q => ⟨fun hq => ?_, fun hq => hq ▸ hk⟩, fun r hr hsource => ?_, ?_, ?_⟩
    · obtain ⟨acc', hacc', hphone'⟩ := h.account q k hq
      rw [← hphone', hsame hacc', hphone]
    · obtain ⟨acc', hacc', hphone'⟩ := h.named r hr k hsource
      rw [← hphone', hsame hacc', hphone]
    · rw [Observed.getRegistrationInfo, hget]
      exact hkeeps.regInfo
    · intro lastN
      rw [Observed.getMessages, hget]
      exact congrArg (lastOf lastN) hkeeps.messages
  · rintro p a w' enrolls rfl
    have hadded := Observed.getAccount_enrolled enrolls
    refine ⟨by rw [Observed.getRegistrationInfo, hadded]; rfl, fun lastN => ?_, fun q hq => ?_⟩
    · rw [Observed.getMessages, hadded]
      exact lastOf_nil lastN
    · have hkept := Observed.getAccount_enrolls h hq enrolls
      refine ⟨by rw [Observed.getRegistrationInfo, hkept, Observed.getRegistrationInfo],
        fun lastN => ?_⟩
      rw [Observed.getMessages, hkept, Observed.getMessages]

/-- A message from before, then the phone registers afresh, then one to the old account and one
to the new one. -/
def twoAccounts : List ObservedAction :=
  let hello := Message.mk "sip:bob" "sip:alice" "hello" "text/plain" "t"
  [.act (.addPhone "alice" { domain := "d" } ⟨some 1, true⟩),
    .onInstantMessage 0 { hello with timestamp := "t0" },
    .act (.reregisterPhone "alice" ⟨none, none, none⟩ ⟨some 2, true⟩),
    .onInstantMessage 0 { hello with timestamp := "t1" },
    .onRegState 1 ⟨true, 200, "OK", 300⟩,
    .onInstantMessage 1 { hello with timestamp := "t2" }]

theorem accounts_run_twoAccounts :
    (observed.run observed.init twoAccounts).getMessages "alice" none =
      [⟨"sip:bob", "sip:alice", "hello", "text/plain", "t2"⟩] ∧
    ∃ k, (observed.run observed.init twoAccounts).getRegistrationInfo "alice" =
      (regStatesOf (observed.run observed.init twoAccounts).reports k).getLast?.getD .initial := by
  have run : observed.Reachable (observed.run observed.init twoAccounts) :=
    GuardedSystem.Reach.init.run (by decide)
  obtain ⟨k, -, -, hinfo, -⟩ := (accounts_run run).2.2.1 "alice" (by decide)
  exact ⟨by decide, k, hinfo⟩

end PjsuaMcp.Calls
