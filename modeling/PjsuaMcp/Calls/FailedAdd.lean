import PjsuaMcp.Calls.Lifecycle

/-!
# A phone that could not be added

`add_phone` tears down the phone of the same id before it asks the library for a
transport and an account, and it does not put it back when one of the two is
refused. What a call that raises leaves behind is therefore what `drop_phone`
leaves, up to the transport that the call itself has opened.
-/

namespace PjsuaMcp.Calls

open Library

/-- What `add_phone` and `reregister_phone` raise. -/
inductive AddFailure
  /-- The engine is not initialized. -/
  | engine
  /-- There is no phone to register again. -/
  | notFound
  /-- `create_transport` raised. -/
  | transport
  /-- `SipAccount.create` raised. -/
  | account
  deriving DecidableEq, Repr

/-- The external step of `add_phone` that raises, if one does. -/
def AddOutcome.failure (out : AddOutcome) : Option AddFailure :=
  if out.transport.isNone then some .transport
  else if out.accountCreated then none
  else some .account

namespace Sys

variable (s : Sys) (p : PhoneId) (out : AddOutcome)

/-- `add_phone` with what it raises. -/
def addPhoneRaising (initialized : Bool) (cfg : PhoneConfig) : Option AddFailure × Sys :=
  if initialized then (out.failure, s.addPhone p cfg out) else (some .engine, s)

/-- `reregister_phone` with what it raises. -/
def reregisterPhoneRaising (initialized : Bool) (creds : Credentials) : Option AddFailure × Sys :=
  match s.phones.get? p with
  | none => (some .notFound, s)
  | some cfg => s.addPhoneRaising p out initialized (cfg.withCredentials creds)

/-- The transport of a registered phone. -/
def Owned (t : Int) : Prop := ∃ q cfg, s.phones.get? q = some cfg ∧ cfg.transportId = some t

/-- What a call for the phone `p` that raises `e` leaves of `s`. -/
structure TornDown (e : AddFailure) (s' : Sys) : Prop where
  /-- Nothing has happened yet. -/
  early : e = .engine ∨ e = .notFound → s' = s
  /-- The phone is dropped. -/
  refused : e = .transport → s' = s.dropPhone p
  /-- The phone is dropped, and a transport is open for the new one. -/
  rejected : e = .account → s' = { s.dropPhone p with transports := s'.transports } ∧
    ∀ t, out.transport ≠ some t → (t ∈ s'.transports ↔ t ∈ (s.dropPhone p).transports)
  /-- Where there was no such phone, nothing is dropped. -/
  fresh : s.phones.get? p = none → s' = { s with transports := s'.transports }
  phones : ∀ q, q ≠ p → s'.phones.get? q = s.phones.get? q
  calls : ∀ c, s.callPhone.get? c ≠ some p →
    s'.calls.get? c = s.calls.get? c ∧ s'.callPhone.get? c = s.callPhone.get? c
  owned : (∀ t ∈ s.transports, s.Owned t) → ∀ t ∈ s'.transports, out.transport ≠ some t →
    s'.Owned t

/-- Whenever the call raises, this is what it leaves. -/
def RaisesTornDown (result : Option AddFailure × Sys) : Prop :=
  ∀ e, result.1 = some e → s.TornDown p out e result.2

/-! ## What dropping a phone leaves -/

variable {s p}

/-- Dropping a phone closes its transport. -/
theorem dropPhone_transports {cfg : PhoneConfig} (hp : s.phones.get? p = some cfg) :
    (s.dropPhone p).transports = s.transports.filter fun t => some t ≠ cfg.transportId := by
  simp only [dropPhone, hp, onPhoneDropped, queueStopIfCapturing_eq]
  rfl

theorem dropPhone_phones_of_ne {q : PhoneId} (h : q ≠ p) :
    (s.dropPhone p).phones.get? q = s.phones.get? q := by
  rw [dropPhone_phones, OrderedDict.get?_pop, if_neg h]

/-- The calls of the other phones stay tracked. -/
theorem dropPhone_calls {c : CallId} (h : s.callPhone.get? c ≠ some p) :
    (s.dropPhone p).calls.get? c = s.calls.get? c ∧
      (s.dropPhone p).callPhone.get? c = s.callPhone.get? c := by
  cases hp : s.phones.get? p with
  | none =>
      rw [dropPhone_of_unknown hp]
      exact ⟨rfl, rfl⟩
  | some cfg =>
      obtain ⟨_, hdrop⟩ := dropPhone_eq hp
      have hkept : c ∉ s.idsOf p := fun hc => h ((mem_idsOf_iff s p c).mp hc)
      rw [hdrop]
      constructor
      · simp [untrack, hkept]
      · simp [untrack, hkept]

/-- The transports that stay open belong to the phones that stay registered. -/
theorem dropPhone_owned (howned : ∀ t ∈ s.transports, s.Owned t) :
    ∀ t ∈ (s.dropPhone p).transports, (s.dropPhone p).Owned t := by
  intro t ht
  cases hp : s.phones.get? p with
  | none =>
      rw [dropPhone_of_unknown hp] at ht ⊢
      exact howned t ht
  | some old =>
      rw [dropPhone_transports hp, List.mem_filter, decide_eq_true_eq] at ht
      obtain ⟨q, cfg, hq, htransport⟩ := howned t ht.1
      have hne : q ≠ p := by
        rintro rfl
        rw [hp, Option.some.injEq] at hq
        subst hq
        exact ht.2 htransport.symm
      exact ⟨q, cfg, (dropPhone_phones_of_ne hne).trans hq, htransport⟩

/-! ## The failures one by one -/

variable {out : AddOutcome}

/-- A failure before anything is touched. -/
theorem tornDown_early {e : AddFailure} (h : e = .engine ∨ e = .notFound) :
    s.TornDown p out e s where
  early _ := rfl
  refused he := by rcases h with rfl | rfl <;> cases he
  rejected he := by rcases h with rfl | rfl <;> cases he
  fresh _ := rfl
  phones _ _ := rfl
  calls _ _ := ⟨rfl, rfl⟩
  owned howned t ht _ := howned t ht

/-- The transport is refused, when the phone of that id is gone already. -/
theorem tornDown_refused : s.TornDown p out .transport (s.dropPhone p) where
  early h := by rcases h with h | h <;> cases h
  refused _ := rfl
  rejected h := by cases h
  fresh hp := by rw [dropPhone_of_unknown hp]
  phones _ hq := dropPhone_phones_of_ne hq
  calls _ hc := dropPhone_calls hc
  owned howned t ht _ := dropPhone_owned howned t ht

/-- The account is rejected, when the new transport is open already. -/
theorem tornDown_rejected {tp : Int} (htp : out.transport = some tp) :
    s.TornDown p out .account
      { s.dropPhone p with transports := (s.dropPhone p).transports ++ [tp] } where
  early h := by rcases h with h | h <;> cases h
  refused h := by cases h
  rejected _ := by
    refine ⟨rfl, ?_⟩
    intro t ht
    rw [htp, ne_eq, Option.some.injEq] at ht
    simp [Ne.symm ht]
  fresh hp := by rw [dropPhone_of_unknown hp]
  phones _ hq := dropPhone_phones_of_ne hq
  calls _ hc := dropPhone_calls hc
  owned howned t ht hnew := by
    rcases List.mem_append.mp ht with hold | hopened
    · exact dropPhone_owned howned t hold
    · rw [List.mem_singleton.mp hopened] at hnew
      exact (hnew htp).elim

variable (s p out)

theorem addPhone_raisesTornDown (initialized : Bool) (cfg : PhoneConfig) :
    s.RaisesTornDown p out (s.addPhoneRaising p out initialized cfg) := by
  intro e he
  cases initialized with
  | false =>
      obtain rfl : AddFailure.engine = e := Option.some.inj he
      exact tornDown_early (.inl rfl)
  | true =>
      change out.failure = some e at he
      change s.TornDown p out e ((s.dropPhone p).createPhone p cfg out)
      unfold AddOutcome.failure at he
      unfold createPhone
      cases htp : out.transport with
      | none =>
          rw [htp] at he
          obtain rfl : AddFailure.transport = e := Option.some.inj he
          exact tornDown_refused
      | some tp =>
          rw [htp] at he
          cases hcreated : out.accountCreated with
          | true =>
              rw [hcreated] at he
              cases he
          | false =>
              rw [hcreated] at he
              obtain rfl : AddFailure.account = e := Option.some.inj he
              exact tornDown_rejected htp

/-- A call of `add_phone` or `reregister_phone` that raises has dropped the phone, or has not
begun; apart from the transport that it opened itself nothing else has changed. -/
theorem failedAdd_tornDown (initialized : Bool) (cfg : PhoneConfig) (creds : Credentials) :
    s.RaisesTornDown p out (s.addPhoneRaising p out initialized cfg) ∧
      s.RaisesTornDown p out (s.reregisterPhoneRaising p out initialized creds) := by
  constructor
  · exact s.addPhone_raisesTornDown p out initialized cfg
  · unfold reregisterPhoneRaising
    cases s.phones.get? p with
    | none =>
        intro e he
        obtain rfl : AddFailure.notFound = e := Option.some.inj he
        exact tornDown_early (.inr rfl)
    | some cfg => exact s.addPhone_raisesTornDown p out initialized _

end Sys

/-- A phone with a call, which is added again while no transport can be opened: the phone, the
call and the old transport are gone. -/
theorem failedAdd_drops :
    let s := server.run Sys.initial
      [.addPhone "bob" { domain := "d" } ⟨some 1, true⟩, .incomingCall "bob" 0 none]
    let result := s.addPhoneRaising "bob" ⟨none, true⟩ true { domain := "d" }
    result.1 = some .transport ∧
      s.phones.keys = ["bob"] ∧ s.calls.keys = [0] ∧ s.transports = [1] ∧
      result.2.phones.keys = [] ∧ result.2.calls.keys = [] ∧ result.2.transports = [] := by
  decide

end PjsuaMcp.Calls
