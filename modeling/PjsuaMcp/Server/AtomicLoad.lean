import PjsuaMcp.Server.Phones

/-!
# Loading a profile that cannot be applied

The loader checks the shape of a profile before anything is touched. The phone
id and the transport name of an entry are checked only when the entry is added,
after the phones that are there have been torn down. A profile that the loader
rejects leaves the server as it was; one with an entry that is refused later
does not count as an error at all.
-/

namespace PjsuaMcp.Server

open Sdp (Text)
open Library
open Calls (AddOutcome)

variable {T : ToolTable} (lower : Text → Text) (str : Yaml → String)

/-- The entry passes what `_add_phone_impl` checks before the library is asked. -/
def passesChecks (spec : Mapping) : Bool :=
  (validatePhoneId (specId spec)).isOk && acceptsTransport lower (specTransport spec)

/-- The server can tell from the profile alone that it cannot be applied: the loader rejects it,
or an entry is refused by the checks of `_add_phone_impl`. -/
def StaticError (file : ProfileFile) : Prop :=
  ∀ specs, loadProfileYaml file = .ok specs → ∃ spec ∈ specs, passesChecks lower spec = false

/-- The call reports an error and changes nothing. -/
def Untouched (st : State T) (result : LoadReport × State T) : Prop :=
  result.1.status = .error ∧ result.2 = st

/-- A rejected profile changes nothing. -/
theorem untouched_of_rejected {st : State T} {file : ProfileFile} {e : ProfileError}
    (h : loadProfileYaml file = .error e) (merge : Bool) (outs : Nat → AddOutcome) :
    Untouched st (st.loadPhones lower str file merge outs) := by
  unfold State.loadPhones
  rw [h]
  exact ⟨rfl, rfl⟩

/-- A refused entry is not added. -/
theorem addSpec_refused (st : State T) {spec : Mapping} (h : passesChecks lower spec = false)
    (out : AddOutcome) : ∃ e, (st.addSpec lower str spec out).1 = .error e := by
  unfold State.addSpec State.addPhoneImpl
  cases hid : validatePhoneId (specId spec) with
  | error e => exact ⟨e, rfl⟩
  | ok p =>
      have htransport : acceptsTransport lower (specTransport spec) = false := by
        rw [passesChecks, hid] at h
        exact h
      have hregistered : registered (checkedOutcome lower (specTransport spec) out) =
          .error .transport := by
        simp [registered, checkedOutcome, htransport]
      dsimp only
      rw [hregistered]
      exact ⟨_, rfl⟩

/-- It is reported among the errors. -/
theorem addSpecs_errors_ne_nil {outs : Nat → AddOutcome} {i : Nat} {st : State T}
    {specs : List Mapping} {spec : Mapping} (hspec : spec ∈ specs)
    (h : passesChecks lower spec = false) :
    (State.addSpecs lower str outs i st specs).errors ≠ [] := by
  induction specs generalizing i st with
  | nil => cases hspec
  | cons first rest ih =>
      rw [State.addSpecs]
      rcases List.mem_cons.mp hspec with rfl | hrest
      · obtain ⟨e, he⟩ := addSpec_refused lower str st h (outs i)
        rw [he]
        exact List.cons_ne_nil _ _
      · cases (st.addSpec lower str first (outs i)).1 with
        | ok p => exact ih hrest
        | error e => exact List.cons_ne_nil _ _

/-- A profile that the loader accepts, with a refused entry, is loaded in part. -/
theorem status_partly {st : State T} {file : ProfileFile} {specs : List Mapping}
    (hload : loadProfileYaml file = .ok specs) {spec : Mapping} (hspec : spec ∈ specs)
    (h : passesChecks lower spec = false) (merge : Bool) (outs : Nat → AddOutcome) :
    (st.loadPhones lower str file merge outs).1.status = .partly := by
  unfold State.loadPhones
  rw [hload]
  refine if_neg ?_
  rw [List.isEmpty_iff]
  exact addSpecs_errors_ne_nil lower str hspec h

/-- What the server can tell from the profile alone makes `load_phones` an error without effect,
if and only if every entry of a profile that the loader accepts passes the checks of
`_add_phone_impl`. -/
theorem loadPhones_untouched_iff (st : State T) (file : ProfileFile) (merge : Bool)
    (outs : Nat → AddOutcome) :
    (StaticError lower file → Untouched st (st.loadPhones lower str file merge outs)) ↔
      ∀ specs, loadProfileYaml file = .ok specs → ∀ spec ∈ specs,
        passesChecks lower spec = true := by
  constructor
  · intro hatomic specs hspecs spec hspec
    by_contra hrefused
    rw [Bool.not_eq_true] at hrefused
    have hstatic : StaticError lower file := by
      intro specs' hspecs'
      rw [hspecs, Except.ok.injEq] at hspecs'
      subst hspecs'
      exact ⟨spec, hspec, hrefused⟩
    have hstatus := (hatomic hstatic).1
    rw [status_partly lower str hspecs hspec hrefused] at hstatus
    cases hstatus
  · intro hpass hstatic
    cases hload : loadProfileYaml file with
    | error e => exact untouched_of_rejected lower str hload merge outs
    | ok specs =>
        obtain ⟨spec, hspec, hrefused⟩ := hstatic specs hload
        rw [hpass specs hload spec hspec] at hrefused
        cases hrefused

/-! ## A profile with an invalid entry -/

/-- An entry with the required fields. -/
def profileEntry (phoneId : String) (transport : String) : Yaml :=
  .map [(.str "phone_id".toList, .str phoneId.toList), (.str "domain".toList, .str ['d']),
    (.str "username".toList, .str ['u']), (.str "password".toList, .str ['p']),
    (.str "transport".toList, .str transport.toList)]

def profileOf (entries : List Yaml) : ProfileFile :=
  .document (.map [(.str "phones".toList, .list entries)])

/-- A server with one phone. -/
def bobServer : State (.dictionary Text Tool) :=
  (State.initial _).step (List.map Char.toLower) (fun _ => "")
    (.addPhone "bob" { domain := "d" } ⟨some 1, true⟩)

/-- A phone id with a capital letter, and a transport that does not exist: in replace mode and in
merge mode the phone that was there is gone, and the status is not an error. -/
theorem invalidEntry_destroys :
    StaticError (List.map Char.toLower) (profileOf [profileEntry "Alice!" "udp"]) ∧
    StaticError (List.map Char.toLower) (profileOf [profileEntry "bob" "sctp"]) ∧
    bobServer.sys.phones.keys = ["bob"] ∧
    (bobServer.loadPhones (List.map Char.toLower) (fun _ => "")
        (profileOf [profileEntry "Alice!" "udp"]) false fun _ => ⟨some 2, true⟩).1.status =
      .partly ∧
    (bobServer.loadPhones (List.map Char.toLower) (fun _ => "")
        (profileOf [profileEntry "Alice!" "udp"]) false
        fun _ => ⟨some 2, true⟩).2.sys.phones.keys = [] ∧
    (bobServer.loadPhones (List.map Char.toLower) (fun _ => "")
        (profileOf [profileEntry "bob" "sctp"]) true
        fun _ => ⟨some 2, true⟩).2.sys.phones.keys = [] := by
  have hstatic : ∀ file specs, loadProfileYaml file = .ok specs →
      (specs.any fun spec => !passesChecks (List.map Char.toLower) spec) = true →
      StaticError (List.map Char.toLower) file := by
    intro file specs hload hany specs' hload'
    rw [hload, Except.ok.injEq] at hload'
    subst hload'
    simpa using hany
  refine ⟨hstatic _ _ rfl (by decide), hstatic _ _ rfl (by decide), by decide, by decide,
    by decide, by decide⟩

end PjsuaMcp.Server
