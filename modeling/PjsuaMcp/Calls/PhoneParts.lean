import PjsuaMcp.Calls.FailedAdd

/-!
# The part of one phone

Registry, call manager and capture manager keep the data of all phones in
common dictionaries and queues. The part of a phone is what these hold for it.
Dropping a phone, or adding it, leaves the parts of the other phones alone.
-/

namespace PjsuaMcp.Calls

open Library

/-- What is kept for one phone. -/
structure PhonePart where
  /-- The account is there when the configuration is. -/
  config : Option PhoneConfig
  /-- The tracked calls, in their order, with their objects. -/
  calls : List (CallId × ObjId × Option SipCall)
  incoming : Option (List CallId)
  autoAnswerPending : Option (List CallId)
  autoAnswering : List (PhoneId × CallId)
  activeCalls : Option Nat
  captureStarts : List (PhoneId × Option CallId)
  captureStops : List PhoneId
  capture : Option PhoneCapture
  sipCallIds : List (String × OwnerInfo)
  history : List HistoryEntry
  deriving DecidableEq

namespace Sys

/-- The part of the phone `p`. -/
def part (s : Sys) (p : PhoneId) : PhonePart where
  config := s.phones.get? p
  calls := (s.calls.entries.filter fun e => s.callPhone.get? e.1 = some p).map fun e =>
    (e.1, e.2, s.objs[e.2]?)
  incoming := s.incomingQueue.get? p
  autoAnswerPending := s.autoAnswerPending.get? p
  autoAnswering := s.autoAnswering.filter fun e => e.1 = p
  activeCalls := s.activeCallsByPhone.get? p
  captureStarts := s.autoCapturePendingStart.filter fun e => e.1 = p
  captureStops := s.autoCapturePendingStop.filter fun q => q = p
  capture := s.phoneProcesses.get? p
  sipCallIds := s.sipCallIdIndex.entries.filter fun e => e.2.phoneId = p
  history := s.callHistory.filter fun e => e.phoneId = p

variable {p q : PhoneId}

/-- The calls that are untracked with a phone are not those of another one. -/
theorem untrack_callsOf_other (s : Sys) (h : q ≠ p) :
    ((s.untrack (s.idsOf p)).calls.entries.filter fun e =>
        (s.untrack (s.idsOf p)).callPhone.get? e.1 = some q) =
      s.calls.entries.filter fun e => s.callPhone.get? e.1 = some q := by
  unfold untrack
  rw [OrderedDict.entries_filterKeys, List.filter_filter]
  apply List.filter_congr
  intro e _
  by_cases howner : s.callPhone.get? e.1 = some q
  · have hkept : e.1 ∉ s.idsOf p := by
      intro hc
      rw [mem_idsOf_iff, howner] at hc
      exact h (Option.some.inj hc)
    simp [howner, hkept]
  · by_cases hc : e.1 ∈ s.idsOf p
    · simp [howner, hc]
    · simp [howner, hc]

theorem part_dropPhone_of_ne (s : Sys) (h : q ≠ p) : (s.dropPhone p).part q = s.part q := by
  cases hp : s.phones.get? p with
  | none => rw [dropPhone_of_unknown hp]
  | some cfg =>
      have hcalls := untrack_callsOf_other s h
      have hstops : ((s.autoCapturePendingStop ++ if s.isPhoneCapturing p then [p] else []).filter
          fun r => r = q) = s.autoCapturePendingStop.filter fun r => r = q := by
        split_ifs
        · simp [List.filter_append, Ne.symm h]
        · rw [List.append_nil]
      obtain ⟨_, hdrop⟩ := dropPhone_eq hp
      rw [hdrop]
      unfold part
      simp only [hstops, OrderedDict.get?_pop, if_neg h]
      exact congrArg (fun calls => { s.part q with calls := calls })
        (congrArg (List.map fun e => (e.1, e.2, s.objs[e.2]?)) hcalls)

theorem part_createPhone_of_ne (s : Sys) (h : q ≠ p) (cfg : PhoneConfig) (out : AddOutcome) :
    (s.createPhone p cfg out).part q = s.part q := by
  unfold createPhone
  cases out.transport with
  | none => rfl
  | some tp =>
      cases out.accountCreated with
      | false => rfl
      | true =>
          simp only [if_true, onPhoneAdded, part, OrderedDict.get?_setdefault,
            OrderedDict.get?_set, if_neg (Ne.symm h)]

/-- Adding a phone leaves the parts of the others alone. -/
theorem part_addPhone_of_ne (s : Sys) (h : q ≠ p) (cfg : PhoneConfig) (out : AddOutcome) :
    (s.addPhone p cfg out).part q = s.part q := by
  rw [addPhone, part_createPhone_of_ne _ h, part_dropPhone_of_ne s h]

/-- No command is sent to a call. -/
theorem commands_addPhone (s : Sys) (cfg : PhoneConfig) (out : AddOutcome) :
    (s.addPhone p cfg out).commands = s.commands := by
  obtain ⟨_, _, _, _, hcreate⟩ := (s.dropPhone p).createPhone_eq p cfg out
  rw [addPhone, hcreate]
  cases hp : s.phones.get? p with
  | none => rw [dropPhone_of_unknown hp]
  | some old =>
      obtain ⟨_, hdrop⟩ := dropPhone_eq hp
      rw [hdrop]
      rfl

/-- The only transport that is closed is the one of the phone that was there before. -/
theorem mem_transports_addPhone {s : Sys} {t : Int} (ht : t ∈ s.transports)
    (hother : ∀ cfg, s.phones.get? p = some cfg → cfg.transportId ≠ some t) (cfg : PhoneConfig)
    (out : AddOutcome) : t ∈ (s.addPhone p cfg out).transports := by
  have hdropped : t ∈ (s.dropPhone p).transports := by
    cases hp : s.phones.get? p with
    | none => rwa [dropPhone_of_unknown hp]
    | some old =>
        rw [dropPhone_transports hp, List.mem_filter]
        exact ⟨ht, decide_eq_true (Ne.symm (hother old hp))⟩
  unfold addPhone createPhone
  cases out.transport with
  | none => exact hdropped
  | some tp =>
      cases out.accountCreated with
      | false => exact List.mem_append_left _ hdropped
      | true => exact List.mem_append_left _ hdropped

/-- A phone that is added has the given configuration and the new transport. -/
theorem config_addPhone (s : Sys) (cfg : PhoneConfig) {out : AddOutcome} {tp : Int}
    (htransport : out.transport = some tp) (hcreated : out.accountCreated = true) :
    (s.addPhone p cfg out).phones.get? p = some { cfg with transportId := some tp } := by
  simp [addPhone, createPhone, htransport, hcreated, onPhoneAdded]

end Sys

end PjsuaMcp.Calls
