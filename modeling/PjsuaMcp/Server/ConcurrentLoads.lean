import PjsuaMcp.Server.ToolSurface

/-!
# Two loads at the same time

`load_phones` in replace mode gives the event loop back after it has hung up
the calls, and again after it has added the phones. The phones to drop are
listed before the first of these awaits and dropped after it. A second call
that comes in between lists the same phones, and does not know those that the
first one is going to add.

## Implementation notes

A turn is the stretch of one call from one await to the next. The reading of
the file and the answers of the library belong to the call.
-/

namespace PjsuaMcp.Server

open Sdp (Text)
open Library
open Calls (PhoneId AddOutcome)

/-- The phones of the entries, without the order. -/
def profileIds (specs : List Mapping) : List PhoneId :=
  specs.filterMap fun spec => match specId spec with
    | .str id => some (String.ofList id)
    | _ => none

theorem profileIds_cons (spec : Mapping) (rest : List Mapping) :
    profileIds (spec :: rest) = profileIds [spec] ++ profileIds rest :=
  List.filterMap_append (l := [spec])

/-- A call of `load_phones` in replace mode: the file that it reads, and what the library answers
to the creation of transports and accounts. -/
structure LoadCall where
  file : ProfileFile
  outs : Nat → AddOutcome

/-- The full roster that the call stands for. -/
def LoadCall.roster (call : LoadCall) : Set PhoneId :=
  {p | ∃ specs, loadProfileYaml call.file = .ok specs ∧ p ∈ profileIds specs}

theorem LoadCall.roster_eq {call : LoadCall} {specs : List Mapping}
    (h : loadProfileYaml call.file = .ok specs) : call.roster = {p | p ∈ profileIds specs} := by
  ext p
  simp [roster, h]

/-- The await that a call of `load_phones` is at. -/
inductive LoadStage
  | called
  /-- `sleep(0.3)`, with the entries and the phones that are to be dropped. -/
  | hungUp (specs : List Mapping) (existing : List PhoneId)
  /-- `sleep(1.5)`. -/
  | added (report : LoadReport)
  /-- `_notify_tools_changed()`. -/
  | notifying (report : LoadReport)
  | returned (report : LoadReport)

namespace LoadStage

/-- What a call reports that has added its phones or was refused. -/
def report? : LoadStage → Option LoadReport
  | .added report => some report
  | .notifying report => some report
  | .returned report => some report
  | _ => none

end LoadStage

namespace LoadCall

variable {T : ToolTable} (lower : Text → Text) (str : Yaml → String)

/-- The loop over the entries, up to the await behind it. -/
def addAll (call : LoadCall) (st : State T) (specs : List Mapping) (dropped : List PhoneId) :
    LoadStage × State T :=
  let result := State.addSpecs lower str call.outs 0 st specs
  (.added
    { status := if result.errors.isEmpty then .ok else .partly
      dropped := dropped
      added := result.added
      errors := result.errors },
    result.state)

/-- One turn of the call. -/
def resume (call : LoadCall) (st : State T) : LoadStage → LoadStage × State T
  | .called =>
      match loadProfileYaml call.file with
      | .error e => (.returned { status := .error, rejected := some e }, st)
      | .ok specs =>
          let existing := st.sys.phones.keys
          if existing.isEmpty then call.addAll lower str st specs []
          else (.hungUp specs existing, { st with sys := st.sys.callOp (.hangupAll none) })
  | .hungUp specs existing => call.addAll lower str (st.dropPhones existing) specs existing
  | .added report => (.notifying report, st)
  | .notifying report => (.returned report, st)
  | .returned report => (.returned report, st)

/-- Turns without another call in between. -/
def resumeN (call : LoadCall) : Nat → LoadStage × State T → LoadStage × State T
  | 0, r => r
  | n + 1, r => resumeN call n (call.resume lower str r.2 r.1)

/-- Four turns in a row are the call that nothing comes between. -/
theorem uninterrupted_eq (call : LoadCall) (st : State T) :
    call.resumeN lower str 4 (.called, st) =
      (.returned (st.loadPhones lower str call.file false call.outs).1,
        (st.loadPhones lower str call.file false call.outs).2) := by
  unfold State.loadPhones
  cases hload : loadProfileYaml call.file with
  | error e => simp [resumeN, resume, hload]
  | ok specs =>
      by_cases hempty : st.sys.phones.keys.isEmpty = true
      · have hnil := List.isEmpty_iff.mp hempty
        simp [resumeN, resume, hload, addAll, hnil, State.tearDown]
      · simp [resumeN, resume, hload, addAll, hempty, State.tearDown]

end LoadCall

/-- The two calls. -/
inductive Caller
  | first
  | second
  deriving DecidableEq, Repr

def Caller.other : Caller → Caller
  | .first => .second
  | .second => .first

theorem Caller.other_ne (c : Caller) : c.other ≠ c := by cases c <;> decide

theorem Caller.eq_or_other (c d : Caller) : d = c ∨ d = c.other := by
  cases c <;> cases d <;> simp [Caller.other]

/-- The stages of the two calls, and the server. -/
structure Loads (T : ToolTable) where
  stage : Caller → LoadStage
  state : State T

namespace Loads

variable {T : ToolTable} (lower : Text → Text) (str : Yaml → String) (calls : Caller → LoadCall)

/-- Neither of the calls has had a turn. -/
def start (st : State T) : Loads T := ⟨fun _ => .called, st⟩

/-- The turn of the call `c`. -/
def turn (w : Loads T) (c : Caller) : Loads T :=
  let r := (calls c).resume lower str w.state (w.stage c)
  ⟨Function.update w.stage c r.1, r.2⟩

def run (w : Loads T) (turns : List Caller) : Loads T := turns.foldl (turn lower str calls) w

/-- Both calls have returned, and every drop and every add has succeeded. -/
def Completed (w : Loads T) : Prop :=
  ∀ c, ∃ report, w.stage c = .returned report ∧ report.status = .ok

/-- The phones that are registered. -/
def phones (w : Loads T) : Set PhoneId := phoneIds w.state.sys

end Loads

/-! ## The phones after a loop -/

section Phones

variable {T : ToolTable} (lower : Text → Text) (str : Yaml → String)

theorem phoneIds_dropPhoneImpl (st : State T) (p : PhoneId) :
    phoneIds (st.dropPhoneImpl p true).2.sys = phoneIds st.sys \ {p} := by
  unfold State.dropPhoneImpl
  by_cases hp : st.sys.phones.contains p = true
  · rw [if_pos hp]
    change phoneIds ((st.sys.callOp (.hangupAll (some p))).dropPhone p) = _
    rw [phoneIds_dropPhone, phoneIds_callOp]
  · rw [if_neg hp]
    have hunknown : p ∉ phoneIds st.sys := by
      rwa [phoneIds, Set.mem_ofPred_eq, OrderedDict.mem_keys_iff, ← OrderedDict.contains_iff]
    exact (Set.sdiff_singleton_eq_self hunknown).symm

/-- Dropping some phones leaves the others. -/
theorem phoneIds_dropPhones (st : State T) (ids : List PhoneId) :
    phoneIds (st.dropPhones ids).sys = phoneIds st.sys \ {p | p ∈ ids} := by
  induction ids generalizing st with
  | nil => simp [State.dropPhones]
  | cons p rest ih =>
      calc phoneIds ((st.dropPhoneImpl p true).2.dropPhones rest).sys
        _ = (phoneIds st.sys \ {p}) \ {q | q ∈ rest} := by rw [ih, phoneIds_dropPhoneImpl]
        _ = phoneIds st.sys \ {q | q ∈ p :: rest} := by
            ext q
            simp [and_assoc]

theorem specId_of_validated {spec : Mapping} {p : PhoneId}
    (h : validatePhoneId (specId spec) = .ok p) :
    ∃ id, specId spec = .str id ∧ String.ofList id = p := by
  unfold validatePhoneId at h
  split at h
  · rename_i id hid
    split_ifs at h
    exact ⟨id, hid, Except.ok.inj h⟩
  · cases h

/-- An entry that is added without an error puts its phone into the registry. -/
theorem phoneIds_addSpec {st : State T} {spec : Mapping} {out : AddOutcome} {p : PhoneId}
    (h : (st.addSpec lower str spec out).1 = .ok p) :
    profileIds [spec] = [p] ∧
      phoneIds (st.addSpec lower str spec out).2.sys = insert p (phoneIds st.sys) := by
  obtain ⟨hid, hadded⟩ := addPhoneImpl_ok lower h
  obtain ⟨id, hspec, rfl⟩ := specId_of_validated hid
  refine ⟨by simp [profileIds, hspec], ?_⟩
  rw [State.addSpec, sys_addPhoneImpl lower hid, phoneIds_addPhone, if_pos hadded,
    Set.insert_sdiff_singleton]

/-- Without an error, all phones of the profile are added to those that are there. -/
theorem phoneIds_addSpecs {outs : Nat → AddOutcome} {i : Nat} {st : State T} {specs : List Mapping}
    (h : (State.addSpecs lower str outs i st specs).errors = []) :
    phoneIds (State.addSpecs lower str outs i st specs).state.sys =
      phoneIds st.sys ∪ {p | p ∈ profileIds specs} := by
  induction specs generalizing i st with
  | nil => simp [State.addSpecs, profileIds]
  | cons spec rest ih =>
      rw [State.addSpecs] at h ⊢
      cases hspec : (st.addSpec lower str spec (outs i)).1 with
      | error e =>
          rw [hspec] at h
          cases h
      | ok p =>
          rw [hspec] at h
          obtain ⟨hids, hphones⟩ := phoneIds_addSpec lower str hspec
          refine (ih h).trans ?_
          rw [hphones, profileIds_cons, hids]
          ext q
          simp [or_assoc, or_left_comm]

end Phones

/-! ## Turns -/

namespace LoadCall

variable {T : ToolTable} (lower : Text → Text) (str : Yaml → String)

/-- A call that reports success has dropped the phones it knew and added those of its profile. -/
theorem phoneIds_addAll {call : LoadCall} {specs : List Mapping}
    (hload : loadProfileYaml call.file = .ok specs) (st : State T) (dropped : List PhoneId)
    (hok : ∀ report ∈ (call.addAll lower str st specs dropped).1.report?, report.status = .ok) :
    phoneIds (call.addAll lower str st specs dropped).2.sys = phoneIds st.sys ∪ call.roster := by
  have herrors : (State.addSpecs lower str call.outs 0 st specs).errors = [] := by
    have hstatus := hok _ rfl
    dsimp only at hstatus
    split_ifs at hstatus with hempty
    exact List.isEmpty_iff.mp hempty
  rw [roster_eq hload]
  exact phoneIds_addSpecs lower str herrors

/-- From its report on, a call changes nothing. -/
theorem resume_of_report {stage : LoadStage} {report : LoadReport} (h : stage.report? = some report)
    (call : LoadCall) (st : State T) :
    (call.resume lower str st stage).1.report? = some report ∧
      (call.resume lower str st stage).2 = st := by
  cases stage with
  | called => cases h
  | hungUp specs existing => cases h
  | added r => exact ⟨h, rfl⟩
  | notifying r => exact ⟨h, rfl⟩
  | returned r => exact ⟨h, rfl⟩

end LoadCall

namespace Loads

variable {T : ToolTable} (lower : Text → Text) (str : Yaml → String) (calls : Caller → LoadCall)

@[simp] theorem stage_turn_self (w : Loads T) (c : Caller) :
    (w.turn lower str calls c).stage c =
      ((calls c).resume lower str w.state (w.stage c)).1 :=
  Function.update_self ..

@[simp] theorem stage_turn_of_ne {c d : Caller} (h : d ≠ c) (w : Loads T) :
    (w.turn lower str calls c).stage d = w.stage d :=
  Function.update_of_ne h ..

theorem run_cons (w : Loads T) (c : Caller) (turns : List Caller) :
    w.run lower str calls (c :: turns) = (w.turn lower str calls c).run lower str calls turns :=
  rfl

/-- A report is kept to the end of the run. -/
theorem report_run {w : Loads T} {c : Caller} {report : LoadReport}
    (h : (w.stage c).report? = some report) (turns : List Caller) :
    ((w.run lower str calls turns).stage c).report? = some report := by
  induction turns generalizing w with
  | nil => exact h
  | cons d turns ih =>
      refine ih ?_
      by_cases hcd : c = d
      · rw [← hcd, stage_turn_self]
        exact (LoadCall.resume_of_report lower str h (calls c) w.state).1
      · rwa [stage_turn_of_ne lower str calls hcd]

theorem Completed.status_ok {w : Loads T} (h : w.Completed) {c : Caller} {report : LoadReport}
    (hreport : (w.stage c).report? = some report) : report.status = .ok := by
  obtain ⟨r, hr, hok⟩ := h c
  rw [hr] at hreport
  cases hreport
  exact hok

/-- A turn of a call that has its report. -/
theorem phones_turn_of_report {w : Loads T} {c : Caller} {report : LoadReport}
    (h : (w.stage c).report? = some report) :
    (w.turn lower str calls c).phones = w.phones := by
  have hstate := (LoadCall.resume_of_report lower str h (calls c) w.state).2
  exact congrArg (fun st : State T => phoneIds st.sys) hstate

/-- It leaves the other call where it is. -/
theorem turn_of_reported {w : Loads T} {c : Caller} (hc : ((w.stage c).report?).isSome = true) :
    (((w.turn lower str calls c).stage c).report?).isSome = true ∧
      (w.turn lower str calls c).stage c.other = w.stage c.other ∧
      (w.turn lower str calls c).phones = w.phones := by
  obtain ⟨report, hreport⟩ := Option.isSome_iff_exists.mp hc
  refine ⟨?_, stage_turn_of_ne lower str calls c.other_ne w,
    phones_turn_of_report lower str calls hreport⟩
  rw [stage_turn_self, (LoadCall.resume_of_report lower str hreport (calls c) w.state).1]
  rfl

/-- When both calls have their reports the phones stay as they are. -/
theorem phones_run_reported {w : Loads T} (h : ∀ c, ((w.stage c).report?).isSome = true)
    (turns : List Caller) : (w.run lower str calls turns).phones = w.phones := by
  induction turns generalizing w with
  | nil => rfl
  | cons d turns ih =>
      obtain ⟨hreported, hstage, hsame⟩ := turn_of_reported lower str calls (h d)
      rw [run_cons, ih, hsame]
      intro c
      rcases d.eq_or_other c with rfl | rfl
      · exact hreported
      · rw [hstage]
        exact h d.other

/-- A call that adds its phones has its report, and so may count on the success of the run. -/
theorem addAll_of_completed {w : Loads T} {c : Caller} {turns : List Caller} {specs : List Mapping}
    {st : State T} {dropped : List PhoneId} (hload : loadProfileYaml (calls c).file = .ok specs)
    (hturn : (calls c).resume lower str w.state (w.stage c) =
      (calls c).addAll lower str st specs dropped)
    (hdone : (w.run lower str calls (c :: turns)).Completed) :
    (((w.turn lower str calls c).stage c).report?).isSome = true ∧
      (w.turn lower str calls c).phones = phoneIds st.sys ∪ (calls c).roster := by
  have hstage := stage_turn_self lower str calls w c
  rw [hturn] at hstage
  constructor
  · rw [hstage]
    rfl
  · change phoneIds ((calls c).resume lower str w.state (w.stage c)).2.sys = _
    rw [hturn]
    refine LoadCall.phoneIds_addAll lower str hload st dropped fun report hreport => ?_
    rw [← hstage] at hreport
    exact hdone.status_ok (report_run lower str calls hreport turns)

/-- The second turn of a call that had to wait. -/
theorem second_turn {w : Loads T} {c : Caller} {turns : List Caller} {specs : List Mapping}
    {existing : List PhoneId} (hstage : w.stage c = .hungUp specs existing)
    (hload : loadProfileYaml (calls c).file = .ok specs)
    (hdone : (w.run lower str calls (c :: turns)).Completed) :
    (((w.turn lower str calls c).stage c).report?).isSome = true ∧
      (w.turn lower str calls c).phones = w.phones \ {p | p ∈ existing} ∪ (calls c).roster := by
  have hturn : (calls c).resume lower str w.state (w.stage c) =
      (calls c).addAll lower str (w.state.dropPhones existing) specs existing := by
    rw [hstage]
    rfl
  obtain ⟨hreported, hphones⟩ := addAll_of_completed lower str calls hload hturn hdone
  rw [phoneIds_dropPhones] at hphones
  exact ⟨hreported, hphones⟩

/-- One call has its report, the other one still has to drop the phones that it listed. -/
theorem phones_run_waiting {w : Loads T} {c : Caller} {turns : List Caller} {specs : List Mapping}
    {existing : List PhoneId} (hc : ((w.stage c).report?).isSome = true)
    (hother : w.stage c.other = .hungUp specs existing)
    (hload : loadProfileYaml (calls c.other).file = .ok specs)
    (hdone : (w.run lower str calls turns).Completed) :
    (w.run lower str calls turns).phones =
      (w.phones \ {p | p ∈ existing}) ∪ (calls c.other).roster := by
  induction turns generalizing w with
  | nil =>
      obtain ⟨report, hreport, -⟩ := hdone c.other
      rw [run, List.foldl_nil, hother] at hreport
      cases hreport
  | cons d turns ih =>
      rcases c.eq_or_other d with rfl | rfl
      · obtain ⟨hreported, hstage, hsame⟩ := turn_of_reported lower str calls hc
        rw [run_cons, ← hsame]
        exact ih hreported (hstage.trans hother) hdone
      · obtain ⟨hreported, hphones⟩ := second_turn lower str calls hother hload hdone
        rw [run_cons, phones_run_reported lower str calls, hphones]
        intro e
        rcases c.eq_or_other e with rfl | rfl
        · rwa [stage_turn_of_ne lower str calls e.other_ne.symm]
        · exact hreported

/-- The first turn of a call: it adds its phones at once where there is none, and else waits. -/
theorem first_turn {w : Loads T} {c : Caller} {turns : List Caller} (hcalled : w.stage c = .called)
    (hdone : (w.run lower str calls (c :: turns)).Completed) :
    (w.phones = ∅ ∧ (((w.turn lower str calls c).stage c).report?).isSome = true ∧
      (w.turn lower str calls c).phones = (calls c).roster) ∨
    ∃ specs, loadProfileYaml (calls c).file = .ok specs ∧ w.phones ≠ ∅ ∧
      (w.turn lower str calls c).stage c = .hungUp specs w.state.sys.phones.keys ∧
      (w.turn lower str calls c).phones = w.phones := by
  cases hload : loadProfileYaml (calls c).file with
  | error e =>
      have hrefused : ((w.turn lower str calls c).stage c).report? =
          some { status := .error, rejected := some e } := by
        rw [stage_turn_self, hcalled, LoadCall.resume, hload]
        rfl
      have hstatus := hdone.status_ok (report_run lower str calls hrefused turns)
      cases hstatus
  | ok specs =>
      by_cases hempty : w.state.sys.phones.keys.isEmpty = true
      · have hnone : w.phones = ∅ := by
          ext p
          simp [phones, phoneIds, List.isEmpty_iff.mp hempty]
        have hturn : (calls c).resume lower str w.state (w.stage c) =
            (calls c).addAll lower str w.state specs [] := by
          rw [hcalled, LoadCall.resume, hload]
          exact if_pos hempty
        obtain ⟨hreported, hphones⟩ := addAll_of_completed lower str calls hload hturn hdone
        refine .inl ⟨hnone, hreported, hphones.trans ?_⟩
        change w.phones ∪ _ = _
        rw [hnone, Set.empty_union]
      · have hturn : (calls c).resume lower str w.state (w.stage c) =
            (.hungUp specs w.state.sys.phones.keys,
              { w.state with sys := w.state.sys.callOp (.hangupAll none) }) := by
          rw [hcalled, LoadCall.resume, hload]
          exact if_neg hempty
        refine .inr ⟨specs, rfl, fun hnone => hempty ?_, ?_, ?_⟩
        · rw [List.isEmpty_iff, List.eq_nil_iff_forall_not_mem]
          exact fun p hp => Set.eq_empty_iff_forall_notMem.mp hnone p hp
        · rw [stage_turn_self, hturn]
        · change phoneIds ((calls c).resume lower str w.state (w.stage c)).2.sys = _
          rw [hturn]
          exact phoneIds_callOp _ _

/-- One call has its report before the other one begins. -/
theorem phones_run_alone {w : Loads T} {c : Caller} {turns : List Caller}
    (hc : ((w.stage c).report?).isSome = true) (hother : w.stage c.other = .called)
    (hdone : (w.run lower str calls turns).Completed) :
    (w.run lower str calls turns).phones = (calls c.other).roster := by
  induction turns generalizing w with
  | nil =>
      obtain ⟨report, hreport, -⟩ := hdone c.other
      rw [run, List.foldl_nil, hother] at hreport
      cases hreport
  | cons d turns ih =>
      rcases c.eq_or_other d with rfl | rfl
      · obtain ⟨hreported, hstage, -⟩ := turn_of_reported lower str calls hc
        exact ih hreported (hstage.trans hother) hdone
      · have hc' : (((w.turn lower str calls c.other).stage c).report?).isSome = true := by
          rwa [stage_turn_of_ne lower str calls c.other_ne.symm]
        rcases first_turn lower str calls hother hdone with
          ⟨-, hreported, hphones⟩ | ⟨specs, hload, -, hstage, hphones⟩
        · rw [run_cons, phones_run_reported lower str calls, hphones]
          intro e
          rcases c.eq_or_other e with rfl | rfl
          · exact hc'
          · exact hreported
        · rw [run_cons, phones_run_waiting lower str calls hc' hstage hload hdone, hphones]
          change (w.phones \ w.phones) ∪ _ = _
          rw [Set.sdiff_self, Set.empty_union]

/-! ## Two calls -/

/-- Both calls have had a turn before either has had two; the one that goes on first. -/
def overlap : List Caller → Option Caller
  | a :: b :: c :: _ => if a = b then none else some c
  | _ => none

/-- There are no phones at the start, or the calls do not overlap. Or one of the profiles comes out
all the same: of the phones of the call that goes on first, those that are new are in the other
profile too; or the other profile is part of its own, and those that were known are in both. -/
def Disentangled (existing : Set PhoneId) (turns : List Caller) : Prop :=
  existing = ∅ ∨ ∀ c ∈ overlap turns,
    (calls c).roster \ existing ⊆ (calls c.other).roster ∨
      (calls c.other).roster ⊆ (calls c).roster ∧
        (calls c).roster ∩ existing ⊆ (calls c.other).roster

theorem mixture_eq_iff {α : Type*} {known mine theirs : Set α} :
    (mine \ known ∪ theirs = mine ∨ mine \ known ∪ theirs = theirs) ↔
      mine \ known ⊆ theirs ∨ theirs ⊆ mine ∧ mine ∩ known ⊆ theirs := by
  have hmine : mine \ known ∪ theirs = mine ↔ theirs ⊆ mine ∧ mine ∩ known ⊆ theirs := by
    constructor
    · intro h
      refine ⟨Set.subset_union_right.trans h.le, fun p hp => ?_⟩
      have hin : p ∈ mine \ known ∪ theirs := h.symm.subset hp.1
      exact hin.resolve_left fun hleft => hleft.2 hp.2
    · rintro ⟨hsub, hgone⟩
      refine subset_antisymm (Set.union_subset Set.sdiff_subset hsub) fun p hp => ?_
      by_cases hknown : p ∈ known
      · exact .inr (hgone ⟨hp, hknown⟩)
      · exact .inl ⟨hp, hknown⟩
  rw [Set.union_eq_right, hmine, or_comm]

/-- Both calls have listed the phones that are there, and have yet to drop them. -/
theorem phones_run_overlapping {w : Loads T} {c : Caller} {turns : List Caller}
    (hboth : ∀ d, ∃ specs existing, loadProfileYaml (calls d).file = .ok specs ∧
      w.stage d = .hungUp specs existing ∧ {p | p ∈ existing} = w.phones)
    (hdone : (w.run lower str calls (c :: turns)).Completed) :
    (w.run lower str calls (c :: turns)).phones =
      (calls c).roster \ w.phones ∪ (calls c.other).roster := by
  obtain ⟨specs, existing, hload, hstage, hlisted⟩ := hboth c
  obtain ⟨specs', existing', hload', hstage', hlisted'⟩ := hboth c.other
  obtain ⟨hreported, hphones⟩ := second_turn lower str calls hstage hload hdone
  have hother : (w.turn lower str calls c).stage c.other = .hungUp specs' existing' := by
    rwa [stage_turn_of_ne lower str calls c.other_ne]
  rw [run_cons, phones_run_waiting lower str calls hreported hother hload' hdone, hphones, hlisted,
    hlisted', Set.sdiff_self, Set.empty_union]

/-- What is registered in the end. -/
theorem phones_run_start {st : State T} {turns : List Caller}
    (hdone : ((start st).run lower str calls turns).Completed) :
    (∃ c, ((start st).run lower str calls turns).phones = (calls c).roster ∧
        (phoneIds st.sys = ∅ ∨ overlap turns = none)) ∨
      ∃ c, phoneIds st.sys ≠ ∅ ∧ overlap turns = some c ∧
        ((start st).run lower str calls turns).phones =
          (calls c).roster \ phoneIds st.sys ∪ (calls c.other).roster := by
  have hfresh : ∀ c, (start st).stage c = .called := fun _ => rfl
  cases turns with
  | nil =>
      obtain ⟨report, hreport, -⟩ := hdone .first
      cases hreport
  | cons a turns =>
      rcases first_turn lower str calls (hfresh a) hdone with
        ⟨hnone, hreported, -⟩ | ⟨specs, hload, hsome, hstage, hphones⟩
      · -- Nothing to drop: the first call is through before the other one begins.
        refine .inl ⟨a.other, ?_, .inl hnone⟩
        rw [run_cons]
        refine phones_run_alone lower str calls hreported ?_ hdone
        exact stage_turn_of_ne lower str calls a.other_ne _
      · obtain ⟨w, hw⟩ : ∃ w, w = (start st).turn lower str calls a := ⟨_, rfl⟩
        have hother : w.stage a.other = .called := by
          rw [hw]
          exact stage_turn_of_ne lower str calls a.other_ne _
        rw [← hw] at hstage hphones
        rw [run_cons, ← hw] at hdone ⊢
        cases turns with
        | nil =>
            obtain ⟨report, hreport, -⟩ := hdone a
            rw [run, List.foldl_nil, hstage] at hreport
            cases hreport
        | cons b turns =>
            rcases a.eq_or_other b with rfl | rfl
            · -- The first call goes on and is through before the other one begins.
              have hnone : overlap (b :: b :: turns) = none := by
                cases turns with
                | nil => rfl
                | cons c turns => exact if_pos rfl
              obtain ⟨hreported, -⟩ := second_turn lower str calls hstage hload hdone
              refine .inl ⟨b.other, ?_, .inr hnone⟩
              rw [run_cons]
              refine phones_run_alone lower str calls hreported ?_ hdone
              rwa [stage_turn_of_ne lower str calls b.other_ne]
            · -- Both calls have listed the phones that are there from the start.
              rcases first_turn lower str calls hother hdone with
                ⟨hnone, -, -⟩ | ⟨specs', hload', -, hstage', hphones'⟩
              · exact (hsome (hphones.symm.trans hnone)).elim
              · have hboth : ∀ d, ∃ specs existing, loadProfileYaml (calls d).file = .ok specs ∧
                    (w.turn lower str calls a.other).stage d = .hungUp specs existing ∧
                      {p | p ∈ existing} = (w.turn lower str calls a.other).phones := by
                  intro d
                  rw [hphones']
                  rcases a.eq_or_other d with rfl | rfl
                  · refine ⟨specs, _, hload, ?_, hphones.symm⟩
                    rwa [stage_turn_of_ne lower str calls d.other_ne.symm]
                  · exact ⟨specs', _, hload', hstage', rfl⟩
                cases turns with
                | nil =>
                    obtain ⟨report, hreport, -⟩ := hdone a.other
                    rw [run, List.foldl_cons, List.foldl_nil, hstage'] at hreport
                    cases hreport
                | cons c turns =>
                    refine .inr ⟨c, hsome, if_neg a.other_ne.symm, ?_⟩
                    rw [run_cons, phones_run_overlapping lower str calls hboth hdone, hphones',
                      hphones]
                    rfl

/-- When both calls have returned, the registered phones are those of one of the profiles, if and
only if the calls are disentangled. -/
theorem loads_roster_iff {st : State T} {turns : List Caller}
    (hdone : ((start st).run lower str calls turns).Completed) :
    (∃ c, ((start st).run lower str calls turns).phones = (calls c).roster) ↔
      Disentangled calls (phoneIds st.sys) turns := by
  rcases phones_run_start lower str calls hdone with
    ⟨c, hphones, hapart⟩ | ⟨c, hsome, hoverlap, hphones⟩
  · refine iff_of_true ⟨c, hphones⟩ (hapart.imp_right fun hnone => ?_)
    rw [hnone]
    intro d hd
    cases hd
  · have heither : ∀ (P : Caller → Prop), (∃ d, P d) ↔ P c ∨ P c.other := by
      intro P
      constructor
      · rintro ⟨d, hd⟩
        rcases c.eq_or_other d with rfl | rfl
        · exact .inl hd
        · exact .inr hd
      · rintro (h | h)
        · exact ⟨c, h⟩
        · exact ⟨c.other, h⟩
    rw [hphones, heither, mixture_eq_iff, Disentangled, hoverlap, or_iff_right hsome]
    simp

end Loads

/-! ## One profile after the other, and both at once -/

/-- The first call loads a profile with the phone `ann`, the second one with `bea`. -/
def annAndBea : Caller → LoadCall
  | .first => ⟨profileOf [profileEntry "ann" "udp"], fun _ => ⟨some 2, true⟩⟩
  | .second => ⟨profileOf [profileEntry "bea" "udp"], fun _ => ⟨some 3, true⟩⟩

def alternating : List Caller :=
  [.first, .second, .first, .second, .first, .second, .first, .second]

def oneAfterTheOther : List Caller :=
  [.first, .first, .first, .first, .second, .second, .second, .second]

/-- Both calls load a profile with the phone `bob`, the first one with `ann` as well. -/
def bobAndAnn : Caller → LoadCall
  | .first => ⟨profileOf [profileEntry "bob" "udp", profileEntry "ann" "udp"],
      fun i => ⟨some (i + 2), true⟩⟩
  | .second => ⟨profileOf [profileEntry "bob" "udp"], fun _ => ⟨some 4, true⟩⟩

/-- Calls that do not overlap leave one profile, whatever the profiles are; with `bob` in both
profiles the larger one comes out of overlapping calls too. -/
theorem disentangled_roster :
    (∃ c, ((Loads.start bobServer).run (List.map Char.toLower) (fun _ => "") annAndBea
      oneAfterTheOther).phones = (annAndBea c).roster) ∧
    ∃ c, ((Loads.start bobServer).run (List.map Char.toLower) (fun _ => "") bobAndAnn
      alternating).phones = (bobAndAnn c).roster := by
  constructor
  · refine (Loads.loads_roster_iff (List.map Char.toLower) (fun _ => "") annAndBea ?_).mpr
      (.inr ?_)
    · rintro (_ | _) <;> exact ⟨_, rfl, rfl⟩
    · rintro c ⟨⟩
  · refine (Loads.loads_roster_iff (List.map Char.toLower) (fun _ => "") bobAndAnn ?_).mpr
      (.inr ?_)
    · rintro (_ | _) <;> exact ⟨_, rfl, rfl⟩
    · intro c hc
      obtain rfl : Caller.first = c := Option.some.inj hc
      have hfirst : (bobAndAnn .first).roster = {p | p ∈ ["bob", "ann"]} :=
        (LoadCall.roster_eq rfl).trans rfl
      have hsecond : (bobAndAnn .second).roster = {p | p ∈ ["bob"]} :=
        (LoadCall.roster_eq rfl).trans rfl
      have hexisting : phoneIds bobServer.sys = {p | p ∈ ["bob"]} := by
        have hkeys : bobServer.sys.phones.keys = ["bob"] := by decide
        rw [phoneIds, hkeys]
      rw [Caller.other, hfirst, hsecond, hexisting]
      refine .inr ⟨?_, Set.inter_subset_right⟩
      intro p hp
      exact List.mem_cons.mpr (.inl (List.mem_singleton.mp hp))

/-- The phones of both profiles are registered. -/
theorem alternating_mixes :
    let w := (Loads.start bobServer).run (List.map Char.toLower) (fun _ => "") annAndBea alternating
    w.Completed ∧ w.state.sys.phones.keys = ["ann", "bea"] ∧
      ¬ ∃ c, w.phones = (annAndBea c).roster := by
  intro w
  have hkeys : w.state.sys.phones.keys = ["ann", "bea"] := by decide
  have hboth : "ann" ∈ w.phones ∧ "bea" ∈ w.phones := by
    rw [Loads.phones, phoneIds, hkeys]
    exact ⟨by decide, by decide⟩
  refine ⟨?_, hkeys, ?_⟩
  · rintro (_ | _) <;> exact ⟨_, rfl, rfl⟩
  · rintro ⟨_ | _, h⟩
    · have hmem := h ▸ hboth.2
      rw [LoadCall.roster_eq rfl] at hmem
      exact absurd hmem (by decide)
    · have hmem := h ▸ hboth.1
      rw [LoadCall.roster_eq rfl] at hmem
      exact absurd hmem (by decide)

end PjsuaMcp.Server
