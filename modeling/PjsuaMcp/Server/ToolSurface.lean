import PjsuaMcp.Server.AtomicLoad
import PjsuaMcp.Calls.FailedAdd
import Mathlib.Order.BooleanAlgebra.Set

/-!
# The tools follow the phones

Adding and dropping a phone changes the registry and the tools together. A
fresh registration cycle changes the registry alone: it drops the phone and adds
it again underneath the tools. When it fails, the phone is gone and its tools
stay behind, where `drop_phone` does not reach them any more.
-/

namespace PjsuaMcp.Server

open Sdp (Text)
open Library
open Calls (PhoneId AddOutcome PhoneConfig Sys)

/-- `list_phone_ids`, without the order. -/
def phoneIds (s : Sys) : Set PhoneId := {p | p ∈ s.phones.keys}

/-- The tools are those of the given phones. -/
structure Surface {T : ToolTable} (phones : Set PhoneId) (st : State T) : Prop where
  keys : ∀ p, p ∈ st.phoneTools.keys ↔ p ∈ phones
  names : ∀ p names, st.phoneTools.get? p = some names → names = toolNames p
  offered : ∀ name, name ∈ st.mcpTools ↔ name ∈ staticTools ∨ ∃ p ∈ phones, name ∈ toolNames p

/-- Tools and registry agree. -/
abbrev Agrees {T : ToolTable} (st : State T) : Prop := Surface (phoneIds st.sys) st

/-! ## The tools of one phone -/

@[simp] theorem map_fst_staticBindings : staticBindings.map Prod.fst = staticTools := by
  rw [staticBindings, List.map_map]
  exact List.map_id _

@[simp] theorem map_fst_phoneBindings (p : PhoneId) :
    (phoneBindings p).map Prod.fst = toolNames p := by
  rw [phoneBindings, List.map_map]
  rfl

namespace Surface

variable {T : ToolTable} {phones : Set PhoneId} {st : State T} {p : PhoneId}

/-- What is offered depends on the tools alone. -/
theorem congr {phones' : Set PhoneId} {st' : State T} (h : Surface phones st)
    (hphones : phones' = phones) (htools : st'.phoneTools = st.phoneTools)
    (hmcp : st'.tools = st.tools) : Surface phones' st' := by
  subst hphones
  constructor
  · rw [htools]
    exact h.keys
  · rw [htools]
    exact h.names
  · rw [State.mcpTools, hmcp]
    exact h.offered

/-- The names that are removed with a phone. -/
theorem known_names (h : Surface phones st) (hp : p ∈ phones) :
    (st.phoneTools.get? p).getD [] = toolNames p := by
  obtain ⟨names, hnames⟩ := (st.phoneTools.mem_keys_iff p).mp ((h.keys p).mpr hp)
  rw [hnames]
  exact h.names p names hnames

theorem unknown_names (h : Surface phones st) (hp : p ∉ phones) :
    (st.phoneTools.get? p).getD [] = [] := by
  have hnone : st.phoneTools.get? p = none :=
    (st.phoneTools.get?_eq_none_iff p).mpr fun hkey => hp ((h.keys p).mp hkey)
  rw [hnone]
  rfl

/-- The tools of a phone go with it. -/
theorem unregister (h : Surface phones st) (p : PhoneId) :
    Surface (phones \ {p}) (st.unregisterTools p) := by
  constructor
  · intro q
    change q ∈ (st.phoneTools.pop p).keys ↔ _
    rw [OrderedDict.pop, OrderedDict.keys_filterKeys, List.mem_filter, h.keys q,
      decide_eq_true_eq, Set.mem_sdiff, Set.mem_singleton_iff]
  · intro q names hq
    change (st.phoneTools.pop p).get? q = some names at hq
    rw [OrderedDict.get?_pop] at hq
    split_ifs at hq with hqp
    exact h.names q names hq
  · intro name
    change name ∈ T.listed (T.removeAll st.tools _) ↔ _
    rw [FunctionTable.mem_listed_removeAll, ← State.mcpTools, h.offered]
    by_cases hp : p ∈ phones
    · rw [h.known_names hp]
      constructor
      · rintro ⟨hstatic | ⟨q, hq, hname⟩, hremoved⟩
        · exact .inl hstatic
        · refine .inr ⟨q, ⟨hq, ?_⟩, hname⟩
          rintro rfl
          exact hremoved hname
      · rintro (hstatic | ⟨q, ⟨hq, hqp⟩, hname⟩)
        · exact ⟨.inl hstatic, notMem_toolNames_of_static hstatic⟩
        · exact ⟨.inr ⟨q, hq, hname⟩, fun hp => hqp (toolNames_disjoint hname hp)⟩
    · rw [h.unknown_names hp, Set.sdiff_singleton_eq_self hp]
      simp

/-- The tools of a phone come with it. -/
theorem register (h : Surface phones st) (p : PhoneId) :
    Surface (insert p phones) (st.registerTools p) := by
  constructor
  · intro q
    change q ∈ (st.phoneTools.set p (toolNames p)).keys ↔ _
    rw [OrderedDict.mem_keys_iff, OrderedDict.get?_set, Set.mem_insert_iff, ← h.keys q,
      OrderedDict.mem_keys_iff]
    by_cases hqp : p = q
    · simp [hqp]
    · simp [hqp, Ne.symm hqp]
  · intro q names hq
    change (st.phoneTools.set p (toolNames p)).get? q = some names at hq
    rw [OrderedDict.get?_set] at hq
    split_ifs at hq with hqp
    · rw [← hqp]
      exact (Option.some.inj hq).symm
    · exact h.names q names hq
  · intro name
    change name ∈ T.listed (T.addAll st.tools _) ↔ _
    rw [FunctionTable.mem_listed_addAll, map_fst_phoneBindings, ← State.mcpTools, h.offered,
      or_assoc, Set.exists_mem_insert]
    apply or_congr Iff.rfl
    exact or_comm

end Surface

/-! ## The registry under the operations of the server -/

/-- The name of the transport of a registered phone. -/
def transportOf (s : Sys) (p : PhoneId) : Option String :=
  (s.phones.get? p).map PhoneConfig.transport

theorem mem_phoneIds_iff (s : Sys) (p : PhoneId) :
    p ∈ phoneIds s ↔ (transportOf s p).isSome = true := by
  rw [transportOf, Option.isSome_map]
  exact (s.phones.mem_keys_iff p).trans Option.isSome_iff_exists.symm

/-- Phones with the same transports are the same phones. -/
theorem phoneIds_congr {s s' : Sys} (h : transportOf s' = transportOf s) :
    phoneIds s' = phoneIds s := by
  ext p
  rw [mem_phoneIds_iff, mem_phoneIds_iff, h]

theorem transportOf_set {s s' : Sys} {p : PhoneId} {cfg cfg' : PhoneConfig}
    (hp : s.phones.get? p = some cfg) (hphones : s'.phones = s.phones.set p cfg')
    (h : cfg'.transport = cfg.transport) : transportOf s' = transportOf s := by
  funext q
  rw [transportOf, transportOf, hphones, OrderedDict.get?_set]
  split_ifs with hq
  · rw [← hq, hp, Option.map_some, Option.map_some, h]
  · rfl

/-- Settings leave the transport of a phone alone. -/
theorem transportOf_setAutoAnswer (s : Sys) (p : PhoneId) (enabled : Bool) :
    transportOf (s.setAutoAnswer p enabled) = transportOf s := by
  unfold Calls.Sys.setAutoAnswer
  cases hp : s.phones.get? p with
  | none => rfl
  | some cfg => exact transportOf_set hp rfl rfl

theorem transportOf_setCodecsForPhone (s : Sys) (p : PhoneId) (codecs : List String) :
    transportOf (s.setCodecsForPhone p codecs) = transportOf s := by
  unfold Calls.Sys.setCodecsForPhone
  cases hp : s.phones.get? p with
  | none => rfl
  | some cfg =>
      dsimp only
      obtain ⟨_, hsend, -⟩ := Calls.Sys.sendAll_eq _ _
      rw [hsend]
      exact transportOf_set hp rfl rfl

theorem transportOf_setRecordingEnabled (s : Sys) (p : PhoneId) (enabled : Bool)
    (recorders : Calls.ObjId → Calls.RecorderEnv) (sidecars : Calls.ObjId → Calls.SidecarEnv) :
    transportOf (s.setRecordingEnabled p enabled recorders sidecars) = transportOf s := by
  unfold Calls.Sys.setRecordingEnabled
  cases hp : s.phones.get? p with
  | none => rfl
  | some cfg => exact transportOf_set hp rfl rfl

theorem transportOf_setCaptureEnabled (s : Sys) (p : PhoneId) (enabled : Bool) :
    transportOf (s.setCaptureEnabled p enabled) = transportOf s := by
  unfold Calls.Sys.setCaptureEnabled
  cases hp : s.phones.get? p with
  | none => rfl
  | some cfg =>
      dsimp only
      split_ifs
      · exact transportOf_set hp rfl rfl
      · exact transportOf_set hp rfl rfl
      · rw [Calls.Sys.queueStopIfCapturing_eq]
        exact transportOf_set hp rfl rfl

/-- The instantaneous changes of `update_phone` keep the phones and their transports. -/
theorem transportOf_applyUpdate (s : Sys) (p : PhoneId) (upd : PhoneUpdate) :
    transportOf (State.applyUpdate s p upd) = transportOf s := by
  unfold State.applyUpdate
  cases upd.autoAnswer <;> cases upd.codecs <;> cases upd.recordingEnabled <;>
    cases upd.captureEnabled <;>
    simp only [transportOf_setAutoAnswer, transportOf_setCodecsForPhone,
      transportOf_setRecordingEnabled, transportOf_setCaptureEnabled]

theorem phoneIds_callOp (s : Sys) (op : Sys.CallOp) : phoneIds (s.callOp op) = phoneIds s := by
  obtain ⟨_, _, h, -⟩ := s.callOp_eq op
  rw [h]
  rfl

theorem phoneIds_dropPhone (s : Sys) (p : PhoneId) :
    phoneIds (s.dropPhone p) = phoneIds s \ {p} := by
  ext q
  rw [phoneIds, Set.mem_ofPred_eq, Calls.Sys.dropPhone_phones, OrderedDict.pop,
    OrderedDict.keys_filterKeys, List.mem_filter, decide_eq_true_eq]
  rfl

/-- A phone is there after it was added if and only if nothing was raised. -/
theorem phoneIds_addPhone (s : Sys) (p : PhoneId) (cfg : PhoneConfig) (out : AddOutcome) :
    phoneIds (s.addPhone p cfg out) =
      if registered out = .ok () then insert p (phoneIds s \ {p}) else phoneIds s \ {p} := by
  rw [← phoneIds_dropPhone, Calls.Sys.addPhone]
  unfold registered Calls.Sys.createPhone
  cases out.transport with
  | none => rfl
  | some tp =>
      cases out.accountCreated with
      | false => rfl
      | true =>
          ext q
          change q ∈ ((s.dropPhone p).phones.set p _).keys ↔ _
          rw [OrderedDict.mem_keys_iff, OrderedDict.get?_set]
          by_cases hqp : p = q
          · simp [hqp]
          · simp [hqp, Ne.symm hqp, phoneIds, OrderedDict.mem_keys_iff]

/-! ## What the operations do to the registry -/

section Registry

variable {T : ToolTable} (lower : Text → Text) {st : State T}

/-- What `_add_phone_impl` has checked when it returns. -/
theorem addPhoneImpl_ok {phoneId transport : Yaml} {cfg : PhoneConfig} {out : AddOutcome}
    {p : PhoneId} (h : (st.addPhoneImpl lower phoneId transport cfg out).1 = .ok p) :
    validatePhoneId phoneId = .ok p ∧ registered (checkedOutcome lower transport out) = .ok () := by
  unfold State.addPhoneImpl at h
  cases hid : validatePhoneId phoneId with
  | error e =>
      rw [hid] at h
      cases h
  | ok q =>
      rw [hid] at h
      dsimp only at h
      cases hadded : registered (checkedOutcome lower transport out) with
      | error e =>
          rw [hadded] at h
          cases h
      | ok =>
          rw [hadded] at h
          exact ⟨h, rfl⟩

/-- A valid id reaches the registry, an invalid one nothing at all. -/
theorem sys_addPhoneImpl {phoneId : Yaml} {p : PhoneId} (h : validatePhoneId phoneId = .ok p)
    (transport : Yaml) (cfg : PhoneConfig) (out : AddOutcome) :
    (st.addPhoneImpl lower phoneId transport cfg out).2.sys =
      st.sys.addPhone p cfg (checkedOutcome lower transport out) := by
  unfold State.addPhoneImpl
  rw [h]
  dsimp only
  cases registered (checkedOutcome lower transport out) <;> split_ifs <;> rfl

theorem addPhoneImpl_of_invalid {phoneId : Yaml} {e : AddError}
    (h : validatePhoneId phoneId = .error e) (transport : Yaml) (cfg : PhoneConfig)
    (out : AddOutcome) : (st.addPhoneImpl lower phoneId transport cfg out).2 = st := by
  unfold State.addPhoneImpl
  rw [h]

end Registry

/-! ## What a load preserves -/

section Loops

variable {T : ToolTable} (lower : Text → Text) (str : Yaml → String) {P : State T → Prop}
  {st : State T}

/-- What dropping a phone preserves holds after the loop over the phones to tear down. -/
theorem tearDown_preserves
    (hhangup : ∀ st, P st → P { st with sys := st.sys.callOp (.hangupAll none) })
    (hdrop : ∀ st p, P st → P (st.dropPhoneImpl p true).2) (h : P st) (ids : List PhoneId) :
    P (st.tearDown ids) := by
  have hloop : ∀ st, P st → P (st.dropPhones ids) := by
    induction ids with
    | nil => exact fun _ h => h
    | cons p rest ih => exact fun st h => ih _ (hdrop st p h)
  unfold State.tearDown
  split_ifs
  · exact h
  · exact hloop _ (hhangup st h)

/-- What every entry preserves holds after the loop over them. -/
theorem addSpecs_preserves {specs : List Mapping}
    (hstep : ∀ spec ∈ specs, ∀ st out, P st → P (st.addSpec lower str spec out).2) (h : P st)
    (outs : Nat → AddOutcome) (i : Nat) : P (State.addSpecs lower str outs i st specs).state := by
  induction specs generalizing i st with
  | nil => exact h
  | cons spec rest ih =>
      have hrest := fun spec' hspec' => hstep spec' (List.mem_cons_of_mem _ hspec')
      have hfirst := hstep spec List.mem_cons_self st (outs i) h
      rw [State.addSpecs]
      cases (st.addSpec lower str spec (outs i)).1 with
      | ok p => exact ih hrest hfirst (i + 1)
      | error e => exact ih hrest hfirst (i + 1)

/-- Together, for a profile that is accepted or not. -/
theorem loadPhones_preserves
    (hhangup : ∀ st, P st → P { st with sys := st.sys.callOp (.hangupAll none) })
    (hdrop : ∀ st p, P st → P (st.dropPhoneImpl p true).2)
    (hadd : ∀ st spec out, P st → P (st.addSpec lower str spec out).2) (h : P st)
    (file : ProfileFile) (merge : Bool) (outs : Nat → AddOutcome) :
    P (st.loadPhones lower str file merge outs).2 := by
  unfold State.loadPhones
  cases loadProfileYaml file with
  | error e => exact h
  | ok specs =>
      exact addSpecs_preserves lower str (fun spec _ st out => hadd st spec out)
        (tearDown_preserves hhangup hdrop h _) outs 0

end Loops

/-! ## The operations of the server -/

variable {T : ToolTable} (lower : Text → Text) (str : Yaml → String)

theorem agrees_initial : Agrees (State.initial T) := by
  constructor
  · intro p
    rfl
  · intro p names h
    cases h
  · intro name
    change name ∈ T.listed (T.addAll T.empty _) ↔ _
    rw [FunctionTable.mem_listed_addAll, map_fst_staticBindings, T.listed_empty]
    simp [State.initial, phoneIds, Sys.initial, OrderedDict.keys]

/-- The tools of a phone go, also when it had none. -/
theorem surface_withoutTools {st : State T} (h : Agrees st) (p : PhoneId) :
    Surface (phoneIds st.sys \ {p})
      (if st.phoneTools.contains p then st.unregisterTools p else st) := by
  split_ifs with hp
  · exact h.unregister p
  · have hunknown : p ∉ phoneIds st.sys := by
      rw [← h.keys p, OrderedDict.mem_keys_iff, ← OrderedDict.contains_iff]
      exact hp
    rw [Set.sdiff_singleton_eq_self hunknown]
    exact h

/-- A phone that is registered and has its tools. -/
theorem agrees_addPhoneImpl {st : State T} (h : Agrees st) (phoneId transport : Yaml)
    (cfg : PhoneConfig) (out : AddOutcome) :
    Agrees (st.addPhoneImpl lower phoneId transport cfg out).2 := by
  unfold State.addPhoneImpl
  cases validatePhoneId phoneId with
  | error e => exact h
  | ok p =>
      dsimp only
      have hgone := surface_withoutTools h p
      generalize hst : (if st.phoneTools.contains p then st.unregisterTools p else st) = st'
      have hsys : st'.sys = st.sys := by
        rw [← hst]
        split_ifs <;> rfl
      rw [hst] at hgone
      cases hadded : registered (checkedOutcome lower transport out) with
      | error e =>
          refine hgone.congr ?_ rfl rfl
          rw [hsys, phoneIds_addPhone, hadded, if_neg (by intro hok; cases hok)]
      | ok =>
          refine (hgone.register p).congr ?_ rfl rfl
          change phoneIds (st'.sys.addPhone p cfg _) = _
          rw [hsys, phoneIds_addPhone, hadded, if_pos rfl]

theorem agrees_hangup {st : State T} (h : Agrees st) (op : Sys.CallOp) :
    Agrees { st with sys := st.sys.callOp op } :=
  h.congr (phoneIds_callOp st.sys op) rfl rfl

theorem agrees_dropPhoneImpl {st : State T} (h : Agrees st) (p : PhoneId) (hangupCalls : Bool) :
    Agrees (st.dropPhoneImpl p hangupCalls).2 := by
  have hdrop : ∀ {st : State T}, Agrees st →
      Agrees { st.unregisterTools p with sys := st.sys.dropPhone p } := by
    intro st h
    exact (h.unregister p).congr (phoneIds_dropPhone st.sys p) rfl rfl
  unfold State.dropPhoneImpl
  split_ifs
  · exact hdrop (agrees_hangup h _)
  · exact hdrop h
  · exact h

theorem agrees_loadPhones {st : State T} (h : Agrees st) (file : ProfileFile) (merge : Bool)
    (outs : Nat → AddOutcome) : Agrees (st.loadPhones lower str file merge outs).2 :=
  loadPhones_preserves lower str (P := fun st => Agrees st) (fun _ h => agrees_hangup h _)
    (fun _ p h => agrees_dropPhoneImpl h p true)
    (fun _ _ _ h => agrees_addPhoneImpl lower h _ _ _ _) h file merge outs

/-! ## A fresh registration cycle -/

/-- The phone can register again: its transport has a name that is accepted, the transport opens
and the account is created. -/
def Renews (st : State T) (p : PhoneId) (out : AddOutcome) : Prop :=
  ∀ name, transportOf st.sys p = some name →
    acceptsTransport lower (.str name.toList) = true ∧ out.transport.isSome = true ∧
      out.accountCreated = true

theorem registered_checkedOutcome_iff (transport : Yaml) (out : AddOutcome) :
    registered (checkedOutcome lower transport out) = .ok () ↔
      acceptsTransport lower transport = true ∧ out.transport.isSome = true ∧
        out.accountCreated = true := by
  obtain ⟨tp, created⟩ := out
  unfold registered checkedOutcome
  cases acceptsTransport lower transport <;> cases tp <;> cases created <;> simp

/-- The phone that registers again keeps its tools, so it has to come back. -/
theorem agrees_reregisterPhone_iff {st : State T} (h : Agrees st) (p : PhoneId)
    (creds : Calls.Credentials) (out : AddOutcome) :
    Agrees (st.reregisterPhone lower p creds out).2 ↔ Renews lower st p out := by
  unfold State.reregisterPhone Renews transportOf
  cases hp : st.sys.phones.get? p with
  | none =>
      constructor
      · intro _ name hname
        cases hname
      · intro _
        exact h
  | some cfg =>
      have hmem : p ∈ phoneIds st.sys := (st.sys.phones.mem_keys_iff p).mpr ⟨cfg, hp⟩
      have hids := phoneIds_addPhone st.sys p (cfg.withCredentials creds)
        (checkedOutcome lower (.str cfg.transport.toList) out)
      simp only [Option.map_some, Option.some.injEq, forall_eq', Calls.Sys.reregisterPhone, hp]
      rw [← registered_checkedOutcome_iff]
      constructor
      · intro hagrees
        by_contra hfailed
        rw [if_neg hfailed] at hids
        have hkey := (hagrees.keys p).mp ((h.keys p).mpr hmem)
        rw [hids] at hkey
        exact hkey.2 rfl
      · intro hok
        rw [if_pos hok, Set.insert_sdiff_singleton, Set.insert_eq_of_mem hmem] at hids
        exact h.congr hids rfl rfl

/-- An update that renews a registration must succeed. -/
theorem agrees_updatePhone_iff {st : State T} (h : Agrees st) (p : PhoneId) (upd : PhoneUpdate)
    (out : AddOutcome) :
    Agrees (st.updatePhone lower p upd out).2 ↔
      (Credentials.given upd.credentials = true → Renews lower st p out) := by
  have htransport := transportOf_applyUpdate st.sys p upd
  have hupdated : Agrees { st with sys := State.applyUpdate st.sys p upd } :=
    h.congr (phoneIds_congr htransport) rfl rfl
  unfold State.updatePhone
  by_cases hp : st.sys.phones.contains p = true
  · rw [if_pos hp]
    by_cases hgiven : Credentials.given upd.credentials = true
    · simp only [if_pos hgiven]
      rw [agrees_reregisterPhone_iff lower hupdated, Renews, Renews, htransport]
      simp [hgiven]
    · simp only [if_neg hgiven]
      simp [hgiven, hupdated]
  · rw [if_neg hp]
    constructor
    · intro _ _ name hname
      have hknown : p ∈ phoneIds st.sys := by
        rw [mem_phoneIds_iff, hname]
        rfl
      rw [phoneIds, Set.mem_ofPred_eq, OrderedDict.mem_keys_iff, ← OrderedDict.contains_iff]
        at hknown
      exact (hp hknown).elim
    · intro _
      exact h

/-- When the call registers a phone again, this succeeds. -/
def RenewalSucceeds (st : State T) : ToolCall → Prop
  | .updatePhone p upd out => Credentials.given upd.credentials = true → Renews lower st p out
  | .register p out => Renews lower st p out
  | _ => True

/-- What one tool call does to the agreement. -/
theorem agrees_step_iff {st : State T} (h : Agrees st) (call : ToolCall) :
    Agrees (st.step lower str call) ↔ RenewalSucceeds lower st call := by
  cases call with
  | addPhone p cfg out => exact iff_of_true (agrees_addPhoneImpl lower h _ _ cfg out) trivial
  | dropPhone p hangupCalls => exact iff_of_true (agrees_dropPhoneImpl h p hangupCalls) trivial
  | updatePhone p upd out => exact agrees_updatePhone_iff lower h p upd out
  | loadPhones file merge outs =>
      exact iff_of_true (agrees_loadPhones lower str h file merge outs) trivial
  | register p out => exact agrees_reregisterPhone_iff lower h p _ out
  | unregister p => exact iff_of_true h trivial

theorem agrees_of_reach {st : State T}
    (run : (toolServer T lower str).Reach (RenewalSucceeds lower) st) : Agrees st :=
  run.invariant agrees_initial fun _ call _ hok h => (agrees_step_iff lower str h call).mpr hok

/-- As long as every phone that registers again comes back, the tools are those of the registered
phones after every tool call; the first call after which a phone does not come back breaks it. -/
theorem surface_agrees {st : State T}
    (run : (toolServer T lower str).Reach (RenewalSucceeds lower) st) :
    Agrees st ∧ ∀ call, Agrees (st.step lower str call) ↔ RenewalSucceeds lower st call :=
  ⟨agrees_of_reach lower str run, agrees_step_iff lower str (agrees_of_reach lower str run)⟩

/-- A phone that is added and registers again. -/
theorem surface_agrees_renewed :
    Agrees (bobServer.step (List.map Char.toLower) (fun _ => "")
      (.register "bob" ⟨some 2, true⟩)) := by
  have hrenews : RenewalSucceeds (List.map Char.toLower) bobServer
      (.register "bob" ⟨some 2, true⟩) := by
    intro name hname
    obtain rfl : "udp" = name := Option.some.inj hname
    exact ⟨by decide, rfl, rfl⟩
  have hlegal : (toolServer (.dictionary Text Tool) (List.map Char.toLower) fun _ => "").Legal
      (RenewalSucceeds (List.map Char.toLower)) (State.initial _)
      [.addPhone "bob" { domain := "d" } ⟨some 1, true⟩, .register "bob" ⟨some 2, true⟩] :=
    ⟨trivial, trivial, trivial, hrenews, trivial⟩
  exact (surface_agrees _ _ (GuardedSystem.Reach.init.run hlegal)).1

/-- The transport of the new registration cannot be opened: the phone is gone, its tools are not,
and `drop_phone` leaves them where they are. -/
theorem failedRenewal_orphans :
    let lower := List.map Char.toLower
    let st := bobServer.step lower (fun _ => "") (.register "bob" ⟨none, true⟩)
    ¬ Agrees st ∧ st.sys.phones.keys = [] ∧ st.phoneTools.keys = ["bob"] ∧
      toolName "bob" "make_call".toList ∈ st.mcpTools ∧
      (st.step lower (fun _ => "") (.dropPhone "bob" true)).mcpTools = st.mcpTools := by
  refine ⟨?_, by decide, by decide, by decide +kernel, by decide +kernel⟩
  intro h
  have hbob := (h.keys "bob").mp (by decide)
  revert hbob
  change "bob" ∉ OrderedDict.keys _
  decide

end PjsuaMcp.Server
