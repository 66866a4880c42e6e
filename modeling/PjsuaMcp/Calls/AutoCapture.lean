import PjsuaMcp.Calls.ActiveCounter
import PjsuaMcp.Library.SwitchQueues

/-!
# Automatic capture keeps up with the calls

The process table, the two pending queues and the drain are a family of
switches driven by two request queues, one switch a phone. A phone's switch is
wanted while the phone is registered with capture enabled and counts an active
call. `Agreed` says that the switches settle exactly where they are wanted, and
`captureOk` names the steps that keep it so; each condition says that the
request made at that step, or missing from it, is right for the queues it finds.
-/

namespace PjsuaMcp.Calls

open Library

namespace Sys

/-- The switch positions and queues of automatic capture, phone by phone. -/
def switches (s : Sys) : SwitchQueues PhoneId where
  on := s.isPhoneCapturing
  starts := s.autoCapturePendingStart.map Prod.fst
  stops := s.autoCapturePendingStop
  phase :=
    match s.drain with
    | .idle => .idle
    | .starting p _ => .starting p
    | .stopping _ => .stopping

/-- The phone is registered with capture enabled. -/
def captureOn (s : Sys) (p : PhoneId) : Bool := (s.phones.get? p).any PhoneConfig.captureEnabled

/-- The phone ought to be captured. -/
def wanted (s : Sys) (p : PhoneId) : Bool := s.captureOn p && 0 < s.activeCount p

theorem wanted_iff (s : Sys) (p : PhoneId) :
    s.wanted p = true ↔ s.captureOn p = true ∧ 0 < s.activeCount p := by
  simp [wanted]

/-- Once the queues are drained, exactly the wanted phones are captured. -/
def Agreed (s : Sys) : Prop := ∀ p, s.switches.Settles p ↔ s.wanted p = true

/-- Stopping the capture of `p`, if it is wanted at all, has its effect. -/
def stopOk (s : Sys) (p : PhoneId) : Bool := !s.wanted p || s.switches.stopHolds p

/-- Which steps keep the captures and the calls agreed. -/
def captureOk (s : Sys) : Action → Bool
  | .mediaState o media => s.objs[o]?.all fun call =>
      !(call.firesFirstActive media && s.captureOn call.phoneId &&
        s.activeCount call.phoneId = 0) || s.switches.startHolds call.phoneId
  | .callState o ci _ _ => s.objs[o]?.all fun call =>
      !(ci.state = .disconnected && s.activeCount call.phoneId = 1) || s.stopOk call.phoneId
  | .setCaptureEnabled p true =>
      !s.phones.contains p || s.activeCount p = 0 ||
        (if s.isPhoneCapturing p then s.switches.Settles p else s.switches.startHolds p)
  | .setCaptureEnabled p false => s.stopOk p
  | .dropPhone p => s.stopOk p
  | .reregisterPhone p _ _ => s.stopOk p
  | .addPhone p cfg out =>
      s.stopOk p && (s.phones.contains p || s.activeCount p = 0 ||
        !(out.transport.isSome && out.accountCreated && cfg.captureEnabled))
  | .cleanup => s.phoneProcesses.entries.isEmpty && !(s.drain matches .starting _ _)
  | _ => true

/-! ## The drain of the model is the drain of the switches -/

/-- Serving the stops of the manager is serving those of the switches. -/
theorem drainStops_switches (s : Sys) (stops : List PhoneId) :
    (s.drainStops stops).switches = s.switches.serveStops stops := by
  induction stops with
  | nil => rfl
  | cons p rest ih =>
      simp only [drainStops, SwitchQueues.serveStops]
      by_cases hp : s.isPhoneCapturing p = true
      · rw [if_pos hp, if_pos (show s.switches.on p = true from hp)]
        simp only [switches, SwitchQueues.mk.injEq, and_true]
        funext q
        by_cases hq : q = p
        · simp [isPhoneCapturing, OrderedDict.contains, hq]
        · simp [isPhoneCapturing, OrderedDict.contains, hq]
      · rw [if_neg hp, if_neg (show ¬ s.switches.on p = true from hp), ih]

/-- Serving the starts of the manager is serving those of the switches. -/
theorem drainStarts_switches (s : Sys) (starts : List (PhoneId × Option CallId)) :
    (s.drainStarts starts).switches = s.switches.serveStarts (starts.map Prod.fst) := by
  induction starts with
  | nil => exact drainStops_switches _ _
  | cons e rest ih =>
      obtain ⟨p, c⟩ := e
      simp only [drainStarts, List.map_cons, SwitchQueues.serveStarts]
      by_cases hp : s.isPhoneCapturing p = true
      · rw [if_pos hp, if_pos (show s.switches.on p = true from hp), ih]
      · rw [if_neg hp, if_neg (show ¬ s.switches.on p = true from hp)]
        rfl

theorem processAutoCaptures_switches (s : Sys) :
    s.processAutoCaptures.switches = s.switches.begin := s.drainStarts_switches _

/-- The second half of a drain starts the captures that wait for their stamp. -/
theorem resumeAutoCaptures_switches (s : Sys) (stamp : String) :
    (s.resumeAutoCaptures stamp).switches = s.switches.resume := by
  unfold resumeAutoCaptures
  split
  · rename_i hdrain
    simp [SwitchQueues.resume, switches, hdrain]
  · rename_i p c hdrain
    dsimp only
    rw [drainStarts_switches, SwitchQueues.resume]
    simp only [switches, hdrain]
    congr 2
    funext q
    simp only [isPhoneCapturing, OrderedDict.contains, OrderedDict.get?_set, Function.update]
    by_cases hq : p = q
    · subst hq
      simp
    · simp [hq, Ne.symm hq]
  · rename_i p hdrain
    rw [drainStops_switches, SwitchQueues.resume]
    simp only [switches, hdrain]

/-- A drain to its end serves both queues of the switches. -/
theorem drainAll_switches (s : Sys) (stamp : String) :
    (s.drainAll stamp).switches = s.switches.drained := by
  unfold drainAll SwitchQueues.drained
  rw [show s.switches.starts.length = s.autoCapturePendingStart.length from List.length_map _]
  change _ = SwitchQueues.resume^[s.autoCapturePendingStart.length +
    s.autoCapturePendingStop.length] s.switches.begin
  generalize s.autoCapturePendingStart.length + s.autoCapturePendingStop.length = n
  induction n with
  | zero => exact s.processAutoCaptures_switches
  | succ n ih =>
      rw [Function.iterate_succ_apply', Function.iterate_succ_apply', resumeAutoCaptures_switches,
        ih]

/-- Draining changes neither the phones nor the counters. -/
theorem drainAll_wanted (s : Sys) (stamp : String) (p : PhoneId) :
    (s.drainAll stamp).wanted p = s.wanted p := by
  unfold drainAll
  generalize s.autoCapturePendingStart.length + s.autoCapturePendingStop.length = n
  induction n with
  | zero =>
      obtain ⟨_, _, _, _, h⟩ := s.drainStarts_eq s.autoCapturePendingStart
      change (s.drainStarts s.autoCapturePendingStart).wanted p = s.wanted p
      rw [h]
      rfl
  | succ n ih =>
      rw [Function.iterate_succ_apply', ← ih]
      obtain ⟨_, _, _, _, h⟩ := resumeAutoCaptures_eq
        ((fun s => s.resumeAutoCaptures stamp)^[n] s.processAutoCaptures) stamp
      rw [h]
      rfl

/-! ## Steps that leave the switches alone -/

/-- Neither a switch nor what is wanted has changed. -/
theorem agreed_congr {s s' : Sys} (hswitches : s'.switches = s.switches)
    (hwanted : ∀ p, s'.wanted p = s.wanted p) (h : s.Agreed) : s'.Agreed := by
  intro p
  rw [hswitches, hwanted]
  exact h p

theorem wanted_congr {s s' : Sys} {p : PhoneId} (hcapture : s'.captureOn p = s.captureOn p)
    (hcount : s'.activeCount p = s.activeCount p) : s'.wanted p = s.wanted p := by
  rw [wanted, wanted, hcapture, hcount]

/-- A step that changes one switch only. -/
theorem agreed_iff_at {s s' : Sys} (p : PhoneId) (h : s.Agreed)
    (hsettles : ∀ q, q ≠ p → (s'.switches.Settles q ↔ s.switches.Settles q))
    (hwanted : ∀ q, q ≠ p → s'.wanted q = s.wanted q) :
    s'.Agreed ↔ (s'.switches.Settles p ↔ s'.wanted p = true) := by
  constructor
  · intro h'
    exact h' p
  · intro hp q
    by_cases hq : q = p
    · rw [hq]
      exact hp
    · rw [hsettles q hq, hwanted q hq]
      exact h q

/-- Overwriting a config without touching its capture flag. -/
theorem wanted_of_set {s s' : Sys} {p : PhoneId} {cfg cfg' : PhoneConfig}
    (hcfg : s.phones.get? p = some cfg) (hphones : s'.phones = s.phones.set p cfg')
    (hcounts : s'.activeCallsByPhone = s.activeCallsByPhone)
    (hflag : cfg'.captureEnabled = cfg.captureEnabled) (q : PhoneId) :
    s'.wanted q = s.wanted q := by
  rw [wanted, wanted, captureOn, captureOn, activeCount, activeCount, hphones, hcounts,
    OrderedDict.get?_set]
  split_ifs with hq
  · rw [← hq, hcfg, Option.any_some, Option.any_some, hflag]
  · rfl

/-- A new call is not audio-active yet. -/
theorem agreed_newCall {s : Sys} {a : Action} (h : s.Agreed)
    (ha : a.creates = true) : (s.step a).Agreed := by
  rcases s.step_newCall a ha with ⟨-, hsame⟩ | ⟨call, queues, pending, index, -, hstep⟩
  · rw [hsame]
    exact h
  · rw [hstep]
    exact agreed_congr rfl (fun _ => rfl) h

theorem setRecordingEnabled_wanted (s : Sys) (p : PhoneId) (enabled : Bool)
    (rec : ObjId → RecorderEnv) (env : ObjId → SidecarEnv) (q : PhoneId) :
    (s.setRecordingEnabled p enabled rec env).wanted q = s.wanted q := by
  unfold setRecordingEnabled
  cases hcfg : s.phones.get? p with
  | none => rfl
  | some cfg => exact wanted_of_set hcfg (by rfl) (by rfl) (by rfl) q

theorem setCodecsForPhone_wanted (s : Sys) (p : PhoneId) (codecs : List String) (q : PhoneId) :
    (s.setCodecsForPhone p codecs).wanted q = s.wanted q := by
  unfold setCodecsForPhone
  cases hcfg : s.phones.get? p with
  | none => rfl
  | some cfg =>
      dsimp only
      obtain ⟨objs, hsend, -⟩ := sendAll_eq _ _
      rw [hsend]
      exact wanted_of_set hcfg (by rfl) (by rfl) (by rfl) q

theorem setAutoAnswer_wanted (s : Sys) (p : PhoneId) (enabled : Bool) (q : PhoneId) :
    (s.setAutoAnswer p enabled).wanted q = s.wanted q := by
  unfold setAutoAnswer
  cases hcfg : s.phones.get? p with
  | none => rfl
  | some cfg => exact wanted_of_set hcfg (by rfl) (by rfl) (by rfl) q

/-! ## Steps that turn one switch -/

/-- A phone that is not registered is not to be captured. -/
theorem not_wanted_of_unregistered {s : Sys} {p : PhoneId} (hp : s.phones.get? p = none) :
    s.wanted p = false := by
  simp [wanted, captureOn, hp]

/-- Changing what is wanted of one phone without any request. -/
theorem agreed_of_sameSwitches {s s' : Sys} {p : PhoneId} {b : Bool} (h : s.Agreed)
    (hswitches : s'.switches = s.switches) (hself : s'.wanted p = b)
    (hwanted : ∀ q, q ≠ p → s'.wanted q = s.wanted q) :
    s'.Agreed ↔ (s.switches.Settles p ↔ b = true) := by
  rw [agreed_iff_at p h (fun q _ => by rw [hswitches]) hwanted, hswitches, hself]

/-- Asking for a stop of a phone that is no longer wanted. -/
theorem agreed_of_requestStop {s s' : Sys} {p : PhoneId} (h : s.Agreed)
    (hswitches : s'.switches = s.switches.requestStop p) (hoff : s'.wanted p = false)
    (hwanted : ∀ q, q ≠ p → s'.wanted q = s.wanted q) : s'.Agreed ↔ s.stopOk p = true := by
  rw [agreed_iff_at p h (fun q hq => by rw [hswitches, SwitchQueues.settles_requestStop_of_ne _ hq])
    hwanted, hswitches, SwitchQueues.settles_requestStop_self, hoff, h p, stopOk]
  cases s.wanted p <;> simp

/-- Asking for a start of a phone that is wanted now. -/
theorem agreed_of_requestStart {s s' : Sys} {p : PhoneId} (h : s.Agreed)
    (hswitches : s'.switches = s.switches.requestStart p) (hon : s'.wanted p = true)
    (hwanted : ∀ q, q ≠ p → s'.wanted q = s.wanted q) :
    s'.Agreed ↔ s.switches.startHolds p := by
  rw [agreed_iff_at p h
    (fun q hq => by rw [hswitches, SwitchQueues.settles_requestStart_of_ne _ hq]) hwanted,
    hswitches, SwitchQueues.settles_requestStart_self, hon]
  simp

/-- A phone that is dropped must not go on being captured. -/
theorem agreed_dropPhone {s : Sys} (h : s.Agreed) (p : PhoneId) :
    (s.dropPhone p).Agreed ↔ s.stopOk p = true := by
  cases hp : s.phones.get? p with
  | none =>
      rw [dropPhone_of_unknown hp, stopOk, not_wanted_of_unregistered hp]
      exact iff_of_true h rfl
  | some cfg =>
      obtain ⟨transports, hdrop⟩ := dropPhone_eq hp
      refine agreed_of_requestStop h ?_ ?_ ?_
      · rw [hdrop]
        rfl
      · rw [hdrop]
        simp [wanted, captureOn]
      · intro q hq
        rw [hdrop]
        apply wanted_congr
        · simp [captureOn, hq]
        · simp [activeCount, hq]

theorem createPhone_switches (s : Sys) (p : PhoneId) (cfg : PhoneConfig) (out : AddOutcome) :
    (s.createPhone p cfg out).switches = s.switches := by
  obtain ⟨_, _, _, _, h⟩ := s.createPhone_eq p cfg out
  rw [h]
  rfl

/-- Creating a phone changes what is wanted of that phone only, and of it only if it counts
active calls and the creation succeeds. -/
theorem createPhone_wanted (s : Sys) (p : PhoneId) (cfg : PhoneConfig) (out : AddOutcome)
    (q : PhoneId) :
    (s.createPhone p cfg out).wanted q =
      if q = p ∧ out.transport.isSome ∧ out.accountCreated then
        cfg.captureEnabled && 0 < s.activeCount p
      else s.wanted q := by
  obtain ⟨transport, created⟩ := out
  cases transport with
  | none => rw [if_neg (by simp)]; rfl
  | some tp =>
      cases created with
      | false => rw [if_neg (by simp)]; rfl
      | true =>
          by_cases hq : q = p
          · rw [if_pos ⟨hq, rfl, rfl⟩, wanted, hq]
            congr 1
            simp [createPhone, onPhoneAdded, captureOn]
          · rw [if_neg fun h => hq h.1]
            apply wanted_congr
            · simp [createPhone, onPhoneAdded, captureOn, OrderedDict.get?_set_of_ne _ (Ne.symm hq)]
            · rfl

/-- Replacing a phone is dropping it, as far as captures are concerned: the new phone
counts no active call. -/
theorem agreed_replacePhone {s : Sys} (h : s.Agreed) {p : PhoneId} {old : PhoneConfig}
    (hp : s.phones.get? p = some old) (cfg : PhoneConfig) (out : AddOutcome) :
    (s.addPhone p cfg out).Agreed ↔ s.stopOk p = true := by
  obtain ⟨transports, hdrop⟩ := dropPhone_eq hp
  have hzero : (s.dropPhone p).activeCount p = 0 := by
    rw [hdrop]
    simp [activeCount]
  have hoff : (s.dropPhone p).wanted p = false := by simp [wanted, hzero]
  have hwanted : ∀ q, (s.addPhone p cfg out).wanted q = (s.dropPhone p).wanted q := by
    intro q
    rw [addPhone, createPhone_wanted]
    split_ifs with hq
    · rw [hq.1, hoff, hzero]
      simp
    · rfl
  have hswitches := (s.dropPhone p).createPhone_switches p cfg out
  rw [← agreed_dropPhone h p]
  exact ⟨agreed_congr hswitches.symm fun q => (hwanted q).symm, agreed_congr hswitches hwanted⟩

theorem agreed_addPhone {s : Sys} (h : s.Agreed) (p : PhoneId) (cfg : PhoneConfig)
    (out : AddOutcome) :
    (s.addPhone p cfg out).Agreed ↔ s.captureOk (.addPhone p cfg out) = true := by
  simp only [captureOk, Bool.and_eq_true, Bool.or_eq_true, decide_eq_true_eq, Bool.not_eq_true']
  cases hp : s.phones.get? p with
  | some old =>
      have hcontains : s.phones.contains p = true := by simp [OrderedDict.contains, hp]
      rw [agreed_replacePhone h hp cfg out, hcontains]
      simp
  | none =>
      have hoff := not_wanted_of_unregistered hp
      have hcontains : s.phones.contains p = false := by simp [OrderedDict.contains, hp]
      rw [addPhone, dropPhone_of_unknown hp, stopOk, hoff, hcontains,
        agreed_iff_at p h (fun q _ => by rw [createPhone_switches])
          (fun q hq => by rw [createPhone_wanted, if_neg fun hq' => hq hq'.1]),
        createPhone_switches, h p, hoff, createPhone_wanted]
      cases out.transport <;> cases out.accountCreated <;> cases cfg.captureEnabled <;> simp [hoff]

/-! ## One step -/

/-- Shutting down, after which no phone is to be captured. -/
theorem agreed_cleanup {s : Sys} : s.cleanup.Agreed ↔ s.captureOk .cleanup = true := by
  have hwanted : ∀ q, s.cleanup.wanted q = false := by
    intro q
    simp [wanted, cleanup, activeCount]
  have hentries := s.phoneProcesses.entries_eq_nil_iff
  simp only [Agreed, hwanted, captureOk, Bool.and_eq_true, List.isEmpty_iff, hentries]
  cases hdrain : s.drain with
  | starting p c =>
      simp only [SwitchQueues.Settles, switches, cleanup, hdrain]
      refine iff_of_false (fun h => ?_) (by simp)
      exact absurd ((h p).mp ⟨.inr (.inr rfl), List.not_mem_nil⟩) Bool.false_ne_true
  | _ => simp [SwitchQueues.Settles, switches, cleanup, hdrain, isPhoneCapturing]

/-- Turning automatic capture on or off asks for the start or the stop that is due. -/
theorem agreed_setCaptureEnabled {s : Sys} (h : s.Agreed) (p : PhoneId) (enabled : Bool) :
    (s.setCaptureEnabled p enabled).Agreed ↔
      s.captureOk (.setCaptureEnabled p enabled) = true := by
  cases hp : s.phones.get? p with
  | none =>
      have hsame : s.setCaptureEnabled p enabled = s := by simp [setCaptureEnabled, hp]
      rw [hsame]
      refine iff_of_true h ?_
      cases enabled with
      | false => simp [captureOk, stopOk, not_wanted_of_unregistered hp]
      | true => simp [captureOk, OrderedDict.contains, hp]
  | some cfg =>
      have hothers : ∀ t : Sys, t.phones = s.phones.set p { cfg with captureEnabled := enabled } →
          t.activeCallsByPhone = s.activeCallsByPhone → ∀ q, q ≠ p → t.wanted q = s.wanted q := by
        intro t hphones hcounts q hq
        apply wanted_congr
        · rw [captureOn, captureOn, hphones, OrderedDict.get?_set_of_ne _ (Ne.symm hq)]
        · rw [activeCount, activeCount, hcounts]
      have hself : ∀ t : Sys, t.phones = s.phones.set p { cfg with captureEnabled := enabled } →
          t.activeCallsByPhone = s.activeCallsByPhone →
          t.wanted p = (enabled && 0 < s.activeCount p) := by
        intro t hphones hcounts
        rw [wanted, captureOn, hphones, OrderedDict.get?_set_self, activeCount, hcounts]
        rfl
      simp only [setCaptureEnabled, hp]
      cases enabled with
      | false =>
          simp only [Bool.false_eq_true, if_false, queueStopIfCapturing_eq]
          exact agreed_of_requestStop h rfl (hself _ rfl rfl) (hothers _ rfl rfl)
      | true =>
          have hcontains : s.phones.contains p = true := by simp [OrderedDict.contains, hp]
          simp only [if_true, captureOk, hcontains, Bool.not_true, Bool.false_or, Bool.or_eq_true,
            decide_eq_true_eq]
          by_cases hzero : s.activeCount p = 0
          · -- no active call: nothing is requested and nothing is wanted
            rw [if_neg (by change ¬ (0 < s.activeCount p ∧ _); omega)]
            refine Iff.trans (agreed_of_sameSwitches h rfl (hself _ rfl rfl) (hothers _ rfl rfl)) ?_
            have hnot : ¬ s.switches.Settles p := by
              rw [h p, wanted, hzero]
              simp
            simp [hzero, hnot]
          · have hpos : 0 < s.activeCount p := Nat.pos_of_ne_zero hzero
            cases hcap : s.isPhoneCapturing p with
            | false =>
                rw [if_pos ⟨hpos, hcap⟩]
                simp only [hzero, false_or, Bool.false_eq_true, if_false, decide_eq_true_eq]
                refine agreed_of_requestStart h ?_ ?_ (hothers _ rfl rfl)
                · simp only [switches, SwitchQueues.requestStart, List.map_append, List.map_singleton]
                  rfl
                · rw [wanted_iff]
                  exact ⟨by simp [captureOn], hpos⟩
            | true =>
                rw [if_neg fun hboth => Bool.false_ne_true (hboth.2.symm.trans hcap)]
                simp only [hzero, false_or, if_true, decide_eq_true_eq]
                refine Iff.trans
                  (agreed_of_sameSwitches h rfl (hself _ rfl rfl) (hothers _ rfl rfl)) ?_
                simp [hpos]

theorem captureOn_congr {s s' : Sys} (hphones : s'.phones = s.phones) (q : PhoneId) :
    s'.captureOn q = s.captureOn q := by
  rw [captureOn, captureOn, hphones]

/-- A decrement says that the counter is gone when it was 1, and not when it was higher. -/
theorem decrementActive_flag (counts : OrderedDict PhoneId Nat) (p : PhoneId) :
    if (decrementActive counts p).2 then (counts.get? p).getD 0 ≤ 1
    else (counts.get? p).getD 0 ≠ 1 := by
  rw [decrementActive]
  cases counts.get? p with
  | none => simp
  | some count =>
      by_cases hlast : count - 1 ≤ 0
      · simp only [if_pos hlast, if_true, Option.getD_some]
        omega
      · simp only [if_neg hlast, Bool.false_eq_true, if_false, Option.getD_some]
        omega

/-- The counter part of a disconnect, for one phone. -/
theorem agreed_decrement {s s' : Sys} (h : s.Agreed) {p : PhoneId}
    (hphones : s'.phones = s.phones)
    (hcounts : s'.activeCallsByPhone = (decrementActive s.activeCallsByPhone p).1)
    (hswitches : s'.switches =
      if (decrementActive s.activeCallsByPhone p).2 then s.switches.requestStop p
      else s.switches) :
    s'.Agreed ↔ (s.activeCount p = 1 → s.stopOk p = true) := by
  have hcount : ∀ q, s'.activeCount q = s.activeCount q - if p = q then 1 else 0 := by
    intro q
    rw [activeCount, hcounts, getD_decrementActive]
    rfl
  have hcapture := captureOn_congr hphones
  have hothers : ∀ q, q ≠ p → s'.wanted q = s.wanted q := by
    intro q hq
    refine wanted_congr (hcapture q) ?_
    rw [hcount q, if_neg (Ne.symm hq), Nat.sub_zero]
  have hself := hcount p
  rw [if_pos rfl] at hself
  have hflag := decrementActive_flag s.activeCallsByPhone p
  cases hlast : (decrementActive s.activeCallsByPhone p).2 with
  | true =>
      rw [hlast, if_pos rfl] at hswitches hflag
      have hle : s.activeCount p ≤ 1 := hflag
      have hoff : s'.wanted p = false := by
        rw [wanted, hself]
        simp
        omega
      rw [agreed_of_requestStop h hswitches hoff hothers]
      constructor
      · exact fun hok _ => hok
      · intro hok
        by_cases hone : s.activeCount p = 1
        · exact hok hone
        · have hzero : s.activeCount p = 0 := by omega
          simp [stopOk, wanted, hzero]
  | false =>
      rw [hlast, if_neg Bool.false_ne_true] at hswitches hflag
      have hne : s.activeCount p ≠ 1 := hflag
      refine iff_of_true (agreed_congr hswitches ?_ h) fun hone => absurd hone hne
      intro q
      by_cases hq : q = p
      · rw [hq, wanted, wanted, hcapture, hself]
        congr 1
        exact decide_eq_decide.mpr (by omega)
      · exact hothers q hq

/-- A call that ends asks for a stop only when it was the last active one. -/
theorem agreed_ended {s : Sys} (hs : s.table.Sound) (h : s.Agreed) {o : ObjId} {call : SipCall}
    {ci : CallInfo} (ho : s.objs[o]? = some call) (hstate : ci.state = .disconnected)
    (env : SidecarEnv) (timestamp : String) :
    (s.onCallState o ci env timestamp).Agreed ↔
      (s.activeCount call.phoneId = 1 → s.stopOk call.phoneId = true) := by
  rw [onCallState_ended ho hstate]
  obtain ⟨history, heq⟩ :=
    ({ s with objs := s.objs.set o (s.endedCall call ci env) }).onCallDisconnected_eq
      (s.endedCall call ci env).info timestamp
  rw [heq, endedCall_phone hs ho]
  refine agreed_decrement h rfl rfl ?_
  cases hflag : (decrementActive s.activeCallsByPhone call.phoneId).2 with
  | true =>
      simp only [true_and, if_true]
      rfl
  | false =>
      simp only [Bool.false_eq_true, false_and, if_false, List.append_nil]
      rfl

/-- The counter part of a first active media, for one phone. -/
theorem agreed_increment {s s' : Sys} (h : s.Agreed) {p : PhoneId}
    (hphones : s'.phones = s.phones)
    (hcount : ∀ q, s'.activeCount q = s.activeCount q + if p = q then 1 else 0)
    (hswitches : s'.switches =
      if s.activeCount p = 0 ∧ s.captureOn p then s.switches.requestStart p else s.switches) :
    s'.Agreed ↔ (s.captureOn p = true ∧ s.activeCount p = 0 → s.switches.startHolds p) := by
  have hcapture := captureOn_congr hphones
  have hothers : ∀ q, q ≠ p → s'.wanted q = s.wanted q := by
    intro q hq
    refine wanted_congr (hcapture q) ?_
    rw [hcount q, if_neg (Ne.symm hq), Nat.add_zero]
  have hself := hcount p
  rw [if_pos rfl] at hself
  by_cases hfirst : s.activeCount p = 0 ∧ s.captureOn p = true
  · rw [if_pos hfirst] at hswitches
    have hon : s'.wanted p = true := by
      rw [wanted_iff, hcapture, hself]
      exact ⟨hfirst.2, Nat.succ_pos _⟩
    rw [agreed_of_requestStart h hswitches hon hothers]
    exact ⟨fun hok _ => hok, fun hok => hok ⟨hfirst.2, hfirst.1⟩⟩
  · rw [if_neg hfirst] at hswitches
    refine iff_of_true (agreed_congr hswitches ?_ h) fun hboth => absurd ⟨hboth.2, hboth.1⟩ hfirst
    intro q
    by_cases hq : q = p
    · rw [Bool.eq_iff_iff, wanted_iff, wanted_iff, hcapture, hq, hself]
      refine and_congr_right fun hon => ?_
      have hne : s.activeCount p ≠ 0 := fun hzero => hfirst ⟨hzero, hon⟩
      omega
    · exact hothers q hq

/-- The first active call of a phone asks for its capture. -/
theorem agreed_registerCallActive {s : Sys} (h : s.Agreed) (p : PhoneId) (c : CallId) :
    (s.registerCallActive p c).Agreed ↔
      (s.captureOn p = true ∧ s.activeCount p = 0 → s.switches.startHolds p) := by
  refine agreed_increment h ?_ (s.activeCount_registerCallActive p c) ?_
  · rw [registerCallActive_eq]
  · rw [registerCallActive_eq]
    by_cases hfirst : s.activeCount p = 0 ∧ s.captureOn p = true
    · rw [if_pos hfirst]
      have hfirst' : s.activeCount p = 0 ∧
        (s.phones.get? p).any PhoneConfig.captureEnabled = true := hfirst
      simp only [if_pos hfirst', switches, SwitchQueues.requestStart, List.map_append,
        List.map_singleton]
      rfl
    · rw [if_neg hfirst]
      have hfirst' : ¬ (s.activeCount p = 0 ∧
        (s.phones.get? p).any PhoneConfig.captureEnabled = true) := hfirst
      simp only [if_neg hfirst', List.append_nil]
      rfl

/-- A call that becomes audio-active asks for a start only when it is the first. -/
theorem agreed_media {s : Sys} (h : s.Agreed) {o : ObjId} {call : SipCall}
    (ho : s.objs[o]? = some call) (media : List MediaStatus) :
    (s.onCallMediaState o media).Agreed ↔ s.captureOk (.mediaState o media) = true := by
  have hupdated : ({ s with objs := s.objs.set o (call.onCallMediaState media) } : Sys).Agreed :=
    agreed_congr rfl (fun _ => rfl) h
  simp only [captureOk, ho, Option.all_some]
  unfold onCallMediaState
  rw [ho]
  dsimp only
  cases hfires : call.firesFirstActive media with
  | false => exact iff_of_true hupdated rfl
  | true =>
      rw [if_pos rfl, agreed_registerCallActive hupdated]
      simp only [Bool.true_and, Bool.or_eq_true, Bool.not_eq_true', Bool.and_eq_false_iff,
        decide_eq_false_iff_not, decide_eq_true_eq]
      change (s.captureOn call.phoneId = true ∧ s.activeCount call.phoneId = 0 →
        s.switches.startHolds call.phoneId) ↔ _
      rw [← Bool.not_eq_true]
      tauto

/-- Other states of a call leave the counters alone. -/
theorem agreed_callState {s : Sys} (hs : s.table.Sound) (h : s.Agreed) {o : ObjId} {call : SipCall}
    (ho : s.objs[o]? = some call) (ci : CallInfo) (env : SidecarEnv) (timestamp : String) :
    (s.onCallState o ci env timestamp).Agreed ↔
      s.captureOk (.callState o ci env timestamp) = true := by
  by_cases hstate : ci.state = .disconnected
  · rw [agreed_ended hs h ho hstate env timestamp]
    simp [captureOk, ho, hstate, or_iff_not_imp_left]
  · refine iff_of_true ?_ (by simp [captureOk, ho, hstate])
    rw [onCallState_refreshed ho hstate]
    exact agreed_congr rfl (fun _ => rfl) h

/-! ## Steps that turn no switch -/

theorem agreed_actOnIncoming {s : Sys} (h : s.Agreed) (phone : Option PhoneId) (c : Option CallId)
    (cmd : Command) : (s.actOnIncoming phone c cmd).2.Agreed := by
  obtain ⟨_, _, _, heq, -⟩ := s.actOnIncoming_eq phone c cmd
  rw [heq]
  exact agreed_congr rfl (fun _ => rfl) h

theorem agreed_callOp {s : Sys} (h : s.Agreed) (op : CallOp) : (s.callOp op).Agreed := by
  obtain ⟨_, _, heq, -⟩ := s.callOp_eq op
  rw [heq]
  exact agreed_congr rfl (fun _ => rfl) h

theorem agreed_autoAnswerNext {s : Sys} (h : s.Agreed) : s.autoAnswerNext.Agreed := by
  obtain ⟨_, _, heq, -⟩ := s.autoAnswerNext_eq
  rw [heq]
  exact agreed_congr rfl (fun _ => rfl) h

theorem agreed_setRecordingEnabled {s : Sys} (h : s.Agreed) (p : PhoneId) (enabled : Bool)
    (rec : ObjId → RecorderEnv) (env : ObjId → SidecarEnv) :
    (s.setRecordingEnabled p enabled rec env).Agreed := by
  obtain ⟨_, _, heq, -⟩ := s.setRecordingEnabled_eq p enabled rec env
  refine agreed_congr ?_ (s.setRecordingEnabled_wanted p enabled rec env) h
  rw [heq]
  rfl

theorem agreed_setCodecsForPhone {s : Sys} (h : s.Agreed) (p : PhoneId) (codecs : List String) :
    (s.setCodecsForPhone p codecs).Agreed := by
  obtain ⟨_, _, _, heq, -⟩ := s.setCodecsForPhone_eq p codecs
  refine agreed_congr ?_ (s.setCodecsForPhone_wanted p codecs) h
  rw [heq]
  rfl

theorem agreed_setAutoAnswer {s : Sys} (h : s.Agreed) (p : PhoneId) (enabled : Bool) :
    (s.setAutoAnswer p enabled).Agreed := by
  refine agreed_congr ?_ (s.setAutoAnswer_wanted p enabled) h
  unfold setAutoAnswer
  split <;> rfl

/-! ## The drain -/

/-- The drain begins with the phones that are queued. -/
theorem agreed_processAutoCaptures {s : Sys} (h : s.Agreed) (idle : s.drain = .idle) :
    s.processAutoCaptures.Agreed := by
  intro p
  have hidle : s.switches.phase = .idle := by simp [switches, idle]
  obtain ⟨_, _, _, _, heq⟩ := s.drainStarts_eq s.autoCapturePendingStart
  change s.processAutoCaptures.switches.Settles p ↔
    (s.drainStarts s.autoCapturePendingStart).wanted p = true
  rw [processAutoCaptures_switches, SwitchQueues.settles_begin hidle, heq]
  exact h p

theorem agreed_resumeAutoCaptures {s : Sys} (h : s.Agreed) (stamp : String) :
    (s.resumeAutoCaptures stamp).Agreed := by
  intro p
  obtain ⟨_, _, _, _, heq⟩ := s.resumeAutoCaptures_eq stamp
  rw [resumeAutoCaptures_switches, SwitchQueues.settles_resume, heq]
  exact h p

/-- A phone that is registered again is replaced. -/
theorem agreed_reregisterPhone {s : Sys} (h : s.Agreed) (p : PhoneId) (creds : Credentials)
    (out : AddOutcome) : (s.reregisterPhone p creds out).Agreed ↔ s.stopOk p = true := by
  rcases s.reregisterPhone_cases p creds out with ⟨hp, hsame⟩ | ⟨cfg, hp, hadd⟩
  · rw [hsame, stopOk, not_wanted_of_unregistered hp]
    exact iff_of_true h rfl
  · rw [hadd, agreed_replacePhone h hp]

/-- The steps that `captureOk` admits are those that keep the settling captures right. -/
theorem captureOk_iff {s : Sys} {a : Action} (en : s.enabled a = true) (hs : s.table.Sound)
    (h : s.Agreed) : s.captureOk a = true ↔ (s.step a).Agreed := by
  cases a with
  | makeCall phone destUri placed => exact iff_of_true rfl (agreed_newCall h rfl)
  | incomingCall p c ci => exact iff_of_true rfl (agreed_newCall h rfl)
  | callState o ci env timestamp =>
      obtain ⟨call, ho, -⟩ := exists_of_objActive en
      exact (agreed_callState hs h ho ci env timestamp).symm
  | mediaState o media =>
      obtain ⟨call, ho, -⟩ := exists_of_objActive en
      exact (agreed_media h ho media).symm
  | answerCall phone c code => exact iff_of_true rfl (agreed_actOnIncoming h phone c _)
  | rejectCall phone c code => exact iff_of_true rfl (agreed_actOnIncoming h phone c _)
  | callOp op => exact iff_of_true rfl (agreed_callOp h op)
  | pollAutoAnswers => exact iff_of_true rfl (agreed_congr rfl (fun _ => rfl) h)
  | autoAnswerNext => exact iff_of_true rfl (agreed_autoAnswerNext h)
  | processAutoCaptures =>
      exact iff_of_true rfl (agreed_processAutoCaptures h (of_decide_eq_true en))
  | resumeAutoCaptures stamp => exact iff_of_true rfl (agreed_resumeAutoCaptures h stamp)
  | setCaptureEnabled p enabled => exact (agreed_setCaptureEnabled h p enabled).symm
  | setRecordingEnabled p enabled rec env =>
      exact iff_of_true rfl (agreed_setRecordingEnabled h p enabled rec env)
  | setCodecsForPhone p codecs => exact iff_of_true rfl (agreed_setCodecsForPhone h p codecs)
  | setAutoAnswer p enabled => exact iff_of_true rfl (agreed_setAutoAnswer h p enabled)
  | addPhone p cfg out => exact (agreed_addPhone h p cfg out).symm
  | dropPhone p => exact (agreed_dropPhone h p).symm
  | reregisterPhone p creds out => exact (agreed_reregisterPhone h p creds out).symm
  | cleanup => exact agreed_cleanup.symm

end Sys

/-! ## Runs -/

theorem agreed_initial : Sys.initial.Agreed := by
  intro p
  simp [Sys.initial, Sys.switches, SwitchQueues.Settles, Sys.wanted, Sys.captureOn,
    Sys.isPhoneCapturing, OrderedDict.contains]

theorem reach_agreed {s : Sys} (run : server.Reach (fun s a => s.captureOk a = true) s) :
    s.Agreed :=
  run.invariant_using (fun _ run => reachable_sound run.reachable) agreed_initial
    fun _ _ en hok hs h => (Sys.captureOk_iff en hs h).mp hok

/-- Along a run of admitted steps, a state with nothing left to drain captures exactly the
wanted phones; an uninterrupted drain from any state between drains ends in such a state;
and the next step keeps the settling captures right if and only if it is admitted. -/
theorem captures_settle {s : Sys} (run : server.Reach (fun s a => s.captureOk a = true) s) :
    (s.drain = .idle → s.autoCapturePendingStart = [] → s.autoCapturePendingStop = [] →
      ∀ p, s.isPhoneCapturing p = true ↔ s.wanted p = true) ∧
    (s.drain = .idle → ∀ stamp,
      (s.drainAll stamp).drain = .idle ∧
      (s.drainAll stamp).autoCapturePendingStart = [] ∧
      (s.drainAll stamp).autoCapturePendingStop = [] ∧
      ∀ p, (s.drainAll stamp).isPhoneCapturing p = true ↔ (s.drainAll stamp).wanted p = true) ∧
    ∀ a, s.enabled a = true → (s.captureOk a = true ↔ (s.step a).Agreed) := by
  have hagreed := reach_agreed run
  have hphase : ∀ t : Sys, t.drain = .idle ↔ t.switches.phase = .idle := by
    intro t
    cases hdrain : t.drain <;> simp [Sys.switches, hdrain]
  refine ⟨?_, ?_, fun a en => Sys.captureOk_iff en (reachable_sound run.reachable) hagreed⟩
  · intro hidle hstarts hstops p
    rw [← hagreed p]
    refine (SwitchQueues.settles_of_quiet ((hphase s).mp hidle) ?_ hstops p).symm
    rw [Sys.switches, hstarts]
    rfl
  · intro hidle stamp
    obtain ⟨hidle', hstarts, hstops⟩ := s.switches.drained_idle
    rw [← s.drainAll_switches stamp] at hidle' hstarts hstops
    refine ⟨(hphase _).mpr hidle', List.map_eq_nil_iff.mp hstarts, hstops, ?_⟩
    intro p
    rw [s.drainAll_wanted stamp p, ← hagreed p,
      ← SwitchQueues.settles_drained ((hphase s).mp hidle) p, ← s.drainAll_switches stamp]
    exact (SwitchQueues.settles_of_quiet hidle' hstarts hstops p).symm

/-- A call becomes audio-active and ends before the queues are drained. -/
def shortCall : List Action :=
  [.addPhone "alice" { domain := "example.org", captureEnabled := true } ⟨some 1, true⟩,
   .incomingCall "alice" 0 (some (.plain 0 .incoming "a")), .mediaState 0 [.active],
   .callState 0 (.plain 0 .disconnected "a") .writes "t"]

/-- Its start is still queued while its stop was not: the phone is captured without a call. -/
theorem shortCall_captured :
    server.Reachable (server.run .initial shortCall) ∧
    (server.run .initial shortCall).drain = .idle ∧
    ((server.run .initial shortCall).drainAll "t").isPhoneCapturing "alice" = true ∧
    ((server.run .initial shortCall).drainAll "t").activeCount "alice" = 0 := by
  refine ⟨GuardedSystem.Reach.init.run ?_, ?_⟩ <;> decide

/-- The same call while it lasts. -/
theorem captures_settle_single :
    ((server.run .initial (shortCall.take 3)).drainAll "t").isPhoneCapturing "alice" = true ↔
      ((server.run .initial (shortCall.take 3)).drainAll "t").wanted "alice" = true :=
  have run : server.Reach (fun s a => s.captureOk a = true)
      (server.run .initial (shortCall.take 3)) :=
    GuardedSystem.Reach.init.run (by decide)
  ((captures_settle run).2.1 (by decide) "t").2.2.2 "alice"

end PjsuaMcp.Calls
