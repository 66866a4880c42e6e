import PjsuaMcp.Calls.Lifecycle

/-!
# The counter of audio-active calls

`_active_calls_by_phone` goes up when a call becomes audio-active for the first
time and goes down when any call of the phone ends. `audioActiveCalls` is the
number it stands for. `counterOk` names the steps that keep the two together,
and along a run of such steps they are equal; a step outside it separates them.
-/

namespace PjsuaMcp.Calls

open Library

namespace Sys

/-- The tracked calls of `p` whose first-active callback has fired. -/
def audioActiveCalls (s : Sys) (p : PhoneId) : Nat :=
  s.calls.entries.countP fun e =>
    s.objs[e.2]?.any fun call => call.phoneId = p ∧ call.autoCaptureStarted

/-- A call that ends is tracked and audio-active, or its phone counts no active call;
a call that becomes audio-active is still tracked. -/
def counterOk (s : Sys) : Action → Bool
  | .callState o ci _ _ => s.objs[o]?.all fun call =>
      ci.state ≠ .disconnected || s.activeCount call.phoneId = 0 ||
        (s.calls.get? call.callId = some o && call.autoCaptureStarted)
  | .mediaState o media => s.objs[o]?.all fun call =>
      !call.firesFirstActive media || s.calls.get? call.callId = some o
  | _ => true

/-- The counter equals the number it stands for, on every phone. -/
def Counted (s : Sys) : Prop := ∀ p, s.activeCount p = s.audioActiveCalls p

theorem audioActiveCalls_eq (s : Sys) (p : PhoneId) :
    s.audioActiveCalls p = s.table.audioActive p := by
  refine List.countP_congr fun e _ => ?_
  rw [CallTable.isAudioActive, table_heap]
  cases s.objs[e.2]? <;> rfl

/-! ## The counter after each step -/

theorem activeCount_registerCallActive (s : Sys) (p : PhoneId) (c : CallId) (q : PhoneId) :
    (s.registerCallActive p c).activeCount q =
      s.activeCount q + if p = q then 1 else 0 := by
  rw [registerCallActive_eq, activeCount, OrderedDict.get?_set]
  split_ifs with hp
  · rw [hp]
    rfl
  · rfl

theorem getD_decrementActive (counts : OrderedDict PhoneId Nat) (p q : PhoneId) :
    ((decrementActive counts p).1.get? q).getD 0 =
      (counts.get? q).getD 0 - if p = q then 1 else 0 := by
  unfold decrementActive
  split
  · rename_i hnone
    split_ifs with hp
    · rw [← hp, hnone]
      rfl
    · rfl
  · rename_i count hsome
    split_ifs with hlast hp hp
    · rw [OrderedDict.get?_pop, if_pos hp.symm, ← hp, hsome, Option.getD_none, Option.getD_some]
      omega
    · rw [OrderedDict.get?_pop, if_neg (Ne.symm hp), Nat.sub_zero]
    · rw [OrderedDict.get?_set, if_pos hp, ← hp, hsome]
      rfl
    · rw [OrderedDict.get?_set, if_neg hp, Nat.sub_zero]

/-- The key is removed only when no active call remains counted. -/
theorem decrementActive_last {counts : OrderedDict PhoneId Nat} {p : PhoneId}
    (hlast : (decrementActive counts p).2 = true) :
    ((decrementActive counts p).1.get? p).getD 0 = 0 := by
  unfold decrementActive at hlast ⊢
  split at hlast
  · cases hlast
  · split_ifs at hlast ⊢
    simp

theorem endedCall_phone {s : Sys} (h : s.table.Sound) {o : ObjId} {call : SipCall}
    (ho : s.objs[o]? = some call) (ci : CallInfo) (env : SidecarEnv) :
    (s.endedCall call ci env).info.phoneId = call.phoneId :=
  calc (s.endedCall call ci env).info.phoneId
    _ = (s.endedCall call ci env).track.infoPhoneId := rfl
    _ = call.info.phoneId := by rw [endedCall_track, updateInfo_track]; rfl
    _ = call.phoneId := h.phone_eq (table_heap_of_some ho)

/-- What a DISCONNECTED callback does to the counters and to the stop queue. -/
theorem onCallState_ended_counts {s : Sys} (h : s.table.Sound) {o : ObjId} {call : SipCall}
    {ci : CallInfo} (ho : s.objs[o]? = some call) (hstate : ci.state = .disconnected)
    (env : SidecarEnv) (timestamp : String) :
    (s.onCallState o ci env timestamp).activeCallsByPhone =
        (decrementActive s.activeCallsByPhone call.phoneId).1 ∧
      (s.onCallState o ci env timestamp).autoCapturePendingStop = s.autoCapturePendingStop ++
        if (decrementActive s.activeCallsByPhone call.phoneId).2 ∧ s.isPhoneCapturing call.phoneId
          then [call.phoneId] else [] := by
  rw [onCallState_ended ho hstate]
  obtain ⟨history, heq⟩ :=
    ({ s with objs := s.objs.set o (s.endedCall call ci env) }).onCallDisconnected_eq
      (s.endedCall call ci env).info timestamp
  rw [heq, endedCall_phone h ho]
  exact ⟨rfl, rfl⟩

theorem activeCount_ended {s : Sys} (h : s.table.Sound) {o : ObjId} {call : SipCall}
    {ci : CallInfo} (ho : s.objs[o]? = some call) (hstate : ci.state = .disconnected)
    (env : SidecarEnv) (timestamp : String) (q : PhoneId) :
    (s.onCallState o ci env timestamp).activeCount q =
      s.activeCount q - if call.phoneId = q then 1 else 0 := by
  rw [activeCount, (onCallState_ended_counts h ho hstate env timestamp).1, getD_decrementActive]
  rfl

theorem audioActiveCalls_ended {s : Sys} (h : s.table.Sound) {o : ObjId} {call : SipCall}
    {ci : CallInfo} (ho : s.objs[o]? = some call) (hstate : ci.state = .disconnected)
    (env : SidecarEnv) (timestamp : String) (q : PhoneId) :
    (s.onCallState o ci env timestamp).audioActiveCalls q +
      (if call.phoneId = q ∧ s.calls.get? call.callId = some o ∧ call.autoCaptureStarted = true
        then 1 else 0) = s.audioActiveCalls q := by
  rw [audioActiveCalls_eq, audioActiveCalls_eq, onCallState_ended_table ho hstate]
  refine h.audioActive_end (table_heap_of_some ho) ?_ ?_ hstate (congrArg some hstate) ?_ q
  all_goals rfl

/-- The counters and the calls after a media callback. -/
theorem activeCount_media {s : Sys} {o : ObjId} {call : SipCall} (ho : s.objs[o]? = some call)
    (media : List MediaStatus) (q : PhoneId) :
    (s.onCallMediaState o media).activeCount q =
      s.activeCount q + if call.firesFirstActive media ∧ call.phoneId = q then 1 else 0 := by
  unfold onCallMediaState
  rw [ho]
  dsimp only
  by_cases hfires : call.firesFirstActive media = true
  · rw [if_pos hfires, activeCount_registerCallActive]
    simp only [hfires, true_and]
    rfl
  · simp only [hfires, Bool.false_eq_true, false_and, if_false, Nat.add_zero]
    rfl

theorem audioActiveCalls_media {s : Sys} (h : s.table.Sound) {o : ObjId} {call : SipCall}
    (ho : s.objs[o]? = some call) (media : List MediaStatus) (q : PhoneId) :
    (s.onCallMediaState o media).audioActiveCalls q = s.audioActiveCalls q +
      if call.firesFirstActive media ∧ s.calls.get? call.callId = some o ∧ call.phoneId = q
        then 1 else 0 := by
  have hk := table_heap_of_some ho
  have hid := onCallMediaState_identity call media
  have hflag' : (call.onCallMediaState media).track.autoCaptureStarted =
      (call.autoCaptureStarted || media.any (·.audioActive)) := by rw [onCallMediaState_track]
  rw [audioActiveCalls_eq, audioActiveCalls_eq, onCallMediaState_table ho]
  by_cases hfires : call.firesFirstActive media = true
  · obtain ⟨hflag, hany⟩ : call.autoCaptureStarted = false ∧
        media.any (·.audioActive) = true := by
      simpa [SipCall.firesFirstActive] using hfires
    rw [hany, Bool.or_true] at hflag'
    by_cases htracked : s.calls.get? call.callId = some o
    · rw [h.audioActive_update_first htracked hk hid hflag hflag' q]
      simp only [hfires, htracked, true_and]
      rfl
    · rw [CallTable.audioActive_update_same hk hid (.inl ?_) q]
      · simp [htracked]
      · intro c hc
        rw [h.key_eq hc hk] at hc
        exact htracked hc
  · rw [CallTable.audioActive_update_same hk hid (.inr ?_) q]
    · simp [hfires]
    · have hsame : call.autoCaptureStarted = true ∨ media.any (·.audioActive) = false := by
        simpa [SipCall.firesFirstActive, or_iff_not_imp_left] using hfires
      rw [hflag']
      rcases hsame with hflag | hany
      · rw [hflag, Bool.true_or]
        exact hflag.symm
      · rw [hany, Bool.or_false]
        rfl

/-! ## One step -/

theorem counted_congr {s s' : Sys} (htable : s'.table = s.table)
    (hcounts : s'.activeCallsByPhone = s.activeCallsByPhone) (hc : s.Counted) : s'.Counted := by
  intro p
  rw [audioActiveCalls_eq, htable, ← audioActiveCalls_eq, ← hc p, activeCount, hcounts]
  rfl

/-- Dropping a phone zeroes its counter and removes its calls. -/
theorem counted_dropPhone {s : Sys} (h : s.table.Sound) (hc : s.Counted) (p : PhoneId) :
    (s.dropPhone p).Counted := by
  cases hp : s.phones.get? p with
  | none =>
      rw [dropPhone_of_unknown hp]
      exact hc
  | some cfg =>
      obtain ⟨transports, hdrop⟩ := dropPhone_eq hp
      intro q
      have htable : (s.dropPhone p).table = s.table.remove (s.idsOf p) := by rw [hdrop]; rfl
      rw [audioActiveCalls_eq, htable, h.audioActive_remove_owner (s.mem_idsOf_iff p) q,
        ← audioActiveCalls_eq, ← hc q]
      rw [hdrop]
      simp only [activeCount, OrderedDict.get?_pop]
      split_ifs <;> rfl

theorem counted_newCall {s : Sys} {a : Action} (en : s.enabled a = true) (h : s.table.Sound)
    (hc : s.Counted) (ha : a.creates = true) : (s.step a).Counted := by
  rcases s.step_newCall a ha with ⟨-, hsame⟩ | ⟨call, queues, pending, index, hcall, hstep⟩
  · rw [hsame]
    exact hc
  · obtain ⟨hfree, -, -, -, hflag, -⟩ := newCall_spec hcall en
    intro p
    have htable : (s.step a).table = s.table.add call.track := by
      rw [hstep, ← trackCall_table]
      rfl
    have hnone : s.table.calls.get? call.track.identity.callId = none :=
      get?_eq_none_of_idFree h hfree
    rw [audioActiveCalls_eq, htable, h.audioActive_add hnone hflag p, ← audioActiveCalls_eq,
      ← hc p, hstep]
    rfl

/-- The end of a call keeps the counters exact if it was counted, or there is nothing to count. -/
theorem counted_ended {s : Sys} (h : s.table.Sound) (hc : s.Counted) {o : ObjId} {call : SipCall}
    (ho : s.objs[o]? = some call) {ci : CallInfo} (hstate : ci.state = .disconnected)
    (env : SidecarEnv) (timestamp : String) :
    s.counterOk (.callState o ci env timestamp) = true ↔
      (s.onCallState o ci env timestamp).Counted := by
  have hleft : s.counterOk (.callState o ci env timestamp) = true ↔
      s.activeCount call.phoneId = 0 ∨
        (s.calls.get? call.callId = some o ∧ call.autoCaptureStarted = true) := by
    simp [counterOk, ho, hstate]
  have hcount := activeCount_ended h ho hstate env timestamp
  have haudio := audioActiveCalls_ended h ho hstate env timestamp
  rw [hleft]
  constructor
  · intro hok q
    have := hc q
    have := hcount q
    have := haudio q
    by_cases hq : call.phoneId = q
    · subst hq
      rcases hok with hzero | hactive
      · simp only [if_true, true_and] at *
        omega
      · simp only [hactive, if_true, and_self] at *
        omega
    · simp only [hq, if_false, false_and] at *
      omega
  · intro hafter
    have := hc call.phoneId
    have := hcount call.phoneId
    have := haudio call.phoneId
    have := hafter call.phoneId
    by_contra hnot
    obtain ⟨hzero, hactive⟩ := not_or.mp hnot
    simp only [hactive, if_true, true_and, if_false] at *
    omega

/-- New media keep the counters exact if they activate a tracked call, or none. -/
theorem counted_media {s : Sys} (h : s.table.Sound) (hc : s.Counted) {o : ObjId} {call : SipCall}
    (ho : s.objs[o]? = some call) (media : List MediaStatus) :
    s.counterOk (.mediaState o media) = true ↔ (s.onCallMediaState o media).Counted := by
  have hleft : s.counterOk (.mediaState o media) = true ↔
      (call.firesFirstActive media = true → s.calls.get? call.callId = some o) := by
    simp [counterOk, ho, or_iff_not_imp_left]
  have hcount := activeCount_media ho media
  have haudio := audioActiveCalls_media h ho media
  rw [hleft]
  constructor
  · intro hok q
    rw [hcount q, haudio q, hc q]
    congr 1
    by_cases hfires : call.firesFirstActive media = true
    · simp [hfires, hok hfires]
    · simp [hfires]
  · intro hafter hfires
    have hq := hafter call.phoneId
    rw [hcount, haudio, hc call.phoneId] at hq
    by_contra huntracked
    simp only [hfires, huntracked, true_and, false_and, if_true, if_false] at hq
    omega

/-- A step keeps the counters exact if and only if it is an admitted one. -/
theorem counterOk_iff {s : Sys} {a : Action} (en : s.enabled a = true) (h : s.table.Sound)
    (hc : s.Counted) : s.counterOk a = true ↔ (s.step a).Counted := by
  cases a with
  | makeCall phone destUri placed =>
      exact iff_of_true rfl (counted_newCall en h hc rfl)
  | incomingCall p c ci => exact iff_of_true rfl (counted_newCall en h hc rfl)
  | callState o ci env timestamp =>
      obtain ⟨call, ho, -⟩ := exists_of_objActive en
      by_cases hstate : ci.state = .disconnected
      · exact counted_ended h hc ho hstate env timestamp
      · refine iff_of_true (by simp [counterOk, ho, hstate]) ?_
        intro q
        change (s.onCallState o ci env timestamp).activeCount q =
          (s.onCallState o ci env timestamp).audioActiveCalls q
        rw [audioActiveCalls_eq, onCallState_refreshed ho hstate, set_table,
          CallTable.audioActive_update_same (table_heap_of_some ho) ?_ (.inr ?_) q,
          ← audioActiveCalls_eq]
        · exact hc q
        · rfl
        · rfl
  | mediaState o media =>
      obtain ⟨call, ho, -⟩ := exists_of_objActive en
      exact counted_media h hc ho media
  | addPhone p cfg out =>
      exact iff_of_true rfl (counted_congr (s.addPhone_table p cfg out) (s.addPhone_counts p cfg out)
        (counted_dropPhone h hc p))
  | dropPhone p => exact iff_of_true rfl (counted_dropPhone h hc p)
  | reregisterPhone p creds out =>
      refine iff_of_true rfl ?_
      change (s.reregisterPhone p creds out).Counted
      rcases s.reregisterPhone_cases p creds out with ⟨-, hsame⟩ | ⟨cfg, -, hadd⟩
      · rw [hsame]
        exact hc
      · rw [hadd]
        exact counted_congr (s.addPhone_table p _ out) (s.addPhone_counts p _ out)
          (counted_dropPhone h hc p)
  | cleanup => exact iff_of_true rfl fun p => rfl
  | _ =>
      exact iff_of_true rfl
        (counted_congr (s.step_quiet _ rfl).table (s.step_quiet _ rfl).counts hc)

end Sys

/-! ## Runs -/

/-- Along a run of admitted steps the counters are exact; the next step keeps them so if and
only if it is admitted; and a disconnect queues a stop only for a phone that has no
audio-active call left. -/
theorem activeCalls_counted {s : Sys} (run : server.Reach (fun s a => s.counterOk a = true) s) :
    s.Counted ∧
    (∀ a, s.enabled a = true → (s.counterOk a = true ↔ (s.step a).Counted)) ∧
    ∀ o ci env timestamp p, s.enabled (.callState o ci env timestamp) = true →
      s.counterOk (.callState o ci env timestamp) = true → ci.state = .disconnected →
      (s.step (.callState o ci env timestamp)).autoCapturePendingStop =
        s.autoCapturePendingStop ++ [p] →
      (s.step (.callState o ci env timestamp)).audioActiveCalls p = 0 := by
  have hsound := fun s (run : server.Reach (fun s a => s.counterOk a = true) s) =>
    reachable_sound run.reachable
  have hcounted : s.Counted :=
    run.invariant_using hsound (P := Sys.Counted) (fun _ => rfl)
      fun s a en hok h hc => (Sys.counterOk_iff en h hc).mp hok
  have hiff : ∀ a, s.enabled a = true → (s.counterOk a = true ↔ (s.step a).Counted) :=
    fun a en => Sys.counterOk_iff en (hsound s run) hcounted
  refine ⟨hcounted, hiff, ?_⟩
  intro o ci env timestamp p en hok hstate hqueued
  obtain ⟨call, ho, -⟩ := Sys.exists_of_objActive en
  obtain ⟨hcounts, hstop⟩ :=
    Sys.onCallState_ended_counts (hsound s run) ho hstate env timestamp
  have hnew : (if (Sys.decrementActive s.activeCallsByPhone call.phoneId).2 ∧
      s.isPhoneCapturing call.phoneId then [call.phoneId] else []) = [p] :=
    List.append_cancel_left (hstop.symm.trans hqueued)
  split_ifs at hnew with hlast
  obtain rfl : call.phoneId = p := List.head_eq_of_cons_eq hnew
  rw [← (hiff _ en).mp hok call.phoneId]
  change ((s.onCallState o ci env timestamp).activeCallsByPhone.get? call.phoneId).getD 0 = 0
  rw [hcounts]
  exact Sys.decrementActive_last hlast.1

/-- A phone with capture enabled gets a call that becomes audio-active, tcpdump starts, and
a second call rings and is cancelled by its caller. -/
def ringingDisconnect : List Action :=
  [.addPhone "alice" { domain := "example.org", captureEnabled := true } ⟨some 1, true⟩,
   .incomingCall "alice" 0 (some (.plain 0 .incoming "a")), .mediaState 0 [.active],
   .processAutoCaptures, .resumeAutoCaptures "t",
   .incomingCall "alice" 1 (some (.plain 1 .incoming "b")),
   .callState 1 (.plain 1 .disconnected "b") .writes "t"]

/-- The call that never became active takes the live call off the counter. -/
theorem ringingDisconnect_miscounts :
    server.Reachable (server.run .initial ringingDisconnect) ∧
    (server.run .initial ringingDisconnect).activeCount "alice" = 0 ∧
    (server.run .initial ringingDisconnect).audioActiveCalls "alice" = 1 ∧
    (server.run .initial ringingDisconnect).autoCapturePendingStop = ["alice"] := by
  refine ⟨GuardedSystem.Reach.init.run ?_, ?_⟩ <;> decide

/-- The same phone with the first call only, until it ends. -/
theorem activeCalls_counted_single :
    (server.run .initial (ringingDisconnect.take 5)).Counted ∧
    ((server.run .initial (ringingDisconnect.take 5)).step
      (.callState 0 (.plain 0 .disconnected "a") .writes "t")).audioActiveCalls "alice" = 0 :=
  have run : server.Reach (fun s a => s.counterOk a = true)
      (server.run .initial (ringingDisconnect.take 5)) :=
    GuardedSystem.Reach.init.run (by decide)
  ⟨(activeCalls_counted run).1,
    (activeCalls_counted run).2.2 0 (.plain 0 .disconnected "a") .writes "t" "alice"
      (by decide) (by decide) rfl (by decide)⟩

end PjsuaMcp.Calls
