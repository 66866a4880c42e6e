import PjsuaMcp.Calls.PhoneOps

/-!
# An operation reaches the calls of its phone

A phone reaches a call by its id, by its queue, or by a scan of the calls that
are its own. All three go through `_call_phone`, the queue provided that its ids
are those of the phone. An id that `_call_phone` gives to no phone, or to another
one, is refused before anything is sent.
-/

namespace PjsuaMcp.Calls

open Library

/-- A bind of `Except` returns when both parts do. -/
theorem except_bind_eq_ok {α β : Type} {x : Except String α} {f : α → Except String β} {b : β} :
    (x >>= f) = .ok b ↔ ∃ a, x = .ok a ∧ f a = .ok b := by
  cases x with
  | error e => exact ⟨fun h => (by cases h), fun ⟨_, h, _⟩ => (by cases h)⟩
  | ok a =>
      constructor
      · intro h
        exact ⟨a, rfl, h⟩
      · rintro ⟨_, ha, h⟩
        cases ha
        exact h

namespace Sys

/-- The call is tracked and given to `p`. -/
def Owns (s : Sys) (p : PhoneId) (o : ObjId) : Prop :=
  ∃ c, s.calls.get? c = some o ∧ s.callPhone.get? c = some p

/-- Every queued id is given to the phone in whose queue it waits. -/
def QueuesOwned (s : Sys) : Prop := ∀ p, ∀ c ∈ s.queueOf p, s.callPhone.get? c = some p

/-- The methods reach calls of `p` only. -/
def Reaches (s : Sys) (p : PhoneId) (methods : List (ObjId × Method)) : Prop :=
  ∀ e ∈ methods, s.Owns p e.1 ∧ ∀ o ∈ e.2.argument, s.Owns p o

variable {s : Sys} {p : PhoneId}

/-! ## Lookups -/

/-- The ownership check passes for the owner on file, and for no other phone. -/
theorem ensureCallBelongsTo_eq_ok_iff {c : CallId} :
    s.ensureCallBelongsTo p c = .ok () ↔ s.callPhone.get? c = some p := by
  unfold ensureCallBelongsTo
  cases s.callPhone.get? c with
  | none => simp
  | some owner =>
      dsimp only
      split_ifs with h
      · simp [h]
      · simp [h]

theorem getCallById_eq_ok_iff {c : CallId} {o : ObjId} :
    s.getCallById c = .ok o ↔ s.calls.get? c = some o := by
  unfold getCallById
  cases s.calls.get? c <;> simp

/-- A call that a tool finds is filed under its id and owned by the phone. -/
theorem getOwnedCall_eq_ok_iff {c : CallId} {o : ObjId} :
    s.getOwnedCall p c = .ok o ↔ s.callPhone.get? c = some p ∧ s.calls.get? c = some o := by
  unfold getOwnedCall
  rw [← ensureCallBelongsTo_eq_ok_iff, ← getCallById_eq_ok_iff]
  cases s.ensureCallBelongsTo p c <;> simp

/-- A call that a tool finds is the phone's own. -/
theorem owns_of_getOwnedCall {c : CallId} {o : ObjId} (h : s.getOwnedCall p c = .ok o) :
    s.Owns p o := by
  obtain ⟨howner, hc⟩ := getOwnedCall_eq_ok_iff.mp h
  exact ⟨c, hc, howner⟩

/-- An id that is not the phone's own is refused. -/
theorem getOwnedCall_error {c : CallId} (h : s.callPhone.get? c ≠ some p) :
    ∃ e, s.getOwnedCall p c = .error e := by
  cases hfound : s.getOwnedCall p c with
  | error e => exact ⟨e, rfl⟩
  | ok o => exact (h (getOwnedCall_eq_ok_iff.mp hfound).1).elim

theorem owns_of_mem_activeCallsOf {o : ObjId} (h : o ∈ s.activeCallsOf p) : s.Owns p o := by
  obtain ⟨e, he, rfl⟩ := List.mem_map.mp h
  obtain ⟨hmem, howner⟩ := List.mem_filter.mp he
  exact ⟨e.1, (s.calls.get?_eq_some_iff e.1 e.2).mpr hmem, (of_decide_eq_true howner).1⟩

theorem owns_of_firstActive {o : ObjId} (h : s.firstActive p = some o) : s.Owns p o := by
  obtain ⟨e, he, rfl⟩ := Option.map_eq_some_iff.mp h
  have howner := List.find?_some he
  exact ⟨e.1, (s.calls.get?_eq_some_iff e.1 e.2).mpr (List.mem_of_find?_eq_some he),
    (of_decide_eq_true howner).1⟩

theorem owns_of_findCall {c : Option CallId} {o : ObjId} (h : s.findCall p c = .ok o) :
    s.Owns p o := by
  cases c with
  | some c => exact owns_of_getOwnedCall h
  | none =>
      unfold findCall at h
      cases hfirst : s.firstActive p with
      | none =>
          rw [hfirst] at h
          cases h
      | some first =>
          rw [hfirst, Except.ok.injEq] at h
          exact h ▸ owns_of_firstActive hfirst

/-- The queue of a phone yields its own calls. -/
theorem owns_of_popTracked {o : ObjId} {queue : List CallId}
    (hqueue : ∀ c ∈ queue, s.callPhone.get? c = some p)
    (h : (s.popTracked queue).1 = some o) : s.Owns p o := by
  induction queue with
  | nil => cases h
  | cons c rest ih =>
      rw [popTracked] at h
      cases hc : s.calls.get? c with
      | none =>
          rw [hc] at h
          exact ih (fun d hd => hqueue d (List.mem_cons_of_mem c hd)) h
      | some found =>
          rw [hc, Option.some.injEq] at h
          exact ⟨c, h ▸ hc, hqueue c List.mem_cons_self⟩

/-- The rest of the queue is what it leaves. -/
theorem popTracked_suffix (s : Sys) (queue : List CallId) : (s.popTracked queue).2 <:+ queue := by
  induction queue with
  | nil => exact List.suffix_rfl
  | cons c rest ih =>
      rw [popTracked]
      cases s.calls.get? c with
      | none => exact ih.trans (List.suffix_cons c rest)
      | some o => exact List.suffix_cons c rest

theorem setQueue_calls (s : Sys) (p : PhoneId) (queue : List CallId) :
    (s.setQueue p queue).calls = s.calls ∧ (s.setQueue p queue).callPhone = s.callPhone ∧
      (s.setQueue p queue).objs = s.objs := by
  obtain ⟨_, h⟩ := s.setQueue_eq p queue
  rw [h]
  exact ⟨rfl, rfl, rfl⟩

/-- The incoming call that is found is the phone's own. -/
theorem owns_of_getIncomingCall (hq : s.QueuesOwned) {c : Option CallId} {o : ObjId}
    (h : (s.getIncomingCall p c).1 = .ok o) : s.Owns p o := by
  cases c with
  | some c => exact owns_of_getOwnedCall h
  | none =>
      unfold getIncomingCall at h
      dsimp only at h
      cases hpop : (s.popTracked (s.queueOf p)).1 with
      | some found =>
          rw [hpop, Except.ok.injEq] at h
          exact h ▸ owns_of_popTracked (hq p) hpop
      | none =>
          rw [hpop] at h
          change (s.setQueue p _).findCall p none = .ok o at h
          obtain ⟨c, hc, howner⟩ := owns_of_findCall h
          obtain ⟨hcalls, hphones, -⟩ := s.setQueue_calls p (s.popTracked (s.queueOf p)).2
          rw [hcalls] at hc
          rw [hphones] at howner
          exact ⟨c, hc, howner⟩

/-! ## Methods -/

theorem reaches_nil : s.Reaches p [] := by
  intro e he
  cases he

theorem reaches_append {first second : List (ObjId × Method)} (hfirst : s.Reaches p first)
    (hsecond : s.Reaches p second) : s.Reaches p (first ++ second) := by
  intro e he
  rcases List.mem_append.mp he with h | h
  · exact hfirst e h
  · exact hsecond e h

/-- Methods without an argument reach their receivers only. -/
theorem reaches_each {os : List ObjId} {methods : ObjId → List Method}
    (hos : ∀ o ∈ os, s.Owns p o) (hmethods : ∀ o, ∀ m ∈ methods o, m.argument = []) :
    s.Reaches p (os.flatMap fun o => (methods o).map fun m => (o, m)) := by
  intro e he
  obtain ⟨o, ho, he⟩ := List.mem_flatMap.mp he
  obtain ⟨m, hm, rfl⟩ := List.mem_map.mp he
  refine ⟨hos o ho, ?_⟩
  intro dest hdest
  rw [hmethods o m hm] at hdest
  cases hdest

theorem reaches_isActive {os : List ObjId} (hos : ∀ o ∈ os, s.Owns p o) :
    s.Reaches p (os.map fun o => (o, .isActive)) := by
  intro e he
  obtain ⟨o, ho, rfl⟩ := List.mem_map.mp he
  refine ⟨hos o ho, ?_⟩
  intro dest hdest
  cases hdest

/-- Looking for a call asks only calls of the phone whether they are active. -/
theorem reaches_askedFor (c : Option CallId) : s.Reaches p (s.askedFor p c) := by
  cases c with
  | some c => exact reaches_nil
  | none => exact reaches_isActive fun o ho => (s.mem_callsOf_iff p o).mp (List.mem_of_mem_take ho)

theorem reaches_askedForIncoming (c : Option CallId) :
    s.Reaches p (s.askedForIncoming p c) := by
  cases c with
  | some c => exact reaches_nil
  | none =>
      unfold askedForIncoming
      split_ifs
      · exact reaches_nil
      · exact reaches_askedFor none

/-- A method called on what was found, which is the phone's own. -/
theorem reaches_invokeOn {asked : List (ObjId × Method)} {found : Except String ObjId}
    {methods : ObjId → List Method} (hasked : s.Reaches p asked)
    (hfound : ∀ o, found = .ok o → s.Owns p o)
    (hmethods : ∀ o, ∀ m ∈ methods o, m.argument = []) :
    s.Reaches p (invokeOn asked found methods) := by
  unfold invokeOn
  cases found with
  | error e => exact hasked
  | ok o =>
      have howned : ∀ i ∈ [o], s.Owns p i := by simpa using hfound o rfl
      have heach := reaches_each howned hmethods
      rw [List.flatMap_singleton] at heach
      exact reaches_append hasked heach

theorem ofPhone_of_resolved {phone : Option PhoneId} (h : s.resolvePhone phone = .ok p)
    (methods : PhoneId → List (ObjId × Method)) : s.ofPhone phone methods = methods p := by
  rw [ofPhone, h]

theorem methodsAt_argument {methods : SipCall → List Method}
    (h : ∀ call, ∀ m ∈ methods call, m.argument = []) (o : ObjId) :
    ∀ m ∈ s.methodsAt methods o, m.argument = [] := by
  unfold methodsAt
  cases s.objs[o]? with
  | none =>
      intro m hm
      cases hm
  | some call => exact h call

theorem audioMethods_argument (call : SipCall) : ∀ m ∈ call.audioMethods, m.argument = [] := by
  unfold SipCall.audioMethods
  split_ifs
  · simp [Method.argument]
  · simp

theorem recordingMethods_argument (enabled : Bool) (call : SipCall) :
    ∀ m ∈ call.recordingMethods enabled, m.argument = [] := by
  unfold SipCall.recordingMethods
  split_ifs
  · exact audioMethods_argument call
  · simp [Method.argument]
  · simp

theorem codecMethods_argument (call : SipCall) : ∀ m ∈ call.codecMethods, m.argument = [] := by
  unfold SipCall.codecMethods
  split_ifs
  · simp [Method.argument]
  · simp [Method.argument]

/-! ## Commands -/

/-- Both legs of an attended transfer are the phone's own. -/
theorem owns_of_attendedLegs {c dest : Option CallId} {legs : ObjId × ObjId}
    (h : s.attendedLegs p c dest = .ok legs) : s.Owns p legs.1 ∧ s.Owns p legs.2 := by
  unfold attendedLegs at h
  split at h
  · rename_i first second rest hactive
    split at h
    · rename_i c dest
      simp only [except_bind_eq_ok] at h
      obtain ⟨_, hsrc, _, hdest, o, ho, i, hi, hlegs⟩ := h
      cases hlegs
      exact ⟨⟨c, getCallById_eq_ok_iff.mp ho, ensureCallBelongsTo_eq_ok_iff.mp hsrc⟩,
        ⟨dest, getCallById_eq_ok_iff.mp hi, ensureCallBelongsTo_eq_ok_iff.mp hdest⟩⟩
    · cases h
      constructor
      · exact owns_of_mem_activeCallsOf (by simp [hactive])
      · exact owns_of_mem_activeCallsOf (by simp [hactive])
  · cases h

/-- A request speaks for one phone. -/
theorem eq_of_scope {phone : Option PhoneId} {q : PhoneId}
    (hp : (s.resolvePhone phone).toOption = some p) (hq : s.resolvePhone phone = .ok q) :
    q = p := by
  rw [hq] at hp
  exact Option.some.inj hp

theorem reaches_commands {o : ObjId} (ho : s.Owns p o) {cmds : List Command}
    (hcmds : ∀ cmd ∈ cmds, (Method.command cmd).argument = []) :
    s.Reaches p ((cmds.map fun cmd => (o, cmd)).map fun e => (e.1, Method.command e.2)) := by
  rw [List.map_map]
  intro e he
  obtain ⟨cmd, hcmd, rfl⟩ := List.mem_map.mp he
  refine ⟨ho, ?_⟩
  intro dest hdest
  change dest ∈ (Method.command cmd).argument at hdest
  rw [hcmds cmd hcmd] at hdest
  cases hdest

/-- Looking up one call of the resolved phone and sending it commands. -/
theorem reaches_found {phone : Option PhoneId} {find : PhoneId → Except String ObjId}
    {send : ObjId → List Command} {cmds : List (ObjId × Command)}
    (hscope : (s.resolvePhone phone).toOption = some p)
    (hfind : ∀ o, find p = .ok o → s.Owns p o)
    (hsend : ∀ o, ∀ cmd ∈ send o, (Method.command cmd).argument = [])
    (h : (do
      let q ← s.resolvePhone phone
      let o ← find q
      return (send o).map fun cmd => (o, cmd)) = .ok cmds) :
    s.Reaches p (cmds.map fun e => (e.1, .command e.2)) := by
  obtain ⟨q, hq, h⟩ := except_bind_eq_ok.mp h
  obtain ⟨o, ho, h⟩ := except_bind_eq_ok.mp h
  cases h
  rw [eq_of_scope hscope hq] at ho
  exact reaches_commands (hfind o ho) (hsend o)

/-- A leg of another phone is refused. -/
theorem attendedLegs_ne_ok {phone : Option PhoneId} {c dest : Option CallId} {i : CallId}
    (hi : i ∈ (CallOp.attendedTransfer phone c dest).explicitIds)
    (h : s.callPhone.get? i ≠ some p) {legs : ObjId × ObjId} :
    s.attendedLegs p c dest ≠ .ok legs := by
  intro hlegs
  cases c with
  | none => cases hi
  | some c =>
      cases dest with
      | none => cases hi
      | some dest =>
          unfold attendedLegs at hlegs
          split at hlegs
          · simp only [except_bind_eq_ok] at hlegs
            obtain ⟨_, hsrc, _, hdest, -⟩ := hlegs
            rcases List.mem_pair.mp hi with rfl | rfl
            · exact h (ensureCallBelongsTo_eq_ok_iff.mp hsrc)
            · exact h (ensureCallBelongsTo_eq_ok_iff.mp hdest)
          · cases hlegs

/-- The commands of an operation go to calls of the phone that it is invoked for. -/
theorem reaches_commandsOf {op : CallOp} (hscope : op.scope s = some p)
    {cmds : List (ObjId × Command)} (h : op.commands s = .ok cmds) :
    s.Reaches p (cmds.map fun e => (e.1, .command e.2)) := by
  have hplain : ∀ {cmd : Command}, (Method.command cmd).argument = [] → ∀ _ : ObjId,
      ∀ other ∈ [cmd], (Method.command other).argument = [] := by
    intro cmd hcmd _ other hother
    rw [List.mem_singleton.mp hother, hcmd]
  cases op with
  | hangupAll phone =>
      cases hscope
      cases h
      rw [List.map_map]
      intro e he
      obtain ⟨o, ho, rfl⟩ := List.mem_map.mp he
      refine ⟨owns_of_mem_activeCallsOf ho, ?_⟩
      intro dest hdest
      cases hdest
  | attendedTransfer phone c dest =>
      obtain ⟨q, hq, h⟩ := except_bind_eq_ok.mp h
      obtain ⟨legs, hlegs, h⟩ := except_bind_eq_ok.mp h
      cases h
      rw [eq_of_scope hscope hq] at hlegs
      obtain ⟨hsrc, hdest⟩ := owns_of_attendedLegs hlegs
      intro e he
      rw [List.map_singleton, List.mem_singleton] at he
      rw [he]
      refine ⟨hsrc, ?_⟩
      intro i hi
      rw [List.mem_singleton.mp hi]
      exact hdest
  | hangup phone c =>
      exact reaches_found hscope (fun o => owns_of_findCall) (hplain (by rfl)) h
  | blindTransfer destUri phone c =>
      exact reaches_found hscope (fun o => owns_of_findCall) (hplain (by rfl)) h
  | hold c phone =>
      exact reaches_found hscope (fun o => owns_of_getOwnedCall) (hplain (by rfl)) h
  | unhold c phone =>
      exact reaches_found hscope (fun o => owns_of_getOwnedCall) (hplain (by rfl)) h
  | sendDtmf c digits phone =>
      obtain ⟨q, hq, h⟩ := except_bind_eq_ok.mp h
      obtain ⟨o, ho, h⟩ := except_bind_eq_ok.mp h
      cases h
      rw [eq_of_scope hscope hq] at ho
      have hdigits : ∀ cmd ∈ digits.toList.map Command.dialDtmf,
          (Method.command cmd).argument = [] := by
        intro cmd hcmd
        obtain ⟨digit, -, rfl⟩ := List.mem_map.mp hcmd
        rfl
      have hmap : (digits.toList.map fun digit => (o, Command.dialDtmf digit)) =
          (digits.toList.map Command.dialDtmf).map fun cmd => (o, cmd) := by
        rw [List.map_map]
        rfl
      rw [hmap]
      exact reaches_commands (owns_of_getOwnedCall ho) hdigits

/-- Whatever a call tool asks, it asks calls of its own phone. -/
theorem reaches_asked {op : CallOp} (hscope : op.scope s = some p) :
    s.Reaches p (op.asked s) := by
  have hone : ∀ {phone : Option PhoneId} {c : Option CallId},
      (s.resolvePhone phone).toOption = some p →
      s.Reaches p (s.ofPhone phone fun q => s.askedFor q c) := by
    intro phone c hphone
    unfold ofPhone
    cases hq : s.resolvePhone phone with
    | error e => exact reaches_nil
    | ok q =>
        rw [eq_of_scope hphone hq]
        exact reaches_askedFor c
  have hall : s.Reaches p ((s.callsOf p).map fun o => (o, .isActive)) :=
    reaches_isActive fun o ho => (s.mem_callsOf_iff p o).mp ho
  cases op with
  | hangup phone c => exact hone hscope
  | blindTransfer destUri phone c => exact hone hscope
  | hangupAll phone =>
      cases hscope
      exact hall
  | attendedTransfer phone c dest =>
      change s.Reaches p (s.ofPhone phone _)
      unfold ofPhone
      cases hq : s.resolvePhone phone with
      | error e => exact reaches_nil
      | ok q =>
          rw [eq_of_scope hscope hq]
          exact hall
  | hold c phone => exact reaches_nil
  | unhold c phone => exact reaches_nil
  | sendDtmf c digits phone => exact reaches_nil

/-! ## Conferences -/

/-- A conference that is admitted has participants of the phone only. -/
theorem owner_of_ensureAll {callIds : List CallId} (h : s.ensureAll p callIds = .ok ()) :
    ∀ c ∈ callIds, s.callPhone.get? c = some p := by
  induction callIds with
  | nil =>
      intro c hc
      cases hc
  | cons first rest ih =>
      rw [ensureAll] at h
      cases hfirst : s.ensureCallBelongsTo p first with
      | error e =>
          rw [hfirst] at h
          cases h
      | ok =>
          rw [hfirst] at h
          intro c hc
          rcases List.mem_cons.mp hc with rfl | hrest
          · exact ensureCallBelongsTo_eq_ok_iff.mp hfirst
          · exact ih h c hrest

/-- One participant of another phone refuses the whole conference. -/
theorem ensureAll_error {callIds : List CallId} {c : CallId} (hc : c ∈ callIds)
    (h : s.callPhone.get? c ≠ some p) : ∃ e, s.ensureAll p callIds = .error e := by
  cases hall : s.ensureAll p callIds with
  | error e => exact ⟨e, rfl⟩
  | ok => exact (h (owner_of_ensureAll hall c hc)).elim

theorem tracked_of_getAll {callIds : List CallId} {os : List ObjId}
    (h : s.getAll callIds = .ok os) :
    ∀ o ∈ os, ∃ c ∈ callIds, s.calls.get? c = some o := by
  induction callIds generalizing os with
  | nil =>
      cases h
      intro o ho
      cases ho
  | cons first rest ih =>
      rw [getAll] at h
      cases hfirst : s.getCallById first with
      | error e =>
          rw [hfirst] at h
          cases h
      | ok found =>
          rw [hfirst] at h
          cases hrest : s.getAll rest with
          | error e =>
              rw [hrest] at h
              cases h
          | ok others =>
              rw [hrest] at h
              cases h
              intro o ho
              rcases List.mem_cons.mp ho with rfl | hother
              · exact ⟨first, List.mem_cons_self, getCallById_eq_ok_iff.mp hfirst⟩
              · obtain ⟨c, hc, hget⟩ := ih hrest o hother
                exact ⟨c, List.mem_cons_of_mem first hc, hget⟩

/-- The participants of a conference are the phone's own. -/
theorem owns_of_conferenceCalls {phone : Option PhoneId} {callIds : List CallId}
    {ports : List ObjId} (hphone : s.resolvePhone phone = .ok p)
    (h : s.conferenceCalls phone callIds = .ok ports) : ∀ o ∈ ports, s.Owns p o := by
  obtain ⟨q, hq, h⟩ := except_bind_eq_ok.mp h
  rw [hphone, Except.ok.injEq] at hq
  subst hq
  obtain ⟨_, howned, h⟩ := except_bind_eq_ok.mp h
  obtain ⟨os, hos, h⟩ := except_bind_eq_ok.mp h
  dsimp only at h
  split_ifs at h
  cases h
  intro o ho
  obtain ⟨c, hc, hget⟩ := tracked_of_getAll hos o (List.mem_of_mem_filter ho)
  exact ⟨c, hget, owner_of_ensureAll howned c hc⟩

/-- What was found for an answer or a rejection. -/
theorem owns_of_sendTo (hq : s.QueuesOwned) {c : Option CallId} {cmd : Command} {o : ObjId}
    (h : (sendTo (s.getIncomingCall p c) cmd).1 = .ok o) : s.Owns p o := by
  unfold sendTo at h
  cases hfound : (s.getIncomingCall p c).1 with
  | error e =>
      rw [hfound] at h
      cases h
  | ok found =>
      rw [hfound, Except.ok.injEq] at h
      exact h ▸ owns_of_getIncomingCall hq hfound

end Sys

/-! ## Every operation -/

namespace PhoneOp

variable {s : Sys} {p : PhoneId}

theorem resolved_of_scope {phone : Option PhoneId} (h : (s.resolvePhone phone).toOption = some p) :
    s.resolvePhone phone = .ok p := by
  cases hq : s.resolvePhone phone with
  | error e =>
      rw [hq] at h
      cases h
  | ok q => rw [Sys.eq_of_scope h hq]

/-- With owned queues an operation reaches calls of its own phone only. -/
theorem run_reaches (hq : s.QueuesOwned) {op : PhoneOp} (hscope : op.scope s = some p) :
    s.Reaches p (op.run s).methods := by
  cases op with
  | answerCall phone c statusCode =>
      have hp := resolved_of_scope hscope
      simp only [run, Sys.ofPhone_of_resolved hp, Sys.answerCall, Sys.actOnIncoming, hp]
      refine Sys.reaches_invokeOn (Sys.reaches_askedForIncoming c) ?_ ?_
      · intro o ho
        exact Sys.owns_of_sendTo hq ho
      · simp [Method.argument]
  | rejectCall phone c statusCode =>
      have hp := resolved_of_scope hscope
      simp only [run, Sys.ofPhone_of_resolved hp, Sys.rejectCall, Sys.actOnIncoming, hp]
      refine Sys.reaches_invokeOn (Sys.reaches_askedForIncoming c) ?_ ?_
      · intro o ho
        exact Sys.owns_of_sendTo hq ho
      · simp [Method.argument]
  | callOp op =>
      refine Sys.reaches_append (Sys.reaches_asked hscope) ?_
      unfold Sys.CallOp.sent
      cases hcmds : op.commands s with
      | error e => exact Sys.reaches_nil
      | ok cmds => exact Sys.reaches_commandsOf hscope hcmds
  | getCallInfo phone c =>
      have hp := resolved_of_scope hscope
      simp only [run, Sys.ofPhone_of_resolved hp, Sys.lookup, hp]
      refine Sys.reaches_invokeOn (Sys.reaches_askedFor c) (fun o => Sys.owns_of_findCall) ?_
      simp [Method.argument]
  | playAudio filePath phone c opened =>
      have hp := resolved_of_scope hscope
      simp only [run, Sys.ofPhone_of_resolved hp, Sys.lookup, hp]
      exact Sys.reaches_invokeOn (Sys.reaches_askedFor c) (fun o => Sys.owns_of_findCall)
        (Sys.methodsAt_argument Sys.audioMethods_argument)
  | stopAudio phone c mohExists opened =>
      have hp := resolved_of_scope hscope
      simp only [run, Sys.ofPhone_of_resolved hp, Sys.lookup, hp]
      exact Sys.reaches_invokeOn (Sys.reaches_askedFor c) (fun o => Sys.owns_of_findCall)
        (Sys.methodsAt_argument Sys.audioMethods_argument)
  | conference callIds phone =>
      have hp := resolved_of_scope hscope
      change s.Reaches p (Sys.bridge (s.conferenceCalls phone callIds))
      cases hports : s.conferenceCalls phone callIds with
      | error e => exact Sys.reaches_nil
      | ok ports =>
          intro e he
          obtain ⟨o, ho, rfl⟩ := List.mem_map.mp he
          refine ⟨Sys.owns_of_conferenceCalls hp hports o ho, ?_⟩
          intro dest hdest
          cases hdest
  | setRecordingEnabled q enabled rec env =>
      obtain rfl : q = p := Option.some.inj hscope
      exact Sys.reaches_each (fun o ho => (s.mem_callsOf_iff _ o).mp ho)
        (Sys.methodsAt_argument (Sys.recordingMethods_argument enabled))
  | setCodecsForPhone q codecs =>
      obtain rfl : q = p := Option.some.inj hscope
      exact Sys.reaches_each (fun o ho => (s.mem_callsOf_iff _ o).mp ho)
        (Sys.methodsAt_argument Sys.codecMethods_argument)

/-- The operation raises; it has asked which calls are active at most, and has changed nothing. -/
structure Refused (s : Sys) (outcome : Outcome) : Prop where
  raised : outcome.raised ≠ none
  silent : ∀ e ∈ outcome.methods, e.2 = .isActive
  state : outcome.state = s

/-- A tool that names the call of another phone sends nothing. -/
theorem commands_error {op : Sys.CallOp} (hscope : op.scope s = some p) {c : CallId}
    (hc : c ∈ op.explicitIds) (h : s.callPhone.get? c ≠ some p) :
    (∃ e, op.commands s = .error e) ∧ ∀ e ∈ op.asked s, e.2 = .isActive := by
  obtain ⟨error, herror⟩ := Sys.getOwnedCall_error h
  have hid : ∀ {c' : Option CallId}, c ∈ c'.toList → c' = some c := by
    intro c' hc'
    exact Option.mem_toList.mp hc'
  have hfind : ∀ {c' : Option CallId}, c ∈ c'.toList → s.findCall p c' = .error error := by
    intro c' hc'
    rw [hid hc']
    exact herror
  cases op with
  | hangupAll phone => cases hc
  | hangup phone c' =>
      have hp := resolved_of_scope hscope
      refine ⟨⟨error, ?_⟩, ?_⟩
      · simp [Sys.CallOp.commands, hp, hfind hc, bind, Except.bind]
      · simp [Sys.CallOp.asked, Sys.ofPhone_of_resolved hp, hid hc, Sys.askedFor]
  | blindTransfer destUri phone c' =>
      have hp := resolved_of_scope hscope
      refine ⟨⟨error, ?_⟩, ?_⟩
      · simp [Sys.CallOp.commands, hp, hfind hc, bind, Except.bind]
      · simp [Sys.CallOp.asked, Sys.ofPhone_of_resolved hp, hid hc, Sys.askedFor]
  | attendedTransfer phone c' dest =>
      have hp := resolved_of_scope hscope
      constructor
      · cases hlegs : s.attendedLegs p c' dest with
        | error e => exact ⟨e, by simp [Sys.CallOp.commands, hp, hlegs, bind, Except.bind]⟩
        | ok legs => exact (Sys.attendedLegs_ne_ok hc h hlegs).elim
      · simp [Sys.CallOp.asked, Sys.ofPhone_of_resolved hp]
  | hold c' phone =>
      have hp := resolved_of_scope hscope
      obtain rfl : c = c' := List.mem_singleton.mp hc
      refine ⟨⟨error, ?_⟩, ?_⟩
      · simp [Sys.CallOp.commands, hp, herror, bind, Except.bind]
      · simp [Sys.CallOp.asked]
  | unhold c' phone =>
      have hp := resolved_of_scope hscope
      obtain rfl : c = c' := List.mem_singleton.mp hc
      refine ⟨⟨error, ?_⟩, ?_⟩
      · simp [Sys.CallOp.commands, hp, herror, bind, Except.bind]
      · simp [Sys.CallOp.asked]
  | sendDtmf c' digits phone =>
      have hp := resolved_of_scope hscope
      obtain rfl : c = c' := List.mem_singleton.mp hc
      refine ⟨⟨error, ?_⟩, ?_⟩
      · simp [Sys.CallOp.commands, hp, herror, bind, Except.bind]
      · simp [Sys.CallOp.asked]

/-- A tool that looks a call up passes the refusal on. -/
theorem lookup_error {phone : Option PhoneId} {c : CallId} {error : String}
    (hp : s.resolvePhone phone = .ok p) (h : s.getOwnedCall p c = .error error) :
    s.lookup phone (some c) = .error error := by
  rw [Sys.lookup, hp]
  exact h

/-- An answer or a rejection of another phone's call changes nothing. -/
theorem actOnIncoming_error {phone : Option PhoneId} {c : CallId} {error : String}
    (hp : s.resolvePhone phone = .ok p) (h : s.getOwnedCall p c = .error error) (cmd : Command) :
    s.actOnIncoming phone (some c) cmd = (.error error, s) := by
  simp [Sys.actOnIncoming, hp, Sys.getIncomingCall, h, Sys.sendTo]

/-- Given an id that is not the phone's own, an operation is refused. -/
theorem run_refused {op : PhoneOp} (hscope : op.scope s = some p) {c : CallId}
    (hc : c ∈ op.explicitIds) (h : s.callPhone.get? c ≠ some p) : Refused s (op.run s) := by
  obtain ⟨error, herror⟩ := Sys.getOwnedCall_error h
  cases op with
  | answerCall phone c' statusCode =>
      have hp := resolved_of_scope hscope
      obtain rfl : c' = some c := Option.mem_toList.mp hc
      have hfailed : s.answerCall phone (some c) statusCode = (.error error, s) :=
        actOnIncoming_error hp herror (.answer statusCode)
      simp only [run, hfailed, Sys.ofPhone_of_resolved hp]
      exact ⟨Option.some_ne_none _, by simp [Sys.invokeOn, Sys.askedForIncoming], rfl⟩
  | rejectCall phone c' statusCode =>
      have hp := resolved_of_scope hscope
      obtain rfl : c' = some c := Option.mem_toList.mp hc
      have hfailed : s.rejectCall phone (some c) statusCode = (.error error, s) :=
        actOnIncoming_error hp herror (.hangup statusCode)
      simp only [run, hfailed, Sys.ofPhone_of_resolved hp]
      exact ⟨Option.some_ne_none _, by simp [Sys.invokeOn, Sys.askedForIncoming], rfl⟩
  | callOp op =>
      obtain ⟨⟨e, he⟩, hasked⟩ := commands_error hscope hc h
      constructor
      · simp [run, he, Sys.errorOf]
      · simpa [run, Sys.CallOp.sent, he] using hasked
      · simp [run, Sys.callOp, he]
  | getCallInfo phone c' =>
      have hp := resolved_of_scope hscope
      obtain rfl : c' = some c := Option.mem_toList.mp hc
      simp only [run, lookup_error hp herror, Sys.ofPhone_of_resolved hp]
      exact ⟨Option.some_ne_none _, by simp [Sys.invokeOn, Sys.askedFor], rfl⟩
  | playAudio filePath phone c' opened =>
      have hp := resolved_of_scope hscope
      obtain rfl : c' = some c := Option.mem_toList.mp hc
      simp only [run, lookup_error hp herror, Sys.ofPhone_of_resolved hp]
      exact ⟨Option.some_ne_none _, by simp [Sys.invokeOn, Sys.askedFor], rfl⟩
  | stopAudio phone c' mohExists opened =>
      have hp := resolved_of_scope hscope
      obtain rfl : c' = some c := Option.mem_toList.mp hc
      simp only [run, lookup_error hp herror, Sys.ofPhone_of_resolved hp]
      exact ⟨Option.some_ne_none _, by simp [Sys.invokeOn, Sys.askedFor], rfl⟩
  | conference callIds phone =>
      have hp := resolved_of_scope hscope
      obtain ⟨e, he⟩ : ∃ e, s.ensureAll p callIds = .error e := Sys.ensureAll_error hc h
      have hfailed : s.conferenceCalls phone callIds = .error e := by
        simp [Sys.conferenceCalls, hp, he, bind, Except.bind]
      simp only [run, hfailed]
      exact ⟨Option.some_ne_none _, by simp [Sys.bridge], rfl⟩
  | setRecordingEnabled q enabled rec env => cases hc
  | setCodecsForPhone q codecs => cases hc

end PhoneOp

end PjsuaMcp.Calls
