import PjsuaMcp.Calls.OwnCalls
import PjsuaMcp.Scenario.ActionExecutor

/-!
# Attended transfers

An attended transfer is given up to two call ids, directly or as arguments of a
scenario action. `Honours` says that the ids that were given are the legs of the
transfer that is sent. The action hands other ids on than it is given: it
inherits the call of the event, and takes the id 0 for a missing one.

## Implementation notes

`outcomeOn` runs a handler with the call manager in a given state. The recorder
answers every operation; a handler that is told of an exception raises it.
-/

namespace PjsuaMcp.Scenario

open Library Calls

/-! ## Arguments -/

/-- An integer argument; `None` and a missing one are the same. -/
def idArg : Value → Option CallId
  | .int c => some c
  | _ => none

def phoneArg : Value → Option PhoneId
  | .str p => some (String.ofList p)
  | _ => none

/-- The ids of the leg that is transferred and of the leg that is replaced. -/
structure LegIds where
  callId : Option CallId
  destCallId : Option CallId
  deriving DecidableEq, Repr

/-- The ids among the arguments of the action; `target_call_id` is another word for
`dest_call_id`. -/
def givenIds (args : Dict) : LegIds where
  callId := idArg (args.get "call_id")
  destCallId := (idArg (args.get "dest_call_id")).or (idArg (args.get "target_call_id"))

/-- The ids that reach the manager: a missing `call_id` is the one of the event, and 0 does not
count as a `dest_call_id`. -/
def arrivingIds (args : Dict) (event : Event) : LegIds where
  callId :=
    if (args.get? "call_id").isSome then idArg (args.get "call_id") else idArg event.callId
  destCallId :=
    if idArg (args.get "dest_call_id") = some 0 then idArg (args.get "target_call_id")
    else (idArg (args.get "dest_call_id")).or (idArg (args.get "target_call_id"))

/-- The ids of the action and of its event are integers or `None`, the phones texts or `None`. -/
structure TypedIds (args : Dict) (event : Event) : Prop where
  id : ∀ v ∈ [args.get "call_id", args.get "dest_call_id", args.get "target_call_id",
    event.callId], v = .null ∨ ∃ c, v = .int c
  phone : ∀ v ∈ [args.get "phone_id", event.phoneId], v = .null ∨ ∃ p, v = .str p

/-! ## Outcomes -/

/-- What `attended_transfer` raises or sends. -/
def attendedOutcome (s : Sys) (phone : Option PhoneId) (ids : LegIds) :
    Except String Unit × List (ObjId × Command) :=
  match Sys.CallOp.commands s (.attendedTransfer phone ids.callId ids.destCallId) with
  | .error e => (.error e, [])
  | .ok cmds => (.ok (), cmds)

/-- What a coroutine ends with, and the commands that its transfers send. -/
def outcomeOn (s : Sys) : Coro Unit → Except Exn Unit × List (ObjId × Command)
  | .pure u => (.ok u, [])
  | .raise exn => (.error exn, [])
  | .call (.runPj (.attendedTransfer phone c dest)) k =>
      match attendedOutcome s (phoneArg phone) ⟨idArg c, idArg dest⟩ with
      | (.error e, sent) =>
          let rest := outcomeOn s (k (.error (.external e.toList)))
          (rest.1, sent ++ rest.2)
      | (.ok _, sent) =>
          let rest := outcomeOn s (k (.ok .null))
          (rest.1, sent ++ rest.2)
  | .call _ k => outcomeOn s (k (.ok .null))

/-- The given ids lie on these legs. -/
def LegIds.On (ids : LegIds) (s : Sys) (legs : ObjId × ObjId) : Prop :=
  (∀ c, ids.callId = some c → s.calls.get? c = some legs.1) ∧
    ∀ c, ids.destCallId = some c → s.calls.get? c = some legs.2

/-- One transfer is sent, on the legs that were given; or an exception is raised and nothing
sent. -/
def Honours {ε : Type} (s : Sys) (given : LegIds) :
    Except ε Unit × List (ObjId × Command) → Prop
  | (.error _, sent) => sent = []
  | (.ok _, sent) => ∃ legs : ObjId × ObjId,
      sent = [(legs.1, .xferReplaces legs.2)] ∧ given.On s legs

/-- The given ids survive: with two active calls, either both legs arrive and are the given ones
unless they are refused, or the first two active calls are the given ones. -/
def Survives (s : Sys) (phone : Option PhoneId) (given arriving : LegIds) : Prop :=
  ∀ p first second rest, s.resolvePhone phone = .ok p →
    s.activeCallsOf p = first :: second :: rest →
    match arriving.callId, arriving.destCallId with
    | some c, some dest => ∀ src dst, s.getOwnedCall p c = .ok src →
        s.getOwnedCall p dest = .ok dst → given.On s (src, dst)
    | _, _ => given.On s (first, second)

/-! ## The operation of the manager -/

theorem attendedLegs_eq_ok_iff {s : Sys} {p : PhoneId} {first second : ObjId} {rest : List ObjId}
    (hactive : s.activeCallsOf p = first :: second :: rest) (c dest : Option CallId)
    (legs : ObjId × ObjId) :
    s.attendedLegs p c dest = .ok legs ↔
      match c, dest with
      | some c, some dest => s.getOwnedCall p c = .ok legs.1 ∧ s.getOwnedCall p dest = .ok legs.2
      | _, _ => (first, second) = legs := by
  unfold Sys.attendedLegs
  rw [hactive]
  cases c with
  | none => simp
  | some c =>
      cases dest with
      | none => simp
      | some dest =>
          simp only [except_bind_eq_ok, Sys.getOwnedCall_eq_ok_iff, Sys.getCallById_eq_ok_iff]
          constructor
          · rintro ⟨_, hsrc, _, hdest, src, ho, dst, hi, hlegs⟩
            cases hlegs
            exact ⟨⟨Sys.ensureCallBelongsTo_eq_ok_iff.mp hsrc, ho⟩,
              Sys.ensureCallBelongsTo_eq_ok_iff.mp hdest, hi⟩
          · rintro ⟨⟨hsrc, ho⟩, hdest, hi⟩
            exact ⟨(), Sys.ensureCallBelongsTo_eq_ok_iff.mpr hsrc, (),
              Sys.ensureCallBelongsTo_eq_ok_iff.mpr hdest, legs.1, ho, legs.2, hi, rfl⟩

theorem attendedTransfer_eq_ok_iff {s : Sys} {phone : Option PhoneId} {c dest : Option CallId}
    {cmds : List (ObjId × Command)} :
    Sys.CallOp.commands s (.attendedTransfer phone c dest) = .ok cmds ↔
      ∃ p legs, s.resolvePhone phone = .ok p ∧ s.attendedLegs p c dest = .ok legs ∧
        [(legs.1, .xferReplaces legs.2)] = cmds := by
  simp only [Sys.CallOp.commands, except_bind_eq_ok, pure, Except.pure, Except.ok.injEq]
  constructor
  · rintro ⟨p, hp, legs, hlegs, hcmds⟩
    exact ⟨p, legs, hp, hlegs, hcmds⟩
  · rintro ⟨p, legs, hp, hlegs, hcmds⟩
    exact ⟨p, hp, legs, hlegs, hcmds⟩

/-- The transfer raises, or is sent on the legs that were found. -/
theorem honours_iff_legs {s : Sys} {phone : Option PhoneId} {given arriving : LegIds} :
    Honours s given (attendedOutcome s phone arriving) ↔
      ∀ p legs, s.resolvePhone phone = .ok p →
        s.attendedLegs p arriving.callId arriving.destCallId = .ok legs → given.On s legs := by
  unfold attendedOutcome
  cases hcmds : Sys.CallOp.commands s
      (.attendedTransfer phone arriving.callId arriving.destCallId) with
  | error e =>
      refine iff_of_true rfl fun p legs hp hlegs => ?_
      rw [attendedTransfer_eq_ok_iff.mpr ⟨p, legs, hp, hlegs, rfl⟩] at hcmds
      cases hcmds
  | ok cmds =>
      obtain ⟨p, legs, hp, hlegs, rfl⟩ := attendedTransfer_eq_ok_iff.mp hcmds
      constructor
      · rintro ⟨legs', hsent, hon⟩ p' other hp' hother
        rw [hp, Except.ok.injEq] at hp'
        subst hp'
        rw [hlegs, Except.ok.injEq] at hother
        subst hother
        simp only [List.cons.injEq, Prod.mk.injEq, Command.xferReplaces.injEq, and_true] at hsent
        rw [Prod.ext hsent.1 hsent.2]
        exact hon
      · exact fun hon => ⟨legs, rfl, hon p legs hp hlegs⟩

theorem survives_iff_legs {s : Sys} {phone : Option PhoneId} {given arriving : LegIds} :
    Survives s phone given arriving ↔
      ∀ p legs, s.resolvePhone phone = .ok p →
        s.attendedLegs p arriving.callId arriving.destCallId = .ok legs → given.On s legs := by
  constructor
  · intro h p legs hp hlegs
    cases hactive : s.activeCallsOf p with
    | nil => simp [Sys.attendedLegs, hactive] at hlegs
    | cons first rest =>
        cases rest with
        | nil => simp [Sys.attendedLegs, hactive] at hlegs
        | cons second rest =>
            have hone := h p first second rest hp hactive
            rw [attendedLegs_eq_ok_iff hactive] at hlegs
            revert hlegs hone
            cases arriving.callId with
            | none => exact fun hlegs hone => hlegs ▸ hone
            | some c =>
                cases arriving.destCallId with
                | none => exact fun hlegs hone => hlegs ▸ hone
                | some dest => exact fun hlegs hone => hone legs.1 legs.2 hlegs.1 hlegs.2
  · intro h p first second rest hp hactive
    have hone := fun legs => h p legs hp
    simp only [attendedLegs_eq_ok_iff hactive] at hone
    revert hone
    cases arriving.callId with
    | none => exact fun hone => hone _ rfl
    | some c =>
        cases arriving.destCallId with
        | none => exact fun hone => hone _ rfl
        | some dest => exact fun hone src dst hsrc hdst => hone (src, dst) ⟨hsrc, hdst⟩

theorem honours_iff_survives {s : Sys} {phone : Option PhoneId} {given arriving : LegIds} :
    Honours s given (attendedOutcome s phone arriving) ↔ Survives s phone given arriving :=
  honours_iff_legs.trans survives_iff_legs.symm

/-- Ids that arrive as they were given survive when both were given, or when the ones given are
those of the first two active calls. -/
theorem survives_self_iff {s : Sys} {phone : Option PhoneId} {ids : LegIds} :
    Survives s phone ids ids ↔
      ∀ p first second rest, s.resolvePhone phone = .ok p →
        s.activeCallsOf p = first :: second :: rest →
        (ids.callId.isSome = true ∧ ids.destCallId.isSome = true) ∨ ids.On s (first, second) := by
  unfold Survives
  refine forall_congr' fun p => forall_congr' fun first => forall_congr' fun second =>
    forall_congr' fun rest => forall_congr' fun _ => forall_congr' fun _ => ?_
  obtain ⟨c, dest⟩ := ids
  cases c with
  | none => simp
  | some c =>
      cases dest with
      | none => simp
      | some dest =>
          simp only [Option.isSome_some, and_self, true_or, iff_true]
          intro src dst hsrc hdst
          refine ⟨fun i hi => ?_, fun i hi => ?_⟩
          · cases hi
            exact (Sys.getOwnedCall_eq_ok_iff.mp hsrc).2
          · cases hi
            exact (Sys.getOwnedCall_eq_ok_iff.mp hdst).2

/-! ## The scenario action -/

/-- Under `or`, the id 0 is missing. -/
theorem idArg_or {v w : Value} (hv : v = .null ∨ ∃ c, v = .int c) :
    idArg (v.or w) = if idArg v = some 0 then idArg w else (idArg v).or (idArg w) := by
  rcases hv with rfl | ⟨c, rfl⟩
  · rfl
  · by_cases hc : c = 0
    · subst hc
      rfl
    · simp [Value.or, Value.truthy, idArg, hc]

theorem dispatch_attendedTransfer (py : PyText) (engine : Bool) :
    (dispatch py engine).find? (fun entry => entry.1.toList = "attended_transfer".toList) =
      some ("attended_transfer", aAttendedTransfer) :=
  find?_dispatch (List.mem_of_getElem? (i := 8) rfl)

/-- The handler records the transfer and then makes it; what the manager raises it raises. -/
theorem outcomeOn_aAttendedTransfer (s : Sys) (i : HandlerInput) (note : Dict) :
    outcomeOn s ((aAttendedTransfer i).tryCatch fun exn => do
        .perform (.recordMeta "action.failed" note (some exn))
        .raise exn) =
      match attendedOutcome s (phoneArg i.phoneId)
          ⟨idArg i.callId, idArg (i.firstOf ["dest_call_id", "target_call_id"])⟩ with
      | (.error e, sent) => (.error (.external e.toList), sent)
      | (.ok u, sent) => (.ok u, sent) := by
  change outcomeOn s (.call (.runPj (.attendedTransfer i.phoneId i.callId
    (i.firstOf ["dest_call_id", "target_call_id"]))) fun answer => _) = _
  rw [outcomeOn]
  obtain ⟨result, sent⟩ := attendedOutcome s (phoneArg i.phoneId)
    ⟨idArg i.callId, idArg (i.firstOf ["dest_call_id", "target_call_id"])⟩
  cases result with
  | error e => exact Prod.ext rfl (List.append_nil sent)
  | ok u => exact Prod.ext rfl (List.append_nil sent)

/-- The action honours what it is given as the manager does for the ids that arrive there. -/
theorem honours_executeOne {py : PyText} {engine : Bool} {hook : Hook} {event : Event}
    {spec : Value} {args : Dict}
    (hspec : normalizeAction py spec = .ok ("attended_transfer".toList, args))
    (ids : TypedIds args event) (s : Sys) (given : LegIds) :
    Honours s given (outcomeOn s (executeOne py engine hook event spec)) ↔
      Honours s given (attendedOutcome s
        (phoneArg ((inherited args hook event).get "phone_id")) (arrivingIds args event)) := by
  let i : HandlerInput := ⟨inherited args hook event, hook, event⟩
  have hdest : i.firstOf ["dest_call_id", "target_call_id"] =
      (args.get "dest_call_id").or (args.get "target_call_id") := by
    change ((inherited args hook event).get _).or ((inherited args hook event).get _) = _
    rw [get_inherited_of_ne hook event (by decide) (by decide),
      get_inherited_of_ne hook event (by decide) (by decide)]
  have harriving : (⟨idArg i.callId, idArg (i.firstOf ["dest_call_id", "target_call_id"])⟩ :
      LegIds) = arrivingIds args event := by
    rw [hdest, idArg_or (ids.id _ (by simp)), HandlerInput.callId,
      get_inherited_callId, apply_ite idArg]
    rfl
  have hrun : outcomeOn s (executeOne py engine hook event spec) =
      match attendedOutcome s (phoneArg i.phoneId) (arrivingIds args event) with
      | (.error e, sent) => (.error (.external e.toList), sent)
      | (.ok u, sent) => (.ok u, sent) := by
    rw [← harriving, ← outcomeOn_aAttendedTransfer s i
      [("name".toList, .str "attended_transfer".toList), ("args".toList, .dict i.args)]]
    unfold executeOne
    simp only [hspec, dispatch_attendedTransfer]
    rfl
  rw [hrun]
  change _ ↔ Honours s given (attendedOutcome s (phoneArg i.phoneId) _)
  obtain ⟨result, sent⟩ := attendedOutcome s (phoneArg i.phoneId) (arrivingIds args event)
  cases result with
  | error e => rfl
  | ok u => rfl

/-- The caller's ids are the legs of an attended transfer, or it raises and sends nothing, exactly
when they survive: made directly, both ids given or those given are the first two active calls;
by an action, the ids that arrive are the given ones or lie on the same legs. -/
theorem attendedTransfer_honours_iff (s : Sys) :
    (∀ phone ids, Honours s ids (attendedOutcome s phone ids) ↔
      ∀ p first second rest, s.resolvePhone phone = .ok p →
        s.activeCallsOf p = first :: second :: rest →
        (ids.callId.isSome = true ∧ ids.destCallId.isSome = true) ∨ ids.On s (first, second)) ∧
    ∀ py engine hook event spec args,
      normalizeAction py spec = .ok ("attended_transfer".toList, args) → TypedIds args event →
      (Honours s (givenIds args) (outcomeOn s (executeOne py engine hook event spec)) ↔
        Survives s (phoneArg ((inherited args hook event).get "phone_id")) (givenIds args)
          (arrivingIds args event)) :=
  ⟨fun _ _ => honours_iff_survives.trans survives_self_iff,
    fun _ _ _ _ _ _ hspec ids => (honours_executeOne hspec ids s _).trans honours_iff_survives⟩

/-- One phone with three calls. -/
def threeCalls : Sys := server.run .initial
  [.addPhone "alice" { domain := "example.org" } ⟨some 1, true⟩,
   .incomingCall "alice" 0 (some (.plain 0 .incoming "a")),
   .incomingCall "alice" 1 (some (.plain 1 .incoming "b")),
   .incomingCall "alice" 2 (some (.plain 2 .incoming "c"))]

/-- The arguments that transfer one call to another one. -/
def transferArgs (c dest : CallId) : Dict :=
  [("call_id".toList, .int c), ("dest_call_id".toList, .int dest)]

/-- The action with these arguments, of a hook on the phone, after an event without a call. -/
def transferAction (args : Dict) : Coro Unit :=
  executeOne .ascii false
    ⟨"h".toList, [.ofString "user.go"], some "alice".toList, [], [], false, [], none⟩
    ⟨⟨"user.go".toList, .ofString "alice", .null, []⟩, 0⟩
    (.dict [("attended_transfer".toList, .dict args)])

theorem not_honours_first {given : LegIds} {c : CallId} (hgiven : given.callId = some c)
    (hc : threeCalls.calls.get? c ≠ some 0) {ε : Type} (result : Except ε Unit)
    (hok : result = .ok ()) : ¬ Honours threeCalls given (result, [(0, .xferReplaces 1)]) := by
  subst hok
  rintro ⟨legs, hsent, hon, -⟩
  simp only [List.cons.injEq, Prod.mk.injEq, and_true] at hsent
  exact hc (hsent.1 ▸ hon c hgiven)

/-- The third call given alone is not the one that is transferred, and neither is the second call
when it is to be transferred to the call 0: the first call is. -/
theorem threeCalls_not_honoured :
    server.Reachable threeCalls ∧
    ¬ Honours threeCalls ⟨some 2, none⟩ (attendedOutcome threeCalls (some "alice") ⟨some 2, none⟩) ∧
    ¬ Honours threeCalls (givenIds (transferArgs 1 0))
      (outcomeOn threeCalls (transferAction (transferArgs 1 0))) := by
  have hdirect : attendedOutcome threeCalls (some "alice") ⟨some 2, none⟩ =
      (.ok (), [(0, .xferReplaces 1)]) := by rfl
  have haction : outcomeOn threeCalls (transferAction (transferArgs 1 0)) =
      (.ok (), [(0, .xferReplaces 1)]) := by rfl
  refine ⟨GuardedSystem.Reach.init.run (by decide), ?_, ?_⟩
  · rw [hdirect]
    exact not_honours_first (c := 2) rfl (by decide) _ rfl
  · rw [haction]
    exact not_honours_first (c := 1) rfl (by decide) _ rfl

/-- With both ids given, and neither of them 0, the second and the third call are the legs. -/
theorem threeCalls_honoured :
    Honours threeCalls ⟨some 2, some 1⟩
      (attendedOutcome threeCalls (some "alice") ⟨some 2, some 1⟩) ∧
    Honours threeCalls (givenIds (transferArgs 2 1))
      (outcomeOn threeCalls (transferAction (transferArgs 2 1))) := by
  obtain ⟨direct, action⟩ := attendedTransfer_honours_iff threeCalls
  refine ⟨(direct _ _).mpr fun _ _ _ _ _ _ => .inl ⟨rfl, rfl⟩, ?_⟩
  refine (action _ _ _ _ _ (transferArgs 2 1) rfl ⟨?_, ?_⟩).mpr ?_
  · rintro v (_ | ⟨_, _ | ⟨_, _ | ⟨_, _ | ⟨_, ⟨⟩⟩⟩⟩⟩)
    · exact .inr ⟨2, rfl⟩
    · exact .inr ⟨1, rfl⟩
    · exact .inl rfl
    · exact .inl rfl
  · rintro v (_ | ⟨_, _ | ⟨_, ⟨⟩⟩⟩)
    · exact .inl rfl
    · exact .inr ⟨_, rfl⟩
  · intro p first second rest _ _ src dst hsrc hdst
    refine ⟨fun c hc => ?_, fun c hc => ?_⟩
    · cases hc
      exact (Sys.getOwnedCall_eq_ok_iff.mp hsrc).2
    · cases hc
      exact (Sys.getOwnedCall_eq_ok_iff.mp hdst).2

end PjsuaMcp.Scenario
