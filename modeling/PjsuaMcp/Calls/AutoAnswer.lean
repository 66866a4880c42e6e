import PjsuaMcp.Calls.Lifecycle

/-!
# Automatic answers reach the calls they were meant for

`process_auto_answers` keeps bare numeric ids between the arrival of a call and
its answer, first in `_auto_answer_pending` and then in the list it has taken.
An id may meanwhile pass to another call. `autoAnswerOk` names the new calls
that take over no waiting id, or take over one of their own phone and kind.
-/

namespace PjsuaMcp.Calls

open Library

/-- The call came in on `p` while `auto_answer` was set there. -/
def SipCall.arrivedForAutoAnswer (call : SipCall) (p : PhoneId) : Bool :=
  call.direction = .inbound && call.autoAnswer && call.phoneId = p

namespace Sys

/-- Every waiting id that is tracked belongs to a call that arrived for automatic answer on
the phone the id waits for. -/
def AnswersOwn (s : Sys) : Prop := ∀ p c, (p, c) ∈ s.waiting →
  ∀ call, (∃ o, s.calls.get? c = some o ∧ s.objs[o]? = some call) →
    call.arrivedForAutoAnswer p = true

/-- A new call that is given a waiting id arrives for automatic answer on the same phone. -/
def autoAnswerOk (s : Sys) (a : Action) : Bool :=
  (s.newCall a).all fun call => s.waiting.all fun e =>
    e.2 ≠ call.callId || call.arrivedForAutoAnswer e.1

theorem arrivedForAutoAnswer_of_identity {call call' : SipCall}
    (h : call'.toCallIdentity = call.toCallIdentity) (p : PhoneId) :
    call'.arrivedForAutoAnswer p = call.arrivedForAutoAnswer p := by
  simp only [SipCall.arrivedForAutoAnswer, h]

theorem answersOwn_of_noNewCall {s s' : Sys} (hold : s.NoNewCall s') (h : s.AnswersOwn) :
    s'.AnswersOwn := by
  rintro p c he call' ⟨o, hc, ho⟩
  obtain ⟨k, hk, hid⟩ := hold.shrinks.identity (table_heap_of_some ho)
  rw [table_heap, Option.map_eq_some_iff] at hk
  obtain ⟨call, hcall, rfl⟩ := hk
  rw [arrivedForAutoAnswer_of_identity hid]
  exact h p c (hold.waiting he) call ⟨o, hold.shrinks.calls hc, hcall⟩

theorem mem_appendTo_iff (queues : OrderedDict PhoneId (List CallId)) (p q : PhoneId)
    (c d : CallId) :
    (q, d) ∈ queuedIds (appendTo queues p c) ↔ (q, d) ∈ queuedIds queues ∨ (q, d) = (p, c) := by
  simp only [mem_queuedIds_iff, appendTo, OrderedDict.get?_set, Prod.mk.injEq]
  by_cases hq : p = q
  · subst hq
    cases hqueue : queues.get? p <;> simp [eq_comm]
  · simp [hq, Ne.symm hq]

/-- A new call waits for an automatic answer exactly if it arrived for one. -/
theorem waiting_newCall {s : Sys} {a : Action} {call : SipCall} (hcall : s.newCall a = some call)
    (p : PhoneId) (c : CallId) :
    (p, c) ∈ (s.step a).waiting ↔
      (p, c) ∈ s.waiting ∨ (c = call.callId ∧ call.arrivedForAutoAnswer p = true) := by
  cases a with
  | makeCall phone destUri placed =>
      rcases s.makeCall_cases phone destUri placed with
        ⟨hnone, -⟩ | ⟨q, cfg, ci, owner, -, -, -, -, -, hnew, hstep⟩
      · rw [hnone] at hcall
        cases hcall
      · rw [hnew] at hcall
        cases hcall
        obtain ⟨index, hindex⟩ :=
          (s.trackCall (outboundCall q cfg ci)).trackSipCallId_eq ci.callIdString owner
        have hwaiting : (s.step (.makeCall phone destUri placed)).waiting = s.waiting := by
          change (s.makeCall phone destUri placed).2.waiting = _
          rw [hstep, hindex]
          rfl
        rw [hwaiting]
        simp [SipCall.arrivedForAutoAnswer, outboundCall, SipCall.new]
  | incomingCall q d ci =>
      rcases s.onIncomingCall_cases q d ci with ⟨-, hnone, -⟩ | ⟨cfg, owner, -, -, -, hnew, hstep⟩
      · rw [hnone] at hcall
        cases hcall
      · rw [hnew] at hcall
        cases hcall
        obtain ⟨index, hindex⟩ := trackSipCallId_eq _ (capturedCallId ci) owner
        have hwaiting : (s.step (.incomingCall q d ci)).waiting = s.autoAnswering ++
            queuedIds (if cfg.autoAnswer then appendTo s.autoAnswerPending q d
              else s.autoAnswerPending) := by
          change (s.onIncomingCall q d ci).waiting = _
          rw [hstep, hindex]
          rfl
        rw [hwaiting, waiting]
        cases hauto : cfg.autoAnswer with
        | false => simp [SipCall.arrivedForAutoAnswer, inboundCall, SipCall.new, hauto]
        | true =>
            simp only [if_true, List.mem_append, mem_appendTo_iff, or_assoc]
            simp [SipCall.arrivedForAutoAnswer, inboundCall, SipCall.new, hauto, and_comm, eq_comm]
  | _ => cases hcall

/-- A step keeps every waiting id with its own call if and only if it is an admitted one. -/
theorem autoAnswerOk_iff {s : Sys} {a : Action} (en : s.enabled a = true) (hs : s.table.Sound)
    (h : s.AnswersOwn) : s.autoAnswerOk a = true ↔ (s.step a).AnswersOwn := by
  cases ha : a.creates with
  | false =>
      refine iff_of_true ?_ (answersOwn_of_noNewCall (step_noNewCall en ha) h)
      cases a with
      | makeCall | incomingCall => cases ha
      | _ => rfl
  | true =>
      rcases s.step_newCall a ha with ⟨hnone, hsame⟩ | ⟨call, _, _, _, hcall, -⟩
      · rw [hsame]
        exact iff_of_true (by rw [autoAnswerOk, hnone]; rfl) h
      · have htracked := tracked_newCall en hs hcall ha
        have hok : s.autoAnswerOk a = true ↔
            ∀ p c, (p, c) ∈ s.waiting → c = call.callId → call.arrivedForAutoAnswer p = true := by
          simp [autoAnswerOk, hcall, or_iff_not_imp_left]
        simp only [hok, AnswersOwn, htracked, waiting_newCall hcall]
        constructor
        · rintro hall p c (he | ⟨hc, hself⟩) other (⟨hc', rfl⟩ | ⟨hne, hold⟩)
          · exact hall p c he hc'
          · exact h p c he other hold
          · exact hself
          · exact absurd hc hne
        · rintro hall p c he rfl
          exact hall p _ (.inl he) call (.inl ⟨rfl, rfl⟩)

/-- What one round of automatic answers sends, and to whom. -/
theorem autoAnswerNext_sends {s : Sys} (hs : s.table.Sound) (h : s.AnswersOwn) {p : PhoneId}
    {c : CallId} {rest : List (PhoneId × CallId)} (hnext : s.autoAnswering = (p, c) :: rest) :
    (s.calls.get? c = none ∧ s.autoAnswerNext = { s with autoAnswering := rest }) ∨
    ∃ o call, s.calls.get? c = some o ∧ s.objs[o]? = some call ∧
      call.arrivedForAutoAnswer p = true ∧
      s.autoAnswerNext = ({ s with autoAnswering := rest }).send o (.answer 200) := by
  cases hc : s.calls.get? c with
  | none =>
      left
      refine ⟨rfl, ?_⟩
      simp only [autoAnswerNext, hnext, hc]
  | some o =>
      right
      obtain ⟨k, hk, -⟩ := hs.entry hc
      rw [table_heap, Option.map_eq_some_iff] at hk
      obtain ⟨call, ho, -⟩ := hk
      have hwaiting : (p, c) ∈ s.waiting := by simp [waiting, hnext]
      refine ⟨o, call, rfl, ho, h p c hwaiting call ⟨o, hc, ho⟩, ?_⟩
      simp only [autoAnswerNext, hnext, hc]

end Sys

/-! ## Runs -/

/-- Along a run of admitted steps an automatic answer goes to a call that itself arrived on
the phone of the waiting id while `auto_answer` was set there, or to nobody; the next step
keeps every waiting id with its own call if and only if it is admitted. -/
theorem autoAnswers_own {s : Sys} (run : server.Reach (fun s a => s.autoAnswerOk a = true) s) :
    (∀ p c rest, s.autoAnswering = (p, c) :: rest →
      (s.calls.get? c = none ∧ s.step .autoAnswerNext = { s with autoAnswering := rest }) ∨
      ∃ o call, s.calls.get? c = some o ∧ s.objs[o]? = some call ∧
        call.direction = .inbound ∧ call.autoAnswer = true ∧ call.phoneId = p ∧
        s.step .autoAnswerNext = ({ s with autoAnswering := rest }).send o (.answer 200)) ∧
    ∀ a, s.enabled a = true → (s.autoAnswerOk a = true ↔ (s.step a).AnswersOwn) := by
  have hsound := fun s (run : server.Reach (fun s a => s.autoAnswerOk a = true) s) =>
    reachable_sound run.reachable
  have hown : s.AnswersOwn := by
    refine run.invariant_using hsound (P := Sys.AnswersOwn) ?_ ?_
    · intro p c he
      cases he
    · exact fun s a en hok hs h => (Sys.autoAnswerOk_iff en hs h).mp hok
  refine ⟨?_, fun a en => Sys.autoAnswerOk_iff en (hsound s run) hown⟩
  intro p c rest hnext
  rcases Sys.autoAnswerNext_sends (hsound s run) hown hnext with hnone | ⟨o, call, hc, ho, harr, hs⟩
  · exact .inl hnone
  · simp only [SipCall.arrivedForAutoAnswer, Bool.and_eq_true, decide_eq_true_eq] at harr
    exact .inr ⟨o, call, hc, ho, harr.1.1, harr.1.2, harr.2, hs⟩

/-- An automatic call is cancelled before it is answered, and its id passes to an incoming
call of a phone without automatic answers. -/
def overtakenId : List Action :=
  [.addPhone "alice" { domain := "example.org", autoAnswer := true } ⟨some 1, true⟩,
   .addPhone "bob" { domain := "example.org" } ⟨some 2, true⟩,
   .incomingCall "alice" 0 (some (.plain 0 .incoming "a")),
   .callState 0 (.plain 0 .disconnected "a") .writes "t",
   .incomingCall "bob" 0 (some (.plain 0 .incoming "b")),
   .pollAutoAnswers, .autoAnswerNext]

/-- The call to bob is answered. -/
theorem overtakenId_answers_bob :
    server.Reachable (server.run .initial overtakenId) ∧
    (server.run .initial overtakenId).commands = [(1, .answer 200)] ∧
    (server.run .initial overtakenId).objs[1]?.map (fun call => (call.phoneId, call.autoAnswer)) =
      some ("bob", false) := by
  refine ⟨GuardedSystem.Reach.init.run ?_, ?_⟩ <;> decide

/-- An automatic call whose id stays its own until it is answered. -/
def ownId : List Action :=
  [.addPhone "alice" { domain := "example.org", autoAnswer := true } ⟨some 1, true⟩,
   .incomingCall "alice" 0 (some (.plain 0 .incoming "a")), .pollAutoAnswers]

theorem autoAnswers_own_single :
    (∃ o call, (server.run .initial ownId).calls.get? 0 = some o ∧
      (server.run .initial ownId).objs[o]? = some call ∧ call.phoneId = "alice") := by
  have run : server.Reach (fun s a => s.autoAnswerOk a = true) (server.run .initial ownId) :=
    GuardedSystem.Reach.init.run (by decide)
  rcases (autoAnswers_own run).1 "alice" 0 [] (by decide) with ⟨hnone, -⟩ | ⟨o, call, hc, ho, h⟩
  · exact absurd hnone (by decide)
  · exact ⟨o, call, hc, ho, h.2.2.1⟩

end PjsuaMcp.Calls
