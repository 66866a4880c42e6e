import PjsuaMcp.Calls.CallViews
import PjsuaMcp.Calls.FailedAdd
import PjsuaMcp.Calls.RecordingMachine

/-!
# The end of the server

When the server stops, the poll task is cancelled, every tcpdump is stopped,
every call is hung up and every phone is dropped, in this order. Then the
library is destroyed, which still calls back on calls that end only now. In
whatever state the server is stopped, those callbacks find nothing that they
could start again.

## Implementation notes

The poll task waits between two polls, or inside `process_auto_captures`; it
ends there, and what it was waiting for is forgotten. `stop_for_phone` takes the
entry out of the process table before it waits for the process, so an exception
leaves no entry behind.
-/

namespace PjsuaMcp.Calls

open Library

/-- The callbacks of the library on calls. -/
def Action.isCallback : Action → Bool
  | .incomingCall _ _ _ | .callState _ _ _ _ | .mediaState _ _ => true
  | _ => false

namespace SipCall

/-! ## Sidecars -/

theorem reconnectRecorder_sidecars (call : SipCall) (env : RecorderEnv) :
    (call.reconnectRecorder env).sidecars = call.sidecars := by
  unfold reconnectRecorder startRecording
  split_ifs <;> rfl

/-- Active audio writes no sidecar. -/
theorem onAudioActive_sidecars (call : SipCall) (m : MediaStatus) :
    (call.onAudioActive m).1.sidecars = call.sidecars := by
  have hplayed : (call.markAudioActive.ensurePlayer m).1.sidecars = call.sidecars :=
    congrArg (fun view => view.2.2.1) (ensurePlayer_machineView call.markAudioActive m)
  cases hraised : (call.markAudioActive.ensurePlayer m).2 with
  | true =>
      rw [onAudioActive_raised hraised]
      exact hplayed
  | false =>
      obtain ⟨call', heq, hview⟩ := onAudioActive_played hraised
      have hsame := congrArg (fun view => view.2.2.1) hview
      calc (call.onAudioActive m).1.sidecars
        _ = call'.sidecars := by rw [heq]
        _ = ((call.markAudioActive.ensurePlayer m).1.reconnectRecorder m.recorder).sidecars := hsame
        _ = (call.markAudioActive.ensurePlayer m).1.sidecars := reconnectRecorder_sidecars _ _
        _ = call.sidecars := hplayed

/-- Sidecars are written at the end of a recording only. -/
theorem onCallMediaState_sidecars (call : SipCall) (media : List MediaStatus) :
    (call.onCallMediaState media).sidecars = call.sidecars := by
  induction media generalizing call with
  | nil => rfl
  | cons m rest ih =>
      rw [onCallMediaState]
      split_ifs
      · exact call.onAudioActive_sidecars m
      · exact (ih _).trans (call.onAudioActive_sidecars m)
      · exact ih call

/-- What is written then names the capture that it is given. -/
theorem stopRecording_sidecars (call : SipCall) (pcap : Option String) (env : SidecarEnv) :
    ∃ added, (call.stopRecording pcap env).sidecars = call.sidecars ++ added ∧
      ∀ m ∈ added, m.pcap = pcap := by
  have hports : (call.snapshotRtpPorts env.ports).sidecars = call.sidecars :=
    congrArg (fun view => view.2.2.1) (call.snapshotRtpPorts_machineView env.ports)
  have hnothing : ∃ added, call.sidecars = call.sidecars ++ added ∧ ∀ m ∈ added, m.pcap = pcap :=
    ⟨[], (List.append_nil _).symm, fun m hm => by cases hm⟩
  unfold stopRecording
  split_ifs
  · exact hnothing
  · dsimp only [writeMetaSidecar]
    split
    · exact hnothing
    · split_ifs
      · refine ⟨_, congrArg (· ++ _) hports, fun m hm => ?_⟩
        rw [List.mem_singleton.mp hm]
        rfl
      · rw [hports]
        exact hnothing

end SipCall

namespace Sys

/-- `PcapManager.cleanup`. -/
def cleanupCaptures (s : Sys) : Sys :=
  s.phoneProcesses.keys.foldl (fun s p => { s with phoneProcesses := s.phoneProcesses.pop p }) s

/-- `drop_all`. -/
def dropAll (s : Sys) : Sys := s.phones.keys.foldl dropPhone s

/-- What `lifespan` does after its `yield`, up to the end of the library. -/
def shutdown (s : Sys) : Sys :=
  ({ s with drain := .idle }.cleanupCaptures.callOp (.hangupAll none)).dropAll

/-! ## The process table -/

/-- Stopping every capture touches nothing else. -/
theorem cleanupCaptures_eq (s : Sys) :
    s.cleanupCaptures = { s with phoneProcesses := .empty } := by
  have hfold : ∀ (ps : List PhoneId) (s : Sys),
      ps.foldl (fun s p => { s with phoneProcesses := s.phoneProcesses.pop p }) s =
        { s with phoneProcesses := ps.foldl OrderedDict.pop s.phoneProcesses } := by
    intro ps
    induction ps with
    | nil => exact fun s => rfl
    | cons p rest ih => exact fun s => ih _
  rw [cleanupCaptures, hfold, OrderedDict.foldl_pop_keys]

/-! ## The phones -/

/-- Phones go, and nothing else happens to calls and captures than that they are forgotten. -/
structure Sheds (s s' : Sys) : Prop where
  objs : s'.objs = s.objs
  commands : s'.commands = s.commands
  processes : s'.phoneProcesses = s.phoneProcesses
  transports : ∀ t ∈ s'.transports, t ∈ s.transports
  sound : s.table.Sound → s'.table.Sound
  owners : s.OwnersRegistered → s'.OwnersRegistered

theorem Sheds.refl (s : Sys) : s.Sheds s := ⟨rfl, rfl, rfl, fun _ ht => ht, id, id⟩

/-- One phone after another. -/
theorem Sheds.trans {s s' s'' : Sys} (h : s.Sheds s') (h' : s'.Sheds s'') : s.Sheds s'' where
  objs := h'.objs.trans h.objs
  commands := h'.commands.trans h.commands
  processes := h'.processes.trans h.processes
  transports t ht := h.transports t (h'.transports t ht)
  sound hs := h'.sound (h.sound hs)
  owners ho := h'.owners (h.owners ho)

theorem sheds_dropPhone (s : Sys) (p : PhoneId) : s.Sheds (s.dropPhone p) := by
  cases hp : s.phones.get? p with
  | none =>
      rw [dropPhone_of_unknown hp]
      exact .refl s
  | some cfg =>
      obtain ⟨_, hdrop⟩ := dropPhone_eq hp
      refine ⟨s.dropPhone_objs p, ?_, ?_, fun t ht => ?_, fun hs => dropPhone_sound hs p,
        fun ho => ho.dropPhone p⟩
      · rw [hdrop]
        rfl
      · rw [hdrop]
        rfl
      · rw [dropPhone_transports hp] at ht
        exact List.mem_of_mem_filter ht

/-- All the phones, one after another. -/
theorem sheds_dropPhones (s : Sys) (ps : List PhoneId) : s.Sheds (ps.foldl dropPhone s) := by
  induction ps generalizing s with
  | nil => exact .refl s
  | cons p rest ih => exact (s.sheds_dropPhone p).trans (ih _)

theorem dropPhones_phones (s : Sys) (ps : List PhoneId) :
    (ps.foldl dropPhone s).phones = ps.foldl OrderedDict.pop s.phones := by
  induction ps generalizing s with
  | nil => rfl
  | cons p rest ih =>
      rw [List.foldl_cons, ih, dropPhone_phones]
      rfl

/-- The transport of a phone that is dropped is closed. -/
theorem dropPhones_transports {s : Sys} {ps : List PhoneId} {p : PhoneId} (hp : p ∈ ps)
    {cfg : PhoneConfig} (hcfg : s.phones.get? p = some cfg) {tp : Int}
    (htp : cfg.transportId = some tp) : tp ∉ (ps.foldl dropPhone s).transports := by
  induction ps generalizing s with
  | nil => cases hp
  | cons q rest ih =>
      by_cases hq : p = q
      · subst hq
        intro hopen
        have hclosed := ((s.dropPhone p).sheds_dropPhones rest).transports tp hopen
        rw [dropPhone_transports hcfg, List.mem_filter, decide_eq_true_eq, htp] at hclosed
        exact hclosed.2 rfl
      · apply ih (List.mem_of_ne_of_mem hq hp)
        rw [dropPhone_phones_of_ne hq]
        exact hcfg

/-! ## The calls -/

/-- `hangup_all` reaches every tracked call. -/
theorem hangupAllTargets_none {s : Sys} (hs : s.table.Sound) :
    s.hangupAllTargets none = s.calls.entries.map Prod.snd := by
  apply List.filter_eq_self.mpr
  intro o ho
  obtain ⟨e, he, rfl⟩ := List.mem_map.mp ho
  obtain ⟨call, backed⟩ := exists_backed hs he
  rw [objActive, backed.object]
  exact backed.alive

/-- Without phones there are no calls. -/
theorem calls_eq_empty {s : Sys} (hs : s.table.Sound) (howners : s.OwnersRegistered)
    (hphones : s.phones = .empty) : s.calls = .empty ∧ s.callPhone = .empty := by
  have howner : s.callPhone = .empty := by
    apply OrderedDict.ext
    rw [OrderedDict.entries_empty, OrderedDict.entries_eq_nil_iff]
    intro c
    cases hc : s.callPhone.get? c with
    | none => rw [OrderedDict.contains, hc]; rfl
    | some p =>
        have hregistered := howners c p hc
        rw [hphones] at hregistered
        cases hregistered
  refine ⟨?_, howner⟩
  have hkeys : s.callPhone.keys = s.calls.keys := hs.keys_eq
  apply OrderedDict.ext
  rw [howner] at hkeys
  exact List.map_eq_nil_iff.mp hkeys.symm

/-- The state in which the library is destroyed. -/
structure Closed (s s' : Sys) : Prop where
  phones : s'.phones = .empty
  calls : s'.calls = .empty
  callPhone : s'.callPhone = .empty
  processes : s'.phoneProcesses = .empty
  commands : s'.commands = s.commands ++ s.calls.entries.map fun e => (e.2, .hangup 603)
  transports : ∀ p cfg tp, s.phones.get? p = some cfg → cfg.transportId = some tp →
    tp ∉ s'.transports
  sidecars : ∀ (o : ObjId) (call' : SipCall), s'.objs[o]? = some call' →
    ∃ call : SipCall, s.objs[o]? = some call ∧ ∃ added, call'.sidecars = call.sidecars ++ added ∧
      ∀ m ∈ added, m.pcap = none

/-- What `shutdown` leaves. -/
theorem shutdown_closed {s : Sys} (hs : s.table.Sound) (howners : s.OwnersRegistered) :
    s.Closed s.shutdown := by
  let stopped : Sys := { s with drain := .idle, phoneProcesses := .empty }
  let hungUp : Sys := stopped.callOp (.hangupAll none)
  have hshutdown : s.shutdown = hungUp.phones.keys.foldl dropPhone hungUp := by
    rw [shutdown, cleanupCaptures_eq]
    rfl
  have htargets : stopped.hangupAllTargets none = s.calls.entries.map Prod.snd :=
    hangupAllTargets_none hs
  obtain ⟨objs, hsent, hcores⟩ : ∃ objs, hungUp = { stopped with
      objs := objs, commands := s.commands ++ s.calls.entries.map fun e => (e.2, .hangup 603) } ∧
      objs.map SipCall.core = s.objs.map SipCall.core := by
    obtain ⟨objs, hsend, hcores⟩ := stopped.sendAll_eq
      ((stopped.hangupAllTargets none).map fun o => (o, .hangup 603))
    refine ⟨objs, hsend.trans ?_, hcores⟩
    rw [htargets, List.map_map]
    rfl
  have hphones : hungUp.phones = s.phones := by rw [hsent]
  have htable : hungUp.table = s.table := (stopped.step_quiet (.callOp (.hangupAll none)) rfl).table
  have hsound : hungUp.table.Sound := htable ▸ hs
  have howned : hungUp.OwnersRegistered := by
    intro c p hc
    rw [hphones]
    rw [hsent] at hc
    exact howners c p hc
  have hsheds := hungUp.sheds_dropPhones hungUp.phones.keys
  have hgone : s.shutdown.phones = .empty := by
    rw [hshutdown, dropPhones_phones, OrderedDict.foldl_pop_keys]
  rw [← hshutdown] at hsheds
  obtain ⟨hcalls, howner⟩ := calls_eq_empty (hsheds.sound hsound) (hsheds.owners howned) hgone
  refine ⟨hgone, hcalls, howner, ?_, ?_, fun p cfg tp hp htp => ?_, fun o call' ho => ?_⟩
  · rw [hsheds.processes, hsent]
  · rw [hsheds.commands, hsent]
  · rw [hshutdown]
    rw [← hphones] at hp
    apply dropPhones_transports _ hp htp
    exact (OrderedDict.mem_keys_iff _ _).mpr ⟨cfg, hp⟩
  · rw [hsheds.objs, hsent] at ho
    have hcore : (objs.map SipCall.core)[o]? = some call'.core := by
      rw [List.getElem?_map, show objs[o]? = some call' from ho]
      rfl
    rw [hcores, List.getElem?_map, Option.map_eq_some_iff] at hcore
    obtain ⟨call, hcall, hsame⟩ := hcore
    have hsidecars : call.sidecars = call'.sidecars := congrArg (fun call => call.sidecars) hsame
    exact ⟨call, hcall, [], by rw [hsidecars, List.append_nil], fun m hm => by cases hm⟩

/-! ## Callbacks -/

/-- A callback on a call that has changed nothing but the call and the counters. -/
theorem Closed.of_set {s s' t : Sys} (h : s.Closed s') {o : ObjId} {call call' : SipCall}
    (ho : s'.objs[o]? = some call) (hobjs : t.objs = s'.objs.set o call')
    (hphones : t.phones = s'.phones) (hcalls : t.calls = .empty) (howner : t.callPhone = .empty)
    (hprocesses : t.phoneProcesses = s'.phoneProcesses) (hcommands : t.commands = s'.commands)
    (htransports : t.transports = s'.transports)
    (hsidecars : ∃ added, call'.sidecars = call.sidecars ++ added ∧ ∀ m ∈ added, m.pcap = none) :
    s.Closed t := by
  refine ⟨hphones.trans h.phones, hcalls, howner, hprocesses.trans h.processes,
    hcommands.trans h.commands, fun p cfg tp hp htp => ?_, fun i x hx => ?_⟩
  · rw [htransports]
    exact h.transports p cfg tp hp htp
  · rw [hobjs] at hx
    obtain ⟨rfl, rfl⟩ | ⟨-, hold⟩ := cell_of_set hx
    · obtain ⟨before, hbefore, first, hfirst, hfree⟩ := h.sidecars i call ho
      obtain ⟨added, hadded, hnone⟩ := hsidecars
      refine ⟨before, hbefore, first ++ added, ?_, fun m hm => ?_⟩
      · rw [hadded, hfirst, List.append_assoc]
      · exact (List.mem_append.mp hm).elim (hfree m) (hnone m)
    · exact h.sidecars i x hold

theorem untrack_of_empty {s : Sys} (hcalls : s.calls = .empty) (howner : s.callPhone = .empty)
    (ids : List CallId) : (s.untrack ids).calls = .empty ∧ (s.untrack ids).callPhone = .empty := by
  rw [untrack, hcalls, howner]
  exact ⟨rfl, rfl⟩

/-- The end of a call writes no capture into a sidecar, and nothing is tracked that could go. -/
theorem Closed.ended {s s' : Sys} (h : s.Closed s') {o : ObjId} {call : SipCall} {ci : CallInfo}
    (ho : s'.objs[o]? = some call) (hstate : ci.state = .disconnected) (env : SidecarEnv)
    (timestamp : String) : s.Closed (s'.onCallState o ci env timestamp) := by
  have hpcap : s'.currentPcapPathFor call.phoneId = none := by
    rw [currentPcapPathFor, h.processes]
    rfl
  have hsidecars : ∃ added, (s'.endedCall call ci env).sidecars = call.sidecars ++ added ∧
      ∀ m ∈ added, m.pcap = none := by
    obtain ⟨added, hadded, hnone⟩ := (call.updateInfo ci).stopRecording_sidecars none env
    refine ⟨added, ?_, hnone⟩
    calc (s'.endedCall call ci env).sidecars
      _ = ((call.updateInfo ci).stopRecording none env).sidecars := by
          rw [endedCall, hpcap]
          exact congrArg (fun view => view.2.2.1) (SipCall.stopPlayer_machineView _)
      _ = call.sidecars ++ added := hadded
  rw [onCallState_ended ho hstate]
  obtain ⟨history, hended⟩ :=
    ({ s' with objs := s'.objs.set o (s'.endedCall call ci env) }).onCallDisconnected_eq
      (s'.endedCall call ci env).info timestamp
  rw [hended]
  refine h.of_set ho rfl rfl ?_ ?_ rfl rfl rfl hsidecars
  · exact (untrack_of_empty h.calls h.callPhone _).1
  · exact (untrack_of_empty h.calls h.callPhone _).2

/-- A callback that comes late finds nothing to act on. -/
theorem Closed.step {s s' : Sys} (h : s.Closed s') {a : Action} (en : s'.enabled a = true)
    (ha : a.isCallback = true) : s.Closed (s'.step a) := by
  cases a with
  | incomingCall p c ci =>
      have hsame : s'.step (.incomingCall p c ci) = s' := by
        change s'.onIncomingCall p c ci = s'
        simp [onIncomingCall, h.phones]
      rw [hsame]
      exact h
  | callState o ci env timestamp =>
      obtain ⟨call, ho, -⟩ := exists_of_objActive en
      change s.Closed (s'.onCallState o ci env timestamp)
      by_cases hstate : ci.state = .disconnected
      · exact h.ended ho hstate env timestamp
      · have hsidecars : ∃ added, (call.updateInfo ci).sidecars = call.sidecars ++ added ∧
            ∀ m ∈ added, m.pcap = none :=
          ⟨[], (List.append_nil _).symm, fun m hm => by cases hm⟩
        rw [onCallState_refreshed ho hstate]
        exact h.of_set ho rfl rfl h.calls h.callPhone rfl rfl rfl hsidecars
  | mediaState o media =>
      obtain ⟨call, ho, -⟩ := exists_of_objActive en
      obtain ⟨_, _, heq⟩ := onCallMediaState_eq ho media
      have hsidecars : ∃ added, (call.onCallMediaState media).sidecars = call.sidecars ++ added ∧
          ∀ m ∈ added, m.pcap = none := by
        refine ⟨[], ?_, fun m hm => by cases hm⟩
        rw [call.onCallMediaState_sidecars media, List.append_nil]
      change s.Closed (s'.onCallMediaState o media)
      rw [heq]
      exact h.of_set ho rfl rfl h.calls h.callPhone rfl rfl rfl hsidecars
  | _ => cases ha

/-- The tracked calls are live and each is there once. -/
theorem tracked_once {s : Sys} (hs : s.table.Sound) :
    (s.calls.entries.map Prod.snd).Nodup ∧
      ∀ o, o ∈ s.calls.entries.map Prod.snd ↔ ∃ call : SipCall, s.objs[o]? = some call ∧
        call.isActive = true ∧ s.calls.get? call.callId = some o := by
  constructor
  · have hkeys : s.calls.entries.Pairwise fun e e' => e.1 ≠ e'.1 :=
      List.pairwise_map.mp s.calls.nodup_keys
    apply List.pairwise_map.mpr
    apply hkeys.imp_of_mem
    intro e e' he he' hne hsame
    obtain ⟨call, backed⟩ := exists_backed hs he
    obtain ⟨call', backed'⟩ := exists_backed hs he'
    have hcall : call = call' := by
      have hobject := backed.object
      rw [hsame, backed'.object] at hobject
      exact (Option.some.inj hobject).symm
    apply hne
    calc e.1
      _ = call.callId := backed.callId.symm
      _ = call'.callId := by rw [hcall]
      _ = e'.1 := backed'.callId
  · intro o
    constructor
    · intro ho
      obtain ⟨e, he, rfl⟩ := List.mem_map.mp ho
      obtain ⟨call, backed⟩ := exists_backed hs he
      refine ⟨call, backed.object, backed.alive, ?_⟩
      rw [backed.callId]
      exact backed.lookup
    · intro ⟨call, _, _, hc⟩
      apply List.mem_map.mpr
      exact ⟨(call.callId, o), (s.calls.get?_eq_some_iff _ _).mp hc, rfl⟩

end Sys

/-- Whatever the library still reports on calls, no phone, no call and no capture comes back. -/
theorem shutdown_run {s : Sys} (run : server.Reachable s) {as : List Action}
    (legal : server.Legal (fun _ a => a.isCallback = true) s.shutdown as) :
    (server.run s.shutdown as).phones = .empty ∧ (server.run s.shutdown as).calls = .empty ∧
    (∀ p, (server.run s.shutdown as).currentPcapPathFor p = none) ∧
    -- every live call that is still tracked, and no other, is hung up, and once
    (∃ hungUp : List ObjId, hungUp.Nodup ∧
      (∀ o, o ∈ hungUp ↔ ∃ call : SipCall, s.objs[o]? = some call ∧ call.isActive = true ∧
        s.calls.get? call.callId = some o) ∧
      (server.run s.shutdown as).commands = s.commands ++ hungUp.map fun o => (o, .hangup 603)) ∧
    (∀ p cfg tp, s.phones.get? p = some cfg → cfg.transportId = some tp →
      tp ∉ (server.run s.shutdown as).transports) ∧
    -- a recording that ends now has lost its capture
    ∀ (o : ObjId) (call' : SipCall), (server.run s.shutdown as).objs[o]? = some call' →
      ∃ call : SipCall, s.objs[o]? = some call ∧
        ∃ added, call'.sidecars = call.sidecars ++ added ∧ ∀ m ∈ added, m.pcap = none := by
  have hs := reachable_sound run
  have closed : s.Closed (server.run s.shutdown as) := by
    apply legal.invariant _ (Sys.shutdown_closed hs (reachable_ownersRegistered run))
    exact fun _ _ en ha h => h.step en ha
  obtain ⟨hnodup, htracked⟩ := Sys.tracked_once hs
  refine ⟨closed.phones, closed.calls, fun p => ?_, ⟨_, hnodup, htracked, ?_⟩, closed.transports,
    closed.sidecars⟩
  · rw [Sys.currentPcapPathFor, closed.processes]
    rfl
  · rw [closed.commands, List.map_map]
    rfl

/-- A call of Alice that is recorded and captured, and one whose phone has gone. -/
def strandedCall : List Action :=
  [.addPhone "alice" { domain := "example.org", recordingEnabled := true, captureEnabled := true }
      ⟨some 1, true⟩,
   .addPhone "bob" { domain := "example.org" } ⟨some 2, true⟩,
   .incomingCall "alice" 0 none, .mediaState 0 [.active], .processAutoCaptures,
   .resumeAutoCaptures "1", .incomingCall "bob" 1 none, .dropPhone "bob"]

def lastCallbacks : List Action :=
  [.callState 0 (.plain 0 .disconnected "a") ⟨true, "end", none⟩ "t",
   .callState 1 (.plain 1 .disconnected "b") ⟨true, "end", none⟩ "t"]

theorem shutdown_run_strandedCall :
    let s := server.run .initial strandedCall
    let s' := server.run s.shutdown lastCallbacks
    s'.phones = .empty ∧ (0, Command.hangup 603) ∈ s'.commands ∧
      (1, Command.hangup 603) ∉ s'.commands ∧ (s.currentPcapPathFor "alice").isSome = true ∧
      ∃ call' : SipCall, s'.objs[0]? = some call' ∧ call'.sidecars.length = 1 ∧
        ∀ m ∈ call'.sidecars, m.pcap = none := by
  intro s s'
  have run : server.Reachable s := by
    have legal : server.Legal (fun _ _ => True) .initial strandedCall := by decide
    exact GuardedSystem.Reach.init.run legal
  have legal : server.Legal (fun _ a => a.isCallback = true) s.shutdown lastCallbacks := by decide
  obtain ⟨hphones, -, -, ⟨hungUp, -, hlive, hcommands⟩, -, hsidecars⟩ := shutdown_run run legal
  have hsent : s.commands = [] := by decide
  have hmem : ∀ o : ObjId, (o, Command.hangup 603) ∈ s'.commands ↔ o ∈ hungUp := by
    intro o
    rw [hcommands, hsent, List.nil_append, List.mem_map]
    constructor
    · intro ⟨o', ho', heq⟩
      have hsame : o' = o := congrArg Prod.fst heq
      exact hsame ▸ ho'
    · exact fun ho => ⟨o, ho, rfl⟩
  have htracked : ∃ call : SipCall, s.objs[0]? = some call ∧ call.isActive = true ∧
      s.calls.get? call.callId = some 0 := ⟨_, rfl, by decide, by decide⟩
  have hwritten : (s.objs[0]?.map fun call => call.sidecars.length) = some 0 := by decide
  have hleft : (s'.objs[0]?.map fun call => call.sidecars.length) = some 1 := by decide
  refine ⟨hphones, (hmem 0).mpr ((hlive 0).mpr htracked), fun h => ?_, by decide, ?_⟩
  · obtain ⟨call, hcall, -, hlookup⟩ := (hlive 1).mp ((hmem 1).mp h)
    have hforgotten : (s.objs[1]?.map fun call => s.calls.get? call.callId) = some none := by
      decide
    rw [hcall, Option.map_some, hlookup] at hforgotten
    cases hforgotten
  · obtain ⟨call', hcall', hlength⟩ := Option.map_eq_some_iff.mp hleft
    obtain ⟨call, hbefore, added, hadded, hnone⟩ := hsidecars 0 call' hcall'
    rw [hbefore, Option.map_some, Option.some.injEq, List.length_eq_zero_iff] at hwritten
    rw [hwritten, List.nil_append] at hadded
    exact ⟨call', hcall', hlength, hadded ▸ hnone⟩

end PjsuaMcp.Calls
