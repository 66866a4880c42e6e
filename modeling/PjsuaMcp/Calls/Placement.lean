import PjsuaMcp.Calls.Lifecycle

/-!
# Calls that are being placed

`make_call` runs on an executor thread: it builds the call object, hands it to
the library, and then registers it. The callbacks of the call, the handler of
incoming calls and `update_phone` run on other threads and may come in between.
A switchboard is the state of the managers together with every such method that
is under way, and a turn is what one of them does up to the next point at which
the others can see a difference.

## Implementation notes

The thread that polls the library runs the handler of incoming calls, so a call
gets no callback until its handler has registered it, and `update_phone` has no
await before it is done, so there is one at a time. The library gives an id to
a new call when the last callback of every earlier call with that id is over.
`announced` lists the events that have been emitted; nothing in the program
reads it.
-/

namespace PjsuaMcp.Calls

open Library

/-- A call of `make_call`, or a run of the handler of incoming calls. -/
inductive Placing
  /-- `make_call` has built the call object from what the config said; it has no id yet. -/
  | built (p : PhoneId) (cfg : PhoneConfig) (destUri : String)
  /-- The library has given the object its id; `make_call` has not registered it. -/
  | placed (o : ObjId) (destUri : String)
  /-- The handler has built the object of an incoming call and not registered it. -/
  | arriving (o : ObjId)
  | returned (o : ObjId)
  | raised
  deriving DecidableEq, Repr

/-- The call object that the method has put on the heap. -/
def Placing.object? : Placing → Option ObjId
  | placed o _ | arriving o | returned o => some o
  | _ => none

/-- Where a running `onCallState` is. -/
inductive StateCallback
  /-- The info says DISCONNECTED; the recorder is still to be stopped and the manager to be told. -/
  | ending
  /-- The event is to be emitted. -/
  | emitting (state : InvState)
  deriving DecidableEq, Repr

/-- A `call.state` event, and whether the call was tracked under its id and owned by its phone when
it was emitted. -/
structure Announced where
  call : ObjId
  state : InvState
  tracked : Bool
  deriving DecidableEq, Repr

/-- An option of `update_phone` that changes the calls of the phone. -/
inductive Change
  | codecs (names : List String)
  | recordingEnabled (enabled : Bool)
  deriving DecidableEq, Repr

/-- `update_phone` between the write of the config and its return: the calls that it has still to
change, once it has taken the list of them. -/
structure Update where
  phone : PhoneId
  change : Change
  rest : Option (List ObjId)
  deriving DecidableEq, Repr

structure Switchboard where
  sys : Sys
  placings : List Placing
  callbacks : OrderedDict ObjId StateCallback
  update : Option Update
  announced : List Announced
  deriving DecidableEq

/-! ## The parts of the methods -/

namespace Sys

/-- The library calls the object from now on; the manager does not know it yet. -/
def pushCall (s : Sys) (call : SipCall) : Sys := { s with objs := s.objs ++ [call] }

/-- `self._calls[call_id] = call` and `self._call_phone[call_id] = phone_id`. -/
def registerCall (s : Sys) (o : ObjId) (call : SipCall) : Sys :=
  { s with
    calls := s.calls.set call.callId o
    callPhone := s.callPhone.set call.callId call.phoneId }

/-- The queues of an incoming call. -/
def enqueueCall (s : Sys) (call : SipCall) : Sys :=
  { s with
    incomingQueue := appendTo s.incomingQueue call.phoneId call.callId
    autoAnswerPending :=
      if (s.phones.get? call.phoneId).any PhoneConfig.autoAnswer then
        appendTo s.autoAnswerPending call.phoneId call.callId
      else s.autoAnswerPending }

/-- `onCallState` up to the release of the lock. -/
def refreshInfo (s : Sys) (o : ObjId) (call : SipCall) (ci : CallInfo) : Sys :=
  { s with objs := s.objs.set o (call.updateInfo ci) }

/-- The part of `onCallState` for DISCONNECTED. -/
def closeCall (s : Sys) (o : ObjId) (call : SipCall) (env : SidecarEnv) (timestamp : String) : Sys :=
  let call := (call.stopRecording (s.currentPcapPathFor call.phoneId) env).stopPlayer
  { s with objs := s.objs.set o call }.onCallDisconnected call.info timestamp

end Sys

/-- The config after the write of `update_phone`. -/
def Change.write : Change → PhoneConfig → PhoneConfig
  | codecs names, cfg => { cfg with codecs := some names }
  | recordingEnabled enabled, cfg => { cfg with recordingEnabled := enabled }

/-- The body of the loop of `set_codecs_for_phone` or `set_recording_enabled`. -/
def Change.apply (change : Change) (s : Sys) (o : ObjId) (call : SipCall) (rec : RecorderEnv)
    (env : SidecarEnv) : Sys :=
  match change with
  | codecs names =>
      let s := { s with
        objs := s.objs.set o { call with codecs := SipCall.codecFilter (some names) } }
      if call.inv = .confirmed then s.send o .reinvite else s
  | recordingEnabled enabled =>
      { s with
        objs := s.objs.set o
          (call.toggleRecording enabled (s.currentPcapPathFor call.phoneId) rec env) }

inductive Turn
  /-- `make_call` up to the new call object. -/
  | construct (phone : Option PhoneId) (destUri : String)
  /-- Its call of `makeCall`; nothing when it raises. -/
  | place (k : Nat) (placed : Option CallInfo)
  /-- Its call of `getInfo`, nothing when it raises, and the registration. -/
  | register (k : Nat) (info : Option CallInfo)
  /-- The handler of incoming calls up to the new call object. -/
  | incoming (p : PhoneId) (c : CallId) (ci : Option CallInfo)
  /-- Its registration, and the Call-ID header when it could be read. -/
  | enqueue (k : Nat) (ci : Option CallInfo)
  | callState (o : ObjId) (ci : CallInfo)
  | disconnect (o : ObjId) (env : SidecarEnv) (timestamp : String)
  | emit (o : ObjId)
  | mediaState (o : ObjId) (media : List MediaStatus)
  /-- `update_phone` writes the config, -/
  | write (p : PhoneId) (change : Change)
  /-- takes the calls of the phone, -/
  | take
  /-- and goes through them. -/
  | apply (rec : RecorderEnv) (env : SidecarEnv)

namespace Switchboard

/-- Phones and no calls. -/
def initial (phones : OrderedDict PhoneId PhoneConfig) : Switchboard :=
  ⟨{ Sys.initial with phones := phones }, [], .empty, none, []⟩

variable (w : Switchboard)

def setPlacing (k : Nat) (placing : Placing) : Switchboard :=
  { w with placings := w.placings.set k placing }

def construct (phone : Option PhoneId) (destUri : String) : Switchboard :=
  match w.sys.resolvePhone phone with
  | .error _ => { w with placings := w.placings ++ [.raised] }
  | .ok p =>
      match w.sys.phones.get? p with
      | none => { w with placings := w.placings ++ [.raised] }
      | some cfg => { w with placings := w.placings ++ [.built p cfg destUri] }

def place (k : Nat) (placed : Option CallInfo) : Switchboard :=
  match w.placings[k]? with
  | some (.built p cfg destUri) =>
      match placed with
      | none => w.setPlacing k .raised
      | some ci =>
          { w.setPlacing k (.placed w.sys.objs.length destUri) with
            sys := w.sys.pushCall (Sys.outboundCall p cfg ci) }
  | _ => w

def register (k : Nat) (info : Option CallInfo) : Switchboard :=
  match w.placings[k]? with
  | some (.placed o destUri) =>
      match w.sys.objs[o]?, info with
      | some call, some ci =>
          { w.setPlacing k (.returned o) with
            sys := (w.sys.registerCall o call).trackSipCallId ci.callIdString
              { phoneId := call.phoneId, pjsuaCallId := call.callId,
                remoteUri := if ci.remoteUri = "" then destUri else ci.remoteUri } }
      | _, _ => w.setPlacing k .raised
  | _ => w

def incoming (p : PhoneId) (c : CallId) (ci : Option CallInfo) : Switchboard :=
  match w.sys.phones.get? p with
  | none => w
  | some cfg =>
      { w with
        placings := w.placings ++ [.arriving w.sys.objs.length]
        sys := w.sys.pushCall (Sys.inboundCall p cfg c ci) }

def enqueue (k : Nat) (ci : Option CallInfo) : Switchboard :=
  match w.placings[k]? with
  | some (.arriving o) =>
      match w.sys.objs[o]? with
      | some call =>
          { w.setPlacing k (.returned o) with
            sys := ((w.sys.registerCall o call).enqueueCall call).trackSipCallId
              (Sys.capturedCallId ci)
              { phoneId := call.phoneId, pjsuaCallId := call.callId,
                remoteUri := (ci.map CallInfo.remoteUri).getD "" } }
      | none => w
  | _ => w

def callState (o : ObjId) (ci : CallInfo) : Switchboard :=
  match w.sys.objs[o]? with
  | none => w
  | some call =>
      { w with
        sys := w.sys.refreshInfo o call ci
        callbacks := w.callbacks.set o
          (if ci.state = .disconnected then .ending else .emitting ci.state) }

def disconnect (o : ObjId) (env : SidecarEnv) (timestamp : String) : Switchboard :=
  match w.callbacks.get? o, w.sys.objs[o]? with
  | some .ending, some call =>
      { w with
        sys := w.sys.closeCall o call env timestamp
        callbacks := w.callbacks.set o (.emitting .disconnected) }
  | _, _ => w

/-- The object is the one registered under its id, and its phone owns the id. -/
def ownTracked (o : ObjId) (call : SipCall) : Bool :=
  w.sys.calls.get? call.callId = some o ∧ w.sys.callPhone.get? call.callId = some call.phoneId

def emit (o : ObjId) : Switchboard :=
  match w.callbacks.get? o, w.sys.objs[o]? with
  | some (.emitting state), some call =>
      { w with
        callbacks := w.callbacks.pop o
        announced := w.announced ++ [⟨o, state, w.ownTracked o call⟩] }
  | _, _ => w

def write (p : PhoneId) (change : Change) : Switchboard :=
  match w.sys.phones.get? p with
  | none => w
  | some cfg =>
      { w with
        sys := { w.sys with phones := w.sys.phones.set p (change.write cfg) }
        update := some ⟨p, change, none⟩ }

def take : Switchboard :=
  match w.update with
  | some ⟨p, change, none⟩ => { w with update := some ⟨p, change, some (w.sys.callsOf p)⟩ }
  | _ => w

def apply (rec : RecorderEnv) (env : SidecarEnv) : Switchboard :=
  match w.update with
  | some ⟨_, _, some []⟩ => { w with update := none }
  | some ⟨p, change, some (o :: rest)⟩ =>
      match w.sys.objs[o]? with
      | some call =>
          { w with
            sys := change.apply w.sys o call rec env
            update := some ⟨p, change, some rest⟩ }
      | none => { w with update := some ⟨p, change, some rest⟩ }
  | _ => w

def step : Turn → Switchboard
  | .construct phone destUri => w.construct phone destUri
  | .place k placed => w.place k placed
  | .register k info => w.register k info
  | .incoming p c ci => w.incoming p c ci
  | .enqueue k ci => w.enqueue k ci
  | .callState o ci => w.callState o ci
  | .disconnect o env timestamp => w.disconnect o env timestamp
  | .emit o => w.emit o
  | .mediaState o media => { w with sys := w.sys.onCallMediaState o media }
  | .write p change => w.write p change
  | .take => w.take
  | .apply rec env => w.apply rec env

/-- Every call with the id has ended, and its last callback is over. -/
def idFree (c : CallId) : Bool :=
  w.sys.idFree c && w.callbacks.entries.all fun e =>
    w.sys.objs[e.1]?.all fun call => call.callId ≠ c

/-- The library may call the object back. -/
def mayCall (o : ObjId) : Bool :=
  w.sys.objActive o && !w.placings.contains (.arriving o)

/-- What the library and the event loop guarantee about the next turn. -/
def enabled : Turn → Bool
  | .place _ (some ci) => w.idFree ci.id && ci.state ≠ .disconnected
  | .incoming _ c _ => w.idFree c
  | .callState o _ => w.mayCall o && (w.callbacks.get? o).isNone
  | .mediaState o _ => w.mayCall o
  | .write _ _ => w.update.isNone
  | _ => true

end Switchboard

/-- Every order of the turns, on a server with these phones. -/
def switchboards (phones : OrderedDict PhoneId PhoneConfig) : GuardedSystem Switchboard Turn where
  init := .initial phones
  enabled w a := w.enabled a = true
  step := Switchboard.step

instance (phones : OrderedDict PhoneId PhoneConfig) (w : Switchboard) (a : Turn) :
    Decidable ((switchboards phones).enabled w a) :=
  inferInstanceAs (Decidable (w.enabled a = true))

/-! ## Changes of several calls -/

namespace Sys

/-- The tracked calls have different objects. -/
theorem nodup_callsOf {s : Sys} (h : s.table.Linked) (p : PhoneId) : (s.callsOf p).Nodup := by
  have hkey : ∀ e ∈ s.calls.entries, ∀ e' ∈ s.calls.entries, e.2 = e'.2 → e = e' := by
    intro e he e' he' heq
    have hc : s.table.calls.get? e.1 = some e.2 := (s.calls.get?_eq_some_iff _ _).mpr he
    have hc' : s.table.calls.get? e'.1 = some e'.2 := (s.calls.get?_eq_some_iff _ _).mpr he'
    obtain ⟨k, hk, hid, -⟩ := h.entry hc
    obtain ⟨k', hk', hid', -⟩ := h.entry hc'
    rw [heq, hk'] at hk
    cases hk
    exact Prod.ext (hid.symm.trans hid') heq
  refine List.Nodup.map_on (fun e he e' he' => ?_) (s.calls.nodup_keys.of_map.filter _)
  exact hkey e (List.mem_of_mem_filter he) e' (List.mem_of_mem_filter he')

theorem exists_of_mem_callsOf {s : Sys} (h : s.table.Linked) {p : PhoneId} {o : ObjId}
    (ho : o ∈ s.callsOf p) : ∃ call, s.objs[o]? = some call := by
  obtain ⟨c, hc, -⟩ := (s.mem_callsOf_iff p o).mp ho
  obtain ⟨k, hk, -⟩ := h.entry hc
  rw [table_heap, Option.map_eq_some_iff] at hk
  exact hk.imp fun call h => h.1

theorem mapObjs_nil (s : Sys) (f : ObjId → SipCall → SipCall) : s.mapObjs [] f = s := by
  have hobjs : s.objs.mapIdx (fun _ call => call) = s.objs := by
    apply List.ext_getElem?
    intro i
    rw [List.getElem?_mapIdx, Option.map_id']
  simp [mapObjs, hobjs]

/-- One object is changed, and then others. -/
theorem mapObjs_cons {s : Sys} (f : ObjId → SipCall → SipCall) {o : ObjId} {os : List ObjId}
    (ho : o ∉ os) {call : SipCall} (hcall : s.objs[o]? = some call) :
    mapObjs { s with objs := s.objs.set o (f o call) } os f = s.mapObjs (o :: os) f := by
  have hobjs : (s.objs.set o (f o call)).mapIdx (fun i x => if i ∈ os then f i x else x) =
      s.objs.mapIdx fun i x => if i ∈ o :: os then f i x else x := by
    apply List.ext_getElem?
    intro i
    rw [List.getElem?_mapIdx, List.getElem?_mapIdx, List.getElem?_set]
    by_cases hi : o = i
    · subst hi
      rw [if_pos rfl, if_pos (List.getElem?_eq_some_iff.mp hcall).1, hcall]
      simp [ho]
    · simp [hi, Ne.symm hi]
  simp only [mapObjs, hobjs]

/-- A re-INVITE is not a final answer. -/
theorem sendAll_reinvites (s : Sys) {cmds : List (ObjId × Command)}
    (h : ∀ e ∈ cmds, e.2 = .reinvite) :
    s.sendAll cmds = { s with commands := s.commands ++ cmds } := by
  induction cmds generalizing s with
  | nil => simp [sendAll]
  | cons e rest ih =>
      have hone : s.send e.1 e.2 = { s with commands := s.commands ++ [e] } := by
        obtain ⟨o, cmd⟩ := e
        have hcmd : cmd = .reinvite := h (o, cmd) List.mem_cons_self
        subst hcmd
        rfl
      change (s.send e.1 e.2).sendAll rest = _
      rw [ih _ fun e' he' => h e' (List.mem_cons_of_mem _ he'), hone]
      simp

end Sys

/-! ## Methods that nothing interrupts -/

namespace Switchboard

variable (w : Switchboard)

/-- `make_call`, uninterrupted. -/
theorem register_place_construct (phone : Option PhoneId) (destUri : String) (ci : CallInfo) :
    (((w.construct phone destUri).place w.placings.length (some ci)).register w.placings.length
      (some ci)).sys = (w.sys.makeCall phone destUri (some ci)).2 := by
  cases hp : w.sys.resolvePhone phone with
  | error e => simp [construct, place, register, Sys.makeCall, hp]
  | ok p =>
      cases hcfg : w.sys.phones.get? p with
      | none => simp [construct, place, register, Sys.makeCall, hp, hcfg]
      | some cfg =>
          simp [construct, place, register, setPlacing, Sys.makeCall, hp, hcfg, Sys.pushCall]
          rfl

/-- The handler of incoming calls, uninterrupted. -/
theorem enqueue_incoming (p : PhoneId) (c : CallId) (ci : Option CallInfo) :
    ((w.incoming p c ci).enqueue w.placings.length ci).sys = w.sys.onIncomingCall p c ci := by
  cases hcfg : w.sys.phones.get? p with
  | none => simp [incoming, enqueue, Sys.onIncomingCall, hcfg]
  | some cfg =>
      have hphone : (Sys.inboundCall p cfg c ci).phoneId = p := rfl
      have hid : (Sys.inboundCall p cfg c ci).callId = c := rfl
      simp only [incoming, hcfg, enqueue, List.getElem?_concat_length, Sys.pushCall,
        Sys.onIncomingCall, Sys.trackCall, Sys.registerCall, Sys.enqueueCall, hphone, hid,
        Option.any_some]

/-- `onCallState` before the end, uninterrupted. -/
theorem emit_callState {o : ObjId} {ci : CallInfo} (hstate : ci.state ≠ .disconnected)
    (env : SidecarEnv) (timestamp : String) :
    ((w.callState o ci).emit o).sys = w.sys.onCallState o ci env timestamp := by
  cases hcall : w.sys.objs[o]? with
  | none =>
      simp only [callState, emit, Sys.onCallState, hcall]
      split <;> rfl
  | some call =>
      have hlt := (List.getElem?_eq_some_iff.mp hcall).1
      simp only [callState, emit, Sys.onCallState, hcall, hstate, Sys.refreshInfo, if_false,
        OrderedDict.get?_set_self, List.getElem?_set_self hlt]

@[simp] theorem emit_sys (o : ObjId) : (w.emit o).sys = w.sys := by
  unfold emit
  split <;> rfl

/-- `onCallState` at the end, uninterrupted. -/
theorem emit_disconnect_callState {o : ObjId} {ci : CallInfo} (hstate : ci.state = .disconnected)
    (env : SidecarEnv) (timestamp : String) :
    (((w.callState o ci).disconnect o env timestamp).emit o).sys =
      w.sys.onCallState o ci env timestamp := by
  rw [emit_sys]
  cases hcall : w.sys.objs[o]? with
  | none =>
      simp only [callState, disconnect, Sys.onCallState, hcall]
      split
      · next heq => cases heq
      · rfl
  | some call =>
      have hlt := (List.getElem?_eq_some_iff.mp hcall).1
      simp only [callState, disconnect, Sys.onCallState, hcall, hstate, Sys.refreshInfo, if_true,
        OrderedDict.get?_set_self, List.getElem?_set_self hlt, Sys.closeCall, List.set_set]
      rfl

variable {w}

/-- One turn of the loop over the calls. -/
theorem apply_of_taken {p : PhoneId} {change : Change} {o : ObjId} {os : List ObjId}
    (hupdate : w.update = some ⟨p, change, some (o :: os)⟩) {call : SipCall}
    (hcall : w.sys.objs[o]? = some call) (rec : RecorderEnv) (env : SidecarEnv) :
    w.apply rec env =
      { w with sys := change.apply w.sys o call rec env, update := some ⟨p, change, some os⟩ } := by
  simp only [apply, hupdate, hcall]

/-- The loop of `set_recording_enabled`. -/
theorem foldl_apply_recordingEnabled {p : PhoneId} {enabled : Bool} {os : List ObjId}
    (hupdate : w.update = some ⟨p, .recordingEnabled enabled, some os⟩) (hos : os.Nodup)
    (hcalls : ∀ o ∈ os, ∃ call, w.sys.objs[o]? = some call)
    (rec : ObjId → RecorderEnv) (env : ObjId → SidecarEnv) :
    (os.foldl (fun w o => w.apply (rec o) (env o)) w).sys = w.sys.mapObjs os fun o call =>
      call.toggleRecording enabled (w.sys.currentPcapPathFor call.phoneId) (rec o) (env o) := by
  induction os generalizing w with
  | nil => exact (Sys.mapObjs_nil _ _).symm
  | cons o os ih =>
      obtain ⟨hnew, hnd⟩ := List.nodup_cons.mp hos
      obtain ⟨call, hcall⟩ := hcalls o List.mem_cons_self
      rw [List.foldl_cons, apply_of_taken hupdate hcall, ih rfl hnd (fun i hi => ?_)]
      · exact Sys.mapObjs_cons (fun i x => x.toggleRecording enabled
          (w.sys.currentPcapPathFor x.phoneId) (rec i) (env i)) hnew hcall
      · obtain ⟨x, hx⟩ := hcalls i (List.mem_cons_of_mem _ hi)
        have hne : o ≠ i := fun heq => hnew (heq ▸ hi)
        exact ⟨x, (List.getElem?_set_ne hne).trans hx⟩

/-- The loop of `set_codecs_for_phone`. -/
theorem foldl_apply_codecs {p : PhoneId} {names : List String} {os : List ObjId}
    (hupdate : w.update = some ⟨p, .codecs names, some os⟩) (hos : os.Nodup)
    (hcalls : ∀ o ∈ os, ∃ call, w.sys.objs[o]? = some call)
    (rec : ObjId → RecorderEnv) (env : ObjId → SidecarEnv) :
    (os.foldl (fun w o => w.apply (rec o) (env o)) w).sys =
      (w.sys.mapObjs os fun _ call =>
        { call with codecs := SipCall.codecFilter (some names) }).sendAll
        ((os.filter fun o => w.sys.objs[o]?.any fun call => call.inv = .confirmed).map fun o =>
          (o, .reinvite)) := by
  induction os generalizing w with
  | nil => exact (Sys.mapObjs_nil _ _).symm
  | cons o os ih =>
      obtain ⟨hnew, hnd⟩ := List.nodup_cons.mp hos
      obtain ⟨call, hcall⟩ := hcalls o List.mem_cons_self
      have hne : ∀ i ∈ os, o ≠ i := fun i hi heq => hnew (heq ▸ hi)
      have hone : (Change.codecs names).apply w.sys o call (rec o) (env o) =
          { w.sys with
            objs := w.sys.objs.set o { call with codecs := SipCall.codecFilter (some names) }
            commands := w.sys.commands ++
              if call.inv = .confirmed then [(o, .reinvite)] else [] } := by
        simp only [Change.apply]
        split_ifs
        · rfl
        · rw [List.append_nil]
      have hrest : os.filter (fun i =>
          (w.sys.objs.set o { call with codecs := SipCall.codecFilter (some names) })[i]?.any
            fun x => x.inv = .confirmed) =
          os.filter fun i => w.sys.objs[i]?.any fun x => x.inv = .confirmed :=
        List.filter_congr fun i hi => by rw [List.getElem?_set_ne (hne i hi)]
      have hsent : ((o :: os).filter fun i => w.sys.objs[i]?.any fun x =>
          x.inv = .confirmed).map (fun i => (i, Command.reinvite)) =
          (if call.inv = .confirmed then [(o, .reinvite)] else []) ++
            (os.filter fun i => w.sys.objs[i]?.any fun x => x.inv = .confirmed).map
              fun i => (i, .reinvite) := by
        by_cases hconfirmed : call.inv = .confirmed <;> simp [hcall, hconfirmed]
      have hreinvites : ∀ (l : List ObjId), ∀ e ∈ l.map (fun i => (i, Command.reinvite)),
          e.2 = .reinvite := by
        intro l e he
        obtain ⟨i, -, rfl⟩ := List.mem_map.mp he
        rfl
      rw [List.foldl_cons, apply_of_taken hupdate hcall, ih rfl hnd (fun i hi => ?_)]
      · rw [hone, hrest, Sys.sendAll_reinvites _ (hreinvites _),
          Sys.sendAll_reinvites _ (hreinvites _), hsent, ← Sys.mapObjs_cons (fun _ x =>
            { x with codecs := SipCall.codecFilter (some names) }) hnew hcall]
        simp [Sys.mapObjs]
      · obtain ⟨x, hx⟩ := hcalls i (List.mem_cons_of_mem _ hi)
        refine ⟨x, ?_⟩
        rw [hone]
        exact (List.getElem?_set_ne (hne i hi)).trans hx

theorem take_write_update {p : PhoneId} {cfg : PhoneConfig}
    (hcfg : w.sys.phones.get? p = some cfg) (change : Change) :
    (w.write p change).take.update = some ⟨p, change, some (w.sys.callsOf p)⟩ := by
  simp only [write, hcfg, take]
  rfl

theorem take_write_sys {p : PhoneId} {cfg : PhoneConfig} (hcfg : w.sys.phones.get? p = some cfg)
    (change : Change) :
    (w.write p change).take.sys =
      { w.sys with phones := w.sys.phones.set p (change.write cfg) } := by
  simp only [write, hcfg, take]

/-- `update_phone(recording_enabled=...)`, uninterrupted. -/
theorem apply_take_write_recordingEnabled (h : w.sys.table.Linked) {p : PhoneId}
    {cfg : PhoneConfig} (hcfg : w.sys.phones.get? p = some cfg) (enabled : Bool)
    (rec : ObjId → RecorderEnv) (env : ObjId → SidecarEnv) :
    ((w.sys.callsOf p).foldl (fun w o => w.apply (rec o) (env o))
      (w.write p (.recordingEnabled enabled)).take).sys =
        w.sys.setRecordingEnabled p enabled rec env := by
  rw [foldl_apply_recordingEnabled (take_write_update hcfg _) (Sys.nodup_callsOf h p)
    (fun o ho => ?_), take_write_sys hcfg]
  · simp only [Sys.setRecordingEnabled, hcfg]
    rfl
  · rw [take_write_sys hcfg]
    exact Sys.exists_of_mem_callsOf h ho

/-- `update_phone(codecs=...)`, uninterrupted. -/
theorem apply_take_write_codecs (h : w.sys.table.Linked) {p : PhoneId} {cfg : PhoneConfig}
    (hcfg : w.sys.phones.get? p = some cfg) (names : List String)
    (rec : ObjId → RecorderEnv) (env : ObjId → SidecarEnv) :
    ((w.sys.callsOf p).foldl (fun w o => w.apply (rec o) (env o))
      (w.write p (.codecs names)).take).sys = w.sys.setCodecsForPhone p names := by
  rw [foldl_apply_codecs (take_write_update hcfg _) (Sys.nodup_callsOf h p) (fun o ho => ?_),
    take_write_sys hcfg]
  · simp only [Sys.setCodecsForPhone, hcfg]
    rfl
  · rw [take_write_sys hcfg]
    exact Sys.exists_of_mem_callsOf h ho

end Switchboard

end PjsuaMcp.Calls
