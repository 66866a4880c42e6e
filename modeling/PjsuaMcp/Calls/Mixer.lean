import PjsuaMcp.Calls.AudioBridge
import PjsuaMcp.Calls.PlacementSteps

/-!
# Who hears whom

The conference bridge along the runs of the server, whatever bridge it is. The
methods of the calls connect the ports of one call, and only `conference` connects
calls with each other. So in every state the connections of a call are told from
its recorder, its player and its audio port, and audio passes between calls of one
phone at most.

## Implementation notes

`failed` keeps for which calls the last media callback with an active media has
ended with an exception; their recorder may not hear the new audio port. A call
has one audio stream, so at most one of its media is active. A file that opens is
played only if the audio port is still on the bridge, because `play_file` raises
otherwise; the actions therefore say whether the player could be created.
-/

namespace PjsuaMcp.Calls

open Library

/-- The server and the bridge. -/
structure Mixer (B : AudioBridge) where
  sys : Sys
  bridge : B.State
  failed : ObjId → Bool

inductive MixerAction
  | act (a : Action) (env : PortEnv)
  | playAudio (filePath : String) (phone : Option PhoneId) (c : Option CallId) (created : Bool)
  | stopAudio (phone : Option PhoneId) (c : Option CallId) (mohExists created : Bool)
  | conference (callIds : List CallId) (phone : Option PhoneId)

namespace Mixer

variable {B : AudioBridge}

/-- The audio port of the call is on the bridge. -/
def remoteOpen (m : Mixer B) (o : ObjId) : Bool := B.isOpen m.bridge (.ofCall o .remote)

/-- The connection of the call is there. -/
def carries (m : Mixer B) (o : ObjId) (wire : Wire) : Bool :=
  B.transmits m.bridge (wire.sourcePort o) (wire.sinkPort o)

/-- The second call hears the first one. -/
def linked (m : Mixer B) (first second : ObjId) : Bool :=
  B.transmits m.bridge (.ofCall first .remote) (.ofCall second .remote)

/-! ## Actions of the server -/

/-- What an action does to the ports of a call. -/
def portOps (s : Sys) (a : Action) (env : PortEnv) (remoteOpen : Bool) (o : ObjId)
    (call : SipCall) : List PortOp :=
  match a with
  | .callState i ci _ _ => if i = o ∧ ci.state = .disconnected then call.onDisconnectedPorts else []
  | .mediaState i media => if i = o then call.onCallMediaStatePorts env remoteOpen media else []
  | .setRecordingEnabled p enabled rec _ =>
      if s.phones.contains p ∧ o ∈ s.callsOf p then call.toggleRecordingPorts enabled (rec o)
      else []
  | _ => []

def portOpsOf (m : Mixer B) (a : Action) (env : PortEnv) (o : ObjId) : List PortOp :=
  match m.sys.objs[o]? with
  | none => []
  | some call => portOps m.sys a env (m.remoteOpen o) o call

def bridgeAfter (m : Mixer B) (a : Action) (env : PortEnv) : B.State :=
  B.performAll m.bridge (List.range m.sys.objs.length) (m.portOpsOf a env)

def failedAfter (m : Mixer B) (a : Action) (o : ObjId) : Bool :=
  match a, m.sys.objs[o]? with
  | .mediaState i media, some call =>
      if i = o then call.leftBehind (m.failed o) media else m.failed o
  | _, _ => m.failed o

/-! ## Operations on the audio -/

def portOpen (m : Mixer B) : Except String ObjId → Bool
  | .error _ => false
  | .ok o => m.remoteOpen o

/-- A method of the call that was found. -/
def performFound (m : Mixer B) (found : Except String ObjId) (ops : SipCall → List PortOp) :
    B.State :=
  match found with
  | .error _ => m.bridge
  | .ok o =>
      match m.sys.objs[o]? with
      | none => m.bridge
      | some call => B.perform m.bridge o (ops call)

/-- The loops of `conference`: every port is connected with every other one. -/
def conferencePairs : Except String (List ObjId) → List (Port × Port)
  | .error _ => []
  | .ok ports =>
      (ports.zipIdx ×ˢ ports.zipIdx).filterMap fun e =>
        if e.1.2 ≠ e.2.2 then some (.ofCall e.1.1 .remote, .ofCall e.2.1 .remote) else none

def enabled (m : Mixer B) : MixerAction → Bool
  | .act (.mediaState o media) _ =>
      m.sys.enabled (.mediaState o media) && media.countP (·.audioActive) ≤ 1
  | .act a _ => m.sys.enabled a
  | _ => true

def step (m : Mixer B) : MixerAction → Mixer B
  | .act a env =>
      { sys := m.sys.step a
        bridge := m.bridgeAfter a env
        failed := m.failedAfter a }
  | .playAudio filePath phone c created =>
      let found := m.sys.lookup phone c
      let opened := created && m.portOpen found
      { m with
        sys := ((PhoneOp.playAudio filePath phone c opened).run m.sys).state
        bridge := m.performFound found fun call => call.playFilePorts opened }
  | .stopAudio phone c mohExists created =>
      let found := m.sys.lookup phone c
      let opened := created && m.portOpen found
      { m with
        sys := ((PhoneOp.stopAudio phone c mohExists opened).run m.sys).state
        bridge := m.performFound found fun call => call.stopPlaybackPorts mohExists opened }
  | .conference callIds phone =>
      let pairs := conferencePairs (m.sys.conferenceCalls phone callIds)
      { m with
        sys := ((PhoneOp.conference callIds phone).run m.sys).state
        bridge := B.run m.bridge (pairs.map fun e => .startTransmit e.1 e.2) }

end Mixer

/-- The server as it makes and loses connections on the bridge. -/
def mixer (B : AudioBridge) : GuardedSystem (Mixer B) MixerAction where
  init := ⟨Sys.initial, B.start, fun _ => false⟩
  enabled := fun m a => m.enabled a = true
  step := Mixer.step

instance {B : AudioBridge} (m : Mixer B) (a : MixerAction) : Decidable ((mixer B).enabled m a) :=
  inferInstanceAs (Decidable (m.enabled a = true))

namespace Sys

/-! ## The calls along a step -/

/-- A call keeps its phone. -/
theorem ObjectStep.phoneId {s : Sys} {a : Action} {o : ObjId} {call call' : SipCall}
    (h : s.ObjectStep a o call') (ho : s.objs[o]? = some call) : call'.phoneId = call.phoneId := by
  cases h with
  | kept hold same =>
      rw [ho] at hold
      cases hold
      exact congrArg (fun call => call.phoneId) same
  | created fresh =>
      rw [ho] at fresh
      cases fresh
  | refreshed _ hold _ eq =>
      rw [ho] at hold
      cases hold
      rw [eq]
      rfl
  | ended _ hold _ eq =>
      rw [ho] at hold
      cases hold
      rw [eq]
      exact congrArg CallIdentity.phoneId (SipCall.alike_closed _ _ _).identity
  | media _ hold eq =>
      rw [ho] at hold
      cases hold
      rw [eq]
      exact congrArg CallIdentity.phoneId (SipCall.alike_onCallMediaState _ _).identity
  | toggled _ hold _ eq =>
      rw [ho] at hold
      cases hold
      rw [eq]
      exact congrArg (fun skeleton => skeleton.identity.phoneId)
        (SipCall.toggleRecording_skeleton _ _ _ _ _)

/-- A call object stays, and it stays with its phone. -/
theorem step_phoneId {s : Sys} (hs : s.table.Sound) {a : Action} (en : s.enabled a = true)
    {o : ObjId} {call : SipCall} (ho : s.objs[o]? = some call) :
    ∃ call', (s.step a).objs[o]? = some call' ∧ call'.phoneId = call.phoneId := by
  have heap := step_heap hs en
  have hlt := (List.getElem?_eq_some_iff.mp ho).1
  obtain ⟨call', ho'⟩ : ∃ call', (s.step a).objs[o]? = some call' :=
    ⟨_, List.getElem?_eq_getElem (hlt.trans_le heap.grows)⟩
  exact ⟨call', ho', (heap.object o call' ho').phoneId ho⟩

/-- A new call neither records nor plays. -/
theorem newCall_silent {s : Sys} {a : Action} {call : SipCall} (h : s.newCall a = some call) :
    call.recorder = none ∧ call.playerFile = none := by
  cases a with
  | makeCall phone destUri placed =>
      cases placed with
      | none => cases h
      | some ci =>
          simp only [newCall] at h
          split at h
          · cases h
          · obtain ⟨cfg, -, rfl⟩ := Option.map_eq_some_iff.mp h
            exact ⟨rfl, rfl⟩
  | incomingCall p c ci =>
      obtain ⟨cfg, -, rfl⟩ := Option.map_eq_some_iff.mp h
      exact ⟨rfl, rfl⟩
  | _ => cases h

/-- A call that is given to a phone was made or received by it. -/
theorem phone_of_owns {s : Sys} (hs : s.table.Sound) {p : PhoneId} {o : ObjId}
    (howns : s.Owns p o) : ∃ call, s.objs[o]? = some call ∧ call.phoneId = p := by
  obtain ⟨c, hget, howner⟩ := howns
  obtain ⟨k, hk, -, hphone⟩ := hs.entry hget
  rw [table_heap, Option.map_eq_some_iff] at hk
  obtain ⟨call, hcall, rfl⟩ := hk
  exact ⟨call, hcall, Option.some.inj (hphone.symm.trans howner)⟩

end Sys

/-! ## What every state satisfies -/

namespace Mixer

variable {B : AudioBridge} {m : Mixer B}

/-- The two calls are there, on one phone, and both audio ports are on the bridge. -/
def Joins (m : Mixer B) (first second : ObjId) : Prop :=
  ∃ a b, m.sys.objs[first]? = some a ∧ m.sys.objs[second]? = some b ∧ a.phoneId = b.phoneId ∧
    m.remoteOpen first = true ∧ m.remoteOpen second = true

/-- A connection within a call, or between the peers of two calls of one phone. -/
inductive Known (m : Mixer B) : Port → Port → Prop
  | own (o : ObjId) (wire : Wire) : Known m (wire.sourcePort o) (wire.sinkPort o)
  | joined {first second : ObjId} {a b : SipCall} (first_at : m.sys.objs[first]? = some a)
      (second_at : m.sys.objs[second]? = some b) (phone : a.phoneId = b.phoneId) :
      Known m (.ofCall first .remote) (.ofCall second .remote)

/-- Every call is connected as it ought to be, and nothing else but calls of one phone. -/
structure Connected (m : Mixer B) : Prop where
  sound : m.sys.table.Sound
  device : B.isOpen m.bridge .playback = true
  ends : B.OpenEnds m.bridge
  wired : ∀ (o : ObjId) (call : SipCall), m.sys.objs[o]? = some call →
    WiredBut (fun wire => m.failed o && wire.touches .recorder) call (B.wiring m.bridge o)
  closed : ∀ o, m.sys.objs[o]? = none → ∀ kind, B.isOpen m.bridge (.ofCall o kind) = false
  known : ∀ p q, B.transmits m.bridge p q = true → m.Known p q

/-- Calls stay with their phones, so what is known stays known. -/
theorem Known.step {m' : Mixer B} {p q : Port} (h : m.Known p q)
    (stays : ∀ (o : ObjId) (call : SipCall), m.sys.objs[o]? = some call →
      ∃ call', m'.sys.objs[o]? = some call' ∧ call'.phoneId = call.phoneId) : m'.Known p q := by
  cases h with
  | own o wire => exact .own o wire
  | @joined first second a b first_at second_at phone =>
      obtain ⟨a', ha', haphone⟩ := stays first a first_at
      obtain ⟨b', hb', hbphone⟩ := stays second b second_at
      exact .joined ha' hb' (haphone.trans (phone.trans hbphone.symm))

/-! ## Actions of the server -/

/-- The wiring of a call changes by the operations of that call only. -/
theorem wiring_bridgeAfter (h : m.Connected) (a : Action) (env : PortEnv) (o : ObjId) :
    B.wiring (m.bridgeAfter a env) o = (B.wiring m.bridge o).after (m.portOpsOf a env o) := by
  unfold bridgeAfter
  rw [AudioBridge.wiring_performAll h.device List.nodup_range]
  split_ifs with ho
  · rfl
  · have hnone : m.sys.objs[o]? = none := by
      rw [List.getElem?_eq_none_iff, ← not_lt, ← List.mem_range]
      exact ho
    rw [portOpsOf, hnone]
    rfl

/-- The connections of a call are what they ought to be after an action. -/
def WiredAfter (m : Mixer B) (a : Action) (env : PortEnv) (o : ObjId) (call' : SipCall) : Prop :=
  WiredBut (fun wire => m.failedAfter a o && wire.touches .recorder) call'
    ((B.wiring m.bridge o).after (m.portOpsOf a env o))

theorem Connected.kept (h : m.Connected) {a : Action} {env : PortEnv} {o : ObjId}
    {call call' : SipCall} (ho : m.sys.objs[o]? = some call) (same : call'.core = call.core)
    (hfailed : m.failedAfter a o = m.failed o)
    (hquiet : portOps m.sys a env (m.remoteOpen o) o call = []) :
    m.WiredAfter a env o call' := by
  have hview : call'.core.audioView = call.core.audioView := by rw [same]
  rw [WiredAfter, hfailed, portOpsOf, ho]
  simp only [hquiet]
  exact (h.wired o call ho).of_view hview

/-- A state callback wires its call, and cuts it off when it has ended. -/
theorem Connected.callState (h : m.Connected) {i : ObjId} {ci : CallInfo} {sidecar : SidecarEnv}
    {timestamp : String} (en : m.sys.objActive i = true) (env : PortEnv) {o : ObjId}
    {call' : SipCall} (ho' : (m.sys.onCallState i ci sidecar timestamp).objs[o]? = some call') :
    m.WiredAfter (.callState i ci sidecar timestamp) env o call' := by
  obtain ⟨call, hi, -⟩ := Sys.exists_of_objActive en
  by_cases hstate : ci.state = .disconnected
  · obtain ⟨_, ends⟩ := Sys.onCallState_untracks h.sound hi hstate sidecar timestamp
    rw [ends.objs] at ho'
    obtain ⟨rfl, rfl⟩ | ⟨hother, hold⟩ := cell_of_set ho'
    · simp only [WiredAfter, portOpsOf, hi, portOps, hstate, and_self, if_true]
      exact (h.wired o call hi).onDisconnected ci _ sidecar
    · apply h.kept hold rfl rfl
      exact if_neg fun hsame => hother hsame.1.symm
  · rw [Sys.onCallState_refreshed hi hstate] at ho'
    obtain ⟨rfl, rfl⟩ | ⟨hother, hold⟩ := cell_of_set ho'
    · have hquiet : portOps m.sys (.callState o ci sidecar timestamp) env (m.remoteOpen o) o call =
          [] := if_neg fun hsame => hstate hsame.2
      exact (h.kept hi rfl rfl hquiet : m.WiredAfter _ env o call).of_view rfl
    · apply h.kept hold rfl rfl
      exact if_neg fun hsame => hother hsame.1.symm

/-- A media callback wires its call anew. -/
theorem Connected.mediaState (h : m.Connected) {i : ObjId} {media : List MediaStatus}
    (en : m.sys.objActive i = true) (env : PortEnv) {o : ObjId} {call' : SipCall}
    (ho' : (m.sys.onCallMediaState i media).objs[o]? = some call') :
    m.WiredAfter (.mediaState i media) env o call' := by
  obtain ⟨call, hi, -⟩ := Sys.exists_of_objActive en
  rw [Sys.onCallMediaState_objs hi] at ho'
  obtain ⟨rfl, rfl⟩ | ⟨hother, hold⟩ := cell_of_set ho'
  · simp only [WiredAfter, failedAfter, portOpsOf, hi, portOps, if_true]
    exact (h.wired o call hi).onCallMediaState env _ media
  · apply h.kept hold rfl
    · simp [failedAfter, hold, hother.symm]
    · exact if_neg hother.symm

/-- Switching recording wires the calls of the phone. -/
theorem Connected.setRecordingEnabled (h : m.Connected) {p : PhoneId} {enabled : Bool}
    {rec : ObjId → RecorderEnv} {sidecar : ObjId → SidecarEnv} (env : PortEnv) {o : ObjId}
    {call' : SipCall}
    (ho' : (m.sys.setRecordingEnabled p enabled rec sidecar).objs[o]? = some call') :
    m.WiredAfter (.setRecordingEnabled p enabled rec sidecar) env o call' := by
  unfold Sys.setRecordingEnabled at ho'
  cases hp : m.sys.phones.get? p with
  | none =>
      simp only [hp] at ho'
      apply h.kept ho' rfl rfl
      apply if_neg
      simp [OrderedDict.contains, hp]
  | some cfg =>
      simp only [hp, Sys.mapObjs, List.getElem?_mapIdx, Option.map_eq_some_iff] at ho'
      obtain ⟨call, hold, rfl⟩ := ho'
      split_ifs with hmem
      · have howned : m.sys.phones.contains p = true ∧ o ∈ m.sys.callsOf p :=
          ⟨(OrderedDict.contains_iff _ p).mpr ⟨cfg, hp⟩, hmem⟩
        simp only [WiredAfter, portOpsOf, hold, portOps, if_pos howned]
        exact (h.wired o call hold).toggleRecording enabled _ (rec o) (sidecar o)
      · apply h.kept hold rfl rfl
        exact if_neg fun howned => hmem howned.2

/-- Every call is wired as it says after a step of the manager. -/
theorem Connected.act_wired (h : m.Connected) {a : Action} (en : m.sys.enabled a = true)
    (env : PortEnv) (o : ObjId) (call' : SipCall)
    (ho' : (m.sys.step a).objs[o]? = some call') : m.WiredAfter a env o call' := by
  cases a with
  | callState i ci sidecar timestamp => exact h.callState en env ho'
  | mediaState i media => exact h.mediaState en env ho'
  | setRecordingEnabled p enabled rec sidecar => exact h.setRecordingEnabled env ho'
  | _ =>
      cases (Sys.step_heap h.sound en).object o call' ho' with
      | kept ho same => exact h.kept ho same rfl rfl
      | created fresh new =>
          obtain ⟨hrecorder, hplayer⟩ := Sys.newCall_silent new
          simp only [WiredAfter, portOpsOf, fresh]
          exact .silent (h.closed o fresh) hrecorder hplayer
      | refreshed ha => cases ha
      | ended ha => cases ha
      | media ha => cases ha
      | toggled ha => cases ha

theorem Connected.act (h : m.Connected) {a : Action} (en : m.sys.enabled a = true)
    (env : PortEnv) : (m.step (.act a env)).Connected where
  sound := Sys.step_sound en h.sound
  device := AudioBridge.device_performAll h.device _ _
  ends := AudioBridge.openEnds_performAll h.ends _ _
  wired o call' ho' := by
    change WiredBut _ call' (B.wiring (m.bridgeAfter a env) o)
    rw [wiring_bridgeAfter h]
    exact h.act_wired en env o call' ho'
  closed o ho kind := by
    have hnone : m.sys.objs[o]? = none := by
      by_contra hsome
      obtain ⟨call, hcall⟩ := Option.ne_none_iff_exists'.mp hsome
      obtain ⟨call', hcall', -⟩ := Sys.step_phoneId h.sound en hcall
      rw [show (m.sys.step a).objs[o]? = none from ho] at hcall'
      cases hcall'
    have hwiring := wiring_bridgeAfter h a env o
    rw [portOpsOf, hnone] at hwiring
    have hports := congrFun (congrArg Wiring.isOpen hwiring) kind
    exact hports.trans (h.closed o hnone kind)
  known p q htransmits := by
    obtain hold | ⟨o, wire, rfl, rfl⟩ := AudioBridge.transmits_performAll_cases htransmits
    · exact (h.known p q hold).step fun o call ho => Sys.step_phoneId h.sound en ho
    · exact .own o wire

/-! ## Operations on the audio -/

/-- An operation on a call that is looked up changes this call and its connections, or nothing. -/
theorem found_cases (m : Mixer B) (found : Except String ObjId)
    (f : SipCall → Option String × SipCall) (ops : SipCall → List PortOp) :
    (m.sys.changeFound found f).2 = m.sys ∧ m.performFound found ops = m.bridge ∨
      ∃ i call, m.sys.objs[i]? = some call ∧
        (m.sys.changeFound found f).2 = { m.sys with objs := m.sys.objs.set i (f call).2 } ∧
        m.performFound found ops = B.perform m.bridge i (ops call) := by
  cases found with
  | error e => exact .inl ⟨rfl, rfl⟩
  | ok i =>
      cases hi : m.sys.objs[i]? with
      | none =>
          refine .inl ⟨?_, ?_⟩
          · simp only [Sys.changeFound, hi]
          · simp only [performFound, hi]
      | some call =>
          refine .inr ⟨i, call, hi, ?_, ?_⟩
          · simp only [Sys.changeFound, hi]
          · simp only [performFound, hi]

/-- A call and its connections change, but not its phone. -/
theorem Connected.change (h : m.Connected) {s' : Sys} {i : ObjId} {call call' : SipCall}
    {ops : List PortOp} (hi : m.sys.objs[i]? = some call) (hsound : s'.table.Sound)
    (hobjs : s'.objs = m.sys.objs.set i call') (hphone : call'.phoneId = call.phoneId)
    (hwired : WiredBut (fun wire => m.failed i && wire.touches .recorder) call'
      ((B.wiring m.bridge i).after ops)) :
    Connected ⟨s', B.perform m.bridge i ops, m.failed⟩ := by
  have hlt := (List.getElem?_eq_some_iff.mp hi).1
  refine ⟨hsound, AudioBridge.device_perform h.device i ops, h.ends.run _, fun o x hx => ?_,
    fun o ho kind => ?_, fun p q htransmits => ?_⟩
  · dsimp only at hx ⊢
    rw [hobjs] at hx
    obtain ⟨rfl, rfl⟩ | ⟨hother, hold⟩ := cell_of_set hx
    · rw [AudioBridge.wiring_perform h.device]
      exact hwired
    · rw [AudioBridge.wiring_perform_of_ne hother]
      exact h.wired o x hold
  · dsimp only at ho
    rw [hobjs, List.getElem?_eq_none_iff, List.length_set] at ho
    have hwiring := AudioBridge.wiring_perform_of_ne (b := m.bridge) (hlt.trans_le ho).ne' ops
    have hports := congrFun (congrArg Wiring.isOpen hwiring) kind
    exact hports.trans (h.closed o (List.getElem?_eq_none_iff.mpr ho) kind)
  · obtain hold | ⟨wire, rfl, rfl⟩ := AudioBridge.transmits_perform_cases htransmits
    · apply (h.known p q hold).step
      intro o x hx
      dsimp only
      rw [hobjs]
      by_cases ho : o = i
      · subst ho
        rw [hi] at hx
        cases hx
        rw [List.getElem?_set_self hlt]
        exact ⟨call', rfl, hphone⟩
      · rw [List.getElem?_set_ne (Ne.symm ho)]
        exact ⟨x, hx, rfl⟩
    · exact .own i wire

theorem Connected.found (h : m.Connected) {found : Except String ObjId}
    {f : SipCall → Option String × SipCall} {ops : SipCall → List PortOp}
    (hskeleton : ∀ call, (f call).2.skeleton = call.skeleton)
    (hwired : ∀ {missing call w}, WiredBut missing call w →
      WiredBut missing (f call).2 (w.after (ops call))) :
    Connected ⟨(m.sys.changeFound found f).2, m.performFound found ops, m.failed⟩ := by
  have hsound : (m.sys.changeFound found f).2.table.Sound := by
    rw [(changeFound_still m.sys found hskeleton).table]
    exact h.sound
  obtain ⟨hsys, hbridge⟩ | ⟨i, call, hi, hsys, hbridge⟩ := m.found_cases found f ops
  · rw [hsys, hbridge]
    exact h
  · rw [hbridge]
    apply h.change hi hsound
    · rw [hsys]
    · exact congrArg (fun skeleton => skeleton.identity.phoneId) (hskeleton call)
    · exact hwired (h.wired i call hi)

/-- A conference connects the remote ports of its calls. -/
theorem mem_conferencePairs {ports : List ObjId} {e : Port × Port}
    (he : e ∈ conferencePairs (.ok ports)) :
    ∃ first ∈ ports, ∃ second ∈ ports, e = (.ofCall first .remote, .ofCall second .remote) := by
  obtain ⟨⟨⟨first, i⟩, second, j⟩, hmem, heq⟩ := List.mem_filterMap.mp he
  obtain ⟨hfirst, hsecond⟩ := List.pair_mem_product.mp hmem
  split_ifs at heq
  exact ⟨first, List.fst_mem_of_mem_zipIdx hfirst, second, List.fst_mem_of_mem_zipIdx hsecond,
    (Option.some.inj heq).symm⟩

/-- Any two participants are connected in both directions. -/
theorem conferencePairs_mem {ports : List ObjId} {first second : ObjId} (hfirst : first ∈ ports)
    (hsecond : second ∈ ports) (hne : first ≠ second) :
    (.ofCall first .remote, .ofCall second .remote) ∈ conferencePairs (.ok ports) := by
  obtain ⟨i, hi⟩ := List.mem_iff_getElem?.mp hfirst
  obtain ⟨j, hj⟩ := List.mem_iff_getElem?.mp hsecond
  have hpositions : i ≠ j := by
    rintro rfl
    exact hne (Option.some.inj (hi.symm.trans hj))
  apply List.mem_filterMap.mpr
  refine ⟨((first, i), (second, j)), List.pair_mem_product.mpr ⟨?_, ?_⟩, if_pos hpositions⟩
  · exact List.mk_mem_zipIdx_iff_getElem?.mpr hi
  · exact List.mk_mem_zipIdx_iff_getElem?.mpr hj

/-- What `conference` connects are calls of the phone it is invoked for. -/
theorem Connected.known_pair (h : m.Connected) {callIds : List CallId} {phone : Option PhoneId}
    {e : Port × Port} (he : e ∈ conferencePairs (m.sys.conferenceCalls phone callIds)) :
    m.Known e.1 e.2 := by
  cases hports : m.sys.conferenceCalls phone callIds with
  | error error =>
      rw [hports] at he
      cases he
  | ok ports =>
      obtain ⟨p, hphone, -⟩ := except_bind_eq_ok.mp hports
      have howns := Sys.owns_of_conferenceCalls hphone hports
      rw [hports] at he
      obtain ⟨first, hfirst, second, hsecond, rfl⟩ := mem_conferencePairs he
      obtain ⟨a, ha, haphone⟩ := Sys.phone_of_owns h.sound (howns first hfirst)
      obtain ⟨b, hb, hbphone⟩ := Sys.phone_of_owns h.sound (howns second hsecond)
      exact .joined ha hb (haphone.trans hbphone.symm)

/-- A conference leaves the own wires of the calls alone. -/
theorem Connected.conference (h : m.Connected) (callIds : List CallId) (phone : Option PhoneId) :
    (m.step (.conference callIds phone)).Connected where
  sound := h.sound
  device := (B.isOpen_run_requests _ _ _).trans h.device
  ends := h.ends.run _
  wired o call ho := by
    apply (h.wired o call ho).of_more
    · exact funext fun kind => B.isOpen_run_requests _ _ _
    · intro wire hwire
      obtain ⟨hsource, hsink⟩ := h.ends _ _ hwire
      exact B.transmits_run_requests hsource hsink (.inl hwire)
  closed o ho kind := (B.isOpen_run_requests _ _ _).trans (h.closed o ho kind)
  known p q htransmits := by
    have hkept : ∀ {p q}, m.Known p q → (m.step (.conference callIds phone)).Known p q :=
      fun hknown => hknown.step fun o call ho => ⟨call, ho, rfl⟩
    obtain hold | hnew := B.transmits_run_cases htransmits
    · exact hkept (h.known p q hold)
    · obtain ⟨e, he, heq⟩ := List.mem_map.mp hnew
      cases heq
      exact hkept (h.known_pair he)

/-- Every step leaves the calls wired as they say. -/
theorem step_connected (h : m.Connected) {a : MixerAction} (en : m.enabled a = true) :
    (m.step a).Connected := by
  cases a with
  | act a env =>
      apply h.act _ env
      cases a with
      | mediaState o media => exact Bool.and_elim_left en
      | _ => exact en
  | playAudio filePath phone c created =>
      apply h.found
      · exact fun call => call.playFile_skeleton filePath _
      · exact fun wired => wired.playFile filePath _
  | stopAudio phone c mohExists created =>
      apply h.found
      · exact fun call => call.stopPlayback_skeleton mohExists _
      · exact fun wired => wired.stopPlayback mohExists _
  | conference callIds phone => exact h.conference callIds phone

theorem connected_initial : (mixer B).init.Connected where
  sound := CallTable.sound_empty
  device := (B.isOpen_start _).trans (decide_eq_true rfl)
  ends := B.openEnds_start
  wired o call ho := by cases ho
  closed o _ kind := (B.isOpen_start _).trans (decide_eq_false (by intro heq; cases heq))
  known p q htransmits := by
    rw [show (mixer B).init.bridge = B.start from rfl, B.transmits_start] at htransmits
    cases htransmits

/-- What a connection is for, with both of its ports on the bridge. -/
theorem Connected.explained (h : m.Connected) {p q : Port}
    (htransmits : B.transmits m.bridge p q = true) :
    (∃ (o : ObjId) (call : SipCall) (wire : Wire), m.sys.objs[o]? = some call ∧
      p = wire.sourcePort o ∧ q = wire.sinkPort o) ∨
    ∃ first second, m.Joins first second ∧ p = .ofCall first .remote ∧
      q = .ofCall second .remote := by
  obtain ⟨hp, hq⟩ := h.ends p q htransmits
  cases h.known p q htransmits with
  | own o wire =>
      cases ho : m.sys.objs[o]? with
      | none =>
          have hclosed := h.closed o ho wire.source
          rw [Wire.sourcePort, hclosed] at hp
          cases hp
      | some call => exact .inl ⟨o, call, wire, ho, rfl, rfl⟩
  | @joined first second a b first_at second_at phone =>
      exact .inr ⟨first, second, ⟨a, b, first_at, second_at, phone, hp, hq⟩, rfl, rfl⟩

end Mixer

/-- Two recorded calls of one phone, each with music. -/
def musical : List MixerAction :=
  [.act (.addPhone "alice" { domain := "d", recordingEnabled := true } ⟨some 1, true⟩)
      ⟨false, false⟩,
    .act (.incomingCall "alice" 0 none) ⟨false, false⟩,
    .act (.incomingCall "alice" 1 none) ⟨false, false⟩,
    .act (.mediaState 0 [⟨true, true, true, .opens, none, none⟩]) ⟨false, true⟩,
    .act (.mediaState 1 [⟨true, true, true, .opens, none, none⟩]) ⟨false, true⟩]

/-- On a bridge that lists its ports. -/
def musicalCalls : Mixer (.listing Port.playback) := (mixer _).run (mixer _).init musical

end PjsuaMcp.Calls
