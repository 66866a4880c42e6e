import PjsuaMcp.Calls.PlacementSteps

/-!
# Calls that report before they are registered

A call may report its state, and may even have ended, before `make_call` has
registered it. An event that is emitted then names a call that nobody knows,
and a registration after the purge leaves a dead call in the table, which may
stand where a later call with the same id was. When the registration comes
before the first event and before the purge, neither happens.
-/

namespace PjsuaMcp.Calls

open Library

/-- The state of the session that the running callback has found. -/
def StateCallback.state : StateCallback → InvState
  | ending => .disconnected
  | emitting state => state

namespace Switchboard

/-- The call has ended and its callback has told the manager. -/
def purged (w : Switchboard) (o : ObjId) : Bool :=
  (w.sys.objs[o]?).any (fun call => call.inv = .disconnected) &&
    w.callbacks.get? o ≠ some .ending

/-- `make_call` registers the call before it is purged, and before it reports a state other than
DISCONNECTED. -/
def registersInTime (w : Switchboard) : Turn → Bool
  | .register k (some _) =>
      match w.placings[k]? with
      | some (.placed o _) => !w.purged o
      | _ => true
  | .emit o =>
      match w.callbacks.get? o with
      | some (.emitting state) => state = .disconnected || w.placings.contains (.returned o)
      | _ => true
  | _ => true

/-- The table knows the calls that are reported, and no others. -/
structure Accounted (w : Switchboard) : Prop where
  /-- A call was tracked and owned whenever it reported a state other than DISCONNECTED. -/
  announced : ∀ e ∈ w.announced, e.state ≠ .disconnected → e.tracked = true
  /-- A call is not tracked when its last callback and the method that placed it are over. -/
  released : ∀ o, .returned o ∈ w.placings → ∀ call, w.sys.objs[o]? = some call →
    call.inv = .disconnected → w.callbacks.get? o = none → ¬w.sys.Tracks o
  /-- No call that has not ended has been overwritten. -/
  kept : ∀ o, .returned o ∈ w.placings → ∀ call, w.sys.objs[o]? = some call →
    call.inv ≠ .disconnected → w.sys.calls.get? call.callId = some o

/-! ## What the library guarantees -/

/-- The callbacks of a call come one after the other, when its handler has returned, and an id is
given again when the last of them is over. -/
structure Sequenced (w : Switchboard) : Prop where
  arriving : ∀ o, .arriving o ∈ w.placings → w.callbacks.get? o = none ∧
    ∀ call, w.sys.objs[o]? = some call → call.inv ≠ .disconnected
  called : ∀ o callback, w.callbacks.get? o = some callback →
    ∃ call, w.sys.objs[o]? = some call ∧ call.inv = callback.state
  ids : ∀ o o' call call', o < o' → w.sys.objs[o]? = some call → w.sys.objs[o']? = some call' →
    call.callId = call'.callId → call.inv = .disconnected ∧ w.callbacks.get? o = none

variable {w w' : Switchboard}

theorem ended_of_idFree {c : CallId} (free : w.idFree c = true) {o : ObjId} {call : SipCall}
    (ho : w.sys.objs[o]? = some call) (hid : call.callId = c) :
    call.inv = .disconnected ∧ w.callbacks.get? o = none := by
  simp only [idFree, Bool.and_eq_true, List.all_eq_true] at free
  obtain ⟨hended, hover⟩ := free
  constructor
  · have hone := List.all_eq_true.mp hended call (List.mem_of_getElem? ho)
    simpa [hid, SipCall.isActive] using hone
  · cases hcallback : w.callbacks.get? o with
    | none => rfl
    | some callback =>
        have hone := hover (o, callback) ((w.callbacks.get?_eq_some_iff o callback).mp hcallback)
        simp [ho, hid] at hone

theorem mayCall_iff {o : ObjId} : w.mayCall o = true ↔
    (∃ call, w.sys.objs[o]? = some call ∧ call.inv ≠ .disconnected) ∧
      .arriving o ∉ w.placings := by
  simp [mayCall, Sys.objActive, SipCall.isActive, Option.any_eq_true]

/-- Methods go on, and no handler of incoming calls has begun. -/
theorem Sequenced.of_placings (h : w.Sequenced) (objs : w'.sys.objs = w.sys.objs)
    (callbacks : w'.callbacks = w.callbacks)
    (arriving : ∀ o, .arriving o ∈ w'.placings → .arriving o ∈ w.placings) : w'.Sequenced where
  arriving o ho := by
    rw [objs, callbacks]
    exact h.arriving o (arriving o ho)
  called := by
    rw [objs, callbacks]
    exact h.called
  ids := by
    rw [objs, callbacks]
    exact h.ids

/-- An object changes without a callback. -/
theorem Sequenced.alike (h : w.Sequenced) {o : ObjId} {call call' : SipCall}
    (ho : w.sys.objs[o]? = some call) (alike : call.Alike call')
    (objs : w'.sys.objs = w.sys.objs.set o call') (callbacks : w'.callbacks = w.callbacks)
    (placings : w'.placings = w.placings) : w'.Sequenced := by
  have hold : ∀ {i : ObjId} {x : SipCall}, w'.sys.objs[i]? = some x →
      ∃ y, w.sys.objs[i]? = some y ∧ x.inv = y.inv ∧ x.callId = y.callId :=
    fun hx => alike.of_set ho (objs ▸ hx)
  refine ⟨fun i hi => ?_, fun i callback hi => ?_, fun i j x y hlt hx hy hid => ?_⟩
  · obtain ⟨hnone, hlive⟩ := h.arriving i (placings ▸ hi)
    refine ⟨by rw [callbacks, hnone], fun x hx => ?_⟩
    obtain ⟨y, hy, hinv, -⟩ := hold hx
    rw [hinv]
    exact hlive y hy
  · rw [callbacks] at hi
    obtain ⟨x, hx, hstate⟩ := h.called i callback hi
    by_cases hoi : o = i
    · subst hoi
      rw [ho] at hx
      cases hx
      refine ⟨call', ?_, alike.inv.trans hstate⟩
      rw [objs, List.getElem?_set_self (List.getElem?_eq_some_iff.mp ho).1]
    · exact ⟨x, by rw [objs, List.getElem?_set_ne hoi, hx], hstate⟩
  · obtain ⟨x', hx', hinv, hid'⟩ := hold hx
    obtain ⟨y', hy', -, hid''⟩ := hold hy
    rw [callbacks, hinv]
    exact h.ids i j x' y' hlt hx' hy' (hid'.symm.trans (hid.trans hid''))

/-- A callback of an object begins or goes on. -/
theorem Sequenced.callback (h : w.Sequenced) {o : ObjId} {call call' : SipCall}
    {callback : StateCallback} {sys : Sys} (ho : w.sys.objs[o]? = some call)
    (hid : call'.callId = call.callId) (hstate : call'.inv = callback.state)
    (objs : sys.objs = w.sys.objs.set o call') (unqueued : .arriving o ∉ w.placings)
    (last : call.inv ≠ .disconnected ∨ w.callbacks.get? o ≠ none) :
    Sequenced { w with sys := sys, callbacks := w.callbacks.set o callback } := by
  have hold : ∀ {i : ObjId} {x : SipCall}, sys.objs[i]? = some x →
      (i = o ∧ x = call') ∨ (i ≠ o ∧ w.sys.objs[i]? = some x) := by
    intro i x hx
    rw [objs] at hx
    exact cell_of_set hx
  have hcalled : ∀ {i : ObjId}, i ≠ o → (w.callbacks.set o callback).get? i = w.callbacks.get? i :=
    fun hne => OrderedDict.get?_set_of_ne _ (Ne.symm hne) _
  refine ⟨fun i hi => ?_, fun i callback' hi => ?_, fun i j x y hlt hx hy hsame => ?_⟩
  · have hne : i ≠ o := fun heq => unqueued (heq ▸ hi)
    obtain ⟨hnone, hlive⟩ := h.arriving i hi
    refine ⟨(hcalled hne).trans hnone, fun x hx => ?_⟩
    rcases hold hx with ⟨heq, -⟩ | ⟨-, hx⟩
    · exact (hne heq).elim
    · exact hlive x hx
  · by_cases hne : i = o
    · subst hne
      simp only [OrderedDict.get?_set_self, Option.some.injEq] at hi
      refine ⟨call', ?_, hi ▸ hstate⟩
      change sys.objs[i]? = _
      rw [objs, List.getElem?_set_self (List.getElem?_eq_some_iff.mp ho).1]
    · rw [hcalled hne] at hi
      obtain ⟨x, hx, hstate'⟩ := h.called i callback' hi
      refine ⟨x, ?_, hstate'⟩
      change sys.objs[i]? = _
      rw [objs, List.getElem?_set_ne (Ne.symm hne), hx]
  · have hy' : ∃ y', w.sys.objs[j]? = some y' ∧ y'.callId = y.callId := by
      rcases hold hy with ⟨rfl, rfl⟩ | ⟨-, hy⟩
      · exact ⟨call, ho, hid.symm⟩
      · exact ⟨y, hy, rfl⟩
    obtain ⟨y', hy', hidy⟩ := hy'
    rcases hold hx with ⟨rfl, rfl⟩ | ⟨hne, hx⟩
    · -- an object with a younger one of the same id has had its last callback
      obtain ⟨hended, hover⟩ := h.ids i j call y' hlt ho hy' (hid.symm.trans (hsame.trans hidy.symm))
      exact (last.elim (fun live => live hended) fun open_ => open_ hover).elim
    · obtain ⟨hended, hover⟩ := h.ids i j x y' hlt hx hy' (hsame.trans hidy.symm)
      exact ⟨hended, (hcalled hne).trans hover⟩

/-- A new object has a free id. -/
theorem Sequenced.push (h : w.Sequenced) {call : SipCall} (live : call.inv ≠ .disconnected)
    (free : w.idFree call.callId = true) {placings : List Placing}
    (arriving : ∀ o, .arriving o ∈ placings → .arriving o ∈ w.placings ∨ o = w.sys.objs.length) :
    Sequenced { w with placings := placings, sys := w.sys.pushCall call } := by
  have hold : ∀ {i : ObjId} {x : SipCall}, (w.sys.pushCall call).objs[i]? = some x →
      w.sys.objs[i]? = some x ∨ (i = w.sys.objs.length ∧ x = call) :=
    fun hx => cell_of_concat hx
  have hnew : w.callbacks.get? w.sys.objs.length = none := by
    cases hcallback : w.callbacks.get? w.sys.objs.length with
    | none => rfl
    | some callback =>
        obtain ⟨x, hx, -⟩ := h.called _ callback hcallback
        exact (Nat.lt_irrefl _ (List.getElem?_eq_some_iff.mp hx).1).elim
  refine ⟨fun i hi => ?_, fun i callback hi => ?_, fun i j x y hlt hx hy hsame => ?_⟩
  · rcases arriving i hi with hi | rfl
    · obtain ⟨hnone, hlive⟩ := h.arriving i hi
      refine ⟨hnone, fun x hx => ?_⟩
      rcases hold hx with hx | ⟨-, rfl⟩
      · exact hlive x hx
      · exact live
    · refine ⟨hnew, fun x hx => ?_⟩
      rcases hold hx with hx | ⟨-, rfl⟩
      · exact (Nat.lt_irrefl _ (List.getElem?_eq_some_iff.mp hx).1).elim
      · exact live
  · obtain ⟨x, hx, hstate⟩ := h.called i callback hi
    exact ⟨x, cell_append hx _, hstate⟩
  · have hbound : j ≤ w.sys.objs.length := by
      rcases hold hy with hy | ⟨heq, -⟩
      · exact Nat.le_of_lt (List.getElem?_eq_some_iff.mp hy).1
      · exact heq.le
    have hx' : w.sys.objs[i]? = some x :=
      (hold hx).resolve_right fun hnew => Nat.lt_irrefl j (hbound.trans_lt (hnew.1 ▸ hlt))
    rcases hold hy with hy' | ⟨-, hy'⟩
    · exact h.ids i j x y hlt hx' hy' hsame
    · exact ended_of_idFree free hx' (hsame.trans (by rw [hy']))

theorem Sequenced.effect (h : w.Sequenced) {a : Turn} (en : w.enabled a = true)
    (effect : Effect w a w') : w'.Sequenced := by
  cases effect with
  | idle => exact h
  | planned unborn =>
      refine h.of_placings rfl rfl fun o hmem => mem_of_mem_concat hmem ?_
      rintro rfl
      cases unborn
  | failed =>
      exact h.of_placings rfl rfl fun o hmem => mem_of_mem_set hmem fun h => by cases h
  | placed =>
      simp only [enabled, Bool.and_eq_true, decide_eq_true_eq] at en
      exact h.push en.2 en.1 fun o hmem => .inl (mem_of_mem_set hmem fun h => by cases h)
  | @arrived p cfg c ci hcfg =>
      have live : (Sys.inboundCall p cfg c ci).inv ≠ .disconnected := fun h => by cases h
      refine h.push live en fun o hmem => ?_
      refine (List.mem_append.mp hmem).imp_right fun hmem => ?_
      exact Placing.arriving.inj (List.mem_singleton.mp hmem)
  | registered hk ho same =>
      exact h.of_placings same.objs rfl fun o hmem => mem_of_mem_set hmem fun h => by cases h
  | enqueued hk ho same =>
      exact h.of_placings same.objs rfl fun o hmem => mem_of_mem_set hmem fun h => by cases h
  | @refreshed o call ci ho =>
      simp only [enabled, Bool.and_eq_true, mayCall_iff] at en
      obtain ⟨⟨⟨call', ho', live⟩, unqueued⟩, -⟩ := en
      rw [ho] at ho'
      cases ho'
      have hid : (call.updateInfo ci).callId = call.callId := rfl
      refine h.callback ho hid ?_ rfl unqueued (.inl live)
      split_ifs with hstate
      · exact hstate
      · rfl
  | @closed o call call' _ _ sys hcallback ho alike settings same =>
      have unqueued : .arriving o ∉ w.placings := fun hmem => by
        rw [(h.arriving o hmem).1] at hcallback
        cases hcallback
      obtain ⟨call₀, ho₀, hstate⟩ := h.called o _ hcallback
      rw [ho] at ho₀
      cases ho₀
      refine h.callback ho (congrArg CallIdentity.callId alike.identity) (alike.inv.trans hstate)
        same.objs unqueued (.inr ?_)
      rw [hcallback]
      exact Option.some_ne_none _
  | @emitted o call state hcallback ho =>
      have hpop : ∀ i, (w.callbacks.pop o).get? i = none ∨
          (w.callbacks.pop o).get? i = w.callbacks.get? i := by
        intro i
        rw [OrderedDict.get?_pop]
        split_ifs
        · exact .inl rfl
        · exact .inr rfl
      refine ⟨fun i hi => ?_, fun i callback hi => ?_, fun i j x y hlt hx hy hsame => ?_⟩
      · obtain ⟨hnone, hlive⟩ := h.arriving i hi
        exact ⟨(hpop i).elim id fun heq => heq.trans hnone, hlive⟩
      · rcases hpop i with hnone | heq
        · rw [show _ = none from hnone] at hi
          cases hi
        · exact h.called i callback (heq ▸ hi)
      · obtain ⟨hended, hover⟩ := h.ids i j x y hlt hx hy hsame
        exact ⟨hended, (hpop i).elim id fun heq => heq.trans hover⟩
  | changed ho alike settings same => exact h.alike ho alike same.objs rfl rfl
  | written => exact ⟨h.arriving, h.called, h.ids⟩
  | taken => exact ⟨h.arriving, h.called, h.ids⟩
  | applied hupdate ho alike settings same => exact h.alike ho alike same.objs rfl rfl
  | skipped => exact ⟨h.arriving, h.called, h.ids⟩
  | finished => exact ⟨h.arriving, h.called, h.ids⟩

theorem initial_sequenced (phones : OrderedDict PhoneId PhoneConfig) :
    (initial phones).Sequenced where
  arriving o h := by cases h
  called o callback h := by cases h
  ids o o' call call' _ h := by cases h

theorem reachable_sequenced {phones : OrderedDict PhoneId PhoneConfig}
    (run : (switchboards phones).Reachable w) : w.Sequenced :=
  run.invariant (initial_sequenced phones) fun w a en _ h => h.effect en (w.step_effect a)

/-! ## Registration in time -/

theorem purged_iff {o : ObjId} : w.purged o = true ↔
    (∃ call, w.sys.objs[o]? = some call ∧ call.inv = .disconnected) ∧
      w.callbacks.get? o ≠ some .ending := by
  simp [purged, Option.any_eq_true]

/-- What holds in runs that register in time. -/
structure Prompt (w : Switchboard) : Prop where
  announced : ∀ e ∈ w.announced, e.state ≠ .disconnected → e.tracked = true
  gone : ∀ o, .returned o ∈ w.placings → w.purged o = true → ¬w.sys.Tracks o
  kept : ∀ o, .returned o ∈ w.placings → ∀ call, w.sys.objs[o]? = some call →
    call.inv ≠ .disconnected → w.sys.calls.get? call.callId = some o

theorem Prompt.accounted (h : w.Prompt) : w.Accounted where
  announced := h.announced
  released o ho call hcall hended hover := by
    refine h.gone o ho (purged_iff.mpr ⟨⟨call, hcall, hended⟩, ?_⟩)
    rw [hover]
    exact (Option.some_ne_none _).symm
  kept := h.kept

/-- Methods go on, objects are added, and no call is registered. -/
theorem Prompt.of_placings (h : w.Prompt) (wired : w.Wired)
    (announced : w'.announced = w.announced) (callbacks : w'.callbacks = w.callbacks)
    (calls : w'.sys.calls = w.sys.calls)
    (objs : ∀ o, o < w.sys.objs.length → w'.sys.objs[o]? = w.sys.objs[o]?)
    (returned : ∀ o, .returned o ∈ w'.placings → .returned o ∈ w.placings) : w'.Prompt := by
  have hsame : ∀ o, .returned o ∈ w'.placings → w'.sys.objs[o]? = w.sys.objs[o]? :=
    fun o ho => objs o (wired.bound _ (returned o ho) o rfl)
  refine ⟨announced ▸ h.announced, fun o ho hpurged => ?_, fun o ho call hcall live => ?_⟩
  · rw [purged, hsame o ho, callbacks] at hpurged
    rw [Sys.Tracks, calls]
    exact h.gone o (returned o ho) hpurged
  · rw [hsame o ho] at hcall
    rw [calls]
    exact h.kept o (returned o ho) call hcall live

/-- A call is registered that has not been purged. -/
theorem Prompt.register (h : w.Prompt) (sequenced : w.Sequenced) {k : Nat} {o : ObjId}
    {call : SipCall} {sys : Sys} (ho : w.sys.objs[o]? = some call)
    (inTime : w.purged o = false) (same : (w.sys.registerCall o call).SameCalls sys) :
    Prompt { w.setPlacing k (.returned o) with sys := sys } := by
  have hreturned : ∀ i, .returned i ∈ w.placings.set k (.returned o) →
      .returned i ∈ w.placings ∨ i = o := by
    intro i hi
    exact (List.mem_or_eq_of_mem_set hi).imp_right Placing.returned.inj
  have hpurged : ∀ i, purged { w.setPlacing k (.returned o) with sys := sys } i = w.purged i := by
    intro i
    rw [purged, same.objs]
    rfl
  refine ⟨h.announced, fun i hi hgone => ?_, fun i hi x hx live => ?_⟩
  · rw [hpurged] at hgone
    have hne : i ≠ o := by
      rintro rfl
      rw [inTime] at hgone
      cases hgone
    rintro ⟨c, hc⟩
    have hc : sys.calls.get? c = some i := hc
    simp only [same.calls, Sys.registerCall, OrderedDict.get?_set] at hc
    split_ifs at hc with hid
    · exact hne (Option.some.inj hc).symm
    · exact h.gone i ((hreturned i hi).resolve_right hne) hgone ⟨c, hc⟩
  · have hold : w.sys.objs[i]? = some x := by
      rw [← hx]
      change _ = sys.objs[i]?
      rw [same.objs]
      rfl
    change sys.calls.get? x.callId = some i
    simp only [same.calls, Sys.registerCall, OrderedDict.get?_set]
    by_cases hne : i = o
    · subst hne
      rw [ho] at hold
      cases hold
      rw [if_pos rfl]
    · have hkept := h.kept i ((hreturned i hi).resolve_right hne) x hold live
      rw [if_neg, hkept]
      -- two calls with one id: the older one has had its last callback
      intro hid
      rcases Nat.lt_or_gt_of_ne hne with hlt | hlt
      · exact live (sequenced.ids i o x call hlt hold ho hid.symm).1
      · obtain ⟨hended, hover⟩ := sequenced.ids o i call x hlt ho hold hid
        have hpast : w.purged o = true := by
          refine purged_iff.mpr ⟨⟨call, ho, hended⟩, ?_⟩
          rw [hover]
          exact (Option.some_ne_none _).symm
        rw [inTime] at hpast
        cases hpast

/-- An object changes without a callback. -/
theorem Prompt.alike (h : w.Prompt) {o : ObjId} {call call' : SipCall}
    (ho : w.sys.objs[o]? = some call) (alike : call.Alike call')
    (same : Sys.SameCalls { w.sys with objs := w.sys.objs.set o call' } w'.sys)
    (announced : w'.announced = w.announced) (callbacks : w'.callbacks = w.callbacks)
    (placings : w'.placings = w.placings) : w'.Prompt := by
  have hold : ∀ {i : ObjId} {x : SipCall}, w'.sys.objs[i]? = some x →
      ∃ y, w.sys.objs[i]? = some y ∧ x.inv = y.inv ∧ x.callId = y.callId := by
    intro i x hx
    rw [same.objs] at hx
    exact alike.of_set ho hx
  refine ⟨announced ▸ h.announced, fun i hi hgone => ?_, fun i hi x hx live => ?_⟩
  · obtain ⟨⟨x, hx, hended⟩, hcallback⟩ := purged_iff.mp hgone
    obtain ⟨y, hy, hinv, -⟩ := hold hx
    rw [Sys.Tracks, same.calls]
    refine h.gone i (placings ▸ hi) (purged_iff.mpr ⟨⟨y, hy, hinv ▸ hended⟩, ?_⟩)
    rwa [← callbacks]
  · obtain ⟨y, hy, hinv, hid⟩ := hold hx
    rw [same.calls, hid]
    exact h.kept i (placings ▸ hi) y hy (hinv ▸ live)

/-- A callback begins. -/
theorem Prompt.refresh (h : w.Prompt) {o : ObjId} {call : SipCall} {ci : CallInfo}
    (ho : w.sys.objs[o]? = some call) (live : call.inv ≠ .disconnected) :
    Prompt { w with
      sys := w.sys.refreshInfo o call ci
      callbacks := w.callbacks.set o
        (if ci.state = .disconnected then .ending else .emitting ci.state) } := by
  have hold : ∀ {i : ObjId} {x : SipCall}, (w.sys.refreshInfo o call ci).objs[i]? = some x →
      (i = o ∧ x = call.updateInfo ci) ∨ (i ≠ o ∧ w.sys.objs[i]? = some x) :=
    fun hx => cell_of_set hx
  refine ⟨h.announced, fun i hi hgone => ?_, fun i hi x hx hlive => ?_⟩
  · obtain ⟨⟨x, hx, hended⟩, hcallback⟩ := purged_iff.mp hgone
    rcases hold hx with ⟨rfl, rfl⟩ | ⟨hne, hx⟩
    · refine (hcallback ?_).elim
      rw [OrderedDict.get?_set_self, if_pos (show ci.state = .disconnected from hended)]
    · refine h.gone i hi (purged_iff.mpr ⟨⟨x, hx, hended⟩, ?_⟩)
      rwa [OrderedDict.get?_set_of_ne _ (Ne.symm hne)] at hcallback
  · rcases hold hx with ⟨rfl, rfl⟩ | ⟨-, hx⟩
    · exact h.kept i hi call ho live
    · exact h.kept i hi x hx hlive

/-- The manager is told of the end: nothing that has ended stays tracked. -/
theorem Prompt.close (h : w.Prompt) {s sys : Sys} (linked : s.table.Linked)
    (calls : s.calls = w.sys.calls)
    (objs : ∀ (i : ObjId) (x : SipCall), s.objs[i]? = some x →
      ∃ y, w.sys.objs[i]? = some y ∧ x.inv = y.inv ∧ x.callId = y.callId)
    (same : (s.untrack s.staleIds).SameCalls sys) (callbacks : OrderedDict ObjId StateCallback) :
    Prompt { w with sys := sys, callbacks := callbacks } := by
  have hstale : ∀ {c : CallId}, c ∈ s.staleIds ↔ ∃ o k, s.calls.get? c = some o ∧
      s.table.heap[o]? = some k ∧ k.inv = .disconnected := by
    intro c
    rw [Sys.staleIds_eq]
    exact linked.mem_stale_iff
  have hcalls : ∀ c, sys.calls.get? c = if c ∈ s.staleIds then none else s.calls.get? c := by
    intro c
    rw [same.calls, Sys.untrack, OrderedDict.get?_filterKeys]
    split_ifs with hin hin' <;> simp_all
  refine ⟨h.announced, fun i hi hgone => ?_, fun i hi x hx hlive => ?_⟩
  · obtain ⟨⟨x, hx, hended⟩, -⟩ := purged_iff.mp hgone
    have hx : s.objs[i]? = some x := by
      rw [← hx]
      exact congrArg (·[i]?) same.objs.symm
    rintro ⟨c, hc⟩
    have hc : sys.calls.get? c = some i := hc
    rw [hcalls] at hc
    split_ifs at hc with hin
    exact hin (hstale.mpr ⟨i, x.track, hc, Sys.table_heap_of_some hx, hended⟩)
  · have hx : s.objs[i]? = some x := by
      rw [← hx]
      exact congrArg (·[i]?) same.objs.symm
    obtain ⟨y, hy, hinv, hid⟩ := objs i x hx
    have hkept : s.calls.get? x.callId = some i := by
      rw [calls, hid]
      exact h.kept i hi y hy (hinv ▸ hlive)
    change sys.calls.get? x.callId = some i
    rw [hcalls, if_neg, hkept]
    intro hin
    obtain ⟨o, k, ho, hk, hended⟩ := hstale.mp hin
    rw [hkept] at ho
    cases ho
    rw [Sys.table_heap_of_some hx] at hk
    cases hk
    exact hlive hended

/-- An event is emitted for a call that is registered, or has ended. -/
theorem Prompt.emit (h : w.Prompt) (wired : w.Wired) (sequenced : w.Sequenced) {o : ObjId}
    {call : SipCall} {state : InvState}
    (hcallback : w.callbacks.get? o = some (.emitting state)) (ho : w.sys.objs[o]? = some call)
    (inTime : state = .disconnected ∨ .returned o ∈ w.placings) :
    Prompt { w with
      callbacks := w.callbacks.pop o
      announced := w.announced ++ [⟨o, state, w.ownTracked o call⟩] } := by
  refine ⟨fun e he hstate => ?_, fun i hi hgone => ?_, h.kept⟩
  · rcases List.mem_append.mp he with he | he
    · exact h.announced e he hstate
    · rw [List.mem_singleton.mp he] at hstate ⊢
      obtain ⟨call', ho', hinv⟩ := sequenced.called o _ hcallback
      rw [ho] at ho'
      cases ho'
      have live : call.inv ≠ .disconnected := by
        rw [hinv]
        exact hstate
      have hkept := h.kept o (inTime.resolve_left hstate) call ho live
      exact decide_eq_true ⟨hkept, wired.linked.owner_eq hkept (Sys.table_heap_of_some ho)⟩
  · obtain ⟨hended, hover⟩ := purged_iff.mp hgone
    refine h.gone i hi (purged_iff.mpr ⟨hended, ?_⟩)
    have hover : (w.callbacks.pop o).get? i ≠ some .ending := hover
    rw [OrderedDict.get?_pop] at hover
    split_ifs at hover with hi'
    · rw [hi', hcallback]
      exact fun heq => by cases heq
    · exact hover

theorem Prompt.effect (h : w.Prompt) (wired : w.Wired) (sequenced : w.Sequenced) {a : Turn}
    (en : w.enabled a = true) (inTime : w.registersInTime a = true) (effect : Effect w a w') :
    w'.Prompt := by
  cases effect with
  | idle => exact h
  | planned unborn =>
      refine h.of_placings wired rfl rfl rfl (fun _ _ => rfl) fun o hmem =>
        mem_of_mem_concat hmem ?_
      rintro rfl
      cases unborn
  | failed =>
      exact h.of_placings wired rfl rfl rfl (fun _ _ => rfl) fun o hmem =>
        mem_of_mem_set hmem fun h => by cases h
  | placed =>
      exact h.of_placings wired rfl rfl rfl (fun o ho => List.getElem?_append_left ho)
        fun o hmem => mem_of_mem_set hmem fun h => by cases h
  | arrived =>
      exact h.of_placings wired rfl rfl rfl (fun o ho => List.getElem?_append_left ho)
        fun o hmem => mem_of_mem_concat hmem fun h => by cases h
  | registered hk ho same =>
      simp only [registersInTime, hk, Bool.not_eq_true'] at inTime
      exact h.register sequenced ho inTime same
  | @enqueued k o call ci sys hk ho same =>
      have hlive := (sequenced.arriving o (List.mem_of_getElem? hk)).2
      have hunpurged : w.purged o = false := by
        refine Bool.eq_false_iff.mpr fun hpurged => ?_
        obtain ⟨⟨x, hx, hended⟩, -⟩ := purged_iff.mp hpurged
        exact hlive x hx hended
      exact h.register sequenced ho hunpurged same
  | @refreshed o call ci ho =>
      simp only [enabled, Bool.and_eq_true, mayCall_iff] at en
      obtain ⟨⟨⟨call', ho', live⟩, -⟩, -⟩ := en
      rw [ho] at ho'
      cases ho'
      exact h.refresh ho live
  | closed hcallback ho alike settings same =>
      exact h.close (Sys.linked_alike wired.linked ho alike) rfl
        (fun i x hx => alike.of_set ho hx) same _
  | emitted hcallback ho =>
      simp only [registersInTime, hcallback, Bool.or_eq_true, decide_eq_true_eq,
        List.contains_iff_mem] at inTime
      exact h.emit wired sequenced hcallback ho inTime
  | changed ho alike settings same => exact h.alike ho alike same rfl rfl rfl
  | written => exact ⟨h.announced, h.gone, h.kept⟩
  | taken => exact ⟨h.announced, h.gone, h.kept⟩
  | applied hupdate ho alike settings same => exact h.alike ho alike same rfl rfl rfl
  | skipped => exact ⟨h.announced, h.gone, h.kept⟩
  | finished => exact ⟨h.announced, h.gone, h.kept⟩

theorem initial_prompt (phones : OrderedDict PhoneId PhoneConfig) : (initial phones).Prompt where
  announced e h := by cases h
  gone o h := by cases h
  kept o h := by cases h

end Switchboard

/-- In every order of the turns in which `make_call` registers each call before it reports a state
other than DISCONNECTED and before it is purged, the call is tracked whenever it reports such a
state, and not tracked when it has ended; no call that has not ended is overwritten. -/
theorem placedCalls_accounted {phones : OrderedDict PhoneId PhoneConfig} {w : Switchboard}
    (run : (switchboards phones).Reach (fun w a => w.registersInTime a = true) w) :
    w.Accounted := by
  refine (run.invariant_using (P := Switchboard.Prompt) (Q := fun w => w.Wired ∧ w.Sequenced) ?_
    (Switchboard.initial_prompt phones) ?_).accounted
  · intro w run
    exact ⟨Switchboard.reachable_wired run.reachable, Switchboard.reachable_sequenced run.reachable⟩
  · intro w a en inTime known prompt
    exact prompt.effect known.1 known.2 en inTime (w.step_effect a)

/-- A server with one phone. -/
def onePhone : OrderedDict PhoneId PhoneConfig :=
  OrderedDict.empty.set "alice" { domain := "example.org" }

/-- `make_call` has got its call and has not registered it. -/
def callPlaced : List Turn :=
  [.construct none "sip:bob@example.org", .place 0 (some (.plain 0 .calling "a"))]

/-- The call rings before it is registered. -/
def ringsEarly : List Turn :=
  callPlaced ++ [.callState 0 (.plain 0 .early "a"), .emit 0]

/-- The call ends, and an incoming call gets its id, before it is registered. -/
def registeredLate : List Turn :=
  callPlaced ++ [.callState 0 (.plain 0 .disconnected "a"), .disconnect 0 .writes "t", .emit 0,
    .incoming "alice" 0 none, .enqueue 1 none, .register 0 (some (.plain 0 .calling "a"))]

/-- The ringing call is not known when it is reported; the dead call stands in the table, in the
place of the live one. -/
theorem registration_overtaken :
    let early := (switchboards onePhone).run (.initial onePhone) ringsEarly
    let late := (switchboards onePhone).run (.initial onePhone) registeredLate
    ((switchboards onePhone).Reachable early ∧ early.announced = [⟨0, .early, false⟩] ∧
      ¬early.Accounted) ∧
    (switchboards onePhone).Reachable late ∧
      late.placings = [.returned 0, .returned 1] ∧ late.callbacks.entries = [] ∧
      late.sys.objs.map (fun call => (call.callId, call.inv)) =
        [(0, .disconnected), (0, .incoming)] ∧
      late.sys.calls.get? 0 = some 0 ∧ ¬late.Accounted := by
  intro early late
  have hearly : early.announced = [⟨0, .early, false⟩] := by decide
  have hlate : late.sys.calls.get? 0 = some 0 := by decide
  refine ⟨⟨GuardedSystem.Reach.init.run (by decide), hearly, fun accounted => ?_⟩,
    GuardedSystem.Reach.init.run (by decide), by decide, by decide, by decide, hlate,
    fun accounted => ?_⟩
  · have htracked := accounted.announced ⟨0, .early, false⟩ (by rw [hearly]; decide) (by decide)
    cases htracked
  · exact accounted.released 0 (by decide) _ rfl (by decide) (by decide) ⟨0, hlate⟩

/-- A call that is registered at once, rings and ends. -/
theorem registeredAtOnce_accounted :
    ((switchboards onePhone).run (.initial onePhone) (callPlaced ++
      [.register 0 (some (.plain 0 .calling "a")), .callState 0 (.plain 0 .early "a"), .emit 0,
        .callState 0 (.plain 0 .disconnected "a"), .disconnect 0 .writes "t", .emit 0])).Accounted :=
  placedCalls_accounted (GuardedSystem.Reach.init.run (by decide))

end PjsuaMcp.Calls
