import PjsuaMcp.Calls.PlacementSteps

/-!
# Settings of calls that are being placed

A call copies two settings of its phone when its object is built, and
`update_phone` changes them in the calls that are registered. What it does is
lost on a call that is built before the config is written and registered after
the calls of the phone have been taken. When it loses nothing so, every tracked
call has the settings of its phone whenever no update is running.
-/

namespace PjsuaMcp.Calls

open Library

/-- The update will still reach the call: it has not taken the calls of the phone yet, or the call
is among those that it has taken. -/
def Update.covers (u : Update) (p : PhoneId) (o : Option ObjId) : Bool :=
  match u.rest with
  | none => u.phone = p
  | some rest => o.any rest.contains

namespace Switchboard

/-- The phone and the settings of a call that is not registered yet. -/
def underWay (w : Switchboard) : Placing → Option (PhoneId × Settings)
  | .built p cfg _ => some (p, cfg.settings)
  | .placed o _ | .arriving o => (w.sys.objs[o]?).map fun call => (call.phoneId, call.settings)
  | _ => none

/-- The calls of the phone are taken when the update changes nothing in those under way. -/
def missesNothing (w : Switchboard) : Turn → Bool
  | .take =>
      match w.update with
      | some ⟨p, change, none⟩ =>
          w.placings.all fun placing => (w.underWay placing).all fun x =>
            x.1 ≠ p || change.on x.2 = x.2
      | _ => true
  | _ => true

/-- Settings of a call when the running update is done. -/
def due (w : Switchboard) (p : PhoneId) (o : Option ObjId) (x : Settings) : Settings :=
  match w.update with
  | some u => if u.covers p o then u.change.on x else x
  | none => x

/-- The settings will be those of the phone. -/
def Follows (w : Switchboard) (p : PhoneId) (o : Option ObjId) (x : Settings) : Prop :=
  ∀ cfg, w.sys.phones.get? p = some cfg → w.due p o x = cfg.settings

/-- The object is tracked, or will be registered. -/
def Concerned (w : Switchboard) (o : ObjId) : Prop :=
  (∃ c, w.sys.calls.get? c = some o) ∨
    ∃ placing ∈ w.placings, placing = .arriving o ∨ ∃ destUri, placing = .placed o destUri

/-- Calls that are tracked or under way will have the settings of their phone. -/
structure Agreed (w : Switchboard) : Prop where
  objects : ∀ o call, w.Concerned o → w.sys.objs[o]? = some call →
    w.Follows call.phoneId (some o) call.settings
  built : ∀ p cfg destUri, .built p cfg destUri ∈ w.placings → w.Follows p none cfg.settings
  target : ∀ u, w.update = some u → ∀ cfg, w.sys.phones.get? u.phone = some cfg →
    u.change.on cfg.settings = cfg.settings
  bound : ∀ u rest, w.update = some u → u.rest = some rest → ∀ o ∈ rest, o < w.sys.objs.length

variable {w w' : Switchboard}

theorem follows_congr (update : w'.update = w.update) (phones : w'.sys.phones = w.sys.phones)
    (p : PhoneId) (o : Option ObjId) (x : Settings) : w'.Follows p o x ↔ w.Follows p o x := by
  simp only [Follows, due, update, phones]

/-- No update covers a call that has no object. -/
theorem Agreed.due_new (h : w.Agreed) (p : PhoneId) (x : Settings) :
    w.due p (some w.sys.objs.length) x = w.due p none x := by
  unfold due
  split
  · next u hupdate =>
      have hcovers : u.covers p (some w.sys.objs.length) = u.covers p none := by
        unfold Update.covers
        split
        · rfl
        · next rest hrest =>
            have hnew : w.sys.objs.length ∉ rest :=
              fun hmem => Nat.lt_irrefl _ (h.bound u rest hupdate hrest _ hmem)
            simpa using hnew
      rw [hcovers]
  · rfl

/-- A call that is built from the config as it is now. -/
theorem Agreed.follows_config (h : w.Agreed) {p : PhoneId} {cfg : PhoneConfig}
    (hcfg : w.sys.phones.get? p = some cfg) : w.Follows p none cfg.settings := by
  intro cfg' hcfg'
  rw [hcfg] at hcfg'
  cases hcfg'
  unfold due
  split
  · next u hupdate =>
      split_ifs with hcovers
      · unfold Update.covers at hcovers
        split at hcovers
        · have hphone : u.phone = p := of_decide_eq_true hcovers
          exact h.target u hupdate cfg (hphone ▸ hcfg)
        · cases hcovers
      · rfl
  · rfl

/-- The configs and the update stay, and so do the calls that are tracked or under way, up to what
follows its phone already. -/
theorem Agreed.of_objects (h : w.Agreed) (update : w'.update = w.update)
    (phones : w'.sys.phones = w.sys.phones) (length : w.sys.objs.length ≤ w'.sys.objs.length)
    (objects : ∀ o call, w'.Concerned o → w'.sys.objs[o]? = some call →
      w.Follows call.phoneId (some o) call.settings)
    (built : ∀ p cfg destUri, .built p cfg destUri ∈ w'.placings → w.Follows p none cfg.settings) :
    w'.Agreed where
  objects o call concerned hcall := (follows_congr update phones _ _ _).mpr
    (objects o call concerned hcall)
  built p cfg destUri hmem := (follows_congr update phones _ _ _).mpr (built p cfg destUri hmem)
  target := by
    rw [update, phones]
    exact h.target
  bound u rest hupdate hrest o ho :=
    Nat.lt_of_lt_of_le (h.bound u rest (update ▸ hupdate) hrest o ho) length

/-- Placings are replaced or added whose calls were under way already. -/
theorem Agreed.of_placings (h : w.Agreed) {placings : List Placing} {sys : Sys}
    (phones : sys.phones = w.sys.phones) (objs : sys.objs = w.sys.objs)
    (concerned : ∀ o, Concerned { w with placings := placings, sys := sys } o → w.Concerned o)
    (built : ∀ p cfg destUri, .built p cfg destUri ∈ placings →
      .built p cfg destUri ∈ w.placings ∨ w.sys.phones.get? p = some cfg) :
    Agreed { w with placings := placings, sys := sys } := by
  refine h.of_objects rfl phones (congrArg List.length objs).ge (fun o call hconcerned hcall => ?_)
    fun p cfg destUri hmem => ?_
  · have hcall : sys.objs[o]? = some call := hcall
    rw [objs] at hcall
    exact h.objects o call (concerned o hconcerned) hcall
  · exact (built p cfg destUri hmem).elim (h.built p cfg destUri) h.follows_config

/-- A call object is put on the heap. -/
theorem Agreed.push (h : w.Agreed) {call : SipCall}
    (follows : w.Follows call.phoneId none call.settings) {placings : List Placing}
    (placed : ∀ placing ∈ placings, placing ∈ w.placings ∨
      placing.object? = some w.sys.objs.length) :
    Agreed { w with placings := placings, sys := w.sys.pushCall call } := by
  refine h.of_objects rfl rfl ?_ (fun o x hconcerned hx => ?_) fun p cfg destUri hmem => ?_
  · exact (w.sys.pushCall_length call).ge.trans' (Nat.le_succ _)
  · obtain hold | ⟨rfl, rfl⟩ := cell_of_concat hx
    · have hne : o ≠ w.sys.objs.length := Nat.ne_of_lt (List.getElem?_eq_some_iff.mp hold).1
      refine h.objects o x (hconcerned.imp_right ?_) hold
      rintro ⟨placing, hmem, hobject⟩
      refine ⟨placing, (placed placing hmem).resolve_right fun hlast => ?_, hobject⟩
      rcases hobject with rfl | ⟨destUri, rfl⟩
      · exact hne (Option.some.inj hlast)
      · exact hne (Option.some.inj hlast)
    · intro cfg hcfg
      rw [h.due_new]
      exact follows cfg hcfg
  · refine h.built p cfg destUri ((placed _ hmem).resolve_right fun hlast => ?_)
    cases hlast

/-- A call that was under way is registered. -/
theorem Agreed.register (h : w.Agreed) {k : Nat} {o : ObjId} {call : SipCall} {sys : Sys}
    (concerned : w.Concerned o) (same : (w.sys.registerCall o call).SameCalls sys) :
    Agreed { w.setPlacing k (.returned o) with sys := sys } := by
  refine h.of_placings same.phones same.objs (fun i hi => ?_) fun p cfg destUri hmem => ?_
  · rcases hi with ⟨c, hc⟩ | ⟨placing, hmem, hobject⟩
    · have hc : sys.calls.get? c = some i := hc
      rw [same.calls, Sys.registerCall, OrderedDict.get?_set] at hc
      split_ifs at hc
      · cases hc
        exact concerned
      · exact .inl ⟨c, hc⟩
    · refine .inr ⟨placing, mem_of_mem_set hmem ?_, hobject⟩
      rintro rfl
      rcases hobject with h | ⟨destUri, h⟩ <;> cases h
  · exact .inl (mem_of_mem_set hmem fun heq => by cases heq)

/-- An object changes, and keeps its settings. -/
theorem Agreed.change (h : w.Agreed) {o : ObjId} {call call' : SipCall} {sys : Sys}
    {callbacks : OrderedDict ObjId StateCallback} (ho : w.sys.objs[o]? = some call)
    (objs : sys.objs = w.sys.objs.set o call') (phone : call'.phoneId = call.phoneId)
    (settings : call'.settings = call.settings) (phones : sys.phones = w.sys.phones)
    (calls : ∀ c i, sys.calls.get? c = some i → w.sys.calls.get? c = some i) :
    Agreed { w with sys := sys, callbacks := callbacks } := by
  refine h.of_objects rfl phones ?_ (fun i x hi hx => ?_) h.built
  · exact ((congrArg List.length objs).trans List.length_set).ge
  · have hx : sys.objs[i]? = some x := hx
    have hconcerned : w.Concerned i := hi.imp_left fun ⟨c, hc⟩ => ⟨c, calls c i hc⟩
    rw [objs] at hx
    obtain ⟨rfl, rfl⟩ | ⟨-, hold⟩ := cell_of_set hx
    · rw [phone, settings]
      exact h.objects i call hconcerned ho
    · exact h.objects i x hconcerned hold

/-! ## The turns of an update -/

theorem due_of_idle (hupdate : w.update = none) (q : PhoneId) (o : Option ObjId) (x : Settings) :
    w.due q o x = x := by
  simp only [due, hupdate]

theorem due_of_written {p : PhoneId} {change : Change}
    (hupdate : w.update = some ⟨p, change, none⟩) (q : PhoneId) (o : Option ObjId) (x : Settings) :
    w.due q o x = if p = q then change.on x else x := by
  simp only [due, hupdate, Update.covers, decide_eq_true_eq]

theorem due_of_taken {p : PhoneId} {change : Change} {rest : List ObjId}
    (hupdate : w.update = some ⟨p, change, some rest⟩) (q : PhoneId) (o : ObjId) (x : Settings) :
    w.due q (some o) x = if o ∈ rest then change.on x else x := by
  simp only [due, hupdate, Update.covers, Option.any_some, List.contains_iff_mem]

theorem due_none_of_taken {p : PhoneId} {change : Change} {rest : List ObjId}
    (hupdate : w.update = some ⟨p, change, some rest⟩) (q : PhoneId) (x : Settings) :
    w.due q none x = x := by
  simp only [due, hupdate, Update.covers, Option.any_none, if_false, Bool.false_eq_true]

/-- The config is written. -/
theorem Agreed.write (h : w.Agreed) (hidle : w.update = none) {p : PhoneId} {cfg : PhoneConfig}
    (hcfg : w.sys.phones.get? p = some cfg) (change : Change) :
    Agreed { w with
      sys := { w.sys with phones := w.sys.phones.set p (change.write cfg) }
      update := some ⟨p, change, none⟩ } := by
  have hfollows : ∀ {q o x}, w.Follows q o x → Follows { w with
      sys := { w.sys with phones := w.sys.phones.set p (change.write cfg) }
      update := some ⟨p, change, none⟩ } q o x := by
    intro q o x hx cfg' hcfg'
    rw [due_of_written rfl]
    simp only [OrderedDict.get?_set] at hcfg'
    split_ifs at hcfg' with hq
    · subst hq
      cases hcfg'
      rw [if_pos rfl, change.write_settings, ← hx cfg hcfg, due_of_idle hidle]
    · rw [if_neg hq, ← hx cfg' hcfg', due_of_idle hidle]
  refine ⟨fun o call hconcerned hcall => hfollows (h.objects o call hconcerned hcall),
    fun q cfg' destUri hmem => hfollows (h.built q cfg' destUri hmem), fun u hu cfg' hcfg' => ?_,
    fun u rest hu hrest => ?_⟩
  · cases hu
    simp only [OrderedDict.get?_set_self, Option.some.injEq] at hcfg'
    rw [← hcfg', change.write_settings, change.on_on]
  · cases hu
    cases hrest

/-- The calls of the phone are taken, and the update misses none that is under way. -/
theorem Agreed.take (h : w.Agreed) (wired : w.Wired) {p : PhoneId} {change : Change}
    (hupdate : w.update = some ⟨p, change, none⟩) (misses : w.missesNothing .take = true) :
    Agreed { w with update := some ⟨p, change, some (w.sys.callsOf p)⟩ } := by
  have hmisses : ∀ placing ∈ w.placings, ∀ x, w.underWay placing = some x → x.1 = p →
      change.on x.2 = x.2 := by
    intro placing hmem x hx hphone
    simp only [missesNothing, hupdate, List.all_eq_true] at misses
    have hone := misses placing hmem
    simpa [hx, hphone] using hone
  have howner : ∀ {c o call}, w.sys.calls.get? c = some o → w.sys.objs[o]? = some call →
      w.sys.callPhone.get? c = some call.phoneId :=
    fun hc ho => wired.linked.owner_eq hc (Sys.table_heap_of_some ho)
  refine ⟨fun o call hconcerned hcall cfg hcfg => ?_, fun q cfg destUri hmem cfg' hcfg' => ?_,
    fun u hu => ?_, fun u rest hu hrest o ho => ?_⟩
  · have hold := h.objects o call hconcerned hcall cfg hcfg
    rw [due_of_written hupdate] at hold
    rw [due_of_taken rfl, ← hold]
    by_cases hphone : p = call.phoneId
    · rw [if_pos hphone]
      split_ifs with htaken
      · rfl
      · -- a call of the phone that is not taken is not registered yet
        rcases hconcerned with ⟨c, hc⟩ | ⟨placing, hmem, hobject⟩
        · refine (htaken ((w.sys.mem_callsOf_iff p o).mpr ⟨c, hc, ?_⟩)).elim
          rw [howner hc hcall, hphone]
        · have hx : w.underWay placing = some (call.phoneId, call.settings) := by
            rcases hobject with rfl | ⟨destUri, rfl⟩ <;> simp [underWay, hcall]
          exact (hmisses placing hmem _ hx hphone.symm).symm
    · rw [if_neg hphone, if_neg]
      intro htaken
      obtain ⟨c, hc, hp⟩ := (w.sys.mem_callsOf_iff p o).mp htaken
      rw [howner hc hcall] at hp
      exact hphone (Option.some.inj hp).symm
  · have hold := h.built q cfg destUri hmem cfg' hcfg'
    rw [due_of_written hupdate] at hold
    rw [due_none_of_taken rfl, ← hold]
    split_ifs with hphone
    · exact (hmisses _ hmem (q, cfg.settings) rfl hphone.symm).symm
    · rfl
  · cases hu
    exact h.target ⟨p, change, none⟩ hupdate
  · cases hu
    cases hrest
    obtain ⟨c, hc, -⟩ := (w.sys.mem_callsOf_iff p o).mp ho
    obtain ⟨k, hk, -⟩ := wired.linked.entry hc
    have hlt : o < (w.sys.objs.map SipCall.track).length := (List.getElem?_eq_some_iff.mp hk).1
    rwa [List.length_map] at hlt

/-- The next call that was taken is changed. -/
theorem Agreed.apply (h : w.Agreed) {p : PhoneId} {change : Change} {o : ObjId}
    {rest : List ObjId} (hupdate : w.update = some ⟨p, change, some (o :: rest)⟩) {sys : Sys}
    (phones : sys.phones = w.sys.phones) (length : sys.objs.length = w.sys.objs.length)
    (calls : sys.calls = w.sys.calls)
    (objects : ∀ i x, sys.objs[i]? = some x →
      (i ≠ o ∧ w.sys.objs[i]? = some x) ∨ (i = o ∧ ∃ call, w.sys.objs[o]? = some call ∧
        x.phoneId = call.phoneId ∧ x.settings = change.on call.settings)) :
    Agreed { w with sys := sys, update := some ⟨p, change, some rest⟩ } := by
  refine ⟨fun i x hconcerned hx cfg hcfg => ?_, fun q cfg destUri hmem cfg' hcfg' => ?_,
    fun u hu => ?_, fun u rest' hu hrest i hi => ?_⟩
  · have hcfg : sys.phones.get? x.phoneId = some cfg := hcfg
    rw [phones] at hcfg
    have hconcerned : w.Concerned i :=
      hconcerned.imp_left fun ⟨c, hc⟩ => ⟨c, (congrArg (·.get? c) calls).symm.trans hc⟩
    rw [due_of_taken rfl]
    rcases objects i x hx with ⟨hne, hold⟩ | ⟨rfl, call, hcall, hphone, hsettings⟩
    · have hdue := h.objects i x hconcerned hold cfg hcfg
      rw [due_of_taken hupdate] at hdue
      rw [← hdue]
      simp [hne]
    · rw [hphone] at hcfg
      have hdue := h.objects i call hconcerned hcall cfg hcfg
      rw [due_of_taken hupdate, if_pos List.mem_cons_self] at hdue
      rw [hsettings, change.on_on, ite_self, hdue]
  · have hcfg' : sys.phones.get? q = some cfg' := hcfg'
    rw [phones] at hcfg'
    rw [due_none_of_taken rfl, ← h.built q cfg destUri hmem cfg' hcfg', due_none_of_taken hupdate]
  · cases hu
    intro cfg hcfg
    have hcfg : sys.phones.get? p = some cfg := hcfg
    rw [phones] at hcfg
    exact h.target ⟨p, change, some (o :: rest)⟩ hupdate cfg hcfg
  · cases hu
    cases hrest
    change i < sys.objs.length
    rw [length]
    exact h.bound _ _ hupdate rfl i (List.mem_cons_of_mem _ hi)

theorem Agreed.effect (h : w.Agreed) (wired : w.Wired) {a : Turn} (en : w.enabled a = true)
    (misses : w.missesNothing a = true) (effect : Effect w a w') : w'.Agreed := by
  cases effect with
  | idle => exact h
  | @planned _ placing unborn config =>
      refine h.of_placings rfl rfl (fun o ho => ho.imp_right ?_) fun p cfg destUri hmem => ?_
      · rintro ⟨placing', hmem, hobject⟩
        refine ⟨placing', mem_of_mem_concat hmem ?_, hobject⟩
        rintro rfl
        rcases hobject with rfl | ⟨destUri, rfl⟩ <;> cases unborn
      · refine (List.mem_append.mp hmem).imp_right fun hlast => ?_
        exact config p cfg destUri (List.mem_singleton.mp hlast).symm
  | failed =>
      refine h.of_placings rfl rfl (fun o ho => ho.imp_right ?_) fun p cfg destUri hmem => ?_
      · rintro ⟨placing', hmem, hobject⟩
        refine ⟨placing', mem_of_mem_set hmem ?_, hobject⟩
        rintro rfl
        rcases hobject with h | ⟨destUri, h⟩ <;> cases h
      · exact .inl (mem_of_mem_set hmem fun heq => by cases heq)
  | placed hk =>
      refine h.push (h.built _ _ _ (List.mem_of_getElem? hk)) fun placing hmem => ?_
      refine (List.mem_or_eq_of_mem_set hmem).imp_right fun hlast => ?_
      rw [hlast]
      rfl
  | arrived hcfg =>
      refine h.push (h.follows_config hcfg) fun placing hmem => ?_
      refine (List.mem_append.mp hmem).imp_right fun hlast => ?_
      rw [List.mem_singleton.mp hlast]
      rfl
  | registered hk ho same =>
      exact h.register (.inr ⟨_, List.mem_of_getElem? hk, .inr ⟨_, rfl⟩⟩) same
  | enqueued hk ho same => exact h.register (.inr ⟨_, List.mem_of_getElem? hk, .inl rfl⟩) same
  | refreshed ho => exact h.change ho rfl rfl rfl rfl fun _ _ hc => hc
  | closed hcallback ho alike settings same =>
      refine h.change ho same.objs (congrArg CallIdentity.phoneId alike.identity) settings
        same.phones fun c i hc => ?_
      rw [same.calls] at hc
      exact (CallTable.shrinks_remove w.sys.table _).calls hc
  | emitted => exact ⟨h.objects, h.built, h.target, h.bound⟩
  | changed ho alike settings same =>
      refine h.change ho same.objs (congrArg CallIdentity.phoneId alike.identity) settings
        same.phones fun c i hc => ?_
      rwa [same.calls] at hc
  | written hcfg => exact h.write (Option.isNone_iff_eq_none.mp en) hcfg _
  | taken hupdate => exact h.take wired hupdate misses
  | @applied _ _ p change o rest call call' sys hupdate ho alike settings same =>
      refine h.apply hupdate same.phones ?_ same.calls fun i x hx => ?_
      · rw [same.objs, List.length_set]
      · rw [same.objs] at hx
        obtain ⟨rfl, rfl⟩ | hold := cell_of_set hx
        · exact .inr ⟨rfl, call, ho, congrArg CallIdentity.phoneId alike.identity, settings⟩
        · exact .inl hold
  | skipped hupdate ho =>
      refine h.apply hupdate rfl rfl rfl fun i x hx => .inl ⟨?_, hx⟩
      rintro rfl
      rw [ho] at hx
      cases hx
  | finished hupdate =>
      have hfollows : ∀ {q o x}, w.Follows q o x → Follows { w with update := none } q o x := by
        intro q o x hx cfg hcfg
        rw [due_of_idle rfl, ← hx cfg hcfg]
        cases o with
        | none => exact (due_none_of_taken hupdate q x).symm
        | some o => simp [due_of_taken hupdate]
      exact ⟨fun o call hconcerned hcall => hfollows (h.objects o call hconcerned hcall),
        fun p cfg destUri hmem => hfollows (h.built p cfg destUri hmem),
        fun u hu => (by cases hu), fun u rest hu => (by cases hu)⟩

theorem initial_agreed (phones : OrderedDict PhoneId PhoneConfig) : (initial phones).Agreed where
  objects o call concerned hcall := by cases hcall
  built p cfg destUri hmem := by cases hmem
  target u hu := by cases hu
  bound u rest hu := by cases hu

end Switchboard

/-- In every order of the turns in which the update takes the calls of a phone only when it changes
nothing in those under way, every tracked call has the settings of its phone whenever no update is
running. -/
theorem placedCalls_settings {phones : OrderedDict PhoneId PhoneConfig} {w : Switchboard}
    (run : (switchboards phones).Reach (fun w a => w.missesNothing a = true) w)
    (finished : w.update = none) {p : PhoneId} {cfg : PhoneConfig}
    (hcfg : w.sys.phones.get? p = some cfg) {c : CallId} {o : ObjId} {call : SipCall}
    (tracked : w.sys.calls.get? c = some o) (owned : w.sys.callPhone.get? c = some p)
    (hcall : w.sys.objs[o]? = some call) :
    call.recordingEnabled = cfg.recordingEnabled ∧
      call.codecs = SipCall.codecFilter cfg.codecs := by
  have hwired := fun w (run : (switchboards phones).Reach (fun w a => w.missesNothing a = true) w) =>
    Switchboard.reachable_wired run.reachable
  have agreed : w.Agreed := by
    refine run.invariant_using (P := Switchboard.Agreed) hwired
      (Switchboard.initial_agreed phones) ?_
    intro w a en misses wired agreed
    exact agreed.effect wired en misses (w.step_effect a)
  have hphone : w.sys.callPhone.get? c = some call.phoneId :=
    (hwired w run).linked.owner_eq tracked (Sys.table_heap_of_some hcall)
  rw [owned, Option.some.injEq] at hphone
  subst hphone
  have hsettings := agreed.objects o call (.inl ⟨c, tracked⟩) hcall cfg hcfg
  rw [Switchboard.due_of_idle finished] at hsettings
  exact ⟨congrArg Settings.recordingEnabled hsettings, congrArg Settings.codecs hsettings⟩

/-- A server with one phone that does not record. -/
def silentPhone : OrderedDict PhoneId PhoneConfig :=
  OrderedDict.empty.set "alice" { domain := "example.org" }

/-- Recording is enabled while a call is being placed, and the codecs are set while another one
is. -/
def overtakingUpdates : List Turn :=
  [.construct none "sip:bob@example.org", .write "alice" (.recordingEnabled true), .take,
    .apply .opens .writes, .place 0 (some (.plain 0 .calling "a")),
    .register 0 (some (.plain 0 .calling "a")), .construct none "sip:carol@example.org",
    .write "alice" (.codecs ["PCMA"]), .take, .apply .opens .writes, .apply .opens .writes,
    .place 1 (some (.plain 1 .calling "b")), .register 1 (some (.plain 1 .calling "b"))]

/-- Each of the two calls misses the update that it overlaps. -/
theorem overtakingUpdates_lost :
    let w := (switchboards silentPhone).run (.initial silentPhone) overtakingUpdates
    (switchboards silentPhone).Reachable w ∧ w.update = none ∧
      w.placings = [.returned 0, .returned 1] ∧
      w.sys.calls.entries = [(0, 0), (1, 1)] ∧
      w.sys.callPhone.entries = [(0, "alice"), (1, "alice")] ∧
      w.sys.objs.map SipCall.settings = [⟨false, some ["PCMA"]⟩, ⟨true, none⟩] ∧
      (w.sys.phones.get? "alice").map PhoneConfig.settings = some ⟨true, some ["PCMA"]⟩ := by
  intro w
  refine ⟨GuardedSystem.Reach.init.run (by decide), ?_⟩
  decide

/-- The updates come when the calls are registered. -/
def followingUpdates : List Turn :=
  [.construct none "sip:bob@example.org", .place 0 (some (.plain 0 .calling "a")),
    .register 0 (some (.plain 0 .calling "a")), .write "alice" (.recordingEnabled true), .take,
    .apply .opens .writes, .apply .opens .writes]

theorem followingUpdates_settings :
    let w := (switchboards silentPhone).run (.initial silentPhone) followingUpdates
    (w.sys.objs.head (by decide)).recordingEnabled = true ∧
      (w.sys.objs.head (by decide)).codecs = none := by
  intro w
  have run : (switchboards silentPhone).Reach (fun w a => w.missesNothing a = true) w :=
    GuardedSystem.Reach.init.run (by decide)
  have hcfg : w.sys.phones.get? "alice" =
      some { domain := "example.org", recordingEnabled := true } := by decide
  have tracked : w.sys.calls.get? 0 = some 0 := by decide
  exact placedCalls_settings run (by decide) hcfg tracked (by decide) (by rfl)

end PjsuaMcp.Calls
