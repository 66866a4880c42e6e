import PjsuaMcp.Scenario.Attachment

/-!
# How often a `once` hook fires

The callback of a `once` hook detaches the hook before it schedules the
actions, but nothing in it asks whether another emit has done so already. A
hook fires at most once as long as no emit catches it while an earlier emit
still has it to call, and no callback finds `sub_id` unassigned.
-/

namespace PjsuaMcp.Scenario

open Library

namespace HookRuntime

variable (py : PyText)

/-- The event passes `_hook_matches` of the hook. -/
def firesOn (s : HookRuntime) (h : Nat) (ev : Event) : Bool :=
  match s.hooks[h]? with
  | some hook => hookMatches py hook ev = some true
  | none => false

/-- Some emission in progress has the hook still to call, for an event that it fires on. -/
def awaited (s : HookRuntime) (h : Nat) : Bool :=
  s.emissions.any fun e => e.holds h && s.firesOn py h e.event

/-- An emit of `ev` would copy the subscription of the hook. -/
def caught (s : HookRuntime) (h : Nat) (ev : Event) : Bool :=
  match s.bus.snapshot ev with
  | some subs => subs.any fun sub => sub.callback.isHookOf h
  | none => false

/-- The next move of emission `i` tests `sub_id` in the callback of the hook. -/
def testing (s : HookRuntime) (h i : Nat) : Bool :=
  match s.emissions[i]? with
  | some e => e.stage = .matched && e.todo.head?.any fun sub => sub.callback.isHookOf h
  | none => false

def assigned (s : HookRuntime) (h : Nat) : Bool := ((s.hooks[h]?).bind Hook.subId).isSome

/-- No emit catches the hook while an earlier one still has it to call, both for events it fires
on, and its callback does not get to the test of `sub_id` before `arm` has assigned it. -/
def detachesInTime (h : Nat) (s : HookRuntime) : BusMove → Bool
  | .emit ev => !(s.caught h ev && s.firesOn py h ev && s.awaited py h)
  | .advance i => !(s.testing h i) || s.assigned h
  | _ => true

/-- How many coroutines the hook has given to the loop. -/
def fired (s : HookRuntime) (h : Nat) : Nat := s.scheduled.countP fun firing => firing.1 = h

variable {py} {s : HookRuntime} {h : Nat}

/-- Emission `i` is going to schedule the hook, unless its callback does not get there. -/
def Awaits (py : PyText) (s : HookRuntime) (h i : Nat) : Prop :=
  ∃ e, s.emissions[i]? = some e ∧ e.holds h = true ∧ s.firesOn py h e.event = true

/-- A hook is awaited when an emission is about to call it and would fire it. -/
theorem awaited_iff : s.awaited py h = true ↔ ∃ i, s.Awaits py h i := by
  simp only [awaited, Awaits, List.any_eq_true, Bool.and_eq_true]
  constructor
  · rintro ⟨e, hmem, hholds, hfires⟩
    obtain ⟨i, hi⟩ := List.mem_iff_getElem?.mp hmem
    exact ⟨i, e, hi, hholds, hfires⟩
  · rintro ⟨i, e, hi, hholds, hfires⟩
    exact ⟨e, List.mem_of_getElem? hi, hholds, hfires⟩

theorem firesOn_eq {hook : Hook} (obj : s.hooks[h]? = some hook) (ev : Event) :
    s.firesOn py h ev = decide (hookMatches py hook ev = some true) := by
  simp only [firesOn, obj]

/-- A hook object keeps deciding the same way. -/
theorem firesOn_step (a : BusMove) (hlt : h < s.hooks.length) (ev : Event) :
    (s.step py a).firesOn py h ev = s.firesOn py h ev := by
  have obj := List.getElem?_eq_getElem hlt
  obtain ⟨subId, obj'⟩ := hooks_step py a obj
  rw [firesOn_eq obj', firesOn_eq obj]
  rfl

/-! ## The invariant -/

/-- What holds of a `once` hook in runs that detach it in time. -/
structure FiresOnce (py : PyText) (s : HookRuntime) (h : Nat) : Prop where
  alone : ∀ i j, s.Awaits py h i → s.Awaits py h j → i = j
  single : ∀ e ∈ s.emissions, e.todo.countP (fun sub => sub.callback.isHookOf h) ≤ 1
  fired_le : s.fired h ≤ 1
  spent : s.fired h ≠ 0 → ¬s.Attached h ∧ ∀ i, ¬s.Awaits py h i
  /-- The callback is past the match only for events that the hook fires on. -/
  staged : ∀ e ∈ s.emissions, ∀ sub rest, e.todo = sub :: rest → sub.callback = .hook h →
    e.stage ≠ .between → s.firesOn py h e.event = true
  detached : ∀ e ∈ s.emissions, ∀ sub rest, e.todo = sub :: rest → sub.callback = .hook h →
    e.stage = .scheduling → ¬s.Attached h
  fired_lt : s.fired h ≠ 0 → h < s.hooks.length

/-- Moves that leave the emissions and the scheduled coroutines alone. -/
theorem FiresOnce.of_same_emissions {s' : HookRuntime} (inv : s.FiresOnce py h)
    (informed : s.Informed) (same : s'.emissions = s.emissions) (calm : s'.scheduled = s.scheduled)
    (hlen : s.hooks.length ≤ s'.hooks.length)
    (fires : h < s.hooks.length → ∀ ev, s'.firesOn py h ev = s.firesOn py h ev)
    (att : h < s.hooks.length → s'.Attached h → s.Attached h) : s'.FiresOnce py h := by
  have hfired : s'.fired h = s.fired h := by rw [fired, fired, calm]
  have hlt : ∀ e ∈ s.emissions, e.holds h = true → h < s.hooks.length := by
    intro e he hholds
    obtain ⟨sub, hsub, call⟩ := Emission.holds_iff.mp hholds
    exact informed.known e he sub hsub h call
  have hhead : ∀ e ∈ s.emissions, ∀ sub rest, e.todo = sub :: rest → sub.callback = .hook h →
      h < s.hooks.length := fun e he sub rest head call =>
    informed.known e he sub (head ▸ List.mem_cons_self) h call
  have haw : ∀ i, s'.Awaits py h i → s.Awaits py h i := by
    rintro i ⟨e, he, hholds, hfires⟩
    rw [same] at he
    have hlt := hlt e (List.mem_of_getElem? he) hholds
    exact ⟨e, he, hholds, fires hlt e.event ▸ hfires⟩
  refine ⟨fun i j hi hj => inv.alone i j (haw i hi) (haw j hj), same ▸ inv.single,
    hfired ▸ inv.fired_le, fun hne => ?_, fun e he sub rest head call stage => ?_,
    fun e he sub rest head call stage at_h => ?_,
    fun hne => Nat.lt_of_lt_of_le (inv.fired_lt (hfired ▸ hne)) hlen⟩
  · have hlt := inv.fired_lt (hfired ▸ hne)
    obtain ⟨gone, quiet⟩ := inv.spent (hfired ▸ hne)
    exact ⟨fun at_h => gone (att hlt at_h), fun i hi => quiet i (haw i hi)⟩
  · rw [same] at he
    rw [fires (hhead e he sub rest head call)]
    exact inv.staged e he sub rest head call stage
  · rw [same] at he
    exact inv.detached e he sub rest head call stage (att (hhead e he sub rest head call) at_h)

/-- An emission that moves on holds no more than before. -/
theorem Awaits.of_setEmission {i j : Nat} {e e' : Emission} (he : s.emissions[i]? = some e)
    (event : e'.event = e.event) (fewer : e'.todo.Sublist e.todo)
    (hj : (s.setEmission i e').Awaits py h j) : s.Awaits py h j := by
  obtain ⟨e'', he'', hholds, hfires⟩ := hj
  by_cases hij : i = j
  · subst hij
    simp only [setEmission] at he''
    rw [List.getElem?_set_self (List.getElem?_eq_some_iff.mp he).1] at he''
    cases he''
    obtain ⟨sub, hsub, call⟩ := Emission.holds_iff.mp hholds
    exact ⟨e, he, Emission.holds_iff.mpr ⟨sub, fewer.subset hsub, call⟩, event ▸ hfires⟩
  · simp only [setEmission] at he''
    rw [List.getElem?_set_ne hij] at he''
    exact ⟨e'', he'', hholds, hfires⟩

theorem FiresOnce.setEmission (inv : s.FiresOnce py h) {i : Nat} {e e' : Emission}
    (he : s.emissions[i]? = some e) (event : e'.event = e.event) (fewer : e'.todo.Sublist e.todo)
    (staged : ∀ sub rest, e'.todo = sub :: rest → sub.callback = .hook h →
      e'.stage ≠ .between → s.firesOn py h e.event = true)
    (detached : ∀ sub rest, e'.todo = sub :: rest → sub.callback = .hook h →
      e'.stage = .scheduling → ¬s.Attached h) : (s.setEmission i e').FiresOnce py h := by
  have hmem := List.mem_of_getElem? he
  have haw : ∀ j, (s.setEmission i e').Awaits py h j → s.Awaits py h j :=
    fun j => Awaits.of_setEmission he event fewer
  refine ⟨fun j k hj hk => inv.alone j k (haw j hj) (haw k hk), fun e'' he'' => ?_, inv.fired_le,
    fun hne => ⟨(inv.spent hne).1, fun j hj => (inv.spent hne).2 j (haw j hj)⟩,
    fun e'' he'' => ?_, fun e'' he'' => ?_, inv.fired_lt⟩ <;>
    rcases List.mem_or_eq_of_mem_set he'' with he'' | rfl
  · exact inv.single e'' he''
  · exact Nat.le_trans fewer.countP_le (inv.single e hmem)
  · exact inv.staged e'' he''
  · exact event ▸ staged
  · exact inv.detached e'' he''
  · exact detached

theorem FiresOnce.returned (inv : s.FiresOnce py h) {i : Nat} {e : Emission}
    (he : s.emissions[i]? = some e) {sub : Subscription} {rest : List Subscription}
    (head : e.todo = sub :: rest) : (s.setEmission i e.returned).FiresOnce py h := by
  obtain ⟨event, fewer⟩ := Emission.returned_le head
  have hstage := (Emission.todo_returned head).2
  exact inv.setEmission he event fewer (by simp [hstage]) (by simp [hstage])

theorem FiresOnce.shrink (inv : s.FiresOnce py h) (informed : s.Informed) {bus : EventBus}
    (sub_of : ∀ id sub, bus.subs.get? id = some sub → s.bus.subs.get? id = some sub) :
    FiresOnce py { s with bus := bus } h :=
  inv.of_same_emissions informed rfl rfl (Nat.le_refl _) (fun _ _ => rfl)
    fun _ at_h => at_h.of_shrink sub_of

/-- Another hook is scheduled. -/
theorem FiresOnce.schedule_other (inv : s.FiresOnce py h) {h' : Nat} (hne : h' ≠ h) (ev : Event) :
    FiresOnce py { s with scheduled := s.scheduled ++ [(h', ev)] } h := by
  have hfired : fired { s with scheduled := s.scheduled ++ [(h', ev)] } h = s.fired h := by
    simp [fired, hne]
  exact ⟨inv.alone, inv.single, hfired ▸ inv.fired_le, hfired ▸ inv.spent, inv.staged,
    inv.detached, hfired ▸ inv.fired_lt⟩

/-- The hook is scheduled for the first time, by the only emission that had it to call. -/
theorem FiresOnce.schedule_first (inv : s.FiresOnce py h) {ev : Event} (hlt : h < s.hooks.length)
    (gone : ¬s.Attached h) (fresh : s.fired h = 0) (quiet : ∀ i, ¬s.Awaits py h i) :
    FiresOnce py { s with scheduled := s.scheduled ++ [(h, ev)] } h := by
  have hfired : fired { s with scheduled := s.scheduled ++ [(h, ev)] } h = 1 := by
    rw [fired] at fresh
    simp [fired, fresh]
  exact ⟨inv.alone, inv.single, Nat.le_of_eq hfired, fun _ => ⟨gone, quiet⟩, inv.staged,
    inv.detached, fun _ => hlt⟩

/-- After its own callback has returned an emission has no second one of the hook to call. -/
theorem FiresOnce.not_holds_returned (inv : s.FiresOnce py h) {e : Emission}
    (he : e ∈ s.emissions) {sub : Subscription} {rest : List Subscription}
    (head : e.todo = sub :: rest) (call : sub.callback = .hook h) :
    e.returned.holds h = false := by
  have hone := inv.single e he
  have hsub : sub.callback.isHookOf h = true := Callback.isHookOf_iff.mpr call
  rw [head, List.countP_cons_of_pos (by exact hsub)] at hone
  have hrest : rest.countP (fun sub => sub.callback.isHookOf h) = 0 := by omega
  rw [Emission.holds, (Emission.todo_returned head).1, List.any_eq_false]
  exact List.countP_eq_zero.mp hrest

/-- A hook that fires is detached with it. -/
theorem FiresOnce.scheduled (inv : s.FiresOnce py h) {i : Nat} {e : Emission}
    (he : s.emissions[i]? = some e) {sub : Subscription} {rest : List Subscription}
    (head : e.todo = sub :: rest) (call : sub.callback = .hook h) (stage : e.stage = .scheduling)
    (hlt : h < s.hooks.length) :
    FiresOnce py
      { s.setEmission i e.returned with scheduled := s.scheduled ++ [(h, e.event)] } h := by
  have hmem := List.mem_of_getElem? he
  have gone := inv.detached e hmem sub rest head call stage
  have here : s.Awaits py h i := by
    refine ⟨e, he, Emission.holds_iff.mpr ⟨sub, head ▸ List.mem_cons_self, call⟩, ?_⟩
    exact inv.staged e hmem sub rest head call (by simp [stage])
  have fresh : s.fired h = 0 := by
    by_contra hne
    exact (inv.spent hne).2 i here
  refine (inv.returned he head).schedule_first hlt gone fresh fun j hj => ?_
  obtain ⟨event, fewer⟩ := Emission.returned_le head
  have hsame : i = j := inv.alone i j here (Awaits.of_setEmission he event fewer hj)
  subst hsame
  obtain ⟨e', he', hholds, _⟩ := hj
  simp only [HookRuntime.setEmission] at he'
  rw [List.getElem?_set_self (List.getElem?_eq_some_iff.mp he).1] at he'
  cases he'
  rw [inv.not_holds_returned hmem head call] at hholds
  cases hholds

theorem FiresOnce.clear (inv : s.FiresOnce py h) (informed : s.Informed) {h' : Nat} {hook : Hook}
    (obj : s.hooks[h']? = some hook) :
    FiresOnce py { s with hooks := s.hooks.set h' { hook with subId := none } } h := by
  refine inv.of_same_emissions informed rfl rfl (by simp) (fun hlt ev => ?_) fun _ at_h => at_h
  by_cases hh : h' = h
  · subst hh
    rw [firesOn_eq (List.getElem?_set_self hlt), firesOn_eq obj]
    rfl
  · simp only [firesOn, List.getElem?_set_ne hh]

/-- An emission advances by one subscription. -/
theorem FiresOnce.advance (inv : s.FiresOnce py h) (informed : s.Informed)
    (once : ∀ hook, s.hooks[h]? = some hook → hook.once = true) {i : Nat}
    (ok : detachesInTime py h s (.advance i) = true) : (s.advance py i).FiresOnce py h := by
  obtain ⟨s', hmove, rfl | ⟨e, he, moved⟩⟩ := advance_cases py s i <;> rw [hmove]
  · exact inv
  have hmem := List.mem_of_getElem? he
  -- a callback that is past the match stays so
  have past : e.stage ≠ .between → ∀ sub rest, e.todo = sub :: rest → sub.callback = .hook h →
      s.firesOn py h e.event = true :=
    fun hstage sub rest head call => inv.staged e hmem sub rest head call hstage
  have same : e.todo.Sublist e.todo := List.Sublist.refl _
  cases moved with
  | idle => exact inv
  | finish last =>
      have kept : FiresOnce py { s with bus := s.bus.dropOnce e.toRemove } h :=
        inv.shrink informed fun _ _ => EventBus.get?_dropOnce
      exact kept.setEmission he rfl same (by simp [last]) (by simp [last])
  | skip head => exact inv.returned he head
  | enter head call obj stage matched =>
      refine inv.setEmission he rfl same (fun _ _ head' call' _ => ?_) (by simp)
      cases head.symm.trans head'
      cases call.symm.trans call'
      rw [firesOn_eq obj]
      exact decide_eq_true matched
  | test head call obj stage =>
      have past := past (by simp [stage])
      exact inv.setEmission he rfl same (fun sub rest head call _ => past sub rest head call)
        (by simp)
  | pass head call obj stage free =>
      have past := past (by simp [stage])
      refine inv.setEmission he rfl same (fun sub rest head call _ => past sub rest head call)
        fun _ _ head' call' _ => ?_
      cases head.symm.trans head'
      cases call.symm.trans call'
      -- the callback passes the test of a `once` hook only when `sub_id` is not assigned
      have hclear := free (once _ obj)
      simp [detachesInTime, testing, he, stage, head, call, Callback.isHookOf, assigned, obj,
        hclear] at ok
  | @detach _ _ _ hook head call obj stage =>
      have past := past (by simp [stage])
      have kept : FiresOnce py { s with bus := s.bus.unsubscribe hook.subId } h :=
        inv.shrink informed fun _ _ hget => (EventBus.get?_unsubscribe hget).2
      exact kept.setEmission he rfl same (fun sub rest head call _ => past sub rest head call)
        (by simp)
  | clear head call obj stage =>
      have kept := inv.clear informed obj
      refine kept.setEmission he rfl same (fun sub rest head' call' _ => ?_)
        fun sub rest head' call' _ => ?_
      · exact kept.staged e hmem sub rest head' call' (by simp [stage])
      · exact (informed.detached e hmem sub rest h head' call' stage).2
  | @schedule sub rest h' hook head call obj stage =>
      by_cases hh : h' = h
      · subst hh
        exact inv.scheduled he head call stage (List.getElem?_eq_some_iff.mp obj).1
      · exact (inv.returned he head).schedule_other hh e.event

/-- The bus has one subscription of the hook at most, and a snapshot copies it once at most. -/
theorem Housed.countP_snapshot (inv : s.Housed) {ev : Event} {subs : List Subscription}
    (hsnap : s.bus.snapshot ev = some subs) (h : Nat) :
    subs.countP (fun sub => sub.callback.isHookOf h) ≤ 1 := by
  refine Nat.le_trans (EventBus.snapshot_sublist hsnap).countP_le ?_
  rw [List.countP_map, List.countP_eq_length_filter]
  have hnodup := s.bus.subs.nodup_keys
  generalize hfound : s.bus.subs.entries.filter _ = found
  have hsub : found.Sublist s.bus.subs.entries := hfound ▸ List.filter_sublist
  have hcall : ∀ entry ∈ found, entry ∈ s.bus.subs.entries ∧ entry.2.callback = .hook h := by
    intro entry hentry
    rw [← hfound, List.mem_filter] at hentry
    exact ⟨hentry.1, Callback.isHookOf_iff.mp hentry.2⟩
  match found, hsub, hcall with
  | [], _, _ => exact Nat.zero_le _
  | [_], _, _ => exact Nat.le_refl _
  | first :: second :: _, hsub, hcall =>
      obtain ⟨hmem, call⟩ := hcall first (by simp)
      obtain ⟨hmem', call'⟩ := hcall second (by simp)
      have hid := inv.id_unique ((s.bus.subs.get?_eq_some_iff _ _).mpr hmem) call
        ((s.bus.subs.get?_eq_some_iff _ _).mpr hmem') call'
      have hdistinct := hnodup.sublist (hsub.map Prod.fst)
      simp [hid] at hdistinct

/-- An emission that awaits the hook after an emit did so before, or it is the new one, which has
found the hook attached while no other emission awaited it. -/
theorem awaits_of_emit {ev : Event} {subs : List Subscription}
    (hsnap : s.bus.snapshot ev = some subs) (ok : detachesInTime py h s (.emit ev) = true) {i : Nat}
    (hi : Awaits py { s with emissions := s.emissions ++ [{ event := ev, todo := subs }] } h i) :
    s.Awaits py h i ∨ (i = s.emissions.length ∧ s.Attached h ∧ s.awaited py h = false) := by
  obtain ⟨e, he, hholds, hfires⟩ := hi
  obtain hold | ⟨rfl, rfl⟩ := cell_of_concat he
  · exact .inl ⟨e, hold, hholds, hfires⟩
  · have hin : s.caught h ev = true := by
      simp only [caught, hsnap]
      exact hholds
    have hfires : s.firesOn py h ev = true := hfires
    obtain ⟨sub, hsub, call⟩ := Emission.holds_iff.mp hholds
    refine .inr ⟨rfl, attached_of_snapshot hsnap hsub call, ?_⟩
    simpa [detachesInTime, hin, hfires] using ok

theorem not_awaits (hq : s.awaited py h = false) (i : Nat) : ¬s.Awaits py h i := by
  intro hi
  rw [awaited_iff.mpr ⟨i, hi⟩] at hq
  cases hq

/-- An emission starts while no other one is about to fire the hook. -/
theorem FiresOnce.emit (inv : s.FiresOnce py h) (housed : s.Housed) {ev : Event}
    (ok : detachesInTime py h s (.emit ev) = true) : (s.emit ev).FiresOnce py h := by
  cases hsnap : s.bus.snapshot ev with
  | none =>
      simp only [HookRuntime.emit, hsnap]
      exact inv
  | some subs =>
      simp only [HookRuntime.emit, hsnap]
      refine ⟨fun i j hi hj => ?_, fun e he => ?_, inv.fired_le, fun hne => ⟨(inv.spent hne).1,
        fun i hi => ?_⟩, fun e he => ?_, fun e he => ?_, inv.fired_lt⟩
      · rcases awaits_of_emit hsnap ok hi with hi | ⟨rfl, _, hq⟩ <;>
          rcases awaits_of_emit hsnap ok hj with hj | ⟨rfl, _, hq'⟩
        · exact inv.alone i j hi hj
        · exact absurd hi (not_awaits hq' i)
        · exact absurd hj (not_awaits hq j)
        · rfl
      · rcases List.mem_append.mp he with he | he
        · exact inv.single e he
        · rw [List.mem_singleton.mp he]
          exact housed.countP_snapshot hsnap h
      · rcases awaits_of_emit hsnap ok hi with hi | ⟨_, at_h, _⟩
        · exact (inv.spent hne).2 i hi
        · exact (inv.spent hne).1 at_h
      · rcases List.mem_append.mp he with he | he
        · exact inv.staged e he
        · rw [List.mem_singleton.mp he]
          exact fun _ _ _ _ hs => absurd rfl hs
      · rcases List.mem_append.mp he with he | he
        · exact inv.detached e he
        · rw [List.mem_singleton.mp he]
          intro _ _ _ _ hs
          cases hs

/-- Every admitted move leaves the hook fired once at most. -/
theorem FiresOnce.step (inv : s.FiresOnce py h) (sound : s.Housed ∧ s.Informed)
    (once : ∀ hook, s.hooks[h]? = some hook → hook.once = true) {a : BusMove}
    (en : enabled a = true) (ok : detachesInTime py h s a = true) :
    (s.step py a).FiresOnce py h := by
  obtain ⟨housed, informed⟩ := sound
  have hother : (s.step py a).emissions = s.emissions → (s.step py a).scheduled = s.scheduled →
      (s.step py a).FiresOnce py h := by
    intro same calm
    refine inv.of_same_emissions informed same calm (length_hooks_step py a) ?_ ?_
    · exact fun hlt ev => firesOn_step a hlt ev
    · intro hlt at_h
      rcases attached_of_step en at_h with at_h | ⟨_, _, _, rfl⟩
      · exact at_h
      · exact absurd hlt (Nat.lt_irrefl _)
  cases a with
  | subscribe | unsubscribe => exact hother rfl rfl
  | arm spec patternName =>
      rcases arm_cases py s spec patternName with hsame | ⟨new, _, harm⟩
      · rw [HookRuntime.step, hsame]
        exact inv
      · exact hother (by rw [HookRuntime.step, harm]) (by rw [HookRuntime.step, harm])
  | assign h' => exact hother (assign_emissions s h') (assign_scheduled s h')
  | remove h' => exact hother (remove_emissions s h') (remove_scheduled s h')
  | emit ev => exact inv.emit housed ok
  | advance i => exact inv.advance informed once ok

theorem initial_firesOnce (py : PyText) (h : Nat) : initial.FiresOnce py h := by
  have hquiet : ∀ i, ¬initial.Awaits py h i := by
    rintro i ⟨e, he, _⟩
    cases he
  exact ⟨fun i _ hi => absurd hi (hquiet i), nofun, Nat.zero_le _, fun hne => absurd rfl hne,
    nofun, nofun, fun hne => absurd rfl hne⟩

end HookRuntime

open HookRuntime in
/-- A `once` hook is scheduled at most once in every run in which no emit catches it while an
earlier one still has it to call and no callback of it finds `sub_id` unassigned. -/
theorem once_hook_fires_once {py : PyText} {s : HookRuntime} {h : Nat} {hook : Hook}
    (run : (hookSystem py).Reach (fun s a => detachesInTime py h s a = true) s)
    (obj : s.hooks[h]? = some hook) (once : hook.once = true) : s.fired h ≤ 1 := by
  have inv : (∀ hook, s.hooks[h]? = some hook → hook.once = true) → s.FiresOnce py h := by
    refine run.invariant_using (fun _ run => housed_informed run) (P := fun s =>
      (∀ hook, s.hooks[h]? = some hook → hook.once = true) → s.FiresOnce py h) ?_ ?_
    · exact fun _ => initial_firesOnce py h
    · intro s a en ok sound ih once'
      have once : ∀ hook, s.hooks[h]? = some hook → hook.once = true := by
        intro hook obj
        obtain ⟨subId, obj'⟩ := hooks_step py a obj
        exact once' { hook with subId := subId } obj'
      exact (ih once).step sound once en ok
  refine (inv fun hook' obj' => ?_).fired_le
  rw [obj] at obj'
  cases obj'
  exact once

/-! ## Two emits that overlap -/

/-- A hook that answers the next incoming call, with `once` left at its default. -/
def answerSpec : Dict :=
  [("when".toList, .ofString "call.state.incoming"), ("then".toList, .list [.ofString "answer"])]

def incoming (callId : Int) : Event :=
  ⟨⟨"call.state.incoming".toList, .ofString "a", .int callId, []⟩, 0⟩

/-- Two threads take their snapshots before the first callback has detached the hook. -/
def overlap : List BusMove :=
  [.arm answerSpec "<scenario>".toList, .assign 0, .emit (incoming 1), .emit (incoming 2),
    .advance 0, .advance 0, .advance 0, .advance 0, .advance 0,
    .advance 1, .advance 1, .advance 1]

theorem overlapping_emits_fire_twice :
    ∃ s hook, (hookSystem .ascii).Reachable s ∧ s.hooks[0]? = some hook ∧ hook.once = true ∧
      s.scheduled.map (fun firing => (firing.1, firing.2.callId.number?)) =
        [(0, some 1), (0, some 2)] := by
  refine ⟨(hookSystem .ascii).run .initial overlap, _,
    GuardedSystem.Reach.init.run ?_, rfl, ?_, ?_⟩
  all_goals decide

/-- The second emit starts after the first one has detached the hook. -/
def apart : List BusMove :=
  [.arm answerSpec "<scenario>".toList, .assign 0, .emit (incoming 1), .advance 0, .advance 0,
    .advance 0, .advance 0, .advance 0, .emit (incoming 2), .advance 1]

theorem apart_emits_fire_once : ((hookSystem .ascii).run .initial apart).fired 0 ≤ 1 := by
  have run : (hookSystem .ascii).Reach (fun s a => s.detachesInTime .ascii 0 a = true)
      ((hookSystem .ascii).run .initial apart) := GuardedSystem.Reach.init.run (by decide)
  exact once_hook_fires_once run rfl rfl

end PjsuaMcp.Scenario
