import PjsuaMcp.Scenario.BusTraffic

/-!
# Delivery on the event bus

An emission that nothing disturbs invokes every active subscription that matches
once, a `once` subscription is invoked for one emission only, and a callback that
was unsubscribed is left alone. Each of the three has its own invariant, kept by
every undisturbed action; two overlapping emissions break the second one, and a
callback that unsubscribes another one breaks the third.
-/

namespace PjsuaMcp.Scenario

open Library

namespace Traffic

/-! ## Each subscription once for each emission -/

/-- What an emission has invoked and what it is still to invoke is what it should reach. -/
def Counted (t : Traffic) : Prop := ∀ {e : Nat} {ids : List Nat}, .emitted e ids ∈ t.history →
  ∀ {p : Progress}, t.emissions[e]? = some p → ∀ id,
    t.history.count (.invoked e id) + p.todoIds.count id = if id ∈ ids then 1 else 0

theorem matchingIds_nodup {t : Traffic} (h : t.Known) (ev : Event) :
    (t.bus.matchingIds ev).Nodup := by
  have hkeys : (t.bus.subs.entries.map Prod.snd).map Subscription.subId = t.bus.subs.keys := by
    rw [List.map_map]
    refine List.map_congr_left fun entry hentry => ?_
    exact (h.entry ((t.bus.subs.get?_eq_some_iff entry.1 entry.2).mpr hentry)).1
  have hsub : (t.bus.matchingIds ev).Sublist t.bus.subs.keys :=
    hkeys ▸ List.filter_sublist.map Subscription.subId
  exact hsub.nodup t.bus.subs.nodup_keys

theorem count_invoked_eq_zero {t : Traffic} (h : t.Known) {e : Nat} (he : t.emissions.length ≤ e)
    (id : Nat) : t.history.count (.invoked e id) = 0 :=
  List.count_eq_zero.mpr fun hmem => absurd (h.invoked hmem).2 (not_lt.mpr he)

theorem Counted.advance {t : Traffic} (h : t.Counted) {e : Nat} {q p : Progress}
    {marks : List Mark} (hat : t.emissions[e]? = some q)
    (hemitted : ∀ i ids, .emitted i ids ∉ marks)
    (hother : ∀ i id, i ≠ e → marks.count (.invoked i id) = 0)
    (hcount : ∀ id, marks.count (.invoked e id) + p.todoIds.count id = q.todoIds.count id) :
    (t.advance e p marks).Counted := by
  intro i ids hmem r hi id
  have hmark := (List.mem_append.mp hmem).resolve_right (hemitted i ids)
  have hsum : (t.advance e p marks).history.count (.invoked i id) =
      t.history.count (.invoked i id) + marks.count (.invoked i id) := List.count_append
  rw [hsum]
  obtain ⟨rfl, rfl⟩ | ⟨hie, hold⟩ := cell_of_set hi
  · rw [← h hmark hat id, ← hcount id, Nat.add_assoc]
  · rw [hother i id hie, Nat.add_zero]
    exact h hmark hold id

theorem Counted.begin {t : Traffic} (h : t.Counted) (known : t.Known) {p : Progress}
    {ids : List Nat} {rest : List Mark} (hnodup : ids.Nodup) (hids : p.todoIds = ids)
    (hrest : ∀ m ∈ rest, m = .finished t.emissions.length) :
    ({ t with
      emissions := t.emissions ++ [p]
      history := t.history ++ .emitted t.emissions.length ids :: rest } : Traffic).Counted := by
  intro i ids' hmem r hi id
  have hnone : (Mark.emitted t.emissions.length ids :: rest).count (.invoked i id) = 0 := by
    refine List.count_eq_zero.mpr fun hin => ?_
    rcases List.mem_cons.mp hin with heq | hin
    · cases heq
    · cases hrest _ hin
  rw [List.count_append, hnone, Nat.add_zero]
  rcases List.mem_append.mp hmem with hmark | hmark
  · rw [List.getElem?_append_left (known.emitted hmark)] at hi
    exact h hmark hi id
  · rcases List.mem_cons.mp hmark with heq | hin
    · cases heq
      rw [List.getElem?_append_right le_rfl, Nat.sub_self, List.getElem?_singleton] at hi
      cases hi
      rw [count_invoked_eq_zero known le_rfl, Nat.zero_add, hids]
      split_ifs with hid
      · exact List.count_eq_one_of_mem hnodup hid
      · exact List.count_eq_zero.mpr hid
    · cases hrest _ hin

/-- Marks of other kinds leave the counts alone. -/
theorem Counted.note {t : Traffic} (h : t.Counted) (bus : EventBus) {marks : List Mark}
    (hmarks : ∀ m ∈ marks, (∃ id once, m = .subscribed id once) ∨ ∃ id, m = .unsubscribed id) :
    (⟨bus, t.emissions, t.history ++ marks⟩ : Traffic).Counted := by
  intro i ids hmem r hi id
  have hnone : marks.count (.invoked i id) = 0 := by
    refine List.count_eq_zero.mpr fun hin => ?_
    rcases hmarks _ hin with ⟨_, _, heq⟩ | ⟨_, heq⟩ <;> cases heq
  rw [List.count_append, hnone, Nat.add_zero]
  rcases List.mem_append.mp hmem with hmark | hmark
  · exact h hmark hi id
  · rcases hmarks _ hmark with ⟨_, _, heq⟩ | ⟨_, heq⟩ <;> cases heq

theorem step_counted {t : Traffic} (known : t.Known) (h : t.Counted) {a : BusAction}
    (ok : undisturbed t a = true) : (t.step a).Counted := by
  cases t.step_moves a with
  | subscribed ha eq =>
      rw [eq]
      exact h.note _ fun m hm => .inl ⟨_, _, List.mem_singleton.mp hm⟩
  | unsubscribed ha eq =>
      rw [eq]
      refine h.note _ fun m hm => ?_
      split_ifs at hm
      · exact .inr ⟨_, List.mem_singleton.mp hm⟩
      · cases hm
  | @raised ev ha snap eq =>
      rw [eq]
      subst ha
      simp only [undisturbed, snap, decide_eq_true_eq] at ok
      refine h.begin known (matchingIds_nodup known ev) ?_ (by simp)
      rw [ok]
      rfl
  | emitted ha snap eq =>
      rw [eq]
      exact h.begin known (matchingIds_nodup known _) (EventBus.snapshot_ids snap) (by simp)
  | @called e sub todo toRemove hat eq =>
      rw [eq]
      refine h.advance hat (by simp) (fun i id hie => ?_) fun id => ?_
      · exact List.count_eq_zero.mpr (by simp [hie])
      · have hone : [Mark.invoked e sub.subId].count (.invoked e id) = [sub.subId].count id := by
          simp [List.count_singleton]
        rw [hone, ← List.count_append]
        rfl
  | returned hat eq =>
      rw [eq]
      exact h.advance hat (by simp) (by simp) fun id => Nat.zero_add _
  | ended hat eq =>
      rw [eq]
      exact h.advance hat (by simp) (by simp) fun id => by simp [Progress.todoIds, Progress.todo]
  | idle eq => exact eq.symm ▸ h

/-! ## After an unsubscription -/

/-- What was unsubscribed is gone: from the history that follows, from the bus, and from what the
emissions are still to invoke. -/
structure Silenced (t : Traffic) : Prop where
  order : t.history.Pairwise fun before after =>
    ∀ id e, before = .unsubscribed id → after ≠ .invoked e id
  gone : ∀ {id}, .unsubscribed id ∈ t.history →
    id < t.bus.ids ∧ t.bus.subs.get? id = none ∧
      ∀ p ∈ t.emissions, id ∉ p.todoIds

theorem pairwise_append_of {history marks : List Mark}
    (h : history.Pairwise fun before after => ∀ id e, before = .unsubscribed id →
      after ≠ .invoked e id)
    (hmarks : ∀ e id, .invoked e id ∈ marks → .unsubscribed id ∉ history ++ marks) :
    (history ++ marks).Pairwise fun before after => ∀ id e, before = .unsubscribed id →
      after ≠ .invoked e id := by
  refine List.pairwise_append.mpr ⟨h, List.pairwise_of_forall_mem_list ?_, ?_⟩
  · rintro before hb after ha id e rfl rfl
    exact hmarks e id ha (List.mem_append_right _ hb)
  · rintro before hb after ha id e rfl rfl
    exact hmarks e id ha (List.mem_append_left _ hb)

/-- An emission goes on, on a bus with fewer entries. -/
theorem Silenced.advance {t : Traffic} (h : t.Silenced) {e : Nat} {q p : Progress}
    {marks : List Mark} (hat : t.emissions[e]? = some q) {bus : EventBus}
    (hids : bus.ids = t.bus.ids)
    (hget : ∀ {id}, t.bus.subs.get? id = none → bus.subs.get? id = none)
    (htodo : p.todoIds ⊆ q.todoIds)
    (hmarks : ∀ m ∈ marks, (∃ id ∈ q.todoIds, m = .invoked e id) ∨ m = .finished e) :
    ({ t.advance e p marks with bus := bus } : Traffic).Silenced := by
  have hold : ∀ {id}, .unsubscribed id ∈ t.history ++ marks → .unsubscribed id ∈ t.history := by
    intro id hmem
    refine (List.mem_append.mp hmem).resolve_right fun hin => ?_
    rcases hmarks _ hin with ⟨_, _, heq⟩ | heq <;> cases heq
  have hq : q ∈ t.emissions := List.mem_of_getElem? hat
  constructor
  · refine pairwise_append_of h.order fun i id hin hgone => ?_
    rcases hmarks _ hin with ⟨_, hid, heq⟩ | heq
    · cases heq
      exact (h.gone (hold hgone)).2.2 q hq hid
    · cases heq
  · intro id hmem
    obtain ⟨hlt, hnone, htodos⟩ := h.gone (hold hmem)
    refine ⟨hids ▸ hlt, hget hnone, fun r hr hin => ?_⟩
    rcases List.mem_or_eq_of_mem_set hr with hr | rfl
    · exact htodos r hr hin
    · exact htodos q hq (htodo hin)

/-- A new emission catches only what the bus still has. -/
theorem Silenced.begin {t : Traffic} (h : t.Silenced) {p : Progress} {marks : List Mark}
    (htodo : ∀ id ∈ p.todoIds, t.bus.subs.get? id ≠ none)
    (hmarks : ∀ m ∈ marks, (∃ e ids, m = .emitted e ids) ∨ ∃ e, m = .finished e) :
    ({ t with emissions := t.emissions ++ [p], history := t.history ++ marks } : Traffic).Silenced := by
  have hold : ∀ {id}, .unsubscribed id ∈ t.history ++ marks → .unsubscribed id ∈ t.history := by
    intro id hmem
    refine (List.mem_append.mp hmem).resolve_right fun hin => ?_
    rcases hmarks _ hin with ⟨_, _, heq⟩ | ⟨_, heq⟩ <;> cases heq
  constructor
  · refine pairwise_append_of h.order fun i id hin _ => ?_
    rcases hmarks _ hin with ⟨_, _, heq⟩ | ⟨_, heq⟩ <;> cases heq
  · intro id hmem
    obtain ⟨hlt, hnone, htodos⟩ := h.gone (hold hmem)
    refine ⟨hlt, hnone, fun r hr hin => ?_⟩
    rcases List.mem_append.mp hr with hr | hr
    · exact htodos r hr hin
    · rw [List.mem_singleton.mp hr] at hin
      exact htodo id hin hnone

theorem step_silenced {t : Traffic} (known : t.Known) (h : t.Silenced) {a : BusAction}
    (ok : undisturbed t a = true) : (t.step a).Silenced := by
  cases t.step_moves a with
  | @subscribed patterns callback once ha eq =>
      rw [eq]
      constructor
      · exact pairwise_append_of h.order (by simp)
      · intro id hmem
        obtain ⟨hlt, hnone, htodos⟩ := h.gone (by simpa using hmem)
        refine ⟨Nat.lt_add_right 1 hlt, ?_, htodos⟩
        rw [EventBus.subscribe, OrderedDict.get?_set_of_ne _ hlt.ne', hnone]
  | @unsubscribed id ha eq =>
      rw [eq]
      subst ha
      constructor
      · refine pairwise_append_of h.order fun e i hin => ?_
        split_ifs at hin <;> simp at hin
      · intro i hmem
        simp only [EventBus.unsubscribe, OrderedDict.get?_pop]
        rcases List.mem_append.mp hmem with hmem | hmem
        · obtain ⟨hlt, hnone, htodos⟩ := h.gone hmem
          exact ⟨hlt, by split_ifs <;> simp [hnone], htodos⟩
        · split_ifs at hmem with hlt
          · cases List.mem_singleton.mp hmem
            refine ⟨hlt, if_pos rfl, fun p hp => ?_⟩
            exact of_decide_eq_true (List.all_eq_true.mp ok p hp)
          · cases hmem
  | raised ha snap eq =>
      rw [eq]
      exact h.begin (p := .finished) (by simp [Progress.todoIds, Progress.todo]) (by simp)
  | emitted ha snap eq =>
      rw [eq]
      refine h.begin (fun id hid hnone => ?_) (by simp)
      obtain ⟨sub, hsub, rfl⟩ := List.mem_map.mp hid
      obtain ⟨i, hget⟩ := EventBus.mem_of_mem_snapshot snap hsub
      rw [(known.entry hget).1, hget] at hnone
      cases hnone
  | called hat eq =>
      rw [eq]
      refine h.advance hat rfl id (fun _ hid => List.mem_cons_of_mem _ hid) fun m hm => ?_
      exact .inl ⟨_, List.mem_cons_self, List.mem_singleton.mp hm⟩
  | returned hat eq =>
      rw [eq]
      exact h.advance hat rfl id (fun _ hid => hid) (by simp)
  | ended hat eq =>
      rw [eq]
      refine h.advance hat rfl (fun hnone => ?_) (by simp [Progress.todoIds, Progress.todo])
        fun m hm => .inr (List.mem_singleton.mp hm)
      rw [EventBus.dropOnce, OrderedDict.get?_filterKeys, hnone, ite_self]
  | idle eq => exact eq.symm ▸ h

/-! ## Subscriptions that are meant for one event -/

/-- How often a callback has been invoked. -/
def invocations (t : Traffic) (id : Nat) : Nat := t.history.countP (Mark.invokes id)

/-- A `once` subscription has been invoked at most once; while an emission is still to invoke it,
it has not been and no other emission is; and while the bus still has it after its invocation,
an emission is going to remove it. -/
structure OnceOnly (t : Traffic) : Prop where
  nodup : ∀ {e : Nat} {p : Progress}, t.emissions[e]? = some p → p.todoIds.Nodup
  most : ∀ {id}, .subscribed id true ∈ t.history → t.invocations id ≤ 1
  pending : ∀ {id}, .subscribed id true ∈ t.history → ∀ {e : Nat} {p : Progress},
    t.emissions[e]? = some p → id ∈ p.todoIds → t.invocations id = 0 ∧
      ∀ {i : Nat} {r : Progress}, t.emissions[i]? = some r → id ∈ r.todoIds → i = e
  removal : ∀ {id}, .subscribed id true ∈ t.history → t.bus.subs.get? id ≠ none →
    t.invocations id ≠ 0 → ∃ (e : Nat) (p : Progress), t.emissions[e]? = some p ∧ id ∈ p.doneIds

/-- The emissions stay as they are, and nothing is invoked. -/
theorem OnceOnly.keep {t : Traffic} (h : t.OnceOnly) {bus : EventBus} {marks : List Mark}
    (hmarks : ∀ id, marks.countP (Mark.invokes id) = 0)
    (hold : ∀ {id}, .subscribed id true ∈ t.history ++ marks → .subscribed id true ∈ t.history)
    (hget : ∀ {id}, .subscribed id true ∈ t.history → bus.subs.get? id ≠ none →
      t.bus.subs.get? id ≠ none) :
    (⟨bus, t.emissions, t.history ++ marks⟩ : Traffic).OnceOnly := by
  have hsame : ∀ id, (⟨bus, t.emissions, t.history ++ marks⟩ : Traffic).invocations id =
      t.invocations id := by
    intro id
    simp only [invocations, List.countP_append, hmarks, Nat.add_zero]
  constructor
  · exact h.nodup
  · intro id hmem
    rw [hsame]
    exact h.most (hold hmem)
  · intro id hmem e p hat hid
    rw [hsame]
    exact h.pending (hold hmem) hat hid
  · intro id hmem hin hne
    rw [hsame] at hne
    exact h.removal (hold hmem) (hget (hold hmem) hin) hne

/-- An emission goes on without invoking anything, and what it was going to remove it still is, or
the bus has it no more. -/
theorem OnceOnly.advance {t : Traffic} (h : t.OnceOnly) {e : Nat} {q p : Progress}
    {marks : List Mark} (hat : t.emissions[e]? = some q) {bus : EventBus}
    (htodo : p.todoIds = q.todoIds) (hmarks : ∀ m ∈ marks, m = .finished e)
    (hget : ∀ {id}, bus.subs.get? id ≠ none → t.bus.subs.get? id ≠ none)
    (hdone : ∀ {id}, .subscribed id true ∈ t.history → bus.subs.get? id ≠ none →
      id ∈ q.doneIds → id ∈ p.doneIds) :
    ({ t.advance e p marks with bus := bus } : Traffic).OnceOnly := by
  have hlt := (List.getElem?_eq_some_iff.mp hat).1
  have hold : ∀ {id}, .subscribed id true ∈ t.history ++ marks →
      .subscribed id true ∈ t.history := fun hmem =>
    (List.mem_append.mp hmem).resolve_right fun hin => by cases hmarks _ hin
  have hsame : ∀ id, ({ t.advance e p marks with bus := bus } : Traffic).invocations id =
      t.invocations id := by
    intro id
    have hnone : marks.countP (Mark.invokes id) = 0 :=
      List.countP_eq_zero.mpr fun m hm => by rw [hmarks m hm]; exact Bool.false_ne_true
    simp only [invocations, Traffic.advance, List.countP_append, hnone, Nat.add_zero]
  -- what is to be invoked at each place is what it was
  have hplace : ∀ {i : Nat} {r : Progress}, (t.emissions.set e p)[i]? = some r →
      ∃ r' : Progress, t.emissions[i]? = some r' ∧ r.todoIds = r'.todoIds := by
    intro i r hi
    obtain ⟨rfl, rfl⟩ | ⟨-, hold⟩ := cell_of_set hi
    · exact ⟨q, hat, htodo⟩
    · exact ⟨r, hold, rfl⟩
  constructor
  · intro i r hi
    obtain ⟨r', hi', heq⟩ := hplace hi
    exact heq ▸ h.nodup hi'
  · intro id hmem
    rw [hsame]
    exact h.most (hold hmem)
  · intro id hmem i r hi hid
    obtain ⟨r', hi', heq⟩ := hplace hi
    obtain ⟨hzero, honly⟩ := h.pending (hold hmem) hi' (heq ▸ hid)
    refine ⟨by rw [hsame, hzero], fun {j s} hj hjd => ?_⟩
    obtain ⟨s', hj', heq'⟩ := hplace hj
    exact honly hj' (heq' ▸ hjd)
  · intro id hmem hin hne
    rw [hsame] at hne
    obtain ⟨i, r, hi, hid⟩ := h.removal (hold hmem) (hget hin) hne
    by_cases hei : e = i
    · subst hei
      rw [hat] at hi
      cases hi
      exact ⟨e, p, List.getElem?_set_self hlt, hdone (hold hmem) hin hid⟩
    · exact ⟨i, r, (List.getElem?_set_ne hei).trans hi, hid⟩

/-- A callback begins. -/
theorem OnceOnly.call {t : Traffic} (h : t.OnceOnly) {e : Nat} {sub : Subscription}
    {todo : List Subscription} {toRemove : List Nat}
    (hat : t.emissions[e]? = some (.next (sub :: todo) toRemove)) :
    (t.advance e (.inside sub todo toRemove) [.invoked e sub.subId]).OnceOnly := by
  have hlt := (List.getElem?_eq_some_iff.mp hat).1
  have hnodup : sub.subId ∉ todo.map Subscription.subId ∧
      (todo.map Subscription.subId).Nodup := List.nodup_cons.mp (h.nodup hat)
  have hold : ∀ {id}, .subscribed id true ∈ t.history ++ [.invoked e sub.subId] →
      .subscribed id true ∈ t.history := fun hmem => by simpa using hmem
  have hcount : ∀ id, (t.advance e (.inside sub todo toRemove)
      [.invoked e sub.subId]).invocations id =
        t.invocations id + if sub.subId = id then 1 else 0 := by
    intro id
    simp [invocations, Traffic.advance, List.countP_append, List.countP_singleton, Mark.invokes]
  have hplace : ∀ {i id : Nat} {r : Progress},
      (t.emissions.set e (.inside sub todo toRemove))[i]? = some r →
      id ∈ r.todoIds → (id = sub.subId → i ≠ e) ∧
        ∃ r' : Progress, t.emissions[i]? = some r' ∧ id ∈ r'.todoIds := by
    intro i id r hi hid
    obtain ⟨rfl, rfl⟩ | ⟨hie, hold⟩ := cell_of_set hi
    · refine ⟨fun heq => absurd (heq ▸ hid) hnodup.1, .next (sub :: todo) toRemove, hat, ?_⟩
      exact List.mem_cons_of_mem _ hid
    · exact ⟨fun _ => hie, r, hold, hid⟩
  constructor
  · intro i r hi
    obtain ⟨-, rfl⟩ | ⟨-, hold⟩ := cell_of_set hi
    · exact hnodup.2
    · exact h.nodup hold
  · intro id hmem
    rw [hcount]
    split_ifs with hid
    · have hhead : id ∈ (Progress.next (sub :: todo) toRemove).todoIds :=
        hid ▸ List.mem_cons_self
      rw [(h.pending (hold hmem) hat hhead).1]
    · exact h.most (hold hmem)
  · intro id hmem i r hi hid
    obtain ⟨hself, r', hi', hid'⟩ := hplace hi hid
    obtain ⟨hzero, honly⟩ := h.pending (hold hmem) hi' hid'
    have hne : sub.subId ≠ id := by
      rintro rfl
      exact hself rfl (honly hat List.mem_cons_self).symm
    refine ⟨by rw [hcount, hzero, if_neg hne], fun {j s} hj hjd => ?_⟩
    obtain ⟨-, s', hj', hjd'⟩ := hplace hj hjd
    exact honly hj' hjd'
  · intro id hmem hin hne
    by_cases hid : sub.subId = id
    · exact ⟨e, _, List.getElem?_set_self hlt, hid ▸ List.mem_cons_self⟩
    · rw [hcount, if_neg hid, Nat.add_zero] at hne
      obtain ⟨i, r, hi, hdone⟩ := h.removal (hold hmem) hin hne
      by_cases hei : e = i
      · subst hei
        rw [hat] at hi
        cases hi
        exact ⟨e, _, List.getElem?_set_self hlt, List.mem_cons_of_mem _ hdone⟩
      · exact ⟨i, r, (List.getElem?_set_ne hei).trans hi, hdone⟩

/-- A new emission, whose `once` subscriptions no other one has in hand. -/
theorem OnceOnly.begin {t : Traffic} (h : t.OnceOnly) {p : Progress} {marks : List Mark}
    (hnodup : p.todoIds.Nodup)
    (hfree : ∀ {id}, .subscribed id true ∈ t.history → id ∈ p.todoIds →
      t.bus.subs.get? id ≠ none ∧ ∀ r ∈ t.emissions, id ∉ r.todoIds ∧ id ∉ r.doneIds)
    (hmarks : ∀ m ∈ marks, (∃ e ids, m = .emitted e ids) ∨ ∃ e, m = .finished e) :
    ({ t with emissions := t.emissions ++ [p], history := t.history ++ marks } : Traffic).OnceOnly := by
  have hold : ∀ {id}, .subscribed id true ∈ t.history ++ marks →
      .subscribed id true ∈ t.history := by
    intro id hmem
    refine (List.mem_append.mp hmem).resolve_right fun hin => ?_
    rcases hmarks _ hin with ⟨_, _, heq⟩ | ⟨_, heq⟩ <;> cases heq
  have hsame : ∀ id, (⟨t.bus, t.emissions ++ [p], t.history ++ marks⟩ : Traffic).invocations id =
      t.invocations id := by
    intro id
    have hnone : marks.countP (Mark.invokes id) = 0 := by
      refine List.countP_eq_zero.mpr fun m hm => ?_
      rcases hmarks m hm with ⟨_, _, rfl⟩ | ⟨_, rfl⟩ <;> exact Bool.false_ne_true
    simp only [invocations, List.countP_append, hnone, Nat.add_zero]
  have hplace : ∀ {i : Nat} {r : Progress}, (t.emissions ++ [p])[i]? = some r →
      t.emissions[i]? = some r ∨ (i = t.emissions.length ∧ r = p) := by
    intro i r hi
    rw [List.getElem?_append] at hi
    split_ifs at hi with hlt
    · exact .inl hi
    · rw [List.getElem?_singleton] at hi
      split_ifs at hi with hzero
      exact .inr ⟨by omega, (Option.some.inj hi).symm⟩
  constructor
  · intro i r hi
    rcases hplace hi with hi | ⟨-, rfl⟩
    · exact h.nodup hi
    · exact hnodup
  · intro id hmem
    rw [hsame]
    exact h.most (hold hmem)
  · intro id hmem i r hi hid
    rw [hsame]
    rcases hplace hi with hbefore | ⟨rfl, rfl⟩
    · obtain ⟨hzero, honly⟩ := h.pending (hold hmem) hbefore hid
      refine ⟨hzero, fun {j s} hj hjd => ?_⟩
      rcases hplace hj with hj | ⟨-, rfl⟩
      · exact honly hj hjd
      · exact absurd hid ((hfree (hold hmem) hjd).2 r (List.mem_of_getElem? hbefore)).1
    · obtain ⟨hin, hfresh⟩ := hfree (hold hmem) hid
      refine ⟨?_, fun {j s} hj hjd => ?_⟩
      · by_contra hne
        obtain ⟨j, s, hj, hdone⟩ := h.removal (hold hmem) hin hne
        exact (hfresh s (List.mem_of_getElem? hj)).2 hdone
      · rcases hplace hj with hj | ⟨rfl, -⟩
        · exact absurd hjd (hfresh s (List.mem_of_getElem? hj)).1
        · rfl
  · intro id hmem hin hne
    rw [hsame] at hne
    obtain ⟨i, r, hi, hdone⟩ := h.removal (hold hmem) hin hne
    exact ⟨i, r, by rw [List.getElem?_append_left (List.getElem?_eq_some_iff.mp hi).1, hi], hdone⟩

/-- A new subscription has not been used. -/
theorem OnceOnly.subscribe {t : Traffic} (h : t.OnceOnly) (known : t.Known)
    (patterns : List Value) (callback : Callback) (once : Bool) :
    (⟨t.bus.subscribe patterns callback once, t.emissions,
      t.history ++ [.subscribed t.bus.ids once]⟩ : Traffic).OnceOnly := by
  have hsame : ∀ id, (⟨t.bus.subscribe patterns callback once, t.emissions,
      t.history ++ [.subscribed t.bus.ids once]⟩ : Traffic).invocations id =
        t.invocations id := by
    intro id
    simp [invocations, List.countP_append, Mark.invokes]
  have hnew : t.invocations t.bus.ids = 0 := by
    refine List.countP_eq_zero.mpr fun m hm hinvokes => ?_
    cases m with
    | invoked e id =>
        obtain ⟨⟨b, hmark⟩, -⟩ := known.invoked hm
        have hid : id = t.bus.ids := of_decide_eq_true hinvokes
        exact absurd (known.fresh hmark) (hid ▸ lt_irrefl _)
    | _ => cases hinvokes
  have hnone : ∀ {e : Nat} {p : Progress}, t.emissions[e]? = some p → t.bus.ids ∉ p.todoIds := by
    intro e p hat hid
    obtain ⟨sub, hsub, heq⟩ := List.mem_map.mp hid
    have hheld : sub ∈ p.subs := by
      cases p with
      | next todo toRemove => exact hsub
      | inside running todo toRemove => exact List.mem_cons_of_mem _ hsub
      | finished => cases hsub
    exact absurd (known.fresh (known.held hat sub hheld)) (heq ▸ lt_irrefl _)
  have hold : ∀ {id}, .subscribed id true ∈ t.history ++ [.subscribed t.bus.ids once] →
      .subscribed id true ∈ t.history ∨ id = t.bus.ids := by
    intro id hmem
    rcases List.mem_append.mp hmem with hmem | hmem
    · exact .inl hmem
    · cases List.mem_singleton.mp hmem
      exact .inr rfl
  constructor
  · exact h.nodup
  · intro id hmem
    rw [hsame]
    rcases hold hmem with hmark | rfl
    · exact h.most hmark
    · rw [hnew]
      exact Nat.zero_le _
  · intro id hmem e p hat hid
    rw [hsame]
    rcases hold hmem with hmark | rfl
    · exact h.pending hmark hat hid
    · exact absurd hid (hnone hat)
  · intro id hmem hin hne
    rw [hsame] at hne
    rcases hold hmem with hmark | rfl
    · refine h.removal hmark ?_ hne
      rwa [EventBus.subscribe, OrderedDict.get?_set_of_ne _ (known.fresh hmark).ne'] at hin
    · exact absurd hnew hne

theorem step_onceOnly {t : Traffic} (known : t.Known) (h : t.OnceOnly) {a : BusAction}
    (ok : undisturbed t a = true) : (t.step a).OnceOnly := by
  cases t.step_moves a with
  | @subscribed patterns callback once ha eq =>
      rw [eq]
      exact h.subscribe known patterns callback once
  | @unsubscribed id ha eq =>
      rw [eq]
      refine h.keep (fun i => ?_) (fun {i} hmem => ?_) fun {i} _ hin hnone => hin ?_
      · split_ifs <;> rfl
      · split_ifs at hmem <;> simpa using hmem
      · simp only [EventBus.unsubscribe, OrderedDict.get?_pop, hnone, ite_self]
  | raised ha snap eq =>
      rw [eq]
      exact h.begin (p := .finished) List.nodup_nil (fun _ hid => by cases hid) (by simp)
  | @emitted ev found ha snap eq =>
      rw [eq]
      subst ha
      simp only [undisturbed, snap, List.all_eq_true, Bool.or_eq_true, decide_eq_true_eq,
        List.mem_append, not_or] at ok
      refine h.begin ?_ (fun {id} hmem hid => ?_) (by simp)
      · have hids : (Progress.next found []).todoIds = t.bus.matchingIds ev :=
          EventBus.snapshot_ids snap
        rw [hids]
        exact matchingIds_nodup known ev
      · obtain ⟨sub, hsub, rfl⟩ := List.mem_map.mp hid
        obtain ⟨i, hget⟩ := EventBus.mem_of_mem_snapshot snap hsub
        obtain ⟨rfl, hmark⟩ := known.entry hget
        have honce := known.flag hmem hmark
        refine ⟨by rw [hget]; exact Option.some_ne_none _, (ok sub hsub).resolve_left ?_⟩
        simp [← honce]
  | called hat eq => exact eq ▸ h.call hat
  | @returned e sub todo toRemove hat eq =>
      rw [eq]
      refine h.advance hat rfl (by simp) id fun {id} hmem _ hid => ?_
      rcases List.mem_cons.mp hid with rfl | hid
      · have honce := known.flag hmem (known.held hat sub List.mem_cons_self)
        simp [Progress.doneIds, ← honce]
      · simp only [Progress.doneIds]
        split_ifs
        · exact List.mem_append_left _ hid
        · exact hid
  | ended hat eq =>
      rw [eq]
      refine h.advance hat rfl (fun m hm => List.mem_singleton.mp hm) (fun hin hnone => hin ?_)
        fun _ hin hid => ?_
      · rw [EventBus.dropOnce, OrderedDict.get?_filterKeys, hnone, ite_self]
      · rw [EventBus.dropOnce, OrderedDict.get?_filterKeys, if_neg] at hin
        · exact absurd rfl hin
        · exact fun hkept => of_decide_eq_true hkept hid
  | idle eq => exact eq.symm ▸ h

end Traffic

/-! ## Runs -/

/-- Along a run of undisturbed actions the bus delivers: `once` callbacks at most once, none after
its unsubscription, and every active subscription that matches once for each emission. -/
theorem bus_delivers {t : Traffic} (run : busTraffic.Reach (fun t a => undisturbed t a = true) t) :
    Delivered t.history := by
  have hknown : ∀ t, busTraffic.Reach (fun t a => undisturbed t a = true) t → t.Known :=
    fun t run => run.invariant (P := Traffic.Known) Traffic.initial_known
      fun _ a _ _ h => Traffic.step_known h a
  have hcounted : t.Counted := by
    refine run.invariant_using (P := Traffic.Counted) hknown ?_
      fun t a _ ok known h => Traffic.step_counted known h ok
    intro e ids hmem
    cases hmem
  have hsilenced : t.Silenced := run.invariant_using hknown
    ⟨List.Pairwise.nil, fun hmem => by cases hmem⟩
    fun t a _ ok known h => Traffic.step_silenced known h ok
  have honce : t.OnceOnly := by
    refine run.invariant_using hknown ⟨?_, ?_, ?_, ?_⟩
      fun t a _ ok known h => Traffic.step_onceOnly known h ok
    · exact fun hat => by cases hat
    · exact fun hmem => by cases hmem
    · exact fun hmem => by cases hmem
    · exact fun hmem => by cases hmem
  refine ⟨honce.most, hsilenced.order, fun {e ids} hemitted hfinished id => ?_⟩
  have hcount := hcounted hemitted ((hknown t run).finished hfinished) id
  exact hcount

/-- Two emissions overlap: both have taken their copy before either calls back. -/
def overlapping : List BusAction :=
  [.subscribe [.ofString "x.y"] .foreign true, .emit ⟨⟨"x.y".toList, .null, .null, []⟩, 0⟩,
   .emit ⟨⟨"x.y".toList, .null, .null, []⟩, 0⟩, .call 0, .call 1]

/-- A callback unsubscribes another one that its own emission is still to invoke. -/
def unsubscribing : List BusAction :=
  [.subscribe [.ofString "x.y"] .foreign false, .subscribe [.ofString "x.y"] .foreign false,
   .emit ⟨⟨"x.y".toList, .null, .null, []⟩, 0⟩, .call 0, .unsubscribe 2, .callReturned 0, .call 0]

/-- The `once` callback is invoked twice, and the other one after it was unsubscribed. -/
theorem overlapping_not_delivered :
    ¬ Delivered (busTraffic.run busTraffic.init overlapping).history ∧
    ¬ Delivered (busTraffic.run busTraffic.init unsubscribing).history := by
  have htwice : (busTraffic.run busTraffic.init overlapping).history =
      [.subscribed 1 true, .emitted 0 [1], .emitted 1 [1], .invoked 0 1, .invoked 1 1] := by
    decide
  have hafter : (busTraffic.run busTraffic.init unsubscribing).history =
      [.subscribed 1 false, .subscribed 2 false, .emitted 0 [1, 2], .invoked 0 1,
        .unsubscribed 2, .invoked 0 2] := by
    decide
  rw [htwice, hafter]
  constructor
  · intro h
    have hmost := @Delivered.once _ h 1 List.mem_cons_self
    exact absurd hmost (by decide)
  · intro h
    have horder := h.unsubscribed
    simp at horder

/-- An emission begins inside a callback of another one, which reaches the first subscription too;
this one is unsubscribed as soon as both have invoked it, and a third emission reaches nobody. -/
def interleaved : List BusAction :=
  [.subscribe [.ofString "x.y", .ofString "z.w"] .foreign false,
   .subscribe [.ofString "x.y"] .foreign true, .subscribe [.ofString "z.w"] .foreign true,
   .emit ⟨⟨"x.y".toList, .null, .null, []⟩, 0⟩, .call 0,
   .emit ⟨⟨"z.w".toList, .null, .null, []⟩, 1⟩, .call 1, .callReturned 0, .unsubscribe 1,
   .call 0, .callReturned 1, .call 1, .callReturned 0, .finish 0, .callReturned 1, .finish 1,
   .emit ⟨⟨"x.y".toList, .null, .null, []⟩, 2⟩]

theorem interleaved_delivered :
    Delivered (busTraffic.run busTraffic.init interleaved).history :=
  bus_delivers (GuardedSystem.Reach.init.run (by decide))

end PjsuaMcp.Scenario
