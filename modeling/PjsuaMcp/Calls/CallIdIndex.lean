import PjsuaMcp.Calls.Lifecycle

/-!
# Resolving a numeric call id to a SIP Call-ID

The log tools translate a numeric id to the SIP Call-ID header of its call by
scanning `_sip_call_id_index` for the first entry with that phone and id. The
index is keyed by header, keeps its entries forever, and an entry keeps its
place when its header is captured again. `indexOk` names the new calls that
leave every tracked call resolvable.
-/

namespace PjsuaMcp.Calls

open Library

/-- The test that `_resolve_sip_call_id` makes on an entry. -/
def OwnerInfo.isOf (info : OwnerInfo) (phone : Option PhoneId) (c : CallId) : Bool :=
  info.pjsuaCallId = c && phone.all fun p => info.phoneId = p

namespace Sys

/-- `_resolve_sip_call_id`. -/
def resolveSipCallId (s : Sys) (phone : Option PhoneId) (c : CallId) : Option String :=
  s.sipCallIdIndex.findKey? fun info => info.isOf phone c

/-- Every tracked call whose header was captured resolves to that header. -/
def Resolved (s : Sys) : Prop := ∀ c o call, s.calls.get? c = some o → s.objs[o]? = some call →
  call.sipCallId ≠ "" → s.resolveSipCallId (some call.phoneId) c = some call.sipCallId

/-- A new call with a captured header finds no entry of its own phone and id in front of the
header's place in the index, and no tracked call with the same header. -/
def indexOk (s : Sys) (a : Action) : Bool :=
  (s.newCall a).all fun call => call.sipCallId = "" ||
    ((s.sipCallIdIndex.before call.sipCallId).all (fun e =>
        !e.2.isOf (some call.phoneId) call.callId) &&
      s.calls.entries.all fun e => s.objs[e.2]?.all fun other =>
        other.sipCallId ≠ call.sipCallId)

/-- `Resolved` over the call table. -/
theorem resolved_iff (s : Sys) :
    s.Resolved ↔ ∀ c o k, s.table.calls.get? c = some o → s.table.heap[o]? = some k →
      k.identity.sipCallId ≠ "" →
      s.resolveSipCallId (some k.identity.phoneId) c = some k.identity.sipCallId := by
  constructor
  · intro h c o k hc hk
    rw [table_heap, Option.map_eq_some_iff] at hk
    obtain ⟨call, hcall, rfl⟩ := hk
    exact h c o call hc hcall
  · intro h c o call hc hcall
    exact h c o call.track hc (table_heap_of_some hcall)

theorem resolved_of_shrinks {s s' : Sys} (hshrinks : s.table.Shrinks s'.table)
    (hindex : s'.sipCallIdIndex = s.sipCallIdIndex) (h : s.Resolved) : s'.Resolved := by
  rw [resolved_iff] at h ⊢
  intro c o k' hc hk' hne
  obtain ⟨k, hk, hid⟩ := hshrinks.identity hk'
  rw [resolveSipCallId, hindex, hid]
  exact h c o k (hshrinks.calls hc) hk (hid ▸ hne)

/-! ## New calls -/

/-- A new call is indexed under its captured header. -/
theorem step_newCall_index {s : Sys} {a : Action} {call : SipCall}
    (hcall : s.newCall a = some call) :
    ∃ owner, owner.phoneId = call.phoneId ∧ owner.pjsuaCallId = call.callId ∧
      (s.step a).sipCallIdIndex =
        if call.sipCallId = "" then s.sipCallIdIndex
        else s.sipCallIdIndex.set call.sipCallId owner := by
  have htrack : ∀ (t : Sys) owner, t.sipCallIdIndex = s.sipCallIdIndex →
      (t.trackSipCallId call.sipCallId owner).sipCallIdIndex =
        if call.sipCallId = "" then s.sipCallIdIndex
        else s.sipCallIdIndex.set call.sipCallId owner := by
    intro t owner ht
    unfold trackSipCallId
    split_ifs
    · exact ht
    · rw [← ht]
  cases a with
  | makeCall phone destUri placed =>
      rcases s.makeCall_cases phone destUri placed with
        ⟨hnone, -⟩ | ⟨p, cfg, ci, owner, -, -, -, hp, hc, hnew, hstep⟩
      · rw [hnone] at hcall
        cases hcall
      · rw [hnew] at hcall
        cases hcall
        refine ⟨owner, hp, hc, ?_⟩
        change (s.makeCall phone destUri placed).2.sipCallIdIndex = _
        rw [hstep]
        exact htrack _ owner rfl
  | incomingCall p c ci =>
      rcases s.onIncomingCall_cases p c ci with ⟨-, hnone, -⟩ | ⟨cfg, owner, -, hp, hc, hnew, hstep⟩
      · rw [hnone] at hcall
        cases hcall
      · rw [hnew] at hcall
        cases hcall
        refine ⟨owner, hp, hc, ?_⟩
        change (s.onIncomingCall p c ci).sipCallIdIndex = _
        rw [hstep]
        exact htrack _ owner rfl
  | _ => cases hcall

theorem resolved_iff_forall (s : Sys) :
    s.Resolved ↔ ∀ c call, (∃ o, s.calls.get? c = some o ∧ s.objs[o]? = some call) →
      call.sipCallId ≠ "" →
      s.resolveSipCallId (some call.phoneId) c = some call.sipCallId :=
  ⟨fun h c call ⟨o, hc, ho⟩ => h c o call hc ho, fun h c o call hc ho => h c call ⟨o, hc, ho⟩⟩

/-- A new call keeps every tracked call resolvable if and only if it is admitted. -/
theorem resolved_newCall {s : Sys} {a : Action} {call : SipCall} (en : s.enabled a = true)
    (hs : s.table.Sound) (h : s.Resolved) (hcall : s.newCall a = some call)
    (ha : a.creates = true) : s.indexOk a = true ↔ (s.step a).Resolved := by
  have htracked := tracked_newCall en hs hcall ha
  obtain ⟨owner, hphone, hid, hindex⟩ := step_newCall_index hcall
  rw [resolved_iff_forall] at h ⊢
  simp only [htracked, resolveSipCallId, hindex]
  by_cases hempty : call.sipCallId = ""
  · refine iff_of_true (by simp [indexOk, hcall, hempty]) ?_
    rintro c other (⟨rfl, rfl⟩ | ⟨-, hold⟩) hne
    · exact absurd hempty hne
    · rw [if_pos hempty]
      exact h c other hold hne
  · simp only [if_neg hempty]
    have hmatch : owner.isOf (some call.phoneId) call.callId = true := by
      simp [OwnerInfo.isOf, hphone, hid]
    have hothers : ∀ c other, c ≠ call.callId → other.sipCallId ≠ "" →
        (∃ o, s.calls.get? c = some o ∧ s.objs[o]? = some other) →
        ((s.sipCallIdIndex.set call.sipCallId owner).findKey? (fun info =>
          info.isOf (some other.phoneId) c) = some other.sipCallId ↔
            other.sipCallId ≠ call.sipCallId) := by
      intro c other hc hne hold
      refine OrderedDict.findKey?_set_of_not_match ?_ (h c other hold hne)
      simp [OwnerInfo.isOf, hid, Ne.symm hc]
    have hself := OrderedDict.findKey?_set_of_match (d := s.sipCallIdIndex)
      (k := call.sipCallId) (p := fun info => info.isOf (some call.phoneId) call.callId) hmatch
    have hok : s.indexOk a = true ↔
        (∀ e ∈ s.sipCallIdIndex.before call.sipCallId,
          e.2.isOf (some call.phoneId) call.callId = false) ∧
        ∀ c other, (∃ o, s.calls.get? c = some o ∧ s.objs[o]? = some other) →
          other.sipCallId ≠ call.sipCallId := by
      simp only [indexOk, hcall, Option.all_some, hempty, decide_false, Bool.false_or,
        Bool.and_eq_true, List.all_eq_true, Bool.not_eq_true', Option.all_eq_true,
        decide_eq_true_eq]
      refine and_congr_right fun _ => ⟨?_, ?_⟩
      · rintro hall c other ⟨o, hc, ho⟩
        exact hall (c, o) ((s.calls.get?_eq_some_iff c o).mp hc) other ho
      · rintro hall ⟨c, o⟩ he other ho
        exact hall c other ⟨o, (s.calls.get?_eq_some_iff c o).mpr he, ho⟩
    rw [hok]
    constructor
    · rintro ⟨hbefore, hdistinct⟩ c other (⟨rfl, rfl⟩ | ⟨hc, hold⟩) hne
      · exact hself.mpr hbefore
      · exact (hothers c other hc hne hold).mpr (hdistinct c other hold)
    · intro hall
      refine ⟨hself.mp (hall call.callId call (.inl ⟨rfl, rfl⟩) hempty), ?_⟩
      intro c other hold heq
      have hne : other.sipCallId ≠ "" := heq ▸ hempty
      have hc : c ≠ call.callId := by
        rintro rfl
        obtain ⟨o, ho, -⟩ := hold
        rw [get?_eq_none_of_idFree hs (newCall_spec hcall en).1] at ho
        cases ho
      exact (hothers c other hc hne hold).mp (hall c other (.inr ⟨hc, hold⟩) hne) heq

/-- A step keeps every tracked call resolvable if and only if it is an admitted one. -/
theorem indexOk_iff {s : Sys} {a : Action} (en : s.enabled a = true) (hs : s.table.Sound)
    (h : s.Resolved) : s.indexOk a = true ↔ (s.step a).Resolved := by
  cases ha : a.creates with
  | false =>
      have hold := step_noNewCall en ha
      refine iff_of_true ?_ (resolved_of_shrinks hold.shrinks hold.index h)
      cases a with
      | makeCall | incomingCall => cases ha
      | _ => rfl
  | true =>
      rcases s.step_newCall a ha with ⟨hnone, hsame⟩ | ⟨call, _, _, _, hcall, -⟩
      · rw [hsame]
        exact iff_of_true (by rw [indexOk, hnone]; rfl) h
      · exact resolved_newCall en hs h hcall ha

end Sys

/-! ## Runs -/

/-- Along a run of admitted steps every tracked call resolves to the header it was created
with; the next step keeps this so if and only if it is admitted. -/
theorem resolves_tracked {s : Sys} (run : server.Reach (fun s a => s.indexOk a = true) s) :
    s.Resolved ∧ ∀ a, s.enabled a = true → (s.indexOk a = true ↔ (s.step a).Resolved) := by
  have hsound := fun s (run : server.Reach (fun s a => s.indexOk a = true) s) =>
    reachable_sound run.reachable
  have hresolved : s.Resolved := by
    refine run.invariant_using hsound (P := Sys.Resolved) ?_ ?_
    · intro c o call hc
      cases hc
    · exact fun s a en hok hs h => (Sys.indexOk_iff en hs h).mp hok
  exact ⟨hresolved, fun a en => Sys.indexOk_iff en (hsound s run) hresolved⟩

/-- A call with header "a" ends, and a call with header "b" gets its numeric id. -/
def recycledId : List Action :=
  [.addPhone "alice" { domain := "example.org" } ⟨some 1, true⟩,
   .incomingCall "alice" 0 (some (.plain 0 .incoming "a")),
   .callState 0 (.plain 0 .disconnected "a") .writes "t",
   .incomingCall "alice" 0 (some (.plain 0 .incoming "b"))]

/-- The live call resolves to the header of the call that ended. -/
theorem recycledId_resolves_old :
    server.Reachable (server.run .initial recycledId) ∧
    ((server.run .initial recycledId).trackedCall 0).map (·.sipCallId) = some "b" ∧
    (server.run .initial recycledId).resolveSipCallId (some "alice") 0 = some "a" := by
  refine ⟨GuardedSystem.Reach.init.run ?_, ?_⟩ <;> decide

/-- The first call, before it ends. -/
theorem resolves_tracked_first :
    (server.run .initial (recycledId.take 2)).resolveSipCallId (some "alice") 0 = some "a" :=
  have run : server.Reach (fun s a => s.indexOk a = true)
      (server.run .initial (recycledId.take 2)) :=
    GuardedSystem.Reach.init.run (by decide)
  (resolves_tracked run).1 0 0
    (Sys.inboundCall "alice" { domain := "example.org" } 0 (some (.plain 0 .incoming "a")))
    (by decide) (by decide) (by decide)

end PjsuaMcp.Calls
