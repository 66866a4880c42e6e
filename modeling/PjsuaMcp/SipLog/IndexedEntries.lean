import PjsuaMcp.SipLog.RegistrationOrder
import PjsuaMcp.Server.ToolNames

/-!
# Entries whose Call-ID is indexed

The Call-ID index of the call manager is regrouped by phone before the log is
filtered. An entry whose Call-ID is indexed to a registered phone is kept for
that phone and dropped for every other one, whatever the other signals say.
-/

namespace PjsuaMcp.SipLog

open Sdp (Text)
open Library
open Calls (PhoneId PhoneConfig OwnerInfo)

/-! ## Regrouping the index -/

theorem mem_slot_add {slot : Slot} {sipId uri callId : Text} :
    callId ∈ (slot.add sipId uri).sipCallIds ↔ callId ∈ slot.sipCallIds ∨ callId = sipId := by
  rw [Slot.add, List.mem_append, List.mem_singleton]

/-- The Call-IDs of a phone after some rounds of the loop. -/
theorem mem_foldl_addToSlot {p : PhoneId} (hp : p ≠ "") {callId : Text}
    (entries : List (String × OwnerInfo)) (byPhone : OrderedDict PhoneId Slot) :
    callId ∈ (((entries.foldl addToSlot byPhone).get? p).getD {}).sipCallIds ↔
      callId ∈ ((byPhone.get? p).getD {}).sipCallIds ∨
        ∃ entry ∈ entries, entry.2.phoneId = p ∧ callId = entry.1.toList := by
  induction entries generalizing byPhone with
  | nil => simp
  | cons entry entries ih =>
      rw [List.foldl_cons, ih, List.exists_mem_cons_iff, ← or_assoc]
      refine or_congr_left ?_
      unfold addToSlot
      split_ifs with hempty
      · refine (or_iff_left ?_).symm
        rintro ⟨rfl, -⟩
        exact hp hempty
      · by_cases hsame : entry.2.phoneId = p
        · subst hsame
          rw [OrderedDict.get?_set_self, Option.getD_some, mem_slot_add, and_iff_right rfl]
        · rw [OrderedDict.get?_set_of_ne _ hsame]
          exact (or_iff_left fun h => hsame h.1).symm

theorem mem_slotsByPhone {index : OrderedDict String OwnerInfo} {p : PhoneId} (hp : p ≠ "")
    {callId : Text} :
    callId ∈ (((slotsByPhone index).get? p).getD {}).sipCallIds ↔
      ∃ info, index.get? (String.ofList callId) = some info ∧ info.phoneId = p := by
  rw [slotsByPhone, mem_foldl_addToSlot hp]
  constructor
  · rintro (hempty | ⟨entry, hentry, howner, rfl⟩)
    · cases hempty
    · refine ⟨entry.2, (OrderedDict.get?_eq_some_iff _ _ _).mpr ?_, howner⟩
      rwa [String.ofList_toList]
  · rintro ⟨info, hinfo, howner⟩
    refine .inr ⟨_, (OrderedDict.get?_eq_some_iff _ _ _).mp hinfo, howner, ?_⟩
    rw [String.toList_ofList]

/-- Entries of the index without a phone are passed over. -/
theorem slotsByPhone_empty (index : OrderedDict String OwnerInfo) :
    (slotsByPhone index).get? "" = none := by
  have hfold : ∀ (entries : List (String × OwnerInfo)) (byPhone : OrderedDict PhoneId Slot),
      byPhone.get? "" = none → (entries.foldl addToSlot byPhone).get? "" = none := by
    intro entries
    induction entries with
    | nil => exact fun _ h => h
    | cons entry entries ih =>
        intro byPhone h
        rw [List.foldl_cons]
        refine ih _ ?_
        unfold addToSlot
        split_ifs with hempty
        · exact h
        · rw [OrderedDict.get?_set_of_ne _ hempty, h]
  exact hfold _ _ rfl

/-- A phone that has the Call-ID in its bundle is the one that the index names. -/
theorem owner_of_ownsCallId {transportPort : Int → Option Nat}
    {index : OrderedDict String OwnerInfo} {md : SipMetadata} {callId : Text}
    (hcallId : given md.sipCallId = some callId) {p : PhoneId} {cfg : PhoneConfig}
    (h : CharTables.ownsCallId md (phoneMeta transportPort index p cfg) = true) :
    ∃ info, index.get? (String.ofList callId) = some info ∧ info.phoneId = p := by
  rw [CharTables.ownsCallId, hcallId, Option.any_some, decide_eq_true_eq] at h
  by_cases hp : p = ""
  · subst hp
    rw [phoneMeta, slotsByPhone_empty] at h
    cases h
  · exact (mem_slotsByPhone hp).mp h

theorem mem_buildPhonesMeta {transportPort : Int → Option Nat} {s : Calls.Sys}
    {e : PhoneId × PhoneMeta} :
    e ∈ (buildPhonesMeta transportPort s).entries ↔
      ∃ cfg, (e.1, cfg) ∈ s.phones.entries ∧
        e.2 = phoneMeta transportPort s.sipCallIdIndex e.1 cfg := by
  obtain ⟨p, phone⟩ := e
  simp only [buildPhonesMeta, List.mem_map, Prod.mk.injEq, Prod.exists]
  constructor
  · rintro ⟨p, cfg, hcfg, rfl, rfl⟩
    exact ⟨cfg, hcfg, rfl⟩
  · rintro ⟨cfg, hcfg, rfl⟩
    exact ⟨p, cfg, hcfg, rfl, rfl⟩

/-- The Call-IDs of the index belong to one phone each. -/
theorem atMostOne_ownsCallId {transportPort : Int → Option Nat} {s : Calls.Sys}
    {md : SipMetadata} {callId : Text} (hcallId : given md.sipCallId = some callId) :
    AtMostOne (CharTables.ownsCallId md) (buildPhonesMeta transportPort s) := by
  intro a ha b hb hmatcha hmatchb
  refine List.inj_on_of_nodup_map (buildPhonesMeta transportPort s).nodup_keys ha hb ?_
  obtain ⟨cfg, -, heqa⟩ := mem_buildPhonesMeta.mp ha
  obtain ⟨cfg', -, heqb⟩ := mem_buildPhonesMeta.mp hb
  rw [heqa] at hmatcha
  rw [heqb] at hmatchb
  obtain ⟨info, hinfo, howner⟩ := owner_of_ownsCallId hcallId hmatcha
  obtain ⟨info', hinfo', howner'⟩ := owner_of_ownsCallId hcallId hmatchb
  rw [hinfo, Option.some_inj] at hinfo'
  rw [← howner, ← howner', hinfo']

namespace CharTables

variable (u : CharTables)

/-- The owner of an entry whose Call-ID is indexed to a registered phone. -/
theorem resolveOwner_indexed {transportPort : Int → Option Nat} {s : Calls.Sys}
    {md : SipMetadata} {callId : Text} (hcallId : given md.sipCallId = some callId)
    {info : OwnerInfo} (hindex : s.sipCallIdIndex.get? (String.ofList callId) = some info)
    (hregistered : info.phoneId ∈ s.phones.keys) (hid : info.phoneId ≠ "") :
    u.resolveOwner md (buildPhonesMeta transportPort s) = some info.phoneId := by
  obtain ⟨⟨p, cfg⟩, hcfg, hp⟩ := List.mem_map.mp hregistered
  dsimp only at hp
  subst hp
  have hmem : (info.phoneId, phoneMeta transportPort s.sipCallIdIndex info.phoneId cfg) ∈
      (buildPhonesMeta transportPort s).entries :=
    mem_buildPhonesMeta.mpr ⟨cfg, hcfg, rfl⟩
  have hmatch : ownsCallId md (phoneMeta transportPort s.sipCallIdIndex info.phoneId cfg) =
      true := by
    rw [ownsCallId, hcallId, Option.any_some, decide_eq_true_eq]
    exact (mem_slotsByPhone hid).mpr ⟨info, hindex, rfl⟩
  have hfirst := findKey?_of_atMostOne (atMostOne_ownsCallId hcallId) hmem hmatch
  rw [resolveOwner, signals, List.findSome?_cons, hfirst]

/-- A parsed Call-ID is not empty. -/
theorem given_sipCallId {msg callId : Text} {md : SipMetadata}
    (hmd : u.parseSipMetadata msg = some md) (h : md.sipCallId = some callId) :
    given md.sipCallId = some callId := by
  have hmsg : msg ≠ [] := by
    rintro rfl
    cases hmd
    cases h
  have hne : callId ≠ [] := by
    rw [(parseSipMetadata_spec hmsg hmd).sipCallId] at h
    obtain ⟨r, hr, rfl⟩ := Option.map_eq_some_iff.mp h
    obtain ⟨prev, here, -, hmem⟩ := Matcher.mem_of_search hr
    obtain ⟨-, mid, -, hword⟩ := Matcher.mem_bind.mp hmem
    exact (Matcher.mem_many1.mp hword).2.1
  rw [h, given, Option.filter_some, List.isEmpty_eq_false_iff.mpr hne]
  rfl

/-! ## The log around an entry -/

/-- What an entry contributes to the kept entries and to the count. -/
def contribution (phones : Phones) (flt : LogFilter) (entry : LogEntry) :
    Option (List LogEntry × Nat) :=
  u.addEntry phones flt ([], 0) entry

/-- Two parts of a log, one after the other. -/
def joinParts (out part : List LogEntry × Nat) : List LogEntry × Nat :=
  (out.1 ++ part.1, out.2 + part.2)

theorem joinParts_assoc (a b c : List LogEntry × Nat) :
    joinParts (joinParts a b) c = joinParts a (joinParts b c) :=
  Prod.ext (List.append_assoc _ _ _) (Nat.add_assoc _ _ _)

theorem addEntry_eq (phones : Phones) (flt : LogFilter) (out : List LogEntry × Nat)
    (entry : LogEntry) :
    u.addEntry phones flt out entry = (u.contribution phones flt entry).map (joinParts out) := by
  unfold contribution addEntry
  cases u.parseSipMetadata entry.msg with
  | none => rfl
  | some md => cases hverdict : u.verdict phones flt entry md <;> simp [hverdict, joinParts]

/-- The loop adds the contributions in order. -/
theorem foldlM_addEntry (phones : Phones) (flt : LogFilter) (entries : List LogEntry)
    (out : List LogEntry × Nat) :
    entries.foldlM (u.addEntry phones flt) out =
      (entries.foldlM (u.addEntry phones flt) ([], 0)).map (joinParts out) := by
  induction entries generalizing out with
  | nil => simp [joinParts]
  | cons entry entries ih =>
      rw [List.foldlM_cons, List.foldlM_cons, addEntry_eq, ← contribution]
      cases u.contribution phones flt entry with
      | none => rfl
      | some part =>
          have hjoin : joinParts out ∘ joinParts part = joinParts (joinParts out part) :=
            funext fun rest => (joinParts_assoc out part rest).symm
          change entries.foldlM (u.addEntry phones flt) (joinParts out part) =
            Option.map (joinParts out) (entries.foldlM (u.addEntry phones flt) part)
          rw [ih (joinParts out part), ih part, Option.map_map, hjoin]

/-- Filtering a log entry by entry. -/
theorem filterEntriesByOwner_append {phones : Phones} {flt : LogFilter} (hflt : flt ≠ {})
    (before after : List LogEntry) (entry : LogEntry) :
    u.filterEntriesByOwner (before ++ entry :: after) phones flt = do
      let out ← u.filterEntriesByOwner before phones flt
      let part ← u.contribution phones flt entry
      let rest ← u.filterEntriesByOwner after phones flt
      return joinParts (joinParts out part) rest := by
  simp only [filterEntriesByOwner, if_neg hflt]
  rw [List.foldlM_append]
  refine Option.bind_congr fun out _ => ?_
  rw [List.foldlM_cons, addEntry_eq]
  cases u.contribution phones flt entry with
  | none => rfl
  | some part =>
      change after.foldlM (u.addEntry phones flt) (joinParts out part) = _
      rw [foldlM_addEntry, Option.map_eq_bind]
      rfl

end CharTables

/-! ## A request that looks like another phone's -/

/-- Two phones, and an indexed call of the first. -/
def twoPhones : Calls.Sys :=
  { Calls.Sys.initial with
    phones := (OrderedDict.empty.set "alice" { domain := "example.org" }).set "bob"
      { domain := "example.org", username := some "6002", transportId := some 2 }
    sipCallIdIndex := OrderedDict.empty.set "k1"
      { phoneId := "alice", pjsuaCallId := 0, remoteUri := "sip:6002@example.org" } }

/-- The Via port and the From URI are those of the second phone. -/
def borrowedHeaders : LogEntry where
  level := 4
  msg := "Via: SIP/2.0/UDP h:5070\nFrom: <sip:6002@x>\nCall-ID: k1\nCSeq: 1 REGISTER\n\n".toList
  threadName := "main".toList

end PjsuaMcp.SipLog
