import PjsuaMcp.SipLog.LogWriter
import PjsuaMcp.SipLog.Conversions
import PjsuaMcp.SipLog.IndexedEntries
import PjsuaMcp.SipLog.Structured
import PjsuaMcp.Calls.CallIdIndex

/-!
# The log tools

`get_sip_log` and `get_call_messages` read the log of the engine, keep what the
arguments ask for, and cut off the end. The first returns the rows as they are,
the second the messages that can be structured.

## Implementation notes

Both tools go through the same steps up to the entries that are kept, which are
one definition here. The index of the call manager is read once for the numeric
call id and once for the phones; it does not change in between.
-/

namespace PjsuaMcp.SipLog

open Sdp (Text)
open Library
open Calls (PhoneId CallId)

/-- The entry of a row. -/
def LogRow.entry (r : LogRow) : LogEntry where
  level := r.level
  msg := r.msg
  threadName := r.thread

/-- The size of the deque that the engine gives its writer. -/
def engineMaxEntries : Nat := 5000

/-- `SipEngine.get_log_entries`; there is no writer before `initialize`. -/
def getLogEntries (writer : Option (SipLogWriter engineMaxEntries)) (lastN : Option Int)
    (filterText : Option Text) : List LogRow :=
  writer.elim [] fun w => w.getEntries lastN filterText

/-- The arguments of the log tools besides `last_n`; `get_call_messages` has no `filter_text`. -/
structure LogQuery where
  filterText : Option Text := none
  phoneId : Option PhoneId := none
  callId : Option CallId := none
  method : Option Text := none
  direction : Option Text := none
  statusCode : Option Nat := none
  cseq : Option Nat := none
  deriving DecidableEq, Repr

/-- `any_structural_filter`. -/
def LogQuery.anyStructural (q : LogQuery) : Bool :=
  q.phoneId.isSome || q.callId.isSome || q.method.isSome || q.direction.isSome ||
    q.statusCode.isSome || q.cseq.isSome

/-- The filter for `filter_entries_by_owner`. -/
def LogQuery.logFilter (q : LogQuery) (targetSipCallId : Option Text) : LogFilter where
  targetPhone := q.phoneId
  targetSipCallId := targetSipCallId
  method := q.method
  direction := q.direction
  statusCode := q.statusCode
  cseq := q.cseq

/-- The Call-ID header that the query asks for; nothing when its numeric id is unknown. -/
def LogQuery.targetSipCallId (q : LogQuery) (s : Calls.Sys) : Option (Option Text) :=
  match q.callId with
  | none => some none
  | some c => (s.resolveSipCallId q.phoneId c).map fun sipId => some sipId.toList

structure SipLogAnswer where
  entries : List LogRow
  totalCount : Nat
  warning : Option Text
  deriving DecidableEq

structure CallMessagesAnswer where
  phoneId : Option PhoneId
  messages : List StructuredMessage
  totalCount : Nat
  warning : Option Text

/-- The warning about a numeric id that the tracker does not know. -/
def unknownCall (callId : CallId) (nothing : Text) : Text :=
  "call_id=".toList ++ (toString callId).toList ++
    (" unknown to tracker — either it never existed or its mapping was purged. No ".toList ++
      nothing ++ " returned.".toList)

/-- The warning about entries that were kept by the fallback. -/
def fallbackWarning (count : Nat) (signal : Text) : Option Text :=
  if 0 < count then
    some ("fallback to substring match for ".toList ++ Nat.toDigits 10 count ++
      " entries (no structural ownership signal".toList ++ signal ++ ")".toList)
  else none

namespace CharTables

variable (u : CharTables)

/-- The entries that both tools go on with, and how many of them the fallback has kept. -/
def keptEntries (transportPort : Int → Option Nat) (s : Calls.Sys) (q : LogQuery)
    (target : Option Text) (entries : List LogEntry) : Option (List LogEntry × Nat) :=
  if q.anyStructural then
    u.filterEntriesByOwner entries (buildPhonesMeta transportPort s) (q.logFilter target)
  else some (entries, 0)

/-- `get_sip_log`, `none` for its error answer. -/
def getSipLog (transportPort : Int → Option Nat) (s : Calls.Sys)
    (writer : Option (SipLogWriter engineMaxEntries)) (q : LogQuery) (lastN : Option Int) :
    Option SipLogAnswer :=
  let rows := getLogEntries writer none q.filterText
  match q.targetSipCallId s with
  | none => some ⟨[], 0, q.callId.map fun c => unknownCall c "entries".toList⟩
  | some target => do
      let (kept, fallbackCount) ←
        u.keptEntries transportPort s q target (rows.map LogRow.entry)
      let entries := lastOf lastN (kept.map LogEntry.row)
      return ⟨entries, entries.length, fallbackWarning fallbackCount
        " — likely historical entries from before tracker init".toList⟩

end CharTables

/-- `get_call_messages`, `none` for its error answer. -/
def HeaderTables.getCallMessages (u : HeaderTables) (transportPort : Int → Option Nat)
    (s : Calls.Sys) (writer : Option (SipLogWriter engineMaxEntries)) (q : LogQuery)
    (lastN : Option Int) : Option CallMessagesAnswer :=
  let rows := getLogEntries writer none none
  match q.targetSipCallId s with
  | none => some ⟨q.phoneId, [], 0, q.callId.map fun c => unknownCall c "messages".toList⟩
  | some target => do
      let (kept, fallbackCount) ←
        u.keptEntries transportPort s q target (rows.map LogRow.entry)
      let structured ← kept.mapM fun e => u.structurizeMessage e.msg
      let messages := lastOf lastN (structured.filterMap id)
      return ⟨q.phoneId, messages, messages.length, fallbackWarning fallbackCount []⟩

/-! ## Which entries are kept -/

namespace CharTables

variable (u : CharTables)

/-- No phone owns the entry, but it has the text that stands for the phone `p`. -/
def ByFallback (phones : Phones) (p : PhoneId) (e : LogEntry) (md : SipMetadata) : Prop :=
  u.resolveOwner md phones = none ∧
    (targetSubstring phones p).any (fun text => text <:+: e.msg) = true

/-- The entry, with its metadata, meets every argument that is given. -/
structure Meets (phones : Phones) (q : LogQuery) (target : Option Text) (e : LogEntry)
    (md : SipMetadata) : Prop where
  method : ∀ m, given q.method = some m → md.method = some (u.upper m)
  direction : ∀ d, given q.direction = some d → md.direction = some (u.upper d)
  statusCode : ∀ code, q.statusCode = some code → md.statusCode = some code
  cseq : ∀ n, q.cseq = some n → md.cseq = some n
  callId : ∀ sipId, target = some sipId → md.sipCallId = some sipId
  owner : ∀ p, q.phoneId = some p →
    u.resolveOwner md phones = some p ∨ u.ByFallback phones p e md

/-- The metadata are read where some argument besides the text is given. -/
def Wanted (phones : Phones) (q : LogQuery) (target : Option Text) (e : LogEntry) : Prop :=
  q.anyStructural = true → ∃ md, u.parseSipMetadata e.msg = some md ∧ u.Meets phones q target e md

theorem mismatch_eq_false {α : Type} [DecidableEq α] {wanted found : Option α} :
    mismatch wanted found = false ↔ ∀ x, wanted = some x → found = some x := by
  cases wanted with
  | none => simp [mismatch]
  | some x => simp [mismatch]

theorem mismatch_map_eq_false {α β : Type} [DecidableEq β] {f : α → β} {wanted : Option α}
    {found : Option β} :
    mismatch (wanted.map f) found = false ↔ ∀ x, wanted = some x → found = some (f x) := by
  rw [mismatch_eq_false]
  cases wanted <;> simp

/-- The last step of the loop, where the phone is compared. -/
def ownerVerdict (phones : Phones) (phone : Option PhoneId) (e : LogEntry)
    (md : SipMetadata) : Verdict :=
  match phone with
  | none => .keep
  | some p =>
      match u.resolveOwner md phones with
      | some owner => if owner = p then .keep else .drop
      | none =>
          if (targetSubstring phones p).any fun text => text <:+: e.msg then .fallback else .drop

/-- An entry is dropped unless it is the phone's own, or its fallback. -/
theorem ownerVerdict_ne_drop_iff (phones : Phones) (phone : Option PhoneId) (e : LogEntry)
    (md : SipMetadata) :
    u.ownerVerdict phones phone e md ≠ .drop ↔ ∀ p, phone = some p →
      u.resolveOwner md phones = some p ∨ u.ByFallback phones p e md := by
  cases phone with
  | none => simp [ownerVerdict]
  | some p =>
      cases howner : u.resolveOwner md phones with
      | some owner => simp [ownerVerdict, ByFallback, howner]
      | none =>
          by_cases htext : (targetSubstring phones p).any fun text => text <:+: e.msg
          · simp [ownerVerdict, ByFallback, howner, htext]
          · simp [ownerVerdict, ByFallback, howner, htext]

theorem ownerVerdict_eq_fallback_iff (phones : Phones) (phone : Option PhoneId) (e : LogEntry)
    (md : SipMetadata) :
    u.ownerVerdict phones phone e md = .fallback ↔
      ∃ p, phone = some p ∧ u.ByFallback phones p e md := by
  cases phone with
  | none => simp [ownerVerdict]
  | some p =>
      cases howner : u.resolveOwner md phones with
      | some owner => by_cases hp : owner = p <;> simp [ownerVerdict, ByFallback, howner, hp]
      | none =>
          by_cases htext : (targetSubstring phones p).any fun text => text <:+: e.msg
          · simp [ownerVerdict, ByFallback, howner, htext]
          · simp [ownerVerdict, ByFallback, howner, htext]

theorem verdict_eq (phones : Phones) (flt : LogFilter) (e : LogEntry) (md : SipMetadata) :
    u.verdict phones flt e md =
      if u.rejectedByMetadata flt md ∨
          mismatch flt.targetSipCallId md.sipCallId then .drop
      else u.ownerVerdict phones flt.targetPhone e md := by
  rw [verdict]
  split_ifs <;> first | rfl | simp_all

/-- The loop keeps the entries that meet the arguments. -/
theorem verdict_ne_drop_iff (phones : Phones) (q : LogQuery) (target : Option Text)
    (e : LogEntry) (md : SipMetadata) :
    u.verdict phones (q.logFilter target) e md ≠ .drop ↔ u.Meets phones q target e md := by
  have hmetadata : u.rejectedByMetadata (q.logFilter target) md = false ↔
      (((∀ m, given q.method = some m → md.method = some (u.upper m)) ∧
        (∀ d, given q.direction = some d →
          md.direction = some (u.upper d))) ∧
        (∀ code, q.statusCode = some code →
          md.statusCode = some code)) ∧
        (∀ n, q.cseq = some n → md.cseq = some n) := by
    rw [rejectedByMetadata, Bool.or_eq_false_iff, Bool.or_eq_false_iff, Bool.or_eq_false_iff,
      mismatch_map_eq_false, mismatch_map_eq_false, mismatch_eq_false, mismatch_eq_false]
    rfl
  have hcallId : mismatch (q.logFilter target).targetSipCallId
      md.sipCallId = false ↔
      ∀ sipId, target = some sipId → md.sipCallId = some sipId :=
    mismatch_eq_false
  have howner := u.ownerVerdict_ne_drop_iff phones q.phoneId e md
  rw [verdict_eq]
  constructor
  · intro hkept
    split_ifs at hkept with hrejected
    · exact (hkept rfl).elim
    · rw [not_or, Bool.not_eq_true, Bool.not_eq_true] at hrejected
      obtain ⟨⟨⟨hmethod, hdirection⟩, hstatus⟩, hcseq⟩ := hmetadata.mp hrejected.1
      exact ⟨hmethod, hdirection, hstatus, hcseq, hcallId.mp hrejected.2, howner.mp hkept⟩
  · intro h
    have hrejected := hmetadata.mpr ⟨⟨⟨h.method, h.direction⟩, h.statusCode⟩, h.cseq⟩
    rw [if_neg (by rw [hrejected, hcallId.mpr h.callId]; simp)]
    exact howner.mpr h.owner

instance (phones : Phones) (q : LogQuery) (target : Option Text) (e : LogEntry)
    (md : SipMetadata) : Decidable (u.Meets phones q target e md) :=
  decidable_of_iff _ (u.verdict_ne_drop_iff phones q target e md)

instance (phones : Phones) (q : LogQuery) (target : Option Text) (e : LogEntry) :
    Decidable (u.Wanted phones q target e) :=
  decidable_of_iff (q.anyStructural = true →
      (u.parseSipMetadata e.msg).any (fun md => u.Meets phones q target e md) = true)
    (by simp [Wanted, Option.any_eq_true])

/-- An entry is kept by the fallback when it meets the arguments and no phone owns it. -/
theorem verdict_eq_fallback_iff (phones : Phones) (q : LogQuery) (target : Option Text)
    (e : LogEntry) (md : SipMetadata) :
    u.verdict phones (q.logFilter target) e md = .fallback ↔
      u.Meets phones q target e md ∧ ∃ p, q.phoneId = some p ∧ u.ByFallback phones p e md := by
  have hmeets := u.verdict_ne_drop_iff phones q target e md
  have hfallback := u.ownerVerdict_eq_fallback_iff phones q.phoneId e md
  rw [verdict_eq] at hmeets ⊢
  split_ifs at hmeets ⊢ with hrejected
  · refine iff_of_false id fun h => ?_
    exact hmeets.mpr h.1 rfl
  · constructor
    · intro h
      refine ⟨hmeets.mp ?_, hfallback.mp h⟩
      intro hdrop
      rw [show (q.logFilter target).targetPhone = q.phoneId from rfl] at hdrop h
      rw [h] at hdrop
      cases hdrop
    · exact fun h => hfallback.mpr h.2

/-- The entry is kept by the loop. -/
def keeps (phones : Phones) (flt : LogFilter) (e : LogEntry) : Bool :=
  (u.parseSipMetadata e.msg).any fun md => u.verdict phones flt e md ≠ .drop

/-- The entry is kept by the fallback. -/
def keepsByFallback (phones : Phones) (flt : LogFilter) (e : LogEntry) : Bool :=
  (u.parseSipMetadata e.msg).any fun md => u.verdict phones flt e md = .fallback

theorem contribution_eq_none_iff (phones : Phones) (flt : LogFilter) (e : LogEntry) :
    u.contribution phones flt e = none ↔ u.parseSipMetadata e.msg = none := by
  unfold contribution addEntry
  cases u.parseSipMetadata e.msg with
  | none => simp
  | some md => cases hverdict : u.verdict phones flt e md <;> simp [hverdict]

theorem contribution_eq {phones : Phones} {flt : LogFilter} {e : LogEntry}
    {part : List LogEntry × Nat} (h : u.contribution phones flt e = some part) :
    part = ([e].filter (u.keeps phones flt), [e].countP (u.keepsByFallback phones flt)) := by
  unfold contribution addEntry at h
  cases hmd : u.parseSipMetadata e.msg with
  | none => simp [hmd] at h
  | some md =>
      have hkeeps : ∀ v, u.verdict phones flt e md = v →
          u.keeps phones flt e = decide (v ≠ .drop) ∧
            u.keepsByFallback phones flt e = decide (v = .fallback) := by
        rintro v rfl
        simp [keeps, keepsByFallback, hmd]
      cases hverdict : u.verdict phones flt e md <;>
        simp_all

/-- The loop fails on an entry whose metadata cannot be read. -/
theorem foldlM_addEntry_eq_none_iff (phones : Phones) (flt : LogFilter) (entries : List LogEntry) :
    entries.foldlM (u.addEntry phones flt) ([], 0) = none ↔
      ∃ e ∈ entries, u.parseSipMetadata e.msg = none := by
  induction entries with
  | nil => simp
  | cons e entries ih =>
      rw [List.foldlM_cons, List.exists_mem_cons_iff, ← ih, ← u.contribution_eq_none_iff phones flt,
        ← contribution]
      cases u.contribution phones flt e with
      | none => simp
      | some part =>
          rw [Option.bind_eq_bind, Option.bind_some, foldlM_addEntry, Option.map_eq_none_iff]
          simp

/-- The loop keeps entries in order, and counts those of the fallback. -/
theorem foldlM_addEntry_eq {phones : Phones} {flt : LogFilter} {entries : List LogEntry}
    {out : List LogEntry × Nat}
    (h : entries.foldlM (u.addEntry phones flt) ([], 0) = some out) :
    out = (entries.filter (u.keeps phones flt),
      entries.countP (u.keepsByFallback phones flt)) := by
  induction entries generalizing out with
  | nil =>
      cases h
      rfl
  | cons e entries ih =>
      rw [List.foldlM_cons, ← contribution] at h
      obtain ⟨part, hpart, h⟩ := Option.bind_eq_some_iff.mp h
      rw [foldlM_addEntry] at h
      obtain ⟨rest, hrest, rfl⟩ := Option.map_eq_some_iff.mp h
      rw [ih hrest, u.contribution_eq hpart, joinParts, ← List.filter_append, ← List.countP_append,
        List.singleton_append]

theorem keeps_iff {q : LogQuery} (hany : q.anyStructural = true) (phones : Phones)
    (target : Option Text) (e : LogEntry) :
    u.keeps phones (q.logFilter target) e = true ↔ u.Wanted phones q target e := by
  rw [keeps, Option.any_eq_true, Wanted, imp_iff_right hany]
  refine exists_congr fun md => and_congr_right fun _ => ?_
  rw [decide_eq_true_eq, verdict_ne_drop_iff]

/-- The fallback keeps nothing exactly when all that is kept for a phone is owned by it. -/
theorem countP_keepsByFallback_eq_zero {q : LogQuery} (hany : q.anyStructural = true)
    (phones : Phones) (target : Option Text) (entries : List LogEntry) :
    entries.countP (u.keepsByFallback phones (q.logFilter target)) = 0 ↔
      ∀ e ∈ entries, u.Wanted phones q target e → ∀ p, q.phoneId = some p →
        ∃ md, u.parseSipMetadata e.msg = some md ∧ u.resolveOwner md phones = some p := by
  rw [List.countP_eq_zero]
  refine forall₂_congr fun e _ => ?_
  rw [keepsByFallback, Option.any_eq_true]
  constructor
  · intro hnone hwanted p hp
    obtain ⟨md, hmd, hmeets⟩ := hwanted hany
    refine ⟨md, hmd, (hmeets.owner p hp).resolve_right fun hfallback => hnone ⟨md, hmd, ?_⟩⟩
    rw [decide_eq_true_eq, verdict_eq_fallback_iff]
    exact ⟨hmeets, p, hp, hfallback⟩
  · rintro howned ⟨md, hmd, hverdict⟩
    rw [decide_eq_true_eq, verdict_eq_fallback_iff] at hverdict
    obtain ⟨hmeets, p, hp, hfallback⟩ := hverdict
    obtain ⟨md', hmd', howner⟩ := howned (fun _ => ⟨md, hmd, hmeets⟩) p hp
    rw [hmd, Option.some_inj] at hmd'
    rw [← hmd', hfallback.1] at howner
    cases howner

/-- With an argument besides the text there is something to filter by. -/
theorem logFilter_ne {s : Calls.Sys} {q : LogQuery} {target : Option Text}
    (htarget : q.targetSipCallId s = some target) (hany : q.anyStructural = true) :
    q.logFilter target ≠ {} := by
  intro hempty
  simp only [LogQuery.logFilter, LogFilter.mk.injEq] at hempty
  obtain ⟨hphone, htext, hmethod, hdirection, hstatus, hcseq⟩ := hempty
  have hcall : q.callId = none := by
    cases hc : q.callId with
    | none => rfl
    | some c =>
        rw [LogQuery.targetSipCallId, hc, htext] at htarget
        obtain ⟨sipId, -, heq⟩ := Option.map_eq_some_iff.mp htarget
        cases heq
  simp [LogQuery.anyStructural, hphone, hcall, hmethod, hdirection, hstatus, hcseq] at hany

/-- Both tools fail where the metadata of an entry are needed and cannot be read. -/
theorem keptEntries_eq_none_iff (transportPort : Int → Option Nat) {s : Calls.Sys} {q : LogQuery}
    {target : Option Text} (htarget : q.targetSipCallId s = some target)
    (entries : List LogEntry) :
    u.keptEntries transportPort s q target entries = none ↔
      q.anyStructural = true ∧ ∃ e ∈ entries, u.parseSipMetadata e.msg = none := by
  rw [keptEntries]
  split_ifs with hany
  · rw [filterEntriesByOwner, if_neg (logFilter_ne htarget hany), foldlM_addEntry_eq_none_iff]
    simp [hany]
  · simp [hany]

/-- Otherwise they go on with the wanted entries. -/
theorem keptEntries_spec {transportPort : Int → Option Nat} {s : Calls.Sys} {q : LogQuery}
    {target : Option Text} (htarget : q.targetSipCallId s = some target)
    {entries : List LogEntry} {kept : List LogEntry} {fallbackCount : Nat}
    (h : u.keptEntries transportPort s q target entries = some (kept, fallbackCount)) :
    kept = entries.filter (fun e => u.Wanted (buildPhonesMeta transportPort s) q target e) ∧
      (fallbackCount = 0 ↔ ∀ e ∈ entries, u.Wanted (buildPhonesMeta transportPort s) q target e →
        ∀ p, q.phoneId = some p → ∃ md, u.parseSipMetadata e.msg = some md ∧
          u.resolveOwner md (buildPhonesMeta transportPort s) = some p) := by
  rw [keptEntries] at h
  split_ifs at h with hany
  · rw [filterEntriesByOwner, if_neg (logFilter_ne htarget hany)] at h
    obtain ⟨rfl, rfl⟩ := Prod.mk.inj (u.foldlM_addEntry_eq h)
    refine ⟨List.filter_congr fun e _ => ?_, u.countP_keepsByFallback_eq_zero hany _ _ _⟩
    exact Bool.eq_iff_iff.mpr ((u.keeps_iff hany _ _ e).trans decide_eq_true_iff.symm)
  · cases h
    refine ⟨(List.filter_eq_self.mpr fun e _ => ?_).symm, iff_of_true rfl fun e _ _ p hp => ?_⟩
    · exact decide_eq_true fun h => (hany h).elim
    · simp [LogQuery.anyStructural, hp] at hany

/-- What the writer of the engine hands to the tools. -/
theorem getLogEntries_run (calls : List SipLogWriter.LogCall) (filterText : Option Text) :
    (getLogEntries (some (SipLogWriter.run engineMaxEntries calls)) none filterText).map
        LogRow.entry = SipLogWriter.found engineMaxEntries calls filterText := by
  rw [getLogEntries, Option.elim_some, SipLogWriter.getEntries_run, Option.elim_none,
    List.map_map]
  exact List.map_id _

theorem fallbackWarning_eq_none_iff {count : Nat} {signal : Text} :
    fallbackWarning count signal = none ↔ count = 0 := by
  rw [fallbackWarning]
  split_ifs with hcount
  · exact iff_of_false (by simp) (Nat.ne_of_gt hcount)
  · exact iff_of_true rfl (Nat.le_zero.mp (Nat.le_of_not_lt hcount))

/-- `get_sip_log` after any calls of the writer. Where the numeric call id is known, the entries
are those of the last five thousand written since the last clear that have the text and meet every
argument, in the order they were written, cut off at `last_n`; the warning says that some of them
have no owner. Where it is unknown there are none. It fails only where metadata are needed and
those of an entry cannot be read. -/
theorem getSipLog_run (transportPort : Int → Option Nat) (s : Calls.Sys)
    (calls : List SipLogWriter.LogCall) (q : LogQuery) (lastN : Option Int) :
    let result := u.getSipLog transportPort s (some (SipLogWriter.run engineMaxEntries calls)) q
      lastN
    let phones := buildPhonesMeta transportPort s
    let found := SipLogWriter.found engineMaxEntries calls q.filterText
    (result = none ↔ (q.targetSipCallId s).isSome ∧ q.anyStructural = true ∧
        ∃ e ∈ found, u.parseSipMetadata e.msg = none) ∧
      ∀ answer, result = some answer →
        answer.totalCount = answer.entries.length ∧
        (∀ target, q.targetSipCallId s = some target →
          answer.entries =
              lastOf lastN ((found.filter fun e => u.Wanted phones q target e).map LogEntry.row) ∧
            (answer.warning = none ↔
              ∀ e ∈ found, u.Wanted phones q target e → ∀ p, q.phoneId = some p →
                ∃ md, u.parseSipMetadata e.msg = some md ∧
                  u.resolveOwner md phones = some p)) ∧
        (q.targetSipCallId s = none → answer.entries = [] ∧
          ∃ c, q.callId = some c ∧ answer.warning = some (unknownCall c "entries".toList)) := by
  intro result phones found
  have hresult : result = u.getSipLog transportPort s
      (some (SipLogWriter.run engineMaxEntries calls)) q lastN := rfl
  rw [getSipLog, getLogEntries_run] at hresult
  cases htarget : q.targetSipCallId s with
  | none =>
      simp only [htarget] at hresult
      rw [hresult]
      refine ⟨by simp, fun answer h => ?_⟩
      cases h
      refine ⟨rfl, fun _ h => (by cases h), fun _ => ⟨rfl, ?_⟩⟩
      cases hcall : q.callId with
      | none =>
          rw [LogQuery.targetSipCallId, hcall] at htarget
          cases htarget
      | some c => exact ⟨c, rfl, rfl⟩
  | some target =>
      simp only [htarget] at hresult
      cases hkept : u.keptEntries transportPort s q target
        (SipLogWriter.found engineMaxEntries calls q.filterText) with
      | none =>
          rw [hkept] at hresult
          rw [hresult]
          have hnone := (u.keptEntries_eq_none_iff transportPort htarget found).mp hkept
          refine ⟨iff_of_true ?_ ⟨Option.isSome_some, hnone⟩, fun answer h => ?_⟩
          · rfl
          · cases h
      | some out =>
          obtain ⟨kept, fallbackCount⟩ := out
          rw [hkept] at hresult
          rw [hresult]
          obtain ⟨hfilter, hcount⟩ := u.keptEntries_spec htarget hkept
          have hread := (u.keptEntries_eq_none_iff transportPort htarget found).not.mp
            (by rw [hkept]; exact Option.some_ne_none _)
          refine ⟨iff_of_false (Option.some_ne_none _) fun h => hread h.2, fun answer h => ?_⟩
          cases h
          refine ⟨rfl, fun _ h => ?_, fun h => by cases h⟩
          cases h
          exact ⟨by rw [hfilter], fallbackWarning_eq_none_iff.trans hcount⟩

end CharTables

/-! ## Structured messages -/

theorem filterMap_of_mapM {α β : Type} {f : α → Option (Option β)} {xs : List α}
    {ys : List (Option β)} (h : xs.mapM f = some ys) :
    ys.filterMap id = xs.filterMap fun x => (f x).join := by
  induction xs generalizing ys with
  | nil =>
      cases h
      rfl
  | cons x xs ih =>
      rw [List.mapM_cons] at h
      obtain ⟨y, hy, h⟩ := Option.bind_eq_some_iff.mp h
      obtain ⟨rest, hrest, h⟩ := Option.bind_eq_some_iff.mp h
      cases h
      rw [List.filterMap_cons, List.filterMap_cons, hy, Option.join_some, ih hrest]
      rfl

namespace HeaderTables

variable (u : HeaderTables)

/-- A structured message has the metadata of its entry. -/
structure CarriesMetadata (md : SipMetadata) (m : StructuredMessage) : Prop where
  direction : m.direction = md.direction
  method : m.method = md.method
  cseq : m.cseq = md.cseq
  callId : m.callId = md.sipCallId
  statusCode : m.statusCode = md.statusCode

theorem carriesMetadata_of_structurize {msg : Text} {m : StructuredMessage}
    (h : u.structurizeMessage msg = some (some m)) :
    ∃ md, u.parseSipMetadata msg = some md ∧ CarriesMetadata md m := by
  rw [structurizeMessage] at h
  split_ifs at h
  · cases h
  · obtain ⟨md, hmd, h⟩ := Option.bind_eq_some_iff.mp h
    refine ⟨md, hmd, ?_⟩
    split_ifs at h
    · cases h
    · cases h
      exact ⟨rfl, rfl, rfl, rfl, rfl⟩

/-- What the arguments of `get_call_messages` promise of a message. -/
structure Answers (s : Calls.Sys) (q : LogQuery) (m : StructuredMessage) : Prop where
  method : ∀ x, given q.method = some x → m.method = some (u.upper x)
  direction : ∀ x, given q.direction = some x → m.direction = some (u.upper x)
  statusCode : ∀ code, q.statusCode = some code → m.statusCode = some code
  cseq : ∀ n, q.cseq = some n → m.cseq = some n
  /-- The index gives the Call-ID header to the call. -/
  callId : ∀ c, q.callId = some c → ∃ sipId info, m.callId = some sipId ∧
    s.sipCallIdIndex.get? (String.ofList sipId) = some info ∧ info.isOf q.phoneId c = true
  /-- No call of another registered phone is shown. -/
  phone : ∀ p sipId info, q.phoneId = some p → m.callId = some sipId →
    s.sipCallIdIndex.get? (String.ofList sipId) = some info → info.phoneId ∈ s.phones.keys →
    info.phoneId ≠ "" → info.phoneId = p

theorem answers_of_meets {transportPort : Int → Option Nat} {s : Calls.Sys} {q : LogQuery}
    {target : Option Text} (htarget : q.targetSipCallId s = some target) {e : LogEntry}
    {md : SipMetadata} (hmd : u.parseSipMetadata e.msg = some md)
    (hmeets : u.Meets (buildPhonesMeta transportPort s) q target e md) {m : StructuredMessage}
    (carries : CarriesMetadata md m) : u.Answers s q m := by
  refine ⟨fun x hx => ?_, fun x hx => ?_, fun code hcode => ?_, fun n hn => ?_, fun c hc => ?_,
    fun p sipId info hp hsip hindex hregistered hid => ?_⟩
  · rw [carries.method, hmeets.method x hx]
  · rw [carries.direction, hmeets.direction x hx]
  · rw [carries.statusCode, hmeets.statusCode code hcode]
  · rw [carries.cseq, hmeets.cseq n hn]
  · rw [LogQuery.targetSipCallId, hc] at htarget
    obtain ⟨sipId, hresolved, rfl⟩ := Option.map_eq_some_iff.mp htarget
    obtain ⟨info, hindex, hinfo⟩ := OrderedDict.get?_of_findKey? hresolved
    refine ⟨sipId.toList, info, ?_, ?_, hinfo⟩
    · rw [carries.callId, hmeets.callId _ rfl]
    · rw [String.ofList_toList, hindex]
  · have howner : u.resolveOwner md (buildPhonesMeta transportPort s) = some info.phoneId := by
      rw [carries.callId] at hsip
      exact u.resolveOwner_indexed (u.given_sipCallId hmd hsip) hindex hregistered hid
    rcases hmeets.owner p hp with h | h
    · rw [howner] at h
      exact Option.some.inj h
    · have hnone := h.1
      rw [howner] at hnone
      cases hnone

/-- Without arguments nothing is promised. -/
theorem answers_of_not_anyStructural {q : LogQuery} (h : q.anyStructural = false)
    (s : Calls.Sys) (m : StructuredMessage) : u.Answers s q m := by
  simp only [LogQuery.anyStructural, Bool.or_eq_false_iff, Option.isSome_eq_false_iff,
    Option.isNone_iff_eq_none, and_assoc] at h
  obtain ⟨hphone, hcall, hmethod, hdirection, hstatus, hcseq⟩ := h
  constructor <;> simp_all [given]

theorem answers_of_wanted {transportPort : Int → Option Nat} {s : Calls.Sys} {q : LogQuery}
    {target : Option Text} (htarget : q.targetSipCallId s = some target) {e : LogEntry}
    (hwanted : u.Wanted (buildPhonesMeta transportPort s) q target e) {m : StructuredMessage}
    (hm : u.structurizeMessage e.msg = some (some m)) : u.Answers s q m := by
  obtain ⟨md, hmd, carries⟩ := u.carriesMetadata_of_structurize hm
  cases hany : q.anyStructural with
  | false => exact u.answers_of_not_anyStructural hany s m
  | true =>
      obtain ⟨md', hmd', hmeets⟩ := hwanted hany
      obtain rfl : md = md' := Option.some.inj (hmd.symm.trans hmd')
      exact u.answers_of_meets htarget hmd hmeets carries

/-- The tools on the entries that are kept. -/
theorem tools_of_kept {transportPort : Int → Option Nat} {s : Calls.Sys}
    {writer : Option (SipLogWriter engineMaxEntries)} {q : LogQuery} {target : Option Text}
    (htarget : q.targetSipCallId s = some target) {kept : List LogEntry} {fallbackCount : Nat}
    (hkept : u.keptEntries transportPort s q target
      ((getLogEntries writer none none).map LogRow.entry) = some (kept, fallbackCount))
    (lastN : Option Int) :
    u.getSipLog transportPort s writer { q with filterText := none } none =
        some ⟨kept.map LogEntry.row, (kept.map LogEntry.row).length,
          fallbackWarning fallbackCount
            " — likely historical entries from before tracker init".toList⟩ ∧
      u.getCallMessages transportPort s writer q lastN =
        (kept.mapM fun e => u.structurizeMessage e.msg).map fun structured =>
          ⟨q.phoneId, lastOf lastN (structured.filterMap id),
            (lastOf lastN (structured.filterMap id)).length, fallbackWarning fallbackCount []⟩ := by
  have htext : LogQuery.targetSipCallId { q with filterText := none } s = some target := htarget
  have hsame : u.keptEntries transportPort s { q with filterText := none } target
      ((getLogEntries writer none none).map LogRow.entry) = some (kept, fallbackCount) := hkept
  constructor
  · simp only [CharTables.getSipLog, htext, hsame]
    rfl
  · simp only [getCallMessages, htarget, hkept]
    rw [Option.map_eq_bind]
    rfl

/-- `get_call_messages` returns the structured form of what `get_sip_log` returns under the same
arguments, and every message has what the arguments ask for. It fails where that does, and where
the metadata of an entry cannot be read. -/
theorem getCallMessages_getSipLog (transportPort : Int → Option Nat) (s : Calls.Sys)
    (writer : Option (SipLogWriter engineMaxEntries)) (q : LogQuery) (lastN : Option Int) :
    let log := u.getSipLog transportPort s writer { q with filterText := none } none
    let result := u.getCallMessages transportPort s writer q lastN
    (result = none ↔ ∀ rows, log = some rows →
        ∃ r ∈ rows.entries, u.structurizeMessage r.msg = none) ∧
      ∀ rows answer, log = some rows → result = some answer →
        answer.messages =
            lastOf lastN (rows.entries.filterMap fun r => (u.structurizeMessage r.msg).join) ∧
          answer.totalCount = answer.messages.length ∧
          (answer.warning = none ↔ rows.warning = none) ∧
          ∀ m ∈ answer.messages, u.Answers s q m := by
  intro log result
  have hlog : log = u.getSipLog transportPort s writer { q with filterText := none } none := rfl
  have hresult : result = u.getCallMessages transportPort s writer q lastN := rfl
  have htext : LogQuery.targetSipCallId { q with filterText := none } s = q.targetSipCallId s := rfl
  cases htarget : q.targetSipCallId s with
  | none =>
      simp only [CharTables.getSipLog, htext, htarget] at hlog
      simp only [getCallMessages, htarget] at hresult
      rw [hlog, hresult]
      refine ⟨by simp, fun rows answer hrows hanswer => ?_⟩
      cases hrows
      cases hanswer
      refine ⟨(lastOf_nil lastN).symm, rfl, ?_, fun m hm => by cases hm⟩
      rw [Option.map_eq_none_iff, Option.map_eq_none_iff]
  | some target =>
      cases hkept : u.keptEntries transportPort s q target
        ((getLogEntries writer none none).map LogRow.entry) with
      | none =>
          have hsame : u.keptEntries transportPort s { q with filterText := none } target
            ((getLogEntries writer none none).map LogRow.entry) = none := hkept
          simp only [CharTables.getSipLog, htext, htarget, hsame] at hlog
          simp only [getCallMessages, htarget, hkept] at hresult
          rw [hlog, hresult]
          exact ⟨iff_of_true rfl fun rows h => (by cases h), fun rows answer h => by cases h⟩
      | some out =>
          obtain ⟨kept, fallbackCount⟩ := out
          obtain ⟨hrows, hmessages⟩ := u.tools_of_kept htarget hkept lastN
          obtain ⟨hfilter, -⟩ := u.keptEntries_spec htarget hkept
          rw [hlog, hresult, hrows, hmessages]
          refine ⟨?_, fun rows answer hrows hanswer => ?_⟩
          · rw [Option.map_eq_none_iff, mapM_eq_none_iff]
            constructor
            · rintro ⟨e, he, hnone⟩ rows h
              cases h
              exact ⟨e.row, List.mem_map_of_mem he, hnone⟩
            · intro hall
              obtain ⟨r, hr, hnone⟩ := hall _ rfl
              obtain ⟨e, he, rfl⟩ := List.mem_map.mp hr
              exact ⟨e, he, hnone⟩
          · cases hrows
            obtain ⟨structured, hstructured, rfl⟩ := Option.map_eq_some_iff.mp hanswer
            have hmap := filterMap_of_mapM hstructured
            refine ⟨?_, rfl, ?_, fun m hm => ?_⟩
            · rw [hmap, List.filterMap_map]
              rfl
            · exact CharTables.fallbackWarning_eq_none_iff.trans
                CharTables.fallbackWarning_eq_none_iff.symm
            · have hmem := mem_of_mem_lastOf hm
              rw [hmap] at hmem
              obtain ⟨e, he, hjoin⟩ := List.mem_filterMap.mp hmem
              rw [hfilter] at he
              have hwanted := of_decide_eq_true (List.mem_filter.mp he).2
              exact u.answers_of_wanted htarget hwanted (Option.join_eq_some_iff.mp hjoin)

end HeaderTables

end PjsuaMcp.SipLog
