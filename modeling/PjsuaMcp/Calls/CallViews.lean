import Mathlib.Algebra.BigOperators.Group.Finset.Basic
import Mathlib.Algebra.GroupWithZero.Nat
import PjsuaMcp.Calls.Ledgers
import PjsuaMcp.Calls.OwnCalls

/-!
# What the tools report about calls, and which calls they accept

`list_calls` is a snapshot of the two dictionaries of the call manager;
`get_active_calls`, `get_call_info`, `list_phones` and `get_phone` are built on
it, and the tools that act on calls look the same dictionaries up by id. In a
reachable state all of them speak of the same calls.

## Implementation notes

`getInfo()` and `getStreamStat()` are asked of the library; both may raise, and
what they answer is an argument. The state of a call is reported under its name;
`none` stands for the `"NONE"` of a call that has had no callback yet.
-/

namespace PjsuaMcp.Calls

open Library

/-- What `getInfo()` tells the tools that report calls. -/
structure LiveInfo extends CallInfo where
  remoteContact : String
  localContact : String
  deriving DecidableEq, Repr

/-- `getStreamStat(0).rtcp`. -/
structure RtpStats where
  txPackets : Nat
  txBytes : Nat
  rxPackets : Nat
  rxBytes : Nat
  rxLoss : Nat
  rxDup : Nat
  rxReorder : Nat
  rxDiscard : Nat
  rxJitterUsec : Nat
  rttUsec : Nat
  deriving DecidableEq, Repr

/-- What the library answers about each call object; nothing when it raises. -/
structure Live where
  info : ObjId → Option LiveInfo
  stats : ObjId → Option RtpStats

/-- An entry of `list_calls`. -/
structure CallEntry where
  phoneId : PhoneId
  callId : CallId
  state : Option InvState
  remoteUri : String
  duration : Int
  codec : String
  deriving DecidableEq, Repr

/-- The answer of `get_call_info`. -/
structure CallReport extends CachedInfo where
  callId : Option CallId
  remoteContact : Option String
  localContact : Option String
  rtp : Option RtpStats
  deriving DecidableEq, Repr

/-- An entry of `get_active_calls`: the full report, or the short one when asking for it raised. -/
inductive ActiveEntry
  | full (report : CallReport)
  | short (entry : CallEntry)
  deriving DecidableEq, Repr

/-- The entry of one call, with the live answer written over the cached one. -/
def SipCall.entry (call : SipCall) (p : PhoneId) (c : CallId) (live : Option LiveInfo) :
    CallEntry where
  phoneId := p
  callId := (live.map fun ci => ci.id).getD c
  state := (live.map fun ci => some ci.state).getD call.info.state
  remoteUri := call.info.remoteUri
  duration := (live.map fun ci => ci.duration).getD call.info.duration
  codec := call.info.codec

/-- The report of one call, with the live answer written over the cached one. -/
def SipCall.report (call : SipCall) (p : PhoneId) (live : Option LiveInfo)
    (stats : Option RtpStats) : CallReport where
  phoneId := p
  state := (live.map fun ci => some ci.state).getD call.info.state
  stateText := call.info.stateText
  remoteUri := call.info.remoteUri
  lastStatus := call.info.lastStatus
  lastStatusText := call.info.lastStatusText
  duration := (live.map fun ci => ci.duration).getD call.info.duration
  codec := call.info.codec
  recordingFile := call.info.recordingFile
  playingFile := call.info.playingFile
  callId := live.map fun ci => ci.id
  remoteContact := live.map LiveInfo.remoteContact
  localContact := live.map LiveInfo.localContact
  rtp := stats

/-- `entry["state"] not in ("DISCONNECTED", "NONE", "NULL")`. -/
def CallEntry.isActive (e : CallEntry) : Bool :=
  e.state ≠ some .disconnected && e.state ≠ none && e.state ≠ some .null

/-- What the short entry and the full report of a call have in common. -/
def CallEntry.shared (e : CallEntry) : PhoneId × Option InvState × String × Int × String :=
  (e.phoneId, e.state, e.remoteUri, e.duration, e.codec)

def CallReport.shared (r : CallReport) : PhoneId × Option InvState × String × Int × String :=
  (r.phoneId, r.state, r.remoteUri, r.duration, r.codec)

namespace Sys

/-- `list_calls`. -/
def listCalls (s : Sys) (live : Live) (phone : Option PhoneId) : List CallEntry :=
  s.calls.entries.filterMap fun e =>
    s.objs[e.2]?.bind fun call =>
      let p := (s.callPhone.get? e.1).getD call.phoneId
      if phone.all fun q => p = q then some (call.entry p e.1 (live.info e.2)) else none

/-- `get_call_info`. -/
def getCallInfo (s : Sys) (live : Live) (phone : Option PhoneId) (c : Option CallId) :
    Except String CallReport :=
  match s.resolvePhone phone with
  | .error e => .error e
  | .ok p =>
      match s.findCall p c with
      | .error e => .error e
      | .ok o =>
          match s.objs[o]? with
          -- A dictionary never refers to an object that is not there.
          | none => .error (noActiveCall p)
          | some call => .ok (call.report p (live.info o) (live.stats o))

/-- `get_active_calls`. -/
def getActiveCalls (s : Sys) (live : Live) (phone : Option PhoneId) : List ActiveEntry :=
  ((s.listCalls live phone).filter CallEntry.isActive).map fun e =>
    match s.getCallInfo live (some e.phoneId) (some e.callId) with
    | .ok report => .full report
    | .error _ => .short e

/-- The first loop of `list_phones`: how many calls each phone has. -/
def countCalls (entries : List CallEntry) : OrderedDict PhoneId Nat :=
  entries.foldl (fun counts e =>
    if e.phoneId = "" then counts
    else counts.set e.phoneId ((counts.get? e.phoneId).getD 0 + 1)) .empty

/-- The `active_call_count` that `list_phones` gives to each registered phone. -/
def activeCallCounts (s : Sys) (live : Live) : List (PhoneId × Nat) :=
  let counts := countCalls (s.listCalls live none)
  s.phones.keys.map fun p => (p, (counts.get? p).getD 0)

/-- `get_active_call_id`. -/
def getActiveCallId (s : Sys) (p : PhoneId) : Option CallId :=
  (s.calls.entries.find? fun e => s.callPhone.get? e.1 = some p ∧ s.objActive e.2).map Prod.fst

/-! ## Every call belongs to a registered phone -/

/-- The phone that owns a tracked call is registered. -/
def OwnersRegistered (s : Sys) : Prop :=
  ∀ c p, s.callPhone.get? c = some p → s.phones.contains p = true

/-- A phone is registered exactly when the roster lists it. -/
theorem contains_iff_roster (s : Sys) (p : PhoneId) :
    s.phones.contains p = true ↔ p ∈ s.roster.map Prod.fst := by
  rw [OrderedDict.contains_iff, ← OrderedDict.mem_keys_iff, roster, List.map_map]
  rfl

/-- No call has a new owner, and no phone has gone. -/
theorem OwnersRegistered.of_roster {s s' : Sys} (h : s.OwnersRegistered)
    (howner : ∀ c p, s'.callPhone.get? c = some p → s.callPhone.get? c = some p)
    (hroster : s'.roster = s.roster) : s'.OwnersRegistered := by
  intro c p hc
  rw [contains_iff_roster, hroster, ← contains_iff_roster]
  exact h c p (howner c p hc)

/-- Calls are created for registered phones only. -/
theorem newCall_registered {s : Sys} {a : Action} {call : SipCall}
    (h : s.newCall a = some call) : s.phones.contains call.phoneId = true := by
  cases a with
  | makeCall phone destUri placed =>
      cases placed with
      | none => cases h
      | some ci =>
          simp only [newCall] at h
          split at h
          · cases h
          · obtain ⟨cfg, hcfg, rfl⟩ := Option.map_eq_some_iff.mp h
            exact (OrderedDict.contains_iff _ _).mpr ⟨cfg, hcfg⟩
  | incomingCall p c ci =>
      obtain ⟨cfg, hcfg, rfl⟩ := Option.map_eq_some_iff.mp h
      exact (OrderedDict.contains_iff _ _).mpr ⟨cfg, hcfg⟩
  | _ => cases h

/-- A new call is filed under a phone that is registered. -/
theorem OwnersRegistered.newCall {s : Sys} (h : s.OwnersRegistered) {a : Action}
    (ha : a.creates = true) : (s.step a).OwnersRegistered := by
  rcases s.step_newCall a ha with ⟨-, hsame⟩ | ⟨call, _, _, _, hnew, hstep⟩
  · rw [hsame]
    exact h
  · intro c p hc
    rw [hstep] at hc ⊢
    change (s.callPhone.set call.callId call.phoneId).get? c = some p at hc
    change s.phones.contains p = true
    rw [OrderedDict.get?_set] at hc
    split_ifs at hc
    · cases hc
      exact newCall_registered hnew
    · exact h c p hc

/-- A phone that is dropped takes its calls along. -/
theorem OwnersRegistered.dropPhone {s : Sys} (h : s.OwnersRegistered) (p : PhoneId) :
    (s.dropPhone p).OwnersRegistered := by
  cases hp : s.phones.get? p with
  | none =>
      rw [dropPhone_of_unknown hp]
      exact h
  | some cfg =>
      obtain ⟨_, hdrop⟩ := dropPhone_eq hp
      intro c q hc
      rw [hdrop] at hc ⊢
      change (s.callPhone.filterKeys fun c => c ∉ s.idsOf p).get? c = some q at hc
      change (s.phones.pop p).contains q = true
      rw [OrderedDict.get?_filterKeys] at hc
      split_ifs at hc with hkept
      have hne : q ≠ p := by
        rintro rfl
        exact of_decide_eq_true hkept ((mem_idsOf_iff s q c).mpr hc)
      rw [OrderedDict.contains, OrderedDict.get?_pop, if_neg hne]
      exact h c q hc

/-- A phone that is replaced takes the calls of its old account along. -/
theorem OwnersRegistered.addPhone {s : Sys} (h : s.OwnersRegistered) (p : PhoneId)
    (cfg : PhoneConfig) (out : AddOutcome) : (s.addPhone p cfg out).OwnersRegistered := by
  have hdrop := h.dropPhone p
  unfold Sys.addPhone createPhone
  split
  · exact hdrop
  · dsimp only
    split_ifs
    · intro c q hc
      have hq := hdrop c q hc
      rw [OrderedDict.contains_iff] at hq ⊢
      obtain ⟨cfg', hcfg'⟩ := hq
      by_cases hqp : p = q
      · exact ⟨_, by rw [hqp]; exact OrderedDict.get?_set_self _ _ _⟩
      · exact ⟨cfg', (OrderedDict.get?_set_of_ne _ hqp _).trans hcfg'⟩
    · exact hdrop

theorem OwnersRegistered.quiet {s : Sys} (h : s.OwnersRegistered) {a : Action}
    (ha : a.lifecycle = false) : (s.step a).OwnersRegistered := by
  have howner : (s.step a).callPhone = s.callPhone :=
    congrArg CallTable.owner (s.step_quiet a ha).table
  exact h.of_roster (fun c p hc => howner ▸ hc) (s.step_settled a ha).roster

/-- Every step leaves the calls with registered phones. -/
theorem step_ownersRegistered {s : Sys} (hs : s.table.Sound) {a : Action}
    (en : s.enabled a = true) (h : s.OwnersRegistered) : (s.step a).OwnersRegistered := by
  cases a with
  | makeCall phone destUri placed => exact h.newCall rfl
  | incomingCall p c ci => exact h.newCall rfl
  | callState o ci env timestamp =>
      refine h.of_roster (fun c p hc => ?_) (step_transports en rfl).2
      obtain ⟨call, ho, -⟩ := exists_of_objActive en
      by_cases hstate : ci.state = .disconnected
      · obtain ⟨f, untracks⟩ := onCallState_untracks hs ho hstate env timestamp
        change (s.onCallState o ci env timestamp).callPhone.get? c = some p at hc
        rw [untracks.owner, OrderedDict.get?_filterKeys] at hc
        split_ifs at hc
        exact hc
      · change (s.onCallState o ci env timestamp).callPhone.get? c = some p at hc
        rw [onCallState_refreshed ho hstate] at hc
        exact hc
  | mediaState o media =>
      refine h.of_roster (fun c p hc => ?_) (step_transports en rfl).2
      obtain ⟨call, ho, -⟩ := exists_of_objActive en
      obtain ⟨_, _, hmedia⟩ := onCallMediaState_eq ho media
      change (s.onCallMediaState o media).callPhone.get? c = some p at hc
      rw [hmedia] at hc
      exact hc
  | addPhone p cfg out => exact h.addPhone p cfg out
  | dropPhone p => exact h.dropPhone p
  | reregisterPhone p creds out =>
      change (s.reregisterPhone p creds out).OwnersRegistered
      rcases s.reregisterPhone_cases p creds out with ⟨-, hsame⟩ | ⟨cfg, -, hadd⟩
      · rw [hsame]
        exact h
      · rw [hadd]
        exact h.addPhone p _ out
  | cleanup => exact fun c p hc => by cases hc
  | _ => exact h.quiet rfl

end Sys

/-- In every reachable state the calls belong to registered phones. -/
theorem reachable_ownersRegistered {s : Sys} (run : server.Reachable s) : s.OwnersRegistered :=
  run.invariant_using (fun _ run => reachable_sound run) (fun c p hc => by cases hc)
    fun _ _ en _ hs h => Sys.step_ownersRegistered hs en h

/-! ## What stands behind a listed call -/

/-- The library reports every call under the id it was created with. -/
def Live.Right (live : Live) (s : Sys) : Prop :=
  ∀ (o : ObjId) call ci, s.objs[o]? = some call → live.info o = some ci → ci.id = call.callId

namespace Sys

/-- A dictionary entry with the live call object behind it. -/
structure Backed (s : Sys) (e : CallId × ObjId) (call : SipCall) : Prop where
  lookup : s.calls.get? e.1 = some e.2
  object : s.objs[e.2]? = some call
  callId : call.callId = e.1
  owner : s.callPhone.get? e.1 = some call.phoneId
  alive : call.isActive = true

theorem exists_backed {s : Sys} (hs : s.table.Sound) {e : CallId × ObjId}
    (he : e ∈ s.calls.entries) : ∃ call, s.Backed e call := by
  have hlookup := (s.calls.get?_eq_some_iff e.1 e.2).mpr he
  obtain ⟨k, hk, hid, howner⟩ := hs.entry hlookup
  have hlive := hs.live hlookup hk
  rw [table_heap, Option.map_eq_some_iff] at hk
  obtain ⟨call, ho, rfl⟩ := hk
  exact ⟨call, hlookup, ho, hid, howner, decide_eq_true hlive⟩

/-- The dictionary entries of one phone, or of all. -/
def entriesOf (s : Sys) (phone : Option PhoneId) : List (CallId × ObjId) :=
  s.calls.entries.filter fun e => phone.all fun p => s.callPhone.get? e.1 = some p

theorem mem_entriesOf_some {s : Sys} {p : PhoneId} {e : CallId × ObjId} :
    e ∈ s.entriesOf (some p) ↔ s.calls.get? e.1 = some e.2 ∧ s.callPhone.get? e.1 = some p := by
  rw [entriesOf, List.mem_filter, ← OrderedDict.get?_eq_some_iff, Option.all_some,
    decide_eq_true_eq]

/-- The list holds one entry for each call of the phone, in the order of the dictionary. -/
theorem listCalls_eq {s : Sys} (hs : s.table.Sound) (live : Live) (phone : Option PhoneId) :
    s.listCalls live phone = (s.entriesOf phone).filterMap fun e =>
      s.objs[e.2]?.map fun call => call.entry call.phoneId e.1 (live.info e.2) := by
  rw [entriesOf, List.filterMap_filter, listCalls]
  apply List.filterMap_congr
  intro e he
  obtain ⟨call, backed⟩ := exists_backed hs he
  rw [backed.object, backed.owner, Option.bind_some, Option.map_some, Option.getD_some]
  cases phone with
  | none => rfl
  | some p =>
      by_cases hp : call.phoneId = p
      · simp [hp]
      · simp [hp]

/-- A view of the listed entries that can be read off the dictionaries. -/
theorem map_listCalls {β : Type} {s : Sys} (hs : s.table.Sound) (live : Live)
    (phone : Option PhoneId) {f : CallEntry → β} {g : CallId × ObjId → β}
    (hview : ∀ e call, s.Backed e call →
      f (call.entry call.phoneId e.1 (live.info e.2)) = g e) :
    (s.listCalls live phone).map f = (s.entriesOf phone).map g := by
  rw [listCalls_eq hs, List.map_filterMap, ← List.filterMap_eq_map]
  apply List.filterMap_congr
  intro e he
  obtain ⟨call, backed⟩ := exists_backed hs (List.mem_of_mem_filter he)
  rw [backed.object, Option.map_some, Option.map_some, hview e call backed]
  rfl

variable {s : Sys} {live : Live}

theorem entry_callId (right : live.Right s) {e : CallId × ObjId} {call : SipCall}
    (backed : s.Backed e call) :
    (call.entry call.phoneId e.1 (live.info e.2)).callId = e.1 := by
  rw [SipCall.entry]
  cases hlive : live.info e.2 with
  | none => rfl
  | some ci => exact (right e.2 call ci backed.object hlive).trans backed.callId

/-- `list_calls` lists the ids of the table, in its order. -/
theorem map_callId_listCalls (hs : s.table.Sound) (right : live.Right s)
    (phone : Option PhoneId) :
    (s.listCalls live phone).map CallEntry.callId = (s.entriesOf phone).map Prod.fst :=
  map_listCalls hs live phone fun _ _ backed => entry_callId right backed

theorem length_listCalls (hs : s.table.Sound) (phone : Option PhoneId) :
    (s.listCalls live phone).length = (s.entriesOf phone).length := by
  have hview := map_listCalls hs live phone (f := fun _ => ()) (g := fun _ => ())
    fun _ _ _ => rfl
  simpa using congrArg List.length hview

/-! ## The tools and the list -/

/-- A tool finds the calls of its phone that `list_calls` lists. -/
theorem getOwnedCall_iff_listed (hs : s.table.Sound) (right : live.Right s) (p : PhoneId)
    (c : CallId) :
    (∃ o, s.getOwnedCall p c = .ok o) ↔ ∃ e ∈ s.listCalls live (some p), e.callId = c := by
  rw [← List.mem_map, map_callId_listCalls hs right, List.mem_map]
  constructor
  · rintro ⟨o, ho⟩
    obtain ⟨howner, hlookup⟩ := getOwnedCall_eq_ok_iff.mp ho
    exact ⟨(c, o), mem_entriesOf_some.mpr ⟨hlookup, howner⟩, rfl⟩
  · rintro ⟨⟨c', o⟩, he, rfl⟩
    obtain ⟨hlookup, howner⟩ := mem_entriesOf_some.mp he
    exact ⟨o, getOwnedCall_eq_ok_iff.mpr ⟨howner, hlookup⟩⟩

/-- The scan for an active call finds every entry of the phone active. -/
theorem entriesOf_active (hs : s.table.Sound) (p : PhoneId) :
    (s.calls.entries.filter fun e => s.callPhone.get? e.1 = some p ∧ s.objActive e.2) =
      s.entriesOf (some p) := by
  apply List.filter_congr
  intro e he
  obtain ⟨call, backed⟩ := exists_backed hs he
  have hactive : s.objActive e.2 = true := by
    rw [objActive, backed.object, Option.any_some, backed.alive]
  simp [hactive]

/-- Hanging up all the calls of a phone acts on those that are listed. -/
theorem hangupAllTargets_eq (hs : s.table.Sound) (right : live.Right s) (p : PhoneId) :
    (s.listCalls live (some p)).map (fun e => s.calls.get? e.callId) =
      (s.hangupAllTargets (some p)).map some := by
  rw [hangupAllTargets, activeCallsOf, entriesOf_active hs, List.map_map]
  refine map_listCalls hs live (some p) fun e call backed => ?_
  rw [entry_callId right backed, backed.lookup]
  rfl

theorem head?_listCalls (hs : s.table.Sound) (right : live.Right s) (p : PhoneId) :
    (s.listCalls live (some p)).head?.map CallEntry.callId =
      (s.entriesOf (some p)).head?.map Prod.fst := by
  rw [← List.head?_map, ← List.head?_map, map_callId_listCalls hs right]

/-- Without an id, the first call of the list is meant. -/
theorem findCall_none (hs : s.table.Sound) (right : live.Right s) (p : PhoneId) :
    s.findCall p none =
      (s.listCalls live (some p)).head?.elim (.error (noActiveCall p)) fun e =>
        s.getOwnedCall p e.callId := by
  have hfirst : s.firstActive p = (s.entriesOf (some p)).head?.map Prod.snd := by
    rw [firstActive, ← List.head?_filter, entriesOf_active hs]
  have hhead := head?_listCalls hs right p
  rw [findCall, hfirst]
  cases hentries : (s.entriesOf (some p)).head? with
  | none =>
      rw [hentries, Option.map_none, Option.map_eq_none_iff] at hhead
      rw [hhead]
      rfl
  | some e =>
      rw [hentries, Option.map_some, Option.map_eq_some_iff] at hhead
      obtain ⟨listed, hlisted, hid⟩ := hhead
      obtain ⟨hlookup, howner⟩ := mem_entriesOf_some.mp (List.mem_of_head? hentries)
      rw [hlisted, Option.map_some, Option.elim_some, hid]
      exact (getOwnedCall_eq_ok_iff.mpr ⟨howner, hlookup⟩).symm

/-- The active call of a phone is the first that is listed. -/
theorem getActiveCallId_eq (hs : s.table.Sound) (right : live.Right s) (p : PhoneId) :
    s.getActiveCallId p = (s.listCalls live (some p)).head?.map CallEntry.callId := by
  rw [getActiveCallId, ← List.head?_filter, entriesOf_active hs, head?_listCalls hs right]

/-! ## Full reports -/

/-- The full report of a listed call says what its entry says. -/
theorem getCallInfo_of_backed (right : live.Right s) {e : CallId × ObjId} {call : SipCall}
    (backed : s.Backed e call) :
    s.getCallInfo live (some call.phoneId)
        (some (call.entry call.phoneId e.1 (live.info e.2)).callId) =
      .ok (call.report call.phoneId (live.info e.2) (live.stats e.2)) := by
  have hfound : s.findCall call.phoneId (some e.1) = .ok e.2 :=
    getOwnedCall_eq_ok_iff.mpr ⟨backed.owner, backed.lookup⟩
  rw [entry_callId right backed, getCallInfo, resolvePhone]
  simp only [hfound, backed.object]

/-- Every active call is reported in full. -/
theorem getActiveCalls_full (hs : s.table.Sound) (right : live.Right s)
    (phone : Option PhoneId) :
    ∃ reports : List CallReport, s.getActiveCalls live phone = reports.map .full ∧
      reports.map CallReport.shared =
        ((s.listCalls live phone).filter CallEntry.isActive).map CallEntry.shared := by
  have hentry : ∀ e ∈ s.listCalls live phone, ∃ r : CallReport,
      s.getCallInfo live (some e.phoneId) (some e.callId) = .ok r ∧ r.shared = e.shared := by
    intro e he
    rw [listCalls_eq hs, List.mem_filterMap] at he
    obtain ⟨entry, hmem, hlisted⟩ := he
    obtain ⟨call, backed⟩ := exists_backed hs (List.mem_of_mem_filter hmem)
    rw [backed.object, Option.map_some, Option.some.injEq] at hlisted
    rw [← hlisted]
    exact ⟨_, getCallInfo_of_backed right backed, rfl⟩
  rw [getActiveCalls]
  generalize s.listCalls live phone = entries at hentry
  induction entries with
  | nil => exact ⟨[], rfl, rfl⟩
  | cons e rest ih =>
      obtain ⟨reports, hreports, hshared⟩ := ih fun e he => hentry e (List.mem_cons_of_mem _ he)
      obtain ⟨r, hr, hsame⟩ := hentry e List.mem_cons_self
      by_cases hactive : e.isActive = true
      · refine ⟨r :: reports, ?_, ?_⟩
        · rw [List.filter_cons_of_pos hactive, List.map_cons, List.map_cons, hreports, hr]
        · rw [List.filter_cons_of_pos hactive, List.map_cons, List.map_cons, hshared, hsame]
      · rw [List.filter_cons_of_neg hactive]
        exact ⟨reports, hreports, hshared⟩

/-! ## Counts -/

/-- Counting the rows by their phones. -/
theorem get?_countCalls (p : PhoneId) (hp : p ≠ "") (entries : List CallEntry) :
    ((countCalls entries).get? p).getD 0 = (entries.map CallEntry.phoneId).count p := by
  induction entries using List.reverseRecOn with
  | nil => rfl
  | append_singleton rest e ih =>
      have hstep : countCalls (rest ++ [e]) =
          if e.phoneId = "" then countCalls rest
          else (countCalls rest).set e.phoneId
            (((countCalls rest).get? e.phoneId).getD 0 + 1) := by
        rw [countCalls, List.foldl_append]
        rfl
      rw [hstep, List.map_append, List.count_append, List.map_singleton, List.count_singleton,
        ← ih]
      by_cases hself : e.phoneId = p
      · subst hself
        rw [if_neg hp, OrderedDict.get?_set_self, Option.getD_some, beq_self_eq_true, if_pos rfl]
      · have hne : (e.phoneId == p) = false := beq_false_of_ne hself
        rw [hne, if_neg Bool.false_ne_true, Nat.add_zero]
        split_ifs
        · rfl
        · exact congrArg (fun count => count.getD 0) (OrderedDict.get?_set_of_ne _ hself _)

/-- The owner of each listed call. -/
theorem map_phoneId_listCalls (hs : s.table.Sound) :
    (s.listCalls live none).map CallEntry.phoneId =
      s.calls.entries.map fun e => (s.callPhone.get? e.1).getD "" := by
  have hview := map_listCalls hs live none (f := CallEntry.phoneId)
    (g := fun e => (s.callPhone.get? e.1).getD "") fun e call backed => by
      rw [backed.owner]
      rfl
  rw [hview]
  exact congrArg _ (List.filter_eq_self.mpr fun _ _ => rfl)

/-- The count that `list_phones` shows is the number of listed calls. -/
theorem activeCallCount_eq (hs : s.table.Sound) {p : PhoneId} (hp : p ≠ "") :
    ((countCalls (s.listCalls live none)).get? p).getD 0 =
      (s.listCalls live (some p)).length := by
  rw [get?_countCalls p hp, map_phoneId_listCalls hs, length_listCalls hs, entriesOf,
    ← List.countP_eq_length_filter, List.count, List.countP_map]
  apply List.countP_congr
  intro e he
  obtain ⟨call, backed⟩ := exists_backed hs he
  simp [backed.owner]

/-- The counts of the registered phones add up to all tracked calls. -/
theorem sum_activeCallCounts (hs : s.table.Sound) (registered : s.OwnersRegistered)
    (named : s.phones.contains "" = false) :
    ((s.activeCallCounts live).map Prod.snd).sum = s.calls.entries.length := by
  let owners := s.calls.entries.map fun e => (s.callPhone.get? e.1).getD ""
  have hcounts : (s.activeCallCounts live).map Prod.snd =
      s.phones.keys.map fun p => owners.count p := by
    rw [activeCallCounts, List.map_map]
    apply List.map_congr_left
    intro p hp
    have hne : p ≠ "" := by
      rintro rfl
      obtain ⟨cfg, hcfg⟩ := (OrderedDict.mem_keys_iff _ _).mp hp
      rw [OrderedDict.contains, hcfg] at named
      cases named
    rw [Function.comp_apply, get?_countCalls p hne, map_phoneId_listCalls hs]
  have hkeys : ∀ p ∈ (owners : Multiset PhoneId), p ∈ s.phones.keys.toFinset := by
    intro p hp
    obtain ⟨e, he, rfl⟩ := List.mem_map.mp (Multiset.mem_coe.mp hp)
    obtain ⟨call, backed⟩ := exists_backed hs he
    rw [backed.owner, Option.getD_some, List.mem_toFinset, OrderedDict.mem_keys_iff,
      ← OrderedDict.contains_iff]
    exact registered e.1 call.phoneId backed.owner
  calc ((s.activeCallCounts live).map Prod.snd).sum
    _ = ∑ p ∈ s.phones.keys.toFinset, (owners : Multiset PhoneId).count p := by
        have hnodup : s.phones.keys.Nodup := s.phones.nodup_keys
        rw [hcounts, ← List.sum_toFinset (fun p => owners.count p) hnodup]
        exact Finset.sum_congr rfl fun p _ => (Multiset.coe_count p owners).symm
    _ = owners.length := Multiset.sum_count_eq_card hkeys
    _ = s.calls.entries.length := List.length_map _

/-- The reporting tools and the acting tools speak of the same calls. -/
structure ViewsAgree (s : Sys) (live : Live) : Prop where
  /-- No id is listed twice. -/
  nodup : ∀ phone, ((s.listCalls live phone).map CallEntry.callId).Nodup
  /-- The tools of a phone accept exactly the ids that its list shows. -/
  accepts : ∀ p c, (∃ o, s.getOwnedCall p c = .ok o) ↔
    ∃ e ∈ s.listCalls live (some p), e.callId = c
  /-- An accepted id stands for a live call of that phone with that id. -/
  owned : ∀ p c o, s.getOwnedCall p c = .ok o →
    ∃ call, s.objs[o]? = some call ∧ call.callId = c ∧ call.phoneId = p ∧ call.isActive = true
  /-- Without an id they act on the first call listed. -/
  first : ∀ p, s.findCall p none =
    (s.listCalls live (some p)).head?.elim (.error (noActiveCall p)) fun e =>
      s.getOwnedCall p e.callId
  firstId : ∀ p, s.getActiveCallId p =
    (s.listCalls live (some p)).head?.map CallEntry.callId
  /-- Hanging up a phone reaches the listed calls, in the order of the list. -/
  hangupAll : ∀ p, (s.listCalls live (some p)).map (fun e => s.calls.get? e.callId) =
    (s.hangupAllTargets (some p)).map some
  /-- Every call listed as active is reported in full, and the report repeats its entry. -/
  full : ∀ phone, ∃ reports : List CallReport, s.getActiveCalls live phone = reports.map .full ∧
    reports.map CallReport.shared =
      ((s.listCalls live phone).filter CallEntry.isActive).map CallEntry.shared
  /-- Each phone's count is the length of its list, and the counts add up to all calls. -/
  counts : s.activeCallCounts live =
    s.phones.keys.map fun p => (p, (s.listCalls live (some p)).length)
  total : ((s.activeCallCounts live).map Prod.snd).sum = s.calls.entries.length

end Sys

/-- Two calls of Alice, of which the library has forgotten one, and one of Bob. -/
def threeCalls : List Action :=
  [.addPhone "alice" { domain := "example.org" } ⟨some 1, true⟩,
   .addPhone "bob" { domain := "example.org" } ⟨some 2, true⟩,
   .incomingCall "alice" 0 none, .incomingCall "bob" 1 none, .incomingCall "alice" 2 none]

def oneForgotten : Live where
  info o := if o = 0 then none
    else some ⟨.plain o .early "", "sip:peer@example.org", "sip:self@example.org"⟩
  stats _ := none

end PjsuaMcp.Calls
