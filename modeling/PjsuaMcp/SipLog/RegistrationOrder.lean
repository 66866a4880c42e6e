import PjsuaMcp.SipLog.Ownership

/-!
# The owner of an entry and the order of the phones

Each of the four signals takes the first registered phone that matches. The
owner does not depend on the order of registration exactly when the first
signal that any phone matches is matched by one phone only. Call-IDs belong to
one phone each; remote URIs may be shared, and a message may have several Via
lines.
-/

namespace PjsuaMcp.SipLog

open Sdp (Text)
open Library
open Calls (PhoneId)

/-- No two phones match the signal. -/
def AtMostOne (signal : PhoneMeta → Bool) (phones : Phones) : Prop :=
  ∀ a ∈ phones.entries, ∀ b ∈ phones.entries, signal a.2 = true → signal b.2 = true → a = b

/-- Some phone matches the signal. -/
def anyMatches (signal : PhoneMeta → Bool) (phones : Phones) : Bool :=
  phones.entries.any fun e => signal e.2

/-- The first signal that some phone matches. -/
def decisive (signals : List (PhoneMeta → Bool)) (phones : Phones) :
    Option (PhoneMeta → Bool) :=
  signals.find? fun signal => anyMatches signal phones

/-! ## One signal -/

theorem exists_of_findKey? {signal : PhoneMeta → Bool} {phones : Phones} {p : PhoneId}
    (h : phones.findKey? signal = some p) :
    ∃ phone, (p, phone) ∈ phones.entries ∧ signal phone = true := by
  obtain ⟨e, he, rfl⟩ := Option.map_eq_some_iff.mp h
  have hmatch := List.find?_some he
  exact ⟨e.2, List.mem_of_find?_eq_some he, hmatch⟩

theorem isSome_findKey? (signal : PhoneMeta → Bool) (phones : Phones) :
    (phones.findKey? signal).isSome = anyMatches signal phones := by
  rw [OrderedDict.findKey?, Option.isSome_map, List.isSome_find?, anyMatches]

/-- A phone that is the only one to match is found. -/
theorem findKey?_of_atMostOne {signal : PhoneMeta → Bool} {phones : Phones}
    (hone : AtMostOne signal phones) {e : PhoneId × PhoneMeta} (he : e ∈ phones.entries)
    (hmatch : signal e.2 = true) : phones.findKey? signal = some e.1 := by
  have hsome : (phones.findKey? signal).isSome = true := by
    rw [isSome_findKey?]
    exact List.any_eq_true.mpr ⟨e, he, hmatch⟩
  obtain ⟨p, hp⟩ := Option.isSome_iff_exists.mp hsome
  obtain ⟨phone, hphone, hmatch'⟩ := exists_of_findKey? hp
  rw [hp, ← hone _ hphone e he hmatch' hmatch]

theorem anyMatches_perm {signal : PhoneMeta → Bool} {phones phones' : Phones}
    (h : phones'.entries.Perm phones.entries) :
    anyMatches signal phones' = anyMatches signal phones :=
  h.any_eq

theorem findKey?_perm {signal : PhoneMeta → Bool} {phones phones' : Phones}
    (h : phones'.entries.Perm phones.entries) (hone : AtMostOne signal phones) :
    phones'.findKey? signal = phones.findKey? signal := by
  cases hp : phones'.findKey? signal with
  | some p =>
      obtain ⟨phone, hphone, hmatch⟩ := exists_of_findKey? hp
      exact (findKey?_of_atMostOne hone (h.subset hphone) hmatch).symm
  | none =>
      rw [eq_comm, ← Option.not_isSome_iff_eq_none, isSome_findKey?, ← anyMatches_perm h,
        ← isSome_findKey?, hp]
      exact Bool.false_ne_true

/-- The phones with one of them registered first. -/
theorem exists_first {phones : Phones} {e : PhoneId × PhoneMeta} (he : e ∈ phones.entries) :
    ∃ phones' : Phones, phones'.entries.Perm phones.entries ∧
      phones'.entries.head? = some e := by
  have hperm := List.perm_cons_erase he
  refine ⟨⟨e :: phones.entries.erase e, ?_⟩, hperm.symm, rfl⟩
  exact (hperm.map Prod.fst).nodup_iff.mp phones.nodup_keys

theorem findKey?_of_head? {signal : PhoneMeta → Bool} {phones : Phones}
    {e : PhoneId × PhoneMeta} (hfirst : phones.entries.head? = some e)
    (hmatch : signal e.2 = true) : phones.findKey? signal = some e.1 := by
  obtain ⟨rest, hrest⟩ := List.head?_eq_some_iff.mp hfirst
  rw [OrderedDict.findKey?, hrest, List.find?_cons, hmatch]
  rfl

/-- A signal that finds the same phone in every order is matched by one phone only. -/
theorem atMostOne_of_perm {signal : PhoneMeta → Bool} {phones : Phones}
    (h : ∀ phones' : Phones, phones'.entries.Perm phones.entries →
      phones'.findKey? signal = phones.findKey? signal) : AtMostOne signal phones := by
  intro a ha b hb hmatcha hmatchb
  obtain ⟨phonesA, hpermA, hfirstA⟩ := exists_first ha
  obtain ⟨phonesB, hpermB, hfirstB⟩ := exists_first hb
  have hkeys : some a.1 = some b.1 :=
    calc some a.1 = phonesA.findKey? signal := (findKey?_of_head? hfirstA hmatcha).symm
      _ = phones.findKey? signal := h phonesA hpermA
      _ = phonesB.findKey? signal := (h phonesB hpermB).symm
      _ = some b.1 := findKey?_of_head? hfirstB hmatchb
  exact List.inj_on_of_nodup_map phones.nodup_keys ha hb (Option.some_inj.mp hkeys)

/-! ## The signals together -/

/-- The owner is the first match of the decisive signal. -/
theorem findSome?_eq_decisive (signals : List (PhoneMeta → Bool)) (phones : Phones) :
    (signals.findSome? fun signal => phones.findKey? signal) =
      (decisive signals phones).bind fun signal => phones.findKey? signal := by
  induction signals with
  | nil => rfl
  | cons signal signals ih =>
      rw [List.findSome?_cons, decisive, List.find?_cons, ← isSome_findKey?]
      cases hp : phones.findKey? signal with
      | some p => exact hp.symm
      | none => exact ih

theorem decisive_perm (signals : List (PhoneMeta → Bool)) {phones phones' : Phones}
    (h : phones'.entries.Perm phones.entries) :
    decisive signals phones' = decisive signals phones := by
  unfold decisive
  congr 1
  funext signal
  exact anyMatches_perm h

namespace CharTables

variable (u : CharTables)

theorem resolveOwner_eq (md : SipMetadata) (phones : Phones) :
    u.resolveOwner md phones =
      (decisive (u.signals md) phones).bind fun signal => phones.findKey? signal :=
  findSome?_eq_decisive _ _

/-- The owner of an entry is the same for every order of registration, if and only if the first
signal that any phone matches is matched by one phone only. -/
theorem resolveOwner_perm_iff (msg : Text) (phones : Phones) :
    (∀ phones' : Phones, phones'.entries.Perm phones.entries →
        (u.parseSipMetadata msg).map (u.resolveOwner · phones') =
          (u.parseSipMetadata msg).map (u.resolveOwner · phones)) ↔
      ∀ md signal, u.parseSipMetadata msg = some md →
        decisive (u.signals md) phones = some signal → AtMostOne signal phones := by
  constructor
  · intro hsame md signal hmd hdecisive
    refine atMostOne_of_perm fun phones' hperm => ?_
    have h := hsame phones' hperm
    rw [hmd, Option.map_some, Option.map_some, Option.some_inj, resolveOwner_eq, resolveOwner_eq,
      decisive_perm _ hperm, hdecisive] at h
    exact h
  · intro hone phones' hperm
    refine Option.map_congr fun md hmd => ?_
    rw [resolveOwner_eq, resolveOwner_eq, decisive_perm _ hperm]
    cases hdecisive : decisive (u.signals md) phones with
    | none => rfl
    | some signal => exact findKey?_perm hperm (hone md signal hmd hdecisive)

end CharTables

/-! ## Phones told apart by what belongs to one phone only -/

/-- Call-IDs, local ports and usernames belong to one phone each. -/
structure DistinctIdentities (phones : Phones) : Prop where
  callIds : ∀ a ∈ phones.entries, ∀ b ∈ phones.entries,
    ∀ callId ∈ a.2.sipCallIds, callId ∈ b.2.sipCallIds → a = b
  ports : ∀ a ∈ phones.entries, ∀ b ∈ phones.entries,
    a.2.localPort.isSome → a.2.localPort = b.2.localPort → a = b
  usernames : ∀ a ∈ phones.entries, ∀ b ∈ phones.entries,
    a.2.username.isSome → a.2.username = b.2.username → a = b

/-- The Call-ID never depends on the order. -/
theorem DistinctIdentities.atMostOne_callId {phones : Phones} (h : DistinctIdentities phones)
    (md : SipMetadata) : AtMostOne (CharTables.ownsCallId md) phones := by
  intro a ha b hb hmatcha hmatchb
  obtain ⟨callId, hcallId, hmema⟩ := (Option.any_eq_true _ _).mp hmatcha
  obtain ⟨callId', hcallId', hmemb⟩ := (Option.any_eq_true _ _).mp hmatchb
  rw [hcallId, Option.some_inj] at hcallId'
  subst hcallId'
  exact h.callIds a ha b hb callId (of_decide_eq_true hmema) (of_decide_eq_true hmemb)

/-- Neither does a single Via port. -/
theorem DistinctIdentities.atMostOne_via {phones : Phones} (h : DistinctIdentities phones)
    {md : SipMetadata} {port : Nat} (hvia : md.viaPorts = [port]) :
    AtMostOne (CharTables.ownsVia md) phones := by
  have hport : ∀ {phone : PhoneMeta}, CharTables.ownsVia md phone = true →
      phone.localPort = some port := by
    intro phone hmatch
    obtain ⟨port', hport', hmem⟩ := (Option.any_eq_true _ _).mp hmatch
    rw [hvia, Bool.and_eq_true, decide_eq_true_eq, decide_eq_true_eq, List.mem_singleton] at hmem
    rw [hport', hmem.2]
  intro a ha b hb hmatcha hmatchb
  refine h.ports a ha b hb ?_ ?_
  · rw [hport hmatcha]
    rfl
  · rw [hport hmatcha, hport hmatchb]

/-! ## Two phones that have called the same party -/

def aliceMeta : PhoneMeta where
  phoneId := "alice"
  username := some "6001".toList
  localPort := some 5060
  sipCallIds := ["a".toList]
  remoteUris := ["<sip:carol@10.0.0.9>".toList]

def bobMeta : PhoneMeta where
  phoneId := "bob"
  username := some "6002".toList
  localPort := some 5070
  sipCallIds := ["b".toList]
  remoteUris := ["<sip:carol@10.0.0.9>;tag=1".toList]

def callersOfCarol : Phones where
  entries := [("alice", aliceMeta), ("bob", bobMeta)]
  nodup_keys := by decide

/-- The same phones, registered the other way round. -/
def callersOfCarolReversed : Phones where
  entries := callersOfCarol.entries.reverse
  nodup_keys := by decide

def carolDump : Text := "  [DISCONNECTED] To: <sip:carol@10.0.0.9>;tag=2\n".toList

/-- The dump of a call with the shared party goes to whichever phone was registered first. -/
theorem carolDump_first :
    DistinctIdentities callersOfCarol ∧
    callersOfCarolReversed.entries.Perm callersOfCarol.entries ∧
    (CharTables.ascii.parseSipMetadata carolDump).map
        (CharTables.ascii.resolveOwner · callersOfCarol) = some (some "alice") ∧
    (CharTables.ascii.parseSipMetadata carolDump).map
        (CharTables.ascii.resolveOwner · callersOfCarolReversed) = some (some "bob") := by
  refine ⟨⟨by decide, by decide, by decide⟩, List.reverse_perm _, by decide +kernel,
    by decide +kernel⟩

end PjsuaMcp.SipLog
