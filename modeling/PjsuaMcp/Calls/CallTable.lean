import PjsuaMcp.Calls.State
import PjsuaMcp.Library.Cells

/-!
# The call table

What the call manager's bookkeeping is for: a heap of call objects, of which
some are tracked under their numeric id, each with the phone that owns it. The
table forgets recording, playback and queues. Three operations build every
change: a new call is added, one call is updated in place, and a set of ids is
removed.

## Implementation notes

A call that ends is updated to the disconnected state and then removed as
stale, so `Sound` is split: `Linked` holds between the two, and `finish` puts
it back together.
-/

namespace PjsuaMcp.Calls

open Library

/-- Flipping a predicate from false to true at one member of a duplicate-free list. -/
theorem countP_eq_succ_of_flip {α : Type*} {l : List α} (hnd : l.Nodup) {a : α} (ha : a ∈ l)
    {p q : α → Bool} (hp : p a = false) (hq : q a = true)
    (hrest : ∀ b ∈ l, b ≠ a → q b = p b) : l.countP q = l.countP p + 1 := by
  classical
  have hperm := List.perm_cons_erase ha
  have herase : (l.erase a).countP q = (l.erase a).countP p := by
    apply List.countP_congr
    intro b hb
    rw [hnd.mem_erase_iff] at hb
    rw [hrest b hb.2 hb.1]
  rw [hperm.countP_eq q, hperm.countP_eq p, List.countP_cons, List.countP_cons, herase]
  simp [hp, hq]

structure CallTable where
  calls : OrderedDict CallId ObjId
  owner : OrderedDict CallId PhoneId
  heap : List SipCall.Skeleton

namespace CallTable

/-- A new object at the end of the heap, tracked under its id. -/
def add (t : CallTable) (k : SipCall.Skeleton) : CallTable where
  calls := t.calls.set k.identity.callId t.heap.length
  owner := t.owner.set k.identity.callId k.identity.phoneId
  heap := t.heap ++ [k]

/-- A new object at the end of the heap, not tracked yet. -/
def push (t : CallTable) (k : SipCall.Skeleton) : CallTable := { t with heap := t.heap ++ [k] }

/-- The object `o`, which is `k`, is tracked from now on. -/
def enter (t : CallTable) (o : ObjId) (k : SipCall.Skeleton) : CallTable :=
  { t with
    calls := t.calls.set k.identity.callId o
    owner := t.owner.set k.identity.callId k.identity.phoneId }

theorem add_eq (t : CallTable) (k : SipCall.Skeleton) :
    t.add k = (t.push k).enter t.heap.length k := rfl

def update (t : CallTable) (o : ObjId) (k : SipCall.Skeleton) : CallTable :=
  { t with heap := t.heap.set o k }

def remove (t : CallTable) (ids : List CallId) : CallTable :=
  { t with
    calls := t.calls.filterKeys fun c => c ∉ ids
    owner := t.owner.filterKeys fun c => c ∉ ids }

theorem heap_update {t : CallTable} {o : ObjId} {k : SipCall.Skeleton} (hk : t.heap[o]? = some k)
    (k' : SipCall.Skeleton) (i : ObjId) :
    (t.update o k').heap[i]? = if o = i then some k' else t.heap[i]? := by
  simp [update, List.getElem?_set, (List.getElem?_eq_some_iff.mp hk).1]

/-- The tracked ids whose object is cached as DISCONNECTED. -/
def stale (t : CallTable) : List CallId :=
  (t.calls.entries.filter fun e =>
    t.heap[e.2]?.any fun k => k.state = some .disconnected).map Prod.fst

/-- The tracked calls of `p` whose first active media has been seen. -/
def isAudioActive (t : CallTable) (p : PhoneId) (e : CallId × ObjId) : Bool :=
  t.heap[e.2]?.any fun k => k.identity.phoneId = p ∧ k.autoCaptureStarted

def audioActive (t : CallTable) (p : PhoneId) : Nat := t.calls.entries.countP (t.isAudioActive p)

/-- Both dictionaries have the same keys, every entry is that of the object it points
to, and the cached info agrees with the object on the phone and on whether it has ended. -/
structure Linked (t : CallTable) : Prop where
  keys_eq : t.owner.keys = t.calls.keys
  entry : ∀ {c o}, t.calls.get? c = some o → ∃ k, t.heap[o]? = some k ∧
    k.identity.callId = c ∧ t.owner.get? c = some k.identity.phoneId
  state_iff : ∀ {o : ObjId} {k : SipCall.Skeleton}, t.heap[o]? = some k →
    (k.state = some .disconnected ↔ k.inv = .disconnected)
  phone_eq : ∀ {o : ObjId} {k : SipCall.Skeleton}, t.heap[o]? = some k →
    k.infoPhoneId = k.identity.phoneId

/-- Moreover no tracked call has ended. -/
structure Sound (t : CallTable) : Prop extends Linked t where
  live : ∀ {c : CallId} {o : ObjId} {k : SipCall.Skeleton}, t.calls.get? c = some o →
    t.heap[o]? = some k → k.inv ≠ .disconnected

/-- The table of a server without calls. -/
theorem sound_empty : Sound ⟨.empty, .empty, []⟩ where
  keys_eq := rfl
  entry := by simp
  state_iff := by simp
  phone_eq := by simp
  live := by simp

/-! ## Facts about a linked table -/

namespace Linked

variable {t : CallTable} (h : t.Linked)

include h

theorem lt_length {c : CallId} {o : ObjId} (hc : t.calls.get? c = some o) : o < t.heap.length := by
  obtain ⟨k, hk, -⟩ := h.entry hc
  exact (List.getElem?_eq_some_iff.mp hk).1

/-- An object is tracked under its own id or not at all. -/
theorem key_eq {c : CallId} {o : ObjId} {k : SipCall.Skeleton} (hc : t.calls.get? c = some o)
    (hk : t.heap[o]? = some k) : c = k.identity.callId := by
  obtain ⟨k', hk', hid, -⟩ := h.entry hc
  rw [hk] at hk'
  cases hk'
  exact hid.symm

theorem owner_eq {c : CallId} {o : ObjId} {k : SipCall.Skeleton} (hc : t.calls.get? c = some o)
    (hk : t.heap[o]? = some k) : t.owner.get? c = some k.identity.phoneId := by
  obtain ⟨k', hk', -, howner⟩ := h.entry hc
  rw [hk] at hk'
  cases hk'
  exact howner

/-- A call has an owner on file exactly when it is in the table. -/
theorem owner_isSome_iff {c : CallId} :
    (∃ p, t.owner.get? c = some p) ↔ ∃ o, t.calls.get? c = some o := by
  rw [← OrderedDict.mem_keys_iff, ← OrderedDict.mem_keys_iff, h.keys_eq]

/-- The stale ids are those of the ended calls that are still in the table. -/
theorem mem_stale_iff {c : CallId} :
    c ∈ t.stale ↔ ∃ o k, t.calls.get? c = some o ∧ t.heap[o]? = some k ∧
      k.inv = .disconnected := by
  simp only [stale, List.mem_map, List.mem_filter, Prod.exists, exists_and_right, exists_eq_right,
    ← OrderedDict.get?_eq_some_iff, Option.any_eq_true, decide_eq_true_eq]
  constructor
  · rintro ⟨o, ho, k, hk, hstate⟩
    exact ⟨o, k, ho, hk, (h.state_iff hk).mp hstate⟩
  · rintro ⟨o, k, ho, hk, hinv⟩
    exact ⟨o, ho, k, hk, (h.state_iff hk).mpr hinv⟩

end Linked

/-! ## The operations keep the table sound -/

/-- An object on the heap that is not in the table yet. -/
theorem Linked.push {t : CallTable} (h : t.Linked) {k : SipCall.Skeleton}
    (hinv : k.inv ≠ .disconnected) (hstate : k.state ≠ some .disconnected)
    (hphone : k.infoPhoneId = k.identity.phoneId) : (t.push k).Linked where
  keys_eq := h.keys_eq
  entry := by
    intro c o hc
    obtain ⟨k', hk', hid, howner⟩ := h.entry hc
    exact ⟨k', cell_append hk' _, hid, howner⟩
  state_iff := by
    intro o k' hk'
    rcases List.mem_append.mp (List.mem_of_getElem? hk') with hold | hnew
    · obtain ⟨i, hi⟩ := List.mem_iff_getElem?.mp hold
      exact h.state_iff hi
    · rw [List.mem_singleton.mp hnew]
      exact ⟨fun hs => (hstate hs).elim, fun hi => (hinv hi).elim⟩
  phone_eq := by
    intro o k' hk'
    rcases List.mem_append.mp (List.mem_of_getElem? hk') with hold | hnew
    · obtain ⟨i, hi⟩ := List.mem_iff_getElem?.mp hold
      exact h.phone_eq hi
    · rw [List.mem_singleton.mp hnew]
      exact hphone

/-- Filing an object under its own id. -/
theorem Linked.enter {t : CallTable} (h : t.Linked) {o : ObjId} {k : SipCall.Skeleton}
    (hk : t.heap[o]? = some k) : (t.enter o k).Linked where
  keys_eq := by
    cases hc : t.calls.get? k.identity.callId with
    | none =>
        have howner : t.owner.get? k.identity.callId = none := by
          rw [OrderedDict.get?_eq_none_iff, h.keys_eq, ← OrderedDict.get?_eq_none_iff, hc]
        rw [CallTable.enter, OrderedDict.keys_set_of_get?_none howner,
          OrderedDict.keys_set_of_get?_none hc, h.keys_eq]
    | some o' =>
        obtain ⟨p, howner⟩ := h.owner_isSome_iff.mpr ⟨o', hc⟩
        rw [CallTable.enter, OrderedDict.keys_set_of_get?_some howner,
          OrderedDict.keys_set_of_get?_some hc, h.keys_eq]
  entry := by
    intro c o' hc
    simp only [CallTable.enter, OrderedDict.get?_set] at hc ⊢
    split_ifs at hc ⊢ with hid
    · cases hc
      exact ⟨k, hk, hid, rfl⟩
    · exact h.entry hc
  state_iff := h.state_iff
  phone_eq := h.phone_eq

/-- A new call, which has not ended. -/
theorem Sound.add {t : CallTable} (h : t.Sound) {k : SipCall.Skeleton}
    (hinv : k.inv ≠ .disconnected) (hstate : k.state ≠ some .disconnected)
    (hphone : k.infoPhoneId = k.identity.phoneId) : (t.add k).Sound where
  toLinked := by
    rw [add_eq]
    exact (h.toLinked.push hinv hstate hphone).enter List.getElem?_concat_length
  live := by
    intro c o k' hc hk'
    simp only [CallTable.add, OrderedDict.get?_set] at hc hk'
    split_ifs at hc
    · cases hc
      rw [List.getElem?_concat_length] at hk'
      cases hk'
      exact hinv
    · rw [List.getElem?_append_left (h.lt_length hc)] at hk'
      exact h.live hc hk'

/-- A call that changes its state and keeps its identity. -/
theorem Linked.update {t : CallTable} (h : t.Linked) {o : ObjId} {k k' : SipCall.Skeleton}
    (hk : t.heap[o]? = some k) (hid : k'.identity = k.identity)
    (hphone : k'.infoPhoneId = k.infoPhoneId)
    (hstate : k'.state = some .disconnected ↔ k'.inv = .disconnected) :
    (t.update o k').Linked where
  keys_eq := h.keys_eq
  entry := by
    intro c i hc
    obtain ⟨ki, hki, hci, howner⟩ := h.entry hc
    by_cases hi : o = i
    · subst hi
      rw [hk] at hki
      cases hki
      exact ⟨k', by rw [heap_update hk, if_pos rfl], hid ▸ hci, hid ▸ howner⟩
    · exact ⟨ki, by rw [heap_update hk, if_neg hi, hki], hci, howner⟩
  state_iff := by
    intro i ki hki
    rw [heap_update hk] at hki
    split_ifs at hki
    · cases hki
      exact hstate
    · exact h.state_iff hki
  phone_eq := by
    intro i ki hki
    rw [heap_update hk] at hki
    split_ifs at hki
    · cases hki
      rw [hphone, hid, h.phone_eq hk]
    · exact h.phone_eq hki

/-- A call that does not end. -/
theorem Sound.update {t : CallTable} (h : t.Sound) {o : ObjId} {k k' : SipCall.Skeleton}
    (hk : t.heap[o]? = some k) (hid : k'.identity = k.identity)
    (hphone : k'.infoPhoneId = k.infoPhoneId) (hinv : k'.inv ≠ .disconnected)
    (hstate : k'.state ≠ some .disconnected) : (t.update o k').Sound where
  toLinked := h.toLinked.update hk hid hphone
    ⟨fun hs => (hstate hs).elim, fun hi => (hinv hi).elim⟩
  live := by
    intro c i ki hc hki
    rw [heap_update hk] at hki
    split_ifs at hki
    · cases hki
      exact hinv
    · exact h.live hc hki

theorem Linked.remove {t : CallTable} (h : t.Linked) (ids : List CallId) :
    (t.remove ids).Linked where
  keys_eq := by simp only [CallTable.remove, OrderedDict.keys_filterKeys, h.keys_eq]
  entry := by
    intro c o hc
    simp only [CallTable.remove, OrderedDict.get?_filterKeys] at hc ⊢
    split_ifs at hc ⊢
    exact h.entry hc
  state_iff := h.state_iff
  phone_eq := h.phone_eq

theorem Sound.remove {t : CallTable} (h : t.Sound) (ids : List CallId) : (t.remove ids).Sound where
  toLinked := h.toLinked.remove ids
  live := by
    intro c o k hc hk
    simp only [CallTable.remove, OrderedDict.get?_filterKeys] at hc
    split_ifs at hc
    exact h.live hc hk

/-- Removing the stale ids leaves no ended call in the table. -/
theorem Linked.remove_stale {t : CallTable} (h : t.Linked) : (t.remove t.stale).Sound where
  toLinked := h.remove t.stale
  live := by
    intro c o k hc hk hinv
    simp only [CallTable.remove, OrderedDict.get?_filterKeys] at hc
    split_ifs at hc with hstale
    exact of_decide_eq_true hstale (h.mem_stale_iff.mpr ⟨o, k, hc, hk, hinv⟩)

/-- After one object has ended, exactly the id it is tracked under is stale. -/
theorem Sound.mem_stale_update {t : CallTable} (h : t.Sound) {o : ObjId} {k k' : SipCall.Skeleton}
    (hk : t.heap[o]? = some k) (hid : k'.identity = k.identity)
    (hphone : k'.infoPhoneId = k.infoPhoneId) (hinv : k'.inv = .disconnected)
    (hstate : k'.state = some .disconnected) (c : CallId) :
    c ∈ (t.update o k').stale ↔ t.calls.get? c = some o := by
  have hlinked := h.toLinked.update hk hid hphone ⟨fun _ => hinv, fun _ => hstate⟩
  rw [hlinked.mem_stale_iff]
  constructor
  · rintro ⟨i, ki, hi, hki, hdisc⟩
    rw [heap_update hk] at hki
    split_ifs at hki with hoi
    · exact hoi ▸ hi
    · exact (h.live hi hki hdisc).elim
  · intro hc
    exact ⟨o, k', hc, by rw [heap_update hk, if_pos rfl], hinv⟩

/-! ## Tables with fewer calls -/

/-- Every call tracked in `t'` is tracked in `t`, and no object changes its identity. -/
structure Shrinks (t t' : CallTable) : Prop where
  calls : ∀ {c : CallId} {o : ObjId}, t'.calls.get? c = some o → t.calls.get? c = some o
  identity : ∀ {o : ObjId} {k' : SipCall.Skeleton}, t'.heap[o]? = some k' →
    ∃ k, t.heap[o]? = some k ∧ k'.identity = k.identity

theorem Shrinks.refl (t : CallTable) : t.Shrinks t := ⟨id, fun hk => ⟨_, hk, rfl⟩⟩

theorem Shrinks.trans {t u v : CallTable} (h : t.Shrinks u) (h' : u.Shrinks v) : t.Shrinks v where
  calls hc := h.calls (h'.calls hc)
  identity hk := by
    obtain ⟨k, hk, hid⟩ := h'.identity hk
    obtain ⟨k', hk', hid'⟩ := h.identity hk
    exact ⟨k', hk', hid.trans hid'⟩

theorem shrinks_update {t : CallTable} {o : ObjId} {k k' : SipCall.Skeleton}
    (hk : t.heap[o]? = some k) (hid : k'.identity = k.identity) : t.Shrinks (t.update o k') where
  calls hc := hc
  identity := by
    intro i ki hki
    rw [heap_update hk] at hki
    split_ifs at hki with hi
    · cases hki
      exact ⟨k, hi ▸ hk, hid⟩
    · exact ⟨ki, hki, rfl⟩

theorem shrinks_remove (t : CallTable) (ids : List CallId) : t.Shrinks (t.remove ids) where
  calls := by
    intro c o hc
    simp only [remove, OrderedDict.get?_filterKeys] at hc
    split_ifs at hc
    exact hc
  identity hk := ⟨_, hk, rfl⟩

/-! ## Counting audio-active calls -/

/-- A call that has had no media yet is not counted. -/
theorem Linked.audioActive_add {t : CallTable} (h : t.Linked) {k : SipCall.Skeleton}
    (hfree : t.calls.get? k.identity.callId = none) (hflag : k.autoCaptureStarted = false)
    (p : PhoneId) : (t.add k).audioActive p = t.audioActive p := by
  have hnew : (t.add k).isAudioActive p (k.identity.callId, t.heap.length) = false := by
    simp [isAudioActive, CallTable.add, hflag]
  have hold : ∀ e ∈ t.calls.entries, (t.add k).isAudioActive p e = t.isAudioActive p e := by
    intro e he
    have hlt := h.lt_length ((t.calls.get?_eq_some_iff e.1 e.2).mpr he)
    simp only [isAudioActive, CallTable.add, List.getElem?_append_left hlt]
  unfold audioActive
  rw [show (t.add k).calls.entries = _ from OrderedDict.entries_set_of_get?_none hfree _,
    List.countP_append, List.countP_singleton, hnew]
  exact List.countP_congr fun e he => by rw [hold e he]

/-- The first active media of a tracked call. -/
theorem Linked.audioActive_update_first {t : CallTable} (h : t.Linked) {c : CallId} {o : ObjId}
    {k k' : SipCall.Skeleton} (hc : t.calls.get? c = some o) (hk : t.heap[o]? = some k)
    (hid : k'.identity = k.identity) (hflag : k.autoCaptureStarted = false)
    (hflag' : k'.autoCaptureStarted = true) (p : PhoneId) :
    (t.update o k').audioActive p =
      t.audioActive p + if k.identity.phoneId = p then 1 else 0 := by
  have hothers : ∀ e ∈ t.calls.entries, e ≠ (c, o) →
      (t.update o k').isAudioActive p e = t.isAudioActive p e := by
    rintro ⟨c', i⟩ he hne
    have hi : o ≠ i := by
      rintro rfl
      have hc' := (t.calls.get?_eq_some_iff c' o).mpr he
      rw [h.key_eq hc' hk, h.key_eq hc hk] at hne
      exact hne rfl
    simp [isAudioActive, heap_update hk, hi]
  have hmem := (t.calls.get?_eq_some_iff c o).mp hc
  by_cases hp : k.identity.phoneId = p
  · rw [if_pos hp]
    refine countP_eq_succ_of_flip t.calls.nodup_keys.of_map hmem ?_ ?_ hothers
    · simp [isAudioActive, hk, hflag]
    · simp [isAudioActive, heap_update hk, hid, hp, hflag']
  · rw [if_neg hp, Nat.add_zero]
    refine List.countP_congr fun e he => ?_
    by_cases hco : e = (c, o)
    · subst hco
      simp [isAudioActive, heap_update hk, hid, hp, hk]
    · rw [hothers e he hco]

/-- Updating an object that is not tracked, or without raising its flag. -/
theorem audioActive_update_same {t : CallTable} {o : ObjId} {k k' : SipCall.Skeleton}
    (hk : t.heap[o]? = some k) (hid : k'.identity = k.identity)
    (hsame : (∀ c, t.calls.get? c ≠ some o) ∨ k'.autoCaptureStarted = k.autoCaptureStarted)
    (p : PhoneId) : (t.update o k').audioActive p = t.audioActive p := by
  refine List.countP_congr fun e he => ?_
  have hcall := (t.calls.get?_eq_some_iff e.1 e.2).mpr he
  by_cases hi : o = e.2
  · rcases hsame with huntracked | hflag
    · exact (huntracked e.1 (hi ▸ hcall)).elim
    · simp [isAudioActive, heap_update hk, hk, hid, hflag, ← hi]
  · simp [isAudioActive, heap_update hk, hi]

/-- Removing ids none of which belongs to an audio-active call of `p`. -/
theorem audioActive_remove_same {t : CallTable} {ids : List CallId} {p : PhoneId}
    (hids : ∀ e ∈ t.calls.entries, e.1 ∈ ids → t.isAudioActive p e = false) :
    (t.remove ids).audioActive p = t.audioActive p := by
  unfold audioActive
  rw [show (t.remove ids).calls.entries = t.calls.entries.filter fun e => e.1 ∉ ids from rfl,
    List.countP_filter]
  refine List.countP_congr fun e he => ?_
  by_cases hmem : e.1 ∈ ids
  · simp [hmem, hids e he hmem]
  · simp [hmem, isAudioActive, CallTable.remove]

/-- Removing one audio-active call of `p`. -/
theorem audioActive_remove_one {t : CallTable} {ids : List CallId} {p : PhoneId} {c : CallId}
    {o : ObjId} (hids : ∀ c', c' ∈ ids ↔ c' = c) (hc : t.calls.get? c = some o)
    (hactive : t.isAudioActive p (c, o) = true) :
    (t.remove ids).audioActive p + 1 = t.audioActive p := by
  unfold audioActive
  rw [show (t.remove ids).calls.entries = t.calls.entries.filter fun e => e.1 ∉ ids from rfl,
    List.countP_filter]
  symm
  refine countP_eq_succ_of_flip t.calls.nodup_keys.of_map
    ((t.calls.get?_eq_some_iff c o).mp hc) ?_ hactive ?_
  · simp [hids]
  · intro e he hne
    have hkey : e.1 ≠ c := by
      intro hkey
      have hcall := (t.calls.get?_eq_some_iff e.1 e.2).mpr he
      rw [hkey, hc] at hcall
      exact hne (Prod.ext hkey (Option.some.inj hcall).symm)
    simp [hids, hkey, isAudioActive, CallTable.remove]

/-- No entry of the phone is audio-active. -/
theorem audioActive_eq_zero {t : CallTable} {p : PhoneId}
    (hnone : ∀ e ∈ t.calls.entries, t.isAudioActive p e = false) : t.audioActive p = 0 := by
  rw [audioActive, List.countP_eq_zero]
  intro e he
  simp [hnone e he]

/-- The end of an object takes one from the count of its phone, if it was tracked and
audio-active, and nothing otherwise. -/
theorem Sound.audioActive_end {t : CallTable} (h : t.Sound) {o : ObjId} {k k' : SipCall.Skeleton}
    (hk : t.heap[o]? = some k) (hid : k'.identity = k.identity)
    (hphone : k'.infoPhoneId = k.infoPhoneId) (hinv : k'.inv = .disconnected)
    (hstate : k'.state = some .disconnected)
    (hflag : k'.autoCaptureStarted = k.autoCaptureStarted) (p : PhoneId) :
    ((t.update o k').remove (t.update o k').stale).audioActive p +
      (if k.identity.phoneId = p ∧ t.calls.get? k.identity.callId = some o ∧
          k.autoCaptureStarted = true then 1 else 0) = t.audioActive p := by
  have hstale := h.mem_stale_update hk hid hphone hinv hstate
  have hown : t.heap[o]? = some k → (t.update o k').heap[o]? = some k' := fun _ => by
    rw [heap_update hk, if_pos rfl]
  rw [← audioActive_update_same hk hid (.inr hflag) p]
  split_ifs with hactive
  · refine audioActive_remove_one ?_ hactive.2.1 ?_
    · intro c'
      rw [hstale]
      exact ⟨fun hc' => h.key_eq hc' hk, fun hc' => hc' ▸ hactive.2.1⟩
    · simp [isAudioActive, hown hk, hid, hflag, hactive.1, hactive.2.2]
  · rw [Nat.add_zero]
    refine audioActive_remove_same ?_
    rintro ⟨c, i⟩ he hmem
    have hc := (hstale c).mp hmem
    have hi : i = o := by
      have hci := (t.calls.get?_eq_some_iff c i).mpr he
      rw [hc] at hci
      exact (Option.some.inj hci).symm
    rw [h.key_eq hc hk] at hc
    simp only [isAudioActive, hi, hown hk, Option.any_some, hid, hflag, decide_eq_false_iff_not]
    exact fun hboth => hactive ⟨hboth.1, hc, hboth.2⟩

/-- Removing the calls of one phone. -/
theorem Linked.audioActive_remove_owner {t : CallTable} (h : t.Linked) {ids : List CallId}
    {p : PhoneId} (hids : ∀ c, c ∈ ids ↔ t.owner.get? c = some p) (q : PhoneId) :
    (t.remove ids).audioActive q = if q = p then 0 else t.audioActive q := by
  split_ifs with hq
  · refine audioActive_eq_zero ?_
    rintro ⟨c, o⟩ he
    have hc := ((t.remove ids).calls.get?_eq_some_iff c o).mpr he
    simp only [CallTable.remove, OrderedDict.get?_filterKeys] at hc
    split_ifs at hc with hmem
    obtain ⟨k, hk, -, howner⟩ := h.entry hc
    have hne : k.identity.phoneId ≠ p := by
      rintro rfl
      exact of_decide_eq_true hmem ((hids c).mpr howner)
    simp [isAudioActive, CallTable.remove, hk, hq, hne]
  · refine audioActive_remove_same ?_
    rintro ⟨c, o⟩ he hmem
    obtain ⟨k, hk, -, howner⟩ := h.entry ((t.calls.get?_eq_some_iff c o).mpr he)
    rw [(hids c).mp hmem] at howner
    have hp := Option.some.inj howner
    simp [isAudioActive, hk, ← hp, Ne.symm hq]

end CallTable

/-- The call table of a state: tracked calls and skeletons, without the answer flags. -/
def Sys.table (s : Sys) : CallTable := ⟨s.calls, s.callPhone, s.objs.map SipCall.track⟩

@[simp] theorem Sys.table_heap (s : Sys) (o : ObjId) :
    s.table.heap[o]? = (s.objs[o]?).map SipCall.track :=
  List.getElem?_map

end PjsuaMcp.Calls
