import PjsuaMcp.Calls.Lifecycle
import Mathlib.Data.List.Find
import Mathlib.Data.List.Forall2

/-!
# Which call an answer without an id reaches

`answer_call` and `reject_call` without a call id take the first entry of
`_incoming_queue`, and fall back to the first active call of the phone when the
queue is empty. `Serves` is what makes the two lookups find the oldest pending
call: the queue lists exactly the pending calls, or the only pending call has
left it and is found by the fallback. `queueOk` names the steps that keep it.
-/

namespace PjsuaMcp.Calls

open Library

/-- The call came in on `p` and has been neither finally answered nor ended. -/
def SipCall.pendingOn (call : SipCall) (p : PhoneId) : Bool :=
  call.direction = .inbound && call.phoneId = p && !call.finallyAnswered && call.isActive

/-- Filtering two lists that are related entry by entry, by tests that agree on related entries. -/
theorem forall₂_filter {α β : Type*} {R R' : α → β → Prop} {p : α → Bool} {q : β → Bool}
    {xs : List α} {ys : List β} (h : List.Forall₂ R xs ys)
    (hpq : ∀ x, ∀ y ∈ ys, R x y → p x = q y) (hR : ∀ x, ∀ y ∈ ys, R x y → p x = true → R' x y) :
    List.Forall₂ R' (xs.filter p) (ys.filter q) := by
  induction h with
  | nil => exact .nil
  | @cons x y xs ys hxy _ ih =>
      have hsame := hpq x y List.mem_cons_self hxy
      have hrest := ih (fun x y hy => hpq x y (List.mem_cons_of_mem _ hy))
        (fun x y hy => hR x y (List.mem_cons_of_mem _ hy))
      cases hp : p x with
      | true =>
          have hfirst := hR x y List.mem_cons_self hxy hp
          simpa [hp, hsame ▸ hp] using ⟨hfirst, hrest⟩
      | false => simpa [hp, hsame ▸ hp] using hrest

theorem exists_related_of_mem {α β : Type*} {R : α → β → Prop} {xs : List α} {ys : List β}
    (h : List.Forall₂ R xs ys) {y : β} (hy : y ∈ ys) : ∃ x ∈ xs, R x y := by
  induction h with
  | nil => cases hy
  | @cons x _ xs ys hxy _ ih =>
      rcases List.mem_cons.mp hy with rfl | hy
      · exact ⟨x, List.mem_cons_self, hxy⟩
      · obtain ⟨x', hx', hrel⟩ := ih hy
        exact ⟨x', List.mem_cons_of_mem _ hx', hrel⟩

/-- The first match stays the first one when the list and the test become smaller around it. -/
theorem find?_filter_of_find? {α : Type*} {l : List α} {p p' keep : α → Bool} {e : α}
    (h : l.find? p = some e) (hkeep : keep e = true) (he : p' e = true)
    (himp : ∀ x, p' x = true → p x = true) : (l.filter keep).find? p' = some e := by
  induction l with
  | nil => cases h
  | cons x rest ih =>
      by_cases hx : p x = true
      · rw [List.find?_cons_of_pos hx] at h
        cases h
        rw [List.filter_cons_of_pos hkeep, List.find?_cons_of_pos he]
      · rw [List.find?_cons_of_neg hx] at h
        have hx' : ¬p' x = true := fun h' => hx (himp x h')
        by_cases hk : keep x = true
        · rw [List.filter_cons_of_pos hk, List.find?_cons_of_neg hx', ih h]
        · rw [List.filter_cons_of_neg hk, ih h]

namespace Sys

/-! ## Pending calls -/

/-- The pending incoming calls of `p`, oldest first. -/
def pendingOf (s : Sys) (p : PhoneId) : List ObjId :=
  (List.range s.objs.length).filter fun o => s.objs[o]?.any fun call => call.pendingOn p

/-- The queue of `p` lists the pending calls of `p` by their ids, in the same order. -/
def InSync (s : Sys) (p : PhoneId) : Prop :=
  List.Forall₂ (fun c o => s.calls.get? c = some o) (s.queueOf p) (s.pendingOf p)

/-- One call of `p` is pending; it has left the queue, and the scan for an active call finds it. -/
def Lone (s : Sys) (p : PhoneId) : Prop :=
  s.queueOf p = [] ∧ ∃ o, s.pendingOf p = [o] ∧ s.firstActive p = some o

def Serves (s : Sys) (p : PhoneId) : Prop := s.InSync p ∨ s.Lone p

def Served (s : Sys) : Prop := ∀ p, s.Serves p

/-- The object waits in the queue of its phone under its own id. -/
def isQueued (s : Sys) (o : ObjId) : Bool :=
  s.objs[o]?.any fun call =>
    call.callId ∈ s.queueOf call.phoneId && s.calls.get? call.callId = some o

/-- Whether a call is pending depends on its phone, its state and its answer. -/
theorem pendingOn_congr {call call' : SipCall} (hid : call'.toCallIdentity = call.toCallIdentity)
    (hinv : call'.inv = call.inv) (hans : call'.finallyAnswered = call.finallyAnswered)
    (p : PhoneId) : call'.pendingOn p = call.pendingOn p := by
  simp only [SipCall.pendingOn, SipCall.isActive, hid, hinv, hans]

theorem mem_pendingOf_iff (s : Sys) (p : PhoneId) (o : ObjId) :
    o ∈ s.pendingOf p ↔ ∃ call, s.objs[o]? = some call ∧ call.pendingOn p = true := by
  simp only [pendingOf, List.mem_filter, List.mem_range, Option.any_eq_true]
  constructor
  · exact fun h => h.2
  · rintro ⟨call, ho, hpending⟩
    exact ⟨(List.getElem?_eq_some_iff.mp ho).1, call, ho, hpending⟩

/-- No call is pending twice. -/
theorem pendingOf_nodup (s : Sys) (p : PhoneId) : (s.pendingOf p).Nodup :=
  List.nodup_range.filter _

theorem phoneId_of_mem_pendingOf {s : Sys} {p : PhoneId} {o : ObjId} {call : SipCall}
    (ho : s.objs[o]? = some call) (hmem : o ∈ s.pendingOf p) : call.phoneId = p := by
  obtain ⟨call', ho', hpending⟩ := (s.mem_pendingOf_iff p o).mp hmem
  rw [ho] at ho'
  cases ho'
  simp only [SipCall.pendingOn, Bool.and_eq_true, decide_eq_true_eq] at hpending
  exact hpending.1.1.2

/-- A new object comes last. -/
theorem pendingOf_append {s s' : Sys} {call : SipCall} (h : s'.objs = s.objs ++ [call])
    (p : PhoneId) :
    s'.pendingOf p = s.pendingOf p ++ if call.pendingOn p then [s.objs.length] else [] := by
  have hold : (List.range s.objs.length).filter
      (fun o => (s.objs ++ [call])[o]?.any fun call => call.pendingOn p) = s.pendingOf p := by
    apply List.filter_congr
    intro o ho
    rw [List.getElem?_append_left (List.mem_range.mp ho)]
  rw [pendingOf, h, List.length_append, List.length_singleton, List.range_succ,
    List.filter_append, hold, List.filter_cons, List.filter_nil, List.getElem?_concat_length,
    Option.any_some]

/-- When every object stays pending or stops being so, the order of the others is kept. -/
theorem pendingOf_filter {s s' : Sys} {p : PhoneId} (keep : ObjId → Bool)
    (hlen : s'.objs.length = s.objs.length)
    (h : ∀ o, (s'.objs[o]?.any fun call => call.pendingOn p) =
      (keep o && s.objs[o]?.any fun call => call.pendingOn p)) :
    s'.pendingOf p = (s.pendingOf p).filter keep := by
  simp only [pendingOf, hlen, h, List.filter_filter]

theorem pendingOf_of_map {s s' : Sys} {p : PhoneId}
    (h : s'.objs.map (fun call => call.pendingOn p) = s.objs.map fun call => call.pendingOn p) :
    s'.pendingOf p = s.pendingOf p := by
  have hlen : s'.objs.length = s.objs.length := by simpa using congrArg List.length h
  rw [pendingOf_filter (fun _ => true) hlen, List.filter_true]
  intro o
  have ho := congrArg (fun l => l[o]?) h
  simp only [List.getElem?_map] at ho
  cases hs : s.objs[o]? with
  | none =>
      rw [hs, Option.map_none, Option.map_eq_none_iff] at ho
      rw [ho]
      rfl
  | some call =>
      rw [hs, Option.map_some, Option.map_eq_some_iff] at ho
      obtain ⟨call', hs', heq⟩ := ho
      rw [hs']
      exact heq

theorem pendingOf_set {s s' : Sys} {o : ObjId} {call call' : SipCall} {p : PhoneId}
    (ho : s.objs[o]? = some call) (h : s'.objs = s.objs.set o call')
    (hp : call'.pendingOn p = call.pendingOn p) : s'.pendingOf p = s.pendingOf p := by
  have hlen : s'.objs.length = s.objs.length := by rw [h, List.length_set]
  rw [pendingOf_filter (fun _ => true) hlen, List.filter_true]
  intro i
  rw [h, List.getElem?_set]
  split_ifs with hi hlt
  · subst hi
    rw [ho, Option.any_some, Option.any_some, hp, Bool.true_and]
  · exact (hlt (hi ▸ (List.getElem?_eq_some_iff.mp ho).1)).elim
  · rw [Bool.true_and]

/-- An object that ends, or is finally answered, leaves the pending calls. -/
theorem pendingOf_without {s s' : Sys} {o : ObjId} {p : PhoneId}
    (hlen : s'.objs.length = s.objs.length)
    (ho : (s'.objs[o]?.any fun call => call.pendingOn p) = false)
    (hother : ∀ i, i ≠ o → s'.objs[i]? = s.objs[i]?) :
    s'.pendingOf p = (s.pendingOf p).filter fun i => i ≠ o := by
  refine pendingOf_filter _ hlen fun i => ?_
  by_cases hi : i = o
  · rw [hi, ho]
    simp
  · rw [hother i hi]
    simp [hi]

/-! ## The scan for an active call -/

theorem objActive_eq (s : Sys) (o : ObjId) :
    s.objActive o = s.table.heap[o]?.any fun k => k.inv ≠ .disconnected := by
  rw [table_heap, objActive]
  cases s.objs[o]? <;> rfl

/-- The first active call depends on the table and on which calls have ended. -/
theorem firstActive_congr {s s' : Sys} (hcalls : s'.calls = s.calls)
    (howner : s'.callPhone = s.callPhone) (hact : ∀ o, s'.objActive o = s.objActive o)
    (p : PhoneId) : s'.firstActive p = s.firstActive p := by
  rw [firstActive, firstActive, hcalls, howner, funext hact]

theorem firstActive_of_table {s s' : Sys} (h : s'.table = s.table) (p : PhoneId) :
    s'.firstActive p = s.firstActive p := by
  have hcalls : s'.calls = s.calls := congrArg CallTable.calls h
  have howner : s'.callPhone = s.callPhone := congrArg CallTable.owner h
  exact firstActive_congr hcalls howner (fun o => by rw [objActive_eq, objActive_eq, h]) p

theorem firstActive_eq_some_iff (s : Sys) (p : PhoneId) (o : ObjId) :
    s.firstActive p = some o ↔ ∃ c, s.calls.entries.find? (fun e =>
      s.callPhone.get? e.1 = some p ∧ s.objActive e.2) = some (c, o) := by
  rw [firstActive, Option.map_eq_some_iff]
  constructor
  · rintro ⟨⟨c, o⟩, h, rfl⟩
    exact ⟨c, h⟩
  · rintro ⟨c, h⟩
    exact ⟨(c, o), h, rfl⟩

/-- What the scan finds is an active tracked call of the phone. -/
theorem firstActive_spec {s : Sys} {p : PhoneId} {o : ObjId} (h : s.firstActive p = some o) :
    ∃ c, s.calls.get? c = some o ∧ s.callPhone.get? c = some p ∧ s.objActive o = true := by
  obtain ⟨c, hfind⟩ := (s.firstActive_eq_some_iff p o).mp h
  have hmem := List.mem_of_find?_eq_some hfind
  have htest := List.find?_some hfind
  simp only [decide_eq_true_eq] at htest
  exact ⟨c, (s.calls.get?_eq_some_iff c o).mpr hmem, htest.1, htest.2⟩

/-- Untracking other calls, and ending other calls, leaves the call that the scan finds. -/
theorem firstActive_of_filter {s s' : Sys} {p : PhoneId} {o : ObjId} {f : CallId → Bool}
    (h : s.firstActive p = some o) (hcalls : s'.calls = s.calls.filterKeys f)
    (howner : s'.callPhone = s.callPhone.filterKeys f)
    (hact : ∀ i, s'.objActive i = true → s.objActive i = true) (ho : s'.objActive o = true)
    (hkeep : ∀ c, s.calls.get? c = some o → s.callPhone.get? c = some p → f c = true) :
    s'.firstActive p = some o := by
  obtain ⟨c, hfind⟩ := (s.firstActive_eq_some_iff p o).mp h
  have hmem := List.mem_of_find?_eq_some hfind
  have htest := List.find?_some hfind
  simp only [decide_eq_true_eq] at htest
  have hc := hkeep c ((s.calls.get?_eq_some_iff c o).mpr hmem) htest.1
  refine (s'.firstActive_eq_some_iff p o).mpr ⟨c, ?_⟩
  rw [hcalls, OrderedDict.entries_filterKeys]
  refine find?_filter_of_find? hfind hc ?_ ?_
  · simp only [decide_eq_true_eq]
    exact ⟨by rw [howner, OrderedDict.get?_filterKeys, if_pos hc, htest.1], ho⟩
  · rintro ⟨d, i⟩ hd
    simp only [decide_eq_true_eq, howner, OrderedDict.get?_filterKeys] at hd ⊢
    obtain ⟨hd, hi⟩ := hd
    split_ifs at hd
    exact ⟨hd, hact i hi⟩

/-- A new call comes after the call that the scan finds. -/
theorem firstActive_of_append {s s' : Sys} {p : PhoneId} {o : ObjId} {call : SipCall}
    (h : s.firstActive p = some o) (hfree : s.calls.get? call.callId = none)
    (hcalls : s'.calls = s.calls.set call.callId s.objs.length)
    (howner : s'.callPhone = s.callPhone.set call.callId call.phoneId)
    (hobjs : s'.objs = s.objs ++ [call]) (hlt : ∀ c i, s.calls.get? c = some i → i < s.objs.length) :
    s'.firstActive p = some o := by
  obtain ⟨c, hfind⟩ := (s.firstActive_eq_some_iff p o).mp h
  refine (s'.firstActive_eq_some_iff p o).mpr ⟨c, ?_⟩
  rw [hcalls, OrderedDict.entries_set_of_get?_none hfree, List.find?_append]
  have hsame : s.calls.entries.find? (fun e => s'.callPhone.get? e.1 = some p ∧ s'.objActive e.2) =
      s.calls.entries.find? (fun e => s.callPhone.get? e.1 = some p ∧ s.objActive e.2) := by
    apply List.find?_congr
    rintro ⟨d, i⟩ hmem
    have hd := (s.calls.get?_eq_some_iff d i).mpr hmem
    have hne : call.callId ≠ d := by
      rintro rfl
      rw [hfree] at hd
      cases hd
    have hd' : s'.callPhone.get? d = s.callPhone.get? d := by
      rw [howner, OrderedDict.get?_set, if_neg hne]
    have hi : s'.objActive i = s.objActive i := by
      rw [objActive, objActive, hobjs, List.getElem?_append_left (hlt d i hd)]
    dsimp only
    rw [hd', hi]
  rw [hsame, hfind, Option.some_or]

/-! ## Steps that keep the lookups right -/

/-- Taking the same calls off the queue and off the pending ones. -/
theorem InSync.of_filter {s s' : Sys} {p : PhoneId} {f : CallId → Bool} {g : ObjId → Bool}
    (h : s.InSync p) (hqueue : s'.queueOf p = (s.queueOf p).filter f)
    (hpending : s'.pendingOf p = (s.pendingOf p).filter g)
    (hfg : ∀ c, ∀ o ∈ s.pendingOf p, s.calls.get? c = some o → f c = g o)
    (hcalls : ∀ c, ∀ o ∈ s.pendingOf p, s.calls.get? c = some o → f c = true →
      s'.calls.get? c = some o) : s'.InSync p := by
  rw [InSync, hqueue, hpending]
  exact forall₂_filter h hfg hcalls

/-- Pending calls keep their ids, and the queue does not change. -/
theorem InSync.of_calls {s s' : Sys} {p : PhoneId} (h : s.InSync p)
    (hqueue : s'.queueOf p = s.queueOf p) (hpending : s'.pendingOf p = s.pendingOf p)
    (hcalls : ∀ c, ∀ o ∈ s.pendingOf p, s.calls.get? c = some o → s'.calls.get? c = some o) :
    s'.InSync p := by
  refine h.of_filter (f := fun _ => true) (g := fun _ => true) ?_ ?_ (fun _ _ _ _ => rfl) ?_
  · rw [hqueue, List.filter_true]
  · rw [hpending, List.filter_true]
  · exact fun c o ho hc _ => hcalls c o ho hc

/-- A step that leaves the queue of the phone and its calls alone. -/
theorem Serves.of_calls {s s' : Sys} {p : PhoneId} (h : s.Serves p)
    (hqueue : s'.queueOf p = s.queueOf p) (hpending : s'.pendingOf p = s.pendingOf p)
    (hcalls : ∀ c, ∀ o ∈ s.pendingOf p, s.calls.get? c = some o → s'.calls.get? c = some o)
    (hfirst : ∀ o ∈ s.pendingOf p, s.firstActive p = some o → s'.firstActive p = some o) :
    s'.Serves p := by
  rcases h with hsync | ⟨hempty, o, hone, hscan⟩
  · exact .inl (hsync.of_calls hqueue hpending hcalls)
  · have hmem : o ∈ s.pendingOf p := by simp [hone]
    exact .inr ⟨hqueue.trans hempty, o, hpending.trans hone, hfirst o hmem hscan⟩

theorem inSync_of_nil {s : Sys} {p : PhoneId} (hqueue : s.queueOf p = [])
    (hpending : s.pendingOf p = []) : s.InSync p := by
  rw [InSync, hqueue, hpending]
  exact .nil

/-- A step that changes neither the queues, nor the table, nor which calls are pending. -/
theorem Served.of_table {s s' : Sys} (h : s.Served) (hqueue : ∀ p, s'.queueOf p = s.queueOf p)
    (hpending : ∀ p, s'.pendingOf p = s.pendingOf p) (htable : s'.table = s.table) :
    s'.Served := by
  intro p
  have hcalls : s'.calls = s.calls := congrArg CallTable.calls htable
  refine (h p).of_calls (hqueue p) (hpending p) ?_ ?_
  · exact fun c o _ hc => hcalls ▸ hc
  · exact fun o _ hfirst => (firstActive_of_table htable p).trans hfirst

/-- A queued pending call is queued under its own id. -/
theorem isQueued_of_inSync {s : Sys} (hs : s.table.Sound) {p : PhoneId} (h : s.InSync p) {o : ObjId}
    (ho : o ∈ s.pendingOf p) : s.isQueued o = true := by
  obtain ⟨call, hcall, -⟩ := (s.mem_pendingOf_iff p o).mp ho
  have hphone := phoneId_of_mem_pendingOf hcall ho
  obtain ⟨c, hqueued, hc⟩ := exists_related_of_mem h ho
  have hid : c = call.callId := hs.key_eq hc (table_heap_of_some hcall)
  simp [isQueued, hcall, hphone, ← hid, hqueued, hc]

/-! ## Commands -/

theorem send_table (s : Sys) (o : ObjId) (cmd : Command) : (s.send o cmd).table = s.table := by
  obtain ⟨objs, heq, hcores⟩ := s.send_eq o cmd
  rw [heq, table, table, SipCall.map_track_of_map_core hcores]

/-- A final command takes its target out of the pending calls; no other command matters. -/
theorem pendingOf_send (s : Sys) (o : ObjId) (cmd : Command) (p : PhoneId) :
    (s.send o cmd).pendingOf p =
      if cmd.isFinal then (s.pendingOf p).filter fun i => i ≠ o else s.pendingOf p := by
  cases hfinal : cmd.isFinal with
  | false =>
      have hobjs : (s.send o cmd).objs = s.objs := by simp [send, hfinal]
      simp [pendingOf, hobjs]
  | true =>
      have hobjs : (s.send o cmd).objs =
          s.objs.modify o fun call => { call with finallyAnswered := true } := by
        simp [send, hfinal]
      rw [if_pos rfl]
      refine pendingOf_without (by rw [hobjs, List.length_modify]) ?_ ?_
      · rw [hobjs, List.getElem?_modify]
        cases s.objs[o]? <;> simp [SipCall.pendingOn]
      · intro i hi
        rw [hobjs, List.getElem?_modify]
        simp [Ne.symm hi]

theorem filter_ne_of_notMem {l : List ObjId} {o : ObjId} (h : o ∉ l) :
    (l.filter fun i => i ≠ o) = l := by
  rw [List.filter_eq_self]
  rintro i hi
  exact decide_eq_true fun heq => h (heq ▸ hi)

/-- A final command to a call that is still queued is the only one that upsets the lookups. -/
theorem Served.send {s : Sys} (h : s.Served) (hs : s.table.Sound) {o : ObjId} {cmd : Command}
    (hok : (!(cmd.isFinal && s.isQueued o)) = true) : (s.send o cmd).Served := by
  intro p
  have htable := s.send_table o cmd
  have hpending := s.pendingOf_send o cmd p
  by_cases hout : cmd.isFinal = true ∧ o ∈ s.pendingOf p
  · obtain ⟨hfinal, hmem⟩ := hout
    rw [if_pos hfinal] at hpending
    rcases h p with hsync | ⟨hempty, o', hone, -⟩
    · simp [hfinal, isQueued_of_inSync hs hsync hmem] at hok
    · rw [hone, List.mem_singleton] at hmem
      subst hmem
      exact .inl (inSync_of_nil hempty (by rw [hpending, hone]; simp))
  · have hsame : (s.send o cmd).pendingOf p = s.pendingOf p := by
      rw [hpending]
      split_ifs with hfinal
      · exact filter_ne_of_notMem fun hmem => hout ⟨hfinal, hmem⟩
      · rfl
    refine (h p).of_calls rfl hsame (fun c i _ hc => hc) fun i _ hfirst => ?_
    exact (firstActive_of_table htable p).trans hfirst

theorem isQueued_send (s : Sys) (o i : ObjId) (cmd : Command) :
    (s.send o cmd).isQueued i = s.isQueued i := by
  simp only [isQueued, send]
  split_ifs
  · rw [List.getElem?_modify]
    cases s.objs[i]? with
    | none => rfl
    | some call => by_cases hi : o = i <;> simp [hi] <;> rfl
  · rfl

/-- Commands that answer no queued call for good. -/
theorem Served.sendAll {s : Sys} (h : s.Served) (hs : s.table.Sound)
    {cmds : List (ObjId × Command)}
    (hok : (cmds.all fun e => !(e.2.isFinal && s.isQueued e.1)) = true) :
    (s.sendAll cmds).Served := by
  induction cmds generalizing s with
  | nil => exact h
  | cons e rest ih =>
      rw [List.all_cons, Bool.and_eq_true] at hok
      refine ih (h.send hs hok.1) ((s.send_table e.1 e.2).symm ▸ hs) ?_
      simpa only [isQueued_send] using hok.2

/-! ## Answers and rejections without an id -/

/-- The call that `cmd` should reach is the oldest pending one, and it is the only call touched;
when none is pending, the method raises and touches no call. -/
def ActsOnOldest (s : Sys) (p : PhoneId) (cmd : Command) (result : Except String ObjId × Sys) :
    Prop :=
  match s.pendingOf p with
  | o :: _ => result.1 = .ok o ∧ result.2.commands = s.commands ++ [(o, cmd)] ∧
      ∀ i, i ≠ o → result.2.objs[i]? = s.objs[i]?
  | [] => (∃ e, result.1 = .error e) ∧ result.2.commands = s.commands ∧ result.2.objs = s.objs

theorem queueOf_setQueue {s : Sys} {p : PhoneId} {queue : List CallId}
    (h : s.queueOf p = [] → queue = []) (q : PhoneId) :
    (s.setQueue p queue).queueOf q = if p = q then queue else s.queueOf q := by
  unfold setQueue
  split_ifs with hp hq hq
  · subst hq
    rw [queueOf, OrderedDict.get?_set_self, Option.getD_some]
  · rw [queueOf, OrderedDict.get?_set_of_ne _ hq]
    rfl
  · subst hq
    have hnone : s.incomingQueue.get? p = none := by
      simpa [OrderedDict.contains] using hp
    have hempty : s.queueOf p = [] := by rw [queueOf, hnone, Option.getD_none]
    rw [hempty, h hempty]
  · rfl

/-- With an empty queue the lookup is the scan for an active call. -/
theorem getIncomingCall_of_nil {s : Sys} {p : PhoneId} (h : s.queueOf p = []) :
    s.getIncomingCall p none =
      (match s.firstActive p with
        | some o => .ok o
        | none => .error (noActiveCall p), s.setQueue p []) := by
  obtain ⟨queues, heq⟩ := s.setQueue_eq p []
  simp only [getIncomingCall, h, popTracked, findCall, heq]
  rfl

/-- With a queue in step with the pending calls the lookup takes the oldest one. -/
theorem getIncomingCall_of_cons {s : Sys} {p : PhoneId} {c : CallId} {queue : List CallId} {o : ObjId}
    (h : s.queueOf p = c :: queue) (hc : s.calls.get? c = some o) :
    s.getIncomingCall p none = (.ok o, s.setQueue p queue) := by
  simp only [getIncomingCall, h, popTracked, hc]

theorem send_objs_of_ne (s : Sys) {o i : ObjId} (cmd : Command) (hi : i ≠ o) :
    (s.send o cmd).objs[i]? = s.objs[i]? := by
  simp only [send]
  split_ifs
  · rw [List.getElem?_modify]
    simp [Ne.symm hi]
  · rfl

/-- Where the lookups are right, only an established call stands in for a missing pending one. -/
theorem actsOnOldest_iff {s : Sys} {p : PhoneId} (h : s.Serves p) (cmd : Command) :
    s.ActsOnOldest p cmd (sendTo (s.getIncomingCall p none) cmd) ↔
      s.pendingOf p ≠ [] ∨ s.firstActive p = none := by
  have hset := s.setQueue_eq p
  cases hqueue : s.queueOf p with
  | cons c queue =>
      have hsync : s.InSync p := h.resolve_right fun hlone => by simp [hlone.1] at hqueue
      rw [InSync, hqueue] at hsync
      cases hpending : s.pendingOf p with
      | nil => rw [hpending] at hsync; cases hsync
      | cons o rest =>
          rw [hpending, List.forall₂_cons] at hsync
          obtain ⟨queues, heq⟩ := hset queue
          rw [getIncomingCall_of_cons hqueue hsync.1, heq, ActsOnOldest, hpending]
          refine iff_of_true ⟨rfl, rfl, fun i hi => ?_⟩ (.inl (List.cons_ne_nil o rest))
          exact send_objs_of_ne _ cmd hi
  | nil =>
      obtain ⟨queues, heq⟩ := hset []
      rw [getIncomingCall_of_nil hqueue, heq, ActsOnOldest]
      rcases h with hsync | ⟨-, o, hone, hscan⟩
      · rw [InSync, hqueue, List.forall₂_nil_left_iff] at hsync
        rw [hsync]
        cases hfirst : s.firstActive p with
        | none => exact iff_of_true ⟨⟨_, rfl⟩, rfl, rfl⟩ (.inr rfl)
        | some o =>
            refine iff_of_false ?_ (by simp)
            rintro ⟨⟨e, he⟩, -⟩
            cases he
      · rw [hone, hscan]
        refine iff_of_true ⟨rfl, rfl, fun i hi => ?_⟩ (.inl (List.cons_ne_nil o []))
        exact send_objs_of_ne _ cmd hi

/-- The final command is sent to the head of the queue, or a provisional one to the only
pending call, which the scan then finds. -/
def oldestOk (s : Sys) (p : PhoneId) (cmd : Command) : Bool :=
  match s.queueOf p with
  | [] => true
  | [c] => cmd.isFinal || s.firstActive p = s.calls.get? c
  | _ => cmd.isFinal

theorem Served.setQueue_nil {s : Sys} (h : s.Served) {p : PhoneId} (hempty : s.queueOf p = []) :
    (s.setQueue p []).Served := by
  obtain ⟨queues, heq⟩ := s.setQueue_eq p []
  refine h.of_table (fun q => ?_) (fun q => by rw [heq]; rfl) (by rw [heq]; rfl)
  rw [queueOf_setQueue (fun _ => rfl)]
  split_ifs with hq
  · rw [← hq, hempty]
  · rfl

/-- A call of a phone with an empty queue is not queued. -/
theorem isQueued_of_firstActive {s : Sys} (hs : s.table.Sound) {p : PhoneId} {o : ObjId}
    (hempty : s.queueOf p = []) (h : s.firstActive p = some o) : s.isQueued o = false := by
  obtain ⟨c, hc, howner, hact⟩ := firstActive_spec h
  obtain ⟨call, hcall, -⟩ := exists_of_objActive hact
  have hphone : s.callPhone.get? c = some call.phoneId := hs.owner_eq hc (table_heap_of_some hcall)
  rw [howner, Option.some.injEq] at hphone
  simp [isQueued, hcall, ← hphone, hempty]

/-- The command goes out to a call whose id has been taken from the queue of `p`. -/
theorem sendHead_spec {s : Sys} {p : PhoneId} {c : CallId} {queue : List CallId}
    (hqueue : s.queueOf p = c :: queue) (o : ObjId) (cmd : Command) :
    ((s.setQueue p queue).send o cmd).table = s.table ∧
      (∀ q, ((s.setQueue p queue).send o cmd).queueOf q =
        if p = q then queue else s.queueOf q) ∧
      ∀ q, ((s.setQueue p queue).send o cmd).pendingOf q =
        if cmd.isFinal then (s.pendingOf q).filter fun i => i ≠ o else s.pendingOf q := by
  obtain ⟨queues, heq⟩ := s.setQueue_eq p queue
  refine ⟨?_, queueOf_setQueue fun hempty => by simp [hqueue] at hempty, fun q => ?_⟩
  · rw [send_table, heq]
    rfl
  · rw [pendingOf_send, heq]
    rfl

/-- A call pends for one phone only. -/
theorem notMem_pendingOf_of_ne {s : Sys} {p q : PhoneId} {o : ObjId} (hmem : o ∈ s.pendingOf p)
    (hne : p ≠ q) : o ∉ s.pendingOf q := by
  intro hmem'
  obtain ⟨call, hcall, -⟩ := (s.mem_pendingOf_iff p o).mp hmem
  exact hne ((phoneId_of_mem_pendingOf hcall hmem).symm.trans
    (phoneId_of_mem_pendingOf hcall hmem'))

/-- An answer from the queue: the head of the queue is the oldest pending call. -/
theorem Served.sendHead {s : Sys} (h : s.Served) {p : PhoneId} {c : CallId}
    {queue : List CallId} (hqueue : s.queueOf p = c :: queue) {o : ObjId}
    (hc : s.calls.get? c = some o) {cmd : Command} (hok : s.oldestOk p cmd = true) :
    ((s.setQueue p queue).send o cmd).Served := by
  have hsync : s.InSync p := (h p).resolve_right fun hlone => by simp [hlone.1] at hqueue
  rw [InSync, hqueue, List.forall₂_cons_left_iff] at hsync
  obtain ⟨o', rest, hc', hrest, hpending⟩ := hsync
  have hsame : o = o' := Option.some.inj (hc.symm.trans hc')
  subst hsame
  have hmem : o ∈ s.pendingOf p := by simp [hpending]
  have hnodup := s.pendingOf_nodup p
  rw [hpending, List.nodup_cons] at hnodup
  obtain ⟨htable, hqueues, hpend⟩ := sendHead_spec hqueue o cmd
  have hcalls : ((s.setQueue p queue).send o cmd).calls = s.calls :=
    congrArg CallTable.calls htable
  intro q
  by_cases hq : p = q
  · subst hq
    cases hfinal : cmd.isFinal with
    | true =>
        left
        have hgone : ((s.setQueue p queue).send o cmd).pendingOf p = rest := by
          rw [hpend, if_pos hfinal, hpending, List.filter_cons_of_neg (by simp),
            filter_ne_of_notMem hnodup.1]
        rw [InSync, hqueues, if_pos rfl, hgone, hcalls]
        exact hrest
    | false =>
        right
        simp only [oldestOk, hqueue, hfinal] at hok
        cases queue with
        | cons d queue => cases hok
        | nil =>
            rw [List.forall₂_nil_left_iff] at hrest
            simp only [Bool.false_or, decide_eq_true_eq] at hok
            refine ⟨by rw [hqueues, if_pos rfl], o, ?_, ?_⟩
            · rw [hpend, hfinal, if_neg Bool.false_ne_true, hpending, hrest]
            · rw [firstActive_of_table htable, hok, hc]
  · refine (h q).of_calls (by rw [hqueues, if_neg hq]) ?_ (fun d i _ hd => hcalls ▸ hd) ?_
    · rw [hpend]
      split_ifs
      · exact filter_ne_of_notMem (notMem_pendingOf_of_ne hmem hq)
      · rfl
    · exact fun i _ hfirst => (firstActive_of_table htable q).trans hfirst

/-- Answering the oldest pending call takes it off its queue. -/
theorem Served.answerOldest {s : Sys} (h : s.Served) (hs : s.table.Sound) {p : PhoneId}
    {cmd : Command} (hok : s.oldestOk p cmd = true) :
    (sendTo (s.getIncomingCall p none) cmd).2.Served := by
  cases hqueue : s.queueOf p with
  | nil =>
      have hset := h.setQueue_nil hqueue
      rw [getIncomingCall_of_nil hqueue]
      cases hfirst : s.firstActive p with
      | none => exact hset
      | some o =>
          obtain ⟨queues, heq⟩ := s.setQueue_eq p []
          have htable : (s.setQueue p []).table = s.table := by rw [heq]; rfl
          have hempty : (s.setQueue p []).queueOf p = [] := by
            rw [queueOf_setQueue (fun _ => rfl), if_pos rfl]
          have hnot := isQueued_of_firstActive (htable.symm ▸ hs) hempty
            ((firstActive_of_table htable p).trans hfirst)
          exact hset.send (htable.symm ▸ hs) (by rw [hnot, Bool.and_false]; rfl)
  | cons c queue =>
      have hsync : s.InSync p := (h p).resolve_right fun hlone => by simp [hlone.1] at hqueue
      rw [InSync, hqueue, List.forall₂_cons_left_iff] at hsync
      obtain ⟨o, _, hc, _⟩ := hsync
      rw [getIncomingCall_of_cons hqueue hc]
      exact h.sendHead hqueue hc hok

/-! ## One step -/

/-- An answer with an explicit id is not a final one to a call that is still queued. -/
def answerOk (s : Sys) (phone : Option PhoneId) (c : Option CallId) (cmd : Command) : Bool :=
  match s.resolvePhone phone, c with
  | .error _, _ => true
  | .ok p, none => s.oldestOk p cmd
  | .ok p, some c =>
      match s.getOwnedCall p c with
      | .error _ => true
      | .ok o => !(cmd.isFinal && s.isQueued o)

/-- The steps that keep the lookups right. -/
def queueOk (s : Sys) : Action → Bool
  | .incomingCall p _ _ =>
      !(s.phones.contains p && (s.queueOf p).isEmpty && !(s.pendingOf p).isEmpty)
  | .answerCall phone c statusCode => s.answerOk phone c (.answer statusCode)
  | .rejectCall phone c statusCode => s.answerOk phone c (.hangup statusCode)
  | .callOp op =>
      match op.commands s with
      | .error _ => true
      | .ok cmds => cmds.all fun e => !(e.2.isFinal && s.isQueued e.1)
  | .autoAnswerNext =>
      match s.autoAnswering with
      | [] => true
      | (_, c) :: _ => (s.calls.get? c).all fun o => !s.isQueued o
  | .addPhone p _ _ | .dropPhone p | .reregisterPhone p _ _ =>
      !s.phones.contains p || (s.pendingOf p).isEmpty
  | .cleanup => s.objs.all fun call => !call.pendingOn call.phoneId
  | _ => true

/-- Answering or rejecting, whether a call is named or not. -/
theorem Served.actOnIncoming {s : Sys} (h : s.Served) (hs : s.table.Sound) {phone : Option PhoneId}
    {c : Option CallId} {cmd : Command} (hok : s.answerOk phone c cmd = true) :
    (s.actOnIncoming phone c cmd).2.Served := by
  unfold Sys.actOnIncoming
  unfold answerOk at hok
  cases hp : s.resolvePhone phone with
  | error e => exact h
  | ok p =>
      rw [hp] at hok
      cases c with
      | none => exact h.answerOldest hs hok
      | some c =>
          dsimp only at hok
          simp only [getIncomingCall, sendTo]
          cases hc : s.getOwnedCall p c with
          | error e => exact h
          | ok o =>
              rw [hc] at hok
              exact h.send hs hok

theorem Served.callOp {s : Sys} (h : s.Served) (hs : s.table.Sound) {op : CallOp}
    (hok : s.queueOk (.callOp op) = true) : (s.callOp op).Served := by
  unfold Sys.callOp
  simp only [queueOk] at hok
  cases hcmds : op.commands s with
  | error e => exact h
  | ok cmds =>
      rw [hcmds] at hok
      exact h.sendAll hs hok

theorem Served.autoAnswerNext {s : Sys} (h : s.Served) (hs : s.table.Sound)
    (hok : s.queueOk .autoAnswerNext = true) : s.autoAnswerNext.Served := by
  unfold Sys.autoAnswerNext
  simp only [queueOk] at hok
  cases hnext : s.autoAnswering with
  | nil => exact h
  | cons e rest =>
      rw [hnext] at hok
      dsimp only at hok ⊢
      have hrest : ({ s with autoAnswering := rest }).Served :=
        h.of_table (fun _ => rfl) (fun _ => rfl) rfl
      cases hc : s.calls.get? e.2 with
      | none => exact hrest
      | some o =>
          rw [hc, Option.all_some] at hok
          refine hrest.send hs ?_
          change (!(Command.isFinal (.answer 200) && s.isQueued o)) = true
          rw [Bool.not_eq_true'] at hok
          rw [hok, Bool.and_false]
          rfl

/-- A new call is queued exactly if it is pending, and comes last in both lists. -/
theorem Served.newCall {s s' : Sys} (h : s.Served) (hs : s.table.Sound) {call : SipCall}
    (hfree : s.calls.get? call.callId = none)
    (hcalls : s'.calls = s.calls.set call.callId s.objs.length)
    (howner : s'.callPhone = s.callPhone.set call.callId call.phoneId)
    (hobjs : s'.objs = s.objs ++ [call])
    (hqueue : ∀ p, s'.queueOf p = s.queueOf p ++ if call.pendingOn p then [call.callId] else [])
    (hok : ∀ p, call.pendingOn p = true → s.queueOf p = [] → s.pendingOf p = []) :
    s'.Served := by
  intro p
  have hpending := pendingOf_append hobjs p
  have hget : ∀ c o, s.calls.get? c = some o → s'.calls.get? c = some o := by
    intro c o hc
    rw [hcalls, OrderedDict.get?_set, if_neg, hc]
    rintro rfl
    rw [hfree] at hc
    cases hc
  have hqp := hqueue p
  cases hnew : call.pendingOn p with
  | false =>
      rw [hnew, if_neg Bool.false_ne_true, List.append_nil] at hpending hqp
      refine (h p).of_calls hqp hpending (fun c o _ hc => hget c o hc) fun o _ hfirst => ?_
      refine firstActive_of_append hfirst hfree hcalls howner hobjs fun c i hc => ?_
      simpa [table] using hs.lt_length hc
  | true =>
      rw [hnew, if_pos rfl] at hpending hqp
      left
      have hself : s'.calls.get? call.callId = some s.objs.length := by
        rw [hcalls, OrderedDict.get?_set_self]
      have hold : List.Forall₂ (fun c o => s'.calls.get? c = some o) (s.queueOf p) (s.pendingOf p) := by
        rcases h p with hsync | ⟨hempty, o, hone, -⟩
        · exact List.Forall₂.imp (fun c o hc => hget c o hc) hsync
        · rw [hok p hnew hempty] at hone
          cases hone
      rw [InSync, hqp, hpending]
      exact List.rel_append hold (.cons hself .nil)

theorem queueOf_appendTo {s s' : Sys} {p : PhoneId} {c : CallId}
    (h : s'.incomingQueue = appendTo s.incomingQueue p c) (q : PhoneId) :
    s'.queueOf q = s.queueOf q ++ if p = q then [c] else [] := by
  rw [queueOf, queueOf, h, appendTo, OrderedDict.get?_set]
  split_ifs with hq
  · rw [hq, Option.getD_some]
  · rw [List.append_nil]

theorem Served.makeCall {s : Sys} (h : s.Served) (hs : s.table.Sound) {phone : Option PhoneId}
    {destUri : String} {placed : Option CallInfo}
    (en : s.enabled (.makeCall phone destUri placed) = true) :
    (s.makeCall phone destUri placed).2.Served := by
  rcases s.makeCall_cases phone destUri placed with
    ⟨-, hsame⟩ | ⟨p, cfg, ci, owner, -, -, -, -, -, hnew, hstep⟩
  · rw [hsame]
    exact h
  · obtain ⟨hfree, -⟩ := newCall_spec hnew en
    obtain ⟨index, hindex⟩ :=
      (s.trackCall (outboundCall p cfg ci)).trackSipCallId_eq ci.callIdString owner
    have hout : ∀ q, (outboundCall p cfg ci).pendingOn q = false := fun q => by
      simp [SipCall.pendingOn, outboundCall, SipCall.new]
    rw [hstep, hindex]
    refine h.newCall hs (get?_eq_none_of_idFree hs hfree) rfl rfl rfl (fun q => ?_) fun q hq => ?_
    · rw [hout, if_neg Bool.false_ne_true, List.append_nil]
      rfl
    · rw [hout] at hq
      cases hq

/-- A call comes in and is queued last. -/
theorem Served.onIncomingCall {s : Sys} (h : s.Served) (hs : s.table.Sound) {p : PhoneId}
    {c : CallId} {ci : Option CallInfo} (en : s.enabled (.incomingCall p c ci) = true)
    (hok : s.queueOk (.incomingCall p c ci) = true) : (s.onIncomingCall p c ci).Served := by
  rcases s.onIncomingCall_cases p c ci with ⟨-, -, hsame⟩ | ⟨cfg, owner, hcfg, -, -, hnew, hstep⟩
  · rw [hsame]
    exact h
  · obtain ⟨hfree, -⟩ := newCall_spec hnew en
    obtain ⟨index, hindex⟩ := trackSipCallId_eq _ (capturedCallId ci) owner
    have hin : ∀ q, (inboundCall p cfg c ci).pendingOn q = true ↔ p = q := fun q => by
      simp only [SipCall.pendingOn, Bool.and_eq_true, decide_eq_true_eq, Bool.not_eq_true']
      simp [inboundCall, SipCall.new, SipCall.isActive]
    rw [hstep, hindex]
    refine h.newCall hs (get?_eq_none_of_idFree hs hfree) rfl rfl rfl (fun q => ?_) ?_
    · exact (queueOf_appendTo (s := s) rfl q).trans
        (congrArg (s.queueOf q ++ ·) (if_congr (hin q).symm rfl rfl))
    · intro q hq hempty
      obtain rfl := (hin q).mp hq
      simpa [queueOk, OrderedDict.contains, hcfg, hempty] using hok

/-- An ended call leaves the queue of its phone and the pending calls together. -/
theorem Served.untracks {s s' : Sys} (h : s.Served) {o : ObjId} {call' : SipCall}
    {f : CallId → Bool} (hend : s.Untracks s' o call' f) (hlt : o < s.objs.length)
    (hinactive : call'.isActive = false) : s'.Served := by
  have hother : ∀ i, i ≠ o → s'.objs[i]? = s.objs[i]? := by
    intro i hi
    rw [hend.objs, List.getElem?_set_ne (Ne.symm hi)]
  have hself : s'.objs[o]? = some call' := by rw [hend.objs, List.getElem?_set_self hlt]
  have hget : ∀ c i, s.calls.get? c = some i → i ≠ o → s'.calls.get? c = some i := by
    intro c i hc hi
    rw [hend.calls, OrderedDict.get?_filterKeys, if_pos, hc]
    exact (hend.keeps c).mpr fun h' => hi (Option.some.inj (hc.symm.trans h'))
  have hcontains : ∀ c i, s.calls.get? c = some i → s'.calls.contains c = decide (i ≠ o) := by
    intro c i hc
    by_cases hi : i = o
    · have hgone : ¬f c = true := fun hf => (hend.keeps c).mp hf (hi ▸ hc)
      rw [OrderedDict.contains, hend.calls, OrderedDict.get?_filterKeys, if_neg hgone]
      simp [hi]
    · rw [OrderedDict.contains, hget c i hc hi]
      simp [hi]
  intro p
  have hqueue := hend.queue p
  have hpending : s'.pendingOf p = (s.pendingOf p).filter fun i => i ≠ o := by
    refine pendingOf_without (by rw [hend.objs, List.length_set]) ?_ hother
    rw [hself, Option.any_some, SipCall.pendingOn, hinactive, Bool.and_false]
  rcases h p with hsync | ⟨hempty, i, hone, hscan⟩
  · left
    refine hsync.of_filter hqueue hpending (fun c i _ hc => hcontains c i hc) ?_
    intro c i _ hc hkeep
    rw [hcontains c i hc, decide_eq_true_eq] at hkeep
    exact hget c i hc hkeep
  · rw [hempty, List.filter_nil] at hqueue
    by_cases hi : i = o
    · exact .inl (inSync_of_nil hqueue (by rw [hpending, hone, hi]; simp))
    · right
      refine ⟨hqueue, i, by rw [hpending, hone]; simp [hi], ?_⟩
      refine firstActive_of_filter hscan hend.calls hend.owner (fun j hj => ?_) ?_ fun c hc _ => ?_
      · by_cases hj' : j = o
        · rw [hj', objActive, hself, Option.any_some, hinactive] at hj
          cases hj
        · rwa [objActive, hother j hj'] at hj
      · obtain ⟨-, -, -, hact⟩ := firstActive_spec hscan
        rwa [objActive, hother i hi]
      · exact (hend.keeps c).mpr fun h' => hi (Option.some.inj (hc.symm.trans h'))

/-- A call that stays as pending and as active as it was may be rewritten. -/
theorem Served.of_set {s : Sys} (h : s.Served) {o : ObjId} {call call' : SipCall}
    (ho : s.objs[o]? = some call) (hpending : ∀ p, call'.pendingOn p = call.pendingOn p)
    (hactive : call'.isActive = call.isActive) :
    ({ s with objs := s.objs.set o call' }).Served := by
  have hact : ∀ i, ({ s with objs := s.objs.set o call' }).objActive i = s.objActive i := by
    intro i
    rw [objActive, objActive, List.getElem?_set]
    split_ifs with hi hlt
    · rw [← hi, ho, Option.any_some, Option.any_some, hactive]
    · rw [List.getElem?_eq_none (hi ▸ Nat.le_of_not_lt hlt)]
    · rfl
  intro p
  refine (h p).of_calls rfl (pendingOf_set ho rfl (hpending p)) (fun c i _ hc => hc) ?_
  intro i _ hfirst
  have hsame : ({ s with objs := s.objs.set o call' }).firstActive p = s.firstActive p :=
    firstActive_congr (by rfl) (by rfl) hact p
  exact hsame.trans hfirst

/-- A state callback, which ends a call at most. -/
theorem Served.onCallState {s : Sys} (h : s.Served) (hs : s.table.Sound) {o : ObjId} {ci : CallInfo}
    {env : SidecarEnv} {timestamp : String}
    (en : s.enabled (.callState o ci env timestamp) = true) :
    (s.onCallState o ci env timestamp).Served := by
  obtain ⟨call, ho, hlive⟩ := exists_of_objActive en
  have hlt := (List.getElem?_eq_some_iff.mp ho).1
  by_cases hstate : ci.state = .disconnected
  · obtain ⟨f, hend⟩ := onCallState_untracks hs ho hstate env timestamp
    refine h.untracks hend hlt ?_
    rw [SipCall.isActive, endedCall_inv, hstate]
    rfl
  · rw [onCallState_refreshed ho hstate]
    have hactive : (call.updateInfo ci).isActive = call.isActive := by
      simp [SipCall.isActive, SipCall.updateInfo, hstate, hlive]
    refine h.of_set ho (fun p => ?_) hactive
    rw [SipCall.pendingOn, hactive]
    rfl

theorem Served.onCallMediaState {s : Sys} (h : s.Served) (o : ObjId) (media : List MediaStatus) :
    (s.onCallMediaState o media).Served := by
  cases ho : s.objs[o]? with
  | none =>
      rw [onCallMediaState_of_unknown ho]
      exact h
  | some call =>
      have hskel := SipCall.onCallMediaState_skeleton call media
      have hid : (call.onCallMediaState media).toCallIdentity = call.toCallIdentity :=
        congrArg SipCall.Skeleton.identity hskel
      have hinv : (call.onCallMediaState media).inv = call.inv :=
        congrArg SipCall.Skeleton.inv hskel
      have hans : (call.onCallMediaState media).finallyAnswered = call.finallyAnswered :=
        congrArg SipCall.Skeleton.finallyAnswered hskel
      have hset : ({ s with objs := s.objs.set o (call.onCallMediaState media) }).Served := by
        refine h.of_set ho (pendingOn_congr hid hinv hans) ?_
        rw [SipCall.isActive, SipCall.isActive, hinv]
      obtain ⟨_, _, heq⟩ := onCallMediaState_eq ho media
      rw [heq]
      exact hset.of_table (fun _ => rfl) (fun _ => rfl) rfl

/-! ## Phones and toggles -/

/-- Without pending calls of `p`, dropping `p` takes nothing away from the lookups. -/
theorem Served.dropPhone {s : Sys} (h : s.Served) (hs : s.table.Sound) {p : PhoneId}
    (hok : (!s.phones.contains p || (s.pendingOf p).isEmpty) = true) : (s.dropPhone p).Served := by
  cases hp : s.phones.get? p with
  | none =>
      rw [dropPhone_of_unknown hp]
      exact h
  | some cfg =>
      have hnone : s.pendingOf p = [] := by simpa [OrderedDict.contains, hp] using hok
      obtain ⟨transports, heq⟩ := dropPhone_eq hp
      have hpending : ∀ q, (s.dropPhone p).pendingOf q = s.pendingOf q := by
        rw [heq]
        exact fun _ => rfl
      have hcalls : (s.dropPhone p).calls = s.calls.filterKeys fun c => c ∉ s.idsOf p := by
        rw [heq]
        rfl
      have howner : (s.dropPhone p).callPhone = s.callPhone.filterKeys fun c => c ∉ s.idsOf p := by
        rw [heq]
        rfl
      have hqueue : ∀ q, (s.dropPhone p).queueOf q = if q = p then [] else s.queueOf q := by
        intro q
        rw [heq, queueOf, OrderedDict.get?_pop]
        split_ifs <;> rfl
      have hact : (s.dropPhone p).objActive = s.objActive := by
        rw [heq]
        rfl
      intro q
      by_cases hq : p = q
      · subst hq
        exact .inl (inSync_of_nil (by rw [hqueue, if_pos rfl]) (by rw [hpending, hnone]))
      · have hkeep : ∀ c, s.callPhone.get? c = some q → decide (c ∉ s.idsOf p) = true := by
          intro c hc
          refine decide_eq_true fun hmem => hq ?_
          exact Option.some.inj (((s.mem_idsOf_iff p c).mp hmem).symm.trans hc)
        refine (h q).of_calls (by rw [hqueue, if_neg (Ne.symm hq)]) (hpending q) ?_ ?_
        · intro c i hi hc
          obtain ⟨call, hcall, -⟩ := (s.mem_pendingOf_iff q i).mp hi
          have hc' : s.callPhone.get? c = some call.phoneId :=
            hs.owner_eq hc (table_heap_of_some hcall)
          rw [phoneId_of_mem_pendingOf hcall hi] at hc'
          rw [hcalls, OrderedDict.get?_filterKeys, if_pos (hkeep c hc'), hc]
        · intro i _ hfirst
          obtain ⟨-, -, -, hi⟩ := firstActive_spec hfirst
          refine firstActive_of_filter hfirst hcalls howner (fun j hj => ?_) ?_ fun c _ hc => hkeep c hc
          · rwa [hact] at hj
          · rwa [hact]

theorem createPhone_queueOf (s : Sys) (p : PhoneId) (cfg : PhoneConfig) (out : AddOutcome)
    (q : PhoneId) : (s.createPhone p cfg out).queueOf q = s.queueOf q := by
  unfold createPhone
  split
  · rfl
  · dsimp only
    split_ifs
    · rw [queueOf, onPhoneAdded, OrderedDict.get?_setdefault]
      split_ifs with hq
      · rw [← hq, queueOf, Option.getD_some]
      · rfl
    · rfl

/-- A phone may be replaced when none of its calls is pending. -/
theorem Served.addPhone {s : Sys} (h : s.Served) (hs : s.table.Sound) {p : PhoneId}
    (cfg : PhoneConfig) (out : AddOutcome)
    (hok : (!s.phones.contains p || (s.pendingOf p).isEmpty) = true) :
    (s.addPhone p cfg out).Served := by
  obtain ⟨_, _, _, _, heq⟩ := (s.dropPhone p).createPhone_eq p cfg out
  refine (h.dropPhone hs hok).of_table (createPhone_queueOf _ p cfg out) (fun q => ?_) ?_
  · rw [Sys.addPhone, heq]
    rfl
  · rw [Sys.addPhone, heq]
    rfl

theorem served_cleanup {s : Sys} (hok : s.queueOk .cleanup = true) : s.cleanup.Served := by
  intro p
  refine .inl (inSync_of_nil ?_ ?_)
  · rw [queueOf, cleanup, OrderedDict.get?_mapValues]
    cases s.incomingQueue.get? p <;> rfl
  · change s.pendingOf p = []
    refine List.eq_nil_iff_forall_not_mem.mpr fun o ho => ?_
    obtain ⟨call, hcall, hpending⟩ := (s.mem_pendingOf_iff p o).mp ho
    have hnot := List.all_eq_true.mp hok call (List.mem_of_getElem? hcall)
    rw [phoneId_of_mem_pendingOf hcall ho, hpending] at hnot
    cases hnot

/-- Changing objects, without touching whether they are pending, and sending nothing final. -/
theorem pendingOf_mapObjs (s : Sys) (os : List ObjId) (f : ObjId → SipCall → SipCall)
    (hf : ∀ o call, ∀ p, (f o call).pendingOn p = call.pendingOn p) (p : PhoneId) :
    (s.mapObjs os f).pendingOf p = s.pendingOf p :=
  pendingOf_of_map (mapObjs_view _ s os f fun o call => hf o call p)

theorem Served.setRecordingEnabled {s : Sys} (h : s.Served) (p : PhoneId) (enabled : Bool)
    (rec : ObjId → RecorderEnv) (env : ObjId → SidecarEnv) :
    (s.setRecordingEnabled p enabled rec env).Served := by
  have htable := (s.step_quiet (.setRecordingEnabled p enabled rec env) rfl).table
  refine h.of_table (fun q => ?_) (fun q => ?_) htable
  · obtain ⟨_, _, heq, -⟩ := s.setRecordingEnabled_eq p enabled rec env
    rw [heq]
    rfl
  · unfold Sys.setRecordingEnabled
    split
    · rfl
    · refine pendingOf_mapObjs _ _ _ (fun o call => ?_) q
      have hskel := SipCall.toggleRecording_skeleton call enabled
        (s.currentPcapPathFor call.phoneId) (rec o) (env o)
      exact pendingOn_congr (congrArg SipCall.Skeleton.identity hskel)
        (congrArg SipCall.Skeleton.inv hskel) (congrArg SipCall.Skeleton.finallyAnswered hskel)

/-- The codec lists change nothing the lookups read, and a re-INVITE is not final. -/
theorem Served.setCodecsForPhone {s : Sys} (h : s.Served) (hs : s.table.Sound) (p : PhoneId)
    (codecs : List String) : (s.setCodecsForPhone p codecs).Served := by
  unfold Sys.setCodecsForPhone
  split
  · exact h
  · rename_i cfg _
    dsimp only
    generalize hmid : Sys.mapObjs _ _ _ = mid
    have htable : mid.table = s.table := by
      have hcores := mapObjs_view SipCall.core
        { s with phones := s.phones.set p { cfg with codecs := some codecs } }
        (s.callsOf p) (fun _ call => { call with codecs := SipCall.codecFilter (some codecs) })
        fun _ _ => rfl
      rw [← hmid, table, table]
      congr 1
      exact SipCall.map_track_of_map_core hcores
    have hserved : mid.Served := by
      refine h.of_table (fun _ => by rw [← hmid]; rfl) (fun q => ?_) htable
      rw [← hmid, pendingOf_mapObjs]
      · rfl
      · exact fun _ _ => pendingOn_congr rfl rfl rfl
    refine hserved.sendAll (htable.symm ▸ hs) ?_
    rw [List.all_map, List.all_eq_true]
    exact fun _ _ => rfl

/-- An admitted step keeps the lookups right. -/
theorem served_step {s : Sys} {a : Action} (en : s.enabled a = true) (hs : s.table.Sound)
    (hok : s.queueOk a = true) (h : s.Served) : (s.step a).Served := by
  cases a with
  | makeCall phone destUri placed => exact h.makeCall hs en
  | incomingCall p c ci => exact h.onIncomingCall hs en hok
  | callState o ci env timestamp => exact h.onCallState hs en
  | mediaState o media => exact h.onCallMediaState o media
  | answerCall phone c statusCode => exact h.actOnIncoming hs hok
  | rejectCall phone c statusCode => exact h.actOnIncoming hs hok
  | callOp op => exact h.callOp hs hok
  | pollAutoAnswers => exact h.of_table (fun _ => rfl) (fun _ => rfl) rfl
  | autoAnswerNext => exact h.autoAnswerNext hs hok
  | processAutoCaptures =>
      obtain ⟨_, _, _, _, heq⟩ := s.drainStarts_eq s.autoCapturePendingStart
      change (s.drainStarts _).Served
      rw [heq]
      exact h.of_table (fun _ => rfl) (fun _ => rfl) rfl
  | resumeAutoCaptures stamp =>
      obtain ⟨_, _, _, _, heq⟩ := s.resumeAutoCaptures_eq stamp
      change (s.resumeAutoCaptures stamp).Served
      rw [heq]
      exact h.of_table (fun _ => rfl) (fun _ => rfl) rfl
  | setCaptureEnabled p enabled =>
      obtain ⟨_, _, _, heq⟩ := s.setCaptureEnabled_eq p enabled
      change (s.setCaptureEnabled p enabled).Served
      rw [heq]
      exact h.of_table (fun _ => rfl) (fun _ => rfl) rfl
  | setRecordingEnabled p enabled rec env => exact h.setRecordingEnabled p enabled rec env
  | setCodecsForPhone p codecs => exact h.setCodecsForPhone hs p codecs
  | setAutoAnswer p enabled =>
      change (s.setAutoAnswer p enabled).Served
      unfold setAutoAnswer
      split
      · exact h
      · exact h.of_table (fun _ => rfl) (fun _ => rfl) rfl
  | addPhone p cfg out => exact h.addPhone hs cfg out hok
  | dropPhone p => exact h.dropPhone hs hok
  | reregisterPhone p creds out =>
      change (s.reregisterPhone p creds out).Served
      rcases s.reregisterPhone_cases p creds out with ⟨-, hsame⟩ | ⟨cfg, -, hadd⟩
      · rw [hsame]
        exact h
      · rw [hadd]
        exact h.addPhone hs _ out hok
  | cleanup => exact served_cleanup hok

end Sys

/-! ## Runs -/

/-- Along a run of admitted steps, answering or rejecting without an id acts on the oldest
pending call of the phone, or raises when there is none, if and only if the phone has a
pending call or no active call at all. -/
theorem answers_oldest {s : Sys} (run : server.Reach (fun s a => s.queueOk a = true) s)
    {phone : Option PhoneId} {p : PhoneId} (hp : s.resolvePhone phone = .ok p) (statusCode : Int) :
    (s.ActsOnOldest p (.answer statusCode) (s.answerCall phone none statusCode) ↔
      s.pendingOf p ≠ [] ∨ s.firstActive p = none) ∧
    (s.ActsOnOldest p (.hangup statusCode) (s.rejectCall phone none statusCode) ↔
      s.pendingOf p ≠ [] ∨ s.firstActive p = none) := by
  have hsound := fun s (run : server.Reach (fun s a => s.queueOk a = true) s) =>
    reachable_sound run.reachable
  have hserved : s.Served := by
    refine run.invariant_using hsound (P := Sys.Served) ?_ ?_
    · exact fun p => .inl .nil
    · exact fun s a en hok hs h => Sys.served_step en hs hok h
  have hact := fun cmd => Sys.actsOnOldest_iff (hserved p) cmd
  constructor
  · rw [Sys.answerCall, Sys.actOnIncoming, hp]
    exact hact (.answer statusCode)
  · rw [Sys.rejectCall, Sys.actOnIncoming, hp]
    exact hact (.hangup statusCode)

/-- Two calls ring; the first is answered by its id, and then the waiting one is rejected. -/
def answeredById : List Action :=
  [.addPhone "alice" { domain := "example.org" } ⟨some 1, true⟩,
   .incomingCall "alice" 0 (some (.plain 0 .incoming "a")),
   .incomingCall "alice" 1 (some (.plain 1 .incoming "b")),
   .answerCall (some "alice") (some 0) 200,
   .callState 0 (.plain 0 .confirmed "a") .writes "t"]

/-- The established call is hung up, and the pending one is not touched. -/
theorem answeredById_hangs_up_established :
    server.Reachable (server.run .initial answeredById) ∧
    (server.run .initial answeredById).pendingOf "alice" = [1] ∧
    ((server.run .initial answeredById).step (.rejectCall (some "alice") none 486)).commands =
      [(0, .answer 200), (0, .hangup 486)] := by
  refine ⟨GuardedSystem.Reach.init.run ?_, ?_⟩ <;> decide

/-- The same calls, answered in the order in which they wait. -/
theorem answers_oldest_first :
    (server.run .initial (answeredById.take 3)).ActsOnOldest "alice" (.answer 200)
      ((server.run .initial (answeredById.take 3)).answerCall (some "alice") none 200) := by
  have run : server.Reach (fun s a => s.queueOk a = true)
      (server.run .initial (answeredById.take 3)) := GuardedSystem.Reach.init.run (by decide)
  exact (answers_oldest run (p := "alice") (by rfl) 200).1.mpr (.inl (by decide))

end PjsuaMcp.Calls
