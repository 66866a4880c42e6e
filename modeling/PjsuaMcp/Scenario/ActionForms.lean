import PjsuaMcp.Scenario.ActionExecutor

/-!
# The forms of an action

An action with one scalar argument has a short form, with the argument under
the name of the action, and a form with the key `action` and the argument under
a key of its own. `Interchangeable` says that the two do the same. They do not
where a handler takes a falsy argument from one of the two keys only.

## Implementation notes

Whatever answers the operations may look at all operations before. Sleeping and
waiting for an event are not among what a caller can observe.
-/

namespace PjsuaMcp.Scenario

/-! ## Runs of coroutines -/

namespace Coro

variable {α : Type} (answers : List Op → Op → Except Exn Value)

/-- The operations of a coroutine after those before it, and its end. -/
def run : Coro α → List Op → List Op × Except Exn α
  | pure a, ops => (ops, .ok a)
  | raise exn, ops => (ops, .error exn)
  | call op k, ops => run (k (answers ops op)) (ops ++ [op])

/-- Every run ends with an exception. -/
def Fails (c : Coro α) : Prop := ∀ ops, (c.run answers ops).2.isOk = false

theorem bind_pure_unit (c : Coro Unit) : (c >>= fun _ => Pure.pure ()) = c := by
  induction c with
  | pure a => rfl
  | raise exn => rfl
  | call op k ih => exact congrArg (call op) (funext ih)

variable {answers}

/-- One operation, and then the rest unless it raises. -/
theorem perform_bind (op : Op) (c : Coro Unit) :
    ∃ k, (Coro.perform op >>= fun _ => c) = call op k ∧ (∀ v, k (.ok v) = c) ∧
      ∀ exn, k (.error exn) = raise exn :=
  ⟨_, rfl, fun _ => rfl, fun _ => rfl⟩

theorem Fails.perform {op : Op} {c : Coro Unit} (h : c.Fails answers) :
    (Coro.perform op >>= fun _ => c).Fails answers := by
  intro ops
  obtain ⟨k, heq, hok, herror⟩ := perform_bind op c
  rw [heq]
  change (run answers (k (answers ops op)) (ops ++ [op])).2.isOk = false
  cases answers ops op with
  | ok v => rw [hok]; exact h _
  | error exn => rw [herror]; rfl

/-- What a handler of exceptions that fails leaves: the successful runs. -/
theorem run_tryCatch {f : Exn → Coro α} (hf : ∀ exn, (f exn).Fails answers) (c : Coro α)
    (ops : List Op) :
    (c.run answers ops).2.isOk = false ∧ ((c.tryCatch f).run answers ops).2.isOk = false ∨
      (c.tryCatch f).run answers ops = c.run answers ops := by
  induction c generalizing ops with
  | pure a => exact .inr rfl
  | raise exn => exact .inl ⟨rfl, hf exn ops⟩
  | call op k ih => exact ih (answers ops op) (ops ++ [op])

end Coro

/-- The operations on the managers, the recorder and the bus. -/
def Op.observed : Op → Bool
  | .sleep _ | .waitFor .. => false
  | _ => true

/-- Either both fail, or both do the same. -/
def Interchangeable (c c' : Coro Unit) : Prop :=
  ∀ answers : List Op → Op → Except Exn Value,
    ((c.run answers []).2.isOk = false ∧ (c'.run answers []).2.isOk = false) ∨
    ((c.run answers []).2.isOk = true ∧ (c'.run answers []).2.isOk = true ∧
      (c.run answers []).1.filter Op.observed = (c'.run answers []).1.filter Op.observed)

/-- A failing handler of exceptions can be exchanged for another one. -/
theorem interchangeable_tryCatch {f g : Exn → Coro Unit}
    (hf : ∀ answers exn, (f exn).Fails answers) (hg : ∀ answers exn, (g exn).Fails answers)
    (c : Coro Unit) : Interchangeable (c.tryCatch f) (c.tryCatch g) := by
  intro answers
  rcases Coro.run_tryCatch (hf answers) c [] with ⟨hfail, hleft⟩ | hleft
  · rcases Coro.run_tryCatch (hg answers) c [] with ⟨-, hright⟩ | hright
    · exact .inl ⟨hleft, hright⟩
    · exact .inl ⟨hleft, hright ▸ hfail⟩
  · rcases Coro.run_tryCatch (hg answers) c [] with ⟨hfail, hright⟩ | hright
    · exact .inl ⟨hleft ▸ hfail, hright⟩
    · rw [hleft, hright]
      cases hok : (c.run answers []).2.isOk with
      | false => exact .inl ⟨rfl, rfl⟩
      | true => exact .inr ⟨rfl, rfl, rfl⟩

/-- One of the two succeeds where the other one fails. -/
theorem not_interchangeable {answers : List Op → Op → Except Exn Value} {c c' : Coro Unit}
    (hok : (c.run answers []).2.isOk = true) (hfail : (c'.run answers []).2.isOk = false) :
    ¬Interchangeable c c' := by
  intro h
  rcases h answers with ⟨hnot, -⟩ | ⟨-, hnot, -⟩
  · exact absurd (hok.symm.trans hnot) (by decide)
  · exact absurd (hnot.symm.trans hfail) (by decide)

theorem not_interchangeable_tryCatch {f g : Exn → Coro Unit}
    {answers : List Op → Op → Except Exn Value} (hg : ∀ exn, (g exn).Fails answers)
    {c c' : Coro Unit} (hok : (c.run answers []).2.isOk = true)
    (hfail : (c'.run answers []).2.isOk = false) (hf : ∀ exn, (f exn).Fails answers) :
    ¬Interchangeable (c.tryCatch f) (c'.tryCatch g) := by
  have hleft : ((c.tryCatch f).run answers []).2.isOk = true := by
    rcases Coro.run_tryCatch hf c [] with ⟨hleft, -⟩ | hleft
    · exact absurd (hok.symm.trans hleft) (by decide)
    · exact hleft ▸ hok
  have hright : ((c'.tryCatch g).run answers []).2.isOk = false := by
    rcases Coro.run_tryCatch hg c' [] with ⟨-, hright⟩ | hright
    · exact hright
    · exact hright ▸ hfail
  exact not_interchangeable hleft hright

/-! ## The two forms -/

def Value.isScalar : Value → Bool
  | list _ | dict _ => false
  | _ => true

theorem Value.eq_null_of_isNull {v : Value} (h : v.isNull = true) : v = .null := by
  cases v with
  | null => rfl
  | bool b | int n | float x | str s | list xs | dict entries => cases h

/-- `{name: v}`. -/
def shortForm (name : String) (v : Value) : Value := .dict [(name.toList, v)]

/-- `{action: name, key: v}`. -/
def keyedForm (name key : String) (v : Value) : Value :=
  .dict [("action".toList, .ofString name), (key.toList, v)]

def shortArgs (v : Value) : Dict := if v.isNull then [] else [("value".toList, v)]

def keyedArgs (key : String) (v : Value) : Dict := [(key.toList, v)]

theorem toList_beq_of_ne {a b : String} (hne : a ≠ b) : (a.toList == b.toList) = false :=
  beq_false_of_ne fun h => hne (String.toList_inj.mp h)

/-- The short form puts its scalar under "value". -/
theorem normalizeAction_shortForm (py : PyText) {name : String} (hname : name ≠ "action")
    {v : Value} (scalar : v.isScalar = true) :
    normalizeAction py (shortForm name v) = .ok (name.toList, shortArgs v) := by
  have hget : Dict.get? [(name.toList, v)] "action" = none := by
    rw [Dict.get?, List.lookup_cons, toList_beq_of_ne hname.symm]
    rfl
  unfold normalizeAction shortForm shortArgs
  simp only [hget]
  cases v with
  | list xs => cases scalar
  | dict entries => cases scalar
  | null | bool b | int n | float x | str s => rfl

/-- The keyed form keeps its key. -/
theorem normalizeAction_keyedForm {py : PyText} {name key : String} (hkey : key ≠ "action")
    (hstr : py.str (.ofString name) = name.toList) (v : Value) :
    normalizeAction py (keyedForm name key v) = .ok (name.toList, keyedArgs key v) := by
  have hget : Dict.get? [("action".toList, .ofString name), (key.toList, v)] "action" =
      some (.ofString name) := rfl
  have hlist : key.toList ≠ "action".toList := fun h => hkey (String.toList_inj.mp h)
  unfold normalizeAction keyedForm keyedArgs
  simp only [hget, hstr, List.filter_cons, hlist, ne_eq, not_true_eq_false, not_false_eq_true,
    decide_true, decide_false, List.filter_nil, if_true]
  rfl

/-! ## What the handlers read -/

section Inputs

variable (v : Value) (hook : Hook) (event : Event)

def shortInput : HandlerInput := ⟨inherited (shortArgs v) hook event, hook, event⟩

def keyedInput (key : String) : HandlerInput :=
  ⟨inherited (keyedArgs key v) hook event, hook, event⟩

theorem get?_shortArgs {key : String} (hkey : key ≠ "value") : (shortArgs v).get? key = none := by
  unfold shortArgs Dict.get?
  split_ifs
  · rfl
  · rw [List.lookup_cons, toList_beq_of_ne hkey]
    rfl

/-- A null scalar is left out of the arguments. -/
theorem get?_shortArgs_value :
    (shortArgs v).get? "value" = if v.isNull then none else some v := by
  cases v with
  | null | bool b | int n | float x | str s | list xs | dict entries => rfl

theorem get?_keyedArgs_self (key : String) : (keyedArgs key v).get? key = some v := by
  simp [keyedArgs, Dict.get?]

theorem get?_keyedArgs {key other : String} (hne : other ≠ key) :
    (keyedArgs key v).get? other = none := by
  rw [keyedArgs, Dict.get?, List.lookup_cons, toList_beq_of_ne hne]
  rfl

/-- What is read of two inputs of one action. -/
structure SameArgument (key : String) (i j : HandlerInput) : Prop where
  phoneId : i.phoneId = j.phoneId
  callId : i.callId = j.callId
  hook : i.hook = j.hook
  read : i.args.get? "value" = if v.isNull then none else some v
  short : ∀ other, other ≠ "value" → other ≠ "phone_id" → other ≠ "call_id" →
    i.args.get? other = none
  keyed : j.args.get? key = some v
  other : ∀ other, other ≠ key → other ≠ "phone_id" → other ≠ "call_id" →
    j.args.get? other = none

/-- The two forms hand the handler the same argument, under different keys. -/
theorem sameArgument {key : String} (hphone : key ≠ "phone_id") (hcall : key ≠ "call_id") :
    SameArgument v key (shortInput v hook event) (keyedInput v hook event key) where
  phoneId := by
    change (inherited _ hook event).get _ = (inherited _ hook event).get _
    rw [get_inherited_phoneId, get_inherited_phoneId, get?_shortArgs v (by decide),
      get?_keyedArgs v hphone.symm]
    rfl
  callId := by
    change (inherited _ hook event).get _ = (inherited _ hook event).get _
    rw [get_inherited_callId, get_inherited_callId, get?_shortArgs v (by decide),
      get?_keyedArgs v hcall.symm]
    rfl
  hook := rfl
  read := (get?_inherited_of_ne hook event (by decide) (by decide)).trans (get?_shortArgs_value v)
  short other hvalue hphone hcall :=
    (get?_inherited_of_ne hook event hphone hcall).trans (get?_shortArgs v hvalue)
  keyed := (get?_inherited_of_ne hook event hphone hcall).trans (get?_keyedArgs_self v key)
  other other hne hphone hcall :=
    (get?_inherited_of_ne hook event hphone hcall).trans (get?_keyedArgs v hne)

end Inputs

/-- The keys that a handler tries before `value`. -/
def Tried (key : String) (others : List String) : Prop :=
  ∀ k ∈ key :: others, k ≠ "value" ∧ k ≠ "phone_id" ∧ k ≠ "call_id"

theorem firstOf_of_none {i : HandlerInput} {keys : List String} (last : String)
    (hnone : ∀ key ∈ keys, i.args.get? key = none) :
    i.firstOf (keys ++ [last]) = i.args.get last := by
  induction keys with
  | nil => rfl
  | cons key keys ih =>
      have hkey : i.args.get key = .null := by
        rw [Dict.get, hnone key List.mem_cons_self, Option.getD_none]
      have hrest := ih fun k hk => hnone k (List.mem_cons_of_mem _ hk)
      have hcons : i.firstOf (key :: keys ++ [last]) =
          (i.args.get key).or (i.firstOf (keys ++ [last])) := by
        cases keys with
        | nil => rfl
        | cons next keys => rfl
      rw [hcons, hkey]
      exact hrest

namespace SameArgument

variable {v : Value} {key : String} {i j : HandlerInput} (h : SameArgument v key i j)

include h

theorem value : i.args.get "value" = v := by
  rw [Dict.get, h.read]
  cases v with
  | null | bool b | int n | float x | str s | list xs | dict entries => rfl

/-- A handler that tries its own keys first finds the scalar of the short form last. -/
theorem firstOf_short {others : List String} (tried : Tried key others) :
    i.firstOf (key :: others ++ ["value"]) = v := by
  have hnone : ∀ k ∈ key :: others, i.args.get? k = none := fun k hk =>
    h.short k (tried k hk).1 (tried k hk).2.1 (tried k hk).2.2
  rw [firstOf_of_none "value" hnone]
  exact h.value

/-- A handler finds the value of the keyed form under its own key. -/
theorem firstOf_keyed {others : List String} (tried : Tried key others) (hfresh : key ∉ others) :
    j.firstOf (key :: others ++ ["value"]) = v.or .null := by
  have hnone : ∀ k ∈ others, j.args.get? k = none := fun k hk =>
    h.other k (fun heq => hfresh (heq ▸ hk)) (tried k (List.mem_cons_of_mem _ hk)).2.1
      (tried k (List.mem_cons_of_mem _ hk)).2.2
  have hvalue : j.args.get? "value" = none :=
    h.other "value" (tried key List.mem_cons_self).1.symm (by decide) (by decide)
  have hrest : j.firstOf (others ++ ["value"]) = .null := by
    rw [firstOf_of_none "value" hnone, Dict.get, hvalue, Option.getD_none]
  have hkey : j.args.get key = v := by rw [Dict.get, h.keyed, Option.getD_some]
  cases others with
  | nil => rw [← hrest, ← hkey]; rfl
  | cons next others => rw [← hrest, ← hkey]; rfl

/-- The short form gives the value as it is, the keyed one nothing instead of a falsy value. -/
theorem reads {others : List String} (tried : Tried key others) (hfresh : key ∉ others) :
    i.firstOf (key :: others ++ ["value"]) = v ∧
      j.firstOf (key :: others ++ ["value"]) = v.or .null :=
  ⟨h.firstOf_short tried, h.firstOf_keyed tried hfresh⟩

omit h in
/-- `or` with null keeps the truth value. -/
theorem or_null_truthy (v : Value) : (v.or .null).truthy = v.truthy := by
  unfold Value.or
  split_ifs with htrue
  · rfl
  · exact (eq_false_of_ne_true htrue).symm

omit h in
theorem or_null_of_truthy {v : Value} (htrue : v.truthy = true) : v.or .null = v := if_pos htrue

/-- Keys that neither form has. -/
theorem get?_same {other : String} (hother : other ≠ key ∧ other ≠ "value" ∧
    other ≠ "phone_id" ∧ other ≠ "call_id") : i.args.get? other = j.args.get? other := by
  obtain ⟨hkey, hvalue, hphone, hcall⟩ := hother
  rw [h.short other hvalue hphone hcall, h.other other hkey hphone hcall]

/-- The other arguments are the same in both forms. -/
theorem get_same {other : String} (hother : other ≠ key ∧ other ≠ "value" ∧
    other ≠ "phone_id" ∧ other ≠ "call_id") : i.args.get other = j.args.get other := by
  rw [Dict.get, h.get?_same hother, Dict.get]

theorem record_same (action : String) (phoneId callId : Value) (data : Dict) :
    i.record action phoneId callId data = j.record action phoneId callId data := by
  unfold HandlerInput.record
  rw [h.hook]

/-- A recorded call that reads neither key. -/
theorem recordedCall_same (action : String) (data : Dict) (call : Value → Value → PjCall) :
    recordedCall action data call i = recordedCall action data call j := by
  unfold recordedCall
  rw [h.phoneId, h.callId, h.record_same]

end SameArgument

section Handlers

variable {v : Value} {i j : HandlerInput} (py : PyText)

theorem aBlindTransfer_same (h : SameArgument v "to" i j) :
    aBlindTransfer i = aBlindTransfer j := by
  have tried : Tried "to" ["dest_uri"] := by simp [Tried]
  obtain ⟨hi, hj⟩ : i.firstOf ["to", "dest_uri", "value"] = v ∧
      j.firstOf ["to", "dest_uri", "value"] = v.or .null := h.reads tried (by decide)
  unfold aBlindTransfer
  simp only [hi, hj, SameArgument.or_null_truthy, h.recordedCall_same]
  cases htrue : v.truthy with
  | false => rfl
  | true => rw [SameArgument.or_null_of_truthy htrue]

theorem aMakeCall_same (h : SameArgument v "to" i j) : aMakeCall i = aMakeCall j := by
  have tried : Tried "to" ["dest_uri"] := by simp [Tried]
  obtain ⟨hi, hj⟩ : i.firstOf ["to", "dest_uri", "value"] = v ∧
      j.firstOf ["to", "dest_uri", "value"] = v.or .null := h.reads tried (by decide)
  have hpid : i.firstOf ["phone_id", "from_phone"] = j.firstOf ["phone_id", "from_phone"] :=
    congrArg₂ Value.or h.phoneId (h.get_same (by decide))
  have hheaders : i.args.get "headers" = j.args.get "headers" := h.get_same (by decide)
  unfold aMakeCall
  simp only [hi, hj, hpid, hheaders, SameArgument.or_null_truthy, h.record_same]
  cases htrue : v.truthy with
  | false => rfl
  | true => rw [SameArgument.or_null_of_truthy htrue]

theorem aPlayAudio_same (h : SameArgument v "file" i j) : aPlayAudio py i = aPlayAudio py j := by
  have tried : Tried "file" ["path", "file_path"] := by simp [Tried]
  obtain ⟨hi, hj⟩ : i.firstOf ["file", "path", "file_path", "value"] = v ∧
      j.firstOf ["file", "path", "file_path", "value"] = v.or .null := h.reads tried (by decide)
  have hloop : i.args.get "loop" = j.args.get "loop" := h.get_same (by decide)
  unfold aPlayAudio
  simp only [hi, hj, hloop, SameArgument.or_null_truthy, h.recordedCall_same]
  cases htrue : v.truthy with
  | false => rfl
  | true => rw [SameArgument.or_null_of_truthy htrue]

theorem aSetCodecs_same (engine : Bool) (h : SameArgument v "codecs" i j) :
    aSetCodecs py engine i = aSetCodecs py engine j := by
  have tried : Tried "codecs" [] := by simp [Tried]
  obtain ⟨hi, hj⟩ : i.firstOf ["codecs", "value"] = v ∧
      j.firstOf ["codecs", "value"] = v.or .null := h.reads tried (by decide)
  have hpid : i.args.get "phone_id" = j.args.get "phone_id" := h.phoneId
  unfold aSetCodecs
  simp only [hi, hj, hpid, h.callId, SameArgument.or_null_truthy, h.record_same]
  cases htrue : v.truthy with
  | false => rfl
  | true => rw [SameArgument.or_null_of_truthy htrue]

theorem aWait_same (h : SameArgument v "ms" i j) : aWait py i = aWait py j := by
  have hi : i.args.get? "ms" = none := h.short "ms" (by decide) (by decide) (by decide)
  have hj : j.args.get "ms" = v := by rw [Dict.get, h.keyed, Option.getD_some]
  unfold aWait
  simp only [hi, h.keyed, hj, h.value, h.phoneId, h.callId, h.record_same, Option.isSome_none,
    Option.isSome_some, Bool.false_eq_true, if_false, if_true]

theorem aWaitUntil_same (h : SameArgument v "event" i j) : aWaitUntil py i = aWaitUntil py j := by
  have tried : Tried "event" [] := by simp [Tried]
  obtain ⟨hi, hj⟩ : i.firstOf ["event", "value"] = v ∧ j.firstOf ["event", "value"] = v.or .null :=
    h.reads tried (by decide)
  have htimeout : ∀ default, i.args.getOr "timeout_ms" default =
      j.args.getOr "timeout_ms" default := fun default =>
    congrArg (Option.getD · default) (h.get?_same (by decide))
  unfold aWaitUntil
  simp only [hi, hj, htimeout, h.phoneId, h.callId, SameArgument.or_null_truthy, h.record_same]
  cases htrue : v.truthy with
  | false => rfl
  | true => rw [SameArgument.or_null_of_truthy htrue]

theorem aEmit_same (h : SameArgument v "name" i j) : aEmit py i = aEmit py j := by
  have tried : Tried "name" [] := by simp [Tried]
  obtain ⟨hi, hj⟩ : i.firstOf ["name", "value"] = v ∧ j.firstOf ["name", "value"] = v.or .null :=
    h.reads tried (by decide)
  have hpid : i.args.get "phone_id" = j.args.get "phone_id" := h.phoneId
  have hdata : i.args.get "data" = j.args.get "data" := h.get_same (by decide)
  unfold aEmit
  simp only [hi, hj, hpid, hdata, SameArgument.or_null_truthy]
  cases htrue : v.truthy with
  | false => rfl
  | true => rw [SameArgument.or_null_of_truthy htrue]

/-- A hook that only notes its argument in the timeline. -/
theorem noted_same {key : String} (type : String) (tried : Tried key [])
    (h : SameArgument v key i j) :
    noted py type key [key, "value"] i = noted py type key [key, "value"] j := by
  obtain ⟨hi, hj⟩ : i.firstOf [key, "value"] = v ∧ j.firstOf [key, "value"] = v.or .null :=
    h.reads tried List.not_mem_nil
  have hor : (v.or .null).or (.str []) = v.or (.str []) := by
    rw [Value.or, SameArgument.or_null_truthy, Value.or, Value.or]
    split_ifs <;> rfl
  unfold noted
  simp only [hi, hj, hor, h.hook]

/-! ## Handlers that tell a falsy argument from a missing one -/

/-- `_a_send_dtmf` takes truthy digits from either key, and misses null ones in both. -/
theorem aSendDtmf_same (h : SameArgument v "digits" i j) (hv : v.truthy = true ∨ v = .null) :
    aSendDtmf py i = aSendDtmf py j := by
  have tried : Tried "digits" [] := by simp [Tried]
  obtain ⟨hi, hj⟩ : i.firstOf ["digits", "value"] = v ∧
      j.firstOf ["digits", "value"] = v.or .null := h.reads tried List.not_mem_nil
  have heq : v.or .null = v := by
    rcases hv with htrue | rfl
    · exact SameArgument.or_null_of_truthy htrue
    · rfl
  unfold aSendDtmf
  simp only [hi, hj, heq, h.phoneId, h.callId, h.recordedCall_same]

theorem aConference_same (h : SameArgument v "call_ids" i j)
    (hv : v.truthy = true ∨ v = .null ∨ v = .str []) : aConference py i = aConference py j := by
  have tried : Tried "call_ids" [] := by simp [Tried]
  obtain ⟨hi, hj⟩ : i.firstOf ["call_ids", "value"] = v ∧
      j.firstOf ["call_ids", "value"] = v.or .null := h.reads tried List.not_mem_nil
  unfold aConference
  simp only [hi, hj, h.phoneId, h.record_same]
  rcases hv with htrue | rfl | rfl
  · rw [SameArgument.or_null_of_truthy htrue]
  · rfl
  · rfl

/-- `_a_reject` takes `code` from either key, unless it is null. -/
theorem aReject_same (h : SameArgument v "code" i j) (hv : v ≠ .null) :
    aReject py i = aReject py j := by
  have hcode : i.args.get? "code" = none := h.short "code" (by decide) (by decide) (by decide)
  have hvalue : i.args.get? "value" = some v := by
    rw [h.read, if_neg (mt Value.eq_null_of_isNull hv)]
  unfold aReject
  simp only [Dict.getOr, hcode, hvalue, h.keyed, Option.getD_none, Option.getD_some,
    h.recordedCall_same]

/-- Everything succeeds and returns `None`. -/
def quiet (_ : List Op) (_ : Op) : Except Exn Value := .ok .null

/-- Falsy digits are looked for under "value", where the keyed form has none. -/
theorem aSendDtmf_differs (h : SameArgument v "digits" i j) (hfalse : v.truthy = false)
    (hv : v ≠ .null) :
    ((aSendDtmf py i).run quiet []).2.isOk = true ∧
      ((aSendDtmf py j).run quiet []).2.isOk = false := by
  have tried : Tried "digits" [] := by simp [Tried]
  obtain ⟨hi, hj⟩ : i.firstOf ["digits", "value"] = v ∧
      j.firstOf ["digits", "value"] = v.or .null := h.reads tried List.not_mem_nil
  have hnull : v.isNull = false := eq_false_of_ne_true (mt Value.eq_null_of_isNull hv)
  unfold aSendDtmf
  simp only [hi, hj, Value.or, hfalse, hnull, Bool.false_eq_true, if_false]
  exact ⟨rfl, rfl⟩

theorem aConference_differs (h : SameArgument v "call_ids" i j) (scalar : v.isScalar = true)
    (hfalse : v.truthy = false) (hv : v ≠ .null ∧ v ≠ .str []) :
    ((aConference py i).run quiet []).2.isOk = true ∧
      ((aConference py j).run quiet []).2.isOk = false := by
  have tried : Tried "call_ids" [] := by simp [Tried]
  obtain ⟨hi, hj⟩ : i.firstOf ["call_ids", "value"] = v ∧
      j.firstOf ["call_ids", "value"] = v.or .null := h.reads tried List.not_mem_nil
  unfold aConference
  simp only [hi, hj, Value.or, hfalse]
  refine ⟨?_, rfl⟩
  cases v with
  | null => exact (hv.1 rfl).elim
  | str s => exact (hv.2 (congrArg Value.str (by simpa [Value.truthy] using hfalse))).elim
  | list xs | dict entries => cases scalar
  | bool b | int n | float x => rfl

/-- A null code is the default in the short form, and an error in the keyed one. -/
theorem aReject_differs (h : SameArgument .null "code" i j) :
    ((aReject py i).run quiet []).2.isOk = true ∧
      ((aReject py j).run quiet []).2.isOk = false := by
  have hcode : i.args.get? "code" = none := h.short "code" (by decide) (by decide) (by decide)
  unfold aReject
  simp only [Dict.getOr, hcode, h.read, h.keyed, Option.getD_none, Option.getD_some,
    Value.isNull, if_true]
  exact ⟨rfl, rfl⟩

end Handlers

/-! ## All forms -/

/-- The actions that take a scalar, and the key of it in the long form. -/
def shorthandForms : List (String × String) :=
  [("send_dtmf", "digits"), ("blind_transfer", "to"), ("make_call", "to"), ("reject", "code"),
    ("play_audio", "file"), ("set_codecs", "codecs"), ("conference", "call_ids"), ("emit", "name"),
    ("wait", "ms"), ("wait_until", "event"), ("checkpoint", "label"), ("log", "message")]

/-- `send_dtmf` and `conference` pass a falsy argument over under its own key; `reject` without an
argument has a default, and none for `None`. -/
def FormsAgree (name : String) (v : Value) : Prop :=
  (name = "send_dtmf" → v.truthy = true ∨ v = .null) ∧
  (name = "conference" → v.truthy = true ∨ v = .null ∨ v = .str []) ∧
  (name = "reject" → v ≠ .null)

/-- A handler does the same for both inputs, or fails for the second one only. -/
def Settled (handler : Handler) (agree : Prop) (i j : HandlerInput) : Prop :=
  (agree → handler i = handler j) ∧
  (¬agree → ((handler i).run quiet []).2.isOk = true ∧
    ((handler j).run quiet []).2.isOk = false)

/-- Only three of the actions mind the form. -/
theorem formsAgree_of_ne {name : String} (v : Value)
    (hname : name ≠ "send_dtmf" ∧ name ≠ "conference" ∧ name ≠ "reject") :
    FormsAgree name v :=
  ⟨fun h => (hname.1 h).elim, fun h => (hname.2.1 h).elim, fun h => (hname.2.2 h).elim⟩

/-- A handler that does the same with both forms. -/
theorem settled_of_same {handler : Handler} {name : String} {v : Value} {i j : HandlerInput}
    (hname : name ≠ "send_dtmf" ∧ name ≠ "conference" ∧ name ≠ "reject")
    (hsame : handler i = handler j) : Settled handler (FormsAgree name v) i j :=
  ⟨fun _ => hsame, fun hne => (hne (formsAgree_of_ne v hname)).elim⟩

theorem settled_sendDtmf (py : PyText) {v : Value} {i j : HandlerInput}
    (h : SameArgument v "digits" i j) :
    Settled (aSendDtmf py) (FormsAgree "send_dtmf" v) i j := by
  have hagree : FormsAgree "send_dtmf" v ↔ v.truthy = true ∨ v = .null := by simp [FormsAgree]
  rw [hagree]
  refine ⟨aSendDtmf_same py h, fun hne => ?_⟩
  rw [not_or] at hne
  exact aSendDtmf_differs py h (eq_false_of_ne_true hne.1) hne.2

theorem settled_conference (py : PyText) {v : Value} {i j : HandlerInput}
    (scalar : v.isScalar = true) (h : SameArgument v "call_ids" i j) :
    Settled (aConference py) (FormsAgree "conference" v) i j := by
  have hagree : FormsAgree "conference" v ↔ v.truthy = true ∨ v = .null ∨ v = .str [] := by
    simp [FormsAgree]
  rw [hagree]
  refine ⟨aConference_same py h, fun hne => ?_⟩
  rw [not_or, not_or] at hne
  exact aConference_differs py h scalar (eq_false_of_ne_true hne.1) hne.2

theorem settled_reject (py : PyText) {v : Value} {i j : HandlerInput}
    (h : SameArgument v "code" i j) : Settled (aReject py) (FormsAgree "reject" v) i j := by
  have hagree : FormsAgree "reject" v ↔ v ≠ .null := by simp [FormsAgree]
  rw [hagree]
  refine ⟨aReject_same py h, fun hne => ?_⟩
  have hnull : v = .null := not_ne_iff.mp hne
  subst hnull
  exact aReject_differs py h

/-- The handler of each form. -/
theorem exists_handler (py : PyText) (engine : Bool) {form : String × String}
    (hform : form ∈ shorthandForms) {v : Value} (scalar : v.isScalar = true) :
    ∃ handler, (dispatch py engine).find? (fun entry => entry.1.toList = form.1.toList) =
        some (form.1, handler) ∧
      ∀ i j, SameArgument v form.2 i j → Settled handler (FormsAgree form.1 v) i j := by
  simp only [shorthandForms, List.mem_cons, List.not_mem_nil, or_false] at hform
  rcases hform with rfl | rfl | rfl | rfl | rfl | rfl | rfl | rfl | rfl | rfl | rfl | rfl
  · exact ⟨aSendDtmf py, find?_dispatch (List.mem_of_getElem? (i := 6) rfl),
      fun i j => settled_sendDtmf py⟩
  · exact ⟨aBlindTransfer, find?_dispatch (List.mem_of_getElem? (i := 7) rfl),
      fun i j h => settled_of_same (by decide) (aBlindTransfer_same h)⟩
  · exact ⟨aMakeCall, find?_dispatch (List.mem_of_getElem? (i := 10) rfl),
      fun i j h => settled_of_same (by decide) (aMakeCall_same h)⟩
  · exact ⟨aReject py, find?_dispatch (List.mem_of_getElem? (i := 3) rfl),
      fun i j => settled_reject py⟩
  · exact ⟨aPlayAudio py, find?_dispatch (List.mem_of_getElem? (i := 11) rfl),
      fun i j h => settled_of_same (by decide) (aPlayAudio_same py h)⟩
  · exact ⟨aSetCodecs py engine, find?_dispatch (List.mem_of_getElem? (i := 14) rfl),
      fun i j h => settled_of_same (by decide) (aSetCodecs_same py engine h)⟩
  · exact ⟨aConference py, find?_dispatch (List.mem_of_getElem? (i := 9) rfl),
      fun i j => settled_conference py scalar⟩
  · exact ⟨aEmit py, find?_dispatch (List.mem_of_getElem? (i := 17) rfl),
      fun i j h => settled_of_same (by decide) (aEmit_same py h)⟩
  · exact ⟨aWait py, find?_dispatch (List.mem_of_getElem? (i := 15) rfl),
      fun i j h => settled_of_same (by decide) (aWait_same py h)⟩
  · exact ⟨aWaitUntil py, find?_dispatch (List.mem_of_getElem? (i := 16) rfl),
      fun i j h => settled_of_same (by decide) (aWaitUntil_same py h)⟩
  · exact ⟨aCheckpoint py, find?_dispatch (List.mem_of_getElem? (i := 18) rfl),
      fun i j h => settled_of_same (by decide) (noted_same py "checkpoint" (by simp [Tried]) h)⟩
  · exact ⟨aLog py, find?_dispatch (List.mem_of_getElem? (i := 19) rfl),
      fun i j h => settled_of_same (by decide) (noted_same py "log" (by simp [Tried]) h)⟩

/-- What `execute` does after a handler has failed. -/
def noteFailure (name : Text) (args : Dict) (exn : Exn) : Coro Unit := do
  .perform (.recordMeta "action.failed" [("name".toList, .str name), ("args".toList, .dict args)]
    (some exn))
  .raise exn

theorem noteFailure_fails (name : Text) (args : Dict)
    (answers : List Op → Op → Except Exn Value) (exn : Exn) :
    (noteFailure name args exn).Fails answers :=
  Coro.Fails.perform fun _ => rfl

/-- A list of one action runs its handler, and notes the failure of it. -/
theorem execute_singleton {py : PyText} {engine : Bool} {spec : Value} {name : Text} {args : Dict}
    {label : String} {handler : Handler} (hspec : normalizeAction py spec = .ok (name, args))
    (hentry : (dispatch py engine).find? (fun entry => entry.1.toList = name) =
      some (label, handler)) (hook : Hook) (event : Event) :
    execute py engine [spec] hook event =
      (handler ⟨inherited args hook event, hook, event⟩).tryCatch
        (noteFailure name (inherited args hook event)) := by
  change (executeOne py engine hook event spec >>= fun _ => pure ()) = _
  rw [Coro.bind_pure_unit]
  unfold executeOne
  simp only [hspec, hentry]
  rfl

/-- The two forms of an action are interchangeable for exactly these scalars. -/
theorem forms_interchangeable_iff {py : PyText} (hstr : ∀ s, py.str (.str s) = s)
    {form : String × String} (hform : form ∈ shorthandForms) {v : Value}
    (scalar : v.isScalar = true) (engine : Bool) (hook : Hook) (event : Event) :
    Interchangeable (execute py engine [shortForm form.1 v] hook event)
        (execute py engine [keyedForm form.1 form.2 v] hook event) ↔
      FormsAgree form.1 v := by
  have hkeys : ∀ form ∈ shorthandForms, form.1 ≠ "action" ∧ form.2 ≠ "action" ∧
      form.2 ≠ "phone_id" ∧ form.2 ≠ "call_id" := by decide
  obtain ⟨hname, hkey, hphone, hcall⟩ := hkeys form hform
  obtain ⟨handler, hentry, hsettled⟩ := exists_handler py engine hform scalar
  obtain ⟨hagree, hdiffer⟩ := hsettled _ _ (sameArgument v hook event hphone hcall)
  rw [execute_singleton (normalizeAction_shortForm py hname scalar) hentry,
    execute_singleton (normalizeAction_keyedForm hkey (hstr _) v) hentry]
  change Interchangeable ((handler (shortInput v hook event)).tryCatch _)
    ((handler (keyedInput v hook event form.2)).tryCatch _) ↔ _
  constructor
  · intro h
    by_contra hne
    obtain ⟨hok, hfail⟩ := hdiffer hne
    exact not_interchangeable_tryCatch (noteFailure_fails _ _ quiet) hok hfail
      (noteFailure_fails _ _ quiet) h
  · intro h
    rw [hagree h]
    exact interchangeable_tryCatch (noteFailure_fails _ _) (noteFailure_fails _ _) _

/-- A hook on the phone `alice`, and an event of its call 3. -/
def aliceHook : Hook :=
  ⟨"h".toList, [.ofString "user.go"], some "alice".toList, [], [], false, [], none⟩

def aliceEvent : Event := ⟨⟨"user.go".toList, .ofString "alice", .int 3, []⟩, 0⟩

/-- Rejecting with the code 603, in both forms. -/
theorem reject603_interchangeable :
    Interchangeable (execute .ascii false [shortForm "reject" (.int 603)] aliceHook aliceEvent)
      (execute .ascii false [keyedForm "reject" "code" (.int 603)] aliceHook aliceEvent) :=
  (forms_interchangeable_iff (fun _ => rfl) (show ("reject", "code") ∈ shorthandForms by decide)
    rfl false aliceHook aliceEvent).mpr ⟨fun h => absurd h (by decide),
      fun h => absurd h (by decide), fun _ => Value.noConfusion⟩

/-- The digit 0 is sent in the short form only, the call 0 is bridged in the short form only, and
only the short form of `reject` has a default. -/
theorem zero_not_interchangeable :
    (∀ form ∈ [("send_dtmf", "digits"), ("conference", "call_ids")],
      ¬Interchangeable (execute .ascii false [shortForm form.1 (.int 0)] aliceHook aliceEvent)
        (execute .ascii false [keyedForm form.1 form.2 (.int 0)] aliceHook aliceEvent)) ∧
    ¬Interchangeable (execute .ascii false [shortForm "reject" .null] aliceHook aliceEvent)
      (execute .ascii false [keyedForm "reject" "code" .null] aliceHook aliceEvent) := by
  have hends : ∀ {c c' : Coro Unit}, (c.run quiet []).2.isOk = true →
      (c'.run quiet []).2.isOk = false → ¬Interchangeable c c' := not_interchangeable
  refine ⟨fun form hform => ?_, hends (by decide +kernel) (by decide +kernel)⟩
  simp only [List.mem_cons, List.not_mem_nil, or_false] at hform
  rcases hform with rfl | rfl
  · exact hends (by decide +kernel) (by decide +kernel)
  · exact hends (by decide +kernel) (by decide +kernel)

end PjsuaMcp.Scenario
