import PjsuaMcp.Scenario.HookRuntime
import PjsuaMcp.Library.Matching

/-!
# The actions of a scenario

`ActionExecutor.execute` and its handlers, as coroutines: what they ask the
loop, the bus, the recorder and the executor threads to do, and how they go on
from each answer.

## Implementation notes

An operation that is answered with an exception raises it in the handler. The
record of a failed action keeps the exception where the source keeps its text.
-/

namespace PjsuaMcp.Scenario

open Library

/-- A function that a handler hands to `_run_pj`. -/
inductive PjCall
  | answerCall (phoneId callId : Value) (statusCode : Int)
  | hangup (phoneId callId : Value)
  | hangupAll (phoneId : Value)
  | rejectCall (phoneId callId : Value) (statusCode : Int)
  | hold (callId phoneId : Value)
  | unhold (callId phoneId : Value)
  | sendDtmf (callId : Value) (digits : Text) (phoneId : Value)
  | blindTransfer (destUri phoneId callId : Value)
  | attendedTransfer (phoneId callId destCallId : Value)
  | getActiveCalls (phoneId : Value)
  | conference (callIds : List Int) (phoneId : Value)
  | makeCall (destUri phoneId headers : Value)
  | playAudio (filePath : Text) (phoneId callId : Value) (loop : Bool)
  | stopAudio (phoneId callId : Value)
  | sendMessage (destUri body phoneId contentType : Value)
  | setCodecs (codecs : List Text)

inductive Op
  | recordAction (action : String) (phoneId callId : Value) (data : Dict)
      (hookId patternName : Text)
  | recordMeta (type : String) (data : Dict) (error : Option Exn)
  | runPj (call : PjCall)
  | sleep (ms : Int)
  | waitFor (eventType : Value) (phoneId : Value) (timeoutMs : Int)
  | emit (body : EventBody)

/-- A coroutine up to its end: every operation is answered by a value or an exception. -/
inductive Coro (α : Type)
  | pure (a : α)
  | raise (exn : Exn)
  | call (op : Op) (k : Except Exn Value → Coro α)

namespace Coro

def bind {α β : Type} : Coro α → (α → Coro β) → Coro β
  | pure a, f => f a
  | raise exn, _ => raise exn
  | call op k, f => call op fun answer => (k answer).bind f

instance : Monad Coro where
  pure := Coro.pure
  bind := Coro.bind

/-- `try: … except Exception as exn: …`. -/
def tryCatch {α : Type} : Coro α → (Exn → Coro α) → Coro α
  | pure a, _ => pure a
  | raise exn, f => f exn
  | call op k, f => call op fun answer => (k answer).tryCatch f

/-- Wait for the answer, and raise it when it is an exception. -/
def await (op : Op) : Coro Value :=
  call op fun
    | .ok v => pure v
    | .error exn => raise exn

def perform (op : Op) : Coro Unit := do
  let _ ← await op

def ofOption {α : Type} (exn : Exn) : Option α → Coro α
  | some a => pure a
  | none => raise exn

end Coro

/-! ## Action specs -/

/-- `normalize_action`: the name of the action and its arguments. -/
def normalizeAction (py : PyText) : Value → Except Exn (Text × Dict)
  | .str s => .ok (s, [])
  | .dict entries =>
      match Dict.get? entries "action" with
      | some name => .ok (py.str name, entries.filter fun e => e.1 ≠ "action".toList)
      | none =>
          match entries with
          | [(name, .null)] => .ok (name, [])
          | [(name, .dict args)] => .ok (name, args)
          | [(name, v)] => .ok (name, [("value".toList, v)])
          | _ => .error (.actionError
              ("ambiguous action spec (no `action:` key): ".toList ++ py.repr (.dict entries)))
  | v => .error (.actionError ("unsupported action spec type: ".toList ++ v.typeName))

/-- The two regular expressions of `_parse_ms`, and a bare numeral. -/
def parseMsText (py : PyText) (s : Text) : Option Int :=
  let stop : Matcher Char Unit := .ahead fun rest => rest = []
  let ms : Matcher Char Text := do
    let n ← .many1 py.isDigit
    let _ ← .many py.isSpace
    .lit "ms".toList
    stop
    return n
  let decimal : Matcher Char Text := do
    let n ← .many1 py.isDigit
    .lit ['.']
    let fraction ← .many1 py.isDigit
    let _ ← .many py.isSpace
    .lit ['s']
    stop
    return n ++ '.' :: fraction
  let seconds : Matcher Char Text := do
    let n ← .many1 py.isDigit
    let _ ← .many py.isSpace
    .lit ['s']
    stop
    return n
  match ms.run s with
  | some n => py.int n
  | none => ((decimal.run s).or (seconds.run s)).map py.secondsToMs |>.or (py.int s)

/-- `_parse_ms`: a duration in milliseconds. -/
def parseMs (py : PyText) (v : Value) : Except Exn Int :=
  match v with
  | .str s =>
      let s := py.strip s
      match parseMsText py s with
      | some ms => .ok ms
      | none => .error (.actionError ("cannot parse duration: ".toList ++ py.repr (.str s)))
  | .null | .list _ | .dict _ =>
      .error (.actionError ("unsupported duration value: ".toList ++ py.repr v))
  | v => .ok ((py.toInt v).getD 0)

/-! ## Handlers -/

/-- What every handler reads: its arguments, the hook and the event. -/
structure HandlerInput where
  args : Dict
  hook : Hook
  event : Event

abbrev Handler := HandlerInput → Coro Unit

namespace HandlerInput

/-- `args["phone_id"]`; `execute` has put it there. -/
def phoneId (i : HandlerInput) : Value := i.args.get "phone_id"

/-- `args.get("call_id")`. -/
def callId (i : HandlerInput) : Value := i.args.get "call_id"

/-- The first of several arguments that is true, else the last. -/
def firstOf (i : HandlerInput) : List String → Value
  | [] => .null
  | [key] => i.args.get key
  | key :: rest => (i.args.get key).or (i.firstOf rest)

/-- `record_action` with the hook's id and pattern. -/
def record (i : HandlerInput) (action : String) (phoneId callId : Value) (data : Dict) :
    Coro Unit :=
  .perform (.recordAction action phoneId callId data i.hook.hookId i.hook.patternName)

end HandlerInput

section Handlers

variable (py : PyText)

/-- `raise ActionError(message)`. -/
def actionError {α : Type} (message : String) : Coro α := .raise (.actionError message.toList)

/-- `int(v)`. -/
def intOf (v : Value) : Coro Int := .ofOption .builtin (py.toInt v)

/-- A handler that records the action for one call and then runs one function. -/
def recordedCall (action : String) (data : Dict) (call : Value → Value → PjCall) : Handler :=
  fun i => do
    i.record action i.phoneId i.callId data
    .perform (.runPj (call i.phoneId i.callId))

def aAnswer : Handler := fun i => do
  let code ← intOf py (i.args.getOr "code" (.int 200))
  recordedCall "answer" [("status_code".toList, .int code)] (.answerCall · · code) i

def aHangup : Handler := recordedCall "hangup" [] .hangup

def aHangupAll : Handler := fun i => do
  i.record "hangup_all" i.phoneId .null []
  .perform (.runPj (.hangupAll i.phoneId))

def aReject : Handler := fun i => do
  let code ← intOf py (i.args.getOr "code" (i.args.getOr "value" (.int 486)))
  recordedCall "reject" [("status_code".toList, .int code)] (.rejectCall · · code) i

/-- `args["call_id"]`. -/
def HandlerInput.requireCallId (i : HandlerInput) : Coro Value :=
  .ofOption .builtin (i.args.get? "call_id")

def aHold : Handler := fun i => do
  let cid ← i.requireCallId
  i.record "hold" i.phoneId cid []
  .perform (.runPj (.hold cid i.phoneId))

def aUnhold : Handler := fun i => do
  let cid ← i.requireCallId
  i.record "unhold" i.phoneId cid []
  .perform (.runPj (.unhold cid i.phoneId))

def aSendDtmf : Handler := fun i => do
  let digits := i.firstOf ["digits", "value"]
  if digits.isNull then actionError "send_dtmf requires `digits`" else
  let digits := py.str digits
  let data := [("digits".toList, .str digits)]
  recordedCall "send_dtmf" data (fun pid cid => .sendDtmf cid digits pid) i
  .perform (.emit ⟨"dtmf.out".toList, i.phoneId, i.callId,
    data ++ [("method".toList, .ofString "rfc2833")]⟩)

def aBlindTransfer : Handler := fun i => do
  let dest := i.firstOf ["to", "dest_uri", "value"]
  if !dest.truthy then actionError "blind_transfer requires `to` (or dest_uri)" else
  recordedCall "blind_transfer" [("to".toList, dest)] (.blindTransfer dest) i

def aAttendedTransfer : Handler := fun i => do
  let dest := i.firstOf ["dest_call_id", "target_call_id"]
  recordedCall "attended_transfer" [("dest_call_id".toList, dest)] (.attendedTransfer · · dest) i

/-- The ids of the active calls that `get_active_calls` has returned. -/
def activeCallIds (active : Value) : Coro (List Int) := do
  let calls ← Coro.ofOption .builtin active.elements?
  calls.mapM fun
    | .dict call => do
        let cid ← Coro.ofOption .builtin (Dict.get? call "call_id")
        intOf py cid
    | _ => .raise .builtin

def aConference : Handler := fun i => do
  let callIds := i.firstOf ["call_ids", "value"]
  let cids ←
    if callIds.isNull || callIds.eq (.ofString "auto") || callIds.eq (.str []) then do
      let active ← Coro.await (.runPj (.getActiveCalls i.phoneId))
      let cids ← activeCallIds py active
      if cids.length < 2 then
        Coro.raise (.actionError ("conference auto: need ≥2 active calls on ".toList ++
          py.str i.phoneId ++ ", got ".toList ++ cids.length.repr.toList))
      else pure cids
    else
      match callIds with
      | .list xs => xs.mapM (intOf py)
      | v => do
          let cid ← intOf py v
          pure [cid]
  i.record "conference" i.phoneId .null [("call_ids".toList, .list (cids.map .int))]
  .perform (.runPj (.conference cids i.phoneId))

def aMakeCall : Handler := fun i => do
  let pid := i.firstOf ["phone_id", "from_phone"]
  if !pid.truthy then actionError "make_call requires phone_id (or from_phone)" else
  let dest := i.firstOf ["to", "dest_uri", "value"]
  if !dest.truthy then actionError "make_call requires `to` (or dest_uri)" else
  let headers := (i.args.get "headers").or .null
  i.record "make_call" pid .null [("dest_uri".toList, dest)]
  .perform (.runPj (.makeCall dest pid headers))

def aPlayAudio : Handler := fun i => do
  let path := i.firstOf ["file", "path", "file_path", "value"]
  if !path.truthy then actionError "play_audio requires `file` (or file_path/path)" else
  let loop := (i.args.get "loop").truthy
  let path := py.str path
  recordedCall "play_audio" [("file".toList, .str path), ("loop".toList, .bool loop)]
    (.playAudio path · · loop) i

def aStopAudio : Handler := recordedCall "stop_audio" [] .stopAudio

def aSendMessage : Handler := fun i => do
  let dest := i.firstOf ["to", "dest_uri"]
  let body := i.firstOf ["body", "value"]
  if !dest.truthy then actionError "send_message requires `to` (or dest_uri)" else
  if body.isNull then actionError "send_message requires `body` (or value)" else
  let ct := i.args.getOr "content_type" (.ofString "text/plain")
  i.record "send_message" i.phoneId .null
    [("to".toList, dest), ("body".toList, body), ("content_type".toList, ct)]
  .perform (.runPj (.sendMessage dest body i.phoneId ct))

def aSetCodecs (engine : Bool) : Handler := fun i => do
  if !engine then actionError "set_codecs: SipEngine not wired into ActionExecutor" else
  let codecs := i.firstOf ["codecs", "value"]
  if !codecs.truthy then actionError "set_codecs requires `codecs`" else
  let codecs ← match codecs with
    | .str s => pure [s]
    | v => do
        let xs ← Coro.ofOption .builtin v.elements?
        pure (xs.map py.str)
  let pid := i.args.get "phone_id"
  i.record "set_codecs" pid i.callId [("codecs".toList, .list (codecs.map .str))]
  .perform (.runPj (.setCodecs codecs))
  if pid.truthy && !i.callId.isNull then
    let cid ← intOf py i.callId
    .perform (.runPj (.unhold (.int cid) pid))

/-- `_parse_ms` in a handler. -/
def durationOf (v : Value) : Coro Int :=
  match parseMs py v with
  | .ok ms => pure ms
  | .error exn => .raise exn

def aWait : Handler := fun i => do
  let raw := if (i.args.get? "ms").isSome then i.args.get "ms" else i.args.get "value"
  let ms ← durationOf py (if raw.isNull then .int 0 else raw)
  i.record "wait" i.phoneId i.callId [("ms".toList, .int ms)]
  .perform (.sleep ms)

def aWaitUntil : Handler := fun i => do
  let eventType := i.firstOf ["event", "value"]
  if !eventType.truthy then actionError "wait_until requires `event` (or value)" else
  let timeoutMs ← durationOf py (i.args.getOr "timeout_ms" (.int 10000))
  i.record "wait_until" i.phoneId i.callId
    [("event".toList, eventType), ("timeout_ms".toList, .int timeoutMs)]
  .perform (.waitFor eventType i.phoneId timeoutMs)

def aEmit : Handler := fun i => do
  let name := i.firstOf ["name", "value"]
  if !name.truthy then actionError "emit requires `name` (or value)" else
  let data ← Coro.ofOption .builtin ((i.args.get "data").or (.dict [])).toDict?
  .perform (.emit ⟨"user.".toList ++ py.str name, i.args.get "phone_id", .null, data⟩)

/-- A handler that only writes one text into the timeline. -/
def noted (type key : String) (keys : List String) : Handler := fun i =>
  let text := (i.firstOf keys).or (.str [])
  .perform (.recordMeta type
    [(key.toList, .str (py.str text)), ("hook_id".toList, .str i.hook.hookId)] none)

def aCheckpoint : Handler := noted py "checkpoint" "label" ["label", "value"]

def aLog : Handler := noted py "log" "message" ["message", "value"]

/-- `_dispatch`. -/
def dispatch (engine : Bool) : List (String × Handler) :=
  [("answer", aAnswer py), ("hangup", aHangup), ("hangup_all", aHangupAll),
    ("reject", aReject py), ("hold", aHold), ("unhold", aUnhold), ("send_dtmf", aSendDtmf py),
    ("blind_transfer", aBlindTransfer), ("attended_transfer", aAttendedTransfer),
    ("conference", aConference py), ("make_call", aMakeCall), ("play_audio", aPlayAudio py),
    ("stop_audio", aStopAudio), ("send_message", aSendMessage),
    ("set_codecs", aSetCodecs py engine), ("wait", aWait py), ("wait_until", aWaitUntil py),
    ("emit", aEmit py), ("checkpoint", aCheckpoint py), ("log", aLog py)]

/-- The defaults that an action inherits from its hook and its event. -/
def inherited (args : Dict) (hook : Hook) (event : Event) : Dict :=
  let args :=
    if (args.get? "phone_id").isSome then args
    else args.set "phone_id" (((hook.onPhone.map Value.str).getD .null).or event.phoneId)
  if (args.get? "call_id").isSome || event.callId.isNull then args
  else args.set "call_id" event.callId

/-- One turn of the loop of `execute`. -/
def executeOne (engine : Bool) (hook : Hook) (event : Event) (spec : Value) : Coro Unit :=
  match normalizeAction py spec with
  | .error exn => do
      .perform (.recordMeta "action.error" [("spec".toList, spec)] (some exn))
      .raise exn
  | .ok (name, args) =>
      let args := inherited args hook event
      let noting := [("name".toList, .str name), ("args".toList, .dict args)]
      match (dispatch py engine).find? fun entry => entry.1.toList = name with
      | none => do
          .perform (.recordMeta "action.unknown" noting none)
          .raise (.actionError ("unknown action: ".toList ++ name))
      | some (_, handler) =>
          (handler ⟨args, hook, event⟩).tryCatch fun exn => do
            .perform (.recordMeta "action.failed" noting (some exn))
            .raise exn

/-- `execute`: the actions in order, up to the first that raises. -/
def execute (engine : Bool) (actions : List Value) (hook : Hook) (event : Event) : Coro Unit :=
  actions.foldr (fun spec rest => do executeOne py engine hook event spec; rest) (pure ())

end Handlers

/-! ## The handler of a name -/

theorem find?_of_nodup_keys {β : Type} {entries : List (String × β)}
    (hnodup : (entries.map Prod.fst).Nodup) {entry : String × β} (hentry : entry ∈ entries) :
    entries.find? (fun e => e.1.toList = entry.1.toList) = some entry := by
  induction entries with
  | nil => cases hentry
  | cons first rest ih =>
      rw [List.map_cons, List.nodup_cons] at hnodup
      rcases List.mem_cons.mp hentry with rfl | hrest
      · exact List.find?_cons_of_pos (decide_eq_true rfl)
      · have hne : first.1.toList ≠ entry.1.toList := fun heq =>
          hnodup.1 (String.toList_inj.mp heq ▸ List.mem_map_of_mem hrest)
        rw [List.find?_cons_of_neg (by simpa using hne)]
        exact ih hnodup.2 hrest

/-- Each handler is found under its own name. -/
theorem find?_dispatch {py : PyText} {engine : Bool} {entry : String × Handler}
    (hentry : entry ∈ dispatch py engine) :
    (dispatch py engine).find? (fun e => e.1.toList = entry.1.toList) = some entry := by
  refine find?_of_nodup_keys ?_ hentry
  have hnames : (dispatch py engine).map Prod.fst = ["answer", "hangup", "hangup_all", "reject",
      "hold", "unhold", "send_dtmf", "blind_transfer", "attended_transfer", "conference",
      "make_call", "play_audio", "stop_audio", "send_message", "set_codecs", "wait", "wait_until",
      "emit", "checkpoint", "log"] := rfl
  rw [hnames]
  decide

/-! ## Inherited arguments -/

theorem lookup_map_of_ne {d : Dict} {key k : Text} (v : Value) (hne : k ≠ key) :
    (d.map fun e => if e.1 = key then (key, v) else e).lookup k = d.lookup k := by
  induction d with
  | nil => rfl
  | cons e rest ih =>
      obtain ⟨k', w⟩ := e
      by_cases hk' : k' = key
      · have hkey : (k == key) = false := by simpa using hne
        simp [List.lookup_cons, hk', hkey, ih]
      · simp only [List.map_cons, hk', if_false, List.lookup_cons, ih]

theorem Dict.get?_set_of_ne {d : Dict} {key k : String} (v : Value) (hne : k ≠ key) :
    (d.set key v).get? k = d.get? k := by
  have hlist : k.toList ≠ key.toList := fun h => hne (String.toList_inj.mp h)
  unfold Dict.set Dict.insert Dict.get?
  split_ifs
  · exact lookup_map_of_ne v hlist
  · rw [List.lookup_append]
    have hkey : (k.toList == key.toList) = false := by simpa using hlist
    simp [List.lookup_cons, hkey]

/-- Setting a key that was free. -/
theorem Dict.get?_set_of_none {d : Dict} {key : String} (v : Value) (hnone : d.get? key = none) :
    (d.set key v).get? key = some v := by
  unfold Dict.get? at hnone ⊢
  rw [Dict.set, Dict.insert, hnone]
  simp [List.lookup_append, hnone]

/-- Only the phone and the call are inherited. -/
theorem get?_inherited_of_ne {args : Dict} (hook : Hook) (event : Event) {key : String}
    (hphone : key ≠ "phone_id") (hcall : key ≠ "call_id") :
    (inherited args hook event).get? key = args.get? key := by
  unfold inherited
  dsimp only
  split_ifs
  · rfl
  · rw [Dict.get?_set_of_ne _ hcall]
  · rw [Dict.get?_set_of_ne _ hphone]
  · rw [Dict.get?_set_of_ne _ hcall, Dict.get?_set_of_ne _ hphone]

/-- Only the phone and the call are inherited. -/
theorem get_inherited_of_ne {args : Dict} (hook : Hook) (event : Event) {key : String}
    (hphone : key ≠ "phone_id") (hcall : key ≠ "call_id") :
    (inherited args hook event).get key = args.get key := by
  rw [Dict.get, get?_inherited_of_ne hook event hphone hcall, Dict.get]

/-- The phone is the action's own, else the hook's, else the event's. -/
theorem get_inherited_phoneId (args : Dict) (hook : Hook) (event : Event) :
    (inherited args hook event).get "phone_id" =
      if (args.get? "phone_id").isSome then args.get "phone_id"
      else ((hook.onPhone.map Value.str).getD .null).or event.phoneId := by
  have hne : "phone_id" ≠ "call_id" := by decide
  unfold inherited Dict.get
  dsimp only
  cases hphone : args.get? "phone_id" with
  | some v =>
      split_ifs <;> simp_all [Dict.get?_set_of_ne]
  | none =>
      split_ifs <;> simp_all [Dict.get?_set_of_ne, Dict.get?_set_of_none]

/-- The call is the action's own, else the event's. -/
theorem get_inherited_callId (args : Dict) (hook : Hook) (event : Event) :
    (inherited args hook event).get "call_id" =
      if (args.get? "call_id").isSome then args.get "call_id" else event.callId := by
  have hne : "call_id" ≠ "phone_id" := by decide
  let args' : Dict :=
    if (args.get? "phone_id").isSome then args
    else args.set "phone_id" (((hook.onPhone.map Value.str).getD .null).or event.phoneId)
  have hargs' : args'.get? "call_id" = args.get? "call_id" := by
    change (if _ then _ else _ : Dict).get? _ = _
    split_ifs
    · rfl
    · exact Dict.get?_set_of_ne _ hne
  change Dict.get (if (args'.get? "call_id").isSome || event.callId.isNull then args'
    else args'.set "call_id" event.callId) "call_id" = _
  unfold Dict.get
  cases hcall : args.get? "call_id" with
  | some v => simp [hargs', hcall]
  | none =>
      rw [hcall] at hargs'
      cases hnull : event.callId.isNull with
      | true =>
          have heq : event.callId = .null := by
            revert hnull
            cases event.callId <;> simp [Value.isNull]
          simp [hargs', heq]
      | false => simp [hargs', Dict.get?_set_of_none]

end PjsuaMcp.Scenario
