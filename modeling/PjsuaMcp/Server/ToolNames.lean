import PjsuaMcp.Sdp.Syntax
import PjsuaMcp.Calls.State

/-!
# Names of the tools

Every registered phone has one tool for each of the per-phone actions, named
`<phone_id>_<action>`, beside the tools that are always there. Phone ids may
contain underscores, so that such a name can be split in several places; the
actions are such that only one of the splits ends in an action.
-/

namespace PjsuaMcp.Server

open Sdp (Text)
open Calls (PhoneId)

/-- The actions of `register_phone_tools`, in the order in which it adds them. -/
def phoneActions : List Text :=
  ["make_call".toList, "answer_call".toList, "reject_call".toList, "hangup".toList,
    "get_call_info".toList, "list_calls".toList, "get_active_calls".toList,
    "get_call_history".toList, "hold".toList, "unhold".toList, "send_dtmf".toList,
    "blind_transfer".toList, "attended_transfer".toList, "conference".toList,
    "play_audio".toList, "stop_audio".toList, "get_recording".toList, "send_message".toList,
    "get_messages".toList, "get_registration_status".toList, "unregister".toList,
    "register".toList]

/-- The tools that are registered when the module is loaded. -/
def staticTools : List Text :=
  ["list_phones".toList, "add_phone".toList, "drop_phone".toList, "get_phone".toList,
    "update_phone".toList, "load_phones".toList, "get_sip_log".toList,
    "get_call_messages".toList, "list_recordings".toList, "analyze_capture".toList,
    "validate_scenario".toList, "run_scenario".toList]

/-- `f"{phone_id}_{action}"`. -/
def toolName (p : PhoneId) (action : Text) : Text := p.toList ++ '_' :: action

/-- The tool names of a phone. -/
def toolNames (p : PhoneId) : List Text := phoneActions.map (toolName p)

/-- `RESERVED_ACTIONS` of `_validate_phone_id`. -/
def reservedActions : List Text :=
  ["make_call".toList, "answer_call".toList, "reject_call".toList, "hangup".toList,
    "get_call_info".toList, "get_call_history".toList, "list_calls".toList,
    "get_active_calls".toList, "send_dtmf".toList, "hold".toList, "unhold".toList,
    "blind_transfer".toList, "attended_transfer".toList, "conference".toList,
    "play_audio".toList, "stop_audio".toList, "get_recording".toList, "send_message".toList,
    "get_messages".toList, "get_registration_status".toList, "register".toList,
    "unregister".toList]

/-- `static_tool_names` of `_validate_phone_id`. -/
def guardedTools : List Text :=
  ["add_phone".toList, "drop_phone".toList, "list_phones".toList, "get_phone".toList,
    "update_phone".toList, "load_phones".toList, "get_sip_log".toList,
    "list_recordings".toList]

/-- `[a-z0-9_]`. -/
def isIdChar (c : Char) : Bool :=
  ('a' ≤ c && c ≤ 'z') || ('0' ≤ c && c ≤ '9') || c = '_'

/-- The texts that `_validate_phone_id` lets pass. -/
def isPhoneId (p : Text) : Bool :=
  (1 ≤ p.length && p.length ≤ 32 && p.all isIdChar) &&
    reservedActions.all fun action => p ++ '_' :: action ∉ guardedTools

theorem ne_empty_of_isPhoneId {p : PhoneId} (h : isPhoneId p.toList = true) : p ≠ "" := by
  rintro rfl
  revert h
  decide

/-! ## A name belongs to one phone and one action -/

/-- An action with its underscore ends no other one. -/
theorem action_of_suffix {a b : Text} (ha : a ∈ phoneActions) (hb : b ∈ phoneActions)
    (h : '_' :: a <:+ '_' :: b) : a = b := by
  have hall : phoneActions.all (fun a => phoneActions.all fun b =>
      !('_' :: a).isSuffixOf ('_' :: b) || a = b) = true := by decide
  have hboth := List.all_eq_true.mp (List.all_eq_true.mp hall a ha) b hb
  rw [List.isSuffixOf_iff_suffix.mpr h] at hboth
  exact of_decide_eq_true hboth

/-- No two tools have one name. -/
theorem toolName_inj {p q : PhoneId} {a b : Text} (ha : a ∈ phoneActions)
    (hb : b ∈ phoneActions) (h : toolName p a = toolName q b) : p = q ∧ a = b := by
  have hab : a = b := by
    have hsuffix : '_' :: a <:+ q.toList ++ '_' :: b := ⟨p.toList, h⟩
    rcases List.suffix_or_suffix_of_suffix hsuffix (List.suffix_append _ _) with hends | hends
    · exact action_of_suffix ha hb hends
    · exact (action_of_suffix hb ha hends).symm
  subst hab
  exact ⟨String.toList_inj.mp (List.append_cancel_right h), rfl⟩

theorem mem_toolNames {p : PhoneId} {name : Text} :
    name ∈ toolNames p ↔ ∃ action ∈ phoneActions, toolName p action = name :=
  List.mem_map

/-- Two phones share no tool name. -/
theorem toolNames_disjoint {p q : PhoneId} {name : Text} (hp : name ∈ toolNames p)
    (hq : name ∈ toolNames q) : p = q := by
  obtain ⟨a, ha, rfl⟩ := mem_toolNames.mp hp
  obtain ⟨b, hb, hname⟩ := mem_toolNames.mp hq
  exact (toolName_inj hb ha hname).1.symm

/-- No static tool ends in an action. -/
theorem notMem_toolNames_of_static {p : PhoneId} {name : Text} (h : name ∈ staticTools) :
    name ∉ toolNames p := by
  intro hmem
  obtain ⟨action, haction, rfl⟩ := mem_toolNames.mp hmem
  have hall : staticTools.all (fun name => phoneActions.all fun action =>
      !('_' :: action).isSuffixOf name) = true := by decide
  have hends := List.all_eq_true.mp (List.all_eq_true.mp hall _ h) action haction
  rw [toolName, List.isSuffixOf_iff_suffix.mpr (List.suffix_append p.toList _)] at hends
  cases hends

end PjsuaMcp.Server
