import PjsuaMcp.Server.ToolSurface
import Mathlib.Data.List.Perm.Lattice

/-!
# Tools and the phones they act on

The function that is registered for a tool of a phone is closed over the phone
id. Adding and dropping phones binds and removes 22 names at a time; as a name
belongs to one phone and one action, each name stays bound to its own phone and to
nothing else.

## Implementation notes

A sequence of calls of `_add_phone_impl` and `_drop_phone_impl` may have
failing calls in it; an invalid phone id or transport is refused there.
-/

namespace PjsuaMcp.Server

open Sdp (Text)
open Library
open Calls (PhoneId PhoneConfig AddOutcome Sys)

/-- A call of `_add_phone_impl` or of `_drop_phone_impl`. -/
inductive Edit
  | add (phoneId transport : Yaml) (cfg : PhoneConfig) (out : AddOutcome)
  | drop (p : PhoneId) (hangupCalls : Bool)

/-- What the call leaves behind. -/
def State.edit {T : ToolTable} (lower : Text → Text) (st : State T) : Edit → State T
  | .add phoneId transport cfg out => (st.addPhoneImpl lower phoneId transport cfg out).2
  | .drop p hangupCalls => (st.dropPhoneImpl p hangupCalls).2

/-- The function behind a name. -/
def State.tool? {T : ToolTable} (st : State T) (name : Text) : Option Tool := T.bound st.tools name

/-- The server under calls of the two functions. -/
def boundServer (T : ToolTable) (lower : Text → Text) : GuardedSystem (State T) Edit where
  init := State.initial T
  enabled := fun _ _ => True
  step := State.edit lower

/-! ## Every name is bound to its own phone -/

/-- The function that belongs behind a name. -/
def Tool.Named (name : Text) : Tool → Prop
  | .static n => n ∈ staticTools ∧ n = name
  | .phone p action => action ∈ phoneActions ∧ toolName p action = name

/-- Names and functions fit, and the names are those of the registered phones. -/
structure WellBound {T : ToolTable} (st : State T) : Prop where
  agrees : Agrees st
  named : ∀ name tool, st.tool? name = some tool → tool.Named name

/-- The tools of a phone bear the names that they are bound under. -/
theorem named_phoneBindings {p : PhoneId} {name : Text} {tool : Tool}
    (h : (name, tool) ∈ phoneBindings p) : tool.Named name := by
  obtain ⟨action, haction, heq⟩ := List.mem_map.mp h
  cases heq
  exact ⟨haction, rfl⟩

section Named

variable {T : ToolTable} {st : State T}

theorem named_registerTools (h : ∀ name tool, st.tool? name = some tool → tool.Named name)
    (p : PhoneId) : ∀ name tool, (st.registerTools p).tool? name = some tool → tool.Named name := by
  intro name tool hget
  obtain hold | hnew := FunctionTable.bound_addAll_cases hget
  · exact h name tool hold
  · exact named_phoneBindings hnew

/-- The names that were noted for the phone are unbound. -/
theorem tool?_unregisterTools (st : State T) (p : PhoneId) (name : Text) :
    (st.unregisterTools p).tool? name =
      if name ∈ (st.phoneTools.get? p).getD [] then none else st.tool? name := by
  refine (FunctionTable.bound_removeAll _ _ _).trans ?_
  split_ifs <;> rfl

theorem named_unregisterTools (h : ∀ name tool, st.tool? name = some tool → tool.Named name)
    (p : PhoneId) :
    ∀ name tool, (st.unregisterTools p).tool? name = some tool → tool.Named name := by
  intro name tool hget
  rw [tool?_unregisterTools] at hget
  split_ifs at hget
  exact h name tool hget

end Named

namespace WellBound

variable {T : ToolTable} (lower : Text → Text) {st : State T}

theorem initial : WellBound (State.initial T) where
  agrees := agrees_initial
  named name tool hget := by
    obtain hold | hnew := FunctionTable.bound_addAll_cases hget
    · have hlisted := (T.mem_listed_iff _ _).mpr ⟨tool, hold⟩
      rw [T.listed_empty] at hlisted
      cases hlisted
    · obtain ⟨n, hn, heq⟩ := List.mem_map.mp hnew
      cases heq
      exact ⟨hn, rfl⟩

/-- Registering a phone binds its tools, or none if it fails. -/
theorem add (h : WellBound st) (phoneId transport : Yaml) (cfg : PhoneConfig) (out : AddOutcome) :
    WellBound (st.addPhoneImpl lower phoneId transport cfg out).2 where
  agrees := agrees_addPhoneImpl lower h.agrees phoneId transport cfg out
  named := by
    unfold State.addPhoneImpl
    cases validatePhoneId phoneId with
    | error e => exact h.named
    | ok p =>
        dsimp only
        have hgone : ∀ name tool,
            (if st.phoneTools.contains p then st.unregisterTools p else st).tool? name = some tool →
            tool.Named name := by
          split_ifs
          · exact named_unregisterTools h.named p
          · exact h.named
        generalize (if st.phoneTools.contains p then st.unregisterTools p else st) = st' at hgone ⊢
        cases registered (checkedOutcome lower transport out) with
        | error e => exact hgone
        | ok u => exact named_registerTools hgone p

/-- Dropping a phone unbinds its tools. -/
theorem drop (h : WellBound st) (p : PhoneId) (hangupCalls : Bool) :
    WellBound (st.dropPhoneImpl p hangupCalls).2 where
  agrees := agrees_dropPhoneImpl h.agrees p hangupCalls
  named := by
    unfold State.dropPhoneImpl
    split_ifs
    · exact named_unregisterTools h.named p
    · exact named_unregisterTools h.named p
    · exact h.named

/-- The tools stay well bound over every run. -/
theorem run (edits : List Edit) :
    WellBound ((boundServer T lower).run (State.initial T) edits) := by
  have hrun : ∀ st, WellBound st → WellBound ((boundServer T lower).run st edits) := by
    induction edits with
    | nil => exact fun _ h => h
    | cons edit rest ih =>
        intro st h
        cases edit with
        | add phoneId transport cfg out => exact ih _ (h.add lower phoneId transport cfg out)
        | drop p hangupCalls => exact ih _ (h.drop p hangupCalls)
  exact hrun _ initial

end WellBound

/-! ## The tool set -/

/-- The offered tools are the static ones and 22 for each registered phone, each bound to its own
phone. -/
structure OwnTools {T : ToolTable} (st : State T) : Prop where
  listed : ∀ name, name ∈ st.mcpTools ↔ ∃ tool, st.tool? name = some tool
  bound : ∀ name tool, st.tool? name = some tool ↔
    (name ∈ staticTools ∧ tool = .static name) ∨
    ∃ p ∈ phoneIds st.sys, ∃ action ∈ phoneActions,
      toolName p action = name ∧ tool = .phone p action
  count : st.mcpTools.length = staticTools.length + 22 * st.sys.phones.keys.length

theorem nodup_toolNames (p : PhoneId) : (toolNames p).Nodup := by
  have hactions : phoneActions.Nodup := by decide
  refine List.Nodup.map_on (fun a ha b hb heq => (toolName_inj ha hb heq).2) hactions

theorem length_toolNames (p : PhoneId) : (toolNames p).length = 22 := by
  rw [toolNames, List.length_map]
  rfl

namespace WellBound

variable {T : ToolTable} {st : State T}

/-- What is bound under a name of a phone or of the module. -/
theorem get?_eq_some_iff (h : WellBound st) (name : Text) (tool : Tool) :
    st.tool? name = some tool ↔ (name ∈ staticTools ∧ tool = .static name) ∨
      ∃ p ∈ phoneIds st.sys, ∃ action ∈ phoneActions,
        toolName p action = name ∧ tool = .phone p action := by
  have hoffered := h.agrees.offered name
  constructor
  · intro hget
    have hlisted := hoffered.mp ((T.mem_listed_iff _ name).mpr ⟨tool, hget⟩)
    have hnamed := h.named name tool hget
    cases tool with
    | static n =>
        obtain ⟨hstatic, rfl⟩ := hnamed
        exact .inl ⟨hstatic, rfl⟩
    | phone p action =>
        obtain ⟨haction, rfl⟩ := hnamed
        have hown : toolName p action ∈ toolNames p := mem_toolNames.mpr ⟨action, haction, rfl⟩
        rcases hlisted with hstatic | ⟨q, hq, hother⟩
        · exact (notMem_toolNames_of_static hstatic hown).elim
        · rw [← toolNames_disjoint hown hother] at hq
          exact .inr ⟨p, hq, action, haction, rfl, rfl⟩
  · intro hname
    have hkey : name ∈ st.mcpTools := by
      refine hoffered.mpr ?_
      rcases hname with ⟨hstatic, -⟩ | ⟨p, hp, action, haction, heq, -⟩
      · exact .inl hstatic
      · exact .inr ⟨p, hp, mem_toolNames.mpr ⟨action, haction, heq⟩⟩
    obtain ⟨tool', hget⟩ : ∃ tool', st.tool? name = some tool' := (T.mem_listed_iff _ name).mp hkey
    rw [hget, Option.some_inj]
    have hnamed := h.named name tool' hget
    rcases hname with ⟨hstatic, rfl⟩ | ⟨p, -, action, haction, rfl, rfl⟩
    · cases tool' with
      | static n => rw [hnamed.2]
      | phone q other =>
          exact (notMem_toolNames_of_static hstatic
            (mem_toolNames.mpr ⟨other, hnamed.1, hnamed.2⟩)).elim
    · cases tool' with
      | static n =>
          have hown : toolName p action ∈ toolNames p := mem_toolNames.mpr ⟨action, haction, rfl⟩
          exact (notMem_toolNames_of_static (hnamed.2 ▸ hnamed.1) hown).elim
      | phone q other =>
          obtain ⟨rfl, rfl⟩ := toolName_inj hnamed.1 haction hnamed.2
          rfl

/-- Each phone adds its 22 tools to the static ones. -/
theorem length_mcpTools (h : WellBound st) :
    st.mcpTools.length = staticTools.length + 22 * st.sys.phones.keys.length := by
  have hphones : st.sys.phones.keys.Nodup := st.sys.phones.nodup_keys
  have hnames : (st.sys.phones.keys.flatMap toolNames).Nodup := by
    rw [List.nodup_flatMap]
    refine ⟨fun p _ => nodup_toolNames p, hphones.imp fun hne name hp hq => ?_⟩
    exact hne (toolNames_disjoint hp hq)
  have hall : (staticTools ++ st.sys.phones.keys.flatMap toolNames).Nodup := by
    refine List.nodup_append.mpr ⟨by decide, hnames, ?_⟩
    rintro name hstatic other hother rfl
    obtain ⟨p, -, hp⟩ := List.mem_flatMap.mp hother
    exact notMem_toolNames_of_static hstatic hp
  have hlisted : st.mcpTools.Nodup := T.nodup_listed _
  have hperm : st.mcpTools.Perm (staticTools ++ st.sys.phones.keys.flatMap toolNames) := by
    refine (List.perm_ext_iff_of_nodup hlisted hall).mpr fun name => ?_
    rw [h.agrees.offered, List.mem_append, List.mem_flatMap]
    rfl
  rw [hperm.length_eq, List.length_append, List.length_flatMap]
  have hlength : ∀ p, (toolNames p).length = 22 := length_toolNames
  simp only [hlength, List.map_const', List.sum_replicate_nat]
  rw [Nat.mul_comm]

theorem ownTools (h : WellBound st) : OwnTools st where
  listed := T.mem_listed_iff _
  bound := h.get?_eq_some_iff
  count := h.length_mcpTools

/-- Dropping a phone removes its own tools. -/
theorem tool?_drop (h : WellBound st) (p : PhoneId) (hangupCalls : Bool) (name : Text) :
    (st.dropPhoneImpl p hangupCalls).2.tool? name =
      if name ∈ toolNames p then none else st.tool? name := by
  by_cases hp : p ∈ phoneIds st.sys
  · have hcontains : st.sys.phones.contains p = true :=
      (st.sys.phones.contains_iff p).mpr ((st.sys.phones.mem_keys_iff p).mp hp)
    have hgone := tool?_unregisterTools st p name
    rw [h.agrees.known_names hp] at hgone
    unfold State.dropPhoneImpl
    rw [if_pos hcontains, ← hgone]
    split_ifs <;> rfl
  · have hcontains : ¬st.sys.phones.contains p = true := fun hknown =>
      hp ((st.sys.phones.mem_keys_iff p).mpr ((st.sys.phones.contains_iff p).mp hknown))
    unfold State.dropPhoneImpl
    rw [if_neg hcontains]
    split_ifs with hname
    · apply (FunctionTable.bound_eq_none_iff _ name).mpr
      rw [← State.mcpTools, h.agrees.offered]
      rintro (hstatic | ⟨q, hq, hother⟩)
      · exact notMem_toolNames_of_static hstatic hname
      · exact hp (toolNames_disjoint hname hother ▸ hq)
    · rfl

end WellBound

/-- A tool name belongs to one phone and one action and to no static tool. After any sequence of
adds and drops the tools are the static ones and those of the registered phones, each bound to its
own phone, and one more drop removes the tools of its phone and no others. -/
theorem tools_bound (T : ToolTable) (lower : Text → Text) :
    (∀ p q a b, isPhoneId p.toList = true → isPhoneId q.toList = true → a ∈ phoneActions →
      b ∈ phoneActions → toolName p a = toolName q b → p = q ∧ a = b) ∧
    (∀ p a, isPhoneId p.toList = true → a ∈ phoneActions → toolName p a ∉ staticTools) ∧
    ∀ edits,
      OwnTools ((boundServer T lower).run (State.initial T) edits) ∧
      ∀ p hangupCalls name,
        ((boundServer T lower).run (State.initial T) (edits ++ [.drop p hangupCalls])).tool? name =
          if name ∈ toolNames p then none
          else ((boundServer T lower).run (State.initial T) edits).tool? name := by
  refine ⟨fun p q a b _ _ ha hb => toolName_inj ha hb, fun p a _ ha hstatic => ?_, fun edits => ?_⟩
  · exact notMem_toolNames_of_static hstatic (mem_toolNames.mpr ⟨a, ha, rfl⟩)
  · have h := WellBound.run (T := T) lower edits
    refine ⟨h.ownTools, fun p hangupCalls name => ?_⟩
    rw [GuardedSystem.run_concat]
    exact h.tool?_drop p hangupCalls name

/-- The phones `a` and `a_b`: the tools of `a_b` outlive the drop of `a`. -/
theorem underscored_tools_bound :
    let server := boundServer (.dictionary Text Tool) id
    let added : List Edit := ["a", "a_b"].map fun p =>
      .add (.str p.toList) (.str "udp".toList) { domain := "d" } ⟨some 1, true⟩
    toolName "a_b" "hold".toList ≠ toolName "a" "unhold".toList ∧
    (server.run (State.initial _) (added ++ [.drop "a" true])).tool?
      (toolName "a_b" "hold".toList) = some (.phone "a_b" "hold".toList) := by
  obtain ⟨hinj, -, hruns⟩ := tools_bound (.dictionary Text Tool) id
  dsimp only
  refine ⟨fun heq => ?_, ?_⟩
  · have hboth := hinj "a_b" "a" _ _ (by decide) (by decide) (by decide) (by decide) heq
    exact absurd hboth.1 (by decide)
  · obtain ⟨hown, hdrop⟩ := hruns (["a", "a_b"].map fun p =>
      .add (.str p.toList) (.str "udp".toList) { domain := "d" } ⟨some 1, true⟩)
    rw [hdrop, if_neg (by decide), hown.bound]
    refine .inr ⟨"a_b", ?_, "hold".toList, by decide, rfl, rfl⟩
    change "a_b" ∈ OrderedDict.keys _
    decide

end PjsuaMcp.Server
