import PjsuaMcp.Server.ConcurrentLoads
import PjsuaMcp.Calls.PhoneParts
import Mathlib.Data.List.Find

/-!
# The roster after a load

What a profile asks for is read off its document here, without the loader: its
phones, and for each of them the configuration with the defaults of the profile
under the values of the entry. A load without errors makes the registry this
roster, in merge mode beside the phones that the profile does not name. Those
keep all that the server has for them.

## Implementation notes

The state before the load is any state of a running server, in which calls come
and go between the tools. `runningServer` lets the methods of the registry
happen by themselves as well, without the tools around them.
-/

namespace PjsuaMcp.Server

open Sdp (Text)
open Library
open Calls (PhoneId PhoneConfig PhonePart AddOutcome Sys)

/-! ## What a profile asks for -/

namespace Yaml

/-- The entries of a mapping. -/
def entries : Yaml → Mapping
  | map entries => entries
  | _ => []

/-- The items of a sequence. -/
def items : Yaml → List Yaml
  | list xs => xs
  | _ => []

/-- The number that a port is given as. -/
def port : Yaml → Int
  | int n => n
  | bool b => if b then 1 else 0
  | _ => 0

end Yaml

namespace ProfileFile

/-- A section at the top of the document. -/
def topLevel (file : ProfileFile) (name : String) : Yaml :=
  match file with
  | .document data => (Mapping.get? data.entries name).getD .null
  | _ => .null

/-- The values for all phones. -/
def defaults (file : ProfileFile) : Mapping := (file.topLevel "defaults").entries

/-- The values for the single phones. -/
def entries (file : ProfileFile) : List Mapping :=
  (file.topLevel "phones").items.map Yaml.entries

/-- The value of a field for an entry: its own one, or else the default. Legacy keys have none. -/
def given (file : ProfileFile) (entry : Mapping) (name : String) : Option Yaml :=
  if name.toList ∈ legacyFields then none else (entry.get? name).or (file.defaults.get? name)

/-- The phones of the profile. -/
def ids (file : ProfileFile) : List PhoneId :=
  file.entries.filterMap fun entry => match file.given entry "phone_id" with
    | some (.str id) => some (String.ofList id)
    | _ => none

end ProfileFile

/-- What `add_phone` takes for an argument that is not given. -/
def addPhoneDefaults : PhoneConfig where
  domain := ""
  username := none
  password := none
  realm := "*"
  srtp := false
  autoAnswer := false
  transport := "udp"
  localPort := 0
  codecs := none
  recordingEnabled := false
  captureEnabled := false

/-- The configuration with the given values, and the defaults of `add_phone` for the others. -/
def askedConfig (str : Yaml → String) (given : String → Option Yaml) : PhoneConfig where
  domain := (given "domain").elim addPhoneDefaults.domain str
  username := (given "username").elim addPhoneDefaults.username fun v => some (str v)
  password := (given "password").elim addPhoneDefaults.password fun v => some (str v)
  realm := (given "realm").elim addPhoneDefaults.realm fun v => if v.truthy then str v else "*"
  srtp := (given "srtp").elim addPhoneDefaults.srtp Yaml.truthy
  autoAnswer := (given "auto_answer").elim addPhoneDefaults.autoAnswer Yaml.truthy
  transport := (given "transport").elim addPhoneDefaults.transport str
  localPort := (given "local_port").elim addPhoneDefaults.localPort Yaml.port
  codecs := (given "codecs").elim addPhoneDefaults.codecs (codecNames str)
  recordingEnabled := (given "recording_enabled").elim addPhoneDefaults.recordingEnabled Yaml.truthy
  captureEnabled := (given "capture_enabled").elim addPhoneDefaults.captureEnabled Yaml.truthy

/-- The configuration of a spec depends on the values of its fields alone. -/
theorem configOf_eq (str : Yaml → String) (spec : Mapping) :
    configOf str spec = askedConfig str spec.get? := by
  simp only [configOf, askedConfig, addPhoneDefaults, flag, PhoneConfig.mk.injEq]
  refine ⟨?_, ?_, ?_, ?_, ?_, ?_, ?_, ?_, ?_, trivial, ?_, ?_⟩
  · cases spec.get? "domain" <;> rfl
  · cases spec.get? "username" <;> rfl
  · cases spec.get? "password" <;> rfl
  · cases spec.get? "realm" with
    | none => rfl
    | some v => cases hv : v.truthy <;> simp [Option.filter, hv]
  · cases spec.get? "srtp" <;> rfl
  · cases spec.get? "auto_answer" <;> rfl
  · cases spec.get? "transport" <;> rfl
  · rcases spec.get? "local_port" with _ | (_ | _ | _ | _ | _ | _ | _ | _ | _) <;> rfl
  · cases spec.get? "codecs" <;> rfl
  · cases spec.get? "recording_enabled" <;> rfl
  · cases spec.get? "capture_enabled" <;> rfl

/-! ## Values of a merged mapping -/

theorem sameKey_str_iff (key : Yaml) (s : Text) : key.sameKey (.str s) = true ↔ key = .str s := by
  cases key <;> simp [Yaml.sameKey, Yaml.number?]

namespace Mapping

/-- A filter that keeps all that is looked for. -/
theorem find?_filter_of_imp {m : Mapping} {keep found : Yaml × Yaml → Bool}
    (h : ∀ e ∈ m, found e = true → keep e = true) :
    (m.filter keep).find? found = m.find? found := by
  rw [List.find?_filter]
  apply List.find?_congr
  intro e he
  cases hfound : found e with
  | true => simp [h e he hfound]
  | false => simp

theorem get?_filterKeys (m : Mapping) (keep : Yaml → Bool) (name : String) :
    Mapping.get? (m.filter fun e => keep e.1) name =
      if keep (.str name.toList) then m.get? name else none := by
  unfold Mapping.get?
  split_ifs with hkeep
  · rw [find?_filter_of_imp]
    intro e _ hkey
    rwa [(sameKey_str_iff _ _).mp hkey]
  · rw [Option.map_eq_none_iff, List.find?_eq_none]
    intro e he hkey
    have hkept := (List.mem_filter.mp he).2
    rw [(sameKey_str_iff _ _).mp hkey] at hkept
    exact hkeep hkept

/-- In a merge the second mapping wins. -/
theorem get?_merge (m n : Mapping) (name : String) :
    (m.merge n).get? name = (n.get? name).or (m.get? name) := by
  unfold Mapping.merge Mapping.get?
  rw [List.find?_append, List.find?_map]
  have hkeys : ((fun e : Yaml × Yaml => e.1.sameKey (.str name.toList)) ∘ fun e =>
      ((n.find? fun e' => e'.1.sameKey e.1).map fun e' => (e.1, e'.2)).getD e) =
      fun e => e.1.sameKey (.str name.toList) := by
    funext e
    rw [Function.comp_apply]
    cases n.find? fun e' => e'.1.sameKey e.1 <;> rfl
  rw [hkeys]
  cases hm : m.find? fun e => e.1.sameKey (.str name.toList) with
  | some e =>
      have hfound : e.1.sameKey (.str name.toList) = true := by
        simpa using List.find?_some hm
      rw [Option.map_some, Option.some_or, Option.map_some, (sameKey_str_iff _ _).mp hfound]
      cases n.find? fun e' => e'.1.sameKey (.str name.toList) <;> rfl
  | none =>
      have hnew : ∀ e ∈ n, e.1.sameKey (.str name.toList) = true →
          (!m.any fun e' => e'.1.sameKey e.1) = true := by
        intro e _ hkey
        rw [(sameKey_str_iff _ _).mp hkey, Bool.not_eq_true', List.any_eq_false]
        exact List.find?_eq_none.mp hm
      rw [find?_filter_of_imp hnew, Option.map_none, Option.none_or, Option.map_none,
        Option.or_none]

end Mapping

/-! ## The specs of an accepted profile -/

namespace Yaml

/-- A section that is empty or missing counts as an empty mapping. -/
theorem entries_of_orEmpty {v : Yaml} {m : Mapping}
    (h : (if v.truthy then v else map []) = map m) : v.entries = m := by
  split_ifs at h with hv
  · rw [h]
    rfl
  · obtain rfl := Yaml.map.inj h
    cases v with
    | map entries => simpa [truthy, Yaml.entries] using hv
    | _ => rfl

theorem items_of_orEmpty {v : Yaml} {xs : List Yaml}
    (h : (if v.truthy then v else list []) = list xs) : v.items = xs := by
  split_ifs at h with hv
  · rw [h]
    rfl
  · obtain rfl := Yaml.list.inj h
    cases v with
    | list xs => simpa [truthy, Yaml.items] using hv
    | _ => rfl

end Yaml

/-- What the loader has passed when it accepts a profile. -/
theorem resolved_of_load {file : ProfileFile} {specs : List Mapping}
    (h : loadProfileYaml file = .ok specs) :
    resolveEntries file.defaults 0 (file.topLevel "phones").items = .ok specs ∧
      duplicates [] (specs.map specId) = [] := by
  cases file with
  | missing => cases h
  | unreadable reason => cases h
  | document data =>
      unfold loadProfileYaml at h
      dsimp only at h
      split at h
      case h_2 => cases h
      rename_i top htop
      replace htop := Yaml.entries_of_orEmpty htop
      simp only [bind, Except.bind] at h
      split at h
      case h_2 => cases h
      rename_i defaults hdefaults
      replace hdefaults := Yaml.entries_of_orEmpty hdefaults
      split at h
      case h_2 => cases h
      rename_i phones hphones
      replace hphones := Yaml.items_of_orEmpty hphones
      rw [ProfileFile.defaults, ProfileFile.topLevel, ProfileFile.topLevel, htop, hdefaults,
        hphones]
      split at h
      · cases h
      · cases hresolved : resolveEntries defaults 0 phones with
        | error e =>
            rw [hresolved] at h
            cases h
        | ok resolved =>
            rw [hresolved] at h
            dsimp only at h
            split_ifs at h with _ hduplicates
            rw [Bool.not_eq_true, Bool.not_eq_false', List.isEmpty_iff] at hduplicates
            obtain rfl := Except.ok.inj h
            exact ⟨rfl, hduplicates⟩

/-- The defaults under the values of an entry, without the legacy keys. -/
def ProfileFile.resolved (file : ProfileFile) (entry : Mapping) : Mapping :=
  (Mapping.merge file.defaults entry).filter fun e => !keyIn legacyFields e.1

/-- A field of a resolved entry is the entry's own, or the default. -/
theorem get?_resolved (file : ProfileFile) (entry : Mapping) :
    (file.resolved entry).get? = file.given entry := by
  funext name
  rw [ProfileFile.resolved, Mapping.get?_filterKeys _ fun key => !keyIn legacyFields key,
    Mapping.get?_merge, ProfileFile.given]
  by_cases hlegacy : name.toList ∈ legacyFields <;> simp [keyIn, hlegacy]

theorem resolveEntry_eq {file : ProfileFile} {i : Nat} {entry : Yaml} {spec : Mapping}
    (h : resolveEntry file.defaults i entry = .ok spec) : spec = file.resolved entry.entries := by
  cases entry with
  | map entries =>
      unfold resolveEntry at h
      dsimp only at h
      split at h
      · cases h
      · split at h
        · cases h
        · exact (Except.ok.inj h).symm
  | _ => cases h

theorem resolveEntries_eq {file : ProfileFile} {i : Nat} {phones : List Yaml}
    {specs : List Mapping} (h : resolveEntries file.defaults i phones = .ok specs) :
    specs = (phones.map Yaml.entries).map file.resolved := by
  induction phones generalizing i specs with
  | nil => exact (Except.ok.inj h).symm
  | cons entry rest ih =>
      rw [resolveEntries] at h
      cases hentry : resolveEntry file.defaults i entry with
      | error e =>
          rw [hentry] at h
          cases h
      | ok spec =>
          rw [hentry] at h
          cases hrest : resolveEntries file.defaults (i + 1) rest with
          | error e =>
              rw [hrest] at h
              cases h
          | ok others =>
              rw [hrest] at h
              obtain rfl := Except.ok.inj h
              rw [List.map_cons, List.map_cons, ← resolveEntry_eq hentry, ← ih hrest]

/-- Every entry of an accepted profile becomes a spec. -/
theorem specs_eq {file : ProfileFile} {specs : List Mapping}
    (h : loadProfileYaml file = .ok specs) : specs = file.entries.map file.resolved :=
  resolveEntries_eq (resolved_of_load h).1

theorem profileIds_eq {file : ProfileFile} {specs : List Mapping}
    (h : loadProfileYaml file = .ok specs) : profileIds specs = file.ids := by
  rw [specs_eq h, profileIds, List.filterMap_map, ProfileFile.ids]
  apply List.filterMap_congr
  intro entry _
  rw [Function.comp_apply, specId, get?_resolved]
  cases file.given entry "phone_id" with
  | none => rfl
  | some id => cases id <;> rfl

theorem sameKey_false_of_duplicates {ids seen : List Yaml} (h : duplicates seen ids = []) :
    (∀ id ∈ ids, ∀ s ∈ seen, id.sameKey s = false) ∧
      ids.Pairwise fun s id => id.sameKey s = false := by
  induction ids generalizing seen with
  | nil => exact ⟨by simp, .nil⟩
  | cons id rest ih =>
      rw [duplicates] at h
      split_ifs at h with hseen
      obtain ⟨hrest, hpairs⟩ := ih h
      constructor
      · intro id' hid' s hs
        rcases List.mem_cons.mp hid' with rfl | hid'
        · rw [Bool.not_eq_true, List.any_eq_false] at hseen
          exact Bool.eq_false_iff.mpr (hseen s hs)
        · exact hrest id' hid' s (List.mem_append_left _ hs)
      · refine .cons ?_ hpairs
        intro id' hid'
        exact hrest id' hid' id (by simp)

theorem nodup_profileIds {specs : List Mapping} (h : duplicates [] (specs.map specId) = []) :
    (profileIds specs).Nodup := by
  have hpairs := (sameKey_false_of_duplicates h).2
  rw [List.pairwise_map] at hpairs
  refine List.Pairwise.filterMap _ ?_ hpairs
  intro spec spec' hne p hp p' hp'
  rintro rfl
  split at hp
  · split at hp'
    · rename_i id hid _ id' hid'
      have hsame : String.ofList id = String.ofList id' :=
        (Option.some.inj hp).trans (Option.some.inj hp').symm
      rw [hid, hid', String.ofList_injective hsame] at hne
      simp [Yaml.sameKey] at hne
    · cases hp'
  · cases hp

/-! ## The tools of the other phones -/

/-- The names that are noted down for a phone are those of its tools. -/
def OwnNames (noted : OrderedDict PhoneId (List Text)) : Prop :=
  ∀ p names, noted.get? p = some names → names = toolNames p

theorem OwnNames.pop {noted : OrderedDict PhoneId (List Text)} (h : OwnNames noted) (p : PhoneId) :
    OwnNames (noted.pop p) := by
  intro q names hq
  rw [OrderedDict.get?_pop] at hq
  split_ifs at hq with hqp
  exact h q names hq

theorem OwnNames.set {noted : OrderedDict PhoneId (List Text)} (h : OwnNames noted) (p : PhoneId) :
    OwnNames (noted.set p (toolNames p)) := by
  intro q names hq
  rw [OrderedDict.get?_set] at hq
  split_ifs at hq with hqp
  · rw [← hqp]
    exact (Option.some.inj hq).symm
  · exact h q names hq

theorem OwnNames.getD {noted : OrderedDict PhoneId (List Text)} (h : OwnNames noted) (p : PhoneId) :
    (noted.get? p).getD [] ⊆ toolNames p := by
  cases hp : noted.get? p with
  | none => exact List.nil_subset _
  | some names =>
      rw [Option.getD_some, h p names hp]
      exact List.Subset.refl _

/-- What is removed or added for one phone is listed for no other one. -/
theorem notMem_names_of_ne {p q : PhoneId} {names : List Text} (hnames : names ⊆ toolNames p)
    (h : q ≠ p) {name : Text} (hq : name ∈ toolNames q) : name ∉ names := by
  intro hname
  exact h (toolNames_disjoint hq (hnames hname))

/-! ## What is kept for one phone -/

/-- All that the server has for one phone. -/
structure PhoneService where
  /-- Configuration, account, calls, queues and capture. -/
  part : PhonePart
  /-- The entry of `_phone_tools`. -/
  noted : Option (List Text)
  /-- Those of its tools that are offered. -/
  offered : List Text

def State.service {T : ToolTable} (st : State T) (p : PhoneId) : PhoneService where
  part := st.sys.part p
  noted := st.phoneTools.get? p
  offered := st.mcpTools.filter fun name => name ∈ toolNames p

section Service

variable {T : ToolTable} {st : State T} {p q : PhoneId}

theorem service_unregisterTools_of_ne (hown : OwnNames st.phoneTools) (h : q ≠ p) :
    (st.unregisterTools p).service q = st.service q := by
  unfold State.service State.mcpTools State.unregisterTools
  rw [OrderedDict.get?_pop, if_neg h]
  congr 1
  dsimp only
  rw [FunctionTable.listed_removeAll, List.filter_filter]
  apply List.filter_congr
  intro name _
  by_cases hq : name ∈ toolNames q
  · simp [hq, notMem_names_of_ne (hown.getD p) h hq]
  · simp [hq]

theorem service_registerTools_of_ne (h : q ≠ p) :
    (st.registerTools p).service q = st.service q := by
  unfold State.service State.mcpTools State.registerTools
  rw [OrderedDict.get?_set_of_ne _ (Ne.symm h)]
  congr 1
  apply FunctionTable.filter_listed_addAll
  intro e he
  refine decide_eq_false fun hq => ?_
  have hmem : e.1 ∈ (phoneBindings p).map Prod.fst := List.mem_map_of_mem he
  rw [map_fst_phoneBindings] at hmem
  exact h (toolNames_disjoint hq hmem)

/-- A change of the registry and the calls that leaves the part of the phone alone. -/
theorem service_congr (st : State T) {sys : Sys} (h : sys.part q = st.sys.part q) :
    State.service { st with sys := sys } q = st.service q := by
  unfold State.service State.mcpTools
  rw [h]

variable (lower : Text → Text) (str : Yaml → String)

theorem ownNames_addPhoneImpl (hown : OwnNames st.phoneTools) (phoneId transport : Yaml)
    (cfg : PhoneConfig) (out : AddOutcome) :
    OwnNames (st.addPhoneImpl lower phoneId transport cfg out).2.phoneTools := by
  unfold State.addPhoneImpl
  cases validatePhoneId phoneId with
  | error e => exact hown
  | ok p =>
      have hgone : OwnNames (if st.phoneTools.contains p then st.unregisterTools p
          else st).phoneTools := by
        split_ifs
        · exact hown.pop p
        · exact hown
      dsimp only
      cases registered (checkedOutcome lower transport out) with
      | error e => exact hgone
      | ok => exact hgone.set p

/-- `_add_phone_impl` for one phone leaves the others alone, whether it raises or not. -/
theorem service_addPhoneImpl_of_ne (hown : OwnNames st.phoneTools) {phoneId : Yaml}
    (h : ∀ p, validatePhoneId phoneId = .ok p → q ≠ p) (transport : Yaml) (cfg : PhoneConfig)
    (out : AddOutcome) :
    (st.addPhoneImpl lower phoneId transport cfg out).2.service q = st.service q := by
  unfold State.addPhoneImpl
  cases hid : validatePhoneId phoneId with
  | error e => rfl
  | ok p =>
      have hne := h p hid
      have hgone : (if st.phoneTools.contains p then st.unregisterTools p else st).service q =
          st.service q := by
        split_ifs
        · exact service_unregisterTools_of_ne hown hne
        · rfl
      dsimp only
      generalize (if st.phoneTools.contains p then st.unregisterTools p else st) = st' at hgone ⊢
      have hadded := service_congr st'
        (st'.sys.part_addPhone_of_ne hne cfg (checkedOutcome lower transport out))
      cases registered (checkedOutcome lower transport out) with
      | error e => exact hadded.trans hgone
      | ok => exact (service_registerTools_of_ne hne).trans (hadded.trans hgone)

end Service

/-! ## Adding the phones of a profile -/

theorem ne_of_notMem_profileIds {spec : Mapping} {p q : PhoneId} (h : q ∉ profileIds [spec])
    (hp : validatePhoneId (specId spec) = .ok p) : q ≠ p := by
  obtain ⟨id, hid, rfl⟩ := specId_of_validated hp
  rintro rfl
  exact h (by simp [profileIds, hid])

section Adding

variable {T : ToolTable} (lower : Text → Text) (str : Yaml → String) {st : State T}

/-- An entry changes the registry for its own phone, or not at all. -/
theorem sys_addSpec (st : State T) (spec : Mapping) (out : AddOutcome) :
    (st.addSpec lower str spec out).2.sys = st.sys ∨
      ∃ p ∈ profileIds [spec], ∃ cfg out',
        (st.addSpec lower str spec out).2.sys = st.sys.addPhone p cfg out' := by
  unfold State.addSpec
  cases hid : validatePhoneId (specId spec) with
  | error e => exact .inl (congrArg State.sys (addPhoneImpl_of_invalid lower hid _ _ _))
  | ok p =>
      refine .inr ⟨p, ?_, _, _, sys_addPhoneImpl lower hid _ _ _⟩
      by_contra hp
      exact ne_of_notMem_profileIds hp hid rfl

theorem part_addSpec_of_notMem (st : State T) {spec : Mapping} {q : PhoneId}
    (h : q ∉ profileIds [spec]) (out : AddOutcome) :
    (st.addSpec lower str spec out).2.sys.part q = st.sys.part q := by
  rcases sys_addSpec lower str st spec out with hsys | ⟨p, hp, cfg, out', hsys⟩
  · rw [hsys]
  · rw [hsys]
    refine st.sys.part_addPhone_of_ne ?_ cfg out'
    rintro rfl
    exact h hp

/-- An entry that is added without an error configures its phone. -/
theorem config_addSpec {spec : Mapping} {out : AddOutcome} {p : PhoneId}
    (h : (st.addSpec lower str spec out).1 = .ok p) :
    ∃ id tp, specId spec = .str id ∧ String.ofList id = p ∧ out.transport = some tp ∧
      (st.addSpec lower str spec out).2.sys.phones.get? p =
        some { configOf str spec with transportId := some tp } := by
  obtain ⟨hid, hadded⟩ := addPhoneImpl_ok lower h
  obtain ⟨id, hspec, hp⟩ := specId_of_validated hid
  obtain ⟨haccepts, hopened, hcreated⟩ := (registered_checkedOutcome_iff lower _ out).mp hadded
  obtain ⟨tp, htp⟩ := Option.isSome_iff_exists.mp hopened
  refine ⟨id, tp, hspec, hp, htp, ?_⟩
  have htransport : (checkedOutcome lower (specTransport spec) out).transport = some tp := by
    rw [checkedOutcome, haccepts, ← htp]
    rfl
  rw [State.addSpec, sys_addPhoneImpl lower hid]
  exact Calls.Sys.config_addPhone _ _ htransport hcreated

theorem notMem_profileIds_of_mem {spec : Mapping} {specs : List Mapping} {q : PhoneId}
    (h : q ∉ profileIds specs) (hspec : spec ∈ specs) : q ∉ profileIds [spec] := by
  intro hq
  refine h ?_
  obtain ⟨spec', hmem, hid⟩ := List.mem_filterMap.mp hq
  obtain rfl := List.mem_singleton.mp hmem
  exact List.mem_filterMap.mpr ⟨spec', hspec, hid⟩

theorem part_addSpecs_of_notMem (st : State T) {specs : List Mapping} {q : PhoneId}
    (h : q ∉ profileIds specs) (outs : Nat → AddOutcome) (i : Nat) :
    (State.addSpecs lower str outs i st specs).state.sys.part q = st.sys.part q := by
  refine addSpecs_preserves lower str (P := fun st' => st'.sys.part q = st.sys.part q) ?_ rfl outs i
  intro spec hspec st' out hpart
  exact (part_addSpec_of_notMem lower str st' (notMem_profileIds_of_mem h hspec) out).trans hpart

/-- A phone that is not in the profile keeps all that the server has for it. -/
theorem service_addSpecs_of_notMem (hown : OwnNames st.phoneTools) {specs : List Mapping}
    {q : PhoneId} (h : q ∉ profileIds specs) (outs : Nat → AddOutcome) (i : Nat) :
    (State.addSpecs lower str outs i st specs).state.service q = st.service q := by
  refine (addSpecs_preserves lower str
    (P := fun st' => OwnNames st'.phoneTools ∧ st'.service q = st.service q) ?_ ⟨hown, rfl⟩
    outs i).2
  rintro spec hspec st' out ⟨hown', hservice⟩
  have hnot := notMem_profileIds_of_mem h hspec
  have hfirst := service_addPhoneImpl_of_ne lower hown'
    (fun _ hp => ne_of_notMem_profileIds hnot hp) (specTransport spec) (configOf str spec) out
  exact ⟨ownNames_addPhoneImpl lower hown' _ _ _ _, hfirst.trans hservice⟩

/-- Adding phones reaches no call. -/
theorem heap_addSpecs (specs : List Mapping) (outs : Nat → AddOutcome) (i : Nat) :
    (State.addSpecs lower str outs i st specs).state.sys.objs = st.sys.objs ∧
      (State.addSpecs lower str outs i st specs).state.sys.commands = st.sys.commands := by
  refine addSpecs_preserves lower str
    (P := fun st' => st'.sys.objs = st.sys.objs ∧ st'.sys.commands = st.sys.commands) ?_
    ⟨rfl, rfl⟩ outs i
  rintro spec _ st' out ⟨hobjs, hcommands⟩
  rcases sys_addSpec lower str st' spec out with hsys | ⟨p, _, cfg, out', hsys⟩
  · rw [hsys]
    exact ⟨hobjs, hcommands⟩
  · rw [hsys, Calls.Sys.addPhone_objs, Calls.Sys.commands_addPhone]
    exact ⟨hobjs, hcommands⟩

/-- Without an error every entry has its phone, and the later entries leave it as it is. -/
theorem config_addSpecs {specs : List Mapping} {outs : Nat → AddOutcome} {i : Nat}
    (herrors : (State.addSpecs lower str outs i st specs).errors = [])
    (hnodup : (profileIds specs).Nodup) {j : Nat} {spec : Mapping} (hj : specs[j]? = some spec) :
    ∃ id tp, specId spec = .str id ∧ (outs (i + j)).transport = some tp ∧
      (State.addSpecs lower str outs i st specs).state.sys.phones.get? (String.ofList id) =
        some { configOf str spec with transportId := some tp } := by
  induction specs generalizing i j st with
  | nil => cases hj
  | cons first rest ih =>
      rw [profileIds_cons, List.nodup_append] at hnodup
      obtain ⟨-, hrest, hapart⟩ := hnodup
      rw [State.addSpecs] at herrors ⊢
      cases hfirst : (st.addSpec lower str first (outs i)).1 with
      | error e =>
          rw [hfirst] at herrors
          cases herrors
      | ok p =>
          rw [hfirst] at herrors
          cases j with
          | zero =>
              obtain rfl := Option.some.inj hj
              obtain ⟨id, tp, hspec, hid, htp, hconfig⟩ := config_addSpec lower str hfirst
              have hlater : String.ofList id ∉ profileIds rest := by
                intro hmem
                exact hapart _ (by simp [profileIds, hspec]) _ hmem rfl
              have hpart := part_addSpecs_of_notMem lower str
                (st.addSpec lower str first (outs i)).2 hlater outs (i + 1)
              refine ⟨id, tp, hspec, htp, ?_⟩
              rw [← hid] at hconfig
              exact (congrArg PhonePart.config hpart).trans hconfig
          | succ j =>
              have hcount : i + 1 + j = i + (j + 1) := by omega
              obtain ⟨id, tp, hspec, htp, hconfig⟩ := ih herrors hrest hj
              rw [hcount] at htp
              exact ⟨id, tp, hspec, htp, hconfig⟩

/-- A transport stays open when it is not that of a phone in the profile. -/
theorem transports_addSpecs {specs : List Mapping} (hnodup : (profileIds specs).Nodup) {t : Int}
    (ht : t ∈ st.sys.transports)
    (hother : ∀ p ∈ profileIds specs, ∀ cfg, st.sys.phones.get? p = some cfg →
      cfg.transportId ≠ some t) (outs : Nat → AddOutcome) (i : Nat) :
    t ∈ (State.addSpecs lower str outs i st specs).state.sys.transports := by
  induction specs generalizing i st with
  | nil => exact ht
  | cons first rest ih =>
      rw [profileIds_cons] at hnodup hother
      obtain ⟨-, hrest, hapart⟩ := List.nodup_append.mp hnodup
      have hopen : t ∈ (st.addSpec lower str first (outs i)).2.sys.transports := by
        rcases sys_addSpec lower str st first (outs i) with hsys | ⟨p, hp, cfg, out, hsys⟩
        · rwa [hsys]
        · rw [hsys]
          exact Calls.Sys.mem_transports_addPhone ht
            (hother p (List.mem_append_left _ hp)) cfg out
      have hothers : ∀ p ∈ profileIds rest, ∀ cfg,
          (st.addSpec lower str first (outs i)).2.sys.phones.get? p = some cfg →
            cfg.transportId ≠ some t := by
        intro p hp cfg hcfg
        have hpart := part_addSpec_of_notMem lower str st
          (fun hfirst => hapart p hfirst p hp rfl) (outs i)
        refine hother p (List.mem_append_right _ hp) cfg ?_
        exact (congrArg PhonePart.config hpart).symm.trans hcfg
      rw [State.addSpecs]
      cases (st.addSpec lower str first (outs i)).1 with
      | ok p => exact ih hrest hopen hothers (i + 1)
      | error e => exact ih hrest hopen hothers (i + 1)

end Adding

/-! ## A running server -/

/-- What happens at a running server. -/
inductive ServerEvent
  /-- A tool that manages phones is called. -/
  | tool (call : ToolCall)
  /-- Something happens to the registry, the calls or the captures. -/
  | act (a : Calls.Action)

def ServerEvent.enabled {T : ToolTable} (st : State T) : ServerEvent → Prop
  | .tool _ => True
  | .act a => st.sys.enabled a = true

def ServerEvent.apply {T : ToolTable} (lower : Text → Text) (str : Yaml → String) (st : State T) :
    ServerEvent → State T
  | .tool call => st.step lower str call
  | .act a => { st with sys := st.sys.step a }

/-- The server with its calls, which come and go between the tools that manage phones. -/
def runningServer (T : ToolTable) (lower : Text → Text) (str : Yaml → String) :
    GuardedSystem (State T) ServerEvent where
  init := State.initial T
  enabled := ServerEvent.enabled
  step := ServerEvent.apply lower str

section Running

variable {T : ToolTable} (lower : Text → Text) (str : Yaml → String) {st : State T}

theorem ownNames_dropPhoneImpl (hown : OwnNames st.phoneTools) (p : PhoneId) (hangupCalls : Bool) :
    OwnNames (st.dropPhoneImpl p hangupCalls).2.phoneTools := by
  unfold State.dropPhoneImpl
  split_ifs
  · exact hown.pop p
  · exact hown.pop p
  · exact hown

theorem ownNames_reregisterPhone (st : State T) (hown : OwnNames st.phoneTools) (p : PhoneId)
    (creds : Calls.Credentials) (out : AddOutcome) :
    OwnNames (st.reregisterPhone lower p creds out).2.phoneTools := by
  unfold State.reregisterPhone
  cases st.sys.phones.get? p <;> exact hown

theorem ownNames_step (hown : OwnNames st.phoneTools) (call : ToolCall) :
    OwnNames (st.step lower str call).phoneTools := by
  cases call with
  | addPhone p cfg out => exact ownNames_addPhoneImpl lower hown _ _ cfg out
  | dropPhone p hangupCalls => exact ownNames_dropPhoneImpl hown p hangupCalls
  | updatePhone p upd out =>
      change OwnNames (st.updatePhone lower p upd out).2.phoneTools
      unfold State.updatePhone
      split_ifs
      · exact ownNames_reregisterPhone lower { st with sys := State.applyUpdate st.sys p upd } hown
          p upd.credentials out
      · exact hown
      · exact hown
  | loadPhones file merge outs =>
      exact loadPhones_preserves lower str (P := fun st => OwnNames st.phoneTools)
        (fun _ h => h) (fun _ p h => ownNames_dropPhoneImpl h p true)
        (fun _ _ _ h => ownNames_addPhoneImpl lower h _ _ _ _) hown file merge outs
  | register p out => exact ownNames_reregisterPhone lower st hown p _ out
  | unregister p => exact hown

/-- In every run the names that are noted down for a phone are those of its tools. -/
theorem ownNames_of_reach (run : (runningServer T lower str).Reachable st) :
    OwnNames st.phoneTools := by
  refine run.invariant (P := fun st => OwnNames st.phoneTools) ?_ ?_
  · intro p names h
    cases h
  · intro st event _ _ hown
    cases event with
    | tool call => exact ownNames_step lower str hown call
    | act a => exact hown

/-- What a load without errors makes of the server. -/
structure Applied {T : ToolTable} (file : ProfileFile) (merge : Bool) (outs : Nat → AddOutcome)
    (before after : State T) : Prop where
  phones : phoneIds after.sys =
    if merge then phoneIds before.sys ∪ {p | p ∈ file.ids} else {p | p ∈ file.ids}
  /-- Every entry has a phone, on the transport that was opened for it. -/
  configs : ∀ i entry, file.entries[i]? = some entry → ∃ id tp,
    file.given entry "phone_id" = some (.str id) ∧ (outs i).transport = some tp ∧
      after.sys.phones.get? (String.ofList id) =
        some { askedConfig str (file.given entry) with transportId := some tp }
  others : merge = true → ∀ p ∉ file.ids, after.service p = before.service p
  /-- No call is hung up or changed otherwise. -/
  heap : merge = true →
    after.sys.objs = before.sys.objs ∧ after.sys.commands = before.sys.commands
  /-- The other phones keep their transports. -/
  transports : merge = true → ∀ t ∈ before.sys.transports,
    (∀ p ∈ file.ids, ∀ cfg, before.sys.phones.get? p = some cfg → cfg.transportId ≠ some t) →
      t ∈ after.sys.transports

/-- The state in which the loop over the specs begins. -/
theorem phoneIds_tearDown (st : State T) :
    phoneIds (st.tearDown st.sys.phones.keys).sys = ∅ := by
  unfold State.tearDown
  split_ifs with hempty
  · ext p
    change p ∈ st.sys.phones.keys ↔ _
    rw [List.isEmpty_iff.mp hempty]
    simp
  · rw [phoneIds_dropPhones, phoneIds_callOp]
    exact Set.sdiff_self

end Running

/-! ## A phone beside the profile -/

/-- `bob` has an incoming call. -/
def busyServer : State (.dictionary Text Tool) :=
  (runningServer _ (List.map Char.toLower) fun _ => "").step bobServer
    (.act (.incomingCall "bob" 0 none))

/-- An entry that takes its domain and its password from the defaults, and has a legacy key. -/
def aliceProfile : ProfileFile :=
  .document (.map
    [(.str "defaults".toList, .map
      [(.str "domain".toList, .str ['d']), (.str "password".toList, .str ['p']),
        (.str "auto_answer".toList, .bool true)]),
    (.str "phones".toList, .list [.map
      [(.str "phone_id".toList, .str "alice".toList), (.str "username".toList, .str ['u']),
        (.str "auto_answer".toList, .bool false),
        (.str "recordings_dir".toList, .str ['r'])]])])

end PjsuaMcp.Server
