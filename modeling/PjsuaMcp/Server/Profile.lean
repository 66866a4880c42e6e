import PjsuaMcp.Server.ToolNames
import Mathlib.Data.Rat.Defs

/-!
# Phone profiles

`_load_profile_yaml` turns a YAML document into a list of phone specs. It
merges the defaults into every entry and checks the shape of the document, the
names of the keys and that the required values are there. It does not look at
the values themselves.

## Implementation notes

A document is what `yaml.safe_load` returns; the keys of a mapping are
distinct. Floats are rationals, so the infinities and NaN are left out. The
configuration of a phone has typed fields: a text field holds `str(value)` of
the value that the profile gives, and codecs that cannot be iterated count as
none.
-/

namespace PjsuaMcp.Server

open Sdp (Text)
open Calls (PhoneId PhoneConfig)

/-- The values of a YAML document; `other` is a date, a time or binary data. -/
inductive Yaml
  | null
  | bool (b : Bool)
  | int (n : Int)
  | float (x : ℚ)
  | str (s : Text)
  | list (xs : List Yaml)
  | map (entries : List (Yaml × Yaml))
  | set (members : List Yaml)
  | other (kind repr : Text)
  deriving Inhabited, Repr

abbrev Mapping := List (Yaml × Yaml)

namespace Yaml

/-- The truth value. -/
def truthy : Yaml → Bool
  | null => false
  | bool b => b
  | int n => n ≠ 0
  | float x => x ≠ 0
  | str s => !s.isEmpty
  | list xs => !xs.isEmpty
  | map entries => !entries.isEmpty
  | set members => !members.isEmpty
  | other _ _ => true

/-- `type(v).__name__`. -/
def typeName : Yaml → Text
  | null => "NoneType".toList
  | bool _ => "bool".toList
  | int _ => "int".toList
  | float _ => "float".toList
  | str _ => "str".toList
  | list _ => "list".toList
  | map _ => "dict".toList
  | set _ => "set".toList
  | other kind _ => kind

def isHashable : Yaml → Bool
  | list _ | map _ | set _ => false
  | _ => true

/-- The numeric value of booleans, integers and floats. -/
def number? : Yaml → Option ℚ
  | bool b => some (if b then 1 else 0)
  | int n => some n
  | float x => some x
  | _ => none

/-- Two hashable values are the same key. -/
def sameKey : Yaml → Yaml → Bool
  | null, null => true
  | str s, str t => s = t
  | other k r, other k' r' => k = k' && r = r'
  | v, w => v.number?.isSome && v.number? = w.number?

end Yaml

namespace Mapping

/-- `m.get(name)` for a name, or nothing when it is missing. -/
def get? (m : Mapping) (name : String) : Option Yaml :=
  (m.find? fun e => e.1.sameKey (.str name.toList)).map Prod.snd

/-- `{**m, **n}`. -/
def merge (m n : Mapping) : Mapping :=
  (m.map fun e => ((n.find? fun e' => e'.1.sameKey e.1).map fun e' => (e.1, e'.2)).getD e) ++
    n.filter fun e => !(m.any fun e' => e'.1.sameKey e.1)

end Mapping

/-- `_PHONE_FIELDS`. -/
def phoneFields : List Text :=
  ["phone_id".toList, "domain".toList, "username".toList, "password".toList, "realm".toList,
    "srtp".toList, "auto_answer".toList, "transport".toList, "local_port".toList,
    "codecs".toList, "register".toList, "recording_enabled".toList, "capture_enabled".toList]

/-- `_LEGACY_FIELDS`. -/
def legacyFields : List Text := ["recordings_dir".toList]

/-- The fields that every phone must have after the merge. -/
def requiredFields : List String := ["phone_id", "domain", "username", "password"]

/-- The key is one of the names. -/
def keyIn (names : List Text) : Yaml → Bool
  | .str s => s ∈ names
  | _ => false

/-- Why a profile is rejected; `i` counts the entries of `phones`. -/
inductive ProfileError
  | notFound
  | unreadable (reason : Text)
  | topLevel (typeName : Text)
  | defaultsNotMapping
  | phonesNotList
  | noPhones
  | entryNotMapping (i : Nat)
  | unknownKeys (i : Nat) (keys : List Yaml)
  | missingField (i : Nat) (name : String)
  | unhashableId
  | duplicateIds (ids : List Yaml)
  deriving Repr

/-- What is found under the path of a profile. -/
inductive ProfileFile
  | missing
  | unreadable (reason : Text)
  | document (data : Yaml)
  deriving Repr

/-- The body of the loop over `phones`. -/
def resolveEntry (defaults : Mapping) (i : Nat) (entry : Yaml) : Except ProfileError Mapping :=
  match entry with
  | .map entries =>
      let merged : Mapping :=
        (Mapping.merge defaults entries).filter fun e => !keyIn legacyFields e.1
      let unknown := (merged.map Prod.fst).filter fun key => !keyIn phoneFields key
      if !unknown.isEmpty then .error (.unknownKeys i unknown)
      else
        match requiredFields.find? fun name => !((merged.get? name).getD .null).truthy with
        | some name => .error (.missingField i name)
        | none => .ok merged
  | _ => .error (.entryNotMapping i)

/-- The loop over `phones`, from entry `i` on. -/
def resolveEntries (defaults : Mapping) : Nat → List Yaml → Except ProfileError (List Mapping)
  | _, [] => .ok []
  | i, entry :: rest => do
      let spec ← resolveEntry defaults i entry
      let specs ← resolveEntries defaults (i + 1) rest
      return spec :: specs

/-- The ids that occur after an equal one. -/
def duplicates (seen : List Yaml) : List Yaml → List Yaml
  | [] => []
  | id :: rest =>
      if seen.any id.sameKey then id :: duplicates seen rest else duplicates (seen ++ [id]) rest

/-- The phone id that a spec asks for. -/
def specId (spec : Mapping) : Yaml := (spec.get? "phone_id").getD .null

/-- `_load_profile_yaml`. -/
def loadProfileYaml : ProfileFile → Except ProfileError (List Mapping)
  | .missing => .error .notFound
  | .unreadable reason => .error (.unreadable reason)
  | .document data => do
      let data := if data.truthy then data else .map []
      let top ← match data with
        | .map entries => .ok entries
        | v => .error (.topLevel v.typeName)
      let defaults := (Mapping.get? top "defaults").getD .null
      let defaults ← match if defaults.truthy then defaults else .map [] with
        | .map entries => .ok entries
        | _ => .error .defaultsNotMapping
      let phones := (Mapping.get? top "phones").getD .null
      let phones ← match if phones.truthy then phones else .list [] with
        | .list entries => .ok entries
        | _ => .error .phonesNotList
      if phones.isEmpty then .error .noPhones
      let resolved ← resolveEntries defaults 0 phones
      let ids := resolved.map specId
      if !ids.all Yaml.isHashable then .error .unhashableId
      if !(duplicates [] ids).isEmpty then .error (.duplicateIds (duplicates [] ids))
      return resolved

/-! ## The configuration of a resolved phone -/

/-- The codec names of a value that can be iterated. -/
def codecNames (str : Yaml → String) : Yaml → Option (List String)
  | .list xs => some (xs.map str)
  | .set xs => some (xs.map str)
  | .str s => some (s.map fun c => String.ofList [c])
  | .map entries => some (entries.map fun e => str e.1)
  | _ => none

/-- A field that is a boolean when it is given. -/
def flag (spec : Mapping) (name : String) : Bool := ((spec.get? name).map Yaml.truthy).getD false

/-- What `_add_phone_impl(**spec)` puts into the configuration. -/
def configOf (str : Yaml → String) (spec : Mapping) : PhoneConfig where
  domain := ((spec.get? "domain").map str).getD ""
  username := (spec.get? "username").map str
  password := (spec.get? "password").map str
  realm := (((spec.get? "realm").filter Yaml.truthy).map str).getD "*"
  srtp := flag spec "srtp"
  autoAnswer := flag spec "auto_answer"
  transport := ((spec.get? "transport").map str).getD "udp"
  localPort := match spec.get? "local_port" with
    | some (.int n) => n
    | some (.bool b) => if b then 1 else 0
    | _ => 0
  codecs := (spec.get? "codecs").bind (codecNames str)
  recordingEnabled := flag spec "recording_enabled"
  captureEnabled := flag spec "capture_enabled"

/-- The transport that a spec asks for, `"udp"` by default. -/
def specTransport (spec : Mapping) : Yaml := (spec.get? "transport").getD (.str "udp".toList)

end PjsuaMcp.Server
