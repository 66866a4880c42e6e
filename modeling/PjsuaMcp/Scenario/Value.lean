import Mathlib.Data.Rat.Defs
import Mathlib.Data.List.DropRight
import Mathlib.Data.List.Infix
import Mathlib.Tactic.Common

/-!
# Values of scenarios and events

Scenarios, action arguments and event payloads are JSON values, read with the
interpreter's dynamic rules: which values are true, when two are equal, what
`int` makes of one.

## Implementation notes

What depends on the text tables of the interpreter (regular expressions,
`str`, `repr`, the reading of numerals) is the parameter `PyText`. Floats are
rationals, so the infinities and NaN are left out.
-/

namespace PjsuaMcp.Scenario

abbrev Text := List Char

inductive Value
  | null
  | bool (b : Bool)
  | int (n : Int)
  | float (x : ℚ)
  | str (s : Text)
  | list (xs : List Value)
  | dict (entries : List (Text × Value))
  deriving Inhabited, Repr

/-- The entries of a `dict` with string keys, in insertion order. -/
abbrev Dict := List (Text × Value)

namespace Dict

def get? (d : Dict) (key : String) : Option Value := d.lookup key.toList

/-- `d.get(key)`, with `None` for a missing key. -/
def get (d : Dict) (key : String) : Value := (d.get? key).getD .null

/-- `d.get(key, default)`. -/
def getOr (d : Dict) (key : String) (default : Value) : Value := (d.get? key).getD default

/-- `d[key] = v`: in place when the key is there, at the end otherwise. -/
def insert (d : Dict) (key : Text) (v : Value) : Dict :=
  if (d.lookup key).isSome then d.map fun e => if e.1 = key then (key, v) else e
  else d ++ [(key, v)]

def set (d : Dict) (key : String) (v : Value) : Dict := d.insert key.toList v

end Dict

namespace Value

def ofString (s : String) : Value := .str s.toList

/-- `v is None`. -/
def isNull : Value → Bool
  | null => true
  | _ => false

/-- The truth value of `v`. -/
def truthy : Value → Bool
  | null => false
  | bool b => b
  | int n => n ≠ 0
  | float x => x ≠ 0
  | str s => s ≠ []
  | list xs => !xs.isEmpty
  | dict entries => !entries.isEmpty

/-- `v or w`. -/
def or (v w : Value) : Value := if v.truthy then v else w

/-- The numeric value of booleans, integers and floats. -/
def number? : Value → Option ℚ
  | bool b => some (if b then 1 else 0)
  | int n => some n
  | float x => some x
  | _ => none

mutual

/-- `v == w`: numbers by value, sequences entry by entry, dictionaries by key. -/
def eq : Value → Value → Bool
  | null, w => w.isNull
  | bool b, w => w.number? = some (if b then 1 else 0)
  | int n, w => w.number? = some (n : ℚ)
  | float x, w => w.number? = some x
  | str s, .str t => s = t
  | str _, _ => false
  | list xs, .list ys => eqList xs ys
  | list _, _ => false
  | dict ds, .dict es => ds.length = es.length && eqEntries ds es
  | dict _, _ => false

def eqList : List Value → List Value → Bool
  | [], [] => true
  | v :: vs, w :: ws => v.eq w && eqList vs ws
  | _, _ => false

def eqEntries : List (Text × Value) → List (Text × Value) → Bool
  | [], _ => true
  | (k, v) :: rest, es =>
      (match es.lookup k with
        | some w => v.eq w
        | none => false) && eqEntries rest es

end

/-- `type(v).__name__`. -/
def typeName : Value → Text
  | null => "NoneType".toList
  | bool _ => "bool".toList
  | int _ => "int".toList
  | float _ => "float".toList
  | str _ => "str".toList
  | list _ => "list".toList
  | dict _ => "dict".toList

/-- The elements that `list(v)` has, when `v` can be iterated. -/
def elements? : Value → Option (List Value)
  | str s => some (s.map fun c => .str [c])
  | list xs => some xs
  | dict entries => some (entries.map fun e => .str e.1)
  | _ => none

/-- Lists and dictionaries cannot be keys. -/
def hashable : Value → Bool
  | list _ | dict _ => false
  | _ => true

/-- `d[key] = v` among keys of every kind: the first of two equal keys stays. -/
def insertEntry (d : List (Value × Value)) (key v : Value) : List (Value × Value) :=
  if d.any fun e => e.1.eq key then d.map fun e => if e.1.eq key then (e.1, v) else e
  else d ++ [(key, v)]

/-- The entries of `dict(v)`: of a dictionary, or of pairs that begin with a key. -/
def toEntries? : Value → Option (List (Value × Value))
  | dict entries => some (entries.map fun e => (str e.1, e.2))
  | v => do
      let pairs ← v.elements?
      pairs.foldlM
        (fun d pair => do
          match ← pair.elements? with
          | [key, w] => if key.hashable then some (insertEntry d key w) else none
          | _ => none)
        []

/-- `dict(v)` with its string keys; the engine looks up no others. -/
def toDict? (v : Value) : Option Dict :=
  v.toEntries?.map fun entries => entries.filterMap fun
    | (str key, w) => some (key, w)
    | _ => none

end Value

inductive Exn
  | actionError (message : Text)
  /-- Raised by the engine itself with a message. -/
  | valueError (message : Text)
  /-- Raised by the interpreter on a value of the wrong kind. -/
  | builtin
  | timeout
  /-- Raised by a function outside the engine. -/
  | external (repr : Text)
  deriving Repr

/-- The part of the interpreter that reads and prints texts. -/
structure PyText where
  /-- `bool(re.search(pattern, s))`, or nothing when the pattern does not compile. -/
  search : Text → Text → Option Bool
  str : Value → Text
  repr : Value → Text
  /-- `int(s)`, or nothing for a `ValueError`. -/
  int : Text → Option Int
  /-- `int(float(s) * 1000)` of a decimal numeral. -/
  secondsToMs : Text → Int
  strip : Text → Text
  isDigit : Char → Bool
  isSpace : Char → Bool
  /-- `str(uuid.uuid4())` of the `n`-th hook. -/
  uuid : Nat → Text
  /-- `time.monotonic()` when the event of the `n`-th emit is made. -/
  monotonic : Nat → ℚ

/-- `int(v)`, or nothing for a `ValueError` or a `TypeError`; floats lose their fraction. -/
def PyText.toInt (py : PyText) : Value → Option Int
  | .bool b => some (if b then 1 else 0)
  | .int n => some n
  | .float x => some (if 0 ≤ x then x.floor else x.ceil)
  | .str s => py.int s
  | _ => none

/-- ASCII texts, with patterns that have no special characters and values without floats. -/
def PyText.ascii : PyText where
  search pattern s := some (decide (pattern <:+: s))
  str v :=
    match v with
    | .null => "None".toList
    | .bool b => if b then "True".toList else "False".toList
    | .int n => n.repr.toList
    | .str s => s
    | _ => v.typeName
  repr v :=
    match v with
    | .str s => '\'' :: s ++ ['\'']
    | .int n => n.repr.toList
    | _ => v.typeName
  int s := if s ≠ [] ∧ s.all Char.isDigit then
    some (s.foldl (fun n c => 10 * n + (c.toNat - '0'.toNat)) 0) else none
  secondsToMs s :=
    1000 * (s.takeWhile Char.isDigit).foldl (fun n c => 10 * n + (c.toNat - '0'.toNat)) 0
  strip s := (s.dropWhile Char.isWhitespace).rdropWhile Char.isWhitespace
  isDigit := Char.isDigit
  isSpace := Char.isWhitespace
  uuid n := n.repr.toList
  monotonic n := n

end PjsuaMcp.Scenario
