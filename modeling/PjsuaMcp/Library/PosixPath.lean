import PjsuaMcp.Library.Separated

/-!
# POSIX paths

A path is a root and the list of its parts. Slashes in a row count as one, parts
that are a dot are left out, and two slashes in front are a root of their own. A
path that is printed and parsed again is the same.
-/

namespace PjsuaMcp.Library

/-- What a path begins with. -/
inductive PathRoot
  | relative
  | single
  | double
  deriving DecidableEq, Repr

def PathRoot.text : PathRoot → List Char
  | .relative => []
  | .single => ['/']
  | .double => ['/', '/']

structure IsPart (part : List Char) : Prop where
  ne_nil : part ≠ []
  ne_dot : part ≠ ['.']
  no_slash : '/' ∉ part

structure PosixPath where
  root : PathRoot
  parts : List (List Char)
  clean : ∀ part ∈ parts, IsPart part
  deriving DecidableEq

/-- The root of a text, and what follows it. -/
def splitRoot : List Char → PathRoot × List Char
  | '/' :: '/' :: '/' :: rest => (.single, '/' :: '/' :: rest)
  | '/' :: '/' :: rest => (.double, rest)
  | '/' :: rest => (.single, rest)
  | rest => (.relative, rest)

theorem splitRoot_append (root : PathRoot) {rest : List Char} (h : rest.head? ≠ some '/') :
    splitRoot (root.text ++ rest) = (root, rest) := by
  cases rest with
  | nil => cases root <;> rfl
  | cons c rest =>
      have hc : c ≠ '/' := fun hc => h (congrArg some hc)
      cases root <;> simp [PathRoot.text, splitRoot, hc]

/-- The parts that a text without its root has. -/
def partsIn (text : List Char) : List (List Char) :=
  (words (· = '/') text).filter fun part => part ≠ ['.']

theorem isPart_of_mem_partsIn {text part : List Char} (h : part ∈ partsIn text) : IsPart part := by
  obtain ⟨hword, hdot⟩ := List.mem_filter.mp h
  obtain ⟨hne, hslash⟩ := mem_words hword
  refine ⟨hne, of_decide_eq_true hdot, fun hmem => ?_⟩
  exact of_decide_eq_false (hslash '/' hmem) rfl

/-- Parts that are joined by slashes are read back. -/
theorem partsIn_intercalate {parts : List (List Char)} (h : ∀ part ∈ parts, IsPart part) :
    partsIn (['/'].intercalate parts) = parts := by
  have hwords : words (· = '/') (['/'].intercalate parts) = parts := by
    refine words_intercalate (c := '/') (decide_eq_true rfl) fun part hpart => ?_
    refine ⟨(h part hpart).ne_nil, fun c hc => decide_eq_false ?_⟩
    exact ne_of_mem_of_not_mem hc (h part hpart).no_slash
  rw [partsIn, hwords]
  exact List.filter_eq_self.mpr fun part hpart => decide_eq_true (h part hpart).ne_dot

theorem partsIn_of_isPart {part : List Char} (h : IsPart part) : partsIn part = [part] := by
  have hpart := partsIn_intercalate (List.forall_mem_singleton.mpr h)
  rwa [List.intercalate_singleton] at hpart

/-- A join of parts does not begin with a slash. -/
theorem head?_intercalate_ne {parts : List (List Char)} (h : ∀ part ∈ parts, IsPart part) :
    (['/'].intercalate parts).head? ≠ some '/' := by
  cases parts with
  | nil => exact Option.some_ne_none _ |>.symm
  | cons part parts =>
      have hpart := h part List.mem_cons_self
      obtain ⟨c, part, rfl⟩ := List.exists_cons_of_ne_nil hpart.ne_nil
      have hc : c ≠ '/' := ne_of_mem_of_not_mem List.mem_cons_self hpart.no_slash
      have hhead : (['/'].intercalate ((c :: part) :: parts)).head? = some c := by
        cases parts with
        | nil => rw [List.intercalate_singleton, List.head?_cons]
        | cons next parts =>
            rw [List.intercalate_cons_cons, List.append_assoc, List.cons_append, List.head?_cons]
      rw [hhead]
      exact fun heq => hc (Option.some.inj heq)

/-- The last component without its suffix; a dot at either end of a name begins no suffix. -/
def stemOf (name : List Char) : List Char :=
  (beforeLast ['.'] name).elim name fun before =>
    if before ≠ [] ∧ before.length < name.length - 1 then before else name

/-- The stem of a name is what stands before its extension. -/
theorem stemOf_append {base ext : List Char} (hbase : base ≠ []) (hext : ext ≠ [])
    (hdot : '.' ∉ ext) : stemOf (base ++ '.' :: ext) = base := by
  have hbefore : beforeLast ['.'] (base ++ '.' :: ext) = some base := by
    refine beforeLast_append (List.cons_ne_nil _ _) ?_ base
    rwa [List.tail_cons, List.nil_append, List.singleton_infix_iff]
  have hlen := List.length_pos_iff.mpr hext
  rw [stemOf, hbefore, Option.elim_some, if_pos]
  refine ⟨hbase, ?_⟩
  rw [List.length_append, List.length_cons]
  omega

namespace PosixPath

theorem ext_parts {path path' : PosixPath} (root : path.root = path'.root)
    (parts : path.parts = path'.parts) : path = path' := by
  obtain ⟨root', parts', clean⟩ := path
  subst root parts
  rfl

/-- `PurePosixPath(text)`. -/
def ofText (text : List Char) : PosixPath where
  root := (splitRoot text).1
  parts := partsIn (splitRoot text).2
  clean _ := isPart_of_mem_partsIn

/-- `str(path)`; the empty path is a dot. -/
def str (path : PosixPath) : List Char :=
  if path.root = .relative ∧ path.parts = [] then ['.']
  else path.root.text ++ ['/'].intercalate path.parts

/-- `path / text`; a text with a root replaces the path. -/
def joinpath (path : PosixPath) (text : List Char) : PosixPath :=
  if (splitRoot text).1 = .relative then
    { root := path.root
      parts := path.parts ++ partsIn text
      clean := fun part hpart =>
        (List.mem_append.mp hpart).elim (path.clean part) isPart_of_mem_partsIn }
  else ofText text

/-- The last component. -/
def name (path : PosixPath) : List Char := path.parts.getLast?.getD []

def stem (path : PosixPath) : List Char := stemOf path.name

def parent (path : PosixPath) : PosixPath where
  root := path.root
  parts := path.parts.dropLast
  clean part hpart := path.clean part (List.mem_of_mem_dropLast hpart)

/-- `path.with_suffix(suffix)`, of a path with a name. -/
def withSuffix (path : PosixPath) (suffix : List Char) : PosixPath :=
  path.parent.joinpath (path.stem ++ suffix)

/-- `path.relative_to(base)`, which raises for a path that is not below `base`. -/
def relativeTo (path base : PosixPath) : Option PosixPath :=
  if path.root = base.root ∧ base.parts <+: path.parts then
    some
      { root := .relative
        parts := path.parts.drop base.parts.length
        clean := fun part hpart => path.clean part (List.mem_of_mem_drop hpart) }
  else none

/-- `path / other`; a path with a root replaces the first one. -/
def append (path other : PosixPath) : PosixPath :=
  if other.root = .relative then
    { root := path.root
      parts := path.parts ++ other.parts
      clean := fun part hpart =>
        (List.mem_append.mp hpart).elim (path.clean part) (other.clean part) }
  else other

/-- A printed path is parsed back. -/
theorem ofText_str (path : PosixPath) : ofText path.str = path := by
  obtain ⟨root, parts, clean⟩ := path
  by_cases hempty : root = .relative ∧ parts = []
  · obtain ⟨rfl, rfl⟩ := hempty
    exact ext_parts rfl rfl
  · have hsplit := splitRoot_append root (head?_intercalate_ne clean)
    rw [str, if_neg hempty]
    refine ext_parts (congrArg Prod.fst hsplit) ?_
    calc partsIn (splitRoot (root.text ++ ['/'].intercalate parts)).2
      _ = partsIn (['/'].intercalate parts) := by rw [hsplit]
      _ = parts := partsIn_intercalate clean

/-- A path is determined by its text. -/
theorem str_injective : Function.Injective str :=
  Function.LeftInverse.injective ofText_str

/-- Where the path lies below `base`, its parts go on from there. -/
theorem relativeTo_eq_some {path base rel : PosixPath} (h : path.relativeTo base = some rel) :
    path.root = base.root ∧ rel.root = .relative ∧ path.parts = base.parts ++ rel.parts := by
  unfold relativeTo at h
  split_ifs at h with hbelow
  cases h
  exact ⟨hbelow.1, rfl, (List.prefix_iff_eq_append.mp hbelow.2).symm⟩

theorem relativeTo_isSome {path base : PosixPath} (hroot : path.root = base.root)
    (hparts : base.parts <+: path.parts) : ∃ rel, path.relativeTo base = some rel :=
  ⟨_, if_pos ⟨hroot, hparts⟩⟩

theorem append_relative (path : PosixPath) {other : PosixPath} (h : other.root = .relative) :
    (path.append other).root = path.root ∧
      (path.append other).parts = path.parts ++ other.parts := by
  rw [append, if_pos h]
  exact ⟨rfl, rfl⟩

/-- Anchored under another root, different paths stay different. -/
theorem append_inj_of_relativeTo {path path' base rel rel' host : PosixPath}
    (h : path.relativeTo base = some rel) (h' : path'.relativeTo base = some rel')
    (heq : host.append rel = host.append rel') : path = path' := by
  obtain ⟨hroot, hrel, hparts⟩ := relativeTo_eq_some h
  obtain ⟨hroot', hrel', hparts'⟩ := relativeTo_eq_some h'
  have happend : host.parts ++ rel.parts = host.parts ++ rel'.parts := by
    rw [← (host.append_relative hrel).2, heq, (host.append_relative hrel').2]
  have hsame := List.append_cancel_left happend
  apply ext_parts (hroot.trans hroot'.symm)
  rw [hparts, hsame, hparts']

section Join

variable (path : PosixPath) {part : List Char}

theorem joinpath_part (h : IsPart part) :
    (path.joinpath part).root = path.root ∧ (path.joinpath part).parts = path.parts ++ [part] := by
  have hrelative : splitRoot part = (.relative, part) := by
    refine splitRoot_append .relative fun hhead => h.no_slash ?_
    exact List.mem_of_head? hhead
  rw [joinpath, if_pos (congrArg Prod.fst hrelative)]
  exact ⟨rfl, congrArg (path.parts ++ ·) (partsIn_of_isPart h)⟩

/-- The name of a joined path is the part that was joined. -/
theorem name_joinpath (h : IsPart part) : (path.joinpath part).name = part := by
  rw [name, (path.joinpath_part h).2, List.getLast?_concat, Option.getD_some]

/-- The parent of a joined path is the path before. -/
theorem parent_joinpath (h : IsPart part) : (path.joinpath part).parent = path := by
  obtain ⟨hroot, hparts⟩ := path.joinpath_part h
  refine ext_parts hroot ?_
  calc (path.joinpath part).parts.dropLast
    _ = (path.parts ++ [part]).dropLast := by rw [hparts]
    _ = path.parts := List.dropLast_concat

theorem str_joinpath (h : IsPart part) (hne : path.parts ≠ []) :
    (path.joinpath part).str = path.str ++ '/' :: part := by
  obtain ⟨hroot, hparts⟩ := path.joinpath_part h
  have hnonempty : (path.joinpath part).parts ≠ [] := by
    rw [hparts]
    exact List.append_ne_nil_of_right_ne_nil _ (List.cons_ne_nil _ _)
  rw [str, str, if_neg fun hempty => hnonempty hempty.2, if_neg fun hempty => hne hempty.2, hroot,
    hparts, intercalate_concat hne, List.append_assoc, List.append_assoc, List.singleton_append]

end Join

end PosixPath

end PjsuaMcp.Library
