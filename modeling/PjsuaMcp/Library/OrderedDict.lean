import Mathlib.Data.List.Nodup
import Mathlib.Data.List.Count
import Mathlib.Data.List.TakeWhile
import Mathlib.Tactic.Common

/-!
# Insertion-ordered dictionaries

A dictionary is the list of its entries in insertion order, together with the
proof that no key occurs twice. Assigning to a present key keeps its position,
assigning to a new key appends, and deleting keeps the order of the rest.

## Implementation notes

The order is part of the value: programs that scan a dictionary for its first
match observe it. A function from keys to optional values would lose it.
-/

namespace PjsuaMcp.Library

/-- Entries in insertion order, no key twice. -/
structure OrderedDict (κ ν : Type*) where
  entries : List (κ × ν)
  nodup_keys : (entries.map Prod.fst).Nodup

namespace OrderedDict

variable {κ ν : Type*}

/-- Dicts with the same entries in the same order are the same. -/
@[ext] theorem ext {d e : OrderedDict κ ν} (h : d.entries = e.entries) : d = e := by
  cases d; cases e; cases h; rfl

def empty : OrderedDict κ ν := ⟨[], List.nodup_nil⟩

instance : Inhabited (OrderedDict κ ν) := ⟨empty⟩

instance [DecidableEq κ] [DecidableEq ν] : DecidableEq (OrderedDict κ ν) := fun d e =>
  decidable_of_iff (d.entries = e.entries) ⟨ext, fun h => h ▸ rfl⟩

def keys (d : OrderedDict κ ν) : List κ := d.entries.map Prod.fst

/-- Keep exactly the entries whose key passes `p`, in order. -/
def filterKeys (p : κ → Bool) (d : OrderedDict κ ν) : OrderedDict κ ν where
  entries := d.entries.filter fun e => p e.1
  nodup_keys := d.nodup_keys.sublist (List.filter_sublist.map _)

/-- Rewrite every value in place. -/
def mapValues (f : κ → ν → ν) (d : OrderedDict κ ν) : OrderedDict κ ν where
  entries := d.entries.map fun e => (e.1, f e.1 e.2)
  nodup_keys := by
    simpa only [List.map_map, Function.comp_def] using d.nodup_keys

@[simp] theorem entries_empty : (empty : OrderedDict κ ν).entries = [] := rfl

@[simp] theorem entries_filterKeys (p : κ → Bool) (d : OrderedDict κ ν) :
    (d.filterKeys p).entries = d.entries.filter fun e => p e.1 := rfl

@[simp] theorem keys_filterKeys (p : κ → Bool) (d : OrderedDict κ ν) :
    (d.filterKeys p).keys = d.keys.filter p := by
  simp only [keys, entries_filterKeys, List.filter_map]
  rfl

variable [DecidableEq κ]

/-- The value stored under `k`, if any. -/
def get? (d : OrderedDict κ ν) (k : κ) : Option ν :=
  (d.entries.find? fun e => e.1 = k).map Prod.snd

def contains (d : OrderedDict κ ν) (k : κ) : Bool := (d.get? k).isSome

/-- Assign in place when `k` is present, append otherwise. -/
def set (d : OrderedDict κ ν) (k : κ) (v : ν) : OrderedDict κ ν where
  entries :=
    if k ∈ d.keys then d.entries.map fun e => if e.1 = k then (k, v) else e
    else d.entries ++ [(k, v)]
  nodup_keys := by
    split
    · have hkeys : (d.entries.map fun e => if e.1 = k then (k, v) else e).map Prod.fst =
          d.entries.map Prod.fst := by
        rw [List.map_map]
        apply List.map_congr_left
        intro e _
        by_cases he : e.1 = k <;> simp [he]
      rw [hkeys]
      exact d.nodup_keys
    · rename_i hk
      rw [List.map_append]
      exact List.Nodup.append d.nodup_keys (by simp) (by simpa [keys] using hk)

/-- Delete `k`; nothing happens when it is absent. -/
def pop (d : OrderedDict κ ν) (k : κ) : OrderedDict κ ν := d.filterKeys fun k' => k' ≠ k

/-- Assign only when `k` is absent. -/
def setdefault (d : OrderedDict κ ν) (k : κ) (v : ν) : OrderedDict κ ν :=
  if d.contains k then d else d.set k v

/-! ## Lookup as membership -/

/-- A lookup finds the entries of the dict. -/
theorem get?_eq_some_iff (d : OrderedDict κ ν) (k : κ) (v : ν) :
    d.get? k = some v ↔ (k, v) ∈ d.entries := by
  obtain ⟨entries, hnd⟩ := d
  simp only [get?]
  induction entries with
  | nil => simp
  | cons e rest ih =>
      obtain ⟨k', v'⟩ := e
      rw [List.map_cons, List.nodup_cons] at hnd
      by_cases hk : k' = k
      · subst hk
        have hrest : (k', v) ∉ rest := fun h => hnd.1 (List.mem_map.mpr ⟨_, h, rfl⟩)
        simp [hrest, eq_comm]
      · have hne : k ≠ k' := fun h => hk h.symm
        simpa [hk, hne] using ih hnd.2

theorem get?_eq_none_iff (d : OrderedDict κ ν) (k : κ) :
    d.get? k = none ↔ k ∉ d.keys := by
  simp only [get?, keys, Option.map_eq_none_iff, List.find?_eq_none, List.mem_map,
    decide_eq_true_eq, not_exists, not_and]

theorem mem_keys_iff (d : OrderedDict κ ν) (k : κ) :
    k ∈ d.keys ↔ ∃ v, d.get? k = some v := by
  rw [← not_iff_not, ← get?_eq_none_iff, ← Option.ne_none_iff_exists']
  simp

/-- `in` asks whether there is an entry. -/
theorem contains_iff (d : OrderedDict κ ν) (k : κ) :
    d.contains k = true ↔ ∃ v, d.get? k = some v := by
  rw [contains, Option.isSome_iff_exists]

theorem entries_eq_nil_iff (d : OrderedDict κ ν) :
    d.entries = [] ↔ ∀ k, d.contains k = false := by
  constructor
  · intro h k
    rw [← Bool.not_eq_true, contains_iff]
    simp [get?_eq_some_iff, h]
  · intro h
    rw [List.eq_nil_iff_forall_not_mem]
    rintro ⟨k, v⟩ hmem
    have hk := (d.contains_iff k).mpr ⟨v, (d.get?_eq_some_iff k v).mpr hmem⟩
    rw [h k] at hk
    cases hk

@[simp] theorem get?_empty (k : κ) : (empty : OrderedDict κ ν).get? k = none := rfl

/-! ## Lookup after an update -/

/-- A new key goes to the end. -/
theorem entries_set_of_get?_none {d : OrderedDict κ ν} {k : κ} (h : d.get? k = none) (v : ν) :
    (d.set k v).entries = d.entries ++ [(k, v)] := by
  simp only [set, if_neg ((d.get?_eq_none_iff k).mp h)]

/-- A key that is there keeps its place. -/
theorem entries_set_of_get?_some {d : OrderedDict κ ν} {k : κ} {w : ν} (h : d.get? k = some w)
    (v : ν) : (d.set k v).entries = d.entries.map fun e => if e.1 = k then (k, v) else e := by
  simp only [set, if_pos ((d.mem_keys_iff k).mpr ⟨w, h⟩)]

/-- A lookup after an assignment. -/
theorem get?_set (d : OrderedDict κ ν) (k k' : κ) (v : ν) :
    (d.set k v).get? k' = if k = k' then some v else d.get? k' := by
  ext w
  rw [get?_eq_some_iff]
  cases h : d.get? k with
  | none =>
      rw [entries_set_of_get?_none h]
      have hk : ∀ u, (k, u) ∉ d.entries := fun u hu => by
        rw [← get?_eq_some_iff, h] at hu
        cases hu
      by_cases hkk : k = k'
      · subst hkk
        simp [hk, eq_comm]
      · have hne : k' ≠ k := fun e => hkk e.symm
        simp [hkk, hne, get?_eq_some_iff]
  | some u =>
      rw [entries_set_of_get?_some h]
      by_cases hkk : k = k'
      · subst hkk
        have hmem := (d.get?_eq_some_iff k u).mp h
        simp only [List.mem_map, if_true, Option.some.injEq]
        constructor
        · rintro ⟨e, _, he⟩
          split at he
          · exact (Prod.mk.inj he).2
          · rename_i hne
            exact absurd (congrArg Prod.fst he) hne
        · rintro rfl
          exact ⟨(k, u), hmem, by simp⟩
      · rw [if_neg hkk, get?_eq_some_iff, List.mem_map]
        constructor
        · rintro ⟨e, he, heq⟩
          split at heq
          · exact absurd (congrArg Prod.fst heq) hkk
          · exact heq ▸ he
        · intro hmem
          exact ⟨(k', w), hmem, by simp [Ne.symm hkk]⟩

@[simp] theorem get?_set_self (d : OrderedDict κ ν) (k : κ) (v : ν) :
    (d.set k v).get? k = some v := by
  simp [get?_set]

theorem get?_set_of_ne (d : OrderedDict κ ν) {k k' : κ} (h : k ≠ k') (v : ν) :
    (d.set k v).get? k' = d.get? k' := by
  simp [get?_set, h]

@[simp] theorem get?_filterKeys (p : κ → Bool) (d : OrderedDict κ ν) (k : κ) :
    (d.filterKeys p).get? k = if p k then d.get? k else none := by
  ext v
  rw [get?_eq_some_iff, entries_filterKeys, List.mem_filter]
  by_cases hp : p k <;> simp [hp, get?_eq_some_iff]

/-- A lookup after a deletion. -/
@[simp] theorem get?_pop (d : OrderedDict κ ν) (k k' : κ) :
    (d.pop k).get? k' = if k' = k then none else d.get? k' := by
  rw [pop, get?_filterKeys]
  by_cases h : k' = k <;> simp [h]

/-- A lookup after several deletions. -/
theorem get?_foldl_pop (ks : List κ) (d : OrderedDict κ ν) (k : κ) :
    (ks.foldl pop d).get? k = if k ∈ ks then none else d.get? k := by
  induction ks generalizing d with
  | nil => simp
  | cons k' rest ih =>
      rw [List.foldl_cons, ih, get?_pop]
      by_cases hrest : k ∈ rest <;> by_cases hk : k = k' <;> simp [hrest, hk]

/-- Deleting every key leaves nothing. -/
theorem foldl_pop_keys (d : OrderedDict κ ν) : d.keys.foldl pop d = empty := by
  apply OrderedDict.ext
  rw [entries_empty, entries_eq_nil_iff]
  intro k
  rw [contains, get?_foldl_pop]
  split_ifs with hk
  · rfl
  · rw [(get?_eq_none_iff d k).mpr hk]
    rfl

/-- Deleting an absent key does nothing. -/
theorem pop_of_get?_none {d : OrderedDict κ ν} {k : κ} (h : d.get? k = none) : d.pop k = d := by
  apply OrderedDict.ext
  rw [pop, entries_filterKeys, List.filter_eq_self]
  intro e he
  rw [decide_eq_true_eq]
  rintro rfl
  exact (d.get?_eq_none_iff e.1).mp h (List.mem_map_of_mem he)

@[simp] theorem get?_mapValues (f : κ → ν → ν) (d : OrderedDict κ ν) (k : κ) :
    (d.mapValues f).get? k = (d.get? k).map (f k) := by
  ext w
  simp only [get?_eq_some_iff, mapValues, List.mem_map, Option.map_eq_some_iff]
  constructor
  · rintro ⟨⟨k', v⟩, hmem, he⟩
    obtain ⟨rfl, rfl⟩ := Prod.mk.inj he
    exact ⟨v, hmem, rfl⟩
  · rintro ⟨v, hmem, rfl⟩
    exact ⟨(k, v), hmem, rfl⟩

/-- `setdefault` assigns to a free key only. -/
theorem get?_setdefault (d : OrderedDict κ ν) (k k' : κ) (v : ν) :
    (d.setdefault k v).get? k' =
      if k = k' then some ((d.get? k).getD v) else d.get? k' := by
  unfold setdefault contains
  by_cases hkk : k = k'
  · subst hkk
    cases h : d.get? k <;> simp [h]
  · cases h : d.get? k <;> simp [hkk, get?_set]

theorem keys_set_of_get?_none {d : OrderedDict κ ν} {k : κ} (h : d.get? k = none) (v : ν) :
    (d.set k v).keys = d.keys ++ [k] := by
  simp [keys, entries_set_of_get?_none h]

theorem keys_set_of_get?_some {d : OrderedDict κ ν} {k : κ} {w : ν} (h : d.get? k = some w)
    (v : ν) : (d.set k v).keys = d.keys := by
  rw [keys, entries_set_of_get?_some h, List.map_map, keys]
  refine List.map_congr_left fun e _ => ?_
  rw [Function.comp_apply]
  split_ifs with he
  · exact he.symm
  · rfl

theorem keys_setdefault (d : OrderedDict κ ν) (k : κ) (v : ν) :
    (d.setdefault k v).keys = if k ∈ d.keys then d.keys else d.keys ++ [k] := by
  unfold setdefault contains
  cases hk : d.get? k with
  | none =>
      have hnot := (d.get?_eq_none_iff k).mp hk
      rw [if_neg hnot]
      exact keys_set_of_get?_none hk v
  | some w =>
      have hmem := (d.mem_keys_iff k).mpr ⟨w, hk⟩
      rw [if_pos hmem]
      rfl

/-! ## The first key whose value matches -/

/-- The first key, in insertion order, whose value satisfies `p`. -/
def findKey? (d : OrderedDict κ ν) (p : ν → Bool) : Option κ :=
  (d.entries.find? fun e => p e.2).map Prod.fst

theorem get?_of_findKey? {d : OrderedDict κ ν} {p : ν → Bool} {k : κ} (h : d.findKey? p = some k) :
    ∃ v, d.get? k = some v ∧ p v = true := by
  obtain ⟨e, hfound, rfl⟩ := Option.map_eq_some_iff.mp h
  have hmatch := List.find?_some hfound
  exact ⟨e.2, (d.get?_eq_some_iff e.1 e.2).mpr (List.mem_of_find?_eq_some hfound), hmatch⟩

/-- The entries in front of the place of `k`, or all of them when `k` is absent. -/
def before (d : OrderedDict κ ν) (k : κ) : List (κ × ν) := d.entries.takeWhile fun e => e.1 ≠ k

/-- The entries behind the place of `k`. -/
def after (d : OrderedDict κ ν) (k : κ) : List (κ × ν) :=
  (d.entries.dropWhile fun e => e.1 ≠ k).tail

theorem ne_of_mem_before {d : OrderedDict κ ν} {k : κ} {e : κ × ν} (he : e ∈ d.before k) :
    e.1 ≠ k := by
  have hne := List.mem_takeWhile_imp he
  simpa using hne

theorem before_of_get?_none {d : OrderedDict κ ν} {k : κ} (h : d.get? k = none) :
    d.before k = d.entries ∧ d.after k = [] := by
  have hall : ∀ e ∈ d.entries, decide (e.1 ≠ k) = true := by
    intro e he
    have hk := (d.get?_eq_none_iff k).mp h
    exact decide_eq_true fun heq => hk (heq ▸ List.mem_map_of_mem he)
  constructor
  · exact List.takeWhile_eq_self_iff.mpr hall
  · rw [after, List.dropWhile_eq_nil_iff.mpr hall, List.tail_nil]

/-- The entries before a key, its own entry, and those after it. -/
theorem entries_eq_of_get?_some {d : OrderedDict κ ν} {k : κ} {w : ν} (h : d.get? k = some w) :
    d.entries = d.before k ++ (k, w) :: d.after k := by
  have hsplit := List.takeWhile_append_dropWhile (p := fun e : κ × ν => e.1 ≠ k) (l := d.entries)
  cases hdrop : d.entries.dropWhile fun e => e.1 ≠ k with
  | nil =>
      have hmem := (d.get?_eq_some_iff k w).mp h
      have := List.dropWhile_eq_nil_iff.mp hdrop _ hmem
      simp at this
  | cons e rest =>
      have hkey : e.1 = k := by
        have hne : d.entries.dropWhile (fun e => e.1 ≠ k) ≠ [] := by
          rw [hdrop]
          exact List.cons_ne_nil _ _
        have hhead := List.head_dropWhile_not (fun e : κ × ν => decide (e.1 ≠ k)) hne
        simp only [hdrop, List.head_cons, decide_eq_false_iff_not, not_not] at hhead
        exact hhead
      have hvalue : e.2 = w := by
        have hmem : e ∈ d.entries := by
          rw [← hsplit, hdrop]
          exact List.mem_append_right _ List.mem_cons_self
        have he := (d.get?_eq_some_iff e.1 e.2).mpr hmem
        rw [hkey, h] at he
        exact (Option.some.inj he).symm
      have he : e = (k, w) := Prod.ext hkey hvalue
      rw [hdrop, he] at hsplit
      rw [before, after, hdrop, List.tail_cons]
      exact hsplit.symm

theorem ne_of_mem_after {d : OrderedDict κ ν} {k : κ} {e : κ × ν} (he : e ∈ d.after k) :
    e.1 ≠ k := by
  cases h : d.get? k with
  | none =>
      rw [(before_of_get?_none h).2] at he
      cases he
  | some w =>
      have hnd := d.nodup_keys
      rw [entries_eq_of_get?_some h, List.map_append, List.map_cons] at hnd
      have hnot := (List.nodup_cons.mp (List.nodup_append.mp hnd).2.1).1
      have hmem : e.1 ∈ (d.after k).map Prod.fst := List.mem_map_of_mem he
      intro heq
      rw [heq] at hmem
      exact hnot hmem

/-- An assignment replaces or appends one entry between the two parts. -/
theorem entries_set (d : OrderedDict κ ν) (k : κ) (v : ν) :
    (d.set k v).entries = d.before k ++ (k, v) :: d.after k := by
  cases h : d.get? k with
  | none => rw [entries_set_of_get?_none h, (before_of_get?_none h).1, (before_of_get?_none h).2]
  | some w =>
      have hkeep : ∀ l : List (κ × ν), (∀ e ∈ l, e.1 ≠ k) →
          l.map (fun e => if e.1 = k then (k, v) else e) = l := by
        intro l hl
        refine (List.map_congr_left fun e he => ?_).trans (List.map_id l)
        rw [if_neg (hl e he)]
        rfl
      rw [entries_set_of_get?_some h, entries_eq_of_get?_some h, List.map_append, List.map_cons,
        if_pos rfl, hkeep _ fun e he => ne_of_mem_before he, hkeep _ fun e he => ne_of_mem_after he]

/-- A deletion takes one entry from between the two parts. -/
theorem entries_pop (d : OrderedDict κ ν) (k : κ) :
    (d.pop k).entries = d.before k ++ d.after k := by
  have hbefore : ∀ e ∈ d.before k, decide (e.1 ≠ k) = true := fun e he =>
    decide_eq_true (ne_of_mem_before he)
  have hafter : ∀ e ∈ d.after k, decide (e.1 ≠ k) = true := fun e he =>
    decide_eq_true (ne_of_mem_after he)
  rw [pop, entries_filterKeys]
  cases h : d.get? k with
  | none =>
      obtain ⟨hall, hnone⟩ := before_of_get?_none h
      rw [hnone, List.append_nil, ← hall]
      exact List.filter_eq_self.mpr hbefore
  | some w =>
      rw [entries_eq_of_get?_some h, List.filter_append, List.filter_cons_of_neg (by simp),
        List.filter_eq_self.mpr hbefore, List.filter_eq_self.mpr hafter]

/-- A view of the entries that does not tell the new value from the old one. -/
theorem map_entries_set {β : Type*} {d : OrderedDict κ ν} {k : κ} {v w : ν}
    (h : d.get? k = some w) (f : κ × ν → β) (hf : f (k, v) = f (k, w)) :
    (d.set k v).entries.map f = d.entries.map f := by
  rw [entries_set, entries_eq_of_get?_some h, List.map_append, List.map_append, List.map_cons,
    List.map_cons, hf]

/-- The new value matches: its key is found first if and only if nothing before it matches. -/
theorem findKey?_set_of_match {d : OrderedDict κ ν} {k : κ} {v : ν} {p : ν → Bool}
    (hv : p v = true) :
    (d.set k v).findKey? p = some k ↔ ∀ e ∈ d.before k, p e.2 = false := by
  rw [findKey?, entries_set, List.find?_append, List.find?_cons_of_pos (by exact hv)]
  cases hfind : (d.before k).find? fun e => p e.2 with
  | none =>
      refine iff_of_true rfl fun e he => ?_
      simpa using List.find?_eq_none.mp hfind e he
  | some e =>
      have hmem := List.mem_of_find?_eq_some hfind
      have hmatch : p e.2 = true := by simpa using List.find?_some hfind
      refine iff_of_false (fun heq => ne_of_mem_before hmem ?_) fun hall => ?_
      · simpa using heq
      · rw [hall e hmem] at hmatch
        cases hmatch

/-- The new value does not match: a first key other than the assigned one stays first, and
the assigned one is never found. -/
theorem findKey?_set_of_not_match {d : OrderedDict κ ν} {k j : κ} {v : ν} {p : ν → Bool}
    (hv : p v = false) (hj : d.findKey? p = some j) :
    (d.set k v).findKey? p = some j ↔ j ≠ k := by
  have hset : (d.set k v).entries.find? (fun e => p e.2) =
      ((d.before k).find? fun e => p e.2).or ((d.after k).find? fun e => p e.2) := by
    rw [entries_set, List.find?_append, List.find?_cons_of_neg (by simp [hv])]
  constructor
  · rintro hfound rfl
    rw [findKey?, hset, ← List.find?_append] at hfound
    obtain ⟨e, he, hkey⟩ := Option.map_eq_some_iff.mp hfound
    rcases List.mem_append.mp (List.mem_of_find?_eq_some he) with hmem | hmem
    · exact ne_of_mem_before hmem hkey
    · exact ne_of_mem_after hmem hkey
  · intro hne
    rw [findKey?, hset, ← hj, findKey?]
    cases h : d.get? k with
    | none =>
        rw [(before_of_get?_none h).1, (before_of_get?_none h).2]
        simp
    | some w =>
        rw [findKey?, entries_eq_of_get?_some h, List.find?_append] at hj
        rw [entries_eq_of_get?_some h, List.find?_append]
        cases hw : p w with
        | false => rw [List.find?_cons_of_neg (by simp [hw])]
        | true =>
            rw [List.find?_cons_of_pos (by exact hw)] at hj ⊢
            cases hfind : (d.before k).find? fun e => p e.2 with
            | some e => rfl
            | none =>
                rw [hfind] at hj
                exact (hne (Option.some.inj hj).symm).elim

end OrderedDict

end PjsuaMcp.Library
