import PjsuaMcp.Library.OrderedDict

/-!
# Tables of named functions

A table keeps functions under names and lists the names in the order in which
they came. A name that is taken stays with its function, and removing a name that
is not there fails. A table is given by its operations and by the laws that they
obey; how it stores the functions is left open.
-/

namespace PjsuaMcp.Library

structure FunctionTable (K F : Type) [DecidableEq K] where
  Table : Type
  empty : Table
  listed : Table → List K
  bound : Table → K → Option F
  add : Table → K → F → Table
  /-- `none` when it fails. -/
  remove : Table → K → Option Table
  nodup_listed : ∀ t, (listed t).Nodup
  mem_listed_iff : ∀ t k, k ∈ listed t ↔ ∃ f, bound t k = some f
  listed_empty : listed empty = []
  listed_add : ∀ t k f, listed (add t k f) = if k ∈ listed t then listed t else listed t ++ [k]
  bound_add : ∀ t k f q, bound (add t k f) q =
    if q = k then some ((bound t k).getD f) else bound t q
  remove_eq_none_iff : ∀ t k, remove t k = none ↔ k ∉ listed t
  listed_remove : ∀ t k t', remove t k = some t' → listed t' = (listed t).filter fun q => q ≠ k
  bound_remove : ∀ t k t', remove t k = some t' → ∀ q,
    bound t' q = if q = k then none else bound t q

namespace FunctionTable

variable {K F : Type} [DecidableEq K] (T : FunctionTable K F)

/-- One after the other. -/
def addAll (t : T.Table) (bindings : List (K × F)) : T.Table :=
  bindings.foldl (fun t e => T.add t e.1 e.2) t

/-- A failure leaves the table as it is. -/
def tryRemove (t : T.Table) (k : K) : T.Table := (T.remove t k).getD t

def removeAll (t : T.Table) (names : List K) : T.Table := names.foldl T.tryRemove t

variable {T}

/-- A name is bound exactly when it is listed. -/
theorem bound_eq_none_iff (t : T.Table) (k : K) : T.bound t k = none ↔ k ∉ T.listed t := by
  rw [T.mem_listed_iff, Option.eq_none_iff_forall_ne_some, not_exists]

/-! ## Adding -/

theorem mem_listed_addAll {t : T.Table} {bindings : List (K × F)} {k : K} :
    k ∈ T.listed (T.addAll t bindings) ↔ k ∈ T.listed t ∨ k ∈ bindings.map Prod.fst := by
  induction bindings generalizing t with
  | nil => simp [addAll]
  | cons e rest ih =>
      have hone : k ∈ T.listed (T.add t e.1 e.2) ↔ k ∈ T.listed t ∨ k = e.1 := by
        rw [T.listed_add]
        split_ifs with hknown
        · constructor
          · exact .inl
          · rintro (hk | rfl)
            · exact hk
            · exact hknown
        · rw [List.mem_append, List.mem_singleton]
      calc k ∈ T.listed (T.addAll (T.add t e.1 e.2) rest)
        _ ↔ k ∈ T.listed (T.add t e.1 e.2) ∨ k ∈ rest.map Prod.fst := ih
        _ ↔ k ∈ T.listed t ∨ k ∈ (e :: rest).map Prod.fst := by
            rw [hone, List.map_cons, List.mem_cons, or_assoc]

/-- What is bound after adding was bound before or is one of the new bindings. -/
theorem bound_addAll_cases {t : T.Table} {bindings : List (K × F)} {k : K} {f : F}
    (h : T.bound (T.addAll t bindings) k = some f) :
    T.bound t k = some f ∨ (k, f) ∈ bindings := by
  induction bindings generalizing t with
  | nil => exact .inl h
  | cons e rest ih =>
      obtain hone | hrest := ih h
      · rw [T.bound_add] at hone
        split_ifs at hone with hk
        · subst hk
          cases hold : T.bound t e.1 with
          | none =>
              rw [hold] at hone
              cases hone
              exact .inr List.mem_cons_self
          | some old =>
              rw [hold] at hone
              exact .inl hone
        · exact .inl hone
      · exact .inr (List.mem_cons_of_mem e hrest)

/-- Names that satisfy `p` are listed as before when no new one does. -/
theorem filter_listed_addAll {p : K → Bool} {bindings : List (K × F)}
    (h : ∀ e ∈ bindings, p e.1 = false) (t : T.Table) :
    (T.listed (T.addAll t bindings)).filter p = (T.listed t).filter p := by
  induction bindings generalizing t with
  | nil => rfl
  | cons e rest ih =>
      have hone : (T.listed (T.add t e.1 e.2)).filter p = (T.listed t).filter p := by
        rw [T.listed_add]
        split_ifs
        · rfl
        · rw [List.filter_append, List.filter_singleton, h e List.mem_cons_self]
          exact List.append_nil _
      exact (ih (fun e he => h e (List.mem_cons_of_mem _ he)) _).trans hone

/-! ## Removing -/

/-- Removing a name, whether it is listed or not. -/
theorem listed_tryRemove (t : T.Table) (k : K) :
    T.listed (T.tryRemove t k) = (T.listed t).filter fun q => q ≠ k := by
  unfold tryRemove
  cases hremove : T.remove t k with
  | none =>
      have hunknown := (T.remove_eq_none_iff t k).mp hremove
      symm
      apply List.filter_eq_self.mpr
      intro q hq
      refine decide_eq_true ?_
      rintro rfl
      exact hunknown hq
  | some t' => exact T.listed_remove t k t' hremove

theorem bound_tryRemove (t : T.Table) (k q : K) :
    T.bound (T.tryRemove t k) q = if q = k then none else T.bound t q := by
  unfold tryRemove
  cases hremove : T.remove t k with
  | none =>
      split_ifs with hq
      · subst hq
        exact (bound_eq_none_iff t q).mpr ((T.remove_eq_none_iff t q).mp hremove)
      · rfl
  | some t' => exact T.bound_remove t k t' hremove q

theorem listed_removeAll (t : T.Table) (names : List K) :
    T.listed (T.removeAll t names) = (T.listed t).filter fun q => q ∉ names := by
  induction names generalizing t with
  | nil => simp [removeAll]
  | cons k rest ih =>
      refine (ih (T.tryRemove t k)).trans ?_
      rw [listed_tryRemove, List.filter_filter]
      apply List.filter_congr
      intro q _
      simp [Bool.and_comm]

theorem mem_listed_removeAll {t : T.Table} {names : List K} {k : K} :
    k ∈ T.listed (T.removeAll t names) ↔ k ∈ T.listed t ∧ k ∉ names := by
  rw [listed_removeAll, List.mem_filter, decide_eq_true_eq]

/-- Names that are removed are no longer bound, and the others are bound as before. -/
theorem bound_removeAll (t : T.Table) (names : List K) (q : K) :
    T.bound (T.removeAll t names) q = if q ∈ names then none else T.bound t q := by
  induction names generalizing t with
  | nil => rfl
  | cons k rest ih =>
      refine (ih (T.tryRemove t k)).trans ?_
      rw [bound_tryRemove]
      by_cases hk : q = k <;> by_cases hrest : q ∈ rest <;> simp [hk, hrest]

/-! ## A dictionary -/

variable (K F)

/-- The table that is a dictionary. -/
def dictionary : FunctionTable K F where
  Table := OrderedDict K F
  empty := .empty
  listed := OrderedDict.keys
  bound := OrderedDict.get?
  add := OrderedDict.setdefault
  remove t k := if t.contains k then some (t.pop k) else none
  nodup_listed t := t.nodup_keys
  mem_listed_iff t k := t.mem_keys_iff k
  listed_empty := rfl
  listed_add t k f := t.keys_setdefault k f
  bound_add t k f q := by
    rw [OrderedDict.get?_setdefault]
    by_cases hq : q = k
    · simp [hq]
    · simp [hq, Ne.symm hq]
  remove_eq_none_iff t k := by
    rw [OrderedDict.mem_keys_iff, ← OrderedDict.contains_iff]
    simp
  listed_remove t k t' h := by
    split_ifs at h
    cases h
    exact OrderedDict.keys_filterKeys _ _
  bound_remove t k t' h q := by
    split_ifs at h
    cases h
    exact t.get?_pop k q

end FunctionTable

end PjsuaMcp.Library
