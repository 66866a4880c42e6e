import Mathlib.Data.List.Basic

/-!
# Lists as heaps

The cells of a heap are addressed by their place in a list. A cell is replaced
where it stands, or added at the end; no cell goes away.
-/

namespace PjsuaMcp.Library

variable {α : Type*} {l : List α}

/-- What stands in a heap after one cell has been replaced. -/
theorem cell_of_set {k i : Nat} {new x : α} (h : (l.set k new)[i]? = some x) :
    (i = k ∧ x = new) ∨ (i ≠ k ∧ l[i]? = some x) := by
  rw [List.getElem?_set] at h
  split_ifs at h with hi
  · cases h
    exact .inl ⟨hi.symm, rfl⟩
  · exact .inr ⟨Ne.symm hi, h⟩

/-- What stands in a heap after a cell has been added. -/
theorem cell_of_concat {i : Nat} {new x : α} (h : (l ++ [new])[i]? = some x) :
    l[i]? = some x ∨ (i = l.length ∧ x = new) := by
  rw [List.getElem?_append] at h
  split_ifs at h with hlt
  · exact .inl h
  · rw [List.getElem?_singleton] at h
    split_ifs at h with hi
    cases h
    have hle : i ≤ l.length := Nat.sub_eq_zero_iff_le.mp hi
    exact .inr ⟨Nat.le_antisymm hle (Nat.not_lt.mp hlt), rfl⟩

/-- A heap that grows keeps its cells. -/
theorem cell_append {i : Nat} {x : α} (h : l[i]? = some x) (more : List α) :
    (l ++ more)[i]? = some x :=
  (List.getElem?_append_left (List.getElem?_eq_some_iff.mp h).1).trans h

theorem mem_of_mem_set {k : Nat} {new x : α} (h : x ∈ l.set k new) (hne : x ≠ new) : x ∈ l :=
  (List.mem_or_eq_of_mem_set h).resolve_right hne

theorem mem_of_mem_concat {new x : α} (h : x ∈ l ++ [new]) (hne : x ≠ new) : x ∈ l :=
  (List.mem_append.mp h).resolve_right fun hnew => hne (List.mem_singleton.mp hnew)

/-- What stands in a heap keeps standing there when something else is replaced. -/
theorem mem_set_of_mem {k : Nat} {old x : α} (hk : l[k]? = some old) (hne : old ≠ x) (hx : x ∈ l)
    (new : α) : x ∈ l.set k new := by
  obtain ⟨j, hj⟩ := List.mem_iff_getElem?.mp hx
  have hkj : k ≠ j := by
    rintro rfl
    rw [hk] at hj
    exact hne (Option.some.inj hj)
  exact List.mem_iff_getElem?.mpr ⟨j, (List.getElem?_set_ne hkj).trans hj⟩

/-- How many cells of a kind there are after one has been replaced. -/
theorem countP_set_add {p : α → Bool} {k : Nat} {old : α} (hk : l[k]? = some old) (new : α) :
    (l.set k new).countP p + (if p old then 1 else 0) =
      l.countP p + (if p new then 1 else 0) := by
  induction l generalizing k with
  | nil => cases hk
  | cons x rest ih =>
      cases k with
      | zero =>
          cases hk
          simp only [List.set_cons_zero, List.countP_cons]
          omega
      | succ k =>
          have hrest := ih (k := k) hk
          simp only [List.set_cons_succ, List.countP_cons]
          omega

end PjsuaMcp.Library
