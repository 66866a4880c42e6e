import PjsuaMcp.Library.Matching
import Mathlib.Data.List.Basic

/-!
# Searching for a pattern

A search tries a matcher at every position of its input, from the left. The
matcher is told which token stands in front of the position, so that it can
require a word boundary or the beginning of a line.

A matcher is local when appending text to its input changes neither which
matches end inside the old input nor their order. Without lookahead every
pattern is local. What a search finds inside the beginning of a text is then
found without the rest of the text.

## Implementation notes

`findAll` passes over the tokens of a match by counting them down. It is meant
for patterns that do not match the empty text.
-/

namespace PjsuaMcp.Library

namespace Matcher

variable {τ α β : Type}

/-- One token satisfying `p`. -/
def one (p : τ → Bool) : Matcher τ τ
  | [] => []
  | c :: rest => if p c then [(c, rest)] else []

/-- Tokens that agree with those of a word, one by one. -/
def word (agree : τ → τ → Bool) : List τ → Matcher τ Unit
  | [] => pure ()
  | c :: cs => do
      let _ ← one (agree c)
      word agree cs

/-- Tokens satisfying `p`, as few as possible. -/
def manyLazy (p : τ → Bool) : Matcher τ (List τ)
  | [] => [([], [])]
  | c :: rest =>
      ([], c :: rest) :: if p c then (manyLazy p rest).map (fun r => (c :: r.1, r.2)) else []

/-- Read nothing, and go on only under a condition. -/
def require (b : Bool) : Matcher τ Unit := fun input => if b then [((), input)] else []

/-- The first position where the matcher succeeds: its first result there. -/
def search (m : Option τ → Matcher τ α) : Option τ → List τ → Option (α × List τ)
  | prev, [] => (m prev []).head?
  | prev, c :: rest => (m prev (c :: rest)).head?.or (search m (some c) rest)

/-- The matches from the left, each one tried after the end of the one before; `skip` counts the
tokens that are still to be passed over. -/
def findAll (m : Option τ → Matcher τ α) : Option τ → Nat → List τ → List (α × List τ)
  | prev, 0, [] => (m prev []).head?.toList
  | _, _ + 1, [] => []
  | prev, 0, c :: rest =>
      match (m prev (c :: rest)).head? with
      | some r => r :: findAll m (some c) (rest.length - r.2.length) rest
      | none => findAll m (some c) 0 rest
  | _, skip + 1, c :: rest => findAll m (some c) skip rest

@[simp] theorem mem_one {p : τ → Bool} {c : τ} {input rest : List τ} :
    (c, rest) ∈ one p input ↔ input = c :: rest ∧ p c = true := by
  cases input with
  | nil => simp [one]
  | cons d input =>
      rw [one]
      split_ifs with hd
      · simp only [List.mem_singleton, Prod.mk.injEq, List.cons.injEq]
        constructor
        · rintro ⟨rfl, rfl⟩
          exact ⟨⟨rfl, rfl⟩, hd⟩
        · rintro ⟨⟨rfl, rfl⟩, -⟩
          exact ⟨rfl, rfl⟩
      · refine iff_of_false List.not_mem_nil ?_
        rintro ⟨heq, hc⟩
        rw [(List.cons.inj heq).1] at hd
        exact hd hc

/-! ## Local matchers -/

/-- A result with `b` after the input left over. -/
def extend (b : List τ) (r : α × List τ) : α × List τ := (r.1, r.2 ++ b)

@[simp] theorem length_extend (b : List τ) (r : α × List τ) :
    (extend b r).2.length = r.2.length + b.length := List.length_append

theorem extend_nil : (extend [] : α × List τ → α × List τ) = id :=
  funext fun r => Prod.ext rfl (List.append_nil r.2)

/-- The result leaves at least as many tokens as `b` has. -/
def leaves (b : List τ) (r : α × List τ) : Bool := b.length ≤ r.2.length

/-- A result leaves an end of the input, and the results on `x ++ b` that leave `b` are the results
on `x`, in their order. -/
structure Local (m : Matcher τ α) : Prop where
  suffix : ∀ input, ∀ r ∈ m input, r.2 <:+ input
  inside : ∀ x b, (m (x ++ b)).filter (leaves b) = (m x).map (extend b)

/-- No result has more input left than there was. -/
theorem Local.shrinks {m : Matcher τ α} (hm : Local m) (input : List τ) {r : α × List τ}
    (h : r ∈ m input) : r.2.length ≤ input.length :=
  (hm.suffix input r h).length_le

/-- What is left when results leave too little: nothing. -/
theorem filter_leaves_eq_nil {results : List (α × List τ)} {b : List τ}
    (h : ∀ r ∈ results, r.2.length < b.length) : results.filter (leaves b) = [] := by
  rw [List.filter_eq_nil_iff]
  intro r hr hleaves
  exact absurd (of_decide_eq_true hleaves) (Nat.not_le.mpr (h r hr))

/-- Readings that leave the appended text untouched are all kept. -/
theorem filter_leaves_eq_self {results : List (α × List τ)} {b : List τ}
    (h : ∀ r ∈ results, b.length ≤ r.2.length) : results.filter (leaves b) = results :=
  List.filter_eq_self.mpr fun r hr => decide_eq_true (h r hr)

theorem local_pure (a : α) : Local (pure a : Matcher τ α) where
  suffix := by
    intro input r hr
    obtain rfl := List.mem_singleton.mp hr
    exact List.suffix_rfl
  inside := by
    intro x b
    exact filter_leaves_eq_self fun r hr => by
      rw [List.mem_singleton.mp hr, List.length_append]
      exact Nat.le_add_left _ _

theorem local_require (c : Bool) : Local (require c : Matcher τ Unit) := by
  cases c with
  | true => exact local_pure ()
  | false => exact ⟨fun _ _ hr => absurd hr List.not_mem_nil, fun _ _ => rfl⟩

/-- Patterns that are local, one after the other. -/
theorem local_bind {m : Matcher τ α} {k : α → Matcher τ β} (hm : Local m)
    (hk : ∀ a, Local (k a)) : Local (m >>= k) where
  suffix := by
    intro input r hr
    obtain ⟨a, mid, hmid, hr⟩ := mem_bind.mp hr
    exact ((hk a).suffix mid r hr).trans (hm.suffix input _ hmid)
  inside := by
    intro x b
    -- what follows a result that has left too little leaves too little as well
    have hdrop : ∀ results : List (α × List τ),
        (results.flatMap fun r => k r.1 r.2).filter (leaves b) =
          (results.filter (leaves b)).flatMap fun r => (k r.1 r.2).filter (leaves b) := by
      intro results
      induction results with
      | nil => rfl
      | cons r results ih =>
          rw [List.flatMap_cons, List.filter_append, ih, List.filter_cons]
          split_ifs with hr
          · rw [List.flatMap_cons]
          · have hshort : r.2.length < b.length := by
              simpa [leaves] using hr
            have hnil := filter_leaves_eq_nil fun r' hr' =>
              Nat.lt_of_le_of_lt ((hk r.1).shrinks r.2 hr') hshort
            rw [hnil, List.nil_append]
    change ((m (x ++ b)).flatMap fun r => k r.1 r.2).filter (leaves b) =
      ((m x).flatMap fun r => k r.1 r.2).map (extend b)
    rw [hdrop, hm.inside, List.flatMap_map, List.map_flatMap]
    refine List.flatMap_congr fun r _ => ?_
    exact (hk r.1).inside r.2 b

theorem local_one (p : τ → Bool) : Local (one p) where
  suffix := by
    intro input r hr
    obtain ⟨rfl, -⟩ := mem_one.mp hr
    exact List.suffix_cons _ _
  inside := by
    intro x b
    cases x with
    | nil =>
        refine filter_leaves_eq_nil fun r hr => ?_
        obtain ⟨heq, -⟩ := mem_one.mp hr
        rw [List.nil_append] at heq
        rw [heq]
        exact Nat.lt_succ_self _
    | cons c x =>
        by_cases hc : p c = true <;> simp [one, hc, leaves, extend]

theorem local_word (agree : τ → τ → Bool) (w : List τ) : Local (word agree w) := by
  induction w with
  | nil => exact local_pure ()
  | cons c w ih => exact local_bind (local_one _) fun _ => ih

theorem local_lit [DecidableEq τ] (w : List τ) : Local (lit w) := by
  have hword : (lit w : Matcher τ Unit) = word (fun c d => c = d) w := by
    induction w with
    | nil => rfl
    | cons c w ih =>
        funext input
        rw [word, ← ih]
        cases input with
        | nil => rfl
        | cons d rest =>
            change _ = (one (fun d => decide (c = d)) (d :: rest)).flatMap fun r => lit w r.2
            by_cases hcd : c = d <;> simp [lit, one, hcd]
  rw [hword]
  exact local_word _ w

/-- A token in front of what was read does not change what is left. -/
theorem filter_leaves_map_cons (b : List τ) (c : τ) (results : List (List τ × List τ)) :
    (results.map fun r => (c :: r.1, r.2)).filter (leaves b) =
      (results.filter (leaves b)).map fun r => (c :: r.1, r.2) := by
  rw [List.filter_map]
  rfl

theorem map_cons_extend (b : List τ) (c : τ) (results : List (List τ × List τ)) :
    (results.map (extend b)).map (fun r => (c :: r.1, r.2)) =
      (results.map fun r => (c :: r.1, r.2)).map (extend b) := by
  rw [List.map_map, List.map_map]
  rfl

theorem many_suffix {p : τ → Bool} {input : List τ} {r : List τ × List τ}
    (h : r ∈ many p input) : r.2 <:+ input := by
  obtain ⟨rfl, -⟩ := mem_many.mp h
  exact List.suffix_append _ _

/-- Results that read at least one token of `c :: b` leave less than `c :: b`. -/
theorem filter_leaves_cons_eq_nil {c : τ} {b : List τ} {results : List (List τ × List τ)}
    (h : ∀ r ∈ results, r.2.length ≤ b.length) :
    (results.map fun r => (c :: r.1, r.2)).filter (leaves (c :: b)) = [] := by
  refine filter_leaves_eq_nil fun r hr => ?_
  obtain ⟨r', hr', rfl⟩ := List.mem_map.mp hr
  exact Nat.lt_succ_of_le (h r' hr')

/-- Repetition of a character is local. -/
theorem local_many (p : τ → Bool) : Local (many p) where
  suffix := fun _ _ => many_suffix
  inside := by
    intro x b
    induction x with
    | nil =>
        cases b with
        | nil => rfl
        | cons c b =>
            rw [List.nil_append, many, many]
            split_ifs with hc
            · rw [List.filter_append, filter_leaves_cons_eq_nil fun r hr => (many_suffix hr).length_le]
              simp [leaves, extend]
            · simp [leaves, extend]
    | cons c x ih =>
        rw [List.cons_append, many, many]
        split_ifs with hc
        · rw [List.filter_append, filter_leaves_map_cons, ih, map_cons_extend, List.map_append]
          congr 1
          simp [leaves, extend]
          omega
        · simp [leaves, extend]
          omega

/-- A first character, and any number of further ones. -/
theorem many1_eq (p : τ → Bool) : many1 p = do
    let c ← one p
    let cs ← many p
    return c :: cs := by
  funext input
  cases input with
  | nil => rfl
  | cons c rest =>
      change (if p c then (many p rest).map (fun r => (c :: r.1, r.2)) else []) =
        (one p (c :: rest)).flatMap fun r => (many p r.2).flatMap fun r' => [(r.1 :: r'.1, r'.2)]
      rw [one]
      split_ifs with hc
      · rw [List.flatMap_singleton, List.map_eq_flatMap]
      · rfl

theorem local_many1 (p : τ → Bool) : Local (many1 p) := by
  rw [many1_eq]
  exact local_bind (local_one p) fun _ => local_bind (local_many p) fun _ => local_pure _

theorem manyLazy_suffix {p : τ → Bool} {input : List τ} {r : List τ × List τ}
    (h : r ∈ manyLazy p input) : r.2 <:+ input := by
  induction input generalizing r with
  | nil =>
      obtain rfl := List.mem_singleton.mp h
      exact List.suffix_rfl
  | cons c rest ih =>
      rw [manyLazy] at h
      rcases List.mem_cons.mp h with rfl | h
      · exact List.suffix_rfl
      · split_ifs at h with hc
        · obtain ⟨r', hr', rfl⟩ := List.mem_map.mp h
          exact (ih (r := r') hr').trans (List.suffix_cons _ _)
        · cases h

theorem local_manyLazy (p : τ → Bool) : Local (manyLazy p) where
  suffix := fun _ _ => manyLazy_suffix
  inside := by
    intro x b
    induction x with
    | nil =>
        cases b with
        | nil => rfl
        | cons c b =>
            rw [List.nil_append, manyLazy, manyLazy]
            split_ifs with hc
            · rw [List.filter_cons, filter_leaves_cons_eq_nil fun r hr => (manyLazy_suffix hr).length_le]
              simp [leaves, extend]
            · simp [leaves, extend]
    | cons c x ih =>
        rw [List.cons_append, manyLazy, manyLazy, List.filter_cons, if_pos, List.map_cons]
        · congr 1
          split_ifs with hc
          · rw [filter_leaves_map_cons, ih, map_cons_extend]
          · rfl
        · simp [leaves]
          omega

/-! ## Searching in the beginning of a text -/

/-- The first result on `x ++ b`, when it leaves `b`, is the first result on `x`; and where there
is none on `x ++ b`, there is none on `x`. -/
theorem Local.head?_append {m : Matcher τ α} (hm : Local m) {x b : List τ}
    (h : ∀ r, (m (x ++ b)).head? = some r → b.length ≤ r.2.length) :
    (m (x ++ b)).head? = (m x).head?.map (extend b) := by
  rw [← List.head?_map, ← hm.inside]
  cases hresults : m (x ++ b) with
  | nil => rfl
  | cons r results =>
      have hr : leaves b r = true := decide_eq_true (h r (by rw [hresults]; rfl))
      rw [List.filter_cons, if_pos hr, List.head?_cons, List.head?_cons]

theorem search_of_head? {m : Option τ → Matcher τ α} {prev : Option τ} {input : List τ}
    {r : α × List τ} (h : (m prev input).head? = some r) : search m prev input = some r := by
  cases input with
  | nil => exact h
  | cons c rest => rw [search, h, Option.some_or]

/-- A search finds a result of the matcher at some position. -/
theorem mem_of_search {m : Option τ → Matcher τ α} {prev : Option τ} {input : List τ}
    {r : α × List τ} (h : search m prev input = some r) :
    ∃ prev' here, here <:+ input ∧ r ∈ m prev' here := by
  induction input generalizing prev with
  | nil => exact ⟨prev, [], List.suffix_rfl, List.mem_of_head? h⟩
  | cons c rest ih =>
      rw [search] at h
      rcases Option.or_eq_some_iff.mp h with hhere | ⟨-, hlater⟩
      · exact ⟨prev, _, List.suffix_rfl, List.mem_of_head? hhere⟩
      · obtain ⟨prev', here, hsuffix, hr⟩ := ih hlater
        exact ⟨prev', here, hsuffix.trans (List.suffix_cons _ _), hr⟩

/-- So are all that are found from the left. -/
theorem mem_of_findAll {m : Option τ → Matcher τ α} {prev : Option τ} {skip : Nat}
    {input : List τ} {r : α × List τ} (h : r ∈ findAll m prev skip input) :
    ∃ prev' here, here <:+ input ∧ r ∈ m prev' here := by
  induction input generalizing prev skip with
  | nil =>
      cases skip with
      | zero =>
          rw [findAll, Option.mem_toList] at h
          exact ⟨prev, [], List.suffix_rfl, List.mem_of_head? h⟩
      | succ skip => cases h
  | cons c rest ih =>
      have hlater : ∀ {prev skip}, r ∈ findAll m prev skip rest →
          ∃ prev' here, here <:+ c :: rest ∧ r ∈ m prev' here := by
        intro prev skip h
        obtain ⟨prev', here, hsuffix, hr⟩ := ih h
        exact ⟨prev', here, hsuffix.trans (List.suffix_cons _ _), hr⟩
      cases skip with
      | succ skip => exact hlater h
      | zero =>
          rw [findAll] at h
          cases hhere : (m prev (c :: rest)).head? with
          | none =>
              rw [hhere] at h
              exact hlater h
          | some r' =>
              rw [hhere] at h
              rcases List.mem_cons.mp h with rfl | h
              · exact ⟨prev, _, List.suffix_rfl, List.mem_of_head? hhere⟩
              · exact hlater h

/-- A search leaves no more than it was given. -/
theorem search_shrinks {m : Option τ → Matcher τ α} (hm : ∀ prev, Local (m prev))
    {prev : Option τ} {input : List τ} {r : α × List τ} (h : search m prev input = some r) :
    r.2.length ≤ input.length := by
  induction input generalizing prev with
  | nil => exact (hm prev).shrinks _ (List.mem_of_head? h)
  | cons c rest ih =>
      rw [search] at h
      rcases Option.or_eq_some_iff.mp h with hhere | ⟨-, hlater⟩
      · exact (hm prev).shrinks _ (List.mem_of_head? hhere)
      · exact Nat.le_succ_of_le (ih hlater)

/-- A search that ends inside the beginning of a text finds the same there. -/
theorem search_append {m : Option τ → Matcher τ α} (hm : ∀ prev, Local (m prev))
    {prev : Option τ} {x b : List τ}
    (h : ∀ r, search m prev (x ++ b) = some r → b.length ≤ r.2.length) :
    search m prev (x ++ b) = (search m prev x).map (extend b) := by
  induction x generalizing prev with
  | nil =>
      have hhead := (hm prev).head?_append fun r hr => h r (search_of_head? hr)
      rw [search, ← hhead, List.nil_append]
      cases b with
      | nil => rfl
      | cons c b =>
          rw [search]
          cases hhere : (m prev (c :: b)).head? with
          | some r => rfl
          | none =>
              rw [Option.none_or, Option.eq_none_iff_forall_ne_some]
              intro r hr
              have hlen := h r (by rw [List.nil_append, search, hhere, Option.none_or, hr])
              exact Nat.not_succ_le_self _ (Nat.le_trans hlen (search_shrinks hm hr))
  | cons c x ih =>
      have hhead := (hm prev).head?_append fun r hr => h r (search_of_head? hr)
      rw [List.cons_append, search, search, ← List.cons_append, hhead]
      cases hhere : (m prev (c :: x)).head? with
      | some r => rfl
      | none =>
          refine ih fun r hr => h r ?_
          rw [List.cons_append, search, ← List.cons_append, hhead, hhere]
          exact hr

theorem findAll_shrinks {m : Option τ → Matcher τ α} (hm : ∀ prev, Local (m prev))
    {prev : Option τ} {skip : Nat} {input : List τ} {r : α × List τ}
    (h : r ∈ findAll m prev skip input) : r.2.length ≤ input.length := by
  induction input generalizing prev skip with
  | nil =>
      cases skip with
      | zero =>
          rw [findAll, Option.mem_toList] at h
          exact (hm prev).shrinks _ (List.mem_of_head? h)
      | succ skip => cases h
  | cons c rest ih =>
      cases skip with
      | zero =>
          rw [findAll] at h
          cases hhere : (m prev (c :: rest)).head? with
          | none =>
              rw [hhere] at h
              exact Nat.le_succ_of_le (ih h)
          | some r' =>
              rw [hhere] at h
              rcases List.mem_cons.mp h with rfl | h
              · exact (hm prev).shrinks _ (List.mem_of_head? hhere)
              · exact Nat.le_succ_of_le (ih h)
      | succ skip => exact Nat.le_succ_of_le (ih h)

/-- What matches at the start is found. -/
theorem mem_findAll_of_head? {m : Option τ → Matcher τ α} {prev : Option τ} {input : List τ}
    {r : α × List τ} (h : (m prev input).head? = some r) : r ∈ findAll m prev 0 input := by
  cases input with
  | nil => exact Option.mem_toList.mpr h
  | cons c rest =>
      rw [findAll, h]
      exact List.mem_cons_self

/-- Where all matches leave `c :: rest`, there are none in `rest`. -/
theorem findAll_eq_nil_of_leaves {m : Option τ → Matcher τ α} (hm : ∀ prev, Local (m prev))
    {prev : Option τ} {skip : Nat} {c : τ} {rest : List τ}
    (h : ∀ r ∈ findAll m prev skip rest, (c :: rest).length ≤ r.2.length) :
    findAll m prev skip rest = [] := by
  refine List.eq_nil_iff_forall_not_mem.mpr fun r hmem => ?_
  exact Nat.not_succ_le_self _ (Nat.le_trans (h r hmem) (findAll_shrinks hm hmem))

/-- When all matches end inside the beginning of a text, they are the matches there. -/
theorem findAll_append {m : Option τ → Matcher τ α} (hm : ∀ prev, Local (m prev))
    {prev : Option τ} {skip : Nat} {x b : List τ} (hskip : skip ≤ x.length)
    (h : ∀ r ∈ findAll m prev skip (x ++ b), b.length ≤ r.2.length) :
    findAll m prev skip (x ++ b) = (findAll m prev skip x).map (extend b) := by
  induction x generalizing prev skip with
  | nil =>
      obtain rfl := Nat.le_zero.mp hskip
      have hhead := (hm prev).head?_append fun r hr => h r (mem_findAll_of_head? hr)
      rw [List.nil_append] at h hhead ⊢
      cases b with
      | nil => rw [extend_nil, List.map_id]
      | cons c b =>
          rw [findAll] at h ⊢
          rw [findAll]
          cases hnil : (m prev []).head? with
          | none =>
              rw [hhead, hnil] at h ⊢
              exact findAll_eq_nil_of_leaves hm h
          | some r =>
              rw [hhead, hnil] at h ⊢
              have hnone := findAll_eq_nil_of_leaves hm fun r' hr' =>
                h r' (List.mem_cons_of_mem _ hr')
              exact congrArg (List.cons _) hnone
  | cons c x ih =>
      cases skip with
      | succ skip => exact ih (Nat.le_of_succ_le_succ hskip) h
      | zero =>
          have hhead := (hm prev).head?_append fun r hr => h r (mem_findAll_of_head? hr)
          rw [List.cons_append] at h hhead ⊢
          rw [findAll] at h ⊢
          rw [findAll]
          cases hhere : (m prev (c :: x)).head? with
          | none =>
              rw [hhead, hhere] at h ⊢
              exact ih (Nat.zero_le _) h
          | some r =>
              rw [hhead, hhere] at h ⊢
              have hcount : (x ++ b).length - (extend b r).2.length = x.length - r.2.length := by
                rw [List.length_append, length_extend, Nat.add_sub_add_right]
              have hrest := ih (Nat.sub_le x.length r.2.length) fun r' hr' =>
                h r' (List.mem_cons_of_mem _ (hcount ▸ hr'))
              rw [List.map_cons, ← hrest, ← hcount]
              rfl

/-! ## Pieces of the input -/

/-- Every result has a piece of the input in it, of tokens satisfying `p`. -/
def Yields (p : τ → Bool) (piece : α → List τ) (m : Matcher τ α) : Prop :=
  ∀ input, ∀ r ∈ m input, piece r.1 <:+: input ∧ ∀ c ∈ piece r.1, p c = true

theorem yields_many1 (p : τ → Bool) : Yields p id (many1 p) := by
  intro input r hr
  obtain ⟨rfl, -, hall⟩ := mem_many1.mp hr
  exact ⟨(List.prefix_append _ _).isInfix, hall⟩

/-- The piece is read after `m`. -/
theorem yields_bind {p : τ → Bool} {piece : β → List τ} {m : Matcher τ α} {k : α → Matcher τ β}
    (hm : Local m) (hk : ∀ a, Yields p piece (k a)) : Yields p piece (m >>= k) := by
  intro input r hr
  obtain ⟨a, mid, hmid, hr⟩ := mem_bind.mp hr
  have hpiece := hk a mid r hr
  exact ⟨hpiece.1.trans (hm.suffix input _ hmid).isInfix, hpiece.2⟩

/-- The piece is what `m` reads, and stays so. -/
theorem yields_bind_left {p : τ → Bool} {piece : β → List τ} {m : Matcher τ (List τ)}
    {k : List τ → Matcher τ β} (hm : Yields p id m)
    (hk : ∀ a mid, ∀ r ∈ k a mid, piece r.1 = a) : Yields p piece (m >>= k) := by
  intro input r hr
  obtain ⟨a, mid, hmid, hr⟩ := mem_bind.mp hr
  rw [hk a mid r hr]
  exact hm input _ hmid

/-- What a search captures is made of the class's characters. -/
theorem Yields.search {p : τ → Bool} {piece : α → List τ} {m : Option τ → Matcher τ α}
    (hm : ∀ prev, Yields p piece (m prev)) {prev : Option τ} {input : List τ} {r : α × List τ}
    (h : search m prev input = some r) : piece r.1 <:+: input ∧ ∀ c ∈ piece r.1, p c = true := by
  obtain ⟨prev', here, hsuffix, hr⟩ := mem_of_search h
  exact ⟨(hm prev' here r hr).1.trans hsuffix.isInfix, (hm prev' here r hr).2⟩

theorem Yields.findAll {p : τ → Bool} {piece : α → List τ} {m : Option τ → Matcher τ α}
    (hm : ∀ prev, Yields p piece (m prev)) {prev : Option τ} {skip : Nat} {input : List τ}
    {r : α × List τ} (h : r ∈ findAll m prev skip input) :
    piece r.1 <:+: input ∧ ∀ c ∈ piece r.1, p c = true := by
  obtain ⟨prev', here, hsuffix, hr⟩ := mem_of_findAll h
  exact ⟨(hm prev' here r hr).1.trans hsuffix.isInfix, (hm prev' here r hr).2⟩

end Matcher

end PjsuaMcp.Library
