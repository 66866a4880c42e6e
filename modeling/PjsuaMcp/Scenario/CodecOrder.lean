import PjsuaMcp.Library.Separated
import PjsuaMcp.Scenario.CodecPriorities

/-!
# The order of the codecs

What the callers of `set_codecs` are told: a name stands for the codec whose
components it gives, the codecs that are named are enabled, and their order is
that of the names. The loop resolves a name by its characters, counts down from
255 without an end, and gives a codec the priority of the last name that takes
it.
-/

namespace PjsuaMcp.Scenario

open Library

section Order

variable (upper : Text → Text) (allIds : List Text)

/-- The components of a name or of a codec id, whatever the case. -/
def components (text : Text) : List Text := (split ['/'] text).map upper

/-- The first codec whose components begin with those of the name. -/
def codecOf (name : Text) : Option Text :=
  allIds.find? fun cid => (components upper name).isPrefixOf (components upper cid)

/-- `x` is first requested before `y`. -/
def FirstBefore (codecs : List Text) (x y : Text) : Prop :=
  y ∈ codecs ∧ codecs.idxOf x < codecs.idxOf y

/-- The named codecs are enabled, with priorities from 1 to 255, in the order of the names. -/
structure InOrder (codecs : List Text) (d : Priorities) : Prop where
  enabled_iff : ∀ cid ∈ allIds,
    (setCodecs upper allIds codecs d).2.get? cid ≠ some 0 ↔
      ∃ name ∈ codecs, codecOf upper allIds name = some cid
  in_range : ∀ p ∈ (setCodecs upper allIds codecs d).1, 1 ≤ p.2 ∧ p.2 ≤ 255
  descending : ∀ x y cidX cidY, FirstBefore codecs x y →
    codecOf upper allIds x = some cidX → codecOf upper allIds y = some cidY →
    ∃ pX pY, (setCodecs upper allIds codecs d).2.get? cidX = some pX ∧
      (setCodecs upper allIds codecs d).2.get? cidY = some pY ∧ pY < pX

/-- The name at this place takes the codec. -/
def Takes (codecs : List Text) (cid : Text) (place : Nat) : Prop :=
  ∃ name, codecs[place]? = some name ∧ enabledBy upper allIds name = some cid

/-- It is the last one that does. -/
def LastTaker (codecs : List Text) (cid : Text) (place : Nat) : Prop :=
  Takes upper allIds codecs cid place ∧
    ∀ place', Takes upper allIds codecs cid place' → place' ≤ place

/-- The codecs that are taken by their first characters are those that the names stand for, nothing
is taken from the 256th name on, and the last taker of an earlier name's codec comes before the
last taker of a later one's. -/
structure Resolvable (codecs : List Text) : Prop where
  taken_iff : ∀ cid ∈ allIds, (∃ place, Takes upper allIds codecs cid place) ↔
    ∃ name ∈ codecs, codecOf upper allIds name = some cid
  few : ∀ cid place, Takes upper allIds codecs cid place → place < 255
  ordered : ∀ x y cidX cidY, FirstBefore codecs x y →
    codecOf upper allIds x = some cidX → codecOf upper allIds y = some cidY →
    ∃ i j, LastTaker upper allIds codecs cidX i ∧ LastTaker upper allIds codecs cidY j ∧ i < j

end Order

/-! ## Last takers -/

variable {upper : Text → Text} {allIds : List Text}

/-- The places of a list that is one name longer. -/
theorem takes_concat {codecs : List Text} {name cid : Text} {place : Nat} :
    Takes upper allIds (codecs ++ [name]) cid place ↔
      Takes upper allIds codecs cid place ∨
        (place = codecs.length ∧ enabledBy upper allIds name = some cid) := by
  unfold Takes
  rcases Nat.lt_trichotomy place codecs.length with hlt | rfl | hgt
  · rw [List.getElem?_append_left hlt]
    exact (or_iff_left fun h => hlt.ne h.1).symm
  · rw [List.getElem?_concat_length]
    simp
  · rw [List.getElem?_eq_none (by simp; omega), List.getElem?_eq_none (by omega)]
    have hne : place ≠ codecs.length := by omega
    simp [hne]

theorem Takes.lt_length {codecs : List Text} {cid : Text} {place : Nat}
    (h : Takes upper allIds codecs cid place) : place < codecs.length := by
  obtain ⟨name, hname, -⟩ := h
  exact (List.getElem?_eq_some_iff.mp hname).1

/-- Only one name takes a codec last. -/
theorem LastTaker.unique {codecs : List Text} {cid : Text} {i j : Nat}
    (hi : LastTaker upper allIds codecs cid i) (hj : LastTaker upper allIds codecs cid j) : i = j :=
  Nat.le_antisymm (hj.2 i hi.1) (hi.2 j hj.1)

/-- The last name of the list takes its codec last. -/
theorem lastTaker_concat_self {codecs : List Text} {name cid : Text}
    (h : enabledBy upper allIds name = some cid) :
    LastTaker upper allIds (codecs ++ [name]) cid codecs.length := by
  refine ⟨takes_concat.mpr (.inr ⟨rfl, h⟩), fun place hplace => ?_⟩
  rcases takes_concat.mp hplace with htaken | ⟨rfl, -⟩
  · exact htaken.lt_length.le
  · exact Nat.le_refl _

theorem LastTaker.concat {codecs : List Text} {name cid : Text} {i : Nat}
    (h : LastTaker upper allIds codecs cid i) (hname : enabledBy upper allIds name ≠ some cid) :
    LastTaker upper allIds (codecs ++ [name]) cid i := by
  refine ⟨takes_concat.mpr (.inl h.1), fun place hplace => ?_⟩
  exact h.2 place ((takes_concat.mp hplace).resolve_right fun hlast => hname hlast.2)

/-! ## What the loop leaves behind -/

theorem get?_enable_self {name cid : Text} (h : enabledBy upper allIds name = some cid)
    (acc : List (Text × Int) × Priorities) (i : Nat) :
    (enable upper allIds acc (name, i)).2.get? cid = some (255 - (i : Int)) := by
  rw [enable, h]
  exact OrderedDict.get?_set_self _ _ _

theorem get?_enable_of_ne {name cid : Text} (h : enabledBy upper allIds name ≠ some cid)
    (acc : List (Text × Int) × Priorities) (i : Nat) :
    (enable upper allIds acc (name, i)).2.get? cid = acc.2.get? cid := by
  rw [enable]
  split
  · rename_i cid' hcid'
    have hne : cid' ≠ cid := by
      rintro rfl
      exact h hcid'
    exact OrderedDict.get?_set_of_ne _ hne _
  · rfl

/-- The last taker decides; a codec without one is disabled. -/
theorem setCodecs_value {cid : Text} (hcid : cid ∈ allIds) (codecs : List Text) (d : Priorities) :
    (∃ i, LastTaker upper allIds codecs cid i ∧
      (setCodecs upper allIds codecs d).2.get? cid = some (255 - (i : Int))) ∨
    ((∀ place, ¬ Takes upper allIds codecs cid place) ∧
      (setCodecs upper allIds codecs d).2.get? cid = some 0) := by
  induction codecs using List.reverseRecOn with
  | nil =>
      refine .inr ⟨?_, (get?_disabled d cid).trans (if_pos hcid)⟩
      rintro place ⟨name, hname, -⟩
      cases hname
  | append_singleton codecs name ih =>
      rw [setCodecs_concat]
      by_cases htaken : enabledBy upper allIds name = some cid
      · exact .inl ⟨codecs.length, lastTaker_concat_self htaken, get?_enable_self htaken _ _⟩
      · rw [get?_enable_of_ne htaken]
        refine ih.imp (fun h => ?_) fun h => ⟨fun place hplace => ?_, h.2⟩
        · obtain ⟨i, hlast, hvalue⟩ := h
          exact ⟨i, hlast.concat htaken, hvalue⟩
        · rcases takes_concat.mp hplace with hbefore | ⟨-, hlast⟩
          · exact h.1 place hbefore
          · exact htaken hlast

/-- A codec has the priority of the name that takes it last. -/
theorem LastTaker.value {codecs : List Text} {cid : Text} {i : Nat}
    (h : LastTaker upper allIds codecs cid i) (hcid : cid ∈ allIds) (d : Priorities) :
    (setCodecs upper allIds codecs d).2.get? cid = some (255 - (i : Int)) := by
  rcases setCodecs_value hcid codecs d with ⟨j, hlast, hvalue⟩ | ⟨hnone, -⟩
  · rw [hvalue, hlast.unique h]
  · exact (hnone i h.1).elim

/-- What is returned: an entry for each name that takes a codec. -/
theorem mem_setCodecs {codecs : List Text} {d : Priorities} {p : Text × Int} :
    p ∈ (setCodecs upper allIds codecs d).1 ↔
      ∃ place : Nat, Takes upper allIds codecs p.1 place ∧ p.2 = 255 - (place : Int) := by
  induction codecs using List.reverseRecOn with
  | nil =>
      refine iff_of_false List.not_mem_nil ?_
      rintro ⟨place, ⟨name, hname, -⟩, -⟩
      cases hname
  | append_singleton codecs name ih =>
      have hstep : p ∈ (enable upper allIds (setCodecs upper allIds codecs d) (name, codecs.length)).1 ↔
          p ∈ (setCodecs upper allIds codecs d).1 ∨
            (enabledBy upper allIds name = some p.1 ∧ p.2 = 255 - (codecs.length : Int)) := by
        rw [enable]
        split
        · rename_i cid hcid
          rw [hcid, List.mem_append, List.mem_singleton, Prod.ext_iff, Option.some_inj, eq_comm]
        · rename_i hnone
          rw [hnone]
          simp
      rw [setCodecs_concat, hstep, ih]
      simp only [takes_concat, or_and_right, exists_or]
      refine or_congr_right ⟨?_, ?_⟩
      · rintro ⟨htaken, hvalue⟩
        exact ⟨codecs.length, ⟨rfl, htaken⟩, hvalue⟩
      · rintro ⟨place, ⟨rfl, htaken⟩, hvalue⟩
        exact ⟨htaken, hvalue⟩

theorem codecOf_mem {name cid : Text} (h : codecOf upper allIds name = some cid) : cid ∈ allIds :=
  List.mem_of_find?_eq_some h

/-- With few names, the codecs with a priority other than 0 are those that some name takes. -/
theorem ne_zero_iff_takes {codecs : List Text} {d : Priorities} {cid : Text} (hcid : cid ∈ allIds)
    (hfew : ∀ place, Takes upper allIds codecs cid place → place < 255) :
    (setCodecs upper allIds codecs d).2.get? cid ≠ some 0 ↔
      ∃ place, Takes upper allIds codecs cid place := by
  rcases setCodecs_value hcid codecs d with ⟨i, hlast, hvalue⟩ | ⟨hnone, hvalue⟩
  · refine iff_of_true ?_ ⟨i, hlast.1⟩
    have hi := hfew i hlast.1
    rw [hvalue, ne_eq, Option.some_inj]
    omega
  · exact iff_of_false (fun hne => hne hvalue) fun ⟨place, hplace⟩ => hnone place hplace

/-- Where the priorities are in order, no codec is taken at a place beyond 254. -/
theorem InOrder.few {codecs : List Text} {d : Priorities} (h : InOrder upper allIds codecs d)
    (cid : Text) (place : Nat) (htaken : Takes upper allIds codecs cid place) : place < 255 := by
  have hrange := h.in_range (cid, 255 - (place : Int)) (mem_setCodecs.mpr ⟨place, htaken, rfl⟩)
  have hpositive : 1 ≤ 255 - (place : Int) := hrange.1
  omega

/-- Names are resolved, enabled and ordered as announced exactly when they are resolvable. -/
theorem inOrder_iff_resolvable (upper : Text → Text) (allIds codecs : List Text) (d : Priorities) :
    InOrder upper allIds codecs d ↔ Resolvable upper allIds codecs := by
  constructor
  · intro h
    have htaken : ∀ cid ∈ allIds, (∃ place, Takes upper allIds codecs cid place) ↔
        ∃ name ∈ codecs, codecOf upper allIds name = some cid :=
      fun cid hcid => (ne_zero_iff_takes hcid (h.few cid)).symm.trans (h.enabled_iff cid hcid)
    refine ⟨htaken, h.few, fun x y cidX cidY hfirst hx hy => ?_⟩
    obtain ⟨pX, pY, hpX, hpY, hless⟩ := h.descending x y cidX cidY hfirst hx hy
    have hlast : ∀ {name cid : Text}, name ∈ codecs → codecOf upper allIds name = some cid →
        ∃ i, LastTaker upper allIds codecs cid i ∧
          (setCodecs upper allIds codecs d).2.get? cid = some (255 - (i : Int)) := by
      intro name cid hname hcid
      obtain ⟨place, hplace⟩ := (htaken cid (codecOf_mem hcid)).mpr ⟨name, hname, hcid⟩
      exact (setCodecs_value (codecOf_mem hcid) codecs d).resolve_right
        fun hnone => hnone.1 place hplace
    have hxmem : x ∈ codecs := by
      rw [← List.idxOf_lt_length_iff]
      exact hfirst.2.trans (List.idxOf_lt_length_iff.mpr hfirst.1)
    obtain ⟨i, hi, hvalueX⟩ := hlast hxmem hx
    obtain ⟨j, hj, hvalueY⟩ := hlast hfirst.1 hy
    refine ⟨i, j, hi, hj, ?_⟩
    rw [hvalueX, Option.some_inj] at hpX
    rw [hvalueY, Option.some_inj] at hpY
    omega
  · intro h
    refine ⟨fun cid hcid => ?_, fun p hp => ?_, fun x y cidX cidY hfirst hx hy => ?_⟩
    · exact (ne_zero_iff_takes hcid (h.few cid)).trans (h.taken_iff cid hcid)
    · obtain ⟨place, htaken, hvalue⟩ := mem_setCodecs.mp hp
      have hplace := h.few p.1 place htaken
      rw [hvalue]
      omega
    · obtain ⟨i, j, hi, hj, hless⟩ := h.ordered x y cidX cidY hfirst hx hy
      refine ⟨_, _, hi.value (codecOf_mem hx) d, hj.value (codecOf_mem hy) d, ?_⟩
      omega

def asciiUpper (text : Text) : Text := text.map Char.toUpper

def endpointIds : List Text :=
  ["G7221/16000/1".toList, "G722/16000/1".toList, "PCMU/8000/1".toList, "PCMA/8000/1".toList]

/-- The name `G722` enables G7221; a name that comes again gives its first place away. -/
theorem endpointIds_not_inOrder :
    ¬ InOrder asciiUpper endpointIds ["G722".toList] .empty ∧
      ¬ InOrder asciiUpper endpointIds ["PCMU".toList, "PCMA".toList, "PCMU".toList] .empty := by
  constructor
  · intro h
    refine (h.enabled_iff "G722/16000/1".toList (by decide)).mpr ?_ (by decide)
    exact ⟨"G722".toList, List.mem_singleton_self _, by decide⟩
  · intro h
    have hfirst : FirstBefore ["PCMU".toList, "PCMA".toList, "PCMU".toList] "PCMU".toList
        "PCMA".toList := ⟨by decide, by decide⟩
    obtain ⟨pX, pY, hpX, hpY, hless⟩ := h.descending _ _ "PCMU/8000/1".toList
      "PCMA/8000/1".toList hfirst (by decide) (by decide)
    have hX : (setCodecs asciiUpper endpointIds ["PCMU".toList, "PCMA".toList, "PCMU".toList]
        .empty).2.get? "PCMU/8000/1".toList = some 253 := by decide
    have hY : (setCodecs asciiUpper endpointIds ["PCMU".toList, "PCMA".toList, "PCMU".toList]
        .empty).2.get? "PCMA/8000/1".toList = some 254 := by decide
    rw [hX, Option.some_inj] at hpX
    rw [hY, Option.some_inj] at hpY
    omega

end PjsuaMcp.Scenario
