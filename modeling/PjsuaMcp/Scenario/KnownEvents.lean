import PjsuaMcp.Scenario.EventBus

/-!
# Event patterns that the validator accepts

The validator and the bus read wildcard patterns each in their own way. The bus
compares dotted names; the validator compares the part before `.*` with the
known prefixes without their last dot. They differ on the proper ancestors of
prefixes with two segments, which the validator rejects, and on names that
continue a prefix without a dot, which it accepts.
-/

namespace PjsuaMcp.Scenario

/-- `KNOWN_EVENT_PREFIXES`. -/
def knownEventPrefixes : List Text :=
  ["reg.".toList, "call.state.".toList, "dtmf.".toList, "im.".toList, "scenario.".toList,
    "user.".toList, "timer.".toList, "sip.request.".toList, "sip.response.".toList,
    "media.".toList]

/-- `p.rstrip(".")`. -/
def rstripDots (p : Text) : Text := p.rdropWhile (· = '.')

/-- `_is_known_event`. -/
def isKnownEvent (ev : Text) : Bool :=
  if ev = ['*'] then true
  else if ev.drop (ev.length - 2) = ['.', '*'] then
    let base := ev.take (ev.length - 2)
    knownEventPrefixes.any (fun p => (rstripDots p).isPrefixOf base || base ++ ['.'] = p) ||
      base = "scenario".toList
  else knownEventPrefixes.any fun p => p.isPrefixOf ev

/-- The bus delivers some event with a known prefix to the pattern. -/
def Deliverable (p : Text) : Prop :=
  ∃ t, (∃ pre ∈ knownEventPrefixes, pre <+: t) ∧ patternsMatch t [.str p] = some true

/-- The base continues the name of a prefix by something else than a dot. -/
def NearMiss (base : Text) : Prop :=
  ∃ pre ∈ knownEventPrefixes, ∃ c rest, c ≠ '.' ∧ base = rstripDots pre ++ c :: rest

/-! ## The two readings of a pattern -/

/-- A pattern is the full wildcard, a base with `.*` after it, or a plain name. -/
theorem pattern_cases (p : Text) :
    p = ['*'] ∨ (∃ base, p = base ++ ['.', '*']) ∨
      (p ≠ ['*'] ∧ p.drop (p.length - 2) ≠ ['.', '*']) := by
  by_cases hstar : p = ['*']
  · exact .inl hstar
  · by_cases hwild : p.drop (p.length - 2) = ['.', '*']
    · refine .inr (.inl ⟨p.take (p.length - 2), ?_⟩)
      rw [← hwild, List.take_append_drop]
    · exact .inr (.inr ⟨hstar, hwild⟩)

theorem drop_wild (base : Text) :
    (base ++ ['.', '*']).drop ((base ++ ['.', '*']).length - 2) = ['.', '*'] := by
  simp

theorem take_wild (base : Text) :
    (base ++ ['.', '*']).take ((base ++ ['.', '*']).length - 2) = base := by
  simp

theorem wild_ne_star (base : Text) : base ++ ['.', '*'] ≠ ['*'] := by
  intro h
  have := congrArg List.length h
  simp at this

theorem isKnownEvent_wild (base : Text) :
    isKnownEvent (base ++ ['.', '*']) = true ↔
      (∃ pre ∈ knownEventPrefixes, rstripDots pre <+: base ∨ base ++ ['.'] = pre) ∨
        base = "scenario".toList := by
  simp only [isKnownEvent, if_neg (wild_ne_star base), if_pos (drop_wild base), take_wild,
    Bool.or_eq_true, List.any_eq_true, List.isPrefixOf_iff_prefix, decide_eq_true_eq]

theorem patternsMatch_singleton (t : Text) (p : Value) :
    patternsMatch t [p] = patternMatches t p := by
  simp only [patternsMatch]
  cases patternMatches t p with
  | none => rfl
  | some b => cases b <;> rfl

/-- A wildcard matches its base and what stands below it. -/
theorem matches_wild (base t : Text) :
    patternsMatch t [.str (base ++ ['.', '*'])] = some true ↔ t = base ∨ base ++ ['.'] <+: t := by
  simp only [patternsMatch_singleton, patternMatches, if_neg (wild_ne_star base),
    if_pos (drop_wild base), take_wild, Option.some.injEq, Bool.or_eq_true, decide_eq_true_eq,
    List.isPrefixOf_iff_prefix]

/-- Two texts have a common extension exactly when one begins the other. -/
theorem exists_extension_iff {a b : Text} : (∃ t, a <+: t ∧ b <+: t) ↔ a <+: b ∨ b <+: a := by
  constructor
  · rintro ⟨t, ha, hb⟩
    exact List.prefix_or_prefix_of_prefix ha hb
  · rintro (h | h)
    · exact ⟨b, h, List.prefix_rfl⟩
    · exact ⟨a, List.prefix_rfl, h⟩

/-- A wildcard is deliverable when its base and a known prefix meet. -/
theorem deliverable_wild (base : Text) :
    Deliverable (base ++ ['.', '*']) ↔
      ∃ pre ∈ knownEventPrefixes, pre <+: base ++ ['.'] ∨ base ++ ['.'] <+: pre := by
  simp only [Deliverable, matches_wild]
  constructor
  · rintro ⟨t, ⟨pre, hpre, hext⟩, rfl | hmatch⟩
    · exact ⟨pre, hpre, .inl (hext.trans (List.prefix_append _ _))⟩
    · exact ⟨pre, hpre, exists_extension_iff.mp ⟨t, hext, hmatch⟩⟩
  · rintro ⟨pre, hpre, h⟩
    obtain ⟨t, hext, hmatch⟩ := exists_extension_iff.mpr h
    exact ⟨t, ⟨pre, hpre, hext⟩, .inr hmatch⟩

/-! ## The known prefixes -/

/-- A known prefix is its name with one dot after it. -/
theorem rstripDots_append {pre : Text} (h : pre ∈ knownEventPrefixes) :
    rstripDots pre ++ ['.'] = pre := by
  have hall : knownEventPrefixes.all (fun pre => rstripDots pre ++ ['.'] = pre) = true := by decide
  exact of_decide_eq_true (List.all_eq_true.mp hall pre h)

theorem rstripDots_begins {pre : Text} (h : pre ∈ knownEventPrefixes) : rstripDots pre <+: pre :=
  ⟨['.'], rstripDots_append h⟩

/-- No name of a known prefix begins another prefix. -/
theorem prefix_unique {pre pre' : Text} (h : pre ∈ knownEventPrefixes)
    (h' : pre' ∈ knownEventPrefixes) (hbegins : rstripDots pre <+: pre') : pre' = pre := by
  have hall : knownEventPrefixes.all (fun pre => knownEventPrefixes.all fun pre' =>
      !(rstripDots pre).isPrefixOf pre' || pre' = pre) = true := by decide
  have hboth := List.all_eq_true.mp (List.all_eq_true.mp hall pre h) pre' h'
  rw [List.isPrefixOf_iff_prefix.mpr hbegins] at hboth
  exact of_decide_eq_true hboth

/-- The dotted beginnings of the known prefixes. -/
theorem stem_cases {pre base : Text} (h : pre ∈ knownEventPrefixes)
    (hstem : base ++ ['.'] <+: pre) :
    base ++ ['.'] = pre ∨ base = "call".toList ∨ base = "sip".toList := by
  have hall : knownEventPrefixes.all (fun pre => pre.inits.all fun stem =>
      stem.getLast? ≠ some '.' || stem = pre || stem.dropLast = "call".toList ||
        stem.dropLast = "sip".toList) = true := by decide
  have hmem : base ++ ['.'] ∈ pre.inits := (List.mem_inits _ _).mpr hstem
  have hboth := List.all_eq_true.mp (List.all_eq_true.mp hall pre h) _ hmem
  simpa [or_assoc] using hboth

/-! ## Where the validator and the bus agree -/

theorem isKnownEvent_of_deliverable {base : Text} (hcall : base ≠ "call".toList)
    (hsip : base ≠ "sip".toList) (h : Deliverable (base ++ ['.', '*'])) :
    isKnownEvent (base ++ ['.', '*']) = true := by
  obtain ⟨pre, hpre, hext | hext⟩ := (deliverable_wild base).mp h
  · refine (isKnownEvent_wild base).mpr (.inl ⟨pre, hpre, .inl ?_⟩)
    have hname : rstripDots pre ++ ['.'] <+: base ++ ['.'] := by
      rw [rstripDots_append hpre]
      exact hext
    have hlen : (rstripDots pre).length ≤ base.length := by
      simpa using hname.length_le
    exact List.prefix_of_prefix_length_le ((List.prefix_append _ _).trans hname)
      (List.prefix_append _ _) hlen
  · rcases stem_cases hpre hext with heq | rfl | rfl
    · exact (isKnownEvent_wild base).mpr (.inl ⟨pre, hpre, .inr heq⟩)
    · exact absurd rfl hcall
    · exact absurd rfl hsip

theorem deliverable_of_isKnownEvent {base : Text} (near : ¬NearMiss base)
    (h : isKnownEvent (base ++ ['.', '*']) = true) : Deliverable (base ++ ['.', '*']) := by
  rw [deliverable_wild]
  rcases (isKnownEvent_wild base).mp h with ⟨pre, hpre, ⟨tail, rfl⟩ | heq⟩ | rfl
  · cases tail with
    | nil =>
        refine ⟨pre, hpre, .inl ?_⟩
        rw [List.append_nil, rstripDots_append hpre]
    | cons c rest =>
        have hdot : c = '.' := by
          by_contra hne
          exact near ⟨pre, hpre, c, rest, hne, rfl⟩
        subst hdot
        refine ⟨pre, hpre, .inl ⟨rest ++ ['.'], ?_⟩⟩
        conv => lhs; lhs; rw [← rstripDots_append hpre]
        simp
  · exact ⟨pre, hpre, .inr (heq ▸ List.prefix_rfl)⟩
  · exact ⟨"scenario.".toList, by decide, .inl List.prefix_rfl⟩

/-- The validator accepts a near miss, and the bus delivers nothing to it. -/
theorem NearMiss.differs {base : Text} (near : NearMiss base) :
    isKnownEvent (base ++ ['.', '*']) = true ∧ ¬Deliverable (base ++ ['.', '*']) := by
  obtain ⟨pre, hpre, c, rest, hne, rfl⟩ := near
  have hbase : rstripDots pre <+: rstripDots pre ++ c :: rest := List.prefix_append _ _
  have hstem : rstripDots pre <+: rstripDots pre ++ c :: rest ++ ['.'] :=
    hbase.trans (List.prefix_append _ _)
  refine ⟨(isKnownEvent_wild _).mpr (.inl ⟨pre, hpre, .inl hbase⟩), fun h => ?_⟩
  obtain ⟨pre', hpre', hext⟩ := (deliverable_wild _).mp h
  -- a prefix that can be compared with the near miss is the one that it continues
  have hsame : pre' = pre := by
    rcases hext with hext | hext
    · rcases List.prefix_or_prefix_of_prefix hstem hext with hbegins | hbegins
      · exact prefix_unique hpre hpre' hbegins
      · have hname := ((rstripDots_begins hpre').trans hbegins).trans (rstripDots_begins hpre)
        exact (prefix_unique hpre' hpre hname).symm
    · exact prefix_unique hpre hpre' (hstem.trans hext)
  subst hsame
  have hname := rstripDots_append hpre'
  generalize rstripDots pre' = name at hext hname
  rw [← hname] at hext
  simp only [List.append_assoc, List.cons_append, List.prefix_append_right_inj,
    List.cons_prefix_cons] at hext
  rcases hext with ⟨hdot, -⟩ | ⟨hdot, -⟩
  · exact hne hdot.symm
  · exact hne hdot

/-- The bus delivers to the proper ancestors of the prefixes with two segments, and the
validator does not know them. -/
theorem ancestor_differs :
    ∀ base ∈ ["call".toList, "sip".toList],
      isKnownEvent (base ++ ['.', '*']) = false ∧ Deliverable (base ++ ['.', '*']) := by
  intro base hbase
  rw [deliverable_wild]
  simp only [List.mem_cons, List.not_mem_nil, or_false] at hbase
  rcases hbase with rfl | rfl
  · exact ⟨by decide, "call.state.".toList, by decide, .inr (by decide)⟩
  · exact ⟨by decide, "sip.request.".toList, by decide, .inr (by decide)⟩

/-- The single star is known, and every event is delivered to it. -/
theorem isKnownEvent_star : isKnownEvent ['*'] = true ∧ Deliverable ['*'] := by
  refine ⟨by decide, "reg.".toList, ⟨"reg.".toList, by decide, List.prefix_rfl⟩, ?_⟩
  decide

/-- A pattern without a wildcard is an event type, and both sides compare its beginning. -/
theorem isKnownEvent_plain {p : Text} (hstar : p ≠ ['*'])
    (hplain : p.drop (p.length - 2) ≠ ['.', '*']) : isKnownEvent p = true ↔ Deliverable p := by
  have hmatch : ∀ t, patternsMatch t [.str p] = some true ↔ p = t := by
    intro t
    simp only [patternsMatch_singleton, patternMatches, if_neg hstar, if_neg hplain,
      Option.some.injEq, decide_eq_true_eq]
  simp only [isKnownEvent, if_neg hstar, if_neg hplain, List.any_eq_true,
    List.isPrefixOf_iff_prefix, Deliverable, hmatch, exists_eq_right']

/-- The validator accepts exactly the patterns that the bus can deliver to, up to the ancestors
of the prefixes with two segments and the near misses. -/
theorem isKnownEvent_deliverable_iff (p : Text) :
    (isKnownEvent p = true ↔ Deliverable p) ↔
      p ≠ "call.*".toList ∧ p ≠ "sip.*".toList ∧
        ¬∃ base, p = base ++ ['.', '*'] ∧ NearMiss base := by
  rcases pattern_cases p with rfl | ⟨base, rfl⟩ | ⟨hstar, hplain⟩
  · refine iff_of_true (iff_of_true isKnownEvent_star.1 isKnownEvent_star.2) ?_
    refine ⟨by decide, by decide, ?_⟩
    rintro ⟨base, hbase, _⟩
    exact wild_ne_star base hbase.symm
  · have hcall : base ++ ['.', '*'] = "call.*".toList ↔ base = "call".toList :=
      @List.append_left_inj _ base "call".toList ['.', '*']
    have hsip : base ++ ['.', '*'] = "sip.*".toList ↔ base = "sip".toList :=
      @List.append_left_inj _ base "sip".toList ['.', '*']
    have hnear : (∃ base', base ++ ['.', '*'] = base' ++ ['.', '*'] ∧ NearMiss base') ↔
        NearMiss base := by
      simp only [List.append_left_inj, exists_eq_left']
    rw [Ne, Ne, hcall, hsip, hnear]
    constructor
    · intro hagree
      refine ⟨fun hbase => ?_, fun hbase => ?_, fun near => ?_⟩
      · obtain ⟨hknown, hdeliver⟩ := ancestor_differs base (by simp [hbase])
        rw [hagree.mpr hdeliver] at hknown
        cases hknown
      · obtain ⟨hknown, hdeliver⟩ := ancestor_differs base (by simp [hbase])
        rw [hagree.mpr hdeliver] at hknown
        cases hknown
      · exact near.differs.2 (hagree.mp near.differs.1)
    · rintro ⟨hcall, hsip, near⟩
      exact ⟨deliverable_of_isKnownEvent near, isKnownEvent_of_deliverable hcall hsip⟩
  · refine iff_of_true (isKnownEvent_plain hstar hplain) ⟨?_, ?_, ?_⟩
    · rintro rfl
      exact hplain (by decide)
    · rintro rfl
      exact hplain (by decide)
    · rintro ⟨base, rfl, _⟩
      exact hplain (drop_wild base)

theorem callWildcard_unknown :
    isKnownEvent "call.*".toList = false ∧ isKnownEvent "registry.*".toList = true ∧
      Deliverable "call.*".toList ∧ ¬Deliverable "registry.*".toList := by
  refine ⟨by decide, by decide, (ancestor_differs "call".toList (by simp)).2, ?_⟩
  have near : NearMiss "registry".toList :=
    ⟨"reg.".toList, by decide, 'i', "stry".toList, by decide, by decide⟩
  exact near.differs.2

end PjsuaMcp.Scenario
