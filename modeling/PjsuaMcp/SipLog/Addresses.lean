import PjsuaMcp.SipLog.Conversions
import PjsuaMcp.SipLog.HeaderNames

/-!
# Addresses in From and To

`normalize_sip_uri` takes what stands in the first angle brackets of a header
value. The display name comes before the address, and a quoted one may have
brackets in it; so may the parameters behind an address without brackets.
-/

namespace PjsuaMcp.SipLog

open Sdp (Text)
open Library

/-! ## Header values -/

/-- The inside of a quoted string: a quote is escaped, and so is every backslash. -/
def isQuotable : Text → Bool
  | [] => true
  | '\\' :: _ :: rest => isQuotable rest
  | '\\' :: [] => false
  | '"' :: _ => false
  | _ :: rest => isQuotable rest

variable (u : HeaderTables)

/-- What may stand in front of the bracket: tokens or a quoted string, with blanks, or nothing. -/
inductive IsDisplayName : Text → Prop
  | tokens {text} (h : ∀ c ∈ text, isTokenChar c = true ∨ u.isSpace c = true) : IsDisplayName text
  | quoted {before body after} (hbefore : ∀ c ∈ before, u.isSpace c = true)
      (hbody : isQuotable body = true) (hafter : ∀ c ∈ after, u.isSpace c = true) :
      IsDisplayName (before ++ '"' :: body ++ '"' :: after)

/-- An addr-spec. -/
structure IsAddrSpec (uri : Text) : Prop where
  ne_nil : uri ≠ []
  open_notMem : '<' ∉ uri
  close_notMem : '>' ∉ uri
  semicolon_notMem : ';' ∉ uri
  no_blank : ∀ c ∈ uri, u.isSpace c = false

/-- Nothing, or parameters behind a semicolon; blanks may stand in front. -/
def IsParams (params : Text) : Prop :=
  ∃ gap rest, params = gap ++ rest ∧ (∀ c ∈ gap, u.isSpace c = true) ∧
    ∀ c ∈ rest.head?, c = ';'

/-- `display <uri>;params`. -/
structure NameAddr where
  display : Text
  uri : Text
  params : Text
  isDisplayName : IsDisplayName u display
  isAddrSpec : IsAddrSpec u uri
  isParams : IsParams u params

/-- `uri;params`. -/
structure BareAddr where
  uri : Text
  params : Text
  isAddrSpec : IsAddrSpec u uri
  isParams : IsParams u params

variable {u}

def NameAddr.text (a : NameAddr u) : Text := a.display ++ '<' :: (a.uri ++ '>' :: a.params)

def BareAddr.text (a : BareAddr u) : Text := a.uri ++ a.params

/-! ## The first bracket -/

/-- What stands behind the first `<` that is not followed by `>` at once. -/
def behindBracket : Text → Option Text
  | [] => none
  | c :: rest => if c = '<' ∧ rest.head? ≠ some '>' then some rest else behindBracket rest

variable (u) in
/-- The text begins with the address, blanks aside, and then closes or ends it. -/
def Encloses (uri text : Text) : Prop :=
  ∃ gap gap' stop rest, text = gap ++ uri ++ gap' ++ stop :: rest ∧
    (∀ c ∈ gap, u.isSpace c = true) ∧ (∀ c ∈ gap', u.isSpace c = true) ∧
      (stop = '>' ∨ stop = ';')

/-- The first bracket in the display name, if any, encloses the address too. -/
def NameAddr.Plain (a : NameAddr u) : Prop :=
  ∀ rest ∈ behindBracket a.display, Encloses u a.uri rest

/-- The first bracket in the parameters that is closed, if any, encloses the address too. -/
def BareAddr.Plain (a : BareAddr u) : Prop :=
  ∀ rest ∈ behindBracket a.params, '>' ∈ rest → Encloses u a.uri rest

/-- The pattern reads one pair of angle brackets, and what stands between them. -/
theorem mem_angled {uri input rest : Text} :
    (uri, rest) ∈ CharTables.angled input ↔
      input = '<' :: (uri ++ '>' :: rest) ∧ uri ≠ [] ∧ '>' ∉ uri := by
  simp only [CharTables.angled, Matcher.mem_bind, Matcher.mem_lit, Matcher.mem_many1,
    Matcher.mem_pure, decide_eq_true_eq]
  constructor
  · rintro ⟨-, _, rfl, w, _, ⟨rfl, hne, hall⟩, -, _, rfl, rfl, rfl⟩
    exact ⟨rfl, hne, fun hmem => hall _ hmem rfl⟩
  · rintro ⟨rfl, hne, hall⟩
    exact ⟨(), _, rfl, uri, _, ⟨rfl, hne, fun c hc => ne_of_mem_of_not_mem hc hall⟩, (), rest, rfl,
      rfl, rfl⟩

theorem takeWhile_of_notMem {stop : Char} {text : Text} (h : stop ∉ text) (rest : Text) :
    (text ++ stop :: rest).takeWhile (· ≠ stop) = text :=
  congrArg Prod.fst (partition_append h rest)

/-- The text inside does not close, so there is one way to match. -/
theorem head?_angled {uri : Text} (hne : uri ≠ []) (huri : '>' ∉ uri) (rest : Text) :
    ((CharTables.angled ('<' :: (uri ++ '>' :: rest))).head?).map Prod.fst = some uri := by
  have hmem : (uri, rest) ∈ CharTables.angled ('<' :: (uri ++ '>' :: rest)) :=
    mem_angled.mpr ⟨rfl, hne, huri⟩
  obtain ⟨r, others, hresults⟩ := List.exists_cons_of_ne_nil (List.ne_nil_of_mem hmem)
  have hr : (r.1, r.2) ∈ CharTables.angled ('<' :: (uri ++ '>' :: rest)) :=
    hresults ▸ List.mem_cons_self
  obtain ⟨heq, -, hclose⟩ := mem_angled.mp hr
  have hsame := congrArg (fun text => text.takeWhile (· ≠ '>')) (List.cons.inj heq).2
  rw [takeWhile_of_notMem huri, takeWhile_of_notMem hclose] at hsame
  rw [hresults, List.head?_cons, Option.map_some, hsame]

/-- Nothing is found where no bracket closes. -/
theorem search_angleUriRe_of_notMem {text : Text} (h : '>' ∉ text) (prev : Option Char) :
    Matcher.search CharTables.angleUriRe prev text = none := by
  refine Option.eq_none_iff_forall_ne_some.mpr fun r hr => ?_
  obtain ⟨_, here, hsuffix, hmem⟩ := Matcher.mem_of_search hr
  obtain ⟨rfl, -, -⟩ := mem_angled.mp hmem
  refine h (hsuffix.subset ?_)
  simp

/-- The pattern takes what stands behind the first bracket that closes again. -/
theorem search_angleUriRe (prev : Option Char) (text : Text) :
    (Matcher.search CharTables.angleUriRe prev text).map Prod.fst =
      (behindBracket text).bind fun rest =>
        if '>' ∈ rest then some (rest.takeWhile (· ≠ '>')) else none := by
  induction text generalizing prev with
  | nil => rfl
  | cons c rest ih =>
      rw [Matcher.search, behindBracket]
      split_ifs with hopen
      · obtain ⟨rfl, hhead⟩ := hopen
        rw [Option.bind_some]
        split_ifs with hclose
        · obtain ⟨uri, after, rfl, huri⟩ := List.eq_append_cons_of_mem hclose
          have hne : uri ≠ [] := by
            rintro rfl
            exact hhead rfl
          have hhere : ((CharTables.angleUriRe prev ('<' :: (uri ++ '>' :: after))).head?).map
              Prod.fst = some uri := head?_angled hne huri after
          rw [takeWhile_of_notMem huri, Option.map_or, hhere, Option.some_or]
        · have hnotin : '>' ∉ '<' :: rest := by simp [hclose]
          have hnone := search_angleUriRe_of_notMem hnotin prev
          rw [Matcher.search] at hnone
          rw [hnone]
          rfl
      · have hnil : CharTables.angleUriRe prev (c :: rest) = [] := by
          refine List.eq_nil_iff_forall_not_mem.mpr fun r hr => hopen ?_
          obtain ⟨heq, hne, hclose⟩ := mem_angled.mp hr
          obtain ⟨rfl, rfl⟩ := List.cons.inj heq
          refine ⟨rfl, ?_⟩
          obtain ⟨d, uri, huri⟩ := List.exists_cons_of_ne_nil hne
          rw [huri] at hclose ⊢
          rw [List.cons_append, List.head?_cons, ne_eq, Option.some.injEq]
          exact fun hd => hclose (hd ▸ List.mem_cons_self)
        rw [hnil, List.head?_nil, Option.none_or, ih]

/-- `_RE_ANGLE_URI`: the first bracket that is closed at all. -/
theorem searchIn_angleUriRe (text : Text) :
    CharTables.searchIn CharTables.angleUriRe text =
      (behindBracket text).bind fun rest =>
        if '>' ∈ rest then some (rest.takeWhile (· ≠ '>')) else none :=
  search_angleUriRe none text

theorem behindBracket_eq_none {text : Text} (h : '<' ∉ text) : behindBracket text = none := by
  induction text with
  | nil => rfl
  | cons c rest ih =>
      rw [List.mem_cons, not_or] at h
      rw [behindBracket, if_neg fun hopen => h.1 hopen.1.symm, ih h.2]

/-- A bracket is looked for in the first part before the second. -/
theorem behindBracket_append {text : Text} (hlast : text.getLast? ≠ some '<') (rest : Text) :
    behindBracket (text ++ rest) =
      ((behindBracket text).map (· ++ rest)).or (behindBracket rest) := by
  induction text with
  | nil => rfl
  | cons c text ih =>
      cases text with
      | nil =>
          have hc : c ≠ '<' := fun hc => hlast (hc ▸ rfl)
          rw [List.singleton_append, behindBracket, if_neg fun hopen => hc hopen.1, behindBracket,
            if_neg fun hopen => hc hopen.1]
          rfl
      | cons d text =>
          rw [List.getLast?_cons_cons] at hlast
          have hsame : (c = '<' ∧ (d :: text ++ rest).head? ≠ some '>') ↔
              c = '<' ∧ (d :: text).head? ≠ some '>' := Iff.rfl
          rw [List.cons_append, behindBracket, behindBracket, ih hlast]
          by_cases hopen : c = '<' ∧ (d :: text).head? ≠ some '>'
          · rw [if_pos (hsame.mpr hopen), if_pos hopen]
            rfl
          · rw [if_neg fun h => hopen (hsame.mp h), if_neg hopen]

/-! ## Stripped addresses -/

theorem blank_ascii {c : Char} (hc : c.toNat < 128) (hnot : c ∉ Sdp.asciiSpaces) :
    u.isSpace c = false := by
  rw [u.isSpace_ascii c hc]
  exact decide_eq_false hnot

theorem notMem_blanks {gap : Text} (hgap : ∀ c ∈ gap, u.isSpace c = true) {c : Char}
    (hc : u.isSpace c = false) : c ∉ gap := by
  intro hmem
  rw [hgap c hmem] at hc
  cases hc

theorem rstrip_spec (text : Text) :
    ∃ gap, text = u.rstrip text ++ gap ∧ ∀ c ∈ gap, u.isSpace c = true := by
  refine ⟨(text.reverse.takeWhile u.isSpace).reverse, ?_, fun c hc => ?_⟩
  · rw [CharTables.rstrip, List.rdropWhile, ← List.reverse_append, List.takeWhile_append_dropWhile,
      List.reverse_reverse]
  · exact List.mem_takeWhile_imp (List.mem_reverse.mp hc)

/-- Stripping takes blanks off both ends. -/
theorem strip_spec (text : Text) :
    ∃ gap gap', text = gap ++ u.strip text ++ gap' ∧ (∀ c ∈ gap, u.isSpace c = true) ∧
      ∀ c ∈ gap', u.isSpace c = true := by
  obtain ⟨gap', hgap', hblank'⟩ := rstrip_spec (u := u) (text.dropWhile u.isSpace)
  refine ⟨text.takeWhile u.isSpace, gap', ?_, fun c hc => List.mem_takeWhile_imp hc, hblank'⟩
  calc text
    _ = text.takeWhile u.isSpace ++ text.dropWhile u.isSpace :=
        List.takeWhile_append_dropWhile.symm
    _ = text.takeWhile u.isSpace ++ (u.strip text ++ gap') := congrArg _ hgap'
    _ = _ := (List.append_assoc _ _ _).symm

/-- An address is what is left when the blanks around it are stripped. -/
theorem IsAddrSpec.strip_eq {uri gap gap' : Text} (h : IsAddrSpec u uri)
    (hgap : ∀ c ∈ gap, u.isSpace c = true) (hgap' : ∀ c ∈ gap', u.isSpace c = true) :
    u.strip (gap ++ uri ++ gap') = uri := by
  have hhead : (uri ++ gap').dropWhile u.isSpace = uri ++ gap' := by
    obtain ⟨c, rest, rfl⟩ := List.exists_cons_of_ne_nil h.ne_nil
    refine List.dropWhile_cons_of_neg ?_
    rw [h.no_blank c List.mem_cons_self]
    exact Bool.false_ne_true
  rw [CharTables.strip, List.append_assoc, List.dropWhile_append_of_pos hgap, hhead]
  have hlast : u.isSpace (uri.getLast h.ne_nil) = false := h.no_blank _ (List.getLast_mem h.ne_nil)
  calc u.rstrip (uri ++ gap')
    _ = u.rstrip (uri.dropLast ++ uri.getLast h.ne_nil :: gap') := by
        rw [List.append_cons, List.dropLast_append_getLast]
    _ = uri.dropLast ++ uri.getLast h.ne_nil :: u.rstrip gap' := u.rstrip_append hlast gap'
    _ = uri := by
        rw [CharTables.rstrip_eq_nil _ hgap', List.dropLast_append_getLast]

theorem IsAddrSpec.strip_self {uri : Text} (h : IsAddrSpec u uri) :
    u.strip (uri.takeWhile (· ≠ ';')) = uri := by
  have hall : uri.takeWhile (· ≠ ';') = uri :=
    List.takeWhile_eq_self_iff.mpr fun c hc =>
      decide_eq_true (ne_of_mem_of_not_mem hc h.semicolon_notMem)
  have hstrip := h.strip_eq (List.forall_mem_nil _) (List.forall_mem_nil _)
  rw [hall]
  rwa [List.nil_append, List.append_nil] at hstrip

/-- Only an address between blanks is stripped to that address. -/
theorem IsAddrSpec.strip_eq_iff {uri : Text} (h : IsAddrSpec u uri) (text : Text) :
    u.strip text = uri ↔ ∃ gap gap', text = gap ++ uri ++ gap' ∧ (∀ c ∈ gap, u.isSpace c = true) ∧
      ∀ c ∈ gap', u.isSpace c = true := by
  constructor
  · rintro rfl
    exact strip_spec text
  · rintro ⟨gap, gap', rfl, hgap, hgap'⟩
    exact h.strip_eq hgap hgap'

/-! ## Up to the end of the address -/

/-- The text up to its first `>` or `;`. -/
def uptoStop (text : Text) : Text := (text.takeWhile (· ≠ '>')).takeWhile (· ≠ ';')

/-- The address ends at the first bracket or semicolon. -/
theorem uptoStop_append {before : Text} (hclose : '>' ∉ before) (hsemi : ';' ∉ before) {stop : Char}
    (hstop : stop = '>' ∨ stop = ';') (rest : Text) :
    uptoStop (before ++ stop :: rest) = before := by
  have hall : ∀ {d : Char}, d ∉ before → ∀ c ∈ before, decide (c ≠ d) = true :=
    fun hd c hc => decide_eq_true (ne_of_mem_of_not_mem hc hd)
  unfold uptoStop
  rcases hstop with rfl | rfl
  · rw [takeWhile_of_notMem hclose, List.takeWhile_eq_self_iff]
    exact hall hsemi
  · have hstep : (';' :: rest).takeWhile (· ≠ '>') = ';' :: rest.takeWhile (· ≠ '>') :=
      List.takeWhile_cons_of_pos (by decide)
    rw [List.takeWhile_append_of_pos (hall hclose), hstep, takeWhile_of_notMem hsemi]

theorem uptoStop_spec {text : Text} (h : '>' ∈ text) :
    ∃ stop rest, text = uptoStop text ++ stop :: rest ∧ (stop = '>' ∨ stop = ';') := by
  obtain ⟨before, after, rfl, hbefore⟩ := List.eq_append_cons_of_mem h
  unfold uptoStop
  rw [takeWhile_of_notMem hbefore]
  by_cases hsemi : ';' ∈ before
  · obtain ⟨front, back, rfl, hfront⟩ := List.eq_append_cons_of_mem hsemi
    rw [takeWhile_of_notMem hfront]
    exact ⟨';', back ++ '>' :: after, by simp, .inr rfl⟩
  · have hall : before.takeWhile (· ≠ ';') = before :=
      List.takeWhile_eq_self_iff.mpr fun c hc => decide_eq_true (ne_of_mem_of_not_mem hc hsemi)
    rw [hall]
    exact ⟨'>', after, rfl, .inl rfl⟩

theorem IsAddrSpec.strip_uptoStop_iff {uri text : Text} (h : IsAddrSpec u uri) (hclose : '>' ∈ text) :
    u.strip (uptoStop text) = uri ↔ Encloses u uri text := by
  have hgt : u.isSpace '>' = false := blank_ascii (by decide) (by decide)
  have hsemi : u.isSpace ';' = false := blank_ascii (by decide) (by decide)
  rw [h.strip_eq_iff]
  constructor
  · rintro ⟨gap, gap', hupto, hgap, hgap'⟩
    obtain ⟨stop, rest, htext, hstop⟩ := uptoStop_spec hclose
    exact ⟨gap, gap', stop, rest, hupto ▸ htext, hgap, hgap', hstop⟩
  · rintro ⟨gap, gap', stop, rest, rfl, hgap, hgap', hstop⟩
    refine ⟨gap, gap', uptoStop_append ?_ ?_ hstop rest, hgap, hgap'⟩
    · simp only [List.mem_append, not_or]
      exact ⟨⟨notMem_blanks hgap hgt, h.close_notMem⟩, notMem_blanks hgap' hgt⟩
    · simp only [List.mem_append, not_or]
      exact ⟨⟨notMem_blanks hgap hsemi, h.semicolon_notMem⟩, notMem_blanks hgap' hsemi⟩

/-- An address that ends before the next bracket is enclosed in front of it. -/
theorem IsAddrSpec.encloses_append_iff {uri : Text} (h : IsAddrSpec u uri) (text rest : Text) :
    Encloses u uri (text ++ '<' :: rest) ↔ Encloses u uri text := by
  constructor
  · rintro ⟨gap, gap', stop, after, heq, hgap, hgap', hstop⟩
    have hlt : u.isSpace '<' = false := blank_ascii (by decide) (by decide)
    have hnotin : '<' ∉ gap ++ uri ++ gap' ++ [stop] := by
      simp only [List.mem_append, not_or, List.mem_singleton]
      refine ⟨⟨⟨notMem_blanks hgap hlt, h.open_notMem⟩, notMem_blanks hgap' hlt⟩, ?_⟩
      rcases hstop with rfl | rfl <;> decide
    have hbegins : gap ++ uri ++ gap' ++ [stop] <+: text ++ '<' :: rest := by
      rw [heq]
      exact ⟨after, by simp⟩
    have hlen : (gap ++ uri ++ gap' ++ [stop]).length ≤ text.length := by
      by_contra hlonger
      have hin : text ++ ['<'] <+: gap ++ uri ++ gap' ++ [stop] := by
        refine List.prefix_of_prefix_length_le ?_ hbegins ?_
        · exact ⟨rest, by simp⟩
        · rw [List.length_append, List.length_singleton]
          omega
      exact hnotin (hin.subset (List.mem_append_right _ (List.mem_singleton_self _)))
    obtain ⟨tail, htail⟩ := List.prefix_of_prefix_length_le hbegins (List.prefix_append _ _) hlen
    exact ⟨gap, gap', stop, tail, by rw [← htail]; simp, hgap, hgap', hstop⟩
  · rintro ⟨gap, gap', stop, after, rfl, hgap, hgap', hstop⟩
    exact ⟨gap, gap', stop, after ++ '<' :: rest, by simp, hgap, hgap', hstop⟩

/-! ## The two forms of a header value -/

/-- A URI in angle brackets is cut at its parameters and stripped. -/
theorem normalizeSipUri_of_search {text content : Text} (hne : text ≠ [])
    (h : CharTables.searchIn CharTables.angleUriRe text = some content) :
    u.normalizeSipUri text = u.strip (content.takeWhile (· ≠ ';')) := by
  rw [CharTables.normalizeSipUri, if_neg (by rwa [List.isEmpty_iff]), h]
  rfl

/-- A display name does not end in a bracket. -/
theorem IsDisplayName.last_ne {display : Text} (h : IsDisplayName u display) :
    display.getLast? ≠ some '<' := by
  have hlt : u.isSpace '<' = false := blank_ascii (by decide) (by decide)
  intro hlast
  cases h with
  | tokens hall =>
      rcases hall '<' (List.mem_of_getLast? hlast) with htoken | hspace
      · revert htoken
        decide
      · rw [hlt] at hspace
        cases hspace
  | @quoted before body after _ _ hafter =>
      rw [List.getLast?_append_of_ne_nil _ (List.cons_ne_nil _ _)] at hlast
      rcases List.mem_cons.mp (List.mem_of_getLast? hlast) with heq | hmem
      · revert heq
        decide
      · exact notMem_blanks hafter hlt hmem

theorem NameAddr.normalizeSipUri_iff (a : NameAddr u) :
    u.normalizeSipUri a.text = a.uri ↔ a.Plain := by
  have hne : a.text ≠ [] := List.append_ne_nil_of_right_ne_nil _ (List.cons_ne_nil _ _)
  have hbehind : behindBracket a.text =
      ((behindBracket a.display).map (· ++ '<' :: (a.uri ++ '>' :: a.params))).or
        (some (a.uri ++ '>' :: a.params)) := by
    rw [NameAddr.text, behindBracket_append a.isDisplayName.last_ne]
    congr 1
    refine if_pos ⟨rfl, ?_⟩
    obtain ⟨c, rest, huri⟩ := List.exists_cons_of_ne_nil a.isAddrSpec.ne_nil
    have hclose := a.isAddrSpec.close_notMem
    rw [huri] at hclose ⊢
    rw [List.cons_append, List.head?_cons, ne_eq, Option.some.injEq]
    exact fun hc => hclose (hc ▸ List.mem_cons_self)
  have hsearch := searchIn_angleUriRe a.text
  cases hdisplay : behindBracket a.display with
  | none =>
      have hplain : a.Plain := by
        intro rest hrest
        rw [hdisplay] at hrest
        cases hrest
      have hcontent : CharTables.searchIn CharTables.angleUriRe a.text = some a.uri := by
        rw [searchIn_angleUriRe, hbehind, hdisplay, Option.map_none, Option.none_or,
          Option.bind_some, if_pos (by simp), takeWhile_of_notMem a.isAddrSpec.close_notMem]
      rw [normalizeSipUri_of_search hne hcontent]
      exact iff_of_true a.isAddrSpec.strip_self hplain
  | some rest =>
      have hclose : '>' ∈ rest ++ '<' :: (a.uri ++ '>' :: a.params) := by simp
      have hcontent : CharTables.searchIn CharTables.angleUriRe a.text =
          some ((rest ++ '<' :: (a.uri ++ '>' :: a.params)).takeWhile (· ≠ '>')) := by
        rw [searchIn_angleUriRe, hbehind, hdisplay, Option.map_some, Option.some_or,
          Option.bind_some, if_pos hclose]
      have hplain : a.Plain ↔ Encloses u a.uri rest := by
        simp [NameAddr.Plain, hdisplay]
      rw [normalizeSipUri_of_search hne hcontent, hplain, ← a.isAddrSpec.encloses_append_iff rest]
      exact a.isAddrSpec.strip_uptoStop_iff hclose

theorem BareAddr.normalizeSipUri_iff (b : BareAddr u) :
    u.normalizeSipUri b.text = b.uri ↔ b.Plain := by
  have hne : b.text ≠ [] := List.append_ne_nil_of_left_ne_nil b.isAddrSpec.ne_nil _
  have hlast : b.uri.getLast? ≠ some '<' :=
    fun hlast => b.isAddrSpec.open_notMem (List.mem_of_getLast? hlast)
  have hbehind : behindBracket b.text = behindBracket b.params := by
    rw [BareAddr.text, behindBracket_append hlast, behindBracket_eq_none b.isAddrSpec.open_notMem]
    rfl
  -- without a closed bracket the whole value is cut at its semicolon
  have hwhole : CharTables.searchIn CharTables.angleUriRe b.text = none →
      u.normalizeSipUri b.text = b.uri := by
    intro hnone
    obtain ⟨gap, rest, hparams, hgap, hrest⟩ := b.isParams
    have hsemi : ';' ∉ b.uri ++ gap := by
      have hblank : u.isSpace ';' = false := blank_ascii (by decide) (by decide)
      simp only [List.mem_append, not_or]
      exact ⟨b.isAddrSpec.semicolon_notMem, notMem_blanks hgap hblank⟩
    have hcut : b.text.takeWhile (· ≠ ';') = b.uri ++ gap := by
      rw [BareAddr.text, hparams, ← List.append_assoc]
      cases rest with
      | nil =>
          rw [List.append_nil, List.takeWhile_eq_self_iff]
          exact fun c hc => decide_eq_true (ne_of_mem_of_not_mem hc hsemi)
      | cons c rest =>
          obtain rfl := hrest c rfl
          exact takeWhile_of_notMem hsemi rest
    rw [CharTables.normalizeSipUri, if_neg (by rwa [List.isEmpty_iff]), hnone]
    change u.strip (b.text.takeWhile (· ≠ ';')) = b.uri
    rw [hcut]
    exact b.isAddrSpec.strip_eq (List.forall_mem_nil _) hgap
  cases hparams : behindBracket b.params with
  | none =>
      have hplain : b.Plain := by
        intro rest hrest
        rw [hparams] at hrest
        cases hrest
      refine iff_of_true (hwhole ?_) hplain
      rw [searchIn_angleUriRe, hbehind, hparams]
      rfl
  | some rest =>
      have hplain : b.Plain ↔ ('>' ∈ rest → Encloses u b.uri rest) := by
        simp [BareAddr.Plain, hparams]
      rw [hplain]
      by_cases hclose : '>' ∈ rest
      · have hcontent : CharTables.searchIn CharTables.angleUriRe b.text =
            some (rest.takeWhile (· ≠ '>')) := by
          rw [searchIn_angleUriRe, hbehind, hparams, Option.bind_some, if_pos hclose]
        rw [normalizeSipUri_of_search hne hcontent, imp_iff_right hclose]
        exact b.isAddrSpec.strip_uptoStop_iff hclose
      · refine iff_of_true (hwhole ?_) fun hin => (hclose hin).elim
        rw [searchIn_angleUriRe, hbehind, hparams, Option.bind_some, if_neg hclose]

/-! ## From and To -/

/-- The address of a header is read from its first angle brackets. -/
theorem NameAddr.uriOf_iff (a : NameAddr u) : u.uriOf a.text = some a.uri ↔ a.Plain := by
  rw [← a.normalizeSipUri_iff, CharTables.uriOf]
  split_ifs with hempty
  · rw [List.isEmpty_iff] at hempty
    rw [hempty]
    exact iff_of_false id a.isAddrSpec.ne_nil.symm
  · exact Option.some_inj

/-- An address is read from a header value exactly when no other bracket comes first; so are the
URIs of From and To. -/
theorem addresses_read_iff (u : HeaderTables) :
    (∀ a : NameAddr u, u.normalizeSipUri a.text = a.uri ↔ a.Plain) ∧
    (∀ b : BareAddr u, u.normalizeSipUri b.text = b.uri ↔ b.Plain) ∧
    ∀ msg : Text, u.LongNumber msg ∨ ∃ md, u.parseSipMetadata msg = some md ∧
      ∀ a : NameAddr u,
        (CharTables.searchIn u.fromRe msg = some a.text →
          (md.fromUri = some a.uri ↔ a.Plain)) ∧
        (CharTables.searchIn u.toRe msg = some a.text →
          (md.toUri = some a.uri ↔ a.Plain)) := by
  refine ⟨NameAddr.normalizeSipUri_iff, BareAddr.normalizeSipUri_iff, fun msg => ?_⟩
  refine (u.longNumber_or_parse msg).imp_right ?_
  rintro ⟨md, hmd⟩
  refine ⟨md, hmd, fun a => ⟨?_, ?_⟩⟩
  · intro hfrom
    have hne : msg ≠ [] := by
      rintro rfl
      cases hfrom
    rw [(CharTables.parseSipMetadata_spec hne hmd).fromUri, hfrom]
    exact a.uriOf_iff
  · intro hto
    have hne : msg ≠ [] := by
      rintro rfl
      cases hto
    rw [(CharTables.parseSipMetadata_spec hne hmd).toUri, hto]
    exact a.uriOf_iff

/-- A caller has put another address into the display name. -/
def bracketedName : NameAddr HeaderTables.ascii where
  display := "\"a <sip:evil@x>\" ".toList
  uri := "sip:bob@y".toList
  params := ";tag=1".toList
  isDisplayName := .quoted (List.forall_mem_nil _) (by decide : isQuotable "a <sip:evil@x>".toList)
    (List.all_eq_true.mp (by decide : [' '].all HeaderTables.ascii.isSpace))
  isAddrSpec :=
    { ne_nil := by decide
      open_notMem := by decide
      close_notMem := by decide
      semicolon_notMem := by decide
      no_blank := by
        intro c hc
        have hall : ("sip:bob@y".toList.all fun c => !HeaderTables.ascii.isSpace c) = true := by
          decide
        exact (Bool.not_eq_true' _).mp (List.all_eq_true.mp hall c hc) }
  isParams := ⟨[], ";tag=1".toList, rfl, List.forall_mem_nil _, by simp⟩

def bracketedFrom : Text := "From: ".toList ++ bracketedName.text

theorem bracketedName_taken :
    HeaderTables.ascii.normalizeSipUri bracketedName.text = "sip:evil@x".toList ∧
      (HeaderTables.ascii.parseSipMetadata bracketedFrom).map (·.fromUri) =
        some (some "sip:evil@x".toList) ∧
      ¬ ∀ a : NameAddr HeaderTables.ascii, HeaderTables.ascii.normalizeSipUri a.text = a.uri := by
  have hevil : HeaderTables.ascii.normalizeSipUri bracketedName.text = "sip:evil@x".toList := by
    decide +kernel
  refine ⟨hevil, by decide +kernel, fun hall => ?_⟩
  have huri := hall bracketedName
  rw [hevil] at huri
  revert huri
  decide

theorem bracketedName_not_plain :
    CharTables.searchIn HeaderTables.ascii.fromRe bracketedFrom = some bracketedName.text ∧
      ¬ bracketedName.Plain := by
  have hfrom : CharTables.searchIn HeaderTables.ascii.fromRe bracketedFrom =
      some bracketedName.text := by decide +kernel
  refine ⟨hfrom, ?_⟩
  rcases (addresses_read_iff HeaderTables.ascii).2.2 bracketedFrom with hlong | ⟨md, hmd, hread⟩
  · exact (CharTables.not_longNumber (by decide +kernel) hlong).elim
  · have hne : bracketedFrom ≠ [] := List.append_ne_nil_of_left_ne_nil (by decide) _
    rw [← (hread bracketedName).1 hfrom, (CharTables.parseSipMetadata_spec hne hmd).fromUri]
    decide +kernel

end PjsuaMcp.SipLog
