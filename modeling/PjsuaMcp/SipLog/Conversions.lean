import PjsuaMcp.SipLog.Metadata

/-!
# When the metadata can be read

The patterns of the metadata have no lookahead, and the numbers that they find
are pieces of the entry. `int` therefore raises on no entry without more than
4300 digits in a row.
-/

namespace PjsuaMcp.SipLog

open Sdp (Text)
open Library Matcher

/-! ## The patterns are local -/

section Locality

variable (u : CharTables)

theorem local_header (name : Text) (prev : Option Char) : Local (u.header name prev) :=
  local_bind (local_require _) fun _ => local_bind (local_word _ _) fun _ =>
    local_bind (local_many _) fun _ => local_pure _

theorem local_threeDigits : Local u.threeDigits :=
  local_bind (local_one _) fun _ => local_bind (local_one _) fun _ =>
    local_bind (local_one _) fun _ => local_pure _

theorem local_envelope (kind : Text) (prev : Option Char) : Local (u.envelope kind prev) :=
  local_bind (local_require _) fun _ => local_bind (local_one _) fun _ =>
    local_bind (local_lit _) fun _ => local_bind (local_many1 _) fun _ =>
    local_bind (local_many1 _) fun _ => local_bind (local_many1 _) fun _ =>
    local_bind (local_lit _) fun _ => local_bind (local_many1 _) fun _ =>
    local_bind (local_lit _) fun _ => local_bind (local_many1 _) fun _ =>
    local_bind (local_lit _) fun _ => local_bind (local_many1 _) fun _ => local_pure _

theorem local_txrxRequestRe (prev : Option Char) : Local (u.txrxRequestRe prev) :=
  local_bind (local_envelope u _ _) fun _ => local_bind (local_many1 _) fun _ =>
    local_bind (local_lit _) fun _ => local_bind (local_many1 _) fun _ => local_pure _

theorem local_txrxResponseRe (prev : Option Char) : Local (u.txrxResponseRe prev) :=
  local_bind (local_envelope u _ _) fun _ => local_bind (local_threeDigits u) fun _ =>
    local_bind (local_lit _) fun _ => local_bind (local_many1 _) fun _ =>
    local_bind (local_lit _) fun _ => local_bind (local_many1 _) fun _ => local_pure _

theorem local_statusLineRe (prev : Option Char) : Local (u.statusLineRe prev) :=
  local_bind (local_require _) fun _ => local_bind (local_lit _) fun _ =>
    local_bind (local_many1 _) fun _ => local_bind (local_threeDigits u) fun _ =>
    local_bind (local_one _) fun _ => local_pure _

theorem local_callIdRe (prev : Option Char) : Local (u.callIdRe prev) :=
  local_bind (local_header u _ _) fun _ => local_many1 _

theorem local_cseqHeaderRe (prev : Option Char) : Local (u.cseqHeaderRe prev) :=
  local_bind (local_header u _ _) fun _ => local_bind (local_many1 _) fun _ =>
    local_bind (local_many1 _) fun _ => local_bind (local_many1 _) fun _ => local_pure _

theorem local_headerLineRe (name : Text) (prev : Option Char) : Local (u.headerLineRe name prev) :=
  local_bind (local_header u _ _) fun _ => local_many1 _

theorem local_fromRe (prev : Option Char) : Local (u.fromRe prev) := local_headerLineRe u _ prev

theorem local_toRe (prev : Option Char) : Local (u.toRe prev) := local_headerLineRe u _ prev

theorem local_viaRe (prev : Option Char) : Local (u.viaRe prev) :=
  local_bind (local_header u _ _) fun _ => local_bind (local_manyLazy _) fun _ =>
    local_bind (local_many1 _) fun _ => local_bind (local_many1 _) fun _ =>
    local_bind (local_lit _) fun _ => local_many1 _

theorem local_angled : Local CharTables.angled :=
  local_bind (local_lit _) fun _ => local_bind (local_many1 _) fun _ =>
    local_bind (local_lit _) fun _ => local_pure _

theorem local_dumpRe (prev : Option Char) : Local (u.dumpRe prev) :=
  local_bind (local_lit _) fun _ => local_bind (local_many1 _) fun _ =>
    local_bind (local_lit _) fun _ => local_bind (local_many1 _) fun _ =>
    local_bind (local_lit _) fun _ => local_bind (local_many _) fun _ => local_angled

end Locality

/-! ## The numbers are pieces of the entry -/

/-- A list of conversions fails at the first one that does. -/
theorem mapM_eq_none_iff {α β : Type} {f : α → Option β} {xs : List α} :
    xs.mapM f = none ↔ ∃ x ∈ xs, f x = none := by
  induction xs with
  | nil => simp
  | cons x xs ih =>
      rw [List.mapM_cons, List.exists_mem_cons_iff, ← ih]
      cases f x with
      | none => simp
      | some y => cases xs.mapM f <;> simp

namespace CharTables

variable {u : CharTables}

/-- A status code is made of digits. -/
theorem yields_threeDigits : Yields u.isDigit id u.threeDigits := by
  intro input r hr
  obtain ⟨a, mid, ha, hr⟩ := mem_bind.mp hr
  obtain ⟨b, mid', hb, hr⟩ := mem_bind.mp hr
  obtain ⟨c, mid'', hc, hr⟩ := mem_bind.mp hr
  obtain ⟨hvalue, -⟩ := mem_pure.mp hr
  obtain ⟨rfl, ha⟩ := mem_one.mp ha
  obtain ⟨rfl, hb⟩ := mem_one.mp hb
  obtain ⟨rfl, hc⟩ := mem_one.mp hc
  rw [hvalue]
  refine ⟨⟨[], mid'', rfl⟩, fun d hd => ?_⟩
  simp only [id, List.mem_cons, List.not_mem_nil, or_false] at hd
  rcases hd with rfl | rfl | rfl <;> assumption

/-- The last thing that is read are digits. -/
theorem yields_last {α : Type} {piece : α → Text} {f : Text → α} (hf : ∀ a, piece (f a) = a) :
    Yields u.isDigit piece (do return f (← Matcher.many1 u.isDigit)) := by
  refine yields_bind_left (yields_many1 _) fun a mid r hr => ?_
  rw [(mem_pure.mp hr).1]
  exact hf a

theorem yields_txrxRequestRe (prev : Option Char) :
    Yields u.isDigit (fun g => g.2.2) (u.txrxRequestRe prev) :=
  yields_bind (local_envelope u _ _) fun _ => yields_bind (local_many1 _) fun _ =>
    yields_bind (local_lit _) fun _ => yields_last fun _ => rfl

/-- The `CSeq` of a response is made of digits. -/
theorem yields_txrxResponseRe (prev : Option Char) :
    Yields u.isDigit (fun g => g.2.2.2) (u.txrxResponseRe prev) :=
  yields_bind (local_envelope u _ _) fun _ => yields_bind (local_threeDigits u) fun _ =>
    yields_bind (local_lit _) fun _ => yields_bind (local_many1 _) fun _ =>
    yields_bind (local_lit _) fun _ => yields_last fun _ => rfl

theorem yields_txrxResponseRe_status (prev : Option Char) :
    Yields u.isDigit (fun g => g.2.1) (u.txrxResponseRe prev) := by
  refine yields_bind (local_envelope u _ _) fun _ =>
    yields_bind_left yields_threeDigits fun a mid r hr => ?_
  obtain ⟨_, _, -, hr⟩ := mem_bind.mp hr
  obtain ⟨_, _, -, hr⟩ := mem_bind.mp hr
  obtain ⟨_, _, -, hr⟩ := mem_bind.mp hr
  obtain ⟨_, _, -, hr⟩ := mem_bind.mp hr
  rw [(mem_pure.mp hr).1]

theorem yields_statusLineRe (prev : Option Char) :
    Yields u.isDigit id (u.statusLineRe prev) := by
  refine yields_bind (local_require _) fun _ => yields_bind (local_lit _) fun _ =>
    yields_bind (local_many1 _) fun _ => yields_bind_left yields_threeDigits fun a mid r hr => ?_
  obtain ⟨_, _, -, hr⟩ := mem_bind.mp hr
  rw [(mem_pure.mp hr).1, id]

theorem yields_cseqHeaderRe (prev : Option Char) :
    Yields u.isDigit Prod.fst (u.cseqHeaderRe prev) := by
  refine yields_bind (local_header u _ _) fun _ =>
    yields_bind_left (yields_many1 _) fun a mid r hr => ?_
  obtain ⟨_, _, -, hr⟩ := mem_bind.mp hr
  obtain ⟨_, _, -, hr⟩ := mem_bind.mp hr
  rw [(mem_pure.mp hr).1]

theorem yields_viaRe (prev : Option Char) : Yields u.isDigit id (u.viaRe prev) :=
  yields_bind (local_header u _ _) fun _ => yields_bind (local_manyLazy _) fun _ =>
    yields_bind (local_many1 _) fun _ => yields_bind (local_many1 _) fun _ =>
    yields_bind (local_lit _) fun _ => yields_many1 _

/-! ## What is not converted -/

/-- More digits in a row than `int` takes. -/
def LongNumber (u : CharTables) (msg : Text) : Prop :=
  ∃ digits, digits <:+: msg ∧ 4300 < digits.length ∧ ∀ c ∈ digits, u.isDigit c = true

variable {msg : Text}

/-- The entries of the library are shorter than that. -/
theorem not_longNumber (h : msg.length ≤ 4300) : ¬u.LongNumber msg := by
  rintro ⟨digits, hpiece, hlong, -⟩
  have hshort : digits.length ≤ msg.length := hpiece.length_le
  omega

/-- A run of digits that `int()` refuses is a long number of the message. -/
theorem longNumber_of_int {digits : Text}
    (piece : digits <:+: msg ∧ ∀ c ∈ digits, u.isDigit c = true) (h : u.int digits = none) :
    u.LongNumber msg := by
  rw [int, ite_eq_right_iff] at h
  refine ⟨digits, piece.1, Nat.lt_of_not_le fun hshort => ?_, piece.2⟩
  cases h hshort

/-- A number that a search has found. -/
theorem longNumber_of_searchIn {α : Type} {m : Option Char → Matcher Char α} {piece : α → Text}
    (hm : ∀ prev, Yields u.isDigit piece (m prev)) {groups : α}
    (hfound : searchIn m msg = some groups) (h : u.int (piece groups) = none) :
    u.LongNumber msg := by
  obtain ⟨r, hr, rfl⟩ := Option.map_eq_some_iff.mp hfound
  exact longNumber_of_int (Yields.search hm hr) h

/-- An envelope that cannot be read has a long status code or a long `CSeq`. -/
theorem longNumber_of_readEnvelope (h : u.readEnvelope msg = none) : u.LongNumber msg := by
  unfold readEnvelope at h
  cases hresponse : searchIn u.txrxResponseRe msg with
  | some groups =>
      obtain ⟨direction, status, method, cseq⟩ := groups
      simp only [hresponse] at h
      cases hstatus : u.int status with
      | none => exact longNumber_of_searchIn yields_txrxResponseRe_status hresponse hstatus
      | some code =>
          refine longNumber_of_searchIn yields_txrxResponseRe hresponse ?_
          rw [Option.eq_none_iff_forall_ne_some]
          simpa [hstatus] using h
  | none =>
      simp only [hresponse] at h
      cases hrequest : searchIn u.txrxRequestRe msg with
      | some groups =>
          obtain ⟨direction, method, cseq⟩ := groups
          refine longNumber_of_searchIn yields_txrxRequestRe hrequest ?_
          rw [Option.eq_none_iff_forall_ne_some]
          simpa [hrequest] using h
      | none =>
          rw [hrequest] at h
          cases h

/-- A status line that cannot be read has a long status code. -/
theorem longNumber_of_readStatusLine {md : SipMetadata} (h : u.readStatusLine msg md = none) :
    u.LongNumber msg := by
  unfold readStatusLine at h
  split_ifs at h
  cases hstatus : searchIn u.statusLineRe msg with
  | some status =>
      refine longNumber_of_searchIn yields_statusLineRe hstatus ?_
      rw [Option.eq_none_iff_forall_ne_some]
      simpa [hstatus] using h
  | none =>
      rw [hstatus] at h
      cases h

/-- A `CSeq` header that cannot be read has a long number. -/
theorem longNumber_of_readCseq {md : SipMetadata} (h : u.readCseq msg md = none) :
    u.LongNumber msg := by
  unfold readCseq at h
  split_ifs at h
  cases hheader : searchIn u.cseqHeaderRe msg with
  | some groups =>
      refine longNumber_of_searchIn yields_cseqHeaderRe hheader ?_
      have hcseq : md.cseq.or (u.int groups.1) = none := by
        rw [Option.eq_none_iff_forall_ne_some]
        simpa [hheader] using h
      exact (Option.or_eq_none_iff.mp hcseq).2
  | none =>
      rw [hheader] at h
      cases h

/-- A `Via` whose port cannot be read has a long one. -/
theorem longNumber_of_viaPorts (h : (allIn u.viaRe msg).mapM u.int = none) :
    u.LongNumber msg := by
  obtain ⟨port, hport, hint⟩ := mapM_eq_none_iff.mp h
  obtain ⟨r, hr, rfl⟩ := List.mem_map.mp hport
  exact longNumber_of_int (Yields.findAll yields_viaRe hr) hint

/-- Nothing else keeps an entry from being read. -/
theorem longNumber_of_parseSipMetadata (h : u.parseSipMetadata msg = none) :
    u.LongNumber msg := by
  rw [parseSipMetadata] at h
  split_ifs at h
  cases hfirst : u.readEnvelope msg with
  | none => exact longNumber_of_readEnvelope hfirst
  | some first =>
  cases hsecond : u.readStatusLine msg first with
  | none => exact longNumber_of_readStatusLine hsecond
  | some second =>
  cases hthird : u.readCseq msg { second with sipCallId := searchIn u.callIdRe msg } with
  | none => exact longNumber_of_readCseq hthird
  | some third =>
  apply longNumber_of_viaPorts
  rw [Option.eq_none_iff_forall_ne_some]
  simpa [hfirst, hsecond, hthird] using h

/-- An entry is read, or has more digits in a row than `int` takes. -/
theorem longNumber_or_parse (u : CharTables) (msg : Text) :
    u.LongNumber msg ∨ ∃ md, u.parseSipMetadata msg = some md := by
  cases h : u.parseSipMetadata msg with
  | none => exact .inl (longNumber_of_parseSipMetadata h)
  | some md => exact .inr ⟨md, rfl⟩

end CharTables

end PjsuaMcp.SipLog
