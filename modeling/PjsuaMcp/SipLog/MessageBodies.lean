import PjsuaMcp.SipLog.Conversions

/-!
# What a message body does to the metadata

The patterns are searched in the whole entry, so that the body of a message can
take part in its metadata. It takes no part where no pattern that is consulted
reports a match that reaches past the header section. The patterns have no
lookahead, so what they find in the header section then does not depend on what
follows it.
-/

namespace PjsuaMcp.SipLog

open Sdp (Text)
open Library Matcher

/-- The reported match does not reach past the head. -/
def EndsInHead {α : Type} (m : Option Char → Matcher Char α) (head body : Text) : Prop :=
  ∀ r, search m none (head ++ body) = some r → body.length ≤ r.2.length

/-- None of the matches reaches past the head. -/
def AllEndInHead {α : Type} (m : Option Char → Matcher Char α) (head body : Text) : Prop :=
  ∀ r ∈ findAll m none 0 (head ++ body), body.length ≤ r.2.length

instance {α : Type} (m : Option Char → Matcher Char α) (head body : Text) :
    Decidable (EndsInHead m head body) :=
  decidable_of_iff ((search m none (head ++ body)).all fun r => body.length ≤ r.2.length) (by
    rw [EndsInHead]
    cases search m none (head ++ body) <;> simp)

instance {α : Type} (m : Option Char → Matcher Char α) (head body : Text) :
    Decidable (AllEndInHead m head body) :=
  decidable_of_iff ((findAll m none 0 (head ++ body)).all fun r => body.length ≤ r.2.length)
    (by simp [AllEndInHead])

theorem searchIn_append {α : Type} {m : Option Char → Matcher Char α}
    (hm : ∀ prev, Local (m prev)) {head body : Text} (h : EndsInHead m head body) :
    CharTables.searchIn m (head ++ body) = CharTables.searchIn m head := by
  rw [CharTables.searchIn, search_append hm h, Option.map_map]
  rfl

theorem allIn_append {α : Type} {m : Option Char → Matcher Char α}
    (hm : ∀ prev, Local (m prev)) {head body : Text} (h : AllEndInHead m head body) :
    CharTables.allIn m (head ++ body) = CharTables.allIn m head := by
  rw [CharTables.allIn, findAll_append hm (Nat.zero_le _) h, List.map_map]
  rfl

/-- A pattern that the head does not match is matched nowhere, exactly when no match reaches past
the head. -/
theorem searchIn_eq_none_iff {α : Type} {m : Option Char → Matcher Char α}
    (hm : ∀ prev, Local (m prev)) {head body : Text} (hhead : CharTables.searchIn m head = none) :
    CharTables.searchIn m (head ++ body) = none ↔ EndsInHead m head body := by
  constructor
  · intro hnone r hr
    rw [CharTables.searchIn, hr] at hnone
    cases hnone
  · intro h
    rw [searchIn_append hm h, hhead]

/-- The head ends with a blank line. -/
def EndsWithBlankLine (head : Text) : Prop :=
  ['\n', '\n'] <:+ head ∨ ['\r', '\n', '\r', '\n'] <:+ head

instance (head : Text) : Decidable (EndsWithBlankLine head) :=
  inferInstanceAs (Decidable (_ ∨ _))

theorem EndsWithBlankLine.ne_nil {head : Text} (h : EndsWithBlankLine head) : head ≠ [] := by
  rintro rfl
  revert h
  decide

namespace CharTables

variable (u : CharTables)

/-- No pattern that the parser consults reports a match that reaches past the head: the request
envelope and the status line are consulted without a response envelope, the CSeq header without
any envelope, and the call dump without Call-ID, envelope and CSeq header. -/
structure HeadOnly (head body : Text) : Prop where
  response : EndsInHead u.txrxResponseRe head body
  request : searchIn u.txrxResponseRe head = none → EndsInHead u.txrxRequestRe head body
  statusLine : searchIn u.txrxResponseRe head = none → EndsInHead u.statusLineRe head body
  callId : EndsInHead u.callIdRe head body
  cseq : searchIn u.txrxResponseRe head = none → searchIn u.txrxRequestRe head = none →
    EndsInHead u.cseqHeaderRe head body
  fromLine : EndsInHead u.fromRe head body
  toLine : EndsInHead u.toRe head body
  via : AllEndInHead u.viaRe head body
  dump : searchIn u.callIdRe head = none → searchIn u.txrxResponseRe head = none →
    searchIn u.txrxRequestRe head = none → searchIn u.cseqHeaderRe head = none →
    EndsInHead u.dumpRe head body

variable {u}

theorem HeadOnly.readEnvelope {head body : Text} (h : u.HeadOnly head body) :
    u.readEnvelope (head ++ body) = u.readEnvelope head := by
  unfold CharTables.readEnvelope
  rw [searchIn_append (local_txrxResponseRe u) h.response]
  cases hresponse : searchIn u.txrxResponseRe head with
  | some groups => rfl
  | none => rw [searchIn_append (local_txrxRequestRe u) (h.request hresponse)]

/-- The status line is asked without a response envelope only. -/
theorem HeadOnly.readStatusLine {head body : Text} (h : u.HeadOnly head body) {md : SipMetadata}
    (hmd : u.readEnvelope head = some md) :
    u.readStatusLine (head ++ body) md = u.readStatusLine head md := by
  cases hcode : md.statusCode with
  | some code => simp [CharTables.readStatusLine, hcode]
  | none =>
      have hresponse : searchIn u.txrxResponseRe head = none := by
        rcases readEnvelope_spec hmd with ⟨-, -, -, hstatus⟩ | ⟨-, hresponse, -⟩
        · exact hstatus.mp hcode
        · exact hresponse
      unfold CharTables.readStatusLine
      rw [searchIn_append (local_statusLineRe u) (h.statusLine hresponse)]

/-- Method and CSeq number are missing together, when there is no envelope. -/
theorem HeadOnly.readCseq {head body : Text} (h : u.HeadOnly head body) {first md : SipMetadata}
    (hfirst : u.readEnvelope head = some first) (hmethod : md.method = first.method)
    (hcseq : md.cseq = first.cseq) :
    u.readCseq (head ++ body) md = u.readCseq head md := by
  rcases readEnvelope_spec hfirst with ⟨-, hmethod', hcseq', -⟩ | ⟨-, hresponse, hrequest⟩
  · have hasked : (md.method.isNone || md.cseq.isNone) = false := by
      rw [hmethod, hcseq, Option.isNone_eq_false_iff.mpr hmethod',
        Option.isNone_eq_false_iff.mpr hcseq']
      rfl
    rw [CharTables.readCseq, CharTables.readCseq, hasked]
    rfl
  · unfold CharTables.readCseq
    rw [searchIn_append (local_cseqHeaderRe u) (h.cseq hresponse hrequest)]

/-- Without Call-ID and method there is no envelope and no CSeq header. -/
theorem HeadOnly.readDump {head body : Text} (h : u.HeadOnly head body)
    {first second third : SipMetadata} (hfirst : u.readEnvelope head = some first)
    (hthird : u.readCseq head second = some third) (hmethod : second.method = first.method)
    {md : SipMetadata} (hcallId : md.sipCallId = searchIn u.callIdRe head)
    (hmethod' : md.method = third.method) :
    u.readDump (head ++ body) md = u.readDump head md := by
  unfold CharTables.readDump
  split_ifs with hasked
  · rw [Bool.and_eq_true, Option.isNone_iff_eq_none, Option.isNone_iff_eq_none] at hasked
    have hmissing := (readCseq_spec hthird).2.2 (hmethod'.symm.trans hasked.2)
    rcases readEnvelope_spec hfirst with ⟨-, hsome, -⟩ | ⟨-, hresponse, hrequest⟩
    · rw [← hmethod, hmissing.1] at hsome
      cases hsome
    · rw [searchIn_append (local_dumpRe u)
        (h.dump (hcallId.symm.trans hasked.1) hresponse hrequest hmissing.2)]
  · rfl

/-- The metadata of a message whose head alone is read. -/
theorem HeadOnly.parseSipMetadata {head body : Text} (hne : head ≠ [])
    (h : u.HeadOnly head body) :
    u.parseSipMetadata (head ++ body) = u.parseSipMetadata head := by
  have hne' : head ++ body ≠ [] := fun hnil => hne (List.append_eq_nil_iff.mp hnil).1
  rw [CharTables.parseSipMetadata, CharTables.parseSipMetadata,
    if_neg (by rwa [List.isEmpty_iff]), if_neg (by rwa [List.isEmpty_iff]), h.readEnvelope]
  refine Option.bind_congr fun first hfirst => ?_
  rw [h.readStatusLine hfirst]
  refine Option.bind_congr fun second hsecond => ?_
  have hsame : second.method = first.method ∧ second.cseq = first.cseq := by
    obtain ⟨⟨code, rfl⟩, -⟩ := readStatusLine_spec hsecond
    exact ⟨rfl, rfl⟩
  have hread : u.readCseq (head ++ body) { second with sipCallId := searchIn u.callIdRe head } =
      u.readCseq head { second with sipCallId := searchIn u.callIdRe head } :=
    h.readCseq hfirst hsame.1 hsame.2
  rw [searchIn_append (local_callIdRe u) h.callId, hread]
  refine Option.bind_congr fun third hthird => ?_
  have hcallId : third.sipCallId = searchIn u.callIdRe head := by
    obtain ⟨⟨method, cseq, rfl⟩, -⟩ := readCseq_spec hthird
    rfl
  rw [allIn_append (local_viaRe u) h.via, searchIn_append (local_fromRe u) h.fromLine,
    searchIn_append (local_toRe u) h.toLine]
  refine Option.bind_congr fun ports _ => ?_
  exact congrArg some (h.readDump hfirst hthird hsame.1 hcallId rfl)

variable (u)

/-- Two bodies that take no part in the metadata after a head give the same metadata. A request
has no status code, if and only if no response envelope and no status line is found that reaches
past its head. -/
theorem parseSipMetadata_head {head : Text} (hhead : EndsWithBlankLine head) :
    (∀ body₁ body₂, u.HeadOnly head body₁ → u.HeadOnly head body₂ →
        u.parseSipMetadata (head ++ body₁) = u.parseSipMetadata (head ++ body₂)) ∧
      (searchIn u.txrxRequestRe head ≠ none → searchIn u.txrxResponseRe head = none →
        searchIn u.statusLineRe head = none →
        ∀ body, u.LongNumber (head ++ body) ∨
          ∃ md, u.parseSipMetadata (head ++ body) = some md ∧
            (md.statusCode = none ↔
              EndsInHead u.txrxResponseRe head body ∧ EndsInHead u.statusLineRe head body)) := by
  constructor
  · intro body₁ body₂ h₁ h₂
    rw [h₁.parseSipMetadata hhead.ne_nil, h₂.parseSipMetadata hhead.ne_nil]
  · intro _ hresponse hstatus body
    have hne : head ++ body ≠ [] := fun hnil => hhead.ne_nil (List.append_eq_nil_iff.mp hnil).1
    refine (u.longNumber_or_parse (head ++ body)).imp_right ?_
    rintro ⟨md, hmd⟩
    refine ⟨md, hmd, ?_⟩
    rw [(parseSipMetadata_spec hne hmd).statusCode,
      searchIn_eq_none_iff (local_txrxResponseRe u) hresponse,
      searchIn_eq_none_iff (local_statusLineRe u) hstatus]

instance (head body : Text) : Decidable (u.HeadOnly head body) :=
  decidable_of_iff
    (EndsInHead u.txrxResponseRe head body ∧
      (searchIn u.txrxResponseRe head = none → EndsInHead u.txrxRequestRe head body) ∧
      (searchIn u.txrxResponseRe head = none → EndsInHead u.statusLineRe head body) ∧
      EndsInHead u.callIdRe head body ∧
      (searchIn u.txrxResponseRe head = none → searchIn u.txrxRequestRe head = none →
        EndsInHead u.cseqHeaderRe head body) ∧
      EndsInHead u.fromRe head body ∧ EndsInHead u.toRe head body ∧
      AllEndInHead u.viaRe head body ∧
      (searchIn u.callIdRe head = none → searchIn u.txrxResponseRe head = none →
        searchIn u.txrxRequestRe head = none → searchIn u.cseqHeaderRe head = none →
        EndsInHead u.dumpRe head body))
    ⟨fun ⟨h₁, h₂, h₃, h₄, h₅, h₆, h₇, h₈, h₉⟩ => ⟨h₁, h₂, h₃, h₄, h₅, h₆, h₇, h₈, h₉⟩,
      fun h => ⟨h.response, h.request, h.statusLine, h.callId, h.cseq, h.fromLine, h.toLine,
        h.via, h.dump⟩⟩

end CharTables

/-! ## A notification about a transfer -/

/-- The envelope line and the headers of a NOTIFY request. -/
def notifyHead : Text :=
  ("TX 99 bytes Request msg NOTIFY/cseq=2 to UDP h:5060:\nNOTIFY sip:b@h SIP/2.0\r\n" ++
    "Call-ID: k1\r\nCSeq: 2 NOTIFY\r\n\r\n").toList

/-- The body says how far the transfer has got. -/
def sipfrag : Text := "SIP/2.0 200 OK\r\n".toList

/-- The request gets the status code of its body. -/
theorem sipfrag_statusCode :
    EndsWithBlankLine notifyHead ∧
    CharTables.searchIn CharTables.ascii.txrxRequestRe notifyHead ≠ none ∧
    (CharTables.ascii.parseSipMetadata (notifyHead ++ [])).map (·.statusCode) = some none ∧
    (CharTables.ascii.parseSipMetadata (notifyHead ++ sipfrag)).map (·.statusCode) =
      some (some 200) := by
  decide +kernel

/-- A body of plain text changes nothing. -/
theorem parseSipMetadata_head_plain :
    CharTables.ascii.parseSipMetadata (notifyHead ++ "on hold".toList) =
      CharTables.ascii.parseSipMetadata (notifyHead ++ "hello".toList) ∧
    (CharTables.ascii.parseSipMetadata (notifyHead ++ "hello".toList)).map (·.statusCode) =
      some none := by
  have hall : EndsWithBlankLine notifyHead ∧
      CharTables.ascii.HeadOnly notifyHead "on hold".toList ∧
      CharTables.ascii.HeadOnly notifyHead "hello".toList ∧
      CharTables.searchIn CharTables.ascii.txrxRequestRe notifyHead ≠ none ∧
      CharTables.searchIn CharTables.ascii.txrxResponseRe notifyHead = none ∧
      CharTables.searchIn CharTables.ascii.statusLineRe notifyHead = none := by
    decide +kernel
  obtain ⟨hhead, hhold, hhello, hrequest, hresponse, hstatus⟩ := hall
  have h := CharTables.ascii.parseSipMetadata_head hhead
  refine ⟨h.1 _ _ hhold hhello, ?_⟩
  rcases h.2 hrequest hresponse hstatus "hello".toList with hlong | ⟨md, hmd, hcode⟩
  · exact (CharTables.not_longNumber (by decide +kernel) hlong).elim
  · rw [hmd, Option.map_some, hcode.mpr ⟨hhello.response, hhello.statusLine hresponse⟩]

end PjsuaMcp.SipLog
