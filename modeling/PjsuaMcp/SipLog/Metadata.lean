import PjsuaMcp.Library.Searching
import PjsuaMcp.Sdp.Syntax
import Mathlib.Data.List.DropRight

/-!
# Metadata of a log entry

`parse_sip_metadata` reads a log entry of the library with a handful of regular
expressions. Each of them is searched in the whole entry: the envelope line of
the library, the headers, and the body of the message.

## Implementation notes

The tables of the interpreter are those of the SDP patterns, with the upper
case of a text, the value of a decimal digit, and the letters that
`re.IGNORECASE` identifies. A pattern is given the character in front of it for
`^` and `\b`; in front of `TX` and `RX`, `\b` holds where no word character
stands before. The fields of the metadata that the patterns leave out are
`none`. `int` raises on more than 4300 digits; the parser is `none` where it
does.
-/

namespace PjsuaMcp.SipLog

open Sdp (Text)
open Library

structure CharTables extends Sdp.CharTables where
  upper : Text → Text
  digitValue : Char → Nat
  /-- The second character is matched by the first under `re.IGNORECASE`. -/
  ignoreCase : Char → Char → Bool

/-- The tables on ASCII texts. -/
def CharTables.ascii : CharTables where
  toCharTables := Sdp.CharTables.ascii
  upper text := text.map Char.toUpper
  digitValue c := c.toNat - 48
  ignoreCase c d := c.toLower = d.toLower

/-- `SipMetadata`. -/
structure SipMetadata where
  direction : Option Text := none
  method : Option Text := none
  cseq : Option Nat := none
  statusCode : Option Nat := none
  sipCallId : Option Text := none
  fromUri : Option Text := none
  toUri : Option Text := none
  viaPorts : List Nat := []
  dumpRemoteUri : Option Text := none
  deriving DecidableEq, Repr

namespace CharTables

variable (u : CharTables)

/-! ## The patterns -/

/-- `^` with `re.MULTILINE`. -/
def lineStart (prev : Option Char) : Matcher Char Unit := .require (prev.all (· = '\n'))

/-- `\b` in front of a word character. -/
def wordStart (prev : Option Char) : Matcher Char Unit := .require (!prev.any u.isWord)

/-- `^<name>\s*` under `re.IGNORECASE`. -/
def header (name : Text) (prev : Option Char) : Matcher Char Unit := do
  lineStart prev
  .word u.ignoreCase name
  let _ ← .many u.isSpace
  return ()

/-- `\d{3}`. -/
def threeDigits : Matcher Char Text := do
  let a ← .one u.isDigit
  let b ← .one u.isDigit
  let c ← .one u.isDigit
  return [a, b, c]

/-- The common beginning of the envelope lines, `\b(TX|RX)\s+\d+\s+bytes\s+<kind>\s+msg\s+`. -/
def envelope (kind : Text) (prev : Option Char) : Matcher Char Text := do
  u.wordStart prev
  let d ← .one fun c => c = 'T' || c = 'R'
  .lit ['X']
  let _ ← .many1 u.isSpace
  let _ ← .many1 u.isDigit
  let _ ← .many1 u.isSpace
  .lit "bytes".toList
  let _ ← .many1 u.isSpace
  .lit kind
  let _ ← .many1 u.isSpace
  .lit "msg".toList
  let _ ← .many1 u.isSpace
  return [d, 'X']

/-- `_RE_TXRX_REQUEST`: direction, method and CSeq number. -/
def txrxRequestRe (prev : Option Char) : Matcher Char (Text × Text × Text) := do
  let direction ← u.envelope "Request".toList prev
  let method ← .many1 u.isWord
  .lit "/cseq=".toList
  let cseq ← .many1 u.isDigit
  return (direction, method, cseq)

/-- `_RE_TXRX_RESPONSE`: direction, status code, method and CSeq number. -/
def txrxResponseRe (prev : Option Char) : Matcher Char (Text × Text × Text × Text) := do
  let direction ← u.envelope "Response".toList prev
  let status ← u.threeDigits
  .lit ['/']
  let method ← .many1 u.isWord
  .lit "/cseq=".toList
  let cseq ← .many1 u.isDigit
  return (direction, status, method, cseq)

/-- `_RE_STATUS_LINE`. -/
def statusLineRe (prev : Option Char) : Matcher Char Text := do
  lineStart prev
  .lit "SIP/2.0".toList
  let _ ← .many1 u.isSpace
  let status ← u.threeDigits
  let _ ← .one u.isSpace
  return status

/-- `_RE_CALL_ID`. -/
def callIdRe (prev : Option Char) : Matcher Char Text := do
  u.header "Call-ID:".toList prev
  .many1 fun c => !u.isSpace c

/-- `_RE_CSEQ_HEADER`: number and method. -/
def cseqHeaderRe (prev : Option Char) : Matcher Char (Text × Text) := do
  u.header "CSeq:".toList prev
  let cseq ← .many1 u.isDigit
  let _ ← .many1 u.isSpace
  let method ← .many1 u.isWord
  return (cseq, method)

/-- `_RE_FROM` and `_RE_TO`: the rest of the line. -/
def headerLineRe (name : Text) (prev : Option Char) : Matcher Char Text := do
  u.header name prev
  .many1 fun c => c ≠ '\r' && c ≠ '\n'

def fromRe : Option Char → Matcher Char Text := u.headerLineRe "From:".toList

def toRe : Option Char → Matcher Char Text := u.headerLineRe "To:".toList

/-- `_RE_VIA`: the port. -/
def viaRe (prev : Option Char) : Matcher Char Text := do
  u.header "Via:".toList prev
  let _ ← .manyLazy fun c => c ≠ '\n'
  let _ ← .many1 u.isSpace
  let _ ← .many1 fun c => !u.isSpace c
  .lit [':']
  .many1 u.isDigit

/-- `<([^>]+)>`. -/
def angled : Matcher Char Text := do
  .lit ['<']
  let uri ← .many1 fun c => c ≠ '>'
  .lit ['>']
  return uri

/-- `_RE_ANGLE_URI`. -/
def angleUriRe (_ : Option Char) : Matcher Char Text := angled

/-- `_RE_DUMP`. -/
def dumpRe (_ : Option Char) : Matcher Char Text := do
  .lit ['[']
  let _ ← .many1 fun c => ('A' ≤ c && c ≤ 'Z') || c = '_'
  .lit [']']
  let _ ← .many1 u.isSpace
  .lit "To:".toList
  let _ ← .many u.isSpace
  angled

/-- `pattern.search(text)`: the groups of the match. -/
def searchIn {α : Type} (m : Option Char → Matcher Char α) (text : Text) : Option α :=
  (Matcher.search m none text).map Prod.fst

/-- `pattern.finditer(text)`: the groups of the matches. -/
def allIn {α : Type} (m : Option Char → Matcher Char α) (text : Text) : List α :=
  (Matcher.findAll m none 0 text).map Prod.fst

/-! ## The parser -/

/-- The value of a text of digits. -/
def number (digits : Text) : Nat := digits.foldl (fun n c => 10 * n + u.digitValue c) 0

/-- `int(digits)`; more than 4300 digits raise. -/
def int (digits : Text) : Option Nat :=
  if digits.length ≤ 4300 then some (u.number digits) else none

/-- `text.strip()`. -/
def strip (text : Text) : Text := (text.dropWhile u.isSpace).rdropWhile u.isSpace

/-- `normalize_sip_uri`. -/
def normalizeSipUri (raw : Text) : Text :=
  if raw.isEmpty then []
  else
    let bare := (searchIn angleUriRe raw).getD raw
    u.strip (bare.takeWhile fun c => c ≠ ';')

/-- `normalize_sip_uri(value) or None`. -/
def uriOf (value : Text) : Option Text :=
  let uri := u.normalizeSipUri value
  if uri.isEmpty then none else some uri

/-- What the envelope line of the library says. -/
def readEnvelope (msg : Text) : Option SipMetadata :=
  match searchIn u.txrxResponseRe msg with
  | some (direction, status, method, cseq) => do
      let statusCode ← u.int status
      let cseq ← u.int cseq
      return { direction := some direction, statusCode := some statusCode,
               method := some (u.upper method), cseq := some cseq }
  | none =>
      match searchIn u.txrxRequestRe msg with
      | some (direction, method, cseq) => do
          let cseq ← u.int cseq
          return { direction := some direction, method := some (u.upper method),
                   cseq := some cseq }
      | none => some {}

/-- The status line is asked when the envelope gave no status code. -/
def readStatusLine (msg : Text) (md : SipMetadata) : Option SipMetadata :=
  if md.statusCode.isNone then
    match searchIn u.statusLineRe msg with
    | some status => do
        let statusCode ← u.int status
        return { md with statusCode := some statusCode }
    | none => some md
  else some md

/-- The CSeq header is asked for what the envelope did not give. -/
def readCseq (msg : Text) (md : SipMetadata) : Option SipMetadata :=
  if md.method.isNone || md.cseq.isNone then
    match searchIn u.cseqHeaderRe msg with
    | some (cseq, method) => do
        let cseq ← md.cseq.or (u.int cseq)
        return { md with
          cseq := some cseq
          method := md.method.or (some (u.upper method)) }
    | none => some md
  else some md

/-- The call dump of pjsua is asked in entries without Call-ID and method. -/
def readDump (msg : Text) (md : SipMetadata) : SipMetadata :=
  if md.sipCallId.isNone && md.method.isNone then
    { md with dumpRemoteUri := searchIn u.dumpRe msg }
  else md

/-- `parse_sip_metadata`, `none` where `int` raises. -/
def parseSipMetadata (msg : Text) : Option SipMetadata :=
  if msg.isEmpty then some {}
  else do
    let md ← u.readEnvelope msg
    let md ← u.readStatusLine msg md
    let md ← u.readCseq msg { md with sipCallId := searchIn u.callIdRe msg }
    let viaPorts ← (allIn u.viaRe msg).mapM u.int
    return u.readDump msg
      { md with
        fromUri := (searchIn u.fromRe msg).bind u.uriOf
        toUri := (searchIn u.toRe msg).bind u.uriOf
        viaPorts }

/-! ## Single fields -/

variable {u} {msg : Text} {md md' : SipMetadata}

/-- The envelope gives all of its fields, or none. -/
theorem readEnvelope_spec (h : u.readEnvelope msg = some md) :
    (md.direction.isSome ∧ md.method.isSome ∧ md.cseq.isSome ∧
        (md.statusCode = none ↔ searchIn u.txrxResponseRe msg = none)) ∨
      (md = {} ∧ searchIn u.txrxResponseRe msg = none ∧ searchIn u.txrxRequestRe msg = none) := by
  unfold readEnvelope at h
  cases hresponse : searchIn u.txrxResponseRe msg with
  | some groups =>
      rw [hresponse] at h
      obtain ⟨statusCode, -, h⟩ := Option.bind_eq_some_iff.mp h
      obtain ⟨cseq, -, h⟩ := Option.bind_eq_some_iff.mp h
      cases h
      exact .inl ⟨rfl, rfl, rfl, by simp⟩
  | none =>
      rw [hresponse] at h
      cases hrequest : searchIn u.txrxRequestRe msg with
      | some groups =>
          rw [hrequest] at h
          obtain ⟨cseq, -, h⟩ := Option.bind_eq_some_iff.mp h
          cases h
          exact .inl ⟨rfl, rfl, rfl, by simp⟩
      | none =>
          rw [hrequest] at h
          cases h
          exact .inr ⟨rfl, rfl, rfl⟩

/-- Only the status code is set, where there was none. -/
theorem readStatusLine_spec (h : u.readStatusLine msg md = some md') :
    (∃ code, md' = { md with statusCode := code }) ∧
      (md'.statusCode = none ↔ md.statusCode = none ∧ searchIn u.statusLineRe msg = none) := by
  unfold readStatusLine at h
  split_ifs at h with hasked
  · rw [Option.isNone_iff_eq_none] at hasked
    cases hstatus : searchIn u.statusLineRe msg with
    | some status =>
        rw [hstatus] at h
        obtain ⟨code, -, h⟩ := Option.bind_eq_some_iff.mp h
        cases h
        exact ⟨⟨some code, rfl⟩, by simp⟩
    | none =>
        rw [hstatus] at h
        cases h
        exact ⟨⟨md.statusCode, rfl⟩, by simp⟩
  · cases h
    refine ⟨⟨md.statusCode, rfl⟩, ?_⟩
    exact iff_of_false (fun hnone => hasked (by rw [hnone]; rfl)) fun hnone =>
      hasked (by rw [hnone.1]; rfl)

/-- Method and CSeq number are set, where they were missing. -/
theorem readCseq_spec (h : u.readCseq msg md = some md') :
    (∃ method cseq, md' = { md with method := method, cseq := cseq }) ∧
      (md.method.isSome → md'.method = md.method) ∧
      (md'.method = none → md.method = none ∧ searchIn u.cseqHeaderRe msg = none) := by
  unfold readCseq at h
  split_ifs at h with hasked
  · cases hheader : searchIn u.cseqHeaderRe msg with
    | some groups =>
        rw [hheader] at h
        obtain ⟨cseq, -, h⟩ := Option.bind_eq_some_iff.mp h
        cases h
        refine ⟨⟨_, _, rfl⟩, fun hsome => ?_, fun hnone => ?_⟩
        · obtain ⟨method, hmethod⟩ := Option.isSome_iff_exists.mp hsome
          dsimp only
          rw [hmethod, Option.some_or]
        · rw [Option.or_eq_none_iff] at hnone
          cases hnone.2
    | none =>
        rw [hheader] at h
        cases h
        exact ⟨⟨_, _, rfl⟩, fun _ => rfl, fun hnone => ⟨hnone, rfl⟩⟩
  · cases h
    refine ⟨⟨_, _, rfl⟩, fun _ => rfl, fun hnone => ?_⟩
    rw [hnone] at hasked
    exact (hasked rfl).elim

theorem readDump_eq (msg : Text) (md : SipMetadata) :
    ∃ uri, u.readDump msg md = { md with dumpRemoteUri := uri } := by
  unfold readDump
  split_ifs
  · exact ⟨_, rfl⟩
  · exact ⟨md.dumpRemoteUri, rfl⟩

/-- What is known of the metadata of an entry. -/
structure Reads (u : CharTables) (msg : Text) (md : SipMetadata) : Prop where
  sipCallId : md.sipCallId = searchIn u.callIdRe msg
  fromUri : md.fromUri = (searchIn u.fromRe msg).bind u.uriOf
  toUri : md.toUri = (searchIn u.toRe msg).bind u.uriOf
  statusCode : md.statusCode = none ↔
    searchIn u.txrxResponseRe msg = none ∧ searchIn u.statusLineRe msg = none
  enveloped : (searchIn u.txrxResponseRe msg).isSome ∨ (searchIn u.txrxRequestRe msg).isSome →
    md.direction.isSome ∧ md.method.isSome

theorem parseSipMetadata_spec (hne : msg ≠ []) (h : u.parseSipMetadata msg = some md) :
    u.Reads msg md := by
  rw [parseSipMetadata, if_neg (by rwa [List.isEmpty_iff])] at h
  obtain ⟨first, hfirst, h⟩ := Option.bind_eq_some_iff.mp h
  obtain ⟨second, hsecond, h⟩ := Option.bind_eq_some_iff.mp h
  obtain ⟨third, hthird, h⟩ := Option.bind_eq_some_iff.mp h
  obtain ⟨ports, -, h⟩ := Option.bind_eq_some_iff.mp h
  obtain ⟨⟨code, rfl⟩, hcode⟩ := readStatusLine_spec hsecond
  obtain ⟨⟨method, cseq, rfl⟩, hmethod, -⟩ := readCseq_spec hthird
  obtain ⟨uri, hdump⟩ := @readDump_eq u msg
    { first with
      statusCode := code
      sipCallId := searchIn u.callIdRe msg
      method := method
      cseq := cseq
      fromUri := (searchIn u.fromRe msg).bind u.uriOf
      toUri := (searchIn u.toRe msg).bind u.uriOf
      viaPorts := ports }
  obtain rfl := hdump.symm.trans (Option.some.inj h)
  refine ⟨rfl, rfl, rfl, ?_, fun henveloped => ?_⟩
  · refine hcode.trans (and_congr_left fun _ => ?_)
    rcases readEnvelope_spec hfirst with ⟨-, -, -, hstatus⟩ | ⟨rfl, hresponse, -⟩
    · exact hstatus
    · exact iff_of_true rfl hresponse
  · rcases readEnvelope_spec hfirst with ⟨hdirection, hsome, -⟩ | ⟨-, hresponse, hrequest⟩
    · exact ⟨hdirection, by rw [hmethod hsome]; exact hsome⟩
    · rw [hresponse, hrequest] at henveloped
      rcases henveloped with h | h <;> cases h

end CharTables

end PjsuaMcp.SipLog
