import PjsuaMcp.Library.OrderedDict
import PjsuaMcp.SipLog.SdpBody

/-!
# Structured messages

`structurize_message` turns a logged message into a dict: it strips the envelope
line and the trailer of the library, parses the headers up to the first blank
line, and the body where the content type says that it is SDP.

## Implementation notes

Besides the tables of the metadata parser, the names of headers need
`str.capitalize`. The fields that are propositions say what the tables hold for
ASCII characters.
-/

namespace PjsuaMcp.SipLog

open Sdp (Text lf)
open Library

def IsAscii (text : Text) : Prop := ∀ c ∈ text, c.toNat < 128

structure HeaderTables extends tables : CharTables where
  capitalize : Text → Text
  isSpace_ascii : ∀ c : Char, c.toNat < 128 → isSpace c = decide (c ∈ Sdp.asciiSpaces)
  lower_ascii : ∀ text, IsAscii text → lower text = text.map Char.toLower
  capitalize_ascii : ∀ text, IsAscii text →
    capitalize text = (text.take 1).map Char.toUpper ++ (text.drop 1).map Char.toLower

/-- The tables on ASCII texts. -/
def HeaderTables.ascii : HeaderTables where
  tables := CharTables.ascii
  capitalize text := (text.take 1).map Char.toUpper ++ (text.drop 1).map Char.toLower
  isSpace_ascii _ _ := rfl
  lower_ascii _ _ := rfl
  capitalize_ascii _ _ := rfl

/-- `str | list[str]`. -/
inductive HeaderValue
  | one (value : Text)
  | many (values : List Text)
  deriving DecidableEq, Repr

abbrev Headers := OrderedDict Text HeaderValue

/-- The dict that `structurize_message` returns. -/
structure StructuredMessage where
  ts : Option Text
  direction : Option Text
  method : Option Text
  cseq : Option Nat
  callId : Option Text
  fromUri : Option Text
  toUri : Option Text
  headers : Headers
  sdp : Option SdpBody
  statusCode : Option Nat

/-- `_HEADER_CANONICAL_CASE`. -/
def headerCanonicalCase : List (Text × Text) :=
  [("call-id".toList, "Call-ID".toList), ("cseq".toList, "CSeq".toList),
   ("www-authenticate".toList, "WWW-Authenticate".toList),
   ("mime-version".toList, "MIME-Version".toList),
   ("p-asserted-identity".toList, "P-Asserted-Identity".toList),
   ("p-preferred-identity".toList, "P-Preferred-Identity".toList)]

/-- The line that pjlib puts behind a message, with the newline in front of it. -/
def trailer : Text := "\n--end msg--".toList

def contentType : Text := "Content-Type".toList

/-- The start line of a request or of a response. -/
def isStartLine (line : Text) : Bool :=
  "SIP/".toList.isPrefixOf line || "SIP/2.0".toList.isSuffixOf line

namespace HeaderTables

variable (u : HeaderTables)

/-- `_canonical_header_name`. -/
def canonicalHeaderName (name : Text) : Text :=
  let low := u.lower (u.strip name)
  match headerCanonicalCase.lookup low with
  | some canonical => canonical
  | none => ['-'].intercalate ((split ['-'] low).map u.capitalize)

/-- A value of a header that may be there already. -/
def addValue (headers : Headers) (canon v : Text) : Headers :=
  match headers.get? canon with
  | some (.many existing) => headers.set canon (.many (existing ++ [v]))
  | some (.one existing) => headers.set canon (.many [existing, v])
  | none => headers.set canon (.one v)

/-- The body of the loop of `parse_sip_headers`. -/
def addHeader (headers : Headers) (rawLine : Text) : Headers :=
  let line := u.rstrip rawLine
  if line.isEmpty || ':' ∉ line then headers
  else
    let (name, value) := partition ':' line
    addValue headers (u.canonicalHeaderName name) (u.strip value)

/-- The start line is skipped. -/
def skipStartLine : List Text → List Text
  | [] => []
  | first :: rest => if isStartLine (u.strip first) then rest else first :: rest

/-- `parse_sip_headers`. -/
def parseSipHeaders (text : Text) : Headers :=
  if text.isEmpty then .empty
  else
    let lines := split lf (normalizeNewlines text)
    let headerLines := lines.takeWhile fun line => !line.isEmpty
    (u.skipStartLine headerLines).foldl u.addHeader .empty

/-- `_RE_TIMESTAMP`; its `^` holds in front of the text only. -/
def timestampRe (prev : Option Char) : Matcher Char Text := do
  .require prev.isNone
  let h₁ ← .one u.isDigit
  let h₂ ← .one u.isDigit
  .lit [':']
  let m₁ ← .one u.isDigit
  let m₂ ← .one u.isDigit
  .lit [':']
  let s₁ ← .one u.isDigit
  let s₂ ← .one u.isDigit
  .lit ['.']
  let ms ← u.threeDigits
  return [h₁, h₂, ':', m₁, m₂, ':', s₁, s₂, '.'] ++ ms

/-- The body is parsed when its type is given once and is SDP. -/
def sdpOf (headers : Headers) (bodyPart : Text) : Option SdpBody :=
  match headers.get? contentType with
  | some (.one ct) =>
      if "application/sdp".toList <:+: u.lower ct then u.parseSdpBody bodyPart else none
  | _ => none

/-- `structurize_message` on the text of an entry, empty where there is none: `none` where its
metadata cannot be read, `some none` for what is no message. -/
def structurizeMessage (msg : Text) : Option (Option StructuredMessage) :=
  if msg.isEmpty then some none
  else do
    let md ← u.parseSipMetadata msg
    if md.direction.isNone || (md.method.isNone && md.statusCode.isNone) then return none
    else
      let sipText := (partition '\n' msg).2
      let sipText := (beforeLast trailer sipText).getD sipText
      let sipTextNorm := normalizeNewlines sipText
      let (headersPart, bodyPart) := (cutFirst ['\n', '\n'] sipTextNorm).getD (sipTextNorm, [])
      let headers := u.parseSipHeaders headersPart
      return some
        { ts := CharTables.searchIn u.timestampRe msg
          direction := md.direction
          method := md.method
          cseq := md.cseq
          callId := md.sipCallId
          fromUri := md.fromUri
          toUri := md.toUri
          headers
          sdp := u.sdpOf headers bodyPart
          statusCode := md.statusCode }

end HeaderTables

end PjsuaMcp.SipLog
