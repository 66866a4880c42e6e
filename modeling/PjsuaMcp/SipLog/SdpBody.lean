import PjsuaMcp.SipLog.Lines
import PjsuaMcp.Sdp.Sections

/-!
# SDP bodies of logged messages

`parse_sdp_body` walks over the lines of a body with one open media block, which
an `m=` line closes and opens and which the attribute lines change.

## Implementation notes

A codec without the key `fmtp` has `none` there, as a block has for a missing
RTCP port.
-/

namespace PjsuaMcp.SipLog

open Sdp (Text lf isMediaLine)
open Library

structure Codec where
  pt : Int
  name : Text
  clockRate : Int
  fmtp : Option Text := none
  deriving DecidableEq, Repr

structure MediaBlock where
  type : Text
  port : Int
  protocol : Text
  payloadTypes : List Int
  codecs : List Codec
  direction : Text := "sendrecv".toList
  rtcpPort : Option Int := none
  deriving DecidableEq, Repr

structure Origin where
  username : Text
  ip : Text
  deriving DecidableEq, Repr

/-- The dict that `parse_sdp_body` returns. -/
structure SdpBody where
  version : Int
  origin : Option Origin
  media : List MediaBlock
  deriving DecidableEq, Repr

/-- The variables of the loop over the lines; `current` is the open block. -/
structure SdpScan where
  version : Option Int := none
  origin : Option Origin := none
  media : List MediaBlock := []
  current : Option MediaBlock := none
  deriving DecidableEq, Repr

/-- `_STATIC_PT_NAMES`. -/
def staticPtNames : List (Int × Text × Int) :=
  [(0, "PCMU".toList, 8000), (3, "GSM".toList, 8000), (4, "G723".toList, 8000),
   (5, "DVI4".toList, 8000), (6, "DVI4".toList, 16000), (7, "LPC".toList, 8000),
   (8, "PCMA".toList, 8000), (9, "G722".toList, 8000), (10, "L16".toList, 44100),
   (11, "L16".toList, 44100), (12, "QCELP".toList, 8000), (13, "CN".toList, 8000),
   (14, "MPA".toList, 90000), (15, "G728".toList, 8000), (16, "DVI4".toList, 11025),
   (17, "DVI4".toList, 22050), (18, "G729".toList, 8000)]

/-- The entry of a listed payload type; a dynamic one is filled in by its `a=rtpmap`. -/
def newCodec (pt : Int) : Codec :=
  match staticPtNames.lookup pt with
  | some (name, clockRate) => { pt, name, clockRate }
  | none => { pt, name := [], clockRate := 0 }

/-- The loop over the codecs of a block, which changes the first one of the payload type. -/
def updateCodec (pt : Int) (f : Codec → Codec) : List Codec → List Codec
  | [] => []
  | codec :: rest => if codec.pt = pt then f codec :: rest else codec :: updateCodec pt f rest

/-- What is returned after the loop. -/
def SdpScan.finish (scan : SdpScan) : Option SdpBody :=
  let media := scan.media ++ scan.current.toList
  if scan.version.isNone && media.isEmpty then none
  else some { version := scan.version.getD 0, origin := scan.origin, media }

/-- The blocks that were returned, if any. -/
def mediaOf (body : Option SdpBody) : List MediaBlock := body.elim [] SdpBody.media

namespace CharTables

variable (u : CharTables)

/-! ## The loop -/

/-- `_new_media`. -/
def newMedia (value : Text) : Option MediaBlock :=
  match words u.isSpace value with
  | type :: port :: protocol :: pt :: pts =>
      match u.intOf port, (pt :: pts).mapM u.intOf with
      | some port, some payloadTypes =>
          some { type, port, protocol, payloadTypes, codecs := payloadTypes.map newCodec }
      | _, _ => none
  | _ => none

/-- `_apply_rtpmap`. -/
def applyRtpmap (blk : MediaBlock) (value : Text) : MediaBlock :=
  if ' ' ∈ value then
    let (ptStr, rest) := partition ' ' value
    match u.intOf ptStr with
    | some pt =>
        let nameRate := split ['/'] rest
        let name := u.strip (nameRate.headD [])
        let clockRate := (nameRate[1]?.bind u.intOf).getD 0
        { blk with codecs := updateCodec pt (fun codec => { codec with name, clockRate }) blk.codecs }
    | none => blk
  else blk

/-- `_apply_fmtp`. -/
def applyFmtp (blk : MediaBlock) (value : Text) : MediaBlock :=
  if ' ' ∈ value then
    let (ptStr, params) := partition ' ' value
    match u.intOf ptStr with
    | some pt =>
        let fmtp := some (u.strip params)
        { blk with codecs := updateCodec pt (fun codec => { codec with fmtp }) blk.codecs }
    | none => blk
  else blk

/-- An `a=` line inside a block. -/
def applyAttribute (blk : MediaBlock) (value : Text) : MediaBlock :=
  let (attrName, attrVal) := partition ':' value
  let attrName := u.lower attrName
  if attrName = "rtpmap".toList then u.applyRtpmap blk attrVal
  else if attrName = "fmtp".toList then u.applyFmtp blk attrVal
  else if attrName = "rtcp".toList then
    match (words u.isSpace attrVal).head?.bind u.intOf with
    | some port => { blk with rtcpPort := some port }
    | none => blk
  else if attrName ∈ ["sendrecv".toList, "sendonly".toList, "recvonly".toList, "inactive".toList]
  then { blk with direction := attrName }
  else blk

/-- An `o=` line. -/
def originOf (value : Text) : Option Origin :=
  match words u.isSpace value with
  | username :: _ :: _ :: _ :: _ :: ip :: _ => some { username, ip }
  | _ => none

/-- The body of the loop, for a line stripped at its end. -/
def readLine (scan : SdpScan) (line : Text) : SdpScan :=
  if line.isEmpty || '=' ∉ line then scan
  else
    let (kind, value) := partition '=' line
    if kind = ['v'] then { scan with version := (u.intOf value).or scan.version }
    else if kind = ['o'] then { scan with origin := (u.originOf value).or scan.origin }
    else if kind = ['m'] then
      { scan with media := scan.media ++ scan.current.toList, current := u.newMedia value }
    else if kind = ['a'] then
      { scan with current := scan.current.map fun blk => u.applyAttribute blk value }
    else scan

def readLines (scan : SdpScan) (lines : List Text) : SdpScan :=
  lines.foldl (fun scan line => u.readLine scan (u.rstrip line)) scan

/-- `parse_sdp_body`. -/
def parseSdpBody (text : Text) : Option SdpBody :=
  if text.isEmpty || !decide ("v=".toList <:+: text) then none
  else
    let lines := split lf (normalizeNewlines text)
    if lines.any fun line => "v=".toList.isPrefixOf line then
      SdpScan.finish (u.readLines {} lines)
    else none

/-! ## Single lines -/

variable {u}

/-- A line is read by its kind. -/
theorem readLine_of_kind {kind value : Text} (hkind : '=' ∉ kind) (scan : SdpScan) :
    u.readLine scan (kind ++ '=' :: value) =
      if kind = ['v'] then { scan with version := (u.intOf value).or scan.version }
      else if kind = ['o'] then { scan with origin := (u.originOf value).or scan.origin }
      else if kind = ['m'] then
        { scan with media := scan.media ++ scan.current.toList, current := u.newMedia value }
      else if kind = ['a'] then
        { scan with current := scan.current.map fun blk => u.applyAttribute blk value }
      else scan := by
  have hguard : ¬ ((kind ++ '=' :: value).isEmpty || decide ('=' ∉ kind ++ '=' :: value)) = true := by
    simp
  rw [readLine, if_neg hguard, partition_append hkind]

theorem readLine_of_notMem {line : Text} (h : '=' ∉ line) (scan : SdpScan) :
    u.readLine scan line = scan :=
  if_pos (by simp [h])

/-- A media line closes the block before it. -/
theorem readLine_media (value : Text) (scan : SdpScan) :
    u.readLine scan ("m=".toList ++ value) =
      { scan with media := scan.media ++ scan.current.toList, current := u.newMedia value } := by
  have hkind : '=' ∉ ['m'] := by decide
  exact readLine_of_kind hkind scan

variable (u)

/-- What a line that is no media line does to an open block. -/
def change (blk : MediaBlock) (line : Text) : MediaBlock :=
  if "a=".toList <+: line then u.applyAttribute blk (line.drop 2) else blk

variable {u}

theorem prefix_of_kind_iff {c : Char} (hc : c ≠ '=') {kind : Text} (hkind : '=' ∉ kind)
    (value : Text) : [c, '='] <+: kind ++ '=' :: value ↔ kind = [c] := by
  cases kind with
  | nil => simp [List.cons_prefix_cons, hc]
  | cons d kind =>
      cases kind with
      | nil => simp [List.cons_prefix_cons, eq_comm]
      | cons e kind =>
          simp only [List.mem_cons, not_or] at hkind
          simp [List.cons_prefix_cons, hkind.2.1]

/-- A line that is no media line leaves the closed blocks alone, and an open one open. -/
theorem readLine_plain {line : Text} (h : ¬ "m=".toList <+: line) (scan : SdpScan) :
    (u.readLine scan line).media = scan.media ∧
      (u.readLine scan line).current = scan.current.map fun blk => u.change blk line := by
  by_cases hmem : '=' ∈ line
  · obtain ⟨kind, value, rfl, hkind⟩ := List.eq_append_cons_of_mem hmem
    have hm : kind ≠ ['m'] := fun hm => h ((prefix_of_kind_iff (by decide) hkind value).mpr hm)
    rw [readLine_of_kind hkind, if_neg hm]
    by_cases ha : kind = ['a']
    · subst ha
      refine ⟨rfl, ?_⟩
      simp [change]
    · have hchange : (fun blk => u.change blk (kind ++ '=' :: value)) = id := by
        funext blk
        exact if_neg fun hbegins => ha ((prefix_of_kind_iff (by decide) hkind value).mp hbegins)
      rw [hchange, Option.map_id_fun, id, if_neg ha]
      split_ifs <;> exact ⟨rfl, rfl⟩
  · have hchange : (fun blk => u.change blk line) = id := by
      funext blk
      exact if_neg fun hbegins => hmem (hbegins.subset (by decide))
    rw [readLine_of_notMem hmem, hchange, Option.map_id_fun, id]
    exact ⟨rfl, rfl⟩

/-- A version that was read is never lost. -/
theorem version_readLine {scan : SdpScan} (h : scan.version.isSome) (line : Text) :
    (u.readLine scan line).version.isSome := by
  by_cases hmem : '=' ∈ line
  · obtain ⟨kind, value, rfl, hkind⟩ := List.eq_append_cons_of_mem hmem
    rw [readLine_of_kind hkind]
    split_ifs <;> simp [h]
  · rwa [readLine_of_notMem hmem]

end CharTables

end PjsuaMcp.SipLog
