import PjsuaMcp.Sdp.Syntax
import PjsuaMcp.Calls.SipCall

/-!
# The SDP filter

`filter_audio_codecs` and its two passes, and `onCallSdpCreated`, which applies
it to every SDP that goes out. The first pass records for every `m=audio` block
where it starts and stops, which payload types it lists and which of them are
kept; the second walks the lines again with the recorded blocks in hand.

## Implementation notes

Python sets are lists here, read through membership only. The names in an
allow-list that is not a list of strings, such as `None`, count as empty names.
-/

namespace PjsuaMcp.Sdp

open Library

def crlf : Text := ['\r', '\n']

def lf : Text := ['\n']

def telephoneEvent : Text := "telephone-event".toList

/-- `_STATIC_PT`. -/
def staticPt : List (Text × Text) :=
  [("0".toList, "pcmu".toList), ("3".toList, "gsm".toList), ("8".toList, "pcma".toList),
   ("9".toList, "g722".toList), ("15".toList, "g728".toList), ("18".toList, "g729".toList)]

/-- `_STATIC_PT.get(pt)` gives a name that is in the set. -/
def staticAllowed (allowedSet : List Text) (pt : Text) : Bool :=
  (staticPt.lookup pt).any fun name => name ∈ allowedSet

/-- What the first pass records about an `m=audio` block. -/
structure AudioBlock where
  start : Nat
  stop : Nat
  fmts : List Text
  keep : List Text
  deriving DecidableEq, Repr

namespace AudioBlock

/-- A payload type listed without having been kept by name is kept by its static name. -/
def addStatic (allowedSet : List Text) (blk : AudioBlock) : AudioBlock :=
  blk.fmts.foldl
    (fun blk pt =>
      if pt ∈ blk.keep then blk
      else if staticAllowed allowedSet pt then { blk with keep := blk.keep ++ [pt] } else blk)
    blk

end AudioBlock

/-- `_order_fmts`. -/
def orderFmts (fmts keep : List Text) : List Text := fmts.filter fun f => f ∈ keep

/-- The media line that is put in the place of an `m=audio` line. -/
def MediaLine.rebuild (m : MediaLine) (ordered : List Text) : Text :=
  "m=".toList ++ m.media ++ [' '] ++ m.port ++ [' '] ++ m.proto ++ [' '] ++
    [' '].intercalate ordered

/-- `"\r\n" if "\r\n" in sdp else "\n"`. -/
def lineSep (sdp : Text) : Text := if crlf <:+: sdp then crlf else lf

namespace CharTables

variable (u : CharTables)

/-- An `a=rtpmap` line of an audio block adds its payload type when its name is allowed. -/
def noteRtpmap (allowedSet : List Text) (blk : AudioBlock) (line : Text) : AudioBlock :=
  match u.rtpmap line with
  | some (pt, name) =>
      if u.lower name ∈ allowedSet then { blk with keep := blk.keep ++ [pt] } else blk
  | none => blk

/-- The loop of `_scan_audio_blocks`, from line `i` on; `cur` is the open audio block. -/
def scanLines (allowedSet : List Text) (total : Nat) :
    Nat → Option AudioBlock → List Text → List AudioBlock
  | _, cur, [] => cur.toList
  | i, cur, line :: rest =>
      match u.mLine line with
      | some m =>
          (cur.map fun blk => { blk with stop := i }).toList ++
            scanLines allowedSet total (i + 1)
              (if m.media = "audio".toList then
                some { start := i, stop := total, fmts := words u.isSpace m.fmts, keep := [] }
              else none)
              rest
      | none => scanLines allowedSet total (i + 1) (cur.map fun blk => u.noteRtpmap allowedSet blk line) rest

/-- `_scan_audio_blocks`. -/
def scanAudioBlocks (lines : List Text) (allowedSet : List Text) : List AudioBlock :=
  (u.scanLines allowedSet lines.length 0 none lines).map (AudioBlock.addStatic allowedSet)

/-- An `a=rtpmap` or `a=fmtp` line of a payload type that is not kept. -/
def dangling (keep : List Text) (line : Text) : Bool :=
  ((u.rtpmap line).any fun r => r.1 ∉ keep) || (u.fmtp line).any fun pt => pt ∉ keep

/-- What the body of the loop of `_emit` puts out for line `i`, inside the block `cur_blk`. -/
def emitLine (i : Nat) (line : Text) : Option AudioBlock → List Text
  | none => [line]
  | some blk =>
      match u.mLine line with
      | some m =>
          if i = blk.start then [m.rebuild (orderFmts blk.fmts blk.keep)]
          else if blk.start < i && i < blk.stop && u.dangling blk.keep line then [] else [line]
      | none => if blk.start < i && i < blk.stop && u.dangling blk.keep line then [] else [line]

/-- The loop of `_emit`, from line `i` on; blocks that have stopped are passed over. -/
def emitFrom : Nat → List AudioBlock → List Text → List Text
  | _, _, [] => []
  | i, blocks, line :: rest =>
      let blocks := blocks.dropWhile fun blk => blk.stop ≤ i
      u.emitLine i line blocks.head? ++ emitFrom (i + 1) blocks rest

/-- `_emit`. -/
def emit (lines : List Text) (blocks : List AudioBlock) (lineSep : Text) : Text :=
  lineSep.intercalate (u.emitFrom 0 blocks lines)

/-- `{a.lower() for a in allowed if a}`. -/
def loweredNames (allowed : List Text) : List Text :=
  (allowed.filter fun name => !name.isEmpty).map u.lower

/-- The names that are let through: those of the allow-list, and `telephone-event` on request. -/
def allowedSet (allowed : List Text) (preserveDtmf : Bool) : List Text :=
  u.loweredNames allowed ++ if preserveDtmf then [telephoneEvent] else []

/-- `filter_audio_codecs`. -/
def filterAudioCodecs (sdp : Text) (allowed : List Text) (preserveDtmf : Bool) : Text :=
  if (u.loweredNames allowed).isEmpty then sdp
  else if sdp.isEmpty then sdp
  else
    let lines := split (lineSep sdp) sdp
    let blocks := u.scanAudioBlocks lines (u.allowedSet allowed preserveDtmf)
    if blocks.any fun blk => blk.keep.isEmpty then sdp else u.emit lines blocks (lineSep sdp)

/-- `SipCall.onCallSdpCreated`: the SDP that goes out in the place of `sdp`. -/
def onCallSdpCreated (call : Calls.SipCall) (sdp : Text) : Text :=
  match call.codecs with
  | none => sdp
  | some names =>
      if names.isEmpty || sdp.isEmpty then sdp
      else
        let sdpOut := u.filterAudioCodecs sdp (names.map String.toList) true
        if sdpOut ≠ sdp then sdpOut else sdp

end CharTables

end PjsuaMcp.Sdp
