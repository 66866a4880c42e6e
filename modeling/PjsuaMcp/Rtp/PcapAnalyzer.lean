import PjsuaMcp.Sdp.Syntax
import Mathlib.Data.List.Sort
import Mathlib.Data.List.Dedup

/-!
# RTP and RTCP flows of a capture

`pcap_analyzer`: frames are stripped of their link layer, decoded as UDP
datagrams and classified by their first two bytes. The report counts the
packets of every flow, and names the codecs on the RTP port of one phone.

## Implementation notes

The decoding of Ethernet, IPv4 and UDP is done by `dpkt` and is a parameter.
What the code relies on is that a datagram put into an IPv4 packet comes out of
it again. `str.upper` is a parameter as well.
-/

namespace PjsuaMcp.Rtp

open Sdp (Text)

abbrev Bytes := List UInt8

structure Datagram where
  sport : UInt16
  dport : UInt16
  payload : Bytes
  deriving DecidableEq

/-- What `dpkt` makes of a buffer: the IPv4 packet of an Ethernet frame, and the UDP datagram
of an IPv4 packet. It gives nothing for other protocols and for what it cannot decode. -/
structure Dpkt where
  ethernet : Bytes → Option Bytes
  udp : Bytes → Option Datagram
  /-- A datagram that fits into a packet is read from some packet. -/
  udp_surjective : ∀ d : Datagram, d.payload.length ≤ 65507 → ∃ packet, udp packet = some d

/-- `_LINKTYPE_NAMES`. -/
def linktypeNames : List (Nat × Text) :=
  [(0, "NULL".toList), (1, "EN10MB".toList), (113, "LINUX_SLL".toList),
    (276, "LINUX_SLL2".toList), (12, "RAW".toList)]

/-- `_PT_TO_CODEC`. -/
def ptToCodec : List (Nat × Text) :=
  [(0, "PCMU".toList), (3, "GSM".toList), (4, "G723".toList), (5, "DVI4".toList),
    (6, "DVI4".toList), (7, "LPC".toList), (8, "PCMA".toList), (9, "G722".toList),
    (10, "L16".toList), (11, "L16".toList), (12, "QCELP".toList), (13, "CN".toList),
    (14, "MPA".toList), (15, "G728".toList), (16, "DVI4".toList), (17, "DVI4".toList),
    (18, "G729".toList), (25, "CelB".toList), (26, "JPEG".toList), (28, "nv".toList),
    (31, "H261".toList), (32, "MPV".toList), (33, "MP2T".toList), (34, "H263".toList),
    (96, "dynamic-96".toList), (101, "telephone-event".toList),
    (120, "telephone-event".toList)]

/-- `_RTCP_PT_NAMES`. -/
def rtcpPtNames : List (Nat × Text) :=
  [(200, "SR".toList), (201, "RR".toList), (202, "SDES".toList), (203, "BYE".toList),
    (204, "APP".toList), (205, "RTPFB".toList), (206, "PSFB".toList)]

/-- `f"PT={pt}"`. -/
def ptText (pt : Nat) : Text := "PT=".toList ++ Nat.toDigits 10 pt

/-- `_codec_name`. -/
def codecName (pt : Nat) : Text := (ptToCodec.lookup pt).getD (ptText pt)

/-- `_strip_link`. -/
def stripLink (dpkt : Dpkt) (buf : Bytes) (linktype : Nat) : Option Bytes :=
  if linktype = 0 then if buf.length < 4 then none else some (buf.drop 4)
  else if linktype = 1 then dpkt.ethernet buf
  else if linktype = 113 then if buf.length < 16 then none else some (buf.drop 16)
  else if linktype = 276 then if buf.length < 20 then none else some (buf.drop 20)
  else if linktype = 12 then some buf
  else none

inductive PacketKind
  | rtp (pt : Nat)
  | rtcp (pt : Nat)
  deriving DecidableEq, Repr

/-- `_classify`. -/
def classify : Bytes → Option PacketKind
  | b₀ :: ptRaw :: b₂ :: b₃ :: rest =>
      if b₀ &&& 0xC0 ≠ 0x80 then none
      else if (rtcpPtNames.lookup ptRaw.toNat).isSome then some (.rtcp ptRaw.toNat)
      else if (b₀ :: ptRaw :: b₂ :: b₃ :: rest).length < 12 then none
      else some (.rtp (ptRaw &&& 0x7F).toNat)
  | _ => none

/-- The key of a counter: source port, destination port, payload type. -/
structure FlowKey where
  srcPort : Nat
  dstPort : Nat
  payloadType : Nat
  deriving DecidableEq, Repr

/-- The order of the tuples. -/
def FlowKey.le (k l : FlowKey) : Prop :=
  k.srcPort < l.srcPort ∨ k.srcPort = l.srcPort ∧
    (k.dstPort < l.dstPort ∨ k.dstPort = l.dstPort ∧ k.payloadType ≤ l.payloadType)

instance : DecidableRel FlowKey.le := fun k l => by
  unfold FlowKey.le
  infer_instance

/-- An entry of `rtp_flows`, or of `rtcp_flows` with the packet name in the place of the codec. -/
structure Flow where
  key : FlowKey
  name : Text
  count : Nat
  deriving DecidableEq, Repr

/-- `sorted(counts.items())` with the names looked up. -/
def flowsOf (name : Nat → Text) (keys : List FlowKey) : List Flow :=
  (keys.dedup.insertionSort FlowKey.le).map fun k => ⟨k, name k.payloadType, keys.count k⟩

/-- The datagrams that the loop over the frames reaches. -/
def datagrams (dpkt : Dpkt) (linktype : Nat) (bufs : List Bytes) : List Datagram :=
  bufs.filterMap fun buf => (stripLink dpkt buf linktype).bind dpkt.udp

def rtpKey (d : Datagram) : Option FlowKey :=
  match classify d.payload with
  | some (.rtp pt) => some ⟨d.sport.toNat, d.dport.toNat, pt⟩
  | _ => none

def rtcpKey (d : Datagram) : Option FlowKey :=
  match classify d.payload with
  | some (.rtcp pt) => some ⟨d.sport.toNat, d.dport.toNat, pt⟩
  | _ => none

/-- What breaks the loop over the frames off: an error of the operating system, or the end of the
file inside the header of a packet. -/
inductive ReadFailure
  | osError (reason : Text)
  | needData (reason : Text)
  deriving DecidableEq

/-- What is found on disk under the path of a capture. A capture may break off after some
frames. -/
inductive PcapFile
  | missing
  | cannotRead (reason : Text)
  | unreadable (reason : Text)
  | capture (linktype : Nat) (bufs : List Bytes) (failure : Option ReadFailure)
  deriving DecidableEq

structure Report where
  path : Text
  linktype : Option Nat := none
  linktypeName : Option Text := none
  totalPackets : Nat := 0
  rtpFlows : List Flow := []
  rtcpFlows : List Flow := []
  phoneRtpPort : Option Int
  phoneRtpCodecsSeen : Option (List Text) := none
  nonPhoneCodecsOnPhonePort : Option (List Text) := none
  error : Option Text := none
  deriving DecidableEq

/-- The codecs of the flows on a port, each one once, in the order of the flows. -/
def codecsSeen (port : Int) (flows : List Flow) : List Text :=
  flows.foldl
    (fun seen flow =>
      if (flow.key.srcPort : Int) ≠ port ∧ (flow.key.dstPort : Int) ≠ port then seen
      else if flow.name ∈ seen then seen else seen ++ [flow.name])
    []

/-- The codecs seen that are not expected; without expectations there are none. -/
def foreignCodecs (upper : Text → Text) (seen : List Text) : Option (List Text) → List Text
  | none => []
  | some expected => seen.filter fun codec => upper codec ∉ expected.map upper

/-- `analyze_pcap`; an error is an exception that leaves it. Only an `OSError` is caught around the
loop. -/
def analyzePcap (dpkt : Dpkt) (upper : Text → Text) (path : Text) (file : PcapFile)
    (phoneRtpPort : Option Int) (expectedCodecs : Option (List Text)) : Except Text Report :=
  let result : Report := { path, phoneRtpPort }
  match file with
  | .missing => .ok { result with error := some ("pcap not found: ".toList ++ path) }
  | .cannotRead reason =>
      .ok { result with error := some ("cannot read pcap: ".toList ++ reason) }
  | .unreadable reason =>
      .ok { result with error := some ("unreadable pcap: ".toList ++ reason) }
  | .capture linktype bufs failure =>
      let result :=
        { result with linktype := some linktype, linktypeName := linktypeNames.lookup linktype }
      if (linktypeNames.lookup linktype).isNone then
        .ok { result with error := some ("unknown linktype ".toList ++ Nat.toDigits 10 linktype) }
      else
        match failure with
        | some (.osError reason) =>
            .ok { result with error := some ("cannot read pcap: ".toList ++ reason) }
        | some (.needData reason) => .error reason
        | none =>
            let packets := datagrams dpkt linktype bufs
            let rtpFlows := flowsOf codecName (packets.filterMap rtpKey)
            let rtcpName pt := (rtcpPtNames.lookup pt).getD (ptText pt)
            let result :=
              { result with
                totalPackets := bufs.length
                rtpFlows
                rtcpFlows := flowsOf rtcpName (packets.filterMap rtcpKey) }
            match phoneRtpPort with
            | none => .ok result
            | some port =>
                let seen := codecsSeen port rtpFlows
                .ok { result with
                  phoneRtpCodecsSeen := some seen
                  nonPhoneCodecsOnPhonePort := some (foreignCodecs upper seen expectedCodecs) }

end PjsuaMcp.Rtp
