import PjsuaMcp.Rtp.PcapAnalyzer
import PjsuaMcp.Calls.State
import PjsuaMcp.Sdp.FilteredText

/-!
# Foreign codecs on the RTP port of a phone

The tool `analyze_capture` looks for codecs that the SDP filter of a phone
should have kept away. The filter works with the names that the SDP gives to
its payload types and lets `telephone-event` through by itself; the report
works with a fixed table of payload types and with the configured names only.

## Implementation notes

The directories of captures and recordings are read, never written, and are an
argument. Sidecars that are not JSON are entries without a value.
-/

namespace PjsuaMcp.Rtp

open Sdp (Text CharTables)
open Library
open Calls (PhoneId PhoneConfig)

/-- A file in the capture directory of a phone. -/
structure PcapEntry where
  name : Text
  mtime : Nat
  deriving DecidableEq, Repr

/-- What a recording sidecar says about the capture of its call. -/
structure Sidecar where
  pcap : Option Text
  localRtpPort : Option Int
  callId : Option Int
  deriving DecidableEq, Repr

/-- The directories of a phone that the tool reads, and the captures by path. -/
structure Disk where
  captures : PhoneId → Option (List PcapEntry)
  recordings : PhoneId → List (Option Sidecar)
  file : Text → PcapFile

def intText : Int → Text
  | .ofNat n => Nat.toDigits 10 n
  | .negSucc n => '-' :: Nat.toDigits 10 (n + 1)

/-- The file names that `glob` gives for a call, or for any. -/
def isCaptureName (callId : Option Int) (name : Text) : Bool :=
  let stem := match callId with
    | none => []
    | some c => "call_".toList ++ intText c ++ ['_']
  stem.isPrefixOf name && ".pcap".toList.isSuffixOf name

/-- The first of the entries with the latest modification time. -/
def newest : List PcapEntry → Option PcapEntry
  | [] => none
  | e :: rest =>
      match newest rest with
      | none => some e
      | some best => if e.mtime < best.mtime then some best else some e

/-- The path of a file below a root, in the directory of a phone. -/
def pathUnder (root : Text) (p : PhoneId) (name : Text) : Text :=
  root ++ ['/'] ++ p.toList ++ ['/'] ++ name

def capturesRoot : Text := "/captures".toList

/-- `_resolve_pcap_path`, as the name of the file in the directory of the phone. -/
def resolvePcap (disk : Disk) (p : PhoneId) (callId : Option Int) : Option Text :=
  (disk.captures p).bind fun entries =>
    (newest (entries.filter fun e => isCaptureName callId e.name)).map PcapEntry.name

/-- `_lookup_meta_for_pcap`. -/
def lookupMetaForPcap (disk : Disk) (p : PhoneId) (target : Text) : Option Sidecar :=
  ((disk.recordings p).filterMap id).find? fun data => data.pcap = some target

/-- The answer of the tool. Without a capture all fields of the report are empty, and the error
text names the phone and the call; an exception is answered with its text. -/
inductive CaptureAnswer
  | noCapture (p : PhoneId) (callId : Option Int)
  | failed (p : PhoneId) (error : Text)
  | analyzed (p : PhoneId) (callId : Option Int) (path : Text) (report : Report)
  deriving DecidableEq

/-- `non_phone_codecs_on_phone_port`. -/
def CaptureAnswer.nonPhoneCodecs : CaptureAnswer → Option (List Text)
  | .noCapture _ _ | .failed _ _ => none
  | .analyzed _ _ _ report => report.nonPhoneCodecsOnPhonePort

/-- The names of a configured codec list. -/
def codecTexts (codecs : List String) : List Text := codecs.map String.toList

/-- `analyze_capture`. -/
def analyzeCapture (dpkt : Dpkt) (upper : Text → Text) (phones : OrderedDict PhoneId PhoneConfig)
    (disk : Disk) (hostRoot : Option Text) (p : PhoneId) (callId : Option Int) : CaptureAnswer :=
  match resolvePcap disk p callId with
  | none => .noCapture p callId
  | some name =>
      let pcapPath := pathUnder capturesRoot p name
      let sidecar := lookupMetaForPcap disk p pcapPath
      let expectedCodecs := ((phones.get? p).bind PhoneConfig.codecs).map codecTexts
      match analyzePcap dpkt upper pcapPath (disk.file pcapPath)
        (sidecar.bind Sidecar.localRtpPort) expectedCodecs with
      | .error reason => .failed p reason
      | .ok result =>
          .analyzed p (callId.or (sidecar.bind Sidecar.callId))
            (pathUnder (hostRoot.getD capturesRoot) p name) result

/-! ## What the report says about the packets -/

/-- There is one flow for each key, with its packets counted. -/
theorem mem_flowsOf {name : Nat → Text} {keys : List FlowKey} {flow : Flow} :
    flow ∈ flowsOf name keys ↔ ∃ k ∈ keys, flow = ⟨k, name k.payloadType, keys.count k⟩ := by
  simp only [flowsOf, List.mem_map, List.mem_insertionSort, List.mem_dedup, eq_comm]

/-- The loop that collects the codecs, started on codecs already seen. -/
theorem mem_foldl_seen {port : Int} {codec : Text} (flows : List Flow) (seen : List Text) :
    codec ∈ flows.foldl
        (fun seen flow =>
          if (flow.key.srcPort : Int) ≠ port ∧ (flow.key.dstPort : Int) ≠ port then seen
          else if flow.name ∈ seen then seen else seen ++ [flow.name])
        seen ↔
      codec ∈ seen ∨ ∃ flow ∈ flows,
        ((flow.key.srcPort : Int) = port ∨ (flow.key.dstPort : Int) = port) ∧
          flow.name = codec := by
  induction flows generalizing seen with
  | nil => simp
  | cons flow flows ih =>
      rw [List.foldl_cons, ih, List.exists_mem_cons_iff, ← or_assoc]
      refine or_congr_left ?_
      split_ifs with hport hseen
      · rw [← not_or] at hport
        simp only [hport, false_and, or_false]
      · rw [not_and_or, not_not, not_not] at hport
        simp only [hport, true_and]
        refine (or_iff_left_of_imp ?_).symm
        rintro rfl
        exact hseen
      · rw [not_and_or, not_not, not_not] at hport
        rw [List.mem_append, List.mem_singleton, and_iff_right hport, @eq_comm _ codec]

theorem mem_codecsSeen {port : Int} {flows : List Flow} {codec : Text} :
    codec ∈ codecsSeen port flows ↔ ∃ flow ∈ flows,
      ((flow.key.srcPort : Int) = port ∨ (flow.key.dstPort : Int) = port) ∧ flow.name = codec := by
  rw [codecsSeen, mem_foldl_seen]
  exact or_iff_right List.not_mem_nil

/-- No codec is foreign when all that were seen are expected. -/
theorem foreignCodecs_eq_nil {upper : Text → Text} {seen expected : List Text} :
    foreignCodecs upper seen (some expected) = [] ↔
      ∀ codec ∈ seen, upper codec ∈ expected.map upper := by
  simp only [foreignCodecs, List.filter_eq_nil_iff, decide_eq_true_eq, not_not]

/-- A datagram from or to the port. -/
def OnPort (port : UInt16) (d : Datagram) : Prop := d.sport = port ∨ d.dport = port

theorem rtpKey_eq_some {d : Datagram} {k : FlowKey} :
    rtpKey d = some k ↔ ∃ pt, classify d.payload = some (.rtp pt) ∧
      k = ⟨d.sport.toNat, d.dport.toNat, pt⟩ := by
  unfold rtpKey
  cases classify d.payload with
  | none => simp
  | some kind => cases kind <;> simp [eq_comm]

/-- The codecs seen on the port are those of its RTP packets, by the analyser's table. -/
theorem mem_codecsSeen_packets {port : UInt16} {packets : List Datagram} {codec : Text} :
    codec ∈ codecsSeen port.toNat (flowsOf codecName (packets.filterMap rtpKey)) ↔
      ∃ d ∈ packets, OnPort port d ∧ ∃ pt, classify d.payload = some (.rtp pt) ∧
        codecName pt = codec := by
  simp only [mem_codecsSeen, mem_flowsOf, List.mem_filterMap, rtpKey_eq_some]
  constructor
  · rintro ⟨_, ⟨_, ⟨d, hd, pt, hclass, rfl⟩, rfl⟩, hport, rfl⟩
    simp only [Int.natCast_inj, UInt16.toNat_inj] at hport
    exact ⟨d, hd, hport, pt, hclass, rfl⟩
  · rintro ⟨d, hd, hport, pt, hclass, rfl⟩
    refine ⟨_, ⟨_, ⟨d, hd, pt, hclass, rfl⟩, rfl⟩, ?_, rfl⟩
    simp only [Int.natCast_inj, UInt16.toNat_inj]
    exact hport


/-! ## Captures of negotiated packets -/

/-- The tool finds a readable capture with these packets for the call, and a sidecar with the
local RTP port of the phone. -/
def Captured (dpkt : Dpkt) (disk : Disk) (p : PhoneId) (callId : Option Int) (port : UInt16)
    (packets : List Datagram) : Prop :=
  ∃ name sidecar linktype bufs, resolvePcap disk p callId = some name ∧
    lookupMetaForPcap disk p (pathUnder capturesRoot p name) = some sidecar ∧
    sidecar.localRtpPort = some (port.toNat : Int) ∧
    disk.file (pathUnder capturesRoot p name) = .capture linktype bufs none ∧
    (linktypeNames.lookup linktype).isSome = true ∧ packets = datagrams dpkt linktype bufs

/-- Every RTP packet on the port has a payload type with this property. -/
def CarriesOnly (port : UInt16) (packets : List Datagram) (negotiated : Nat → Prop) : Prop :=
  ∀ d ∈ packets, OnPort port d → ∀ pt, classify d.payload = some (.rtp pt) → negotiated pt

/-- The report on a readable capture. -/
theorem analyzeCapture_captured {dpkt : Dpkt} {upper : Text → Text}
    {phones : OrderedDict PhoneId PhoneConfig} {disk : Disk} {p : PhoneId} {callId : Option Int}
    {port : UInt16} {packets : List Datagram} (hostRoot : Option Text) {cfg : PhoneConfig}
    (hcfg : phones.get? p = some cfg)
    (hcapture : Captured dpkt disk p callId port packets) :
    (analyzeCapture dpkt upper phones disk hostRoot p callId).nonPhoneCodecs =
      some (foreignCodecs upper
        (codecsSeen port.toNat (flowsOf codecName (packets.filterMap rtpKey)))
        (cfg.codecs.map codecTexts)) := by
  obtain ⟨name, sidecar, linktype, bufs, hname, hsidecar, hport, hfile, hlink, rfl⟩ := hcapture
  have hlink' : (linktypeNames.lookup linktype).isNone = false := by
    rw [Option.isNone_eq_false_iff]
    exact hlink
  simp [analyzeCapture, analyzePcap, CaptureAnswer.nonPhoneCodecs, hname, hsidecar, hport, hfile,
    hlink', hcfg]

/-- The report is empty exactly when the analyser's name of every payload type seen on the port
is a configured codec. -/
theorem nonPhoneCodecs_eq_nil_iff {dpkt : Dpkt} {upper : Text → Text}
    {phones : OrderedDict PhoneId PhoneConfig} {disk : Disk} {p : PhoneId} {callId : Option Int}
    {port : UInt16} {packets : List Datagram} (hostRoot : Option Text) {cfg : PhoneConfig}
    {codecs : List String} (hcfg : phones.get? p = some cfg) (hcodecs : cfg.codecs = some codecs)
    (hcapture : Captured dpkt disk p callId port packets) :
    (analyzeCapture dpkt upper phones disk hostRoot p callId).nonPhoneCodecs = some [] ↔
      CarriesOnly port packets fun pt =>
        upper (codecName pt) ∈ (codecTexts codecs).map upper := by
  rw [analyzeCapture_captured hostRoot hcfg hcapture, hcodecs, Option.map_some, Option.some_inj,
    foreignCodecs_eq_nil]
  simp only [mem_codecsSeen_packets, CarriesOnly]
  constructor
  · intro h d hd hport pt hclass
    exact h _ ⟨d, hd, hport, pt, hclass, rfl⟩
  · rintro h _ ⟨d, hd, hport, pt, hclass, rfl⟩
    exact h d hd hport pt hclass

/-- The payload of an RTP packet that is a bare header. -/
def rtpHeader (pt : Nat) : Bytes := [0x80, UInt8.ofNat pt, 0, 0, 0, 0, 0, 0, 0, 0, 0, 0]

theorem classify_rtpHeader {pt : Nat} (h : pt < 128) :
    classify (rtpHeader pt) = some (.rtp pt) := by
  have hall : (List.range 128).all
      (fun pt => classify (rtpHeader pt) = some (.rtp pt)) = true := by decide
  exact of_decide_eq_true (List.all_eq_true.mp hall pt (List.mem_range.mpr h))

theorem lt_of_classify_rtp {payload : Bytes} {pt : Nat} (h : classify payload = some (.rtp pt)) :
    pt < 128 := by
  unfold classify at h
  split at h
  · split_ifs at h with hversion hrtcp hshort
    · cases h
    · rw [Option.some_inj, PacketKind.rtp.injEq] at h
      rw [← h, UInt8.toNat_and]
      exact Nat.lt_succ_of_le Nat.and_le_right
  · cases h

/-- A disk with one capture of one packet, and its sidecar. -/
def singleCapture (p : PhoneId) (port : UInt16) (packet : Bytes) : Disk where
  captures _ := some [⟨"x.pcap".toList, 0⟩]
  recordings _ :=
    [some ⟨some (pathUnder capturesRoot p "x.pcap".toList), some (port.toNat : Int), none⟩]
  file _ := .capture 12 [packet] none

theorem captured_single {dpkt : Dpkt} (p : PhoneId) (port : UInt16) {packet : Bytes}
    {d : Datagram} (h : dpkt.udp packet = some d) :
    Captured dpkt (singleCapture p port packet) p none port [d] := by
  refine ⟨"x.pcap".toList,
    ⟨some (pathUnder capturesRoot p "x.pcap".toList), some (port.toNat : Int), none⟩, 12, [packet],
    rfl, ?_, rfl, rfl, by decide, ?_⟩
  · simp [lookupMetaForPcap, singleCapture]
  · simp [datagrams, stripLink, h]

/-! ## The report and the filter -/

/-- The filtered SDP of a phone with these codecs lists the payload type in an audio section. -/
def Negotiated (u : CharTables) (codecs : List String) (sdp : Text) (pt : Nat) : Prop :=
  ∃ sec ∈ u.sectionsIn sdp (u.filterAudioCodecs sdp (codecTexts codecs) true),
    Nat.toDigits 10 pt ∈ u.formats sec

instance (u : CharTables) (codecs : List String) (sdp : Text) (pt : Nat) :
    Decidable (Negotiated u codecs sdp pt) :=
  inferInstanceAs (Decidable (∃ sec ∈ _, Nat.toDigits 10 pt ∈ u.formats sec))

/-- Every capture whose RTP packets on the port carry negotiated payload types only is reported
without a foreign codec, if and only if the analyser's table gives each of these payload types
the name of a configured codec. -/
theorem nonPhoneCodecs_empty_iff (u : CharTables) (dpkt : Dpkt) (upper : Text → Text)
    {phones : OrderedDict PhoneId PhoneConfig} {p : PhoneId} {cfg : PhoneConfig}
    {codecs : List String} (hcfg : phones.get? p = some cfg) (hcodecs : cfg.codecs = some codecs)
    (sdp : Text) (port : UInt16) :
    (∀ disk callId hostRoot packets, Captured dpkt disk p callId port packets →
        CarriesOnly port packets (Negotiated u codecs sdp) →
        (analyzeCapture dpkt upper phones disk hostRoot p callId).nonPhoneCodecs = some []) ↔
      ∀ pt < 128, Negotiated u codecs sdp pt →
        upper (codecName pt) ∈ (codecTexts codecs).map upper := by
  constructor
  · intro hreports pt hpt hneg
    obtain ⟨packet, hpacket⟩ := dpkt.udp_surjective ⟨port, port, rtpHeader pt⟩ (by simp [rtpHeader])
    have hcapture := captured_single p port hpacket
    have hcarries : CarriesOnly port [⟨port, port, rtpHeader pt⟩] (Negotiated u codecs sdp) := by
      intro d hd _ pt' hclass
      rw [List.mem_singleton.mp hd, classify_rtpHeader hpt, Option.some_inj,
        PacketKind.rtp.injEq] at hclass
      exact hclass ▸ hneg
    have hempty := hreports _ none none _ hcapture hcarries
    have hall := (nonPhoneCodecs_eq_nil_iff none hcfg hcodecs hcapture).mp hempty
    exact hall _ (List.mem_singleton_self _) (.inl rfl) pt (classify_rtpHeader hpt)
  · intro hnames disk callId hostRoot packets hcapture hcarries
    refine (nonPhoneCodecs_eq_nil_iff hostRoot hcfg hcodecs hcapture).mpr ?_
    intro d hd hport pt hclass
    exact hnames pt (lt_of_classify_rtp hclass) (hcarries d hd hport pt hclass)

/-! ## A capture with dialled digits -/

/-- IPv4 packets without options, and Ethernet frames without tags. -/
def plainUdp : Bytes → Option Datagram
  | 0x45 :: _ :: _ :: _ :: _ :: _ :: _ :: _ :: _ :: 17 :: _ :: _ :: _ :: _ :: _ :: _ :: _ :: _ ::
      _ :: _ :: s₁ :: s₂ :: d₁ :: d₂ :: _ :: _ :: _ :: _ :: payload =>
      some ⟨s₁.toUInt16 * 256 + s₂.toUInt16, d₁.toUInt16 * 256 + d₂.toUInt16, payload⟩
  | _ => none

/-- The packet that carries a datagram. -/
def udpPacket (d : Datagram) : Bytes :=
  [0x45, 0, 0, 0, 0, 0, 0, 0, 64, 17, 0, 0, 127, 0, 0, 1, 127, 0, 0, 1, (d.sport / 256).toUInt8,
    d.sport.toUInt8, (d.dport / 256).toUInt8, d.dport.toUInt8, 0, 0, 0, 0] ++ d.payload

theorem port_bytes (port : UInt16) :
    (port / 256).toUInt8.toUInt16 * 256 + port.toUInt8.toUInt16 = port := by
  apply UInt16.toNat_inj.mp
  have hlt := port.toNat_lt
  simp
  omega

theorem plainUdp_udpPacket (d : Datagram) : plainUdp (udpPacket d) = some d := by
  simp only [udpPacket, List.cons_append, List.nil_append, plainUdp, port_bytes]

def plainDpkt : Dpkt where
  ethernet frame := if (frame.drop 12).take 2 = [0x08, 0x00] then some (frame.drop 14) else none
  udp := plainUdp
  udp_surjective d _ := ⟨udpPacket d, plainUdp_udpPacket d⟩

/-- One phone with these codecs configured. -/
def phoneWith (codecs : List String) : OrderedDict PhoneId PhoneConfig :=
  OrderedDict.empty.set "alice" { domain := "example.org", codecs := some codecs }

/-- An offer of PCMU, PCMA and digits. -/
def dtmfOffer : Text :=
  ("v=0\r\no=- 1 1 IN IP4 127.0.0.1\r\ns=-\r\nc=IN IP4 127.0.0.1\r\nt=0 0\r\n" ++
    "m=audio 4000 RTP/AVP 0 8 101\r\na=rtpmap:101 telephone-event/8000\r\n").toList

/-- A packet with a dialled digit, under the number that the offer gives to digits. -/
def digitPacket : Datagram := ⟨4000, 5004, rtpHeader 101⟩

theorem carriesOnly_digitPacket {port : UInt16} {negotiated : Nat → Prop} (h : negotiated 101) :
    CarriesOnly port [digitPacket] negotiated := by
  intro d hd _ pt hclass
  rw [List.mem_singleton.mp hd, digitPacket, classify_rtpHeader (by decide), Option.some_inj,
    PacketKind.rtp.injEq] at hclass
  exact hclass ▸ h

/-- The filter narrows the offer to admitted payload types, a captured packet carries one of
them, and its codec is reported as foreign. -/
theorem digitPacket_reported :
    CharTables.ascii.filterAudioCodecs dtmfOffer (codecTexts ["PCMA"]) true ≠ dtmfOffer ∧
    (∀ sec ∈ CharTables.ascii.sectionsIn dtmfOffer
        (CharTables.ascii.filterAudioCodecs dtmfOffer (codecTexts ["PCMA"]) true),
      ∀ fmt ∈ CharTables.ascii.formats sec,
        CharTables.ascii.admits (CharTables.ascii.allowedSet (codecTexts ["PCMA"]) true) sec fmt =
          true) ∧
    Captured plainDpkt (singleCapture "alice" 4000 (udpPacket digitPacket)) "alice" none 4000
      [digitPacket] ∧
    CarriesOnly 4000 [digitPacket] (Negotiated CharTables.ascii ["PCMA"] dtmfOffer) ∧
    (analyzeCapture plainDpkt (List.map Char.toUpper) (phoneWith ["PCMA"])
        (singleCapture "alice" 4000 (udpPacket digitPacket)) none "alice" none).nonPhoneCodecs =
      some ["telephone-event".toList] := by
  exact ⟨by decide +kernel, by decide +kernel,
    captured_single "alice" 4000 (plainUdp_udpPacket _),
    carriesOnly_digitPacket (by decide +kernel), by decide +kernel⟩

theorem negotiated_listed {pt : Nat} (hpt : pt < 128)
    (hneg : Negotiated CharTables.ascii ["PCMA", "telephone-event"] dtmfOffer pt) :
    (codecName pt).map Char.toUpper ∈
      (codecTexts ["PCMA", "telephone-event"]).map (List.map Char.toUpper) := by
  obtain ⟨sec, hsec, hlisted⟩ := hneg
  have hformats : (CharTables.ascii.sectionsIn dtmfOffer (CharTables.ascii.filterAudioCodecs
      dtmfOffer (codecTexts ["PCMA", "telephone-event"]) true)).map CharTables.ascii.formats =
        [["8".toList, "101".toList]] := by
    decide +kernel
  have hmem := List.mem_map_of_mem (f := CharTables.ascii.formats) hsec
  rw [hformats, List.mem_singleton] at hmem
  rw [hmem] at hlisted
  have hall : (List.range 128).all (fun pt =>
      Nat.toDigits 10 pt ∉ ["8".toList, "101".toList] ∨
        (codecName pt).map Char.toUpper ∈
          (codecTexts ["PCMA", "telephone-event"]).map (List.map Char.toUpper)) = true := by
    decide
  have hpt' := of_decide_eq_true (List.all_eq_true.mp hall pt (List.mem_range.mpr hpt))
  exact hpt'.resolve_left fun hnot => hnot hlisted

/-- With `telephone-event` among the configured codecs the same packet is not reported. -/
theorem nonPhoneCodecs_empty_listed :
    (analyzeCapture plainDpkt (List.map Char.toUpper) (phoneWith ["PCMA", "telephone-event"])
      (singleCapture "alice" 4000 (udpPacket digitPacket)) none "alice" none).nonPhoneCodecs =
        some [] := by
  have hcfg : (phoneWith ["PCMA", "telephone-event"]).get? "alice" =
      some { domain := "example.org", codecs := some ["PCMA", "telephone-event"] } := rfl
  have hreports := (nonPhoneCodecs_empty_iff CharTables.ascii plainDpkt (List.map Char.toUpper)
    hcfg rfl dtmfOffer 4000).mpr fun pt hpt hneg => negotiated_listed hpt hneg
  exact hreports _ none none [digitPacket] (captured_single "alice" 4000 (plainUdp_udpPacket _))
    (carriesOnly_digitPacket (by decide +kernel))

end PjsuaMcp.Rtp
