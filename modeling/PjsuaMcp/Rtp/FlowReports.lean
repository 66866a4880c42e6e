import Mathlib.Algebra.BigOperators.Group.List.Lemmas
import Mathlib.Algebra.GroupWithZero.Nat
import PjsuaMcp.Rtp.LeakDetection

/-!
# What a flow report counts

The analyser counts the packets of a capture by ports and payload type, in one
table for RTP and one for RTCP, and reports the tables sorted. Every frame that
carries an RTP or an RTCP packet is counted in one flow, and the report does not
depend on the order of the frames.
-/

namespace PjsuaMcp.Rtp

open Sdp (Text)

/-! ## The order of the keys -/

theorem FlowKey.le_total (k l : FlowKey) : k.le l ∨ l.le k := by
  unfold FlowKey.le
  omega

theorem FlowKey.le_trans {k l m : FlowKey} (hkl : k.le l) (hlm : l.le m) : k.le m := by
  unfold FlowKey.le at *
  omega

theorem FlowKey.le_antisymm {k l : FlowKey} (hkl : k.le l) (hlk : l.le k) : k = l := by
  obtain ⟨src, dst, pt⟩ := k
  obtain ⟨src', dst', pt'⟩ := l
  simp only [FlowKey.le] at hkl hlk
  simp only [FlowKey.mk.injEq]
  omega

instance : Std.Total FlowKey.le := ⟨FlowKey.le_total⟩

instance : IsTrans FlowKey FlowKey.le := ⟨fun _ _ _ => FlowKey.le_trans⟩

instance : Std.Antisymm FlowKey.le := ⟨fun _ _ => FlowKey.le_antisymm⟩

/-! ## One table -/

theorem map_key_flowsOf (name : Nat → Text) (keys : List FlowKey) :
    (flowsOf name keys).map Flow.key = keys.dedup.insertionSort FlowKey.le := by
  rw [flowsOf, List.map_map]
  exact List.map_id _

/-- No key has two flows, and the flows are in the order of their keys. -/
theorem pairwise_flowsOf (name : Nat → Text) (keys : List FlowKey) :
    ((flowsOf name keys).map Flow.key).Pairwise fun k l => k.le l ∧ k ≠ l := by
  rw [map_key_flowsOf]
  have hsorted := List.pairwise_insertionSort FlowKey.le keys.dedup
  have hnodup : (keys.dedup.insertionSort FlowKey.le).Nodup :=
    (List.perm_insertionSort FlowKey.le keys.dedup).nodup_iff.mpr keys.nodup_dedup
  exact hsorted.and hnodup

/-- The counts of the flows add up to the number of packets. -/
theorem sum_count_flowsOf (name : Nat → Text) (keys : List FlowKey) :
    ((flowsOf name keys).map Flow.count).sum = keys.length :=
  calc ((flowsOf name keys).map Flow.count).sum
    _ = ((keys.dedup.insertionSort FlowKey.le).map fun k => keys.count k).sum := by
        rw [flowsOf, List.map_map]
        rfl
    _ = (keys.dedup.map fun k => keys.count k).sum :=
        ((List.perm_insertionSort FlowKey.le keys.dedup).map _).sum_eq
    _ = keys.length := List.sum_map_count_dedup_eq_length keys

/-- The order in which the packets were counted does not show. -/
theorem flowsOf_perm (name : Nat → Text) {keys keys' : List FlowKey} (h : keys.Perm keys') :
    flowsOf name keys = flowsOf name keys' := by
  have hsorted : keys.dedup.insertionSort FlowKey.le = keys'.dedup.insertionSort FlowKey.le := by
    apply List.Perm.eq_of_pairwise' (List.pairwise_insertionSort FlowKey.le _)
      (List.pairwise_insertionSort FlowKey.le _)
    apply (List.perm_insertionSort FlowKey.le keys.dedup).trans
    exact h.dedup.trans (List.perm_insertionSort FlowKey.le keys'.dedup).symm
  rw [flowsOf, flowsOf, hsorted]
  apply List.map_congr_left
  intro k _
  rw [h.count_eq]

/-! ## The report on a capture -/

/-- What a frame is counted under. -/
def frameKey (dpkt : Dpkt) (linktype : Nat) (key : Datagram → Option FlowKey) (buf : Bytes) :
    Option FlowKey :=
  ((stripLink dpkt buf linktype).bind dpkt.udp).bind key

/-- The flows list the keys of the frames in order, each one once and with the number of its
frames. -/
structure Counts (flows : List Flow) (key : Bytes → Option FlowKey) (bufs : List Bytes) :
    Prop where
  sorted : (flows.map Flow.key).Pairwise fun k l => k.le l ∧ k ≠ l
  listed : ∀ k n, (∃ flow ∈ flows, flow.key = k ∧ flow.count = n) ↔
    0 < n ∧ bufs.countP (fun buf => key buf = some k) = n

theorem filterMap_datagrams (dpkt : Dpkt) (linktype : Nat) (key : Datagram → Option FlowKey)
    (bufs : List Bytes) :
    (datagrams dpkt linktype bufs).filterMap key = bufs.filterMap (frameKey dpkt linktype key) :=
  List.filterMap_filterMap

theorem count_filterMap_eq (key : Bytes → Option FlowKey) (bufs : List Bytes) (k : FlowKey) :
    (bufs.filterMap key).count k = bufs.countP fun buf => key buf = some k := by
  rw [List.count_filterMap]
  apply List.countP_congr
  intro buf _
  rw [beq_iff_eq, decide_eq_true_eq]

theorem counts_flowsOf (name : Nat → Text) (key : Bytes → Option FlowKey) (bufs : List Bytes) :
    Counts (flowsOf name (bufs.filterMap key)) key bufs where
  sorted := pairwise_flowsOf name _
  listed k n := by
    simp only [mem_flowsOf]
    constructor
    · rintro ⟨flow, ⟨k, hk, rfl⟩, rfl, rfl⟩
      exact ⟨List.count_pos_iff.mpr hk, (count_filterMap_eq key bufs k).symm⟩
    · rintro ⟨hpos, hcount⟩
      rw [← count_filterMap_eq] at hcount
      have hk : k ∈ bufs.filterMap key := by
        rw [← List.count_pos_iff, hcount]
        exact hpos
      exact ⟨_, ⟨k, hk, rfl⟩, rfl, hcount⟩

/-- A datagram is not counted in both tables. -/
theorem rtcpKey_eq_none {d : Datagram} {k : FlowKey} (h : rtpKey d = some k) :
    rtcpKey d = none := by
  obtain ⟨pt, hclass, -⟩ := rtpKey_eq_some.mp h
  rw [rtcpKey, hclass]

theorem frameKey_rtcp_eq_none {dpkt : Dpkt} {linktype : Nat} {buf : Bytes} {k : FlowKey}
    (h : frameKey dpkt linktype rtpKey buf = some k) :
    frameKey dpkt linktype rtcpKey buf = none := by
  obtain ⟨d, hd, hkey⟩ := Option.bind_eq_some_iff.mp h
  rw [frameKey, hd, Option.bind_some, rtcpKey_eq_none hkey]

/-- Lists picked from a list by disjoint choices are together no longer than it. -/
theorem length_filterMap_add_le {α β : Type*} {f g : α → Option β}
    (h : ∀ a b, f a = some b → g a = none) (l : List α) :
    (l.filterMap f).length + (l.filterMap g).length ≤ l.length := by
  induction l with
  | nil => exact le_refl _
  | cons a rest ih =>
      rw [List.length_cons]
      cases hf : f a with
      | some b =>
          rw [List.filterMap_cons_some hf, List.filterMap_cons_none (h a b hf), List.length_cons]
          omega
      | none =>
          rw [List.filterMap_cons_none hf]
          have hg := List.length_filterMap_le g [a]
          have hsplit : (a :: rest).filterMap g = [a].filterMap g ++ rest.filterMap g :=
            List.filterMap_append (l := [a])
          rw [hsplit, List.length_append]
          rw [List.length_singleton] at hg
          omega

/-- The table of the names of RTCP packets. -/
def rtcpName (pt : Nat) : Text := (rtcpPtNames.lookup pt).getD (ptText pt)

/-- The counting part of the report on a readable capture of a known link type. -/
theorem analyzePcap_report (dpkt : Dpkt) (upper : Text → Text) (path : Text) {linktype : Nat}
    (known : (linktypeNames.lookup linktype).isSome = true) (bufs : List Bytes)
    (port : Option Int) (expected : Option (List Text)) :
    analyzePcap dpkt upper path (.capture linktype bufs none) port expected =
      .ok
        { path
          linktype := some linktype
          linktypeName := linktypeNames.lookup linktype
          totalPackets := bufs.length
          rtpFlows := flowsOf codecName (bufs.filterMap (frameKey dpkt linktype rtpKey))
          rtcpFlows := flowsOf rtcpName (bufs.filterMap (frameKey dpkt linktype rtcpKey))
          phoneRtpPort := port
          phoneRtpCodecsSeen := port.map fun port =>
            codecsSeen port (flowsOf codecName (bufs.filterMap (frameKey dpkt linktype rtpKey)))
          nonPhoneCodecsOnPhonePort := port.map fun port =>
            foreignCodecs upper
              (codecsSeen port (flowsOf codecName (bufs.filterMap (frameKey dpkt linktype rtpKey))))
              expected } := by
  have hknown : (linktypeNames.lookup linktype).isNone = false := by
    rw [Option.isNone_eq_false_iff]
    exact known
  rw [← filterMap_datagrams, ← filterMap_datagrams]
  simp only [analyzePcap, hknown, Bool.false_eq_true, if_false]
  cases port <;> rfl

/-- On every readable capture of a known link type each frame with an RTP packet is counted in one
RTP flow and each frame with an RTCP packet in one RTCP flow, no frame in both; the flows are
sorted, none is listed twice, and no order of the frames changes anything in the report. -/
theorem analyzePcap_flows (dpkt : Dpkt) (upper : Text → Text) (path : Text) {linktype : Nat}
    (known : (linktypeNames.lookup linktype).isSome = true) (bufs : List Bytes)
    (port : Option Int) (expected : Option (List Text)) :
    ∃ report,
      analyzePcap dpkt upper path (.capture linktype bufs none) port expected = .ok report ∧
      Counts report.rtpFlows (frameKey dpkt linktype rtpKey) bufs ∧
      Counts report.rtcpFlows (frameKey dpkt linktype rtcpKey) bufs ∧
      (∀ buf, frameKey dpkt linktype rtpKey buf = none ∨
        frameKey dpkt linktype rtcpKey buf = none) ∧
      (report.rtpFlows.map Flow.count).sum + (report.rtcpFlows.map Flow.count).sum ≤
        report.totalPackets ∧
      ∀ bufs', bufs.Perm bufs' →
        analyzePcap dpkt upper path (.capture linktype bufs' none) port expected =
          .ok report := by
  refine ⟨_, analyzePcap_report dpkt upper path known bufs port expected, counts_flowsOf _ _ _,
    counts_flowsOf _ _ _, fun buf => ?_, ?_, ?_⟩
  · cases hrtp : frameKey dpkt linktype rtpKey buf with
    | none => exact .inl rfl
    | some k => exact .inr (frameKey_rtcp_eq_none hrtp)
  · dsimp only
    rw [sum_count_flowsOf, sum_count_flowsOf]
    apply length_filterMap_add_le
    intro buf k
    exact frameKey_rtcp_eq_none
  · intro bufs' h
    have hrtp := flowsOf_perm codecName (h.filterMap (frameKey dpkt linktype rtpKey))
    have hrtcp := flowsOf_perm rtcpName (h.filterMap (frameKey dpkt linktype rtcpKey))
    rw [analyzePcap_report dpkt upper path known bufs', hrtp, hrtcp, h.length_eq]

/-- Two packets of one flow, and a frame that is no packet. -/
theorem analyzePcap_flows_digits :
    let bufs := [udpPacket digitPacket, [], udpPacket digitPacket]
    ∃ report,
      analyzePcap plainDpkt id [] (.capture 12 bufs none) (some 5004) none = .ok report ∧
      Counts report.rtpFlows (frameKey plainDpkt 12 rtpKey) bufs ∧
      (report.rtpFlows.map Flow.count).sum + (report.rtcpFlows.map Flow.count).sum ≤
        report.totalPackets ∧
      ∀ bufs', bufs.Perm bufs' →
        analyzePcap plainDpkt id [] (.capture 12 bufs' none) (some 5004) none = .ok report := by
  intro bufs
  have known : (linktypeNames.lookup 12).isSome = true := by decide
  obtain ⟨report, hreport, hrtp, -, -, hsum, hperm⟩ :=
    analyzePcap_flows plainDpkt id [] known bufs (some 5004) none
  exact ⟨report, hreport, hrtp, hsum, hperm⟩

end PjsuaMcp.Rtp
