import PjsuaMcp.Calls.Manager
import Mathlib.Logic.Function.Iterate

/-!
# Automatic capture: the toggle and the drain of the two queues

`process_auto_captures` empties the start queue and then the stop queue. It
leaves the event loop at two places: while a tcpdump is being launched, and
while one is terminating. The process table is written after the first await
and before the second.
-/

namespace PjsuaMcp.Calls

open Library

namespace Sys

/-- `set_capture_enabled`; an unknown phone raises. -/
def setCaptureEnabled (s : Sys) (p : PhoneId) (enabled : Bool) : Sys :=
  match s.phones.get? p with
  | none => s
  | some cfg =>
      let s := { s with phones := s.phones.set p { cfg with captureEnabled := enabled } }
      if enabled then
        if 0 < s.activeCount p ∧ s.isPhoneCapturing p = false then
          let activeCid := (s.callPhone.entries.find? fun e => e.2 = p).map Prod.fst
          { s with autoCapturePendingStart := s.autoCapturePendingStart ++ [(p, activeCid)] }
        else s
      else s.queueStopIfCapturing p

/-- The second `while` loop, up to its next await. -/
def drainStops (s : Sys) : List PhoneId → Sys
  | [] => { s with autoCapturePendingStop := [], drain := .idle }
  | p :: rest =>
      if s.isPhoneCapturing p then
        { s with
          autoCapturePendingStop := rest
          phoneProcesses := s.phoneProcesses.pop p
          drain := .stopping p }
      else s.drainStops rest

/-- The first `while` loop, up to its next await, running on into the second. -/
def drainStarts (s : Sys) : List (PhoneId × Option CallId) → Sys
  | [] => { s with autoCapturePendingStart := [] }.drainStops s.autoCapturePendingStop
  | (p, c) :: rest =>
      if s.isPhoneCapturing p then s.drainStarts rest
      else { s with autoCapturePendingStart := rest, drain := .starting p c }

/-- `process_auto_captures` up to its first await. -/
def processAutoCaptures (s : Sys) : Sys := s.drainStarts s.autoCapturePendingStart

/-- The capture file of `start_for_phone`. -/
def captureFile (p : PhoneId) (c : Option CallId) (stamp : String) : String :=
  match c with
  | some c => "/captures/" ++ p ++ "/call_" ++ toString c ++ "_" ++ stamp ++ ".pcap"
  | none => "/captures/" ++ p ++ "/capture_" ++ stamp ++ ".pcap"

/-- The awaited start or stop completes and the loops go on. -/
def resumeAutoCaptures (s : Sys) (stamp : String) : Sys :=
  match s.drain with
  | .idle => s
  | .starting p c =>
      let capture : PhoneCapture := ⟨captureFile p c stamp, c, stamp⟩
      let s := { s with phoneProcesses := s.phoneProcesses.set p capture }
      s.drainStarts s.autoCapturePendingStart
  | .stopping _ => s.drainStops s.autoCapturePendingStop

/-- `process_auto_captures` run from start to end with no event at its awaits. Every
resumption takes at least one item off a queue, so this many are enough. -/
def drainAll (s : Sys) (stamp : String) : Sys :=
  (fun s => s.resumeAutoCaptures stamp)^[
    s.autoCapturePendingStart.length + s.autoCapturePendingStop.length] s.processAutoCaptures

end Sys

end PjsuaMcp.Calls
