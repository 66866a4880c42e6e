import PjsuaMcp.Calls.ActiveCounter
import PjsuaMcp.Calls.AutoAnswer
import PjsuaMcp.Calls.AutoCapture
import PjsuaMcp.Calls.CallIdIndex
import PjsuaMcp.Calls.CallReports
import PjsuaMcp.Calls.CallViews
import PjsuaMcp.Calls.FailedAdd
import PjsuaMcp.Calls.Frames
import PjsuaMcp.Calls.IncomingQueue
import PjsuaMcp.Calls.Isolation
import PjsuaMcp.Calls.Lifecycle
import PjsuaMcp.Calls.Mixer
import PjsuaMcp.Calls.PhoneParts
import PjsuaMcp.Calls.PlacedCalls
import PjsuaMcp.Calls.PlacedSettings
import PjsuaMcp.Calls.RecordingMachine
import PjsuaMcp.Calls.Recordings
import PjsuaMcp.Calls.Shutdown
import PjsuaMcp.Calls.System
import PjsuaMcp.Library.Matching
import PjsuaMcp.Library.Separated
import PjsuaMcp.Rtp.FlowReports
import PjsuaMcp.Rtp.LeakDetection
import PjsuaMcp.Scenario.ActionForms
import PjsuaMcp.Scenario.AttendedTransfer
import PjsuaMcp.Scenario.BusDelivery
import PjsuaMcp.Scenario.CodecOrder
import PjsuaMcp.Scenario.CodecPriorities
import PjsuaMcp.Scenario.FutureCompletion
import PjsuaMcp.Scenario.OnceHooks
import PjsuaMcp.Scenario.Preflight
import PjsuaMcp.Scenario.RunCleanup
import PjsuaMcp.Scenario.StopDecides
import PjsuaMcp.Sdp.AdmittedFormats
import PjsuaMcp.Sdp.CodecLoss
import PjsuaMcp.Sdp.Idempotence
import PjsuaMcp.Server.Artifacts
import PjsuaMcp.Server.AtomicLoad
import PjsuaMcp.Server.BoundTools
import PjsuaMcp.Server.ConcurrentLoads
import PjsuaMcp.Server.LoadedRoster
import PjsuaMcp.Server.RecordingNames
import PjsuaMcp.SipLog.Addresses
import PjsuaMcp.SipLog.IndexedEntries
import PjsuaMcp.SipLog.LogTools
import PjsuaMcp.SipLog.LogWriter
import PjsuaMcp.SipLog.Rendering
