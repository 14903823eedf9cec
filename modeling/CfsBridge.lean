import CfsBridge.Bytes
import CfsBridge.Words
import CfsBridge.Ieee
import CfsBridge.RingBuffer
import CfsBridge.Runs
import CfsBridge.Python
import CfsBridge.CcsdsUtils
import CfsBridge.PrimaryHeader
import CfsBridge.CcsdsCodec
import CfsBridge.MissionRegistry
import CfsBridge.Dispatcher
import CfsBridge.Parser
import CfsBridge.Segments
import CfsBridge.EvsText
import CfsBridge.TelemetryReceiver
import CfsBridge.Processor
import CfsBridge.LongEvent
import CfsBridge.Cfe
import CfsBridge.Monitor
import CfsBridge.FlightApps
import CfsBridge.EndToEnd
import CfsBridge.Transitions
import CfsBridge.Lifecycle
import CfsBridge.Classification
import CfsBridge.Sensors
import CfsBridge.SendFailures
import CfsBridge.CommandHistory
import CfsBridge.Tickets
import CfsBridge.SharedDispatcher
import CfsBridge.Operators
import CfsBridge.OperatorAudit
import CfsBridge.SensorFdir
import CfsBridge.Bits
import CfsBridge.ChecksumBursts
import CfsBridge.RecentEntries
import CfsBridge.Windows
import CfsBridge.UiUtils
import CfsBridge.TypeFilter
import CfsBridge.Pagination
import CfsBridge.SolarStatus
import CfsBridge.SensorRuns
import CfsBridge.EnableOutput
import CfsBridge.Destination
import CfsBridge.Channels
import CfsBridge.BridgeApp
import CfsBridge.Rounding
import CfsBridge.RequestThresholds
import CfsBridge.Sources
import CfsBridge.Mission
import CfsBridge.MissionFlow
import CfsBridge.MissionRuns
import CfsBridge.Announcements
import CfsBridge.Fanout
import CfsBridge.Dashboard
import CfsBridge.Screens
import CfsBridge.Viewer
import CfsBridge.Dicts
import CfsBridge.SensorManager
