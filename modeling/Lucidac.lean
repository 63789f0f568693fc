import Lucidac.Framework.PagedMemory
import Lucidac.Framework.Program
import Lucidac.Framework.Script
import Lucidac.Framework.Latch
import Lucidac.Framework.Ring
import Lucidac.Framework.TicketQueue
import Lucidac.Framework.NorFlash
import Lucidac.Framework.Unwinding
import Lucidac.Framework.JsonText
import Lucidac.Framework.JsonRules
import Lucidac.Framework.JsonSerialize
import Lucidac.Framework.Lines
import Lucidac.Framework.Bits
import Lucidac.Framework.Arrivals
import Lucidac.Framework.Bytes
import Lucidac.Framework.Checked
import Lucidac.Framework.TextBuffer
import Lucidac.Utils.Status
import Lucidac.Utils.Json
import Lucidac.Utils.Base64
import Lucidac.Utils.Base64Encode
import Lucidac.Framework.Blocks
import Lucidac.Utils.Dcp
import Lucidac.Utils.StreamingJson
import Lucidac.Utils.Addresses
import Lucidac.Utils.Factorize
import Lucidac.Utils.FloatValue
import Lucidac.Utils.UUID
import Lucidac.Utils.SerialLines
import Lucidac.Entity.ResetAction
import Lucidac.Chips.AD5452
import Lucidac.Chips.EEPROM25AA02
import Lucidac.Chips.EEPROMReturns
import Lucidac.Chips.EEPROMRoundTrip
import Lucidac.Chips.EEPROMRuns
import Lucidac.Chips.EEPROMWrites
import Lucidac.Block.UBlock
import Lucidac.Block.UMatrix
import Lucidac.Block.UBlockConnect
import Lucidac.Block.UBlockReachable
import Lucidac.Block.UBlockRoundTrip
import Lucidac.Block.UBlockOutputs
import Lucidac.Block.UBlockScript
import Lucidac.Block.UBlockOrder
import Lucidac.Block.IBlockHal
import Lucidac.Block.IBlockMatrix
import Lucidac.Block.IBlock
import Lucidac.Block.IBlockUpscaling
import Lucidac.Block.IBlockConnect
import Lucidac.Block.IBlockReachable
import Lucidac.Block.IBlockOutputs
import Lucidac.Block.IBlockRoundTrip
import Lucidac.Block.IBlockOrder
import Lucidac.Block.AnythingConnected
import Lucidac.Block.CBlock
import Lucidac.Block.CBlockConfig
import Lucidac.Block.IndexedCalls
import Lucidac.Block.MBlock
import Lucidac.Block.MMulCalibration
import Lucidac.Block.CalibrationInStep
import Lucidac.Block.OffsetSearch
import Lucidac.Block.ObjectKeys
import Lucidac.Block.KeyNarrowing
import Lucidac.Block.KeyRejection
import Lucidac.Block.KeyRespected
import Lucidac.Block.SelectorBlocks
import Lucidac.Carrier.Cluster
import Lucidac.Carrier.ClusterRoutes
import Lucidac.Carrier.HardwareWrites
import Lucidac.Carrier.ClusterCalibration
import Lucidac.Carrier.RouteCalibration
import Lucidac.Daq.OneshotDAQ
import Lucidac.Daq.ContinuousDAQ
import Lucidac.Daq.RingPosition
import Lucidac.Daq.StreamCalls
import Lucidac.Daq.StreamOrder
import Lucidac.Daq.StreamCompleteness
import Lucidac.Daq.StreamIsolation
import Lucidac.Platform.FrontPanel
import Lucidac.Platform.Entities
import Lucidac.Platform.EntityLookup
import Lucidac.Platform.Config
import Lucidac.Platform.ConfigPaths
import Lucidac.Platform.NestedConfig
import Lucidac.Platform.Reset
import Lucidac.Platform.SelfRoundTrip
import Lucidac.Platform.AdcChannels
import Lucidac.Platform.Calibration
import Lucidac.Platform.CalibrationFrame
import Lucidac.Platform.AdcRuns
import Lucidac.Platform.Requests
import Lucidac.Platform.ConfigFrame
import Lucidac.Platform.AbsentBlocks
import Lucidac.Platform.UnsupportedRequests
import Lucidac.Run.RunManager
import Lucidac.Run.RunOrder
import Lucidac.Run.StopRun
import Lucidac.Run.TimingPlan
import Lucidac.Run.TraditionalRun
import Lucidac.Run.FlexioRun
import Lucidac.Run.ReportedTimes
import Lucidac.Mode.PerformanceCounter
import Lucidac.Mode.FlexIOControl
import Lucidac.Mode.FlexIOTimers
import Lucidac.Mode.OpTime
import Lucidac.Ota.Flash
import Lucidac.Ota.FlashMove
import Lucidac.Ota.FirmwareBuffer
import Lucidac.Ota.Flasher
import Lucidac.Ota.Upgrade
import Lucidac.Ota.UpgradeAbort
import Lucidac.Ota.Completion
import Lucidac.Plugin.PluginLoader
import Lucidac.Plugin.LoadSafety
import Lucidac.Net.Auth
import Lucidac.Net.LoginHistory
import Lucidac.Net.DeviceLock
import Lucidac.Net.Transports
import Lucidac.Net.Ethernet
import Lucidac.Protocol.HandleMessage
import Lucidac.Protocol.StreamingRunData
import Lucidac.Protocol.RunData
import Lucidac.Protocol.RunDataLines
import Lucidac.Protocol.StreamLogger
import Lucidac.Protocol.RingBuffer
import Lucidac.Protocol.JsonlServer
import Lucidac.Nvmconfig.Settings
import Lucidac.Nvmconfig.PersistentSettings
import Lucidac.Nvmconfig.UserDefined
import Lucidac.Websockets.Sending
import Lucidac.Websockets.Delivery
import Lucidac.Websockets.Conversation
import Lucidac.Websockets.Reassembly
import Lucidac.Websockets.Closing
import Lucidac.Websockets.Server
import Lucidac.Mode.StateMachine
import Lucidac.Framework.Interleaving
import Lucidac.Mode.ManualControl
import Lucidac.Mode.Interlock
import Lucidac.Web.Request
import Lucidac.Web.Reading
import Lucidac.Web.RequestLine
import Lucidac.Web.HeaderLines
import Lucidac.Web.RequestText
import Lucidac.Web.Response
import Lucidac.Web.Reply
import Lucidac.Web.Routes
import Lucidac.Web.Serving
import Lucidac.Web.Handshake
