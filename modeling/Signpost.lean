import Signpost.Lib.Memory
import Signpost.Lib.Mix
import Signpost.Lib.Base64
import Signpost.Lib.Utf16
import Signpost.Lib.Json
import Signpost.Lib.Run
import Signpost.Lib.Ring
import Signpost.Lib.Channel
import Signpost.Lib.History
import Signpost.Lib.Deal
import Signpost.Lib.Chunks
import Signpost.Lib.Server
import Signpost.Lib.Shares
import Signpost.Lib.Loop
import Signpost.Lib.Zigzag
import Signpost.Lib.Crc
import Signpost.Lib.Recovery
import Signpost.Lib.Slip
import Signpost.Packet
import Signpost.Send
import Signpost.GetMessage
import Signpost.Reassembly
import Signpost.Bounds
import Signpost.Bus
import Signpost.Abort
import Signpost.Protocol
import Signpost.Chars
import Signpost.App
import Signpost.Modules
import Signpost.Auth
import Signpost.Async
import Signpost.Api
import Signpost.Calls
import Signpost.Matching
import Signpost.Dispatch
import Signpost.Reply
import Signpost.Storage
import Signpost.StorageMaster
import Signpost.StorageLog
import Signpost.StorageRequests
import Signpost.StorageDelete
import Signpost.RadioQueue
import Signpost.Radio
import Signpost.RadioHistory
import Signpost.RadioBatch
import Signpost.RadioFifo
import Signpost.RadioBle
import Signpost.Uplink
import Signpost.HttpBatch
import Signpost.Publish
import Signpost.Delivery
import Signpost.StopAndWait
import Signpost.Duplicates
import Signpost.Downlink
import Signpost.DownlinkForms
import Signpost.Controller
import Signpost.ControllerSteps
import Signpost.ControllerPower
import Signpost.ControllerIsolation
import Signpost.ControllerGrants
import Signpost.Registration
import Signpost.Subscribe
import Signpost.Handlers
import Signpost.RecvCallback
import Signpost.ControllerDownlink
import Signpost.RadioDownlink
import Signpost.StateReply
import Signpost.ModuleName
import Signpost.Declare
import Signpost.Initialization
import Signpost.InitializationAddress
import Signpost.InitializationIsolation
import Signpost.EnergyPolicy
import Signpost.EnergySpill
import Signpost.EnergyUpdate
import Signpost.EnergyAllotment
import Signpost.EnergyReports
import Signpost.EnergyTimes
import Signpost.EnergyTimers
import Signpost.EnergyHandlers
import Signpost.EnergyWarnings
import Signpost.EnergyReportMessage
import Signpost.RadioReport
import Signpost.RadioShares
import Signpost.Lib.BigEndian
import Signpost.GpsConsole
import Signpost.GpsConsoleRuns
import Signpost.MbedPort
import Signpost.SlaveRead
import Signpost.PythonStack
import Signpost.EnergyPacket
import Signpost.RadioStatus
import Signpost.Answers
import Signpost.EnergyQuery
import Signpost.StorageResult
import Signpost.StateReplacement
import Signpost.Minmea
import Signpost.AtCommand
import Signpost.Xdot
import Signpost.SaraFile
import Signpost.KeyExchange
import Signpost.GpsParse
import Signpost.GpsDegrees
import Signpost.MetadataTagger
import Signpost.Processing
import Signpost.MotionFrequency
import Signpost.MicrowaveRadar
import Signpost.AppWatchdog
import Signpost.Lib.Cells
import Signpost.Lib.TruncatedMean
import Signpost.SpectrumScanner
import Signpost.Crc16
import Signpost.ComSlip
import Signpost.EnergyRecovery
import Signpost.ControllerWatchdog
import Signpost.RegistrationAgreement
import Signpost.DownlinkPath
import Signpost.Lib.Calendar
import Signpost.TimeLocation
import Signpost.UplinkPath
import Signpost.Lib.Rounds
import Signpost.SoftwareWatchdog
import Signpost.NmeaSentence
import Signpost.GpsReception
