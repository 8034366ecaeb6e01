import CameraService.Lib.Transition
import CameraService.Sdk
import CameraService.Buffer
import CameraService.CameraDevice
import CameraService.DeviceStates
import CameraService.Listing
import CameraService.GrpcServer
import CameraService.ProviderSpec
import CameraService.Concurrent.System
import CameraService.Concurrent.Sections
import CameraService.Concurrent.Invariant
import CameraService.Concurrent.Shutdown
import CameraService.Concurrent.FirstUse
import CameraService.Concurrent.Records
import CameraService.Concurrent.Enumeration
import CameraService.Handlers
import CameraService.Pictures
import CameraService.HandleProtocol
import CameraService.Lifecycle
import CameraService.Concurrent.Images
import CameraService.Concurrent.Mutex
import CameraService.Concurrent.Solo
import CameraService.Encoding
import CameraService.Ownership
import CameraService.Requests
import CameraService.BuffStore
import CameraService.Payload
import CameraService.ArrayT
import CameraService.Lib.Respondents
import CameraService.Independence
import CameraService.Concurrent.Locking
import CameraService.Concurrent.Segments
import CameraService.BuffContents
import CameraService.BuffWrites
import CameraService.ArrayBounds
import CameraService.Spelling
import CameraService.Collation
import CameraService.HexDump
import CameraService.Metas
import CameraService.Config
import CameraService.HandleFamily
import CameraService.Concurrent.Handles
import CameraService.Concurrent.Termination
import CameraService.Concurrent.Program
import CameraService.Concurrent.Ending
import CameraService.Cmdline
import CameraService.CmdlineGrammar
import CameraService.CmdlineParse
import CameraService.Logs
import CameraService.Main
import CameraService.Lib.Wire
import CameraService.Messages
import CameraService.MessageFormat
import CameraService.MessageReading
import CameraService.MessageCalls
import CameraService.Replies
import CameraService.Lib.Ring
import CameraService.Spdlog.CircularQ
import CameraService.Lib.Monitor
import CameraService.Spdlog.ThreadPool
import CameraService.Spdlog.PoolInvariants
import CameraService.Spdlog.PoolOrder
import CameraService.Spdlog.PoolProgress
import CameraService.Lib.Slots
import CameraService.Spdlog.RotatingFile
import CameraService.Spdlog.RotatingLoss
import CameraService.Spdlog.RotatingKept
import CameraService.Spdlog.LogFiles
