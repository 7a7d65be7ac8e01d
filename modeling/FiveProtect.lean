import FiveProtect.Backend.Answered
import FiveProtect.Backend.BlockScreen
import FiveProtect.Backend.Changes
import FiveProtect.Backend.CompanionRoutes
import FiveProtect.Backend.Delivery
import FiveProtect.Backend.Deployment
import FiveProtect.Backend.GateSoundness
import FiveProtect.Backend.HeartbeatProtects
import FiveProtect.Backend.Isolation
import FiveProtect.Backend.Lapse
import FiveProtect.Backend.Migrations
import FiveProtect.Backend.Outcome
import FiveProtect.Backend.PendingLookup
import FiveProtect.Backend.Redemption
import FiveProtect.Backend.Remediation
import FiveProtect.Backend.Rows
import FiveProtect.Backend.SameAddress
import FiveProtect.Backend.ServerRoutes
import FiveProtect.Backend.Sessions
import FiveProtect.Backend.Stranded
import FiveProtect.Backend.System
import FiveProtect.Backend.Terminated
import FiveProtect.Backend.Turns
import FiveProtect.Backend.Types
import FiveProtect.Backend.Unhandled
import FiveProtect.Backend.VerdictOnce
import FiveProtect.Companion.AllowListed
import FiveProtect.Companion.Client
import FiveProtect.Companion.Engine
import FiveProtect.Companion.Evidence
import FiveProtect.Companion.HeartbeatSchedule
import FiveProtect.Companion.LoopTop
import FiveProtect.Companion.NonceShape
import FiveProtect.Companion.ProcessNames
import FiveProtect.Companion.ServerName
import FiveProtect.Companion.SigningPayload
import FiveProtect.Companion.Window
import FiveProtect.Lib.IsoTime
import FiveProtect.Lib.LuaPattern
import FiveProtect.Lib.Run
import FiveProtect.Lib.Table
import FiveProtect.Protocol.Agreement
import FiveProtect.Protocol.Cpp
import FiveProtect.Protocol.LuaCheck
import FiveProtect.Protocol.Messages
import FiveProtect.Protocol.Nesting
import FiveProtect.Protocol.ParsedTexts
import FiveProtect.Protocol.Portable
import FiveProtect.Protocol.Names
import FiveProtect.Protocol.RoundTrip
import FiveProtect.Protocol.Rust
import FiveProtect.Protocol.Schema
import FiveProtect.Protocol.Source
import FiveProtect.Protocol.Strict
import FiveProtect.Protocol.Zod
import FiveProtect.Resource.Admission
import FiveProtect.Resource.Endpoint
import FiveProtect.Resource.FailMode
import FiveProtect.Resource.GracePeriod
import FiveProtect.Resource.Http
import FiveProtect.Resource.KeyTransport
import FiveProtect.Resource.Lifecycle
import FiveProtect.Resource.PortSearch
import FiveProtect.Resource.StaleAnswer
import FiveProtect.Resource.Thread
import FiveProtect.Resource.VerdictOnWire
import FiveProtect.Resource.VerdictTimeout
import FiveProtect.Resource.Warned
