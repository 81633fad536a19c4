import PlatformService.Api.Account
import PlatformService.Api.Common
import PlatformService.Api.DerivedInts
import PlatformService.Api.Resources
import PlatformService.Api.Routes
import PlatformService.Api.Server
import PlatformService.Api.Sessions
import PlatformService.Api.System
import PlatformService.Api.Users
import PlatformService.Auth.Bootstrap
import PlatformService.Auth.Denylist
import PlatformService.Auth.Session
import PlatformService.Http.Conn
import PlatformService.Http.Cors
import PlatformService.Http.Request
import PlatformService.Http.Response
import PlatformService.Http.RouteCursors
import PlatformService.Http.Slices
import PlatformService.Http.Wire
import PlatformService.Json.Grammar
import PlatformService.Lib.Assoc
import PlatformService.Lib.Batches
import PlatformService.Lib.Bisect
import PlatformService.Lib.Doubling
import PlatformService.Lib.Fields
import PlatformService.Lib.Follow
import PlatformService.Lib.Interleave
import PlatformService.Lib.Layers
import PlatformService.Lib.Lease
import PlatformService.Lib.Lending
import PlatformService.Lib.Recall
import PlatformService.Lib.Relate
import PlatformService.Lib.Ring
import PlatformService.Lib.Stream
import PlatformService.Lib.TokenBucket
import PlatformService.Platform.Buf
import PlatformService.Platform.Config
import PlatformService.Platform.ConfigLoad
import PlatformService.Platform.DbPool
import PlatformService.Platform.Maintenance
import PlatformService.Platform.Net
import PlatformService.Platform.Ratelimit
import PlatformService.Platform.RatelimitSlots
import PlatformService.Platform.Shutdown
import PlatformService.Platform.Threadpool
import PlatformService.Store.SideBySide
import PlatformService.Store.Statements
import PlatformService.Store.Transaction
import PlatformService.Verif.Acceptance
import PlatformService.Verif.AccountChanges
import PlatformService.Verif.AccountSpecs
import PlatformService.Verif.Accountability
import PlatformService.Verif.Atomicity
import PlatformService.Verif.Authorization
import PlatformService.Verif.BufferedWriting
import PlatformService.Verif.Chunking
import PlatformService.Verif.Commits
import PlatformService.Verif.ConfigLines
import PlatformService.Verif.ConfigLoading
import PlatformService.Verif.Connections
import PlatformService.Verif.CorsHeaders
import PlatformService.Verif.CorsPolicy
import PlatformService.Verif.Credentials
import PlatformService.Verif.Denylist
import PlatformService.Verif.Deployment
import PlatformService.Verif.DerivedInts
import PlatformService.Verif.EmailPrivacy
import PlatformService.Verif.Enumeration
import PlatformService.Verif.Framing
import PlatformService.Verif.HandlerRuns
import PlatformService.Verif.HeaderLoop
import PlatformService.Verif.Identifiers
import PlatformService.Verif.Isolation
import PlatformService.Verif.Issuance
import PlatformService.Verif.JsonGrammar
import PlatformService.Verif.JsonInverse
import PlatformService.Verif.LeasedHandlers
import PlatformService.Verif.Lifecycle
import PlatformService.Verif.Lifetime
import PlatformService.Verif.Limiter
import PlatformService.Verif.LimiterBudget
import PlatformService.Verif.LimiterKeys
import PlatformService.Verif.LimiterMemory
import PlatformService.Verif.LiveLinks
import PlatformService.Verif.Lockout
import PlatformService.Verif.LockoutReference
import PlatformService.Verif.Normalization
import PlatformService.Verif.ObjectMembers
import PlatformService.Verif.Pagination
import PlatformService.Verif.PasswordFrame
import PlatformService.Verif.ReadBuffer
import PlatformService.Verif.RequestRoundTrip
import PlatformService.Verif.RequestText
import PlatformService.Verif.Resources
import PlatformService.Verif.ResponseRoundTrip
import PlatformService.Verif.Retention
import PlatformService.Verif.RetentionRuns
import PlatformService.Verif.Reuse
import PlatformService.Verif.ReuseReport
import PlatformService.Verif.Revocation
import PlatformService.Verif.Roster
import PlatformService.Verif.Rotation
import PlatformService.Verif.RotationLimit
import PlatformService.Verif.RouteSegments
import PlatformService.Verif.RouteTable
import PlatformService.Verif.SessionEffects
import PlatformService.Verif.SessionRuns
import PlatformService.Verif.SessionSpecs
import PlatformService.Verif.ShutdownOrder
import PlatformService.Verif.Slices
import PlatformService.Verif.StringDecoding
import PlatformService.Verif.SweepInvisible
import PlatformService.Verif.Sweeping
import PlatformService.Verif.Terminators
import PlatformService.Verif.ThreadpoolQueue
import PlatformService.Verif.Throttle
import PlatformService.Verif.UserInsertion
import PlatformService.Verif.Verification
import PlatformService.Verif.WholeFields
import PlatformService.Verif.Wire
import PlatformService.Verif.WorkerJoins
