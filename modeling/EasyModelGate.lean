import EasyModelGate.Lib.Run
import EasyModelGate.Lib.Coroutine
import EasyModelGate.Lib.Pool
import EasyModelGate.Lib.Framing
import EasyModelGate.Lib.Table
import EasyModelGate.Lib.Growth
import EasyModelGate.Lib.Renaming
import EasyModelGate.Lib.WallClock
import EasyModelGate.Lib.Gregorian
import EasyModelGate.Python.Text
import EasyModelGate.Python.Json
import EasyModelGate.Python.Clock
import EasyModelGate.Python.Datetime
import EasyModelGate.Core.Errors
import EasyModelGate.Core.Security
import EasyModelGate.Core.Ratelimit
import EasyModelGate.Core.Auth
import EasyModelGate.Core.AdminSession
import EasyModelGate.Db.Sql
import EasyModelGate.Db.Schema
import EasyModelGate.Db.Database
import EasyModelGate.Db.Connect
import EasyModelGate.Db.Dao
import EasyModelGate.Config
import EasyModelGate.Services.UserService
import EasyModelGate.Services.KeyService
import EasyModelGate.Services.RequestLogging
import EasyModelGate.Services.AdminAuthService
import EasyModelGate.Services.Analytics
import EasyModelGate.Services.UsageService
import EasyModelGate.Proxy.Headers
import EasyModelGate.Proxy.Sse
import EasyModelGate.Proxy.Relay
import EasyModelGate.Routers.AdminCommon
import EasyModelGate.Routers.AdminContext
import EasyModelGate.Routers.AdminUsers
import EasyModelGate.Routers.AdminKeys
import EasyModelGate.Routers.Admin
import EasyModelGate.Routers.AdminWeb
import EasyModelGate.Routers.AdminUsage
import EasyModelGate.Routers.AdminOverview
import EasyModelGate.Routers.AdminRequests
import EasyModelGate.Routers.Public
import EasyModelGate.Web.Javascript
import EasyModelGate.Web.Forms
import EasyModelGate.AdminServer
import EasyModelGate.Cli
import EasyModelGate.Lifecycle
import EasyModelGate.Gateway
import EasyModelGate.System
import EasyModelGate.Writers
import EasyModelGate.Processes
import EasyModelGate.Verify.Database
import EasyModelGate.Verify.Connect
import EasyModelGate.Verify.Config
import EasyModelGate.Verify.Auth
import EasyModelGate.Verify.Persist
import EasyModelGate.Verify.Json
import EasyModelGate.Verify.Sse
import EasyModelGate.Verify.Relay
import EasyModelGate.Verify.Gateway
import EasyModelGate.Verify.Slots
import EasyModelGate.Verify.Concurrency
import EasyModelGate.Verify.Logging
import EasyModelGate.Verify.Charge
import EasyModelGate.Verify.Transactions
import EasyModelGate.Verify.Services
import EasyModelGate.Verify.Processes
import EasyModelGate.Verify.Limits
import EasyModelGate.Verify.Credential
import EasyModelGate.Verify.AdminServer
import EasyModelGate.Verify.Csrf
import EasyModelGate.Verify.Sessions
import EasyModelGate.Verify.LoginLimiter
import EasyModelGate.Verify.Login
import EasyModelGate.Verify.Renaming
import EasyModelGate.Verify.Blindness
import EasyModelGate.Verify.Confinement
import EasyModelGate.Verify.History
import EasyModelGate.Verify.Lifecycle
import EasyModelGate.Verify.Deadline
import EasyModelGate.Verify.Transparency
import EasyModelGate.Verify.Stream
import EasyModelGate.Verify.Timing
import EasyModelGate.Verify.FastPath
import EasyModelGate.Verify.Payload
import EasyModelGate.Verify.Quota
import EasyModelGate.Verify.Analytics
import EasyModelGate.Verify.Summary
import EasyModelGate.Verify.AdminRun
import EasyModelGate.Verify.AdminInput
import EasyModelGate.Verify.Javascript
import EasyModelGate.Verify.Forms
import EasyModelGate.Verify.KeyForms
import EasyModelGate.Verify.Failure
import EasyModelGate.Verify.Datetime
import EasyModelGate.Verify.Periods
import EasyModelGate.Verify.Buckets
import EasyModelGate.Verify.Rollup
import EasyModelGate.Verify.Ratelimit
import EasyModelGate.Verify.Footprint
import EasyModelGate.Verify.Discipline
import EasyModelGate.Verify.Integrity
import EasyModelGate.Verify.System
import EasyModelGate.Verify.Durability
import EasyModelGate.Verify.Attribution
import EasyModelGate.Verify.SafeMethods
import EasyModelGate.Verify.UpstreamKey
import EasyModelGate.Verify.Authorization
import EasyModelGate.Verify.Admission
import EasyModelGate.Verify.Audit
import EasyModelGate.Verify.Solvency
import EasyModelGate.Verify.AdminAuthority
import EasyModelGate.Verify.Accounts
