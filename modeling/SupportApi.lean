import SupportApi.Lib.Machine
import SupportApi.Conversations.Service
import SupportApi.Conversations.Snapshots
import SupportApi.Conversations.Claims
import SupportApi.Conversations.Lifecycle
import SupportApi.Conversations.Resolves
import SupportApi.Conversations.Faults
import SupportApi.Auth.Jwt
import SupportApi.Auth.Service
import SupportApi.Auth.Rotation
import SupportApi.Lib.Linearize
import SupportApi.Auth.Concurrent
import SupportApi.Lib.SortedSet
import SupportApi.RateLimit.CheckLimit
import SupportApi.RateLimit.Window
import SupportApi.Auth.Guards
import SupportApi.Data.TenantPart
import SupportApi.Tenants.Service
import SupportApi.Users.Routes
import SupportApi.Analytics.Service
import SupportApi.Conversations.Alone
import SupportApi.Conversations.Staff
import SupportApi.Api.Machine
import SupportApi.Lib.TwoRun
import SupportApi.Conversations.Isolation
import SupportApi.Api.Isolation
import SupportApi.Conversations.Finished
import SupportApi.Conversations.Erasure
import SupportApi.RateLimit.Log
import SupportApi.Data.Evolution
import SupportApi.Server.Machine
import SupportApi.Server.Accounts
import SupportApi.Server.Lockout
import SupportApi.Server.TenantLockout
import SupportApi.Server.Registration
import SupportApi.Server.Assignees
import SupportApi.Conversations.Jobs
import SupportApi.Workers.Resolution
import SupportApi.Workers.Emails
import SupportApi.Analytics.Freshness
import SupportApi.Data.Credentials
import SupportApi.Conversations.Credentials
import SupportApi.Users.Credentials
import SupportApi.Auth.Credentials
import SupportApi.Api.Credentials
import SupportApi.Api.Disclosure
import SupportApi.Analytics.Transparency
import SupportApi.Lib.Sql
import SupportApi.Conversations.Views
import SupportApi.Conversations.Pages
import SupportApi.RateLimit.RetryAfter
import SupportApi.Analytics.Limiter
import SupportApi.Auth.RoundTrip
import SupportApi.Data.Uuid
import SupportApi.Users.Views
import SupportApi.Data.Seed
import SupportApi.Api.Bodies
import SupportApi.Lib.Address
import SupportApi.Lib.Html
import SupportApi.Workers.Structure
import SupportApi.Conversations.Progress
import SupportApi.Server.Progress
import SupportApi.Server.Sequential
import SupportApi.Server.Sessions
import SupportApi.Server.Erasure
import SupportApi.Conversations.Clock
import SupportApi.Lib.Slice
import SupportApi.RateLimit.Routes
import SupportApi.RateLimit.Patient
import SupportApi.Analytics.Agreement
import SupportApi.Lib.Top
import SupportApi.Analytics.Ranking
import SupportApi.Lib.Retains
import SupportApi.Conversations.Records
import SupportApi.Server.Records
import SupportApi.Lib.Load
import SupportApi.Data.Seeder
import SupportApi.Data.SeededTenants
import SupportApi.Data.SeededUsers
import SupportApi.Data.SeededRows
import SupportApi.Data.Seeding
import SupportApi.Data.Reseeding
import SupportApi.Conversations.Intact
