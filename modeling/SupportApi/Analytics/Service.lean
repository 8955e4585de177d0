import SupportApi.Lib.OrderBy
import SupportApi.Data.Database

namespace SupportApi.Analytics

open Lib

structure TopConversationResult where
  conversationId : Uuid
  subject : String
  customerEmail : String
  tenantId : Uuid
  messageCount : Int
  lastActivityAt : Time
  deriving DecidableEq

structure CachedAnalyticsResult where
  data : List TopConversationResult
  cachedAt : Time
  expiresAt : Time
  tenantId : Option Uuid
  deriving DecidableEq

def CACHE_TTL_SECONDS : Int := 30 * 60

/-- A text in Redis, which need not parse, and the time it expires at. -/
structure CacheEntry where
  result : Option CachedAnalyticsResult
  expireAt : Time
  deriving DecidableEq

/-- The entries under `analytics:top_conversations:` followed by the tenant's id, or by
`null`. -/
abbrev Cache := Option Uuid → Option CacheEntry

/-- The parsed text under the key.  The time to live is taken as exact to the millisecond: at
`expireAt` itself the entry is gone, where Redis may still answer within that millisecond. -/
def Cache.get (cache : Cache) (key : Option Uuid) (now : Time) : Option CachedAnalyticsResult :=
  match cache key with
  | none => none
  | some entry => if entry.expireAt ≤ now then none else entry.result

def Cache.setex (cache : Cache) (key : Option Uuid) (seconds : Int) (result : CachedAnalyticsResult)
    (now : Time) : Cache :=
  Function.update cache key (some ⟨some result, now + seconds * 1000⟩)

def Cache.del (cache : Cache) (key : Option Uuid) : Cache := Function.update cache key none

theorem Cache.get_some {cache : Cache} {key : Option Uuid} {now : Time}
    {result : CachedAnalyticsResult} (h : cache.get key now = some result) :
    ∃ entry, cache key = some entry ∧ entry.result = some result ∧
      now < entry.expireAt := by
  unfold Cache.get at h
  split at h
  · cases h
  · split at h
    · cases h
    · exact ⟨_, ‹_›, h, Int.not_le.mp ‹_›⟩

/-- `NOW() - INTERVAL '30 days'`. -/
def thirtyDaysBefore (now : Time) : Time := now - 30 * 24 * 60 * 60 * 1000

/-- `WHERE tenant_id = $1 AND created_at >= NOW() - INTERVAL '30 days'`, the tenant only if
there is one. -/
def recent (tenantId : Option Uuid) (now : Time) (c : Conversation) : Bool :=
  tenantId.all (fun t => c.tenantId = t) && thirtyDaysBefore now ≤ c.createdAt

/-- The group of one conversation; the inner join leaves out one without messages. -/
def summary (db : Database) (c : Conversation) : Option TopConversationResult :=
  match db.messages.select fun m => m.conversationId = c.id with
  | [] => none
  | m :: ms =>
    some
      { conversationId := c.id
        subject := c.subject
        customerEmail := c.customerEmail
        tenantId := c.tenantId
        messageCount := (m :: ms).length
        lastActivityAt := ms.foldl (fun t m' => max t m'.createdAt) m.createdAt }

def aggregate (order : OrderBy (OrderBy.desc TopConversationResult.messageCount)) (db : Database)
    (tenantId : Option Uuid) (now : Time) : List TopConversationResult :=
  (order.sort ((db.conversations.select (recent tenantId now)).filterMap (summary db))).take 10

/-- The clock at each await, and whether Redis answers the read and the write. -/
structure Moments where
  readAt : Time
  queriedAt : Time
  cachedAt : Time
  storedAt : Time
  reads : Bool
  writes : Bool

def cachedResult (data : List TopConversationResult) (tenantId : Option Uuid) (cachedAt : Time) :
    CachedAnalyticsResult where
  data := data
  cachedAt := cachedAt
  expiresAt := cachedAt + CACHE_TTL_SECONDS * 1000
  tenantId := tenantId

def fresh (order : OrderBy (OrderBy.desc TopConversationResult.messageCount)) (db : Database)
    (tenantId : Option Uuid) (moments : Moments) : CachedAnalyticsResult where
  data := aggregate order db tenantId moments.queriedAt
  cachedAt := moments.cachedAt
  expiresAt := moments.cachedAt + CACHE_TTL_SECONDS * 1000
  tenantId := tenantId

def getTopActiveConversations
    (order : OrderBy (OrderBy.desc TopConversationResult.messageCount)) (db : Database)
    (cache : Cache) (user : User) (moments : Moments) : CachedAnalyticsResult × Cache :=
  let cached := if moments.reads then cache.get user.tenantId moments.readAt else none
  match cached with
  | some result => (result, cache)
  | none =>
    let result := fresh order db user.tenantId moments
    (result,
      if moments.writes then cache.setex user.tenantId CACHE_TTL_SECONDS result moments.storedAt
      else cache)

/-- `ROUND(AVG(hours), 2)` in PostgreSQL's decimal arithmetic, from the durations in
milliseconds to hundredths of an hour. -/
structure Averages where
  hours : List Int → Option Int

structure TenantStats where
  openCount : Nat
  pendingCount : Nat
  resolvedCount : Nat
  closedCount : Nat
  totalCount : Nat
  avgResolutionHours : Option Int
  deriving DecidableEq

def getTenantStats (averages : Averages) (db : Database) (tenantId : Option Uuid) (now : Time) :
    TenantStats :=
  let rows := db.conversations.select (recent tenantId now)
  let count (status : ConversationStatus) := (rows.filter fun c => c.status = status).length
  { openCount := count .opened
    pendingCount := count .pending
    resolvedCount := count .resolved
    closedCount := count .closed
    totalCount := rows.length
    avgResolutionHours :=
      averages.hours (rows.filterMap fun c => c.resolvedAt.map fun t => t - c.createdAt) }

end SupportApi.Analytics
