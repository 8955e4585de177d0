import SupportApi.Api.Isolation

namespace SupportApi.Api

open Lib Auth

def Request.route : Request → RouteMetadata
  | .create _ _ _ => ⟨[.tenantAdmin, .agent], true⟩
  | .findAll _ => Roles [.superAdmin, .tenantAdmin, .agent]
  | .findOne _ => Roles [.superAdmin, .tenantAdmin, .agent]
  | .claim _ _ => Roles [.tenantAdmin, .agent]
  | .resolve _ _ _ => Roles [.tenantAdmin, .agent]
  | .topConversations _ => Roles [.superAdmin, .tenantAdmin]
  | .tenantStats _ => Roles [.superAdmin, .tenantAdmin]

inductive Guarded
  | signOut (now : Time)
  | users (request : Users.Request)
  | service (request : Request)

/-- `AuthController` has no `RolesGuard`. -/
def Guarded.route : Guarded → RouteMetadata
  | .signOut _ => Roles []
  | .users request => request.route
  | .service request => request.route

inductive Call
  | signUp (dto : SignUpDto) (id : Uuid) (passwordSalt tokenSalt : String) (now : Time)
  | signIn (order : AnyOrder UserRow) (dto : SignInDto) (salt : String) (now : Time)
  | refresh (token : Jwt) (salt : String) (now signedAt storedAt : Time)
  | guarded (token : Jwt) (now : Time) (request : Guarded)

inductive Body
  | issued (user : Option SafeUser) (tokens : Option TokenPair)
  | empty
  | users (response : Users.Response)
  | service (response : Response)

/-- The job of a resolve goes to the queue, not to the client. -/
def Response.sent : Response → Response
  | .resolved conv _ => .loaded conv
  | response => response

def answer {α : Type} (store : Store) (f : α → Body) :
    Except Exception (α × Database) → Except Exception Body × Store
  | .error e => (.error e, store)
  | .ok (a, db) => (.ok (f a), { store with db })

variable (env : Env)

def perform (store : Store) (user : User) : Guarded → Except Exception Body × Store
  | .signOut now => (.ok .empty, { store with db := Auth.signOut store.db user.id now })
  | .users request => answer store .users (Users.handle env.arrangement store.db user request)
  | .service request =>
    let reply := run env store user request
    (reply.1.map fun response => .service response.sent, reply.2)

def serve (store : Store) : Call → Except Exception Body × Store
  | .signUp dto id passwordSalt tokenSalt now =>
    answer store (fun reply => .issued (some reply.1) (some reply.2))
      (Auth.signUp env.auth store.db dto id passwordSalt tokenSalt now)
  | .signIn order dto salt now =>
    answer store (fun reply => .issued (some reply.1) (some reply.2))
      (Auth.signIn env.auth order store.db dto salt now)
  | .refresh token salt now signedAt storedAt =>
    answer store (fun tokens => .issued none (some tokens))
      (Auth.refresh env.auth store.db token salt now signedAt storedAt)
  | .guarded token now request =>
    match validateAccess env.auth store.db token now with
    | .error e => (.error e, store)
    | .ok user =>
      match request.route.canActivate (some user) with
      | .error e => (.error e, store)
      | .ok () => perform env store user request

/-- Whom the request's own authentication or password check lets in. -/
def Call.authenticate (db : Database) : Call → Except Exception (Option Uuid)
  | .signUp _ _ _ _ _ => .ok none
  | .signIn order dto _ _ => (Auth.authenticate env.auth order db dto).map fun user => some user.id
  | .refresh token _ now _ _ =>
    (validateRefresh env.auth db token now).map fun user => some user.id
  | .guarded token now _ => (validateAccess env.auth db token now).map fun user => some user.id

def Body.apartFromTokens : Body → Body
  | .issued user _ => .issued user none
  | body => body

/-- What the client is told, apart from tokens issued to it. -/
def Call.told (store : Store) (call : Call) : Except Exception Body :=
  (serve env store call).1.map Body.apartFromTokens

end SupportApi.Api
