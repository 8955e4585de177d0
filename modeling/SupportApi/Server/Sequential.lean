import Mathlib.Logic.Relation
import SupportApi.Api.Endpoints
import SupportApi.Server.Progress

namespace SupportApi.Server

open Lib Auth Conversations

def commandOf : Api.Guarded → Command
  | .signOut _ => .signOut
  | .users .users => .read .users
  | .users .agents => .read .agents
  | .users (.user id) => .read (.user id)
  | .users (.deactivateUser id _) => .deactivateUser id
  | .users (.createTenant dto _ _) => .createTenant dto
  | .users .tenants => .read .tenants
  | .users (.tenant id) => .read (.tenant id)
  | .users (.deactivateTenant id _) => .deactivateTenant id
  | .service (.create dto _ _) => .createConversation dto
  | .service (.findAll dto) => .read (.conversations dto)
  | .service (.findOne id) => .read (.conversation id)
  | .service (.claim id _) => .claim id
  | .service (.resolve id dto _) => .resolve id dto
  | .service (.topConversations moments) => .read (.topConversations moments)
  | .service (.tenantStats now) => .read (.tenantStats now)

def requestOf : Api.Call → Request
  | .signUp dto _ _ _ _ => .signUp dto
  | .signIn _ dto _ _ => .signIn dto
  | .refresh token _ _ _ _ => .refresh token
  | .guarded token _ request => .guarded token (commandOf request)

def conversationBody (saved : Option Conversation) :
    Conversations.Process → Option (Except Exception Api.Body)
  | .idle => saved.map fun conv => .ok (.service (.conversation conv))
  | .claim _ _ (.returned reply) => some (reply.map fun conv => .service (.conversation conv))
  | .resolve _ _ _ (.returned reply) => some (reply.map fun conv => .service (.loaded conv))
  | _ => none

/-- The request that the process has ended, and all that its client is told. -/
def State.answer (s : State) (p : Pid) : Option (Request × Except Exception Api.Body) :=
  match s.procs p with
  | .returned request reply => some (request, reply.body)
  | .handedOver token _ command saved =>
    (conversationBody saved (s.conversations.procs p)).map (Prod.mk (.guarded token command))
  | _ => none

variable {env : Auth.Env}

def Solo (env : Auth.Env) : Process × Database → Process × Database → Prop :=
  Relation.ReflTransGen fun x y => ∃ input, next env x.2 x.1 input = some y

theorem Solo.step {x y z : Process × Database} (input : Input)
    (h : next env x.2 x.1 input = some y) (hsolo : Solo env y z) : Solo env x z :=
  .head ⟨input, h⟩ hsolo

theorem Solo.run {x y : Process × Database} (h : Solo env x y) {s : State} {p : Pid}
    (hs : (s.procs p, s.db) = x) : ∃ as, (machine env).run s as = some ((s.set p y.1).store y.2) := by
  induction h using Relation.ReflTransGen.head_induction_on generalizing s with
  | refl =>
    subst hs
    refine ⟨[], congrArg some ?_⟩
    change s = ⟨s.conversations, Function.update s.procs p (s.procs p)⟩
    rw [Function.update_eq_self]
  | @head x z hstep _ ih =>
    obtain ⟨input, hnext⟩ := hstep
    subst hs
    have hmoves : (machine env).step s (.request p input) = some ((s.set p z.1).store z.2) :=
      Option.map_eq_some_iff.mpr ⟨z, hnext, rfl⟩
    obtain ⟨as, has⟩ := @ih ((s.set p z.1).store z.2) (by simp)
    refine ⟨.request p input :: as, Machine.run_cons_some.mpr ⟨_, hmoves, has.trans ?_⟩⟩
    simp [State.set, State.store, Conversations.State.store]

def SoloEnds (env : Auth.Env) (x : Process × Database) (request : Request)
    (r : Except Exception Api.Body × Database) : Prop :=
  ∃ reply, Solo env x (.returned request reply, r.2) ∧ reply.body = r.1

namespace SoloEnds

variable {request : Request}

theorem step {x : Process × Database} {r : Except Exception Api.Body × Database} (input : Input)
    (y : Process × Database) (h : next env x.2 x.1 input = some y)
    (hy : SoloEnds env y request r) : SoloEnds env x request r := by
  obtain ⟨reply, hsolo, hbody⟩ := hy
  exact ⟨reply, .step input h hsolo, hbody⟩

theorem returned (reply : Reply) (db : Database) :
    SoloEnds env (.returned request reply, db) request (reply.body, db) :=
  ⟨reply, .refl, rfl⟩

theorem refuses {x : Process × Database} (input : Input) (e : Exception)
    (h : next env x.2 x.1 input = some (.returned request (.refused e), x.2)) :
    SoloEnds env x request (.error e, x.2) :=
  .step input _ h (.returned (.refused e) x.2)

theorem issues {user : Principal} {tokens : TokenPair} {db : Database} (shown : Option SafeUser)
    (salt : String) (now : Time) :
    SoloEnds env (.issuing request user shown tokens, db) request (.ok (.issued shown (some tokens)),
      storeRefreshToken env db user.id tokens.refreshToken salt now) :=
  .step (.store salt now) _ rfl (.returned (.issued user shown tokens) _)

end SoloEnds

def outcome (env : Api.Env) (store : Api.Store) (call : Api.Call) :
    Except Exception Api.Body × Database :=
  ((Api.serve env store call).1, (Api.serve env store call).2.db)

section

variable {env : Api.Env} (store : Api.Store)

end

variable {s t u : State} {p : Pid}

structure Serves (env : Auth.Env) (p : Pid) (s t : State) (request : Request)
    (r : Except Exception Api.Body × Database) : Prop where
  run : ∃ as, (machine env).run s as = some t
  db : t.db = r.2
  answer : t.answer p = some (request, r.1)
  left : t.left p = 0
  others : ∀ q, q ≠ p → t.procs q = s.procs q ∧ t.conversations.procs q = s.conversations.procs q

theorem Serves.head {request : Request} {r : Except Exception Api.Body × Database} {input : Input}
    {proc : Process} (h : next env s.db (s.procs p) input = some (proc, s.db))
    (hserves : Serves env p (s.set p proc) t request r) : Serves env p s t request r := by
  obtain ⟨⟨as, has⟩, hdb, hanswer, hleft, hothers⟩ := hserves
  have hstep : (machine env).step s (.request p input) = some (s.set p proc) :=
    Option.map_eq_some_iff.mpr ⟨(proc, s.db), h, rfl⟩
  refine ⟨⟨.request p input :: as, Machine.run_cons_some.mpr ⟨_, hstep, has⟩⟩, hdb, hanswer,
    hleft, fun q hq => ?_⟩
  obtain ⟨hproc, hconv⟩ := hothers q hq
  exact ⟨hproc.trans (Function.update_of_ne hq ..), hconv⟩

theorem create_reply {db db' : Database} {dto : CreateConversationDto} {user : User} {id : Uuid}
    {now : Time} {conv : Conversation} (h : Conversations.create db dto user id now = .ok (conv, db')) :
    ∃ tenantId, user.tenantId = some tenantId ∧ conv = created dto tenantId id now := by
  unfold Conversations.create at h
  split at h
  · cases h
  · split at h <;> cases h
    exact ⟨_, ‹_›, rfl⟩

section

variable {env : Api.Env} {cache : Analytics.Cache}

def serveAll (env : Api.Env) (store : Api.Store) :
    List Api.Call → List (Except Exception Api.Body) × Api.Store
  | [] => ([], store)
  | call :: calls =>
    let served := Api.serve env store call
    let rest := serveAll env served.2 calls
    (served.1 :: rest.1, rest.2)

/-- The calls' requests, each with what its endpoint answers. -/
def answers (env : Api.Env) (store : Api.Store) (calls : List Api.Call) :
    List (Request × Except Exception Api.Body) :=
  (calls.map requestOf).zip (serveAll env store calls).1

end

end SupportApi.Server
