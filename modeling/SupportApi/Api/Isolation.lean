import SupportApi.Api.Machine
import SupportApi.Auth.Rotation
import SupportApi.Conversations.Isolation

namespace SupportApi.Api

open Lib Conversations

structure Store where
  db : Database
  cache : Analytics.Cache

def State.stored (s : State) : Store := ⟨s.db, s.cache⟩

inductive Request
  | create (dto : CreateConversationDto) (id : Uuid) (now : Time)
  | findAll (dto : ListConversationsDto)
  | findOne (id : Uuid)
  | claim (id : Uuid) (now : Time)
  | resolve (id : Uuid) (dto : ResolveConversationDto) (moments : Conversations.Moments)
  | topConversations (moments : Analytics.Moments)
  | tenantStats (now : Time)

inductive Response
  | conversation (conv : Conversation)
  | page (page : ConversationPage)
  | loaded (conv : LoadedConversation)
  | resolved (conv : LoadedConversation) (job : ResolutionJob)
  | topConversations (result : Analytics.CachedAnalyticsResult)
  | tenantStats (stats : Analytics.TenantStats)
  deriving DecidableEq

/-- The ids that PostgreSQL generates during the request are not in use. -/
def Request.Fresh (store : Store) : Request → Prop
  | .create _ id _ => store.db.conversations.find? id = none
  | .resolve _ _ moments => store.db.messages.find? moments.messageId = none
  | _ => True

def onDatabase {α : Type} (store : Store) (f : α → Response) (x : Except Exception α × Database) :
    Except Exception Response × Store :=
  (x.1.map f, { store with db := x.2 })

def run (env : Env) (store : Store) (user : User) : Request → Except Exception Response × Store
  | .create dto id now =>
    onDatabase store .conversation (createConversation store.db dto user id now)
  | .findAll dto => (.ok (.page (findAll env.conversations store.db dto user)), store)
  | .findOne id => ((findOne store.db id user).map .loaded, store)
  | .claim id now => onDatabase store .conversation (claimConversation store.db id user now)
  | .resolve id dto moments =>
    onDatabase store (fun reply => .resolved reply.1 reply.2)
      (resolveConversation store.db id user dto moments)
  | .topConversations moments =>
    let reply := Analytics.getTopActiveConversations env.top store.db store.cache user moments
    (.ok (.topConversations reply.1), { store with cache := reply.2 })
  | .tenantStats now =>
    (.ok (.tenantStats (Analytics.getTenantStats env.averages store.db user.tenantId now)), store)

theorem step_conversation (env : Env) {s : State} {a : Conversations.Action}
    {c : Conversations.State} {user : User} (hknown : Known s.db user)
    (ha : a.user? = none ∨ a.user? = some user) (hstep : Conversations.Step s.conversations a c) :
    (machine env).step s (.conversation a) = some { s with conversations := c } := by
  have hadmitted : ∀ u ∈ a.user?, Known s.db u := by
    intro u hu
    rcases ha with ha | ha
    · cases ha.symm.trans hu
    · cases ha.symm.trans hu
      exact hknown
  have hmapped : (Conversations.step s.conversations a).map
      (fun conversations => { s with conversations }) = some { s with conversations := c } :=
    Option.map_eq_some_iff.mpr ⟨c, step_iff.mpr hstep, rfl⟩
  exact (if_pos hadmitted).trans hmapped

theorem run_conversation (env : Env) {s : State} {c : Conversations.State} {user : User}
    (hknown : Known s.db user) (hruns : Runs user s.conversations c) :
    ∃ actions, (machine env).run s actions = some { s with conversations := c } := by
  obtain ⟨as, hrun, has⟩ := hruns
  induction as generalizing s with
  | nil =>
    cases hrun
    exact ⟨[], Machine.run_nil _⟩
  | cons a as ih =>
    obtain ⟨c', hstep, hrest⟩ := Machine.run_cons_some.mp hrun
    obtain ⟨ha, has⟩ := List.forall_mem_cons.mp has
    have hstep' := step_iff.mp hstep
    let next : State := { s with conversations := c' }
    have hnext : Known next.db user := by
      obtain ⟨u, hfind, hu⟩ := hknown
      refine ⟨u, ?_, hu⟩
      rw [State.db, hstep'.users]
      exact hfind
    obtain ⟨actions, hactions⟩ := ih hnext hrest has
    exact ⟨.conversation a :: actions,
      Machine.run_cons_some.mpr ⟨next, step_conversation env hknown ha hstep', hactions⟩⟩

theorem Reachable.extend {env : Env} {s t : State} (hs : Reachable env s) {actions : List Action}
    (hrun : (machine env).run s actions = some t) : Reachable env t := by
  obtain ⟨before, hbefore⟩ := hs
  exact ⟨before ++ actions, by rw [Machine.run_append, hbefore, Option.bind_some, hrun]⟩

theorem Reachable.step {env : Env} {s t : State} (hs : Reachable env s) {a : Action}
    (hstep : (machine env).step s a = some t) : Reachable env t := by
  have hrun : (machine env).run s [a] = some t :=
    Machine.run_cons_some.mpr ⟨t, hstep, Machine.run_nil t⟩
  exact hs.extend hrun

def Request.locks : Request → Option Uuid
  | .claim id _ => some id
  | .resolve id _ _ => some id
  | _ => none

theorem Reachable.run {env : Env} {s : State} (hs : Reachable env s) {user : User}
    (hknown : Known s.db user) {p : Pid} (hidle : s.conversations.procs p = .idle)
    (request : Request) (hlocks : ∀ id, request.locks = some id → s.conversations.lock id = none) :
    ∃ t, Reachable env t ∧ t.stored = (run env s.stored user request).2 := by
  cases request with
  | create dto id now =>
    cases hcreate : Conversations.create s.db dto user id now with
    | error e =>
      refine ⟨s, hs, ?_⟩
      simp [Api.run, onDatabase, createConversation, State.stored, hcreate]
    | ok reply =>
      have hstep := step_conversation env hknown (.inr rfl) (.create hcreate)
      refine ⟨_, hs.step hstep, ?_⟩
      simp only [Api.run, onDatabase, createConversation, State.stored, hcreate]
      rfl
  | claim id now =>
    obtain ⟨c, hruns, hends⟩ := claimConversation_run user now hidle (hlocks id rfl)
    obtain ⟨actions, hrun⟩ := run_conversation env hknown hruns
    refine ⟨_, hs.extend hrun, ?_⟩
    simp [Api.run, onDatabase, State.stored, State.db, hends.db]
  | resolve id dto moments =>
    obtain ⟨c, hruns, hends⟩ := resolveConversation_run user dto moments hidle (hlocks id rfl)
    obtain ⟨actions, hrun⟩ := run_conversation env hknown hruns
    refine ⟨_, hs.extend hrun, ?_⟩
    simp [Api.run, onDatabase, State.stored, State.db, hends.db]
  | topConversations moments =>
    have hstep : (machine env).step s (.topConversations user moments) = some _ := if_pos hknown
    refine ⟨_, hs.step hstep, ?_⟩
    simp [Api.run, State.stored, State.db]
  | findAll dto => exact ⟨s, hs, rfl⟩
  | findOne id => exact ⟨s, hs, rfl⟩
  | tenantStats now => exact ⟨s, hs, rfl⟩

/-- The same row, users, conversations, messages and cache entry of tenant `t`. -/
structure Agree (t : Uuid) (store store' : Store) : Prop where
  part : store.db.SamePart t store'.db
  cache : store.cache (some t) = store'.cache (some t)

/-- What belongs to other tenants, or to none, is the same before and after. -/
structure Untouched (t : Uuid) (before after : Store) : Prop where
  rest : before.db.SameRest t after.db
  cache : ∀ key, key ≠ some t → after.cache key = before.cache key

def own (t : Uuid) : View Store where
  Agree := Agree t
  Untouched := Untouched t
  refl _ := ⟨.rfl, fun _ _ => rfl⟩
  trans h h' := ⟨h.rest.trans h'.rest, fun key hkey => (h'.cache key hkey).trans (h.cache key hkey)⟩

variable {t : Uuid} {store store' : Store} {user : User}

theorem onDatabase_isolates {α : Type} (h : Agree t store store') (f : α → Response)
    {x x' : Except Exception α × Database}
    (hdb : (part t).Isolates store.db store'.db x x') :
    (own t).Isolates store store' (onDatabase store f x) (onDatabase store' f x') where
  result := congrArg (Except.map f) hdb.result
  agree := ⟨hdb.agree, h.cache⟩
  untouched := ⟨hdb.untouched, fun _ _ => rfl⟩
  untouched' := ⟨hdb.untouched', fun _ _ => rfl⟩

theorem recent_own {now : Time} {c : Conversation}
    (hrecent : Analytics.recent (some t) now c = true) : c.tenantId = t := by
  simp only [Analytics.recent, Option.all_some, Bool.and_eq_true, decide_eq_true_eq] at hrecent
  exact hrecent.1

theorem summary_congr {db db' : Database} (h : db.SamePart t db') {c : Conversation}
    (hfind : db.conversations.find? c.id = some c) (hc : c.tenantId = t) :
    Analytics.summary db c = Analytics.summary db' c := by
  rw [Analytics.summary, Analytics.summary, h.select_messages hfind hc]

theorem aggregate_congr {db db' : Database} (h : db.SamePart t db')
    (order : OrderBy (OrderBy.desc Analytics.TopConversationResult.messageCount)) (now : Time) :
    Analytics.aggregate order db (some t) now = Analytics.aggregate order db' (some t) now := by
  have hselect := h.select fun c (hc : Analytics.recent (some t) now c = true) => recent_own hc
  have hsummaries : (db.conversations.select (Analytics.recent (some t) now)).filterMap
        (Analytics.summary db) =
      (db.conversations.select (Analytics.recent (some t) now)).filterMap
        (Analytics.summary db') := by
    apply List.filterMap_congr
    intro c hc
    obtain ⟨hmem, hrecent⟩ := List.mem_filter.mp hc
    exact summary_congr h (Table.find?_self hmem) (recent_own hrecent)
  rw [Analytics.aggregate, Analytics.aggregate, hsummaries, hselect]

theorem topConversations_isolates (h : Agree t store store') (htenant : user.tenantId = some t)
    (env : Env) (moments : Analytics.Moments) :
    (own t).Isolates store store' (run env store user (.topConversations moments))
      (run env store' user (.topConversations moments)) := by
  have hfresh : Analytics.fresh env.top store.db (some t) moments =
      Analytics.fresh env.top store'.db (some t) moments := by
    rw [Analytics.fresh, Analytics.fresh, aggregate_congr h.part]
  have hget : ∀ now, store.cache.get (some t) now = store'.cache.get (some t) now := by
    intro now
    rw [Analytics.Cache.get, Analytics.Cache.get, h.cache]
  simp only [run, Analytics.getTopActiveConversations, htenant, hget, hfresh]
  split
  · exact .pure h _
  · by_cases hwrites : moments.writes = true
    · simp only [if_pos hwrites]
      refine ⟨rfl, ⟨h.part, ?_⟩, ⟨.rfl, ?_⟩, ⟨.rfl, ?_⟩⟩
      · simp only [Analytics.Cache.setex, Function.update_self]
      · exact fun key hkey => Function.update_of_ne hkey _ _
      · exact fun key hkey => Function.update_of_ne hkey _ _
    · simp only [if_neg hwrites]
      exact .pure h _

theorem tenantStats_congr {db db' : Database} (h : db.SamePart t db')
    (averages : Analytics.Averages) (now : Time) :
    Analytics.getTenantStats averages db (some t) now =
      Analytics.getTenantStats averages db' (some t) now := by
  have hselect := h.select fun c (hc : Analytics.recent (some t) now c = true) => recent_own hc
  simp only [Analytics.getTenantStats, hselect]

theorem run_isolates (h : Agree t store store') (hplaced : Placed store.db)
    (htenant : user.tenantId = some t) (hknown : Known store.db user) (env : Env)
    {request : Request} (hfresh : request.Fresh store) (hfresh' : request.Fresh store') :
    (own t).Isolates store store' (run env store user request) (run env store' user request) := by
  cases request with
  | create dto id now =>
    exact onDatabase_isolates h _
      (createConversation_isolates h.part htenant dto now hfresh hfresh')
  | findAll dto =>
    simp only [run, findAll_congr h.part hplaced htenant]
    exact .pure h _
  | findOne id =>
    simp only [run, findOne_congr h.part hplaced htenant]
    exact .pure h _
  | claim id now =>
    obtain ⟨u, hfind, -, hu⟩ := hknown
    have huser : (store.db.users.find? user.id).isSome := by rw [hfind]; rfl
    have huser' : (store'.db.users.find? user.id).isSome := by
      rw [h.part.toSameUsers.find?_some hfind (hu.trans htenant)]
      rfl
    exact onDatabase_isolates h _ (claimConversation_isolates h.part htenant huser huser' id now)
  | resolve id dto moments =>
    exact onDatabase_isolates h _
      (resolveConversation_isolates h.part hplaced htenant id dto hfresh hfresh')
  | topConversations moments => exact topConversations_isolates h htenant env moments
  | tenantStats now =>
    simp only [run, htenant, tenantStats_congr h.part]
    exact .pure h _

/-- A user who is no SuperAdmin has a tenant, and a request of theirs has the same result on
every store that agrees with a reachable one on that tenant's part. -/
theorem tenant_isolation {env : Env} {s : State} (hs : Reachable env s) {user : User}
    (hknown : Known s.db user) (hrole : user.role ≠ .superAdmin) :
    ∃ t, user.tenantId = some t ∧ ∀ (store : Store) (request : Request),
      Agree t s.stored store → request.Fresh s.stored → request.Fresh store →
      (own t).Isolates s.stored store (run env s.stored user request)
        (run env store user request) := by
  have hsound := hs.sound
  obtain ⟨u, hfind, hurole, hutenant⟩ := hknown
  obtain ⟨t, ht⟩ := Option.isSome_iff_exists.mp (hsound.tenanted _ u hfind (hurole ▸ hrole))
  have htenant : user.tenantId = some t := hutenant.symm.trans ht
  refine ⟨t, htenant, fun store request hagree hfresh hfresh' => ?_⟩
  exact run_isolates hagree hsound.staffed.rows htenant ⟨u, hfind, hurole, hutenant⟩ env hfresh hfresh'

namespace Sample

def env : Env where
  auth := Auth.Sample.environment
  arrangement := Users.Sample.inTableOrder
  conversations := .stable _
  top := .stable _
  averages := ⟨fun ds =>
    if ds = [] then none
    else some ((2 * ds.foldl (· + ·) 0 + 36000 * ds.length) / (72000 * ds.length))⟩

def root : User := (Auth.newUser env.auth Auth.Sample.signUp none Auth.Sample.user "" 0).toUser

def acme : Uuid := ⟨1⟩

def agentDto : Auth.SignUpDto where
  firstName := "Kim"
  lastName := "Doe"
  email := "kim@acme.test"
  password := "SecurePass123!"
  role := none
  tenantId := some "00000000-0000-0000-0000-000000000001"

def agent : User := (Auth.newUser env.auth agentDto (some acme) ⟨2⟩ "" 0).toUser

def opening : List Action :=
  [.signUpLookup 0 Auth.Sample.signUp, .signUpInsert 0 Auth.Sample.user "" 0,
    .manage root (.createTenant ⟨"Acme", "acme", none⟩ acme 0),
    .signUpLookup 0 agentDto, .signUpInsert 0 ⟨2⟩ "" 0,
    .conversation (.create agent Conversations.Sample.dto Conversations.Sample.conversation 0)]

def joining : List Action :=
  opening ++ [.manage root (.createTenant ⟨"Globex", "globex", none⟩ ⟨3⟩ 0)]

def state (actions : List Action) : State := ((machine env).run .start actions).getD .start

theorem reachable {actions : List Action} (h : ((machine env).run .start actions).isSome) :
    Reachable env (state actions) := by
  obtain ⟨s, hrun⟩ := Option.isSome_iff_exists.mp h
  refine ⟨actions, ?_⟩
  rw [state, hrun, Option.getD_some]

theorem agree : Agree acme (state opening).stored (state joining).stored where
  part :=
    { tenant := by decide +kernel
      users := by decide +kernel
      conversations := by decide +kernel
      messages := by decide +kernel }
  cache := by decide +kernel

end Sample

theorem tenant_isolation_claim :
    (own Sample.acme).Isolates (Sample.state Sample.opening).stored
      (Sample.state Sample.joining).stored
      (run Sample.env (Sample.state Sample.opening).stored Sample.agent
        (.claim Conversations.Sample.conversation 5))
      (run Sample.env (Sample.state Sample.joining).stored Sample.agent
        (.claim Conversations.Sample.conversation 5)) := by
  have hopening : Reachable Sample.env (Sample.state Sample.opening) :=
    Sample.reachable (by decide +kernel)
  have hknown : Known (Sample.state Sample.opening).db Sample.agent := by decide +kernel
  obtain ⟨t, ht, hisolates⟩ := tenant_isolation hopening hknown (by decide)
  obtain rfl : Sample.acme = t := Option.some.inj ht
  exact hisolates (Sample.state Sample.joining).stored _ Sample.agree trivial trivial

end SupportApi.Api
