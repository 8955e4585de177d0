import SupportApi.Api.Credentials

namespace SupportApi.Api

open Lib Auth Conversations

/-- The whole rows of users in a body. -/
def Body.rows : Body → List User
  | .users response => response.rows
  | .service (.loaded conv) => conv.assignedAgent.toList
  | _ => []

theorem Body.SameButTokens.eq {body body' : Body} (h : body.SameButTokens body')
    (hrows : body.rows = []) : body' = body := by
  cases h with
  | same => rfl
  | users hresponse => rw [hresponse.eq hrows]
  | @loaded conv conv' hconv =>
    have hnone : conv.assignedAgent = none := Option.toList_eq_nil_iff.mp hrows
    have hsame : conv'.withoutToken = conv.withoutToken := hconv
    have hnone' : conv'.assignedAgent = none := by
      have hagent := congrArg LoadedConversation.assignedAgent hsame
      simpa [LoadedConversation.withoutToken, hnone] using hagent
    have hself : ∀ loaded : LoadedConversation, loaded.assignedAgent = none →
        loaded.withoutToken = loaded := by
      intro loaded hloaded
      rw [LoadedConversation.withoutToken, hloaded, Option.map_none, ← hloaded]
    rw [hself conv hnone, hself conv' hnone'] at hsame
    rw [hsame]

theorem Body.rows_apartFromTokens (body : Body) : body.apartFromTokens.rows = body.rows := by
  cases body <;> rfl

structure ReadsAssignee (db : Database) (id : Uuid) (user : User) (conv : Conversation)
    (row : UserRow) : Prop where
  reads : selectConversation db id user = some conv
  assignee : conv.assignedAgentId = some row.id
  found : db.users.find? row.id = some row
  own : user.role = .agent → row.id = user.id

def Request.Selects (db : Database) (user : User) (row : UserRow) : Request → Prop
  | .findOne id => ∃ conv, ReadsAssignee db id user conv row
  | .resolve id dto moments =>
    ∃ conv, ReadsAssignee db id user conv row ∧ conv.status ≠ .resolved ∧
      AdmitsNote db dto moments
  | _ => False

def Guarded.Selects (db : Database) (user : User) (row : UserRow) : Guarded → Prop
  | .signOut _ => False
  | .users request => request.Selects db user row
  | .service request => request.Selects db user row

/-- The guards let the request in, and its response contains the row of a user. -/
def Call.Exposes (env : Env) (store : Store) : Call → Prop
  | .guarded token now request =>
    ∃ user row, validateAccess env.auth store.db token now = .ok user ∧
      request.route.canActivate (some user) = .ok () ∧ request.Selects store.db user row
  | _ => False

section

variable {env : Env} {store : Store} {db : Database} {user : User} {id : Uuid} {conv : Conversation}

theorem ReadsAssignee.findOne {row : UserRow} (h : ReadsAssignee db id user conv row) :
    Conversations.findOne db id user = .ok (Conversations.load db conv) := by
  refine findOne_ok_iff.mpr ⟨conv, h.reads, ?_, rfl⟩
  rintro ⟨hrole, -, hforeign⟩
  exact hforeign (h.assignee.trans (congrArg some (h.own hrole)))

theorem ReadsAssignee.load {row : UserRow} (h : ReadsAssignee db id user conv row) :
    (Conversations.load db conv).assignedAgent = some row.toUser :=
  load_assignedAgent.mpr ⟨row, h.assignee, h.found, rfl⟩

theorem exists_readsAssignee (hload : Conversations.findOne db id user = .ok (load db conv))
    (hconv : selectConversation db id user = some conv) {u : User}
    (hu : (load db conv).assignedAgent = some u) :
    ∃ row, ReadsAssignee db id user conv row ∧ row.toUser = u := by
  obtain ⟨row, hassignee, hrow, rfl⟩ := load_assignedAgent.mp hu
  refine ⟨row, ⟨hconv, hassignee, hrow, ?_⟩, rfl⟩
  intro hrole
  by_contra hforeign
  obtain ⟨conv', hconv', hagent, -⟩ := findOne_ok_iff.mp hload
  cases hconv.symm.trans hconv'
  apply hagent
  simpa [hassignee] using And.intro hrole hforeign

theorem selects_of_perform {request : Guarded} {body : Body}
    (hbody : (perform env store user request).1 = .ok body) {u : User} (hu : u ∈ body.rows) :
    ∃ row, request.Selects store.db user row ∧ row.id = u.id ∧
      row.refreshToken = u.refreshToken := by
  cases request with
  | signOut now =>
    cases hbody
    cases hu
  | users request =>
    simp only [perform] at hbody
    cases hreply : Users.handle env.arrangement store.db user request with
    | error e =>
      rw [hreply] at hbody
      cases hbody
    | ok reply =>
      rw [hreply] at hbody
      cases hbody
      exact Users.selects_of_handle hreply hu
  | service request =>
    obtain ⟨response, hresponse, rfl⟩ := map_ok hbody
    cases request with
    | findOne id =>
      obtain ⟨loaded, hload, rfl⟩ := map_ok hresponse
      obtain ⟨conv, hconv, -, rfl⟩ := findOne_ok_iff.mp hload
      obtain ⟨row, hrow, rfl⟩ := exists_readsAssignee hload hconv (Option.mem_toList.mp hu)
      exact ⟨row, ⟨conv, hrow⟩, rfl, rfl⟩
    | resolve id dto moments =>
      obtain ⟨reply, hreply, rfl⟩ := map_ok hresponse
      obtain ⟨conv, hconv, hload, hmay⟩ := resolveConversation_ok user hreply
      obtain ⟨hnote, hagent⟩ := (resolveConversation_shows user hconv hload hmay).mp
        ⟨reply, hreply, Option.mem_toList.mp hu⟩
      obtain ⟨row, hrow, rfl⟩ := exists_readsAssignee hload hconv hagent
      exact ⟨row, ⟨conv, hrow, (mayResolve_ok hmay).1, hnote⟩, rfl, rfl⟩
    | create dto id now =>
      obtain ⟨created, -, rfl⟩ := map_ok hresponse
      cases hu
    | findAll dto =>
      cases hresponse
      cases hu
    | claim id now =>
      obtain ⟨claimed, -, rfl⟩ := map_ok hresponse
      cases hu
    | topConversations moments =>
      cases hresponse
      cases hu
    | tenantStats now =>
      cases hresponse
      cases hu

theorem perform_of_selects {request : Guarded} {row : UserRow}
    (hrow : request.Selects store.db user row) :
    ∃ body u, (perform env store user request).1 = .ok body ∧ u ∈ body.rows ∧ row.id = u.id ∧
      row.refreshToken = u.refreshToken := by
  cases request with
  | signOut now => cases hrow
  | users request =>
    obtain ⟨reply, u, hreply, hu, hcarries⟩ :=
      @Users.handle_of_selects _ user env.arrangement request row hrow
    refine ⟨.users reply.1, u, ?_, hu, hcarries⟩
    simp only [perform, hreply, answer]
  | service request =>
    cases request with
    | findOne id =>
      obtain ⟨conv, hreads⟩ := hrow
      refine ⟨.service (.loaded (load store.db conv)), row.toUser, ?_, ?_, rfl, rfl⟩
      · simp only [perform, run, hreads.findOne, Except.map]
        rfl
      · exact Option.mem_toList.mpr hreads.load
    | resolve id dto moments =>
      obtain ⟨conv, hreads, hstatus, hnote⟩ := hrow
      have hmay : mayResolve conv user = .ok () := by
        rw [mayResolve, if_neg hstatus, if_neg]
        rintro ⟨hrole, hforeign⟩
        exact hforeign (hreads.assignee.trans (congrArg some (hreads.own hrole)))
      obtain ⟨reply, hreply, hagent⟩ :=
        (resolveConversation_shows user hreads.reads hreads.findOne hmay).mpr ⟨hnote, hreads.load⟩
      refine ⟨.service (.loaded reply.1), row.toUser, ?_, Option.mem_toList.mpr hagent, rfl, rfl⟩
      simp only [perform, run, onDatabase, hreply, Except.map]
      rfl
    | create dto id now => cases hrow
    | findAll dto => cases hrow
    | claim id now => cases hrow
    | topConversations moments => cases hrow
    | tenantStats now => cases hrow

theorem Guarded.Selects.stored {request : Guarded} {row : UserRow}
    (h : request.Selects db user row) : db.users.find? row.id = some row := by
  cases request with
  | signOut now => cases h
  | users request => exact Users.Request.Selects.stored h
  | service request =>
    cases request with
    | findOne id =>
      obtain ⟨conv, hreads⟩ := h
      exact hreads.found
    | resolve id dto moments =>
      obtain ⟨conv, hreads, -⟩ := h
      exact hreads.found
    | create dto id now => cases h
    | findAll dto => cases h
    | claim id now => cases h
    | topConversations moments => cases h
    | tenantStats now => cases h

theorem answer_ok {α : Type} {f : α → Body} {x : Except Exception (α × Database)} {body : Body}
    (h : (answer store f x).1 = .ok body) : ∃ a, f a = body := by
  cases x with
  | error e => cases h
  | ok reply =>
    cases h
    exact ⟨reply.1, rfl⟩

variable {call : Call}

theorem exposes_of_serve {body : Body} (hbody : (serve env store call).1 = .ok body) {u : User}
    (hu : u ∈ body.rows) : call.Exposes env store ∧
      ∃ row, store.db.users.find? u.id = some row ∧ row.refreshToken = u.refreshToken := by
  cases call with
  | signUp dto id passwordSalt tokenSalt now =>
    obtain ⟨reply, rfl⟩ := answer_ok hbody
    cases hu
  | signIn order dto salt now =>
    obtain ⟨reply, rfl⟩ := answer_ok hbody
    cases hu
  | refresh token salt now signedAt storedAt =>
    obtain ⟨reply, rfl⟩ := answer_ok hbody
    cases hu
  | guarded token now request =>
    simp only [serve] at hbody
    split at hbody
    · cases hbody
    · rename_i user hvalid
      split at hbody
      · cases hbody
      · rename_i hroute
        obtain ⟨row, hrow, hid, htoken⟩ := selects_of_perform hbody hu
        exact ⟨⟨user, row, hvalid, hroute, hrow⟩, row, hid ▸ hrow.stored, htoken⟩

theorem serve_of_exposes (h : call.Exposes env store) :
    ∃ body u, (serve env store call).1 = .ok body ∧ u ∈ body.rows := by
  cases call with
  | guarded token now request =>
    obtain ⟨user, row, hvalid, hroute, hrow⟩ := h
    obtain ⟨body, u, hbody, hu, -⟩ := @perform_of_selects env store user request row hrow
    refine ⟨body, u, ?_, hu⟩
    simp only [serve, hvalid, hroute, hbody]
  | signUp dto id passwordSalt tokenSalt now => cases h
  | signIn order dto salt now => cases h
  | refresh token salt now signedAt storedAt => cases h

/-- Nothing that the client is told depends on a password or a refresh token, as long as the
request's own check comes out the same. -/
def Call.Conceals (env : Env) (store : Store) (call : Call) : Prop :=
  ∀ store', store.SameButCredentials store' →
    call.authenticate env store'.db = call.authenticate env store.db →
    call.told env store' = call.told env store

theorem Call.Exposes.authenticate {store' : Store} (h : call.Exposes env store)
    (hsame : store.SameButCredentials store') :
    call.authenticate env store'.db = call.authenticate env store.db := by
  cases call with
  | guarded token now request =>
    simp only [Call.authenticate]
    rcases (@validateAccess_sameBut env.auth _ _ hsame.db token now).cases with
      ⟨e, hvalid, hvalid'⟩ | ⟨user, user', hvalid, hvalid', huser⟩
    · rw [hvalid, hvalid']
    · have hid : user'.id = user.id := User.eq_of_withoutToken (fun _ => rfl) huser
      rw [hvalid, hvalid', Except.map, Except.map, hid]
  | signUp dto id passwordSalt tokenSalt now => cases h
  | signIn order dto salt now => cases h
  | refresh token salt now signedAt storedAt => cases h

theorem not_conceals (h : call.Exposes env store) : ¬call.Conceals env store := by
  intro hconceals
  obtain ⟨body, u, hbody, hu⟩ := serve_of_exposes h
  -- the same database, with another refresh token for the user
  let store' : Store := { store with db := store.db.withOtherToken u.id }
  have hsame : store.SameButCredentials store' :=
    ⟨store.db.sameButCredentials_withOtherToken u.id, rfl⟩
  have htold := hconceals store' hsame (h.authenticate hsame)
  rw [Call.told, Call.told, hbody] at htold
  obtain ⟨body', hbody', hbodies⟩ := map_ok htold
  have hu' : u ∈ body'.rows := by
    rw [← body'.rows_apartFromTokens, hbodies, body.rows_apartFromTokens]
    exact hu
  obtain ⟨-, row, hrow, htoken⟩ := exposes_of_serve hbody hu
  obtain ⟨-, row', hrow', htoken'⟩ := exposes_of_serve hbody' hu'
  have hother : store'.db.users.find? u.id =
      some { row with refreshToken := Database.otherToken row.refreshToken } := by
    simp only [store', Database.withOtherToken]
    rw [Database.find?_updateUser_self, hrow, Option.map_some]
  cases hother.symm.trans hrow'
  exact Database.otherToken_ne row.refreshToken (htoken'.trans htoken.symm)

/-- A request reveals a credential exactly when the guards let it in and its response contains
the row of a user: nothing but the refresh token in such a row gives one away. -/
theorem conceals_iff (env : Env) (store : Store) (call : Call) :
    call.Conceals env store ↔ ¬call.Exposes env store := by
  constructor
  · exact fun hconceals hexposes => not_conceals hexposes hconceals
  · intro hhidden store' hsame hcheck
    have houtcome := (serve_sameBut hsame hcheck).reply
    rw [Call.told, Call.told]
    rcases houtcome.cases with ⟨e, hreply, hreply'⟩ | ⟨body, body', hreply, hreply', hbodies⟩
    · rw [hreply, hreply']
    · have hrows : body.rows = [] := by
        apply List.eq_nil_iff_forall_not_mem.mpr
        intro u hu
        exact hhidden (exposes_of_serve hreply hu).1
      rw [hreply, hreply', hbodies.eq hrows]

end

namespace Sample

def adminDto : SignUpDto :=
  { agentDto with firstName := "Lou", email := "lou@acme.test", role := some .tenantAdmin }

def admin : User := (newUser env.auth adminDto (some acme) ⟨4⟩ "" 0).toUser

def tokens (user : User) : TokenPair :=
  generateTokens env.auth user.id user.email user.role (some user.tenantId) 0

def hiring : List Action :=
  opening ++ [.storeRefreshToken agent.id (tokens agent).refreshToken "" 0,
    .signUpLookup 0 adminDto, .signUpInsert 0 admin.id "" 0]

def listing : Call := .guarded (tokens admin).accessToken 1000 (.users .users)

theorem listing_exposes : listing.Exposes env (state hiring).stored := by
  have hfound : ((state hiring).db.users.find? agent.id).any (Users.hasTenant (some acme)) = true := by
    decide +kernel
  obtain ⟨row, hrow, htenant⟩ := (Option.any_eq_true ..).mp hfound
  have hvalid : validateAccess env.auth (state hiring).db (tokens admin).accessToken 1000 =
      .ok admin := by decide +kernel
  exact ⟨admin, row, hvalid, rfl, Table.mem_of_find? hrow, htenant⟩

end Sample

theorem refresh_token_revealed : ¬∀ (env : Env) (s : State) (store' : Store) (call : Call),
    Reachable env s → s.stored.SameButCredentials store' →
    call.authenticate env store'.db = call.authenticate env s.stored.db →
    call.told env store' = call.told env s.stored := by
  intro h
  have hreachable : Reachable Sample.env (Sample.state Sample.hiring) :=
    Sample.reachable (by decide +kernel)
  apply not_conceals Sample.listing_exposes
  exact fun store' hsame hcheck => h Sample.env _ store' Sample.listing hreachable hsame hcheck

end SupportApi.Api
