import SupportApi.Analytics.Service
import SupportApi.Auth.Service
import SupportApi.Conversations.Staff
import SupportApi.Lib.TwoRun
import SupportApi.Users.Routes

/-! The whole service: the requests of all controllers on one database and one cache.
Reads that change nothing have no step of their own. -/

namespace SupportApi.Api

open Lib Conversations

/-- A sign-up that has passed its lookups waits here for its insert. -/
structure State where
  conversations : Conversations.State
  cache : Analytics.Cache
  signUps : Pid → Option (Auth.SignUpDto × Option Uuid)

inductive Action
  | conversation (a : Conversations.Action)
  | signUpLookup (p : Pid) (dto : Auth.SignUpDto)
  | signUpInsert (p : Pid) (id : Uuid) (salt : String) (now : Time)
  | storeRefreshToken (userId : Uuid) (token : Auth.Jwt) (salt : String) (now : Time)
  | signOut (userId : Uuid) (now : Time)
  | manage (user : User) (request : Users.Request)
  | topConversations (user : User) (moments : Analytics.Moments)
  | forget (key : Option Uuid)

/-- What the code under `src/` leaves to PostgreSQL, bcrypt and the configuration. -/
structure Env where
  auth : Auth.Env
  arrangement : Users.Arrangement
  conversations : OrderBy (OrderBy.desc Conversation.createdAt)
  top : OrderBy (OrderBy.desc Analytics.TopConversationResult.messageCount)
  averages : Analytics.Averages

namespace State

def db (s : State) : Database := s.conversations.db

def start : State := ⟨.initial .empty [], fun _ => none, fun _ => none⟩

def store (s : State) (db : Database) : State :=
  { s with conversations := s.conversations.store db }

def setSignUp (s : State) (p : Pid) (signUp : Option (Auth.SignUpDto × Option Uuid)) : State :=
  { s with signUps := Function.update s.signUps p signUp }

end State

variable (env : Env)

def step (s : State) : Action → Option State
  | .conversation a =>
    if ∀ user ∈ a.user?, Known s.db user then
      (Conversations.step s.conversations a).map fun conversations => { s with conversations }
    else none
  | .signUpLookup p dto =>
    match s.signUps p, Auth.signUpLookup s.db dto with
    | none, .ok tenantId => some (s.setSignUp p (some (dto, tenantId)))
    | _, _ => none
  | .signUpInsert p id salt now =>
    match s.signUps p with
    | none => none
    | some (dto, tenantId) =>
      match s.db.insertUser (Auth.newUser env.auth dto tenantId id salt now) with
      | none => some (s.setSignUp p none)
      | some db => some ((s.setSignUp p none).store db)
  -- the last await of a sign-up, a sign-in or a refresh
  | .storeRefreshToken userId token salt now =>
    some (s.store (Auth.storeRefreshToken env.auth s.db userId token salt now))
  | .signOut userId now => some (s.store (Auth.signOut s.db userId now))
  | .manage user request =>
    if Known s.db user then
      match Users.serve env.arrangement s.db user request with
      | .error _ => none
      | .ok (_, db) => some (s.store db)
    else none
  | .topConversations user moments =>
    if Known s.db user then
      some { s with
        cache := (Analytics.getTopActiveConversations env.top s.db s.cache user moments).2 }
    else none
  -- an entry is deleted, or evicted by Redis
  | .forget key => some { s with cache := s.cache.del key }

def machine : Machine State Action := ⟨step env⟩

def Reachable (s : State) : Prop := ∃ actions, (machine env).run .start actions = some s

structure Sound (s : State) : Prop where
  staffed : Staffed s.conversations
  tenanted : Tenanted s.db
  signUps : ∀ p dto tenantId, s.signUps p = some (dto, tenantId) → dto.role ≠ some .superAdmin →
    tenantId.isSome

variable {env} {s t : State}

theorem signUpLookup_ok {db : Database} {dto : Auth.SignUpDto} {tenantId : Option Uuid}
    (h : Auth.signUpLookup db dto = .ok tenantId) (hrole : dto.role ≠ some .superAdmin) :
    tenantId.isSome := by
  unfold Auth.signUpLookup at h
  split at h
  · cases h
  · rename_i hcheck
    split at h
    · cases h
    · rename_i htenant
      split at h <;> cases h
      -- the first check refuses a request without a tenant
      rw [Auth.checkTenant, if_neg hrole, htenant] at hcheck
      cases tenantId with
      | none => cases hcheck
      | some t => rfl

theorem serve_ok {arrangement : Users.Arrangement} {db db' : Database} {user : User}
    {request : Users.Request} {response : Users.Response}
    (h : Users.serve arrangement db user request = .ok (response, db')) :
    (db'.users = db.users ∧ db'.conversations = db.conversations) ∨
      ∃ id now, db' = Users.setInactive db id now := by
  unfold Users.serve at h
  split at h
  · cases h
  · cases request with
    | users => cases h; exact .inl ⟨rfl, rfl⟩
    | agents => cases h; exact .inl ⟨rfl, rfl⟩
    | user id =>
      obtain ⟨found, -, heq⟩ := map_ok h
      cases heq
      exact .inl ⟨rfl, rfl⟩
    | deactivateUser id now =>
      obtain ⟨⟨found, db₁⟩, hdeactivate, heq⟩ := map_ok h
      cases heq
      obtain ⟨target, -, -, rfl⟩ := Users.deactivate_ok hdeactivate
      exact .inr ⟨target.id, now, rfl⟩
    | createTenant dto id now =>
      obtain ⟨⟨tenant, db₁⟩, hcreate, heq⟩ := map_ok h
      cases heq
      obtain ⟨-, husers, hconvs, -⟩ := Database.insertTenant_some (Tenants.create_ok hcreate).2
      exact .inl ⟨husers, hconvs⟩
    | tenants => cases h; exact .inl ⟨rfl, rfl⟩
    | tenant id =>
      obtain ⟨tenant, -, heq⟩ := map_ok h
      cases heq
      exact .inl ⟨rfl, rfl⟩
    | deactivateTenant id now =>
      obtain ⟨⟨tenant, db₁⟩, hdeactivate, heq⟩ := map_ok h
      cases heq
      exact .inl (Tenants.deactivate_ok hdeactivate)

namespace Sound

theorem store (h : Sound s) {db : Database} (hdb : s.db.Extends db)
    (hconvs : db.conversations = s.db.conversations) (htenanted : Tenanted db) :
    Sound (s.store db) where
  staffed := h.staffed.store_users hdb hconvs
  tenanted := htenanted
  signUps := h.signUps

theorem setSignUp (h : Sound s) {p : Pid} {signUp : Option (Auth.SignUpDto × Option Uuid)}
    (hsignUp : ∀ dto tenantId, signUp = some (dto, tenantId) → dto.role ≠ some .superAdmin →
      tenantId.isSome) : Sound (s.setSignUp p signUp) where
  staffed := h.staffed
  tenanted := h.tenanted
  signUps q dto tenantId hq := by
    simp only [State.setSignUp, Function.update_apply] at hq
    split at hq
    · exact hsignUp dto tenantId hq
    · exact h.signUps q dto tenantId hq

theorem updateUser (h : Sound s) (id : Uuid) (f : UserRow → UserRow)
    (hf : ∀ u, (f u).id = u.id ∧ (f u).tenantId = u.tenantId ∧ (f u).email = u.email)
    (hrole : ∀ u, (f u).role = u.role) : Sound (s.store (s.db.updateUser id f hf)) :=
  h.store (.updateUser id f hf hrole) rfl (h.tenanted.updateUser id f hf hrole)

theorem conversation (h : Sound s) {a : Conversations.Action} {c : Conversations.State}
    (hknown : ∀ user ∈ a.user?, Known s.db user) (hstep : Conversations.Step s.conversations a c) :
    Sound { s with conversations := c } where
  staffed := h.staffed.step ⟨h.tenanted, hknown⟩ hstep
  tenanted := by
    intro id u hfind
    rw [State.db, hstep.users] at hfind
    exact h.tenanted id u hfind
  signUps := h.signUps

theorem manages (h : Sound s) {user : User} {request : Users.Request} {response : Users.Response}
    {db : Database} (hserve : Users.serve env.arrangement s.db user request = .ok (response, db)) :
    Sound (s.store db) := by
  rcases serve_ok hserve with ⟨husers, hconvs⟩ | ⟨id, now, rfl⟩
  · refine h.store (.of_eq husers hconvs) hconvs fun id u hfind => ?_
    rw [husers] at hfind
    exact h.tenanted id u hfind
  · exact h.updateUser id _ _ fun _ => rfl

theorem signsUp (h : Sound s) {p : Pid} {dto : Auth.SignUpDto} {tenantId : Option Uuid} {id : Uuid}
    {salt : String} {now : Time} {db : Database} (hp : s.signUps p = some (dto, tenantId))
    (hins : s.db.insertUser (Auth.newUser env.auth dto tenantId id salt now) = some db) :
    Sound ((s.setSignUp p none).store db) := by
  have hcleared : Sound (s.setSignUp p none) := h.setSignUp nofun
  refine hcleared.store (.insertUser hins) (Database.insertUser_some hins).2.2.1 ?_
  apply Tenanted.insertUser h.tenanted hins
  intro hrole
  apply h.signUps p dto tenantId hp
  intro hsuper
  exact hrole (by simp [Auth.newUser, hsuper])

theorem preserves : (machine env).Preserves Sound := by
  intro s a t h hs
  cases a with
  | conversation a =>
    simp only [machine, step] at hs
    split at hs
    · obtain ⟨c, hstep, rfl⟩ := Option.map_eq_some_iff.mp hs
      exact h.conversation ‹_› (step_iff.mp hstep)
    · cases hs
  | signUpLookup p dto =>
    simp only [machine, step] at hs
    split at hs <;> cases hs
    rename_i hlookup
    apply h.setSignUp
    intro dto' tenantId' heq hrole
    cases heq
    exact signUpLookup_ok hlookup hrole
  | signUpInsert p id salt now =>
    simp only [machine, step] at hs
    split at hs
    · cases hs
    · split at hs <;> cases hs
      · exact h.setSignUp nofun
      · exact h.signsUp ‹_› ‹_›
  | storeRefreshToken userId token salt now =>
    cases hs
    exact h.updateUser userId _ _ fun _ => rfl
  | signOut userId now =>
    cases hs
    exact h.updateUser userId _ _ fun _ => rfl
  | manage user request =>
    simp only [machine, step] at hs
    split at hs
    · split at hs <;> cases hs
      exact h.manages ‹_›
    · cases hs
  | topConversations user moments =>
    simp only [machine, step] at hs
    split at hs <;> cases hs
    exact ⟨h.staffed, h.tenanted, h.signUps⟩
  | forget key =>
    cases hs
    exact ⟨h.staffed, h.tenanted, h.signUps⟩

theorem start : Sound .start where
  staffed := .start [] rfl
  tenanted id u hfind := by cases hfind
  signUps p dto tenantId hp := by cases hp

end Sound

theorem Reachable.sound (h : Reachable env s) : Sound s := by
  obtain ⟨actions, hrun⟩ := h
  exact Machine.run_preserves Sound.preserves Sound.start hrun

end SupportApi.Api
