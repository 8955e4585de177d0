import SupportApi.Auth.Guards
import SupportApi.Data.TenantPart
import SupportApi.Tenants.Service
import SupportApi.Users.Service

namespace SupportApi.Users

open Lib Auth

inductive Request
  | users
  | agents
  | user (id : String)
  | deactivateUser (id : String) (now : Time)
  | createTenant (dto : Tenants.CreateTenantDto) (id : Uuid) (now : Time)
  | tenants
  | tenant (id : String)
  | deactivateTenant (id : String) (now : Time)

inductive Response
  | users (users : List User)
  | user (user : User)
  | tenants (tenants : List Tenant)
  | tenant (tenant : Tenant)
  deriving DecidableEq

def Request.route : Request → RouteMetadata
  | .users => Roles [.superAdmin, .tenantAdmin]
  | .agents => Roles [.superAdmin, .tenantAdmin]
  | .user _ => Roles [.superAdmin, .tenantAdmin]
  | .deactivateUser _ _ => Roles [.superAdmin, .tenantAdmin]
  | .createTenant _ _ _ => Roles [.superAdmin]
  | .tenants => Roles [.superAdmin]
  | .tenant _ => Roles [.superAdmin, .tenantAdmin]
  | .deactivateTenant _ _ => Roles [.superAdmin]

/-- How PostgreSQL arranges the rows that `ORDER BY created_at DESC` leaves equal. -/
structure Arrangement where
  users : OrderBy (OrderBy.desc User.createdAt)
  tenants : OrderBy (OrderBy.desc Tenant.createdAt)

variable (arrangement : Arrangement)

def handle (db : Database) (user : User) : Request → Except Exception (Response × Database)
  | .users => .ok (.users (findAllByTenant arrangement.users db user.tenantId), db)
  | .agents => .ok (.users (getAgentsByTenant db user.tenantId), db)
  | .user id =>
    let tenantId := if user.role = .superAdmin then none else user.tenantId
    (findOne db id tenantId).map fun found => (.user found, db)
  | .deactivateUser id now =>
    (deactivate db id user now).map fun (found, db') => (.user found, db')
  | .createTenant dto id now =>
    (Tenants.create db dto id now).map fun (tenant, db') => (.tenant tenant, db')
  | .tenants => .ok (.tenants (Tenants.findAll arrangement.tenants db), db)
  | .tenant id => (Tenants.findOne db id).map fun tenant => (.tenant tenant, db)
  | .deactivateTenant id now =>
    (Tenants.deactivate db id now).map fun (tenant, db') => (.tenant tenant, db')

def serve (db : Database) (user : User) (request : Request) :
    Except Exception (Response × Database) :=
  match request.route.canActivate (some user) with
  | .error e => .error e
  | .ok () => handle arrangement db user request

def respond (db : Database) (user : User) (request : Request) : Except Exception Response :=
  (serve arrangement db user request).map Prod.fst

/-- The request names nothing outside `t`: a user of `t`, or `t` itself. -/
def Request.Within (t : Uuid) (db : Database) : Request → Prop
  | .deactivateUser id _ => ∀ uuid, Uuid.parse id = some uuid →
    ∃ u, db.users.find? uuid = some u ∧ u.tenantId = some t
  | .tenant id => ∀ uuid, Uuid.parse id = some uuid → uuid = t
  | _ => True

variable {arrangement} {t : Uuid} {db db' : Database} {user : User}

theorem hasTenant_some {u : UserRow} (h : hasTenant (some t) u = true) : u.tenantId = some t := by
  simpa [hasTenant] using h

theorem findAllByTenant_congr (h : Database.SameUsers t db db')
    (order : OrderBy (OrderBy.desc User.createdAt)) :
    findAllByTenant order db (some t) = findAllByTenant order db' (some t) := by
  rw [findAllByTenant, h.select fun u => hasTenant_some]
  rfl

theorem getAgentsByTenant_congr (h : Database.SameUsers t db db') :
    getAgentsByTenant db (some t) = getAgentsByTenant db' (some t) := by
  rw [getAgentsByTenant, h.select]
  · rfl
  · intro u hu
    simp only [Bool.and_eq_true] at hu
    exact hasTenant_some hu.1.1

theorem findOne_congr (h : Database.SameUsers t db db') (id : String) :
    findOne db id (some t) = findOne db' id (some t) := by
  unfold findOne
  split
  · rfl
  · have hfilter : (fun u : UserRow => (some t).all fun t => decide (u.tenantId = some t)) =
        UserRow.ofTenant t := rfl
    rw [hfilter, h.find?]

theorem findOne_ok {id : String} {uuid : Uuid} {u : UserRow} (hid : Uuid.parse id = some uuid)
    (hfind : db.users.find? uuid = some u) : findOne db id none = .ok u.toUser := by
  simp [findOne, hid, hfind, Option.filter]

theorem findOne_none {id : String} {uuid : Uuid} (hid : Uuid.parse id = some uuid)
    (hfind : db.users.find? uuid = none) : findOne db id none = .error (.notFound "User not found") := by
  simp [findOne, hid, hfind]

theorem deactivate_allowed {id : String} {uuid : Uuid} {u : UserRow}
    (hid : Uuid.parse id = some uuid) (hfind : db.users.find? uuid = some u)
    (hallowed : user.role = .tenantAdmin → u.tenantId = user.tenantId) (now : Time) :
    (deactivate db id user now).map Prod.fst =
      .ok { u.toUser with isActive := false, updatedAt := now } := by
  have hkey : u.key = uuid := Table.key_of_find? hfind
  subst hkey
  have hafter : (setInactive db u.id now).users.find? u.key =
      some { u with isActive := false, updatedAt := now } := by
    rw [setInactive, Database.find?_updateUser_self, hfind]
    rfl
  simp only [deactivate, findOne_ok hid hfind, findOne_ok hid hafter]
  rw [if_neg fun hforeign => hforeign.2 (hallowed hforeign.1)]
  rfl

theorem deactivate_own {id : String} {uuid : Uuid} {u : UserRow} (hid : Uuid.parse id = some uuid)
    (hfind : db.users.find? uuid = some u) (htenant : u.tenantId = user.tenantId) (now : Time) :
    (deactivate db id user now).map Prod.fst =
      .ok { u.toUser with isActive := false, updatedAt := now } :=
  deactivate_allowed hid hfind (fun _ => htenant) now

theorem deactivate_foreign {id : String} {uuid : Uuid} {u : UserRow}
    (hid : Uuid.parse id = some uuid) (hfind : db.users.find? uuid = some u)
    (hrole : user.role = .tenantAdmin) (htenant : u.tenantId ≠ user.tenantId) (now : Time) :
    deactivate db id user now =
      .error (.forbidden "Cannot deactivate users outside your tenant") := by
  simp only [deactivate, findOne_ok hid hfind]
  exact if_pos ⟨hrole, htenant⟩

theorem deactivate_missing {id : String} {uuid : Uuid} (hid : Uuid.parse id = some uuid)
    (hfind : db.users.find? uuid = none) (now : Time) :
    deactivate db id user now = .error (.notFound "User not found") := by
  simp only [deactivate, findOne_none hid hfind]

theorem serve_tenantAdmin (hrole : user.role = .tenantAdmin) {request : Request}
    (hroute : request.route = Roles [.superAdmin, .tenantAdmin]) :
    serve arrangement db user request = handle arrangement db user request := by
  simp [serve, hroute, RouteMetadata.canActivate, Roles, hrole]

theorem respond_superAdmin (hrole : user.role = .tenantAdmin) {request : Request}
    (hroute : request.route = Roles [.superAdmin]) :
    respond arrangement db user request =
      .error (.forbidden (accessDenied [.superAdmin] .tenantAdmin)) := by
  simp [respond, serve, hroute, RouteMetadata.canActivate, Roles, hrole, Except.map]

theorem respond_deactivateUser (hrole : user.role = .tenantAdmin) (id : String) (now : Time) :
    respond arrangement db user (.deactivateUser id now) =
      ((deactivate db id user now).map Prod.fst).map .user := by
  rw [respond, serve_tenantAdmin hrole rfl, handle]
  cases deactivate db id user now <;> rfl

theorem respond_tenant (hrole : user.role = .tenantAdmin) (id : String) :
    respond arrangement db user (.tenant id) = (Tenants.findOne db id).map .tenant := by
  rw [respond, serve_tenantAdmin hrole rfl, handle]
  cases Tenants.findOne db id <;> rfl

theorem respond_congr (h : Database.SameUsers t db db') (hrole : user.role = .tenantAdmin)
    (htenant : user.tenantId = some t) {request : Request} (hwithin : request.Within t db) :
    respond arrangement db user request = respond arrangement db' user request := by
  cases request with
  | users =>
    rw [respond, respond, serve_tenantAdmin hrole rfl, serve_tenantAdmin hrole rfl]
    simp only [handle, htenant, findAllByTenant_congr h, Except.map]
  | agents =>
    rw [respond, respond, serve_tenantAdmin hrole rfl, serve_tenantAdmin hrole rfl]
    simp only [handle, htenant, getAgentsByTenant_congr h, Except.map]
  | user id =>
    rw [respond, respond, serve_tenantAdmin hrole rfl, serve_tenantAdmin hrole rfl]
    simp only [handle, htenant, hrole, reduceCtorEq, if_false, findOne_congr h]
    cases findOne db' id (some t) <;> rfl
  | deactivateUser id now =>
    rw [respond_deactivateUser hrole, respond_deactivateUser hrole]
    cases hid : Uuid.parse id with
    | none => simp [deactivate, findOne, hid]
    | some uuid =>
      obtain ⟨u, hfind, hu⟩ := hwithin uuid hid
      rw [deactivate_own hid hfind (hu.trans htenant.symm),
        deactivate_own hid (h.find?_some hfind hu) (hu.trans htenant.symm)]
  | createTenant dto id now => rw [respond_superAdmin hrole rfl, respond_superAdmin hrole rfl]
  | tenants => rw [respond_superAdmin hrole rfl, respond_superAdmin hrole rfl]
  | tenant id =>
    rw [respond_tenant hrole, respond_tenant hrole]
    cases hid : Uuid.parse id with
    | none => simp [Tenants.findOne, hid]
    | some uuid =>
      obtain rfl := hwithin uuid hid
      simp only [Tenants.findOne, hid, h.tenant]
  | deactivateTenant id now => rw [respond_superAdmin hrole rfl, respond_superAdmin hrole rfl]

def stranger (id : Uuid) : UserRow where
  id := id
  tenantId := none
  firstName := ""
  lastName := ""
  email := ""
  role := .superAdmin
  isActive := true
  refreshToken := none
  createdAt := 0
  updatedAt := 0
  password := ""

theorem exists_stranger {id : Uuid} (h : db.users.find? id = none) :
    ∃ db', Database.SameUsers t db db' ∧ db'.users.find? id = some (stranger id) := by
  have hinsert : ∃ db', db.insertUser (stranger id) = some db' := by
    unfold Database.insertUser
    rw [dif_pos ⟨rfl, h, rfl, fun v hv hs => absurd hs (by simp [stranger])⟩]
    exact ⟨_, rfl⟩
  obtain ⟨db', hdb'⟩ := hinsert
  obtain ⟨⟨hnew, husers⟩, htenants, -⟩ := Database.insertUser_some hdb'
  refine ⟨db', ⟨by rw [htenants], ?_⟩, (Database.find?_insertUser hdb' id).trans (if_pos rfl)⟩
  apply Table.ext
  rw [husers]
  simp [Table.restrict, Table.select, UserRow.ofTenant, stranger]

def otherThan (s : String) : String := if s = "a" then "b" else "a"

theorem otherThan_ne (s : String) : s ≠ otherThan s := by
  unfold otherThan
  split
  · rename_i h
    rw [h]
    decide
  · assumption

def newcomer (id : Uuid) (tenant : Option Tenant) : Tenant where
  id := id
  name := otherThan ((tenant.map Tenant.name).getD "")
  slug := otherThan ((tenant.map Tenant.slug).getD "")
  isActive := true
  domain := none
  createdAt := 0
  updatedAt := 0

theorem newcomer_fits (id : Uuid) (tenant : Option Tenant) : (newcomer id tenant).fits = true := by
  have hvarchar : ∀ s, Database.varchar 100 (otherThan s) = true := by
    intro s
    unfold otherThan
    split <;> decide
  simp [Tenant.fits, newcomer, hvarchar]

theorem exists_newcomer (db : Database) {id : Uuid} (hid : id ≠ t) :
    ∃ db', Database.SameUsers t (db.only t) db' ∧ ∃ tenant, db'.tenants.find? id = some tenant := by
  let tenant := newcomer id (db.tenants.find? t)
  have hrow : ∀ t' ∈ (db.only t).tenants.rows, db.tenants.find? t = some t' := by
    intro t' ht'
    obtain ⟨hmem, heq⟩ := Table.mem_restrict.mp ht'
    obtain rfl : t'.id = t := by simpa using heq
    exact Table.find?_self hmem
  have hnone : (db.only t).tenants.find? id = none := by
    rw [Table.find?_eq_none_iff]
    intro t' ht' heq
    have hkey := Table.key_of_find? (hrow t' ht')
    exact hid (heq.symm.trans hkey)
  have hinsert : ∃ db', (db.only t).insertTenant tenant = some db' := by
    have hnames : ∀ t' ∈ (db.only t).tenants.rows, t'.name ≠ tenant.name ∧ t'.slug ≠ tenant.slug := by
      intro t' ht'
      simp only [tenant, newcomer, hrow t' ht', Option.map_some, Option.getD_some]
      exact ⟨otherThan_ne _, otherThan_ne _⟩
    unfold Database.insertTenant
    rw [dif_pos ⟨newcomer_fits _ _, hnone, hnames⟩]
    exact ⟨_, rfl⟩
  obtain ⟨db', hdb'⟩ := hinsert
  obtain ⟨htenants, husers, -⟩ := Database.insertTenant_some hdb'
  have hmem : tenant ∈ db'.tenants.rows := by
    rw [htenants]
    exact List.mem_append_right _ (List.mem_singleton_self _)
  refine ⟨db', ⟨?_, by rw [husers]⟩, tenant, Table.find?_self hmem⟩
  simp only [Table.find?, htenants, List.find?_append]
  have hother : List.find? (fun r => decide (r.id = t)) [tenant] = none := by
    simp [tenant, newcomer, hid]
  rw [hother, Option.or_none]

theorem within_of_respond (hrole : user.role = .tenantAdmin) (htenant : user.tenantId = some t)
    {request : Request} (h : ∀ db', Database.SameUsers t db db' →
      respond arrangement db user request = respond arrangement db' user request) :
    request.Within t db := by
  have honly := Database.sameUsers_only db t
  cases request with
  | deactivateUser id now =>
    intro uuid hid
    by_contra hforeign
    have hnone : (db.only t).users.find? uuid = none := by
      rw [Database.only, Table.find?_restrict, Option.filter_eq_none_iff]
      intro u hu htenant
      exact hforeign ⟨u, hu, by simpa [UserRow.ofTenant] using htenant⟩
    obtain ⟨db', hsame, hfind⟩ := exists_stranger (t := t) hnone
    have hrespond := (h _ honly).symm.trans (h db' (honly.trans hsame))
    have hstranger : (stranger uuid).tenantId ≠ user.tenantId := by
      rw [htenant]
      exact (Option.some_ne_none t).symm
    rw [respond_deactivateUser hrole, respond_deactivateUser hrole, deactivate_missing hid hnone,
      deactivate_foreign hid hfind hrole hstranger] at hrespond
    cases hrespond
  | tenant id =>
    intro uuid hid
    by_contra hne
    obtain ⟨db', hsame, tenant, hfind⟩ := exists_newcomer db hne
    have hnone : (db.only t).tenants.find? uuid = none := by
      rw [Database.only, Table.find?_restrict, Option.filter_eq_none_iff]
      intro tenant' hfind' heq
      have hkey : tenant'.id = uuid := Table.key_of_find? hfind'
      exact hne (hkey.symm.trans (by simpa using heq))
    have hrespond := (h _ honly).symm.trans (h db' (honly.trans hsame))
    rw [respond_tenant hrole, respond_tenant hrole] at hrespond
    simp only [Tenants.findOne, hid, hfind, hnone] at hrespond
    cases hrespond
  | _ => trivial

/-- What a TenantAdmin is told depends on the own tenant alone exactly when the request
names nothing outside it. -/
theorem respond_iff (hrole : user.role = .tenantAdmin) (htenant : user.tenantId = some t)
    (request : Request) :
    (∀ db', Database.SameUsers t db db' →
        respond arrangement db user request = respond arrangement db' user request) ↔
      request.Within t db :=
  ⟨within_of_respond hrole htenant, fun hwithin _ h => respond_congr h hrole htenant hwithin⟩

namespace Sample

def inTableOrder : Arrangement := ⟨.stable _, .stable _⟩

def acme : Tenant where
  id := ⟨1⟩
  name := "Acme"
  slug := "acme"
  isActive := true
  domain := none
  createdAt := 0
  updatedAt := 0

def globex : Tenant := { acme with id := ⟨2⟩, name := "Globex", slug := "globex" }

def admin : UserRow where
  id := ⟨3⟩
  tenantId := some acme.id
  firstName := "Kim"
  lastName := "Doe"
  email := "kim@acme.test"
  role := .tenantAdmin
  isActive := true
  refreshToken := none
  createdAt := 0
  updatedAt := 0
  password := "hash"

def alone : Database :=
  ((Database.empty.insertTenant acme).bind fun db => db.insertUser admin).getD .empty

def joined : Database := (alone.insertTenant globex).getD .empty

def request : Request := .tenant "00000000-0000-0000-0000-000000000002"

end Sample

theorem respond_iff_own :
    (∀ db', Database.SameUsers Sample.acme.id Sample.alone db' →
        respond Sample.inTableOrder Sample.alone Sample.admin.toUser .users =
          respond Sample.inTableOrder db' Sample.admin.toUser .users) ↔
      Request.users.Within Sample.acme.id Sample.alone :=
  respond_iff rfl rfl .users

theorem respond_discloses : ¬∀ (arrangement : Arrangement) (t : Uuid) (db db' : Database)
    (user : User) (request : Request), user.role = .tenantAdmin → user.tenantId = some t →
    Database.SameUsers t db db' →
    respond arrangement db user request = respond arrangement db' user request := by
  intro h
  have hrespond := h Sample.inTableOrder Sample.acme.id Sample.alone Sample.joined
    Sample.admin.toUser Sample.request rfl rfl ⟨rfl, rfl⟩
  exact absurd hrespond (by decide)

end SupportApi.Users
