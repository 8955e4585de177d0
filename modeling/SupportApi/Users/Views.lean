import SupportApi.Data.Uuid
import SupportApi.Users.Routes

namespace SupportApi.Users

open Lib Auth

def Appears (arrangement : Arrangement) (db : Database) (requester : User) (request : Request)
    (x : UserRow) : Prop :=
  ∃ users, respond arrangement db requester request = .ok (.users users) ∧ x.toUser ∈ users

def Shown (arrangement : Arrangement) (db : Database) (requester : User) (x : UserRow) : Prop :=
  ∃ found, respond arrangement db requester (.user (String.ofList x.id.text)) = .ok (.user found)

variable {arrangement : Arrangement} {db : Database} {requester : User} {x : UserRow}

/-- Who is meant: the lists and the detail view are for these roles. -/
def Administers (requester : User) : Prop :=
  requester.role = .superAdmin ∨ requester.role = .tenantAdmin

theorem serve_administers (h : Administers requester) {request : Request}
    (hroute : request.route = Roles [.superAdmin, .tenantAdmin]) :
    serve arrangement db requester request = handle arrangement db requester request := by
  rcases h with hrole | hrole <;>
    simp [serve, hroute, RouteMetadata.canActivate, Roles, hrole]

theorem toUser_mem {rows : List UserRow} (hrows : ∀ y ∈ rows, y ∈ db.users.rows)
    (hx : x ∈ db.users.rows) : x.toUser ∈ rows.map UserRow.toUser ↔ x ∈ rows := by
  constructor
  · intro h
    obtain ⟨y, hy, heq⟩ := List.mem_map.mp h
    have hkey : y.key = x.key := congrArg User.id heq
    have hself := Table.find?_self (hrows y hy)
    rw [hkey, Table.find?_self hx] at hself
    cases hself
    exact hy
  · exact List.mem_map_of_mem

theorem appears_users_iff (h : Administers requester) (hx : x ∈ db.users.rows) :
    Appears arrangement db requester .users x ↔ hasTenant requester.tenantId x = true := by
  have hserve : serve arrangement db requester .users = handle arrangement db requester .users :=
    serve_administers h rfl
  have hselect : ∀ y ∈ db.users.select (hasTenant requester.tenantId), y ∈ db.users.rows :=
    fun y hy => List.mem_of_mem_filter hy
  simp only [Appears, respond, hserve, handle, findAllByTenant, Except.map, Except.ok.injEq,
    Response.users.injEq, exists_eq_left', OrderBy.mem_sort, toUser_mem hselect hx]
  exact List.mem_filter.trans (and_iff_right hx)

theorem appears_agents_iff (h : Administers requester) (hx : x ∈ db.users.rows) :
    Appears arrangement db requester .agents x ↔
      hasTenant requester.tenantId x = true ∧ x.role = .agent ∧ x.isActive = true := by
  have hserve : serve arrangement db requester .agents = handle arrangement db requester .agents :=
    serve_administers h rfl
  have hselect : ∀ y ∈ db.users.select (fun u => hasTenant requester.tenantId u && u.role = .agent &&
      u.isActive), y ∈ db.users.rows := fun y hy => List.mem_of_mem_filter hy
  simp only [Appears, respond, hserve, handle, getAgentsByTenant, Except.map, Except.ok.injEq,
    Response.users.injEq, exists_eq_left', toUser_mem hselect hx]
  refine List.mem_filter.trans ((and_iff_right hx).trans ?_)
  rw [Bool.and_eq_true, Bool.and_eq_true, decide_eq_true_eq, and_assoc]

theorem shown_iff (h : Administers requester) (hx : x ∈ db.users.rows) :
    Shown arrangement db requester x ↔
      (requester.role = .tenantAdmin → ∀ t, requester.tenantId = some t → x.tenantId = some t) := by
  let tenantId := if requester.role = .superAdmin then none else requester.tenantId
  have hserve : serve arrangement db requester (.user (String.ofList x.id.text)) =
      handle arrangement db requester (.user (String.ofList x.id.text)) := serve_administers h rfl
  have hshown : Shown arrangement db requester x ↔
      ∃ found, findOne db (String.ofList x.id.text) tenantId = .ok found := by
    simp only [Shown, respond, hserve, handle, tenantId]
    cases findOne db (String.ofList x.id.text)
      (if requester.role = .superAdmin then none else requester.tenantId) <;> simp [Except.map]
  have hfind : db.users.find? x.id = some x := Table.find?_self hx
  have hfound : (∃ found, findOne db (String.ofList x.id.text) tenantId = .ok found) ↔
      ∀ t, tenantId = some t → x.tenantId = some t := by
    simp [findOne_ok_iff, Uuid.parse_text, hfind]
  rw [hshown, hfound]
  rcases h with hrole | hrole <;> simp [tenantId, hrole]

theorem hasTenant_iff {tenantId : Option Uuid} :
    hasTenant tenantId x = true ↔ ∃ t, tenantId = some t ∧ x.tenantId = some t := by
  simp [hasTenant, Option.any_eq_true]

/-- The views agree for a TenantAdmin with a tenant, and for others only where everybody is of the
requester's tenant. -/
theorem views_agree_iff (arrangement : Arrangement) (db : Database) (h : Administers requester) :
    (∀ x ∈ db.users.rows,
      (Appears arrangement db requester .users x ↔ Shown arrangement db requester x) ∧
      (Appears arrangement db requester .agents x ↔
        Shown arrangement db requester x ∧ x.role = .agent ∧ x.isActive = true)) ↔
    (requester.role = .tenantAdmin ∧ requester.tenantId.isSome) ∨
      ∀ x ∈ db.users.rows, ∃ t, requester.tenantId = some t ∧ x.tenantId = some t := by
  have hlists : ∀ x ∈ db.users.rows,
      ((Appears arrangement db requester .users x ↔ Shown arrangement db requester x) ∧
        (Appears arrangement db requester .agents x ↔
          Shown arrangement db requester x ∧ x.role = .agent ∧ x.isActive = true)) ↔
      (hasTenant requester.tenantId x = true ↔ Shown arrangement db requester x) := by
    intro x hx
    rw [appears_users_iff h hx, appears_agents_iff h hx]
    exact and_iff_left_of_imp fun hlist => and_congr_left' hlist
  rw [forall₂_congr hlists]
  constructor
  · intro hviews
    by_cases hadmin : requester.role = .tenantAdmin ∧ requester.tenantId.isSome
    · exact .inl hadmin
    · refine .inr fun x hx => hasTenant_iff.mp ((hviews x hx).mpr ((shown_iff h hx).mpr ?_))
      intro hrole t ht
      exact absurd ⟨hrole, by rw [ht]; rfl⟩ hadmin
  · rintro (⟨hrole, hsome⟩ | hall) x hx
    · obtain ⟨t, ht⟩ := Option.isSome_iff_exists.mp hsome
      rw [hasTenant_iff, shown_iff h hx]
      simp [hrole, ht]
    · obtain ⟨t, ht, hxt⟩ := hall x hx
      rw [hasTenant_iff, shown_iff h hx]
      simp [ht, hxt]

theorem views_agree_admin : Administers Sample.admin.toUser ∧ ∀ x ∈ Sample.alone.users.rows,
    (Appears Sample.inTableOrder Sample.alone Sample.admin.toUser .users x ↔
      Shown Sample.inTableOrder Sample.alone Sample.admin.toUser x) ∧
    (Appears Sample.inTableOrder Sample.alone Sample.admin.toUser .agents x ↔
      Shown Sample.inTableOrder Sample.alone Sample.admin.toUser x ∧ x.role = .agent ∧
        x.isActive = true) :=
  ⟨.inr rfl, (views_agree_iff Sample.inTableOrder Sample.alone (.inr rfl)).mpr (.inl ⟨rfl, rfl⟩)⟩

def Sample.owner : UserRow := { Sample.admin with id := ⟨4⟩, tenantId := none, role := .superAdmin }

def Sample.owned : Database := (Sample.alone.insertUser Sample.owner).getD .empty

theorem nobody_listed : ¬∀ (arrangement : Arrangement) (db : Database) (requester : User),
    Administers requester → ∀ x ∈ db.users.rows,
      (Appears arrangement db requester .users x ↔ Shown arrangement db requester x) ∧
      (Appears arrangement db requester .agents x ↔
        Shown arrangement db requester x ∧ x.role = .agent ∧ x.isActive = true) := by
  intro h
  have howner : Administers Sample.owner.toUser := .inl rfl
  have hadmin : Sample.admin ∈ Sample.owned.users.rows := by decide
  have hshown : Shown Sample.inTableOrder Sample.owned Sample.owner.toUser Sample.admin :=
    (shown_iff howner hadmin).mpr fun hrole => absurd hrole (by decide)
  have happears := (h Sample.inTableOrder Sample.owned Sample.owner.toUser howner Sample.admin
    hadmin).1.mpr hshown
  exact absurd ((appears_users_iff howner hadmin).mp happears) (by decide)

end SupportApi.Users
