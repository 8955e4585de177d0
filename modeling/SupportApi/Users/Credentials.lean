import SupportApi.Data.Credentials
import SupportApi.Users.Routes

namespace SupportApi.Users

open Lib

inductive Response.SameButTokens : Response → Response → Prop
  | users {us us' : List User}
      (h : (us'.map User.withoutToken).Perm (us.map User.withoutToken)) :
      SameButTokens (.users us) (.users us')
  | user {u u' : User} (h : u'.withoutToken = u.withoutToken) : SameButTokens (.user u) (.user u')
  | tenants (ts : List Tenant) : SameButTokens (.tenants ts) (.tenants ts)
  | tenant (t : Tenant) : SameButTokens (.tenant t) (.tenant t)

variable {db db' : Database} (h : db.SameButCredentials db')
include h

theorem select_sameBut {p : UserRow → Bool} (hp : ∀ u, p u.withoutCredentials = p u) :
    ((db'.users.select p).map UserRow.toUser).map User.withoutToken =
      ((db.users.select p).map UserRow.toUser).map User.withoutToken := by
  have hrow : User.withoutToken ∘ UserRow.toUser = UserRow.toUser ∘ UserRow.withoutCredentials := rfl
  rw [List.map_map, List.map_map, hrow, ← List.map_map, ← List.map_map, h.select hp]

theorem findOne_sameBut (id : String) (tenantId : Option Uuid) :
    Replies (fun u u' => u'.withoutToken = u.withoutToken) (findOne db id tenantId)
      (findOne db' id tenantId) := by
  unfold findOne
  cases Uuid.parse id with
  | none => exact .error _
  | some uuid =>
    rcases rel_cases (h.filter_find?
        (p := fun u => tenantId.all fun t => u.tenantId = some t) (fun _ => rfl) uuid) with
      ⟨hfind, hfind'⟩ | ⟨u, u', hfind, hfind', hsame⟩
    · simp only [hfind, hfind']
      exact .error _
    · simp only [hfind, hfind']
      exact .ok (UserRow.eq_of_withoutCredentials (f := fun v => v.toUser.withoutToken)
        (fun _ => rfl) hsame)

theorem deactivate_sameBut (id : String) (user : User) (now : Time) :
    Replies (fun reply reply' => reply'.1.withoutToken = reply.1.withoutToken ∧
        reply.2.SameButCredentials reply'.2)
      (deactivate db id user now) (deactivate db' id user now) := by
  unfold deactivate
  rcases (findOne_sameBut h id none).cases with ⟨e, hfind, hfind'⟩ | ⟨u, u', hfind, hfind', hu⟩
  · simp only [hfind, hfind']
    exact .error e
  · have hid : u'.id = u.id := User.eq_of_withoutToken (fun _ => rfl) hu
    have htenant : u'.tenantId = u.tenantId := User.eq_of_withoutToken (fun _ => rfl) hu
    have hafter : (setInactive db u.id now).SameButCredentials (setInactive db' u.id now) :=
      h.updateUser _ _ _ fun _ => rfl
    simp only [hfind, hfind', hid, htenant]
    split
    · exact .error _
    · rcases (findOne_sameBut hafter id none).cases with
        ⟨e, hfound, hfound'⟩ | ⟨v, v', hfound, hfound', hv⟩
      · simp only [hfound, hfound']
        exact .error e
      · simp only [hfound, hfound']
        exact .ok ⟨hv, hafter⟩

theorem handle_sameBut (arrangement : Arrangement) (user : User) (request : Request) :
    Replies (fun reply reply' => reply.1.SameButTokens reply'.1 ∧
        reply.2.SameButCredentials reply'.2)
      (handle arrangement db user request) (handle arrangement db' user request) := by
  cases request with
  | users =>
    refine .ok ⟨.users ?_, h⟩
    have hselect := select_sameBut h (p := hasTenant user.tenantId) fun _ => rfl
    have hsorted := fun db : Database =>
      ((arrangement.users.perm ((db.users.select (hasTenant user.tenantId)).map
        UserRow.toUser)).map User.withoutToken)
    exact (hsorted db').trans ((List.Perm.of_eq hselect).trans (hsorted db).symm)
  | agents => exact .ok ⟨.users (.of_eq (select_sameBut h fun _ => rfl)), h⟩
  | user id => exact (findOne_sameBut h id _).map fun _ _ hu => ⟨.user hu, h⟩
  | deactivateUser id now =>
    exact (deactivate_sameBut h id user now).map fun _ _ hu => ⟨.user hu.1, hu.2⟩
  | createTenant dto id now =>
    simp only [handle, Tenants.create, h.tenants]
    split
    · exact .error _
    · rcases rel_cases (h.insertTenant (Tenants.created dto id now).stored) with
        ⟨hins, hins'⟩ | ⟨after, after', hins, hins', hafter⟩
      · simp only [hins, hins']
        exact .error _
      · simp only [hins, hins']
        exact .ok ⟨.tenant _, hafter⟩
  | tenants =>
    simp only [handle, Tenants.findAll, h.tenants]
    exact .ok ⟨.tenants _, h⟩
  | tenant id =>
    simp only [handle, Tenants.findOne, h.tenants]
    refine Replies.map (.refl (fun _ => rfl) _) ?_
    rintro t _ rfl
    exact ⟨.tenant t, h⟩
  | deactivateTenant id now =>
    simp only [handle, Tenants.deactivate, Tenants.findOne, h.tenants]
    split
    · exact .error _
    · exact .ok ⟨.tenant _, h.updateTenant _ _ fun t => Tenants.inactive_names t now⟩

omit h

def Response.rows : Response → List User
  | .users us => us
  | .user u => [u]
  | .tenants _ => []
  | .tenant _ => []

theorem Response.SameButTokens.eq {response response' : Response}
    (hsame : response.SameButTokens response') (hrows : response.rows = []) :
    response' = response := by
  cases hsame with
  | users hperm =>
    simp only [Response.rows] at hrows
    rw [hrows, List.map_nil, List.perm_nil, List.map_eq_nil_iff] at hperm
    rw [hperm, hrows]
  | user _ => cases hrows
  | tenants ts => rfl
  | tenant t => rfl

def Request.Selects (db : Database) (user : User) (row : UserRow) : Request → Prop
  | .users => row ∈ db.users.rows ∧ hasTenant user.tenantId row = true
  | .agents =>
    row ∈ db.users.rows ∧ hasTenant user.tenantId row = true ∧ row.role = .agent ∧
      row.isActive = true
  | .user id =>
    ∃ uuid, Uuid.parse id = some uuid ∧ db.users.find? uuid = some row ∧
      (user.role ≠ .superAdmin → ∀ t, user.tenantId = some t → row.tenantId = some t)
  | .deactivateUser id _ =>
    ∃ uuid, Uuid.parse id = some uuid ∧ db.users.find? uuid = some row ∧
      (user.role = .tenantAdmin → row.tenantId = user.tenantId)
  | _ => False

theorem Request.Selects.stored {user : User} {row : UserRow} {request : Request}
    (hrow : request.Selects db user row) : db.users.find? row.id = some row := by
  have hfound : ∀ {uuid}, db.users.find? uuid = some row → db.users.find? row.id = some row := by
    intro uuid hfind
    exact Table.find?_self (Table.mem_of_find? hfind)
  cases request with
  | users => exact Table.find?_self hrow.1
  | agents => exact Table.find?_self hrow.1
  | user id =>
    obtain ⟨uuid, -, hfind, -⟩ := hrow
    exact hfound hfind
  | deactivateUser id now =>
    obtain ⟨uuid, -, hfind, -⟩ := hrow
    exact hfound hfind
  | createTenant dto id now => cases hrow
  | tenants => cases hrow
  | tenant id => cases hrow
  | deactivateTenant id now => cases hrow

variable {user : User} {arrangement : Arrangement}

theorem selects_of_handle {request : Request} {reply : Response × Database}
    (hreply : handle arrangement db user request = .ok reply) {u : User} (hu : u ∈ reply.1.rows) :
    ∃ row, request.Selects db user row ∧ row.id = u.id ∧ row.refreshToken = u.refreshToken := by
  cases request with
  | users =>
    cases hreply
    have hmem := (OrderBy.mem_sort arrangement.users).mp hu
    obtain ⟨row, hrow, rfl⟩ := List.mem_map.mp hmem
    exact ⟨row, List.mem_filter.mp hrow, rfl, rfl⟩
  | agents =>
    cases hreply
    obtain ⟨row, hrow, rfl⟩ := List.mem_map.mp hu
    obtain ⟨hmem, hselected⟩ := List.mem_filter.mp hrow
    refine ⟨row, ⟨hmem, ?_⟩, rfl, rfl⟩
    simpa [and_assoc] using hselected
  | user id =>
    obtain ⟨found, hfound, rfl⟩ := map_ok hreply
    obtain rfl := List.mem_singleton.mp hu
    obtain ⟨uuid, row, hid, hfind, htenant, rfl⟩ := findOne_ok_iff.mp hfound
    refine ⟨row, ⟨uuid, hid, hfind, ?_⟩, rfl, rfl⟩
    intro hrole t ht
    apply htenant
    rw [if_neg hrole, ht]
  | deactivateUser id now =>
    obtain ⟨⟨found, db'⟩, hdeactivate, rfl⟩ := map_ok hreply
    obtain rfl := List.mem_singleton.mp hu
    obtain ⟨target, htarget, hallowed, -⟩ := deactivate_ok hdeactivate
    obtain ⟨uuid, row, hid, hfind, -, rfl⟩ := findOne_ok_iff.mp htarget
    have hown : user.role = .tenantAdmin → row.tenantId = user.tenantId := by
      intro hrole
      by_contra hforeign
      exact hallowed ⟨hrole, hforeign⟩
    have hfound := deactivate_allowed hid hfind hown now
    rw [hdeactivate] at hfound
    cases hfound
    exact ⟨row, ⟨uuid, hid, hfind, hown⟩, rfl, rfl⟩
  | createTenant dto id now =>
    obtain ⟨created, -, rfl⟩ := map_ok hreply
    cases hu
  | tenants =>
    cases hreply
    cases hu
  | tenant id =>
    obtain ⟨found, -, rfl⟩ := map_ok hreply
    cases hu
  | deactivateTenant id now =>
    obtain ⟨found, -, rfl⟩ := map_ok hreply
    cases hu

theorem handle_of_selects {request : Request} {row : UserRow}
    (hrow : request.Selects db user row) :
    ∃ reply u, handle arrangement db user request = .ok reply ∧ u ∈ reply.1.rows ∧
      row.id = u.id ∧ row.refreshToken = u.refreshToken := by
  cases request with
  | users =>
    refine ⟨_, row.toUser, rfl, ?_, rfl, rfl⟩
    exact (OrderBy.mem_sort arrangement.users).mpr
      (List.mem_map_of_mem (List.mem_filter.mpr hrow))
  | agents =>
    obtain ⟨hmem, hselected⟩ := hrow
    refine ⟨_, row.toUser, rfl, List.mem_map_of_mem (List.mem_filter.mpr ⟨hmem, ?_⟩), rfl, rfl⟩
    simpa [and_assoc] using hselected
  | user id =>
    obtain ⟨uuid, hid, hfind, htenant⟩ := hrow
    let tenantId := if user.role = .superAdmin then none else user.tenantId
    have hfound : findOne db id tenantId = .ok row.toUser := by
      refine findOne_ok_iff.mpr ⟨uuid, row, hid, hfind, ?_, rfl⟩
      intro t ht
      by_cases hrole : user.role = .superAdmin
      · simp [tenantId, hrole] at ht
      · exact htenant hrole t (by simpa [tenantId, hrole] using ht)
    refine ⟨(.user row.toUser, db), row.toUser, ?_, List.mem_singleton_self _, rfl, rfl⟩
    simp only [tenantId] at hfound
    simp only [handle, hfound, Except.map]
  | deactivateUser id now =>
    obtain ⟨uuid, hid, hfind, hown⟩ := hrow
    obtain ⟨⟨found, db'⟩, hdeactivate, hfound⟩ := map_ok (deactivate_allowed hid hfind hown now)
    have hrowid : row.id = found.id := (congrArg User.id hfound).symm
    have htoken : row.refreshToken = found.refreshToken := (congrArg User.refreshToken hfound).symm
    refine ⟨(.user found, db'), found, ?_, List.mem_singleton_self _, hrowid, htoken⟩
    simp only [handle, hdeactivate, Except.map]
  | createTenant dto id now => cases hrow
  | tenants => cases hrow
  | tenant id => cases hrow
  | deactivateTenant id now => cases hrow

end SupportApi.Users
