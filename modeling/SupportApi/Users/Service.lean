import SupportApi.Lib.OrderBy
import SupportApi.Data.Database

namespace SupportApi.Users

open Lib

/-- `user.tenant_id = :tenantId`: no row is selected when either side is null. -/
def hasTenant (tenantId : Option Uuid) (user : UserRow) : Bool :=
  tenantId.any fun t => user.tenantId = some t

def findAllByTenant (order : OrderBy (OrderBy.desc User.createdAt)) (db : Database)
    (tenantId : Option Uuid) : List User :=
  order.sort ((db.users.select (hasTenant tenantId)).map UserRow.toUser)

/-- `WHERE user.id = :id`, and the tenant if one is given; a text that is no uuid is refused
by PostgreSQL. -/
def findOne (db : Database) (id : String) (tenantId : Option Uuid) : Except Exception User :=
  match Uuid.parse id with
  | none => .error .queryFailed
  | some uuid =>
    match (db.users.find? uuid).filter fun u => tenantId.all fun t => u.tenantId = some t with
    | none => .error (.notFound "User not found")
    | some user => .ok user.toUser

def setInactive (db : Database) (id : Uuid) (now : Time) : Database :=
  db.updateUser id (fun u => { u with isActive := false, updatedAt := now })
    fun _ => ⟨rfl, rfl, rfl⟩

def deactivate (db : Database) (id : String) (requestingUser : User) (now : Time) :
    Except Exception (User × Database) :=
  match findOne db id none with
  | .error e => .error e
  | .ok user =>
    if requestingUser.role = .tenantAdmin ∧ user.tenantId ≠ requestingUser.tenantId then
      .error (.forbidden "Cannot deactivate users outside your tenant")
    else
      let db' := setInactive db user.id now
      match findOne db' id none with
      | .error e => .error e
      | .ok user => .ok (user, db')

def getAgentsByTenant (db : Database) (tenantId : Option Uuid) : List User :=
  (db.users.select fun u => hasTenant tenantId u && u.role = .agent && u.isActive).map
    UserRow.toUser

theorem findOne_ok_iff {db : Database} {id : String} {tenantId : Option Uuid} {user : User} :
    findOne db id tenantId = .ok user ↔ ∃ uuid row, Uuid.parse id = some uuid ∧
      db.users.find? uuid = some row ∧ (∀ t, tenantId = some t → row.tenantId = some t) ∧
      row.toUser = user := by
  unfold findOne
  cases hid : Uuid.parse id with
  | none => simp
  | some uuid =>
    cases hfind : db.users.find? uuid with
    | none => simp [hfind]
    | some row =>
      cases tenantId with
      | none => simp [hfind, Option.filter]
      | some t =>
        by_cases htenant : row.tenantId = some t
        · simp [hfind, Option.filter, htenant]
        · simp [hfind, Option.filter, htenant]

theorem deactivate_ok {db db' : Database} {id : String} {requestingUser found : User} {now : Time}
    (h : deactivate db id requestingUser now = .ok (found, db')) :
    ∃ user, findOne db id none = .ok user ∧
      ¬(requestingUser.role = .tenantAdmin ∧ user.tenantId ≠ requestingUser.tenantId) ∧
      db' = setInactive db user.id now := by
  unfold deactivate at h
  split at h
  · cases h
  · rename_i user hfind
    split at h
    · cases h
    · simp only at h
      split at h <;> cases h
      exact ⟨user, hfind, ‹_›, rfl⟩

end SupportApi.Users
