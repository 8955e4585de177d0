import SupportApi.Lib.OrderBy
import SupportApi.Data.Database

namespace SupportApi.Tenants

open Lib

structure CreateTenantDto where
  name : String
  slug : String
  domain : Option String
  deriving DecidableEq

def created (dto : CreateTenantDto) (id : Uuid) (now : Time) : Tenant where
  id := id
  name := dto.name
  slug := dto.slug
  isActive := true
  domain := dto.domain
  createdAt := now
  updatedAt := now

def create (db : Database) (dto : CreateTenantDto) (id : Uuid) (now : Time) :
    Except Exception (Tenant × Database) :=
  match (db.tenants.select fun t => t.name = dto.name || t.slug = dto.slug).head? with
  | some _ => .error (.conflict "Tenant name or slug already exists")
  | none =>
    match db.insertTenant (created dto id now).stored with
    | none => .error .queryFailed
    | some db' => .ok (created dto id now, db')

def findAll (order : OrderBy (OrderBy.desc Tenant.createdAt)) (db : Database) : List Tenant :=
  order.sort (db.tenants.select fun _ => true)

def findOne (db : Database) (id : String) : Except Exception Tenant :=
  match Uuid.parse id with
  | none => .error .queryFailed
  | some uuid =>
    match db.tenants.find? uuid with
    | none => .error (.notFound "Tenant not found")
    | some tenant => .ok tenant

/-- The entity that `save` writes: nothing is written of a tenant that is inactive already. -/
def inactive (tenant : Tenant) (now : Time) : Tenant :=
  if tenant.isActive then { tenant with isActive := false, updatedAt := now } else tenant

theorem inactive_names (tenant : Tenant) (now : Time) :
    (inactive tenant now).id = tenant.id ∧ (inactive tenant now).name = tenant.name ∧
      (inactive tenant now).slug = tenant.slug := by
  unfold inactive
  split <;> exact ⟨rfl, rfl, rfl⟩

theorem inactive_isActive (tenant : Tenant) (now : Time) :
    (inactive tenant now).isActive = false := by
  unfold inactive
  split
  · rfl
  · exact Bool.eq_false_iff.mpr ‹_›

def deactivate (db : Database) (id : String) (now : Time) : Except Exception (Tenant × Database) :=
  match findOne db id with
  | .error e => .error e
  | .ok tenant =>
    .ok (inactive tenant now, db.updateTenant tenant.id (fun t => inactive t now)
      fun t => by unfold inactive; split <;> exact ⟨rfl, rfl, rfl⟩)

theorem findOne_ok {db : Database} {id : String} {tenant : Tenant}
    (h : findOne db id = .ok tenant) : db.tenants.find? tenant.id = some tenant := by
  unfold findOne at h
  split at h
  · cases h
  · rename_i uuid _
    split at h <;> cases h
    rename_i hfind
    obtain rfl : tenant.id = uuid := Table.key_of_find? hfind
    exact hfind

theorem create_ok {db db' : Database} {dto : CreateTenantDto} {id : Uuid} {now : Time}
    {tenant : Tenant} (h : create db dto id now = .ok (tenant, db')) :
    tenant = created dto id now ∧ db.insertTenant tenant.stored = some db' := by
  unfold create at h
  split at h
  · cases h
  · split at h <;> cases h
    exact ⟨rfl, ‹_›⟩

theorem deactivate_ok {db db' : Database} {id : String} {now : Time} {tenant : Tenant}
    (h : deactivate db id now = .ok (tenant, db')) :
    db'.users = db.users ∧ db'.conversations = db.conversations := by
  unfold deactivate at h
  split at h <;> cases h
  exact ⟨rfl, rfl⟩

end SupportApi.Tenants
