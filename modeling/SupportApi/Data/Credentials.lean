import SupportApi.Data.Database
import SupportApi.Lib.TwoRun

namespace SupportApi

open Lib

def User.withoutToken (user : User) : User := { user with refreshToken := none }

def UserRow.withoutCredentials (user : UserRow) : UserRow :=
  { user with refreshToken := none, password := "" }

theorem User.eq_of_withoutToken {α : Type} {f : User → α} (hf : ∀ u, f u.withoutToken = f u)
    {u u' : User} (h : u'.withoutToken = u.withoutToken) : f u' = f u := by
  rw [← hf, h, hf]

theorem UserRow.eq_of_withoutCredentials {α : Type} {f : UserRow → α}
    (hf : ∀ u, f u.withoutCredentials = f u) {u u' : UserRow}
    (h : u'.withoutCredentials = u.withoutCredentials) : f u' = f u := by
  rw [← hf, h, hf]

namespace Database

structure SameButCredentials (db db' : Database) : Prop where
  tenants : db'.tenants = db.tenants
  users : db'.users.rows.map UserRow.withoutCredentials =
    db.users.rows.map UserRow.withoutCredentials
  conversations : db'.conversations = db.conversations
  messages : db'.messages = db.messages

def otherToken (token : Option String) : Option String := if token = none then some "" else none

theorem otherToken_ne (token : Option String) : otherToken token ≠ token := by
  cases token <;> simp [otherToken]

def withOtherToken (db : Database) (id : Uuid) : Database :=
  db.updateUser id (fun u => { u with refreshToken := otherToken u.refreshToken })
    fun _ => ⟨rfl, rfl, rfl⟩

theorem sameButCredentials_withOtherToken (db : Database) (id : Uuid) :
    SameButCredentials db (db.withOtherToken id) where
  tenants := rfl
  users := by
    rw [withOtherToken, updateUser, Table.rows_modify, List.map_map]
    apply List.map_congr_left
    intro u _
    simp only [Function.comp]
    split <;> rfl
  conversations := rfl
  messages := rfl

namespace SameButCredentials

variable {db db' : Database} (h : SameButCredentials db db')
include h

theorem find? (id : Uuid) : (db'.users.find? id).map UserRow.withoutCredentials =
    (db.users.find? id).map UserRow.withoutCredentials := by
  have hkey : ∀ u : UserRow, u.withoutCredentials.key = u.key := fun _ => rfl
  exact Table.find?_map_congr hkey h.users id

theorem row {id : Uuid} {u u' : UserRow} (hu : db.users.find? id = some u)
    (hu' : db'.users.find? id = some u') : u'.withoutCredentials = u.withoutCredentials := by
  have hfind := h.find? id
  rw [hu, hu', Option.map_some, Option.map_some] at hfind
  exact Option.some.inj hfind

theorem find?_map {α : Type} {f : UserRow → α} (hf : ∀ u, f u.withoutCredentials = f u) (id : Uuid) :
    (db'.users.find? id).map f = (db.users.find? id).map f := by
  have hfind := congrArg (Option.map f) (h.find? id)
  simpa only [Option.map_map, Function.comp_def, hf] using hfind

theorem isSome_find? (id : Uuid) : (db'.users.find? id).isSome = (db.users.find? id).isSome := by
  simpa only [Option.isSome_map] using congrArg Option.isSome (h.find? id)

theorem filter_find? {p : UserRow → Bool} (hp : ∀ u, p u.withoutCredentials = p u) (id : Uuid) :
    Option.Rel (fun u u' => u'.withoutCredentials = u.withoutCredentials)
      ((db.users.find? id).filter p) ((db'.users.find? id).filter p) := by
  have hfind := h.find? id
  cases hu : db.users.find? id with
  | none =>
    rw [hu, Option.map_none, Option.map_eq_none_iff] at hfind
    rw [hfind]
    exact .none
  | some u =>
    rw [hu, Option.map_some, Option.map_eq_some_iff] at hfind
    obtain ⟨u', hu', hsame⟩ := hfind
    have hcondition : p u' = p u := UserRow.eq_of_withoutCredentials hp hsame
    rw [hu', Option.filter, Option.filter, hcondition]
    split
    · exact .some hsame
    · exact .none

theorem select {p : UserRow → Bool} (hp : ∀ u, p u.withoutCredentials = p u) :
    (db'.users.select p).map UserRow.withoutCredentials =
      (db.users.select p).map UserRow.withoutCredentials :=
  Table.select_map_congr hp h.users

theorem insertConversation (c : Conversation) :
    Option.Rel SameButCredentials (db.insertConversation c) (db'.insertConversation c) := by
  apply rel_of_isSome
  · rw [Bool.eq_iff_iff, insertConversation_isSome, insertConversation_isSome]
    simp only [h.tenants, h.conversations, h.isSome_find?]
  · intro after after' hins hins'
    obtain ⟨⟨hnew, hconvs⟩, htenants, husers, hmessages⟩ := insertConversation_some hins
    obtain ⟨⟨hnew', hconvs'⟩, htenants', husers', hmessages'⟩ := insertConversation_some hins'
    refine ⟨htenants' ▸ htenants ▸ h.tenants, husers' ▸ husers ▸ h.users, ?_,
      hmessages' ▸ hmessages ▸ h.messages⟩
    apply Table.ext
    rw [hconvs, hconvs', Table.rows_insert, Table.rows_insert, h.conversations]

theorem updateConversation (id : Uuid) (f : Conversation → Conversation)
    (hf : ∀ c, (f c).id = c.id ∧ (f c).tenantId = c.tenantId) :
    Option.Rel SameButCredentials (db.updateConversation id f hf)
      (db'.updateConversation id f hf) := by
  apply rel_of_isSome
  · rw [Bool.eq_iff_iff, updateConversation_isSome, updateConversation_isSome]
    simp only [h.conversations, h.isSome_find?]
  · intro after after' hupdate hupdate'
    obtain ⟨hconvs, htenants, husers, hmessages⟩ := updateConversation_some hupdate
    obtain ⟨hconvs', htenants', husers', hmessages'⟩ := updateConversation_some hupdate'
    refine ⟨htenants' ▸ htenants ▸ h.tenants, husers' ▸ husers ▸ h.users, ?_,
      hmessages' ▸ hmessages ▸ h.messages⟩
    rw [hconvs, hconvs', h.conversations]

theorem insertMessage (m : Message) :
    Option.Rel SameButCredentials (db.insertMessage m) (db'.insertMessage m) := by
  apply rel_of_isSome
  · rw [Bool.eq_iff_iff, insertMessage_isSome, insertMessage_isSome]
    simp only [h.conversations, h.messages, h.isSome_find?]
  · intro after after' hins hins'
    obtain ⟨hmessages, htenants, husers, hconvs⟩ := insertMessage_some hins
    obtain ⟨hmessages', htenants', husers', hconvs'⟩ := insertMessage_some hins'
    refine ⟨htenants' ▸ htenants ▸ h.tenants, husers' ▸ husers ▸ h.users,
      hconvs' ▸ hconvs ▸ h.conversations, ?_⟩
    apply Table.ext
    rw [hmessages, hmessages', h.messages]

theorem insertUser (u : UserRow) :
    Option.Rel SameButCredentials (db.insertUser u) (db'.insertUser u) := by
  have hfree : (∀ v ∈ db'.users.rows, u.tenantId.isSome →
        ¬(v.tenantId = u.tenantId ∧ v.email = u.email)) ↔
      ∀ v ∈ db.users.rows, u.tenantId.isSome →
        ¬(v.tenantId = u.tenantId ∧ v.email = u.email) := by
    have hmap : ∀ rows : List UserRow, (∀ v ∈ rows, u.tenantId.isSome →
          ¬(v.tenantId = u.tenantId ∧ v.email = u.email)) ↔
        ∀ v ∈ rows.map UserRow.withoutCredentials, u.tenantId.isSome →
          ¬(v.tenantId = u.tenantId ∧ v.email = u.email) := by
      intro rows
      rw [List.forall_mem_map]
      rfl
    rw [hmap, hmap db.users.rows, h.users]
  have hfind : db'.users.find? u.key = none ↔ db.users.find? u.key = none := by
    rw [← Option.not_isSome_iff_eq_none, h.isSome_find?, Option.not_isSome_iff_eq_none]
  apply rel_of_isSome
  · rw [Bool.eq_iff_iff, insertUser_isSome, insertUser_isSome, hfree, hfind, h.tenants]
  · intro after after' hins hins'
    obtain ⟨⟨hnew, husers⟩, htenants, hconvs, hmessages⟩ := insertUser_some hins
    obtain ⟨⟨hnew', husers'⟩, htenants', hconvs', hmessages'⟩ := insertUser_some hins'
    refine ⟨htenants' ▸ htenants ▸ h.tenants, ?_, hconvs' ▸ hconvs ▸ h.conversations,
      hmessages' ▸ hmessages ▸ h.messages⟩
    rw [husers, husers', Table.rows_insert, Table.rows_insert, List.map_append, List.map_append,
      h.users]

theorem updateUser (id : Uuid) (f : UserRow → UserRow)
    (hf : ∀ u, (f u).id = u.id ∧ (f u).tenantId = u.tenantId ∧ (f u).email = u.email)
    (hcredentials : ∀ u, (f u.withoutCredentials).withoutCredentials = (f u).withoutCredentials) :
    SameButCredentials (db.updateUser id f hf) (db'.updateUser id f hf) where
  tenants := h.tenants
  users := by
    have hrows : ∀ rows : List UserRow,
        (rows.map fun u => if u.key = id then f u else u).map UserRow.withoutCredentials =
          (rows.map UserRow.withoutCredentials).map fun u =>
            (if u.key = id then f u else u).withoutCredentials := by
      intro rows
      rw [List.map_map, List.map_map]
      apply List.map_congr_left
      intro u _
      simp only [Function.comp]
      have hkey : u.withoutCredentials.key = u.key := rfl
      rw [hkey]
      split
      · exact (hcredentials u).symm
      · rfl
    simp only [Database.updateUser, Table.rows_modify]
    rw [hrows, hrows, h.users]
  conversations := h.conversations
  messages := h.messages

theorem insertTenant (t : Tenant) :
    Option.Rel SameButCredentials (db.insertTenant t) (db'.insertTenant t) := by
  apply rel_of_isSome
  · rw [Bool.eq_iff_iff, insertTenant_isSome, insertTenant_isSome, h.tenants]
  · intro after after' hins hins'
    obtain ⟨htenants, husers, hconvs, hmessages⟩ := insertTenant_some hins
    obtain ⟨htenants', husers', hconvs', hmessages'⟩ := insertTenant_some hins'
    refine ⟨?_, husers' ▸ husers ▸ h.users, hconvs' ▸ hconvs ▸ h.conversations,
      hmessages' ▸ hmessages ▸ h.messages⟩
    apply Table.ext
    rw [htenants, htenants', h.tenants]

theorem updateTenant (id : Uuid) (f : Tenant → Tenant)
    (hf : ∀ t, (f t).id = t.id ∧ (f t).name = t.name ∧ (f t).slug = t.slug) :
    SameButCredentials (db.updateTenant id f hf) (db'.updateTenant id f hf) where
  tenants := by simp only [Database.updateTenant, h.tenants]
  users := h.users
  conversations := h.conversations
  messages := h.messages

end SameButCredentials

end Database

end SupportApi
