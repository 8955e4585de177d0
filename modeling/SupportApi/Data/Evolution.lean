import SupportApi.Data.TenantPart

namespace SupportApi

namespace Database

open Lib

structure Evolves (db db' : Database) : Prop extends Extends db db' where
  accounts : ∀ id u, db.users.find? id = some u → ∃ u', db'.users.find? id = some u' ∧
    u'.email = u.email ∧ (u'.isActive = true → u.isActive = true)
  tenants : ∀ id t, db.tenants.find? id = some t → ∃ t', db'.tenants.find? id = some t' ∧
    t'.name = t.name ∧ t'.slug = t.slug ∧ (t'.isActive = true → t.isActive = true)

variable {db db' db'' : Database}

namespace Evolves

theorem user (h : Evolves db db') {id : Uuid} {u : UserRow} (hu : db.users.find? id = some u) :
    ∃ u', db'.users.find? id = some u' ∧ u'.email = u.email ∧ u'.tenantId = u.tenantId ∧
      u'.role = u.role ∧ (u'.isActive = true → u.isActive = true) := by
  obtain ⟨u', hu', htenant, hrole⟩ := h.users id u hu
  obtain ⟨u'', hu'', hemail, hactive⟩ := h.accounts id u hu
  cases hu'.symm.trans hu''
  exact ⟨u', hu', hemail, htenant, hrole, hactive⟩

theorem of_eq (husers : db'.users = db.users) (htenants : db'.tenants = db.tenants)
    (hextends : Extends db db') : Evolves db db' where
  toExtends := hextends
  accounts _ u hu := ⟨u, husers ▸ hu, rfl, id⟩
  tenants _ t ht := ⟨t, htenants ▸ ht, rfl, rfl, id⟩

theorem refl (db : Database) : Evolves db db := of_eq rfl rfl (.of_eq rfl rfl)

theorem trans (h : Evolves db db') (h' : Evolves db' db'') : Evolves db db'' where
  users id u hu := by
    obtain ⟨u', hu', -, htenant, hrole, -⟩ := h.user hu
    obtain ⟨u'', hu'', -, htenant', hrole', -⟩ := h'.user hu'
    exact ⟨u'', hu'', htenant'.trans htenant, hrole'.trans hrole⟩
  conversations id c hc := by
    obtain ⟨c', hc', htenant⟩ := h.conversations id c hc
    obtain ⟨c'', hc'', htenant'⟩ := h'.conversations id c' hc'
    exact ⟨c'', hc'', htenant'.trans htenant⟩
  accounts id u hu := by
    obtain ⟨u', hu', hemail, -, -, hactive⟩ := h.user hu
    obtain ⟨u'', hu'', hemail', -, -, hactive'⟩ := h'.user hu'
    exact ⟨u'', hu'', hemail'.trans hemail, hactive ∘ hactive'⟩
  tenants id t ht := by
    obtain ⟨t', ht', hname, hslug, hactive⟩ := h.tenants id t ht
    obtain ⟨t'', ht'', hname', hslug', hactive'⟩ := h'.tenants id t' ht'
    exact ⟨t'', ht'', hname'.trans hname, hslug'.trans hslug, hactive ∘ hactive'⟩

theorem insertUser {u : UserRow} (h : db.insertUser u = some db') : Evolves db db' where
  toExtends := .insertUser h
  accounts id v hv := by
    obtain ⟨⟨hnew, -⟩, -⟩ := insertUser_some h
    refine ⟨v, ?_, rfl, fun hactive => hactive⟩
    rw [find?_insertUser h, if_neg, hv]
    rintro rfl
    cases hnew.symm.trans hv
  tenants id t ht := ⟨t, (insertUser_some h).2.1 ▸ ht, rfl, rfl, fun hactive => hactive⟩

theorem updateUser (id : Uuid) (f : UserRow → UserRow)
    (hf : ∀ u, (f u).id = u.id ∧ (f u).tenantId = u.tenantId ∧ (f u).email = u.email)
    (hrole : ∀ u, (f u).role = u.role) (hactive : ∀ u, (f u).isActive = true → u.isActive = true) :
    Evolves db (db.updateUser id f hf) where
  toExtends := .updateUser id f hf hrole
  accounts other u hu := by
    by_cases hid : other = id
    · subst hid
      rw [find?_updateUser_self, hu]
      exact ⟨f u, rfl, (hf u).2.2, hactive u⟩
    · rw [find?_updateUser_of_ne _ _ hid]
      exact ⟨u, hu, rfl, fun h => h⟩
  tenants _ t ht := ⟨t, ht, rfl, rfl, fun h => h⟩

theorem insertTenant {t : Tenant} (h : db.insertTenant t = some db') : Evolves db db' := by
  obtain ⟨htenants, husers, hconvs, -⟩ := insertTenant_some h
  refine { toExtends := .of_eq husers hconvs, accounts := ?_, tenants := ?_ }
  · intro id u hu
    exact ⟨u, husers ▸ hu, rfl, fun h => h⟩
  · intro id t' ht'
    refine ⟨t', ?_, rfl, rfl, fun h => h⟩
    rw [Table.find?, htenants, List.find?_append]
    rw [Table.find?] at ht'
    rw [ht', Option.some_or]

theorem updateTenant (id : Uuid) (f : Tenant → Tenant)
    (hf : ∀ t, (f t).id = t.id ∧ (f t).name = t.name ∧ (f t).slug = t.slug)
    (hactive : ∀ t, (f t).isActive = true → t.isActive = true) :
    Evolves db (db.updateTenant id f hf) where
  toExtends := .of_eq rfl rfl
  accounts _ u hu := ⟨u, hu, rfl, fun h => h⟩
  tenants other t ht := by
    by_cases hid : other = id
    · subst hid
      refine ⟨f t, ?_, (hf t).2.1, (hf t).2.2, hactive t⟩
      have hmodify := Table.find?_modify_self db.tenants other f fun t => (hf t).1
      rw [ht] at hmodify
      exact hmodify
    · refine ⟨t, ?_, rfl, rfl, fun h => h⟩
      exact (Table.find?_modify_of_ne db.tenants f (fun t => (hf t).1) hid).trans ht

end Evolves

end Database

end SupportApi
