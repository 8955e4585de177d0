import SupportApi.Data.Seeder
import SupportApi.Lib.Load

universe u

namespace SupportApi.Seed

open Lib Auth

variable {ν : Type u} {numbers : Numbers ν} {run : Run numbers} {db db' db'' : Database}

/-- No tenant has a name of the seeder's under another slug. -/
def NamesFree (db : Database) : Prop :=
  ∀ t ∈ db.tenants.rows, ∀ i, t.name = tenantName i → t.slug = tenantSlug i

def Fresh {ρ : Type} {key : ρ → Uuid} (T : Table key) (ids : List Uuid) : Prop :=
  ids.Nodup ∧ ∀ id ∈ ids, T.find? id = none

structure OnlyTenants (db db' : Database) : Prop where
  users : db'.users = db.users
  conversations : db'.conversations = db.conversations
  messages : db'.messages = db.messages

structure TenantsKept (db db' : Database) : Prop where
  old : ∀ id t, db.tenants.find? id = some t → ∃ name,
    db'.tenants.find? id = some { t with name } ∧ (t.slug ∉ TENANT_SLUGS → name = t.name)
  new : ∀ t ∈ db'.tenants.rows, t ∈ db.tenants.rows ∨
    t.slug ∈ TENANT_SLUGS ∧ (db.tenants.find? t.id = none → t.isActive = true)

theorem OnlyTenants.trans (h : OnlyTenants db db') (h' : OnlyTenants db' db'') :
    OnlyTenants db db'' where
  users := h'.users.trans h.users
  conversations := h'.conversations.trans h.conversations
  messages := h'.messages.trans h.messages

theorem TenantsKept.refl (db : Database) : TenantsKept db db where
  old := fun _ t ht => ⟨t.name, ht, fun _ => rfl⟩
  new := fun _ ht => .inl ht

theorem TenantsKept.trans (h : TenantsKept db db') (h' : TenantsKept db' db'') :
    TenantsKept db db'' where
  old := by
    intro id t ht
    obtain ⟨name, hname, hkept⟩ := h.old id t ht
    obtain ⟨name', hname', hkept'⟩ := h'.old id _ hname
    exact ⟨name', hname', fun hslug => (hkept' hslug).trans (hkept hslug)⟩
  new := by
    intro t ht
    rcases h'.new t ht with hmem | ⟨hslug, hactive⟩
    · exact h.new t hmem
    · refine .inr ⟨hslug, fun hnone => ?_⟩
      cases hfind : db'.tenants.find? t.id with
      | none => exact hactive hfind
      | some t' =>
        -- It was there before the second statement, so the first one added it.
        obtain ⟨name, hname, -⟩ := h'.old _ _ hfind
        rw [Table.find?_self ht, Option.some.injEq] at hname
        rcases h.new t' (Table.mem_of_find? hfind) with hmem | ⟨-, hactive'⟩
        · rw [← Table.key_of_find? hfind, Table.find?_self hmem] at hnone
          cases hnone
        · rw [hname]
          exact hactive' (Table.key_of_find? hfind ▸ hnone)

theorem tenantSlug_mem (i : Fin TENANT_COUNT) : tenantSlug i ∈ TENANT_SLUGS := List.get_mem _ _

theorem tenantSlug_injective {i j : Fin TENANT_COUNT} (h : tenantSlug i = tenantSlug j) :
    i = j := by
  revert i j
  decide

theorem tenantName_injective {i j : Fin TENANT_COUNT} (h : tenantName i = tenantName j) :
    i = j := by
  revert i j
  decide

theorem fits_names (i : Fin TENANT_COUNT) :
    Database.varchar 100 (tenantName i) = true ∧ Database.varchar 100 (tenantSlug i) = true := by
  revert i
  decide

structure Upserts (i : Fin TENANT_COUNT) (defaults : Defaults) (db db' : Database) (id : Uuid) :
    Prop where
  found : ∃ t, db'.tenants.find? id = some t ∧ t.slug = tenantSlug i ∧ t.name = tenantName i
  only : OnlyTenants db db'
  kept : TenantsKept db db'
  others : ∀ t ∈ db'.tenants.rows, t ∈ db.tenants.rows ∨
    t.slug = tenantSlug i ∧ t.name = tenantName i
  unchanged : ∀ k t, db.tenants.find? k = some t → t.slug ≠ tenantSlug i →
    db'.tenants.find? k = some t
  free : ∀ k, k ≠ defaults.id → db.tenants.find? k = none → db'.tenants.find? k = none

theorem renames {i : Fin TENANT_COUNT} {t : Tenant} (ht : t ∈ db.tenants.rows)
    (hslug : t.slug = tenantSlug i) (h : db.renameTenant t.id (tenantName i) = some db')
    (defaults : Defaults) : Upserts i defaults db db' t.id := by
  obtain ⟨htenants, husers, hconversations, hmessages⟩ := Database.renameTenant_some h
  have hfind : db'.tenants.find? t.id = some { t with name := tenantName i } := by
    rw [htenants, Table.find?_modify_self, Table.find?_self ht]
    rfl
  have hothers : ∀ k, k ≠ t.id → db'.tenants.find? k = db.tenants.find? k := by
    intro k hk
    rw [htenants, Table.find?_modify_of_ne _ _ _ hk]
  have hmem : ∀ u ∈ db'.tenants.rows, u ∈ db.tenants.rows ∨
      u = { t with name := tenantName i } := by
    intro u hu
    rw [htenants] at hu
    rcases Table.mem_modify.mp hu with ⟨hold, -⟩ | ⟨t', ht', rfl⟩
    · exact .inl hold
    · rw [Table.find?_self ht] at ht'
      exact .inr (by rw [Option.some.inj ht'])
  exact {
    found := ⟨_, hfind, hslug, rfl⟩
    only := ⟨husers, hconversations, hmessages⟩
    kept := {
      old := by
        intro id u hu
        by_cases hid : id = t.id
        · subst hid
          rw [Table.find?_self ht, Option.some.injEq] at hu
          subst hu
          exact ⟨_, hfind, fun hnot => absurd (hslug ▸ tenantSlug_mem i) hnot⟩
        · exact ⟨u.name, (hothers id hid).trans hu, fun _ => rfl⟩
      new := by
        intro u hu
        rcases hmem u hu with hold | rfl
        · exact .inl hold
        · refine .inr ⟨hslug ▸ tenantSlug_mem i, fun hnone => ?_⟩
          cases (Table.find?_self ht).symm.trans hnone }
    others := by
      intro u hu
      rcases hmem u hu with hold | rfl
      · exact .inl hold
      · exact .inr ⟨hslug, rfl⟩
    unchanged := by
      intro k u hu hne
      refine (hothers k fun hk => hne ?_).trans hu
      rw [hk, Table.find?_self ht, Option.some.injEq] at hu
      exact hu ▸ hslug
    free := by
      intro k _ hnone
      by_cases hk : k = t.id
      · cases (Table.find?_self ht).symm.trans (hk ▸ hnone)
      · exact (hothers k hk).trans hnone }

theorem inserts {i : Fin TENANT_COUNT} {t : Tenant} (hslug : t.slug = tenantSlug i)
    (hname : t.name = tenantName i) (hactive : t.isActive = true)
    (h : db.insertTenant t = some db') {defaults : Defaults} (hid : t.id = defaults.id) :
    Upserts i defaults db db' t.id := by
  obtain ⟨hrows, husers, hconversations, hmessages⟩ := Database.insertTenant_some h
  have hnew := (Database.insertTenant_isSome.mp (Option.isSome_of_eq_some h)).2.1
  have htenants : db'.tenants = db.tenants.insert t hnew := Table.ext hrows
  have hfind : ∀ k, db'.tenants.find? k = if t.id = k then some t else db.tenants.find? k := by
    intro k
    rw [htenants, Table.find?_insert]
  have hmem : ∀ u ∈ db'.tenants.rows, u ∈ db.tenants.rows ∨ u = t := by
    intro u hu
    rw [hrows, List.mem_append, List.mem_singleton] at hu
    exact hu
  have hold : ∀ k u, db.tenants.find? k = some u → db'.tenants.find? k = some u := by
    intro k u hu
    have hne : t.id ≠ k := by
      rintro rfl
      cases hnew.symm.trans hu
    exact ((hfind k).trans (if_neg hne)).trans hu
  exact {
    found := ⟨t, (hfind _).trans (if_pos rfl), hslug, hname⟩
    only := ⟨husers, hconversations, hmessages⟩
    kept := {
      old := fun id u hu => ⟨u.name, hold id u hu, fun _ => rfl⟩
      new := by
        intro u hu
        rcases hmem u hu with hold | rfl
        · exact .inl hold
        · exact .inr ⟨hslug ▸ tenantSlug_mem i, fun _ => hactive⟩ }
    others := by
      intro u hu
      rcases hmem u hu with hold | rfl
      · exact .inl hold
      · exact .inr ⟨hslug, hname⟩
    unchanged := fun k u hu _ => hold k u hu
    free := by
      intro k hk hnone
      rw [hfind, if_neg (hid ▸ hk.symm)]
      exact hnone }

theorem upsertTenant_some {i : Fin TENANT_COUNT} {defaults : Defaults} (hfree : NamesFree db)
    (hfresh : db.tenants.find? defaults.id = none) :
    ∃ db' id, upsertTenant db (tenantName i) (tenantSlug i) defaults = some (db', id) ∧
      Upserts i defaults db db' id := by
  have hfits : (⟨defaults.id, tenantName i, tenantSlug i, true, none, defaults.now, defaults.now⟩ :
      Tenant).fits = true := by
    simp only [Tenant.fits, (fits_names i).1, (fits_names i).2, Option.all_none, Bool.and_self]
  simp only [upsertTenant, if_pos hfits]
  split
  · rename_i found hfound
    obtain ⟨hmem, hslug⟩ := List.mem_filter.mp (List.mem_of_head? hfound)
    rw [decide_eq_true_eq] at hslug
    have hrename : (db.renameTenant found.id (tenantName i)).isSome := by
      refine Database.renameTenant_isSome.mpr ⟨(fits_names i).1, ?_⟩
      intro t ht hid hname
      have hsame := db.tenants_slug t ht found hmem ((hfree t ht i hname).trans hslug.symm)
      exact hid (congrArg Tenant.id hsame)
    obtain ⟨db', hdb'⟩ := Option.isSome_iff_exists.mp hrename
    exact ⟨db', found.id, by rw [hdb']; rfl, renames hmem hslug hdb' defaults⟩
  · rename_i hnone
    rw [List.head?_eq_none_iff, Table.select, List.filter_eq_nil_iff] at hnone
    have hinsert : (db.insertTenant ⟨defaults.id, tenantName i, tenantSlug i, true, none,
        defaults.now, defaults.now⟩).isSome := by
      refine Database.insertTenant_isSome.mpr ⟨hfits, hfresh, ?_⟩
      intro t ht
      have hslug : t.slug ≠ tenantSlug i := fun hslug => hnone t ht (decide_eq_true hslug)
      exact ⟨fun hname => hslug (hfree t ht i hname), hslug⟩
    obtain ⟨db', hdb'⟩ := Option.isSome_iff_exists.mp hinsert
    exact ⟨db', _, by rw [hdb']; rfl, inserts rfl rfl rfl hdb' rfl⟩

structure Upserted (run : Run numbers) (db : Database) (rest : List (Fin TENANT_COUNT))
    (s : Database × List (Fin TENANT_COUNT × Uuid)) : Prop where
  nodup : rest.Nodup
  fresh : ∀ i ∈ rest, s.1.tenants.find? (run.tenants i).id = none
  free : NamesFree s.1
  found : ∀ i, i ∉ rest → ∃ id t, s.2.lookup i = some id ∧ s.1.tenants.find? id = some t ∧
    t.slug = tenantSlug i ∧ t.name = tenantName i
  only : OnlyTenants db s.1
  kept : TenantsKept db s.1

theorem Upserted.step (hids : ∀ i j, (run.tenants i).id = (run.tenants j).id → i = j)
    {i : Fin TENANT_COUNT} {rest : List (Fin TENANT_COUNT)}
    {s : Database × List (Fin TENANT_COUNT × Uuid)} (h : Upserted run db (i :: rest) s) :
    ∃ s', ((upsertTenant s.1 (tenantName i) (tenantSlug i) (run.tenants i)).map
        fun (db, id) => (db, (i, id) :: s.2)) = some s' ∧ Upserted run db rest s' := by
  obtain ⟨db', id, hupsert, hdb'⟩ := upsertTenant_some h.free (h.fresh i List.mem_cons_self)
  obtain ⟨hi, hrest⟩ := List.nodup_cons.mp h.nodup
  refine ⟨(db', (i, id) :: s.2), by rw [hupsert]; rfl, ?_⟩
  exact {
    nodup := hrest
    fresh := by
      intro j hj
      refine hdb'.free _ (fun heq => ?_) (h.fresh j (List.mem_cons_of_mem _ hj))
      exact hi (hids _ _ heq ▸ hj)
    free := by
      intro t ht j hname
      rcases hdb'.others t ht with hold | ⟨hslug, hname'⟩
      · exact h.free t hold j hname
      · rw [hslug, tenantName_injective (hname'.symm.trans hname)]
    found := by
      intro j hj
      by_cases hji : j = i
      · subst hji
        obtain ⟨t, ht⟩ := hdb'.found
        exact ⟨id, t, List.lookup_cons_self, ht⟩
      · have hnot : j ∉ i :: rest := fun hmem => (List.mem_cons.mp hmem).elim hji hj
        obtain ⟨id', t, hlookup, hfind, hslug, hname⟩ := h.found j hnot
        have hne : t.slug ≠ tenantSlug i := fun heq =>
          hji (tenantSlug_injective (hslug.symm.trans heq))
        refine ⟨id', t, ?_, hdb'.unchanged _ _ hfind hne, hslug, hname⟩
        rw [List.lookup_cons, beq_false_of_ne hji]
        exact hlookup
    only := h.only.trans hdb'.only
    kept := h.kept.trans hdb'.kept }

def Named (db : Database) (ids : Fin TENANT_COUNT → Uuid) : Prop :=
  ∀ i, ∃ t, db.tenants.find? (ids i) = some t ∧ t.slug = tenantSlug i ∧ t.name = tenantName i

theorem Named.injective {ids : Fin TENANT_COUNT → Uuid} (h : Named db ids) :
    Function.Injective ids := by
  intro i j hij
  obtain ⟨t, ht, hslug, -⟩ := h i
  obtain ⟨t', ht', hslug', -⟩ := h j
  rw [hij, ht', Option.some.injEq] at ht
  exact tenantSlug_injective (hslug.symm.trans (ht ▸ hslug'))

theorem seedTenants_some (hfree : NamesFree db)
    (hfresh : Fresh db.tenants ((List.finRange TENANT_COUNT).map fun i => (run.tenants i).id)) :
    ∃ db' ids, seedTenants run db = some (db', (List.finRange TENANT_COUNT).map ids) ∧
      Named db' ids ∧ OnlyTenants db db' ∧ TenantsKept db db' := by
  have hids : ∀ i j, (run.tenants i).id = (run.tenants j).id → i = j := fun i j hij =>
    List.inj_on_of_nodup_map hfresh.1 (List.mem_finRange i) (List.mem_finRange j) hij
  have hstart : Upserted run db run.order (db, []) := {
    nodup := run.order_perm.nodup_iff.mpr (List.nodup_finRange _)
    fresh := fun i _ => hfresh.2 _ (List.mem_map_of_mem (List.mem_finRange i))
    free := hfree
    found := fun i hi => absurd (run.order_perm.mem_iff.mpr (List.mem_finRange i)) hi
    only := ⟨rfl, rfl, rfl⟩
    kept := .refl db }
  obtain ⟨⟨db', inserted⟩, hrun, hend⟩ :=
    foldlM_of_step (I := Upserted run db) (fun i rest s h => h.step hids) hstart
  choose ids t hlookup hfind hnames using fun i => hend.found i List.not_mem_nil
  refine ⟨db', ids, ?_, fun i => ⟨t i, hfind i, hnames i⟩, hend.only, hend.kept⟩
  have htenantIds : ((List.finRange TENANT_COUNT).filterMap fun i => inserted.lookup i) =
      (List.finRange TENANT_COUNT).map ids := by
    rw [← List.filterMap_eq_map]
    apply List.filterMap_congr
    intro i _
    exact hlookup i
  rw [seedTenants, hrun]
  exact congrArg (fun tenantIds => some (db', tenantIds)) htenantIds

end SupportApi.Seed
