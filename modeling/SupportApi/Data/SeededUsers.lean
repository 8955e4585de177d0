import SupportApi.Data.SeededTenants

universe u

namespace SupportApi

def UserRow.address (u : UserRow) : Option Uuid × String := (u.tenantId, u.email)

namespace Seed

open Lib Auth

variable {ν : Type u} {numbers : Numbers ν} {bcrypt : Bcrypt} {run : Run numbers}
  {db db' : Database}

def Storable (bcrypt : Bcrypt) : Prop :=
  ∀ salt, Database.text (bcrypt.hash salt (utf8 "Password123!".toList)) = true

structure OnlyUsers (db db' : Database) : Prop where
  tenants : db'.tenants = db.tenants
  conversations : db'.conversations = db.conversations
  messages : db'.messages = db.messages

theorem OnlyUsers.trans {db'' : Database} (h : OnlyUsers db db') (h' : OnlyUsers db' db'') :
    OnlyUsers db db'' where
  tenants := h'.tenants.trans h.tenants
  conversations := h'.conversations.trans h.conversations
  messages := h'.messages.trans h.messages

structure Insertable (db : Database) (u : UserRow) : Prop where
  fits : u.fits = true
  fresh : db.users.find? u.key = none
  tenant : (u.tenantId.all fun t => (db.tenants.find? t).isSome) = true

theorem taken_iff {u : UserRow} :
    taken db u = true ↔
      u.tenantId.isSome = true ∧ u.address ∈ db.users.rows.map UserRow.address := by
  simp only [taken, Bool.and_eq_true, List.any_eq_true, decide_eq_true_eq, List.mem_map,
    UserRow.address, Prod.mk.injEq]

structure Inserts (db db' : Database) (rows : List UserRow) : Prop where
  rows : db'.users.rows = rows
  only : OnlyUsers db db'

theorem insertOrNothing_some {u : UserRow} (h : Insertable db u) :
    ∃ db', insertOrNothing db u = some (db', if taken db u then none else some u.id) ∧
      Inserts db db' (if taken db u then db.users.rows else db.users.rows ++ [u]) := by
  have hfresh : (db.users.find? u.key).isSome = false := by rw [h.fresh]; rfl
  cases htaken : taken db u with
  | true =>
    refine ⟨db, ?_, rfl, rfl, rfl, rfl⟩
    rw [insertOrNothing, htaken, h.fits]
    rfl
  | false =>
    have hinsert : (db.insertUser u).isSome := by
      refine Database.insertUser_isSome.mpr ⟨h.fits, h.fresh, h.tenant, ?_⟩
      rintro v hv htenant ⟨hsame, hemail⟩
      refine Bool.false_ne_true (htaken.symm.trans (taken_iff.mpr ⟨htenant, ?_⟩))
      exact List.mem_map.mpr ⟨v, hv, Prod.ext hsame hemail⟩
    obtain ⟨db', hdb'⟩ := Option.isSome_iff_exists.mp hinsert
    obtain ⟨⟨hnew, husers⟩, htenants, hconversations, hmessages⟩ := Database.insertUser_some hdb'
    refine ⟨db', ?_, congrArg Table.rows husers, htenants, hconversations, hmessages⟩
    rw [insertOrNothing, htaken, hfresh, hdb', Bool.or_self, Bool.and_false]
    rfl

theorem Insertable.append {rows : List UserRow} {v : UserRow} (hv : Insertable db v)
    (h : Inserts db db' (db.users.rows ++ rows)) (hne : ∀ u ∈ rows, u.key ≠ v.key) :
    Insertable db' v where
  fits := hv.fits
  fresh := by
    rw [Table.find?_eq_none_iff, h.rows]
    intro r hr
    rcases List.mem_append.mp hr with hr | hr
    · exact Table.find?_eq_none_iff.mp hv.fresh r hr
    · exact hne r hr
  tenant := by
    rw [h.only.tenants]
    exact hv.tenant

variable (bcrypt run)

def staffOf (i : Fin TENANT_COUNT) (tenantId : Uuid) : List UserRow :=
  tenantAdmin bcrypt run i tenantId (tenantSlug i) ::
    [1, 2].map (agent bcrypt run i tenantId (tenantSlug i))

def staff (ids : Fin TENANT_COUNT → Uuid) : List UserRow :=
  (List.finRange TENANT_COUNT).flatMap fun i => staffOf bcrypt run i (ids i)

def userIds : List Uuid := (List.range (3 * TENANT_COUNT + 1)).map fun k => (run.users k).id

variable {ids : Fin TENANT_COUNT → Uuid}

theorem address_staffOf (i : Fin TENANT_COUNT) (tenantId : Uuid) :
    (staffOf bcrypt run i tenantId).map UserRow.address =
      ["admin@", "agent1@", "agent2@"].map fun name =>
        (some tenantId, name ++ (tenantSlug i ++ ".com")) := by
  have h1 : toString 1 = "1" := rfl
  have h2 : toString 2 = "2" := rfl
  simp [staffOf, tenantAdmin, agent, userRow, UserRow.address, String.append_assoc, h1, h2]

theorem key_staffOf (i : Fin TENANT_COUNT) (tenantId : Uuid) :
    (staffOf bcrypt run i tenantId).map UserRow.key =
      (List.range' (3 * i + 1) 3).map fun k => (run.users k).id := rfl

theorem nodup_address_staffOf (i : Fin TENANT_COUNT) (tenantId : Uuid) :
    ((staffOf bcrypt run i tenantId).map UserRow.address).Nodup := by
  rw [address_staffOf]
  refine List.Nodup.map ?_ (by decide)
  intro name name' h
  have hlist := congrArg String.toList (Prod.mk.inj h).2
  simp only [String.toList_append] at hlist
  exact String.toList_injective (List.append_cancel_right hlist)

variable {bcrypt run}

theorem tenantId_of_mem_staffOf {i : Fin TENANT_COUNT} {tenantId : Uuid} {u : UserRow}
    (h : u ∈ staffOf bcrypt run i tenantId) : u.tenantId = some tenantId := by
  have haddress := List.mem_map_of_mem (f := UserRow.address) h
  rw [address_staffOf] at haddress
  obtain ⟨name, -, hname⟩ := List.mem_map.mp haddress
  exact (congrArg Prod.fst hname).symm

theorem randomChoice_mem {α : Type} (arr : List α) (h : arr ≠ []) (rand : Random numbers) :
    randomChoice arr h rand ∈ arr := List.get_mem _ _

theorem fits_userRow {defaults : Defaults} {tenantId : Option Uuid}
    {firstName lastName email : String} {role : UserRole} (hbcrypt : Storable bcrypt)
    (hfirst : Database.varchar 100 firstName = true) (hlast : Database.varchar 100 lastName = true)
    (hemail : Database.varchar 255 email = true) :
    (userRow defaults tenantId firstName lastName email (hashedPassword bcrypt run) role).fits =
      true := by
  have hhash : Database.text (hashedPassword bcrypt run) = true := hbcrypt _
  simp only [UserRow.fits, userRow, hfirst, hlast, hemail, hhash, Option.all_none, Bool.and_self]

theorem fits_staffOf (hbcrypt : Storable bcrypt) {i : Fin TENANT_COUNT} {tenantId : Uuid}
    {u : UserRow} (h : u ∈ staffOf bcrypt run i tenantId) : u.fits = true := by
  have hfirst : ∀ s ∈ FIRST_NAMES, Database.varchar 100 s = true := by decide
  have hlast : ∀ s ∈ LAST_NAMES, Database.varchar 100 s = true := by decide
  have hadmin : ∀ i, Database.varchar 255 ("admin@" ++ tenantSlug i ++ ".com") = true := by
    decide +kernel
  have hagent : ∀ i, ∀ a ∈ [1, 2],
      Database.varchar 255 ("agent" ++ toString a ++ "@" ++ tenantSlug i ++ ".com") = true := by
    decide +kernel
  rcases List.mem_cons.mp h with rfl | h
  · exact fits_userRow hbcrypt (by decide) (fits_names i).2 (hadmin i)
  · obtain ⟨a, ha, rfl⟩ := List.mem_map.mp h
    exact fits_userRow hbcrypt (hfirst _ (randomChoice_mem ..)) (hlast _ (randomChoice_mem ..))
      (hagent i a ha)

def newcomers (db : Database) (us : List UserRow) : List UserRow :=
  us.filter fun u => u.address ∉ db.users.rows.map UserRow.address

theorem newcomers_congr {us : List UserRow}
    (h : ∀ u ∈ us, u.address ∈ db'.users.rows.map UserRow.address ↔
      u.address ∈ db.users.rows.map UserRow.address) : newcomers db' us = newcomers db us := by
  apply List.filter_congr
  intro u hu
  simp only [h u hu]

theorem Inserts.address {us : List UserRow} (h : Inserts db db' (db.users.rows ++ newcomers db us))
    {u : UserRow} (hne : u.address ∉ us.map UserRow.address) :
    u.address ∈ db'.users.rows.map UserRow.address ↔
      u.address ∈ db.users.rows.map UserRow.address := by
  rw [h.rows, List.map_append, List.mem_append]
  refine or_iff_left fun hnew => hne ?_
  exact List.map_subset _ (List.filter_subset_self _) hnew

theorem Insertable.afterNewcomers {us : List UserRow} {v : UserRow}
    (h : Inserts db db' (db.users.rows ++ newcomers db us)) (hv : Insertable db v)
    (hne : v.key ∉ us.map UserRow.key) : Insertable db' v :=
  hv.append h fun _ hu heq => hne (heq ▸ List.mem_map_of_mem (List.mem_filter.mp hu).1)

theorem newcomers_append (us vs : List UserRow) :
    newcomers db (us ++ vs) = newcomers db us ++ newcomers db vs := List.filter_append ..

theorem insertOrNothing_newcomer {u : UserRow} (h : Insertable db u)
    (htenant : u.tenantId.isSome = true) :
    ∃ db' id, insertOrNothing db u = some (db', id) ∧
      id.toList = (newcomers db [u]).map UserRow.key ∧
      Inserts db db' (db.users.rows ++ newcomers db [u]) := by
  obtain ⟨db', hinsert, hdb'⟩ := insertOrNothing_some h
  have hiff : taken db u = true ↔ u.address ∈ db.users.rows.map UserRow.address := by
    rw [taken_iff, and_iff_right htenant]
  by_cases htaken : u.address ∈ db.users.rows.map UserRow.address
  · have hnone : newcomers db [u] = [] := List.filter_cons_of_neg (by simpa using htaken)
    rw [if_pos (hiff.mpr htaken)] at hinsert hdb'
    refine ⟨db', none, hinsert, by rw [hnone]; rfl, ?_⟩
    rw [hnone, List.append_nil]
    exact hdb'
  · have hnew : newcomers db [u] = [u] := List.filter_cons_of_pos (by simpa using htaken)
    rw [if_neg fun h => htaken (hiff.mp h)] at hinsert hdb'
    refine ⟨db', some u.id, hinsert, by rw [hnew]; rfl, ?_⟩
    rw [hnew]
    exact hdb'

theorem Inserts.then {db'' : Database} {us vs : List UserRow}
    (h : Inserts db db' (db.users.rows ++ newcomers db us))
    (hne : ∀ v ∈ vs, v.address ∉ us.map UserRow.address)
    (h' : Inserts db' db'' (db'.users.rows ++ newcomers db' vs)) :
    newcomers db' vs = newcomers db vs ∧
      Inserts db db'' (db.users.rows ++ newcomers db (us ++ vs)) := by
  have hsame : newcomers db' vs = newcomers db vs :=
    newcomers_congr fun v hv => h.address (hne v hv)
  refine ⟨hsame, ?_, h.only.trans h'.only⟩
  rw [h'.rows, h.rows, hsame, newcomers_append, List.append_assoc]

theorem insertEach_some {us : List UserRow}
    (hins : ∀ u ∈ us, Insertable db u ∧ u.tenantId.isSome = true)
    (hkeys : (us.map UserRow.key).Nodup) (haddresses : (us.map UserRow.address).Nodup)
    (acc : List Uuid) :
    ∃ db', us.foldlM (fun s u => (insertOrNothing s.1 u).map fun (db, id) => (db, s.2 ++ id.toList))
        (db, acc) = some (db', acc ++ (newcomers db us).map UserRow.key) ∧
      Inserts db db' (db.users.rows ++ newcomers db us) := by
  induction us generalizing db acc with
  | nil => exact ⟨db, congrArg (fun ids => some (db, ids)) (List.append_nil acc).symm,
      (List.append_nil _).symm, rfl, rfl, rfl⟩
  | cons u us ih =>
    obtain ⟨⟨hu, htenant⟩, hus⟩ := List.forall_mem_cons.mp hins
    rw [List.map_cons, List.nodup_cons] at hkeys haddresses
    obtain ⟨db', id, hinsert, hid, hdb'⟩ := insertOrNothing_newcomer hu htenant
    have hrest : ∀ v ∈ us, Insertable db' v ∧ v.tenantId.isSome = true := by
      intro v hv
      refine ⟨(hus v hv).1.afterNewcomers hdb' ?_, (hus v hv).2⟩
      rintro hkey
      rw [List.map_singleton, List.mem_singleton] at hkey
      exact hkeys.1 (hkey ▸ List.mem_map_of_mem hv)
    obtain ⟨db'', hfold, hdb''⟩ := ih hrest hkeys.2 haddresses.2 (acc ++ id.toList)
    have hne : ∀ v ∈ us, v.address ∉ [u].map UserRow.address := by
      intro v hv haddress
      rw [List.map_singleton, List.mem_singleton] at haddress
      exact haddresses.1 (haddress ▸ List.mem_map_of_mem hv)
    obtain ⟨hsame, hall⟩ := hdb'.then hne hdb''
    refine ⟨db'', ?_, hall⟩
    have hids : acc ++ (newcomers db (u :: us)).map UserRow.key =
        acc ++ id.toList ++ (newcomers db' us).map UserRow.key := by
      rw [hid, hsame, List.append_assoc, ← List.map_append, ← newcomers_append,
        List.singleton_append]
    rw [List.foldlM_cons, hinsert, hids]
    exact hfold

variable (bcrypt run) in
def hired (db : Database) (i : Fin TENANT_COUNT) (tenantId : Uuid) : List Uuid :=
  (newcomers db ([1, 2].map (agent bcrypt run i tenantId (tenantSlug i)))).map UserRow.key

theorem seedTenantUsers_some (hids : Function.Injective ids) {i : Fin TENANT_COUNT}
    (hins : ∀ u ∈ staffOf bcrypt run i (ids i), Insertable db u)
    (hkeys : ((staffOf bcrypt run i (ids i)).map UserRow.key).Nodup)
    (agents : List (Uuid × List Uuid)) :
    ∃ db', seedTenantUsers bcrypt run ((List.finRange TENANT_COUNT).map ids) (db, agents) (ids i) =
        some (db', (ids i, hired bcrypt run db i (ids i)) :: agents) ∧
      Inserts db db' (db.users.rows ++ newcomers db (staffOf bcrypt run i (ids i))) := by
  have hidx : ((List.finRange TENANT_COUNT).map ids).idxOf (ids i) = i := by
    have hnodup : ((List.finRange TENANT_COUNT).map ids).Nodup :=
      (List.nodup_finRange _).map hids
    have hi : i.val < ((List.finRange TENANT_COUNT).map ids).length := by simp
    have hget : ((List.finRange TENANT_COUNT).map ids)[i.val] = ids i := by simp
    rw [← hget]
    exact hnodup.idxOf_getElem i.val hi
  have hslug : TENANT_SLUGS[i.val]? = some (tenantSlug i) := List.getElem?_eq_getElem _
  have htenant : ∀ u ∈ staffOf bcrypt run i (ids i), u.tenantId.isSome = true := by
    intro u hu
    rw [tenantId_of_mem_staffOf hu]
    rfl
  have haddresses := nodup_address_staffOf bcrypt run i (ids i)
  rw [staffOf, List.map_cons, List.nodup_cons] at hkeys haddresses
  obtain ⟨hadmin, hagents⟩ := List.forall_mem_cons.mp hins
  obtain ⟨htenant, htenants⟩ := List.forall_mem_cons.mp htenant
  obtain ⟨db', id, hinsert, -, hdb'⟩ := insertOrNothing_newcomer hadmin htenant
  have hrest : ∀ v ∈ [1, 2].map (agent bcrypt run i (ids i) (tenantSlug i)),
      Insertable db' v ∧ v.tenantId.isSome = true := by
    intro v hv
    refine ⟨(hagents v hv).afterNewcomers hdb' ?_, htenants v hv⟩
    rintro hkey
    rw [List.map_singleton, List.mem_singleton] at hkey
    exact hkeys.1 (hkey ▸ List.mem_map_of_mem hv)
  obtain ⟨db'', hfold, hdb''⟩ := insertEach_some hrest hkeys.2 haddresses.2 []
  have hne : ∀ v ∈ [1, 2].map (agent bcrypt run i (ids i) (tenantSlug i)),
      v.address ∉ [tenantAdmin bcrypt run i (ids i) (tenantSlug i)].map UserRow.address := by
    intro v hv haddress
    rw [List.map_singleton, List.mem_singleton] at haddress
    exact haddresses.1 (haddress ▸ List.mem_map_of_mem hv)
  obtain ⟨hsame, hall⟩ := hdb'.then hne hdb''
  refine ⟨db'', ?_, hall⟩
  rw [List.foldlM_map, hsame, List.nil_append] at hfold
  simp only [seedTenantUsers, hidx, hslug, hinsert, Option.bind_eq_bind, Option.bind_some, hfold]
  rfl

structure Staffed (bcrypt : Bcrypt) (run : Run numbers) (ids : Fin TENANT_COUNT → Uuid)
    (db : Database) (rest : List (Fin TENANT_COUNT)) (s : Database × List (Uuid × List Uuid)) :
    Prop where
  nodup : rest.Nodup
  rows : s.1.users.rows ++ newcomers db (rest.flatMap fun i => staffOf bcrypt run i (ids i)) =
    db.users.rows ++ newcomers db (staff bcrypt run ids)
  same : ∀ i ∈ rest, ∀ u ∈ staffOf bcrypt run i (ids i),
    u.address ∈ s.1.users.rows.map UserRow.address ↔ u.address ∈ db.users.rows.map UserRow.address
  insertable : ∀ i ∈ rest, ∀ u ∈ staffOf bcrypt run i (ids i), Insertable s.1 u
  agents : ∀ i, i ∉ rest → s.2.lookup (ids i) = some (hired bcrypt run db i (ids i))
  only : OnlyUsers db s.1

theorem address_ne_of_ne (hids : Function.Injective ids) {i j : Fin TENANT_COUNT} (hne : j ≠ i)
    {u : UserRow} (hu : u ∈ staffOf bcrypt run j (ids j)) :
    u.address ∉ (staffOf bcrypt run i (ids i)).map UserRow.address := by
  intro hmem
  obtain ⟨v, hv, haddress⟩ := List.mem_map.mp hmem
  have htenant := congrArg Prod.fst haddress
  simp only [UserRow.address, tenantId_of_mem_staffOf hu, tenantId_of_mem_staffOf hv,
    Option.some.injEq] at htenant
  exact hne (hids htenant).symm

theorem index_lt {i : Fin TENANT_COUNT} {k : Nat} (hk : k ∈ List.range' (3 * i + 1) 3) :
    3 * i + 1 ≤ k ∧ k < 3 * i + 4 ∧ k < 3 * TENANT_COUNT + 1 := by
  rw [List.mem_range'_1] at hk
  have hi : i.val < 5 := i.isLt
  have hcount : TENANT_COUNT = 5 := rfl
  omega

section Keys

variable (huserIds : (userIds run).Nodup)
include huserIds

theorem users_injective {k l : Nat} (hk : k < 3 * TENANT_COUNT + 1) (hl : l < 3 * TENANT_COUNT + 1)
    (h : (run.users k).id = (run.users l).id) : k = l :=
  List.inj_on_of_nodup_map huserIds (List.mem_range.mpr hk) (List.mem_range.mpr hl) h

theorem nodup_key_staffOf (i : Fin TENANT_COUNT) (tenantId : Uuid) :
    ((staffOf bcrypt run i tenantId).map UserRow.key).Nodup := by
  rw [key_staffOf]
  refine List.Nodup.map_on ?_ List.nodup_range'
  intro k hk l hl h
  exact users_injective huserIds (index_lt hk).2.2 (index_lt hl).2.2 h

theorem key_ne_of_ne {i j : Fin TENANT_COUNT} (hne : j ≠ i) {tenantId tenantId' : Uuid}
    {u : UserRow} (hu : u ∈ staffOf bcrypt run j tenantId) :
    u.key ∉ (staffOf bcrypt run i tenantId').map UserRow.key := by
  intro hmem
  have hkey := List.mem_map_of_mem (f := UserRow.key) hu
  rw [key_staffOf, List.mem_map] at hmem hkey
  obtain ⟨k, hk, hkeq⟩ := hmem
  obtain ⟨l, hl, hleq⟩ := hkey
  obtain ⟨hk, hk', hklt⟩ := index_lt hk
  obtain ⟨hl, hl', hllt⟩ := index_lt hl
  have hkl := users_injective huserIds hklt hllt (hkeq.trans hleq.symm)
  exact hne (Fin.ext (by omega))

theorem Staffed.step (hids : Function.Injective ids) {i : Fin TENANT_COUNT}
    {rest : List (Fin TENANT_COUNT)} {s : Database × List (Uuid × List Uuid)}
    (h : Staffed bcrypt run ids db (i :: rest) s) :
    ∃ s', seedTenantUsers bcrypt run ((List.finRange TENANT_COUNT).map ids) s (ids i) = some s' ∧
      Staffed bcrypt run ids db rest s' := by
  obtain ⟨hi, hrest⟩ := List.nodup_cons.mp h.nodup
  have hne : ∀ {j}, j ∈ rest → j ≠ i := fun hj heq => hi (heq ▸ hj)
  obtain ⟨db', hseed, hdb'⟩ := seedTenantUsers_some hids (h.insertable i List.mem_cons_self)
    (nodup_key_staffOf huserIds i (ids i)) s.2
  have hsame := h.same i List.mem_cons_self
  have hhired : hired bcrypt run s.1 i (ids i) = hired bcrypt run db i (ids i) :=
    congrArg (List.map UserRow.key)
      (newcomers_congr fun u hu => hsame u (List.mem_cons_of_mem _ hu))
  refine ⟨_, hseed, ?_⟩
  exact {
    nodup := hrest
    rows := by
      rw [← h.rows, List.flatMap_cons, newcomers_append, hdb'.rows, newcomers_congr hsame,
        List.append_assoc]
    same := fun j hj u hu => (hdb'.address (address_ne_of_ne hids (hne hj) hu)).trans
      (h.same j (List.mem_cons_of_mem _ hj) u hu)
    insertable := fun j hj u hu => (h.insertable j (List.mem_cons_of_mem _ hj) u hu).afterNewcomers
      hdb' (key_ne_of_ne huserIds (hne hj) hu)
    agents := by
      intro j hj
      by_cases hji : j = i
      · subst hji
        rw [List.lookup_cons_self, hhired]
      · rw [List.lookup_cons, beq_false_of_ne (hids.ne hji)]
        exact h.agents j fun hmem => (List.mem_cons.mp hmem).elim hji hj
    only := h.only.trans hdb'.only }

end Keys

theorem seedUsers_some (hbcrypt : Storable bcrypt) (hids : Function.Injective ids)
    (htenants : ∀ i, (db.tenants.find? (ids i)).isSome) (hfresh : Fresh db.users (userIds run)) :
    ∃ db₁ id db' agents, insertOrNothing db (superAdmin bcrypt run) = some (db₁, id) ∧
      ((List.finRange TENANT_COUNT).map ids).foldlM
          (seedTenantUsers bcrypt run ((List.finRange TENANT_COUNT).map ids)) (db₁, []) =
        some (db', agents) ∧
      OnlyUsers db db' ∧
      db'.users.rows = db.users.rows ++
        superAdmin bcrypt run :: newcomers db (staff bcrypt run ids) ∧
      ∀ i, agents.lookup (ids i) = some (hired bcrypt run db i (ids i)) := by
  have hnew : ∀ k, k < 3 * TENANT_COUNT + 1 → db.users.find? (run.users k).id = none := fun k hk =>
    hfresh.2 _ (List.mem_map_of_mem (List.mem_range.mpr hk))
  have hsuper : Insertable db (superAdmin bcrypt run) := {
    fits := fits_userRow hbcrypt (by decide) (by decide) (by decide)
    fresh := hnew 0 (by decide)
    tenant := rfl }
  have hstaff : ∀ i, ∀ u ∈ staffOf bcrypt run i (ids i),
      Insertable db u ∧ (superAdmin bcrypt run).key ≠ u.key := by
    intro i u hu
    have hkey := List.mem_map_of_mem (f := UserRow.key) hu
    rw [key_staffOf, List.mem_map] at hkey
    obtain ⟨k, hk, hkey⟩ := hkey
    obtain ⟨hpos, -, hlt⟩ := index_lt hk
    refine ⟨⟨fits_staffOf hbcrypt hu, hkey ▸ hnew k hlt, ?_⟩, fun heq => ?_⟩
    · rw [tenantId_of_mem_staffOf hu]
      exact htenants i
    · have hzero := users_injective hfresh.1 (by decide) hlt (heq.trans hkey.symm)
      omega
  obtain ⟨db₁, hinsert, hdb₁⟩ := insertOrNothing_some hsuper
  -- without a tenant, its address is never taken
  have hadded : Inserts db db₁ (db.users.rows ++ [superAdmin bcrypt run]) := hdb₁
  have hrows₁ := hadded.rows
  have haddress : ∀ i, ∀ u ∈ staffOf bcrypt run i (ids i),
      u.address ∈ db₁.users.rows.map UserRow.address ↔
        u.address ∈ db.users.rows.map UserRow.address := by
    intro i u hu
    have hne : u.address ≠ (superAdmin bcrypt run).address := by
      intro heq
      have htenant := congrArg Prod.fst heq
      rw [UserRow.address, tenantId_of_mem_staffOf hu] at htenant
      cases htenant
    rw [hrows₁, List.map_append, List.mem_append, List.map_singleton, List.mem_singleton]
    exact or_iff_left hne
  have hnewcomers : newcomers db₁ (staff bcrypt run ids) = newcomers db (staff bcrypt run ids) := by
    apply newcomers_congr
    intro u hu
    obtain ⟨i, -, hu⟩ := List.mem_flatMap.mp hu
    exact haddress i u hu
  have hhired : ∀ i, hired bcrypt run db₁ i (ids i) = hired bcrypt run db i (ids i) := fun i =>
    congrArg (List.map UserRow.key)
      (newcomers_congr fun u hu => haddress i u (List.mem_cons_of_mem _ hu))
  have hstart : Staffed bcrypt run ids db₁ (List.finRange TENANT_COUNT) (db₁, []) := {
    nodup := List.nodup_finRange _
    rows := rfl
    same := fun _ _ _ _ => Iff.rfl
    insertable := fun i _ u hu => (hstaff i u hu).1.append hadded fun _ hr =>
      List.mem_singleton.mp hr ▸ (hstaff i u hu).2
    agents := fun i hi => absurd (List.mem_finRange i) hi
    only := ⟨rfl, rfl, rfl⟩ }
  obtain ⟨⟨db', agents⟩, hfold, hend⟩ := foldlM_of_step
    (I := Staffed bcrypt run ids db₁) (fun i rest s h => h.step hfresh.1 hids) hstart
  refine ⟨db₁, _, db', agents, hinsert, ?_, hadded.only.trans hend.only, ?_, fun i => ?_⟩
  · rw [List.foldlM_map]
    exact hfold
  · have hrows := hend.rows
    rw [List.flatMap_nil, hnewcomers] at hrows
    refine (List.append_nil _).symm.trans (hrows.trans ?_)
    rw [hrows₁, List.append_assoc, List.singleton_append]
  · rw [hend.agents i List.not_mem_nil, hhired]

end Seed

end SupportApi
