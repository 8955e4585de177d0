import SupportApi.Data.Seeding

universe u

namespace SupportApi.Seed

open Lib Auth

variable {ν : Type u} {numbers : Numbers ν} {bcrypt : Bcrypt} {run : Run numbers}
  {db db' : Database} {ids : Fin TENANT_COUNT → Uuid} {n : Nat}

inductive Seeded (numbers : Numbers ν) (bcrypt : Bcrypt) : Nat → Database → Prop
  | migrated : Seeded numbers bcrypt 0 .empty
  | again {n : Nat} {db db' : Database} (run : Run numbers) :
    Seeded numbers bcrypt n db → NewIds run db → seed bcrypt run db = some db' →
      Seeded numbers bcrypt (n + 1) db'

def login (u : UserRow) : String × UserRole := (u.email, u.role)

def staffLogins (i : Fin TENANT_COUNT) : List (String × UserRole) :=
  [("admin@" ++ tenantSlug i ++ ".com", .tenantAdmin),
    ("agent" ++ toString 1 ++ "@" ++ tenantSlug i ++ ".com", .agent),
    ("agent" ++ toString 2 ++ "@" ++ tenantSlug i ++ ".com", .agent)]

structure Populated (bcrypt : Bcrypt) (n : Nat) (db : Database) (ids : Fin TENANT_COUNT → Uuid) :
    Prop where
  named : Named db ids
  tenants : ∀ t ∈ db.tenants.rows, t.isActive = true ∧ ∃ i, t.id = ids i
  accounts : ∀ u ∈ db.users.rows, u.isActive = true ∧
    ∃ salt, u.password = bcrypt.hash salt (utf8 "Password123!".toList)
  superAdmins : (db.users.select fun u => u.tenantId = none).map login =
    List.replicate n ("superadmin@platform.com", .superAdmin)
  staff : ∀ i, (db.users.select fun u => u.tenantId = some (ids i)).map login = staffLogins i
  length : db.conversations.rows.length = n * TOTAL_CONVERSATIONS
  turns : ∀ i, db.conversations.rows.countP (fun c => c.tenantId = ids i) =
    n * CONVERSATIONS_PER_TENANT
  coherent : ∀ c ∈ db.conversations.rows, Coherent db c
  first : ∀ c ∈ db.conversations.rows.take TOTAL_CONVERSATIONS,
    c.assignedAgentId.isSome = true ↔ c.status ≠ .opened
  later : ∀ c ∈ db.conversations.rows.drop TOTAL_CONVERSATIONS, c.assignedAgentId = none
  answers : ∀ c ∈ db.conversations.rows,
    db.messages.rows.countP (fun m => m.conversationId = c.id) = MESSAGES_PER_CONVERSATION

variable (bcrypt run) in
theorem login_staffOf (i : Fin TENANT_COUNT) (tenantId : Uuid) :
    (staffOf bcrypt run i tenantId).map login = staffLogins i := rfl

theorem filter_staff_none (ids : Fin TENANT_COUNT → Uuid) :
    (staff bcrypt run ids).filter (fun u => u.tenantId = none) = [] := by
  rw [List.filter_eq_nil_iff]
  intro u hu
  obtain ⟨i, -, hu⟩ := List.mem_flatMap.mp hu
  rw [tenantId_of_mem_staffOf hu]
  simp

theorem filter_staff (hids : Function.Injective ids) (i : Fin TENANT_COUNT) :
    (staff bcrypt run ids).filter (fun u => u.tenantId = some (ids i)) =
      staffOf bcrypt run i (ids i) := by
  rw [staff, List.filter_flatMap,
    flatMap_of_nodup (List.nodup_finRange _) (List.mem_finRange i), List.filter_eq_self.mpr]
  · intro u hu
    exact decide_eq_true (tenantId_of_mem_staffOf hu)
  · intro j hj
    rw [List.filter_eq_nil_iff]
    intro u hu
    rw [tenantId_of_mem_staffOf hu, decide_eq_true_eq, Option.some_inj]
    exact fun heq => hj (hids heq)

theorem account_of_mem_staff {u : UserRow} (hu : u ∈ staff bcrypt run ids) :
    u.isActive = true ∧ ∃ salt, u.password = bcrypt.hash salt (utf8 "Password123!".toList) := by
  obtain ⟨i, -, hu⟩ := List.mem_flatMap.mp hu
  rcases List.mem_cons.mp hu with rfl | hu
  · exact ⟨rfl, run.salt, rfl⟩
  · obtain ⟨a, -, rfl⟩ := List.mem_map.mp hu
    exact ⟨rfl, run.salt, rfl⟩

theorem newcomers_of_populated (h : Populated bcrypt n db ids) :
    newcomers db (staff bcrypt run ids) = [] := by
  rw [newcomers, List.filter_eq_nil_iff]
  intro u hu hnew
  obtain ⟨i, -, hu⟩ := List.mem_flatMap.mp hu
  have hlogin : login u ∈ (db.users.select fun u => u.tenantId = some (ids i)).map login := by
    rw [h.staff, ← login_staffOf bcrypt run i (ids i)]
    exact List.mem_map_of_mem hu
  obtain ⟨v, hv, hsame⟩ := List.mem_map.mp hlogin
  obtain ⟨hv, htenant⟩ := List.mem_filter.mp hv
  rw [decide_eq_true_eq] at hnew htenant
  refine hnew (List.mem_map.mpr ⟨v, hv, Prod.ext ?_ (congrArg Prod.fst hsame)⟩)
  exact htenant.trans (tenantId_of_mem_staffOf hu).symm

section Run

variable {conversations : List Conversation} {messages : List Message}

theorem Seeds.all_coherent (h : Seeds bcrypt run db db' ids conversations messages)
    (hold : ∀ c ∈ db.conversations.rows, Coherent db c) :
    ∀ c ∈ db'.conversations.rows, Coherent db' c := by
  intro c hc
  rw [h.conversation_rows, List.mem_append] at hc
  rcases hc with hc | hc
  · apply (hold c hc).mono
    rw [h.users]
    exact List.subset_append_left _ _
  · exact h.coherent c hc

theorem Seeds.all_answers (h : Seeds bcrypt run db db' ids conversations messages)
    (hold : ∀ c ∈ db.conversations.rows,
      db.messages.rows.countP (fun m => m.conversationId = c.id) = MESSAGES_PER_CONVERSATION) :
    ∀ c ∈ db'.conversations.rows,
      db'.messages.rows.countP (fun m => m.conversationId = c.id) = MESSAGES_PER_CONVERSATION := by
  have hnodup := db'.conversations.nodup
  rw [h.conversation_rows, List.map_append, List.nodup_append] at hnodup
  intro c hc
  rw [h.conversation_rows, List.mem_append] at hc
  rw [h.message_rows, List.countP_append]
  rcases hc with hc | hc
  · have hnone : messages.countP (fun m => m.conversationId = c.id) = 0 := by
      rw [List.countP_eq_zero]
      intro m hm
      obtain ⟨d, hd, hsent⟩ := h.sent m hm
      rw [hsent.conversation, decide_eq_true_eq]
      exact (hnodup.2.2 _ (List.mem_map_of_mem hc) _ (List.mem_map_of_mem hd)).symm
    rw [hold c hc, hnone, Nat.add_zero]
  · have hnone : db.messages.rows.countP (fun m => m.conversationId = c.id) = 0 := by
      rw [List.countP_eq_zero]
      intro m hm
      obtain ⟨d, hd⟩ := Option.isSome_iff_exists.mp (db.messages_conversation m hm)
      obtain ⟨hd, hid⟩ := Table.find?_eq_some_iff.mp hd
      rw [decide_eq_true_eq, ← hid]
      exact hnodup.2.2 _ (List.mem_map_of_mem hd) _ (List.mem_map_of_mem hc)
    rw [h.answers c hc, hnone, Nat.zero_add]

theorem Seeds.all_tenants (h : Seeds bcrypt run db db' ids conversations messages)
    (hold : ∀ t ∈ db.tenants.rows, t.isActive = true ∧ t.slug ∈ TENANT_SLUGS) :
    ∀ t ∈ db'.tenants.rows, t.isActive = true ∧ ∃ i, t.id = ids i := by
  have hslug : ∀ t ∈ db'.tenants.rows, t.slug ∈ TENANT_SLUGS := fun t ht =>
    (h.tenants.new t ht).elim (fun hmem => (hold t hmem).2) And.left
  intro t ht
  constructor
  · cases hfind : db.tenants.find? t.id with
    | none =>
      rcases h.tenants.new t ht with hmem | ⟨-, hactive⟩
      · exact (hold t hmem).1
      · exact hactive hfind
    | some t' =>
      obtain ⟨name, hname, -⟩ := h.tenants.old _ _ hfind
      rw [Table.find?_self ht, Option.some.injEq] at hname
      rw [hname]
      exact (hold t' (Table.mem_of_find? hfind)).1
  · obtain ⟨i, hi⟩ := List.get_of_mem (hslug t ht)
    obtain ⟨t', hfind, hslug', -⟩ := h.named i
    have hsame := db'.tenants_slug t ht t' (Table.mem_of_find? hfind) (hi.symm.trans hslug'.symm)
    exact ⟨i, hsame ▸ Table.key_of_find? hfind⟩

theorem TenantsKept.named {ids' : Fin TENANT_COUNT → Uuid} (h : TenantsKept db db')
    (hids : Named db ids) (hids' : Named db' ids') : ids' = ids := by
  funext i
  obtain ⟨t, ht, hslug, -⟩ := hids i
  obtain ⟨t', ht', hslug', -⟩ := hids' i
  obtain ⟨name, hname, -⟩ := h.old _ _ ht
  have hsame := db'.tenants_slug _ (Table.mem_of_find? hname) _ (Table.mem_of_find? ht')
    (hslug.trans hslug'.symm)
  rw [← Table.key_of_find? ht', ← hsame]
  exact Table.key_of_find? hname

theorem Populated.slugs (h : Populated bcrypt n db ids) :
    ∀ t ∈ db.tenants.rows, t.isActive = true ∧ t.slug ∈ TENANT_SLUGS := by
  intro t ht
  obtain ⟨hactive, i, hid⟩ := h.tenants t ht
  obtain ⟨t', ht', hslug, -⟩ := h.named i
  rw [← hid, Table.find?_self ht, Option.some.injEq] at ht'
  exact ⟨hactive, ht' ▸ hslug ▸ tenantSlug_mem i⟩

theorem Seeds.populated (h : Seeds bcrypt run .empty db' ids conversations messages) :
    Populated bcrypt 1 db' ids := by
  have hall : ∀ us : List UserRow, newcomers .empty us = us := fun us =>
    List.filter_eq_self.mpr fun _ _ => rfl
  have husers : db'.users.rows = superAdmin bcrypt run :: staff bcrypt run ids := by
    rw [h.users, hall]
    rfl
  have hrows : db'.conversations.rows = conversations := h.conversation_rows
  have hids := h.named.injective
  exact {
    named := h.named
    tenants := h.all_tenants fun t ht => by cases ht
    accounts := by
      intro u hu
      rw [husers] at hu
      rcases List.mem_cons.mp hu with rfl | hu
      · exact ⟨rfl, run.salt, rfl⟩
      · exact account_of_mem_staff hu
    superAdmins := by
      rw [Table.select, husers, List.filter_cons_of_pos rfl, filter_staff_none]
      rfl
    staff := by
      intro i
      rw [Table.select, husers, List.filter_cons_of_neg Bool.false_ne_true, filter_staff hids,
        login_staffOf]
    length := by rw [hrows, h.length, Nat.one_mul]
    turns := by
      intro i
      rw [hrows, h.turns, Nat.one_mul]
    coherent := h.all_coherent fun c hc => by cases hc
    first := by
      intro c hc
      have hmem := hrows ▸ List.mem_of_mem_take hc
      obtain ⟨i, hdrawn⟩ := h.drawn c hmem
      rw [hdrawn.assigned]
      refine and_iff_left ?_
      rw [hired, hall]
      exact List.cons_ne_nil _ _
    later := by
      intro c hc
      rw [hrows, ← h.length, List.drop_length] at hc
      cases hc
    answers := h.all_answers fun c hc => by cases hc }

/-- One run more. -/
theorem Populated.again (hpop : Populated bcrypt n db ids) (hn : 0 < n)
    (h : Seeds bcrypt run db db' ids conversations messages) :
    Populated bcrypt (n + 1) db' ids := by
  have husers : db'.users.rows = db.users.rows ++ [superAdmin bcrypt run] := by
    rw [h.users, newcomers_of_populated hpop]
  have hhired : ∀ i, hired bcrypt run db i (ids i) = [] := by
    intro i
    have hsub := newcomers_staffOf_subset bcrypt run db ids i
    rw [newcomers_of_populated hpop, List.subset_nil] at hsub
    rw [hired, List.map_eq_nil_iff, ← List.subset_nil, ← hsub]
    exact List.Sublist.subset ((List.sublist_cons_self _ _).filter _)
  have hle : TOTAL_CONVERSATIONS ≤ db.conversations.rows.length := by
    rw [hpop.length]
    exact Nat.le_mul_of_pos_left _ hn
  exact {
    named := h.named
    tenants := h.all_tenants hpop.slugs
    accounts := by
      intro u hu
      rw [husers, List.mem_append, List.mem_singleton] at hu
      rcases hu with hu | rfl
      · exact hpop.accounts u hu
      · exact ⟨rfl, run.salt, rfl⟩
    superAdmins := by
      have hold := hpop.superAdmins
      rw [Table.select] at hold
      rw [Table.select, husers, List.filter_append, List.map_append, hold, List.replicate_succ']
      rfl
    staff := by
      intro i
      have hold := hpop.staff i
      rw [Table.select] at hold
      rw [Table.select, husers, List.filter_append, List.map_append, hold]
      exact List.append_nil _
    length := by
      rw [h.conversation_rows, List.length_append, hpop.length, h.length, Nat.succ_mul]
    turns := by
      intro i
      rw [h.conversation_rows, List.countP_append, hpop.turns, h.turns, Nat.succ_mul]
    coherent := h.all_coherent hpop.coherent
    first := by
      rw [h.conversation_rows, List.take_append_of_le_length hle]
      exact hpop.first
    later := by
      rw [h.conversation_rows, List.drop_append_of_le_length hle]
      intro c hc
      rcases List.mem_append.mp hc with hc | hc
      · exact hpop.later c hc
      · obtain ⟨i, hdrawn⟩ := h.drawn c hc
        cases ha : c.assignedAgentId with
        | none => rfl
        | some a => exact absurd (hhired i) (hdrawn.assigned.mp (ha ▸ rfl)).2
    answers := h.all_answers hpop.answers }

end Run

theorem Populated.namesFree (h : Populated bcrypt n db ids) : NamesFree db := by
  intro t ht i hname
  obtain ⟨-, j, hid⟩ := h.tenants t ht
  obtain ⟨t', ht', hslug, hname'⟩ := h.named j
  rw [← hid, Table.find?_self ht, Option.some.injEq] at ht'
  subst ht'
  rw [hslug, tenantName_injective (hname'.symm.trans hname)]

theorem Seeded.cases (hbcrypt : Storable bcrypt) (h : Seeded numbers bcrypt n db) :
    n = 0 ∧ db = .empty ∨ 0 < n ∧ ∃ ids, Populated bcrypt n db ids := by
  induction h with
  | migrated => exact .inl ⟨rfl, rfl⟩
  | @again n db db' run _ hnew hseed ih =>
    refine .inr ⟨Nat.succ_pos n, ?_⟩
    rcases ih with ⟨rfl, rfl⟩ | ⟨hn, ids, hpop⟩
    · obtain ⟨db'', ids, conversations, messages, hseed', hdb''⟩ :=
        seed_some hbcrypt (fun t ht => by cases ht) hnew
      cases hseed.symm.trans hseed'
      exact ⟨ids, hdb''.populated⟩
    · obtain ⟨db'', ids', conversations, messages, hseed', hdb''⟩ :=
        seed_some hbcrypt hpop.namesFree hnew
      cases hseed.symm.trans hseed'
      cases hdb''.tenants.named hpop.named hdb''.named
      exact ⟨ids, hpop.again hn hdb''⟩

theorem Seeded.namesFree (hbcrypt : Storable bcrypt) (h : Seeded numbers bcrypt n db) :
    NamesFree db := by
  rcases h.cases hbcrypt with ⟨-, rfl⟩ | ⟨-, ids, hpop⟩
  · exact fun t ht => by cases ht
  · exact hpop.namesFree

/-- However often it is run, the seeder goes through, and the tables are populated. -/
theorem seeded_populated (hbcrypt : Storable bcrypt) (h : Seeded numbers bcrypt n db) :
    (∀ run : Run numbers, NewIds run db → (seed bcrypt run db).isSome = true) ∧
      (0 < n → ∃ ids, Populated bcrypt n db ids) := by
  constructor
  · intro run hnew
    obtain ⟨db', -, -, -, hseed, -⟩ := seed_some hbcrypt (h.namesFree hbcrypt) hnew
    exact Option.isSome_of_eq_some hseed
  · intro hn
    rcases h.cases hbcrypt with ⟨rfl, -⟩ | ⟨-, hpop⟩
    · exact absurd hn (Nat.lt_irrefl 0)
    · exact hpop

theorem Sample.seeded : ∃ db, Seeded Sample.rationals Auth.Sample.bcrypt 1 db := by
  obtain ⟨db, -, -, -, hseed, -⟩ :=
    seed_some Sample.storable (fun t ht => by cases ht) Sample.newIds
  exact ⟨db, .again Sample.first .migrated Sample.newIds hseed⟩

theorem seeded_populated_once : ∃ db ids, Populated Auth.Sample.bcrypt 1 db ids := by
  obtain ⟨db, hdb⟩ := Sample.seeded
  obtain ⟨ids, hids⟩ := (seeded_populated Sample.storable hdb).2 Nat.one_pos
  exact ⟨db, ids, hids⟩

/-- Email, tenant and role of the test credentials. -/
def testCredentials : List (String × Option String × UserRole) :=
  ("superadmin@platform.com", none, .superAdmin) ::
    TENANT_SLUGS.flatMap fun slug =>
      [("admin@" ++ slug ++ ".com", some slug, .tenantAdmin),
        ("agent1@" ++ slug ++ ".com", some slug, .agent)]

theorem find_login (order : AnyOrder UserRow) {logins : List (String × UserRole)} {tenantId : Option Uuid}
    (h : (db.users.select fun u => u.tenantId = tenantId).map login = logins) {email : String}
    {role : UserRole} (hmem : (email, role) ∈ logins)
    (hrole : ∀ role', (email, role') ∈ logins → role' = role) :
    ∃ u, (order.sort (selectUsers db email tenantId)).head? = some u ∧ u.role = role := by
  subst h
  obtain ⟨v, hv, hlogin⟩ := List.mem_map.mp hmem
  obtain ⟨hv, htenant⟩ := List.mem_filter.mp hv
  obtain ⟨u, hfirst⟩ :=
    exists_first order hv ⟨congrArg Prod.fst hlogin, of_decide_eq_true htenant⟩
  obtain ⟨hu, hemail, htenant⟩ := first_selectUsers hfirst
  have hselected : u ∈ db.users.select fun u => u.tenantId = tenantId :=
    List.mem_filter.mpr ⟨hu, decide_eq_true htenant⟩
  have hlogin := List.mem_map_of_mem (f := login) hselected
  rw [login, hemail] at hlogin
  exact ⟨u, hfirst, hrole _ hlogin⟩

theorem Populated.signInTenant (h : Populated bcrypt n db ids) (i : Fin TENANT_COUNT)
    (email password : String) :
    signInTenant db ⟨email, password, some (tenantSlug i)⟩ = .ok (some (ids i)) := by
  have hslug : (some (tenantSlug i)).filter (fun s => s ≠ "") = some (tenantSlug i) := by
    revert i
    decide
  obtain ⟨t, ht, hts, -⟩ := h.named i
  have hmem := Table.mem_of_find? ht
  simp only [Auth.signInTenant, hslug]
  split
  · rename_i hnone
    rw [List.head?_eq_none_iff, Table.select, List.filter_eq_nil_iff] at hnone
    exact absurd (by simp [hts, (h.tenants t hmem).1]) (hnone t hmem)
  · rename_i t' hsome
    obtain ⟨hmem', hmatch⟩ := List.mem_filter.mp (List.mem_of_head? hsome)
    rw [Bool.and_eq_true, decide_eq_true_eq] at hmatch
    have hsame := db.tenants_slug t' hmem' t hmem (hmatch.1.trans hts.symm)
    rw [hsame]
    exact congrArg (fun id => Except.ok (some id)) (Table.key_of_find? ht)

theorem Populated.found (h : Populated bcrypt n db ids) (hn : 0 < n) (order : AnyOrder UserRow)
    {email : String}
    {slug : Option String} {role : UserRole} (hmem : (email, slug, role) ∈ testCredentials)
    (password : String) :
    ∃ tenantId u, Auth.signInTenant db ⟨email, password, slug⟩ = .ok tenantId ∧
      (order.sort (selectUsers db email tenantId)).head? = some u ∧ u.role = role := by
  rcases List.mem_cons.mp hmem with heq | hmem
  · cases heq
    obtain ⟨u, hfind, hrole⟩ := find_login order h.superAdmins
      (List.mem_replicate.mpr ⟨Nat.ne_of_gt hn, rfl⟩)
      fun role' hrole' => congrArg Prod.snd (List.mem_replicate.mp hrole').2
    exact ⟨none, u, rfl, hfind, hrole⟩
  · obtain ⟨slug, hslug, hmem⟩ := List.mem_flatMap.mp hmem
    obtain ⟨i, rfl⟩ := List.get_of_mem hslug
    have hroles : ∀ i, ∀ login ∈ [("admin@" ++ tenantSlug i ++ ".com", UserRole.tenantAdmin),
        ("agent1@" ++ tenantSlug i ++ ".com", .agent)],
        login ∈ staffLogins i ∧
          ∀ login' ∈ staffLogins i, login'.1 = login.1 → login'.2 = login.2 := by
      decide +kernel
    have hlogin : slug = some (tenantSlug i) ∧ (email, role) ∈
        [("admin@" ++ tenantSlug i ++ ".com", UserRole.tenantAdmin),
          ("agent1@" ++ tenantSlug i ++ ".com", .agent)] := by
      rcases List.mem_cons.mp hmem with heq | hmem
      · cases heq
        exact ⟨rfl, List.mem_cons_self⟩
      · cases List.mem_singleton.mp hmem
        exact ⟨rfl, List.mem_cons_of_mem _ (List.mem_singleton_self _)⟩
    obtain ⟨hslug, hlogin⟩ := hlogin
    obtain ⟨hmem, honly⟩ := hroles i _ hlogin
    obtain ⟨u, hfind, hrole⟩ := find_login order (h.staff i) hmem
      fun role' hrole' => honly _ hrole' rfl
    exact ⟨some (ids i), u, hslug ▸ h.signInTenant i email password, hfind, hrole⟩

/-- The logins that the seeder prints are good after every run, for their password alone. -/
theorem testCredentials_accepted (env : Env) (hb : env.bcrypt.Truncates) (hs : Storable env.bcrypt)
    (h : Seeded numbers env.bcrypt n db) (hn : 0 < n) (order : AnyOrder UserRow) {email : String}
    {slug : Option String} {role : UserRole} (hmem : (email, slug, role) ∈ testCredentials) :
    ∃ u, u.email = email ∧ u.role = role ∧ ∀ password,
      authenticate env order db ⟨email, password, slug⟩ =
        if (utf8 password.toList).take 72 = utf8 "Password123!".toList then .ok u
        else .error (.unauthorized "Invalid credentials") := by
  rcases h.cases hs with ⟨rfl, -⟩ | ⟨-, ids, hpop⟩
  · exact absurd hn (Nat.lt_irrefl 0)
  obtain ⟨tenantId, u, htenant, hfind, hrole⟩ := hpop.found hn order hmem ""
  obtain ⟨hu, hemail, -⟩ := first_selectUsers hfind
  obtain ⟨hactive, salt, hhash⟩ := hpop.accounts u hu
  refine ⟨u, hemail, hrole, fun password => ?_⟩
  have hcompare : env.bcrypt.compare (utf8 password.toList) u.password = true ↔
      (utf8 password.toList).take 72 = utf8 "Password123!".toList := by
    rw [hhash, hb.compare_hash]
    exact Iff.rfl
  have hfound : (order.sort (selectUsers db email tenantId)).head?.filter (fun u => u.isActive) =
      some u := by
    rw [hfind, Option.filter_some, if_pos hactive]
  have htenant' : signInTenant db ⟨email, password, slug⟩ = .ok tenantId := htenant
  simp only [authenticate, htenant', hfound, hcompare]

theorem testCredentials_accepted_agent : ∃ db u, Seeded Sample.rationals Auth.Sample.bcrypt 1 db ∧
    authenticate Auth.Sample.environment .asStored db
      ⟨"agent1@hooli.com", "Password123!", some "hooli"⟩ = .ok u ∧ u.role = .agent := by
  obtain ⟨db, hdb⟩ := Sample.seeded
  have hmem : ("agent1@hooli.com", some "hooli", UserRole.agent) ∈ testCredentials := by
    decide +kernel
  obtain ⟨u, -, hrole, hauth⟩ := testCredentials_accepted Auth.Sample.environment
    Auth.Sample.bcrypt_truncates Sample.storable hdb Nat.one_pos .asStored hmem
  exact ⟨db, u, hdb, (hauth _).trans (if_pos (by decide)), hrole⟩

end SupportApi.Seed
