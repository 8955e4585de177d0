import SupportApi.Auth.Rotation
import SupportApi.Data.SeededRows

universe u

namespace SupportApi.Seed

open Lib Auth

variable {ν : Type u} {numbers : Numbers ν} {bcrypt : Bcrypt} {run : Run numbers}
  {db db' : Database} {ids : Fin TENANT_COUNT → Uuid}

def CONVERSATIONS_PER_TENANT : Nat := 40000

def MESSAGES_PER_CONVERSATION : Nat := 5

structure NewIds (run : Run numbers) (db : Database) : Prop where
  tenants : Fresh db.tenants ((List.finRange TENANT_COUNT).map fun i => (run.tenants i).id)
  users : Fresh db.users (userIds run)
  conversations : Fresh db.conversations (conversationIds run)
  messages : Fresh db.messages (messageIds run)

/-- What a run adds, and what it leaves as it was. -/
structure Seeds (bcrypt : Bcrypt) (run : Run numbers) (db db' : Database)
    (ids : Fin TENANT_COUNT → Uuid) (conversations : List Conversation) (messages : List Message) :
    Prop where
  named : Named db' ids
  tenants : TenantsKept db db'
  users : db'.users.rows = db.users.rows ++
    superAdmin bcrypt run :: newcomers db (staff bcrypt run ids)
  conversation_rows : db'.conversations.rows = db.conversations.rows ++ conversations
  length : conversations.length = TOTAL_CONVERSATIONS
  turns : ∀ i, conversations.countP (fun c => c.tenantId = ids i) = CONVERSATIONS_PER_TENANT
  drawn : ∀ c ∈ conversations, ∃ i,
    Drawn run.now (ids i) (hired bcrypt run db i (ids i)) c
  message_rows : db'.messages.rows = db.messages.rows ++ messages
  answers : ∀ c ∈ conversations,
    messages.countP (fun m => m.conversationId = c.id) = MESSAGES_PER_CONVERSATION
  sent : ∀ m ∈ messages, ∃ c ∈ conversations, Sent run.now c.id m

theorem newcomers_of_users (h : db'.users = db.users) (us : List UserRow) :
    newcomers db' us = newcomers db us :=
  newcomers_congr fun _ _ => by rw [h]

theorem turn_ids (ids : Fin TENANT_COUNT → Uuid) (i : Nat) :
    ∃ j, turn ((List.finRange TENANT_COUNT).map ids) i = some (ids j) := by
  have hlt : i % TENANT_COUNT < TENANT_COUNT := Nat.mod_lt _ (by decide)
  refine ⟨⟨i % TENANT_COUNT, hlt⟩, ?_⟩
  rw [turn, List.getElem?_map, List.getElem?_eq_getElem (by rwa [List.length_finRange]),
    List.getElem_finRange]
  rfl

theorem countP_tenant (hids : Function.Injective ids) {conversations : List Conversation}
    (hlength : conversations.length = TOTAL_CONVERSATIONS)
    (h : ∀ i c, conversations[i]? = some c →
      turn ((List.finRange TENANT_COUNT).map ids) i = some c.tenantId) (i : Fin TENANT_COUNT) :
    conversations.countP (fun c => c.tenantId = ids i) = CONVERSATIONS_PER_TENANT := by
  have hnodup : ((List.finRange TENANT_COUNT).map ids).Nodup := (List.nodup_finRange _).map hids
  have hcount : ((List.finRange TENANT_COUNT).map ids).length = TENANT_COUNT := by
    rw [List.length_map, List.length_finRange]
  have hplaces := countP_places (f := fun c => some c.tenantId)
    (g := turn ((List.finRange TENANT_COUNT).map ids)) (fun i c hc => (h i c hc).symm)
    fun tenantId => tenantId = some (ids i)
  have hturns := countP_turns hnodup (List.mem_map_of_mem (List.mem_finRange i))
    CONVERSATIONS_PER_TENANT
  have htotal : CONVERSATIONS_PER_TENANT * TENANT_COUNT = TOTAL_CONVERSATIONS := by decide
  rw [hcount, htotal] at hturns
  rw [hlength] at hplaces
  simpa only [Option.some_inj] using hplaces.trans hturns

theorem countP_conversation {conversations : List Conversation} {messages : List Message}
    (hnodup : (conversations.map Conversation.id).Nodup)
    (hlength : messages.length = MESSAGES_PER_CONVERSATION * conversations.length)
    (h : ∀ i m, messages[i]? = some m →
      (conversations.map Conversation.id)[i % (conversations.map Conversation.id).length]? =
        some m.conversationId) {c : Conversation} (hc : c ∈ conversations) :
    messages.countP (fun m => m.conversationId = c.id) = MESSAGES_PER_CONVERSATION := by
  have hplaces := countP_places (f := fun m => some m.conversationId)
    (fun i m hm => (h i m hm).symm) fun conversationId => conversationId = some c.id
  have hturns := countP_turns hnodup (List.mem_map_of_mem hc) MESSAGES_PER_CONVERSATION
  rw [List.length_map] at hturns
  rw [hlength, List.length_map] at hplaces
  simpa only [Option.some_inj] using hplaces.trans hturns

theorem hired_mem {i : Fin TENANT_COUNT} {tenantId a : Uuid}
    (ha : a ∈ hired bcrypt run db i tenantId) :
    ∃ u ∈ newcomers db (staffOf bcrypt run i tenantId), u.key = a ∧ u.role = .agent := by
  obtain ⟨u, hu, rfl⟩ := List.mem_map.mp ha
  obtain ⟨hmem, hnew⟩ := List.mem_filter.mp hu
  refine ⟨u, List.mem_filter.mpr ⟨List.mem_cons_of_mem _ hmem, hnew⟩, rfl, ?_⟩
  obtain ⟨n, -, rfl⟩ := List.mem_map.mp hmem
  rfl

variable (bcrypt run db ids) in
theorem newcomers_staffOf_subset (i : Fin TENANT_COUNT) :
    newcomers db (staffOf bcrypt run i (ids i)) ⊆ newcomers db (staff bcrypt run ids) :=
  List.filter_subset _ fun _ hu => List.mem_flatMap.mpr ⟨i, List.mem_finRange i, hu⟩

/-- Whatever is in the database, and in whatever order the first statements come: as long as none
of its tenants bears a name of the seeder's under another slug, a run goes through. -/
theorem seed_some (hbcrypt : Storable bcrypt) (hfree : NamesFree db) (hfresh : NewIds run db) :
    ∃ db' ids conversations messages, seed bcrypt run db = some db' ∧
      Seeds bcrypt run db db' ids conversations messages := by
  obtain ⟨db₁, ids, hseedTenants, hnamed, honly₁, hkept⟩ := seedTenants_some hfree hfresh.tenants
  have hsame : ∀ us, newcomers db₁ us = newcomers db us := newcomers_of_users honly₁.users
  have hhired : ∀ i, hired bcrypt run db₁ i (ids i) = hired bcrypt run db i (ids i) := fun i =>
    congrArg (List.map UserRow.key) (hsame _)
  have hthere : ∀ i, (db₁.tenants.find? (ids i)).isSome = true := by
    intro i
    obtain ⟨t, ht, -⟩ := hnamed i
    exact Option.isSome_of_eq_some ht
  have hfresh₁ : Fresh db₁.users (userIds run) := by
    rw [honly₁.users]
    exact hfresh.users
  obtain ⟨db₂, id, db₃, agents, hsuper, hseedUsers, honly₃, hrows₃, hagents⟩ :=
    seedUsers_some hbcrypt hnamed.injective hthere hfresh₁
  rw [hsame, honly₁.users] at hrows₃
  have hagentsOf : ∀ i, agentsOf agents (some (ids i)) = hired bcrypt run db i (ids i) := by
    intro i
    rw [agentsOf, Option.bind_some, hagents, hhired]
    rfl
  have hturn : ∀ i, ∃ tenantId, turn ((List.finRange TENANT_COUNT).map ids) i = some tenantId ∧
      (db₃.tenants.find? tenantId).isSome = true ∧
      ∀ a ∈ agentsOf agents (some tenantId), (db₃.users.find? a).isSome = true := by
    intro i
    obtain ⟨j, hj⟩ := turn_ids ids i
    refine ⟨ids j, hj, honly₃.tenants ▸ hthere j, fun a ha => ?_⟩
    obtain ⟨u, hu, rfl, -⟩ := hired_mem (hagentsOf j ▸ ha)
    have hmem : u ∈ db₃.users.rows := by
      rw [hrows₃]
      exact List.mem_append_right _ (List.mem_cons_of_mem _ (newcomers_staffOf_subset _ _ _ _ j hu))
    exact Option.isSome_of_eq_some (Table.find?_self hmem)
  have hconversations₃ : db₃.conversations = db.conversations :=
    honly₃.conversations.trans honly₁.conversations
  have hfresh₃ : Fresh db₃.conversations (conversationIds run) := by
    rw [hconversations₃]
    exact hfresh.conversations
  obtain ⟨db₄, conversations, hload, hlength, hdb₄⟩ := loadConversations_some hfresh₃ hturn
  have hmessages₄ : db₄.messages = db.messages :=
    hdb₄.only.messages.trans (honly₃.messages.trans honly₁.messages)
  have hmem₄ : ∀ id ∈ conversations.map Conversation.id,
      (db₄.conversations.find? id).isSome = true := by
    intro id hid
    obtain ⟨c, hc, rfl⟩ := List.mem_map.mp hid
    have hmem : c ∈ db₄.conversations.rows := by
      rw [hdb₄.rows]
      exact List.mem_append_right _ hc
    exact Option.isSome_of_eq_some (Table.find?_self hmem)
  have hpos : 0 < (conversations.map Conversation.id).length := by
    rw [List.length_map, hlength]
    decide
  have hfresh₄ : Fresh db₄.messages (messageIds run) := by
    rw [hmessages₄]
    exact hfresh.messages
  obtain ⟨db₅, messages, hload', hlength', hdb₅⟩ := loadMessages_some hfresh₄ hpos hmem₄
  refine ⟨db₅, ids, conversations, messages, ?_, ?_⟩
  · rw [seed, hseedTenants]
    simp only [Option.bind_eq_bind, Option.bind_some]
    rw [hsuper, Option.bind_some, hseedUsers, Option.bind_some, hload, Option.bind_some, hload']
    rfl
  have htotal : TOTAL_MESSAGES = MESSAGES_PER_CONVERSATION * TOTAL_CONVERSATIONS := by decide
  have htenants : db₅.tenants = db₁.tenants :=
    hdb₅.only.tenants.trans (hdb₄.only.tenants.trans honly₃.tenants)
  have hnodup : (conversations.map Conversation.id).Nodup := by
    have hrows := db₄.conversations.nodup
    rw [hdb₄.rows, List.map_append] at hrows
    exact hrows.of_append_right
  exact {
    named := fun i => htenants ▸ hnamed i
    tenants := ⟨htenants ▸ hkept.old, htenants ▸ hkept.new⟩
    users := by rw [hdb₅.only.users, hdb₄.only.users, hrows₃]
    conversation_rows := by rw [hdb₅.only.conversations, hdb₄.rows, hconversations₃]
    length := hlength
    turns := countP_tenant hnamed.injective hlength fun i c hc => by
      obtain ⟨-, tenantId, hturn, hdrawn⟩ := hdb₄.drawn i c hc
      rw [hturn, hdrawn.tenant]
    drawn := by
      intro c hc
      obtain ⟨i, hi⟩ := List.mem_iff_getElem?.mp hc
      obtain ⟨-, tenantId, hturn, hdrawn⟩ := hdb₄.drawn i c hi
      obtain ⟨j, hj⟩ := turn_ids ids i
      cases hturn.symm.trans hj
      exact ⟨j, hagentsOf j ▸ hdrawn⟩
    message_rows := by rw [hdb₅.rows, hmessages₄]
    answers := fun c hc => countP_conversation hnodup
      (by rw [hlength', hlength, htotal])
      (fun i m hm => by
        obtain ⟨-, conversationId, hturn, hsent⟩ := hdb₅.sent i m hm
        rw [hturn, hsent.conversation]) hc
    sent := by
      intro m hm
      obtain ⟨i, hi⟩ := List.mem_iff_getElem?.mp hm
      obtain ⟨-, conversationId, hturn, hsent⟩ := hdb₅.sent i m hi
      obtain ⟨c, hc, rfl⟩ := List.mem_map.mp (List.mem_of_getElem? hturn)
      exact ⟨c, hc, hsent⟩ }

structure Coherent (db : Database) (c : Conversation) : Prop where
  updated : c.updatedAt = c.createdAt
  unclaimed : c.claimedAt = none
  resolved : c.resolvedAt.isSome = true ↔ c.status = .resolved ∨ c.status = .closed
  resolvedAt : ∀ t, c.resolvedAt = some t → c.createdAt ≤ t
  assigned : ∀ a, c.assignedAgentId = some a → c.status ≠ .opened ∧
    ∃ u ∈ db.users.rows, u.key = a ∧ u.role = .agent ∧ u.tenantId = some c.tenantId

theorem Drawn.coherent {now : Time} {tenantId : Uuid} {agents : List Uuid} {c : Conversation}
    (h : Drawn now tenantId agents c)
    (hagents : ∀ a ∈ agents, ∃ u ∈ db.users.rows, u.key = a ∧ u.role = .agent ∧
      u.tenantId = some tenantId) : Coherent db c where
  updated := h.updated
  unclaimed := h.unclaimed
  resolved := h.resolved
  resolvedAt := fun t ht => (h.resolvedAt t ht).1
  assigned := by
    intro a ha
    refine ⟨(h.assigned.mp (ha ▸ rfl)).1, ?_⟩
    rw [h.tenant]
    exact hagents a (h.agent a ha)

theorem Coherent.mono (hsub : db.users.rows ⊆ db'.users.rows) {c : Conversation}
    (h : Coherent db c) : Coherent db' c :=
  { h with
    assigned := by
      intro a ha
      obtain ⟨hstatus, u, hu, hagent⟩ := h.assigned a ha
      exact ⟨hstatus, u, hsub hu, hagent⟩ }

section Run

variable {conversations : List Conversation} {messages : List Message}

theorem Seeds.coherent (h : Seeds bcrypt run db db' ids conversations messages) :
    ∀ c ∈ conversations, Coherent db' c := by
  intro c hc
  obtain ⟨i, hdrawn⟩ := h.drawn c hc
  apply hdrawn.coherent
  intro a ha
  obtain ⟨u, hu, hkey, hrole⟩ := hired_mem ha
  refine ⟨u, ?_, hkey, hrole, tenantId_of_mem_staffOf (List.mem_filter.mp hu).1⟩
  rw [h.users]
  exact List.mem_append_right _ (List.mem_cons_of_mem _ (newcomers_staffOf_subset _ _ _ _ i hu))

theorem Seeds.addresses (h : Seeds bcrypt run db db' ids conversations messages)
    (i : Fin TENANT_COUNT) : ∀ u ∈ staffOf bcrypt run i (ids i),
      u.address ∈ db'.users.rows.map UserRow.address := by
  intro u hu
  rw [h.users, List.map_append, List.mem_append]
  by_cases hold : u.address ∈ db.users.rows.map UserRow.address
  · exact .inl hold
  · have hnew : u ∈ newcomers db (staffOf bcrypt run i (ids i)) :=
      List.mem_filter.mpr ⟨hu, decide_eq_true hold⟩
    have hadded := newcomers_staffOf_subset bcrypt run db ids i hnew
    exact .inr (List.mem_map_of_mem (List.mem_cons_of_mem _ hadded))

end Run

/-- What anybody else has in the database stays; what the seeder adds hangs together. -/
theorem seed_adds (hbcrypt : Storable bcrypt) (hfree : NamesFree db) (hnew : NewIds run db) :
    ∃ (db' : Database) (ids : Fin TENANT_COUNT → Uuid) (conversations : List Conversation)
      (messages : List Message), seed bcrypt run db = some db' ∧
      TenantsKept db db' ∧
      db.users.rows <+: db'.users.rows ∧
      db'.conversations.rows = db.conversations.rows ++ conversations ∧
      db'.messages.rows = db.messages.rows ++ messages ∧
      (∀ i, ∃ t, db'.tenants.find? (ids i) = some t ∧ t.slug = tenantSlug i ∧
        t.name = tenantName i ∧
        (∀ name ∈ ["admin@", "agent1@", "agent2@"],
          (some t.id, name ++ (tenantSlug i ++ ".com")) ∈ db'.users.rows.map UserRow.address) ∧
        conversations.countP (fun c => c.tenantId = t.id) = CONVERSATIONS_PER_TENANT) ∧
      ∀ c ∈ conversations, Coherent db' c ∧
        messages.countP (fun m => m.conversationId = c.id) = MESSAGES_PER_CONVERSATION := by
  obtain ⟨db', ids, conversations, messages, hseed, h⟩ := seed_some hbcrypt hfree hnew
  refine ⟨db', ids, conversations, messages, hseed, h.tenants, h.users ▸ List.prefix_append _ _,
    h.conversation_rows, h.message_rows, fun i => ?_,
    fun c hc => ⟨h.coherent c hc, h.answers c hc⟩⟩
  obtain ⟨t, ht, hslug, hname⟩ := h.named i
  have hid : t.id = ids i := Table.key_of_find? ht
  refine ⟨t, ht, hslug, hname, ?_, hid ▸ h.turns i⟩
  intro name hmem
  have haddress := List.mem_map_of_mem
    (f := fun name => (some (ids i), name ++ (tenantSlug i ++ ".com"))) hmem
  rw [← address_staffOf bcrypt run, List.mem_map] at haddress
  obtain ⟨u, hu, heq⟩ := haddress
  rw [hid, ← heq]
  exact h.addresses i u hu

namespace Sample

def rationals : Numbers Rat where
  hundredths n := n / 100
  add := (· + ·)
  lt a b := a < b
  floor rand n := (rand * n).floor.toNat
  date start stop rand := start + (rand * (stop - start)).floor
  week start rand := start + (rand * 7 * 24 * 60 * 60 * 1000).floor

theorem floor_zero : (0 : Rat).floor = 0 := rfl

def zero : Random rationals where
  value := 0
  floor_lt n hn := by
    simp only [rationals, Rat.zero_mul, floor_zero, Int.toNat_zero]
    exact hn
  date_mem start stop h := by
    simp only [rationals, Rat.zero_mul, floor_zero, Int.add_zero]
    exact ⟨Int.le_refl _, h⟩
  week_mem start := by
    have hday : (0 : Int) ≤ 7 * day := by decide
    simp only [rationals, Rat.zero_mul, floor_zero, Int.add_zero]
    exact ⟨Int.le_refl _, Int.le_add_of_nonneg_right hday⟩

def uuid (i : Nat) : Uuid := ⟨BitVec.ofNat 128 i⟩

theorem nodup_uuid {n : Nat} (hn : n ≤ 2 ^ 128) : ((List.range n).map uuid).Nodup := by
  refine List.Nodup.map_on ?_ List.nodup_range
  intro i hi j hj h
  rw [List.mem_range] at hi hj
  have hbits := congrArg (fun u => u.bits.toNat) h
  simp only [uuid, BitVec.toNat_ofNat] at hbits
  rwa [Nat.mod_eq_of_lt (hi.trans_le hn), Nat.mod_eq_of_lt (hj.trans_le hn)] at hbits

def first : Run rationals where
  order := List.finRange TENANT_COUNT
  order_perm := .refl _
  salt := ""
  now := 1767225600000
  tenants i := ⟨uuid i, 1767225600000⟩
  users i := ⟨uuid i, 1767225600000⟩
  firstNames _ := zero
  lastNames _ := zero
  conversations i := ⟨uuid i, 1767225600000⟩
  conversationDraws _ := ⟨zero, zero, zero, zero, zero, zero, zero, zero, zero, zero⟩
  messages i := ⟨uuid i, 1767225600000⟩
  messageDraws _ := ⟨zero, zero, zero⟩

theorem newIds : NewIds first .empty where
  tenants := ⟨by decide, fun _ _ => rfl⟩
  users := ⟨nodup_uuid (n := 3 * TENANT_COUNT + 1) (by decide), fun _ _ => rfl⟩
  conversations := ⟨nodup_uuid (n := TOTAL_CONVERSATIONS) (by decide), fun _ _ => rfl⟩
  messages := ⟨nodup_uuid (n := TOTAL_MESSAGES) (by decide), fun _ _ => rfl⟩

theorem storable : Storable Auth.Sample.bcrypt := fun _ =>
  (by decide : Database.text (Auth.Sample.bcrypt.hash "" (utf8 "Password123!".toList)) = true)

end Sample

theorem seed_adds_first : ∃ db', seed Auth.Sample.bcrypt Sample.first .empty = some db' ∧
    (Database.empty.users.rows <+: db'.users.rows) := by
  obtain ⟨db', -, -, -, hseed, -, husers, -⟩ :=
    seed_adds Sample.storable (fun t ht => by cases ht) Sample.newIds
  exact ⟨db', hseed, husers⟩

end SupportApi.Seed
