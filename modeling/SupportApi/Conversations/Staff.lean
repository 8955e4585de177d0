import SupportApi.Data.TenantPart
import SupportApi.Conversations.Requests

namespace SupportApi.Conversations

open Lib

def Known (db : Database) (user : User) : Prop :=
  ∃ u, db.users.find? user.id = some u ∧ u.role = user.role ∧ u.tenantId = user.tenantId

instance (db : Database) (user : User) : Decidable (Known db user) :=
  decidable_of_iff
    ((db.users.find? user.id).any (fun u => u.role = user.role && u.tenantId = user.tenantId) = true)
    (by cases h : db.users.find? user.id <;> simp [Known, h])

/-- Everybody but a SuperAdmin has a tenant. -/
def Tenanted (db : Database) : Prop :=
  ∀ id u, db.users.find? id = some u → u.role ≠ .superAdmin → u.tenantId.isSome

def MayHold (db : Database) (c : Uuid) (a : Option Uuid) : Prop :=
  ∃ row, db.conversations.find? c = some row ∧ ∀ id, a = some id → db.Staff row.tenantId id

def Process.Sound (db : Database) : Process → Prop
  | .claim _ user .waiting => Known db user ∧ mayClaim user = .ok ()
  | .claim _ user (.locked conv) => MayHold db conv.id (some user.id)
  | .resolve id _ _ (.loaded entity) => MayHold db id (columns entity).assignedAgentId
  | .resolve id _ _ (.saving entity) => MayHold db id (columns entity).assignedAgentId
  | .resolve id _ _ (.writing entity reread _) =>
    reread.id = id ∧ MayHold db id (columns entity).assignedAgentId
  | _ => True

structure Staffed (s : State) : Prop where
  rows : ∀ c row, s.db.conversations.find? c = some row → MayHold s.db c row.assignedAgentId
  procs : ∀ p, (s.procs p).Sound s.db

def Action.user? : Action → Option User
  | .create user _ _ _ => some user
  | .claim _ _ user => some user
  | .resolve _ _ user _ => some user
  | _ => none

/-- Requests come from users whom the guard has let in. -/
def Admitted (s : State) (a : Action) : Prop :=
  Tenanted s.db ∧ ∀ user, a.user? = some user → Known s.db user

variable {db db' : Database} {s t : State}

theorem Known.mono (h : db.Extends db') {user : User} (hknown : Known db user) :
    Known db' user := by
  obtain ⟨u, hfind, hrole, htenant⟩ := hknown
  obtain ⟨u', hfind', htenant', hrole'⟩ := h.users _ u hfind
  exact ⟨u', hfind', hrole'.trans hrole, htenant'.trans htenant⟩

theorem MayHold.mono (h : db.Extends db') {c : Uuid} {a : Option Uuid} (hhold : MayHold db c a) :
    MayHold db' c a := by
  obtain ⟨row, hfind, hstaff⟩ := hhold
  obtain ⟨row', hfind', htenant⟩ := h.conversations c row hfind
  exact ⟨row', hfind', fun id ha => htenant ▸ (hstaff id ha).mono h⟩

theorem Process.Sound.mono (h : db.Extends db') {proc : Process} (hsound : proc.Sound db) :
    proc.Sound db' := by
  cases proc with
  | idle => trivial
  | claim id user phase =>
    cases phase with
    | waiting => exact ⟨hsound.1.mono h, hsound.2⟩
    | locked conv => exact MayHold.mono h hsound
    | returned reply => trivial
  | resolve id user dto phase =>
    cases phase with
    | loaded entity => exact MayHold.mono h hsound
    | saving entity => exact MayHold.mono h hsound
    | writing entity reread _ => exact ⟨hsound.1, hsound.2.mono h⟩
    | _ => trivial

theorem Known.staff (h : Known db user) (htenanted : Tenanted db) (hmay : mayClaim user = .ok ())
    {conv : Conversation} (hin : inTenant user conv = true) : db.Staff conv.tenantId user.id := by
  obtain ⟨u, hfind, hrole, htenant⟩ := h
  have hnot : u.role ≠ .superAdmin := by
    intro hsuper
    simp [mayClaim, ← hrole, hsuper] at hmay
  obtain ⟨t, ht⟩ := Option.isSome_iff_exists.mp (htenanted _ u hfind hnot)
  rw [inTenant, ← htenant, ht] at hin
  refine ⟨u, hfind, ht.trans ?_, hnot⟩
  simpa using hin

theorem Tenanted.insertUser (h : Tenanted db) {u : UserRow}
    (hins : db.insertUser u = some db') (hu : u.role ≠ .superAdmin → u.tenantId.isSome) :
    Tenanted db' := by
  intro id v hfind hrole
  rw [Database.find?_insertUser hins] at hfind
  split at hfind
  · cases hfind
    exact hu hrole
  · exact h id v hfind hrole

theorem Tenanted.updateUser (h : Tenanted db) (id : Uuid) (f : UserRow → UserRow)
    (hf : ∀ u, (f u).id = u.id ∧ (f u).tenantId = u.tenantId ∧ (f u).email = u.email)
    (hrole : ∀ u, (f u).role = u.role) : Tenanted (db.updateUser id f hf) := by
  intro other u hfind hu
  by_cases hid : other = id
  · subst hid
    rw [Database.find?_updateUser_self] at hfind
    obtain ⟨v, hv, rfl⟩ := Option.map_eq_some_iff.mp hfind
    rw [(hf v).2.1]
    exact h other v hv (hrole v ▸ hu)
  · rw [Database.find?_updateUser_of_ne _ _ hid] at hfind
    exact h other u hfind hu

namespace Staffed

theorem set (h : Staffed s) {p : Pid} {proc : Process} (hproc : proc.Sound s.db) :
    Staffed (s.set p proc) where
  rows := h.rows
  procs q := by
    simp only [State.set_procs, Function.update_apply, State.set_db]
    split
    · exact hproc
    · exact h.procs q

theorem store (h : Staffed s) (hdb : s.db.Extends db)
    (hrows : ∀ c row, db.conversations.find? c = some row → MayHold db c row.assignedAgentId) :
    Staffed (s.store db) where
  rows := hrows
  procs q := (h.procs q).mono hdb

theorem update {nulls : Bool} (h : Staffed s) {entity reread : Conversation} {now : Time}
    (hupdate : Conversations.update nulls s.db entity reread now = some db)
    (hhold : MayHold s.db reread.id entity.assignedAgentId) :
    ∀ c row, db.conversations.find? c = some row → MayHold db c row.assignedAgentId := by
  intro c row hfind
  have hextends : s.db.Extends db := .updateConversation hupdate
  by_cases hc : c = reread.id
  · subst hc
    rw [find?_update_self hupdate] at hfind
    obtain ⟨old, hold, rfl⟩ := Option.map_eq_some_iff.mp hfind
    apply MayHold.mono hextends
    rcases linked_cases nulls entity.assignedAgentId reread.assignedAgentId old.assignedAgentId with
      hlinked | hlinked <;> simp only [written, hlinked]
    · exact hhold
    · exact h.rows _ old hold
  · rw [find?_update_of_ne hupdate hc] at hfind
    exact (h.rows c row hfind).mono hextends

theorem store_users (h : Staffed s) (hdb : s.db.Extends db)
    (hconvs : db.conversations = s.db.conversations) : Staffed (s.store db) := by
  apply h.store hdb
  intro c row hfind
  rw [hconvs] at hfind
  exact (h.rows c row hfind).mono hdb

theorem sound (h : Staffed s) {p : Pid} {proc : Process} (hp : s.procs p = proc) :
    proc.Sound s.db :=
  hp ▸ h.procs p

theorem congr (h : Staffed s) (hdb : t.db = s.db) (hprocs : t.procs = s.procs) : Staffed t where
  rows := by rw [hdb]; exact h.rows
  procs := by rw [hdb, hprocs]; exact h.procs

theorem creates (h : Staffed s) {user : User} {dto : CreateConversationDto} {id : Uuid} {now : Time}
    {conv : Conversation} (hcreate : create s.db dto user id now = .ok (conv, db)) :
    Staffed (s.store db) := by
  obtain ⟨hins, -, -, -, hunassigned, -, -⟩ := create_ok hcreate
  have hextends := Database.Extends.insertConversation hins
  apply h.store hextends
  intro c row hfind
  have hfound := hfind
  rw [Database.find?_insertConversation hins] at hfound
  split at hfound
  · cases hfound
    exact ⟨conv.stored, hfind, fun id ha => by cases hunassigned.symm.trans ha⟩
  · exact (h.rows c row hfound).mono hextends

theorem locks (h : Staffed s) (htenanted : Tenanted s.db) {p : Pid} {id : Uuid} {user : User}
    {conv : Conversation} (hp : s.procs p = .claim id user .waiting)
    (hconv : selectConversation s.db id user = some conv) :
    Staffed ((s.set p (.claim id user (.locked conv))).hold id p) := by
  obtain ⟨hfind, hin⟩ := selectConversation_some hconv
  have hwaiting := h.sound hp
  have hid : conv.id = id := Table.key_of_find? hfind
  have hhold : MayHold s.db conv.id (some user.id) := by
    refine ⟨conv, hid ▸ hfind, fun a ha => ?_⟩
    cases ha
    exact hwaiting.1.staff htenanted hwaiting.2 hin
  have hlocked : Process.Sound s.db (.claim id user (.locked conv)) := hhold
  exact (h.set hlocked).congr rfl rfl

theorem commits (h : Staffed s) {p : Pid} {now : Time} {id : Uuid} {user : User}
    {conv reply : Conversation} (hp : s.procs p = .claim id user (.locked conv))
    (hclaim : claimLocked s.db conv user now = .ok (reply, db)) :
    Staffed (((s.set p (.claim id user (.returned (.ok reply)))).release id).store db) := by
  have hset : Staffed ((s.set p (.claim id user (.returned (.ok reply)))).release id) :=
    (@set s h p (.claim id user (.returned (.ok reply))) trivial).congr rfl rfl
  have hlocked := h.sound hp
  rcases (claimLocked_ok hclaim).2 with ⟨-, -, rfl⟩ | ⟨-, hupdate, -⟩
  · exact hset.congr rfl rfl
  · exact hset.store (.updateConversation hupdate) (h.update hupdate hlocked)

theorem loads (h : Staffed s) {p : Pid} {id : Uuid} {user : User} {dto : ResolveConversationDto}
    {entity : LoadedConversation} (hload : findOne s.db id user = .ok entity) :
    Staffed (s.set p (.resolve id user dto (.loaded entity))) := by
  obtain ⟨conv, hconv, rfl, -⟩ := findOne_ok hload
  obtain ⟨hfind, -⟩ := selectConversation_some hconv
  apply h.set
  have hhold := h.rows id conv hfind
  rw [← columns_load (Table.mem_of_find? hfind)] at hhold
  exact hhold

theorem writes (h : Staffed s) {p : Pid} {now : Time} {id : Uuid} {user : User}
    {dto : ResolveConversationDto} {entity : LoadedConversation} {reread : Conversation}
    {related : List Uuid} {nulls : Bool}
    (hp : s.procs p = .resolve id user dto (.writing entity reread related))
    (hsave : Conversations.save nulls s.db entity reread related now = some db) :
    Staffed ((s.set p (.resolve id user dto (.saved (stamped db entity)))).store db) := by
  obtain ⟨-, hupdate⟩ := save_some hsave
  have hwriting := h.sound hp
  have hset : Staffed (s.set p (.resolve id user dto (.saved (stamped db entity)))) :=
    h.set trivial
  exact hset.store (.updateConversation hupdate) (h.update hupdate (hwriting.1 ▸ hwriting.2))

theorem step {a : Action} (h : Staffed s) (ha : Admitted s a) (hs : Step s a t) : Staffed t := by
  cases hs with
  | create hcreate => exact h.creates hcreate
  | claimWaits hp hmay => exact h.set ⟨ha.2 _ rfl, hmay⟩
  | locks hp hconv _ => exact h.locks ha.1 hp hconv
  | rollsBack _ _ => exact (@set s h _ (.claim _ _ (.returned _)) trivial).congr rfl rfl
  | commits hp hclaim => exact h.commits hp hclaim
  | loads _ hload => exact h.loads hload
  | checks hp _ =>
    have hloaded := h.sound hp
    exact h.set hloaded
  | rereads hp hfind =>
    have hsaving := h.sound hp
    exact h.set ⟨Table.key_of_find? hfind, hsaving⟩
  | writes hp _ hsave => exact h.writes hp hsave
  | notes _ _ hins =>
    obtain ⟨-, -, husers, hconvs⟩ := Database.insertMessage_some hins
    exact (@set s h _ (.resolve _ _ _ (.noted _)) trivial).store_users (.of_eq husers hconvs) hconvs
  | claimFails _ => exact (@set s h _ (.claim _ _ (.returned _)) trivial).congr rfl rfl
  | enqueues _ => exact (@set s h _ (.resolve _ _ _ (.returned _)) trivial).congr rfl rfl
  | _ => exact h.set trivial

theorem start (queue : List ResolutionJob) (h : db.conversations.rows = []) :
    Staffed (.initial db queue) where
  rows c row hfind := by
    have hmem : row ∈ db.conversations.rows := Table.mem_of_find? hfind
    rw [h] at hmem
    cases hmem
  procs p := trivial

end Staffed

end SupportApi.Conversations
