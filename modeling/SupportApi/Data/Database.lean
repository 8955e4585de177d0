import SupportApi.Lib.Table
import SupportApi.Data.Entities

/-! The PostgreSQL schema.  A `Database` carries the constraints of the
migration as fields, and the statements the services run are its only
constructors: each either keeps every constraint or is refused. -/

namespace SupportApi

open Lib

abbrev UserRow.key (u : UserRow) : Uuid := u.id

structure Database where
  tenants : Table Tenant.id
  users : Table UserRow.key
  conversations : Table Conversation.id
  messages : Table Message.id
  tenants_name : ∀ t ∈ tenants.rows, ∀ t' ∈ tenants.rows, t.name = t'.name → t = t'
  tenants_slug : ∀ t ∈ tenants.rows, ∀ t' ∈ tenants.rows, t.slug = t'.slug → t = t'
  users_tenant : ∀ u ∈ users.rows, ∀ t, u.tenantId = some t → (tenants.find? t).isSome
  /-- `uq_users_tenant_email`: rows whose `tenant_id` is null are never equal under it. -/
  users_tenant_email : ∀ u ∈ users.rows, ∀ v ∈ users.rows, u.tenantId.isSome →
    u.tenantId = v.tenantId → u.email = v.email → u = v
  conversations_tenant : ∀ c ∈ conversations.rows, (tenants.find? c.tenantId).isSome
  conversations_agent : ∀ c ∈ conversations.rows, ∀ a, c.assignedAgentId = some a →
    (users.find? a).isSome
  messages_conversation : ∀ m ∈ messages.rows, (conversations.find? m.conversationId).isSome
  messages_sender : ∀ m ∈ messages.rows, ∀ u, m.senderId = some u → (users.find? u).isSome

namespace Database

def empty : Database where
  tenants := .empty
  users := .empty
  conversations := .empty
  messages := .empty
  tenants_name := by simp [Table.empty]
  tenants_slug := by simp [Table.empty]
  users_tenant := by simp [Table.empty]
  users_tenant_email := by simp [Table.empty]
  conversations_tenant := by simp [Table.empty]
  conversations_agent := by simp [Table.empty]
  messages_conversation := by simp [Table.empty]
  messages_sender := by simp [Table.empty]

/-- A `TEXT` value: PostgreSQL stores no NUL character. -/
def text (s : String) : Bool := !s.toList.contains (Char.ofNat 0)

def varchar (n : Nat) (s : String) : Bool := s.length ≤ n && text s

/-- What an `INSERT` makes of a value for `VARCHAR(n)`: spaces beyond `n` are cut off. -/
def clip (n : Nat) (s : String) : String :=
  if (s.toList.drop n).all (· = ' ') then String.ofList (s.toList.take n) else s

def storable (n : Nat) (s : String) : Bool := text s && (s.toList.drop n).all (· = ' ')

theorem varchar_clip (n : Nat) (s : String) : varchar n (clip n s) = storable n s := by
  have hsplit : text s = (text (String.ofList (s.toList.take n)) &&
      !(s.toList.drop n).contains (Char.ofNat 0)) := by
    simp only [text, String.toList_ofList, ← Bool.not_or, ← List.contains_append,
      List.take_append_drop]
  unfold clip storable
  split
  · rename_i hspaces
    have hzero : (s.toList.drop n).contains (Char.ofNat 0) = false := by
      rw [List.contains_eq_mem, decide_eq_false_iff_not]
      intro hmem
      cases of_decide_eq_true (List.all_eq_true.mp hspaces _ hmem)
    have hshort : (String.ofList (s.toList.take n)).length ≤ n := by
      rw [String.length_ofList]
      exact List.length_take_le n _
    rw [varchar, hsplit, hzero, hspaces, decide_eq_true hshort, Bool.true_and, Bool.not_false,
      Bool.and_true, Bool.and_true]
  · rename_i hspaces
    have hlong : ¬s.length ≤ n := by
      intro hle
      rw [← String.length_toList] at hle
      simp [List.drop_eq_nil_of_le hle] at hspaces
    simp [varchar, hspaces, hlong]

theorem storable_eq_varchar {n : Nat} {s : String} (h : s.toList.getLast? ≠ some ' ') :
    storable n s = varchar n s := by
  unfold storable varchar
  rw [Bool.and_comm]
  congr 1
  cases hdrop : s.toList.drop n with
  | nil =>
    have hle : s.length ≤ n := by
      rw [← String.length_toList]
      exact List.drop_eq_nil_iff.mp hdrop
    simp [hle]
  | cons c cs =>
    have hlt : ¬s.length ≤ n := by
      rw [← String.length_toList, ← List.drop_eq_nil_iff, hdrop]
      exact List.cons_ne_nil c cs
    have hlast : (c :: cs).getLast? = s.toList.getLast? := by
      rw [← hdrop, List.getLast?_drop, if_neg]
      rwa [String.length_toList]
    rw [decide_eq_false hlt, Bool.eq_false_iff]
    intro hspaces
    rw [← hlast, List.getLast?_eq_some_getLast (List.cons_ne_nil c cs)] at h
    exact h (congrArg some (of_decide_eq_true
      (List.all_eq_true.mp hspaces _ (List.getLast_mem (List.cons_ne_nil c cs)))))

end Database

def Tenant.fits (t : Tenant) : Bool :=
  Database.varchar 100 t.name && Database.varchar 100 t.slug && t.domain.all (Database.varchar 255)

def UserRow.fits (u : UserRow) : Bool :=
  Database.varchar 100 u.firstName && Database.varchar 100 u.lastName &&
    Database.varchar 255 u.email && Database.text u.password && u.refreshToken.all Database.text

def Conversation.fits (c : Conversation) : Bool :=
  Database.varchar 500 c.subject && c.description.all Database.text &&
    Database.varchar 255 c.customerEmail && Database.varchar 100 c.customerName

-- an email is stored as it is: none that `IsEmail` lets through ends in a space

def Tenant.stored (t : Tenant) : Tenant :=
  { t with
    name := Database.clip 100 t.name
    slug := Database.clip 100 t.slug
    domain := t.domain.map (Database.clip 255) }

def Conversation.stored (c : Conversation) : Conversation :=
  { c with
    subject := Database.clip 500 c.subject
    customerName := Database.clip 100 c.customerName }

namespace Database

variable (db : Database)

def insertTenant (t : Tenant) : Option Database :=
  if h : t.fits ∧ db.tenants.find? t.id = none ∧
      ∀ t' ∈ db.tenants.rows, t'.name ≠ t.name ∧ t'.slug ≠ t.slug then
    some { db with
      tenants := db.tenants.insert t h.2.1
      tenants_name := by
        intro u hu v hv huv
        rw [Table.rows_insert, List.mem_append, List.mem_singleton] at hu hv
        obtain hu | rfl := hu <;> obtain hv | rfl := hv
        · exact db.tenants_name u hu v hv huv
        · exact absurd huv (h.2.2 u hu).1
        · exact absurd huv.symm (h.2.2 v hv).1
        · rfl
      tenants_slug := by
        intro u hu v hv huv
        rw [Table.rows_insert, List.mem_append, List.mem_singleton] at hu hv
        obtain hu | rfl := hu <;> obtain hv | rfl := hv
        · exact db.tenants_slug u hu v hv huv
        · exact absurd huv (h.2.2 u hu).2
        · exact absurd huv.symm (h.2.2 v hv).2
        · rfl
      users_tenant := fun u hu t ht =>
        Table.isSome_find?_insert _ _ _ (db.users_tenant u hu t ht)
      conversations_tenant := fun c hc =>
        Table.isSome_find?_insert _ _ _ (db.conversations_tenant c hc) }
  else none

def updateTenant (id : Uuid) (f : Tenant → Tenant)
    (hf : ∀ t, (f t).id = t.id ∧ (f t).name = t.name ∧ (f t).slug = t.slug) : Database :=
  { db with
    tenants := db.tenants.modify id f fun t => (hf t).1
    tenants_name := by
      intro u hu v hv huv
      obtain ⟨u', hu', rfl⟩ := List.mem_map.mp hu
      obtain ⟨v', hv', rfl⟩ := List.mem_map.mp hv
      have hname : ∀ t : Tenant, (if t.id = id then f t else t).name = t.name := by
        intro t
        split
        · exact (hf t).2.1
        · rfl
      rw [hname, hname] at huv
      rw [db.tenants_name u' hu' v' hv' huv]
    tenants_slug := by
      intro u hu v hv huv
      obtain ⟨u', hu', rfl⟩ := List.mem_map.mp hu
      obtain ⟨v', hv', rfl⟩ := List.mem_map.mp hv
      have hslug : ∀ t : Tenant, (if t.id = id then f t else t).slug = t.slug := by
        intro t
        split
        · exact (hf t).2.2
        · rfl
      rw [hslug, hslug] at huv
      rw [db.tenants_slug u' hu' v' hv' huv]
    users_tenant := fun u hu t ht => by
      rw [Table.isSome_find?_modify]
      exact db.users_tenant u hu t ht
    conversations_tenant := fun c hc => by
      rw [Table.isSome_find?_modify]
      exact db.conversations_tenant c hc }

/-- Tenant `id` gets another name; the unique constraint may refuse it. -/
def renameTenant (id : Uuid) (name : String) : Option Database :=
  if h : varchar 100 name ∧ ∀ t ∈ db.tenants.rows, t.id ≠ id → t.name ≠ name then
    some { db with
      tenants := db.tenants.modify id (fun t => { t with name }) fun _ => rfl
      tenants_name := by
        intro u hu v hv huv
        obtain ⟨hu, hid⟩ | ⟨u', hu', rfl⟩ := Table.mem_modify.mp hu <;>
          obtain ⟨hv, hid'⟩ | ⟨v', hv', rfl⟩ := Table.mem_modify.mp hv
        · exact db.tenants_name u hu v hv huv
        · exact absurd huv (h.2 u hu hid)
        · exact absurd huv.symm (h.2 v hv hid')
        · rw [Option.some.inj (hu'.symm.trans hv')]
      tenants_slug := by
        intro u hu v hv huv
        obtain ⟨u', hu', rfl⟩ := List.mem_map.mp hu
        obtain ⟨v', hv', rfl⟩ := List.mem_map.mp hv
        have hslug : ∀ t : Tenant, (if t.id = id then { t with name } else t).slug = t.slug := by
          intro t
          split <;> rfl
        rw [hslug, hslug] at huv
        rw [db.tenants_slug u' hu' v' hv' huv]
      users_tenant := fun u hu t ht => by
        rw [Table.isSome_find?_modify]
        exact db.users_tenant u hu t ht
      conversations_tenant := fun c hc => by
        rw [Table.isSome_find?_modify]
        exact db.conversations_tenant c hc }
  else none

def insertUser (u : UserRow) : Option Database :=
  if h : u.fits ∧ db.users.find? u.key = none ∧
      (u.tenantId.all fun t => (db.tenants.find? t).isSome) = true ∧
      ∀ v ∈ db.users.rows, u.tenantId.isSome → ¬(v.tenantId = u.tenantId ∧ v.email = u.email) then
    some { db with
      users := db.users.insert u h.2.1
      users_tenant := by
        intro v hv t ht
        rw [Table.rows_insert, List.mem_append, List.mem_singleton] at hv
        obtain hv | rfl := hv
        · exact db.users_tenant v hv t ht
        · simpa [ht] using h.2.2.1
      users_tenant_email := by
        intro v hv w hw hs ht he
        rw [Table.rows_insert, List.mem_append, List.mem_singleton] at hv hw
        obtain hv | rfl := hv <;> obtain hw | rfl := hw
        · exact db.users_tenant_email v hv w hw hs ht he
        · exact absurd ⟨ht, he⟩ (h.2.2.2 v hv (ht ▸ hs))
        · exact absurd ⟨ht.symm, he.symm⟩ (h.2.2.2 w hw hs)
        · rfl
      conversations_agent := fun c hc a ha =>
        Table.isSome_find?_insert _ _ _ (db.conversations_agent c hc a ha)
      messages_sender := fun m hm a ha =>
        Table.isSome_find?_insert _ _ _ (db.messages_sender m hm a ha) }
  else none

def updateUser (id : Uuid) (f : UserRow → UserRow)
    (hf : ∀ u, (f u).id = u.id ∧ (f u).tenantId = u.tenantId ∧ (f u).email = u.email) : Database :=
  { db with
    users := db.users.modify id f fun u => (hf u).1
    users_tenant := by
      intro u hu t ht
      obtain ⟨u', hu', rfl⟩ := List.mem_map.mp hu
      apply db.users_tenant u' hu' t
      revert ht
      split
      · rw [(hf u').2.1]; exact fun ht => ht
      · exact fun ht => ht
    users_tenant_email := by
      intro u hu v hv hs ht he
      obtain ⟨u', hu', rfl⟩ := List.mem_map.mp hu
      obtain ⟨v', hv', rfl⟩ := List.mem_map.mp hv
      have htenant : ∀ w : UserRow, (if w.key = id then f w else w).tenantId = w.tenantId := by
        intro w
        split
        · exact (hf w).2.1
        · rfl
      have hemail : ∀ w : UserRow, (if w.key = id then f w else w).email = w.email := by
        intro w
        split
        · exact (hf w).2.2
        · rfl
      rw [htenant] at hs
      rw [htenant, htenant] at ht
      rw [hemail, hemail] at he
      rw [db.users_tenant_email u' hu' v' hv' hs ht he]
    conversations_agent := fun c hc a ha => by
      rw [Table.isSome_find?_modify]
      exact db.conversations_agent c hc a ha
    messages_sender := fun m hm a ha => by
      rw [Table.isSome_find?_modify]
      exact db.messages_sender m hm a ha }

def insertConversation (c : Conversation) : Option Database :=
  if h : c.fits ∧ db.conversations.find? c.id = none ∧ (db.tenants.find? c.tenantId).isSome ∧
      (c.assignedAgentId.all fun a => (db.users.find? a).isSome) = true then
    some { db with
      conversations := db.conversations.insert c h.2.1
      conversations_tenant := by
        intro d hd
        rw [Table.rows_insert, List.mem_append, List.mem_singleton] at hd
        obtain hd | rfl := hd
        · exact db.conversations_tenant d hd
        · exact h.2.2.1
      conversations_agent := by
        intro d hd a ha
        rw [Table.rows_insert, List.mem_append, List.mem_singleton] at hd
        obtain hd | rfl := hd
        · exact db.conversations_agent d hd a ha
        · simpa [ha] using h.2.2.2
      messages_conversation := fun m hm =>
        Table.isSome_find?_insert _ _ _ (db.messages_conversation m hm) }
  else none

/-- The row of conversation `id` is replaced by `f` of it; the foreign key to
`users` may refuse the new assignee. -/
def updateConversation (id : Uuid) (f : Conversation → Conversation)
    (hf : ∀ c, (f c).id = c.id ∧ (f c).tenantId = c.tenantId) : Option Database :=
  if h : ((db.conversations.find? id).all fun c =>
      (f c).assignedAgentId.all fun a => (db.users.find? a).isSome) = true then
    some { db with
      conversations := db.conversations.modify id f fun c => (hf c).1
      conversations_tenant := by
        intro c hc
        obtain ⟨hc, _⟩ | ⟨c', hc', rfl⟩ := Table.mem_modify.mp hc
        · exact db.conversations_tenant c hc
        · rw [(hf c').2]
          exact db.conversations_tenant c' (Table.mem_of_find? hc')
      conversations_agent := by
        intro c hc a ha
        obtain ⟨hc, _⟩ | ⟨c', hc', rfl⟩ := Table.mem_modify.mp hc
        · exact db.conversations_agent c hc a ha
        · simpa [hc', ha] using h
      messages_conversation := fun m hm => by
        rw [Table.isSome_find?_modify]
        exact db.messages_conversation m hm }
  else none

def insertMessage (m : Message) : Option Database :=
  if h : text m.body ∧ db.messages.find? m.id = none ∧
      (db.conversations.find? m.conversationId).isSome ∧
      (m.senderId.all fun u => (db.users.find? u).isSome) = true then
    some { db with
      messages := db.messages.insert m h.2.1
      messages_conversation := by
        intro n hn
        rw [Table.rows_insert, List.mem_append, List.mem_singleton] at hn
        obtain hn | rfl := hn
        · exact db.messages_conversation n hn
        · exact h.2.2.1
      messages_sender := by
        intro n hn u hu
        rw [Table.rows_insert, List.mem_append, List.mem_singleton] at hn
        obtain hn | rfl := hn
        · exact db.messages_sender n hn u hu
        · simpa [hu] using h.2.2.2 }
  else none

variable {db} {db' : Database}

theorem insertTenant_some {t : Tenant} (h : db.insertTenant t = some db') :
    db'.tenants.rows = db.tenants.rows ++ [t] ∧ db'.users = db.users ∧
      db'.conversations = db.conversations ∧ db'.messages = db.messages := by
  unfold insertTenant at h
  split at h
  · cases h; exact ⟨rfl, rfl, rfl, rfl⟩
  · cases h

theorem renameTenant_some {id : Uuid} {name : String} (h : db.renameTenant id name = some db') :
    db'.tenants = db.tenants.modify id (fun t => { t with name }) (fun _ => rfl) ∧
      db'.users = db.users ∧ db'.conversations = db.conversations ∧ db'.messages = db.messages := by
  unfold renameTenant at h
  split at h
  · cases h; exact ⟨rfl, rfl, rfl, rfl⟩
  · cases h

theorem insertUser_some {u : UserRow} (h : db.insertUser u = some db') :
    (∃ hnew, db'.users = db.users.insert u hnew) ∧ db'.tenants = db.tenants ∧
      db'.conversations = db.conversations ∧ db'.messages = db.messages := by
  unfold insertUser at h
  split at h
  · rename_i hc
    cases h; exact ⟨⟨hc.2.1, rfl⟩, rfl, rfl, rfl⟩
  · cases h

theorem insertUser_unique {u : UserRow} (h : db.insertUser u = some db')
    (htenant : u.tenantId.isSome) :
    ∀ v ∈ db.users.rows, ¬(v.tenantId = u.tenantId ∧ v.email = u.email) := by
  unfold insertUser at h
  split at h
  · rename_i hc
    exact fun v hv => hc.2.2.2 v hv htenant
  · cases h

theorem insertConversation_some {c : Conversation} (h : db.insertConversation c = some db') :
    (∃ hnew, db'.conversations = db.conversations.insert c hnew) ∧
      db'.tenants = db.tenants ∧ db'.users = db.users ∧ db'.messages = db.messages := by
  unfold insertConversation at h
  split at h
  · rename_i hc
    cases h; exact ⟨⟨hc.2.1, rfl⟩, rfl, rfl, rfl⟩
  · cases h

theorem updateConversation_some {id : Uuid} {f : Conversation → Conversation}
    {hf : ∀ c, (f c).id = c.id ∧ (f c).tenantId = c.tenantId}
    (h : db.updateConversation id f hf = some db') :
    db'.conversations = db.conversations.modify id f (fun c => (hf c).1) ∧
      db'.tenants = db.tenants ∧ db'.users = db.users ∧ db'.messages = db.messages := by
  unfold updateConversation at h
  split at h
  · cases h; exact ⟨rfl, rfl, rfl, rfl⟩
  · cases h

theorem updateConversation_none {id : Uuid} {f : Conversation → Conversation}
    {hf : ∀ c, (f c).id = c.id ∧ (f c).tenantId = c.tenantId}
    (h : db.updateConversation id f hf = none) :
    ∃ c a, db.conversations.find? id = some c ∧ (f c).assignedAgentId = some a ∧
      db.users.find? a = none := by
  unfold updateConversation at h
  split at h
  · cases h
  · rename_i hrefused
    cases hc : db.conversations.find? id with
    | none => simp [hc] at hrefused
    | some c =>
      cases ha : (f c).assignedAgentId with
      | none => simp [hc, ha] at hrefused
      | some a => exact ⟨c, a, rfl, ha, by simpa [hc, ha] using hrefused⟩

theorem insertMessage_some {m : Message} (h : db.insertMessage m = some db') :
    db'.messages.rows = db.messages.rows ++ [m] ∧ db'.tenants = db.tenants ∧
      db'.users = db.users ∧ db'.conversations = db.conversations := by
  unfold insertMessage at h
  split at h
  · cases h; exact ⟨rfl, rfl, rfl, rfl⟩
  · cases h

theorem insertTenant_isSome {t : Tenant} : (db.insertTenant t).isSome ↔
    t.fits ∧ db.tenants.find? t.id = none ∧
      ∀ t' ∈ db.tenants.rows, t'.name ≠ t.name ∧ t'.slug ≠ t.slug := by
  unfold insertTenant
  split <;> simp_all

theorem renameTenant_isSome {id : Uuid} {name : String} : (db.renameTenant id name).isSome ↔
    varchar 100 name ∧ ∀ t ∈ db.tenants.rows, t.id ≠ id → t.name ≠ name := by
  unfold renameTenant
  split <;> simp_all

theorem insertUser_isSome {u : UserRow} : (db.insertUser u).isSome ↔
    u.fits ∧ db.users.find? u.key = none ∧
      (u.tenantId.all fun t => (db.tenants.find? t).isSome) = true ∧
      ∀ v ∈ db.users.rows, u.tenantId.isSome → ¬(v.tenantId = u.tenantId ∧ v.email = u.email) := by
  unfold insertUser
  split
  · rename_i hfits
    exact ⟨fun _ => hfits, fun _ => rfl⟩
  · rename_i hrefused
    exact ⟨fun hsome => (Bool.false_ne_true hsome).elim, fun hfits => (hrefused hfits).elim⟩

theorem insertConversation_isSome {c : Conversation} : (db.insertConversation c).isSome ↔
    c.fits ∧ db.conversations.find? c.id = none ∧ (db.tenants.find? c.tenantId).isSome ∧
      (c.assignedAgentId.all fun a => (db.users.find? a).isSome) = true := by
  unfold insertConversation
  split <;> simp_all

theorem updateConversation_isSome {id : Uuid} {f : Conversation → Conversation}
    {hf : ∀ c, (f c).id = c.id ∧ (f c).tenantId = c.tenantId} :
    (db.updateConversation id f hf).isSome ↔ ((db.conversations.find? id).all fun c =>
      (f c).assignedAgentId.all fun a => (db.users.find? a).isSome) = true := by
  unfold updateConversation
  split <;> simp_all

theorem insertMessage_isSome {m : Message} : (db.insertMessage m).isSome ↔
    text m.body ∧ db.messages.find? m.id = none ∧
      (db.conversations.find? m.conversationId).isSome ∧
      (m.senderId.all fun u => (db.users.find? u).isSome) = true := by
  unfold insertMessage
  split <;> simp_all

theorem find?_insertConversation {c : Conversation} (h : db.insertConversation c = some db')
    (id : Uuid) : db'.conversations.find? id =
      if c.id = id then some c else db.conversations.find? id := by
  obtain ⟨⟨hnew, heq⟩, _⟩ := insertConversation_some h
  rw [heq, Table.find?_insert]

theorem find?_updateConversation_self {id : Uuid} {f : Conversation → Conversation}
    {hf : ∀ c, (f c).id = c.id ∧ (f c).tenantId = c.tenantId}
    (h : db.updateConversation id f hf = some db') :
    db'.conversations.find? id = (db.conversations.find? id).map f := by
  rw [(updateConversation_some h).1]
  exact Table.find?_modify_self _ _ _ _

theorem find?_updateConversation_of_ne {id other : Uuid} {f : Conversation → Conversation}
    {hf : ∀ c, (f c).id = c.id ∧ (f c).tenantId = c.tenantId}
    (h : db.updateConversation id f hf = some db') (hne : other ≠ id) :
    db'.conversations.find? other = db.conversations.find? other := by
  rw [(updateConversation_some h).1]
  exact Table.find?_modify_of_ne _ _ _ hne

theorem find?_insertUser {u : UserRow} (h : db.insertUser u = some db') (id : Uuid) :
    db'.users.find? id = if u.id = id then some u else db.users.find? id := by
  obtain ⟨⟨hnew, heq⟩, _⟩ := insertUser_some h
  rw [heq, Table.find?_insert]

theorem find?_updateUser_self (id : Uuid) (f : UserRow → UserRow)
    (hf : ∀ u, (f u).id = u.id ∧ (f u).tenantId = u.tenantId ∧ (f u).email = u.email) :
    (db.updateUser id f hf).users.find? id = (db.users.find? id).map f :=
  Table.find?_modify_self _ _ _ fun u => (hf u).1

theorem find?_updateUser_of_ne {id other : Uuid} (f : UserRow → UserRow)
    (hf : ∀ u, (f u).id = u.id ∧ (f u).tenantId = u.tenantId ∧ (f u).email = u.email)
    (hne : other ≠ id) : (db.updateUser id f hf).users.find? other = db.users.find? other :=
  Table.find?_modify_of_ne _ _ (fun u => (hf u).1) hne

theorem find?_assignedAgent {c : Conversation} (hc : c ∈ db.conversations.rows) :
    (c.assignedAgentId.bind db.users.find?).map UserRow.key = c.assignedAgentId := by
  cases ha : c.assignedAgentId with
  | none => rfl
  | some a =>
    have hsome := db.conversations_agent c hc a ha
    cases hu : db.users.find? a with
    | none => rw [hu] at hsome; cases hsome
    | some u => simp [hu, Table.key_of_find? hu]

end Database

end SupportApi
