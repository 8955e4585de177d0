import SupportApi.Data.Database

namespace SupportApi

open Lib

def UserRow.ofTenant (t : Uuid) (u : UserRow) : Bool := u.tenantId = some t

def Conversation.ofTenant (t : Uuid) (c : Conversation) : Bool := c.tenantId = t

namespace Database

def ofTenant (db : Database) (t : Uuid) (m : Message) : Bool :=
  (db.conversations.find? m.conversationId).any (Conversation.ofTenant t)

structure SameUsers (t : Uuid) (db db' : Database) : Prop where
  tenant : db.tenants.find? t = db'.tenants.find? t
  users : db.users.restrict (UserRow.ofTenant t) = db'.users.restrict (UserRow.ofTenant t)

variable {t : Uuid} {db db' : Database}

theorem SameUsers.trans {db'' : Database} (h : SameUsers t db db') (h' : SameUsers t db' db'') :
    SameUsers t db db'' where
  tenant := h.tenant.trans h'.tenant
  users := h.users.trans h'.users

theorem SameUsers.select (h : SameUsers t db db') {p : UserRow → Bool}
    (hp : ∀ u, p u = true → u.tenantId = some t) : db.users.select p = db'.users.select p := by
  apply Table.select_congr h.users <;> simp +contextual [UserRow.ofTenant, hp]

theorem SameUsers.find? (h : SameUsers t db db') (id : Uuid) :
    (db.users.find? id).filter (UserRow.ofTenant t) =
      (db'.users.find? id).filter (UserRow.ofTenant t) := by
  rw [← Table.find?_restrict, ← Table.find?_restrict, h.users]

theorem SameUsers.find?_some (h : SameUsers t db db') {id : Uuid} {u : UserRow}
    (hfind : db.users.find? id = some u) (hu : u.tenantId = some t) :
    db'.users.find? id = some u := by
  have hfilter := h.find? id
  rw [hfind, Option.filter_some_pos (by simpa [UserRow.ofTenant] using hu)] at hfilter
  exact (Option.filter_eq_some_iff.mp hfilter.symm).1

def only (db : Database) (t : Uuid) : Database where
  tenants := db.tenants.restrict fun tenant => tenant.id = t
  users := db.users.restrict (UserRow.ofTenant t)
  conversations := .empty
  messages := .empty
  tenants_name u hu v hv := db.tenants_name u (List.mem_of_mem_filter hu) v (List.mem_of_mem_filter hv)
  tenants_slug u hu v hv := db.tenants_slug u (List.mem_of_mem_filter hu) v (List.mem_of_mem_filter hv)
  users_tenant u hu s hs := by
    obtain ⟨hmem, htenant⟩ := Table.mem_restrict.mp hu
    have hst : s = t := by simpa [UserRow.ofTenant, hs] using htenant
    subst hst
    obtain ⟨tenant, hfind⟩ := Option.isSome_iff_exists.mp (db.users_tenant u hmem s hs)
    rw [Table.find?_restrict, hfind]
    simp [Option.filter, Table.key_of_find? hfind]
  users_tenant_email u hu v hv :=
    db.users_tenant_email u (List.mem_of_mem_filter hu) v (List.mem_of_mem_filter hv)
  conversations_tenant := by simp [Table.empty]
  conversations_agent := by simp [Table.empty]
  messages_conversation := empty.messages_conversation
  messages_sender := by simp [Table.empty]

theorem sameUsers_only (db : Database) (t : Uuid) : SameUsers t db (db.only t) where
  tenant := by
    rw [only, Table.find?_restrict]
    cases hfind : db.tenants.find? t with
    | none => rfl
    | some tenant => simp [Option.filter, Table.key_of_find? hfind]
  users := by
    apply Table.ext
    simp [only, Table.restrict, Table.select]

structure Extends (db db' : Database) : Prop where
  users : ∀ id u, db.users.find? id = some u →
    ∃ u', db'.users.find? id = some u' ∧ u'.tenantId = u.tenantId ∧ u'.role = u.role
  conversations : ∀ id c, db.conversations.find? id = some c →
    ∃ c', db'.conversations.find? id = some c' ∧ c'.tenantId = c.tenantId

namespace Extends

theorem of_eq (husers : db'.users = db.users) (hconvs : db'.conversations = db.conversations) :
    Extends db db' where
  users _ u h := ⟨u, husers ▸ h, rfl, rfl⟩
  conversations _ c h := ⟨c, hconvs ▸ h, rfl⟩

theorem insertUser {u : UserRow} (h : db.insertUser u = some db') : Extends db db' where
  users id v hv := by
    obtain ⟨⟨hnew, -⟩, -⟩ := insertUser_some h
    refine ⟨v, ?_, rfl, rfl⟩
    rw [find?_insertUser h, if_neg, hv]
    rintro rfl
    cases hnew.symm.trans hv
  conversations id c hc := ⟨c, (insertUser_some h).2.2.1 ▸ hc, rfl⟩

theorem updateUser (id : Uuid) (f : UserRow → UserRow)
    (hf : ∀ u, (f u).id = u.id ∧ (f u).tenantId = u.tenantId ∧ (f u).email = u.email)
    (hrole : ∀ u, (f u).role = u.role) : Extends db (db.updateUser id f hf) where
  users other u hu := by
    by_cases hid : other = id
    · subst hid
      rw [find?_updateUser_self, hu]
      exact ⟨f u, rfl, (hf u).2.1, hrole u⟩
    · rw [find?_updateUser_of_ne _ _ hid]
      exact ⟨u, hu, rfl, rfl⟩
  conversations other c hc := ⟨c, hc, rfl⟩

theorem insertConversation {c : Conversation} (h : db.insertConversation c = some db') :
    Extends db db' where
  users id u hu := ⟨u, (insertConversation_some h).2.2.1 ▸ hu, rfl, rfl⟩
  conversations id d hd := by
    obtain ⟨⟨hnew, -⟩, -⟩ := insertConversation_some h
    refine ⟨d, ?_, rfl⟩
    rw [find?_insertConversation h, if_neg, hd]
    rintro rfl
    cases hnew.symm.trans hd

theorem updateConversation {id : Uuid} {f : Conversation → Conversation}
    {hf : ∀ c, (f c).id = c.id ∧ (f c).tenantId = c.tenantId}
    (h : db.updateConversation id f hf = some db') : Extends db db' where
  users other u hu := ⟨u, (updateConversation_some h).2.2.1 ▸ hu, rfl, rfl⟩
  conversations other c hc := by
    by_cases hid : other = id
    · subst hid
      rw [find?_updateConversation_self h, hc]
      exact ⟨f c, rfl, (hf c).2⟩
    · rw [find?_updateConversation_of_ne h hid]
      exact ⟨c, hc, rfl⟩

end Extends

def Staff (db : Database) (t id : Uuid) : Prop :=
  ∃ u, db.users.find? id = some u ∧ u.tenantId = some t ∧ u.role ≠ .superAdmin

theorem Staff.mono (h : Extends db db') {id : Uuid} (hstaff : Staff db t id) : Staff db' t id := by
  obtain ⟨u, hfind, htenant, hrole⟩ := hstaff
  obtain ⟨u', hfind', htenant', hrole'⟩ := h.users id u hfind
  exact ⟨u', hfind', htenant'.trans htenant, hrole' ▸ hrole⟩

structure SamePart (t : Uuid) (db db' : Database) : Prop extends SameUsers t db db' where
  conversations : db.conversations.restrict (Conversation.ofTenant t) =
    db'.conversations.restrict (Conversation.ofTenant t)
  messages : db.messages.restrict (db.ofTenant t) = db'.messages.restrict (db'.ofTenant t)

structure SameRest (t : Uuid) (db db' : Database) : Prop where
  tenants : db'.tenants = db.tenants
  users : db'.users = db.users
  conversations : db'.conversations.restrict (fun c => !c.ofTenant t) =
    db.conversations.restrict fun c => !c.ofTenant t
  messages : db'.messages.restrict (fun m => !db'.ofTenant t m) =
    db.messages.restrict fun m => !db.ofTenant t m

theorem SameRest.rfl : SameRest t db db := ⟨Eq.refl _, Eq.refl _, Eq.refl _, Eq.refl _⟩

theorem SameRest.trans {db'' : Database} (h : SameRest t db db') (h' : SameRest t db' db'') :
    SameRest t db db'' where
  tenants := h'.tenants.trans h.tenants
  users := h'.users.trans h.users
  conversations := h'.conversations.trans h.conversations
  messages := h'.messages.trans h.messages

theorem ofTenant_eq {c : Conversation} (h : c.tenantId = t) : c.ofTenant t = true := by
  simpa [Conversation.ofTenant] using h

namespace SamePart

theorem find? (h : SamePart t db db') (id : Uuid) :
    (db.conversations.find? id).filter (Conversation.ofTenant t) =
      (db'.conversations.find? id).filter (Conversation.ofTenant t) := by
  rw [← Table.find?_restrict, ← Table.find?_restrict, h.conversations]

theorem find?_some (h : SamePart t db db') {id : Uuid} {c : Conversation}
    (hfind : db.conversations.find? id = some c) (hc : c.tenantId = t) :
    db'.conversations.find? id = some c := by
  have hfilter := h.find? id
  rw [hfind, Option.filter_some_pos (ofTenant_eq hc)] at hfilter
  exact (Option.filter_eq_some_iff.mp hfilter.symm).1

theorem select (h : SamePart t db db') {p : Conversation → Bool}
    (hp : ∀ c, p c = true → c.tenantId = t) :
    db.conversations.select p = db'.conversations.select p := by
  apply Table.select_congr h.conversations <;> exact fun c _ hc => ofTenant_eq (hp c hc)

theorem ofTenant_of_find? {id : Uuid} {c : Conversation} (hfind : db.conversations.find? id = some c)
    (hc : c.tenantId = t) {m : Message} (hm : m.conversationId = id) : db.ofTenant t m = true := by
  rw [Database.ofTenant, hm, hfind]
  exact ofTenant_eq hc

theorem select_messages (h : SamePart t db db') {c : Conversation}
    (hfind : db.conversations.find? c.id = some c) (hc : c.tenantId = t) :
    (db.messages.select fun m => m.conversationId = c.id) =
      db'.messages.select fun m => m.conversationId = c.id := by
  apply Table.select_congr h.messages
  · intro m _ hm
    exact ofTenant_of_find? hfind hc (by simpa using hm)
  · intro m _ hm
    exact ofTenant_of_find? (h.find?_some hfind hc) hc (by simpa using hm)

end SamePart

theorem ofTenant_congr {m : Message} (hm : m ∈ db.messages.rows) (h : Extends db db') :
    db'.ofTenant t m = db.ofTenant t m := by
  obtain ⟨c, hfind⟩ := Option.isSome_iff_exists.mp (db.messages_conversation m hm)
  obtain ⟨c', hfind', htenant⟩ := h.conversations _ c hfind
  simp [Database.ofTenant, hfind, hfind', Conversation.ofTenant, htenant]

theorem restrict_messages (h : Extends db db') (hmessages : db'.messages = db.messages) :
    db'.messages.restrict (db'.ofTenant t) = db.messages.restrict (db.ofTenant t) ∧
      (db'.messages.restrict fun m => !db'.ofTenant t m) =
        db.messages.restrict fun m => !db.ofTenant t m := by
  rw [hmessages]
  constructor
  · exact Table.restrict_congr _ fun m hm => ofTenant_congr hm h
  · exact Table.restrict_congr _ fun m hm => by rw [ofTenant_congr hm h]

structure Writes (t : Uuid) (db db' : Database) (part : List Conversation) (added : List Message) :
    Prop where
  rest : SameRest t db db'
  conversations : (db'.conversations.restrict (Conversation.ofTenant t)).rows = part
  messages : (db'.messages.restrict (db'.ofTenant t)).rows =
    (db.messages.restrict (db.ofTenant t)).rows ++ added

theorem SamePart.writes (h : SamePart t db db') {after after' : Database} {part : List Conversation}
    {added : List Message} (hw : Writes t db after part added)
    (hw' : Writes t db' after' part added) : SamePart t after after' where
  tenant := by rw [hw.rest.tenants, hw'.rest.tenants, h.tenant]
  users := by rw [hw.rest.users, hw'.rest.users, h.users]
  conversations := Table.ext (hw.conversations.trans hw'.conversations.symm)
  messages := Table.ext (by rw [hw.messages, hw'.messages, h.messages])

theorem Writes.of_conversations {part : List Conversation} (hextends : Extends db db')
    (htenants : db'.tenants = db.tenants) (husers : db'.users = db.users)
    (hmessages : db'.messages = db.messages)
    (hpart : (db'.conversations.restrict (Conversation.ofTenant t)).rows = part)
    (hrest : db'.conversations.restrict (fun c => !c.ofTenant t) =
      db.conversations.restrict fun c => !c.ofTenant t) : Writes t db db' part [] where
  rest := ⟨htenants, husers, hrest, (restrict_messages hextends hmessages).2⟩
  conversations := hpart
  messages := by rw [(restrict_messages hextends hmessages).1, List.append_nil]

theorem insertConversation_writes {c : Conversation} (h : db.insertConversation c = some db')
    (hc : c.tenantId = t) :
    Writes t db db' ((db.conversations.restrict (Conversation.ofTenant t)).rows ++ [c]) [] := by
  obtain ⟨⟨hnew, hconvs⟩, htenants, husers, hmessages⟩ := insertConversation_some h
  apply Writes.of_conversations (.insertConversation h) htenants husers hmessages
  · rw [hconvs]
    simp [Table.restrict, Table.select, ofTenant_eq hc]
  · rw [hconvs]
    apply Table.ext
    simp [Table.restrict, Table.select, ofTenant_eq hc]

theorem updateConversation_writes {id : Uuid} {f : Conversation → Conversation}
    {hf : ∀ c, (f c).id = c.id ∧ (f c).tenantId = c.tenantId} {c : Conversation}
    (h : db.updateConversation id f hf = some db') (hfind : db.conversations.find? id = some c)
    (hc : c.tenantId = t) :
    Writes t db db' ((db.conversations.restrict (Conversation.ofTenant t)).modify id f
      fun c => (hf c).1).rows [] := by
  obtain ⟨hconvs, htenants, husers, hmessages⟩ := updateConversation_some h
  have hkeeps : ∀ c, (f c).ofTenant t = c.ofTenant t := by
    intro c
    rw [Conversation.ofTenant, Conversation.ofTenant, (hf c).2]
  have hothers : ∀ c, (!(f c).ofTenant t) = !c.ofTenant t := fun c => by rw [hkeeps c]
  apply Writes.of_conversations (.updateConversation h) htenants husers hmessages
  · rw [hconvs, Table.restrict_modify _ _ _ _ _ hkeeps]
  · rw [hconvs, Table.restrict_modify _ _ _ _ _ hothers]
    -- the row is not among the others
    apply Table.modify_of_none
    rw [Table.find?_restrict, hfind]
    simp [Option.filter, ofTenant_eq hc]

theorem insertMessage_writes {m : Message} (h : db.insertMessage m = some db')
    (hm : db.ofTenant t m = true) :
    Writes t db db' (db.conversations.restrict (Conversation.ofTenant t)).rows [m] := by
  obtain ⟨hmessages, htenants, husers, hconvs⟩ := insertMessage_some h
  have hof : db'.ofTenant t = db.ofTenant t := by
    funext m
    rw [Database.ofTenant, Database.ofTenant, hconvs]
  have hrest : (db'.messages.restrict fun m => !db'.ofTenant t m) =
      db.messages.restrict fun m => !db.ofTenant t m := by
    apply Table.ext
    simp [Table.restrict, Table.select, hmessages, hof, hm]
  refine ⟨⟨htenants, husers, by rw [hconvs], hrest⟩, by rw [hconvs], ?_⟩
  simp [Table.restrict, Table.select, hmessages, hof, hm]

end Database

end SupportApi
