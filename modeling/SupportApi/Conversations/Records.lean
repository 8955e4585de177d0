import SupportApi.Conversations.Requests
import SupportApi.Lib.Retains

namespace SupportApi

open Lib

def Tenant.record (t : Tenant) : Tenant := { t with isActive := true, updatedAt := 0 }

def UserRow.record (u : UserRow) : UserRow :=
  { u with isActive := true, refreshToken := none, updatedAt := 0 }

def Conversation.record (c : Conversation) : Conversation :=
  { c with status := .opened, assignedAgentId := none, resolvedAt := none, claimedAt := none,
           updatedAt := 0 }

/-- A message by nobody, as `resolveConversation` writes it. -/
def Message.IsNote (m : Message) : Prop :=
  m.senderId = none ∧ m.senderType = .system ∧ m.isInternal = false ∧
    ∃ note, note ≠ "" ∧ m.body = "Resolution note: " ++ note

/-- Nothing is removed, no record is changed, and only notes are added to the messages. -/
structure Database.Retains (db db' : Database) : Prop where
  tenants : Table.Retains Tenant.record db.tenants db'.tenants
  users : Table.Retains UserRow.record db.users db'.users
  conversations : Table.Retains Conversation.record db.conversations db'.conversations
  messages : ∃ notes, db'.messages.rows = db.messages.rows ++ notes ∧ ∀ m ∈ notes, m.IsNote

namespace Database.Retains

variable {db db' db'' : Database}

theorem same_messages (h : db'.messages = db.messages) :
    ∃ notes, db'.messages.rows = db.messages.rows ++ notes ∧ ∀ m ∈ notes, m.IsNote :=
  ⟨[], by rw [h, List.append_nil], nofun⟩

theorem refl (db : Database) : Retains db db :=
  ⟨.refl _, .refl _, .refl _, same_messages rfl⟩

theorem trans (h : Retains db db') (h' : Retains db' db'') : Retains db db'' where
  tenants := h.tenants.trans h'.tenants
  users := h.users.trans h'.users
  conversations := h.conversations.trans h'.conversations
  messages := by
    obtain ⟨notes, hnotes, hare⟩ := h.messages
    obtain ⟨notes', hnotes', hare'⟩ := h'.messages
    refine ⟨notes ++ notes', by rw [hnotes', hnotes, List.append_assoc], fun m hm => ?_⟩
    exact (List.mem_append.mp hm).elim (hare m) (hare' m)

theorem insertTenant {t : Tenant} (h : db.insertTenant t = some db') : Retains db db' := by
  obtain ⟨htenants, husers, hconvs, hmessages⟩ := insertTenant_some h
  exact ⟨.of_append htenants, .of_eq husers, .of_eq hconvs, same_messages hmessages⟩

theorem insertUser {u : UserRow} (h : db.insertUser u = some db') : Retains db db' := by
  obtain ⟨⟨_, husers⟩, htenants, hconvs, hmessages⟩ := insertUser_some h
  exact ⟨.of_eq htenants, husers ▸ .insert _ _ _, .of_eq hconvs, same_messages hmessages⟩

theorem updateTenant (id : Uuid) (f : Tenant → Tenant)
    (hf : ∀ t, (f t).id = t.id ∧ (f t).name = t.name ∧ (f t).slug = t.slug)
    (hrecord : ∀ t, (f t).record = t.record) : Retains db (db.updateTenant id f hf) :=
  ⟨.modify _ (fun t => (hf t).1) fun t _ => hrecord t, .refl _, .refl _, same_messages rfl⟩

theorem updateUser (id : Uuid) (f : UserRow → UserRow)
    (hf : ∀ u, (f u).id = u.id ∧ (f u).tenantId = u.tenantId ∧ (f u).email = u.email)
    (hrecord : ∀ u, (f u).record = u.record) : Retains db (db.updateUser id f hf) :=
  ⟨.refl _, .modify _ (fun u => (hf u).1) fun u _ => hrecord u, .refl _, same_messages rfl⟩

theorem insertConversation {c : Conversation} (h : db.insertConversation c = some db') :
    Retains db db' := by
  obtain ⟨⟨_, hconvs⟩, htenants, husers, hmessages⟩ := insertConversation_some h
  exact ⟨.of_eq htenants, .of_eq husers, hconvs ▸ .insert _ _ _, same_messages hmessages⟩

theorem insertNote {m : Message} (h : db.insertMessage m = some db') (hm : m.IsNote) :
    Retains db db' := by
  obtain ⟨hmessages, htenants, husers, hconvs⟩ := insertMessage_some h
  refine ⟨.of_eq htenants, .of_eq husers, .of_eq hconvs, [m], hmessages, fun n hn => ?_⟩
  exact List.mem_singleton.mp hn ▸ hm

theorem find? (h : Retains db db') {id : Uuid} {c : Conversation}
    (hc : db.conversations.find? id = some c) :
    ∃ c', db'.conversations.find? id = some c' ∧ c'.record = c.record :=
  h.conversations.find? Conversation.id (fun _ => rfl) hc

end Database.Retains

namespace Conversations

variable {s t : State} {db db' : Database} {id : Uuid}

def Recorded (db : Database) (id : Uuid) (e : Conversation) : Prop :=
  ∃ row, db.conversations.find? id = some row ∧ row.record = e.record

def Process.Recorded (db : Database) : Process → Prop
  | .claim id _ (.locked conv) => conv.id = id ∧ Conversations.Recorded db id conv
  | .resolve id _ _ (.loaded e) => Conversations.Recorded db id e.conv
  | .resolve id _ _ (.saving e) => Conversations.Recorded db id e.conv
  | .resolve id _ _ (.writing e reread _) => reread.id = id ∧
      Conversations.Recorded db id e.conv ∧ Conversations.Recorded db id reread
  | _ => True

theorem Recorded.mono (h : db.Retains db') {e : Conversation} (hcopy : Recorded db id e) :
    Recorded db' id e := by
  obtain ⟨row, hrow, hrecord⟩ := hcopy
  obtain ⟨row', hrow', hrecord'⟩ := h.find? hrow
  exact ⟨row', hrow', hrecord'.trans hrecord⟩

theorem Process.Recorded.mono (h : db.Retains db') {proc : Process} (hproc : proc.Recorded db) :
    proc.Recorded db' := by
  cases proc with
  | idle => trivial
  | claim id user phase =>
    cases phase with
    | locked conv => exact ⟨hproc.1, hproc.2.mono h⟩
    | _ => trivial
  | resolve id user dto phase =>
    cases phase with
    | loaded e => exact Conversations.Recorded.mono h hproc
    | saving e => exact Conversations.Recorded.mono h hproc
    | writing e reread _ => exact ⟨hproc.1, hproc.2.1.mono h, hproc.2.2.mono h⟩
    | _ => trivial

theorem record_written {nulls : Bool} {entity reread row : Conversation} (now : Time)
    (hentity : row.record = entity.record) (hreread : row.record = reread.record) :
    (written nulls entity reread row now).record = row.record := by
  simp only [Conversation.record, Conversation.mk.injEq, true_and, and_true] at hentity hreread ⊢
  obtain ⟨-, -, hsubject, hdescription, hpriority, hemail, hname, hcreated⟩ := hentity
  obtain ⟨-, -, hsubject', hdescription', hpriority', hemail', hname', hcreated'⟩ := hreread
  simp only [written, ← hsubject, ← hdescription, ← hpriority, ← hemail, ← hname, ← hcreated,
    ← hsubject', ← hdescription', ← hpriority', ← hemail', ← hname', ← hcreated', merge_self,
    and_self]

theorem update_retains {nulls : Bool} {entity reread : Conversation} {now : Time}
    (hentity : Recorded db reread.id entity) (hreread : Recorded db reread.id reread)
    (h : update nulls db entity reread now = some db') : db.Retains db' := by
  obtain ⟨hconvs, htenants, husers, hmessages⟩ := Database.updateConversation_some h
  refine ⟨.of_eq htenants, .of_eq husers, hconvs ▸ .modify _ _ fun row hrow => ?_,
    Database.Retains.same_messages hmessages⟩
  obtain ⟨row₁, hrow₁, hentity⟩ := hentity
  obtain ⟨row₂, hrow₂, hreread⟩ := hreread
  cases hrow.symm.trans hrow₁
  cases hrow.symm.trans hrow₂
  exact record_written now hentity hreread

theorem isNote_noteMessage {dto : ResolveConversationDto} {note : String}
    (h : resolutionNote dto = some note) (conv : Conversation) (id : Uuid) (now : Time) :
    (noteMessage conv note id now).IsNote := by
  have hnote : note ≠ "" := by simpa using (Option.filter_eq_some_iff.mp h).2
  exact ⟨rfl, rfl, rfl, note, hnote, rfl⟩

def Current (s : State) : Prop := ∀ p, (s.procs p).Recorded s.db

theorem Current.moves (h : Current s) {p : Pid} {proc : Process} (hdb : s.db.Retains t.db)
    (hprocs : t.procs = Function.update s.procs p proc) (hproc : proc.Recorded t.db) : Current t := by
  intro q
  rw [hprocs]
  exact (Function.forall_update_iff s.procs fun _ pr => pr.Recorded t.db).mpr
    ⟨hproc, fun q _ => (h q).mono hdb⟩ q

theorem Step.retains {a : Action} (hs : Step s a t) (h : Current s) : s.db.Retains t.db := by
  have hat : ∀ {p proc}, s.procs p = proc → proc.Recorded s.db := fun hp => hp ▸ h _
  cases hs with
  | create hcreate => exact .insertConversation (create_ok hcreate).1
  | @commits _ now _ user conv _ _ hp hclaim =>
    obtain ⟨rfl, hcopy⟩ := hat hp
    have hassigned : Recorded s.db conv.id (assigned conv user now) := hcopy
    rcases (claimLocked_ok hclaim).2 with ⟨-, -, rfl⟩ | ⟨-, hupdate, -⟩
    · exact .refl _
    · exact update_retains hassigned hcopy hupdate
  | @writes _ _ _ _ _ _ entity reread _ _ hp _ hsave =>
    obtain ⟨-, hupdate⟩ := save_some hsave
    obtain ⟨rfl, hentity, hreread⟩ := hat hp
    have hcolumns : Recorded s.db reread.id (columns entity) := hentity
    exact update_retains hcolumns hreread hupdate
  | notes _ hnote hins => exact .insertNote hins (isNote_noteMessage hnote _ _ _)
  | _ => exact .refl _

theorem Step.current {a : Action} (hs : Step s a t) (h : Current s) : Current t := by
  have hretains := hs.retains h
  have hat : ∀ {p proc}, s.procs p = proc → proc.Recorded s.db := fun hp => hp ▸ h _
  cases hs with
  | create => exact fun p => (h p).mono hretains
  | locks _ hconv =>
    have hfind := (selectConversation_some hconv).1
    exact h.moves hretains rfl ⟨Table.key_of_find? hfind, _, hfind, rfl⟩
  | loads _ hload =>
    obtain ⟨conv, hconv, rfl, -⟩ := findOne_ok hload
    exact h.moves hretains rfl ⟨_, (selectConversation_some hconv).1, rfl⟩
  | checks hp =>
    have hcopy : Recorded s.db _ _ := hat hp
    exact h.moves hretains rfl hcopy
  | rereads hp hfind =>
    have hcopy : Recorded s.db _ _ := hat hp
    exact h.moves hretains rfl ⟨Table.key_of_find? hfind, hcopy, _, hfind, rfl⟩
  | _ => exact h.moves hretains rfl trivial

theorem Current.store (h : Current s) (hdb : s.db.Retains db) : Current (s.store db) :=
  fun p => (h p).mono hdb

end Conversations

end SupportApi
