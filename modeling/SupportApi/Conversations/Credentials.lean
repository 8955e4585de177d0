import SupportApi.Conversations.Isolation
import SupportApi.Data.Credentials

namespace SupportApi

open Lib

structure Alike {α : Type} (R : α → α → Prop) (x x' : Except Exception α × Database) : Prop where
  reply : Replies R x.1 x'.1
  db : Database.SameButCredentials x.2 x'.2

namespace Conversations

def LoadedConversation.withoutToken (loaded : LoadedConversation) : LoadedConversation :=
  { loaded with assignedAgent := loaded.assignedAgent.map User.withoutToken }

def LoadedConversation.SameButToken (loaded loaded' : LoadedConversation) : Prop :=
  loaded'.withoutToken = loaded.withoutToken

theorem columns_withoutToken (loaded : LoadedConversation) :
    columns loaded.withoutToken = columns loaded := by
  simp only [columns, LoadedConversation.withoutToken, Option.map_map]
  rfl

theorem stamped_withoutToken (db : Database) (loaded : LoadedConversation) :
    stamped db loaded.withoutToken = (stamped db loaded).withoutToken := by
  have hid : loaded.withoutToken.conv.id = loaded.conv.id := rfl
  rw [stamped, stamped, hid]
  split <;> rfl

namespace LoadedConversation.SameButToken

variable {loaded loaded' : LoadedConversation} (h : loaded.SameButToken loaded')
include h

theorem conv : loaded'.conv = loaded.conv := by
  have hsame : loaded'.withoutToken = loaded.withoutToken := h
  have hconv := congrArg LoadedConversation.conv hsame
  exact hconv

theorem columns : columns loaded' = columns loaded := by
  rw [← columns_withoutToken, ← columns_withoutToken loaded, h]

theorem resolved (now : Time) : (resolved loaded now).SameButToken (resolved loaded' now) :=
  congrArg (Conversations.resolved · now) h

theorem stamped (db : Database) : (stamped db loaded).SameButToken (stamped db loaded') := by
  rw [SameButToken, ← stamped_withoutToken, ← stamped_withoutToken, h]

end LoadedConversation.SameButToken

variable {db db' : Database} (h : db.SameButCredentials db') (user : User)
include h

theorem selectConversation_sameBut (id : Uuid) :
    selectConversation db' id user = selectConversation db id user := by
  rw [selectConversation, selectConversation, h.conversations]

theorem load_sameBut (conv : Conversation) : (load db conv).SameButToken (load db' conv) := by
  have hagent : (conv.assignedAgentId.bind db'.users.find?).map
        (fun u => u.toUser.withoutToken) =
      (conv.assignedAgentId.bind db.users.find?).map fun u => u.toUser.withoutToken := by
    cases conv.assignedAgentId with
    | none => rfl
    | some a => exact h.find?_map (fun _ => rfl) a
  simp only [LoadedConversation.SameButToken, LoadedConversation.withoutToken, load,
    Option.map_map, Function.comp_def, hagent, h.messages]

theorem findOne_sameBut (id : Uuid) :
    Replies LoadedConversation.SameButToken (findOne db id user) (findOne db' id user) := by
  unfold findOne
  rw [selectConversation_sameBut h]
  cases selectConversation db id user with
  | none => exact .error _
  | some conv =>
    simp only
    split
    · exact .error _
    · exact .ok (load_sameBut h conv)

theorem findAll_sameBut (order : OrderBy (OrderBy.desc Conversation.createdAt))
    (dto : ListConversationsDto) : findAll order db' dto user = findAll order db dto user := by
  have hlisted : listed db' = listed db := by
    funext c
    cases ha : c.assignedAgentId with
    | none => simp only [listed, ha, Option.bind_none]
    | some a =>
      simp only [listed, ha, Option.bind_some]
      congr 1 <;> exact h.find?_map (fun _ => rfl) a
  simp only [findAll, h.conversations, hlisted]

theorem createConversation_alike (dto : CreateConversationDto) (id : Uuid) (now : Time) :
    Alike Eq (createConversation db dto user id now) (createConversation db' dto user id now) := by
  unfold createConversation create
  cases user.tenantId with
  | none => exact ⟨.error _, h⟩
  | some tenantId =>
    rcases rel_cases (h.insertConversation (created dto tenantId id now).stored) with
      ⟨hins, hins'⟩ | ⟨after, after', hins, hins', hafter⟩
    · simp only [hins, hins']
      exact ⟨.error _, h⟩
    · simp only [hins, hins']
      exact ⟨.ok rfl, hafter⟩

theorem claimLocked_alike (conv : Conversation) (now : Time) :
    Replies (fun reply reply' => reply'.1 = reply.1 ∧ reply.2.SameButCredentials reply'.2)
      (claimLocked db conv user now) (claimLocked db' conv user now) := by
  unfold claimLocked
  split
  · exact .error _
  · split
    · exact .error _
    · split
      · exact .ok ⟨rfl, h⟩
      · rcases rel_cases (h.updateConversation conv.id
            (fun row => written true (assigned conv user now) conv row now) fun _ => ⟨rfl, rfl⟩) with
          ⟨hupdate, hupdate'⟩ | ⟨after, after', hupdate, hupdate', hafter⟩
        · simp only [update, hupdate, hupdate']
          exact .error _
        · simp only [update, hupdate, hupdate']
          exact .ok ⟨rfl, hafter⟩

theorem claimConversation_alike (id : Uuid) (now : Time) :
    Alike Eq (claimConversation db id user now) (claimConversation db' id user now) := by
  unfold claimConversation
  rw [selectConversation_sameBut h]
  cases mayClaim user with
  | error e => exact ⟨.error e, h⟩
  | ok _ =>
    cases selectConversation db id user with
    | none => exact ⟨.error _, h⟩
    | some conv =>
      rcases (claimLocked_alike h user conv now).cases with
        ⟨e, hclaim, hclaim'⟩ | ⟨reply, reply', hclaim, hclaim', hreply, hafter⟩
      · simp only [hclaim, hclaim']
        exact ⟨.error e, h⟩
      · simp only [hclaim, hclaim']
        exact ⟨.ok hreply.symm, hafter⟩

theorem finish_alike {loaded loaded' : LoadedConversation} (hloaded : loaded.SameButToken loaded')
    (dto : ResolveConversationDto) (moments : Moments) :
    Alike (fun reply reply' => reply.1.SameButToken reply'.1 ∧ reply'.2 = reply.2)
      (finish db loaded user dto moments) (finish db' loaded' user dto moments) := by
  unfold finish
  rw [hloaded.conv]
  cases resolutionNote dto with
  | none => exact ⟨.ok ⟨hloaded, rfl⟩, h⟩
  | some note =>
    rcases rel_cases (h.insertMessage
        (noteMessage loaded.conv note moments.messageId moments.notedAt)) with
      ⟨hins, hins'⟩ | ⟨after, after', hins, hins', hafter⟩
    · simp only [hins, hins']
      exact ⟨.error _, h⟩
    · simp only [hins, hins']
      exact ⟨.ok ⟨hloaded, rfl⟩, hafter⟩

theorem resolveConversation_alike (id : Uuid) (dto : ResolveConversationDto) (moments : Moments) :
    Alike (fun reply reply' => reply.1.SameButToken reply'.1 ∧ reply'.2 = reply.2)
      (resolveConversation db id user dto moments) (resolveConversation db' id user dto moments) := by
  unfold resolveConversation
  rcases (findOne_sameBut h user id).cases with
    ⟨e, hload, hload'⟩ | ⟨loaded, loaded', hload, hload', hloaded⟩
  · simp only [hload, hload']
    exact ⟨.error e, h⟩
  · simp only [hload, hload', hloaded.conv]
    cases mayResolve loaded.conv user with
    | error e => exact ⟨.error e, h⟩
    | ok _ =>
      have hentity := hloaded.resolved moments.resolvedAt
      simp only [update, hentity.columns]
      rcases rel_cases (h.updateConversation loaded.conv.id (fun row =>
            written true (columns (resolved loaded moments.resolvedAt)) loaded.conv row moments.savedAt)
          fun _ => ⟨rfl, rfl⟩) with
        ⟨hupdate, hupdate'⟩ | ⟨after, after', hupdate, hupdate', hafter⟩
      · simp only [hupdate, hupdate']
        exact ⟨.error _, h⟩
      · have hstamped : ∀ entity, stamped after' entity = stamped after entity := by
          intro entity
          rw [stamped, stamped, hafter.conversations]
        simp only [hupdate, hupdate', hstamped]
        exact finish_alike hafter user (hentity.stamped after) dto moments

omit h

theorem load_assignedAgent {conv : Conversation} {u : User} :
    (load db conv).assignedAgent = some u ↔
      ∃ row, conv.assignedAgentId = some row.id ∧ db.users.find? row.id = some row ∧
        row.toUser = u := by
  simp only [load, Option.map_eq_some_iff, Option.bind_eq_some_iff]
  constructor
  · rintro ⟨row, ⟨a, ha, hrow⟩, hu⟩
    have hid : row.key = a := Table.key_of_find? hrow
    subst hid
    exact ⟨row, ha, hrow, hu⟩
  · rintro ⟨row, ha, hrow, hu⟩
    exact ⟨row, ⟨row.id, ha, hrow⟩, hu⟩

def AdmitsNote (db : Database) (dto : ResolveConversationDto) (moments : Moments) : Prop :=
  ∀ note, resolutionNote dto = some note →
    Database.text ("Resolution note: " ++ note) = true ∧ db.messages.find? moments.messageId = none

theorem finish_ok_iff {loaded : LoadedConversation} {dto : ResolveConversationDto}
    {moments : Moments} {reply : LoadedConversation × ResolutionJob}
    (hconv : (db.conversations.find? loaded.conv.id).isSome) :
    (finish db loaded user dto moments).1 = .ok reply ↔
      AdmitsNote db dto moments ∧ (loaded, resolutionJob loaded.conv user dto) = reply := by
  unfold finish
  cases hnote : resolutionNote dto with
  | none => simp [AdmitsNote, hnote]
  | some note =>
    have hstores : (db.insertMessage
          (noteMessage loaded.conv note moments.messageId moments.notedAt)).isSome ↔
        AdmitsNote db dto moments := by
      rw [Database.insertMessage_isSome]
      simp [AdmitsNote, hnote, noteMessage, hconv]
    rw [← hstores]
    cases hins : db.insertMessage
        (noteMessage loaded.conv note moments.messageId moments.notedAt) with
    | none => simp [hins]
    | some after => simp [hins]

theorem resolveConversation_ok {id : Uuid} {dto : ResolveConversationDto} {moments : Moments}
    {reply : LoadedConversation × ResolutionJob}
    (h : (resolveConversation db id user dto moments).1 = .ok reply) :
    ∃ conv, selectConversation db id user = some conv ∧
      findOne db id user = .ok (load db conv) ∧ mayResolve conv user = .ok () := by
  unfold resolveConversation at h
  split at h
  · cases h
  · rename_i loaded hload
    obtain ⟨conv, hconv, rfl, -⟩ := findOne_ok hload
    split at h
    · cases h
    · exact ⟨conv, hconv, hload, ‹_›⟩

theorem resolveConversation_shows {id : Uuid} {dto : ResolveConversationDto} {moments : Moments}
    {conv : Conversation} (hconv : selectConversation db id user = some conv)
    (hload : findOne db id user = .ok (load db conv)) (hmay : mayResolve conv user = .ok ())
    {u : Option User} :
    (∃ reply, (resolveConversation db id user dto moments).1 = .ok reply ∧
        reply.1.assignedAgent = u) ↔
      AdmitsNote db dto moments ∧ (load db conv).assignedAgent = u := by
  obtain ⟨hfind, -⟩ := selectConversation_some hconv
  have hid : conv.id = id := Table.key_of_find? hfind
  subst hid
  let entity := resolved (load db conv) moments.resolvedAt
  have hagent : (columns entity).assignedAgentId = conv.assignedAgentId := by
    rw [columns_resolved, columns_load (Table.mem_of_find? hfind)]
  obtain ⟨after, hupdate⟩ := update_isSome true (columns entity) moments.savedAt hfind
    fun a ha => db.conversations_agent conv (Table.mem_of_find? hfind) a (hagent ▸ ha)
  have hstamped : (stamped after entity).conv.id = conv.id ∧
      (stamped after entity).assignedAgent = (load db conv).assignedAgent := by
    unfold stamped
    split <;> exact ⟨rfl, rfl⟩
  have hrow : (after.conversations.find? (stamped after entity).conv.id).isSome := by
    rw [hstamped.1, find?_update_self hupdate, hfind]
    rfl
  have hadmits : AdmitsNote after dto moments ↔ AdmitsNote db dto moments := by
    rw [AdmitsNote, AdmitsNote, messages_update hupdate]
  have hreply : (resolveConversation db conv.id user dto moments).1 =
      (finish after (stamped after entity) user dto moments).1 := by
    have hloaded : (load db conv).conv = conv := rfl
    simp only [entity] at hupdate
    simp only [resolveConversation, hload, hloaded, hmay, hupdate, entity]
  simp only [hreply, finish_ok_iff user hrow, hadmits]
  constructor
  · rintro ⟨reply, ⟨hnote, rfl⟩, hu⟩
    exact ⟨hnote, hstamped.2.symm.trans hu⟩
  · rintro ⟨hnote, hu⟩
    exact ⟨_, ⟨hnote, rfl⟩, hstamped.2.trans hu⟩

end Conversations

end SupportApi
