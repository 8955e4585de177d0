import SupportApi.Conversations.Resolves

namespace SupportApi.Conversations

open Lib

variable {s t : State}

def Action.resolver : Action → Option Pid
  | .resolve p _ _ _ => some p
  | .resolveCheck p _ => some p
  | .resolveReread p => some p
  | .resolveWrite p _ _ => some p
  | .resolveNote p _ _ => some p
  | .resolveEnqueue p => some p
  | .fail p => some p
  | _ => none

/-- An effect that comes after the save fails. -/
def FailsAfterSave (s : State) (a : Action) : Prop :=
  ∃ p id user dto entity,
    (s.procs p = .resolve id user dto (.saved entity) ∧
      (a = .fail p ∨ ∃ messageId now note, a = .resolveNote p messageId now ∧
        resolutionNote dto = some note ∧
        s.db.insertMessage (noteMessage entity.conv note messageId now) = none)) ∨
    (s.procs p = .resolve id user dto (.noted entity) ∧ a = .fail p)

/-- The row of `id`, the messages and the queue are the same. -/
def Untraced (id : Uuid) (s t : State) : Prop :=
  t.db.conversations.find? id = s.db.conversations.find? id ∧ t.db.messages = s.db.messages ∧
    t.queue = s.queue

def attempt (db : Database) (id : Uuid) (user : User) : Except Exception Unit :=
  match findOne db id user with
  | .error e => .error e
  | .ok conv => mayResolve conv.conv user

def Spent (id : Uuid) (user : User) (s t : State) : Prop :=
  attempt s.db id user = .ok () ∧
    attempt t.db id user = .error (.badRequest "Conversation is already resolved") ∧
    t.db.conversations.find? id ≠ s.db.conversations.find? id

inductive BeforeSave (id : Uuid) (user : User) (dto : ResolveConversationDto) (s : State) :
    Process → Prop
  | loaded {entity} : findOne s.db id user = .ok entity →
      BeforeSave id user dto s (.resolve id user dto (.loaded entity))
  | saving {entity now} : findOne s.db id user = .ok entity →
      mayResolve entity.conv user = .ok () →
      BeforeSave id user dto s (.resolve id user dto (.saving (resolved entity now)))
  | writing {entity now reread related} : findOne s.db id user = .ok entity →
      mayResolve entity.conv user = .ok () → s.db.conversations.find? id = some reread →
      BeforeSave id user dto s (.resolve id user dto (.writing (resolved entity now) reread related))

theorem run_of_returned {p : Pid} {as : List Action} (hown : ∀ a ∈ as, a.resolver = some p)
    (hp : (s.procs p).returned = true) (hrun : machine.run s as = some t) : as = [] := by
  cases as with
  | nil => rfl
  | cons a as =>
    obtain ⟨u, hu, -⟩ := Machine.run_cons_some.mp hrun
    have hmine := hown a List.mem_cons_self
    cases step_iff.mp hu <;> simp_all [Action.resolver, Process.returned]

theorem attempt_eq (db : Database) (id : Uuid) (user : User) :
    attempt db id user =
      match selectConversation db id user with
      | none => .error (.notFound "Conversation not found")
      | some conv =>
        if user.role = .agent ∧ conv.assignedAgentId.isSome ∧ conv.assignedAgentId ≠ some user.id then
          .error (.forbidden "Not authorized to view this conversation")
        else mayResolve conv user := by
  unfold attempt findOne
  cases selectConversation db id user with
  | none => rfl
  | some conv =>
    by_cases hagent : user.role = .agent ∧ conv.assignedAgentId.isSome ∧
        conv.assignedAgentId ≠ some user.id
    · simp only [if_pos hagent]
    · simp only [if_neg hagent, load]

theorem attempt_congr {db db' : Database} {id : Uuid} (user : User)
    (h : db'.conversations.find? id = db.conversations.find? id) :
    attempt db' id user = attempt db id user := by
  rw [attempt_eq, attempt_eq, selectConversation, selectConversation, h]

theorem attempt_of_findOne {db : Database} {id : Uuid} {user : User} {entity : LoadedConversation}
    (hload : findOne db id user = .ok entity) (hmay : mayResolve entity.conv user = .ok ()) :
    attempt db id user = .ok () := by
  rw [attempt, hload]
  exact hmay

theorem attempt_resolved {db db' : Database} {id : Uuid} {user : User} {conv conv' : Conversation}
    (hfind : db.conversations.find? id = some conv) (hattempt : attempt db id user = .ok ())
    (hfind' : db'.conversations.find? id = some conv') (htenant : conv'.tenantId = conv.tenantId)
    (hagent : conv'.assignedAgentId = conv.assignedAgentId) (hstatus : conv'.status = .resolved) :
    attempt db' id user = .error (.badRequest "Conversation is already resolved") := by
  rw [attempt_eq, selectConversation, hfind, Option.filter_some] at hattempt
  rw [attempt_eq, selectConversation, hfind', Option.filter_some, inTenant, htenant, ← inTenant]
  cases hin : inTenant user conv with
  | false => simp [hin] at hattempt
  | true =>
    simp only [hin, if_true] at hattempt ⊢
    rw [hagent]
    split at hattempt
    · cases hattempt
    · rw [if_neg ‹_›]
      simp [mayResolve, hstatus]

theorem spent_of_write {id : Uuid} {user : User} {entity : LoadedConversation}
    {reread : Conversation} {nulls : Bool} {now now' : Time} {u : State} {db : Database}
    (hu : u.db = s.db)
    (hload : findOne s.db id user = .ok entity) (hmay : mayResolve entity.conv user = .ok ())
    (hfind : s.db.conversations.find? id = some reread)
    (hupdate : update nulls u.db (columns (resolved entity now)) reread now' = some db)
    (ht : t.db.conversations.find? id = db.conversations.find? id) : Spent id user s t := by
  obtain ⟨conv, hconv, rfl, -⟩ := findOne_ok hload
  have hselect := (selectConversation_some hconv).1
  cases hfind.symm.trans hselect
  have hattempt := attempt_of_findOne hload hmay
  have hkey := Table.key_of_find? hfind
  have hfind' := find?_update_self hupdate
  rw [hkey, hu, hfind, ← ht, Option.map_some, columns_resolved,
    columns_load (Table.mem_of_find? hfind)] at hfind'
  refine ⟨hattempt, ?_, ?_⟩
  · apply attempt_resolved hfind hattempt hfind' rfl
    · simp [written]
    · simp [written]
  · intro heq
    rw [hfind', hfind] at heq
    have hstatus := congrArg Conversation.status (Option.some.inj heq)
    simp only [written, merge_row] at hstatus
    exact (mayResolve_ok hmay).1 hstatus.symm

theorem step_saved {p : Pid} {id : Uuid} {user : User} {dto : ResolveConversationDto}
    {entity : LoadedConversation} {a : Action}
    (hp : s.procs p = .resolve id user dto (.saved entity)) (hmine : a.resolver = some p)
    (hs : Step s a t) :
    t.db.conversations = s.db.conversations ∧ t.queue = s.queue ∧
      (t.procs p = .resolve id user dto (.noted entity) ∨
        t.procs p = .resolve id user dto (.returned (.error .queryFailed)) ∧ FailsAfterSave s a) := by
  cases hs with
  | noNote hp' =>
    cases hmine
    cases hp.symm.trans hp'
    exact ⟨rfl, rfl, Or.inl (Function.update_self ..)⟩
  | @noteRefused _ messageId now _ _ _ _ note hp' hnote hins =>
    cases hmine
    cases hp.symm.trans hp'
    exact ⟨rfl, rfl, Or.inr ⟨Function.update_self .., p, id, user, dto, entity,
      Or.inl ⟨hp, Or.inr ⟨messageId, now, note, rfl, hnote, hins⟩⟩⟩⟩
  | notes hp' _ hins =>
    cases hmine
    cases hp.symm.trans hp'
    exact ⟨(Database.insertMessage_some hins).2.2.2, rfl, Or.inl (Function.update_self ..)⟩
  | noteFails hp' =>
    cases hmine
    cases hp.symm.trans hp'
    exact ⟨rfl, rfl, Or.inr ⟨Function.update_self .., p, id, user, dto, entity,
      Or.inl ⟨hp, Or.inl rfl⟩⟩⟩
  | _ => simp_all [Action.resolver]

theorem step_noted {p : Pid} {id : Uuid} {user : User} {dto : ResolveConversationDto}
    {entity : LoadedConversation} {a : Action}
    (hp : s.procs p = .resolve id user dto (.noted entity)) (hmine : a.resolver = some p)
    (hs : Step s a t) :
    t.db.conversations = s.db.conversations ∧
      (t.procs p = .resolve id user dto (.returned (.ok entity)) ∧
          t.queue = s.queue ++ [resolutionJob entity.conv user dto] ∨
        t.procs p = .resolve id user dto (.returned (.error .queryFailed)) ∧ FailsAfterSave s a) := by
  cases hs with
  | enqueues hp' =>
    cases hmine
    cases hp.symm.trans hp'
    exact ⟨rfl, Or.inl ⟨Function.update_self .., rfl⟩⟩
  | enqueueFails hp' =>
    cases hmine
    cases hp.symm.trans hp'
    exact ⟨rfl, Or.inr ⟨Function.update_self .., p, id, user, dto, entity, Or.inr ⟨hp, rfl⟩⟩⟩
  | _ => simp_all [Action.resolver]

theorem failsAfterSave_of_saved {p : Pid} {id : Uuid} {user : User} {dto : ResolveConversationDto}
    {entity : LoadedConversation} {as : List Action} {e : Exception}
    (hp : s.procs p = .resolve id user dto (.saved entity) ∨
      s.procs p = .resolve id user dto (.noted entity))
    (hown : ∀ a ∈ as, a.resolver = some p) (hrun : machine.run s as = some t)
    (herr : t.procs p = .resolve id user dto (.returned (.error e))) :
    ¬machine.Along (fun s a => ¬FailsAfterSave s a) s as ∧
      t.db.conversations = s.db.conversations := by
  induction as generalizing s with
  | nil =>
    cases hrun
    rcases hp with hp | hp <;> cases hp.symm.trans herr
  | cons a as ih =>
    obtain ⟨u, hu, ht⟩ := Machine.run_cons_some.mp hrun
    have hmine := hown a List.mem_cons_self
    have hown' : ∀ a ∈ as, a.resolver = some p := fun a ha => hown a (List.mem_cons_of_mem _ ha)
    have hstop : (u.procs p).returned = true → t = u := by
      intro hreturned
      obtain rfl := run_of_returned hown' hreturned ht
      cases ht
      rfl
    rcases hp with hp | hp
    · obtain ⟨hconvs, -, hnoted | ⟨hfailed, hfails⟩⟩ := step_saved hp hmine (step_iff.mp hu)
      · obtain ⟨halong, hconvs'⟩ := ih (Or.inr hnoted) hown' ht
        exact ⟨fun h => halong (h.2 u hu), hconvs'.trans hconvs⟩
      · obtain rfl := hstop (by rw [hfailed]; rfl)
        exact ⟨fun h => h.1 hfails, hconvs⟩
    · obtain ⟨hconvs, ⟨hdone, -⟩ | ⟨hfailed, hfails⟩⟩ := step_noted hp hmine (step_iff.mp hu)
      · obtain rfl := hstop (by rw [hdone]; rfl)
        cases hdone.symm.trans herr
      · obtain rfl := hstop (by rw [hfailed]; rfl)
        exact ⟨fun h => h.1 hfails, hconvs⟩

theorem not_failsAfterSave {p : Pid} {id : Uuid} {user : User} {dto : ResolveConversationDto}
    {a : Action} {u : State} (hp : BeforeSave id user dto s (u.procs p))
    (hmine : a.resolver = some p) : ¬FailsAfterSave u a := by
  rintro ⟨q, id', user', dto', entity, ⟨hq, rfl | ⟨messageId, now, note, rfl, -⟩⟩ | ⟨hq, rfl⟩⟩ <;>
  · cases hmine
    rw [hq] at hp
    cases hp

theorem step_beforeSave {p : Pid} {id : Uuid} {user : User} {dto : ResolveConversationDto}
    {a : Action} {u : State} (hdb : u.db = s.db) (hqueue : u.queue = s.queue)
    (hp : BeforeSave id user dto s (u.procs p)) (hmine : a.resolver = some p) (hs : Step u a t) :
    (t.db = s.db ∧ t.queue = s.queue ∧
        (BeforeSave id user dto s (t.procs p) ∨ (t.procs p).returned = true)) ∨
      ∃ entity, t.procs p = .resolve id user dto (.saved entity) ∧ Spent id user s t := by
  have hreturned : ∀ {reply : Except Exception LoadedConversation},
      ((u.set p (.resolve id user dto (.returned reply))).procs p).returned = true := by
    intro reply
    rw [State.set_procs, Function.update_self]
    rfl
  generalize hproc : u.procs p = proc at hp
  cases hp with
  | loaded hload =>
    cases hs with
    | checkRefuses hp' =>
      cases hmine
      cases hproc.symm.trans hp'
      exact Or.inl ⟨hdb, hqueue, Or.inr hreturned⟩
    | checks hp' hmay =>
      cases hmine
      cases hproc.symm.trans hp'
      refine Or.inl ⟨hdb, hqueue, Or.inl ?_⟩
      rw [State.set_procs, Function.update_self]
      exact .saving hload hmay
    | _ => simp_all [Action.resolver]
  | saving hload hmay =>
    cases hs with
    | rereads hp' hfind =>
      cases hmine
      cases hproc.symm.trans hp'
      refine Or.inl ⟨hdb, hqueue, Or.inl ?_⟩
      rw [State.set_procs, Function.update_self]
      exact .writing hload hmay (hdb ▸ hfind)
    | saveFails hp' =>
      cases hmine
      cases hproc.symm.trans hp'
      exact Or.inl ⟨hdb, hqueue, Or.inr hreturned⟩
    | _ => simp_all [Action.resolver]
  | writing hload hmay hfind =>
    cases hs with
    | writeRefused hp' =>
      cases hmine
      cases hproc.symm.trans hp'
      exact Or.inl ⟨hdb, hqueue, Or.inr hreturned⟩
    | writes hp' _ hsave =>
      cases hmine
      cases hproc.symm.trans hp'
      right
      exact ⟨_, Function.update_self .., spent_of_write hdb hload hmay hfind (save_some hsave).2 rfl⟩
    | writeFails hp' =>
      cases hmine
      cases hproc.symm.trans hp'
      exact Or.inl ⟨hdb, hqueue, Or.inr hreturned⟩
    | _ => simp_all [Action.resolver]

theorem Spent.congr {id : Uuid} {user : User} {u : State} (h : Spent id user s u)
    (hrow : t.db.conversations = u.db.conversations) : Spent id user s t := by
  obtain ⟨hattempt, hrefused, hne⟩ := h
  refine ⟨hattempt, ?_, ?_⟩
  · exact (attempt_congr user (by rw [hrow])).trans hrefused
  · rw [hrow]
    exact hne

/-- A resolve that ends in an error before it has saved leaves no trace; one that
ends in an error after that has used the conversation up. -/
theorem run_beforeSave {p : Pid} {id : Uuid} {user : User} {dto : ResolveConversationDto}
    {as : List Action} {u : State} {e : Exception} (hdb : u.db = s.db) (hqueue : u.queue = s.queue)
    (hp : BeforeSave id user dto s (u.procs p)) (hown : ∀ a ∈ as, a.resolver = some p)
    (hrun : machine.run u as = some t)
    (herr : t.procs p = .resolve id user dto (.returned (.error e))) :
    (machine.Along (fun s a => ¬FailsAfterSave s a) u as ∧ t.db = s.db ∧ t.queue = s.queue) ∨
      (¬machine.Along (fun s a => ¬FailsAfterSave s a) u as ∧ Spent id user s t) := by
  induction as generalizing u with
  | nil =>
    cases hrun
    rw [herr] at hp
    cases hp
  | cons a as ih =>
    obtain ⟨v, hv, ht⟩ := Machine.run_cons_some.mp hrun
    have hmine := hown a List.mem_cons_self
    have hown' : ∀ a ∈ as, a.resolver = some p := fun a ha => hown a (List.mem_cons_of_mem _ ha)
    have hfails := not_failsAfterSave hp hmine
    rw [Machine.along_cons hv]
    rcases step_beforeSave hdb hqueue hp hmine (step_iff.mp hv) with
      ⟨hdb', hqueue', hbefore | hreturned⟩ | ⟨entity, hsaved, hspent⟩
    · rcases ih hdb' hqueue' hbefore hown' ht with ⟨halong, hsame⟩ | ⟨halong, hspent⟩
      · exact Or.inl ⟨⟨hfails, halong⟩, hsame⟩
      · exact Or.inr ⟨fun h => halong h.2, hspent⟩
    · obtain rfl := run_of_returned hown' hreturned ht
      cases ht
      exact Or.inl ⟨⟨hfails, trivial⟩, hdb', hqueue'⟩
    · obtain ⟨halong, hconvs⟩ := failsAfterSave_of_saved (Or.inl hsaved) hown' ht herr
      exact Or.inr ⟨fun h => halong h.2, hspent.congr hconvs⟩

theorem untraced_iff {p : Pid} {id : Uuid} {user : User} {dto : ResolveConversationDto}
    {as : List Action} {e : Exception} (hown : ∀ a ∈ as, a.resolver = some p)
    (hrun : machine.run s (.resolve p id user dto :: as) = some t)
    (herr : t.procs p = .resolve id user dto (.returned (.error e))) :
    (Untraced id s t ↔
        machine.Along (fun s a => ¬FailsAfterSave s a) s (.resolve p id user dto :: as)) ∧
      (attempt t.db id user = attempt s.db id user ↔
        machine.Along (fun s a => ¬FailsAfterSave s a) s (.resolve p id user dto :: as)) := by
  obtain ⟨u, hu, ht⟩ := Machine.run_cons_some.mp hrun
  have hfails : ¬FailsAfterSave s (.resolve p id user dto) := by
    rintro ⟨q, id', user', dto', entity, ⟨-, ha | ⟨messageId, now, note, ha, -⟩⟩ | ⟨-, ha⟩⟩ <;>
      cases ha
  have hcases : (machine.Along (fun s a => ¬FailsAfterSave s a) u as ∧
      t.db = s.db ∧ t.queue = s.queue) ∨
      (¬machine.Along (fun s a => ¬FailsAfterSave s a) u as ∧ Spent id user s t) := by
    cases step_iff.mp hu with
    | @resolveMisses _ _ _ _ e' =>
      have hreturned : ((s.set p (.resolve id user dto (.returned (.error e')))).procs p).returned =
          true := by
        rw [State.set_procs, Function.update_self]
        rfl
      obtain rfl := run_of_returned hown hreturned ht
      cases ht
      exact Or.inl ⟨trivial, rfl, rfl⟩
    | loads _ hload =>
      apply run_beforeSave _ _ _ hown ht herr
      · rfl
      · rfl
      · rw [State.set_procs, Function.update_self]
        exact .loaded hload
  rw [Machine.along_cons hu]
  rcases hcases with ⟨halong, hdb, hqueue⟩ | ⟨halong, hattempt, hrefused, hne⟩
  · constructor
    · simp [Untraced, hdb, hqueue, hfails, halong]
    · simp [hdb, hfails, halong]
  · constructor
    · exact iff_of_false (fun h => hne h.1) fun h => halong h.2
    · rw [hattempt, hrefused]
      exact iff_of_false (fun h => by cases h) fun h => halong h.2

def Quiescent (s : State) : Prop :=
  ∀ p, s.procs p = .idle ∨ (s.procs p).returned = true

/-- Conversation `c` was resolved from the beginning, or its job is in the queue
or still to be added. -/
def Accounted (c : Uuid) (first : Prop) (s : State) : Prop :=
  Resolved c s → first ∨ 0 < jobsOf c s.queue ∨ ∃ p, 0 < jobsDue c (s.procs p)

theorem jobsDue_of_returned (c : Uuid) {proc : Process} (h : proc.returned = true) :
    jobsDue c proc = 0 := by
  unfold Process.returned at h
  split at h
  · rfl
  · rfl
  · cases h

theorem Accounted.set {c : Uuid} {first : Prop} (h : Accounted c first s) {p : Pid}
    {proc : Process} (hrow : Resolved c t → Resolved c s)
    (hqueue : jobsOf c s.queue ≤ jobsOf c t.queue)
    (hprocs : t.procs = Function.update s.procs p proc)
    (hdue : jobsDue c (s.procs p) ≤ jobsDue c proc) : Accounted c first t := by
  intro hresolved
  rw [hprocs]
  rcases h (hrow hresolved) with hfirst | hjobs | ⟨q, hq⟩
  · exact Or.inl hfirst
  · exact Or.inr (Or.inl (lt_of_lt_of_le hjobs hqueue))
  · refine Or.inr (Or.inr ⟨q, ?_⟩)
    by_cases hqp : q = p
    · subst hqp
      rw [Function.update_self]
      exact lt_of_lt_of_le hq hdue
    · rw [Function.update_of_ne hqp]
      exact hq

theorem Accounted.enqueues {c id : Uuid} {first : Prop} (h : Accounted c first s) {p : Pid}
    {user : User} {dto : ResolveConversationDto} {entity : LoadedConversation}
    (hkeyed : Keyed (s.procs p)) (hp : s.procs p = .resolve id user dto (.noted entity)) :
    Accounted c first ((s.set p (.resolve id user dto (.returned (.ok entity)))).enqueue
      (resolutionJob entity.conv user dto)) := by
  rw [hp] at hkeyed
  by_cases hid : id = c
  · intro _
    right
    left
    have hjob : (resolutionJob entity.conv user dto).conversationId = c := hkeyed.trans hid
    simp [jobsOf, hjob]
  · apply h.set (p := p) _ _ rfl
    · rw [hp, jobsDue, if_neg hid]
      exact Nat.zero_le _
    · exact fun hresolved => hresolved
    · simp [jobsOf]

theorem Accounted.writes {c id : Uuid} {b : Option Uuid × Option Time} {w : Option (Uuid × Time)}
    {first : Prop} (hcoherent : Coherent c b w s) (h : Accounted c first s) {p : Pid} {user : User}
    {dto : ResolveConversationDto} {entity : LoadedConversation} {reread : Conversation}
    {related : List Uuid} {nulls : Bool} {now : Time} {db : Database}
    (hp : s.procs p = .resolve id user dto (.writing entity reread related))
    (hsave : save nulls s.db entity reread related now = some db) :
    Accounted c first ((s.set p (.resolve id user dto (.saved (stamped db entity)))).store db) := by
  by_cases hid : id = c
  · intro _
    refine Or.inr (Or.inr ⟨p, ?_⟩)
    rw [State.store_procs, State.set_procs, Function.update_self, jobsDue, if_pos hid]
    exact Nat.one_pos
  · have hrow := hcoherent.find?_writes hp hsave
    simp only [if_neg hid, Option.map_id_fun', id_eq] at hrow
    refine h.set (p := p) ?_ (le_of_eq rfl) rfl ?_
    · rw [Resolved, State.store_db, hrow]
      exact fun hresolved => hresolved
    · rw [hp]
      exact Nat.zero_le _

theorem Accounted.step {c : Uuid} {b : Option Uuid × Option Time} {w : Option (Uuid × Time)}
    {first : Prop} {a : Action} (hcoherent : Coherent c b w s) (hkeyed : ∀ p, Keyed (s.procs p))
    (h : Accounted c first s) (hs : Step s a t) (hfails : ¬FailsAfterSave s a) :
    Accounted c first t := by
  obtain ⟨w', -, hrow⟩ := hcoherent.step hs
  have hresolved : (∀ p now nulls, a ≠ .resolveWrite p now nulls) → Resolved c t → Resolved c s :=
    fun ha => (hrow.resolved_iff ha).mp
  cases hs with
  | create => exact fun ht => h (hresolved (by simp) ht)
  | writes hp _ hsave => exact h.writes hcoherent hp hsave
  | writeRefused hp => exact h.set id (le_refl _) rfl (by simp [hp, jobsDue])
  | noNote hp => exact h.set id (le_refl _) rfl (by simp [hp, jobsDue])
  | notes hp => exact h.set (hresolved (by simp)) (le_refl _) rfl (by simp [hp, jobsDue])
  | enqueues hp => exact h.enqueues (hkeyed _) hp
  | noteRefused hp hnote hins =>
    exact absurd ⟨_, _, _, _, _, Or.inl ⟨hp, Or.inr ⟨_, _, _, rfl, hnote, hins⟩⟩⟩ hfails
  | noteFails hp => exact absurd ⟨_, _, _, _, _, Or.inl ⟨hp, Or.inl rfl⟩⟩ hfails
  | enqueueFails hp => exact absurd ⟨_, _, _, _, _, Or.inr ⟨hp, rfl⟩⟩ hfails
  | _ => exact h.set (hresolved (by simp)) (le_refl _) rfl (by simp [jobsDue, *])

theorem job_of_resolved {db : Database} {queue : List ResolutionJob} {as : List Action} {c : Uuid}
    (hrun : machine.run (State.initial db queue) as = some t)
    (hfails : machine.Along (fun s a => ¬FailsAfterSave s a) (State.initial db queue) as)
    (hquiescent : Quiescent t) (hbefore : ¬Resolved c (State.initial db queue))
    (hafter : Resolved c t) : ∃ job ∈ t.queue, job.conversationId = c := by
  obtain ⟨b, hstart⟩ := Coherent.start db queue c
  have hinvariant : machine.PreservesAlong (fun s a => ¬FailsAfterSave s a) fun s =>
      (∃ w, Coherent c b w s) ∧ (∀ p, Keyed (s.procs p)) ∧ Accounted c False s := by
    rintro s a t ⟨⟨w, hcoherent⟩, hkeyed, haccounted⟩ hfails hs
    obtain ⟨w', hcoherent', -⟩ := hcoherent.step (step_iff.mp hs)
    exact ⟨⟨w', hcoherent'⟩, (step_iff.mp hs).keyed hkeyed,
      haccounted.step hcoherent hkeyed (step_iff.mp hs) hfails⟩
  obtain ⟨-, -, haccounted⟩ := Machine.run_preserves_along hinvariant
    ⟨⟨none, hstart⟩, fun _ => trivial, fun hresolved => absurd hresolved hbefore⟩ hfails hrun
  rcases haccounted hafter with hfirst | hjobs | ⟨p, hdue⟩
  · cases hfirst
  · simpa [jobsOf, List.countP_pos_iff] using hjobs
  · exfalso
    rcases hquiescent p with hp | hp
    · rw [hp] at hdue
      cases hdue
    · rw [jobsDue_of_returned c hp] at hdue
      cases hdue

/-- A resolve is all or nothing exactly when nothing fails after its save, and
where nothing does every conversation that comes to be resolved gets its job. -/
theorem resolve_all_or_nothing {p : Pid} {id : Uuid} {user : User} {dto : ResolveConversationDto}
    {as : List Action} {e : Exception} (hown : ∀ a ∈ as, a.resolver = some p)
    (hrun : machine.run s (.resolve p id user dto :: as) = some t)
    (herr : t.procs p = .resolve id user dto (.returned (.error e))) :
    (Untraced id s t ↔
        machine.Along (fun s a => ¬FailsAfterSave s a) s (.resolve p id user dto :: as)) ∧
      (attempt t.db id user = attempt s.db id user ↔
        machine.Along (fun s a => ¬FailsAfterSave s a) s (.resolve p id user dto :: as)) ∧
      ∀ (db : Database) (queue : List ResolutionJob) (bs : List Action) (u : State) (c : Uuid),
        machine.run (State.initial db queue) bs = some u →
        machine.Along (fun s a => ¬FailsAfterSave s a) (State.initial db queue) bs →
        Quiescent u → ¬Resolved c (State.initial db queue) → Resolved c u →
        ∃ job ∈ u.queue, job.conversationId = c := by
  obtain ⟨huntraced, hattempt⟩ := untraced_iff hown hrun herr
  refine ⟨huntraced, hattempt, ?_⟩
  intro db queue bs u c hrun' hfails hquiescent hbefore hafter
  exact job_of_resolved hrun' hfails hquiescent hbefore hafter

def Sample.failing : List Action :=
  [.resolveCheck 0 6, .resolveReread 0, .resolveWrite 0 7 true, .resolveNote 0 ⟨5⟩ 8, .fail 0]

theorem resolve_leaves_traces : ¬∀ (s t : State) (p : Pid) (id : Uuid) (user : User)
    (dto : ResolveConversationDto) (as : List Action) (e : Exception),
    (∀ a ∈ as, a.resolver = some p) → machine.run s (.resolve p id user dto :: as) = some t →
    t.procs p = .resolve id user dto (.returned (.error e)) → Untraced id s t := by
  intro h
  have huntraced := h (State.initial Sample.database []) _ 0 Sample.conversation
    Sample.admin.toUser ⟨none⟩ Sample.failing .queryFailed (by decide) rfl rfl
  cases huntraced.1

theorem resolve_all_or_nothing_early : ∃ t,
    machine.run (State.initial Sample.database [])
      (.resolve 0 Sample.conversation Sample.admin.toUser ⟨none⟩ :: [.resolveCheck 0 6, .fail 0]) =
      some t ∧
    Untraced Sample.conversation (State.initial Sample.database []) t := by
  refine ⟨_, rfl, (@resolve_all_or_nothing (State.initial Sample.database []) _ 0
    Sample.conversation Sample.admin.toUser ⟨none⟩ [.resolveCheck 0 6, .fail 0] .queryFailed
    (by decide) rfl rfl).1.mpr ?_⟩
  rw [Machine.along_cons rfl, Machine.along_cons rfl, Machine.along_cons rfl]
  refine ⟨?_, ?_, ?_, trivial⟩ <;>
    rintro ⟨q, id, user, dto, entity, ⟨hq, ha | ⟨messageId, now, note, ha, -⟩⟩ | ⟨hq, ha⟩⟩ <;>
    cases ha <;> cases hq

end SupportApi.Conversations
