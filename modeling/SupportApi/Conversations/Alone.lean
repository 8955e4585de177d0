import SupportApi.Conversations.Staff

namespace SupportApi.Conversations

open Lib

def createConversation (db : Database) (dto : CreateConversationDto) (user : User) (id : Uuid)
    (now : Time) : Except Exception Conversation × Database :=
  match create db dto user id now with
  | .error e => (.error e, db)
  | .ok (conv, db') => (.ok conv, db')

def claimConversation (db : Database) (id : Uuid) (user : User) (now : Time) :
    Except Exception Conversation × Database :=
  match mayClaim user with
  | .error e => (.error e, db)
  | .ok () =>
    match selectConversation db id user with
    | none => (.error (.notFound "Conversation not found"), db)
    | some conv =>
      match claimLocked db conv user now with
      | .error e => (.error e, db)
      | .ok (reply, db') => (.ok reply, db')

/-- The clock at the await that needs it, and the id of the note. -/
structure Moments where
  resolvedAt : Time
  savedAt : Time
  notedAt : Time
  messageId : Uuid

def finish (db : Database) (entity : LoadedConversation) (user : User) (dto : ResolveConversationDto)
    (moments : Moments) : Except Exception (LoadedConversation × ResolutionJob) × Database :=
  match resolutionNote dto with
  | none => (.ok (entity, resolutionJob entity.conv user dto), db)
  | some note =>
    match db.insertMessage (noteMessage entity.conv note moments.messageId moments.notedAt) with
    | none => (.error .queryFailed, db)
    | some db' => (.ok (entity, resolutionJob entity.conv user dto), db')

def resolveConversation (db : Database) (id : Uuid) (user : User) (dto : ResolveConversationDto)
    (moments : Moments) : Except Exception (LoadedConversation × ResolutionJob) × Database :=
  match findOne db id user with
  | .error e => (.error e, db)
  | .ok loaded =>
    match mayResolve loaded.conv user with
    | .error e => (.error e, db)
    | .ok () =>
      let entity := resolved loaded moments.resolvedAt
      -- `save` reads again the row and the messages that were loaded
      match update true db (columns entity) loaded.conv moments.savedAt with
      | none => (.error .queryFailed, db)
      | some db' => finish db' (stamped db' entity) user dto moments

/-- `p` ends with this reply, and no other request has moved. -/
structure Ends (s t : State) (p : Pid) (proc : Process) (db : Database) : Prop where
  proc : t.procs p = proc
  others : ∀ q, q ≠ p → t.procs q = s.procs q
  db : t.db = db

def Runs (user : User) (s t : State) : Prop :=
  ∃ as, machine.run s as = some t ∧ ∀ a ∈ as, a.user? = none ∨ a.user? = some user

theorem Runs.step {user : User} {s t u : State} {a : Action} (h : Step s a t)
    (ha : a.user? = none ∨ a.user? = some user) (hruns : Runs user t u) : Runs user s u := by
  obtain ⟨as, hrun, has⟩ := hruns
  refine ⟨a :: as, Machine.run_cons_some.mpr ⟨t, step_iff.mpr h, hrun⟩, ?_⟩
  exact List.forall_mem_cons.mpr ⟨ha, has⟩

def Finishes (s t : State) : Prop :=
  ∃ as, machine.run s as = some t ∧ ∀ a ∈ as, a.user? = none

theorem Finishes.refl (s : State) : Finishes s s :=
  ⟨[], Machine.run_nil s, List.forall_mem_nil _⟩

theorem Finishes.step {s t u : State} {a : Action} (h : Step s a t) (ha : a.user? = none)
    (hfinishes : Finishes t u) : Finishes s u := by
  obtain ⟨as, hrun, has⟩ := hfinishes
  refine ⟨a :: as, Machine.run_cons_some.mpr ⟨t, step_iff.mpr h, hrun⟩, ?_⟩
  exact List.forall_mem_cons.mpr ⟨ha, has⟩

theorem Finishes.runs {s t : State} (h : Finishes s t) (user : User) : Runs user s t := by
  obtain ⟨as, hrun, has⟩ := h
  exact ⟨as, hrun, fun a ha => .inl (has a ha)⟩

theorem Ends.of_run {s t u : State} {p : Pid} {proc : Process} {db : Database}
    (hothers : ∀ q, q ≠ p → t.procs q = s.procs q) (h : Ends t u p proc db) : Ends s u p proc db :=
  { h with others := fun q hq => (h.others q hq).trans (hothers q hq) }

theorem claimConversation_opens {s : State} {p : Pid} {id : Uuid} (user : User) (now : Time)
    (hidle : s.procs p = .idle) (hlock : s.lock id = none) :
    ∃ t u, Step s (.claim p id user) t ∧ Finishes t u ∧
      Ends s u p (.claim id user (.returned (claimConversation s.db id user now).1))
        (claimConversation s.db id user now).2 := by
  cases hmay : mayClaim user with
  | error e =>
    refine ⟨_, _, .claimRefused hidle hmay, .refl _, ?_⟩
    constructor <;> simp +contextual [claimConversation, hmay]
  | ok _ =>
    let waiting := s.set p (.claim id user .waiting)
    have hwaiting : waiting.procs p = .claim id user .waiting := by simp [waiting]
    refine ⟨waiting, ?_⟩
    cases hconv : selectConversation s.db id user with
    | none =>
      refine ⟨_, .claimWaits hidle hmay, .step (.lockMisses hwaiting hconv) rfl (.refl _), ?_⟩
      constructor <;> simp +contextual [claimConversation, hmay, hconv, waiting]
    | some conv =>
      let locked := (waiting.set p (.claim id user (.locked conv))).hold id p
      have hlocks : Step waiting (.claimLock p) locked := .locks hwaiting hconv hlock
      have hlocked : locked.procs p = .claim id user (.locked conv) := by simp [locked]
      cases hclaim : claimLocked s.db conv user now with
      | error e =>
        refine ⟨_, .claimWaits hidle hmay,
          .step hlocks rfl (.step (.rollsBack hlocked hclaim) rfl (.refl _)), ?_⟩
        constructor <;>
          simp +contextual [claimConversation, hmay, hconv, hclaim, locked, waiting]
      | ok reply =>
        refine ⟨_, .claimWaits hidle hmay,
          .step hlocks rfl (.step (.commits hlocked hclaim) rfl (.refl _)), ?_⟩
        constructor <;>
          simp +contextual [claimConversation, hmay, hconv, hclaim, locked, waiting]

theorem claimConversation_run {s : State} {p : Pid} {id : Uuid} (user : User) (now : Time)
    (hidle : s.procs p = .idle) (hlock : s.lock id = none) : ∃ t, Runs user s t ∧
      Ends s t p (.claim id user (.returned (claimConversation s.db id user now).1))
        (claimConversation s.db id user now).2 := by
  obtain ⟨t, u, hstep, hfinishes, hends⟩ := claimConversation_opens user now hidle hlock
  exact ⟨u, .step hstep (.inr rfl) (hfinishes.runs user), hends⟩

theorem finish_run {s : State} {p : Pid} {id : Uuid} {user : User} {dto : ResolveConversationDto}
    {entity : LoadedConversation} (moments : Moments)
    (hp : s.procs p = .resolve id user dto (.saved entity)) : ∃ t, Finishes s t ∧
      Ends s t p (.resolve id user dto
          (.returned ((finish s.db entity user dto moments).1.map Prod.fst)))
        (finish s.db entity user dto moments).2 := by
  cases hnote : resolutionNote dto with
  | none =>
    let noted := s.set p (.resolve id user dto (.noted entity))
    have hnoted : noted.procs p = .resolve id user dto (.noted entity) := by simp [noted]
    have hnotes : Step s (.resolveNote p moments.messageId moments.notedAt) noted :=
      .noNote hp hnote
    refine ⟨_, .step hnotes rfl (.step (.enqueues hnoted) rfl (.refl _)), ?_⟩
    constructor <;> simp +contextual [finish, hnote, noted, Except.map]
  | some note =>
    cases hins : s.db.insertMessage (noteMessage entity.conv note moments.messageId moments.notedAt) with
    | none =>
      refine ⟨_, .step (.noteRefused hp hnote hins) rfl (.refl _), ?_⟩
      constructor <;> simp +contextual [finish, hnote, hins, Except.map]
    | some db =>
      let noted := (s.set p (.resolve id user dto (.noted entity))).store db
      have hnoted : noted.procs p = .resolve id user dto (.noted entity) := by simp [noted]
      have hnotes : Step s (.resolveNote p moments.messageId moments.notedAt) noted :=
        .notes hp hnote hins
      refine ⟨_, .step hnotes rfl (.step (.enqueues hnoted) rfl (.refl _)), ?_⟩
      constructor <;> simp +contextual [finish, hnote, hins, noted, Except.map]

theorem orphaned_resolved {db : Database} {id : Uuid} {user : User} {loaded : LoadedConversation}
    (h : findOne db id user = .ok loaded) (now : Time) :
    orphaned (resolved loaded now) (related db id) = [] := by
  obtain ⟨conv, hconv, rfl, -⟩ := findOne_ok h
  have hkey := Table.key_of_find? (selectConversation_some hconv).1
  simp only [orphaned, List.filter_eq_nil_iff, decide_eq_true_eq, not_not]
  intro m hm
  rw [← hkey] at hm
  exact hm

theorem resolveConversation_opens {s : State} {p : Pid} {id : Uuid} (user : User)
    (dto : ResolveConversationDto) (moments : Moments) (hidle : s.procs p = .idle)
    (hlock : s.lock id = none) : ∃ t u, Step s (.resolve p id user dto) t ∧ Finishes t u ∧
      Ends s u p (.resolve id user dto
          (.returned ((resolveConversation s.db id user dto moments).1.map Prod.fst)))
        (resolveConversation s.db id user dto moments).2 := by
  cases hload : findOne s.db id user with
  | error e =>
    refine ⟨_, _, .resolveMisses hidle hload, .refl _, ?_⟩
    constructor <;> simp +contextual [resolveConversation, hload, Except.map]
  | ok entity =>
    let loaded := s.set p (.resolve id user dto (.loaded entity))
    have hloads : Step s (.resolve p id user dto) loaded := .loads hidle hload
    have hloaded : loaded.procs p = .resolve id user dto (.loaded entity) := by simp [loaded]
    cases hmay : mayResolve entity.conv user with
    | error e =>
      have hrefuses : Step loaded (.resolveCheck p moments.resolvedAt) _ := .checkRefuses hloaded hmay
      refine ⟨loaded, _, hloads, .step hrefuses rfl (.refl _), ?_⟩
      constructor <;> simp +contextual [resolveConversation, hload, hmay, loaded, Except.map]
    | ok _ =>
      let checked := resolved entity moments.resolvedAt
      let saving := loaded.set p (.resolve id user dto (.saving checked))
      have hchecks : Step loaded (.resolveCheck p moments.resolvedAt) saving := .checks hloaded hmay
      have hsaving : saving.procs p = .resolve id user dto (.saving checked) := by simp [saving]
      have hfind : s.db.conversations.find? id = some entity.conv := by
        obtain ⟨conv, hconv, rfl, -⟩ := findOne_ok hload
        exact (selectConversation_some hconv).1
      let writing := saving.set p
        (.resolve id user dto (.writing checked entity.conv (related s.db id)))
      have hrereads : Step saving (.resolveReread p) writing := .rereads hsaving hfind
      have hwriting : writing.procs p =
          .resolve id user dto (.writing checked entity.conv (related s.db id)) := by
        simp [writing]
      have hbefore : ∀ q, q ≠ p → writing.procs q = s.procs q := by
        intro q hq
        simp [writing, saving, loaded, hq]
      have hsave : save true s.db checked entity.conv (related s.db id) moments.savedAt =
          update true s.db (columns checked) entity.conv moments.savedAt :=
        if_pos (orphaned_resolved hload moments.resolvedAt)
      cases hupdate : update true s.db (columns checked) entity.conv moments.savedAt with
      | none =>
        refine ⟨loaded, _, hloads, .step hchecks rfl (.step hrereads rfl
          (.step (@Step.writeRefused _ _ _ true _ _ _ _ _ _ hwriting hlock (hsave.trans hupdate)) rfl
            (.refl _))), ?_⟩
        constructor <;>
          simp +contextual [resolveConversation, hload, hmay, hupdate, checked, writing, saving, loaded,
            Except.map]
      | some db =>
        let saved := (writing.set p (.resolve id user dto (.saved (stamped db checked)))).store db
        have hwrites : Step writing (.resolveWrite p moments.savedAt true) saved :=
          .writes hwriting hlock (hsave.trans hupdate)
        have hsaved : saved.procs p = .resolve id user dto (.saved (stamped db checked)) := by
          simp [saved]
        obtain ⟨t, hfinishes, hends⟩ := finish_run moments hsaved
        refine ⟨loaded, t, hloads, .step hchecks rfl (.step hrereads rfl
          (.step hwrites rfl hfinishes)), ?_⟩
        have halone : resolveConversation s.db id user dto moments =
            finish db (stamped db checked) user dto moments := by
          simp only [resolveConversation, hload, hmay, hupdate, checked]
        rw [halone]
        refine hends.of_run fun q hq => ?_
        simp only [saved, State.store_procs, State.set_procs, Function.update_of_ne hq]
        exact hbefore q hq

theorem resolveConversation_run {s : State} {p : Pid} {id : Uuid} (user : User)
    (dto : ResolveConversationDto) (moments : Moments) (hidle : s.procs p = .idle)
    (hlock : s.lock id = none) : ∃ t, Runs user s t ∧
      Ends s t p (.resolve id user dto
          (.returned ((resolveConversation s.db id user dto moments).1.map Prod.fst)))
        (resolveConversation s.db id user dto moments).2 := by
  obtain ⟨t, u, hstep, hfinishes, hends⟩ := resolveConversation_opens user dto moments hidle hlock
  exact ⟨u, .step hstep (.inr rfl) (hfinishes.runs user), hends⟩

end SupportApi.Conversations
