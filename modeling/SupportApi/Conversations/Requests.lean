import Mathlib.Logic.Function.Basic
import SupportApi.Lib.Machine
import SupportApi.Conversations.Service
import SupportApi.Data.Evolution

/-! Requests in flight.  Every request is a process that moves from one await to
the next, and the processes of all servers interleave in any order.  A claim
holds the row lock from its locked read to its commit or rollback; a resolve
reads, checks, saves (a second read, then the `UPDATE`), inserts its note and
adds its job, each a step of its own. -/

namespace SupportApi.Conversations

open Lib

abbrev Pid := Nat

inductive ClaimPhase
  | waiting
  | locked (conv : Conversation)
  | returned (reply : Except Exception Conversation)

inductive ResolvePhase
  | loaded (entity : LoadedConversation)
  | saving (entity : LoadedConversation)
  | writing (entity : LoadedConversation) (reread : Conversation) (related : List Uuid)
  | saved (entity : LoadedConversation)
  | noted (entity : LoadedConversation)
  | returned (reply : Except Exception LoadedConversation)

inductive Process
  | idle
  | claim (id : Uuid) (user : User) (phase : ClaimPhase)
  | resolve (id : Uuid) (user : User) (dto : ResolveConversationDto) (phase : ResolvePhase)

structure State where
  db : Database
  queue : List ResolutionJob
  lock : Uuid → Option Pid
  procs : Pid → Process

inductive Action
  | create (user : User) (dto : CreateConversationDto) (id : Uuid) (now : Time)
  | claim (p : Pid) (id : Uuid) (user : User)
  | claimLock (p : Pid)
  | claimCommit (p : Pid) (now : Time)
  | resolve (p : Pid) (id : Uuid) (user : User) (dto : ResolveConversationDto)
  | resolveCheck (p : Pid) (now : Time)
  | resolveReread (p : Pid)
  | resolveWrite (p : Pid) (now : Time) (nulls : Bool)
  | resolveNote (p : Pid) (messageId : Uuid) (now : Time)
  | resolveEnqueue (p : Pid)
  | fail (p : Pid)

namespace State

def set (s : State) (p : Pid) (proc : Process) : State :=
  { s with procs := Function.update s.procs p proc }

def hold (s : State) (id : Uuid) (p : Pid) : State :=
  { s with lock := Function.update s.lock id (some p) }

def release (s : State) (id : Uuid) : State :=
  { s with lock := Function.update s.lock id none }

def store (s : State) (db : Database) : State := { s with db := db }

def enqueue (s : State) (job : ResolutionJob) : State := { s with queue := s.queue ++ [job] }

variable (s : State) (p q : Pid) (id : Uuid) (proc : Process) (db : Database) (job : ResolutionJob)

@[simp] theorem set_db : (s.set p proc).db = s.db := rfl
@[simp] theorem set_queue : (s.set p proc).queue = s.queue := rfl
@[simp] theorem set_lock : (s.set p proc).lock = s.lock := rfl
@[simp] theorem set_procs : (s.set p proc).procs = Function.update s.procs p proc := rfl
@[simp] theorem hold_db : (s.hold id p).db = s.db := rfl
@[simp] theorem hold_queue : (s.hold id p).queue = s.queue := rfl
@[simp] theorem hold_lock : (s.hold id p).lock = Function.update s.lock id (some p) := rfl
@[simp] theorem hold_procs : (s.hold id p).procs = s.procs := rfl
@[simp] theorem release_db : (s.release id).db = s.db := rfl
@[simp] theorem release_queue : (s.release id).queue = s.queue := rfl
@[simp] theorem release_lock : (s.release id).lock = Function.update s.lock id none := rfl
@[simp] theorem release_procs : (s.release id).procs = s.procs := rfl
@[simp] theorem store_db : (s.store db).db = db := rfl
@[simp] theorem store_queue : (s.store db).queue = s.queue := rfl
@[simp] theorem store_lock : (s.store db).lock = s.lock := rfl
@[simp] theorem store_procs : (s.store db).procs = s.procs := rfl
@[simp] theorem enqueue_db : (s.enqueue job).db = s.db := rfl
@[simp] theorem enqueue_queue : (s.enqueue job).queue = s.queue ++ [job] := rfl
@[simp] theorem enqueue_lock : (s.enqueue job).lock = s.lock := rfl
@[simp] theorem enqueue_procs : (s.enqueue job).procs = s.procs := rfl

end State

/-- The entity that `save` returns: TypeORM copies the new `updated_at` into it. -/
def stamped (db : Database) (entity : LoadedConversation) : LoadedConversation :=
  match db.conversations.find? entity.conv.id with
  | none => entity
  | some row => { entity with conv := { entity.conv with updatedAt := row.updatedAt } }

def related (db : Database) (id : Uuid) : List Uuid :=
  (db.messages.select fun m => m.conversationId = id).map Message.id

/-- The row is read and locked; a row that another transaction has locked is waited for. -/
def claimLock (s : State) (p : Pid) : Option State :=
  match s.procs p with
  | .claim id user .waiting =>
    match selectConversation s.db id user with
    | none => some (s.set p (.claim id user (.returned (.error (.notFound "Conversation not found")))))
    | some conv =>
      if s.lock id = none then some ((s.set p (.claim id user (.locked conv))).hold id p) else none
  | _ => none

def claimCommit (s : State) (p : Pid) (now : Time) : Option State :=
  match s.procs p with
  | .claim id user (.locked conv) =>
    match claimLocked s.db conv user now with
    | .error e => some ((s.set p (.claim id user (.returned (.error e)))).release id)
    | .ok (reply, db) =>
      some (((s.set p (.claim id user (.returned (.ok reply)))).release id).store db)
  | _ => none

def resolveCheck (s : State) (p : Pid) (now : Time) : Option State :=
  match s.procs p with
  | .resolve id user dto (.loaded entity) =>
    match mayResolve entity.conv user with
    | .error e => some (s.set p (.resolve id user dto (.returned (.error e))))
    | .ok () => some (s.set p (.resolve id user dto (.saving (resolved entity now))))
  | _ => none

def resolveReread (s : State) (p : Pid) : Option State :=
  match s.procs p with
  | .resolve id user dto (.saving entity) =>
    match s.db.conversations.find? id with
    | none => none
    | some row => some (s.set p (.resolve id user dto (.writing entity row (related s.db id))))
  | _ => none

/-- The `UPDATE` waits for the row lock like any other writer. -/
def resolveWrite (s : State) (p : Pid) (now : Time) (nulls : Bool) : Option State :=
  match s.procs p with
  | .resolve id user dto (.writing entity reread related) =>
    if s.lock id = none then
      match save nulls s.db entity reread related now with
      | none => some (s.set p (.resolve id user dto (.returned (.error .queryFailed))))
      | some db => some ((s.set p (.resolve id user dto (.saved (stamped db entity)))).store db)
    else none
  | _ => none

def resolveNote (s : State) (p : Pid) (messageId : Uuid) (now : Time) : Option State :=
  match s.procs p with
  | .resolve id user dto (.saved entity) =>
    match resolutionNote dto with
    | none => some (s.set p (.resolve id user dto (.noted entity)))
    | some note =>
      match s.db.insertMessage (noteMessage entity.conv note messageId now) with
      | none => some (s.set p (.resolve id user dto (.returned (.error .queryFailed))))
      | some db => some ((s.set p (.resolve id user dto (.noted entity))).store db)
  | _ => none

def resolveEnqueue (s : State) (p : Pid) : Option State :=
  match s.procs p with
  | .resolve id user dto (.noted entity) =>
    some ((s.set p (.resolve id user dto (.returned (.ok entity)))).enqueue
      (resolutionJob entity.conv user dto))
  | _ => none

/-- The awaited statement fails and the request ends in an error; a claim's
transaction is rolled back. -/
def fail (s : State) (p : Pid) : Option State :=
  match s.procs p with
  | .claim id user .waiting => some (s.set p (.claim id user (.returned (.error .queryFailed))))
  | .claim id user (.locked _) =>
    some ((s.set p (.claim id user (.returned (.error .queryFailed)))).release id)
  | .resolve id user dto (.saving _) | .resolve id user dto (.writing _ _ _)
  | .resolve id user dto (.saved _) | .resolve id user dto (.noted _) =>
    some (s.set p (.resolve id user dto (.returned (.error .queryFailed))))
  | _ => none

def step (s : State) : Action → Option State
  | .create user dto id now =>
    match create s.db dto user id now with
    | .error _ => none
    | .ok (_, db) => some (s.store db)
  | .claim p id user =>
    match s.procs p, mayClaim user with
    | .idle, .error e => some (s.set p (.claim id user (.returned (.error e))))
    | .idle, .ok () => some (s.set p (.claim id user .waiting))
    | _, _ => none
  | .claimLock p => claimLock s p
  | .claimCommit p now => claimCommit s p now
  | .resolve p id user dto =>
    match s.procs p, findOne s.db id user with
    | .idle, .error e => some (s.set p (.resolve id user dto (.returned (.error e))))
    | .idle, .ok entity => some (s.set p (.resolve id user dto (.loaded entity)))
    | _, _ => none
  | .resolveCheck p now => resolveCheck s p now
  | .resolveReread p => resolveReread s p
  | .resolveWrite p now nulls => resolveWrite s p now nulls
  | .resolveNote p messageId now => resolveNote s p messageId now
  | .resolveEnqueue p => resolveEnqueue s p
  | .fail p => fail s p

def machine : Machine State Action := ⟨step⟩

def State.initial (db : Database) (queue : List ResolutionJob) : State where
  db := db
  queue := queue
  lock _ := none
  procs _ := .idle

/-- All that a step can do, one case for each outcome of each await. -/
inductive Step : State → Action → State → Prop
  | create {s user dto id now conv db} : create s.db dto user id now = .ok (conv, db) →
      Step s (.create user dto id now) (s.store db)
  | claimRefused {s p id user e} : s.procs p = .idle → mayClaim user = .error e →
      Step s (.claim p id user) (s.set p (.claim id user (.returned (.error e))))
  | claimWaits {s p id user} : s.procs p = .idle → mayClaim user = .ok () →
      Step s (.claim p id user) (s.set p (.claim id user .waiting))
  | lockMisses {s p id user} : s.procs p = .claim id user .waiting →
      selectConversation s.db id user = none →
      Step s (.claimLock p)
        (s.set p (.claim id user (.returned (.error (.notFound "Conversation not found")))))
  | locks {s p id user conv} : s.procs p = .claim id user .waiting →
      selectConversation s.db id user = some conv → s.lock id = none →
      Step s (.claimLock p) ((s.set p (.claim id user (.locked conv))).hold id p)
  | rollsBack {s p now id user conv e} : s.procs p = .claim id user (.locked conv) →
      claimLocked s.db conv user now = .error e →
      Step s (.claimCommit p now) ((s.set p (.claim id user (.returned (.error e)))).release id)
  | commits {s p now id user conv reply db} : s.procs p = .claim id user (.locked conv) →
      claimLocked s.db conv user now = .ok (reply, db) →
      Step s (.claimCommit p now)
        (((s.set p (.claim id user (.returned (.ok reply)))).release id).store db)
  | resolveMisses {s p id user dto e} : s.procs p = .idle → findOne s.db id user = .error e →
      Step s (.resolve p id user dto) (s.set p (.resolve id user dto (.returned (.error e))))
  | loads {s p id user dto entity} : s.procs p = .idle → findOne s.db id user = .ok entity →
      Step s (.resolve p id user dto) (s.set p (.resolve id user dto (.loaded entity)))
  | checkRefuses {s p now id user dto entity e} :
      s.procs p = .resolve id user dto (.loaded entity) → mayResolve entity.conv user = .error e →
      Step s (.resolveCheck p now) (s.set p (.resolve id user dto (.returned (.error e))))
  | checks {s p now id user dto entity} :
      s.procs p = .resolve id user dto (.loaded entity) → mayResolve entity.conv user = .ok () →
      Step s (.resolveCheck p now)
        (s.set p (.resolve id user dto (.saving (resolved entity now))))
  | rereads {s p id user dto entity row} : s.procs p = .resolve id user dto (.saving entity) →
      s.db.conversations.find? id = some row →
      Step s (.resolveReread p)
        (s.set p (.resolve id user dto (.writing entity row (related s.db id))))
  | writeRefused {s p now nulls id user dto entity reread related} :
      s.procs p = .resolve id user dto (.writing entity reread related) → s.lock id = none →
      save nulls s.db entity reread related now = none →
      Step s (.resolveWrite p now nulls)
        (s.set p (.resolve id user dto (.returned (.error .queryFailed))))
  | writes {s p now nulls id user dto entity reread related db} :
      s.procs p = .resolve id user dto (.writing entity reread related) → s.lock id = none →
      save nulls s.db entity reread related now = some db →
      Step s (.resolveWrite p now nulls)
        ((s.set p (.resolve id user dto (.saved (stamped db entity)))).store db)
  | noNote {s p messageId now id user dto entity} :
      s.procs p = .resolve id user dto (.saved entity) → resolutionNote dto = none →
      Step s (.resolveNote p messageId now) (s.set p (.resolve id user dto (.noted entity)))
  | noteRefused {s p messageId now id user dto entity note} :
      s.procs p = .resolve id user dto (.saved entity) → resolutionNote dto = some note →
      s.db.insertMessage (noteMessage entity.conv note messageId now) = none →
      Step s (.resolveNote p messageId now)
        (s.set p (.resolve id user dto (.returned (.error .queryFailed))))
  | notes {s p messageId now id user dto entity note db} :
      s.procs p = .resolve id user dto (.saved entity) → resolutionNote dto = some note →
      s.db.insertMessage (noteMessage entity.conv note messageId now) = some db →
      Step s (.resolveNote p messageId now)
        ((s.set p (.resolve id user dto (.noted entity))).store db)
  | enqueues {s p id user dto entity} : s.procs p = .resolve id user dto (.noted entity) →
      Step s (.resolveEnqueue p)
        ((s.set p (.resolve id user dto (.returned (.ok entity)))).enqueue
          (resolutionJob entity.conv user dto))
  | waitFails {s p id user} : s.procs p = .claim id user .waiting →
      Step s (.fail p) (s.set p (.claim id user (.returned (.error .queryFailed))))
  | claimFails {s p id user conv} : s.procs p = .claim id user (.locked conv) →
      Step s (.fail p) ((s.set p (.claim id user (.returned (.error .queryFailed)))).release id)
  | saveFails {s p id user dto entity} : s.procs p = .resolve id user dto (.saving entity) →
      Step s (.fail p) (s.set p (.resolve id user dto (.returned (.error .queryFailed))))
  | writeFails {s p id user dto entity reread related} :
      s.procs p = .resolve id user dto (.writing entity reread related) →
      Step s (.fail p) (s.set p (.resolve id user dto (.returned (.error .queryFailed))))
  | noteFails {s p id user dto entity} : s.procs p = .resolve id user dto (.saved entity) →
      Step s (.fail p) (s.set p (.resolve id user dto (.returned (.error .queryFailed))))
  | enqueueFails {s p id user dto entity} : s.procs p = .resolve id user dto (.noted entity) →
      Step s (.fail p) (s.set p (.resolve id user dto (.returned (.error .queryFailed))))

theorem step_iff {s t : State} {a : Action} : machine.step s a = some t ↔ Step s a t := by
  change step s a = some t ↔ Step s a t
  constructor
  · intro h
    cases a with
    | create user dto id now =>
      simp only [step] at h
      split at h <;> cases h
      exact .create ‹_›
    | claim p id user =>
      simp only [step] at h
      split at h <;> cases h
      · exact .claimRefused ‹_› ‹_›
      · exact .claimWaits ‹_› ‹_›
    | claimLock p =>
      simp only [step, claimLock] at h
      split at h
      · split at h
        · cases h; exact .lockMisses ‹_› ‹_›
        · split at h <;> cases h
          exact .locks ‹_› ‹_› ‹_›
      · cases h
    | claimCommit p now =>
      simp only [step, claimCommit] at h
      split at h
      · split at h <;> cases h
        · exact .rollsBack ‹_› ‹_›
        · exact .commits ‹_› ‹_›
      · cases h
    | resolve p id user dto =>
      simp only [step] at h
      split at h <;> cases h
      · exact .resolveMisses ‹_› ‹_›
      · exact .loads ‹_› ‹_›
    | resolveCheck p now =>
      simp only [step, resolveCheck] at h
      split at h
      · split at h <;> cases h
        · exact .checkRefuses ‹_› ‹_›
        · exact .checks ‹_› ‹_›
      · cases h
    | resolveReread p =>
      simp only [step, resolveReread] at h
      split at h
      · split at h <;> cases h
        exact .rereads ‹_› ‹_›
      · cases h
    | resolveWrite p now nulls =>
      simp only [step, resolveWrite] at h
      split at h
      · split at h
        · split at h <;> cases h
          · exact .writeRefused ‹_› ‹_› ‹_›
          · exact .writes ‹_› ‹_› ‹_›
        · cases h
      · cases h
    | resolveNote p messageId now =>
      simp only [step, resolveNote] at h
      split at h
      · split at h
        · cases h; exact .noNote ‹_› ‹_›
        · split at h <;> cases h
          · exact .noteRefused ‹_› ‹_› ‹_›
          · exact .notes ‹_› ‹_› ‹_›
      · cases h
    | resolveEnqueue p =>
      simp only [step, resolveEnqueue] at h
      split at h <;> cases h
      exact .enqueues ‹_›
    | fail p =>
      simp only [step, fail] at h
      split at h <;> cases h
      · exact .waitFails ‹_›
      · exact .claimFails ‹_›
      · exact .saveFails ‹_›
      · exact .writeFails ‹_›
      · exact .noteFails ‹_›
      · exact .enqueueFails ‹_›
  · intro h
    cases h <;> simp [step, claimLock, claimCommit, resolveCheck, resolveReread, resolveWrite,
      resolveNote, resolveEnqueue, fail, *]

def Process.returned : Process → Bool
  | .claim _ _ (.returned _) => true
  | .resolve _ _ _ (.returned _) => true
  | _ => false

theorem Step.returned {s t : State} {a : Action} (h : Step s a t) {p : Pid}
    (hp : (s.procs p).returned = true) : t.procs p = s.procs p := by
  have hupdate : ∀ q proc, (s.procs q).returned = false →
      Function.update s.procs q proc p = s.procs p := by
    intro q proc hq
    apply Function.update_of_ne
    rintro rfl
    cases hp.symm.trans hq
  cases h with
  | create => rfl
  | _ =>
    apply hupdate
    simp [Process.returned, *]

def Process.quiet : Process → Bool
  | .claim _ _ (.locked _) => false
  | .claim _ _ (.returned (.ok _)) => false
  | .resolve _ _ _ (.loaded _) => false
  | .resolve _ _ _ (.saving _) => false
  | .resolve _ _ _ (.writing _ _ _) => false
  | _ => true

inductive Effect (s : State) : Action → State → Prop
  | create {user dto id now conv db} : create s.db dto user id now = .ok (conv, db) →
      Effect s (.create user dto id now) (s.store db)
  | quiet {a p proc t} : proc.quiet = true → t.db.conversations = s.db.conversations →
      t.lock = s.lock → t.procs = Function.update s.procs p proc → Effect s a t
  | locks {p id user conv} : selectConversation s.db id user = some conv → s.lock id = none →
      Effect s (.claimLock p) ((s.set p (.claim id user (.locked conv))).hold id p)
  | rollsBack {a p id user conv e} : s.procs p = .claim id user (.locked conv) →
      Effect s a ((s.set p (.claim id user (.returned (.error e)))).release id)
  | commits {p now id user conv reply db} : s.procs p = .claim id user (.locked conv) →
      claimLocked s.db conv user now = .ok (reply, db) →
      Effect s (.claimCommit p now)
        (((s.set p (.claim id user (.returned (.ok reply)))).release id).store db)
  | loads {p id user dto entity} : findOne s.db id user = .ok entity →
      Effect s (.resolve p id user dto) (s.set p (.resolve id user dto (.loaded entity)))
  | checks {p now id user dto entity} : s.procs p = .resolve id user dto (.loaded entity) →
      mayResolve entity.conv user = .ok () →
      Effect s (.resolveCheck p now)
        (s.set p (.resolve id user dto (.saving (resolved entity now))))
  | rereads {p id user dto entity row} : s.procs p = .resolve id user dto (.saving entity) →
      s.db.conversations.find? id = some row →
      Effect s (.resolveReread p)
        (s.set p (.resolve id user dto (.writing entity row (related s.db id))))
  | writes {p now nulls id user dto entity reread related db} :
      s.procs p = .resolve id user dto (.writing entity reread related) → s.lock id = none →
      save nulls s.db entity reread related now = some db →
      Effect s (.resolveWrite p now nulls)
        ((s.set p (.resolve id user dto (.saved (stamped db entity)))).store db)

theorem Step.effect {s t : State} {a : Action} (h : Step s a t) : Effect s a t := by
  cases h with
  | create hcreate => exact .create hcreate
  | locks _ hconv hlock => exact .locks hconv hlock
  | rollsBack hp => exact .rollsBack hp
  | claimFails hp => exact .rollsBack hp
  | commits hp hclaim => exact .commits hp hclaim
  | loads _ hload => exact .loads hload
  | checks hp hmay => exact .checks hp hmay
  | rereads hp hfind => exact .rereads hp hfind
  | writes hp hlock hsave => exact .writes hp hlock hsave
  | notes _ _ hins =>
    exact .quiet rfl (Database.insertMessage_some hins).2.2.2 rfl rfl
  | _ => exact .quiet rfl rfl rfl rfl

theorem Step.users {s t : State} {a : Action} (h : Step s a t) : t.db.users = s.db.users := by
  cases h with
  | create hcreate => exact (Database.insertConversation_some (create_ok hcreate).1).2.2.1
  | commits _ hclaim =>
    rcases (claimLocked_ok hclaim).2 with ⟨-, -, rfl⟩ | ⟨-, hupdate, -⟩
    · rfl
    · exact (Database.updateConversation_some hupdate).2.2.1
  | writes _ _ hsave => exact (Database.updateConversation_some (save_some hsave).2).2.2.1
  | notes _ _ hins => exact (Database.insertMessage_some hins).2.2.1
  | _ => rfl

theorem Step.evolves {s t : State} {a : Action} (h : Step s a t) : s.db.Evolves t.db := by
  cases h with
  | create hcreate =>
    have hins := (create_ok hcreate).1
    obtain ⟨-, htenants, husers, -⟩ := Database.insertConversation_some hins
    exact .of_eq husers htenants (.insertConversation hins)
  | commits _ hclaim =>
    rcases (claimLocked_ok hclaim).2 with ⟨-, -, rfl⟩ | ⟨-, hupdate, -⟩
    · exact .refl _
    · obtain ⟨-, htenants, husers, -⟩ := Database.updateConversation_some hupdate
      exact .of_eq husers htenants (.updateConversation hupdate)
  | writes _ _ hsave =>
    obtain ⟨-, hupdate⟩ := save_some hsave
    obtain ⟨-, htenants, husers, -⟩ := Database.updateConversation_some hupdate
    exact .of_eq husers htenants (.updateConversation hupdate)
  | notes _ _ hins =>
    obtain ⟨-, htenants, husers, hconvs⟩ := Database.insertMessage_some hins
    exact .of_eq husers htenants (.of_eq husers hconvs)
  | _ => exact .refl _

namespace Sample

def tenant : Tenant where
  id := ⟨1⟩
  name := "Acme"
  slug := "acme"
  isActive := true
  domain := none
  createdAt := 0
  updatedAt := 0

def user (id : Uuid) (role : UserRole) (email : String) : UserRow where
  id := id
  tenantId := some tenant.id
  firstName := "Kim"
  lastName := "Doe"
  email := email
  role := role
  isActive := true
  refreshToken := none
  createdAt := 0
  updatedAt := 0
  password := "hash"

def agent : UserRow := user ⟨2⟩ .agent "agent@acme.test"
def admin : UserRow := user ⟨3⟩ .tenantAdmin "admin@acme.test"

def dto : CreateConversationDto where
  subject := "Where is my order?"
  description := none
  customerEmail := "jo@mail.test"
  customerName := "Jo"
  priority := none

def staffed : Database :=
  (((Database.empty.insertTenant tenant).bind fun db => db.insertUser agent).bind fun db =>
    db.insertUser admin).getD .empty

def conversation : Uuid := ⟨4⟩

def database : Database :=
  (staffed.insertConversation (created dto tenant.id conversation 0)).getD .empty

end Sample

end SupportApi.Conversations
