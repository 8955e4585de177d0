import SupportApi.Conversations.Jobs
import SupportApi.Server.Assignees
import SupportApi.Workers.Resolution

namespace SupportApi.Workers

open Lib Conversations

inductive JobStatus
  | waiting (attemptsMade : Nat)
  | active (attemptsMade : Nat)
  | completed
  | failed

def attempts : Nat := 3

/-- Bull's `moveToFailed`: another attempt, or none is left. -/
def failedAttempt (attemptsMade : Nat) : JobStatus :=
  if attemptsMade + 1 < attempts then .waiting (attemptsMade + 1) else .failed

/-- The jobs are numbered in the order in which they were added. -/
structure State where
  server : Server.State
  status : Nat → JobStatus
  sent : List EmailEnvelope

namespace State

def db (s : State) : Database := s.server.db

def queue (s : State) : List ResolutionJob := s.server.conversations.queue

def start (db : Database) : State := ⟨.start db, fun _ => .waiting 0, []⟩

def setStatus (s : State) (i : Nat) (status : JobStatus) : State :=
  { s with status := Function.update s.status i status }

end State

inductive Action
  | server (a : Server.Action)
  | take (i : Nat)
  | transmit (i : Nat) (now : Time)
  | crash (i : Nat)
  | stall (i : Nat)

variable (env : Auth.Env) (locale : Locale)

def step (s : State) : Action → Option State
  | .server a => (Server.step env s.server a).map fun server => { s with server }
  | .take i =>
    match s.queue[i]?, s.status i with
    | some _, .waiting n => some (s.setStatus i (.active n))
    | _, _ => none
  | .transmit i now =>
    match s.queue[i]?, s.status i with
    | some job, .active n =>
      match handleResolutionEmail locale job now with
      | .error _ => some (s.setStatus i (failedAttempt n))
      | .ok envelope => some { s.setStatus i .completed with sent := s.sent ++ [envelope] }
    | _, _ => none
  -- the transmission throws
  | .crash i =>
    match s.status i with
    | .active n => some (s.setStatus i (failedAttempt n))
    | _ => none
  -- the worker is gone, and Bull puts the job back
  | .stall i =>
    match s.status i with
    | .active n => some (s.setStatus i (.waiting n))
    | _ => none

def machine : Machine State Action := ⟨step env locale⟩

inductive Step (s : State) : Action → State → Prop
  | server {a server} : Server.Step env s.server a server → Step s (.server a) { s with server }
  | status {a i status} : Step s a (s.setStatus i status)
  | transmits {i now job envelope} : s.queue[i]? = some job →
      handleResolutionEmail locale job now = .ok envelope →
      Step s (.transmit i now) { s.setStatus i .completed with sent := s.sent ++ [envelope] }

variable {env locale} {db : Database} {s t : State}

theorem step_some {a : Action} (h : (machine env locale).step s a = some t) :
    Step env locale s a t := by
  cases a with
  | server a =>
    obtain ⟨server, hserver, rfl⟩ := Option.map_eq_some_iff.mp h
    exact .server (Server.step_some hserver)
  | take i =>
    simp only [machine, step] at h
    split at h <;> cases h
    exact .status
  | transmit i now =>
    simp only [machine, step, handleResolutionEmail_eq] at h
    split at h <;> cases h
    exact .transmits ‹_› (handleResolutionEmail_eq locale _ now)
  | crash i =>
    simp only [machine, step] at h
    split at h <;> cases h
    exact .status
  | stall i =>
    simp only [machine, step] at h
    split at h <;> cases h
    exact .status

structure Supported (db : Database) (s : Server.State) : Prop where
  trusted : Server.Trusted s
  keyed : ∀ p, Keyed (s.conversations.procs p)
  backed : ∀ c, Backed c (firstClaimant db c) s.conversations

theorem Supported.step {s t : Server.State} {a : Server.Action} (h : Supported db s)
    (hs : Server.Step env s a t) : Supported db t := by
  have hkept : (∀ p, Keyed (t.conversations.procs p)) ∧
      ∀ c, Backed c (firstClaimant db c) t.conversations := by
    refine h.trusted.conversations (I := fun conversations =>
      (∀ p, Keyed (conversations.procs p)) ∧ ∀ c, Backed c (firstClaimant db c) conversations)
      ?_ ?_ ⟨h.keyed, h.backed⟩ hs
    · intro conversations db' hI hdb hconvs
      exact ⟨hI.1, fun c => (hI.2 c).store hdb hconvs⟩
    · intro conversations a conversations' hI ha hstep
      exact ⟨hstep.keyed hI.1, fun c => (hI.2 c).step hI.1 ha hstep⟩
  exact ⟨h.trusted.step hs, hkept.1, hkept.2⟩

theorem supported_start (htenanted : Tenanted db) : Supported db (.start db) where
  trusted := ⟨Server.sound_start db, htenanted⟩
  keyed _ := trivial
  backed := Backed.start db

theorem Step.supported {a : Action} (hs : Step env locale s a t) (h : Supported db s.server) :
    Supported db t.server := by
  cases hs with
  | server hserver => exact h.step hserver
  | status => exact h
  | transmits => exact h

theorem run_supported {as : List Action} (htenanted : Tenanted db)
    (hrun : (machine env locale).run (.start db) as = some t) : Supported db t.server :=
  Machine.run_preserves (I := fun s => Supported db s.server)
    (fun _ _ _ h hs => (step_some hs).supported h) (supported_start htenanted) hrun

theorem Supported.job {s : Server.State} (h : Supported db s) {job : ResolutionJob}
    (hjob : job ∈ s.conversations.queue) :
    JobBacked job.conversationId (firstClaimant db job.conversationId) s.conversations job :=
  (h.backed job.conversationId).jobs job hjob rfl

theorem firstClaimant_fst (db : Database) (c : Uuid) :
    (firstClaimant db c).1 = (db.conversations.find? c).bind Conversation.assignedAgentId := by
  rw [firstClaimant]
  cases db.conversations.find? c <;> rfl

/-- Whatever has become of a job, the conversation it names is resolved, it repeats the row,
and whom it names could resolve the conversation: as a SuperAdmin, as TenantAdmin of its tenant,
or as an agent who has claimed it (before the run, where the row was there already). -/
theorem jobs_backed {as : List Action} (htenanted : Tenanted db)
    (hrun : (machine env locale).run (.start db) as = some t) {job : ResolutionJob}
    (hjob : job ∈ t.queue) :
    ∃ row, t.db.conversations.find? job.conversationId = some row ∧ row.status = .resolved ∧
      job.tenantId = row.tenantId ∧ job.customerEmail = row.customerEmail ∧
      job.customerName = row.customerName ∧ job.subject = row.subject ∧
      ∃ u, t.db.users.find? job.agentId = some u ∧ (u.role = .superAdmin ∨
        u.role = .tenantAdmin ∧ u.tenantId = some row.tenantId ∨
        u.role = .agent ∧ (Claimed job.conversationId t.server.conversations job.agentId ∨
          (db.conversations.find? job.conversationId).bind Conversation.assignedAgentId =
            some job.agentId)) := by
  obtain ⟨row, hfind, hstatus, hdetails, u, huser, hmay⟩ :=
    (run_supported htenanted hrun).job hjob
  simp only [Conversation.details, Prod.mk.injEq] at hdetails
  obtain ⟨htenant, hemail, hname, hsubject⟩ := hdetails
  rw [firstClaimant_fst, or_comm (b := Claimed _ _ _)] at hmay
  exact ⟨row, hfind, hstatus, htenant.symm, hemail.symm, hname.symm, hsubject.symm, u, huser, hmay⟩

namespace Sample

theorem tenanted : Tenanted Conversations.Sample.database := by
  intro id u hfind hrole
  have hmem : u ∈ [Conversations.Sample.agent, Conversations.Sample.admin] :=
    Table.mem_of_find? hfind
  rcases List.mem_pair.mp hmem with rfl | rfl <;> rfl

def working : List Action :=
  let token := ((Server.Principal.of Conversations.Sample.agent.toUser).tokens
    Auth.Sample.environment 0).accessToken
  [.server (.request 1 (.guarded token (.claim Conversations.Sample.conversation) 1)),
    .server (.handOver 1 ⟨0⟩ 1), .server (.conversation (.claimLock 1)),
    .server (.conversation (.claimCommit 1 2)),
    .server (.request 2 (.guarded token (.resolve Conversations.Sample.conversation ⟨none⟩) 3)),
    .server (.handOver 2 ⟨0⟩ 3), .server (.conversation (.resolveCheck 2 4)),
    .server (.conversation (.resolveReread 2)), .server (.conversation (.resolveWrite 2 5 true)),
    .server (.conversation (.resolveNote 2 ⟨5⟩ 6)), .server (.conversation (.resolveEnqueue 2)),
    .take 0]

end Sample

theorem jobs_backed_working : ∃ t job row,
    (machine Auth.Sample.environment fun _ => "").run (.start Conversations.Sample.database)
      Sample.working = some t ∧ t.queue = [job] ∧ t.status 0 = .active 0 ∧
    t.db.conversations.find? job.conversationId = some row ∧ row.status = .resolved ∧
    job.customerEmail = row.customerEmail := by
  have hrun : ∃ t job, (machine Auth.Sample.environment fun _ => "").run
      (.start Conversations.Sample.database) Sample.working = some t ∧ t.queue = [job] ∧
      t.status 0 = .active 0 := ⟨_, _, rfl, rfl, rfl⟩
  obtain ⟨t, job, hrun, hqueue, hstatus⟩ := hrun
  obtain ⟨row, hfind, hresolved, -, hemail, -⟩ :=
    jobs_backed Sample.tenanted hrun (hqueue ▸ List.mem_singleton.mpr rfl)
  exact ⟨t, job, row, hrun, hqueue, hstatus, hfind, hresolved, hemail⟩

end SupportApi.Workers
