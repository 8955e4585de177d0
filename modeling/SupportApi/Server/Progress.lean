import SupportApi.Conversations.Progress
import SupportApi.Server.Lockout

namespace SupportApi.Server

open Lib Auth Conversations

/-- The awaits that a request has before it, those of the conversations aside. -/
def Process.left : Process → ℕ
  | .idle => 0
  | .signUpChecked _ => 4
  | .signUpFree _ _ => 3
  | .signUpSaved _ _ => 2
  | .signInLocated _ _ => 2
  | .validated _ _ => 2
  | .issuing _ _ _ _ => 1
  | .admitted _ _ _ => 6
  | .deactivatingUser _ _ _ _ => 2
  | .deactivatedUser _ _ _ => 1
  | .creatingTenant _ _ _ => 1
  | .deactivatingTenant _ _ _ _ => 1
  | .handedOver _ _ _ _ => 0
  | .returned _ _ => 0

def State.left (s : State) (p : Pid) : ℕ :=
  (s.procs p).left + (s.conversations.procs p).left

def Action.arrives : Action → Bool
  | .request _ input => input.request?.isSome
  | _ => false

def Action.fails : Action → Bool
  | .request _ .fail => true
  | .conversation a => a.fails
  | _ => false

def Process.Ended (conversation : Conversations.Process) : Process → Prop
  | .idle => True
  | .returned _ _ => True
  | .handedOver _ _ _ _ => conversation = .idle ∨ conversation.returned = true
  | _ => False

/-- Every request has been answered and no row is locked. -/
structure Quiet (s : State) : Prop where
  ended : ∀ p, (s.procs p).Ended (s.conversations.procs p)
  unlocked : ∀ id, s.conversations.lock id = none

variable {env : Auth.Env} {s t : State} {p : Pid}

theorem left_le (proc : Process) : proc.left ≤ 6 := by
  cases proc <;> simp [Process.left]

theorem left_of_request? {proc : Process} {request : Request}
    (h : proc.request? = some request) : 0 < proc.left := by
  cases proc <;> simp [Process.request?, Process.left] at h ⊢

theorem Next.spends {db db' : Database} {proc proc' : Process} {input : Input}
    (h : Next env db proc input proc' db') (hinput : input.request? = none) :
    proc'.left < proc.left := by
  cases h with
  | refuses hrequest =>
    rcases hrequest with ⟨-, hbegin⟩ | hrequest
    · cases hinput.symm.trans hbegin
    · exact left_of_request? hrequest
  | signUpChecks => cases hinput
  | signInLocates => cases hinput
  | validates => cases hinput
  | admits => cases hinput
  | _ => simp [Process.left]

theorem Step.live {a : Action} (hs : Step env s a t) (h : Live s.conversations) :
    Live t.conversations := by
  cases hs with
  | request hnext => exact ⟨h.held, h.found.mono hnext.evolves⟩
  | opens _ _ hstep => exact hstep.live h
  | openRefused => exact h
  | conversation _ hstep => exact hstep.live h

theorem opening_left {command : Command} {user : User} {id : Uuid} {now : Time}
    {a : Conversations.Action} {c d : Conversations.State}
    (ha : command.opening p user id now = some a) (hs : Conversations.Step c a d) :
    (d.procs p).left < 6 + (c.procs p).left ∧ ∀ q, q ≠ p → d.procs q = c.procs q := by
  have hset : ∀ proc : Conversations.Process, proc.left < 6 →
      (Function.update c.procs p proc p).left < 6 + (c.procs p).left ∧
        ∀ q, q ≠ p → Function.update c.procs p proc q = c.procs q := by
    intro proc hlt
    rw [Function.update_self]
    exact ⟨Nat.lt_add_right _ hlt, fun q hq => Function.update_of_ne hq ..⟩
  cases command <;> cases ha
  · cases hs
    exact ⟨Nat.lt_add_of_pos_left (by decide), fun _ _ => rfl⟩
  · cases hs <;> exact hset _ (by simp [Conversations.Process.left])
  · cases hs <;> exact hset _ (by simp [Conversations.Process.left])

@[simp] theorem left_set_self (s : State) (p : Pid) (proc : Process) :
    (s.set p proc).left p = proc.left + (s.conversations.procs p).left := by
  rw [State.left, State.set_procs, Function.update_self]
  rfl

theorem left_set_of_ne (s : State) {p q : Pid} (proc : Process) (hq : q ≠ p) :
    (s.set p proc).left q = s.left q := by
  rw [State.left, State.set_procs, Function.update_of_ne hq]
  rfl

theorem Step.earns {a : Action} (hs : Step env s a t) (ha : a.arrives = true) :
    ∃ p, t.left p ≤ s.left p + 6 ∧ ∀ q, q ≠ p → t.left q = s.left q := by
  cases hs with
  | @request p input proc db hnext =>
    refine ⟨p, ?_, fun q hq => left_set_of_ne s proc hq⟩
    change (s.set p proc).left p ≤ s.left p + 6
    rw [left_set_self, State.left]
    have := left_le proc
    omega
  | _ => cases ha

theorem Step.spends {a : Action} (hs : Step env s a t) (ha : a.arrives = false) :
    ∃ p, t.left p < s.left p ∧ ∀ q, q ≠ p → t.left q = s.left q := by
  cases hs with
  | @request p input proc db hnext =>
    refine ⟨p, ?_, fun q hq => left_set_of_ne s proc hq⟩
    change (s.set p proc).left p < s.left p
    rw [left_set_self, State.left]
    have hnone := Option.isNone_iff_eq_none.mp (Option.isSome_eq_false_iff.mp ha)
    exact Nat.add_lt_add_right (hnext.spends hnone) _
  | @opens p id now token user command a conversations hp hopening hstep =>
    obtain ⟨hlt, hrest⟩ := opening_left hopening hstep
    refine ⟨p, ?_, fun q hq => ?_⟩
    · simp only [State.left, hp, Function.update_self, Process.left]
      omega
    · simp only [State.left, Function.update_of_ne hq, hrest q hq]
  | @openRefused p id now token user command a hp =>
    refine ⟨p, ?_, fun q hq => left_set_of_ne s _ hq⟩
    rw [left_set_self, State.left, hp]
    exact Nat.add_lt_add_right (Nat.succ_pos 5) _
  | conversation hnone hstep =>
    obtain ⟨p, hlt, hrest⟩ := hstep.spends hnone
    refine ⟨p, Nat.add_lt_add_left hlt _, fun q hq => ?_⟩
    simp only [State.left, hrest q hq]

theorem budget : Machine.Budget (machine env) (fun s => Live s.conversations) Action.arrives
    State.left 6 where
  keeps _ _ _ h hs := (step_some hs).live h
  earns _ _ _ _ hs := (step_some hs).earns
  spends _ _ _ _ hs := (step_some hs).spends

theorem next_isSome (db : Database) {proc : Process} (h : proc.left ≠ 0)
    (hopening : ∀ token user command, proc = .admitted token user command →
      command.opening p user ⟨0⟩ 0 = none) :
    ∃ input, input.request? = none ∧ input ≠ .fail ∧ (next env db proc input).isSome := by
  cases proc with
  | idle => exact absurd rfl h
  | signUpChecked dto =>
    refine ⟨.signUpLookup, rfl, by simp, ?_⟩
    cases hfound : signUpFree db dto <;>
      simp only [next.eq_def, hfound, Option.isSome_some]
  | signUpFree dto tenantId =>
    refine ⟨.signUpInsert ⟨0⟩ "" 0, rfl, by simp, ?_⟩
    cases hfound : db.insertUser (newUser env dto tenantId ⟨0⟩ "" 0) <;>
      simp only [next.eq_def, hfound, Option.isSome_some]
  | signUpSaved dto id =>
    refine ⟨.signUpReload 0, rfl, by simp, ?_⟩
    cases hfound : db.users.find? id <;>
      simp only [next.eq_def, hfound, Option.isSome_some]
  | signInLocated dto tenantId =>
    refine ⟨.signInFind .asStored 0, rfl, by simp, ?_⟩
    cases hfound : credentials env .asStored db dto tenantId <;>
      simp only [next.eq_def, hfound, Option.isSome_some]
  | validated token row => exact ⟨.refreshSign 0, rfl, by simp, rfl⟩
  | issuing request user shown tokens => exact ⟨.store "" 0, rfl, by simp, rfl⟩
  | admitted token user command =>
    cases command with
    | signOut => exact ⟨.perform 0, rfl, by simp, rfl⟩
    | deactivateUser id =>
      refine ⟨.perform 0, rfl, by simp, ?_⟩
      cases hfound : mayDeactivate db id user <;>
        simp only [next.eq_def, hfound, Option.isSome_some]
    | createTenant dto =>
      refine ⟨.perform 0, rfl, by simp, ?_⟩
      cases hfound : mayCreate db dto <;>
        simp only [next.eq_def, hfound, Option.isSome_some]
    | deactivateTenant id =>
      refine ⟨.perform 0, rfl, by simp, ?_⟩
      cases hfound : Tenants.findOne db id <;>
        simp only [next.eq_def, hfound, Option.isSome_some]
    | createConversation dto => cases hopening token user _ rfl
    | claim id => cases hopening token user _ rfl
    | resolve id dto => cases hopening token user _ rfl
    | read query =>
      let arranged : Api.Env :=
        ⟨env, ⟨.stable _, .stable _⟩, .stable _, .stable _, ⟨fun _ => none⟩⟩
      refine ⟨.read arranged fun _ => none, rfl, by simp, ?_⟩
      cases hfound : query.answer arranged ⟨db, fun _ => none⟩ user <;>
        simp only [next.eq_def, hfound, Option.isSome_some]
  | deactivatingUser token user id target => exact ⟨.save ⟨0⟩ 0, rfl, by simp, rfl⟩
  | deactivatedUser token user id =>
    refine ⟨.reload, rfl, by simp, ?_⟩
    cases hfound : Users.findOne db id none <;>
      simp only [next.eq_def, hfound, Option.isSome_some]
  | creatingTenant token user dto =>
    refine ⟨.save ⟨0⟩ 0, rfl, by simp, ?_⟩
    cases hfound : db.insertTenant (Tenants.created dto ⟨0⟩ 0).stored <;>
      simp only [next.eq_def, hfound, Option.isSome_some]
  | deactivatingTenant token user id target => exact ⟨.save ⟨0⟩ 0, rfl, by simp, rfl⟩
  | handedOver token user command saved => exact absurd rfl h
  | returned request reply => exact absurd rfl h

theorem handOver_isSome {token : Jwt} {user : User} {command : Command} {a : Conversations.Action}
    (hp : s.procs p = .admitted token user command) (ha : command.opening p user ⟨0⟩ 0 = some a) :
    ∃ t, (machine env).step s (.handOver p ⟨0⟩ 0) = some t := by
  simp only [machine, step, hp, ha]
  cases Conversations.step s.conversations a <;> exact ⟨_, rfl⟩

theorem moves (h : Live s.conversations) (hleft : ∃ p, s.left p ≠ 0) :
    ∃ a t, a.arrives = false ∧ a.fails = false ∧ (machine env).step s a = some t := by
  obtain ⟨p, hp⟩ := hleft
  by_cases hconv : (s.conversations.procs p).left = 0
  · have hproc : (s.procs p).left ≠ 0 := by
      rwa [State.left, hconv] at hp
    by_cases hopening : ∀ token user command, s.procs p = .admitted token user command →
        command.opening p user ⟨0⟩ 0 = none
    · obtain ⟨input, hinput, hfail, hnext⟩ := @next_isSome env p s.db _ hproc hopening
      obtain ⟨⟨proc, db⟩, hnext⟩ := Option.isSome_iff_exists.mp hnext
      have hstep : (machine env).step s (.request p input) = some ((s.set p proc).store db) :=
        Option.map_eq_some_iff.mpr ⟨(proc, db), hnext, rfl⟩
      refine ⟨.request p input, _, ?_, ?_, hstep⟩
      · simp [Action.arrives, hinput]
      · cases input <;> first | rfl | exact absurd rfl hfail
    · obtain ⟨token, user, command, hadmitted, hsome⟩ : ∃ token user command,
          s.procs p = .admitted token user command ∧ command.opening p user ⟨0⟩ 0 ≠ none := by
        simpa using hopening
      obtain ⟨a, ha⟩ := Option.ne_none_iff_exists'.mp hsome
      obtain ⟨t, ht⟩ := @handOver_isSome env s p _ _ _ _ hadmitted ha
      exact ⟨.handOver p ⟨0⟩ 0, t, rfl, rfl, ht⟩
  · obtain ⟨a, c, huser, hfails, hstep⟩ := h.moves hconv
    refine ⟨.conversation a, { s with conversations := c }, rfl, hfails, ?_⟩
    change Conversations.step s.conversations a = some c at hstep
    simp only [machine, step, huser, hstep, Option.map_some]

theorem quiet_of_left (h : Live s.conversations) (hdone : ∀ p, s.left p = 0) : Quiet s where
  ended p := by
    obtain ⟨hproc, hconv⟩ := Nat.add_eq_zero_iff.mp (hdone p)
    cases hp : s.procs p with
    | idle => trivial
    | returned => trivial
    | handedOver => exact Conversations.ended_of_left hconv
    | _ => simp [hp, Process.left] at hproc
  unlocked := h.unlocked fun p => (Nat.add_eq_zero_iff.mp (hdone p)).2

/-- A request is answered after at most six awaits of the machine, which counts hashing and
signing with the await after them; a server that can do nothing more but fail has answered all
of them; and it can always get there. -/
theorem run_answers {db : Database} {as : List Action} (h : (machine env).run (.start db) as = some s) :
    as.countP (fun a => !a.arrives) ≤ 6 * as.countP Action.arrives ∧
      ((∀ a, a.arrives = false → a.fails = false → (machine env).step s a = none) → Quiet s) ∧
      ∃ bs t, (∀ a ∈ bs, a.arrives = false ∧ a.fails = false) ∧
        (machine env).run s bs = some t ∧ Quiet t := by
  have hstart : Live (State.start db).conversations := .initial db []
  have hlive : Live s.conversations := Machine.run_preserves budget.keeps hstart h
  obtain ⟨F, hF, hle⟩ := budget.run_spent hstart (fun _ => rfl) h
  refine ⟨Nat.le_of_add_right_le hle, fun hstuck => quiet_of_left hlive ?_, ?_⟩
  · by_contra hleft
    obtain ⟨a, t, ha, hfails, hstep⟩ := @moves env s hlive (not_forall.mp hleft)
    cases (hstuck a ha hfails).symm.trans hstep
  · obtain ⟨bs, t, hbs, hrun, hdone⟩ := budget.drains (fun a => Action.fails a = false)
      (fun _ => moves) hlive hF
    exact ⟨bs, t, hbs, hrun, quiet_of_left (Machine.run_preserves budget.keeps hlive hrun) hdone⟩

namespace Sample

def waiting : List Action :=
  [.request 1 (.guarded (tokens agent 0).accessToken (.claim Conversations.Sample.conversation) 0),
    .request 2 (.guarded (tokens admin 0).accessToken
      (.resolve Conversations.Sample.conversation ⟨some "Done"⟩) 0),
    .handOver 2 ⟨0⟩ 0, .conversation (.resolveCheck 2 0), .conversation (.resolveReread 2),
    .handOver 1 ⟨0⟩ 0, .conversation (.claimLock 1)]

end Sample

theorem run_answers_waiting : ∃ s, (machine Sample.environment).run
    (.start Conversations.Sample.database) Sample.waiting = some s ∧
    s.conversations.lock Conversations.Sample.conversation = some 1 ∧
    ∃ bs t, (machine Sample.environment).run s bs = some t ∧ Quiet t := by
  refine ⟨_, rfl, rfl, ?_⟩
  obtain ⟨-, -, bs, t, -, hrun, hquiet⟩ :=
    @run_answers Sample.environment _ Conversations.Sample.database Sample.waiting rfl
  exact ⟨bs, t, hrun, hquiet⟩

end SupportApi.Server
