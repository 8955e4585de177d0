import SupportApi.Auth.Rotation
import SupportApi.Server.Accounts

namespace SupportApi.Server

open Lib Auth Conversations

variable {env : Auth.Env} {db db' : Database} {s t : State}

structure Trusted (s : State) : Prop where
  sound : Sound s
  tenanted : Tenanted s.db

structure Consistent (s : State) : Prop extends Trusted s where
  staffed : Staffed s.conversations

theorem Account.known {user : User} (h : Account db (.of user)) : Known db user := by
  obtain ⟨u, hfind, heq⟩ := h
  simp only [Principal.of, Principal.mk.injEq] at heq
  exact ⟨u, hfind, heq.2.2.1, heq.2.2.2⟩

theorem Command.opening_user {p : Pid} {user user' : User} {id : Uuid} {now : Time}
    {command : Command} {a : Conversations.Action} (h : command.opening p user id now = some a)
    (ha : a.user? = some user') : user' = user := by
  cases command <;> cases h <;> cases ha <;> rfl

theorem Next.tenanted {proc proc' : Process} {input : Input} (h : Next env db proc input proc' db')
    (hsound : proc.Sound db) (htenanted : Tenanted db) : Tenanted db' := by
  cases h with
  | signUpSaves hins =>
    apply htenanted.insertUser hins
    intro hrole
    apply hsound.learnt.2
    intro hsuper
    exact hrole (by simp [newUser, hsuper])
  | stores => exact htenanted.updateUser _ _ _ fun _ => rfl
  | signsOut => exact htenanted.updateUser _ _ _ fun _ => rfl
  | deactivatesUser => exact htenanted.updateUser _ _ _ fun _ => rfl
  | createsTenant hins =>
    intro id u hfind
    rw [(Database.insertTenant_some hins).2.1] at hfind
    exact htenanted id u hfind
  | _ => exact htenanted

theorem Next.conversations {proc proc' : Process} {input : Input}
    (h : Next env db proc input proc' db') : db'.conversations = db.conversations := by
  cases h with
  | signUpSaves hins => exact (Database.insertUser_some hins).2.2.1
  | createsTenant hins => exact (Database.insertTenant_some hins).2.2.1
  | _ => rfl

theorem Trusted.admitted (h : Trusted s) {p : Pid} {token : Jwt} {user : User}
    {command : Command} (hp : s.procs p = .admitted token user command) {id : Uuid} {now : Time}
    {a : Conversations.Action} (hopening : command.opening p user id now = some a) :
    Admitted s.conversations a := by
  refine ⟨h.tenanted, fun user' ha => ?_⟩
  obtain rfl := Command.opening_user hopening ha
  have hsound := h.sound p
  rw [hp] at hsound
  exact (hsound.acts _ _ rfl).1.known

theorem Trusted.step {a : Action} (h : Trusted s) (hs : Step env s a t) : Trusted t := by
  refine ⟨hs.sound h.sound, ?_⟩
  cases hs with
  | request hnext => exact hnext.tenanted (h.sound _) h.tenanted
  | openRefused => exact h.tenanted
  | opens _ _ hstep | conversation _ hstep =>
    intro id u hfind
    rw [State.db, hstep.users] at hfind
    exact h.tenanted id u hfind

theorem Trusted.conversations {I : Conversations.State → Prop} {a : Action} (h : Trusted s)
    (hstore : ∀ c db, I c → c.db.Extends db → db.conversations = c.db.conversations →
      I (c.store db))
    (hstep : ∀ c a c', I c → Admitted c a → Conversations.Step c a c' → I c')
    (hI : I s.conversations) (hs : Step env s a t) : I t.conversations := by
  cases hs with
  | request hnext => exact hstore _ _ hI hnext.evolves.toExtends hnext.conversations
  | opens hp hopening hs => exact hstep _ _ _ hI (h.admitted hp hopening) hs
  | openRefused => exact hI
  | conversation hnobody hs =>
    refine hstep _ _ _ hI ⟨h.tenanted, fun user ha => ?_⟩ hs
    cases hnobody.symm.trans ha

theorem Consistent.step {a : Action} (h : Consistent s) (hs : Step env s a t) : Consistent t where
  toTrusted := h.toTrusted.step hs
  staffed := h.toTrusted.conversations (fun _ _ h hdb hconvs => h.store_users hdb hconvs)
    (fun _ _ _ h ha hs => h.step ha hs) h.staffed hs

theorem consistent_preserves : (machine env).Preserves Consistent :=
  fun _ _ _ h hs => h.step (step_some hs)

theorem consistent_start (htenanted : Tenanted db) (hconvs : db.conversations.rows = []) :
    Consistent (.start db) where
  sound := sound_start db
  tenanted := htenanted
  staffed := .start [] hconvs

/-- Everybody but a SuperAdmin has a tenant, and every assignee works for the tenant of the
conversation. -/
theorem assignees_of_tenant {db : Database} {as : List Action} (husers : db.users.rows = [])
    (hconvs : db.conversations.rows = []) (hrun : (machine env).run (.start db) as = some t) :
    (∀ u ∈ t.db.users.rows, u.role ≠ .superAdmin → u.tenantId ≠ none) ∧
      ∀ c ∈ t.db.conversations.rows, ∀ a, c.assignedAgentId = some a →
        ∃ u, t.db.users.find? a = some u ∧ (u.role = .tenantAdmin ∨ u.role = .agent) ∧
          u.tenantId = some c.tenantId := by
  have htenanted : Tenanted db := by
    intro id u hfind
    have hmem : u ∈ db.users.rows := Table.mem_of_find? hfind
    rw [husers] at hmem
    cases hmem
  have h := Machine.run_preserves consistent_preserves (consistent_start htenanted hconvs) hrun
  constructor
  · intro u hu hrole
    exact Option.isSome_iff_ne_none.mp (h.tenanted u.id u (Table.find?_self hu) hrole)
  · intro c hc a ha
    obtain ⟨row, hrow, hstaff⟩ := h.staffed.rows c.id c (Table.find?_self hc)
    cases hrow.symm.trans (Table.find?_self hc)
    obtain ⟨u, hfind, htenant, hrole⟩ := hstaff a ha
    refine ⟨u, hfind, ?_, htenant⟩
    cases hcase : u.role with
    | superAdmin => exact absurd hcase hrole
    | tenantAdmin => exact .inl rfl
    | agent => exact .inr rfl

namespace Sample

def founded : Database := (Database.empty.insertTenant Conversations.Sample.tenant).getD .empty

def joining : SignUpDto where
  firstName := "Kim"
  lastName := "Doe"
  email := "agent@acme.test"
  password := "SecurePass123!"
  role := none
  tenantId := some "00000000-0000-0000-0000-000000000001"

def joined : Principal := ⟨⟨2⟩, "agent@acme.test", .agent, some ⟨1⟩⟩

def starting : List Action :=
  let token := (joined.tokens Auth.Sample.environment 0).accessToken
  [.request 0 (.signUp joining), .request 0 .signUpLookup, .request 0 (.signUpInsert ⟨2⟩ "" 0),
    .request 1 (.guarded token (.createConversation Conversations.Sample.dto) 1),
    .handOver 1 Conversations.Sample.conversation 1,
    .request 2 (.guarded token (.claim Conversations.Sample.conversation) 2), .handOver 2 ⟨0⟩ 2,
    .conversation (.claimLock 2), .conversation (.claimCommit 2 3)]

end Sample

theorem assignees_of_tenant_starting : ∃ t c u,
    (machine Auth.Sample.environment).run (.start Sample.founded) Sample.starting = some t ∧
    t.db.conversations.find? Conversations.Sample.conversation = some c ∧
    c.assignedAgentId = some Sample.joined.id ∧ t.db.users.find? Sample.joined.id = some u ∧
    u.tenantId = some c.tenantId := by
  have hrun : ∃ t, (machine Auth.Sample.environment).run (.start Sample.founded) Sample.starting =
      some t ∧ (t.db.conversations.find? Conversations.Sample.conversation).bind
        Conversation.assignedAgentId = some Sample.joined.id := ⟨_, rfl, rfl⟩
  obtain ⟨t, hrun, hassigned⟩ := hrun
  obtain ⟨c, hfind, hagent⟩ := Option.bind_eq_some_iff.mp hassigned
  obtain ⟨u, huser, -, htenant⟩ :=
    (assignees_of_tenant rfl rfl hrun).2 c (Table.mem_of_find? hfind) _ hagent
  exact ⟨t, c, u, hrun, hfind, hagent, huser, htenant⟩

end SupportApi.Server
