import SupportApi.Conversations.Resolves
import SupportApi.Conversations.Staff

namespace SupportApi.Conversations

open Lib

variable {c : Uuid} {b : Option Uuid × Option Time} {s t : State}

def Conversation.details (r : Conversation) : Uuid × String × String × String :=
  (r.tenantId, r.customerEmail, r.customerName, r.subject)

def CopyOf (c : Uuid) (db : Database) (e : Conversation) : Prop :=
  e.id = c ∧ ∃ r, db.conversations.find? c = some r ∧ Conversation.details r = Conversation.details e

/-- A user has been told that the conversation is theirs. -/
def Claimed (c : Uuid) (s : State) (u : Uuid) : Prop :=
  ∃ p user reply, s.procs p = .claim c user (.returned (.ok reply)) ∧ user.id = u

/-- The user may resolve a conversation of the tenant: as a SuperAdmin, as its TenantAdmin, or
as the agent who has claimed it or was its assignee from the start. -/
def Resolver (c : Uuid) (b : Option Uuid × Option Time) (s : State) (tenant u : Uuid) : Prop :=
  ∃ row, s.db.users.find? u = some row ∧ (row.role = .superAdmin ∨
    row.role = .tenantAdmin ∧ row.tenantId = some tenant ∨
    row.role = .agent ∧ (b.1 = some u ∨ Claimed c s u))

def Reader (db : Database) (tenant : Uuid) (user : User) : Prop :=
  Known db user ∧ (user.role ≠ .superAdmin → user.tenantId = some tenant)

def JobBacked (c : Uuid) (b : Option Uuid × Option Time) (s : State) (job : ResolutionJob) : Prop :=
  ∃ r, s.db.conversations.find? c = some r ∧ r.status = .resolved ∧
    Conversation.details r = (job.tenantId, job.customerEmail, job.customerName, job.subject) ∧
    Resolver c b s r.tenantId job.agentId

def Process.Backed (c : Uuid) (b : Option Uuid × Option Time) (s : State) : Process → Prop
  | .resolve id user _ (.loaded e) =>
    id = c → CopyOf c s.db e.conv ∧ Reader s.db e.conv.tenantId user
  | .resolve id user _ (.saving e) =>
    id = c → CopyOf c s.db e.conv ∧ Resolver c b s e.conv.tenantId user.id
  | .resolve id user _ (.writing e reread _) =>
    id = c → CopyOf c s.db e.conv ∧ CopyOf c s.db reread ∧ Resolver c b s e.conv.tenantId user.id
  | .resolve id user _ (.saved e) =>
    id = c → CopyOf c s.db e.conv ∧ Resolved c s ∧ Resolver c b s e.conv.tenantId user.id
  | .resolve id user _ (.noted e) =>
    id = c → CopyOf c s.db e.conv ∧ Resolved c s ∧ Resolver c b s e.conv.tenantId user.id
  | _ => True

structure Later (c : Uuid) (s t : State) : Prop where
  database : s.db.Extends t.db
  row : ∀ r, s.db.conversations.find? c = some r → ∃ r', t.db.conversations.find? c = some r' ∧
    Conversation.details r' = Conversation.details r ∧ (r.status = .resolved → r'.status = .resolved)
  replies : ∀ p, (s.procs p).returned = true → t.procs p = s.procs p

theorem CopyOf.mono (h : Later c s t) {e : Conversation} (hcopy : CopyOf c s.db e) :
    CopyOf c t.db e := by
  obtain ⟨hid, r, hfind, hdetails⟩ := hcopy
  obtain ⟨r', hfind', hdetails', -⟩ := h.row r hfind
  exact ⟨hid, r', hfind', hdetails'.trans hdetails⟩

theorem Resolved.mono (h : Later c s t) (hresolved : Resolved c s) : Resolved c t := by
  obtain ⟨r, hfind, hstatus⟩ := hresolved
  obtain ⟨r', hfind', -, hkept⟩ := h.row r hfind
  exact ⟨r', hfind', hkept hstatus⟩

theorem Claimed.mono (h : Later c s t) {u : Uuid} (hclaimed : Claimed c s u) : Claimed c t u := by
  obtain ⟨p, user, reply, hp, hu⟩ := hclaimed
  refine ⟨p, user, reply, ?_, hu⟩
  rw [h.replies p (by rw [hp]; rfl), hp]

theorem Resolver.mono (h : Later c s t) {tenant u : Uuid} (hresolver : Resolver c b s tenant u) :
    Resolver c b t tenant u := by
  obtain ⟨row, hfind, hmay⟩ := hresolver
  obtain ⟨row', hfind', htenant, hrole⟩ := h.database.users u row hfind
  refine ⟨row', hfind', ?_⟩
  rw [hrole, htenant]
  rcases hmay with hsuper | hadmin | ⟨hagent, hmine⟩
  · exact .inl hsuper
  · exact .inr (.inl hadmin)
  · exact .inr (.inr ⟨hagent, hmine.imp_right fun hclaimed => hclaimed.mono h⟩)

theorem Reader.mono (h : Later c s t) {tenant : Uuid} {user : User}
    (hreader : Reader s.db tenant user) : Reader t.db tenant user :=
  ⟨hreader.1.mono h.database, hreader.2⟩

theorem JobBacked.mono (h : Later c s t) {job : ResolutionJob} (hjob : JobBacked c b s job) :
    JobBacked c b t job := by
  obtain ⟨r, hfind, hstatus, hdetails, hresolver⟩ := hjob
  obtain ⟨r', hfind', hdetails', hkept⟩ := h.row r hfind
  refine ⟨r', hfind', hkept hstatus, hdetails'.trans hdetails, ?_⟩
  rw [(Prod.mk.inj hdetails').1]
  exact hresolver.mono h

theorem Process.Backed.mono (h : Later c s t) {proc : Process} (hbacked : proc.Backed c b s) :
    proc.Backed c b t := by
  cases proc with
  | idle => trivial
  | claim id user phase => trivial
  | resolve id user dto phase =>
    cases phase with
    | loaded e => exact fun hid => ⟨(hbacked hid).1.mono h, (hbacked hid).2.mono h⟩
    | saving e => exact fun hid => ⟨(hbacked hid).1.mono h, (hbacked hid).2.mono h⟩
    | writing e reread _ =>
      exact fun hid => ⟨(hbacked hid).1.mono h, (hbacked hid).2.1.mono h, (hbacked hid).2.2.mono h⟩
    | saved e =>
      exact fun hid => ⟨(hbacked hid).1.mono h, (hbacked hid).2.1.mono h, (hbacked hid).2.2.mono h⟩
    | noted e =>
      exact fun hid => ⟨(hbacked hid).1.mono h, (hbacked hid).2.1.mono h, (hbacked hid).2.2.mono h⟩
    | returned reply => trivial

structure Backed (c : Uuid) (b : Option Uuid × Option Time) (s : State) : Prop where
  coherent : ∃ w, Coherent c b w s ∧ ∀ u time, w = some (u, time) → Claimed c s u
  procs : ∀ p, (s.procs p).Backed c b s
  jobs : ∀ job ∈ s.queue, job.conversationId = c → JobBacked c b s job

theorem details_written {nulls : Bool} {entity reread r : Conversation} (now : Time)
    (hentity : Conversation.details entity = Conversation.details r)
    (hreread : Conversation.details reread = Conversation.details r) :
    Conversation.details (written nulls entity reread r now) = Conversation.details r := by
  simp only [Conversation.details, Prod.mk.injEq] at hentity hreread ⊢
  obtain ⟨-, hemail, hname, hsubject⟩ := hentity
  obtain ⟨-, hemail', hname', hsubject'⟩ := hreread
  simp only [written, hemail, hname, hsubject, hemail', hname', hsubject', merge_self, true_and]

namespace Backed

theorem later {a : Action} (h : Backed c b s) (hs : Step s a t) : Later c s t where
  database := hs.evolves.toExtends
  row r hr := by
    obtain ⟨w, hcoherent, -⟩ := h.coherent
    obtain ⟨w', -, hrow⟩ := hcoherent.step hs
    cases hrow with
    | same hsame => exact ⟨r, hsame.trans hr, rfl, id⟩
    | created hnone => cases hnone.symm.trans hr
    | claimed _ _ _ hfind hopen _ hfind' =>
      cases hfind.symm.trans hr
      exact ⟨_, hfind', details_written _ rfl rfl, fun hresolved => absurd hresolved hopen⟩
    | @written p now nulls user dto entity reread _ _ _ hp _ hfind hfind' =>
      cases hfind.symm.trans hr
      have hproc := h.procs p
      rw [hp] at hproc
      obtain ⟨⟨-, r₁, hr₁, hentity⟩, ⟨-, r₂, hr₂, hreread⟩, -⟩ := hproc rfl
      cases hr.symm.trans hr₁
      cases hr.symm.trans hr₂
      exact ⟨_, hfind', details_written now hentity.symm hreread.symm,
        fun _ => hcoherent.resolved_writes nulls now hp hr⟩
  replies p hp := hs.returned hp

theorem answered {a : Action} (h : Backed c b s) (hs : Step s a t) :
    ∃ w, Coherent c b w t ∧ ∀ u time, w = some (u, time) → Claimed c t u := by
  obtain ⟨w, hcoherent, hclaimed⟩ := h.coherent
  obtain ⟨w', hcoherent', hrow⟩ := hcoherent.step hs
  refine ⟨w', hcoherent', ?_⟩
  cases hrow with
  | @claimed p user conv now ha hp _ hfind _ hagent hfind' =>
    rintro u time ⟨⟩
    subst ha
    cases hs with
    | rollsBack =>
      have hsame := Option.some.inj (hfind.symm.trans hfind')
      rw [hsame] at hagent
      cases hagent.symm.trans (congrArg Prod.fst (written_assigned conv user now).2.1)
    | @commits _ _ _ _ _ reply _ hp' =>
      cases hp.symm.trans hp'
      exact ⟨p, user, reply, by simp, rfl⟩
  | same => exact fun u time hw => (hclaimed u time hw).mono (h.later hs)
  | created => exact fun u time hw => (hclaimed u time hw).mono (h.later hs)
  | written => exact fun u time hw => (hclaimed u time hw).mono (h.later hs)

theorem loads (h : Backed c b s) (htenanted : Tenanted s.db) {id : Uuid} {user : User}
    (hknown : Known s.db user) {dto : ResolveConversationDto} {entity : LoadedConversation}
    (hload : findOne s.db id user = .ok entity) :
    (Process.resolve id user dto (.loaded entity)).Backed c b s := by
  rintro rfl
  obtain ⟨conv, hconv, rfl, -⟩ := findOne_ok hload
  obtain ⟨hfind, hin⟩ := selectConversation_some hconv
  refine ⟨⟨Table.key_of_find? hfind, conv, hfind, rfl⟩, hknown, fun hrole => ?_⟩
  obtain ⟨u, huser, hsame, htenant⟩ := hknown
  obtain ⟨T, hT⟩ := Option.isSome_iff_exists.mp (htenanted _ u huser (hsame ▸ hrole))
  rw [inTenant, ← htenant, hT] at hin
  have hin : T = conv.tenantId := by simpa using hin
  exact htenant.symm.trans (hT.trans (congrArg some hin))

theorem checks (h : Backed c b s) {p : Pid} {id : Uuid} {user : User}
    {dto : ResolveConversationDto} {entity : LoadedConversation} (now : Time)
    (hp : s.procs p = .resolve id user dto (.loaded entity))
    (hmay : mayResolve entity.conv user = .ok ()) :
    (Process.resolve id user dto (.saving (resolved entity now))).Backed c b s := by
  rintro rfl
  obtain ⟨w, hcoherent, hclaimed⟩ := h.coherent
  have hloaded := h.procs p
  have hcopies := hcoherent.procs p
  rw [hp] at hloaded hcopies
  obtain ⟨hcopy, ⟨u, huser, hrole, htenant⟩, hsame⟩ := hloaded rfl
  refine ⟨hcopy, u, huser, ?_⟩
  rw [hrole, htenant]
  cases hcase : user.role with
  | superAdmin => exact .inl rfl
  | tenantAdmin => exact .inr (.inl ⟨rfl, hsame (by simp [hcase])⟩)
  | agent =>
    have howner := (hcopies rfl).2.owner ((mayResolve_ok hmay).2 hcase)
    refine .inr (.inr ⟨rfl, howner.imp_right ?_⟩)
    rintro ⟨time, hw⟩
    exact hclaimed _ time hw

theorem rereads (h : Backed c b s) {p : Pid} {id : Uuid} {user : User}
    {dto : ResolveConversationDto} {entity : LoadedConversation} {row : Conversation}
    (hp : s.procs p = .resolve id user dto (.saving entity))
    (hfind : s.db.conversations.find? id = some row) :
    (Process.resolve id user dto (.writing entity row (related s.db id))).Backed c b s := by
  rintro rfl
  have hsaving := h.procs p
  rw [hp] at hsaving
  obtain ⟨hcopy, hresolver⟩ := hsaving rfl
  exact ⟨hcopy, ⟨Table.key_of_find? hfind, row, hfind, rfl⟩, hresolver⟩

theorem writes (h : Backed c b s) (hlater : Later c s t) {p : Pid} {now : Time}
    {id : Uuid} {user : User} {dto : ResolveConversationDto} {entity : LoadedConversation}
    {reread : Conversation} {related : List Uuid} {nulls : Bool} {db : Database}
    (hp : s.procs p = .resolve id user dto (.writing entity reread related))
    (hsave : save nulls s.db entity reread related now = some db) (ht : t.db = db) :
    (Process.resolve id user dto (.saved (stamped db entity))).Backed c b t := by
  rintro rfl
  obtain ⟨w, hcoherent, -⟩ := h.coherent
  have hwriting := h.procs p
  rw [hp] at hwriting
  obtain ⟨hcopy, -, hresolver⟩ := hwriting rfl
  obtain ⟨r, hfind⟩ := hcoherent.found hp
  have hfind' := hcoherent.find?_writes hp hsave
  rw [hfind, Option.map_some, if_pos rfl, ← ht] at hfind'
  have hdetails : Conversation.details (stamped db entity).conv =
      Conversation.details entity.conv := by
    unfold stamped
    split <;> rfl
  have hcopied := hcopy.mono hlater
  refine ⟨⟨(stamped_id _ _).trans hcopied.1, ?_⟩,
    ⟨_, hfind', hcoherent.resolved_writes nulls now hp hfind⟩, ?_⟩
  · rw [hdetails]
    exact hcopied.2
  · rw [(Prod.mk.inj hdetails).1]
    exact hresolver.mono hlater

theorem enqueues (h : Backed c b s) {p : Pid} {id : Uuid} {user : User}
    {dto : ResolveConversationDto} {entity : LoadedConversation}
    (hp : s.procs p = .resolve id user dto (.noted entity)) (hid : id = c) :
    JobBacked c b s (resolutionJob entity.conv user dto) := by
  have hnoted := h.procs p
  rw [hp] at hnoted
  obtain ⟨⟨-, r, hfind, hdetails⟩, ⟨r', hfind', hstatus⟩, hresolver⟩ := hnoted hid
  cases hfind.symm.trans hfind'
  refine ⟨r, hfind, hstatus, hdetails, ?_⟩
  rw [(Prod.mk.inj hdetails).1]
  exact hresolver

theorem step {a : Action} (h : Backed c b s) (hkeyed : ∀ p, Keyed (s.procs p))
    (ha : Admitted s a) (hs : Step s a t) : Backed c b t := by
  have hlater := h.later hs
  have hset : ∀ p proc, proc.Backed c b t → ∀ q, (Function.update s.procs p proc q).Backed c b t := by
    intro p proc hproc
    exact (Function.forall_update_iff s.procs fun _ pr => pr.Backed c b t).mpr
      ⟨hproc, fun q _ => (h.procs q).mono hlater⟩
  have hat : ∀ {p proc}, s.procs p = proc → proc.Backed c b t :=
    fun hp => hp ▸ (h.procs _).mono hlater
  have hjobs : t.queue = s.queue → ∀ job ∈ t.queue, job.conversationId = c → JobBacked c b t job := by
    intro hqueue job hjob hc
    exact (h.jobs job (hqueue ▸ hjob) hc).mono hlater
  refine ⟨h.answered hs, ?_, ?_⟩
  · cases hs with
    | create => exact fun q => (h.procs q).mono hlater
    | loads hp hload => exact hset _ _ ((h.loads ha.1 (ha.2 _ rfl) hload).mono hlater)
    | checks hp hmay => exact hset _ _ ((h.checks _ hp hmay).mono hlater)
    | rereads hp hfind => exact hset _ _ ((h.rereads hp hfind).mono hlater)
    | writes hp _ hsave => exact hset _ _ (h.writes hlater hp hsave rfl)
    | noNote hp =>
      have hsaved := hat hp
      exact hset _ _ hsaved
    | notes hp =>
      have hsaved := hat hp
      exact hset _ _ hsaved
    | _ => exact hset _ _ trivial
  · cases hs with
    | @enqueues p id user dto entity hp =>
      intro job hjob hc
      simp only [State.enqueue_queue, State.set_queue, List.mem_append, List.mem_singleton] at hjob
      rcases hjob with hjob | rfl
      · exact (h.jobs job hjob hc).mono hlater
      · have hid := hkeyed p
        rw [hp] at hid
        exact (h.enqueues hp (hid.symm.trans hc)).mono hlater
    | _ => exact hjobs rfl

theorem store (h : Backed c b s) {db : Database} (hdb : s.db.Extends db)
    (hconvs : db.conversations = s.db.conversations) : Backed c b (s.store db) := by
  have hlater : Later c s (s.store db) := by
    refine ⟨hdb, fun r hr => ⟨r, ?_, rfl, id⟩, fun _ _ => rfl⟩
    rw [State.store_db, hconvs]
    exact hr
  obtain ⟨w, hcoherent, hclaimed⟩ := h.coherent
  refine ⟨⟨w, hcoherent.congr ?_ rfl rfl, fun u time hw => (hclaimed u time hw).mono hlater⟩,
    fun p => (h.procs p).mono hlater, fun job hjob hc => (h.jobs job hjob hc).mono hlater⟩
  rw [State.store_db, hconvs]

theorem start (db : Database) (c : Uuid) : Backed c (firstClaimant db c) (.initial db []) where
  coherent := ⟨none, Coherent.start_first db [] c, fun u time hw => by cases hw⟩
  procs _ := trivial
  jobs job hjob := by cases hjob

end Backed

end SupportApi.Conversations
