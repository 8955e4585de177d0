import SupportApi.Conversations.Snapshots

namespace SupportApi.Conversations

open Lib

def jobsOf (c : Uuid) (queue : List ResolutionJob) : Nat :=
  queue.countP fun job => job.conversationId = c

def messagesOf (c : Uuid) (db : Database) : Nat :=
  db.messages.rows.countP fun m => m.conversationId = c

def Resolved (c : Uuid) (s : State) : Prop :=
  ∃ r, s.db.conversations.find? c = some r ∧ r.status = .resolved

def Keyed : Process → Prop
  | .resolve id _ _ (.loaded e) => e.conv.id = id
  | .resolve id _ _ (.saving e) => e.conv.id = id
  | .resolve id _ _ (.writing e _ _) => e.conv.id = id
  | .resolve id _ _ (.saved e) => e.conv.id = id
  | .resolve id _ _ (.noted e) => e.conv.id = id
  | _ => True

def Won (c : Uuid) : Process → Prop
  | .resolve id _ _ (.saved _) => id = c
  | .resolve id _ _ (.noted _) => id = c
  | .resolve id _ _ (.returned (.ok _)) => id = c
  | _ => False

def jobsDue (c : Uuid) : Process → Nat
  | .resolve id _ _ (.saved _) => if id = c then 1 else 0
  | .resolve id _ _ (.noted _) => if id = c then 1 else 0
  | _ => 0

def notesDue (c : Uuid) : Process → Nat
  | .resolve id _ _ (.saved _) => if id = c then 1 else 0
  | _ => 0

/-- One process at most has resolved `c`, and it has done or will do each effect
at most once; before it there were `j` jobs and `m` messages. -/
structure Once (c : Uuid) (j m : Nat) (s : State) : Prop where
  unique : ∀ p q, Won c (s.procs p) → Won c (s.procs q) → p = q
  resolved : ∀ p, Won c (s.procs p) → Resolved c s
  jobs : ∀ p, jobsOf c s.queue + jobsDue c (s.procs p) ≤ j + 1
  notes : ∀ p, messagesOf c s.db + notesDue c (s.procs p) ≤ m + 1
  before : ¬Resolved c s → jobsOf c s.queue ≤ j ∧ messagesOf c s.db ≤ m

theorem jobsDue_of_not_won {c : Uuid} {proc : Process} (h : ¬Won c proc) : jobsDue c proc = 0 := by
  unfold jobsDue
  split
  · exact if_neg h
  · exact if_neg h
  · rfl

theorem notesDue_of_not_won {c : Uuid} {proc : Process} (h : ¬Won c proc) :
    notesDue c proc = 0 := by
  unfold notesDue
  split
  · exact if_neg h
  · rfl

theorem jobsDue_le (c : Uuid) (proc : Process) : jobsDue c proc ≤ 1 := by
  unfold jobsDue
  split <;> grind

theorem notesDue_le (c : Uuid) (proc : Process) : notesDue c proc ≤ 1 := by
  unfold notesDue
  split <;> grind

theorem stamped_id (db : Database) (entity : LoadedConversation) :
    (stamped db entity).conv.id = entity.conv.id := by
  unfold stamped
  split <;> rfl

theorem Step.keyed {s t : State} {a : Action} (hs : Step s a t) (h : ∀ p, Keyed (s.procs p)) :
    ∀ p, Keyed (t.procs p) := by
  have hset : ∀ p proc, Keyed proc → ∀ q, Keyed (Function.update s.procs p proc q) := by
    intro p proc hproc
    exact (Function.forall_update_iff s.procs fun _ pr => Keyed pr).mpr ⟨hproc, fun q _ => h q⟩
  have hat : ∀ {p proc}, s.procs p = proc → Keyed proc := fun hp => hp ▸ h _
  cases hs with
  | create => exact h
  | loads _ hload =>
    obtain ⟨conv, hconv, rfl, -⟩ := findOne_ok hload
    exact hset _ _ (Table.key_of_find? (selectConversation_some hconv).1)
  | checks hp =>
    have hkeyed := hat hp
    exact hset _ _ hkeyed
  | rereads hp =>
    have hkeyed := hat hp
    exact hset _ _ hkeyed
  | writes hp => exact hset _ _ ((stamped_id _ _).trans (hat hp))
  | noNote hp =>
    have hkeyed := hat hp
    exact hset _ _ hkeyed
  | notes hp =>
    have hkeyed := hat hp
    exact hset _ _ hkeyed
  | _ => exact hset _ _ trivial

theorem RowStep.resolved_iff {c : Uuid} {s t : State} {a : Action} {w w' : Option (Uuid × Time)}
    (h : RowStep c s a t w w') (ha : ∀ p now nulls, a ≠ .resolveWrite p now nulls) :
    Resolved c t ↔ Resolved c s := by
  cases h with
  | same hrow => rw [Resolved, Resolved, hrow]
  | created hnone hfind hopened => simp [Resolved, hnone, hfind, hopened]
  | @claimed p user conv now _ _ _ hfind hstatus _ hfind' =>
    obtain ⟨hpending, _, _⟩ := written_assigned conv user now
    simp [Resolved, hfind, hfind', hpending, hstatus]
  | @written p now nulls _ _ _ _ _ _ ha' => exact absurd ha' (ha p now nulls)

namespace Once

variable {c : Uuid} {j m : Nat} {s t : State}

theorem set (h : Once c j m s) {p : Pid} {proc : Process} (hwon : Won c proc → Won c (s.procs p))
    (hjobs : jobsDue c proc ≤ jobsDue c (s.procs p))
    (hnotes : notesDue c proc ≤ notesDue c (s.procs p)) : Once c j m (s.set p proc) := by
  have hback : ∀ q, Won c (Function.update s.procs p proc q) → Won c (s.procs q) := by
    apply (Function.forall_update_iff s.procs fun q pr => Won c pr → Won c (s.procs q)).mpr
    exact ⟨hwon, fun q _ => id⟩
  constructor
  · intro q q' hq hq'
    exact h.unique q q' (hback q hq) (hback q' hq')
  · intro q hq
    exact h.resolved q (hback q hq)
  · apply (Function.forall_update_iff s.procs fun _ pr =>
      jobsOf c s.queue + jobsDue c pr ≤ j + 1).mpr
    exact ⟨le_trans (Nat.add_le_add_left hjobs _) (h.jobs p), fun q _ => h.jobs q⟩
  · apply (Function.forall_update_iff s.procs fun _ pr =>
      messagesOf c s.db + notesDue c pr ≤ m + 1).mpr
    exact ⟨le_trans (Nat.add_le_add_left hnotes _) (h.notes p), fun q _ => h.notes q⟩
  · exact h.before

theorem lose (h : Once c j m s) {p : Pid} {proc : Process} (hwon : ¬Won c proc) :
    Once c j m (s.set p proc) := by
  apply h.set
  · exact fun hw => absurd hw hwon
  · rw [jobsDue_of_not_won hwon]
    exact Nat.zero_le _
  · rw [notesDue_of_not_won hwon]
    exact Nat.zero_le _

theorem congr (h : Once c j m s) (hresolved : Resolved c t ↔ Resolved c s)
    (hnotes : messagesOf c t.db = messagesOf c s.db) (hjobs : jobsOf c t.queue = jobsOf c s.queue)
    (hprocs : t.procs = s.procs) : Once c j m t := by
  constructor
  · rw [hprocs]
    exact h.unique
  · rw [hprocs, hresolved]
    exact h.resolved
  · rw [hprocs, hjobs]
    exact h.jobs
  · rw [hprocs, hnotes]
    exact h.notes
  · rw [hresolved, hjobs, hnotes]
    exact h.before

theorem claims (h : Once c j m s) {p : Pid} {id : Uuid} {user : User} {phase : ClaimPhase} :
    Once c j m (s.set p (.claim id user phase)) :=
  h.lose fun hwon => hwon

theorem lost_of_ne (h : Once c j m s) {p q : Pid} (hp : Won c (s.procs p)) (hqp : q ≠ p) :
    ¬Won c (s.procs q) :=
  fun hq => hqp (h.unique q p hq hp)

theorem win (h : Once c j m s) {p : Pid} {proc : Process} {db : Database}
    (hbefore : ¬Resolved c s) (hafter : Resolved c ((s.set p proc).store db))
    (hmessages : db.messages = s.db.messages) :
    Once c j m ((s.set p proc).store db) := by
  obtain ⟨hjobs, hnotes⟩ := h.before hbefore
  have hmine : ∀ q, Won c (Function.update s.procs p proc q) → q = p := by
    intro q hq
    by_contra hqp
    rw [Function.update_of_ne hqp] at hq
    exact hbefore (h.resolved q hq)
  constructor
  · intro q q' hq hq'
    rw [hmine q hq, hmine q' hq']
  · exact fun _ _ => hafter
  · intro q
    exact Nat.add_le_add hjobs (jobsDue_le c _)
  · intro q
    change messagesOf c db + _ ≤ m + 1
    rw [messagesOf, hmessages]
    exact Nat.add_le_add hnotes (notesDue_le c _)
  · exact fun hopen => absurd hafter hopen

theorem noted (h : Once c j m s) {p : Pid} {id : Uuid} {user : User} {dto : ResolveConversationDto}
    {entity : LoadedConversation} (hp : s.procs p = .resolve id user dto (.saved entity)) :
    Once c j m (s.set p (.resolve id user dto (.noted entity))) := by
  apply h.set <;> rw [hp]
  · exact fun hwon => hwon
  · exact le_refl _
  · exact Nat.zero_le _

theorem replied (h : Once c j m s) {p : Pid} {id : Uuid} {user : User}
    {dto : ResolveConversationDto} {entity : LoadedConversation}
    (hp : s.procs p = .resolve id user dto (.noted entity)) :
    Once c j m (s.set p (.resolve id user dto (.returned (.ok entity)))) := by
  apply h.set <;> rw [hp]
  · exact fun hwon => hwon
  · exact Nat.zero_le _
  · exact Nat.zero_le _

theorem inserts (h : Once c j m s) {p : Pid} (hkeyed : Keyed (s.procs p)) {id : Uuid} {user : User}
    {dto : ResolveConversationDto} {entity : LoadedConversation} {note : String} {messageId : Uuid}
    {now : Time} {db : Database} (hp : s.procs p = .resolve id user dto (.saved entity))
    (hins : s.db.insertMessage (noteMessage entity.conv note messageId now) = some db) :
    Once c j m ((s.set p (.resolve id user dto (.noted entity))).store db) := by
  obtain ⟨hmessages, -, -, hconvs⟩ := Database.insertMessage_some hins
  have hnoted := h.noted hp
  have hresolved : Resolved c ((s.set p (.resolve id user dto (.noted entity))).store db) ↔
      Resolved c (s.set p (.resolve id user dto (.noted entity))) := by
    simp [Resolved, hconvs]
  have hid : entity.conv.id = id := by
    rw [hp] at hkeyed
    exact hkeyed
  have hcount : messagesOf c db = messagesOf c s.db + if id = c then 1 else 0 := by
    simp [messagesOf, hmessages, noteMessage, hid]
  by_cases hc : id = c
  · have hwon : Won c (s.procs p) := by
      rw [hp]
      exact hc
    rw [if_pos hc] at hcount
    have hbound := h.notes p
    rw [hp, notesDue, if_pos hc] at hbound
    refine ⟨hnoted.unique, ?_, hnoted.jobs, ?_, ?_⟩
    · intro q hq
      exact hresolved.mpr (hnoted.resolved q hq)
    · intro q
      change messagesOf c db + _ ≤ m + 1
      by_cases hqp : q = p
      · subst hqp
        rw [State.store_procs, State.set_procs, Function.update_self, hcount]
        exact hbound
      · rw [State.store_procs, State.set_procs, Function.update_of_ne hqp,
          notesDue_of_not_won (h.lost_of_ne hwon hqp), hcount]
        exact hbound
    · intro hopen
      exact absurd (hresolved.mpr (h.resolved p hwon)) hopen
  · rw [if_neg hc] at hcount
    exact hnoted.congr hresolved hcount rfl rfl

theorem enqueues (h : Once c j m s) {p : Pid} (hkeyed : Keyed (s.procs p)) {id : Uuid} {user : User}
    {dto : ResolveConversationDto} {entity : LoadedConversation}
    (hp : s.procs p = .resolve id user dto (.noted entity)) :
    Once c j m ((s.set p (.resolve id user dto (.returned (.ok entity)))).enqueue
      (resolutionJob entity.conv user dto)) := by
  have hreplied := h.replied hp
  have hid : entity.conv.id = id := by
    rw [hp] at hkeyed
    exact hkeyed
  have hcount : jobsOf c (s.queue ++ [resolutionJob entity.conv user dto]) =
      jobsOf c s.queue + if id = c then 1 else 0 := by
    simp [jobsOf, resolutionJob, hid]
  by_cases hc : id = c
  · have hwon : Won c (s.procs p) := by
      rw [hp]
      exact hc
    rw [if_pos hc] at hcount
    have hbound := h.jobs p
    rw [hp, jobsDue, if_pos hc] at hbound
    refine ⟨hreplied.unique, hreplied.resolved, ?_, hreplied.notes, ?_⟩
    · intro q
      change jobsOf c (s.queue ++ [resolutionJob entity.conv user dto]) + _ ≤ j + 1
      by_cases hqp : q = p
      · subst hqp
        rw [State.enqueue_procs, State.set_procs, Function.update_self, hcount]
        exact hbound
      · rw [State.enqueue_procs, State.set_procs, Function.update_of_ne hqp,
          jobsDue_of_not_won (h.lost_of_ne hwon hqp), hcount]
        exact hbound
    · intro hopen
      exact absurd (h.resolved p hwon) hopen
  · rw [if_neg hc] at hcount
    exact hreplied.congr Iff.rfl rfl hcount rfl

end Once

/-- The save of a resolve goes through on a row of `c` that is resolved or has its time set. -/
def Rewrites (c : Uuid) (s : State) (a : Action) : Prop :=
  ∃ p now nulls user dto entity reread related r, a = .resolveWrite p now nulls ∧
    s.procs p = .resolve c user dto (.writing entity reread related) ∧
    orphaned entity related = [] ∧ s.db.conversations.find? c = some r ∧
    (r.status = .resolved ∨ r.resolvedAt ≠ none)

theorem Once.writes {c : Uuid} {b : Option Uuid × Option Time} {w : Option (Uuid × Time)}
    {j m : Nat} {s : State} (hcoherent : Coherent c b w s) (h : Once c j m s) {p : Pid} {id : Uuid}
    {user : User} {dto : ResolveConversationDto} {entity : LoadedConversation}
    {reread : Conversation} {related : List Uuid} {now : Time} {nulls : Bool} {db : Database}
    (hp : s.procs p = .resolve id user dto (.writing entity reread related))
    (hsave : save nulls s.db entity reread related now = some db)
    (hfresh : ¬Rewrites c s (.resolveWrite p now nulls)) :
    Once c j m ((s.set p (.resolve id user dto (.saved (stamped db entity)))).store db) := by
  obtain ⟨hkept, hupdate⟩ := save_some hsave
  have hmessages := messages_update hupdate
  have hrow := hcoherent.find?_writes hp hsave
  by_cases hid : id = c
  · subst hid
    have hopen : ¬Resolved id s := by
      rintro ⟨r, hr, hstatus⟩
      exact hfresh ⟨p, now, nulls, user, dto, entity, reread, related, r, rfl, hp, hkept, hr,
        Or.inl hstatus⟩
    apply h.win hopen _ hmessages
    obtain ⟨row, hfind⟩ := hcoherent.found hp
    rw [hfind, Option.map_some, if_pos rfl] at hrow
    exact ⟨_, hrow, hcoherent.resolved_writes nulls now hp hfind⟩
  · have hlost : ¬Won c (.resolve id user dto (.saved (stamped db entity))) := hid
    apply (h.lose hlost).congr
    · simp only [if_neg hid, Option.map_id_fun', id_eq] at hrow
      simp [Resolved, hrow]
    · rw [messagesOf, messagesOf, State.store_db, hmessages]
      rfl
    · rfl
    · rfl

theorem Once.step {c : Uuid} {b : Option Uuid × Option Time} {w : Option (Uuid × Time)}
    {j m : Nat} {s t : State} {a : Action} (hcoherent : Coherent c b w s) (h : Once c j m s)
    (hkeyed : ∀ p, Keyed (s.procs p)) (hs : Step s a t) (hfresh : ¬Rewrites c s a) :
    Once c j m t := by
  obtain ⟨w', -, hrow⟩ := hcoherent.step hs
  cases hs with
  | create hcreate =>
    obtain ⟨hins, -⟩ := create_ok hcreate
    apply h.congr (hrow.resolved_iff (by simp)) _ rfl rfl
    rw [messagesOf, messagesOf, State.store_db, (Database.insertConversation_some hins).2.2.2]
  | claimRefused => exact h.claims
  | claimWaits => exact h.claims
  | lockMisses => exact h.claims
  | locks => exact h.claims.congr Iff.rfl rfl rfl rfl
  | rollsBack => exact h.claims.congr Iff.rfl rfl rfl rfl
  | @commits _ _ _ _ _ reply _ hp hclaim =>
    apply h.claims.congr (hrow.resolved_iff (by simp)) _ rfl rfl
    rcases (claimLocked_ok hclaim).2 with ⟨-, -, rfl⟩ | ⟨-, hupdate, -⟩
    · rfl
    · rw [messagesOf, messagesOf, State.store_db, messages_update hupdate]
      rfl
  | resolveMisses => exact h.lose id
  | loads => exact h.lose id
  | checkRefuses => exact h.lose id
  | checks => exact h.lose id
  | rereads => exact h.lose id
  | writeRefused => exact h.lose id
  | writes hp _ hsave => exact h.writes hcoherent hp hsave hfresh
  | noNote hp => exact h.noted hp
  | noteRefused => exact h.lose id
  | notes hp _ hins => exact h.inserts (hkeyed _) hp hins
  | enqueues hp => exact h.enqueues (hkeyed _) hp
  | waitFails => exact h.claims
  | claimFails => exact h.claims.congr Iff.rfl rfl rfl rfl
  | saveFails => exact h.lose id
  | writeFails => exact h.lose id
  | noteFails => exact h.lose id
  | enqueueFails => exact h.lose id

theorem Once.start (db : Database) (queue : List ResolutionJob) (c : Uuid) :
    Once c (jobsOf c queue) (messagesOf c db) (State.initial db queue) where
  unique _ _ hp := False.elim hp
  resolved _ hp := False.elim hp
  jobs _ := Nat.le_succ _
  notes _ := Nat.le_succ _
  before _ := ⟨le_refl _, le_refl _⟩

structure Untouched (c : Uuid) (first : Option Time) (s : State) : Prop where
  row : ∀ r, s.db.conversations.find? c = some r → r.status ≠ .resolved → r.resolvedAt = first
  absent : s.db.conversations.find? c = none → first = none

theorem Untouched.start (db : Database) (queue : List ResolutionJob) (c : Uuid) :
    Untouched c ((db.conversations.find? c).bind Conversation.resolvedAt)
      (State.initial db queue) where
  row r hr _ := by
    rw [show db.conversations.find? c = some r from hr]
    rfl
  absent hr := by
    rw [show db.conversations.find? c = none from hr]
    rfl

theorem Untouched.step {c : Uuid} {b : Option Uuid × Option Time} {w w' : Option (Uuid × Time)}
    {first : Option Time} {s t : State} {a : Action} (hcoherent : Coherent c b w s)
    (h : Untouched c first s) (hrow : RowStep c s a t w w') : Untouched c first t := by
  cases hrow with
  | same hrow => exact ⟨by rw [hrow]; exact h.row, by rw [hrow]; exact h.absent⟩
  | created hnone hfind _ _ hresolvedAt =>
    constructor
    · intro r hr _
      cases hfind.symm.trans hr
      exact hresolvedAt.trans (h.absent hnone).symm
    · exact fun _ => h.absent hnone
  | @claimed _ user conv now _ _ _ hfind hstatus _ hfind' =>
    obtain ⟨_, _, hresolvedAt⟩ := written_assigned conv user now
    constructor
    · intro r hr _
      cases hfind'.symm.trans hr
      exact hresolvedAt.trans (h.row conv hfind hstatus)
    · intro hr
      cases hfind'.symm.trans hr
  | @written _ now nulls _ _ _ _ _ _ _ hp _ hfind hfind' =>
    constructor
    · intro r hr hstatus
      cases hfind'.symm.trans hr
      exact absurd (hcoherent.resolved_writes nulls now hp hfind) hstatus
    · intro hr
      cases hfind'.symm.trans hr

structure ResolvedOnce (c : Uuid) (db : Database) (queue : List ResolutionJob) (s : State) :
    Prop where
  replies : ∀ p q user user' dto dto' reply reply',
    s.procs p = .resolve c user dto (.returned (.ok reply)) →
    s.procs q = .resolve c user' dto' (.returned (.ok reply')) → p = q
  jobs : jobsOf c s.queue ≤ jobsOf c queue + 1
  notes : messagesOf c s.db ≤ messagesOf c db + 1
  first : ∀ r, s.db.conversations.find? c = some r → r.status ≠ .resolved →
    r.resolvedAt = (db.conversations.find? c).bind Conversation.resolvedAt

/-- A resolution that `s` knows of, and a `resolvedAt` that is set, are still there in `t`. -/
def ResolvedAtKept (c : Uuid) (s t : State) : Prop :=
  ∀ r, s.db.conversations.find? c = some r → (r.status = .resolved ∨ r.resolvedAt ≠ none) →
    ∃ r', t.db.conversations.find? c = some r' ∧ (r.status = .resolved → r'.status = .resolved) ∧
      r'.resolvedAt = r.resolvedAt

theorem ResolvedAtKept.step {c : Uuid} {w w' : Option (Uuid × Time)} {s t : State} {a : Action}
    (hrow : RowStep c s a t w w') (hfresh : ¬Rewrites c s a) : ResolvedAtKept c s t := by
  intro r hr hdone
  cases hrow with
  | same hrow => exact ⟨r, hrow.trans hr, id, rfl⟩
  | created hnone => cases hnone.symm.trans hr
  | @claimed _ user conv now _ _ _ hfind hopen _ hfind' =>
    cases hfind.symm.trans hr
    exact ⟨_, hfind', fun hstatus => absurd hstatus hopen, (written_assigned r user now).2.2⟩
  | written ha hp hkept => exact absurd ⟨_, _, _, _, _, _, _, _, r, ha, hp, hkept, hr, hdone⟩ hfresh

theorem ResolvedAtKept.trans {c : Uuid} {s t u : State} (h : ResolvedAtKept c s t)
    (h' : ResolvedAtKept c t u) : ResolvedAtKept c s u := by
  intro r hr hdone
  obtain ⟨r', hr', hstatus, htime⟩ := h r hr hdone
  obtain ⟨r'', hr'', hstatus', htime'⟩ := h' r' hr' (hdone.imp hstatus (htime ▸ ·))
  exact ⟨r'', hr'', hstatus' ∘ hstatus, htime'.trans htime⟩

structure Single (c : Uuid) (b : Option Uuid × Option Time) (j m : Nat) (first : Option Time)
    (s : State) : Prop where
  coherent : ∃ w, Coherent c b w s
  keyed : ∀ p, Keyed (s.procs p)
  once : Once c j m s
  untouched : Untouched c first s

theorem Single.preserves (c : Uuid) (b : Option Uuid × Option Time) (j m : Nat)
    (first : Option Time) :
    machine.PreservesAlong (fun s a => ¬Rewrites c s a) (Single c b j m first) := by
  intro s a t h hfresh hs
  obtain ⟨w, hcoherent⟩ := h.coherent
  obtain ⟨w', hcoherent', hrow⟩ := hcoherent.step (step_iff.mp hs)
  exact ⟨⟨w', hcoherent'⟩, (step_iff.mp hs).keyed h.keyed,
    h.once.step hcoherent h.keyed (step_iff.mp hs) hfresh, h.untouched.step hcoherent hrow⟩

theorem Single.resolvedAt_kept {c : Uuid} {b : Option Uuid × Option Time} {j m : Nat}
    {first : Option Time} {s t : State} {as : List Action} (h : Single c b j m first s)
    (hfresh : machine.Along (fun s a => ¬Rewrites c s a) s as)
    (hrun : machine.run s as = some t) : ResolvedAtKept c s t := by
  induction as generalizing s with
  | nil =>
    cases hrun
    exact fun r hr _ => ⟨r, hr, id, rfl⟩
  | cons a as ih =>
    obtain ⟨u, hu, ht⟩ := Machine.run_cons_some.mp hrun
    obtain ⟨w, hcoherent⟩ := h.coherent
    obtain ⟨w', -, hrow⟩ := hcoherent.step (step_iff.mp hu)
    apply (ResolvedAtKept.step hrow hfresh.1).trans
    exact ih (Single.preserves c b j m first s a u h hfresh.1 hu) (hfresh.2 u hu) ht

/-- As long as no save meets a row that is resolved or has its time set, a conversation is
resolved at most once, with all that follows from it. -/
theorem resolved_once {db : Database} {queue : List ResolutionJob} {pre post : List Action}
    {c : Uuid} {s t : State} (hpre : machine.run (State.initial db queue) pre = some s)
    (hpost : machine.run s post = some t)
    (hfresh : machine.Along (fun s a => ¬Rewrites c s a) (State.initial db queue) pre)
    (hfresh' : machine.Along (fun s a => ¬Rewrites c s a) s post) :
    ResolvedOnce c db queue t ∧ ResolvedAtKept c s t := by
  obtain ⟨b, hstart⟩ := Coherent.start db queue c
  have hs := Machine.run_preserves_along (Single.preserves c b _ _ _)
    ⟨⟨none, hstart⟩, fun _ => trivial, Once.start db queue c, Untouched.start db queue c⟩ hfresh hpre
  have ht := Machine.run_preserves_along (Single.preserves c b _ _ _) hs hfresh' hpost
  refine ⟨⟨?_, ?_, ?_, ht.untouched.row⟩, hs.resolvedAt_kept hfresh' hpost⟩
  · intro p q user user' dto dto' reply reply' hp hq
    apply ht.once.unique
    · rw [hp]
      exact rfl
    · rw [hq]
      exact rfl
  · exact le_trans (Nat.le_add_right _ _) (ht.once.jobs 0)
  · exact le_trans (Nat.le_add_right _ _) (ht.once.notes 0)

def Sample.resolving : List Action :=
  [.resolve 0 conversation admin.toUser ⟨some "Refunded"⟩, .resolveCheck 0 6, .resolveReread 0,
    .resolveWrite 0 7 true, .resolveNote 0 ⟨5⟩ 8, .resolveEnqueue 0]

theorem resolved_once_alone : ∃ s,
    machine.run (State.initial Sample.database []) Sample.resolving = some s ∧
    ResolvedOnce Sample.conversation Sample.database [] s ∧
    jobsOf Sample.conversation s.queue = 1 ∧ messagesOf Sample.conversation s.db = 1 := by
  refine ⟨_, rfl, (@resolved_once Sample.database [] Sample.resolving [] _ _ _ rfl rfl ?_ trivial).1,
    rfl, rfl⟩
  rw [Sample.resolving, Machine.along_cons rfl, Machine.along_cons rfl, Machine.along_cons rfl,
    Machine.along_cons rfl, Machine.along_cons rfl, Machine.along_cons rfl]
  refine ⟨?_, ?_, ?_, ?_, ?_, ?_, trivial⟩ <;>
    rintro ⟨p, now, nulls, user, dto, entity, reread, related, r, ha, -, -, hr, hdone⟩ <;> cases ha
  cases hr
  rcases hdone with hstatus | htime
  · cases hstatus
  · exact htime rfl

def Sample.racing : List Action :=
  [.resolve 0 conversation admin.toUser ⟨some "Refunded"⟩,
    .resolve 1 conversation admin.toUser ⟨some "Refunded"⟩, .resolveCheck 0 6, .resolveCheck 1 7,
    .resolveReread 0, .resolveReread 1, .resolveWrite 0 8 true, .resolveWrite 1 9 true,
    .resolveNote 0 ⟨5⟩ 10, .resolveNote 1 ⟨6⟩ 11, .resolveEnqueue 0, .resolveEnqueue 1]

theorem resolved_twice : ¬∀ (db : Database) (queue : List ResolutionJob) (pre post : List Action)
    (c : Uuid) (s t : State),
    (∀ r, db.conversations.find? c = some r → r.status ≠ .resolved) →
    machine.run (State.initial db queue) pre = some s → machine.run s post = some t →
    ResolvedOnce c db queue t ∧ ResolvedAtKept c s t := by
  intro h
  have hopen : ∀ r, Sample.database.conversations.find? Sample.conversation = some r →
      r.status ≠ .resolved := by
    intro r hr
    cases hr
    decide
  have hreplies :=
    (h Sample.database [] Sample.racing [] Sample.conversation _ _ hopen rfl rfl).1.replies
      0 1 _ _ _ _ _ _ rfl rfl
  cases hreplies

end SupportApi.Conversations
