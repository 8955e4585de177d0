import SupportApi.Conversations.Intact

namespace SupportApi.Conversations

open Lib

/-- What the four columns of a conversation say together. -/
structure Sound (r : Conversation) : Prop where
  status : r.status = .opened ∨ r.status = .pending ∨ r.status = .resolved
  opened : r.status = .opened → r.assignedAgentId = none ∧ r.claimedAt = none ∧ r.resolvedAt = none
  pending : r.status = .pending →
    r.assignedAgentId ≠ none ∧ r.claimedAt ≠ none ∧ r.resolvedAt = none
  resolved : r.status = .resolved ↔ r.resolvedAt ≠ none
  assigned : r.assignedAgentId = none ↔ r.claimedAt = none

/-- The status moves from `opened` to `pending` to `resolved`, or past `pending`. -/
inductive Advances : ConversationStatus → ConversationStatus → Prop
  | stays {a} : Advances a a
  | claimed : Advances .opened .pending
  | resolved : Advances .opened .resolved
  | resolvedPending : Advances .pending .resolved

theorem Advances.trans {a b c : ConversationStatus} (h : Advances a b) (h' : Advances b c) :
    Advances a c := by
  cases h with
  | stays => exact h'
  | claimed =>
    cases h' with
    | stays => exact .claimed
    | resolvedPending => exact .resolved
  | resolved => cases h'; exact .resolved
  | resolvedPending => cases h'; exact .resolvedPending

def Staged (w : Option (Uuid × Time)) (r : Conversation) : Prop :=
  match r.status with
  | .opened => w = none ∧ r.resolvedAt = none
  | .pending => w ≠ none ∧ r.resolvedAt = none
  | .resolved => r.resolvedAt ≠ none
  | .closed => False

def Timed (c : Uuid) : Process → Prop
  | .resolve id _ _ (.saving e) => id = c → (columns e).resolvedAt ≠ none
  | .resolve id _ _ (.writing e reread _) => id = c →
      (columns e).resolvedAt ≠ none ∧ (reread.resolvedAt ≠ none → reread.status = .resolved)
  | _ => True

structure Living (c : Uuid) (w : Option (Uuid × Time)) (s : State) : Prop
    extends Coherent c (none, none) w s where
  staged : ∀ r, s.db.conversations.find? c = some r → Staged w r
  timed : ∀ p, Timed c (s.procs p)

theorem Staged.status {w : Option (Uuid × Time)} {r : Conversation} (h : Staged w r) :
    r.status = .opened ∧ w = none ∧ r.resolvedAt = none ∨
      r.status = .pending ∧ w ≠ none ∧ r.resolvedAt = none ∨
        r.status = .resolved ∧ r.resolvedAt ≠ none := by
  unfold Staged at h
  cases hstatus : r.status <;> simp_all

theorem Staged.resolved_iff {w : Option (Uuid × Time)} {r : Conversation} (h : Staged w r) :
    r.status = .resolved ↔ r.resolvedAt ≠ none := by
  rcases h.status with ⟨hstatus, -, hnone⟩ | ⟨hstatus, -, hnone⟩ | ⟨hstatus, hsome⟩
  · simp [hstatus, hnone]
  · simp [hstatus, hnone]
  · simp [hstatus, hsome]

theorem Whole.assigned_iff {w : Option (Uuid × Time)} {r : Conversation}
    (h : Whole (none, none) w r) : r.assignedAgentId = none ↔ r.claimedAt = none := by
  rcases h with h | ⟨u, t, -, h⟩
  · obtain ⟨hagent, htime⟩ := Prod.mk.inj h
    simp [hagent, htime]
  · obtain ⟨hagent, htime⟩ := Prod.mk.inj h
    simp [hagent, htime]

theorem Staged.sound {w : Option (Uuid × Time)} {r : Conversation} (h : Staged w r)
    (hrow : RowOk (none, none) w r) (hwhole : Whole (none, none) w r) : Sound r where
  status := by
    rcases h.status with h | h | h
    · exact Or.inl h.1
    · exact Or.inr (Or.inl h.1)
    · exact Or.inr (Or.inr h.1)
  opened hopened := by
    rw [Staged, hopened] at h
    obtain ⟨rfl, hnone⟩ := h
    obtain ⟨hagent, htime⟩ := Prod.mk.inj hrow.assigned.first
    exact ⟨hagent, htime, hnone⟩
  pending hpending := by
    rw [Staged, hpending] at h
    obtain ⟨x, hw⟩ := Option.ne_none_iff_exists'.mp h.1
    rcases hrow.claimed x.1 x.2 hw with hres | hclaimant
    · cases hpending.symm.trans hres
    · obtain ⟨hagent, htime⟩ := Prod.mk.inj hclaimant
      exact ⟨by simp [hagent], by simp [htime], h.2⟩
  resolved := h.resolved_iff
  assigned := hwhole.assigned_iff

theorem Timed.of_quiet {c : Uuid} {proc : Process} (h : proc.quiet = true) : Timed c proc := by
  unfold Timed
  split <;> trivial

theorem Staged.written {w : Option (Uuid × Time)} {e reread r : Conversation} (nulls : Bool)
    (now : Time) (hstatus : e.status = .resolved) (htime : e.resolvedAt ≠ none)
    (hreread : reread.resolvedAt ≠ none → reread.status = .resolved) (hstable : Stable (some r) reread)
    (h : Staged w r) : Staged w (written nulls e reread r now) := by
  have hresolved := hstable.written nulls now hstatus
  rw [Staged, hresolved]
  change merge e.resolvedAt reread.resolvedAt r.resolvedAt ≠ none
  by_cases heq : e.resolvedAt = reread.resolvedAt
  · rw [heq, merge_self]
    obtain ⟨r', hr', hres⟩ := hstable (hreread (heq ▸ htime))
    cases hr'
    exact h.resolved_iff.mp hres
  · rw [merge_of_ne _ heq]
    exact htime

namespace Living

variable {c : Uuid} {w : Option (Uuid × Time)} {s t : State}

theorem start {db : Database} (queue : List ResolutionJob) {c : Uuid}
    (habsent : db.conversations.find? c = none) : Living c none (State.initial db queue) where
  toCoherent := Coherent.start_absent queue habsent
  staged r hr := by cases habsent.symm.trans hr
  timed p := trivial

theorem staged_of_row {a : Action} {w' : Option (Uuid × Time)} (h : Living c w s)
    (hrow : RowStep c s a t w w') {r : Conversation} (hr : t.db.conversations.find? c = some r) :
    Staged w' r ∧ ∀ r', s.db.conversations.find? c = some r' → Advances r'.status r.status := by
  cases hrow with
  | same hrow =>
    rw [hrow] at hr
    refine ⟨h.staged r hr, fun r' hr' => ?_⟩
    cases hr.symm.trans hr'
    exact .stays
  | created hnone hfind hopened _ hresolvedAt =>
    cases hfind.symm.trans hr
    constructor
    · rw [Staged, hopened]
      exact ⟨(h.absent hnone).2, hresolvedAt⟩
    · intro r' hr'
      cases hnone.symm.trans hr'
  | @claimed p user conv now _ _ hw hfind hstatus _ hfind' =>
    cases hfind'.symm.trans hr
    obtain ⟨hpending, _, hresolvedAt⟩ := written_assigned conv user now
    rcases (h.staged conv hfind).status with ⟨hopened, -, hnone⟩ | ⟨-, hclaimed, -⟩ | ⟨hres, -⟩
    · rw [Staged, hpending]
      refine ⟨⟨by simp, hresolvedAt.trans hnone⟩, fun r' hr' => ?_⟩
      cases hfind.symm.trans hr'
      rw [hopened]
      exact .claimed
    · exact absurd hw hclaimed
    · exact absurd hres hstatus
  | @written p now nulls user dto entity reread _ row _ hp _ hfind hfind' =>
    cases hfind'.symm.trans hr
    have hproc := h.procs p
    have htimed := h.timed p
    rw [hp] at hproc htimed
    obtain ⟨hstatus, -, -, hstable, -⟩ := hproc.2 rfl
    obtain ⟨htime, hreread⟩ := htimed rfl
    rw [hfind] at hstable
    refine ⟨(h.staged row hfind).written nulls now hstatus htime hreread hstable, fun r' hr' => ?_⟩
    cases hfind.symm.trans hr'
    rw [hstable.written nulls now hstatus]
    rcases (h.staged row hfind).status with ⟨hrow, -⟩ | ⟨hrow, -⟩ | ⟨hrow, -⟩ <;> rw [hrow]
    · exact .resolved
    · exact .resolvedPending
    · exact .stays

theorem timed_set (h : Living c w s) {p : Pid} {proc : Process} (hproc : Timed c proc) :
    ∀ q, Timed c (Function.update s.procs p proc q) :=
  (Function.forall_update_iff s.procs fun _ pr => Timed c pr).mpr ⟨hproc, fun q _ => h.timed q⟩

theorem timed_step {a : Action} (h : Living c w s) (hs : Effect s a t) :
    ∀ p, Timed c (t.procs p) := by
  cases hs with
  | create => exact h.timed
  | quiet hquiet _ _ hprocs =>
    rw [hprocs]
    exact h.timed_set (.of_quiet hquiet)
  | locks => exact h.timed_set trivial
  | rollsBack => exact h.timed_set trivial
  | commits => exact h.timed_set trivial
  | loads => exact h.timed_set trivial
  | checks => exact h.timed_set fun _ => by simp [columns, resolved]
  | @rereads p _ _ _ _ _ hp hfind =>
    apply h.timed_set
    rintro rfl
    have htimed := h.timed p
    rw [hp] at htimed
    exact ⟨htimed rfl, (h.staged _ hfind).resolved_iff.mpr⟩
  | writes => exact h.timed_set trivial

theorem step {a : Action} (h : Living c w s) (hs : Step s a t) :
    ∃ w', Living c w' t ∧ RowStep c s a t w w' := by
  obtain ⟨w', hcoherent, hrow⟩ := h.toCoherent.step hs
  refine ⟨w', ⟨hcoherent, ?_, h.timed_step hs.effect⟩, hrow⟩
  intro r hr
  exact (h.staged_of_row hrow hr).1

theorem preserves (c : Uuid) : machine.Preserves fun s => ∃ w, Living c w s := by
  rintro s a t ⟨w, h⟩ hs
  obtain ⟨w', h', -⟩ := h.step (step_iff.mp hs)
  exact ⟨w', h'⟩

theorem advances {as : List Action} (h : Living c w s) (hrun : machine.run s as = some t) :
    ∀ r, s.db.conversations.find? c = some r →
      ∃ r', t.db.conversations.find? c = some r' ∧ Advances r.status r'.status := by
  refine Machine.run_rel (preserves c) (R := fun s t => ∀ r, s.db.conversations.find? c = some r →
    ∃ r', t.db.conversations.find? c = some r' ∧ Advances r.status r'.status) ?_ ?_ ?_ ⟨w, h⟩ hrun
  · intro s r hr
    exact ⟨r, hr, .stays⟩
  · intro s t u hst htu r hr
    obtain ⟨r', hr', hadvances⟩ := hst r hr
    obtain ⟨r'', hr'', hadvances'⟩ := htu r' hr'
    exact ⟨r'', hr'', hadvances.trans hadvances'⟩
  · rintro s a t ⟨w, h⟩ hs r hr
    obtain ⟨w', -, hrow⟩ := h.step (step_iff.mp hs)
    obtain ⟨r', hr'⟩ := hrow.persists hr
    exact ⟨r', hr', (h.staged_of_row hrow hr').2 r hr⟩

end Living

def Forward (s t : State) : Prop :=
  ∀ c r, s.db.conversations.find? c = some r →
    ∃ r', t.db.conversations.find? c = some r' ∧ Advances r.status r'.status

def AllSound (s : State) : Prop := ∀ r ∈ s.db.conversations.rows, Sound r

def AllLiving (s : State) : Prop := ∀ c, ∃ w, Living c w s ∧ Intact c (none, none) w s

namespace AllLiving

variable {s t : State}

theorem start {db : Database} (queue : List ResolutionJob) (hempty : db.conversations.rows = []) :
    AllLiving (State.initial db queue) := by
  intro c
  have habsent : db.conversations.find? c = none := by simp [Table.find?, hempty]
  exact ⟨none, Living.start queue habsent, (Coherent.start_absent queue habsent).intact⟩

theorem allSound (h : AllLiving s) : AllSound s := by
  intro r hr
  obtain ⟨w, hliving, hintact⟩ := h r.id
  have hfind := Table.find?_self hr
  exact (hliving.staged r hfind).sound (hliving.row r hfind) (hintact.rows r hfind)

theorem step {a : Action} (h : AllLiving s) (ha : ∀ c, ¬TornWrite c s a) (hs : Step s a t) :
    AllLiving t := by
  intro c
  obtain ⟨w, hliving, hintact⟩ := h c
  obtain ⟨w', hintact', hrow⟩ := hintact.step (ha c) hs
  refine ⟨w', ⟨hintact'.toCoherent, ?_, hliving.timed_step hs.effect⟩, hintact'⟩
  intro r hr
  exact (hliving.staged_of_row hrow hr).1

theorem not_allSound {c : Uuid} {a : Action} (h : AllLiving s) (htorn : TornWrite c s a)
    (hs : Step s a t) : ¬AllSound t := by
  intro hsound
  obtain ⟨w, hliving, hintact⟩ := h c
  obtain ⟨p, now, user, dto, entity, reread, related, r, rfl, hp, hkept, hnone, hnone', hfind,
    hagent⟩ := htorn
  have hcopies := hintact.copies p
  rw [hp] at hcopies
  obtain ⟨he, hreread⟩ := hcopies rfl
  have htime : (columns entity).claimedAt = reread.claimedAt :=
    (he.assigned_iff.mp hnone).trans (hreread.assigned_iff.mp hnone').symm
  cases hs with
  | writeRefused hp' _ hsave =>
    cases hp.symm.trans hp'
    rw [save, if_pos hkept] at hsave
    obtain ⟨row, u, -, hagent', -⟩ := update_none hsave
    rw [show (written true (columns entity) reread row now).assignedAgentId = none from
      if_pos ⟨rfl, hnone⟩] at hagent'
    cases hagent'
  | writes hp' _ hsave =>
    cases hp.symm.trans hp'
    have hrow := hintact.toCoherent.find?_writes hp hsave
    rw [hfind, Option.map_some, if_pos rfl] at hrow
    have hassigned := (hsound _ (Table.mem_of_find? hrow)).assigned.mp (if_pos ⟨rfl, hnone⟩)
    change merge _ _ _ = none at hassigned
    rw [htime, merge_self] at hassigned
    exact hagent ((hintact.rows r hfind).assigned_iff.mpr hassigned)

theorem throughout_iff {as : List Action} (h : AllLiving s) (hrun : machine.run s as = some t) :
    machine.Throughout AllSound s as ↔ machine.Along (fun s a => ∀ c, ¬TornWrite c s a) s as := by
  induction as generalizing s with
  | nil =>
    constructor
    · intro _
      trivial
    · intro _
      exact h.allSound
  | cons a as ih =>
    obtain ⟨u, hu, ht⟩ := Machine.run_cons_some.mp hrun
    have hstep := step_iff.mp hu
    constructor
    · rintro ⟨-, hthen⟩
      have huntorn : ∀ c, ¬TornWrite c s a :=
        fun c htorn => h.not_allSound htorn hstep (hthen u hu).start
      refine ⟨huntorn, fun v hv => ?_⟩
      cases hu.symm.trans hv
      exact (ih (h.step huntorn hstep) ht).mp (hthen u hu)
    · rintro ⟨huntorn, hthen⟩
      refine ⟨h.allSound, fun v hv => ?_⟩
      cases hu.symm.trans hv
      exact (ih (h.step huntorn hstep) ht).mpr (hthen u hu)

end AllLiving

theorem forward {db : Database} {queue : List ResolutionJob} {pre post : List Action} {s t : State}
    (hempty : db.conversations.rows = [])
    (hpre : machine.run (State.initial db queue) pre = some s)
    (hpost : machine.run s post = some t) : Forward s t := by
  intro c r hr
  have habsent : db.conversations.find? c = none := by simp [Table.find?, hempty]
  obtain ⟨w, h⟩ := Machine.run_preserves (Living.preserves c) ⟨none, Living.start queue habsent⟩ hpre
  exact h.advances hpost r hr

/-- From an empty table the conversations are sound in every state of a run, and their status
only advances, if and only if no save of the run tears a row. -/
theorem conversations_lifecycle_iff {db : Database} {queue : List ResolutionJob}
    {as : List Action} {t : State} (hempty : db.conversations.rows = [])
    (hrun : machine.run (State.initial db queue) as = some t) :
    (machine.Throughout AllSound (State.initial db queue) as ∧
      ∀ pre mid post s s', as = pre ++ mid ++ post →
        machine.run (State.initial db queue) pre = some s → machine.run s mid = some s' →
        Forward s s') ↔
      machine.Along (fun s a => ∀ c, ¬TornWrite c s a) (State.initial db queue) as := by
  have hiff := (AllLiving.start queue hempty).throughout_iff hrun
  constructor
  · rintro ⟨hsound, -⟩
    exact hiff.mp hsound
  · intro huntorn
    refine ⟨hiff.mpr huntorn, fun pre mid post s s' _ hpre hmid => ?_⟩
    exact forward hempty hpre hmid

namespace Sample

def torn : List Action :=
  [.create admin.toUser dto conversation 0, .resolve 0 conversation admin.toUser ⟨none⟩,
    .resolveCheck 0 3, .resolveReread 0, .claim 1 conversation agent.toUser, .claimLock 1,
    .claimCommit 1 5, .resolveWrite 0 7 true]

def stale : List Action :=
  [.create admin.toUser dto conversation 0, .resolve 0 conversation admin.toUser ⟨none⟩,
    .claim 1 conversation agent.toUser, .claimLock 1, .claimCommit 1 5, .resolveCheck 0 6,
    .resolveReread 0, .resolveWrite 0 7 true]

end Sample

theorem conversations_torn : ¬∀ (db : Database) (queue : List ResolutionJob) (as : List Action)
    (t : State), db.conversations.rows = [] → machine.run (State.initial db queue) as = some t →
    AllSound t := by
  intro h
  have hsound := h Sample.staffed [] Sample.torn _ rfl rfl
  have hrow := (hsound _ (List.mem_singleton.mpr rfl)).assigned.mp rfl
  cases hrow

theorem conversations_lifecycle_stale : ∃ t,
    machine.run (State.initial Sample.staffed []) Sample.stale = some t ∧
    machine.Throughout AllSound (State.initial Sample.staffed []) Sample.stale ∧
    (t.db.conversations.find? Sample.conversation).map (fun r => (r.status, r.assignedAgentId)) =
      some (.resolved, none) := by
  refine ⟨_, rfl,
    ((@conversations_lifecycle_iff Sample.staffed [] Sample.stale _ rfl rfl).mpr ?_).1, rfl⟩
  rw [Sample.stale, Machine.along_cons rfl, Machine.along_cons rfl, Machine.along_cons rfl,
    Machine.along_cons rfl, Machine.along_cons rfl, Machine.along_cons rfl, Machine.along_cons rfl,
    Machine.along_cons rfl]
  refine ⟨?_, ?_, ?_, ?_, ?_, ?_, ?_, ?_, trivial⟩ <;>
    rintro c ⟨p, now, user, dto, entity, reread, related, r, ha, hp, -, -, hnone, -⟩ <;> cases ha
  cases hp
  cases hnone

end SupportApi.Conversations
