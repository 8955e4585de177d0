import SupportApi.Conversations.Intact

namespace SupportApi.Conversations

open Lib

variable {s t : State}

theorem claim_again {c : Uuid} {b : Option Uuid × Option Time} {w : Option (Uuid × Time)}
    {p q : Pid} {now : Time} {user user' : User} {reply reply' : Conversation}
    (h : Coherent c b w s) (hp : s.procs p = .claim c user (.returned (.ok reply)))
    (hs : machine.step s (.claimCommit q now) = some t)
    (hq : t.procs q = .claim c user' (.returned (.ok reply'))) : t.db = s.db := by
  cases step_iff.mp hs with
  | rollsBack => simp at hq
  | @commits _ _ id _ conv _ db hlocked hclaim =>
    simp only [State.store_procs, State.release_procs, State.set_procs, Function.update_self,
      Process.claim.injEq] at hq
    obtain ⟨rfl, -, -⟩ := hq
    obtain ⟨hstatus, ⟨-, -, rfl⟩ | ⟨hagent, -⟩⟩ := claimLocked_ok hclaim
    · rfl
    · obtain ⟨hw, hb⟩ := h.unclaimed (h.find?_locked hlocked).2 hstatus hagent
      have howner := h.procs p
      rw [hp] at howner
      rcases howner rfl with hmine | ⟨time, hmine⟩
      · cases hb.symm.trans hmine
      · cases hw.symm.trans hmine

theorem claim_writes_on_return {a : Action} {p : Pid} {id : Uuid} {user : User} {phase : ClaimPhase}
    (hs : machine.step s a = some t) (hne : t.procs p ≠ s.procs p)
    (hp : t.procs p = .claim id user phase) (hphase : ∀ reply, phase ≠ .returned (.ok reply)) :
    t.db = s.db := by
  have hproc : ∀ {q : Pid} {proc : Process}, Function.update s.procs q proc p ≠ s.procs p →
      q = p ∧ Function.update s.procs q proc p = proc := by
    intro q proc h
    have hqp : q = p := by
      by_contra hqp
      exact h (Function.update_of_ne (Ne.symm hqp) _ _)
    subst hqp
    exact ⟨rfl, Function.update_self _ _ _⟩
  cases step_iff.mp hs with
  | create => exact absurd rfl hne
  | commits =>
    obtain ⟨rfl, hupdate⟩ := hproc hne
    cases hupdate.symm.trans hp
    exact absurd rfl (hphase _)
  | writes =>
    obtain ⟨rfl, hupdate⟩ := hproc hne
    cases hupdate.symm.trans hp
  | notes =>
    obtain ⟨rfl, hupdate⟩ := hproc hne
    cases hupdate.symm.trans hp
  | _ => rfl

theorem claims_exclusive {db : Database} {queue : List ResolutionJob} {as : List Action} (c : Uuid)
    (hrun : machine.run (State.initial db queue) as = some s) :
    (∀ p q user user' reply reply', s.procs p = .claim c user (.returned (.ok reply)) →
      s.procs q = .claim c user' (.returned (.ok reply')) → user.id = user'.id) ∧
    (∀ a t p user phase, machine.step s a = some t → t.procs p ≠ s.procs p →
      t.procs p = .claim c user phase → (∀ reply, phase ≠ .returned (.ok reply)) → t.db = s.db) ∧
    (∀ p q now user user' reply reply' t, s.procs p = .claim c user (.returned (.ok reply)) →
      machine.step s (.claimCommit q now) = some t →
      t.procs q = .claim c user' (.returned (.ok reply')) → t.db = s.db) := by
  obtain ⟨b, hstart⟩ := Coherent.start db queue c
  obtain ⟨w, h⟩ := Machine.run_preserves (Coherent.preserves c b) ⟨none, hstart⟩ hrun
  refine ⟨?_, ?_, ?_⟩
  · intro p q user user' reply reply' hp hq
    have howner := h.procs p
    have howner' := h.procs q
    rw [hp] at howner
    rw [hq] at howner'
    exact (howner rfl).unique h.base (howner' rfl)
  · intro a t p user phase hs hne hp hphase
    exact claim_writes_on_return hs hne hp hphase
  · intro p q now user user' reply reply' t hp hs hq
    exact claim_again h hp hs hq

def Sample.claiming : List Action := [.claim 1 conversation agent.toUser, .claimLock 1]

def Sample.claimingTwice : List Action :=
  claiming ++ [.claimCommit 1 5, .claim 2 conversation agent.toUser, .claimLock 2]

theorem claims_exclusive_repeated : ∃ s t,
    machine.run (State.initial Sample.database []) Sample.claimingTwice = some s ∧
    machine.step s (.claimCommit 2 6) = some t ∧ t.db = s.db :=
  ⟨_, _, rfl, rfl,
    (@claims_exclusive _ Sample.database [] Sample.claimingTwice Sample.conversation rfl).2.2
      1 2 6 _ _ _ _ _ rfl rfl rfl⟩

/-- The step from `s` to `s'` commits the claim that assigns conversation `c` to `user`. -/
def Claims (c : Uuid) (user : User) (now : Time) (s s' : State) : Prop :=
  ∃ p conv reply, s.procs p = .claim c user (.locked conv) ∧ conv.assignedAgentId = none ∧
    machine.step s (.claimCommit p now) = some s' ∧
    s'.procs p = .claim c user (.returned (.ok reply))

def ClaimedBy (c u : Uuid) (time : Time) (s : State) : Prop :=
  ∃ r, s.db.conversations.find? c = some r ∧ r.assignedAgentId = some u ∧ r.claimedAt = some time

/-- The save of an entity read unassigned goes through, and the null is written: because the row
was assigned when `save` read it again, or because nulls are written anyway. -/
def StaleWrite (c : Uuid) (s : State) (a : Action) : Prop :=
  ∃ p now nulls user dto entity reread related, a = .resolveWrite p now nulls ∧
    s.procs p = .resolve c user dto (.writing entity reread related) ∧
    orphaned entity related = [] ∧ (columns entity).assignedAgentId = none ∧
    (reread.assignedAgentId ≠ none ∨ nulls = true)

theorem StaleWrite.of_torn {c : Uuid} {a : Action} (h : TornWrite c s a) : StaleWrite c s a := by
  obtain ⟨p, now, user, dto, entity, reread, related, _, ha, hp, hkept, hnone, -⟩ := h
  exact ⟨p, now, true, user, dto, entity, reread, related, ha, hp, hkept, hnone, Or.inr rfl⟩

theorem Claims.intact {c : Uuid} {b : Option Uuid × Option Time} {w : Option (Uuid × Time)}
    {user : User} {now : Time} (h : Coherent c b w s) (hclaims : Claims c user now s t) :
    Intact c b (some (user.id, now)) t ∧ ClaimedBy c user.id now t := by
  obtain ⟨p, conv, reply, hp, hagent, hs, hreply⟩ := hclaims
  have hcopies := fun hintact : Intact c b w s => hintact.copies_step (step_iff.mp hs).effect
  cases step_iff.mp hs with
  | rollsBack => simp at hreply
  | commits hlocked hclaim =>
    cases hp.symm.trans hlocked
    obtain ⟨hstatus, ⟨hmine, -, -⟩ | ⟨-, hupdate, -⟩⟩ := claimLocked_ok hclaim
    · cases hagent.symm.trans hmine
    · obtain ⟨rfl, hfind, hfirst⟩ := h.commits_first hp hstatus hagent hupdate
      obtain ⟨-, hclaimant, -⟩ := written_assigned conv user now
      obtain ⟨hagent', htime⟩ := Prod.mk.inj hclaimant
      refine ⟨⟨hfirst, fun r hr => ?_, fun q => ?_⟩, _, hfind, hagent', htime⟩
      · cases hfind.symm.trans hr
        exact Or.inr ⟨user.id, now, rfl, hclaimant⟩
      · exact (hcopies h.intact q).of_kept (Or.inl rfl)

theorem StaleWrite.not_claimedBy {c u : Uuid} {b : Option Uuid × Option Time}
    {w : Option (Uuid × Time)} {time : Time} {a : Action} (h : Coherent c b w s)
    (hstale : StaleWrite c s a) (hs : machine.step s a = some t) : ¬ClaimedBy c u time t := by
  rintro ⟨r, hfind, hagent, -⟩
  obtain ⟨p, now, nulls, user, dto, entity, reread, related, rfl, hp, hkept, hentity, hnull⟩ := hstale
  have hwritten : ∀ row : Conversation,
      (written nulls (columns entity) reread row now).assignedAgentId = none := by
    intro row
    change linked _ _ _ _ = none
    rw [hentity]
    rcases hnull with hreread | rfl
    · exact linked_of_ne nulls _ hreread.symm
    · exact if_pos ⟨rfl, rfl⟩
  cases step_iff.mp hs with
  | writeRefused hp' _ hsave =>
    cases hp.symm.trans hp'
    rw [save, if_pos hkept] at hsave
    obtain ⟨row, u', -, hagent', -⟩ := update_none hsave
    cases (hwritten row).symm.trans hagent'
  | writes hp' _ hsave =>
    cases hp.symm.trans hp'
    have hrow := h.find?_writes hp hsave
    simp only [if_true] at hrow
    rw [State.store_db, hrow, Option.map_eq_some_iff] at hfind
    obtain ⟨row, -, rfl⟩ := hfind
    cases (hwritten row).symm.trans hagent

theorem Whole.claimed_written {b : Option Uuid × Option Time} {u : Uuid} {time : Time}
    {nulls : Bool} {e reread r : Conversation} (now : Time) (hb : b.1 = none)
    (he : Whole b (some (u, time)) e) (hr : Whole b (some (u, time)) reread)
    (hfresh : e.assignedAgentId = none → reread.assignedAgentId = none ∧ nulls = false)
    (h : Conversation.claimant r = (some u, some time)) :
    Conversation.claimant (Conversations.written nulls e reread r now) = (some u, some time) := by
  have hclaim : ∀ {x : Conversation}, Whole b (some (u, time)) x →
      x.assignedAgentId = none ∧ Conversation.claimant x = b ∨
        Conversation.claimant x = (some u, some time) := by
    rintro x (hx | ⟨u', t', hw, hx⟩)
    · left
      exact ⟨(congrArg Prod.fst hx).trans hb, hx⟩
    · cases hw
      exact Or.inr hx
  rcases hclaim he with ⟨hnone, he⟩ | he
  · obtain ⟨hagent, hnulls⟩ := hfresh hnone
    rcases hclaim hr with ⟨-, hr⟩ | hr
    · rw [claimant_written_of_eq r now (he.trans hr.symm)]
      · exact h
      · intro htrue
        cases hnulls.symm.trans htrue
    · cases hagent.symm.trans (congrArg Prod.fst hr)
  · obtain ⟨hagent, htime⟩ := Prod.mk.inj he
    obtain ⟨hagent', htime'⟩ := Prod.mk.inj h
    rw [claimant_written, linked_eq_left, merge_eq_left, hagent, htime]
    · exact fun _ => htime'.trans htime.symm
    · exact fun _ => hagent'.trans hagent.symm

theorem ClaimedBy.step {c u : Uuid} {b : Option Uuid × Option Time} {time : Time} {a : Action}
    {w : Option (Uuid × Time)} (hintact : Intact c b (some (u, time)) s)
    (h : ClaimedBy c u time s) (hfresh : ¬StaleWrite c s a)
    (hrow : RowStep c s a t (some (u, time)) w) : ClaimedBy c u time t := by
  obtain ⟨r, hfind, hagent, htime⟩ := h
  cases hrow with
  | same hrow => exact ⟨r, hrow.trans hfind, hagent, htime⟩
  | created hnone => cases hnone.symm.trans hfind
  | claimed _ _ hw => cases hw
  | @written p now nulls user dto entity reread related _ ha hp hkept hfind' hwritten =>
    cases hfind.symm.trans hfind'
    have hcopies := hintact.copies p
    rw [hp] at hcopies
    obtain ⟨he, hreread⟩ := hcopies rfl
    have hread : (columns entity).assignedAgentId = none →
        reread.assignedAgentId = none ∧ nulls = false := by
      intro hnone
      by_contra hne
      refine hfresh ⟨p, now, nulls, user, dto, entity, reread, related, ha, hp, hkept, hnone, ?_⟩
      rwa [not_and_or, Bool.not_eq_false] at hne
    have hclaimant := he.claimed_written now (hintact.base (by simp)) hreread hread
      (Prod.ext hagent htime)
    exact ⟨_, hwritten, congrArg Prod.fst hclaimant, congrArg Prod.snd hclaimant⟩

/-- A committed claim stays, in every state of every continuation, exactly when
no resolve that read the conversation unassigned writes that null over the claim. -/
theorem claim_kept_iff {db : Database} {queue : List ResolutionJob} {pre post : List Action}
    {c : Uuid} {user : User} {now : Time} {s s' t : State}
    (hpre : machine.run (State.initial db queue) pre = some s) (hclaims : Claims c user now s s')
    (hpost : machine.run s' post = some t) :
    machine.Throughout (ClaimedBy c user.id now) s' post ↔
      machine.Along (fun s a => ¬StaleWrite c s a) s' post := by
  obtain ⟨b, hstart⟩ := Coherent.start db queue c
  obtain ⟨w, hs⟩ := Machine.run_preserves (Coherent.preserves c b) ⟨none, hstart⟩ hpre
  obtain ⟨hintact, hheld⟩ := hclaims.intact hs
  clear hs hclaims hpre
  induction post generalizing s' with
  | nil =>
    constructor
    · intro _
      trivial
    · intro _
      exact hheld
  | cons a post ih =>
    obtain ⟨u, hu, hpost⟩ := Machine.run_cons_some.mp hpost
    have hnext : ¬StaleWrite c s' a → ∃ w, Intact c b w u ∧
        RowStep c s' a u (some (user.id, now)) w :=
      fun hfresh => hintact.step (fun htorn => hfresh (.of_torn htorn)) (step_iff.mp hu)
    have hkept : ∀ {w}, RowStep c s' a u (some (user.id, now)) w → w = some (user.id, now) :=
      fun hrow => hrow.kept.resolve_left (by simp)
    constructor
    · rintro ⟨-, hthen⟩
      have hfresh : ¬StaleWrite c s' a :=
        fun hstale => hstale.not_claimedBy hintact.toCoherent hu (hthen u hu).start
      obtain ⟨w', hintact', hrow⟩ := hnext hfresh
      obtain rfl := hkept hrow
      refine ⟨hfresh, fun v hv => ?_⟩
      cases hu.symm.trans hv
      exact (ih hpost hintact' (hthen u hu).start).mp (hthen u hu)
    · rintro ⟨hfresh, hthen⟩
      obtain ⟨w', hintact', hrow⟩ := hnext hfresh
      obtain rfl := hkept hrow
      refine ⟨hheld, fun v hv => ?_⟩
      cases hu.symm.trans hv
      exact (ih hpost hintact' (hheld.step hintact hfresh hrow)).mpr (hthen u hu)

def Sample.overtaken : List Action :=
  [.resolve 0 conversation admin.toUser ⟨none⟩, .claim 1 conversation agent.toUser, .claimLock 1]

def Sample.overtakes : List Action := [.resolveCheck 0 6, .resolveReread 0, .resolveWrite 0 7 false]

theorem claim_lost : ¬∀ (db : Database) (queue : List ResolutionJob) (pre post : List Action)
    (c : Uuid) (user : User) (now : Time) (s s' t : State),
    machine.run (State.initial db queue) pre = some s → Claims c user now s s' →
    machine.run s' post = some t → machine.Throughout (ClaimedBy c user.id now) s' post := by
  intro h
  have hthroughout := h Sample.database [] Sample.overtaken Sample.overtakes Sample.conversation
    Sample.agent.toUser 5 _ _ _ rfl ⟨1, _, _, rfl, rfl, rfl, rfl⟩ rfl
  obtain ⟨r, hfind, hagent, -⟩ :=
    Machine.throughout_iff.mp hthroughout Sample.overtakes [] _ rfl rfl
  cases hfind
  cases hagent

def Sample.inTurn : List Action :=
  [.resolve 0 conversation admin.toUser ⟨none⟩, .resolveCheck 0 6, .resolveReread 0,
    .resolveWrite 0 7 true]

theorem claim_kept_in_turn : ∃ s s',
    machine.run (State.initial Sample.database []) Sample.claiming = some s ∧
    Claims Sample.conversation Sample.agent.toUser 5 s s' ∧
    machine.Throughout (ClaimedBy Sample.conversation Sample.agent.id 5) s' Sample.inTurn := by
  refine ⟨_, _, rfl, ⟨1, _, _, rfl, rfl, rfl, rfl⟩,
    (@claim_kept_iff Sample.database [] Sample.claiming Sample.inTurn _ _ 5 _ _ _ rfl
      ⟨1, _, _, rfl, rfl, rfl, rfl⟩ rfl).mpr ?_⟩
  rw [Sample.inTurn, Machine.along_cons rfl, Machine.along_cons rfl, Machine.along_cons rfl,
    Machine.along_cons rfl]
  refine ⟨?_, ?_, ?_, ?_, trivial⟩ <;>
    rintro ⟨p, now, nulls, user, dto, entity, reread, related, ha, hp, -, hnone, -⟩
  · cases ha
  · cases ha
  · cases ha
  · cases ha
    cases hp
    cases hnone

end SupportApi.Conversations
