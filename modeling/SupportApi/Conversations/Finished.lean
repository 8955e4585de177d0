import SupportApi.Conversations.Claims

namespace SupportApi.Conversations

open Lib

variable {s t : State} {c : Uuid}

def ConversationStatus.Finished (status : ConversationStatus) : Prop :=
  status = .resolved ∨ status = .closed

def FinishedAt (c : Uuid) (s : State) : Prop :=
  ∃ r, s.db.conversations.find? c = some r ∧ ConversationStatus.Finished r.status

/-- A claim commits that has locked a closed conversation of nobody, for a user of the
`users` table. -/
def ClaimsClosed (s : State) (a : Action) : Prop :=
  ∃ p now id user conv, a = .claimCommit p now ∧ s.procs p = .claim id user (.locked conv) ∧
    conv.status = .closed ∧ conv.assignedAgentId = none ∧ (s.db.users.find? user.id).isSome

theorem claimLocked_closed {db : Database} {conv : Conversation} {user : User} (now : Time)
    (hstatus : conv.status = .closed) (hagent : conv.assignedAgentId = none)
    (huser : (db.users.find? user.id).isSome) {e : Exception} :
    claimLocked db conv user now ≠ .error e := by
  intro hclaim
  simp only [claimLocked, hstatus, hagent, reduceCtorEq, if_false, Option.isSome_none,
    Bool.false_eq_true, false_and] at hclaim
  split at hclaim
  · rename_i hrefused
    obtain ⟨row, a, -, hwritten, hmissing⟩ := update_none hrefused
    have hclaimant : (written true (assigned conv user now) conv row now).assignedAgentId =
        some user.id := by
      have hne : (assigned conv user now).assignedAgentId ≠ conv.assignedAgentId := by
        simp [assigned, hagent]
      exact linked_of_ne true row.assignedAgentId hne
    cases hclaimant.symm.trans hwritten
    simp [hmissing] at huser
  · cases hclaim

theorem ClaimsClosed.reopens {a : Action} (h : ClaimsClosed s a) (hs : machine.step s a = some t)
    (hcoherent : ∀ c, ∃ b w, Coherent c b w s) : ∃ c, FinishedAt c s ∧ ¬FinishedAt c t := by
  obtain ⟨p, now, id, user, conv, rfl, hp, hstatus, hagent, huser⟩ := h
  obtain ⟨b, w, hid⟩ := hcoherent id
  refine ⟨id, ⟨conv, (hid.find?_locked hp).2, Or.inr hstatus⟩, ?_⟩
  rintro ⟨r, hfind, hfinished⟩
  cases step_iff.mp hs with
  | rollsBack hp' hclaim =>
    cases hp.symm.trans hp'
    exact claimLocked_closed now hstatus hagent huser hclaim
  | commits hp' hclaim =>
    cases hp.symm.trans hp'
    obtain ⟨hopen, ⟨hmine, -, -⟩ | ⟨-, hupdate, -⟩⟩ := claimLocked_ok hclaim
    · cases hagent.symm.trans hmine
    · obtain ⟨-, hwritten, -⟩ :=
        @Coherent.commits_first _ _ _ _ hid _ _ _ conv _ _ hp hopen hagent hupdate
      cases hfind.symm.trans hwritten
      have hpending := (written_assigned conv user now).1
      rcases hfinished with hresolved | hclosed
      · cases hpending.symm.trans hresolved
      · cases hpending.symm.trans hclosed

theorem FinishedAt.step {a : Action} {b : Option Uuid × Option Time} {w : Option (Uuid × Time)}
    (h : FinishedAt c s) (hcoherent : Coherent c b w s) (ha : ¬ClaimsClosed s a)
    (hs : Step s a t) : FinishedAt c t := by
  obtain ⟨r, hfind, hfinished⟩ := h
  obtain ⟨w', -, hrow⟩ := hcoherent.step hs
  cases hrow with
  | same hsame => exact ⟨r, hsame.trans hfind, hfinished⟩
  | created habsent => cases habsent.symm.trans hfind
  | @claimed p user conv now heq hp hw hconv hopen hagent hwritten =>
    cases hconv.symm.trans hfind
    have hclosed : r.status = .closed := hfinished.resolve_left hopen
    -- the assignee of the new row is a user, or the foreign key had refused it
    have huser := t.db.conversations_agent _ (Table.mem_of_find? hwritten) user.id
      (congrArg Prod.fst (written_assigned r user now).2.1)
    rw [hs.users] at huser
    exact absurd ⟨p, now, c, user, r, heq, hp, hclosed, hagent, huser⟩ ha
  | written _ hp _ hconv hwritten =>
    exact ⟨_, hwritten, Or.inl (hcoherent.resolved_writes _ _ hp hconv)⟩

/-- Finished conversations stay finished in a run exactly when no claim of the run commits
on a closed conversation of nobody. -/
theorem finished_kept_iff {db : Database} {queue : List ResolutionJob} {as : List Action}
    (hrun : machine.run (State.initial db queue) as = some t) :
    (∀ pre post s c, as = pre ++ post → machine.run (State.initial db queue) pre = some s →
        FinishedAt c s → machine.Throughout (FinishedAt c) s post) ↔
      machine.Along (fun s a => ¬ClaimsClosed s a) (State.initial db queue) as := by
  have hcoherent : ∀ {pre s}, machine.run (State.initial db queue) pre = some s →
      ∀ c, ∃ b w, Coherent c b w s := by
    intro pre s hpre c
    obtain ⟨b, hstart⟩ := Coherent.start db queue c
    exact ⟨b, Machine.run_preserves (Coherent.preserves c b) ⟨none, hstart⟩ hpre⟩
  constructor
  · intro hkept
    rw [Machine.along_iff]
    intro pre a post s hsplit hpre hclaims
    rw [hsplit, Machine.run_append, hpre, Option.bind_some, Machine.run_cons_some] at hrun
    obtain ⟨u, hu, -⟩ := hrun
    obtain ⟨c, hfinished, hreopened⟩ := hclaims.reopens hu (hcoherent hpre)
    exact hreopened ((hkept pre (a :: post) s c hsplit hpre hfinished).step hu)
  · intro hnever pre post s c hsplit hpre hfinished
    obtain ⟨b, w, hc⟩ := hcoherent hpre c
    have hstep : machine.PreservesAlong (fun s a => ¬ClaimsClosed s a)
        fun s => (∃ w, Coherent c b w s) ∧ FinishedAt c s := by
      rintro s a t ⟨⟨w, hc⟩, hfinished⟩ ha hs
      refine ⟨Coherent.preserves c b s a t ⟨w, hc⟩ hs, ?_⟩
      exact hfinished.step hc ha (step_iff.mp hs)
    rw [hsplit] at hnever
    exact (hstep.throughout ⟨⟨w, hc⟩, hfinished⟩ (hnever.right hpre)).mono fun _ h => h.2

namespace Sample

def seeded : Conversation :=
  { created dto tenant.id conversation 0 with status := .closed, resolvedAt := some 3 }

def seededDatabase : Database := (staffed.insertConversation seeded).getD .empty

end Sample

theorem finished_reopened : ¬∀ (db : Database) (queue : List ResolutionJob)
    (pre post : List Action) (s t : State) (c : Uuid),
    machine.run (State.initial db queue) pre = some s → FinishedAt c s →
    machine.run s post = some t → FinishedAt c t := by
  intro h
  obtain ⟨r, hfind, hfinished⟩ := h Sample.seededDatabase [] []
    (Sample.claiming ++ [.claimCommit 1 5]) _ _ Sample.conversation rfl ⟨_, rfl, Or.inr rfl⟩ rfl
  cases hfind
  rcases hfinished with hresolved | hclosed
  · cases hresolved
  · cases hclosed

theorem finished_kept_resolving : ∃ t,
    machine.run (State.initial Sample.seededDatabase []) Sample.inTurn = some t ∧
    ∀ pre post s c, Sample.inTurn = pre ++ post →
      machine.run (State.initial Sample.seededDatabase []) pre = some s →
      FinishedAt c s → machine.Throughout (FinishedAt c) s post := by
  refine ⟨_, rfl, (@finished_kept_iff _ Sample.seededDatabase [] Sample.inTurn rfl).mpr ?_⟩
  rw [Sample.inTurn, Machine.along_cons rfl, Machine.along_cons rfl, Machine.along_cons rfl,
    Machine.along_cons rfl]
  refine ⟨?_, ?_, ?_, ?_, trivial⟩ <;> rintro ⟨p, now, id, user, conv, ha, -⟩ <;> cases ha

end SupportApi.Conversations
