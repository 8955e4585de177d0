import SupportApi.Conversations.Snapshots

namespace SupportApi.Conversations

open Lib

/-- The claim columns are those of the first row, `b`, or of the claim `w` made since. -/
def Whole (b : Option Uuid × Option Time) (w : Option (Uuid × Time)) (r : Conversation) : Prop :=
  Conversation.claimant r = b ∨ ∃ u t, w = some (u, t) ∧ Conversation.claimant r = (some u, some t)

def CopiesWhole (c : Uuid) (b : Option Uuid × Option Time) (w : Option (Uuid × Time)) :
    Process → Prop
  | .resolve id _ _ (.loaded e) => id = c → Whole b w (columns e)
  | .resolve id _ _ (.saving e) => id = c → Whole b w (columns e)
  | .resolve id _ _ (.writing e reread _) => id = c → Whole b w (columns e) ∧ Whole b w reread
  | _ => True

structure Intact (c : Uuid) (b : Option Uuid × Option Time) (w : Option (Uuid × Time))
    (s : State) : Prop extends Coherent c b w s where
  rows : ∀ r, s.db.conversations.find? c = some r → Whole b w r
  copies : ∀ p, CopiesWhole c b w (s.procs p)

/-- A save that writes nulls writes that of an entity read and read again unassigned over a row
that a claim has assigned since. -/
def TornWrite (c : Uuid) (s : State) (a : Action) : Prop :=
  ∃ p now user dto entity reread related r, a = .resolveWrite p now true ∧
    s.procs p = .resolve c user dto (.writing entity reread related) ∧
    orphaned entity related = [] ∧ (columns entity).assignedAgentId = none ∧
    reread.assignedAgentId = none ∧ s.db.conversations.find? c = some r ∧ r.assignedAgentId ≠ none

variable {c : Uuid} {b : Option Uuid × Option Time} {w w' : Option (Uuid × Time)} {s t : State}

theorem claimant_written (nulls : Bool) (e reread r : Conversation) (now : Time) :
    Conversation.claimant (written nulls e reread r now) =
      (linked nulls e.assignedAgentId reread.assignedAgentId r.assignedAgentId,
        merge e.claimedAt reread.claimedAt r.claimedAt) := rfl

theorem claimant_written_of_eq {nulls : Bool} {e reread : Conversation} (r : Conversation)
    (now : Time) (h : Conversation.claimant e = Conversation.claimant reread)
    (hrow : nulls = true → e.assignedAgentId = none → r.assignedAgentId = none) :
    Conversation.claimant (written nulls e reread r now) = Conversation.claimant r := by
  obtain ⟨hagent, htime⟩ := Prod.mk.inj h
  rw [claimant_written, linked_of_eq nulls hagent hrow, htime, merge_self]
  rfl

theorem Whole.of_kept (hw : w = none ∨ w' = w) {r : Conversation} (h : Whole b w r) :
    Whole b w' r := by
  rcases hw with rfl | rfl
  · rcases h with h | ⟨u, t, hw, -⟩
    · exact Or.inl h
    · cases hw
  · exact h

/-- Nothing of the first row and of the claim is mixed unless the save tears the row. -/
theorem Whole.written {nulls : Bool} {e reread r : Conversation} (now : Time)
    (hb : w ≠ none → b.1 = none) (he : Whole b w e) (hr : Whole b w reread) (h : Whole b w r)
    (huntorn : nulls = true → e.assignedAgentId = none → reread.assignedAgentId = none →
      r.assignedAgentId = none) : Whole b w (written nulls e reread r now) := by
  by_cases heq : Conversation.claimant e = Conversation.claimant reread
  · rw [Whole, claimant_written_of_eq r now heq]
    · exact h
    · intro hnulls hnone
      exact huntorn hnulls hnone ((congrArg Prod.fst heq).symm.trans hnone)
  · -- one copy is from before the claim and the other from after it, so the entity's wins
    suffices hwritten : Conversation.claimant (Conversations.written nulls e reread r now) =
        Conversation.claimant e by
      rw [Whole, hwritten]
      exact he
    obtain ⟨u, t, hw, hpair⟩ : ∃ u t, w = some (u, t) ∧
        (Conversation.claimant e = b ∧ Conversation.claimant reread = (some u, some t) ∨
          Conversation.claimant e = (some u, some t) ∧ Conversation.claimant reread = b) := by
      rcases he with he | ⟨u, t, hw, he⟩ <;> rcases hr with hr | ⟨u', t', hw', hr⟩
      · exact absurd (he.trans hr.symm) heq
      · exact ⟨u', t', hw', Or.inl ⟨he, hr⟩⟩
      · exact ⟨u, t, hw, Or.inr ⟨he, hr⟩⟩
      · cases hw.symm.trans hw'
        exact absurd (he.trans hr.symm) heq
    have hbase := hb (by simp [hw])
    have hrow : Conversation.claimant r = b ∨ Conversation.claimant r = (some u, some t) := by
      rcases h with h | ⟨u', t', hw', h⟩
      · exact Or.inl h
      · cases hw.symm.trans hw'
        exact Or.inr h
    simp only [Conversation.claimant, Prod.ext_iff] at hpair hrow
    rw [claimant_written, linked_eq_left, merge_eq_left]
    · rfl
    · intro htime
      grind
    · intro hagent
      grind

theorem CopiesWhole.of_kept (hw : w = none ∨ w' = w) {proc : Process}
    (h : CopiesWhole c b w proc) : CopiesWhole c b w' proc := by
  unfold CopiesWhole at h ⊢
  split at h
  · exact fun hid => (h hid).of_kept hw
  · exact fun hid => (h hid).of_kept hw
  · exact fun hid => ⟨(h hid).1.of_kept hw, (h hid).2.of_kept hw⟩
  · trivial

theorem CopiesWhole.of_quiet {proc : Process} (h : proc.quiet = true) : CopiesWhole c b w proc := by
  unfold CopiesWhole
  split <;> trivial

theorem ProcessOk.whole {row : Option Conversation} {proc : Process}
    (h : ProcessOk c b none row proc) : CopiesWhole c b none proc := by
  unfold CopiesWhole
  split
  · intro hid
    obtain ⟨hcolumns, hassigned⟩ := h hid
    rw [hcolumns]
    exact Or.inl hassigned.first
  · exact fun hid => Or.inl (h hid).2.first
  · intro hid
    obtain ⟨-, he, hreread, -⟩ := h.2 hid
    exact ⟨Or.inl he.first, Or.inl hreread.first⟩
  · trivial

theorem Coherent.intact (h : Coherent c b none s) : Intact c b none s where
  toCoherent := h
  rows r hr := Or.inl (h.row r hr).assigned.first
  copies p := (h.procs p).whole

namespace Intact

theorem whole_of_row {a : Action} (h : Intact c b w s) (ha : ¬TornWrite c s a)
    (hrow : RowStep c s a t w w') {r : Conversation} (hr : t.db.conversations.find? c = some r) :
    Whole b w' r := by
  cases hrow with
  | same hrow =>
    rw [hrow] at hr
    exact h.rows r hr
  | created hnone hfind _ hunclaimed =>
    cases hfind.symm.trans hr
    exact Or.inl (hunclaimed.trans (h.absent hnone).1.symm)
  | @claimed p user conv now _ _ _ _ _ _ hfind =>
    cases hfind.symm.trans hr
    exact Or.inr ⟨user.id, now, rfl, (written_assigned conv user now).2.1⟩
  | @written p now nulls user dto entity reread related row ha' hp hkept hfind hfind' =>
    cases hfind'.symm.trans hr
    have hcopies := h.copies p
    rw [hp] at hcopies
    obtain ⟨he, hreread⟩ := hcopies rfl
    refine he.written now h.base hreread (h.rows row hfind) ?_
    rintro rfl hnone hnone'
    by_contra hagent
    exact ha ⟨p, now, user, dto, entity, reread, related, row, ha', hp, hkept, hnone, hnone', hfind,
      hagent⟩

theorem copies_set (h : Intact c b w s) {p : Pid} {proc : Process} (hproc : CopiesWhole c b w proc) :
    ∀ q, CopiesWhole c b w (Function.update s.procs p proc q) :=
  (Function.forall_update_iff s.procs fun _ pr => CopiesWhole c b w pr).mpr
    ⟨hproc, fun q _ => h.copies q⟩

theorem copies_step {a : Action} (h : Intact c b w s) (hs : Effect s a t) :
    ∀ p, CopiesWhole c b w (t.procs p) := by
  cases hs with
  | create => exact h.copies
  | quiet hquiet _ _ hprocs =>
    rw [hprocs]
    exact h.copies_set (.of_quiet hquiet)
  | locks => exact h.copies_set trivial
  | rollsBack => exact h.copies_set trivial
  | commits => exact h.copies_set trivial
  | loads hload =>
    apply h.copies_set
    rintro rfl
    obtain ⟨conv, hconv, rfl, -⟩ := findOne_ok hload
    have hfind := (selectConversation_some hconv).1
    rw [columns_load (Table.mem_of_find? hfind)]
    exact h.rows conv hfind
  | @checks p now _ _ _ entity hp =>
    have hcopies := h.copies p
    rw [hp] at hcopies
    exact h.copies_set hcopies
  | @rereads p _ _ _ _ row hp hfind =>
    apply h.copies_set
    rintro rfl
    have hcopies := h.copies p
    rw [hp] at hcopies
    exact ⟨hcopies rfl, h.rows row hfind⟩
  | writes => exact h.copies_set trivial

theorem step {a : Action} (h : Intact c b w s) (ha : ¬TornWrite c s a) (hs : Step s a t) :
    ∃ w', Intact c b w' t ∧ RowStep c s a t w w' := by
  obtain ⟨w', hcoherent, hrow⟩ := h.toCoherent.step hs
  refine ⟨w', ⟨hcoherent, fun r hr => h.whole_of_row ha hrow hr, fun p => ?_⟩, hrow⟩
  exact (h.copies_step hs.effect p).of_kept hrow.kept

end Intact

end SupportApi.Conversations
