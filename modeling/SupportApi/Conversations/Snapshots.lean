import SupportApi.Conversations.Requests

namespace SupportApi.Conversations

open Lib

def Conversation.claimant (r : Conversation) : Option Uuid × Option Time :=
  (r.assignedAgentId, r.claimedAt)

/-- Each claim column is that of the first row, `b`, or that of the claim `w` made since. -/
structure Assigned (b : Option Uuid × Option Time) (w : Option (Uuid × Time)) (r : Conversation) :
    Prop where
  agent : r.assignedAgentId = b.1 ∨ ∃ u t, w = some (u, t) ∧ r.assignedAgentId = some u
  time : r.claimedAt = b.2 ∨ ∃ u t, w = some (u, t) ∧ r.claimedAt = some t

structure RowOk (b : Option Uuid × Option Time) (w : Option (Uuid × Time)) (r : Conversation) :
    Prop where
  assigned : Assigned b w r
  claimed : ∀ u t, w = some (u, t) →
    r.status = .resolved ∨ Conversation.claimant r = (some u, some t)

/-- A copy that `save` reads again is resolved only if the row stays so. -/
def Stable (row : Option Conversation) (reread : Conversation) : Prop :=
  reread.status = .resolved → ∃ r, row = some r ∧ r.status = .resolved

def Owner (b : Option Uuid × Option Time) (w : Option (Uuid × Time)) (u : Uuid) : Prop :=
  b.1 = some u ∨ ∃ t, w = some (u, t)

/-- What a process may hold of conversation `c`, whose row is `row`. -/
def ProcessOk (c : Uuid) (b : Option Uuid × Option Time) (w : Option (Uuid × Time))
    (row : Option Conversation) : Process → Prop
  | .claim id _ (.locked conv) => conv.id = id ∧ (id = c → row = some conv)
  | .claim id user (.returned (.ok _)) => id = c → Owner b w user.id
  | .resolve id _ _ (.loaded e) => id = c → columns e = e.conv ∧ Assigned b w e.conv
  | .resolve id _ _ (.saving e) => id = c → (columns e).status = .resolved ∧ Assigned b w (columns e)
  | .resolve id _ _ (.writing e reread _) => reread.id = id ∧ (id = c →
      (columns e).status = .resolved ∧ Assigned b w (columns e) ∧
        Assigned b w reread ∧ Stable row reread ∧ row ≠ none)
  | _ => True

def LockedBy (c : Uuid) (proc : Process) : Prop :=
  ∃ user conv, proc = .claim c user (.locked conv)

structure Coherent (c : Uuid) (b : Option Uuid × Option Time) (w : Option (Uuid × Time))
    (s : State) : Prop where
  base : w ≠ none → b.1 = none
  locks : ∀ p, LockedBy c (s.procs p) → s.lock c = some p
  row : ∀ r, s.db.conversations.find? c = some r → RowOk b w r
  absent : s.db.conversations.find? c = none → b = (none, none) ∧ w = none
  procs : ∀ p, ProcessOk c b w (s.db.conversations.find? c) (s.procs p)

theorem Assigned.refl (w : Option (Uuid × Time)) {b : Option Uuid × Option Time} {r : Conversation}
    (h : Conversation.claimant r = b) : Assigned b w r := by
  subst h
  exact ⟨Or.inl rfl, Or.inl rfl⟩

theorem Assigned.of_claim (b : Option Uuid × Option Time) {u : Uuid} {t : Time} {r : Conversation}
    (h : Conversation.claimant r = (some u, some t)) : Assigned b (some (u, t)) r :=
  ⟨Or.inr ⟨u, t, rfl, congrArg Prod.fst h⟩, Or.inr ⟨u, t, rfl, congrArg Prod.snd h⟩⟩

theorem Assigned.first {b : Option Uuid × Option Time} {r : Conversation} (h : Assigned b none r) :
    Conversation.claimant r = b := by
  have hagent := h.agent
  have htime := h.time
  simp only [reduceCtorEq, false_and, exists_false, or_false] at hagent htime
  exact Prod.ext hagent htime

theorem Assigned.of_none {b : Option Uuid × Option Time} {w : Option (Uuid × Time)}
    {r : Conversation} (h : Assigned b none r) : Assigned b w r :=
  .refl w h.first

theorem Owner.of_none {b : Option Uuid × Option Time} {w : Option (Uuid × Time)} {u : Uuid}
    (h : Owner b none u) : Owner b w u := by
  cases h with
  | inl h => exact Or.inl h
  | inr h =>
    obtain ⟨t, hw⟩ := h
    cases hw

theorem Owner.unique {b : Option Uuid × Option Time} {w : Option (Uuid × Time)} {u v : Uuid}
    (hbase : w ≠ none → b.1 = none) (hu : Owner b w u) (hv : Owner b w v) : u = v := by
  unfold Owner at hu hv
  cases w with
  | none =>
    simp only [reduceCtorEq, exists_false, or_false] at hu hv
    exact Option.some.inj (hu.symm.trans hv)
  | some x =>
    have hb := hbase (by simp)
    simp only [hb, reduceCtorEq, Option.some.injEq, false_or] at hu hv
    obtain ⟨t, rfl⟩ := hu
    obtain ⟨t', hv⟩ := hv
    cases hv
    rfl

theorem Assigned.owner {b : Option Uuid × Option Time} {w : Option (Uuid × Time)} {u : Uuid}
    {r : Conversation} (h : Assigned b w r) (hr : r.assignedAgentId = some u) : Owner b w u := by
  rcases h.agent with hb | ⟨u', t, hw, hagent⟩
  · left
    rw [← hb]
    exact hr
  · cases hr.symm.trans hagent
    exact Or.inr ⟨t, hw⟩

theorem Assigned.written {b : Option Uuid × Option Time} {w : Option (Uuid × Time)}
    {e r : Conversation} (nulls : Bool) (reread : Conversation) (now : Time) (he : Assigned b w e)
    (h : Assigned b w r) : Assigned b w (written nulls e reread r now) := by
  constructor
  · change linked _ _ _ _ = _ ∨ ∃ u t, _ ∧ linked _ _ _ _ = _
    rcases linked_cases nulls e.assignedAgentId reread.assignedAgentId r.assignedAgentId with
      hlinked | hlinked <;> rw [hlinked]
    · exact he.agent
    · exact h.agent
  · change merge _ _ _ = _ ∨ ∃ u t, _ ∧ merge _ _ _ = _
    unfold merge
    split
    · exact h.time
    · exact he.time

theorem Stable.written {e reread r : Conversation} (nulls : Bool) (now : Time)
    (he : e.status = .resolved) (h : Stable (some r) reread) :
    (written nulls e reread r now).status = .resolved := by
  change merge e.status reread.status r.status = .resolved
  rw [merge_eq_left]
  · exact he
  · intro heq
    obtain ⟨r', hr', hstatus⟩ := h (heq ▸ he)
    cases hr'
    rw [hstatus, he]

theorem RowOk.written {b : Option Uuid × Option Time} {w : Option (Uuid × Time)}
    {e reread r : Conversation} (nulls : Bool) (now : Time) (he : Assigned b w e)
    (hstatus : e.status = .resolved) (hstable : Stable (some r) reread) (h : RowOk b w r) :
    RowOk b w (written nulls e reread r now) where
  assigned := he.written nulls reread now h.assigned
  claimed _ _ _ := Or.inl (hstable.written nulls now hstatus)

/-- The first claim gives every copy made before it a name to be stale against. -/
theorem ProcessOk.of_none {c : Uuid} {b : Option Uuid × Option Time} {w : Option (Uuid × Time)}
    {row : Option Conversation} {proc : Process} (h : ProcessOk c b none row proc) :
    ProcessOk c b w row proc := by
  unfold ProcessOk at h ⊢
  split at h
  · exact h
  · exact fun hid => (h hid).of_none
  · exact fun hid => ⟨(h hid).1, (h hid).2.of_none⟩
  · exact fun hid => ⟨(h hid).1, (h hid).2.of_none⟩
  · refine ⟨h.1, fun hid => ?_⟩
    obtain ⟨hstatus, he, hreread, hstable⟩ := h.2 hid
    exact ⟨hstatus, he.of_none, hreread.of_none, hstable⟩
  · trivial

theorem ProcessOk.mono {c : Uuid} {b : Option Uuid × Option Time} {w : Option (Uuid × Time)}
    {row row' : Option Conversation} {proc : Process} (hlock : ¬LockedBy c proc)
    (hrow : ∀ r, row = some r →
      ∃ r', row' = some r' ∧ (r.status = .resolved → r'.status = .resolved))
    (h : ProcessOk c b w row proc) : ProcessOk c b w row' proc := by
  unfold ProcessOk at h ⊢
  split at h
  · refine ⟨h.1, fun hid => ?_⟩
    subst hid
    exact absurd ⟨_, _, rfl⟩ hlock
  · exact h
  · exact h
  · exact h
  · refine ⟨h.1, fun hid => ?_⟩
    obtain ⟨hstatus, he, hreread, hstable, hfound⟩ := h.2 hid
    obtain ⟨r, hr⟩ := Option.ne_none_iff_exists'.mp hfound
    obtain ⟨r', hr', hresolved⟩ := hrow r hr
    refine ⟨hstatus, he, hreread, fun hres => ?_, by simp [hr']⟩
    obtain ⟨r₁, hr₁, hstatus₁⟩ := hstable hres
    cases hr.symm.trans hr₁
    exact ⟨r', hr', hresolved hstatus₁⟩
  · trivial

theorem ProcessOk.of_quiet {c : Uuid} {b : Option Uuid × Option Time} {w : Option (Uuid × Time)}
    {row : Option Conversation} {proc : Process} (h : proc.quiet = true) :
    ProcessOk c b w row proc := by
  unfold ProcessOk
  split <;> trivial

theorem not_lockedBy_of_quiet {c : Uuid} {proc : Process} (h : proc.quiet = true) :
    ¬LockedBy c proc := by
  rintro ⟨user, conv, rfl⟩
  cases h

theorem lockedBy_locked {c id : Uuid} {user : User} {conv : Conversation}
    (h : LockedBy c (.claim id user (.locked conv))) : id = c := by
  obtain ⟨_, _, heq⟩ := h
  cases heq
  rfl

theorem not_lockedBy_returned {c id : Uuid} {user : User} {reply : Except Exception Conversation} :
    ¬LockedBy c (.claim id user (.returned reply)) := by
  simp [LockedBy]

theorem not_lockedBy_resolve {c id : Uuid} {user : User} {dto : ResolveConversationDto}
    {phase : ResolvePhase} : ¬LockedBy c (.resolve id user dto phase) := by
  simp [LockedBy]

theorem written_assigned (conv : Conversation) (user : User) (now : Time) :
    (written true (assigned conv user now) conv conv now).status = .pending ∧
      Conversation.claimant (written true (assigned conv user now) conv conv now) =
        (some user.id, some now) ∧
      (written true (assigned conv user now) conv conv now).resolvedAt = conv.resolvedAt := by
  simp [written, assigned, Conversation.claimant]

/-- All that a step can do to the row of conversation `c`; `w` is the claim made
before it and the last index the one made after it. -/
inductive RowStep (c : Uuid) (s : State) (a : Action) (t : State) (w : Option (Uuid × Time)) :
    Option (Uuid × Time) → Prop
  | same : t.db.conversations.find? c = s.db.conversations.find? c → RowStep c s a t w w
  | created {conv} : s.db.conversations.find? c = none → t.db.conversations.find? c = some conv →
      conv.status = .opened → Conversation.claimant conv = (none, none) → conv.resolvedAt = none →
      RowStep c s a t w w
  | claimed {p user conv now} : a = .claimCommit p now →
      s.procs p = .claim c user (.locked conv) → w = none →
      s.db.conversations.find? c = some conv → conv.status ≠ .resolved →
      conv.assignedAgentId = none →
      t.db.conversations.find? c = some (written true (assigned conv user now) conv conv now) →
      RowStep c s a t w (some (user.id, now))
  | written {p now nulls user dto entity reread related r} : a = .resolveWrite p now nulls →
      s.procs p = .resolve c user dto (.writing entity reread related) →
      orphaned entity related = [] → s.db.conversations.find? c = some r →
      t.db.conversations.find? c = some (written nulls (columns entity) reread r now) →
      RowStep c s a t w w

theorem RowStep.kept {c : Uuid} {s t : State} {a : Action} {w w' : Option (Uuid × Time)}
    (h : RowStep c s a t w w') : w = none ∨ w' = w := by
  cases h with
  | claimed _ _ hw => exact Or.inl hw
  | _ => exact Or.inr rfl

theorem RowStep.persists {c : Uuid} {s t : State} {a : Action} {w w' : Option (Uuid × Time)}
    (h : RowStep c s a t w w') {r : Conversation} (hr : s.db.conversations.find? c = some r) :
    ∃ r', t.db.conversations.find? c = some r' := by
  cases h with
  | same hrow => exact ⟨r, hrow.trans hr⟩
  | created _ hfind => exact ⟨_, hfind⟩
  | claimed _ _ _ _ _ _ hfind => exact ⟨_, hfind⟩
  | written _ _ _ _ hfind => exact ⟨_, hfind⟩

def firstClaimant (db : Database) (c : Uuid) : Option Uuid × Option Time :=
  ((db.conversations.find? c).map Conversation.claimant).getD (none, none)

namespace Coherent

variable {c : Uuid} {b : Option Uuid × Option Time} {w : Option (Uuid × Time)} {s t : State}

theorem start_first (db : Database) (queue : List ResolutionJob) (c : Uuid) :
    Coherent c (firstClaimant db c) none (State.initial db queue) where
  base := by simp
  locks := by
    rintro p ⟨user, conv, h⟩
    cases h
  row r hr := by
    constructor
    · apply Assigned.refl
      rw [firstClaimant, show db.conversations.find? c = some r from hr]
      rfl
    · intro u t hw
      cases hw
  absent hr := by
    rw [firstClaimant, show db.conversations.find? c = none from hr]
    exact ⟨rfl, rfl⟩
  procs _ := trivial

theorem start (db : Database) (queue : List ResolutionJob) (c : Uuid) :
    ∃ b, Coherent c b none (State.initial db queue) :=
  ⟨firstClaimant db c, start_first db queue c⟩

theorem start_absent {db : Database} (queue : List ResolutionJob) {c : Uuid}
    (habsent : db.conversations.find? c = none) :
    Coherent c (none, none) none (State.initial db queue) := by
  have h := start_first db queue c
  rw [firstClaimant, habsent] at h
  exact h

theorem set (h : Coherent c b w s) {p : Pid} {proc : Process} (hlock : ¬LockedBy c proc)
    (hproc : ProcessOk c b w (s.db.conversations.find? c) proc) : Coherent c b w (s.set p proc) where
  base := h.base
  locks := (Function.forall_update_iff s.procs fun q pr => LockedBy c pr → s.lock c = some q).mpr
    ⟨fun hl => absurd hl hlock, fun q _ => h.locks q⟩
  row := h.row
  absent := h.absent
  procs := (Function.forall_update_iff s.procs fun _ pr => ProcessOk c b w _ pr).mpr
    ⟨hproc, fun q _ => h.procs q⟩

theorem release (h : Coherent c b w s) {id : Uuid} (hfree : ∀ q, LockedBy c (s.procs q) → id ≠ c) :
    Coherent c b w (s.release id) where
  base := h.base
  locks := by
    intro q hq
    rw [State.release_lock, Function.update_of_ne (hfree q hq).symm]
    exact h.locks q hq
  row := h.row
  absent := h.absent
  procs := h.procs

theorem congr (h : Coherent c b w s)
    (hrow : t.db.conversations.find? c = s.db.conversations.find? c) (hlock : t.lock = s.lock)
    (hprocs : t.procs = s.procs) : Coherent c b w t where
  base := h.base
  locks := by rw [hlock, hprocs]; exact h.locks
  row := by rw [hrow]; exact h.row
  absent := by rw [hrow]; exact h.absent
  procs := by rw [hrow, hprocs]; exact h.procs

theorem insert (h : Coherent c b w s) {conv : Conversation} {db : Database}
    (hins : s.db.insertConversation conv = some db)
    (hunclaimed : Conversation.claimant conv = (none, none)) : Coherent c b w (s.store db) := by
  by_cases hid : conv.id = c
  · subst hid
    have hnone : s.db.conversations.find? conv.id = none := by
      obtain ⟨⟨hnew, _⟩, _⟩ := Database.insertConversation_some hins
      exact hnew
    have hrow : db.conversations.find? conv.id = some conv := by
      rw [Database.find?_insertConversation hins, if_pos rfl]
    obtain ⟨hb, hw⟩ := h.absent hnone
    constructor
    · exact h.base
    · exact h.locks
    · intro r hr
      cases hrow.symm.trans hr
      constructor
      · exact .refl w (hunclaimed.trans hb.symm)
      · intro u t hw'
        cases hw.symm.trans hw'
    · exact fun _ => ⟨hb, hw⟩
    · intro p
      have hproc := h.procs p
      rw [hnone] at hproc
      apply hproc.mono
      · rintro ⟨user, row, hl⟩
        rw [hl] at hproc
        cases hproc.2 rfl
      · intro r hr
        cases hr
  · apply h.congr
    · rw [State.store_db, Database.find?_insertConversation hins, if_neg hid]
    · rfl
    · rfl

theorem overwrite {w' : Option (Uuid × Time)} (h : Coherent c b w s) {row row' : Conversation}
    {db : Database} (hw : w = none ∧ b.1 = none ∨ w = w')
    (hfind : s.db.conversations.find? c = some row)
    (hfind' : db.conversations.find? c = some row') (hrow : RowOk b w' row')
    (hstable : row.status = .resolved → row'.status = .resolved)
    (hfree : ∀ p, ¬LockedBy c (s.procs p)) : Coherent c b w' (s.store db) where
  base hw' := by
    rcases hw with ⟨_, hb⟩ | hw
    · exact hb
    · exact h.base (hw ▸ hw')
  locks := h.locks
  row r hr := by
    cases hfind'.symm.trans hr
    exact hrow
  absent hr := by
    cases hfind'.symm.trans hr
  procs p := by
    have hproc : ProcessOk c b w (db.conversations.find? c) (s.procs p) := by
      apply (h.procs p).mono (hfree p)
      intro r hr
      cases hfind.symm.trans hr
      exact ⟨row', hfind', hstable⟩
    rcases hw with ⟨hw, _⟩ | hw
    · subst hw
      exact hproc.of_none
    · subst hw
      exact hproc

theorem unlock (h : Coherent c b w s) {p : Pid} {user : User} {conv : Conversation}
    (hp : s.procs p = .claim c user (.locked conv)) {proc : Process} (hlock : ¬LockedBy c proc)
    (hproc : ProcessOk c b w (s.db.conversations.find? c) proc) :
    Coherent c b w ((s.set p proc).release c) ∧
      ∀ q, ¬LockedBy c (((s.set p proc).release c).procs q) := by
  have hfree : ∀ q, ¬LockedBy c ((s.set p proc).procs q) := by
    intro q hq
    by_cases hqp : q = p
    · subst hqp
      rw [State.set_procs, Function.update_self] at hq
      exact hlock hq
    · rw [State.set_procs, Function.update_of_ne hqp] at hq
      have hmine := h.locks p ⟨user, conv, hp⟩
      rw [h.locks q hq] at hmine
      exact hqp (Option.some.inj hmine)
  exact ⟨(h.set hlock hproc).release fun q hq => absurd hq (hfree q), hfree⟩

theorem locked (h : Coherent c b w s) {p : Pid} {id : Uuid} {user : User} {conv : Conversation}
    (hconv : selectConversation s.db id user = some conv) (hlock : s.lock id = none) :
    Coherent c b w ((s.set p (.claim id user (.locked conv))).hold id p) where
  base := h.base
  locks := by
    refine (Function.forall_update_iff s.procs fun q pr =>
      LockedBy c pr → Function.update s.lock id (some p) c = some q).mpr ⟨?_, ?_⟩
    · intro hl
      rw [lockedBy_locked hl, Function.update_self]
    · intro q _ hl
      have hc := h.locks q hl
      have hne : c ≠ id := by
        intro hcid
        rw [hcid, hlock] at hc
        cases hc
      rw [Function.update_of_ne hne]
      exact hc
  row := h.row
  absent := h.absent
  procs := by
    have hfind := (selectConversation_some hconv).1
    refine (Function.forall_update_iff s.procs fun _ pr => ProcessOk c b w _ pr).mpr
      ⟨⟨Table.key_of_find? hfind, ?_⟩, fun q _ => h.procs q⟩
    intro hid
    rw [← hid]
    exact hfind

theorem rollsBack (h : Coherent c b w s) {p : Pid} {id : Uuid} {user : User} {conv : Conversation}
    {e : Exception} (hp : s.procs p = .claim id user (.locked conv)) :
    Coherent c b w ((s.set p (.claim id user (.returned (.error e)))).release id) := by
  by_cases hid : id = c
  · subst hid
    exact (h.unlock hp not_lockedBy_returned (ProcessOk.of_quiet rfl)).1
  · exact (h.set not_lockedBy_returned (ProcessOk.of_quiet rfl)).release fun _ _ => hid

theorem find?_locked (h : Coherent c b w s) {p : Pid} {user : User} {conv : Conversation}
    (hp : s.procs p = .claim c user (.locked conv)) :
    conv.id = c ∧ s.db.conversations.find? c = some conv := by
  have hproc := h.procs p
  rw [hp] at hproc
  exact ⟨hproc.1, hproc.2 rfl⟩

theorem unclaimed (h : Coherent c b w s) {row : Conversation}
    (hfind : s.db.conversations.find? c = some row) (hstatus : row.status ≠ .resolved)
    (hagent : row.assignedAgentId = none) : w = none ∧ b.1 = none := by
  have hrow := h.row row hfind
  cases hw : w with
  | none =>
    subst hw
    exact ⟨rfl, (congrArg Prod.fst hrow.assigned.first).symm.trans hagent⟩
  | some x =>
    rcases hrow.claimed x.1 x.2 hw with hres | hclaimant
    · exact absurd hres hstatus
    · cases hagent.symm.trans (congrArg Prod.fst hclaimant)

theorem commits_other (h : Coherent c b w s) {p : Pid} {id : Uuid} {user : User}
    {conv reply : Conversation} {now : Time} {db : Database} (hid : id ≠ c)
    (hp : s.procs p = .claim id user (.locked conv))
    (hclaim : claimLocked s.db conv user now = .ok (reply, db)) :
    Coherent c b w (((s.set p (.claim id user (.returned (.ok reply)))).release id).store db) ∧
      db.conversations.find? c = s.db.conversations.find? c := by
  have hset : Coherent c b w (s.set p (.claim id user (.returned (.ok reply)))) := by
    apply h.set not_lockedBy_returned
    exact fun heq => absurd heq hid
  have hrow : db.conversations.find? c = s.db.conversations.find? c := by
    rcases (claimLocked_ok hclaim).2 with ⟨_, _, rfl⟩ | ⟨_, hupdate, -⟩
    · rfl
    · apply find?_update_of_ne hupdate
      have hproc := h.procs p
      rw [hp] at hproc
      exact fun hcid => hid (hproc.1.symm.trans hcid.symm)
  exact ⟨(hset.release fun _ _ => hid).congr hrow rfl rfl, hrow⟩

theorem commits_mine (h : Coherent c b w s) {p : Pid} {user : User} {conv : Conversation}
    (hp : s.procs p = .claim c user (.locked conv)) (hmine : conv.assignedAgentId = some user.id) :
    Coherent c b w (((s.set p (.claim c user (.returned (.ok conv)))).release c).store s.db) := by
  have howner := (h.row conv (h.find?_locked hp).2).assigned.owner hmine
  have hproc : ProcessOk c b w (s.db.conversations.find? c)
      (.claim c user (.returned (.ok conv))) := fun _ => howner
  exact (h.unlock hp not_lockedBy_returned hproc).1

theorem commits_first (h : Coherent c b w s) {p : Pid} {user : User} {conv reply : Conversation}
    {now : Time} {db : Database} (hp : s.procs p = .claim c user (.locked conv))
    (hstatus : conv.status ≠ .resolved) (hagent : conv.assignedAgentId = none)
    (hupdate : update true s.db (assigned conv user now) conv now = some db) :
    w = none ∧ db.conversations.find? c = some (written true (assigned conv user now) conv conv now) ∧
      Coherent c b (some (user.id, now))
        (((s.set p (.claim c user (.returned (.ok reply)))).release c).store db) := by
  obtain ⟨hkey, hfind⟩ := h.find?_locked hp
  obtain ⟨hw, hb⟩ := h.unclaimed hfind hstatus hagent
  obtain ⟨hpending, hclaimant, _⟩ := written_assigned conv user now
  have hfind' : db.conversations.find? c = some (written true (assigned conv user now) conv conv now) := by
    rw [← hkey, find?_update_self hupdate, hkey, hfind]
    rfl
  have hrow : RowOk b (some (user.id, now)) (written true (assigned conv user now) conv conv now) := by
    constructor
    · exact .of_claim b hclaimant
    · rintro u t hw'
      cases hw'
      exact Or.inr hclaimant
  obtain ⟨hidle, hfree⟩ := h.unlock hp (not_lockedBy_of_quiet (Eq.refl Process.idle.quiet)) trivial
  have hover := hidle.overwrite (Or.inl ⟨hw, hb⟩) hfind hfind' hrow
    (fun hres => absurd hres hstatus) hfree
  have hproc : ProcessOk c b (some (user.id, now)) (db.conversations.find? c)
      (.claim c user (.returned (.ok reply))) := fun _ => Or.inr ⟨now, rfl⟩
  have hset := hover.set (p := p) not_lockedBy_returned hproc
  refine ⟨hw, hfind', hset.congr rfl rfl ?_⟩
  simp

theorem loads (h : Coherent c b w s) {p : Pid} {id : Uuid} {user : User}
    {dto : ResolveConversationDto} {entity : LoadedConversation}
    (hload : findOne s.db id user = .ok entity) :
    Coherent c b w (s.set p (.resolve id user dto (.loaded entity))) := by
  apply h.set not_lockedBy_resolve
  intro hid
  subst hid
  obtain ⟨conv, hconv, rfl, _⟩ := findOne_ok hload
  have hfind := (selectConversation_some hconv).1
  exact ⟨columns_load (Table.mem_of_find? hfind), (h.row conv hfind).assigned⟩

theorem checks (h : Coherent c b w s) {p : Pid} {id : Uuid} {user : User}
    {dto : ResolveConversationDto} {entity : LoadedConversation} (now : Time)
    (hp : s.procs p = .resolve id user dto (.loaded entity)) :
    Coherent c b w (s.set p (.resolve id user dto (.saving (resolved entity now)))) := by
  apply h.set not_lockedBy_resolve
  intro hid
  have hproc := h.procs p
  rw [hp] at hproc
  obtain ⟨hcolumns, hassigned⟩ := hproc hid
  rw [columns_resolved, hcolumns]
  exact ⟨rfl, hassigned.agent, hassigned.time⟩

theorem rereads (h : Coherent c b w s) {p : Pid} {id : Uuid} {user : User}
    {dto : ResolveConversationDto} {entity : LoadedConversation} {row : Conversation}
    (hp : s.procs p = .resolve id user dto (.saving entity))
    (hfind : s.db.conversations.find? id = some row) :
    Coherent c b w (s.set p (.resolve id user dto (.writing entity row (related s.db id)))) := by
  apply h.set not_lockedBy_resolve
  refine ⟨Table.key_of_find? hfind, fun hid => ?_⟩
  subst hid
  have hproc := h.procs p
  rw [hp] at hproc
  obtain ⟨hstatus, hassigned⟩ := hproc rfl
  exact ⟨hstatus, hassigned, (h.row row hfind).assigned, fun hres => ⟨row, hfind, hres⟩,
    by simp [hfind]⟩

theorem find?_writes (h : Coherent c b w s) {p : Pid} {id : Uuid} {user : User}
    {dto : ResolveConversationDto} {entity : LoadedConversation} {reread : Conversation}
    {related : List Uuid} {nulls : Bool} {now : Time} {db : Database}
    (hp : s.procs p = .resolve id user dto (.writing entity reread related))
    (hsave : save nulls s.db entity reread related now = some db) :
    db.conversations.find? c = (s.db.conversations.find? c).map fun row =>
      if id = c then written nulls (columns entity) reread row now else row := by
  obtain ⟨-, hupdate⟩ := save_some hsave
  have hproc := h.procs p
  rw [hp] at hproc
  by_cases hid : id = c
  · subst hid
    simp only [if_true]
    rw [← hproc.1]
    exact find?_update_self hupdate
  · simp only [if_neg hid, Option.map_id_fun']
    apply find?_update_of_ne hupdate
    exact fun hcid => hid (hproc.1.symm.trans hcid.symm)

theorem writes (h : Coherent c b w s) {p : Pid} {id : Uuid} {user : User}
    {dto : ResolveConversationDto} {now : Time} {entity : LoadedConversation}
    {reread : Conversation} {related : List Uuid} {nulls : Bool} {db : Database}
    (hp : s.procs p = .resolve id user dto (.writing entity reread related))
    (hlock : s.lock id = none) (hsave : save nulls s.db entity reread related now = some db) :
    Coherent c b w ((s.set p (.resolve id user dto (.saved (stamped db entity)))).store db) := by
  have hfind' := h.find?_writes hp hsave
  have hproc := h.procs p
  rw [hp] at hproc
  have hset : Coherent c b w (s.set p (.resolve id user dto (.saved (stamped db entity)))) :=
    h.set not_lockedBy_resolve (ProcessOk.of_quiet rfl)
  by_cases hid : id = c
  · subst hid
    cases hfind : s.db.conversations.find? id with
    | none =>
      rw [hfind] at hfind'
      exact hset.congr (hfind'.trans hfind.symm) rfl rfl
    | some row =>
      rw [hfind, Option.map_some, if_pos rfl] at hfind'
      obtain ⟨hstatus, hassigned, -, hstable, -⟩ := hproc.2 rfl
      rw [hfind] at hstable
      apply hset.overwrite (Or.inr rfl) hfind hfind'
      · exact (h.row row hfind).written nulls now hassigned hstatus hstable
      · exact fun _ => hstable.written nulls now hstatus
      · intro q hq
        have hc := hset.locks q hq
        rw [State.set_lock, hlock] at hc
        cases hc
  · refine hset.congr ?_ rfl rfl
    simpa [hid] using hfind'

theorem creates (h : Coherent c b w s) {user : User} {dto : CreateConversationDto} {id : Uuid}
    {now : Time} {conv : Conversation} {db : Database}
    (hcreate : create s.db dto user id now = .ok (conv, db)) :
    Coherent c b w (s.store db) ∧ RowStep c s (.create user dto id now) (s.store db) w w := by
  obtain ⟨hins, _, _, hopened, hagent, htime, hresolvedAt⟩ := create_ok hcreate
  refine ⟨h.insert hins (Prod.ext hagent htime), ?_⟩
  have hrow : db.conversations.find? c =
      if conv.id = c then some conv.stored else s.db.conversations.find? c :=
    Database.find?_insertConversation hins c
  by_cases hid : conv.id = c
  · subst hid
    rw [if_pos rfl] at hrow
    obtain ⟨⟨hnew, _⟩, _⟩ := Database.insertConversation_some hins
    exact .created hnew hrow hopened (Prod.ext hagent htime) hresolvedAt
  · rw [if_neg hid] at hrow
    exact .same hrow

theorem commits (h : Coherent c b w s) {p : Pid} {now : Time} {id : Uuid} {user : User}
    {conv reply : Conversation} {db : Database} (hp : s.procs p = .claim id user (.locked conv))
    (hclaim : claimLocked s.db conv user now = .ok (reply, db)) {t : State}
    (ht : t = ((s.set p (.claim id user (.returned (.ok reply)))).release id).store db) :
    ∃ w', Coherent c b w' t ∧ RowStep c s (.claimCommit p now) t w w' := by
  subst ht
  by_cases hid : id = c
  · subst hid
    obtain ⟨hstatus, ⟨hmine, rfl, rfl⟩ | ⟨hagent, hupdate, -⟩⟩ := claimLocked_ok hclaim
    · exact ⟨w, h.commits_mine hp hmine, .same rfl⟩
    · obtain ⟨hw, hfind', hfirst⟩ := h.commits_first hp hstatus hagent hupdate
      exact ⟨_, hfirst, .claimed rfl hp hw (h.find?_locked hp).2 hstatus hagent hfind'⟩
  · obtain ⟨hcoherent, hrow⟩ := h.commits_other hid hp hclaim
    exact ⟨w, hcoherent, .same hrow⟩

theorem resolved_writes (h : Coherent c b w s) {p : Pid} {user : User}
    {dto : ResolveConversationDto} {entity : LoadedConversation} {reread r : Conversation}
    {related : List Uuid} (nulls : Bool) (now : Time)
    (hp : s.procs p = .resolve c user dto (.writing entity reread related))
    (hfind : s.db.conversations.find? c = some r) :
    (written nulls (columns entity) reread r now).status = .resolved := by
  have hproc := h.procs p
  rw [hp] at hproc
  obtain ⟨hstatus, -, -, hstable, -⟩ := hproc.2 rfl
  rw [hfind] at hstable
  exact hstable.written nulls now hstatus

theorem found (h : Coherent c b w s) {p : Pid} {user : User} {dto : ResolveConversationDto}
    {entity : LoadedConversation} {reread : Conversation} {related : List Uuid}
    (hp : s.procs p = .resolve c user dto (.writing entity reread related)) :
    ∃ r, s.db.conversations.find? c = some r := by
  have hproc := h.procs p
  rw [hp] at hproc
  exact Option.ne_none_iff_exists'.mp (hproc.2 rfl).2.2.2.2

theorem step {a : Action} (h : Coherent c b w s) (hs : Step s a t) :
    ∃ w', Coherent c b w' t ∧ RowStep c s a t w w' := by
  cases hs.effect with
  | create hcreate => exact ⟨w, h.creates hcreate⟩
  | @quiet _ p _ _ hquiet hconvs hlock hprocs =>
    have hset := h.set (p := p) (not_lockedBy_of_quiet hquiet) (ProcessOk.of_quiet hquiet)
    have hrow : t.db.conversations.find? c = s.db.conversations.find? c := by rw [hconvs]
    exact ⟨w, hset.congr hrow hlock hprocs, .same hrow⟩
  | locks hconv hlock => exact ⟨w, h.locked hconv hlock, .same rfl⟩
  | rollsBack hp => exact ⟨w, h.rollsBack hp, .same rfl⟩
  | commits hp hclaim => exact h.commits hp hclaim rfl
  | loads hload => exact ⟨w, h.loads hload, .same rfl⟩
  | checks hp => exact ⟨w, h.checks _ hp, .same rfl⟩
  | rereads hp hfind => exact ⟨w, h.rereads hp hfind, .same rfl⟩
  | @writes _ now _ id _ _ entity reread _ _ hp hlock hsave =>
    refine ⟨w, h.writes hp hlock hsave, ?_⟩
    have hfind' := h.find?_writes hp hsave
    by_cases hid : id = c
    · subst hid
      cases hfind : s.db.conversations.find? id with
      | none =>
        rw [hfind] at hfind'
        exact .same (hfind'.trans hfind.symm)
      | some r =>
        rw [hfind, Option.map_some, if_pos rfl] at hfind'
        exact .written rfl hp (save_some hsave).1 hfind hfind'
    · simp only [if_neg hid, Option.map_id_fun', id_eq] at hfind'
      exact .same hfind'

theorem preserves (c : Uuid) (b : Option Uuid × Option Time) :
    machine.Preserves fun s => ∃ w, Coherent c b w s := by
  rintro s a t ⟨w, h⟩ hs
  obtain ⟨w', h', -⟩ := h.step (step_iff.mp hs)
  exact ⟨w', h'⟩

end Coherent

end SupportApi.Conversations
