import SupportApi.Analytics.Service
import SupportApi.Conversations.Requests
import SupportApi.Lib.Clock

namespace SupportApi.Conversations

open Lib

/-- The clock of the server or of PostgreSQL as the step reads it. -/
def Action.now? : Action → Option Time
  | .create _ _ _ now => some now
  | .claimCommit _ now => some now
  | .resolveCheck _ now => some now
  | .resolveWrite _ now _ => some now
  | .resolveNote _ _ now => some now
  | _ => none

structure Timely (clock : Time) (r : Conversation) : Prop where
  created : r.createdAt ≤ clock
  updated : r.createdAt ≤ r.updatedAt
  claimed : ∀ t, r.claimedAt = some t → r.createdAt ≤ t
  resolved : ∀ t, r.resolvedAt = some t → r.createdAt ≤ t

def BornWith (db : Database) (id : Uuid) (e : Conversation) : Prop :=
  ∃ row, db.conversations.find? id = some row ∧ row.createdAt = e.createdAt

def ProcessTimely (clock : Time) (db : Database) : Process → Prop
  | .claim id _ (.locked conv) => conv.id = id ∧ Timely clock conv ∧ BornWith db id conv
  | .claim _ _ (.returned (.ok conv)) => Timely clock conv
  | .resolve id _ _ (.loaded e) => e.conv.id = id ∧ Timely clock e.conv ∧ BornWith db id e.conv
  | .resolve id _ _ (.saving e) => e.conv.id = id ∧ Timely clock e.conv ∧ BornWith db id e.conv
  | .resolve id _ _ (.writing e reread _) => e.conv.id = id ∧ reread.id = id ∧
      Timely clock e.conv ∧ BornWith db id e.conv ∧ Timely clock reread
  | .resolve _ _ _ (.saved e) => Timely clock e.conv
  | .resolve _ _ _ (.noted e) => Timely clock e.conv
  | .resolve _ _ _ (.returned (.ok e)) => Timely clock e.conv
  | _ => True

structure Dated (clock : Time) (s : State) : Prop where
  rows : ∀ r ∈ s.db.conversations.rows, Timely clock r
  messages : ∀ m ∈ s.db.messages.rows, ∀ r, s.db.conversations.find? m.conversationId = some r →
    r.createdAt ≤ m.createdAt
  procs : ∀ p, ProcessTimely clock s.db (s.procs p)

def SameBirths (db db' : Database) : Prop :=
  ∀ id r, db.conversations.find? id = some r →
    ∃ r', db'.conversations.find? id = some r' ∧ r'.createdAt = r.createdAt

variable {db db' : Database} {s t : State} {clock clock' : Time} {id : Uuid}

theorem Timely.later (hclock : clock ≤ clock') {r : Conversation} (h : Timely clock r) :
    Timely clock' r :=
  { h with created := h.created.trans hclock }

theorem BornWith.mono (h : SameBirths db db') {e : Conversation} (hcopy : BornWith db id e) :
    BornWith db' id e := by
  obtain ⟨row, hrow, hcreated⟩ := hcopy
  obtain ⟨row', hrow', hcreated'⟩ := h id row hrow
  exact ⟨row', hrow', hcreated'.trans hcreated⟩

theorem ProcessTimely.mono (h : SameBirths db db') (hclock : clock ≤ clock') {proc : Process}
    (hproc : ProcessTimely clock db proc) : ProcessTimely clock' db' proc := by
  cases proc with
  | idle => trivial
  | claim id user phase =>
    cases phase with
    | locked conv => exact ⟨hproc.1, hproc.2.1.later hclock, hproc.2.2.mono h⟩
    | waiting => trivial
    | returned reply =>
      cases reply with
      | error e => trivial
      | ok conv => exact Timely.later hclock hproc
  | resolve id user dto phase =>
    cases phase with
    | loaded e => exact ⟨hproc.1, hproc.2.1.later hclock, hproc.2.2.mono h⟩
    | saving e => exact ⟨hproc.1, hproc.2.1.later hclock, hproc.2.2.mono h⟩
    | writing e reread _ =>
      obtain ⟨hid, hreread, htimely, hcopy, hread⟩ := hproc
      exact ⟨hid, hreread, htimely.later hclock, hcopy.mono h, hread.later hclock⟩
    | saved e => exact Timely.later hclock hproc
    | noted e => exact Timely.later hclock hproc
    | returned reply =>
      cases reply with
      | error e => trivial
      | ok e => exact Timely.later hclock hproc

theorem SameBirths.refl (db : Database) : SameBirths db db := fun _ r hr => ⟨r, hr, rfl⟩

theorem SameBirths.of_eq (h : db'.conversations = db.conversations) : SameBirths db db' :=
  fun _ r hr => ⟨r, h ▸ hr, rfl⟩

theorem SameBirths.insert {conv : Conversation} (h : db.insertConversation conv = some db') :
    SameBirths db db' := by
  intro id r hr
  obtain ⟨⟨hnew, -⟩, -⟩ := Database.insertConversation_some h
  refine ⟨r, ?_, rfl⟩
  rw [Database.find?_insertConversation h, if_neg, hr]
  rintro rfl
  cases hnew.symm.trans hr

theorem timely_written {nulls : Bool} {e reread row : Conversation} (he : Timely clock e)
    (hrow : Timely clock row)
    (hcreated : row.createdAt = e.createdAt) :
    (written nulls e reread row clock).createdAt = row.createdAt ∧
      Timely clock (written nulls e reread row clock) := by
  have hbirth : (written nulls e reread row clock).createdAt = row.createdAt := by
    simp only [written, merge]
    split
    · rfl
    · exact hcreated.symm
  refine ⟨hbirth, ?_, ?_, ?_, ?_⟩ <;> rw [hbirth]
  · exact hrow.created
  · simp only [written]
    split
    · exact hcreated ▸ he.updated
    · split
      · exact hrow.updated
      · exact hrow.created
  · intro t ht
    simp only [written, merge] at ht
    split at ht
    · exact hrow.claimed t ht
    · exact hcreated ▸ he.claimed t ht
  · intro t ht
    simp only [written, merge] at ht
    split at ht
    · exact hrow.resolved t ht
    · exact hcreated ▸ he.resolved t ht

theorem update_dated {nulls : Bool} {e reread : Conversation} (he : Timely clock e)
    (hcopy : BornWith db reread.id e)
    (hrows : ∀ r ∈ db.conversations.rows, Timely clock r)
    (h : update nulls db e reread clock = some db') :
    SameBirths db db' ∧ ∀ r ∈ db'.conversations.rows, Timely clock r := by
  obtain ⟨row, hrow, hcreated⟩ := hcopy
  obtain ⟨hbirth, htimely⟩ :=
    @timely_written clock nulls e reread row he (hrows row (Table.mem_of_find? hrow)) hcreated
  constructor
  · intro id r hr
    by_cases hid : id = reread.id
    · subst hid
      cases hrow.symm.trans hr
      refine ⟨written nulls e reread row clock, ?_, hbirth⟩
      rw [find?_update_self h, hrow, Option.map_some]
    · exact ⟨r, (find?_update_of_ne h hid).trans hr, rfl⟩
  · intro r hr
    rw [(Database.updateConversation_some h).1, Table.mem_modify] at hr
    rcases hr with ⟨hr, -⟩ | ⟨row', hrow', rfl⟩
    · exact hrows r hr
    · cases hrow.symm.trans hrow'
      exact htimely

theorem Dated.later (hclock : clock ≤ clock') (h : Dated clock s) : Dated clock' s where
  rows r hr := (h.rows r hr).later hclock
  messages := h.messages
  procs p := (h.procs p).mono (.refl s.db) hclock

theorem Dated.moves (h : Dated clock s) {p : Pid} {proc : Process} (hdb : t.db = s.db)
    (hprocs : t.procs = Function.update s.procs p proc) (hproc : ProcessTimely clock s.db proc) :
    Dated clock t where
  rows := hdb ▸ h.rows
  messages := hdb ▸ h.messages
  procs := by
    rw [hdb, hprocs]
    exact (Function.forall_update_iff s.procs fun _ pr => ProcessTimely clock s.db pr).mpr
      ⟨hproc, fun q _ => h.procs q⟩

theorem Dated.store (h : Dated clock s) (hbirths : SameBirths s.db db)
    (hrows : ∀ r ∈ db.conversations.rows, Timely clock r)
    (hmessages : ∀ m ∈ db.messages.rows, m ∈ s.db.messages.rows ∨
      ∀ r, db.conversations.find? m.conversationId = some r → r.createdAt ≤ m.createdAt) :
    Dated clock (s.store db) where
  rows := hrows
  messages m hm r hr := by
    rcases hmessages m hm with hold | hnew
    · obtain ⟨row, hrow⟩ := Option.isSome_iff_exists.mp (s.db.messages_conversation m hold)
      obtain ⟨row', hrow', hcreated⟩ := hbirths _ row hrow
      cases hrow'.symm.trans hr
      exact hcreated ▸ h.messages m hold row hrow
    · exact hnew r hr
  procs p := (h.procs p).mono hbirths le_rfl

theorem create_dates {dto : CreateConversationDto} {user : User} {now : Time} {conv : Conversation}
    (h : create db dto user id now = .ok (conv, db')) : Timely now conv.stored := by
  unfold create at h
  split at h
  · cases h
  · split at h <;> cases h
    exact ⟨le_rfl, le_rfl, nofun, nofun⟩

theorem Dated.create (h : Dated clock s) {dto : CreateConversationDto} {user : User}
    {conv : Conversation} (hcreate : create s.db dto user id clock = .ok (conv, db)) :
    Dated clock (s.store db) := by
  have hins := (create_ok hcreate).1
  obtain ⟨⟨hnew, hconvs⟩, -, -, hmessages⟩ := Database.insertConversation_some hins
  refine h.store (.insert hins) ?_ fun m hm => .inl (hmessages ▸ hm)
  rw [hconvs, Table.rows_insert]
  intro r hr
  rcases List.mem_append.mp hr with hr | hr
  · exact h.rows r hr
  · exact List.mem_singleton.mp hr ▸ create_dates hcreate

theorem Dated.update {nulls : Bool} (h : Dated clock s) {e reread : Conversation}
    (he : Timely clock e) (hcopy : BornWith s.db reread.id e)
    (hupdate : update nulls s.db e reread clock = some db) :
    Dated clock (s.store db) := by
  obtain ⟨hbirths, hrows⟩ := update_dated he hcopy h.rows hupdate
  exact h.store hbirths hrows fun m hm => .inl (messages_update hupdate ▸ hm)

theorem timely_stamped {e : LoadedConversation} (he : Timely clock e.conv)
    (hcopy : BornWith db e.conv.id e.conv) (hrows : ∀ r ∈ db.conversations.rows, Timely clock r) :
    Timely clock (stamped db e).conv := by
  obtain ⟨row, hrow, hcreated⟩ := hcopy
  simp only [stamped, hrow]
  refine ⟨he.created, ?_, he.claimed, he.resolved⟩
  exact hcreated ▸ (hrows row (Table.mem_of_find? hrow)).updated

theorem Dated.note (h : Dated clock s) {m : Message} (hm : m.createdAt = clock)
    (hins : s.db.insertMessage m = some db) : Dated clock (s.store db) := by
  obtain ⟨hmessages, -, -, hconvs⟩ := Database.insertMessage_some hins
  refine h.store (.of_eq hconvs) (hconvs ▸ h.rows) fun n hn => ?_
  rw [hmessages, List.mem_append, List.mem_singleton] at hn
  rcases hn with hn | rfl
  · exact .inl hn
  · right
    intro r hr
    rw [hconvs] at hr
    exact hm ▸ (h.rows r (Table.mem_of_find? hr)).created

theorem Step.dated {a : Action} (hs : Step s a t) (h : Dated clock s)
    (hnow : a.now?.getD clock = clock) : Dated clock t := by
  have hat : ∀ {p proc}, s.procs p = proc → ProcessTimely clock s.db proc := fun hp => hp ▸ h.procs _
  cases hs with
  | @create _ _ _ now _ _ hcreate =>
    obtain rfl : now = clock := hnow
    exact h.create hcreate
  | locks hp hconv hlock =>
    have hfind := (selectConversation_some hconv).1
    have htimely := h.rows _ (Table.mem_of_find? hfind)
    exact h.moves rfl rfl ⟨Table.key_of_find? hfind, htimely, _, hfind, rfl⟩
  | @commits p now id user conv reply db hp hclaim =>
    obtain rfl : now = clock := hnow
    obtain ⟨rfl, hconv, hcopy⟩ := hat hp
    have hassigned : Timely now (assigned conv user now) :=
      ⟨hconv.created, hconv.updated, fun t ht => by cases ht; exact hconv.created, hconv.resolved⟩
    have hreturned : ∀ reply, Timely now reply →
        Dated now ((s.set p (.claim conv.id user (.returned (.ok reply)))).release conv.id) :=
      fun reply hreply => h.moves rfl rfl hreply
    rcases (claimLocked_ok hclaim).2 with ⟨-, rfl, rfl⟩ | ⟨-, hupdate, rfl⟩
    · exact hreturned reply hconv
    · have hreply : Timely now { assigned conv user now with updatedAt := now } :=
        ⟨hassigned.created, hassigned.created, hassigned.claimed, hassigned.resolved⟩
      exact (hreturned _ hreply).update hassigned hcopy hupdate
  | loads hp hload =>
    obtain ⟨conv, hconv, rfl, -⟩ := findOne_ok hload
    have hfind := (selectConversation_some hconv).1
    have htimely := h.rows _ (Table.mem_of_find? hfind)
    exact h.moves rfl rfl ⟨Table.key_of_find? hfind, htimely, _, hfind, rfl⟩
  | @checks p now _ _ _ entity hp =>
    obtain rfl : now = clock := hnow
    obtain ⟨hid, he, hcopy⟩ := hat hp
    have hresolved : Timely now (resolved entity now).conv :=
      ⟨he.created, he.updated, he.claimed, fun t ht => by cases ht; exact he.created⟩
    exact h.moves rfl rfl ⟨hid, hresolved, hcopy⟩
  | rereads hp hfind =>
    obtain ⟨hid, he, hcopy⟩ := hat hp
    have hread := h.rows _ (Table.mem_of_find? hfind)
    exact h.moves rfl rfl ⟨hid, Table.key_of_find? hfind, he, hcopy, hread⟩
  | @writes p now nulls id user dto entity reread related db hp hlock hsave =>
    obtain rfl : now = clock := hnow
    obtain ⟨-, hupdate⟩ := save_some hsave
    obtain ⟨hid, rfl, he, hcopy, -⟩ := hat hp
    have hcolumns : Timely now (columns entity) := ⟨he.created, he.updated, he.claimed, he.resolved⟩
    have hborn : BornWith s.db reread.id (columns entity) := hcopy
    obtain ⟨hbirths, hrows⟩ := update_dated hcolumns hborn h.rows hupdate
    have hstamped := timely_stamped he (hid ▸ hcopy.mono hbirths) hrows
    exact (h.update hcolumns hborn hupdate).moves rfl rfl hstamped
  | noNote hp =>
    have hsaved : Timely clock _ := hat hp
    exact h.moves rfl rfl hsaved
  | @notes p _ now id user dto entity note db hp hnote hins =>
    obtain rfl : now = clock := hnow
    have hsaved : Timely now entity.conv := hat hp
    exact (h.note rfl hins).moves rfl rfl hsaved
  | enqueues hp =>
    have hnoted : Timely clock _ := hat hp
    exact h.moves rfl rfl hnoted
  | _ => exact h.moves rfl rfl trivial

/-- `AVG` and `ROUND` give no negative number for times that are not negative. -/
def Sensible (averages : Analytics.Averages) : Prop :=
  ∀ times, (∀ d ∈ times, 0 ≤ d) → ∀ hours, averages.hours times = some hours → 0 ≤ hours

theorem Dated.stats (h : Dated clock s) {averages : Analytics.Averages} (hsensible : Sensible averages)
    (tenantId : Option Uuid) (now : Time) {hours : Int}
    (hhours : (Analytics.getTenantStats averages s.db tenantId now).avgResolutionHours = some hours) :
    0 ≤ hours := by
  refine hsensible _ ?_ hours hhours
  intro d hd
  obtain ⟨c, hc, hd⟩ := List.mem_filterMap.mp hd
  obtain ⟨t, ht, rfl⟩ := Option.map_eq_some_iff.mp hd
  exact Int.sub_nonneg_of_le ((h.rows c (List.mem_of_mem_filter hc)).resolved t ht)

/-- On a clock that does not go back, the dates of rows, notes and copies stay in order and no
average is negative. -/
theorem run_dated {queue : List ResolutionJob} {as : List Action}
    (hrows : ∀ r ∈ db.conversations.rows, Timely clock r)
    (hmessages : ∀ m ∈ db.messages.rows, ∀ r,
      db.conversations.find? m.conversationId = some r → r.createdAt ≤ m.createdAt)
    (hclock : Machine.Onward Action.now? clock as)
    (h : machine.run (.initial db queue) as = some t) :
    (∃ clock', Dated clock' t) ∧
      ∀ averages, Sensible averages → ∀ tenantId now hours,
        (Analytics.getTenantStats averages t.db tenantId now).avgResolutionHours = some hours →
        0 ≤ hours := by
  have hstart : Dated clock (.initial db queue) := ⟨hrows, hmessages, fun _ => trivial⟩
  obtain ⟨clock', hdated⟩ := Machine.run_onward (I := Dated) (fun _ _ _ hle hs => hs.later hle)
    (fun _ _ _ _ hs hnow hstep => (step_iff.mp hstep).dated hs hnow) hstart hclock h
  exact ⟨⟨clock', hdated⟩,
    fun _ hsensible tenantId now _ hhours => hdated.stats hsensible tenantId now hhours⟩

namespace Sample

def handled : List Action :=
  [.claim 0 conversation agent.toUser, .claimLock 0, .claimCommit 0 1,
    .resolve 1 conversation agent.toUser ⟨none⟩, .resolveCheck 1 2, .resolveReread 1,
    .resolveWrite 1 3 true]

end Sample

theorem run_dated_handled : ∃ t, machine.run (.initial Sample.database []) Sample.handled = some t ∧
    (∃ r ∈ t.db.conversations.rows, r.claimedAt = some 1 ∧ r.resolvedAt = some 2) ∧
    ∃ clock, Dated clock t := by
  have hrun : ∃ t, machine.run (.initial Sample.database []) Sample.handled = some t ∧
      ∃ r ∈ t.db.conversations.rows, r.claimedAt = some 1 ∧ r.resolvedAt = some 2 :=
    ⟨_, rfl, _, List.mem_singleton.mpr rfl, rfl, rfl⟩
  obtain ⟨t, hrun, hdates⟩ := hrun
  refine ⟨t, hrun, hdates, ?_⟩
  have hopen : ∀ r ∈ Sample.database.conversations.rows, Timely 0 r := by
    intro r hr
    obtain rfl := List.mem_singleton.mp hr
    exact ⟨le_rfl, le_rfl, nofun, nofun⟩
  exact (run_dated hopen nofun
    (by simp [Machine.Onward, Sample.handled, Action.now?]) hrun).1

end SupportApi.Conversations
