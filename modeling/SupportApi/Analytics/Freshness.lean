import SupportApi.Analytics.Service
import SupportApi.Conversations.Resolves

namespace SupportApi.Analytics

open Lib Conversations

/-- A `getTopActiveConversations`, with the state of the conversations that its data comes
from, where the query was made in this run. -/
inductive Reader
  | idle
  | missed (user : User)
  | queried (user : User) (data : List TopConversationResult) (origin : Conversations.State)
  | returned (user : User) (result : CachedAnalyticsResult) (origin : Option Conversations.State)

/-- `origin` is, for each key, the state that the query of the entry has seen. -/
structure State where
  conversations : Conversations.State
  now : Time
  cache : Cache
  origin : Option Uuid → Option Conversations.State
  readers : Pid → Reader

inductive Action
  | conversation (a : Conversations.Action)
  | tick (ms : Nat)
  | read (q : Pid) (user : User)
  | query (q : Pid)
  | store (q : Pid) (cachedAt : Time)

namespace State

def initial (db : Database) (queue : List ResolutionJob) (cache : Cache) (now : Time) : State where
  conversations := .initial db queue
  now := now
  cache := cache
  origin _ := none
  readers _ := .idle

def set (s : State) (q : Pid) (reader : Reader) : State :=
  { s with readers := Function.update s.readers q reader }

/-- `SETEX`, with the origin of what is stored. -/
def setex (s : State) (key : Option Uuid) (result : CachedAnalyticsResult)
    (origin : Conversations.State) : State :=
  { s with
    cache := s.cache.setex key CACHE_TTL_SECONDS result s.now
    origin := Function.update s.origin key (some origin) }

end State

variable (order : OrderBy (OrderBy.desc TopConversationResult.messageCount))

def step (s : State) : Action → Option State
  | .conversation a =>
    (Conversations.step s.conversations a).map fun conversations => { s with conversations }
  | .tick ms => some { s with now := s.now + ms }
  | .read q user =>
    match s.readers q with
    | .idle =>
      match s.cache.get user.tenantId s.now with
      | some result => some (s.set q (.returned user result (s.origin user.tenantId)))
      | none => some (s.set q (.missed user))
    | _ => none
  | .query q =>
    match s.readers q with
    | .missed user =>
      some (s.set q (.queried user (aggregate order s.conversations.db user.tenantId s.now)
        s.conversations))
    | _ => none
  | .store q cachedAt =>
    match s.readers q with
    | .queried user data origin =>
      let result := cachedResult data user.tenantId cachedAt
      some ((s.set q (.returned user result (some origin))).setex user.tenantId result origin)
    | _ => none

def machine : Machine State Action := ⟨step order⟩

variable {order} {s t : State}

theorem run_alone {q : Pid} {user : User} (cachedAt : Time) (hq : s.readers q = .idle) :
    ∃ as t result origin, (machine order).run s as = some t ∧
      t.readers q = .returned user result origin ∧
      getTopActiveConversations order s.conversations.db s.cache user
        ⟨s.now, s.now, cachedAt, s.now, true, true⟩ = (result, t.cache) := by
  cases hget : s.cache.get user.tenantId s.now with
  | some result =>
    refine ⟨[.read q user], s.set q (.returned user result (s.origin user.tenantId)), result,
      s.origin user.tenantId, ?_, Function.update_self _ _ _, ?_⟩
    · simp [Machine.run, machine, step, hq, hget]
    · simp only [getTopActiveConversations, if_true, hget]
      rfl
  | none =>
    let data := aggregate order s.conversations.db user.tenantId s.now
    let result := cachedResult data user.tenantId cachedAt
    let missed := s.set q (.missed user)
    let queried := missed.set q (.queried user data s.conversations)
    let stored := (queried.set q (.returned user result (some s.conversations))).setex user.tenantId
      result s.conversations
    have hread : (machine order).step s (.read q user) = some missed := by
      simp [machine, step, hq, hget, missed]
    have hquery : (machine order).step missed (.query q) = some queried := by
      simp [machine, step, missed, queried, State.set, data]
    have hstore : (machine order).step queried (.store q cachedAt) = some stored := by
      simp [machine, step, queried, stored, State.set, result]
    refine ⟨[.read q user, .query q, .store q cachedAt], stored, result, some s.conversations, ?_,
      Function.update_self _ _ _, ?_⟩
    · exact Machine.run_cons_some.mpr ⟨missed, hread,
        Machine.run_cons_some.mpr ⟨queried, hquery, Machine.run_cons_some.mpr ⟨stored, hstore, rfl⟩⟩⟩
    · simp only [getTopActiveConversations, if_true, hget]
      rfl

inductive Step (order : OrderBy (OrderBy.desc TopConversationResult.messageCount)) (s : State) :
    Action → State → Prop
  | conversation {a conversations} : Conversations.Step s.conversations a conversations →
      Step order s (.conversation a) { s with conversations }
  | ticks {ms : Nat} : Step order s (.tick ms) { s with now := s.now + ms }
  | hits {q user result} : s.readers q = .idle → s.cache.get user.tenantId s.now = some result →
      Step order s (.read q user) (s.set q (.returned user result (s.origin user.tenantId)))
  | misses {q user} : s.readers q = .idle → s.cache.get user.tenantId s.now = none →
      Step order s (.read q user) (s.set q (.missed user))
  | queries {q user} : s.readers q = .missed user →
      Step order s (.query q) (s.set q
        (.queried user (aggregate order s.conversations.db user.tenantId s.now) s.conversations))
  | stores {q cachedAt user data origin} : s.readers q = .queried user data origin →
      Step order s (.store q cachedAt)
        ((s.set q (.returned user (cachedResult data user.tenantId cachedAt) (some origin))).setex
          user.tenantId (cachedResult data user.tenantId cachedAt) origin)

theorem step_some {a : Action} (h : (machine order).step s a = some t) : Step order s a t := by
  cases a with
  | conversation a =>
    obtain ⟨conversations, hstep, rfl⟩ := Option.map_eq_some_iff.mp h
    exact .conversation (step_iff.mp hstep)
  | tick ms =>
    cases h
    exact .ticks
  | read q user =>
    simp only [machine, step] at h
    split at h
    · split at h <;> cases h
      · exact .hits ‹_› ‹_›
      · exact .misses ‹_› ‹_›
    · cases h
  | query q =>
    simp only [machine, step] at h
    split at h <;> cases h
    exact .queries ‹_›
  | store q cachedAt =>
    simp only [machine, step] at h
    split at h <;> cases h
    exact .stores ‹_›

def Computed (order : OrderBy (OrderBy.desc TopConversationResult.messageCount))
    (tenantId : Option Uuid) (data : List TopConversationResult) (origin : Conversations.State) :
    Prop :=
  ∃ now, data = aggregate order origin.db tenantId now

def Reader.Honest (order : OrderBy (OrderBy.desc TopConversationResult.messageCount)) :
    Reader → Prop
  | .queried user data origin => Computed order user.tenantId data origin
  | .returned user result (some origin) => Computed order user.tenantId result.data origin
  | _ => True

structure Honest (order : OrderBy (OrderBy.desc TopConversationResult.messageCount)) (s : State) :
    Prop where
  entries : ∀ key entry result origin, s.cache key = some entry → entry.result = some result →
    s.origin key = some origin → Computed order key result.data origin
  readers : ∀ q, (s.readers q).Honest order

theorem Honest.set (h : Honest order s) {q : Pid} {reader : Reader} (hreader : reader.Honest order) :
    Honest order (s.set q reader) where
  entries := h.entries
  readers := (Function.forall_update_iff s.readers fun _ reader => reader.Honest order).mpr
    ⟨hreader, fun q _ => h.readers q⟩

theorem Honest.step {a : Action} (h : Honest order s) (hs : Step order s a t) : Honest order t := by
  cases hs with
  | conversation => exact ⟨h.entries, h.readers⟩
  | ticks => exact ⟨h.entries, h.readers⟩
  | @hits q user result _ hget =>
    obtain ⟨entry, hentry, hresult, -⟩ := Cache.get_some hget
    apply h.set
    cases horigin : s.origin user.tenantId with
    | none => trivial
    | some origin => exact h.entries _ entry result origin hentry hresult horigin
  | misses => exact h.set trivial
  | queries => exact h.set ⟨s.now, rfl⟩
  | @stores q cachedAt user data origin hq =>
    have hdata := h.readers q
    rw [hq] at hdata
    have hset : Honest order
        (s.set q (.returned user (cachedResult data user.tenantId cachedAt) (some origin))) :=
      h.set hdata
    refine ⟨fun key entry result origin' hentry hresult horigin => ?_, hset.readers⟩
    simp only [State.setex, Cache.setex, Function.update_apply] at hentry horigin
    split at hentry
    · rename_i hkey
      rw [if_pos hkey] at horigin
      cases hentry
      cases hresult
      cases horigin
      subst hkey
      exact hdata
    · rename_i hkey
      rw [if_neg hkey] at horigin
      exact h.entries key entry result origin' hentry hresult horigin

def effected : Process → Bool
  | .resolve _ _ dto (.saved _) => (resolutionNote dto).isNone
  | .resolve _ _ _ (.noted _) => true
  | .resolve _ _ _ (.returned (.ok _)) => true
  | _ => false

/-- The state is no older than the resolve `p`. -/
def Since (p : Pid) (origin : Option Conversations.State) : Prop :=
  ∃ u, origin = some u ∧ effected (u.procs p) = true

def ComputedSince (order : OrderBy (OrderBy.desc TopConversationResult.messageCount)) (p : Pid)
    (tenantId : Option Uuid) (data : List TopConversationResult)
    (origin : Option Conversations.State) : Prop :=
  ∃ u, origin = some u ∧ effected (u.procs p) = true ∧ Computed order tenantId data u

/-- Redis still answers for the tenant with what was computed before the resolve `p`. -/
def Outdated (p : Pid) (tenantId : Option Uuid) (s : State) : Prop :=
  s.cache.get tenantId s.now ≠ none ∧ ¬Since p (s.origin tenantId)

def Reader.After (p : Pid) : Reader → Prop
  | .missed _ => True
  | .queried _ _ origin => Since p (some origin)
  | .returned _ _ origin => Since p origin
  | .idle => False

structure Refreshing (p q : Pid) (s : State) : Prop where
  returned : (s.conversations.procs p).returned = true ∧ effected (s.conversations.procs p) = true
  reader : (s.readers q).After p

theorem returned_kept {p : Pid} {a : Action}
    (h : (s.conversations.procs p).returned = true ∧ effected (s.conversations.procs p) = true)
    (hs : Step order s a t) :
    (t.conversations.procs p).returned = true ∧ effected (t.conversations.procs p) = true := by
  cases hs with
  | conversation hstep =>
    rw [hstep.returned h.1]
    exact h
  | _ => exact h

theorem Refreshing.step {p q : Pid} {a : Action} (h : Refreshing p q s) (hs : Step order s a t) :
    Refreshing p q t := by
  refine ⟨returned_kept h.returned hs, ?_⟩
  have hset : ∀ q' reader, (q' = q → reader.After p) →
      (Function.update s.readers q' reader q).After p := by
    intro q' reader hafter
    rw [Function.update_apply]
    split
    · exact hafter (Eq.symm ‹_›)
    · exact h.reader
  cases hs with
  | conversation => exact h.reader
  | ticks => exact h.reader
  | hits hidle =>
    refine hset _ _ fun heq => ?_
    have hreader := h.reader
    rw [← heq, hidle] at hreader
    exact hreader.elim
  | misses => exact hset _ _ fun _ => trivial
  | queries => exact hset _ _ fun _ => ⟨s.conversations, rfl, h.returned.2⟩
  | stores hq =>
    refine hset _ _ fun heq => ?_
    have hreader := h.reader
    rw [← heq, hq] at hreader
    exact hreader

theorem returned_final {q : Pid} {user : User} {result : CachedAnalyticsResult}
    {origin : Option Conversations.State} {a : Action}
    (hq : s.readers q = .returned user result origin) (hs : Step order s a t) :
    t.readers q = .returned user result origin := by
  have hne : ∀ {q' reader}, s.readers q' = reader → (∀ u r o, reader ≠ .returned u r o) → q ≠ q' := by
    rintro q' reader hq' hother rfl
    exact hother _ _ _ (hq'.symm.trans hq)
  cases hs with
  | conversation => exact hq
  | ticks => exact hq
  | hits hidle => exact (Function.update_of_ne (hne hidle (by simp)) _ _).trans hq
  | misses hidle => exact (Function.update_of_ne (hne hidle (by simp)) _ _).trans hq
  | queries hmissed => exact (Function.update_of_ne (hne hmissed (by simp)) _ _).trans hq
  | stores hqueried => exact (Function.update_of_ne (hne hqueried (by simp)) _ _).trans hq

theorem honest_initial (db : Database) (queue : List ResolutionJob) (cache : Cache) (now : Time) :
    Honest order (.initial db queue cache now) where
  entries key entry result origin _ _ horigin := by cases horigin
  readers _ := trivial

theorem Honest.run {as : List Action} (h : Honest order s) (hrun : (machine order).run s as = some t) :
    Honest order t :=
  Machine.run_preserves (fun _ _ _ h hs => h.step (step_some hs)) h hrun

theorem Honest.computedSince_iff (h : Honest order t) {p q : Pid} {reader : User}
    {result : CachedAnalyticsResult} {origin : Option Conversations.State}
    (hq : t.readers q = .returned reader result origin) :
    ComputedSince order p reader.tenantId result.data origin ↔ Since p origin := by
  constructor
  · rintro ⟨u, horigin, heffected, -⟩
    exact ⟨u, horigin, heffected⟩
  · rintro ⟨u, rfl, heffected⟩
    have hdata := h.readers q
    rw [hq] at hdata
    exact ⟨u, rfl, heffected, hdata⟩

/-- A read that starts after a resolve has returned is answered with data that is no older than
the resolve exactly when Redis does not still answer with what was computed before it. -/
theorem refreshed_iff {db : Database} {queue : List ResolutionJob} {cache : Cache} {now : Time}
    {pre post : List Action} {s' : State} {p q : Pid} {c : Uuid} {user reader : User}
    {dto : ResolveConversationDto} {reply : LoadedConversation} {result : CachedAnalyticsResult}
    {origin : Option Conversations.State}
    (hpre : (machine order).run (.initial db queue cache now) pre = some s)
    (hp : s.conversations.procs p = .resolve c user dto (.returned (.ok reply)))
    (hread : (machine order).step s (.read q reader) = some s')
    (hpost : (machine order).run s' post = some t)
    (hq : t.readers q = .returned reader result origin) :
    ComputedSince order p reader.tenantId result.data origin ↔ ¬Outdated p reader.tenantId s := by
  have hs : Honest order s := (honest_initial db queue cache now).run hpre
  have ht : Honest order t := (hs.step (step_some hread)).run hpost
  rw [ht.computedSince_iff hq]
  cases step_some hread with
  | @hits _ _ result' hidle hget =>
    have hanswer : (s.set q (.returned reader result' (s.origin reader.tenantId))).readers q =
        .returned reader result' (s.origin reader.tenantId) := Function.update_self _ _ _
    have hfinal := Machine.run_preserves
      (fun _ _ _ h hs => returned_final h (step_some hs)) hanswer hpost
    cases hq.symm.trans hfinal
    simp only [Outdated, hget, ne_eq, reduceCtorEq, not_false_eq_true, true_and, not_not]
  | misses hidle hget =>
    have hstart : Refreshing p q (s.set q (.missed reader)) := by
      constructor
      · change (s.conversations.procs p).returned = true ∧ effected (s.conversations.procs p) = true
        rw [hp]
        exact ⟨rfl, rfl⟩
      · simp only [State.set, Function.update_self]
        trivial
    have hafter := (Machine.run_preserves
      (fun _ _ _ h hs => Refreshing.step h (step_some hs)) hstart hpost).reader
    rw [hq] at hafter
    simp only [Outdated, hget, ne_eq, not_true_eq_false, false_and, not_false_eq_true, iff_true]
    exact hafter

namespace Sample

open Conversations.Sample

def filling : List Action :=
  [.read 0 admin.toUser, .query 0, .store 0 0, .tick 8] ++
    Conversations.Sample.resolving.map .conversation

def waiting : List Action := [.tick 1000]

def resolving : List Action := Conversations.Sample.resolving.map .conversation

def reading : List Action := [.query 1, .store 1 1000]

end Sample

theorem refreshed_iff_first : ∃ s s' t result origin,
    (machine (.stable _)).run (.initial Conversations.Sample.database [] (fun _ => none) 0)
      Sample.resolving = some s ∧
    (machine (.stable _)).step s (.read 1 Conversations.Sample.admin.toUser) = some s' ∧
    (machine (.stable _)).run s' Sample.reading = some t ∧
    t.readers 1 = .returned Conversations.Sample.admin.toUser result origin ∧
    ComputedSince (.stable _) 0 (some Conversations.Sample.tenant.id) result.data origin := by
  refine ⟨_, _, _, _, _, rfl, rfl, rfl, rfl, ?_⟩
  refine (@refreshed_iff (.stable _) _ _ Conversations.Sample.database [] (fun _ => none) 0
    Sample.resolving Sample.reading _ 0 1 Conversations.Sample.conversation _
    Conversations.Sample.admin.toUser _ _ _ _ rfl rfl rfl rfl rfl).mpr ?_
  exact fun houtdated => houtdated.1 rfl

theorem read_after_resolve : ¬∀ (order : OrderBy (OrderBy.desc TopConversationResult.messageCount))
    (db : Database) (queue : List ResolutionJob) (cache : Cache) (now : Time)
    (pre wait post : List Action) (s₀ s s' t : State) (p q : Pid) (c T : Uuid)
    (row : Conversation) (user reader : User) (dto : ResolveConversationDto)
    (reply : LoadedConversation) (result : CachedAnalyticsResult)
    (origin : Option Conversations.State),
    (machine order).run (.initial db queue cache now) pre = some s₀ →
    s₀.conversations.procs p = .resolve c user dto (.returned (.ok reply)) →
    s₀.conversations.db.conversations.find? c = some row → row.tenantId = T →
    (∀ a ∈ wait, ∃ ms, a = .tick ms) → (machine order).run s₀ wait = some s →
    reader.tenantId = some T → (machine order).step s (.read q reader) = some s' →
    (machine order).run s' post = some t → t.readers q = .returned reader result origin →
    ComputedSince order p (some T) result.data origin := by
  intro h
  have hcomputed := h (.stable _) Conversations.Sample.database [] (fun _ => none) 0 Sample.filling
    Sample.waiting [] _ _ _ _ 0 1 Conversations.Sample.conversation Conversations.Sample.tenant.id _ _
    Conversations.Sample.admin.toUser _ _ _ _ rfl rfl rfl rfl (by simp [Sample.waiting]) rfl rfl rfl rfl
    rfl
  obtain ⟨u, horigin, heffected, -⟩ := hcomputed
  cases horigin
  cases heffected

end SupportApi.Analytics
