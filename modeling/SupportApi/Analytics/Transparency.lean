import SupportApi.Analytics.Service
import SupportApi.Conversations.Requests
import SupportApi.Lib.Machine

/-! Calls of `getTopActiveConversations` side by side, on a database that others change and a
Redis that fails. -/

namespace SupportApi.Analytics.Transparency

open Lib

abbrev Order := OrderBy (OrderBy.desc TopConversationResult.messageCount)

abbrev Pid := Nat

inductive Call
  | idle
  | missed (user : User)
  | queried (user : User) (data : List TopConversationResult)
  | storing (user : User) (result : CachedAnalyticsResult)
  | stored (user : User) (result : CachedAnalyticsResult)
  | returned (user : User) (result : CachedAnalyticsResult)
  | failed (user : User)

structure State where
  db : Database
  now : Time
  cache : Cache
  calls : Pid → Call

inductive Action
  | change (db : Database)
  | tick (ms : Nat)
  -- Redis evicts an entry, or `invalidateTenantCache` deletes it
  | del (key : Option Uuid)
  -- a value that does not parse
  | garble (key : Option Uuid) (expireAt : Time)
  -- Redis answers `GET`, or the read throws
  | read (q : Pid) (user : User) (answers : Bool)
  -- the rows in the order that PostgreSQL chooses, or the query throws
  | query (q : Pid) (rows : Option Order)
  | build (q : Pid)
  | setex (q : Pid)
  -- the write is over; it throws if Redis has not stored the value, and may throw if it has
  | settle (q : Pid)

namespace State

def initial (db : Database) (cache : Cache) (now : Time) : State := ⟨db, now, cache, fun _ => .idle⟩

def set (s : State) (q : Pid) (call : Call) : State :=
  { s with calls := Function.update s.calls q call }

@[simp] theorem set_calls (s : State) (q : Pid) (call : Call) :
    (s.set q call).calls = Function.update s.calls q call := rfl

@[simp] theorem set_cache (s : State) (q : Pid) (call : Call) : (s.set q call).cache = s.cache := rfl

@[simp] theorem set_now (s : State) (q : Pid) (call : Call) : (s.set q call).now = s.now := rfl

end State

def step (s : State) : Action → Option State
  | .change db => some { s with db }
  | .tick ms => some { s with now := s.now + ms }
  | .del key => some { s with cache := s.cache.del key }
  | .garble key expireAt =>
    some { s with cache := Function.update s.cache key (some ⟨none, expireAt⟩) }
  | .read q user answers =>
    match s.calls q with
    | .idle =>
      match if answers then s.cache.get user.tenantId s.now else none with
      | some result => some (s.set q (.returned user result))
      | none => some (s.set q (.missed user))
    | _ => none
  | .query q rows =>
    match s.calls q with
    | .missed user =>
      match rows with
      | some order => some (s.set q (.queried user (aggregate order s.db user.tenantId s.now)))
      | none => some (s.set q (.failed user))
    | _ => none
  | .build q =>
    match s.calls q with
    | .queried user data =>
      some (s.set q (.storing user (cachedResult data user.tenantId s.now)))
    | _ => none
  | .setex q =>
    match s.calls q with
    | .storing user result =>
      some { s.set q (.stored user result) with
        cache := s.cache.setex user.tenantId CACHE_TTL_SECONDS result s.now }
    | _ => none
  | .settle q =>
    match s.calls q with
    | .storing user result => some (s.set q (.returned user result))
    | .stored user result => some (s.set q (.returned user result))
    | _ => none

def machine : Machine State Action := ⟨step⟩

inductive Step (s : State) : Action → State → Prop
  | changes {db} : Step s (.change db) { s with db }
  | ticks {ms : Nat} : Step s (.tick ms) { s with now := s.now + ms }
  | dels {key} : Step s (.del key) { s with cache := s.cache.del key }
  | garbles {key expireAt} : Step s (.garble key expireAt)
      { s with cache := Function.update s.cache key (some ⟨none, expireAt⟩) }
  | hits {q user result} : s.calls q = .idle → s.cache.get user.tenantId s.now = some result →
      Step s (.read q user true) (s.set q (.returned user result))
  | misses {q user answers} : s.calls q = .idle → Step s (.read q user answers) (s.set q (.missed user))
  | queries {q user order} : s.calls q = .missed user → Step s (.query q (some order))
      (s.set q (.queried user (aggregate order s.db user.tenantId s.now)))
  | fails {q user} : s.calls q = .missed user → Step s (.query q none) (s.set q (.failed user))
  | builds {q user data} : s.calls q = .queried user data → Step s (.build q)
      (s.set q (.storing user (cachedResult data user.tenantId s.now)))
  | stores {q user result} : s.calls q = .storing user result → Step s (.setex q)
      { s.set q (.stored user result) with
        cache := s.cache.setex user.tenantId CACHE_TTL_SECONDS result s.now }
  | throws {q user result} : s.calls q = .storing user result →
      Step s (.settle q) (s.set q (.returned user result))
  | settles {q user result} : s.calls q = .stored user result →
      Step s (.settle q) (s.set q (.returned user result))

variable {s t : State}

theorem step_some {a : Action} (h : machine.step s a = some t) : Step s a t := by
  cases a with
  | change db =>
    cases h
    exact .changes
  | tick ms =>
    cases h
    exact .ticks
  | del key =>
    cases h
    exact .dels
  | garble key expireAt =>
    cases h
    exact .garbles
  | read q user answers =>
    simp only [machine, step] at h
    cases hq : s.calls q <;> rw [hq] at h <;> try cases h
    cases hget : (if answers then s.cache.get user.tenantId s.now else none) with
    | none =>
      rw [hget] at h
      cases h
      exact .misses hq
    | some result =>
      rw [hget] at h
      cases h
      cases answers with
      | false => cases hget
      | true => exact .hits hq hget
  | query q rows =>
    simp only [machine, step] at h
    cases hq : s.calls q <;> rw [hq] at h <;> try cases h
    cases rows with
    | none =>
      cases h
      exact .fails hq
    | some order =>
      cases h
      exact .queries hq
  | build q =>
    simp only [machine, step] at h
    cases hq : s.calls q <;> rw [hq] at h <;> cases h
    exact .builds hq
  | setex q =>
    simp only [machine, step] at h
    cases hq : s.calls q <;> rw [hq] at h <;> cases h
    exact .stores hq
  | settle q =>
    simp only [machine, step] at h
    cases hq : s.calls q <;> rw [hq] at h <;> cases h
    · exact .throws hq
    · exact .settles hq

def awaits (q : Pid) (user : User) (order : Order) (reads writes : Bool) : List Action :=
  [.read q user reads, .query q (some order), .build q] ++
    (if writes then [.setex q] else []) ++ [.settle q]

theorem run_alone {q : Pid} (user : User) (order : Order) (reads writes : Bool)
    (hq : s.calls q = .idle) :
    ∃ as t result, as <+: awaits q user order reads writes ∧ machine.run s as = some t ∧
      t.calls q = .returned user result ∧
      getTopActiveConversations order s.db s.cache user
        ⟨s.now, s.now, s.now, s.now, reads, writes⟩ = (result, t.cache) := by
  cases hget : (if reads then s.cache.get user.tenantId s.now else none) with
  | some result =>
    refine ⟨[.read q user reads], s.set q (.returned user result), result, ⟨_, rfl⟩, ?_,
      Function.update_self _ _ _, ?_⟩
    · simp only [Machine.run, machine, step, hq, hget, Option.bind_some]
    · simp only [getTopActiveConversations, hget]
      rfl
  | none =>
    refine ⟨awaits q user order reads writes, ⟨s.db, s.now,
        if writes then s.cache.setex user.tenantId CACHE_TTL_SECONDS
          (cachedResult (aggregate order s.db user.tenantId s.now) user.tenantId s.now) s.now
        else s.cache,
        Function.update s.calls q (.returned user
          (cachedResult (aggregate order s.db user.tenantId s.now) user.tenantId s.now))⟩,
      _, List.prefix_rfl, ?_, Function.update_self _ _ _, ?_⟩
    · cases writes <;>
        simp [awaits, Machine.run, machine, step, hq, hget, State.set]
    · simp only [getTopActiveConversations, hget]
      rfl

def Call.rank : Call → Nat
  | .idle => 5
  | .missed _ => 4
  | .queried _ _ => 3
  | .storing _ _ => 2
  | .stored _ _ => 1
  | .returned _ _ => 0
  | .failed _ => 0

def Action.of (q : Pid) : Action → Bool
  | .read q' _ _ | .query q' _ | .build q' | .setex q' | .settle q' => q' = q
  | _ => false

theorem rank_step {q : Pid} {a : Action} (hs : Step s a t) :
    (t.calls q).rank + (if a.of q then 1 else 0) ≤ (s.calls q).rank := by
  have hset : ∀ {q' : Pid} {call : Call}, call.rank < (s.calls q').rank →
      (Function.update s.calls q' call q).rank + (if q' = q then 1 else 0) ≤ (s.calls q).rank := by
    intro q' call hlt
    by_cases heq : q' = q
    · subst heq
      rw [Function.update_self, if_pos rfl]
      exact hlt
    · rw [Function.update_of_ne (Ne.symm heq), if_neg heq]
      exact Nat.le_refl _
  cases hs with
  | changes | ticks | dels | garbles => exact Nat.le_refl _
  | hits hq | misses hq | queries hq | fails hq | builds hq | stores hq | throws hq | settles hq =>
    simp only [Action.of, decide_eq_true_eq]
    apply hset
    rw [hq]
    simp only [Call.rank, Nat.lt_add_one, Nat.zero_lt_succ]

theorem rank_run {q : Pid} {as : List Action} (h : machine.run s as = some t) :
    (t.calls q).rank + as.countP (Action.of q) ≤ (s.calls q).rank := by
  induction as generalizing s with
  | nil =>
    cases h
    exact Nat.le_refl _
  | cons a as ih =>
    obtain ⟨u, hu, ht⟩ := Machine.run_cons_some.mp h
    have hstep := rank_step (q := q) (step_some hu)
    have hrun := ih ht
    rw [List.countP_cons]
    omega

def Call.Over : Call → Prop
  | .returned _ _ | .failed _ => True
  | _ => False

theorem over_or_enabled {q : Pid} (h : s.calls q ≠ .idle) :
    (s.calls q).Over ∨ ∃ a u, a.of q = true ∧ machine.step s a = some u := by
  have hof : decide (q = q) = true := decide_eq_true rfl
  cases hq : s.calls q with
  | idle => exact absurd hq h
  | missed user => exact .inr ⟨.query q none, _, hof, by simp only [machine, step, hq]; rfl⟩
  | queried user data => exact .inr ⟨.build q, _, hof, by simp only [machine, step, hq]; rfl⟩
  | storing user result => exact .inr ⟨.settle q, _, hof, by simp only [machine, step, hq]; rfl⟩
  | stored user result => exact .inr ⟨.settle q, _, hof, by simp only [machine, step, hq]; rfl⟩
  | returned user result => exact .inl trivial
  | failed user => exact .inl trivial

def Call.reply : Call → Option (User × CachedAnalyticsResult)
  | .storing user result | .stored user result | .returned user result => some (user, result)
  | _ => none

theorem reply_step {q : Pid} {reply : User × CachedAnalyticsResult} {a : Action}
    (h : (s.calls q).reply = some reply) (hs : Step s a t) : (t.calls q).reply = some reply := by
  have hset : ∀ {q' : Pid} {call : Call},
      (∀ reply, (s.calls q').reply = some reply → call.reply = some reply) →
      (Function.update s.calls q' call q).reply = some reply := by
    intro q' call hcall
    by_cases heq : q = q'
    · subst heq
      rw [Function.update_self]
      exact hcall reply h
    · rw [Function.update_of_ne heq]
      exact h
  cases hs with
  | changes | ticks | dels | garbles => exact h
  | hits hq | misses hq | queries hq | fails hq | builds hq | stores hq | throws hq | settles hq =>
    apply hset
    intro reply hreply
    rw [hq] at hreply
    cases hreply <;> rfl

variable (start : State) (as : List Action)

def Aggregated (q : Pid) (tenantId : Option Uuid) (data : List TopConversationResult) : Prop :=
  machine.Occurs (fun s a => ∃ user order, a = .query q (some order) ∧ s.calls q = .missed user ∧
    user.tenantId = tenantId ∧ data = aggregate order s.db tenantId s.now) start as

def Stored (q : Pid) (tenantId : Option Uuid) (result : CachedAnalyticsResult) (time : Time) : Prop :=
  machine.Occurs (fun s a => ∃ user, a = .setex q ∧ s.calls q = .storing user result ∧
    user.tenantId = tenantId ∧ s.now = time) start as

def Served (q : Pid) (user : User) (result : CachedAnalyticsResult) (time : Time) : Prop :=
  machine.Occurs (fun s a => a = .read q user true ∧ s.calls q = .idle ∧
    s.cache.get user.tenantId s.now = some result ∧ s.now = time) start as

structure Source (s : State) (q : Pid) (tenantId : Option Uuid) (result : CachedAnalyticsResult)
    (time : Time) : Prop where
  reply : ∃ user, (s.calls q).reply = some (user, result) ∧ user.tenantId = tenantId
  aggregated : Aggregated start as q tenantId result.data
  stored : Stored start as q tenantId result time
  past : time ≤ s.now

/-- The reply of the call `q` was stored by another less than half an hour before. -/
def FromCache (s : State) (q : Pid) (user : User) (result : CachedAnalyticsResult) : Prop :=
  ∃ q' written read, Source start as s q' user.tenantId result written ∧
    Served start as q user result read ∧ written ≤ read ∧ read < written + 30 * 60 * 1000

def Call.Explained (s : State) (q : Pid) : Call → Prop
  | .idle | .missed _ => True
  | .queried user data => Aggregated start as q user.tenantId data
  | .storing user result | .stored user result => Aggregated start as q user.tenantId result.data
  | .returned user result =>
    Aggregated start as q user.tenantId result.data ∨ FromCache start as s q user result
  | .failed _ => machine.Occurs (fun _ a => a = .query q none) start as

structure Explained (s : State) : Prop where
  entries : ∀ key entry result, s.cache key = some entry → entry.result = some result →
    ∃ q time, Source start as s q key result time ∧ entry.expireAt = time + 30 * 60 * 1000
  calls : ∀ q, (s.calls q).Explained start as s q

variable {start as} {a : Action}

theorem now_mono (hs : Step s a t) : s.now ≤ t.now := by
  cases hs with
  | ticks => exact Int.le_add_of_nonneg_right (Int.natCast_nonneg _)
  | _ => exact Int.le_refl _

theorem Source.step {q : Pid} {tenantId : Option Uuid} {result : CachedAnalyticsResult} {time : Time}
    (h : Source start as s q tenantId result time) (hs : Step s a t) :
    Source start (as ++ [a]) t q tenantId result time where
  reply := by
    obtain ⟨user, hreply, htenant⟩ := h.reply
    exact ⟨user, reply_step hreply hs, htenant⟩
  aggregated := h.aggregated.append [a]
  stored := h.stored.append [a]
  past := Int.le_trans h.past (now_mono hs)

theorem Call.Explained.step {q : Pid} {call : Call} (h : call.Explained start as s q)
    (hs : Step s a t) : call.Explained start (as ++ [a]) t q := by
  cases call with
  | idle | missed => trivial
  | queried | storing | stored | failed => exact Machine.Occurs.append h [a]
  | returned user result =>
    rcases h with h | ⟨q', written, read, hsource, hserved, hle, hlt⟩
    · exact .inl (Machine.Occurs.append h [a])
    · exact .inr ⟨q', written, read, hsource.step hs, hserved.append [a], hle, hlt⟩

theorem Explained.step (h : Explained start as s) (hrun : machine.run start as = some s)
    (hstep : machine.step s a = some t) : Explained start (as ++ [a]) t := by
  have hs : Step s a t := step_some hstep
  have hentry : ∀ {key entry result}, s.cache key = some entry → entry.result = some result →
      ∃ q time, Source start (as ++ [a]) t q key result time ∧
        entry.expireAt = time + 30 * 60 * 1000 := by
    intro key entry result hentry hresult
    obtain ⟨q, time, hsource, hexpire⟩ := h.entries key entry result hentry hresult
    exact ⟨q, time, hsource.step hs, hexpire⟩
  have hcall : ∀ q, (s.calls q).Explained start (as ++ [a]) t q := fun q => (h.calls q).step hs
  have hknown : ∀ {q call}, s.calls q = call → call.Explained start (as ++ [a]) t q := by
    rintro q call rfl
    exact hcall q
  have hset : ∀ {q call}, call.Explained start (as ++ [a]) t q →
      ∀ q', (Function.update s.calls q call q').Explained start (as ++ [a]) t q' := by
    intro q call hnew q'
    by_cases heq : q' = q
    · subst heq
      rw [Function.update_self]
      exact hnew
    · rw [Function.update_of_ne heq]
      exact hcall q'
  cases hs with
  | changes | ticks => exact ⟨fun _ _ _ => hentry, hcall⟩
  | @dels key =>
    refine ⟨fun key' entry result hkey => ?_, hcall⟩
    simp only [Cache.del, Function.update_apply] at hkey
    split at hkey
    · cases hkey
    · exact hentry hkey
  | @garbles key expireAt =>
    refine ⟨fun key' entry result hkey hresult => ?_, hcall⟩
    simp only [Function.update_apply] at hkey
    split at hkey
    · cases hkey
      cases hresult
    · exact hentry hkey hresult
  | @hits q user result hq hget =>
    refine ⟨fun _ _ _ => hentry, hset (.inr ?_)⟩
    obtain ⟨entry, hkey, hresult, halive⟩ := Cache.get_some hget
    obtain ⟨q', written, hsource, hexpire⟩ := hentry hkey hresult
    refine ⟨q', written, s.now, hsource, ?_, hsource.past, hexpire ▸ halive⟩
    exact Machine.occurs_concat hrun ⟨rfl, hq, hget, rfl⟩
  | misses hq => exact ⟨fun _ _ _ => hentry, hset trivial⟩
  | queries hq =>
    exact ⟨fun _ _ _ => hentry,
      hset (Machine.occurs_concat hrun ⟨_, _, rfl, hq, rfl, rfl⟩)⟩
  | fails hq => exact ⟨fun _ _ _ => hentry, hset (Machine.occurs_concat hrun rfl)⟩
  | @builds q user data hq =>
    have hq' := hknown hq
    exact ⟨fun _ _ _ => hentry, hset hq'⟩
  | @stores q user result hq =>
    have hq' := hknown hq
    refine ⟨fun key entry result' hkey hresult => ?_, hset hq'⟩
    simp only [Cache.setex, Function.update_apply] at hkey
    split at hkey
    · rename_i heq
      cases hkey
      cases hresult
      subst heq
      refine ⟨q, s.now, ⟨⟨user, ?_, rfl⟩, hq', ?_, Int.le_refl _⟩, rfl⟩
      · simp only [State.set_calls, Function.update_self]
        rfl
      · exact Machine.occurs_concat hrun ⟨user, rfl, hq, rfl, rfl⟩
    · exact hentry hkey hresult
  | throws hq | settles hq => exact ⟨fun _ _ _ => hentry, hset (.inl (hknown hq))⟩

theorem summary_some {db : Database} {c : Conversation} {row : TopConversationResult}
    (h : summary db c = some row) : row.conversationId = c.id ∧ row.tenantId = c.tenantId := by
  unfold summary at h
  split at h
  · cases h
  · cases h
    exact ⟨rfl, rfl⟩

theorem of_mem_aggregate {order : Order} {db : Database} {tenantId : Option Uuid} {now : Time}
    {row : TopConversationResult} (h : row ∈ aggregate order db tenantId now) :
    ∃ c ∈ db.conversations.select (recent tenantId now), row.conversationId = c.id ∧
      row.tenantId = c.tenantId := by
  have hrow := (order.mem_sort).mp (List.mem_of_mem_take h)
  obtain ⟨c, hc, hsummary⟩ := List.mem_filterMap.mp hrow
  exact ⟨c, hc, summary_some hsummary⟩

theorem tenantId_of_mem_aggregate {order : Order} {db : Database} {T : Uuid} {now : Time}
    {row : TopConversationResult} (h : row ∈ aggregate order db (some T) now) : row.tenantId = T := by
  obtain ⟨c, hc, -, htenant⟩ := of_mem_aggregate h
  have hrecent : recent (some T) now c = true := (List.mem_filter.mp hc).2
  simp only [recent, Option.all_some, Bool.and_eq_true, decide_eq_true_eq] at hrecent
  exact htenant.trans hrecent.1

theorem Aggregated.tenantId {q : Pid} {T : Uuid} {data : List TopConversationResult}
    (h : Aggregated start as q (some T) data) : ∀ row ∈ data, row.tenantId = T := by
  obtain ⟨_, _, _, u, _, _, _, _, _, _, _, rfl⟩ := h
  exact fun row hrow => tenantId_of_mem_aggregate hrow

theorem explained_initial {db : Database} {cache : Cache} {now : Time}
    (hcache : ∀ key entry, cache key = some entry → entry.result = none) :
    Explained (.initial db cache now) [] (.initial db cache now) where
  entries key entry result hkey hresult := by
    rw [hcache key entry hkey] at hresult
    cases hresult
  calls _ := trivial

theorem explained_run {db : Database} {cache : Cache} {now : Time}
    (hcache : ∀ key entry, cache key = some entry → entry.result = none)
    (h : machine.run (.initial db cache now) as = some t) : Explained (.initial db cache now) as t :=
  Machine.run_history (explained_initial hcache) (fun _ _ _ _ hrun hs => hs.step hrun) h

/-- The cache is transparent. -/
theorem transparent {db : Database} {cache : Cache} {now : Time}
    (hcache : ∀ key entry, cache key = some entry → entry.result = none)
    (h : machine.run (.initial db cache now) as = some t) :
    (∀ q, as.countP (Action.of q) ≤ 5 ∧ (t.calls q ≠ .idle →
      (t.calls q).Over ∨ ∃ a u, a.of q = true ∧ machine.step t a = some u)) ∧
    (∀ q user, t.calls q = .failed user →
      machine.Occurs (fun _ a => a = .query q none) (.initial db cache now) as) ∧
    ∀ q user result, t.calls q = .returned user result →
      (Aggregated (.initial db cache now) as q user.tenantId result.data ∨
        FromCache (.initial db cache now) as t q user result) ∧
      ∀ T, user.tenantId = some T → ∀ row ∈ result.data, row.tenantId = T := by
  have hexplained := explained_run hcache h
  refine ⟨fun q => ⟨?_, over_or_enabled⟩, fun q user hq => ?_, fun q user result hq => ?_⟩
  · have hrank := rank_run (q := q) h
    exact Nat.le_trans (Nat.le_add_left _ _) hrank
  · have hcall := hexplained.calls q
    rw [hq] at hcall
    exact hcall
  · have hcall := hexplained.calls q
    rw [hq] at hcall
    refine ⟨hcall, fun T hT => ?_⟩
    rcases hcall with haggregated | ⟨q', written, read, hsource, -⟩
    · rw [hT] at haggregated
      exact haggregated.tenantId
    · have haggregated := hsource.aggregated
      rw [hT] at haggregated
      exact haggregated.tenantId

open Conversations.Sample in
def Sample.twice : List Action :=
  [.garble admin.tenantId 9, .read 0 admin.toUser true, .query 0 (some (.stable _)), .build 0,
    .setex 0, .settle 0, .tick 60000, .read 1 admin.toUser true]

theorem transparent_twice : ∃ t result,
    machine.run (.initial Conversations.Sample.database (fun _ => none) 0) Sample.twice = some t ∧
    t.calls 1 = .returned Conversations.Sample.admin.toUser result ∧
    (Aggregated (.initial Conversations.Sample.database (fun _ => none) 0) Sample.twice 1
        Conversations.Sample.admin.tenantId result.data ∨
      FromCache (.initial Conversations.Sample.database (fun _ => none) 0) Sample.twice t 1
        Conversations.Sample.admin.toUser result) := by
  refine ⟨_, _, rfl, rfl, ?_⟩
  exact ((@transparent _ Sample.twice Conversations.Sample.database (fun _ => none) 0
    (fun _ _ h => nomatch h) rfl).2.2 1 _ _ rfl).1

end SupportApi.Analytics.Transparency
