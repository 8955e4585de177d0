import SupportApi.Lib.Slice
import SupportApi.RateLimit.CheckLimit

namespace SupportApi.RateLimit

open Lib

structure RouteConfig extends RateLimitConfig where
  keyPrefix : String
  deriving DecidableEq

structure Client where
  userId : Option String
  ip : Option String
  remoteAddress : Option String
  deriving DecidableEq

/-- `text || fallback`. -/
def orElse (text : Option String) (fallback : String) : String :=
  match text.filter fun t => t ≠ "" with
  | some t => t
  | none => fallback

inductive Identifier
  | user (userId : String)
  | ip (address : String)
  deriving DecidableEq

def Identifier.text : Identifier → String
  | .user userId => "user:" ++ userId
  | .ip address => "ip:" ++ address

def Client.identifier (client : Client) : Identifier :=
  match client.userId.filter fun t => t ≠ "" with
  | some userId => .user userId
  | none => .ip (orElse client.ip (orElse client.remoteAddress "unknown"))

structure Visit where
  route : RouteConfig
  client : Client

def Visit.key (visit : Visit) : String :=
  "ratelimit:" ++ visit.route.keyPrefix ++ ":" ++ visit.client.identifier.text

structure TooManyRequests where
  statusCode : Nat
  message : String
  retryAfter : Int
  deriving DecidableEq

/-- The headers it sets, and what it throws instead of calling `next`. -/
structure Response where
  headers : List (String × Int)
  thrown : Option TooManyRequests
  deriving DecidableEq

def respond (config : RateLimitConfig) (result : Result) : Response :=
  let headers := [("X-RateLimit-Limit", (config.limit : Int)),
    ("X-RateLimit-Remaining", (result.remaining : Int)), ("X-RateLimit-Window-Ms", config.windowMs)]
  if result.allowed then ⟨headers, none⟩
  else
    { headers := headers ++ [("Retry-After", result.retryAfter)]
      thrown := some
        { statusCode := 429
          message := "Rate limit exceeded. Try again in " ++ toString result.retryAfter ++ "s."
          retryAfter := result.retryAfter } }

def Call.response (config : RateLimitConfig) : Call → Option Response
  | .returned _ _ _ result => some (respond config result)
  | _ => none

structure Redis where
  clock : Time
  keys : String → Key
  calls : Pid → Call

def Action.pid? : Action → Option Pid
  | .tick _ => none
  | .start p _ => some p
  | .zremrangebyscore p => some p
  | .zcard p => some p
  | .zadd p => some p
  | .pexpire p => some p
  | .reply p => some p

def Action.elapsed : Action → Nat
  | .tick ms => ms
  | _ => 0

namespace Redis

def start (clock : Time) : Redis := ⟨clock, fun _ => .absent, fun _ => .idle⟩

def under (s : Redis) (key : String) : State := ⟨s.clock, s.keys key, s.calls⟩

def put (s : Redis) (key : String) (t : State) : Redis :=
  { s with keys := Function.update s.keys key t.key, calls := t.calls }

end Redis

variable (visits : Pid → Visit)

def serve (s : Redis) (a : Action) : Option Redis :=
  match a.pid? with
  | none => some { s with clock := s.clock + a.elapsed }
  | some p =>
    (step (visits p).route.toRateLimitConfig (s.under (visits p).key) a).map
      (s.put (visits p).key)

def routes : Machine Redis Action := ⟨serve visits⟩

def Redis.response (s : Redis) (p : Pid) : Option Response :=
  (s.calls p).response (visits p).route.toRateLimitConfig

def State.only (s : State) (mine : Pid → Bool) : State :=
  { s with calls := fun p => if mine p then s.calls p else .idle }

variable {visits}

section Step

variable {config : RateLimitConfig} {s t : State} {mine : Pid → Bool} {p : Pid} {a : Action}

theorem State.only_calls (hp : mine p = true) : (s.only mine).calls p = s.calls p := if_pos hp

theorem State.only_set (hp : mine p = true) (call : Call) :
    (s.set p call).only mine = (s.only mine).set p call := by
  simp only [State.only, State.set, State.mk.injEq, true_and]
  funext q
  by_cases hq : q = p
  · subst hq
    simp [hp]
  · simp [hq]

theorem State.only_write (hp : mine p = true) (key : Key) (call : Call) :
    (s.write key p call).only mine = (s.only mine).write key p call :=
  congrArg (fun r : State => { r with key := key }) (State.only_set (s := s) hp call)

theorem step_only (ha : a.pid? = some p) (hp : mine p = true) (h : step config s a = some t) :
    step config (s.only mine) a = some (t.only mine) := by
  cases a with
  | tick ms => cases ha
  | start q random =>
    cases ha
    simp only [step, State.only_calls hp] at h ⊢
    split at h <;> cases h
    rw [State.only_set hp]
    rfl
  | zremrangebyscore q =>
    cases ha
    simp only [step, State.only_calls hp] at h ⊢
    split at h <;> cases h
    rw [State.only_write hp]
    rfl
  | zcard q =>
    cases ha
    simp only [step, State.only_calls hp] at h ⊢
    split at h <;> cases h
    rw [State.only_set hp]
    rfl
  | zadd q =>
    cases ha
    simp only [step, State.only_calls hp] at h ⊢
    split at h <;> cases h
    rw [State.only_write hp]
    rfl
  | pexpire q =>
    cases ha
    simp only [step, State.only_calls hp] at h ⊢
    split at h <;> cases h
    rw [State.only_write hp]
    rfl
  | reply q =>
    cases ha
    simp only [step, State.only_calls hp] at h ⊢
    split at h <;> cases h
    rw [State.only_set hp]
    rfl

theorem step_frame (ha : a.pid? = some p) (h : step config s a = some t) :
    t.clock = s.clock ∧ ∃ call, t.calls = Function.update s.calls p call := by
  cases a with
  | tick ms => cases ha
  | _ =>
    cases ha
    simp only [step] at h
    split at h <;> cases h
    exact ⟨rfl, _, rfl⟩

end Step

def concerns (visits : Pid → Visit) (key : String) (a : Action) : Bool :=
  a.pid?.all fun p => (visits p).key = key

def Redis.view (visits : Pid → Visit) (key : String) (s : Redis) : State :=
  (s.under key).only fun p => (visits p).key = key

theorem routes_slices {key : String} {config : RateLimitConfig}
    (hconfig : ∀ p, (visits p).key = key → (visits p).route.toRateLimitConfig = config) :
    Machine.Slices (routes visits) (machine config) (Redis.view visits key)
      (concerns visits key) where
  own s a t ha hstep := by
    simp only [routes, serve] at hstep
    unfold concerns at ha
    split at hstep
    · cases a <;> cases hstep
      · rfl
      all_goals contradiction
    · rename_i p hp
      obtain ⟨u, hu, rfl⟩ := Option.map_eq_some_iff.mp hstep
      simp only [hp, Option.all_some, decide_eq_true_eq] at ha
      subst ha
      rw [hconfig p rfl] at hu
      have honly := @step_only _ _ _ (fun q => (visits q).key = (visits p).key) _ _ hp
        (decide_eq_true rfl) hu
      refine honly.trans (congrArg some ?_)
      simp [Redis.view, Redis.under, Redis.put, State.only, (step_frame hp hu).1]
  others s a t ha hstep := by
    simp only [routes, serve] at hstep
    unfold concerns at ha
    split at hstep
    · rename_i hp
      simp [hp] at ha
    · rename_i p hp
      obtain ⟨u, hu, rfl⟩ := Option.map_eq_some_iff.mp hstep
      simp only [hp, Option.all_some, decide_eq_false_iff_not] at ha
      obtain ⟨-, call, hcalls⟩ := step_frame hp hu
      have hkeys : Function.update s.keys (visits p).key u.key key = s.keys key :=
        Function.update_of_ne (fun heq => ha heq.symm) _ _
      simp only [Redis.view, Redis.under, Redis.put, State.only, hkeys, State.mk.injEq, true_and]
      funext q
      split
      · rename_i hq
        have hne : q ≠ p := by
          rintro rfl
          exact ha (of_decide_eq_true hq)
        rw [hcalls]
        exact Function.update_of_ne hne _ _
      · rfl

/-- Both visits count against one limit. -/
def Visit.Shares (visit visit' : Visit) : Prop :=
  visit.route.keyPrefix = visit'.route.keyPrefix ∧
    visit.client.identifier = visit'.client.identifier

instance (visit visit' : Visit) : Decidable (visit.Shares visit') :=
  inferInstanceAs (Decidable (_ ∧ _))

/-- A prefix has no colon, and belongs to one route. -/
structure Named (visits : Pid → Visit) : Prop where
  plain : ∀ p, ':' ∉ (visits p).route.keyPrefix.toList
  one : ∀ p q, (visits p).route.keyPrefix = (visits q).route.keyPrefix →
    (visits p).route = (visits q).route

theorem Identifier.text_user_ne_ip (userId address : String) :
    (user userId).text ≠ (ip address).text := by
  intro h
  have hfirst := congrArg (fun t : String => t.toList.head?) h
  simp [text, String.toList_append] at hfirst

theorem Identifier.text_injective {i j : Identifier} (h : i.text = j.text) : i = j := by
  cases i with
  | user userId =>
    cases j with
    | user userId' => rw [String.append_right_inj _ |>.mp h]
    | ip address' => exact absurd h (text_user_ne_ip userId address')
  | ip address =>
    cases j with
    | user userId' => exact absurd h.symm (text_user_ne_ip userId' address)
    | ip address' => rw [String.append_right_inj _ |>.mp h]

theorem eq_of_append_colon {xs ys xs' ys' : List Char} (hxs : ':' ∉ xs) (hxs' : ':' ∉ xs')
    (h : xs ++ ':' :: ys = xs' ++ ':' :: ys') : xs = xs' ∧ ys = ys' := by
  induction xs generalizing xs' with
  | nil =>
    cases xs' with
    | nil => exact ⟨rfl, (List.cons.inj h).2⟩
    | cons x xs' => exact absurd ((List.cons.inj h).1 ▸ List.mem_cons_self) hxs'
  | cons x xs ih =>
    cases xs' with
    | nil => exact absurd ((List.cons.inj h).1 ▸ List.mem_cons_self) hxs
    | cons x' xs' =>
      obtain ⟨rfl, hrest⟩ := List.cons.inj h
      obtain ⟨rfl, rfl⟩ := ih (fun hmem => hxs (List.mem_cons_of_mem _ hmem))
        (fun hmem => hxs' (List.mem_cons_of_mem _ hmem)) hrest
      exact ⟨rfl, rfl⟩

/-- Two clients, or two routes, never meet on a key. -/
theorem Named.key_iff (h : Named visits) (p q : Pid) :
    (visits p).key = (visits q).key ↔ (visits p).Shares (visits q) := by
  constructor
  · intro hkey
    have hlists := congrArg String.toList hkey
    simp only [Visit.key, String.toList_append, List.append_assoc, List.append_cancel_left_eq]
      at hlists
    obtain ⟨hroute, htext⟩ := eq_of_append_colon (h.plain p) (h.plain q) hlists
    exact ⟨String.toList_inj.mp hroute, Identifier.text_injective (String.toList_inj.mp htext)⟩
  · rintro ⟨hroute, hidentifier⟩
    rw [Visit.key, Visit.key, hroute, hidentifier]

def countsWith (visits : Pid → Visit) (visit : Visit) (a : Action) : Bool :=
  a.pid?.all fun p => (visits p).Shares visit

theorem Named.concerns_eq (h : Named visits) (p : Pid) :
    concerns visits (visits p).key = countsWith visits (visits p) := by
  funext a
  simp only [concerns, countsWith, h.key_iff]

theorem Named.slices (h : Named visits) (p : Pid) :
    Machine.Slices (routes visits) (machine (visits p).route.toRateLimitConfig)
      (Redis.view visits (visits p).key) (countsWith visits (visits p)) := by
  rw [← h.concerns_eq]
  apply routes_slices
  intro q hq
  rw [h.one q p ((h.key_iff q p).mp hq).1]

theorem Redis.view_start (visits : Pid → Visit) (key : String) (clock : Time) :
    (start clock).view visits key = .start clock .absent := by
  simp only [view, State.only, under, start, State.start, ite_self]

theorem Named.response_view (h : Named visits) (s : Redis) {p q : Pid}
    (hshares : (visits q).Shares (visits p)) :
    s.response visits q =
      ((s.view visits (visits p).key).calls q).response (visits p).route.toRateLimitConfig := by
  have hkey : (visits q).key = (visits p).key := (h.key_iff q p).mpr hshares
  rw [Redis.response, h.one q p hshares.1, Redis.view, State.only_calls (decide_eq_true hkey)]
  rfl

/-- However requests of all clients interleave, those that count together are answered as by a
limiter of their own that serves nothing else. -/
theorem responses_apart (h : Named visits) {clock : Time} {as : List Action} {s : Redis}
    (hrun : (routes visits).run (.start clock) as = some s) (p : Pid) :
    ∃ t, (machine (visits p).route.toRateLimitConfig).run (.start clock .absent)
        (as.filter (countsWith visits (visits p))) = some t ∧
      ∀ q, (visits q).Shares (visits p) →
        s.response visits q = (t.calls q).response (visits p).route.toRateLimitConfig := by
  have hown := (h.slices p).run hrun
  rw [Redis.view_start] at hown
  exact ⟨_, hown, fun q hshares => h.response_view s hshares⟩

namespace Sample

def signIn : RouteConfig := { windowMs := 1000, limit := 1, keyPrefix := "auth" }

def browser (address : String) : Client := ⟨none, some address, none⟩

def addresses : Pid → Visit
  | 0 => ⟨signIn, browser "10.0.0.1"⟩
  | _ => ⟨signIn, browser "10.0.0.2"⟩

theorem named : Named addresses := by
  have hroute : ∀ p, (addresses p).route = signIn := by
    intro p
    cases p <;> rfl
  constructor
  · intro p
    rw [hroute]
    decide
  · intro p q _
    rw [hroute, hroute]

def abreast : List Action :=
  [.start 0 "k3f", .start 1 "p9x", .zremrangebyscore 0, .zremrangebyscore 1, .zcard 0, .zcard 1,
    .zadd 0, .zadd 1, .pexpire 0, .pexpire 1, .reply 0, .reply 1]

end Sample

theorem responses_apart_abreast :
    ∃ s, (routes Sample.addresses).run (.start 0) Sample.abreast = some s ∧
      ∃ t, (machine Sample.signIn.toRateLimitConfig).run (.start 0 .absent)
          [.start 0 "k3f", .zremrangebyscore 0, .zcard 0, .zadd 0, .pexpire 0, .reply 0] = some t ∧
        s.response Sample.addresses 0 = (t.calls 0).response Sample.signIn.toRateLimitConfig := by
  have hrun : ∃ s, (routes Sample.addresses).run (.start 0) Sample.abreast = some s := ⟨_, rfl⟩
  obtain ⟨s, hrun⟩ := hrun
  obtain ⟨t, ht, hresponse⟩ := responses_apart Sample.named hrun 0
  exact ⟨s, hrun, t, ht, hresponse 0 ⟨rfl, rfl⟩⟩

end SupportApi.RateLimit
