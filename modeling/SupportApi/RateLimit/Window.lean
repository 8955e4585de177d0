import SupportApi.RateLimit.CheckLimit

namespace SupportApi.RateLimit

open Lib

def Call.letThrough (limit : Nat) : Call → Option (Time × String)
  | .counted now id currentCount => if currentCount < limit then some (now, id) else none
  | .added now id currentCount => if currentCount < limit then some (now, id) else none
  | .executed now id currentCount => if currentCount < limit then some (now, id) else none
  | .returned now id currentCount _ => if currentCount < limit then some (now, id) else none
  | _ => none

variable (config : RateLimitConfig)

structure Entered (s : State) (start : Time) : Prop where
  mem : ∀ q time id, (s.calls q).letThrough config.limit = some (time, id) → start < time →
    id ∈ s.found.set.members
  own : ∀ q q' time time' id, (s.calls q).letThrough config.limit = some (time, id) →
    start < time → (s.calls q').letThrough config.limit = some (time', id) → start < time' → q = q'

/-- A count that lets its call through misses no call of its window. -/
def Recorded (s : State) : Action → Prop
  | .zcard p => ∀ now id, s.calls p = .evicted now id → s.found.zcard < config.limit →
    Entered config s (now - config.windowMs)
  | _ => True

def LetThroughIn (s : State) (t : Time) (p : Pid) : Prop :=
  ∃ now id, (s.calls p).letThrough config.limit = some (now, id) ∧ t - config.windowMs < now ∧ now ≤ t

/-- `checkLimit` returned `allowed` for a request at a time in `(t - windowMs, t]`. -/
def AllowedIn (s : State) (t : Time) (p : Pid) : Prop :=
  ∃ now id currentCount result, s.calls p = .returned now id currentCount result ∧
    result.allowed = true ∧ t - config.windowMs < now ∧ now ≤ t

def Call.Decided (limit : Nat) : Call → Prop
  | .returned _ _ currentCount result => result.allowed = true → currentCount < limit
  | _ => True

structure Bounded (s : State) : Prop where
  decided : ∀ p, (s.calls p).Decided config.limit
  window : ∀ t (ps : Finset Pid), (∀ p ∈ ps, LetThroughIn config s t p) → ps.card ≤ config.limit

variable {config} {s s' : State}

theorem AllowedIn.letThroughIn (h : Bounded config s) {t : Time} {p : Pid}
    (hp : AllowedIn config s t p) : LetThroughIn config s t p := by
  obtain ⟨now, id, currentCount, result, hcall, hallowed, hin⟩ := hp
  have hdecided := h.decided p
  rw [hcall] at hdecided
  refine ⟨now, id, ?_, hin⟩
  rw [hcall]
  exact if_pos (hdecided hallowed)

theorem step_cases {a : Action} (h : step config s a = some s') :
    s'.calls = s.calls ∨ ∃ p call, s'.calls = Function.update s.calls p call ∧
      call.Decided config.limit ∧
      (call.letThrough config.limit = (s.calls p).letThrough config.limit ∨
        ∃ now id, a = .zcard p ∧ s.calls p = .evicted now id ∧
          call = .counted now id s.found.zcard) := by
  cases a with
  | tick ms =>
    cases h
    exact .inl rfl
  | start p random =>
    simp only [step] at h
    split at h <;> cases h
    rename_i hp
    exact .inr ⟨p, _, rfl, trivial, .inl (by rw [hp]; rfl)⟩
  | zremrangebyscore p =>
    simp only [step] at h
    split at h <;> cases h
    rename_i hp
    exact .inr ⟨p, _, rfl, trivial, .inl (by rw [hp]; rfl)⟩
  | zcard p =>
    simp only [step] at h
    split at h <;> cases h
    exact .inr ⟨p, _, rfl, trivial, .inr ⟨_, _, rfl, ‹_›, rfl⟩⟩
  | zadd p =>
    simp only [step] at h
    split at h <;> cases h
    rename_i hp
    exact .inr ⟨p, _, rfl, trivial, .inl (by rw [hp]; rfl)⟩
  | pexpire p =>
    simp only [step] at h
    split at h <;> cases h
    rename_i hp
    exact .inr ⟨p, _, rfl, trivial, .inl (by rw [hp]; rfl)⟩
  | reply p =>
    simp only [step] at h
    split at h <;> cases h
    rename_i hp
    exact .inr ⟨p, _, rfl, of_decide_eq_true, .inl (by rw [hp]; rfl)⟩

theorem card_erase_le {t now : Time} {p : Pid} {ps : Finset Pid}
    (hentered : Entered config s (now - config.windowMs)) (hnow : now ≤ t)
    (hps : ∀ q ∈ ps.erase p, LetThroughIn config s t q) : (ps.erase p).card ≤ s.found.zcard := by
  let entry (q : Pid) : String := (((s.calls q).letThrough config.limit).map Prod.snd).getD ""
  have hstart : now - config.windowMs ≤ t - config.windowMs := Int.sub_le_sub_right hnow _
  have hinj : Set.InjOn entry (ps.erase p) := by
    intro q hq q' hq' heq
    obtain ⟨time, id, hcall, htime, -⟩ := hps q hq
    obtain ⟨time', id', hcall', htime', -⟩ := hps q' hq'
    obtain rfl : id = id' := by simpa [entry, hcall, hcall'] using heq
    exact hentered.own q q' time time' id hcall (Int.lt_of_le_of_lt hstart htime) hcall'
      (Int.lt_of_le_of_lt hstart htime')
  rw [← Finset.card_image_of_injOn hinj]
  apply SortedSet.card_le_card
  intro id hid
  obtain ⟨q, hq, rfl⟩ := Finset.mem_image.mp hid
  obtain ⟨time, id, hcall, htime, -⟩ := hps q hq
  have hmem := hentered.mem q time id hcall (Int.lt_of_le_of_lt hstart htime)
  simpa [entry, hcall] using hmem

theorem Bounded.count (h : Bounded config s) {p : Pid} {now : Time} {id : String}
    (hentered : s.found.zcard < config.limit → Entered config s (now - config.windowMs))
    (hcalls : s'.calls = Function.update s.calls p (.counted now id s.found.zcard)) {t : Time}
    {ps : Finset Pid} (hps : ∀ q ∈ ps, LetThroughIn config s' t q) : ps.card ≤ config.limit := by
  have hothers : ∀ q ∈ ps, q ≠ p → LetThroughIn config s t q := by
    intro q hq hne
    obtain ⟨time, id', hcall, hin⟩ := hps q hq
    rw [hcalls, Function.update_of_ne hne] at hcall
    exact ⟨time, id', hcall, hin⟩
  by_cases hp : p ∈ ps
  · obtain ⟨time, id', hcall, -, htime⟩ := hps p hp
    simp only [hcalls, Function.update_self, Call.letThrough] at hcall
    split at hcall <;> cases hcall
    rename_i hlt
    have hle := card_erase_le (hentered hlt) htime fun q hq =>
      hothers q (Finset.mem_of_mem_erase hq) (Finset.ne_of_mem_erase hq)
    rw [Finset.card_erase_of_mem hp] at hle
    omega
  · exact h.window t ps fun q hq => hothers q hq fun hqp => hp (hqp ▸ hq)

theorem letThrough_update {calls : Pid → Call} {p : Pid} {call : Call} {limit : Nat}
    (h : call.letThrough limit = (calls p).letThrough limit) (q : Pid) :
    (Function.update calls p call q).letThrough limit = (calls q).letThrough limit := by
  rw [Function.update_apply]
  split
  · rename_i hq
    rw [hq, h]
  · rfl

theorem Bounded.preserves : (machine config).PreservesAlong (Recorded config) (Bounded config) := by
  intro s a s' h hrecorded hs
  rcases step_cases hs with hcalls | ⟨p, call, hcalls, hdecided, hsettled⟩
  · refine ⟨fun q => hcalls ▸ h.decided q, fun t ps hps => h.window t ps fun q hq => ?_⟩
    rw [LetThroughIn, ← hcalls]
    exact hps q hq
  · constructor
    · intro q
      rw [hcalls, Function.update_apply]
      split
      · exact hdecided
      · exact h.decided q
    · intro t ps hps
      rcases hsettled with hsame | ⟨now, id, rfl, hcall, rfl⟩
      · apply h.window t ps
        intro q hq
        obtain ⟨time, id, hq, hin⟩ := hps q hq
        rw [hcalls, letThrough_update hsame] at hq
        exact ⟨time, id, hq, hin⟩
      · exact h.count (hrecorded now id hcall) hcalls hps

theorem Entered.of_none (h : ∀ q, (s.calls q).letThrough config.limit = none) (start : Time) :
    Entered config s start where
  mem q time id hq := by
    rw [h q] at hq
    cases hq
  own q q' time time' id hq := by
    rw [h q] at hq
    cases hq

theorem bounded_start (clock : Time) (key : Key) : Bounded config (.start clock key) where
  decided p := trivial
  window t ps hps := by
    rcases ps.eq_empty_or_nonempty with rfl | ⟨p, hp⟩
    · exact Nat.zero_le _
    · obtain ⟨now, id, hcall, -⟩ := hps p hp
      cases hcall

/-- No window lets through more than `limit`, as long as no count that lets its call
through misses a call of its window. -/
theorem allowed_le_limit {clock : Time} {key : Key} {actions : List Action}
    (hrun : (machine config).run (.start clock key) actions = some s)
    (hrecorded : (machine config).Along (Recorded config) (.start clock key) actions) (t : Time)
    (ps : Finset Pid) (hps : ∀ p ∈ ps, AllowedIn config s t p) : ps.card ≤ config.limit := by
  have hbounded := Machine.run_preserves_along Bounded.preserves (bounded_start clock key)
    hrecorded hrun
  exact hbounded.window t ps fun p hp => (hps p hp).letThroughIn hbounded

namespace Sample

def single : RateLimitConfig := ⟨1000, 1⟩

def inTurn : List Action :=
  [.start 0 "k3f", .zremrangebyscore 0, .zcard 0, .zadd 0, .pexpire 0, .reply 0, .tick 10,
    .start 1 "p9x", .zremrangebyscore 1, .zcard 1, .zadd 1, .pexpire 1, .reply 1]

def overlapping : List Action :=
  [.start 0 "k3f", .start 1 "p9x", .zremrangebyscore 0, .zcard 0, .zremrangebyscore 1, .zcard 1,
    .zadd 0, .zadd 1, .pexpire 0, .pexpire 1, .reply 0, .reply 1]

def state (actions : List Action) : State :=
  ((machine single).run (.start 0 .absent) actions).getD (.start 0 .absent)

theorem run_inTurn : (machine single).run (.start 0 .absent) inTurn = some (state inTurn) := rfl

theorem run_overlapping :
    (machine single).run (.start 0 .absent) overlapping = some (state overlapping) := rfl

theorem allowed_inTurn : AllowedIn single (state inTurn) 0 0 :=
  ⟨0, "0:k3f", 0, ⟨true, 0, 0⟩, rfl, rfl, by decide, by decide⟩

theorem allowed_overlapping (p : Pid) (hp : p ∈ ({0, 1} : Finset Pid)) :
    AllowedIn single (state overlapping) 0 p := by
  rw [Finset.mem_insert, Finset.mem_singleton] at hp
  rcases hp with rfl | rfl
  · exact ⟨0, "0:k3f", 0, ⟨true, 0, 0⟩, rfl, rfl, by decide, by decide⟩
  · exact ⟨0, "0:p9x", 0, ⟨true, 0, 0⟩, rfl, rfl, by decide, by decide⟩

theorem recorded_inTurn : (machine single).Along (Recorded single) (.start 0 .absent) inTurn := by
  iterate 2 refine .cons rfl (by trivial) ?_
  refine .cons rfl ?_ ?_
  · intro now id _ _
    apply Entered.of_none
    intro q
    rcases eq_or_ne q 0 with rfl | hq
    · rfl
    · simp [State.start, State.set, State.write, hq, Call.letThrough]
  iterate 6 refine .cons rfl (by trivial) ?_
  refine .cons rfl ?_ ?_
  · intro now id _ hlt
    exact absurd hlt (by decide)
  iterate 3 refine .cons rfl (by trivial) ?_
  trivial

end Sample

theorem allowed_le_limit_in_turn : AllowedIn Sample.single (Sample.state Sample.inTurn) 0 0 ∧
    ({0} : Finset Pid).card ≤ Sample.single.limit := by
  refine ⟨Sample.allowed_inTurn, ?_⟩
  apply allowed_le_limit Sample.run_inTurn Sample.recorded_inTurn 0
  intro p hp
  obtain rfl := Finset.mem_singleton.mp hp
  exact Sample.allowed_inTurn

theorem allowed_exceeds_limit : ¬∀ (config : RateLimitConfig) (clock : Time) (actions : List Action)
    (s : State) (t : Time) (ps : Finset Pid), 0 < config.windowMs →
    (machine config).run (.start clock .absent) actions = some s →
    (∀ p ∈ ps, AllowedIn config s t p) → ps.card ≤ config.limit := by
  intro h
  have hle := h Sample.single 0 Sample.overlapping _ 0 {0, 1} (by decide) Sample.run_overlapping
    Sample.allowed_overlapping
  exact absurd hle (by decide)

end SupportApi.RateLimit
