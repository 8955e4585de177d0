import SupportApi.RateLimit.Pipeline

namespace SupportApi.Analytics.Limiter

open Lib RateLimit

def requestId (r : Request) : String := toString r.now ++ "-" ++ r.random

def entry (r : Request) : Time ×ₗ String := toLex (r.now, requestId r)

structure Result where
  allowed : Bool
  remaining : Nat
  resetAt : Time
  deriving DecidableEq

/-- `ZADD key score member`. -/
def zadd (key : Key) (score : Time) (member : String) : Key :=
  { key with set := key.set.add score member }

variable (windowMs : Int) (limit : Nat)

/-- The four commands, and the answer of the second. -/
def pipeline (key : Key) (r : Request) : Nat × Key :=
  let evicted := ((key.foundAt r.now).zremrangebyscore (r.now - windowMs)).foundAt r.now
  (evicted.zcard, ((zadd evicted r.now (requestId r)).foundAt r.now).pexpire r.now windowMs)

def checkSlidingWindowRateLimit (key : Key) (r : Request) : Result × Key :=
  let (currentCount, key') := pipeline windowMs key r
  ({ allowed := currentCount < limit
     remaining := limit - currentCount - 1
     resetAt := r.now + windowMs }, key')

def afterAll (key : Key) (log : List Request) : Key :=
  log.foldl (fun key r => (checkSlidingWindowRateLimit windowMs limit key r).2) key

def admitted (key : Key) : List Request → List Request
  | [] => []
  | r :: rest =>
    let (result, key') := checkSlidingWindowRateLimit windowMs limit key r
    (if result.allowed then [r] else []) ++ admitted key' rest

/-- The calls that come while there are fewer than `limit` calls in their window. -/
def uncrowded (earlier : List Request) : List Request → List Request
  | [] => []
  | r :: rest =>
    (if (inWindow windowMs earlier r.now).length < limit then [r] else []) ++
      uncrowded (earlier ++ [r]) rest

variable {windowMs limit}

/-- With an id of its own a call is added just as with `NX`. -/
theorem pipeline_eq {key : Key} {log : List Request} {r : Request}
    (h : Pipeline.Holds windowMs key (log.map entry)) (htime : ∀ r' ∈ log, r'.now ≤ r.now)
    (hid : ∀ r' ∈ log, requestId r' ≠ requestId r) :
    pipeline windowMs key r =
      ((inWindow windowMs log r.now).length, Pipeline.executed windowMs key r.now (requestId r)) := by
  have htimes : ∀ e ∈ log.map entry, (ofLex e).1 ≤ r.now := List.forall_mem_map.mpr htime
  have hnew : (requestId r) ∉ (Pipeline.evicted windowMs key r.now).set.members :=
    h.not_mem htimes (List.forall_mem_map.mpr hid)
  have hlive : (Pipeline.evicted windowMs key r.now).foundAt r.now =
      Pipeline.evicted windowMs key r.now := Key.foundAt_of_live (Pipeline.evicted_live key r.now)
  have hcount : (Pipeline.evicted windowMs key r.now).zcard = (inWindow windowMs log r.now).length := by
    rw [inWindow_of_le htime, Key.zcard, SortedSet.card, (h r.now htimes).length_eq,
      List.filter_map, List.length_map]
    rfl
  have hadd : zadd (Pipeline.evicted windowMs key r.now) r.now (requestId r) =
      (Pipeline.evicted windowMs key r.now).zadd r.now (requestId r) := by
    rw [zadd, Key.zadd, SortedSet.add_eq_addNX _ hnew]
  have hpipeline : pipeline windowMs key r =
      (((Pipeline.evicted windowMs key r.now).foundAt r.now).zcard,
        ((zadd ((Pipeline.evicted windowMs key r.now).foundAt r.now) r.now (requestId r)).foundAt
          r.now).pexpire r.now windowMs) := rfl
  rw [hpipeline, Pipeline.executed, hlive, hcount, hadd]

theorem holds_afterAll (hwindow : 0 < windowMs) {log : List Request} (h : Sequential requestId log) :
    Pipeline.Holds windowMs (afterAll windowMs limit .absent log) (log.map entry) := by
  induction log using List.reverseRecOn with
  | nil => exact Pipeline.holds_absent
  | append_singleton log r ih =>
    obtain ⟨hlog, htime, hid⟩ := h.last
    have hstep : (checkSlidingWindowRateLimit windowMs limit (afterAll windowMs limit .absent log)
        r).2 = Pipeline.executed windowMs (afterAll windowMs limit .absent log) r.now (requestId r) := by
      rw [checkSlidingWindowRateLimit, pipeline_eq (ih hlog) htime hid]
    rw [afterAll, List.foldl_append, List.map_append]
    change Pipeline.Holds windowMs (checkSlidingWindowRateLimit windowMs limit
      (afterAll windowMs limit .absent log) r).2 _
    rw [hstep]
    exact (ih hlog).step hwindow (List.forall_mem_map.mpr htime) (List.forall_mem_map.mpr hid)

theorem allowed_eq (hwindow : 0 < windowMs) {earlier : List Request} {r : Request}
    (h : Sequential requestId (earlier ++ [r])) :
    (checkSlidingWindowRateLimit windowMs limit (afterAll windowMs limit .absent earlier)
      r).1.allowed = decide ((inWindow windowMs earlier r.now).length < limit) := by
  obtain ⟨hearlier, htime, hid⟩ := h.last
  rw [checkSlidingWindowRateLimit, pipeline_eq (holds_afterAll hwindow hearlier) htime hid]

theorem admitted_eq (hwindow : 0 < windowMs) {earlier rest : List Request}
    (h : Sequential requestId (earlier ++ rest)) :
    admitted windowMs limit (afterAll windowMs limit .absent earlier) rest =
      uncrowded windowMs limit earlier rest := by
  induction rest generalizing earlier with
  | nil => rfl
  | cons r rest ih =>
    have hrest : Sequential requestId ((earlier ++ [r]) ++ rest) := by
      rw [List.append_assoc]
      exact h
    have hafter : (checkSlidingWindowRateLimit windowMs limit (afterAll windowMs limit .absent earlier)
        r).2 = afterAll windowMs limit .absent (earlier ++ [r]) := by
      rw [afterAll, afterAll, List.foldl_append]
      rfl
    simp only [admitted, uncrowded, allowed_eq hwindow h.start, hafter, ih hrest, decide_eq_true_eq]

theorem uncrowded_sublist (earlier rest : List Request) :
    (uncrowded windowMs limit earlier rest).Sublist rest := by
  induction rest generalizing earlier with
  | nil => exact .slnil
  | cons r rest ih =>
    rw [uncrowded]
    split
    · exact (ih _).cons_cons r
    · exact (ih _).cons r

/-- What the comment says of each call: it is allowed if and only if fewer than `limit` of the
calls that were allowed are in its window. -/
def RejectsForFree (windowMs : Int) (limit : Nat) (log : List Request) : Prop :=
  ∀ earlier r later, log = earlier ++ r :: later →
    ((checkSlidingWindowRateLimit windowMs limit (afterAll windowMs limit .absent earlier)
      r).1.allowed = true ↔
      (inWindow windowMs (admitted windowMs limit .absent earlier) r.now).length < limit)

/-- It holds if and only if no call comes to a window that only rejected calls keep full. -/
theorem rejectsForFree_iff (hwindow : 0 < windowMs) {log : List Request} (h : Sequential requestId log) :
    RejectsForFree windowMs limit log ↔
      ∀ earlier r later, log = earlier ++ r :: later →
        limit ≤ (inWindow windowMs earlier r.now).length →
        limit ≤ (inWindow windowMs (uncrowded windowMs limit [] earlier) r.now).length := by
  apply forall₃_congr
  intro earlier r later
  apply forall_congr'
  rintro rfl
  have hstart := h.start
  have hadmitted : admitted windowMs limit .absent earlier = uncrowded windowMs limit [] earlier :=
    @admitted_eq windowMs limit hwindow [] earlier hstart.last.1
  have hle : (inWindow windowMs (uncrowded windowMs limit [] earlier) r.now).length ≤
      (inWindow windowMs earlier r.now).length :=
    ((uncrowded_sublist [] earlier).filter _).length_le
  rw [allowed_eq hwindow hstart, hadmitted, decide_eq_true_eq]
  omega

namespace Sample

def apart : List Request := [⟨0, "0.31"⟩, ⟨1000, "0.17"⟩]

def retrying : List Request := [⟨0, "0.31"⟩, ⟨600, "0.52"⟩, ⟨1200, "0.17"⟩]

end Sample

theorem rejectsForFree_apart : RejectsForFree 1000 1 Sample.apart := by
  refine (rejectsForFree_iff (by decide) ⟨by decide, by decide⟩).mpr ?_
  intro earlier r later hsplit hfull
  rcases earlier with _ | ⟨first, _ | ⟨second, earlier⟩⟩
  · cases hfull
  · obtain ⟨rfl, hlast⟩ := List.cons.inj hsplit
    obtain ⟨rfl, -⟩ := List.cons.inj hlast
    exact absurd hfull (by decide)
  · have hlength := congrArg List.length hsplit
    simp only [Sample.apart, List.length_cons, List.length_append, List.length_nil] at hlength
    omega

theorem rejected_consume_quota : ¬∀ (windowMs : Int) (limit : Nat) (log : List Request),
    0 < windowMs → 1 ≤ limit → Sequential requestId log → RejectsForFree windowMs limit log := by
  intro h
  have hthird := h 1000 1 Sample.retrying (by decide) (by decide) ⟨by decide, by decide⟩
    [⟨0, "0.31"⟩, ⟨600, "0.52"⟩] ⟨1200, "0.17"⟩ [] rfl
  exact absurd (hthird.mpr (by decide)) (by decide)

end SupportApi.Analytics.Limiter
