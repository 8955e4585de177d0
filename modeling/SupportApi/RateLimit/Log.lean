import SupportApi.RateLimit.Pipeline

namespace SupportApi.RateLimit

open Lib

def Request.id (r : Request) : String := requestId r.now r.random

def Request.entry (r : Request) : Time ×ₗ String := toLex (r.now, r.id)

variable (config : RateLimitConfig)

def evicted (key : Key) (r : Request) : Key :=
  (key.foundAt r.now).zremrangebyscore (r.now - config.windowMs)

def currentCount (key : Key) (r : Request) : Nat := ((evicted config key r).foundAt r.now).zcard

def executed (key : Key) (r : Request) : Key :=
  ((((evicted config key r).foundAt r.now).zadd r.now r.id).foundAt r.now).pexpire r.now
    config.windowMs

/-- `checkLimit` with all its commands at `r.now` and nothing between them. -/
def checkLimit (key : Key) (r : Request) : Result × Key :=
  (result config r.now (currentCount config key r) ((executed config key r).foundAt r.now).zrange,
    executed config key r)

def afterAll (key : Key) (requests : List Request) : Key :=
  requests.foldl (fun key r => (checkLimit config key r).2) key

def together (ms : Nat) (p : Pid) (random : String) : List Action :=
  [.tick ms, .start p random, .zremrangebyscore p, .zcard p, .zadd p, .pexpire p, .reply p]

variable {config}

theorem run_together {s : State} {p : Pid} (hp : s.calls p = .idle) {ms : Nat} {r : Request}
    (hr : r.now = s.clock + ms) :
    (machine config).run s (together ms p r.random) =
      some ⟨r.now, (checkLimit config s.key r).2,
        Function.update s.calls p (.returned r.now r.id (currentCount config s.key r)
          (checkLimit config s.key r).1)⟩ := by
  obtain ⟨now, random⟩ := r
  subst hr
  simp only [together, Machine.run, machine, step, hp, State.set, State.write, State.found,
    Function.update_self, Function.update_idem, Option.bind_some]
  rfl

structure Arrival where
  ms : Nat
  p : Pid
  random : String

def requests (clock : Time) : List Arrival → List Request
  | [] => []
  | a :: arrivals => ⟨clock + a.ms, a.random⟩ :: requests (clock + a.ms) arrivals

theorem run_arrivals {s : State} {arrivals : List Arrival}
    (hidle : ∀ a ∈ arrivals, s.calls a.p = .idle) (hpids : (arrivals.map Arrival.p).Nodup) :
    ∃ t, (machine config).run s (arrivals.flatMap fun a => together a.ms a.p a.random) = some t ∧
      t.key = afterAll config s.key (requests s.clock arrivals) := by
  induction arrivals generalizing s with
  | nil => exact ⟨s, rfl, rfl⟩
  | cons a arrivals ih =>
    obtain ⟨hp, hpids⟩ := List.nodup_cons.mp hpids
    rw [List.flatMap_cons, Machine.run_append,
      run_together (hidle _ List.mem_cons_self) (r := ⟨s.clock + a.ms, a.random⟩) rfl]
    apply ih _ hpids
    intro a' ha'
    have hne : a'.p ≠ a.p := fun heq => hp (heq ▸ List.mem_map_of_mem ha')
    exact (Function.update_of_ne hne _ _).trans (hidle a' (List.mem_cons_of_mem _ ha'))

/-- The key holds of a log all that a call at `now` or later can count. -/
def Mirrors (config : RateLimitConfig) (key : Key) (log : List Request) : Prop :=
  ∀ now, (∀ r ∈ log, r.now ≤ now) →
    (((key.foundAt now).zremrangebyscore (now - config.windowMs)).set.entries).Perm
      ((inWindow config.windowMs log now).map Request.entry)

theorem currentCount_eq (key : Key) (r : Request) :
    currentCount config key r = (evicted config key r).set.entries.length := by
  have hlive : (evicted config key r).Live r.now := Pipeline.evicted_live key r.now
  rw [currentCount, Key.foundAt_of_live hlive]
  rfl

theorem inWindow_concat (hwindow : 0 < config.windowMs) (log : List Request) (r : Request) :
    inWindow config.windowMs (log ++ [r]) r.now = inWindow config.windowMs log r.now ++ [r] := by
  have hstart : r.now - config.windowMs < r.now := Int.sub_lt_self _ hwindow
  rw [inWindow, List.filter_append]
  simp [inWindow, hstart]

theorem mirrors_iff {key : Key} {log : List Request} :
    Mirrors config key log ↔ Pipeline.Holds config.windowMs key (log.map Request.entry) := by
  apply forall_congr'
  intro now
  rw [List.forall_mem_map]
  apply forall_congr'
  intro hlog
  rw [inWindow_of_le hlog, List.filter_map]
  rfl

theorem Mirrors.evicted {key : Key} {log : List Request} {r : Request}
    (h : Mirrors config key log) (hlog : ∀ r' ∈ log, r'.now ≤ r.now) :
    (RateLimit.evicted config key r).set.entries.Perm
      ((inWindow config.windowMs log r.now).map Request.entry) :=
  h r.now hlog

theorem new_entry {log : List Request} {r : Request} (hid : ∀ r' ∈ log, r'.id ≠ r.id) :
    ∀ e ∈ log.map Request.entry, (ofLex e).2 ≠ r.id :=
  List.forall_mem_map.mpr hid

theorem Mirrors.executed {key : Key} {log : List Request} {r : Request}
    (h : Mirrors config key log) (hwindow : 0 < config.windowMs)
    (hlog : ∀ r' ∈ log, r'.now ≤ r.now) (hid : ∀ r' ∈ log, r'.id ≠ r.id) :
    (RateLimit.executed config key r).set.entries.Perm
      ((inWindow config.windowMs (log ++ [r]) r.now).map Request.entry) := by
  have hentries := (mirrors_iff.mp h).executed hwindow (List.forall_mem_map.mpr hlog)
    (new_entry hid)
  rw [List.filter_map] at hentries
  rw [inWindow_concat hwindow, inWindow_of_le hlog, List.map_append]
  exact hentries.trans (List.perm_append_singleton _ _).symm

theorem Mirrors.step {key : Key} {log : List Request} {r : Request} (h : Mirrors config key log)
    (hwindow : 0 < config.windowMs) (hlog : ∀ r' ∈ log, r'.now ≤ r.now)
    (hid : ∀ r' ∈ log, r'.id ≠ r.id) : Mirrors config (checkLimit config key r).2 (log ++ [r]) := by
  rw [mirrors_iff, List.map_append]
  exact (mirrors_iff.mp h).step hwindow (List.forall_mem_map.mpr hlog) (new_entry hid)

theorem mirrors_afterAll (hwindow : 0 < config.windowMs) {log : List Request}
    (h : Sequential Request.id log) : Mirrors config (afterAll config .absent log) log := by
  induction log using List.reverseRecOn with
  | nil => exact mirrors_iff.mpr Pipeline.holds_absent
  | append_singleton log r ih =>
    obtain ⟨hlog, htime, hid⟩ := h.last
    rw [afterAll, List.foldl_append]
    exact (ih hlog).step hwindow htime hid

theorem ceilSeconds_mono {a b : Int} (h : a ≤ b) : ceilSeconds a ≤ ceilSeconds b := by
  unfold ceilSeconds
  omega

theorem zrange_isLeast (hwindow : 0 < config.windowMs) {key : Key} {log : List Request}
    {r : Request} (h : Mirrors config key log) (hlog : ∀ r' ∈ log, r'.now ≤ r.now)
    (hid : ∀ r' ∈ log, r'.id ≠ r.id) :
    ∃ oldest, ((executed config key r).foundAt r.now).zrange = some oldest ∧
      IsLeast {t | ∃ r' ∈ inWindow config.windowMs (log ++ [r]) r.now, r'.now = t} oldest := by
  have hlive : (executed config key r).Live r.now :=
    Pipeline.executed_live hwindow (Int.le_add_of_nonneg_right hwindow.le)
  have hentries := h.executed hwindow hlog hid
  have hcard : (executed config key r).set.card ≠ 0 := by
    have hexecuted := Pipeline.executed_eq hwindow key r.now r.id
    change (Pipeline.executed config.windowMs key r.now r.id).set.card ≠ 0
    rw [hexecuted]
    exact SortedSet.card_addNX_ne_zero _ _ _
  obtain ⟨e, hfirst, hleast⟩ := SortedSet.first?_isLeast _ hcard
  refine ⟨(ofLex e).1, ?_, ?_⟩
  · rw [Key.foundAt_of_live hlive, Key.zrange, hfirst]
    rfl
  · have htimes : {t | ∃ r' ∈ inWindow config.windowMs (log ++ [r]) r.now, r'.now = t} =
        {t | ∃ member, toLex (t, member) ∈ (executed config key r).set.entries} := by
      apply Set.ext
      intro t
      constructor
      · rintro ⟨r', hr', rfl⟩
        exact ⟨r'.id, hentries.mem_iff.mpr (List.mem_map_of_mem hr')⟩
      · rintro ⟨member, hmem⟩
        obtain ⟨r', hr', heq⟩ := List.mem_map.mp (hentries.mem_iff.mp hmem)
        exact ⟨r', hr', congrArg (fun e => (ofLex e).1) heq⟩
    rw [htimes]
    exact hleast

theorem currentCount_afterAll (hwindow : 0 < config.windowMs) {earlier : List Request} {r : Request}
    (h : Sequential Request.id (earlier ++ [r])) :
    currentCount config (afterAll config .absent earlier) r =
      (inWindow config.windowMs earlier r.now).length := by
  obtain ⟨hearlier, htime, -⟩ := h.last
  rw [currentCount_eq, ((mirrors_afterAll hwindow hearlier).evicted htime).length_eq,
    List.length_map]

theorem allowed_iff (hwindow : 0 < config.windowMs) {earlier : List Request} {r : Request}
    (h : Sequential Request.id (earlier ++ [r])) :
    (checkLimit config (afterAll config .absent earlier) r).1.allowed = true ↔
      (inWindow config.windowMs earlier r.now).length < config.limit := by
  rw [← currentCount_afterAll hwindow h]
  exact decide_eq_true_iff

theorem retryAfter_eq (hwindow : 0 < config.windowMs) {earlier : List Request} {r : Request}
    (h : Sequential Request.id (earlier ++ [r]))
    (hrejected : (checkLimit config (afterAll config .absent earlier) r).1.allowed = false) :
    ∃ oldest, IsLeast {t | ∃ r' ∈ inWindow config.windowMs (earlier ++ [r]) r.now, r'.now = t} oldest ∧
      (checkLimit config (afterAll config .absent earlier) r).1.retryAfter =
        ceilSeconds (oldest + config.windowMs - r.now) := by
  obtain ⟨hearlier, htime, hid⟩ := h.last
  obtain ⟨oldest, hzrange, hleast⟩ :=
    zrange_isLeast hwindow (mirrors_afterAll hwindow hearlier) htime hid
  refine ⟨oldest, hleast, ?_⟩
  simp only [checkLimit, result, hzrange]
  exact if_neg (of_decide_eq_false hrejected)

/-- A call decides as if every call were kept for ever. -/
theorem checkLimit_eq_log (hwindow : 0 < config.windowMs) {earlier : List Request} {r : Request}
    (h : Sequential Request.id (earlier ++ [r])) :
    let outcome := (checkLimit config (afterAll config .absent earlier) r).1
    let count := (inWindow config.windowMs earlier r.now).length
    (outcome.allowed = true ↔ count < config.limit) ∧
      (outcome.remaining : Int) = max 0 ((config.limit : Int) - count - 1) ∧
      (outcome.allowed = false →
        (∃ oldest,
          IsLeast {t | ∃ r' ∈ inWindow config.windowMs (earlier ++ [r]) r.now, r'.now = t} oldest ∧
          outcome.retryAfter = ceilSeconds (oldest + config.windowMs - r.now)) ∧
        1 ≤ outcome.retryAfter ∧ outcome.retryAfter ≤ ceilSeconds config.windowMs) := by
  refine ⟨allowed_iff hwindow h, ?_, fun hrejected => ?_⟩
  · simp only [checkLimit, result, currentCount_afterAll hwindow h]
    omega
  · obtain ⟨oldest, hleast, hretry⟩ := retryAfter_eq hwindow h hrejected
    obtain ⟨r', hr', rfl⟩ := hleast.1
    have hbounds : r.now - config.windowMs < r'.now ∧ r'.now ≤ r.now := by
      simpa using (List.mem_filter.mp hr').2
    have hlow : 1 ≤ r'.now + config.windowMs - r.now :=
      Int.sub_pos_of_lt (Int.lt_add_of_sub_right_lt hbounds.1)
    have hhigh : r'.now + config.windowMs - r.now ≤ config.windowMs :=
      Int.sub_left_le_of_le_add (Int.add_le_add_right hbounds.2 _)
    rw [hretry]
    exact ⟨⟨r'.now, hleast, rfl⟩, ceilSeconds_mono hlow, ceilSeconds_mono hhigh⟩

def Sample.successive : List Request := [⟨0, "k3f"⟩, ⟨400, "p9x"⟩]

theorem checkLimit_eq_log_boundary :
    let outcome := (checkLimit ⟨1000, 1⟩ (afterAll ⟨1000, 1⟩ .absent Sample.successive)
      ⟨1000, "q2m"⟩).1
    outcome.allowed = false ∧ 1 ≤ outcome.retryAfter ∧ outcome.retryAfter ≤ 1 := by
  have hsequential : Sequential Request.id (Sample.successive ++ [⟨1000, "q2m"⟩]) := by
    constructor <;> decide
  exact ⟨rfl, ((@checkLimit_eq_log ⟨1000, 1⟩ (by decide) _ _ hsequential).2.2 rfl).2⟩

end SupportApi.RateLimit
