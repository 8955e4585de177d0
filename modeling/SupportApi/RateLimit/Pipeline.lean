import SupportApi.RateLimit.CheckLimit

namespace SupportApi.RateLimit

open Lib

namespace Key

def Live (key : Key) (clock : Time) : Prop :=
  ∀ deadline, key.expireAt = some deadline → clock ≤ deadline

variable {key : Key} {clock : Time}

theorem foundAt_of_live (h : key.Live clock) : key.foundAt clock = key := by
  unfold foundAt
  split
  · rfl
  · exact if_neg (Int.not_lt.mpr (h _ ‹_›))

theorem live_absent : absent.Live clock := by
  intro deadline h
  cases h

theorem live_foundAt (key : Key) (clock : Time) : (key.foundAt clock).Live clock := by
  unfold foundAt
  split
  · intro deadline h
    simp_all
  · split
    · exact live_absent
    · intro deadline h
      simp_all

theorem Live.zremrangebyscore (h : key.Live clock) (bound : Time) :
    (key.zremrangebyscore bound).Live clock := by
  unfold Key.zremrangebyscore
  simp only
  split
  · exact live_absent
  · exact h

theorem Live.zadd (h : key.Live clock) (score : Time) (member : String) :
    (key.zadd score member).Live clock := h

theorem entries_zremrangebyscore (key : Key) (bound : Time) :
    (key.zremrangebyscore bound).set.entries =
      key.set.entries.filter fun e => bound < (ofLex e).1 := by
  unfold zremrangebyscore
  simp only
  split
  · rename_i hempty
    exact (List.length_eq_zero_iff.mp hempty).symm
  · rfl

end Key

namespace Pipeline

variable (windowMs : Int)

def evicted (key : Key) (now : Time) : Key :=
  (key.foundAt now).zremrangebyscore (now - windowMs)

def executed (key : Key) (now : Time) (id : String) : Key :=
  ((((evicted windowMs key now).foundAt now).zadd now id).foundAt now).pexpire now windowMs

/-- The key holds of these entries all that a call at `now` or later can count. -/
def Holds (key : Key) (entries : List (Time ×ₗ String)) : Prop :=
  ∀ now, (∀ e ∈ entries, (ofLex e).1 ≤ now) →
    (evicted windowMs key now).set.entries.Perm
      (entries.filter fun e => now - windowMs < (ofLex e).1)

variable {windowMs} {key : Key} {now : Time} {id : String} {entries : List (Time ×ₗ String)}

theorem evicted_live (key : Key) (now : Time) : (evicted windowMs key now).Live now :=
  (Key.live_foundAt key now).zremrangebyscore _

theorem executed_eq (hwindow : 0 < windowMs) (key : Key) (now : Time) (id : String) :
    executed windowMs key now id =
      ⟨(evicted windowMs key now).set.addNX now id, some (now + windowMs)⟩ := by
  have hlive : (evicted windowMs key now).Live now := evicted_live key now
  have hmember : ((evicted windowMs key now).zadd now id).set.card ≠ 0 :=
    SortedSet.card_addNX_ne_zero _ _ _
  rw [executed, Key.foundAt_of_live hlive, Key.foundAt_of_live (hlive.zadd _ _), Key.pexpire]
  rw [if_neg (not_or.mpr ⟨hmember, Int.not_le.mpr hwindow⟩)]
  rfl

theorem executed_live (hwindow : 0 < windowMs) {later : Time} (h : later ≤ now + windowMs) :
    (executed windowMs key now id).Live later := by
  rw [executed_eq hwindow]
  intro deadline hdeadline
  cases hdeadline
  exact h

theorem holds_absent : Holds windowMs .absent [] := by
  intro now _
  rw [evicted, Key.entries_zremrangebyscore]
  exact .refl _

theorem Holds.not_mem (h : Holds windowMs key entries) (hnow : ∀ e ∈ entries, (ofLex e).1 ≤ now)
    (hid : ∀ e ∈ entries, (ofLex e).2 ≠ id) : id ∉ (evicted windowMs key now).set.members := by
  intro hmem
  obtain ⟨e, he, heq⟩ := List.mem_map.mp hmem
  exact hid e (List.mem_of_mem_filter ((h now hnow).mem_iff.mp he)) heq

theorem Holds.executed (h : Holds windowMs key entries) (hwindow : 0 < windowMs)
    (hnow : ∀ e ∈ entries, (ofLex e).1 ≤ now) (hid : ∀ e ∈ entries, (ofLex e).2 ≠ id) :
    (Pipeline.executed windowMs key now id).set.entries.Perm
      (toLex (now, id) :: entries.filter fun e => now - windowMs < (ofLex e).1) := by
  rw [executed_eq hwindow]
  exact (SortedSet.addNX_perm _ (h.not_mem hnow hid)).trans ((h now hnow).cons _)

theorem filter_filter_window {later : Time} (hlater : now ≤ later) (entries : List (Time ×ₗ String)) :
    (entries.filter fun e => now - windowMs < (ofLex e).1).filter
        (fun e => later - windowMs < (ofLex e).1) =
      entries.filter fun e => later - windowMs < (ofLex e).1 := by
  rw [List.filter_filter]
  apply List.filter_congr
  intro e _
  have hstart : now - windowMs ≤ later - windowMs := Int.sub_le_sub_right hlater _
  rw [Bool.and_eq_left_iff_imp]
  simp only [decide_eq_true_eq]
  exact fun he => Int.lt_of_le_of_lt hstart he

theorem Holds.step (h : Holds windowMs key entries) (hwindow : 0 < windowMs)
    (hnow : ∀ e ∈ entries, (ofLex e).1 ≤ now) (hid : ∀ e ∈ entries, (ofLex e).2 ≠ id) :
    Holds windowMs (Pipeline.executed windowMs key now id) (entries ++ [toLex (now, id)]) := by
  intro later hlater
  have hle : now ≤ later := hlater _ (List.mem_append_right _ (List.mem_singleton_self _))
  have hentries := (h.executed hwindow hnow hid).filter fun e => later - windowMs < (ofLex e).1
  rw [List.filter_cons, filter_filter_window hle] at hentries
  rw [evicted, Key.entries_zremrangebyscore, List.filter_append, List.filter_cons,
    List.filter_nil]
  by_cases hexpired : now + windowMs < later
  · -- the key has expired, and no entry is in the window any more
    have hnone : entries.filter (fun e => later - windowMs < (ofLex e).1) = [] := by
      rw [List.filter_eq_nil_iff]
      intro e he
      rw [decide_eq_true_eq, Int.not_lt]
      exact Int.le_sub_right_of_add_le
        (Int.le_trans (Int.add_le_add_right (hnow e he) _) hexpired.le)
    have habsent : (Pipeline.executed windowMs key now id).foundAt later = .absent := by
      rw [executed_eq hwindow]
      exact if_pos hexpired
    have hself : ¬decide (later - windowMs < (ofLex (toLex (now, id))).1) = true := by
      rw [decide_eq_true_eq, Int.not_lt]
      exact Int.le_sub_right_of_add_le hexpired.le
    rw [hnone, habsent, if_neg hself]
    exact .nil
  · rw [Key.foundAt_of_live (executed_live hwindow (Int.not_lt.mp hexpired))]
    refine hentries.trans ?_
    split
    · exact (List.perm_append_singleton _ _).symm
    · rw [List.append_nil]

end Pipeline

/-- A call, by the clock that it reads and the text that it draws for its id. -/
structure Request where
  now : Time
  random : String
  deriving DecidableEq

/-- The calls that a call at `now` has to count: those in `(now - windowMs, now]`. -/
def inWindow (windowMs : Int) (log : List Request) (now : Time) : List Request :=
  log.filter fun r => now - windowMs < r.now && r.now ≤ now

/-- Calls in the order of their times, each with an id of its own. -/
structure Sequential (id : Request → String) (log : List Request) : Prop where
  times : log.Pairwise fun r r' => r.now ≤ r'.now
  ids : log.Pairwise fun r r' => id r ≠ id r'

theorem inWindow_of_le {windowMs : Int} {log : List Request} {now : Time}
    (h : ∀ r ∈ log, r.now ≤ now) :
    inWindow windowMs log now = log.filter fun r => now - windowMs < r.now := by
  apply List.filter_congr
  intro r hr
  simp [h r hr]

namespace Sequential

variable {id : Request → String}

theorem last {log : List Request} {r : Request} (h : Sequential id (log ++ [r])) :
    Sequential id log ∧ (∀ r' ∈ log, r'.now ≤ r.now) ∧ ∀ r' ∈ log, id r' ≠ id r := by
  obtain ⟨htimes, -, htime⟩ := List.pairwise_append.mp h.times
  obtain ⟨hids, -, hid⟩ := List.pairwise_append.mp h.ids
  have hmem := List.mem_singleton_self r
  exact ⟨⟨htimes, hids⟩, fun r' hr' => htime r' hr' r hmem, fun r' hr' => hid r' hr' r hmem⟩

theorem sublist {log log' : List Request} (h : Sequential id log) (hlog : log'.Sublist log) :
    Sequential id log' :=
  ⟨h.times.sublist hlog, h.ids.sublist hlog⟩

theorem start {earlier later : List Request} {r : Request}
    (h : Sequential id (earlier ++ r :: later)) : Sequential id (earlier ++ [r]) :=
  h.sublist ((List.Sublist.refl earlier).append (List.singleton_sublist.mpr List.mem_cons_self))

end Sequential

end SupportApi.RateLimit
