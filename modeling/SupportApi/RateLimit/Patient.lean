import SupportApi.RateLimit.Pipeline
import SupportApi.RateLimit.Routes

namespace SupportApi.RateLimit

open Lib

def Apart (d : Int) (e e' : Time ×ₗ String) : Prop :=
  (ofLex e).1 + d ≤ (ofLex e').1 ∨ (ofLex e').1 + d ≤ (ofLex e).1

theorem Apart.symm {d : Int} {e e' : Time ×ₗ String} (h : Apart d e e') : Apart d e' e := Or.symm h

theorem span_le {d first last : Int} (hd : 0 < d) {entries : List (Time ×ₗ String)}
    (hsorted : entries.Pairwise (· ≤ ·)) (hapart : entries.Pairwise (Apart d))
    (hfirst : ∀ e ∈ entries, first ≤ (ofLex e).1) (hlast : ∀ e ∈ entries, (ofLex e).1 + d ≤ last)
    (hle : first ≤ last) : first + entries.length * d ≤ last := by
  induction entries generalizing first with
  | nil => simpa using hle
  | cons e entries ih =>
    obtain ⟨hsorted, hsortedRest⟩ := List.pairwise_cons.mp hsorted
    obtain ⟨hapart, hapartRest⟩ := List.pairwise_cons.mp hapart
    have hnext : ∀ e' ∈ entries, (ofLex e).1 + d ≤ (ofLex e').1 := by
      intro e' he'
      have hle : (ofLex e).1 ≤ (ofLex e').1 := Prod.Lex.monotone_fst_ofLex (hsorted e' he')
      rcases hapart e' he' with h | h
      · exact h
      · exact absurd (h.trans hle) (Int.not_le.mpr (Int.lt_add_of_pos_right _ hd))
    have hrest := ih hsortedRest hapartRest hnext (fun e' he' => hlast e' (List.mem_cons_of_mem _ he'))
      (hlast e List.mem_cons_self)
    have hhead := hfirst e List.mem_cons_self
    have hlength : ((e :: entries).length : Int) * d = entries.length * d + d := by
      rw [List.length_cons]
      push_cast
      rw [Int.add_mul, Int.one_mul]
    omega

def Call.Rested (clock d : Int) : Call → Prop
  | .idle => True
  | .returned now _ _ _ => now + d ≤ clock
  | _ => False

/-- A request comes only when all before it are answered and `d` milliseconds old. -/
def Waits (d : Int) (s : State) : Action → Prop
  | .start _ _ => ∀ q, (s.calls q).Rested s.clock d
  | _ => True

def Call.entered : Call → Option Time
  | .added now _ _ => some now
  | .executed now _ _ => some now
  | .returned now _ _ _ => some now
  | _ => none

def Call.active : Call → Bool
  | .idle => false
  | .returned _ _ _ _ => false
  | _ => true

variable (config : RateLimitConfig) (d : Int)

def Call.Fine (found : Key) : Call → Prop
  | .started now _ => ∀ e ∈ found.set.entries, (ofLex e).1 + d ≤ now
  | .evicted now _ => ∀ e ∈ found.set.entries,
      now - config.windowMs < (ofLex e).1 ∧ (ofLex e).1 + d ≤ now
  | .counted now _ currentCount => currentCount < config.limit ∧
      ∀ e ∈ found.set.entries, (ofLex e).1 + d ≤ now
  | .added _ _ currentCount => currentCount < config.limit
  | .executed _ _ currentCount => currentCount < config.limit
  | .returned _ _ _ result => result.allowed = true
  | .idle => True

structure Spaced (s : State) : Prop where
  apart : s.key.set.entries.Pairwise (Apart d)
  backed : ∀ e ∈ s.key.set.entries, ∃ q, (s.calls q).entered = some (ofLex e).1
  single : ∀ p q, (s.calls p).active = true → (s.calls q).active = true → p = q
  fine : ∀ p, (s.calls p).Fine config d s.key

variable {config d}

theorem Key.entries_foundAt (key : Key) (clock : Time) :
    (key.foundAt clock).set.entries.Sublist key.set.entries := by
  unfold foundAt
  split
  · exact .refl _
  · split
    · exact List.nil_sublist _
    · exact .refl _

theorem Key.entries_pexpire (key : Key) (clock : Time) (ms : Int) :
    (key.pexpire clock ms).set.entries.Sublist key.set.entries := by
  unfold pexpire
  split
  · exact List.nil_sublist _
  · exact .refl _

theorem Key.mem_zadd {key : Key} {score : Time} {member : String} {e : Time ×ₗ String}
    (he : e ∈ (key.zadd score member).set.entries) :
    e ∈ key.set.entries ∨ e = toLex (score, member) := by
  simp only [zadd, SortedSet.addNX] at he
  split at he
  · exact .inl he
  · rw [List.mem_orderedInsert] at he
    exact he.symm

theorem Key.apart_zadd {key : Key} {score : Time} {member : String}
    (h : key.set.entries.Pairwise (Apart d)) (hnew : ∀ e ∈ key.set.entries, (ofLex e).1 + d ≤ score) :
    (key.zadd score member).set.entries.Pairwise (Apart d) := by
  by_cases hmember : member ∈ key.set.members
  · rwa [zadd, SortedSet.addNX, dif_pos hmember]
  · rw [zadd, (SortedSet.addNX_perm key.set hmember).pairwise_iff Apart.symm, List.pairwise_cons]
    exact ⟨fun e he => .inr (hnew e he), h⟩

section Step

variable {s t : State} {p : Pid} {call : Call}

theorem Call.Fine.of_rest {call : Call} {key key' : Key} (h : call.Fine config d key)
    (hrest : call.active = false) : call.Fine config d key' := by
  cases call with
  | idle => trivial
  | returned => exact h
  | _ => cases hrest

theorem Call.Rested.not_active {clock : Int} (h : call.Rested clock d) : call.active = false := by
  cases call with
  | idle => rfl
  | returned => rfl
  | _ => cases h

theorem Spaced.moves (h : Spaced config d s) (hcalls : t.calls = Function.update s.calls p call)
    (halone : ∀ q, q ≠ p → (s.calls q).active = false)
    (hapart : t.key.set.entries.Pairwise (Apart d))
    (hbacked : ∀ e ∈ t.key.set.entries, e ∈ s.key.set.entries ∨ call.entered = some (ofLex e).1)
    (hentered : ∀ time, (s.calls p).entered = some time → call.entered = some time)
    (hfine : call.Fine config d t.key) : Spaced config d t := by
  have hself : t.calls p = call := by rw [hcalls, Function.update_self]
  have hother : ∀ q, q ≠ p → t.calls q = s.calls q := by
    intro q hq
    rw [hcalls, Function.update_of_ne hq]
  have hrest : ∀ q, (t.calls q).active = true → q = p := by
    intro q hq
    by_contra hne
    rw [hother q hne, halone q hne] at hq
    cases hq
  refine ⟨hapart, ?_, fun q q' hq hq' => (hrest q hq).trans (hrest q' hq').symm, ?_⟩
  · intro e he
    rcases hbacked e he with hold | hnew
    · obtain ⟨q, hq⟩ := h.backed e hold
      by_cases hqp : q = p
      · subst hqp
        exact ⟨q, hself ▸ hentered _ hq⟩
      · exact ⟨q, hother q hqp ▸ hq⟩
    · exact ⟨p, hself ▸ hnew⟩
  · intro q
    by_cases hqp : q = p
    · rw [hqp, hself]
      exact hfine
    · rw [hother q hqp]
      exact (h.fine q).of_rest (halone q hqp)

theorem Spaced.alone (h : Spaced config d s) (hp : (s.calls p).active = true) (q : Pid) (hq : q ≠ p) :
    (s.calls q).active = false :=
  Bool.eq_false_iff.mpr fun hactive => hq (h.single q p hactive hp)

theorem Spaced.count (h : Spaced config d s) (hd : 0 < d) (hwindow : 0 < config.windowMs)
    (hspan : config.windowMs ≤ config.limit * d) {now : Int} {id : String}
    (hp : s.calls p = .evicted now id) : s.found.zcard < config.limit := by
  have hfine := h.fine p
  rw [hp] at hfine
  have hsublist : s.found.set.entries.Sublist s.key.set.entries := Key.entries_foundAt _ _
  have hlength : now - config.windowMs + 1 + (s.found.zcard : Int) * d ≤ now :=
    span_le hd s.found.set.sorted (h.apart.sublist hsublist)
      (fun e he => (hfine e (hsublist.subset he)).1)
      (fun e he => (hfine e (hsublist.subset he)).2) (by omega)
  have hproduct : (s.found.zcard : Int) * d < config.limit * d := by omega
  exact Int.ofNat_lt.mp (Int.lt_of_mul_lt_mul_right hproduct hd.le)

theorem Spaced.step (hd : 0 < d) (hwindow : 0 < config.windowMs)
    (hspan : config.windowMs ≤ config.limit * d) {a : Action} (h : Spaced config d s)
    (hwaits : Waits d s a) (hstep : step config s a = some t) : Spaced config d t := by
  have hfound : s.found.set.entries.Sublist s.key.set.entries := Key.entries_foundAt _ _
  cases a with
  | tick ms =>
    cases hstep
    exact ⟨h.apart, h.backed, h.single, h.fine⟩
  | start p random =>
    simp only [RateLimit.step] at hstep
    split at hstep <;> cases hstep
    rename_i hp
    refine h.moves rfl (fun q _ => (hwaits q).not_active) h.apart (fun e he => .inl he) ?_ ?_
    · intro time htime
      rw [hp] at htime
      cases htime
    · -- the call that an entry is of has long been answered
      intro e he
      obtain ⟨q, hq⟩ := h.backed e he
      have hrested := hwaits q
      cases hcall : s.calls q with
      | returned now id currentCount result =>
        rw [hcall] at hq hrested
        cases hq
        exact hrested
      | idle =>
        rw [hcall] at hq
        cases hq
      | _ =>
        rw [hcall] at hrested
        cases hrested
  | zremrangebyscore p =>
    simp only [RateLimit.step] at hstep
    split at hstep <;> cases hstep
    rename_i now id hp
    have hfine := h.fine p
    rw [hp] at hfine
    have hkept : ∀ e ∈ (s.found.zremrangebyscore (now - config.windowMs)).set.entries,
        e ∈ s.key.set.entries ∧ now - config.windowMs < (ofLex e).1 := by
      intro e he
      rw [Key.entries_zremrangebyscore] at he
      obtain ⟨he, hlater⟩ := List.mem_filter.mp he
      exact ⟨hfound.subset he, of_decide_eq_true hlater⟩
    refine h.moves rfl (h.alone (by rw [hp]; rfl)) ?_ (fun e he => .inl (hkept e he).1) ?_
      (fun e he => ⟨(hkept e he).2, hfine e (hkept e he).1⟩)
    · change (s.found.zremrangebyscore _).set.entries.Pairwise _
      rw [Key.entries_zremrangebyscore]
      exact h.apart.sublist (List.filter_sublist.trans hfound)
    · intro time htime
      rw [hp] at htime
      cases htime
  | zcard p =>
    simp only [RateLimit.step] at hstep
    split at hstep <;> cases hstep
    rename_i now id hp
    have hfine := h.fine p
    rw [hp] at hfine
    refine h.moves rfl (h.alone (by rw [hp]; rfl)) h.apart (fun e he => .inl he) ?_
      ⟨h.count hd hwindow hspan hp, fun e he => (hfine e he).2⟩
    intro time htime
    rw [hp] at htime
    cases htime
  | zadd p =>
    simp only [RateLimit.step] at hstep
    split at hstep <;> cases hstep
    rename_i now id currentCount hp
    have hfine := h.fine p
    rw [hp] at hfine
    refine h.moves rfl (h.alone (by rw [hp]; rfl))
      (Key.apart_zadd (h.apart.sublist hfound) fun e he => hfine.2 e (hfound.subset he)) ?_ ?_ hfine.1
    · intro e he
      rcases Key.mem_zadd he with he | rfl
      · exact .inl (hfound.subset he)
      · exact .inr rfl
    · intro time htime
      rw [hp] at htime
      cases htime
  | pexpire p =>
    simp only [RateLimit.step] at hstep
    split at hstep <;> cases hstep
    rename_i now id currentCount hp
    have hfine := h.fine p
    rw [hp] at hfine
    have hkept := (Key.entries_pexpire s.found s.clock config.windowMs).trans hfound
    refine h.moves rfl (h.alone (by rw [hp]; rfl)) (h.apart.sublist hkept)
      (fun e he => .inl (hkept.subset he)) ?_ hfine
    intro time htime
    rw [hp] at htime
    exact htime
  | reply p =>
    simp only [RateLimit.step] at hstep
    split at hstep <;> cases hstep
    rename_i now id currentCount hp
    have hfine := h.fine p
    rw [hp] at hfine
    refine h.moves rfl (h.alone (by rw [hp]; rfl)) h.apart (fun e he => .inl he) ?_
      (decide_eq_true hfine)
    intro time htime
    rw [hp] at htime
    exact htime

theorem Spaced.preserves (hd : 0 < d) (hwindow : 0 < config.windowMs)
    (hspan : config.windowMs ≤ config.limit * d) :
    (machine config).PreservesAlong (Waits d) (Spaced config d) :=
  fun _ _ _ h hwaits hstep => h.step hd hwindow hspan hwaits hstep

theorem Spaced.passes (h : Spaced config d s) {response : Response}
    (hresponse : (s.calls p).response config = some response) : response.thrown = none := by
  have hfine := h.fine p
  cases hcall : s.calls p with
  | returned now id currentCount result =>
    rw [hcall] at hresponse hfine
    cases hresponse
    have hallowed : result.allowed = true := hfine
    rw [respond, if_pos hallowed]
  | _ =>
    rw [hcall] at hresponse
    cases hresponse

theorem spaced_start (clock : Time) : Spaced config d (.start clock .absent) where
  apart := .nil
  backed e he := by cases he
  single p q hp := by cases hp
  fine p := trivial

end Step

variable {visits : Pid → Visit}

/-- The client of `visit` waits for its answers and `d` milliseconds more; the others need not. -/
def ClientWaits (visits : Pid → Visit) (visit : Visit) (d : Int) (s : Redis) : Action → Prop
  | .start p _ => (visits p).Shares visit →
      ∀ q, (visits q).Shares visit → (s.calls q).Rested s.clock d
  | _ => True

theorem Named.waits (h : Named visits) {p : Pid} {d : Int} {s : Redis} {a : Action}
    (hwaits : ClientWaits visits (visits p) d s a) (ha : countsWith visits (visits p) a = true) :
    Waits d (s.view visits (visits p).key) a := by
  cases a with
  | start p' random =>
    intro q
    simp only [Redis.view, State.only]
    split
    · rename_i hq
      exact hwaits (of_decide_eq_true ha) q ((h.key_iff q p).mp (of_decide_eq_true hq))
    · trivial
  | _ => trivial

/-- A client that waits for each answer and at least the `limit`-th part of the window between its
requests is let through every time, whatever the others do meanwhile. -/
theorem patient_passes (h : Named visits) {clock : Time} {as : List Action} {s : Redis}
    (hrun : (routes visits).run (.start clock) as = some s) {p : Pid} {d : Int} (hd : 0 < d)
    (hwindow : 0 < (visits p).route.windowMs)
    (hspan : (visits p).route.windowMs ≤ (visits p).route.limit * d)
    (hwaits : (routes visits).Along (ClientWaits visits (visits p) d) (.start clock) as) {q : Pid}
    (hshares : (visits q).Shares (visits p)) {response : Response}
    (hresponse : s.response visits q = some response) : response.thrown = none := by
  have hown := (h.slices p).run hrun
  have halong := (h.slices p).along hrun (Machine.along_iff.mpr fun bs a cs t hsplit hbs ha =>
    h.waits (Machine.along_iff.mp hwaits bs a cs t hsplit hbs) ha)
  rw [Redis.view_start] at hown halong
  have hspaced := Machine.run_preserves_along (Spaced.preserves hd hwindow hspan)
    (spaced_start clock) halong hown
  rw [h.response_view s hshares] at hresponse
  exact hspaced.passes hresponse

namespace Sample

def returning : Pid → Visit
  | 2 => ⟨signIn, browser "10.0.0.2"⟩
  | _ => ⟨signIn, browser "10.0.0.1"⟩

theorem named_returning : Named returning := by
  have hroute : ∀ p, (returning p).route = signIn := by
    intro p
    unfold returning
    split <;> rfl
  constructor
  · intro p
    rw [hroute]
    decide
  · intro p q _
    rw [hroute, hroute]

def aSecondApart : List Action :=
  [.start 0 "k3f", .start 2 "x7b", .zremrangebyscore 0, .zcard 0, .zadd 0, .pexpire 0, .reply 0,
    .tick 1000, .start 1 "p9x", .zremrangebyscore 1, .zcard 1, .zadd 1, .pexpire 1, .reply 1]

theorem waits_aSecondApart : (routes returning).Along (ClientWaits returning (returning 0) 1000)
    (.start 0) aSecondApart := by
  refine .cons rfl (fun _ q _ => trivial) ?_
  refine .cons rfl (fun hshares => absurd hshares (by decide)) ?_
  iterate 6 refine .cons rfl (by trivial) ?_
  refine .cons rfl ?_ ?_
  · -- only the two requests of the first address count, and the first of them is answered
    intro _ q hshares
    rcases eq_or_ne q 0 with rfl | h0
    · exact Int.le_refl 1000
    · rcases eq_or_ne q 2 with rfl | h2
      · exact absurd hshares (by decide)
      · simp [Redis.put, Redis.under, State.set, State.write, Redis.start, h0, h2, Call.Rested]
  iterate 5 refine .cons rfl (by trivial) ?_
  trivial

end Sample

theorem patient_passes_aSecondApart :
    ∃ s, (routes Sample.returning).run (.start 0) Sample.aSecondApart = some s ∧
      ∃ response, s.response Sample.returning 1 = some response ∧ response.thrown = none := by
  have hrun : ∃ s, (routes Sample.returning).run (.start 0) Sample.aSecondApart = some s ∧
      ∃ response, s.response Sample.returning 1 = some response := ⟨_, rfl, _, rfl⟩
  obtain ⟨s, hrun, response, hresponse⟩ := hrun
  have hshares : (Sample.returning 1).Shares (Sample.returning 0) := ⟨rfl, rfl⟩
  exact ⟨s, hrun, response, hresponse, patient_passes Sample.named_returning hrun (by decide)
    (by decide) (by decide) Sample.waits_aSecondApart hshares hresponse⟩

end SupportApi.RateLimit
