import SupportApi.Conversations.Progress
import SupportApi.Lib.Slice

namespace SupportApi.Conversations

open Lib

/-- The request that an action belongs to; the insert of `create` is a step of its own. -/
def Action.pid? : Action → Option Pid
  | .create _ _ _ _ => none
  | .claim p _ _ => some p
  | .claimLock p => some p
  | .claimCommit p _ => some p
  | .resolve p _ _ _ => some p
  | .resolveCheck p _ => some p
  | .resolveReread p => some p
  | .resolveWrite p _ _ => some p
  | .resolveNote p _ _ => some p
  | .resolveEnqueue p => some p
  | .fail p => some p

def State.without (s : State) (gone : Pid → Bool) : State where
  db := s.db
  queue := s.queue
  lock id := (s.lock id).filter fun p => !gone p
  procs p := if gone p then .idle else s.procs p

def Locking (s : State) : Prop :=
  ∀ id p, LockedBy id (s.procs p) → s.lock id = some p

variable {gone : Pid → Bool} {s t : State} {p : Pid}

theorem State.without_procs (s : State) (hp : gone p = false) :
    (s.without gone).procs p = s.procs p := by
  simp [State.without, hp]

theorem State.without_lock (id : Uuid) (h : s.lock id = none) :
    (s.without gone).lock id = none := by
  simp [State.without, h]

theorem State.without_set (s : State) (hp : gone p = false) (proc : Process) :
    (s.set p proc).without gone = (s.without gone).set p proc :=
  congrArg (fun procs => { s.without gone with procs }) (update_stays s.procs hp .idle proc)

theorem State.without_hold (s : State) (hp : gone p = false) (id : Uuid) :
    (s.hold id p).without gone = (s.without gone).hold id p := by
  have hkept : (some p).filter (fun q => !gone q) = some p := by simp [hp]
  have hlock := Function.comp_update (Option.filter fun q => !gone q) s.lock id (some p)
  rw [hkept] at hlock
  exact congrArg (fun lock => { s.without gone with lock }) hlock

theorem State.without_release (s : State) (gone : Pid → Bool) (id : Uuid) :
    (s.release id).without gone = (s.without gone).release id :=
  congrArg (fun lock => { s.without gone with lock })
    (Function.comp_update (Option.filter fun q => !gone q) s.lock id none)

@[simp] theorem State.without_db : (s.without gone).db = s.db := rfl

@[simp] theorem State.without_store (s : State) (gone : Pid → Bool) (db : Database) :
    (s.store db).without gone = (s.without gone).store db := rfl

@[simp] theorem State.without_enqueue (s : State) (gone : Pid → Bool) (job : ResolutionJob) :
    (s.enqueue job).without gone = (s.without gone).enqueue job := rfl

theorem Step.without {a : Action} (h : Step s a t) (ha : ∀ p, a.pid? = some p → gone p = false) :
    Step (s.without gone) a (t.without gone) := by
  cases h with
  | create hcreate => exact .create hcreate
  | _ =>
    have hstays := ha _ rfl
    refine step_iff.mp ?_
    simp only [State.without_set _ hstays, State.without_hold _ hstays, State.without_release,
      State.without_store, State.without_enqueue]
    simp [machine, step, claimLock, claimCommit, resolveCheck, resolveReread, resolveWrite,
      resolveNote, resolveEnqueue, fail, State.without_procs _ hstays, State.without_lock, *]

theorem Locking.initial (db : Database) (queue : List ResolutionJob) :
    Locking (.initial db queue) := by
  intro id p hlocked
  simp [LockedBy, State.initial] at hlocked

theorem Locking.set (h : Locking s) {proc : Process} (hproc : ∀ id, ¬LockedBy id proc) :
    Locking (s.set p proc) := by
  intro id q hlocked
  rcases eq_or_ne q p with rfl | hq
  · rw [State.set_procs, Function.update_self] at hlocked
    exact absurd hlocked (hproc id)
  · rw [State.set_procs, Function.update_of_ne hq] at hlocked
    exact h id q hlocked

theorem Locking.hold (h : Locking s) {id : Uuid} {user : User} {conv : Conversation}
    (hlock : s.lock id = none) : Locking ((s.set p (.claim id user (.locked conv))).hold id p) := by
  intro c q hlocked
  rcases eq_or_ne q p with rfl | hq
  · rw [State.hold_procs, State.set_procs, Function.update_self] at hlocked
    rw [← hlocked.eq]
    exact Function.update_self ..
  · rw [State.hold_procs, State.set_procs, Function.update_of_ne hq] at hlocked
    have hheld := h c q hlocked
    have hc : c ≠ id := by
      rintro rfl
      cases hlock.symm.trans hheld
    exact (Function.update_of_ne hc ..).trans hheld

theorem Locking.release (h : Locking s) {id : Uuid} {user : User} {conv : Conversation}
    (hp : s.procs p = .claim id user (.locked conv)) {proc : Process}
    (hproc : ∀ c, ¬LockedBy c proc) : Locking ((s.set p proc).release id) := by
  intro c q hlocked
  have hq : q ≠ p := by
    rintro rfl
    rw [State.release_procs, State.set_procs, Function.update_self] at hlocked
    exact hproc c hlocked
  rw [State.release_procs, State.set_procs, Function.update_of_ne hq] at hlocked
  have hheld := h c q hlocked
  have hc : c ≠ id := by
    rintro rfl
    have hmine := h c p ⟨user, conv, hp⟩
    exact hq (Option.some.inj (hheld.symm.trans hmine))
  exact (Function.update_of_ne hc ..).trans hheld

theorem Step.locking {a : Action} (h : Locking s) (hs : Step s a t) : Locking t := by
  cases hs with
  | create => exact h
  | locks _ _ hlock => exact h.hold hlock
  | rollsBack hp => exact h.release hp (by simp [LockedBy])
  | claimFails hp => exact h.release hp (by simp [LockedBy])
  | @commits p _ id user _ reply _ hp _ =>
    have hreturned : ∀ c, ¬LockedBy c (.claim id user (.returned (.ok reply))) := by
      simp [LockedBy]
    exact h.release hp hreturned
  | _ => exact h.set (by simp [LockedBy])

theorem State.without_congr (hdb : t.db = s.db) (hqueue : t.queue = s.queue)
    (hlock : ∀ id, ((t.lock id).filter fun p => !gone p) = (s.lock id).filter fun p => !gone p)
    (hprocs : ∀ p, gone p = false → t.procs p = s.procs p) : t.without gone = s.without gone := by
  have hsame : ∀ p, (if gone p then .idle else t.procs p) =
      if gone p then .idle else s.procs p := by
    intro p
    cases hp : gone p with
    | true => rfl
    | false => exact hprocs p hp
  simp only [State.without, hdb, hqueue, hlock, hsame]

theorem Step.procs_of_ne {a : Action} (h : Step s a t) {q : Pid} (hq : a.pid? ≠ some q) :
    t.procs q = s.procs q := by
  cases h with
  | create => rfl
  | _ => exact Function.update_of_ne (fun heq => hq (congrArg some heq.symm)) ..

theorem Step.begun {a : Action} (h : Step s a t) (huser : a.user? = none) (ha : a.pid? = some p) :
    s.procs p ≠ .idle := by
  intro hidle
  cases h <;> cases ha <;> cases huser <;> simp_all

inductive Process.Served : Process → Prop
  | claim {id user conv} : Served (.claim id user (.returned (.ok conv)))
  | resolve {id user dto entity} : Served (.resolve id user dto (.returned (.ok entity)))

/-- The conversation of a resolve is saved, and its note and job are to come. -/
def Process.Saved (proc : Process) : Prop :=
  ∃ id user dto entity, proc = .resolve id user dto (.saved entity)

theorem Step.outcome {a : Action} (h : Step s a t) (ha : a.pid? = some p) :
    (t.db = s.db ∧ t.queue = s.queue) ∨ (s.procs p).Saved ∨ (t.procs p).Saved ∨
      (t.procs p).Served := by
  cases h with
  | commits hp =>
    cases ha
    refine .inr (.inr (.inr ?_))
    simp only [State.store_procs, State.release_procs, State.set_procs, Function.update_self]
    exact .claim
  | writes hp =>
    cases ha
    exact .inr (.inr (.inl ⟨_, _, _, _, Function.update_self ..⟩))
  | notes hp =>
    cases ha
    exact .inr (.inl ⟨_, _, _, _, hp⟩)
  | enqueues hp =>
    cases ha
    refine .inr (.inr (.inr ?_))
    simp only [State.enqueue_procs, State.set_procs, Function.update_self]
    exact .resolve
  | create => cases ha
  | _ => exact .inl ⟨rfl, rfl⟩

theorem Step.unseen {a : Action} (h : Step s a t) (ha : ∀ p, a.pid? = some p → gone p = true)
    (hlocking : Locking s) (hdb : t.db = s.db) (hqueue : t.queue = s.queue) :
    t.without gone = s.without gone := by
  refine State.without_congr hdb hqueue ?_ fun q hq => ?_
  · -- the lock that a claim takes, or gives back, is its own
    have hnone : ∀ {p} {lock : Option Pid}, gone p = true → lock = none ∨ lock = some p →
        (lock.filter fun q => !gone q) = none := by
      rintro p _ hp (rfl | rfl)
      · rfl
      · simp [hp]
    have hchanged : ∀ {p id} (lock : Option Pid), gone p = true →
        lock = none ∨ lock = some p → s.lock id = none ∨ s.lock id = some p → ∀ c,
        ((Function.update s.lock id lock c).filter fun q => !gone q) =
          (s.lock c).filter fun q => !gone q := by
      intro p id lock hp hlock hbefore c
      rcases eq_or_ne c id with rfl | hc
      · rw [Function.update_self, hnone hp hlock, hnone hp hbefore]
      · rw [Function.update_of_ne hc]
    cases h with
    | locks hp _ hlock => exact hchanged _ (ha _ rfl) (.inr rfl) (.inl hlock)
    | rollsBack hp => exact hchanged _ (ha _ rfl) (.inl rfl) (.inr (hlocking _ _ ⟨_, _, hp⟩))
    | claimFails hp => exact hchanged _ (ha _ rfl) (.inl rfl) (.inr (hlocking _ _ ⟨_, _, hp⟩))
    | commits hp => exact hchanged _ (ha _ rfl) (.inl rfl) (.inr (hlocking _ _ ⟨_, _, hp⟩))
    | _ => exact fun _ => rfl
  · refine h.procs_of_ne fun hpid => ?_
    rw [ha q hpid] at hq
    cases hq

end SupportApi.Conversations
