import SupportApi.Conversations.Snapshots
import SupportApi.Conversations.Staff
import SupportApi.Lib.Drain

namespace SupportApi.Conversations

open Lib

def Process.left : Process → ℕ
  | .idle => 0
  | .claim _ _ .waiting => 2
  | .claim _ _ (.locked _) => 1
  | .claim _ _ (.returned _) => 0
  | .resolve _ _ _ (.loaded _) => 5
  | .resolve _ _ _ (.saving _) => 4
  | .resolve _ _ _ (.writing _ _ _) => 3
  | .resolve _ _ _ (.saved _) => 2
  | .resolve _ _ _ (.noted _) => 1
  | .resolve _ _ _ (.returned _) => 0

def Process.saves? : Process → Option Uuid
  | .resolve id _ _ (.loaded _) => some id
  | .resolve id _ _ (.saving _) => some id
  | _ => none

def Action.fails : Action → Bool
  | .fail _ => true
  | _ => false

def Held (s : State) : Prop :=
  ∀ id p, s.lock id = some p → LockedBy id (s.procs p)

def Found (s : State) : Prop :=
  ∀ p id, (s.procs p).saves? = some id → (s.db.conversations.find? id).isSome

structure Live (s : State) : Prop where
  held : Held s
  found : Found s

variable {s t : State} {p : Pid}

theorem LockedBy.eq {c id : Uuid} {user : User} {conv : Conversation}
    (h : LockedBy c (.claim id user (.locked conv))) : id = c := by
  obtain ⟨_, _, heq⟩ := h
  cases heq
  rfl

theorem Held.set (h : Held s) {proc : Process} (hp : ∀ id, ¬LockedBy id (s.procs p)) :
    Held (s.set p proc) := by
  intro id q hlock
  rcases eq_or_ne q p with rfl | hq
  · exact absurd (h id q hlock) (hp id)
  · rw [State.set_procs, Function.update_of_ne hq]
    exact h id q hlock

theorem Held.release (h : Held s) {id : Uuid} {user : User} {conv : Conversation}
    {proc : Process} (hp : s.procs p = .claim id user (.locked conv)) :
    Held ((s.set p proc).release id) := by
  intro c q hlock
  have hc : c ≠ id := by
    rintro rfl
    simp at hlock
  rw [State.release_lock, Function.update_of_ne hc] at hlock
  have hq : q ≠ p := by
    rintro rfl
    exact hc (hp ▸ h c q hlock).eq.symm
  rw [State.release_procs, State.set_procs, Function.update_of_ne hq]
  exact h c q hlock

theorem Held.hold (h : Held s) {id : Uuid} {user : User} {conv : Conversation}
    (hp : s.procs p = .claim id user .waiting) :
    Held ((s.set p (.claim id user (.locked conv))).hold id p) := by
  intro c q hlock
  rcases eq_or_ne c id with rfl | hc
  · rw [State.hold_lock, Function.update_self] at hlock
    cases hlock
    exact ⟨user, conv, Function.update_self ..⟩
  · rw [State.hold_lock, Function.update_of_ne hc] at hlock
    have hset : Held (s.set p (.claim id user (.locked conv))) :=
      h.set fun _ hlocked => by simp [LockedBy, hp] at hlocked
    exact hset c q hlock

theorem Step.held {a : Action} (h : Held s) (hs : Step s a t) : Held t := by
  cases hs with
  | create => exact h
  | locks hp => exact h.hold hp
  | rollsBack hp => exact h.release hp
  | claimFails hp => exact h.release hp
  | commits hp => exact h.release hp
  | _ => exact h.set fun _ hlocked => by simp [LockedBy, *] at hlocked

theorem Found.set (h : Found s) {proc : Process}
    (hproc : ∀ id, proc.saves? = some id → (s.db.conversations.find? id).isSome) :
    Found (s.set p proc) := by
  intro q id hq
  rcases eq_or_ne q p with rfl | hne
  · rw [State.set_procs, Function.update_self] at hq
    exact hproc id hq
  · rw [State.set_procs, Function.update_of_ne hne] at hq
    exact h q id hq

theorem Found.mono (h : Found s) {lock : Uuid → Option Pid} {queue : List ResolutionJob}
    {db : Database} (hdb : s.db.Evolves db) : Found ⟨db, queue, lock, s.procs⟩ := by
  intro q id hq
  obtain ⟨row, hrow⟩ := Option.isSome_iff_exists.mp (h q id hq)
  obtain ⟨row', hrow', -⟩ := hdb.conversations id row hrow
  exact Option.isSome_iff_exists.mpr ⟨row', hrow'⟩

theorem Step.found {a : Action} (h : Found s) (hs : Step s a t) : Found t := by
  have hevolves := hs.evolves
  cases hs with
  | create => exact h.mono hevolves
  | loads hp hload =>
    refine h.set fun id hid => ?_
    cases hid
    obtain ⟨conv, hconv, -, -⟩ := findOne_ok hload
    exact Option.isSome_iff_exists.mpr ⟨conv, (selectConversation_some hconv).1⟩
  | @checks p _ _ _ _ _ hp =>
    refine h.set fun id hid => h p id ?_
    rw [hp]
    exact hid
  | commits => exact Found.mono (h.set fun _ hid => by cases hid) hevolves
  | writes => exact Found.mono (h.set fun _ hid => by cases hid) hevolves
  | notes => exact Found.mono (h.set fun _ hid => by cases hid) hevolves
  | _ => exact h.set fun _ hid => by cases hid

theorem Live.initial (db : Database) (queue : List ResolutionJob) : Live (.initial db queue) where
  held := by
    intro id p h
    cases h
  found := by
    intro p id h
    cases h

theorem Step.live {a : Action} (h : Live s) (hs : Step s a t) : Live t :=
  ⟨hs.held h.held, hs.found h.found⟩

theorem Step.spends {a : Action} (hs : Step s a t) (ha : a.user? = none) :
    ∃ p, (t.procs p).left < (s.procs p).left ∧ ∀ q, q ≠ p → t.procs q = s.procs q := by
  have hset : ∀ p proc, proc.left < (s.procs p).left → ∃ r,
      (Function.update s.procs p proc r).left < (s.procs r).left ∧
        ∀ q, q ≠ r → Function.update s.procs p proc q = s.procs q := by
    intro p proc hlt
    refine ⟨p, ?_, fun q hq => Function.update_of_ne hq ..⟩
    rw [Function.update_self]
    exact hlt
  cases hs with
  | create => cases ha
  | claimRefused => cases ha
  | claimWaits => cases ha
  | resolveMisses => cases ha
  | loads => cases ha
  | _ => exact hset _ _ (by simp [Process.left, *])

theorem claimCommit_isSome {id : Uuid} {user : User} {conv : Conversation}
    (hp : s.procs p = .claim id user (.locked conv)) (now : Time) :
    ∃ t, machine.step s (.claimCommit p now) = some t := by
  cases hclaim : claimLocked s.db conv user now with
  | error e => exact ⟨_, step_iff.mpr (.rollsBack hp hclaim)⟩
  | ok reply => exact ⟨_, step_iff.mpr (.commits hp hclaim)⟩

/-- Whoever waits for a row lock waits for a claim that can commit. -/
theorem Live.unlocks (h : Live s) (id : Uuid) (hlock : s.lock id ≠ none) :
    ∃ q t, machine.step s (.claimCommit q 0) = some t := by
  obtain ⟨q, hq⟩ := Option.ne_none_iff_exists'.mp hlock
  obtain ⟨user, conv, hproc⟩ := h.held id q hq
  exact ⟨q, claimCommit_isSome hproc 0⟩

theorem Live.moves (h : Live s) (hp : (s.procs p).left ≠ 0) :
    ∃ a t, a.user? = none ∧ a.fails = false ∧ machine.step s a = some t := by
  cases hproc : s.procs p with
  | idle => simp [hproc, Process.left] at hp
  | claim id user phase =>
    cases phase with
    | waiting =>
      cases hconv : selectConversation s.db id user with
      | none => exact ⟨.claimLock p, _, rfl, rfl, step_iff.mpr (.lockMisses hproc hconv)⟩
      | some conv =>
        by_cases hlock : s.lock id = none
        · exact ⟨.claimLock p, _, rfl, rfl, step_iff.mpr (.locks hproc hconv hlock)⟩
        · obtain ⟨q, t, ht⟩ := h.unlocks id hlock
          exact ⟨.claimCommit q 0, t, rfl, rfl, ht⟩
    | locked conv =>
      obtain ⟨t, ht⟩ := claimCommit_isSome hproc 0
      exact ⟨.claimCommit p 0, t, rfl, rfl, ht⟩
    | returned reply => simp [hproc, Process.left] at hp
  | resolve id user dto phase =>
    cases phase with
    | loaded entity =>
      cases hmay : mayResolve entity.conv user with
      | error e => exact ⟨.resolveCheck p 0, _, rfl, rfl, step_iff.mpr (.checkRefuses hproc hmay)⟩
      | ok _ => exact ⟨.resolveCheck p 0, _, rfl, rfl, step_iff.mpr (.checks hproc hmay)⟩
    | saving entity =>
      obtain ⟨row, hrow⟩ := Option.isSome_iff_exists.mp (h.found p id (by rw [hproc]; rfl))
      exact ⟨.resolveReread p, _, rfl, rfl, step_iff.mpr (.rereads hproc hrow)⟩
    | writing entity reread related =>
      by_cases hlock : s.lock id = none
      · cases hsave : save true s.db entity reread related 0 with
        | none =>
          exact ⟨.resolveWrite p 0 true, _, rfl, rfl,
            step_iff.mpr (.writeRefused hproc hlock hsave)⟩
        | some db =>
          exact ⟨.resolveWrite p 0 true, _, rfl, rfl, step_iff.mpr (.writes hproc hlock hsave)⟩
      · obtain ⟨q, t, ht⟩ := h.unlocks id hlock
        exact ⟨.claimCommit q 0, t, rfl, rfl, ht⟩
    | saved entity =>
      cases hnote : resolutionNote dto with
      | none => exact ⟨.resolveNote p ⟨0⟩ 0, _, rfl, rfl, step_iff.mpr (.noNote hproc hnote)⟩
      | some note =>
        cases hins : s.db.insertMessage (noteMessage entity.conv note ⟨0⟩ 0) with
        | none =>
          exact ⟨.resolveNote p ⟨0⟩ 0, _, rfl, rfl, step_iff.mpr (.noteRefused hproc hnote hins)⟩
        | some db =>
          exact ⟨.resolveNote p ⟨0⟩ 0, _, rfl, rfl, step_iff.mpr (.notes hproc hnote hins)⟩
    | noted entity => exact ⟨.resolveEnqueue p, _, rfl, rfl, step_iff.mpr (.enqueues hproc)⟩
    | returned reply => simp [hproc, Process.left] at hp

theorem ended_of_left {proc : Process} (h : proc.left = 0) :
    proc = .idle ∨ proc.returned = true := by
  cases proc with
  | idle => exact Or.inl rfl
  | claim id user phase => cases phase <;> simp [Process.left, Process.returned] at h ⊢
  | resolve id user dto phase => cases phase <;> simp [Process.left, Process.returned] at h ⊢

theorem Live.unlocked (h : Live s) (hdone : ∀ p, (s.procs p).left = 0) (id : Uuid) :
    s.lock id = none := by
  by_contra hlock
  obtain ⟨q, hq⟩ := Option.ne_none_iff_exists'.mp hlock
  obtain ⟨user, conv, hproc⟩ := h.held id q hq
  have := hdone q
  simp [hproc, Process.left] at this

end SupportApi.Conversations
