import SupportApi.Conversations.Erasure
import SupportApi.Server.Sequential

namespace SupportApi.Server

open Lib Auth Conversations

def Action.pid? : Action → Option Pid
  | .request p _ => some p
  | .handOver p _ _ => some p
  | .conversation a => a.pid?

def Action.stays (gone : Pid → Bool) (a : Action) : Bool := a.pid?.all fun p => !gone p

def State.without (s : State) (gone : Pid → Bool) : State where
  conversations := s.conversations.without gone
  procs p := if gone p then .idle else s.procs p

/-- A step of `gone` leaves the database and the queue as they are. -/
def Inert (env : Auth.Env) (gone : Pid → Bool) (s : State) (a : Action) : Prop :=
  a.stays gone = false → ∀ t, (machine env).step s a = some t →
    t.db = s.db ∧ t.conversations.queue = s.conversations.queue

variable {env : Auth.Env} {gone : Pid → Bool} {s t : State} {p : Pid}

theorem Action.stays_iff {a : Action} :
    a.stays gone = true ↔ ∀ p, a.pid? = some p → gone p = false := by
  cases h : a.pid? <;> simp [Action.stays, h]

theorem Action.not_stays_iff {a : Action} :
    a.stays gone = false ↔ ∃ p, a.pid? = some p ∧ gone p = true := by
  cases h : a.pid? <;> simp [Action.stays, h]

theorem State.without_procs (s : State) (hp : gone p = false) :
    (s.without gone).procs p = s.procs p := by
  simp [State.without, hp]

theorem State.without_conversations (s : State) (gone : Pid → Bool) :
    (s.without gone).conversations = s.conversations.without gone := rfl

@[simp] theorem State.without_start (db : Database) (gone : Pid → Bool) :
    (State.start db).without gone = .start db := by
  simp [State.without, State.start, Conversations.State.without, Conversations.State.initial]

theorem opening_pid {command : Command} {user : User} {id : Uuid} {now : Time}
    {a : Conversations.Action} (h : command.opening p user id now = some a) {q : Pid}
    (hq : a.pid? = some q) : q = p := by
  cases command <;> cases h <;> cases hq <;> rfl

theorem opening_without {command : Command} {user : User} {id : Uuid} {now : Time}
    {a : Conversations.Action} (h : command.opening p user id now = some a)
    (hp : gone p = false) (c : Conversations.State) :
    Conversations.step (c.without gone) a =
      (Conversations.step c a).map fun d => d.without gone := by
  cases command <;> cases h
  · simp only [Conversations.step, Conversations.State.without_db]
    split <;> rfl
  · simp only [Conversations.step, c.without_procs hp]
    cases c.procs p <;> cases mayClaim user <;> simp [c.without_set hp]
  · simp only [Conversations.step, c.without_procs hp, Conversations.State.without_db]
    cases c.procs p <;> cases findOne c.db _ user <;> simp [c.without_set hp]

theorem step_without {a : Action} (hs : (machine env).step s a = some t)
    (ha : ∀ p, a.pid? = some p → gone p = false) :
    (machine env).step (s.without gone) a = some (t.without gone) := by
  cases a with
  | request p input =>
    obtain ⟨⟨proc, db⟩, hnext, rfl⟩ := Option.map_eq_some_iff.mp hs
    refine Option.map_eq_some_iff.mpr ⟨(proc, db), ?_, ?_⟩
    · rw [s.without_procs (ha p rfl)]
      exact hnext
    · simp only [State.without, State.set, State.store, update_stays s.procs (ha p rfl),
        Conversations.State.without_store]
  | handOver p id now =>
    have hstays := ha p rfl
    simp only [machine, step, s.without_procs hstays] at hs ⊢
    split at hs
    · rename_i token user command hp
      split at hs
      · cases hs
      · rename_i a hopening
        rw [State.without_conversations, opening_without hopening hstays]
        split at hs <;> rename_i hstep <;> cases hs <;>
          simp [hstep, State.without, State.set, update_stays _ hstays]
    · cases hs
  | conversation a =>
    simp only [machine, step] at hs ⊢
    split at hs
    · cases hs
    · rename_i huser
      obtain ⟨c, hstep, rfl⟩ := Option.map_eq_some_iff.mp hs
      have hwithout := (step_iff.mp hstep).without ha
      exact Option.map_eq_some_iff.mpr ⟨_, step_iff.mpr hwithout, rfl⟩

theorem Step.unseen {a : Action} (hs : Step env s a t) (ha : a.pid? = some p) (hp : gone p = true)
    (hlocking : Locking s.conversations) (hdb : t.db = s.db)
    (hqueue : t.conversations.queue = s.conversations.queue) : t.without gone = s.without gone := by
  cases hs with
  | @request _ _ proc db hnext =>
    cases ha
    cases hdb
    simp only [State.without, State.set, State.store, update_gone s.procs hp,
      Conversations.State.without_store]
    rfl
  | opens _ hopening hstep =>
    cases ha
    have hconv := hstep.unseen (fun q hq => opening_pid hopening hq ▸ hp) hlocking hdb hqueue
    simp only [State.without, hconv, update_gone s.procs hp]
  | openRefused =>
    cases ha
    simp only [State.without, State.set, update_gone s.procs hp]
  | conversation _ hstep =>
    have hmine : ∀ q, (_ : Conversations.Action).pid? = some q → gone q = true :=
      fun q hq => Option.some.inj (hq.symm.trans ha) ▸ hp
    have hconv := hstep.unseen hmine hlocking hdb hqueue
    simp only [State.without, hconv]

theorem Step.locking {a : Action} (hs : Step env s a t) (h : Locking s.conversations) :
    Locking t.conversations := by
  cases hs with
  | request => exact h
  | opens _ _ hstep => exact hstep.locking h
  | openRefused => exact h
  | conversation _ hstep => exact hstep.locking h

theorem slicesAlong (gone : Pid → Bool) :
    Machine.SlicesAlong (fun s a => Locking s.conversations ∧ Inert env gone s a) (machine env)
      (machine env) (fun s => s.without gone) (Action.stays gone) where
  own _ _ _ _ ha hs := step_without hs (Action.stays_iff.mp ha)
  others s a t h ha hs := by
    obtain ⟨p, hp, hgone⟩ := Action.not_stays_iff.mp ha
    obtain ⟨hdb, hqueue⟩ := h.2 ha t hs
    exact (step_some hs).unseen hp hgone h.1 hdb hqueue

theorem run_without {db : Database} {as : List Action}
    (hrun : (machine env).run (.start db) as = some t)
    (hinert : (machine env).Along (Inert env gone) (.start db) as) :
    (machine env).run (.start db) (as.filter (Action.stays gone)) = some (t.without gone) := by
  have hlocking : (machine env).Along
      (fun s a => Locking s.conversations ∧ Inert env gone s a) (.start db) as := by
    refine Machine.along_iff.mpr fun pre a post u has hpre => ⟨?_, ?_⟩
    · exact Machine.run_preserves (I := fun s => Locking s.conversations)
        (fun _ _ _ h hs => (step_some hs).locking h) (Locking.initial db []) hpre
    · exact Machine.along_iff.mp hinert pre a post u has hpre
  have hwithout := (slicesAlong gone).run hlocking hrun
  simpa only [State.without_start] using hwithout

/-- The account of a sign-up is inserted, that of a deactivation switched off, or the conversation
of a resolve saved, and more is to come that can fail. -/
def Halfway (s : State) (p : Pid) : Prop :=
  (∃ dto id, s.procs p = .signUpSaved dto id) ∨
    (∃ token user id, s.procs p = .deactivatedUser token user id) ∨ (s.conversations.procs p).Saved

structure Succeeded (s : State) (p : Pid) : Prop where
  answer : ∃ request body, s.answer p = some (request, .ok body)
  writes : ∀ token query user body,
    s.procs p ≠ .returned (.guarded token (.read query)) (.done user body)

/-- The request has ended in an error, or is a read that has ended. -/
def Vain (s : State) (p : Pid) : Prop :=
  (∃ request e, s.answer p = some (request, .error e)) ∨
    ∃ token query user body,
      s.procs p = .returned (.guarded token (.read query)) (.done user body)

theorem Succeeded.not_vain (h : Succeeded s p) : ¬Vain s p := by
  rintro (⟨request, e, herror⟩ | ⟨token, query, user, body, hread⟩)
  · obtain ⟨request', body, hok⟩ := h.answer
    cases hok.symm.trans herror
  · exact h.writes token query user body hread

def Synced (s : State) : Prop :=
  ∀ p, s.conversations.procs p = .idle ∨
    ∃ token user command saved, s.procs p = .handedOver token user command saved

theorem Synced.start (db : Database) : Synced (.start db) := fun _ => .inl rfl

theorem Next.begins {db db' : Database} {proc proc' : Process} {input : Input}
    (h : Next env db proc input proc' db') :
    (∀ token user command saved, proc ≠ .handedOver token user command saved) ∧
      ∀ request reply, proc ≠ .returned request reply := by
  cases h with
  | refuses hrequest =>
    rcases hrequest with ⟨rfl, -⟩ | hrequest
    · simp
    · cases proc <;> simp [Process.request?] at hrequest ⊢
  | _ => simp

theorem Synced.moves (h : Synced s) {a : Conversations.Action} {c : Conversations.State}
    (hs : Conversations.Step s.conversations a c) (huser : a.user? = none)
    (ha : a.pid? = some p) :
    ∃ token user command saved, s.procs p = .handedOver token user command saved :=
  (h p).resolve_left (hs.begun huser ha)

theorem Step.synced {a : Action} (hs : Step env s a t) (h : Synced s) : Synced t := by
  intro q
  cases hs with
  | @request p _ proc _ hnext =>
    rcases eq_or_ne q p with rfl | hq
    · refine .inl ((h q).resolve_right ?_)
      rintro ⟨token, user, command, saved, hp⟩
      exact hnext.begins.1 token user command saved hp
    · simp only [State.store_procs, State.set_procs, Function.update_of_ne hq]
      exact h q
  | @opens p _ _ token user command a _ _ hopening hstep =>
    rcases eq_or_ne q p with rfl | hq
    · exact .inr ⟨token, user, command, _, Function.update_self ..⟩
    · have hpid : a.pid? ≠ some q := fun hpid => hq (opening_pid hopening hpid)
      simp only [Function.update_of_ne hq, hstep.procs_of_ne hpid]
      exact h q
  | @openRefused p _ _ _ _ _ _ hp =>
    rcases eq_or_ne q p with rfl | hq
    · refine .inl ((h q).resolve_right ?_)
      rintro ⟨token, user, command, saved, hhanded⟩
      cases hp.symm.trans hhanded
    · simp only [State.set_procs, Function.update_of_ne hq]
      exact h q
  | @conversation a _ huser hstep =>
    by_cases hpid : a.pid? = some q
    · exact .inr (h.moves hstep huser hpid)
    · rw [hstep.procs_of_ne hpid]
      exact h q

theorem State.answer_cases {answer : Request × Except Exception Api.Body}
    (h : s.answer p = some answer) :
    (∃ request reply, s.procs p = .returned request reply) ∨
      ∃ token user command saved, s.procs p = .handedOver token user command saved ∧
        conversationBody saved (s.conversations.procs p) = some answer.2 := by
  unfold State.answer at h
  split at h
  · exact .inl ⟨_, _, ‹_›⟩
  · obtain ⟨body, hbody, rfl⟩ := Option.map_eq_some_iff.mp h
    exact .inr ⟨_, _, _, _, ‹_›, hbody⟩
  · cases h

theorem returned_of_body {saved : Option Conversation} {proc : Conversations.Process}
    {body : Except Exception Api.Body} (h : conversationBody saved proc = some body)
    (hbegun : proc ≠ .idle) : proc.returned = true := by
  unfold conversationBody at h
  split at h
  · exact absurd rfl hbegun
  · rfl
  · rfl
  · cases h

theorem Step.answered {a : Action} (hs : Step env s a t) (h : Synced s)
    {answer : Request × Except Exception Api.Body} (hanswer : s.answer p = some answer) :
    t.procs p = s.procs p ∧ t.conversations.procs p = s.conversations.procs p := by
  have hnot : ∀ {token user command}, s.procs p ≠ .admitted token user command := by
    intro token user command hp
    rcases s.answer_cases hanswer with ⟨request, reply, heq⟩ | ⟨_, _, _, _, heq, -⟩ <;>
      cases hp.symm.trans heq
  cases hs with
  | @request q _ proc _ hnext =>
    have hq : p ≠ q := by
      rintro rfl
      rcases s.answer_cases hanswer with
        ⟨request, reply, heq⟩ | ⟨token, user, command, saved, heq, -⟩
      · exact hnext.begins.2 request reply heq
      · exact hnext.begins.1 token user command saved heq
    exact ⟨Function.update_of_ne hq .., rfl⟩
  | @opens q _ _ _ _ _ _ _ hq hopening hstep =>
    have hne : p ≠ q := by
      rintro rfl
      exact hnot hq
    exact ⟨Function.update_of_ne hne ..,
      hstep.procs_of_ne fun hpid => hne (opening_pid hopening hpid)⟩
  | @openRefused q _ _ _ _ _ _ hq =>
    have hne : p ≠ q := by
      rintro rfl
      exact hnot hq
    exact ⟨Function.update_of_ne hne .., rfl⟩
  | @conversation a _ huser hstep =>
    refine ⟨rfl, ?_⟩
    by_cases hpid : a.pid? = some p
    · obtain ⟨token, user, command, saved, hhanded⟩ := h.moves hstep huser hpid
      refine hstep.returned ?_
      rcases s.answer_cases hanswer with ⟨request, reply, heq⟩ | ⟨_, _, _, _, -, hbody⟩
      · cases hhanded.symm.trans heq
      · exact returned_of_body hbody (hstep.begun huser hpid)
    · exact hstep.procs_of_ne hpid

theorem Next.outcome {db db' : Database} {proc proc' : Process} {input : Input}
    (h : Next env db proc input proc' db') : db' = db ∨ (∃ dto id, proc' = .signUpSaved dto id) ∨
      (∃ token user id, proc' = .deactivatedUser token user id) ∨
      ∃ request reply body, proc' = .returned request reply ∧ reply.body = .ok body ∧
        ∀ token query user body, request = .guarded token (.read query) →
          reply ≠ .done user body := by
  cases h with
  | signUpSaves => exact .inr (.inl ⟨_, _, rfl⟩)
  | deactivatesUser => exact .inr (.inr (.inl ⟨_, _, _, rfl⟩))
  | stores => exact .inr (.inr (.inr ⟨_, _, _, rfl, rfl, by simp⟩))
  | signsOut => exact .inr (.inr (.inr ⟨_, _, _, rfl, rfl, by simp⟩))
  | createsTenant => exact .inr (.inr (.inr ⟨_, _, _, rfl, rfl, by simp⟩))
  | deactivatesTenant => exact .inr (.inr (.inr ⟨_, _, _, rfl, rfl, by simp⟩))
  | _ => exact .inl rfl

theorem Succeeded.of_handedOver {token : Jwt} {user : User} {command : Command}
    {saved : Option Conversation} (hp : t.procs p = .handedOver token user command saved)
    {body : Api.Body} (hbody : conversationBody saved (t.conversations.procs p) = some (.ok body)) :
    Succeeded t p where
  answer := ⟨.guarded token command, body, by simp only [State.answer, hp, hbody, Option.map_some]⟩
  writes _ _ _ _ hread := by cases hp.symm.trans hread

theorem body_of_served {saved : Option Conversation} {proc : Conversations.Process}
    (h : proc.Served) : ∃ body, conversationBody saved proc = some (.ok body) := by
  cases h <;> exact ⟨_, rfl⟩

theorem opening_outcome {command : Command} {user : User} {id : Uuid} {now : Time}
    {a : Conversations.Action} (h : command.opening p user id now = some a)
    {c d : Conversations.State} (hs : Conversations.Step c a d) :
    (d.db = c.db ∧ d.queue = c.queue) ∨ d.procs = c.procs ∧ ∃ dto conv,
      command = .createConversation dto ∧ create c.db dto user id now = .ok (conv, d.db) := by
  cases command <;> cases h <;> cases hs
  case create hcreate => exact .inr ⟨rfl, _, _, rfl, hcreate⟩
  all_goals exact .inl ⟨rfl, rfl⟩

theorem Step.effect {a : Action} (hs : Step env s a t) (h : Synced s) (ha : a.pid? = some p) :
    (t.db = s.db ∧ t.conversations.queue = s.conversations.queue) ∨ Halfway s p ∨ Halfway t p ∨
      Succeeded t p := by
  cases hs with
  | @request p _ proc db hnext =>
    cases ha
    have hproc : ((s.set p proc).store db).procs p = proc := Function.update_self ..
    rcases hnext.outcome with
      hdb | ⟨dto, id, rfl⟩ | ⟨token, user, id, rfl⟩ | ⟨request, reply, body, rfl, hbody, hwrites⟩
    · exact .inl ⟨hdb, rfl⟩
    · exact .inr (.inr (.inl (.inl ⟨dto, id, hproc⟩)))
    · exact .inr (.inr (.inl (.inr (.inl ⟨token, user, id, hproc⟩))))
    · refine .inr (.inr (.inr ⟨⟨request, body, ?_⟩, fun token query user body' hread => ?_⟩))
      · simp only [State.answer, hproc, hbody]
      · cases hproc.symm.trans hread
        exact hwrites token query user body' rfl rfl
  | @opens p id now token user command _ _ hp hopening hstep =>
    cases ha
    rcases opening_outcome hopening hstep with hsame | ⟨hprocs, dto, conv, rfl, hcreate⟩
    · exact .inl hsame
    · have hidle : s.conversations.procs p = .idle := by
        refine (h p).resolve_right ?_
        rintro ⟨_, _, _, _, hhanded⟩
        cases hp.symm.trans hhanded
      obtain ⟨tenantId, htenant, rfl⟩ := create_reply hcreate
      refine .inr (.inr (.inr ?_))
      refine @Succeeded.of_handedOver _ p token user _ _ (Function.update_self ..)
        (.service (.conversation (created dto tenantId id now))) ?_
      rw [congrFun hprocs p, hidle, Command.saved, htenant]
      rfl
  | openRefused => exact .inl ⟨rfl, rfl⟩
  | conversation huser hstep =>
    obtain ⟨token, user, command, saved, hp⟩ := h.moves hstep huser ha
    rcases hstep.outcome ha with hsame | hbefore | hafter | hserved
    · exact .inl hsame
    · exact .inr (.inl (.inr (.inr hbefore)))
    · exact .inr (.inr (.inl (.inr (.inr hafter))))
    · obtain ⟨body, hbody⟩ := body_of_served hserved
      exact .inr (.inr (.inr (.of_handedOver hp hbody)))

theorem Succeeded.run {as : List Action} (h : Succeeded s p) (hsynced : Synced s)
    (hrun : (machine env).run s as = some t) : Succeeded t p := by
  induction as generalizing s with
  | nil =>
    cases hrun
    exact h
  | cons a as ih =>
    obtain ⟨u, hu, hrest⟩ := Machine.run_cons_some.mp hrun
    have hstep := step_some hu
    obtain ⟨request, body, hanswer⟩ := h.answer
    obtain ⟨hproc, hconv⟩ := hstep.answered hsynced hanswer
    have hkept : u.answer p = s.answer p := by
      simp only [State.answer, hproc, hconv]
    refine ih ⟨⟨request, body, hkept.trans hanswer⟩, fun token query user body' => ?_⟩
      (hstep.synced hsynced) hrest
    rw [hproc]
    exact h.writes token query user body'

theorem inert_of_vain {db : Database} {as : List Action}
    (hrun : (machine env).run (.start db) as = some t)
    (hvain : ∀ p, gone p = true → Vain t p)
    (hhalfway : (machine env).Throughout (fun s => ∀ p, gone p = true → ¬Halfway s p)
      (.start db) as) :
    (machine env).Along (Inert env gone) (.start db) as := by
  refine Machine.along_iff.mpr fun pre a post u has hpre hstays v hv => ?_
  obtain ⟨p, hp, hgone⟩ := Action.not_stays_iff.mp hstays
  have hsynced : Synced u := Machine.run_preserves
    (fun _ _ _ h hs => (step_some hs).synced h) (Synced.start db) hpre
  subst has
  have hthroughout := Machine.throughout_iff.mp hhalfway
  rcases (step_some hv).effect hsynced hp with hsame | hbefore | hafter | hdone
  · exact hsame
  · exact absurd hbefore (hthroughout pre (a :: post) u rfl hpre p hgone)
  · exact absurd hafter (hthroughout (pre ++ [a]) post v (by simp)
      (Machine.run_concat.mpr ⟨u, hpre, hv⟩) p hgone)
  · rw [Machine.run_append, hpre] at hrun
    obtain ⟨v', hv', hpost⟩ := Machine.run_cons_some.mp hrun
    cases hv.symm.trans hv'
    exact absurd (hvain p hgone) (hdone.run ((step_some hv).synced hsynced) hpost).not_vain

/-- Requests that are refused might as well not have come, but for those that fail halfway: the
others make the same run, with the same answers and on the same database, without them. -/
theorem refused_as_absent {db : Database} {as : List Action} (gone : Pid → Bool)
    (hrun : (machine env).run (.start db) as = some t)
    (hvain : ∀ p, gone p = true → Vain t p)
    (hhalfway : (machine env).Throughout (fun s => ∀ p, gone p = true → ¬Halfway s p)
      (.start db) as) :
    ∃ u, (machine env).run (.start db) (as.filter (Action.stays gone)) = some u ∧ u.db = t.db ∧
      u.conversations.queue = t.conversations.queue ∧
      ∀ p, (gone p = true → u.procs p = .idle) ∧ (gone p = false →
        u.procs p = t.procs p ∧ u.conversations.procs p = t.conversations.procs p) := by
  have hwithout := run_without hrun (inert_of_vain hrun hvain hhalfway)
  refine ⟨t.without gone, hwithout, rfl, rfl, fun p => ⟨fun hp => ?_, fun hp => ⟨?_, ?_⟩⟩⟩
  · simp [State.without, hp]
  · exact t.without_procs hp
  · exact t.conversations.without_procs hp

namespace Sample

def contending : List Action :=
  [.request 1 (.guarded (tokens agent 0).accessToken (.claim Conversations.Sample.conversation) 0),
    .request 2 (.guarded (tokens admin 0).accessToken (.claim Conversations.Sample.conversation) 0),
    .handOver 1 ⟨0⟩ 0, .handOver 2 ⟨0⟩ 0, .conversation (.claimLock 2),
    .conversation (.claimCommit 2 5), .conversation (.claimLock 1),
    .conversation (.claimCommit 1 6)]

end Sample

theorem refused_as_absent_claim : ∃ t u, (machine Sample.environment).run
      (.start Conversations.Sample.database) Sample.contending = some t ∧
    (t.answer 1).map Prod.snd =
      some (.error (.conflict "This conversation was just claimed by another agent")) ∧
    (machine Sample.environment).run (.start Conversations.Sample.database)
      (Sample.contending.filter (Action.stays fun p => p = 1)) = some u ∧ u.db = t.db := by
  have hrun : ∃ t, (machine Sample.environment).run (.start Conversations.Sample.database)
      Sample.contending = some t ∧ (t.answer 1).map Prod.snd = some (.error (.conflict _)) :=
    ⟨_, rfl, rfl⟩
  obtain ⟨t, hrun, hrefused⟩ := hrun
  obtain ⟨⟨request, body⟩, hanswer, hbody⟩ := Option.map_eq_some_iff.mp hrefused
  cases hbody
  have hvain : Vain t 1 := .inl ⟨request, _, hanswer⟩
  have hgone : ∀ {Q : Pid → Prop}, Q 1 → ∀ p, decide (p = 1) = true → Q p := by
    intro Q hQ p hp
    rw [of_decide_eq_true hp]
    exact hQ
  have hnot : ∀ s : State, (s.procs 1).left ≠ 2 ∧ (s.procs 1).left ≠ 1 →
      (s.conversations.procs 1 = .idle ∨
        ∃ id user phase, s.conversations.procs 1 = .claim id user phase) →
      ∀ p, decide (p = 1) = true → ¬Halfway s p := by
    refine fun s hleft hclaim => hgone ?_
    rintro (⟨_, _, hproc⟩ | ⟨_, _, _, hproc⟩ | ⟨_, _, _, _, hproc⟩)
    · simp [hproc, Process.left] at hleft
    · simp [hproc, Process.left] at hleft
    · simp [hproc] at hclaim
  obtain ⟨u, hu, hdb, -⟩ := refused_as_absent _ hrun (hgone hvain)
    (.cons rfl (hnot _ (by decide) (.inl rfl)) (.cons rfl (hnot _ (by decide) (.inl rfl))
    (.cons rfl (hnot _ (by decide) (.inl rfl)) (.cons rfl (hnot _ (by decide) (.inr ⟨_, _, _, rfl⟩))
    (.cons rfl (hnot _ (by decide) (.inr ⟨_, _, _, rfl⟩))
    (.cons rfl (hnot _ (by decide) (.inr ⟨_, _, _, rfl⟩))
    (.cons rfl (hnot _ (by decide) (.inr ⟨_, _, _, rfl⟩))
    (.cons rfl (hnot _ (by decide) (.inr ⟨_, _, _, rfl⟩))
      (hnot _ (by decide) (.inr ⟨_, _, _, rfl⟩))))))))))
  exact ⟨t, u, hrun, hrefused, hu, hdb⟩

end SupportApi.Server
