import SupportApi.Conversations.Records
import SupportApi.Server.Assignees

namespace SupportApi.Server

open Lib Auth Conversations

variable {env : Auth.Env} {db db' : Database} {s t : State}

theorem record_inactive (t : Tenant) (now : Time) : (Tenants.inactive t now).record = t.record := by
  unfold Tenants.inactive
  split <;> rfl

theorem Next.retains {proc proc' : Process} {input : Input}
    (h : Next env db proc input proc' db') : db.Retains db' := by
  cases h with
  | signUpSaves hins => exact .insertUser hins
  | stores => exact .updateUser _ _ _ fun _ => rfl
  | signsOut => exact .updateUser _ _ _ fun _ => rfl
  | deactivatesUser => exact .updateUser _ _ _ fun _ => rfl
  | createsTenant hins => exact .insertTenant hins
  | deactivatesTenant => exact .updateTenant _ _ _ fun tenant => record_inactive tenant _
  | _ => exact .refl _

theorem Step.retains {a : Action} (hs : Step env s a t) (h : Current s.conversations) :
    s.db.Retains t.db := by
  cases hs with
  | request hnext => exact hnext.retains
  | opens _ _ hstep => exact hstep.retains h
  | openRefused => exact .refl _
  | conversation _ hstep => exact hstep.retains h

theorem Step.current {a : Action} (hs : Step env s a t) (h : Current s.conversations) :
    Current t.conversations := by
  cases hs with
  | request hnext => exact h.store hnext.retains
  | opens _ _ hstep => exact hstep.current h
  | openRefused => exact h
  | conversation _ hstep => exact hstep.current h

theorem current_start (db : Database) : Current (State.start db).conversations := fun _ => trivial

/-- However requests interleave, no row is removed, no row changes but in the columns that requests
are about, and the messages are added to by notes alone. -/
theorem run_retains {as : List Action} (h : (machine env).run (.start db) as = some t) :
    db.Retains t.db :=
  Machine.run_rel (I := fun s => Current s.conversations) (R := fun s t => s.db.Retains t.db)
    (fun _ _ _ hs hstep => (step_some hstep).current hs) (fun s => .refl s.db)
    (fun h h' => h.trans h') (fun _ _ _ hs hstep => (step_some hstep).retains hs)
    (current_start db) h

theorem run_retains_starting : ∃ t,
    (machine Auth.Sample.environment).run (.start Sample.founded) Sample.starting = some t ∧
      Sample.founded.Retains t.db := by
  have hrun : ∃ t, (machine Auth.Sample.environment).run (.start Sample.founded) Sample.starting =
      some t := ⟨_, rfl⟩
  obtain ⟨t, hrun⟩ := hrun
  exact ⟨t, hrun, run_retains hrun⟩

end SupportApi.Server
