import SupportApi.Auth.Rotation
import SupportApi.Data.Credentials

namespace SupportApi.Auth

open Lib

abbrev SameAnswer {α : Type} (reply reply' : α × Database) : Prop :=
  reply'.1 = reply.1 ∧ reply.2.SameButCredentials reply'.2

variable {env : Env} {db db' : Database} (h : db.SameButCredentials db')
include h

theorem validateAccess_sameBut (token : Jwt) (now : Time) :
    Replies (fun u u' => u'.withoutToken = u.withoutToken) (validateAccess env db token now)
      (validateAccess env db' token now) := by
  unfold validateAccess
  split
  · exact .error _
  · rcases rel_cases (h.filter_find? (p := fun u => u.isActive) (fun _ => rfl)
        token.payload.sub) with
      ⟨hfind, hfind'⟩ | ⟨u, u', hfind, hfind', hsame⟩
    · simp only [hfind, hfind']
      exact .error _
    · simp only [hfind, hfind']
      exact .ok (UserRow.eq_of_withoutCredentials (f := fun v => v.toUser.withoutToken)
        (fun _ => rfl) hsame)

theorem storeRefreshToken_sameBut (id : Uuid) (token : Jwt) (salt : String) (now : Time) :
    (storeRefreshToken env db id token salt now).SameButCredentials
      (storeRefreshToken env db' id token salt now) := by
  apply h.updateUser
  exact fun _ => rfl

theorem issue_sameBut {user user' : User} (hsame : user'.withoutToken = user.withoutToken)
    (salt : String) (now : Time) :
    SameAnswer (issue env db user salt now) (issue env db' user' salt now) := by
  have hissue : ∀ u : User, issue env db' u salt now = issue env db' u.withoutToken salt now :=
    fun _ => rfl
  rw [hissue, hsame, ← hissue]
  exact ⟨rfl, storeRefreshToken_sameBut h ..⟩

theorem signUpLookup_sameBut (dto : SignUpDto) : signUpLookup db' dto = signUpLookup db dto := by
  have hfound : ∀ tenantId, (findUserByEmailAndTenant db' dto.email tenantId).isSome =
      (findUserByEmailAndTenant db dto.email tenantId).isSome := by
    intro tenantId
    have hselect := congrArg List.head? (h.select
      (p := fun u => u.email = dto.email && u.tenantId = tenantId) fun _ => rfl)
    rw [List.head?_map, List.head?_map] at hselect
    simpa only [findUserByEmailAndTenant, selectUsers, Option.isSome_map] using
      congrArg Option.isSome hselect
  simp only [signUpLookup, checkTenant, h.tenants]
  split
  · rfl
  · split
    · rfl
    · rename_i tenantId _
      have hsame := hfound tenantId
      cases hfind : findUserByEmailAndTenant db dto.email tenantId <;>
        cases hfind' : findUserByEmailAndTenant db' dto.email tenantId <;>
        simp only [hfind, hfind', Option.isSome_none, Option.isSome_some, Bool.false_eq_true,
          Bool.true_eq_false] at hsame ⊢

theorem signUp_sameBut (dto : SignUpDto) (id : Uuid) (passwordSalt tokenSalt : String) (now : Time) :
    Replies SameAnswer (signUp env db dto id passwordSalt tokenSalt now)
      (signUp env db' dto id passwordSalt tokenSalt now) := by
  unfold signUp
  rw [signUpLookup_sameBut h]
  cases signUpLookup db dto with
  | error e => exact .error e
  | ok tenantId =>
    rcases rel_cases (h.insertUser (newUser env dto tenantId id passwordSalt now)) with
      ⟨hins, hins'⟩ | ⟨after, after', hins, hins', hafter⟩
    · simp only [hins, hins']
      exact .error _
    · have hfind := (Database.find?_insertUser hins id).trans (if_pos rfl)
      have hfind' := (Database.find?_insertUser hins' id).trans (if_pos rfl)
      simp only [hins, hins', hfind, hfind']
      have hissue := @issue_sameBut env _ _ hafter
        (newUser env dto tenantId id passwordSalt now).toUser _ rfl tokenSalt now
      exact .ok ⟨congrArg (Prod.mk _) hissue.1, hissue.2⟩

theorem signIn_sameBut {order : AnyOrder UserRow} {dto : SignInDto}
    (hcheck : Replies (fun u u' => u'.id = u.id) (authenticate env order db dto)
      (authenticate env order db' dto)) (salt : String) (now : Time) :
    Replies SameAnswer (signIn env order db dto salt now)
      (signIn env order db' dto salt now) := by
  unfold signIn
  rcases hcheck.cases with ⟨e, hauth, hauth'⟩ | ⟨u, u', hauth, hauth', hid⟩
  · simp only [hauth, hauth']
    exact .error e
  · have hsame := h.row (authenticate_ok hauth).1 (hid ▸ (authenticate_ok hauth').1)
    have huser : u'.toUser.withoutToken = u.toUser.withoutToken := congrArg UserRow.toUser hsame
    have hsafe : sanitize u'.toUser.withoutToken = sanitize u.toUser.withoutToken :=
      congrArg sanitize huser
    have hissue := @issue_sameBut env _ _ h _ _ huser salt now
    simp only [hauth, hauth']
    exact .ok ⟨Prod.ext hsafe hissue.1, hissue.2⟩

theorem refresh_sameBut {token : Jwt} {now : Time}
    (hcheck : Replies (fun u u' => u'.id = u.id) (validateRefresh env db token now)
      (validateRefresh env db' token now)) (salt : String)
    (signedAt storedAt : Time) :
    Replies SameAnswer (refresh env db token salt now signedAt storedAt)
      (refresh env db' token salt now signedAt storedAt) := by
  unfold refresh
  rcases hcheck.cases with ⟨e, hvalid, hvalid'⟩ | ⟨u, u', hvalid, hvalid', hid⟩
  · simp only [hvalid, hvalid']
    exact .error e
  · obtain ⟨-, row, -, hfind, -, -, -, -, rfl⟩ := validateRefresh_ok.mp hvalid
    obtain ⟨-, row', -, hfind', -, -, -, -, rfl⟩ := validateRefresh_ok.mp hvalid'
    have hsame := h.row hfind hfind'
    have htokens : ∀ v : UserRow, refreshTokens env (.of v) signedAt =
        refreshTokens env (.of v.withoutCredentials) signedAt := fun _ => rfl
    simp only [hvalid, hvalid', htokens row', hsame, ← htokens row, hid]
    exact .ok ⟨rfl, storeRefreshToken_sameBut h ..⟩

theorem signOut_sameBut (id : Uuid) (now : Time) :
    (signOut db id now).SameButCredentials (signOut db' id now) := by
  apply h.updateUser
  exact fun _ => rfl

end SupportApi.Auth
