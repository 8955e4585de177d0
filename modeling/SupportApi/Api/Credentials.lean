import SupportApi.Api.Endpoints
import SupportApi.Auth.Credentials
import SupportApi.Conversations.Credentials
import SupportApi.Users.Credentials

namespace SupportApi.Api

open Lib Auth Conversations

inductive Body.SameButTokens : Body → Body → Prop
  | same (body : Body) : SameButTokens body body
  | users {response response' : Users.Response} (h : response.SameButTokens response') :
      SameButTokens (.users response) (.users response')
  | loaded {conv conv' : LoadedConversation} (h : conv.SameButToken conv') :
      SameButTokens (.service (.loaded conv)) (.service (.loaded conv'))

structure Store.SameButCredentials (store store' : Store) : Prop where
  db : store.db.SameButCredentials store'.db
  cache : store'.cache = store.cache

structure SameOutcome (x x' : Except Exception Body × Store) : Prop where
  reply : Replies Body.SameButTokens x.1 x'.1
  store : x.2.SameButCredentials x'.2

variable {env : Env} {store store' : Store}

theorem SameOutcome.error (h : store.SameButCredentials store') (e : Exception) :
    SameOutcome (.error e, store) (.error e, store') := ⟨.error e, h⟩

theorem answer_sameBut {α : Type} (h : store.SameButCredentials store') {f : α → Body}
    {R : α → α → Prop} (hf : ∀ a a', R a a' → (f a).SameButTokens (f a'))
    {x x' : Except Exception (α × Database)}
    (hx : Replies (fun reply reply' => R reply.1 reply'.1 ∧ reply.2.SameButCredentials reply'.2)
      x x') : SameOutcome (answer store f x) (answer store' f x') := by
  rcases hx.cases with ⟨e, rfl, rfl⟩ | ⟨a, a', rfl, rfl, ha, hdb⟩
  · exact .error h e
  · exact ⟨.ok (hf _ _ ha), hdb, h.cache⟩

theorem onDatabase_sameBut {α : Type} (h : store.SameButCredentials store') {f : α → Response}
    {R : α → α → Prop}
    (hf : ∀ a a', R a a' → Body.SameButTokens (.service (f a).sent) (.service (f a').sent))
    {x x' : Except Exception α × Database} (hx : Alike R x x') :
    SameOutcome
      ((onDatabase store f x).1.map fun r => .service r.sent, (onDatabase store f x).2)
      ((onDatabase store' f x').1.map fun r => .service r.sent, (onDatabase store' f x').2) := by
  have hdb : Store.SameButCredentials { store with db := x.2 } { store' with db := x'.2 } :=
    ⟨hx.db, h.cache⟩
  rcases hx.reply.cases with ⟨e, hreply, hreply'⟩ | ⟨a, a', hreply, hreply', ha⟩
  · simp only [onDatabase, hreply, hreply']
    exact .error hdb e
  · simp only [onDatabase, hreply, hreply']
    exact ⟨.ok (hf _ _ ha), hdb⟩

theorem fresh_sameBut {db db' : Database} (h : db.SameButCredentials db')
    (order : OrderBy (OrderBy.desc Analytics.TopConversationResult.messageCount))
    (tenantId : Option Uuid) (moments : Analytics.Moments) :
    Analytics.fresh order db' tenantId moments = Analytics.fresh order db tenantId moments := by
  have hsummary : Analytics.summary db' = Analytics.summary db := by
    funext c
    simp only [Analytics.summary, h.messages]
  simp only [Analytics.fresh, Analytics.aggregate, hsummary, h.conversations]

theorem run_sameBut (h : store.SameButCredentials store') (user : User) (request : Request) :
    SameOutcome
      ((run env store user request).1.map fun r => .service r.sent, (run env store user request).2)
      ((run env store' user request).1.map fun r => .service r.sent,
        (run env store' user request).2) := by
  cases request with
  | create dto id now =>
    apply onDatabase_sameBut h _ (createConversation_alike h.db user dto id now)
    rintro conv _ rfl
    exact .same _
  | findAll dto =>
    simp only [run, findAll_sameBut h.db]
    exact ⟨.ok (.same _), h⟩
  | findOne id =>
    simp only [run]
    rcases (findOne_sameBut h.db user id).cases with
      ⟨e, hload, hload'⟩ | ⟨conv, conv', hload, hload', hconv⟩
    · simp only [hload, hload']
      exact .error h e
    · simp only [hload, hload']
      exact ⟨.ok (.loaded hconv), h⟩
  | claim id now =>
    apply onDatabase_sameBut h _ (claimConversation_alike h.db user id now)
    rintro conv _ rfl
    exact .same _
  | resolve id dto moments =>
    apply onDatabase_sameBut h _ (resolveConversation_alike h.db user id dto moments)
    exact fun reply reply' hreply => .loaded hreply.1
  | topConversations moments =>
    simp only [run, Analytics.getTopActiveConversations, fresh_sameBut h.db, h.cache]
    split
    · exact ⟨.ok (.same _), h.db, rfl⟩
    · exact ⟨.ok (.same _), h.db, rfl⟩
  | tenantStats now =>
    simp only [run, Analytics.getTenantStats, h.db.conversations]
    exact ⟨.ok (.same _), h⟩

theorem perform_withoutToken (store : Store) (user : User) (request : Guarded) :
    perform env store user.withoutToken request = perform env store user request := by
  cases request with
  | signOut now => rfl
  | users request => cases request <;> rfl
  | service request => cases request <;> rfl

theorem perform_sameBut (h : store.SameButCredentials store') {user user' : User}
    (huser : user'.withoutToken = user.withoutToken) (request : Guarded) :
    SameOutcome (perform env store user request) (perform env store' user' request) := by
  rw [← perform_withoutToken store' user', huser, perform_withoutToken]
  cases request with
  | signOut now => exact ⟨.ok (.same _), signOut_sameBut h.db user.id now, h.cache⟩
  | users request =>
    exact answer_sameBut h (fun _ _ hresponse => .users hresponse)
      (Users.handle_sameBut h.db env.arrangement user request)
  | service request => exact run_sameBut h user request

theorem serve_sameBut (h : store.SameButCredentials store') {call : Call}
    (hcheck : call.authenticate env store'.db = call.authenticate env store.db) :
    SameOutcome (serve env store call) (serve env store' call) := by
  have hissued : ∀ {α : Type} (f : α → Body) a a', a' = a → (f a).SameButTokens (f a') := by
    rintro α f a _ rfl
    exact .same _
  cases call with
  | signUp dto id passwordSalt tokenSalt now =>
    exact answer_sameBut h (hissued _)
      (signUp_sameBut h.db dto id passwordSalt tokenSalt now)
  | signIn order dto salt now =>
    have hsame := Replies.of_map (fun _ _ => Option.some.inj) hcheck
    exact answer_sameBut h (hissued _) (signIn_sameBut h.db hsame salt now)
  | refresh token salt now signedAt storedAt =>
    have hsame := Replies.of_map (fun _ _ => Option.some.inj) hcheck
    exact answer_sameBut h (hissued _) (refresh_sameBut h.db hsame salt signedAt storedAt)
  | guarded token now request =>
    rcases (@validateAccess_sameBut env.auth _ _ h.db token now).cases with
      ⟨e, hvalid, hvalid'⟩ | ⟨user, user', hvalid, hvalid', huser⟩
    · simp only [serve, hvalid, hvalid']
      exact .error h e
    · have hroute : request.route.canActivate (some user') =
          request.route.canActivate (some user) := by
        have hrole : user'.role = user.role := User.eq_of_withoutToken (fun _ => rfl) huser
        simp only [RouteMetadata.canActivate, hrole]
      simp only [serve, hvalid, hvalid', hroute]
      cases request.route.canActivate (some user) with
      | error e => exact .error h e
      | ok _ => exact perform_sameBut h huser request

end SupportApi.Api
