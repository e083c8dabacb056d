import RateWise.SingleCommit
import RateWise.SiteContent

set_option autoImplicit false

namespace RateWise

open Interleave
open ReadCommitted

section Requests

theorem inside_sql (s : Sql) : Inside (sql s) := fun reply => by cases reply <;> trivial

theorem mute_check_access (route : Route) (caller : Caller) : (checkAccess route caller).Quiet Mute fun _ => True := by
  have excepted : ∀ value : Except Err Unit, (ofExcept value).Quiet Mute fun _ => True := by
    intro value
    cases value <;> trivial
  have refused : ∀ req, (Prog.bind (SessionsService.trySessionCleanup caller.order req) fun _ =>
      (reject unauthorized : Async Account)).Quiet Mute fun _ => True :=
    fun req => mute_then _ _ (mute_redis _ _ (cleanup_quiet caller.order req)) fun _ => trivial
  refine mute_then _ _ ?_ fun user => mute_then _ _ (excepted _) fun _ => mute_then _ _ (excepted _) fun _ => trivial
  unfold AuthGuard.canActivateHandler
  split
  · trivial
  · split
    · trivial
    · cases AuthGuard.signedIn caller.session with
      | none => trivial
      | some req =>
          refine mute_then _ _ (mute_then _ _ (mute_find_account req.userId) fun (found : Option Account) => ?_) fun _ => trivial
          cases found with
          | none => exact refused req
          | some user =>
              refine mute_then _ _ (mute_redis _ _ (dangling_quiet _ _ _)) fun dangling => ?_
              cases dangling with
              | true => exact refused req
              | false => trivial

theorem guarded_once (route : Route) (caller : Caller) (handler : SessionContext → AuthenticatedUser → Async Unit)
    (once : ∀ req user, CommitsOnce false (handler req user)) : CommitsOnce false (guarded route caller handler) := by
  refine once_after (fun _ => True) _ _ (mute_check_access route caller) fun user => ?_
  cases user with
  | none => trivial
  | some user =>
      cases AuthGuard.signedIn caller.session with
      | none => trivial
      | some req => exact once req user

theorem guarded_all (route : Route) (caller : Caller) (handler : SessionContext → AuthenticatedUser → Async Unit)
    (all : ∀ req user, AllOrNothing false (handler req user)) : AllOrNothing false (guarded route caller handler) := by
  refine all_after_reads _ _ (mute_check_access route caller) fun user => ?_
  cases user with
  | none => trivial
  | some user =>
      cases AuthGuard.signedIn caller.session with
      | none => trivial
      | some req => exact all req user

theorem change_status_once (refusal : Account → Option Err) (status : AccountStatus) (userId : Text) :
    CommitsOnce false (changeStatus refusal status userId) := by
  refine once_after (fun _ => True) _ _ (mute_then _ _ (mute_find_account userId) fun (found : Option Account) => ?_) fun user => ?_
  · cases found <;> trivial
  · unfold setStatusUnless
    cases refusal user with
    | some error => trivial
    | none =>
        refine once_catching _ _ _ (once_then _ _ _ (once_after (fun _ => True) _ _ (mute_select (.findAccount _) fun _ => rfl)
          fun (found : Option Account) => ?_) fun _ => mute_redis _ _ (quiet_delete _)) fun _ => trivial
        cases found with
        | none => exact once_transaction _ (inside_sql _)
        | some row =>
            show CommitsOnce false (if UsersService.changedColumns { user with status := status } row = .unchanged then pure () else _)
            split
            · trivial
            · exact once_transaction _ (inside_sql _)

theorem exists_spent (reviewId : Text) : Spent (ReviewService.existsOrThrow reviewId) :=
  Prog.quiet_mono _ _ _ _ (exists_mute reviewId) fun _ _ => trivial

theorem withdraw_inside (vote : Vote) (reviewId : Text) : Inside (VotesService.deleteVoteAndUpdateReviewTx vote reviewId) :=
  inside_then _ _ (inside_sql _) fun _ => inside_sql _

theorem vote_inside (reviewId : Text) (user : Uuid) (action : VoteAction) (row : Generated) :
    ∃ body : Async Unit, VotesService.voteReview reviewId user action row = transaction body ∧ Inside body := by
  refine ⟨_, rfl, inside_then _ _ (quiet_inside _ _ _ (exists_spent reviewId)) fun _ => ?_⟩
  have placed : Inside (Prog.bind (sql (.insertVote row action user.text reviewId)) fun _ =>
      ReviewService.incrementVotesTx reviewId action 1) := inside_then _ _ (inside_sql _) fun _ => inside_sql _
  refine inside_then _ _ (quiet_inside _ _ _ (lock_mute _ _)) fun acquired => ?_
  cases acquired with
  | false => trivial
  | true =>
      refine inside_then _ _ (inside_sql _) fun (previous : Option Vote) => ?_
      cases previous with
      | none => exact placed
      | some vote =>
          by_cases same : vote.action = action
          · simp only [same, if_true]
            trivial
          · simp only [same, if_false]
            exact inside_then _ _ (withdraw_inside vote reviewId) fun _ => placed

theorem retract_inside (reviewId : Text) (user : Uuid) :
    ∃ body : Async Bool, VotesService.deleteVote reviewId user =
      Prog.bind (ReviewService.existsOrThrow reviewId) (fun _ => transaction body) ∧ Inside body := by
  refine ⟨_, rfl, inside_then _ _ (quiet_inside _ _ _ (lock_mute _ _)) fun acquired => ?_⟩
  cases acquired with
  | false => trivial
  | true =>
      refine inside_then _ _ (inside_sql _) fun (previous : Option Vote) => ?_
      cases previous with
      | none => trivial
      | some vote => exact inside_then _ _ (withdraw_inside vote reviewId) fun _ => trivial

theorem vote_once (reviewId : Text) (user : Uuid) (action : VoteAction) (row : Generated) :
    CommitsOnce false (discard (VotesResolver.voteReview reviewId user action row)) := by
  obtain ⟨body, same, inside⟩ := vote_inside reviewId user action row
  unfold VotesResolver.voteReview discard
  rw [same]
  exact once_then _ _ _ (once_then _ _ _ (once_transaction body inside) fun _ => trivial) fun _ => trivial

theorem vote_all (reviewId : Text) (user : Uuid) (action : VoteAction) (row : Generated) :
    AllOrNothing false (discard (VotesResolver.voteReview reviewId user action row)) := by
  obtain ⟨body, same, inside⟩ := vote_inside reviewId user action row
  unfold VotesResolver.voteReview discard
  rw [same]
  exact all_then_pure _ _ _ (all_then_pure _ _ _ (all_transaction body inside))

theorem retract_once (reviewId : Text) (user : Uuid) : CommitsOnce false (discard (VotesResolver.deleteVote reviewId user)) := by
  obtain ⟨body, same, inside⟩ := retract_inside reviewId user
  unfold VotesResolver.deleteVote discard
  rw [same]
  exact once_then _ _ _ (once_after (fun _ => True) _ _ (exists_spent reviewId) fun _ => once_transaction body inside)
    fun _ => trivial

theorem retract_all (reviewId : Text) (user : Uuid) : AllOrNothing false (discard (VotesResolver.deleteVote reviewId user)) := by
  obtain ⟨body, same, inside⟩ := retract_inside reviewId user
  unfold VotesResolver.deleteVote discard
  rw [same]
  exact all_then_pure _ _ _ (all_after_reads _ _ (exists_spent reviewId) fun _ => all_transaction body inside)

theorem create_review_once (reviewData : RawReviewInput) (user : AuthenticatedUser) (row : Generated) :
    CommitsOnce false (ReviewService.createFrom reviewData user row) := by
  refine once_after (fun _ => True) _ _ (find_item_silent reviewData.itemId) fun item => ?_
  by_cases own : item.createdBy = user.id
  · simp only [own, if_true]
    trivial
  · simp only [own, if_false]
    exact once_catching _ _ _ (once_transaction _ (inside_sql _)) fun _ => trivial

theorem delete_account_once (config : AuthConfig) (token : Token) : CommitsOnce false (AuthService.deleteAccount config token) := by
  refine once_after _ _ _ (mute_redis _ _ (quiet_verify_or_throw _ token)) fun payload => ?_
  refine once_after (fun _ => True) _ _ (mute_redis _ _ (quiet_blacklist _ _)) fun _ => ?_
  refine once_then _ _ _ (once_then _ _ _ (once_transaction _ ?_) fun _ => mute_redis _ _ (quiet_delete _)) fun _ =>
    mute_redis _ _ (AccountRequest.quiet_signing_out payload)
  refine inside_then _ _ (inside_then _ _ ?_ fun _ => inside_then _ _ (inside_sql _) fun (found : Option Account) => ?_) fun user => ?_
  · unfold UsersService.validUuidOrThrow
    split <;> trivial
  · cases found <;> trivial
  · have decrement : ∀ ids action, Inside (ReviewService.decrementVotesInTx ids action 1) := by
      intro ids action
      unfold ReviewService.decrementVotesInTx
      split
      · trivial
      · exact inside_sql _
    refine inside_then _ _ (inside_then _ _ (inside_sql _) fun votes => ?_) fun _ => inside_sql _
    exact inside_then _ _ (decrement _ _) fun _ => decrement _ _

theorem seedless_init_once (admin : Account) (draws : SeedDraws) : CommitsOnce false (AdminService.onModuleInit false admin draws) := by
  refine once_then _ _ _ (once_after (fun _ => True) _ _ (mute_select (.findAccountByEmail _) fun _ => rfl)
    fun (found : Option Account) => ?_) fun _ => trivial
  cases found with
  | some existing => trivial
  | none => exact once_transaction _ (inside_sql _)

theorem request_commits_once (config : SiteConfig) (request : SiteRequest) (plain : request.seeder = none) :
    CommitsOnce false (request.program config) := by
  have mute : ∀ prog : Async Unit, (prog.Quiet Mute fun _ => True) → CommitsOnce false prog := fun prog quiet => spent_once _ _ quiet
  cases request with
  | signUp input row req =>
      refine once_then _ _ _ (once_then _ _ _ (once_catching _ _ _ (once_then _ _ _ (once_transaction _ (inside_sql _))
        fun _ => trivial) fun _ => trivial) fun user => ?_) fun _ => trivial
      exact mute_then _ _ (mute_create_session req _) fun _ => trivial
  | signIn email password req => exact mute _ (mute_then _ _ (mute_sign_in _ _ _ _ _) fun _ => trivial)
  | requestAccountVerification caller jti => exact guarded_once _ caller _ fun _ user => mute _ (mute_request_verification _ user jti)
  | requestAccountDeletion caller jti => exact guarded_once _ caller _ fun _ user => mute _ (mute_email _ _ jti user.email)
  | requestSignOutAll email jti => exact mute _ (mute_then _ _ (mute_request_sign_out_all _ _ _) fun _ => trivial)
  | signOut caller => exact guarded_once _ caller _ fun req _ => mute _ (mute_sign_out caller.order req)
  | signOutAll caller password destroyedFirst => exact guarded_once _ caller _ fun req _ => mute _ (mute_sign_out_all _ _ _ _ req)
  | suspendAccount caller userId => exact guarded_once _ caller _ fun _ _ => change_status_once _ _ userId
  | reactivateAccount caller userId => exact guarded_once _ caller _ fun _ _ => change_status_once _ _ userId
  | createItem caller item row =>
      exact guarded_once _ caller _ fun _ _ => once_catching _ _ _ (once_transaction _ (inside_sql _)) fun _ => trivial
  | createReview caller reviewData row => exact guarded_once _ caller _ fun _ user => create_review_once reviewData user row
  | voteReview caller reviewId action row => exact guarded_once _ caller _ fun _ user => vote_once reviewId user.id action row
  | deleteVote caller reviewId => exact guarded_once _ caller _ fun _ user => retract_once reviewId user.id
  | verifyAccount token =>
      cases token with
      | none => trivial
      | some token =>
          refine once_after _ _ _ (mute_redis _ _ (quiet_verify_or_throw _ token)) fun payload => ?_
          exact once_then _ _ _ (change_status_once _ _ payload.id) fun _ => mute_redis _ _ (AccountRequest.quiet_blacklisting payload)
  | deleteAccount token =>
      cases token with
      | none => trivial
      | some token => exact delete_account_once config.auth token
  | signOutAllPublic order token =>
      cases token with
      | none => trivial
      | some token => exact mute _ (mute_then _ _ (mute_sign_out_all_public _ order token) fun _ => trivial)
  | runSeed adminEmail draws => cases plain
  | refreshReviewVotes => exact ⟨fun reply => by cases reply <;> trivial, fun _ => .inr fun reply => by cases reply <;> trivial⟩
  | removedSession order sessionId => exact mute _ (mute_removed_session order sessionId)
  | onModuleInit isProduction row username email passwordHash draws =>
      cases isProduction with
      | true => cases plain
      | false => exact seedless_init_once _ draws

def SiteRequest.contributes : SiteRequest → Bool
  | .createItem _ _ _ => true
  | .createReview _ _ _ => true
  | .voteReview _ _ _ _ => true
  | .deleteVote _ _ => true
  | _ => false

theorem contribution_all (config : SiteConfig) (request : SiteRequest) (contributes : request.contributes = true) :
    AllOrNothing false (request.program config) := by
  cases request with
  | createItem caller item row =>
      exact guarded_all _ caller _ fun _ _ => all_catching _ _ _ (all_transaction _ (inside_sql _)) fun _ _ => trivial
  | createReview caller reviewData row => exact guarded_all _ caller _ fun _ user => create_review_all_or_nothing reviewData user row
  | voteReview caller reviewId action row => exact guarded_all _ caller _ fun _ user => vote_all reviewId user.id action row
  | deleteVote caller reviewId => exact guarded_all _ caller _ fun _ user => retract_all reviewId user.id
  | _ => cases contributes

end Requests

section Runs

variable {n : Nat} {hashtext : Text → Int32}

theorem site_requests_atomic (hashtext : Text → Int32) (config : SiteConfig) (requests : Fin n → SiteRequest) (world : World)
    (i : Fin n) :
    ((requests i).seeder = none → ∀ early between before changed after last,
      run (siteStart hashtext config requests world) early = some before → step before (.turn i) = some changed →
      changed.world.db ≠ before.world.db → run changed between = some after → step after (.turn i) = some last →
      last.world.db = after.world.db) ∧
    ((requests i).contributes = true → ∀ moves last, run (siteStart hashtext config requests world) moves = some last →
      (∀ value, (last.sessions i).outcome ≠ some (.ok value)) → ∀ early late middle next, moves = early ++ .turn i :: late →
      run (siteStart hashtext config requests world) early = some middle → step middle (.turn i) = some next →
      next.world.db = middle.world.db) := by
  refine ⟨fun plain early between before changed after last first turned differs later again => ?_,
    fun contributes moves last reached refused early late middle next split before stepped => ?_⟩
  · exact commits_once_run (siteStart hashtext config requests world) before changed after last early between i
      (request_commits_once config (requests i) plain) first turned differs later again
  · exact all_or_nothing_run (siteStart hashtext config requests world) last moves i (contribution_all config (requests i) contributes)
      reached refused early late middle next split before stepped

-- Otto signs up, and an item with a title that the table refuses is offered.
def settlerRequests : Fin 2 → SiteRequest
  | ⟨0, _⟩ => .signUp ⟨"otto".toList, "otto@mail".toList, "hash".toList⟩ ⟨member, 3⟩ ⟨"s0".toList, "s4".toList⟩
  | ⟨_ + 1, _⟩ => .createItem ritaCaller ⟨⟨"lamp".toList, "a lamp to read by".toList, "home".toList, []⟩, none⟩ ⟨member, 2⟩

def settlerStart : SiteNet (fun _ => 0) 2 := siteStart (fun _ => 0) staffedConfig settlerRequests staffedWorld

def settlerMoves : List (SiteMove (fun _ => 0) 2) := List.replicate 3 .first ++ List.replicate 4 .second

theorem site_requests_atomic_settler :
    (∃ before changed after last, run settlerStart [.first, .first] = some before ∧ step before (.turn 0) = some changed ∧
      changed.world.db.accounts.length ≠ before.world.db.accounts.length ∧ run changed (List.replicate 6 .second) = some after ∧
      step after (.turn 0) = some last ∧ last.world.db = after.world.db) ∧
    ∃ last middle next, run settlerStart (settlerMoves ++ .turn 1 :: [.second]) = some last ∧
      (last.sessions 1).outcome.isSome ∧ run settlerStart settlerMoves = some middle ∧ step middle (.turn 1) = some next ∧
      next.world.db = middle.world.db := by
  constructor
  · obtain ⟨before, first, found⟩ := run_exists settlerStart [.first, .first] (fun before => (step before (.turn 0)).any
      (fun changed => decide (changed.world.db.accounts.length ≠ before.world.db.accounts.length) &&
        (run changed (List.replicate 6 .second)).any fun after => (step after (.turn 0)).isSome) = true) (by decide)
    obtain ⟨changed, turned, rest⟩ := Option.any_eq_true _ _ |>.mp found
    obtain ⟨differs, ran⟩ := Bool.and_eq_true _ _ |>.mp rest
    obtain ⟨after, later, again⟩ := Option.any_eq_true _ _ |>.mp ran
    obtain ⟨last, again⟩ := Option.isSome_iff_exists.mp again
    have apart := of_decide_eq_true differs
    exact ⟨before, changed, after, last, first, turned, apart, later, again,
      (site_requests_atomic (fun _ => 0) staffedConfig settlerRequests staffedWorld 0).1 rfl _ _ before changed after last first
        turned (fun same => apart (by rw [same])) later again⟩
  · obtain ⟨middle, before, found⟩ := run_exists settlerStart settlerMoves (fun middle => (step middle (.turn 1)).isSome = true)
      (by decide)
    obtain ⟨next, stepped⟩ := Option.isSome_iff_exists.mp found
    obtain ⟨last, reached, ended, refused⟩ := run_exists settlerStart (settlerMoves ++ .turn 1 :: [.second])
      (fun last => (last.sessions 1).outcome.isSome = true ∧ (last.sessions 1).outcome ≠ some (.ok ())) (by decide)
    exact ⟨last, middle, next, reached, ended, before, stepped,
      (site_requests_atomic (fun _ => 0) staffedConfig settlerRequests staffedWorld 1).2 rfl _ last reached (fun _ => refused)
        settlerMoves [.second] middle next rfl before stepped⟩

end Runs

end RateWise
