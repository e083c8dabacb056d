import RateWise.RowLaws
import RateWise.Site

set_option autoImplicit false

namespace RateWise

open Interleave
open ReadCommitted

-- A row that a table had when the tables were good.
def Known {ρ : Type} (good : Tables → Prop) (table : Tables → List ρ) (row : ρ) : Prop := ∃ rows, good rows ∧ row ∈ table rows

structure Admitted (good : Tables → Prop) (route : Route) (caller : Caller) (user : AuthenticatedUser) : Prop where
  known : ∃ row, Known good Tables.accounts row ∧ user = authenticatedUser row
  named : ∃ req, AuthGuard.signedIn caller.session = some req ∧ uuidIn req.userId = some user.id
  status : ∃ statuses, Reflector.getAllAndOverride route.metadata.accountStatus = some statuses ∧
    (user.status ∈ statuses ∨ user.status = .active)
  role : ∃ roles, Reflector.getAllAndOverride route.metadata.roles = some roles ∧ ∃ role ∈ roles, role ∈ user.roles

-- What saveOne of an entity writes: the entity, whose row is gone, or the
-- columns in which it differs from its row.
inductive Saves (good : Tables → Prop) (entity : Account) : Write → Prop
  | inserts (rows : Tables) (held : good rows) (absent : ∀ row ∈ rows.accounts, row.id ≠ entity.id) :
      Saves good entity (.insertAccount entity)
  | updates (row : Account) (known : Known good Tables.accounts row) (same : row.id = entity.id) :
      Saves good entity (.updateAccount entity.id (UsersService.changedColumns entity row))

def Restates (good : Tables → Prop) (refusal : Account → Option Err) (status : AccountStatus) (userId : Text) (w : Write) : Prop :=
  ∃ user, Known good Tables.accounts user ∧ uuidIn userId = some user.id ∧ refusal user = none ∧
    Saves good { user with status := status } w

inductive Withdraws (good : Tables → Prop) (user review : Uuid) : Write → Prop
  | deletes (vote row : Vote) (known : Known good Tables.votes vote) (owner : vote.createdBy = user)
      (subject : vote.relatedReview = review) (stored : Known good Tables.votes row) (same : row.id = vote.id) :
      Withdraws good user review (.deleteVote row)
  | uncounts (vote : Vote) (known : Known good Tables.votes vote) (owner : vote.createdBy = user)
      (subject : vote.relatedReview = review) : Withdraws good user review (.addVotes review vote.action (-1))

inductive Seeds (good : Tables → Prop) (adminEmail : Text) (draws : SeedDraws) (options : SeedOptions) : Write → Prop
  | cleans (rows : Tables) (w : Write) (held : good rows) (removed : w ∈ rows.attempts (.removeAccountsExcept adminEmail)) :
      Seeds good adminEmail draws options w
  | users (i : Nat) (drawn : i < options.users) :
      Seeds good adminEmail draws options (.insertAccount (UserDataGenerator.user (draws.user i)))
  | items (owner : Account) (k : Nat) (known : Known good Tables.accounts owner) (other : owner.email ≠ adminEmail)
      (drawn : k < options.itemsPerUser) :
      Seeds good adminEmail draws options (.insertItem ⟨(draws.item owner.id k).row, (draws.item owner.id k).input.title,
        (draws.item owner.id k).input.description, (draws.item owner.id k).input.category, (draws.item owner.id k).input.tags,
        owner.id⟩)
  | reviews (item : Item) (author : Account) (known : Known good Tables.accounts author) (other : author.email ≠ adminEmail)
      (listed : Known good Tables.items item) (foreign : author.id ≠ item.createdBy) :
      Seeds good adminEmail draws options (.insertReview ⟨(draws.review item.id author.id).row,
        (draws.review item.id author.id).content, (draws.review item.id author.id).rating, 0, 0, author.id, item.id⟩)
  | votes (review : Review) (voter : Account) (known : Known good Tables.accounts voter) (other : voter.email ≠ adminEmail)
      (listed : Known good Tables.reviews review) :
      Seeds good adminEmail draws options (.insertVote ⟨(draws.vote review.id voter.id).row,
        (draws.vote review.id voter.id).action, voter.id, review.id⟩)
  | counts (rows : Tables) (w : Write) (held : good rows) (counted : w ∈ rows.attempts .refreshReviewVotes) :
      Seeds good adminEmail draws options w

-- The row changes that a request may ever make, whatever the interleaving: all
-- that is read on the way is a row of good tables.
inductive May (config : SiteConfig) (good : Tables → Prop) : SiteRequest → Write → Prop
  | signsUp (input : SignUpInput) (row : Generated) (req : RequestContext) :
      May config good (.signUp input row req) (.insertAccount (newAccount input row))
  | suspends (caller : Caller) (userId : Text) (moderator : AuthenticatedUser) (w : Write)
      (admitted : Admitted good .suspendAccount caller moderator)
      (restates : Restates good ModerationService.suspensionRefusal .suspended userId w) :
      May config good (.suspendAccount caller userId) w
  | reactivates (caller : Caller) (userId : Text) (moderator : AuthenticatedUser) (w : Write)
      (admitted : Admitted good .reactivateAccount caller moderator)
      (restates : Restates good ModerationService.reactivationRefusal .active userId w) :
      May config good (.reactivateAccount caller userId) w
  | verifies (token : Token) (payload : JwtPayload) (w : Write)
      (passes : token.Passes config.auth.accountVerificationToken payload)
      (restates : Restates good AuthService.verificationRefusal .active payload.id w) :
      May config good (.verifyAccount (some token)) w
  | createsItem (caller : Caller) (item : RawItemInput) (row : Generated) (user : AuthenticatedUser)
      (admitted : Admitted good .createItem caller user) :
      May config good (.createItem caller item row)
        (.insertItem ⟨row, item.title, item.description, item.category, item.tags, user.id⟩)
  | createsReview (caller : Caller) (reviewData : RawReviewInput) (row : Generated) (user : AuthenticatedUser) (item : Item)
      (admitted : Admitted good .createReview caller user) (known : Known good Tables.items item)
      (target : uuidIn reviewData.itemId = some item.id) (foreign : item.createdBy ≠ user.id) :
      May config good (.createReview caller reviewData row)
        (.insertReview ⟨row, reviewData.content, reviewData.rating, 0, 0, user.id, item.id⟩)
  | casts (caller : Caller) (reviewId : Text) (action : VoteAction) (row : Generated) (user : AuthenticatedUser) (review : Uuid)
      (admitted : Admitted good .voteReview caller user) (target : uuidIn reviewId = some review) :
      May config good (.voteReview caller reviewId action row) (.insertVote ⟨row, action, user.id, review⟩)
  | counts (caller : Caller) (reviewId : Text) (action : VoteAction) (row : Generated) (user : AuthenticatedUser) (review : Uuid)
      (admitted : Admitted good .voteReview caller user) (target : uuidIn reviewId = some review) :
      May config good (.voteReview caller reviewId action row) (.addVotes review action 1)
  | replaces (caller : Caller) (reviewId : Text) (action : VoteAction) (row : Generated) (user : AuthenticatedUser)
      (review : Uuid) (w : Write) (admitted : Admitted good .voteReview caller user) (target : uuidIn reviewId = some review)
      (withdraws : Withdraws good user.id review w) : May config good (.voteReview caller reviewId action row) w
  | retracts (caller : Caller) (reviewId : Text) (user : AuthenticatedUser) (review : Uuid) (w : Write)
      (admitted : Admitted good .deleteVote caller user) (target : uuidIn reviewId = some review)
      (withdraws : Withdraws good user.id review w) : May config good (.deleteVote caller reviewId) w
  | revokes (token : Token) (payload : JwtPayload) (vote : Vote) (passes : token.Passes config.auth.accountDeletionToken payload)
      (known : Known good Tables.votes vote) (owner : uuidIn payload.id = some vote.createdBy) :
      May config good (.deleteAccount (some token)) (.addVotes vote.relatedReview vote.action (-1))
  | removes (token : Token) (payload : JwtPayload) (user : Account) (rows : Tables) (w : Write)
      (passes : token.Passes config.auth.accountDeletionToken payload) (known : Known good Tables.accounts user)
      (target : uuidIn payload.id = some user.id) (held : good rows) (removed : w ∈ rows.attempts (.removeAccount user.id)) :
      May config good (.deleteAccount (some token)) w
  | seeds (adminEmail : Text) (draws : SeedDraws) (w : Write) (seeded : Seeds good adminEmail draws SEED_RULES w) :
      May config good (.runSeed adminEmail draws) w
  | refreshes (rows : Tables) (w : Write) (held : good rows) (counted : w ∈ rows.attempts .refreshReviewVotes) :
      May config good .refreshReviewVotes w
  | boots (isProduction : Bool) (row : Generated) (username email passwordHash : Text) (draws : SeedDraws) (rows : Tables)
      (held : good rows) (absent : ∀ other ∈ rows.accounts, other.email ≠ email) :
      May config good (.onModuleInit isProduction row username email passwordHash draws)
        (.insertAccount (adminAccount row username email passwordHash))
  | bootSeeds (row : Generated) (username email passwordHash : Text) (draws : SeedDraws) (w : Write)
      (seeded : Seeds good email draws ⟨4, 2, 5, 5⟩ w) :
      May config good (.onModuleInit true row username email passwordHash draws) w

section Rules

variable (R : RowRule schema)

theorem heeds_sql_in (s : Sql) (allowed : @RowRule.AllowsIn schema Redis.commands Text R (.sql s)) :
    (sql s).Heeds R.AllowsIn R.Credible fun reply => ∃ rows, R.Good rows ∧ reply = schema.answer rows s :=
  heeds_query R _ s allowed

theorem heeds_select (s : Sql) (selects : ∀ rows : Tables, rows.attempts s = []) :
    (sql s).Heeds R.AllowsIn R.Credible fun reply => ∃ rows, R.Good rows ∧ reply = schema.answer rows s := by
  refine heeds_sql_in R s fun rows _ w member => ?_
  rw [show schema.attempts rows s = [] from selects rows] at member
  cases member

theorem redis_heeds {α : Type} (post : α → Prop) (prog : Async α) (quiet : prog.Quiet RedisOnly post) :
    prog.Heeds R.AllowsIn R.Credible post := by
  refine R.quiet_obeys post prog (Prog.quiet_wider _ _ _ prog quiet fun s command => ?_)
  cases s with
  | cmd c => exact fun q same => by cases same
  | _ => cases command

theorem redis_obeys {α : Type} (post : α → Prop) (prog : Async α) (quiet : prog.Quiet RedisOnly post) : R.ObeysIn prog :=
  heeds_mono _ _ _ (redis_heeds R post prog quiet) fun _ _ => trivial

theorem obeys_discard_in {α : Type} (request : Async α) (obeys : R.ObeysIn request) : R.ObeysIn (discard request) :=
  heeds_discard R _ request obeys

theorem obeys_for_each_in {α : Type} (body : α → Async Unit) (xs : List α) (obeys : ∀ x ∈ xs, R.ObeysIn (body x)) :
    R.ObeysIn (forEach body xs) := heeds_for_each R _ body xs obeys

theorem obeys_save_in (s : Sql) (allowed : @RowRule.AllowsIn schema Redis.commands Text R (.sql s)) :
    R.ObeysIn (transaction (sql s)) := heeds_save R _ s allowed

theorem valid_uuid_heeds (id : Text) : (UsersService.validUuidOrThrow id).Heeds R.AllowsIn R.Credible fun _ => True := by
  unfold UsersService.validUuidOrThrow
  split <;> trivial

def Found (good : Tables → Prop) (id : Text) (user : Account) : Prop :=
  Known good Tables.accounts user ∧ uuidIn id = some user.id

theorem find_account_heeds (id : Text) :
    (UsersService.findOneById id).Heeds R.AllowsIn R.Credible fun reply => ∀ user, reply = some user → Found R.Good id user := by
  refine heeds_bind (fun _ => True) _ _ _ (valid_uuid_heeds R id) fun _ _ => ?_
  refine heeds_mono _ _ _ (heeds_select R (.findAccount id) fun _ => rfl) ?_
  rintro reply ⟨rows, good, rfl⟩ user found
  obtain ⟨stored, named⟩ := found_account rows id user found
  exact ⟨⟨rows, good, stored⟩, named⟩

theorem find_account_or_throw_heeds (id : Text) :
    (UsersService.findOneByIdOrThrow id).Heeds R.AllowsIn R.Credible (Found R.Good id) := by
  refine heeds_bind _ _ _ _ (find_account_heeds R id) fun found known => ?_
  cases found with
  | none => trivial
  | some user => exact known user rfl

end Rules

section Guards

variable (R : RowRule schema)

theorem dangling_quiet (relationFirst : Bool) (userId sessId : Text) :
    (SessionsService.isDangling relationFirst userId sessId).Quiet RedisOnly fun _ => True := by
  unfold SessionsService.isDangling
  cases relationFirst with
  | true => exact Prog.quiet_bind _ _ _ _ _ (quiet_redis (.get _)) fun _ _ =>
      Prog.quiet_bind _ _ _ _ _ (quiet_redis (.setIsMember _ _)) fun _ _ => trivial
  | false => exact Prog.quiet_bind _ _ _ _ _ (quiet_redis (.setIsMember _ _)) fun _ _ =>
      Prog.quiet_bind _ _ _ _ _ (quiet_redis (.get _)) fun _ _ => trivial

theorem arranged_quiet (order : Arrangement) (promises : List (Async Unit))
    (quiet : ∀ promise ∈ promises, promise.Quiet RedisOnly fun _ => True) :
    (runSettledOrThrow (order.arrange promises)).Quiet RedisOnly fun _ => True :=
  quiet_settled _ fun promise listed => quiet promise ((order.perm promises).mem_iff.mp listed)

theorem cleanup_quiet (order : Arrangement) (req : SessionContext) :
    (SessionsService.trySessionCleanup order req).Quiet RedisOnly fun _ => True := by
  refine Prog.quiet_catching _ _ _ _ (arranged_quiet order _ fun promise listed => ?_) fun _ => trivial
  simp only [List.mem_cons, List.not_mem_nil, or_false] at listed
  rcases listed with rfl | rfl | rfl | rfl
  · exact quiet_delete _
  · exact quiet_delete _
  · exact quiet_delete _
  · exact quiet_redis (.setRem _ _)

theorem check_session_heeds (order : Arrangement) (relationFirst : Bool) (req : SessionContext) :
    (AuthGuard.checkSession order relationFirst req).Heeds R.AllowsIn R.Credible (Found R.Good req.userId) := by
  have refused : (Prog.bind (SessionsService.trySessionCleanup order req) fun _ => (reject unauthorized : Async Account)).Heeds
      R.AllowsIn R.Credible (Found R.Good req.userId) :=
    heeds_bind (fun _ => True) _ _ _ (redis_heeds R _ _ (cleanup_quiet order req)) fun _ _ => trivial
  refine heeds_bind _ _ _ _ (find_account_heeds R req.userId) fun found known => ?_
  cases found with
  | none => exact refused
  | some user =>
      refine heeds_bind (fun _ => True) _ _ _ (redis_heeds R _ _ (dangling_quiet _ _ _)) fun dangling _ => ?_
      cases dangling with
      | true => exact refused
      | false => exact known user rfl

theorem route_public (route : Route) : AccountStatusGuard.isPublic route.metadata = AuthGuard.isPublic route.metadata ∧
    RolesGuard.isPublic route.metadata = AuthGuard.isPublic route.metadata := by
  cases route <;> exact ⟨rfl, rfl⟩

theorem of_except_heeds {α : Type} (value : Except Err α) :
    (ofExcept value).Heeds R.AllowsIn R.Credible fun result => value = .ok result := by
  cases value <;> trivial

theorem check_access_heeds (route : Route) (caller : Caller) :
    (checkAccess route caller).Heeds R.AllowsIn R.Credible fun reply => ∀ user, reply = some user →
      Admitted R.Good route caller user := by
  obtain ⟨status, roles⟩ := route_public route
  cases shown : AuthGuard.isPublic route.metadata with
  | true =>
      refine heeds_bind (fun reply => reply = none) _ _ _ ?_ fun reply absent => ?_
      · simp only [AuthGuard.canActivateHandler, shown, if_true]
        exact rfl
      · refine heeds_bind _ _ _ _ (of_except_heeds R _) fun _ _ => heeds_bind _ _ _ _ (of_except_heeds R _) fun _ _ => ?_
        rintro user rfl
        cases absent
  | false =>
      rw [shown] at status roles
      refine heeds_bind (fun reply => ∃ req row, AuthGuard.signedIn caller.session = some req ∧ Found R.Good req.userId row ∧
        reply = some (authenticatedUser row)) _ _ _ ?_ ?_
      · simp only [AuthGuard.canActivateHandler, shown]
        cases signed : AuthGuard.signedIn caller.session with
        | none => trivial
        | some req =>
            exact heeds_bind _ _ _ _ (check_session_heeds R _ _ req) fun row found => ⟨req, row, rfl, found, rfl⟩
      · rintro reply ⟨req, row, signed, found, rfl⟩
        refine heeds_bind _ _ _ _ (of_except_heeds R _) fun _ allowed => ?_
        refine heeds_bind _ _ _ _ (of_except_heeds R _) fun _ permitted => ?_
        rintro user same
        cases same
        exact ⟨⟨row, found.1, rfl⟩, ⟨req, signed, found.2⟩, (status_passes _ status row).mp allowed,
          (roles_pass _ roles row).mp permitted⟩

theorem guarded_obeys (route : Route) (caller : Caller) (handler : SessionContext → AuthenticatedUser → Async Unit)
    (obeys : ∀ req user, Admitted R.Good route caller user → R.ObeysIn (handler req user)) :
    R.ObeysIn (guarded route caller handler) := by
  refine heeds_bind _ _ _ _ (check_access_heeds R route caller) fun reply admitted => ?_
  cases reply with
  | none => trivial
  | some user =>
      cases AuthGuard.signedIn caller.session with
      | none => trivial
      | some req => exact obeys req user (admitted user rfl)

end Guards

end RateWise
