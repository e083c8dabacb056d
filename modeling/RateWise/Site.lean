import RateWise.AccessControl
import RateWise.ContentIntegrity
import RateWise.SignInProbes

set_option autoImplicit false

namespace RateWise

open Interleave

-- The handlers of the resolvers and controllers: those that may change
-- something, then the reads.
inductive Route where
  | signUp
  | signIn
  | requestAccountVerification
  | requestAccountDeletion
  | requestSignOutAll
  | signOut
  | signOutAll
  | suspendAccount
  | reactivateAccount
  | createItem
  | createReview
  | voteReview
  | deleteVote
  | verifyAccount
  | deleteAccount
  | signOutAllPublic
  | runSeed
  | findUserById
  | findAllUsers
  | findItemById
  | filterItems
  | filterReviews
  | findAllReviewVotes
  | health
deriving DecidableEq

def ALL_ACCOUNT_STATUSES : List AccountStatus := [.active, .pendingVerification, .suspended]

def ALL_ROLES : List UserRole := [.reviewer, .creator, .moderator, .admin]

namespace HandlerMetadata

-- Public()
def marked : HandlerMetadata := ⟨⟨some true, none⟩, ⟨none, none⟩, ⟨none, none⟩⟩

-- Roles(roles) and RequireAccountStatus(statuses) on the handler.
def onHandler (roles : List UserRole) (statuses : List AccountStatus) : HandlerMetadata :=
  ⟨⟨none, none⟩, ⟨some statuses, none⟩, ⟨some roles, none⟩⟩

-- The same two on its class.
def onClass (roles : List UserRole) (statuses : List AccountStatus) : HandlerMetadata :=
  ⟨⟨none, none⟩, ⟨none, some statuses⟩, ⟨none, some roles⟩⟩

end HandlerMetadata

namespace Route

open HandlerMetadata

def metadata : Route → HandlerMetadata
  | .signUp => marked
  | .signIn => marked
  | .requestAccountVerification => onHandler ALL_ROLES [.pendingVerification, .active]
  | .requestAccountDeletion => onHandler ALL_ROLES ALL_ACCOUNT_STATUSES
  | .requestSignOutAll => marked
  | .signOut => onHandler ALL_ROLES ALL_ACCOUNT_STATUSES
  | .signOutAll => onHandler ALL_ROLES ALL_ACCOUNT_STATUSES
  | .suspendAccount => onClass [.moderator] [.active]
  | .reactivateAccount => onClass [.moderator] [.active]
  | .createItem => onHandler [.creator] [.active]
  | .createReview => onHandler [.reviewer] [.active]
  | .voteReview => onHandler [.reviewer] [.active]
  | .deleteVote => onHandler [.reviewer] [.active]
  | .verifyAccount => marked
  | .deleteAccount => marked
  | .signOutAllPublic => marked
  | .runSeed => marked
  | .findUserById => marked
  | .findAllUsers => marked
  | .findItemById => marked
  | .filterItems => marked
  | .filterReviews => marked
  | .findAllReviewVotes => marked
  | .health => marked

end Route

-- The session of a request, and the order in which its Redis commands that are
-- sent at once reach the server.
structure Caller where
  session : Option RequestSession
  order : Arrangement
  relationFirst : Bool

def checkAccess (route : Route) (caller : Caller) : Async (Option AuthenticatedUser) := do
  let user ← AuthGuard.canActivateHandler caller.order caller.relationFirst .graphql route.metadata caller.session
  ofExcept (AccountStatusGuard.canActivate .graphql route.metadata user)
  ofExcept (RolesGuard.canActivate .graphql route.metadata user)
  pure user

def guarded (route : Route) (caller : Caller) (handler : SessionContext → AuthenticatedUser → Async Unit) : Async Unit := do
  let user ← checkAccess route caller
  match user, AuthGuard.signedIn caller.session with
  | some user, some req => handler req user
  | _, _ => reject .internalServerError

def AuthNotifications.sendAccountDeletionEmail (config : AuthConfig) (user : AuthenticatedUser) (jti : Text) : Async Unit := do
  let token ← TokensService.generate config.accountDeletionToken (TokensService.identity user.id.text) jti
  redis (.sendEmail ⟨user.email, token⟩)

def AuthService.requestAccountDeletion (config : AuthConfig) (user : AuthenticatedUser) (jti : Text) : Async Unit :=
  AuthNotifications.sendAccountDeletionEmail config user jti

structure SiteConfig where
  auth : AuthConfig
  signOutAllToken : TokensFeatureOptions
  maxUserSessions : Nat
  compare : JsString → Text → Bool

namespace AuthController

-- BadRequestException, with the code of its status.
def invalidUrl : Err := .gql .badRequest "Invalid url"

-- if (!token) this.handleNonProvidedToken()
def provided (token : Option Token) (handler : Token → Async Unit) : Async Unit :=
  match token with
  | none => reject invalidUrl
  | some token => handler token

def verifyAccount (config : SiteConfig) (token : Option Token) : Async Unit :=
  provided token (AuthService.verifyAccount config.auth)

def deleteAccount (config : SiteConfig) (token : Option Token) : Async Unit :=
  provided token (AuthService.deleteAccount config.auth)

def signOutAll (config : SiteConfig) (order : Arrangement) (token : Option Token) : Async Unit :=
  provided token fun token => discard (AuthService.signOutAllPublic config.signOutAllToken order token)

end AuthController

-- A request to one of the routes after the validation of its arguments, with
-- what the server draws for it; or the cron job, an event of a removed session,
-- the start of the application.
inductive SiteRequest where
  | signUp (input : SignUpInput) (row : Generated) (req : RequestContext)
  | signIn (email password : JsString) (req : RequestContext)
  | requestAccountVerification (caller : Caller) (jti : Text)
  | requestAccountDeletion (caller : Caller) (jti : Text)
  | requestSignOutAll (email : JsString) (jti : Text)
  | signOut (caller : Caller)
  | signOutAll (caller : Caller) (password : JsString) (destroyedFirst : Bool)
  | suspendAccount (caller : Caller) (userId : Text)
  | reactivateAccount (caller : Caller) (userId : Text)
  | createItem (caller : Caller) (item : RawItemInput) (row : Generated)
  | createReview (caller : Caller) (reviewData : RawReviewInput) (row : Generated)
  | voteReview (caller : Caller) (reviewId : Text) (action : VoteAction) (row : Generated)
  | deleteVote (caller : Caller) (reviewId : Text)
  | verifyAccount (token : Option Token)
  | deleteAccount (token : Option Token)
  | signOutAllPublic (order : Arrangement) (token : Option Token)
  | runSeed (adminEmail : Text) (draws : SeedDraws)
  | refreshReviewVotes
  | removedSession (order : Arrangement) (sessionId : Text)
  | onModuleInit (isProduction : Bool) (row : Generated) (username email passwordHash : Text) (draws : SeedDraws)

namespace SiteRequest

def program (config : SiteConfig) : SiteRequest → Async Unit
  | .signUp input row req => discard (AuthService.signUp input row req)
  | .signIn email password req => discard (AuthService.signIn config.compare config.maxUserSessions email password req)
  | .requestAccountVerification caller jti => guarded .requestAccountVerification caller fun _ user =>
      AuthService.requestAccountVerification config.auth user jti
  | .requestAccountDeletion caller jti => guarded .requestAccountDeletion caller fun _ user =>
      AuthService.requestAccountDeletion config.auth user jti
  | .requestSignOutAll email jti => discard (AuthResolver.requestSignOutAll config.signOutAllToken email jti)
  | .signOut caller => guarded .signOut caller fun req _ => AuthService.signOut caller.order req
  | .signOutAll caller password destroyedFirst => guarded .signOutAll caller fun req _ =>
      AuthService.signOutAll config.compare caller.order destroyedFirst password req
  | .suspendAccount caller userId => guarded .suspendAccount caller fun _ _ => ModerationService.suspendAccount userId
  | .reactivateAccount caller userId => guarded .reactivateAccount caller fun _ _ => ModerationService.reactivateAccount userId
  | .createItem caller item row => guarded .createItem caller fun _ user => ItemsService.createFrom item user row
  | .createReview caller reviewData row => guarded .createReview caller fun _ user =>
      ReviewService.createFrom reviewData user row
  | .voteReview caller reviewId action row => guarded .voteReview caller fun _ user =>
      discard (VotesResolver.voteReview reviewId user.id action row)
  | .deleteVote caller reviewId => guarded .deleteVote caller fun _ user => discard (VotesResolver.deleteVote reviewId user.id)
  | .verifyAccount token => AuthController.verifyAccount config token
  | .deleteAccount token => AuthController.deleteAccount config token
  | .signOutAllPublic order token => AuthController.signOutAll config order token
  | .runSeed adminEmail draws => SeedService.runSeed adminEmail draws SEED_RULES
  | .refreshReviewVotes => ReviewService.refreshReviewVotes
  | .removedSession order sessionId => SessionsEvents.handleRemovedSession order sessionId
  | .onModuleInit isProduction row username email passwordHash draws =>
      AdminService.onModuleInit isProduction (adminAccount row username email passwordHash) draws

end SiteRequest

theorem public_admitted (route : Route) (caller : Caller) (open_ : route.metadata = .marked) :
    checkAccess route caller = pure none := by
  unfold checkAccess
  rw [open_]
  rfl

end RateWise
