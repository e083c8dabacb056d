import RateWise.Accounts
import RateWise.Inputs

set_option autoImplicit false

namespace RateWise

open Interleave (Prog)

-- In which order the commands reach the server that are sent at once.
structure Arrangement where
  arrange : List (Async Unit) → List (Async Unit)
  perm : ∀ promises, (arrange promises).Perm promises

def Arrangement.listed : Arrangement := ⟨id, fun _ => .refl _⟩

-- A request whose session has been loaded, with its req.session.userId.
structure SessionContext extends RequestContext where
  userId : Text
deriving DecidableEq

-- The promise with its rejection as a value.
def settle {α : Type} (promise : Async α) : Async (Except Err α) :=
  Prog.catching (Prog.bind promise fun value => pure (.ok value)) fun error => pure (.error error)

def rethrow : List Err → Async Unit
  | [] => pure ()
  | [reason] => reject reason
  | _ => reject .aggregateError

def unauthorized : Err := .gql .unauthorized "Authentication required"

namespace SessionsService

def setRem (key member : Text) : Async Unit := redis (.setRem key member)

def destroySession (req : SessionContext) : Async Unit := delete (createSessionKey req.sessionID)

def trySessionCleanup (order : Arrangement) (req : SessionContext) : Async Unit :=
  Prog.catching
    (runSettledOrThrow (order.arrange [
      destroySession req,
      delete (createSessionKey req.sessionID),
      delete (createSessionAndUserMappingKey req.sessionID),
      setRem (createUserSessionsSetKey req.userId) req.sessionID]))
    fun _ => pure ()

-- The two reads are sent at once, and either may be answered first.
def isDangling (relationFirst : Bool) (userId sessId : Text) : Async Bool := do
  if relationFirst then
    let sessRelation : Option Text ← redis (.get (createSessionAndUserMappingKey sessId))
    let sessInIndex : Bool ← redis (.setIsMember (createUserSessionsSetKey userId) sessId)
    pure (!sessInIndex || sessRelation.isNone)
  else
    let sessInIndex : Bool ← redis (.setIsMember (createUserSessionsSetKey userId) sessId)
    let sessRelation : Option Text ← redis (.get (createSessionAndUserMappingKey sessId))
    pure (!sessInIndex || sessRelation.isNone)

-- The deletions of deleteAll; its nested groups are all sent at once.
def deletions (userId : Text) (sessIDs : List Text) : List (Async Unit) :=
  sessIDs.map (fun id => delete (createSessionKey id)) ++
    delete (createUserSessionsSetKey userId) :: sessIDs.map fun id => delete (createSessionAndUserMappingKey id)

def deleteAllIn (order : Arrangement) (userId : Text) : Async Nat := do
  let sessIDs : List Text ← redis (.sMembers (createUserSessionsSetKey userId))
  runSettledOrThrow (order.arrange (deletions userId sessIDs))
  pure sessIDs.length

-- The current session is destroyed beside deleteAll: before its read of the
-- index or together with its deletions.
def destroyAll (order : Arrangement) (destroyedFirst : Bool) (req : SessionContext) : Async Nat := do
  let early ← rejections (if destroyedFirst then [destroySession req] else [])
  let late := if destroyedFirst then [] else [destroySession req]
  let read : Except Err (List Text) ← settle (redis (.sMembers (createUserSessionsSetKey req.userId)))
  match read with
  | .error reason => do
      let others ← rejections late
      rethrow (early ++ others ++ [reason])
      pure 0
  | .ok sessIDs => do
      let others ← rejections (order.arrange (deletions req.userId sessIDs ++ late))
      rethrow (early ++ others)
      pure sessIDs.length

def count (userId : Text) : Async Nat := redis (.setSize (createUserSessionsSetKey userId))

def destroy (order : Arrangement) (req : SessionContext) : Async Unit :=
  runSettledOrThrow (order.arrange [
    destroySession req,
    setRem (createUserSessionsSetKey req.userId) req.sessionID,
    delete (createSessionAndUserMappingKey req.sessionID)])

def load (sessionID : Text) : Async (Option Text) := redis (.get (createSessionKey sessionID))

-- The record that the middleware writes when the response ends; a failure is
-- logged.
def save (sessionID userId : Text) (ttlSeconds : Int) : Async Unit := do
  let _failure ← settle (redis (.set (createSessionKey sessionID) userId (some ttlSeconds)))
  pure ()

-- With rolling set, the end of any other request renews the TTL.
def touch (sessionID : Text) (ttlSeconds : Int) : Async Unit := do
  match ← load sessionID with
  | none => pure ()
  | some userId => save sessionID userId ttlSeconds

end SessionsService

-- The two deletions are not awaited; order says which one is sent first.
def SessionsEvents.handleRemovedSession (order : Arrangement) (sessionId : Text) : Async Unit := do
  let userId : Option Text ← redis (.get (createSessionAndUserMappingKey sessionId))
  match userId with
  | none => pure ()
  | some userId => do
      let _failures ← rejections (order.arrange [
        SessionsService.delete (createSessionAndUserMappingKey sessionId),
        SessionsService.setRem (createUserSessionsSetKey userId) sessionId])
      pure ()

def SessionsEvents.expired (order : Arrangement) (key : Text) : Async Unit :=
  if !"session".toList.isPrefixOf key then pure ()
  else match (key.splitOn ':')[1]? with
    | none => reject .internalServerError
    | some [] => reject .internalServerError
    | some sessionId => SessionsEvents.handleRemovedSession order sessionId

-- AuthGuard on the loaded session of a protected handler: the account it
-- grants the request as.
def AuthGuard.checkSession (order : Arrangement) (relationFirst : Bool) (req : SessionContext) : Async Account := do
  match ← UsersService.findOneById req.userId with
  | none => do
      SessionsService.trySessionCleanup order req
      reject unauthorized
  | some user => do
      let isDanglingSession ← SessionsService.isDangling relationFirst req.userId req.sessionID
      if isDanglingSession then
        SessionsService.trySessionCleanup order req
        reject unauthorized
      else pure user

def AuthGuard.canActivate (order : Arrangement) (relationFirst : Bool) (sessionID : Text) :
    Async (Account × SessionContext) := do
  match ← SessionsService.load sessionID with
  | none => reject unauthorized
  | some userId => do
      let user ← AuthGuard.checkSession order relationFirst ⟨⟨sessionID, sessionID⟩, userId⟩
      pure (user, ⟨⟨sessionID, sessionID⟩, userId⟩)

namespace AUTH_RULES

def USERNAME : LengthRule := ⟨3, 30⟩

def PASSWORD : LengthRule := ⟨8, 60⟩

end AUTH_RULES

-- String.length counts UTF-16 units.
def lengthMatcher (input : JsString) (constraints : LengthRule) : Bool :=
  if input.length < constraints.MIN then false
  else if constraints.MAX < input.length then false
  else true

namespace AuthService

def invalidCredentials : Err := .gql .unauthorized "Invalid credentials"

def maxSessionsReached : Err := .gql .forbidden "Number of active sessions exceeded."

def validatePasswordConstraintsOrThrow (password : JsString) : Async Unit :=
  rejectIf (!lengthMatcher password AUTH_RULES.PASSWORD) invalidCredentials

-- compare is the hashing service's.
def passwordsMatchOrThrow (compare : JsString → Text → Bool) (dbPassword : Text) (incomingPassword : JsString) : Async Unit :=
  rejectIf (!compare incomingPassword dbPassword) invalidCredentials

-- signIn up to the creation of the session.
def authenticate (compare : JsString → Text → Bool) (email password : JsString) : Async Account := do
  validatePasswordConstraintsOrThrow password
  let user : Option Account ← sql (.findAccountByEmail (parameter email))
  match user with
  | none => reject invalidCredentials
  | some user => do
      passwordsMatchOrThrow compare user.passwordHash password
      pure user

def checkSessionLimit (maxUserSessions : Nat) (userId : Text) : Async Unit := do
  let sessions ← SessionsService.count userId
  rejectIf (maxUserSessions ≤ sessions) maxSessionsReached

def signIn (compare : JsString → Text → Bool) (maxUserSessions : Nat) (email password : JsString)
    (req : RequestContext) : Async Account := do
  let user ← authenticate compare email password
  checkSessionLimit maxUserSessions user.id.text
  SessionsService.create req user.id.text
  pure user

def signOut (order : Arrangement) (req : SessionContext) : Async Unit := SessionsService.destroy order req

def reauthenticate (compare : JsString → Text → Bool) (userId : Text) (password : JsString) : Async Unit := do
  validatePasswordConstraintsOrThrow password
  let user ← UsersService.findOneByIdOrThrow userId
  passwordsMatchOrThrow compare user.passwordHash password

def signOutAll (compare : JsString → Text → Bool) (order : Arrangement) (destroyedFirst : Bool) (password : JsString)
    (req : SessionContext) : Async Unit := do
  reauthenticate compare req.userId password
  let _count ← SessionsService.destroyAll order destroyedFirst req
  pure ()

def signOutAllPublic (signOutAllToken : TokensFeatureOptions) (order : Arrangement) (tokenInUrl : Token) : Async Nat := do
  let payload ← verifyTokenOrThrow signOutAllToken tokenInUrl
  UsersService.existsOrThrow payload.id
  TokensService.blacklist (orUndefined payload.jti) payload.exp
  SessionsService.deleteAllIn order payload.id

end AuthService

end RateWise
