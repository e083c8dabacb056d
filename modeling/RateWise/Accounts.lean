import RateWise.Tokens
import RateWise.Voting

set_option autoImplicit false

namespace RateWise

open Interleave (Prog)

structure AuthConfig where
  accountVerificationTokenSecret : Text
  accountVerificationTokenExp : Int
  accountDeletionTokenSecret : Text
  accountDeletionTokenExp : Int
deriving DecidableEq

namespace AuthConfig

def accountVerificationToken (config : AuthConfig) : TokensFeatureOptions :=
  ⟨config.accountVerificationTokenSecret, config.accountVerificationTokenExp, .accountVerification, ["id"]⟩

def accountDeletionToken (config : AuthConfig) : TokensFeatureOptions :=
  ⟨config.accountDeletionTokenSecret, config.accountDeletionTokenExp, .accountDeletion, ["id"]⟩

end AuthConfig

def forbidden : Err := .gql .forbidden "You do not have permission to perform this action"

def accountIsSuspended : Err := .gql .forbidden "Your account has been temporarily disabled."

def accountAlreadyVerified : Err := .gql .conflict "Account is already verified"

def setStatusUnless (refusal : Account → Option Err) (status : AccountStatus) (user : Account) : Async Unit :=
  match refusal user with
  | some error => reject error
  | none => UsersService.saveOne { user with status := status }

-- The common body of suspendAccount, reactivateAccount and verifyAccount.
def changeStatus (refusal : Account → Option Err) (status : AccountStatus) (userId : Text) : Async Unit := do
  let user ← UsersService.findOneByIdOrThrow userId
  setStatusUnless refusal status user

namespace ModerationService

def privileged (user : Account) : Option Err :=
  if user.roles.contains .admin then some forbidden
  else if user.roles.contains .moderator then some forbidden
  else none

def suspensionRefusal (user : Account) : Option Err :=
  privileged user <|>
    if user.status = .suspended then some (.gql .conflict "Account is already suspended") else none

def reactivationRefusal (user : Account) : Option Err :=
  privileged user <|>
    if user.status ≠ .suspended then some (.gql .conflict "Account is not suspended") else none

def suspendAccount (userId : Text) : Async Unit := changeStatus suspensionRefusal .suspended userId

def reactivateAccount (userId : Text) : Async Unit := changeStatus reactivationRefusal .active userId

end ModerationService

namespace AuthNotifications

def sendAccountVerificationEmail (config : AuthConfig) (user : AuthenticatedUser) (jti : Text) : Async Unit := do
  let token ← TokensService.generate config.accountVerificationToken (TokensService.identity user.id.text) jti
  redis (.sendEmail ⟨user.email, token⟩)

end AuthNotifications

-- passwordHash is what the hashing service makes of the password.
structure SignUpInput where
  username : Text
  email : Text
  passwordHash : Text
deriving DecidableEq

namespace AuthService

def verifyTokenOrThrow (opts : TokensFeatureOptions) (token : Token) : Async JwtPayload :=
  Prog.catching (TokensService.verify opts token) fun
    | .invalidToken _ => reject (.gql .unauthorized "Invalid or expired token")
    | error => reject error

def accountIsNotAlreadyVerified (status : AccountStatus) : Option Err :=
  if status = .active then some accountAlreadyVerified else none

def verificationRefusal (user : Account) : Option Err :=
  if user.status = .suspended then some accountIsSuspended else accountIsNotAlreadyVerified user.status

def verifyAccount (config : AuthConfig) (tokenInUrl : Token) : Async Unit := do
  let payload ← verifyTokenOrThrow config.accountVerificationToken tokenInUrl
  changeStatus verificationRefusal .active payload.id
  Prog.catching (TokensService.blacklist (orUndefined payload.jti) payload.exp) fun _ => pure ()

def deleteAccount (config : AuthConfig) (tokenInUrl : Token) : Async Unit := do
  let payload ← verifyTokenOrThrow config.accountDeletionToken tokenInUrl
  TokensService.blacklist (orUndefined payload.jti) payload.exp
  UserDeletionService.deleteOne payload.id
  Prog.catching (do
    let _count ← SessionsService.deleteAll payload.id)
    fun _ => pure ()

def requestAccountVerification (config : AuthConfig) (user : AuthenticatedUser) (jti : Text) : Async Unit := do
  match accountIsNotAlreadyVerified user.status with
  | some error => reject error
  | none => AuthNotifications.sendAccountVerificationEmail config user jti

def signUp (signUpInput : SignUpInput) (row : Generated) (req : RequestContext) : Async Account := do
  let user ← UsersService.createOne row signUpInput.username signUpInput.email signUpInput.passwordHash
  SessionsService.create req user.id.text
  pure user

end AuthService

end RateWise
