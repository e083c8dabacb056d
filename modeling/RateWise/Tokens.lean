import RateWise.AccountRows

set_option autoImplicit false

namespace RateWise

open Interleave (Prog)

-- What a token service is configured with; expiresIn is in seconds.
structure TokensFeatureOptions where
  secret : Text
  expiresIn : Int
  purpose : JwtPurpose
  dataInToken : List String
deriving DecidableEq

def createBlacklistTokenKey (jti : Text) : Text := "blacklist_token:".toList ++ jti

-- A property that the payload lacks prints as undefined in a template string.
def orUndefined (property : Option Text) : Text := property.getD "undefined".toList

def isSubset (parentArray subsetArray : List String) : Bool := subsetArray.all fun element => parentArray.contains element

namespace JwtPayload

def keys (payload : JwtPayload) : List String :=
  (payload.purpose.map fun _ => "purpose").toList ++ (payload.jti.map fun _ => "jti").toList ++
    (payload.iat.map fun _ => "iat").toList ++ (payload.exp.map fun _ => "exp").toList ++ payload.custom.map Prod.fst

-- What is no string is no uuid, as undefined is none.
def id (payload : JwtPayload) : Text :=
  match payload.custom.lookup "id" with
  | some (.string units) => parameter units
  | _ => orUndefined none

-- Whether the time that the token names for its start is reached; a start
-- that is no number never is.
def active (payload : JwtPayload) (clockTimestamp : Int) : Bool :=
  match payload.custom.lookup "nbf" with
  | none => true
  | some (.number literal) => !Json.literalAbove literal clockTimestamp
  | some _ => false

theorem active_absent (payload : JwtPayload) (absent : payload.custom.lookup "nbf" = none) (clockTimestamp : Int) :
    payload.active clockTimestamp = true := by rw [active, absent]

theorem active_number (payload : JwtPayload) (literal : Text) (named : payload.custom.lookup "nbf" = some (.number literal))
    (clockTimestamp : Int) : payload.active clockTimestamp = !Json.literalAbove literal clockTimestamp := by rw [active, named]

def inactive (payload : JwtPayload) : Err :=
  match payload.custom.lookup "nbf" with
  | some (.number _) => .invalidToken "jwt not active"
  | _ => .invalidToken "invalid nbf value"

end JwtPayload

namespace TokensService

-- jwtService.verifyAsync: the signature, then start and expiry in whole
-- seconds.
def verifyTokenOrThrow (opts : TokensFeatureOptions) : Token → Async JwtPayload
  | .unsigned _ => reject (.invalidToken "jwt malformed")
  | .signed secret payload => do
      rejectIf (secret ≠ opts.secret) (.invalidToken "invalid signature")
      let now : Int ← redis .now
      rejectIf (!payload.active (now / 1000)) payload.inactive
      rejectIf (payload.exp.any fun exp => exp ≤ now / 1000) (.invalidToken "jwt expired")
      pure payload

def calculateTokenTTLSeconds (expirationDateUnix : Int) (now : Int) : Int := expirationDateUnix - now / 1000

-- store(key, '1', ttl) sends EX only for a ttl that is neither 0 nor NaN.
def blacklist (jti : Text) (exp : Option Int) : Async Unit := do
  let now : Int ← redis .now
  let ttl := (exp.map fun exp => calculateTokenTTLSeconds exp now).filter fun ttl => ttl ≠ 0
  redis (.set (createBlacklistTokenKey jti) "1".toList ttl)

def verify (opts : TokensFeatureOptions) (token : Token) : Async JwtPayload := do
  let payload ← verifyTokenOrThrow opts token
  rejectIf (!isSubset payload.keys (opts.dataInToken ++ ["purpose", "jti"]))
    (.invalidToken "Token payload does not contain expected data")
  rejectIf (payload.purpose ≠ some opts.purpose) (.invalidToken "Invalid token purpose")
  let blacklisted : Option Text ← redis (.get (createBlacklistTokenKey (orUndefined payload.jti)))
  rejectIf blacklisted.isSome (.invalidToken "Token is blacklisted")
  pure payload

def objectPrototype : List String :=
  ["constructor", "__proto__", "__defineGetter__", "__defineSetter__", "__lookupGetter__", "__lookupSetter__", "hasOwnProperty",
    "isPrototypeOf", "propertyIsEnumerable", "toLocaleString", "toString", "valueOf"]

-- jwtService.signAsync checks a registered claim, and looks every property up
-- in an object literal, where it also finds what Object.prototype has.
def invalidClaim : String × Json.Value → Option Err
  | ("nbf", .number _) => none
  | ("nbf", _) => some (.plain "\"nbf\" should be a number of seconds")
  | (key, _) => if objectPrototype.contains key then some (.plain "validator.isValid is not a function") else none

-- jti is the uuid that the service draws for the token.
def generate (opts : TokensFeatureOptions) (custom : List (String × Json.Value)) (jti : Text) : Async Token := do
  rejectIf (custom.findSome? invalidClaim).isSome ((custom.findSome? invalidClaim).getD .internalServerError)
  let now : Int ← redis .now
  pure (.signed opts.secret ⟨some opts.purpose, some jti, some (now / 1000), some (now / 1000 + opts.expiresIn), custom⟩)

def identity (id : Text) : List (String × Json.Value) := [("id", .string (Utf16.ofText id))]

theorem identity_valid (id : Text) : (identity id).findSome? invalidClaim = none := by
  have valid : invalidClaim ("id", .string (Utf16.ofText id)) = none := by
    rw [invalidClaim]
    · rfl
    · simp
    · simp
  rw [identity, List.findSome?_cons, valid]
  rfl

theorem identity_active (id : Text) (payload : JwtPayload) (holds : payload.custom = identity id) (clockTimestamp : Int) :
    payload.active clockTimestamp = true :=
  payload.active_absent (by rw [holds]; rfl) clockTimestamp

theorem identity_id (id : Text) (payload : JwtPayload) (holds : payload.custom = identity id) : payload.id = id := by
  have found : payload.custom.lookup "id" = some (.string (Utf16.ofText id)) := by
    rw [holds]
    rfl
  rw [JwtPayload.id, found]
  exact Utf16.to_text_of_text id

theorem generate_identity (opts : TokensFeatureOptions) (id jti : Text) : generate opts (identity id) jti =
    Prog.bind (redis .now) fun now => pure (.signed opts.secret
      ⟨some opts.purpose, some jti, some (now / 1000), some (now / 1000 + opts.expiresIn), identity id⟩) := by
  rw [generate, identity_valid]
  rfl

end TokensService

-- Every promise runs to its end; the rejections of all of them in order.
def rejections : List (Async Unit) → Async (List Err)
  | [] => pure []
  | promise :: rest => do
      let rejected : Option Err ← Prog.catching (Prog.bind promise fun _ => pure none) fun error => pure (some error)
      let others ← rejections rest
      pure (rejected.toList ++ others)

def runSettledOrThrow (promises : List (Async Unit)) : Async Unit := do
  match ← rejections promises with
  | [] => pure ()
  | [reason] => reject reason
  | _ => reject .aggregateError

def createSessionKey (sessId : Text) : Text := "session:".toList ++ sessId

def createSessionAndUserMappingKey (sessionId : Text) : Text := "sess_user:".toList ++ sessionId

def createUserSessionsSetKey (userId : Text) : Text := "index:".toList ++ userId

-- The session that the request came with and the id that regenerate draws.
structure RequestContext where
  sessionID : Text
  regenerated : Text
deriving DecidableEq

namespace SessionsService

def delete (key : Text) : Async Unit := do
  let _present ← redis (.del key)

def deleteAll (userId : Text) : Async Nat := do
  let sessIDs : List Text ← redis (.sMembers (createUserSessionsSetKey userId))
  runSettledOrThrow [
    runSettledOrThrow (sessIDs.map fun id => delete (createSessionKey id)),
    delete (createUserSessionsSetKey userId),
    runSettledOrThrow (sessIDs.map fun id => delete (createSessionAndUserMappingKey id))]
  pure sessIDs.length

def create (req : RequestContext) (userId : Text) : Async Unit := do
  delete (createSessionKey req.sessionID)
  redis (.multiStoreSetAdd (createSessionAndUserMappingKey req.regenerated) userId
    (createUserSessionsSetKey userId) req.regenerated)

end SessionsService

end RateWise
