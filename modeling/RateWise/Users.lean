import RateWise.Backend

set_option autoImplicit false

namespace RateWise

open Interleave (Prog)

def userNotFound : Err := .gql .notFound "User not found"

def createUserCacheKey (userId : Text) : Text := "cache:user:".toList ++ userId

def isDuplicatedKeyError : Err → Bool
  | .queryFailed .uniqueViolation => true
  | _ => false

namespace UsersService

def deleteUserFromCache (id : Text) : Async Unit := do
  let _wasCached ← redis (.del (createUserCacheKey id))

def validUuidOrThrow (id : Text) : Async Unit :=
  if !validUUID id then reject userNotFound else pure ()

def findOneById (id : Text) : Async (Option Account) := do
  validUuidOrThrow id
  sql (.findAccount id)

def findOneByIdOrThrow (id : Text) : Async Account := do
  match ← findOneById id with
  | none => reject userNotFound
  | some user => pure user

-- findOneByIdOrThrow on the connection of the caller's transaction.
def findOneByIdOrThrowTx (id : Text) : Async Account := do
  validUuidOrThrow id
  match ← sql (.findAccount id) with
  | none => reject userNotFound
  | some user => pure user

-- existsBy is a SELECT of one row.
def existsOrThrow (id : Text) : Async Unit := do
  validUuidOrThrow id
  match ← sql (.findAccount id) with
  | none => reject userNotFound
  | some _ => pure ()

-- The columns in which the entity differs from the row that save re-reads.
def changedColumns (entity row : Account) : AccountChange where
  username := if entity.username = row.username then none else some entity.username
  email := if entity.email = row.email then none else some entity.email
  passwordHash := if entity.passwordHash = row.passwordHash then none else some entity.passwordHash
  roles := if entity.roles = row.roles then none else some entity.roles
  status := if entity.status = row.status then none else some entity.status

-- TypeORM Repository.save of an entity with an id: SELECT by id, then in a
-- transaction INSERT if no row came back, else UPDATE of the changed columns.
def saveEntity (user : Account) : Async Unit := do
  match ← sql (.findAccount user.id.text) with
  | none => transaction (sql (.insertAccount user))
  | some row =>
      if changedColumns user row = .unchanged then pure ()
      else transaction (sql (.updateAccount user.id (changedColumns user row)))

def saveFailed (error : Err) : Err :=
  if isDuplicatedKeyError error then .gql .conflict "User already exists" else .internalServerError

def saveOne (user : Account) : Async Unit :=
  Prog.catching (do
    saveEntity user
    deleteUserFromCache user.id.text)
    fun error => reject (saveFailed error)

-- remove(user) inside the caller's transaction.
def deleteOneTx (user : Account) : Async Unit := sql (.removeAccount user.id)

-- save of an object without an id is a plain INSERT with the column defaults.
def createOne (row : Generated) (username email passwordHash : Text) : Async Account :=
  Prog.catching (do
    let created : Account := ⟨row, username, email, passwordHash, [.reviewer, .creator], .pendingVerification⟩
    transaction (sql (.insertAccount created))
    pure created)
    fun error => reject (saveFailed error)

end UsersService

end RateWise
