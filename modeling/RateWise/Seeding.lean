import RateWise.Accounts

set_option autoImplicit false

namespace RateWise

open Interleave (Prog)

-- What the generators draw for one row; password is stored as it is drawn.
structure SeedUser where
  row : Generated
  username : Text
  email : Text
  password : Text
  status : AccountStatus

structure SeedItem where
  row : Generated
  input : CreateItemInput

structure SeedReview where
  row : Generated
  content : Text
  rating : Int

structure SeedVote where
  row : Generated
  action : VoteAction

-- candidates.sort(() => Math.random() - 0.5)
structure Shuffle (α : Type) where
  order : List α → List α
  perm : ∀ candidates, (order candidates).Perm candidates

structure SeedDraws where
  user : Nat → SeedUser
  item : Uuid → Nat → SeedItem
  review : Uuid → Uuid → SeedReview
  vote : Uuid → Uuid → SeedVote
  reviews : Shuffle (Uuid × Uuid)
  votes : Shuffle (Uuid × Uuid)

structure SeedOptions where
  users : Nat
  itemsPerUser : Nat
  maxReviews : Nat
  maxVotes : Nat

def SEED_RULES : SeedOptions := ⟨8, 2, 5, 5⟩

-- The getter user: passwordHash is the generated password, and role is not a
-- column, so that the roles are the default ones.
def UserDataGenerator.user (draw : SeedUser) : Account :=
  ⟨draw.row, draw.username, draw.email, draw.password, [.reviewer, .creator], draw.status⟩

-- for (const x of xs) await body(x)
def forEach {α : Type} (body : α → Async Unit) : List α → Async Unit
  | [] => pure ()
  | x :: rest => do
      body x
      forEach body rest

namespace SeedService

def getUserIdsOrThrow (adminEmail : Text) : Async (List Uuid) := do
  let selectedUserIds ← sql (.findAccountIdsExcept adminEmail)
  rejectIf (selectedUserIds.length == 0) (.plain "No users found. Seed users first")
  pure selectedUserIds

def getItemsMetaOrThrow : Async (List ItemMeta) := do
  let items ← sql .findItemsMeta
  rejectIf (items.length == 0) (.plain "No items found. Seed items first")
  pure items

def getReviewsIdsOrThrow : Async (List Uuid) := do
  let selectedReviewsIds ← sql .findReviewIds
  rejectIf (selectedReviewsIds.length == 0) (.plain "No reviews found. Seed reviews first")
  pure selectedReviewsIds

def cleanDb (adminEmail : Text) : Async Unit := sql (.removeAccountsExcept adminEmail)

def saveUser (user : Account) : Async Unit := transaction (sql (.insertAccount user))

def createUsers (draws : SeedDraws) (entries : Nat) : Async Unit :=
  forEach (fun i => saveUser (UserDataGenerator.user (draws.user i))) (List.range entries)

def saveItem (draw : SeedItem) (createdBy : Uuid) : Async Unit :=
  transaction (sql (.insertItem draw.row draw.input.title draw.input.description draw.input.category draw.input.tags
    createdBy.text))

def createItems (adminEmail : Text) (draws : SeedDraws) (itemsPerUser : Nat) : Async Unit := do
  let usersIds ← getUserIdsOrThrow adminEmail
  forEach (fun userId => forEach (fun i => saveItem (draws.item userId i) userId) (List.range itemsPerUser)) usersIds

def reviewCandidates (itemsMeta : List ItemMeta) (usersIds : List Uuid) : List (Uuid × Uuid) :=
  itemsMeta.flatMap fun item => (usersIds.filter fun userId => userId ≠ item.createdBy).map fun userId => (item.id, userId)

def saveReview (draw : SeedReview) (createdBy relatedItem : Uuid) : Async Unit :=
  transaction (sql (.insertReview draw.row draw.content draw.rating createdBy.text relatedItem.text))

def createReviews (adminEmail : Text) (draws : SeedDraws) (maxReviews : Nat) : Async Unit := do
  let usersIds ← getUserIdsOrThrow adminEmail
  let itemsMeta ← getItemsMetaOrThrow
  let selected := (draws.reviews.order (reviewCandidates itemsMeta usersIds)).take maxReviews
  forEach (fun pair => saveReview (draws.review pair.1 pair.2) pair.2 pair.1) selected

def voteCandidates (reviewsIds usersIds : List Uuid) : List (Uuid × Uuid) :=
  reviewsIds.flatMap fun reviewId => usersIds.map fun userId => (reviewId, userId)

def saveVote (draw : SeedVote) (createdBy relatedReview : Uuid) : Async Unit :=
  transaction (sql (.insertVote draw.row draw.action createdBy.text relatedReview.text))

def createVotes (adminEmail : Text) (draws : SeedDraws) (maxVotes : Nat) : Async Unit := do
  let usersIds ← getUserIdsOrThrow adminEmail
  let reviewsIds ← getReviewsIdsOrThrow
  let selected := (draws.votes.order (voteCandidates reviewsIds usersIds)).take maxVotes
  forEach (fun pair => saveVote (draws.vote pair.1 pair.2) pair.2 pair.1) selected
  ReviewService.refreshReviewVotes

def runSeed (adminEmail : Text) (draws : SeedDraws) (options : SeedOptions) : Async Unit := do
  cleanDb adminEmail
  createUsers draws options.users
  createItems adminEmail draws options.itemsPerUser
  createReviews adminEmail draws options.maxReviews
  createVotes adminEmail draws options.maxVotes

end SeedService

namespace AdminService

-- admin carries the hash of the configured password.
def createAdminIfNotExists (admin : Account) : Async Unit := do
  let existingAdmin : Option Account ← sql (.findAccountByEmail admin.email)
  match existingAdmin with
  | some _ => pure ()
  | none => transaction (sql (.insertAccount admin))

def seedProd (isProduction : Bool) (adminEmail : Text) (draws : SeedDraws) : Async Unit :=
  if isProduction then SeedService.runSeed adminEmail draws ⟨4, 2, 5, 5⟩ else pure ()

def onModuleInit (isProduction : Bool) (admin : Account) (draws : SeedDraws) : Async Unit := do
  createAdminIfNotExists admin
  seedProd isProduction admin.email draws

end AdminService

end RateWise
