import RateWise.Users

set_option autoImplicit false

namespace RateWise

open Interleave (Prog)

structure AuthenticatedUser where
  id : Uuid
  email : Text
  username : Text
  status : AccountStatus
  roles : List UserRole
deriving DecidableEq

structure CreateItemInput where
  title : Text
  description : Text
  category : Text
  tags : List Text
deriving DecidableEq

structure CreateReviewInput where
  content : Text
  rating : Int
  itemId : Text
deriving DecidableEq

namespace ItemsService

def notFound : Err := .gql .notFound "Item not found"

def findOneByIdOrThrow (id : Text) : Async Item := do
  if !validUUID id then reject notFound
  match ← sql (.findItem id) with
  | none => reject notFound
  | some item => pure item

def createOne (item : CreateItemInput) (user : AuthenticatedUser) (row : Generated) : Async Unit :=
  Prog.catching
    (transaction (sql (.insertItem row item.title item.description item.category item.tags user.id.text)))
    fun error =>
      reject (if isDuplicatedKeyError error then .gql .conflict "Item already exists" else .internalServerError)

end ItemsService

namespace ReviewService

def notFound : Err := .gql .notFound "Review not found"

def refreshReviewVotes : Async Unit := sql .refreshReviewVotes

def verifyUUidOrThrow (id : Text) : Async Unit := if !validUUID id then reject notFound else pure ()

-- existsOrThrow and existsOrThrowTx differ in the connection only.
def existsOrThrow (reviewId : Text) : Async Unit := do
  verifyUUidOrThrow reviewId
  let count : Nat ← sql (.countReviews reviewId)
  if count = 0 then reject notFound else pure ()

def existsOrThrowTx (reviewId : Text) : Async Unit := existsOrThrow reviewId

def createOne (reviewData : CreateReviewInput) (user : AuthenticatedUser) (row : Generated) : Async Unit := do
  let item ← ItemsService.findOneByIdOrThrow reviewData.itemId
  if item.createdBy = user.id then
    reject (.gql .forbidden "Users cannot review their own items.")
  Prog.catching
    (transaction (sql (.insertReview row reviewData.content reviewData.rating user.id.text item.id.text)))
    fun error =>
      reject (if isDuplicatedKeyError error then .gql .conflict "You have already reviewed this item." else error)

def incrementVotesTx (reviewId : Text) (action : VoteAction) (value : Int) : Async Unit :=
  sql (.addVotes [reviewId] action value)

def decrementVotesTx (reviewId : Text) (action : VoteAction) (value : Int) : Async Unit :=
  sql (.addVotes [reviewId] action (-value))

def decrementVotesInTx (reviewsIds : List Text) (action : VoteAction) (value : Int) : Async Unit :=
  if reviewsIds.length = 0 then pure () else sql (.addVotes reviewsIds action (-value))

end ReviewService

namespace VotesService

def lockKey (userId reviewId : Text) : Text := userId ++ '-' :: reviewId

def acquireVoteLock (userId reviewId : Text) : Async Bool :=
  @Prog.query Api Err .queryFailed (.tryLock (lockKey userId reviewId))

def deleteVoteAndUpdateReviewTx (vote : Vote) (reviewId : Text) : Async Unit := do
  sql (.deleteVote vote.id)
  ReviewService.decrementVotesTx reviewId vote.action 1

-- row holds the defaults of the vote row that the request may insert.
def voteReview (reviewId : Text) (user : Uuid) (action : VoteAction) (row : Generated) : Async Unit :=
  transaction do
    ReviewService.existsOrThrowTx reviewId
    let acquired ← acquireVoteLock user.text reviewId
    if !acquired then return
    let previousVote : Option Vote ← sql (.findVote reviewId user.text)
    if let some previous := previousVote then
      if previous.action = action then return
      deleteVoteAndUpdateReviewTx previous reviewId
    sql (.insertVote row action user.text reviewId)
    ReviewService.incrementVotesTx reviewId action 1

def deleteVote (reviewId : Text) (user : Uuid) : Async Bool := do
  ReviewService.existsOrThrow reviewId
  transaction do
    let acquired ← acquireVoteLock user.text reviewId
    if !acquired then return false
    let previousVote : Option Vote ← sql (.findVote reviewId user.text)
    match previousVote with
    | none => return false
    | some previous =>
        deleteVoteAndUpdateReviewTx previous reviewId
        return true

def revokeUserVotesOnReviewsTx (userId : Text) : Async Unit := do
  let votes : List VoteSummary ← sql (.findVotesBy userId)
  let upVotes := votes.filter fun v => v.action = .up
  let downVotes := votes.filter fun v => v.action = .down
  ReviewService.decrementVotesInTx (upVotes.map fun v => v.relatedReview.text) .up 1
  ReviewService.decrementVotesInTx (downVotes.map fun v => v.relatedReview.text) .down 1

end VotesService

namespace UserDeletionService

def deleteOne (id : Text) : Async Unit := do
  transaction do
    let user ← UsersService.findOneByIdOrThrowTx id
    VotesService.revokeUserVotesOnReviewsTx id
    UsersService.deleteOneTx user
  UsersService.deleteUserFromCache id

end UserDeletionService

end RateWise
