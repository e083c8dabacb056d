import RateWise.Tables

set_option autoImplicit false

namespace RateWise

-- The SQL statements of the services. A Text parameter is compared with a
-- uuid column and is parsed by the server; a Uuid one came from the database.
inductive Sql where
  | countReviews (id : Text)
  | findVote (relatedReview createdBy : Text)
  | findVotesBy (createdBy : Text)
  | deleteVote (id : Uuid)
  | addVotes (reviews : List Text) (action : VoteAction) (value : Int)
  | insertVote (row : Generated) (action : VoteAction) (createdBy relatedReview : Text)
  | refreshReviewVotes
  | findAccount (id : Text)
  | findAccountByEmail (email : Text)
  | insertAccount (row : Account)
  | updateAccount (id : Uuid) (change : AccountChange)
  | removeAccount (id : Uuid)
  | findItem (id : Text)
  | insertItem (row : Generated) (title description category : Text) (tags : List Text) (createdBy : Text)
  | insertReview (row : Generated) (content : Text) (rating : Int) (createdBy relatedItem : Text)
  | removeAccountsExcept (email : Text)
  | findAccountIdsExcept (email : Text)
  | findItemsMeta
  | findReviewIds
deriving DecidableEq

-- select: ['relatedReview', 'action']
structure VoteSummary where
  relatedReview : Uuid
  action : VoteAction
deriving DecidableEq

-- select: { id: true, createdBy: true }
structure ItemMeta where
  id : Uuid
  createdBy : Uuid
deriving DecidableEq

@[reducible] def Sql.Answer : Sql → Type
  | .countReviews _ => Nat
  | .findVote _ _ => Option Vote
  | .findVotesBy _ => List VoteSummary
  | .findAccount _ => Option Account
  | .findAccountByEmail _ => Option Account
  | .findItem _ => Option Item
  | .findAccountIdsExcept _ => List Uuid
  | .findItemsMeta => List ItemMeta
  | .findReviewIds => List Uuid
  | _ => Unit

inductive Fault where
  | uniqueViolation
  | foreignKeyViolation
  | checkViolation
  | numericOutOfRange
  | invalidText
  | deadlock
  | unavailable
deriving DecidableEq, Repr

def Sql.uuids : Sql → List Text
  | .countReviews id => [id]
  | .findVote review user => [review, user]
  | .findVotesBy user => [user]
  | .addVotes reviews _ _ => reviews
  | .insertVote _ _ user review => [user, review]
  | .findAccount id => [id]
  | .findItem id => [id]
  | .insertItem _ _ _ _ _ user => [user]
  | .insertReview _ _ _ user item => [user, item]
  | _ => []

def voteRow (row : Generated) (action : VoteAction) (createdBy relatedReview : Text) : Option Vote := do
  return ⟨row, action, ← uuidIn createdBy, ← uuidIn relatedReview⟩

def itemRow (row : Generated) (title description category : Text) (tags : List Text) (createdBy : Text) :
    Option Item := do
  return ⟨row, title, description, category, tags, ← uuidIn createdBy⟩

def reviewRow (row : Generated) (content : Text) (rating : Int) (createdBy relatedItem : Text) :
    Option Review := do
  return ⟨row, content, rating, 0, 0, ← uuidIn createdBy, ← uuidIn relatedItem⟩

namespace Tables

def stale (t : Tables) (review : Review) : Bool :=
  review.upVotes ≠ t.countVotes review.id .up || review.downVotes ≠ t.countVotes review.id .down

def cascade (t : Tables) (account : Uuid) : List Write :=
  (t.cascadeVotes account).map .deleteVote ++ (t.cascadeReviews account).map .deleteReview ++
    (t.cascadeItems account).map .deleteItem

def itemsOf (t : Tables) (accounts : List Account) : List Item :=
  t.items.filter fun row => ∃ account ∈ accounts, account.id = row.createdBy

def reviewsOf (t : Tables) (accounts : List Account) : List Review :=
  t.reviews.filter fun row => (∃ account ∈ accounts, account.id = row.createdBy) ∨
    ∃ item ∈ t.itemsOf accounts, item.id = row.relatedItem

def votesOf (t : Tables) (accounts : List Account) : List Vote :=
  t.votes.filter fun row => (∃ account ∈ accounts, account.id = row.createdBy) ∨
    ∃ review ∈ t.reviewsOf accounts, review.id = row.relatedReview

def removeAll (t : Tables) (accounts : List Account) : List Write :=
  (t.votesOf accounts).map .deleteVote ++ (t.reviewsOf accounts).map .deleteReview ++
    (t.itemsOf accounts).map .deleteItem ++ accounts.map .deleteAccount

-- The row changes of a statement in the rows it sees.
def attempts (t : Tables) : Sql → List Write
  | .deleteVote id => (t.votes.filter fun row => row.id = id).map .deleteVote
  | .addVotes reviews action value =>
      (t.reviews.filter fun row => row.id ∈ reviews.filterMap uuidIn).map fun row => .addVotes row.id action value
  | .insertVote row action user review => (voteRow row action user review).toList.map .insertVote
  | .refreshReviewVotes => (t.reviews.filter t.stale).map fun row =>
      .setVotes row.id (t.countVotes row.id .up) (t.countVotes row.id .down)
  | .insertAccount row => [.insertAccount row]
  | .updateAccount id change => (t.accounts.filter fun row => row.id = id).map fun row => .updateAccount row.id change
  | .removeAccount id => match t.accounts.filter fun row => row.id = id with
      | [] => []
      | rows => t.cascade id ++ rows.map .deleteAccount
  | .insertItem row title description category tags user =>
      (itemRow row title description category tags user).toList.map .insertItem
  | .insertReview row content rating user item => (reviewRow row content rating user item).toList.map .insertReview
  | .removeAccountsExcept email => t.removeAll (t.accounts.filter fun row => row.email ≠ email)
  | _ => []

def maxInteger : Int := 2147483647

def counterFault (value : Int) : Option Fault :=
  if value < 0 then some .checkViolation
  else if maxInteger < value then some .numericOutOfRange
  else none

def parentFault (present : Bool) : Option Fault := if present then none else some .foreignKeyViolation

def uniqueFault (taken : Bool) : Option Fault := if taken then some .uniqueViolation else none

def itemChecks (row : Item) : Bool :=
  decide (5 ≤ row.title.length ∧ row.title.length ≤ 40) &&
  decide (5 ≤ row.description.length ∧ row.description.length ≤ 500) &&
  decide (3 ≤ row.category.length ∧ row.category.length ≤ 40) &&
  decide (row.tags.length ≤ 10) && row.tags.all fun tag => decide (2 ≤ tag.length ∧ tag.length ≤ 20)

def reviewChecks (row : Review) : Bool :=
  decide (10 ≤ row.content.length ∧ row.content.length ≤ 2000) && decide (0 ≤ row.rating ∧ row.rating ≤ 10)

def checkFault (met : Bool) : Option Fault := if met then none else some .checkViolation

-- The constraints of the migrations on one row change: CHECK and the integer
-- range, then the unique indexes, then the foreign keys. The CHECKs of account
-- are left open here, so that any row may be stored.
def violation (t : Tables) : Write → Option Fault
  | .insertVote row =>
      uniqueFault (t.votes.any fun other => other.id = row.id ||
        (other.createdBy = row.createdBy && other.relatedReview = row.relatedReview)) <|>
      parentFault (t.accounts.any fun account => account.id = row.createdBy) <|>
      parentFault (t.reviews.any fun review => review.id = row.relatedReview)
  | .addVotes id action value =>
      t.reviews.findSome? fun row => if row.id = id then counterFault (row.votes action + value) else none
  | .setVotes _ up down => counterFault up <|> counterFault down
  | .insertAccount row =>
      uniqueFault (t.accounts.any fun other =>
        other.id = row.id || other.username = row.username || other.email = row.email)
  | .updateAccount id change =>
      uniqueFault (t.accounts.any fun other => other.id ≠ id &&
        (change.username = some other.username || change.email = some other.email))
  | .insertItem row =>
      checkFault (itemChecks row) <|>
      uniqueFault (t.items.any fun other => other.id = row.id ||
        (other.createdBy = row.createdBy && other.title = row.title)) <|>
      parentFault (t.accounts.any fun account => account.id = row.createdBy)
  | .insertReview row =>
      checkFault (reviewChecks row) <|>
      uniqueFault (t.reviews.any fun other => other.id = row.id ||
        (other.createdBy = row.createdBy && other.relatedItem = row.relatedItem)) <|>
      parentFault (t.accounts.any fun account => account.id = row.createdBy) <|>
      parentFault (t.items.any fun item => item.id = row.relatedItem)
  | _ => none

def refuses (t : Tables) (s : Sql) : Option Fault :=
  if s.uuids.all fun text => (uuidIn text).isSome then (t.attempts s).findSome? t.violation
  else some .invalidText

def answer (t : Tables) : (s : Sql) → s.Answer
  | .countReviews id => t.reviews.countP fun row => some row.id = uuidIn id
  | .findVote review user => t.votes.find? fun row =>
      some row.relatedReview = uuidIn review && some row.createdBy = uuidIn user
  | .findVotesBy user => (t.votes.filter fun row => some row.createdBy = uuidIn user).map fun row =>
      ⟨row.relatedReview, row.action⟩
  | .findAccount id => t.accounts.find? fun row => some row.id = uuidIn id
  | .findAccountByEmail email => t.accounts.find? fun row => row.email = email
  | .findItem id => t.items.find? fun row => some row.id = uuidIn id
  | .deleteVote _ => ()
  | .addVotes _ _ _ => ()
  | .insertVote _ _ _ _ => ()
  | .refreshReviewVotes => ()
  | .insertAccount _ => ()
  | .updateAccount _ _ => ()
  | .removeAccount _ => ()
  | .insertItem _ _ _ _ _ _ => ()
  | .insertReview _ _ _ _ _ => ()
  | .removeAccountsExcept _ => ()
  | .findAccountIdsExcept email => (t.accounts.filter fun row => row.email ≠ email).map fun row => row.id
  | .findItemsMeta => t.items.map fun row => ⟨row.id, row.createdBy⟩
  | .findReviewIds => t.reviews.map fun row => row.id

end Tables

@[reducible] def schema : ReadCommitted.Schema where
  Db := Tables
  Write := Write
  Resource := Resource
  Sql := Sql
  Answer := Sql.Answer
  Fault := Fault
  decResource := inferInstance
  apply := Tables.apply
  claims := Write.claims
  attempts := Tables.attempts
  refuses := Tables.refuses
  answer := Tables.answer

end RateWise
