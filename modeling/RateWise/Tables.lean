import RateWise.ReadCommitted
import RateWise.Uuid

set_option autoImplicit false

namespace RateWise

open ReadCommitted (Mode)

inductive VoteAction where
  | up
  | down
deriving DecidableEq, Repr

instance everyActionDecidable (p : VoteAction → Prop) [∀ action, Decidable (p action)] : Decidable (∀ action, p action) :=
  decidable_of_iff (p .up ∧ p .down) ⟨fun both action => by cases action; exacts [both.1, both.2], fun all => ⟨all _, all _⟩⟩

inductive AccountStatus where
  | active
  | pendingVerification
  | suspended
deriving DecidableEq, Repr

inductive UserRole where
  | reviewer
  | creator
  | moderator
  | admin
deriving DecidableEq, Repr

-- The column defaults gen_random_uuid() and CURRENT_TIMESTAMP of a new row.
structure Generated where
  id : Uuid
  createdAt : Nat
deriving DecidableEq

structure Account extends Generated where
  username : Text
  email : Text
  passwordHash : Text
  roles : List UserRole
  status : AccountStatus
deriving DecidableEq

structure Item extends Generated where
  title : Text
  description : Text
  category : Text
  tags : List Text
  createdBy : Uuid
deriving DecidableEq

structure Review extends Generated where
  content : Text
  rating : Int
  upVotes : Int
  downVotes : Int
  createdBy : Uuid
  relatedItem : Uuid
deriving DecidableEq

structure Vote extends Generated where
  action : VoteAction
  createdBy : Uuid
  relatedReview : Uuid
deriving DecidableEq

structure Tables where
  accounts : List Account
  items : List Item
  reviews : List Review
  votes : List Vote
deriving DecidableEq

def Tables.empty : Tables := ⟨[], [], [], []⟩

def Review.votes (review : Review) : VoteAction → Int
  | .up => review.upVotes
  | .down => review.downVotes

def Review.addVotes (review : Review) : VoteAction → Int → Review
  | .up, value => { review with upVotes := review.upVotes + value }
  | .down, value => { review with downVotes := review.downVotes + value }

-- The columns an UPDATE of account sets; the others keep their value.
structure AccountChange where
  username : Option Text
  email : Option Text
  passwordHash : Option Text
  roles : Option (List UserRole)
  status : Option AccountStatus
deriving DecidableEq

def AccountChange.unchanged : AccountChange := ⟨none, none, none, none, none⟩

def AccountChange.apply (change : AccountChange) (row : Account) : Account :=
  { row with
    username := change.username.getD row.username
    email := change.email.getD row.email
    passwordHash := change.passwordHash.getD row.passwordHash
    roles := change.roles.getD row.roles
    status := change.status.getD row.status }

inductive Write where
  | insertAccount (row : Account)
  | updateAccount (id : Uuid) (change : AccountChange)
  | deleteAccount (row : Account)
  | insertItem (row : Item)
  | deleteItem (row : Item)
  | insertReview (row : Review)
  | addVotes (review : Uuid) (action : VoteAction) (value : Int)
  | setVotes (review : Uuid) (upVotes downVotes : Int)
  | deleteReview (row : Review)
  | insertVote (row : Vote)
  | deleteVote (row : Vote)
deriving DecidableEq

def Tables.apply (t : Tables) : Write → Tables
  | .insertAccount row => { t with accounts := t.accounts ++ [row] }
  | .updateAccount id change =>
      { t with accounts := t.accounts.map fun row => if row.id = id then change.apply row else row }
  | .deleteAccount row => { t with accounts := t.accounts.filter fun other => other.id ≠ row.id }
  | .insertItem row => { t with items := t.items ++ [row] }
  | .deleteItem row => { t with items := t.items.filter fun other => other.id ≠ row.id }
  | .insertReview row => { t with reviews := t.reviews ++ [row] }
  | .addVotes id action value =>
      { t with reviews := t.reviews.map fun row => if row.id = id then row.addVotes action value else row }
  | .setVotes id up down =>
      { t with reviews := t.reviews.map fun row =>
          if row.id = id then { row with upVotes := up, downVotes := down } else row }
  | .deleteReview row => { t with reviews := t.reviews.filter fun other => other.id ≠ row.id }
  | .insertVote row => { t with votes := t.votes ++ [row] }
  | .deleteVote row => { t with votes := t.votes.filter fun other => other.id ≠ row.id }

-- What a row change locks: the row, the entries of the unique indexes and,
-- for the foreign keys of a new row, the key of each parent.
inductive Resource where
  | account (id : Uuid)
  | username (name : Text)
  | email (address : Text)
  | item (id : Uuid)
  | itemOwnerTitle (owner : Uuid) (title : Text)
  | review (id : Uuid)
  | reviewOwnerItem (owner item : Uuid)
  | vote (id : Uuid)
  | voteOwnerReview (owner review : Uuid)
deriving DecidableEq

def Write.claims : Write → List (Resource × Mode)
  | .insertAccount row => [(.account row.id, .update), (.username row.username, .update), (.email row.email, .update)]
  | .updateAccount id change => (.account id, .noKeyUpdate) ::
      ((change.username.map fun name => (.username name, .update)).toList ++
        (change.email.map fun address => (.email address, .update)).toList)
  | .deleteAccount row => [(.account row.id, .update), (.username row.username, .update), (.email row.email, .update)]
  | .insertItem row => [(.item row.id, .update), (.itemOwnerTitle row.createdBy row.title, .update),
      (.account row.createdBy, .keyShare)]
  | .deleteItem row => [(.item row.id, .update), (.itemOwnerTitle row.createdBy row.title, .update)]
  | .insertReview row => [(.review row.id, .update), (.reviewOwnerItem row.createdBy row.relatedItem, .update),
      (.account row.createdBy, .keyShare), (.item row.relatedItem, .keyShare)]
  | .addVotes id _ _ => [(.review id, .noKeyUpdate)]
  | .setVotes id _ _ => [(.review id, .noKeyUpdate)]
  | .deleteReview row => [(.review row.id, .update), (.reviewOwnerItem row.createdBy row.relatedItem, .update)]
  | .insertVote row => [(.vote row.id, .update), (.voteOwnerReview row.createdBy row.relatedReview, .update),
      (.account row.createdBy, .keyShare), (.review row.relatedReview, .keyShare)]
  | .deleteVote row => [(.vote row.id, .update), (.voteOwnerReview row.createdBy row.relatedReview, .update)]

-- The number of stored votes of one kind on a review, the value that its
-- denormalised counter stands for.
def Tables.countVotes (t : Tables) (review : Uuid) (action : VoteAction) : Nat :=
  t.votes.countP fun v => decide (v.relatedReview = review ∧ v.action = action)

-- ON DELETE CASCADE from an account: its items, the reviews it wrote and
-- those on its items, the votes it cast and those on these reviews.
def Tables.cascadeItems (t : Tables) (account : Uuid) : List Item :=
  t.items.filter fun row => row.createdBy = account

def Tables.cascadeReviews (t : Tables) (account : Uuid) : List Review :=
  t.reviews.filter fun row => row.createdBy = account ∨ ∃ item ∈ t.cascadeItems account, item.id = row.relatedItem

def Tables.cascadeVotes (t : Tables) (account : Uuid) : List Vote :=
  t.votes.filter fun row => row.createdBy = account ∨ ∃ review ∈ t.cascadeReviews account, review.id = row.relatedReview

theorem filter_key {α κ : Type} [DecidableEq κ] (key : α → κ) (rows : List α) (row : α) (stored : row ∈ rows)
    (distinct : rows.Pairwise fun a b => key a ≠ key b) : rows.filter (fun other => key other = key row) = [row] := by
  induction rows with
  | nil => cases stored
  | cons head rest ih =>
      obtain ⟨apart, tail⟩ := List.pairwise_cons.mp distinct
      rcases List.mem_cons.mp stored with rfl | later
      · rw [List.filter_cons_of_pos (by simp)]
        congr
        exact List.filter_eq_nil_iff.mpr fun other member => by simpa using Ne.symm (apart other member)
      · rw [List.filter_cons_of_neg (by simpa using apart row later)]
        exact ih later tail

end RateWise
