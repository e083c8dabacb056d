import RateWise.FlowChart
import RateWise.Voting

set_option autoImplicit false

namespace RateWise

open Interleave

namespace VotesResolver

def voteReview (reviewId : Text) (user : Uuid) (action : VoteAction) (row : Generated) : Async Bool := do
  VotesService.voteReview reviewId user action row
  return true

def deleteVote (reviewId : Text) (user : Uuid) : Async Bool := VotesService.deleteVote reviewId user

end VotesResolver

inductive Ballot where
  | cast (action : VoteAction) (row : Generated)
  | retract
deriving DecidableEq

structure VoteRequest where
  reviewId : Text
  valid : validUUID reviewId = true
  user : Uuid
  ballot : Ballot
deriving DecidableEq

inductive VotePoint where
  | queued
  | checking
  | opening
  | locking
  | looking
  | removing (vote : Vote)
  | lowering (vote : Vote)
  | adding (action : VoteAction) (row : Generated)
  | raising (action : VoteAction)
  | closing (answer : Bool)
  | undoing (error : Err)
  | ended (result : Except Err Bool)

namespace VoteRequest

def program (q : VoteRequest) : Async Bool :=
  match q.ballot with
  | .cast action row => VotesResolver.voteReview q.reviewId q.user action row
  | .retract => VotesResolver.deleteVote q.reviewId q.user

def key (q : VoteRequest) : Text := VotesService.lockKey q.user.text q.reviewId

def turnedAway (q : VoteRequest) : Bool :=
  match q.ballot with
  | .cast _ _ => true
  | .retract => false

def tried (q : VoteRequest) : Bool → VotePoint
  | true => .looking
  | false => .closing q.turnedAway

def found (q : VoteRequest) : Option Vote → VotePoint
  | none => match q.ballot with
    | .cast action row => .adding action row
    | .retract => .closing false
  | some previous => match q.ballot with
    | .cast action _ => if previous.action = action then .closing true else .removing previous
    | .retract => .removing previous

def lowered (q : VoteRequest) : VotePoint :=
  match q.ballot with
  | .cast action row => .adding action row
  | .retract => .closing true

def orUndo {α : Type} (next : α → VotePoint) : Except Fault α → VotePoint
  | .ok reply => next reply
  | .error fault => .undoing (.queryFailed fault)

def counted (missing present : VotePoint) (count : Nat) : VotePoint := if count = 0 then missing else present

-- Where the two kinds differ: voteReview checks the review inside its
-- transaction, deleteVote before it opens one.
def chart (q : VoteRequest) : VotePoint → Node Api Err Bool VotePoint
  | .queued => match q.ballot with
    | .cast _ _ => .beginTx .checking
    | .retract => .stmt (.sql (.countReviews q.reviewId)) fun
        | .ok count => counted (.ended (.error ReviewService.notFound)) .opening count
        | .error fault => .ended (.error (.queryFailed fault))
  | .checking => .stmt (.sql (.countReviews q.reviewId)) (orUndo (counted (.undoing ReviewService.notFound) .locking))
  | .opening => .beginTx .locking
  | .locking => .stmt (.tryLock q.key) (orUndo q.tried)
  | .looking => .stmt (.sql (.findVote q.reviewId q.user.text)) (orUndo q.found)
  | .removing vote => .stmt (.sql (.deleteVote vote.id)) (orUndo fun _ => .lowering vote)
  | .lowering vote => .stmt (.sql (.addVotes [q.reviewId] vote.action (-1))) (orUndo fun _ => q.lowered)
  | .adding action row => .stmt (.sql (.insertVote row action q.user.text q.reviewId)) (orUndo fun _ => .raising action)
  | .raising action => .stmt (.sql (.addVotes [q.reviewId] action 1)) (orUndo fun _ => .closing true)
  | .closing answer => .commitTx (.ended (.ok answer))
  | .undoing error => .rollbackTx (.ended (.error error))
  | .ended (.ok answer) => .done answer
  | .ended (.error error) => .throw error

theorem follows_program (q : VoteRequest) : Follows q.chart q.program .queued := by
  obtain ⟨reviewId, valid, user, ballot⟩ := q
  have undone : ∀ error, Follows (chart ⟨reviewId, valid, user, ballot⟩) (.rollbackTx (.throw error)) (.undoing error) :=
    fun error => follows_rollback _ rfl rfl
  have closed : ∀ answer, Follows (chart ⟨reviewId, valid, user, ballot⟩) (.commitTx (.done answer)) (.closing answer) :=
    fun answer => follows_commit _ rfl rfl
  cases ballot with
  | cast action row =>
      simp only [program, VotesResolver.voteReview, VotesService.voteReview, ReviewService.existsOrThrowTx,
        ReviewService.existsOrThrow, ReviewService.verifyUUidOrThrow, valid]
      refine follows_begin _ rfl (follows_stmt _ rfl (fun _ => undone _) fun (count : Nat) => ?_)
      cases count with
      | zero => exact undone _
      | succ others =>
          refine follows_stmt _ rfl (fun _ => undone _) fun (acquired : Bool) => ?_
          cases acquired with
          | false => exact closed true
          | true =>
              refine follows_stmt _ rfl (fun _ => undone _) fun (previous : Option Vote) => ?_
              cases previous with
              | none =>
                  refine follows_stmt _ rfl (fun _ => undone _) fun _ => ?_
                  exact follows_stmt _ rfl (fun _ => undone _) fun _ => closed true
              | some previous =>
                  show Follows _ (Prog.bind (Prog.settled (if previous.action = action then _ else _)) _)
                    (if previous.action = action then _ else _)
                  by_cases same : previous.action = action
                  · rw [if_pos same, if_pos same]
                    exact closed true
                  · rw [if_neg same, if_neg same]
                    refine follows_stmt _ rfl (fun _ => undone _) fun _ => ?_
                    refine follows_stmt _ rfl (fun _ => undone _) fun _ => ?_
                    refine follows_stmt _ rfl (fun _ => undone _) fun _ => ?_
                    exact follows_stmt _ rfl (fun _ => undone _) fun _ => closed true
  | retract =>
      simp only [program, VotesResolver.deleteVote, VotesService.deleteVote, ReviewService.existsOrThrow,
        ReviewService.verifyUUidOrThrow, valid]
      refine follows_stmt _ rfl (fun _ => rfl) fun (count : Nat) => ?_
      cases count with
      | zero => exact rfl
      | succ others =>
          refine follows_begin _ rfl (follows_stmt _ rfl (fun _ => undone _) fun (acquired : Bool) => ?_)
          cases acquired with
          | false => exact closed false
          | true =>
              refine follows_stmt _ rfl (fun _ => undone _) fun (previous : Option Vote) => ?_
              cases previous with
              | none => exact closed false
              | some previous =>
                  refine follows_stmt _ rfl (fun _ => undone _) fun _ => ?_
                  exact follows_stmt _ rfl (fun _ => undone _) fun _ => closed true

end VoteRequest

end RateWise
