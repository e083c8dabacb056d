import RateWise.FlowChart
import RateWise.Voting

set_option autoImplicit false

namespace RateWise

open Interleave

inductive DeletionPoint where
  | queued
  | finding
  | reading (user : Account)
  | subtractingUp (user : Account) (votes : List VoteSummary)
  | subtractingDown (user : Account) (votes : List VoteSummary)
  | removing (user : Account) (votes : List VoteSummary)
  | closing
  | undoing (error : Err)
  | forgetting
  | ended (result : Except Err Bool)

namespace Deletion

-- deleteOne returns nothing; true stands for its success.
def program (userId : Text) : Async Bool := do
  UserDeletionService.deleteOne userId
  return true

def revoked (votes : List VoteSummary) (action : VoteAction) : List Text :=
  (votes.filter fun v => v.action = action).map fun v => v.relatedReview.text

def orUndo {α : Type} (next : α → DeletionPoint) : Except Fault α → DeletionPoint
  | .ok reply => next reply
  | .error fault => .undoing (.queryFailed fault)

def found : Option Account → DeletionPoint
  | none => .undoing userNotFound
  | some user => .reading user

-- Lists without a vote of the kind need no UPDATE.
def subtractedUp (user : Account) (votes : List VoteSummary) : DeletionPoint :=
  if (revoked votes .down).length = 0 then .removing user votes else .subtractingDown user votes

def read (user : Account) (votes : List VoteSummary) : DeletionPoint :=
  if (revoked votes .up).length = 0 then subtractedUp user votes else .subtractingUp user votes

def chart (userId : Text) : DeletionPoint → Node Api Err Bool DeletionPoint
  | .queued => .beginTx (if validUUID userId then .finding else .undoing userNotFound)
  | .finding => .stmt (.sql (.findAccount userId)) (orUndo found)
  | .reading user => .stmt (.sql (.findVotesBy userId)) (orUndo (read user))
  | .subtractingUp user votes =>
      .stmt (.sql (.addVotes (revoked votes .up) .up (-1))) (orUndo fun _ => subtractedUp user votes)
  | .subtractingDown user votes =>
      .stmt (.sql (.addVotes (revoked votes .down) .down (-1))) (orUndo fun _ => .removing user votes)
  | .removing user _ => .stmt (.sql (.removeAccount user.id)) (orUndo fun _ => .closing)
  | .closing => .commitTx .forgetting
  | .undoing error => .rollbackTx (.ended (.error error))
  | .forgetting => .stmt (.cmd (.del (createUserCacheKey userId))) fun
      | .ok _ => .ended (.ok true)
      | .error fault => .ended (.error (.queryFailed fault))
  | .ended (.ok answer) => .done answer
  | .ended (.error error) => .throw error

def finishing (userId : Text) (body : Async Unit) : Async Bool :=
  Prog.bind (Prog.bind body.settled fun _ => UsersService.deleteUserFromCache userId) fun _ => pure true

theorem follows_program (userId : Text) : Follows (chart userId) (program userId) .queued := by
  have undone : ∀ error, Follows (chart userId) (.rollbackTx (.throw error)) (.undoing error) :=
    fun error => follows_rollback _ rfl rfl
  have forgotten : Follows (chart userId) (.bind (UsersService.deleteUserFromCache userId) fun _ => pure true) .forgetting :=
    follows_stmt _ rfl (fun _ => rfl) fun _ => rfl
  have removed : ∀ user votes, Follows (chart userId) (finishing userId (UsersService.deleteOneTx user)) (.removing user votes) :=
    fun user votes => follows_stmt _ rfl (fun _ => undone _) fun _ => follows_commit _ rfl forgotten
  have subtracted : ∀ user votes, Follows (chart userId) (finishing userId (Prog.bind
      (ReviewService.decrementVotesInTx (revoked votes .down) .down 1) fun _ => UsersService.deleteOneTx user))
      (subtractedUp user votes) := by
    intro user votes
    by_cases empty : (revoked votes .down).length = 0
    · have skipped : ReviewService.decrementVotesInTx (revoked votes .down) .down 1 = .done () := if_pos empty
      rw [skipped, subtractedUp, if_pos empty]
      exact removed user votes
    · have asked : ReviewService.decrementVotesInTx (revoked votes .down) .down 1 =
          sql (.addVotes (revoked votes .down) .down (-1)) := if_neg empty
      rw [asked, subtractedUp, if_neg empty]
      exact follows_stmt _ rfl (fun _ => undone _) fun _ => removed user votes
  simp only [program, UserDeletionService.deleteOne, UsersService.findOneByIdOrThrowTx, UsersService.validUuidOrThrow]
  refine follows_begin _ rfl ?_
  cases valid : validUUID userId with
  | false => exact undone _
  | true =>
      refine follows_stmt _ rfl (fun _ => undone _) fun (user : Option Account) => ?_
      cases user with
      | none => exact undone _
      | some user =>
          refine follows_stmt _ rfl (fun _ => undone _) fun (votes : List VoteSummary) => ?_
          show Follows _ (finishing userId (Prog.bind (Prog.bind
            (ReviewService.decrementVotesInTx (revoked votes .up) .up 1) fun _ =>
            ReviewService.decrementVotesInTx (revoked votes .down) .down 1) fun _ => UsersService.deleteOneTx user))
            (read user votes)
          by_cases empty : (revoked votes .up).length = 0
          · have skipped : ReviewService.decrementVotesInTx (revoked votes .up) .up 1 = .done () := if_pos empty
            rw [skipped, read, if_pos empty]
            exact subtracted user votes
          · have asked : ReviewService.decrementVotesInTx (revoked votes .up) .up 1 =
                sql (.addVotes (revoked votes .up) .up (-1)) := if_neg empty
            rw [asked, read, if_neg empty]
            exact follows_stmt _ rfl (fun _ => undone _) fun _ => subtracted user votes

end Deletion

end RateWise
