import RateWise.Accounts
import RateWise.FlowChart

set_option autoImplicit false

namespace RateWise

open Interleave

inductive StatusPoint where
  | loading
  | resaving (user : Account)
  | opening (user : Account) (s : Sql)
  | writing (user : Account) (s : Sql)
  | closing (user : Account)
  | undoing (error : Err)
  | forgetting (user : Account)
  | ended (result : Except Err Unit)

-- A request that changes the status of an account: its checks on the loaded
-- account, the status it saves and the id it was given.
structure StatusChange where
  refusal : Account → Option Err
  status : AccountStatus
  userId : Text

namespace StatusChange

def program (q : StatusChange) : Async Unit := changeStatus q.refusal q.status q.userId

def loaded (q : StatusChange) : Option Account → StatusPoint
  | none => .ended (.error userNotFound)
  | some user => match q.refusal user with
    | some error => .ended (.error error)
    | none => .resaving { user with status := q.status }

def reread (user : Account) : Option Account → StatusPoint
  | none => .opening user (.insertAccount user)
  | some row =>
      if UsersService.changedColumns user row = .unchanged then .forgetting user
      else .opening user (.updateAccount user.id (UsersService.changedColumns user row))

def orFail {α : Type} (raise : Err → Err) (next : α → StatusPoint) : Except Fault α → StatusPoint
  | .ok reply => next reply
  | .error fault => .ended (.error (raise (.queryFailed fault)))

def orUndo {α : Type} (next : α → StatusPoint) : Except Fault α → StatusPoint
  | .ok reply => next reply
  | .error fault => .undoing (.queryFailed fault)

def chart (q : StatusChange) : StatusPoint → Node Api Err Unit StatusPoint
  | .loading =>
      if validUUID q.userId then .stmt (.sql (.findAccount q.userId)) (orFail (fun error => error) q.loaded) else .throw userNotFound
  | .resaving user => .stmt (.sql (.findAccount user.id.text)) (orFail UsersService.saveFailed (reread user))
  | .opening user s => .beginTx (.writing user s)
  | .writing user s => .stmt (.sql s) (orUndo fun _ => .closing user)
  | .closing user => .commitTx (.forgetting user)
  | .undoing error => .rollbackTx (.ended (.error (UsersService.saveFailed error)))
  | .forgetting user => .stmt (.cmd (.del (createUserCacheKey user.id.text))) (orFail UsersService.saveFailed fun _ => .ended (.ok ()))
  | .ended (.ok value) => .done value
  | .ended (.error error) => .throw error

def saving (user : Account) (body : Async Unit) : Async Unit :=
  Prog.catching (Prog.bind body fun _ => UsersService.deleteUserFromCache user.id.text)
    fun error => reject (UsersService.saveFailed error)

theorem follows_program (q : StatusChange) : Follows q.chart q.program .loading := by
  obtain ⟨refusal, status, userId⟩ := q
  have forgotten : ∀ user, Follows (chart ⟨refusal, status, userId⟩) (saving user (pure ())) (.forgetting user) :=
    fun user => follows_stmt _ rfl (fun _ => rfl) fun _ => rfl
  have inserted : ∀ user, Follows (chart ⟨refusal, status, userId⟩) (saving user (transaction (sql (.insertAccount user))))
      (.opening user (.insertAccount user)) := by
    intro user
    refine follows_begin _ rfl (follows_stmt _ rfl (fun _ => follows_rollback _ rfl rfl) fun _ => ?_)
    exact follows_commit _ rfl (forgotten user)
  have updated : ∀ user change, Follows (chart ⟨refusal, status, userId⟩)
      (saving user (transaction (sql (.updateAccount user.id change)))) (.opening user (.updateAccount user.id change)) := by
    intro user change
    refine follows_begin _ rfl (follows_stmt _ rfl (fun _ => follows_rollback _ rfl rfl) fun _ => ?_)
    exact follows_commit _ rfl (forgotten user)
  have saved : ∀ user, Follows (chart ⟨refusal, status, userId⟩) (UsersService.saveOne user) (.resaving user) := by
    intro user
    refine follows_stmt _ rfl (fun _ => rfl) fun (row : Option Account) => ?_
    cases row with
    | none => exact inserted user
    | some row =>
        show Follows _ (saving user (if UsersService.changedColumns user row = .unchanged then pure ()
          else transaction (sql (.updateAccount user.id (UsersService.changedColumns user row)))))
          (if UsersService.changedColumns user row = .unchanged then _ else _)
        by_cases same : UsersService.changedColumns user row = .unchanged
        · rw [if_pos same, if_pos same]
          exact forgotten user
        · rw [if_neg same, if_neg same]
          exact updated user _
  simp only [program, changeStatus, UsersService.findOneByIdOrThrow, UsersService.findOneById, UsersService.validUuidOrThrow]
  cases valid : validUUID userId with
  | false =>
      show (if validUUID userId then _ else _) = _
      rw [valid]
      rfl
  | true =>
      refine follows_stmt (orFail (fun error => error) (loaded ⟨refusal, status, userId⟩)) (by simp [chart, valid]) (fun _ => rfl) fun (user : Option Account) => ?_
      cases user with
      | none => exact rfl
      | some user =>
          show Follows _ (setStatusUnless refusal status user) (loaded ⟨refusal, status, userId⟩ (some user))
          cases verdict : refusal user with
          | some error =>
              simp only [setStatusUnless, loaded, verdict]
              exact rfl
          | none =>
              simp only [setStatusUnless, loaded, verdict]
              exact saved _

end StatusChange

end RateWise
