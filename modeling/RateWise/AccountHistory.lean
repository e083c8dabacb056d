import Mathlib.Data.List.Induction
import RateWise.AccountFlow
import RateWise.Integrity
import RateWise.Solo

set_option autoImplicit false

namespace RateWise

open Interleave
open ReadCommitted

abbrev AccountTx := ReadCommitted.Tx schema Int32

inductive AccountOperation where
  | signUp (input : SignUpInput) (row : Generated) (req : RequestContext)
  | requestAccountVerification (user : AuthenticatedUser) (jti : Text)
  | verifyAccount (tokenInUrl : Token)
  | suspendAccount (userId : Text)
  | reactivateAccount (userId : Text)
  | deleteAccount (tokenInUrl : Token)
deriving DecidableEq

def AccountOperation.program (config : AuthConfig) : AccountOperation → Async Unit
  | .signUp input row req => Prog.bind (AuthService.signUp input row req) fun _ => pure ()
  | .requestAccountVerification user jti => AuthService.requestAccountVerification config user jti
  | .verifyAccount token => AuthService.verifyAccount config token
  | .suspendAccount userId => ModerationService.suspendAccount userId
  | .reactivateAccount userId => ModerationService.reactivateAccount userId
  | .deleteAccount token => AuthService.deleteAccount config token

def newAccount (input : SignUpInput) (row : Generated) : Account :=
  ⟨row, input.username, input.email, input.passwordHash, [.reviewer, .creator], .pendingVerification⟩

section Served

variable {hashtext : Text → Int32}

theorem quiet_yields {α : Type} (post : α → Prop) (prog : Async α) (world : World) (quiet : prog.Quiet RedisOnly post) :
    Yields (engine hashtext) prog world none fun result left after =>
      left.db = world.db ∧ after = none ∧ ∀ value, result = .ok value → post value := by
  induction prog generalizing world with
  | done value =>
      refine ⟨rfl, rfl, fun other same => ?_⟩
      cases same
      exact quiet
  | throw error => exact ⟨rfl, rfl, nofun⟩
  | stmt s resume ih =>
      obtain ⟨command, onward⟩ := quiet
      cases s with
      | cmd c =>
          exact yields_send c resume world none _ (fun fault _ => ih (.error fault) world (onward _))
            fun reply store _ => ih (.ok reply) ⟨world.db, store⟩ (onward _)
      | _ => cases command
  | beginTx rest => cases quiet
  | commitTx rest => cases quiet
  | rollbackTx rest => cases quiet

theorem redis_yields (c : RedisCmd) (world : World) (answered : ∀ store fault, Redis.exec store c ≠ .error fault) :
    Yields (engine hashtext) (redis c) world none fun result left after =>
      (∃ value, result = .ok value) ∧ after = none ∧ left.db = world.db := by
  refine yields_cmd (S := schema) (C := Redis.commands) _ c world none _ (fun fault failed => ?_) fun reply store _ => ?_
  · exact absurd failed (answered _ _)
  · exact ⟨⟨reply, rfl⟩, rfl, rfl⟩

theorem delete_yields (key : Text) (world : World) :
    Yields (engine hashtext) (SessionsService.delete key) world none fun result left after =>
      result = .ok () ∧ after = none ∧ left.db = world.db := by
  refine yields_bind _ _ _ _ _ (yields_mono _ _ _ _ _ (redis_yields (.del _) world nofun) ?_)
  rintro result left after ⟨⟨value, rfl⟩, rfl, rows⟩
  exact ⟨rfl, rfl, rows⟩

theorem forget_yields (id : Text) (world : World) :
    Yields (engine hashtext) (UsersService.deleteUserFromCache id) world none fun result left after =>
      result = .ok () ∧ after = none ∧ left.db = world.db :=
  delete_yields (createUserCacheKey id) world

theorem save_yields (world : World) (row : Account) (status : AccountStatus) (distinct : AccountIds world.db)
    (stored : row ∈ world.db.accounts) (differs : status ≠ row.status) :
    Yields (engine hashtext) (UsersService.saveOne { row with status := status }) world none fun result left after =>
      result = .ok () ∧ after = none ∧ left.db.accounts = setStatus world.db.accounts row.id status := by
  have changed : UsersService.changedColumns { row with status := status } row = .statusOnly status := by
    rw [changed_status, if_neg differs]
  have updated : Yields (engine hashtext) (transaction (sql (.updateAccount row.id (.statusOnly status)))) world none
      fun result left after => result = .ok () ∧ after = none ∧
        left.db.accounts = setStatus world.db.accounts row.id status := by
    refine yields_mono _ _ _ _ _ (yields_in_tx _ world none (fun result after => result = .ok () ∧
      after.accounts = setStatus world.db.accounts row.id status) (in_tx_sql _ _ _ _ (fun fault refused => ?_) fun _ => ?_)) ?_
    · rw [show schema.refuses world.db (.updateAccount row.id (.statusOnly status)) = none from refuses_status _ _ _] at refused
      cases refused
    · refine ⟨rfl, ?_⟩
      show (view schema world.db (world.db.attempts (.updateAccount row.id (.statusOnly status)))).accounts = _
      rw [attempts_update world.db distinct row stored]
      rfl
    · rintro result left after ⟨rfl, -, holds⟩
      cases result with
      | ok value => exact ⟨rfl, rfl, holds.2⟩
      | error error =>
          obtain ⟨-, rows, impossible, -⟩ := holds
          cases impossible
  have saved : Yields (engine hashtext) (UsersService.saveEntity { row with status := status }) world none
      fun result left after => result = .ok () ∧ after = none ∧
        left.db.accounts = setStatus world.db.accounts row.id status := by
    have found : world.db.answer (.findAccount row.id.text) = some row :=
      finds_account world.db distinct _ row stored (uuid_in_text row.id)
    refine yields_bind _ _ _ _ _ (yields_sql _ (Sql.findAccount row.id.text) world _ (fun fault refused => ?_) fun _ => ?_)
    · simp [Tables.refuses, Sql.uuids, uuid_in_text, Tables.attempts] at refused
    · rw [show schema.answer world.db (.findAccount row.id.text) = some row from found]
      have written : (if UsersService.changedColumns { row with status := status } row = .unchanged then pure ()
          else transaction (sql (.updateAccount row.id (UsersService.changedColumns { row with status := status } row))) :
          Async Unit) = transaction (sql (.updateAccount row.id (.statusOnly status))) := by
        rw [changed, if_neg (status_only_unchanged status)]
      have rest := written.symm ▸ updated
      exact rest
  refine yields_catching _ _ _ _ _ (yields_bind _ _ _ _ _ (yields_mono _ _ _ _ _ saved ?_))
  rintro result left after ⟨rfl, rfl, accounts⟩
  refine yields_mono _ _ _ _ _ (forget_yields _ left) ?_
  rintro result last after ⟨rfl, rfl, rows⟩
  exact ⟨rfl, rfl, by rw [rows, accounts]⟩

def Admits (refusal : Account → Option Err) (userId : Text) (user : Account) : Prop :=
  validUUID userId = true ∧ uuidIn userId = some user.id ∧ refusal user = none

def Changes (refusal : Account → Option Err) (status : AccountStatus) (userId : Text) (before after : Tables)
    (result : Except Err Unit) : Prop :=
  (∃ user ∈ before.accounts, Admits refusal userId user ∧ result = .ok () ∧
    after.accounts = setStatus before.accounts user.id status) ∨
  ((∀ user ∈ before.accounts, ¬ Admits refusal userId user) ∧ (∃ error, result = .error error) ∧ after = before)

theorem change_status_yields (refusal : Account → Option Err) (status : AccountStatus) (userId : Text) (world : World)
    (distinct : AccountIds world.db) (differs : ∀ user, refusal user = none → status ≠ user.status) :
    Yields (engine hashtext) (changeStatus refusal status userId) world none fun result left after =>
      after = none ∧ Changes refusal status userId world.db left.db result := by
  cases valid : validUUID userId with
  | false =>
      have thrown : UsersService.findOneByIdOrThrow userId = .throw userNotFound := by
        simp only [UsersService.findOneByIdOrThrow, UsersService.findOneById, UsersService.validUuidOrThrow, valid]
        rfl
      rw [changeStatus, thrown]
      refine ⟨rfl, .inr ⟨fun user _ admits => ?_, ⟨_, rfl⟩, rfl⟩⟩
      rw [admits.1] at valid
      cases valid
  | true =>
      obtain ⟨u, parsed⟩ := valid_uuid_parses userId valid
      simp only [changeStatus, UsersService.findOneByIdOrThrow, UsersService.findOneById, UsersService.validUuidOrThrow, valid]
      refine yields_bind _ _ _ _ _ (yields_bind _ _ _ _ _ (yields_sql _ (Sql.findAccount userId) world _
        (fun fault refused => ?_) fun _ => ?_))
      · simp [Tables.refuses, Sql.uuids, parsed, Tables.attempts] at refused
      · cases found : world.db.answer (.findAccount userId) with
        | none =>
            rw [show schema.answer world.db (.findAccount userId) = none from found]
            refine ⟨rfl, .inr ⟨fun user stored admits => ?_, ⟨_, rfl⟩, rfl⟩⟩
            exact not_found_account world.db userId found user stored admits.2.1
        | some user =>
            obtain ⟨stored, same⟩ := found_account world.db userId user found
            have judged : Yields (engine hashtext) (setStatusUnless refusal status user) world none fun result left after =>
                after = none ∧ Changes refusal status userId world.db left.db result := by
              cases verdict : refusal user with
              | some error =>
                  simp only [setStatusUnless, verdict]
                  refine ⟨rfl, .inr ⟨fun other member admits => ?_, ⟨_, rfl⟩, rfl⟩⟩
                  have equal := same_account world.db distinct other user member stored
                    (Option.some.inj (admits.2.1.symm.trans same))
                  rw [equal, Admits, verdict] at admits
                  cases admits.2.2
              | none =>
                  simp only [setStatusUnless, verdict]
                  refine yields_mono _ _ _ _ _ (save_yields world user status distinct stored (differs user verdict)) ?_
                  rintro result left after ⟨rfl, rfl, accounts⟩
                  exact ⟨rfl, .inl ⟨user, stored, ⟨valid, same, verdict⟩, rfl, accounts⟩⟩
            rw [show schema.answer world.db (.findAccount userId) = some user from found]
            exact judged

theorem suspension_differs (user : Account) (passed : ModerationService.suspensionRefusal user = none) :
    AccountStatus.suspended ≠ user.status := by
  intro same
  have refused : ModerationService.suspensionRefusal user ≠ none := by
    unfold ModerationService.suspensionRefusal
    cases ModerationService.privileged user with
    | some error => exact nofun
    | none => simp [← same]
  exact refused passed

theorem reactivation_differs (user : Account) (passed : ModerationService.reactivationRefusal user = none) :
    AccountStatus.active ≠ user.status ∧ user.status = .suspended := by
  have suspended : user.status = .suspended := by
    by_contra other
    have refused : ModerationService.reactivationRefusal user ≠ none := by
      unfold ModerationService.reactivationRefusal
      cases ModerationService.privileged user with
      | some error => exact nofun
      | none => simp [other]
    exact refused passed
  exact ⟨by rw [suspended]; nofun, suspended⟩

theorem verification_differs (user : Account) (passed : AuthService.verificationRefusal user = none) :
    AccountStatus.active ≠ user.status := by
  intro same
  simp [AuthService.verificationRefusal, AuthService.accountIsNotAlreadyVerified, ← same] at passed

def Effect (config : AuthConfig) (op : AccountOperation) (before after : Tables) (result : Except Err Unit) : Prop :=
  match op with
  | .signUp input row _ =>
      (result = .ok () ∧ (∀ other ∈ before.accounts, other.id ≠ row.id) ∧
        after.accounts = before.accounts ++ [newAccount input row]) ∨
      ((∃ error, result = .error error) ∧ after = before)
  | .requestAccountVerification _ _ => after = before
  | .verifyAccount token =>
      (∃ payload, token.Passes config.accountVerificationToken payload ∧
        Changes AuthService.verificationRefusal .active payload.id before after result) ∨
      ((∃ error, result = .error error) ∧ after = before)
  | .suspendAccount userId => Changes ModerationService.suspensionRefusal .suspended userId before after result
  | .reactivateAccount userId => Changes ModerationService.reactivationRefusal .active userId before after result
  | .deleteAccount _ => after.accounts.Sublist before.accounts

theorem quiet_unchanged {α : Type} (post : α → Prop) (prog : Async α) (world : World) (quiet : prog.Quiet RedisOnly post)
    (goal : Except Err α → World → Option AccountTx → Prop)
    (reached : ∀ result store, (∀ value, result = .ok value → post value) → goal result ⟨world.db, store⟩ none) :
    Yields (engine hashtext) prog world none goal := by
  refine yields_mono _ _ _ _ _ (quiet_yields post prog world quiet) ?_
  rintro result ⟨db, store⟩ after ⟨same, rfl, holds⟩
  cases same
  exact reached result store holds

theorem session_yields (req : RequestContext) (userId : Text) (world : World) :
    Yields (engine hashtext) (SessionsService.create req userId) world none fun result left after =>
      result = .ok () ∧ after = none ∧ left.db = world.db := by
  refine yields_bind _ _ _ _ _ (yields_mono _ _ _ _ _ (delete_yields _ world) ?_)
  rintro result left after ⟨rfl, rfl, rows⟩
  refine yields_mono _ _ _ _ _ (redis_yields (.multiStoreSetAdd _ _ _ _) left nofun) ?_
  rintro result last after ⟨⟨value, rfl⟩, rfl, same⟩
  exact ⟨rfl, rfl, same.trans rows⟩

theorem created_yields (input : SignUpInput) (row : Generated) (world : World) :
    Yields (engine hashtext) (UsersService.createOne row input.username input.email input.passwordHash) world none
      fun result left after => after = none ∧
        ((result = .ok (newAccount input row) ∧ (∀ other ∈ world.db.accounts, other.id ≠ row.id) ∧
          left.db.accounts = world.db.accounts ++ [newAccount input row]) ∨
        ((∃ error, result = .error error) ∧ left.db = world.db)) := by
  have inside : InTx hashtext (sql (.insertAccount (newAccount input row))) world.db fun result after =>
      result = .ok () → (∀ other ∈ world.db.accounts, other.id ≠ row.id) ∧
        after.accounts = world.db.accounts ++ [newAccount input row] := by
    refine in_tx_sql (S := schema) (C := Redis.commands) _ (Sql.insertAccount (newAccount input row)) _ _
      (fun _ _ impossible => nomatch impossible) fun allowed _ => ?_
    refine ⟨fun other stored same => ?_, rfl⟩
    have unique : Tables.uniqueFault (world.db.accounts.any fun other => other.id = row.id ||
        other.username = input.username || other.email = input.email) = none := by
      have checked : world.db.violation (.insertAccount (newAccount input row)) = none := by
        have found : world.db.refuses (.insertAccount (newAccount input row)) = none := allowed
        simp only [Tables.refuses, Sql.uuids, List.all_nil, if_true, Tables.attempts, List.findSome?_cons,
          List.findSome?_nil] at found
        cases verdict : world.db.violation (.insertAccount (newAccount input row)) with
        | none => rfl
        | some fault => simp [verdict] at found
      exact checked
    have free := Tables.unique_fault_none _ unique
    rw [List.any_eq_false] at free
    exact free other stored (by simp [same])
  refine yields_catching _ _ _ _ _ (yields_bind _ _ _ _ _ (yields_mono _ _ _ _ _ (yields_in_tx _ world none _ inside) ?_))
  rintro result left after ⟨rfl, -, holds⟩
  cases result with
  | ok value => exact ⟨rfl, .inl ⟨rfl, holds rfl⟩⟩
  | error error => exact ⟨rfl, .inr ⟨⟨_, rfl⟩, holds.1⟩⟩

def Removing : Api.Stmt → Prop
  | .sql s => (∀ row, s ≠ .insertAccount row) ∧ ∀ id change, s ≠ .updateAccount id change
  | .tryLock _ => True
  | .cmd _ => False

theorem quiet_sql (s : Sql) (plain : Removing (.sql s)) : (sql s).Quiet Removing fun _ => True := by
  refine ⟨plain, fun reply => ?_⟩
  cases reply <;> trivial

theorem quiet_decrement (reviews : List Text) (action : VoteAction) :
    (ReviewService.decrementVotesInTx reviews action 1).Quiet Removing fun _ => True := by
  unfold ReviewService.decrementVotesInTx
  split
  · trivial
  · exact quiet_sql _ ⟨nofun, nofun⟩

theorem deletion_quiet (id : Text) : (do
    let user ← UsersService.findOneByIdOrThrowTx id
    VotesService.revokeUserVotesOnReviewsTx id
    UsersService.deleteOneTx user : Async Unit).Quiet Removing fun _ => True := by
  have found : (UsersService.findOneByIdOrThrowTx id).Quiet Removing fun _ => True := by
    refine Prog.quiet_bind _ (fun _ => True) _ _ _ ?_ fun _ _ => ?_
    · unfold UsersService.validUuidOrThrow
      split <;> trivial
    · refine Prog.quiet_bind _ _ _ _ _ (quiet_sql (.findAccount id) ⟨nofun, nofun⟩) fun (user : Option Account) _ => ?_
      cases user <;> trivial
  refine Prog.quiet_bind _ _ _ _ _ found fun user _ => ?_
  refine Prog.quiet_bind _ (fun _ => True) _ _ _ ?_ fun _ _ => quiet_sql (.removeAccount user.id) ⟨nofun, nofun⟩
  refine Prog.quiet_bind _ _ _ _ _ (quiet_sql (.findVotesBy id) ⟨nofun, nofun⟩) fun votes _ => ?_
  exact Prog.quiet_bind _ _ _ _ _ (quiet_decrement _ _) fun _ _ => quiet_decrement _ _

theorem removal_yields (id : Text) (world : World) :
    Yields (engine hashtext) (UserDeletionService.deleteOne id) world none fun _ left after =>
      after = none ∧ left.db.accounts.Sublist world.db.accounts := by
  have inside := @in_tx_quiet schema Redis.commands _ _ _ hashtext _ _ Removing (fun _ => True)
    (fun before after => after.accounts.Sublist before.accounts) (fun _ => List.Sublist.refl _)
    (fun _ _ _ first second => second.trans first) (fun s rows plain _ => accounts_shrink rows _ fun w member => ?_)
    (fun _ issued => issued) _ (deletion_quiet id) world.db
  · refine yields_bind _ _ _ _ _ (yields_mono _ _ _ _ _ (yields_in_tx _ world none _ inside) ?_)
    rintro result left after ⟨rfl, -, holds⟩
    cases result with
    | error error => exact ⟨rfl, by rw [holds.1]⟩
    | ok value =>
        refine yields_mono _ _ _ _ _ (forget_yields id left) ?_
        rintro result last after ⟨rfl, rfl, rows⟩
        exact ⟨rfl, by rw [rows]; exact holds.1⟩
  · have source := attempts_accounts rows s w member
    refine ⟨?_, ?_⟩
    · rintro row rfl
      exact plain.1 row source
    · rintro id change rfl
      exact plain.2 _ _ source.choose_spec

theorem swallowed_yields (prog : Async Unit) (world : World) (goal : Except Err Unit → World → Option AccountTx → Prop)
    (quiet : prog.Quiet RedisOnly fun _ => True) (reached : ∀ store, goal (.ok ()) ⟨world.db, store⟩ none) :
    Yields (engine hashtext) (Prog.catching prog fun _ => pure ()) world none goal := by
  refine yields_catching _ _ _ _ _ (quiet_unchanged _ prog world quiet _ fun result store _ => ?_)
  cases result with
  | ok value => exact reached store
  | error error => exact reached store

theorem account_operation_yields (config : AuthConfig) (op : AccountOperation) (world : World) (distinct : AccountIds world.db) :
    Yields (engine hashtext) (op.program config) world none fun result left after =>
      after = none ∧ Effect config op world.db left.db result := by
  cases op with
  | suspendAccount userId => exact change_status_yields _ _ userId world distinct suspension_differs
  | reactivateAccount userId =>
      exact change_status_yields _ _ userId world distinct fun user passed => (reactivation_differs user passed).1
  | signUp input row req =>
      refine yields_bind _ _ _ _ _ (yields_bind _ _ _ _ _ (yields_mono _ _ _ _ _ (created_yields input row world) ?_))
      rintro result left after ⟨rfl, ⟨rfl, fresh, accounts⟩ | ⟨⟨error, rfl⟩, same⟩⟩
      · refine yields_bind _ _ _ _ _ (yields_mono _ _ _ _ _ (session_yields req _ left) ?_)
        rintro result last after ⟨rfl, rfl, rows⟩
        have added : last.db.accounts = world.db.accounts ++ [newAccount input row] := by rw [rows, accounts]
        exact ⟨rfl, .inl ⟨rfl, fresh, added⟩⟩
      · exact ⟨rfl, .inr ⟨⟨error, rfl⟩, same⟩⟩
  | requestAccountVerification user jti =>
      have quiet : (AuthService.requestAccountVerification config user jti).Quiet RedisOnly fun _ => True := by
        unfold AuthService.requestAccountVerification
        split
        · trivial
        · exact Prog.quiet_bind _ _ _ _ _ (quiet_generate _ _ _) fun token _ => quiet_redis (.sendEmail ⟨user.email, token⟩)
      exact quiet_unchanged _ _ world quiet _ fun _ _ _ => ⟨rfl, rfl⟩
  | verifyAccount token =>
      refine yields_bind _ _ _ _ _ (quiet_unchanged _ _ world (quiet_verify_or_throw _ token) _ fun result store passes => ?_)
      cases result with
      | error error => exact ⟨rfl, .inr ⟨⟨error, rfl⟩, rfl⟩⟩
      | ok payload =>
          refine yields_bind _ _ _ _ _ (yields_mono _ _ _ _ _ (change_status_yields _ _ payload.id ⟨world.db, store⟩ distinct
            verification_differs) ?_)
          rintro result left after ⟨rfl, changes⟩
          cases result with
          | error error => exact ⟨rfl, .inl ⟨payload, passes payload rfl, changes⟩⟩
          | ok value =>
              exact swallowed_yields _ left _ (quiet_blacklist _ _) fun store => ⟨rfl, .inl ⟨payload, passes payload rfl, changes⟩⟩
  | deleteAccount token =>
      refine yields_bind _ _ _ _ _ (quiet_unchanged _ _ world (quiet_verify_or_throw _ token) _ fun result store _ => ?_)
      cases result with
      | error error => exact ⟨rfl, List.Sublist.refl _⟩
      | ok payload =>
          refine yields_bind _ _ _ _ _ (quiet_unchanged _ _ _ (quiet_blacklist _ _) _ fun result store _ => ?_)
          cases result with
          | error error => exact ⟨rfl, List.Sublist.refl _⟩
          | ok value =>
              refine yields_bind _ _ _ _ _ (yields_mono _ _ _ _ _ (removal_yields payload.id _) ?_)
              rintro result left after ⟨rfl, fewer⟩
              cases result with
              | error error => exact ⟨rfl, fewer⟩
              | ok value =>
                  have closed : (Prog.bind (SessionsService.deleteAll payload.id) fun _ => pure () : Async Unit).Quiet
                      RedisOnly fun _ => True := Prog.quiet_bind _ _ _ _ _ (quiet_delete_all _) fun _ _ => trivial
                  exact swallowed_yields _ left _ closed fun _ => ⟨rfl, fewer⟩

end Served

abbrev AccountHistory := List (AccountOperation × Except Err Unit)

def TokenFor (config : AuthConfig) (token : Token) (u : Uuid) : Prop :=
  ∃ payload, token.Passes config.accountVerificationToken payload ∧ uuidIn payload.id = some u

-- Since the account was created, a verifyAccount with a token for it succeeded.
def Verified (config : AuthConfig) (u : Uuid) : AccountHistory → Prop
  | [] => False
  | (.signUp _ row _, .ok _) :: rest => row.id ≠ u ∧ Verified config u rest
  | (.verifyAccount token, .ok _) :: rest => TokenFor config token u ∨ Verified config u rest
  | _ :: rest => Verified config u rest

def serveAccount (hashtext : Text → Int32) (config : AuthConfig) (state : World × AccountHistory)
    (next : Nat × AccountOperation) : World × AccountHistory :=
  let world : World := ⟨state.1.db, Redis.commands.drift state.1.store next.1⟩
  let served := (next.2.program config).solo (engine hashtext) world none
  (served.2.1, (next.2, served.1) :: state.2)

def serveAccounts (hashtext : Text → Int32) (config : AuthConfig) (store : Redis) (ops : List (Nat × AccountOperation)) :
    World × AccountHistory :=
  ops.foldl (serveAccount hashtext config) (⟨Tables.empty, store⟩, [])

section History

variable {hashtext : Text → Int32} {config : AuthConfig}

structure Registered (t : Tables) : Prop where
  distinct : AccountIds t
  roles : ∀ row ∈ t.accounts, row.roles = [.reviewer, .creator]

theorem serve_effect (state : World × AccountHistory) (next : Nat × AccountOperation) (distinct : AccountIds state.1.db) :
    ∃ result, (serveAccount hashtext config state next).2 = (next.2, result) :: state.2 ∧
      Effect config next.2 state.1.db (serveAccount hashtext config state next).1.db result :=
  ⟨_, rfl, (account_operation_yields config next.2 ⟨state.1.db, Redis.commands.drift state.1.store next.1⟩ distinct).2⟩

theorem changes_registered (refusal : Account → Option Err) (status : AccountStatus) (userId : Text) (before after : Tables)
    (result : Except Err Unit) (registered : Registered before) (changes : Changes refusal status userId before after result) :
    Registered after := by
  rcases changes with ⟨user, -, -, -, accounts⟩ | ⟨-, -, rfl⟩
  · refine ⟨account_ids_set_status before after user.id status registered.distinct accounts, fun row stored => ?_⟩
    rw [accounts] at stored
    obtain ⟨old, member, rfl⟩ := (mem_set_status _ _ _ _).mp stored
    have roles := registered.roles old member
    split <;> exact roles
  · exact registered

theorem effect_registered (op : AccountOperation) (before after : Tables) (result : Except Err Unit)
    (registered : Registered before) (effect : Effect config op before after result) : Registered after := by
  cases op with
  | signUp input row req =>
      rcases effect with ⟨-, fresh, accounts⟩ | ⟨-, rfl⟩
      · refine ⟨?_, fun other stored => ?_⟩
        · unfold AccountIds
          rw [accounts, List.pairwise_append]
          refine ⟨registered.distinct, List.pairwise_singleton _ _, fun a stored b member => ?_⟩
          rw [List.mem_singleton.mp member]
          exact fresh a stored
        · rw [accounts] at stored
          rcases List.mem_append.mp stored with old | new
          · exact registered.roles other old
          · rw [List.mem_singleton.mp new]
            rfl
      · exact registered
  | requestAccountVerification user jti =>
      cases effect
      exact registered
  | verifyAccount token =>
      rcases effect with ⟨payload, -, changes⟩ | ⟨-, rfl⟩
      · exact changes_registered _ _ _ _ _ _ registered changes
      · exact registered
  | suspendAccount userId => exact changes_registered _ _ _ _ _ _ registered effect
  | reactivateAccount userId => exact changes_registered _ _ _ _ _ _ registered effect
  | deleteAccount token =>
      exact ⟨registered.distinct.sublist effect, fun row stored => registered.roles row (effect.subset stored)⟩

def ActiveVerified (config : AuthConfig) (state : World × AccountHistory) : Prop :=
  ∀ row ∈ state.1.db.accounts, row.status = .active → Verified config row.id state.2

-- Before a reactivation, its suspended account has been verified.
def ReactivatesVerified (config : AuthConfig) (state : World × AccountHistory) : AccountOperation → Prop
  | .reactivateAccount userId => ∀ row ∈ state.1.db.accounts, validUUID userId = true → uuidIn userId = some row.id →
      row.status = .suspended → Verified config row.id state.2
  | _ => True

theorem reactivation_admits (userId : Text) (row : Account) (roles : row.roles = [.reviewer, .creator])
    (valid : validUUID userId = true) (target : uuidIn userId = some row.id) (suspended : row.status = .suspended) :
    Admits ModerationService.reactivationRefusal userId row :=
  ⟨valid, target, by simp [ModerationService.reactivationRefusal, ModerationService.privileged, roles, suspended]⟩

theorem verified_later (op : AccountOperation) (result : Except Err Unit) (history : AccountHistory) (u : Uuid)
    (before : Verified config u history) (other : ∀ input row req, op = .signUp input row req → row.id ≠ u) :
    Verified config u ((op, result) :: history) := by
  cases op with
  | signUp input row req =>
      cases result with
      | ok value => exact ⟨other input row req rfl, before⟩
      | error error => exact before
  | verifyAccount token =>
      cases result with
      | ok value => exact .inr before
      | error error => exact before
  | _ => cases result <;> exact before

theorem changes_active (state : World × AccountHistory) (op : AccountOperation) (after : Tables) (result : Except Err Unit)
    (refusal : Account → Option Err) (status : AccountStatus) (userId : Text) (held : ActiveVerified config state)
    (plain : ∀ input row req, op ≠ .signUp input row req) (changes : Changes refusal status userId state.1.db after result)
    (mine : ∀ user ∈ state.1.db.accounts, Admits refusal userId user → status = .active → result = .ok () →
      Verified config user.id ((op, result) :: state.2)) (row : Account) (stored : row ∈ after.accounts)
    (active : row.status = .active) : Verified config row.id ((op, result) :: state.2) := by
  have earlier : ∀ old ∈ state.1.db.accounts, old.status = .active → Verified config old.id ((op, result) :: state.2) :=
    fun old member was => verified_later op result state.2 old.id (held old member was) fun input row req same =>
      absurd same (plain input row req)
  rcases changes with ⟨user, member, admits, rfl, accounts⟩ | ⟨-, -, rfl⟩
  · rw [accounts] at stored
    obtain ⟨old, present, rfl⟩ := (mem_set_status _ _ _ _).mp stored
    by_cases same : old.id = user.id
    · rw [if_pos same] at active ⊢
      show Verified config old.id _
      rw [same]
      exact mine user member admits active rfl
    · rw [if_neg same] at active ⊢
      exact earlier old present active
  · exact earlier row stored active

theorem active_step (state : World × AccountHistory) (next : Nat × AccountOperation) (registered : Registered state.1.db)
    (held : ActiveVerified config state) (reactivates : ReactivatesVerified config state next.2) :
    ActiveVerified config (serveAccount hashtext config state next) := by
  obtain ⟨result, logged, effect⟩ := @serve_effect hashtext config state next registered.distinct
  intro row stored active
  rw [logged]
  generalize (serveAccount hashtext config state next).1.db = after at stored effect
  generalize next.2 = op at effect reactivates
  have earlier : row ∈ state.1.db.accounts → (∀ input new req, op = .signUp input new req → new.id ≠ row.id) →
      Verified config row.id ((op, result) :: state.2) :=
    fun member => verified_later op result state.2 row.id (held row member active)
  cases op with
  | signUp input new req =>
      rcases effect with ⟨rfl, fresh, accounts⟩ | ⟨⟨error, rfl⟩, rfl⟩
      · rw [accounts] at stored
        rcases List.mem_append.mp stored with old | added
        · exact ⟨Ne.symm (fresh row old), held row old active⟩
        · rw [List.mem_singleton.mp added] at active
          cases active
      · exact held row stored active
  | requestAccountVerification user jti =>
      cases effect
      exact earlier stored nofun
  | verifyAccount token =>
      rcases effect with ⟨payload, passes, changes⟩ | ⟨-, rfl⟩
      · refine changes_active state (.verifyAccount token) after result _ _ _ held nofun changes ?_ row stored active
        rintro user - admits - rfl
        exact .inl ⟨payload, passes, admits.2.1⟩
      · exact earlier stored nofun
  | suspendAccount userId =>
      refine changes_active state (.suspendAccount userId) after result _ _ _ held nofun effect ?_ row stored active
      exact fun _ _ _ impossible => nomatch impossible
  | reactivateAccount userId =>
      refine changes_active state (.reactivateAccount userId) after result _ _ _ held nofun effect ?_ row stored active
      rintro user member ⟨valid, target, passed⟩ - rfl
      exact reactivates user member valid target (reactivation_differs user passed).2
  | deleteAccount token => exact earlier (effect.subset stored) nofun

theorem reactivation_step (state : World × AccountHistory) (next : Nat × AccountOperation) (registered : Registered state.1.db)
    (held : ActiveVerified config (serveAccount hashtext config state next)) : ReactivatesVerified config state next.2 := by
  obtain ⟨result, logged, effect⟩ := @serve_effect hashtext config state next registered.distinct
  unfold ActiveVerified at held
  rw [logged] at held
  generalize (serveAccount hashtext config state next).1.db = after at held effect
  generalize next.2 = op at effect held
  cases op with
  | reactivateAccount userId =>
      intro row stored valid target suspended
      have admits := reactivation_admits userId row (registered.roles row stored) valid target suspended
      rcases effect with ⟨user, member, admitted, rfl, accounts⟩ | ⟨refused, -, -⟩
      · have same : row = user := same_account state.1.db registered.distinct row user stored member
          (Option.some.inj (target.symm.trans admitted.2.1))
        have changed : { row with status := .active } ∈ after.accounts := by
          rw [accounts]
          exact (mem_set_status _ _ _ _).mpr ⟨row, stored, by rw [same, if_pos rfl]⟩
        exact held { row with status := .active } changed rfl
      · exact absurd admits (refused row stored)
  | _ => trivial

theorem registered_after (store : Redis) (ops : List (Nat × AccountOperation)) :
    Registered (serveAccounts hashtext config store ops).1.db := by
  induction ops using List.reverseRecOn with
  | nil => exact ⟨.nil, nofun⟩
  | append_singleton early next ih =>
      rw [serveAccounts, List.foldl_append]
      obtain ⟨result, -, effect⟩ := @serve_effect hashtext config
        (serveAccounts hashtext config store early) next ih.distinct
      exact effect_registered next.2 _ _ result ih effect

-- In a run of operations every active account is verified exactly when every
-- reactivation of a suspended account comes after its verification.
theorem active_accounts_verified_iff (store : Redis) (ops : List (Nat × AccountOperation)) :
    (∀ early, early <+: ops → ActiveVerified config (serveAccounts hashtext config store early)) ↔
    ∀ early next late, ops = early ++ next :: late →
      ReactivatesVerified config (serveAccounts hashtext config store early) next.2 := by
  have onward : ∀ early next, serveAccounts hashtext config store (early ++ [next]) =
      serveAccount hashtext config (serveAccounts hashtext config store early) next := by
    intro early next
    rw [serveAccounts, List.foldl_append]
    rfl
  constructor
  · rintro held early next late rfl
    refine @reactivation_step hashtext config _ next (registered_after store early) ?_
    rw [← onward]
    exact held (early ++ [next]) ⟨late, by simp⟩
  · intro reactivates early
    induction early using List.reverseRecOn with
    | nil => exact fun _ => nofun
    | append_singleton early next ih =>
        rintro ⟨late, rfl⟩
        rw [onward]
        refine active_step _ next (registered_after store early) (ih ⟨next :: late, by simp⟩) ?_
        exact reactivates early next late (by simp)

end History

def memberText : Text := "44444444-4444-4444-8444-444444444444".toList

def member : Uuid := ⟨memberText, by decide⟩

def moderationConfig : AuthConfig := ⟨"verify".toList, 3600, "delete".toList, 3600⟩

def unverifiedSuspension : List (Nat × AccountOperation) :=
  [(0, .signUp ⟨"member".toList, "m@x".toList, []⟩ ⟨member, 0⟩ ⟨"s0".toList, "s1".toList⟩),
    (5, .suspendAccount memberText), (7, .reactivateAccount memberText)]

-- A moderator suspends and reactivates an account that was never verified.
theorem reactivation_activates_unverified : ¬ ∀ (hashtext : Text → Int32) (config : AuthConfig) (store : Redis)
    (ops : List (Nat × AccountOperation)), ActiveVerified config (serveAccounts hashtext config store ops) := by
  intro claim
  have active := claim (fun _ => 0) moderationConfig Redis.empty unverifiedSuspension
  have stored : ∃ row ∈ (serveAccounts (fun _ => 0) moderationConfig Redis.empty unverifiedSuspension).1.db.accounts,
      row.status = .active := by decide
  have unverified : ∀ u, ¬ Verified moderationConfig u
      (serveAccounts (fun _ => 0) moderationConfig Redis.empty unverifiedSuspension).2 := fun u verified => verified.2
  obtain ⟨row, present, status⟩ := stored
  exact unverified row.id (active row present status)

end RateWise
