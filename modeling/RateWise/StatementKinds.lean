import RateWise.AccountHistory
import RateWise.RowRules
import RateWise.Seeding

set_option autoImplicit false

namespace RateWise

open Interleave
open ReadCommitted

def Sql.storesAccounts : Sql → Bool
  | .insertAccount _ => true
  | .updateAccount _ _ => true
  | _ => false

def Sql.storesContent : Sql → Bool
  | .insertItem _ _ _ _ _ _ => true
  | .insertReview _ _ _ _ _ => true
  | _ => false

def Sql.stores (s : Sql) : Bool := s.storesAccounts || s.storesContent

def Leaves (kind : Sql → Bool) : Api.Stmt → Prop
  | .sql s => kind s = false
  | _ => True

theorem leaves_accounts {α : Type} (prog : Async α) (leaves : prog.Sends (Leaves Sql.stores)) :
    prog.Sends (Leaves Sql.storesAccounts) := by
  refine sends_mono _ _ prog leaves fun s plain => ?_
  cases s with
  | sql q => exact (Bool.or_eq_false_iff.mp plain).1
  | _ => trivial

theorem leaves_content {α : Type} (prog : Async α) (leaves : prog.Sends (Leaves Sql.stores)) :
    prog.Sends (Leaves Sql.storesContent) := by
  refine sends_mono _ _ prog leaves fun s plain => ?_
  cases s with
  | sql q => exact (Bool.or_eq_false_iff.mp plain).2
  | _ => trivial

section Kinds

variable (kind : Sql → Bool)

theorem plain_leaves (s : Sql) (plain : kind s = false) : (sql s).Sends (Leaves kind) :=
  ⟨plain, fun reply => by cases reply <;> trivial⟩

theorem leaves_redis {α : Type} (post : α → Prop) (prog : Async α) (quiet : prog.Quiet RedisOnly post) :
    prog.Sends (Leaves kind) := by
  refine sends_quiet _ _ _ prog quiet fun s command => ?_
  cases s with
  | cmd c => trivial
  | _ => cases command

theorem create_session_leaves (req : RequestContext) (userId : Text) :
    (SessionsService.create req userId).Sends (Leaves kind) := by
  refine sends_bind _ _ _ (leaves_redis _ _ _ (quiet_delete _)) fun _ => ⟨trivial, fun reply => ?_⟩
  cases reply <;> trivial

theorem leaves_reject_if (met : Bool) (error : Err) : (rejectIf met error).Sends (Leaves kind) := by
  unfold rejectIf
  split <;> trivial

theorem leaves_for_each {α : Type} (body : α → Async Unit) (xs : List α) (leaves : ∀ x, (body x).Sends (Leaves kind)) :
    (forEach body xs).Sends (Leaves kind) := by
  induction xs with
  | nil => trivial
  | cons x rest ih => exact sends_bind _ _ _ (leaves x) fun _ => ih

end Kinds

section Requests

theorem user_ids_leave (adminEmail : Text) : (SeedService.getUserIdsOrThrow adminEmail).Sends (Leaves Sql.stores) :=
  sends_bind _ _ _ (plain_leaves _ _ rfl) fun _ => sends_bind _ _ _ (leaves_reject_if _ _ _) fun _ => trivial

theorem reviews_ids_leave : SeedService.getReviewsIdsOrThrow.Sends (Leaves Sql.stores) :=
  sends_bind _ _ _ (plain_leaves _ _ rfl) fun _ => sends_bind _ _ _ (leaves_reject_if _ _ _) fun _ => trivial

theorem seed_votes_leave (adminEmail : Text) (draws : SeedDraws) (maxVotes : Nat) :
    (SeedService.createVotes adminEmail draws maxVotes).Sends (Leaves Sql.stores) := by
  refine sends_bind _ _ _ (user_ids_leave adminEmail) fun usersIds => sends_bind _ _ _ reviews_ids_leave fun reviewsIds => ?_
  refine sends_bind _ _ _ (leaves_for_each _ _ _ fun pair => sends_transaction _ _ (plain_leaves _ _ rfl)) fun _ => ?_
  exact plain_leaves _ _ rfl

theorem find_item_leaves (id : Text) : (ItemsService.findOneByIdOrThrow id).Sends (Leaves Sql.stores) := by
  unfold ItemsService.findOneByIdOrThrow
  split
  · trivial
  · refine sends_bind _ _ _ (plain_leaves _ _ rfl) fun (found : Option Item) => ?_
    cases found <;> trivial

theorem exists_leaves (reviewId : Text) : (ReviewService.existsOrThrow reviewId).Sends (Leaves Sql.stores) := by
  refine sends_bind _ _ _ ?_ fun _ => sends_bind _ _ _ (plain_leaves _ _ rfl) fun count => ?_
  · unfold ReviewService.verifyUUidOrThrow
    split <;> trivial
  · split <;> trivial

theorem lock_leaves (userId reviewId : Text) : (VotesService.acquireVoteLock userId reviewId).Sends (Leaves Sql.stores) :=
  ⟨trivial, fun reply => by cases reply <;> trivial⟩

theorem remove_vote_leaves (vote : Vote) (reviewId : Text) :
    (VotesService.deleteVoteAndUpdateReviewTx vote reviewId).Sends (Leaves Sql.stores) :=
  sends_bind _ _ _ (plain_leaves _ _ rfl) fun _ => plain_leaves _ _ rfl

theorem vote_leaves (reviewId : Text) (user : Uuid) (action : VoteAction) (row : Generated) :
    (VotesService.voteReview reviewId user action row).Sends (Leaves Sql.stores) := by
  have placed : (Prog.bind (sql (.insertVote row action user.text reviewId)) fun _ =>
      ReviewService.incrementVotesTx reviewId action 1).Sends (Leaves Sql.stores) :=
    sends_bind _ _ _ (plain_leaves _ _ rfl) fun _ => plain_leaves _ _ rfl
  refine sends_transaction _ _ (sends_bind _ _ _ (exists_leaves reviewId) fun _ => ?_)
  refine sends_bind _ _ _ (lock_leaves _ _) fun acquired => ?_
  cases acquired with
  | false => trivial
  | true =>
      refine sends_bind _ _ _ (plain_leaves _ _ rfl) fun (previous : Option Vote) => ?_
      cases previous with
      | none => exact placed
      | some vote =>
          by_cases same : vote.action = action
          · simp only [same, if_true]
            trivial
          · simp only [same, if_false]
            exact sends_bind _ _ _ (remove_vote_leaves vote reviewId) fun _ => placed

theorem delete_vote_leaves (reviewId : Text) (user : Uuid) :
    (VotesService.deleteVote reviewId user).Sends (Leaves Sql.stores) := by
  refine sends_bind _ _ _ (exists_leaves reviewId) fun _ => sends_transaction _ _ ?_
  refine sends_bind _ _ _ (lock_leaves _ _) fun acquired => ?_
  cases acquired with
  | false => trivial
  | true =>
      refine sends_bind _ _ _ (plain_leaves _ _ rfl) fun (previous : Option Vote) => ?_
      cases previous with
      | none => trivial
      | some vote => exact sends_bind _ _ _ (remove_vote_leaves vote reviewId) fun _ => trivial

theorem decrement_leaves (ids : List Text) (action : VoteAction) (value : Int) :
    (ReviewService.decrementVotesInTx ids action value).Sends (Leaves Sql.stores) := by
  unfold ReviewService.decrementVotesInTx
  split
  · trivial
  · exact plain_leaves _ _ rfl

theorem deletion_leaves (id : Text) : (UserDeletionService.deleteOne id).Sends (Leaves Sql.stores) := by
  refine sends_bind _ _ _ (sends_transaction _ _ (sends_bind _ _ _ (sends_bind _ _ _ ?_ fun _ =>
    sends_bind _ _ _ (plain_leaves _ _ rfl) fun (found : Option Account) => ?_) fun user => ?_)) fun _ =>
    leaves_redis _ _ _ (quiet_delete _)
  · unfold UsersService.validUuidOrThrow
    split <;> trivial
  · cases found <;> trivial
  · refine sends_bind _ _ _ (sends_bind _ _ _ (plain_leaves _ _ rfl) fun votes => ?_) fun _ => plain_leaves _ _ rfl
    exact sends_bind _ _ _ (decrement_leaves _ _ _) fun _ => decrement_leaves _ _ _

end Requests

def discard {α : Type} (request : Async α) : Async Unit := Prog.bind request fun _ => pure ()

section Rules

variable (R : RowRule schema)

section Heeding

variable (allowed : Api.Stmt → Prop)

theorem heeds_query (s : Sql) (asks : allowed (.sql s)) :
    (sql s).Heeds allowed R.Credible fun reply => ∃ rows, R.Good rows ∧ reply = schema.answer rows s :=
  ⟨asks, fun _ => trivial, fun _ likely => likely⟩

theorem heeds_save (s : Sql) (asks : allowed (.sql s)) : (transaction (sql s)).Heeds allowed R.Credible fun _ => True :=
  heeds_transaction _ _ (heeds_mono _ _ _ (heeds_query R allowed s asks) fun _ _ => trivial)

theorem heeds_then {α β : Type} (first : Async α) (next : α → Async β) (heeds : first.Heeds allowed R.Credible fun _ => True)
    (later : ∀ value, (next value).Heeds allowed R.Credible fun _ => True) :
    (Prog.bind first next).Heeds allowed R.Credible fun _ => True :=
  heeds_bind (fun _ => True) _ first next heeds fun value _ => later value

theorem heeds_discard {α : Type} (request : Async α) (heeds : request.Heeds allowed R.Credible fun _ => True) :
    (discard request).Heeds allowed R.Credible fun _ => True :=
  heeds_then R allowed _ _ heeds fun _ => trivial

theorem heeds_for_each {α : Type} (body : α → Async Unit) (xs : List α)
    (heeds : ∀ x ∈ xs, (body x).Heeds allowed R.Credible fun _ => True) :
    (forEach body xs).Heeds allowed R.Credible fun _ => True := by
  induction xs with
  | nil => trivial
  | cons x rest ih => exact heeds_then R allowed _ _ (heeds x (by simp)) fun _ => ih fun y later => heeds y (by simp [later])

end Heeding

theorem heeds_sql (s : Sql) (allowed : @RowRule.Allows schema Redis.commands Text R (.sql s)) :
    (sql s).Heeds R.Allows R.Credible fun reply => ∃ rows, R.Good rows ∧ reply = schema.answer rows s :=
  heeds_query R _ s allowed

theorem obeys_then {α β : Type} (first : Async α) (next : α → Async β) (obeys : R.Obeys first)
    (later : ∀ value, R.Obeys (next value)) : R.Obeys (Prog.bind first next) := heeds_then R _ first next obeys later

theorem obeys_discard {α : Type} (request : Async α) (obeys : R.Obeys request) : R.Obeys (discard request) :=
  heeds_discard R _ request obeys

theorem obeys_for_each {α : Type} (body : α → Async Unit) (xs : List α) (obeys : ∀ x ∈ xs, R.Obeys (body x)) :
    R.Obeys (forEach body xs) := heeds_for_each R _ body xs obeys

theorem obeys_save (s : Sql) (allowed : @RowRule.Allows schema Redis.commands Text R (.sql s)) :
    R.Obeys (transaction (sql s)) := heeds_save R _ s allowed

end Rules

end RateWise
