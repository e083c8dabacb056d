import RateWise.SerialVotes

set_option autoImplicit false

namespace RateWise

open Interleave
open ReadCommitted
open Tables

namespace Tables

def Cascaded (t : Tables) (account review : Uuid) : Prop := ∃ row ∈ t.cascadeReviews account, row.id = review

instance (t : Tables) (account : Uuid) : DecidablePred (t.Cascaded account) :=
  fun review => inferInstanceAs (Decidable (∃ row ∈ t.cascadeReviews account, row.id = review))

theorem cascaded_add_vote (t : Tables) (id : Uuid) (action : VoteAction) (value : Int) (account review : Uuid) :
    (t.apply (.addVotes id action value)).Cascaded account review ↔ t.Cascaded account review := by
  have kept : ∀ row : Review, (if row.id = id then row.addVotes action value else row).id = row.id ∧
      (if row.id = id then row.addVotes action value else row).createdBy = row.createdBy ∧
      (if row.id = id then row.addVotes action value else row).relatedItem = row.relatedItem := by
    intro row
    cases action <;> split <;> exact ⟨rfl, rfl, rfl⟩
  simp only [Cascaded, cascadeReviews, List.mem_filter, decide_eq_true_eq]
  constructor
  · rintro ⟨row, ⟨member, gone⟩, same⟩
    obtain ⟨before, stored, rfl⟩ := List.mem_map.mp member
    rw [(kept before).2.1, (kept before).2.2] at gone
    exact ⟨before, ⟨stored, gone⟩, (kept before).1.symm.trans same⟩
  · rintro ⟨row, ⟨stored, gone⟩, same⟩
    refine ⟨_, ⟨List.mem_map.mpr ⟨row, stored, rfl⟩, ?_⟩, (kept row).1.trans same⟩
    rw [(kept row).2.1, (kept row).2.2]
    exact gone

theorem cascaded_add_votes (t : Tables) (ids : List Text) (action : VoteAction) (value : Int) (account review : Uuid) :
    (view schema t (t.attempts (.addVotes ids action value))).Cascaded account review ↔ t.Cascaded account review := by
  simp only [attempts]
  generalize t.reviews.filter (fun row => row.id ∈ ids.filterMap uuidIn) = rows
  induction rows generalizing t with
  | nil => exact Iff.rfl
  | cons row rest ih => exact (ih (t.apply (.addVotes row.id action value))).trans (cascaded_add_vote t _ _ _ _ _)

theorem mem_cascade_votes (t : Tables) (account : Uuid) (v : Vote) :
    v ∈ t.cascadeVotes account ↔ v ∈ t.votes ∧ (v.createdBy = account ∨ t.Cascaded account v.relatedReview) := by
  simp [cascadeVotes, Cascaded]

theorem attempts_remove (t : Tables) (user : Account) (stored : user ∈ t.accounts) :
    t.attempts (.removeAccount user.id) = t.cascade user.id ++
      (t.accounts.filter fun row => row.id = user.id).map .deleteAccount := by
  simp only [attempts]
  split
  · rename_i nothing
    have listed : user ∈ t.accounts.filter fun row => row.id = user.id := by simp [stored]
    rw [nothing] at listed
    cases listed
  · rfl

theorem takes_iff (t : Tables) (user : Account) (stored : user ∈ t.accounts) (review : Uuid) (action : VoteAction)
    (spared : Spared (t.attempts (.removeAccount user.id)) review) :
    ⟨review, action⟩ ∈ (t.attempts (.removeAccount user.id)).filterMap Write.takes ↔
      ∃ v ∈ t.votes, v.createdBy = user.id ∧ v.relatedReview = review ∧ v.action = action := by
  rw [attempts_remove t user stored] at spared ⊢
  have listed : ⟨review, action⟩ ∈ (t.cascade user.id ++
      (t.accounts.filter fun row => row.id = user.id).map Write.deleteAccount).filterMap Write.takes ↔
      ∃ vote ∈ t.cascadeVotes user.id, vote.relatedReview = review ∧ vote.action = action := by
    simp [cascade, Write.takes, List.filterMap_append, List.filterMap_map, Function.comp_def]
  have stays : ¬ t.Cascaded user.id review := by
    rintro ⟨row, cascaded, same⟩
    refine spared ?_
    simp only [cascade, List.filterMap_append, List.mem_append, List.filterMap_map]
    exact .inl (.inl (.inr (List.mem_filterMap.mpr ⟨row, cascaded, by rw [← same]; rfl⟩)))
  rw [listed]
  constructor
  · rintro ⟨v, member, on, same⟩
    obtain ⟨present, owner | gone⟩ := (mem_cascade_votes t user.id v).mp member
    · exact ⟨v, present, owner, on, same⟩
    · exact absurd (on ▸ gone) stays
  · rintro ⟨v, present, owner, on, same⟩
    exact ⟨v, (mem_cascade_votes t user.id v).mpr ⟨present, .inl owner⟩, on, same⟩

theorem votes_silent (t : Tables) (ws : List Write) (silent : ∀ w ∈ ws, (∃ row, w = .deleteReview row) ∨
    (∃ row, w = .deleteItem row) ∨ ∃ row, w = .deleteAccount row) : (view schema t ws).votes = t.votes := by
  induction ws generalizing t with
  | nil => rfl
  | cons w rest ih =>
      have tail := ih (t.apply w) fun x inRest => silent x (by simp [inRest])
      rcases silent w (by simp) with ⟨row, rfl⟩ | ⟨row, rfl⟩ | ⟨row, rfl⟩ <;> exact tail

theorem mem_votes_removed (t : Tables) (user : Account) (stored : user ∈ t.accounts) (valid : t.Integrity) (v : Vote) :
    v ∈ (view schema t (t.attempts (.removeAccount user.id))).votes ↔
      v ∈ t.votes ∧ ¬ (v.createdBy = user.id ∨ t.Cascaded user.id v.relatedReview) := by
  rw [attempts_remove t user stored, cascade, List.append_assoc, List.append_assoc, view_append, ← List.append_assoc,
    votes_silent _ _ (t.unvoting_cascade user.id), mem_votes_after_deletes]
  constructor
  · rintro ⟨present, kept⟩
    exact ⟨present, fun gone => kept v ((mem_cascade_votes t user.id v).mpr ⟨present, gone⟩) rfl⟩
  · rintro ⟨present, stays⟩
    refine ⟨present, fun row member same => ?_⟩
    obtain ⟨there, gone⟩ := (mem_cascade_votes t user.id row).mp member
    rw [same_vote_id t valid v row present there same] at stays
    exact stays gone

end Tables

section Deletions

variable {hashtext : Text → Int32}

def Unviolated (error : Err) : Prop := error ≠ .queryFailed .checkViolation

theorem revoke_in_tx (votes : List VoteSummary) (action : VoteAction) (t : Tables) (m : Ledger)
    (owed total : Uuid → VoteAction → Int) (booked : Booked t m owed)
    (backed : ∀ r, (⟨r, action⟩ : VoteSummary) ∈ votes → owed r action = 0 ∧
      ∃ v ∈ t.votes, v.relatedReview = r ∧ v.action = action)
    (sum : ∀ r a, owed r a + revokedDebt votes action r a = total r a) :
    InTx hashtext (ReviewService.decrementVotesInTx (Deletion.revoked votes action) action 1) t
      (ends (fun _ after => Booked after m total ∧ after.votes = t.votes ∧ after.accounts = t.accounts ∧
        ∀ account review, after.Cascaded account review ↔ t.Cascaded account review) Unviolated) := by
  by_cases empty : (Deletion.revoked votes action).length = 0
  · have skipped : ReviewService.decrementVotesInTx (Deletion.revoked votes action) action 1 = .done () := if_pos empty
    have same : owed = total := by
      funext r a
      rw [← sum, revoked_empty votes action empty, add_zero]
    rw [skipped]
    exact in_tx_done (S := schema) (C := Redis.commands) () t _ ⟨same ▸ booked, rfl, rfl, fun _ _ => Iff.rfl⟩
  · have asked : ReviewService.decrementVotesInTx (Deletion.revoked votes action) action 1 =
        sql (.addVotes (Deletion.revoked votes action) action (-1)) := if_neg empty
    rw [asked]
    refine in_tx_sql _ _ _ _ (fun fault refused => ?_) fun allowed => ?_
    · have parsed : ∀ id ∈ Deletion.revoked votes action, (uuidIn id).isSome = true := by
        intro id member
        obtain ⟨v, -, rfl⟩ := List.mem_map.mp member
        simp [uuid_in_text]
      obtain ⟨row, -, listed, other, stored, same, found⟩ := refuses_add_votes t _ action (-1) fault parsed refused
      obtain ⟨clean, v, cast, on, kind⟩ := backed row.id ((mem_revoked votes action row.id).mp listed)
      have counter := booked.gap other stored action
      have positive : 0 < t.countVotes other.id action :=
        List.countP_pos_iff.mpr ⟨v, cast, decide_eq_true ⟨on.trans same.symm, kind⟩⟩
      rw [same] at counter positive
      rw [clean] at counter
      rcases counter_fault_some _ fault found with ⟨negative, -⟩ | ⟨-, rfl⟩
      · omega
      · nofun
    · obtain ⟨sameVotes, sameAccounts, -⟩ := view_add_votes t (Deletion.revoked votes action) action (-1)
      have sound := sound_attempts t _ booked.valid allowed
      refine ⟨⟨integrity.valid_view t _ booked.valid sound, ?_, graph_votes t _ m sameVotes booked.graph⟩,
        sameVotes, sameAccounts, fun account review => cascaded_add_votes t _ _ _ account review⟩
      refine gap_settled t _ _ _ booked.valid sound (tallied_map _ _ fun _ => rfl) booked.gap fun r a present _ => ?_
      rw [debt_revoke t votes action booked.valid r a present]
      exact sum r a

theorem removal_in_tx (user : Account) (t : Tables) (m : Ledger) (votes : List VoteSummary)
    (booked : Booked t m (cascadeDebt votes)) (stored : user ∈ t.accounts)
    (cast : ∀ r a, (⟨r, a⟩ : VoteSummary) ∈ votes ↔
      ∃ v ∈ t.votes, v.createdBy = user.id ∧ v.relatedReview = r ∧ v.action = a) :
    InTx hashtext (UsersService.deleteOneTx user) t
      (ends (fun _ after => Booked after (m.erase user.id (t.Cascaded user.id)) fun _ _ => 0) Unviolated) := by
  refine in_tx_sql _ _ _ _ (fun fault refused => ?_) fun allowed => ?_
  · have clear : ∀ w ∈ t.attempts (.removeAccount user.id), t.violation w = none := by
      intro w member
      simp only [attempts_remove t user stored, cascade, List.mem_append, List.mem_map] at member
      rcases member with ((⟨row, -, rfl⟩ | ⟨row, -, rfl⟩) | ⟨row, -, rfl⟩) | ⟨row, -, rfl⟩ <;> rfl
    simp only [refuses, Sql.uuids, List.all_nil, if_true] at refused
    obtain ⟨w, member, violated⟩ := List.exists_of_findSome?_eq_some refused
    rw [clear w member] at violated
    cases violated
  · have sound := sound_attempts t (.removeAccount user.id) booked.valid allowed
    refine ⟨integrity.valid_view t _ booked.valid sound, ?_, ?_⟩
    · refine gap_settled t _ _ _ booked.valid sound (tallied_remove_account t user.id) booked.gap fun r a present spared => ?_
      have same := (takes_iff t user stored r a spared).trans (cast r a).symm
      rw [debt_remove_account t user.id booked.valid r a spared _ same]
      unfold cascadeDebt
      split <;> rfl
    · intro u r a
      simp only [Ledger.erase]
      have members := mem_votes_removed t user stored booked.valid
      split
      · rename_i gone
        constructor
        · intro found
          cases found
        · rintro ⟨v, member, rfl, rfl, rfl⟩
          exact absurd gone ((members v).mp member).2
      · rename_i stays
        rw [booked.graph u r a]
        constructor
        · rintro ⟨v, present, rfl, rfl, rfl⟩
          exact ⟨v, (members v).mpr ⟨present, stays⟩, rfl, rfl, rfl⟩
        · rintro ⟨v, member, rest⟩
          exact ⟨v, ((members v).mp member).1, rest⟩

theorem find_user_in_tx (id : Text) (t : Tables) :
    InTx hashtext (UsersService.findOneByIdOrThrowTx id) t
      (ends (fun user after => after = t ∧ uuidIn id = some user.id ∧ user ∈ t.accounts) Unviolated) := by
  cases valid : validUUID id with
  | false =>
      have rejected : UsersService.findOneByIdOrThrowTx id = reject userNotFound := by
        simp only [UsersService.findOneByIdOrThrowTx, UsersService.validUuidOrThrow, valid]
        rfl
      rw [rejected]
      exact in_tx_throw _ _ _ fun same => by cases same
  | true =>
      simp only [UsersService.findOneByIdOrThrowTx, UsersService.validUuidOrThrow, valid]
      refine in_tx_seq (fun (user : Option Account) after => after = t ∧
        ∀ row, user = some row → uuidIn id = some row.id ∧ row ∈ t.accounts) ?_ ?_
      · refine in_tx_sql _ _ _ _ (fun fault refused => ?_) fun _ => ⟨rfl, fun row answered => ?_⟩
        · obtain ⟨uuid, parsed⟩ := valid_uuid_parses id valid
          simp [Tables.refuses, Sql.uuids, parsed, Tables.attempts] at refused
        · have listed : t.accounts.find? (fun row => some row.id = uuidIn id) = some row := answered
          have matched := List.find?_some listed
          exact ⟨(of_decide_eq_true matched).symm, List.mem_of_find?_eq_some listed⟩
      · rintro user after ⟨rfl, known⟩
        cases user with
        | none => exact in_tx_throw _ _ _ fun same => by cases same
        | some row => exact in_tx_done (S := schema) (C := Redis.commands) row after _ ⟨rfl, known row rfl⟩

theorem deletion_in_tx (id : Text) (t : Tables) (m : Ledger) (booked : Booked t m fun _ _ => 0) :
    InTx hashtext (do
      let user ← UsersService.findOneByIdOrThrowTx id
      VotesService.revokeUserVotesOnReviewsTx id
      UsersService.deleteOneTx user) t
      (ends (fun _ after => ∃ account, uuidIn id = some account ∧
        Booked after (m.erase account (t.Cascaded account)) fun _ _ => 0) Unviolated) := by
  refine in_tx_seq _ (find_user_in_tx id t) ?_
  rintro user after ⟨rfl, parsed, stored⟩
  refine in_tx_seq (fun _ (rows : Tables) => ∃ votes, Booked rows m (cascadeDebt votes) ∧ user ∈ rows.accounts ∧
    (∀ r a, (⟨r, a⟩ : VoteSummary) ∈ votes ↔
      ∃ v ∈ rows.votes, v.createdBy = user.id ∧ v.relatedReview = r ∧ v.action = a) ∧
    ∀ account review, rows.Cascaded account review ↔ after.Cascaded account review) ?_ ?_
  · refine in_tx_seq (fun (votes : List VoteSummary) (rows : Tables) => rows = after ∧ ∀ r a, (⟨r, a⟩ : VoteSummary) ∈ votes ↔
      ∃ v ∈ rows.votes, v.createdBy = user.id ∧ v.relatedReview = r ∧ v.action = a) ?_ ?_
    · refine in_tx_sql _ _ _ _ (fun fault refused => ?_) fun _ => ⟨rfl, fun r a => ?_⟩
      · simp [Tables.refuses, Sql.uuids, parsed, Tables.attempts] at refused
      · show (⟨r, a⟩ : VoteSummary) ∈ (after.votes.filter fun row => some row.createdBy = uuidIn id).map _ ↔
          ∃ v ∈ after.votes, v.createdBy = user.id ∧ v.relatedReview = r ∧ v.action = a
        simp [parsed, and_assoc]
    · rintro votes rows ⟨rfl, cast⟩
      have up : InTx hashtext _ rows _ := revoke_in_tx votes .up rows m (fun _ _ => 0) (revokedDebt votes .up) booked
        (fun r listed => ⟨rfl, by
          obtain ⟨v, present, -, on, kind⟩ := (cast r .up).mp listed
          exact ⟨v, present, on, kind⟩⟩) (fun _ _ => zero_add _)
      refine in_tx_seq _ up ?_
      rintro - middle ⟨subtracted, sameVotes, sameAccounts, sameCascade⟩
      refine in_tx_mono _ _ _ _ (revoke_in_tx votes .down middle m _ (cascadeDebt votes) subtracted (fun r listed => ⟨by
          simp [revokedDebt], by
          obtain ⟨v, present, -, on, kind⟩ := (cast r .down).mp listed
          exact ⟨v, sameVotes ▸ present, on, kind⟩⟩) (revoked_both votes)) ?_
      rintro (error | value) last holds
      · exact holds
      · obtain ⟨revoked, lastVotes, lastAccounts, lastCascade⟩ := holds
        refine ⟨votes, revoked, ?_, ?_, fun account review => (lastCascade account review).trans (sameCascade account review)⟩
        · rw [lastAccounts, sameAccounts]
          exact stored
        · rw [lastVotes, sameVotes]
          exact cast
  · rintro - rows ⟨votes, revoked, present, cast, sameCascade⟩
    refine in_tx_mono _ _ _ _ (removal_in_tx user rows m votes revoked present cast) ?_
    rintro (error | value) last holds
    · exact holds
    · refine ⟨user.id, parsed, ?_⟩
      have same : m.erase user.id (after.Cascaded user.id) = m.erase user.id (rows.Cascaded user.id) := by
        funext u r
        simp only [Ledger.erase, sameCascade]
      rw [same]
      exact holds

end Deletions

inductive Operation where
  | createAccount (row : Generated) (username email passwordHash : Text)
  | createItem (item : CreateItemInput) (user : AuthenticatedUser) (row : Generated)
  | createReview (reviewData : CreateReviewInput) (user : AuthenticatedUser) (row : Generated)
  | vote (reviewId : Text) (user : Uuid) (ballot : Ballot)
  | deleteAccount (userId : Text)
  | refreshReviewVotes

namespace Operation

def program : Operation → Async Bool
  | .createAccount row username email passwordHash => do
      let _account ← UsersService.createOne row username email passwordHash
      return true
  | .createItem item user row => do
      ItemsService.createOne item user row
      return true
  | .createReview reviewData user row => do
      ReviewService.createOne reviewData user row
      return true
  | .vote reviewId user (.cast action row) => VotesResolver.voteReview reviewId user action row
  | .vote reviewId user .retract => VotesResolver.deleteVote reviewId user
  | .deleteAccount userId => Deletion.program userId
  | .refreshReviewVotes => do
      ReviewService.refreshReviewVotes
      return true

-- What a committed operation does to the ledger; a failed one does nothing.
def book (before : Tables) (m : Ledger) : Operation → Except Err Bool → Ledger
  | .vote reviewId user ballot, .ok _ => match uuidIn reviewId with
      | some review => m.set user review ballot.entry
      | none => m
  | .deleteAccount userId, .ok _ => match uuidIn userId with
      | some account => m.erase account (before.Cascaded account)
      | none => m
  | _, _ => m

def answer (m : Ledger) : Operation → Bool
  | .vote reviewId user .retract => match uuidIn reviewId with
      | some review => (m user review).isSome
      | none => false
  | _ => true

def counts : Operation → Bool
  | .vote _ _ _ => true
  | .deleteAccount _ => true
  | .refreshReviewVotes => true
  | _ => false

end Operation

section Serial

variable {hashtext : Text → Int32}

def Served (op : Operation) (world : World) (m : Ledger) (result : Except Err Bool) (left : World)
    (after : Option ApiTx) : Prop :=
  after = none ∧ match result with
    | .ok answer => answer = op.answer m ∧ Booked left.db (op.book world.db m result) fun _ _ => 0
    | .error error => left.db = world.db ∧ (op.counts = true → Unviolated error)

theorem insert_in_tx (s : Sql) (t : Tables) (m : Ledger) (booked : Booked t m fun _ _ => 0)
    (votes : (view schema t (t.attempts s)).votes = t.votes) (tallied : ∀ w ∈ t.attempts s, w.tallied = true)
    (free : ∀ r a, debt (t.attempts s) r a = 0) :
    InTx hashtext (sql s) t (ends (fun _ after => Booked after m fun _ _ => 0) fun _ => True) := by
  refine in_tx_sql _ _ _ _ (fun _ _ => trivial) fun allowed => ?_
  have sound := sound_attempts t s booked.valid allowed
  refine ⟨integrity.valid_view t _ booked.valid sound, ?_, graph_votes t _ m votes booked.graph⟩
  exact gap_settled t _ _ _ booked.valid sound tallied booked.gap fun r a _ _ => by rw [free, add_zero]

theorem insert_review_in_tx (t : Tables) (m : Ledger) (row : Generated) (content : Text) (rating : Int) (user item : Text)
    (booked : Booked t m fun _ _ => 0) :
    InTx hashtext (sql (.insertReview row content rating user item)) t
      (ends (fun _ after => Booked after m fun _ _ => 0) fun _ => True) := by
  refine in_tx_sql _ _ _ _ (fun _ _ => trivial) fun allowed => ?_
  have sound := sound_attempts t (.insertReview row content rating user item) booked.valid allowed
  have valid := integrity.valid_view t _ booked.valid sound
  show Booked (view schema t (t.attempts (.insertReview row content rating user item))) m fun _ _ => 0
  simp only [attempts] at sound valid ⊢
  cases built : reviewRow row content rating user item with
  | none => exact booked
  | some review =>
      rw [built] at sound valid
      refine ⟨valid, ?_, graph_votes t _ m rfl booked.graph⟩
      intro other member action
      rcases List.mem_append.mp member with old | last
      · exact booked.gap other old action
      · rw [List.mem_singleton.mp last]
        have zero : review.votes action = 0 := by
          cases owner : uuidIn user with
          | none => simp [reviewRow, owner] at built
          | some author =>
              cases target : uuidIn item with
              | none => simp [reviewRow, owner, target] at built
              | some goal =>
                  simp [reviewRow, owner, target] at built
                  rw [← built]
                  cases action <;> rfl
        have none : t.countVotes review.id action = 0 := by
          refine List.countP_eq_zero.mpr fun v stored matched => ?_
          have on := (of_decide_eq_true matched).1
          exact sound.1 (on ▸ booked.valid.voteReviews v stored)
        have same : (view schema t [Write.insertReview review]).countVotes review.id action = t.countVotes review.id action := rfl
        simp [zero, same, none]

theorem transaction_yields (body : Async Unit) (world : World) (m : Ledger)
    (inside : InTx hashtext body world.db (ends (fun _ after => Booked after m fun _ _ => 0) fun _ => True)) :
    Yields (engine hashtext) (transaction body) world none fun result left after => after = none ∧ match result with
      | .ok _ => Booked left.db m fun _ _ => 0
      | .error _ => left.db = world.db := by
  refine yields_mono _ _ _ _ _ (yields_in_tx body world none _ inside) ?_
  rintro result left after ⟨rfl, -, rest⟩
  cases result with
  | ok value => exact ⟨rfl, rest⟩
  | error error => exact ⟨rfl, rest.1⟩

theorem guarded_yields (body : Async Unit) (other : Err → Err) (world : World) (m : Ledger)
    (inside : InTx hashtext body world.db (ends (fun _ after => Booked after m fun _ _ => 0) fun _ => True)) :
    Yields (engine hashtext) (Prog.catching (transaction body) fun error => reject (other error)) world none
      fun result left after => after = none ∧ match result with
        | .ok _ => Booked left.db m fun _ _ => 0
        | .error _ => left.db = world.db := by
  refine yields_catching _ _ _ _ _ (yields_mono _ _ _ _ _ (transaction_yields body world m inside) ?_)
  rintro result left after ⟨rfl, rest⟩
  cases result with
  | ok value => exact ⟨rfl, rest⟩
  | error error => exact ⟨rfl, rest⟩

theorem read_yields (s : Sql) (world : World) (silent : world.db.attempts s = []) :
    Yields (engine hashtext) (sql s) world none fun _ left after => left = world ∧ after = none := by
  refine yields_sql _ _ _ _ (fun _ _ => ⟨rfl, rfl⟩) fun _ => ⟨?_, rfl⟩
  show (⟨view schema world.db (world.db.attempts s), world.store⟩ : World) = world
  rw [silent]
  rfl

theorem find_item_yields (id : Text) (world : World) :
    Yields (engine hashtext) (ItemsService.findOneByIdOrThrow id) world none fun _ left after => left = world ∧ after = none := by
  cases valid : validUUID id with
  | false =>
      have rejected : ItemsService.findOneByIdOrThrow id = reject ItemsService.notFound := by
        simp only [ItemsService.findOneByIdOrThrow, valid]
        rfl
      rw [rejected]
      exact ⟨rfl, rfl⟩
  | true =>
      simp only [ItemsService.findOneByIdOrThrow, valid]
      refine yields_bind _ _ _ _ _ (yields_mono _ _ _ _ _ (read_yields (.findItem id) world rfl) ?_)
      rintro (error | (_ | item)) left after ⟨rfl, rfl⟩ <;> exact ⟨rfl, rfl⟩

theorem create_review_yields (reviewData : CreateReviewInput) (user : AuthenticatedUser) (row : Generated) (world : World)
    (m : Ledger) (booked : Booked world.db m fun _ _ => 0) :
    Yields (engine hashtext) (ReviewService.createOne reviewData user row) world none fun result left after =>
      after = none ∧ match result with
        | .ok _ => Booked left.db m fun _ _ => 0
        | .error _ => left.db = world.db := by
  refine yields_bind _ _ _ _ _ (yields_mono _ _ _ _ _ (find_item_yields reviewData.itemId world) ?_)
  rintro (error | item) left after ⟨rfl, rfl⟩
  · exact ⟨rfl, rfl⟩
  · by_cases own : item.createdBy = user.id
    · simp only [own, if_true]
      exact ⟨rfl, rfl⟩
    · simp only [own, if_false]
      exact guarded_yields _ _ left m (insert_review_in_tx left.db m row _ _ _ _ booked)

theorem refresh_yields (world : World) (m : Ledger) (booked : Booked world.db m fun _ _ => 0) :
    Yields (engine hashtext) ReviewService.refreshReviewVotes world none fun result left after =>
      left = world ∧ after = none ∧ result = .ok () := by
  have fresh : world.db.attempts .refreshReviewVotes = [] := by
    simp only [attempts, List.map_eq_nil_iff, List.filter_eq_nil_iff]
    intro row stored
    have up := booked.gap row stored .up
    have down := booked.gap row stored .down
    simp only [Review.votes, add_zero] at up down
    simp [stale, up, down]
  refine yields_sql _ _ _ _ (fun fault refused => ?_) fun _ => ⟨?_, rfl, rfl⟩
  · have allowed : world.db.refuses .refreshReviewVotes = none := by simp [refuses, Sql.uuids, fresh]
    rw [show schema.refuses world.db Sql.refreshReviewVotes = world.db.refuses .refreshReviewVotes from rfl, allowed] at refused
    cases refused
  · show (⟨view schema world.db (world.db.attempts .refreshReviewVotes), world.store⟩ : World) = world
    rw [fresh]
    rfl

theorem deletion_yields (userId : Text) (world : World) (m : Ledger) (booked : Booked world.db m fun _ _ => 0) :
    Yields (engine hashtext) (Deletion.program userId) world none (Served (.deleteAccount userId) world m) := by
  refine yields_bind _ _ _ _ _ (yields_bind _ _ _ _ _ (yields_mono _ _ _ _ _ (yields_in_tx _ world none _
    (deletion_in_tx userId world.db m booked)) ?_))
  rintro result left after ⟨rfl, -, rest⟩
  cases result with
  | error error => exact ⟨rfl, rest.1, fun _ => rest.2.choose_spec⟩
  | ok value =>
      obtain ⟨account, parsed, gone⟩ := rest
      refine yields_bind _ _ _ _ _ (yields_cmd _ (RedisCmd.del (createUserCacheKey userId)) left none _ ?_ ?_)
      · intro fault failed
        cases failed
      · intro reply store replied
        refine ⟨rfl, rfl, ?_⟩
        show Booked left.db ((Operation.deleteAccount userId).book world.db m (.ok true)) fun _ _ => 0
        simpa only [Operation.book, parsed] using gone

theorem vote_yields (reviewId : Text) (user : Uuid) (ballot : Ballot) (world : World) (m : Ledger)
    (booked : Booked world.db m fun _ _ => 0) :
    Yields (engine hashtext) (Operation.vote reviewId user ballot).program world none
      (Served (.vote reviewId user ballot) world m) := by
  cases valid : validUUID reviewId with
  | false =>
      cases ballot with
      | cast action row =>
          have rejected : (Operation.vote reviewId user (.cast action row)).program =
              .beginTx (.rollbackTx (.throw ReviewService.notFound)) := by
            simp only [Operation.program, VotesResolver.voteReview, VotesService.voteReview, ReviewService.existsOrThrowTx,
              ReviewService.existsOrThrow, ReviewService.verifyUUidOrThrow, valid]
            rfl
          rw [rejected]
          exact ⟨rfl, rfl, fun _ same => by cases same⟩
      | retract =>
          have rejected : (Operation.vote reviewId user .retract).program = .throw ReviewService.notFound := by
            simp only [Operation.program, VotesResolver.deleteVote, VotesService.deleteVote, ReviewService.existsOrThrow,
              ReviewService.verifyUUidOrThrow, valid]
            rfl
          rw [rejected]
          exact ⟨rfl, rfl, fun _ same => by cases same⟩
  | true =>
      have request : (Operation.vote reviewId user ballot).program = (⟨reviewId, valid, user, ballot⟩ : VoteRequest).program := by
        cases ballot <;> rfl
      have parsed := parsed_review ⟨reviewId, valid, user, ballot⟩
      rw [request]
      refine yields_mono _ _ _ _ _ (vote_request_yields ⟨reviewId, valid, user, ballot⟩ world m booked) ?_
      rintro result left after ⟨rfl, -, rest⟩
      cases result with
      | error error => exact ⟨rfl, rest.1, fun _ => rest.2.1⟩
      | ok answer =>
          refine ⟨rfl, ?_, ?_⟩
          · rw [rest.1]
            cases ballot with
            | cast action row => rfl
            | retract => simp only [VoteRequest.answer, Operation.answer, parsed]
          · simpa only [Operation.book, parsed] using rest.2

theorem operation_yields (op : Operation) (world : World) (m : Ledger) (booked : Booked world.db m fun _ _ => 0) :
    Yields (engine hashtext) op.program world none (Served op world m) := by
  cases op with
  | createAccount row username email passwordHash =>
      refine yields_bind _ _ _ _ _ (yields_catching _ _ _ _ _ (yields_bind _ _ _ _ _ (yields_mono _ _ _ _ _
        (transaction_yields _ world m (insert_in_tx _ world.db m booked rfl (by simp [attempts, Write.tallied])
          fun r a => by simp [attempts, debt, Write.debt])) ?_)))
      rintro (error | value) left after ⟨rfl, rest⟩
      · exact ⟨rfl, rest, fun impossible => by cases impossible⟩
      · exact ⟨rfl, rfl, rest⟩
  | createItem item user row =>
      refine yields_bind _ _ _ _ _ (yields_mono _ _ _ _ _ (guarded_yields _ _ world m (insert_in_tx _ world.db m booked ?_
        (tallied_map _ _ fun _ => rfl) fun r a => ?_)) ?_)
      · simp only [attempts]
        cases itemRow row item.title item.description item.category item.tags user.id.text <;> rfl
      · simp only [attempts]
        cases itemRow row item.title item.description item.category item.tags user.id.text <;> rfl
      · rintro (error | value) left after ⟨rfl, rest⟩
        · exact ⟨rfl, rest, fun impossible => by cases impossible⟩
        · exact ⟨rfl, rfl, rest⟩
  | createReview reviewData user row =>
      refine yields_bind _ _ _ _ _ (yields_mono _ _ _ _ _ (create_review_yields reviewData user row world m booked) ?_)
      rintro (error | value) left after ⟨rfl, rest⟩
      · exact ⟨rfl, rest, fun impossible => by cases impossible⟩
      · exact ⟨rfl, rfl, rest⟩
  | vote reviewId user ballot => exact vote_yields reviewId user ballot world m booked
  | deleteAccount userId => exact deletion_yields userId world m booked
  | refreshReviewVotes =>
      refine yields_bind _ _ _ _ _ (yields_mono _ _ _ _ _ (refresh_yields world m booked) ?_)
      rintro result left after ⟨rfl, rfl, rfl⟩
      exact ⟨rfl, rfl, booked⟩

end Serial

def serve (hashtext : Text → Int32) (op : Operation) (world : World) : Except Err Bool × World :=
  ((op.program.solo (engine hashtext) world none).1, (op.program.solo (engine hashtext) world none).2.1)

def serveAll (hashtext : Text → Int32) : List Operation → World → Ledger → World × Ledger
  | [], world, m => (world, m)
  | op :: rest, world, m => serveAll hashtext rest (serve hashtext op world).2 (op.book world.db m (serve hashtext op world).1)

theorem serve_all_booked (hashtext : Text → Int32) (ops : List Operation) (world : World) (m : Ledger)
    (booked : Booked world.db m fun _ _ => 0) :
    Booked (serveAll hashtext ops world m).1.db (serveAll hashtext ops world m).2 fun _ _ => 0 := by
  induction ops generalizing world m with
  | nil => exact booked
  | cons op rest ih =>
      refine ih (serve hashtext op world).2 _ ?_
      have yields : Yields (engine hashtext) op.program world none (Served op world m) := operation_yields op world m booked
      obtain ⟨-, served⟩ := yields
      show Booked (serve hashtext op world).2.db (op.book world.db m (serve hashtext op world).1) fun _ _ => 0
      cases result : (serve hashtext op world).1 with
      | ok answer =>
          rw [show (op.program.solo (engine hashtext) world none).1 = .ok answer from result] at served
          exact served.2
      | error error =>
          rw [show (op.program.solo (engine hashtext) world none).1 = .error error from result] at served
          have unchanged : op.book world.db m (.error error) = m := by cases op <;> rfl
          rw [unchanged, show (serve hashtext op world).2.db = world.db from served.1]
          exact booked

theorem booked_empty : Booked Tables.empty Ledger.blank fun _ _ => 0 where
  valid := ⟨.nil, .nil, .nil, nofun⟩
  gap := nofun
  graph := fun _ _ _ => ⟨nofun, fun ⟨_, stored, _⟩ => nomatch stored⟩

theorem serial_operations_refine_ledger (hashtext : Text → Int32) (store : Redis) (ops : List Operation) :
    let state := serveAll hashtext ops ⟨Tables.empty, store⟩ Ledger.blank
    state.1.db.Graph state.2 ∧ state.1.db.votes.Pairwise (fun a b => ¬ SameOwner a b) ∧
    (∀ row ∈ state.1.db.reviews, ∀ action, row.votes action = Set.ncard {user | state.2 user row.id = some action}) ∧
    ∀ op, match (serve hashtext op state.1).1 with
      | .ok answer => answer = op.answer state.2
      | .error error => (serve hashtext op state.1).2.db = state.1.db ∧
          (op.counts = true → error ≠ .queryFailed .checkViolation) := by
  intro state
  have booked : Booked state.1.db state.2 fun _ _ => 0 := serve_all_booked hashtext ops _ _ booked_empty
  refine ⟨booked.graph, booked.valid.voteOwners, fun row stored action => ?_, fun op => ?_⟩
  · rw [booked.gap row stored action, count_ledger state.1.db state.2 booked.valid booked.graph, add_zero]
  · have yields : Yields (engine hashtext) op.program state.1 none (Served op state.1 state.2) :=
      operation_yields op state.1 state.2 booked
    obtain ⟨-, served⟩ := yields
    show match (op.program.solo (engine hashtext) state.1 none).1 with
      | .ok answer => answer = op.answer state.2
      | .error error => (op.program.solo (engine hashtext) state.1 none).2.1.db = state.1.db ∧
          (op.counts = true → error ≠ .queryFailed .checkViolation)
    cases result : (op.program.solo (engine hashtext) state.1 none).1 with
    | ok answer =>
        rw [result] at served
        exact served.1
    | error error =>
        rw [result] at served
        exact served

end RateWise
