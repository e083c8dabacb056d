import RateWise.Solo
import RateWise.VoteSeats

set_option autoImplicit false

namespace RateWise

open Interleave
open ReadCommitted

-- Tables with their constraints that stand for a ledger, up to what the open
-- transaction still owes to the counters.
structure Booked (t : Tables) (m : Ledger) (owed : Uuid → VoteAction → Int) : Prop where
  valid : t.Integrity
  gap : t.Gap owed
  graph : t.Graph m

namespace Tables

theorem refuses_add_votes (t : Tables) (ids : List Text) (action : VoteAction) (value : Int) (fault : Fault)
    (parsed : ∀ id ∈ ids, (uuidIn id).isSome = true) (refused : t.refuses (.addVotes ids action value) = some fault) :
    ∃ row ∈ t.reviews, row.id ∈ ids.filterMap uuidIn ∧ ∃ other ∈ t.reviews, other.id = row.id ∧
      counterFault (other.votes action + value) = some fault := by
  have all : (Sql.addVotes ids action value).uuids.all (fun text => (uuidIn text).isSome) = true := by
    simpa [Sql.uuids] using parsed
  simp only [refuses, all, if_true] at refused
  obtain ⟨w, attempted, violated⟩ := List.exists_of_findSome?_eq_some refused
  obtain ⟨row, kept, rfl⟩ := List.mem_map.mp attempted
  obtain ⟨stored, listed⟩ := List.mem_filter.mp kept
  obtain ⟨other, present, found⟩ := List.exists_of_findSome?_eq_some violated
  split at found
  · rename_i same
    exact ⟨row, stored, of_decide_eq_true listed, other, present, same, found⟩
  · cases found

theorem counter_fault_some (value : Int) (fault : Fault) (found : counterFault value = some fault) :
    (value < 0 ∧ fault = .checkViolation) ∨ (maxInteger < value ∧ fault = .numericOutOfRange) := by
  unfold counterFault at found
  split at found
  · rename_i negative
    cases found
    exact .inl ⟨negative, rfl⟩
  · split at found
    · rename_i large
      cases found
      exact .inr ⟨large, rfl⟩
    · cases found

theorem view_add_votes (t : Tables) (ids : List Text) (action : VoteAction) (value : Int) :
    (view schema t (t.attempts (.addVotes ids action value))).votes = t.votes ∧
    (view schema t (t.attempts (.addVotes ids action value))).accounts = t.accounts ∧
    ∀ id, (view schema t (t.attempts (.addVotes ids action value))).HasReview id ↔ t.HasReview id := by
  simp only [attempts]
  generalize t.reviews.filter (fun row => row.id ∈ ids.filterMap uuidIn) = rows
  induction rows generalizing t with
  | nil => exact ⟨rfl, rfl, fun _ => Iff.rfl⟩
  | cons row rest ih =>
      obtain ⟨votes, accounts, reviews⟩ := ih (t.apply (.addVotes row.id action value))
      exact ⟨votes, accounts, fun id => (reviews id).trans (has_review_apply t _ id)⟩

end Tables

open Tables

structure Within (base t : Tables) : Prop where
  accounts : t.accounts = base.accounts
  reviews : ∀ id, t.HasReview id ↔ base.HasReview id
  votes : ∀ v ∈ t.votes, v ∈ base.votes
  counts : ∀ review action, t.countVotes review action ≤ base.countVotes review action

theorem within_refl (t : Tables) : Within t t := ⟨rfl, fun _ => Iff.rfl, fun _ stored => stored, fun _ _ => le_refl _⟩

theorem within_add_votes (base t : Tables) (ids : List Text) (action : VoteAction) (value : Int) (within : Within base t) :
    Within base (view schema t (t.attempts (.addVotes ids action value))) := by
  obtain ⟨votes, accounts, reviews⟩ := view_add_votes t ids action value
  refine ⟨accounts.trans within.accounts, fun id => (reviews id).trans (within.reviews id), fun v member => ?_,
    fun review other => ?_⟩
  · exact within.votes v (votes ▸ member)
  · exact le_trans (le_of_eq (congrArg (List.countP _) votes)) (within.counts review other)

theorem within_delete_vote (base t : Tables) (vote : Vote) (within : Within base t) :
    Within base (t.apply (.deleteVote vote)) := by
  refine ⟨within.accounts, fun id => (has_review_apply t _ id).trans (within.reviews id), fun v member => ?_,
    fun review action => ?_⟩
  · exact within.votes v ((mem_votes_apply t _ v).mp member).1
  · exact le_trans (List.Sublist.countP_le List.filter_sublist) (within.counts review action)

-- What a request needs of the tables so that none of its statements fails.
structure Clear (q : VoteRequest) (t : Tables) : Prop where
  review : t.HasReview q.review
  account : ∃ account ∈ t.accounts, account.id = q.user
  fresh : ∀ action row, q.ballot = .cast action row → ∀ v ∈ t.votes, v.id ≠ row.id
  room : ∀ action, (t.countVotes q.review action : Int) < maxInteger

def Unblocked (q : VoteRequest) (base : Tables) (error : Err) : Prop :=
  error ≠ .queryFailed .checkViolation ∧ ¬ Clear q base

section Pieces

variable {hashtext : Text → Int32}

theorem booked_add_votes (q : VoteRequest) (t : Tables) (m : Ledger) (owed : VoteAction → Int) (action : VoteAction)
    (value : Int) (after : VoteAction → Int) (booked : Booked t m (onReview q.review owed))
    (allowed : t.refuses (.addVotes [q.reviewId] action value) = none)
    (sum : ∀ a, owed a + single action value a = after a) :
    Booked (view schema t (t.attempts (.addVotes [q.reviewId] action value))) m (onReview q.review after) where
  valid := integrity.valid_view _ _ booked.valid (sound_attempts _ _ booked.valid allowed)
  graph := graph_votes _ _ _ (view_add_votes _ _ _ _).1 booked.graph
  gap := by
    refine gap_settled _ _ _ _ booked.valid (sound_attempts _ _ booked.valid allowed) (tallied_map _ _ fun _ => rfl)
      booked.gap fun review other present _ => ?_
    rw [debt_review q t booked.valid action value review other present]
    by_cases here : review = q.review <;> simp [onReview, here, sum]

theorem refused_change (q : VoteRequest) (t : Tables) (owed : VoteAction → Int) (action : VoteAction)
    (value : Int) (fault : Fault) (gap : t.Gap (onReview q.review owed))
    (refused : t.refuses (.addVotes [q.reviewId] action value) = some fault) :
    (t.countVotes q.review action + owed action + value < 0 ∧ fault = .checkViolation) ∨
    (maxInteger < t.countVotes q.review action + owed action + value ∧ fault = .numericOutOfRange) := by
  obtain ⟨row, -, listed, other, present, same, found⟩ := refuses_add_votes t _ action value fault
    (by simp [parsed_review]) refused
  have here : other.id = q.review := by
    rw [same]
    simpa [parsed_review] using listed
  have counter := gap other present action
  rw [here] at counter
  rw [counter] at found
  simpa [onReview] using counter_fault_some _ fault found

theorem remove_in_tx (q : VoteRequest) (base t : Tables) (m : Ledger) (vote : Vote) (clear : Within base t)
    (booked : Booked t m (onReview q.review fun _ => 0)) (stored : vote ∈ t.votes) (on : vote.relatedReview = q.review) :
    InTx hashtext (VotesService.deleteVoteAndUpdateReviewTx vote q.reviewId) t
      (ends (fun _ after => Booked after (m.set vote.createdBy q.review none) (onReview q.review fun _ => 0) ∧
        Within base after) (Unblocked q base)) := by
  have attempts := attempts_delete_vote t vote booked.valid stored
  have removed : Booked (t.apply (.deleteVote vote)) (m.set vote.createdBy q.review none)
      (onReview q.review (single vote.action 1)) := by
    refine ⟨integrity_apply _ _ booked.valid stored, ?_, on ▸ graph_delete t m vote booked.valid booked.graph stored⟩
    have gap := gap_apply t (.deleteVote vote) _ booked.valid stored rfl booked.gap
    intro row member action
    rw [gap row member action]
    by_cases here : row.id = q.review
    · simp [onReview, single, Write.debt, here, on]
    · simp [onReview, Write.debt, here, on, Ne.symm here]
  have within := within_delete_vote base t vote clear
  refine in_tx_seq (fun _ after => after = t.apply (.deleteVote vote)) ?_ ?_
  · refine in_tx_sql _ _ _ _ (fun fault refused => ?_) fun _ => ?_
    · simp only [refuses, attempts, Sql.uuids, List.all_nil, if_true, List.findSome?_cons, violation,
        List.findSome?_nil] at refused
      cases refused
    · show view schema t (t.attempts (.deleteVote vote.id)) = _
      rw [attempts]
      rfl
  · rintro - after rfl
    refine in_tx_sql _ _ _ _ (fun fault refused => ?_) fun allowed => ?_
    · have failed := refused_change q _ _ vote.action (-1) fault removed.gap refused
      have one : single vote.action 1 vote.action = 1 := if_pos rfl
      rw [one] at failed
      rcases failed with ⟨negative, -⟩ | ⟨large, rfl⟩
      · omega
      · refine ⟨(fun same => by cases same), fun free => ?_⟩
        have fewer := within.counts q.review vote.action
        have room := free.room vote.action
        omega
    · refine ⟨booked_add_votes q _ _ _ vote.action (-1) _ removed allowed fun a => ?_, within_add_votes _ _ _ _ _ within⟩
      unfold single
      split <;> rfl

theorem attempts_insert (q : VoteRequest) (t : Tables) (action : VoteAction) (row : Generated) :
    t.attempts (.insertVote row action q.user.text q.reviewId) = [.insertVote ⟨row, action, q.user, q.review⟩] := by
  simp only [attempts, vote_row, Option.toList_some, List.map_singleton]

theorem refused_insert (q : VoteRequest) (t : Tables) (action : VoteAction) (row : Generated) (fault : Fault)
    (refused : t.refuses (.insertVote row action q.user.text q.reviewId) = some fault)
    (absent : ∀ v ∈ t.votes, ¬ (v.createdBy = q.user ∧ v.relatedReview = q.review)) :
    fault ≠ .checkViolation ∧
      ((∃ v ∈ t.votes, v.id = row.id) ∨ (∀ account ∈ t.accounts, account.id ≠ q.user) ∨ ¬ t.HasReview q.review) := by
  have all : (Sql.insertVote row action q.user.text q.reviewId).uuids.all (fun text => (uuidIn text).isSome) = true := by
    simp [Sql.uuids, uuid_in_text, parsed_review]
  simp only [refuses, all, if_true, attempts_insert, List.findSome?_cons, List.findSome?_nil, violation] at refused
  by_cases taken : (t.votes.any fun other => other.id = row.id ||
      (other.createdBy = q.user && other.relatedReview = q.review)) = true
  · have known : fault = .uniqueViolation := by
      simp [taken, uniqueFault] at refused
      exact refused.symm
    obtain ⟨v, stored, same⟩ := List.any_eq_true.mp taken
    simp only [Bool.or_eq_true, Bool.and_eq_true, decide_eq_true_eq] at same
    rcases same with same | owner
    · exact ⟨by rw [known]; nofun, .inl ⟨v, stored, same⟩⟩
    · exact absurd owner (absent v stored)
  · simp only [Bool.not_eq_true] at taken
    by_cases account : (t.accounts.any fun account => account.id = q.user) = true
    · by_cases review : (t.reviews.any fun review => review.id = q.review) = true
      · simp [taken, account, review, uniqueFault, parentFault] at refused
      · have known : fault = .foreignKeyViolation := by
          simp [taken, account, review, uniqueFault, parentFault] at refused
          exact refused.symm
        refine ⟨by rw [known]; nofun, .inr (.inr ?_)⟩
        simpa [HasReview] using review
    · have known : fault = .foreignKeyViolation := by
        simp only [Bool.not_eq_true] at account
        simp [taken, account, uniqueFault, parentFault] at refused
        exact refused.symm
      refine ⟨by rw [known]; nofun, .inr (.inl ?_)⟩
      simpa using account

theorem no_row (t : Tables) (m : Ledger) (user review : Uuid) (graph : t.Graph m) (absent : m user review = none) :
    ∀ v ∈ t.votes, ¬ (v.createdBy = user ∧ v.relatedReview = review) := by
  rintro v stored ⟨rfl, rfl⟩
  rw [graph_row t m v graph stored] at absent
  cases absent

theorem add_in_tx (q : VoteRequest) (base t : Tables) (m : Ledger) (action : VoteAction) (row : Generated)
    (kind : q.ballot = .cast action row) (within : Within base t) (booked : Booked t m (onReview q.review fun _ => 0))
    (absent : m q.user q.review = none) :
    InTx hashtext (Prog.bind (sql (.insertVote row action q.user.text q.reviewId)) fun _ =>
        ReviewService.incrementVotesTx q.reviewId action 1) t
      (ends (fun _ after => Booked after (m.set q.user q.review (some action)) (onReview q.review fun _ => 0))
        (Unblocked q base)) := by
  have free := no_row t m q.user q.review booked.graph absent
  refine in_tx_seq (fun _ after => after = t.apply (.insertVote ⟨row, action, q.user, q.review⟩) ∧
    Booked after (m.set q.user q.review (some action)) (onReview q.review (single action (-1)))) ?_ ?_
  · refine in_tx_sql _ _ _ _ (fun fault refused => ?_) fun allowed => ?_
    · obtain ⟨other, reason⟩ := refused_insert q t action row fault refused free
      refine ⟨fun same => other (by cases same; rfl), fun clear => ?_⟩
      rcases reason with ⟨v, stored, same⟩ | missing | missing
      · exact clear.fresh action row kind v (within.votes v stored) same
      · obtain ⟨account, member, same⟩ := clear.account
        exact missing account (within.accounts ▸ member) same
      · exact missing ((within.reviews _).mpr clear.review)
    · have sound := sound_attempts t _ booked.valid allowed
      have gap := gap_view t _ _ booked.valid sound (tallied_map _ _ fun _ => rfl) booked.gap
      have valid := integrity.valid_view t _ booked.valid sound
      have graph := graph_insert t m ⟨row, action, q.user, q.review⟩ booked.graph free
      refine ⟨?_, valid, ?_, ?_⟩
      · show view schema t (t.attempts (.insertVote row action q.user.text q.reviewId)) = _
        rw [attempts_insert]
        rfl
      · intro review member other
        have total := gap review member other
        simp only [debt_insert] at total
        rw [total]
        simp [onReview]
      · show (view schema t (t.attempts (.insertVote row action q.user.text q.reviewId))).Graph _
        rw [attempts_insert]
        exact graph
  · rintro - after ⟨rfl, inserted⟩
    refine in_tx_sql _ _ _ _ (fun fault refused => ?_) fun allowed => ?_
    · have failed := refused_change q _ _ action 1 fault inserted.gap refused
      have one : single action (-1) action = -1 := if_pos rfl
      rw [one] at failed
      rcases failed with ⟨negative, -⟩ | ⟨large, rfl⟩
      · omega
      · refine ⟨(fun same => by cases same), fun clear => ?_⟩
        have more := count_insert t ⟨row, action, q.user, q.review⟩ q.review action
        rw [if_pos ⟨rfl, rfl⟩] at more
        have fewer := within.counts q.review action
        have room := clear.room action
        omega
    · refine booked_add_votes q _ _ _ action 1 _ inserted allowed fun a => ?_
      unfold single
      split <;> rfl

theorem counts_review (q : VoteRequest) (t : Tables) :
    t.answer (.countReviews q.reviewId) = 0 ↔ ¬ t.HasReview q.review := by
  show t.reviews.countP (fun row => some row.id = uuidIn q.reviewId) = 0 ↔ _
  rw [parsed_review, List.countP_eq_zero]
  simp [HasReview]

theorem exists_in_tx (q : VoteRequest) (base t : Tables) (within : Within base t) :
    InTx hashtext (ReviewService.existsOrThrowTx q.reviewId) t
      (ends (fun _ after => after = t) (Unblocked q base)) := by
  have verified : ReviewService.verifyUUidOrThrow q.reviewId = .done () := by
    rw [ReviewService.verifyUUidOrThrow, q.valid]
    rfl
  rw [ReviewService.existsOrThrowTx, ReviewService.existsOrThrow, verified]
  refine in_tx_seq (fun _ after => after = t) (in_tx_done (S := schema) (C := Redis.commands) () t _ rfl) ?_
  rintro - after rfl
  refine in_tx_seq (fun (count : Nat) rows => rows = after ∧ (count = 0 ↔ ¬ after.HasReview q.review)) ?_ ?_
  · refine in_tx_sql _ _ _ _ (fun fault refused => ?_) fun _ => ⟨rfl, counts_review q after⟩
    simp [refuses, Sql.uuids, parsed_review, attempts] at refused
  · rintro count rows ⟨rfl, zero⟩
    by_cases missing : count = 0
    · rw [if_pos missing]
      exact in_tx_throw _ _ _ ⟨(fun same => by cases same), fun clear => zero.mp missing ((within.reviews _).mpr clear.review)⟩
    · rw [if_neg missing]
      exact in_tx_done _ _ _ rfl

theorem find_in_tx (q : VoteRequest) (t : Tables) (m : Ledger) (graph : t.Graph m) (bad : Err → Prop) :
    InTx hashtext (sql (.findVote q.reviewId q.user.text)) t (ends (fun found after => after = t ∧ match found with
      | none => m q.user q.review = none
      | some vote => vote ∈ t.votes ∧ vote.relatedReview = q.review ∧ vote.createdBy = q.user) bad) := by
  refine in_tx_sql _ _ _ _ (fun fault refused => ?_) fun _ => ⟨rfl, ?_⟩
  · simp [refuses, Sql.uuids, parsed_review, uuid_in_text, attempts] at refused
  · cases answered : t.answer (.findVote q.reviewId q.user.text) with
    | some vote =>
        show match t.answer (.findVote q.reviewId q.user.text) with
          | none => m q.user q.review = none
          | some vote => vote ∈ t.votes ∧ vote.relatedReview = q.review ∧ vote.createdBy = q.user
        rw [answered]
        exact found_vote q t vote answered
    | none =>
        show match t.answer (.findVote q.reviewId q.user.text) with
          | none => m q.user q.review = none
          | some vote => vote ∈ t.votes ∧ vote.relatedReview = q.review ∧ vote.createdBy = q.user
        rw [answered]
        have absent : t.votes.find? (fun row =>
            some row.relatedReview = uuidIn q.reviewId && some row.createdBy = uuidIn q.user.text) = none := answered
        simp only [List.find?_eq_none, parsed_review, uuid_in_text, Option.some.injEq, Bool.and_eq_true,
          decide_eq_true_eq] at absent
        exact graph_none t m _ _ graph fun v stored both => absent v stored ⟨both.2, both.1⟩

end Pieces

section Serial

variable {hashtext : Text → Int32}

theorem vote_review_in_tx (q : VoteRequest) (t : Tables) (m : Ledger) (action : VoteAction) (row : Generated)
    (kind : q.ballot = .cast action row) (booked : Booked t m (onReview q.review fun _ => 0)) :
    InTx hashtext (do
      ReviewService.existsOrThrowTx q.reviewId
      let acquired ← VotesService.acquireVoteLock q.user.text q.reviewId
      if !acquired then return
      let previousVote : Option Vote ← sql (.findVote q.reviewId q.user.text)
      if let some previous := previousVote then
        if previous.action = action then return
        VotesService.deleteVoteAndUpdateReviewTx previous q.reviewId
      sql (.insertVote row action q.user.text q.reviewId)
      ReviewService.incrementVotesTx q.reviewId action 1) t
      (ends (fun _ after => Booked after (m.set q.user q.review (some action)) (onReview q.review fun _ => 0))
        (Unblocked q t)) := by
  refine in_tx_seq _ (exists_in_tx q t t (within_refl t)) ?_
  rintro - after rfl
  refine in_tx_seq (fun acquired rows => rows = after ∧ acquired = true) (in_tx_try_lock _ _ _ _ ⟨rfl, rfl⟩) ?_
  rintro acquired rows ⟨rfl, rfl⟩
  refine in_tx_seq _ (find_in_tx q rows m booked.graph _) ?_
  rintro found after ⟨rfl, known⟩
  cases found with
  | none => exact add_in_tx q after after m action row kind (within_refl _) booked known
  | some previous =>
      obtain ⟨stored, on, owner⟩ := known
      have entry := graph_row after m previous booked.graph stored
      rw [owner, on] at entry
      by_cases same : previous.action = action
      · have unchanged : m.set q.user q.review (some action) = m := Ledger.set_same m _ _ _ (by rw [entry, same])
        have returned : InTx hashtext (.done () : Async Unit) after (ends (fun _ after =>
            Booked after (m.set q.user q.review (some action)) (onReview q.review fun _ => 0)) (Unblocked q after)) :=
          in_tx_done (S := schema) (C := Redis.commands) () after _ (by rw [unchanged]; exact booked)
        simp only [same, if_true]
        exact returned
      · have switched : InTx hashtext (Prog.bind (VotesService.deleteVoteAndUpdateReviewTx previous q.reviewId) fun _ =>
            Prog.bind (sql (.insertVote row action q.user.text q.reviewId)) fun _ =>
              ReviewService.incrementVotesTx q.reviewId action 1) after (ends (fun _ after =>
            Booked after (m.set q.user q.review (some action)) (onReview q.review fun _ => 0)) (Unblocked q after)) := by
          refine in_tx_seq _ (remove_in_tx q after after m previous (within_refl _) booked stored on) ?_
          rintro - rows ⟨removed, within⟩
          rw [owner] at removed
          rw [← Ledger.set_set m q.user q.review none (some action)]
          exact add_in_tx q after rows _ action row kind within removed (Ledger.set_self _ _ _ _)
        simp only [same, if_false]
        exact switched

theorem delete_vote_in_tx (q : VoteRequest) (t : Tables) (m : Ledger) (booked : Booked t m (onReview q.review fun _ => 0)) :
    InTx hashtext (do
      let acquired ← VotesService.acquireVoteLock q.user.text q.reviewId
      if !acquired then return false
      let previousVote : Option Vote ← sql (.findVote q.reviewId q.user.text)
      match previousVote with
      | none => return false
      | some previous =>
          VotesService.deleteVoteAndUpdateReviewTx previous q.reviewId
          return true) t
      (ends (fun answer after => answer = (m q.user q.review).isSome ∧
        Booked after (m.set q.user q.review none) (onReview q.review fun _ => 0)) (Unblocked q t)) := by
  refine in_tx_seq (fun acquired rows => rows = t ∧ acquired = true) (in_tx_try_lock _ _ _ _ ⟨rfl, rfl⟩) ?_
  rintro acquired rows ⟨rfl, rfl⟩
  refine in_tx_seq _ (find_in_tx q rows m booked.graph _) ?_
  rintro found after ⟨rfl, known⟩
  cases found with
  | none =>
      have entry : m q.user q.review = none := known
      refine in_tx_done (S := schema) (C := Redis.commands) false after _ ⟨by rw [entry]; rfl, ?_⟩
      rw [Ledger.set_same m _ _ _ entry]
      exact booked
  | some previous =>
      obtain ⟨stored, on, owner⟩ := known
      have entry := graph_row after m previous booked.graph stored
      rw [owner, on] at entry
      refine in_tx_seq _ (remove_in_tx q after after m previous (within_refl _) booked stored on) ?_
      rintro - rows ⟨removed, -⟩
      rw [owner] at removed
      exact in_tx_done (S := schema) (C := Redis.commands) true rows _ ⟨by rw [entry]; rfl, removed⟩

theorem exists_yields (q : VoteRequest) (world : World) :
    Yields (engine hashtext) (ReviewService.existsOrThrow q.reviewId) world none fun result left after =>
      left = world ∧ after = none ∧ match result with
        | .ok () => True
        | .error error => Unblocked q world.db error := by
  have verified : ReviewService.verifyUUidOrThrow q.reviewId = .done () := by
    rw [ReviewService.verifyUUidOrThrow, q.valid]
    rfl
  rw [ReviewService.existsOrThrow, verified]
  show Yields (engine hashtext) (Prog.bind (sql (.countReviews q.reviewId)) fun (count : Nat) =>
    if count = 0 then reject ReviewService.notFound else pure ()) world none _
  refine yields_bind _ _ _ _ _ (yields_sql _ (Sql.countReviews q.reviewId) world _ (fun fault refused => ?_) fun _ => ?_)
  · simp [Tables.refuses, Sql.uuids, parsed_review, Tables.attempts] at refused
  · have counted := counts_review q world.db
    show Yields (engine hashtext) (if Tables.answer world.db (.countReviews q.reviewId) = 0 then reject ReviewService.notFound
      else pure ()) _ _ _
    by_cases missing : Tables.answer world.db (.countReviews q.reviewId) = 0
    · rw [if_pos missing]
      exact ⟨rfl, rfl, (fun same => by cases same), fun clear => counted.mp missing clear.review⟩
    · rw [if_neg missing]
      exact ⟨rfl, rfl, trivial⟩

-- A request that is served alone does to the ledger what its ballot says, or
-- it fails and changes nothing.
theorem vote_request_yields (q : VoteRequest) (world : World) (m : Ledger) (booked : Booked world.db m fun _ _ => 0) :
    Yields (engine hashtext) q.program world none fun result left after => after = none ∧ left.store = world.store ∧
      match result with
      | .ok answer => answer = q.answer (m q.user q.review) ∧
          Booked left.db (m.set q.user q.review q.ballot.entry) fun _ _ => 0
      | .error error => left.db = world.db ∧ Unblocked q world.db error := by
  have zero := on_review_zero q.review
  rw [← zero] at booked
  cases kind : q.ballot with
  | cast action row =>
      have program : q.program = Prog.bind (VotesService.voteReview q.reviewId q.user action row) fun _ => pure true := by
        rw [VoteRequest.program, kind]
        rfl
      rw [program]
      refine yields_bind _ _ _ _ _ (yields_mono _ _ _ _ _ (yields_in_tx _ world none _
        (vote_review_in_tx q world.db m action row kind booked)) ?_)
      rintro result left after ⟨rfl, store, rest⟩
      cases result with
      | error error => exact ⟨rfl, store, rest.1, rest.2.choose_spec⟩
      | ok value =>
          refine ⟨rfl, store, by simp [VoteRequest.answer, kind], ?_⟩
          rw [← zero]
          exact rest
  | retract =>
      have program : q.program = Prog.bind (ReviewService.existsOrThrow q.reviewId) fun _ => transaction do
          let acquired ← VotesService.acquireVoteLock q.user.text q.reviewId
          if !acquired then return false
          let previousVote : Option Vote ← sql (.findVote q.reviewId q.user.text)
          match previousVote with
          | none => return false
          | some previous =>
              VotesService.deleteVoteAndUpdateReviewTx previous q.reviewId
              return true := by
        rw [VoteRequest.program, kind]
        rfl
      rw [program]
      refine yields_bind _ _ _ _ _ (yields_mono _ _ _ _ _ (exists_yields q world) ?_)
      rintro result left after ⟨rfl, rfl, found⟩
      cases result with
      | error error => exact ⟨rfl, rfl, rfl, found⟩
      | ok value =>
          refine yields_mono _ _ _ _ _ (yields_in_tx _ left none _ (delete_vote_in_tx q left.db m booked)) ?_
          rintro result last after ⟨rfl, store, rest⟩
          cases result with
          | error error => exact ⟨rfl, store, rest.1, rest.2.choose_spec⟩
          | ok answer =>
              refine ⟨rfl, store, by simp [VoteRequest.answer, kind, rest.1], ?_⟩
              rw [← zero]
              exact rest.2

end Serial

end RateWise
