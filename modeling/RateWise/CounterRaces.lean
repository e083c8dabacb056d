import RateWise.ChartedSteps
import RateWise.Counters
import RateWise.DeletionFlow
import RateWise.VoteFlow

set_option autoImplicit false

namespace RateWise

open Interleave
open ReadCommitted (view pending Sound Moved Consistent)

abbrev ApiTx := ReadCommitted.Tx schema Int32

abbrev Log := List (Event Api)

def voteRead : Event Api → Option Vote
  | .ran (.sql (.findVote _ _)) (.ok (some vote)) => some vote
  | _ => none

def lastVote (log : Log) : Option Vote := log.findSome? voteRead

def votesRead : Event Api → Option (List VoteSummary)
  | .ran (.sql (.findVotesBy _)) (.ok votes) => some votes
  | _ => none

def lastVotes (log : Log) : Option (List VoteSummary) := log.findSome? votesRead

theorem uuid_in_review (q : VoteRequest) : ∃ review, uuidIn q.reviewId = some review :=
  valid_uuid_parses q.reviewId q.valid

def VoteRequest.review (q : VoteRequest) : Uuid := (uuidIn q.reviewId).get
  (by obtain ⟨review, parsed⟩ := uuid_in_review q; simp [parsed])

theorem parsed_review (q : VoteRequest) : uuidIn q.reviewId = some q.review := by
  simp [VoteRequest.review]

-- The DELETE of a vote removes the row that the request has read before, or
-- that row has gone together with its review.
def Lands (t : Tables) (log : Log) (id : Uuid) : Prop :=
  ∀ vote ∈ lastVote log, vote ∈ t.votes ∨ (t.attempts (.deleteVote id) = [] ∧ ¬ t.HasReview vote.relatedReview)

instance (t : Tables) (log : Log) (id : Uuid) : Decidable (Lands t log id) :=
  inferInstanceAs (Decidable (∀ vote ∈ lastVote log,
    vote ∈ t.votes ∨ (t.attempts (.deleteVote id) = [] ∧ ¬ t.HasReview vote.relatedReview)))

def onReview (review : Uuid) (owed : VoteAction → Int) : Uuid → VoteAction → Int :=
  fun r a => if r = review then owed a else 0

def single (action : VoteAction) (value : Int) : VoteAction → Int := fun a => if action = a then value else 0

def VotePoint.owed : VotePoint → Option (VoteAction → Int)
  | .lowering vote => some (single vote.action 1)
  | .raising action => some (single action (-1))
  | .queued => none
  | .opening => none
  | .undoing _ => none
  | .ended _ => none
  | _ => some fun _ => 0

def VotePoint.vote : VotePoint → Option Vote
  | .removing vote => some vote
  | .lowering vote => some vote
  | _ => none

structure VoteFacts (q : VoteRequest) (t : Tables) (log : Log) (tx : Option ApiTx) (p : VotePoint) : Prop where
  inside : ∀ owed, p.owed = some owed → ∃ x, tx = some x ∧ t.Owes x.writes (onReview q.review owed)
  outside : p = .queued ∨ p = .opening → tx = none
  read : ∀ vote, p.vote = some vote → vote.relatedReview = q.review
  logged : ∀ vote, p = .removing vote → lastVote log = some vote

theorem on_review_zero (review : Uuid) : (onReview review fun _ => 0) = fun _ _ => 0 := by
  funext r a
  simp [onReview]

theorem vote_facts_aside (q : VoteRequest) (t : Tables) (log : Log) (tx : Option ApiTx) (p : VotePoint)
    (settled : p.owed = none) (idle : p.vote = none) (started : p ≠ .queued ∧ p ≠ .opening) : VoteFacts q t log tx p where
  inside owed found := by rw [settled] at found; cases found
  outside early := by
    rcases early with rfl | rfl
    · exact absurd rfl started.1
    · exact absurd rfl started.2
  read vote found := by rw [idle] at found; cases found
  logged vote found := by rw [found] at idle; cases idle

theorem vote_facts_inside (q : VoteRequest) (t : Tables) (log : Log) (x : ApiTx) (p : VotePoint) (owed : VoteAction → Int)
    (owing : p.owed = some owed) (owes : t.Owes x.writes (onReview q.review owed))
    (read : ∀ vote, p.vote = some vote → vote.relatedReview = q.review)
    (logged : ∀ vote, p = .removing vote → lastVote log = some vote) : VoteFacts q t log (some x) p where
  inside other found := by
    rw [owing] at found
    cases found
    exact ⟨x, rfl, owes⟩
  outside early := by rcases early with rfl | rfl <;> cases owing
  read := read
  logged := logged

theorem vote_facts_mono (q : VoteRequest) (t u : Tables) (log : Log) (tx : Option ApiTx) (p : VotePoint)
    (facts : VoteFacts q t log tx p) (fewer : ∀ id, u.HasReview id → t.HasReview id) : VoteFacts q u log tx p where
  inside owed found := by
    obtain ⟨x, opened, owes⟩ := facts.inside owed found
    exact ⟨x, opened, Tables.owes_mono t u x.writes _ owes fewer⟩
  outside := facts.outside
  read := facts.read
  logged := facts.logged


theorem debt_remove (q : VoteRequest) (t : Tables) (log : Log) (vote : Vote) (valid : t.Integrity)
    (lands : Lands t log vote.id) (logged : lastVote log = some vote) (same : vote.relatedReview = q.review)
    (review : Uuid) (action : VoteAction) (present : t.HasReview review) :
    debt (t.attempts (.deleteVote vote.id)) review action = onReview q.review (single vote.action 1) review action := by
  rcases lands vote logged with stored | ⟨nothing, gone⟩
  · rw [Tables.attempts_delete_vote t vote valid stored]
    simp only [debt, List.map_singleton, List.sum_singleton, Write.debt, onReview, single, same]
    by_cases here : q.review = review
    · simp [here]
    · simp [here, Ne.symm here]
  · have elsewhere : review ≠ q.review := by
      rintro rfl
      exact gone (same ▸ present)
    simp [nothing, debt_nil, onReview, elsewhere]

theorem debt_review (q : VoteRequest) (t : Tables) (valid : t.Integrity) (action : VoteAction) (value : Int)
    (review : Uuid) (other : VoteAction) (present : t.HasReview review) :
    debt (t.attempts (.addVotes [q.reviewId] action value)) review other =
      onReview q.review (single action value) review other := by
  rw [Tables.debt_add_votes t _ action value valid review other present]
  simp only [List.filterMap_cons, parsed_review, List.filterMap_nil, List.mem_singleton, onReview, single]
  by_cases here : review = q.review <;> simp [here]

theorem vote_row (q : VoteRequest) (row : Generated) (action : VoteAction) :
    voteRow row action q.user.text q.reviewId = some ⟨row, action, q.user, q.review⟩ := by
  simp [voteRow, uuid_in_text, parsed_review]

theorem debt_insert (q : VoteRequest) (t : Tables) (row : Generated) (action : VoteAction) (review : Uuid)
    (other : VoteAction) :
    debt (t.attempts (.insertVote row action q.user.text q.reviewId)) review other =
      onReview q.review (single action (-1)) review other := by
  simp only [Tables.attempts, vote_row, Option.toList_some, List.map_singleton, debt, List.sum_singleton, Write.debt,
    onReview, single]
  by_cases here : q.review = review
  · simp [here]
  · simp [here, Ne.symm here]

theorem tallied_map {α : Type} (rows : List α) (change : α → Write) (tallied : ∀ row, (change row).tallied = true) :
    ∀ w ∈ rows.map change, w.tallied = true := by
  intro w member
  obtain ⟨row, -, rfl⟩ := List.mem_map.mp member
  exact tallied row

theorem found_vote (q : VoteRequest) (t : Tables) (vote : Vote)
    (found : t.answer (.findVote q.reviewId q.user.text) = some vote) :
    vote ∈ t.votes ∧ vote.relatedReview = q.review ∧ vote.createdBy = q.user := by
  have listed : t.votes.find? (fun row =>
      some row.relatedReview = uuidIn q.reviewId && some row.createdBy = uuidIn q.user.text) = some vote := found
  have matched := List.find?_some listed
  simp only [parsed_review, uuid_in_text, Option.some.injEq, Bool.and_eq_true, decide_eq_true_eq] at matched
  exact ⟨List.mem_of_find?_eq_some listed, matched⟩

theorem asked_owes {Point : Type} {chart : Point → Node Api Err Bool Point} {world left : World} {others : List ApiTx}
    {hashtext : Text → Int32} {p p' : Point} {x : ApiTx} {after : Option ApiTx} {event : Event Api} (s : Sql)
    (next : Except Fault s.Answer → Point) (owed added total : Uuid → VoteAction → Int)
    (moved : Moved hashtext chart world others p (some x) p' after left event) (here : chart p = .stmt (.sql s) next)
    (owes : world.db.Owes x.writes owed) (tallied : ∀ w ∈ (view schema world.db x.writes).attempts s, w.tallied = true)
    (paid : ∀ r a, (view schema world.db x.writes).HasReview r →
      Tables.Spared ((view schema world.db x.writes).attempts s) r →
      debt ((view schema world.db x.writes).attempts s) r a = added r a)
    (sum : ∀ r a, owed r a + added r a = total r a) :
    left = world ∧ ((∃ fault, p' = next (.error fault)) ∨
      ∃ y, after = some y ∧ p' = next (.ok ((view schema world.db x.writes).answer s)) ∧
        event = .ran (.sql s) (.ok ((view schema world.db x.writes).answer s)) ∧ world.db.Owes y.writes total) := by
  rcases ReadCommitted.moved_sql moved here with ⟨fault, -, rfl, rfl, rfl, rfl⟩ | ⟨-, -, rfl, rfl, rfl, rfl⟩
  · exact ⟨rfl, .inl ⟨fault, rfl⟩⟩
  · exact ⟨rfl, .inr ⟨_, rfl, rfl, rfl, Tables.owes_append _ _ _ owed added _ owes tallied paid sum⟩⟩

theorem vote_asked {q : VoteRequest} {world left : World} {others : List ApiTx} {hashtext : Text → Int32} {log : Log}
    {p p' : VotePoint} {x : ApiTx} {after : Option ApiTx} {event : Event Api} (s : Sql) (next : s.Answer → VotePoint)
    (owed added : VoteAction → Int) (moved : Moved hashtext q.chart world others p (some x) p' after left event)
    (here : q.chart p = .stmt (.sql s) (VoteRequest.orUndo next))
    (owes : world.db.Owes x.writes (onReview q.review owed))
    (tallied : ∀ w ∈ (view schema world.db x.writes).attempts s, w.tallied = true)
    (paid : ∀ r a, (view schema world.db x.writes).HasReview r →
      debt ((view schema world.db x.writes).attempts s) r a = onReview q.review added r a)
    (onward : ∀ y : ApiTx, world.db.Owes y.writes (onReview q.review fun a => owed a + added a) →
      VoteFacts q world.db (.ran (.sql s) (.ok ((view schema world.db x.writes).answer s)) :: log) (some y)
        (next ((view schema world.db x.writes).answer s))) :
    VoteFacts q left.db (event :: log) after p' ∧ left.db = world.db := by
  have sum : ∀ r a, onReview q.review owed r a + onReview q.review added r a =
      onReview q.review (fun a => owed a + added a) r a := by
    intro r a
    by_cases here : r = q.review <;> simp [onReview, here]
  obtain ⟨rfl, ⟨fault, rfl⟩ | ⟨y, rfl, rfl, rfl, kept⟩⟩ :=
    asked_owes s _ _ _ _ moved here owes tallied (fun r a present _ => paid r a present) sum
  · exact ⟨vote_facts_aside q _ _ _ _ rfl rfl ⟨by simp [VoteRequest.orUndo], by simp [VoteRequest.orUndo]⟩, rfl⟩
  · exact ⟨onward y kept, rfl⟩

theorem vote_moved (q : VoteRequest) (world left : World) (others : List ApiTx) (hashtext : Text → Int32) (log : Log)
    (p p' : VotePoint) (tx after : Option ApiTx) (event : Event Api) (valid : world.db.Integrity)
    (sound : Sound (S := schema) Tables.Applies world.db (pending tx)) (exact : world.db.Exact)
    (facts : VoteFacts q world.db log tx p)
    (lands : ∀ vote, p = .removing vote → Lands (view schema world.db (pending tx)) log vote.id)
    (moved : Moved hashtext q.chart world others p tx p' after left event) :
    VoteFacts q left.db (event :: log) after p' ∧ left.db.Exact ∧ ∀ id, left.db.HasReview id → world.db.HasReview id := by
  have seen : (view schema world.db (pending tx)).Integrity := Tables.integrity.valid_view _ _ valid sound
  have quiet : ∀ {facts'}, (facts' ∧ left.db = world.db) →
      facts' ∧ left.db.Exact ∧ ∀ id, left.db.HasReview id → world.db.HasReview id :=
    fun ⟨kept, same⟩ => ⟨kept, same ▸ exact, fun id present => same ▸ present⟩
  have aside := fun p => vote_facts_aside q left.db (event :: log) after p
  have zero : ∀ r a, (0 : Int) = onReview q.review (fun _ => 0) r a := fun r a => by rw [on_review_zero]
  cases p with
  | queued =>
      cases kind : q.ballot with
      | cast action row =>
          have here : q.chart .queued = .beginTx .checking := by simp [VoteRequest.chart, kind]
          obtain ⟨rfl, rfl, rfl, rfl⟩ := ReadCommitted.moved_begin moved here
          refine quiet ⟨vote_facts_inside q _ _ _ _ _ rfl ?_ nofun nofun, rfl⟩
          rw [on_review_zero]
          exact Tables.owes_nil _
      | retract =>
          cases facts.outside (.inl rfl)
          have here := VoteRequest.chart.eq_1 q
          simp only [kind] at here
          rcases ReadCommitted.moved_autocommit moved here with ⟨fault, -, rfl, rfl, rfl, rfl⟩ | ⟨-, rfl, rfl, rfl, rfl⟩
          · exact quiet ⟨aside _ rfl rfl ⟨nofun, nofun⟩, rfl⟩
          · refine quiet ⟨?_, rfl⟩
            show VoteFacts q _ _ none (VoteRequest.counted _ _ (Tables.answer world.db (.countReviews q.reviewId)))
            unfold VoteRequest.counted
            split
            · exact vote_facts_aside q _ _ _ _ rfl rfl ⟨nofun, nofun⟩
            · exact ⟨nofun, fun _ => rfl, nofun, nofun⟩
  | opening =>
      cases facts.outside (.inr rfl)
      obtain ⟨rfl, rfl, rfl, rfl⟩ := ReadCommitted.moved_begin moved rfl
      refine quiet ⟨vote_facts_inside q _ _ _ _ _ rfl ?_ nofun nofun, rfl⟩
      rw [on_review_zero]
      exact Tables.owes_nil _
  | checking =>
      obtain ⟨x, rfl, owes⟩ := facts.inside _ rfl
      refine quiet (vote_asked (.countReviews q.reviewId) _ _ (fun _ => 0) moved rfl owes nofun
        (fun r a _ => zero r a) fun y kept => ?_)
      unfold VoteRequest.counted
      split
      · exact vote_facts_aside q _ _ _ _ rfl rfl ⟨nofun, nofun⟩
      · exact vote_facts_inside q _ _ _ _ _ rfl kept nofun nofun
  | locking =>
      obtain ⟨x, rfl, owes⟩ := facts.inside _ rfl
      rcases ReadCommitted.moved_try_lock moved rfl with ⟨rfl, rfl, rfl, rfl, -⟩ | ⟨rfl, rfl, rfl, rfl, -⟩
      · exact quiet ⟨vote_facts_inside q _ _ _ _ _ rfl owes nofun nofun, rfl⟩
      · exact quiet ⟨vote_facts_inside q _ _ _ _ _ rfl owes nofun nofun, rfl⟩
  | looking =>
      obtain ⟨x, rfl, owes⟩ := facts.inside _ rfl
      refine quiet (vote_asked (.findVote q.reviewId q.user.text) _ _ (fun _ => 0) moved rfl owes nofun
        (fun r a _ => zero r a) fun y kept => ?_)
      cases answered : (view schema world.db x.writes).answer (.findVote q.reviewId q.user.text) with
      | none =>
          simp only [VoteRequest.found]
          split
          · exact vote_facts_inside q _ _ _ _ _ rfl kept nofun nofun
          · exact vote_facts_inside q _ _ _ _ _ rfl kept nofun nofun
      | some vote =>
          have same := (found_vote q _ vote answered).2.1
          have removing : VoteFacts q world.db
              (.ran (.sql (.findVote q.reviewId q.user.text)) (.ok (some vote)) :: log) (some y) (.removing vote) :=
            vote_facts_inside q _ _ _ _ _ rfl kept (fun other found => by cases found; exact same)
              (fun other found => by cases found; rfl)
          simp only [VoteRequest.found]
          split
          · split
            · exact vote_facts_inside q _ _ _ _ _ rfl kept nofun nofun
            · exact removing
          · exact removing
  | removing vote =>
      obtain ⟨x, rfl, owes⟩ := facts.inside _ rfl
      have logged := facts.logged vote rfl
      have same := facts.read vote rfl
      refine quiet (vote_asked (.deleteVote vote.id) _ _ (single vote.action 1) moved rfl owes
        (tallied_map _ _ fun _ => rfl)
        (fun r a present => debt_remove q _ log vote seen (lands vote rfl) logged same r a present) fun y kept => ?_)
      refine vote_facts_inside q _ _ _ _ _ rfl ?_ (fun other found => ?_) nofun
      · simpa using kept
      · cases found
        exact same
  | lowering vote =>
      obtain ⟨x, rfl, owes⟩ := facts.inside _ rfl
      refine quiet (vote_asked (.addVotes [q.reviewId] vote.action (-1)) _ _ (single vote.action (-1)) moved rfl owes
        (tallied_map _ _ fun _ => rfl) (fun r a present => debt_review q _ seen _ _ r a present) fun y kept => ?_)
      have paid : (fun a => single vote.action 1 a + single vote.action (-1) a) = fun _ => 0 := by
        funext a
        unfold single
        split <;> rfl
      rw [paid] at kept
      unfold VoteRequest.lowered
      split
      · exact vote_facts_inside q _ _ _ _ _ rfl kept nofun nofun
      · exact vote_facts_inside q _ _ _ _ _ rfl kept nofun nofun
  | adding action row =>
      obtain ⟨x, rfl, owes⟩ := facts.inside _ rfl
      refine quiet (vote_asked (.insertVote row action q.user.text q.reviewId) _ _ (single action (-1)) moved rfl owes
        (tallied_map _ _ fun _ => rfl) (fun r a _ => debt_insert q _ row action r a) fun y kept => ?_)
      exact vote_facts_inside q _ _ _ _ _ rfl (by simpa using kept) nofun nofun
  | raising action =>
      obtain ⟨x, rfl, owes⟩ := facts.inside _ rfl
      refine quiet (vote_asked (.addVotes [q.reviewId] action 1) _ _ (single action 1) moved rfl owes
        (tallied_map _ _ fun _ => rfl) (fun r a present => debt_review q _ seen _ _ r a present) fun y kept => ?_)
      have paid : (fun a => single action (-1) a + single action 1 a) = fun _ => 0 := by
        funext a
        unfold single
        split <;> rfl
      rw [paid] at kept
      exact vote_facts_inside q _ _ _ _ _ rfl kept nofun nofun
  | closing answer =>
      obtain ⟨x, rfl, owes⟩ := facts.inside _ rfl
      obtain ⟨rfl, rfl, rfl, rfl⟩ := ReadCommitted.moved_commit moved rfl
      rw [on_review_zero] at owes
      refine ⟨aside _ rfl rfl ⟨nofun, nofun⟩, Tables.exact_view _ _ valid sound exact owes, fun id present => ?_⟩
      exact ((Tables.has_review_view _ _ id owes.tallied).mp present).1
  | undoing error =>
      obtain ⟨rfl, rfl, rfl, rfl⟩ := ReadCommitted.moved_rollback moved rfl
      exact quiet ⟨aside _ rfl rfl ⟨nofun, nofun⟩, rfl⟩
  | ended result =>
      refine (ReadCommitted.moved_ended moved ?_).elim
      cases result with
      | ok answer => exact .inl ⟨answer, rfl⟩
      | error error => exact .inr ⟨error, rfl⟩

theorem vote_interrupted (q : VoteRequest) (t : Tables) (log : Log) (tx : Option ApiTx) (p : VotePoint) (s : Api.Stmt)
    (next : Except Fault (Api.Reply s) → VotePoint) (fault : Fault) (here : q.chart p = .stmt s next) :
    VoteFacts q t log tx (next (.error fault)) := by
  have gone : (∃ error, next (.error fault) = .undoing error) ∨ ∃ error, next (.error fault) = .ended (.error error) := by
    cases p with
    | queued =>
        cases kind : q.ballot <;> simp only [VoteRequest.chart, kind] at here <;> cases here
        exact .inr ⟨_, rfl⟩
    | ended result => cases result <;> cases here
    | opening => cases here
    | closing answer => cases here
    | undoing error => cases here
    | _ =>
        cases here
        exact .inl ⟨_, rfl⟩
  rcases gone with ⟨error, there⟩ | ⟨error, there⟩ <;> rw [there] <;>
    exact vote_facts_aside q _ _ _ _ rfl rfl ⟨nofun, nofun⟩

-- The votes that the cascade takes from the reviews that stay are those that
-- the deletion has read before.
def Matches (t : Tables) (log : Log) (account : Uuid) : Prop :=
  ∀ votes ∈ lastVotes log, ∀ row ∈ t.reviews, Tables.Spared (t.attempts (.removeAccount account)) row.id →
    ∀ action ∈ [VoteAction.up, VoteAction.down],
      (⟨row.id, action⟩ ∈ (t.attempts (.removeAccount account)).filterMap Write.takes ↔ ⟨row.id, action⟩ ∈ votes)

instance (t : Tables) (log : Log) (account : Uuid) : Decidable (Matches t log account) :=
  inferInstanceAs (Decidable (∀ votes ∈ lastVotes log, ∀ row ∈ t.reviews,
    Tables.Spared (t.attempts (.removeAccount account)) row.id → ∀ action ∈ [VoteAction.up, VoteAction.down],
      (⟨row.id, action⟩ ∈ (t.attempts (.removeAccount account)).filterMap Write.takes ↔ ⟨row.id, action⟩ ∈ votes)))

def revokedDebt (votes : List VoteSummary) (action : VoteAction) : Uuid → VoteAction → Int :=
  fun r a => if ⟨r, a⟩ ∈ votes ∧ a = action then -1 else 0

def cascadeDebt (votes : List VoteSummary) : Uuid → VoteAction → Int := fun r a => if ⟨r, a⟩ ∈ votes then -1 else 0

def DeletionPoint.owed : DeletionPoint → Option (Uuid → VoteAction → Int)
  | .subtractingDown _ votes => some (revokedDebt votes .up)
  | .removing _ votes => some (cascadeDebt votes)
  | .queued => none
  | .undoing _ => none
  | .forgetting => none
  | .ended _ => none
  | _ => some fun _ _ => 0

def DeletionPoint.votes : DeletionPoint → Option (List VoteSummary)
  | .subtractingUp _ votes => some votes
  | .subtractingDown _ votes => some votes
  | .removing _ votes => some votes
  | _ => none

structure DeletionFacts (t : Tables) (log : Log) (tx : Option ApiTx) (p : DeletionPoint) : Prop where
  inside : ∀ owed, p.owed = some owed → ∃ x, tx = some x ∧ t.Owes x.writes owed
  logged : ∀ votes, p.votes = some votes → lastVotes log = some votes

theorem deletion_facts_aside (t : Tables) (log : Log) (tx : Option ApiTx) (p : DeletionPoint) (settled : p.owed = none)
    (idle : p.votes = none) : DeletionFacts t log tx p where
  inside owed found := by rw [settled] at found; cases found
  logged votes found := by rw [idle] at found; cases found

theorem deletion_facts_inside (t : Tables) (log : Log) (x : ApiTx) (p : DeletionPoint) (owed : Uuid → VoteAction → Int)
    (owing : p.owed = some owed) (owes : t.Owes x.writes owed)
    (logged : ∀ votes, p.votes = some votes → lastVotes log = some votes) : DeletionFacts t log (some x) p where
  inside other found := by
    rw [owing] at found
    cases found
    exact ⟨x, rfl, owes⟩
  logged := logged

theorem deletion_facts_mono (t u : Tables) (log : Log) (tx : Option ApiTx) (p : DeletionPoint)
    (facts : DeletionFacts t log tx p) (fewer : ∀ id, u.HasReview id → t.HasReview id) : DeletionFacts u log tx p where
  inside owed found := by
    obtain ⟨x, opened, owes⟩ := facts.inside owed found
    exact ⟨x, opened, Tables.owes_mono t u x.writes _ owes fewer⟩
  logged := facts.logged

theorem mem_revoked (votes : List VoteSummary) (action : VoteAction) (review : Uuid) :
    review ∈ (Deletion.revoked votes action).filterMap uuidIn ↔ (⟨review, action⟩ : VoteSummary) ∈ votes := by
  simp only [Deletion.revoked, List.filterMap_map, List.mem_filterMap, List.mem_filter, Function.comp, uuid_in_text,
    decide_eq_true_eq, Option.some.injEq]
  constructor
  · rintro ⟨⟨r, a⟩, ⟨member, rfl⟩, rfl⟩
    exact member
  · intro member
    exact ⟨⟨review, action⟩, ⟨member, rfl⟩, rfl⟩

theorem debt_revoke (t : Tables) (votes : List VoteSummary) (action : VoteAction) (valid : t.Integrity) (r : Uuid)
    (a : VoteAction) (present : t.HasReview r) :
    debt (t.attempts (.addVotes (Deletion.revoked votes action) action (-1))) r a = revokedDebt votes action r a := by
  rw [Tables.debt_add_votes t _ action _ valid r a present]
  simp only [mem_revoked, revokedDebt]
  by_cases same : action = a
  · subst same
    simp
  · simp [same, Ne.symm same]

theorem revoked_empty (votes : List VoteSummary) (action : VoteAction) (empty : (Deletion.revoked votes action).length = 0) :
    revokedDebt votes action = fun _ _ => 0 := by
  funext r a
  unfold revokedDebt
  rw [if_neg]
  rintro ⟨member, rfl⟩
  have listed := (mem_revoked votes a r).mpr member
  rw [List.length_eq_zero_iff.mp empty] at listed
  cases listed

theorem revoked_both (votes : List VoteSummary) :
    ∀ r a, revokedDebt votes .up r a + revokedDebt votes .down r a = cascadeDebt votes r a := by
  intro r a
  cases a <;> simp [revokedDebt, cascadeDebt]

-- After the read and after the up votes: the same debt, whichever UPDATE is
-- left out for an empty list.
theorem deletion_facts_subtracted (t : Tables) (log : Log) (x : ApiTx) (user : Account) (votes : List VoteSummary)
    (owes : t.Owes x.writes (revokedDebt votes .up)) (logged : lastVotes log = some votes) :
    DeletionFacts t log (some x) (Deletion.subtractedUp user votes) := by
  unfold Deletion.subtractedUp
  split
  · rename_i empty
    have same : revokedDebt votes .up = cascadeDebt votes := by
      funext r a
      rw [← revoked_both, revoked_empty votes .down empty, add_zero]
    exact deletion_facts_inside _ _ _ _ _ rfl (same ▸ owes) fun other found => by cases found; exact logged
  · exact deletion_facts_inside _ _ _ _ _ rfl owes fun other found => by cases found; exact logged

theorem deletion_facts_read (t : Tables) (log : Log) (x : ApiTx) (user : Account) (votes : List VoteSummary)
    (owes : t.Owes x.writes fun _ _ => 0) (logged : lastVotes log = some votes) :
    DeletionFacts t log (some x) (Deletion.read user votes) := by
  unfold Deletion.read
  split
  · rename_i empty
    exact deletion_facts_subtracted _ _ _ _ _ (revoked_empty votes .up empty ▸ owes) logged
  · exact deletion_facts_inside _ _ _ _ _ rfl owes fun other found => by cases found; exact logged

theorem last_votes_silent (log : Log) (event : Event Api) (votes : List VoteSummary) (logged : lastVotes log = some votes)
    (silent : votesRead event = none) : lastVotes (event :: log) = some votes := by
  rw [lastVotes, List.findSome?_cons, silent]
  exact logged

theorem deletion_moved (userId : Text) (world left : World) (others : List ApiTx) (hashtext : Text → Int32) (log : Log)
    (p p' : DeletionPoint) (tx after : Option ApiTx) (event : Event Api) (valid : world.db.Integrity)
    (sound : Sound (S := schema) Tables.Applies world.db (pending tx)) (exact : world.db.Exact)
    (facts : DeletionFacts world.db log tx p)
    (matching : ∀ user votes, p = .removing user votes → Matches (view schema world.db (pending tx)) log user.id)
    (moved : Moved hashtext (Deletion.chart userId) world others p tx p' after left event) :
    DeletionFacts left.db (event :: log) after p' ∧ left.db.Exact ∧
      ∀ id, left.db.HasReview id → world.db.HasReview id := by
  have seen : (view schema world.db (pending tx)).Integrity := Tables.integrity.valid_view _ _ valid sound
  have quiet : ∀ {facts'}, (facts' ∧ left.db = world.db) →
      facts' ∧ left.db.Exact ∧ ∀ id, left.db.HasReview id → world.db.HasReview id :=
    fun ⟨kept, same⟩ => ⟨kept, same ▸ exact, fun id present => same ▸ present⟩
  have aside := fun p => deletion_facts_aside left.db (event :: log) after p
  cases p with
  | queued =>
      obtain ⟨rfl, rfl, rfl, rfl⟩ := ReadCommitted.moved_begin moved rfl
      split
      · exact quiet ⟨deletion_facts_inside _ _ _ _ _ rfl (Tables.owes_nil _) nofun, rfl⟩
      · exact quiet ⟨aside _ rfl rfl, rfl⟩
  | finding =>
      obtain ⟨x, rfl, owes⟩ := facts.inside _ rfl
      obtain ⟨rfl, ⟨fault, rfl⟩ | ⟨y, rfl, rfl, rfl, kept⟩⟩ := asked_owes (.findAccount userId) _ _ (fun _ _ => 0) _ moved rfl
        owes nofun (fun r a _ _ => rfl) (fun _ _ => rfl)
      · exact quiet ⟨aside _ rfl rfl, rfl⟩
      · refine quiet ⟨?_, rfl⟩
        show DeletionFacts _ _ _ (Deletion.found _)
        unfold Deletion.found
        split
        · exact aside _ rfl rfl
        · exact deletion_facts_inside _ _ _ _ _ rfl kept nofun
  | reading user =>
      obtain ⟨x, rfl, owes⟩ := facts.inside _ rfl
      obtain ⟨rfl, ⟨fault, rfl⟩ | ⟨y, rfl, rfl, rfl, kept⟩⟩ := asked_owes (.findVotesBy userId) _ _ (fun _ _ => 0) _ moved rfl
        owes nofun (fun r a _ _ => rfl) (fun _ _ => rfl)
      · exact quiet ⟨aside _ rfl rfl, rfl⟩
      · exact quiet ⟨deletion_facts_read _ _ _ _ _ kept rfl, rfl⟩
  | subtractingUp user votes =>
      obtain ⟨x, rfl, owes⟩ := facts.inside _ rfl
      obtain ⟨rfl, ⟨fault, rfl⟩ | ⟨y, rfl, rfl, rfl, kept⟩⟩ := asked_owes (.addVotes (Deletion.revoked votes .up) .up (-1)) _ _
        (revokedDebt votes .up) _ moved rfl owes (tallied_map _ _ fun _ => rfl)
        (fun r a present _ => debt_revoke _ votes .up seen r a present) (fun _ _ => zero_add _)
      · exact quiet ⟨aside _ rfl rfl, rfl⟩
      · exact quiet ⟨deletion_facts_subtracted _ _ _ _ _ kept (last_votes_silent _ _ _ (facts.logged votes rfl) rfl), rfl⟩
  | subtractingDown user votes =>
      obtain ⟨x, rfl, owes⟩ := facts.inside _ rfl
      obtain ⟨rfl, ⟨fault, rfl⟩ | ⟨y, rfl, rfl, rfl, kept⟩⟩ := asked_owes (.addVotes (Deletion.revoked votes .down) .down (-1))
        _ _ (revokedDebt votes .down) _ moved rfl owes (tallied_map _ _ fun _ => rfl)
        (fun r a present _ => debt_revoke _ votes .down seen r a present) (revoked_both votes)
      · exact quiet ⟨aside _ rfl rfl, rfl⟩
      · refine quiet ⟨deletion_facts_inside _ _ _ _ _ rfl kept fun other found => ?_, rfl⟩
        cases found
        exact last_votes_silent _ _ _ (facts.logged votes rfl) rfl
  | removing user votes =>
      obtain ⟨x, rfl, owes⟩ := facts.inside _ rfl
      have same : ∀ r a, (view schema world.db x.writes).HasReview r →
          Tables.Spared ((view schema world.db x.writes).attempts (.removeAccount user.id)) r →
          (⟨r, a⟩ ∈ ((view schema world.db x.writes).attempts (.removeAccount user.id)).filterMap Write.takes ↔
            ⟨r, a⟩ ∈ votes) := by
        rintro r a ⟨row, stored, rfl⟩ spared
        exact matching user votes rfl votes (facts.logged votes rfl) row stored spared a (by cases a <;> simp)
      obtain ⟨rfl, ⟨fault, rfl⟩ | ⟨y, rfl, rfl, rfl, kept⟩⟩ := asked_owes (.removeAccount user.id) _ _
        (fun r a => if VoteSummary.mk r a ∈ votes then 1 else 0) (fun _ _ => 0) moved rfl owes (Tables.tallied_remove_account _ _)
        (fun r a present spared => Tables.debt_remove_account _ user.id seen r a spared _ (same r a present spared))
        (fun r a => by unfold cascadeDebt; split <;> rfl)
      · exact quiet ⟨aside _ rfl rfl, rfl⟩
      · exact quiet ⟨deletion_facts_inside _ _ _ _ _ rfl kept nofun, rfl⟩
  | closing =>
      obtain ⟨x, rfl, owes⟩ := facts.inside _ rfl
      obtain ⟨rfl, rfl, rfl, rfl⟩ := ReadCommitted.moved_commit moved rfl
      refine ⟨aside _ rfl rfl, Tables.exact_view _ _ valid sound exact owes, fun id present => ?_⟩
      exact ((Tables.has_review_view _ _ id owes.tallied).mp present).1
  | undoing error =>
      obtain ⟨rfl, rfl, rfl, rfl⟩ := ReadCommitted.moved_rollback moved rfl
      exact quiet ⟨aside _ rfl rfl, rfl⟩
  | forgetting =>
      obtain ⟨rfl, rows, reply, rfl, rfl⟩ := ReadCommitted.moved_cmd moved rfl
      refine quiet ⟨?_, rows⟩
      split <;> exact aside _ rfl rfl
  | ended result =>
      refine (ReadCommitted.moved_ended moved ?_).elim
      cases result with
      | ok answer => exact .inl ⟨answer, rfl⟩
      | error error => exact .inr ⟨error, rfl⟩

theorem deletion_interrupted (userId : Text) (t : Tables) (log : Log) (tx : Option ApiTx) (p : DeletionPoint)
    (s : Api.Stmt) (next : Except Fault (Api.Reply s) → DeletionPoint) (fault : Fault)
    (here : Deletion.chart userId p = .stmt s next) : DeletionFacts t log tx (next (.error fault)) := by
  cases p with
  | ended result => cases result <;> cases here
  | queued => cases here
  | closing => cases here
  | undoing error => cases here
  | _ =>
      cases here
      exact deletion_facts_aside _ _ _ _ rfl rfl

inductive Request where
  | vote (q : VoteRequest)
  | deletion (userId : Text)

def Request.program : Request → Async Bool
  | .vote q => q.program
  | .deletion userId => Deletion.program userId

section Races

variable {n : Nat} {hashtext : Text → Int32}

abbrev ApiSession (hashtext : Text → Int32) := Session (engine hashtext) Err Bool

abbrev ApiNet (hashtext : Text → Int32) (n : Nat) := Net (engine hashtext) Err Bool n

abbrev ApiMove (hashtext : Text → Int32) (n : Nat) := Move (engine hashtext) n

def sees (net : ApiNet hashtext n) (i : Fin n) : Tables := view schema net.world.db (pending (net.sessions i).tx)

def asksDelete : Option Api.Stmt → Option Uuid
  | some (.sql (.deleteVote id)) => some id
  | _ => none

def asksRemoval : Option Api.Stmt → Option Uuid
  | some (.sql (.removeAccount id)) => some id
  | _ => none

def DeleteLands (net : ApiNet hashtext n) : ApiMove hashtext n → Prop
  | .turn i => ∀ id ∈ asksDelete (net.sessions i).prog.asked, Lands (sees net i) (net.sessions i).log id
  | _ => True

def CascadeMatches (net : ApiNet hashtext n) : ApiMove hashtext n → Prop
  | .turn i => ∀ id ∈ asksRemoval (net.sessions i).prog.asked, Matches (sees net i) (net.sessions i).log id
  | _ => True

instance (net : ApiNet hashtext n) : ∀ move, Decidable (DeleteLands net move)
  | .turn i => inferInstanceAs (Decidable (∀ id ∈ asksDelete (net.sessions i).prog.asked,
      Lands (sees net i) (net.sessions i).log id))
  | .fault _ _ => .isTrue trivial
  | .drift _ => .isTrue trivial

instance (net : ApiNet hashtext n) : ∀ move, Decidable (CascadeMatches net move)
  | .turn i => inferInstanceAs (Decidable (∀ id ∈ asksRemoval (net.sessions i).prog.asked,
      Matches (sees net i) (net.sessions i).log id))
  | .fault _ _ => .isTrue trivial
  | .drift _ => .isTrue trivial

def RequestFacts (t : Tables) (session : ApiSession hashtext) : Request → Prop
  | .vote q => ∃ p, Follows q.chart session.prog p ∧ VoteFacts q t session.log session.tx p
  | .deletion userId => ∃ p, Follows (Deletion.chart userId) session.prog p ∧ DeletionFacts t session.log session.tx p

theorem request_facts_mono (t u : Tables) (session : ApiSession hashtext) (request : Request)
    (facts : RequestFacts t session request) (fewer : ∀ id, u.HasReview id → t.HasReview id) :
    RequestFacts u session request := by
  cases request with
  | vote q =>
      obtain ⟨p, follows, facts⟩ := facts
      exact ⟨p, follows, vote_facts_mono q t u _ _ p facts fewer⟩
  | deletion userId =>
      obtain ⟨p, follows, facts⟩ := facts
      exact ⟨p, follows, deletion_facts_mono t u _ _ p facts fewer⟩

structure Accounted (requests : Fin n → Request) (net : ApiNet hashtext n) : Prop where
  consistent : Consistent Tables.integrity net
  exact : net.world.db.Exact
  facts : ∀ i, RequestFacts net.world.db (net.sessions i) (requests i)

theorem request_advance (request : Request) (world left : World) (others : List ApiTx)
    (session after : ApiSession hashtext) (valid : world.db.Integrity)
    (sound : Sound (S := schema) Tables.Applies world.db (pending session.tx)) (exact : world.db.Exact)
    (facts : RequestFacts world.db session request)
    (lands : ∀ id, session.prog.asked = some (.sql (.deleteVote id)) → Lands (view schema world.db (pending session.tx)) session.log id)
    (matching : ∀ id, session.prog.asked = some (.sql (.removeAccount id)) →
      Matches (view schema world.db (pending session.tx)) session.log id)
    (advanced : session.advance world others = some (left, after)) :
    RequestFacts left.db after request ∧ left.db.Exact ∧ ∀ id, left.db.HasReview id → world.db.HasReview id := by
  cases request with
  | vote q =>
      obtain ⟨p, follows, facts⟩ := facts
      obtain ⟨p', event, onward, logged, moved⟩ :=
        ReadCommitted.advance_moved q.chart world left others session after p follows advanced
      obtain ⟨kept, rest⟩ := vote_moved q world left others hashtext session.log p p' session.tx after.tx event valid sound
        exact facts (fun vote here => lands vote.id (follows_asks (here ▸ follows) rfl)) moved
      exact ⟨⟨p', onward, logged ▸ kept⟩, rest⟩
  | deletion userId =>
      obtain ⟨p, follows, facts⟩ := facts
      obtain ⟨p', event, onward, logged, moved⟩ :=
        ReadCommitted.advance_moved (Deletion.chart userId) world left others session after p follows advanced
      obtain ⟨kept, rest⟩ := deletion_moved userId world left others hashtext session.log p p' session.tx after.tx event valid
        sound exact facts (fun user votes here => matching user.id (follows_asks (here ▸ follows) rfl)) moved
      exact ⟨⟨p', onward, logged ▸ kept⟩, rest⟩

theorem request_interrupt (request : Request) (t : Tables) (session after : ApiSession hashtext) (fault : Fault)
    (facts : RequestFacts t session request) (interrupted : session.interrupt fault = some after) :
    RequestFacts t after request := by
  cases request with
  | vote q =>
      obtain ⟨p, follows, facts⟩ := facts
      obtain ⟨s, next, here, onward, -, -⟩ := follows_interrupt q.chart session after p fault follows interrupted
      exact ⟨_, onward, vote_interrupted q t _ _ p s next fault here⟩
  | deletion userId =>
      obtain ⟨p, follows, facts⟩ := facts
      obtain ⟨s, next, here, onward, -, -⟩ := follows_interrupt (Deletion.chart userId) session after p fault follows interrupted
      exact ⟨_, onward, deletion_interrupted userId t _ _ p s next fault here⟩

theorem accounted_step (requests : Fin n → Request) (net next : ApiNet hashtext n) (move : ApiMove hashtext n)
    (accounted : Accounted requests net) (undisturbed : DeleteLands net move ∧ CascadeMatches net move)
    (stepped : step net move = some next) : Accounted requests next := by
  have consistent := ReadCommitted.step_consistent Tables.integrity net next move accounted.consistent stepped
  rcases step_cases net next move stepped with ⟨i, left, session, rfl, advanced, rfl⟩ |
    ⟨i, fault, session, -, interrupted, rfl⟩ | ⟨change, -, rfl⟩
  · obtain ⟨mine, exact, fewer⟩ := request_advance (requests i) net.world left (others net i) (net.sessions i) session
      accounted.consistent.world (accounted.consistent.session i) accounted.exact (accounted.facts i)
      (fun id asks => undisturbed.1 id (by rw [asks]; rfl)) (fun id asks => undisturbed.2 id (by rw [asks]; rfl)) advanced
    refine ⟨consistent, exact, (Function.forall_update_iff net.sessions fun j s => RequestFacts left.db s (requests j)).mpr
      ⟨mine, fun j _ => ?_⟩⟩
    exact request_facts_mono _ _ _ _ (accounted.facts j) fewer
  · refine ⟨consistent, accounted.exact,
      (Function.forall_update_iff net.sessions fun j s => RequestFacts net.world.db s (requests j)).mpr
      ⟨?_, fun j _ => accounted.facts j⟩⟩
    exact request_interrupt (requests i) _ _ _ fault (accounted.facts i) interrupted
  · exact ⟨consistent, accounted.exact, accounted.facts⟩

theorem accounted_launch (requests : Fin n → Request) (start : World) (valid : start.db.Integrity) (exact : start.db.Exact) :
    Accounted requests (launch start fun i => (requests i).program : ApiNet hashtext n) where
  consistent := ReadCommitted.launch_consistent Tables.integrity start _ valid
  exact := exact
  facts i := by
    cases request : requests i with
    | vote q =>
        refine ⟨.queued, ?_, nofun, fun _ => rfl, nofun, nofun⟩
        show Follows q.chart (requests i).program .queued
        rw [request]
        exact q.follows_program
    | deletion userId =>
        refine ⟨.queued, ?_, nofun, nofun⟩
        show Follows (Deletion.chart userId) (requests i).program .queued
        rw [request]
        exact Deletion.follows_program userId

theorem accounted_run (requests : Fin n → Request) (start : World) (moves : List (ApiMove hashtext n))
    (final : ApiNet hashtext n) (valid : start.db.Integrity) (exact : start.db.Exact)
    (undisturbed : Meets (fun net move => DeleteLands net move ∧ CascadeMatches net move)
      (launch start fun i => (requests i).program) moves)
    (reached : run (launch start fun i => (requests i).program) moves = some final) : Accounted requests final :=
  run_invariant _ (Accounted requests) (fun net move next inv met stepped => accounted_step requests net next move inv met stepped)
    _ final moves (accounted_launch requests start valid exact) undisturbed reached

end Races

end RateWise
