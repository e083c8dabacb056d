import RateWise.ExactCounters
import RateWise.Ledger

set_option autoImplicit false

namespace RateWise

open Interleave
open ReadCommitted (view pending view_append Moved Compatible)

def Own (q : VoteRequest) (t : Tables) : Option Vote → Prop
  | some v => v ∈ t.votes ∧ v.createdBy = q.user ∧ v.relatedReview = q.review
  | none => ∀ v ∈ t.votes, ¬ (v.createdBy = q.user ∧ v.relatedReview = q.review)

def Ballot.entry : Ballot → Option VoteAction
  | .cast action _ => some action
  | .retract => none

namespace VoteRequest

def answer (q : VoteRequest) (entry : Option VoteAction) : Bool :=
  match q.ballot with
  | .cast _ _ => true
  | .retract => entry.isSome

def removed (q : VoteRequest) : Option Vote → List Write
  | some v => [.deleteVote v, .addVotes q.review v.action (-1)]
  | none => []

def inserted (q : VoteRequest) (action : VoteAction) (row : Generated) : Write :=
  .insertVote ⟨row, action, q.user, q.review⟩

-- What a request that got the lock commits.
def redo (q : VoteRequest) (previous : Option Vote) : List Write :=
  match q.ballot with
  | .cast action row =>
      if previous.map Vote.action = some action then []
      else q.removed previous ++ [q.inserted action row, .addVotes q.review action 1]
  | .retract => q.removed previous

end VoteRequest

-- Where a request stands: before the lock it has written nothing; under the
-- lock its redo log is determined by the row that it found.
def SeatFacts (q : VoteRequest) (lock : Int32) (t : Tables) (tx : Option ApiTx) : VotePoint → Prop
  | .queued => tx = none
  | .opening => tx = none ∧ t.HasReview q.review
  | .checking => tx = some ⟨[], []⟩
  | .locking => tx = some ⟨[], []⟩ ∧ t.HasReview q.review
  | .looking => tx = some ⟨[], [lock]⟩ ∧ t.HasReview q.review
  | .removing v => tx = some ⟨[], [lock]⟩ ∧ t.HasReview q.review ∧ Own q t (some v) ∧ q.ballot.entry ≠ some v.action
  | .lowering v =>
      tx = some ⟨[.deleteVote v], [lock]⟩ ∧ t.HasReview q.review ∧ Own q t (some v) ∧ q.ballot.entry ≠ some v.action
  | .adding action row => q.ballot = .cast action row ∧ ∃ previous, tx = some ⟨q.removed previous, [lock]⟩ ∧
      t.HasReview q.review ∧ Own q t previous ∧ previous.map Vote.action ≠ some action
  | .raising action => ∃ row previous, q.ballot = .cast action row ∧
      tx = some ⟨q.removed previous ++ [q.inserted action row], [lock]⟩ ∧
      t.HasReview q.review ∧ Own q t previous ∧ previous.map Vote.action ≠ some action
  | .closing answer => (answer = q.turnedAway ∧ tx = some ⟨[], []⟩) ∨
      ∃ previous, answer = q.answer (previous.map Vote.action) ∧ tx = some ⟨q.redo previous, [lock]⟩ ∧
        t.HasReview q.review ∧ Own q t previous
  | .undoing _ => True
  | .ended _ => tx = none

theorem mem_votes_removed_log (q : VoteRequest) (t : Tables) (previous : Option Vote) (v : Vote) :
    v ∈ (view schema t (q.removed previous)).votes ↔ v ∈ t.votes ∧ ∀ w, previous = some w → v.id ≠ w.id := by
  cases previous with
  | none => simp [VoteRequest.removed, view]
  | some w =>
      show v ∈ (t.apply (.deleteVote w)).votes ↔ _
      rw [Tables.mem_votes_apply]
      simp

theorem mem_votes_redo (q : VoteRequest) (t : Tables) (previous : Option Vote) (v : Vote) :
    v ∈ (view schema t (q.redo previous)).votes ↔ match q.ballot with
      | .cast action row => if previous.map Vote.action = some action then v ∈ t.votes
          else (v ∈ t.votes ∧ ∀ w, previous = some w → v.id ≠ w.id) ∨ v = ⟨row, action, q.user, q.review⟩
      | .retract => v ∈ t.votes ∧ ∀ w, previous = some w → v.id ≠ w.id := by
  unfold VoteRequest.redo
  cases q.ballot with
  | cast action row =>
      by_cases same : previous.map Vote.action = some action
      · simp only [same, if_true]
        exact Iff.rfl
      · simp only [same, if_false]
        rw [view_append]
        show v ∈ ((view schema t (q.removed previous)).apply (q.inserted action row)).votes ↔ _
        rw [VoteRequest.inserted, Tables.mem_votes_apply, mem_votes_removed_log]
  | retract => exact mem_votes_removed_log q t previous v

theorem redo_foreign (q : VoteRequest) (t : Tables) (previous : Option Vote) (v : Vote) (valid : t.Integrity)
    (own : Own q t previous) (foreign : ¬ (v.createdBy = q.user ∧ v.relatedReview = q.review)) :
    v ∈ (view schema t (q.redo previous)).votes ↔ v ∈ t.votes := by
  have kept : v ∈ t.votes → ∀ w, previous = some w → v.id ≠ w.id := by
    rintro stored w rfl same
    rw [Tables.same_vote_id t valid v w stored own.1 same] at foreign
    exact foreign own.2
  rw [mem_votes_redo]
  cases q.ballot with
  | cast action row =>
      by_cases same : previous.map Vote.action = some action
      · simp only [same, if_true]
      · simp only [same, if_false]
        constructor
        · rintro (old | rfl)
          · exact old.1
          · exact absurd ⟨rfl, rfl⟩ foreign
        · intro stored
          exact .inl ⟨stored, kept stored⟩
  | retract => exact ⟨fun old => old.1, fun stored => ⟨stored, kept stored⟩⟩

theorem redo_own (q : VoteRequest) (t : Tables) (previous : Option Vote) (valid : t.Integrity) (own : Own q t previous) :
    ∃ last, Own q (view schema t (q.redo previous)) last ∧ last.map Vote.action = q.ballot.entry := by
  have members := mem_votes_redo q t previous
  cases kind : q.ballot with
  | cast action row =>
      simp only [kind] at members
      by_cases same : previous.map Vote.action = some action
      · simp only [same, if_true] at members
        refine ⟨previous, ?_, same⟩
        cases previous with
        | none => cases same
        | some v => exact ⟨(members v).mpr own.1, own.2⟩
      · simp only [same, if_false] at members
        exact ⟨some ⟨row, action, q.user, q.review⟩, ⟨(members _).mpr (.inr rfl), rfl, rfl⟩, rfl⟩
  | retract =>
      simp only [kind] at members
      refine ⟨none, fun v member mine => ?_, rfl⟩
      obtain ⟨stored, other⟩ := (members v).mp member
      cases previous with
      | none => exact own v stored mine
      | some w =>
          have same := Tables.same_vote_owner t valid v w stored own.1
            ⟨mine.1.trans own.2.1.symm, mine.2.trans own.2.2.symm⟩
          exact other w rfl (congrArg (fun row => row.id) same)

def Write.voting : Write → Bool
  | .addVotes _ _ _ => true
  | .insertVote _ => true
  | .deleteVote _ => true
  | _ => false

theorem voting_tallied (w : Write) (voting : w.voting = true) : w.tallied = true := by
  cases w <;> first | rfl | cases voting

theorem voting_removed (q : VoteRequest) (previous : Option Vote) : ∀ w ∈ q.removed previous, w.voting = true := by
  cases previous <;> simp [VoteRequest.removed, Write.voting]

theorem voting_redo (q : VoteRequest) (previous : Option Vote) : ∀ w ∈ q.redo previous, w.voting = true := by
  have removed := voting_removed q previous
  unfold VoteRequest.redo
  cases q.ballot with
  | retract => exact removed
  | cast action row =>
      by_cases same : previous.map Vote.action = some action
      · simp [same]
      · simp only [same, if_false, List.mem_append]
        rintro w (early | late)
        · exact removed w early
        · simp only [VoteRequest.inserted, List.mem_cons, List.not_mem_nil, or_false] at late
          rcases late with rfl | rfl <;> rfl

theorem voting_view (t : Tables) (ws : List Write) (voting : ∀ w ∈ ws, w.voting = true) :
    (view schema t ws).accounts = t.accounts ∧ ∀ id, (view schema t ws).HasReview id ↔ t.HasReview id := by
  induction ws generalizing t with
  | nil => exact ⟨rfl, fun _ => Iff.rfl⟩
  | cons w rest ih =>
      obtain ⟨accounts, reviews⟩ := ih (t.apply w) fun x inRest => voting x (by simp [inRest])
      have first := voting w (by simp)
      have kept : (t.apply w).accounts = t.accounts ∧ ∀ id, (t.apply w).HasReview id ↔ t.HasReview id := by
        refine ⟨?_, fun id => ?_⟩
        · cases w <;> first | rfl | cases first
        · rw [Tables.has_review_apply]
          cases w <;> first | exact Iff.rfl | cases first
      exact ⟨accounts.trans kept.1, fun id => (reviews id).trans (kept.2 id)⟩

theorem own_redo (q other : VoteRequest) (t : Tables) (previous mine : Option Vote) (valid : t.Integrity)
    (own : Own q t previous) (apart : ¬ (other.user = q.user ∧ other.review = q.review)) (kept : Own other t mine) :
    Own other (view schema t (q.redo previous)) mine := by
  cases mine with
  | some v =>
      refine ⟨(redo_foreign q t previous v valid own ?_).mpr kept.1, kept.2⟩
      rw [kept.2.1, kept.2.2]
      exact apart
  | none =>
      intro v member both
      refine kept v ((redo_foreign q t previous v valid own ?_).mp member) both
      rw [both.1, both.2]
      exact apart

end RateWise
