import RateWise.CounterRaces

set_option autoImplicit false

namespace RateWise

open Interleave

section Concurrent

variable {n : Nat} {hashtext : Text → Int32}

theorem votes_match (requests : Fin n → VoteRequest) (net : ApiNet hashtext n) (move : ApiMove hashtext n)
    (accounted : Accounted (fun i => .vote (requests i)) net) : CascadeMatches net move := by
  cases move with
  | turn i =>
      intro id asked
      obtain ⟨p, follows, -⟩ := accounted.facts i
      cases asks : (net.sessions i).prog.asked with
      | none => simp [asks, asksRemoval] at asked
      | some s =>
          obtain ⟨next, here⟩ := asked_follows follows asks
          rw [asks] at asked
          cases p with
          | queued =>
              cases kind : (requests i).ballot <;> simp only [VoteRequest.chart, kind] at here <;> cases here
              cases asked
          | ended result => cases result <;> cases here
          | opening => cases here
          | closing answer => cases here
          | undoing error => cases here
          | _ =>
              cases here
              cases asked
  | _ => trivial

theorem concurrent_votes_keep_counters (requests : Fin n → VoteRequest) (start : World)
    (moves : List (ApiMove hashtext n)) (final : ApiNet hashtext n) (valid : start.db.Integrity) (exact : start.db.Exact)
    (lands : Meets DeleteLands (launch start fun i => (requests i).program) moves)
    (reached : run (launch start fun i => (requests i).program) moves = some final) : final.world.db.Exact := by
  have accounted := run_invariant DeleteLands (Accounted fun i => .vote (requests i))
    (fun net move next inv met stepped =>
      accounted_step _ net next move inv ⟨met, votes_match requests net move inv⟩ stepped)
    _ final moves (accounted_launch _ start valid exact) lands reached
  exact accounted.exact

end Concurrent

def reviewText : Text := "aaaaaaaa-aaaa-4aaa-8aaa-aaaaaaaaaaaa".toList

def reviewTextUpper : Text := "AAAAAAAA-AAAA-4AAA-8AAA-AAAAAAAAAAAA".toList

def reviewUuid : Uuid := ⟨reviewText, by decide⟩

def annText : Text := "11111111-1111-4111-8111-111111111111".toList

def ann : Uuid := ⟨annText, by decide⟩

def bob : Uuid := ⟨repeated '2', by decide⟩

def votedUp : Tables where
  accounts := [⟨⟨ann, 0⟩, "ann".toList, "ann@x".toList, [], [.reviewer], .active⟩,
    ⟨⟨bob, 0⟩, "bob".toList, "bob@x".toList, [], [.reviewer], .active⟩]
  items := []
  reviews := [⟨⟨reviewUuid, 1⟩, [], 5, 2, 0, bob, bob⟩]
  votes := [⟨⟨ann, 2⟩, .up, ann, reviewUuid⟩, ⟨⟨bob, 3⟩, .up, bob, reviewUuid⟩]

def votedUpWorld : World := ⟨votedUp, Redis.empty⟩

theorem voted_up_integrity : votedUp.Integrity := ⟨by decide, by decide, by decide, by decide⟩

def upperCaseHash (key : Text) : Int32 := if 'A' ∈ key then 1 else 0

def annRetracts (reviewId : Text) (valid : validUUID reviewId = true) : VoteRequest := ⟨reviewId, valid, ann, .retract⟩

def twoSpellings : Fin 2 → VoteRequest
  | 0 => annRetracts reviewText (by decide)
  | 1 => annRetracts reviewTextUpper (by decide)

-- Two deleteVote requests of Ann with different spellings of the id take
-- different locks; the second DELETE finds no row, but Bob's vote is subtracted.
def spellingMoves : List (ApiMove upperCaseHash 2) :=
  (List.replicate 4 .first ++ List.replicate 4 .second) ++ (List.replicate 3 .first ++ List.replicate 3 .second)

theorem spellings_lose_count : ¬ ∀ (n : Nat) (hashtext : Text → Int32) (requests : Fin n → VoteRequest) (start : World)
    (moves : List (ApiMove hashtext n)) (final : ApiNet hashtext n), start.db.Integrity → start.db.Exact →
    run (launch start fun i => (requests i).program) moves = some final → Quiescent final → final.world.db.Exact := by
  intro claim
  obtain ⟨final, reached, quiescent, wrong⟩ := run_exists
    (launch votedUpWorld fun i => (twoSpellings i).program) spellingMoves
    (fun final => Quiescent final ∧ ¬ final.world.db.Exact) (by decide)
  exact wrong (claim 2 upperCaseHash twoSpellings votedUpWorld spellingMoves final voted_up_integrity
    (by decide) reached quiescent)

def sameSpelling : Fin 2 → VoteRequest
  | 0 => annRetracts reviewText (by decide)
  | 1 => ⟨reviewText, by decide, bob, .cast .down ⟨reviewUuid, 4⟩⟩

theorem concurrent_votes_keep_counters_interleaved : ∃ final : ApiNet upperCaseHash 2,
    run (launch votedUpWorld fun i => (sameSpelling i).program)
      (List.replicate 4 .first ++ List.replicate 4 .second ++ List.replicate 3 .first) = some final ∧
    final.world.db.Exact := by
  obtain ⟨final, reached, -⟩ := run_exists (launch votedUpWorld fun i => (sameSpelling i).program)
    (List.replicate 4 .first ++ List.replicate 4 .second ++ List.replicate 3 .first : List (ApiMove upperCaseHash 2))
    (fun _ => True) (by decide)
  exact ⟨final, reached, concurrent_votes_keep_counters sameSpelling votedUpWorld _ final voted_up_integrity
    (by decide) (by decide) reached⟩

section Deletions

variable {n : Nat} {hashtext : Text → Int32}

-- Deletions of accounts among the votes: each has to subtract the votes that
-- go with its account, no more and no less.
theorem concurrent_deletions_keep_counters (requests : Fin n → Request) (start : World)
    (moves : List (ApiMove hashtext n)) (final : ApiNet hashtext n) (valid : start.db.Integrity) (exact : start.db.Exact)
    (lands : Meets DeleteLands (launch start fun i => (requests i).program) moves)
    (matching : Meets CascadeMatches (launch start fun i => (requests i).program) moves)
    (reached : run (launch start fun i => (requests i).program) moves = some final) : final.world.db.Exact :=
  (accounted_run requests start moves final valid exact (Runs.meets_and _ _ _ _ lands matching) reached).exact

end Deletions

def Request.Concerns (user : Uuid) : Request → Prop
  | .vote q => q.user = user
  | .deletion userId => uuidIn userId = some user

def clickedTwice : Fin 2 → Request := fun _ => .deletion annText

-- Both deletions read Ann's vote before the first of them commits, so that it
-- is subtracted twice.
def clickedTwiceMoves : List (ApiMove upperCaseHash 2) :=
  (List.replicate 3 .first ++ List.replicate 3 .second) ++ (List.replicate 4 .first ++ List.replicate 4 .second)

theorem double_deletion_loses_count : ¬ ∀ (n : Nat) (hashtext : Text → Int32) (user : Uuid) (requests : Fin n → Request)
    (start : World) (moves : List (ApiMove hashtext n)) (final : ApiNet hashtext n), (∀ i, (requests i).Concerns user) →
    start.db.Integrity → start.db.Exact → run (launch start fun i => (requests i).program) moves = some final →
    (∀ i, Finished final i) → (∀ account ∈ final.world.db.accounts, account.id ≠ user) → final.world.db.Exact := by
  intro claim
  obtain ⟨final, reached, finished, gone, wrong⟩ := run_exists
    (launch votedUpWorld fun i => (clickedTwice i).program) clickedTwiceMoves
    (fun final => (∀ i, Finished final i) ∧ (∀ account ∈ final.world.db.accounts, account.id ≠ ann) ∧
      ¬ final.world.db.Exact) (by decide)
  exact wrong (claim 2 upperCaseHash ann clickedTwice votedUpWorld clickedTwiceMoves final
    (fun _ => show uuidIn annText = some ann by decide)
    voted_up_integrity (by decide) reached finished gone)

def voteAndDeletion : Fin 2 → Request
  | 0 => .deletion annText
  | 1 => .vote (annRetracts reviewText (by decide))

def voteAndDeletionMoves : List (ApiMove upperCaseHash 2) :=
  List.replicate 3 .second ++ List.replicate 7 .first ++ List.replicate 2 .second

theorem concurrent_deletions_keep_counters_interleaved : ∃ final : ApiNet upperCaseHash 2,
    run (launch votedUpWorld fun i => (voteAndDeletion i).program) voteAndDeletionMoves = some final ∧
    (∀ i, Finished final i) ∧ final.world.db.Exact := by
  obtain ⟨final, reached, finished⟩ := run_exists (launch votedUpWorld fun i => (voteAndDeletion i).program)
    voteAndDeletionMoves (fun final => ∀ i, Finished final i) (by decide)
  exact ⟨final, reached, finished, concurrent_deletions_keep_counters voteAndDeletion votedUpWorld voteAndDeletionMoves final
    voted_up_integrity (by decide) (by decide) (by decide) reached⟩

end RateWise
