import Mathlib.Algebra.BigOperators.Group.List.Basic
import Mathlib.Tactic.Ring
import RateWise.Integrity

set_option autoImplicit false

namespace RateWise

open ReadCommitted (view Sound view_append)

-- What a row change adds to the difference between a counter of the review
-- and the number of votes that it stands for.
def Write.debt (review : Uuid) (action : VoteAction) : Write → Int
  | .addVotes id a value => if id = review ∧ a = action then value else 0
  | .insertVote row => if row.relatedReview = review ∧ row.action = action then -1 else 0
  | .deleteVote row => if row.relatedReview = review ∧ row.action = action then 1 else 0
  | _ => 0

-- Changes that neither create a review nor overwrite its counters.
def Write.tallied : Write → Bool
  | .setVotes _ _ _ => false
  | .insertReview _ => false
  | _ => true

def Write.removes : Write → Option Uuid
  | .deleteReview row => some row.id
  | _ => none

def Write.takes : Write → Option VoteSummary
  | .deleteVote row => some ⟨row.relatedReview, row.action⟩
  | _ => none

def debt (ws : List Write) (review : Uuid) (action : VoteAction) : Int := (ws.map (Write.debt review action)).sum

theorem debt_nil (review : Uuid) (action : VoteAction) : debt [] review action = 0 := rfl

theorem debt_append (first second : List Write) (review : Uuid) (action : VoteAction) :
    debt (first ++ second) review action = debt first review action + debt second review action := by
  simp [debt]

namespace Tables

def Gap (t : Tables) (excess : Uuid → VoteAction → Int) : Prop :=
  ∀ row ∈ t.reviews, ∀ action, row.votes action = t.countVotes row.id action + excess row.id action

def Exact (t : Tables) : Prop := ∀ row ∈ t.reviews, ∀ action, row.votes action = t.countVotes row.id action

instance (t : Tables) : Decidable t.Exact :=
  inferInstanceAs (Decidable (∀ row ∈ t.reviews, ∀ action, row.votes action = t.countVotes row.id action))

theorem exact_gap (t : Tables) : t.Exact ↔ t.Gap fun _ _ => 0 := by simp [Exact, Gap]

theorem votes_add (row : Review) (action other : VoteAction) (value : Int) :
    (row.addVotes action value).votes other = row.votes other + if action = other then value else 0 := by
  cases action <;> cases other <;> simp [Review.addVotes, Review.votes]

theorem add_votes_id (row : Review) (action : VoteAction) (value : Int) : (row.addVotes action value).id = row.id := by
  cases action <;> rfl

theorem count_insert (t : Tables) (row : Vote) (review : Uuid) (action : VoteAction) :
    ((t.apply (.insertVote row)).countVotes review action : Int) =
      t.countVotes review action + if row.relatedReview = review ∧ row.action = action then 1 else 0 := by
  simp only [countVotes, apply, List.countP_append, List.countP_singleton, decide_eq_true_eq]
  split <;> simp

theorem count_filter_id (rows : List Vote) (row : Vote) (p : Vote → Bool) (stored : row ∈ rows)
    (distinct : rows.Pairwise fun a b => a.id ≠ b.id) :
    ((rows.filter fun other => other.id ≠ row.id).countP p : Int) = rows.countP p - if p row then 1 else 0 := by
  induction rows with
  | nil => cases stored
  | cons head rest ih =>
      obtain ⟨apart, tail⟩ := List.pairwise_cons.mp distinct
      by_cases same : head.id = row.id
      · have first : row = head := by
          rcases List.mem_cons.mp stored with rfl | later
          · rfl
          · exact absurd same (apart row later)
        subst first
        have untouched : rest.filter (fun other => other.id ≠ row.id) = rest :=
          List.filter_eq_self.mpr fun other member => decide_eq_true (Ne.symm (apart other member))
        rw [List.filter_cons_of_neg (by simp), untouched, List.countP_cons]
        push_cast
        ring
      · have later : row ∈ rest := by
          rcases List.mem_cons.mp stored with rfl | later
          · exact absurd rfl same
          · exact later
        rw [List.filter_cons_of_pos (by simpa using same), List.countP_cons, List.countP_cons]
        push_cast
        rw [ih later tail]
        ring

theorem count_delete (t : Tables) (row : Vote) (review : Uuid) (action : VoteAction) (valid : t.Integrity)
    (stored : row ∈ t.votes) :
    ((t.apply (.deleteVote row)).countVotes review action : Int) =
      t.countVotes review action - if row.relatedReview = review ∧ row.action = action then 1 else 0 := by
  simpa [countVotes, apply] using count_filter_id t.votes row
    (fun v => decide (v.relatedReview = review ∧ v.action = action)) stored valid.voteIds

theorem gap_apply (t : Tables) (w : Write) (excess : Uuid → VoteAction → Int) (valid : t.Integrity)
    (applies : t.Applies w) (tallied : w.tallied = true) (gap : t.Gap excess) :
    (t.apply w).Gap fun review action => excess review action + w.debt review action := by
  intro row member action
  cases w with
  | insertReview review => cases tallied
  | setVotes id up down => cases tallied
  | deleteReview review =>
      show row.votes action = t.countVotes row.id action + (excess row.id action + 0)
      rw [add_zero]
      exact gap row (List.mem_of_mem_filter member) action
  | addVotes id a value =>
      obtain ⟨before, stored, rfl⟩ := List.mem_map.mp member
      have old := gap before stored action
      have count : (t.apply (.addVotes id a value)).countVotes = t.countVotes := rfl
      rw [count]
      by_cases here : before.id = id
      · simp only [here, if_true, votes_add, add_votes_id, Write.debt, true_and]
        rw [old, here]
        ring
      · simp only [here, if_false, Write.debt]
        rw [if_neg fun both => here both.1.symm, add_zero]
        exact old
  | insertVote vote =>
      have old := gap row member action
      rw [count_insert, old]
      simp only [Write.debt]
      split <;> ring
  | deleteVote vote =>
      have old := gap row member action
      rw [count_delete t vote row.id action valid applies, old]
      simp only [Write.debt]
      split <;> ring
  | _ =>
      show row.votes action = t.countVotes row.id action + (excess row.id action + 0)
      rw [add_zero]
      exact gap row member action

theorem gap_view (t : Tables) (ws : List Write) (excess : Uuid → VoteAction → Int) (valid : t.Integrity)
    (sound : Sound (S := schema) Applies t ws) (tallied : ∀ w ∈ ws, w.tallied = true) (gap : t.Gap excess) :
    (view schema t ws).Gap fun review action => excess review action + debt ws review action := by
  induction ws generalizing t excess with
  | nil => simpa [debt, view] using gap
  | cons w rest ih =>
      have first := gap_apply t w excess valid sound.1 (tallied w (by simp)) gap
      have last := ih (t.apply w) _ (integrity_apply t w valid sound.1) sound.2
        (fun x inRest => tallied x (by simp [inRest])) first
      intro row member action
      rw [last row member action]
      simp only [debt, List.map_cons, List.sum_cons, view, List.foldl_cons]
      ring

def Spared (ws : List Write) (review : Uuid) : Prop := review ∉ ws.filterMap Write.removes

instance (ws : List Write) (review : Uuid) : Decidable (Spared ws review) :=
  inferInstanceAs (Decidable (review ∉ ws.filterMap Write.removes))

theorem spared_append (first second : List Write) (review : Uuid) :
    Spared (first ++ second) review ↔ Spared first review ∧ Spared second review := by
  simp only [Spared, List.filterMap_append, List.mem_append, not_or]

theorem has_review_view (t : Tables) (ws : List Write) (id : Uuid) (tallied : ∀ w ∈ ws, w.tallied = true) :
    (view schema t ws).HasReview id ↔ t.HasReview id ∧ Spared ws id := by
  induction ws generalizing t with
  | nil => simp [view, Spared]
  | cons w rest ih =>
      have tail := ih (t.apply w) fun x inRest => tallied x (by simp [inRest])
      simp only [view, List.foldl_cons] at tail ⊢
      rw [tail, has_review_apply]
      have first := tallied w (by simp)
      cases w with
      | insertReview row => cases first
      | deleteReview row =>
          simp only [Spared, List.filterMap_cons, Write.removes, List.mem_cons, not_or, and_assoc, ne_eq]
      | _ => simp [Spared, Write.removes]

-- What a redo log still owes to the counters of the reviews it leaves.
structure Owes (t : Tables) (ws : List Write) (owed : Uuid → VoteAction → Int) : Prop where
  tallied : ∀ w ∈ ws, w.tallied = true
  debt : ∀ review action, t.HasReview review → Spared ws review → debt ws review action = owed review action

theorem owes_nil (t : Tables) : Owes t [] fun _ _ => 0 := ⟨by simp, fun _ _ _ _ => rfl⟩

theorem owes_append (t : Tables) (ws more : List Write) (owed added total : Uuid → VoteAction → Int)
    (before : Owes t ws owed) (tallied : ∀ w ∈ more, w.tallied = true)
    (paid : ∀ review action, (view schema t ws).HasReview review → Spared more review →
      RateWise.debt more review action = added review action)
    (sum : ∀ review action, owed review action + added review action = total review action) :
    Owes t (ws ++ more) total where
  tallied w member := by
    rcases List.mem_append.mp member with early | late
    · exact before.tallied w early
    · exact tallied w late
  debt review action present spared := by
    obtain ⟨early, late⟩ := (spared_append ws more review).mp spared
    rw [debt_append, before.debt review action present early,
      paid review action ((has_review_view t ws review before.tallied).mpr ⟨present, early⟩) late, sum]

theorem owes_mono (t u : Tables) (ws : List Write) (owed : Uuid → VoteAction → Int) (before : Owes t ws owed)
    (fewer : ∀ id, u.HasReview id → t.HasReview id) : Owes u ws owed :=
  ⟨before.tallied, fun review action present => before.debt review action (fewer review present)⟩

theorem gap_settled (t : Tables) (ws : List Write) (before after : Uuid → VoteAction → Int) (valid : t.Integrity)
    (sound : Sound (S := schema) Applies t ws) (tallied : ∀ w ∈ ws, w.tallied = true) (gap : t.Gap before)
    (paid : ∀ review action, t.HasReview review → Spared ws review →
      before review action + RateWise.debt ws review action = after review action) : (view schema t ws).Gap after := by
  intro row member action
  have total := gap_view t ws before valid sound tallied gap row member action
  obtain ⟨present, spared⟩ := (has_review_view t ws row.id tallied).mp ⟨row, member, rfl⟩
  rw [total]
  exact congrArg _ (paid row.id action present spared)

theorem exact_view (t : Tables) (ws : List Write) (valid : t.Integrity) (sound : Sound (S := schema) Applies t ws)
    (exact : t.Exact) (paid : Owes t ws fun _ _ => 0) : (view schema t ws).Exact := by
  refine (exact_gap _).mpr (gap_settled t ws (fun _ _ => 0) _ valid sound paid.tallied ((exact_gap t).mp exact) ?_)
  intro review action present spared
  rw [paid.debt review action present spared, add_zero]


theorem attempts_delete_vote (t : Tables) (vote : Vote) (valid : t.Integrity) (stored : vote ∈ t.votes) :
    t.attempts (.deleteVote vote.id) = [.deleteVote vote] := by
  have only : t.votes.filter (fun row => row.id = vote.id) = [vote] :=
    filter_key (fun row => row.id) t.votes vote stored valid.voteIds
  simp only [attempts, only, List.map_singleton]

theorem debt_add_votes (t : Tables) (ids : List Text) (action : VoteAction) (value : Int) (valid : t.Integrity)
    (review : Uuid) (other : VoteAction) (present : t.HasReview review) :
    RateWise.debt (t.attempts (.addVotes ids action value)) review other =
      if review ∈ ids.filterMap uuidIn ∧ action = other then value else 0 := by
  obtain ⟨row, stored, rfl⟩ := present
  have distinct := valid.reviewIds
  simp only [attempts]
  generalize t.reviews = rows at stored distinct
  have none : ∀ rest : List Review, (∀ x ∈ rest, x.id ≠ row.id) →
      RateWise.debt ((rest.filter fun x => x.id ∈ ids.filterMap uuidIn).map fun x => .addVotes x.id action value) row.id other = 0 := by
    intro rest apart
    simp only [RateWise.debt, List.map_map]
    refine List.sum_eq_zero fun x member => ?_
    obtain ⟨y, inRest, rfl⟩ := List.mem_map.mp member
    simp [Write.debt, apart y (List.mem_of_mem_filter inRest)]
  induction rows with
  | nil => cases stored
  | cons head rest ih =>
      obtain ⟨apart, tail⟩ := List.pairwise_cons.mp distinct
      rcases List.mem_cons.mp stored with rfl | later
      · have zero := none rest fun x member => Ne.symm (apart x member)
        by_cases listed : row.id ∈ ids.filterMap uuidIn
        · rw [List.filter_cons_of_pos (by simpa using listed)]
          simp only [RateWise.debt, List.map_cons, List.sum_cons] at zero ⊢
          rw [zero]
          simp [Write.debt, listed]
        · rw [List.filter_cons_of_neg (by simpa using listed), zero, if_neg fun both => listed both.1]
      · have skip : head.id ≠ row.id := apart row later
        have same := ih later tail
        by_cases listed : head.id ∈ ids.filterMap uuidIn
        · rw [List.filter_cons_of_pos (by simpa using listed)]
          simp only [RateWise.debt, List.map_cons, List.sum_cons] at same ⊢
          rw [same]
          simp [Write.debt, skip]
        · rw [List.filter_cons_of_neg (by simpa using listed)]
          exact same

theorem debt_delete_votes (rows : List Vote) (review : Uuid) (action : VoteAction) :
    RateWise.debt (rows.map .deleteVote) review action =
      (rows.filter fun v => v.relatedReview = review ∧ v.action = action).length := by
  induction rows with
  | nil => rfl
  | cons row rest ih =>
      simp only [RateWise.debt, List.map_cons, List.sum_cons, Write.debt] at ih ⊢
      rw [ih]
      by_cases here : row.relatedReview = review ∧ row.action = action
      · rw [if_pos here, List.filter_cons_of_pos (by simpa using here)]
        push_cast [List.length_cons]
        ring
      · rw [if_neg here, List.filter_cons_of_neg (by simpa using here), zero_add]

theorem debt_unvoting (ws : List Write) (silent : ∀ w ∈ ws, (∃ row, w = .deleteReview row) ∨ (∃ row, w = .deleteItem row) ∨
    ∃ row, w = .deleteAccount row) (review : Uuid) (action : VoteAction) : RateWise.debt ws review action = 0 := by
  refine List.sum_eq_zero fun x member => ?_
  obtain ⟨w, inList, rfl⟩ := List.mem_map.mp member
  rcases silent w inList with ⟨row, rfl⟩ | ⟨row, rfl⟩ | ⟨row, rfl⟩ <;> rfl

theorem unvoting_cascade (t : Tables) (account : Uuid) :
    ∀ w ∈ (t.cascadeReviews account).map Write.deleteReview ++ (t.cascadeItems account).map Write.deleteItem ++
      (t.accounts.filter fun row => row.id = account).map Write.deleteAccount,
      (∃ row, w = .deleteReview row) ∨ (∃ row, w = .deleteItem row) ∨ ∃ row, w = .deleteAccount row := by
  intro w member
  simp only [List.mem_append, List.mem_map] at member
  rcases member with (⟨row, -, rfl⟩ | ⟨row, -, rfl⟩) | ⟨row, -, rfl⟩
  · exact .inl ⟨row, rfl⟩
  · exact .inr (.inl ⟨row, rfl⟩)
  · exact .inr (.inr ⟨row, rfl⟩)

theorem debt_remove_account (t : Tables) (account : Uuid) (valid : t.Integrity) (review : Uuid) (action : VoteAction)
    (spared : Spared (t.attempts (.removeAccount account)) review) (expected : Prop)
    [Decidable expected]
    (same : ⟨review, action⟩ ∈ (t.attempts (.removeAccount account)).filterMap Write.takes ↔ expected) :
    RateWise.debt (t.attempts (.removeAccount account)) review action = if expected then 1 else 0 := by
  simp only [attempts] at spared same ⊢
  split at same
  · have nothing : ¬ expected := fun holds => by simpa using same.mpr holds
    rw [if_neg nothing]
    rfl
  · rename_i rows found
    have listed : ⟨review, action⟩ ∈ (t.cascade account ++
        (t.accounts.filter fun row => row.id = account).map Write.deleteAccount).filterMap Write.takes ↔
        ∃ vote ∈ t.cascadeVotes account, vote.relatedReview = review ∧ vote.action = action := by
      simp [cascade, Write.takes, List.filterMap_append, List.filterMap_map, Function.comp_def]
    rw [listed] at same
    have owner : ∀ vote ∈ t.cascadeVotes account, vote.relatedReview = review → vote.createdBy = account := by
      intro vote member here
      rcases of_decide_eq_true (List.mem_filter.mp member).2 with mine | ⟨row, cascaded, gone⟩
      · exact mine
      · refine absurd ?_ spared
        simp only [cascade, List.filterMap_append, List.mem_append, List.filterMap_map]
        refine .inl (.inl (.inr (List.mem_filterMap.mpr ⟨row, cascaded, ?_⟩)))
        simp only [Function.comp, Write.removes, gone, here]
    rw [cascade, List.append_assoc, List.append_assoc, debt_append, ← List.append_assoc, debt_unvoting _ (t.unvoting_cascade account), add_zero,
      debt_delete_votes]
    generalize kept : (t.cascadeVotes account).filter (fun v => v.relatedReview = review ∧ v.action = action) = votes
    have member : ∀ vote, vote ∈ votes ↔ vote ∈ t.cascadeVotes account ∧ vote.relatedReview = review ∧ vote.action = action := by
      intro vote
      rw [← kept, List.mem_filter]
      simp
    have apart : votes.Pairwise fun a b => ¬ SameOwner a b := by
      rw [← kept]
      exact (valid.voteOwners.filter _).filter _
    cases votes with
    | nil =>
        have nothing : ¬ expected := fun holds => by
          obtain ⟨vote, cascaded, here⟩ := same.mpr holds
          simpa using (member vote).mpr ⟨cascaded, here⟩
        rw [if_neg nothing]
        rfl
    | cons first rest =>
        have one := (member first).mp (by simp)
        cases rest with
        | nil =>
            rw [if_pos (same.mp ⟨first, one⟩)]
            rfl
        | cons second rest =>
            have two := (member second).mp (by simp)
            refine absurd ⟨?_, ?_⟩ ((List.pairwise_cons.mp apart).1 second (by simp))
            · rw [owner first one.1 one.2.1, owner second two.1 two.2.1]
            · rw [one.2.1, two.2.1]

theorem tallied_remove_account (t : Tables) (account : Uuid) :
    ∀ w ∈ t.attempts (.removeAccount account), w.tallied = true := by
  intro w member
  simp only [attempts] at member
  split at member
  · cases member
  · simp only [cascade, List.mem_append, List.mem_map] at member
    rcases member with ((⟨row, -, rfl⟩ | ⟨row, -, rfl⟩) | ⟨row, -, rfl⟩) | ⟨row, -, rfl⟩ <;> rfl

end Tables

end RateWise
