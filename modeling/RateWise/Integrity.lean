import RateWise.Backend
import RateWise.Constraints

set_option autoImplicit false

namespace RateWise

open Interleave
open ReadCommitted (view clash clash_iff clash_symm Compatible Mode Sound sound_append Constraints)

namespace Tables

def HasReview (t : Tables) (id : Uuid) : Prop := ∃ review ∈ t.reviews, review.id = id

instance (t : Tables) (id : Uuid) : Decidable (t.HasReview id) :=
  inferInstanceAs (Decidable (∃ review ∈ t.reviews, review.id = id))

def SameOwner (a b : Vote) : Prop := a.createdBy = b.createdBy ∧ a.relatedReview = b.relatedReview

instance (a b : Vote) : Decidable (SameOwner a b) :=
  inferInstanceAs (Decidable (a.createdBy = b.createdBy ∧ a.relatedReview = b.relatedReview))

-- The keys of vote and review: what the primary keys, the unique index over
-- (created_by, related_review) and the foreign key to review promise.
structure Integrity (t : Tables) : Prop where
  voteIds : t.votes.Pairwise fun a b => a.id ≠ b.id
  voteOwners : t.votes.Pairwise fun a b => ¬ SameOwner a b
  reviewIds : t.reviews.Pairwise fun a b => a.id ≠ b.id
  voteReviews : ∀ v ∈ t.votes, t.HasReview v.relatedReview

def Applies (t : Tables) : Write → Prop
  | .insertReview row => ¬ t.HasReview row.id
  | .deleteReview row => ∀ v ∈ t.votes, v.relatedReview ≠ row.id
  | .insertVote row => (∀ v ∈ t.votes, v.id ≠ row.id ∧ ¬ SameOwner v row) ∧ t.HasReview row.relatedReview
  | .deleteVote row => row ∈ t.votes
  | _ => True

theorem has_review_apply (t : Tables) (w : Write) (id : Uuid) :
    (t.apply w).HasReview id ↔ match w with
      | .insertReview row => t.HasReview id ∨ row.id = id
      | .deleteReview row => t.HasReview id ∧ id ≠ row.id
      | _ => t.HasReview id := by
  cases w with
  | insertReview row => simp [HasReview, apply, or_and_right, exists_or]
  | deleteReview row =>
      simp only [HasReview, apply, List.mem_filter, decide_eq_true_eq]
      constructor
      · rintro ⟨review, ⟨member, other⟩, rfl⟩
        exact ⟨⟨review, member, rfl⟩, other⟩
      · rintro ⟨⟨review, member, rfl⟩, other⟩
        exact ⟨review, ⟨member, other⟩, rfl⟩
  | addVotes review action value =>
      simp only [HasReview, apply, List.mem_map, exists_exists_and_eq_and]
      have kept : ∀ row : Review, (if row.id = review then row.addVotes action value else row).id = row.id := by
        intro row
        cases action <;> split <;> rfl
      simp only [kept]
  | setVotes review up down =>
      simp only [HasReview, apply, List.mem_map, exists_exists_and_eq_and]
      have kept : ∀ row : Review,
          (if row.id = review then { row with upVotes := up, downVotes := down } else row).id = row.id := by
        intro row
        split <;> rfl
      simp only [kept]
  | _ => rfl

theorem mem_votes_apply (t : Tables) (w : Write) (v : Vote) :
    v ∈ (t.apply w).votes ↔ match w with
      | .insertVote row => v ∈ t.votes ∨ v = row
      | .deleteVote row => v ∈ t.votes ∧ v.id ≠ row.id
      | _ => v ∈ t.votes := by
  cases w <;> simp [apply]

def SameKeys (t u : Tables) : Prop :=
  (∀ v, v ∈ t.votes ↔ v ∈ u.votes) ∧ ∀ id, t.HasReview id ↔ u.HasReview id

theorem same_keys_apply (t u : Tables) (w : Write) (same : SameKeys t u) :
    SameKeys (t.apply w) (u.apply w) := by
  constructor
  · intro v
    rw [mem_votes_apply, mem_votes_apply]
    cases w <;> simp [same.1]
  · intro id
    rw [has_review_apply, has_review_apply]
    cases w <;> simp [same.2]

theorem applies_same_keys (t u : Tables) (w : Write) (same : SameKeys t u) (applies : t.Applies w) :
    u.Applies w := by
  cases w <;> simp_all [Applies, SameKeys]

theorem no_clash (a b : Write) (quiet : clash schema a b = false) (r : Resource) (m k : Mode)
    (left : (r, m) ∈ a.claims) (right : (r, k) ∈ b.claims) : m.conflicts k = false := by
  by_contra conflict
  have struck := (clash_iff schema a b).mpr ⟨r, m, k, left, right, by simpa using conflict⟩
  rw [quiet] at struck
  cases struck

theorem commute (t : Tables) (a b : Write) (quiet : clash schema a b = false) :
    SameKeys ((t.apply a).apply b) ((t.apply b).apply a) := by
  have apart := no_clash a b quiet
  constructor
  · intro v
    rw [mem_votes_apply, mem_votes_apply, mem_votes_apply, mem_votes_apply]
    cases a <;> cases b <;> simp only [] <;> try tauto
    case insertVote.deleteVote x y =>
      have different : x.id ≠ y.id := fun same => by
        have := apart (.vote x.id) .update .update (by simp [Write.claims]) (by simp [Write.claims, same])
        cases this
      constructor
      · rintro ⟨old | new, other⟩
        · exact .inl ⟨old, other⟩
        · exact .inr new
      · rintro (⟨old, other⟩ | new)
        · exact ⟨.inl old, other⟩
        · exact ⟨.inr new, by rw [new]; exact different⟩
    case deleteVote.insertVote x y =>
      have different : y.id ≠ x.id := fun same => by
        have := apart (.vote x.id) .update .update (by simp [Write.claims]) (by simp [Write.claims, same])
        cases this
      constructor
      · rintro (⟨old, other⟩ | new)
        · exact ⟨.inl old, other⟩
        · exact ⟨.inr new, by rw [new]; exact different⟩
      · rintro ⟨old | new, other⟩
        · exact .inl ⟨old, other⟩
        · exact .inr new
  · intro id
    rw [has_review_apply, has_review_apply, has_review_apply, has_review_apply]
    cases a <;> cases b <;> simp only [] <;> try tauto
    case insertReview.deleteReview x y =>
      have different : x.id ≠ y.id := fun same => by
        have := apart (.review x.id) .update .update (by simp [Write.claims]) (by simp [Write.claims, same])
        cases this
      constructor
      · rintro ⟨old | new, other⟩
        · exact .inl ⟨old, other⟩
        · exact .inr new
      · rintro (⟨old, other⟩ | new)
        · exact ⟨.inl old, other⟩
        · exact ⟨.inr new, by rw [← new]; exact different⟩
    case deleteReview.insertReview x y =>
      have different : y.id ≠ x.id := fun same => by
        have := apart (.review x.id) .update .update (by simp [Write.claims]) (by simp [Write.claims, same])
        cases this
      constructor
      · rintro (⟨old, other⟩ | new)
        · exact ⟨.inl old, other⟩
        · exact ⟨.inr new, by rw [← new]; exact different⟩
      · rintro ⟨old | new, other⟩
        · exact .inl ⟨old, other⟩
        · exact .inr new

-- A change that conflicts with none of another transaction stays allowed
-- after it: each Applies reads only what its own claims lock.
theorem disjoint (t : Tables) (a b : Write) (quiet : clash schema a b = false) (applies : t.Applies a)
    (other : t.Applies b) : (t.apply b).Applies a := by
  have apart := no_clash a b quiet
  cases a with
  | insertReview row =>
      show ¬ (t.apply b).HasReview row.id
      rw [has_review_apply]
      cases b with
      | insertReview y =>
          rintro (old | same)
          · exact applies old
          · have := apart (.review row.id) .update .update (by simp [Write.claims]) (by simp [Write.claims, same])
            cases this
      | deleteReview y => exact fun old => applies old.1
      | _ => exact applies
  | deleteReview row =>
      intro v member
      rw [mem_votes_apply] at member
      cases b with
      | insertVote y =>
          rcases member with old | rfl
          · exact applies v old
          · intro same
            have := apart (.review row.id) .update .keyShare (by simp [Write.claims]) (by simp [Write.claims, same])
            cases this
      | deleteVote y => exact applies v member.1
      | _ => exact applies v member
  | insertVote row =>
      refine ⟨fun v member => ?_, ?_⟩
      · rw [mem_votes_apply] at member
        cases b with
        | insertVote y =>
            rcases member with old | rfl
            · exact applies.1 v old
            · constructor
              · intro same
                have := apart (.vote row.id) .update .update (by simp [Write.claims]) (by simp [Write.claims, same])
                cases this
              · rintro ⟨owner, review⟩
                have := apart (.voteOwnerReview row.createdBy row.relatedReview) .update .update
                  (by simp [Write.claims]) (by simp [Write.claims, owner, review])
                cases this
        | deleteVote y => exact applies.1 v member.1
        | _ => exact applies.1 v member
      · rw [has_review_apply]
        cases b with
        | insertReview y => exact .inl applies.2
        | deleteReview y =>
            refine ⟨applies.2, fun same => ?_⟩
            have := apart (.review row.relatedReview) .keyShare .update (by simp [Write.claims])
              (by simp [Write.claims, same])
            cases this
        | _ => exact applies.2
  | deleteVote row =>
      show row ∈ (t.apply b).votes
      rw [mem_votes_apply]
      cases b with
      | insertVote y => exact .inl applies
      | deleteVote y =>
          refine ⟨applies, fun same => ?_⟩
          have := apart (.vote row.id) .update .update (by simp [Write.claims]) (by simp [Write.claims, same])
          cases this
      | _ => exact applies
  | _ => trivial

theorem integrity_apply (t : Tables) (w : Write) (valid : t.Integrity) (applies : t.Applies w) :
    (t.apply w).Integrity := by
  have reviewsKept : ∀ f : Review → Review, (∀ row, (f row).id = row.id) →
      (t.reviews.map f).Pairwise fun a b => a.id ≠ b.id := by
    intro f kept
    rw [List.pairwise_map]
    simpa only [kept] using valid.reviewIds
  have parents : (∀ id, t.HasReview id → (t.apply w).HasReview id) → (t.apply w).votes = t.votes →
      ∀ v ∈ (t.apply w).votes, (t.apply w).HasReview v.relatedReview := by
    intro reviews votes v member
    rw [votes] at member
    exact reviews _ (valid.voteReviews v member)
  have has := has_review_apply t w
  cases w with
  | insertAccount row => exact ⟨valid.voteIds, valid.voteOwners, valid.reviewIds, valid.voteReviews⟩
  | updateAccount id change => exact ⟨valid.voteIds, valid.voteOwners, valid.reviewIds, valid.voteReviews⟩
  | deleteAccount row => exact ⟨valid.voteIds, valid.voteOwners, valid.reviewIds, valid.voteReviews⟩
  | insertItem row => exact ⟨valid.voteIds, valid.voteOwners, valid.reviewIds, valid.voteReviews⟩
  | deleteItem row => exact ⟨valid.voteIds, valid.voteOwners, valid.reviewIds, valid.voteReviews⟩
  | insertReview row =>
      refine ⟨valid.voteIds, valid.voteOwners, ?_, parents (fun id old => (has id).mpr (.inl old)) rfl⟩
      refine List.pairwise_append.mpr ⟨valid.reviewIds, List.pairwise_singleton _ _, fun a member b last => ?_⟩
      rw [List.mem_singleton.mp last]
      exact fun same => applies ⟨a, member, same⟩
  | addVotes id action value =>
      refine ⟨valid.voteIds, valid.voteOwners, reviewsKept _ fun row => ?_, parents (fun id old => (has id).mpr old) rfl⟩
      cases action <;> split <;> rfl
  | setVotes id up down =>
      refine ⟨valid.voteIds, valid.voteOwners, reviewsKept _ fun row => ?_, parents (fun id old => (has id).mpr old) rfl⟩
      split <;> rfl
  | deleteReview row =>
      refine ⟨valid.voteIds, valid.voteOwners, valid.reviewIds.filter _, fun v member => ?_⟩
      exact (has _).mpr ⟨valid.voteReviews v member, applies v member⟩
  | insertVote row =>
      refine ⟨?_, ?_, valid.reviewIds, fun v member => (has _).mpr ?_⟩
      · refine List.pairwise_append.mpr ⟨valid.voteIds, List.pairwise_singleton _ _, fun a member b last => ?_⟩
        rw [List.mem_singleton.mp last]
        exact (applies.1 a member).1
      · refine List.pairwise_append.mpr ⟨valid.voteOwners, List.pairwise_singleton _ _, fun a member b last => ?_⟩
        rw [List.mem_singleton.mp last]
        exact (applies.1 a member).2
      · rcases List.mem_append.mp member with old | last
        · exact valid.voteReviews v old
        · rw [List.mem_singleton.mp last]
          exact applies.2
  | deleteVote row =>
      refine ⟨valid.voteIds.filter _, valid.voteOwners.filter _, valid.reviewIds, fun v member => (has _).mpr ?_⟩
      exact valid.voteReviews v (List.mem_of_mem_filter member)

theorem sound_unchecked (t : Tables) (ws : List Write) (unchecked : ∀ w ∈ ws, ∀ u : Tables, u.Applies w) :
    Sound (S := schema) Applies t ws := by
  induction ws generalizing t with
  | nil => trivial
  | cons w rest ih => exact ⟨unchecked w (by simp) t, ih _ fun x inRest => unchecked x (by simp [inRest])⟩

theorem mem_votes_after_deletes (t : Tables) (rows : List Vote) (v : Vote) :
    v ∈ (view schema t (rows.map .deleteVote)).votes ↔ v ∈ t.votes ∧ ∀ row ∈ rows, v.id ≠ row.id := by
  induction rows generalizing t with
  | nil => simp [view]
  | cons row rest ih =>
      have tail := ih (t.apply (.deleteVote row))
      rw [mem_votes_apply] at tail
      simp only [List.map_cons, view, List.foldl_cons] at tail ⊢
      rw [tail, List.forall_mem_cons, and_assoc]

theorem sound_delete_votes (t : Tables) (rows : List Vote) (stored : ∀ row ∈ rows, row ∈ t.votes)
    (distinct : rows.Pairwise fun a b => a.id ≠ b.id) : Sound (S := schema) Applies t (rows.map .deleteVote) := by
  induction rows generalizing t with
  | nil => trivial
  | cons row rest ih =>
      have apart := List.pairwise_cons.mp distinct
      refine ⟨stored row (by simp), ih (t.apply (.deleteVote row)) (fun other member => ?_) apart.2⟩
      exact (mem_votes_apply t (.deleteVote row) other).mpr
        ⟨stored other (by simp [member]), Ne.symm (apart.1 other member)⟩

theorem sound_delete_reviews (t : Tables) (rows : List Review)
    (childless : ∀ row ∈ rows, ∀ v ∈ t.votes, v.relatedReview ≠ row.id) :
    Sound (S := schema) Applies t (rows.map .deleteReview) := by
  induction rows generalizing t with
  | nil => trivial
  | cons row rest ih =>
      exact ⟨childless row (by simp), ih (t.apply (.deleteReview row)) fun other member =>
        childless other (by simp [member])⟩

-- The cascade goes from the leaves up: the votes on a review go before it.
theorem sound_leaves_up (t : Tables) (votes : List Vote) (reviews : List Review)
    (stored : ∀ row ∈ votes, row ∈ t.votes) (distinct : votes.Pairwise fun a b => a.id ≠ b.id)
    (covered : ∀ row ∈ reviews, ∀ v ∈ t.votes, v.relatedReview = row.id → v ∈ votes) :
    Sound (S := schema) Applies t (votes.map .deleteVote ++ reviews.map .deleteReview) := by
  have deleted : Sound (S := schema) Applies t (votes.map .deleteVote) := sound_delete_votes t votes stored distinct
  have childless : Sound (S := schema) Applies (view schema t (votes.map .deleteVote)) (reviews.map .deleteReview) := by
    refine sound_delete_reviews _ _ fun row member v left same => ?_
    obtain ⟨present, kept⟩ := (mem_votes_after_deletes t _ v).mp left
    exact kept v (covered row member v present same) rfl
  exact (sound_append _ _ _ _).mpr ⟨deleted, childless⟩

theorem sound_cascade (t : Tables) (account : Uuid) (valid : t.Integrity) :
    Sound (S := schema) Applies t (t.cascade account) := by
  have leaves := sound_leaves_up t (t.cascadeVotes account) (t.cascadeReviews account)
    (fun row member => List.mem_of_mem_filter member) (valid.voteIds.filter _) fun row member v stored same =>
      List.mem_filter.mpr ⟨stored, decide_eq_true (.inr ⟨row, member, same.symm⟩)⟩
  refine (sound_append _ _ _ _).mpr ⟨leaves, sound_unchecked _ _ ?_⟩
  intro w member u
  obtain ⟨row, -, rfl⟩ := List.mem_map.mp member
  trivial

theorem sound_remove_all (t : Tables) (accounts : List Account) (valid : t.Integrity) :
    Sound (S := schema) Applies t (t.removeAll accounts) := by
  have leaves := sound_leaves_up t (t.votesOf accounts) (t.reviewsOf accounts)
    (fun row member => List.mem_of_mem_filter member) (valid.voteIds.filter _) fun row member v stored same =>
      List.mem_filter.mpr ⟨stored, decide_eq_true (.inr ⟨row, member, same.symm⟩)⟩
  refine (sound_append _ _ _ _).mpr ⟨(sound_append _ _ _ _).mpr ⟨leaves, sound_unchecked _ _ ?_⟩, sound_unchecked _ _ ?_⟩
  · intro w member u
    obtain ⟨row, -, rfl⟩ := List.mem_map.mp member
    trivial
  · intro w member u
    obtain ⟨row, -, rfl⟩ := List.mem_map.mp member
    trivial

theorem or_else_none (first second : Option Fault) (clear : (first <|> second) = none) :
    first = none ∧ second = none := by
  cases first with
  | none => exact ⟨rfl, by simpa using clear⟩
  | some fault => simp at clear

theorem unique_fault_none (taken : Bool) (clear : uniqueFault taken = none) : taken = false := by
  cases taken with
  | false => rfl
  | true => cases clear

theorem parent_fault_none (present : Bool) (clear : parentFault present = none) : present = true := by
  cases present with
  | true => rfl
  | false => cases clear

theorem refuses_none (t : Tables) (s : Sql) (allowed : t.refuses s = none) :
    (∀ text ∈ s.uuids, (uuidIn text).isSome = true) ∧ ∀ w ∈ t.attempts s, t.violation w = none := by
  unfold refuses at allowed
  split at allowed
  · rename_i parsed
    exact ⟨by simpa using parsed, by simpa using allowed⟩
  · cases allowed

theorem sound_attempts (t : Tables) (s : Sql) (valid : t.Integrity) (allowed : t.refuses s = none) :
    Sound (S := schema) Applies t (t.attempts s) := by
  obtain ⟨-, clear⟩ := refuses_none t s allowed
  cases s with
  | deleteVote id =>
      exact sound_delete_votes t _ (fun row member => List.mem_of_mem_filter member) (valid.voteIds.filter _)
  | addVotes reviews action value =>
      refine sound_unchecked t _ fun w member u => ?_
      obtain ⟨row, -, rfl⟩ := List.mem_map.mp member
      trivial
  | insertVote row action user review =>
      simp only [attempts] at clear ⊢
      cases built : voteRow row action user review with
      | none => trivial
      | some vote =>
          have checks := clear (.insertVote vote) (by simp [built])
          obtain ⟨unique, parents⟩ := or_else_none _ _ checks
          obtain ⟨-, review⟩ := or_else_none _ _ parents
          have absent := unique_fault_none _ unique
          simp only [List.any_eq_false, Bool.or_eq_true, decide_eq_true_eq, Bool.and_eq_true, not_or] at absent
          refine ⟨⟨fun v member => ?_, ?_⟩, trivial⟩
          · exact ⟨(absent v member).1, (absent v member).2⟩
          · simpa [HasReview] using parent_fault_none _ review
  | refreshReviewVotes =>
      refine sound_unchecked t _ fun w member u => ?_
      obtain ⟨row, -, rfl⟩ := List.mem_map.mp member
      trivial
  | insertAccount row => exact ⟨trivial, trivial⟩
  | updateAccount id change =>
      refine sound_unchecked t _ fun w member u => ?_
      obtain ⟨row, -, rfl⟩ := List.mem_map.mp member
      trivial
  | removeAccount id =>
      simp only [attempts]
      split
      · trivial
      · refine (sound_append _ _ _ _).mpr ⟨sound_cascade t id valid, sound_unchecked _ _ fun w member u => ?_⟩
        obtain ⟨row, -, rfl⟩ := List.mem_map.mp member
        trivial
  | insertItem row title description category tags user =>
      refine sound_unchecked t _ fun w member u => ?_
      obtain ⟨item, -, rfl⟩ := List.mem_map.mp member
      trivial
  | insertReview row content rating user item =>
      simp only [attempts] at clear ⊢
      cases built : reviewRow row content rating user item with
      | none => trivial
      | some review =>
          have checks := clear (.insertReview review) (by simp [built])
          obtain ⟨-, rest⟩ := or_else_none _ _ checks
          obtain ⟨unique, -⟩ := or_else_none _ _ rest
          have absent := unique_fault_none _ unique
          simp only [List.any_eq_false, Bool.or_eq_true, decide_eq_true_eq, not_or] at absent
          refine ⟨?_, trivial⟩
          rintro ⟨other, member, same⟩
          exact (absent other member).1 same
  | removeAccountsExcept email => exact sound_remove_all t _ valid
  | _ => trivial

-- The declared constraints of the two tables hold of the committed rows in
-- every run, whatever the services do (step_consistent).
def integrity : Constraints schema where
  Valid := Integrity
  Applies := Applies
  Same := SameKeys
  same_apply := same_keys_apply
  same_applies := applies_same_keys
  commute := commute
  disjoint := disjoint
  valid_apply := integrity_apply
  sound_attempts := sound_attempts

end Tables

end RateWise
