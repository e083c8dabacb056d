import Mathlib.Data.Set.Card
import RateWise.Counters

set_option autoImplicit false

namespace RateWise

open ReadCommitted (view Sound)

-- What the vote tables are for: who has voted how on which review.
abbrev Ledger := Uuid → Uuid → Option VoteAction

namespace Ledger

def blank : Ledger := fun _ _ => none

def set (m : Ledger) (user review : Uuid) (entry : Option VoteAction) : Ledger :=
  fun u r => if u = user ∧ r = review then entry else m u r

def erase (m : Ledger) (user : Uuid) (gone : Uuid → Prop) [DecidablePred gone] : Ledger :=
  fun u r => if u = user ∨ gone r then none else m u r

theorem set_same (m : Ledger) (user review : Uuid) (entry : Option VoteAction) (same : m user review = entry) :
    m.set user review entry = m := by
  funext u r
  unfold set
  split
  · rename_i here
    rw [here.1, here.2, same]
  · rfl

theorem set_set (m : Ledger) (user review : Uuid) (first second : Option VoteAction) :
    (m.set user review first).set user review second = m.set user review second := by
  funext u r
  unfold set
  split <;> rfl

theorem set_self (m : Ledger) (user review : Uuid) (entry : Option VoteAction) :
    m.set user review entry user review = entry := if_pos ⟨rfl, rfl⟩

end Ledger

namespace Tables

def Graph (t : Tables) (m : Ledger) : Prop :=
  ∀ user review action, m user review = some action ↔
    ∃ v ∈ t.votes, v.createdBy = user ∧ v.relatedReview = review ∧ v.action = action

theorem graph_votes (t u : Tables) (m : Ledger) (same : u.votes = t.votes) (graph : t.Graph m) : u.Graph m := by
  intro user review action
  rw [same]
  exact graph user review action

theorem graph_row (t : Tables) (m : Ledger) (row : Vote) (graph : t.Graph m) (stored : row ∈ t.votes) :
    m row.createdBy row.relatedReview = some row.action := (graph _ _ _).mpr ⟨row, stored, rfl, rfl, rfl⟩

theorem graph_none (t : Tables) (m : Ledger) (user review : Uuid) (graph : t.Graph m)
    (absent : ∀ v ∈ t.votes, ¬ (v.createdBy = user ∧ v.relatedReview = review)) : m user review = none := by
  cases entry : m user review with
  | none => rfl
  | some action =>
      obtain ⟨v, stored, owner, on, -⟩ := (graph user review action).mp entry
      exact absurd ⟨owner, on⟩ (absent v stored)

theorem graph_insert (t : Tables) (m : Ledger) (row : Vote) (graph : t.Graph m)
    (absent : ∀ v ∈ t.votes, ¬ SameOwner v row) :
    (t.apply (.insertVote row)).Graph (m.set row.createdBy row.relatedReview (some row.action)) := by
  intro user review action
  simp only [mem_votes_apply, Ledger.set]
  by_cases here : user = row.createdBy ∧ review = row.relatedReview
  · rw [if_pos here, Option.some.injEq]
    constructor
    · intro same
      exact ⟨row, .inr rfl, here.1.symm, here.2.symm, same⟩
    · rintro ⟨v, stored | rfl, owner, on, same⟩
      · exact absurd ⟨owner.trans here.1, on.trans here.2⟩ (absent v stored)
      · exact same
  · rw [if_neg here, graph user review action]
    constructor
    · rintro ⟨v, stored, rest⟩
      exact ⟨v, .inl stored, rest⟩
    · rintro ⟨v, stored | rfl, owner, on, same⟩
      · exact ⟨v, stored, owner, on, same⟩
      · exact absurd ⟨owner.symm, on.symm⟩ here

theorem pairwise_eq {α : Type} (rows : List α) (apart : α → α → Prop) (symmetric : ∀ a b, apart a b → apart b a)
    (distinct : rows.Pairwise apart) (a b : α) (inA : a ∈ rows) (inB : b ∈ rows) (together : ¬ apart a b) : a = b := by
  induction rows with
  | nil => cases inA
  | cons head rest ih =>
      obtain ⟨first, tail⟩ := List.pairwise_cons.mp distinct
      rcases List.mem_cons.mp inA with rfl | laterA
      · rcases List.mem_cons.mp inB with rfl | laterB
        · rfl
        · exact absurd (first b laterB) together
      · rcases List.mem_cons.mp inB with rfl | laterB
        · exact absurd (symmetric _ _ (first a laterA)) together
        · exact ih tail laterA laterB

theorem same_vote_id (t : Tables) (valid : t.Integrity) (a b : Vote) (inA : a ∈ t.votes) (inB : b ∈ t.votes)
    (same : a.id = b.id) : a = b :=
  pairwise_eq t.votes _ (fun _ _ => Ne.symm) valid.voteIds a b inA inB fun apart => apart same

theorem same_vote_owner (t : Tables) (valid : t.Integrity) (a b : Vote) (inA : a ∈ t.votes) (inB : b ∈ t.votes)
    (same : SameOwner a b) : a = b :=
  pairwise_eq t.votes _ (fun _ _ apart owner => apart ⟨owner.1.symm, owner.2.symm⟩) valid.voteOwners a b inA inB
    fun apart => apart same

theorem graph_exists (t : Tables) (valid : t.Integrity) : ∃ m, t.Graph m := by
  refine ⟨fun user review => (t.votes.find? fun v => v.createdBy = user ∧ v.relatedReview = review).map Vote.action, ?_⟩
  intro user review action
  constructor
  · intro entry
    obtain ⟨v, found, rfl⟩ := Option.map_eq_some_iff.mp entry
    have owner : v.createdBy = user ∧ v.relatedReview = review := by simpa using List.find?_some found
    exact ⟨v, List.mem_of_find?_eq_some found, owner.1, owner.2, rfl⟩
  · rintro ⟨v, stored, rfl, rfl, rfl⟩
    cases found : t.votes.find? fun w => w.createdBy = v.createdBy ∧ w.relatedReview = v.relatedReview with
    | none => exact absurd (decide_eq_true ⟨rfl, rfl⟩) (List.find?_eq_none.mp found v stored)
    | some w =>
        have owner : w.createdBy = v.createdBy ∧ w.relatedReview = v.relatedReview := by simpa using List.find?_some found
        have same := same_vote_owner t valid w v (List.mem_of_find?_eq_some found) stored owner
        exact (congrArg (Option.map Vote.action) found).trans (congrArg (fun row : Vote => some row.action) same)

theorem graph_delete (t : Tables) (m : Ledger) (row : Vote) (valid : t.Integrity) (graph : t.Graph m)
    (stored : row ∈ t.votes) :
    (t.apply (.deleteVote row)).Graph (m.set row.createdBy row.relatedReview none) := by
  intro user review action
  simp only [mem_votes_apply, Ledger.set]
  by_cases here : user = row.createdBy ∧ review = row.relatedReview
  · rw [if_pos here]
    constructor
    · intro found
      cases found
    · rintro ⟨v, ⟨member, other⟩, owner, on, -⟩
      have same := same_vote_owner t valid v row member stored ⟨owner.trans here.1, on.trans here.2⟩
      exact absurd (congrArg (fun row => row.id) same) other
  · rw [if_neg here, graph user review action]
    constructor
    · rintro ⟨v, member, owner, on, same⟩
      refine ⟨v, ⟨member, fun equal => ?_⟩, owner, on, same⟩
      have row_eq := same_vote_id t valid v row member stored equal
      rw [row_eq] at owner on
      exact here ⟨owner.symm, on.symm⟩
    · rintro ⟨v, ⟨member, -⟩, rest⟩
      exact ⟨v, member, rest⟩

theorem count_ledger (t : Tables) (m : Ledger) (valid : t.Integrity) (graph : t.Graph m) (review : Uuid)
    (action : VoteAction) : t.countVotes review action = Set.ncard {user | m user review = some action} := by
  have owners : {user | m user review = some action} =
      ↑((t.votes.filter fun v => v.relatedReview = review ∧ v.action = action).map fun v => v.createdBy).toFinset := by
    ext user
    simp only [Set.mem_ofPred_eq, graph user review action, List.coe_toFinset, List.mem_map, List.mem_filter,
      decide_eq_true_eq]
    constructor
    · rintro ⟨v, stored, owner, on, same⟩
      exact ⟨v, ⟨stored, on, same⟩, owner⟩
    · rintro ⟨v, ⟨stored, on, same⟩, owner⟩
      exact ⟨v, stored, owner, on, same⟩
  have distinct : ((t.votes.filter fun v => v.relatedReview = review ∧ v.action = action).map fun v => v.createdBy).Nodup := by
    refine List.pairwise_map.mpr (List.Pairwise.imp_of_mem ?_ (valid.voteOwners.filter _))
    intro a b inA inB apart same
    have onA := of_decide_eq_true (List.mem_filter.mp inA).2
    have onB := of_decide_eq_true (List.mem_filter.mp inB).2
    exact apart ⟨same, onA.1.trans onB.1.symm⟩
  rw [owners, Set.ncard_coe_finset, List.toFinset_card_of_nodup distinct, List.length_map, countVotes,
    List.countP_eq_length_filter]

end Tables

end RateWise
