import RateWise.Integrity

set_option autoImplicit false

-- Tables as sets of rows under a key: what one change does to membership.
namespace RowEdits

inductive Edit (ρ κ : Type) where
  | add (row : ρ)
  | drop (key : κ)
  | keep

variable {ρ κ : Type} (key : ρ → κ)

def Edit.holds (before : ρ → Prop) : Edit ρ κ → ρ → Prop
  | .add row, x => before x ∨ x = row
  | .drop k, x => before x ∧ key x ≠ k
  | .keep, x => before x

def Edit.Apart : Edit ρ κ → Edit ρ κ → Prop
  | .add row, .drop k => key row ≠ k
  | .drop k, .add row => key row ≠ k
  | _, _ => True

theorem holds_commute (before : ρ → Prop) (a b : Edit ρ κ) (apart : Edit.Apart key a b) (x : ρ) :
    b.holds key (a.holds key before) x ↔ a.holds key (b.holds key before) x := by
  cases a with
  | add row =>
      cases b with
      | add other => exact ⟨fun held => by simp only [Edit.holds] at held ⊢; tauto, fun held => by
          simp only [Edit.holds] at held ⊢; tauto⟩
      | drop k =>
          constructor
          · rintro ⟨old | rfl, other⟩
            · exact .inl ⟨old, other⟩
            · exact .inr rfl
          · rintro (⟨old, other⟩ | rfl)
            · exact ⟨.inl old, other⟩
            · exact ⟨.inr rfl, apart⟩
      | keep => exact Iff.rfl
  | drop k =>
      cases b with
      | add row =>
          constructor
          · rintro (⟨old, other⟩ | rfl)
            · exact ⟨.inl old, other⟩
            · exact ⟨.inr rfl, apart⟩
          · rintro ⟨old | rfl, other⟩
            · exact .inl ⟨old, other⟩
            · exact .inr rfl
      | drop other => exact ⟨fun ⟨⟨held, first⟩, second⟩ => ⟨⟨held, second⟩, first⟩, fun ⟨⟨held, first⟩, second⟩ =>
          ⟨⟨held, second⟩, first⟩⟩
      | keep => exact Iff.rfl
  | keep => exact Iff.rfl

theorem holds_congr (before after : ρ → Prop) (edit : Edit ρ κ) (same : ∀ x, before x ↔ after x) (x : ρ) :
    edit.holds key before x ↔ edit.holds key after x := by
  cases edit <;> simp only [Edit.holds, same x]

end RowEdits

namespace RateWise

open ReadCommitted (view clash clash_iff clash_symm Compatible Mode Sound sound_append Constraints)
open RowEdits

-- The columns of a review that no update changes.
structure ReviewKey where
  id : Uuid
  createdBy : Uuid
  relatedItem : Uuid
deriving DecidableEq

def Review.key (row : Review) : ReviewKey := ⟨row.id, row.createdBy, row.relatedItem⟩

def Write.accountEdit : Write → Edit Uuid Uuid
  | .insertAccount row => .add row.id
  | .deleteAccount row => .drop row.id
  | _ => .keep

def Write.itemEdit : Write → Edit Item Uuid
  | .insertItem row => .add row
  | .deleteItem row => .drop row.id
  | _ => .keep

def Write.reviewEdit : Write → Edit ReviewKey Uuid
  | .insertReview row => .add row.key
  | .deleteReview row => .drop row.id
  | _ => .keep

def Write.voteEdit : Write → Edit Vote Uuid
  | .insertVote row => .add row
  | .deleteVote row => .drop row.id
  | _ => .keep

namespace Tables

def HasAccount (t : Tables) (id : Uuid) : Prop := ∃ account ∈ t.accounts, account.id = id

def HasItem (t : Tables) (id : Uuid) : Prop := ∃ item ∈ t.items, item.id = id

def HasKey (t : Tables) (key : ReviewKey) : Prop := ∃ review ∈ t.reviews, review.key = key

theorem has_account_edit (t : Tables) (w : Write) (id : Uuid) :
    (t.apply w).HasAccount id ↔ w.accountEdit.holds (fun x => x) t.HasAccount id := by
  cases w with
  | insertAccount row => simp [HasAccount, apply, Write.accountEdit, Edit.holds, or_and_right, exists_or, eq_comm]
  | updateAccount target change =>
      have kept : ∀ row : Account, (if row.id = target then change.apply row else row).id = row.id := by
        intro row
        split <;> rfl
      simp only [HasAccount, apply, List.mem_map, exists_exists_and_eq_and, kept, Write.accountEdit, Edit.holds]
  | deleteAccount row =>
      simp only [HasAccount, apply, List.mem_filter, decide_eq_true_eq, Write.accountEdit, Edit.holds]
      constructor
      · rintro ⟨account, ⟨member, other⟩, rfl⟩
        exact ⟨⟨account, member, rfl⟩, other⟩
      · rintro ⟨⟨account, member, rfl⟩, other⟩
        exact ⟨account, ⟨member, other⟩, rfl⟩
  | _ => rfl

theorem mem_items_edit (t : Tables) (w : Write) (item : Item) :
    item ∈ (t.apply w).items ↔ w.itemEdit.holds (fun row => row.id) (· ∈ t.items) item := by
  cases w <;> simp [apply, Write.itemEdit, Edit.holds]

theorem has_key_edit (t : Tables) (w : Write) (key : ReviewKey) :
    (t.apply w).HasKey key ↔ w.reviewEdit.holds ReviewKey.id t.HasKey key := by
  cases w with
  | insertReview row => simp [HasKey, apply, Write.reviewEdit, Edit.holds, or_and_right, exists_or, eq_comm]
  | deleteReview row =>
      simp only [HasKey, apply, List.mem_filter, decide_eq_true_eq, Write.reviewEdit, Edit.holds]
      constructor
      · rintro ⟨review, ⟨member, other⟩, rfl⟩
        exact ⟨⟨review, member, rfl⟩, other⟩
      · rintro ⟨⟨review, member, rfl⟩, other⟩
        exact ⟨review, ⟨member, other⟩, rfl⟩
  | addVotes target action value =>
      have kept : ∀ row : Review, (if row.id = target then row.addVotes action value else row).key = row.key := by
        intro row
        cases action <;> split <;> rfl
      simp only [HasKey, apply, List.mem_map, exists_exists_and_eq_and, kept, Write.reviewEdit, Edit.holds]
  | setVotes target up down =>
      have kept : ∀ row : Review,
          (if row.id = target then { row with upVotes := up, downVotes := down } else row).key = row.key := by
        intro row
        split <;> rfl
      simp only [HasKey, apply, List.mem_map, exists_exists_and_eq_and, kept, Write.reviewEdit, Edit.holds]
  | _ => rfl

theorem mem_votes_edit (t : Tables) (w : Write) (v : Vote) :
    v ∈ (t.apply w).votes ↔ w.voteEdit.holds (fun row => row.id) (· ∈ t.votes) v := by
  cases w <;> simp [apply, Write.voteEdit, Edit.holds]

def SameReviewOwner (a b : Review) : Prop := a.createdBy = b.createdBy ∧ a.relatedItem = b.relatedItem

-- What the foreign keys to account and item and the unique index over
-- (created_by, related_item) of review promise.
structure References (t : Tables) : Prop where
  itemAccounts : ∀ item ∈ t.items, t.HasAccount item.createdBy
  reviewAccounts : ∀ key, t.HasKey key → t.HasAccount key.createdBy
  reviewItems : ∀ key, t.HasKey key → t.HasItem key.relatedItem
  reviewOwners : t.reviews.Pairwise fun a b => ¬ SameReviewOwner a b
  voteAccounts : ∀ v ∈ t.votes, t.HasAccount v.createdBy

def Refers (t : Tables) : Write → Prop
  | .insertItem row => t.HasAccount row.createdBy
  | .insertReview row => t.HasAccount row.createdBy ∧ t.HasItem row.relatedItem ∧
      ∀ key, t.HasKey key → ¬ (key.createdBy = row.createdBy ∧ key.relatedItem = row.relatedItem)
  | .insertVote row => t.HasAccount row.createdBy
  | .deleteAccount row => (∀ item ∈ t.items, item.createdBy ≠ row.id) ∧ (∀ key, t.HasKey key → key.createdBy ≠ row.id) ∧
      ∀ v ∈ t.votes, v.createdBy ≠ row.id
  | .deleteItem row => ∀ key, t.HasKey key → key.relatedItem ≠ row.id
  | _ => True

structure SameReferences (t u : Tables) : Prop where
  accounts : ∀ id, t.HasAccount id ↔ u.HasAccount id
  items : ∀ item, item ∈ t.items ↔ item ∈ u.items
  reviews : ∀ key, t.HasKey key ↔ u.HasKey key
  votes : ∀ v, v ∈ t.votes ↔ v ∈ u.votes

theorem has_item_congr (t u : Tables) (same : ∀ item, item ∈ t.items ↔ item ∈ u.items) (id : Uuid) :
    t.HasItem id ↔ u.HasItem id :=
  exists_congr fun item => and_congr_left fun _ => same item

theorem same_references_apply (t u : Tables) (w : Write) (same : SameReferences t u) :
    SameReferences (t.apply w) (u.apply w) where
  accounts id := by
    rw [has_account_edit, has_account_edit]
    exact holds_congr _ _ _ _ same.accounts id
  items item := by
    rw [mem_items_edit, mem_items_edit]
    exact holds_congr _ _ _ _ same.items item
  reviews key := by
    rw [has_key_edit, has_key_edit]
    exact holds_congr _ _ _ _ same.reviews key
  votes v := by
    rw [mem_votes_edit, mem_votes_edit]
    exact holds_congr _ _ _ _ same.votes v

theorem refers_same (t u : Tables) (w : Write) (same : SameReferences t u) (refers : t.Refers w) : u.Refers w := by
  cases w with
  | insertItem row => exact (same.accounts _).mp refers
  | insertReview row =>
      exact ⟨(same.accounts _).mp refers.1, (has_item_congr t u same.items _).mp refers.2.1,
        fun key held => refers.2.2 key ((same.reviews key).mpr held)⟩
  | insertVote row => exact (same.accounts _).mp refers
  | deleteAccount row =>
      exact ⟨fun item held => refers.1 item ((same.items item).mpr held),
        fun key held => refers.2.1 key ((same.reviews key).mpr held), fun v held => refers.2.2 v ((same.votes v).mpr held)⟩
  | deleteItem row => exact fun key held => refers key ((same.reviews key).mpr held)
  | _ => trivial

-- Two edits of one table, where membership is what the edits make of it.
theorem edits_commute {ρ κ : Type} (key : ρ → κ) (holds : Tables → ρ → Prop) (edit : Write → Edit ρ κ)
    (spec : ∀ t w x, holds (t.apply w) x ↔ (edit w).holds key (holds t) x) (t : Tables) (a b : Write)
    (apart : Edit.Apart key (edit a) (edit b)) (x : ρ) :
    holds ((t.apply a).apply b) x ↔ holds ((t.apply b).apply a) x := by
  have first : holds ((t.apply a).apply b) x ↔ (edit b).holds key ((edit a).holds key (holds t)) x :=
    (spec _ b x).trans (holds_congr key _ _ _ (spec t a) x)
  have second : holds ((t.apply b).apply a) x ↔ (edit a).holds key ((edit b).holds key (holds t)) x :=
    (spec _ a x).trans (holds_congr key _ _ _ (spec t b) x)
  exact first.trans ((holds_commute key _ _ _ apart x).trans second.symm)

theorem references_commute (t : Tables) (a b : Write) (quiet : clash schema a b = false) :
    SameReferences ((t.apply a).apply b) ((t.apply b).apply a) := by
  have apart := no_clash a b quiet
  have differ : ∀ r : Resource, (r, Mode.update) ∈ a.claims → (r, Mode.update) ∉ b.claims := fun r left right => by
    cases apart r .update .update left right
  refine ⟨edits_commute _ HasAccount _ has_account_edit t a b ?_,
    edits_commute _ (fun t item => item ∈ t.items) _ mem_items_edit t a b ?_,
    edits_commute _ HasKey _ has_key_edit t a b ?_, edits_commute _ (fun t v => v ∈ t.votes) _ mem_votes_edit t a b ?_⟩
  · cases a <;> cases b <;> try trivial
    all_goals
      intro same
      exact differ (.account _) (by simp [Write.claims]; rfl) (by simp [Write.claims, same])
  · cases a <;> cases b <;> try trivial
    all_goals
      intro same
      exact differ (.item _) (by simp [Write.claims]; rfl) (by simp [Write.claims, same])
  · cases a <;> cases b <;> try trivial
    all_goals
      intro (same : Generated.id _ = Generated.id _)
      exact differ (.review _) (by simp [Write.claims]; rfl) (by simp [Write.claims, same])
  · cases a <;> cases b <;> try trivial
    all_goals
      intro same
      exact differ (.vote _) (by simp [Write.claims]; rfl) (by simp [Write.claims, same])

theorem account_kept (t : Tables) (a b : Write) (quiet : clash schema a b = false) (id : Uuid)
    (shared : (.account id, Mode.keyShare) ∈ a.claims) (held : t.HasAccount id) : (t.apply b).HasAccount id := by
  rw [has_account_edit]
  cases b with
  | insertAccount row => exact .inl held
  | deleteAccount row =>
      refine ⟨held, fun same => ?_⟩
      cases no_clash a _ quiet (.account id) .keyShare .update shared (by simp [Write.claims, show id = row.id from same])
  | _ => exact held

theorem item_kept (t : Tables) (a b : Write) (quiet : clash schema a b = false) (id : Uuid)
    (shared : (.item id, Mode.keyShare) ∈ a.claims) (held : t.HasItem id) : (t.apply b).HasItem id := by
  obtain ⟨item, member, rfl⟩ := held
  refine ⟨item, (mem_items_edit t b item).mpr ?_, rfl⟩
  cases b with
  | insertItem row => exact .inl member
  | deleteItem row =>
      refine ⟨member, fun same => ?_⟩
      cases no_clash a _ quiet (.item item.id) .keyShare .update shared (by simp [Write.claims, show item.id = row.id from same])
  | _ => exact member

theorem childless_items (t : Tables) (row : Account) (b : Write) (quiet : clash schema (.deleteAccount row) b = false)
    (childless : ∀ item ∈ t.items, item.createdBy ≠ row.id) : ∀ item ∈ (t.apply b).items, item.createdBy ≠ row.id := by
  intro item member
  rw [mem_items_edit] at member
  cases b with
  | insertItem other =>
      rcases member with old | rfl
      · exact childless item old
      · intro same
        cases no_clash _ _ quiet (.account row.id) .update .keyShare (by simp [Write.claims]) (by simp [Write.claims, same])
  | deleteItem other => exact childless item member.1
  | _ => exact childless item member

theorem childless_votes (t : Tables) (row : Account) (b : Write) (quiet : clash schema (.deleteAccount row) b = false)
    (childless : ∀ v ∈ t.votes, v.createdBy ≠ row.id) : ∀ v ∈ (t.apply b).votes, v.createdBy ≠ row.id := by
  intro v member
  rw [mem_votes_edit] at member
  cases b with
  | insertVote other =>
      rcases member with old | rfl
      · exact childless v old
      · intro same
        cases no_clash _ _ quiet (.account row.id) .update .keyShare (by simp [Write.claims]) (by simp [Write.claims, same])
  | deleteVote other => exact childless v member.1
  | _ => exact childless v member

theorem keys_kept (t : Tables) (b : Write) (bad : ReviewKey → Prop) (clean : ∀ key, t.HasKey key → ¬ bad key)
    (added : ∀ row, b = .insertReview row → ¬ bad row.key) : ∀ key, (t.apply b).HasKey key → ¬ bad key := by
  intro key held
  rw [has_key_edit] at held
  cases b with
  | insertReview row =>
      rcases held with old | rfl
      · exact clean key old
      · exact added row rfl
  | deleteReview row => exact clean key held.1
  | _ => exact clean key held

theorem refers_disjoint (t : Tables) (a b : Write) (quiet : clash schema a b = false) (refers : t.Refers a) :
    (t.apply b).Refers a := by
  cases a with
  | insertItem row => exact account_kept t _ b quiet _ (by simp [Write.claims]) refers
  | insertVote row => exact account_kept t _ b quiet _ (by simp [Write.claims]) refers
  | insertReview row =>
      refine ⟨account_kept t _ b quiet _ (by simp [Write.claims]) refers.1,
        item_kept t _ b quiet _ (by simp [Write.claims]) refers.2.1, keys_kept t b _ refers.2.2 ?_⟩
      rintro other rfl ⟨owner, item⟩
      cases no_clash _ _ quiet (.reviewOwnerItem row.createdBy row.relatedItem) .update .update (by simp [Write.claims])
        (by simp [Write.claims, ← show other.createdBy = row.createdBy from owner,
          ← show other.relatedItem = row.relatedItem from item])
  | deleteAccount row =>
      refine ⟨childless_items t row b quiet refers.1, keys_kept t b _ refers.2.1 ?_, childless_votes t row b quiet refers.2.2⟩
      rintro other rfl same
      cases no_clash _ _ quiet (.account row.id) .update .keyShare (by simp [Write.claims])
        (by simp [Write.claims, ← show other.createdBy = row.id from same])
  | deleteItem row =>
      refine keys_kept t b _ refers ?_
      rintro other rfl same
      cases no_clash _ _ quiet (.item row.id) .update .keyShare (by simp [Write.claims])
        (by simp [Write.claims, ← show other.relatedItem = row.id from same])
  | _ => trivial

theorem has_item_edit (t : Tables) (w : Write) (id : Uuid) (held : t.HasItem id) (spared : ∀ row, w = .deleteItem row → row.id ≠ id) :
    (t.apply w).HasItem id := by
  obtain ⟨item, member, rfl⟩ := held
  refine ⟨item, (mem_items_edit t w item).mpr ?_, rfl⟩
  cases w with
  | insertItem row => exact .inl member
  | deleteItem row => exact ⟨member, Ne.symm (spared row rfl)⟩
  | _ => exact member

theorem has_account_spared (t : Tables) (w : Write) (id : Uuid) (held : t.HasAccount id)
    (spared : ∀ row, w = .deleteAccount row → row.id ≠ id) : (t.apply w).HasAccount id := by
  rw [has_account_edit]
  cases w with
  | insertAccount row => exact .inl held
  | deleteAccount row => exact ⟨held, Ne.symm (spared row rfl)⟩
  | _ => exact held

theorem review_owners_apply (t : Tables) (w : Write) (valid : t.References) (refers : t.Refers w) :
    (t.apply w).reviews.Pairwise fun a b => ¬ SameReviewOwner a b := by
  have mapped : ∀ f : Review → Review, (∀ row, (f row).key = row.key) →
      (t.reviews.map f).Pairwise fun a b => ¬ SameReviewOwner a b := by
    intro f kept
    refine List.pairwise_map.mpr (valid.reviewOwners.imp fun {a b} different same => different ?_)
    have first := kept a
    have second := kept b
    simp only [Review.key, ReviewKey.mk.injEq] at first second
    exact ⟨first.2.1.symm.trans (same.1.trans second.2.1), first.2.2.symm.trans (same.2.trans second.2.2)⟩
  cases w with
  | insertReview row =>
      refine List.pairwise_append.mpr ⟨valid.reviewOwners, List.pairwise_singleton _ _, fun a member b last => ?_⟩
      rw [List.mem_singleton.mp last]
      exact refers.2.2 a.key ⟨a, member, rfl⟩
  | deleteReview row => exact valid.reviewOwners.filter _
  | addVotes id action value => exact mapped _ fun row => by cases action <;> split <;> rfl
  | setVotes id up down => exact mapped _ fun row => by split <;> rfl
  | _ => exact valid.reviewOwners

theorem references_apply (t : Tables) (w : Write) (valid : t.References) (refers : t.Refers w) : (t.apply w).References where
  itemAccounts item member := by
    rw [mem_items_edit] at member
    cases w with
    | insertItem row =>
        refine has_account_spared t _ _ ?_ fun other impossible => by cases impossible
        rcases member with old | rfl
        · exact valid.itemAccounts item old
        · exact refers
    | deleteItem row => exact has_account_spared t _ _ (valid.itemAccounts item member.1) fun other impossible => by cases impossible
    | deleteAccount row =>
        refine has_account_spared t _ _ (valid.itemAccounts item member) fun other same => ?_
        cases same
        exact Ne.symm (refers.1 item member)
    | _ => exact has_account_spared t _ _ (valid.itemAccounts item member) fun other impossible => by cases impossible
  reviewAccounts key held := by
    rw [has_key_edit] at held
    cases w with
    | insertReview row =>
        refine has_account_spared t _ _ ?_ fun other impossible => by cases impossible
        rcases held with old | rfl
        · exact valid.reviewAccounts key old
        · exact refers.1
    | deleteReview row => exact has_account_spared t _ _ (valid.reviewAccounts key held.1) fun other impossible => by cases impossible
    | deleteAccount row =>
        refine has_account_spared t _ _ (valid.reviewAccounts key held) fun other same => ?_
        cases same
        exact Ne.symm (refers.2.1 key held)
    | _ => exact has_account_spared t _ _ (valid.reviewAccounts key held) fun other impossible => by cases impossible
  reviewItems key held := by
    rw [has_key_edit] at held
    cases w with
    | insertReview row =>
        refine has_item_edit t _ _ ?_ fun other impossible => by cases impossible
        rcases held with old | rfl
        · exact valid.reviewItems key old
        · exact refers.2.1
    | deleteReview row => exact has_item_edit t _ _ (valid.reviewItems key held.1) fun other impossible => by cases impossible
    | deleteItem row =>
        refine has_item_edit t _ _ (valid.reviewItems key held) fun other same => ?_
        cases same
        exact Ne.symm (refers key held)
    | _ => exact has_item_edit t _ _ (valid.reviewItems key held) fun other impossible => by cases impossible
  reviewOwners := review_owners_apply t w valid refers
  voteAccounts v member := by
    rw [mem_votes_edit] at member
    cases w with
    | insertVote row =>
        refine has_account_spared t _ _ ?_ fun other impossible => by cases impossible
        rcases member with old | rfl
        · exact valid.voteAccounts v old
        · exact refers
    | deleteVote row => exact has_account_spared t _ _ (valid.voteAccounts v member.1) fun other impossible => by cases impossible
    | deleteAccount row =>
        refine has_account_spared t _ _ (valid.voteAccounts v member) fun other same => ?_
        cases same
        exact Ne.symm (refers.2.2 v member)
    | _ => exact has_account_spared t _ _ (valid.voteAccounts v member) fun other impossible => by cases impossible

def Deletes : Write → Prop
  | .deleteVote _ => True
  | .deleteReview _ => True
  | .deleteItem _ => True
  | .deleteAccount _ => True
  | _ => False

theorem held_after_deletes {ρ κ : Type} (key : ρ → κ) (holds : Tables → ρ → Prop) (edit : Write → Edit ρ κ)
    (spec : ∀ t w x, holds (t.apply w) x ↔ (edit w).holds key (holds t) x)
    (drops : ∀ w, Deletes w → ∀ row, edit w ≠ .add row) (t : Tables) (ws : List Write) (deletes : ∀ w ∈ ws, Deletes w)
    (x : ρ) (left : holds (view schema t ws) x) : holds t x ∧ ∀ w ∈ ws, ∀ k, edit w = .drop k → key x ≠ k := by
  induction ws generalizing t with
  | nil => exact ⟨left, fun w none => by cases none⟩
  | cons w rest ih =>
      obtain ⟨held, others⟩ := ih (t.apply w) (fun y later => deletes y (by simp [later])) left
      rw [spec] at held
      have here := drops w (deletes w (by simp))
      cases edited : edit w with
      | add row => exact absurd edited (here row)
      | drop k =>
          rw [edited] at held
          refine ⟨held.1, fun y member other same => ?_⟩
          rcases List.mem_cons.mp member with rfl | later
          · rw [edited] at same
            cases same
            exact held.2
          · exact others y later other same
      | keep =>
          rw [edited] at held
          refine ⟨held, fun y member other same => ?_⟩
          rcases List.mem_cons.mp member with rfl | later
          · rw [edited] at same
            cases same
          · exact others y later other same

theorem kept_after_deletes {ρ κ : Type} (key : ρ → κ) (holds : Tables → ρ → Prop) (edit : Write → Edit ρ κ)
    (spec : ∀ t w x, holds (t.apply w) x ↔ (edit w).holds key (holds t) x) (t : Tables) (ws : List Write) (x : ρ)
    (held : holds t x) (spared : ∀ w ∈ ws, ∀ k, edit w = .drop k → key x ≠ k) : holds (view schema t ws) x := by
  induction ws generalizing t with
  | nil => exact held
  | cons w rest ih =>
      refine ih (t.apply w) ?_ fun y later => spared y (by simp [later])
      rw [spec]
      cases edited : edit w with
      | add row => exact .inl held
      | drop k => exact ⟨held, spared w (by simp) k edited⟩
      | keep => exact held

theorem items_after_deletes (t : Tables) (ws : List Write) (deletes : ∀ w ∈ ws, Deletes w) (item : Item)
    (left : item ∈ (view schema t ws).items) : item ∈ t.items ∧ ∀ row, .deleteItem row ∈ ws → item.id ≠ row.id := by
  obtain ⟨held, dropped⟩ := held_after_deletes (fun row : Item => row.id) (fun t item => item ∈ t.items) Write.itemEdit
    mem_items_edit (fun w delete row => by revert delete; cases w <;> simp [Deletes, Write.itemEdit])
    t ws deletes item left
  exact ⟨held, fun row member => dropped _ member _ rfl⟩

theorem keys_after_deletes (t : Tables) (ws : List Write) (deletes : ∀ w ∈ ws, Deletes w) (key : ReviewKey)
    (left : (view schema t ws).HasKey key) : t.HasKey key ∧ ∀ row, .deleteReview row ∈ ws → key.id ≠ row.id := by
  obtain ⟨held, dropped⟩ := held_after_deletes ReviewKey.id HasKey Write.reviewEdit has_key_edit
    (fun w delete row => by revert delete; cases w <;> simp [Deletes, Write.reviewEdit]) t ws deletes key left
  exact ⟨held, fun row member => dropped _ member _ rfl⟩

theorem votes_after_deletes (t : Tables) (ws : List Write) (deletes : ∀ w ∈ ws, Deletes w) (v : Vote)
    (left : v ∈ (view schema t ws).votes) : v ∈ t.votes ∧ ∀ row, .deleteVote row ∈ ws → v.id ≠ row.id := by
  obtain ⟨held, dropped⟩ := held_after_deletes (fun row : Vote => row.id) (fun t v => v ∈ t.votes) Write.voteEdit
    mem_votes_edit (fun w delete row => by revert delete; cases w <;> simp [Deletes, Write.voteEdit])
    t ws deletes v left
  exact ⟨held, fun row member => dropped _ member _ rfl⟩

theorem sound_referring (t : Tables) (ws : List Write) (refers : ∀ w ∈ ws, ∀ u : Tables, u.Refers w) :
    Sound (S := schema) Refers t ws := by
  induction ws generalizing t with
  | nil => trivial
  | cons w rest ih => exact ⟨refers w (by simp) t, ih _ fun x later => refers x (by simp [later])⟩

theorem sound_delete_items (t : Tables) (rows : List Item) (childless : ∀ row ∈ rows, t.Refers (.deleteItem row)) :
    Sound (S := schema) Refers t (rows.map .deleteItem) := by
  induction rows generalizing t with
  | nil => trivial
  | cons row rest ih => exact ⟨childless row (by simp), ih _ fun other later => childless other (by simp [later])⟩

theorem sound_delete_accounts (t : Tables) (rows : List Account) (childless : ∀ row ∈ rows, t.Refers (.deleteAccount row)) :
    Sound (S := schema) Refers t (rows.map .deleteAccount) := by
  induction rows generalizing t with
  | nil => trivial
  | cons row rest ih => exact ⟨childless row (by simp), ih _ fun other later => childless other (by simp [later])⟩

def removedContent (t : Tables) (accounts : List Account) : List Write :=
  (t.votesOf accounts).map .deleteVote ++ (t.reviewsOf accounts).map .deleteReview

theorem removed_content_deletes (t : Tables) (accounts : List Account) : ∀ w ∈ t.removedContent accounts, Deletes w := by
  intro w member
  rcases List.mem_append.mp member with vote | review
  · obtain ⟨row, -, rfl⟩ := List.mem_map.mp vote
    trivial
  · obtain ⟨row, -, rfl⟩ := List.mem_map.mp review
    trivial

-- A cascade goes from the leaves up, so that no step leaves a child behind.
theorem sound_removal (t : Tables) (accounts : List Account) : Sound (S := schema) Refers t (t.removeAll accounts) := by
  have content := t.removed_content_deletes accounts
  have deletes : ∀ w ∈ t.removedContent accounts ++ (t.itemsOf accounts).map Write.deleteItem, Deletes w := by
    intro w member
    rcases List.mem_append.mp member with inside | item
    · exact content w inside
    · obtain ⟨row, -, rfl⟩ := List.mem_map.mp item
      trivial
  refine (sound_append _ _ _ _).mpr ⟨(sound_append _ _ _ _).mpr ⟨sound_referring t _ ?_, sound_delete_items _ _ ?_⟩,
    sound_delete_accounts _ _ ?_⟩
  · intro w member u
    rcases List.mem_append.mp member with vote | review
    · obtain ⟨row, -, rfl⟩ := List.mem_map.mp vote
      trivial
    · obtain ⟨row, -, rfl⟩ := List.mem_map.mp review
      trivial
  · intro item gone key held same
    obtain ⟨⟨row, stored, rfl⟩, dropped⟩ := keys_after_deletes t _ content key held
    have cascaded : row ∈ t.reviewsOf accounts :=
      List.mem_filter.mpr ⟨stored, decide_eq_true (.inr ⟨item, gone, Eq.symm same⟩)⟩
    exact dropped row (List.mem_append_right _ (List.mem_map_of_mem cascaded)) rfl
  · intro account gone
    refine ⟨fun item held same => ?_, fun key held same => ?_, fun v held same => ?_⟩
    · obtain ⟨stored, dropped⟩ := items_after_deletes t _ deletes item held
      have cascaded : item ∈ t.itemsOf accounts := List.mem_filter.mpr ⟨stored, decide_eq_true ⟨account, gone, same.symm⟩⟩
      exact dropped item (List.mem_append_right _ (List.mem_map_of_mem cascaded)) rfl
    · obtain ⟨⟨row, stored, rfl⟩, dropped⟩ := keys_after_deletes t _ deletes key held
      have cascaded : row ∈ t.reviewsOf accounts :=
        List.mem_filter.mpr ⟨stored, decide_eq_true (.inl ⟨account, gone, Eq.symm same⟩)⟩
      exact dropped row (List.mem_append_left _ (List.mem_append_right _ (List.mem_map_of_mem cascaded))) rfl
    · obtain ⟨stored, dropped⟩ := votes_after_deletes t _ deletes v held
      have cascaded : v ∈ t.votesOf accounts :=
        List.mem_filter.mpr ⟨stored, decide_eq_true (.inl ⟨account, gone, same.symm⟩)⟩
      exact dropped v (List.mem_append_left _ (List.mem_append_left _ (List.mem_map_of_mem cascaded))) rfl

theorem attempts_removal (t : Tables) (id : Uuid) : t.attempts (.removeAccount id) = [] ∨
    t.attempts (.removeAccount id) = t.removeAll (t.accounts.filter fun row => row.id = id) := by
  simp only [attempts]
  split
  · exact .inl rfl
  · rename_i rows present
    refine .inr ?_
    have only : ∀ owner : Uuid, (∃ account ∈ t.accounts.filter (fun row => row.id = id), account.id = owner) ↔ owner = id := by
      intro owner
      obtain ⟨some, member⟩ := List.exists_mem_of_ne_nil _ present
      constructor
      · rintro ⟨account, listed, rfl⟩
        simpa using (List.mem_filter.mp listed).2
      · rintro rfl
        exact ⟨some, member, by simpa using (List.mem_filter.mp member).2⟩
    have items : t.itemsOf (t.accounts.filter fun row => row.id = id) = t.cascadeItems id := by
      simp only [itemsOf, cascadeItems, only]
    have reviews : t.reviewsOf (t.accounts.filter fun row => row.id = id) = t.cascadeReviews id := by
      simp only [reviewsOf, cascadeReviews, only, items]
    have votes : t.votesOf (t.accounts.filter fun row => row.id = id) = t.cascadeVotes id := by
      simp only [votesOf, cascadeVotes, only, reviews]
    rw [removeAll, votes, reviews, items]
    rfl

theorem sound_references (t : Tables) (s : Sql) (allowed : t.refuses s = none) :
    Sound (S := schema) Refers t (t.attempts s) := by
  obtain ⟨-, clear⟩ := refuses_none t s allowed
  have parent : ∀ id, parentFault (t.accounts.any fun account => account.id = id) = none → t.HasAccount id := by
    intro id present
    simpa [HasAccount] using parent_fault_none _ present
  cases s with
  | insertVote row action user review =>
      simp only [attempts] at clear ⊢
      cases built : voteRow row action user review with
      | none => trivial
      | some vote =>
          have checks := clear (.insertVote vote) (by simp [built])
          obtain ⟨-, parents⟩ := or_else_none _ _ checks
          exact ⟨parent _ (or_else_none _ _ parents).1, trivial⟩
  | insertItem row title description category tags user =>
      simp only [attempts] at clear ⊢
      cases built : itemRow row title description category tags user with
      | none => trivial
      | some item =>
          have checks := clear (.insertItem item) (by simp [built])
          obtain ⟨-, rest⟩ := or_else_none _ _ checks
          exact ⟨parent _ (or_else_none _ _ rest).2, trivial⟩
  | insertReview row content rating user item =>
      simp only [attempts] at clear ⊢
      cases built : reviewRow row content rating user item with
      | none => trivial
      | some review =>
          have checks := clear (.insertReview review) (by simp [built])
          obtain ⟨-, rest⟩ := or_else_none _ _ checks
          obtain ⟨unique, parents⟩ := or_else_none _ _ rest
          obtain ⟨account, target⟩ := or_else_none _ _ parents
          have absent := unique_fault_none _ unique
          simp only [List.any_eq_false, Bool.or_eq_true, decide_eq_true_eq, Bool.and_eq_true, not_or] at absent
          refine ⟨⟨parent _ account, by simpa [HasItem] using parent_fault_none _ target, ?_⟩, trivial⟩
          rintro key ⟨other, member, rfl⟩ same
          exact (absent other member).2 same
  | deleteVote id =>
      refine sound_referring t _ fun w member u => ?_
      obtain ⟨row, -, rfl⟩ := List.mem_map.mp member
      trivial
  | addVotes reviews action value =>
      refine sound_referring t _ fun w member u => ?_
      obtain ⟨row, -, rfl⟩ := List.mem_map.mp member
      trivial
  | refreshReviewVotes =>
      refine sound_referring t _ fun w member u => ?_
      obtain ⟨row, -, rfl⟩ := List.mem_map.mp member
      trivial
  | updateAccount id change =>
      refine sound_referring t _ fun w member u => ?_
      obtain ⟨row, -, rfl⟩ := List.mem_map.mp member
      trivial
  | insertAccount row => exact ⟨trivial, trivial⟩
  | removeAccount id =>
      rcases t.attempts_removal id with nothing | removed
      · rw [nothing]
        trivial
      · rw [removed]
        exact sound_removal t _
  | removeAccountsExcept email => exact sound_removal t _
  | _ => trivial

def references : Constraints schema where
  Valid := References
  Applies := Refers
  Same := SameReferences
  same_apply := same_references_apply
  same_applies := refers_same
  commute := references_commute
  disjoint t a b quiet refers _ := refers_disjoint t a b quiet refers
  valid_apply := references_apply
  sound_attempts t s _ allowed := sound_references t s allowed

end Tables

end RateWise
