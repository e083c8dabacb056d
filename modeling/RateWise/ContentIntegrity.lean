import RateWise.References
import RateWise.RowLaws
import RateWise.StatementKinds
import RateWise.VoteFlow

set_option autoImplicit false

namespace RateWise

open Interleave
open ReadCommitted

-- The input objects at run time, which may carry the columns of the service.
structure RawItemInput extends CreateItemInput where
  createdBy : Option Text

structure RawReviewInput extends CreateReviewInput where
  relatedItem : Option Text
  createdBy : Option Text

namespace ItemsService

-- { ...item, createdBy: user.id }
def entity (item : RawItemInput) (user : AuthenticatedUser) : RawItemInput := { item with createdBy := some user.id.text }

def createFrom (item : RawItemInput) (user : AuthenticatedUser) (row : Generated) : Async Unit :=
  let created := entity item user
  Prog.catching
    (transaction (sql (.insertItem row created.title created.description created.category created.tags
      (orUndefined created.createdBy))))
    fun error =>
      reject (if isDuplicatedKeyError error then .gql .conflict "Item already exists" else .internalServerError)

end ItemsService

namespace ReviewService

-- { ...reviewData, relatedItem: item.id, createdBy: user.id }
def entity (reviewData : RawReviewInput) (item : Item) (user : AuthenticatedUser) : RawReviewInput :=
  { reviewData with relatedItem := some item.id.text, createdBy := some user.id.text }

def createFrom (reviewData : RawReviewInput) (user : AuthenticatedUser) (row : Generated) : Async Unit := do
  let item ← ItemsService.findOneByIdOrThrow reviewData.itemId
  if item.createdBy = user.id then
    reject (.gql .forbidden "Users cannot review their own items.")
  let review := entity reviewData item user
  Prog.catching
    (transaction (sql (.insertReview row review.content review.rating (orUndefined review.createdBy)
      (orUndefined review.relatedItem))))
    fun error =>
      reject (if isDuplicatedKeyError error then .gql .conflict "You have already reviewed this item." else error)

end ReviewService

theorem create_item_from (item : RawItemInput) (user : AuthenticatedUser) (row : Generated) :
    ItemsService.createFrom item user row = ItemsService.createOne item.toCreateItemInput user row := rfl

theorem create_review_from (reviewData : RawReviewInput) (user : AuthenticatedUser) (row : Generated) :
    ReviewService.createFrom reviewData user row = ReviewService.createOne reviewData.toCreateReviewInput user row := rfl

inductive ContentRequest where
  | createAccount (row : Generated) (username email passwordHash : Text)
  | createItem (item : RawItemInput) (user : AuthenticatedUser) (row : Generated)
  | createReview (reviewData : RawReviewInput) (user : AuthenticatedUser) (row : Generated)
  | voteReview (reviewId : Text) (user : Uuid) (action : VoteAction) (row : Generated)
  | deleteVote (reviewId : Text) (user : Uuid)
  | deleteAccount (userId : Text)
  | runSeed (adminEmail : Text) (draws : SeedDraws) (options : SeedOptions)

namespace ContentRequest

def program : ContentRequest → Async Unit
  | .createAccount row username email passwordHash => discard (UsersService.createOne row username email passwordHash)
  | .createItem item user row => ItemsService.createFrom item user row
  | .createReview reviewData user row => ReviewService.createFrom reviewData user row
  | .voteReview reviewId user action row => discard (VotesResolver.voteReview reviewId user action row)
  | .deleteVote reviewId user => discard (VotesResolver.deleteVote reviewId user)
  | .deleteAccount userId => UserDeletionService.deleteOne userId
  | .runSeed adminEmail draws options => SeedService.runSeed adminEmail draws options

def DrawsItem : ContentRequest → Uuid → Uuid → Prop
  | .createItem _ user row, id, creator => row.id = id ∧ user.id = creator
  | .runSeed _ draws _, id, creator => ∃ k, (draws.item creator k).row.id = id
  | _, _, _ => False

def DrawsReview : ContentRequest → Uuid → Uuid → Prop
  | .createReview _ user row, id, creator => row.id = id ∧ user.id = creator
  | .runSeed _ draws _, id, creator => ∃ item, (draws.review item creator).row.id = id
  | _, _, _ => False

end ContentRequest

-- The id that an INSERT which went through drew, and the creator of its row.
def insertedItem : Event Api → Option (Uuid × Uuid)
  | .ran (.sql (.insertItem row _ _ _ _ user)) (.ok _) => (uuidIn user).map fun creator => (row.id, creator)
  | _ => none

def insertedReview : Event Api → Option (Uuid × Uuid)
  | .ran (.sql (.insertReview row _ _ user _)) (.ok _) => (uuidIn user).map fun creator => (row.id, creator)
  | _ => none

def insertedItems (log : List (Event Api)) : List (Uuid × Uuid) := log.filterMap insertedItem

def insertedReviews (log : List (Event Api)) : List (Uuid × Uuid) := log.filterMap insertedReview

-- Items and reviews have the creators they were drawn for, and no review has
-- the creator that its item was drawn for.
def creatorRule (items reviews : Uuid → Uuid → Prop) : RowRule schema where
  Good t := (∀ item ∈ t.items, items item.id item.createdBy) ∧
    ∀ row ∈ t.reviews, reviews row.id row.createdBy ∧ ¬ items row.relatedItem row.createdBy
  Lawful
    | .insertItem row => items row.id row.createdBy
    | .insertReview row => reviews row.id row.createdBy ∧ ¬ items row.relatedItem row.createdBy
    | _ => True
  good_apply t w good lawful := by
    have mapped : ∀ f : Review → Review, (∀ row, (f row).key = row.key) → ∀ row ∈ t.reviews.map f,
        reviews row.id row.createdBy ∧ ¬ items row.relatedItem row.createdBy := by
      intro f kept row member
      obtain ⟨before, stored, rfl⟩ := List.mem_map.mp member
      have same := kept before
      simp only [Review.key, ReviewKey.mk.injEq] at same
      rw [same.1, same.2.1, same.2.2]
      exact good.2 before stored
    cases w with
    | insertItem row =>
        refine ⟨fun item stored => ?_, good.2⟩
        rcases List.mem_append.mp stored with old | new
        · exact good.1 item old
        · rw [List.mem_singleton.mp new]
          exact lawful
    | insertReview row =>
        refine ⟨good.1, fun review stored => ?_⟩
        rcases List.mem_append.mp stored with old | new
        · exact good.2 review old
        · rw [List.mem_singleton.mp new]
          exact lawful
    | deleteItem row => exact ⟨fun item stored => good.1 item (List.mem_of_mem_filter stored), good.2⟩
    | deleteReview row => exact ⟨good.1, fun review stored => good.2 review (List.mem_of_mem_filter stored)⟩
    | addVotes id action value => exact ⟨good.1, mapped _ fun row => by cases action <;> split <;> rfl⟩
    | setVotes id up down => exact ⟨good.1, mapped _ fun row => by split <;> rfl⟩
    | _ => exact good

section Obedience

variable (items reviews : Uuid → Uuid → Prop)

theorem content_allowed (s : Api.Stmt) (leaves : Leaves Sql.storesContent s) : (creatorRule items reviews).Allows s := by
  cases s with
  | sql q =>
      intro rows w member
      cases q with
      | insertItem row title description category tags user => cases leaves
      | insertReview row content rating user item => cases leaves
      | insertVote row action user review =>
          obtain ⟨vote, -, rfl⟩ := List.mem_map.mp member
          trivial
      | insertAccount row =>
          rw [show w = .insertAccount row from List.mem_singleton.mp member]
          trivial
      | updateAccount id change =>
          obtain ⟨row, -, rfl⟩ := List.mem_map.mp member
          trivial
      | deleteVote id =>
          obtain ⟨row, -, rfl⟩ := List.mem_map.mp member
          trivial
      | addVotes ids action value =>
          obtain ⟨row, -, rfl⟩ := List.mem_map.mp member
          trivial
      | refreshReviewVotes =>
          obtain ⟨row, -, rfl⟩ := List.mem_map.mp member
          trivial
      | removeAccount id =>
          rcases rows.attempts_removal id with nothing | removed
          · rw [show schema.attempts rows (.removeAccount id) = [] from nothing] at member
            cases member
          · rw [show schema.attempts rows (.removeAccount id) = _ from removed] at member
            simp only [Tables.removeAll, List.mem_append, List.mem_map] at member
            rcases member with ((⟨_, _, rfl⟩ | ⟨_, _, rfl⟩) | ⟨_, _, rfl⟩) | ⟨_, _, rfl⟩ <;> trivial
      | removeAccountsExcept email =>
          simp only [schema, Tables.attempts, Tables.removeAll, List.mem_append, List.mem_map] at member
          rcases member with ((⟨_, _, rfl⟩ | ⟨_, _, rfl⟩) | ⟨_, _, rfl⟩) | ⟨_, _, rfl⟩ <;> trivial
      | _ => cases member
  | tryLock key => trivial
  | cmd c => trivial

variable (log : List (Event Api))

theorem content_heeds {α : Type} (prog : Async α) (leaves : prog.Sends (Leaves Sql.storesContent)) :
    prog.Heeds ((creatorRule items reviews).AllowsRan log) (creatorRule items reviews).Credible fun _ => True :=
  heeds_sends prog (sends_mono _ _ prog leaves fun s plain =>
    (creatorRule items reviews).allows_ran log s (content_allowed items reviews s plain))

theorem insert_item_allowed (row : Generated) (title description category : Text) (tags : List Text) (user : Uuid)
    (drawn : (row.id, user) ∈ insertedItems log → items row.id user) :
    (creatorRule items reviews).AllowsRan log (.sql (.insertItem row title description category tags user.text)) := by
  rintro ⟨reply, ran⟩ rows - w member
  have inserted : (row.id, user) ∈ insertedItems log := List.mem_filterMap.mpr ⟨_, ran, by simp [insertedItem, uuid_in_text]⟩
  obtain ⟨item, built, rfl⟩ := List.mem_map.mp member
  have parsed : itemRow row title description category tags user.text = some ⟨row, title, description, category, tags, user⟩ := by
    simp [itemRow, uuid_in_text]
  rw [parsed] at built
  rw [List.mem_singleton.mp built]
  exact drawn inserted

theorem insert_review_allowed (row : Generated) (content : Text) (rating : Int) (user item : Uuid)
    (drawn : (row.id, user) ∈ insertedReviews log → reviews row.id user) (foreign : ¬ items item user) :
    (creatorRule items reviews).AllowsRan log (.sql (.insertReview row content rating user.text item.text)) := by
  rintro ⟨reply, ran⟩ rows - w member
  have inserted : (row.id, user) ∈ insertedReviews log := List.mem_filterMap.mpr ⟨_, ran, by simp [insertedReview, uuid_in_text]⟩
  obtain ⟨review, built, rfl⟩ := List.mem_map.mp member
  have parsed : reviewRow row content rating user.text item.text = some ⟨row, content, rating, 0, 0, user, item⟩ := by
    simp [reviewRow, uuid_in_text]
  rw [parsed] at built
  rw [List.mem_singleton.mp built]
  exact ⟨drawn inserted, foreign⟩

-- The check on the creator is made against the row that the item was inserted
-- with, so that it holds whenever the review is stored.
theorem create_review_heeds (unique : ∀ id a b, items id a → items id b → a = b) (reviewData : RawReviewInput)
    (user : AuthenticatedUser) (row : Generated) (drawn : (row.id, user.id) ∈ insertedReviews log → reviews row.id user.id) :
    (ReviewService.createFrom reviewData user row).Heeds ((creatorRule items reviews).AllowsRan log)
      (creatorRule items reviews).Credible fun _ => True := by
  refine heeds_bind (fun item : Item => items item.id item.createdBy) _ _ _ ?_ fun item origin => ?_
  · unfold ItemsService.findOneByIdOrThrow
    split
    · trivial
    · refine heeds_bind (fun found : Option Item => ∀ item, found = some item → items item.id item.createdBy) _ _ _
        (heeds_mono _ _ _ (heeds_query _ _ (.findItem reviewData.itemId)
          ((creatorRule items reviews).allows_ran log _ (content_allowed items reviews _ rfl))) ?_) fun found origin => ?_
      · rintro found ⟨rows, good, rfl⟩ item same
        exact good.1 item (List.mem_of_find?_eq_some same)
      · cases found with
        | none => trivial
        | some item => exact origin item rfl
  · by_cases own : item.createdBy = user.id
    · simp only [own, if_true]
      trivial
    · simp only [own, if_false]
      refine heeds_catching _ _ _ (heeds_save _ _ _ ?_) fun _ => trivial
      exact insert_review_allowed items reviews log row _ _ user.id item.id drawn fun other => own (unique _ _ _ origin other)

theorem seed_content_heeds (unique : ∀ id a b, items id a → items id b → a = b) (adminEmail : Text) (draws : SeedDraws)
    (options : SeedOptions)
    (drawnItems : ∀ user k, ((draws.item user k).row.id, user) ∈ insertedItems log → items (draws.item user k).row.id user)
    (drawnReviews : ∀ item user, ((draws.review item user).row.id, user) ∈ insertedReviews log →
      reviews (draws.review item user).row.id user) :
    (SeedService.runSeed adminEmail draws options).Heeds ((creatorRule items reviews).AllowsRan log)
      (creatorRule items reviews).Credible fun _ => True := by
  have plain : ∀ {α : Type} (prog : Async α), prog.Sends (Leaves Sql.storesContent) →
      prog.Heeds ((creatorRule items reviews).AllowsRan log) (creatorRule items reviews).Credible fun _ => True :=
    fun prog leaves => content_heeds items reviews log prog leaves
  have ids := plain (SeedService.getUserIdsOrThrow adminEmail) (leaves_content _ (user_ids_leave adminEmail))
  refine heeds_then _ _ _ _ (plain _ (plain_leaves _ _ rfl)) fun _ => ?_
  refine heeds_then _ _ _ _ (plain _ (leaves_for_each _ _ _ fun i => sends_transaction _ _ (plain_leaves _ _ rfl))) fun _ => ?_
  refine heeds_then _ _ _ _ (heeds_then _ _ _ _ ids fun usersIds => heeds_for_each _ _ _ _ fun userId _ =>
    heeds_for_each _ _ _ _ fun i _ => ?_) fun _ => ?_
  · exact heeds_save _ _ _ (insert_item_allowed items reviews log _ _ _ _ _ userId (drawnItems userId i))
  refine heeds_then _ _ _ _ (heeds_then _ _ _ _ ids fun usersIds => ?_) fun _ =>
    plain _ (leaves_content _ (seed_votes_leave adminEmail draws options.maxVotes))
  refine heeds_bind (fun itemsMeta : List ItemMeta => ∀ item ∈ itemsMeta, items item.id item.createdBy) _ _ _ ?_
    fun itemsMeta origins => heeds_for_each _ _ _ _ fun pair selected => ?_
  · refine heeds_bind (fun itemsMeta : List ItemMeta => ∀ item ∈ itemsMeta, items item.id item.createdBy) _ _ _
      (heeds_mono _ _ _ (heeds_query _ _ .findItemsMeta
        ((creatorRule items reviews).allows_ran log _ (content_allowed items reviews _ rfl))) ?_) fun found origins => ?_
    · rintro found ⟨rows, good, rfl⟩ item listed
      obtain ⟨row, stored, rfl⟩ := List.mem_map.mp listed
      exact good.1 row stored
    · unfold rejectIf
      split
      · trivial
      · exact origins
  · have candidate := (draws.reviews.perm _).mem_iff.mp (List.mem_of_mem_take selected)
    obtain ⟨item, listed, paired⟩ := List.mem_flatMap.mp candidate
    obtain ⟨userId, other, rfl⟩ := List.mem_map.mp paired
    have foreign : userId ≠ item.createdBy := of_decide_eq_true (List.mem_filter.mp other).2
    refine heeds_save _ _ _ (insert_review_allowed items reviews log _ _ _ userId item.id (drawnReviews item.id userId) ?_)
    exact fun own => foreign (unique _ _ _ own (origins item listed))

end Obedience

theorem find_item_silent (id : Text) : (ItemsService.findOneByIdOrThrow id).Quiet Silent fun _ => True := by
  unfold ItemsService.findOneByIdOrThrow
  split
  · trivial
  · refine Prog.quiet_bind _ (fun _ => True) _ _ _ ⟨?_, fun reply => by cases reply <;> trivial⟩ fun (found : Option Item) _ => ?_
    · rintro q ⟨⟩ rows
      rfl
    · cases found <;> trivial

theorem create_review_all_or_nothing (reviewData : RawReviewInput) (user : AuthenticatedUser) (row : Generated) :
    AllOrNothing false (ReviewService.createFrom reviewData user row) := by
  refine all_after_reads _ _ (find_item_silent reviewData.itemId) fun item => ?_
  by_cases own : item.createdBy = user.id
  · simp only [own, if_true]
    trivial
  · simp only [own, if_false]
    exact all_catching _ _ _ (all_transaction _ fun reply => by cases reply <;> trivial) fun _ _ => trivial

theorem item_runs (event : Event Api) (pair : Uuid × Uuid) (drew : insertedItem event = some pair) :
    ∃ s reply, event = .ran s reply := by
  cases event with
  | ran s reply => exact ⟨s, reply, rfl⟩
  | _ => cases drew

theorem review_runs (event : Event Api) (pair : Uuid × Uuid) (drew : insertedReview event = some pair) :
    ∃ s reply, event = .ran s reply := by
  cases event with
  | ran s reply => exact ⟨s, reply, rfl⟩
  | _ => cases drew

-- The ids that a request may be given for its row, with the row's creator.
abbrev Inserts (drawn : Event Api → Option (Uuid × Uuid)) (prog : Async Unit) (own : Uuid × Uuid) : Prop :=
  prog.Sends fun s => ∀ reply pair, drawn (.ran s reply) = some pair → pair = own

theorem pair_parsed (id creator : Uuid) (pair : Uuid × Uuid)
    (parsed : (uuidIn creator.text).map (fun creator => (id, creator)) = some pair) : pair = (id, creator) := by
  rw [uuid_in_text] at parsed
  exact (Option.some.inj parsed).symm

theorem create_item_sends (item : RawItemInput) (user : AuthenticatedUser) (row : Generated) :
    Inserts insertedItem (ItemsService.createFrom item user row) (row.id, user.id) := by
  refine sends_catching _ _ _ (sends_transaction _ _ ⟨fun reply pair inserted => ?_, fun reply => by cases reply <;> trivial⟩)
    fun _ => trivial
  cases reply with
  | error fault => cases inserted
  | ok _ => exact pair_parsed row.id user.id pair inserted

theorem create_review_sends (reviewData : RawReviewInput) (user : AuthenticatedUser) (row : Generated) :
    Inserts insertedReview (ReviewService.createFrom reviewData user row) (row.id, user.id) := by
  refine sends_bind _ _ _ ?_ fun item => ?_
  · unfold ItemsService.findOneByIdOrThrow
    split
    · trivial
    · refine sends_bind _ _ _ ⟨fun reply pair inserted => ?_, fun reply => by cases reply <;> trivial⟩
        fun (found : Option Item) => ?_
      · cases reply <;> cases inserted
      · cases found <;> trivial
  · by_cases own : item.createdBy = user.id
    · simp only [own, if_true]
      trivial
    · simp only [own, if_false]
      refine sends_catching _ _ _ (sends_transaction _ _ ⟨fun reply pair inserted => ?_, fun reply => by cases reply <;> trivial⟩)
        fun _ => trivial
      cases reply with
      | error fault => cases inserted
      | ok _ => exact pair_parsed row.id user.id pair inserted

section Runs

variable {n : Nat} {hashtext : Text → Int32}

-- gen_random_uuid draws no id for the rows of two creators.
def FreshIds (net : Net (engine hashtext) Err Unit n) : Prop :=
  (∀ i j, ∀ one ∈ insertedItems (net.sessions i).log, ∀ other ∈ insertedItems (net.sessions j).log,
    one.1 = other.1 → one.2 = other.2) ∧
  ∀ i j, ∀ one ∈ insertedReviews (net.sessions i).log, ∀ other ∈ insertedReviews (net.sessions j).log,
    one.1 = other.1 → one.2 = other.2

instance (net : Net (engine hashtext) Err Unit n) : Decidable (FreshIds net) := by
  unfold FreshIds
  infer_instance

def ItemInserted (requests : Fin n → ContentRequest) (net : Net (engine hashtext) Err Unit n) (id creator : Uuid) : Prop :=
  ∃ i, (id, creator) ∈ insertedItems (net.sessions i).log ∧ (requests i).DrawsItem id creator

def ReviewInserted (requests : Fin n → ContentRequest) (net : Net (engine hashtext) Err Unit n) (id creator : Uuid) : Prop :=
  ∃ i, (id, creator) ∈ insertedReviews (net.sessions i).log ∧ (requests i).DrawsReview id creator

theorem content_request_heeds (requests : Fin n → ContentRequest) (net : Net (engine hashtext) Err Unit n) (fresh : FreshIds net)
    (i : Fin n) :
    (requests i).program.Heeds
      ((creatorRule (ItemInserted requests net) (ReviewInserted requests net)).AllowsRan (net.sessions i).log)
      (creatorRule (ItemInserted requests net) (ReviewInserted requests net)).Credible fun _ => True := by
  have unique : ∀ id a b, ItemInserted requests net id a → ItemInserted requests net id b → a = b := by
    rintro id a b ⟨j, first, -⟩ ⟨k, second, -⟩
    exact fresh.1 j k _ first _ second rfl
  have items : ∀ id creator, (requests i).DrawsItem id creator → (id, creator) ∈ insertedItems (net.sessions i).log →
      ItemInserted requests net id creator := fun _ _ draws inserted => ⟨i, inserted, draws⟩
  have reviews : ∀ id creator, (requests i).DrawsReview id creator → (id, creator) ∈ insertedReviews (net.sessions i).log →
      ReviewInserted requests net id creator := fun _ _ draws inserted => ⟨i, inserted, draws⟩
  have plain : ∀ {α : Type} (prog : Async α), prog.Sends (Leaves Sql.stores) → _ := fun prog leaves =>
    content_heeds (ItemInserted requests net) (ReviewInserted requests net) (net.sessions i).log prog (leaves_content prog leaves)
  cases request : requests i with
  | createAccount row username email passwordHash =>
      refine heeds_discard _ _ _ (content_heeds _ _ _ _ (sends_catching _ _ _ (sends_bind _ _ _ (sends_transaction _ _
        (plain_leaves _ _ rfl)) fun _ => trivial) fun _ => trivial))
  | createItem item user row =>
      rw [request] at items
      exact heeds_catching _ _ _ (heeds_save _ _ _ (insert_item_allowed _ _ _ row _ _ _ _ user.id (items _ _ ⟨rfl, rfl⟩)))
        fun _ => trivial
  | createReview reviewData user row =>
      rw [request] at reviews
      exact create_review_heeds _ _ _ unique reviewData user row (reviews _ _ ⟨rfl, rfl⟩)
  | voteReview reviewId user action row =>
      exact heeds_discard _ _ _ (plain _ (sends_bind _ _ _ (vote_leaves _ _ _ _) fun _ => trivial))
  | deleteVote reviewId user => exact heeds_discard _ _ _ (plain _ (delete_vote_leaves _ _))
  | deleteAccount userId => exact plain _ (deletion_leaves userId)
  | runSeed adminEmail draws options =>
      rw [request] at items reviews
      exact seed_content_heeds _ _ _ unique adminEmail draws options (fun user k => items _ _ ⟨k, rfl⟩)
        fun item user => reviews _ _ ⟨item, rfl⟩

theorem inserted_own (drawn : Event Api → Option (Uuid × Uuid))
    (runs : ∀ event pair, drawn event = some pair → ∃ s reply, event = .ran s reply)
    (start last : Net (engine hashtext) Err Unit n) (moves : List (Move (engine hashtext) n)) (i : Fin n) (own : Uuid × Uuid)
    (inserts : Inserts drawn (start.sessions i).prog own) (silent : (start.sessions i).log = [])
    (reached : run start moves = some last) (began : (last.sessions i).log.filterMap drawn ≠ []) :
    own ∈ (last.sessions i).log.filterMap drawn := by
  obtain ⟨pair, listed⟩ := List.exists_mem_of_ne_nil _ began
  obtain ⟨event, logged, drew⟩ := List.mem_filterMap.mp listed
  obtain ⟨s, reply, rfl⟩ := runs event pair drew
  rw [← run_sent _ start last moves i inserts silent reached s reply logged reply pair drew]
  exact listed

-- Requests on a database in which there may be accounts, and nothing else.
def contentStart (hashtext : Text → Int32) (requests : Fin n → ContentRequest) (accounts : List Account) (store : Redis) :
    Net (engine hashtext) Err Unit n :=
  launch ⟨{ Tables.empty with accounts := accounts }, store⟩ fun i => (requests i).program

theorem content_stays_consistent (requests : Fin n → ContentRequest) (accounts : List Account) (store : Redis)
    (moves : List (Move (engine hashtext) n)) (last : Net (engine hashtext) Err Unit n)
    (reached : run (contentStart hashtext requests accounts store) moves = some last) (fresh : FreshIds last) :
    (∀ row ∈ last.world.db.reviews, ∀ item ∈ last.world.db.items, item.id = row.relatedItem →
      item.createdBy ≠ row.createdBy) ∧
    last.world.db.reviews.Pairwise (fun a b => ¬ Tables.SameReviewOwner a b) ∧
    last.world.db.votes.Pairwise (fun a b => ¬ Tables.SameOwner a b) ∧
    (∀ item ∈ last.world.db.items, last.world.db.HasAccount item.createdBy) ∧
    (∀ row ∈ last.world.db.reviews, last.world.db.HasAccount row.createdBy ∧ last.world.db.HasItem row.relatedItem) ∧
    (∀ v ∈ last.world.db.votes, last.world.db.HasAccount v.createdBy ∧ last.world.db.HasReview v.relatedReview) ∧
    (∀ stored ∈ last.world.db.items, ItemInserted requests last stored.id stored.createdBy) ∧
    (∀ stored ∈ last.world.db.reviews, ReviewInserted requests last stored.id stored.createdBy) ∧
    (∀ i item user row, requests i = .createItem item user row → insertedItems (last.sessions i).log ≠ [] →
      ∀ stored ∈ last.world.db.items, stored.id = row.id → stored.createdBy = user.id) ∧
    (∀ i reviewData user row, requests i = .createReview reviewData user row → insertedReviews (last.sessions i).log ≠ [] →
      ∀ stored ∈ last.world.db.reviews, stored.id = row.id → stored.createdBy = user.id) ∧
    ∀ i reviewData user row, requests i = .createReview reviewData user row →
      (∀ value, (last.sessions i).outcome ≠ some (.ok value)) → ∀ early late middle next, moves = early ++ .turn i :: late →
      run (contentStart hashtext requests accounts store) early = some middle →
      step middle (.turn i) = some next → next.world.db = middle.world.db := by
  let start := contentStart hashtext requests accounts store
  let R := creatorRule (ItemInserted requests last) (ReviewInserted requests last)
  have good : R.Good last.world.db := (R.run_upheld_ran start last moves (R.launch_upheld_by _ _ _
    ⟨fun item stored => (by cases stored), fun row stored => by cases stored⟩ (content_request_heeds requests last fresh)) reached).rows
  have keys : Tables.integrity.Valid last.world.db := (run_invariant (fun _ _ => True) (Consistent Tables.integrity)
    (fun net move next consistent _ stepped => step_consistent _ net next move consistent stepped) start last moves
    (launch_consistent _ _ _ ⟨.nil, .nil, .nil, fun v stored => by cases stored⟩) (meets_trivial _ _) reached).world
  have references : Tables.references.Valid last.world.db := (run_invariant (fun _ _ => True) (Consistent Tables.references)
    (fun net move next consistent _ stepped => step_consistent _ net next move consistent stepped) start last moves
    (launch_consistent _ _ _ ⟨fun item stored => (by cases stored), fun key held => (by
      obtain ⟨row, stored, -⟩ := held
      cases stored), fun key held => (by
      obtain ⟨row, stored, -⟩ := held
      cases stored), .nil, fun v stored => by cases stored⟩) (meets_trivial _ _) reached).world
  refine ⟨fun row stored item present same own => ?_, references.reviewOwners, keys.voteOwners, references.itemAccounts,
    fun row stored => ⟨references.reviewAccounts row.key ⟨row, stored, rfl⟩, references.reviewItems row.key ⟨row, stored, rfl⟩⟩,
    fun v stored => ⟨references.voteAccounts v stored, keys.voteReviews v stored⟩, good.1, fun row stored => (good.2 row stored).1,
    ?_, ?_, ?_⟩
  · refine (good.2 row stored).2 ?_
    rw [← same, ← own]
    exact good.1 item present
  · intro i item user row request began stored present same
    obtain ⟨j, inserted, -⟩ := good.1 stored present
    have inserts : Inserts insertedItem (start.sessions i).prog (row.id, user.id) := by
      show Inserts insertedItem (requests i).program _
      rw [request]
      exact create_item_sends item user row
    have listed := inserted_own insertedItem item_runs start last moves i _ inserts rfl reached began
    exact fresh.1 j i _ inserted _ listed same
  · intro i reviewData user row request began stored present same
    obtain ⟨j, inserted, -⟩ := (good.2 stored present).1
    have inserts : Inserts insertedReview (start.sessions i).prog (row.id, user.id) := by
      show Inserts insertedReview (requests i).program _
      rw [request]
      exact create_review_sends reviewData user row
    have listed := inserted_own insertedReview review_runs start last moves i _ inserts rfl reached began
    exact fresh.2 j i _ inserted _ listed same
  · intro i reviewData user row request refused early late middle next split before stepped
    have all : AllOrNothing (start.sessions i).tx.isSome (start.sessions i).prog := by
      show AllOrNothing false (requests i).program
      rw [request]
      exact create_review_all_or_nothing reviewData user row
    exact all_or_nothing_run start last moves i all reached refused early late middle next split before stepped

def sellerId : Uuid := ⟨"0a1b2c3d-4e5f-4a6b-8c7d-9e0f1a2b3c4d".toList, by decide⟩

def criticId : Uuid := ⟨"1b2c3d4e-5f6a-4b7c-8d9e-0f1a2b3c4d5e".toList, by decide⟩

def joinerId : Uuid := ⟨"4e5f6a7b-8c9d-4e0f-9a1b-3c4d5e6f7a8b".toList, by decide⟩

def lampId : Uuid := ⟨"2c3d4e5f-6a7b-4c8d-9e0f-1a2b3c4d5e6f".toList, by decide⟩

def chairId : Uuid := ⟨"5f6a7b8c-9d0e-4f1a-8b2c-4d5e6f7a8b9c".toList, by decide⟩

def deskId : Uuid := ⟨"6a7b8c9d-0e1f-4a2b-9c3d-5e6f7a8b9c0d".toList, by decide⟩

def lampReviewId : Uuid := ⟨"3d4e5f6a-7b8c-4d9e-8f0a-2b3c4d5e6f7a".toList, by decide⟩

def chairReviewId : Uuid := ⟨"7b8c9d0e-1f2a-4b3c-8d4e-6f7a8b9c0d1e".toList, by decide⟩

def lampVoteId : Uuid := ⟨"8c9d0e1f-2a3b-4c4d-9e5f-7a8b9c0d1e2f".toList, by decide⟩

def signedIn (id : Uuid) (name : String) : AuthenticatedUser := ⟨id, name.toList ++ "@x".toList, name.toList, .active, [.reviewer, .creator]⟩

def storedUser (id : Uuid) (name : String) : Account :=
  ⟨⟨id, 0⟩, name.toList, name.toList ++ "@x".toList, [], [.reviewer, .creator], .active⟩

def lampDraws : SeedDraws where
  user k := ⟨⟨if k = 0 then joinerId else criticId, k⟩, if k = 0 then "jo".toList else "cy".toList,
    if k = 0 then "jo@x".toList else "cy@x".toList, "secret".toList, .active⟩
  item userId k := ⟨⟨if userId = joinerId then chairId else deskId, k⟩,
    ⟨"made of oak".toList, "solid and heavy".toList, "home".toList, []⟩⟩
  review _ _ := ⟨⟨lampReviewId, 2⟩, "bright enough".toList, 7⟩
  vote _ _ := ⟨⟨lampVoteId, 3⟩, .up⟩
  reviews := ⟨fun candidates => candidates, fun _ => .refl _⟩
  votes := ⟨fun candidates => candidates, fun _ => .refl _⟩

def sue : AuthenticatedUser := signedIn sellerId "sue"

-- The seeder keeps the account of a seller, who offers a lamp and reviews a
-- seeded chair with an input that names the critic as its author.
def lampRequests : Fin 3 → ContentRequest
  | ⟨0, _⟩ => .runSeed "sue@x".toList lampDraws ⟨2, 1, 1, 1⟩
  | ⟨1, _⟩ => .createItem ⟨⟨"brass lamp".toList, "a lamp to read by".toList, "home".toList, []⟩, none⟩ sue ⟨lampId, 0⟩
  | ⟨_ + 2, _⟩ => .createReview ⟨⟨"comfortable".toList, 8, chairId.text⟩, none, some criticId.text⟩ sue ⟨chairReviewId, 1⟩

def lampStart : Net (engine fun _ => 0) Err Unit 3 :=
  contentStart (fun _ => 0) lampRequests [storedUser sellerId "sue"] Redis.empty

def seeding : Fin 3 := ⟨0, by decide⟩

def lister : Fin 3 := ⟨1, by decide⟩

def criticism : Fin 3 := ⟨2, by decide⟩

def lampMoves : List (Move (engine fun _ => 0) 3) :=
  List.replicate 3 (.turn lister) ++ List.replicate 14 (.turn seeding) ++ List.replicate 4 (.turn criticism) ++
    List.replicate 11 (.turn seeding)

theorem content_stays_consistent_lamp : ∃ last, run lampStart lampMoves = some last ∧
    last.world.db.reviews.map (fun row => (row.id, row.relatedItem)) = [(chairReviewId, chairId), (lampReviewId, lampId)] ∧
    (∀ row ∈ last.world.db.reviews, last.world.db.HasAccount row.createdBy) ∧
    ∀ stored ∈ last.world.db.reviews, stored.id = chairReviewId → stored.createdBy = sellerId := by
  obtain ⟨last, reached, fresh, began, listed⟩ := run_exists lampStart lampMoves
    (fun net => FreshIds net ∧ insertedReviews (net.sessions criticism).log ≠ [] ∧
      net.world.db.reviews.map (fun row => (row.id, row.relatedItem)) = [(chairReviewId, chairId), (lampReviewId, lampId)])
    (by decide)
  have claim := content_stays_consistent lampRequests _ _ lampMoves last reached fresh
  exact ⟨last, reached, listed, fun row stored => (claim.2.2.2.2.1 row stored).1,
    claim.2.2.2.2.2.2.2.2.2.1 criticism _ sue ⟨chairReviewId, 1⟩ rfl began⟩

end Runs

end RateWise
