import RateWise.CachedListings
import RateWise.ContentIntegrity
import RateWise.VoteRefresh

set_option autoImplicit false

namespace RateWise

open Interleave
open ReadCommitted
open CacheQueue

def createReviewCacheKey (reviewId : Text) : Text := "cache:review:".toList ++ reviewId

-- The options with which the reviews register the pagination. JSON keeps the
-- columns of a review.
def reviewPages (postgres : Postgres) : PaginationService Review Review where
  id row := row.id
  createdAt row := row.createdAt
  serialise row := row
  createCacheKeyFunction := createReviewCacheKey
  postgres := postgres

structure ReviewFiltersArgs where
  createdBy : Option JsString
  relatedItem : Option JsString
deriving DecidableEq

-- The WHERE of filterReviews; an empty argument sets no condition.
def ReviewFiltersArgs.selects (filters : ReviewFiltersArgs) (row : Review) : Bool :=
  (filters.createdBy.all fun id => id.isEmpty || decide (uuidIn (parameter id) = some row.createdBy)) &&
  filters.relatedItem.all fun id => id.isEmpty || decide (uuidIn (parameter id) = some row.relatedItem)

def reviewRule (known : Uuid → Prop) : RowRule schema where
  Good t := ∀ key, t.HasKey key → known key.id
  Lawful
    | .insertReview row => known row.id
    | _ => True
  good_apply t w good lawful key held := by
    rw [Tables.has_key_edit] at held
    cases w with
    | insertReview row =>
        rcases held with old | rfl
        · exact good key old
        · exact lawful
    | deleteReview row => exact good key held.1
    | _ => exact good key held

section Drawing

variable (rule : RowRule schema) (others : ∀ w : Write, (∀ row, w ≠ .insertReview row) → rule.Lawful w)

include others

theorem review_rule_allows (s : Api.Stmt) (leaves : Leaves Sql.storesContent s) : rule.Allows s := by
  have allowed := content_allowed (fun _ _ => False) (fun _ _ => False) s leaves
  cases s with
  | sql q =>
      intro rows w member
      refine others w fun row same => ?_
      subst same
      exact (allowed rows _ member).1.elim
  | tryLock key => trivial
  | cmd c => trivial

theorem review_rule_obeys {α : Type} (prog : Async α) (leaves : prog.Sends (Leaves Sql.storesContent)) : rule.Obeys prog :=
  heeds_sends prog (sends_mono _ _ prog leaves (review_rule_allows rule others))

omit others in
theorem review_insert_allowed (row : Generated) (content : Text) (rating : Int) (user item : Text)
    (drawn : ∀ review : Review, review.id = row.id → rule.Lawful (.insertReview review)) :
    @RowRule.Allows schema Redis.commands Text rule (.sql (.insertReview row content rating user item)) := by
  intro rows w member
  obtain ⟨review, built, rfl⟩ := List.mem_map.mp member
  have stored : reviewRow row content rating user item = some review := Option.mem_toList.mp built
  refine drawn review ?_
  cases owner : uuidIn user <;> cases target : uuidIn item <;> simp [reviewRow, owner, target] at stored
  rw [← stored]

theorem operation_draws (op : Operation) (drawn : ∀ reviewData user row, op = .createReview reviewData user row →
    ∀ review : Review, review.id = row.id → rule.Lawful (.insertReview review)) : rule.Obeys op.program := by
  have finished : ∀ prog : Async Unit, rule.Obeys prog → rule.Obeys (Prog.bind prog fun _ => (pure true : Async Bool)) :=
    fun prog obeys => obeys_then _ _ _ obeys fun _ => trivial
  cases op with
  | createAccount row username email passwordHash =>
      refine obeys_then _ _ _ (review_rule_obeys rule others _ ?_) fun _ => trivial
      exact sends_catching _ _ _ (sends_bind _ _ _ (sends_transaction _ _ (plain_leaves _ _ rfl)) fun _ => trivial)
        fun _ => trivial
  | createItem item user row =>
      refine finished _ (heeds_catching _ _ _ (obeys_save _ _ ?_) fun _ => trivial)
      intro rows w member
      obtain ⟨stored, -, rfl⟩ := List.mem_map.mp member
      exact others _ fun row same => by cases same
  | createReview reviewData user row =>
      refine finished _ (obeys_then _ _ _ (review_rule_obeys rule others _ (leaves_content _ (find_item_leaves _)))
        fun item => ?_)
      by_cases own : item.createdBy = user.id
      · simp only [own, if_true]
        trivial
      · simp only [own, if_false]
        refine heeds_catching _ _ _ (obeys_save _ _ ?_) fun _ => trivial
        exact review_insert_allowed rule row _ _ _ _ (drawn _ _ _ rfl)
  | vote reviewId user ballot =>
      cases ballot with
      | cast action row =>
          exact review_rule_obeys rule others _ (leaves_content _ (sends_bind _ _ _ (vote_leaves _ _ _ _) fun _ => trivial))
      | retract => exact review_rule_obeys rule others _ (leaves_content _ (delete_vote_leaves _ _))
  | deleteAccount userId => exact finished _ (review_rule_obeys rule others _ (leaves_content _ (deletion_leaves userId)))
  | refreshReviewVotes => exact finished _ (review_rule_obeys rule others _ (plain_leaves _ _ rfl))

end Drawing

structure ReviewSystem where
  world : World
  copies : State Text Review
  valid : world.db.Integrity
  exact : world.db.Exact

def ReviewSystem.store (s : ReviewSystem) (postgres : Postgres) (scan : Shuffle Review) : PageStore (reviewPages postgres) where
  rows := s.world.db.reviews
  distinct := List.pairwise_map.mpr s.valid.reviewIds
  cache := s.copies.cache
  scan := scan.order
  scanned := scan.perm

section Listings

variable (hashtext : Text → Int32) (postgres : Postgres)

def ReviewService.filterReviews (s : ReviewSystem) (filters : ReviewFiltersArgs) (limit : Nat) (cursor : Option JsString)
    (scan : Shuffle Review) : Except ListFault (IPaginatedType Review Review × List (ICacheJobData Review)) := do
  ifGiven hashtext s.world filters.createdBy UsersService.findOneByIdOrThrow
  ifGiven hashtext s.world filters.relatedItem ItemsService.findOneByIdOrThrow
  (PaginationService.create (s.store postgres scan) true limit cursor (some filters.selects)).mapError .cursor

def ItemReviewsResolver.reviews (s : ReviewSystem) (item : Item) (limit : Nat) (cursor : Option JsString) (scan : Shuffle Review) :
    Except ListFault (IPaginatedType Review Review × List (ICacheJobData Review)) :=
  ReviewService.filterReviews hashtext postgres s ⟨none, some (Utf16.ofText item.id.text)⟩ limit cursor scan

inductive ReviewOperation where
  | request (op : Operation)
  | filterReviews (filters : ReviewFiltersArgs) (limit : Nat) (cursor : Option JsString) (scan : Shuffle Review)
  | reviews (item : Item) (limit : Nat) (cursor : Option JsString) (scan : Shuffle Review)
  | cacheEvent (event : Event Text)

def ReviewOperation.Draws : ReviewOperation → Uuid → Prop
  | .request (.createReview _ _ row), id => row.id = id
  | _, _ => False

namespace ReviewSystem

def listing (s : ReviewSystem)
    (listed : Except ListFault (IPaginatedType Review Review × List (ICacheJobData Review))) : ReviewSystem :=
  match listed with
  | .error _ => s
  | .ok (_, jobs) => { s with copies := s.copies.enqueue (jobs.map (reviewPages postgres).jobData) }

def after (s : ReviewSystem) : ReviewOperation → ReviewSystem
  | .request op => ⟨(serve hashtext op s.world).2, s.copies, (serially_exact hashtext [op] s.world s.valid s.exact).1,
      (serially_exact hashtext [op] s.world s.valid s.exact).2⟩
  | .filterReviews filters limit cursor scan =>
      s.listing postgres (ReviewService.filterReviews hashtext postgres s filters limit cursor scan)
  | .reviews item limit cursor scan =>
      s.listing postgres (ItemReviewsResolver.reviews hashtext postgres s item limit cursor scan)
  | .cacheEvent event => { s with copies := s.copies.on event }

def run (s : ReviewSystem) (ops : List ReviewOperation) : ReviewSystem := ops.foldl (after hashtext postgres) s

-- A change of the number of votes on a review that stays finds no copy of it.
def Clear (s : ReviewSystem) : ReviewOperation → Prop
  | .request op => ∀ row ∈ (serve hashtext op s.world).2.db.reviews, ∀ action,
      (serve hashtext op s.world).2.db.countVotes row.id action ≠ s.world.db.countVotes row.id action →
        s.copies.Holds fun key _ => key ≠ createReviewCacheKey row.id.text
  | _ => True

def Shows (seen : Uuid → Prop) (t : Tables) (key : Text) (value : Review) : Prop :=
  ∃ id, seen id ∧ key = createReviewCacheKey id.text ∧
    ∀ row ∈ t.reviews, row.id = id → value.id = id ∧ ∀ action, value.votes action = t.countVotes id action

-- Every node of a page is a stored review with the numbers of its votes.
def Current (t : Tables) (page : IPaginatedType Review Review) : Prop :=
  ∀ node ∈ page.nodes, ∃ shown, node.map (reviewPages postgres).json = some shown ∧
    ∃ row ∈ t.reviews, shown.id = row.id ∧ ∀ action, shown.votes action = t.countVotes row.id action

theorem served_reviews (op : Operation) (world : World) (row : Review) (left : row ∈ (serve hashtext op world).2.db.reviews) :
    world.db.HasReview row.id ∨ (ReviewOperation.request op).Draws row.id := by
  let known : Uuid → Prop := fun id => world.db.HasReview id ∨ (ReviewOperation.request op).Draws id
  have good : (reviewRule known).Good (serve hashtext op world).2.db := by
    refine (reviewRule known).solo_good op.program world none ?_ (fun w none => by cases none) (operation_draws _ ?_ op ?_)
    · rintro key ⟨before, stored, rfl⟩
      exact .inl ⟨before, stored, rfl⟩
    · intro w other
      cases w with
      | insertReview row => exact absurd rfl (other row)
      | _ => trivial
    · rintro reviewData user drawn rfl review same
      exact .inr same.symm
  exact good row.key ⟨row, left, rfl⟩

theorem review_key_injective (a b : Uuid) (same : createReviewCacheKey a.text = createReviewCacheKey b.text) : a = b :=
  uuid_text_injective (List.append_cancel_left same)

theorem enqueued_shows (s : ReviewSystem) (seen : Uuid → Prop) (present : ∀ row ∈ s.world.db.reviews, seen row.id)
    (holds : s.copies.Holds (Shows seen s.world.db)) (jobs : List (ICacheJobData Review))
    (stored : ∀ job ∈ jobs, job.value ∈ s.world.db.reviews ∧ job.key = createReviewCacheKey job.value.id.text) :
    (s.copies.enqueue (jobs.map (reviewPages postgres).jobData)).Holds (Shows seen s.world.db) := by
  refine s.copies.holds_enqueue _ _ holds fun job member => ?_
  obtain ⟨queued, asked, rfl⟩ := List.mem_map.mp member
  obtain ⟨inTable, keyed⟩ := stored queued asked
  refine ⟨queued.value.id, present _ inTable, keyed, fun row listed same => ⟨rfl, fun action => ?_⟩⟩
  have mine : row = queued.value :=
    Tables.pairwise_eq _ _ (fun _ _ => Ne.symm) s.valid.reviewIds row queued.value listed inTable fun apart => apart same
  show queued.value.votes action = s.world.db.countVotes queued.value.id action
  rw [← mine]
  exact s.exact row listed action

theorem listing_current (s : ReviewSystem) (seen : Uuid → Prop) (holds : s.copies.Holds (Shows seen s.world.db))
    (filters : ReviewFiltersArgs) (limit : Nat) (cursor : Option JsString) (scan : Shuffle Review)
    (page : IPaginatedType Review Review) (jobs : List (ICacheJobData Review))
    (listed : ReviewService.filterReviews hashtext postgres s filters limit cursor scan = .ok (page, jobs)) :
    Current postgres s.world.db page ∧
      ∀ job ∈ jobs, job.value ∈ s.world.db.reviews ∧ job.key = createReviewCacheKey job.value.id.text := by
  have created := listed_without_fault _ _ (checked _ _ _ (checked _ _ _ listed))
  obtain ⟨nodes, queued⟩ := PaginationService.cached_page _ limit cursor _ page jobs created
  refine ⟨fun node member => ?_, queued⟩
  obtain ⟨row, stored, rfl⟩ := nodes node member
  unfold PaginationService.served
  cases cached : (s.store postgres scan).cache ((reviewPages postgres).createCacheKeyFunction ((reviewPages postgres).id row).text) with
  | none => exact ⟨row, rfl, row, stored, rfl, s.exact row stored⟩
  | some value =>
      obtain ⟨id, -, same, shows⟩ := holds.1 _ value cached
      have mine : row.id = id := review_key_injective _ _ same
      obtain ⟨named, counts⟩ := shows row stored mine
      rw [← mine] at named counts
      exact ⟨value, rfl, row, stored, named, counts⟩

theorem listing_shows (s : ReviewSystem) (seen : Uuid → Prop) (present : ∀ row ∈ s.world.db.reviews, seen row.id)
    (holds : s.copies.Holds (Shows seen s.world.db)) (filters : ReviewFiltersArgs) (limit : Nat) (cursor : Option JsString)
    (scan : Shuffle Review) :
    (s.listing postgres (ReviewService.filterReviews hashtext postgres s filters limit cursor scan)).copies.Holds
      (Shows seen s.world.db) ∧
    (s.listing postgres (ReviewService.filterReviews hashtext postgres s filters limit cursor scan)).world = s.world := by
  unfold listing
  cases listed : ReviewService.filterReviews hashtext postgres s filters limit cursor scan with
  | error fault => exact ⟨holds, rfl⟩
  | ok pair =>
      obtain ⟨page, jobs⟩ := pair
      have stored := (s.listing_current hashtext postgres seen holds filters limit cursor scan page jobs listed).2
      exact ⟨s.enqueued_shows postgres seen present holds jobs stored, rfl⟩

theorem after_shows (s : ReviewSystem) (op : ReviewOperation) (seen : Uuid → Prop)
    (present : ∀ row ∈ s.world.db.reviews, seen row.id) (new : ∀ id, op.Draws id → ¬ seen id) (clear : s.Clear hashtext op)
    (holds : s.copies.Holds (Shows seen s.world.db)) :
    (s.after hashtext postgres op).copies.Holds
      (Shows (fun id => seen id ∨ op.Draws id) (s.after hashtext postgres op).world.db) ∧
    ∀ row ∈ (s.after hashtext postgres op).world.db.reviews, seen row.id ∨ op.Draws row.id := by
  have wider : ∀ copies : State Text Review, copies.Holds (Shows seen s.world.db) →
      copies.Holds (Shows (fun id => seen id ∨ op.Draws id) s.world.db) := by
    intro copies held
    refine copies.holds_mono _ _ held ?_
    rintro key value ⟨id, known, rest⟩
    exact ⟨id, .inl known, rest⟩
  cases op with
  | request op =>
      constructor
      · have uncopied : s.copies.Holds fun key _ => ∀ row ∈ (serve hashtext op s.world).2.db.reviews, ∀ action,
            (serve hashtext op s.world).2.db.countVotes row.id action ≠ s.world.db.countVotes row.id action →
              key ≠ createReviewCacheKey row.id.text := by
          constructor
          · exact fun key value cached row left action changed => (clear row left action changed).1 key value cached
          · exact fun job queued row left action changed => (clear row left action changed).2 job queued
        refine s.copies.holds_mono _ _ (s.copies.holds_and _ _ holds uncopied) ?_
        rintro key value ⟨⟨id, known, rfl, shows⟩, unchanged⟩
        refine ⟨id, .inl known, rfl, ?_⟩
        rintro row left rfl
        rcases served_reviews hashtext op s.world row left with ⟨before, stored, same⟩ | drawn
        · obtain ⟨named, counts⟩ := shows before stored same
          refine ⟨named, fun action => (counts action).trans ?_⟩
          by_contra differs
          exact unchanged row left action (fun same => differs (congrArg Nat.cast same.symm)) rfl
        · exact absurd known (new _ drawn)
      · intro row left
        rcases served_reviews hashtext op s.world row left with ⟨before, stored, same⟩ | drawn
        · exact .inl (same ▸ present before stored)
        · exact .inr drawn
  | filterReviews filters limit cursor scan =>
      obtain ⟨kept, same⟩ := s.listing_shows hashtext postgres seen present holds filters limit cursor scan
      refine ⟨?_, fun row stored => .inl (present row (same ▸ stored))⟩
      simp only [after, same]
      exact wider _ kept
  | reviews item limit cursor scan =>
      obtain ⟨kept, same⟩ := s.listing_shows hashtext postgres seen present holds ⟨none, some (Utf16.ofText item.id.text)⟩
        limit cursor scan
      refine ⟨?_, fun row stored => .inl (present row (same ▸ stored))⟩
      simp only [after, ItemReviewsResolver.reviews, same]
      exact wider _ kept
  | cacheEvent event => exact ⟨wider _ (s.copies.holds_on _ event holds), fun row stored => .inl (present row stored)⟩

-- gen_random_uuid draws no id twice, and none of a review that is there.
structure FreshReviews (s : ReviewSystem) (ops : List ReviewOperation) : Prop where
  apart : ops.Pairwise fun a b => ∀ id, ¬ (a.Draws id ∧ b.Draws id)
  new : ∀ op ∈ ops, ∀ id, op.Draws id → ¬ s.world.db.HasReview id

theorem run_shows (s : ReviewSystem) (ops : List ReviewOperation) (seen : Uuid → Prop)
    (present : ∀ row ∈ s.world.db.reviews, seen row.id) (apart : ops.Pairwise fun a b => ∀ id, ¬ (a.Draws id ∧ b.Draws id))
    (new : ∀ op ∈ ops, ∀ id, op.Draws id → ¬ seen id) (holds : s.copies.Holds (Shows seen s.world.db))
    (clear : ∀ early op late, ops = early ++ op :: late → (s.run hashtext postgres early).Clear hashtext op) :
    ∃ known, (s.run hashtext postgres ops).copies.Holds (Shows known (s.run hashtext postgres ops).world.db) := by
  induction ops generalizing s seen with
  | nil => exact ⟨seen, holds⟩
  | cons op rest ih =>
      obtain ⟨first, others⟩ := List.pairwise_cons.mp apart
      obtain ⟨kept, known⟩ := s.after_shows hashtext postgres op seen present (new op (by simp)) (clear [] op rest rfl) holds
      refine ih (s.after hashtext postgres op) _ known others ?_ kept ?_
      · rintro other later id drawn (old | again)
        · exact new other (by simp [later]) id drawn old
        · exact first other later id ⟨again, drawn⟩
      · rintro early next late rfl
        exact clear (op :: early) next late rfl

theorem listings_show_votes (s : ReviewSystem) (uncached : s.copies = .empty) (ops : List ReviewOperation)
    (fresh : s.FreshReviews ops)
    (clear : ∀ early op late, ops = early ++ op :: late → (s.run hashtext postgres early).Clear hashtext op) :
    (∀ filters limit cursor scan page jobs,
      ReviewService.filterReviews hashtext postgres (s.run hashtext postgres ops) filters limit cursor scan = .ok (page, jobs) →
        Current postgres (s.run hashtext postgres ops).world.db page) ∧
    ∀ item limit cursor scan page jobs,
      ItemReviewsResolver.reviews hashtext postgres (s.run hashtext postgres ops) item limit cursor scan = .ok (page, jobs) →
        Current postgres (s.run hashtext postgres ops).world.db page := by
  have empty : s.copies.Holds (Shows s.world.db.HasReview s.world.db) := by
    rw [uncached]
    exact State.holds_empty _
  obtain ⟨known, holds⟩ := s.run_shows hashtext postgres ops s.world.db.HasReview (fun row stored => ⟨row, stored, rfl⟩)
    fresh.apart fresh.new empty clear
  refine ⟨fun filters limit cursor scan page jobs listed => ?_, fun item limit cursor scan page jobs listed => ?_⟩
  · exact (listing_current hashtext postgres _ known holds filters limit cursor scan page jobs listed).1
  · exact (listing_current hashtext postgres _ known holds _ limit cursor scan page jobs listed).1

end ReviewSystem

end Listings

def inTableOrder : Shuffle Review := ⟨fun rows => rows, fun _ => .rfl⟩

def lampAccounts : ReviewSystem where
  world := ⟨{ Tables.empty with accounts := [storedUser sellerId "sue", storedUser criticId "cy"] }, Redis.empty⟩
  copies := .empty
  valid := ⟨.nil, .nil, .nil, fun v stored => by cases stored⟩
  exact := fun row stored => by cases stored

def lampInput : CreateItemInput := ⟨"brass lamp".toList, "a lamp to read by".toList, "home".toList, []⟩

def brightEnough : CreateReviewInput := ⟨"bright enough".toList, 7, lampId.text⟩

def upVote : Operation := .vote lampReviewId.text sellerId (.cast .up ⟨PaginationService.voteNamed 'e' (by decide), 2⟩)

-- The critic reviews the lamp, the seller votes, the reviews are listed.
def votedBeforeListing : List ReviewOperation :=
  [.request (.createItem lampInput (signedIn sellerId "sue") ⟨lampId, 0⟩),
    .request (.createReview brightEnough (signedIn criticId "cy") ⟨lampReviewId, 1⟩), .request upVote,
    .filterReviews ⟨none, none⟩ 10 none inTableOrder, .cacheEvent .take,
    .cacheEvent (.save 0), .cacheEvent (.settle 0)]

theorem listings_show_votes_lamp :
    let last := lampAccounts.run (fun _ => 0) PaginationService.twoInstants votedBeforeListing
    ∃ page jobs, ReviewService.filterReviews (fun _ => 0) PaginationService.twoInstants last ⟨none, none⟩ 10 none inTableOrder =
        .ok (page, jobs) ∧ page.nodes.length = 1 ∧
      ReviewSystem.Current PaginationService.twoInstants last.world.db page := by
  intro last
  have fresh : lampAccounts.FreshReviews votedBeforeListing := by
    refine ⟨?_, fun op member id drawn none => by obtain ⟨row, stored, -⟩ := none; cases stored⟩
    refine .cons (fun _ _ id both => both.1) (.cons (fun op later id both => ?_) (.cons (fun _ _ id both => both.1)
      (.cons (fun _ _ id both => both.1) (.cons (fun _ _ id both => both.1) (.cons (fun _ _ id both => both.1)
      (.cons (fun _ _ id both => both.1) .nil))))))
    simp only [List.mem_cons, List.not_mem_nil, or_false] at later
    rcases later with rfl | rfl | rfl | rfl | rfl <;> exact both.2
  have clear : ∀ early op late, votedBeforeListing = early ++ op :: late →
      (lampAccounts.run (fun _ => 0) PaginationService.twoInstants early).Clear (fun _ => 0) op := by
    intro early op late split
    cases op with
    | request op =>
        have uncopied : (lampAccounts.run (fun _ => 0) PaginationService.twoInstants early).copies = .empty := by
          rcases early with _ | ⟨a, _ | ⟨b, _ | ⟨c, _ | ⟨d, _ | ⟨e, _ | ⟨f, _ | ⟨g, rest⟩⟩⟩⟩⟩⟩⟩ <;> simp [votedBeforeListing] at split
          · rfl
          · rw [← split.1]
            rfl
          · rw [← split.1, ← split.2.1]
            rfl
        intro row left action changed
        rw [uncopied]
        exact State.holds_empty _
    | _ => trivial
  have claim := (ReviewSystem.listings_show_votes (fun _ => 0) PaginationService.twoInstants lampAccounts rfl votedBeforeListing
    fresh clear).1 ⟨none, none⟩ 10 none inTableOrder
  have single : (ReviewService.filterReviews (fun _ => 0) PaginationService.twoInstants last ⟨none, none⟩ 10 none
    inTableOrder).toOption.map (fun listed => listed.1.nodes.length) = some 1 := by decide
  cases listed : ReviewService.filterReviews (fun _ => 0) PaginationService.twoInstants last ⟨none, none⟩ 10 none inTableOrder with
  | error fault =>
      rw [listed] at single
      cases single
  | ok pair =>
      obtain ⟨page, jobs⟩ := pair
      rw [listed] at single
      exact ⟨page, jobs, rfl, Option.some.inj single, claim page jobs listed⟩

-- The critic reviews the lamp, the reviews are listed and cached, the seller
-- votes.
def votedAfterListing : List ReviewOperation :=
  [.request (.createItem lampInput (signedIn sellerId "sue") ⟨lampId, 0⟩),
    .request (.createReview brightEnough (signedIn criticId "cy") ⟨lampReviewId, 1⟩),
    .filterReviews ⟨none, none⟩ 10 none inTableOrder, .cacheEvent .take,
    .cacheEvent (.save 0), .cacheEvent (.settle 0), .request upVote]

def shownUpVotes (s : ReviewSystem) : Option (List (Option Int)) :=
  (ReviewService.filterReviews (fun _ => 0) PaginationService.twoInstants s ⟨none, none⟩ 10 none inTableOrder).toOption.map
    fun listed => listed.1.nodes.map fun node => node.map fun n =>
      ((reviewPages PaginationService.twoInstants).json n).upVotes

-- The next listing shows the review without the vote.
theorem listing_misses_vote :
    let last := lampAccounts.run (fun _ => 0) PaginationService.twoInstants votedAfterListing
    shownUpVotes last = some [some 0] ∧ last.world.db.countVotes lampReviewId .up = 1 ∧ last.copies.jobs.length = 0 := by
  decide

end RateWise
