import RateWise.SiteContent

set_option autoImplicit false

namespace RateWise

open Interleave
open ReadCommitted

-- The request deletes the account with this id: the link of its email, or the
-- seeder, which begins with an empty site.
def Erases (config : SiteConfig) (request : SiteRequest) (id : Uuid) : Prop :=
  (∃ token payload, request = .deleteAccount (some token) ∧ token.Passes config.auth.accountDeletionToken payload ∧
    uuidIn payload.id = some id) ∨ request.seeder.isSome

-- The voter votes again on the review, or deletes the vote.
def Overrides (request : SiteRequest) (vote : Vote) : Prop :=
  ∃ caller reviewId, (request = .deleteVote caller reviewId ∨ ∃ action row, request = .voteReview caller reviewId action row) ∧
    uuidIn reviewId = some vote.relatedReview ∧
    ∃ req, AuthGuard.signedIn caller.session = some req ∧ uuidIn req.userId = some vote.createdBy

section Removals

variable {n : Nat} (start : Tables) (requests : Fin n → SiteRequest) (config : SiteConfig)

def Cascades (good : Tables → Prop) (request : SiteRequest) (w : Write) : Prop :=
  ∃ rows accounts, good rows ∧ w ∈ rows.removeAll accounts ∧ ∀ account ∈ accounts, Erases config request account.id

theorem seeds_cascade (good : Tables → Prop) (request : SiteRequest) (adminEmail : Text) (draws : SeedDraws)
    (options : SeedOptions) (w : Write) (asked : request.seeder = some draws) (seeded : Seeds good adminEmail draws options w)
    (deletes : Tables.Deletes w) : Cascades config good request w := by
  cases seeded with
  | cleans rows w held removed => exact ⟨rows, _, held, removed, fun _ _ => .inr (by rw [asked]; rfl)⟩
  | counts rows w held counted =>
      obtain ⟨row, -, rfl⟩ := List.mem_map.mp counted
      cases deletes
  | _ => cases deletes

theorem restates_spares (good : Tables → Prop) (refusal : Account → Option Err) (status : AccountStatus) (userId : Text)
    (w : Write) (restates : Restates good refusal status userId w) : ¬ Tables.Deletes w := by
  obtain ⟨user, -, -, -, saves⟩ := restates
  cases saves <;> exact fun deletes => deletes

-- What a request deletes is a cascade from accounts that it erases, or a vote
-- of its own user.
theorem may_delete (good : Tables → Prop) (request : SiteRequest) (w : Write) (may : May config good request w)
    (deletes : Tables.Deletes w) : Cascades config good request w ∨
      ∃ row vote, w = .deleteVote row ∧ Known good Tables.votes vote ∧ Known good Tables.votes row ∧ row.id = vote.id ∧
        Overrides request vote := by
  cases may with
  | suspends caller userId moderator w admitted restates => exact absurd deletes (restates_spares _ _ _ _ w restates)
  | reactivates caller userId moderator w admitted restates => exact absurd deletes (restates_spares _ _ _ _ w restates)
  | verifies token payload w passes restates => exact absurd deletes (restates_spares _ _ _ _ w restates)
  | replaces caller reviewId action row user review w admitted target withdraws =>
      cases withdraws with
      | deletes vote gone known owner subject stored same =>
          obtain ⟨req, signed, named⟩ := admitted.named
          exact .inr ⟨gone, vote, rfl, known, stored, same, caller, reviewId, .inr ⟨action, row, rfl⟩, subject ▸ target, req,
            signed, owner ▸ named⟩
      | uncounts vote known owner subject => cases deletes
  | retracts caller reviewId user review w admitted target withdraws =>
      cases withdraws with
      | deletes vote gone known owner subject stored same =>
          obtain ⟨req, signed, named⟩ := admitted.named
          exact .inr ⟨gone, vote, rfl, known, stored, same, caller, reviewId, .inl rfl, subject ▸ target, req, signed,
            owner ▸ named⟩
      | uncounts vote known owner subject => cases deletes
  | removes token payload user rows w passes known target held removed =>
      refine .inl ⟨rows, _, held, removal_attempts rows user.id w removed, fun account listed => .inl ⟨token, payload, rfl, passes, ?_⟩⟩
      rw [show account.id = user.id from of_decide_eq_true (List.mem_filter.mp listed).2]
      exact target
  | seeds adminEmail draws w seeded => exact .inl (seeds_cascade config good _ adminEmail draws _ w rfl seeded deletes)
  | refreshes rows w held counted =>
      obtain ⟨row, -, rfl⟩ := List.mem_map.mp counted
      cases deletes
  | bootSeeds row username email passwordHash draws w seeded =>
      exact .inl (seeds_cascade config good _ email draws _ w rfl seeded deletes)
  | _ => cases deletes

structure DistinctContent : Prop where
  items : ∀ a b, ItemFrom start requests config a → ItemFrom start requests config b → a.id = b.id → a.createdBy = b.createdBy
  reviews : ∀ a b, ReviewFrom start requests config a → ReviewFrom start requests config b → a.id = b.id → a.key = b.key
  votes : ∀ a b, VoteFrom start requests config a → VoteFrom start requests config b → a.id = b.id →
    a.createdBy = b.createdBy ∧ a.relatedReview = b.relatedReview

-- gen_random_uuid draws no id of another row. A seeder erases every row, so that
-- nothing is asked of what it draws.
def FreshContent : Prop := (∀ i, (requests i).seeder = none) → DistinctContent start requests config

def Erased (id : Uuid) : Prop := ∃ i, Erases config (requests i) id

theorem spared_unseeded (id : Uuid) (spared : ¬ Erased requests config id) (i : Fin n) : (requests i).seeder = none := by
  by_contra seeds
  exact spared ⟨i, .inr (Option.isSome_iff_ne_none.mpr seeds)⟩

def ItemErased (item : Uuid) : Prop :=
  ∃ row, ItemFrom start requests config row ∧ row.id = item ∧ Erased requests config row.createdBy

def ReviewErased (key : ReviewKey) : Prop :=
  Erased requests config key.createdBy ∨ ItemErased start requests config key.relatedItem

def VoteErased (vote : Vote) : Prop :=
  Erased requests config vote.createdBy ∨
    ∃ row, ReviewFrom start requests config row ∧ row.id = vote.relatedReview ∧ ReviewErased start requests config row.key

theorem removed_item (rows : Tables) (accounts : List Account) (gone : Item) (removed : .deleteItem gone ∈ rows.removeAll accounts) :
    gone ∈ rows.itemsOf accounts := by
  simpa [Tables.removeAll] using removed

theorem removed_review (rows : Tables) (accounts : List Account) (gone : Review)
    (removed : .deleteReview gone ∈ rows.removeAll accounts) : gone ∈ rows.reviewsOf accounts := by
  simpa [Tables.removeAll] using removed

theorem removed_vote (rows : Tables) (accounts : List Account) (gone : Vote)
    (removed : .deleteVote gone ∈ rows.removeAll accounts) : gone ∈ rows.votesOf accounts := by
  simpa [Tables.removeAll] using removed

theorem removed_owner (rows : Tables) (accounts : List Account) (gone : Account)
    (removed : .deleteAccount gone ∈ rows.removeAll accounts) : gone ∈ accounts := by
  simpa [Tables.removeAll] using removed

section Cascade

variable (i : Fin n) (rows : Tables) (accounts : List Account) (held : Traceable start requests config rows)
  (erases : ∀ account ∈ accounts, Erases config (requests i) account.id)

include held erases

theorem cascaded_item (gone : Item) (listed : gone ∈ rows.itemsOf accounts) :
    ItemFrom start requests config gone ∧ Erased requests config gone.createdBy := by
  obtain ⟨stored, owned⟩ := List.mem_filter.mp listed
  obtain ⟨account, among, own⟩ := of_decide_eq_true owned
  exact ⟨held.items gone stored, i, own ▸ erases account among⟩

theorem cascaded_review (gone : Review) (listed : gone ∈ rows.reviewsOf accounts) :
    ReviewFrom start requests config gone ∧ ReviewErased start requests config gone.key := by
  obtain ⟨stored, owned⟩ := List.mem_filter.mp listed
  refine ⟨held.reviews gone stored, ?_⟩
  rcases of_decide_eq_true owned with ⟨account, among, own⟩ | ⟨item, among, same⟩
  · refine .inl ⟨i, ?_⟩
    show Erases config (requests i) gone.createdBy
    exact own ▸ erases account among
  · obtain ⟨origin, erased⟩ := cascaded_item start requests config i rows accounts held erases item among
    exact .inr ⟨item, origin, same, erased⟩

theorem cascaded_vote (gone : Vote) (listed : gone ∈ rows.votesOf accounts) :
    VoteFrom start requests config gone ∧ VoteErased start requests config gone := by
  obtain ⟨stored, owned⟩ := List.mem_filter.mp listed
  refine ⟨held.votes gone stored, ?_⟩
  rcases of_decide_eq_true owned with ⟨account, among, own⟩ | ⟨review, among, same⟩
  · exact .inl ⟨i, own ▸ erases account among⟩
  · obtain ⟨origin, erased⟩ := cascaded_review start requests config i rows accounts held erases review among
    exact .inr ⟨review, origin, same, erased⟩

end Cascade

end Removals

section Steps

theorem uncounted_id (a b : Review) (same : a.uncounted = b.uncounted) : a.id = b.id := by
  have columns : a.uncounted.id = b.uncounted.id := by rw [same]
  exact columns

variable {n : Nat} (start : Tables) (requests : Fin n → SiteRequest) (config : SiteConfig)

theorem account_stays (fresh : FreshAccounts start requests) (row : Account) (origin : Genuine start requests (Conferred start requests config) row)
    (spared : ¬ Erased requests config row.id) (t : Tables) (w : Write) (i : Fin n) (traceable : Traceable start requests config t)
    (may : May config (Traceable start requests config) (requests i) w) (held : ∃ later ∈ t.accounts, later.unstatused = row.unstatused) :
    ∃ later ∈ (t.apply w).accounts, later.unstatused = row.unstatused := by
  obtain ⟨later, stored, same⟩ := held
  have next := traceable_apply start requests config fresh t w i traceable may
  cases w with
  | insertAccount new => exact ⟨later, List.mem_append_left _ stored, same⟩
  | deleteAccount gone =>
      refine ⟨later, List.mem_filter.mpr ⟨stored, decide_eq_true fun equal => spared ⟨i, ?_⟩⟩, same⟩
      rcases may_delete config _ _ _ may trivial with ⟨rows, accounts, -, removed, erases⟩ | ⟨_, _, impossible, -⟩
      · rw [← unstatused_id later row same, equal]
        exact erases gone (removed_owner rows accounts gone removed)
      · cases impossible
  | updateAccount id change =>
      let changed : Account := if later.id = id then change.apply later else later
      have listed : changed ∈ (t.apply (.updateAccount id change)).accounts := List.mem_map_of_mem stored
      have kept : changed.id = row.id := by
        rw [← unstatused_id later row same]
        simp only [changed]
        split <;> rfl
      exact ⟨changed, listed, same_issued start requests fresh _ changed row (next.accounts changed listed) origin kept⟩
  | _ => exact ⟨later, stored, same⟩

theorem item_stays (distinct : FreshContent start requests config) (item : Item) (origin : ItemFrom start requests config item)
    (spared : ¬ Erased requests config item.createdBy) (t : Tables) (w : Write) (i : Fin n)
    (may : May config (Traceable start requests config) (requests i) w) (stored : item ∈ t.items) : item ∈ (t.apply w).items := by
  cases w with
  | insertItem new => exact List.mem_append_left _ stored
  | deleteItem gone =>
      refine List.mem_filter.mpr ⟨stored, decide_eq_true fun equal => spared ?_⟩
      rcases may_delete config _ _ _ may trivial with ⟨rows, accounts, held, removed, erases⟩ | ⟨_, _, impossible, -⟩
      · obtain ⟨known, erased⟩ := cascaded_item start requests config i rows accounts held erases gone
          (removed_item rows accounts gone removed)
        rw [(distinct (spared_unseeded requests config _ spared)).items item gone origin known equal]
        exact erased
      · cases impossible
  | _ => exact stored

theorem review_stays (distinct : FreshContent start requests config) (row : Review) (origin : ReviewFrom start requests config row)
    (spared : ¬ ReviewErased start requests config row.key) (t : Tables) (w : Write) (i : Fin n)
    (may : May config (Traceable start requests config) (requests i) w) (held : ∃ later ∈ t.reviews, later.uncounted = row.uncounted) :
    ∃ later ∈ (t.apply w).reviews, later.uncounted = row.uncounted := by
  obtain ⟨later, stored, same⟩ := held
  cases w with
  | insertReview new => exact ⟨later, List.mem_append_left _ stored, same⟩
  | deleteReview gone =>
      refine ⟨later, List.mem_filter.mpr ⟨stored, decide_eq_true fun equal => spared ?_⟩, same⟩
      rcases may_delete config _ _ _ may trivial with ⟨rows, accounts, known, removed, erases⟩ | ⟨_, _, impossible, -⟩
      · obtain ⟨source, erased⟩ := cascaded_review start requests config i rows accounts known erases gone
          (removed_review rows accounts gone removed)
        have ids : row.id = gone.id := (uncounted_id row later same.symm).trans equal
        rw [(distinct (spared_unseeded requests config _ fun erased => spared (.inl erased))).reviews row gone origin source ids]
        exact erased
      · cases impossible
  | addVotes id action value =>
      refine ⟨_, List.mem_map_of_mem stored, Eq.trans ?_ same⟩
      cases action <;> split <;> rfl
  | setVotes id up down =>
      refine ⟨_, List.mem_map_of_mem stored, Eq.trans ?_ same⟩
      split <;> rfl
  | _ => exact ⟨later, stored, same⟩

theorem vote_stays (distinct : FreshContent start requests config) (vote : Vote) (origin : VoteFrom start requests config vote)
    (spared : ¬ VoteErased start requests config vote) (kept : ∀ i, ¬ Overrides (requests i) vote) (t : Tables) (w : Write) (i : Fin n)
    (may : May config (Traceable start requests config) (requests i) w) (stored : vote ∈ t.votes) : vote ∈ (t.apply w).votes := by
  cases w with
  | insertVote new => exact List.mem_append_left _ stored
  | deleteVote gone =>
      refine List.mem_filter.mpr ⟨stored, decide_eq_true fun equal => ?_⟩
      have distinct := distinct (spared_unseeded requests config _ fun erased => spared (.inl erased))
      rcases may_delete config _ _ _ may trivial with ⟨rows, accounts, held, removed, erases⟩ |
        ⟨row, found, same, ⟨before, good, known⟩, -, alike, overrides⟩
      · obtain ⟨source, erased⟩ := cascaded_vote start requests config i rows accounts held erases gone
          (removed_vote rows accounts gone removed)
        obtain ⟨owner, subject⟩ := distinct.votes vote gone origin source equal
        refine spared ?_
        unfold VoteErased
        rw [owner, subject]
        exact erased
      · cases same
        obtain ⟨owner, subject⟩ := distinct.votes vote found origin (good.votes found known) (equal.trans alike)
        refine kept i ?_
        unfold Overrides
        rw [owner, subject]
        exact overrides
  | _ => exact stored

end Steps

section Runs

variable {n : Nat} {hashtext : Text → Int32}

theorem rows_stay_unless_erased (hashtext : Text → Int32) (config : SiteConfig) (requests : Fin n → SiteRequest) (world : World)
    (fresh : FreshAccounts world.db requests) (distinct : FreshContent world.db requests config)
    (early late : List (SiteMove hashtext n)) (middle last : SiteNet hashtext n)
    (before : run (siteStart hashtext config requests world) early = some middle) (after : run middle late = some last) :
    (∀ row ∈ middle.world.db.accounts, (∃ later ∈ last.world.db.accounts, later = { row with status := later.status }) ∨
      Erased requests config row.id) ∧
    (∀ item ∈ middle.world.db.items, item ∈ last.world.db.items ∨ Erased requests config item.createdBy) ∧
    (∀ row ∈ middle.world.db.reviews, (∃ later ∈ last.world.db.reviews, later.uncounted = row.uncounted) ∨
      ReviewErased world.db requests config row.key) ∧
    ∀ vote ∈ middle.world.db.votes, vote ∈ last.world.db.votes ∨ VoteErased world.db requests config vote ∨
      ∃ i, Overrides (requests i) vote := by
  have traceable := site_traceable config requests world fresh early middle before
  have stays : ∀ Q : Tables → Prop, (∀ t w i, Traceable world.db requests config t →
      May config (Traceable world.db requests config) (requests i) w → Q t → Q (t.apply w)) → Q middle.world.db → Q last.world.db :=
    fun Q kept holds => site_kept config requests _ Q
      (fun t w i traceable may => traceable_apply world.db requests config fresh t w i traceable may) kept world
      (initially_traceable world.db requests config) early late middle last before holds after
  refine ⟨fun row stored => ?_, fun item stored => ?_, fun row stored => ?_, fun vote stored => ?_⟩
  · by_cases erased : Erased requests config row.id
    · exact .inr erased
    · obtain ⟨later, listed, same⟩ := stays (fun t => ∃ later ∈ t.accounts, later.unstatused = row.unstatused)
        (account_stays world.db requests config fresh row (traceable.accounts row stored) erased) ⟨row, stored, rfl⟩
      exact .inl ⟨later, listed, restated row later same.symm⟩
  · by_cases erased : Erased requests config item.createdBy
    · exact .inr erased
    · exact .inl (stays (fun t => item ∈ t.items) (fun t w i _ => item_stays world.db requests config distinct item
        (traceable.items item stored) erased t w i) stored)
  · by_cases erased : ReviewErased world.db requests config row.key
    · exact .inr erased
    · exact .inl (stays (fun t => ∃ later ∈ t.reviews, later.uncounted = row.uncounted) (fun t w i _ => review_stays world.db
        requests config distinct row (traceable.reviews row stored) erased t w i) ⟨row, stored, rfl⟩)
  · by_cases erased : VoteErased world.db requests config vote
    · exact .inr (.inl erased)
    · by_cases overridden : ∃ i, Overrides (requests i) vote
      · exact .inr (.inr overridden)
      · exact .inl (stays (fun t => vote ∈ t.votes) (fun t w i _ => vote_stays world.db requests config distinct vote
          (traceable.votes vote stored) erased (fun i overrides => overridden ⟨i, overrides⟩) t w i) stored)

theorem suspension_distinct : FreshContent staffedWorld.db suspensionRequests staffedConfig := by
  have items : ∀ a, ItemFrom staffedWorld.db suspensionRequests staffedConfig a → a.createdBy = reviewerId := by
    intro a origin
    cases origin with
    | initial item stored => cases stored
    | created i caller input row id asked author =>
        obtain ⟨_ | _, _⟩ := i
        · cases asked
        · cases asked
          obtain ⟨req, signed, named⟩ := author.named
          cases signed
          exact Option.some.inj (named.symm.trans (uuid_in_text reviewerId))
    | seeded i draws owner k asked => obtain ⟨_ | _, _⟩ := i <;> cases asked
  have reviews : ∀ a, ¬ ReviewFrom staffedWorld.db suspensionRequests staffedConfig a := by
    intro a origin
    cases origin with
    | initial before row stored same => cases stored
    | created i caller input row id item up down asked author target known foreign => obtain ⟨_ | _, _⟩ := i <;> cases asked
    | seeded i draws author item up down asked known foreign => obtain ⟨_ | _, _⟩ := i <;> cases asked
  have votes : ∀ a, ¬ VoteFrom staffedWorld.db suspensionRequests staffedConfig a := by
    intro a origin
    cases origin with
    | initial vote stored => cases stored
    | created i caller reviewId action row id review asked author target => obtain ⟨_ | _, _⟩ := i <;> cases asked
    | seeded i draws voter review asked => obtain ⟨_ | _, _⟩ := i <;> cases asked
  exact fun _ => ⟨fun a b first second _ => (items a first).trans (items b second).symm,
    fun a _ first => absurd first (reviews a), fun a _ first => absurd first (votes a)⟩

-- The item of a reviewer outlives her suspension.
theorem rows_stay_unless_erased_suspension :
    ∃ middle last, run (siteStart (fun _ => 0) staffedConfig suspensionRequests staffedWorld) (List.replicate 6 .second) = some middle ∧
      run middle (List.replicate 9 .first) = some last ∧ (∃ item ∈ middle.world.db.items, item.createdBy = reviewerId) ∧
      ∀ item ∈ middle.world.db.items, item ∈ last.world.db.items ∨ Erased suspensionRequests staffedConfig item.createdBy := by
  obtain ⟨middle, before, stored, rest⟩ := run_exists (siteStart (fun _ => 0) staffedConfig suspensionRequests staffedWorld)
    (List.replicate 6 .second) (fun net => (∃ item ∈ net.world.db.items, item.createdBy = reviewerId) ∧
      (run net (List.replicate 9 .first)).isSome) (by decide)
  obtain ⟨last, after⟩ := Option.isSome_iff_exists.mp rest
  exact ⟨middle, last, before, after, stored, (rows_stay_unless_erased (fun _ => 0) staffedConfig _ staffedWorld
    suspension_fresh suspension_distinct _ _ middle last before after).2.1⟩

end Runs

end RateWise
