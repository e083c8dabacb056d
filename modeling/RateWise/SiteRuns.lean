import RateWise.Obedience

set_option autoImplicit false

namespace RateWise

open Interleave
open ReadCommitted

section Contents

variable (R : RowRule schema)

theorem revoke_obeys (userId : Text) (lawful : ∀ vote, Known R.Good Tables.votes vote → uuidIn userId = some vote.createdBy →
      R.Lawful (.addVotes vote.relatedReview vote.action (-1))) :
    R.ObeysIn (VotesService.revokeUserVotesOnReviewsTx userId) := by
  refine heeds_bind (fun votes : List VoteSummary => ∀ summary ∈ votes, ∃ vote, Known R.Good Tables.votes vote ∧
    uuidIn userId = some vote.createdBy ∧ summary = ⟨vote.relatedReview, vote.action⟩) _ _ _ ?_ fun votes known => ?_
  · refine heeds_mono _ _ _ (heeds_select R (.findVotesBy userId) fun _ => rfl) ?_
    rintro found ⟨rows, good, rfl⟩ summary listed
    obtain ⟨vote, selected, rfl⟩ := List.mem_map.mp listed
    obtain ⟨stored, owner⟩ := List.mem_filter.mp selected
    exact ⟨vote, ⟨rows, good, stored⟩, (of_decide_eq_true owner).symm, rfl⟩
  · have decrements : ∀ action, R.ObeysIn (ReviewService.decrementVotesInTx
        ((votes.filter fun v => v.action = action).map fun v => v.relatedReview.text) action 1) := by
      intro action
      unfold ReviewService.decrementVotesInTx
      split
      · trivial
      · refine heeds_mono _ _ _ (heeds_sql_in R _ (add_votes_allowed R _ _ _ fun id text among parsed => ?_)) fun _ _ => trivial
        obtain ⟨summary, selected, rfl⟩ := List.mem_map.mp among
        obtain ⟨listed, counted⟩ := List.mem_filter.mp selected
        obtain ⟨vote, stored, owner, rfl⟩ := known summary listed
        rw [uuid_in_text, Option.some.injEq] at parsed
        rw [← parsed, ← of_decide_eq_true counted]
        exact lawful vote stored owner
    exact R.obeys_in_then _ _ (decrements .up) fun _ => decrements .down

theorem delete_account_obeys (userId : Text)
    (revokes : ∀ vote, Known R.Good Tables.votes vote → uuidIn userId = some vote.createdBy →
      R.Lawful (.addVotes vote.relatedReview vote.action (-1)))
    (removes : ∀ user rows w, Found R.Good userId user → R.Good rows → w ∈ rows.attempts (.removeAccount user.id) → R.Lawful w) :
    R.ObeysIn (UserDeletionService.deleteOne userId) := by
  refine R.obeys_in_then _ _ (heeds_transaction _ _ (heeds_bind (Found R.Good userId) _ _ _ ?_ fun user found => ?_)) fun _ =>
    redis_obeys R _ _ (quiet_delete _)
  · refine heeds_bind (fun _ => True) _ _ _ (valid_uuid_heeds R userId) fun _ _ => ?_
    refine heeds_bind _ _ _ _ (heeds_select R (.findAccount userId) fun _ => rfl) fun (found : Option Account) read => ?_
    obtain ⟨rows, good, answered⟩ := read
    cases found with
    | none => trivial
    | some user =>
        obtain ⟨stored, named⟩ := found_account rows userId user answered.symm
        exact ⟨⟨rows, good, stored⟩, named⟩
  · refine R.obeys_in_then _ _ (revoke_obeys R userId revokes) fun _ => ?_
    exact heeds_mono _ _ _ (heeds_sql_in R (.removeAccount user.id) fun rows good w member => removes user rows w found good member)
      fun _ _ => trivial

theorem insert_item_allowed_in (row : Generated) (title description category : Text) (tags : List Text) (user : Uuid)
    (lawful : R.Lawful (.insertItem ⟨row, title, description, category, tags, user⟩)) :
    @RowRule.AllowsIn schema Redis.commands Text R (.sql (.insertItem row title description category tags user.text)) := by
  intro rows _ w member
  obtain ⟨item, built, rfl⟩ := List.mem_map.mp member
  have parsed : itemRow row title description category tags user.text = some ⟨row, title, description, category, tags, user⟩ := by
    simp [itemRow, uuid_in_text]
  rw [parsed] at built
  rw [List.mem_singleton.mp built]
  exact lawful

theorem insert_review_allowed_in (row : Generated) (content : Text) (rating : Int) (user item : Uuid)
    (lawful : R.Lawful (.insertReview ⟨row, content, rating, 0, 0, user, item⟩)) :
    @RowRule.AllowsIn schema Redis.commands Text R (.sql (.insertReview row content rating user.text item.text)) := by
  intro rows _ w member
  obtain ⟨review, built, rfl⟩ := List.mem_map.mp member
  have parsed : reviewRow row content rating user.text item.text = some ⟨row, content, rating, 0, 0, user, item⟩ := by
    simp [reviewRow, uuid_in_text]
  rw [parsed] at built
  rw [List.mem_singleton.mp built]
  exact lawful

theorem insert_vote_allowed_in (row : Generated) (action : VoteAction) (user review : Uuid)
    (lawful : R.Lawful (.insertVote ⟨row, action, user, review⟩)) :
    @RowRule.AllowsIn schema Redis.commands Text R (.sql (.insertVote row action user.text review.text)) := by
  intro rows _ w member
  obtain ⟨vote, built, rfl⟩ := List.mem_map.mp member
  have parsed : voteRow row action user.text review.text = some ⟨row, action, user, review⟩ := by
    simp [voteRow, uuid_in_text]
  rw [parsed] at built
  rw [List.mem_singleton.mp built]
  exact lawful

theorem create_review_obeys_in (reviewData : RawReviewInput) (user : AuthenticatedUser) (row : Generated)
    (lawful : ∀ item, Known R.Good Tables.items item → uuidIn reviewData.itemId = some item.id → item.createdBy ≠ user.id →
      R.Lawful (.insertReview ⟨row, reviewData.content, reviewData.rating, 0, 0, user.id, item.id⟩)) :
    R.ObeysIn (ReviewService.createFrom reviewData user row) := by
  refine heeds_bind (fun item : Item => Known R.Good Tables.items item ∧ uuidIn reviewData.itemId = some item.id) _ _ _ ?_
    fun item found => ?_
  · unfold ItemsService.findOneByIdOrThrow
    split
    · trivial
    · refine heeds_bind _ _ _ _ (heeds_select R (.findItem reviewData.itemId) fun _ => rfl) fun (found : Option Item) read => ?_
      obtain ⟨rows, good, answered⟩ := read
      cases found with
      | none => trivial
      | some item =>
          have listed : rows.items.find? (fun row => some row.id = uuidIn reviewData.itemId) = some item := answered.symm
          have matched := List.find?_some listed
          exact ⟨⟨rows, good, List.mem_of_find?_eq_some listed⟩, (of_decide_eq_true matched).symm⟩
  · by_cases own : item.createdBy = user.id
    · simp only [own, if_true]
      trivial
    · simp only [own, if_false]
      exact heeds_catching _ _ _ (obeys_save_in R _ (insert_review_allowed_in R row _ _ user.id item.id (lawful item found.1 found.2 own)))
        fun _ => trivial

end Contents

section Seeder

variable (R : RowRule schema) (adminEmail : Text) (draws : SeedDraws) (options : SeedOptions)

theorem heeds_reject_if (met : Bool) (error : Err) : (rejectIf met error).Heeds R.AllowsIn R.Credible fun _ => True := by
  unfold rejectIf
  split <;> trivial

def Seeded (good : Tables → Prop) (adminEmail : Text) (id : Uuid) : Prop :=
  ∃ owner, Known good Tables.accounts owner ∧ owner.email ≠ adminEmail ∧ owner.id = id

theorem user_ids_heed : (SeedService.getUserIdsOrThrow adminEmail).Heeds R.AllowsIn R.Credible fun usersIds =>
    ∀ id ∈ usersIds, Seeded R.Good adminEmail id := by
  refine heeds_bind (fun usersIds : List Uuid => ∀ id ∈ usersIds, Seeded R.Good adminEmail id) _ _ _ ?_ fun usersIds known => ?_
  · refine heeds_mono _ _ _ (heeds_select R (.findAccountIdsExcept adminEmail) fun _ => rfl) ?_
    rintro usersIds ⟨rows, good, rfl⟩ id listed
    obtain ⟨owner, selected, rfl⟩ := List.mem_map.mp listed
    obtain ⟨stored, other⟩ := List.mem_filter.mp selected
    exact ⟨owner, ⟨rows, good, stored⟩, of_decide_eq_true other, rfl⟩
  · exact heeds_bind (fun _ => True) _ _ _ (heeds_reject_if R _ _) fun _ _ => known

theorem items_meta_heed : SeedService.getItemsMetaOrThrow.Heeds R.AllowsIn R.Credible fun itemsMeta =>
    ∀ listed ∈ itemsMeta, ∃ item, Known R.Good Tables.items item ∧ listed = ⟨item.id, item.createdBy⟩ := by
  refine heeds_bind (fun itemsMeta : List ItemMeta => ∀ listed ∈ itemsMeta, ∃ item, Known R.Good Tables.items item ∧
    listed = ⟨item.id, item.createdBy⟩) _ _ _ ?_ fun itemsMeta known => ?_
  · refine heeds_mono _ _ _ (heeds_select R .findItemsMeta fun _ => rfl) ?_
    rintro itemsMeta ⟨rows, good, rfl⟩ listed member
    obtain ⟨item, stored, rfl⟩ := List.mem_map.mp member
    exact ⟨item, ⟨rows, good, stored⟩, rfl⟩
  · exact heeds_bind (fun _ => True) _ _ _ (heeds_reject_if R _ _) fun _ _ => known

theorem reviews_ids_heed : SeedService.getReviewsIdsOrThrow.Heeds R.AllowsIn R.Credible fun reviewsIds =>
    ∀ id ∈ reviewsIds, ∃ review, Known R.Good Tables.reviews review ∧ review.id = id := by
  refine heeds_bind (fun reviewsIds : List Uuid => ∀ id ∈ reviewsIds, ∃ review, Known R.Good Tables.reviews review ∧
    review.id = id) _ _ _ ?_ fun reviewsIds known => ?_
  · refine heeds_mono _ _ _ (heeds_select R .findReviewIds fun _ => rfl) ?_
    rintro reviewsIds ⟨rows, good, rfl⟩ id listed
    obtain ⟨review, stored, rfl⟩ := List.mem_map.mp listed
    exact ⟨review, ⟨rows, good, stored⟩, rfl⟩
  · exact heeds_bind (fun _ => True) _ _ _ (heeds_reject_if R _ _) fun _ _ => known

theorem seed_reviews_obey (lawful : ∀ w, Seeds R.Good adminEmail draws options w → R.Lawful w) :
    R.ObeysIn (SeedService.createReviews adminEmail draws options.maxReviews) := by
  refine heeds_bind _ _ _ _ (user_ids_heed R adminEmail) fun usersIds known => ?_
  refine heeds_bind _ _ _ _ (items_meta_heed R) fun itemsMeta listed => obeys_for_each_in R _ _ fun pair selected => ?_
  have candidate := (draws.reviews.perm _).mem_iff.mp (List.mem_of_mem_take selected)
  obtain ⟨summary, among, paired⟩ := List.mem_flatMap.mp candidate
  obtain ⟨userId, other, rfl⟩ := List.mem_map.mp paired
  obtain ⟨present, foreign⟩ := List.mem_filter.mp other
  obtain ⟨item, stored, rfl⟩ := listed summary among
  obtain ⟨author, account, apart, rfl⟩ := known userId present
  exact obeys_save_in R _ (insert_review_allowed_in R _ _ _ _ _ (lawful _ (.reviews item author account apart stored
    (of_decide_eq_true foreign))))

theorem seed_votes_obey (lawful : ∀ w, Seeds R.Good adminEmail draws options w → R.Lawful w) :
    R.ObeysIn (SeedService.createVotes adminEmail draws options.maxVotes) := by
  refine heeds_bind _ _ _ _ (user_ids_heed R adminEmail) fun usersIds known => ?_
  refine heeds_bind _ _ _ _ (reviews_ids_heed R) fun reviewsIds listed => ?_
  refine R.obeys_in_then _ _ (obeys_for_each_in R _ _ fun pair selected => ?_) fun _ =>
    heeds_mono _ _ _ (heeds_sql_in R .refreshReviewVotes fun rows good w member => lawful w (.counts rows w good member))
      fun _ _ => trivial
  have candidate := (draws.votes.perm _).mem_iff.mp (List.mem_of_mem_take selected)
  obtain ⟨reviewId, among, paired⟩ := List.mem_flatMap.mp candidate
  obtain ⟨userId, present, rfl⟩ := List.mem_map.mp paired
  obtain ⟨review, stored, rfl⟩ := listed reviewId among
  obtain ⟨voter, account, apart, rfl⟩ := known userId present
  exact obeys_save_in R _ (insert_vote_allowed_in R _ _ _ _ (lawful _ (.votes review voter account apart stored)))

theorem run_seed_obeys (lawful : ∀ w, Seeds R.Good adminEmail draws options w → R.Lawful w) :
    R.ObeysIn (SeedService.runSeed adminEmail draws options) := by
  refine R.obeys_in_then _ _ (heeds_mono _ _ _ (heeds_sql_in R (.removeAccountsExcept adminEmail) fun rows good w member =>
    lawful w (.cleans rows w good member)) fun _ _ => trivial) fun _ => ?_
  refine R.obeys_in_then _ _ (obeys_for_each_in R _ _ fun i drawn => insert_account_obeys R _
    (lawful _ (.users i (List.mem_range.mp drawn)))) fun _ => ?_
  refine R.obeys_in_then _ _ (heeds_bind _ _ _ _ (user_ids_heed R adminEmail) fun usersIds known =>
    obeys_for_each_in R _ _ fun userId present => obeys_for_each_in R _ _ fun k drawn => ?_) fun _ => ?_
  · obtain ⟨owner, account, apart, rfl⟩ := known userId present
    exact obeys_save_in R _ (insert_item_allowed_in R _ _ _ _ _ _ (lawful _ (.items owner k account apart (List.mem_range.mp drawn))))
  · exact R.obeys_in_then _ _ (seed_reviews_obey R adminEmail draws options lawful) fun _ =>
      seed_votes_obey R adminEmail draws options lawful

theorem module_init_obeys (isProduction : Bool) (admin : Account)
    (boots : ∀ rows, R.Good rows → (∀ other ∈ rows.accounts, other.email ≠ admin.email) → R.Lawful (.insertAccount admin))
    (seeds : isProduction = true → ∀ w, Seeds R.Good admin.email draws ⟨4, 2, 5, 5⟩ w → R.Lawful w) :
    R.ObeysIn (AdminService.onModuleInit isProduction admin draws) := by
  refine R.obeys_in_then _ _ (heeds_bind _ _ _ _ (heeds_select R (.findAccountByEmail admin.email) fun _ => rfl)
    fun (found : Option Account) read => ?_) fun _ => ?_
  · obtain ⟨rows, good, answered⟩ := read
    cases found with
    | some existing => trivial
    | none =>
        refine insert_account_obeys R admin (boots rows good fun other stored same => ?_)
        have missed := List.find?_eq_none.mp (show rows.accounts.find? (fun row => row.email = admin.email) = none from
          answered.symm) other stored
        simp [same] at missed
  · cases isProduction with
    | false => trivial
    | true => exact run_seed_obeys R admin.email draws ⟨4, 2, 5, 5⟩ (seeds rfl)

end Seeder

theorem site_request_obeys (R : RowRule schema) (config : SiteConfig) (request : SiteRequest)
    (lawful : ∀ w, May config R.Good request w → R.Lawful w) : R.ObeysIn (request.program config) := by
  have mute : ∀ (prog : Async Unit), (prog.Quiet Mute fun _ => True) → R.ObeysIn prog := fun prog quiet => R.quiet_obeys _ prog quiet
  cases request with
  | signUp input row req => exact obeys_discard_in R _ (sign_up_obeys R input row req (lawful _ (.signsUp input row req)))
  | signIn email password req => exact mute _ (mute_then _ _ (mute_sign_in _ _ _ _ _) fun _ => trivial)
  | requestAccountVerification caller jti =>
      exact guarded_obeys R _ caller _ fun _ user _ => mute _ (mute_request_verification _ user jti)
  | requestAccountDeletion caller jti => exact guarded_obeys R _ caller _ fun _ user _ => mute _ (mute_email _ _ jti user.email)
  | requestSignOutAll email jti => exact mute _ (mute_then _ _ (mute_request_sign_out_all _ _ _) fun _ => trivial)
  | signOut caller => exact guarded_obeys R _ caller _ fun req _ _ => mute _ (mute_sign_out caller.order req)
  | signOutAll caller password destroyedFirst =>
      exact guarded_obeys R _ caller _ fun req _ _ => mute _ (mute_sign_out_all _ _ _ _ req)
  | suspendAccount caller userId =>
      exact guarded_obeys R _ caller _ fun _ moderator admitted => change_status_obeys_in R _ _ userId fun w restates =>
        lawful w (.suspends caller userId moderator w admitted restates)
  | reactivateAccount caller userId =>
      exact guarded_obeys R _ caller _ fun _ moderator admitted => change_status_obeys_in R _ _ userId fun w restates =>
        lawful w (.reactivates caller userId moderator w admitted restates)
  | createItem caller item row =>
      exact guarded_obeys R _ caller _ fun _ user admitted => heeds_catching _ _ _ (obeys_save_in R _
        (insert_item_allowed_in R row _ _ _ _ user.id (lawful _ (.createsItem caller item row user admitted)))) fun _ => trivial
  | createReview caller reviewData row =>
      exact guarded_obeys R _ caller _ fun _ user admitted => create_review_obeys_in R reviewData user row
        fun item known target foreign => lawful _ (.createsReview caller reviewData row user item admitted known target foreign)
  | voteReview caller reviewId action row =>
      refine guarded_obeys R _ caller _ fun _ user admitted => obeys_discard_in R _ (R.obeys_in_then _ _
        (vote_obeys R reviewId user.id action row ?_ ?_ ?_) fun _ => trivial)
      · exact fun review target => lawful _ (.casts caller reviewId action row user review admitted target)
      · exact fun review target => lawful _ (.counts caller reviewId action row user review admitted target)
      · exact fun review w target withdraws => lawful w (.replaces caller reviewId action row user review w admitted target withdraws)
  | deleteVote caller reviewId =>
      exact guarded_obeys R _ caller _ fun _ user admitted => obeys_discard_in R _ (delete_vote_obeys R reviewId user.id
        fun review w target withdraws => lawful w (.retracts caller reviewId user review w admitted target withdraws))
  | verifyAccount token =>
      cases token with
      | none => trivial
      | some token =>
          refine heeds_bind _ _ _ _ (verified_heeds R _ token) fun payload passes => R.obeys_in_then _ _ ?_ fun _ =>
            redis_obeys R _ _ (AccountRequest.quiet_blacklisting payload)
          exact change_status_obeys_in R _ _ payload.id fun w restates => lawful w (.verifies token payload w passes restates)
  | deleteAccount token =>
      cases token with
      | none => trivial
      | some token =>
          refine heeds_bind _ _ _ _ (verified_heeds R _ token) fun payload passes => R.obeys_in_then _ _
            (redis_obeys R _ _ (quiet_blacklist _ _)) fun _ => R.obeys_in_then _ _ (delete_account_obeys R payload.id ?_ ?_) fun _ =>
            redis_obeys R _ _ (AccountRequest.quiet_signing_out payload)
          · exact fun vote known owner => lawful _ (.revokes token payload vote passes known owner)
          · exact fun user rows w found good removed => lawful w (.removes token payload user rows w passes found.1 found.2 good removed)
  | signOutAllPublic order token =>
      cases token with
      | none => trivial
      | some token => exact mute _ (mute_then _ _ (mute_sign_out_all_public _ order token) fun _ => trivial)
  | runSeed adminEmail draws => exact run_seed_obeys R adminEmail draws _ fun w seeded => lawful w (.seeds adminEmail draws w seeded)
  | refreshReviewVotes =>
      exact heeds_mono _ _ _ (heeds_sql_in R .refreshReviewVotes fun rows good w member => lawful w (.refreshes rows w good member))
        fun _ _ => trivial
  | removedSession order sessionId => exact mute _ (mute_removed_session order sessionId)
  | onModuleInit isProduction row username email passwordHash draws =>
      refine module_init_obeys R draws isProduction _ (fun rows good absent => lawful _ (.boots isProduction row username email
        passwordHash draws rows good absent)) ?_
      rintro rfl w seeded
      exact lawful w (.bootSeeds row username email passwordHash draws w seeded)

section Runs

variable {n : Nat} {hashtext : Text → Int32}

abbrev SiteNet (hashtext : Text → Int32) (n : Nat) := Net (engine hashtext) Err Unit n

abbrev SiteMove (hashtext : Text → Int32) (n : Nat) := Move (engine hashtext) n

def siteStart (hashtext : Text → Int32) (config : SiteConfig) (requests : Fin n → SiteRequest) (world : World) :
    SiteNet hashtext n := launch world fun i => (requests i).program config

-- The law that every row change is one that a request may make.
def siteRule (config : SiteConfig) (requests : Fin n → SiteRequest) (P : Tables → Prop)
    (kept : ∀ t w i, P t → May config P (requests i) w → P (t.apply w)) : RowRule schema where
  Good := P
  Lawful w := ∃ i, May config P (requests i) w
  good_apply t w held may := by
    obtain ⟨i, allowed⟩ := may
    exact kept t w i held allowed

theorem site_upheld (config : SiteConfig) (requests : Fin n → SiteRequest) (P : Tables → Prop)
    (kept : ∀ t w i, P t → May config P (requests i) w → P (t.apply w)) (world : World) (start : P world.db)
    (moves : List (SiteMove hashtext n)) (last : SiteNet hashtext n)
    (reached : run (siteStart hashtext config requests world) moves = some last) :
    (siteRule config requests P kept).UpheldIn last :=
  (siteRule config requests P kept).run_upheld_in _ last moves ((siteRule config requests P kept).launch_upheld_in world _ start
    fun i => site_request_obeys _ config (requests i) fun _ may => ⟨i, may⟩) reached

theorem site_constraint (K : Constraints schema) (config : SiteConfig) (requests : Fin n → SiteRequest) (world : World)
    (valid : K.Valid world.db) (moves : List (SiteMove hashtext n)) (last : SiteNet hashtext n)
    (reached : run (siteStart hashtext config requests world) moves = some last) : K.Valid last.world.db :=
  (run_invariant (fun _ _ => True) (Consistent K) (fun net move next consistent _ stepped =>
    step_consistent K net next move consistent stepped) _ last moves (launch_consistent K world _ valid) (meets_trivial _ _)
    reached).world

-- What the start has and every change keeps that a request may make holds in
-- each state of the whole site, statement by statement, with faults and delays.
theorem site_invariant (config : SiteConfig) (requests : Fin n → SiteRequest) (P : Tables → Prop)
    (kept : ∀ t w i, P t → May config P (requests i) w → P (t.apply w)) (world : World) (start : P world.db)
    (moves : List (SiteMove hashtext n)) (last : SiteNet hashtext n)
    (reached : run (siteStart hashtext config requests world) moves = some last) : P last.world.db :=
  (site_upheld config requests P kept world start moves last reached).rows

theorem site_kept (config : SiteConfig) (requests : Fin n → SiteRequest) (P Q : Tables → Prop)
    (kept : ∀ t w i, P t → May config P (requests i) w → P (t.apply w))
    (stays : ∀ t w i, P t → May config P (requests i) w → Q t → Q (t.apply w)) (world : World) (start : P world.db)
    (early late : List (SiteMove hashtext n)) (middle last : SiteNet hashtext n)
    (before : run (siteStart hashtext config requests world) early = some middle) (holds : Q middle.world.db)
    (after : run middle late = some last) : Q last.world.db :=
  (siteRule config requests P kept).run_kept Q (fun t w held ⟨i, may⟩ q => stays t w i held may q) middle last late
    (site_upheld config requests P kept world start early middle before) holds after

end Runs

end RateWise
