import RateWise.SiteAccounts

set_option autoImplicit false

namespace RateWise

open Interleave
open ReadCommitted

def SiteRequest.seeder : SiteRequest → Option SeedDraws
  | .runSeed _ draws => some draws
  | .onModuleInit true _ _ _ _ draws => some draws
  | _ => none

def Review.uncounted (row : Review) : Review := { row with upVotes := 0, downVotes := 0 }

section Origins

variable {n : Nat} (start : Tables) (requests : Fin n → SiteRequest) (config : SiteConfig)

-- The session of the caller names an account on record that has the role, and
-- the status active was issued with it or is given by a request of the run.
structure Author (caller : Caller) (role : UserRole) (id : Uuid) : Prop where
  named : ∃ req, AuthGuard.signedIn caller.session = some req ∧ uuidIn req.userId = some id
  account : ∃ user, Genuine start requests (Conferred start requests config) user ∧ user.id = id ∧ role ∈ user.roles ∧
    user.status = .active

inductive ItemFrom : Item → Prop
  | initial (item : Item) (stored : item ∈ start.items) : ItemFrom item
  | created (i : Fin n) (caller : Caller) (input : RawItemInput) (row : Generated) (id : Uuid)
      (asked : requests i = .createItem caller input row) (author : Author start requests config caller .creator id) :
      ItemFrom ⟨row, input.title, input.description, input.category, input.tags, id⟩
  | seeded (i : Fin n) (draws : SeedDraws) (owner : Uuid) (k : Nat) (asked : (requests i).seeder = some draws) :
      ItemFrom ⟨(draws.item owner k).row, (draws.item owner k).input.title, (draws.item owner k).input.description,
        (draws.item owner k).input.category, (draws.item owner k).input.tags, owner⟩

-- A review is of an item of somebody else.
inductive ReviewFrom : Review → Prop
  | initial (before row : Review) (stored : before ∈ start.reviews) (same : before.uncounted = row.uncounted) : ReviewFrom row
  | created (i : Fin n) (caller : Caller) (input : RawReviewInput) (row : Generated) (id : Uuid) (item : Item) (up down : Int)
      (asked : requests i = .createReview caller input row) (author : Author start requests config caller .reviewer id)
      (target : uuidIn input.itemId = some item.id) (known : ItemFrom start requests config item)
      (foreign : item.createdBy ≠ id) : ReviewFrom ⟨row, input.content, input.rating, up, down, id, item.id⟩
  | seeded (i : Fin n) (draws : SeedDraws) (author : Uuid) (item : Item) (up down : Int)
      (asked : (requests i).seeder = some draws) (known : ItemFrom start requests config item)
      (foreign : item.createdBy ≠ author) : ReviewFrom ⟨(draws.review item.id author).row, (draws.review item.id author).content,
        (draws.review item.id author).rating, up, down, author, item.id⟩

inductive VoteFrom : Vote → Prop
  | initial (vote : Vote) (stored : vote ∈ start.votes) : VoteFrom vote
  | created (i : Fin n) (caller : Caller) (reviewId : Text) (action : VoteAction) (row : Generated) (id review : Uuid)
      (asked : requests i = .voteReview caller reviewId action row) (author : Author start requests config caller .reviewer id)
      (target : uuidIn reviewId = some review) : VoteFrom ⟨row, action, id, review⟩
  | seeded (i : Fin n) (draws : SeedDraws) (voter review : Uuid) (asked : (requests i).seeder = some draws) :
      VoteFrom ⟨(draws.vote review voter).row, (draws.vote review voter).action, voter, review⟩

structure Traceable (t : Tables) : Prop where
  accounts : AllGenuine start requests (Conferred start requests config) t
  items : ∀ item ∈ t.items, ItemFrom start requests config item
  reviews : ∀ row ∈ t.reviews, ReviewFrom start requests config row
  votes : ∀ vote ∈ t.votes, VoteFrom start requests config vote

theorem admitted_author (route : Route) (caller : Caller) (user : AuthenticatedUser) (role : UserRole)
    (admitted : Admitted (Traceable start requests config) route caller user)
    (roles : Reflector.getAllAndOverride route.metadata.roles = some [role])
    (statuses : Reflector.getAllAndOverride route.metadata.accountStatus = some [.active]) :
    Author start requests config caller role user.id := by
  obtain ⟨row, ⟨rows, held, stored⟩, rfl⟩ := admitted.known
  refine ⟨admitted.named, row, held.accounts row stored, rfl, ?_, ?_⟩
  · obtain ⟨required, asked, other, listed, has⟩ := admitted.role
    rw [roles, Option.some.injEq] at asked
    rw [← asked, List.mem_singleton] at listed
    exact listed ▸ has
  · obtain ⟨allowed, asked, passes⟩ := admitted.status
    rw [statuses, Option.some.injEq] at asked
    rw [← asked, List.mem_singleton, or_self] at passes
    exact passes

def Write.addsContent : Write → Bool
  | .insertItem _ => true
  | .insertReview _ => true
  | .insertVote _ => true
  | _ => false

def Originates : Write → Prop
  | .insertItem item => ItemFrom start requests config item
  | .insertReview row => ReviewFrom start requests config row
  | .insertVote vote => VoteFrom start requests config vote
  | _ => True

theorem plain_originates (w : Write) (plain : w.addsContent = false) : Originates start requests config w := by
  cases w with
  | insertItem item => cases plain
  | insertReview row => cases plain
  | insertVote vote => cases plain
  | _ => trivial

theorem restates_plain (good : Tables → Prop) (refusal : Account → Option Err) (status : AccountStatus) (userId : Text)
    (w : Write) (restates : Restates good refusal status userId w) : w.addsContent = false := by
  obtain ⟨user, -, -, -, saves⟩ := restates
  cases saves <;> rfl

theorem withdraws_plain (good : Tables → Prop) (user review : Uuid) (w : Write) (withdraws : Withdraws good user review w) :
    w.addsContent = false := by
  cases withdraws <;> rfl

theorem removal_plain (rows : Tables) (accounts : List Account) (w : Write) (removed : w ∈ rows.removeAll accounts) :
    w.addsContent = false := by
  simp only [Tables.removeAll, List.mem_append, List.mem_map] at removed
  rcases removed with ((⟨_, _, rfl⟩ | ⟨_, _, rfl⟩) | ⟨_, _, rfl⟩) | ⟨_, _, rfl⟩ <;> rfl

theorem refresh_plain (rows : Tables) (w : Write) (counted : w ∈ rows.attempts .refreshReviewVotes) : w.addsContent = false := by
  obtain ⟨row, -, rfl⟩ := List.mem_map.mp counted
  rfl

theorem seeds_originate (i : Fin n) (adminEmail : Text) (draws : SeedDraws) (options : SeedOptions) (w : Write)
    (asked : (requests i).seeder = some draws) (seeded : Seeds (Traceable start requests config) adminEmail draws options w) :
    Originates start requests config w := by
  cases seeded with
  | cleans rows w held removed => exact plain_originates _ _ _ w (removal_plain rows _ w removed)
  | users k drawn => trivial
  | items owner k known other drawn => exact .seeded i draws owner.id k asked
  | reviews item author known other listed foreign =>
      obtain ⟨rows, held, stored⟩ := listed
      exact .seeded i draws author.id item 0 0 asked (held.items item stored) foreign.symm
  | votes review voter known other listed => exact .seeded i draws voter.id review.id asked
  | counts rows w held counted => exact plain_originates _ _ _ w (refresh_plain rows w counted)

theorem may_originate (i : Fin n) (w : Write) (may : May config (Traceable start requests config) (requests i) w) :
    Originates start requests config w := by
  generalize asked : requests i = request at may
  cases may with
  | suspends caller userId moderator w admitted restates => exact plain_originates _ _ _ w (restates_plain _ _ _ _ w restates)
  | reactivates caller userId moderator w admitted restates => exact plain_originates _ _ _ w (restates_plain _ _ _ _ w restates)
  | verifies token payload w passes restates => exact plain_originates _ _ _ w (restates_plain _ _ _ _ w restates)
  | createsItem caller item row user admitted =>
      exact .created i caller item row user.id asked (admitted_author _ _ _ _ caller user .creator admitted rfl rfl)
  | createsReview caller reviewData row user item admitted known target foreign =>
      obtain ⟨rows, held, stored⟩ := known
      exact .created i caller reviewData row user.id item 0 0 asked
        (admitted_author _ _ _ _ caller user .reviewer admitted rfl rfl) target (held.items item stored) foreign
  | casts caller reviewId action row user review admitted target =>
      exact .created i caller reviewId action row user.id review asked
        (admitted_author _ _ _ _ caller user .reviewer admitted rfl rfl) target
  | replaces caller reviewId action row user review w admitted target withdraws =>
      exact plain_originates _ _ _ w (withdraws_plain _ _ _ w withdraws)
  | retracts caller reviewId user review w admitted target withdraws =>
      exact plain_originates _ _ _ w (withdraws_plain _ _ _ w withdraws)
  | removes token payload user rows w passes known target held removed =>
      exact plain_originates _ _ _ w (removal_plain rows _ w (removal_attempts rows user.id w removed))
  | seeds adminEmail draws w seeded =>
      exact seeds_originate _ _ _ i adminEmail draws SEED_RULES w (by rw [asked]; rfl) seeded
  | refreshes rows w held counted => exact plain_originates _ _ _ w (refresh_plain rows w counted)
  | bootSeeds row username email passwordHash draws w seeded =>
      exact seeds_originate _ _ _ i email draws ⟨4, 2, 5, 5⟩ w (by rw [asked]; rfl) seeded
  | _ => trivial

theorem review_from_congr (a b : Review) (same : a.uncounted = b.uncounted) (origin : ReviewFrom start requests config a) :
    ReviewFrom start requests config b := by
  have whole : b = { a.uncounted with upVotes := b.upVotes, downVotes := b.downVotes } := by
    rw [same]
    rfl
  cases origin with
  | initial before row stored equal => exact .initial before b stored (equal.trans same)
  | created i caller input row id item up down asked author target known foreign =>
      rw [whole]
      exact .created i caller input row id item b.upVotes b.downVotes asked author target known foreign
  | seeded i draws author item up down asked known foreign =>
      rw [whole]
      exact .seeded i draws author item b.upVotes b.downVotes asked known foreign

theorem review_after (t : Tables) (w : Write) (row : Review) (stored : row ∈ (t.apply w).reviews) :
    (∃ before ∈ t.reviews, before.uncounted = row.uncounted) ∨ w = .insertReview row := by
  cases w with
  | insertReview new =>
      rcases List.mem_append.mp stored with old | added
      · exact .inl ⟨row, old, rfl⟩
      · rw [List.mem_singleton.mp added]
        exact .inr rfl
  | deleteReview gone => exact .inl ⟨row, List.mem_of_mem_filter stored, rfl⟩
  | addVotes id action value =>
      obtain ⟨before, old, rfl⟩ := List.mem_map.mp stored
      exact .inl ⟨before, old, by cases action <;> split <;> rfl⟩
  | setVotes id up down =>
      obtain ⟨before, old, rfl⟩ := List.mem_map.mp stored
      exact .inl ⟨before, old, by split <;> rfl⟩
  | _ => exact .inl ⟨row, stored, rfl⟩

theorem traceable_apply (fresh : FreshAccounts start requests) (t : Tables) (w : Write) (i : Fin n)
    (traceable : Traceable start requests config t) (may : May config (Traceable start requests config) (requests i) w) :
    Traceable start requests config (t.apply w) := by
  have originates := may_originate start requests config i w may
  refine ⟨?_, fun item stored => ?_, fun row stored => ?_, fun vote stored => ?_⟩
  · exact genuine_apply start requests config _ _ (fun t held => held.accounts) fresh (conferred_congr start requests config)
      (grades_conferred start requests config _ fun t held => held.accounts) t w i traceable.accounts may
  · cases w with
    | insertItem new =>
        rcases List.mem_append.mp stored with old | added
        · exact traceable.items item old
        · rw [List.mem_singleton.mp added]
          exact originates
    | deleteItem gone => exact traceable.items item (List.mem_of_mem_filter stored)
    | _ => exact traceable.items item stored
  · rcases review_after t w row stored with ⟨before, old, same⟩ | rfl
    · exact review_from_congr _ _ _ before row same (traceable.reviews before old)
    · exact originates
  · cases w with
    | insertVote new =>
        rcases List.mem_append.mp stored with old | added
        · exact traceable.votes vote old
        · rw [List.mem_singleton.mp added]
          exact originates
    | deleteVote gone => exact traceable.votes vote (List.mem_of_mem_filter stored)
    | _ => exact traceable.votes vote stored

theorem initially_traceable : Traceable start requests config start :=
  ⟨fun row stored => ⟨⟨row, .inl stored, rfl⟩, .inl (.inl stored)⟩, .initial, fun row stored => .initial row row stored rfl, .initial⟩

end Origins

section Runs

variable {n : Nat} {hashtext : Text → Int32}

theorem site_traceable (config : SiteConfig) (requests : Fin n → SiteRequest) (world : World)
    (fresh : FreshAccounts world.db requests) (moves : List (SiteMove hashtext n)) (last : SiteNet hashtext n)
    (reached : run (siteStart hashtext config requests world) moves = some last) :
    Traceable world.db requests config last.world.db :=
  site_invariant config requests _ (fun t w i traceable may => traceable_apply world.db requests config fresh t w i traceable may)
    world (initially_traceable world.db requests config) moves last reached

theorem content_traced (hashtext : Text → Int32) (config : SiteConfig) (requests : Fin n → SiteRequest) (world : World)
    (fresh : FreshAccounts world.db requests) (moves : List (SiteMove hashtext n)) (last : SiteNet hashtext n)
    (reached : run (siteStart hashtext config requests world) moves = some last) :
    (∀ item ∈ last.world.db.items, ItemFrom world.db requests config item) ∧
    (∀ row ∈ last.world.db.reviews, ReviewFrom world.db requests config row) ∧
    ∀ vote ∈ last.world.db.votes, VoteFrom world.db requests config vote := by
  have traceable := site_traceable config requests world fresh moves last reached
  exact ⟨traceable.items, traceable.reviews, traceable.votes⟩

-- Nobody opens the account: it is not active, no moderator reactivates it, and
-- it does not wait for a verification or its links are not used.
structure Unopened (config : SiteConfig) (start : Tables) (requests : Fin n → SiteRequest) (u : Uuid) : Prop where
  inactive : ∀ row, OnRecord start requests row → row.id = u → row.status ≠ .active
  unreactivated : ∀ i caller userId, requests i = .reactivateAccount caller userId → uuidIn userId ≠ some u
  unverified : (∀ row, OnRecord start requests row → row.id = u → row.status ≠ .pendingVerification) ∨
    ∀ i token payload, requests i = .verifyAccount (some token) →
      token.Passes config.auth.accountVerificationToken payload → uuidIn payload.id ≠ some u

theorem unopened_inactive (config : SiteConfig) (start : Tables) (requests : Fin n → SiteRequest) (u : Uuid)
    (unopened : Unopened config start requests u) (row : Account)
    (genuine : Genuine start requests (Conferred start requests config) row) (named : row.id = u) : row.status ≠ .active := by
  intro active
  rcases genuine.status with issued | conferred
  · exact unopened.inactive row issued named active
  · rw [active] at conferred
    cases conferred with
    | reactivated i caller userId asked moderated target member =>
        exact unopened.unreactivated i caller userId asked (named ▸ target)
    | verified i token payload asked passes target waits =>
        rcases unopened.unverified with settled | unused
        · exact settled _ waits named rfl
        · exact unused i token payload asked passes (named ▸ target)

theorem unopened_authors_nothing (config : SiteConfig) (start : Tables) (requests : Fin n → SiteRequest) (u : Uuid)
    (unopened : Unopened config start requests u) (caller : Caller) (role : UserRole) :
    ¬ Author start requests config caller role u := by
  rintro ⟨-, user, genuine, named, -, active⟩
  exact unopened_inactive config start requests u unopened user genuine named active

theorem unopened_accounts_add_nothing (hashtext : Text → Int32) (config : SiteConfig) (requests : Fin n → SiteRequest)
    (world : World) (fresh : FreshAccounts world.db requests) (u : Uuid) (unopened : Unopened config world.db requests u)
    (moves : List (SiteMove hashtext n)) (last : SiteNet hashtext n)
    (reached : run (siteStart hashtext config requests world) moves = some last) :
    (∀ row ∈ last.world.db.accounts, row.id = u → row.status ≠ .active) ∧
    (∀ item ∈ last.world.db.items, item.createdBy = u → item ∈ world.db.items ∨
      ∃ i draws k, (requests i).seeder = some draws ∧ item.toGenerated = (draws.item u k).row) ∧
    (∀ row ∈ last.world.db.reviews, row.createdBy = u → (∃ before ∈ world.db.reviews, before.uncounted = row.uncounted) ∨
      ∃ i draws, (requests i).seeder = some draws ∧ row.toGenerated = (draws.review row.relatedItem u).row) ∧
    ∀ vote ∈ last.world.db.votes, vote.createdBy = u → vote ∈ world.db.votes ∨
      ∃ i draws, (requests i).seeder = some draws ∧ vote.toGenerated = (draws.vote vote.relatedReview u).row := by
  have traceable := site_traceable config requests world fresh moves last reached
  have nothing := unopened_authors_nothing config world.db requests u unopened
  refine ⟨fun row stored named => ?_, fun item stored own => ?_, fun row stored own => ?_, fun vote stored own => ?_⟩
  · exact unopened_inactive config world.db requests u unopened row (traceable.accounts row stored) named
  · cases traceable.items item stored with
    | initial item before => exact .inl before
    | created i caller input row id asked author => exact absurd (own ▸ author) (nothing caller .creator)
    | seeded i draws owner k asked => exact .inr ⟨i, draws, k, asked, by rw [← own]⟩
  · cases traceable.reviews row stored with
    | initial before row held same => exact .inl ⟨before, held, same⟩
    | created i caller input row id item up down asked author target known foreign =>
        exact absurd (own ▸ author) (nothing caller .reviewer)
    | seeded i draws author item up down asked known foreign => exact .inr ⟨i, draws, asked, by rw [← own]⟩
  · cases traceable.votes vote stored with
    | initial vote before => exact .inl before
    | created i caller reviewId action row id review asked author target => exact absurd (own ▸ author) (nothing caller .reviewer)
    | seeded i draws voter review asked => exact .inr ⟨i, draws, asked, by rw [← own]⟩

-- The reviewer is suspended between the guards of her request and its INSERT.
def racingMoves : List (SiteMove (fun _ => 0) 2) :=
  List.replicate 3 .second ++ List.replicate 9 .first ++ List.replicate 3 .second

theorem content_traced_race :
    ∃ last, run (siteStart (fun _ => 0) staffedConfig suspensionRequests staffedWorld) racingMoves = some last ∧
      last.world.db.items.map (fun item => item.createdBy) = [reviewerId] ∧
      ∀ item ∈ last.world.db.items, ItemFrom staffedWorld.db suspensionRequests staffedConfig item := by
  obtain ⟨last, reached, offered⟩ := run_exists (siteStart (fun _ => 0) staffedConfig suspensionRequests staffedWorld)
    racingMoves (fun net => net.world.db.items.map (fun item => item.createdBy) = [reviewerId]) (by decide)
  exact ⟨last, reached, offered,
    (content_traced (fun _ => 0) staffedConfig _ staffedWorld suspension_fresh racingMoves last reached).1⟩

def barred : Account := { reviewer with status := .suspended }

def barredWorld : World := { staffedWorld with db := ⟨[barred, chief], [], [], []⟩ }

theorem barred_initial (a : Account) (issued : OnRecord barredWorld.db suspensionRequests a) : a ∈ [barred, chief] := by
  rcases issued with stored | ⟨⟨_ | i, _⟩, drawn⟩
  · exact stored
  · cases drawn
  · cases drawn

def barredMoves : List (SiteMove (fun _ => 0) 2) := List.replicate 4 .first ++ List.replicate 3 .second

theorem unopened_accounts_add_nothing_barred :
    ∃ last, run (siteStart (fun _ => 0) staffedConfig suspensionRequests barredWorld) barredMoves = some last ∧
      (last.sessions 1).outcome = some (.error accountIsSuspended) ∧
      ∀ row ∈ last.world.db.accounts, row.id = reviewerId → row.status ≠ .active := by
  have distinct : ∀ a ∈ [barred, chief], ∀ b ∈ [barred, chief], a.id = b.id → a.unstatused = b.unstatused := by decide
  have closed : ∀ a ∈ [barred, chief], a.id = reviewerId → a.status = .suspended := by decide
  have unopened : Unopened staffedConfig barredWorld.db suspensionRequests reviewerId := by
    refine ⟨fun row issued named active => ?_, fun i caller userId asked => ?_, .inl fun row issued named pending => ?_⟩
    · rw [closed row (barred_initial row issued) named] at active
      cases active
    · obtain ⟨_ | _, _⟩ := i <;> cases asked
    · rw [closed row (barred_initial row issued) named] at pending
      cases pending
  obtain ⟨last, reached, refused⟩ := run_exists (siteStart (fun _ => 0) staffedConfig suspensionRequests barredWorld)
    barredMoves (fun net => (net.sessions 1).outcome = some (.error accountIsSuspended)) (by decide)
  exact ⟨last, reached, refused, (unopened_accounts_add_nothing (fun _ => 0) staffedConfig _ barredWorld
    (fun a b first second same => distinct a (barred_initial a first) b (barred_initial b second) same) reviewerId unopened
    barredMoves last reached).1⟩

end Runs

end RateWise
