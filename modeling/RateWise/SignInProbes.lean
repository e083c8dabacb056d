import RateWise.RowLaws
import RateWise.Seeding
import RateWise.SessionHistory
import RateWise.StatementKinds

set_option autoImplicit false

namespace RateWise

open Interleave
open ReadCommitted

-- The argon2 package: verify throws on a string that is not a hash of its own,
-- and hash returns one whatever the password and the drawn salt.
structure Argon2 where
  isHash : Text → Bool
  verifies : Text → JsString → Bool
  hash : JsString → Text → Text
  hash_is_hash : ∀ password salt, isHash (hash password salt) = true

namespace HashingService

-- The error of verify is no GqlHttpError, and its response an internal one.
def compare (argon2 : Argon2) (data : JsString) (hash : Text) : Async Bool :=
  if argon2.isHash hash then pure (argon2.verifies hash data) else reject .internalServerError

end HashingService

namespace AUTH_MESSAGES

def EMAIL_SENT_IF_EXISTS : String := "An email has been sent to your email address if it exists in our system."

end AUTH_MESSAGES

namespace Argon2

variable (argon2 : Argon2)

-- passwordsMatchOrThrow and signIn over the package as it is.
def passwordsMatchOrThrow (dbPassword : Text) (incomingPassword : JsString) : Async Unit := do
  let passwordMatch ← HashingService.compare argon2 incomingPassword dbPassword
  rejectIf (!passwordMatch) AuthService.invalidCredentials

def signIn (maxUserSessions : Nat) (email password : JsString) (req : RequestContext) : Async Account := do
  AuthService.validatePasswordConstraintsOrThrow password
  let user : Option Account ← sql (.findAccountByEmail (parameter email))
  match user with
  | none => reject AuthService.invalidCredentials
  | some user => do
      argon2.passwordsMatchOrThrow user.passwordHash password
      AuthService.checkSessionLimit maxUserSessions user.id.text
      SessionsService.create req user.id.text
      pure user

def signUp (username email : Text) (password : JsString) (salt : Text) (row : Generated) (req : RequestContext) :
    Async Account :=
  AuthService.signUp ⟨username, email, argon2.hash password salt⟩ row req

end Argon2

namespace AuthService

def sendSignOutAllEmail (signOutAllToken : TokensFeatureOptions) (user : Account) (jti : Text) : Async Unit := do
  let token ← TokensService.generate signOutAllToken (TokensService.identity user.id.text) jti
  redis (.sendEmail ⟨user.email, token⟩)

def requestSignOutAll (signOutAllToken : TokensFeatureOptions) (email : JsString) (jti : Text) : Async Unit := do
  let user : Option Account ← sql (.findAccountByEmail (parameter email))
  match user with
  | none => pure ()
  | some user => if user.status = .suspended then pure () else sendSignOutAllEmail signOutAllToken user jti

end AuthService

def AuthResolver.requestSignOutAll (signOutAllToken : TokensFeatureOptions) (email : JsString) (jti : Text) : Async String := do
  AuthService.requestSignOutAll signOutAllToken email jti
  pure AUTH_MESSAGES.EMAIL_SENT_IF_EXISTS

namespace Argon2

variable (argon2 : Argon2)

def Denied (t : Tables) (email password : JsString) : Prop :=
  ∀ user, t.answer (.findAccountByEmail (parameter email)) = some user →
    (argon2.isHash user.passwordHash && argon2.verifies user.passwordHash password) = false

-- The responses tell nothing about which accounts exist.
structure Unrevealing (hashtext : Text → Int32) (maxUserSessions : Nat) (signOutAllToken : TokensFeatureOptions)
    (world : World) : Prop where
  signIn : ∀ email password req, argon2.Denied world.db email password →
    (argon2.signIn maxUserSessions email password req).solo (engine hashtext) world none =
      (.error AuthService.invalidCredentials, world, none)
  requestSignOutAll : ∀ email jti,
    ((AuthResolver.requestSignOutAll signOutAllToken email jti).solo (engine hashtext) world none).1 =
      .ok AUTH_MESSAGES.EMAIL_SENT_IF_EXISTS

def Comparable (t : Tables) : Prop :=
  ∀ email user, t.answer (.findAccountByEmail email) = some user → argon2.isHash user.passwordHash = true

def Hashed (t : Tables) : Prop := ∀ row ∈ t.accounts, argon2.isHash row.passwordHash = true

theorem hashed_comparable (t : Tables) (hashed : argon2.Hashed t) : argon2.Comparable t :=
  fun _ user found => hashed user (List.mem_of_find?_eq_some found)

section Responses

variable {hashtext : Text → Int32}

theorem request_sign_out_all_yields (signOutAllToken : TokensFeatureOptions) (email : JsString) (jti : Text) (world : World) :
    Yields (engine hashtext) (AuthResolver.requestSignOutAll signOutAllToken email jti) world none
      fun result _ _ => result = .ok AUTH_MESSAGES.EMAIL_SENT_IF_EXISTS := by
  refine yields_bind _ _ _ _ _ (yields_bind _ _ _ _ _ (yields_sql (S := schema) (C := Redis.commands) _
    (Sql.findAccountByEmail (parameter email)) world _ (fun fault refused => ?_) fun _ => ?_))
  · cases (show world.db.refuses (.findAccountByEmail (parameter email)) = some fault from refused)
  · cases found : world.db.answer (.findAccountByEmail (parameter email)) with
    | none =>
        rw [show schema.answer world.db (.findAccountByEmail (parameter email)) = none from found]
        exact rfl
    | some user =>
        rw [show schema.answer world.db (.findAccountByEmail (parameter email)) = some user from found]
        by_cases suspended : user.status = .suspended
        · simp only [suspended, if_true]
          exact rfl
        · simp only [suspended, if_false]
          exact rfl

theorem denied_yields (maxUserSessions : Nat) (email password : JsString) (req : RequestContext) (world : World)
    (comparable : argon2.Comparable world.db) (denied : argon2.Denied world.db email password) :
    Yields (engine hashtext) (argon2.signIn maxUserSessions email password req) world none
      fun result left after => result = .error AuthService.invalidCredentials ∧ left = world ∧ after = none := by
  refine yields_bind _ _ _ _ _ (reject_if_yields _ _ world _ (fun _ => ⟨rfl, rfl, rfl⟩) fun _ => ?_)
  refine yields_bind _ _ _ _ _ (yields_sql (S := schema) (C := Redis.commands) _ (Sql.findAccountByEmail (parameter email))
    world _ (fun fault refused => ?_) fun _ => ?_)
  · cases (show world.db.refuses (.findAccountByEmail (parameter email)) = some fault from refused)
  · cases found : world.db.answer (.findAccountByEmail (parameter email)) with
    | none =>
        rw [show schema.answer world.db (.findAccountByEmail (parameter email)) = none from found]
        exact ⟨rfl, rfl, rfl⟩
    | some user =>
        rw [show schema.answer world.db (.findAccountByEmail (parameter email)) = some user from found]
        have hash := comparable _ user found
        have wrong := denied user found
        rw [hash, Bool.true_and] at wrong
        refine yields_bind _ _ _ _ _ ?_
        simp only [passwordsMatchOrThrow, HashingService.compare, hash, if_true, wrong]
        exact ⟨rfl, rfl, rfl⟩

theorem incomparable_yields (maxUserSessions : Nat) (email password : JsString) (req : RequestContext) (world : World)
    (user : Account) (found : world.db.answer (.findAccountByEmail (parameter email)) = some user)
    (plain : argon2.isHash user.passwordHash = false) (fits : lengthMatcher password AUTH_RULES.PASSWORD = true) :
    Yields (engine hashtext) (argon2.signIn maxUserSessions email password req) world none
      fun result _ _ => result = .error .internalServerError := by
  refine yields_bind _ _ _ _ _ (reject_if_yields _ _ world _ (fun short => ?_) fun _ => ?_)
  · rw [fits] at short
    cases short
  refine yields_bind _ _ _ _ _ (yields_sql (S := schema) (C := Redis.commands) _ (Sql.findAccountByEmail (parameter email))
    world _ (fun fault refused => ?_) fun _ => ?_)
  · cases (show world.db.refuses (.findAccountByEmail (parameter email)) = some fault from refused)
  · rw [show schema.answer world.db (.findAccountByEmail (parameter email)) = some user from found]
    refine yields_bind _ _ _ _ _ ?_
    simp only [passwordsMatchOrThrow, HashingService.compare, plain, Bool.false_eq_true, if_false]
    exact rfl

end Responses

def guess : JsString := Utf16.ofText "password".toList

theorem unrevealing_iff (hashtext : Text → Int32) (maxUserSessions : Nat) (signOutAllToken : TokensFeatureOptions)
    (world : World) :
    argon2.Unrevealing hashtext maxUserSessions signOutAllToken world ↔ argon2.Comparable world.db := by
  constructor
  · intro unrevealing email user found
    by_contra unequal
    have plain : argon2.isHash user.passwordHash = false := by simpa using unequal
    have sent : parameter (Utf16.ofText email) = email := Utf16.to_text_of_text email
    have denied : argon2.Denied world.db (Utf16.ofText email) guess := by
      intro other same
      rw [sent, found] at same
      cases same
      rw [plain, Bool.false_and]
    let req : RequestContext := ⟨[], []⟩
    have answered := unrevealing.signIn (Utf16.ofText email) guess req denied
    have failed : ((argon2.signIn maxUserSessions (Utf16.ofText email) guess req).solo (engine hashtext) world none).1 =
        .error .internalServerError :=
      argon2.incomparable_yields maxUserSessions _ guess req world user (by rw [sent]; exact found) plain (by decide)
    rw [answered] at failed
    cases failed
  · intro comparable
    refine ⟨fun email password req denied => ?_, fun email jti => ?_⟩
    · have answered : Yields (engine hashtext) (argon2.signIn maxUserSessions email password req) world none _ :=
        argon2.denied_yields maxUserSessions email password req world comparable denied
      exact Prod.ext answered.1 (Prod.ext answered.2.1 answered.2.2)
    · exact request_sign_out_all_yields signOutAllToken email jti world

def hashRule : RowRule schema where
  Good := argon2.Hashed
  Lawful
    | .insertAccount row => argon2.isHash row.passwordHash = true
    | .updateAccount _ change => ∀ text, change.passwordHash = some text → argon2.isHash text = true
    | _ => True
  good_apply t w hashed lawful := by
    cases w with
    | insertAccount row =>
        intro other stored
        rcases List.mem_append.mp stored with old | new
        · exact hashed other old
        · rw [List.mem_singleton.mp new]
          exact lawful
    | updateAccount id change =>
        intro other stored
        obtain ⟨row, before, rfl⟩ := List.mem_map.mp stored
        by_cases here : row.id = id
        · simp only [here, if_true, AccountChange.apply]
          cases set : change.passwordHash with
          | none => exact hashed row before
          | some text => exact lawful text set
        · simp only [here, if_false]
          exact hashed row before
    | deleteAccount row => exact fun other stored => hashed other (List.mem_of_mem_filter stored)
    | _ => exact hashed

end Argon2

-- A request; those that store no account row are together the last kind.
inductive ApiRequest where
  | signUp (username email : Text) (password : JsString) (salt : Text) (row : Generated) (req : RequestContext)
  | signIn (email password : JsString) (req : RequestContext)
  | requestSignOutAll (email : JsString) (jti : Text)
  | account (q : AccountRequest)
  | createItem (item : CreateItemInput) (user : AuthenticatedUser) (row : Generated)
  | createReview (reviewData : CreateReviewInput) (user : AuthenticatedUser) (row : Generated)
  | voteReview (reviewId : Text) (user : Uuid) (action : VoteAction) (row : Generated)
  | deleteVote (reviewId : Text) (user : Uuid)
  | runSeed (adminEmail : Text) (draws : SeedDraws)
  | onModuleInit (isProduction : Bool) (username email : Text) (password : JsString) (salt : Text) (row : Generated)
      (draws : SeedDraws)
  | other (request : Async Unit) (leaves : request.Sends (Leaves Sql.storesAccounts))

structure ApiConfig where
  auth : AuthConfig
  maxUserSessions : Nat
  signOutAllToken : TokensFeatureOptions

def adminAccount (row : Generated) (username email passwordHash : Text) : Account :=
  ⟨row, username, email, passwordHash, [.admin, .moderator, .creator, .reviewer], .active⟩

def ApiRequest.program (argon2 : Argon2) (config : ApiConfig) : ApiRequest → Async Unit
  | .signUp username email password salt row req => discard (argon2.signUp username email password salt row req)
  | .signIn email password req => discard (argon2.signIn config.maxUserSessions email password req)
  | .requestSignOutAll email jti => discard (AuthResolver.requestSignOutAll config.signOutAllToken email jti)
  | .account q => q.program config.auth
  | .createItem item user row => ItemsService.createOne item user row
  | .createReview reviewData user row => ReviewService.createOne reviewData user row
  | .voteReview reviewId user action row => discard (VotesService.voteReview reviewId user action row)
  | .deleteVote reviewId user => discard (VotesService.deleteVote reviewId user)
  | .runSeed adminEmail draws => SeedService.runSeed adminEmail draws SEED_RULES
  | .onModuleInit isProduction username email password salt row draws =>
      AdminService.onModuleInit isProduction (adminAccount row username email (argon2.hash password salt)) draws
  | .other request _ => request

-- The passwords that the seeder stores for its users are hashes.
def SeedDraws.StoresHashes (argon2 : Argon2) (draws : SeedDraws) (users : Nat) : Prop :=
  ∀ i < users, argon2.isHash (draws.user i).password = true

def ApiRequest.StoresHashes (argon2 : Argon2) : ApiRequest → Prop
  | .runSeed _ draws => draws.StoresHashes argon2 SEED_RULES.users
  | .onModuleInit true _ _ _ _ _ draws => draws.StoresHashes argon2 4
  | _ => True

section Obedience

variable (argon2 : Argon2)

theorem leaves_allowed (s : Api.Stmt) (leaves : Leaves Sql.storesAccounts s) : argon2.hashRule.Allows s := by
  cases s with
  | sql q =>
      intro rows w member
      have source := attempts_accounts rows q w member
      cases w with
      | insertAccount row =>
          rw [show q = .insertAccount row from source] at leaves
          cases leaves
      | updateAccount id change =>
          obtain ⟨target, rfl⟩ := source
          cases leaves
      | _ => trivial
  | tryLock key => trivial
  | cmd c => trivial

theorem leaves_obeys {α : Type} (prog : Async α) (leaves : prog.Sends (Leaves Sql.storesAccounts)) : argon2.hashRule.Obeys prog :=
  heeds_sends prog (sends_mono _ _ prog leaves (leaves_allowed argon2))

theorem insert_obeys (row : Account) (hash : argon2.isHash row.passwordHash = true) :
    argon2.hashRule.Obeys (transaction (sql (.insertAccount row))) := by
  refine obeys_save argon2.hashRule _ ?_
  intro rows w member
  rw [show w = .insertAccount row from List.mem_singleton.mp member]
  exact hash

theorem update_obeys (id : Uuid) (change : AccountChange)
    (hash : ∀ text, change.passwordHash = some text → argon2.isHash text = true) :
    argon2.hashRule.Obeys (transaction (sql (.updateAccount id change))) := by
  refine obeys_save argon2.hashRule _ ?_
  intro rows w member
  obtain ⟨row, -, rfl⟩ := List.mem_map.mp member
  exact hash

theorem save_obeys (user : Account) (hash : argon2.isHash user.passwordHash = true) :
    argon2.hashRule.Obeys (UsersService.saveOne user) := by
  refine heeds_catching _ _ _ (obeys_then argon2.hashRule _ _ (obeys_then argon2.hashRule _ _ (leaves_obeys argon2 _
    (plain_leaves _ _ rfl)) fun (found : Option Account) => ?_) fun _ => leaves_obeys argon2 _ (leaves_redis _ _ _
    (quiet_delete _))) fun _ => trivial
  cases found with
  | none => exact insert_obeys argon2 user hash
  | some row =>
      show argon2.hashRule.Obeys (if UsersService.changedColumns user row = .unchanged then pure () else _)
      split
      · trivial
      · refine update_obeys argon2 _ _ fun text set => ?_
        unfold UsersService.changedColumns at set
        by_cases same : user.passwordHash = row.passwordHash
        · simp [same] at set
        · simp only [same, if_false, Option.some.injEq] at set
          exact set ▸ hash

theorem change_status_obeys (refusal : Account → Option Err) (status : AccountStatus) (userId : Text) :
    argon2.hashRule.Obeys (changeStatus refusal status userId) := by
  refine heeds_bind (fun user : Account => argon2.isHash user.passwordHash = true) _ _ _ ?_ fun user hash => ?_
  · refine heeds_bind (fun found : Option Account => ∀ user, found = some user → argon2.isHash user.passwordHash = true)
      _ _ _ (heeds_bind (fun _ => True) _ _ _ ?_ fun _ _ => ?_) fun found hash => ?_
    · unfold UsersService.validUuidOrThrow
      split <;> trivial
    · refine heeds_mono _ _ _ (heeds_sql argon2.hashRule (.findAccount userId) (leaves_allowed argon2 _ rfl)) ?_
      rintro found ⟨rows, hashed, rfl⟩ user same
      exact hashed user (List.mem_of_find?_eq_some same)
    · cases found with
      | none => trivial
      | some user => exact hash user rfl
  · unfold setStatusUnless
    cases refusal user with
    | some error => trivial
    | none => exact save_obeys argon2 _ hash

theorem account_request_obeys (config : AuthConfig) (q : AccountRequest) : argon2.hashRule.Obeys (q.program config) := by
  cases q with
  | verify token =>
      refine obeys_then argon2.hashRule _ _ (leaves_obeys argon2 _ (leaves_redis _ _ _ (quiet_carries _ token))) fun payload => ?_
      refine obeys_then argon2.hashRule _ _ (change_status_obeys argon2 _ _ payload.id) fun _ => ?_
      exact leaves_obeys argon2 _ (leaves_redis _ _ _ (AccountRequest.quiet_blacklisting payload))
  | suspend userId => exact change_status_obeys argon2 _ _ userId
  | reactivate userId => exact change_status_obeys argon2 _ _ userId
  | delete token =>
      refine leaves_obeys argon2 _ (sends_bind _ _ _ (leaves_redis _ _ _ (quiet_carries _ token)) fun payload => ?_)
      refine sends_bind _ _ _ (leaves_redis _ _ _ (quiet_blacklist _ _)) fun _ => ?_
      refine sends_bind _ _ _ (leaves_accounts _ (deletion_leaves payload.id)) fun _ => ?_
      exact leaves_redis _ _ _ (AccountRequest.quiet_signing_out payload)

theorem seed_obeys (adminEmail : Text) (draws : SeedDraws) (options : SeedOptions)
    (hashes : draws.StoresHashes argon2 options.users) :
    argon2.hashRule.Obeys (SeedService.runSeed adminEmail draws options) := by
  refine obeys_then argon2.hashRule _ _ (leaves_obeys argon2 _ (plain_leaves _ _ rfl)) fun _ => ?_
  refine obeys_then argon2.hashRule _ _ (obeys_for_each argon2.hashRule _ _ fun i listed => ?_) fun _ => leaves_obeys argon2 _ ?_
  · exact insert_obeys argon2 _ (hashes i (List.mem_range.mp listed))
  have items : (SeedService.createItems adminEmail draws options.itemsPerUser).Sends (Leaves Sql.storesAccounts) := by
    refine sends_bind _ _ _ (leaves_accounts _ (user_ids_leave adminEmail)) fun usersIds => leaves_for_each _ _ _ fun userId => ?_
    exact leaves_for_each _ _ _ fun i => sends_transaction _ _ (plain_leaves _ _ rfl)
  have reviews : (SeedService.createReviews adminEmail draws options.maxReviews).Sends (Leaves Sql.storesAccounts) := by
    refine sends_bind _ _ _ (leaves_accounts _ (user_ids_leave adminEmail)) fun usersIds => ?_
    refine sends_bind _ _ _ (sends_bind _ _ _ (plain_leaves _ _ rfl) fun _ => sends_bind _ _ _ (leaves_reject_if _ _ _)
      fun _ => trivial) fun itemsMeta => ?_
    exact leaves_for_each _ _ _ fun pair => sends_transaction _ _ (plain_leaves _ _ rfl)
  exact sends_bind _ _ _ items fun _ => sends_bind _ _ _ reviews fun _ =>
    leaves_accounts _ (seed_votes_leave adminEmail draws options.maxVotes)

theorem init_obeys (isProduction : Bool) (admin : Account) (draws : SeedDraws)
    (hash : argon2.isHash admin.passwordHash = true) (hashes : isProduction = true → draws.StoresHashes argon2 4) :
    argon2.hashRule.Obeys (AdminService.onModuleInit isProduction admin draws) := by
  refine obeys_then argon2.hashRule _ _ (obeys_then argon2.hashRule _ _ (leaves_obeys argon2 _ (plain_leaves _ _ rfl))
    fun (found : Option Account) => ?_) fun _ => ?_
  · cases found with
    | none => exact insert_obeys argon2 admin hash
    | some existing => trivial
  · cases isProduction with
    | false => trivial
    | true => exact seed_obeys argon2 admin.email draws ⟨4, 2, 5, 5⟩ (hashes rfl)

theorem sign_in_leaves (maxUserSessions : Nat) (email password : JsString) (req : RequestContext) :
    (argon2.signIn maxUserSessions email password req).Sends (Leaves Sql.storesAccounts) := by
  refine sends_bind _ _ _ (leaves_reject_if _ _ _) fun _ => ?_
  refine sends_bind _ _ _ (plain_leaves _ _ rfl) fun (found : Option Account) => ?_
  cases found with
  | none => trivial
  | some user =>
      refine sends_bind _ _ _ (sends_bind _ _ _ ?_ fun _ => leaves_reject_if _ _ _) fun _ => ?_
      · unfold HashingService.compare
        split <;> trivial
      · refine sends_bind _ _ _ (sends_bind _ _ _ (leaves_redis _ _ _ (quiet_redis (.setSize _))) fun _ => leaves_reject_if _ _ _)
          fun _ => sends_bind _ _ _ (create_session_leaves _ req _) fun _ => trivial

theorem sign_out_all_leaves (signOutAllToken : TokensFeatureOptions) (email : JsString) (jti : Text) :
    (AuthResolver.requestSignOutAll signOutAllToken email jti).Sends (Leaves Sql.storesAccounts) := by
  refine sends_bind _ _ _ (sends_bind _ _ _ (plain_leaves _ _ rfl) fun (found : Option Account) => ?_) fun _ => trivial
  cases found with
  | none => trivial
  | some user =>
      show Prog.Sends (Leaves Sql.storesAccounts) (if user.status = .suspended then pure () else _)
      split
      · trivial
      · refine sends_bind _ _ _ (leaves_redis _ _ _ (quiet_generate _ _ _)) fun token => ?_
        exact leaves_redis _ _ _ (quiet_redis (.sendEmail _))

theorem request_obeys (config : ApiConfig) (request : ApiRequest) (hashes : request.StoresHashes argon2) :
    argon2.hashRule.Obeys (request.program argon2 config) := by
  cases request with
  | signUp username email password salt row req =>
      refine obeys_discard argon2.hashRule _ (obeys_then argon2.hashRule _ _ (heeds_catching _ _ _ (obeys_then argon2.hashRule _ _
        (insert_obeys argon2 _ (argon2.hash_is_hash password salt)) fun _ => trivial) fun _ => trivial) fun user => ?_)
      exact leaves_obeys argon2 _ (sends_bind _ _ _ (create_session_leaves _ req _) fun _ => trivial)
  | signIn email password req => exact obeys_discard argon2.hashRule _ (leaves_obeys argon2 _ (sign_in_leaves argon2 _ _ _ _))
  | requestSignOutAll email jti => exact obeys_discard argon2.hashRule _ (leaves_obeys argon2 _ (sign_out_all_leaves _ _ _))
  | account q => exact account_request_obeys argon2 config.auth q
  | createItem item user row =>
      exact leaves_obeys argon2 _ (sends_catching _ _ _ (sends_transaction _ _ (plain_leaves _ _ rfl)) fun _ => trivial)
  | createReview reviewData user row =>
      refine leaves_obeys argon2 _ (sends_bind _ _ _ (leaves_accounts _ (find_item_leaves _)) fun item => ?_)
      by_cases own : item.createdBy = user.id
      · simp only [own, if_true]
        trivial
      · simp only [own, if_false]
        exact sends_catching _ _ _ (sends_transaction _ _ (plain_leaves _ _ rfl)) fun _ => trivial
  | voteReview reviewId user action row => exact obeys_discard argon2.hashRule _ (leaves_obeys argon2 _ (leaves_accounts _ (vote_leaves _ _ _ _)))
  | deleteVote reviewId user => exact obeys_discard argon2.hashRule _ (leaves_obeys argon2 _ (leaves_accounts _ (delete_vote_leaves _ _)))
  | runSeed adminEmail draws => exact seed_obeys argon2 adminEmail draws SEED_RULES hashes
  | onModuleInit isProduction username email password salt row draws =>
      refine init_obeys argon2 isProduction _ draws (argon2.hash_is_hash password salt) fun production => ?_
      subst production
      exact hashes
  | other request leaves => exact leaves_obeys argon2 request leaves

end Obedience

theorem hashed_accounts_unrevealed (argon2 : Argon2) (hashtext : Text → Int32) (config : ApiConfig) {n : Nat}
    (requests : Fin n → ApiRequest) (start : World) (hashed : argon2.Hashed start.db) (moves : List (Move (engine hashtext) n))
    (last : Net (engine hashtext) Err Unit n)
    (reached : run (launch start fun i => (requests i).program argon2 config) moves = some last) :
    ((∀ i, (requests i).StoresHashes argon2) →
      argon2.Unrevealing hashtext config.maxUserSessions config.signOutAllToken last.world) ∧
    (argon2.Unrevealing hashtext config.maxUserSessions config.signOutAllToken last.world ↔
      argon2.Comparable last.world.db) := by
  refine ⟨fun stores => ?_, argon2.unrevealing_iff _ _ _ _⟩
  have initial : argon2.hashRule.UpheldIn (launch (E := engine hashtext) start fun i => (requests i).program argon2 config) :=
    argon2.hashRule.launch_upheld_in start _ hashed fun i =>
      argon2.hashRule.obeys_in _ (request_obeys argon2 config (requests i) (stores i))
  have upheld := argon2.hashRule.run_upheld_in _ last moves initial reached
  exact (argon2.unrevealing_iff _ _ _ _).mpr (argon2.hashed_comparable _ upheld.rows)

-- The encoded form of the hashes, with the password in place of the digest.
def encodedHashes : Argon2 where
  isHash text := "$argon2".toList.isPrefixOf text
  verifies text password := ('$' :: parameter password).isSuffixOf text
  hash password salt := "$argon2id$".toList ++ salt ++ '$' :: parameter password
  hash_is_hash _ _ := rfl

def bobId : Uuid := ⟨"6d5c4b3a-2918-4706-95e4-d3c2b1a09f8e".toList, by decide⟩

-- Every generated user is Bob, so that the second one is refused.
def bobDraws : SeedDraws where
  user _ := ⟨⟨bobId, 0⟩, "bob".toList, "bob@x".toList, "k7Wq2nXzP0".toList, .active⟩
  item _ _ := ⟨⟨bobId, 0⟩, ⟨[], [], [], []⟩⟩
  review _ _ := ⟨⟨bobId, 0⟩, [], 0⟩
  vote _ _ := ⟨⟨bobId, 0⟩, .up⟩
  reviews := ⟨id, fun _ => .refl _⟩
  votes := ⟨id, fun _ => .refl _⟩

def probedConfig : ApiConfig := ⟨⟨[], 1800, [], 1800⟩, 3, ⟨[], 1800, .signOutAll, ["id"]⟩⟩

def probe (email : String) (world : World) : Except Err Account :=
  ((encodedHashes.signIn 3 (Utf16.ofText email.toList) Argon2.guess ⟨[], []⟩).solo (engine fun _ => 0) world none).1

def emptyWorld : World := ⟨Tables.empty, Redis.empty⟩

def oneTurn : Move (engine fun _ => 0) 1 := .turn (Fin.last 0)

theorem hashed_accounts_unrevealed_bob : ∃ last,
    run (launch (E := engine fun _ => 0) emptyWorld fun _ : Fin 1 =>
      (ApiRequest.signUp "bob".toList "bob@x".toList Argon2.guess [] ⟨bobId, 0⟩ ⟨[], []⟩).program encodedHashes probedConfig)
      [oneTurn, oneTurn, oneTurn] = some last ∧
    encodedHashes.Unrevealing (fun _ => 0) 3 probedConfig.signOutAllToken last.world := by
  obtain ⟨last, reached⟩ := Option.isSome_iff_exists.mp (show (run (launch (E := engine fun _ => 0) emptyWorld fun _ : Fin 1 =>
    (ApiRequest.signUp "bob".toList "bob@x".toList Argon2.guess [] ⟨bobId, 0⟩ ⟨[], []⟩).program encodedHashes probedConfig)
    [oneTurn, oneTurn, oneTurn]).isSome = true from rfl)
  exact ⟨last, reached, (hashed_accounts_unrevealed encodedHashes (fun _ => 0) probedConfig _ emptyWorld
    (fun _ stored => by cases stored) _ last reached).1 fun _ => trivial⟩

-- The first user of runSeed is stored: its email and that of nobody now get
-- different answers.
theorem seeded_accounts_revealed :
    let seeded := run (launch (E := engine fun _ => 0) emptyWorld fun _ : Fin 1 =>
      (ApiRequest.runSeed "admin@x".toList bobDraws).program encodedHashes probedConfig) [oneTurn, oneTurn, oneTurn, oneTurn]
    seeded.map (fun net => probe "nobody@x" net.world) = some (.error AuthService.invalidCredentials) ∧
    seeded.map (fun net => probe "bob@x" net.world) = some (.error .internalServerError) := ⟨rfl, rfl⟩

end RateWise
