import RateWise.SiteRuns

set_option autoImplicit false

namespace RateWise

open Interleave
open ReadCommitted

def Account.unstatused (row : Account) : Account := { row with status := .active }

def Privileged (row : Account) : Prop := .admin ∈ row.roles ∨ .moderator ∈ row.roles

namespace SiteRequest

inductive Draws : SiteRequest → Account → Prop
  | signUp (input : SignUpInput) (row : Generated) (req : RequestContext) : Draws (.signUp input row req) (newAccount input row)
  | seed (adminEmail : Text) (draws : SeedDraws) (i : Nat) :
      Draws (.runSeed adminEmail draws) (UserDataGenerator.user (draws.user i))
  | admin (isProduction : Bool) (row : Generated) (username email passwordHash : Text) (draws : SeedDraws) :
      Draws (.onModuleInit isProduction row username email passwordHash draws) (adminAccount row username email passwordHash)
  | bootSeed (isProduction : Bool) (row : Generated) (username email passwordHash : Text) (draws : SeedDraws) (i : Nat) :
      Draws (.onModuleInit isProduction row username email passwordHash draws) (UserDataGenerator.user (draws.user i))

end SiteRequest

inductive Grades (config : SiteConfig) (good : Tables → Prop) : SiteRequest → Account → AccountStatus → Prop
  | suspends (caller : Caller) (userId : Text) (moderator : AuthenticatedUser) (user : Account)
      (admitted : Admitted good .suspendAccount caller moderator) (target : uuidIn userId = some user.id)
      (passed : ModerationService.suspensionRefusal user = none) : Grades config good (.suspendAccount caller userId) user .suspended
  | reactivates (caller : Caller) (userId : Text) (moderator : AuthenticatedUser) (user : Account)
      (admitted : Admitted good .reactivateAccount caller moderator) (target : uuidIn userId = some user.id)
      (passed : ModerationService.reactivationRefusal user = none) : Grades config good (.reactivateAccount caller userId) user .active
  | verifies (token : Token) (payload : JwtPayload) (user : Account)
      (passes : token.Passes config.auth.accountVerificationToken payload) (target : uuidIn payload.id = some user.id)
      (passed : AuthService.verificationRefusal user = none) : Grades config good (.verifyAccount (some token)) user .active

inductive AccountWrite (config : SiteConfig) (good : Tables → Prop) (request : SiteRequest) : Write → Prop
  | draws (row : Account) (drawn : request.Draws row) : AccountWrite config good request (.insertAccount row)
  | grades (user : Account) (status : AccountStatus) (w : Write) (known : Known good Tables.accounts user)
      (grades : Grades config good request user status) (saves : Saves good { user with status := status } w) :
      AccountWrite config good request w
  | other (w : Write) (adds : ∀ t : Tables, (t.apply w).accounts ⊆ t.accounts) : AccountWrite config good request w

section Writes

theorem removal_shrinks (rows : Tables) (accounts : List Account) (w : Write) (removed : w ∈ rows.removeAll accounts)
    (t : Tables) : (t.apply w).accounts ⊆ t.accounts := by
  simp only [Tables.removeAll, List.mem_append, List.mem_map] at removed
  rcases removed with ((⟨_, _, rfl⟩ | ⟨_, _, rfl⟩) | ⟨_, _, rfl⟩) | ⟨_, _, rfl⟩
  · exact List.Subset.refl _
  · exact List.Subset.refl _
  · exact List.Subset.refl _
  · exact List.filter_subset_self _

theorem removal_attempts (rows : Tables) (id : Uuid) (w : Write) (removed : w ∈ rows.attempts (.removeAccount id)) :
    w ∈ rows.removeAll (rows.accounts.filter fun row => row.id = id) := by
  rcases rows.attempts_removal id with nothing | all
  · rw [nothing] at removed
    cases removed
  · rw [all] at removed
    exact removed

theorem seeds_accounts (config : SiteConfig) (good : Tables → Prop) (request : SiteRequest) (adminEmail : Text)
    (draws : SeedDraws) (options : SeedOptions) (w : Write)
    (users : ∀ i, request.Draws (UserDataGenerator.user (draws.user i))) (seeded : Seeds good adminEmail draws options w) :
    AccountWrite config good request w := by
  cases seeded with
  | cleans rows w held removed => exact .other _ (removal_shrinks rows _ _ removed)
  | users i drawn => exact .draws _ (users i)
  | counts rows w held counted =>
      obtain ⟨row, -, rfl⟩ := List.mem_map.mp counted
      exact .other _ fun t => List.Subset.refl _
  | _ => exact .other _ fun t => List.Subset.refl _

theorem may_accounts (config : SiteConfig) (good : Tables → Prop) (request : SiteRequest) (w : Write)
    (may : May config good request w) : AccountWrite config good request w := by
  cases may with
  | signsUp input row req => exact .draws _ (.signUp input row req)
  | suspends caller userId moderator w admitted restates =>
      obtain ⟨user, known, target, passed, saves⟩ := restates
      exact .grades user _ w known (.suspends caller userId moderator user admitted target passed) saves
  | reactivates caller userId moderator w admitted restates =>
      obtain ⟨user, known, target, passed, saves⟩ := restates
      exact .grades user _ w known (.reactivates caller userId moderator user admitted target passed) saves
  | verifies token payload w passes restates =>
      obtain ⟨user, known, target, passed, saves⟩ := restates
      exact .grades user _ w known (.verifies token payload user passes target passed) saves
  | replaces caller reviewId action row user review w admitted target withdraws =>
      cases withdraws <;> exact .other _ fun t => List.Subset.refl _
  | retracts caller reviewId user review w admitted target withdraws =>
      cases withdraws <;> exact .other _ fun t => List.Subset.refl _
  | removes token payload user rows w passes known target held removed =>
      exact .other w (removal_shrinks rows _ w (removal_attempts rows user.id w removed))
  | seeds adminEmail draws w seeded => exact seeds_accounts config good _ adminEmail draws _ w (fun i => .seed _ _ i) seeded
  | refreshes rows w held counted =>
      obtain ⟨row, -, rfl⟩ := List.mem_map.mp counted
      exact .other _ fun t => List.Subset.refl _
  | boots isProduction row username email passwordHash draws rows held absent => exact .draws _ (.admin ..)
  | bootSeeds row username email passwordHash draws w seeded =>
      exact seeds_accounts config good _ email draws _ w (fun i => .bootSeed _ _ _ _ _ _ i) seeded
  | _ => exact .other _ fun t => List.Subset.refl _

theorem changed_columns_apply (entity row target : Account) (same : entity.unstatused = row.unstatused) :
    (UsersService.changedColumns entity row).apply target =
      { target with status := if entity.status = row.status then target.status else entity.status } := by
  have username : entity.username = row.username := by
    have columns : entity.unstatused.username = row.unstatused.username := by rw [same]
    exact columns
  have email : entity.email = row.email := by
    have columns : entity.unstatused.email = row.unstatused.email := by rw [same]
    exact columns
  have password : entity.passwordHash = row.passwordHash := by
    have columns : entity.unstatused.passwordHash = row.unstatused.passwordHash := by rw [same]
    exact columns
  have roles : entity.roles = row.roles := by
    have columns : entity.unstatused.roles = row.unstatused.roles := by rw [same]
    exact columns
  by_cases status : entity.status = row.status
  · simp [UsersService.changedColumns, AccountChange.apply, username, email, password, roles, status]
  · simp [UsersService.changedColumns, AccountChange.apply, username, email, password, roles, status]

theorem unstatused_id (a b : Account) (same : a.unstatused = b.unstatused) : a.id = b.id := by
  have columns : a.unstatused.id = b.unstatused.id := by rw [same]
  exact columns

theorem unstatused_roles (a b : Account) (same : a.unstatused = b.unstatused) : a.roles = b.roles := by
  have columns : a.unstatused.roles = b.unstatused.roles := by rw [same]
  exact columns

theorem unstatused_email (a b : Account) (same : a.unstatused = b.unstatused) : a.email = b.email := by
  have equal := congrArg Account.email same
  exact equal

theorem unstatused_hash (a b : Account) (same : a.unstatused = b.unstatused) : a.passwordHash = b.passwordHash := by
  have equal := congrArg Account.passwordHash same
  exact equal

theorem restated (a b : Account) (same : a.unstatused = b.unstatused) : b = { a with status := b.status } :=
  calc b = { b.unstatused with status := b.status } := rfl
    _ = { a.unstatused with status := b.status } := by rw [same]

theorem suspension_passed (user : Account) (passed : ModerationService.suspensionRefusal user = none) : ¬ Privileged user := by
  simp only [ModerationService.suspensionRefusal, ModerationService.privileged] at passed
  rintro (admin | moderator)
  · simp [admin] at passed
  · by_cases admin : UserRole.admin ∈ user.roles <;> simp [admin, moderator] at passed

theorem reactivation_passed (user : Account) (passed : ModerationService.reactivationRefusal user = none) : ¬ Privileged user := by
  simp only [ModerationService.reactivationRefusal, ModerationService.privileged] at passed
  rintro (admin | moderator)
  · simp [admin] at passed
  · by_cases admin : UserRole.admin ∈ user.roles <;> simp [admin, moderator] at passed

theorem verification_passed (user : Account) (passed : AuthService.verificationRefusal user = none) :
    user.status = .pendingVerification := by
  simp only [AuthService.verificationRefusal, AuthService.accountIsNotAlreadyVerified] at passed
  cases status : user.status with
  | pendingVerification => rfl
  | _ => simp [status] at passed

end Writes

section Enrolment

variable {n : Nat} (start : Tables) (requests : Fin n → SiteRequest)

-- An account of the start, or one that a request creates.
def OnRecord (row : Account) : Prop := row ∈ start.accounts ∨ ∃ i, (requests i).Draws row

-- gen_random_uuid draws no id of another account.
def FreshAccounts : Prop := ∀ a b, OnRecord start requests a → OnRecord start requests b → a.id = b.id → a.unstatused = b.unstatused

theorem fresh_listed (rows : List Account) (listed : ∀ row, OnRecord start requests row → row ∈ rows)
    (distinct : ∀ a ∈ rows, ∀ b ∈ rows, a.id = b.id → a.unstatused = b.unstatused) : FreshAccounts start requests :=
  fun a b first second same => distinct a (listed a first) b (listed b second) same

theorem fresh_undrawn (undrawn : ∀ i row, ¬ (requests i).Draws row)
    (distinct : ∀ a ∈ start.accounts, ∀ b ∈ start.accounts, a.id = b.id → a.unstatused = b.unstatused) :
    FreshAccounts start requests :=
  fresh_listed start requests start.accounts (fun row issued => issued.resolve_right fun ⟨i, drawn⟩ => undrawn i row drawn) distinct

-- The row has the columns that were issued with its id, and a status that is
-- the issued one or was given to such an account.
structure Genuine (given : Account → AccountStatus → Prop) (row : Account) : Prop where
  issued : ∃ origin, OnRecord start requests origin ∧ origin.unstatused = row.unstatused
  status : OnRecord start requests row ∨ given row row.status

def AllGenuine (given : Account → AccountStatus → Prop) (t : Tables) : Prop := ∀ row ∈ t.accounts, Genuine start requests given row

theorem same_issued (fresh : FreshAccounts start requests) (given : Account → AccountStatus → Prop) (a b : Account)
    (first : Genuine start requests given a) (second : Genuine start requests given b) (same : a.id = b.id) :
    a.unstatused = b.unstatused := by
  obtain ⟨origin, issued, equal⟩ := first.issued
  obtain ⟨other, issued', equal'⟩ := second.issued
  have ids : origin.id = other.id := by rw [unstatused_id _ _ equal, unstatused_id _ _ equal', same]
  rw [← equal, ← equal']
  exact fresh origin other issued issued' ids

theorem genuine_apply (config : SiteConfig) (good : Tables → Prop) (given : Account → AccountStatus → Prop)
    (sound : ∀ t, good t → AllGenuine start requests given t) (fresh : FreshAccounts start requests)
    (congr : ∀ a b status, a.unstatused = b.unstatused → given a status → given b status)
    (grades : ∀ i user status, Genuine start requests given user → Grades config good (requests i) user status → given user status)
    (t : Tables) (w : Write) (i : Fin n) (genuine : AllGenuine start requests given t) (may : May config good (requests i) w) :
    AllGenuine start requests given (t.apply w) := by
  have known : ∀ user, Known good Tables.accounts user → Genuine start requests given user :=
    fun user ⟨rows, held, stored⟩ => sound rows held user stored
  cases may_accounts config _ _ w may with
  | draws row drawn =>
      intro other stored
      rcases List.mem_append.mp stored with old | new
      · exact genuine other old
      · rw [List.mem_singleton.mp new]
        exact ⟨⟨row, .inr ⟨i, drawn⟩, rfl⟩, .inl (.inr ⟨i, drawn⟩)⟩
  | other w adds => exact fun row stored => genuine row (adds t stored)
  | grades user status w loaded graded saves =>
      have origin := known user loaded
      have granted := grades i user status origin graded
      cases saves with
      | inserts rows held absent =>
          intro other stored
          rcases List.mem_append.mp stored with old | new
          · exact genuine other old
          · rw [List.mem_singleton.mp new]
            exact ⟨origin.issued, .inr (congr user _ status rfl granted)⟩
      | updates row rereads same =>
          intro other stored
          obtain ⟨target, before, rfl⟩ := List.mem_map.mp stored
          by_cases here : target.id = user.id
          · have columns : user.unstatused = row.unstatused :=
              same_issued start requests fresh given user row origin (known row rereads) same.symm
            have equal : user.unstatused = target.unstatused :=
              same_issued start requests fresh given user target origin (genuine target before) here.symm
            simp only [here, if_true]
            rw [changed_columns_apply { user with status := status } row target columns]
            refine ⟨(genuine target before).issued, ?_⟩
            by_cases kept : status = row.status
            · rw [if_pos kept]
              exact (genuine target before).status
            · rw [if_neg kept]
              exact .inr (congr user _ status equal granted)
          · simp only [here, if_false]
            exact genuine target before

def Moderated (caller : Caller) : Prop :=
  ∃ req moderator, AuthGuard.signedIn caller.session = some req ∧ uuidIn req.userId = some moderator.id ∧
    OnRecord start requests moderator ∧ .moderator ∈ moderator.roles

inductive Conferred (config : SiteConfig) (row : Account) : AccountStatus → Prop
  | suspended (i : Fin n) (caller : Caller) (userId : Text) (asked : requests i = .suspendAccount caller userId)
      (moderated : Moderated start requests caller) (target : uuidIn userId = some row.id) (member : ¬ Privileged row) :
      Conferred config row .suspended
  | reactivated (i : Fin n) (caller : Caller) (userId : Text) (asked : requests i = .reactivateAccount caller userId)
      (moderated : Moderated start requests caller) (target : uuidIn userId = some row.id) (member : ¬ Privileged row) :
      Conferred config row .active
  | verified (i : Fin n) (token : Token) (payload : JwtPayload) (asked : requests i = .verifyAccount (some token))
      (passes : token.Passes config.auth.accountVerificationToken payload) (target : uuidIn payload.id = some row.id)
      (waits : OnRecord start requests { row with status := .pendingVerification }) : Conferred config row .active

theorem privileged_congr (a b : Account) (same : a.unstatused = b.unstatused) : Privileged a ↔ Privileged b := by
  unfold Privileged
  rw [unstatused_roles a b same]

theorem conferred_congr (config : SiteConfig) (a b : Account) (status : AccountStatus) (same : a.unstatused = b.unstatused)
    (granted : Conferred start requests config a status) : Conferred start requests config b status := by
  have ids := unstatused_id a b same
  have roles := privileged_congr a b same
  cases granted with
  | suspended i caller userId asked moderated target member =>
      exact .suspended i caller userId asked moderated (ids ▸ target) fun other => member (roles.mpr other)
  | reactivated i caller userId asked moderated target member =>
      exact .reactivated i caller userId asked moderated (ids ▸ target) fun other => member (roles.mpr other)
  | verified i token payload asked passes target waits =>
      have same_waits : ({ a with status := .pendingVerification } : Account) = { b with status := .pendingVerification } :=
        congrArg (fun row : Account => { row with status := .pendingVerification }) same
      exact .verified i token payload asked passes (ids ▸ target) (same_waits ▸ waits)

theorem admitted_moderated (good : Tables → Prop) (given : Account → AccountStatus → Prop)
    (sound : ∀ t, good t → AllGenuine start requests given t) (route : Route) (caller : Caller) (user : AuthenticatedUser)
    (admitted : Admitted good route caller user)
    (moderators : Reflector.getAllAndOverride route.metadata.roles = some [.moderator]) : Moderated start requests caller := by
  obtain ⟨row, ⟨rows, held, stored⟩, rfl⟩ := admitted.known
  obtain ⟨req, signed, named⟩ := admitted.named
  obtain ⟨roles, asked, role, listed, has⟩ := admitted.role
  obtain ⟨origin, issued, same⟩ := (sound rows held row stored).issued
  rw [moderators, Option.some.injEq] at asked
  rw [← asked, List.mem_singleton] at listed
  refine ⟨req, origin, signed, ?_, issued, ?_⟩
  · rw [unstatused_id origin row same]
    exact named
  · rw [unstatused_roles origin row same, ← listed]
    exact has

theorem grades_conferred (config : SiteConfig) (good : Tables → Prop)
    (sound : ∀ t, good t → AllGenuine start requests (Conferred start requests config) t) (i : Fin n) (user : Account)
    (status : AccountStatus) (genuine : Genuine start requests (Conferred start requests config) user)
    (grades : Grades config good (requests i) user status) :
    Conferred start requests config user status := by
  generalize asked : requests i = request at grades
  cases grades with
  | suspends caller userId moderator user admitted target passed =>
      exact .suspended i caller userId asked (admitted_moderated start requests good _ sound _ caller moderator admitted rfl) target
        (suspension_passed user passed)
  | reactivates caller userId moderator user admitted target passed =>
      exact .reactivated i caller userId asked (admitted_moderated start requests good _ sound _ caller moderator admitted rfl) target
        (reactivation_passed user passed)
  | verifies token payload user passes target passed =>
      have pending := verification_passed user passed
      have waits : OnRecord start requests { user with status := .pendingVerification } := by
        rw [← pending]
        rcases genuine.status with issued | conferred
        · exact issued
        · rw [pending] at conferred
          cases conferred
      exact .verified i token payload asked passes target waits

theorem drawn_unprivileged (request : SiteRequest) (row : Account) (drawn : request.Draws row) (privileged : Privileged row) :
    row.status = .active ∧ ∃ isProduction generated username email passwordHash draws,
      request = .onModuleInit isProduction generated username email passwordHash draws ∧ generated.id = row.id := by
  have member : ∀ roles : List UserRole, roles = [.reviewer, .creator] → ¬ (.admin ∈ roles ∨ .moderator ∈ roles) := by
    rintro roles rfl
    simp
  cases drawn with
  | signUp input row req => exact absurd privileged (member _ rfl)
  | seed adminEmail draws i => exact absurd privileged (member _ rfl)
  | admin isProduction row username email passwordHash draws => exact ⟨rfl, _, _, _, _, _, _, rfl, rfl⟩
  | bootSeed isProduction row username email passwordHash draws i => exact absurd privileged (member _ rfl)

end Enrolment

section Runs

variable {n : Nat} {hashtext : Text → Int32}

theorem site_genuine (config : SiteConfig) (requests : Fin n → SiteRequest) (world : World)
    (fresh : FreshAccounts world.db requests) (moves : List (SiteMove hashtext n)) (last : SiteNet hashtext n)
    (reached : run (siteStart hashtext config requests world) moves = some last) :
    AllGenuine world.db requests (Conferred world.db requests config) last.world.db :=
  site_invariant config requests _ (genuine_apply world.db requests config _ _ (fun _ genuine => genuine) fresh
    (conferred_congr world.db requests config) (grades_conferred world.db requests config _ fun _ genuine => genuine)) world
    (fun row stored => ⟨⟨row, .inl stored, rfl⟩, .inl (.inl stored)⟩) moves last reached

-- Whatever the site does at once, the columns of an account stay as they were
-- issued but for its status, so that no request makes a moderator.
theorem account_columns_last (hashtext : Text → Int32) (config : SiteConfig) (requests : Fin n → SiteRequest) (world : World)
    (fresh : FreshAccounts world.db requests) (moves : List (SiteMove hashtext n)) (last : SiteNet hashtext n)
    (reached : run (siteStart hashtext config requests world) moves = some last) :
    (∀ row ∈ last.world.db.accounts, ∃ origin, OnRecord world.db requests origin ∧ row = { origin with status := row.status }) ∧
    (∀ row ∈ last.world.db.accounts, Privileged row →
      (∃ origin ∈ world.db.accounts, origin.id = row.id ∧ origin.roles = row.roles) ∨
      ∃ i isProduction generated username email passwordHash draws,
        requests i = .onModuleInit isProduction generated username email passwordHash draws ∧ generated.id = row.id) ∧
    ∀ early late middle, moves = early ++ late → run (siteStart hashtext config requests world) early = some middle →
      ∀ a ∈ middle.world.db.accounts, ∀ b ∈ last.world.db.accounts, a.id = b.id → b = { a with status := b.status } := by
  have genuine := site_genuine config requests world fresh moves last reached
  refine ⟨fun row stored => ?_, fun row stored privileged => ?_, fun early late middle _ before a inA b inB same => ?_⟩
  · obtain ⟨origin, issued, same⟩ := (genuine row stored).issued
    exact ⟨origin, issued, restated origin row same⟩
  · obtain ⟨origin, issued, same⟩ := (genuine row stored).issued
    have ids := unstatused_id origin row same
    rcases issued with initial | ⟨i, drawn⟩
    · exact .inl ⟨origin, initial, ids, unstatused_roles origin row same⟩
    · obtain ⟨-, isProduction, generated, username, email, passwordHash, draws, asked, named⟩ :=
        drawn_unprivileged _ origin drawn ((privileged_congr origin row same).mpr privileged)
      exact .inr ⟨i, isProduction, generated, username, email, passwordHash, draws, asked, named.trans ids⟩
  · have earlier := site_genuine config requests world fresh early middle before
    exact restated a b (same_issued world.db requests fresh _ a b (earlier a inA) (genuine b inB) same)

theorem account_statuses_conferred (hashtext : Text → Int32) (config : SiteConfig) (requests : Fin n → SiteRequest) (world : World)
    (fresh : FreshAccounts world.db requests) (moves : List (SiteMove hashtext n)) (last : SiteNet hashtext n)
    (reached : run (siteStart hashtext config requests world) moves = some last) :
    (∀ row ∈ last.world.db.accounts, OnRecord world.db requests row ∨ Conferred world.db requests config row row.status) ∧
    ∀ row ∈ last.world.db.accounts, Privileged row → row.status = .suspended → row ∈ world.db.accounts := by
  have genuine := site_genuine config requests world fresh moves last reached
  refine ⟨fun row stored => (genuine row stored).status, fun row stored privileged suspended => ?_⟩
  rcases (genuine row stored).status with (initial | ⟨i, drawn⟩) | granted
  · exact initial
  · have active := (drawn_unprivileged _ row drawn privileged).1
    rw [suspended] at active
    cases active
  · rw [suspended] at granted
    cases granted with
    | suspended i caller userId asked moderated target member => exact absurd privileged member

def chiefId : Uuid := ⟨"6f7e8d9c-0b1a-4c2d-9e3f-4a5b6c7d8e9f".toList, by decide⟩

def chief : Account := ⟨⟨chiefId, 1⟩, "chief".toList, "chief@mail".toList, "hash".toList, [.moderator], .active⟩

def chiefCaller : Caller := ⟨some ⟨"s2".toList, some chiefId.text⟩, .listed, false⟩

def ritaCaller : Caller := ⟨some reviewerSession, .listed, false⟩

def staffedWorld : World where
  db := ⟨[reviewer, chief], [], [], []⟩
  store := {
    signedInWorld.store with
    strings := Function.update signedInWorld.store.strings (createSessionAndUserMappingKey "s2".toList) (some ⟨chiefId.text, none⟩)
    sets := Function.update signedInWorld.store.sets (createUserSessionsSetKey chiefId.text) ["s2".toList] }

def staffedConfig : SiteConfig := ⟨moderationConfig, ⟨"out".toList, 3600, .signOutAll, ["id"]⟩, 3, fun _ _ => true⟩

-- The moderator suspends the reviewer, who offers an item.
def suspensionRequests : Fin 2 → SiteRequest
  | ⟨0, _⟩ => .suspendAccount chiefCaller reviewerId.text
  | ⟨_ + 1, _⟩ => .createItem ritaCaller ⟨⟨"brass lamp".toList, "a lamp to read by".toList, "home".toList, []⟩, none⟩ ⟨member, 2⟩

def suspensionMoves : List (SiteMove (fun _ => 0) 2) := List.replicate 9 .first ++ List.replicate 3 .second

theorem suspension_fresh : FreshAccounts staffedWorld.db suspensionRequests := by
  refine fresh_undrawn _ _ ?_ (by decide)
  rintro ⟨_ | i, _⟩ row drawn <;> cases drawn

theorem account_columns_last_suspension :
    ∃ last, run (siteStart (fun _ => 0) staffedConfig suspensionRequests staffedWorld) suspensionMoves = some last ∧
      last.world.db.accounts.map (fun row => row.status) = [.suspended, .active] ∧
      ∀ row ∈ last.world.db.accounts, ∃ origin, OnRecord staffedWorld.db suspensionRequests origin ∧
        row = { origin with status := row.status } := by
  obtain ⟨last, reached, suspended⟩ := run_exists (siteStart (fun _ => 0) staffedConfig suspensionRequests staffedWorld)
    suspensionMoves (fun net => net.world.db.accounts.map (fun row => row.status) = [.suspended, .active]) (by decide)
  exact ⟨last, reached, suspended,
    (account_columns_last (fun _ => 0) staffedConfig _ staffedWorld suspension_fresh suspensionMoves last reached).1⟩

theorem account_statuses_conferred_suspension :
    ∃ last, run (siteStart (fun _ => 0) staffedConfig suspensionRequests staffedWorld) suspensionMoves = some last ∧
      (∃ row ∈ last.world.db.accounts, row.id = reviewerId ∧ row.status = .suspended) ∧
      ∀ row ∈ last.world.db.accounts, OnRecord staffedWorld.db suspensionRequests row ∨
        Conferred staffedWorld.db suspensionRequests staffedConfig row row.status := by
  obtain ⟨last, reached, suspended⟩ := run_exists (siteStart (fun _ => 0) staffedConfig suspensionRequests staffedWorld)
    suspensionMoves (fun net => ∃ row ∈ net.world.db.accounts, row.id = reviewerId ∧ row.status = .suspended) (by decide)
  exact ⟨last, reached, suspended,
    (account_statuses_conferred (fun _ => 0) staffedConfig _ staffedWorld suspension_fresh suspensionMoves last reached).1⟩

end Runs

end RateWise
