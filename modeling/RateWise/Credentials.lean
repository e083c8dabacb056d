import RateWise.AccountHistory
import RateWise.SignUpInputs

set_option autoImplicit false

namespace RateWise

open Interleave
open ReadCommitted

def EmailsDistinct (t : Tables) : Prop := t.accounts.Pairwise fun a b => a.email ≠ b.email

structure Enrolled (account : Account) (t : Tables) : Prop where
  ids : AccountIds t
  emails : EmailsDistinct t
  kept : ∃ row ∈ t.accounts, row.id = account.id ∧ row.email = account.email ∧ row.passwordHash = account.passwordHash

-- Tables that operations on accounts lead to, whatever happens to Redis in
-- between, while the account u is not deleted.
inductive Later (hashtext : Text → Int32) (config : AuthConfig) (u : Uuid) (start : Tables) : Tables → Prop
  | now : Later hashtext config u start start
  | served (world : World) (op : AccountOperation) (earlier : Later hashtext config u start world.db)
      (present : ∃ row ∈ ((op.program config).solo (engine hashtext) world none).2.1.db.accounts, row.id = u) :
      Later hashtext config u start ((op.program config).solo (engine hashtext) world none).2.1.db

section Kept

variable {hashtext : Text → Int32} {config : AuthConfig}

theorem emails_set_status (t after : Tables) (u : Uuid) (status : AccountStatus) (distinct : EmailsDistinct t)
    (accounts : after.accounts = setStatus t.accounts u status) : EmailsDistinct after := by
  unfold EmailsDistinct
  rw [accounts, setStatus, List.pairwise_map]
  refine distinct.imp fun different => ?_
  split <;> split <;> exact different

theorem added_distinct (columns : SignUpInput) (row : Generated) (t : Tables)
    (free : usernameOrEmailTaken t row columns = false) :
    (AccountIds t → AccountIds (t.apply (.insertAccount (pendingAccount columns row)))) ∧
      (EmailsDistinct t → EmailsDistinct (t.apply (.insertAccount (pendingAccount columns row)))) := by
  rw [usernameOrEmailTaken, List.any_eq_false] at free
  constructor
  · refine fun ids => List.pairwise_append.mpr ⟨ids, List.pairwise_singleton _ _, fun a stored b new same => ?_⟩
    rw [List.mem_singleton.mp new] at same
    exact free a stored (by simp [show a.id = row.id from same])
  · refine fun emails => List.pairwise_append.mpr ⟨emails, List.pairwise_singleton _ _, fun a stored b new same => ?_⟩
    rw [List.mem_singleton.mp new] at same
    exact free a stored (by simp [show a.email = columns.email from same])

theorem sign_up_emails (input : SignUpInput) (row : Generated) (req : RequestContext) (world : World)
    (distinct : EmailsDistinct world.db) :
    Yields (engine hashtext) (AccountOperation.program config (.signUp input row req)) world none fun _ left _ =>
      EmailsDistinct left.db := by
  refine yields_bind _ _ _ _ _ (yields_bind _ _ _ _ _ (create_one_yields input row world _ (fun _ => distinct) fun free => ?_))
  have added := (added_distinct input row world.db free).2 distinct
  refine yields_bind _ _ _ _ _ (yields_mono _ _ _ _ _ (session_yields req _ _) ?_)
  rintro result left after ⟨rfl, rfl, rows⟩
  show EmailsDistinct left.db
  rw [rows]
  exact added

theorem changes_emails (refusal : Account → Option Err) (status : AccountStatus) (userId : Text) (before after : Tables)
    (result : Except Err Unit) (distinct : EmailsDistinct before) (changes : Changes refusal status userId before after result) :
    EmailsDistinct after := by
  rcases changes with ⟨user, -, -, -, accounts⟩ | ⟨-, -, rfl⟩
  · exact emails_set_status before after user.id status distinct accounts
  · exact distinct

theorem operation_emails (op : AccountOperation) (world : World) (ids : AccountIds world.db)
    (distinct : EmailsDistinct world.db) :
    EmailsDistinct ((op.program config).solo (engine hashtext) world none).2.1.db := by
  have effect := (@account_operation_yields hashtext config op world ids).2
  cases op with
  | signUp input row req => exact sign_up_emails input row req world distinct
  | requestAccountVerification user jti => exact effect ▸ distinct
  | verifyAccount token =>
      rcases effect with ⟨payload, -, changes⟩ | ⟨-, same⟩
      · exact changes_emails _ _ _ _ _ _ distinct changes
      · exact same ▸ distinct
  | suspendAccount userId => exact changes_emails _ _ _ _ _ _ distinct effect
  | reactivateAccount userId => exact changes_emails _ _ _ _ _ _ distinct effect
  | deleteAccount token => exact distinct.sublist effect

theorem changes_ids (refusal : Account → Option Err) (status : AccountStatus) (userId : Text) (before after : Tables)
    (result : Except Err Unit) (distinct : AccountIds before) (changes : Changes refusal status userId before after result) :
    AccountIds after := by
  rcases changes with ⟨user, -, -, -, accounts⟩ | ⟨-, -, rfl⟩
  · exact account_ids_set_status before after user.id status distinct accounts
  · exact distinct

theorem effect_ids (op : AccountOperation) (before after : Tables) (result : Except Err Unit) (distinct : AccountIds before)
    (effect : Effect config op before after result) : AccountIds after := by
  cases op with
  | signUp input row req =>
      rcases effect with ⟨-, fresh, accounts⟩ | ⟨-, rfl⟩
      · unfold AccountIds
        rw [accounts, List.pairwise_append]
        refine ⟨distinct, List.pairwise_singleton _ _, fun a stored b member => ?_⟩
        rw [List.mem_singleton.mp member]
        exact fresh a stored
      · exact distinct
  | requestAccountVerification user jti => exact effect ▸ distinct
  | verifyAccount token =>
      rcases effect with ⟨payload, -, changes⟩ | ⟨-, rfl⟩
      · exact changes_ids _ _ _ _ _ _ distinct changes
      · exact distinct
  | suspendAccount userId => exact changes_ids _ _ _ _ _ _ distinct effect
  | reactivateAccount userId => exact changes_ids _ _ _ _ _ _ distinct effect
  | deleteAccount token => exact distinct.sublist effect

def SameCredentials (before after : Tables) : Prop :=
  ∀ row ∈ after.accounts, ∀ old ∈ before.accounts, old.id = row.id →
    row.email = old.email ∧ row.passwordHash = old.passwordHash

theorem same_credentials_refl (t : Tables) (distinct : AccountIds t) : SameCredentials t t := by
  intro row stored old member same
  rw [same_account t distinct old row member stored same]
  exact ⟨rfl, rfl⟩

theorem changes_credentials (refusal : Account → Option Err) (status : AccountStatus) (userId : Text) (before after : Tables)
    (result : Except Err Unit) (distinct : AccountIds before) (changes : Changes refusal status userId before after result) :
    SameCredentials before after := by
  rcases changes with ⟨user, -, -, -, accounts⟩ | ⟨-, -, rfl⟩
  · intro row stored old member same
    rw [accounts] at stored
    obtain ⟨source, present, rfl⟩ := (mem_set_status _ _ _ _).mp stored
    rw [set_status_id] at same
    rw [same_account before distinct old source member present same]
    split <;> exact ⟨rfl, rfl⟩
  · exact same_credentials_refl _ distinct

theorem effect_credentials (op : AccountOperation) (before after : Tables) (result : Except Err Unit)
    (distinct : AccountIds before) (effect : Effect config op before after result) : SameCredentials before after := by
  cases op with
  | signUp input row req =>
      rcases effect with ⟨-, fresh, accounts⟩ | ⟨-, rfl⟩
      · intro other stored old member same
        rw [accounts] at stored
        rcases List.mem_append.mp stored with earlier | added
        · exact same_credentials_refl before distinct other earlier old member same
        · rw [List.mem_singleton.mp added] at same
          exact absurd same (fresh old member)
      · exact same_credentials_refl _ distinct
  | requestAccountVerification user jti =>
      cases effect
      exact same_credentials_refl _ distinct
  | verifyAccount token =>
      rcases effect with ⟨payload, -, changes⟩ | ⟨-, rfl⟩
      · exact changes_credentials _ _ _ _ _ _ distinct changes
      · exact same_credentials_refl _ distinct
  | suspendAccount userId => exact changes_credentials _ _ _ _ _ _ distinct effect
  | reactivateAccount userId => exact changes_credentials _ _ _ _ _ _ distinct effect
  | deleteAccount token =>
      intro row stored old member same
      exact same_credentials_refl before distinct row (effect.subset stored) old member same

theorem operation_enrolled (account : Account) (op : AccountOperation) (world : World) (enrolled : Enrolled account world.db)
    (present : ∃ row ∈ ((op.program config).solo (engine hashtext) world none).2.1.db.accounts, row.id = account.id) :
    Enrolled account ((op.program config).solo (engine hashtext) world none).2.1.db := by
  have effect := (@account_operation_yields hashtext config op world enrolled.ids).2
  refine ⟨effect_ids op _ _ _ enrolled.ids effect, operation_emails op world enrolled.ids enrolled.emails, ?_⟩
  obtain ⟨row, stored, mine⟩ := present
  obtain ⟨old, member, same, email, password⟩ := enrolled.kept
  obtain ⟨sameEmail, samePassword⟩ := effect_credentials op _ _ _ enrolled.ids effect row stored old member (same.trans mine.symm)
  exact ⟨row, stored, mine, sameEmail.trans email, samePassword.trans password⟩

theorem later_enrolled (account : Account) (start t : Tables) (enrolled : Enrolled account start)
    (later : Later hashtext config account.id start t) : Enrolled account t := by
  induction later with
  | now => exact enrolled
  | served world op earlier present ih => exact operation_enrolled account op world ih present

theorem signed_up_enrolled (columns : SignUpInput) (row : Generated) (req : RequestContext) (world : World)
    (ids : AccountIds world.db) (emails : EmailsDistinct world.db) :
    Yields (engine hashtext) (AuthService.signUp columns row req) world none fun result left _ =>
      ∀ account, result = .ok account → account = pendingAccount columns row ∧ Enrolled account left.db := by
  refine yields_bind _ _ _ _ _ (create_one_yields columns row world _ (fun _ _ impossible => by cases impossible) fun free => ?_)
  refine yields_bind _ _ _ _ _ (yields_mono _ _ _ _ _ (session_yields req _ _) ?_)
  rintro result left after ⟨rfl, rfl, rows⟩ account same
  cases same
  obtain ⟨keepIds, keepEmails⟩ := added_distinct columns row world.db free
  have enrolled : Enrolled (pendingAccount columns row)
      (world.db.apply (.insertAccount (pendingAccount columns row))) :=
    ⟨keepIds ids, keepEmails emails,
      ⟨pendingAccount columns row, List.mem_append_right _ (List.mem_singleton_self _), rfl, rfl, rfl⟩⟩
  show _ ∧ Enrolled _ left.db
  rw [rows]
  exact ⟨rfl, enrolled⟩

end Kept

section Entry

variable {hashtext : Text → Int32} {compare : JsString → Text → Bool}

theorem finds_email (account : Account) (t : Tables) (enrolled : Enrolled account t) :
    ∃ row, t.answer (.findAccountByEmail account.email) = some row ∧ row.id = account.id ∧
      row.passwordHash = account.passwordHash := by
  obtain ⟨row, stored, same, email, password⟩ := enrolled.kept
  refine ⟨row, ?_, same, password⟩
  show t.accounts.find? (fun other => other.email = account.email) = some row
  have only := filter_key (fun other : Account => other.email) t.accounts row stored enrolled.emails
  rw [← email, ← List.head?_filter, only]
  rfl

theorem length_matcher_iff (password : JsString) (long : 8 ≤ password.length) :
    lengthMatcher password AUTH_RULES.PASSWORD = true ↔ password.length ≤ 60 := by
  have enough : ¬ password.length < AUTH_RULES.PASSWORD.MIN := by
    simp only [AUTH_RULES.PASSWORD]
    omega
  rw [lengthMatcher, if_neg enough]
  by_cases more : AUTH_RULES.PASSWORD.MAX < password.length
  · simp only [if_pos more, Bool.false_eq_true, false_iff, Nat.not_le]
    exact more
  · simp only [if_neg more, true_iff]
    exact Nat.le_of_not_lt more

theorem authenticate_yields (row : Account) (world : World) (email password : JsString)
    (found : world.db.answer (.findAccountByEmail (parameter email)) = some row)
    (known : compare password row.passwordHash = true) (fits : lengthMatcher password AUTH_RULES.PASSWORD = true) :
    Yields (engine hashtext) (AuthService.authenticate compare email password) world none fun result left after =>
      result = .ok row ∧ left = world ∧ after = none := by
  simp only [AuthService.authenticate, AuthService.validatePasswordConstraintsOrThrow, fits]
  show Yields (engine hashtext) (Prog.bind (sql (.findAccountByEmail (parameter email))) _) world none _
  refine yields_bind _ _ _ _ _ (yields_sql (S := schema) (C := Redis.commands) _ (Sql.findAccountByEmail (parameter email))
    world _ (fun fault refused => ?_) fun _ => ?_)
  · cases (show world.db.refuses (.findAccountByEmail (parameter email)) = some fault from refused)
  · simp only [found, AuthService.passwordsMatchOrThrow, known]
    exact ⟨rfl, rfl, rfl⟩

theorem limit_yields (userId : Text) (world : World) (maxUserSessions : Nat)
    (room : (world.store.sets (createUserSessionsSetKey userId)).length < maxUserSessions) :
    Yields (engine hashtext) (AuthService.checkSessionLimit maxUserSessions userId) world none fun result _ after =>
      result = .ok () ∧ after = none := by
  refine yields_bind _ _ _ _ _ (yields_cmd (S := schema) (C := Redis.commands) _
    (RedisCmd.setSize (createUserSessionsSetKey userId)) world none _ (fun fault failed => by cases failed)
    fun reply store answered => ?_)
  cases answered
  have below : ¬ maxUserSessions ≤ (world.store.sets (createUserSessionsSetKey userId)).length := Nat.not_le.mpr room
  simp only [below, decide_false]
  exact ⟨rfl, rfl⟩

theorem create_session_yields (req : RequestContext) (user : Account) (world : World) :
    Yields (engine hashtext) (Prog.bind (SessionsService.create req user.id.text) fun _ => (pure user : Async Account))
      world none fun result _ _ => result = .ok user := by
  refine yields_bind _ _ _ _ _ (yields_mono _ _ _ _ _ (session_yields req _ _) ?_)
  rintro result left after ⟨rfl, -, -⟩
  rfl

theorem sign_in_yields (account : Account) (world : World) (enrolled : Enrolled account world.db) (maxUserSessions : Nat)
    (room : (world.store.sets (createUserSessionsSetKey account.id.text)).length < maxUserSessions) (email password : JsString)
    (mine : parameter email = account.email) (known : compare password account.passwordHash = true)
    (long : 8 ≤ password.length) (req : RequestContext) :
    Yields (engine hashtext) (AuthService.signIn compare maxUserSessions email password req) world none fun result _ _ =>
      (∃ found, result = .ok found ∧ found.id = account.id) ↔ password.length ≤ 60 := by
  have length := length_matcher_iff password long
  cases fits : lengthMatcher password AUTH_RULES.PASSWORD with
  | false =>
      have over_long : ¬ password.length ≤ 60 := fun short => by rw [length.mpr short] at fits; cases fits
      simp only [AuthService.signIn, AuthService.authenticate, AuthService.validatePasswordConstraintsOrThrow, fits]
      refine iff_of_false ?_ over_long
      rintro ⟨found, impossible, -⟩
      cases impossible
  | true =>
      obtain ⟨row, found, same, password_same⟩ := finds_email account world.db enrolled
      rw [← password_same] at known
      rw [← same] at room
      rw [← mine] at found
      refine yields_bind _ _ _ _ _ (yields_mono _ _ _ _ _ (authenticate_yields row world email password found known fits) ?_)
      rintro result left after ⟨rfl, rfl, rfl⟩
      refine yields_bind _ _ _ _ _ (yields_mono _ _ _ _ _ (limit_yields row.id.text left maxUserSessions room) ?_)
      rintro result last after ⟨rfl, rfl⟩
      refine yields_mono _ _ _ _ _ (create_session_yields req row last) ?_
      rintro result final after rfl
      exact iff_of_true ⟨row, rfl, same⟩ (length.mp fits)

def Harmless (promise : Async Unit) : Prop :=
  ∀ world : World, Yields (engine hashtext) promise world none fun result _ after => result = .ok () ∧ after = none

theorem delete_harmless (key : Text) : @Harmless hashtext (SessionsService.delete key) := by
  intro world
  refine yields_mono _ _ _ _ _ (delete_yields key world) ?_
  rintro result left after ⟨rfl, rfl, -⟩
  exact ⟨rfl, rfl⟩

theorem rejections_harmless (promises : List (Async Unit)) (harmless : ∀ promise ∈ promises, @Harmless hashtext promise)
    (world : World) : Yields (engine hashtext) (rejections promises) world none fun result _ after =>
      result = .ok [] ∧ after = none := by
  induction promises generalizing world with
  | nil => exact ⟨rfl, rfl⟩
  | cons promise rest ih =>
      refine yields_bind _ _ _ _ _ (yields_catching _ _ _ _ _ (yields_bind _ _ _ _ _
        (yields_mono _ _ _ _ _ (harmless promise (by simp) world) ?_)))
      rintro result left after ⟨rfl, rfl⟩
      have others : Yields (engine hashtext) (Prog.bind (rejections rest) fun others => (pure ([] ++ others) : Async (List Err)))
          left none fun result _ after => result = .ok [] ∧ after = none := by
        refine yields_bind _ _ _ _ _ (yields_mono _ _ _ _ _ (ih (fun other member => harmless other (by simp [member])) left) ?_)
        rintro result last after ⟨rfl, rfl⟩
        exact ⟨rfl, rfl⟩
      exact others

theorem deletions_harmless (userId : Text) (sessIDs : List Text) :
    ∀ promise ∈ SessionsService.deletions userId sessIDs, @Harmless hashtext promise := by
  intro promise member
  simp only [SessionsService.deletions, List.mem_append, List.mem_map, List.mem_cons] at member
  rcases member with ⟨id, -, rfl⟩ | rfl | ⟨id, -, rfl⟩ <;> exact delete_harmless _

theorem settle_members_yields (key : Text) (world : World) :
    Yields (engine hashtext) (settle (redis (.sMembers key))) world none fun result _ after =>
      (∃ members, result = .ok (.ok members)) ∧ after = none := by
  refine yields_catching _ _ _ _ _ (yields_bind _ _ _ _ _ (yields_cmd (S := schema) (C := Redis.commands) _
    (RedisCmd.sMembers key) world none _ (fun fault failed => by cases failed) fun reply store answered => ?_))
  exact ⟨⟨reply, rfl⟩, rfl⟩

theorem destroy_all_yields (order : Arrangement) (destroyedFirst : Bool) (req : SessionContext) (world : World) :
    Yields (engine hashtext) (SessionsService.destroyAll order destroyedFirst req) world none fun result _ after =>
      (∃ many, result = .ok many) ∧ after = none := by
  have single (promise : Async Unit) (member : promise ∈ [SessionsService.destroySession req]) :
      @Harmless hashtext promise := by
    rw [List.mem_singleton.mp member]
    exact delete_harmless _
  refine yields_bind _ _ _ _ _ (yields_mono _ _ _ _ _ (rejections_harmless _ ?_ world) ?_)
  · intro promise member
    split at member
    · exact single promise member
    · cases member
  rintro result left after ⟨rfl, rfl⟩
  refine yields_bind _ _ _ _ _ (yields_mono _ _ _ _ _ (settle_members_yields _ left) ?_)
  rintro result left after ⟨⟨sessIDs, rfl⟩, rfl⟩
  refine yields_bind _ _ _ _ _ (yields_mono _ _ _ _ _ (rejections_harmless _ ?_ _) ?_)
  · intro promise member
    rw [(order.perm _).mem_iff, List.mem_append] at member
    rcases member with listed | current
    · exact deletions_harmless _ _ promise listed
    · split at current
      · cases current
      · exact single promise current
  rintro result last after ⟨rfl, rfl⟩
  exact ⟨⟨_, rfl⟩, rfl⟩

theorem reauthenticate_yields (account : Account) (world : World) (enrolled : Enrolled account world.db)
    (version : validUUID account.id.text = true) (password : JsString)
    (known : compare password account.passwordHash = true) (fits : lengthMatcher password AUTH_RULES.PASSWORD = true) :
    Yields (engine hashtext) (AuthService.reauthenticate compare account.id.text password) world none fun result left after =>
      result = .ok () ∧ left = world ∧ after = none := by
  obtain ⟨row, stored, same, -, password_same⟩ := enrolled.kept
  have found : world.db.answer (.findAccount account.id.text) = some row := by
    rw [← same]
    exact finds_account world.db enrolled.ids _ row stored (uuid_in_text row.id)
  rw [← password_same] at known
  simp only [AuthService.reauthenticate, AuthService.validatePasswordConstraintsOrThrow, fits,
    UsersService.findOneByIdOrThrow, UsersService.findOneById, UsersService.validUuidOrThrow, version]
  show Yields (engine hashtext) (Prog.bind (Prog.bind (sql (.findAccount account.id.text)) _) _) world none _
  refine yields_bind _ _ _ _ _ (yields_bind _ _ _ _ _ (yields_sql (S := schema) (C := Redis.commands) _
    (Sql.findAccount account.id.text) world _ (fun fault refused => ?_) fun _ => ?_))
  · simp [Tables.refuses, Sql.uuids, uuid_in_text, Tables.attempts] at refused
  · simp only [found, AuthService.passwordsMatchOrThrow]
    have passed : Yields (engine hashtext) (rejectIf (!compare password row.passwordHash) AuthService.invalidCredentials)
        world none fun result left after => result = .ok () ∧ left = world ∧ after = none := by
      rw [known]
      exact ⟨rfl, rfl, rfl⟩
    exact passed

theorem sign_out_all_yields (account : Account) (world : World) (enrolled : Enrolled account world.db)
    (version : validUUID account.id.text = true) (password : JsString) (order : Arrangement) (destroyedFirst : Bool)
    (known : compare password account.passwordHash = true) (fits : lengthMatcher password AUTH_RULES.PASSWORD = true)
    (req : SessionContext) (own : req.userId = account.id.text) :
    Yields (engine hashtext) (AuthService.signOutAll compare order destroyedFirst password req) world none
      fun result _ _ => result = .ok () := by
  rw [← own] at version
  refine yields_bind _ _ _ _ _ (yields_mono _ _ _ _ _ (own ▸ reauthenticate_yields account world enrolled (own ▸ version)
    password known fits) ?_)
  rintro result left after ⟨rfl, rfl, rfl⟩
  refine yields_bind _ _ _ _ _ (yields_mono _ _ _ _ _ (destroy_all_yields order destroyedFirst req _) ?_)
  rintro result last after ⟨⟨many, rfl⟩, rfl⟩
  rfl

end Entry

theorem piped_credentials (isEmail : JsString → Bool) (presentationSequences : JsString → Nat)
    (input user : Graphql.SignUpInput) (accepted : input.piped isEmail presentationSequences = some user) :
    user.email = input.email ∧ isEmail input.email = true ∧ 8 ≤ input.password.length := by
  simp only [Graphql.SignUpInput.piped] at accepted
  split at accepted
  · rename_i valid
    cases accepted
    simp only [Graphql.SignUpInput.valid, Bool.and_eq_true] at valid
    obtain ⟨⟨-, mailed⟩, counted⟩ := valid
    simp only [hasLength, minLength, Bool.and_eq_true] at counted
    have enough : (8 : Int) ≤ input.password.length - presentationSequences input.password - Utf16.pairs input.password :=
      of_decide_eq_true counted.1
    exact ⟨rfl, mailed, by omega⟩
  · cases accepted

-- Who has signed up can sign in and pass the checks of signOutAll exactly
-- when the password has at most 60 UTF-16 units.
theorem signed_up_users_sign_in_iff (hashtext : Text → Int32) (config : AuthConfig) (compare : JsString → Text → Bool)
    (isEmail : JsString → Bool) (presentationSequences : JsString → Nat) (input user : Graphql.SignUpInput)
    (accepted : input.piped isEmail presentationSequences = some user) (passwordHash : Text)
    (known : compare input.password passwordHash = true) (before : World) (ids : AccountIds before.db)
    (emails : EmailsDistinct before.db) (row : Generated) (version : validUUID row.id.text = true) (req : RequestContext)
    (account : Account) (signedUp : ((AuthService.signUp (signUpColumns user passwordHash) row req).solo (engine hashtext)
      before none).1 = .ok account) (now : World)
    (later : Later hashtext config account.id
      ((AuthService.signUp (signUpColumns user passwordHash) row req).solo (engine hashtext) before none).2.1.db now.db)
    (maxUserSessions : Nat) (room : (now.store.sets (createUserSessionsSetKey account.id.text)).length < maxUserSessions)
    (again : RequestContext) (order : Arrangement) (destroyedFirst : Bool) (session : SessionContext)
    (own : session.userId = account.id.text) :
    ((Graphql.SignInInput.mk input.email input.password).valid isEmail = true ∧
      (∃ found, ((AuthService.signIn compare maxUserSessions input.email input.password again).solo (engine hashtext)
        now none).1 = .ok found ∧ found.id = account.id) ∧
      ((AuthService.signOutAll compare order destroyedFirst input.password session).solo (engine hashtext) now none).1 =
        .ok ()) ↔ input.password.length ≤ 60 := by
  obtain ⟨sameEmail, mailed, long⟩ := piped_credentials isEmail presentationSequences input user accepted
  obtain ⟨rfl, enrolled⟩ := signed_up_enrolled (signUpColumns user passwordHash) row req before ids emails account signedUp
  have present := later_enrolled _ _ _ enrolled later
  have mine : parameter input.email = (pendingAccount (signUpColumns user passwordHash) row).email :=
    congrArg parameter sameEmail.symm
  have signed := @sign_in_yields hashtext compare _ now present maxUserSessions room input.email input.password mine known long again
  constructor
  · rintro ⟨-, found, -⟩
    exact signed.mp found
  · intro short
    refine ⟨mailed, signed.mpr short, ?_⟩
    exact sign_out_all_yields _ now present version input.password order destroyedFirst known
      ((length_matcher_iff _ long).mpr short) session own

def plainCompare (password : JsString) (stored : Text) : Bool := stored == parameter password

def annVersion : Generated := ⟨⟨"1d3e4f50-6c5d-4e3f-8a1b-9b2f4a6c7d8e".toList, by decide⟩, 0⟩

def annRequest : RequestContext := ⟨"s0".toList, "s1".toList⟩

def annSigned (password : JsString) : Except Err Account × World × Option (Tx schema Int32) :=
  (AuthService.signUp (signUpColumns ⟨Utf16.ofText "ann".toList, annMail, password⟩ (parameter password)) annVersion
    annRequest).solo (engine fun _ => 0) nobody none

def annAccount (password : JsString) : Account :=
  pendingAccount (signUpColumns ⟨Utf16.ofText "ann".toList, annMail, password⟩ (parameter password)) annVersion

theorem signed_up_users_sign_in_iff_ann :
    ((Graphql.SignInInput.mk annMail annPassword).valid knowsAnn = true ∧
      (∃ found, ((AuthService.signIn plainCompare 2 annMail annPassword ⟨"s2".toList, "s3".toList⟩).solo
        (engine fun _ => 0) (annSigned annPassword).2.1 none).1 = .ok found ∧ found.id = (annAccount annPassword).id) ∧
      ((AuthService.signOutAll plainCompare .listed false annPassword ⟨annRequest, annVersion.id.text⟩).solo
        (engine fun _ => 0) (annSigned annPassword).2.1 none).1 = .ok ()) ↔ annPassword.length ≤ 60 :=
  signed_up_users_sign_in_iff (fun _ => 0) moderationConfig plainCompare knowsAnn (fun _ => 0)
    ⟨Utf16.ofText "ann".toList, annMail, annPassword⟩ _ (by decide) (parameter annPassword) (by decide) nobody .nil .nil
    annVersion (by decide) annRequest (annAccount annPassword) (by decide) (annSigned annPassword).2.1 .now 2 (by decide)
    _ .listed false ⟨annRequest, annVersion.id.text⟩ rfl

-- 31 characters of two units each.
def horses : JsString := Utf16.ofText (List.replicate 31 (Char.ofNat 0x1F434))

set_option maxRecDepth 4000 in
theorem long_password_locks_out :
    (Graphql.SignUpInput.mk (Utf16.ofText "ann".toList) annMail horses).piped knowsAnn (fun _ => 0) =
        some ⟨Utf16.ofText "ann".toList, annMail, horses⟩ ∧
      (annSigned horses).1 = .ok (annAccount horses) ∧
      ((AuthService.signIn plainCompare 2 annMail horses ⟨"s2".toList, "s3".toList⟩).solo (engine fun _ => 0)
        (annSigned horses).2.1 none).1 = .error AuthService.invalidCredentials := by
  decide

end RateWise
