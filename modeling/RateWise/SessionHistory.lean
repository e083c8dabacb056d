import RateWise.SessionCounts
import RateWise.TokenHistory

set_option autoImplicit false

namespace RateWise

open Interleave
open ReadCommitted

-- The settings of the sessions: the password comparison, the lower-casing of
-- the server, the token service of the link, the limit and the TTL in seconds,
-- which the configuration schema requires to be positive.
structure SessionConfig where
  compare : JsString → Text → Bool
  lower : Text → Text
  signOutAllToken : TokensFeatureOptions
  maxUserSessions : Nat
  ttlSeconds : Int
  lasting : 0 < ttlSeconds

inductive Visit where
  | signUp (columns : SignUpInput) (row : Generated) (req : RequestContext)
  | signIn (email password : JsString) (req : RequestContext)
  | signOut (guard order : Arrangement) (relationFirst : Bool) (sessionID : Text)
  | signOutAll (guard order : Arrangement) (relationFirst destroyedFirst : Bool) (sessionID : Text) (password : JsString)
  | signOutAllPublic (order : Arrangement) (tokenInUrl : Token)
  | guarded (guard : Arrangement) (relationFirst : Bool) (sessionID : Text)
  | touch (sessionID : Text)
  | elapse (milliseconds : Nat) (expired : List (Arrangement × Text))

-- Redis publishes the expired keys one by one.
def SessionsEvents.publish : List (Arrangement × Text) → Async Unit
  | [] => pure ()
  | (order, sessionID) :: rest => do
      let _handled ← settle (SessionsEvents.expired order (createSessionKey sessionID))
      SessionsEvents.publish rest

def Visit.program (config : SessionConfig) : Visit → Async Unit
  | .signUp columns row req => do
      let user ← createAccount config.lower columns row
      SessionsService.create req user.id.text
      SessionsService.save req.regenerated user.id.text config.ttlSeconds
  | .signIn email password req => do
      let user ← AuthService.signIn config.compare config.maxUserSessions email password req
      SessionsService.save req.regenerated user.id.text config.ttlSeconds
  | .signOut guard order relationFirst sessionID => do
      let granted ← AuthGuard.canActivate guard relationFirst sessionID
      AuthService.signOut order granted.2
  | .signOutAll guard order relationFirst destroyedFirst sessionID password => do
      let granted ← AuthGuard.canActivate guard relationFirst sessionID
      AuthService.signOutAll config.compare order destroyedFirst password granted.2
  | .signOutAllPublic order tokenInUrl => do
      let _sessions ← AuthService.signOutAllPublic config.signOutAllToken order tokenInUrl
      pure ()
  | .guarded guard relationFirst sessionID => do
      let _granted ← AuthGuard.canActivate guard relationFirst sessionID
      pure ()
  | .touch sessionID => SessionsService.touch sessionID config.ttlSeconds
  | .elapse _ expired => SessionsEvents.publish expired

def Visit.milliseconds : Visit → Nat
  | .elapse milliseconds _ => milliseconds
  | _ => 0

section Visits

variable (hashtext : Text → Int32) (config : SessionConfig)

def Visit.began (visit : Visit) (world : World) : World :=
  ⟨world.db, { world.store with now := world.store.now + visit.milliseconds }⟩

def Visit.serve (visit : Visit) (world : World) : World :=
  ((visit.program config).solo (engine hashtext) (visit.began world) none).2.1

-- The request gets to the creation of a session: the account is stored, or
-- the credentials are right and the index has room.
def Visit.Creates (world : World) : Visit → Prop
  | .signUp columns row _ => [columns.username, columns.email, columns.passwordHash].any hasNul = false ∧
      accountChecks config.lower columns = true ∧ usernameOrEmailTaken world.db row columns = false
  | .signIn email password _ => lengthMatcher password AUTH_RULES.PASSWORD = true ∧
      ∃ user, world.db.answer (.findAccountByEmail (parameter email)) = some user ∧
        config.compare password user.passwordHash = true ∧
        (world.store.sessions.index user.id.text).length < config.maxUserSessions
  | _ => False

def Visit.request : Visit → Option RequestContext
  | .signUp _ _ req => some req
  | .signIn _ _ req => some req
  | _ => none

-- No live session comes with a request that creates one.
def Visit.Unaccompanied (world : World) (visit : Visit) : Prop :=
  ∀ req, visit.request = some req → visit.Creates config world → world.store.sessions.record req.sessionID = none

-- What express-session and Redis guarantee: the drawn id names no session, and
-- exactly the records whose time has come are published.
def Visit.Delivered (world : World) (visit : Visit) : Prop :=
  (∀ req, visit.request = some req → SessionName req.regenerated ∧ world.store.sessions.record req.regenerated = none) ∧
    ∀ milliseconds expired, visit = .elapse milliseconds expired → ∀ sid, sid ∈ expired.map Prod.snd ↔
      (∃ userId, world.store.sessions.record sid = some userId) ∧ (visit.began world).store.sessions.record sid = none

inductive Visited (kept : World → Visit → Prop) (start : World) : World → Prop
  | start : Visited kept start start
  | served (world : World) (visit : Visit) (earlier : Visited kept start world) (fits : kept world visit) :
      Visited kept start (visit.serve hashtext config world)

end Visits

section Runs

variable {hashtext : Text → Int32} {config : SessionConfig}

-- Index and relations agree, and so do the records except that pending ones
-- are gone already.
structure SessionView.Pending (view : SessionView) (pending : List Text) : Prop extends view.Bound where
  gone : ∀ sid ∈ pending, view.record sid = none
  kept : ∀ sid, sid ∉ pending → view.relation sid = (view.record sid).map fun userId => ⟨userId, none⟩

theorem split_session_key (sid : Text) (named : SessionName sid) : (createSessionKey sid).splitOn ':' = ["session".toList, sid] := by
  have plain : ∀ text : Text, ':' ∉ text → text.splitOn ':' = [text] := fun text absent =>
    List.splitOnP_eq_singleton fun c member => by
      simp only [beq_eq_false_iff_ne]
      rintro rfl
      exact absent member
  have shape : createSessionKey sid = "session".toList ++ ':' :: sid := rfl
  rw [shape, List.splitOn, List.splitOnP_append_cons _ _ (by simp), ← List.splitOn, ← List.splitOn, plain _ (by decide),
    plain sid named.2]
  rfl

theorem relation_read (store : Redis) (bound : store.sessions.Bound) (sid : Text) :
    (store.live (createSessionAndUserMappingKey sid)).map RedisEntry.value = (store.sessions.relation sid).map RedisEntry.value := by
  have entry : store.strings (createSessionAndUserMappingKey sid) = store.sessions.relation sid := rfl
  unfold Redis.live
  rw [entry]
  cases found : store.sessions.relation sid with
  | none => rfl
  | some entry => simp [bound.lasting sid entry found]

theorem pending_forgotten (view : SessionView) (sid : Text) (rest : List Text) (pending : view.Pending (sid :: rest))
    (unrelated : view.relation sid = none) : view.Pending rest := by
  refine ⟨pending.toBound, fun other later => pending.gone other (List.mem_cons_of_mem _ later), fun other notLater => ?_⟩
  by_cases same : other = sid
  · subst same
    rw [unrelated, pending.gone other List.mem_cons_self]
    rfl
  · exact pending.kept other (by simp [same, notLater])

theorem pending_handled (view : SessionView) (sid userId : Text) (rest : List Text) (arranged : List Removal)
    (pending : view.Pending (sid :: rest)) (owned : view.relation sid = some ⟨userId, none⟩)
    (perm : arranged.Perm [.relation sid, .member userId sid]) : (arranged.foldl SessionView.remove view).Pending rest := by
  have ends : Ends view userId (fun other => other = sid) arranged := single_ends view userId sid arranged owned fun removal => by
    rw [perm.mem_iff, perm.mem_iff]
    simp
  have records : ∀ other, (arranged.foldl SessionView.remove view).record other = view.record other := by
    intro other
    rw [remove_record, if_neg]
    rw [perm.mem_iff]
    simp
  refine pending_forgotten _ sid rest ⟨ended_bound view userId _ arranged pending.toBound ends, fun other listed => ?_,
    fun other notListed => ?_⟩ ?_
  · rw [records]
    exact pending.gone other listed
  · have different : ¬ other = sid := fun same => notListed (by simp [same])
    rw [records, remove_relation, if_neg (mt (ends.relations other).mp different)]
    exact pending.kept other notListed
  · rw [remove_relation, if_pos ((ends.relations sid).mpr rfl)]

theorem handle_removed_pending (order : Arrangement) (sid : Text) (rest : List Text) (world : World)
    (pending : world.store.sessions.Pending (sid :: rest)) :
    Yields (engine hashtext) (SessionsEvents.handleRemovedSession order sid) world none fun _ left after =>
      after = none ∧ left.store.sessions.Pending rest := by
  refine yields_bind _ _ _ _ _ (yields_cmd (S := schema) (C := Redis.commands) _
    (RedisCmd.get (createSessionAndUserMappingKey sid)) world none _ (fun fault impossible => by cases impossible)
    fun reply store answered => ?_)
  have read : (Except.ok ((world.store.live (createSessionAndUserMappingKey sid)).map RedisEntry.value, world.store) :
      Except Fault (Option Text × Redis)) = .ok (reply, store) := answered
  rw [relation_read world.store pending.toBound] at read
  cases read
  cases found : world.store.sessions.relation sid with
  | none => exact ⟨rfl, pending_forgotten _ sid rest pending found⟩
  | some entry =>
      obtain ⟨userId, expiresAt⟩ := entry
      have forever : expiresAt = none := pending.lasting sid _ found
      subst forever
      obtain ⟨arranged, perm, promises⟩ := arranged_promises order [.relation sid, .member userId sid]
      have onward : Yields (engine hashtext) (Prog.bind (rejections (order.arrange
          [SessionsService.delete (createSessionAndUserMappingKey sid),
            SessionsService.setRem (createUserSessionsSetKey userId) sid])) fun _ => (pure () : Async Unit)) world none
          fun _ left after => after = none ∧ left.store.sessions.Pending rest := by
        have same : order.arrange [SessionsService.delete (createSessionAndUserMappingKey sid),
            SessionsService.setRem (createUserSessionsSetKey userId) sid] = arranged.map Removal.promise := promises
        rw [same]
        refine yields_bind _ _ _ _ _ (yields_mono _ _ _ _ _ (removals_yield arranged world) ?_)
        rintro result left after ⟨rfl, rfl, -, -, view⟩
        have handled := pending_handled _ sid userId rest arranged pending found perm
        rw [← view] at handled
        exact ⟨rfl, handled⟩
      exact onward

theorem expired_pending (order : Arrangement) (sid : Text) (rest : List Text) (world : World)
    (pending : world.store.sessions.Pending (sid :: rest)) (named : SessionName sid) :
    Yields (engine hashtext) (SessionsEvents.expired order (createSessionKey sid)) world none fun _ left after =>
      after = none ∧ left.store.sessions.Pending rest := by
  have session : "session".toList.isPrefixOf (createSessionKey sid) = true :=
    List.isPrefixOf_iff_prefix.mpr ⟨':' :: sid, rfl⟩
  obtain ⟨first, others, rfl⟩ := List.exists_cons_of_ne_nil named.1
  have parsed : SessionsEvents.expired order (createSessionKey (first :: others)) =
      SessionsEvents.handleRemovedSession order (first :: others) := by
    unfold SessionsEvents.expired
    rw [session, split_session_key _ named]
    rfl
  rw [parsed]
  exact handle_removed_pending order _ rest world pending

theorem publish_consistent (expired : List (Arrangement × Text)) (world : World)
    (pending : world.store.sessions.Pending (expired.map Prod.snd)) (named : ∀ sid ∈ expired.map Prod.snd, SessionName sid) :
    Yields (engine hashtext) (SessionsEvents.publish expired) world none fun _ left _ => left.store.sessions.Consistent := by
  induction expired generalizing world with
  | nil => exact ⟨pending.toBound, fun sid => pending.kept sid (by simp)⟩
  | cons event rest ih =>
      obtain ⟨order, sid⟩ := event
      refine yields_bind _ _ _ _ _ (yields_catching _ _ _ _ _ (yields_bind _ _ _ _ _ (yields_mono _ _ _ _ _
        (expired_pending order sid (rest.map Prod.snd) world pending (named sid (by simp))) ?_)))
      rintro result left after ⟨rfl, others⟩
      have onward := ih left others fun other member => named other (by simp [member])
      cases result with
      | ok value => exact onward
      | error error => exact onward

theorem load_yields (sid : Text) (world : World) :
    Yields (engine hashtext) (SessionsService.load sid) world none fun result left after =>
      result = .ok (world.store.sessions.record sid) ∧ left = world ∧ after = none := by
  refine yields_cmd (S := schema) (C := Redis.commands) _ (RedisCmd.get (createSessionKey sid)) world none _
    (fun fault impossible => by cases impossible) fun reply store answered => ?_
  cases answered
  exact ⟨rfl, rfl, rfl⟩

theorem find_account_keeps (userId : Text) : (UsersService.findOneById userId).Quiet KeepsSessions fun _ => True := by
  unfold UsersService.findOneById
  refine Prog.quiet_bind _ (fun _ => True) _ _ _ ?_ fun _ _ => ⟨trivial, fun reply => by cases reply <;> trivial⟩
  unfold UsersService.validUuidOrThrow
  split <;> trivial

theorem is_dangling_keeps (relationFirst : Bool) (userId sid : Text) :
    (SessionsService.isDangling relationFirst userId sid).Quiet KeepsSessions fun _ => True := by
  cases relationFirst <;>
    exact ⟨trivial, fun reply => by
      cases reply with
      | error fault => trivial
      | ok first => exact ⟨trivial, fun reply => by cases reply <;> trivial⟩⟩

theorem check_session_consistent (order : Arrangement) (relationFirst : Bool) (req : SessionContext) (world : World)
    (consistent : world.store.sessions.Consistent) (recorded : world.store.sessions.record req.sessionID = some req.userId) :
    Yields (engine hashtext) (AuthGuard.checkSession order relationFirst req) world none fun result left after =>
      after = none ∧ left.store.sessions.Consistent ∧
        ∀ user, result = .ok user → left.store.sessions = world.store.sessions := by
  have cleaned : ∀ left : World, SameSessions world.store left.store →
      Yields (engine hashtext) (Prog.bind (SessionsService.trySessionCleanup order req) fun _ =>
        (reject unauthorized : Async Account)) left none fun result last after =>
          after = none ∧ last.store.sessions.Consistent ∧
            ∀ user, result = .ok user → last.store.sessions = world.store.sessions := by
    intro left same
    refine yields_bind _ _ _ _ _ (yields_mono _ _ _ _ _ (cleanup_consistent order req left ?_ ?_) ?_)
    · rw [same.sessions]
      exact consistent
    · rw [same.sessions]
      exact recorded
    · rintro result last after ⟨rfl, rfl, done⟩
      exact ⟨rfl, done, fun user impossible => by cases impossible⟩
  refine yields_bind _ _ _ _ _ (yields_mono _ _ _ _ _ (keeping_yields _ _ (find_account_keeps req.userId) world) ?_)
  rintro result left after ⟨rfl, same, -⟩
  cases result with
  | error error => exact ⟨rfl, same.sessions ▸ consistent, fun user impossible => by cases impossible⟩
  | ok found =>
      cases found with
      | none => exact cleaned left same
      | some user =>
          refine yields_bind _ _ _ _ _ (yields_mono _ _ _ _ _ (keeping_yields _ _
            (is_dangling_keeps relationFirst req.userId req.sessionID) left) ?_)
          rintro result last after ⟨rfl, later, -⟩
          have through : SameSessions world.store last.store :=
            ⟨later.now.trans same.now, later.sessions.trans same.sessions⟩
          cases result with
          | error error => exact ⟨rfl, through.sessions ▸ consistent, fun user impossible => by cases impossible⟩
          | ok dangling =>
              cases dangling with
              | true => exact cleaned last through
              | false => exact ⟨rfl, through.sessions ▸ consistent, fun _ _ => through.sessions⟩

theorem can_activate_consistent (order : Arrangement) (relationFirst : Bool) (sid : Text) (world : World)
    (consistent : world.store.sessions.Consistent) :
    Yields (engine hashtext) (AuthGuard.canActivate order relationFirst sid) world none fun result left after =>
      after = none ∧ left.store.sessions.Consistent ∧
        ∀ granted, result = .ok granted → left.store.sessions.record granted.2.sessionID = some granted.2.userId := by
  refine yields_bind _ _ _ _ _ (yields_mono _ _ _ _ _ (load_yields sid world) ?_)
  rintro result left after ⟨rfl, rfl, rfl⟩
  cases found : left.store.sessions.record sid with
  | none => exact ⟨rfl, consistent, fun granted impossible => by cases impossible⟩
  | some userId =>
      refine yields_bind _ _ _ _ _ (yields_mono _ _ _ _ _ (check_session_consistent order relationFirst
        ⟨⟨sid, sid⟩, userId⟩ left consistent found) ?_)
      rintro result last after ⟨rfl, done, same⟩
      cases result with
      | error error => exact ⟨rfl, done, fun granted impossible => by cases impossible⟩
      | ok user =>
          refine ⟨rfl, done, fun granted answered => ?_⟩
          cases answered
          have kept : last.store.sessions = left.store.sessions := same user rfl
          show last.store.sessions.record sid = some userId
          rw [kept, found]

theorem authenticate_ends (email password : JsString) (world : World) :
    Yields (engine hashtext) (AuthService.authenticate config.compare email password) world none fun result left after =>
      left = world ∧ after = none ∧ result ≠ .error AuthService.maxSessionsReached ∧
        ∀ user, result = .ok user → lengthMatcher password AUTH_RULES.PASSWORD = true ∧
          world.db.answer (.findAccountByEmail (parameter email)) = some user ∧
          config.compare password user.passwordHash = true := by
  have refused : ∀ error : Err, error ≠ AuthService.maxSessionsReached →
      (world = world ∧ (none : Option (Tx schema Int32)) = none ∧
        (Except.error error : Except Err Account) ≠ .error AuthService.maxSessionsReached ∧
        ∀ user, (Except.error error : Except Err Account) = .ok user → lengthMatcher password AUTH_RULES.PASSWORD = true ∧
          world.db.answer (.findAccountByEmail (parameter email)) = some user ∧
          config.compare password user.passwordHash = true) :=
    fun error different => ⟨rfl, rfl, fun same => different (by injection same), fun user impossible => by cases impossible⟩
  refine yields_bind _ _ _ _ _ (reject_if_yields _ _ world _ (fun _ => refused _ (by decide)) fun fits => ?_)
  have long : lengthMatcher password AUTH_RULES.PASSWORD = true := by simpa using fits
  refine yields_bind _ _ _ _ _ (yields_sql (S := schema) (C := Redis.commands) _ (Sql.findAccountByEmail (parameter email))
    world _ (fun fault _ => refused _ (by simp [AuthService.maxSessionsReached])) fun _ => ?_)
  have wrong := refused AuthService.invalidCredentials (by decide)
  cases found : world.db.answer (.findAccountByEmail (parameter email)) with
  | none =>
      rw [found] at wrong
      rw [show schema.answer world.db (.findAccountByEmail (parameter email)) = none from found]
      exact wrong
  | some user =>
      rw [found] at wrong
      rw [show schema.answer world.db (.findAccountByEmail (parameter email)) = some user from found]
      refine yields_bind _ _ _ _ _ (reject_if_yields _ _ _ _ (fun _ => wrong) fun matched => ?_)
      refine ⟨rfl, rfl, fun impossible => (by cases impossible), fun other same => ?_⟩
      cases same
      exact ⟨long, rfl, by simpa using matched⟩

theorem limit_ends (userId : Text) (world : World) :
    Yields (engine hashtext) (AuthService.checkSessionLimit config.maxUserSessions userId) world none fun result left after =>
      left = world ∧ after = none ∧
        (result = .ok () ↔ (world.store.sessions.index userId).length < config.maxUserSessions) := by
  refine yields_bind _ _ _ _ _ (yields_cmd (S := schema) (C := Redis.commands) _
    (RedisCmd.setSize (createUserSessionsSetKey userId)) world none _ (fun fault impossible => by cases impossible)
    fun reply store answered => ?_)
  cases answered
  have size : (world.store.sets (createUserSessionsSetKey userId)).length = (world.store.sessions.index userId).length := rfl
  refine reject_if_yields _ _ _ _ (fun full => ⟨rfl, rfl, ?_⟩) fun room => ⟨rfl, rfl, ?_⟩
  · have reached : config.maxUserSessions ≤ (world.store.sessions.index userId).length := by simpa [size] using full
    exact iff_of_false (fun impossible => by cases impossible) (by omega)
  · have below : ¬ config.maxUserSessions ≤ (world.store.sessions.index userId).length := by simpa [size] using room
    exact iff_of_true rfl (by omega)

theorem create_account_yields (columns : SignUpInput) (row : Generated) (world : World)
    (post : Except Err Account → World → Option (Tx schema Int32) → Prop) (failed : ∀ error, post (.error error) world none)
    (created : [columns.username, columns.email, columns.passwordHash].any hasNul = false →
      accountChecks config.lower columns = true → usernameOrEmailTaken world.db row columns = false →
      post (.ok (pendingAccount columns row)) ⟨world.db.apply (.insertAccount (pendingAccount columns row)), world.store⟩ none) :
    Yields (engine hashtext) (createAccount config.lower columns row) world none post := by
  unfold createAccount
  split
  · exact failed _
  · rename_i clean
    split
    · exact failed _
    · rename_i checked
      exact create_one_yields columns row world post (fun _ => failed _) fun free =>
        created (by simpa using clean) (by simpa using checked) free

theorem reauthenticate_keeps (userId : Text) (password : JsString) :
    (AuthService.reauthenticate config.compare userId password).Quiet KeepsSessions fun _ => True := by
  refine Prog.quiet_bind _ (fun _ => True) _ _ _ (reject_if_reading _ _ _) fun _ _ => ?_
  refine Prog.quiet_bind _ (fun _ => True) _ _ _ ?_ fun user _ => reject_if_reading _ _ _
  refine Prog.quiet_bind _ (fun _ => True) _ _ _ (find_account_keeps userId) fun found _ => ?_
  cases found <;> trivial

theorem reading_keeps (s : Api.Stmt) (reading : Reading s) : KeepsSessions s := by
  rcases reading with rfl | ⟨key, rfl⟩ <;> trivial

theorem exists_or_throw_eq (id : Text) : UsersService.existsOrThrow id =
    Prog.bind (UsersService.findOneById id) fun found => if found.isSome then pure () else reject userNotFound := by
  refine Eq.trans ?_ (Prog.bind_assoc _ _ _).symm
  refine congrArg (Prog.bind _) (funext fun valid => congrArg (Prog.bind _) (funext fun found => ?_))
  cases found <;> rfl

theorem link_keeps (opts : TokensFeatureOptions) (token : Token) :
    (do
      let payload ← AuthService.verifyTokenOrThrow opts token
      UsersService.existsOrThrow payload.id
      TokensService.blacklist (orUndefined payload.jti) payload.exp
      pure payload : Async JwtPayload).Quiet KeepsSessions fun _ => True := by
  refine Prog.quiet_bind _ (fun _ => True) _ _ _ ?_ fun payload _ => ?_
  · refine Prog.quiet_catching _ _ _ _ (Prog.quiet_wider _ _ _ _ (verify_reading opts token) reading_keeps) fun error => ?_
    cases error <;> trivial
  · refine Prog.quiet_bind _ (fun _ => True) _ _ _ ?_ fun user _ => ?_
    · rw [exists_or_throw_eq]
      refine Prog.quiet_bind _ (fun _ => True) _ _ _ (find_account_keeps payload.id) fun found _ => ?_
      cases found <;> trivial
    · refine Prog.quiet_bind _ (fun _ => True) _ _ _ ?_ fun _ _ => trivial
      refine Prog.quiet_bind _ (fun _ => True) _ _ _ ⟨trivial, fun reply => by cases reply <;> trivial⟩ fun now _ => ?_
      exact ⟨⟨_, rfl⟩, fun reply => by cases reply <;> trivial⟩

theorem sign_up_consistent (columns : SignUpInput) (row : Generated) (req : RequestContext) (world : World)
    (consistent : world.store.sessions.Consistent)
    (unaccompanied : (Visit.signUp columns row req).Unaccompanied config world)
    (named : SessionName req.regenerated) (fresh : world.store.sessions.record req.regenerated = none) :
    Yields (engine hashtext) ((Visit.signUp columns row req).program config) world none fun _ left _ =>
      left.store.sessions.Consistent := by
  refine yields_bind _ _ _ _ _ (create_account_yields columns row world _ (fun _ => consistent) fun clean checked free => ?_)
  have absent : world.store.sessions.record req.sessionID = none := unaccompanied req rfl ⟨clean, checked, free⟩
  refine yields_bind _ _ _ _ _ (yields_mono _ _ _ _ _ (create_yields_view req (pendingAccount columns row).id.text
    ⟨world.db.apply (.insertAccount (pendingAccount columns row)), world.store⟩ absent) ?_)
  rintro result left after ⟨rfl, rfl, created⟩
  exact establish_consistent req _ config.ttlSeconds config.lasting _ left consistent named fresh created

theorem sign_in_consistent (email password : JsString) (req : RequestContext) (world : World)
    (consistent : world.store.sessions.Consistent)
    (unaccompanied : (Visit.signIn email password req).Unaccompanied config world)
    (named : SessionName req.regenerated) (fresh : world.store.sessions.record req.regenerated = none) :
    Yields (engine hashtext) ((Visit.signIn email password req).program config) world none fun _ left _ =>
      left.store.sessions.Consistent := by
  refine yields_bind _ _ _ _ _ (yields_bind _ _ _ _ _ (yields_mono _ _ _ _ _ (authenticate_ends email password world) ?_))
  rintro result left after ⟨rfl, rfl, -, known⟩
  cases result with
  | error error => exact consistent
  | ok user =>
      obtain ⟨fits, found, matched⟩ := known user rfl
      refine yields_bind _ _ _ _ _ (yields_mono _ _ _ _ _ (limit_ends user.id.text left) ?_)
      rintro result next after ⟨rfl, rfl, room⟩
      cases result with
      | error error => exact consistent
      | ok admitted =>
          have absent : next.store.sessions.record req.sessionID = none :=
            unaccompanied req rfl ⟨fits, user, found, matched, room.mp rfl⟩
          refine yields_bind _ _ _ _ _ (yields_mono _ _ _ _ _ (create_yields_view req user.id.text next absent) ?_)
          rintro result last after ⟨rfl, rfl, created⟩
          exact establish_consistent req _ config.ttlSeconds config.lasting _ last consistent named fresh created

theorem sign_out_all_public_eq (opts : TokensFeatureOptions) (order : Arrangement) (token : Token) :
    AuthService.signOutAllPublic opts order token = Prog.bind (do
      let payload ← AuthService.verifyTokenOrThrow opts token
      UsersService.existsOrThrow payload.id
      TokensService.blacklist (orUndefined payload.jti) payload.exp
      pure payload : Async JwtPayload) fun payload => SessionsService.deleteAllIn order payload.id := by
  refine Eq.trans ?_ (Prog.bind_assoc _ _ _).symm
  refine congrArg (Prog.bind _) (funext fun payload => ?_)
  refine Eq.trans ?_ (Prog.bind_assoc _ _ _).symm
  refine congrArg (Prog.bind _) (funext fun user => ?_)
  exact (Prog.bind_assoc (TokensService.blacklist (orUndefined payload.jti) payload.exp)
    (fun _ => (Prog.done payload : Async JwtPayload)) fun payload => SessionsService.deleteAllIn order payload.id).symm

theorem link_consistent (order : Arrangement) (token : Token) (world : World) (consistent : world.store.sessions.Consistent) :
    Yields (engine hashtext) ((Visit.signOutAllPublic order token).program config) world none fun _ left _ =>
      left.store.sessions.Consistent := by
  have served : Yields (engine hashtext) (AuthService.signOutAllPublic config.signOutAllToken order token) world none
      fun _ left _ => left.store.sessions.Consistent := by
    rw [sign_out_all_public_eq]
    refine yields_bind _ _ _ _ _ (yields_mono _ _ _ _ _ (keeping_yields _ _ (link_keeps config.signOutAllToken token) world) ?_)
    rintro result left after ⟨rfl, same, -⟩
    have kept : left.store.sessions.Consistent := same.sessions ▸ consistent
    cases result with
    | error error => exact kept
    | ok payload =>
        exact yields_mono _ _ _ _ _ (delete_all_consistent order payload.id left kept) fun _ _ _ done => done.2
  refine yields_bind _ _ _ _ _ (yields_mono _ _ _ _ _ served fun result left after done => ?_)
  cases result <;> exact done

theorem touch_consistent (sid : Text) (world : World) (consistent : world.store.sessions.Consistent) :
    Yields (engine hashtext) ((Visit.touch sid).program config) world none fun _ left _ => left.store.sessions.Consistent := by
  refine yields_bind _ _ _ _ _ (yields_mono _ _ _ _ _ (load_yields sid world) ?_)
  rintro result left after ⟨rfl, rfl, rfl⟩
  cases found : left.store.sessions.record sid with
  | none => exact consistent
  | some userId =>
      refine yields_mono _ _ _ _ _ (save_yields_record sid userId config.ttlSeconds config.lasting left) ?_
      rintro result last after ⟨-, saved⟩
      rw [saved, ← found, Function.update_eq_self]
      exact consistent

theorem live_later (store : Redis) (elapsed : Nat) (key : Text) :
    Redis.live { store with now := store.now + elapsed } key = none ∨
      Redis.live { store with now := store.now + elapsed } key = store.live key := by
  unfold Redis.live
  cases store.strings key with
  | none => exact .inl rfl
  | some entry =>
      obtain ⟨value, expiresAt⟩ := entry
      cases expiresAt with
      | none => exact .inr rfl
      | some time =>
          by_cases alive : store.now + elapsed < time
          · have before : store.now < time := by omega
            exact .inr (by simp only [Option.filter_some, alive, before, decide_true])
          · exact .inl (by simp [alive])

theorem record_later (visit : Visit) (world : World) (sid : Text) :
    (visit.began world).store.sessions.record sid = none ∨
      (visit.began world).store.sessions.record sid = world.store.sessions.record sid := by
  rcases live_later world.store visit.milliseconds (createSessionKey sid) with gone | same
  · exact .inl (congrArg (Option.map RedisEntry.value) gone)
  · exact .inr (congrArg (Option.map RedisEntry.value) same)

theorem elapsed_pending (milliseconds : Nat) (expired : List (Arrangement × Text)) (world : World)
    (consistent : world.store.sessions.Consistent) (delivered : (Visit.elapse milliseconds expired).Delivered world) :
    ((Visit.elapse milliseconds expired).began world).store.sessions.Pending (expired.map Prod.snd) := by
  have published := delivered.2 milliseconds expired rfl
  refine ⟨⟨consistent.nodup, consistent.related, consistent.lasting, consistent.named⟩, fun sid member => ?_, fun sid absent => ?_⟩
  · exact ((published sid).mp member).2
  · have relation : ((Visit.elapse milliseconds expired).began world).store.sessions.relation sid =
        world.store.sessions.relation sid := rfl
    rw [relation, consistent.recorded]
    rcases record_later (.elapse milliseconds expired) world sid with gone | same
    · cases before : world.store.sessions.record sid with
      | none => rw [gone]
      | some userId => exact absurd ((published sid).mpr ⟨⟨userId, before⟩, gone⟩) absent
    · rw [same]

theorem began_at_once (visit : Visit) (world : World) (at_once : visit.milliseconds = 0) : visit.began world = world := by
  simp only [Visit.began, at_once, Nat.cast_zero, add_zero]
  rfl

theorem serve_consistent (visit : Visit) (world : World) (consistent : world.store.sessions.Consistent)
    (unaccompanied : visit.Unaccompanied config world) (delivered : visit.Delivered world) :
    (visit.serve hashtext config world).store.sessions.Consistent := by
  have whole : Yields (engine hashtext) (visit.program config) (visit.began world) none fun _ left _ =>
      left.store.sessions.Consistent := by
    cases visit with
    | signUp columns row req =>
        rw [began_at_once _ world rfl]
        exact sign_up_consistent columns row req world consistent unaccompanied (delivered.1 req rfl).1 (delivered.1 req rfl).2
    | signIn email password req =>
        rw [began_at_once _ world rfl]
        exact sign_in_consistent email password req world consistent unaccompanied (delivered.1 req rfl).1 (delivered.1 req rfl).2
    | signOut guard order relationFirst sid =>
        rw [began_at_once _ world rfl]
        refine yields_bind _ _ _ _ _ (yields_mono _ _ _ _ _ (can_activate_consistent guard relationFirst sid world consistent) ?_)
        rintro result left after ⟨rfl, kept, recorded⟩
        cases result with
        | error error => exact kept
        | ok granted =>
            exact yields_mono _ _ _ _ _ (destroy_consistent order granted.2 left kept (recorded granted rfl)) fun _ _ _ done => done.2
    | signOutAll guard order relationFirst destroyedFirst sid password =>
        rw [began_at_once _ world rfl]
        refine yields_bind _ _ _ _ _ (yields_mono _ _ _ _ _ (can_activate_consistent guard relationFirst sid world consistent) ?_)
        rintro result left after ⟨rfl, kept, recorded⟩
        cases result with
        | error error => exact kept
        | ok granted =>
            refine yields_bind _ _ _ _ _ (yields_mono _ _ _ _ _
              (keeping_yields _ _ (reauthenticate_keeps granted.2.userId password) left) ?_)
            rintro result next after ⟨rfl, same, -⟩
            have through : next.store.sessions.Consistent := same.sessions ▸ kept
            cases result with
            | error error => exact through
            | ok confirmed =>
                refine yields_bind _ _ _ _ _ (yields_mono _ _ _ _ _ (destroy_all_consistent order destroyedFirst granted.2 next
                  through (by rw [same.sessions]; exact recorded granted rfl)) fun result last after done => ?_)
                cases result <;> exact done.2
    | signOutAllPublic order token =>
        rw [began_at_once _ world rfl]
        exact link_consistent order token world consistent
    | guarded guard relationFirst sid =>
        rw [began_at_once _ world rfl]
        refine yields_bind _ _ _ _ _ (yields_mono _ _ _ _ _ (can_activate_consistent guard relationFirst sid world consistent)
          fun result left after done => ?_)
        cases result <;> exact done.2.1
    | touch sid =>
        rw [began_at_once _ world rfl]
        exact touch_consistent sid world consistent
    | elapse milliseconds expired =>
        have pending := elapsed_pending milliseconds expired world consistent delivered
        refine publish_consistent expired _ pending fun sid member => ?_
        obtain ⟨⟨userId, recorded⟩, -⟩ := (delivered.2 milliseconds expired rfl sid).mp member
        exact consistent.named sid ⟨userId, none⟩ (by rw [consistent.recorded, recorded]; rfl)
  exact whole

theorem visited_consistent (start world : World) (empty : start.store.sessions = ⟨fun _ => none, fun _ => none, fun _ => []⟩)
    (visited : Visited hashtext config (fun world visit => visit.Unaccompanied config world ∧ visit.Delivered world) start world) :
    world.store.sessions.Consistent := by
  induction visited with
  | start =>
      rw [empty]
      exact ⟨⟨fun _ => List.nodup_nil, fun _ _ => by simp, fun _ _ impossible => (by cases impossible),
        fun _ _ impossible => (by cases impossible)⟩, fun _ => rfl⟩
  | served world visit earlier fits ih => exact serve_consistent visit world ih fits.1 fits.2

theorem consistent_counts (store : Redis) (consistent : store.sessions.Consistent) (userId : Text) :
    {sid | store.sessions.record sid = some userId}.Finite ∧
      (store.sessions.index userId).length = {sid | store.sessions.record sid = some userId}.ncard := by
  have same : {sid | store.sessions.record sid = some userId} = ↑(store.sessions.index userId).toFinset := by
    ext sid
    simp only [Set.mem_ofPred_eq, List.coe_toFinset, consistent.related, consistent.recorded]
    cases store.sessions.record sid with
    | none => simp
    | some owner => simp
  rw [same, Set.ncard_coe_finset, List.toFinset_card_of_nodup (consistent.nodup userId)]
  exact ⟨Finset.finite_toSet _, rfl⟩

theorem sign_in_refused (email password : JsString) (req : RequestContext) (world : World) :
    Yields (engine hashtext) (AuthService.signIn config.compare config.maxUserSessions email password req) world none
      fun result _ _ => result = .error AuthService.maxSessionsReached →
        ∃ user, world.db.answer (.findAccountByEmail (parameter email)) = some user ∧
          config.maxUserSessions ≤ (world.store.sessions.index user.id.text).length := by
  refine yields_bind _ _ _ _ _ (yields_mono _ _ _ _ _ (authenticate_ends email password world) ?_)
  rintro result left after ⟨rfl, rfl, other, known⟩
  cases result with
  | error error => exact fun same => absurd same other
  | ok user =>
      obtain ⟨-, found, -⟩ := known user rfl
      refine yields_bind _ _ _ _ _ (yields_mono _ _ _ _ _ (limit_ends user.id.text left) ?_)
      rintro result next after ⟨rfl, rfl, room⟩
      cases result with
      | error error =>
          refine fun _ => ⟨user, found, Nat.le_of_not_lt fun below => ?_⟩
          cases room.mpr below
      | ok admitted =>
          refine yields_bind _ _ _ _ _ (yields_mono _ _ _ _ _ (session_yields req user.id.text next) ?_)
          rintro result last after ⟨rfl, -, -⟩
          exact fun impossible => by cases impossible

end Runs

-- regenerate drops the record of the session that a request comes with, not its
-- entry in the index.
theorem session_counts_exact (hashtext : Text → Int32) (config : SessionConfig) (start world : World)
    (empty : start.store.sessions = ⟨fun _ => none, fun _ => none, fun _ => []⟩)
    (visited : Visited hashtext config (fun world visit => visit.Unaccompanied config world ∧ visit.Delivered world) start world) :
    (∀ userId, {sid | world.store.sessions.record sid = some userId}.Finite ∧
      ((SessionsService.count userId).solo (engine hashtext) world none).1 =
        .ok {sid | world.store.sessions.record sid = some userId}.ncard) ∧
      ∀ email password req, ((AuthService.signIn config.compare config.maxUserSessions email password req).solo
          (engine hashtext) world none).1 = .error AuthService.maxSessionsReached →
        ∃ user, world.db.answer (.findAccountByEmail (parameter email)) = some user ∧
          config.maxUserSessions ≤ {sid | world.store.sessions.record sid = some user.id.text}.ncard := by
  have consistent := visited_consistent start world empty visited
  refine ⟨fun userId => ?_, fun email password req refused => ?_⟩
  · obtain ⟨finite, size⟩ := consistent_counts world.store consistent userId
    refine ⟨finite, ?_⟩
    rw [← size]
    rfl
  · obtain ⟨user, found, full⟩ := @sign_in_refused hashtext config email password req world refused
    refine ⟨user, found, ?_⟩
    rw [← (consistent_counts world.store consistent user.id.text).2]
    exact full

def annColumns : SignUpInput := ⟨"ann".toList, "ann@mail.com".toList, parameter annPassword⟩

def twoSessions : SessionConfig where
  compare := plainCompare
  lower := id
  signOutAllToken := ⟨[], 3600, .signOutAll, ["id"]⟩
  maxUserSessions := 2
  ttlSeconds := 60
  lasting := by decide

def annJoins : Visit := .signUp annColumns annVersion ⟨"s0".toList, "s1".toList⟩

def annReturns : Visit := .signIn annMail annPassword ⟨"s1".toList, "s2".toList⟩

def annJoined : World := annJoins.serve (fun _ => 0) twoSessions nobody

def annReturned : World := annReturns.serve (fun _ => 0) twoSessions annJoined

theorem ann_joins_delivered : annJoins.Delivered nobody := by
  refine ⟨fun req same => ?_, fun _ _ impossible => by cases impossible⟩
  cases same
  exact ⟨⟨by decide, by decide⟩, rfl⟩

theorem session_counts_exact_ann :
    {sid | annJoined.store.sessions.record sid = some annVersion.id.text}.ncard = 1 := by
  have visited : Visited (fun _ => 0) twoSessions (fun world visit => visit.Unaccompanied twoSessions world ∧ visit.Delivered world)
      nobody annJoined := by
    refine .served nobody annJoins .start ⟨fun req same _ => ?_, ann_joins_delivered⟩
    cases same
    rfl
  have counted := ((session_counts_exact (fun _ => 0) twoSessions nobody annJoined rfl visited).1 annVersion.id.text).2
  have one : ((SessionsService.count annVersion.id.text).solo (engine fun _ => 0) annJoined none).1 = .ok 1 := by decide
  rw [one] at counted
  injection counted with same
  exact same.symm

-- A sign-in with a live cookie leaves the old session in the index: with one
-- live session of two the next sign-in is refused.
theorem rotation_keeps_member :
    annJoins.Delivered nobody ∧ annReturns.Delivered annJoined ∧
      {sid | annReturned.store.sessions.record sid = some annVersion.id.text}.ncard = 1 ∧
      ((SessionsService.count annVersion.id.text).solo (engine fun _ => 0) annReturned none).1 = .ok 2 ∧
      ((AuthService.signIn plainCompare 2 annMail annPassword ⟨"s9".toList, "s3".toList⟩).solo
        (engine fun _ => 0) annReturned none).1 = .error AuthService.maxSessionsReached := by
  refine ⟨ann_joins_delivered, ⟨fun req same => ?_, fun _ _ impossible => by cases impossible⟩, ?_, by decide, by decide⟩
  · cases same
    exact ⟨⟨by decide, by decide⟩, rfl⟩
  · have only : {sid | annReturned.store.sessions.record sid = some annVersion.id.text} = {"s2".toList} := by
      have strings : annReturned.store.strings = Function.update (Function.update (Function.update (Function.update
          (Function.update (Function.update (fun _ => none) (createSessionKey "s0".toList) none)
            (createSessionAndUserMappingKey "s1".toList) (some ⟨annVersion.id.text, none⟩))
            (createSessionKey "s1".toList) (some ⟨annVersion.id.text, some 60000⟩))
            (createSessionKey "s1".toList) none)
            (createSessionAndUserMappingKey "s2".toList) (some ⟨annVersion.id.text, none⟩))
            (createSessionKey "s2".toList) (some ⟨annVersion.id.text, some 60000⟩) := rfl
      ext sid
      rw [Set.mem_ofPred_eq, Set.mem_singleton_iff]
      by_cases newest : sid = "s2".toList
      · subst newest
        exact iff_of_true rfl rfl
      · have absent : annReturned.store.strings (createSessionKey sid) = none := by
          rw [strings, Function.update_of_ne (session_key_injective.ne newest),
            Function.update_of_ne (session_relation_keys sid _)]
          by_cases old : sid = "s1".toList
          · rw [old, Function.update_self]
          · rw [Function.update_of_ne (session_key_injective.ne old), Function.update_of_ne (session_key_injective.ne old),
              Function.update_of_ne (session_relation_keys sid _)]
            by_cases oldest : sid = "s0".toList
            · rw [oldest, Function.update_self]
            · rw [Function.update_of_ne (session_key_injective.ne oldest)]
        have unrecorded : annReturned.store.sessions.record sid = none := by
          show (Option.filter _ (annReturned.store.strings (createSessionKey sid))).map RedisEntry.value = none
          rw [absent]
          rfl
        rw [unrecorded]
        exact iff_of_false (fun impossible => by cases impossible) newest
    rw [only, Set.ncard_singleton]

end RateWise
