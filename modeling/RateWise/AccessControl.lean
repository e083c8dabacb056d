import RateWise.SessionHistory

set_option autoImplicit false

namespace RateWise

open Interleave
open ReadCommitted

-- What decorators have set under one key on a handler and on its class.
structure Metadata (α : Type) where
  handler : Option α
  controller : Option α
deriving DecidableEq

namespace Reflector

def get {α : Type} (key : Metadata α) : Option α := key.handler

def getAllAndOverride {α : Type} (key : Metadata α) : Option α :=
  match key.handler with
  | some value => some value
  | none => key.controller

end Reflector

-- Of the value of the Public decorator only its truth is ever asked.
structure HandlerMetadata where
  isPublic : Metadata Bool
  accountStatus : Metadata (List AccountStatus)
  roles : Metadata (List UserRole)
deriving DecidableEq

inductive ContextType where
  | http
  | graphql
deriving DecidableEq

-- req.session, with the user id that a sign-in has left in it.
structure RequestSession where
  id : Text
  userId : Option Text
deriving DecidableEq

def ofExcept {α : Type} : Except Err α → Async α
  | .ok value => pure value
  | .error error => reject error

def accountIsNotActive : Err := .gql .forbidden "Account not active. Please verify your email."

def authenticatedUser (user : Account) : AuthenticatedUser := ⟨user.id, user.email, user.username, user.status, user.roles⟩

namespace AuthGuard

def isPublic (handler : HandlerMetadata) : Bool := (Reflector.get handler.isPublic).getD false

def signedIn : Option RequestSession → Option SessionContext
  | none => none
  | some session => match session.userId with
    | none => none
    | some [] => none
    | some userId => some ⟨⟨session.id, session.id⟩, userId⟩

-- The user that the guard leaves in the request, none for a public handler.
def canActivateHandler (order : Arrangement) (relationFirst : Bool) (context : ContextType) (handler : HandlerMetadata)
    (session : Option RequestSession) : Async (Option AuthenticatedUser) :=
  if isPublic handler then pure none
  else if context ≠ .graphql then reject .internalServerError
  else match signedIn session with
    | none => reject unauthorized
    | some req => do
        let user ← checkSession order relationFirst req
        pure (some (authenticatedUser user))

end AuthGuard

namespace AccountStatusGuard

def isPublic (handler : HandlerMetadata) : Bool := (Reflector.getAllAndOverride handler.isPublic).getD false

def refusal : AccountStatus → Option Err
  | .pendingVerification => some accountIsNotActive
  | .suspended => some accountIsSuspended
  | .active => none

-- Without a user in the request, reading its status throws a TypeError.
def canActivate (context : ContextType) (handler : HandlerMetadata) (user : Option AuthenticatedUser) : Except Err Unit :=
  if isPublic handler then .ok ()
  else if context ≠ .graphql then .error .internalServerError
  else match Reflector.getAllAndOverride handler.accountStatus, user with
    | none, _ => .error .internalServerError
    | some _, none => .error .internalServerError
    | some allowedStatuses, some user =>
        if allowedStatuses.contains user.status then .ok ()
        else match refusal user.status with
          | some error => .error error
          | none => .ok ()

end AccountStatusGuard

namespace RolesGuard

def isPublic (handler : HandlerMetadata) : Bool := (Reflector.getAllAndOverride handler.isPublic).getD false

def canActivate (context : ContextType) (handler : HandlerMetadata) (user : Option AuthenticatedUser) : Except Err Unit :=
  if isPublic handler then .ok ()
  else if context ≠ .graphql then .error .internalServerError
  else match Reflector.getAllAndOverride handler.roles, user with
    | none, _ => .error .internalServerError
    | some _, none => .error .internalServerError
    | some requiredRoles, some user =>
        if requiredRoles.any fun role => user.roles.contains role then .ok () else .error forbidden

end RolesGuard

-- AuthGuard, AccountStatusGuard and RolesGuard in the order of their providers.
def accessGuards (order : Arrangement) (relationFirst : Bool) (context : ContextType) (handler : HandlerMetadata)
    (session : Option RequestSession) : Async Unit := do
  let user ← AuthGuard.canActivateHandler order relationFirst context handler session
  ofExcept (AccountStatusGuard.canActivate context handler user)
  ofExcept (RolesGuard.canActivate context handler user)

def Reaches (hashtext : Text → Int32) (order : Arrangement) (relationFirst : Bool) (handler : HandlerMetadata)
    (session : Option RequestSession) (world : World) : Prop :=
  ((accessGuards order relationFirst .graphql handler session).solo (engine hashtext) world none).1 = .ok ()

-- The session names the account, and Redis has the session in the index of
-- that user and has its user relation.
structure Grants (world : World) (req : SessionContext) (user : Account) : Prop where
  stored : user ∈ world.db.accounts
  valid : validUUID req.userId = true
  named : uuidIn req.userId = some user.id
  indexed : req.sessionID ∈ world.store.sets (createUserSessionsSetKey req.userId)
  related : world.store.live (createSessionAndUserMappingKey req.sessionID) ≠ none

def Names (world : World) (session : Option RequestSession) (user : Account) : Prop :=
  ∃ req, AuthGuard.signedIn session = some req ∧ Grants world req user

def Public (handler : HandlerMetadata) : Prop := Reflector.getAllAndOverride handler.isPublic = some true

def Permitted (handler : HandlerMetadata) (session : Option RequestSession) (world : World) : Prop :=
  Public handler ∨ ∃ user, Names world session user ∧
    (∃ statuses, Reflector.getAllAndOverride handler.accountStatus = some statuses ∧ user.status ∈ statuses) ∧
    ∃ roles, Reflector.getAllAndOverride handler.roles = some roles ∧ ∃ role ∈ roles, role ∈ user.roles

structure ExactAccess (hashtext : Text → Int32) (order : Arrangement) (relationFirst : Bool) (handler : HandlerMetadata)
    (session : Option RequestSession) (world : World) : Prop where
  reaches : Reaches hashtext order relationFirst handler session world ↔ Permitted handler session world
  unspecified : ¬ Public handler → (Reflector.getAllAndOverride handler.accountStatus = none ∨
    Reflector.getAllAndOverride handler.roles = none) → ¬ Reaches hashtext order relationFirst handler session world
  agree : AuthGuard.isPublic handler = AccountStatusGuard.isPublic handler ∧
    AccountStatusGuard.isPublic handler = RolesGuard.isPublic handler

def PublicByClass (handler : HandlerMetadata) : Prop := handler.isPublic = ⟨none, some true⟩

-- An active user with a required role, on a handler that is not for active users.
def ActiveSlips (handler : HandlerMetadata) (session : Option RequestSession) (world : World) : Prop :=
  ¬ Public handler ∧ ∃ user, Names world session user ∧ user.status = .active ∧
    (∃ statuses, Reflector.getAllAndOverride handler.accountStatus = some statuses ∧ .active ∉ statuses) ∧
    ∃ roles, Reflector.getAllAndOverride handler.roles = some roles ∧ ∃ role ∈ roles, role ∈ user.roles

section Guards

variable {hashtext : Text → Int32}

theorem dangling_yields (relationFirst : Bool) (userId sessId : Text) (world : World) :
    Yields (engine hashtext) (SessionsService.isDangling relationFirst userId sessId) world none fun result left after =>
      left = world ∧ after = none ∧ result = .ok (!(world.store.sets (createUserSessionsSetKey userId)).contains sessId ||
        ((world.store.live (createSessionAndUserMappingKey sessId)).map RedisEntry.value).isNone) := by
  cases relationFirst <;> exact ⟨rfl, rfl, rfl⟩

theorem cleanup_refuses (order : Arrangement) (req : SessionContext) (world left : World)
    (denied : ∀ user, ¬ Grants world req user) :
    Yields (engine hashtext) (Prog.bind (SessionsService.trySessionCleanup order req) fun _ =>
      (reject unauthorized : Async Account)) left none fun result _ _ => ∀ user, result = .ok user ↔ Grants world req user := by
  refine yields_bind _ _ _ _ _ ?_
  unfold Yields
  cases (Prog.solo (engine hashtext) (SessionsService.trySessionCleanup order req) left none).1 with
  | ok value => exact fun user => iff_of_false (fun impossible => by cases impossible) (denied user)
  | error error => exact fun user => iff_of_false (fun impossible => by cases impossible) (denied user)

theorem check_session_yields (order : Arrangement) (relationFirst : Bool) (req : SessionContext) (world : World)
    (ids : AccountIds world.db) :
    Yields (engine hashtext) (AuthGuard.checkSession order relationFirst req) world none fun result _ _ =>
      ∀ user, result = .ok user ↔ Grants world req user := by
  by_cases valid : validUUID req.userId = true
  · have lookup : UsersService.findOneById req.userId = sql (.findAccount req.userId) := by
      simp only [UsersService.findOneById, UsersService.validUuidOrThrow, valid]
      rfl
    simp only [AuthGuard.checkSession, lookup]
    refine yields_bind _ _ _ _ _ (yields_sql (S := schema) (C := Redis.commands) _ (Sql.findAccount req.userId) world _
      (fun fault refused => ?_) fun _ => ?_)
    · obtain ⟨id, parsed⟩ := valid_uuid_parses req.userId valid
      simp [Tables.refuses, Sql.uuids, Tables.attempts, parsed] at refused
    · cases answer : world.db.answer (.findAccount req.userId) with
      | none =>
          rw [show schema.answer world.db (.findAccount req.userId) = none from answer]
          exact cleanup_refuses order req world _ fun user granted =>
            not_found_account world.db req.userId answer user granted.stored granted.named
      | some user =>
          rw [show schema.answer world.db (.findAccount req.userId) = some user from answer]
          obtain ⟨stored, named⟩ := found_account world.db req.userId user answer
          have only : ∀ other, Grants world req other → other = user := by
            intro other granted
            have same : some other.id = some user.id := granted.named.symm.trans named
            exact same_account world.db ids other user granted.stored stored (Option.some.inj same)
          refine yields_bind _ _ _ _ _ (yields_mono _ _ _ _ _ (dangling_yields relationFirst req.userId req.sessionID _) ?_)
          rintro result left after ⟨rfl, rfl, rfl⟩
          by_cases indexed : req.sessionID ∈ world.store.sets (createUserSessionsSetKey req.userId)
          · cases related : world.store.live (createSessionAndUserMappingKey req.sessionID) with
            | none =>
                simp only [Option.map_none, Option.isNone_none, Bool.or_true]
                exact cleanup_refuses order req world _ fun other granted => granted.related related
            | some entry =>
                have listed : (world.store.sets (createUserSessionsSetKey req.userId)).contains req.sessionID = true := by
                  simpa using indexed
                simp only [listed, Option.map_some, Option.isNone_some, Bool.not_true, Bool.or_false]
                intro other
                constructor
                · intro same
                  cases same
                  exact ⟨stored, valid, named, indexed, by rw [related]; simp⟩
                · intro granted
                  rw [only other granted]
                  rfl
          · have missing : (world.store.sets (createUserSessionsSetKey req.userId)).contains req.sessionID = false := by
              simpa using indexed
            simp only [missing, Bool.not_false, Bool.true_or]
            exact cleanup_refuses order req world _ fun other granted => indexed granted.indexed
  · have refused : UsersService.findOneById req.userId = reject userNotFound := by
      simp only [UsersService.findOneById, UsersService.validUuidOrThrow, valid]
      rfl
    simp only [AuthGuard.checkSession, refused]
    exact fun user => iff_of_false (fun impossible => by cases impossible) fun granted => valid granted.valid

theorem guards_yield (order : Arrangement) (relationFirst : Bool) (handler : HandlerMetadata) (session : Option RequestSession)
    (world : World) (ids : AccountIds world.db) (closed : AuthGuard.isPublic handler = false) :
    Reaches hashtext order relationFirst handler session world ↔ ∃ user, Names world session user ∧
      AccountStatusGuard.canActivate .graphql handler (some (authenticatedUser user)) = .ok () ∧
      RolesGuard.canActivate .graphql handler (some (authenticatedUser user)) = .ok () := by
  have whole : Yields (engine hashtext) (accessGuards order relationFirst .graphql handler session) world none fun result _ _ =>
      result = .ok () ↔ ∃ user, Names world session user ∧
        AccountStatusGuard.canActivate .graphql handler (some (authenticatedUser user)) = .ok () ∧
        RolesGuard.canActivate .graphql handler (some (authenticatedUser user)) = .ok () := by
    simp only [accessGuards, AuthGuard.canActivateHandler, closed]
    cases signed : AuthGuard.signedIn session with
    | none =>
        refine iff_of_false (fun impossible => by cases impossible) ?_
        rintro ⟨user, ⟨req, same, -⟩, -⟩
        rw [signed] at same
        cases same
    | some req =>
        refine yields_bind _ _ _ _ _ (yields_bind _ _ _ _ _ (yields_mono _ _ _ _ _
          (check_session_yields order relationFirst req world ids) ?_))
        intro result left after granted
        cases result with
        | error error =>
            refine iff_of_false (fun impossible => by cases impossible) ?_
            rintro ⟨user, ⟨other, same, names⟩, -⟩
            rw [signed] at same
            cases same
            cases (granted user).mpr names
        | ok user =>
            have only : ∀ other, Names world session other ↔ other = user := by
              intro other
              constructor
              · rintro ⟨other, same, names⟩
                rw [signed] at same
                cases same
                exact (Except.ok.inj ((granted _).mpr names)).symm
              · rintro rfl
                exact ⟨req, signed, (granted _).mp rfl⟩
            simp only [only, exists_eq_left]
            show Yields (engine hashtext)
              (Prog.bind (ofExcept (AccountStatusGuard.canActivate .graphql handler (some (authenticatedUser user)))) fun _ =>
                ofExcept (RolesGuard.canActivate .graphql handler (some (authenticatedUser user)))) left after
              fun result _ _ => result = .ok () ↔
                AccountStatusGuard.canActivate .graphql handler (some (authenticatedUser user)) = .ok () ∧
                  RolesGuard.canActivate .graphql handler (some (authenticatedUser user)) = .ok ()
            cases AccountStatusGuard.canActivate .graphql handler (some (authenticatedUser user)) with
            | error error => exact iff_of_false (fun impossible => by cases impossible) fun both => by cases both.1
            | ok passed =>
                cases RolesGuard.canActivate .graphql handler (some (authenticatedUser user)) with
                | error error => exact iff_of_false (fun impossible => by cases impossible) fun both => by cases both.2
                | ok passed => exact iff_of_true rfl ⟨rfl, rfl⟩
  exact whole

theorem status_passes (handler : HandlerMetadata) (closed : AccountStatusGuard.isPublic handler = false) (user : Account) :
    AccountStatusGuard.canActivate .graphql handler (some (authenticatedUser user)) = .ok () ↔
      ∃ statuses, Reflector.getAllAndOverride handler.accountStatus = some statuses ∧
        (user.status ∈ statuses ∨ user.status = .active) := by
  simp only [AccountStatusGuard.canActivate, closed]
  cases given : Reflector.getAllAndOverride handler.accountStatus with
  | none => simp
  | some statuses =>
      by_cases listed : user.status ∈ statuses
      · simp [authenticatedUser, listed]
      · cases status : user.status <;> rw [status] at listed <;>
          simp [authenticatedUser, status, listed, AccountStatusGuard.refusal]

theorem roles_pass (handler : HandlerMetadata) (closed : RolesGuard.isPublic handler = false) (user : Account) :
    RolesGuard.canActivate .graphql handler (some (authenticatedUser user)) = .ok () ↔
      ∃ roles, Reflector.getAllAndOverride handler.roles = some roles ∧ ∃ role ∈ roles, role ∈ user.roles := by
  simp only [RolesGuard.canActivate, closed]
  cases given : Reflector.getAllAndOverride handler.roles with
  | none => simp
  | some roles =>
      by_cases some : ∃ role ∈ roles, role ∈ user.roles
      · simp [authenticatedUser, some]
      · simp [authenticatedUser, some]

theorem public_iff (handler : HandlerMetadata) : AccountStatusGuard.isPublic handler = true ↔ Public handler := by
  unfold AccountStatusGuard.isPublic Public
  cases Reflector.getAllAndOverride handler.isPublic <;> simp

theorem guards_agree (handler : HandlerMetadata) :
    AuthGuard.isPublic handler = AccountStatusGuard.isPublic handler ↔ ¬ PublicByClass handler := by
  obtain ⟨⟨method, controller⟩, statuses, roles⟩ := handler
  cases method with
  | some value => simp [AuthGuard.isPublic, AccountStatusGuard.isPublic, Reflector.get, Reflector.getAllAndOverride, PublicByClass]
  | none =>
      cases controller with
      | none => simp [AuthGuard.isPublic, AccountStatusGuard.isPublic, Reflector.get, Reflector.getAllAndOverride, PublicByClass]
      | some value =>
          cases value <;>
            simp [AuthGuard.isPublic, AccountStatusGuard.isPublic, Reflector.get, Reflector.getAllAndOverride, PublicByClass]

theorem public_reaches (order : Arrangement) (relationFirst : Bool) (handler : HandlerMetadata) (session : Option RequestSession)
    (world : World) (open_ : AuthGuard.isPublic handler = true) (whole : AccountStatusGuard.isPublic handler = true) :
    Reaches hashtext order relationFirst handler session world := by
  have roles : RolesGuard.isPublic handler = true := whole
  simp only [Reaches, accessGuards, AuthGuard.canActivateHandler, open_, AccountStatusGuard.canActivate, whole,
    RolesGuard.canActivate, roles]
  rfl

-- Access control is exact unless the class alone marks the handler public, or
-- an active user comes to a handler that other statuses are required for.
theorem access_exact_iff (order : Arrangement) (relationFirst : Bool) (handler : HandlerMetadata)
    (session : Option RequestSession) (world : World) (ids : AccountIds world.db) :
    ExactAccess hashtext order relationFirst handler session world ↔
      ¬ PublicByClass handler ∧ ¬ ActiveSlips handler session world := by
  constructor
  · intro exact_
    have alike := (guards_agree handler).mp exact_.agree.1
    refine ⟨alike, ?_⟩
    rintro ⟨hidden, user, names, active, ⟨statuses, given, excluded⟩, required⟩
    have shut : AccountStatusGuard.isPublic handler = false := by
      simpa using fun open_ => hidden ((public_iff handler).mp open_)
    have reached : Reaches hashtext order relationFirst handler session world :=
      (guards_yield order relationFirst handler session world ids (exact_.agree.1.trans shut)).mpr
        ⟨user, names, (status_passes handler shut user).mpr ⟨statuses, given, .inr active⟩,
          (roles_pass handler shut user).mpr required⟩
    rcases exact_.reaches.mp reached with shown | ⟨other, otherNames, ⟨others, same, allowed⟩, -⟩
    · exact hidden shown
    · obtain ⟨req, signed, granted⟩ := names
      obtain ⟨req', signed', granted'⟩ := otherNames
      rw [signed] at signed'
      cases signed'
      have identical : user = other := same_account world.db ids user other granted.stored granted'.stored
        (Option.some.inj (granted.named.symm.trans granted'.named))
      subst identical
      rw [given] at same
      cases same
      rw [active] at allowed
      exact excluded allowed
  · rintro ⟨alike, careful⟩
    have agree := (guards_agree handler).mpr alike
    by_cases shown : Public handler
    · have whole := (public_iff handler).mpr shown
      have reached := @public_reaches hashtext order relationFirst handler session world (agree.trans whole) whole
      exact ⟨iff_of_true reached (.inl shown), fun hidden => absurd shown hidden, agree, rfl⟩
    · have shut : AccountStatusGuard.isPublic handler = false := by
        simpa using fun open_ => shown ((public_iff handler).mp open_)
      have chain := @guards_yield hashtext order relationFirst handler session world ids (agree.trans shut)
      refine ⟨?_, fun _ missing reached => ?_, agree, rfl⟩
      · rw [chain]
        simp only [status_passes handler shut, roles_pass handler shut]
        constructor
        · rintro ⟨user, names, ⟨statuses, given, allowed⟩, required⟩
          refine .inr ⟨user, names, ⟨statuses, given, ?_⟩, required⟩
          rcases allowed with listed | active
          · exact listed
          · by_contra excluded
            rw [active] at excluded
            exact careful ⟨shown, user, names, active, ⟨statuses, given, excluded⟩, required⟩
        · rintro (impossible | ⟨user, names, ⟨statuses, given, listed⟩, required⟩)
          · exact absurd impossible shown
          · exact ⟨user, names, ⟨statuses, given, .inl listed⟩, required⟩
      · obtain ⟨user, -, status, roles⟩ := chain.mp reached
        obtain ⟨statuses, given, -⟩ := (status_passes handler shut user).mp status
        obtain ⟨required, asked, -⟩ := (roles_pass handler shut user).mp roles
        rcases missing with absent | absent
        · rw [given] at absent
          cases absent
        · rw [asked] at absent
          cases absent

def reviewerId : Uuid := ⟨"5f6e7d8c-9b0a-4c1d-8e2f-3a4b5c6d7e8f".toList, by decide⟩

def reviewer : Account :=
  ⟨⟨reviewerId, 0⟩, "rita".toList, "rita@mail".toList, "hash".toList, [.reviewer, .creator], .active⟩

def reviewerSession : RequestSession := ⟨"s1".toList, some reviewerId.text⟩

def signedInWorld : World where
  db := ⟨[reviewer], [], [], []⟩
  store := {
    Redis.empty with
    strings := Function.update (fun _ => none) (createSessionAndUserMappingKey "s1".toList) (some ⟨reviewerId.text, none⟩)
    sets := Function.update (fun _ => []) (createUserSessionsSetKey reviewerId.text) ["s1".toList] }

def handlerFor (statuses : List AccountStatus) : HandlerMetadata :=
  ⟨⟨none, none⟩, ⟨some statuses, none⟩, ⟨some [.reviewer], none⟩⟩

theorem access_exact_iff_active :
    ExactAccess (fun _ => 0) .listed false (handlerFor [.active]) (some reviewerSession) signedInWorld ↔
      ¬ PublicByClass (handlerFor [.active]) ∧ ¬ ActiveSlips (handlerFor [.active]) (some reviewerSession) signedInWorld :=
  access_exact_iff .listed false _ _ signedInWorld (by simp [AccountIds, signedInWorld])

-- A handler for accounts that wait for their verification lets an active one
-- in, and a class that is public shuts out who is not signed in.
theorem access_not_exact :
    (Reaches (fun _ => 0) .listed false (handlerFor [.pendingVerification]) (some reviewerSession) signedInWorld ∧
      ¬ Permitted (handlerFor [.pendingVerification]) (some reviewerSession) signedInWorld) ∧
    Permitted ⟨⟨none, some true⟩, ⟨none, none⟩, ⟨none, none⟩⟩ none signedInWorld ∧
      ¬ Reaches (fun _ => 0) .listed false ⟨⟨none, some true⟩, ⟨none, none⟩, ⟨none, none⟩⟩ none signedInWorld := by
  refine ⟨⟨by unfold Reaches; decide, ?_⟩, .inl rfl, by unfold Reaches; decide⟩
  rintro (shown | ⟨user, ⟨req, -, granted⟩, ⟨statuses, given, listed⟩, -⟩)
  · cases shown
  · cases given
    have only : user = reviewer := by simpa [signedInWorld] using granted.stored
    rw [only] at listed
    simp [reviewer] at listed

end Guards

end RateWise
