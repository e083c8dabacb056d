import RateWise.SessionHistory
import RateWise.Typestate
import RateWise.Histories

set_option autoImplicit false

namespace RateWise

open Interleave
open ReadCommitted

-- Where a request stands: nothing checked yet, let in for the index of a user
-- (the SCARD was below the limit, or its own account was inserted), or past
-- its MULTI block.
inductive Admission where
  | unchecked
  | admitted (index : Text)
  | bound
deriving DecidableEq

def Admission.after (maxUserSessions : Nat) : Admission → Event Api → Admission
  | .unchecked, .ran (.cmd (.setSize key)) (.ok reply) =>
      let sessions : Nat := reply
      if sessions < maxUserSessions then .admitted key else .unchecked
  | .unchecked, .ran (.sql (.insertAccount row)) (.ok _) => .admitted (createUserSessionsSetKey row.id.text)
  | _, .ran (.cmd (.multiStoreSetAdd _ _ _ _)) _ => .bound
  | admission, _ => admission

def Admission.allows : Admission → Api.Stmt → Prop
  | admission, .cmd (.multiStoreSetAdd _ _ set _) => admission = .admitted set
  | _, _ => True

@[reducible] def admissions (maxUserSessions : Nat) : Typestate Api :=
  ⟨Admission, .unchecked, Admission.after maxUserSessions, Admission.allows⟩

def Mild : Api.Stmt → Prop
  | .cmd (.get _) => True
  | .cmd (.del _) => True
  | .cmd (.sMembers _) => True
  | .cmd (.setRem _ _) => True
  | .cmd (.setIsMember _ _) => True
  | .sql (.findAccount _) => True
  | _ => False

def Unrelated : Api.Stmt → Prop
  | .cmd (.setSize _) => False
  | .cmd (.multiStoreSetAdd _ _ _ _) => False
  | .sql (.insertAccount _) => False
  | _ => True

section Programs

variable {maxUserSessions : Nat}

theorem unrelated_idle (s : Api.Stmt) (unrelated : Unrelated s) : (admissions maxUserSessions).Idle s := by
  intro p
  cases s with
  | sql s =>
      cases s <;> first | (refine ⟨trivial, fun reply => ?_⟩; cases p <;> rfl) | cases unrelated
  | tryLock key => exact ⟨trivial, fun reply => by cases p <;> rfl⟩
  | cmd c =>
      cases c <;> first | (refine ⟨trivial, fun reply => ?_⟩; cases p <;> rfl) | cases unrelated

theorem unrelated_tame {α : Type} (post : α → Prop) (prog : Async α) (quiet : prog.Quiet Unrelated post) (p : Admission) :
    prog.Tame (admissions maxUserSessions) (fun q value => q = p ∧ post value) p :=
  tame_mono _ _ _ _ _ _ (tame_quiet post prog (Prog.quiet_wider _ _ _ _ quiet unrelated_idle) p) (fun _ _ holds => holds)
    fun _ _ _ => trivial

theorem unrelated_redis (c : RedisCmd) (unrelated : Unrelated (.cmd c)) : (redis c).Quiet Unrelated fun _ => True :=
  ⟨unrelated, fun reply => by cases reply <;> trivial⟩

theorem unrelated_sql (s : Sql) (unrelated : Unrelated (.sql s)) : (sql s).Quiet Unrelated fun _ => True :=
  ⟨unrelated, fun reply => by cases reply <;> trivial⟩

theorem mild_redis (c : RedisCmd) (mild : Mild (.cmd c)) : (redis c).Quiet Mild fun _ => True :=
  ⟨mild, fun reply => by cases reply <;> trivial⟩

theorem mild_sql (s : Sql) (mild : Mild (.sql s)) : (sql s).Quiet Mild fun _ => True :=
  ⟨mild, fun reply => by cases reply <;> trivial⟩

theorem mild_delete (key : Text) : (SessionsService.delete key).Quiet Mild fun _ => True :=
  Prog.quiet_bind _ (fun _ => True) _ _ _ (mild_redis (.del key) trivial) fun _ _ => trivial

theorem mild_removal (removal : Removal) : removal.promise.Quiet Mild fun _ => True := by
  cases removal with
  | record sid => exact mild_delete _
  | relation sid => exact mild_delete _
  | index userId => exact mild_delete _
  | member userId sid => exact mild_redis (.setRem _ _) trivial

theorem mild_rejections (promises : List (Async Unit)) (quiet : ∀ promise ∈ promises, promise.Quiet Mild fun _ => True) :
    (rejections promises).Quiet Mild fun _ => True := by
  induction promises with
  | nil => trivial
  | cons promise rest ih =>
      refine Prog.quiet_bind _ (fun _ => True) _ _ _ (Prog.quiet_catching _ _ _ _ (Prog.quiet_bind _ (fun _ => True) _ _ _
        (quiet promise (by simp)) fun _ _ => trivial) fun _ => trivial) fun _ _ => ?_
      exact Prog.quiet_bind _ (fun _ => True) _ _ _ (ih fun other listed => quiet other (by simp [listed])) fun _ _ => trivial

theorem mild_rethrow (reasons : List Err) : (rethrow reasons).Quiet Mild fun _ => True := by
  cases reasons with
  | nil => trivial
  | cons first others => cases others <;> trivial

theorem mild_settled (promises : List (Async Unit)) (quiet : ∀ promise ∈ promises, promise.Quiet Mild fun _ => True) :
    (runSettledOrThrow promises).Quiet Mild fun _ => True := by
  refine Prog.quiet_bind _ (fun _ => True) _ _ _ (mild_rejections promises quiet) fun reasons _ => ?_
  cases reasons with
  | nil => trivial
  | cons first others => cases others <;> trivial

theorem mild_arranged (order : Arrangement) (removals : List Removal) :
    ∀ promise ∈ order.arrange (removals.map Removal.promise), promise.Quiet Mild fun _ => True := by
  intro promise member
  rw [(order.perm _).mem_iff] at member
  obtain ⟨removal, -, rfl⟩ := List.mem_map.mp member
  exact mild_removal removal

theorem mild_load (sid : Text) : (SessionsService.load sid).Quiet Mild fun _ => True :=
  mild_redis (.get _) trivial

theorem mild_find (userId : Text) : (UsersService.findOneById userId).Quiet Mild fun _ => True := by
  unfold UsersService.findOneById UsersService.validUuidOrThrow
  refine Prog.quiet_bind _ (fun _ => True) _ _ _ ?_ fun _ _ => mild_sql (.findAccount userId) trivial
  split <;> trivial

theorem mild_find_or_throw (userId : Text) : (UsersService.findOneByIdOrThrow userId).Quiet Mild fun _ => True := by
  refine Prog.quiet_bind _ (fun _ => True) _ _ _ (mild_find userId) fun found _ => ?_
  cases found <;> trivial

theorem mild_exists (userId : Text) : (UsersService.existsOrThrow userId).Quiet Mild fun _ => True := by
  rw [exists_or_throw_eq]
  refine Prog.quiet_bind _ (fun _ => True) _ _ _ (mild_find userId) fun found _ => ?_
  cases found <;> trivial

theorem mild_cleanup (order : Arrangement) (req : SessionContext) :
    (SessionsService.trySessionCleanup order req).Quiet Mild fun _ => True :=
  Prog.quiet_catching _ _ _ _ (mild_settled _ (mild_arranged order
    [.record req.sessionID, .record req.sessionID, .relation req.sessionID, .member req.userId req.sessionID])) fun _ => trivial

theorem mild_dangling (relationFirst : Bool) (userId sid : Text) :
    (SessionsService.isDangling relationFirst userId sid).Quiet Mild fun _ => True := by
  cases relationFirst <;>
    exact Prog.quiet_bind _ (fun _ => True) _ _ _ (mild_redis _ trivial) fun _ _ =>
      Prog.quiet_bind _ (fun _ => True) _ _ _ (mild_redis _ trivial) fun _ _ => trivial

theorem mild_guard (order : Arrangement) (relationFirst : Bool) (sid : Text) :
    (AuthGuard.canActivate order relationFirst sid).Quiet Mild fun _ => True := by
  refine Prog.quiet_bind _ (fun _ => True) _ _ _ (mild_load sid) fun found _ => ?_
  cases found with
  | none => trivial
  | some userId =>
      refine Prog.quiet_bind _ (fun _ => True) _ _ _ ?_ fun _ _ => trivial
      refine Prog.quiet_bind _ (fun _ => True) _ _ _ (mild_find userId) fun found _ => ?_
      have cleaned := Prog.quiet_bind (β := Account) Mild (fun _ => True) (fun _ => True) _ (fun _ => reject unauthorized)
        (mild_cleanup order ⟨⟨sid, sid⟩, userId⟩) fun _ _ => trivial
      cases found with
      | none => exact cleaned
      | some user =>
          refine Prog.quiet_bind _ (fun _ => True) _ _ _ (mild_dangling relationFirst userId sid) fun dangling _ => ?_
          cases dangling with
          | true => exact cleaned
          | false => trivial

theorem mild_destroy (order : Arrangement) (req : SessionContext) :
    (SessionsService.destroy order req).Quiet Mild fun _ => True :=
  mild_settled _ (mild_arranged order
    [.record req.sessionID, .member req.userId req.sessionID, .relation req.sessionID])

theorem mild_deletions (order : Arrangement) (userId : Text) (sessIDs : List Text) (late : List Removal) :
    ∀ promise ∈ order.arrange (SessionsService.deletions userId sessIDs ++ late.map Removal.promise),
      promise.Quiet Mild fun _ => True := by
  rw [deletions_eq, ← List.map_append]
  exact mild_arranged order _

theorem mild_delete_all (order : Arrangement) (userId : Text) :
    (SessionsService.deleteAllIn order userId).Quiet Mild fun _ => True := by
  refine Prog.quiet_bind _ (fun _ => True) _ _ _ (mild_redis (.sMembers _) trivial) fun sessIDs _ => ?_
  refine Prog.quiet_bind _ (fun _ => True) _ _ _ (mild_settled _ ?_) fun _ _ => trivial
  have all := mild_deletions order userId sessIDs []
  rw [List.map_nil, List.append_nil] at all
  exact all

theorem mild_destroy_all (order : Arrangement) (destroyedFirst : Bool) (req : SessionContext) :
    (SessionsService.destroyAll order destroyedFirst req).Quiet Mild fun _ => True := by
  have current : ∀ promise ∈ (if destroyedFirst then [SessionsService.destroySession req] else []),
      promise.Quiet Mild fun _ => True := by
    intro promise member
    split at member
    · rw [List.mem_singleton.mp member]
      exact mild_delete _
    · cases member
  have late : ∃ removals : List Removal, (if destroyedFirst then [] else [SessionsService.destroySession req]) =
      removals.map Removal.promise := by
    cases destroyedFirst with
    | true => exact ⟨[], rfl⟩
    | false => exact ⟨[.record req.sessionID], rfl⟩
  obtain ⟨removals, same⟩ := late
  refine Prog.quiet_bind _ (fun _ => True) _ _ _ (mild_rejections _ current) fun early _ => ?_
  refine Prog.quiet_bind _ (fun _ => True) _ _ _ ?_ fun read _ => ?_
  · exact Prog.quiet_catching _ _ _ _ (Prog.quiet_bind _ (fun _ => True) _ _ _ (mild_redis (.sMembers _) trivial)
      fun _ _ => trivial) fun _ => trivial
  · rw [same]
    cases read with
    | error reason =>
        refine Prog.quiet_bind _ (fun _ => True) _ _ _ (mild_rejections _ fun promise member => ?_) fun others _ =>
          Prog.quiet_bind _ (fun _ => True) _ _ _ (mild_rethrow _) fun _ _ => trivial
        obtain ⟨removal, -, rfl⟩ := List.mem_map.mp member
        exact mild_removal removal
    | ok sessIDs =>
        exact Prog.quiet_bind _ (fun _ => True) _ _ _ (mild_rejections _ (mild_deletions order req.userId sessIDs removals))
          fun others _ => Prog.quiet_bind _ (fun _ => True) _ _ _ (mild_rethrow _) fun _ _ => trivial

theorem mild_removed (order : Arrangement) (sessionId : Text) :
    (SessionsEvents.handleRemovedSession order sessionId).Quiet Mild fun _ => True := by
  refine Prog.quiet_bind _ (fun _ => True) _ _ _ (mild_redis (.get _) trivial) fun owner _ => ?_
  cases owner with
  | none => trivial
  | some userId =>
      exact Prog.quiet_bind _ (fun _ => True) _ _ _ (mild_rejections _ (mild_arranged order
        [.relation sessionId, .member userId sessionId])) fun _ _ => trivial

theorem mild_unrelated {α : Type} (prog : Async α) (quiet : prog.Quiet Mild fun _ => True) : prog.Quiet Unrelated fun _ => True := by
  refine Prog.quiet_wider _ _ _ prog quiet fun s mild => ?_
  cases s with
  | sql s => cases s <;> trivial
  | tryLock key => trivial
  | cmd c => cases c <;> trivial

theorem unrelated_save (sid userId : Text) (ttlSeconds : Int) :
    (SessionsService.save sid userId ttlSeconds).Quiet Unrelated fun _ => True :=
  Prog.quiet_bind _ (fun _ => True) _ _ _ (Prog.quiet_catching _ _ _ _ (Prog.quiet_bind _ (fun _ => True) _ _ _
    (unrelated_redis _ trivial) fun _ _ => trivial) fun _ => trivial) fun _ _ => trivial

theorem unrelated_touch (sid : Text) (ttlSeconds : Int) : (SessionsService.touch sid ttlSeconds).Quiet Unrelated fun _ => True := by
  refine Prog.quiet_bind _ (fun _ => True) _ _ _ (mild_unrelated _ (mild_load sid)) fun found _ => ?_
  cases found with
  | none => trivial
  | some userId => exact unrelated_save sid userId ttlSeconds

theorem unrelated_reject_if (met : Bool) (error : Err) : (rejectIf met error).Quiet Unrelated fun _ => True :=
  reject_if_reading met error Unrelated

theorem unrelated_reauthenticate (compare : JsString → Text → Bool) (userId : Text) (password : JsString) :
    (AuthService.reauthenticate compare userId password).Quiet Unrelated fun _ => True :=
  Prog.quiet_bind _ (fun _ => True) _ _ _ (unrelated_reject_if _ _) fun _ _ =>
    Prog.quiet_bind _ (fun _ => True) _ _ _ (mild_unrelated _ (mild_find_or_throw userId)) fun _ _ => unrelated_reject_if _ _

theorem unrelated_authenticate (compare : JsString → Text → Bool) (email password : JsString) :
    (AuthService.authenticate compare email password).Quiet Unrelated fun _ => True := by
  refine Prog.quiet_bind _ (fun _ => True) _ _ _ (unrelated_reject_if _ _) fun _ _ => ?_
  refine Prog.quiet_bind _ (fun _ => True) _ _ _ (unrelated_sql _ trivial) fun found _ => ?_
  cases found with
  | none => trivial
  | some user => exact Prog.quiet_bind _ (fun _ => True) _ _ _ (unrelated_reject_if _ _) fun _ _ => trivial

theorem unrelated_reading (s : Api.Stmt) (reading : Reading s) : Unrelated s := by
  rcases reading with rfl | ⟨key, rfl⟩ <;> trivial

theorem unrelated_blacklist (jti : Text) (exp : Option Int) : (TokensService.blacklist jti exp).Quiet Unrelated fun _ => True :=
  Prog.quiet_bind _ (fun _ => True) _ _ _ (unrelated_redis .now trivial) fun _ _ => unrelated_redis (.set _ _ _) trivial

theorem unrelated_link (opts : TokensFeatureOptions) (order : Arrangement) (token : Token) :
    (AuthService.signOutAllPublic opts order token).Quiet Unrelated fun _ => True := by
  refine Prog.quiet_bind _ (fun _ => True) _ _ _ ?_ fun payload _ => ?_
  · refine Prog.quiet_catching _ _ _ _ (Prog.quiet_wider _ _ _ _ (verify_reading opts token) unrelated_reading) fun error => ?_
    cases error <;> trivial
  · refine Prog.quiet_bind _ (fun _ => True) _ _ _ (mild_unrelated _ (mild_exists payload.id)) fun _ _ => ?_
    exact Prog.quiet_bind _ (fun _ => True) _ _ _ (unrelated_blacklist _ _) fun _ _ => mild_unrelated _ (mild_delete_all order payload.id)

theorem unrelated_publish (expired : List (Arrangement × Text)) : (SessionsEvents.publish expired).Quiet Unrelated fun _ => True := by
  induction expired with
  | nil => trivial
  | cons event rest ih =>
      obtain ⟨order, sid⟩ := event
      refine Prog.quiet_bind _ (fun _ => True) _ _ _ (Prog.quiet_catching _ _ _ _ (Prog.quiet_bind _ (fun _ => True) _ _ _ ?_
        fun _ _ => trivial) fun _ => trivial) fun _ _ => ih
      unfold SessionsEvents.expired
      split
      · trivial
      · split
        · trivial
        · trivial
        · rename_i sessionId _ _
          exact mild_unrelated _ (mild_removed order sessionId)

theorem unrelated_visit (config : SessionConfig) (visit : Visit) (plain : visit.request = none) :
    (visit.program config).Quiet Unrelated fun _ => True := by
  cases visit with
  | signUp columns row req => cases plain
  | signIn email password req => cases plain
  | signOut guard order relationFirst sid =>
      exact Prog.quiet_bind _ (fun _ => True) _ _ _ (mild_unrelated _ (mild_guard guard relationFirst sid)) fun granted _ =>
        mild_unrelated _ (mild_destroy order granted.2)
  | signOutAll guard order relationFirst destroyedFirst sid password =>
      refine Prog.quiet_bind _ (fun _ => True) _ _ _ (mild_unrelated _ (mild_guard guard relationFirst sid)) fun granted _ => ?_
      refine Prog.quiet_bind _ (fun _ => True) _ _ _ (unrelated_reauthenticate _ _ _) fun _ _ => ?_
      exact Prog.quiet_bind _ (fun _ => True) _ _ _ (mild_unrelated _ (mild_destroy_all order destroyedFirst granted.2)) fun _ _ => trivial
  | signOutAllPublic order token =>
      exact Prog.quiet_bind _ (fun _ => True) _ _ _ (unrelated_link _ order token) fun _ _ => trivial
  | guarded guard relationFirst sid =>
      exact Prog.quiet_bind _ (fun _ => True) _ _ _ (mild_unrelated _ (mild_guard guard relationFirst sid)) fun _ _ => trivial
  | touch sid => exact unrelated_touch sid _
  | elapse milliseconds expired => exact unrelated_publish expired

theorem save_tame (sid userId : Text) (ttlSeconds : Int) (p : Admission) :
    (SessionsService.save sid userId ttlSeconds).Tame (admissions maxUserSessions) (fun _ _ => True) p :=
  tame_mono _ _ _ _ _ _ (unrelated_tame _ _ (unrelated_save sid userId ttlSeconds) p) (fun _ _ _ => trivial) fun _ _ _ => trivial

theorem create_tame (req : RequestContext) (userId : Text) :
    (SessionsService.create req userId).Tame (admissions maxUserSessions) (fun _ _ => True)
      (.admitted (createUserSessionsSetKey userId)) := by
  refine tame_bind _ _ _ _ _ _ (unrelated_tame _ _ (mild_unrelated _ (mild_delete _)) _) ?_
  rintro p value ⟨rfl, -⟩
  exact ⟨rfl, fun reply => by cases reply <;> trivial⟩

theorem create_account_tame (lower : Text → Text) (columns : SignUpInput) (row : Generated) :
    (createAccount lower columns row).Tame (admissions maxUserSessions)
      (fun p user => p = .admitted (createUserSessionsSetKey user.id.text)) .unchecked := by
  unfold createAccount
  split
  · trivial
  · split
    · trivial
    · refine tame_catching _ (fun _ _ => True) _ _ _ _ ?_ fun _ _ _ => trivial
      refine ⟨trivial, fun reply => ?_⟩
      cases reply with
      | error fault => trivial
      | ok inserted => rfl

theorem limit_tame (userId : Text) :
    (AuthService.checkSessionLimit maxUserSessions userId).Tame (admissions maxUserSessions)
      (fun p _ => p = .admitted (createUserSessionsSetKey userId)) .unchecked := by
  refine ⟨trivial, fun reply => ?_⟩
  cases reply with
  | error fault => trivial
  | ok reply =>
      obtain ⟨sessions, same⟩ : ∃ sessions : Nat, sessions = reply := ⟨reply, rfl⟩
      subst same
      show (rejectIf (maxUserSessions ≤ sessions) AuthService.maxSessionsReached).Tame (admissions maxUserSessions) _
        (if sessions < maxUserSessions then .admitted (createUserSessionsSetKey userId) else .unchecked)
      by_cases room : sessions < maxUserSessions
      · have below : ¬ maxUserSessions ≤ sessions := by omega
        simp only [room, if_true, below, decide_false]
        rfl
      · have full : maxUserSessions ≤ sessions := by omega
        simp only [full, decide_true]
        trivial

theorem visit_tame (config : SessionConfig) (visit : Visit) :
    (visit.program config).Tame (admissions config.maxUserSessions) (fun _ _ => True) .unchecked := by
  cases visit with
  | signUp columns row req =>
      refine tame_bind _ _ _ _ _ _ (create_account_tame config.lower columns row) ?_
      rintro p user rfl
      exact tame_bind _ _ _ _ _ _ (create_tame req user.id.text) fun p _ _ => save_tame _ _ _ p
  | signIn email password req =>
      refine tame_bind (fun _ _ => True) _ _ _ _ _ ?_ fun p _ _ => save_tame _ _ _ p
      refine tame_bind _ _ _ _ _ _ (unrelated_tame _ _ (unrelated_authenticate config.compare email password) _) ?_
      rintro p user ⟨rfl, -⟩
      refine tame_bind _ _ _ _ _ _ (limit_tame user.id.text) ?_
      rintro p value rfl
      exact tame_bind _ _ _ _ _ _ (create_tame req user.id.text) fun _ _ _ => trivial
  | _ => exact tame_mono _ _ _ _ _ _ (unrelated_tame _ _ (unrelated_visit config _ rfl) _) (fun _ _ _ => trivial) fun _ _ _ => trivial

end Programs

section Bound

variable {hashtext : Text → Int32} {n : Nat}

def Awaits (maxUserSessions : Nat) (index : Text) (session : Session (engine hashtext) Err Unit) : Prop :=
  (admissions maxUserSessions).phase session.log = .admitted index ∧ session.outcome = none

instance (maxUserSessions : Nat) (index : Text) (session : Session (engine hashtext) Err Unit) :
    Decidable (Awaits maxUserSessions index session) :=
  decidable_of_iff ((admissions maxUserSessions).phase session.log = .admitted index ∧ session.outcome.isNone = true)
    (by simp [Awaits])

def awaiting (maxUserSessions : Nat) (index : Text) (net : Net (engine hashtext) Err Unit n) : Nat :=
  (Finset.univ.filter fun i => Awaits maxUserSessions index (net.sessions i)).card

-- The index that the next statement of a request lets it in for: by a SCARD
-- below the limit, or by the INSERT of the account that the index is of.
def letsIn (maxUserSessions : Nat) (net : Net (engine hashtext) Err Unit n) (i : Fin n) : Option Text :=
  if (admissions maxUserSessions).phase (net.sessions i).log = .unchecked then
    match (net.sessions i).prog.asked with
    | some (.cmd (.setSize index)) => if (net.world.store.sets index).length < maxUserSessions then some index else none
    | some (.sql (.insertAccount row)) => some (createUserSessionsSetKey row.id.text)
    | _ => none
  else none

-- Nobody is let in for an index unless there is room beside those who have
-- been let in already.
def HasRoom (maxUserSessions : Nat) (net : Net (engine hashtext) Err Unit n) : Move (engine hashtext) n → Prop
  | .turn i => ∀ index ∈ letsIn maxUserSessions net i,
      (net.world.store.sets index).length + awaiting maxUserSessions index net < maxUserSessions
  | _ => True

instance (maxUserSessions : Nat) (net : Net (engine hashtext) Err Unit n) :
    ∀ move, Decidable (HasRoom maxUserSessions net move)
  | .turn i => inferInstanceAs (Decidable (∀ index ∈ letsIn maxUserSessions net i,
      (net.world.store.sets index).length + awaiting maxUserSessions index net < maxUserSessions))
  | .fault _ _ => .isTrue trivial
  | .drift _ => .isTrue trivial

theorem filter_update (P : Session (engine hashtext) Err Unit → Prop) [DecidablePred P]
    (sessions : Fin n → Session (engine hashtext) Err Unit) (i : Fin n) (session : Session (engine hashtext) Err Unit) :
    (Finset.univ.filter fun j => P (Function.update sessions i session j)).card + (if P (sessions i) then 1 else 0) =
      (Finset.univ.filter fun j => P (sessions j)).card + if P session then 1 else 0 := by
  have others : ∑ j ∈ Finset.univ.erase i, (if P (Function.update sessions i session j) then 1 else 0) =
      ∑ j ∈ Finset.univ.erase i, if P (sessions j) then 1 else 0 :=
    Finset.sum_congr rfl fun j member => by rw [Function.update_of_ne (Finset.ne_of_mem_erase member)]
  rw [Finset.card_filter, Finset.card_filter, ← Finset.add_sum_erase _ _ (Finset.mem_univ i),
    ← Finset.add_sum_erase Finset.univ (fun j => if P (sessions j) then 1 else 0) (Finset.mem_univ i), others,
    Function.update_self]
  omega

-- A command adds at most one member to a set, and only a MULTI block does.
theorem exec_length (store left : Redis) (c : RedisCmd) (reply : c.Reply) (ran : Redis.exec store c = .ok (reply, left)) (key : Text) :
    (left.sets key).length ≤ (store.sets key).length + 1 ∧
      ((∀ relation value member, c ≠ .multiStoreSetAdd relation value key member) →
        (left.sets key).length ≤ (store.sets key).length) := by
  have unchanged : left.sets = store.sets → (left.sets key).length ≤ (store.sets key).length + 1 ∧
      ((∀ relation value member, c ≠ .multiStoreSetAdd relation value key member) →
        (left.sets key).length ≤ (store.sets key).length) := by
    intro same
    rw [same]
    exact ⟨Nat.le_succ _, fun _ => le_refl _⟩
  cases c with
  | set other value ex =>
      cases ex with
      | none => cases ran; exact unchanged rfl
      | some seconds =>
          simp only [Redis.exec] at ran
          split at ran
          · cases ran; exact unchanged rfl
          · cases ran
  | del other =>
      cases ran
      by_cases same : key = other
      · subst same
        simp
      · simp [same]
  | setRem other member =>
      cases ran
      by_cases same : key = other
      · subst same
        have shorter : ((store.sets key).erase member).length ≤ (store.sets key).length := List.length_erase_le
        simp only [Function.update_self]
        omega
      · simp [same]
  | multiStoreSetAdd relation value other member =>
      cases ran
      by_cases same : key = other
      · subst same
        have longer : ((store.sets key).insert member).length ≤ (store.sets key).length + 1 := by
          by_cases listed : member ∈ store.sets key
          · simp [listed]
          · simp [listed]
        simp only [Function.update_self]
        exact ⟨longer, fun other => absurd rfl (other relation value member)⟩
      · simp [same]
  | now => cases ran; exact unchanged rfl
  | get other => cases ran; exact unchanged rfl
  | sMembers other => cases ran; exact unchanged rfl
  | setIsMember other member => cases ran; exact unchanged rfl
  | setSize other => cases ran; exact unchanged rfl
  | sendEmail email => cases ran; exact unchanged rfl

theorem admission_after (maxUserSessions : Nat) (p : Admission) (event : Event Api) (index : Text)
    (admitted : p.after maxUserSessions event = .admitted index) :
    p = .admitted index ∨ (p = .unchecked ∧
      ((∃ sessions : Nat, event = .ran (.cmd (.setSize index)) (.ok sessions) ∧ sessions < maxUserSessions) ∨
        ∃ row inserted, event = .ran (.sql (.insertAccount row)) (.ok inserted) ∧ index = createUserSessionsSetKey row.id.text)) := by
  unfold Admission.after at admitted
  split at admitted
  · rename_i key reply
    simp only at admitted
    split at admitted
    · rename_i room
      cases admitted
      exact .inr ⟨rfl, .inl ⟨reply, rfl, room⟩⟩
    · cases admitted
  · rename_i row inserted
    cases admitted
    exact .inr ⟨rfl, .inr ⟨row, inserted, rfl, rfl⟩⟩
  · cases admitted
  · exact .inl admitted

structure WithinLimit (maxUserSessions : Nat) (net : Net (engine hashtext) Err Unit n) : Prop where
  tamed : ∀ i, Tamed (admissions maxUserSessions) (fun _ _ => True) (net.sessions i)
  room : ∀ userId, (net.world.store.sets (createUserSessionsSetKey userId)).length +
    awaiting maxUserSessions (createUserSessionsSetKey userId) net ≤ maxUserSessions

theorem turn_within (maxUserSessions : Nat) (net : Net (engine hashtext) Err Unit n) (i : Fin n) (left : World)
    (session : Session (engine hashtext) Err Unit) (within : WithinLimit maxUserSessions net)
    (allowed : HasRoom maxUserSessions net (.turn i))
    (advanced : (net.sessions i).advance net.world (others net i) = some (left, session)) (userId : Text) :
    (left.store.sets (createUserSessionsSetKey userId)).length + awaiting maxUserSessions (createUserSessionsSetKey userId)
      (⟨left, Function.update net.sessions i session⟩ : Net (engine hashtext) Err Unit n) ≤ maxUserSessions := by
  obtain ⟨index, same⟩ : ∃ index, index = createUserSessionsSetKey userId := ⟨_, rfl⟩
  have room := within.room userId
  rw [← same] at room ⊢
  have counted := filter_update (Awaits maxUserSessions index) net.sessions i session
  have before : awaiting maxUserSessions index net =
    (Finset.univ.filter fun j => Awaits maxUserSessions index (net.sessions j)).card := rfl
  have now : awaiting maxUserSessions index (⟨left, Function.update net.sessions i session⟩ : Net (engine hashtext) Err Unit n) =
    (Finset.univ.filter fun j => Awaits maxUserSessions index (Function.update net.sessions i session j)).card := rfl
  rw [now]
  rw [before] at room
  obtain ⟨event, logged, effect⟩ := advance_store net.world left (others net i) (net.sessions i) session advanced
  obtain ⟨-, -, -, allows⟩ := tamed_advance net.world left (others net i) (net.sessions i) session (within.tamed i) advanced
  have running : (net.sessions i).outcome = none := by
    by_contra ended
    cases (advance_ended net.world (others net i) (net.sessions i) ended).1.symm.trans advanced
  have phase : (admissions maxUserSessions).phase session.log =
      ((admissions maxUserSessions).phase (net.sessions i).log).after maxUserSessions event := by rw [logged]; rfl
  have letIn : letsIn maxUserSessions net i = some index → (net.world.store.sets index).length +
      (Finset.univ.filter fun j => Awaits maxUserSessions index (net.sessions j)).card < maxUserSessions := allowed index
  rcases effect with ⟨same, notCommand, asks, -⟩ | ⟨c, reply, asks, rfl, ran⟩
  · rw [same]
    by_cases new : Awaits maxUserSessions index session
    · rcases admission_after _ _ _ _ (phase.symm.trans new.1) with old | ⟨unchecked, ⟨sessions, rfl, -⟩ | ⟨row, inserted, rfl, mine⟩⟩
      · simp only [new, show Awaits maxUserSessions index (net.sessions i) from ⟨old, running⟩, if_true] at counted
        omega
      · exact absurd rfl (notCommand _ _)
      · have strict := letIn (by rw [letsIn, if_pos unchecked, asks _ _ rfl, mine])
        have notYet : ¬ Awaits maxUserSessions index (net.sessions i) := fun both => by
          cases unchecked.symm.trans both.1
        simp only [new, notYet, if_true, if_false] at counted
        omega
    · simp only [new, if_false] at counted
      omega
  · obtain ⟨longer, kept⟩ := exec_length net.world.store left.store c reply ran index
    by_cases block : ∃ relation value member, c = .multiStoreSetAdd relation value index member
    · obtain ⟨relation, value, member, rfl⟩ := block
      have admitted : (admissions maxUserSessions).phase (net.sessions i).log = .admitted index := allows _ asks
      have spent : ¬ Awaits maxUserSessions index session := fun both => by
        have still := phase.symm.trans both.1
        rw [admitted] at still
        cases still
      simp only [spent, show Awaits maxUserSessions index (net.sessions i) from ⟨admitted, running⟩, if_true, if_false] at counted
      omega
    · have shorter := kept fun relation value member same => block ⟨relation, value, member, same⟩
      by_cases new : Awaits maxUserSessions index session
      · rcases admission_after _ _ _ _ (phase.symm.trans new.1) with old | ⟨unchecked, ⟨sessions, same, below⟩ | ⟨row, inserted, same, mine⟩⟩
        · simp only [new, show Awaits maxUserSessions index (net.sessions i) from ⟨old, running⟩, if_true] at counted
          omega
        · cases same
          have pair := Except.ok.inj (show (Except.ok ((net.world.store.sets index).length, net.world.store) :
            Except Fault (Nat × Redis)) = .ok (sessions, left.store) from ran)
          have size : (net.world.store.sets index).length = sessions := congrArg Prod.fst pair
          rw [← size] at below
          have strict := letIn (by rw [letsIn, if_pos unchecked, asks]; exact if_pos below)
          have notYet : ¬ Awaits maxUserSessions index (net.sessions i) := fun both => by
            cases unchecked.symm.trans both.1
          simp only [new, notYet, if_true, if_false] at counted
          omega
        · cases same
      · simp only [new, if_false] at counted
        omega

theorem within_step (maxUserSessions : Nat) (net : Net (engine hashtext) Err Unit n) (move : Move (engine hashtext) n)
    (next : Net (engine hashtext) Err Unit n) (within : WithinLimit maxUserSessions net)
    (allowed : HasRoom maxUserSessions net move) (stepped : step net move = some next) : WithinLimit maxUserSessions next := by
  refine ⟨tamed_step net next move within.tamed stepped, ?_⟩
  rcases step_cases net next move stepped with ⟨i, left, session, rfl, advanced, rfl⟩ |
    ⟨i, fault, session, -, interrupted, rfl⟩ | ⟨change, -, rfl⟩
  · exact turn_within maxUserSessions net i left session within allowed advanced
  · intro userId
    have room := within.room userId
    have counted := filter_update (Awaits maxUserSessions (createUserSessionsSetKey userId)) net.sessions i session
    have kept : Awaits maxUserSessions (createUserSessionsSetKey userId) session →
        Awaits maxUserSessions (createUserSessionsSetKey userId) (net.sessions i) := by
      intro both
      obtain ⟨s, -, running, logged⟩ := interrupt_event (net.sessions i) session fault interrupted
      have phase : (admissions maxUserSessions).phase session.log =
          ((admissions maxUserSessions).phase (net.sessions i).log).after maxUserSessions (.ran s (.error fault)) := by
        rw [logged]; rfl
      rcases admission_after _ _ _ _ (phase.symm.trans both.1) with old | ⟨-, ⟨sessions, impossible, -⟩ | ⟨row, inserted, impossible, -⟩⟩
      · exact ⟨old, running⟩
      · cases impossible
      · cases impossible
    have before : awaiting maxUserSessions (createUserSessionsSetKey userId) net =
      (Finset.univ.filter fun j => Awaits maxUserSessions (createUserSessionsSetKey userId) (net.sessions j)).card := rfl
    have now : awaiting maxUserSessions (createUserSessionsSetKey userId)
        (⟨net.world, Function.update net.sessions i session⟩ : Net (engine hashtext) Err Unit n) = (Finset.univ.filter fun j =>
          Awaits maxUserSessions (createUserSessionsSetKey userId) (Function.update net.sessions i session j)).card := rfl
    rw [before] at room
    show (net.world.store.sets (createUserSessionsSetKey userId)).length + _ ≤ _
    rw [now]
    by_cases new : Awaits maxUserSessions (createUserSessionsSetKey userId) session
    · simp only [new, kept new, if_true] at counted
      omega
    · simp only [new, if_false] at counted
      omega
  · exact within.room

end Bound

-- The index of every user stays within the limit in every run in which nobody
-- is let in without room beside those let in already.
theorem session_limit (hashtext : Text → Int32) (config : SessionConfig) {n : Nat} (visits : Fin n → Visit) (world : World)
    (start : ∀ userId, (world.store.sets (createUserSessionsSetKey userId)).length ≤ config.maxUserSessions)
    (moves : List (Move (engine hashtext) n)) (final : Net (engine hashtext) Err Unit n)
    (room : Meets (HasRoom config.maxUserSessions) (launch world fun i => (visits i).program config) moves)
    (reached : run (launch world fun i => (visits i).program config) moves = some final) (userId : Text) :
    (final.world.store.sets (createUserSessionsSetKey userId)).length ≤ config.maxUserSessions := by
  have initial : WithinLimit config.maxUserSessions
      (launch world fun i => (visits i).program config : Net (engine hashtext) Err Unit n) := by
    refine ⟨fun i => visit_tame config (visits i), fun userId => ?_⟩
    have none : awaiting config.maxUserSessions (createUserSessionsSetKey userId)
        (launch world fun i => (visits i).program config : Net (engine hashtext) Err Unit n) = 0 :=
      Finset.card_eq_zero.mpr (Finset.filter_eq_empty_iff.mpr fun i _ both => by cases both.1)
    rw [none]
    exact start userId
  have within := run_invariant (HasRoom config.maxUserSessions) (WithinLimit config.maxUserSessions)
    (fun net move next within allowed stepped => within_step config.maxUserSessions net move next within allowed stepped)
    _ final moves initial room reached
  have bounded := within.room userId
  omega


def enrolledWorld : World := ⟨Tables.empty.apply (.insertAccount (pendingAccount annColumns annVersion)), Redis.empty⟩

def oneSession : SessionConfig := { twoSessions with maxUserSessions := 1 }

def annSignsIn (sessionID regenerated : String) : Visit := .signIn annMail annPassword ⟨sessionID.toList, regenerated.toList⟩

def rivals (i : Fin 2) : Visit := if i.val = 0 then annSignsIn "s0" "s1" else annSignsIn "s2" "s3"

-- The second sign-in begins after the first one has ended.
theorem session_limit_in_turn :
    ∃ final : Net (engine fun _ => 0) Err Unit 2,
      run (launch enrolledWorld fun i => (rivals i).program oneSession) (List.replicate 5 .first ++ List.replicate 2 .second) =
        some final ∧ (final.world.store.sets (createUserSessionsSetKey annVersion.id.text)).length ≤ 1 := by
  obtain ⟨final, reached, -⟩ := run_exists (launch enrolledWorld fun i => (rivals i).program oneSession :
    Net (engine fun _ => 0) Err Unit 2) (List.replicate 5 .first ++ List.replicate 2 .second) (fun _ => True) (by decide)
  exact ⟨final, reached, session_limit (fun _ => 0) oneSession rivals enrolledWorld (fun _ => Nat.zero_le _) _ final
    (by decide) reached annVersion.id.text⟩

-- Both sign-ins read the size of the index before either one adds to it.
theorem racing_sign_ins_exceed_limit :
    ∃ final : Net (engine fun _ => 0) Err Unit 2,
      run (launch enrolledWorld fun i => (rivals i).program oneSession)
        (List.replicate 2 .first ++ List.replicate 5 .second ++ List.replicate 3 .first) = some final ∧
        oneSession.maxUserSessions < (final.world.store.sets (createUserSessionsSetKey annVersion.id.text)).length :=
  run_exists _ _ _ (by decide)

end RateWise
