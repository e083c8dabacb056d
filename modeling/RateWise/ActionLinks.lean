import RateWise.SessionLimit

set_option autoImplicit false

namespace RateWise

open Interleave
open ReadCommitted

structure LinkConfig extends AuthConfig where
  signOutAllTokenSecret : Text
  signOutAllTokenExp : Int

def LinkConfig.signOutAllToken (config : LinkConfig) : TokensFeatureOptions :=
  ⟨config.signOutAllTokenSecret, config.signOutAllTokenExp, .signOutAll, ["id"]⟩

inductive ActionLink where
  | verifyAccount
  | deleteAccount
  | signOutAllPublic
deriving DecidableEq

namespace ActionLink

def options (config : LinkConfig) : ActionLink → TokensFeatureOptions
  | .verifyAccount => config.toAuthConfig.accountVerificationToken
  | .deleteAccount => config.toAuthConfig.accountDeletionToken
  | .signOutAllPublic => config.signOutAllToken

def program (config : LinkConfig) (order : Arrangement) (tokenInUrl : Token) : ActionLink → Async Unit
  | .verifyAccount => AuthService.verifyAccount config.toAuthConfig tokenInUrl
  | .deleteAccount => AuthService.deleteAccount config.toAuthConfig tokenInUrl
  | .signOutAllPublic => do
      let _sessions ← AuthService.signOutAllPublic config.signOutAllToken order tokenInUrl
      pure ()

end ActionLink

-- How far a request has come with its token: it read the blacklist and found
-- nothing (or the token), it read the clock for the entry, it wrote the entry,
-- or the entry was lost.
inductive Presentation where
  | unread
  | passed
  | timed (time : Int)
  | listed
  | lost
  | refused
deriving DecidableEq

namespace Presentation

def after (key : Text) : Presentation → Event Api → Presentation
  | .unread, .ran (.cmd (.get asked)) (.ok reply) =>
      let found : Option Text := reply
      if asked = key then (if found.isSome then .refused else .passed) else .unread
  | .passed, .ran (.cmd .now) (.ok time) => .timed time
  | .passed, .ran (.cmd .now) (.error _) => .lost
  | .timed time, .ran (.cmd (.set stored _ _)) (.ok _) => if stored = key then .listed else .timed time
  | .timed time, .ran (.cmd (.set stored _ _)) (.error _) => if stored = key then .lost else .timed time
  | presentation, _ => presentation

-- The blacklist key is read once, and written once with the seconds that the
-- clock left of the token.
def allows (key : Text) (exp : Int) : Presentation → Api.Stmt → Prop
  | .unread, .cmd (.get _) => True
  | _, .cmd (.get asked) => asked ≠ key
  | .timed time, .cmd (.set stored _ ex) => stored = key →
      ex = ((some exp).map fun exp => TokensService.calculateTokenTTLSeconds exp time).filter fun ttl => ttl ≠ 0
  | _, .cmd (.set stored _ _) => stored ≠ key
  | _, .cmd (.del removed) => removed ≠ key
  | _, .cmd (.multiStoreSetAdd stored _ _ _) => stored ≠ key
  | _, _ => True

def accepted : Presentation → Bool
  | .unread => false
  | .refused => false
  | _ => true

def busy : Presentation → Bool
  | .passed => true
  | .timed _ => true
  | _ => false

def spent : Presentation → Bool
  | .listed => true
  | .lost => true
  | _ => false

end Presentation

@[reducible] def presentations (key : Text) (exp : Int) : Typestate Api :=
  ⟨Presentation, .unread, Presentation.after key, Presentation.allows key exp⟩

-- From when on a request does more than to read and to write its entry: with
-- its check on the blacklist behind it, or with its entry written.
def ActionLink.armed : ActionLink → Presentation → Bool
  | .verifyAccount, p => p.accepted
  | .deleteAccount, p => p = .listed
  | .signOutAllPublic, p => p = .listed

def Careful (key : Text) : Api.Stmt → Prop
  | .cmd .now => True
  | .cmd (.get _) => True
  | .cmd (.set stored _ _) => stored = key
  | .sql (.findAccount _) => True
  | _ => False

@[reducible] def handling (link : ActionLink) (key : Text) (exp : Int) : Typestate Api :=
  (presentations key exp).within fun p s => link.armed p = false → Careful key s

def Elsewhere (key : Text) : Api.Stmt → Prop
  | .cmd .now => False
  | .cmd (.get asked) => asked ≠ key
  | .cmd (.set stored _ _) => stored ≠ key
  | .cmd (.del removed) => removed ≠ key
  | .cmd (.multiStoreSetAdd stored _ _ _) => stored ≠ key
  | _ => True

section Programs

variable {key : Text} {exp : Int}

theorem presentations_steady : (presentations key exp).Steady := by
  intro p
  cases p <;> exact ⟨rfl, rfl, rfl⟩

theorem elsewhere_idle (s : Api.Stmt) (elsewhere : Elsewhere key s) : (presentations key exp).Idle s := by
  intro p
  cases s with
  | sql s => exact ⟨by cases p <;> trivial, fun reply => by cases p <;> rfl⟩
  | tryLock other => exact ⟨by cases p <;> trivial, fun reply => by cases p <;> rfl⟩
  | cmd c =>
      cases c with
      | now => cases elsewhere
      | get asked =>
          have different : asked ≠ key := elsewhere
          cases p with
          | unread =>
              refine ⟨trivial, fun reply => ?_⟩
              cases reply with
              | error fault => rfl
              | ok found => simp [presentations, Presentation.after, different]
          | _ => exact ⟨different, fun reply => rfl⟩
      | set stored value ex =>
          have different : stored ≠ key := elsewhere
          cases p with
          | timed time =>
              refine ⟨fun same => absurd same different, fun reply => ?_⟩
              cases reply <;> simp [presentations, Presentation.after, different]
          | _ => exact ⟨different, fun reply => rfl⟩
      | del removed => exact ⟨by cases p <;> exact elsewhere, fun reply => by cases p <;> rfl⟩
      | multiStoreSetAdd stored value set member => exact ⟨by cases p <;> exact elsewhere, fun reply => by cases p <;> rfl⟩
      | _ => exact ⟨by cases p <;> trivial, fun reply => by cases p <;> rfl⟩

theorem blacklist_key_head (jti : Text) (key : Text) (head : key[0]? ≠ some 'b') : key ≠ createBlacklistTokenKey jti := by
  rintro rfl
  exact head rfl

theorem elsewhere_sql (s : Sql) : (sql s).Sends (Elsewhere key) := ⟨trivial, fun reply => by cases reply <;> trivial⟩

theorem elsewhere_redis (c : RedisCmd) (elsewhere : Elsewhere key (.cmd c)) : (redis c).Sends (Elsewhere key) :=
  ⟨elsewhere, fun reply => by cases reply <;> trivial⟩

theorem elsewhere_delete (removed : Text) (different : removed ≠ key) : (SessionsService.delete removed).Sends (Elsewhere key) :=
  sends_bind _ _ _ (elsewhere_redis (.del removed) different) fun _ => trivial

theorem elsewhere_forget (jti id : Text) :
    (UsersService.deleteUserFromCache id).Sends (Elsewhere (createBlacklistTokenKey jti)) :=
  sends_bind _ _ _ (elsewhere_redis (.del _) (blacklist_key_head jti _ (by rintro impossible; cases impossible))) fun _ => trivial

theorem elsewhere_find_one (userId : Text) : (UsersService.findOneById userId).Sends (Elsewhere key) := by
  refine sends_bind _ _ _ ?_ fun _ => elsewhere_sql _
  unfold UsersService.validUuidOrThrow
  split <;> trivial

theorem elsewhere_find (userId : Text) : (UsersService.findOneByIdOrThrow userId).Sends (Elsewhere key) := by
  refine sends_bind _ _ _ (elsewhere_find_one userId) fun found => ?_
  cases found <;> trivial

theorem elsewhere_exists (userId : Text) : (UsersService.existsOrThrow userId).Sends (Elsewhere key) := by
  rw [exists_or_throw_eq]
  refine sends_bind _ _ _ (elsewhere_find_one userId) fun found => ?_
  cases found <;> trivial

theorem elsewhere_save (jti : Text) (user : Account) : (UsersService.saveOne user).Sends (Elsewhere (createBlacklistTokenKey jti)) := by
  refine sends_catching _ _ _ (sends_bind _ _ _ ?_ fun _ => elsewhere_forget jti _) fun _ => trivial
  refine sends_bind _ _ _ (elsewhere_sql _) fun found => ?_
  cases found with
  | none => exact sends_transaction _ _ (elsewhere_sql _)
  | some row =>
      show (if UsersService.changedColumns user row = .unchanged then pure ()
        else transaction (sql (.updateAccount user.id (UsersService.changedColumns user row))) : Async Unit).Sends _
      split
      · trivial
      · exact sends_transaction _ _ (elsewhere_sql _)

theorem elsewhere_change (jti userId : Text) (refusal : Account → Option Err) (status : AccountStatus) :
    (changeStatus refusal status userId).Sends (Elsewhere (createBlacklistTokenKey jti)) := by
  refine sends_bind _ _ _ (elsewhere_find userId) fun user => ?_
  unfold setStatusUnless
  split
  · trivial
  · exact elsewhere_save jti _

theorem elsewhere_delete_one (jti userId : Text) :
    (UserDeletionService.deleteOne userId).Sends (Elsewhere (createBlacklistTokenKey jti)) := by
  refine sends_bind _ _ _ (sends_transaction _ _ ?_) fun _ => elsewhere_forget jti userId
  refine sends_quiet _ _ _ _ (deletion_quiet userId) fun s removing => ?_
  cases s with
  | sql s => trivial
  | tryLock other => trivial
  | cmd c => cases removing

theorem session_keys_elsewhere (jti : Text) (removal : Removal) :
    removal.promise.Sends (Elsewhere (createBlacklistTokenKey jti)) := by
  cases removal with
  | record sid => exact elsewhere_delete _ (session_blacklist_keys sid jti)
  | relation sid => exact elsewhere_delete _ (relation_blacklist_keys sid jti)
  | index userId => exact elsewhere_delete _ (blacklist_key_head jti _ (by rintro impossible; cases impossible))
  | member userId sid => exact elsewhere_redis (.setRem _ _) trivial

theorem elsewhere_rejections (promises : List (Async Unit)) (all : ∀ promise ∈ promises, promise.Sends (Elsewhere key)) :
    (rejections promises).Sends (Elsewhere key) := by
  induction promises with
  | nil => trivial
  | cons promise rest ih =>
      refine sends_bind _ _ _ (sends_catching _ _ _ (sends_bind _ _ _ (all promise (by simp)) fun _ => trivial) fun _ => trivial)
        fun _ => ?_
      exact sends_bind _ _ _ (ih fun other listed => all other (by simp [listed])) fun _ => trivial

theorem elsewhere_settled (promises : List (Async Unit)) (all : ∀ promise ∈ promises, promise.Sends (Elsewhere key)) :
    (runSettledOrThrow promises).Sends (Elsewhere key) := by
  refine sends_bind _ _ _ (elsewhere_rejections promises all) fun reasons => ?_
  cases reasons with
  | nil => trivial
  | cons first others => cases others <;> trivial

theorem elsewhere_delete_all_in (jti : Text) (order : Arrangement) (userId : Text) :
    (SessionsService.deleteAllIn order userId).Sends (Elsewhere (createBlacklistTokenKey jti)) := by
  refine sends_bind _ _ _ (elsewhere_redis (.sMembers _) trivial) fun sessIDs => ?_
  refine sends_bind _ _ _ (elsewhere_settled _ fun promise member => ?_) fun _ => trivial
  rw [(order.perm _).mem_iff, deletions_eq] at member
  obtain ⟨removal, -, rfl⟩ := List.mem_map.mp member
  exact session_keys_elsewhere jti removal

theorem elsewhere_delete_all (jti userId : Text) :
    (SessionsService.deleteAll userId).Sends (Elsewhere (createBlacklistTokenKey jti)) := by
  refine sends_bind _ _ _ (elsewhere_redis (.sMembers _) trivial) fun sessIDs => ?_
  have group : ∀ kind : Text → Removal, (runSettledOrThrow (sessIDs.map fun id => (kind id).promise)).Sends
      (Elsewhere (createBlacklistTokenKey jti)) := by
    refine fun kind => elsewhere_settled _ fun promise member => ?_
    obtain ⟨id, -, rfl⟩ := List.mem_map.mp member
    exact session_keys_elsewhere jti (kind id)
  refine sends_bind _ _ _ (elsewhere_settled _ fun promise member => ?_) fun _ => trivial
  simp only [List.mem_cons, List.not_mem_nil, or_false] at member
  rcases member with rfl | rfl | rfl
  · exact group Removal.record
  · exact session_keys_elsewhere jti (.index userId)
  · exact group Removal.relation

theorem elsewhere_tame {α : Type} (prog : Async α) (sends : prog.Sends (Elsewhere key)) (p : Presentation) :
    prog.TameOr (presentations key exp) (fun q _ => q = p) (fun q _ => q = p) p := by
  refine tame_sends presentations_steady prog ?_ p
  induction prog with
  | done value => trivial
  | throw error => trivial
  | stmt s resume ih => exact ⟨elsewhere_idle s sends.1, fun reply => ih reply (sends.2 reply)⟩
  | beginTx rest ih => exact ih sends
  | commitTx rest ih => exact ih sends
  | rollbackTx rest ih => exact ih sends

theorem reject_if_tame (met : Bool) (error : Err) (p : Presentation) :
    (rejectIf met error).TameOr (presentations key exp) (fun q _ => q = p) (fun _ _ => True) p := by
  cases met with
  | true => trivial
  | false => rfl

theorem verify_tame (opts : TokensFeatureOptions) (secret : Text) (payload : JwtPayload) (jti : Text)
    (named : payload.jti = some jti) :
    (TokensService.verify opts (.signed secret payload)).TameOr (presentations (createBlacklistTokenKey jti) exp)
      (fun p value => p = .passed ∧ value = payload) (fun _ _ => True) .unread := by
  refine tame_bind (fun (p : Presentation) value => p = .unread ∧ value = payload) _ _ _ _ _ ?_ ?_
  · refine tame_bind _ _ _ _ _ _ (reject_if_tame _ _ _) ?_
    rintro p value rfl
    refine tame_bind (fun (p : Presentation) _ => p = .unread) _ _ _ _ _ ⟨trivial, fun reply => ?_⟩ ?_
    · cases reply with
      | error fault => trivial
      | ok now => rfl
    · rintro p now rfl
      refine tame_bind _ _ _ _ _ _ (reject_if_tame _ _ .unread) ?_
      rintro p started rfl
      refine tame_bind _ _ _ _ _ _ (reject_if_tame _ _ .unread) ?_
      rintro p value rfl
      exact ⟨rfl, rfl⟩
  · rintro p value ⟨rfl, rfl⟩
    refine tame_bind _ _ _ _ _ _ (reject_if_tame _ _ .unread) ?_
    rintro p passed rfl
    refine tame_bind _ _ _ _ _ _ (reject_if_tame _ _ .unread) ?_
    rintro p passed rfl
    have own : createBlacklistTokenKey (orUndefined value.jti) = createBlacklistTokenKey jti := by rw [named]; rfl
    rw [own]
    refine tame_bind (fun (p : Presentation) (found : Option Text) => p = if found.isSome then .refused else .passed)
      _ _ _ _ _ ⟨trivial, fun reply => ?_⟩ ?_
    · cases reply with
      | error fault => trivial
      | ok found => exact if_pos rfl
    · rintro p found rfl
      cases found with
      | none => exact ⟨rfl, rfl⟩
      | some entry => trivial

theorem blacklist_tame (jti : Text) :
    (TokensService.blacklist jti (some exp)).TameOr (presentations (createBlacklistTokenKey jti) exp) (fun p _ => p = .listed)
      (fun p _ => p = .lost) .passed := by
  refine ⟨trivial, fun reply => ?_⟩
  cases reply with
  | error fault => rfl
  | ok now =>
      refine ⟨fun _ => rfl, fun reply => ?_⟩
      cases reply with
      | error fault => exact if_pos rfl
      | ok stored => exact if_pos rfl

theorem handled_elsewhere {α : Type} (link : ActionLink) (prog : Async α) (p : Presentation) (armed : link.armed p = true)
    (sends : prog.Sends (Elsewhere key)) : prog.TameOr (handling link key exp) (fun q _ => q = p) (fun q _ => q = p) p := by
  refine tame_rests (T := handling link key exp) p (@presentations_steady key exp p) prog (sends_mono _ _ _ sends fun s elsewhere => ?_)
  obtain ⟨allowed, stays⟩ := @elsewhere_idle key exp s elsewhere p
  exact ⟨⟨allowed, fun unarmed => by rw [armed] at unarmed; cases unarmed⟩, stays⟩

theorem handled_careful {α : Type} (link : ActionLink) (post : Presentation → α → Prop) (thrown : Presentation → Err → Prop)
    (prog : Async α) (p : Presentation) (tame : prog.TameOr (presentations key exp) post thrown p)
    (sends : prog.Sends (Careful key)) : prog.TameOr (handling link key exp) post thrown p :=
  tame_within (T := presentations key exp) (fun (q : Presentation) s => link.armed q = false → Careful key s) (Careful key)
    (fun _ _ careful _ => careful) post thrown prog p tame sends

theorem careful_verify (opts : TokensFeatureOptions) (token : Token) :
    (AuthService.verifyTokenOrThrow opts token).Sends (Careful key) := by
  refine sends_catching _ _ _ (sends_quiet _ _ _ _ (verify_reading opts token) fun s reading => ?_) fun error => ?_
  · rcases reading with rfl | ⟨asked, rfl⟩ <;> trivial
  · cases error <;> trivial

theorem careful_blacklist (jti : Text) (exp : Option Int) :
    (TokensService.blacklist jti exp).Sends (Careful (createBlacklistTokenKey jti)) :=
  sends_bind _ _ _ ⟨trivial, fun reply => by cases reply <;> trivial⟩ fun _ => ⟨rfl, fun reply => by cases reply <;> trivial⟩

theorem careful_exists (userId : Text) : (UsersService.existsOrThrow userId).Sends (Careful key) := by
  rw [exists_or_throw_eq]
  refine sends_bind _ _ _ (sends_bind _ _ _ ?_ fun _ => ⟨trivial, fun reply => by cases reply <;> trivial⟩) fun found => ?_
  · unfold UsersService.validUuidOrThrow
    split <;> trivial
  · cases found <;> trivial

theorem link_handled (config : LinkConfig) (link : ActionLink) (order : Arrangement) (secret : Text) (payload : JwtPayload)
    (jti : Text) (named : payload.jti = some jti) (expires : payload.exp = some exp) :
    (link.program config order (.signed secret payload)).TameOr (handling link (createBlacklistTokenKey jti) exp)
      (fun p _ => p.spent = true ∧ (link = .verifyAccount ∨ p = .listed)) (fun _ _ => True) .unread := by
  have verified : ∀ opts : TokensFeatureOptions, (AuthService.verifyTokenOrThrow opts (.signed secret payload)).TameOr
      (handling link (createBlacklistTokenKey jti) exp) (fun p value => p = .passed ∧ value = payload) (fun _ _ => True)
      .unread := by
    refine fun opts => handled_careful link _ _ _ _ ?_ (careful_verify opts _)
    refine tame_catching _ _ _ _ _ _ (verify_tame opts secret payload jti named) fun p error _ => ?_
    cases error <;> trivial
  have blacklisted : (TokensService.blacklist (orUndefined payload.jti) payload.exp).TameOr
      (handling link (createBlacklistTokenKey jti) exp) (fun p _ => p = .listed) (fun p _ => p = .lost) .passed := by
    rw [named, expires]
    exact handled_careful link _ _ _ _ (blacklist_tame jti) (careful_blacklist jti _)
  have errors : ∀ (p : Presentation) (error : Err), p = .lost → True := fun _ _ _ => trivial
  cases link with
  | verifyAccount =>
      refine tame_bind _ _ _ _ _ _ (verified _) ?_
      rintro p value ⟨rfl, rfl⟩
      refine tame_bind _ _ _ _ _ _ (tame_mono _ _ _ _ _ _ (handled_elsewhere .verifyAccount _ .passed rfl
        (elsewhere_change jti value.id _ _)) (fun _ _ same => same) fun _ _ _ => trivial) ?_
      rintro p changed rfl
      refine tame_catching _ _ _ _ _ _ (tame_mono _ _ _ _ _ _ blacklisted ?_ fun _ _ same => same) ?_
      · rintro p value rfl
        exact ⟨rfl, .inl rfl⟩
      · rintro p error rfl
        exact ⟨rfl, .inl rfl⟩
  | deleteAccount =>
      refine tame_bind _ _ _ _ _ _ (verified _) ?_
      rintro p value ⟨rfl, rfl⟩
      refine tame_bind _ _ _ _ _ _ (tame_mono _ _ _ _ _ _ blacklisted (fun _ _ same => same) errors) ?_
      rintro p stored rfl
      refine tame_bind _ _ _ _ _ _ (tame_mono _ _ _ _ _ _ (handled_elsewhere .deleteAccount _ .listed rfl
        (elsewhere_delete_one jti value.id)) (fun _ _ same => same) fun _ _ _ => trivial) ?_
      rintro p deleted rfl
      have cleaned : (Prog.catching (Prog.bind (SessionsService.deleteAll value.id) fun _ => (pure () : Async Unit))
          fun _ => pure ()).Sends (Elsewhere (createBlacklistTokenKey jti)) :=
        sends_catching _ _ _ (sends_bind _ _ _ (elsewhere_delete_all jti value.id) fun _ => trivial) fun _ => trivial
      refine tame_mono _ _ _ _ _ _ (handled_elsewhere .deleteAccount _ .listed rfl cleaned) ?_ fun _ _ _ => trivial
      rintro p done rfl
      exact ⟨rfl, .inr rfl⟩
  | signOutAllPublic =>
      refine tame_bind (fun (p : Presentation) _ => p = .listed) _ _ _ _ _ ?_ ?_
      · refine tame_bind _ _ _ _ _ _ (verified _) ?_
        rintro p value ⟨rfl, rfl⟩
        refine tame_bind _ _ _ _ _ _ (tame_mono _ _ _ _ _ _ (handled_careful .signOutAllPublic _ _ _ .passed
          (elsewhere_tame _ (elsewhere_exists value.id) .passed) (careful_exists value.id)) (fun _ _ same => same)
          fun _ _ _ => trivial) ?_
        rintro p found rfl
        refine tame_bind _ _ _ _ _ _ (tame_mono _ _ _ _ _ _ blacklisted (fun _ _ same => same) errors) ?_
        rintro p stored rfl
        exact tame_mono _ _ _ _ _ _ (handled_elsewhere .signOutAllPublic _ .listed rfl
          (elsewhere_delete_all_in jti order value.id)) (fun _ _ same => same) fun _ _ _ => trivial
      · rintro p sessions rfl
        exact ⟨rfl, .inr rfl⟩

theorem link_tame (config : LinkConfig) (link : ActionLink) (order : Arrangement) (secret : Text) (payload : JwtPayload)
    (jti : Text) (named : payload.jti = some jti) (expires : payload.exp = some exp) :
    (link.program config order (.signed secret payload)).TameOr (presentations (createBlacklistTokenKey jti) exp)
      (fun p _ => p.spent = true) (fun _ _ => True) .unread :=
  tame_mono _ _ _ _ _ _ (tame_of_within _ _ _ _ _ (link_handled config link order secret payload jti named expires))
    (fun _ _ both => both.1) fun _ _ _ => trivial

end Programs

-- Until the token expires the blacklist has its entry.
def Secured (key : Text) (exp : Int) (store : Redis) : Prop :=
  exp * 1000 ≤ store.now ∨ ∃ entry, store.strings key = some entry ∧ ∀ time, entry.expiresAt = some time → exp * 1000 ≤ time

section Effects

variable {key : Text} {exp : Int}

theorem secured_live (store : Redis) (secured : Secured key exp store) (early : store.now < exp * 1000) :
    store.live key ≠ none := by
  rcases secured with expired | ⟨entry, found, lasts⟩
  · omega
  · obtain ⟨value, expiresAt⟩ := entry
    unfold Redis.live
    rw [found]
    cases expiresAt with
    | none => simp
    | some time =>
        have later : exp * 1000 ≤ time := lasts time rfl
        have alive : store.now < time := by omega
        simp [alive]

theorem entry_effect (store : Redis) (value : Text) (time : Int) (ex : Option Int) (read : time ≤ store.now)
    (seconds : ex = ((some exp).map fun exp => TokensService.calculateTokenTTLSeconds exp time).filter fun ttl => ttl ≠ 0) :
    (∀ left, Redis.exec store (.set key value ex) = .ok ((), left) → left.now = store.now ∧ Secured key exp left) ∧
      ∀ fault, Redis.exec store (.set key value ex) = .error fault → Secured key exp store := by
  have ttl : TokensService.calculateTokenTTLSeconds exp time = exp - time / 1000 := rfl
  by_cases zero : exp - time / 1000 = 0
  · have plain : ex = none := by rw [seconds]; simp [ttl, zero]
    subst plain
    refine ⟨fun left ran => ?_, fun fault impossible => by cases impossible⟩
    cases ran
    exact ⟨rfl, .inr ⟨⟨value, none⟩, by simp, fun time impossible => by cases impossible⟩⟩
  · have timed : ex = some (exp - time / 1000) := by rw [seconds]; simp [ttl, zero]
    subst timed
    by_cases positive : 0 < exp - time / 1000
    · simp only [Redis.exec, positive, if_true]
      refine ⟨fun left ran => ?_, fun fault impossible => by cases impossible⟩
      cases ran
      refine ⟨rfl, .inr ⟨⟨value, some (store.now + (exp - time / 1000) * 1000)⟩, by simp, fun last same => ?_⟩⟩
      cases same
      omega
    · simp only [Redis.exec, positive, if_false]
      refine ⟨fun left impossible => (by cases impossible), fun fault _ => .inl ?_⟩
      omega

theorem command_now (store left : Redis) (c : RedisCmd) (reply : c.Reply) (ran : Redis.exec store c = .ok (reply, left)) :
    left.now = store.now := by
  cases c with
  | set other value ex =>
      cases ex with
      | none => cases ran; rfl
      | some seconds =>
          simp only [Redis.exec] at ran
          split at ran
          · cases ran; rfl
          · cases ran
  | _ => cases ran; rfl

theorem command_strings (store left : Redis) (c : RedisCmd) (reply : c.Reply) (ran : Redis.exec store c = .ok (reply, left))
    (p : Presentation) (allowed : p.allows key exp (.cmd c)) (noEntry : ∀ value ex, c ≠ .set key value ex) :
    left.strings key = store.strings key := by
  cases c with
  | set other value ex =>
      have different : key ≠ other := fun same => noEntry value ex (by rw [same])
      cases ex with
      | none =>
          cases ran
          exact Function.update_of_ne different _ _
      | some seconds =>
          simp only [Redis.exec] at ran
          split at ran
          · cases ran
            exact Function.update_of_ne different _ _
          · cases ran
  | del other =>
      have different : other ≠ key := by cases p <;> exact allowed
      cases ran
      exact Function.update_of_ne different.symm _ _
  | multiStoreSetAdd other value set member =>
      have different : other ≠ key := by cases p <;> exact allowed
      cases ran
      exact Function.update_of_ne different.symm _ _
  | _ => cases ran; rfl

theorem command_secured (store left : Redis) (c : RedisCmd) (reply : c.Reply) (ran : Redis.exec store c = .ok (reply, left))
    (p : Presentation) (allowed : p.allows key exp (.cmd c)) (timely : ∀ time, p = .timed time → time ≤ store.now) :
    (Secured key exp store → Secured key exp left) ∧ ((∃ value ex, c = .set key value ex) → Secured key exp left) := by
  by_cases entry : ∃ value ex, c = .set key value ex
  · obtain ⟨value, ex, rfl⟩ := entry
    have written : Secured key exp left := by
      cases p with
      | timed time => exact ((entry_effect store value time ex (timely time rfl) (allowed rfl)).1 left ran).2
      | _ => exact absurd rfl allowed
    exact ⟨fun _ => written, fun _ => written⟩
  · have strings := command_strings store left c reply ran p allowed fun value ex same => entry ⟨value, ex, same⟩
    have now := command_now store left c reply ran
    refine ⟨fun secured => ?_, fun writes => absurd writes entry⟩
    unfold Secured at secured ⊢
    rw [strings, now]
    exact secured

theorem accepted_after (p : Presentation) (event : Event Api) (accepted : (p.after key event).accepted = true) :
    p.accepted = true ∨ (p = .unread ∧ event = .ran (.cmd (.get key)) (.ok (none : Option Text))) := by
  unfold Presentation.after at accepted
  split at accepted
  · rename_i asked reply
    obtain ⟨found, same⟩ : ∃ found : Option Text, found = reply := ⟨reply, rfl⟩
    subst same
    simp only at accepted
    split at accepted
    · rename_i same
      subst same
      cases found with
      | none => exact .inr ⟨rfl, rfl⟩
      | some entry => cases accepted
    · cases accepted
  · exact .inl rfl
  · exact .inl rfl
  · exact .inl rfl
  · exact .inl rfl
  · exact .inl accepted

theorem timed_after (p : Presentation) (event : Event Api) (time : Int) (timed : p.after key event = .timed time) :
    p = .timed time ∨ event = .ran (.cmd .now) (.ok time) := by
  unfold Presentation.after at timed
  split at timed
  · simp only at timed
    split at timed
    · split at timed <;> cases timed
    · cases timed
  · cases timed
    exact .inr rfl
  · cases timed
  · split at timed
    · cases timed
    · exact .inl timed
  · split at timed
    · cases timed
    · exact .inl timed
  · exact .inl timed

theorem spent_after (p : Presentation) (event : Event Api) (spent : (p.after key event).spent = true) :
    p.spent = true ∨ (p = .passed ∧ ∃ fault, event = .ran (.cmd .now) (.error fault)) ∨
      ∃ time value ex reply, p = .timed time ∧ event = .ran (.cmd (.set key value ex)) reply := by
  unfold Presentation.after at spent
  split at spent
  · simp only at spent
    split at spent
    · split at spent <;> cases spent
    · cases spent
  · cases spent
  · rename_i fault
    exact .inr (.inl ⟨rfl, fault, rfl⟩)
  · rename_i time stored value ex reply
    split at spent
    · rename_i same
      subst same
      exact .inr (.inr ⟨time, value, ex, _, rfl, rfl⟩)
    · cases spent
  · rename_i time stored value ex fault
    split at spent
    · rename_i same
      subst same
      exact .inr (.inr ⟨time, value, ex, _, rfl, rfl⟩)
    · cases spent
  · exact .inl spent

end Effects

section Races

variable {hashtext : Text → Int32} {n : Nat} {key : Text} {exp : Int}

def presentation (key : Text) (session : Session (engine hashtext) Err Unit) : Presentation :=
  session.log.foldr (fun event p => p.after key event) .unread

def reads (key : Text) : Option Api.Stmt → Bool
  | some (.cmd (.get asked)) => asked = key
  | _ => false

def blacklists (key : Text) : Option Api.Stmt → Bool
  | some (.cmd .now) => true
  | some (.cmd (.set stored _ _)) => stored = key
  | _ => false

-- When a request finds nothing in the blacklist, no other request is between
-- its own read and its entry, and no entry has run out before the token. The
-- blacklisting itself is not interrupted.
def Undisturbed (key : Text) (exp : Int) (net : Net (engine hashtext) Err Unit n) : Move (engine hashtext) n → Prop
  | .turn i => reads key (net.sessions i).prog.asked = true → (net.world.store.live key).isNone = true → ∀ j, j ≠ i →
      ((presentation key (net.sessions j)).busy = true → (net.sessions j).outcome.isSome = true) ∧
      ((presentation key (net.sessions j)).spent = true → net.world.store.now < exp * 1000)
  | .fault i _ => (presentation key (net.sessions i)).busy = true → blacklists key (net.sessions i).prog.asked = false
  | .drift _ => True

instance (key : Text) (exp : Int) (net : Net (engine hashtext) Err Unit n) : ∀ move, Decidable (Undisturbed key exp net move)
  | .turn i => inferInstanceAs (Decidable (reads key (net.sessions i).prog.asked = true →
      (net.world.store.live key).isNone = true → ∀ j, j ≠ i →
        ((presentation key (net.sessions j)).busy = true → (net.sessions j).outcome.isSome = true) ∧
        ((presentation key (net.sessions j)).spent = true → net.world.store.now < exp * 1000)))
  | .fault i _ => inferInstanceAs (Decidable ((presentation key (net.sessions i)).busy = true →
      blacklists key (net.sessions i).prog.asked = false))
  | .drift _ => .isTrue trivial

def Competes (key : Text) (session : Session (engine hashtext) Err Unit) : Prop :=
  (presentation key session).accepted = true ∧ ∀ error, session.outcome ≠ some (.error error)

structure Presents (key : Text) (exp : Int) (world : World) (session : Session (engine hashtext) Err Unit) : Prop where
  tamed : Tamed (presentations key exp) (fun p _ => p.spent = true) session
  timely : ∀ time, presentation key session = .timed time → time ≤ world.store.now
  secured : (presentation key session).spent = true → Secured key exp world.store

abbrev SingleUse (key : Text) (exp : Int) (net : Net (engine hashtext) Err Unit n) : Prop :=
  Modular (fun _ => True) (fun _ world session => Presents key exp world session)
    (fun a b => ¬ (Competes key a ∧ Competes key b)) net

theorem presents_later (world left : World) (session : Session (engine hashtext) Err Unit)
    (presents : Presents key exp world session) (later : world.store.now ≤ left.store.now)
    (keeps : Secured key exp world.store → Secured key exp left.store) : Presents key exp left session :=
  ⟨presents.tamed, fun time timed => (presents.timely time timed).trans later, fun spent => keeps (presents.secured spent)⟩

theorem finished_spent (world : World) (session : Session (engine hashtext) Err Unit) (presents : Presents key exp world session)
    (finished : session.outcome.isSome = true) (succeeds : ∀ error, session.outcome ≠ some (.error error)) :
    (presentation key session).spent = true := by
  have tamed := presents.tamed
  obtain ⟨prog, tx, log⟩ := session
  cases prog with
  | done value => exact tamed
  | throw error => exact absurd rfl (succeeds error)
  | _ => cases finished

@[reducible] def presentationsFrom (start : Presentation) (key : Text) (exp : Int) : Typestate Api :=
  ⟨Presentation, start, Presentation.after key, Presentation.allows key exp⟩

theorem turn_effect_from {α : Type} (start : Presentation) (post : Presentation → α → Prop) (thrown : Presentation → Err → Prop)
    (world left : World) (others : List AccountTx) (session after : Session (engine hashtext) Err α)
    (tamed : TamedOr (presentationsFrom start key exp) post thrown session)
    (timely : ∀ time, (presentationsFrom start key exp).phase session.log = .timed time → time ≤ world.store.now)
    (advanced : session.advance world others = some (left, after)) :
    left.store.now = world.store.now ∧ (Secured key exp world.store → Secured key exp left.store) ∧
      (∀ time, (presentationsFrom start key exp).phase after.log = .timed time → time ≤ left.store.now) ∧
      ∃ event, after.log = event :: session.log ∧
        (presentationsFrom start key exp).phase after.log =
          ((presentationsFrom start key exp).phase session.log).after key event ∧
        ∀ value ex reply, event = .ran (.cmd (.set key value ex)) (.ok reply) →
          (∃ time, (presentationsFrom start key exp).phase session.log = .timed time) ∧ Secured key exp left.store := by
  obtain ⟨event, logged, effect⟩ := advance_store world left others session after advanced
  obtain ⟨-, -, -, allows⟩ := tamed_advance world left others session after tamed advanced
  have phase : (presentationsFrom start key exp).phase after.log =
      ((presentationsFrom start key exp).phase session.log).after key event := by
    rw [logged]
    rfl
  rcases effect with ⟨same, notCommand, -⟩ | ⟨c, reply, asks, rfl, ran⟩
  · rw [same]
    refine ⟨rfl, id, fun time timed => ?_, event, logged, phase, fun _ _ _ entered => absurd entered (notCommand _ _)⟩
    rw [phase] at timed
    rcases timed_after _ _ _ timed with before | rfl
    · exact timely time before
    · exact absurd rfl (notCommand _ _)
  · have allowed : ((presentationsFrom start key exp).phase session.log).allows key exp (.cmd c) := allows _ asks
    have now := command_now _ _ c reply ran
    obtain ⟨keeps, writes⟩ := command_secured _ _ c reply ran _ allowed timely
    refine ⟨now, keeps, fun time timed => ?_, _, logged, phase, fun value ex answer entered => ?_⟩
    · rw [now]
      rw [phase] at timed
      rcases timed_after _ _ _ timed with before | same
      · exact timely time before
      · cases same
        have pair := Except.ok.inj (show (Except.ok (world.store.now, world.store) : Except Fault (Int × Redis)) =
          .ok (time, left.store) from ran)
        exact le_of_eq (congrArg Prod.fst pair).symm
    · cases entered
      refine ⟨?_, writes ⟨value, ex, rfl⟩⟩
      cases stands : (presentationsFrom start key exp).phase session.log with
      | timed time => exact ⟨time, rfl⟩
      | _ => rw [stands] at allowed; exact absurd rfl allowed

theorem turn_effect (post : Presentation → Unit → Prop) (world left : World) (others : List AccountTx)
    (session after : Session (engine hashtext) Err Unit) (tamed : Tamed (presentations key exp) post session)
    (timely : ∀ time, presentation key session = .timed time → time ≤ world.store.now)
    (advanced : session.advance world others = some (left, after)) :
    left.store.now = world.store.now ∧ (Secured key exp world.store → Secured key exp left.store) ∧
      (∀ time, presentation key after = .timed time → time ≤ left.store.now) ∧
      ∃ event, after.log = event :: session.log ∧ presentation key after = (presentation key session).after key event ∧
        ∀ value ex reply, event = .ran (.cmd (.set key value ex)) (.ok reply) →
          (∃ time, presentation key session = .timed time) ∧ Secured key exp left.store :=
  turn_effect_from .unread post (fun _ _ => True) world left others session after tamed timely advanced

theorem turn_presents (net : Net (engine hashtext) Err Unit n) (i : Fin n) (left : World)
    (session : Session (engine hashtext) Err Unit) (presents : Presents key exp net.world (net.sessions i))
    (advanced : (net.sessions i).advance net.world (others net i) = some (left, session)) :
    Presents key exp left session ∧ left.store.now = net.world.store.now ∧
      (Secured key exp net.world.store → Secured key exp left.store) := by
  obtain ⟨now, keeps, timely, event, logged, phase, entered⟩ :=
    turn_effect _ net.world left (others net i) (net.sessions i) session presents.tamed presents.timely advanced
  obtain ⟨tamed, -, -, allows⟩ := tamed_advance net.world left (others net i) (net.sessions i) session presents.tamed advanced
  refine ⟨⟨tamed, timely, fun spent => ?_⟩, now, keeps⟩
  rw [phase] at spent
  rcases spent_after _ _ spent with before | ⟨-, fault, rfl⟩ | ⟨time, value, ex, reply, timed, rfl⟩
  · exact keeps (presents.secured before)
  · obtain ⟨other, same, effect⟩ := advance_store net.world left (others net i) (net.sessions i) session advanced
    obtain rfl : other = .ran (.cmd .now) (.error fault) := (List.cons.inj (same.symm.trans logged)).1
    rcases effect with ⟨-, -, -, failed⟩ | ⟨c, reply, -, impossible, -⟩
    · cases failed _ _ rfl
    · cases impossible
  · cases reply with
    | ok answer => exact (entered value ex answer rfl).2
    | error fault =>
        obtain ⟨other, same, effect⟩ := advance_store net.world left (others net i) (net.sessions i) session advanced
        obtain rfl : other = .ran (.cmd (.set key value ex)) (.error fault) := (List.cons.inj (same.symm.trans logged)).1
        rcases effect with ⟨same, -, asks, failed⟩ | ⟨c, reply, -, impossible, -⟩
        · have allowed : Presentation.allows key exp (presentation key (net.sessions i)) (.cmd (.set key value ex)) :=
            allows _ (asks _ _ rfl)
          rw [timed] at allowed
          rw [same]
          exact (entry_effect net.world.store value time ex (presents.timely time timed) (allowed rfl)).2 fault (failed _ _ rfl)
        · cases impossible

theorem turn_alone (net : Net (engine hashtext) Err Unit n) (i j : Fin n) (different : j ≠ i) (left : World)
    (session : Session (engine hashtext) Err Unit) (inv : SingleUse key exp net) (allowed : Undisturbed key exp net (.turn i))
    (advanced : (net.sessions i).advance net.world (others net i) = some (left, session)) :
    ¬ (Competes key session ∧ Competes key (net.sessions j)) := by
  rintro ⟨mine, theirs⟩
  obtain ⟨event, logged, effect⟩ := advance_store net.world left (others net i) (net.sessions i) session advanced
  have running : (net.sessions i).outcome = none := by
    by_contra ended
    cases (advance_ended net.world (others net i) (net.sessions i) ended).1.symm.trans advanced
  have phase : presentation key session = (presentation key (net.sessions i)).after key event := by
    unfold presentation
    rw [logged]
    rfl
  rcases accepted_after _ _ (phase ▸ mine.1) with before | ⟨-, rfl⟩
  · exact inv.pair i j different.symm ⟨⟨before, fun error impossible => by rw [running] at impossible; cases impossible⟩, theirs⟩
  · rcases effect with ⟨-, notCommand, -⟩ | ⟨c, reply, asks, same, ran⟩
    · exact notCommand _ _ rfl
    · cases same
      have pair := Except.ok.inj (show (Except.ok ((net.world.store.live key).map RedisEntry.value, net.world.store) :
        Except Fault (Option Text × Redis)) = .ok (none, left.store) from ran)
      have absent : net.world.store.live key = none := Option.map_eq_none_iff.mp (congrArg Prod.fst pair)
      have reading : reads key (net.sessions i).prog.asked = true := by
        rw [asks]
        simp [reads]
      obtain ⟨finished, early⟩ := allowed reading (by rw [absent]; rfl) j different
      have spent : (presentation key (net.sessions j)).spent = true := by
        cases stands : presentation key (net.sessions j) with
        | unread => rw [Competes, stands] at theirs; cases theirs.1
        | refused => rw [Competes, stands] at theirs; cases theirs.1
        | listed => rfl
        | lost => rfl
        | passed =>
            have done := finished_spent net.world _ (inv.session j) (finished (by rw [stands]; rfl)) theirs.2
            rw [stands] at done
            cases done
        | timed time =>
            have done := finished_spent net.world _ (inv.session j) (finished (by rw [stands]; rfl)) theirs.2
            rw [stands] at done
            cases done
      exact secured_live net.world.store ((inv.session j).secured spent) (early spent) absent

theorem interrupted_presents (net : Net (engine hashtext) Err Unit n) (i : Fin n) (fault : Fault)
    (session : Session (engine hashtext) Err Unit) (presents : Presents key exp net.world (net.sessions i))
    (allowed : Undisturbed key exp net (.fault i fault)) (interrupted : (net.sessions i).interrupt fault = some session) :
    Presents key exp net.world session ∧ (Competes key session → Competes key (net.sessions i)) := by
  obtain ⟨s, asks, running, logged⟩ := interrupt_event (net.sessions i) session fault interrupted
  have phase : presentation key session = (presentation key (net.sessions i)).after key (.ran s (.error fault)) := by
    unfold presentation
    rw [logged]
    rfl
  refine ⟨⟨tamed_interrupt _ _ _ presents.tamed interrupted, fun time timed => ?_, fun spent => ?_⟩, fun mine => ?_⟩
  · rw [phase] at timed
    rcases timed_after _ _ _ timed with before | impossible
    · exact presents.timely time before
    · cases impossible
  · rw [phase] at spent
    rcases spent_after _ _ spent with before | ⟨passed, other, same⟩ | ⟨time, value, ex, reply, timed, same⟩
    · exact presents.secured before
    · cases same
      have quiet := allowed (by rw [passed]; rfl)
      rw [asks] at quiet
      cases quiet
    · cases same
      have quiet := allowed (by rw [timed]; rfl)
      rw [asks] at quiet
      simp [blacklists] at quiet
  · rcases accepted_after _ _ (phase ▸ mine.1) with before | ⟨-, impossible⟩
    · exact ⟨before, fun error same => by rw [running] at same; cases same⟩
    · cases impossible

theorem single_use_step (net : Net (engine hashtext) Err Unit n) (move : Move (engine hashtext) n)
    (next : Net (engine hashtext) Err Unit n) (inv : SingleUse key exp net) (allowed : Undisturbed key exp net move)
    (stepped : step net move = some next) : SingleUse key exp next := by
  have symmetric : ∀ a b : Session (engine hashtext) Err Unit, ¬ (Competes key a ∧ Competes key b) →
      ¬ (Competes key b ∧ Competes key a) := fun a b not both => not ⟨both.2, both.1⟩
  rcases step_cases net next move stepped with ⟨i, left, session, rfl, advanced, rfl⟩ |
    ⟨i, fault, session, rfl, interrupted, rfl⟩ | ⟨change, -, rfl⟩
  · obtain ⟨kept, now, keeps⟩ := turn_presents net i left session (inv.session i) advanced
    exact modular_update symmetric net inv i left session trivial kept
      (fun j _ => presents_later net.world left _ (inv.session j) (le_of_eq now.symm) keeps)
      fun j different => turn_alone net i j different left session inv allowed advanced
  · obtain ⟨kept, weaker⟩ := interrupted_presents net i fault session (inv.session i) allowed interrupted
    exact modular_update symmetric net inv i net.world session trivial kept (fun j _ => inv.session j)
      fun j different both => inv.pair i j different.symm ⟨weaker both.1, both.2⟩
  · obtain ⟨elapsed, same⟩ : ∃ elapsed : Nat, elapsed = change := ⟨change, rfl⟩
    subst same
    refine ⟨trivial, fun j => presents_later net.world _ _ (inv.session j) ?_ ?_, inv.pair⟩
    · show net.world.store.now ≤ net.world.store.now + (elapsed : Int)
      omega
    · rintro (expired | entry)
      · refine .inl ?_
        show exp * 1000 ≤ net.world.store.now + (elapsed : Int)
        omega
      · exact .inr entry

end Races

-- When n requests present one action token, at most one of them succeeds in
-- every run in which their blacklist reads and entries do not overlap.
theorem action_links_single_use (hashtext : Text → Int32) (config : LinkConfig) (link : ActionLink) {n : Nat}
    (orders : Fin n → Arrangement) (world : World) (custom : CustomData) (jti : Text) (time : Int)
    (moves : List (Move (engine hashtext) n)) (final : Net (engine hashtext) Err Unit n)
    (undisturbed : Meets (Undisturbed (createBlacklistTokenKey jti) (time / 1000 + (link.options config).expiresIn))
      (launch world fun i => link.program config (orders i)
        (.signed (link.options config).secret (signedPayload (link.options config) custom jti time))) moves)
    (reached : run (launch world fun i => link.program config (orders i)
      (.signed (link.options config).secret (signedPayload (link.options config) custom jti time))) moves = some final)
    (i j : Fin n) (different : i ≠ j) (succeeded : (final.sessions i).outcome = some (.ok ()))
    (result : Except Err Unit) (ended : (final.sessions j).outcome = some result) : ∃ error, result = .error error := by
  have initial : SingleUse (createBlacklistTokenKey jti) (time / 1000 + (link.options config).expiresIn)
      (launch world fun i => link.program config (orders i)
        (.signed (link.options config).secret (signedPayload (link.options config) custom jti time)) :
          Net (engine hashtext) Err Unit n) := by
    refine ⟨trivial, fun i => ⟨?_, fun time impossible => (by cases impossible), fun impossible => (by cases impossible)⟩,
      fun a b _ both => (by cases both.1.1)⟩
    exact link_tame config link (orders i) _ _ jti rfl rfl
  have inv := run_invariant _ (SingleUse (createBlacklistTokenKey jti) (time / 1000 + (link.options config).expiresIn))
    single_use_step _ final moves initial undisturbed reached
  cases result with
  | error error => exact ⟨error, rfl⟩
  | ok value =>
      have competes : ∀ k : Fin n, (final.sessions k).outcome = some (.ok ()) →
          Competes (createBlacklistTokenKey jti) (final.sessions k) := by
        intro k success
        have succeeds : ∀ error, (final.sessions k).outcome ≠ some (.error error) := fun error impossible => by
          rw [success] at impossible
          cases impossible
        have spent := finished_spent final.world _ (inv.session k) (by rw [success]; rfl) succeeds
        refine ⟨?_, succeeds⟩
        cases stands : presentation (createBlacklistTokenKey jti) (final.sessions k) with
        | unread => rw [stands] at spent; cases spent
        | refused => rw [stands] at spent; cases spent
        | _ => rfl
      exact absurd ⟨competes i succeeded, competes j ended⟩ (inv.pair i j different)

def annLinks : LinkConfig where
  accountVerificationTokenSecret := "verify".toList
  accountVerificationTokenExp := 3600
  accountDeletionTokenSecret := "delete".toList
  accountDeletionTokenExp := 3600
  signOutAllTokenSecret := "sign out".toList
  signOutAllTokenExp := 3600

def annIdentity : CustomData := ⟨TokensService.identity annVersion.id.text, by simp [TokensService.identity, reservedClaims]⟩

def annToken (link : ActionLink) : Token :=
  .signed (link.options annLinks).secret (signedPayload (link.options annLinks) annIdentity "jti".toList 0)

def annPresents (link : ActionLink) (_ : Fin 2) : Async Unit := link.program annLinks .listed (annToken link)

-- The second request comes after the first one has ended.
theorem action_links_single_use_in_turn :
    ∃ final : Net (engine fun _ => 0) Err Unit 2,
      run (launch enrolledWorld (annPresents .signOutAllPublic)) (List.replicate 7 .first ++ List.replicate 2 .second) =
        some final ∧ (final.sessions 0).outcome = some (.ok ()) ∧
        ∀ result, (final.sessions 1).outcome = some result → ∃ error, result = .error error := by
  obtain ⟨final, reached, succeeded⟩ := run_exists (launch enrolledWorld (annPresents .signOutAllPublic) :
    Net (engine fun _ => 0) Err Unit 2) (List.replicate 7 .first ++ List.replicate 2 .second)
    (fun final => (final.sessions 0).outcome = some (.ok ())) (by decide)
  exact ⟨final, reached, succeeded, action_links_single_use (fun _ => 0) annLinks .signOutAllPublic (fun _ => .listed)
    enrolledWorld annIdentity "jti".toList 0 _ final (by decide) reached 0 1 (by decide) succeeded⟩

-- Both requests read the blacklist before either one writes it.
theorem rival_links_both_succeed :
    ∃ final : Net (engine fun _ => 0) Err Unit 2,
      run (launch enrolledWorld (annPresents .signOutAllPublic))
        (List.replicate 2 .first ++ List.replicate 7 .second ++ List.replicate 5 .first) = some final ∧
        ∀ i, (final.sessions i).outcome = some (.ok ()) :=
  run_exists _ _ _ (by decide)

end RateWise
