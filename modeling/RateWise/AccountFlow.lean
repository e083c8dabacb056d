import RateWise.DeletionFlow
import RateWise.RelyGuarantee
import RateWise.StatusFlow

set_option autoImplicit false

namespace RateWise

open Interleave

abbrev RedisOnly : Api.Stmt → Prop := @ReadCommitted.isCmd schema Redis.commands Text

section Quiet

theorem quiet_redis (c : RedisCmd) : (redis c).Quiet RedisOnly fun _ => True := by
  refine ⟨trivial, fun reply => ?_⟩
  cases reply <;> trivial

theorem quiet_reject_if (met : Bool) (error : Err) : (rejectIf met error).Quiet RedisOnly fun _ => met = false := by
  cases met
  · exact rfl
  · trivial

def Token.carries (token : Token) (payload : JwtPayload) : Prop := ∃ secret, token = .signed secret payload

def Token.Passes (token : Token) (opts : TokensFeatureOptions) (payload : JwtPayload) : Prop :=
  token = .signed opts.secret payload ∧ payload.purpose = some opts.purpose

theorem quiet_generate (opts : TokensFeatureOptions) (custom : List (String × Json.Value)) (jti : Text) :
    (TokensService.generate opts custom jti).Quiet RedisOnly fun _ => True :=
  Prog.quiet_bind _ _ _ _ _ (quiet_reject_if _ _) fun _ _ =>
    Prog.quiet_bind _ _ _ _ _ (quiet_redis .now) fun _ _ => trivial

theorem quiet_verify_token (opts : TokensFeatureOptions) (token : Token) :
    (TokensService.verifyTokenOrThrow opts token).Quiet RedisOnly fun payload => token = .signed opts.secret payload := by
  cases token with
  | unsigned text => trivial
  | signed secret payload =>
      refine Prog.quiet_bind _ _ _ _ _ (quiet_reject_if _ _) fun _ same => ?_
      refine Prog.quiet_bind _ _ _ _ _ (quiet_redis .now) fun _ _ => ?_
      refine Prog.quiet_bind _ _ _ _ _ (quiet_reject_if _ _) fun _ _ => ?_
      refine Prog.quiet_bind _ _ _ _ _ (quiet_reject_if _ _) fun _ _ => ?_
      have known : secret = opts.secret := by simpa using same
      exact congrArg (fun secret => Token.signed secret payload) known

theorem quiet_verify (opts : TokensFeatureOptions) (token : Token) :
    (TokensService.verify opts token).Quiet RedisOnly (token.Passes opts) := by
  refine Prog.quiet_bind _ _ _ _ _ (quiet_verify_token opts token) fun payload signed => ?_
  refine Prog.quiet_bind _ _ _ _ _ (quiet_reject_if _ _) fun _ _ => ?_
  refine Prog.quiet_bind _ _ _ _ _ (quiet_reject_if _ _) fun _ purpose => ?_
  refine Prog.quiet_bind _ _ _ _ _ (quiet_redis (.get _)) fun _ _ => ?_
  exact Prog.quiet_bind _ _ _ _ _ (quiet_reject_if _ _) fun _ _ => ⟨signed, by simpa using purpose⟩

theorem quiet_verify_or_throw (opts : TokensFeatureOptions) (token : Token) :
    (AuthService.verifyTokenOrThrow opts token).Quiet RedisOnly (token.Passes opts) := by
  refine Prog.quiet_catching _ _ _ _ (quiet_verify opts token) fun error => ?_
  cases error <;> trivial

theorem quiet_carries (opts : TokensFeatureOptions) (token : Token) :
    (AuthService.verifyTokenOrThrow opts token).Quiet RedisOnly token.carries :=
  Prog.quiet_mono _ _ _ _ (quiet_verify_or_throw opts token) fun _ passes => ⟨opts.secret, passes.1⟩

theorem quiet_blacklist (jti : Text) (exp : Option Int) : (TokensService.blacklist jti exp).Quiet RedisOnly fun _ => True :=
  Prog.quiet_bind _ _ _ _ _ (quiet_redis .now) fun _ _ => quiet_redis (.set _ _ _)

theorem quiet_rejections (promises : List (Async Unit)) (quiet : ∀ promise ∈ promises, promise.Quiet RedisOnly fun _ => True) :
    (rejections promises).Quiet RedisOnly fun _ => True := by
  induction promises with
  | nil => trivial
  | cons promise rest ih =>
      have settled : (Prog.catching (Prog.bind promise fun _ => pure (none : Option Err))
          fun error => pure (some error) : Async (Option Err)).Quiet RedisOnly fun _ => True :=
        Prog.quiet_catching _ _ _ _ (Prog.quiet_bind _ _ _ _ _ (quiet promise (by simp)) fun _ _ => trivial) fun _ => trivial
      refine Prog.quiet_bind _ _ _ _ _ settled fun _ _ => ?_
      exact Prog.quiet_bind _ _ _ _ _ (ih fun other listed => quiet other (by simp [listed])) fun _ _ => trivial

theorem quiet_settled (promises : List (Async Unit)) (quiet : ∀ promise ∈ promises, promise.Quiet RedisOnly fun _ => True) :
    (runSettledOrThrow promises).Quiet RedisOnly fun _ => True := by
  refine Prog.quiet_bind _ _ _ _ _ (quiet_rejections promises quiet) fun errors _ => ?_
  cases errors with
  | nil => trivial
  | cons first others => cases others <;> trivial

theorem quiet_delete (key : Text) : (SessionsService.delete key).Quiet RedisOnly fun _ => True :=
  Prog.quiet_bind _ _ _ _ _ (quiet_redis (.del key)) fun _ _ => trivial

theorem quiet_delete_all (userId : Text) : (SessionsService.deleteAll userId).Quiet RedisOnly fun _ => True := by
  refine Prog.quiet_bind _ _ _ _ _ (quiet_redis (.sMembers _)) fun sessions _ => ?_
  refine Prog.quiet_bind _ _ _ _ _ (quiet_settled _ fun promise listed => ?_) fun _ _ => trivial
  have deletes : ∀ keys : Text → Text, (runSettledOrThrow (List.map (fun id => SessionsService.delete (keys id)) sessions)).Quiet
      RedisOnly fun _ => True := by
    refine fun keys => quiet_settled _ fun promise listed => ?_
    obtain ⟨id, -, rfl⟩ := List.mem_map.mp listed
    exact quiet_delete _
  simp only [List.mem_cons, List.not_mem_nil, or_false] at listed
  rcases listed with rfl | rfl | rfl
  · exact deletes createSessionKey
  · exact quiet_delete _
  · exact deletes createSessionAndUserMappingKey

end Quiet

-- A request on an account: the links in the emails, and moderation.
inductive AccountRequest where
  | verify (tokenInUrl : Token)
  | suspend (userId : Text)
  | reactivate (userId : Text)
  | delete (tokenInUrl : Token)
deriving DecidableEq

namespace AccountRequest

def verification (userId : Text) : StatusChange := ⟨AuthService.verificationRefusal, .active, userId⟩

def suspension (userId : Text) : StatusChange := ⟨ModerationService.suspensionRefusal, .suspended, userId⟩

def reactivation (userId : Text) : StatusChange := ⟨ModerationService.reactivationRefusal, .active, userId⟩

def program (config : AuthConfig) : AccountRequest → Async Unit
  | .verify token => AuthService.verifyAccount config token
  | .suspend userId => ModerationService.suspendAccount userId
  | .reactivate userId => ModerationService.reactivateAccount userId
  | .delete token => AuthService.deleteAccount config token

-- The last steps of verifyAccount and deleteAccount, whose errors are logged
-- only.
def blacklisting (payload : JwtPayload) : Async Unit :=
  Prog.catching (TokensService.blacklist (orUndefined payload.jti) payload.exp) fun _ => pure ()

def signingOut (payload : JwtPayload) : Async Unit :=
  Prog.catching (Prog.bind (SessionsService.deleteAll payload.id) fun _ => pure ()) fun _ => pure ()

theorem quiet_blacklisting (payload : JwtPayload) : (blacklisting payload).Quiet RedisOnly fun _ => True :=
  Prog.quiet_catching _ _ _ _ (quiet_blacklist _ _) fun _ => trivial

theorem quiet_signing_out (payload : JwtPayload) : (signingOut payload).Quiet RedisOnly fun _ => True :=
  Prog.quiet_catching _ _ _ _ (Prog.quiet_bind _ _ _ _ _ (quiet_delete_all _) fun _ _ => trivial) fun _ => trivial

abbrev VerifyPoint := Async JwtPayload ⊕ (JwtPayload × (StatusPoint ⊕ (Unit × Async Unit)))

abbrev DeletePoint := Async JwtPayload ⊕ (JwtPayload × (Async Unit ⊕ (Unit × (DeletionPoint ⊕ (Bool × Async Unit)))))

@[reducible] def Point : AccountRequest → Type
  | .verify _ => VerifyPoint
  | .suspend _ => StatusPoint
  | .reactivate _ => StatusPoint
  | .delete _ => DeletePoint

def verifyChart : VerifyPoint → Node Api Err Unit VerifyPoint :=
  chain Prog.node (fun payload => chain (verification payload.id).chart (fun _ => Prog.node) fun _ => blacklisting payload)
    fun _ => .inl .loading

def deleteChart : DeletePoint → Node Api Err Unit DeletePoint :=
  chain Prog.node (fun payload =>
      chain Prog.node (fun _ => chain (Deletion.chart payload.id) (fun _ => Prog.node) fun _ => signingOut payload)
        fun _ => .inl .queued)
    fun payload => .inl (TokensService.blacklist (orUndefined payload.jti) payload.exp)

def chart : (q : AccountRequest) → q.Point → Node Api Err Unit q.Point
  | .verify _ => verifyChart
  | .suspend userId => (suspension userId).chart
  | .reactivate userId => (reactivation userId).chart
  | .delete _ => deleteChart

def entry (config : AuthConfig) : (q : AccountRequest) → q.Point
  | .verify token => .inl (AuthService.verifyTokenOrThrow config.accountVerificationToken token)
  | .suspend _ => StatusPoint.loading
  | .reactivate _ => StatusPoint.loading
  | .delete token => .inl (AuthService.verifyTokenOrThrow config.accountDeletionToken token)

theorem follows_program (config : AuthConfig) (q : AccountRequest) : Follows q.chart (q.program config) (q.entry config) := by
  cases q with
  | suspend userId => exact (suspension userId).follows_program
  | reactivate userId => exact (reactivation userId).follows_program
  | verify token =>
      refine follows_chain _ _ _ _ _ _ (follows_node _) fun payload => ?_
      exact follows_chain _ _ _ _ _ _ (verification payload.id).follows_program fun _ => follows_node _
  | delete token =>
      refine follows_chain _ _ _ _ _ _ (follows_node _) fun payload => ?_
      refine follows_chain _ _ _ _ _ _ (follows_node _) fun _ => ?_
      have deleted := follows_chain (Deletion.chart payload.id) (fun _ => Prog.node) (fun _ => signingOut payload) _
        (fun _ => signingOut payload) _ (Deletion.follows_program payload.id) fun _ => follows_node _
      have flat : Prog.bind (Deletion.program payload.id) (fun _ => signingOut payload) =
          Prog.bind (UserDeletionService.deleteOne payload.id) fun _ => signingOut payload := Prog.bind_assoc _ _ _
      rw [flat] at deleted
      exact deleted

end AccountRequest

abbrev EventLog := List (Event Api)

def accountRead : Event Api → Option Account
  | .ran (.sql (.findAccount _)) (.ok (some account)) => some account
  | _ => none

def isCommit : Event Api → Bool
  | .committed => true
  | _ => false

def Committed (log : EventLog) : Prop := Event.committed ∈ log

instance (log : EventLog) : Decidable (Committed log) :=
  decidable_of_iff (log.any isCommit = true) (by
    rw [List.any_eq_true]
    constructor
    · rintro ⟨event, member, found⟩
      cases event with
      | committed => exact member
      | _ => cases found
    · exact fun member => ⟨.committed, member, rfl⟩)

abbrev ApiFacts (Point : Type) := Point → Tables → EventLog → Option (ReadCommitted.Tx schema Int32) → Prop

abbrev Idle {α : Type} (post : α → Prop) (facts : Tables → EventLog → Prop) : ApiFacts (Async α) :=
  fun prog t log tx => prog.Quiet RedisOnly post ∧ tx = none ∧ facts t log

abbrev AccountNet (hashtext : Text → Int32) (n : Nat) := Net (engine hashtext) Err Unit n

abbrev AccountMove (hashtext : Text → Int32) (n : Nat) := Move (engine hashtext) n

end RateWise
