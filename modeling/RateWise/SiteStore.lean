import RateWise.SiteRuns
import RateWise.StoreOrigins

set_option autoImplicit false

namespace RateWise

open Interleave
open ReadCommitted

def opening (req : RequestContext) (userId : Text) : RedisCmd :=
  .multiStoreSetAdd (createSessionAndUserMappingKey req.regenerated) userId (createUserSessionsSetKey userId) req.regenerated

def linkPayload (opts : TokensFeatureOptions) (id : Uuid) (jti : Text) (now : Int) : JwtPayload :=
  ⟨some opts.purpose, some jti, some (now / 1000), some (now / 1000 + opts.expiresIn), TokensService.identity id.text⟩

def linkToken (opts : TokensFeatureOptions) (id : Uuid) (jti : Text) (now : Int) : Token :=
  .signed opts.secret (linkPayload opts id jti now)

inductive Presented (config : SiteConfig) : SiteRequest → JwtPayload → Prop
  | verification (token : Token) (payload : JwtPayload) (passes : token.Passes config.auth.accountVerificationToken payload) :
      Presented config (.verifyAccount (some token)) payload
  | deletion (token : Token) (payload : JwtPayload) (passes : token.Passes config.auth.accountDeletionToken payload) :
      Presented config (.deleteAccount (some token)) payload
  | signOutAll (order : Arrangement) (token : Token) (payload : JwtPayload) (passes : token.Passes config.signOutAllToken payload) :
      Presented config (.signOutAllPublic order (some token)) payload

-- What a request may ever put into Redis and the email queue, whatever the
-- interleaving.
inductive Puts (config : SiteConfig) (good : Tables → Prop) : SiteRequest → RedisCmd → Prop
  | signsUp (input : SignUpInput) (row : Generated) (req : RequestContext) :
      Puts config good (.signUp input row req) (opening req row.id.text)
  | signsIn (email password : JsString) (req : RequestContext) (user : Account) (known : Known good Tables.accounts user)
      (address : user.email = parameter email) (measured : lengthMatcher password AUTH_RULES.PASSWORD = true)
      (matched : config.compare password user.passwordHash = true) :
      Puts config good (.signIn email password req) (opening req user.id.text)
  | mailsVerification (caller : Caller) (jti : Text) (user : AuthenticatedUser) (now : Int)
      (admitted : Admitted good .requestAccountVerification caller user) (unverified : user.status ≠ .active) :
      Puts config good (.requestAccountVerification caller jti)
        (.sendEmail ⟨user.email, linkToken config.auth.accountVerificationToken user.id jti now⟩)
  | mailsDeletion (caller : Caller) (jti : Text) (user : AuthenticatedUser) (now : Int)
      (admitted : Admitted good .requestAccountDeletion caller user) :
      Puts config good (.requestAccountDeletion caller jti)
        (.sendEmail ⟨user.email, linkToken config.auth.accountDeletionToken user.id jti now⟩)
  | mailsSignOutAll (email : JsString) (jti : Text) (user : Account) (now : Int) (known : Known good Tables.accounts user)
      (address : user.email = parameter email) (allowed : user.status ≠ .suspended) :
      Puts config good (.requestSignOutAll email jti) (.sendEmail ⟨user.email, linkToken config.signOutAllToken user.id jti now⟩)
  | blacklists (request : SiteRequest) (payload : JwtPayload) (ttl : Option Int) (presented : Presented config request payload) :
      Puts config good request (.set (createBlacklistTokenKey (orUndefined payload.jti)) "1".toList ttl)

section Serving

variable (R : RowRule schema) {puts : RedisCmd → Prop} {start : Redis}

theorem thrifty_permitted (s : Api.Stmt) (thrifty : Thrifty s) : (originRule puts start).Permits s := by
  cases s with
  | cmd c =>
      intro adds
      rw [show c.adds = false from thrifty] at adds
      cases adds
  | _ => trivial

theorem heeds_thrifty {α : Type} (post : α → Prop) (prog : Async α) (heeds : prog.Heeds R.AllowsIn R.Credible post)
    (thrifty : prog.Sends Thrifty) : prog.Heeds (originRule puts start).Permits R.Credible post :=
  heeds_judged post prog heeds (sends_mono _ _ prog thrifty thrifty_permitted)

theorem thrifty_serves {α : Type} (prog : Async α) (thrifty : prog.Sends Thrifty) : (originRule puts start).Serves R prog :=
  heeds_sends prog (sends_mono _ _ prog thrifty thrifty_permitted)

theorem put_serves (c : RedisCmd) (put : puts c) : (originRule puts start).Serves R (redis c) :=
  ⟨fun _ => put, fun _ => trivial, fun _ _ => trivial⟩

theorem reject_if_heeds (met : Bool) (error : Err) :
    (rejectIf met error).Heeds (originRule puts start).Permits R.Credible fun _ => met = false := by
  cases met
  · exact rfl
  · trivial

theorem create_session_serves (req : RequestContext) (userId : Text) (put : puts (opening req userId)) :
    (originRule puts start).Serves R (SessionsService.create req userId) :=
  StoreRule.serves_then _ R _ _ (thrifty_serves R _ (thrifty_delete _)) fun _ => put_serves R _ put

theorem mail_serves (opts : TokensFeatureOptions) (id : Uuid) (jti recipient : Text)
    (put : ∀ now, puts (.sendEmail ⟨recipient, linkToken opts id jti now⟩)) :
    (originRule puts start).Serves R
      (Prog.bind (TokensService.generate opts (TokensService.identity id.text) jti) fun token => redis (.sendEmail ⟨recipient, token⟩)) := by
  rw [TokensService.generate_identity]
  refine heeds_bind (fun token => ∃ now, token = linkToken opts id jti now) _ _ _ ?_ ?_
  · exact heeds_bind (fun _ => True) _ _ _ (thrifty_serves R _ (thrifty_redis .now rfl)) fun now _ => ⟨now, rfl⟩
  · rintro token ⟨now, rfl⟩
    exact put_serves R _ (put now)

theorem request_verification_serves (config : AuthConfig) (user : AuthenticatedUser) (jti : Text)
    (put : ∀ now, user.status ≠ .active → puts (.sendEmail ⟨user.email, linkToken config.accountVerificationToken user.id jti now⟩)) :
    (originRule puts start).Serves R (AuthService.requestAccountVerification config user jti) := by
  unfold AuthService.requestAccountVerification
  cases refused : AuthService.accountIsNotAlreadyVerified user.status with
  | some error => trivial
  | none =>
      refine mail_serves R _ _ jti _ fun now => put now fun active => ?_
      rw [active] at refused
      cases refused

theorem blacklist_serves (jti : Text) (exp : Option Int)
    (put : ∀ ttl, puts (.set (createBlacklistTokenKey jti) "1".toList ttl)) :
    (originRule puts start).Serves R (TokensService.blacklist jti exp) :=
  StoreRule.serves_then _ R _ _ (thrifty_serves R _ (thrifty_redis .now rfl)) fun _ => put_serves R _ (put _)

theorem find_by_email_heeds (email : Text) :
    (sql (.findAccountByEmail email)).Heeds (originRule puts start).Permits R.Credible fun (found : Option Account) =>
      ∀ user, found = some user → Known R.Good Tables.accounts user ∧ user.email = email := by
  refine heeds_thrifty R _ _ (heeds_mono _ _ _ (heeds_select R (.findAccountByEmail email) fun _ => rfl) ?_) (thrifty_sql _)
  rintro found ⟨rows, good, rfl⟩ user same
  have listed : rows.accounts.find? (fun row => row.email = email) = some user := same
  have matched := List.find?_some listed
  exact ⟨⟨rows, good, List.mem_of_find?_eq_some listed⟩, of_decide_eq_true matched⟩

theorem sign_in_serves (compare : JsString → Text → Bool) (maxUserSessions : Nat) (email password : JsString) (req : RequestContext)
    (put : ∀ user, Known R.Good Tables.accounts user → user.email = parameter email →
      lengthMatcher password AUTH_RULES.PASSWORD = true → compare password user.passwordHash = true →
      puts (opening req user.id.text)) :
    (originRule puts start).Serves R (AuthService.signIn compare maxUserSessions email password req) := by
  refine heeds_bind (fun user => puts (opening req user.id.text)) _ _ _ ?_ fun user opens => ?_
  · refine heeds_bind _ _ _ _ (reject_if_heeds R _ _) fun _ short => ?_
    refine heeds_bind _ _ _ _ (find_by_email_heeds R _) fun (found : Option Account) known => ?_
    cases found with
    | none => trivial
    | some user =>
        refine heeds_bind _ _ _ _ (reject_if_heeds R _ _) fun _ wrong => ?_
        obtain ⟨stored, address⟩ := known user rfl
        exact put user stored address (by simpa using short) (by simpa using wrong)
  · refine StoreRule.serves_then _ R _ _ (thrifty_serves R _ ?_) fun _ =>
      StoreRule.serves_then _ R _ _ (create_session_serves R req _ opens) fun _ => trivial
    exact sends_bind _ _ _ (thrifty_redis (.setSize _) rfl) fun _ => thrifty_reject_if _ _

theorem request_sign_out_all_serves (signOutAllToken : TokensFeatureOptions) (email : JsString) (jti : Text)
    (put : ∀ user now, Known R.Good Tables.accounts user → user.email = parameter email → user.status ≠ .suspended →
      puts (.sendEmail ⟨user.email, linkToken signOutAllToken user.id jti now⟩)) :
    (originRule puts start).Serves R (AuthResolver.requestSignOutAll signOutAllToken email jti) := by
  refine StoreRule.serves_then _ R _ _ (heeds_bind _ _ _ _ (find_by_email_heeds R _) fun (found : Option Account) known => ?_)
    fun _ => trivial
  cases found with
  | none => trivial
  | some user =>
      obtain ⟨stored, address⟩ := known user rfl
      show Prog.Heeds _ _ _ (if user.status = .suspended then pure () else _)
      split
      · trivial
      · rename_i allowed
        exact mail_serves R _ _ jti _ fun now => put user now stored address allowed

theorem guarded_serves (route : Route) (caller : Caller) (handler : SessionContext → AuthenticatedUser → Async Unit)
    (serves : ∀ req user, Admitted R.Good route caller user → (originRule puts start).Serves R (handler req user)) :
    (originRule puts start).Serves R (guarded route caller handler) := by
  refine heeds_bind _ _ _ _ (heeds_thrifty R _ _ (check_access_heeds R route caller) (thrifty_check_access route caller))
    fun reply admitted => ?_
  cases reply with
  | none => trivial
  | some user =>
      cases AuthGuard.signedIn caller.session with
      | none => trivial
      | some req => exact serves req user (admitted user rfl)

theorem verified_serves (opts : TokensFeatureOptions) (token : Token) :
    (AuthService.verifyTokenOrThrow opts token).Heeds (originRule puts start).Permits R.Credible (token.Passes opts) :=
  heeds_thrifty R _ _ (verified_heeds R opts token) (thrifty_verify opts token)

end Serving

theorem site_request_serves (R : RowRule schema) {puts : RedisCmd → Prop} {start : Redis} (config : SiteConfig) (request : SiteRequest)
    (put : ∀ c, Puts config R.Good request c → puts c) : (originRule puts start).Serves R (request.program config) := by
  have thrifty : ∀ prog : Async Unit, prog.Sends Thrifty → (originRule puts start).Serves R prog := fun prog => thrifty_serves R prog
  cases request with
  | signUp input row req =>
      refine StoreRule.serves_then _ R _ _ (heeds_bind (fun user : Account => user.id = row.id) _ _ _ ?_ fun user same => ?_)
        fun _ => trivial
      · refine heeds_catching _ _ _ (heeds_bind (fun _ => True) _ _ _ (thrifty_serves R _ (thrifty_save _)) fun _ _ => rfl) fun _ => trivial
      · refine StoreRule.serves_then _ R _ _ (create_session_serves R req _ ?_) fun _ => trivial
        rw [same]
        exact put _ (.signsUp input row req)
  | signIn email password req =>
      exact StoreRule.serves_then _ R _ _ (sign_in_serves R _ _ _ _ req fun user known address measured matched =>
        put _ (.signsIn email password req user known address measured matched)) fun _ => trivial
  | requestAccountVerification caller jti =>
      exact guarded_serves R _ caller _ fun _ user admitted => request_verification_serves R _ user jti fun now unverified =>
        put _ (.mailsVerification caller jti user now admitted unverified)
  | requestAccountDeletion caller jti =>
      exact guarded_serves R _ caller _ fun _ user admitted => mail_serves R _ _ jti _ fun now =>
        put _ (.mailsDeletion caller jti user now admitted)
  | requestSignOutAll email jti =>
      exact StoreRule.serves_then _ R _ _ (request_sign_out_all_serves R _ _ jti fun user now known address allowed =>
        put _ (.mailsSignOutAll email jti user now known address allowed)) fun _ => trivial
  | signOut caller => exact thrifty _ (thrifty_guarded _ caller _ fun req _ => thrifty_mild _ (mild_destroy caller.order req))
  | signOutAll caller password destroyedFirst =>
      exact thrifty _ (thrifty_guarded _ caller _ fun req _ => thrifty_sign_out_all _ _ _ _ req)
  | suspendAccount caller userId => exact thrifty _ (thrifty_guarded _ caller _ fun _ _ => thrifty_change_status _ _ userId)
  | reactivateAccount caller userId => exact thrifty _ (thrifty_guarded _ caller _ fun _ _ => thrifty_change_status _ _ userId)
  | createItem caller item row =>
      exact thrifty _ (thrifty_guarded _ caller _ fun _ _ => sends_catching _ _ _ (thrifty_save _) fun _ => trivial)
  | createReview caller reviewData row =>
      exact thrifty _ (thrifty_guarded _ caller _ fun _ user => thrifty_create_review reviewData user row)
  | voteReview caller reviewId action row =>
      exact thrifty _ (thrifty_guarded _ caller _ fun _ user => thrifty_discard _ (sends_bind _ _ _
        (thrifty_vote reviewId user.id action row) fun _ => trivial))
  | deleteVote caller reviewId =>
      exact thrifty _ (thrifty_guarded _ caller _ fun _ user => thrifty_discard _ (thrifty_delete_vote reviewId user.id))
  | verifyAccount token =>
      cases token with
      | none => trivial
      | some token =>
          refine heeds_bind _ _ _ _ (verified_serves R _ token) fun payload passes => StoreRule.serves_then _ R _ _
            (thrifty_serves R _ (thrifty_change_status _ _ _)) fun _ => heeds_catching _ _ _ ?_ fun _ => trivial
          exact blacklist_serves R _ _ fun ttl => put _ (.blacklists _ payload ttl (.verification token payload passes))
  | deleteAccount token =>
      cases token with
      | none => trivial
      | some token =>
          refine heeds_bind _ _ _ _ (verified_serves R _ token) fun payload passes => StoreRule.serves_then _ R _ _
            (blacklist_serves R _ _ fun ttl => put _ (.blacklists _ payload ttl (.deletion token payload passes))) fun _ => ?_
          refine StoreRule.serves_then _ R _ _ (thrifty_serves R _ (thrifty_delete_account _)) fun _ => ?_
          exact heeds_catching _ _ _ (StoreRule.serves_then _ R _ _ (thrifty_serves R _ (thrifty_delete_all _)) fun _ => trivial)
            fun _ => trivial
  | signOutAllPublic order token =>
      cases token with
      | none => trivial
      | some token =>
          refine StoreRule.serves_then _ R _ _ (heeds_bind _ _ _ _ (verified_serves R _ token) fun payload passes =>
            StoreRule.serves_then _ R _ _ (thrifty_serves R _ (thrifty_mild _ (mild_exists _))) fun _ =>
            StoreRule.serves_then _ R _ _ (blacklist_serves R _ _ fun ttl => put _ (.blacklists _ payload ttl
              (.signOutAll order token payload passes))) fun _ => ?_) fun _ => trivial
          exact thrifty_serves R _ (thrifty_mild _ (mild_delete_all order _))
  | runSeed adminEmail draws => exact thrifty _ (thrifty_seed adminEmail draws _)
  | refreshReviewVotes => exact thrifty _ (thrifty_sql _)
  | removedSession order sessionId => exact thrifty _ (thrifty_mild _ (mild_removed order sessionId))
  | onModuleInit isProduction row username email passwordHash draws => exact thrifty _ (thrifty_module_init isProduction _ draws)

section Runs

variable {n : Nat} {hashtext : Text → Int32}

-- What Redis and the email queue hold in any state of the whole site, the start
-- held or a request may have put there.
theorem site_backed (config : SiteConfig) (requests : Fin n → SiteRequest) (P : Tables → Prop)
    (kept : ∀ t w i, P t → May config P (requests i) w → P (t.apply w)) (world : World) (start : P world.db)
    (moves : List (SiteMove hashtext n)) (last : SiteNet hashtext n)
    (reached : run (siteStart hashtext config requests world) moves = some last) :
    P last.world.db ∧ Redis.Backed (fun c => ∃ i, Puts config P (requests i) c) world.store last.world.store := by
  have served := (originRule (fun c => ∃ i, Puts config P (requests i) c) world.store).run_served
    (siteRule config requests P kept) (siteStart hashtext config requests world) last moves
    ⟨site_upheld config requests P kept world start [] _ rfl, Redis.backed_start,
      fun i => site_request_serves (siteRule config requests P kept) config (requests i) fun c puts => ⟨i, puts⟩⟩ reached
  exact ⟨served.upheld.rows, served.store⟩

end Runs

end RateWise
