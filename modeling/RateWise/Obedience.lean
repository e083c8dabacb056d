import RateWise.SitePolicy

set_option autoImplicit false

namespace RateWise

open Interleave
open ReadCommitted

abbrev Mute : Api.Stmt → Prop := @ReadCommitted.Silent schema Redis.commands Text

section Silence

theorem mute_select (s : Sql) (selects : ∀ rows : Tables, rows.attempts s = []) : (sql s).Quiet Mute fun _ => True := by
  refine ⟨?_, fun reply => by cases reply <;> trivial⟩
  rintro q ⟨⟩ rows
  exact selects rows

theorem mute_redis {α : Type} (post : α → Prop) (prog : Async α) (quiet : prog.Quiet RedisOnly post) : prog.Quiet Mute post := by
  refine Prog.quiet_wider _ _ _ prog quiet fun s command => ?_
  cases s with
  | cmd c => exact fun q same => by cases same
  | _ => cases command

theorem mute_then {α β : Type} (first : Async α) (next : α → Async β) (mute : first.Quiet Mute fun _ => True)
    (later : ∀ value, (next value).Quiet Mute fun _ => True) : (first.bind next).Quiet Mute fun _ => True :=
  Prog.quiet_bind _ (fun _ => True) _ _ _ mute fun value _ => later value

theorem mute_reject_if (met : Bool) (error : Err) : (rejectIf met error).Quiet Mute fun _ => True := by
  unfold rejectIf
  split <;> trivial

theorem mute_find_account (id : Text) : (UsersService.findOneById id).Quiet Mute fun _ => True := by
  refine mute_then _ _ ?_ fun _ => mute_select (.findAccount id) fun _ => rfl
  unfold UsersService.validUuidOrThrow
  split <;> trivial

theorem mute_create_session (req : RequestContext) (userId : Text) : (SessionsService.create req userId).Quiet Mute fun _ => True :=
  mute_redis _ _ (Prog.quiet_bind _ _ _ _ _ (quiet_delete _) fun _ _ => quiet_redis (.multiStoreSetAdd _ _ _ _))

theorem mute_sign_in (compare : JsString → Text → Bool) (maxUserSessions : Nat) (email password : JsString) (req : RequestContext) :
    (AuthService.signIn compare maxUserSessions email password req).Quiet Mute fun _ => True := by
  refine mute_then _ _ (mute_then _ _ (mute_reject_if _ _) fun _ => mute_then _ _
    (mute_select (.findAccountByEmail _) fun _ => rfl) fun (found : Option Account) => ?_) fun user => ?_
  · cases found with
    | none => trivial
    | some user => exact mute_then _ _ (mute_reject_if _ _) fun _ => trivial
  · refine mute_then _ _ (mute_then _ _ (mute_redis _ _ (quiet_redis (.setSize _))) fun _ => mute_reject_if _ _) fun _ => ?_
    exact mute_then _ _ (mute_create_session req _) fun _ => trivial

theorem mute_email (opts : TokensFeatureOptions) (custom : List (String × Json.Value)) (jti recipient : Text) :
    (Prog.bind (TokensService.generate opts custom jti) fun token => redis (.sendEmail ⟨recipient, token⟩)).Quiet Mute
      fun _ => True :=
  mute_then _ _ (mute_redis _ _ (quiet_generate opts custom jti)) fun _ =>
    mute_redis _ _ (quiet_redis (.sendEmail _))

theorem mute_request_verification (config : AuthConfig) (user : AuthenticatedUser) (jti : Text) :
    (AuthService.requestAccountVerification config user jti).Quiet Mute fun _ => True := by
  unfold AuthService.requestAccountVerification
  cases AuthService.accountIsNotAlreadyVerified user.status with
  | some error => trivial
  | none => exact mute_email _ _ jti _

theorem mute_request_sign_out_all (signOutAllToken : TokensFeatureOptions) (email : JsString) (jti : Text) :
    (AuthResolver.requestSignOutAll signOutAllToken email jti).Quiet Mute fun _ => True := by
  refine mute_then _ _ (mute_then _ _ (mute_select (.findAccountByEmail _) fun _ => rfl) fun (found : Option Account) => ?_)
    fun _ => trivial
  cases found with
  | none => trivial
  | some user =>
      show Prog.Quiet Mute _ (if user.status = .suspended then pure () else _)
      split
      · trivial
      · exact mute_email _ _ jti _

theorem mute_sign_out (order : Arrangement) (req : SessionContext) : (AuthService.signOut order req).Quiet Mute fun _ => True := by
  refine mute_redis _ _ (arranged_quiet order _ fun promise listed => ?_)
  simp only [List.mem_cons, List.not_mem_nil, or_false] at listed
  rcases listed with rfl | rfl | rfl
  · exact quiet_delete _
  · exact quiet_redis (.setRem _ _)
  · exact quiet_delete _

theorem quiet_deletions (order : Arrangement) (userId : Text) (sessIDs : List Text) (late : List (Async Unit))
    (quiet : ∀ promise ∈ late, promise.Quiet RedisOnly fun _ => True) :
    ∀ promise ∈ order.arrange (SessionsService.deletions userId sessIDs ++ late), promise.Quiet RedisOnly fun _ => True := by
  intro promise listed
  rcases List.mem_append.mp ((order.perm _).mem_iff.mp listed) with early | other
  · simp only [SessionsService.deletions, List.mem_append, List.mem_cons, List.mem_map] at early
    rcases early with ⟨_, _, rfl⟩ | rfl | ⟨_, _, rfl⟩ <;> exact quiet_delete _
  · exact quiet promise other

theorem quiet_rethrow (reasons : List Err) : (rethrow reasons).Quiet RedisOnly fun _ => True := by
  cases reasons with
  | nil => trivial
  | cons first others => cases others <;> trivial

theorem mute_destroy_all (order : Arrangement) (destroyedFirst : Bool) (req : SessionContext) :
    (SessionsService.destroyAll order destroyedFirst req).Quiet Mute fun _ => True := by
  have own : ∀ promise ∈ [SessionsService.destroySession req], promise.Quiet RedisOnly fun _ => True := by
    intro promise listed
    rw [List.mem_singleton.mp listed]
    exact quiet_delete _
  have either : ∀ first : Bool, ∀ promise ∈ (if first then [SessionsService.destroySession req] else []),
      promise.Quiet RedisOnly fun _ => True := by
    intro first promise listed
    cases first with
    | true => exact own promise listed
    | false => cases listed
  have late : ∀ promise ∈ (if destroyedFirst then [] else [SessionsService.destroySession req]),
      promise.Quiet RedisOnly fun _ => True := by
    intro promise listed
    cases destroyedFirst with
    | true => cases listed
    | false => exact own promise listed
  refine mute_redis _ _ (Prog.quiet_bind _ _ _ _ _ (quiet_rejections _ (either destroyedFirst)) fun early _ => ?_)
  refine Prog.quiet_bind _ (fun _ => True) _ _ _ (Prog.quiet_catching _ _ _ _ (Prog.quiet_bind _ _ _ _ _
    (quiet_redis (.sMembers _)) fun _ _ => trivial) fun _ => trivial) fun (read : Except Err (List Text)) _ => ?_
  cases read with
  | error reason =>
      refine Prog.quiet_bind _ _ _ _ _ (quiet_rejections _ late) fun others _ => ?_
      exact Prog.quiet_bind _ _ _ _ _ (quiet_rethrow _) fun _ _ => trivial
  | ok sessIDs =>
      refine Prog.quiet_bind _ _ _ _ _ (quiet_rejections _ (quiet_deletions order _ _ _ late)) fun others _ => ?_
      exact Prog.quiet_bind _ _ _ _ _ (quiet_rethrow _) fun _ _ => trivial

theorem mute_sign_out_all (compare : JsString → Text → Bool) (order : Arrangement) (destroyedFirst : Bool) (password : JsString)
    (req : SessionContext) : (AuthService.signOutAll compare order destroyedFirst password req).Quiet Mute fun _ => True := by
  refine mute_then _ _ (mute_then _ _ (mute_reject_if _ _) fun _ => mute_then _ _ (mute_then _ _ (mute_find_account _)
    fun (found : Option Account) => ?_) fun user => mute_reject_if _ _) fun _ => ?_
  · cases found <;> trivial
  · exact mute_then _ _ (mute_destroy_all order destroyedFirst req) fun _ => trivial

theorem mute_sign_out_all_public (signOutAllToken : TokensFeatureOptions) (order : Arrangement) (token : Token) :
    (AuthService.signOutAllPublic signOutAllToken order token).Quiet Mute fun _ => True := by
  refine mute_then _ _ (mute_redis _ _ (Prog.quiet_mono _ _ _ _ (quiet_carries _ token) fun _ _ => trivial)) fun payload => ?_
  refine mute_then _ _ (mute_then _ _ ?_ fun _ => mute_then _ _ (mute_select (.findAccount payload.id) fun _ => rfl)
    fun (found : Option Account) => ?_) fun _ => mute_redis _ _ (Prog.quiet_bind _ _ _ _ _ (quiet_blacklist _ _) fun _ _ => ?_)
  · unfold UsersService.validUuidOrThrow
    split <;> trivial
  · cases found <;> trivial
  · refine Prog.quiet_bind _ _ _ _ _ (quiet_redis (.sMembers _)) fun sessIDs _ => ?_
    refine Prog.quiet_bind _ _ _ _ _ (arranged_quiet order _ fun promise listed => ?_) fun _ _ => trivial
    exact quiet_deletions order payload.id sessIDs [] (fun _ none => by cases none) promise
      ((order.perm _).mem_iff.mpr (by rw [List.append_nil]; exact listed))

theorem mute_removed_session (order : Arrangement) (sessionId : Text) :
    (SessionsEvents.handleRemovedSession order sessionId).Quiet Mute fun _ => True := by
  refine mute_redis _ _ (Prog.quiet_bind _ _ _ _ _ (quiet_redis (.get _)) fun (userId : Option Text) _ => ?_)
  cases userId with
  | none => trivial
  | some userId =>
      refine Prog.quiet_bind _ _ _ _ _ (quiet_rejections _ fun promise listed => ?_) fun _ _ => trivial
      have member := (order.perm _).mem_iff.mp listed
      simp only [List.mem_cons, List.not_mem_nil, or_false] at member
      rcases member with rfl | rfl
      · exact quiet_delete _
      · exact quiet_redis (.setRem _ _)

end Silence

section Accounts

variable (R : RowRule schema)

theorem insert_account_obeys (row : Account) (lawful : R.Lawful (.insertAccount row)) :
    R.ObeysIn (transaction (sql (.insertAccount row))) := by
  refine obeys_save_in R _ fun rows _ w member => ?_
  rw [show w = .insertAccount row from List.mem_singleton.mp member]
  exact lawful

theorem save_obeys_in (entity : Account) (lawful : ∀ w, Saves R.Good entity w → R.Lawful w) :
    R.ObeysIn (UsersService.saveOne entity) := by
  refine heeds_catching _ _ _ (R.obeys_in_then _ _ ?_ fun _ => redis_obeys R _ _ (quiet_delete _)) fun _ => trivial
  refine heeds_bind _ _ _ _ (heeds_select R (.findAccount entity.id.text) fun _ => rfl) fun (found : Option Account) reread => ?_
  obtain ⟨rows, good, answered⟩ := reread
  cases found with
  | none =>
      refine insert_account_obeys R entity (lawful _ (.inserts rows good fun row stored same => ?_))
      exact not_found_account rows entity.id.text answered.symm row stored (by rw [uuid_in_text, same])
  | some row =>
      obtain ⟨stored, named⟩ := found_account rows entity.id.text row answered.symm
      rw [uuid_in_text, Option.some.injEq] at named
      show R.ObeysIn (if UsersService.changedColumns entity row = .unchanged then pure () else _)
      split
      · trivial
      · refine obeys_save_in R _ fun other _ w member => ?_
        obtain ⟨target, listed, rfl⟩ := List.mem_map.mp member
        rw [show target.id = entity.id from of_decide_eq_true (List.mem_filter.mp listed).2]
        exact lawful _ (.updates row ⟨rows, good, stored⟩ named.symm)

theorem change_status_obeys_in (refusal : Account → Option Err) (status : AccountStatus) (userId : Text)
    (lawful : ∀ w, Restates R.Good refusal status userId w → R.Lawful w) : R.ObeysIn (changeStatus refusal status userId) := by
  refine heeds_bind _ _ _ _ (find_account_or_throw_heeds R userId) fun user found => ?_
  unfold setStatusUnless
  cases verdict : refusal user with
  | some error => trivial
  | none => exact save_obeys_in R _ fun w saves => lawful w ⟨user, found.1, found.2, verdict, saves⟩

theorem sign_up_obeys (input : SignUpInput) (row : Generated) (req : RequestContext)
    (lawful : R.Lawful (.insertAccount (newAccount input row))) : R.ObeysIn (AuthService.signUp input row req) := by
  refine R.obeys_in_then _ _ (heeds_catching _ _ _ (R.obeys_in_then _ _ (insert_account_obeys R _ lawful) fun _ => trivial)
    fun _ => trivial) fun user => ?_
  exact R.obeys_in_then _ _ (R.quiet_obeys _ _ (mute_create_session req _)) fun _ => trivial

end Accounts

section Votes

variable (R : RowRule schema)

theorem verified_heeds (opts : TokensFeatureOptions) (token : Token) :
    (AuthService.verifyTokenOrThrow opts token).Heeds R.AllowsIn R.Credible (token.Passes opts) :=
  redis_heeds R _ _ (quiet_verify_or_throw opts token)

theorem exists_mute (reviewId : Text) : (ReviewService.existsOrThrow reviewId).Quiet Mute fun _ => validUUID reviewId = true := by
  refine Prog.quiet_bind _ (fun _ => validUUID reviewId = true) _ _ _ ?_ fun _ valid =>
    Prog.quiet_bind _ (fun _ => True) _ _ _ (mute_select (.countReviews reviewId) fun _ => rfl) fun count _ => ?_
  · unfold ReviewService.verifyUUidOrThrow
    cases valid : validUUID reviewId with
    | false => trivial
    | true => exact rfl
  · split
    · trivial
    · exact valid

theorem lock_mute (userId reviewId : Text) : (VotesService.acquireVoteLock userId reviewId).Quiet Mute fun _ => True := by
  refine ⟨?_, fun reply => by cases reply <;> trivial⟩
  rintro q ⟨⟩

theorem add_votes_allowed (ids : List Text) (action : VoteAction) (value : Int)
    (lawful : ∀ id text, text ∈ ids → uuidIn text = some id → R.Lawful (.addVotes id action value)) :
    @RowRule.AllowsIn schema Redis.commands Text R (.sql (.addVotes ids action value)) := by
  intro rows _ w member
  obtain ⟨row, listed, rfl⟩ := List.mem_map.mp member
  obtain ⟨text, among, parsed⟩ := List.mem_filterMap.mp (of_decide_eq_true (List.mem_filter.mp listed).2)
  exact lawful row.id text among parsed

theorem find_vote_heeds (reviewId : Text) (user review : Uuid) (target : uuidIn reviewId = some review) :
    (sql (.findVote reviewId user.text)).Heeds R.AllowsIn R.Credible fun (found : Option Vote) => ∀ vote, found = some vote →
      Known R.Good Tables.votes vote ∧ vote.createdBy = user ∧ vote.relatedReview = review := by
  refine heeds_mono _ _ _ (heeds_select R (.findVote reviewId user.text) fun _ => rfl) ?_
  rintro found ⟨rows, good, rfl⟩ vote same
  have listed : rows.votes.find? (fun row => some row.relatedReview = uuidIn reviewId && some row.createdBy = uuidIn user.text) =
      some vote := same
  have matched := List.find?_some listed
  simp only [uuid_in_text, target, Option.some.injEq, Bool.and_eq_true, decide_eq_true_eq] at matched
  exact ⟨⟨rows, good, List.mem_of_find?_eq_some listed⟩, matched.2, matched.1⟩

theorem withdraw_obeys (vote : Vote) (reviewId : Text) (user review : Uuid) (target : uuidIn reviewId = some review)
    (known : Known R.Good Tables.votes vote) (owner : vote.createdBy = user) (subject : vote.relatedReview = review)
    (lawful : ∀ w, Withdraws R.Good user review w → R.Lawful w) :
    R.ObeysIn (VotesService.deleteVoteAndUpdateReviewTx vote reviewId) := by
  refine R.obeys_in_then _ _ (heeds_mono _ _ _ (heeds_sql_in R (.deleteVote vote.id) ?_) fun _ _ => trivial) fun _ =>
    heeds_mono _ _ _ (heeds_sql_in R (.addVotes [reviewId] vote.action (-1)) (add_votes_allowed R _ _ _ ?_)) fun _ _ => trivial
  · intro rows good w member
    obtain ⟨row, listed, rfl⟩ := List.mem_map.mp member
    obtain ⟨stored, same⟩ := List.mem_filter.mp listed
    exact lawful _ (.deletes vote row known owner subject ⟨rows, good, stored⟩ (of_decide_eq_true same))
  · intro id text among parsed
    rw [List.mem_singleton.mp among, target, Option.some.injEq] at parsed
    exact parsed ▸ lawful _ (.uncounts vote known owner subject)

theorem vote_obeys (reviewId : Text) (user : Uuid) (action : VoteAction) (row : Generated)
    (casts : ∀ review, uuidIn reviewId = some review → R.Lawful (.insertVote ⟨row, action, user, review⟩))
    (counts : ∀ review, uuidIn reviewId = some review → R.Lawful (.addVotes review action 1))
    (replaces : ∀ review w, uuidIn reviewId = some review → Withdraws R.Good user review w → R.Lawful w) :
    R.ObeysIn (VotesService.voteReview reviewId user action row) := by
  refine heeds_transaction _ _ (heeds_bind _ _ _ _ (R.quiet_obeys _ _ (exists_mute reviewId)) fun _ valid => ?_)
  obtain ⟨review, target⟩ := valid_uuid_parses reviewId valid
  have placed : R.ObeysIn (Prog.bind (sql (.insertVote row action user.text reviewId)) fun _ =>
      ReviewService.incrementVotesTx reviewId action 1) := by
    refine R.obeys_in_then _ _ (heeds_mono _ _ _ (heeds_sql_in R _ fun rows _ w member => ?_) fun _ _ => trivial) fun _ =>
      heeds_mono _ _ _ (heeds_sql_in R _ (add_votes_allowed R _ _ _ ?_)) fun _ _ => trivial
    · obtain ⟨vote, built, rfl⟩ := List.mem_map.mp member
      have parsed : voteRow row action user.text reviewId = some ⟨row, action, user, review⟩ := by
        simp [voteRow, uuid_in_text, target]
      rw [parsed] at built
      rw [List.mem_singleton.mp built]
      exact casts review target
    · intro id text among parsed
      rw [List.mem_singleton.mp among] at parsed
      exact counts id parsed
  refine heeds_bind (fun _ => True) _ _ _ (R.quiet_obeys _ _ (lock_mute _ _)) fun acquired _ => ?_
  cases acquired with
  | false => trivial
  | true =>
      refine heeds_bind _ _ _ _ (find_vote_heeds R reviewId user review target) fun (previous : Option Vote) found => ?_
      cases previous with
      | none => exact placed
      | some vote =>
          obtain ⟨known, owner, subject⟩ := found vote rfl
          by_cases same : vote.action = action
          · simp only [same, if_true]
            trivial
          · simp only [same, if_false]
            exact R.obeys_in_then _ _ (withdraw_obeys R vote reviewId user review target known owner subject fun w withdraws =>
              replaces review w target withdraws) fun _ => placed

theorem delete_vote_obeys (reviewId : Text) (user : Uuid)
    (retracts : ∀ review w, uuidIn reviewId = some review → Withdraws R.Good user review w → R.Lawful w) :
    R.ObeysIn (VotesService.deleteVote reviewId user) := by
  refine heeds_bind _ _ _ _ (R.quiet_obeys _ _ (exists_mute reviewId)) fun _ valid => heeds_transaction _ _ ?_
  obtain ⟨review, target⟩ := valid_uuid_parses reviewId valid
  refine heeds_bind (fun _ => True) _ _ _ (R.quiet_obeys _ _ (lock_mute _ _)) fun acquired _ => ?_
  cases acquired with
  | false => trivial
  | true =>
      refine heeds_bind _ _ _ _ (find_vote_heeds R reviewId user review target) fun (previous : Option Vote) found => ?_
      cases previous with
      | none => trivial
      | some vote =>
          obtain ⟨known, owner, subject⟩ := found vote rfl
          exact R.obeys_in_then _ _ (withdraw_obeys R vote reviewId user review target known owner subject fun w withdraws =>
            retracts review w target withdraws) fun _ => trivial

end Votes

end RateWise
