import RateWise.Obedience
import RateWise.SessionLimit
import RateWise.StoreLaws

set_option autoImplicit false

namespace RateWise

open Interleave
open ReadCommitted

def RedisCmd.adds : RedisCmd → Bool
  | .set _ _ _ => true
  | .multiStoreSetAdd _ _ _ _ => true
  | .sendEmail _ => true
  | _ => false

namespace Redis

-- What a store holds, the start held or such a command has put there.
structure Backed (puts : RedisCmd → Prop) (start store : Redis) : Prop where
  emails : ∀ email ∈ store.addedEmails, email ∈ start.addedEmails ∨ puts (.sendEmail email)
  members : ∀ key, ∀ member ∈ store.sets key, member ∈ start.sets key ∨
    ∃ relation value, puts (.multiStoreSetAdd relation value key member)
  values : ∀ key entry, store.strings key = some entry → start.strings key = some entry ∨
    (∃ ex, puts (.set key entry.value ex)) ∨ ∃ set member, puts (.multiStoreSetAdd key entry.value set member)

section Steps

variable {puts : RedisCmd → Prop} {start : Redis}

theorem backed_start : Backed puts start start :=
  ⟨fun _ queued => .inl queued, fun _ _ listed => .inl listed, fun _ _ found => .inl found⟩

theorem values_set (store : Redis) (key : Text) (entry : RedisEntry)
    (source : start.strings key = some entry ∨ (∃ ex, puts (.set key entry.value ex)) ∨
      ∃ set member, puts (.multiStoreSetAdd key entry.value set member)) (backed : Backed puts start store)
    (other : Text) (found : RedisEntry) (stored : Function.update store.strings key (some entry) other = some found) :
    start.strings other = some found ∨ (∃ ex, puts (.set other found.value ex)) ∨
      ∃ set member, puts (.multiStoreSetAdd other found.value set member) := by
  by_cases here : other = key
  · subst here
    rw [Function.update_self, Option.some.injEq] at stored
    exact stored ▸ source
  · rw [Function.update_of_ne here] at stored
    exact backed.values other found stored

theorem members_shrunk (store : Redis) (key : Text) (members : List Text) (fewer : members ⊆ store.sets key)
    (backed : Backed puts start store) (other member : Text) (listed : member ∈ Function.update store.sets key members other) :
    member ∈ start.sets other ∨ ∃ relation value, puts (.multiStoreSetAdd relation value other member) := by
  by_cases here : other = key
  · subst here
    rw [Function.update_self] at listed
    exact backed.members other member (fewer listed)
  · rw [Function.update_of_ne here] at listed
    exact backed.members other member listed

theorem backed_exec (store left : Redis) (c : RedisCmd) (reply : c.Reply) (backed : Backed puts start store)
    (put : c.adds = true → puts c) (ran : Redis.exec store c = .ok (reply, left)) : Backed puts start left := by
  cases c with
  | set key value ex =>
      have source : ∀ entry : RedisEntry, entry.value = value → start.strings key = some entry ∨
          (∃ ex, puts (.set key entry.value ex)) ∨ ∃ set member, puts (.multiStoreSetAdd key entry.value set member) :=
        fun entry same => .inr (.inl ⟨ex, same ▸ put rfl⟩)
      cases ex with
      | none =>
          cases ran
          exact ⟨backed.emails, backed.members, values_set store key _ (source _ rfl) backed⟩
      | some seconds =>
          simp only [Redis.exec] at ran
          split at ran
          · cases ran
            exact ⟨backed.emails, backed.members, values_set store key _ (source _ rfl) backed⟩
          · cases ran
  | del key =>
      cases ran
      refine ⟨backed.emails, members_shrunk store key [] (List.nil_subset _) backed, fun other entry stored => ?_⟩
      dsimp only at stored
      by_cases here : other = key
      · subst here
        simp at stored
      · rw [Function.update_of_ne here] at stored
        exact backed.values other entry stored
  | setRem key member =>
      cases ran
      exact ⟨backed.emails, members_shrunk store key _ List.erase_subset backed, backed.values⟩
  | multiStoreSetAdd key value set member =>
      cases ran
      refine ⟨backed.emails, fun other joined listed => ?_, values_set store key _ (.inr (.inr ⟨set, member, put rfl⟩)) backed⟩
      dsimp only at listed
      by_cases here : other = set
      · subst here
        rw [Function.update_self] at listed
        rcases List.mem_insert_iff.mp listed with same | old
        · exact .inr ⟨key, value, same ▸ put rfl⟩
        · exact backed.members other joined old
      · rw [Function.update_of_ne here] at listed
        exact backed.members other joined listed
  | sendEmail email =>
      cases ran
      refine ⟨fun queued listed => ?_, backed.members, backed.values⟩
      rcases List.mem_append.mp listed with old | new
      · exact backed.emails queued old
      · rw [List.mem_singleton.mp new]
        exact .inr (put rfl)
  | _ =>
      cases ran
      exact backed

end Steps

end Redis

def originRule (puts : RedisCmd → Prop) (start : Redis) : StoreRule Redis.commands where
  Holds := Redis.Backed puts start
  Proper c := c.adds = true → puts c
  holds_exec store c reply left backed put ran := Redis.backed_exec store left c reply backed put ran
  holds_drift _ _ backed := ⟨backed.emails, backed.members, backed.values⟩

def Thrifty : Api.Stmt → Prop
  | .cmd c => c.adds = false
  | _ => True

section Programs

theorem thrifty_sql (s : Sql) : (sql s).Sends Thrifty := ⟨trivial, fun reply => by cases reply <;> trivial⟩

theorem thrifty_redis (c : RedisCmd) (takes : c.adds = false) : (redis c).Sends Thrifty :=
  ⟨takes, fun reply => by cases reply <;> trivial⟩

theorem thrifty_mild {α : Type} (prog : Async α) (quiet : prog.Quiet Mild fun _ => True) : prog.Sends Thrifty := by
  refine sends_quiet _ _ _ prog quiet fun s mild => ?_
  cases s with
  | sql s => trivial
  | tryLock key => trivial
  | cmd c => cases c <;> first | rfl | cases mild

theorem thrifty_reject_if (met : Bool) (error : Err) : (rejectIf met error).Sends Thrifty := by
  unfold rejectIf
  split <;> trivial

theorem thrifty_save (s : Sql) : (transaction (sql s)).Sends Thrifty := sends_transaction _ _ (thrifty_sql s)

theorem thrifty_discard {α : Type} (request : Async α) (thrifty : request.Sends Thrifty) : (discard request).Sends Thrifty :=
  sends_bind _ _ _ thrifty fun _ => trivial

theorem thrifty_for_each {α : Type} (body : α → Async Unit) (xs : List α) (thrifty : ∀ x, (body x).Sends Thrifty) :
    (forEach body xs).Sends Thrifty := by
  induction xs with
  | nil => trivial
  | cons x rest ih => exact sends_bind _ _ _ (thrifty x) fun _ => ih

theorem thrifty_find (id : Text) : (UsersService.findOneById id).Sends Thrifty := thrifty_mild _ (mild_find id)

theorem thrifty_find_or_throw (id : Text) : (UsersService.findOneByIdOrThrow id).Sends Thrifty := thrifty_mild _ (mild_find_or_throw id)

theorem thrifty_check_session (order : Arrangement) (relationFirst : Bool) (req : SessionContext) :
    (AuthGuard.checkSession order relationFirst req).Sends Thrifty := by
  have refused : (Prog.bind (SessionsService.trySessionCleanup order req) fun _ => (reject unauthorized : Async Account)).Sends Thrifty :=
    sends_bind _ _ _ (thrifty_mild _ (mild_cleanup order req)) fun _ => trivial
  refine sends_bind _ _ _ (thrifty_find req.userId) fun found => ?_
  cases found with
  | none => exact refused
  | some user =>
      refine sends_bind _ _ _ (thrifty_mild _ (mild_dangling relationFirst req.userId req.sessionID)) fun dangling => ?_
      cases dangling with
      | true => exact refused
      | false => trivial

theorem thrifty_check_access (route : Route) (caller : Caller) : (checkAccess route caller).Sends Thrifty := by
  have excepted : ∀ value : Except Err Unit, (ofExcept value).Sends Thrifty := by
    intro value
    cases value <;> trivial
  refine sends_bind _ _ _ ?_ fun user => sends_bind _ _ _ (excepted _) fun _ => sends_bind _ _ _ (excepted _) fun _ => trivial
  unfold AuthGuard.canActivateHandler
  split
  · trivial
  · split
    · trivial
    · cases AuthGuard.signedIn caller.session with
      | none => trivial
      | some req => exact sends_bind _ _ _ (thrifty_check_session caller.order caller.relationFirst req) fun _ => trivial

theorem thrifty_guarded (route : Route) (caller : Caller) (handler : SessionContext → AuthenticatedUser → Async Unit)
    (thrifty : ∀ req user, (handler req user).Sends Thrifty) : (guarded route caller handler).Sends Thrifty := by
  refine sends_bind _ _ _ (thrifty_check_access route caller) fun reply => ?_
  cases reply with
  | none => trivial
  | some user =>
      cases AuthGuard.signedIn caller.session with
      | none => trivial
      | some req => exact thrifty req user

theorem thrifty_change_status (refusal : Account → Option Err) (status : AccountStatus) (userId : Text) :
    (changeStatus refusal status userId).Sends Thrifty := by
  refine sends_bind _ _ _ (thrifty_find_or_throw userId) fun user => ?_
  unfold setStatusUnless
  cases refusal user with
  | some error => trivial
  | none =>
      refine sends_catching _ _ _ (sends_bind _ _ _ (sends_bind _ _ _ (thrifty_sql (.findAccount _)) fun (found : Option Account) => ?_)
        fun _ => sends_bind _ _ _ (thrifty_redis (.del _) rfl) fun _ => trivial) fun _ => trivial
      cases found with
      | none => exact thrifty_save _
      | some row =>
          show Prog.Sends Thrifty (if _ then pure () else _)
          split
          · trivial
          · exact thrifty_save _

theorem thrifty_create_review (reviewData : RawReviewInput) (user : AuthenticatedUser) (row : Generated) :
    (ReviewService.createFrom reviewData user row).Sends Thrifty := by
  refine sends_bind _ _ _ ?_ fun item => ?_
  · unfold ItemsService.findOneByIdOrThrow
    split
    · trivial
    · refine sends_bind _ _ _ (thrifty_sql (.findItem _)) fun (found : Option Item) => ?_
      cases found <;> trivial
  · by_cases own : item.createdBy = user.id
    · simp only [own, if_true]
      trivial
    · simp only [own, if_false]
      exact sends_catching _ _ _ (thrifty_save _) fun _ => trivial

theorem thrifty_exists_review (reviewId : Text) : (ReviewService.existsOrThrow reviewId).Sends Thrifty := by
  refine sends_bind _ _ _ ?_ fun _ => sends_bind _ _ _ (thrifty_sql (.countReviews _)) fun (count : Nat) => ?_
  · unfold ReviewService.verifyUUidOrThrow
    split <;> trivial
  · show Prog.Sends Thrifty (if count = 0 then reject ReviewService.notFound else pure ())
    split <;> trivial

theorem thrifty_lock (userId reviewId : Text) : (VotesService.acquireVoteLock userId reviewId).Sends Thrifty :=
  ⟨trivial, fun reply => by cases reply <;> trivial⟩

theorem thrifty_withdraw (vote : Vote) (reviewId : Text) : (VotesService.deleteVoteAndUpdateReviewTx vote reviewId).Sends Thrifty :=
  sends_bind _ _ _ (thrifty_sql _) fun _ => thrifty_sql _

theorem thrifty_vote (reviewId : Text) (user : Uuid) (action : VoteAction) (row : Generated) :
    (VotesService.voteReview reviewId user action row).Sends Thrifty := by
  have inserts : ((sql (.insertVote row action user.text reviewId)).bind fun _ =>
      ReviewService.incrementVotesTx reviewId action 1).Sends Thrifty := sends_bind _ _ _ (thrifty_sql _) fun _ => thrifty_sql _
  refine sends_transaction _ _ (sends_bind _ _ _ (thrifty_exists_review reviewId) fun _ =>
    sends_bind _ _ _ (thrifty_lock _ _) fun acquired => ?_)
  cases acquired with
  | false => trivial
  | true =>
      refine sends_bind _ _ _ (thrifty_sql (.findVote _ _)) fun (found : Option Vote) => ?_
      cases found with
      | none => exact inserts
      | some previous =>
          by_cases same : previous.action = action
          · simp only [same, if_true]
            trivial
          · simp only [same, if_false]
            exact sends_bind _ _ _ (thrifty_withdraw previous reviewId) fun _ => inserts

theorem thrifty_delete_vote (reviewId : Text) (user : Uuid) : (VotesService.deleteVote reviewId user).Sends Thrifty := by
  refine sends_bind _ _ _ (thrifty_exists_review reviewId) fun _ => sends_transaction _ _
    (sends_bind _ _ _ (thrifty_lock _ _) fun acquired => ?_)
  cases acquired with
  | false => trivial
  | true =>
      refine sends_bind _ _ _ (thrifty_sql (.findVote _ _)) fun (found : Option Vote) => ?_
      cases found with
      | none => trivial
      | some previous => exact sends_bind _ _ _ (thrifty_withdraw previous reviewId) fun _ => trivial

theorem thrifty_delete_account (id : Text) : (UserDeletionService.deleteOne id).Sends Thrifty := by
  have lowers : ∀ (ids : List Text) (action : VoteAction), (ReviewService.decrementVotesInTx ids action 1).Sends Thrifty := by
    intro ids action
    unfold ReviewService.decrementVotesInTx
    split
    · trivial
    · exact thrifty_sql _
  refine sends_bind _ _ _ (sends_transaction _ _ (sends_bind _ _ _ (sends_bind _ _ _ ?_ fun _ =>
    sends_bind _ _ _ (thrifty_sql (.findAccount id)) fun (found : Option Account) => ?_) fun user => ?_)) fun _ =>
    sends_bind _ _ _ (thrifty_redis (.del _) rfl) fun _ => trivial
  · unfold UsersService.validUuidOrThrow
    split <;> trivial
  · cases found <;> trivial
  · refine sends_bind _ _ _ (sends_bind _ _ _ (thrifty_sql (.findVotesBy id)) fun (votes : List VoteSummary) => ?_)
      fun _ => thrifty_sql _
    exact sends_bind _ _ _ (lowers _ .up) fun _ => lowers _ .down

theorem thrifty_user_ids (adminEmail : Text) : (SeedService.getUserIdsOrThrow adminEmail).Sends Thrifty :=
  sends_bind _ _ _ (thrifty_sql _) fun _ => sends_bind _ _ _ (thrifty_reject_if _ _) fun _ => trivial

theorem thrifty_seed (adminEmail : Text) (draws : SeedDraws) (options : SeedOptions) :
    (SeedService.runSeed adminEmail draws options).Sends Thrifty := by
  refine sends_bind _ _ _ (thrifty_sql _) fun _ => sends_bind _ _ _ (thrifty_for_each _ _ fun _ => thrifty_save _) fun _ =>
    sends_bind _ _ _ (sends_bind _ _ _ (thrifty_user_ids adminEmail) fun _ => thrifty_for_each _ _ fun _ =>
      thrifty_for_each _ _ fun _ => thrifty_save _) fun _ => sends_bind _ _ _ ?_ fun _ => ?_
  · refine sends_bind _ _ _ (thrifty_user_ids adminEmail) fun _ => sends_bind _ _ _ (sends_bind _ _ _ (thrifty_sql _) fun _ =>
      sends_bind _ _ _ (thrifty_reject_if _ _) fun _ => trivial) fun _ => thrifty_for_each _ _ fun _ => thrifty_save _
  · refine sends_bind _ _ _ (thrifty_user_ids adminEmail) fun _ => sends_bind _ _ _ (sends_bind _ _ _ (thrifty_sql _) fun _ =>
      sends_bind _ _ _ (thrifty_reject_if _ _) fun _ => trivial) fun _ => sends_bind _ _ _
        (thrifty_for_each _ _ fun _ => thrifty_save _) fun _ => thrifty_sql _

theorem thrifty_module_init (isProduction : Bool) (admin : Account) (draws : SeedDraws) :
    (AdminService.onModuleInit isProduction admin draws).Sends Thrifty := by
  refine sends_bind _ _ _ (sends_bind _ _ _ (thrifty_sql (.findAccountByEmail _)) fun (found : Option Account) => ?_) fun _ => ?_
  · cases found with
    | none => exact thrifty_save _
    | some existing => trivial
  · cases isProduction with
    | false => trivial
    | true => exact thrifty_seed _ _ _

theorem thrifty_verify (opts : TokensFeatureOptions) (token : Token) : (AuthService.verifyTokenOrThrow opts token).Sends Thrifty := by
  refine sends_catching _ _ _ (sends_bind _ _ _ ?_ fun payload => sends_bind _ _ _ (thrifty_reject_if _ _) fun _ =>
    sends_bind _ _ _ (thrifty_reject_if _ _) fun _ => sends_bind _ _ _ (thrifty_redis (.get _) rfl) fun _ =>
      sends_bind _ _ _ (thrifty_reject_if _ _) fun _ => trivial) fun error => by cases error <;> trivial
  cases token with
  | unsigned text => trivial
  | signed secret payload =>
      refine sends_bind _ _ _ (thrifty_reject_if _ _) fun _ => ?_
      exact sends_bind _ _ _ (thrifty_redis .now rfl) fun _ => sends_bind _ _ _ (thrifty_reject_if _ _) fun _ =>
        sends_bind _ _ _ (thrifty_reject_if _ _) fun _ => trivial

theorem thrifty_delete (key : Text) : (SessionsService.delete key).Sends Thrifty := thrifty_mild _ (mild_delete key)

theorem thrifty_delete_all (userId : Text) : (SessionsService.deleteAll userId).Sends Thrifty := by
  refine thrifty_mild _ (Prog.quiet_bind _ (fun _ => True) _ _ _ (mild_redis (.sMembers _) trivial) fun sessIDs _ => ?_)
  refine Prog.quiet_bind _ (fun _ => True) _ _ _ (mild_settled _ fun promise listed => ?_) fun _ _ => trivial
  have deletes : ∀ keys : Text → Text, (runSettledOrThrow (List.map (fun id => SessionsService.delete (keys id)) sessIDs)).Quiet
      Mild fun _ => True := by
    refine fun keys => mild_settled _ fun promise listed => ?_
    obtain ⟨id, -, rfl⟩ := List.mem_map.mp listed
    exact mild_delete _
  simp only [List.mem_cons, List.not_mem_nil, or_false] at listed
  rcases listed with rfl | rfl | rfl
  · exact deletes createSessionKey
  · exact mild_delete _
  · exact deletes createSessionAndUserMappingKey

theorem thrifty_sign_out_all (compare : JsString → Text → Bool) (order : Arrangement) (destroyedFirst : Bool) (password : JsString)
    (req : SessionContext) : (AuthService.signOutAll compare order destroyedFirst password req).Sends Thrifty :=
  sends_bind _ _ _ (sends_bind _ _ _ (thrifty_reject_if _ _) fun _ => sends_bind _ _ _ (thrifty_find_or_throw _) fun _ =>
    thrifty_reject_if _ _) fun _ => sends_bind _ _ _ (thrifty_mild _ (mild_destroy_all order destroyedFirst req)) fun _ => trivial

end Programs

end RateWise
