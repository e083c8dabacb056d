import RateWise.AccessControl
import RateWise.Cursors

set_option autoImplicit false

namespace RateWise

open Interleave

structure RateLimitPolicy where
  limit : Nat
  ttl : Int
deriving DecidableEq

inductive RateLimitTier where
  | ultraCritical
  | critical
  | balanced
  | relaxed
deriving DecidableEq

def minutes (count : Int) : Int := count * 60000

def rateLimitProfile : RateLimitTier → RateLimitPolicy
  | .ultraCritical => ⟨3, minutes 20⟩
  | .critical => ⟨3, minutes 1⟩
  | .balanced => ⟨100, minutes 1⟩
  | .relaxed => ⟨1000, minutes 1⟩

-- The policy of ThrottlerModule for handlers without a tier.
def defaultPolicy : RateLimitPolicy := ⟨10 * 1000, 10 * minutes 1⟩

-- The throttler's storage under one key: what a hit at some time makes of the
-- counter, and whether it is blocked.
structure ThrottlerStorage where
  Counter : Type
  fresh : Counter
  increment : RateLimitPolicy → Int → Counter → Counter × Bool

structure Handler where
  name : Text
  tier : Option RateLimitTier
  metadata : HandlerMetadata
deriving DecidableEq

structure IncomingRequest where
  ip : Text
  time : Int
  handler : Handler
  session : Option RequestSession
deriving DecidableEq

structure Arrival where
  request : IncomingRequest
  world : World

-- generateKey is a digest of the handler and of the tracker.
abbrev ThrottlerKey := Text × Text

structure Passage (storage : ThrottlerStorage) where
  counters : ThrottlerKey → storage.Counter
  user : Option AuthenticatedUser
  blocked : Option Bool

def tooManyRequests : Err := .gql .tooManyRequests "Too many requests, try again later"

namespace RateLimiterGuard

-- typedReq.user ? typedReq.user.id : typedReq.ip
def getTracker (user : Option AuthenticatedUser) (request : IncomingRequest) : Text :=
  match user with
  | some user => user.id.text
  | none => request.ip

def policy (handler : Handler) : RateLimitPolicy := (handler.tier.map rateLimitProfile).getD defaultPolicy

def canActivate {storage : ThrottlerStorage} (request : IncomingRequest) (passage : Passage storage) :
    Except Err Unit × Passage storage :=
  let key : ThrottlerKey := (request.handler.name, getTracker passage.user request)
  let hit := storage.increment (policy request.handler) request.time (passage.counters key)
  (if hit.2 then .error tooManyRequests else .ok (),
    { passage with counters := Function.update passage.counters key hit.1, blocked := some hit.2 })

end RateLimiterGuard

inductive AppGuard where
  | rateLimiterGuard
  | appAuthGuard
  | appAccountStatusGuard
  | appRolesGuard
deriving DecidableEq

-- In the order in which AppModule provides them.
def appGuards : List AppGuard := [.rateLimiterGuard, .appAuthGuard, .appAccountStatusGuard, .appRolesGuard]

section Guards

variable {storage : ThrottlerStorage} (hashtext : Text → Int32)

def AppGuard.canActivate (arrival : Arrival) (passage : Passage storage) : AppGuard → Except Err Unit × Passage storage
  | .rateLimiterGuard => RateLimiterGuard.canActivate arrival.request passage
  | .appAuthGuard =>
      match ((AuthGuard.canActivateHandler .listed false .graphql arrival.request.handler.metadata arrival.request.session).solo
        (engine hashtext) arrival.world none).1 with
      | .error error => (.error error, passage)
      | .ok user => (.ok (), { passage with user := user <|> passage.user })
  | .appAccountStatusGuard =>
      (AccountStatusGuard.canActivate .graphql arrival.request.handler.metadata passage.user, passage)
  | .appRolesGuard => (RolesGuard.canActivate .graphql arrival.request.handler.metadata passage.user, passage)

def passGuards (arrival : Arrival) : List AppGuard → Passage storage → Except Err Unit × Passage storage
  | [], passage => (.ok (), passage)
  | guard :: rest, passage => match guard.canActivate hashtext arrival passage with
    | (.ok _, next) => passGuards arrival rest next
    | (.error error, next) => (.error error, next)

def handleRequest (counters : ThrottlerKey → storage.Counter) (arrival : Arrival) : (ThrottlerKey → storage.Counter) × Option Bool :=
  let passage := (passGuards hashtext arrival appGuards ⟨counters, none, none⟩).2
  (passage.counters, passage.blocked)

def decisions (counters : ThrottlerKey → storage.Counter) : List Arrival → List (IncomingRequest × Option Bool)
  | [] => []
  | arrival :: rest =>
      (arrival.request, (handleRequest hashtext counters arrival).2) :: decisions (handleRequest hashtext counters arrival).1 rest

end Guards

def IncomingRequest.sentBy (request : IncomingRequest) (user : Uuid) : Bool := (request.session.bind RequestSession.userId) = some user.text

def decisionsFor (user : Uuid) (all : List (IncomingRequest × Option Bool)) : List (IncomingRequest × Option Bool) :=
  all.filter fun decision => decision.1.sentBy user

-- The second run is the first with more requests; what the guards find may
-- differ from the first of them on.
inductive Extended (more : IncomingRequest → Prop) : List Arrival → List Arrival → Prop where
  | nil : Extended more [] []
  | kept (request : IncomingRequest) (world later : World) (base longer : List Arrival) (rest : Extended more base longer) :
      Extended more (⟨request, world⟩ :: base) (⟨request, later⟩ :: longer)
  | added (arrival : Arrival) (base longer : List Arrival) (extra : more arrival.request) (rest : Extended more base longer) :
      Extended more base (arrival :: longer)

-- The counter that a request is charged to: its handler's for its address.
def IncomingRequest.key (request : IncomingRequest) : ThrottlerKey := (request.handler.name, request.ip)

section Runs

variable {storage : ThrottlerStorage} {hashtext : Text → Int32}

theorem later_guards (arrival : Arrival) (guards : List AppGuard) (behind : .rateLimiterGuard ∉ guards)
    (passage : Passage storage) :
    (passGuards hashtext arrival guards passage).2.counters = passage.counters ∧
      (passGuards hashtext arrival guards passage).2.blocked = passage.blocked := by
  induction guards generalizing passage with
  | nil => exact ⟨rfl, rfl⟩
  | cons guard rest ih =>
      simp only [List.mem_cons, not_or] at behind
      have alone : (guard.canActivate hashtext arrival passage).2.counters = passage.counters ∧
          (guard.canActivate hashtext arrival passage).2.blocked = passage.blocked := by
        cases guard with
        | rateLimiterGuard => exact absurd rfl behind.1
        | appAuthGuard =>
            simp only [AppGuard.canActivate]
            split <;> exact ⟨rfl, rfl⟩
        | appAccountStatusGuard => exact ⟨rfl, rfl⟩
        | appRolesGuard => exact ⟨rfl, rfl⟩
      unfold passGuards
      split
      · rename_i value next same
        rw [same] at alone
        have onward := ih behind.2 next
        exact ⟨onward.1.trans alone.1, onward.2.trans alone.2⟩
      · rename_i error next same
        rw [same] at alone
        exact alone

-- The rate limiter comes first, when no request has a user yet.
theorem handle_request_eq (counters : ThrottlerKey → storage.Counter) (arrival : Arrival) :
    handleRequest hashtext counters arrival =
      (Function.update counters arrival.request.key (storage.increment (RateLimiterGuard.policy arrival.request.handler)
        arrival.request.time (counters arrival.request.key)).1,
      some (storage.increment (RateLimiterGuard.policy arrival.request.handler) arrival.request.time
        (counters arrival.request.key)).2) := by
  have first (counter : storage.Counter) (blocked : Bool) (result : Except Err Unit) (given : AppGuard.canActivate hashtext
      arrival (⟨counters, none, none⟩ : Passage storage) .rateLimiterGuard =
        (result, ⟨Function.update counters arrival.request.key counter, none, some blocked⟩)) :
      handleRequest hashtext counters arrival = (Function.update counters arrival.request.key counter, some blocked) := by
    unfold handleRequest appGuards
    rw [passGuards, given]
    cases result with
    | error error => rfl
    | ok passed =>
        obtain ⟨kept, same⟩ := @later_guards storage hashtext arrival
          [.appAuthGuard, .appAccountStatusGuard, .appRolesGuard] (by decide)
          (⟨Function.update counters arrival.request.key counter, none, some blocked⟩ : Passage storage)
        exact Prod.ext kept same
  exact first _ _ _ rfl

theorem agreeing_decisions (user : Uuid) (mine : ThrottlerKey → Prop) (base longer : List Arrival)
    (extended : Extended (fun request => ¬ mine request.key ∧ request.sentBy user = false) base longer)
    (own : ∀ arrival ∈ base, arrival.request.sentBy user = true → mine arrival.request.key)
    (counters others : ThrottlerKey → storage.Counter) (agree : ∀ key, mine key → counters key = others key) :
    decisionsFor user (decisions hashtext counters base) = decisionsFor user (decisions hashtext others longer) := by
  induction extended generalizing counters others with
  | nil => rfl
  | kept request world later base longer rest ih =>
      have onward := ih (fun arrival member => own arrival (by simp [member]))
        (handleRequest hashtext counters ⟨request, world⟩).1 (handleRequest hashtext others ⟨request, later⟩).1 ?_
      · simp only [decisions, decisionsFor, List.filter_cons] at onward ⊢
        rw [onward]
        split
        · rename_i sent
          have same := agree request.key (own ⟨request, world⟩ (by simp) sent)
          simp only [handle_request_eq, same]
        · rfl
      · intro key charged
        simp only [handle_request_eq]
        by_cases here : key = request.key
        · subst here
          rw [Function.update_self, Function.update_self, agree _ charged]
        · rw [Function.update_of_ne here, Function.update_of_ne here, agree _ charged]
  | added arrival base longer extra rest ih =>
      rw [ih own counters (handleRequest hashtext others arrival).1 ?_]
      · simp only [decisions, decisionsFor, List.filter_cons, extra.2]
        rfl
      · intro key charged
        have elsewhere : key ≠ arrival.request.key := fun same => extra.1 (same ▸ charged)
        simp only [handle_request_eq, Function.update_of_ne elsewhere, agree key charged]

-- Requests of one user leave the decisions for another alone if they come to
-- other handlers or from other addresses.
theorem separate_addresses_separate_quotas (one other : Uuid) (different : one ≠ other) (base longer : List Arrival)
    (counters : ThrottlerKey → storage.Counter)
    (extended : Extended (fun request => request.sentBy other = true ∧
      ∀ arrival ∈ base, arrival.request.sentBy one = true → arrival.request.handler.name = request.handler.name →
        arrival.request.ip ≠ request.ip) base longer) :
    decisionsFor one (decisions hashtext counters base) = decisionsFor one (decisions hashtext counters longer) := by
  refine agreeing_decisions one (fun key => ∃ arrival ∈ base, arrival.request.sentBy one = true ∧ arrival.request.key = key)
    base longer ?_ (fun arrival member sent => ⟨arrival, member, sent, rfl⟩) counters counters fun _ _ => rfl
  have weaken : ∀ short long : List Arrival, Extended (fun request => request.sentBy other = true ∧
      ∀ arrival ∈ base, arrival.request.sentBy one = true → arrival.request.handler.name = request.handler.name →
        arrival.request.ip ≠ request.ip) short long →
      Extended (fun request => ¬ (∃ arrival ∈ base, arrival.request.sentBy one = true ∧ arrival.request.key = request.key) ∧
        request.sentBy one = false) short long := by
    intro short long steps
    induction steps with
    | nil => exact .nil
    | kept request world later base longer rest ih => exact .kept request world later base longer ih
    | added arrival base longer extra rest ih =>
        refine .added arrival base longer ⟨?_, ?_⟩ ih
        · rintro ⟨earlier, member, sent, same⟩
          exact extra.2 earlier member sent (congrArg Prod.fst same) (congrArg Prod.snd same)
        · have sent := extra.1
          simp only [IncomingRequest.sentBy, decide_eq_true_eq, decide_eq_false_iff_not] at sent ⊢
          rw [sent]
          exact fun same => different (uuid_text_injective (Option.some.inj same)).symm
  exact weaken base longer extended

-- Hits in a window of ttl, and a block of ttl from the first hit beyond the
-- limit on.
structure WindowCounter where
  hits : Nat
  expiresAt : Int
  blockedUntil : Option Int
deriving DecidableEq

def windowStorage : ThrottlerStorage where
  Counter := WindowCounter
  fresh := ⟨0, 0, none⟩
  increment policy now counter :=
    let counted : WindowCounter :=
      if now < counter.expiresAt then { counter with hits := counter.hits + 1 }
      else ⟨1, now + policy.ttl, counter.blockedUntil⟩
    if counter.blockedUntil.any fun time => now < time then (counted, true)
    else if policy.limit < counted.hits then ({ counted with blockedUntil := some (now + policy.ttl) }, true)
    else ({ counted with blockedUntil := none }, false)

def buyerId : Uuid := ⟨"7a8b9c0d-1e2f-4a3b-9c4d-5e6f7a8b9c0d".toList, by decide⟩

def buyer : Account := ⟨⟨buyerId, 0⟩, "bert".toList, "bert@mail".toList, "hash".toList, [.reviewer], .active⟩

def sharedWorld : World where
  db := ⟨[reviewer, buyer], [], [], []⟩
  store := {
    Redis.empty with
    strings := Function.update (Function.update (fun _ => none) (createSessionAndUserMappingKey "s1".toList)
      (some ⟨reviewerId.text, none⟩)) (createSessionAndUserMappingKey "s2".toList) (some ⟨buyerId.text, none⟩)
    sets := Function.update (Function.update (fun _ => []) (createUserSessionsSetKey reviewerId.text) ["s1".toList])
      (createUserSessionsSetKey buyerId.text) ["s2".toList] }

def signOutHandler : Handler where
  name := "AuthResolver.signOut".toList
  tier := some .critical
  metadata := ⟨⟨none, none⟩, ⟨some [.pendingVerification, .active, .suspended], none⟩,
    ⟨some [.reviewer, .creator, .moderator, .admin], none⟩⟩

def reviewerFrom (address : String) (time : Int) : Arrival :=
  ⟨⟨address.toList, time, signOutHandler, some reviewerSession⟩, sharedWorld⟩

def buyerFrom (address : String) (time : Int) : Arrival :=
  ⟨⟨address.toList, time, signOutHandler, some ⟨"s2".toList, some buyerId.text⟩⟩, sharedWorld⟩

theorem separate_addresses_separate_quotas_office :
    decisionsFor reviewerId (@decisions windowStorage (fun _ => 0) (fun _ => windowStorage.fresh)
        [reviewerFrom "10.0.0.1" 5]) =
      decisionsFor reviewerId (@decisions windowStorage (fun _ => 0) (fun _ => windowStorage.fresh)
        [buyerFrom "10.0.0.2" 1, reviewerFrom "10.0.0.1" 5]) := by
  refine separate_addresses_separate_quotas reviewerId buyerId (by decide) _ _ _
    (.added _ _ _ ⟨by decide, ?_⟩ (.kept _ _ _ _ _ .nil))
  intro arrival member _ _
  rw [List.mem_singleton.mp member]
  decide

-- Three requests of the buyer from the same address use up the quota of the
-- reviewer, who has not sent any.
theorem shared_address_shares_quota :
    Extended (fun request => request.sentBy buyerId = true) [reviewerFrom "10.0.0.1" 5]
        [buyerFrom "10.0.0.1" 1, buyerFrom "10.0.0.1" 2, buyerFrom "10.0.0.1" 3, reviewerFrom "10.0.0.1" 5] ∧
      (@decisions windowStorage (fun _ => 0) (fun _ => windowStorage.fresh) [reviewerFrom "10.0.0.1" 5]).map Prod.snd =
        [some false] ∧
      (decisionsFor reviewerId (@decisions windowStorage (fun _ => 0) (fun _ => windowStorage.fresh)
        [buyerFrom "10.0.0.1" 1, buyerFrom "10.0.0.1" 2, buyerFrom "10.0.0.1" 3, reviewerFrom "10.0.0.1" 5])).map Prod.snd =
        [some true] := by
  refine ⟨.added _ _ _ (by decide) (.added _ _ _ (by decide) (.added _ _ _ (by decide) (.kept _ _ _ _ _ .nil))), ?_, ?_⟩ <;>
    decide

end Runs

end RateWise
