import RateWise.ChartedSteps
import RateWise.Gates
import RateWise.SiteSessions

set_option autoImplicit false

namespace RateWise

open Interleave
open ReadCommitted

def SiteRequest.caller : SiteRequest → Option Caller
  | .requestAccountVerification caller _ => some caller
  | .requestAccountDeletion caller _ => some caller
  | .signOut caller => some caller
  | .signOutAll caller _ _ => some caller
  | .suspendAccount caller _ => some caller
  | .reactivateAccount caller _ => some caller
  | .createItem caller _ _ => some caller
  | .createReview caller _ _ => some caller
  | .voteReview caller _ _ _ => some caller
  | .deleteVote caller _ => some caller
  | _ => none

theorem caller_guarded (config : SiteConfig) (request : SiteRequest) (caller : Caller) (asked : request.caller = some caller) :
    ∃ route handler, request.program config = guarded route caller handler := by
  cases request <;> cases asked <;> exact ⟨_, _, rfl⟩

-- The two replies for which the guard takes a session for a live one.
def InIndex (req : SessionContext) : (s : Api.Stmt) → Api.Reply s → Prop
  | .cmd (.setIsMember key member), reply => key = createUserSessionsSetKey req.userId ∧ member = req.sessionID ∧ reply = true
  | _, _ => False

def HasRelation (req : SessionContext) : (s : Api.Stmt) → Api.Reply s → Prop
  | .cmd (.get key), reply => key = createSessionAndUserMappingKey req.sessionID ∧ reply ≠ none
  | _, _ => False

section Gates

variable (opens : (s : Api.Stmt) → Api.Reply s → Prop)

abbrev Behind {α : Type} (post : α → Prop) (prog : Async α) : Prop := prog.Heeds Mute (fun s reply => ¬ opens s reply) post

theorem behind_quiet {α : Type} (prog : Async α) (quiet : prog.Quiet Mute fun _ => True) : Behind opens (fun _ => True) prog :=
  heeds_quiet _ prog quiet

theorem behind_redis (c : RedisCmd) (post : c.Reply → Prop) (closed : ∀ reply, ¬ opens (.cmd c) reply → post reply) :
    Behind opens post (redis c) := by
  refine ⟨fun q same => ?_, fun _ => trivial, closed⟩
  cases same

theorem dangling_behind (relationFirst : Bool) (req : SessionContext) (inIndex : Bool → Prop) (relation : Option Text → Prop)
    (member : Behind opens inIndex (redis (.setIsMember (createUserSessionsSetKey req.userId) req.sessionID)))
    (found : Behind opens relation (redis (.get (createSessionAndUserMappingKey req.sessionID))))
    (dangles : ∀ listed related, inIndex listed → relation related → (!listed || related.isNone) = true) :
    Behind opens (fun dangling => dangling = true) (SessionsService.isDangling relationFirst req.userId req.sessionID) := by
  unfold SessionsService.isDangling
  cases relationFirst with
  | true => exact heeds_bind relation _ _ _ found fun related missing => heeds_bind inIndex _ _ _ member fun listed absent =>
      dangles listed related absent missing
  | false => exact heeds_bind inIndex _ _ _ member fun listed absent => heeds_bind relation _ _ _ found fun related missing =>
      dangles listed related absent missing

theorem check_session_behind (order : Arrangement) (relationFirst : Bool) (req : SessionContext)
    (dangling : Behind opens (fun dangling => dangling = true)
      (SessionsService.isDangling relationFirst req.userId req.sessionID)) :
    Behind opens (fun _ => False) (AuthGuard.checkSession order relationFirst req) := by
  have refused : Behind opens (fun _ => False)
      (Prog.bind (SessionsService.trySessionCleanup order req) fun _ => (reject unauthorized : Async Account)) :=
    heeds_bind (fun _ => True) _ _ _ (behind_quiet opens _ (mute_redis _ _ (cleanup_quiet order req))) fun _ _ => trivial
  refine heeds_bind (fun _ => True) _ _ _ (behind_quiet opens _ (mute_find_account req.userId)) fun found _ => ?_
  cases found with
  | none => exact refused
  | some user =>
      refine heeds_bind _ _ _ _ dangling fun dangles same => ?_
      rw [same]
      exact refused

theorem guarded_behind (route : Route) (caller : Caller) (handler : SessionContext → AuthenticatedUser → Async Unit)
    (dangling : ∀ req, AuthGuard.signedIn caller.session = some req → Behind opens (fun dangling => dangling = true)
      (SessionsService.isDangling caller.relationFirst req.userId req.sessionID)) :
    Behind opens (fun _ => False) (guarded route caller handler) := by
  refine heeds_bind (fun user => user = none) _ _ _ ?_ fun user absent => ?_
  · refine heeds_bind (fun user => user = none) _ _ _ ?_ fun user absent => ?_
    · cases shown : AuthGuard.isPublic route.metadata with
      | true =>
          simp only [AuthGuard.canActivateHandler, shown, if_true]
          exact rfl
      | false =>
          simp only [AuthGuard.canActivateHandler, shown]
          cases signed : AuthGuard.signedIn caller.session with
          | none => trivial
          | some req => exact heeds_bind _ _ _ _ (check_session_behind opens _ _ req (dangling req signed)) fun _ impossible =>
              False.elim impossible
    · refine heeds_bind (fun _ => True) _ _ _ ?_ fun _ _ => heeds_bind (fun _ => True) _ _ _ ?_ fun _ _ => absent
      · cases AccountStatusGuard.canActivate .graphql route.metadata user <;> trivial
      · cases RolesGuard.canActivate .graphql route.metadata user <;> trivial
  · rw [absent]
    trivial

end Gates

section Runs

variable {n : Nat} {hashtext : Text → Int32}

theorem index_faithful (req : SessionContext) (world left : World) (tx after : Tx schema Int32) (others : List (Tx schema Int32))
    (s : Api.Stmt) (reply : Api.Reply s) (ran : (engine hashtext).exec world tx others s = .ok (reply, after, left))
    (opened : InIndex req s reply) : req.sessionID ∈ world.store.sets (createUserSessionsSetKey req.userId) := by
  cases s with
  | cmd c =>
      obtain ⟨-, store, executed, -⟩ := exec_cmd world left tx after others c reply ran
      cases c with
      | setIsMember key member =>
          obtain ⟨rfl, rfl, rfl⟩ := opened
          have answered := congrArg Prod.fst (Except.ok.inj executed)
          exact List.contains_iff_mem.mp answered
      | _ => cases opened
  | _ => cases opened

theorem relation_faithful (req : SessionContext) (world left : World) (tx after : Tx schema Int32) (others : List (Tx schema Int32))
    (s : Api.Stmt) (reply : Api.Reply s) (ran : (engine hashtext).exec world tx others s = .ok (reply, after, left))
    (opened : HasRelation req s reply) : world.store.live (createSessionAndUserMappingKey req.sessionID) ≠ none := by
  cases s with
  | cmd c =>
      obtain ⟨-, store, executed, -⟩ := exec_cmd world left tx after others c reply ran
      cases c with
      | get key =>
          obtain ⟨rfl, present⟩ := opened
          have answered := congrArg Prod.fst (Except.ok.inj executed)
          intro missing
          rw [missing] at answered
          exact present answered.symm
      | _ => cases opened
  | _ => cases opened

theorem protected_gatekept (config : SiteConfig) (requests : Fin n → SiteRequest) (world : World) (i : Fin n) (caller : Caller)
    (asked : (requests i).caller = some caller) (opens : (s : Api.Stmt) → Api.Reply s → Prop)
    (dangling : ∀ req, AuthGuard.signedIn caller.session = some req → Behind opens (fun dangling => dangling = true)
      (SessionsService.isDangling caller.relationFirst req.userId req.sessionID)) :
    Gatekept opens ((siteStart hashtext config requests world).sessions i) := by
  obtain ⟨route, handler, whole⟩ := caller_guarded config (requests i) caller asked
  refine ⟨?_, rfl⟩
  show Gated opens ((requests i).program config)
  rw [whole]
  exact guarded_behind opens route caller handler dangling

theorem effects_follow_sign_in (hashtext : Text → Int32) (config : SiteConfig) (requests : Fin n → SiteRequest) (world : World)
    (fresh : FreshAccounts world.db requests) (moves : List (SiteMove hashtext n)) (last : SiteNet hashtext n)
    (reached : run (siteStart hashtext config requests world) moves = some last) (i : Fin n) (caller : Caller)
    (asked : (requests i).caller = some caller) (effect : TakesEffect last i) :
    ∃ req, AuthGuard.signedIn caller.session = some req ∧
      Earlier (siteStart hashtext config requests world) moves
        (fun then_ => then_.store.live (createSessionAndUserMappingKey req.sessionID) ≠ none) ∧
      Earlier (siteStart hashtext config requests world) moves (fun then_ =>
        req.sessionID ∈ then_.store.sets (createUserSessionsSetKey req.userId) ∧
        (req.sessionID ∈ world.store.sets (createUserSessionsSetKey req.userId) ∨
          ∃ k row, OnRecord world.db requests row ∧ row.id.text = req.userId ∧ Opens config row req.sessionID (requests k))) := by
  cases signed : AuthGuard.signedIn caller.session with
  | none =>
      obtain ⟨_, _, _, _, _, impossible⟩ := effect_needs_gate (fun _ _ => False) (fun _ => False)
        (fun _ _ _ _ _ _ _ _ impossible => impossible) _ last moves i
        (protected_gatekept config requests world i caller asked _ fun req present => by rw [signed] at present; cases present)
        reached effect
      exact False.elim impossible
  | some req =>
      have same : ∀ other, AuthGuard.signedIn caller.session = some other → other = req :=
        fun other present => Option.some.inj (present.symm.trans signed)
      refine ⟨req, rfl, ?_, ?_⟩
      · refine effect_needs_gate (HasRelation req) _ (relation_faithful req) _ last moves i
          (protected_gatekept config requests world i caller asked _ fun other present => ?_) reached effect
        rw [same other present]
        refine dangling_behind _ _ req (fun _ => True) (fun related => related = none) (behind_redis _ _ _ fun _ _ => trivial)
          (behind_redis _ _ _ fun reply closed => ?_) fun listed related _ missing => by simp [missing]
        by_contra present
        exact closed ⟨rfl, present⟩
      · obtain ⟨early, late, middle, rfl, before, listed⟩ := effect_needs_gate (InIndex req) _ (index_faithful req) _ last moves i
          (protected_gatekept config requests world i caller asked _ fun other present => by
            rw [same other present]
            refine dangling_behind _ _ req (fun listed => listed = false) (fun _ => True) (behind_redis _ _ _ fun reply closed => ?_)
              (behind_redis _ _ _ fun _ _ => trivial) fun listed related absent _ => by simp [absent]
            exact Bool.eq_false_iff.mpr fun present => closed ⟨rfl, rfl, present⟩) reached effect
        refine ⟨early, late, middle, rfl, before, listed, ?_⟩
        exact index_earned config requests world fresh early middle before req.userId req.sessionID listed

end Runs

-- The reviewer signs in, and offers an item with the new session.
def arrivalRequests : Fin 2 → SiteRequest
  | ⟨0, _⟩ => .signIn (Utf16.ofText "rita@mail".toList) (Utf16.ofText "password1".toList) ⟨"s0".toList, "s3".toList⟩
  | ⟨_ + 1, _⟩ => .createItem ⟨some ⟨"s3".toList, some reviewerId.text⟩, .listed, false⟩
      ⟨⟨"brass lamp".toList, "a lamp to read by".toList, "home".toList, []⟩, none⟩ ⟨member, 2⟩

def arrivalMoves : List (SiteMove (fun _ => 0) 2) := List.replicate 4 .first ++ List.replicate 6 .second

theorem arrival_fresh : FreshAccounts staffedWorld.db arrivalRequests := by
  refine fresh_undrawn _ _ ?_ (by decide)
  rintro ⟨_ | i, _⟩ row drawn <;> cases drawn

theorem effects_follow_sign_in_arrival :
    ∃ last, run (siteStart (fun _ => 0) staffedConfig arrivalRequests staffedWorld) arrivalMoves = some last ∧
      TakesEffect last 1 ∧ "s3".toList ∉ staffedWorld.store.sets (createUserSessionsSetKey reviewerId.text) ∧
      ∃ k row, OnRecord staffedWorld.db arrivalRequests row ∧ row.id.text = reviewerId.text ∧
        Opens staffedConfig row "s3".toList (arrivalRequests k) := by
  obtain ⟨last, reached, returned⟩ := run_exists (siteStart (fun _ => 0) staffedConfig arrivalRequests staffedWorld) arrivalMoves
    (fun net => (net.sessions 1).outcome = some (.ok ())) (by decide)
  have absent : "s3".toList ∉ staffedWorld.store.sets (createUserSessionsSetKey reviewerId.text) := by decide
  obtain ⟨req, signed, -, _, _, _, -, -, -, old | ⟨k, row, issued, named, opens⟩⟩ := effects_follow_sign_in (fun _ => 0) staffedConfig
    _ staffedWorld arrival_fresh arrivalMoves last reached 1 _ rfl (.inl ⟨(), returned⟩)
  · cases signed
    exact absurd old absent
  · cases signed
    exact ⟨last, reached, .inl ⟨(), returned⟩, absent, k, row, issued, named, opens⟩

end RateWise
