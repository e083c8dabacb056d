import RateWise.LinkReplays

set_option autoImplicit false

namespace RateWise

open Interleave
open ReadCommitted

-- Requests that share Redis with a blacklisting: others that blacklist the
-- same token, and any that handle the token as a link does or not at all.
inductive TokenRequest (jti : Text) (exp : Int) where
  | blacklist
  | other (prog : Async Unit) (presents : prog.Tame (presentations (createBlacklistTokenKey jti) exp) (fun _ _ => True) .unread)

namespace TokenRequest

def program {jti : Text} {exp : Int} : TokenRequest jti exp → Async Unit
  | .blacklist => TokensService.blacklist jti (some exp)
  | .other prog _ => prog

-- A call of blacklist starts behind the checks on its token.
def start {jti : Text} {exp : Int} : TokenRequest jti exp → Presentation
  | .blacklist => .passed
  | .other _ _ => .unread

end TokenRequest

section Runs

variable {hashtext : Text → Int32} {n : Nat} {jti : Text} {exp : Int}

abbrev requestPhase (request : TokenRequest jti exp) (session : Session (engine hashtext) Err Unit) : Presentation :=
  (presentationsFrom request.start (createBlacklistTokenKey jti) exp).phase session.log

-- What holds of the requests between any two steps: they keep to the
-- automaton, no clock reading lies in the future, and an entry lasts.
structure Lasting (requests : Fin n → TokenRequest jti exp) (net : Net (engine hashtext) Err Unit n) : Prop where
  tamed : ∀ i, TamedOr (presentationsFrom (requests i).start (createBlacklistTokenKey jti) exp)
    (fun p _ => requests i = .blacklist → p = .listed) (fun _ _ => True) (net.sessions i)
  timely : ∀ i time, requestPhase (requests i) (net.sessions i) = .timed time → time ≤ net.world.store.now
  secured : ∀ i, requestPhase (requests i) (net.sessions i) = .listed → Secured (createBlacklistTokenKey jti) exp net.world.store

theorem tame_start {key : Text} {α : Type} (start other : Presentation) (post : Presentation → α → Prop)
    (thrown : Presentation → Err → Prop) (prog : Async α) (p : Presentation)
    (tame : prog.TameOr (presentationsFrom start key exp) post thrown p) :
    prog.TameOr (presentationsFrom other key exp) post thrown p := by
  induction prog generalizing p with
  | done value => exact tame
  | throw error => exact tame
  | stmt s resume ih => exact ⟨tame.1, fun reply => ih reply _ (tame.2 reply)⟩
  | beginTx rest ih => exact ih _ tame
  | commitTx rest ih => exact ih _ tame
  | rollbackTx rest ih => exact ih _ tame

theorem request_tamed (request : TokenRequest jti exp) :
    request.program.TameOr (presentationsFrom request.start (createBlacklistTokenKey jti) exp)
      (fun p _ => request = .blacklist → p = .listed) (fun _ _ => True) request.start := by
  refine tame_start .unread request.start _ _ _ _ ?_
  cases request with
  | blacklist => exact tame_mono _ _ _ _ _ _ (blacklist_tame jti) (fun _ _ listed _ => listed) fun _ _ _ => trivial
  | other prog presents =>
      exact tame_mono _ _ _ _ _ _ presents (fun _ _ _ impossible => by cases impossible) fun _ _ _ => trivial

theorem launch_lasting (requests : Fin n → TokenRequest jti exp) (world : World) :
    Lasting requests (launch (E := engine hashtext) world fun i => (requests i).program) where
  tamed i := request_tamed (requests i)
  timely i time impossible := by
    change (requests i).start = .timed time at impossible
    cases request : requests i <;> rw [request] at impossible <;> cases impossible
  secured i impossible := by
    change (requests i).start = .listed at impossible
    cases request : requests i <;> rw [request] at impossible <;> cases impossible

theorem turn_lasting (requests : Fin n → TokenRequest jti exp) (net : Net (engine hashtext) Err Unit n)
    (i : Fin n) (left : World) (session : Session (engine hashtext) Err Unit) (lasting : Lasting requests net)
    (advanced : (net.sessions i).advance net.world (others net i) = some (left, session)) :
    Lasting requests ⟨left, Function.update net.sessions i session⟩ := by
  obtain ⟨now, keeps, timely, event, logged, phase, entered⟩ :=
    turn_effect_from (requests i).start _ _ net.world left (others net i) (net.sessions i) session (lasting.tamed i) (lasting.timely i)
      advanced
  have tamed := (tamed_advance net.world left (others net i) (net.sessions i) session (lasting.tamed i) advanced).1
  have mine : requestPhase (requests i) session = .listed → Secured (createBlacklistTokenKey jti) exp left.store := by
    intro listed
    have reached := listed
    simp only [requestPhase] at reached
    rw [phase] at reached
    rcases listed_after _ event reached with before | ⟨value, ex, reply, rfl⟩
    · exact keeps (lasting.secured i before)
    · exact (entered value ex reply rfl).2
  refine ⟨fun j => ?_, fun j => ?_, fun j => ?_⟩
  · by_cases same : j = i
    · subst same
      simpa using tamed
    · simpa [Function.update_of_ne same] using lasting.tamed j
  · by_cases same : j = i
    · subst same
      simpa using timely
    · simpa [Function.update_of_ne same, now] using lasting.timely j
  · by_cases same : j = i
    · subst same
      simpa using mine
    · intro listed
      simp only [Function.update_of_ne same] at listed
      exact keeps (lasting.secured j listed)

theorem fault_lasting (requests : Fin n → TokenRequest jti exp) (net : Net (engine hashtext) Err Unit n)
    (i : Fin n) (fault : Fault) (session : Session (engine hashtext) Err Unit) (lasting : Lasting requests net)
    (interrupted : (net.sessions i).interrupt fault = some session) :
    Lasting requests ⟨net.world, Function.update net.sessions i session⟩ := by
  have tamed := tamed_interrupt (net.sessions i) session fault (lasting.tamed i) interrupted
  obtain ⟨s, -, -, logged⟩ := interrupt_event (net.sessions i) session fault interrupted
  have phase : requestPhase (requests i) session =
      (requestPhase (requests i) (net.sessions i)).after (createBlacklistTokenKey jti) (.ran s (.error fault)) := by
    simp only [requestPhase, logged]
    rfl
  refine ⟨fun j => ?_, fun j time timed => ?_, fun j listed => ?_⟩
  · by_cases same : j = i
    · subst same
      simpa using tamed
    · simpa [Function.update_of_ne same] using lasting.tamed j
  · by_cases same : j = i
    · subst same
      simp only [Function.update_self] at timed
      rw [phase] at timed
      rcases timed_after _ _ _ timed with before | impossible
      · exact lasting.timely j time before
      · cases impossible
    · simp only [Function.update_of_ne same] at timed
      exact lasting.timely j time timed
  · by_cases same : j = i
    · subst same
      simp only [Function.update_self] at listed
      rw [phase] at listed
      rcases listed_after _ _ listed with before | ⟨value, ex, reply, impossible⟩
      · exact lasting.secured j before
      · cases impossible
    · simp only [Function.update_of_ne same] at listed
      exact lasting.secured j listed

theorem step_lasting (requests : Fin n → TokenRequest jti exp) (net next : Net (engine hashtext) Err Unit n)
    (move : Move (engine hashtext) n) (lasting : Lasting requests net) (stepped : step net move = some next) :
    Lasting requests next := by
  rcases step_cases net next move stepped with ⟨i, left, session, -, advanced, rfl⟩ |
    ⟨i, fault, session, -, interrupted, rfl⟩ | ⟨change, -, rfl⟩
  · exact turn_lasting requests net i left session lasting advanced
  · exact fault_lasting requests net i fault session lasting interrupted
  · obtain ⟨elapsed, same⟩ : ∃ elapsed : Nat, elapsed = change := ⟨change, rfl⟩
    subst same
    refine ⟨lasting.tamed, fun j time timed => ?_, fun j listed => later_secured net.world.store elapsed (lasting.secured j listed)⟩
    have early := lasting.timely j time timed
    show time ≤ net.world.store.now + (elapsed : Int)
    omega

theorem secured_refuses {Service : Type} (services : Service → TokensFeatureOptions) (store : Redis)
    (secured : Secured (createBlacklistTokenKey jti) exp store) (service : Service) (token : Token) (payload : JwtPayload)
    (named : payload.jti = some jti) (expires : payload.exp = some exp) :
    verifyNow hashtext services store service token ≠ .ok payload := by
  intro accepted
  obtain ⟨-, -, alive, -, -, unlisted⟩ := (verify_ok_iff store service token payload).mp accepted
  have early : store.now < exp * 1000 := by
    simp only [expires, Option.any_some, decide_eq_false_iff_not] at alive
    omega
  refine secured_live store secured early ?_
  rw [named] at unlisted
  exact unlisted

-- Once a call of blacklist has returned, its token is refused in every later
-- state of the run, whatever the readings of the clock were.
theorem blacklisted_token_stays_refused {Service : Type} (services : Service → TokensFeatureOptions)
    (requests : Fin n → TokenRequest jti exp) (world : World) (moves : List (Move (engine hashtext) n))
    (net : Net (engine hashtext) Err Unit n)
    (reached : run (launch world fun i => (requests i).program) moves = some net) (i : Fin n)
    (blacklists : requests i = .blacklist) (returned : (net.sessions i).outcome = some (.ok ())) (service : Service)
    (token : Token) (payload : JwtPayload) (named : payload.jti = some jti) (expires : payload.exp = some exp) :
    verifyNow hashtext services net.world.store service token ≠ .ok payload := by
  have lasting : Lasting requests net :=
    run_invariant (fun _ _ => True) (Lasting requests) (fun net move next kept _ stepped => step_lasting requests net next move kept stepped)
      _ net moves (launch_lasting requests world) (meets_trivial _ _) reached
  refine secured_refuses services net.world.store (lasting.secured i ?_) service token payload named expires
  have tamed := lasting.tamed i
  generalize net.sessions i = session at returned tamed ⊢
  obtain ⟨prog, tx, log⟩ := session
  cases prog with
  | done value => exact tamed blacklists
  | _ => cases returned

def tokenRequests : Fin 2 → TokenRequest "two".toList 3601
  | ⟨0, _⟩ => .blacklist
  | ⟨_ + 1, _⟩ => .other
      (ActionLink.deleteAccount.program annLinks .listed
        (.signed (ActionLink.deleteAccount.options annLinks).secret (signedPayload (pairOf true) annData "two".toList 1000)))
      (tame_mono _ _ _ _ _ _ (link_tame annLinks .deleteAccount .listed _ _ "two".toList rfl rfl) (fun _ _ _ => trivial)
        fun _ _ _ => trivial)

theorem blacklisted_token_stays_refused_ann :
    ∃ net, run (launch (E := engine fun _ => 0) (tokenWorld Redis.empty) fun i => (tokenRequests i).program)
        [.first, .drift (999 : Nat), .second, .first, .drift (3599000 : Nat)] = some net ∧
      verifyNow (fun _ => 0) pairOf net.world.store true
        (.signed "secret".toList (signedPayload (pairOf true) annData "two".toList 1000)) ≠
          .ok (signedPayload (pairOf true) annData "two".toList 1000) := by
  obtain ⟨net, reached, returned⟩ := run_exists (launch (E := engine fun _ => 0) (tokenWorld Redis.empty)
      fun i => (tokenRequests i).program) [.first, .drift (999 : Nat), .second, .first, .drift (3599000 : Nat)]
    (fun net => (net.sessions 0).outcome = some (.ok ())) (by decide)
  exact ⟨net, reached, blacklisted_token_stays_refused pairOf tokenRequests (tokenWorld Redis.empty) _ net reached 0 rfl returned
    true _ (signedPayload (pairOf true) annData "two".toList 1000) rfl rfl⟩

end Runs

end RateWise
