import RateWise.ActionLinks

set_option autoImplicit false

namespace RateWise

open Interleave
open ReadCommitted

structure LinkToken where
  service : ActionLink
  custom : CustomData
  jti : Text
  time : Int

namespace LinkToken

def key (token : LinkToken) : Text := createBlacklistTokenKey token.jti

def exp (config : LinkConfig) (token : LinkToken) : Int := token.time / 1000 + (token.service.options config).expiresIn

def payload (config : LinkConfig) (token : LinkToken) : JwtPayload :=
  signedPayload (token.service.options config) token.custom token.jti token.time

def signed (config : LinkConfig) (token : LinkToken) : Token :=
  .signed (token.service.options config).secret (token.payload config)

end LinkToken

inductive LinkRequest where
  | present (link : ActionLink) (order : Arrangement) (token : LinkToken)
  | suspendAccount (userId : Text)
  | reactivateAccount (userId : Text)

namespace LinkRequest

def program (config : LinkConfig) : LinkRequest → Async Unit
  | .present link order token => link.program config order (token.signed config)
  | .suspendAccount userId => ModerationService.suspendAccount userId
  | .reactivateAccount userId => ModerationService.reactivateAccount userId

def token : LinkRequest → Option LinkToken
  | .present _ _ token => some token
  | _ => none

end LinkRequest

def Redis.clocked (store : Redis) (time : Int) : Redis := { store with now := time }

-- A request from its first step to its last: its turns, the statements that
-- fail and the time that passes in between. A BEGIN or a COMMIT that fails is
-- the failure of the first or the last statement of its callback: TypeORM
-- rolls back and throws.
structure Attempt (hashtext : Text → Int32) where
  request : LinkRequest
  before : World
  moves : List (Move (engine hashtext) 1)
  left : Net (engine hashtext) Err Unit 1

namespace Attempt

variable {hashtext : Text → Int32}

def begun (config : LinkConfig) (attempt : Attempt hashtext) : Net (engine hashtext) Err Unit 1 :=
  launch attempt.before fun _ => attempt.request.program config

def Ran (config : LinkConfig) (attempt : Attempt hashtext) : Prop :=
  run (attempt.begun config) attempt.moves = some attempt.left ∧ (attempt.left.sessions 0).outcome.isSome = true

def Refused (attempt : Attempt hashtext) : Prop := ∃ error, (attempt.left.sessions 0).outcome = some (.error error)

def Unchanged (attempt : Attempt hashtext) : Prop :=
  attempt.left.world.db = attempt.before.db ∧
    attempt.left.world.store = attempt.before.store.clocked attempt.left.world.store.now

def Blacklisted (attempt : Attempt hashtext) (token : LinkToken) : Prop :=
  ∃ value ex reply, Event.ran (I := Api) (.cmd (.set token.key value ex)) (.ok reply) ∈ (attempt.left.sessions 0).log

def Activates (config : LinkConfig) (attempt : Attempt hashtext) (token : LinkToken) : Prop :=
  attempt.request.token = some token ∧
    (∃ user, attempt.before.db.answer (.findAccount (token.payload config).id) = some user ∧ user.status ≠ .active) ∧
    ∃ row, attempt.left.world.db.answer (.findAccount (token.payload config).id) = some row ∧ row.status = .active

end Attempt

-- The blacklist is read before the token expires.
def ReadsInTime {hashtext : Text → Int32} (key : Text) (exp : Int) (net : Net (engine hashtext) Err Unit 1) :
    Move (engine hashtext) 1 → Prop
  | .turn i => reads key (net.sessions i).prog.asked = true → net.world.store.now < exp * 1000
  | _ => True

instance {hashtext : Text → Int32} (key : Text) (exp : Int) (net : Net (engine hashtext) Err Unit 1) :
    ∀ move, Decidable (ReadsInTime key exp net move)
  | .turn i => inferInstanceAs (Decidable (reads key (net.sessions i).prog.asked = true → net.world.store.now < exp * 1000))
  | .fault _ _ => .isTrue trivial
  | .drift _ => .isTrue trivial

inductive Sequential {hashtext : Text → Int32} (config : LinkConfig) (start : World) :
    List (Attempt hashtext) → World → Prop where
  | start : Sequential config start [] start
  | next (earlier : List (Attempt hashtext)) (attempt : Attempt hashtext)
      (before : Sequential config start earlier attempt.before) (ran : attempt.Ran config) :
      Sequential config start (attempt :: earlier) attempt.left.world

section Handling

variable {hashtext : Text → Int32} {link : ActionLink} {key : Text} {exp : Int}

theorem accepted_stays (p : Presentation) (event : Event Api) (accepted : p.accepted = true) :
    (p.after key event).accepted = true := by
  unfold Presentation.after
  split
  · cases accepted
  · rfl
  · rfl
  · split <;> rfl
  · split <;> rfl
  · exact accepted

theorem listed_stays (event : Event Api) : Presentation.listed.after key event = .listed := by
  unfold Presentation.after
  split <;> first | rfl | contradiction

theorem armed_stays (p : Presentation) (event : Event Api) (armed : link.armed p = true) :
    link.armed (p.after key event) = true := by
  cases link with
  | verifyAccount => exact accepted_stays p event armed
  | deleteAccount =>
      obtain rfl : p = .listed := of_decide_eq_true armed
      rw [listed_stays]
      rfl
  | signOutAllPublic =>
      obtain rfl : p = .listed := of_decide_eq_true armed
      rw [listed_stays]
      rfl

theorem unarmed_before (p : Presentation) (event : Event Api) (unarmed : link.armed (p.after key event) = false) :
    link.armed p = false := by
  by_contra armed
  rw [armed_stays p event (by simpa using armed)] at unarmed
  cases unarmed

structure Handled (link : ActionLink) (key : Text) (exp : Int) (before : World) (net : Net (engine hashtext) Err Unit 1) :
    Prop where
  tamed : Tamed (handling link key exp) (fun p _ => p.spent = true ∧ (link = .verifyAccount ∨ p = .listed)) (net.sessions 0)
  idle : link.armed (presentation key (net.sessions 0)) = false →
    pending (net.sessions 0).tx = [] ∧ net.world.db = before.db ∧
      net.world.store = before.store.clocked net.world.store.now

theorem unarmed_entry (p : Presentation) (value : Text) (ex : Option Int) (reply : Unit)
    (allowed : p.allows key exp (.cmd (.set key value ex))) (unarmed : link.armed p = false)
    (still : link.armed (p.after key (.ran (.cmd (.set key value ex)) (.ok reply))) = false) : False := by
  cases p with
  | timed time =>
      have listed : (Presentation.timed time).after key (.ran (.cmd (.set key value ex)) (.ok reply)) = .listed := if_pos rfl
      rw [listed] at still
      cases link with
      | verifyAccount => cases unarmed
      | deleteAccount => cases still
      | signOutAllPublic => cases still
  | _ => exact allowed rfl

theorem handled_turn (before left : World) (net : Net (engine hashtext) Err Unit 1) (session : Session (engine hashtext) Err Unit)
    (handled : Handled link key exp before net)
    (advanced : (net.sessions 0).advance net.world (others net 0) = some (left, session))
    (unarmed : link.armed (presentation key session) = false) :
    pending session.tx = [] ∧ left.db = before.db ∧ left.store = before.store.clocked left.store.now := by
  obtain ⟨event, logged, effect⟩ := advance_store net.world left (others net 0) (net.sessions 0) session advanced
  obtain ⟨-, -, -, allows⟩ := tamed_advance net.world left (others net 0) (net.sessions 0) session handled.tamed advanced
  have phase : presentation key session = (presentation key (net.sessions 0)).after key event := by
    unfold presentation
    rw [logged]
    rfl
  rw [phase] at unarmed
  have idle := unarmed_before _ _ unarmed
  obtain ⟨clean, rows, store⟩ := handled.idle idle
  have careful : ∀ s, (net.sessions 0).prog.asked = some s → Careful key s := fun s asks => (allows s asks).2 idle
  obtain ⟨kept, written⟩ := advance_writes (fun _ => False) net.world left (others net 0) (net.sessions 0) session
    (by rw [clean]; simp) (fun s asks rows w member => by
      have reading := careful _ asks
      cases s with
      | findAccount id => cases member
      | _ => cases reading) advanced
  obtain ⟨ws, none, same⟩ := written
  have nothing : ws = [] := List.eq_nil_iff_forall_not_mem.mpr fun w member => none w member
  subst nothing
  refine ⟨List.eq_nil_iff_forall_not_mem.mpr fun w member => kept w member, same.trans rows, ?_⟩
  rcases effect with ⟨unmoved, -⟩ | ⟨c, reply, asks, rfl, ran⟩
  · rw [unmoved]
    exact store
  · have reading := careful _ asks
    cases c with
    | now =>
        have pair := Except.ok.inj (show (Except.ok (net.world.store.now, net.world.store) : Except Fault (Int × Redis)) =
          .ok (reply, left.store) from ran)
        have unmoved : net.world.store = left.store := congrArg Prod.snd pair
        rw [← unmoved]
        exact store
    | get asked =>
        have pair := Except.ok.inj (show (Except.ok ((net.world.store.live asked).map RedisEntry.value, net.world.store) :
          Except Fault (Option Text × Redis)) = .ok (reply, left.store) from ran)
        have unmoved : net.world.store = left.store := congrArg Prod.snd pair
        rw [← unmoved]
        exact store
    | set stored value ex =>
        have own : stored = key := reading
        subst own
        exact absurd (unarmed_entry _ value ex reply (allows _ asks).1 idle unarmed) id
    | _ => cases reading

theorem handled_step (before : World) (net : Net (engine hashtext) Err Unit 1) (move : Move (engine hashtext) 1)
    (next : Net (engine hashtext) Err Unit 1) (handled : Handled link key exp before net) (stepped : step net move = some next) :
    Handled link key exp before next := by
  rcases alone_cases net next move stepped with ⟨-, advanced⟩ | ⟨fault, -, interrupted, world⟩ | ⟨change, -, world, session⟩
  · exact ⟨(tamed_advance _ _ _ _ _ handled.tamed advanced).1, handled_turn before next.world net _ handled advanced⟩
  · obtain ⟨s, -, -, logged⟩ := interrupt_event (net.sessions 0) (next.sessions 0) fault interrupted
    refine ⟨tamed_interrupt _ _ _ handled.tamed interrupted, fun unarmed => ?_⟩
    have phase : presentation key (next.sessions 0) = (presentation key (net.sessions 0)).after key (.ran s (.error fault)) := by
      unfold presentation
      rw [logged]
      rfl
    rw [phase] at unarmed
    rw [interrupt_tx _ _ fault interrupted, world]
    exact handled.idle (unarmed_before _ _ unarmed)
  · refine ⟨by rw [session]; exact handled.tamed, fun unarmed => ?_⟩
    rw [session] at unarmed ⊢
    rw [world]
    obtain ⟨clean, rows, store⟩ := handled.idle unarmed
    refine ⟨clean, rows, ?_⟩
    show net.world.store.clocked _ = before.store.clocked _
    rw [store]
    rfl

end Handling

def Distant (key : Text) (s : Api.Stmt) : Prop := s = .cmd .now ∨ Elsewhere key s

section Others

variable {key : Text} {exp : Int}

theorem distant_rests (s : Api.Stmt) (distant : Distant key s) : (presentations key exp).Rests .unread s := by
  rcases distant with rfl | elsewhere
  · exact ⟨trivial, fun reply => by cases reply <;> rfl⟩
  · exact elsewhere_idle s elsewhere .unread

theorem distant_tame {α : Type} (prog : Async α) (sends : prog.Sends (Distant key)) :
    prog.TameOr (presentations key exp) (fun p _ => p = .unread) (fun p _ => p = .unread) .unread :=
  tame_rests (T := presentations key exp) .unread (@presentations_steady key exp .unread) prog
    (sends_mono _ _ prog sends distant_rests)

theorem elsewhere_unread {α : Type} (prog : Async α) (sends : prog.Sends (Elsewhere key)) :
    prog.TameOr (presentations key exp) (fun p _ => p = .unread) (fun p _ => p = .unread) .unread :=
  distant_tame prog (sends_mono _ _ prog sends fun _ elsewhere => .inr elsewhere)

theorem verify_asks (opts : TokensFeatureOptions) (secret : Text) (payload : JwtPayload) :
    (AuthService.verifyTokenOrThrow opts (.signed secret payload)).Quiet
      (fun s : Api.Stmt => s = .cmd .now ∨ s = .cmd (.get (createBlacklistTokenKey (orUndefined payload.jti)))) fun value =>
        value = payload := by
  refine Prog.quiet_catching _ _ _ _ ?_ fun error => by cases error <;> trivial
  refine Prog.quiet_bind _ (fun value => value = payload) _ _ _ ?_ ?_
  · refine Prog.quiet_bind _ _ _ _ _ (reject_if_reading _ _ _) fun _ _ => ?_
    refine Prog.quiet_bind _ (fun _ => True) _ _ _ ⟨.inl rfl, fun reply => by cases reply <;> trivial⟩ fun now _ => ?_
    refine Prog.quiet_bind _ _ _ _ _ (reject_if_reading _ _ _) fun _ _ => ?_
    exact Prog.quiet_bind _ _ _ _ _ (reject_if_reading _ _ _) fun _ _ => rfl
  · rintro value rfl
    refine Prog.quiet_bind _ _ _ _ _ (reject_if_reading _ _ _) fun _ _ => ?_
    refine Prog.quiet_bind _ _ _ _ _ (reject_if_reading _ _ _) fun _ _ => ?_
    refine Prog.quiet_bind _ (fun _ => True) _ _ _ ⟨.inr rfl, fun reply => by cases reply <;> trivial⟩ fun found _ => ?_
    exact Prog.quiet_bind _ _ _ _ _ (reject_if_reading _ _ _) fun _ _ => rfl

theorem distant_blacklist (jti : Text) (expires : Option Int) (different : createBlacklistTokenKey jti ≠ key) :
    (TokensService.blacklist jti expires).Sends (Distant key) :=
  sends_bind _ _ _ ⟨.inl rfl, fun reply => by cases reply <;> trivial⟩ fun _ =>
    ⟨.inr different, fun reply => by cases reply <;> trivial⟩

theorem link_distant (config : LinkConfig) (link : ActionLink) (order : Arrangement) (secret : Text) (payload : JwtPayload)
    (jti : Text) (different : createBlacklistTokenKey (orUndefined payload.jti) ≠ createBlacklistTokenKey jti) :
    (link.program config order (.signed secret payload)).TameOr (presentations (createBlacklistTokenKey jti) exp)
      (fun p _ => p = .unread) (fun p _ => p = .unread) .unread := by
  have verified : ∀ opts : TokensFeatureOptions, (AuthService.verifyTokenOrThrow opts (.signed secret payload)).TameOr
      (presentations (createBlacklistTokenKey jti) exp) (fun p value => p = .unread ∧ value = payload) (fun p _ => p = .unread)
      .unread := by
    refine fun opts => tame_quiet_rests (T := presentations (createBlacklistTokenKey jti) exp) _ .unread _
      (Prog.quiet_wider _ _ _ _ (verify_asks opts secret payload) fun s asks => ?_)
    rcases asks with rfl | rfl
    · exact distant_rests _ (.inl rfl)
    · exact distant_rests _ (.inr different)
  have blacklisted := @distant_tame _ exp Unit _ (distant_blacklist (orUndefined payload.jti) payload.exp different)
  cases link with
  | verifyAccount =>
      refine tame_bind _ _ _ _ _ _ (verified _) ?_
      rintro p value ⟨rfl, rfl⟩
      refine tame_bind _ _ _ _ _ _ (elsewhere_unread _ (elsewhere_change jti value.id _ _)) ?_
      rintro p changed rfl
      refine tame_catching _ _ _ _ _ _ blacklisted ?_
      rintro p error rfl
      rfl
  | deleteAccount =>
      refine tame_bind _ _ _ _ _ _ (verified _) ?_
      rintro p value ⟨rfl, rfl⟩
      refine tame_bind _ _ _ _ _ _ blacklisted ?_
      rintro p stored rfl
      refine tame_bind _ _ _ _ _ _ (elsewhere_unread _ (elsewhere_delete_one jti value.id)) ?_
      rintro p deleted rfl
      exact elsewhere_unread _ (sends_catching _ _ _ (sends_bind _ _ _ (elsewhere_delete_all jti value.id) fun _ => trivial)
        fun _ => trivial)
  | signOutAllPublic =>
      refine tame_bind (fun (p : Presentation) _ => p = .unread) _ _ _ _ _ ?_ ?_
      · refine tame_bind _ _ _ _ _ _ (verified _) ?_
        rintro p value ⟨rfl, rfl⟩
        refine tame_bind _ _ _ _ _ _ (elsewhere_unread _ (elsewhere_exists value.id)) ?_
        rintro p found rfl
        refine tame_bind _ _ _ _ _ _ blacklisted ?_
        rintro p stored rfl
        exact elsewhere_unread _ (elsewhere_delete_all_in jti order value.id)
      · rintro p sessions rfl
        rfl

end Others

section Guarding

variable {hashtext : Text → Int32} {key : Text} {exp : Int}

theorem listed_after (p : Presentation) (event : Event Api) (listed : p.after key event = .listed) :
    p = .listed ∨ ∃ value ex reply, event = .ran (.cmd (.set key value ex)) (.ok reply) := by
  unfold Presentation.after at listed
  split at listed
  · simp only at listed
    split at listed
    · split at listed <;> cases listed
    · cases listed
  · cases listed
  · cases listed
  · rename_i time stored value ex reply
    split at listed
    · rename_i same
      subst same
      exact .inr ⟨value, ex, reply, rfl⟩
    · cases listed
  · split at listed <;> cases listed
  · exact .inl listed

theorem listed_entry (log : List (Event Api)) (listed : log.foldr (fun event p => Presentation.after key p event) .unread = .listed) :
    ∃ value ex reply, Event.ran (I := Api) (.cmd (.set key value ex)) (.ok reply) ∈ log := by
  induction log with
  | nil => cases listed
  | cons event rest ih =>
      rcases listed_after _ event listed with before | ⟨value, ex, reply, rfl⟩
      · obtain ⟨value, ex, reply, member⟩ := ih before
        exact ⟨value, ex, reply, List.mem_cons_of_mem _ member⟩
      · exact ⟨value, ex, reply, List.mem_cons_self⟩

-- The entry of a token while a request runs: an earlier one stays, and so does
-- the one that the request writes.
structure Guarded (key : Text) (exp : Int) (earlier : Prop) (net : Net (engine hashtext) Err Unit 1) : Prop where
  tamed : Tamed (presentations key exp) (fun _ _ => True) (net.sessions 0)
  timely : ∀ time, presentation key (net.sessions 0) = .timed time → time ≤ net.world.store.now
  entered : (∃ value ex reply, Event.ran (I := Api) (.cmd (.set key value ex)) (.ok reply) ∈ (net.sessions 0).log) →
    presentation key (net.sessions 0) = .listed
  secured : earlier ∨ presentation key (net.sessions 0) = .listed → Secured key exp net.world.store

theorem later_secured (store : Redis) (elapsed : Nat) (secured : Secured key exp store) :
    Secured key exp { store with now := store.now + elapsed } := by
  rcases secured with expired | entry
  · refine .inl ?_
    show exp * 1000 ≤ store.now + (elapsed : Int)
    omega
  · exact .inr entry

theorem guarded_step (earlier : Prop) (net : Net (engine hashtext) Err Unit 1) (move : Move (engine hashtext) 1)
    (next : Net (engine hashtext) Err Unit 1) (guarded : Guarded key exp earlier net) (stepped : step net move = some next) :
    Guarded key exp earlier next := by
  rcases alone_cases net next move stepped with ⟨-, advanced⟩ | ⟨fault, -, interrupted, world⟩ | ⟨change, -, world, session⟩
  · obtain ⟨now, keeps, timely, event, logged, phase, written⟩ :=
      turn_effect _ net.world next.world (others net 0) (net.sessions 0) (next.sessions 0) guarded.tamed guarded.timely advanced
    refine ⟨(tamed_advance _ _ _ _ _ guarded.tamed advanced).1, timely, ?_, ?_⟩
    · rintro ⟨value, ex, reply, member⟩
      rw [logged, List.mem_cons] at member
      rw [phase]
      rcases member with rfl | before
      · obtain ⟨⟨time, timed⟩, -⟩ := written value ex reply rfl
        rw [timed]
        exact if_pos rfl
      · rw [guarded.entered ⟨value, ex, reply, before⟩]
        exact listed_stays event
    · rintro (before | listed)
      · exact keeps (guarded.secured (.inl before))
      · rw [phase] at listed
        rcases listed_after _ event listed with before | ⟨value, ex, reply, rfl⟩
        · exact keeps (guarded.secured (.inr before))
        · exact (written value ex reply rfl).2
  · obtain ⟨s, -, -, logged⟩ := interrupt_event (net.sessions 0) (next.sessions 0) fault interrupted
    have phase : presentation key (next.sessions 0) = (presentation key (net.sessions 0)).after key (.ran s (.error fault)) := by
      unfold presentation
      rw [logged]
      rfl
    refine ⟨tamed_interrupt _ _ _ guarded.tamed interrupted, fun time timed => ?_, ?_, ?_⟩
    · rw [phase] at timed
      rw [world]
      rcases timed_after _ _ _ timed with before | impossible
      · exact guarded.timely time before
      · cases impossible
    · rintro ⟨value, ex, reply, member⟩
      rw [logged, List.mem_cons] at member
      rcases member with impossible | before
      · cases impossible
      · rw [phase, guarded.entered ⟨value, ex, reply, before⟩]
        exact listed_stays _
    · rw [world]
      rintro (before | listed)
      · exact guarded.secured (.inl before)
      · rw [phase] at listed
        rcases listed_after _ _ listed with before | ⟨value, ex, reply, impossible⟩
        · exact guarded.secured (.inr before)
        · cases impossible
  · obtain ⟨elapsed, same⟩ : ∃ elapsed : Nat, elapsed = change := ⟨change, rfl⟩
    subst same
    refine ⟨by rw [session]; exact guarded.tamed, fun time timed => ?_, by rw [session]; exact guarded.entered, fun before => ?_⟩
    · rw [session] at timed
      rw [world]
      have early := guarded.timely time timed
      show time ≤ net.world.store.now + (elapsed : Int)
      omega
    · rw [session] at before
      rw [world]
      exact later_secured net.world.store elapsed (guarded.secured before)

end Guarding

section Attempts

variable {hashtext : Text → Int32} {config : LinkConfig}

theorem present_handled (attempt : Attempt hashtext) (link : ActionLink) (order : Arrangement) (token : LinkToken)
    (asked : attempt.request = .present link order token) (ran : attempt.Ran config) :
    Handled link token.key (token.exp config) attempt.before attempt.left := by
  refine run_invariant (fun _ _ => True) (Handled link token.key (token.exp config) attempt.before)
    (fun net move next handled _ stepped => handled_step attempt.before net move next handled stepped)
    (attempt.begun config) attempt.left attempt.moves ⟨?_, fun _ => ⟨rfl, rfl, rfl⟩⟩ (meets_trivial _ _) ran.1
  show (attempt.request.program config).TameOr _ _ _ _
  rw [asked]
  exact link_handled config link order _ _ token.jti rfl rfl

theorem attempt_tame (attempt : Attempt hashtext) (token : LinkToken)
    (drawn : ∀ other, attempt.request.token = some other → other.jti = token.jti → other = token) :
    (attempt.request.program config).Tame (presentations token.key (token.exp config)) (fun _ _ => True) .unread := by
  cases asked : attempt.request with
  | present link order other =>
      by_cases same : other.jti = token.jti
      · obtain rfl := drawn other (by rw [asked]; rfl) same
        exact tame_mono _ _ _ _ _ _ (link_tame config link order _ _ other.jti rfl rfl) (fun _ _ _ => trivial) fun _ _ _ => trivial
      · have different : createBlacklistTokenKey (orUndefined (other.payload config).jti) ≠ createBlacklistTokenKey token.jti :=
          fun equal => same (List.append_cancel_left equal)
        exact tame_mono _ _ _ _ _ _ (link_distant config link order _ _ token.jti different) (fun _ _ _ => trivial)
          fun _ _ _ => trivial
  | suspendAccount userId =>
      exact tame_mono _ _ _ _ _ _ (elsewhere_unread _ (elsewhere_change token.jti userId _ _)) (fun _ _ _ => trivial)
        fun _ _ _ => trivial
  | reactivateAccount userId =>
      exact tame_mono _ _ _ _ _ _ (elsewhere_unread _ (elsewhere_change token.jti userId _ _)) (fun _ _ _ => trivial)
        fun _ _ _ => trivial

theorem begun_guarded (attempt : Attempt hashtext) (token : LinkToken) (earlier : Prop)
    (drawn : ∀ other, attempt.request.token = some other → other.jti = token.jti → other = token)
    (secured : earlier → Secured token.key (token.exp config) attempt.before.store) :
    Guarded token.key (token.exp config) earlier (attempt.begun config) := by
  refine ⟨attempt_tame attempt token drawn, fun time impossible => (by cases impossible), ?_, ?_⟩
  · rintro ⟨value, ex, reply, impossible⟩
    cases impossible
  · rintro (before | impossible)
    · exact secured before
    · cases impossible

theorem attempt_guarded (attempt : Attempt hashtext) (token : LinkToken) (earlier : Prop)
    (drawn : ∀ other, attempt.request.token = some other → other.jti = token.jti → other = token)
    (secured : earlier → Secured token.key (token.exp config) attempt.before.store) (ran : attempt.Ran config) :
    Guarded token.key (token.exp config) earlier attempt.left :=
  run_invariant (fun _ _ => True) (Guarded token.key (token.exp config) earlier)
    (fun net move next guarded _ stepped => guarded_step earlier net move next guarded stepped)
    (attempt.begun config) attempt.left attempt.moves (begun_guarded attempt token earlier drawn secured) (meets_trivial _ _) ran.1

theorem unspent_refused (attempt : Attempt hashtext) (link : ActionLink) (order : Arrangement) (token : LinkToken)
    (asked : attempt.request = .present link order token) (ran : attempt.Ran config)
    (unarmed : link.armed (presentation token.key (attempt.left.sessions 0)) = false)
    (unspent : (presentation token.key (attempt.left.sessions 0)).spent = true → link = .verifyAccount ∨
      presentation token.key (attempt.left.sessions 0) = .listed → False) : attempt.Refused ∧ attempt.Unchanged := by
  obtain ⟨tamed, idle⟩ := present_handled attempt link order token asked ran
  obtain ⟨-, rows, store⟩ := idle unarmed
  refine ⟨?_, rows, store⟩
  have finished := ran.2
  unfold Attempt.Refused
  generalize attempt.left.sessions 0 = session at tamed finished unspent
  obtain ⟨prog, tx, log⟩ := session
  cases prog with
  | done value => exact (unspent tamed.1 tamed.2).elim
  | throw error => exact ⟨error, rfl⟩
  | _ => cases finished

theorem unlisted_refused (attempt : Attempt hashtext) (link : ActionLink) (order : Arrangement) (token : LinkToken)
    (asked : attempt.request = .present link order token) (ran : attempt.Ran config) (cautious : link ≠ .verifyAccount)
    (failed : ¬ attempt.Blacklisted token) : attempt.Refused ∧ attempt.Unchanged := by
  have unlisted : presentation token.key (attempt.left.sessions 0) ≠ .listed := fun listed => failed (listed_entry _ listed)
  refine unspent_refused attempt link order token asked ran ?_ fun _ either => either.elim cautious unlisted
  cases link with
  | verifyAccount => exact absurd rfl cautious
  | deleteAccount => exact decide_eq_false unlisted
  | signOutAllPublic => exact decide_eq_false unlisted

theorem secured_step (token : LinkToken) (net : Net (engine hashtext) Err Unit 1) (move : Move (engine hashtext) 1)
    (next : Net (engine hashtext) Err Unit 1)
    (inv : Guarded token.key (token.exp config) True net ∧ (presentation token.key (net.sessions 0)).accepted = false)
    (prompt : ReadsInTime token.key (token.exp config) net move) (stepped : step net move = some next) :
    Guarded token.key (token.exp config) True next ∧ (presentation token.key (next.sessions 0)).accepted = false := by
  refine ⟨guarded_step True net move next inv.1 stepped, ?_⟩
  by_contra taken
  have accepted : (presentation token.key (next.sessions 0)).accepted = true := by simpa using taken
  have before : ∀ event, presentation token.key (next.sessions 0) = (presentation token.key (net.sessions 0)).after token.key event →
      event = .ran (.cmd (.get token.key)) (.ok (none : Option Text)) := by
    intro event phase
    rcases accepted_after _ _ (phase ▸ accepted) with old | ⟨-, read⟩
    · rw [inv.2] at old
      cases old
    · exact read
  rcases alone_cases net next move stepped with ⟨rfl, advanced⟩ | ⟨fault, -, interrupted, -⟩ | ⟨change, -, -, session⟩
  · obtain ⟨event, logged, effect⟩ := advance_store net.world next.world (others net 0) (net.sessions 0) (next.sessions 0) advanced
    obtain rfl := before event (by unfold presentation; rw [logged]; rfl)
    rcases effect with ⟨-, notCommand, -⟩ | ⟨c, reply, asks, same, ran⟩
    · exact notCommand _ _ rfl
    · cases same
      have pair := Except.ok.inj (show (Except.ok ((net.world.store.live token.key).map RedisEntry.value, net.world.store) :
        Except Fault (Option Text × Redis)) = .ok (none, next.world.store) from ran)
      have absent : net.world.store.live token.key = none := Option.map_eq_none_iff.mp (congrArg Prod.fst pair)
      have reading : reads token.key (net.sessions 0).prog.asked = true := by
        rw [asks]
        simp [reads]
      exact secured_live net.world.store (inv.1.secured (.inl trivial)) (prompt reading) absent
  · obtain ⟨s, -, -, logged⟩ := interrupt_event (net.sessions 0) (next.sessions 0) fault interrupted
    cases before (.ran s (.error fault)) (by unfold presentation; rw [logged]; rfl)
  · rw [session, inv.2] at accepted
    cases accepted

theorem secured_refused (attempt : Attempt hashtext) (token : LinkToken) (presented : attempt.request.token = some token)
    (ran : attempt.Ran config) (secured : Secured token.key (token.exp config) attempt.before.store)
    (prompt : Meets (ReadsInTime token.key (token.exp config)) (attempt.begun config) attempt.moves) :
    attempt.Refused ∧ attempt.Unchanged := by
  have drawn : ∀ other, attempt.request.token = some other → other.jti = token.jti → other = token := fun other same _ =>
    Option.some.inj (same.symm.trans presented)
  have refused := (run_invariant (ReadsInTime token.key (token.exp config))
    (fun net => Guarded token.key (token.exp config) True net ∧ (presentation token.key (net.sessions 0)).accepted = false)
    (secured_step token) (attempt.begun config) attempt.left attempt.moves
    ⟨begun_guarded attempt token True drawn fun _ => secured, rfl⟩ prompt ran.1).2
  cases asked : attempt.request with
  | present link order other =>
      obtain rfl : other = token := drawn other (by rw [asked]; rfl) (by rw [asked] at presented; cases presented; rfl)
      have unlisted : presentation other.key (attempt.left.sessions 0) ≠ .listed := fun listed => by rw [listed] at refused; cases refused
      refine unspent_refused attempt link order other asked ran ?_ fun spent _ => ?_
      · cases link with
        | verifyAccount => exact refused
        | deleteAccount => exact decide_eq_false unlisted
        | signOutAllPublic => exact decide_eq_false unlisted
      · cases stands : presentation other.key (attempt.left.sessions 0) with
        | unread => rw [stands] at spent; cases spent
        | refused => rw [stands] at spent; cases spent
        | _ => rw [stands] at refused; cases refused
  | suspendAccount userId => rw [asked] at presented; cases presented
  | reactivateAccount userId => rw [asked] at presented; cases presented

-- The jti of every generated token is new.
def Drawn (history : List (Attempt hashtext)) : Prop :=
  ∀ one ∈ history, ∀ two ∈ history, ∀ a b, one.request.token = some a → two.request.token = some b → a.jti = b.jti → a = b

theorem blacklisted_secured (start world : World) (history : List (Attempt hashtext)) (sequential : Sequential config start history world)
    (drawn : Drawn history) (attempt : Attempt hashtext) (member : attempt ∈ history) (token : LinkToken)
    (presented : attempt.request.token = some token) (blacklisted : attempt.Blacklisted token) :
    Secured token.key (token.exp config) world.store := by
  induction sequential with
  | start => cases member
  | next earlier last before ran ih =>
      have named : ∀ other, last.request.token = some other → other.jti = token.jti → other = token := fun other same =>
        drawn last List.mem_cons_self attempt member other token same presented
      rcases List.mem_cons.mp member with rfl | old
      · have guarded := attempt_guarded attempt token False named (fun impossible => impossible.elim) ran
        exact guarded.secured (.inr (guarded.entered blacklisted))
      · have secured := ih (fun one inOne two inTwo => drawn one (List.mem_cons_of_mem _ inOne) two (List.mem_cons_of_mem _ inTwo)) old
        exact (attempt_guarded last token True named (fun _ => secured) ran).secured (.inl trivial)

end Attempts

end RateWise
