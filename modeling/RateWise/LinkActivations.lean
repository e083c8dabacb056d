import RateWise.LinkReplays

set_option autoImplicit false

namespace RateWise

open Interleave
open ReadCommitted

-- Row changes after which no account waits for its verification that did not
-- wait before.
def Write.Settles : Write → Prop
  | .insertAccount row => row.status ≠ .pendingVerification
  | .updateAccount _ change => change.status ≠ some .pendingVerification
  | _ => True

def Write.SparesAccounts : Write → Prop
  | .insertAccount _ => False
  | .updateAccount _ _ => False
  | _ => True

def Settled (id : Text) (t : Tables) : Prop :=
  ∀ user, t.answer (.findAccount id) = some user → user.status ≠ .pendingVerification

section Rows

theorem answer_apply (t : Tables) (w : Write) (id : Text) :
    (t.apply w).answer (.findAccount id) = none ∨ (t.apply w).answer (.findAccount id) = t.answer (.findAccount id) ∨
      (∃ row, w = .insertAccount row ∧ (t.apply w).answer (.findAccount id) = some row) ∨
      ∃ u change user, w = .updateAccount u change ∧ t.answer (.findAccount id) = some user ∧
        (t.apply w).answer (.findAccount id) = some (change.apply user) := by
  have searched : ∀ rows : Tables, rows.answer (.findAccount id) = rows.accounts.find? fun row => some row.id = uuidIn id :=
    fun _ => rfl
  rw [searched, searched]
  cases w with
  | insertAccount row =>
      rw [show (t.apply (.insertAccount row)).accounts = t.accounts ++ [row] from rfl, List.find?_append]
      cases t.accounts.find? fun row => some row.id = uuidIn id with
      | some user => exact .inr (.inl rfl)
      | none =>
          by_cases named : some row.id = uuidIn id
          · exact .inr (.inr (.inl ⟨row, rfl, by simp [named]⟩))
          · exact .inl (by simp [named])
  | updateAccount u change =>
      have kept : (fun row : Account => decide (some row.id = uuidIn id)) ∘ (fun row => if row.id = u then change.apply row else row) =
          fun row => decide (some row.id = uuidIn id) := by
        funext row
        by_cases changed : row.id = u <;> simp [changed, AccountChange.apply]
      rw [show (t.apply (.updateAccount u change)).accounts =
        t.accounts.map fun row => if row.id = u then change.apply row else row from rfl, List.find?_map, kept]
      cases t.accounts.find? fun row => some row.id = uuidIn id with
      | none => exact .inl rfl
      | some user =>
          by_cases changed : user.id = u
          · exact .inr (.inr (.inr ⟨u, change, user, rfl, rfl, by simp [changed]⟩))
          · exact .inr (.inl (by simp [changed]))
  | deleteAccount row =>
      rw [show (t.apply (.deleteAccount row)).accounts = t.accounts.filter fun other => other.id ≠ row.id from rfl, List.find?_filter]
      by_cases named : some row.id = uuidIn id
      · refine .inl (List.find?_eq_none.mpr fun other _ => ?_)
        rw [← named]
        simp
      · refine .inr (.inl (congrArg (fun p => List.find? p t.accounts) (funext fun other => ?_)))
        by_cases same : other.id = row.id
        · simp [same, named]
        · simp [same]
  | _ => exact .inr (.inl rfl)

theorem settled_apply (t : Tables) (w : Write) (id : Text) (settles : w.Settles) (settled : Settled id t) :
    Settled id (t.apply w) := by
  intro user found
  rcases answer_apply t w id with none | same | ⟨row, rfl, inserted⟩ | ⟨u, change, old, rfl, before, updated⟩
  · rw [none] at found
    cases found
  · rw [same] at found
    exact settled user found
  · rw [inserted] at found
    cases found
    exact settles
  · rw [updated] at found
    cases found
    have kept := settled old before
    show change.status.getD old.status ≠ _
    cases stated : change.status with
    | none => exact kept
    | some status => exact fun same => settles (by rw [stated]; exact congrArg some same)

theorem settled_view (t : Tables) (ws : List Write) (id : Text) (settles : ∀ w ∈ ws, w.Settles) (settled : Settled id t) :
    Settled id (view schema t ws) := by
  induction ws generalizing t with
  | nil => exact settled
  | cons w rest ih =>
      exact ih (t.apply w) (fun x inRest => settles x (List.mem_cons_of_mem _ inRest))
        (settled_apply t w id (settles w List.mem_cons_self) settled)

theorem spared_view (t : Tables) (ws : List Write) (id : Text) (spares : ∀ w ∈ ws, w.SparesAccounts) :
    (view schema t ws).answer (.findAccount id) = none ∨
      (view schema t ws).answer (.findAccount id) = t.answer (.findAccount id) := by
  induction ws generalizing t with
  | nil => exact .inr rfl
  | cons w rest ih =>
      have later := ih (t.apply w) fun x inRest => spares x (List.mem_cons_of_mem _ inRest)
      rcases answer_apply t w id with none | same | ⟨row, rfl, -⟩ | ⟨u, change, old, rfl, -, -⟩
      · rw [none] at later
        exact .inl (later.elim (fun gone => gone) fun gone => gone)
      · rw [same] at later
        exact later
      · exact (spares _ List.mem_cons_self).elim
      · exact (spares _ List.mem_cons_self).elim

end Rows

def Api.Writes (P : Write → Prop) (s : Api.Stmt) : Prop := ∀ q, s = .sql q → ∀ t : Tables, ∀ w ∈ t.attempts q, P w

section Statements

variable {P : Write → Prop}

theorem redis_writes (s : Api.Stmt) (command : RedisOnly s) : Api.Writes P s := by
  rintro q rfl
  cases command

theorem removing_spares (s : Api.Stmt) (removing : Removing s) : Api.Writes Write.SparesAccounts s := by
  rintro q rfl t w member
  have source := attempts_accounts t q w member
  cases w with
  | insertAccount row => exact removing.1 row source
  | updateAccount u change =>
      obtain ⟨id, same⟩ := source
      exact removing.2 id change same
  | _ => trivial

theorem find_writes (id : Text) : Api.Writes P (.sql (.findAccount id)) := by
  intro q same t w member
  cases same
  cases member

theorem sends_redis {α : Type} (post : α → Prop) (prog : Async α) (quiet : prog.Quiet RedisOnly post) : prog.Sends (Api.Writes P) :=
  sends_quiet _ _ _ prog quiet redis_writes

theorem spares_settles (s : Api.Stmt) (spares : Api.Writes Write.SparesAccounts s) : Api.Writes Write.Settles s := by
  intro q same t w member
  have kept := spares q same t w member
  cases w with
  | insertAccount row => cases kept
  | updateAccount u change => cases kept
  | _ => trivial

theorem exists_writes (userId : Text) : (UsersService.existsOrThrow userId).Sends (Api.Writes P) := by
  rw [exists_or_throw_eq]
  refine sends_bind _ _ _ (sends_bind _ _ _ ?_ fun _ => ⟨find_writes userId, fun reply => by cases reply <;> trivial⟩)
    fun found => ?_
  · unfold UsersService.validUuidOrThrow
    split <;> trivial
  · cases found <;> trivial

theorem delete_all_in_redis (order : Arrangement) (userId : Text) :
    (SessionsService.deleteAllIn order userId).Quiet RedisOnly fun _ => True := by
  refine Prog.quiet_bind _ (fun _ => True) _ _ _ (quiet_redis (.sMembers _)) fun sessIDs _ => ?_
  refine Prog.quiet_bind _ (fun _ => True) _ _ _ (quiet_settled _ fun promise member => ?_) fun _ _ => trivial
  rw [(order.perm _).mem_iff, deletions_eq] at member
  obtain ⟨removal, -, rfl⟩ := List.mem_map.mp member
  cases removal with
  | member owner sid => exact quiet_redis (.setRem _ _)
  | _ => exact quiet_delete _

theorem cautious_spares (config : LinkConfig) (link : ActionLink) (order : Arrangement) (token : Token)
    (cautious : link ≠ .verifyAccount) : (link.program config order token).Sends (Api.Writes Write.SparesAccounts) := by
  cases link with
  | verifyAccount => exact absurd rfl cautious
  | deleteAccount =>
      refine sends_bind _ _ _ (sends_redis _ _ (quiet_carries _ token)) fun payload => ?_
      refine sends_bind _ _ _ (sends_redis _ _ (quiet_blacklist _ _)) fun _ => ?_
      refine sends_bind _ _ _ (sends_bind _ _ _ (sends_transaction _ _ (sends_quiet _ _ _ _ (deletion_quiet payload.id)
        removing_spares)) fun _ => ?_) fun _ => ?_
      · exact sends_redis _ _ (quiet_delete (createUserCacheKey payload.id))
      · exact sends_catching _ _ _ (sends_bind _ _ _ (sends_redis _ _ (quiet_delete_all payload.id)) fun _ => trivial) fun _ => trivial
  | signOutAllPublic =>
      refine sends_bind _ _ _ (sends_bind _ _ _ (sends_redis _ _ (quiet_carries _ token)) fun payload => ?_) fun _ => trivial
      refine sends_bind _ _ _ (exists_writes payload.id) fun _ => ?_
      exact sends_bind _ _ _ (sends_redis _ _ (quiet_blacklist _ _)) fun _ => sends_redis _ _ (delete_all_in_redis order payload.id)

theorem changed_settles (user row : Account) (settled : user.status ≠ .pendingVerification) :
    (UsersService.changedColumns user row).status ≠ some .pendingVerification := by
  unfold UsersService.changedColumns
  by_cases same : user.status = row.status
  · simp [same]
  · simpa [same] using settled

theorem save_settles (user : Account) (settled : user.status ≠ .pendingVerification) :
    (UsersService.saveOne user).Sends (Api.Writes Write.Settles) := by
  refine sends_catching _ _ _ (sends_bind _ _ _ ?_ fun _ => sends_redis _ _ (quiet_delete (createUserCacheKey user.id.text)))
    fun _ => trivial
  refine sends_bind _ _ _ ⟨find_writes _, fun reply => by cases reply <;> trivial⟩ fun found => ?_
  cases found with
  | none =>
      refine sends_transaction _ _ ⟨fun q same t w member => ?_, fun reply => by cases reply <;> trivial⟩
      cases same
      rw [show w = .insertAccount user from List.mem_singleton.mp member]
      exact settled
  | some row =>
      show (if UsersService.changedColumns user row = .unchanged then pure ()
        else transaction (sql (.updateAccount user.id (UsersService.changedColumns user row))) : Async Unit).Sends _
      split
      · trivial
      · refine sends_transaction _ _ ⟨fun q same t w member => ?_, fun reply => by cases reply <;> trivial⟩
        cases same
        obtain ⟨stored, -, rfl⟩ := List.mem_map.mp member
        exact changed_settles user row settled

theorem change_settles (refusal : Account → Option Err) (status : AccountStatus) (userId : Text)
    (settled : status ≠ .pendingVerification) : (changeStatus refusal status userId).Sends (Api.Writes Write.Settles) := by
  refine sends_bind _ _ _ (sends_bind _ _ _ (sends_bind _ _ _ ?_ fun _ => ?_) fun found => ?_) fun user => ?_
  · unfold UsersService.validUuidOrThrow
    split <;> trivial
  · exact ⟨find_writes userId, fun reply => by cases reply <;> trivial⟩
  · cases found <;> trivial
  · unfold setStatusUnless
    split
    · trivial
    · exact save_settles _ settled

theorem request_settles (config : LinkConfig) (request : LinkRequest) : (request.program config).Sends (Api.Writes Write.Settles) := by
  cases request with
  | present link order token =>
      by_cases cautious : link = .verifyAccount
      · subst cautious
        refine sends_bind _ _ _ (sends_redis _ _ (quiet_carries _ _)) fun payload => ?_
        refine sends_bind _ _ _ (change_settles _ _ _ (by decide)) fun _ => ?_
        exact sends_catching _ _ _ (sends_redis _ _ (quiet_blacklist _ _)) fun _ => trivial
      · exact sends_mono _ _ _ (cautious_spares config link order _ cautious) spares_settles
  | suspendAccount userId => exact change_settles _ _ _ (by decide)
  | reactivateAccount userId => exact change_settles _ _ _ (by decide)

end Statements

@[reducible] def sending (allowed : Api.Stmt → Prop) : Typestate Api := ⟨Unit, (), fun _ _ => (), fun _ s => allowed s⟩

-- What verifyAccount knows of its account: nothing, or that it was found to
-- wait for its verification.
inductive Screening where
  | undecided
  | admitted
deriving DecidableEq

def Screening.after (id : Text) : Screening → Event Api → Screening
  | .undecided, .ran (.sql (.findAccount asked)) (.ok reply) =>
      let found : Option Account := reply
      if asked = id ∧ (found.any fun user => (AuthService.verificationRefusal user).isNone) = true then .admitted else .undecided
  | screening, _ => screening

@[reducible] def screenings (id : Text) : Typestate Api :=
  ⟨Screening, .undecided, Screening.after id, fun p s => p = .undecided → Api.Writes (fun _ => False) s⟩

section Screenings

variable {id : Text}

theorem admitted_stays (event : Event Api) : Screening.admitted.after id event = .admitted := by
  unfold Screening.after
  split <;> first | rfl | contradiction

theorem redis_rests (s : Api.Stmt) (command : RedisOnly s) : (screenings id).Rests .undecided s := by
  refine ⟨fun _ => redis_writes s command, fun reply => ?_⟩
  cases s with
  | cmd c => rfl
  | _ => cases command

theorem admitted_tame {α : Type} (prog : Async α) :
    prog.TameOr (screenings id) (fun p _ => p = .admitted) (fun p _ => p = .admitted) .admitted := by
  have stays : ∀ event, Screening.admitted.after id event = .admitted := admitted_stays
  refine tame_rests (T := screenings id) .admitted ⟨stays .opened, stays .committed, stays .rolledBack⟩ prog ?_
  induction prog with
  | done value => trivial
  | throw error => trivial
  | stmt s resume ih => exact ⟨⟨fun impossible => (by cases impossible), fun reply => stays (.ran s reply)⟩, ih⟩
  | beginTx rest ih => exact ih
  | commitTx rest ih => exact ih
  | rollbackTx rest ih => exact ih

theorem verify_screened (config : AuthConfig) (secret : Text) (payload : JwtPayload) :
    (AuthService.verifyAccount config (.signed secret payload)).Tame (screenings payload.id) (fun _ _ => True) .undecided := by
  refine tame_bind _ _ _ _ _ _ (tame_mono _ _ _ _ _ _ (tame_quiet_rests (T := screenings payload.id) _ .undecided _
    (Prog.quiet_wider _ _ _ _ (quiet_carries config.accountVerificationToken (.signed secret payload)) redis_rests))
    (fun _ _ both => both) fun _ _ _ => trivial) ?_
  rintro p value ⟨rfl, carries⟩
  obtain ⟨other, same⟩ := carries
  cases same
  refine tame_bind (fun _ _ => True) _ _ _ _ _ (tame_bind (fun (p : Screening) user =>
    AuthService.verificationRefusal user = none → p = .admitted) _ _ _ _ _ ?_ ?_) ?_
  · refine tame_bind (fun (p : Screening) (found : Option Account) => ∀ user, found = some user →
      AuthService.verificationRefusal user = none → p = .admitted) _ _ _ _ _ (tame_bind (fun (p : Screening) _ => p = .undecided)
      _ _ _ _ _ ?_ ?_) ?_
    · unfold UsersService.validUuidOrThrow
      split
      · trivial
      · rfl
    · rintro p valid rfl
      refine ⟨fun _ => find_writes _, fun reply => ?_⟩
      cases reply with
      | error fault => trivial
      | ok found =>
          rintro user rfl passed
          exact if_pos ⟨rfl, by simp [passed]⟩
    · intro p found known
      cases found with
      | none => trivial
      | some user => exact known user rfl
  · intro p user known
    cases verdict : AuthService.verificationRefusal user with
    | some error =>
        simp only [setStatusUnless, verdict]
        trivial
    | none =>
        obtain rfl := known verdict
        simp only [setStatusUnless, verdict]
        exact tame_mono _ _ _ _ _ _ (admitted_tame _) (fun _ _ _ => trivial) fun _ _ _ => trivial
  · intro p done _
    cases p with
    | admitted => exact tame_mono _ _ _ _ _ _ (admitted_tame _) (fun _ _ _ => trivial) fun _ _ _ => trivial
    | undecided =>
        refine tame_mono _ _ _ _ _ _ (tame_quiet_rests (T := screenings payload.id) (fun _ => True) .undecided _ ?_)
          (fun _ _ _ => trivial) fun _ _ _ => trivial
        exact Prog.quiet_wider _ _ _ _ (Prog.quiet_catching _ _ _ _ (quiet_blacklist _ _) fun _ => trivial) redis_rests

end Screenings

section Attempts

variable {hashtext : Text → Int32} {config : LinkConfig}

theorem attempt_writes (P : Write → Prop) (attempt : Attempt hashtext) (sends : (attempt.request.program config).Sends (Api.Writes P))
    (ran : attempt.Ran config) : ∃ ws, (∀ w ∈ ws, P w) ∧ attempt.left.world.db = view schema attempt.before.db ws := by
  have whole := run_invariant (fun _ _ => True) (fun net : Net (engine hashtext) Err Unit 1 =>
    Tamed (sending (Api.Writes P)) (fun _ _ => True) (net.sessions 0) ∧ (∀ w ∈ pending (net.sessions 0).tx, P w) ∧
      ∃ ws, (∀ w ∈ ws, P w) ∧ net.world.db = view schema attempt.before.db ws) ?_
    (attempt.begun config) attempt.left attempt.moves ⟨?_, fun w member => (by cases member), [], fun w member => (by cases member), rfl⟩
    (meets_trivial _ _) ran.1
  · exact whole.2.2
  · rintro net move next ⟨tamed, kept, ws, written, rows⟩ - stepped
    rcases alone_cases net next move stepped with ⟨-, advanced⟩ | ⟨fault, -, interrupted, world⟩ | ⟨change, -, world, session⟩
    · obtain ⟨onward, -, -, allows⟩ := tamed_advance _ _ _ _ _ tamed advanced
      obtain ⟨after, more, all, left⟩ := advance_writes P net.world next.world (others net 0) (net.sessions 0) (next.sessions 0)
        kept (fun s asks => allows _ asks s rfl) advanced
      refine ⟨onward, after, ws ++ more, fun w member => ?_, by rw [left, rows, view_append]⟩
      rcases List.mem_append.mp member with old | new
      · exact written w old
      · exact all w new
    · refine ⟨tamed_interrupt _ _ _ tamed interrupted, interrupt_pending P (net.sessions 0) (next.sessions 0) fault kept interrupted, ws, written, ?_⟩
      rw [world]
      exact rows
    · rw [session, world]
      exact ⟨tamed, kept, ws, written, rows⟩
  · exact tame_mono _ _ _ _ _ _ (tame_rests (T := sending (Api.Writes P)) () ⟨rfl, rfl, rfl⟩ _
      (sends_mono _ _ _ sends fun s allowed => ⟨allowed, fun _ => rfl⟩)) (fun _ _ _ => trivial) fun _ _ _ => trivial

theorem attempt_settled (attempt : Attempt hashtext) (ran : attempt.Ran config) (id : Text) (settled : Settled id attempt.before.db) :
    Settled id attempt.left.world.db := by
  obtain ⟨ws, settles, rows⟩ := attempt_writes Write.Settles attempt (request_settles config attempt.request) ran
  rw [rows]
  exact settled_view _ ws id settles settled

-- As long as verifyAccount is undecided it has changed no row, and it is
-- admitted by a row that was there.
structure Screened (id : Text) (before : World) (net : Net (engine hashtext) Err Unit 1) : Prop where
  tamed : Tamed (screenings id) (fun _ _ => True) (net.sessions 0)
  idle : (screenings id).phase (net.sessions 0).log = .undecided → pending (net.sessions 0).tx = [] ∧ net.world.db = before.db
  admitted : (screenings id).phase (net.sessions 0).log = .admitted →
    ∃ user, before.db.answer (.findAccount id) = some user ∧ AuthService.verificationRefusal user = none

theorem admitted_after (id : Text) (p : Screening) (event : Event Api) (admitted : p.after id event = .admitted) :
    p = .admitted ∨ (p = .undecided ∧ ∃ user, AuthService.verificationRefusal user = none ∧
      event = .ran (.sql (.findAccount id)) (.ok (some user : Option Account))) := by
  unfold Screening.after at admitted
  split at admitted
  · rename_i asked reply
    obtain ⟨found, same⟩ : ∃ found : Option Account, found = reply := ⟨reply, rfl⟩
    subst same
    simp only at admitted
    split at admitted
    · rename_i both
      obtain ⟨rfl, passed⟩ := both
      cases found with
      | none => cases passed
      | some user => exact .inr ⟨rfl, user, Option.isNone_iff_eq_none.mp passed, rfl⟩
    · cases admitted
  · exact .inl admitted

theorem screened_step (id : Text) (before : World) (net : Net (engine hashtext) Err Unit 1) (move : Move (engine hashtext) 1)
    (next : Net (engine hashtext) Err Unit 1) (screened : Screened id before net) (stepped : step net move = some next) :
    Screened id before next := by
  have phase : ∀ event, (next.sessions 0).log = event :: (net.sessions 0).log → (screenings id).phase (next.sessions 0).log =
      Screening.after id ((screenings id).phase (net.sessions 0).log) event := fun event logged => by rw [logged]; rfl
  have earlier : ∀ event, (next.sessions 0).log = event :: (net.sessions 0).log →
      (screenings id).phase (next.sessions 0).log = .undecided → (screenings id).phase (net.sessions 0).log = .undecided := by
    intro event logged undecided
    cases stands : (screenings id).phase (net.sessions 0).log with
    | undecided => rfl
    | admitted =>
        rw [phase event logged, stands, admitted_stays event] at undecided
        cases undecided
  rcases alone_cases net next move stepped with ⟨-, advanced⟩ | ⟨fault, -, interrupted, world⟩ | ⟨change, -, world, session⟩
  · obtain ⟨tamed, event, logged, allows⟩ := tamed_advance _ _ _ _ _ screened.tamed advanced
    refine ⟨tamed, fun undecided => ?_, fun admitted => ?_⟩
    · have idle := earlier event logged undecided
      obtain ⟨clean, rows⟩ := screened.idle idle
      obtain ⟨kept, ws, none, left⟩ := advance_writes (fun _ => False) net.world next.world (others net 0) (net.sessions 0)
        (next.sessions 0) (by rw [clean]; simp) (fun s asks => allows _ asks idle s rfl) advanced
      obtain rfl : ws = [] := List.eq_nil_iff_forall_not_mem.mpr fun w member => none w member
      exact ⟨List.eq_nil_iff_forall_not_mem.mpr fun w member => kept w member, left.trans rows⟩
    · rw [phase event logged] at admitted
      rcases admitted_after id _ event admitted with already | ⟨idle, user, passed, rfl⟩
      · exact screened.admitted already
      · obtain ⟨clean, rows⟩ := screened.idle idle
        obtain ⟨other, same, told⟩ := advance_answer net.world next.world (others net 0) (net.sessions 0) (next.sessions 0) clean advanced
        obtain rfl := (List.cons.inj (same.symm.trans logged)).1
        exact ⟨user, by rw [← rows]; exact (told _ _ rfl).symm, passed⟩
  · obtain ⟨s, -, -, logged⟩ := interrupt_event (net.sessions 0) (next.sessions 0) fault interrupted
    refine ⟨tamed_interrupt _ _ _ screened.tamed interrupted, fun undecided => ?_, fun admitted => ?_⟩
    · rw [interrupt_tx _ _ fault interrupted, world]
      exact screened.idle (earlier _ logged undecided)
    · rw [phase _ logged] at admitted
      rcases admitted_after id _ _ admitted with already | ⟨-, user, -, impossible⟩
      · exact screened.admitted already
      · cases impossible
  · refine ⟨?_, ?_, ?_⟩
    · rw [session]
      exact screened.tamed
    · rw [session, world]
      exact screened.idle
    · rw [session]
      exact screened.admitted

theorem refused_unchanged (attempt : Attempt hashtext) (order : Arrangement) (token : LinkToken)
    (asked : attempt.request = .present .verifyAccount order token) (ran : attempt.Ran config)
    (refused : ∀ user, attempt.before.db.answer (.findAccount (token.payload config).id) = some user →
      AuthService.verificationRefusal user ≠ none) : attempt.left.world.db = attempt.before.db := by
  have screened := run_invariant (fun _ _ => True) (Screened (token.payload config).id attempt.before)
    (fun net move next screened _ stepped => screened_step _ _ net move next screened stepped)
    (attempt.begun config) attempt.left attempt.moves ⟨?_, fun _ => ⟨rfl, rfl⟩, fun impossible => (by cases impossible)⟩
    (meets_trivial _ _) ran.1
  · cases stands : (screenings (token.payload config).id).phase (attempt.left.sessions 0).log with
    | undecided => exact (screened.idle stands).2
    | admitted =>
        obtain ⟨user, found, passed⟩ := screened.admitted stands
        exact absurd passed (refused user found)
  · show (attempt.request.program config).Tame _ _ _
    rw [asked]
    exact verify_screened config.toAuthConfig _ (token.payload config)

theorem activates_pending (attempt : Attempt hashtext) (token : LinkToken) (ran : attempt.Ran config)
    (activates : attempt.Activates config token) : ¬ Settled (token.payload config).id attempt.before.db := by
  intro settled
  obtain ⟨presented, ⟨user, found, inactive⟩, row, left, active⟩ := activates
  have kept : attempt.left.world.db.answer (.findAccount (token.payload config).id) ≠
      attempt.before.db.answer (.findAccount (token.payload config).id) := by
    intro same
    rw [left, found] at same
    cases same
    exact inactive active
  cases asked : attempt.request with
  | present link order other =>
      obtain rfl : other = token := by
        rw [asked] at presented
        exact Option.some.inj presented
      by_cases cautious : link = .verifyAccount
      · subst cautious
        refine kept (congrArg (fun rows : Tables => rows.answer (.findAccount (other.payload config).id))
          (refused_unchanged attempt order other asked ran fun known same passed => ?_))
        cases found.symm.trans same
        unfold AuthService.verificationRefusal at passed
        cases status : user.status with
        | pendingVerification => exact settled user found status
        | active => exact inactive status
        | suspended =>
            rw [status, if_pos rfl] at passed
            cases passed
      · obtain ⟨ws, spares, rows⟩ := attempt_writes Write.SparesAccounts attempt
          (by rw [asked]; exact cautious_spares config link order _ cautious) ran
        rcases spared_view attempt.before.db ws (other.payload config).id spares with none | same
        · rw [rows, none] at left
          cases left
        · rw [← rows] at same
          exact kept same
  | suspendAccount userId => rw [asked] at presented; cases presented
  | reactivateAccount userId => rw [asked] at presented; cases presented

theorem activates_settles (attempt : Attempt hashtext) (token : LinkToken) (activates : attempt.Activates config token) :
    Settled (token.payload config).id attempt.left.world.db := by
  obtain ⟨-, -, row, left, active⟩ := activates
  intro user found
  cases left.symm.trans found
  rw [active]
  decide

theorem activated_settled (start world : World) (history : List (Attempt hashtext)) (sequential : Sequential config start history world)
    (attempt : Attempt hashtext) (member : attempt ∈ history) (token : LinkToken) (activates : attempt.Activates config token) :
    Settled (token.payload config).id world.db := by
  induction sequential with
  | start => cases member
  | next earlier last before ran ih =>
      rcases List.mem_cons.mp member with rfl | old
      · exact activates_settles attempt token activates
      · exact attempt_settled last ran _ (ih old)

theorem sequential_ran (start world : World) (history : List (Attempt hashtext)) (sequential : Sequential config start history world)
    (attempt : Attempt hashtext) (member : attempt ∈ history) : attempt.Ran config := by
  induction sequential with
  | start => cases member
  | next earlier last before ran ih =>
      rcases List.mem_cons.mp member with rfl | old
      · exact ran
      · exact ih old

theorem sequential_pairwise (start world : World) (history : List (Attempt hashtext)) (related : Attempt hashtext → Attempt hashtext → Prop)
    (sequential : Sequential config start history world)
    (follows : ∀ rest later middle, Sequential config start rest middle → (later :: rest).IsSuffix history → later.before = middle →
      later.Ran config → ∀ earlier ∈ rest, related later earlier) : history.Pairwise related := by
  induction sequential with
  | start => exact List.Pairwise.nil
  | next earlier last before ran ih =>
      refine List.Pairwise.cons (follows earlier last _ before (List.suffix_refl _) rfl ran) (ih ?_)
      exact fun rest later middle sound inside => follows rest later middle sound (inside.trans (List.suffix_cons _ _))

end Attempts

theorem replay_safety (hashtext : Text → Int32) (config : LinkConfig) (start world : World) (history : List (Attempt hashtext))
    (sequential : Sequential config start history world) (drawn : Drawn history) :
    (∀ attempt ∈ history, ∀ link order token, attempt.request = .present link order token → link ≠ .verifyAccount →
      ¬ attempt.Blacklisted token → attempt.Refused ∧ attempt.Unchanged) ∧
    (history.Pairwise fun later earlier => ∀ link order token, earlier.request = .present link order token →
      link ≠ .verifyAccount → earlier.Blacklisted token → later.request.token = some token →
      Meets (ReadsInTime token.key (token.exp config)) (later.begun config) later.moves → later.Refused ∧ later.Unchanged) ∧
    ∀ token, history.Pairwise fun later earlier => ¬ (earlier.Activates config token ∧ later.Activates config token) := by
  refine ⟨fun attempt member link order token asked cautious failed => ?_, ?_, fun token => ?_⟩
  · exact unlisted_refused attempt link order token asked (sequential_ran start world history sequential attempt member) cautious failed
  · refine sequential_pairwise start world history _ sequential ?_
    rintro rest later middle sound inside rfl ran earlier member link order token asked - blacklisted presented prompt
    have inner : Drawn rest := fun one inOne two inTwo => drawn one (inside.subset (List.mem_cons_of_mem _ inOne)) two
      (inside.subset (List.mem_cons_of_mem _ inTwo))
    have secured := blacklisted_secured start later.before rest sound inner earlier member token (by rw [asked]; rfl) blacklisted
    exact secured_refused later token presented ran secured prompt
  · refine sequential_pairwise start world history _ sequential ?_
    rintro rest later middle sound - rfl ran earlier member ⟨first, second⟩
    exact activates_pending later token ran second (activated_settled start later.before rest sound earlier member token first)

def annDeletion : LinkToken := ⟨.deleteAccount, annIdentity, "jti".toList, 0⟩

def soleRequest : Fin 1 := Fin.last 0

def annDeletes (before : World) (moves : List (Move (engine fun _ => 0) 1)) : Attempt fun _ => 0 where
  request := .present .deleteAccount .listed annDeletion
  before := before
  moves := moves
  left := (run (launch before fun _ => ActionLink.deleteAccount.program annLinks .listed (annDeletion.signed annLinks)) moves).getD
    (launch before fun _ => .done ())

theorem ann_deletes_ran (before : World) (moves : List (Move (engine fun _ => 0) 1))
    (checked : ((run (launch before fun _ => ActionLink.deleteAccount.program annLinks .listed (annDeletion.signed annLinks)) moves).any
      fun final => (final.sessions 0).outcome.isSome) = true) : (annDeletes before moves).Ran annLinks := by
  obtain ⟨final, reached, finished⟩ := Option.any_eq_true _ _ |>.mp checked
  have left : (annDeletes before moves).left = final := by
    simp only [annDeletes]
    rw [reached]
    rfl
  refine ⟨?_, by rw [left]; exact finished⟩
  rw [left]
  exact reached

-- The deletion fails after its token is blacklisted.
def annFails : Attempt fun _ => 0 :=
  annDeletes enrolledWorld (List.replicate 5 (.turn soleRequest) ++ [.fault soleRequest .unavailable, .turn soleRequest])

theorem ann_fails_blacklisted : annFails.Blacklisted annDeletion :=
  listed_entry _ (show presentation annDeletion.key (annFails.left.sessions 0) = .listed by decide)

theorem ann_drawn (moves : List (Move (engine fun _ => 0) 1)) : Drawn [annDeletes annFails.left.world moves, annFails] := by
  have only : ∀ attempt ∈ [annDeletes annFails.left.world moves, annFails], attempt.request.token = some annDeletion := by
    intro attempt member
    simp only [List.mem_cons, List.not_mem_nil, or_false] at member
    rcases member with rfl | rfl <;> rfl
  intro one inOne two inTwo a b first second _
  rw [only one inOne] at first
  rw [only two inTwo] at second
  cases first
  cases second
  rfl

theorem ann_sequential (moves : List (Move (engine fun _ => 0) 1)) (ran : (annDeletes annFails.left.world moves).Ran annLinks) :
    Sequential annLinks enrolledWorld [annDeletes annFails.left.world moves, annFails]
      (annDeletes annFails.left.world moves).left.world :=
  .next _ _ (.next _ annFails .start (ann_deletes_ran _ _ (by decide))) ran

theorem replay_safety_ann : (annDeletes annFails.left.world (List.replicate 2 (.turn 0))).Refused := by
  have safe := (replay_safety (fun _ => 0) annLinks enrolledWorld _ _ (ann_sequential (List.replicate 2 (.turn 0))
    (ann_deletes_ran _ _ (by decide))) (ann_drawn _)).2.1
  exact ((List.pairwise_cons.mp safe).1 annFails (by simp) .deleteAccount .listed annDeletion rfl (by decide)
    ann_fails_blacklisted rfl (by decide)).1

-- The token is still valid when the next request checks it, and its entry has
-- run out when the request reads the blacklist.
def annWaits : Attempt fun _ => 0 :=
  annDeletes annFails.left.world ([.drift (3599999 : Nat), .turn soleRequest, .drift (1 : Nat)] ++
    List.replicate 11 (.turn soleRequest))

theorem expired_entry_admits_replay :
    Sequential annLinks enrolledWorld [annWaits, annFails] annWaits.left.world ∧ Drawn [annWaits, annFails] ∧
      annFails.Blacklisted annDeletion ∧ annWaits.request.token = annFails.request.token ∧
      (annWaits.left.sessions 0).outcome = some (.ok ()) ∧ annWaits.left.world.db ≠ annWaits.before.db :=
  ⟨ann_sequential _ (ann_deletes_ran _ _ (by decide)), ann_drawn _, ann_fails_blacklisted, rfl, by decide, by decide⟩

end RateWise
