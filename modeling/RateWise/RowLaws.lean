import RateWise.AllOrNothing

set_option autoImplicit false

namespace ReadCommitted

open Interleave

namespace RowRule

variable {S : Schema} {C : Commands S.Fault} {Key Lock : Type}

-- Statements whose row changes are lawful in the rows that the law keeps good.
def AllowsIn (R : RowRule S) : (interface S C Key).Stmt → Prop
  | .sql q => ∀ rows, R.Good rows → ∀ w ∈ S.attempts rows q, R.Lawful w
  | _ => True

-- Statements that are lawful if the log has an answer to them.
def AllowsRan (R : RowRule S) (log : List (Event (interface S C Key))) (s : (interface S C Key).Stmt) : Prop :=
  (∃ reply, Event.ran s (.ok reply) ∈ log) → R.AllowsIn s

def ObeysIn {ε α : Type} (R : RowRule S) (prog : Prog (interface S C Key) ε α) : Prop :=
  prog.Heeds R.AllowsIn R.Credible fun _ => True

section Rules

variable {ε α β : Type} (R : RowRule S)

theorem silent_allowed (s : (interface S C Key).Stmt) (silent : ReadCommitted.Silent s) : R.AllowsIn s := by
  cases s with
  | sql q =>
      intro rows _ w member
      rw [silent q rfl rows] at member
      cases member
  | tryLock key => trivial
  | cmd c => trivial

theorem allows_in (s : (interface S C Key).Stmt) (allowed : R.Allows s) : R.AllowsIn s := by
  cases s with
  | sql q => exact fun rows _ => allowed rows
  | tryLock key => trivial
  | cmd c => trivial

theorem allows_ran (log : List (Event (interface S C Key))) (s : (interface S C Key).Stmt) (allowed : R.Allows s) :
    R.AllowsRan log s := fun _ => R.allows_in s allowed

theorem obeys_in (prog : Prog (interface S C Key) ε α) (obeys : R.Obeys prog) : R.ObeysIn prog :=
  heeds_wider _ _ prog obeys R.allows_in (fun _ _ likely => likely) fun _ holds => holds

theorem quiet_obeys (post : α → Prop) (prog : Prog (interface S C Key) ε α) (quiet : prog.Quiet ReadCommitted.Silent post) :
    prog.Heeds R.AllowsIn R.Credible post :=
  heeds_wider _ _ prog (heeds_quiet post prog quiet) R.silent_allowed (fun _ _ likely => likely) fun _ holds => holds

theorem obeys_in_then (first : Prog (interface S C Key) ε α) (next : α → Prog (interface S C Key) ε β)
    (obeys : R.ObeysIn first) (later : ∀ value, R.ObeysIn (next value)) : R.ObeysIn (first.bind next) :=
  heeds_bind (fun _ => True) _ first next obeys fun value _ => later value

end Rules

section Runs

variable [DecidableEq Lock] {hash : Key → Lock} {ε α : Type}

theorem exec_lawful (R : RowRule S) (world left : World S C) (tx after : Tx S Lock) (others : List (Tx S Lock))
    (s : Call S.Sql Key C.Cmd) (reply : (interface S C Key).Reply s) (good : R.Good world.db)
    (lawful : ∀ w ∈ tx.writes, R.Lawful w) (allowed : @AllowsIn S C Key R s)
    (ran : (engine S C hash).exec world tx others s = .ok (reply, after, left)) :
    R.Good left.db ∧ ∀ w ∈ after.writes, R.Lawful w := by
  obtain ⟨rows, written⟩ := exec_writes world left tx after others s reply ran
  refine ⟨rows ▸ good, ?_⟩
  rcases written with same | ⟨q, rfl, -, added⟩
  · rw [same]
    exact lawful
  · rw [added]
    intro w member
    rcases List.mem_append.mp member with old | new
    · exact lawful w old
    · exact allowed _ (R.good_view world.db tx.writes good lawful) w new

theorem law_advance (R : RowRule S) (allowed : (interface S C Key).Stmt → Prop) (world left : World S C) (others : List (Tx S Lock))
    (session after : Session (engine S C hash) ε α) (good : R.Good world.db) (lawful : ∀ w ∈ pending session.tx, R.Lawful w)
    (obeys : session.prog.Heeds allowed R.Credible fun _ => True) (advanced : session.advance world others = some (left, after))
    (told : ∀ s reply, Event.ran s (.ok reply) ∈ after.log → allowed s → R.AllowsIn s) :
    R.Good left.db ∧ (∀ w ∈ pending after.tx, R.Lawful w) ∧ after.prog.Heeds allowed R.Credible fun _ => True := by
  obtain ⟨prog, tx, log⟩ := session
  have none_pending : ∀ w ∈ pending (none : Option (Tx S Lock)), R.Lawful w := fun w none => by cases none
  cases prog with
  | done value => cases advanced
  | throw error => cases advanced
  | beginTx rest =>
      cases advanced
      exact ⟨good, fun w none => (by cases none), obeys⟩
  | rollbackTx rest =>
      cases advanced
      exact ⟨good, none_pending, obeys⟩
  | commitTx rest =>
      cases tx with
      | none =>
          cases advanced
          exact ⟨good, none_pending, obeys⟩
      | some tx =>
          cases advanced
          exact ⟨R.good_view world.db tx.writes good lawful, none_pending, obeys⟩
  | stmt s resume =>
      obtain ⟨asks, failed, answered⟩ := obeys
      simp only [Session.advance] at advanced
      split at advanced
      · cases advanced
      · split at advanced
        · cases advanced
          exact ⟨good, lawful, failed _⟩
        · rename_i reply result changed ran
          have own : ∀ w ∈ (tx.getD (engine S C hash).empty).writes, R.Lawful w := by
            cases tx with
            | none => exact fun w none => by cases none
            | some tx => exact lawful
          have likely := R.credible_reply _ _ _ _ _ s reply good own ran
          have logged : Event.ran s (.ok reply) ∈ after.log := by
            cases tx <;> (cases advanced; exact List.mem_cons_self)
          obtain ⟨kept, changes⟩ := R.exec_lawful world changed _ result others s reply good own (told s reply logged asks) ran
          cases tx with
          | none =>
              cases advanced
              exact ⟨R.good_view changed.db result.writes kept changes, none_pending, answered reply likely⟩
          | some tx =>
              cases advanced
              exact ⟨kept, changes, answered reply likely⟩

-- Good rows, lawful changes so far, and programs that send what their sessions
-- are allowed.
structure UpheldBy {n : Nat} (R : RowRule S) (allowed : Fin n → (interface S C Key).Stmt → Prop)
    (net : Net (engine S C hash) ε α n) : Prop where
  rows : R.Good net.world.db
  changes : ∀ i, ∀ w ∈ pending (net.sessions i).tx, R.Lawful w
  programs : ∀ i, (net.sessions i).prog.Heeds (allowed i) R.Credible fun _ => True

abbrev UpheldIn {n : Nat} (R : RowRule S) (net : Net (engine S C hash) ε α n) : Prop := R.UpheldBy (fun _ => R.AllowsIn) net

theorem launch_upheld_by {n : Nat} (R : RowRule S) (allowed : Fin n → (interface S C Key).Stmt → Prop) (world : World S C)
    (programs : Fin n → Prog (interface S C Key) ε α) (good : R.Good world.db)
    (obey : ∀ i, (programs i).Heeds (allowed i) R.Credible fun _ => True) :
    R.UpheldBy allowed (launch (E := engine S C hash) world programs) where
  rows := good
  changes i w none := by cases none
  programs := obey

theorem launch_upheld_in {n : Nat} (R : RowRule S) (world : World S C) (programs : Fin n → Prog (interface S C Key) ε α)
    (good : R.Good world.db) (obey : ∀ i, R.ObeysIn (programs i)) :
    R.UpheldIn (launch (E := engine S C hash) world programs) := R.launch_upheld_by _ world programs good obey

theorem law_interrupt (R : RowRule S) (allowed : (interface S C Key).Stmt → Prop) (session after : Session (engine S C hash) ε α)
    (fault : S.Fault) (obeys : session.prog.Heeds allowed R.Credible fun _ => True)
    (interrupted : session.interrupt fault = some after) : after.prog.Heeds allowed R.Credible fun _ => True := by
  obtain ⟨prog, tx, log⟩ := session
  cases prog with
  | stmt s resume =>
      cases interrupted
      exact obeys.2.1 fault
  | _ => cases interrupted

theorem step_upheld_by {n : Nat} (R : RowRule S) (allowed : Fin n → (interface S C Key).Stmt → Prop)
    (net next : Net (engine S C hash) ε α n) (move : Move (engine S C hash) n) (upheld : R.UpheldBy allowed net)
    (stepped : step net move = some next)
    (told : ∀ i s reply, Event.ran s (.ok reply) ∈ (next.sessions i).log → allowed i s → R.AllowsIn s) :
    R.UpheldBy allowed next := by
  rcases step_cases net next move stepped with ⟨i, left, session, rfl, advanced, rfl⟩ |
    ⟨i, fault, session, rfl, interrupted, rfl⟩ | ⟨change, rfl, rfl⟩
  · obtain ⟨good, kept, program⟩ := R.law_advance (allowed i) net.world left (others net i) (net.sessions i) session upheld.rows
      (upheld.changes i) (upheld.programs i) advanced fun s reply logged => told i s reply (by simpa using logged)
    refine ⟨good, fun j => ?_, fun j => ?_⟩
    · by_cases here : j = i
      · subst here
        simpa using kept
      · simpa [here] using upheld.changes j
    · by_cases here : j = i
      · subst here
        simpa using program
      · simpa [here] using upheld.programs j
  · have kept := interrupt_pending R.Lawful (net.sessions i) session fault (upheld.changes i) interrupted
    have program := R.law_interrupt (allowed i) (net.sessions i) session fault (upheld.programs i) interrupted
    refine ⟨upheld.rows, fun j => ?_, fun j => ?_⟩
    · by_cases here : j = i
      · subst here
        simpa using kept
      · simpa [here] using upheld.changes j
    · by_cases here : j = i
      · subst here
        simpa using program
      · simpa [here] using upheld.programs j
  · exact ⟨upheld.rows, upheld.changes, upheld.programs⟩

theorem step_upheld_in {n : Nat} (R : RowRule S) (net next : Net (engine S C hash) ε α n) (move : Move (engine S C hash) n)
    (upheld : R.UpheldIn net) (stepped : step net move = some next) : R.UpheldIn next :=
  R.step_upheld_by _ net next move upheld stepped fun _ _ _ _ allowed => allowed

-- Whatever the interleaving, faults and delays. Each statement that a session
-- runs is in its log at the end, so that the final logs may say what is lawful.
theorem run_upheld_by {n : Nat} (R : RowRule S) (allowed : Fin n → (interface S C Key).Stmt → Prop)
    (net last : Net (engine S C hash) ε α n) (moves : List (Move (engine S C hash) n)) (upheld : R.UpheldBy allowed net)
    (ran : run net moves = some last)
    (told : ∀ i s reply, Event.ran s (.ok reply) ∈ (last.sessions i).log → allowed i s → R.AllowsIn s) :
    R.UpheldBy allowed last := by
  induction moves generalizing net with
  | nil =>
      cases ran
      exact upheld
  | cons move rest ih =>
      obtain ⟨next, stepped, onward⟩ := Option.bind_eq_some_iff.mp ran
      refine ih next (R.step_upheld_by allowed net next move upheld stepped fun i s reply logged => ?_) onward
      exact told i s reply ((run_log next last rest onward i).subset logged)

theorem run_upheld_ran {n : Nat} (R : RowRule S) (net last : Net (engine S C hash) ε α n)
    (moves : List (Move (engine S C hash) n)) (upheld : R.UpheldBy (fun i => R.AllowsRan (last.sessions i).log) net)
    (ran : run net moves = some last) : R.UpheldBy (fun i => R.AllowsRan (last.sessions i).log) last :=
  R.run_upheld_by _ net last moves upheld ran fun _ _ reply logged allowed => allowed ⟨reply, logged⟩

theorem run_upheld_in {n : Nat} (R : RowRule S) (net last : Net (engine S C hash) ε α n)
    (moves : List (Move (engine S C hash) n)) (upheld : R.UpheldIn net) (ran : run net moves = some last) : R.UpheldIn last :=
  R.run_upheld_by _ net last moves upheld ran fun _ _ _ _ allowed => allowed

end Runs

theorem obeys_narrower {ε α : Type} (R N : RowRule S) (good : ∀ db, N.Good db → R.Good db) (lawful : ∀ w, R.Lawful w → N.Lawful w)
    (prog : Prog (interface S C Key) ε α) (obeys : R.ObeysIn prog) : N.ObeysIn prog := by
  refine heeds_wider _ _ prog obeys (fun s allowed => ?_) (fun s reply likely => ?_) fun _ holds => holds
  · cases s with
    | sql q => exact fun rows held w member => lawful w (allowed rows (good rows held) w member)
    | _ => trivial
  · cases s with
    | sql q =>
        obtain ⟨rows, held, same⟩ := likely
        exact ⟨rows, good rows held, same⟩
    | _ => trivial

def also (R : RowRule S) (Q : S.Db → Prop) (kept : ∀ db w, R.Good db → R.Lawful w → Q db → Q (S.apply db w)) : RowRule S where
  Good db := R.Good db ∧ Q db
  Lawful := R.Lawful
  good_apply db w held lawful := ⟨R.good_apply db w held.1 lawful, kept db w held.1 lawful held.2⟩

theorem run_kept [DecidableEq Lock] {hash : Key → Lock} {ε α : Type} {n : Nat} (R : RowRule S) (Q : S.Db → Prop)
    (kept : ∀ db w, R.Good db → R.Lawful w → Q db → Q (S.apply db w)) (net last : Net (engine S C hash) ε α n)
    (moves : List (Move (engine S C hash) n)) (upheld : R.UpheldIn net) (holds : Q net.world.db)
    (ran : run net moves = some last) : Q last.world.db := by
  have narrowed : (R.also Q kept).UpheldIn net := ⟨⟨upheld.rows, holds⟩, upheld.changes, fun i =>
    obeys_narrower R (R.also Q kept) (fun _ held => held.1) (fun _ lawful => lawful) _ (upheld.programs i)⟩
  exact ((R.also Q kept).run_upheld_in net last moves narrowed ran).rows.2

end RowRule

end ReadCommitted
