import RateWise.ChartedSteps

set_option autoImplicit false

namespace Interleave

-- An automaton over what a session sends: the phase it is in and the
-- statements that are allowed there.
structure Typestate (I : Interface) where
  Phase : Type
  start : Phase
  after : Phase → Event I → Phase
  allowed : Phase → I.Stmt → Prop

namespace Typestate

variable {I : Interface} (T : Typestate I)

def phase (log : List (Event I)) : T.Phase := log.foldr (fun event phase => T.after phase event) T.start

end Typestate

-- Whatever it is answered, the program only sends what its phase allows, and
-- what it returns or throws fits the phase it ends in.
def Prog.TameOr {I : Interface} {ε α : Type} (T : Typestate I) (post : T.Phase → α → Prop) (thrown : T.Phase → ε → Prop) :
    T.Phase → Prog I ε α → Prop
  | p, .done value => post p value
  | p, .throw error => thrown p error
  | p, .stmt s resume => T.allowed p s ∧ ∀ reply, (resume reply).TameOr T post thrown (T.after p (.ran s reply))
  | p, .beginTx rest => rest.TameOr T post thrown (T.after p .opened)
  | p, .commitTx rest => rest.TameOr T post thrown (T.after p .committed)
  | p, .rollbackTx rest => rest.TameOr T post thrown (T.after p .rolledBack)

abbrev Prog.Tame {I : Interface} {ε α : Type} (T : Typestate I) (post : T.Phase → α → Prop) (p : T.Phase) (prog : Prog I ε α) :
    Prop := prog.TameOr T post (fun _ _ => True) p

section Rules

variable {I : Interface} {ε α β : Type} {T : Typestate I}

theorem tame_mono (strong weak : T.Phase → α → Prop) (narrow wide : T.Phase → ε → Prop) (prog : Prog I ε α) (p : T.Phase)
    (tame : prog.TameOr T strong narrow p) (implied : ∀ p value, strong p value → weak p value)
    (covered : ∀ p error, narrow p error → wide p error) : prog.TameOr T weak wide p := by
  induction prog generalizing p with
  | done value => exact implied p value tame
  | throw error => exact covered p error tame
  | stmt s resume ih => exact ⟨tame.1, fun reply => ih reply _ (tame.2 reply)⟩
  | beginTx rest ih => exact ih _ tame
  | commitTx rest ih => exact ih _ tame
  | rollbackTx rest ih => exact ih _ tame

theorem tame_bind (middle : T.Phase → α → Prop) (post : T.Phase → β → Prop) (thrown : T.Phase → ε → Prop) (prog : Prog I ε α)
    (next : α → Prog I ε β) (p : T.Phase) (first : prog.TameOr T middle thrown p)
    (second : ∀ p value, middle p value → (next value).TameOr T post thrown p) : (prog.bind next).TameOr T post thrown p := by
  induction prog generalizing p with
  | done value => exact second p value first
  | throw error => exact first
  | stmt s resume ih => exact ⟨first.1, fun reply => ih reply _ (first.2 reply)⟩
  | beginTx rest ih => exact ih _ first
  | commitTx rest ih => exact ih _ first
  | rollbackTx rest ih => exact ih _ first

theorem tame_catching (post : T.Phase → α → Prop) (caught thrown : T.Phase → ε → Prop) (prog : Prog I ε α)
    (handler : ε → Prog I ε α) (p : T.Phase) (first : prog.TameOr T post caught p)
    (second : ∀ p error, caught p error → (handler error).TameOr T post thrown p) :
    (prog.catching handler).TameOr T post thrown p := by
  induction prog generalizing p with
  | done value => exact first
  | throw error => exact second p error first
  | stmt s resume ih => exact ⟨first.1, fun reply => ih reply _ (first.2 reply)⟩
  | beginTx rest ih => exact ih _ first
  | commitTx rest ih => exact ih _ first
  | rollbackTx rest ih => exact ih _ first

def Typestate.Idle (T : Typestate I) (s : I.Stmt) : Prop := ∀ p, T.allowed p s ∧ ∀ reply, T.after p (.ran s reply) = p

def Typestate.Rests (T : Typestate I) (p : T.Phase) (s : I.Stmt) : Prop := T.allowed p s ∧ ∀ reply, T.after p (.ran s reply) = p

theorem tame_quiet_rests (post : α → Prop) (p : T.Phase) (prog : Prog I ε α) (quiet : prog.Quiet (T.Rests p) post) :
    prog.TameOr T (fun q value => q = p ∧ post value) (fun q _ => q = p) p := by
  induction prog with
  | done value => exact ⟨rfl, quiet⟩
  | throw error => rfl
  | stmt s resume ih =>
      obtain ⟨rests, onward⟩ := quiet
      refine ⟨rests.1, fun reply => ?_⟩
      rw [rests.2 reply]
      exact ih reply (onward reply)
  | beginTx rest => cases quiet
  | commitTx rest => cases quiet
  | rollbackTx rest => cases quiet

theorem tame_quiet (post : α → Prop) (prog : Prog I ε α) (quiet : prog.Quiet T.Idle post) (p : T.Phase) :
    prog.TameOr T (fun q value => q = p ∧ post value) (fun q _ => q = p) p :=
  tame_quiet_rests post p prog (Prog.quiet_wider _ _ _ prog quiet fun _ idle => idle p)

def Prog.Sends {I : Interface} {ε α : Type} (allowed : I.Stmt → Prop) : Prog I ε α → Prop
  | .done _ => True
  | .throw _ => True
  | .stmt s resume => allowed s ∧ ∀ reply, (resume reply).Sends allowed
  | .beginTx rest => rest.Sends allowed
  | .commitTx rest => rest.Sends allowed
  | .rollbackTx rest => rest.Sends allowed

theorem sends_bind (allowed : I.Stmt → Prop) (prog : Prog I ε α) (next : α → Prog I ε β) (first : prog.Sends allowed)
    (second : ∀ value, (next value).Sends allowed) : (prog.bind next).Sends allowed := by
  induction prog with
  | done value => exact second value
  | throw error => trivial
  | stmt s resume ih => exact ⟨first.1, fun reply => ih reply (first.2 reply)⟩
  | beginTx rest ih => exact ih first
  | commitTx rest ih => exact ih first
  | rollbackTx rest ih => exact ih first

theorem sends_catching (allowed : I.Stmt → Prop) (prog : Prog I ε α) (handler : ε → Prog I ε α) (first : prog.Sends allowed)
    (second : ∀ error, (handler error).Sends allowed) : (prog.catching handler).Sends allowed := by
  induction prog with
  | done value => trivial
  | throw error => exact second error
  | stmt s resume ih => exact ⟨first.1, fun reply => ih reply (first.2 reply)⟩
  | beginTx rest ih => exact ih first
  | commitTx rest ih => exact ih first
  | rollbackTx rest ih => exact ih first

theorem sends_transaction (allowed : I.Stmt → Prop) (body : Prog I ε α) (sends : body.Sends allowed) :
    (Prog.transaction body).Sends allowed := by
  show body.settled.Sends allowed
  induction body with
  | done value => trivial
  | throw error => trivial
  | stmt s resume ih => exact ⟨sends.1, fun reply => ih reply (sends.2 reply)⟩
  | beginTx rest ih => exact ih sends
  | commitTx rest ih => exact ih sends
  | rollbackTx rest ih => exact ih sends

theorem sends_quiet (allowed wider : I.Stmt → Prop) (post : α → Prop) (prog : Prog I ε α) (quiet : prog.Quiet allowed post)
    (implied : ∀ s, allowed s → wider s) : prog.Sends wider := by
  induction prog with
  | done value => trivial
  | throw error => trivial
  | stmt s resume ih => exact ⟨implied s quiet.1, fun reply => ih reply (quiet.2 reply)⟩
  | beginTx rest => cases quiet
  | commitTx rest => cases quiet
  | rollbackTx rest => cases quiet

-- Transactions as such do not matter to the automaton.
def Typestate.Steady (T : Typestate I) : Prop :=
  ∀ p, T.after p .opened = p ∧ T.after p .committed = p ∧ T.after p .rolledBack = p

theorem sends_mono (allowed wider : I.Stmt → Prop) (prog : Prog I ε α) (sends : prog.Sends allowed)
    (implied : ∀ s, allowed s → wider s) : prog.Sends wider := by
  induction prog with
  | done value => trivial
  | throw error => trivial
  | stmt s resume ih => exact ⟨implied s sends.1, fun reply => ih reply (sends.2 reply)⟩
  | beginTx rest ih => exact ih sends
  | commitTx rest ih => exact ih sends
  | rollbackTx rest ih => exact ih sends

theorem tame_rests (p : T.Phase) (steady : T.after p .opened = p ∧ T.after p .committed = p ∧ T.after p .rolledBack = p)
    (prog : Prog I ε α) (sends : prog.Sends (T.Rests p)) : prog.TameOr T (fun q _ => q = p) (fun q _ => q = p) p := by
  induction prog with
  | done value => rfl
  | throw error => rfl
  | stmt s resume ih =>
      obtain ⟨rests, onward⟩ := sends
      refine ⟨rests.1, fun reply => ?_⟩
      rw [rests.2 reply]
      exact ih reply (onward reply)
  | beginTx rest ih =>
      show rest.TameOr T _ _ (T.after p .opened)
      rw [steady.1]
      exact ih sends
  | commitTx rest ih =>
      show rest.TameOr T _ _ (T.after p .committed)
      rw [steady.2.1]
      exact ih sends
  | rollbackTx rest ih =>
      show rest.TameOr T _ _ (T.after p .rolledBack)
      rw [steady.2.2]
      exact ih sends

theorem tame_sends (steady : T.Steady) (prog : Prog I ε α) (sends : prog.Sends T.Idle) (p : T.Phase) :
    prog.TameOr T (fun q _ => q = p) (fun q _ => q = p) p :=
  tame_rests p (steady p) prog (sends_mono _ _ prog sends fun _ idle => idle p)

@[reducible] def Typestate.within (T : Typestate I) (extra : T.Phase → I.Stmt → Prop) : Typestate I where
  Phase := T.Phase
  start := T.start
  after := T.after
  allowed p s := T.allowed p s ∧ extra p s

theorem tame_of_within (extra : T.Phase → I.Stmt → Prop) (post : T.Phase → α → Prop) (thrown : T.Phase → ε → Prop)
    (prog : Prog I ε α) (p : T.Phase) (tame : prog.TameOr (T.within extra) post thrown p) : prog.TameOr T post thrown p := by
  induction prog generalizing p with
  | done value => exact tame
  | throw error => exact tame
  | stmt s resume ih => exact ⟨tame.1.1, fun reply => ih reply _ (tame.2 reply)⟩
  | beginTx rest ih => exact ih _ tame
  | commitTx rest ih => exact ih _ tame
  | rollbackTx rest ih => exact ih _ tame

theorem tame_within (extra : T.Phase → I.Stmt → Prop) (also : I.Stmt → Prop) (implied : ∀ p s, also s → extra p s)
    (post : T.Phase → α → Prop) (thrown : T.Phase → ε → Prop) (prog : Prog I ε α) (p : T.Phase)
    (tame : prog.TameOr T post thrown p) (sends : prog.Sends also) : prog.TameOr (T.within extra) post thrown p := by
  induction prog generalizing p with
  | done value => exact tame
  | throw error => exact tame
  | stmt s resume ih => exact ⟨⟨tame.1, implied _ s sends.1⟩, fun reply => ih reply _ (tame.2 reply) (sends.2 reply)⟩
  | beginTx rest ih => exact ih _ tame sends
  | commitTx rest ih => exact ih _ tame sends
  | rollbackTx rest ih => exact ih _ tame sends

variable {E : Engine I} {post : T.Phase → α → Prop} {thrown : T.Phase → ε → Prop}

def TamedOr (T : Typestate I) (post : T.Phase → α → Prop) (thrown : T.Phase → ε → Prop) (session : Session E ε α) : Prop :=
  session.prog.TameOr T post thrown (T.phase session.log)

abbrev Tamed (T : Typestate I) (post : T.Phase → α → Prop) (session : Session E ε α) : Prop :=
  TamedOr T post (fun _ _ => True) session

theorem tamed_advance (world left : E.World) (others : List E.Tx) (session after : Session E ε α)
    (tamed : TamedOr T post thrown session) (advanced : session.advance world others = some (left, after)) :
    TamedOr T post thrown after ∧ ∃ event, after.log = event :: session.log ∧
      ∀ s, session.prog.asked = some s → T.allowed (T.phase session.log) s := by
  obtain ⟨prog, tx, log⟩ := session
  cases prog with
  | done value => cases advanced
  | throw error => cases advanced
  | beginTx rest =>
      cases advanced
      exact ⟨tamed, _, rfl, fun s impossible => by cases impossible⟩
  | rollbackTx rest =>
      cases advanced
      exact ⟨tamed, _, rfl, fun s impossible => by cases impossible⟩
  | commitTx rest =>
      cases tx with
      | none =>
          cases advanced
          exact ⟨tamed, _, rfl, fun s impossible => by cases impossible⟩
      | some tx =>
          cases advanced
          exact ⟨tamed, _, rfl, fun s impossible => by cases impossible⟩
  | stmt s resume =>
      have asks : ∀ t, (Prog.stmt s resume).asked = some t → T.allowed (T.phase log) t := by
        intro t same
        cases same
        exact tamed.1
      simp only [Session.advance] at advanced
      split at advanced
      · cases advanced
      · split at advanced
        · cases advanced
          exact ⟨tamed.2 _, _, rfl, asks⟩
        · cases tx with
          | none =>
              cases advanced
              exact ⟨tamed.2 _, _, rfl, asks⟩
          | some tx =>
              cases advanced
              exact ⟨tamed.2 _, _, rfl, asks⟩

theorem tamed_interrupt (session after : Session E ε α) (fault : I.Fault) (tamed : TamedOr T post thrown session)
    (interrupted : session.interrupt fault = some after) : TamedOr T post thrown after := by
  obtain ⟨prog, tx, log⟩ := session
  cases prog with
  | stmt s resume =>
      cases interrupted
      exact tamed.2 _
  | _ => cases interrupted

theorem interrupt_event (session after : Session E ε α) (fault : I.Fault) (interrupted : session.interrupt fault = some after) :
    ∃ s, session.prog.asked = some s ∧ session.outcome = none ∧ after.log = .ran s (.error fault) :: session.log := by
  obtain ⟨prog, tx, log⟩ := session
  cases prog with
  | stmt s resume =>
      cases interrupted
      exact ⟨s, rfl, rfl, rfl⟩
  | _ => cases interrupted

theorem tamed_step {n : Nat} (net next : Net E ε α n) (move : Move E n) (tamed : ∀ i, Tamed T post (net.sessions i))
    (stepped : step net move = some next) : ∀ i, Tamed T post (next.sessions i) := by
  rcases step_cases net next move stepped with ⟨i, world, session, -, advanced, rfl⟩ | ⟨i, fault, session, -, interrupted, rfl⟩ |
    ⟨change, -, rfl⟩
  · exact (Function.forall_update_iff net.sessions fun _ s => Tamed T post s).mpr
      ⟨(tamed_advance _ _ _ _ _ (tamed i) advanced).1, fun j _ => tamed j⟩
  · exact (Function.forall_update_iff net.sessions fun _ s => Tamed T post s).mpr
      ⟨tamed_interrupt _ _ _ (tamed i) interrupted, fun j _ => tamed j⟩
  · exact tamed

structure Sender (allowed : I.Stmt → Prop) (session : Session E ε α) : Prop where
  ahead : session.prog.Sends allowed
  behind : ∀ s reply, .ran s reply ∈ session.log → allowed s

theorem sender_advance (allowed : I.Stmt → Prop) (world left : E.World) (others : List E.Tx) (session after : Session E ε α)
    (sender : Sender allowed session) (advanced : session.advance world others = some (left, after)) : Sender allowed after := by
  obtain ⟨prog, tx, log⟩ := session
  obtain ⟨ahead, behind⟩ := sender
  have logged : ∀ event, (∀ s reply, event = .ran s reply → allowed s) → ∀ s reply, .ran s reply ∈ event :: log → allowed s := by
    intro event new s reply member
    rcases List.mem_cons.mp member with same | old
    · exact new s reply same.symm
    · exact behind s reply old
  cases prog with
  | done value => cases advanced
  | throw error => cases advanced
  | beginTx rest =>
      cases advanced
      exact ⟨ahead, logged _ fun s reply impossible => by cases impossible⟩
  | rollbackTx rest =>
      cases advanced
      exact ⟨ahead, logged _ fun s reply impossible => by cases impossible⟩
  | commitTx rest =>
      cases tx <;> (cases advanced; exact ⟨ahead, logged _ fun s reply impossible => by cases impossible⟩)
  | stmt s resume =>
      have asked : ∀ answer, ∀ t reply, Event.ran s answer = .ran t reply → allowed t := by
        rintro answer t reply ⟨⟩
        exact ahead.1
      simp only [Session.advance] at advanced
      split at advanced
      · cases advanced
      · split at advanced
        · cases advanced
          exact ⟨ahead.2 _, logged _ (asked _)⟩
        · cases tx <;> (cases advanced; exact ⟨ahead.2 _, logged _ (asked _)⟩)

theorem sender_step {n : Nat} (allowed : I.Stmt → Prop) (net next : Net E ε α n) (move : Move E n) (i : Fin n)
    (sender : Sender allowed (net.sessions i)) (stepped : step net move = some next) : Sender allowed (next.sessions i) := by
  rcases step_cases net next move stepped with ⟨j, world, session, -, advanced, rfl⟩ | ⟨j, fault, session, -, interrupted, rfl⟩ |
    ⟨change, -, rfl⟩
  · by_cases here : i = j
    · subst here
      simpa using sender_advance allowed _ _ _ _ _ sender advanced
    · simpa [here] using sender
  · by_cases here : i = j
    · subst here
      simp only [Function.update_self]
      cases prog : (net.sessions i).prog with
      | stmt t resume =>
          obtain ⟨ahead, behind⟩ := sender
          rw [prog] at ahead
          rw [Session.interrupt, prog] at interrupted
          cases interrupted
          refine ⟨ahead.2 _, fun other reply member => ?_⟩
          rcases List.mem_cons.mp member with same | old
          · cases same
            exact ahead.1
          · exact behind other reply old
      | _ =>
          rw [Session.interrupt, prog] at interrupted
          cases interrupted
    · simpa [here] using sender
  · exact sender

theorem run_sent {n : Nat} (allowed : I.Stmt → Prop) (start last : Net E ε α n) (moves : List (Move E n)) (i : Fin n)
    (sends : (start.sessions i).prog.Sends allowed) (silent : (start.sessions i).log = []) (ran : run start moves = some last)
    (s : I.Stmt) (reply : Except I.Fault (I.Reply s)) (logged : .ran s reply ∈ (last.sessions i).log) : allowed s := by
  have sender : Sender allowed (last.sessions i) :=
    run_invariant (fun _ _ => True) (fun net => Sender allowed (net.sessions i))
      (fun net move next before _ stepped => sender_step allowed net next move i before stepped) start last moves
      ⟨sends, fun t answer none => by rw [silent] at none; cases none⟩ (meets_trivial _ _) ran
  exact sender.behind s reply logged

end Rules

section Recording

variable {I : Interface} {E : Engine I} {ε α : Type}

@[reducible] def recording (I : Interface) : Typestate I := ⟨List (Event I), [], fun log event => event :: log, fun _ _ => True⟩

theorem recording_phase (log : List (Event I)) : (recording I).phase log = log := by
  induction log with
  | nil => rfl
  | cons event rest ih => exact congrArg (event :: ·) ih

theorem recording_grows (post : List (Event I) → α → Prop) (thrown : List (Event I) → ε → Prop) (prog : Prog I ε α)
    (p : List (Event I)) (tame : prog.TameOr (recording I) post thrown p) :
    prog.TameOr (recording I) (fun q value => p ⊆ q ∧ post q value) (fun q error => p ⊆ q ∧ thrown q error) p := by
  have onward : ∀ (prog : Prog I ε α) (p q : List (Event I)), p ⊆ q → prog.TameOr (recording I) post thrown q →
      prog.TameOr (recording I) (fun q value => p ⊆ q ∧ post q value) (fun q error => p ⊆ q ∧ thrown q error) q := by
    intro prog
    induction prog with
    | done value => exact fun p q inside tame => ⟨inside, tame⟩
    | throw error => exact fun p q inside tame => ⟨inside, tame⟩
    | stmt s resume ih =>
        exact fun p q inside tame => ⟨trivial, fun reply => ih reply p _ (List.Subset.trans inside (List.subset_cons_self _ _)) (tame.2 reply)⟩
    | beginTx rest ih => exact fun p q inside tame => ih p _ (List.Subset.trans inside (List.subset_cons_self _ _)) tame
    | commitTx rest ih => exact fun p q inside tame => ih p _ (List.Subset.trans inside (List.subset_cons_self _ _)) tame
    | rollbackTx rest ih => exact fun p q inside tame => ih p _ (List.Subset.trans inside (List.subset_cons_self _ _)) tame
  exact onward prog p p (List.Subset.refl p) tame

theorem recording_bind {β : Type} (middle : List (Event I) → α → Prop) (post : List (Event I) → β → Prop)
    (thrown : List (Event I) → ε → Prop) (prog : Prog I ε α) (next : α → Prog I ε β) (p : List (Event I))
    (first : prog.TameOr (recording I) middle thrown p)
    (second : ∀ q value, p ⊆ q → middle q value → (next value).TameOr (recording I) post thrown q) :
    (prog.bind next).TameOr (recording I) post thrown p := by
  refine tame_bind _ _ _ _ _ _ (tame_mono _ _ _ _ _ _ (recording_grows middle thrown prog p first) (fun _ _ both => both)
    fun _ _ both => both.2) ?_
  exact fun q value both => second q value both.1 both.2

theorem recording_any (prog : Prog I ε α) (p : List (Event I)) :
    prog.TameOr (recording I) (fun _ _ => True) (fun _ _ => True) p := by
  induction prog generalizing p with
  | done value => trivial
  | throw error => trivial
  | stmt s resume ih => exact ⟨trivial, fun reply => ih reply _⟩
  | beginTx rest ih => exact ih _
  | commitTx rest ih => exact ih _
  | rollbackTx rest ih => exact ih _

theorem quiet_advance (allowed : I.Stmt → Prop) (post : α → Prop) (world left : E.World) (others : List E.Tx)
    (session after : Session E ε α) (quiet : session.prog.Quiet allowed post) (closed : session.tx = none)
    (advanced : session.advance world others = some (left, after)) : after.prog.Quiet allowed post ∧ after.tx = none := by
  obtain ⟨prog, tx, log⟩ := session
  cases prog with
  | done value => cases advanced
  | throw error => cases advanced
  | beginTx rest => cases quiet
  | commitTx rest => cases quiet
  | rollbackTx rest => cases quiet
  | stmt s resume =>
      subst closed
      simp only [Session.advance] at advanced
      split at advanced
      · cases advanced
      · split at advanced
        · cases advanced
          exact ⟨quiet.2 _, rfl⟩
        · cases advanced
          exact ⟨quiet.2 _, rfl⟩

theorem quiet_interrupt (allowed : I.Stmt → Prop) (post : α → Prop) (session after : Session E ε α) (fault : I.Fault)
    (quiet : session.prog.Quiet allowed post) (closed : session.tx = none) (interrupted : session.interrupt fault = some after) :
    after.prog.Quiet allowed post ∧ after.tx = none := by
  obtain ⟨prog, tx, log⟩ := session
  cases prog with
  | stmt s resume =>
      cases interrupted
      exact ⟨quiet.2 _, closed⟩
  | _ => cases interrupted

end Recording

theorem alone_cases {I : Interface} {E : Engine I} {ε α : Type} (net next : Net E ε α 1) (move : Move E 1)
    (stepped : step net move = some next) :
    (move = .turn 0 ∧ (net.sessions 0).advance net.world (others net 0) = some (next.world, next.sessions 0)) ∨
    (∃ fault, move = .fault 0 fault ∧ (net.sessions 0).interrupt fault = some (next.sessions 0) ∧ next.world = net.world) ∨
    (∃ change, move = .drift change ∧ next.world = E.drift net.world change ∧ next.sessions 0 = net.sessions 0) := by
  rcases step_cases net next move stepped with ⟨i, left, session, rfl, advanced, rfl⟩ |
    ⟨i, fault, session, rfl, interrupted, rfl⟩ | ⟨change, rfl, rfl⟩
  · obtain rfl : i = 0 := Subsingleton.elim i 0
    exact .inl ⟨rfl, by rw [advanced]; simp⟩
  · obtain rfl : i = 0 := Subsingleton.elim i 0
    exact .inr (.inl ⟨fault, rfl, by rw [interrupted]; simp, rfl⟩)
  · exact .inr (.inr ⟨change, rfl, rfl, rfl⟩)

end Interleave

namespace ReadCommitted

open Interleave

theorem exec_cmd_error {S : Schema} {C : Commands S.Fault} {Key Lock : Type} [DecidableEq Lock] {hash : Key → Lock}
    (world : World S C) (tx : Tx S Lock) (others : List (Tx S Lock)) (c : C.Cmd) (fault : S.Fault)
    (failed : (engine S C hash).exec world tx others (.cmd c) = .error fault) : C.exec world.store c = .error fault := by
  simp only [engine] at failed
  cases replied : C.exec world.store c with
  | error other =>
      rw [replied] at failed
      cases failed
      rfl
  | ok result =>
      rw [replied] at failed
      cases failed

theorem advance_store {S : Schema} {C : Commands S.Fault} {Key Lock ε α : Type} [DecidableEq Lock] {hash : Key → Lock}
    (world left : World S C) (others : List (Tx S Lock)) (session after : Session (engine S C hash) ε α)
    (advanced : session.advance world others = some (left, after)) :
    ∃ event, after.log = event :: session.log ∧
      ((left.store = world.store ∧ (∀ c reply, event ≠ .ran (.cmd c) (.ok reply)) ∧
          (∀ s reply, event = .ran s reply → session.prog.asked = some s) ∧
          ∀ c fault, event = .ran (.cmd c) (.error fault) → C.exec world.store c = .error fault) ∨
        ∃ c reply, session.prog.asked = some (.cmd c) ∧ event = .ran (.cmd c) (.ok reply) ∧
          C.exec world.store c = .ok (reply, left.store)) := by
  obtain ⟨prog, tx, log⟩ := session
  cases prog with
  | done value => cases advanced
  | throw error => cases advanced
  | beginTx rest =>
      cases advanced
      exact ⟨_, rfl, .inl ⟨rfl, fun _ _ impossible => (by cases impossible),
        fun _ _ impossible => (by cases impossible), fun _ _ impossible => (by cases impossible)⟩⟩
  | rollbackTx rest =>
      cases advanced
      exact ⟨_, rfl, .inl ⟨rfl, fun _ _ impossible => (by cases impossible),
        fun _ _ impossible => (by cases impossible), fun _ _ impossible => (by cases impossible)⟩⟩
  | commitTx rest =>
      cases tx with
      | none =>
          cases advanced
          exact ⟨_, rfl, .inl ⟨rfl, fun _ _ impossible => (by cases impossible),
        fun _ _ impossible => (by cases impossible), fun _ _ impossible => (by cases impossible)⟩⟩
      | some tx =>
          cases advanced
          exact ⟨_, rfl, .inl ⟨rfl, fun _ _ impossible => (by cases impossible),
        fun _ _ impossible => (by cases impossible), fun _ _ impossible => (by cases impossible)⟩⟩
  | stmt s resume =>
      simp only [Session.advance] at advanced
      split at advanced
      · cases advanced
      · split at advanced
        · rename_i fault failed
          cases advanced
          refine ⟨_, rfl, .inl ⟨rfl, fun _ _ impossible => (by cases impossible), fun _ _ same => ?_, fun c other same => ?_⟩⟩
          · cases same
            rfl
          · cases same
            exact exec_cmd_error _ _ _ c fault failed
        · rename_i reply result changed answered
          -- A command is autocommitted or part of a transaction, with the same effect.
          have effect : ∀ session : Session (engine S C hash) ε α, ∀ final : World S C, final.store = changed.store →
              session.log = .ran s (.ok reply) :: log → ∃ event, session.log = event :: log ∧
                ((final.store = world.store ∧ (∀ c reply, event ≠ .ran (.cmd c) (.ok reply)) ∧
                    (∀ s' reply, event = .ran s' reply → (Prog.stmt s resume).asked = some s') ∧
                    ∀ c fault, event = .ran (.cmd c) (.error fault) → C.exec world.store c = .error fault) ∨
                  ∃ c reply, (Prog.stmt s resume).asked = some (.cmd c) ∧ event = .ran (.cmd c) (.ok reply) ∧
                    C.exec world.store c = .ok (reply, final.store)) := by
            intro session final same logged
            refine ⟨_, logged, ?_⟩
            cases s with
            | sql s =>
                obtain ⟨-, -, -, rfl⟩ := exec_sql _ _ _ _ _ s reply answered
                refine .inl ⟨same, fun _ _ impossible => (by cases impossible), fun _ _ same => ?_,
                  fun _ _ impossible => (by cases impossible)⟩
                cases same
                rfl
            | tryLock key =>
                obtain ⟨rfl, -⟩ := exec_try_lock _ _ _ _ _ key reply answered
                refine .inl ⟨same, fun _ _ impossible => (by cases impossible), fun _ _ same => ?_,
                  fun _ _ impossible => (by cases impossible)⟩
                cases same
                rfl
            | cmd c =>
                obtain ⟨-, store, ran, rfl⟩ := exec_cmd _ _ _ _ _ c reply answered
                exact .inr ⟨c, reply, rfl, rfl, by rw [same]; exact ran⟩
          cases tx with
          | none =>
              cases advanced
              exact effect _ _ rfl rfl
          | some tx =>
              cases advanced
              exact effect _ _ rfl rfl

theorem advance_writes {S : Schema} {C : Commands S.Fault} {Key Lock ε α : Type} [DecidableEq Lock] {hash : Key → Lock}
    (P : S.Write → Prop) (world left : World S C) (others : List (Tx S Lock)) (session after : Session (engine S C hash) ε α)
    (before : ∀ w ∈ pending session.tx, P w)
    (attempted : ∀ s, session.prog.asked = some (.sql s) → ∀ rows, ∀ w ∈ S.attempts rows s, P w)
    (advanced : session.advance world others = some (left, after)) :
    (∀ w ∈ pending after.tx, P w) ∧ ∃ ws, (∀ w ∈ ws, P w) ∧ left.db = view S world.db ws := by
  obtain ⟨prog, tx, log⟩ := session
  have nothing : ∀ w ∈ ([] : List S.Write), P w := fun w member => by cases member
  cases prog with
  | done value => cases advanced
  | throw error => cases advanced
  | beginTx rest =>
      cases advanced
      exact ⟨nothing, [], nothing, rfl⟩
  | rollbackTx rest =>
      cases advanced
      exact ⟨nothing, [], nothing, rfl⟩
  | commitTx rest =>
      cases tx with
      | none =>
          cases advanced
          exact ⟨nothing, [], nothing, rfl⟩
      | some tx =>
          cases advanced
          exact ⟨nothing, tx.writes, before, rfl⟩
  | stmt s resume =>
      simp only [Session.advance] at advanced
      split at advanced
      · cases advanced
      · split at advanced
        · cases advanced
          exact ⟨before, [], nothing, rfl⟩
        · rename_i reply result changed answered
          obtain ⟨rows, written⟩ := exec_writes _ _ _ _ _ s reply answered
          have all : ∀ w ∈ result.writes, P w := by
            intro w member
            rcases written with same | ⟨q, rfl, -, same⟩
            · rw [same] at member
              cases tx with
              | none => cases member
              | some tx => exact before w member
            · rw [same, List.mem_append] at member
              rcases member with old | new
              · cases tx with
                | none => cases old
                | some tx => exact before w old
              · exact attempted q rfl _ w new
          cases tx with
          | none =>
              cases advanced
              refine ⟨nothing, result.writes, all, ?_⟩
              show view S changed.db result.writes = _
              rw [rows]
          | some tx =>
              cases advanced
              exact ⟨all, [], nothing, rows⟩

theorem interrupt_pending {S : Schema} {C : Commands S.Fault} {Key Lock ε α : Type} [DecidableEq Lock] {hash : Key → Lock}
    (P : S.Write → Prop) (session after : Session (engine S C hash) ε α) (fault : S.Fault)
    (before : ∀ w ∈ pending session.tx, P w) (interrupted : session.interrupt fault = some after) : ∀ w ∈ pending after.tx, P w := by
  rw [interrupt_tx session after fault interrupted]
  exact before

theorem advance_answer {S : Schema} {C : Commands S.Fault} {Key Lock ε α : Type} [DecidableEq Lock] {hash : Key → Lock}
    (world left : World S C) (others : List (Tx S Lock)) (session after : Session (engine S C hash) ε α)
    (clean : pending session.tx = []) (advanced : session.advance world others = some (left, after)) :
    ∃ event, after.log = event :: session.log ∧ ∀ s answer, event = .ran (.sql s) (.ok answer) → answer = S.answer world.db s := by
  obtain ⟨prog, tx, log⟩ := session
  cases prog with
  | done value => cases advanced
  | throw error => cases advanced
  | beginTx rest =>
      cases advanced
      exact ⟨_, rfl, fun _ _ impossible => by cases impossible⟩
  | rollbackTx rest =>
      cases advanced
      exact ⟨_, rfl, fun _ _ impossible => by cases impossible⟩
  | commitTx rest =>
      cases tx <;> cases advanced <;> exact ⟨_, rfl, fun _ _ impossible => by cases impossible⟩
  | stmt s resume =>
      simp only [Session.advance] at advanced
      split at advanced
      · cases advanced
      · split at advanced
        · cases advanced
          exact ⟨_, rfl, fun _ _ impossible => by cases impossible⟩
        · rename_i reply result changed answered
          have told : ∀ q answer, (Event.ran s (.ok reply) : Event (interface S C Key)) = .ran (.sql q) (.ok answer) →
              answer = S.answer world.db q := by
            intro q answer same
            cases same
            obtain ⟨-, rfl, -, -⟩ := exec_sql _ _ _ _ _ q answer answered
            have seen : view S world.db (tx.getD ⟨[], []⟩).writes = world.db := by
              cases tx with
              | none => rfl
              | some tx =>
                  have empty : tx.writes = [] := clean
                  show view S world.db tx.writes = world.db
                  rw [empty]
                  rfl
            exact congrArg (fun rows => S.answer rows q) seen
          cases tx with
          | none =>
              cases advanced
              exact ⟨_, rfl, told⟩
          | some tx =>
              cases advanced
              exact ⟨_, rfl, told⟩

end ReadCommitted
