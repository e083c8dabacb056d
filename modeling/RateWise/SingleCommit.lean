import RateWise.AllOrNothing

set_option autoImplicit false

namespace ReadCommitted

open Interleave

variable {S : Schema} {C : Commands S.Fault} {Key Lock : Type} {ε α β : Type}

def Spent (prog : Prog (interface S C Key) ε α) : Prop := prog.Quiet Silent fun _ => True

-- A program that changes rows in one step at most: one COMMIT, or one statement
-- outside of a transaction. inside says whether it has a transaction open.
def CommitsOnce : Bool → Prog (interface S C Key) ε α → Prop
  | _, .done _ => True
  | _, .throw _ => True
  | inside, .stmt s resume => (∀ reply, CommitsOnce inside (resume reply)) ∧
      (inside = false → Silent s ∨ ∀ reply, Spent (resume reply))
  | _, .beginTx rest => CommitsOnce true rest
  | _, .commitTx rest => Spent rest
  | _, .rollbackTx rest => CommitsOnce false rest

section Rules

theorem spent_once (inside : Bool) (prog : Prog (interface S C Key) ε α) (spent : Spent prog) : CommitsOnce inside prog := by
  induction prog with
  | done value => trivial
  | throw error => trivial
  | stmt s resume ih => exact ⟨fun reply => ih reply (spent.2 reply), fun _ => .inl spent.1⟩
  | beginTx rest => cases spent
  | commitTx rest => cases spent
  | rollbackTx rest => cases spent

theorem once_after (post : α → Prop) (prog : Prog (interface S C Key) ε α) (next : α → Prog (interface S C Key) ε β)
    (quiet : prog.Quiet Silent post) (later : ∀ value, CommitsOnce false (next value)) : CommitsOnce false (prog.bind next) := by
  induction prog with
  | done value => exact later value
  | throw error => trivial
  | stmt s resume ih => exact ⟨fun reply => ih reply (quiet.2 reply), fun _ => .inl quiet.1⟩
  | beginTx rest => cases quiet
  | commitTx rest => cases quiet
  | rollbackTx rest => cases quiet

theorem spent_then (prog : Prog (interface S C Key) ε α) (next : α → Prog (interface S C Key) ε β) (spent : Spent prog)
    (later : ∀ value, Spent (next value)) : Spent (prog.bind next) :=
  Prog.quiet_bind _ (fun _ => True) _ _ _ spent fun value _ => later value

theorem once_then (inside : Bool) (prog : Prog (interface S C Key) ε α) (next : α → Prog (interface S C Key) ε β)
    (once : CommitsOnce inside prog) (later : ∀ value, Spent (next value)) : CommitsOnce inside (prog.bind next) := by
  induction prog generalizing inside with
  | done value => exact spent_once inside _ (later value)
  | throw error => trivial
  | stmt s resume ih =>
      exact ⟨fun reply => ih reply inside (once.1 reply), fun outside => (once.2 outside).imp (fun silent => silent)
        fun spent reply => spent_then _ _ (spent reply) later⟩
  | beginTx rest ih => exact ih true once
  | commitTx rest ih => exact spent_then _ _ once later
  | rollbackTx rest ih => exact ih false once

theorem once_catching (inside : Bool) (prog : Prog (interface S C Key) ε α) (handler : ε → Prog (interface S C Key) ε α)
    (once : CommitsOnce inside prog) (handled : ∀ error, Spent (handler error)) : CommitsOnce inside (prog.catching handler) := by
  have caught : ∀ prog : Prog (interface S C Key) ε α, Spent prog → Spent (prog.catching handler) :=
    fun prog spent => Prog.quiet_catching _ _ _ _ spent handled
  induction prog generalizing inside with
  | done value => trivial
  | throw error => exact spent_once inside _ (handled error)
  | stmt s resume ih =>
      exact ⟨fun reply => ih reply inside (once.1 reply), fun outside => (once.2 outside).imp (fun silent => silent)
        fun spent reply => caught _ (spent reply)⟩
  | beginTx rest ih => exact ih true once
  | commitTx rest ih => exact caught _ once
  | rollbackTx rest ih => exact ih false once

theorem once_transaction (body : Prog (interface S C Key) ε α) (inside : Inside body) : CommitsOnce false (Prog.transaction body) := by
  show CommitsOnce true body.settled
  induction body with
  | done value => trivial
  | throw error => trivial
  | stmt s resume ih => exact ⟨fun reply => ih reply (inside reply), fun impossible => by cases impossible⟩
  | beginTx rest => cases inside
  | commitTx rest => cases inside
  | rollbackTx rest => cases inside

theorem inside_then (body : Prog (interface S C Key) ε α) (next : α → Prog (interface S C Key) ε β) (first : Inside body)
    (later : ∀ value, Inside (next value)) : Inside (body.bind next) := by
  induction body with
  | done value => exact later value
  | throw error => trivial
  | stmt s resume ih => exact fun reply => ih reply (first reply)
  | beginTx rest => cases first
  | commitTx rest => cases first
  | rollbackTx rest => cases first

theorem quiet_inside (allowed : (interface S C Key).Stmt → Prop) (post : α → Prop) (body : Prog (interface S C Key) ε α)
    (quiet : body.Quiet allowed post) : Inside body := by
  induction body with
  | done value => trivial
  | throw error => trivial
  | stmt s resume ih => exact fun reply => ih reply (quiet.2 reply)
  | beginTx rest => cases quiet
  | commitTx rest => cases quiet
  | rollbackTx rest => cases quiet

theorem all_then_pure (inside : Bool) (prog : Prog (interface S C Key) ε α) (f : α → β) (all : AllOrNothing inside prog) :
    AllOrNothing inside (prog.bind fun value => .done (f value)) := by
  induction prog generalizing inside with
  | done value => trivial
  | throw error => trivial
  | stmt s resume ih => exact ⟨all.1, fun reply => ih reply inside (all.2 reply)⟩
  | beginTx rest ih => exact ih true all
  | commitTx rest ih =>
      obtain ⟨value, rfl⟩ := all
      exact ⟨f value, rfl⟩
  | rollbackTx rest ih => exact ih false all

end Rules

section Runs

variable [DecidableEq Lock] {hash : Key → Lock} {n : Nat}

def Waits (session : Session (engine S C hash) ε α) : Prop := CommitsOnce session.tx.isSome session.prog

def Ended (session : Session (engine S C hash) ε α) : Prop := session.tx = none ∧ Spent session.prog

theorem once_advance (world left : World S C) (others : List (Tx S Lock)) (session after : Session (engine S C hash) ε α)
    (waits : Waits session) (advanced : session.advance world others = some (left, after)) :
    (left.db = world.db ∧ Waits after) ∨ Ended after := by
  obtain ⟨prog, tx, log⟩ := session
  cases prog with
  | done value => cases advanced
  | throw error => cases advanced
  | beginTx rest =>
      cases advanced
      exact .inl ⟨rfl, waits⟩
  | rollbackTx rest =>
      cases advanced
      exact .inl ⟨rfl, waits⟩
  | commitTx rest => cases tx <;> (cases advanced; exact .inr ⟨rfl, waits⟩)
  | stmt s resume =>
      obtain ⟨onward, outside⟩ := waits
      simp only [Session.advance] at advanced
      split at advanced
      · cases advanced
      · split at advanced
        · cases advanced
          exact .inl ⟨rfl, onward _⟩
        · rename_i reply result changed ran
          obtain ⟨rows, written⟩ := exec_writes _ _ _ _ _ s reply ran
          cases tx with
          | some tx =>
              cases advanced
              exact .inl ⟨rows, onward _⟩
          | none =>
              cases advanced
              rcases outside rfl with silent | spent
              · refine .inl ⟨?_, onward _⟩
                have nothing : result.writes = [] := by
                  rcases written with same | ⟨q, rfl, -, same⟩
                  · exact same
                  · rw [same, silent q rfl]
                    rfl
                show view S changed.db result.writes = world.db
                rw [nothing]
                exact rows
              · exact .inr ⟨rfl, spent _⟩

theorem spent_advance (world left : World S C) (others : List (Tx S Lock)) (session after : Session (engine S C hash) ε α)
    (ended : Ended session) (advanced : session.advance world others = some (left, after)) : left.db = world.db ∧ Ended after := by
  obtain ⟨prog, tx, log⟩ := session
  obtain ⟨rfl, spent⟩ := ended
  cases prog with
  | done value => cases advanced
  | throw error => cases advanced
  | beginTx rest => cases spent
  | rollbackTx rest => cases spent
  | commitTx rest => cases spent
  | stmt s resume =>
      obtain ⟨silent, onward⟩ := spent
      simp only [Session.advance] at advanced
      split at advanced
      · cases advanced
      · split at advanced
        · cases advanced
          exact ⟨rfl, rfl, onward _⟩
        · rename_i reply result changed ran
          obtain ⟨rows, written⟩ := exec_writes _ _ _ _ _ s reply ran
          cases advanced
          refine ⟨?_, rfl, onward _⟩
          have nothing : result.writes = [] := by
            rcases written with same | ⟨q, rfl, -, same⟩
            · exact same
            · rw [same, silent q rfl]
              rfl
          show view S changed.db result.writes = world.db
          rw [nothing]
          exact rows

theorem interrupt_waits (session after : Session (engine S C hash) ε α) (fault : S.Fault)
    (interrupted : session.interrupt fault = some after) :
    (Waits session → Waits after) ∧ (Ended session → Ended after) := by
  obtain ⟨prog, tx, log⟩ := session
  cases prog with
  | stmt s resume =>
      cases interrupted
      exact ⟨fun waits => waits.1 _, fun ended => ⟨ended.1, ended.2.2 _⟩⟩
  | _ => cases interrupted

theorem once_step (net next : Net (engine S C hash) ε α n) (move : Move (engine S C hash) n) (i : Fin n)
    (stepped : step net move = some next) :
    (Waits (net.sessions i) → (move = .turn i → next.world.db = net.world.db) ∧ Waits (next.sessions i) ∨ Ended (next.sessions i)) ∧
    (Ended (net.sessions i) → (move = .turn i → next.world.db = net.world.db) ∧ Ended (next.sessions i)) := by
  rcases step_cases net next move stepped with ⟨j, left, session, rfl, advanced, rfl⟩ |
    ⟨j, fault, session, rfl, interrupted, rfl⟩ | ⟨change, rfl, rfl⟩
  · by_cases here : i = j
    · subst here
      simp only [Function.update_self]
      refine ⟨fun waits => ?_, fun ended => ?_⟩
      · exact (once_advance net.world left _ _ session waits advanced).imp (fun kept => ⟨fun _ => kept.1, kept.2⟩) fun ended => ended
      · exact (spent_advance net.world left _ _ session ended advanced).imp (fun same _ => same) fun ended => ended
    · have elsewhere : (Move.turn j : Move (engine S C hash) n) ≠ .turn i := fun same => here (by cases same; rfl)
      simp only [Function.update_of_ne here]
      exact ⟨fun waits => .inl ⟨fun same => absurd same elsewhere, waits⟩, fun ended => ⟨fun same => absurd same elsewhere, ended⟩⟩
  · by_cases here : i = j
    · subst here
      simp only [Function.update_self]
      obtain ⟨waiting, ending⟩ := interrupt_waits _ session fault interrupted
      exact ⟨fun waits => .inl ⟨fun _ => trivial, waiting waits⟩, fun ended => ⟨fun _ => trivial, ending ended⟩⟩
    · simp only [Function.update_of_ne here]
      exact ⟨fun waits => .inl ⟨fun _ => trivial, waits⟩, fun ended => ⟨fun _ => trivial, ended⟩⟩
  · exact ⟨fun waits => .inl ⟨fun _ => rfl, waits⟩, fun ended => ⟨fun _ => rfl, ended⟩⟩

theorem commits_once_run (net before changed after last : Net (engine S C hash) ε α n)
    (early between : List (Move (engine S C hash) n)) (i : Fin n) (waits : Waits (net.sessions i))
    (first : run net early = some before) (turned : step before (.turn i) = some changed)
    (differs : changed.world.db ≠ before.world.db) (later : run changed between = some after)
    (again : step after (.turn i) = some last) : last.world.db = after.world.db := by
  have open_ : Waits (before.sessions i) ∨ Ended (before.sessions i) :=
    run_invariant (fun _ _ => True) (fun net => Waits (net.sessions i) ∨ Ended (net.sessions i)) (fun net move next holds _ stepped => by
      obtain ⟨waiting, ending⟩ := once_step net next move i stepped
      rcases holds with waits | ended
      · exact (waiting waits).imp (fun kept => kept.2) fun ended => ended
      · exact .inr (ending ended).2) net before early (.inl waits) (meets_trivial net early) first
  have closed : Ended (changed.sessions i) := by
    obtain ⟨waiting, ending⟩ := once_step before changed _ i turned
    rcases open_ with waits | ended
    · rcases waiting waits with ⟨same, -⟩ | ended
      · exact absurd (same rfl) differs
      · exact ended
    · exact (ending ended).2
  have stays : Ended (after.sessions i) :=
    run_invariant (fun _ _ => True) (fun net => Ended (net.sessions i)) (fun net move next ended _ stepped =>
      ((once_step net next move i stepped).2 ended).2) changed after between closed (meets_trivial changed between) later
  exact ((once_step after last _ i again).2 stays).1 rfl

end Runs

end ReadCommitted
