import RateWise.Histories
import RateWise.RowRules

set_option autoImplicit false

namespace ReadCommitted

open Interleave

variable {S : Schema} {C : Commands S.Fault} {Key Lock : Type} {ε α β : Type}

def Silent (s : Call S.Sql Key C.Cmd) : Prop := ∀ q, s = .sql q → ∀ rows, S.attempts rows q = []

-- A program that changes rows only by the COMMIT with which it returns;
-- inside says whether it has a transaction open.
def AllOrNothing : Bool → Prog (interface S C Key) ε α → Prop
  | _, .done _ => True
  | _, .throw _ => True
  | inside, .stmt s resume => (inside = false → Silent s) ∧
      ∀ reply, AllOrNothing inside (resume reply)
  | _, .beginTx rest => AllOrNothing true rest
  | _, .commitTx rest => ∃ value, rest = .done value
  | _, .rollbackTx rest => AllOrNothing false rest

def Inside : Prog (interface S C Key) ε α → Prop
  | .done _ => True
  | .throw _ => True
  | .stmt _ resume => ∀ reply, Inside (resume reply)
  | _ => False

theorem all_transaction (body : Prog (interface S C Key) ε α) (inside : Inside body) :
    AllOrNothing false (Prog.transaction body) := by
  show AllOrNothing true body.settled
  induction body with
  | done value => exact ⟨value, rfl⟩
  | throw error => trivial
  | stmt s resume ih => exact ⟨fun impossible => (by cases impossible), fun reply => ih reply (inside reply)⟩
  | beginTx rest => cases inside
  | commitTx rest => cases inside
  | rollbackTx rest => cases inside

theorem all_catching (inside : Bool) (prog : Prog (interface S C Key) ε α) (handler : ε → Prog (interface S C Key) ε α)
    (all : AllOrNothing inside prog) (handled : ∀ open_ error, AllOrNothing open_ (handler error)) :
    AllOrNothing inside (prog.catching handler) := by
  induction prog generalizing inside with
  | done value => trivial
  | throw error => exact handled inside error
  | stmt s resume ih => exact ⟨all.1, fun reply => ih reply inside (all.2 reply)⟩
  | beginTx rest ih => exact ih true all
  | commitTx rest ih =>
      obtain ⟨value, rfl⟩ := all
      exact ⟨value, rfl⟩
  | rollbackTx rest ih => exact ih false all

theorem all_after_reads (prog : Prog (interface S C Key) ε α) (next : α → Prog (interface S C Key) ε β)
    (reads : prog.Quiet Silent fun _ => True)
    (later : ∀ value, AllOrNothing false (next value)) : AllOrNothing false (prog.bind next) := by
  induction prog with
  | done value => exact later value
  | throw error => trivial
  | stmt s resume ih => exact ⟨fun _ => reads.1, fun reply => ih reply (reads.2 reply)⟩
  | beginTx rest => cases reads
  | commitTx rest => cases reads
  | rollbackTx rest => cases reads

variable [DecidableEq Lock] {hash : Key → Lock} {n : Nat}

theorem all_advance (world left : World S C) (others : List (Tx S Lock)) (session after : Session (engine S C hash) ε α)
    (all : AllOrNothing session.tx.isSome session.prog) (advanced : session.advance world others = some (left, after)) :
    AllOrNothing after.tx.isSome after.prog ∧ (left.db = world.db ∨ ∃ value, after.prog = .done value) := by
  obtain ⟨prog, tx, log⟩ := session
  cases prog with
  | done value => cases advanced
  | throw error => cases advanced
  | beginTx rest =>
      cases advanced
      exact ⟨all, .inl rfl⟩
  | rollbackTx rest =>
      cases advanced
      exact ⟨all, .inl rfl⟩
  | commitTx rest =>
      obtain ⟨value, rfl⟩ := all
      cases tx <;> (cases advanced; exact ⟨trivial, .inr ⟨value, rfl⟩⟩)
  | stmt s resume =>
      obtain ⟨silent, onward⟩ := all
      simp only [Session.advance] at advanced
      split at advanced
      · cases advanced
      · split at advanced
        · cases advanced
          exact ⟨onward _, .inl rfl⟩
        · rename_i reply result changed ran
          obtain ⟨rows, written⟩ := exec_writes _ _ _ _ _ s reply ran
          cases tx with
          | some tx =>
              cases advanced
              exact ⟨onward _, .inl rows⟩
          | none =>
              cases advanced
              refine ⟨onward _, .inl ?_⟩
              have nothing : result.writes = [] := by
                rcases written with same | ⟨q, rfl, -, same⟩
                · exact same
                · rw [same, silent rfl q rfl]
                  rfl
              show view S changed.db result.writes = world.db
              rw [nothing]
              exact rows

theorem all_step (net next : Net (engine S C hash) ε α n) (move : Move (engine S C hash) n) (i : Fin n)
    (all : AllOrNothing (net.sessions i).tx.isSome (net.sessions i).prog) (stepped : step net move = some next) :
    AllOrNothing (next.sessions i).tx.isSome (next.sessions i).prog ∧
      (move = .turn i → next.world.db = net.world.db ∨ ∃ value, (next.sessions i).outcome = some (.ok value)) := by
  rcases step_cases net next move stepped with ⟨j, left, session, rfl, advanced, rfl⟩ |
    ⟨j, fault, session, rfl, interrupted, rfl⟩ | ⟨change, rfl, rfl⟩
  · by_cases here : i = j
    · subst here
      obtain ⟨kept, changed⟩ := all_advance net.world left (others net i) (net.sessions i) session all advanced
      refine ⟨by simpa using kept, fun _ => changed.imp (fun same => same) ?_⟩
      rintro ⟨value, ended⟩
      exact ⟨value, by simp [Session.outcome, ended]⟩
    · refine ⟨by simpa [Function.update_of_ne here] using all, fun same => ?_⟩
      cases same
      exact absurd rfl here
  · refine ⟨?_, fun impossible => by cases impossible⟩
    by_cases here : i = j
    · subst here
      simp only [Function.update_self]
      cases prog : (net.sessions i).prog with
      | stmt s resume =>
          rw [Session.interrupt, prog] at interrupted
          rw [prog] at all
          cases interrupted
          exact all.2 _
      | _ =>
          rw [Session.interrupt, prog] at interrupted
          cases interrupted
    · simpa [Function.update_of_ne here] using all
  · exact ⟨all, fun impossible => by cases impossible⟩

theorem all_or_nothing_run (net last : Net (engine S C hash) ε α n) (moves : List (Move (engine S C hash) n)) (i : Fin n)
    (all : AllOrNothing (net.sessions i).tx.isSome (net.sessions i).prog) (ran : run net moves = some last)
    (refused : ∀ value, (last.sessions i).outcome ≠ some (.ok value)) (early late : List (Move (engine S C hash) n))
    (middle next : Net (engine S C hash) ε α n) (split : moves = early ++ .turn i :: late)
    (before : run net early = some middle) (stepped : step middle (.turn i) = some next) :
    next.world.db = middle.world.db := by
  have kept : AllOrNothing (middle.sessions i).tx.isSome (middle.sessions i).prog :=
    run_invariant (fun _ _ => True) (fun other => AllOrNothing (other.sessions i).tx.isSome (other.sessions i).prog)
      (fun net move next holds _ stepped => (all_step net next move i holds stepped).1) net middle early all
      (meets_trivial net early) before
  rcases (all_step middle next (.turn i) i kept stepped).2 rfl with same | ⟨value, succeeded⟩
  · exact same
  · rw [split, run_append, before, Option.bind_some, run, Runs.run, stepped, Option.bind_some] at ran
    have stays := run_ended next last late i (by rw [Finished, succeeded]; exact fun impossible => by cases impossible) ran
    rw [← stays] at succeeded
    exact absurd succeeded (refused value)

end ReadCommitted
