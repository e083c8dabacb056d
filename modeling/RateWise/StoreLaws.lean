import RateWise.RowLaws

set_option autoImplicit false

namespace Interleave

section Heeding

variable {I : Interface} {ε α β : Type} {allowed other : I.Stmt → Prop} {credible : (s : I.Stmt) → I.Reply s → Prop}

theorem heeds_judged (post : α → Prop) (prog : Prog I ε α) (heeds : prog.Heeds allowed credible post)
    (sends : prog.Sends other) : prog.Heeds other credible post := by
  induction prog with
  | done value => exact heeds
  | throw error => trivial
  | stmt s resume ih =>
      exact ⟨sends.1, fun fault => ih _ (heeds.2.1 fault) (sends.2 _), fun reply likely => ih _ (heeds.2.2 reply likely) (sends.2 _)⟩
  | beginTx rest ih => exact ih heeds sends
  | commitTx rest ih => exact ih heeds sends
  | rollbackTx rest ih => exact ih heeds sends

end Heeding

end Interleave

namespace ReadCommitted

open Interleave

structure StoreRule {Fault : Type} (C : Commands Fault) where
  Holds : C.Store → Prop
  Proper : C.Cmd → Prop
  holds_exec : ∀ store c reply left, Holds store → Proper c → C.exec store c = .ok (reply, left) → Holds left
  holds_drift : ∀ store change, Holds store → Holds (C.drift store change)

namespace StoreRule

variable {S : Schema} {C : Commands S.Fault} {Key Lock : Type}

def Permits (K : StoreRule C) : (interface S C Key).Stmt → Prop
  | .cmd c => K.Proper c
  | _ => True

-- The program keeps the law of the store as long as the rows that it reads are
-- those of lawful transactions.
def Serves {ε α : Type} (K : StoreRule C) (R : RowRule S) (prog : Prog (interface S C Key) ε α) : Prop :=
  prog.Heeds K.Permits R.Credible fun _ => True

section Rules

variable {ε α β : Type} (K : StoreRule C) (R : RowRule S)

theorem serves_then (first : Prog (interface S C Key) ε α) (next : α → Prog (interface S C Key) ε β)
    (serves : K.Serves R first) (later : ∀ value, K.Serves R (next value)) : K.Serves R (first.bind next) :=
  heeds_bind (fun _ => True) _ first next serves fun value _ => later value

end Rules

section Runs

variable [DecidableEq Lock] {hash : Key → Lock} {ε α : Type}

theorem exec_holds (K : StoreRule C) (world left : World S C) (tx after : Tx S Lock) (others : List (Tx S Lock))
    (s : Call S.Sql Key C.Cmd) (reply : (interface S C Key).Reply s) (holds : K.Holds world.store)
    (permitted : @Permits S C Key K s) (ran : (engine S C hash).exec world tx others s = .ok (reply, after, left)) :
    K.Holds left.store := by
  cases s with
  | sql q =>
      simp only [engine] at ran
      split at ran
      · cases ran
      · cases ran
        exact holds
  | tryLock key =>
      simp only [engine] at ran
      split at ran <;> (cases ran; exact holds)
  | cmd c =>
      simp only [engine] at ran
      split at ran
      · cases ran
      · rename_i answered store executed
        cases ran
        exact K.holds_exec world.store c reply store holds permitted executed

theorem serve_advance (K : StoreRule C) (R : RowRule S) (world left : World S C) (others : List (Tx S Lock))
    (session after : Session (engine S C hash) ε α) (good : R.Good world.db) (lawful : ∀ w ∈ pending session.tx, R.Lawful w)
    (holds : K.Holds world.store) (serves : K.Serves R session.prog)
    (advanced : session.advance world others = some (left, after)) : K.Holds left.store ∧ K.Serves R after.prog := by
  obtain ⟨prog, tx, log⟩ := session
  cases prog with
  | done value => cases advanced
  | throw error => cases advanced
  | beginTx rest =>
      cases advanced
      exact ⟨holds, serves⟩
  | rollbackTx rest =>
      cases advanced
      exact ⟨holds, serves⟩
  | commitTx rest =>
      cases tx <;> (cases advanced; exact ⟨holds, serves⟩)
  | stmt s resume =>
      obtain ⟨permitted, failed, answered⟩ := serves
      simp only [Session.advance] at advanced
      split at advanced
      · cases advanced
      · split at advanced
        · cases advanced
          exact ⟨holds, failed _⟩
        · rename_i reply result changed ran
          have own : ∀ w ∈ (tx.getD (engine S C hash).empty).writes, R.Lawful w := by
            cases tx with
            | none => exact fun w none => by cases none
            | some tx => exact lawful
          have likely := R.credible_reply _ _ _ _ _ s reply good own ran
          have kept := K.exec_holds world changed _ result others s reply holds permitted ran
          cases tx <;> (cases advanced; exact ⟨kept, answered reply likely⟩)

structure Served {n : Nat} (K : StoreRule C) (R : RowRule S) (net : Net (engine S C hash) ε α n) : Prop where
  upheld : R.UpheldIn net
  store : K.Holds net.world.store
  programs : ∀ i, K.Serves R (net.sessions i).prog

theorem step_served {n : Nat} (K : StoreRule C) (R : RowRule S) (net next : Net (engine S C hash) ε α n)
    (move : Move (engine S C hash) n) (served : K.Served R net) (stepped : step net move = some next) : K.Served R next := by
  have upheld := R.step_upheld_in net next move served.upheld stepped
  rcases step_cases net next move stepped with ⟨i, left, session, rfl, advanced, rfl⟩ |
    ⟨i, fault, session, rfl, interrupted, rfl⟩ | ⟨change, rfl, rfl⟩
  · obtain ⟨kept, program⟩ := K.serve_advance R net.world left (others net i) (net.sessions i) session served.upheld.rows
      (served.upheld.changes i) served.store (served.programs i) advanced
    refine ⟨upheld, kept, fun j => ?_⟩
    by_cases here : j = i
    · subst here
      simpa using program
    · simpa [here] using served.programs j
  · have program : K.Serves R session.prog := by
      have serves := served.programs i
      cases prog : (net.sessions i).prog with
      | stmt s resume =>
          rw [Session.interrupt, prog] at interrupted
          rw [prog] at serves
          cases interrupted
          exact serves.2.1 fault
      | _ =>
          rw [Session.interrupt, prog] at interrupted
          cases interrupted
    refine ⟨upheld, served.store, fun j => ?_⟩
    by_cases here : j = i
    · subst here
      simpa using program
    · simpa [here] using served.programs j
  · exact ⟨upheld, K.holds_drift _ change served.store, served.programs⟩

theorem run_served {n : Nat} (K : StoreRule C) (R : RowRule S) (net last : Net (engine S C hash) ε α n)
    (moves : List (Move (engine S C hash) n)) (served : K.Served R net) (ran : run net moves = some last) : K.Served R last :=
  run_invariant (fun _ _ => True) (K.Served R)
    (fun net move next before _ stepped => K.step_served R net next move before stepped) net last moves served
    (meets_trivial net moves) ran

end Runs

end StoreRule

end ReadCommitted
