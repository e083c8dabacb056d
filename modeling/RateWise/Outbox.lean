import RateWise.ChartedSteps
import RateWise.StoreLaws

set_option autoImplicit false

namespace Interleave

section Heeding

variable {I : Interface} {ε α : Type} {allowed : I.Stmt → Prop} {credible : (s : I.Stmt) → I.Reply s → Prop}

theorem heeds_every (every : ∀ s, allowed s) (prog : Prog I ε α) : prog.Heeds allowed credible fun _ => True := by
  induction prog with
  | done value => trivial
  | throw error => trivial
  | stmt s resume ih => exact ⟨every s, fun fault => ih _, fun reply _ => ih _⟩
  | beginTx rest ih => exact ih
  | commitTx rest ih => exact ih
  | rollbackTx rest ih => exact ih

end Heeding

end Interleave

namespace ReadCommitted

open Interleave

variable {S : Schema} {C : Commands S.Fault} {Key Lock : Type} {ε α : Type}

-- A fact about the store that no command and no delay undoes.
structure Permanent {Fault : Type} (C : Commands Fault) (Q : C.Store → Prop) : Prop where
  exec : ∀ store c reply left, Q store → C.exec store c = .ok (reply, left) → Q left
  drift : ∀ store change, Q store → Q (C.drift store change)

def Permanent.rule {Q : C.Store → Prop} (permanent : Permanent C Q) : StoreRule C where
  Holds := Q
  Proper _ := True
  holds_exec store c reply left holds _ ran := permanent.exec store c reply left holds ran
  holds_drift := permanent.drift

def Commanded (wanted : C.Cmd → Prop) (s : Call S.Sql Key C.Cmd) : Prop := ∃ c, s = .cmd c ∧ wanted c

-- A program that does not return before a wanted command has been carried out,
-- as long as the rows that it reads are those of lawful transactions.
def Owes (R : RowRule S) (wanted : C.Cmd → Prop) (prog : Prog (interface S C Key) ε α) : Prop :=
  prog.Heeds (fun _ => True) (fun s reply => R.Credible s reply ∧ ¬ Commanded wanted s) fun _ => False

section Runs

variable [DecidableEq Lock] {hash : Key → Lock} {n : Nat} (R : RowRule S) (wanted : C.Cmd → Prop) (Q : C.Store → Prop)
  (made : ∀ store c reply left, wanted c → C.exec store c = .ok (reply, left) → Q left)

include made

theorem owes_advance (world left : World S C) (others : List (Tx S Lock)) (session after : Session (engine S C hash) ε α)
    (good : R.Good world.db) (lawful : ∀ w ∈ pending session.tx, R.Lawful w) (owes : Owes R wanted session.prog)
    (advanced : session.advance world others = some (left, after)) : Q left.store ∨ Owes R wanted after.prog := by
  obtain ⟨prog, tx, log⟩ := session
  cases prog with
  | done value => cases advanced
  | throw error => cases advanced
  | beginTx rest =>
      cases advanced
      exact .inr owes
  | rollbackTx rest =>
      cases advanced
      exact .inr owes
  | commitTx rest => cases tx <;> (cases advanced; exact .inr owes)
  | stmt s resume =>
      obtain ⟨-, failed, answered⟩ := owes
      simp only [Session.advance] at advanced
      split at advanced
      · cases advanced
      · split at advanced
        · cases advanced
          exact .inr (failed _)
        · rename_i reply result changed ran
          by_cases commanded : Commanded wanted s
          · obtain ⟨c, rfl, want⟩ := commanded
            obtain ⟨-, store, executed, rfl⟩ := exec_cmd world changed _ result others c reply ran
            have sent := made world.store c reply store want executed
            cases tx <;> (cases advanced; exact .inl sent)
          · have own : ∀ w ∈ (tx.getD (engine S C hash).empty).writes, R.Lawful w := by
              cases tx with
              | none => exact fun w none => by cases none
              | some tx => exact lawful
            have likely := R.credible_reply _ _ _ _ _ s reply good own ran
            cases tx <;> (cases advanced; exact .inr (answered reply ⟨likely, commanded⟩))

theorem owes_step (permanent : Permanent C Q) (net next : Net (engine S C hash) ε α n) (move : Move (engine S C hash) n)
    (i : Fin n) (upheld : R.UpheldIn net) (state : Q net.world.store ∨ Owes R wanted (net.sessions i).prog)
    (stepped : step net move = some next) : Q next.world.store ∨ Owes R wanted (next.sessions i).prog := by
  rcases state with holds | owes
  · have served : permanent.rule.Served R net := ⟨upheld, holds, fun j => heeds_every (fun s => by cases s <;> trivial) _⟩
    exact .inl (permanent.rule.step_served R net next move served stepped).store
  · rcases step_cases net next move stepped with ⟨j, left, session, rfl, advanced, rfl⟩ |
      ⟨j, fault, session, rfl, interrupted, rfl⟩ | ⟨change, rfl, rfl⟩
    · by_cases here : i = j
      · subst here
        rcases owes_advance R wanted Q made net.world left _ _ session upheld.rows (upheld.changes i) owes advanced with sent | still
        · exact .inl sent
        · exact .inr (by simpa using still)
      · exact .inr (by simpa [Function.update_of_ne here] using owes)
    · refine .inr ?_
      by_cases here : i = j
      · subst here
        simp only [Function.update_self]
        cases prog : (net.sessions i).prog with
        | stmt s resume =>
            rw [Session.interrupt, prog] at interrupted
            rw [prog] at owes
            cases interrupted
            exact owes.2.1 fault
        | _ =>
            rw [Session.interrupt, prog] at interrupted
            cases interrupted
      · simpa [Function.update_of_ne here] using owes
    · exact .inr owes

theorem run_delivered (permanent : Permanent C Q) (net last : Net (engine S C hash) ε α n) (moves : List (Move (engine S C hash) n))
    (i : Fin n) (value : α) (upheld : R.UpheldIn net) (owes : Owes R wanted (net.sessions i).prog)
    (ran : run net moves = some last) (returned : (last.sessions i).outcome = some (.ok value)) : Q last.world.store := by
  have invariant := run_invariant (fun _ _ => True)
    (fun net => R.UpheldIn net ∧ (Q net.world.store ∨ Owes R wanted (net.sessions i).prog))
    (fun net move next ⟨upheld, state⟩ _ stepped => ⟨R.step_upheld_in net next move upheld stepped,
      owes_step R wanted Q made permanent net next move i upheld state stepped⟩) net last moves ⟨upheld, .inr owes⟩
    (meets_trivial net moves) ran
  rcases invariant.2 with sent | still
  · exact sent
  · cases prog : (last.sessions i).prog with
    | done result =>
        rw [prog] at still
        exact False.elim still
    | _ => simp [Session.outcome, prog] at returned

end Runs

end ReadCommitted
