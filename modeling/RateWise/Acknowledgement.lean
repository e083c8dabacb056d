import RateWise.RowLaws

set_option autoImplicit false

namespace ReadCommitted

open Interleave

variable {S : Schema} {C : Commands S.Fault} {Key Lock : Type} {ε α β : Type}

def Makes (change : S.Write → Prop) : (interface S C Key).Stmt → Prop
  | .sql q => ∀ rows, S.refuses rows q = none → ∃ w ∈ S.attempts rows q, change w
  | _ => False

-- A program that returns only after the COMMIT of such a change. inside says
-- whether it has a transaction open, made that the change is in its redo log.
def Delivers (change : S.Write → Prop) : Bool → Prop → Prog (interface S C Key) ε α → Prop
  | _, _, .done _ => False
  | _, _, .throw _ => True
  | inside, made, .stmt s resume => (∀ fault, Delivers change inside made (resume (.error fault))) ∧
      ∀ reply, Delivers change inside (made ∨ (inside = true ∧ Makes change s)) (resume (.ok reply))
  | _, _, .beginTx rest => Delivers change true False rest
  | _, made, .commitTx rest => made ∨ Delivers change false False rest
  | _, _, .rollbackTx rest => Delivers change false False rest

section Rules

variable (change : S.Write → Prop)

theorem delivers_after (inside : Bool) (made : Prop) (allowed : (interface S C Key).Stmt → Prop) (post : α → Prop)
    (prog : Prog (interface S C Key) ε α) (next : α → Prog (interface S C Key) ε β) (quiet : prog.Quiet allowed post)
    (later : ∀ value, post value → ∀ made, Delivers change inside made (next value)) :
    Delivers change inside made (prog.bind next) := by
  induction prog generalizing made with
  | done value => exact later value quiet made
  | throw error => trivial
  | stmt s resume ih => exact ⟨fun fault => ih _ _ (quiet.2 _), fun reply => ih _ _ (quiet.2 _)⟩
  | beginTx rest => cases quiet
  | commitTx rest => cases quiet
  | rollbackTx rest => cases quiet

theorem delivers_then (inside : Bool) (made : Prop) (prog : Prog (interface S C Key) ε α)
    (next : α → Prog (interface S C Key) ε β) (delivers : Delivers change inside made prog) :
    Delivers change inside made (prog.bind next) := by
  induction prog generalizing inside made with
  | done value => exact False.elim delivers
  | throw error => trivial
  | stmt s resume ih => exact ⟨fun fault => ih _ _ _ (delivers.1 fault), fun reply => ih _ _ _ (delivers.2 reply)⟩
  | beginTx rest ih => exact ih true False delivers
  | commitTx rest ih => exact delivers.imp (fun made => made) fun rest => ih false False rest
  | rollbackTx rest ih => exact ih false False delivers

theorem delivers_catching (inside : Bool) (made : Prop) (prog : Prog (interface S C Key) ε α)
    (handler : ε → Prog (interface S C Key) ε α) (delivers : Delivers change inside made prog)
    (rethrows : ∀ error inside made, Delivers change inside made (handler error)) :
    Delivers change inside made (prog.catching handler) := by
  induction prog generalizing inside made with
  | done value => exact False.elim delivers
  | throw error => exact rethrows error inside made
  | stmt s resume ih => exact ⟨fun fault => ih _ _ _ (delivers.1 fault), fun reply => ih _ _ _ (delivers.2 reply)⟩
  | beginTx rest ih => exact ih true False delivers
  | commitTx rest ih => exact delivers.imp (fun made => made) fun rest => ih false False rest
  | rollbackTx rest ih => exact ih false False delivers

end Rules

section Runs

variable [DecidableEq Lock] {hash : Key → Lock} {n : Nat}

def Pledged (change : S.Write → Prop) (session : Session (engine S C hash) ε α) : Prop :=
  ∃ made : Prop, Delivers change session.tx.isSome made session.prog ∧ (made → ∃ w ∈ pending session.tx, change w)

theorem exec_makes (change : S.Write → Prop) (world left : World S C) (tx after : Tx S Lock) (others : List (Tx S Lock))
    (s : Call S.Sql Key C.Cmd) (reply : (interface S C Key).Reply s)
    (ran : (engine S C hash).exec world tx others s = .ok (reply, after, left)) :
    (∀ w ∈ tx.writes, w ∈ after.writes) ∧ (@Makes S C Key change s → ∃ w ∈ after.writes, change w) := by
  cases s with
  | sql q =>
      simp only [engine] at ran
      cases refused : S.refuses (view S world.db tx.writes) q with
      | some fault => simp [refused] at ran
      | none =>
          rw [refused] at ran
          cases ran
          refine ⟨fun w written => List.mem_append_left _ written, fun makes => ?_⟩
          obtain ⟨w, attempted, of⟩ := makes _ refused
          exact ⟨w, List.mem_append_right _ attempted, of⟩
  | tryLock key =>
      simp only [engine] at ran
      split at ran <;> (cases ran; exact ⟨fun w written => written, fun makes => makes.elim⟩)
  | cmd c =>
      simp only [engine] at ran
      split at ran
      · cases ran
      · cases ran
        exact ⟨fun w written => written, fun makes => makes.elim⟩

theorem pledge_advance (change : S.Write → Prop) (world left : World S C) (others : List (Tx S Lock))
    (session after : Session (engine S C hash) ε α) (pledged : Pledged change session)
    (advanced : session.advance world others = some (left, after)) :
    Pledged change after ∨ ∃ tx, session.tx = some tx ∧ left.db = view S world.db tx.writes ∧ ∃ w ∈ tx.writes, change w := by
  obtain ⟨prog, tx, log⟩ := session
  obtain ⟨made, delivers, logged⟩ := pledged
  cases prog with
  | done value => cases advanced
  | throw error => cases advanced
  | beginTx rest =>
      cases advanced
      exact .inl ⟨False, delivers, False.elim⟩
  | rollbackTx rest =>
      cases advanced
      exact .inl ⟨False, delivers, False.elim⟩
  | commitTx rest =>
      rcases delivers with done | rest
      · obtain ⟨w, written, of⟩ := logged done
        cases tx with
        | none => cases written
        | some tx =>
            cases advanced
            exact .inr ⟨tx, rfl, rfl, w, written, of⟩
      · cases tx <;> (cases advanced; exact .inl ⟨False, rest, False.elim⟩)
  | stmt s resume =>
      obtain ⟨failed, answered⟩ := delivers
      simp only [Session.advance] at advanced
      split at advanced
      · cases advanced
      · split at advanced
        · cases advanced
          exact .inl ⟨made, failed _, logged⟩
        · rename_i reply result changed ran
          obtain ⟨grows, makes⟩ := exec_makes change world changed _ result others s reply ran
          cases tx with
          | none =>
              cases advanced
              refine .inl ⟨_, answered reply, fun either => ?_⟩
              rcases either with done | ⟨impossible, -⟩
              · obtain ⟨w, written, -⟩ := logged done
                cases written
              · cases impossible
          | some tx =>
              cases advanced
              refine .inl ⟨_, answered reply, fun either => ?_⟩
              rcases either with done | ⟨-, made⟩
              · obtain ⟨w, written, of⟩ := logged done
                exact ⟨w, grows w written, of⟩
              · exact makes made

theorem pledge_interrupt (change : S.Write → Prop) (session after : Session (engine S C hash) ε α) (fault : S.Fault)
    (pledged : Pledged change session) (interrupted : session.interrupt fault = some after) : Pledged change after := by
  obtain ⟨prog, tx, log⟩ := session
  obtain ⟨made, delivers, logged⟩ := pledged
  cases prog with
  | stmt s resume =>
      cases interrupted
      exact ⟨made, delivers.1 fault, logged⟩
  | _ => cases interrupted

def Bound (own : RowRule S) (session : Session (engine S C hash) ε α) : Prop :=
  own.ObeysIn session.prog ∧ ∀ w ∈ pending session.tx, own.Lawful w

theorem bound_step (R own : RowRule S) (shared : ∀ db, R.Good db → own.Good db) (net next : Net (engine S C hash) ε α n)
    (move : Move (engine S C hash) n) (i : Fin n) (upheld : R.UpheldIn net) (bound : Bound own (net.sessions i))
    (stepped : step net move = some next) : Bound own (next.sessions i) := by
  rcases step_cases net next move stepped with ⟨j, left, session, rfl, advanced, rfl⟩ |
    ⟨j, fault, session, rfl, interrupted, rfl⟩ | ⟨drifted, rfl, rfl⟩
  · by_cases here : i = j
    · subst here
      obtain ⟨-, changes, obeys⟩ := own.law_advance _ net.world left _ _ session (shared _ upheld.rows) bound.2 bound.1 advanced
        fun _ _ _ allowed => allowed
      simpa [Bound] using ⟨obeys, changes⟩
    · simpa [here] using bound
  · by_cases here : i = j
    · subst here
      have obeys := own.law_interrupt _ _ session fault bound.1 interrupted
      have changes := interrupt_pending own.Lawful _ session fault bound.2 interrupted
      simpa [Bound] using ⟨obeys, changes⟩
    · simpa [here] using bound
  · exact bound

section Landing

variable (R own : RowRule S) (shared : ∀ db, R.Good db → own.Good db) (change : S.Write → Prop) (Q : S.Db → Prop)
  (lands : ∀ db w, R.Good db → own.Lawful w → change w → Q (S.apply db w))
  (kept : ∀ db w, R.Good db → R.Lawful w → Q db → Q (S.apply db w))

include lands kept

theorem change_lands (db : S.Db) (ws : List S.Write) (good : R.Good db) (lawful : ∀ w ∈ ws, R.Lawful w)
    (bound : ∀ w ∈ ws, own.Lawful w) (made : ∃ w ∈ ws, change w) : Q (view S db ws) := by
  induction ws generalizing db with
  | nil =>
      obtain ⟨w, none, -⟩ := made
      cases none
  | cons w rest ih =>
      obtain ⟨x, member, of⟩ := made
      have others : ∀ x ∈ rest, R.Lawful x := fun x later => lawful x (by simp [later])
      have next := R.good_apply db w good (lawful w (by simp))
      rcases List.mem_cons.mp member with rfl | later
      · exact ((R.also Q kept).good_view _ rest ⟨next, lands db x good (bound x (by simp)) of⟩ others).2
      · exact ih _ next others (fun x later => bound x (by simp [later])) ⟨x, later, of⟩

theorem pledge_step (net next : Net (engine S C hash) ε α n) (move : Move (engine S C hash) n) (i : Fin n)
    (upheld : R.UpheldIn net) (bound : Bound own (net.sessions i)) (pledged : Pledged change (net.sessions i))
    (stepped : step net move = some next) : Pledged change (next.sessions i) ∨ Q next.world.db := by
  rcases step_cases net next move stepped with ⟨j, left, session, rfl, advanced, rfl⟩ |
    ⟨j, fault, session, rfl, interrupted, rfl⟩ | ⟨drifted, rfl, rfl⟩
  · by_cases here : i = j
    · subst here
      rcases pledge_advance change net.world left _ _ session pledged advanced with still | ⟨tx, opened, rows, made⟩
      · exact .inl (by simpa using still)
      · have lawful := upheld.changes i
        have mine := bound.2
        rw [opened] at lawful mine
        refine .inr ?_
        show Q left.db
        rw [rows]
        exact change_lands R own change Q lands kept _ _ upheld.rows lawful mine made
    · exact .inl (by simpa [here] using pledged)
  · by_cases here : i = j
    · subst here
      exact .inl (by simpa using pledge_interrupt change _ session fault pledged interrupted)
    · exact .inl (by simpa [here] using pledged)
  · exact .inl pledged

include shared

-- Once a session has its result, what its change brings about holds, and goes
-- on to hold as long as the changes of the others keep it.
theorem run_acknowledged (net last : Net (engine S C hash) ε α n) (moves : List (Move (engine S C hash) n)) (i : Fin n)
    (value : α) (upheld : R.UpheldIn net) (bound : Bound own (net.sessions i)) (pledged : Pledged change (net.sessions i))
    (ran : run net moves = some last) (returned : (last.sessions i).outcome = some (.ok value)) : Q last.world.db := by
  have invariant := run_invariant (fun _ _ => True)
    (fun net => (R.UpheldIn net ∧ Bound own (net.sessions i)) ∧ (Pledged change (net.sessions i) ∨ Q net.world.db))
    (fun net move next holds _ stepped => by
      obtain ⟨⟨before, bound⟩, state⟩ := holds
      refine ⟨⟨R.step_upheld_in net next move before stepped, bound_step R own shared net next move i before bound stepped⟩, ?_⟩
      rcases state with pledged | reached
      · exact pledge_step R own change Q lands kept net next move i before bound pledged stepped
      · exact .inr (R.run_kept Q kept net next [move] before reached (by simp [Runs.run, stepped])))
    net last moves ⟨⟨upheld, bound⟩, .inl pledged⟩ (meets_trivial net moves) ran
  rcases invariant.2 with ⟨made, delivers, -⟩ | holds
  · cases prog : (last.sessions i).prog with
    | done result =>
        rw [prog] at delivers
        exact False.elim delivers
    | _ => simp [Session.outcome, prog] at returned
  · exact holds

end Landing

end Runs

end ReadCommitted
