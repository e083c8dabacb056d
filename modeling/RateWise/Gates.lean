import RateWise.AllOrNothing

set_option autoImplicit false

namespace ReadCommitted

open Interleave

variable {S : Schema} {C : Commands S.Fault} {Key Lock : Type} {ε α : Type}

-- A program that changes no row and does not return as long as the gate is
-- closed: as long as no reply to its statements opens it.
def Gated (opens : (s : (interface S C Key).Stmt) → (interface S C Key).Reply s → Prop) (prog : Prog (interface S C Key) ε α) :
    Prop :=
  prog.Heeds Silent (fun s reply => ¬ opens s reply) fun _ => False

section Runs

variable [DecidableEq Lock] {hash : Key → Lock} {n : Nat}

def TakesEffect (net : Net (engine S C hash) ε α n) (i : Fin n) : Prop :=
  (∃ value, (net.sessions i).outcome = some (.ok value)) ∨
    ∃ next, step net (.turn i) = some next ∧ next.world.db ≠ net.world.db

def Earlier (net : Net (engine S C hash) ε α n) (moves : List (Move (engine S C hash) n)) (Shows : World S C → Prop) : Prop :=
  ∃ early late middle, moves = early ++ late ∧ run net early = some middle ∧ Shows middle.world

section Gate

variable (opens : (s : (interface S C Key).Stmt) → (interface S C Key).Reply s → Prop) (Shows : World S C → Prop)

def Gatekept (session : Session (engine S C hash) ε α) : Prop := Gated opens session.prog ∧ pending session.tx = []

variable (faithful : ∀ (world left : World S C) (tx after : Tx S Lock) (others : List (Tx S Lock)) s reply,
  (engine S C hash).exec world tx others s = .ok (reply, after, left) → opens s reply → Shows world)

include faithful

theorem gatekept_advance (world left : World S C) (others : List (Tx S Lock)) (session after : Session (engine S C hash) ε α)
    (waits : Gatekept opens session) (advanced : session.advance world others = some (left, after)) :
    Shows world ∨ (Gatekept opens after ∧ left.db = world.db) := by
  obtain ⟨prog, tx, log⟩ := session
  obtain ⟨gated, clean⟩ := waits
  cases prog with
  | done value => cases advanced
  | throw error => cases advanced
  | beginTx rest =>
      cases advanced
      exact .inr ⟨⟨gated, rfl⟩, rfl⟩
  | rollbackTx rest =>
      cases advanced
      exact .inr ⟨⟨gated, rfl⟩, rfl⟩
  | commitTx rest =>
      cases tx with
      | none =>
          cases advanced
          exact .inr ⟨⟨gated, rfl⟩, rfl⟩
      | some tx =>
          cases advanced
          have nothing : tx.writes = [] := clean
          refine .inr ⟨⟨gated, rfl⟩, ?_⟩
          show view S world.db tx.writes = world.db
          rw [nothing]
          rfl
  | stmt s resume =>
      obtain ⟨silent, failed, answered⟩ := gated
      simp only [Session.advance] at advanced
      split at advanced
      · cases advanced
      · split at advanced
        · cases advanced
          exact .inr ⟨⟨failed _, clean⟩, rfl⟩
        · rename_i reply result changed ran
          by_cases opened : opens s reply
          · exact .inl (faithful _ _ _ _ _ s reply ran opened)
          · obtain ⟨rows, written⟩ := exec_writes _ _ _ _ _ s reply ran
            have before : (tx.getD (engine S C hash).empty).writes = [] := by
              cases tx with
              | none => rfl
              | some tx => exact clean
            have nothing : result.writes = [] := by
              rcases written with same | ⟨q, rfl, -, same⟩
              · rw [same, before]
              · rw [same, silent q rfl, before]
                rfl
            cases tx with
            | some tx =>
                cases advanced
                exact .inr ⟨⟨answered reply opened, nothing⟩, rows⟩
            | none =>
                cases advanced
                refine .inr ⟨⟨answered reply opened, rfl⟩, ?_⟩
                show view S changed.db result.writes = world.db
                rw [nothing]
                exact rows

theorem gatekept_step (net next : Net (engine S C hash) ε α n) (move : Move (engine S C hash) n) (i : Fin n)
    (waits : Gatekept opens (net.sessions i)) (stepped : step net move = some next) :
    Shows net.world ∨ (Gatekept opens (next.sessions i) ∧ (move = .turn i → next.world.db = net.world.db)) := by
  rcases step_cases net next move stepped with ⟨j, left, session, rfl, advanced, rfl⟩ |
    ⟨j, fault, session, rfl, interrupted, rfl⟩ | ⟨change, rfl, rfl⟩
  · by_cases here : i = j
    · subst here
      rcases gatekept_advance opens Shows faithful net.world left _ _ session waits advanced with shown | ⟨still, same⟩
      · exact .inl shown
      · exact .inr ⟨by simpa using still, fun _ => same⟩
    · refine .inr ⟨by simpa [Function.update_of_ne here] using waits, fun same => ?_⟩
      cases same
      exact absurd rfl here
  · refine .inr ⟨?_, fun impossible => by cases impossible⟩
    by_cases here : i = j
    · subst here
      simp only [Function.update_self]
      obtain ⟨gated, clean⟩ := waits
      cases prog : (net.sessions i).prog with
      | stmt s resume =>
          rw [Session.interrupt, prog] at interrupted
          rw [prog] at gated
          cases interrupted
          exact ⟨gated.2.1 fault, clean⟩
      | _ =>
          rw [Session.interrupt, prog] at interrupted
          cases interrupted
    · simpa [Function.update_of_ne here] using waits
  · exact .inr ⟨waits, fun impossible => by cases impossible⟩

theorem run_gatekept (net last : Net (engine S C hash) ε α n) (moves : List (Move (engine S C hash) n)) (i : Fin n)
    (waits : Gatekept opens (net.sessions i)) (ran : run net moves = some last) :
    Earlier net moves Shows ∨ Gatekept opens (last.sessions i) := by
  induction moves generalizing net with
  | nil =>
      cases ran
      exact .inr waits
  | cons move rest ih =>
      obtain ⟨next, stepped, onward⟩ := Option.bind_eq_some_iff.mp ran
      rcases gatekept_step opens Shows faithful net next move i waits stepped with shown | ⟨still, -⟩
      · exact .inl ⟨[], move :: rest, net, rfl, rfl, shown⟩
      · refine (ih next still onward).imp ?_ fun still => still
        rintro ⟨early, late, middle, rfl, reached, shown⟩
        exact ⟨move :: early, late, middle, rfl, by simp [Runs.run, stepped, reached], shown⟩

theorem effect_needs_gate (net last : Net (engine S C hash) ε α n) (moves : List (Move (engine S C hash) n)) (i : Fin n)
    (waits : Gatekept opens (net.sessions i)) (ran : run net moves = some last) (effect : TakesEffect last i) :
    Earlier net moves Shows := by
  rcases run_gatekept opens Shows faithful net last moves i waits ran with shown | still
  · exact shown
  · rcases effect with ⟨value, returned⟩ | ⟨next, stepped, differs⟩
    · obtain ⟨gated, -⟩ := still
      cases prog : (last.sessions i).prog with
      | done result =>
          rw [prog] at gated
          exact False.elim gated
      | _ => simp [Session.outcome, prog] at returned
    · rcases gatekept_step opens Shows faithful last next (.turn i) i still stepped with shown | ⟨-, same⟩
      · exact ⟨moves, [], last, (List.append_nil moves).symm, ran, shown⟩
      · exact absurd (same rfl) differs

end Gate

end Runs

end ReadCommitted
