import Mathlib.Data.List.FinRange
import Mathlib.Logic.Function.Basic
import RateWise.Program
import RateWise.Runs

set_option autoImplicit false

namespace Interleave

-- The shared systems behind the statements. exec runs one statement against
-- the world as the open transactions of the other sessions leave it; waits
-- says that the statement is blocked by one of them and cannot run yet.
structure Engine (I : Interface) where
  World : Type
  Tx : Type
  Drift : Type
  empty : Tx
  waits : World → Tx → List Tx → I.Stmt → Bool
  exec : World → Tx → List Tx → (s : I.Stmt) → Except I.Fault (I.Reply s × Tx × World)
  commit : World → Tx → World
  drift : World → Drift → World
  waits_alone : ∀ world tx s, waits world tx [] s = false

-- What a session has sent and what came back, newest first.
inductive Event (I : Interface) where
  | ran (s : I.Stmt) (reply : Except I.Fault (I.Reply s))
  | opened
  | committed
  | rolledBack

structure Session {I : Interface} (E : Engine I) (ε α : Type) where
  prog : Prog I ε α
  tx : Option E.Tx
  log : List (Event I)

namespace Session

variable {I : Interface} {E : Engine I} {ε α : Type}

def fresh (prog : Prog I ε α) : Session E ε α := ⟨prog, none, []⟩

def outcome (session : Session E ε α) : Option (Except ε α) :=
  match session.prog with
  | .done value => some (.ok value)
  | .throw error => some (.error error)
  | _ => none

-- A statement outside a transaction is a transaction of its own.
def advance (world : E.World) (others : List E.Tx) (session : Session E ε α) :
    Option (E.World × Session E ε α) :=
  match session.prog with
  | .done _ => none
  | .throw _ => none
  | .beginTx rest => some (world, ⟨rest, some E.empty, .opened :: session.log⟩)
  | .commitTx rest =>
      match session.tx with
      | some tx => some (E.commit world tx, ⟨rest, none, .committed :: session.log⟩)
      | none => some (world, ⟨rest, none, .committed :: session.log⟩)
  | .rollbackTx rest => some (world, ⟨rest, none, .rolledBack :: session.log⟩)
  | .stmt s resume =>
      if E.waits world (session.tx.getD E.empty) others s then none
      else match E.exec world (session.tx.getD E.empty) others s with
        | .error fault => some (world, ⟨resume (.error fault), session.tx, .ran s (.error fault) :: session.log⟩)
        | .ok (reply, tx, next) => match session.tx with
          | some _ => some (next, ⟨resume (.ok reply), some tx, .ran s (.ok reply) :: session.log⟩)
          | none => some (E.commit next tx, ⟨resume (.ok reply), none, .ran s (.ok reply) :: session.log⟩)

-- The statement is answered with a fault from outside: a deadlock victim, a
-- cancelled query, a lost connection.
def interrupt (fault : I.Fault) (session : Session E ε α) : Option (Session E ε α) :=
  match session.prog with
  | .stmt s resume => some ⟨resume (.error fault), session.tx, .ran s (.error fault) :: session.log⟩
  | _ => none

end Session

structure Net {I : Interface} (E : Engine I) (ε α : Type) (n : Nat) where
  world : E.World
  sessions : Fin n → Session E ε α

inductive Move {I : Interface} (E : Engine I) (n : Nat) where
  | turn (i : Fin n)
  | fault (i : Fin n) (fault : I.Fault)
  | drift (change : E.Drift)

def Move.first {I : Interface} {E : Engine I} : Move E 2 := .turn 0

def Move.second {I : Interface} {E : Engine I} : Move E 2 := .turn 1

section Machine

variable {I : Interface} {E : Engine I} {ε α : Type} {n : Nat}

def launch (world : E.World) (programs : Fin n → Prog I ε α) : Net E ε α n :=
  ⟨world, fun i => .fresh (programs i)⟩

def others (net : Net E ε α n) (i : Fin n) : List E.Tx :=
  (List.finRange n).filterMap fun j => if j = i then none else (net.sessions j).tx

def step (net : Net E ε α n) : Move E n → Option (Net E ε α n)
  | .turn i => ((net.sessions i).advance net.world (others net i)).map fun next =>
      ⟨next.1, Function.update net.sessions i next.2⟩
  | .fault i fault => ((net.sessions i).interrupt fault).map fun next =>
      ⟨net.world, Function.update net.sessions i next⟩
  | .drift change => some ⟨E.drift net.world change, net.sessions⟩

abbrev run (net : Net E ε α n) (moves : List (Move E n)) : Option (Net E ε α n) := Runs.run step net moves

-- A run all of whose moves meet a condition on the state before the move.
abbrev Meets (ok : Net E ε α n → Move E n → Prop) (net : Net E ε α n) (moves : List (Move E n)) : Prop :=
  Runs.Meets step ok net moves

def Quiescent (net : Net E ε α n) : Prop := ∀ i, (net.sessions i).tx = none

def Finished (net : Net E ε α n) (i : Fin n) : Prop := (net.sessions i).outcome ≠ none

instance (net : Net E ε α n) : Decidable (Quiescent net) :=
  inferInstanceAs (Decidable (∀ i, (net.sessions i).tx = none))

instance (net : Net E ε α n) (i : Fin n) : Decidable (Finished net i) :=
  decidable_of_iff ((net.sessions i).outcome.isSome = true) (by simp [Finished, Option.isSome_iff_ne_none])

theorem mem_others (net : Net E ε α n) (i : Fin n) (tx : E.Tx) :
    tx ∈ others net i ↔ ∃ j, j ≠ i ∧ (net.sessions j).tx = some tx := by
  simp only [others, List.mem_filterMap, List.mem_finRange, true_and]
  constructor
  · rintro ⟨j, found⟩
    by_cases same : j = i
    · simp [same] at found
    · exact ⟨j, same, by simpa [same] using found⟩
  · rintro ⟨j, different, found⟩
    exact ⟨j, by simpa [different] using found⟩

theorem run_append (net : Net E ε α n) (first second : List (Move E n)) :
    run net (first ++ second) = (run net first).bind fun middle => run middle second :=
  Runs.run_append net first second

theorem meets_trivial (net : Net E ε α n) (moves : List (Move E n)) :
    Meets (fun _ _ => True) net moves := Runs.meets_any net moves

theorem run_exists (net : Net E ε α n) (moves : List (Move E n)) (good : Net E ε α n → Prop) [DecidablePred good]
    (checked : (run net moves).any (fun final => decide (good final)) = true) :
    ∃ final, run net moves = some final ∧ good final := by
  obtain ⟨final, reached, holds⟩ := Option.any_eq_true _ _ |>.mp checked
  exact ⟨final, reached, of_decide_eq_true holds⟩

-- The invariant rule: what every allowed move preserves holds after every run.
theorem run_invariant (ok : Net E ε α n → Move E n → Prop) (inv : Net E ε α n → Prop)
    (preserved : ∀ net move next, inv net → ok net move → step net move = some next → inv next)
    (net final : Net E ε α n) (moves : List (Move E n)) (initial : inv net)
    (met : Meets ok net moves) (reached : run net moves = some final) : inv final :=
  Runs.run_invariant inv net final moves (fun net move next _ => preserved net move next) initial met reached

theorem step_cases (net next : Net E ε α n) (move : Move E n) (stepped : step net move = some next) :
    (∃ i world session, move = .turn i ∧
      (net.sessions i).advance net.world (others net i) = some (world, session) ∧
      next = ⟨world, Function.update net.sessions i session⟩) ∨
    (∃ i fault session, move = .fault i fault ∧ (net.sessions i).interrupt fault = some session ∧
      next = ⟨net.world, Function.update net.sessions i session⟩) ∨
    (∃ change, move = .drift change ∧ next = ⟨E.drift net.world change, net.sessions⟩) := by
  cases move with
  | turn i =>
      obtain ⟨result, advanced, rfl⟩ := Option.map_eq_some_iff.mp stepped
      exact .inl ⟨i, result.1, result.2, rfl, advanced, rfl⟩
  | fault i fault =>
      obtain ⟨session, interrupted, rfl⟩ := Option.map_eq_some_iff.mp stepped
      exact .inr (.inl ⟨i, fault, session, rfl, interrupted, rfl⟩)
  | drift change =>
      cases stepped
      exact .inr (.inr ⟨change, rfl, rfl⟩)

-- An invariant in three parts: of the world, of each session against the
-- world, and of each pair of sessions.
structure Modular (ofWorld : E.World → Prop) (ofSession : Fin n → E.World → Session E ε α → Prop)
    (ofPair : Session E ε α → Session E ε α → Prop) (net : Net E ε α n) : Prop where
  world : ofWorld net.world
  session : ∀ i, ofSession i net.world (net.sessions i)
  pair : ∀ i j, i ≠ j → ofPair (net.sessions i) (net.sessions j)

-- The session that moves re-establishes its own part, the world and its pairs;
-- every other session must not be disturbed by what it did to the world.
theorem modular_update {ofWorld : E.World → Prop} {ofSession : Fin n → E.World → Session E ε α → Prop}
    {ofPair : Session E ε α → Session E ε α → Prop} (symmetric : ∀ a b, ofPair a b → ofPair b a)
    (net : Net E ε α n) (inv : Modular ofWorld ofSession ofPair net) (i : Fin n) (world : E.World)
    (session : Session E ε α) (worldKept : ofWorld world) (sessionKept : ofSession i world session)
    (undisturbed : ∀ j, j ≠ i → ofSession j world (net.sessions j))
    (paired : ∀ j, j ≠ i → ofPair session (net.sessions j)) :
    Modular ofWorld ofSession ofPair ⟨world, Function.update net.sessions i session⟩ where
  world := worldKept
  session := (Function.forall_update_iff net.sessions (fun j s => ofSession j world s)).mpr
    ⟨sessionKept, undisturbed⟩
  pair a b different := by
    by_cases left : a = i
    · subst left
      simpa [Function.update_of_ne (Ne.symm different)] using paired b (Ne.symm different)
    · by_cases right : b = i
      · subst right
        simpa [Function.update_of_ne left] using symmetric _ _ (paired a left)
      · simpa [Function.update_of_ne left, Function.update_of_ne right] using inv.pair a b different

end Machine

end Interleave
