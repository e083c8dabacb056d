import Mathlib.Data.Option.Basic
import Mathlib.Data.List.Induction

set_option autoImplicit false

namespace Runs

variable {State Move : Type}

def run (step : State → Move → Option State) (s : State) : List Move → Option State
  | [] => some s
  | move :: rest => (step s move).bind fun next => run step next rest

-- Every move meets a condition on the state before it.
def Meets (step : State → Move → Option State) (ok : State → Move → Prop) (s : State) : List Move → Prop
  | [] => True
  | move :: rest => ok s move ∧ ∀ next, step s move = some next → Meets step ok next rest

instance meetsDecidable (step : State → Move → Option State) (ok : State → Move → Prop) [∀ s move, Decidable (ok s move)] :
    ∀ (s : State) (moves : List Move), Decidable (Meets step ok s moves)
  | _, [] => .isTrue trivial
  | s, move :: rest =>
      match found : step s move with
      | none => decidable_of_iff (ok s move) (by simp [Meets, found])
      | some next =>
          haveI := meetsDecidable step ok next rest
          decidable_of_iff (ok s move ∧ Meets step ok next rest) (by simp [Meets, found])

def Visits (step : State → Move → Option State) (start : State) (moves : List Move) (s : State) : Prop :=
  ∃ done rest, moves = done ++ rest ∧ run step start done = some s

section Rules

variable {step : State → Move → Option State} {ok : State → Move → Prop}

theorem run_append (s : State) (first second : List Move) :
    run step s (first ++ second) = (run step s first).bind fun middle => run step middle second := by
  induction first generalizing s with
  | nil => rfl
  | cons move rest ih =>
      simp only [List.cons_append, run]
      cases step s move with
      | none => rfl
      | some next => exact ih next

theorem run_trans (s middle last : State) (first second : List Move) (reached : run step s first = some middle)
    (onward : run step middle second = some last) : run step s (first ++ second) = some last := by
  rw [run_append, reached, Option.bind_some, onward]

theorem run_single (s next : State) (move : Move) (stepped : step s move = some next) : run step s [move] = some next := by
  rw [run, stepped, Option.bind_some]
  rfl

-- The invariant rule, where a step may use that its state is on the run.
theorem run_invariant (inv : State → Prop) (start last : State) (moves : List Move)
    (preserved : ∀ s move next, Visits step start moves s → inv s → ok s move → step s move = some next → inv next)
    (initial : inv start) (met : Meets step ok start moves) (reached : run step start moves = some last) : inv last := by
  have onward : ∀ (rest done : List Move) (s : State), moves = done ++ rest → run step start done = some s → inv s →
      Meets step ok s rest → run step s rest = some last → inv last := by
    intro rest
    induction rest with
    | nil =>
        intro done s _ _ holds _ ended
        cases ended
        exact holds
    | cons move rest ih =>
        intro done s split here holds met ended
        obtain ⟨next, stepped, later⟩ := Option.bind_eq_some_iff.mp ended
        refine ih (done ++ [move]) next (by simp [split]) (run_trans start s next done [move] here (run_single s next move stepped)) ?_
          (met.2 next stepped) later
        exact preserved s move next ⟨done, move :: rest, split, here⟩ holds met.1 stepped
  exact onward moves [] start rfl rfl initial met reached

theorem meets_any (s : State) (moves : List Move) : Meets step (fun _ _ => True) s moves := by
  induction moves generalizing s with
  | nil => trivial
  | cons move rest ih => exact ⟨trivial, fun next _ => ih next⟩

theorem run_kept (inv : State → Prop) (start last : State) (moves : List Move)
    (preserved : ∀ s move next, inv s → step s move = some next → inv next) (initial : inv start)
    (reached : run step start moves = some last) : inv last :=
  run_invariant inv start last moves (fun s move next _ holds _ stepped => preserved s move next holds stepped) initial
    (meets_any start moves) reached

theorem meets_and (first second : State → Move → Prop) (s : State) (moves : List Move) (left : Meets step first s moves)
    (right : Meets step second s moves) : Meets step (fun s move => first s move ∧ second s move) s moves := by
  induction moves generalizing s with
  | nil => trivial
  | cons move rest ih => exact ⟨⟨left.1, right.1⟩, fun next stepped => ih next (left.2 next stepped) (right.2 next stepped)⟩

end Rules

end Runs
