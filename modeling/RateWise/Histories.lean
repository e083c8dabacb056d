import Mathlib.Data.List.Infix
import RateWise.Interleaving

set_option autoImplicit false

namespace Interleave

section Histories

variable {I : Interface} {E : Engine I} {ε α : Type} {n : Nat}

def Precedes (start : Net E ε α n) (done : List (Move E n)) (i j : Fin n) : Prop :=
  ∃ early ∈ done.inits, ∃ net ∈ run start early, Finished net i ∧ (net.sessions j).log = []

instance (start : Net E ε α n) (done : List (Move E n)) (i j : Fin n) : Decidable (Precedes start done i j) :=
  decidable_of_iff (∃ early ∈ done.inits,
      (run start early).any (fun net => decide (Finished net i) && (net.sessions j).log.isEmpty) = true)
    (by simp [Precedes, Option.any_eq_true])

def Along (ok : List (Move E n) → Net E ε α n → Move E n → Prop) (done : List (Move E n)) (net : Net E ε α n) :
    List (Move E n) → Prop
  | [] => True
  | move :: rest => ok done net move ∧ ∀ next, step net move = some next → Along ok (done ++ [move]) next rest

instance alongDecidable (ok : List (Move E n) → Net E ε α n → Move E n → Prop)
    [∀ done net move, Decidable (ok done net move)] :
    ∀ (done : List (Move E n)) (net : Net E ε α n) (moves : List (Move E n)), Decidable (Along ok done net moves)
  | _, _, [] => .isTrue trivial
  | done, net, move :: rest =>
      match found : step net move with
      | none => decidable_of_iff (ok done net move) (by simp [Along, found])
      | some next =>
          haveI := alongDecidable ok (done ++ [move]) next rest
          decidable_of_iff (ok done net move ∧ Along ok (done ++ [move]) next rest) (by simp [Along, found])

theorem advance_log (world left : E.World) (others : List E.Tx) (session after : Session E ε α)
    (advanced : session.advance world others = some (left, after)) : ∃ event, after.log = event :: session.log := by
  obtain ⟨prog, tx, log⟩ := session
  cases prog with
  | done value => cases advanced
  | throw error => cases advanced
  | beginTx rest =>
      cases advanced
      exact ⟨_, rfl⟩
  | commitTx rest => cases tx <;> cases advanced <;> exact ⟨_, rfl⟩
  | rollbackTx rest =>
      cases advanced
      exact ⟨_, rfl⟩
  | stmt s resume =>
      simp only [Session.advance] at advanced
      split at advanced
      · cases advanced
      · split at advanced
        · cases advanced
          exact ⟨_, rfl⟩
        · cases tx <;> cases advanced <;> exact ⟨_, rfl⟩

theorem interrupt_log (session after : Session E ε α) (fault : I.Fault)
    (interrupted : session.interrupt fault = some after) : ∃ event, after.log = event :: session.log := by
  obtain ⟨prog, tx, log⟩ := session
  cases prog with
  | stmt s resume =>
      cases interrupted
      exact ⟨_, rfl⟩
  | _ => cases interrupted

theorem advance_ended (world : E.World) (others : List E.Tx) (session : Session E ε α) (ended : session.outcome ≠ none) :
    session.advance world others = none ∧ ∀ fault, session.interrupt fault = none := by
  obtain ⟨prog, tx, log⟩ := session
  cases prog with
  | done value => exact ⟨rfl, fun _ => rfl⟩
  | throw error => exact ⟨rfl, fun _ => rfl⟩
  | _ => exact absurd rfl ended

theorem step_sessions (net next : Net E ε α n) (move : Move E n) (stepped : step net move = some next) (i : Fin n) :
    next.sessions i = net.sessions i ∨
      ((net.sessions i).outcome = none ∧ ∃ event, (next.sessions i).log = event :: (net.sessions i).log) := by
  rcases step_cases net next move stepped with ⟨j, world, session, -, advanced, rfl⟩ |
    ⟨j, fault, session, -, interrupted, rfl⟩ | ⟨change, -, rfl⟩
  · by_cases same : i = j
    · subst same
      refine .inr ⟨?_, ?_⟩
      · by_contra ended
        rw [(advance_ended net.world (others net i) _ ended).1] at advanced
        cases advanced
      · obtain ⟨event, logged⟩ := advance_log _ _ _ _ _ advanced
        exact ⟨event, by simpa using logged⟩
    · exact .inl (Function.update_of_ne same _ _)
  · by_cases same : i = j
    · subst same
      refine .inr ⟨?_, ?_⟩
      · by_contra ended
        rw [(advance_ended net.world (others net i) _ ended).2 fault] at interrupted
        cases interrupted
      · obtain ⟨event, logged⟩ := interrupt_log _ _ _ interrupted
        exact ⟨event, by simpa using logged⟩
    · exact .inl (Function.update_of_ne same _ _)
  · exact .inl rfl

theorem step_session (net next : Net E ε α n) (move : Move E n) (stepped : step net move = some next) (i : Fin n) :
    next.sessions i = net.sessions i ∨ move = .turn i ∨
      ∃ fault, move = .fault i fault ∧ (net.sessions i).interrupt fault = some (next.sessions i) := by
  rcases step_cases net next move stepped with ⟨j, world, session, rfl, -, rfl⟩ |
    ⟨j, fault, session, rfl, interrupted, rfl⟩ | ⟨change, -, rfl⟩
  · by_cases same : i = j
    · exact .inr (.inl (by rw [same]))
    · exact .inl (Function.update_of_ne same _ _)
  · by_cases same : i = j
    · subst same
      exact .inr (.inr ⟨fault, rfl, by simpa using interrupted⟩)
    · exact .inl (Function.update_of_ne same _ _)
  · exact .inl rfl

theorem step_log (net next : Net E ε α n) (move : Move E n) (stepped : step net move = some next) (i : Fin n) :
    (net.sessions i).log <:+ (next.sessions i).log := by
  rcases step_sessions net next move stepped i with same | ⟨-, event, logged⟩
  · rw [same]
  · rw [logged]
    exact List.suffix_cons _ _

theorem run_log (net final : Net E ε α n) (moves : List (Move E n)) (reached : run net moves = some final) (i : Fin n) :
    (net.sessions i).log <:+ (final.sessions i).log := by
  refine run_invariant (fun _ _ => True) (fun other => (net.sessions i).log <:+ (other.sessions i).log) ?_ net final moves
    (List.suffix_refl _) (meets_trivial _ _) reached
  intro middle move next grown _ stepped
  exact grown.trans (step_log middle next move stepped i)

theorem step_ended (net next : Net E ε α n) (move : Move E n) (i : Fin n) (ended : Finished net i)
    (stepped : step net move = some next) : next.sessions i = net.sessions i := by
  rcases step_sessions net next move stepped i with same | ⟨open_, -⟩
  · exact same
  · exact absurd open_ ended

theorem run_ended (net final : Net E ε α n) (moves : List (Move E n)) (i : Fin n) (ended : Finished net i)
    (reached : run net moves = some final) : final.sessions i = net.sessions i := by
  refine run_invariant (fun _ _ => True) (fun other => other.sessions i = net.sessions i) ?_ net final moves rfl
    (meets_trivial _ _) reached
  intro middle move next same _ stepped
  rw [step_ended middle next move i (by rw [Finished, same]; exact ended) stepped, same]

theorem precedes_append (start : Net E ε α n) (done : List (Move E n)) (move : Move E n) (i j : Fin n)
    (precedes : Precedes start done i j) : Precedes start (done ++ [move]) i j := by
  obtain ⟨early, inside, rest⟩ := precedes
  exact ⟨early, (List.mem_inits _ _).mpr (((List.mem_inits _ _).mp inside).trans (List.prefix_append _ _)), rest⟩

theorem precedes_ended (start net : Net E ε α n) (done : List (Move E n)) (i j : Fin n) (reached : run start done = some net)
    (precedes : Precedes start done i j) :
    ∃ early late middle, done = early ++ late ∧ run start early = some middle ∧ run middle late = some net ∧
      Finished middle i ∧ (middle.sessions j).log = [] ∧ net.sessions i = middle.sessions i := by
  obtain ⟨early, inside, middle, found, ended, idle⟩ := precedes
  obtain ⟨late, rfl⟩ := (List.mem_inits _ _).mp inside
  rw [run_append, found, Option.bind_some] at reached
  exact ⟨early, late, middle, rfl, found, reached, ended, idle, run_ended middle net late i ended reached⟩

theorem precedes_begun (start next : Net E ε α n) (done : List (Move E n)) (move : Move E n) (i j : Fin n)
    (reached : run start (done ++ [move]) = some next) (begun : (next.sessions j).log ≠ [])
    (precedes : Precedes start (done ++ [move]) i j) : Precedes start done i j := by
  obtain ⟨early, inside, middle, found, ended, idle⟩ := precedes
  rcases List.prefix_concat_iff.mp ((List.mem_inits _ _).mp inside) with rfl | earlier
  · have same : middle = next := Option.some.inj (found.symm.trans reached)
    exact absurd (same ▸ idle) begun
  · exact ⟨early, (List.mem_inits _ _).mpr earlier, middle, found, ended, idle⟩

theorem answer_origin (start net : Net E ε α n) (done : List (Move E n)) (reached : run start done = some net) (i : Fin n)
    (silent : (start.sessions i).log = []) (s : I.Stmt) (reply : I.Reply s) (logged : .ran s (.ok reply) ∈ (net.sessions i).log) :
    ∃ early late before world session, done = early ++ late ∧ run start early = some before ∧
      (before.sessions i).advance before.world (others before i) = some (world, session) ∧
      session.log = .ran s (.ok reply) :: (before.sessions i).log := by
  induction done using List.reverseRecOn generalizing net with
  | nil =>
      cases reached
      rw [silent] at logged
      cases logged
  | append_singleton done move ih =>
      obtain ⟨middle, there, stepped⟩ := Option.bind_eq_some_iff.mp ((run_append start done [move]).symm.trans reached)
      obtain ⟨next, moved, same⟩ := Option.bind_eq_some_iff.mp stepped
      cases same
      have onward : .ran s (.ok reply) ∈ (middle.sessions i).log → ∃ early late before world session,
          done ++ [move] = early ++ late ∧ run start early = some before ∧
            (before.sessions i).advance before.world (others before i) = some (world, session) ∧
            session.log = .ran s (.ok reply) :: (before.sessions i).log := by
        intro told
        obtain ⟨early, late, before, world, session, rfl, found⟩ := ih middle there told
        exact ⟨early, late ++ [move], before, world, session, List.append_assoc _ _ _, found⟩
      rcases step_cases middle net move moved with ⟨j, world, session, -, advanced, rfl⟩ |
        ⟨j, fault, session, -, interrupted, rfl⟩ | ⟨change, -, rfl⟩
      · by_cases same : i = j
        · subst same
          have told : .ran s (.ok reply) ∈ session.log := by simpa using logged
          obtain ⟨event, added⟩ := advance_log _ _ _ _ _ advanced
          rw [added, List.mem_cons] at told
          rcases told with rfl | before
          · exact ⟨done, [move], middle, world, session, rfl, there, advanced, added⟩
          · exact onward before
        · exact onward (by simpa [Function.update_of_ne same] using logged)
      · by_cases same : i = j
        · subst same
          have told : .ran s (.ok reply) ∈ session.log := by simpa using logged
          have kept : .ran s (.ok reply) ∈ (middle.sessions i).log := by
            generalize middle.sessions i = old at interrupted
            obtain ⟨prog, tx, log⟩ := old
            cases prog with
            | stmt asked resume =>
                cases interrupted
                exact (List.mem_cons.mp told).resolve_left fun impossible => by cases impossible
            | _ => cases interrupted
          exact onward kept
        · exact onward (by simpa [Function.update_of_ne same] using logged)
      · exact onward logged

theorem history_invariant (ok : List (Move E n) → Net E ε α n → Move E n → Prop) (inv : List (Move E n) → Net E ε α n → Prop)
    (start final : Net E ε α n) (moves : List (Move E n))
    (preserved : ∀ done net move next, run start done = some net → inv done net → ok done net move →
      step net move = some next → inv (done ++ [move]) next)
    (initial : inv [] start) (met : Along ok [] start moves) (reached : run start moves = some final) : inv moves final := by
  have onward : ∀ (rest done : List (Move E n)) (net : Net E ε α n), run start done = some net → inv done net →
      Along ok done net rest → run net rest = some final → inv (done ++ rest) final := by
    intro rest
    induction rest with
    | nil =>
        intro done net _ holds _ arrived
        cases arrived
        rw [List.append_nil]
        exact holds
    | cons move rest ih =>
        intro done net before holds along arrived
        simp only [Runs.run] at arrived
        cases stepped : step net move with
        | none => simp [stepped] at arrived
        | some next =>
            rw [stepped, Option.bind_some] at arrived
            have here : run start (done ++ [move]) = some next := by
              rw [run_append, before, Option.bind_some]
              simp [Runs.run, stepped]
            have after := ih (done ++ [move]) next here (preserved done net move next before holds along.1 stepped)
              (along.2 next stepped) arrived
            rw [List.append_assoc] at after
            exact after
  exact onward moves [] start rfl initial met reached

end Histories

end Interleave
