import Mathlib.Data.List.Basic
import RateWise.Uuid

set_option autoImplicit false

namespace RateWise

namespace Settling

-- What a promise is rejected with: an AggregateError, or anything else.
inductive Reason (ε : Type) where
  | plain (value : ε)
  | aggregateError (errors : List (Reason ε)) (message : Text)

inductive Fulfilled (α : Type) where
  | value (value : α)
  | results (values : List (Fulfilled α))

section Results

variable {ε α : Type}

def rejections (results : List (Except (Reason ε) α)) : List (Reason ε) :=
  results.filterMap fun
    | .error reason => some reason
    | .ok _ => none

def fulfilledValues (results : List (Except (Reason ε) α)) : List α :=
  results.filterMap fun
    | .ok value => some value
    | .error _ => none

def concurrentFailure : Text := "One or more concurrent operations failed".toList

-- The part after Promise.allSettled.
def runSettledOrThrow (results : List (Except (Reason ε) α)) : Except (Reason ε) (List α) :=
  match rejections results with
  | [] => .ok (fulfilledValues results)
  | [reason] => .error reason
  | reasons => .error (.aggregateError reasons concurrentFailure)

mutual

def Reason.flatten : Reason ε → List ε
  | .plain value => [value]
  | .aggregateError errors _ => flattenAll errors

def flattenAll : List (Reason ε) → List ε
  | [] => []
  | reason :: rest => reason.flatten ++ flattenAll rest

end

theorem flatten_append (first second : List (Reason ε)) : flattenAll (first ++ second) = flattenAll first ++ flattenAll second := by
  induction first with
  | nil => rfl
  | cons reason rest ih => simp only [List.cons_append, flattenAll, ih, List.append_assoc]

theorem rejections_nil (results : List (Except (Reason ε) α)) (none : rejections results = []) :
    results = (fulfilledValues results).map .ok := by
  induction results with
  | nil => rfl
  | cons result rest ih =>
      cases result with
      | error reason => cases none
      | ok value => exact congrArg (List.cons (.ok value)) (ih none)

theorem settled_ok (results : List (Except (Reason ε) α)) (values : List α) (returned : runSettledOrThrow results = .ok values) :
    rejections results = [] ∧ results = values.map .ok := by
  unfold runSettledOrThrow at returned
  split at returned
  · rename_i none
    cases returned
    exact ⟨none, rejections_nil results none⟩
  · cases returned
  · cases returned

theorem settled_error (results : List (Except (Reason ε) α)) (reason : Reason ε) (thrown : runSettledOrThrow results = .error reason) :
    rejections results ≠ [] ∧ reason.flatten = flattenAll (rejections results) := by
  unfold runSettledOrThrow at thrown
  split at thrown
  · cases thrown
  · rename_i only
    cases thrown
    exact ⟨by rw [only]; exact List.cons_ne_nil _ _, by rw [only, flattenAll, flattenAll, List.append_nil]⟩
  · rename_i some_ _
    cases thrown
    exact ⟨some_, rfl⟩

end Results

section Trees

variable {ε α : Type}

mutual

-- Calls of runSettledOrThrow inside each other, over operations that settle by
-- themselves.
inductive Operation (ε α : Type) where
  | leaf (outcome : Except (Reason ε) α)
  | call (promises : Operations ε α)

inductive Operations (ε α : Type) where
  | nil
  | cons (first : Operation ε α) (rest : Operations ε α)

end

mutual

-- The operations on their way: which leaves have settled, and what the calls
-- that have settled returned or threw.
inductive Running (ε α : Type) where
  | leaf (outcome : Except (Reason ε) α) (settled : Bool)
  | call (promises : RunningAll ε α) (result : Option (Except (Reason ε) (List (Fulfilled α))))

inductive RunningAll (ε α : Type) where
  | nil
  | cons (first : Running ε α) (rest : RunningAll ε α)

end

mutual

def Operation.launch : Operation ε α → Running ε α
  | .leaf outcome => .leaf outcome false
  | .call promises => .call promises.launch none

def Operations.launch : Operations ε α → RunningAll ε α
  | .nil => .nil
  | .cons first rest => .cons first.launch rest.launch

end

def Running.outcome : Running ε α → Option (Except (Reason ε) (Fulfilled α))
  | .leaf outcome true => some (outcome.map .value)
  | .leaf _ false => none
  | .call _ result => result.map fun returned => returned.map .results

def RunningAll.allSettled : RunningAll ε α → Option (List (Except (Reason ε) (Fulfilled α)))
  | .nil => some []
  | .cons first rest => first.outcome.bind fun outcome => rest.allSettled.map (List.cons outcome)

mutual

-- What the path leads to settles: an operation at any time, a call some time
-- after all of its promises have.
def Running.settle : List Nat → Running ε α → Option (Running ε α)
  | [], .leaf outcome false => some (.leaf outcome true)
  | [], .call promises none => promises.allSettled.map fun results => .call promises (some (runSettledOrThrow results))
  | i :: path, .call promises none => (promises.settle i path).map fun next => .call next none
  | _, _ => none

def RunningAll.settle : Nat → List Nat → RunningAll ε α → Option (RunningAll ε α)
  | 0, path, .cons first rest => (first.settle path).map fun next => .cons next rest
  | i + 1, path, .cons first rest => (rest.settle i path).map (.cons first)
  | _, _, .nil => none

end

def Running.run (running : Running ε α) (order : List (List Nat)) : Option (Running ε α) :=
  order.foldlM (fun state path => state.settle path) running

mutual

def Running.part : List Nat → Running ε α → Option (Running ε α)
  | [], running => some running
  | i :: path, .call promises _ => promises.part i path
  | _ :: _, .leaf _ _ => none

def RunningAll.part : Nat → List Nat → RunningAll ε α → Option (Running ε α)
  | 0, path, .cons first _ => first.part path
  | i + 1, path, .cons _ rest => rest.part i path
  | _, _, .nil => none

end

mutual

def Running.Done : Running ε α → Prop
  | .leaf _ settled => settled = true
  | .call promises result => promises.Done ∧ result.isSome = true

def RunningAll.Done : RunningAll ε α → Prop
  | .nil => True
  | .cons first rest => first.Done ∧ rest.Done

end

mutual

def Running.pending : Running ε α → Nat
  | .leaf _ settled => if settled then 0 else 1
  | .call promises result => promises.pending + if result.isSome then 0 else 1

def RunningAll.pending : RunningAll ε α → Nat
  | .nil => 0
  | .cons first rest => first.pending + rest.pending

end

mutual

def Running.operation : Running ε α → Operation ε α
  | .leaf outcome _ => .leaf outcome
  | .call promises _ => .call promises.operations

def RunningAll.operations : RunningAll ε α → Operations ε α
  | .nil => .nil
  | .cons first rest => .cons first.operation rest.operations

end

end Trees

section Meaning

variable {ε α : Type}

mutual

-- What an operation comes to, without regard to time.
def Operation.outcome : Operation ε α → Except (Reason ε) (Fulfilled α)
  | .leaf outcome => outcome.map .value
  | .call promises => (runSettledOrThrow promises.outcomes).map .results

def Operations.outcomes : Operations ε α → List (Except (Reason ε) (Fulfilled α))
  | .nil => []
  | .cons first rest => first.outcome :: rest.outcomes

end

mutual

def Operation.reasons : Operation ε α → List (Reason ε)
  | .leaf (.error reason) => [reason]
  | .leaf (.ok _) => []
  | .call promises => promises.reasons

def Operations.reasons : Operations ε α → List (Reason ε)
  | .nil => []
  | .cons first rest => first.reasons ++ rest.reasons

end

mutual

def Operation.part : List Nat → Operation ε α → Option (Operation ε α)
  | [], operation => some operation
  | i :: path, .call promises => promises.part i path
  | _ :: _, .leaf _ => none

def Operations.part : Nat → List Nat → Operations ε α → Option (Operation ε α)
  | 0, path, .cons first _ => first.part path
  | i + 1, path, .cons _ rest => rest.part i path
  | _, _, .nil => none

end

def Reports (reasons : List (Reason ε)) : Except (Reason ε) (Fulfilled α) → Prop
  | .ok _ => reasons = []
  | .error reason => reasons ≠ [] ∧ reason.flatten = flattenAll reasons

mutual

theorem operation_reports (operation : Operation ε α) : Reports operation.reasons operation.outcome := by
  cases operation with
  | leaf outcome =>
      cases outcome with
      | ok value => rfl
      | error reason => exact ⟨List.cons_ne_nil _ _, (List.append_nil _).symm⟩
  | call promises =>
      obtain ⟨empty, flat⟩ := operations_report promises
      cases settled : runSettledOrThrow promises.outcomes with
      | ok values =>
          rw [Operation.outcome, settled]
          exact empty.mp (settled_ok _ _ settled).1
      | error reason =>
          obtain ⟨some_, same⟩ := settled_error _ _ settled
          rw [Operation.outcome, settled]
          exact ⟨fun none => some_ (empty.mpr none), same.trans flat⟩

theorem operations_report (promises : Operations ε α) : (rejections promises.outcomes = [] ↔ promises.reasons = []) ∧
    flattenAll (rejections promises.outcomes) = flattenAll promises.reasons := by
  cases promises with
  | nil => exact ⟨Iff.rfl, rfl⟩
  | cons first rest =>
      have reported := operation_reports first
      obtain ⟨empty, flat⟩ := operations_report rest
      rw [Operations.outcomes, Operations.reasons, flatten_append]
      cases outcome : first.outcome with
      | ok value =>
          rw [outcome] at reported
          have none : first.reasons = [] := reported
          rw [none]
          exact ⟨empty, flat⟩
      | error reason =>
          rw [outcome] at reported
          refine ⟨⟨fun impossible => (by cases impossible), fun none => ?_⟩, ?_⟩
          · exact absurd (List.append_eq_nil_iff.mp none).1 reported.1
          · show reason.flatten ++ flattenAll (rejections rest.outcomes) = _
            rw [flat, reported.2]

end

end Meaning

section Order

variable {ε α : Type}

mutual

def Running.Sound : Running ε α → Prop
  | .leaf _ _ => True
  | .call promises result => promises.Sound ∧
      ∀ returned, result = some returned → ∃ results, promises.allSettled = some results ∧ returned = runSettledOrThrow results

def RunningAll.Sound : RunningAll ε α → Prop
  | .nil => True
  | .cons first rest => first.Sound ∧ rest.Sound

end

mutual

theorem launch_sound (operation : Operation ε α) : operation.launch.Sound ∧ operation.launch.operation = operation := by
  cases operation with
  | leaf outcome => exact ⟨trivial, rfl⟩
  | call promises =>
      obtain ⟨sound, same⟩ := launch_all_sound promises
      exact ⟨⟨sound, fun returned impossible => (by cases impossible)⟩, congrArg Operation.call same⟩

theorem launch_all_sound (promises : Operations ε α) : promises.launch.Sound ∧ promises.launch.operations = promises := by
  cases promises with
  | nil => exact ⟨trivial, rfl⟩
  | cons first rest =>
      obtain ⟨sound, same⟩ := launch_sound first
      obtain ⟨sounds, others⟩ := launch_all_sound rest
      exact ⟨⟨sound, sounds⟩, congrArg₂ Operations.cons same others⟩

end

mutual

theorem settled_outcome (running : Running ε α) (sound : running.Sound) (outcome : Except (Reason ε) (Fulfilled α))
    (settled : running.outcome = some outcome) : running.Done ∧ outcome = running.operation.outcome := by
  cases running with
  | leaf result done =>
      cases done with
      | true =>
          cases settled
          exact ⟨rfl, rfl⟩
      | false => cases settled
  | call promises result =>
      obtain ⟨returned, here, rfl⟩ := Option.map_eq_some_iff.mp settled
      obtain ⟨results, all, same⟩ := sound.2 returned here
      obtain ⟨done, outcomes⟩ := all_settled_outcomes promises sound.1 results all
      refine ⟨⟨done, by rw [here]; rfl⟩, ?_⟩
      rw [same, outcomes]
      rfl

theorem all_settled_outcomes (promises : RunningAll ε α) (sound : promises.Sound) (results : List (Except (Reason ε) (Fulfilled α)))
    (settled : promises.allSettled = some results) : promises.Done ∧ results = promises.operations.outcomes := by
  cases promises with
  | nil =>
      cases settled
      exact ⟨trivial, rfl⟩
  | cons first rest =>
      obtain ⟨outcome, here, others⟩ := Option.bind_eq_some_iff.mp settled
      obtain ⟨results, all, rfl⟩ := Option.map_eq_some_iff.mp others
      obtain ⟨done, same⟩ := settled_outcome first sound.1 outcome here
      obtain ⟨dones, outcomes⟩ := all_settled_outcomes rest sound.2 results all
      refine ⟨⟨done, dones⟩, ?_⟩
      rw [same, outcomes]
      rfl

end

mutual

theorem settle_sound (running next : Running ε α) (path : List Nat) (sound : running.Sound)
    (stepped : running.settle path = some next) :
    next.Sound ∧ next.operation = running.operation ∧ next.pending + 1 = running.pending := by
  cases running with
  | leaf outcome settled =>
      cases path with
      | nil =>
          cases settled with
          | false =>
              cases stepped
              exact ⟨trivial, rfl, rfl⟩
          | true => cases stepped
      | cons i path => cases settled <;> cases stepped
  | call promises result =>
      cases result with
      | some returned => cases path <;> cases stepped
      | none =>
          cases path with
          | nil =>
              obtain ⟨results, all, rfl⟩ := Option.map_eq_some_iff.mp stepped
              refine ⟨⟨sound.1, fun returned here => ?_⟩, rfl, rfl⟩
              cases here
              exact ⟨results, all, rfl⟩
          | cons i path =>
              obtain ⟨after, moved, rfl⟩ := Option.map_eq_some_iff.mp stepped
              obtain ⟨sound', same, fewer⟩ := settle_all_sound promises after i path sound.1 moved
              refine ⟨⟨sound', fun returned impossible => (by cases impossible)⟩, congrArg Operation.call same, ?_⟩
              simp only [Running.pending]
              omega

theorem settle_all_sound (promises next : RunningAll ε α) (i : Nat) (path : List Nat) (sound : promises.Sound)
    (stepped : promises.settle i path = some next) :
    next.Sound ∧ next.operations = promises.operations ∧ next.pending + 1 = promises.pending := by
  cases promises with
  | nil => cases i <;> cases stepped
  | cons first rest =>
      cases i with
      | zero =>
          obtain ⟨after, moved, rfl⟩ := Option.map_eq_some_iff.mp stepped
          obtain ⟨sound', same, fewer⟩ := settle_sound first after path sound.1 moved
          refine ⟨⟨sound', sound.2⟩, congrArg (Operations.cons · _) same, ?_⟩
          simp only [RunningAll.pending]
          omega
      | succ i =>
          obtain ⟨after, moved, rfl⟩ := Option.map_eq_some_iff.mp stepped
          obtain ⟨sound', same, fewer⟩ := settle_all_sound rest after i path sound.2 moved
          refine ⟨⟨sound.1, sound'⟩, congrArg (Operations.cons _) same, ?_⟩
          simp only [RunningAll.pending]
          omega

end

mutual

theorem settle_next (running : Running ε α) (waiting : running.outcome = none) : ∃ path next, running.settle path = some next := by
  cases running with
  | leaf outcome settled =>
      cases settled with
      | false => exact ⟨[], _, rfl⟩
      | true => cases waiting
  | call promises result =>
      cases result with
      | some returned => cases waiting
      | none =>
          cases all : promises.allSettled with
          | some results => exact ⟨[], .call promises (some (runSettledOrThrow results)), by rw [Running.settle, all]; rfl⟩
          | none =>
              obtain ⟨i, path, next, stepped⟩ := settle_all_next promises all
              exact ⟨i :: path, .call next none, by rw [Running.settle, stepped]; rfl⟩

theorem settle_all_next (promises : RunningAll ε α) (waiting : promises.allSettled = none) :
    ∃ i path next, promises.settle i path = some next := by
  cases promises with
  | nil => cases waiting
  | cons first rest =>
      cases here : first.outcome with
      | none =>
          obtain ⟨path, next, stepped⟩ := settle_next first here
          exact ⟨0, path, .cons next rest, by rw [RunningAll.settle, stepped]; rfl⟩
      | some outcome =>
          have others : rest.allSettled = none := by
            rw [RunningAll.allSettled, here] at waiting
            exact Option.map_eq_none_iff.mp waiting
          obtain ⟨i, path, next, stepped⟩ := settle_all_next rest others
          exact ⟨i + 1, path, .cons first next, by rw [RunningAll.settle, stepped]; rfl⟩

end

mutual

theorem part_sound (running part : Running ε α) (path : List Nat) (sound : running.Sound) (found : running.part path = some part) :
    part.Sound ∧ running.operation.part path = some part.operation := by
  cases path with
  | nil =>
      have same : running = part := by cases running <;> exact Option.some.inj found
      subst same
      exact ⟨sound, by cases running <;> rfl⟩
  | cons i path =>
      cases running with
      | leaf outcome settled => cases found
      | call promises result => exact part_all_sound promises part i path sound.1 found

theorem part_all_sound (promises : RunningAll ε α) (part : Running ε α) (i : Nat) (path : List Nat) (sound : promises.Sound)
    (found : promises.part i path = some part) : part.Sound ∧ promises.operations.part i path = some part.operation := by
  cases promises with
  | nil => cases i <;> cases found
  | cons first rest =>
      cases i with
      | zero => exact part_sound first part path sound.1 found
      | succ i => exact part_all_sound rest part i path sound.2 found

end

theorem run_sound (running final : Running ε α) (order : List (List Nat)) (sound : running.Sound)
    (reached : running.run order = some final) :
    final.Sound ∧ final.operation = running.operation ∧ final.pending + order.length = running.pending := by
  induction order generalizing running with
  | nil =>
      cases reached
      exact ⟨sound, rfl, rfl⟩
  | cons path rest ih =>
      obtain ⟨next, stepped, later⟩ := Option.bind_eq_some_iff.mp reached
      obtain ⟨sound', same, fewer⟩ := settle_sound running next path sound stepped
      obtain ⟨final', kept, length⟩ := ih next sound' later
      refine ⟨final', kept.trans same, ?_⟩
      rw [List.length_cons]
      omega

theorem plain_flatten (reasons : List (Reason ε)) (plain : ∀ reason ∈ reasons, ∃ value, reason = .plain value) :
    (flattenAll reasons).map .plain = reasons := by
  induction reasons with
  | nil => rfl
  | cons reason rest ih =>
      obtain ⟨value, rfl⟩ := plain reason (by simp)
      exact congrArg (List.cons (.plain value)) (ih fun other later => plain other (by simp [later]))

-- Whatever the order in which the operations of a tree of calls settle, and
-- for each call in it.
theorem settled_calls (operation : Operation ε α) (order : List (List Nat)) (state : Running ε α)
    (reached : operation.launch.run order = some state) :
    (state.outcome = none → ∃ path next, state.settle path = some next) ∧
    order.length ≤ operation.launch.pending ∧
    ∀ path part, state.part path = some part → ∃ origin, operation.part path = some origin ∧
      ∀ outcome, part.outcome = some outcome →
        part.Done ∧ ((∃ reason, outcome = .error reason) ↔ origin.reasons ≠ []) ∧
        (origin.reasons = [] → ∀ promises result, part = .call promises result →
          ∃ values, promises.allSettled = some (values.map .ok) ∧ result = some (.ok values)) ∧
        outcome = origin.outcome ∧
        ((∀ reason ∈ origin.reasons, ∃ value, reason = .plain value) → ∀ reason, outcome = .error reason →
          reason.flatten.map .plain = origin.reasons) := by
  obtain ⟨sound, same⟩ := launch_sound operation
  obtain ⟨sound, kept, length⟩ := run_sound operation.launch state order sound reached
  refine ⟨settle_next state, by omega, fun path part found => ?_⟩
  obtain ⟨here, origin⟩ := part_sound state part path sound found
  rw [kept, same] at origin
  refine ⟨part.operation, origin, fun outcome settled => ?_⟩
  obtain ⟨done, meant⟩ := settled_outcome part here outcome settled
  have reported := operation_reports part.operation
  rw [← meant] at reported
  refine ⟨done, ?_, fun none promises result call => ?_, meant, fun plain reason thrown => ?_⟩
  · cases outcome with
    | ok value => exact ⟨fun ⟨reason, impossible⟩ => (by cases impossible), fun some_ => absurd reported some_⟩
    | error reason => exact ⟨fun _ => reported.1, fun _ => ⟨reason, rfl⟩⟩
  · subst call
    obtain ⟨returned, at_, rfl⟩ := Option.map_eq_some_iff.mp settled
    obtain ⟨results, all, rfl⟩ := here.2 returned at_
    cases settling : runSettledOrThrow results with
    | error reason =>
        rw [settling] at reported
        exact absurd none reported.1
    | ok values =>
        refine ⟨values, ?_, by rw [at_, settling]⟩
        rw [all, (settled_ok results values settling).2]
  · subst thrown
    rw [reported.2, plain_flatten _ plain]

end Order

section Sessions

variable {ε α : Type}

def Operations.ofLeaves : List (Except (Reason ε) α) → Operations ε α
  | [] => .nil
  | outcome :: rest => .cons (.leaf outcome) (ofLeaves rest)

namespace SessionsService

-- Once the sessions of the user are read: their keys, the index, their relations.
def deleteAllCalls (sessions : List (Except (Reason ε) α)) (index : Except (Reason ε) α) (relations : List (Except (Reason ε) α)) :
    Operation ε α :=
  .call (.cons (.call (.ofLeaves sessions)) (.cons (.leaf index) (.cons (.call (.ofLeaves relations)) .nil)))

end SessionsService

end Sessions

def failingDeletions : Operation Nat Nat :=
  SessionsService.deleteAllCalls [.ok 0, .error (.plain 1)] (.ok 2) [.error (.plain 3), .error (.plain 4)]

def backwards : List (List Nat) := [[2, 1], [2, 0], [1], [0, 1], [0, 0], [2], [0], []]

theorem failing_deletions_reasons : failingDeletions.reasons = [.plain 1, .plain 3, .plain 4] := rfl

theorem settled_calls_backwards : ∃ state reason, failingDeletions.launch.run backwards = some state ∧
    state.outcome = some (.error reason) ∧ state.Done ∧ reason.flatten.map Reason.plain = failingDeletions.reasons := by
  have reached : failingDeletions.launch.run backwards = some _ := rfl
  obtain ⟨-, -, each⟩ := settled_calls failingDeletions backwards _ reached
  obtain ⟨origin, here, settled⟩ := each [] _ rfl
  cases here
  obtain ⟨done, -, -, -, flat⟩ := settled _ rfl
  have plain : ∀ reason ∈ failingDeletions.reasons, ∃ value, reason = .plain value := by
    rw [failing_deletions_reasons]
    simp
  exact ⟨_, _, reached, rfl, done, flat plain _ rfl⟩

end Settling

end RateWise
