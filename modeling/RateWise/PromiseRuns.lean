import RateWise.SettledCalls

set_option autoImplicit false

namespace Promises

open RateWise.Settling (Reason runSettledOrThrow concurrentFailure)

structure Promise (Q ε α : Type) where
  query : Q
  outcome : Except (Reason ε) α

-- A run of an asynchronous function: the promises that it starts with the
-- reason of those that reject, those that get a handler, and what it comes to.
structure Ran (Q ε α : Type) where
  started : List (Q × Option (Reason ε))
  handled : List Q
  result : Except (Reason ε) α

variable {Q ε α β : Type}

namespace Ran

def pure (value : α) : Ran Q ε α := ⟨[], [], .ok value⟩

def bind (ran : Ran Q ε α) (next : α → Ran Q ε β) : Ran Q ε β :=
  match ran.result with
  | .error reason => ⟨ran.started, ran.handled, .error reason⟩
  | .ok value => ⟨ran.started ++ (next value).started, ran.handled ++ (next value).handled, (next value).result⟩

instance : Monad (Ran Q ε) where
  pure := Ran.pure
  bind := Ran.bind

end Ran

def lift (outcome : Except (Reason ε) α) : Ran Q ε α := ⟨[], [], outcome⟩

def reasonOf : Except (Reason ε) α → Option (Reason ε)
  | .error reason => some reason
  | .ok _ => none

def start (query : Q) (outcome : Except (Reason ε) α) : Ran Q ε (Promise Q ε α) :=
  ⟨[(query, reasonOf outcome)], [], .ok ⟨query, outcome⟩⟩

def await (promise : Promise Q ε α) : Ran Q ε α := ⟨[], [promise.query], promise.outcome⟩

-- runSettledOrThrow of two promises.
def both (first : Promise Q ε α) (second : Promise Q ε β) : Ran Q ε (α × β) :=
  ⟨[], [first.query, second.query], match first.outcome, second.outcome with
    | .ok a, .ok b => .ok (a, b)
    | .error reason, .ok _ => .error reason
    | .ok _, .error reason => .error reason
    | .error one, .error two => .error (.aggregateError [one, two] concurrentFailure)⟩

theorem both_settled (first : Promise Q ε α) (second : Promise Q ε β) :
    runSettledOrThrow [first.outcome.map Sum.inl, second.outcome.map Sum.inr] =
      (both first second).result.map fun values => [Sum.inl values.1, Sum.inr values.2] := by
  obtain ⟨_, one⟩ := first
  obtain ⟨_, two⟩ := second
  cases one <;> cases two <;> rfl

def Contains (thrown reason : Reason ε) : Prop :=
  thrown = reason ∨ ∃ errors message, thrown = .aggregateError errors message ∧ reason ∈ errors

-- Nothing that rejects is left without a handler, and what rejects is thrown.
def Observed (ran : Ran Q ε α) : Prop :=
  ∀ query reason, (query, some reason) ∈ ran.started →
    query ∈ ran.handled ∧ ∃ thrown, ran.result = .error thrown ∧ Contains thrown reason

-- The promises that reject and have no handler: unhandledRejection.
def unhandled [DecidableEq Q] (ran : Ran Q ε α) : List Q :=
  ran.started.filterMap fun promise => if promise.2.isSome && !ran.handled.contains promise.1 then some promise.1 else none

theorem unhandled_nil [DecidableEq Q] (ran : Ran Q ε α) :
    unhandled ran = [] ↔ ∀ query reason, (query, some reason) ∈ ran.started → query ∈ ran.handled := by
  simp only [unhandled, List.filterMap_eq_nil_iff, Bool.and_eq_true, Bool.not_eq_true', List.contains_eq_mem,
    decide_eq_false_iff_not, ite_eq_right_iff, reduceCtorEq, imp_false, not_and, not_not]
  constructor
  · intro all query reason member
    exact all (query, some reason) member rfl
  · rintro all ⟨query, reason⟩ member rejected
    obtain ⟨found, rfl⟩ := Option.isSome_iff_exists.mp rejected
    exact all query found member

theorem observed_iff [DecidableEq Q] (ran : Ran Q ε α) : Observed ran ↔
    (∀ query reason, (query, some reason) ∈ ran.started → ∃ thrown, ran.result = .error thrown ∧ Contains thrown reason) ∧
      unhandled ran = [] := by
  rw [unhandled_nil]
  constructor
  · intro observed
    exact ⟨fun query reason member => (observed query reason member).2, fun query reason member => (observed query reason member).1⟩
  · rintro ⟨thrown, handled⟩ query reason member
    exact ⟨handled query reason member, thrown query reason member⟩

section Rules

theorem observed_pure (value : α) : Observed (Pure.pure value : Ran Q ε α) := by
  intro query reason member
  cases member

theorem observed_returned (ran : Ran Q ε α) (observed : Observed ran) (value : α) (returned : ran.result = .ok value)
    (query : Q) (reason : Reason ε) : (query, some reason) ∉ ran.started := by
  intro member
  obtain ⟨-, thrown, failed, -⟩ := observed query reason member
  rw [returned] at failed
  cases failed

theorem bind_returned (ran : Ran Q ε α) (next : α → Ran Q ε β) (value : α) (returned : ran.result = .ok value) :
    (ran >>= next) = ⟨ran.started ++ (next value).started, ran.handled ++ (next value).handled, (next value).result⟩ := by
  show Ran.bind ran next = _
  rw [Ran.bind, returned]

theorem bind_thrown (ran : Ran Q ε α) (next : α → Ran Q ε β) (reason : Reason ε) (thrown : ran.result = .error reason) :
    (ran >>= next) = ⟨ran.started, ran.handled, .error reason⟩ := by
  show Ran.bind ran next = _
  rw [Ran.bind, thrown]

theorem bind_result (ran : Ran Q ε α) (next : α → Ran Q ε β) :
    (ran >>= next).result = ran.result.bind fun value => (next value).result := by
  cases result : ran.result with
  | error reason => rw [bind_thrown ran next reason result, Except.bind]
  | ok value => rw [bind_returned ran next value result, Except.bind]

theorem bind_ok (ran : Ran Q ε α) (next : α → Ran Q ε β) (value : β) (returned : (ran >>= next).result = .ok value) :
    ∃ first, ran.result = .ok first ∧ (next first).result = .ok value := by
  cases result : ran.result with
  | error reason =>
      rw [bind_thrown ran next reason result] at returned
      cases returned
  | ok first =>
      rw [bind_returned ran next first result] at returned
      exact ⟨first, rfl, returned⟩

theorem bind_assoc {γ : Type} (ran : Ran Q ε α) (next : α → Ran Q ε β) (last : β → Ran Q ε γ) :
    (ran >>= next >>= last) = (ran >>= fun value => next value >>= last) := by
  cases result : ran.result with
  | error reason =>
      rw [bind_thrown ran next reason result, bind_thrown ran _ reason result]
      rfl
  | ok value =>
      rw [bind_returned ran next value result, bind_returned ran _ value result]
      cases inner : (next value).result with
      | error reason =>
          rw [bind_thrown (next value) last reason inner]
          rfl
      | ok middle =>
          rw [bind_returned (next value) last middle inner, bind_returned _ last middle rfl]
          simp only [List.append_assoc]

theorem observed_bind (ran : Ran Q ε α) (next : α → Ran Q ε β) (observed : Observed ran)
    (after : ∀ value, ran.result = .ok value → Observed (next value)) : Observed (ran >>= next) := by
  cases result : ran.result with
  | error reason =>
      rw [bind_thrown ran next reason result]
      intro query other member
      obtain ⟨handled, thrown, failed, contains⟩ := observed query other member
      rw [result] at failed
      cases failed
      exact ⟨handled, reason, rfl, contains⟩
  | ok value =>
      rw [bind_returned ran next value result]
      intro query reason member
      rcases List.mem_append.mp member with early | late
      · exact absurd early (observed_returned ran observed value result query reason)
      · obtain ⟨handled, rest⟩ := after value result query reason late
        exact ⟨List.mem_append_right _ handled, rest⟩

theorem observed_await (query : Q) (outcome : Except (Reason ε) α) : Observed (start query outcome >>= await) := by
  rw [bind_returned _ _ _ rfl]
  intro other reason member
  obtain ⟨rfl, rejected⟩ : other = query ∧ some reason = reasonOf outcome := by
    simpa [start, await] using member
  refine ⟨by simp [start, await], ?_⟩
  cases outcome with
  | ok value => cases rejected
  | error failure =>
      cases rejected
      exact ⟨reason, rfl, .inl rfl⟩

theorem both_contains (first : Promise Q ε α) (second : Promise Q ε β) (reason : Reason ε)
    (rejected : some reason = reasonOf first.outcome ∨ some reason = reasonOf second.outcome) :
    ∃ thrown, (both first second).result = .error thrown ∧ Contains thrown reason := by
  obtain ⟨_, one⟩ := first
  obtain ⟨_, two⟩ := second
  cases one with
  | ok a =>
      cases two with
      | ok b => rcases rejected with absent | absent <;> cases absent
      | error failure =>
          rcases rejected with absent | same
          · cases absent
          · cases same
            exact ⟨reason, rfl, .inl rfl⟩
  | error failure =>
      cases two with
      | ok b =>
          rcases rejected with same | absent
          · cases same
            exact ⟨reason, rfl, .inl rfl⟩
          · cases absent
      | error other =>
          rcases rejected with same | same
          · cases same
            exact ⟨_, rfl, .inr ⟨_, _, rfl, List.mem_cons_self⟩⟩
          · cases same
            exact ⟨_, rfl, .inr ⟨_, _, rfl, List.mem_cons_of_mem _ List.mem_cons_self⟩⟩

theorem observed_both (one two : Q) (first : Except (Reason ε) α) (second : Except (Reason ε) β) :
    Observed (do
      let a ← start one first
      let b ← start two second
      both a b : Ran Q ε (α × β)) := by
  rw [bind_returned _ _ _ rfl, bind_returned _ _ _ rfl]
  intro query reason member
  have either : (query = one ∧ some reason = reasonOf first) ∨ query = two ∧ some reason = reasonOf second := by
    simpa [start, both] using member
  rcases either with ⟨rfl, rejected⟩ | ⟨rfl, rejected⟩
  · exact ⟨by simp [start, both], both_contains ⟨query, first⟩ ⟨two, second⟩ reason (.inl rejected)⟩
  · exact ⟨by simp [start, both], both_contains ⟨one, first⟩ ⟨query, second⟩ reason (.inr rejected)⟩

def Handles (allowed : Q → Prop) (ran : Ran Q ε α) : Prop := ∀ query ∈ ran.handled, allowed query

theorem handles_bind (allowed : Q → Prop) (ran : Ran Q ε α) (next : α → Ran Q ε β) (first : Handles allowed ran)
    (after : ∀ value, ran.result = .ok value → Handles allowed (next value)) : Handles allowed (ran >>= next) := by
  cases result : ran.result with
  | error reason =>
      rw [bind_thrown ran next reason result]
      exact first
  | ok value =>
      rw [bind_returned ran next value result]
      intro query member
      rcases List.mem_append.mp member with early | late
      · exact first query early
      · exact after value result query late

theorem handles_await (allowed : Q → Prop) (query : Q) (outcome : Except (Reason ε) α) (fine : allowed query) :
    Handles allowed (start query outcome >>= await) := by
  rw [bind_returned _ _ _ rfl]
  intro other member
  have same : other = query := by simpa [start, await] using member
  rw [same]
  exact fine

theorem observed_dropped (query : Q) (outcome : Except (Reason ε) α) (rest : Ran Q ε β) (observed : Observed rest)
    (foreign : Handles (· ≠ query) rest) : Observed (start query outcome >>= fun _ => rest) ↔ reasonOf outcome = none := by
  rw [bind_returned _ _ _ rfl]
  constructor
  · intro whole
    cases rejected : reasonOf outcome with
    | none => rfl
    | some reason =>
        obtain ⟨handled, -⟩ := whole query reason (by simp [start, rejected])
        exact absurd rfl (foreign query (by simpa [start] using handled))
  · intro fulfilled other reason member
    rcases List.mem_append.mp member with early | late
    · have same : other = query ∧ some reason = reasonOf outcome := by simpa [start] using early
      rw [fulfilled] at same
      cases same.2
    · obtain ⟨handled, thrown⟩ := observed other reason late
      exact ⟨List.mem_append_right _ handled, thrown⟩

end Rules

end Promises
