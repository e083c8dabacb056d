import RateWise.Constraints
import RateWise.FlowChart

set_option autoImplicit false

namespace ReadCommitted

open Interleave

section Steps

variable {S : Schema} {C : Commands S.Fault} {Key Lock : Type} [DecidableEq Lock] {hash : Key → Lock}
variable {ε α Point : Type}

-- A step along a flow chart over the database: the statement at the point ran
-- in the rows the session sees, or was refused by the constraints.
inductive Moved (hash : Key → Lock) (chart : Point → Node (interface S C Key) ε α Point) (world : World S C)
    (others : List (Tx S Lock)) (p : Point) :
    Option (Tx S Lock) → Point → Option (Tx S Lock) → World S C → Event (interface S C Key) → Prop where
  | began (tx next) (here : chart p = .beginTx next) :
      Moved hash chart world others p tx next (some ⟨[], []⟩) world .opened
  | committed (tx next) (here : chart p = .commitTx next) :
      Moved hash chart world others p (some tx) next none ⟨view S world.db tx.writes, world.store⟩ .committed
  | committedNothing (next) (here : chart p = .commitTx next) :
      Moved hash chart world others p none next none world .committed
  | rolledBack (tx next) (here : chart p = .rollbackTx next) :
      Moved hash chart world others p tx next none world .rolledBack
  | refused (tx s next fault) (violated : S.refuses (view S world.db (pending tx)) s = some fault)
      (here : chart p = .stmt (.sql s) next) :
      Moved hash chart world others p tx (next (.error fault)) tx world (.ran (.sql s) (.error fault))
  | asked (tx s next) (allowed : S.refuses (view S world.db tx.writes) s = none)
      (free : ∀ other ∈ others, ∀ a ∈ S.attempts (view S world.db tx.writes) s, ∀ b ∈ other.writes, clash S a b = false)
      (here : chart p = .stmt (.sql s) next) :
      Moved hash chart world others p (some tx) (next (.ok (S.answer (view S world.db tx.writes) s)))
        (some ⟨tx.writes ++ S.attempts (view S world.db tx.writes) s, tx.advisory⟩) world
        (.ran (.sql s) (.ok (S.answer (view S world.db tx.writes) s)))
  | autocommitted (s next) (allowed : S.refuses world.db s = none)
      (free : ∀ other ∈ others, ∀ a ∈ S.attempts world.db s, ∀ b ∈ other.writes, clash S a b = false)
      (here : chart p = .stmt (.sql s) next) :
      Moved hash chart world others p none (next (.ok (S.answer world.db s))) none
        ⟨view S world.db (S.attempts world.db s), world.store⟩ (.ran (.sql s) (.ok (S.answer world.db s)))
  | locked (tx key next) (free : ∀ other ∈ others, hash key ∉ other.advisory)
      (here : chart p = .stmt (.tryLock key) next) :
      Moved hash chart world others p (some tx) (next (.ok true)) (some ⟨tx.writes, hash key :: tx.advisory⟩) world
        (.ran (.tryLock key) (.ok true))
  | turnedAway (tx key next other) (holder : other ∈ others) (held : hash key ∈ other.advisory)
      (here : chart p = .stmt (.tryLock key) next) :
      Moved hash chart world others p (some tx) (next (.ok false)) (some tx) world (.ran (.tryLock key) (.ok false))
  | lockedAlone (key next answer) (here : chart p = .stmt (.tryLock key) next) :
      Moved hash chart world others p none (next (.ok answer)) none world (.ran (.tryLock key) (.ok answer))
  | commanded (tx c next reply store) (replied : C.exec world.store c = .ok (reply, store))
      (here : chart p = .stmt (.cmd c) next) :
      Moved hash chart world others p tx (next (.ok reply)) tx ⟨world.db, store⟩ (.ran (.cmd c) (.ok reply))
  | commandFailed (tx c next fault) (replied : C.exec world.store c = .error fault)
      (here : chart p = .stmt (.cmd c) next) :
      Moved hash chart world others p tx (next (.error fault)) tx world (.ran (.cmd c) (.error fault))

theorem exec_sql (world left : World S C) (tx after : Tx S Lock) (others : List (Tx S Lock)) (s : S.Sql)
    (reply : S.Answer s) (answered : (engine S C hash).exec world tx others (.sql s) = .ok (reply, after, left)) :
    S.refuses (view S world.db tx.writes) s = none ∧ reply = S.answer (view S world.db tx.writes) s ∧
      after = ⟨tx.writes ++ S.attempts (view S world.db tx.writes) s, tx.advisory⟩ ∧ left = world := by
  simp only [engine] at answered
  cases violated : S.refuses (view S world.db tx.writes) s with
  | some fault => simp [violated] at answered
  | none =>
      rw [violated] at answered
      cases answered
      exact ⟨rfl, rfl, rfl, rfl⟩

theorem exec_sql_error (world : World S C) (tx : Tx S Lock) (others : List (Tx S Lock)) (s : S.Sql) (fault : S.Fault)
    (refused : (engine S C hash).exec world tx others (.sql s) = .error fault) :
    S.refuses (view S world.db tx.writes) s = some fault := by
  simp only [engine] at refused
  cases violated : S.refuses (view S world.db tx.writes) s with
  | none => simp [violated] at refused
  | some other =>
      rw [violated] at refused
      cases refused
      rfl

theorem exec_try_lock (world left : World S C) (tx after : Tx S Lock) (others : List (Tx S Lock)) (key : Key)
    (acquired : Bool) (answered : (engine S C hash).exec world tx others (.tryLock key) = .ok (acquired, after, left)) :
    left = world ∧
      ((acquired = false ∧ after = tx ∧ ∃ other ∈ others, hash key ∈ other.advisory) ∨
       (acquired = true ∧ after = ⟨tx.writes, hash key :: tx.advisory⟩ ∧ ∀ other ∈ others, hash key ∉ other.advisory)) := by
  simp only [engine] at answered
  by_cases held : (others.any fun other => other.advisory.contains (hash key)) = true
  · rw [if_pos held] at answered
    cases answered
    exact ⟨rfl, .inl ⟨rfl, rfl, by simpa using held⟩⟩
  · rw [if_neg held] at answered
    cases answered
    exact ⟨rfl, .inr ⟨rfl, rfl, by simpa using held⟩⟩

theorem exec_cmd (world left : World S C) (tx after : Tx S Lock) (others : List (Tx S Lock)) (c : C.Cmd)
    (reply : C.Reply c) (answered : (engine S C hash).exec world tx others (.cmd c) = .ok (reply, after, left)) :
    after = tx ∧ ∃ store, C.exec world.store c = .ok (reply, store) ∧ left = ⟨world.db, store⟩ := by
  simp only [engine] at answered
  cases replied : C.exec world.store c with
  | error fault => simp [replied] at answered
  | ok result =>
      rw [replied] at answered
      cases answered
      exact ⟨rfl, _, rfl, rfl⟩

theorem moved_of_taken (chart : Point → Node (interface S C Key) ε α Point) (world left : (engine S C hash).World)
    (others : List (engine S C hash).Tx) (p q : Point) (tx after : Option (engine S C hash).Tx)
    (event : Event (interface S C Key)) (taken : Taken chart world others p tx q after left event) :
    Moved hash chart world others p tx q after left event := by
  cases taken with
  | began _ _ here => exact .began _ _ here
  | committed _ _ here => exact .committed _ _ here
  | committedNothing _ here => exact .committedNothing _ here
  | rolledBack _ _ here => exact .rolledBack _ _ here
  | failed tx s next fault here free refused =>
      cases s with
      | sql s =>
          have violated := exec_sql_error world (tx.getD ⟨[], []⟩) others s fault refused
          exact .refused tx s next fault (by cases tx <;> exact violated) here
      | tryLock key =>
          simp only [engine] at refused
          split at refused <;> cases refused
      | cmd c =>
          simp only [engine] at refused
          cases replied : C.exec world.store c with
          | ok result => simp [replied] at refused
          | error other =>
              rw [replied] at refused
              cases refused
              exact .commandFailed tx c next fault replied here
  | ran tx s next reply after left here free answered =>
      cases s with
      | sql s =>
          obtain ⟨allowed, rfl, rfl, rfl⟩ := exec_sql world left tx after others s reply answered
          exact .asked _ s next allowed (free_of_clash _ _ others s free) here
      | tryLock key =>
          obtain ⟨rfl, ⟨rfl, rfl, other, holder, held⟩ | ⟨rfl, rfl, quiet⟩⟩ :=
            exec_try_lock world left tx after others key reply answered
          · exact .turnedAway _ key next other holder held here
          · exact .locked _ key next quiet here
      | cmd c =>
          obtain ⟨rfl, store, replied, rfl⟩ := exec_cmd world left tx after others c reply answered
          exact .commanded _ c next reply store replied here
  | autocommitted s next reply after left here free answered =>
      cases s with
      | sql s =>
          obtain ⟨allowed, rfl, rfl, rfl⟩ := exec_sql world left ⟨[], []⟩ after others s reply answered
          exact .autocommitted s next allowed (free_of_clash _ ⟨[], []⟩ others s free) here
      | tryLock key =>
          obtain ⟨rfl, ⟨rfl, rfl, -⟩ | ⟨rfl, rfl, -⟩⟩ := exec_try_lock world left ⟨[], []⟩ after others key reply answered
          · exact .lockedAlone key next false here
          · exact .lockedAlone key next true here
      | cmd c =>
          obtain ⟨rfl, store, replied, rfl⟩ := exec_cmd world left ⟨[], []⟩ after others c reply answered
          exact .commanded none c next reply store replied here

theorem advance_moved (chart : Point → Node (interface S C Key) ε α Point) (world left : World S C)
    (others : List (Tx S Lock)) (session after : Session (engine S C hash) ε α) (p : Point)
    (follows : Follows chart session.prog p) (advanced : session.advance world others = some (left, after)) :
    ∃ q event, Follows chart after.prog q ∧ after.log = event :: session.log ∧
      Moved hash chart world others p session.tx q after.tx left event := by
  obtain ⟨q, event, onward, logged, taken⟩ := follows_advance chart world left others session after p follows advanced
  exact ⟨q, event, onward, logged, moved_of_taken chart world left others p q _ _ event taken⟩

end Steps

section Inversion

variable {S : Schema} {C : Commands S.Fault} {Key Lock : Type} {hash : Key → Lock} {ε α Point : Type}

theorem moved_begin {chart : Point → Node (interface S C Key) ε α Point} {world left : World S C}
    {others : List (Tx S Lock)} {p q next : Point} {tx after : Option (Tx S Lock)} {event : Event (interface S C Key)}
    (moved : Moved hash chart world others p tx q after left event) (here : chart p = .beginTx next) :
    q = next ∧ after = some ⟨[], []⟩ ∧ left = world ∧ event = .opened := by
  cases moved with
  | began _ _ found =>
      rw [here] at found
      cases found
      exact ⟨rfl, rfl, rfl, rfl⟩
  | _ => simp_all

theorem moved_commit {chart : Point → Node (interface S C Key) ε α Point} {world left : World S C}
    {others : List (Tx S Lock)} {p q next : Point} {tx : Tx S Lock} {after : Option (Tx S Lock)}
    {event : Event (interface S C Key)} (moved : Moved hash chart world others p (some tx) q after left event)
    (here : chart p = .commitTx next) :
    q = next ∧ after = none ∧ left = ⟨view S world.db tx.writes, world.store⟩ ∧ event = .committed := by
  cases moved with
  | committed _ _ found =>
      rw [here] at found
      cases found
      exact ⟨rfl, rfl, rfl, rfl⟩
  | _ => simp_all

theorem moved_committed {chart : Point → Node (interface S C Key) ε α Point} {world left : World S C}
    {others : List (Tx S Lock)} {p q : Point} {tx after : Option (Tx S Lock)}
    (moved : Moved hash chart world others p tx q after left .committed) : ∃ next, chart p = .commitTx next := by
  cases moved with
  | committed _ _ here => exact ⟨q, here⟩
  | committedNothing _ here => exact ⟨q, here⟩

theorem moved_rollback {chart : Point → Node (interface S C Key) ε α Point} {world left : World S C}
    {others : List (Tx S Lock)} {p q next : Point} {tx after : Option (Tx S Lock)} {event : Event (interface S C Key)}
    (moved : Moved hash chart world others p tx q after left event) (here : chart p = .rollbackTx next) :
    q = next ∧ after = none ∧ left = world ∧ event = .rolledBack := by
  cases moved with
  | rolledBack _ _ found =>
      rw [here] at found
      cases found
      exact ⟨rfl, rfl, rfl, rfl⟩
  | _ => simp_all

theorem moved_sql {chart : Point → Node (interface S C Key) ε α Point} {world left : World S C}
    {others : List (Tx S Lock)} {p q : Point} {s : S.Sql} {next : Except S.Fault (S.Answer s) → Point} {tx : Tx S Lock}
    {after : Option (Tx S Lock)} {event : Event (interface S C Key)} (moved : Moved hash chart world others p (some tx) q after left event)
    (here : chart p = .stmt (.sql s) next) :
    (∃ fault, S.refuses (view S world.db tx.writes) s = some fault ∧ q = next (.error fault) ∧ after = some tx ∧
      left = world ∧ event = .ran (.sql s) (.error fault)) ∨
    (S.refuses (view S world.db tx.writes) s = none ∧
      (∀ other ∈ others, ∀ a ∈ S.attempts (view S world.db tx.writes) s, ∀ b ∈ other.writes, clash S a b = false) ∧
      q = next (.ok (S.answer (view S world.db tx.writes) s)) ∧
      after = some ⟨tx.writes ++ S.attempts (view S world.db tx.writes) s, tx.advisory⟩ ∧ left = world ∧
      event = .ran (.sql s) (.ok (S.answer (view S world.db tx.writes) s))) := by
  cases moved with
  | refused _ s' next' fault violated found =>
      rw [here] at found
      cases found
      exact .inl ⟨fault, violated, rfl, rfl, rfl, rfl⟩
  | asked _ s' next' allowed free found =>
      rw [here] at found
      cases found
      exact .inr ⟨allowed, free, rfl, rfl, rfl, rfl⟩
  | _ => simp_all

theorem moved_autocommit {chart : Point → Node (interface S C Key) ε α Point} {world left : World S C}
    {others : List (Tx S Lock)} {p q : Point} {s : S.Sql} {next : Except S.Fault (S.Answer s) → Point}
    {after : Option (Tx S Lock)} {event : Event (interface S C Key)} (moved : Moved hash chart world others p none q after left event)
    (here : chart p = .stmt (.sql s) next) :
    (∃ fault, S.refuses world.db s = some fault ∧ q = next (.error fault) ∧ after = none ∧ left = world ∧
      event = .ran (.sql s) (.error fault)) ∨
    (S.refuses world.db s = none ∧ q = next (.ok (S.answer world.db s)) ∧ after = none ∧
      left = ⟨view S world.db (S.attempts world.db s), world.store⟩ ∧
      event = .ran (.sql s) (.ok (S.answer world.db s))) := by
  cases moved with
  | refused _ s' next' fault violated found =>
      rw [here] at found
      cases found
      exact .inl ⟨fault, violated, rfl, rfl, rfl, rfl⟩
  | autocommitted s' next' allowed free found =>
      rw [here] at found
      cases found
      exact .inr ⟨allowed, rfl, rfl, rfl, rfl⟩
  | _ => simp_all

theorem moved_try_lock {chart : Point → Node (interface S C Key) ε α Point} {world left : World S C}
    {others : List (Tx S Lock)} {p q : Point} {key : Key} {next : Except S.Fault Bool → Point} {tx : Tx S Lock}
    {after : Option (Tx S Lock)} {event : Event (interface S C Key)} (moved : Moved hash chart world others p (some tx) q after left event)
    (here : chart p = .stmt (.tryLock key) next) :
    (q = next (.ok false) ∧ after = some tx ∧ left = world ∧ event = .ran (.tryLock key) (.ok false) ∧
      ∃ other ∈ others, hash key ∈ other.advisory) ∨
    (q = next (.ok true) ∧ after = some ⟨tx.writes, hash key :: tx.advisory⟩ ∧ left = world ∧
      event = .ran (.tryLock key) (.ok true) ∧ ∀ other ∈ others, hash key ∉ other.advisory) := by
  cases moved with
  | turnedAway _ key' next' other holder held found =>
      rw [here] at found
      cases found
      exact .inl ⟨rfl, rfl, rfl, rfl, other, holder, held⟩
  | locked _ key' next' free found =>
      rw [here] at found
      cases found
      exact .inr ⟨rfl, rfl, rfl, rfl, free⟩
  | _ => simp_all

theorem moved_cmd {chart : Point → Node (interface S C Key) ε α Point} {world left : World S C}
    {others : List (Tx S Lock)} {p q : Point} {c : C.Cmd} {next : Except S.Fault (C.Reply c) → Point}
    {tx after : Option (Tx S Lock)} {event : Event (interface S C Key)} (moved : Moved hash chart world others p tx q after left event)
    (here : chart p = .stmt (.cmd c) next) :
    after = tx ∧ left.db = world.db ∧ ∃ reply, q = next reply ∧ event = .ran (.cmd c) reply := by
  cases moved with
  | commanded _ c' next' reply store replied found =>
      rw [here] at found
      cases found
      exact ⟨rfl, rfl, _, rfl, rfl⟩
  | commandFailed _ c' next' fault replied found =>
      rw [here] at found
      cases found
      exact ⟨rfl, rfl, _, rfl, rfl⟩
  | _ => simp_all

theorem moved_ended {chart : Point → Node (interface S C Key) ε α Point} {world left : World S C}
    {others : List (Tx S Lock)} {p q : Point} {tx after : Option (Tx S Lock)} {event : Event (interface S C Key)}
    (moved : Moved hash chart world others p tx q after left event)
    (here : (∃ value, chart p = .done value) ∨ ∃ error, chart p = .throw error) : False := by
  rcases here with ⟨value, here⟩ | ⟨error, here⟩ <;> cases moved <;> simp_all

end Inversion

end ReadCommitted
