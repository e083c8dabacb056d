import Mathlib.Data.List.Basic
import RateWise.Interleaving

set_option autoImplicit false

namespace ReadCommitted

open Interleave

-- Row-lock strengths: a foreign-key check shares the key of its parent row,
-- an UPDATE of ordinary columns keeps the key, DELETE and INSERT take the row.
inductive Mode where
  | keyShare
  | noKeyUpdate
  | update
deriving DecidableEq, Repr

def Mode.conflicts : Mode → Mode → Bool
  | .keyShare, .keyShare => false
  | .keyShare, .noKeyUpdate => false
  | .noKeyUpdate, .keyShare => false
  | _, _ => true

-- A database seen through its statements. attempts lists the row changes a
-- statement wants to make (and so the locks it needs) in the rows it sees,
-- refuses is the error that its constraints raise instead.
structure Schema where
  Db : Type
  Write : Type
  Resource : Type
  Sql : Type
  Answer : Sql → Type
  Fault : Type
  decResource : DecidableEq Resource
  apply : Db → Write → Db
  claims : Write → List (Resource × Mode)
  attempts : Db → Sql → List Write
  refuses : Db → Sql → Option Fault
  answer : Db → (s : Sql) → Answer s

-- A store beside the database whose commands act at once and never wait.
structure Commands (Fault : Type) where
  Store : Type
  Cmd : Type
  Reply : Cmd → Type
  Drift : Type
  exec : Store → (c : Cmd) → Except Fault (Reply c × Store)
  drift : Store → Drift → Store

inductive Call (Sql Key Cmd : Type) where
  | sql (s : Sql)
  | tryLock (key : Key)
  | cmd (c : Cmd)
deriving DecidableEq

section Machine

variable (S : Schema) (C : Commands S.Fault)

instance : DecidableEq S.Resource := S.decResource

structure World where
  db : S.Db
  store : C.Store

-- An open transaction: the redo log of its uncommitted row changes and the
-- advisory locks it holds to its end.
structure Tx (Lock : Type) where
  writes : List S.Write
  advisory : List Lock

@[reducible] def interface (Key : Type) : Interface where
  Stmt := Call S.Sql Key C.Cmd
  Reply
    | .sql s => S.Answer s
    | .tryLock _ => Bool
    | .cmd c => C.Reply c
  Fault := S.Fault

def view (db : S.Db) (writes : List S.Write) : S.Db := writes.foldl S.apply db

def clash (a b : S.Write) : Bool :=
  (S.claims a).any fun x => (S.claims b).any fun y => decide (x.1 = y.1) && x.2.conflicts y.2

-- Each statement reads the rows committed when it starts, under the changes
-- of its own transaction. A change whose lock another open transaction holds
-- waits; the row locks are held to the end, so replaying the redo log on the
-- rows committed by then gives the row versions the statements wrote.
def engine {Key Lock : Type} [DecidableEq Lock] (hash : Key → Lock) : Engine (interface S C Key) where
  World := World S C
  Tx := Tx S Lock
  Drift := C.Drift
  empty := ⟨[], []⟩
  waits world tx others
    | .sql s => (S.attempts (view S world.db tx.writes) s).any fun a =>
        others.any fun other => other.writes.any fun b => clash S a b
    | _ => false
  exec world tx others
    | .sql s => match S.refuses (view S world.db tx.writes) s with
      | some fault => .error fault
      | none => .ok (S.answer (view S world.db tx.writes) s,
          ⟨tx.writes ++ S.attempts (view S world.db tx.writes) s, tx.advisory⟩, world)
    | .tryLock key =>
        if others.any fun other => other.advisory.contains (hash key) then .ok (false, tx, world)
        else .ok (true, ⟨tx.writes, hash key :: tx.advisory⟩, world)
    | .cmd c => match C.exec world.store c with
      | .error fault => .error fault
      | .ok (reply, store) => .ok (reply, tx, ⟨world.db, store⟩)
  commit world tx := ⟨view S world.db tx.writes, world.store⟩
  drift world change := ⟨world.db, C.drift world.store change⟩
  waits_alone _ _ s := by cases s <;> simp

end Machine

theorem conflicts_symm (a b : Mode) : a.conflicts b = b.conflicts a := by
  cases a <;> cases b <;> rfl

theorem clash_iff (S : Schema) (a b : S.Write) :
    clash S a b = true ↔ ∃ r m k, (r, m) ∈ S.claims a ∧ (r, k) ∈ S.claims b ∧ m.conflicts k = true := by
  simp only [clash, List.any_eq_true, Bool.and_eq_true, decide_eq_true_eq]
  constructor
  · rintro ⟨⟨r, m⟩, left, ⟨r', k⟩, right, same, conflict⟩
    cases same
    exact ⟨r, m, k, left, right, conflict⟩
  · rintro ⟨r, m, k, left, right, conflict⟩
    exact ⟨(r, m), left, (r, k), right, rfl, conflict⟩

theorem clash_symm (S : Schema) (a b : S.Write) : clash S a b = clash S b a := by
  rw [Bool.eq_iff_iff, clash_iff, clash_iff]
  constructor
  · rintro ⟨r, m, k, left, right, conflict⟩
    exact ⟨r, k, m, right, left, by rw [conflicts_symm, conflict]⟩
  · rintro ⟨r, m, k, left, right, conflict⟩
    exact ⟨r, k, m, right, left, by rw [conflicts_symm, conflict]⟩

structure Compatible {S : Schema} {Lock : Type} (a b : Tx S Lock) : Prop where
  rows : ∀ x ∈ a.writes, ∀ y ∈ b.writes, clash S x y = false
  advisory : ∀ lock ∈ a.advisory, lock ∉ b.advisory

theorem Compatible.symm {S : Schema} {Lock : Type} {a b : Tx S Lock} (compatible : Compatible a b) :
    Compatible b a where
  rows x inB y inA := by rw [clash_symm]; exact compatible.rows y inA x inB
  advisory lock inB inA := compatible.advisory lock inA inB

theorem compatible_empty {S : Schema} {Lock : Type} (tx : Tx S Lock) : Compatible ⟨[], []⟩ tx where
  rows := by simp
  advisory := by simp

section Locking

variable {S : Schema} {C : Commands S.Fault} {Key Lock : Type} [DecidableEq Lock] {hash : Key → Lock}

theorem exec_compatible (world next : World S C) (tx after : Tx S Lock) (others : List (Tx S Lock))
    (s : Call S.Sql Key C.Cmd) (reply : (interface S C Key).Reply s)
    (free : (engine S C hash).waits world tx others s = false)
    (ran : (engine S C hash).exec world tx others s = .ok (reply, after, next))
    (compatible : ∀ other ∈ others, Compatible tx other) :
    ∀ other ∈ others, Compatible after other := by
  intro other member
  have before := compatible other member
  cases s with
  | sql s =>
      simp only [engine] at free ran
      cases refused : S.refuses (view S world.db tx.writes) s with
      | some fault => simp [refused] at ran
      | none =>
          rw [refused] at ran
          cases ran
          refine ⟨fun x inWrites y inOther => ?_, before.advisory⟩
          rcases List.mem_append.mp inWrites with old | added
          · exact before.rows x old y inOther
          · rw [List.any_eq_false] at free
            have quiet := free x added
            simp only [List.any_eq_true, not_exists, not_and, Bool.not_eq_true] at quiet
            exact quiet other member y inOther
  | tryLock key =>
      simp only [engine] at ran
      by_cases held : (others.any fun other => other.advisory.contains (hash key)) = true
      · rw [if_pos held] at ran
        cases ran
        exact before
      · rw [if_neg held] at ran
        cases ran
        refine ⟨before.rows, fun lock inAfter inOther => ?_⟩
        rcases List.mem_cons.mp inAfter with fresh | old
        · apply held
          rw [List.any_eq_true]
          exact ⟨other, member, by simpa [← fresh] using inOther⟩
        · exact before.advisory lock old inOther
  | cmd c =>
      simp only [engine] at ran
      cases replied : C.exec world.store c with
      | error fault => simp [replied] at ran
      | ok result =>
          rw [replied] at ran
          cases ran
          exact before

def SessionsCompatible {ε α : Type} (a b : Session (engine S C hash) ε α) : Prop :=
  ∀ x y, a.tx = some x → b.tx = some y → Compatible x y

theorem sessions_compatible_symm {ε α : Type} (a b : Session (engine S C hash) ε α)
    (compatible : SessionsCompatible a b) : SessionsCompatible b a :=
  fun x y left right => (compatible y x right left).symm

theorem advance_compatible {ε α : Type} (world next : World S C) (others : List (Tx S Lock))
    (session after other : Session (engine S C hash) ε α)
    (listed : ∀ tx, other.tx = some tx → tx ∈ others)
    (advanced : session.advance world others = some (next, after))
    (compatible : ∀ tx, session.tx = some tx → ∀ o ∈ others, Compatible tx o) :
    SessionsCompatible after other := by
  intro x y left right
  have member := listed y right
  obtain ⟨prog, tx, log⟩ := session
  cases prog with
  | done value => cases advanced
  | throw error => cases advanced
  | beginTx rest =>
      cases advanced
      cases left
      exact compatible_empty y
  | commitTx rest => cases tx <;> cases advanced <;> cases left
  | rollbackTx rest =>
      cases advanced
      cases left
  | stmt s resume =>
      simp only [Session.advance] at advanced
      split at advanced
      · cases advanced
      · rename_i free
        split at advanced
        · cases advanced
          exact compatible x left y member
        · rename_i reply result changed ran
          cases tx with
          | none =>
              cases advanced
              cases left
          | some tx =>
              cases advanced
              cases left
              exact exec_compatible world next tx x others s reply (by simpa using free) ran
                (compatible tx rfl) y member

theorem step_sessions_compatible {ε α : Type} {n : Nat} (net next : Net (engine S C hash) ε α n)
    (move : Move (engine S C hash) n)
    (compatible : ∀ i j, i ≠ j → SessionsCompatible (net.sessions i) (net.sessions j))
    (stepped : step net move = some next) :
    ∀ i j, i ≠ j → SessionsCompatible (next.sessions i) (next.sessions j) := by
  have inv : Modular (fun _ => True) (fun _ _ _ => True) SessionsCompatible net :=
    ⟨trivial, fun _ => trivial, compatible⟩
  rcases step_cases net next move stepped with ⟨i, world, session, -, advanced, rfl⟩ |
    ⟨i, fault, session, -, interrupted, rfl⟩ | ⟨change, -, rfl⟩
  · refine (modular_update sessions_compatible_symm net inv i world session trivial trivial
      (fun _ _ => trivial) fun j different => ?_).pair
    refine advance_compatible net.world world (others net i) (net.sessions i) session (net.sessions j)
      (fun tx found => (mem_others net i tx).mpr ⟨j, different, found⟩) advanced fun tx mine o member => ?_
    obtain ⟨k, other, theirs⟩ := (mem_others net i o).mp member
    exact compatible i k (Ne.symm other) tx o mine theirs
  · refine (modular_update sessions_compatible_symm net inv i net.world session trivial trivial
      (fun _ _ => trivial) fun j different x y mine theirs => ?_).pair
    have kept : session.tx = (net.sessions i).tx := by
      revert interrupted
      unfold Session.interrupt
      split
      · intro interrupted
        cases interrupted
        rfl
      · intro interrupted
        cases interrupted
    exact compatible i j (Ne.symm different) x y (kept ▸ mine) theirs
  · exact compatible

end Locking

end ReadCommitted
