import RateWise.Solo
import RateWise.Typestate

set_option autoImplicit false

namespace Interleave

-- The program sends statements of one kind only as long as the replies to it
-- are credible, and what it returns then meets the postcondition.
def Prog.Heeds {I : Interface} {ε α : Type} (allowed : I.Stmt → Prop) (credible : (s : I.Stmt) → I.Reply s → Prop)
    (post : α → Prop) : Prog I ε α → Prop
  | .done value => post value
  | .throw _ => True
  | .stmt s resume => allowed s ∧ (∀ fault, (resume (.error fault)).Heeds allowed credible post) ∧
      ∀ reply, credible s reply → (resume (.ok reply)).Heeds allowed credible post
  | .beginTx rest => rest.Heeds allowed credible post
  | .commitTx rest => rest.Heeds allowed credible post
  | .rollbackTx rest => rest.Heeds allowed credible post

section Heeding

variable {I : Interface} {ε α β : Type} {allowed : I.Stmt → Prop} {credible : (s : I.Stmt) → I.Reply s → Prop}

theorem heeds_wider {wider : I.Stmt → Prop} {fewer : (s : I.Stmt) → I.Reply s → Prop} (strong weak : α → Prop) (prog : Prog I ε α)
    (heeds : prog.Heeds allowed credible strong) (permits : ∀ s, allowed s → wider s)
    (narrower : ∀ s reply, fewer s reply → credible s reply) (implied : ∀ value, strong value → weak value) :
    prog.Heeds wider fewer weak := by
  induction prog with
  | done value => exact implied value heeds
  | throw error => trivial
  | stmt s resume ih =>
      exact ⟨permits s heeds.1, fun fault => ih _ (heeds.2.1 fault), fun reply likely => ih _ (heeds.2.2 reply (narrower s reply likely))⟩
  | beginTx rest ih => exact ih heeds
  | commitTx rest ih => exact ih heeds
  | rollbackTx rest ih => exact ih heeds

theorem heeds_mono (strong weak : α → Prop) (prog : Prog I ε α) (heeds : prog.Heeds allowed credible strong)
    (implied : ∀ value, strong value → weak value) : prog.Heeds allowed credible weak :=
  heeds_wider strong weak prog heeds (fun _ sent => sent) (fun _ _ likely => likely) implied

theorem heeds_bind (middle : α → Prop) (post : β → Prop) (prog : Prog I ε α) (next : α → Prog I ε β)
    (first : prog.Heeds allowed credible middle) (second : ∀ value, middle value → (next value).Heeds allowed credible post) :
    (prog.bind next).Heeds allowed credible post := by
  induction prog with
  | done value => exact second value first
  | throw error => trivial
  | stmt s resume ih =>
      exact ⟨first.1, fun fault => ih _ (first.2.1 fault), fun reply likely => ih _ (first.2.2 reply likely)⟩
  | beginTx rest ih => exact ih first
  | commitTx rest ih => exact ih first
  | rollbackTx rest ih => exact ih first

theorem heeds_catching (post : α → Prop) (prog : Prog I ε α) (handler : ε → Prog I ε α)
    (first : prog.Heeds allowed credible post) (second : ∀ error, (handler error).Heeds allowed credible post) :
    (prog.catching handler).Heeds allowed credible post := by
  induction prog with
  | done value => exact first
  | throw error => exact second error
  | stmt s resume ih =>
      exact ⟨first.1, fun fault => ih _ (first.2.1 fault), fun reply likely => ih _ (first.2.2 reply likely)⟩
  | beginTx rest ih => exact ih first
  | commitTx rest ih => exact ih first
  | rollbackTx rest ih => exact ih first

theorem heeds_transaction (post : α → Prop) (body : Prog I ε α) (heeds : body.Heeds allowed credible post) :
    (Prog.transaction body).Heeds allowed credible post := by
  show body.settled.Heeds allowed credible post
  induction body with
  | done value => exact heeds
  | throw error => trivial
  | stmt s resume ih =>
      exact ⟨heeds.1, fun fault => ih _ (heeds.2.1 fault), fun reply likely => ih _ (heeds.2.2 reply likely)⟩
  | beginTx rest ih => exact ih heeds
  | commitTx rest ih => exact ih heeds
  | rollbackTx rest ih => exact ih heeds

theorem heeds_asked (post : α → Prop) (prog : Prog I ε α) (s : I.Stmt) (heeds : prog.Heeds allowed credible post)
    (asks : prog.asked = some s) : allowed s := by
  cases prog with
  | stmt other resume =>
      cases asks
      exact heeds.1
  | _ => cases asks

theorem heeds_sends (prog : Prog I ε α) (sends : prog.Sends allowed) : prog.Heeds allowed credible fun _ => True := by
  induction prog with
  | done value => trivial
  | throw error => trivial
  | stmt s resume ih => exact ⟨sends.1, fun fault => ih _ (sends.2 _), fun reply _ => ih _ (sends.2 _)⟩
  | beginTx rest ih => exact ih sends
  | commitTx rest ih => exact ih sends
  | rollbackTx rest ih => exact ih sends

theorem heeds_quiet (post : α → Prop) (prog : Prog I ε α) (quiet : prog.Quiet allowed post) : prog.Heeds allowed credible post := by
  induction prog with
  | done value => exact quiet
  | throw error => trivial
  | stmt s resume ih => exact ⟨quiet.1, fun fault => ih _ (quiet.2 _), fun reply _ => ih _ (quiet.2 _)⟩
  | beginTx rest => cases quiet
  | commitTx rest => cases quiet
  | rollbackTx rest => cases quiet

end Heeding

end Interleave

namespace ReadCommitted

open Interleave

structure RowRule (S : Schema) where
  Good : S.Db → Prop
  Lawful : S.Write → Prop
  good_apply : ∀ db w, Good db → Lawful w → Good (S.apply db w)

namespace RowRule

variable {S : Schema} {C : Commands S.Fault} {Key Lock : Type}

-- Statements whose row changes are lawful in any rows.
def Allows (R : RowRule S) : (interface S C Key).Stmt → Prop
  | .sql q => ∀ rows, ∀ w ∈ S.attempts rows q, R.Lawful w
  | _ => True

-- Replies from rows that the law has kept good.
def Credible (R : RowRule S) : (s : (interface S C Key).Stmt) → (interface S C Key).Reply s → Prop
  | .sql q, reply => ∃ rows, R.Good rows ∧ reply = S.answer rows q
  | .tryLock _, _ => True
  | .cmd _, _ => True

def Obeys {ε α : Type} (R : RowRule S) (prog : Prog (interface S C Key) ε α) : Prop :=
  prog.Heeds R.Allows R.Credible fun _ => True

theorem good_view (R : RowRule S) (db : S.Db) (ws : List S.Write) (good : R.Good db) (lawful : ∀ w ∈ ws, R.Lawful w) :
    R.Good (view S db ws) := by
  induction ws generalizing db with
  | nil => exact good
  | cons w rest ih =>
      exact ih (S.apply db w) (R.good_apply db w good (lawful w (by simp))) fun x later => lawful x (by simp [later])

variable [DecidableEq Lock] {hash : Key → Lock}

theorem credible_reply (R : RowRule S) (world next : World S C) (tx after : Tx S Lock) (others : List (Tx S Lock))
    (s : Call S.Sql Key C.Cmd) (reply : (interface S C Key).Reply s) (good : R.Good world.db)
    (lawful : ∀ w ∈ tx.writes, R.Lawful w) (ran : (engine S C hash).exec world tx others s = .ok (reply, after, next)) :
    R.Credible s reply := by
  cases s with
  | sql q =>
      simp only [engine] at ran
      split at ran
      · cases ran
      · cases ran
        exact ⟨_, R.good_view world.db tx.writes good lawful, rfl⟩
  | tryLock key => trivial
  | cmd c => trivial

theorem solo_good {ε α : Type} (R : RowRule S) (prog : Prog (interface S C Key) ε α) (world : World S C) (tx : Option (Tx S Lock))
    (good : R.Good world.db) (lawful : ∀ w ∈ pending tx, R.Lawful w) (obeys : R.Obeys prog) :
    R.Good (prog.solo (engine S C hash) world tx).2.1.db := by
  induction prog generalizing world tx with
  | done value => exact good
  | throw error => exact good
  | beginTx rest ih => exact ih world _ good (fun w none => by cases none) obeys
  | rollbackTx rest ih => exact ih world _ good (fun w none => by cases none) obeys
  | commitTx rest ih =>
      refine ih _ none ?_ (fun w none => by cases none) obeys
      cases tx with
      | none => exact good
      | some open_ => exact R.good_view world.db open_.writes good lawful
  | stmt s resume ih =>
      obtain ⟨allowed, failed, answered⟩ := obeys
      have own : ∀ w ∈ (tx.getD (engine S C hash).empty).writes, R.Lawful w := by
        cases tx with
        | none => exact fun w none => by cases none
        | some open_ => exact lawful
      cases ran : (engine S C hash).exec world (tx.getD (engine S C hash).empty) [] s with
      | error fault =>
          rw [solo_failed (engine S C hash) s resume world tx fault ran]
          exact ih _ world tx good lawful (failed fault)
      | ok answer =>
          obtain ⟨reply, after, left⟩ := answer
          have likely := R.credible_reply _ _ _ _ _ s reply good own ran
          obtain ⟨rows, written⟩ := exec_writes _ _ _ _ _ s reply ran
          have changes : ∀ w ∈ after.writes, R.Lawful w := by
            rcases written with same | ⟨q, rfl, -, added⟩
            · rw [same]
              exact own
            · rw [added]
              intro w member
              rcases List.mem_append.mp member with old | new
              · exact own w old
              · exact allowed _ w new
          have kept : R.Good left.db := rows ▸ good
          rw [solo_replied (engine S C hash) s resume world left tx after reply ran]
          cases tx with
          | none => exact ih _ _ none (R.good_view left.db after.writes kept changes) (fun w none => by cases none) (answered reply likely)
          | some open_ => exact ih _ left (some after) kept changes (answered reply likely)

end RowRule

end ReadCommitted
