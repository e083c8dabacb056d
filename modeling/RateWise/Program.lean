import Mathlib.Data.List.Induction
import Mathlib.Data.Set.Card

set_option autoImplicit false

namespace Interleave

-- What a program may ask of the systems it talks to: statements, the type of
-- the reply to each of them, and the faults they can be answered with.
structure Interface where
  Stmt : Type
  Reply : Stmt → Type
  Fault : Type

-- An asynchronous function with exceptions. Every awaited statement is one
-- node, so that a scheduler can interleave programs between any two of them.
inductive Prog (I : Interface) (ε α : Type) where
  | done (value : α)
  | throw (error : ε)
  | stmt (s : I.Stmt) (next : Except I.Fault (I.Reply s) → Prog I ε α)
  | beginTx (next : Prog I ε α)
  | commitTx (next : Prog I ε α)
  | rollbackTx (next : Prog I ε α)

namespace Prog

def bind {I : Interface} {ε α β : Type} : Prog I ε α → (α → Prog I ε β) → Prog I ε β
  | .done value, next => next value
  | .throw error, _ => .throw error
  | .stmt s resume, next => .stmt s (fun reply => (resume reply).bind next)
  | .beginTx rest, next => .beginTx (rest.bind next)
  | .commitTx rest, next => .commitTx (rest.bind next)
  | .rollbackTx rest, next => .rollbackTx (rest.bind next)

instance {I : Interface} {ε : Type} : Monad (Prog I ε) where
  pure := .done
  bind := Prog.bind

-- try { body } catch (error) { handler(error) }
def catching {I : Interface} {ε α : Type} : Prog I ε α → (ε → Prog I ε α) → Prog I ε α
  | .done value, _ => .done value
  | .throw error, handler => handler error
  | .stmt s resume, handler => .stmt s (fun reply => (resume reply).catching handler)
  | .beginTx rest, handler => .beginTx (rest.catching handler)
  | .commitTx rest, handler => .commitTx (rest.catching handler)
  | .rollbackTx rest, handler => .rollbackTx (rest.catching handler)

-- The tail of a transaction callback: COMMIT when it returns, ROLLBACK and
-- the same exception again when it throws.
def settled {I : Interface} {ε α : Type} : Prog I ε α → Prog I ε α
  | .done value => .commitTx (.done value)
  | .throw error => .rollbackTx (.throw error)
  | .stmt s resume => .stmt s (fun reply => (resume reply).settled)
  | .beginTx rest => .beginTx rest.settled
  | .commitTx rest => .commitTx rest.settled
  | .rollbackTx rest => .rollbackTx rest.settled

def transaction {I : Interface} {ε α : Type} (body : Prog I ε α) : Prog I ε α :=
  .beginTx body.settled

-- One awaited statement whose fault is rethrown to the caller.
def query {I : Interface} {ε : Type} (raise : I.Fault → ε) (s : I.Stmt) : Prog I ε (I.Reply s) :=
  .stmt s fun
    | .ok reply => .done reply
    | .error fault => .throw (raise fault)

def asked {I : Interface} {ε α : Type} : Prog I ε α → Option I.Stmt
  | .stmt s _ => some s
  | _ => none

def closes {I : Interface} {ε α : Type} : Prog I ε α → Bool
  | .commitTx _ => true
  | _ => false

-- The program opens no transaction and issues statements of one kind only,
-- whatever it is answered, and what it returns meets the postcondition.
def Quiet {I : Interface} {ε α : Type} (allowed : I.Stmt → Prop) (post : α → Prop) : Prog I ε α → Prop
  | .done value => post value
  | .throw _ => True
  | .stmt s resume => allowed s ∧ ∀ reply, (resume reply).Quiet allowed post
  | _ => False

theorem quiet_mono {I : Interface} {ε α : Type} (allowed : I.Stmt → Prop) (strong weak : α → Prop) (prog : Prog I ε α)
    (quiet : prog.Quiet allowed strong) (implied : ∀ value, strong value → weak value) : prog.Quiet allowed weak := by
  induction prog with
  | done value => exact implied value quiet
  | throw error => exact quiet
  | stmt s resume ih => exact ⟨quiet.1, fun reply => ih reply (quiet.2 reply)⟩
  | beginTx rest => cases quiet
  | commitTx rest => cases quiet
  | rollbackTx rest => cases quiet

theorem quiet_wider {I : Interface} {ε α : Type} (allowed wider : I.Stmt → Prop) (post : α → Prop) (prog : Prog I ε α)
    (quiet : prog.Quiet allowed post) (implied : ∀ s, allowed s → wider s) : prog.Quiet wider post := by
  induction prog with
  | done value => exact quiet
  | throw error => exact quiet
  | stmt s resume ih => exact ⟨implied s quiet.1, fun reply => ih reply (quiet.2 reply)⟩
  | beginTx rest => cases quiet
  | commitTx rest => cases quiet
  | rollbackTx rest => cases quiet

theorem quiet_bind {I : Interface} {ε α β : Type} (allowed : I.Stmt → Prop) (middle : α → Prop) (post : β → Prop)
    (prog : Prog I ε α) (next : α → Prog I ε β) (first : prog.Quiet allowed middle)
    (second : ∀ value, middle value → (next value).Quiet allowed post) : (prog.bind next).Quiet allowed post := by
  induction prog with
  | done value => exact second value first
  | throw error => exact first
  | stmt s resume ih => exact ⟨first.1, fun reply => ih reply (first.2 reply)⟩
  | beginTx rest => cases first
  | commitTx rest => cases first
  | rollbackTx rest => cases first

theorem quiet_catching {I : Interface} {ε α : Type} (allowed : I.Stmt → Prop) (post : α → Prop) (prog : Prog I ε α)
    (handler : ε → Prog I ε α) (first : prog.Quiet allowed post) (second : ∀ error, (handler error).Quiet allowed post) :
    (prog.catching handler).Quiet allowed post := by
  induction prog with
  | done value => exact first
  | throw error => exact second error
  | stmt s resume ih => exact ⟨first.1, fun reply => ih reply (first.2 reply)⟩
  | beginTx rest => cases first
  | commitTx rest => cases first
  | rollbackTx rest => cases first

theorem bind_assoc {I : Interface} {ε α β γ : Type} (prog : Prog I ε α) (next : α → Prog I ε β) (last : β → Prog I ε γ) :
    (prog.bind next).bind last = prog.bind fun value => (next value).bind last := by
  induction prog with
  | done value => rfl
  | throw error => rfl
  | stmt s resume ih => exact congrArg (Prog.stmt s) (funext ih)
  | beginTx rest ih => exact congrArg Prog.beginTx ih
  | commitTx rest ih => exact congrArg Prog.commitTx ih
  | rollbackTx rest ih => exact congrArg Prog.rollbackTx ih

end Prog

end Interleave
