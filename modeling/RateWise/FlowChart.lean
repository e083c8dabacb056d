import RateWise.Interleaving

set_option autoImplicit false

namespace Interleave

-- One point of a flow chart: what the program does there and where it goes on.
inductive Node (I : Interface) (ε α Point : Type) where
  | done (value : α)
  | throw (error : ε)
  | stmt (s : I.Stmt) (next : Except I.Fault (I.Reply s) → Point)
  | beginTx (next : Point)
  | commitTx (next : Point)
  | rollbackTx (next : Point)

def Follows {I : Interface} {ε α Point : Type} (chart : Point → Node I ε α Point) : Prog I ε α → Point → Prop
  | .done value, p => chart p = .done value
  | .throw error, p => chart p = .throw error
  | .stmt s resume, p => ∃ next, chart p = .stmt s next ∧ ∀ reply, Follows chart (resume reply) (next reply)
  | .beginTx rest, p => ∃ next, chart p = .beginTx next ∧ Follows chart rest next
  | .commitTx rest, p => ∃ next, chart p = .commitTx next ∧ Follows chart rest next
  | .rollbackTx rest, p => ∃ next, chart p = .rollbackTx next ∧ Follows chart rest next

section Steps

theorem follows_stmt {I : Interface} {ε α Point : Type} {chart : Point → Node I ε α Point} {p : Point} {s : I.Stmt}
    {resume : Except I.Fault (I.Reply s) → Prog I ε α} (next : Except I.Fault (I.Reply s) → Point)
    (here : chart p = .stmt s next) (refused : ∀ fault, Follows chart (resume (.error fault)) (next (.error fault)))
    (answered : ∀ reply, Follows chart (resume (.ok reply)) (next (.ok reply))) :
    Follows chart (.stmt s resume) p :=
  ⟨next, here, fun | .error fault => refused fault | .ok reply => answered reply⟩

theorem follows_begin {I : Interface} {ε α Point : Type} {chart : Point → Node I ε α Point} {p : Point}
    {rest : Prog I ε α} (next : Point) (here : chart p = .beginTx next) (onward : Follows chart rest next) :
    Follows chart (.beginTx rest) p := ⟨next, here, onward⟩

theorem follows_commit {I : Interface} {ε α Point : Type} {chart : Point → Node I ε α Point} {p : Point}
    {rest : Prog I ε α} (next : Point) (here : chart p = .commitTx next) (onward : Follows chart rest next) :
    Follows chart (.commitTx rest) p := ⟨next, here, onward⟩

theorem follows_rollback {I : Interface} {ε α Point : Type} {chart : Point → Node I ε α Point} {p : Point}
    {rest : Prog I ε α} (next : Point) (here : chart p = .rollbackTx next) (onward : Follows chart rest next) :
    Follows chart (.rollbackTx rest) p := ⟨next, here, onward⟩

variable {I : Interface} {E : Engine I} {ε α Point : Type}

-- A step of a session along its chart: from a point and an open transaction
-- to the next ones, with the world it leaves and the event it logs.
inductive Taken (chart : Point → Node I ε α Point) (world : E.World) (others : List E.Tx) (p : Point) :
    Option E.Tx → Point → Option E.Tx → E.World → Event I → Prop where
  | began (tx next) (here : chart p = .beginTx next) :
      Taken chart world others p tx next (some E.empty) world .opened
  | committed (tx next) (here : chart p = .commitTx next) :
      Taken chart world others p (some tx) next none (E.commit world tx) .committed
  | committedNothing (next) (here : chart p = .commitTx next) :
      Taken chart world others p none next none world .committed
  | rolledBack (tx next) (here : chart p = .rollbackTx next) :
      Taken chart world others p tx next none world .rolledBack
  | failed (tx s next fault) (here : chart p = .stmt s next)
      (free : E.waits world (tx.getD E.empty) others s = false)
      (refused : E.exec world (tx.getD E.empty) others s = .error fault) :
      Taken chart world others p tx (next (.error fault)) tx world (.ran s (.error fault))
  | ran (tx s next reply after left) (here : chart p = .stmt s next) (free : E.waits world tx others s = false)
      (answered : E.exec world tx others s = .ok (reply, after, left)) :
      Taken chart world others p (some tx) (next (.ok reply)) (some after) left (.ran s (.ok reply))
  | autocommitted (s next reply after left) (here : chart p = .stmt s next)
      (free : E.waits world E.empty others s = false)
      (answered : E.exec world E.empty others s = .ok (reply, after, left)) :
      Taken chart world others p none (next (.ok reply)) none (E.commit left after) (.ran s (.ok reply))

theorem follows_advance (chart : Point → Node I ε α Point) (world left : E.World) (others : List E.Tx)
    (session after : Session E ε α) (p : Point) (follows : Follows chart session.prog p)
    (advanced : session.advance world others = some (left, after)) :
    ∃ q event, Follows chart after.prog q ∧ after.log = event :: session.log ∧
      Taken chart world others p session.tx q after.tx left event := by
  obtain ⟨prog, tx, log⟩ := session
  cases prog with
  | done value => cases advanced
  | throw error => cases advanced
  | beginTx rest =>
      obtain ⟨next, here, onward⟩ := follows
      cases advanced
      exact ⟨next, _, onward, rfl, .began tx next here⟩
  | commitTx rest =>
      obtain ⟨next, here, onward⟩ := follows
      cases tx with
      | none =>
          cases advanced
          exact ⟨next, _, onward, rfl, .committedNothing next here⟩
      | some tx =>
          cases advanced
          exact ⟨next, _, onward, rfl, .committed tx next here⟩
  | rollbackTx rest =>
      obtain ⟨next, here, onward⟩ := follows
      cases advanced
      exact ⟨next, _, onward, rfl, .rolledBack tx next here⟩
  | stmt s resume =>
      obtain ⟨next, here, onward⟩ := follows
      simp only [Session.advance] at advanced
      split at advanced
      · cases advanced
      · rename_i free
        simp only [Bool.not_eq_true] at free
        split at advanced
        · rename_i fault refused
          cases advanced
          exact ⟨_, _, onward _, rfl, .failed tx s next fault here free refused⟩
        · rename_i reply result changed answered
          cases tx with
          | none =>
              cases advanced
              exact ⟨_, _, onward _, rfl, .autocommitted s next reply result changed here free answered⟩
          | some tx =>
              cases advanced
              exact ⟨_, _, onward _, rfl, .ran tx s next reply result _ here free answered⟩

theorem follows_interrupt (chart : Point → Node I ε α Point) (session after : Session E ε α) (p : Point)
    (fault : I.Fault) (follows : Follows chart session.prog p)
    (interrupted : session.interrupt fault = some after) :
    ∃ s next, chart p = .stmt s next ∧ Follows chart after.prog (next (.error fault)) ∧
      after.tx = session.tx ∧ after.log = .ran s (.error fault) :: session.log := by
  obtain ⟨prog, tx, log⟩ := session
  cases prog with
  | stmt s resume =>
      obtain ⟨next, here, onward⟩ := follows
      cases interrupted
      exact ⟨s, next, here, onward _, rfl, rfl⟩
  | _ => cases interrupted

theorem follows_asks {I : Interface} {ε α Point : Type} {chart : Point → Node I ε α Point} {prog : Prog I ε α} {p : Point}
    {s : I.Stmt} {next : Except I.Fault (I.Reply s) → Point} (follows : Follows chart prog p) (here : chart p = .stmt s next) :
    prog.asked = some s := by
  cases prog with
  | stmt s' resume =>
      obtain ⟨next', found, -⟩ := follows
      rw [here] at found
      cases found
      rfl
  | done value => cases here.symm.trans follows
  | throw error => cases here.symm.trans follows
  | beginTx rest => cases here.symm.trans follows.choose_spec.1
  | commitTx rest => cases here.symm.trans follows.choose_spec.1
  | rollbackTx rest => cases here.symm.trans follows.choose_spec.1

theorem asked_follows {I : Interface} {ε α Point : Type} {chart : Point → Node I ε α Point} {prog : Prog I ε α} {p : Point}
    {s : I.Stmt} (follows : Follows chart prog p) (asks : prog.asked = some s) : ∃ next, chart p = .stmt s next := by
  cases prog with
  | stmt s' resume =>
      obtain ⟨next, found, -⟩ := follows
      cases asks
      exact ⟨next, found⟩
  | _ => cases asks

theorem follows_closes {I : Interface} {ε α Point : Type} {chart : Point → Node I ε α Point} {prog : Prog I ε α} {p next : Point}
    (follows : Follows chart prog p) (here : chart p = .commitTx next) : prog.closes = true := by
  cases prog with
  | commitTx rest => rfl
  | done value => cases here.symm.trans follows
  | throw error => cases here.symm.trans follows
  | stmt s resume => cases here.symm.trans follows.choose_spec.1
  | beginTx rest => cases here.symm.trans follows.choose_spec.1
  | rollbackTx rest => cases here.symm.trans follows.choose_spec.1

theorem follows_done {I : Interface} {ε α Point : Type} {chart : Point → Node I ε α Point} {prog : Prog I ε α} {p : Point}
    {value : α} (follows : Follows chart prog p) (here : chart p = .done value) : prog = .done value := by
  cases prog with
  | done other =>
      cases here.symm.trans follows
      rfl
  | throw error => cases here.symm.trans follows
  | stmt s resume => cases here.symm.trans follows.choose_spec.1
  | beginTx rest => cases here.symm.trans follows.choose_spec.1
  | commitTx rest => cases here.symm.trans follows.choose_spec.1
  | rollbackTx rest => cases here.symm.trans follows.choose_spec.1

theorem follows_outcome (chart : Point → Node I ε α Point) (session : Session E ε α) (p : Point)
    (result : Except ε α) (follows : Follows chart session.prog p) (finished : session.outcome = some result) :
    (∃ value, result = .ok value ∧ chart p = .done value) ∨ (∃ error, result = .error error ∧ chart p = .throw error) := by
  obtain ⟨prog, tx, log⟩ := session
  cases prog with
  | done value =>
      cases finished
      exact .inl ⟨value, rfl, follows⟩
  | throw error =>
      cases finished
      exact .inr ⟨error, rfl, follows⟩
  | _ => cases finished

end Steps

section Composition

-- The points of a program that needs no chart are what is left of it.
def Prog.node {I : Interface} {ε α : Type} : Prog I ε α → Node I ε α (Prog I ε α)
  | .done value => .done value
  | .throw error => .throw error
  | .stmt s resume => .stmt s resume
  | .beginTx rest => .beginTx rest
  | .commitTx rest => .commitTx rest
  | .rollbackTx rest => .rollbackTx rest

def Node.map {I : Interface} {ε α Point Other : Type} (f : Point → Other) : Node I ε α Point → Node I ε α Other
  | .done value => .done value
  | .throw error => .throw error
  | .stmt s next => .stmt s fun reply => f (next reply)
  | .beginTx next => .beginTx (f next)
  | .commitTx next => .commitTx (f next)
  | .rollbackTx next => .rollbackTx (f next)

def chain {I : Interface} {ε α β A B : Type} (first : A → Node I ε α A) (second : α → B → Node I ε β B) (entry : α → B) :
    A ⊕ (α × B) → Node I ε β (A ⊕ (α × B))
  | .inl a => match first a with
    | .done value => (second value (entry value)).map fun b => .inr (value, b)
    | .throw error => .throw error
    | .stmt s next => .stmt s fun reply => .inl (next reply)
    | .beginTx next => .beginTx (.inl next)
    | .commitTx next => .commitTx (.inl next)
    | .rollbackTx next => .rollbackTx (.inl next)
  | .inr (value, b) => (second value b).map fun b => .inr (value, b)

variable {I : Interface} {ε α β A B : Type}

theorem follows_node (prog : Prog I ε α) : Follows Prog.node prog prog := by
  induction prog with
  | done value => rfl
  | throw error => rfl
  | stmt s resume ih => exact ⟨resume, rfl, ih⟩
  | beginTx rest ih => exact ⟨rest, rfl, ih⟩
  | commitTx rest ih => exact ⟨rest, rfl, ih⟩
  | rollbackTx rest ih => exact ⟨rest, rfl, ih⟩

theorem follows_map (chart : A → Node I ε β A) (whole : B → Node I ε β B) (f : A → B)
    (mapped : ∀ a, whole (f a) = (chart a).map f) (prog : Prog I ε β) (a : A) (p : B) (follows : Follows chart prog a)
    (entered : whole p = (chart a).map f) : Follows whole prog p := by
  induction prog generalizing a p with
  | done value =>
      show whole p = _
      rw [entered, show chart a = .done value from follows]
      rfl
  | throw error =>
      show whole p = _
      rw [entered, show chart a = .throw error from follows]
      rfl
  | stmt s resume ih =>
      obtain ⟨next, here, onward⟩ := follows
      rw [here] at entered
      exact ⟨fun reply => f (next reply), entered, fun reply => ih reply (next reply) _ (onward reply) (mapped _)⟩
  | beginTx rest ih =>
      obtain ⟨next, here, onward⟩ := follows
      rw [here] at entered
      exact ⟨f next, entered, ih next _ onward (mapped _)⟩
  | commitTx rest ih =>
      obtain ⟨next, here, onward⟩ := follows
      rw [here] at entered
      exact ⟨f next, entered, ih next _ onward (mapped _)⟩
  | rollbackTx rest ih =>
      obtain ⟨next, here, onward⟩ := follows
      rw [here] at entered
      exact ⟨f next, entered, ih next _ onward (mapped _)⟩

theorem follows_chain (first : A → Node I ε α A) (second : α → B → Node I ε β B) (entry : α → B) (prog : Prog I ε α)
    (next : α → Prog I ε β) (a : A) (follows : Follows first prog a)
    (continues : ∀ value, Follows (second value) (next value) (entry value)) :
    Follows (chain first second entry) (prog.bind next) (.inl a) := by
  induction prog generalizing a with
  | done value =>
      have here : first a = .done value := follows
      refine follows_map (second value) _ (fun b => .inr (value, b)) (fun _ => rfl) (next value) (entry value) _
        (continues value) ?_
      simp only [chain, here]
  | throw error =>
      have here : first a = .throw error := follows
      show chain first second entry (.inl a) = _
      simp only [chain, here]
  | stmt s resume ih =>
      obtain ⟨after, here, onward⟩ := follows
      exact ⟨fun reply => .inl (after reply), by simp only [chain, here], fun reply => ih reply (after reply) (onward reply)⟩
  | beginTx rest ih =>
      obtain ⟨after, here, onward⟩ := follows
      exact ⟨.inl after, by simp only [chain, here], ih after onward⟩
  | commitTx rest ih =>
      obtain ⟨after, here, onward⟩ := follows
      exact ⟨.inl after, by simp only [chain, here], ih after onward⟩
  | rollbackTx rest ih =>
      obtain ⟨after, here, onward⟩ := follows
      exact ⟨.inl after, by simp only [chain, here], ih after onward⟩

end Composition

end Interleave
