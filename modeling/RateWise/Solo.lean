import RateWise.Constraints

set_option autoImplicit false

namespace Interleave

section Solo

variable {I : Interface} {ε α β : Type}

-- The program from beginning to end while no other session has a transaction
-- open: its result, the world it leaves and the transaction it leaves open.
def Prog.solo (E : Engine I) : Prog I ε α → E.World → Option E.Tx → Except ε α × E.World × Option E.Tx
  | .done value, world, tx => (.ok value, world, tx)
  | .throw error, world, tx => (.error error, world, tx)
  | .beginTx rest, world, _ => rest.solo E world (some E.empty)
  | .commitTx rest, world, tx => rest.solo E (match tx with
      | some tx => E.commit world tx
      | none => world) none
  | .rollbackTx rest, world, _ => rest.solo E world none
  | .stmt s resume, world, tx => match E.exec world (tx.getD E.empty) [] s with
      | .error fault => (resume (.error fault)).solo E world tx
      | .ok (reply, after, left) => match tx with
        | some _ => (resume (.ok reply)).solo E left (some after)
        | none => (resume (.ok reply)).solo E (E.commit left after) none

theorem solo_failed (E : Engine I) (s : I.Stmt) (resume : Except I.Fault (I.Reply s) → Prog I ε α) (world : E.World)
    (tx : Option E.Tx) (fault : I.Fault) (ran : E.exec world (tx.getD E.empty) [] s = .error fault) :
    (Prog.stmt s resume).solo E world tx = (resume (.error fault)).solo E world tx := by
  simp only [Prog.solo, ran]

theorem solo_replied (E : Engine I) (s : I.Stmt) (resume : Except I.Fault (I.Reply s) → Prog I ε α) (world left : E.World)
    (tx : Option E.Tx) (after : E.Tx) (reply : I.Reply s) (ran : E.exec world (tx.getD E.empty) [] s = .ok (reply, after, left)) :
    (Prog.stmt s resume).solo E world tx = (resume (.ok reply)).solo E (match tx with
      | none => E.commit left after
      | some _ => left) (tx.map fun _ => after) := by
  simp only [Prog.solo, ran]
  cases tx <;> rfl

def Yields (E : Engine I) (prog : Prog I ε α) (world : E.World) (tx : Option E.Tx)
    (post : Except ε α → E.World → Option E.Tx → Prop) : Prop :=
  post (prog.solo E world tx).1 (prog.solo E world tx).2.1 (prog.solo E world tx).2.2

variable {E : Engine I}

theorem yields_mono (prog : Prog I ε α) (world : E.World) (tx : Option E.Tx)
    (strong weak : Except ε α → E.World → Option E.Tx → Prop) (yields : Yields E prog world tx strong)
    (implied : ∀ result left after, strong result left after → weak result left after) : Yields E prog world tx weak :=
  implied _ _ _ yields

theorem yields_through (s : I.Stmt) (resume : Except I.Fault (I.Reply s) → Prog I ε α)
    (wrapped : Except I.Fault (I.Reply s) → Prog I ε β) (world : E.World) (tx : Option E.Tx)
    (before : Except ε α → E.World → Option E.Tx → Prop) (after : Except ε β → E.World → Option E.Tx → Prop)
    (yields : Yields E (.stmt s resume) world tx before)
    (each : ∀ reply world tx, Yields E (resume reply) world tx before → Yields E (wrapped reply) world tx after) :
    Yields E (.stmt s wrapped) world tx after := by
  simp only [Yields, Prog.solo] at yields ⊢
  cases ran : E.exec world (tx.getD E.empty) [] s with
  | error fault =>
      rw [ran] at yields
      exact each _ _ _ yields
  | ok answer =>
      rw [ran] at yields
      cases tx <;> exact each _ _ _ yields

theorem yields_bind (prog : Prog I ε α) (next : α → Prog I ε β) (world : E.World) (tx : Option E.Tx)
    (post : Except ε β → E.World → Option E.Tx → Prop)
    (yields : Yields E prog world tx fun result left after => match result with
      | .ok value => Yields E (next value) left after post
      | .error error => post (.error error) left after) : Yields E (prog.bind next) world tx post := by
  induction prog generalizing world tx with
  | done value => exact yields
  | throw error => exact yields
  | beginTx rest ih => exact ih world _ yields
  | commitTx rest ih => exact ih _ _ yields
  | rollbackTx rest ih => exact ih world _ yields
  | stmt s resume ih => exact yields_through s resume _ world tx _ _ yields ih

theorem yields_catching (prog : Prog I ε α) (handler : ε → Prog I ε α) (world : E.World) (tx : Option E.Tx)
    (post : Except ε α → E.World → Option E.Tx → Prop)
    (yields : Yields E prog world tx fun result left after => match result with
      | .ok value => post (.ok value) left after
      | .error error => Yields E (handler error) left after post) : Yields E (prog.catching handler) world tx post := by
  induction prog generalizing world tx with
  | done value => exact yields
  | throw error => exact yields
  | beginTx rest ih => exact ih world _ yields
  | commitTx rest ih => exact ih _ _ yields
  | rollbackTx rest ih => exact ih world _ yields
  | stmt s resume ih => exact yields_through s resume _ world tx _ _ yields ih

theorem yields_transaction (body : Prog I ε α) (world : E.World) (tx : Option E.Tx)
    (post : Except ε α → E.World → Option E.Tx → Prop)
    (yields : Yields E body world (some E.empty) fun result left after => match result with
      | .ok value => post (.ok value) (match after with
          | some open_ => E.commit left open_
          | none => left) none
      | .error error => post (.error error) left none) : Yields E (Prog.transaction body) world tx post := by
  show Yields E body.settled world (some E.empty) post
  generalize (some E.empty : Option E.Tx) = opened at yields
  induction body generalizing world opened with
  | done value => exact yields
  | throw error => exact yields
  | beginTx rest ih => exact ih world _ yields
  | commitTx rest ih => exact ih _ _ yields
  | rollbackTx rest ih => exact ih world _ yields
  | stmt s resume ih => exact yields_through s resume _ world opened _ _ yields ih

theorem others_nil {n : Nat} (net : Net E ε α n) (i : Fin n) (alone : ∀ j, j ≠ i → (net.sessions j).tx = none) :
    others net i = [] := by
  rw [List.eq_nil_iff_forall_not_mem]
  intro tx member
  obtain ⟨j, different, opened⟩ := (mem_others net i tx).mp member
  rw [alone j different] at opened
  cases opened

theorem turn_then {n : Nat} (net : Net E ε α n) (i : Fin n) (world : E.World) (after : Session E ε α)
    (good : Net E ε α n → Prop) (advanced : (net.sessions i).advance net.world (others net i) = some (world, after))
    (rest : ∃ turns final, run ⟨world, Function.update net.sessions i after⟩ (List.replicate turns (.turn i)) = some final ∧
      good final) : ∃ turns final, run net (List.replicate turns (.turn i)) = some final ∧ good final := by
  obtain ⟨turns, final, reached, holds⟩ := rest
  refine ⟨turns + 1, final, ?_, holds⟩
  simp only [List.replicate_succ, Runs.run, step, advanced, Option.map_some, Option.bind_some]
  exact reached

-- solo is what the scheduler does when it gives one session all the turns
-- while the others have no transaction open.
theorem solo_run {n : Nat} (net : Net E ε α n) (i : Fin n) (alone : ∀ j, j ≠ i → (net.sessions j).tx = none) :
    ∃ turns final, run net (List.replicate turns (.turn i)) = some final ∧
      (final.sessions i).outcome = some ((net.sessions i).prog.solo E net.world (net.sessions i).tx).1 ∧
      final.world = ((net.sessions i).prog.solo E net.world (net.sessions i).tx).2.1 ∧
      (final.sessions i).tx = ((net.sessions i).prog.solo E net.world (net.sessions i).tx).2.2 ∧
      ∀ j, j ≠ i → final.sessions j = net.sessions j := by
  generalize shape : net.sessions i = session
  obtain ⟨prog, tx, log⟩ := session
  -- What the rest of the program does from the state after one turn.
  have onward : ∀ (net : Net E ε α n) (world : E.World) (after : Session E ε α) (result : Except ε α × E.World × Option E.Tx),
      (∀ j, j ≠ i → (net.sessions j).tx = none) →
      (∀ next : Net E ε α n, (∀ j, j ≠ i → (next.sessions j).tx = none) → next.sessions i = after → next.world = world →
        ∃ turns final, run next (List.replicate turns (.turn i)) = some final ∧
          (final.sessions i).outcome = some result.1 ∧ final.world = result.2.1 ∧ (final.sessions i).tx = result.2.2 ∧
          ∀ j, j ≠ i → final.sessions j = next.sessions j) →
      (net.sessions i).advance net.world (others net i) = some (world, after) →
      ∃ turns final, run net (List.replicate turns (.turn i)) = some final ∧
        (final.sessions i).outcome = some result.1 ∧ final.world = result.2.1 ∧ (final.sessions i).tx = result.2.2 ∧
        ∀ j, j ≠ i → final.sessions j = net.sessions j := by
    intro net world after result alone rest advanced
    refine turn_then net i world after _ advanced ?_
    obtain ⟨turns, final, reached, outcome, same, opened, kept⟩ := rest ⟨world, Function.update net.sessions i after⟩
      (fun j different => by simpa [Function.update_of_ne different] using alone j different) (by simp) rfl
    refine ⟨turns, final, reached, outcome, same, opened, fun j different => ?_⟩
    rw [kept j different]
    exact Function.update_of_ne different after net.sessions
  induction prog generalizing net tx log with
  | done value =>
      refine ⟨0, net, rfl, ?_⟩
      simp [shape, Prog.solo, Session.outcome]
  | throw error =>
      refine ⟨0, net, rfl, ?_⟩
      simp [shape, Prog.solo, Session.outcome]
  | beginTx rest ih =>
      refine onward net net.world ⟨rest, some E.empty, .opened :: log⟩ _ alone (fun next alone' there same => ?_)
        (by rw [shape]; rfl)
      simpa [Prog.solo, same] using ih next alone' (some E.empty) (.opened :: log) there
  | commitTx rest ih =>
      cases tx with
      | none =>
          refine onward net net.world ⟨rest, none, .committed :: log⟩ _ alone (fun next alone' there same => ?_)
            (by rw [shape]; rfl)
          simpa [Prog.solo, same] using ih next alone' none (.committed :: log) there
      | some tx =>
          refine onward net (E.commit net.world tx) ⟨rest, none, .committed :: log⟩ _ alone
            (fun next alone' there same => ?_) (by rw [shape]; rfl)
          simpa [Prog.solo, same] using ih next alone' none (.committed :: log) there
  | rollbackTx rest ih =>
      refine onward net net.world ⟨rest, none, .rolledBack :: log⟩ _ alone (fun next alone' there same => ?_)
        (by rw [shape]; rfl)
      simpa [Prog.solo, same] using ih next alone' none (.rolledBack :: log) there
  | stmt s resume ih =>
      have free := E.waits_alone net.world (tx.getD E.empty) s
      cases ran : E.exec net.world (tx.getD E.empty) [] s with
      | error fault =>
          refine onward net net.world ⟨resume (.error fault), tx, .ran s (.error fault) :: log⟩ _ alone
            (fun next alone' there same => ?_) (by simp [shape, others_nil net i alone, Session.advance, free, ran])
          simpa [Prog.solo, ran, same] using ih (.error fault) next alone' tx (.ran s (.error fault) :: log) there
      | ok answer =>
          obtain ⟨reply, after, left⟩ := answer
          cases tx with
          | none =>
              simp only [Option.getD_none] at free ran
              refine onward net (E.commit left after) ⟨resume (.ok reply), none, .ran s (.ok reply) :: log⟩ _ alone
                (fun next alone' there same => ?_) (by simp [shape, others_nil net i alone, Session.advance, free, ran])
              simpa [Prog.solo, ran, same] using ih (.ok reply) next alone' none (.ran s (.ok reply) :: log) there
          | some tx =>
              simp only [Option.getD_some] at free ran
              refine onward net left ⟨resume (.ok reply), some after, .ran s (.ok reply) :: log⟩ _ alone
                (fun next alone' there same => ?_) (by simp [shape, others_nil net i alone, Session.advance, free, ran])
              simpa [Prog.solo, ran, same] using ih (.ok reply) next alone' (some after) (.ran s (.ok reply) :: log) there

end Solo

end Interleave

namespace ReadCommitted

open Interleave

section Statements

variable {S : Schema} {C : Commands S.Fault} {Key Lock : Type} [DecidableEq Lock] {hash : Key → Lock} {ε α β : Type}

def InTx (hash : Key → Lock) (body : Prog (interface S C Key) ε α) (rows : S.Db) (post : Except ε α → S.Db → Prop) : Prop :=
  ∀ (world : World S C) (tx : Tx S Lock), view S world.db tx.writes = rows →
    Yields (engine S C hash) body world (some tx) fun result left after =>
      left = world ∧ ∃ x, after = some x ∧ post result (view S world.db x.writes)

theorem in_tx_done (value : α) (rows : S.Db) (post : Except ε α → S.Db → Prop) (holds : post (.ok value) rows) :
    InTx (S := S) (C := C) hash (.done value) rows post :=
  fun _ tx seen => ⟨rfl, tx, rfl, by rw [seen]; exact holds⟩

theorem in_tx_throw (error : ε) (rows : S.Db) (post : Except ε α → S.Db → Prop) (holds : post (.error error) rows) :
    InTx (S := S) (C := C) hash (.throw error) rows post :=
  fun _ tx seen => ⟨rfl, tx, rfl, by rw [seen]; exact holds⟩

theorem in_tx_bind (body : Prog (interface S C Key) ε α) (next : α → Prog (interface S C Key) ε β) (rows : S.Db)
    (middle : Except ε α → S.Db → Prop) (post : Except ε β → S.Db → Prop) (first : InTx hash body rows middle)
    (failed : ∀ error after, middle (.error error) after → post (.error error) after)
    (second : ∀ value after, middle (.ok value) after → InTx hash (next value) after post) :
    InTx hash (body.bind next) rows post := by
  intro world tx seen
  refine yields_bind _ _ _ _ _ (yields_mono _ _ _ _ _ (first world tx seen) ?_)
  rintro result left after ⟨rfl, x, rfl, holds⟩
  cases result with
  | error error => exact ⟨rfl, x, rfl, failed error _ holds⟩
  | ok value => exact second value _ holds left x rfl

theorem in_tx_mono (body : Prog (interface S C Key) ε α) (rows : S.Db) (strong weak : Except ε α → S.Db → Prop)
    (first : InTx hash body rows strong) (implied : ∀ result after, strong result after → weak result after) :
    InTx hash body rows weak := by
  intro world tx seen
  refine yields_mono _ _ _ _ _ (first world tx seen) ?_
  rintro result left after ⟨rfl, x, rfl, holds⟩
  exact ⟨rfl, x, rfl, implied _ _ holds⟩

@[reducible] def ends (good : α → S.Db → Prop) (bad : ε → Prop) : Except ε α → S.Db → Prop
  | .ok value, rows => good value rows
  | .error error, _ => bad error

theorem in_tx_seq (good : α → S.Db → Prop) {goal : β → S.Db → Prop} {bad : ε → Prop}
    {body : Prog (interface S C Key) ε α} {next : α → Prog (interface S C Key) ε β} {rows : S.Db}
    (first : InTx hash body rows (ends good bad))
    (second : ∀ value after, good value after → InTx hash (next value) after (ends goal bad)) :
    InTx hash (body.bind next) rows (ends goal bad) :=
  in_tx_bind body next rows _ _ first (fun _ _ failed => failed) second

theorem in_tx_ask (s : S.Sql) (resume : Except S.Fault (S.Answer s) → Prog (interface S C Key) ε α) (rows : S.Db)
    (post : Except ε α → S.Db → Prop)
    (refused : ∀ fault, S.refuses rows s = some fault → InTx hash (resume (.error fault)) rows post)
    (asked : S.refuses rows s = none → InTx hash (resume (.ok (S.answer rows s))) (view S rows (S.attempts rows s)) post) :
    InTx hash (.stmt (.sql s) resume) rows post := by
  intro world tx seen
  cases verdict : S.refuses rows s with
  | some fault =>
      have rest := refused fault verdict world tx seen
      simp only [Yields, Prog.solo, engine, Option.getD_some, seen, verdict] at rest ⊢
      exact rest
  | none =>
      have rest := asked verdict world ⟨tx.writes ++ S.attempts (view S world.db tx.writes) s, tx.advisory⟩
        (by rw [view_append, seen])
      simp only [Yields, Prog.solo, engine, Option.getD_some, seen, verdict] at rest ⊢
      exact rest

theorem in_tx_try (key : Key) (resume : Except S.Fault Bool → Prog (interface S C Key) ε α) (rows : S.Db)
    (post : Except ε α → S.Db → Prop) (acquired : InTx hash (resume (.ok true)) rows post) :
    InTx hash (.stmt (.tryLock key) resume) rows post := by
  intro world tx seen
  have rest := acquired world ⟨tx.writes, hash key :: tx.advisory⟩ seen
  simp only [Yields, Prog.solo, engine, Option.getD_some, List.any_nil, Bool.false_eq_true, if_false] at rest ⊢
  exact rest

theorem in_tx_sql (raise : S.Fault → ε) (s : S.Sql) (rows : S.Db) (post : Except ε (S.Answer s) → S.Db → Prop)
    (refused : ∀ fault, S.refuses rows s = some fault → post (.error (raise fault)) rows)
    (asked : S.refuses rows s = none → post (.ok (S.answer rows s)) (view S rows (S.attempts rows s))) :
    InTx hash (Prog.query (I := interface S C Key) raise (.sql s)) rows post :=
  in_tx_ask s _ rows post (fun fault verdict => in_tx_throw _ _ _ (refused fault verdict))
    fun verdict => in_tx_done _ _ _ (asked verdict)

theorem in_tx_try_lock (raise : S.Fault → ε) (key : Key) (rows : S.Db) (post : Except ε Bool → S.Db → Prop)
    (acquired : post (.ok true) rows) :
    InTx hash (Prog.query (I := interface S C Key) raise (.tryLock key)) rows post :=
  in_tx_try key _ rows post (in_tx_done _ _ _ acquired)

theorem in_tx_quiet (allowed : Call S.Sql Key C.Cmd → Prop) (post : α → Prop) (toward : S.Db → S.Db → Prop)
    (stays : ∀ rows, toward rows rows) (follows : ∀ a b c, toward a b → toward b c → toward a c)
    (changes : ∀ s rows, allowed (.sql s) → S.refuses rows s = none → toward rows (view S rows (S.attempts rows s)))
    (inside : ∀ c, ¬ allowed (.cmd c)) (body : Prog (interface S C Key) ε α) (quiet : body.Quiet allowed post) (rows : S.Db) :
    InTx hash body rows fun result after => toward rows after ∧ ∀ value, result = .ok value → post value := by
  induction body generalizing rows with
  | done value =>
      refine in_tx_done value rows _ ⟨stays rows, fun other same => ?_⟩
      cases same
      exact quiet
  | throw error => exact in_tx_throw error rows _ ⟨stays rows, nofun⟩
  | stmt s resume ih =>
      obtain ⟨issued, onward⟩ := quiet
      cases s with
      | sql s =>
          refine in_tx_ask s resume rows _ (fun fault _ => ih _ (onward _) rows) fun verdict => ?_
          refine in_tx_mono _ _ _ _ (ih _ (onward _) _) fun result after holds => ⟨?_, holds.2⟩
          exact follows _ _ _ (changes s rows issued verdict) holds.1
      | tryLock key => exact in_tx_try key resume rows _ (ih _ (onward _) rows)
      | cmd c => exact absurd issued (inside c)
  | beginTx rest => cases quiet
  | commitTx rest => cases quiet
  | rollbackTx rest => cases quiet

theorem yields_in_tx (body : Prog (interface S C Key) ε α) (world : World S C) (tx : Option (Tx S Lock))
    (post : Except ε α → S.Db → Prop) (inside : InTx hash body world.db post) :
    Yields (engine S C hash) (Prog.transaction body) world tx fun result left after =>
      after = none ∧ left.store = world.store ∧ match result with
        | .ok value => post (.ok value) left.db
        | .error error => left.db = world.db ∧ ∃ rows, post (.error error) rows := by
  refine yields_transaction _ _ _ _ (yields_mono _ _ _ _ _ (inside world ⟨[], []⟩ rfl) ?_)
  rintro result left after ⟨rfl, x, rfl, holds⟩
  cases result with
  | error error => exact ⟨rfl, rfl, rfl, _, holds⟩
  | ok value => exact ⟨rfl, rfl, holds⟩

theorem yields_ask (s : S.Sql) (resume : Except S.Fault (S.Answer s) → Prog (interface S C Key) ε α) (world : World S C)
    (post : Except ε α → World S C → Option (Tx S Lock) → Prop)
    (refused : ∀ fault, S.refuses world.db s = some fault → Yields (engine S C hash) (resume (.error fault)) world none post)
    (asked : S.refuses world.db s = none → Yields (engine S C hash) (resume (.ok (S.answer world.db s)))
      ⟨view S world.db (S.attempts world.db s), world.store⟩ none post) :
    Yields (engine S C hash) (.stmt (.sql s) resume) world none post := by
  have seen : view S world.db ((none : Option (Tx S Lock)).getD ⟨[], []⟩).writes = world.db := rfl
  cases verdict : S.refuses world.db s with
  | some fault =>
      have rest := refused fault verdict
      simp only [Yields, Prog.solo, engine, seen, verdict] at rest ⊢
      exact rest
  | none =>
      have rest := asked verdict
      simp only [Yields, Prog.solo, engine, seen, verdict] at rest ⊢
      exact rest

theorem yields_sql (raise : S.Fault → ε) (s : S.Sql) (world : World S C)
    (post : Except ε (S.Answer s) → World S C → Option (Tx S Lock) → Prop)
    (refused : ∀ fault, S.refuses world.db s = some fault → post (.error (raise fault)) world none)
    (asked : S.refuses world.db s = none →
      post (.ok (S.answer world.db s)) ⟨view S world.db (S.attempts world.db s), world.store⟩ none) :
    Yields (engine S C hash) (Prog.query (I := interface S C Key) raise (.sql s)) world none post :=
  yields_ask s _ world post refused asked

theorem yields_single (raise : S.Fault → ε) (s : S.Sql) (world : World S C)
    (post : Except ε (S.Answer s) → World S C → Option (Tx S Lock) → Prop)
    (refused : ∀ fault, S.refuses world.db s = some fault → post (.error (raise fault)) world none)
    (asked : S.refuses world.db s = none →
      post (.ok (S.answer world.db s)) ⟨view S world.db (S.attempts world.db s), world.store⟩ none) :
    Yields (engine S C hash) (Prog.transaction (Prog.query (I := interface S C Key) raise (.sql s))) world none post := by
  cases verdict : S.refuses world.db s with
  | some fault =>
      simp only [Yields, Prog.transaction, Prog.query, Prog.settled, Prog.solo, engine, Option.getD_some, view,
        List.foldl_nil, verdict]
      exact refused fault verdict
  | none =>
      simp only [Yields, Prog.transaction, Prog.query, Prog.settled, Prog.solo, engine, Option.getD_some, view,
        List.foldl_nil, verdict]
      exact asked verdict

theorem yields_send (c : C.Cmd) (resume : Except S.Fault (C.Reply c) → Prog (interface S C Key) ε α) (world : World S C)
    (tx : Option (Tx S Lock)) (post : Except ε α → World S C → Option (Tx S Lock) → Prop)
    (failed : ∀ fault, C.exec world.store c = .error fault → Yields (engine S C hash) (resume (.error fault)) world tx post)
    (replied : ∀ reply store, C.exec world.store c = .ok (reply, store) →
      Yields (engine S C hash) (resume (.ok reply)) ⟨world.db, store⟩ tx post) :
    Yields (engine S C hash) (.stmt (.cmd c) resume) world tx post := by
  cases verdict : C.exec world.store c with
  | error fault =>
      have rest := failed fault verdict
      simp only [Yields, Prog.solo, engine, verdict] at rest ⊢
      exact rest
  | ok answer =>
      have rest := replied answer.1 answer.2 verdict
      simp only [Yields, Prog.solo, engine, verdict] at rest ⊢
      cases tx with
      | none => exact rest
      | some tx => exact rest

theorem yields_cmd (raise : S.Fault → ε) (c : C.Cmd) (world : World S C) (tx : Option (Tx S Lock))
    (post : Except ε (C.Reply c) → World S C → Option (Tx S Lock) → Prop)
    (failed : ∀ fault, C.exec world.store c = .error fault → post (.error (raise fault)) world tx)
    (replied : ∀ reply store, C.exec world.store c = .ok (reply, store) → post (.ok reply) ⟨world.db, store⟩ tx) :
    Yields (engine S C hash) (Prog.query (I := interface S C Key) raise (.cmd c)) world tx post :=
  yields_send c _ world tx post failed replied

end Statements

end ReadCommitted
