import RateWise.ChartedSteps

set_option autoImplicit false

namespace ReadCommitted

open Interleave

-- Facts about a session at the points of its chart: its own steps carry them
-- along and do to the rows only what it guarantees, what it relies on leaves
-- them. ok is what is assumed of the statements at the time they are sent.
structure Keeps {S : Schema} {C : Commands S.Fault} {Key Lock ε α Point : Type} (hash : Key → Lock)
    (chart : Point → Node (interface S C Key) ε α Point) (rely : S.Db → S.Db → Prop)
    (guarantee : Option (Tx S Lock) → List (Event (interface S C Key)) → Event (interface S C Key) → S.Db → S.Db → Prop)
    (ok : S.Db → List (Event (interface S C Key)) → (interface S C Key).Stmt → Prop)
    (facts : Point → S.Db → List (Event (interface S C Key)) → Option (Tx S Lock) → Prop) : Prop where
  stable : ∀ p db after log tx, facts p db log tx → rely db after → facts p after log tx
  faulted : ∀ p db log tx s next fault, chart p = .stmt s next → facts p db log tx →
    facts (next (.error fault)) db (.ran s (.error fault) :: log) tx
  moved : ∀ (world left : World S C) (others : List (Tx S Lock)) p tx p' after event log, facts p world.db log tx →
    (∀ s next, chart p = .stmt s next → ok (view S world.db (pending tx)) log s) →
    Moved hash chart world others p tx p' after left event →
    facts p' left.db (event :: log) after ∧ guarantee tx log event world.db left.db

section Pieces

variable {S : Schema} {C : Commands S.Fault} {Key Lock ε α β A B : Type} {hash : Key → Lock}

def Lifts {I : Interface} (f : A → B) : Node I ε α A → Node I ε β B → Prop
  | .done _, other => ∃ value, other = .done value
  | .throw error, other => other = .throw error
  | .stmt s next, other => other = .stmt s fun reply => f (next reply)
  | .beginTx next, other => other = .beginTx (f next)
  | .commitTx next, other => other = .commitTx (f next)
  | .rollbackTx next, other => other = .rollbackTx (f next)

theorem lifts_map {I : Interface} (f : A → B) (node : Node I ε α A) : Lifts f node (node.map f) := by
  cases node with
  | done value => exact ⟨value, rfl⟩
  | _ => rfl

theorem moved_lift {chart : A → Node (interface S C Key) ε α A} {whole : B → Node (interface S C Key) ε β B} {f : A → B}
    {world left : World S C} {others : List (Tx S Lock)} {a : A} {p p' : B} {tx after : Option (Tx S Lock)}
    {event : Event (interface S C Key)} (moved : Moved hash whole world others p tx p' after left event)
    (lifts : Lifts f (chart a) (whole p)) : ∃ a', p' = f a' ∧ Moved hash chart world others a tx a' after left event := by
  cases node : chart a with
  | done value =>
      rw [node] at lifts
      exact (moved_ended moved (.inl lifts)).elim
  | throw error =>
      rw [node] at lifts
      exact (moved_ended moved (.inr ⟨error, lifts⟩)).elim
  | beginTx next =>
      rw [node] at lifts
      obtain ⟨rfl, rfl, rfl, rfl⟩ := moved_begin moved lifts
      exact ⟨next, rfl, .began _ _ node⟩
  | rollbackTx next =>
      rw [node] at lifts
      obtain ⟨rfl, rfl, rfl, rfl⟩ := moved_rollback moved lifts
      exact ⟨next, rfl, .rolledBack _ _ node⟩
  | commitTx next =>
      rw [node] at lifts
      have here : whole p = .commitTx (f next) := lifts
      clear lifts
      cases moved with
      | committed _ _ found =>
          rw [here] at found
          cases found
          exact ⟨next, rfl, .committed _ _ node⟩
      | committedNothing _ found =>
          rw [here] at found
          cases found
          exact ⟨next, rfl, .committedNothing _ node⟩
      | _ => simp_all
  | stmt s next =>
      rw [node] at lifts
      have here : whole p = .stmt s fun reply => f (next reply) := lifts
      clear lifts
      cases moved with
      | refused _ _ _ fault violated found =>
          rw [here] at found
          cases found
          exact ⟨_, rfl, .refused _ _ _ fault violated node⟩
      | asked _ _ _ allowed free found =>
          rw [here] at found
          cases found
          exact ⟨_, rfl, .asked _ _ _ allowed free node⟩
      | autocommitted _ _ allowed free found =>
          rw [here] at found
          cases found
          exact ⟨_, rfl, .autocommitted _ _ allowed free node⟩
      | locked _ _ _ free found =>
          rw [here] at found
          cases found
          exact ⟨_, rfl, .locked _ _ _ free node⟩
      | turnedAway _ _ _ other holder held found =>
          rw [here] at found
          cases found
          exact ⟨_, rfl, .turnedAway _ _ _ other holder held node⟩
      | lockedAlone _ _ answer found =>
          rw [here] at found
          cases found
          exact ⟨_, rfl, .lockedAlone _ _ answer node⟩
      | commanded _ _ _ reply store replied found =>
          rw [here] at found
          cases found
          exact ⟨_, rfl, .commanded _ _ _ reply store replied node⟩
      | commandFailed _ _ _ fault replied found =>
          rw [here] at found
          cases found
          exact ⟨_, rfl, .commandFailed _ _ _ fault replied node⟩
      | _ => simp_all

theorem moved_chain {first : A → Node (interface S C Key) ε α A} {second : α → B → Node (interface S C Key) ε β B}
    {entry : α → B} {world left : World S C} {others : List (Tx S Lock)} {a : A} {p' : A ⊕ (α × B)}
    {tx after : Option (Tx S Lock)} {event : Event (interface S C Key)}
    (moved : Moved hash (chain first second entry) world others (.inl a) tx p' after left event) :
    (∃ a', p' = .inl a' ∧ Moved hash first world others a tx a' after left event) ∨
    (∃ value b, first a = .done value ∧ p' = .inr (value, b) ∧
      Moved hash (second value) world others (entry value) tx b after left event) := by
  by_cases ended : ∃ value, first a = .done value
  · obtain ⟨value, here⟩ := ended
    have enters : Lifts (fun b => .inr (value, b)) (second value (entry value)) (chain first second entry (.inl a)) := by
      simp only [chain, here]
      exact lifts_map _ _
    obtain ⟨b, rfl, taken⟩ := moved_lift moved enters
    exact .inr ⟨value, b, here, rfl, taken⟩
  · have stays : Lifts .inl (first a) (chain first second entry (.inl a)) := by
      cases here : first a with
      | done value => exact absurd ⟨value, here⟩ ended
      | _ => simp only [chain, here, Lifts]
    exact .inl (moved_lift moved stays)

theorem moved_chain_second {first : A → Node (interface S C Key) ε α A} {second : α → B → Node (interface S C Key) ε β B}
    {entry : α → B} {world left : World S C} {others : List (Tx S Lock)} {value : α} {b : B} {p' : A ⊕ (α × B)}
    {tx after : Option (Tx S Lock)} {event : Event (interface S C Key)}
    (moved : Moved hash (chain first second entry) world others (.inr (value, b)) tx p' after left event) :
    ∃ b', p' = .inr (value, b') ∧ Moved hash (second value) world others b tx b' after left event :=
  moved_lift (f := fun b => Sum.inr (value, b)) moved (lifts_map _ (second value b))

end Pieces

section Rules

variable {S : Schema} {C : Commands S.Fault} {Key Lock ε α β A B : Type} {hash : Key → Lock}
variable {rely : S.Db → S.Db → Prop}
variable {guarantee : Option (Tx S Lock) → List (Event (interface S C Key)) → Event (interface S C Key) → S.Db → S.Db → Prop}
variable {ok : S.Db → List (Event (interface S C Key)) → (interface S C Key).Stmt → Prop}

def ChainFacts (first : A → S.Db → List (Event (interface S C Key)) → Option (Tx S Lock) → Prop)
    (second : α → B → S.Db → List (Event (interface S C Key)) → Option (Tx S Lock) → Prop) :
    A ⊕ (α × B) → S.Db → List (Event (interface S C Key)) → Option (Tx S Lock) → Prop
  | .inl a => first a
  | .inr (value, b) => second value b

theorem keeps_chain {first : A → Node (interface S C Key) ε α A} {second : α → B → Node (interface S C Key) ε β B}
    {entry : α → B} {facts : A → S.Db → List (Event (interface S C Key)) → Option (Tx S Lock) → Prop}
    {later : α → B → S.Db → List (Event (interface S C Key)) → Option (Tx S Lock) → Prop}
    (keepsFirst : Keeps hash first rely guarantee ok facts)
    (keepsSecond : ∀ value, Keeps hash (second value) rely guarantee ok (later value))
    (hands : ∀ a value db log tx, first a = .done value → facts a db log tx → later value (entry value) db log tx) :
    Keeps hash (chain first second entry) rely guarantee ok (ChainFacts facts later) where
  stable p db after log tx holds relied := by
    cases p with
    | inl a => exact keepsFirst.stable a db after log tx holds relied
    | inr b => exact (keepsSecond b.1).stable b.2 db after log tx holds relied
  faulted p db log tx s next fault here holds := by
    cases p with
    | inl a =>
        cases node : first a with
        | done value =>
            simp only [chain, node] at here
            cases entered : second value (entry value) with
            | stmt s' next' =>
                rw [entered] at here
                cases here
                exact (keepsSecond value).faulted _ db log tx s next' fault entered (hands a value db log tx node holds)
            | _ => simp [entered, Node.map] at here
        | stmt s' next' =>
            simp only [chain, node] at here
            cases here
            exact keepsFirst.faulted a db log tx s next' fault node holds
        | _ => simp [chain, node] at here
    | inr b =>
        cases node : second b.1 b.2 with
        | stmt s' next' =>
            simp only [chain, node] at here
            cases here
            exact (keepsSecond b.1).faulted b.2 db log tx s next' fault node holds
        | _ => simp [chain, node, Node.map] at here
  moved world left others p tx p' after event log holds allowed moved := by
    cases p with
    | inl a =>
        rcases moved_chain moved with ⟨a', rfl, taken⟩ | ⟨value, b, node, rfl, taken⟩
        · refine keepsFirst.moved world left others a tx a' after event log holds (fun s next here => ?_) taken
          exact allowed s (fun reply => .inl (next reply)) (by simp only [chain, here])
        · refine (keepsSecond value).moved world left others _ tx b after event log
            (hands a value world.db log tx node holds) (fun s next here => ?_) taken
          exact allowed s (fun reply => .inr (value, next reply)) (by simp only [chain, node, here, Node.map])
    | inr b =>
        obtain ⟨b', rfl, taken⟩ := moved_chain_second moved
        refine (keepsSecond b.1).moved world left others b.2 tx b' after event log holds (fun s next here => ?_) taken
        exact allowed s (fun reply => .inr (b.1, next reply)) (by simp only [chain, here, Node.map])

def isCmd : (interface S C Key).Stmt → Prop
  | .cmd _ => True
  | _ => False

theorem keeps_quiet (post : α → Prop) (facts : S.Db → List (Event (interface S C Key)) → Prop)
    (stable : ∀ db after log, facts db log → rely db after → facts after log)
    (logged : ∀ db log c reply, facts db log → facts db (.ran (.cmd c) reply :: log))
    (idle : ∀ log c reply db, guarantee none log (.ran (.cmd c) reply) db db) :
    Keeps hash (Prog.node (ε := ε) (α := α)) rely guarantee ok fun prog db log tx =>
      prog.Quiet isCmd post ∧ tx = none ∧ facts db log where
  stable prog db after log tx holds relied := ⟨holds.1, holds.2.1, stable db after log holds.2.2 relied⟩
  faulted prog db log tx s next fault here holds := by
    cases prog with
    | stmt s' resume =>
        cases here
        obtain ⟨⟨quiet, onward⟩, closed, holds⟩ := holds
        cases s with
        | cmd c => exact ⟨onward _, closed, logged db log c _ holds⟩
        | _ => cases quiet
    | _ => cases here
  moved world left others prog tx p' after event log holds allowed moved := by
    obtain ⟨quiet, rfl, holds⟩ := holds
    cases prog with
    | stmt s resume =>
        cases s with
        | cmd c =>
            obtain ⟨rfl, rows, reply, rfl, rfl⟩ := moved_cmd moved rfl
            refine ⟨⟨quiet.2 reply, rfl, ?_⟩, ?_⟩
            · rw [rows]
              exact logged _ log c reply holds
            · rw [rows]
              exact idle log c reply world.db
        | _ => cases quiet.1
    | done value => exact (moved_ended moved (.inl ⟨value, rfl⟩)).elim
    | throw error => exact (moved_ended moved (.inr ⟨error, rfl⟩)).elim
    | _ => cases quiet

theorem keeps_mono {Point : Type} {chart : Point → Node (interface S C Key) ε α Point}
    {facts : Point → S.Db → List (Event (interface S C Key)) → Option (Tx S Lock) → Prop}
    {weaker : Option (Tx S Lock) → List (Event (interface S C Key)) → Event (interface S C Key) → S.Db → S.Db → Prop}
    (keeps : Keeps hash chart rely guarantee ok facts)
    (implied : ∀ tx log event before after, guarantee tx log event before after → weaker tx log event before after) :
    Keeps hash chart rely weaker ok facts where
  stable := keeps.stable
  faulted := keeps.faulted
  moved world left others p tx p' after event log holds allowed moved := by
    obtain ⟨kept, done⟩ := keeps.moved world left others p tx p' after event log holds allowed moved
    exact ⟨kept, implied _ _ _ _ _ done⟩

theorem keeps_and {Point : Type} {chart : Point → Node (interface S C Key) ε α Point}
    {facts : Point → S.Db → List (Event (interface S C Key)) → Option (Tx S Lock) → Prop} (known : Prop)
    (keeps : Keeps hash chart rely guarantee ok facts) :
    Keeps hash chart rely guarantee ok fun p db log tx => known ∧ facts p db log tx where
  stable p db after log tx holds relied := ⟨holds.1, keeps.stable p db after log tx holds.2 relied⟩
  faulted p db log tx s next fault here holds := ⟨holds.1, keeps.faulted p db log tx s next fault here holds.2⟩
  moved world left others p tx p' after event log holds allowed moved := by
    obtain ⟨kept, done⟩ := keeps.moved world left others p tx p' after event log holds.2 allowed moved
    exact ⟨⟨holds.1, kept⟩, done⟩

end Rules

section Machine

variable {S : Schema} {C : Commands S.Fault} {Key Lock : Type} [DecidableEq Lock] {hash : Key → Lock} {ε α : Type} {n : Nat}
variable {Point : Fin n → Type} {charts : ∀ i, Point i → Node (interface S C Key) ε α (Point i)}
variable {rely : Fin n → S.Db → S.Db → Prop}
variable {guarantee : Fin n → Option (Tx S Lock) → List (Event (interface S C Key)) → Event (interface S C Key) →
  S.Db → S.Db → Prop}
variable {ok : S.Db → List (Event (interface S C Key)) → (interface S C Key).Stmt → Prop}
variable {facts : ∀ i, Point i → S.Db → List (Event (interface S C Key)) → Option (Tx S Lock) → Prop}

def Asks (ok : S.Db → List (Event (interface S C Key)) → (interface S C Key).Stmt → Prop)
    (net : Net (engine S C hash) ε α n) : Move (engine S C hash) n → Prop
  | .turn i => ∀ s ∈ (net.sessions i).prog.asked, ok (view S net.world.db (pending (net.sessions i).tx)) (net.sessions i).log s
  | _ => True

instance (ok : S.Db → List (Event (interface S C Key)) → (interface S C Key).Stmt → Prop)
    [∀ db log s, Decidable (ok db log s)] (net : Net (engine S C hash) ε α n) :
    ∀ move, Decidable (Asks ok net move)
  | .turn i => inferInstanceAs (Decidable (∀ s ∈ (net.sessions i).prog.asked,
      ok (view S net.world.db (pending (net.sessions i).tx)) (net.sessions i).log s))
  | .fault _ _ => .isTrue trivial
  | .drift _ => .isTrue trivial

def Kept (charts : ∀ i, Point i → Node (interface S C Key) ε α (Point i))
    (facts : ∀ i, Point i → S.Db → List (Event (interface S C Key)) → Option (Tx S Lock) → Prop) (i : Fin n) (db : S.Db)
    (session : Session (engine S C hash) ε α) : Prop :=
  ∃ p, Follows (charts i) session.prog p ∧ facts i p db session.log session.tx

theorem kept_stable (keeps : ∀ i, Keeps hash (charts i) (rely i) (guarantee i) ok (facts i)) (i : Fin n) (db after : S.Db)
    (session : Session (engine S C hash) ε α) (relied : rely i db after) (kept : Kept charts facts i db session) :
    Kept charts facts i after session := by
  obtain ⟨p, follows, holds⟩ := kept
  exact ⟨p, follows, (keeps i).stable p db after _ _ holds relied⟩

theorem keeps_step (keeps : ∀ i, Keeps hash (charts i) (rely i) (guarantee i) ok (facts i))
    (covered : ∀ i j, i ≠ j → ∀ tx log event db after, guarantee i tx log event db after → rely j db after)
    (net next : Net (engine S C hash) ε α n) (move : Move (engine S C hash) n)
    (kept : ∀ i, Kept charts facts i net.world.db (net.sessions i)) (allowed : Asks ok net move)
    (stepped : step net move = some next) : ∀ i, Kept charts facts i next.world.db (next.sessions i) := by
  rcases step_cases net next move stepped with ⟨i, left, session, rfl, advanced, rfl⟩ |
    ⟨i, fault, session, -, interrupted, rfl⟩ | ⟨change, -, rfl⟩
  · obtain ⟨p, follows, holds⟩ := kept i
    obtain ⟨p', event, onward, logged, moved⟩ :=
      advance_moved (charts i) net.world left (others net i) (net.sessions i) session p follows advanced
    obtain ⟨mine, done⟩ := (keeps i).moved net.world left _ p _ p' _ event _ holds
      (fun s next here => allowed s (follows_asks follows here)) moved
    refine (Function.forall_update_iff net.sessions fun j s => Kept charts facts j left.db s).mpr
      ⟨⟨p', onward, logged ▸ mine⟩, fun j different => ?_⟩
    exact kept_stable keeps j net.world.db left.db _ (covered i j (Ne.symm different) _ _ _ _ _ done) (kept j)
  · obtain ⟨p, follows, holds⟩ := kept i
    obtain ⟨s, after, here, onward, same, logged⟩ :=
      follows_interrupt (charts i) (net.sessions i) session p fault follows interrupted
    refine (Function.forall_update_iff net.sessions fun j s => Kept charts facts j net.world.db s).mpr
      ⟨⟨_, onward, ?_⟩, fun j _ => kept j⟩
    rw [logged, same]
    exact (keeps i).faulted p _ _ _ s after fault here holds
  · exact kept

theorem keeps_turn (keeps : ∀ i, Keeps hash (charts i) (rely i) (guarantee i) ok (facts i))
    (net next : Net (engine S C hash) ε α n) (i : Fin n) (kept : Kept charts facts i net.world.db (net.sessions i))
    (allowed : Asks ok net (.turn i)) (stepped : step net (.turn i) = some next) :
    ∃ event, (next.sessions i).log = event :: (net.sessions i).log ∧ (event = .committed → (net.sessions i).prog.closes = true) ∧
      guarantee i (net.sessions i).tx (net.sessions i).log event net.world.db next.world.db := by
  rcases step_cases net next (.turn i) stepped with ⟨j, left, session, same, advanced, rfl⟩ |
    ⟨j, fault, session, same, -, -⟩ | ⟨change, same, -⟩
  · cases same
    obtain ⟨p, follows, holds⟩ := kept
    obtain ⟨p', event, onward, logged, moved⟩ :=
      advance_moved (charts i) net.world left (others net i) (net.sessions i) session p follows advanced
    obtain ⟨-, done⟩ := (keeps i).moved net.world left _ p _ p' _ event _ holds
      (fun s next here => allowed s (follows_asks follows here)) moved
    refine ⟨event, by simpa using logged, ?_, done⟩
    rintro rfl
    obtain ⟨next, here⟩ := moved_committed moved
    exact follows_closes follows here
  · cases same
  · cases same

theorem rows_unmoved (net next : Net (engine S C hash) ε α n) (move : Move (engine S C hash) n)
    (other : ∀ i, move ≠ .turn i) (stepped : step net move = some next) : next.world.db = net.world.db := by
  rcases step_cases net next move stepped with ⟨i, left, session, rfl, -, -⟩ | ⟨i, fault, session, -, -, rfl⟩ |
    ⟨change, -, rfl⟩
  · exact absurd rfl (other i)
  · rfl
  · rfl

theorem keeps_run (keeps : ∀ i, Keeps hash (charts i) (rely i) (guarantee i) ok (facts i))
    (covered : ∀ i j, i ≠ j → ∀ tx log event db after, guarantee i tx log event db after → rely j db after)
    (net final : Net (engine S C hash) ε α n) (moves : List (Move (engine S C hash) n))
    (kept : ∀ i, Kept charts facts i net.world.db (net.sessions i)) (allowed : Meets (Asks ok) net moves)
    (reached : run net moves = some final) : ∀ i, Kept charts facts i final.world.db (final.sessions i) :=
  run_invariant (Asks ok) (fun net => ∀ i, Kept charts facts i net.world.db (net.sessions i))
    (fun net move next kept allowed stepped => keeps_step keeps covered net next move kept allowed stepped)
    net final moves kept allowed reached

end Machine

end ReadCommitted
