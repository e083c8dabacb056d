import RateWise.ReadCommitted

set_option autoImplicit false

namespace ReadCommitted

open Interleave

section Redo

variable {S : Schema}

-- A redo log each of whose changes is let through when its turn comes.
def Sound (applies : S.Db → S.Write → Prop) (db : S.Db) : List S.Write → Prop
  | [] => True
  | w :: rest => applies db w ∧ Sound applies (S.apply db w) rest

theorem view_append (db : S.Db) (first second : List S.Write) :
    view S db (first ++ second) = view S (view S db first) second := List.foldl_append

theorem sound_append (applies : S.Db → S.Write → Prop) (db : S.Db) (first second : List S.Write) :
    Sound applies db (first ++ second) ↔ Sound applies db first ∧ Sound applies (view S db first) second := by
  induction first generalizing db with
  | nil => simp [Sound, view]
  | cons w rest ih =>
      simp only [List.cons_append, Sound, ih (S.apply db w), and_assoc]
      rfl

end Redo

-- Declared constraints over the committed rows. Applies is what the server
-- checks of one row change; the row locks make it stable under the changes of
-- other transactions, and same relates rows that agree in what it reads.
structure Constraints (S : Schema) where
  Valid : S.Db → Prop
  Applies : S.Db → S.Write → Prop
  Same : S.Db → S.Db → Prop
  same_apply : ∀ t u w, Same t u → Same (S.apply t w) (S.apply u w)
  same_applies : ∀ t u w, Same t u → Applies t w → Applies u w
  commute : ∀ t a b, clash S a b = false → Same (S.apply (S.apply t a) b) (S.apply (S.apply t b) a)
  disjoint : ∀ t a b, clash S a b = false → Applies t a → Applies t b → Applies (S.apply t b) a
  valid_apply : ∀ t w, Valid t → Applies t w → Valid (S.apply t w)
  sound_attempts : ∀ t s, Valid t → S.refuses t s = none → Sound Applies t (S.attempts t s)

namespace Constraints

variable {S : Schema} (K : Constraints S)

theorem sound_same (t u : S.Db) (ws : List S.Write) (same : K.Same t u) (sound : Sound K.Applies t ws) :
    Sound K.Applies u ws := by
  induction ws generalizing t u with
  | nil => trivial
  | cons w rest ih =>
      exact ⟨K.same_applies t u w same sound.1, ih _ _ (K.same_apply t u w same) sound.2⟩

theorem sound_apply (t : S.Db) (ws : List S.Write) (b : S.Write) (sound : Sound K.Applies t ws)
    (applies : K.Applies t b) (quiet : ∀ w ∈ ws, clash S w b = false) : Sound K.Applies (S.apply t b) ws := by
  induction ws generalizing t with
  | nil => trivial
  | cons w rest ih =>
      have apart : clash S w b = false := quiet w (by simp)
      refine ⟨K.disjoint t w b apart sound.1 applies, ?_⟩
      refine K.sound_same _ _ rest (K.commute t w b apart) (ih _ sound.2 ?_ fun x inRest => quiet x (by simp [inRest]))
      exact K.disjoint t b w (by rw [clash_symm]; exact apart) applies sound.1

theorem sound_view (t : S.Db) (ws vs : List S.Write) (sound : Sound K.Applies t ws)
    (committed : Sound K.Applies t vs) (quiet : ∀ w ∈ ws, ∀ v ∈ vs, clash S w v = false) :
    Sound K.Applies (view S t vs) ws := by
  induction vs generalizing t with
  | nil => exact sound
  | cons v rest ih =>
      refine ih _ (K.sound_apply t ws v sound committed.1 fun w inWs => quiet w inWs v (by simp)) committed.2 ?_
      exact fun w inWs x inRest => quiet w inWs x (by simp [inRest])

theorem valid_view (t : S.Db) (ws : List S.Write) (valid : K.Valid t) (sound : Sound K.Applies t ws) :
    K.Valid (view S t ws) := by
  induction ws generalizing t with
  | nil => exact valid
  | cons w rest ih => exact ih _ (K.valid_apply t w valid sound.1) sound.2

end Constraints

def pending {S : Schema} {Lock : Type} (tx : Option (Tx S Lock)) : List S.Write := (tx.map Tx.writes).getD []

theorem mem_pending {S : Schema} {Lock : Type} (tx : Option (Tx S Lock)) (w : S.Write) (written : w ∈ pending tx) :
    ∃ x, tx = some x ∧ w ∈ x.writes := by
  cases tx with
  | none => cases written
  | some x => exact ⟨x, rfl, written⟩

section Runs

variable {S : Schema} {C : Commands S.Fault} {Key Lock : Type} [DecidableEq Lock] {hash : Key → Lock}
variable {ε α : Type} {n : Nat}

inductive Effect (world : World S C) (others : List (Tx S Lock)) (before after : Option (Tx S Lock))
    (left : World S C) : Prop where
  | reset (rows : left.db = world.db) (log : pending after = [])
  | kept (rows : left.db = world.db) (log : pending after = pending before)
  | wrote (s : S.Sql) (rows : left.db = world.db)
      (allowed : S.refuses (view S world.db (pending before)) s = none)
      (log : pending after = pending before ++ S.attempts (view S world.db (pending before)) s)
  | committed (tx : Tx S Lock) (opened : before = some tx) (rows : left.db = view S world.db tx.writes)
      (log : pending after = [])
  | autocommitted (s : S.Sql) (allowed : S.refuses world.db s = none)
      (free : ∀ other ∈ others, ∀ a ∈ S.attempts world.db s, ∀ b ∈ other.writes, clash S a b = false)
      (rows : left.db = view S world.db (S.attempts world.db s)) (log : pending after = [])

theorem exec_writes (world left : World S C) (tx after : Tx S Lock) (others : List (Tx S Lock))
    (s : Call S.Sql Key C.Cmd) (reply : (interface S C Key).Reply s)
    (ran : (engine S C hash).exec world tx others s = .ok (reply, after, left)) :
    left.db = world.db ∧ (after.writes = tx.writes ∨ ∃ q, s = .sql q ∧ S.refuses (view S world.db tx.writes) q = none ∧
      after.writes = tx.writes ++ S.attempts (view S world.db tx.writes) q) := by
  cases s with
  | sql q =>
      simp only [engine] at ran
      cases refused : S.refuses (view S world.db tx.writes) q with
      | some fault => simp [refused] at ran
      | none =>
          rw [refused] at ran
          cases ran
          exact ⟨rfl, .inr ⟨q, rfl, refused, rfl⟩⟩
  | tryLock key =>
      simp only [engine] at ran
      split at ran <;> cases ran <;> exact ⟨rfl, .inl rfl⟩
  | cmd c =>
      simp only [engine] at ran
      cases replied : C.exec world.store c with
      | error fault => simp [replied] at ran
      | ok result =>
          rw [replied] at ran
          cases ran
          exact ⟨rfl, .inl rfl⟩

theorem free_of_clash (world : World S C) (tx : Tx S Lock) (others : List (Tx S Lock)) (q : S.Sql)
    (free : (engine S C hash).waits world tx others (.sql q) = false) :
    ∀ other ∈ others, ∀ a ∈ S.attempts (view S world.db tx.writes) q, ∀ b ∈ other.writes, clash S a b = false := by
  intro other member a attempted b written
  simp only [engine, List.any_eq_false, List.any_eq_true, not_exists, not_and, Bool.not_eq_true] at free
  exact free a attempted other member b written

theorem advance_effect (world left : World S C) (others : List (Tx S Lock)) (session after : Session (engine S C hash) ε α)
    (advanced : session.advance world others = some (left, after)) :
    Effect world others session.tx after.tx left := by
  obtain ⟨prog, tx, log⟩ := session
  cases prog with
  | done value => cases advanced
  | throw error => cases advanced
  | beginTx rest =>
      cases advanced
      exact .reset rfl rfl
  | commitTx rest =>
      cases tx with
      | none =>
          cases advanced
          exact .reset rfl rfl
      | some tx =>
          cases advanced
          exact .committed tx rfl rfl rfl
  | rollbackTx rest =>
      cases advanced
      exact .reset rfl rfl
  | stmt s resume =>
      simp only [Session.advance] at advanced
      split at advanced
      · cases advanced
      · rename_i free
        simp only [Bool.not_eq_true] at free
        split at advanced
        · cases advanced
          exact .kept rfl rfl
        · rename_i reply result changed ran
          cases tx with
          | none =>
              cases advanced
              obtain ⟨rows, same | ⟨q, rfl, allowed, written⟩⟩ := exec_writes _ _ _ _ _ s reply ran
              · have nothing : result.writes = [] := same
                exact .reset (by simp [engine, nothing, view, rows]) rfl
              · refine .autocommitted q allowed ?_ ?_ rfl
                · exact free_of_clash world ⟨[], []⟩ others q free
                · have all : result.writes = S.attempts world.db q := written
                  simp [engine, all, rows]
          | some tx =>
              cases advanced
              obtain ⟨rows, same | ⟨q, rfl, allowed, written⟩⟩ := exec_writes _ _ _ _ _ s reply ran
              · exact .kept rows same
              · exact .wrote q rows allowed written

theorem interrupt_tx (session after : Session (engine S C hash) ε α) (fault : S.Fault)
    (interrupted : session.interrupt fault = some after) : after.tx = session.tx := by
  obtain ⟨prog, tx, log⟩ := session
  cases prog with
  | stmt s resume =>
      cases interrupted
      rfl
  | _ => cases interrupted

-- The constraints hold of the committed rows, and every open redo log can
-- still be replayed on them.
def Consistent (K : Constraints S) : Net (engine S C hash) ε α n → Prop :=
  Modular (fun world => K.Valid world.db) (fun _ world session => Sound K.Applies world.db (pending session.tx))
    SessionsCompatible

theorem step_consistent (K : Constraints S) (net next : Net (engine S C hash) ε α n) (move : Move (engine S C hash) n)
    (consistent : Consistent K net) (stepped : step net move = some next) : Consistent K next := by
  have compatible := step_sessions_compatible net next move consistent.pair stepped
  rcases step_cases net next move stepped with ⟨i, left, session, -, advanced, rfl⟩ |
    ⟨i, fault, session, -, interrupted, rfl⟩ | ⟨change, -, rfl⟩
  · have mine : Sound K.Applies net.world.db (pending (net.sessions i).tx) := consistent.session i
    suffices kept : K.Valid left.db ∧ Sound K.Applies left.db (pending session.tx) ∧
        ∀ j, j ≠ i → Sound K.Applies left.db (pending (net.sessions j).tx) from
      modular_update sessions_compatible_symm net consistent i left session kept.1 kept.2.1 kept.2.2
        fun j different => by simpa [Function.update_of_ne different] using compatible i j (Ne.symm different)
    cases advance_effect net.world left (others net i) (net.sessions i) session advanced with
    | reset rows log =>
        rw [rows, log]
        exact ⟨consistent.world, trivial, fun j _ => consistent.session j⟩
    | kept rows log =>
        rw [rows, log]
        exact ⟨consistent.world, mine, fun j _ => consistent.session j⟩
    | wrote s rows allowed log =>
        rw [rows, log]
        refine ⟨consistent.world, (sound_append _ _ _ _).mpr ⟨mine, ?_⟩, fun j _ => consistent.session j⟩
        exact K.sound_attempts _ s (K.valid_view _ _ consistent.world mine) allowed
    | committed tx opened rows log =>
        rw [rows, log]
        rw [opened] at mine
        refine ⟨K.valid_view _ _ consistent.world mine, trivial, fun j different => ?_⟩
        refine K.sound_view _ _ _ (consistent.session j) mine fun w written v other => ?_
        obtain ⟨their, theirs, inTheirs⟩ := mem_pending _ w written
        exact (consistent.pair j i different their tx theirs opened).rows w inTheirs v other
    | autocommitted s allowed free rows log =>
        rw [rows, log]
        have whole := K.sound_attempts net.world.db s consistent.world allowed
        refine ⟨K.valid_view _ _ consistent.world whole, trivial, fun j different => ?_⟩
        refine K.sound_view _ _ _ (consistent.session j) whole fun w written v attempted => ?_
        obtain ⟨their, theirs, inTheirs⟩ := mem_pending _ w written
        rw [clash_symm]
        exact free their ((mem_others net i their).mpr ⟨j, different, theirs⟩) v attempted w inTheirs
  · exact modular_update sessions_compatible_symm net consistent i net.world session consistent.world
      (by rw [interrupt_tx _ _ fault interrupted]; exact consistent.session i) (fun j _ => consistent.session j)
      fun j different => by simpa [Function.update_of_ne different] using compatible i j (Ne.symm different)
  · exact ⟨consistent.world, consistent.session, compatible⟩

theorem launch_consistent (K : Constraints S) (world : World S C) (programs : Fin n → Prog (interface S C Key) ε α)
    (valid : K.Valid world.db) : Consistent K (launch (E := engine S C hash) world programs) where
  world := valid
  session _ := trivial
  pair i j _ x y left := by cases left

end Runs

end ReadCommitted
