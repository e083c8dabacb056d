import RateWise.AccountFlow
import RateWise.Histories

set_option autoImplicit false

namespace RateWise

open Interleave
open ReadCommitted (view pending Moved Keeps Kept Asks ChainFacts)

section Rows

def Absent (t : Tables) (u : Uuid) : Prop := ∀ row ∈ t.accounts, row.id ≠ u

def Gone (t : Tables) (userId : Text) : Prop := ∀ u, uuidIn userId = some u → Absent t u

def NoReturn (before after : Tables) : Prop := ∀ u, Absent before u → Absent after u

abbrev KeepsAway (_ : Option (ReadCommitted.Tx schema Int32)) (_ : List (Event Api)) (_ : Event Api) := NoReturn

def Write.inserts : Write → Bool
  | .insertAccount _ => true
  | _ => false

def NoInsert (ws : List Write) : Prop := ∀ w ∈ ws, w.inserts = false

theorem change_apply_id (change : AccountChange) (row : Account) : (change.apply row).id = row.id := rfl

theorem absent_apply (t : Tables) (w : Write) (u : Uuid) (kept : w.inserts = false) :
    Absent (t.apply w) u ↔ Absent t u ∨ ∃ row, w = .deleteAccount row ∧ row.id = u := by
  cases w with
  | insertAccount row => cases kept
  | updateAccount id change =>
      simp only [Absent, Tables.apply, List.forall_mem_map, reduceCtorEq, false_and, exists_false, or_false]
      refine forall₂_congr fun row _ => ?_
      split <;> simp [change_apply_id]
  | deleteAccount row =>
      simp only [Absent, Tables.apply, List.mem_filter, decide_eq_true_eq, Write.deleteAccount.injEq, exists_eq_left']
      constructor
      · intro absent
        by_cases same : row.id = u
        · exact .inr same
        · refine .inl fun other stored equal => ?_
          exact absent other ⟨stored, fun here => same (here ▸ equal)⟩ equal
      · rintro (absent | rfl) other ⟨stored, different⟩
        · exact absent other stored
        · exact different
  | _ => simp [Absent, Tables.apply]

theorem absent_view (ws : List Write) (t : Tables) (u : Uuid) (kept : NoInsert ws) :
    Absent (view schema t ws) u ↔ Absent t u ∨ ∃ row, .deleteAccount row ∈ ws ∧ row.id = u := by
  induction ws generalizing t with
  | nil => simp [view]
  | cons w rest ih =>
      have tail := ih (t.apply w) fun x inRest => kept x (by simp [inRest])
      refine tail.trans ?_
      rw [absent_apply t w u (kept w (by simp))]
      constructor
      · rintro ((absent | ⟨row, rfl, same⟩) | ⟨row, listed, same⟩)
        · exact .inl absent
        · exact .inr ⟨row, by simp, same⟩
        · exact .inr ⟨row, by simp [listed], same⟩
      · rintro (absent | ⟨row, listed, same⟩)
        · exact .inl (.inl absent)
        · rcases List.mem_cons.mp listed with rfl | later
          · exact .inl (.inr ⟨row, rfl, same⟩)
          · exact .inr ⟨row, later, same⟩

theorem no_return_view (t : Tables) (ws : List Write) (kept : NoInsert ws) : NoReturn t (view schema t ws) :=
  fun u absent => (absent_view ws t u kept).mpr (.inl absent)

theorem no_insert_append (ws added : List Write) (kept : NoInsert ws) (more : NoInsert added) : NoInsert (ws ++ added) := by
  intro w member
  rcases List.mem_append.mp member with old | new
  · exact kept w old
  · exact more w new

theorem no_insert_attempts (t : Tables) (s : Sql) (plain : ∀ row, s ≠ .insertAccount row) : NoInsert (t.attempts s) := by
  intro w member
  have source := attempts_accounts t s w member
  cases w with
  | insertAccount row => exact absurd source (plain row)
  | _ => rfl

theorem removed_account (t : Tables) (row : Account) (stored : row ∈ t.accounts) :
    .deleteAccount row ∈ t.attempts (.removeAccount row.id) := by
  have listed : row ∈ t.accounts.filter (fun other => other.id = row.id) := List.mem_filter.mpr ⟨stored, by simp⟩
  simp only [Tables.attempts]
  split
  · rename_i nothing
    rw [nothing] at listed
    cases listed
  · exact List.mem_append_right _ (List.mem_map_of_mem listed)

end Rows

section Facts

def asksAccount : Api.Stmt → Option Text
  | .sql (.findAccount id) => some id
  | _ => none

-- The account that a request has loaded is still there when it loads it again.
def Reloads (t : Tables) (log : EventLog) (s : Api.Stmt) : Prop :=
  ∀ id ∈ asksAccount s, (log.findSome? accountRead).isSome = true → (t.answer (.findAccount id)).isSome = true

instance (t : Tables) (log : EventLog) (s : Api.Stmt) : Decidable (Reloads t log s) :=
  inferInstanceAs (Decidable (∀ id ∈ asksAccount s,
    (log.findSome? accountRead).isSome = true → (t.answer (.findAccount id)).isSome = true))

def StatusFacts : StatusPoint → Tables → EventLog → Option (ReadCommitted.Tx schema Int32) → Prop
  | .loading, _, _, tx => tx = none
  | .resaving _, _, log, tx => tx = none ∧ (log.findSome? accountRead).isSome = true
  | .opening _ s, _, _, tx => tx = none ∧ ∀ row, s ≠ .insertAccount row
  | .writing _ s, _, _, tx => (∃ x, tx = some x ∧ NoInsert x.writes) ∧ ∀ row, s ≠ .insertAccount row
  | .closing _, _, _, tx => ∃ x, tx = some x ∧ NoInsert x.writes
  | .undoing _, _, _, _ => True
  | .forgetting _, _, _, tx => tx = none
  | .ended _, _, _, tx => tx = none

theorem status_keeps (hashtext : Text → Int32) (q : StatusChange) :
    Keeps hashtext q.chart NoReturn KeepsAway Reloads StatusFacts where
  stable p db after log tx holds _ := by cases p <;> exact holds
  faulted p db log tx s next fault here holds := by
    cases p with
    | loading =>
        simp only [StatusChange.chart] at here
        split at here
        · cases here
          exact holds
        · cases here
    | resaving user =>
        cases here
        exact holds.1
    | writing user s =>
        cases here
        trivial
    | forgetting user =>
        cases here
        exact holds
    | opening user s => cases here
    | closing user => cases here
    | undoing error => cases here
    | ended result => cases result <;> cases here
  moved world left others p tx p' after event log holds allowed moved := by
    have idle : NoReturn world.db world.db := fun _ absent => absent
    cases p with
    | loading =>
        cases holds
        cases valid : validUUID q.userId with
        | false => exact (ReadCommitted.moved_ended moved (.inr ⟨userNotFound, by simp [StatusChange.chart, valid]⟩)).elim
        | true =>
            have here : q.chart .loading = .stmt (.sql (.findAccount q.userId)) (StatusChange.orFail (fun error => error) q.loaded) := by
              simp [StatusChange.chart, valid]
            rcases ReadCommitted.moved_autocommit moved here with ⟨fault, -, rfl, rfl, rfl, rfl⟩ | ⟨-, rfl, rfl, rfl, rfl⟩
            · exact ⟨rfl, idle⟩
            · refine ⟨?_, idle⟩
              show StatusFacts (q.loaded (world.db.answer (.findAccount q.userId))) _ _ _
              cases found : world.db.answer (.findAccount q.userId) with
              | none => exact rfl
              | some user =>
                  have read : accountRead (.ran (.sql (.findAccount q.userId))
                      (.ok (world.db.answer (.findAccount q.userId)))) = some user := by rw [found]; rfl
                  simp only [StatusChange.loaded]
                  split
                  · exact rfl
                  · exact ⟨rfl, by rw [List.findSome?_cons, read]; rfl⟩
    | resaving user =>
        obtain ⟨rfl, read⟩ := holds
        rcases ReadCommitted.moved_autocommit moved rfl with ⟨fault, -, rfl, rfl, rfl, rfl⟩ | ⟨-, rfl, rfl, rfl, rfl⟩
        · exact ⟨rfl, idle⟩
        · refine ⟨?_, idle⟩
          have present := allowed _ _ rfl _ rfl read
          show StatusFacts (StatusChange.reread user (world.db.answer (.findAccount user.id.text))) _ _ _
          cases found : world.db.answer (.findAccount user.id.text) with
          | none =>
              rw [show view schema world.db (pending none) = world.db from rfl, found] at present
              cases present
          | some row =>
              simp only [StatusChange.reread]
              split
              · exact rfl
              · exact ⟨rfl, fun _ same => by cases same⟩
    | opening user s =>
        obtain ⟨rfl, rfl, rfl, rfl⟩ := ReadCommitted.moved_begin moved rfl
        exact ⟨⟨⟨_, rfl, fun _ member => by cases member⟩, holds.2⟩, idle⟩
    | writing user s =>
        obtain ⟨⟨x, rfl, kept⟩, plain⟩ := holds
        rcases ReadCommitted.moved_sql moved rfl with ⟨fault, -, rfl, rfl, rfl, rfl⟩ | ⟨-, -, rfl, rfl, rfl, rfl⟩
        · exact ⟨trivial, idle⟩
        · exact ⟨⟨_, rfl, no_insert_append _ _ kept (no_insert_attempts _ s plain)⟩, idle⟩
    | closing user =>
        obtain ⟨x, rfl, kept⟩ := holds
        obtain ⟨rfl, rfl, rfl, rfl⟩ := ReadCommitted.moved_commit moved rfl
        exact ⟨rfl, no_return_view _ _ kept⟩
    | undoing error =>
        obtain ⟨rfl, rfl, rfl, rfl⟩ := ReadCommitted.moved_rollback moved rfl
        exact ⟨rfl, idle⟩
    | forgetting user =>
        cases holds
        obtain ⟨rfl, rows, reply, rfl, rfl⟩ := ReadCommitted.moved_cmd moved rfl
        rw [rows]
        refine ⟨?_, idle⟩
        cases reply <;> exact rfl
    | ended result =>
        refine (ReadCommitted.moved_ended moved ?_).elim
        cases result with
        | ok value => exact .inl ⟨value, rfl⟩
        | error error => exact .inr ⟨error, rfl⟩

def Erasing (userId : Text) : DeletionPoint → Tables → Option (ReadCommitted.Tx schema Int32) → Prop
  | .queued, _, tx => tx = none
  | .finding, _, tx => ∃ x, tx = some x ∧ NoInsert x.writes
  | .reading user, _, tx => uuidIn userId = some user.id ∧ ∃ x, tx = some x ∧ NoInsert x.writes
  | .subtractingUp user _, _, tx => uuidIn userId = some user.id ∧ ∃ x, tx = some x ∧ NoInsert x.writes
  | .subtractingDown user _, _, tx => uuidIn userId = some user.id ∧ ∃ x, tx = some x ∧ NoInsert x.writes
  | .removing user _, _, tx => uuidIn userId = some user.id ∧ ∃ x, tx = some x ∧ NoInsert x.writes
  | .closing, t, tx => ∃ x, tx = some x ∧ NoInsert x.writes ∧
      (Gone t userId ∨ ∃ row, .deleteAccount row ∈ x.writes ∧ uuidIn userId = some row.id)
  | .undoing _, _, _ => True
  | .forgetting, _, tx => tx = none
  | .ended _, _, tx => tx = none

def GoneOnceCommitted (userId : Text) (t : Tables) (log : EventLog) : Prop := Committed log → Gone t userId

def ErasureFacts (userId : Text) (p : DeletionPoint) (t : Tables) (log : EventLog)
    (tx : Option (ReadCommitted.Tx schema Int32)) : Prop := GoneOnceCommitted userId t log ∧ Erasing userId p t tx

theorem gone_stable (userId : Text) (before after : Tables) (gone : Gone before userId) (kept : NoReturn before after) :
    Gone after userId := fun u parsed => kept u (gone u parsed)

theorem gone_logged (userId : Text) (t : Tables) (log : EventLog) (event : Event Api) (gone : GoneOnceCommitted userId t log)
    (other : event ≠ .committed) : GoneOnceCommitted userId t (event :: log) := by
  intro committed
  rcases List.mem_cons.mp committed with same | earlier
  · exact absurd same.symm other
  · exact gone earlier

theorem erasing_read (userId : Text) (user : Account) (votes : List VoteSummary) (t : Tables)
    (tx : Option (ReadCommitted.Tx schema Int32)) (same : uuidIn userId = some user.id)
    (kept : ∃ x, tx = some x ∧ NoInsert x.writes) :
    Erasing userId (Deletion.read user votes) t tx ∧ Erasing userId (Deletion.subtractedUp user votes) t tx := by
  have subtracted : Erasing userId (Deletion.subtractedUp user votes) t tx := by
    unfold Deletion.subtractedUp
    split <;> exact ⟨same, kept⟩
  refine ⟨?_, subtracted⟩
  unfold Deletion.read
  split
  · exact subtracted
  · exact ⟨same, kept⟩

theorem erasure_keeps (hashtext : Text → Int32) (userId : Text) :
    Keeps hashtext (Deletion.chart userId) NoReturn KeepsAway Reloads (ErasureFacts userId) where
  stable p db after log tx holds relied := by
    refine ⟨fun committed => gone_stable userId db after (holds.1 committed) relied, ?_⟩
    cases p with
    | closing =>
        obtain ⟨-, x, opened, kept, gone | deleted⟩ := holds
        · exact ⟨x, opened, kept, .inl (gone_stable userId db after gone relied)⟩
        · exact ⟨x, opened, kept, .inr deleted⟩
    | _ => exact holds.2
  faulted p db log tx s next fault here holds := by
    refine ⟨gone_logged userId db log _ holds.1 nofun, ?_⟩
    cases p with
    | forgetting =>
        cases here
        exact holds.2
    | queued => cases here
    | closing => cases here
    | undoing error => cases here
    | ended result => cases result <;> cases here
    | _ =>
        cases here
        trivial
  moved world left others p tx p' after event log holds allowed moved := by
    obtain ⟨gone, inside⟩ := holds
    have idle : NoReturn world.db world.db := fun _ absent => absent
    have aside : ∀ event, event ≠ .committed → GoneOnceCommitted userId world.db (event :: log) :=
      fun event other => gone_logged userId world.db log event gone other
    -- One statement of the transaction that reads or changes counters.
    have asked : ∀ (x : ReadCommitted.Tx schema Int32) (s : Sql) (next : s.Answer → DeletionPoint), tx = some x →
        NoInsert x.writes → (∀ row, s ≠ .insertAccount row) →
        Deletion.chart userId p = .stmt (.sql s) (Deletion.orUndo next) →
        (∀ y, NoInsert y.writes → Erasing userId (next ((view schema world.db x.writes).answer s)) world.db (some y)) →
        ErasureFacts userId p' left.db (event :: log) after ∧ NoReturn world.db left.db := by
      rintro x s next rfl kept plain here onward
      rcases ReadCommitted.moved_sql moved here with ⟨fault, -, rfl, rfl, rfl, rfl⟩ | ⟨-, -, rfl, rfl, rfl, rfl⟩
      · exact ⟨⟨aside _ nofun, trivial⟩, idle⟩
      · exact ⟨⟨aside _ nofun, onward _ (no_insert_append _ _ kept (no_insert_attempts _ s plain))⟩, idle⟩
    cases p with
    | queued =>
        cases inside
        obtain ⟨rfl, rfl, rfl, rfl⟩ := ReadCommitted.moved_begin moved rfl
        refine ⟨⟨aside _ nofun, ?_⟩, idle⟩
        split
        · exact ⟨_, rfl, nofun⟩
        · trivial
    | finding =>
        obtain ⟨x, rfl, kept⟩ := inside
        refine asked x (.findAccount userId) Deletion.found rfl kept nofun rfl fun y more => ?_
        cases found : (view schema world.db x.writes).answer (.findAccount userId) with
        | none => trivial
        | some user => exact ⟨(found_account _ userId user found).2, y, rfl, more⟩
    | reading user =>
        obtain ⟨same, x, rfl, kept⟩ := inside
        exact asked x (.findVotesBy userId) (Deletion.read user) rfl kept nofun rfl fun y more =>
          (erasing_read userId user _ _ _ same ⟨y, rfl, more⟩).1
    | subtractingUp user votes =>
        obtain ⟨same, x, rfl, kept⟩ := inside
        exact asked x (.addVotes (Deletion.revoked votes .up) .up (-1)) (fun _ => Deletion.subtractedUp user votes) rfl kept
          nofun rfl fun y more => (erasing_read userId user votes _ _ same ⟨y, rfl, more⟩).2
    | subtractingDown user votes =>
        obtain ⟨same, x, rfl, kept⟩ := inside
        exact asked x (.addVotes (Deletion.revoked votes .down) .down (-1)) (fun _ => .removing user votes) rfl kept
          nofun rfl fun y more => ⟨same, y, rfl, more⟩
    | removing user votes =>
        obtain ⟨same, x, rfl, kept⟩ := inside
        rcases ReadCommitted.moved_sql moved rfl with ⟨fault, -, rfl, rfl, rfl, rfl⟩ | ⟨-, -, rfl, rfl, rfl, rfl⟩
        · exact ⟨⟨aside _ nofun, trivial⟩, idle⟩
        · refine ⟨⟨aside _ nofun, _, rfl, no_insert_append _ _ kept (no_insert_attempts _ (.removeAccount user.id) nofun), ?_⟩, idle⟩
          by_cases absent : Absent (view schema left.db x.writes) user.id
          · rcases (absent_view x.writes left.db user.id kept).mp absent with gone | ⟨row, listed, equal⟩
            · refine .inl fun u parsed => ?_
              rw [same, Option.some.injEq] at parsed
              exact parsed ▸ gone
            · exact .inr ⟨row, List.mem_append_left _ listed, by rw [same, equal]⟩
          · simp only [Absent, ne_eq, not_forall, not_not] at absent
            obtain ⟨row, stored, equal⟩ := absent
            refine .inr ⟨row, List.mem_append_right _ ?_, by rw [same, equal]⟩
            rw [← equal]
            exact removed_account _ row stored
    | closing =>
        obtain ⟨x, rfl, kept, reason⟩ := inside
        obtain ⟨rfl, rfl, rfl, rfl⟩ := ReadCommitted.moved_commit moved rfl
        refine ⟨⟨fun _ u parsed => (absent_view x.writes world.db u kept).mpr ?_, rfl⟩, no_return_view _ _ kept⟩
        rcases reason with gone | ⟨row, listed, same⟩
        · exact .inl (gone u parsed)
        · rw [parsed, Option.some.injEq] at same
          exact .inr ⟨row, listed, same.symm⟩
    | undoing error =>
        obtain ⟨rfl, rfl, rfl, rfl⟩ := ReadCommitted.moved_rollback moved rfl
        exact ⟨⟨aside _ nofun, rfl⟩, idle⟩
    | forgetting =>
        cases inside
        obtain ⟨rfl, rows, reply, rfl, rfl⟩ := ReadCommitted.moved_cmd moved rfl
        rw [rows]
        refine ⟨⟨aside _ nofun, ?_⟩, idle⟩
        cases reply <;> exact rfl
    | ended result =>
        refine (ReadCommitted.moved_ended moved ?_).elim
        cases result with
        | ok answer => exact .inl ⟨answer, rfl⟩
        | error error => exact .inr ⟨error, rfl⟩

end Facts

section Requests

namespace AccountRequest

def VerifyFacts (token : Token) : ApiFacts VerifyPoint :=
  ChainFacts (S := schema) (C := Redis.commands) (Idle token.carries fun _ _ => True) fun _ =>
    ChainFacts (S := schema) (C := Redis.commands) StatusFacts fun _ => Idle (fun _ => True) fun _ _ => True

def DeletedFacts (payload : JwtPayload) : ApiFacts (Async Unit ⊕ (Unit × (DeletionPoint ⊕ (Bool × Async Unit)))) :=
  ChainFacts (S := schema) (C := Redis.commands) (Idle (fun _ => True) (GoneOnceCommitted payload.id)) fun _ =>
    ChainFacts (S := schema) (C := Redis.commands) (ErasureFacts payload.id) fun _ =>
      Idle (fun _ => True) (GoneOnceCommitted payload.id)

def DeleteFacts (token : Token) : ApiFacts DeletePoint :=
  ChainFacts (S := schema) (C := Redis.commands) (Idle token.carries fun _ log => ¬ Committed log) fun payload p t log tx =>
    token.carries payload ∧ DeletedFacts payload p t log tx

def Facts : (q : AccountRequest) → ApiFacts q.Point
  | .verify token => VerifyFacts token
  | .suspend _ => StatusFacts
  | .reactivate _ => StatusFacts
  | .delete token => DeleteFacts token

theorem idle_keeps {α : Type} (hashtext : Text → Int32) (post : α → Prop) (facts : Tables → EventLog → Prop)
    (stable : ∀ t after log, facts t log → NoReturn t after → facts after log)
    (logged : ∀ t log c reply, facts t log → facts t (.ran (.cmd c) reply :: log)) :
    Keeps (S := schema) (C := Redis.commands) hashtext (Prog.node (ε := Err)) NoReturn KeepsAway Reloads (Idle post facts) :=
  ReadCommitted.keeps_quiet (S := schema) (C := Redis.commands) post facts stable logged fun _ _ _ _ _ absent => absent

theorem gone_keeps (hashtext : Text → Int32) (userId : Text) :
    Keeps (S := schema) (C := Redis.commands) hashtext (Prog.node (ε := Err) (α := Unit)) NoReturn KeepsAway Reloads
      (Idle (fun _ => True) (GoneOnceCommitted userId)) :=
  idle_keeps hashtext _ _ (fun t after _ gone kept committed => gone_stable userId t after (gone committed) kept)
    fun t _ _ _ gone => gone_logged userId t _ _ gone nofun

theorem keeps (hashtext : Text → Int32) (q : AccountRequest) : Keeps hashtext q.chart NoReturn KeepsAway Reloads q.Facts := by
  have plain : ∀ {α : Type} (post : α → Prop), Keeps (S := schema) (C := Redis.commands) hashtext
      (Prog.node (ε := Err) (α := α)) NoReturn KeepsAway Reloads (Idle post fun _ _ => True) :=
    fun post => idle_keeps hashtext post _ (fun _ _ _ _ _ => trivial) fun _ _ _ _ _ => trivial
  cases q with
  | suspend userId => exact status_keeps hashtext (suspension userId)
  | reactivate userId => exact status_keeps hashtext (reactivation userId)
  | verify token =>
      refine ReadCommitted.keeps_chain (plain _) (fun payload => ReadCommitted.keeps_chain (status_keeps hashtext _)
        (fun _ => plain _) ?_) ?_
      · intro p value t log tx here holds
        cases p with
        | ended result => exact ⟨quiet_blacklisting payload, holds, trivial⟩
        | loading =>
            simp only [StatusChange.chart] at here
            split at here <;> cases here
        | _ => cases here
      · intro prog payload t log tx here holds
        exact holds.2.1
  | delete token =>
      refine ReadCommitted.keeps_chain (idle_keeps hashtext _ _ (fun _ _ _ open_ _ => open_) ?_) (fun payload =>
        ReadCommitted.keeps_and _ (ReadCommitted.keeps_chain (gone_keeps hashtext payload.id) (fun _ =>
          ReadCommitted.keeps_chain (erasure_keeps hashtext payload.id) (fun _ => gone_keeps hashtext payload.id) ?_) ?_)) ?_
      · intro t log c reply open_ committed
        rcases List.mem_cons.mp committed with same | earlier
        · cases same
        · exact open_ earlier
      · intro p value t log tx here holds
        cases p with
        | ended result => exact ⟨quiet_signing_out payload, holds.2, holds.1⟩
        | _ => cases here
      · intro prog value t log tx here holds
        exact ⟨holds.2.2, holds.2.1⟩
      · intro prog payload t log tx here holds
        cases prog with
        | done value =>
            cases here
            exact ⟨holds.1, quiet_blacklist _ _, holds.2.1, fun committed => absurd committed holds.2.2⟩
        | _ => cases here

theorem deleted_facts_gone (payload : JwtPayload) (p : Async Unit ⊕ (Unit × (DeletionPoint ⊕ (Bool × Async Unit))))
    (t : Tables) (log : EventLog) (tx : Option (ReadCommitted.Tx schema Int32)) (facts : DeletedFacts payload p t log tx)
    (committed : Committed log) : Gone t payload.id := by
  rcases p with prog | ⟨_, deletion | ⟨_, prog⟩⟩
  · exact facts.2.2 committed
  · exact facts.1 committed
  · exact facts.2.2 committed

theorem delete_facts_gone (secret : Text) (payload : JwtPayload) (p : DeletePoint) (t : Tables) (log : EventLog)
    (tx : Option (ReadCommitted.Tx schema Int32)) (facts : DeleteFacts (.signed secret payload) p t log tx)
    (committed : Committed log) : Gone t payload.id := by
  rcases p with prog | ⟨found, p⟩
  · exact absurd committed facts.2.2
  · obtain ⟨⟨_, carried⟩, facts⟩ := facts
    cases carried
    exact deleted_facts_gone payload p t log tx facts committed

end AccountRequest

end Requests

section Runs

variable {n : Nat} {hashtext : Text → Int32}

def FindsAgain (net : AccountNet hashtext n) (move : AccountMove hashtext n) : Prop := Asks Reloads net move

instance (net : AccountNet hashtext n) (move : AccountMove hashtext n) : Decidable (FindsAgain net move) :=
  inferInstanceAs (Decidable (Asks Reloads net move))

theorem account_entry (config : AuthConfig) (start : World) (q : AccountRequest) :
    q.Facts (q.entry config) start.db [] none := by
  cases q with
  | suspend userId => exact rfl
  | reactivate userId => exact rfl
  | verify token => exact ⟨quiet_carries _ token, rfl, trivial⟩
  | delete token => exact ⟨quiet_carries _ token, rfl, nofun⟩

-- While every request finds again the account that it has loaded, an account
-- that was deleted stays deleted.
theorem deleted_accounts_stay_deleted (config : AuthConfig) (requests : Fin n → AccountRequest) (start : World)
    (before after : List (AccountMove hashtext n)) (middle final : AccountNet hashtext n)
    (reloads : Meets FindsAgain (launch start fun i => (requests i).program config) (before ++ after))
    (reached : run (launch start fun i => (requests i).program config) before = some middle)
    (later : run middle after = some final) (i : Fin n) (secret : Text) (payload : JwtPayload) (u : Uuid)
    (deletion : requests i = .delete (.signed secret payload)) (target : uuidIn payload.id = some u)
    (committed : Committed (middle.sessions i).log) : ∀ row ∈ final.world.db.accounts, row.id ≠ u := by
  have whole : run (launch start fun i => (requests i).program config) (before ++ after) = some final := by
    rw [run_append, reached, Option.bind_some, later]
  have kept := ReadCommitted.keeps_run (fun i => (requests i).keeps hashtext) (fun _ _ _ _ _ _ _ _ relied => relied) _ final _
    (fun i => ⟨(requests i).entry config, (requests i).follows_program config, account_entry config start (requests i)⟩)
    reloads whole i
  have still : Committed (final.sessions i).log := (run_log middle final after later i).subset committed
  obtain ⟨p, -, holds⟩ := kept
  generalize requests i = q at p holds deletion
  cases deletion
  exact AccountRequest.delete_facts_gone secret payload p _ _ _ holds still u target

end Runs

def eveText : Text := "33333333-3333-4333-8333-333333333333".toList

def eve : Uuid := ⟨eveText, by decide⟩

def eveWith (status : AccountStatus) : World :=
  ⟨{ Tables.empty with accounts := [⟨⟨eve, 0⟩, "eve".toList, "eve@x".toList, [], [.reviewer], status⟩] }, Redis.empty⟩

def authConfig : AuthConfig := ⟨"verify".toList, 3600, "delete".toList, 3600⟩

def deletionPayload : JwtPayload := ⟨some .accountDeletion, some "jti".toList, some 0, some 3600, TokensService.identity eveText⟩

def deletedAndSuspended : Fin 2 → AccountRequest
  | 0 => .delete (.signed "delete".toList deletionPayload)
  | 1 => .suspend eveText

-- The deletion runs to its end after the suspension has loaded the account;
-- save finds no row then and inserts the entity.
def resurrection : List (AccountMove (fun _ => 0) 2) :=
  .second :: (List.replicate 12 .first ++ List.replicate 4 .second)

theorem suspension_resurrects_account : ¬ ∀ (n : Nat) (hashtext : Text → Int32) (config : AuthConfig)
    (requests : Fin n → AccountRequest) (start : World) (before after : List (AccountMove hashtext n))
    (middle final : AccountNet hashtext n) (i : Fin n) (secret : Text) (payload : JwtPayload) (u : Uuid),
    run (launch start fun i => (requests i).program config) before = some middle → run middle after = some final →
    requests i = .delete (.signed secret payload) → uuidIn payload.id = some u → Committed (middle.sessions i).log →
    ∀ row ∈ final.world.db.accounts, row.id ≠ u := by
  intro claim
  obtain ⟨final, reached, committed, row, stored, back⟩ := run_exists
    (launch (eveWith .active) fun i => (deletedAndSuspended i).program authConfig) resurrection
    (fun final => Committed (final.sessions 0).log ∧ ∃ row ∈ final.world.db.accounts, row.id = eve) (by decide)
  exact claim 2 (fun _ => 0) authConfig deletedAndSuspended (eveWith .active) resurrection [] final final 0 "delete".toList
    deletionPayload eve reached rfl rfl (by decide) committed row stored back

-- The suspension has saved the account before the deletion commits.
def suspendedThenDeleted : List (AccountMove (fun _ => 0) 2) :=
  .second :: (List.replicate 6 .first ++ List.replicate 5 .second ++ List.replicate 3 .first)

theorem deleted_accounts_stay_deleted_interleaved : ∃ middle final : AccountNet (fun _ => 0) 2,
    run (launch (eveWith .active) fun i => (deletedAndSuspended i).program authConfig) suspendedThenDeleted = some middle ∧
    run middle [.first] = some final ∧ ∀ row ∈ final.world.db.accounts, row.id ≠ eve := by
  obtain ⟨middle, reached, committed, more⟩ := run_exists
    (launch (eveWith .active) fun i => (deletedAndSuspended i).program authConfig) suspendedThenDeleted
    (fun middle => Committed (middle.sessions 0).log ∧ (run middle [.first]).isSome = true) (by decide)
  obtain ⟨final, later⟩ := Option.isSome_iff_exists.mp more
  exact ⟨middle, final, reached, later, deleted_accounts_stay_deleted authConfig deletedAndSuspended (eveWith .active)
    suspendedThenDeleted [.first] middle final (by decide) reached later 0 "delete".toList deletionPayload eve rfl rfl committed⟩

end RateWise
