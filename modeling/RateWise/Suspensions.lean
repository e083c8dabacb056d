import RateWise.AccountFlow
import RateWise.Histories

set_option autoImplicit false

namespace RateWise

open Interleave
open ReadCommitted (view pending Moved Keeps Kept Asks ChainFacts)

section Rows

def unstatused (t : Tables) : List Account := t.accounts.map fun row => { row with status := .active }

def SameButStatus (before after : Tables) : Prop := unstatused after = unstatused before

def StatusIn (t : Tables) (u : Uuid) (status : AccountStatus) : Prop := ∃ row ∈ t.accounts, row.id = u ∧ row.status = status

instance (t : Tables) (u : Uuid) (status : AccountStatus) : Decidable (StatusIn t u status) :=
  inferInstanceAs (Decidable (∃ row ∈ t.accounts, row.id = u ∧ row.status = status))

theorem account_ids_unstatused (t : Tables) : AccountIds t ↔ (unstatused t).Pairwise fun a b => a.id ≠ b.id := by
  rw [unstatused, List.pairwise_map]
  exact Iff.rfl

theorem account_ids_stable (before after : Tables) (same : SameButStatus before after) (keyed : AccountIds before) :
    AccountIds after := by
  rw [account_ids_unstatused, same, ← account_ids_unstatused]
  exact keyed

theorem stored_stable (before after : Tables) (user : Account) (same : SameButStatus before after)
    (stored : ∃ status, { user with status := status } ∈ before.accounts) :
    ∃ status, { user with status := status } ∈ after.accounts := by
  obtain ⟨status, member⟩ := stored
  have listed : { user with status := .active } ∈ unstatused before := List.mem_map.mpr ⟨_, member, rfl⟩
  rw [← same] at listed
  obtain ⟨row, present, equal⟩ := List.mem_map.mp listed
  refine ⟨row.status, ?_⟩
  have back : { user with status := row.status } = row := by
    rw [show user = { { user with status := .active } with status := user.status } from rfl, ← equal]
  rw [back]
  exact present

theorem same_set_status (before after : Tables) (u : Uuid) (status : AccountStatus)
    (changed : after.accounts = setStatus before.accounts u status) : SameButStatus before after := by
  rw [SameButStatus, unstatused, unstatused, changed, setStatus, List.map_map]
  refine List.map_congr_left fun row _ => ?_
  show Account.mk _ _ _ _ _ _ = _
  by_cases same : row.id = u
  · simp only [if_pos same]
  · simp only [if_neg same]

theorem status_unique (t : Tables) (keyed : AccountIds t) (u : Uuid) (one other : AccountStatus) (first : StatusIn t u one)
    (second : StatusIn t u other) : one = other := by
  obtain ⟨a, inA, idA, rfl⟩ := first
  obtain ⟨b, inB, idB, rfl⟩ := second
  rw [same_account t keyed a b inA inB (idA.trans idB.symm)]

theorem status_set (before after : Tables) (u v : Uuid) (status other : AccountStatus)
    (changed : after.accounts = setStatus before.accounts u status) (now : StatusIn after v other) :
    (v = u ∧ other = status) ∨ StatusIn before v other := by
  obtain ⟨row, stored, rfl, rfl⟩ := now
  rw [changed] at stored
  obtain ⟨old, member, rfl⟩ := (mem_set_status _ _ _ _).mp stored
  by_cases same : old.id = u
  · rw [if_pos same]
    exact .inl ⟨same, rfl⟩
  · rw [if_neg same]
    exact .inr ⟨old, member, rfl, rfl⟩

theorem set_status_other (before after : Tables) (u v : Uuid) (status other : AccountStatus) (different : v ≠ u)
    (changed : after.accounts = setStatus before.accounts u status) (was : StatusIn before v other) : StatusIn after v other := by
  obtain ⟨row, stored, rfl, rfl⟩ := was
  refine ⟨row, ?_, rfl, rfl⟩
  rw [changed]
  exact (mem_set_status _ _ _ _).mpr ⟨row, stored, by rw [if_neg different]⟩

theorem set_status_self (before after : Tables) (user : Account) (status : AccountStatus)
    (changed : after.accounts = setStatus before.accounts user.id status)
    (stored : ∃ was, { user with status := was } ∈ before.accounts) : StatusIn after user.id status := by
  obtain ⟨was, member⟩ := stored
  refine ⟨{ user with status := status }, ?_, rfl, rfl⟩
  rw [changed]
  exact (mem_set_status _ _ _ _).mpr ⟨_, member, by rw [if_pos rfl]⟩

end Rows

section Facts

def Read (log : EventLog) (row : Account) : Prop := ∃ event ∈ log, accountRead event = some row

theorem read_logged (log : EventLog) (event : Event Api) (row : Account) (read : Read log row) : Read (event :: log) row := by
  obtain ⟨earlier, member, found⟩ := read
  exact ⟨earlier, List.mem_cons_of_mem _ member, found⟩

namespace StatusChange

-- A request has read its account, the checks passed, and the row is there up
-- to its status.
structure Holds (q : StatusChange) (user : Account) (t : Tables) (log : EventLog) : Prop where
  target : uuidIn q.userId = some user.id
  judged : ∃ row, Read log row ∧ q.refusal row = none ∧ user = { row with status := q.status }
  stored : ∃ status, { user with status := status } ∈ t.accounts

def change (q : StatusChange) (user : Account) : Sql := .updateAccount user.id (.statusOnly q.status)

def changed (q : StatusChange) (user : Account) : Write := .updateAccount user.id (.statusOnly q.status)

def Planned (q : StatusChange) : StatusPoint → Tables → EventLog → Option (ReadCommitted.Tx schema Int32) → Prop
  | .loading, _, _, tx => tx = none
  | .resaving user, t, log, tx => q.Holds user t log ∧ tx = none
  | .opening user s, t, log, tx => q.Holds user t log ∧ tx = none ∧ s = q.change user
  | .writing user s, t, log, tx => q.Holds user t log ∧ tx = some ⟨[], []⟩ ∧ s = q.change user
  | .closing user, t, log, tx => q.Holds user t log ∧ ∃ x, tx = some x ∧ x.writes = [q.changed user]
  | .undoing _, _, _, _ => True
  | .forgetting _, _, _, tx => tx = none
  | .ended _, _, _, tx => tx = none

def PlanFacts (q : StatusChange) : ApiFacts StatusPoint := fun p t log tx => AccountIds t ∧ q.Planned p t log tx

-- What a step of the request does: it reads rows that are there, and changes
-- a status only when it commits.
structure Saves (q : StatusChange) (tx : Option (ReadCommitted.Tx schema Int32)) (log : EventLog) (event : Event Api)
    (before after : Tables) : Prop where
  reads : ∀ row, accountRead event = some row → row ∈ before.accounts
  writes : after = before ∨ (event = .committed ∧ ∃ user, q.Holds user before log ∧ pending tx = [q.changed user] ∧
    after.accounts = setStatus before.accounts user.id q.status)

theorem holds_stable (q : StatusChange) (user : Account) (t after : Tables) (log : EventLog) (holds : q.Holds user t log)
    (same : SameButStatus t after) : q.Holds user after log :=
  ⟨holds.target, holds.judged, stored_stable t after user same holds.stored⟩

theorem holds_logged (q : StatusChange) (user : Account) (t : Tables) (log : EventLog) (event : Event Api)
    (holds : q.Holds user t log) : q.Holds user t (event :: log) := by
  obtain ⟨target, ⟨row, read, passed, same⟩, stored⟩ := holds
  exact ⟨target, ⟨row, read_logged log event row read, passed, same⟩, stored⟩

theorem planned_stable (q : StatusChange) (p : StatusPoint) (t after : Tables) (log : EventLog)
    (tx : Option (ReadCommitted.Tx schema Int32)) (planned : q.Planned p t log tx) (same : SameButStatus t after) :
    q.Planned p after log tx := by
  cases p with
  | resaving user => exact ⟨q.holds_stable user t after log planned.1 same, planned.2⟩
  | opening user s => exact ⟨q.holds_stable user t after log planned.1 same, planned.2⟩
  | writing user s => exact ⟨q.holds_stable user t after log planned.1 same, planned.2⟩
  | closing user => exact ⟨q.holds_stable user t after log planned.1 same, planned.2⟩
  | _ => exact planned

theorem rereads (q : StatusChange) (user row : Account) (t : Tables) (log : EventLog) (keyed : AccountIds t)
    (holds : q.Holds user t log) (found : t.answer (.findAccount user.id.text) = some row) :
    row ∈ t.accounts ∧ row.id = user.id ∧ user = { row with status := q.status } := by
  obtain ⟨member, parsed⟩ := found_account t user.id.text row found
  rw [uuid_in_text, Option.some.injEq] at parsed
  obtain ⟨-, ⟨loaded, -, -, same⟩, status, stored⟩ := holds
  have equal := same_account t keyed { user with status := status } row stored member parsed
  refine ⟨member, parsed.symm, ?_⟩
  rw [← equal, same]

theorem saves_nothing (q : StatusChange) (tx : Option (ReadCommitted.Tx schema Int32)) (log : EventLog) (event : Event Api)
    (t : Tables) (other : accountRead event = none) : q.Saves tx log event t t :=
  ⟨fun _ found => absurd (other.symm.trans found) nofun, .inl rfl⟩

theorem saves_keyed (q : StatusChange) (tx : Option (ReadCommitted.Tx schema Int32)) (log : EventLog) (event : Event Api)
    (before after : Tables) (saves : q.Saves tx log event before after) : SameButStatus before after := by
  rcases saves.writes with rfl | ⟨-, user, -, -, changed⟩
  · rfl
  · exact same_set_status before after user.id q.status changed

theorem plan_keeps (hashtext : Text → Int32) (q : StatusChange) :
    Keeps hashtext q.chart SameButStatus q.Saves (fun _ _ _ => True) q.PlanFacts where
  stable p db after log tx holds same :=
    ⟨account_ids_stable db after same holds.1, q.planned_stable p db after log tx holds.2 same⟩
  faulted p db log tx s next fault here holds := by
    obtain ⟨keyed, holds⟩ := holds
    refine ⟨keyed, ?_⟩
    cases p with
    | loading =>
        simp only [StatusChange.chart] at here
        split at here
        · cases here
          exact holds
        · cases here
    | resaving user =>
        cases here
        exact holds.2
    | writing user s =>
        cases here
        trivial
    | forgetting user =>
        cases here
        exact holds
    | opening user s => cases here
    | closing user => cases here
    | undoing error => cases here
    | ended result => cases result <;> cases here
  moved world left others p tx p' after event log holds _ moved := by
    obtain ⟨keyed, holds⟩ := holds
    cases p with
    | loading =>
        cases holds
        cases valid : validUUID q.userId with
        | false => exact (ReadCommitted.moved_ended moved (.inr ⟨userNotFound, by simp [StatusChange.chart, valid]⟩)).elim
        | true =>
            have here : q.chart .loading = .stmt (.sql (.findAccount q.userId)) (StatusChange.orFail (fun error => error) q.loaded) := by
              simp [StatusChange.chart, valid]
            rcases ReadCommitted.moved_autocommit moved here with ⟨fault, -, rfl, rfl, rfl, rfl⟩ | ⟨-, rfl, rfl, rfl, rfl⟩
            · exact ⟨⟨keyed, rfl⟩, q.saves_nothing none log _ _ rfl⟩
            · show q.PlanFacts (q.loaded (world.db.answer (.findAccount q.userId))) world.db
                (.ran (.sql (.findAccount q.userId)) (.ok (world.db.answer (.findAccount q.userId))) :: log) none ∧
                q.Saves none log (.ran (.sql (.findAccount q.userId)) (.ok (world.db.answer (.findAccount q.userId)))) world.db world.db
              cases found : world.db.answer (.findAccount q.userId) with
              | none => exact ⟨⟨keyed, rfl⟩, q.saves_nothing none log _ _ rfl⟩
              | some row =>
                  obtain ⟨stored, target⟩ := found_account world.db q.userId row found
                  refine ⟨⟨keyed, ?_⟩, fun other read => ?_, .inl rfl⟩
                  · simp only [StatusChange.loaded]
                    cases verdict : q.refusal row with
                    | some error => exact rfl
                    | none => exact ⟨⟨target, ⟨row, ⟨_, List.mem_cons_self, rfl⟩, verdict, rfl⟩, row.status, stored⟩, rfl⟩
                  · cases read
                    exact stored
    | resaving user =>
        obtain ⟨holds, rfl⟩ := holds
        rcases ReadCommitted.moved_autocommit moved rfl with ⟨fault, -, rfl, rfl, rfl, rfl⟩ | ⟨-, rfl, rfl, rfl, rfl⟩
        · exact ⟨⟨keyed, rfl⟩, q.saves_nothing none log _ _ rfl⟩
        · show q.PlanFacts (StatusChange.reread user (world.db.answer (.findAccount user.id.text))) world.db
              (.ran (.sql (.findAccount user.id.text)) (.ok (world.db.answer (.findAccount user.id.text))) :: log) none ∧
              q.Saves none log (.ran (.sql (.findAccount user.id.text)) (.ok (world.db.answer (.findAccount user.id.text))))
                world.db world.db
          cases found : world.db.answer (.findAccount user.id.text) with
          | none =>
              obtain ⟨status, stored⟩ := holds.stored
              exact absurd (uuid_in_text user.id) (not_found_account world.db _ found { user with status := status } stored)
          | some row =>
              obtain ⟨stored, -, same⟩ := q.rereads user row world.db log keyed holds found
              have columns : UsersService.changedColumns user row =
                  if q.status = row.status then .unchanged else .statusOnly q.status := by
                rw [same]
                exact changed_status row q.status
              refine ⟨⟨keyed, ?_⟩, fun other read => ?_, .inl rfl⟩
              · simp only [StatusChange.reread, columns]
                by_cases equal : q.status = row.status
                · simp only [if_pos equal, if_true]
                  exact rfl
                · simp only [if_neg equal, if_neg (status_only_unchanged q.status)]
                  exact ⟨q.holds_logged user _ _ _ holds, rfl, rfl⟩
              · cases read
                exact stored
    | opening user s =>
        obtain ⟨holds, rfl, rfl⟩ := holds
        obtain ⟨rfl, rfl, rfl, rfl⟩ := ReadCommitted.moved_begin moved rfl
        exact ⟨⟨keyed, q.holds_logged user _ _ _ holds, rfl, rfl⟩, q.saves_nothing none log _ _ rfl⟩
    | writing user s =>
        obtain ⟨holds, rfl, rfl⟩ := holds
        rcases ReadCommitted.moved_sql moved rfl with ⟨fault, -, rfl, rfl, rfl, rfl⟩ | ⟨-, -, rfl, rfl, rfl, rfl⟩
        · exact ⟨⟨keyed, trivial⟩, q.saves_nothing _ log _ _ rfl⟩
        · refine ⟨⟨keyed, q.holds_logged user _ _ _ holds, _, rfl, ?_⟩, q.saves_nothing _ log _ _ rfl⟩
          obtain ⟨status, stored⟩ := holds.stored
          exact attempts_update _ keyed { user with status := status } stored (.statusOnly q.status)
    | closing user =>
        obtain ⟨holds, x, rfl, written⟩ := holds
        obtain ⟨rfl, rfl, rfl, rfl⟩ := ReadCommitted.moved_commit moved rfl
        have accounts : (view schema world.db x.writes).accounts = setStatus world.db.accounts user.id q.status := by
          rw [written]
          rfl
        exact ⟨⟨account_ids_set_status _ _ _ _ keyed accounts, rfl⟩, (fun _ read => by cases read), .inr ⟨rfl, user, holds, written, accounts⟩⟩
    | undoing error =>
        obtain ⟨rfl, rfl, rfl, rfl⟩ := ReadCommitted.moved_rollback moved rfl
        exact ⟨⟨keyed, rfl⟩, q.saves_nothing _ log _ _ rfl⟩
    | forgetting user =>
        cases holds
        obtain ⟨rfl, rows, reply, rfl, rfl⟩ := ReadCommitted.moved_cmd moved rfl
        rw [rows]
        refine ⟨⟨keyed, ?_⟩, q.saves_nothing _ log _ _ rfl⟩
        cases reply <;> exact rfl
    | ended result =>
        refine (ReadCommitted.moved_ended moved ?_).elim
        cases result with
        | ok value => exact .inl ⟨value, rfl⟩
        | error error => exact .inr ⟨error, rfl⟩

-- From here on the request counts as served: only the cache entry is left.
def Served : StatusPoint → Prop
  | .forgetting _ => True
  | .ended result => result = .ok ()
  | _ => False

theorem fault_unserved (q : StatusChange) (p : StatusPoint) (s : Api.Stmt)
    (next : Except Fault (Api.Reply s) → StatusPoint) (fault : Fault) (here : q.chart p = .stmt s next) :
    ¬ Served (next (.error fault)) := by
  cases p with
  | loading =>
      simp only [StatusChange.chart] at here
      split at here
      · cases here
        exact fun served => by cases served
      · cases here
  | ended result => cases result <;> cases here
  | opening user s => cases here
  | closing user => cases here
  | undoing error => cases here
  | _ =>
      cases here
      exact fun served => by cases served

theorem served_moved {hashtext : Text → Int32} (q : StatusChange) (world left : World)
    (others : List (ReadCommitted.Tx schema Int32)) (p p' : StatusPoint) (log : EventLog)
    (tx after : Option (ReadCommitted.Tx schema Int32)) (event : Event Api) (holds : q.PlanFacts p world.db log tx)
    (moved : Moved hashtext q.chart world others p tx p' after left event) (served : Served p') :
    Served p ∨ ∃ u, uuidIn q.userId = some u ∧ StatusIn left.db u q.status := by
  obtain ⟨keyed, holds⟩ := holds
  cases p with
  | loading =>
      cases holds
      cases valid : validUUID q.userId with
      | false => exact (ReadCommitted.moved_ended moved (.inr ⟨userNotFound, by simp [StatusChange.chart, valid]⟩)).elim
      | true =>
          have here : q.chart .loading = .stmt (.sql (.findAccount q.userId)) (StatusChange.orFail (fun error => error) q.loaded) := by
            simp [StatusChange.chart, valid]
          have unserved : ∀ row, ¬ Served (q.loaded row) := by
            intro row
            cases row with
            | none => exact fun served => by cases served
            | some row =>
                simp only [StatusChange.loaded]
                split <;> exact fun served => by cases served
          rcases ReadCommitted.moved_autocommit moved here with ⟨fault, -, rfl, -⟩ | ⟨-, rfl, -⟩
          · cases served
          · exact absurd served (unserved _)
  | resaving user =>
      obtain ⟨holds, rfl⟩ := holds
      rcases ReadCommitted.moved_autocommit moved rfl with ⟨fault, -, rfl, -⟩ | ⟨-, rfl, -, rfl, -⟩
      · cases served
      · have reread : Served (StatusChange.reread user (world.db.answer (.findAccount user.id.text))) := served
        cases found : world.db.answer (.findAccount user.id.text) with
        | none =>
            rw [found] at reread
            cases reread
        | some row =>
            obtain ⟨stored, owner, same⟩ := q.rereads user row world.db log keyed holds found
            rw [found, StatusChange.reread, same, changed_status row q.status] at reread
            by_cases equal : q.status = row.status
            · exact .inr ⟨user.id, holds.target, row, stored, owner, equal.symm⟩
            · rw [if_neg equal, if_neg (status_only_unchanged q.status)] at reread
              cases reread
  | opening user s =>
      obtain ⟨rfl, -⟩ := ReadCommitted.moved_begin moved rfl
      cases served
  | writing user s =>
      obtain ⟨-, rfl, -⟩ := holds
      rcases ReadCommitted.moved_sql moved rfl with ⟨fault, -, rfl, -⟩ | ⟨-, -, rfl, -⟩ <;> cases served
  | closing user =>
      obtain ⟨holds, x, rfl, written⟩ := holds
      obtain ⟨rfl, rfl, rfl, rfl⟩ := ReadCommitted.moved_commit moved rfl
      refine .inr ⟨user.id, holds.target, set_status_self world.db _ user q.status ?_ holds.stored⟩
      show (view schema world.db x.writes).accounts = _
      rw [written]
      rfl
  | undoing error =>
      obtain ⟨rfl, -⟩ := ReadCommitted.moved_rollback moved rfl
      cases served
  | forgetting user => exact .inl trivial
  | ended result =>
      refine (ReadCommitted.moved_ended moved ?_).elim
      cases result with
      | ok value => exact .inl ⟨value, rfl⟩
      | error error => exact .inr ⟨error, rfl⟩

end StatusChange

end Facts

section Requests

namespace AccountRequest

def suspends : AccountRequest → Option Uuid
  | .suspend userId => uuidIn userId
  | _ => none

def reactivates : AccountRequest → Option Uuid
  | .reactivate userId => uuidIn userId
  | _ => none

def changes : AccountRequest → StatusChange → Prop
  | .verify _, change => ∃ userId, change = verification userId
  | .suspend userId, change => change = suspension userId
  | .reactivate userId, change => change = reactivation userId
  | .delete _, _ => False

abbrev Keyed {α : Type} : ApiFacts (Async α) := Idle (fun _ => True) fun t _ => AccountIds t

def PlanFacts : (q : AccountRequest) → ApiFacts q.Point
  | .verify _ => ChainFacts (S := schema) (C := Redis.commands) Keyed fun payload =>
      ChainFacts (S := schema) (C := Redis.commands) (verification payload.id).PlanFacts fun _ => Keyed
  | .suspend userId => (suspension userId).PlanFacts
  | .reactivate userId => (reactivation userId).PlanFacts
  | .delete _ => fun _ _ _ _ => False

def Saves (q : AccountRequest) (tx : Option (ReadCommitted.Tx schema Int32)) (log : EventLog) (event : Event Api)
    (before after : Tables) : Prop := ∃ change, q.changes change ∧ change.Saves tx log event before after

theorem saves_keyed (q : AccountRequest) (tx : Option (ReadCommitted.Tx schema Int32)) (log : EventLog) (event : Event Api)
    (before after : Tables) (saves : q.Saves tx log event before after) : SameButStatus before after := by
  obtain ⟨change, -, saves⟩ := saves
  exact change.saves_keyed tx log event before after saves

theorem plan_keeps (hashtext : Text → Int32) (q : AccountRequest) :
    Keeps hashtext q.chart SameButStatus q.Saves (fun _ _ _ => True) q.PlanFacts := by
  have mine : ∀ change, q.changes change →
      Keeps hashtext change.chart SameButStatus q.Saves (fun _ _ _ => True) change.PlanFacts :=
    fun change own => ReadCommitted.keeps_mono (change.plan_keeps hashtext) fun _ _ _ _ _ saves => ⟨change, own, saves⟩
  cases q with
  | suspend userId => exact mine (suspension userId) rfl
  | reactivate userId => exact mine (reactivation userId) rfl
  | verify token =>
      have plain : ∀ {α : Type}, Keeps (S := schema) (C := Redis.commands) hashtext (Prog.node (ε := Err) (α := α))
          SameButStatus (AccountRequest.verify token).Saves (fun _ _ _ => True) Keyed := by
        intro α
        refine ReadCommitted.keeps_quiet (S := schema) (C := Redis.commands) _ _ (fun t after _ keyed same => ?_)
          (fun _ _ _ _ keyed => keyed) fun log c reply t => ?_
        · exact account_ids_stable t after same keyed
        · exact ⟨verification [], ⟨[], rfl⟩, StatusChange.saves_nothing _ none log _ t rfl⟩
      refine ReadCommitted.keeps_chain plain (fun payload =>
        ReadCommitted.keeps_chain (mine (verification payload.id) ⟨payload.id, rfl⟩) (fun _ => plain) ?_) ?_
      · intro p value t log tx here holds
        cases p with
        | ended result => exact ⟨quiet_blacklisting payload, holds.2, holds.1⟩
        | loading =>
            simp only [StatusChange.chart] at here
            split at here <;> cases here
        | _ => cases here
      · intro prog payload t log tx here holds
        exact ⟨holds.2.2, holds.2.1⟩
  | delete token =>
      refine ⟨?_, ?_, ?_⟩
      · exact fun _ _ _ _ _ holds _ => holds
      · exact fun _ _ _ _ _ _ _ _ holds => holds.elim
      · exact fun _ _ _ _ _ _ _ _ _ holds _ _ => holds.elim

theorem plan_entry (config : AuthConfig) (t : Tables) (q : AccountRequest) (keyed : AccountIds t)
    (plain : ∀ token, q ≠ .delete token) : q.PlanFacts (q.entry config) t [] none := by
  cases q with
  | suspend userId => exact ⟨keyed, rfl⟩
  | reactivate userId => exact ⟨keyed, rfl⟩
  | verify token =>
      exact ⟨Prog.quiet_mono _ _ _ _ (quiet_carries config.accountVerificationToken token) fun _ _ => trivial, rfl, keyed⟩
  | delete token => exact absurd rfl (plain token)

end AccountRequest

end Requests

section Runs

variable {n : Nat} {hashtext : Text → Int32}

def clearsCache : Api.Stmt → Bool
  | .cmd (.del _) => true
  | _ => false

-- The suspension has returned, or all it has left to do is to clear the cache.
def Effective (session : Session (engine hashtext) Err Unit) : Prop :=
  session.outcome = some (.ok ()) ∨ session.prog.asked.any clearsCache = true

instance (session : Session (engine hashtext) Err Unit) : Decidable (Effective session) :=
  inferInstanceAs (Decidable (session.outcome = some (.ok ()) ∨ session.prog.asked.any clearsCache = true))

theorem effective_served (q : StatusChange) (session : Session (engine hashtext) Err Unit) (p : StatusPoint)
    (follows : Follows q.chart session.prog p) : Effective session ↔ StatusChange.Served p := by
  constructor
  · rintro (returned | clears)
    · rcases follows_outcome q.chart session p _ follows returned with ⟨value, -, here⟩ | ⟨error, impossible, -⟩
      · cases p with
        | ended result =>
            cases result with
            | ok value => exact rfl
            | error error => cases here
        | loading =>
            simp only [StatusChange.chart] at here
            split at here <;> cases here
        | _ => cases here
      · cases impossible
    · obtain ⟨s, asks, found⟩ := Option.any_eq_true _ _ |>.mp clears
      obtain ⟨next, here⟩ := asked_follows follows asks
      cases p with
      | forgetting user => trivial
      | loading =>
          simp only [StatusChange.chart] at here
          split at here
          · cases here
            cases found
          · cases here
      | resaving user =>
          cases here
          cases found
      | writing user s =>
          cases here
          cases found
      | ended result => cases result <;> cases here
      | _ => cases here
  · intro served
    cases p with
    | forgetting user =>
        refine .inr ?_
        rw [follows_asks follows (show q.chart (.forgetting user) = .stmt _ _ from rfl)]
        rfl
    | ended result =>
        cases served
        refine .inl ?_
        obtain ⟨prog, tx, log⟩ := session
        rw [show prog = .done () from follows_done follows rfl]
        rfl
    | _ => cases served

-- A reactivation that started after the suspension had returned has taken
-- effect.
def Superseded (requests : Fin n → AccountRequest) (start : AccountNet hashtext n) (done : List (AccountMove hashtext n))
    (net : AccountNet hashtext n) (j : Fin n) (u : Uuid) : Prop :=
  ∃ i, (requests i).reactivates = some u ∧ Precedes start done j i ∧ Committed (net.sessions i).log

instance (requests : Fin n → AccountRequest) (start : AccountNet hashtext n) (done : List (AccountMove hashtext n))
    (net : AccountNet hashtext n) (j : Fin n) (u : Uuid) : Decidable (Superseded requests start done net j u) :=
  inferInstanceAs (Decidable (∃ i, (requests i).reactivates = some u ∧ Precedes start done j i ∧ Committed (net.sessions i).log))

def Write.activated : Write → Option Uuid
  | .updateAccount u change => if change.status = some .active then some u else none
  | _ => none

-- A request that commits the status ACTIVE has started after the return of
-- every suspension of the account in effect then, unless superseded.
def Timely (requests : Fin n → AccountRequest) (start : AccountNet hashtext n) (done : List (AccountMove hashtext n))
    (net : AccountNet hashtext n) : AccountMove hashtext n → Prop
  | .turn i => (net.sessions i).prog.closes = true → ∀ w ∈ pending (net.sessions i).tx, ∀ u ∈ w.activated,
      ∀ j, (requests j).suspends = some u → Effective (net.sessions j) →
        Precedes start done j i ∨ Superseded requests start done net j u
  | _ => True

instance (requests : Fin n → AccountRequest) (start : AccountNet hashtext n) (done : List (AccountMove hashtext n))
    (net : AccountNet hashtext n) : ∀ move, Decidable (Timely requests start done net move)
  | .turn i => inferInstanceAs (Decidable ((net.sessions i).prog.closes = true →
      ∀ w ∈ pending (net.sessions i).tx, ∀ u ∈ w.activated, ∀ j, (requests j).suspends = some u → Effective (net.sessions j) →
        Precedes start done j i ∨ Superseded requests start done net j u))
  | .fault _ _ => .isTrue trivial
  | .drift _ => .isTrue trivial

abbrev PlansKept (requests : Fin n → AccountRequest) (net : AccountNet hashtext n) : Prop :=
  ∀ i, Kept (fun i => (requests i).chart) (fun i => (requests i).PlanFacts) i net.world.db (net.sessions i)

theorem plans_step (requests : Fin n → AccountRequest) (net next : AccountNet hashtext n) (move : AccountMove hashtext n)
    (kept : PlansKept requests net) (stepped : step net move = some next) : PlansKept requests next :=
  ReadCommitted.keeps_step (fun i => (requests i).plan_keeps hashtext)
    (fun i _ _ tx log event before after saves => (requests i).saves_keyed tx log event before after saves) net next move kept
    (by cases move with
      | turn i => exact fun _ _ => trivial
      | _ => trivial) stepped

theorem rows_step (requests : Fin n → AccountRequest) (net next : AccountNet hashtext n) (move : AccountMove hashtext n)
    (kept : PlansKept requests net) (stepped : step net move = some next) :
    next.world.db = net.world.db ∨
    ∃ i change user, move = .turn i ∧ (requests i).changes change ∧ change.Holds user net.world.db (net.sessions i).log ∧
      (net.sessions i).prog.closes = true ∧ pending (net.sessions i).tx = [change.changed user] ∧
      Committed (next.sessions i).log ∧ next.world.db.accounts = setStatus net.world.db.accounts user.id change.status := by
  by_cases turn : ∃ i, move = .turn i
  · obtain ⟨i, rfl⟩ := turn
    obtain ⟨event, logged, closes, change, own, saves⟩ := ReadCommitted.keeps_turn (fun i => (requests i).plan_keeps hashtext)
      net next i (kept i) (fun _ _ => trivial) stepped
    rcases saves.writes with same | ⟨rfl, user, holds, written, accounts⟩
    · exact .inl same
    · refine .inr ⟨i, change, user, rfl, own, holds, closes rfl, written, ?_, accounts⟩
      rw [logged]
      exact List.mem_cons_self
  · exact .inl (ReadCommitted.rows_unmoved net next move (fun i same => turn ⟨i, same⟩) stepped)

theorem read_step (requests : Fin n → AccountRequest) (net next : AccountNet hashtext n) (move : AccountMove hashtext n)
    (kept : PlansKept requests net) (stepped : step net move = some next) (i : Fin n) (row : Account)
    (read : Read (next.sessions i).log row) : Read (net.sessions i).log row ∨ row ∈ net.world.db.accounts := by
  rcases step_session net next move stepped i with same | rfl | ⟨fault, rfl, interrupted⟩
  · rw [same] at read
    exact .inl read
  · obtain ⟨event, logged, -, change, -, saves⟩ := ReadCommitted.keeps_turn (fun i => (requests i).plan_keeps hashtext)
      net next i (kept i) (fun _ _ => trivial) stepped
    rw [logged] at read
    obtain ⟨other, member, found⟩ := read
    rcases List.mem_cons.mp member with rfl | earlier
    · exact .inr (saves.reads row found)
    · exact .inl ⟨other, earlier, found⟩
  · obtain ⟨p, follows, -⟩ := kept i
    obtain ⟨s, after, -, -, -, logged⟩ := follows_interrupt _ _ _ p fault follows interrupted
    obtain ⟨event, member, found⟩ := read
    rw [logged] at member
    rcases List.mem_cons.mp member with rfl | earlier
    · cases s with
      | sql s => cases s <;> cases found
      | _ => cases found
    · exact .inl ⟨event, earlier, found⟩

theorem effective_step (requests : Fin n → AccountRequest) (net next : AccountNet hashtext n) (move : AccountMove hashtext n)
    (kept : PlansKept requests net) (stepped : step net move = some next) (j : Fin n) (u : Uuid)
    (suspends : (requests j).suspends = some u) (effective : Effective (next.sessions j)) :
    Effective (net.sessions j) ∨ StatusIn next.world.db u .suspended := by
  obtain ⟨p, follows, facts⟩ := kept j
  replace follows : Follows (requests j).chart (net.sessions j).prog p := follows
  generalize found : requests j = q at p follows facts suspends
  cases q with
  | suspend userId =>
      rw [effective_served (AccountRequest.suspension userId) _ p follows]
      rcases step_session net next move stepped j with same | rfl | ⟨fault, rfl, interrupted⟩
      · rw [same] at effective
        exact .inl ((effective_served _ _ p follows).mp effective)
      · rcases step_cases net next (.turn j) stepped with ⟨i, left, session, moved, advanced, rfl⟩ | ⟨i, fault, session, moved, -, -⟩ |
          ⟨change, moved, -⟩
        · cases moved
          obtain ⟨p', event, onward, -, taken⟩ :=
            ReadCommitted.advance_moved _ net.world left (others net j) (net.sessions j) session p follows advanced
          have served := (effective_served (AccountRequest.suspension userId) session p' onward).mp (by simpa using effective)
          rcases StatusChange.served_moved _ net.world left _ p p' _ _ _ event facts taken served with already | ⟨v, target, suspended⟩
          · exact .inl already
          · cases target.symm.trans suspends
            exact .inr suspended
        · cases moved
        · cases moved
      · obtain ⟨s, after, here, onward, -, -⟩ := follows_interrupt _ _ _ p fault follows interrupted
        have served := (effective_served (AccountRequest.suspension userId) _ _ onward).mp effective
        exact absurd served (StatusChange.fault_unserved _ p s after fault here)
  | _ => cases suspends

-- The suspensions that a run has seen: the account is suspended or that is
-- superseded, it is not pending any more, and who started later has never
-- read it as pending.
structure InForce (requests : Fin n → AccountRequest) (start : AccountNet hashtext n) (done : List (AccountMove hashtext n))
    (net : AccountNet hashtext n) : Prop where
  kept : PlansKept requests net
  force : ∀ j u, (requests j).suspends = some u → Effective (net.sessions j) →
    StatusIn net.world.db u .suspended ∨ Superseded requests start done net j u
  settled : ∀ j u, (requests j).suspends = some u → Effective (net.sessions j) → ¬ StatusIn net.world.db u .pendingVerification
  unread : ∀ i j u, (requests j).suspends = some u → Effective (net.sessions j) → ∀ row, Read (net.sessions i).log row →
    row.id = u → row.status = .pendingVerification → ¬ Precedes start done j i

theorem superseded_step (requests : Fin n → AccountRequest) (start : AccountNet hashtext n) (done : List (AccountMove hashtext n))
    (net next : AccountNet hashtext n) (move : AccountMove hashtext n) (stepped : step net move = some next) (j : Fin n) (u : Uuid)
    (superseded : Superseded requests start done net j u) : Superseded requests start (done ++ [move]) next j u := by
  obtain ⟨i, reactivates, precedes, committed⟩ := superseded
  exact ⟨i, reactivates, precedes_append start done move j i precedes, (step_log net next move stepped i).subset committed⟩

theorem plans_keyed (requests : Fin n → AccountRequest) (net : AccountNet hashtext n) (kept : PlansKept requests net) (j : Fin n) :
    AccountIds net.world.db := by
  obtain ⟨p, -, facts⟩ := kept j
  generalize requests j = q at p facts
  cases q with
  | suspend userId => exact facts.1
  | reactivate userId => exact facts.1
  | delete token => exact facts.elim
  | verify token =>
      rcases p with prog | ⟨payload, point | ⟨_, prog⟩⟩
      · exact facts.2.2
      · exact facts.1
      · exact facts.2.2

theorem changes_status (q : AccountRequest) (change : StatusChange) (own : q.changes change) :
    (change.status = .suspended) ∨ (change.status = .active ∧ ((∃ userId, q = .reactivate userId ∧ change.userId = userId) ∨
      ∀ row, change.refusal row = none → row.status = .pendingVerification)) := by
  cases q with
  | suspend userId =>
      cases own
      exact .inl rfl
  | reactivate userId =>
      cases own
      exact .inr ⟨rfl, .inl ⟨userId, rfl, rfl⟩⟩
  | verify token =>
      obtain ⟨userId, rfl⟩ := own
      refine .inr ⟨rfl, .inr fun row passed => ?_⟩
      simp only [AccountRequest.verification, AuthService.verificationRefusal, AuthService.accountIsNotAlreadyVerified] at passed
      cases status : row.status with
      | pendingVerification => rfl
      | active => simp [status] at passed
      | suspended => simp [status] at passed
  | delete token => cases own

theorem in_force_step (requests : Fin n → AccountRequest) (start net next : AccountNet hashtext n)
    (done : List (AccountMove hashtext n)) (move : AccountMove hashtext n) (before : run start done = some net)
    (held : InForce requests start done net) (timely : Timely requests start done net move)
    (stepped : step net move = some next) : InForce requests start (done ++ [move]) next := by
  have kept := plans_step requests net next move held.kept stepped
  have reached : run start (done ++ [move]) = some next := by
    rw [run_append, before, Option.bind_some]
    simp [Runs.run, stepped]
  have rows := rows_step requests net next move held.kept stepped
  refine ⟨kept, fun j u suspends effective => ?_, fun j u suspends effective pending => ?_, ?_⟩
  · rcases effective_step requests net next move held.kept stepped j u suspends effective with earlier | now
    · rcases held.force j u suspends earlier with suspended | superseded
      · rcases rows with same | ⟨i, change, user, rfl, own, holds, closes, written, committed, accounts⟩
        · rw [same]
          exact .inl suspended
        · by_cases other : u = user.id
          · subst other
            rcases changes_status (requests i) change own with suspends' | ⟨active, kind⟩
            · rw [← suspends']
              exact .inl (set_status_self _ _ user change.status accounts holds.stored)
            · have activated : (change.changed user).activated = some user.id := by
                simp [StatusChange.changed, Write.activated, AccountChange.statusOnly, active]
              have fair := timely closes (change.changed user) (by rw [written]; exact List.mem_singleton_self _) user.id activated
                j suspends earlier
              rcases fair with precedes | superseded
              · rcases kind with ⟨userId, request, target⟩ | verifies
                · refine .inr ⟨i, ?_, precedes_append start done _ j i precedes, committed⟩
                  rw [request]
                  show uuidIn userId = _
                  rw [← target]
                  exact holds.target
                · obtain ⟨row, read, passed, same⟩ := holds.judged
                  refine absurd precedes (held.unread i j user.id suspends earlier row read ?_ (verifies row passed))
                  rw [same]
              · exact .inr (superseded_step requests start done net next _ stepped j user.id superseded)
          · exact .inl (set_status_other _ _ user.id u change.status .suspended other accounts suspended)
      · exact .inr (superseded_step requests start done net next move stepped j u superseded)
    · exact .inl now
  · rcases effective_step requests net next move held.kept stepped j u suspends effective with earlier | now
    · have settled := held.settled j u suspends earlier
      rcases rows with same | ⟨i, change, user, rfl, own, holds, closes, written, committed, accounts⟩
      · rw [same] at pending
        exact settled pending
      · rcases status_set _ _ user.id u change.status _ accounts pending with ⟨-, wrong⟩ | was
        · rcases changes_status (requests i) change own with status | ⟨status, -⟩
          · cases wrong.trans status
          · cases wrong.trans status
        · exact settled was
    · cases status_unique next.world.db (plans_keyed requests next kept j) u _ _ now pending
  · intro i j u suspends effective row read owner pending precedes
    have begun : (next.sessions i).log ≠ [] := by
      obtain ⟨event, member, -⟩ := read
      exact List.ne_nil_of_mem member
    have earlier := precedes_begun start next done move j i reached begun precedes
    obtain ⟨_, _, middle, -, -, -, ended, -, same⟩ := precedes_ended start net done j i before earlier
    have finished : Finished net j := by
      unfold Finished at ended ⊢
      rw [same]
      exact ended
    rw [step_ended net next move j finished stepped] at effective
    rcases read_step requests net next move held.kept stepped i row read with old | stored
    · exact held.unread i j u suspends effective row old owner pending earlier
    · exact held.settled j u suspends effective ⟨row, stored, owner, pending⟩

theorem suspension_idle (config : AuthConfig) (q : AccountRequest) (u : Uuid) (suspends : q.suspends = some u) :
    ¬ Effective (Session.fresh (q.program config) : Session (engine hashtext) Err Unit) := by
  cases q with
  | suspend userId =>
      rw [effective_served (AccountRequest.suspension userId) _ .loading (AccountRequest.suspension userId).follows_program]
      exact id
  | _ => cases suspends

-- While the requests are timely, a suspension that has returned stays in force
-- until a reactivation that started later has taken effect.
theorem acknowledged_suspensions_stay (config : AuthConfig) (requests : Fin n → AccountRequest) (start : World)
    (keyed : AccountIds start.db) (plain : ∀ i token, requests i ≠ .delete token) (moves : List (AccountMove hashtext n))
    (final : AccountNet hashtext n)
    (timely : Along (Timely requests (launch start fun i => (requests i).program config)) []
      (launch start fun i => (requests i).program config) moves)
    (reached : run (launch start fun i => (requests i).program config) moves = some final) (j : Fin n) (u : Uuid)
    (suspends : (requests j).suspends = some u) (acknowledged : (final.sessions j).outcome = some (.ok ())) :
    StatusIn final.world.db u .suspended ∨
      Superseded requests (launch start fun i => (requests i).program config) moves final j u := by
  have held := history_invariant _ (InForce requests _) _ final moves
    (fun done net move next before held timely stepped => in_force_step requests _ net next done move before held timely stepped)
    ⟨fun i => ⟨(requests i).entry config, (requests i).follows_program config,
      (requests i).plan_entry config start.db keyed (plain i)⟩, ?_, ?_, ?_⟩ timely reached
  · exact held.force j u suspends (.inl acknowledged)
  · exact fun j u suspends effective => absurd effective (suspension_idle config (requests j) u suspends)
  · exact fun j u suspends effective => absurd effective (suspension_idle config (requests j) u suspends)
  · exact fun i j u suspends effective => absurd effective (suspension_idle config (requests j) u suspends)

end Runs

def finnText : Text := "55555555-5555-4555-8555-555555555555".toList

def finn : Uuid := ⟨finnText, by decide⟩

def pendingFinn : World :=
  ⟨{ Tables.empty with accounts := [⟨⟨finn, 0⟩, "finn".toList, "finn@x".toList, [], [.reviewer], .pendingVerification⟩] },
    Redis.empty⟩

def linkConfig : AuthConfig := ⟨"verify".toList, 3600, "delete".toList, 3600⟩

def verificationPayload : JwtPayload :=
  ⟨some .accountVerification, some "jti".toList, some 0, some 3600, TokensService.identity finnText⟩

def verifiedAndSuspended : Fin 2 → AccountRequest
  | 0 => .verify (.signed "verify".toList verificationPayload)
  | 1 => .suspend finnText

theorem no_deletion : ∀ i token, verifiedAndSuspended i ≠ .delete token :=
  Fin.forall_fin_two.mpr ⟨fun _ => nofun, fun _ => nofun⟩

-- The suspension runs and returns after the verification has loaded the
-- account; the verification then saves the status it has computed before.
def overwriting : List (AccountMove (fun _ => 0) 2) :=
  List.replicate 3 .first ++ List.replicate 6 .second ++ List.replicate 4 .first

theorem verification_overwrites_suspension : ¬ ∀ (n : Nat) (hashtext : Text → Int32) (config : AuthConfig)
    (requests : Fin n → AccountRequest) (start : World) (moves : List (AccountMove hashtext n)) (final : AccountNet hashtext n)
    (j : Fin n) (u : Uuid), AccountIds start.db → (∀ i token, requests i ≠ .delete token) →
    run (launch start fun i => (requests i).program config) moves = some final → (requests j).suspends = some u →
    (final.sessions j).outcome = some (.ok ()) →
    StatusIn final.world.db u .suspended ∨
      Superseded requests (launch start fun i => (requests i).program config) moves final j u := by
  intro claim
  obtain ⟨final, reached, returned, active, alone⟩ := run_exists
    (launch pendingFinn fun i => (verifiedAndSuspended i).program linkConfig) overwriting
    (fun final => (final.sessions 1).outcome = some (.ok ()) ∧ ¬ StatusIn final.world.db finn .suspended ∧
      ∀ i, (verifiedAndSuspended i).reactivates ≠ some finn) (by decide)
  rcases claim 2 (fun _ => 0) linkConfig verifiedAndSuspended pendingFinn overwriting final 1 finn (List.pairwise_singleton _ _)
    no_deletion reached (by decide) returned with suspended | ⟨i, reactivates, -⟩
  · exact active suspended
  · exact alone i reactivates

-- The verification has saved before the suspension does.
def verifiedThenSuspended : List (AccountMove (fun _ => 0) 2) :=
  List.replicate 3 .first ++ [.second] ++ List.replicate 6 .first ++ List.replicate 5 .second

theorem acknowledged_suspensions_stay_interleaved : ∃ final : AccountNet (fun _ => 0) 2,
    run (launch pendingFinn fun i => (verifiedAndSuspended i).program linkConfig) verifiedThenSuspended = some final ∧
    (StatusIn final.world.db finn .suspended ∨ Superseded verifiedAndSuspended
      (launch pendingFinn fun i => (verifiedAndSuspended i).program linkConfig) verifiedThenSuspended final 1 finn) := by
  obtain ⟨final, reached, returned⟩ := run_exists
    (launch pendingFinn fun i => (verifiedAndSuspended i).program linkConfig) verifiedThenSuspended
    (fun final => (final.sessions 1).outcome = some (.ok ())) (by decide)
  exact ⟨final, reached, acknowledged_suspensions_stay linkConfig verifiedAndSuspended pendingFinn (List.pairwise_singleton _ _)
    no_deletion verifiedThenSuspended final (by decide) reached 1 finn (by decide) returned⟩

end RateWise
