import RateWise.AccountFlow
import RateWise.CachedListings
import RateWise.RowRules
import RateWise.Runs
import RateWise.Seeding

set_option autoImplicit false

namespace RateWise

open Interleave
open CacheQueue

-- A user as JSON, where undefined fields are left out.
structure UserJson extends Generated where
  username : Text
  email : Text
  passwordHash : Option Text
  roles : List UserRole
  status : AccountStatus
deriving DecidableEq

def Account.json (user : Account) : UserJson :=
  ⟨user.toGenerated, user.username, user.email, some user.passwordHash, user.roles, user.status⟩

-- { ...userFound, passwordHash: undefined }
def Account.withoutHash (userFound : Account) : UserJson := { userFound.json with passwordHash := none }

def userPages (postgres : Postgres) : PaginationService Account UserJson where
  id user := user.id
  createdAt user := user.createdAt
  serialise := Account.json
  createCacheKeyFunction := createUserCacheKey
  postgres := postgres

inductive UserQuery where
  | findAccount (id : Text)
  | countAccounts
  | accountPage (limit : Nat) (decodedCursor : Option Json.Value)
  | findAccountsIn (ids : List Uuid) (scan : Shuffle Account)
  | get (key : Text)
  | mget (keys : List Text)
  | set (key : Text) (value : UserJson)
  | addJob (job : Job Text UserJson)
  | takeJob
  | settleJob (key : Text)

@[reducible] def UserQuery.Reply : UserQuery → Type
  | .findAccount _ => Option Account
  | .countAccounts => Nat
  | .accountPage _ _ => List PaginatedRecord
  | .findAccountsIn _ _ => List Account
  | .get _ => Option UserJson
  | .mget _ => List (Option UserJson)
  | .takeJob => Option (Job Text UserJson)
  | _ => Unit

abbrev UserApi : Interface := ⟨UserQuery, UserQuery.Reply, Fault⟩

inductive UserAnswer where
  | user (value : UserJson)
  | page (found : IPaginatedType Account UserJson)
  | processed

abbrev UserRead (α : Type) := Prog UserApi ListFault α

def ask (q : UserQuery) : UserRead q.Reply := @Prog.query UserApi ListFault (fun fault => .rejected (.queryFailed fault)) q

-- The promise with its rejection as a value.
def attempted (q : UserQuery) : UserRead (Except ListFault q.Reply) :=
  Prog.catching (Prog.bind (ask q) fun value => pure (.ok value)) fun error => pure (.error error)

namespace UsersService

def findOneByIdOrThrowCached (id : Text) : UserRead UserAnswer := do
  if !validUUID id then Prog.throw (ListFault.rejected userNotFound)
  let userInCache : Option UserJson ← ask (.get (createUserCacheKey id))
  match userInCache with
  | some user => pure (.user user)
  | none => do
      let userFound : Option Account ← ask (.findAccount id)
      match userFound with
      | none => Prog.throw (ListFault.rejected userNotFound)
      | some user => do
          let _set ← ask (.set (createUserCacheKey id) user.withoutHash)
          pure (.user user.json)

-- What the two promises together come to.
def bothSettled : Except ListFault Nat → Except ListFault (List PaginatedRecord) → UserRead (Nat × List PaginatedRecord)
  | .ok totalCount, .ok page => pure (totalCount, page)
  | .error reason, .ok _ => Prog.throw reason
  | .ok _, .error reason => Prog.throw reason
  | .error _, .error _ => Prog.throw (ListFault.rejected .aggregateError)

-- The two queries are sent at once, and either may be answered first.
def getPageAndTotalCount (countFirst : Bool) (limit : Nat) (decodedCursor : Option Json.Value) :
    UserRead (Nat × List PaginatedRecord) :=
  match countFirst with
  | true => do
      let totalCount : Except ListFault Nat ← attempted .countAccounts
      let page : Except ListFault (List PaginatedRecord) ← attempted (.accountPage limit decodedCursor)
      bothSettled totalCount page
  | false => do
      let page : Except ListFault (List PaginatedRecord) ← attempted (.accountPage limit decodedCursor)
      let totalCount : Except ListFault Nat ← attempted .countAccounts
      bothSettled totalCount page

-- No query when every record is cached.
def recordsNotInCache (idsNotInCache : List Uuid) (scan : Shuffle Account) : UserRead (List Account) :=
  if idsNotInCache.length > 0 then ask (.findAccountsIn idsNotInCache scan) else pure []

def enqueueCacheData : List Account → UserRead Unit
  | [] => pure ()
  | record :: rest => do
      let _added ← ask (.addJob ⟨createUserCacheKey record.id.text, record.json⟩)
      enqueueCacheData rest

def findAll (postgres : Postgres) (limit : Nat) (cursor : Option JsString) (countFirst : Bool) (scan : Shuffle Account) :
    UserRead UserAnswer := do
  match PaginationService.decodedCursor cursor with
  | .error fault => Prog.throw (ListFault.cursor fault)
  | .ok decoded => do
      let (totalCount, found) ← getPageAndTotalCount countFirst limit decoded
      let hasNextPage : Bool := limit < found.length
      let page := PaginationService.popped limit found
      let results : List (Option UserJson) ← ask (.mget (page.map fun record => createUserCacheKey record.id.text))
      let idsNotInCache := ((page.zip results).filter fun pair => pair.2.isNone).map fun pair => pair.1.id
      let fetchedRecordsMap : List Account ← recordsNotInCache idsNotInCache scan
      enqueueCacheData fetchedRecordsMap
      let fullResults := List.zipWith ((userPages postgres).filled fetchedRecordsMap) results page
      let edges := PaginationService.edgesOf page fullResults
      pure (.page ⟨totalCount, edges.map IEdgeType.node, hasNextPage, edges⟩)

end UsersService

-- A failed job leaves the queue as well.
def PaginationCacheConsumer.process : UserRead UserAnswer := do
  let next : Option (Job Text UserJson) ← ask .takeJob
  match next with
  | none => pure .processed
  | some job => do
      Prog.catching (Prog.bind (ask (.set job.key job.value)) fun _ => pure ()) fun error => do
        let _failed ← ask (.settleJob job.key)
        Prog.throw error
      let _completed ← ask (.settleJob job.key)
      pure .processed

inductive UserReading where
  | findOneById (id : Text)
  | findAll (limit : Nat) (cursor : Option JsString) (countFirst : Bool) (scan : Shuffle Account)
  | process

def UserReading.program (postgres : Postgres) : UserReading → UserRead UserAnswer
  | .findOneById id => UsersService.findOneByIdOrThrowCached id
  | .findAll limit cursor countFirst scan => UsersService.findAll postgres limit cursor countFirst scan
  | .process => PaginationCacheConsumer.process

-- Each read is a statement of its own; the cache and the queue act at once.
def UserQuery.exec (postgres : Postgres) (db : Tables) (users : State Text UserJson) :
    (q : UserQuery) → Except Fault (q.Reply × State Text UserJson)
  | .findAccount id => match db.refuses (.findAccount id) with
    | some fault => .error fault
    | none => .ok (db.answer (.findAccount id), users)
  | .countAccounts => .ok (db.accounts.length, users)
  | .accountPage limit decodedCursor =>
      match (userPages postgres).getPageIdsAndEncodedCursors db.accounts limit decodedCursor none with
      | .error _ => .error .invalidText
      | .ok page => .ok (page, users)
  | .findAccountsIn ids scan => .ok (scan.order (db.accounts.filter fun user => user.id ∈ ids), users)
  | .get key => .ok (users.cache key, users)
  | .mget keys => .ok (keys.map users.cache, users)
  | .set key value => .ok ((), users.set key value)
  | .addJob job => .ok ((), users.add job)
  | .takeJob => .ok (users.waiting.head?, users.take)
  | .settleJob key => .ok ((), { users with active := users.active.filter fun job => job.key ≠ key })

-- Requests that change accounts, the cache and the queue of the users, and the
-- reads and workers over both.
structure UserSystem (hashtext : Text → Int32) (n m : Nat) where
  requests : Net (engine hashtext) Err Unit n
  users : State Text UserJson
  readers : Fin m → UserRead UserAnswer

inductive UserMove (hashtext : Text → Int32) (n m : Nat) where
  | request (move : Move (engine hashtext) n)
  | read (j : Fin m)
  | fault (j : Fin m) (fault : Fault)
  | expire (key : Text)

def UserMove.first {hashtext : Text → Int32} {n : Nat} : UserMove hashtext n 2 := .read ⟨0, by decide⟩

def UserMove.second {hashtext : Text → Int32} {n : Nat} : UserMove hashtext n 2 := .read ⟨1, by decide⟩

section Machine

variable {hashtext : Text → Int32} {n m : Nat}

-- The key that a request deletes with this move.
def forgotten (net : Net (engine hashtext) Err Unit n) : Move (engine hashtext) n → Option Text
  | .turn i => match (net.sessions i).prog.asked with
    | some (.cmd (.del key)) => some key
    | _ => none
  | _ => none

namespace UserSystem

def answered (s : UserSystem hashtext n m) (j : Fin m) (rest : UserRead UserAnswer) (users : State Text UserJson) :
    UserSystem hashtext n m :=
  { s with users := users, readers := Function.update s.readers j rest }

def step (postgres : Postgres) (s : UserSystem hashtext n m) :
    UserMove hashtext n m → Option (UserSystem hashtext n m)
  | .request move => (Interleave.step s.requests move).map fun next =>
      { s with
        requests := next
        users := match forgotten s.requests move with
          | some key => s.users.del key
          | none => s.users }
  | .read j => match s.readers j with
    | .stmt q resume => match q.exec postgres s.requests.world.db s.users with
      | .error fault => some (s.answered j (resume (.error fault)) s.users)
      | .ok (reply, users) => some (s.answered j (resume (.ok reply)) users)
    | _ => none
  | .fault j fault => match s.readers j with
    | .stmt _ resume => some (s.answered j (resume (.error fault)) s.users)
    | _ => none
  | .expire key => some { s with users := s.users.del key }

abbrev run (postgres : Postgres) (s : UserSystem hashtext n m) (moves : List (UserMove hashtext n m)) :
    Option (UserSystem hashtext n m) :=
  Runs.run (step postgres) s moves

abbrev Meets (postgres : Postgres) (ok : UserSystem hashtext n m → UserMove hashtext n m → Prop)
    (s : UserSystem hashtext n m) (moves : List (UserMove hashtext n m)) : Prop :=
  Runs.Meets (step postgres) ok s moves

def asking (s : UserSystem hashtext n m) : UserMove hashtext n m → Option UserQuery
  | .read j => (s.readers j).asked
  | _ => none

def launch (postgres : Postgres) (world : World) (requests : Fin n → Async Unit) (readings : Fin m → UserReading) :
    UserSystem hashtext n m :=
  ⟨Interleave.launch world requests, .empty, fun j => (readings j).program postgres⟩

end UserSystem

end Machine

def UserQuery.copies : UserQuery → Option (Job Text UserJson)
  | .set key value => some ⟨key, value⟩
  | .addJob job => some job
  | _ => none

section Steps

variable {hashtext : Text → Int32} {n m : Nat} {postgres : Postgres}

theorem exec_holds (P : Text → UserJson → Prop) (db : Tables) (users left : State Text UserJson) (q : UserQuery) (reply : q.Reply)
    (holds : users.Holds P) (new : ∀ job, q.copies = some job → P job.key job.value)
    (ran : q.exec postgres db users = .ok (reply, left)) : left.Holds P := by
  cases q with
  | findAccount id =>
      simp only [UserQuery.exec] at ran
      split at ran
      · cases ran
      · cases ran
        exact holds
  | accountPage limit decoded =>
      simp only [UserQuery.exec] at ran
      split at ran
      · cases ran
      · cases ran
        exact holds
  | set key value =>
      cases ran
      exact users.holds_set P key value holds (new _ rfl)
  | addJob job =>
      cases ran
      exact users.holds_add P job holds (new job rfl)
  | takeJob =>
      cases ran
      exact users.holds_take P holds
  | settleJob key =>
      cases ran
      refine ⟨holds.1, fun job queued => holds.2 job ?_⟩
      rcases List.mem_append.mp (show job ∈ users.active.filter (fun job => job.key ≠ key) ++ users.waiting from queued) with
        active | waiting
      · exact List.mem_append_left _ (List.mem_of_mem_filter active)
      · exact List.mem_append_right _ waiting
  | _ =>
      cases ran
      exact holds

namespace UserSystem

-- What one move does: a request moves and may delete a key, a query is answered
-- or fails, or an entry expires.
inductive Stepped (postgres : Postgres) (s next : UserSystem hashtext n m) : UserMove hashtext n m → Prop where
  | requested (move) (moved : Interleave.step s.requests move = some next.requests)
      (users : next.users = match forgotten s.requests move with
        | some key => s.users.del key
        | none => s.users)
      (readers : next.readers = s.readers) : Stepped postgres s next (.request move)
  | read (j q resume reply) (asks : s.readers j = .stmt q resume)
      (ran : q.exec postgres s.requests.world.db s.users = .ok (reply, next.users)) (requests : next.requests = s.requests)
      (readers : next.readers = Function.update s.readers j (resume (.ok reply))) : Stepped postgres s next (.read j)
  | refused (j q resume fault) (asks : s.readers j = .stmt q resume)
      (ran : q.exec postgres s.requests.world.db s.users = .error fault) (users : next.users = s.users)
      (requests : next.requests = s.requests)
      (readers : next.readers = Function.update s.readers j (resume (.error fault))) : Stepped postgres s next (.read j)
  | failed (j q resume fault) (asks : s.readers j = .stmt q resume) (users : next.users = s.users)
      (requests : next.requests = s.requests)
      (readers : next.readers = Function.update s.readers j (resume (.error fault))) : Stepped postgres s next (.fault j fault)
  | expired (key) (users : next.users = s.users.del key) (requests : next.requests = s.requests)
      (readers : next.readers = s.readers) : Stepped postgres s next (.expire key)

theorem step_stepped (s next : UserSystem hashtext n m) (move : UserMove hashtext n m)
    (stepped : s.step postgres move = some next) : Stepped postgres s next move := by
  cases move with
  | request move =>
      obtain ⟨after, moved, rfl⟩ := Option.map_eq_some_iff.mp stepped
      exact .requested move moved rfl rfl
  | read j =>
      simp only [step] at stepped
      cases asks : s.readers j with
      | stmt q resume =>
          rw [asks] at stepped
          cases ran : q.exec postgres s.requests.world.db s.users with
          | error fault =>
              simp only [ran] at stepped
              cases stepped
              exact .refused j q resume fault asks ran rfl rfl rfl
          | ok answer =>
              simp only [ran] at stepped
              cases stepped
              exact .read j q resume answer.1 asks ran rfl rfl
      | _ =>
          rw [asks] at stepped
          cases stepped
  | fault j fault =>
      simp only [step] at stepped
      cases asks : s.readers j with
      | stmt q resume =>
          rw [asks] at stepped
          cases stepped
          exact .failed j q resume fault asks rfl rfl rfl
      | _ =>
          rw [asks] at stepped
          cases stepped
  | expire key =>
      cases stepped
      exact .expired key rfl rfl rfl

theorem step_holds (P : Text → UserJson → Prop) (s next : UserSystem hashtext n m) (move : UserMove hashtext n m)
    (holds : s.users.Holds P)
    (new : ∀ q job, s.asking move = some q → q.copies = some job → P job.key job.value)
    (stepped : s.step postgres move = some next) : next.users.Holds P := by
  cases step_stepped s next move stepped with
  | requested move moved users readers =>
      rw [users]
      split
      · exact s.users.holds_del P _ holds
      · exact holds
  | read j q resume reply asks ran requests readers =>
      refine exec_holds P _ s.users next.users q reply holds (fun job copied => new q job ?_ copied) ran
      simp [asking, asks, Prog.asked]
  | refused j q resume fault asks ran users requests readers =>
      rw [users]
      exact holds
  | failed j q resume fault asks users requests readers =>
      rw [users]
      exact holds
  | expired key users requests readers =>
      rw [users]
      exact s.users.holds_del P key holds

theorem step_heeds (allowed : UserQuery → Prop) (credible : (q : UserQuery) → q.Reply → Prop) (post : UserAnswer → Prop)
    (s next : UserSystem hashtext n m) (move : UserMove hashtext n m) (k : Fin m)
    (heeds : (s.readers k).Heeds (I := UserApi) allowed credible post)
    (truthful : ∀ q reply users, move = .read k → (s.readers k).asked = some q →
      q.exec postgres s.requests.world.db s.users = .ok (reply, users) → credible q reply)
    (stepped : s.step postgres move = some next) : (next.readers k).Heeds (I := UserApi) allowed credible post := by
  -- The reader that moves goes on as it was answered.
  have onward : ∀ j q (resume : Except Fault q.Reply → UserRead UserAnswer) (answer : Except Fault q.Reply),
      s.readers j = .stmt q resume → next.readers = Function.update s.readers j (resume answer) →
      (∀ reply, answer = .ok reply → j = k → credible q reply) →
      (next.readers k).Heeds (I := UserApi) allowed credible post := by
    intro j q resume answer asks readers believed
    rw [readers]
    by_cases same : k = j
    · subst same
      rw [asks] at heeds
      rw [Function.update_self]
      cases answer with
      | error fault => exact heeds.2.1 fault
      | ok reply => exact heeds.2.2 reply (believed reply rfl rfl)
    · rw [Function.update_of_ne same]
      exact heeds
  cases step_stepped s next move stepped with
  | requested move moved users readers =>
      rw [readers]
      exact heeds
  | read j q resume reply asks ran requests readers =>
      refine onward j q resume (.ok reply) asks readers ?_
      rintro other same rfl
      cases same
      exact truthful q reply next.users rfl (by rw [asks]; rfl) ran
  | refused j q resume fault asks ran users requests readers =>
      exact onward j q resume (.error fault) asks readers fun reply impossible => by cases impossible
  | failed j q resume fault asks users requests readers =>
      exact onward j q resume (.error fault) asks readers fun reply impossible => by cases impossible
  | expired key users requests readers =>
      rw [readers]
      exact heeds

end UserSystem

end Steps

end RateWise
