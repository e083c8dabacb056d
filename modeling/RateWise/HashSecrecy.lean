import RateWise.DeletedAccounts
import RateWise.UserCache

set_option autoImplicit false

namespace RateWise

open Interleave
open CacheQueue

def UserQuery.Hashless (q : UserQuery) : Prop := ∀ job, q.copies = some job → job.value.passwordHash = none

-- The replies where every user of a page is cached and no copy has a hash.
def UserQuery.Unfetched : (q : UserQuery) → q.Reply → Prop
  | .findAccountsIn _ _, reply => reply = []
  | .takeJob, reply => ∀ job, reply = some job → job.value.passwordHash = none
  | _, _ => True

def UserQuery.fetched : UserQuery → Option (List Uuid)
  | .findAccountsIn ids _ => some ids
  | _ => none

abbrev Discreet (read : UserRead UserAnswer) : Prop :=
  read.Heeds (I := UserApi) UserQuery.Hashless UserQuery.Unfetched fun _ => True

section Reads

theorem ask_discreet (q : UserQuery) (plain : q.copies = none) :
    (ask q).Heeds (I := UserApi) UserQuery.Hashless UserQuery.Unfetched (UserQuery.Unfetched q) :=
  ⟨fun job copied => (by cases plain.symm.trans copied), fun _ => trivial, fun _ likely => likely⟩

theorem find_discreet (id : Text) : Discreet (UsersService.findOneByIdOrThrowCached id) := by
  unfold UsersService.findOneByIdOrThrowCached
  split
  · trivial
  · refine heeds_bind _ _ _ _ (ask_discreet (.get (createUserCacheKey id)) rfl) fun (userInCache : Option UserJson) _ => ?_
    cases userInCache with
    | some user => trivial
    | none =>
        refine heeds_bind _ _ _ _ (ask_discreet (.findAccount id) rfl) fun (userFound : Option Account) _ => ?_
        cases userFound with
        | none => trivial
        | some user =>
            refine heeds_bind (fun _ => True) _ _ _ ⟨fun job copied => ?_, fun _ => trivial, fun _ _ => trivial⟩ fun _ _ => trivial
            cases copied
            rfl

theorem attempted_discreet (q : UserQuery) (plain : q.copies = none) :
    (attempted q).Heeds (I := UserApi) UserQuery.Hashless UserQuery.Unfetched fun _ => True :=
  heeds_catching _ _ _ (heeds_bind _ _ _ _ (ask_discreet q plain) fun _ _ => trivial) fun _ => trivial

theorem page_discreet (countFirst : Bool) (limit : Nat) (decoded : Option Json.Value) :
    (UsersService.getPageAndTotalCount countFirst limit decoded).Heeds (I := UserApi) UserQuery.Hashless UserQuery.Unfetched
      fun _ => True := by
  have settled : ∀ total page, (UsersService.bothSettled total page).Heeds (I := UserApi) UserQuery.Hashless UserQuery.Unfetched
      fun _ => True := by
    intro total page
    cases total <;> cases page <;> trivial
  have counted := attempted_discreet .countAccounts rfl
  have paged := attempted_discreet (.accountPage limit decoded) rfl
  cases countFirst with
  | true => exact heeds_bind _ _ _ _ counted fun total _ => heeds_bind _ _ _ _ paged fun page _ => settled total page
  | false => exact heeds_bind _ _ _ _ paged fun page _ => heeds_bind _ _ _ _ counted fun total _ => settled total page

theorem find_all_discreet (postgres : Postgres) (limit : Nat) (cursor : Option JsString) (countFirst : Bool) (scan : Shuffle Account) :
    Discreet (UsersService.findAll postgres limit cursor countFirst scan) := by
  unfold UsersService.findAll
  cases PaginationService.decodedCursor cursor with
  | error fault => trivial
  | ok decoded =>
      refine heeds_bind _ _ _ _ (page_discreet countFirst limit decoded) fun found _ => ?_
      refine heeds_bind _ _ _ _ (ask_discreet (.mget _) rfl) fun results _ => ?_
      refine heeds_bind (fun records : List Account => records = []) _ _ _ ?_ ?_
      · unfold UsersService.recordsNotInCache
        split
        · exact ask_discreet (.findAccountsIn _ scan) rfl
        · rfl
      · rintro records rfl
        trivial

theorem process_discreet : Discreet PaginationCacheConsumer.process := by
  refine heeds_bind _ _ _ _ (ask_discreet .takeJob rfl) fun (next : Option (Job Text UserJson)) clean => ?_
  cases next with
  | none => trivial
  | some job =>
      refine heeds_bind (fun _ => True) _ _ _ (heeds_catching _ _ _ (heeds_bind (fun _ => True) _ _ _ ?_ fun _ _ => trivial)
        fun error => ?_) fun _ _ => ?_
      · refine ⟨fun other copied => ?_, fun _ => trivial, fun _ _ => trivial⟩
        cases copied
        exact clean job rfl
      · exact heeds_bind _ _ _ _ (ask_discreet (.settleJob job.key) rfl) fun _ _ => trivial
      · exact heeds_bind _ _ _ _ (ask_discreet (.settleJob job.key) rfl) fun _ _ => trivial

theorem reading_discreet (postgres : Postgres) (reading : UserReading) : Discreet (reading.program postgres) := by
  cases reading with
  | findOneById id => exact find_discreet id
  | findAll limit cursor countFirst scan => exact find_all_discreet postgres limit cursor countFirst scan
  | process => exact process_discreet

end Reads

inductive UserWrite where
  | signUp (signUpInput : SignUpInput) (row : Generated) (req : RequestContext)
  | account (request : AccountRequest)

def UserWrite.program (config : AuthConfig) : UserWrite → Async Unit
  | .signUp signUpInput row req => Prog.bind (AuthService.signUp signUpInput row req) fun _ => pure ()
  | .account request => request.program config

section Runs

variable {hashtext : Text → Int32} {n m : Nat}

namespace UserSystem

-- A listing fetches no record with this move: all users of its page are cached,
-- or deleted since.
def FetchesNone (s : UserSystem hashtext n m) (move : UserMove hashtext n m) : Prop :=
  ∀ q ∈ s.asking move, ∀ ids ∈ q.fetched, ∀ user ∈ s.requests.world.db.accounts, user.id ∉ ids

instance (s : UserSystem hashtext n m) (move : UserMove hashtext n m) : Decidable (s.FetchesNone move) :=
  inferInstanceAs (Decidable (∀ q ∈ s.asking move, ∀ ids ∈ q.fetched, ∀ user ∈ s.requests.world.db.accounts, user.id ∉ ids))

structure Hashless (s : UserSystem hashtext n m) : Prop where
  copies : s.users.Holds fun _ value => value.passwordHash = none
  readers : ∀ j, Discreet (s.readers j)

theorem step_hashless (postgres : Postgres) (s next : UserSystem hashtext n m) (move : UserMove hashtext n m)
    (hashless : s.Hashless) (none : s.FetchesNone move) (stepped : s.step postgres move = some next) : next.Hashless := by
  refine ⟨s.step_holds _ next move hashless.copies ?_ stepped, fun k => ?_⟩
  · intro q job asks copied
    cases move with
    | read j => exact heeds_asked (I := UserApi) _ (s.readers j) q (hashless.readers j) asks job copied
    | _ => cases asks
  · refine step_heeds _ _ _ s next move k (hashless.readers k) ?_ stepped
    rintro q reply users rfl asks ran
    cases q with
    | findAccountsIn ids scan =>
        cases ran
        have unlisted : s.requests.world.db.accounts.filter (fun user => user.id ∈ ids) = [] :=
          List.filter_eq_nil_iff.mpr fun user stored listed => none _ asks ids rfl user stored (of_decide_eq_true listed)
        show scan.order _ = []
        rw [unlisted]
        exact List.Perm.eq_nil (scan.perm [])
    | takeJob =>
        cases ran
        intro job taken
        exact hashless.copies.2 job (List.mem_append_right _ (List.mem_of_mem_head? taken))
    | _ => trivial

-- Whatever the interleaving, no entry of the user cache and no job of the cache
-- queue contains a password hash, as long as no listing fetches a user.
theorem hashes_stay_stored (postgres : Postgres) (config : AuthConfig) (world : World) (requests : Fin n → UserWrite)
    (readings : Fin m → UserReading) (moves : List (UserMove hashtext n m)) (last : UserSystem hashtext n m)
    (met : Meets postgres FetchesNone (launch postgres world (fun i => (requests i).program config) readings) moves)
    (ran : (launch postgres world (fun i => (requests i).program config) readings).run postgres moves = some last) :
    (∀ key value, last.users.cache key = some value → value.passwordHash = none) ∧
    ∀ job ∈ last.users.jobs, job.value.passwordHash = none := by
  refine (Runs.run_invariant Hashless _ last moves (fun s move next _ hashless unfetched stepped => ?_) ?_ met ran).copies
  · exact s.step_hashless postgres next move hashless unfetched stepped
  · exact ⟨State.holds_empty _, fun j => reading_discreet postgres (readings j)⟩

end UserSystem

end Runs

def danaId : Uuid := ⟨"7a6b5c4d-3e2f-4a1b-8c9d-0e1f2a3b4c5d".toList, by decide⟩

def dana : Account := ⟨⟨danaId, 0⟩, "dana".toList, "dana@x".toList, "hash".toList, [.reviewer], .active⟩

def onlyDana : World := ⟨{ Tables.empty with accounts := [dana] }, Redis.empty⟩

def readThenListed : Fin 2 → UserReading
  | 0 => .findOneById danaId.text
  | 1 => .findAll 1 none true ⟨fun rows => rows, fun _ => .rfl⟩

def unchanged : Fin 0 → UserWrite := fun i => i.elim0

def readMoves : List (UserMove (fun _ => 0) 0 2) := [.first, .first, .first, .second, .second, .second]

theorem hashes_stay_stored_dana :
    ((UserSystem.launch PaginationService.twoInstants onlyDana (fun i => (unchanged i).program authConfig)
        readThenListed).run PaginationService.twoInstants readMoves).map (fun last =>
      (last.users.cache (createUserCacheKey danaId.text)).map fun value => value.passwordHash) = some (some none) := by
  let start : UserSystem (fun _ => 0) 0 2 := UserSystem.launch PaginationService.twoInstants onlyDana
    (fun i => (unchanged i).program authConfig) readThenListed
  cases ran : start.run PaginationService.twoInstants readMoves with
  | none => exact absurd ran (by decide)
  | some last =>
      have cached : ((start.run PaginationService.twoInstants readMoves).bind fun last =>
          last.users.cache (createUserCacheKey danaId.text)).isSome = true := by decide
      rw [ran] at cached
      obtain ⟨value, stored⟩ := Option.isSome_iff_exists.mp cached
      have hashless := (UserSystem.hashes_stay_stored PaginationService.twoInstants authConfig onlyDana unchanged
        readThenListed readMoves last (by decide) ran).1 _ value stored
      show some ((last.users.cache (createUserCacheKey danaId.text)).map fun value => value.passwordHash) = _
      rw [show last.users.cache (createUserCacheKey danaId.text) = some value from stored, Option.map_some, hashless]

def listedThenProcessed : Fin 2 → UserReading
  | 0 => .findAll 1 none true ⟨fun rows => rows, fun _ => .rfl⟩
  | 1 => .process

def listMoves : List (UserMove (fun _ => 0) 0 2) := List.replicate 5 .first

-- The job contains the hash, and so does the copy that it makes.
theorem listed_hash_cached :
    let start := UserSystem.launch PaginationService.twoInstants onlyDana (fun i => (unchanged i).program authConfig)
      listedThenProcessed
    (start.run PaginationService.twoInstants listMoves).map (fun last => last.users.jobs.map fun job => job.value.passwordHash) =
        some [some dana.passwordHash] ∧
      (start.run PaginationService.twoInstants (listMoves ++ [.second, .second])).map (fun last =>
        (last.users.cache (createUserCacheKey danaId.text)).map fun value => value.passwordHash) =
        some (some (some dana.passwordHash)) := by
  decide

end RateWise
