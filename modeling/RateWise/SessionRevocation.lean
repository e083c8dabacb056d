import RateWise.SessionLimit

set_option autoImplicit false

namespace RateWise

open Interleave
open ReadCommitted

def Apart : Api.Stmt → Prop
  | .cmd (.multiStoreSetAdd _ _ _ _) => False
  | .cmd (.set key _ _) => ∀ sid, key ≠ createSessionAndUserMappingKey sid
  | _ => True

-- What may be in flight: the operations on sessions, the guard, and any other
-- request, such as the middleware's writes of the record.
inductive SessionOperation where
  | create (req : RequestContext) (userId : Text)
  | destroy (order : Arrangement) (req : SessionContext)
  | deleteAll (order : Arrangement) (userId : Text)
  | destroyAll (order : Arrangement) (destroyedFirst : Bool) (req : SessionContext)
  | trySessionCleanup (order : Arrangement) (req : SessionContext)
  | handleRemovedSession (order : Arrangement) (sessionId : Text)
  | canActivate (order : Arrangement) (relationFirst : Bool) (sessionID : Text)
  | other (request : Async Unit) (apart : request.Sends Apart)

def silent {α : Type} (request : Async α) : Async (Option (Account × SessionContext)) := Prog.bind request fun _ => pure none

-- Only the guard has a result here: the account and the session it grants.
def SessionOperation.program : SessionOperation → Async (Option (Account × SessionContext))
  | .create req userId => silent (SessionsService.create req userId)
  | .destroy order req => silent (SessionsService.destroy order req)
  | .deleteAll order userId => silent (SessionsService.deleteAllIn order userId)
  | .destroyAll order destroyedFirst req => silent (SessionsService.destroyAll order destroyedFirst req)
  | .trySessionCleanup order req => silent (SessionsService.trySessionCleanup order req)
  | .handleRemovedSession order sessionId => silent (SessionsEvents.handleRemovedSession order sessionId)
  | .canActivate order relationFirst sessionID =>
      Prog.bind (AuthGuard.canActivate order relationFirst sessionID) fun granted => pure (some granted)
  | .other request _ => silent request

abbrev ApiLog := List (Event Api)

def Done (c : RedisCmd) (log : ApiLog) : Prop := ∃ reply, .ran (.cmd c) (.ok reply) ∈ log

def Failed (log : ApiLog) : Prop := ∃ s fault, .ran s (.error fault) ∈ log

def Removal.command : Removal → RedisCmd
  | .record sid => .del (createSessionKey sid)
  | .relation sid => .del (createSessionAndUserMappingKey sid)
  | .index userId => .del (createUserSessionsSetKey userId)
  | .member userId sid => .setRem (createUserSessionsSetKey userId) sid

section Programs

theorem done_grows (c : RedisCmd) (early late : ApiLog) (inside : early ⊆ late) (done : Done c early) : Done c late := by
  obtain ⟨reply, member⟩ := done
  exact ⟨reply, inside member⟩

theorem failed_grows (early late : ApiLog) (inside : early ⊆ late) (failed : Failed early) : Failed late := by
  obtain ⟨s, fault, member⟩ := failed
  exact ⟨s, fault, inside member⟩

theorem command_records (c : RedisCmd) (p : ApiLog) :
    (redis c).TameOr (recording Api) (fun q value => q = .ran (.cmd c) (.ok value) :: p)
      (fun q error => Failed q ∧ ∃ fault, error = .queryFailed fault) p := by
  refine ⟨trivial, fun reply => ?_⟩
  cases reply with
  | error fault => exact ⟨⟨_, fault, List.mem_cons_self⟩, fault, rfl⟩
  | ok value => rfl

theorem removal_records (removal : Removal) (p : ApiLog) :
    removal.promise.TameOr (recording Api) (fun q _ => Done removal.command q) (fun q _ => Failed q) p := by
  have deletes : ∀ key : Text, (SessionsService.delete key).TameOr (recording Api) (fun q _ => Done (.del key) q)
      (fun q _ => Failed q) p := by
    refine fun key => tame_bind _ _ _ _ _ _ (tame_mono _ _ _ _ _ _ (command_records (.del key) p) (fun _ _ same => same)
      fun _ _ both => both.1) ?_
    rintro q value rfl
    exact ⟨value, List.mem_cons_self⟩
  cases removal with
  | record sid => exact deletes _
  | relation sid => exact deletes _
  | index userId => exact deletes _
  | member userId sid =>
      refine tame_mono _ _ _ _ _ _ (command_records (.setRem (createUserSessionsSetKey userId) sid) p) ?_ fun _ _ both => both.1
      rintro q value rfl
      exact ⟨value, List.mem_cons_self⟩

theorem rejections_record (removals : List Removal) (p : ApiLog) :
    (rejections (removals.map Removal.promise)).TameOr (recording Api)
      (fun q reasons => (reasons = [] → ∀ removal ∈ removals, Done removal.command q) ∧ (reasons ≠ [] → Failed q))
      (fun _ _ => False) p := by
  induction removals generalizing p with
  | nil => exact ⟨fun _ removal impossible => (by cases impossible), fun impossible => absurd rfl impossible⟩
  | cons first rest ih =>
      refine tame_bind (fun (q : ApiLog) (rejected : Option Err) => (rejected = none ∧ Done first.command q) ∨
        (rejected ≠ none ∧ Failed q)) _ _ _ _ _ ?_ ?_
      · refine tame_catching _ _ _ _ _ _ (tame_bind _ _ _ _ _ _ (removal_records first p) ?_) ?_
        · exact fun q value done => .inl ⟨rfl, done⟩
        · exact fun q error failed => .inr ⟨Option.some_ne_none error, failed⟩
      · intro q rejected ended
        refine recording_bind _ _ _ _ _ _ (ih q) fun last others inside holds => ?_
        rcases ended with ⟨rfl, done⟩ | ⟨refused, failed⟩
        · refine ⟨fun clean removal member => ?_, holds.2⟩
          rcases List.mem_cons.mp member with rfl | later
          · exact done_grows _ q last inside done
          · exact holds.1 clean removal later
        · obtain ⟨reason, rfl⟩ := Option.ne_none_iff_exists'.mp refused
          exact ⟨fun impossible => (by cases impossible), fun _ => failed_grows q last inside failed⟩

theorem settled_record (removals : List Removal) (p : ApiLog) :
    (runSettledOrThrow (removals.map Removal.promise)).TameOr (recording Api)
      (fun q _ => ∀ removal ∈ removals, Done removal.command q) (fun q _ => Failed q) p := by
  refine tame_bind _ _ _ _ _ _ (tame_mono _ _ _ _ _ _ (rejections_record removals p) (fun _ _ holds => holds)
    fun _ _ impossible => impossible.elim) ?_
  intro q reasons holds
  cases reasons with
  | nil => exact holds.1 rfl
  | cons reason others =>
      have failed := holds.2 (List.cons_ne_nil reason others)
      cases others <;> exact failed

theorem arranged_record (order : Arrangement) (removals : List Removal) (p : ApiLog) :
    (runSettledOrThrow (order.arrange (removals.map Removal.promise))).TameOr (recording Api)
      (fun q _ => ∀ removal ∈ removals, Done removal.command q) (fun q _ => Failed q) p := by
  obtain ⟨arranged, perm, same⟩ := arranged_promises order removals
  rw [same]
  exact tame_mono _ _ _ _ _ _ (settled_record arranged p) (fun _ _ all removal member => all removal (perm.mem_iff.mpr member))
    fun _ _ failed => failed

theorem destroy_records (order : Arrangement) (req : SessionContext) (p : ApiLog) :
    (SessionsService.destroy order req).TameOr (recording Api)
      (fun q _ => Done (.del (createSessionAndUserMappingKey req.sessionID)) q) (fun _ _ => True) p :=
  tame_mono _ _ _ _ _ _ (arranged_record order [.record req.sessionID, .member req.userId req.sessionID, .relation req.sessionID] p)
    (fun _ _ all => all (.relation req.sessionID) (by simp)) fun _ _ _ => trivial

-- The cleanup swallows its failures.
theorem cleanup_records (order : Arrangement) (req : SessionContext) (p : ApiLog) :
    (SessionsService.trySessionCleanup order req).TameOr (recording Api)
      (fun q _ => Done (.del (createSessionAndUserMappingKey req.sessionID)) q ∨ Failed q) (fun _ _ => False) p := by
  refine tame_catching _ _ _ _ _ _ (tame_mono _ _ _ _ _ _ (arranged_record order
    [.record req.sessionID, .record req.sessionID, .relation req.sessionID, .member req.userId req.sessionID] p)
    (fun _ _ all => .inl (all (.relation req.sessionID) (by simp))) fun _ _ failed => failed) ?_
  exact fun q error failed => .inr failed

theorem index_among (userId : Text) (sessIDs : List Text) : .index userId ∈ bulkRemovals userId sessIDs := by
  simp [bulkRemovals]

theorem delete_all_records (order : Arrangement) (userId : Text) (p : ApiLog) :
    (SessionsService.deleteAllIn order userId).TameOr (recording Api)
      (fun q _ => Done (.del (createUserSessionsSetKey userId)) q) (fun _ _ => True) p := by
  refine tame_bind _ _ _ _ _ _ (tame_mono _ _ _ _ _ _ (command_records (.sMembers (createUserSessionsSetKey userId)) p)
    (fun _ _ same => same) fun _ _ _ => trivial) ?_
  intro q sessIDs _
  rw [deletions_eq]
  refine tame_bind _ _ _ _ _ _ (tame_mono _ _ _ _ _ _ (arranged_record order (bulkRemovals userId sessIDs) q)
    (fun _ _ all => all) fun _ _ _ => trivial) ?_
  exact fun last value all => all (.index userId) (index_among userId sessIDs)

theorem rethrow_ends (reasons : List Err) (p : ApiLog) :
    (rethrow reasons).TameOr (recording Api) (fun q _ => q = p ∧ reasons = []) (fun _ _ => True) p := by
  cases reasons with
  | nil => exact ⟨rfl, rfl⟩
  | cons reason others => cases others <;> trivial

theorem destroy_all_records (order : Arrangement) (destroyedFirst : Bool) (req : SessionContext) (p : ApiLog) :
    (SessionsService.destroyAll order destroyedFirst req).TameOr (recording Api)
      (fun q _ => Done (.del (createUserSessionsSetKey req.userId)) q) (fun _ _ => True) p := by
  refine tame_bind (fun _ _ => True) _ _ _ _ _ (tame_mono _ _ _ _ _ _ (recording_any _ p) (fun _ _ _ => trivial)
    fun _ _ _ => trivial) ?_
  intro q early _
  refine tame_bind (fun _ _ => True) _ _ _ _ _ (tame_mono _ _ _ _ _ _ (recording_any _ q) (fun _ _ _ => trivial)
    fun _ _ _ => trivial) ?_
  intro q read _
  have late : ∃ removals : List Removal, (if destroyedFirst then [] else [SessionsService.destroySession req]) =
      removals.map Removal.promise := by
    cases destroyedFirst with
    | true => exact ⟨[], rfl⟩
    | false => exact ⟨[.record req.sessionID], rfl⟩
  obtain ⟨removals, same⟩ := late
  rw [same]
  cases read with
  | error reason =>
      refine tame_bind (fun _ _ => True) _ _ _ _ _ (tame_mono _ _ _ _ _ _ (recording_any _ q) (fun _ _ _ => trivial)
        fun _ _ _ => trivial) ?_
      intro q others _
      refine tame_bind _ _ _ _ _ _ (rethrow_ends _ q) ?_
      rintro last value ⟨-, impossible⟩
      simp at impossible
  | ok sessIDs =>
      dsimp only
      rw [deletions_eq, ← List.map_append]
      obtain ⟨arranged, perm, listed⟩ := arranged_promises order (bulkRemovals req.userId sessIDs ++ removals)
      rw [listed]
      refine tame_bind _ _ _ _ _ _ (tame_mono _ _ _ _ _ _ (rejections_record arranged q) (fun _ _ holds => holds)
        fun _ _ _ => trivial) ?_
      intro q others holds
      refine tame_bind _ _ _ _ _ _ (rethrow_ends _ q) ?_
      rintro last value ⟨rfl, clean⟩
      refine holds.1 (List.append_eq_nil_iff.mp clean).2 (.index req.userId) (perm.mem_iff.mpr ?_)
      exact List.mem_append_left _ (index_among req.userId sessIDs)

structure Granted (sid : Text) (user : Account) (context : SessionContext) (log : ApiLog) : Prop where
  carried : context.sessionID = sid
  account : .ran (.sql (.findAccount context.userId)) (.ok (some user : Option Account)) ∈ log
  member : .ran (.cmd (.setIsMember (createUserSessionsSetKey context.userId) sid)) (.ok true) ∈ log
  relation : ∃ owner, .ran (.cmd (.get (createSessionAndUserMappingKey sid))) (.ok (some owner : Option Text)) ∈ log

def Loaded (sid : Text) (log : ApiLog) : Prop := ∃ owner, .ran (.cmd (.get (createSessionKey sid))) (.ok (some owner : Option Text)) ∈ log

-- A refused session has been cleaned up, unless a command failed.
def Cleaned (sid : Text) (log : ApiLog) : Prop := Done (.del (createSessionAndUserMappingKey sid)) log ∨ Failed log

theorem dangling_records (relationFirst : Bool) (userId sid : Text) (p : ApiLog) :
    (SessionsService.isDangling relationFirst userId sid).TameOr (recording Api)
      (fun q dangling => dangling = false →
        .ran (.cmd (.setIsMember (createUserSessionsSetKey userId) sid)) (.ok true) ∈ q ∧
          ∃ owner, .ran (.cmd (.get (createSessionAndUserMappingKey sid))) (.ok (some owner : Option Text)) ∈ q)
      (fun q _ => Failed q) p := by
  cases relationFirst with
  | true =>
      refine tame_bind _ _ _ _ _ _ (tame_mono _ _ _ _ _ _ (command_records (.get (createSessionAndUserMappingKey sid)) p)
        (fun _ _ same => same) fun _ _ both => both.1) ?_
      rintro q relation rfl
      refine tame_bind _ _ _ _ _ _ (tame_mono _ _ _ _ _ _ (command_records (.setIsMember (createUserSessionsSetKey userId) sid) _)
        (fun _ _ same => same) fun _ _ both => both.1) ?_
      rintro q listed rfl clear
      obtain ⟨found, same⟩ : ∃ found : Option Text, found = relation := ⟨relation, rfl⟩
      obtain ⟨inIndex, also⟩ : ∃ inIndex : Bool, inIndex = listed := ⟨listed, rfl⟩
      subst same also
      cases inIndex with
      | false => cases clear
      | true =>
          cases found with
          | none => cases clear
          | some owner => exact ⟨List.mem_cons_self, owner, List.mem_cons_of_mem _ List.mem_cons_self⟩
  | false =>
      refine tame_bind _ _ _ _ _ _ (tame_mono _ _ _ _ _ _ (command_records (.setIsMember (createUserSessionsSetKey userId) sid) p)
        (fun _ _ same => same) fun _ _ both => both.1) ?_
      rintro q listed rfl
      refine tame_bind _ _ _ _ _ _ (tame_mono _ _ _ _ _ _ (command_records (.get (createSessionAndUserMappingKey sid)) _)
        (fun _ _ same => same) fun _ _ both => both.1) ?_
      rintro q relation rfl clear
      obtain ⟨found, same⟩ : ∃ found : Option Text, found = relation := ⟨relation, rfl⟩
      obtain ⟨inIndex, also⟩ : ∃ inIndex : Bool, inIndex = listed := ⟨listed, rfl⟩
      subst same also
      cases inIndex with
      | false => cases clear
      | true =>
          cases found with
          | none => cases clear
          | some owner => exact ⟨List.mem_cons_of_mem _ List.mem_cons_self, owner, List.mem_cons_self⟩

theorem refused_records (order : Arrangement) (req : SessionContext) (p : ApiLog) :
    (Prog.bind (SessionsService.trySessionCleanup order req) fun _ => (reject unauthorized : Async Account)).TameOr (recording Api)
      (fun _ _ => False) (fun q _ => Cleaned req.sessionID q) p := by
  refine tame_bind _ _ _ _ _ _ (tame_mono _ _ _ _ _ _ (cleanup_records order req p) (fun _ _ cleaned => cleaned)
    fun _ _ impossible => impossible.elim) ?_
  exact fun q value cleaned => cleaned

theorem guard_records (order : Arrangement) (relationFirst : Bool) (sid : Text) :
    (AuthGuard.canActivate order relationFirst sid).TameOr (recording Api) (fun q granted => Granted sid granted.1 granted.2 q)
      (fun q error => error = unauthorized → Loaded sid q → Cleaned sid q) [] := by
  refine tame_bind _ _ _ _ _ _ (tame_mono _ _ _ _ _ _ (command_records (.get (createSessionKey sid)) [])
    (fun _ _ same => same) fun _ _ both _ _ => .inr both.1) ?_
  intro q loaded same
  obtain ⟨found, also⟩ : ∃ found : Option Text, found = loaded := ⟨loaded, rfl⟩
  subst also
  cases found with
  | none =>
      rintro - ⟨owner, member⟩
      rw [same, List.mem_singleton] at member
      cases member
  | some userId =>
      refine tame_bind (fun (q : ApiLog) (user : Account) => Granted sid user ⟨⟨sid, sid⟩, userId⟩ q) _ _ _ _ _ ?_
        fun last user granted => granted
      refine tame_bind (fun (q : ApiLog) (user : Option Account) => ∀ account, user = some account →
        .ran (.sql (.findAccount userId)) (.ok (some account : Option Account)) ∈ q) _ _ _ _ _ ?_ ?_
      · refine tame_bind (fun _ _ => True) _ _ _ _ _ ?_ ?_
        · unfold UsersService.validUuidOrThrow
          split
          · exact fun impossible => by cases impossible
          · trivial
        · refine fun last valid _ => ⟨trivial, fun reply => ?_⟩
          cases reply with
          | error fault => exact fun _ _ => .inr ⟨_, fault, List.mem_cons_self⟩
          | ok answer =>
              rintro account rfl
              exact List.mem_cons_self
      · intro q user known
        cases user with
        | none =>
            exact tame_mono _ _ _ _ _ _ (refused_records order ⟨⟨sid, sid⟩, userId⟩ q) (fun _ _ impossible => impossible.elim)
              fun _ _ cleaned _ _ => cleaned
        | some account =>
            refine recording_bind _ _ _ _ _ _ (tame_mono _ _ _ _ _ _ (dangling_records relationFirst userId sid q)
              (fun _ _ holds => holds) fun _ _ failed _ _ => .inr failed) fun last dangling inside clear => ?_
            cases dangling with
            | true =>
                exact tame_mono _ _ _ _ _ _ (refused_records order ⟨⟨sid, sid⟩, userId⟩ last)
                  (fun _ _ impossible => impossible.elim) fun _ _ cleaned _ _ => cleaned
            | false =>
                obtain ⟨member, relation⟩ := clear rfl
                exact ⟨rfl, inside (known account rfl), member, relation⟩

theorem mild_apart {α : Type} (prog : Async α) (quiet : prog.Quiet Mild fun _ => True) : prog.Sends Apart := by
  refine sends_quiet _ _ _ prog quiet fun s mild => ?_
  cases s with
  | sql s => trivial
  | tryLock key => trivial
  | cmd c => cases c <;> trivial

end Programs

-- A MULTI block is only sent by a create, for its own session, once; nothing
-- else writes a relation.
def Ruled (op : SessionOperation) (log : ApiLog) : Api.Stmt → Prop
  | .cmd (.multiStoreSetAdd key value set member) =>
      (∃ req, op = .create req value ∧ key = createSessionAndUserMappingKey req.regenerated ∧
        set = createUserSessionsSetKey value ∧ member = req.regenerated) ∧
      ∀ key value set member reply, Event.ran (I := Api) (.cmd (.multiStoreSetAdd key value set member)) reply ∉ log
  | s => Apart s

@[reducible] def ruled (op : SessionOperation) : Typestate Api := (recording Api).within (Ruled op)

namespace SessionOperation

def Returns : SessionOperation → ApiLog → Option (Account × SessionContext) → Prop
  | .destroy _ req, log, _ => Done (.del (createSessionAndUserMappingKey req.sessionID)) log
  | .deleteAll _ userId, log, _ => Done (.del (createUserSessionsSetKey userId)) log
  | .destroyAll _ _ req, log, _ => Done (.del (createUserSessionsSetKey req.userId)) log
  | .trySessionCleanup _ req, log, _ => Cleaned req.sessionID log
  | .canActivate _ _ sid, log, some granted => Granted sid granted.1 granted.2 log
  | .canActivate _ _ _, _, none => False
  | _, _, granted => granted = none

def Throws : SessionOperation → ApiLog → Err → Prop
  | .canActivate _ _ sid, log, error => error = unauthorized → Loaded sid log → Cleaned sid log
  | _, _, _ => True

def Creates (op : SessionOperation) (userId sid : Text) : Prop := ∃ req, op = .create req userId ∧ req.regenerated = sid

-- An operation that ends the session has returned, and none of the commands of
-- a cleanup has failed.
def Revokes {E : Engine Api} (userId sid : Text) (session : Session E Err (Option (Account × SessionContext))) :
    SessionOperation → Prop
  | .destroy _ req => req.sessionID = sid ∧ session.outcome = some (.ok none)
  | .deleteAll _ owner => owner = userId ∧ session.outcome = some (.ok none)
  | .destroyAll _ _ req => req.userId = userId ∧ session.outcome = some (.ok none)
  | .trySessionCleanup _ req => req.sessionID = sid ∧ session.outcome = some (.ok none) ∧ ¬ Failed session.log
  | .canActivate _ _ carried => carried = sid ∧ session.outcome = some (.error unauthorized) ∧ Loaded sid session.log ∧
      ¬ Failed session.log
  | _ => False

end SessionOperation

section Operations

theorem silent_records {α : Type} (post : ApiLog → α → Prop) (thrown : ApiLog → Err → Prop) (request : Async α) (p : ApiLog)
    (tame : request.TameOr (recording Api) post thrown p) :
    (silent request).TameOr (recording Api) (fun q granted => granted = none ∧ ∃ value, post q value) thrown p := by
  refine tame_bind _ _ _ _ _ _ tame ?_
  exact fun q value holds => ⟨rfl, value, holds⟩

theorem sends_silent {α : Type} (request : Async α) (sends : request.Sends Apart) : (silent request).Sends Apart :=
  sends_bind _ _ _ sends fun _ => trivial

theorem ruled_apart (op : SessionOperation) (post : ApiLog → Option (Account × SessionContext) → Prop) (thrown : ApiLog → Err → Prop)
    (prog : Async (Option (Account × SessionContext))) (tame : prog.TameOr (recording Api) post thrown [])
    (sends : prog.Sends Apart) : prog.TameOr (ruled op) post thrown [] := by
  refine tame_within (T := recording Api) (Ruled op) Apart (fun log s apart => ?_) post thrown prog [] tame sends
  cases s with
  | sql s => trivial
  | tryLock key => trivial
  | cmd c =>
      cases c with
      | multiStoreSetAdd key value set member => cases apart
      | _ => exact apart

theorem create_ruled (req : RequestContext) (userId : Text) :
    (silent (SessionsService.create req userId)).TameOr (ruled (.create req userId)) (fun _ granted => granted = none)
      (fun _ _ => True) [] := by
  have stored : ∀ p : ApiLog, (∀ key value set member reply,
      Event.ran (I := Api) (.cmd (.multiStoreSetAdd key value set member)) reply ∉ p) →
      (redis (.multiStoreSetAdd (createSessionAndUserMappingKey req.regenerated) userId (createUserSessionsSetKey userId)
        req.regenerated)).TameOr (ruled (.create req userId)) (fun _ _ => True) (fun _ _ => True) p := by
    refine fun p none => ⟨⟨trivial, ⟨req, rfl, rfl, rfl, rfl⟩, none⟩, fun reply => ?_⟩
    cases reply <;> trivial
  refine tame_bind (fun _ _ => True) _ _ _ _ _ ?_ fun _ _ _ => rfl
  refine tame_bind (fun (p : ApiLog) _ => ∀ key value set member reply,
    Event.ran (I := Api) (.cmd (.multiStoreSetAdd key value set member)) reply ∉ p) _ _ _ _ _ ?_ fun p _ none => stored p none
  refine ⟨⟨trivial, trivial⟩, fun reply => ?_⟩
  cases reply with
  | error fault => trivial
  | ok present =>
      intro key value set member reply listed
      rw [List.mem_singleton] at listed
      cases listed

theorem operation_ruled (op : SessionOperation) : op.program.TameOr (ruled op) op.Returns op.Throws [] := by
  cases op with
  | create req userId => exact create_ruled req userId
  | destroy order req =>
      refine ruled_apart _ _ _ _ (tame_mono _ _ _ _ _ _ (silent_records _ _ _ _ (destroy_records order req [])) ?_
        fun _ _ _ => trivial) (sends_silent _ (mild_apart _ (mild_destroy order req)))
      exact fun _ _ both => both.2.choose_spec
  | deleteAll order userId =>
      refine ruled_apart _ _ _ _ (tame_mono _ _ _ _ _ _ (silent_records _ _ _ _ (delete_all_records order userId [])) ?_
        fun _ _ _ => trivial) (sends_silent _ (mild_apart _ (mild_delete_all order userId)))
      exact fun _ _ both => both.2.choose_spec
  | destroyAll order destroyedFirst req =>
      refine ruled_apart _ _ _ _ (tame_mono _ _ _ _ _ _ (silent_records _ _ _ _ (destroy_all_records order destroyedFirst req [])) ?_
        fun _ _ _ => trivial) (sends_silent _ (mild_apart _ (mild_destroy_all order destroyedFirst req)))
      exact fun _ _ both => both.2.choose_spec
  | trySessionCleanup order req =>
      refine ruled_apart _ _ _ _ (tame_mono _ _ _ _ _ _ (silent_records _ _ _ _ (cleanup_records order req [])) ?_
        fun _ _ _ => trivial) (sends_silent _ (mild_apart _ (mild_cleanup order req)))
      exact fun _ _ both => both.2.choose_spec
  | handleRemovedSession order sessionId =>
      exact ruled_apart _ _ _ _ (tame_mono _ _ _ _ _ _ (silent_records _ _ _ _ (recording_any _ [])) (fun _ _ both => both.1)
        fun _ _ _ => trivial) (sends_silent _ (mild_apart _ (mild_removed order sessionId)))
  | canActivate order relationFirst sessionID =>
      refine ruled_apart _ _ _ _ (tame_bind _ _ _ _ _ _ (guard_records order relationFirst sessionID) ?_)
        (sends_bind _ _ _ (mild_apart _ (mild_guard order relationFirst sessionID)) fun _ => trivial)
      exact fun _ _ granted => granted
  | other request apart =>
      exact ruled_apart _ _ _ _ (tame_mono _ _ _ _ _ _ (silent_records _ _ _ _ (recording_any _ [])) (fun _ _ both => both.1)
        fun _ _ _ => trivial) (sends_silent _ apart)

end Operations

def SessionStored (userId sid : Text) (log : ApiLog) : Prop :=
  Done (.multiStoreSetAdd (createSessionAndUserMappingKey sid) userId (createUserSessionsSetKey userId) sid) log

-- Every regenerate draws a new session id.
def NewIds {n : Nat} (ops : Fin n → SessionOperation) : Prop :=
  ∀ i j userId other sid, (ops i).Creates userId sid → (ops j).Creates other sid → i = j

section Effects

variable {store left : Redis}

theorem command_index (c : RedisCmd) (reply : c.Reply) (ran : Redis.exec store c = .ok (reply, left)) (userId sid : Text)
    (member : sid ∈ left.sets (createUserSessionsSetKey userId)) : sid ∈ store.sets (createUserSessionsSetKey userId) ∨
      ∃ key value, c = .multiStoreSetAdd key value (createUserSessionsSetKey userId) sid := by
  cases c with
  | set key value ex =>
      cases ex with
      | none =>
          cases ran
          exact .inl member
      | some seconds =>
          simp only [Redis.exec] at ran
          split at ran
          · cases ran
            exact .inl member
          · cases ran
  | del key =>
      cases ran
      by_cases same : createUserSessionsSetKey userId = key
      · simp [same] at member
      · exact .inl (by simpa [Function.update_of_ne same] using member)
  | setRem key removed =>
      cases ran
      by_cases same : createUserSessionsSetKey userId = key
      · subst same
        simp only [Function.update_self] at member
        exact .inl (List.mem_of_mem_erase member)
      · exact .inl (by simpa [Function.update_of_ne same] using member)
  | multiStoreSetAdd key value set added =>
      cases ran
      by_cases same : createUserSessionsSetKey userId = set
      · subst same
        simp only [Function.update_self, List.mem_insert_iff] at member
        rcases member with rfl | old
        · exact .inr ⟨key, value, rfl⟩
        · exact .inl old
      · exact .inl (by simpa [Function.update_of_ne same] using member)
  | _ =>
      cases ran
      exact .inl member

theorem command_relation (c : RedisCmd) (reply : c.Reply) (ran : Redis.exec store c = .ok (reply, left)) (op : SessionOperation)
    (log : ApiLog) (ruled : Ruled op log (.cmd c)) (sid : Text) (absent : store.strings (createSessionAndUserMappingKey sid) = none) :
    left.strings (createSessionAndUserMappingKey sid) = none ∨
      ∃ key value set member, c = .multiStoreSetAdd key value set member ∧ key = createSessionAndUserMappingKey sid := by
  cases c with
  | set key value ex =>
      have different : createSessionAndUserMappingKey sid ≠ key := fun same => ruled sid same.symm
      cases ex with
      | none =>
          cases ran
          exact .inl (by simpa [Function.update_of_ne different] using absent)
      | some seconds =>
          simp only [Redis.exec] at ran
          split at ran
          · cases ran
            exact .inl (by simpa [Function.update_of_ne different] using absent)
          · cases ran
  | del key =>
      cases ran
      by_cases same : createSessionAndUserMappingKey sid = key
      · exact .inl (by simp [same])
      · exact .inl (by simpa [Function.update_of_ne same] using absent)
  | multiStoreSetAdd key value set member =>
      cases ran
      by_cases same : createSessionAndUserMappingKey sid = key
      · exact .inr ⟨key, value, set, member, rfl, same.symm⟩
      · exact .inl (by simpa [Function.update_of_ne same] using absent)
  | _ =>
      cases ran
      exact .inl absent

theorem deleted_relation (sid : Text) (reply : Bool) (ran : Redis.exec store (.del (createSessionAndUserMappingKey sid)) = .ok (reply, left)) :
    left.strings (createSessionAndUserMappingKey sid) = none := by
  cases ran
  exact Function.update_self _ _ _

theorem deleted_index (userId sid : Text) (reply : Bool)
    (ran : Redis.exec store (.del (createUserSessionsSetKey userId)) = .ok (reply, left)) :
    sid ∉ left.sets (createUserSessionsSetKey userId) := by
  cases ran
  simp

end Effects

section Races

variable {hashtext : Text → Int32} {n : Nat} {ops : Fin n → SessionOperation}

abbrev SessionNet (hashtext : Text → Int32) (n : Nat) := Net (engine hashtext) Err (Option (Account × SessionContext)) n

structure Lawful (ops : Fin n → SessionOperation) (net : SessionNet hashtext n) : Prop where
  ruled : ∀ i, TamedOr (ruled (ops i)) (ops i).Returns (ops i).Throws (net.sessions i)
  created : ∀ i userId sid, SessionStored userId sid (net.sessions i).log → (ops i).Creates userId sid
  members : ∀ userId sid, sid ∈ net.world.store.sets (createUserSessionsSetKey userId) → ∃ i, SessionStored userId sid (net.sessions i).log

theorem turn_ruled (net : SessionNet hashtext n) (i : Fin n) (left : World) (session : Session (engine hashtext) Err _)
    (lawful : Lawful ops net) (advanced : (net.sessions i).advance net.world (others net i) = some (left, session)) :
    TamedOr (ruled (ops i)) (ops i).Returns (ops i).Throws session ∧ ∃ event, session.log = event :: (net.sessions i).log ∧
      ((left.store = net.world.store ∧ ∀ c reply, event ≠ .ran (.cmd c) (.ok reply)) ∨
        ∃ c reply, event = .ran (.cmd c) (.ok reply) ∧ Redis.exec net.world.store c = .ok (reply, left.store) ∧
          Ruled (ops i) (net.sessions i).log (.cmd c)) := by
  obtain ⟨tamed, -, -, allows⟩ := tamed_advance _ _ _ _ _ (lawful.ruled i) advanced
  obtain ⟨event, logged, effect⟩ := advance_store net.world left (others net i) (net.sessions i) session advanced
  refine ⟨tamed, event, logged, ?_⟩
  rcases effect with ⟨same, notCommand, -⟩ | ⟨c, reply, asks, rfl, ran⟩
  · exact .inl ⟨same, notCommand⟩
  · have allowed := (allows _ asks).2
    have phase : (ruled (ops i)).phase (net.sessions i).log = (net.sessions i).log := recording_phase (net.sessions i).log
    rw [phase] at allowed
    exact .inr ⟨c, reply, rfl, ran, allowed⟩

theorem stored_later (net next : SessionNet hashtext n) (move : Move (engine hashtext) n) (stepped : step net move = some next)
    (i : Fin n) (userId sid : Text) (stored : SessionStored userId sid (net.sessions i).log) : SessionStored userId sid (next.sessions i).log :=
  done_grows _ _ _ (step_log net next move stepped i).subset stored

theorem ruled_stores (op : SessionOperation) (log : ApiLog) (key value set member : Text)
    (ruled : Ruled op log (.cmd (.multiStoreSetAdd key value set member))) :
    op.Creates value member ∧ key = createSessionAndUserMappingKey member ∧ set = createUserSessionsSetKey value := by
  obtain ⟨⟨req, rfl, rfl, rfl, rfl⟩, -⟩ := ruled
  exact ⟨⟨req, rfl, rfl⟩, rfl, rfl⟩

theorem lawful_step (net : SessionNet hashtext n) (move : Move (engine hashtext) n) (next : SessionNet hashtext n)
    (lawful : Lawful ops net) (stepped : step net move = some next) : Lawful ops next := by
  have kept : ∀ userId sid, sid ∈ net.world.store.sets (createUserSessionsSetKey userId) → ∃ i, SessionStored userId sid (next.sessions i).log := by
    intro userId sid member
    obtain ⟨i, stored⟩ := lawful.members userId sid member
    exact ⟨i, stored_later net next move stepped i userId sid stored⟩
  rcases step_cases net next move stepped with ⟨i, left, session, rfl, advanced, rfl⟩ |
    ⟨i, fault, session, rfl, interrupted, rfl⟩ | ⟨change, rfl, rfl⟩
  · obtain ⟨tamed, event, logged, effect⟩ := turn_ruled net i left session lawful advanced
    refine ⟨fun j => ?_, fun j userId sid stored => ?_, fun userId sid member => ?_⟩
    · by_cases same : j = i
      · subst same
        simpa using tamed
      · simpa [Function.update_of_ne same] using lawful.ruled j
    · by_cases same : j = i
      · subst same
        obtain ⟨reply, listed⟩ : SessionStored userId sid session.log := by simpa using stored
        rw [logged, List.mem_cons] at listed
        rcases listed with rfl | before
        · rcases effect with ⟨-, notCommand⟩ | ⟨c, reply, event, -, allowed⟩
          · exact absurd rfl (notCommand _ _)
          · cases event
            exact (ruled_stores _ _ _ _ _ _ allowed).1
        · exact lawful.created j userId sid ⟨reply, before⟩
      · exact lawful.created j userId sid (by simpa [Function.update_of_ne same] using stored)
    · rcases effect with ⟨same, -⟩ | ⟨c, reply, rfl, ran, allowed⟩
      · exact kept userId sid (same ▸ member)
      · rcases command_index c reply ran userId sid member with old | ⟨key, value, rfl⟩
        · exact kept userId sid old
        · obtain ⟨-, rfl, same⟩ := ruled_stores _ _ _ _ _ _ allowed
          obtain rfl := index_key_injective same
          exact ⟨i, reply, by simp [logged]⟩
  · refine ⟨fun j => ?_, fun j userId sid stored => ?_, kept⟩
    · by_cases same : j = i
      · subst same
        simpa using tamed_interrupt _ _ _ (lawful.ruled j) interrupted
      · simpa [Function.update_of_ne same] using lawful.ruled j
    · by_cases same : j = i
      · subst same
        obtain ⟨s, -, -, logged⟩ := interrupt_event (net.sessions j) session fault interrupted
        obtain ⟨reply, listed⟩ : SessionStored userId sid session.log := by simpa using stored
        rw [logged, List.mem_cons] at listed
        exact lawful.created j userId sid ⟨reply, listed.resolve_left fun impossible => by cases impossible⟩
      · exact lawful.created j userId sid (by simpa [Function.update_of_ne same] using stored)
  · exact ⟨lawful.ruled, lawful.created, kept⟩

theorem dead_step (distinct : NewIds ops) (net : SessionNet hashtext n) (move : Move (engine hashtext) n) (next : SessionNet hashtext n)
    (lawful : Lawful ops net) (stepped : step net move = some next) (i : Fin n) (userId sid : Text)
    (stored : SessionStored userId sid (net.sessions i).log) :
    (net.world.store.strings (createSessionAndUserMappingKey sid) = none →
        next.world.store.strings (createSessionAndUserMappingKey sid) = none) ∧
      (sid ∉ net.world.store.sets (createUserSessionsSetKey userId) → sid ∉ next.world.store.sets (createUserSessionsSetKey userId)) := by
  rcases step_cases net next move stepped with ⟨j, left, session, rfl, advanced, rfl⟩ |
    ⟨j, fault, session, rfl, interrupted, rfl⟩ | ⟨change, rfl, rfl⟩
  · obtain ⟨-, event, -, effect⟩ := turn_ruled net j left session lawful advanced
    rcases effect with ⟨same, -⟩ | ⟨c, reply, rfl, ran, allowed⟩
    · show (_ → left.store.strings _ = none) ∧ (_ → sid ∉ left.store.sets _)
      rw [same]
      exact ⟨id, id⟩
    · have again : ∀ key value set, c ≠ .multiStoreSetAdd key value set sid := by
        rintro key value set rfl
        obtain rfl := distinct i j userId value sid (lawful.created i userId sid stored) (ruled_stores _ _ _ _ _ _ allowed).1
        obtain ⟨reply, listed⟩ := stored
        exact allowed.2 _ _ _ _ _ listed
      refine ⟨fun absent => ?_, fun absent member => ?_⟩
      · rcases command_relation c reply ran _ _ allowed sid absent with gone | ⟨key, value, set, member, rfl, same⟩
        · exact gone
        · obtain ⟨-, own, -⟩ := ruled_stores _ _ _ _ _ _ allowed
          obtain rfl := relation_key_injective (own.symm.trans same)
          exact absurd rfl (again _ _ _)
      · rcases command_index c reply ran userId sid member with old | ⟨key, value, rfl⟩
        · exact absent old
        · exact again _ _ _ rfl
  · exact ⟨id, id⟩
  · exact ⟨id, id⟩

-- A request that begins after the create stored the session: what it deletes
-- stays deleted.
structure Revoking (ops : Fin n → SessionOperation) (i k : Fin n) (userId sid : Text) (net : SessionNet hashtext n) : Prop where
  lawful : Lawful ops net
  stored : SessionStored userId sid (net.sessions i).log
  relation : Done (.del (createSessionAndUserMappingKey sid)) (net.sessions k).log →
    net.world.store.strings (createSessionAndUserMappingKey sid) = none
  index : Done (.del (createUserSessionsSetKey userId)) (net.sessions k).log →
    sid ∉ net.world.store.sets (createUserSessionsSetKey userId)

theorem done_step (net next : SessionNet hashtext n) (move : Move (engine hashtext) n) (stepped : step net move = some next)
    (k : Fin n) (c : RedisCmd) (reply : c.Reply) (listed : .ran (.cmd c) (.ok reply) ∈ (next.sessions k).log) :
    .ran (.cmd c) (.ok reply) ∈ (net.sessions k).log ∨ Redis.exec net.world.store c = .ok (reply, next.world.store) := by
  rcases step_cases net next move stepped with ⟨j, left, session, rfl, advanced, rfl⟩ |
    ⟨j, fault, session, rfl, interrupted, rfl⟩ | ⟨change, rfl, rfl⟩
  · by_cases same : k = j
    · subst same
      have told : .ran (.cmd c) (.ok reply) ∈ session.log := by simpa using listed
      obtain ⟨event, logged, effect⟩ := advance_store net.world left (others net k) (net.sessions k) session advanced
      rw [logged, List.mem_cons] at told
      rcases told with rfl | before
      · rcases effect with ⟨-, notCommand, -⟩ | ⟨other, answer, -, event, ran⟩
        · exact absurd rfl (notCommand _ _)
        · cases event
          exact .inr ran
      · exact .inl before
    · exact .inl (by simpa [Function.update_of_ne same] using listed)
  · by_cases same : k = j
    · subst same
      have told : .ran (.cmd c) (.ok reply) ∈ session.log := by simpa using listed
      obtain ⟨s, -, -, logged⟩ := interrupt_event (net.sessions k) session fault interrupted
      rw [logged, List.mem_cons] at told
      exact .inl (told.resolve_left fun impossible => by cases impossible)
    · exact .inl (by simpa [Function.update_of_ne same] using listed)
  · exact .inl listed

theorem revoking_step (distinct : NewIds ops) (i k : Fin n) (userId sid : Text) (net : SessionNet hashtext n)
    (move : Move (engine hashtext) n) (next : SessionNet hashtext n) (revoking : Revoking ops i k userId sid net)
    (stepped : step net move = some next) : Revoking ops i k userId sid next := by
  obtain ⟨relation, index⟩ := dead_step distinct net move next revoking.lawful stepped i userId sid revoking.stored
  refine ⟨lawful_step net move next revoking.lawful stepped, stored_later net next move stepped i userId sid revoking.stored, ?_, ?_⟩
  · rintro ⟨reply, listed⟩
    rcases done_step net next move stepped k (.del _) reply listed with before | ran
    · exact relation (revoking.relation ⟨reply, before⟩)
    · exact deleted_relation sid reply ran
  · rintro ⟨reply, listed⟩
    rcases done_step net next move stepped k (.del _) reply listed with before | ran
    · exact index (revoking.index ⟨reply, before⟩)
    · exact deleted_index userId sid reply ran

-- A guard that has not read the membership of a revoked session, or found it
-- revoked.
structure Denied (ops : Fin n → SessionOperation) (i g : Fin n) (userId sid : Text) (net : SessionNet hashtext n) : Prop where
  lawful : Lawful ops net
  stored : SessionStored userId sid (net.sessions i).log
  dead : (net.world.store.strings (createSessionAndUserMappingKey sid) = none ∧ ∀ owner,
      .ran (.cmd (.get (createSessionAndUserMappingKey sid))) (.ok (some owner : Option Text)) ∉ (net.sessions g).log) ∨
    (sid ∉ net.world.store.sets (createUserSessionsSetKey userId) ∧
      .ran (.cmd (.setIsMember (createUserSessionsSetKey userId) sid)) (.ok true) ∉ (net.sessions g).log)

theorem denied_step (distinct : NewIds ops) (i g : Fin n) (userId sid : Text) (net : SessionNet hashtext n)
    (move : Move (engine hashtext) n) (next : SessionNet hashtext n) (denied : Denied ops i g userId sid net)
    (stepped : step net move = some next) : Denied ops i g userId sid next := by
  obtain ⟨relation, index⟩ := dead_step distinct net move next denied.lawful stepped i userId sid denied.stored
  refine ⟨lawful_step net move next denied.lawful stepped, stored_later net next move stepped i userId sid denied.stored, ?_⟩
  rcases denied.dead with ⟨absent, unread⟩ | ⟨absent, unread⟩
  · refine .inl ⟨relation absent, fun owner listed => ?_⟩
    rcases done_step net next move stepped g (.get _) _ listed with before | ran
    · exact unread owner before
    · have pair := Except.ok.inj (show (Except.ok ((net.world.store.live (createSessionAndUserMappingKey sid)).map RedisEntry.value,
        net.world.store) : Except Fault (Option Text × Redis)) = .ok (some owner, next.world.store) from ran)
      have found : (net.world.store.live (createSessionAndUserMappingKey sid)).map RedisEntry.value = some owner := congrArg Prod.fst pair
      simp [Redis.live, absent] at found
  · refine .inr ⟨index absent, fun listed => ?_⟩
    rcases done_step net next move stepped g (.setIsMember _ _) _ listed with before | ran
    · exact unread before
    · have pair := Except.ok.inj (show (Except.ok ((net.world.store.sets (createUserSessionsSetKey userId)).contains sid, net.world.store) :
        Except Fault (Bool × Redis)) = .ok (true, next.world.store) from ran)
      have found : (net.world.store.sets (createUserSessionsSetKey userId)).contains sid = true := congrArg Prod.fst pair
      exact absent (by simpa using found)

theorem revokes_done (k : Fin n) (userId sid : Text) (net : SessionNet hashtext n) (lawful : Lawful ops net)
    (revokes : (ops k).Revokes userId sid (net.sessions k)) :
    Done (.del (createSessionAndUserMappingKey sid)) (net.sessions k).log ∨
      Done (.del (createUserSessionsSetKey userId)) (net.sessions k).log := by
  have ruled := lawful.ruled k
  have phase : (RateWise.ruled (ops k)).phase (net.sessions k).log = (net.sessions k).log := recording_phase (net.sessions k).log
  unfold TamedOr at ruled
  rw [phase] at ruled
  generalize ops k = op at ruled revokes
  generalize net.sessions k = session at ruled revokes
  obtain ⟨prog, tx, log⟩ := session
  cases op with
  | destroy order req =>
      obtain ⟨rfl, outcome⟩ := revokes
      cases prog with
      | done value => exact .inl ruled
      | _ => cases outcome
  | deleteAll order owner =>
      obtain ⟨rfl, outcome⟩ := revokes
      cases prog with
      | done value => exact .inr ruled
      | _ => cases outcome
  | destroyAll order destroyedFirst req =>
      obtain ⟨rfl, outcome⟩ := revokes
      cases prog with
      | done value => exact .inr ruled
      | _ => cases outcome
  | trySessionCleanup order req =>
      obtain ⟨rfl, outcome, clean⟩ := revokes
      cases prog with
      | done value => exact .inl (ruled.resolve_right clean)
      | _ => cases outcome
  | canActivate order relationFirst carried =>
      obtain ⟨rfl, outcome, loaded, clean⟩ := revokes
      cases prog with
      | throw error =>
          cases outcome
          exact .inl ((ruled rfl loaded).resolve_right clean)
      | _ => cases outcome
  | _ => cases revokes

theorem guard_closed {start : World} (g : Fin n) (order : Arrangement) (relationFirst : Bool) (sid : Text)
    (guard : ops g = .canActivate order relationFirst sid) (done : List (Move (engine hashtext) n)) (net : SessionNet hashtext n)
    (reached : run (launch start fun i => (ops i).program) done = some net) : (net.sessions g).tx = none := by
  have quiet : (ops g).program.Quiet Mild fun _ => True := by
    rw [guard]
    exact Prog.quiet_bind _ (fun _ => True) _ _ _ (mild_guard order relationFirst sid) fun _ _ => trivial
  refine (run_invariant (fun _ _ => True) (fun net : SessionNet hashtext n =>
    (net.sessions g).prog.Quiet Mild (fun _ => True) ∧ (net.sessions g).tx = none) ?_ (launch start fun i => (ops i).program) net done
    ⟨quiet, rfl⟩ (meets_trivial _ _) reached).2
  rintro net move next ⟨quiet, closed⟩ - stepped
  rcases step_cases net next move stepped with ⟨j, left, session, rfl, advanced, rfl⟩ |
    ⟨j, fault, session, rfl, interrupted, rfl⟩ | ⟨change, rfl, rfl⟩
  · by_cases same : g = j
    · subst same
      simpa using quiet_advance _ _ _ _ _ _ _ quiet closed advanced
    · simpa [Function.update_of_ne same] using ⟨quiet, closed⟩
  · by_cases same : g = j
    · subst same
      simpa using quiet_interrupt _ _ _ _ _ quiet closed interrupted
    · simpa [Function.update_of_ne same] using ⟨quiet, closed⟩
  · exact ⟨quiet, closed⟩

end Races

def readsMembership (sid : Text) : Event Api → Bool
  | .ran (.cmd (.get key)) _ => key = createSessionAndUserMappingKey sid
  | .ran (.cmd (.setIsMember _ _)) _ => true
  | _ => false

theorem revoked_sessions_stay_revoked (hashtext : Text → Int32) {n : Nat} (ops : Fin n → SessionOperation) (distinct : NewIds ops)
    (start : World) (empty : ∀ userId, start.store.sets (createUserSessionsSetKey userId) = [])
    (moves : List (Move (engine hashtext) n)) (final : SessionNet hashtext n)
    (reached : run (launch start fun i => (ops i).program) moves = some final) (g : Fin n) (order : Arrangement)
    (relationFirst : Bool) (sid : Text) (guard : ops g = .canActivate order relationFirst sid) (user : Account)
    (context : SessionContext) (granted : (final.sessions g).outcome = some (.ok (some (user, context)))) :
    context.sessionID = sid ∧
      (∃ early late, ∃ middle : SessionNet hashtext n, moves = early ++ late ∧
        run (launch start fun i => (ops i).program) early = some middle ∧
        (middle.sessions g).prog.asked = some (.sql (.findAccount context.userId)) ∧
        middle.world.db.answer (.findAccount context.userId) = some user) ∧
      (∃ i early late, ∃ middle : SessionNet hashtext n, moves = early ++ late ∧
        run (launch start fun i => (ops i).program) early = some middle ∧ (middle.sessions g).outcome = none ∧
        (ops i).Creates context.userId sid ∧ SessionStored context.userId sid (middle.sessions i).log) ∧
      ∀ i k early between late, ∀ stored revoked : SessionNet hashtext n, moves = early ++ between ++ late →
        run (launch start fun i => (ops i).program) early = some stored → run stored between = some revoked →
        SessionStored context.userId sid (stored.sessions i).log → (stored.sessions k).log = [] →
        (ops k).Revokes context.userId sid (revoked.sessions k) →
        ∃ event ∈ (revoked.sessions g).log, readsMembership sid event = true := by
  have lawful : ∀ done (net : SessionNet hashtext n), run (launch start fun i => (ops i).program) done = some net → Lawful ops net := by
    intro done net arrived
    refine run_invariant (fun _ _ => True) (Lawful ops) (fun net move next inv _ stepped => lawful_step net move next inv stepped)
      (launch start fun i => (ops i).program) net done ⟨fun i => operation_ruled (ops i), fun i userId sid stored => ?_,
        fun userId sid member => ?_⟩ (meets_trivial _ _) arrived
    · obtain ⟨reply, impossible⟩ := stored
      cases impossible
    · rw [show (launch start fun i => (ops i).program : SessionNet hashtext n).world = start from rfl, empty] at member
      cases member
  have read : Granted sid user context (final.sessions g).log := by
    have ruled := (lawful moves final reached).ruled g
    have phase : (RateWise.ruled (ops g)).phase (final.sessions g).log = (final.sessions g).log := recording_phase (final.sessions g).log
    unfold TamedOr at ruled
    rw [phase, guard] at ruled
    generalize final.sessions g = session at ruled granted
    obtain ⟨prog, tx, log⟩ := session
    cases prog with
    | done value =>
        cases granted
        exact ruled
    | _ => cases granted
  have silentStart : ((launch start fun i => (ops i).program : SessionNet hashtext n).sessions g).log = [] := rfl
  refine ⟨read.carried, ?_, ?_, ?_⟩
  · obtain ⟨early, late, before, world, session, split, there, advanced, logged⟩ :=
      answer_origin _ final moves reached g silentStart _ _ read.account
    refine ⟨early, late, before, split, there, ?_, ?_⟩
    · obtain ⟨event, same, effect⟩ := advance_store _ _ _ _ _ advanced
      obtain rfl := (List.cons.inj (same.symm.trans logged)).1
      rcases effect with ⟨-, -, asks, -⟩ | ⟨c, reply, -, impossible, -⟩
      · exact asks _ _ rfl
      · cases impossible
    · have closed := guard_closed g order relationFirst sid guard early before there
      obtain ⟨event, same, told⟩ := advance_answer _ _ _ _ _ (by rw [closed]; rfl) advanced
      obtain rfl := (List.cons.inj (same.symm.trans logged)).1
      exact (told _ _ rfl).symm
  · obtain ⟨early, late, before, world, session, split, there, advanced, logged⟩ :=
      answer_origin _ final moves reached g silentStart _ _ read.member
    have listed : sid ∈ before.world.store.sets (createUserSessionsSetKey context.userId) := by
      obtain ⟨event, same, effect⟩ := advance_store _ _ _ _ _ advanced
      obtain rfl := (List.cons.inj (same.symm.trans logged)).1
      rcases effect with ⟨-, notCommand, -⟩ | ⟨c, reply, -, event, ran⟩
      · exact absurd rfl (notCommand _ _)
      · cases event
        have pair := Except.ok.inj (show (Except.ok ((before.world.store.sets (createUserSessionsSetKey context.userId)).contains sid,
          before.world.store) : Except Fault (Bool × Redis)) = .ok (true, world.store) from ran)
        have found : (before.world.store.sets (createUserSessionsSetKey context.userId)).contains sid = true := congrArg Prod.fst pair
        simpa using found
    obtain ⟨i, stored⟩ := (lawful early before there).members context.userId sid listed
    refine ⟨i, early, late, before, split, there, ?_, (lawful early before there).created i context.userId sid stored, stored⟩
    by_contra ended
    cases (advance_ended before.world (others before g) (before.sessions g) ended).1.symm.trans advanced
  · intro i k early between late stored revoked split there onward entered idle revokes
    by_contra unread
    have unbegun : ∀ event ∈ (revoked.sessions g).log, readsMembership sid event ≠ true := fun event member reads =>
      unread ⟨event, member, reads⟩
    have revoking := run_invariant (fun _ _ => True) (Revoking ops i k context.userId sid)
      (fun net move next inv _ stepped => revoking_step distinct i k context.userId sid net move next inv stepped) stored revoked between
      ⟨lawful early stored there, entered, fun done => (by obtain ⟨reply, listed⟩ := done; rw [idle] at listed; cases listed),
        fun done => (by obtain ⟨reply, listed⟩ := done; rw [idle] at listed; cases listed)⟩ (meets_trivial _ _) onward
    have initial : Denied ops i g context.userId sid revoked := by
      refine ⟨revoking.lawful, revoking.stored, ?_⟩
      rcases revokes_done k context.userId sid revoked revoking.lawful revokes with relation | index
      · exact .inl ⟨revoking.relation relation, fun owner listed => unbegun _ listed (by simp [readsMembership])⟩
      · exact .inr ⟨revoking.index index, fun listed => unbegun _ listed rfl⟩
    have rest : run revoked late = some final := by
      rw [split, run_append, run_append, there, Option.bind_some, onward, Option.bind_some] at reached
      exact reached
    have denied := run_invariant (fun _ _ => True) (Denied ops i g context.userId sid)
      (fun net move next inv _ stepped => denied_step distinct i g context.userId sid net move next inv stepped) revoked final late
      initial (meets_trivial _ _) rest
    rcases denied.dead with ⟨-, unseen⟩ | ⟨-, unseen⟩
    · obtain ⟨owner, listed⟩ := read.relation
      exact unseen owner listed
    · exact unseen read.member

theorem save_apart (sid userId : Text) (ttlSeconds : Int) : (SessionsService.save sid userId ttlSeconds).Sends Apart := by
  refine sends_bind _ _ _ (sends_catching _ _ _ (sends_bind _ _ _ ⟨session_relation_keys sid, fun reply => ?_⟩ fun _ => trivial)
    fun _ => trivial) fun _ => trivial
  cases reply <;> trivial

-- Ann signs in, the middleware saves her session, and she comes back with it.
def annVisits (i : Fin 3) : SessionOperation :=
  if i = 0 then .create ⟨"s0".toList, "s1".toList⟩ annVersion.id.text
  else if i = 1 then .other (SessionsService.save "s1".toList annVersion.id.text 60) (save_apart _ _ _)
  else .canActivate .listed true "s1".toList

theorem ann_ids : NewIds annVisits := by
  have only : ∀ i userId sid, (annVisits i).Creates userId sid → i = 0 := by
    rintro i userId sid ⟨req, same, -⟩
    by_contra other
    unfold annVisits at same
    rw [if_neg other] at same
    split at same <;> cases same
  intro i j userId other sid first second
  rw [only i userId sid first, only j other sid second]

theorem revoked_sessions_stay_revoked_ann :
    ∃ final : SessionNet (fun _ => 0) 3, run (launch enrolledWorld fun i => (annVisits i).program)
        [.turn 0, .turn 0, .turn 1, .turn 2, .turn 2, .turn 2, .turn 2] = some final ∧
      ∃ i, (annVisits i).Creates annVersion.id.text "s1".toList := by
  obtain ⟨final, reached, granted⟩ := run_exists (launch enrolledWorld fun i => (annVisits i).program : SessionNet (fun _ => 0) 3)
    [.turn 0, .turn 0, .turn 1, .turn 2, .turn 2, .turn 2, .turn 2] (fun final => (final.sessions 2).outcome =
      some (.ok (some (pendingAccount annColumns annVersion, ⟨⟨"s1".toList, "s1".toList⟩, annVersion.id.text⟩)))) (by decide)
  obtain ⟨-, -, ⟨i, early, late, middle, -, -, -, creates, -⟩, -⟩ := revoked_sessions_stay_revoked (fun _ => 0) annVisits ann_ids
    enrolledWorld (fun _ => rfl) _ final reached 2 .listed true "s1".toList rfl _ _ granted
  exact ⟨final, reached, i, creates⟩

end RateWise
