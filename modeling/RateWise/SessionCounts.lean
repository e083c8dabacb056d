import Mathlib.Data.Set.Card
import RateWise.SessionViews
import RateWise.Credentials

set_option autoImplicit false

namespace RateWise

open Interleave
open ReadCommitted

-- express-session draws base64url ids.
def SessionName (sid : Text) : Prop := sid ≠ [] ∧ ':' ∉ sid

-- Index and relations name the same sessions.
structure SessionView.Bound (view : SessionView) : Prop where
  nodup : ∀ userId, (view.index userId).Nodup
  related : ∀ userId sid, sid ∈ view.index userId ↔ view.relation sid = some ⟨userId, none⟩
  lasting : ∀ sid entry, view.relation sid = some entry → entry.expiresAt = none
  named : ∀ sid entry, view.relation sid = some entry → SessionName sid

-- And these sessions are the live records.
structure SessionView.Consistent (view : SessionView) : Prop extends view.Bound where
  recorded : ∀ sid, view.relation sid = (view.record sid).map fun userId => ⟨userId, none⟩

structure Ends (view : SessionView) (userId : Text) (ended : Text → Prop) (removals : List Removal) : Prop where
  owned : ∀ sid, ended sid → view.relation sid = some ⟨userId, none⟩
  relations : ∀ sid, .relation sid ∈ removals ↔ ended sid
  records : ∀ sid, .record sid ∈ removals → ended sid
  indexes : ∀ owner, .index owner ∈ removals → owner = userId ∧ ∀ sid ∈ view.index userId, ended sid
  members : ∀ owner sid, .member owner sid ∈ removals → owner = userId ∧ ended sid
  unlisted : ∀ sid, ended sid → .index userId ∈ removals ∨ .member userId sid ∈ removals

theorem Ends.perm {view : SessionView} {userId : Text} {ended : Text → Prop} {removals arranged : List Removal}
    (ends : Ends view userId ended removals) (perm : arranged.Perm removals) : Ends view userId ended arranged where
  owned := ends.owned
  relations sid := by rw [perm.mem_iff]; exact ends.relations sid
  records sid := by rw [perm.mem_iff]; exact ends.records sid
  indexes owner := by rw [perm.mem_iff]; exact ends.indexes owner
  members owner sid := by rw [perm.mem_iff]; exact ends.members owner sid
  unlisted sid := by rw [perm.mem_iff, perm.mem_iff]; exact ends.unlisted sid

theorem ended_index (view : SessionView) (userId : Text) (ended : Text → Prop) (removals : List Removal) (bound : view.Bound)
    (ends : Ends view userId ended removals) (owner sid : Text) :
    sid ∈ (removals.foldl SessionView.remove view).index owner ↔ sid ∈ view.index owner ∧ ¬ ended sid := by
  rw [(remove_index removals view owner (bound.nodup owner)).2]
  constructor
  · rintro ⟨listed, notIndex, notMember⟩
    refine ⟨listed, fun gone => ?_⟩
    have mine : owner = userId := by
      have relation := (bound.related owner sid).mp listed
      rw [ends.owned sid gone] at relation
      cases relation
      rfl
    subst mine
    rcases ends.unlisted sid gone with index | member
    · exact notIndex index
    · exact notMember member
  · rintro ⟨listed, alive⟩
    refine ⟨listed, fun index => ?_, fun member => alive (ends.members owner sid member).2⟩
    obtain ⟨rfl, all⟩ := ends.indexes owner index
    exact alive (all sid listed)

theorem ended_bound (view : SessionView) (userId : Text) (ended : Text → Prop) (removals : List Removal) (bound : view.Bound)
    (ends : Ends view userId ended removals) : (removals.foldl SessionView.remove view).Bound := by
  have relation : ∀ sid, (removals.foldl SessionView.remove view).relation sid =
      if Removal.relation sid ∈ removals then none else view.relation sid := remove_relation removals view
  refine ⟨fun owner => (remove_index removals view owner (bound.nodup owner)).1, fun owner sid => ?_, fun sid entry kept => ?_,
    fun sid entry kept => ?_⟩
  · rw [ended_index view userId ended removals bound ends, relation, bound.related]
    by_cases gone : ended sid
    · simp [gone, (ends.relations sid).mpr gone]
    · simp [gone, mt (ends.relations sid).mp gone]
  · rw [relation] at kept
    split at kept
    · cases kept
    · exact bound.lasting sid entry kept
  · rw [relation] at kept
    split at kept
    · cases kept
    · exact bound.named sid entry kept

theorem ended_consistent (view : SessionView) (userId : Text) (ended : Text → Prop) (removals : List Removal)
    (consistent : view.Consistent) (ends : Ends view userId ended removals)
    (records : ∀ sid, ended sid → .record sid ∈ removals) : (removals.foldl SessionView.remove view).Consistent := by
  refine ⟨ended_bound view userId ended removals consistent.toBound ends, fun sid => ?_⟩
  rw [remove_relation, remove_record]
  by_cases gone : ended sid
  · simp [(ends.relations sid).mpr gone, records sid gone]
  · simp [mt (ends.relations sid).mp gone, mt (ends.records sid) gone, consistent.recorded]

theorem single_ends (view : SessionView) (userId sid : Text) (removals : List Removal)
    (owned : view.relation sid = some ⟨userId, none⟩)
    (shape : ∀ removal, removal ∈ removals ↔
      removal = .relation sid ∨ removal = .member userId sid ∨ (removal = .record sid ∧ .record sid ∈ removals)) :
    Ends view userId (fun other => other = sid) removals where
  owned other same := same ▸ owned
  relations other := by rw [shape]; simp
  records other member := by
    rcases (shape _).mp member with impossible | impossible | ⟨same, -⟩
    · cases impossible
    · cases impossible
    · cases same
      rfl
  indexes owner member := by
    rcases (shape _).mp member with impossible | impossible | ⟨impossible, -⟩ <;> cases impossible
  members owner other member := by
    rcases (shape _).mp member with impossible | same | ⟨impossible, -⟩
    · cases impossible
    · cases same
      exact ⟨rfl, rfl⟩
    · cases impossible
  unlisted other same := by
    subst same
    exact .inr ((shape _).mpr (.inr (.inl rfl)))

def bulkRemovals (userId : Text) (sessIDs : List Text) : List Removal :=
  sessIDs.map Removal.record ++ Removal.index userId :: sessIDs.map Removal.relation

theorem deletions_eq (userId : Text) (sessIDs : List Text) :
    SessionsService.deletions userId sessIDs = (bulkRemovals userId sessIDs).map Removal.promise := by
  simp only [bulkRemovals, SessionsService.deletions, List.map_append, List.map_cons, List.map_map]
  rfl

theorem bulk_ends (view : SessionView) (userId : Text) (extra : List Text) (bound : view.Bound)
    (listed : ∀ sid ∈ extra, sid ∈ view.index userId) :
    Ends view userId (fun sid => sid ∈ view.index userId)
      (extra.map Removal.record ++ bulkRemovals userId (view.index userId)) where
  owned sid member := (bound.related userId sid).mp member
  relations sid := by simp [bulkRemovals]
  records sid member := by
    simp only [bulkRemovals, List.mem_append, List.mem_map, Removal.record.injEq, exists_eq_right, List.mem_cons] at member
    rcases member with more | mine | impossible | ⟨other, -, impossible⟩
    · exact listed sid more
    · exact mine
    · cases impossible
    · cases impossible
  indexes owner member := by
    simp [bulkRemovals] at member
    exact ⟨member, fun sid mine => mine⟩
  members owner sid member := by simp [bulkRemovals] at member
  unlisted sid member := .inl (by simp [bulkRemovals])

def KeepsSessions : Api.Stmt → Prop
  | .sql _ => True
  | .tryLock _ => False
  | .cmd .now => True
  | .cmd (.get _) => True
  | .cmd (.set key _ _) => ∃ jti, key = createBlacklistTokenKey jti
  | .cmd (.sMembers _) => True
  | .cmd (.setIsMember _ _) => True
  | .cmd (.setSize _) => True
  | .cmd (.sendEmail _) => True
  | .cmd _ => False

structure SameSessions (before after : Redis) : Prop where
  now : after.now = before.now
  sessions : after.sessions = before.sessions

section Effects

variable {hashtext : Text → Int32}

theorem set_keeps_sessions (store : Redis) (jti value : Text) (expiresAt : Option Int) :
    SameSessions store { store with
      strings := Function.update store.strings (createBlacklistTokenKey jti) (some ⟨value, expiresAt⟩) } := by
  refine ⟨rfl, ?_⟩
  simp only [Redis.sessions, SessionView.mk.injEq, and_true]
  refine ⟨funext fun sid => ?_, funext fun sid => ?_⟩
  · simp only [Redis.live, Function.update_of_ne (session_blacklist_keys sid jti)]
  · exact Function.update_of_ne (relation_blacklist_keys sid jti) _ store.strings

theorem command_keeps_sessions (c : RedisCmd) (keeps : KeepsSessions (.cmd c)) (store left : Redis) (reply : c.Reply)
    (ran : Redis.exec store c = .ok (reply, left)) : SameSessions store left := by
  cases c with
  | set key value ex =>
      obtain ⟨jti, rfl⟩ := keeps
      cases ex with
      | none =>
          cases ran
          exact set_keeps_sessions store jti value none
      | some seconds =>
          simp only [Redis.exec] at ran
          split at ran
          · cases ran
            exact set_keeps_sessions store jti value _
          · cases ran
  | del key => cases keeps
  | setRem key member => cases keeps
  | multiStoreSetAdd key value set member => cases keeps
  | now => cases ran; exact ⟨rfl, rfl⟩
  | get key => cases ran; exact ⟨rfl, rfl⟩
  | sMembers key => cases ran; exact ⟨rfl, rfl⟩
  | setIsMember key member => cases ran; exact ⟨rfl, rfl⟩
  | setSize key => cases ran; exact ⟨rfl, rfl⟩
  | sendEmail email => cases ran; exact ⟨rfl, rfl⟩

theorem keeping_yields {α : Type} (post : α → Prop) (prog : Async α) (quiet : prog.Quiet KeepsSessions post) (world : World) :
    Yields (engine hashtext) prog world none fun result left after =>
      after = none ∧ SameSessions world.store left.store ∧ ∀ value, result = .ok value → post value := by
  induction prog generalizing world with
  | done value =>
      refine ⟨rfl, ⟨rfl, rfl⟩, fun other same => ?_⟩
      cases same
      exact quiet
  | throw error => exact ⟨rfl, ⟨rfl, rfl⟩, fun other same => by cases same⟩
  | stmt s resume ih =>
      obtain ⟨keeps, onward⟩ := quiet
      cases s with
      | sql s =>
          exact yields_ask (S := schema) (C := Redis.commands) s resume world _ (fun fault _ => ih _ (onward _) world)
            fun _ => ih _ (onward _) ⟨_, world.store⟩
      | tryLock key => cases keeps
      | cmd c =>
          refine yields_send (S := schema) (C := Redis.commands) c resume world none _ (fun fault failed => ?_)
            fun reply left ran => ?_
          · exact ih _ (onward _) world
          · have kept : SameSessions world.store left := command_keeps_sessions c keeps world.store left reply ran
            refine yields_mono _ _ _ _ _ (ih _ (onward _) ⟨world.db, left⟩) ?_
            rintro result last after ⟨rfl, same, value⟩
            exact ⟨rfl, ⟨same.now.trans kept.now, same.sessions.trans kept.sessions⟩, value⟩
  | beginTx rest => cases quiet
  | commitTx rest => cases quiet
  | rollbackTx rest => cases quiet

theorem destroy_removals (order : Arrangement) (req : SessionContext) (world : World) :
    Yields (engine hashtext) (SessionsService.destroy order req) world none fun result left after =>
      result = .ok () ∧ after = none ∧ left.db = world.db ∧ left.store.now = world.store.now ∧
        ∃ arranged : List Removal,
          arranged.Perm [.record req.sessionID, .member req.userId req.sessionID, .relation req.sessionID] ∧
          left.store.sessions = arranged.foldl SessionView.remove world.store.sessions :=
  settled_removals_yield order [.record req.sessionID, .member req.userId req.sessionID, .relation req.sessionID] world

theorem cleanup_removals (order : Arrangement) (req : SessionContext) (world : World) :
    Yields (engine hashtext) (SessionsService.trySessionCleanup order req) world none fun result left after =>
      result = .ok () ∧ after = none ∧ left.db = world.db ∧ left.store.now = world.store.now ∧
        ∃ arranged : List Removal, arranged.Perm [.record req.sessionID, .record req.sessionID, .relation req.sessionID,
            .member req.userId req.sessionID] ∧
          left.store.sessions = arranged.foldl SessionView.remove world.store.sessions := by
  refine yields_catching _ _ _ _ _ (yields_mono _ _ _ _ _ (settled_removals_yield order
    [.record req.sessionID, .record req.sessionID, .relation req.sessionID, .member req.userId req.sessionID] world) ?_)
  rintro result left after ⟨rfl, rfl, effect⟩
  exact ⟨rfl, rfl, effect⟩

theorem delete_all_removals (order : Arrangement) (userId : Text) (world : World) :
    Yields (engine hashtext) (SessionsService.deleteAllIn order userId) world none fun _ left after =>
      after = none ∧ left.store.now = world.store.now ∧
        ∃ arranged : List Removal, arranged.Perm (bulkRemovals userId (world.store.sessions.index userId)) ∧
          left.store.sessions = arranged.foldl SessionView.remove world.store.sessions := by
  refine yields_bind _ _ _ _ _ (yields_cmd (S := schema) (C := Redis.commands) _
    (RedisCmd.sMembers (createUserSessionsSetKey userId)) world none _ (fun fault impossible => by cases impossible)
    fun reply store answered => ?_)
  cases answered
  have settled := @settled_removals_yield hashtext order (bulkRemovals userId (world.store.sessions.index userId)) world
  rw [← deletions_eq] at settled
  refine yields_bind _ _ _ _ _ (yields_mono _ _ _ _ _ settled ?_)
  rintro result left after ⟨rfl, rfl, -, time, arranged, perm, view⟩
  exact ⟨rfl, time, arranged, perm, view⟩

theorem settled_members (userId : Text) (world : World) :
    Yields (engine hashtext) (settle (redis (.sMembers (createUserSessionsSetKey userId)))) world none
      fun result left after => result = .ok (.ok (left.store.sessions.index userId)) ∧ left = world ∧ after = none := by
  refine yields_catching _ _ _ _ _ (yields_bind _ _ _ _ _ (yields_cmd (S := schema) (C := Redis.commands) _
    (RedisCmd.sMembers (createUserSessionsSetKey userId)) world none _ (fun fault impossible => by cases impossible)
    fun reply store answered => ?_))
  cases answered
  exact ⟨rfl, rfl, rfl⟩

theorem destroy_around_yields (order : Arrangement) (early late : List Removal) (userId : Text) (world : World) :
    Yields (engine hashtext) (do
      let rejected ← rejections (early.map Removal.promise)
      let read : Except Err (List Text) ← settle (redis (.sMembers (createUserSessionsSetKey userId)))
      match read with
      | .error reason => do
          let others ← rejections (late.map Removal.promise)
          rethrow (rejected ++ others ++ [reason])
          pure 0
      | .ok sessIDs => do
          let others ← rejections (order.arrange (SessionsService.deletions userId sessIDs ++ late.map Removal.promise))
          rethrow (rejected ++ others)
          pure sessIDs.length : Async Nat) world none fun _ left after =>
      after = none ∧ left.store.now = world.store.now ∧
        ∃ arranged : List Removal,
          arranged.Perm (bulkRemovals userId ((early.foldl SessionView.remove world.store.sessions).index userId) ++ late) ∧
          left.store.sessions = arranged.foldl SessionView.remove (early.foldl SessionView.remove world.store.sessions) := by
  refine yields_bind _ _ _ _ _ (yields_mono _ _ _ _ _ (removals_yield early world) ?_)
  rintro result left after ⟨rfl, rfl, -, time, view⟩
  refine yields_bind _ _ _ _ _ (yields_mono _ _ _ _ _ (settled_members userId left) ?_)
  rintro result next after ⟨rfl, rfl, rfl⟩
  obtain ⟨arranged, perm, promises⟩ := arranged_promises order (bulkRemovals userId (next.store.sessions.index userId) ++ late)
  rw [List.map_append, ← deletions_eq] at promises
  have rest : Yields (engine hashtext) (Prog.bind (rejections (order.arrange (SessionsService.deletions userId
      (next.store.sessions.index userId) ++ late.map Removal.promise))) fun others => Prog.bind (rethrow ([] ++ others)) fun _ =>
        (pure (next.store.sessions.index userId).length : Async Nat)) next none fun _ left after =>
      after = none ∧ left.store.now = world.store.now ∧
        ∃ arranged : List Removal,
          arranged.Perm (bulkRemovals userId ((early.foldl SessionView.remove world.store.sessions).index userId) ++ late) ∧
          left.store.sessions = arranged.foldl SessionView.remove (early.foldl SessionView.remove world.store.sessions) := by
    rw [promises]
    refine yields_bind _ _ _ _ _ (yields_mono _ _ _ _ _ (removals_yield arranged next) ?_)
    rintro result last after ⟨rfl, rfl, -, later, final⟩
    refine ⟨rfl, later.trans time, arranged, ?_, final.trans (by rw [view])⟩
    rw [← view]
    exact perm
  exact rest

theorem destroy_all_removals (order : Arrangement) (destroyedFirst : Bool) (req : SessionContext) (world : World) :
    Yields (engine hashtext) (SessionsService.destroyAll order destroyedFirst req) world none fun _ left after =>
      after = none ∧ left.store.now = world.store.now ∧
        ∃ arranged : List Removal,
          arranged.Perm ([req.sessionID].map Removal.record ++ bulkRemovals req.userId (world.store.sessions.index req.userId)) ∧
          left.store.sessions = arranged.foldl SessionView.remove world.store.sessions := by
  cases destroyedFirst with
  | true =>
      refine yields_mono _ _ _ _ _ (destroy_around_yields order [.record req.sessionID] [] req.userId world) ?_
      rintro result left after ⟨rfl, time, arranged, perm, view⟩
      refine ⟨rfl, time, .record req.sessionID :: arranged, ?_, view⟩
      rw [List.append_nil] at perm
      exact perm.cons _
  | false =>
      refine yields_mono _ _ _ _ _ (destroy_around_yields order [] [.record req.sessionID] req.userId world) ?_
      rintro result left after ⟨rfl, time, arranged, perm, view⟩
      exact ⟨rfl, time, arranged, perm.trans List.perm_append_comm, view⟩

theorem single_consistent (view : SessionView) (userId sid : Text) (removals arranged : List Removal)
    (consistent : view.Consistent) (recorded : view.record sid = some userId) (perm : arranged.Perm removals)
    (shape : ∀ removal, removal ∈ removals ↔ removal = .record sid ∨ removal = .relation sid ∨ removal = .member userId sid) :
    (arranged.foldl SessionView.remove view).Consistent := by
  have owned : view.relation sid = some ⟨userId, none⟩ := by simp [consistent.recorded, recorded]
  refine ended_consistent view userId _ arranged consistent (single_ends view userId sid arranged owned fun removal => ?_)
    fun other same => ?_
  · rw [perm.mem_iff, perm.mem_iff, shape, shape]
    tauto
  · rw [perm.mem_iff, shape]
    exact .inl (by rw [same])

theorem destroy_consistent (order : Arrangement) (req : SessionContext) (world : World)
    (consistent : world.store.sessions.Consistent) (recorded : world.store.sessions.record req.sessionID = some req.userId) :
    Yields (engine hashtext) (SessionsService.destroy order req) world none fun _ left after =>
      after = none ∧ left.store.sessions.Consistent := by
  refine yields_mono _ _ _ _ _ (destroy_removals order req world) ?_
  rintro result left after ⟨rfl, rfl, -, -, arranged, perm, view⟩
  refine ⟨rfl, ?_⟩
  rw [view]
  exact single_consistent _ _ _ _ arranged consistent recorded perm fun removal => by simp; tauto

theorem cleanup_consistent (order : Arrangement) (req : SessionContext) (world : World)
    (consistent : world.store.sessions.Consistent) (recorded : world.store.sessions.record req.sessionID = some req.userId) :
    Yields (engine hashtext) (SessionsService.trySessionCleanup order req) world none fun result left after =>
      result = .ok () ∧ after = none ∧ left.store.sessions.Consistent := by
  refine yields_mono _ _ _ _ _ (cleanup_removals order req world) ?_
  rintro result left after ⟨rfl, rfl, -, -, arranged, perm, view⟩
  refine ⟨rfl, rfl, ?_⟩
  rw [view]
  exact single_consistent _ _ _ _ arranged consistent recorded perm fun removal => by simp

theorem delete_all_consistent (order : Arrangement) (userId : Text) (world : World)
    (consistent : world.store.sessions.Consistent) :
    Yields (engine hashtext) (SessionsService.deleteAllIn order userId) world none fun _ left after =>
      after = none ∧ left.store.sessions.Consistent := by
  refine yields_mono _ _ _ _ _ (delete_all_removals order userId world) ?_
  rintro result left after ⟨rfl, -, arranged, perm, view⟩
  refine ⟨rfl, ?_⟩
  rw [view]
  refine ended_consistent _ userId _ arranged consistent ((bulk_ends _ userId [] consistent.toBound (by simp)).perm perm)
    fun sid listed => ?_
  rw [perm.mem_iff]
  simpa [bulkRemovals] using listed

theorem destroy_all_consistent (order : Arrangement) (destroyedFirst : Bool) (req : SessionContext) (world : World)
    (consistent : world.store.sessions.Consistent) (recorded : world.store.sessions.record req.sessionID = some req.userId) :
    Yields (engine hashtext) (SessionsService.destroyAll order destroyedFirst req) world none fun _ left after =>
      after = none ∧ left.store.sessions.Consistent := by
  refine yields_mono _ _ _ _ _ (destroy_all_removals order destroyedFirst req world) ?_
  rintro result left after ⟨rfl, -, arranged, perm, view⟩
  refine ⟨rfl, ?_⟩
  rw [view]
  have mine : ∀ sid ∈ [req.sessionID], sid ∈ world.store.sessions.index req.userId := by
    intro sid member
    rw [List.mem_singleton.mp member, consistent.related, consistent.recorded, recorded]
    rfl
  refine ended_consistent _ req.userId _ arranged consistent ((bulk_ends _ req.userId _ consistent.toBound mine).perm perm)
    fun sid listed => ?_
  rw [perm.mem_iff]
  simp [bulkRemovals, listed]

theorem sessions_saved (store : Redis) (sid userId : Text) (seconds : Int) (lasting : 0 < seconds) :
    Redis.sessions { store with
      strings := Function.update store.strings (createSessionKey sid) (some ⟨userId, some (store.now + seconds * 1000)⟩) } =
        { store.sessions with record := Function.update store.sessions.record sid (some userId) } := by
  simp only [Redis.sessions, SessionView.mk.injEq, and_true]
  refine ⟨funext fun other => ?_, funext fun other => ?_⟩
  · by_cases same : other = sid
    · subst same
      have later : store.now < store.now + seconds * 1000 := by omega
      simp [Redis.live, later]
    · simp only [Redis.live, Function.update_of_ne same, Function.update_of_ne (session_key_injective.ne same)]
  · exact Function.update_of_ne (session_relation_keys sid other).symm _ store.strings

theorem save_yields_record (sid userId : Text) (ttlSeconds : Int) (lasting : 0 < ttlSeconds) (world : World) :
    Yields (engine hashtext) (SessionsService.save sid userId ttlSeconds) world none fun _ left after =>
      after = none ∧ left.store.sessions =
        { world.store.sessions with record := Function.update world.store.sessions.record sid (some userId) } := by
  refine yields_bind _ _ _ _ _ (yields_catching _ _ _ _ _ (yields_bind _ _ _ _ _ (yields_cmd (S := schema)
    (C := Redis.commands) _ (RedisCmd.set (createSessionKey sid) userId (some ttlSeconds)) world none _
    (fun fault failed => ?_) fun reply store answered => ?_)))
  · simp [Redis.commands, Redis.exec, lasting] at failed
  · simp only [Redis.commands, Redis.exec, lasting, if_true] at answered
    cases answered
    exact ⟨rfl, sessions_saved world.store sid userId ttlSeconds lasting⟩

theorem create_yields_view (req : RequestContext) (userId : Text) (world : World)
    (absent : world.store.sessions.record req.sessionID = none) :
    Yields (engine hashtext) (SessionsService.create req userId) world none fun result left after =>
      result = .ok () ∧ after = none ∧ left.store.sessions =
        { world.store.sessions with
          relation := Function.update world.store.sessions.relation req.regenerated (some ⟨userId, none⟩)
          index := Function.update world.store.sessions.index userId
            ((world.store.sessions.index userId).insert req.regenerated) } := by
  refine yields_bind _ _ _ _ _ (yields_mono _ _ _ _ _ (promise_yields (.record req.sessionID) world) ?_)
  rintro result left after ⟨rfl, rfl, -, -, view⟩
  have unchanged : left.store.sessions = world.store.sessions := by
    rw [view, SessionView.remove, ← absent, Function.update_eq_self]
  refine yields_cmd (S := schema) (C := Redis.commands) _ (RedisCmd.multiStoreSetAdd
    (createSessionAndUserMappingKey req.regenerated) userId (createUserSessionsSetKey userId) req.regenerated) left none _
    (fun fault impossible => by cases impossible) fun reply store answered => ?_
  cases answered
  refine ⟨rfl, rfl, ?_⟩
  rw [← unchanged]
  simp only [Redis.sessions, SessionView.mk.injEq]
  refine ⟨funext fun other => ?_, funext fun other => ?_, funext fun owner => ?_⟩
  · simp only [Redis.live, Function.update_of_ne (session_relation_keys other req.regenerated)]
  · by_cases same : other = req.regenerated
    · simp [same]
    · simp [same, relation_key_injective.eq_iff]
  · by_cases same : owner = userId
    · simp [same]
    · simp [same, index_key_injective.eq_iff]

theorem created_consistent (view : SessionView) (sid userId : Text) (consistent : view.Consistent) (named : SessionName sid)
    (fresh : view.record sid = none) :
    (SessionView.mk (Function.update view.record sid (some userId)) (Function.update view.relation sid (some ⟨userId, none⟩))
      (Function.update view.index userId ((view.index userId).insert sid))).Consistent := by
  have unrelated : view.relation sid = none := by rw [consistent.recorded, fresh]; rfl
  have unlisted : ∀ owner, sid ∉ view.index owner := by
    intro owner listed
    rw [consistent.related, unrelated] at listed
    cases listed
  refine ⟨⟨fun owner => ?_, fun owner other => ?_, fun other entry => ?_, fun other entry => ?_⟩, fun other => ?_⟩
  · by_cases same : owner = userId
    · subst same
      simp [(consistent.nodup owner).insert]
    · simp [same, consistent.nodup]
  · by_cases newest : other = sid
    · subst newest
      by_cases same : owner = userId
      · simp [same]
      · simp [same, unlisted, Ne.symm same]
    · by_cases same : owner = userId
      · subst same
        simp [newest, consistent.related]
      · simp [same, newest, consistent.related]
  · by_cases newest : other = sid
    · simp only [newest, Function.update_self, Option.some.injEq]
      rintro rfl
      rfl
    · simp only [Function.update_of_ne newest]
      exact consistent.lasting other entry
  · by_cases newest : other = sid
    · exact fun _ => newest ▸ named
    · simp only [Function.update_of_ne newest]
      exact consistent.named other entry
  · by_cases newest : other = sid
    · simp [newest]
    · simp [newest, consistent.recorded]

theorem establish_consistent (req : RequestContext) (userId : Text) (ttlSeconds : Int) (lasting : 0 < ttlSeconds)
    (view : SessionView) (world : World) (consistent : view.Consistent) (named : SessionName req.regenerated)
    (fresh : view.record req.regenerated = none) (created : world.store.sessions = { view with
      relation := Function.update view.relation req.regenerated (some ⟨userId, none⟩)
      index := Function.update view.index userId ((view.index userId).insert req.regenerated) }) :
    Yields (engine hashtext) (SessionsService.save req.regenerated userId ttlSeconds) world none fun _ left _ =>
      left.store.sessions.Consistent := by
  refine yields_mono _ _ _ _ _ (save_yields_record req.regenerated userId ttlSeconds lasting world) ?_
  rintro result last after ⟨-, final⟩
  rw [final, created]
  exact created_consistent _ _ userId consistent named fresh

end Effects

end RateWise
