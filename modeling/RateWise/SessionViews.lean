import Mathlib.Data.List.Nodup
import RateWise.Sessions
import RateWise.Solo

set_option autoImplicit false

namespace RateWise

open Interleave
open ReadCommitted

-- What Redis holds of the sessions: the live records with their users, the
-- relations and the index of every user.
structure SessionView where
  record : Text → Option Text
  relation : Text → Option RedisEntry
  index : Text → List Text

def Redis.sessions (store : Redis) : SessionView where
  record sid := (store.live (createSessionKey sid)).map RedisEntry.value
  relation sid := store.strings (createSessionAndUserMappingKey sid)
  index userId := store.sets (createUserSessionsSetKey userId)

inductive Removal where
  | record (sid : Text)
  | relation (sid : Text)
  | index (userId : Text)
  | member (userId sid : Text)
deriving DecidableEq

def Removal.promise : Removal → Async Unit
  | .record sid => SessionsService.delete (createSessionKey sid)
  | .relation sid => SessionsService.delete (createSessionAndUserMappingKey sid)
  | .index userId => SessionsService.delete (createUserSessionsSetKey userId)
  | .member userId sid => SessionsService.setRem (createUserSessionsSetKey userId) sid

def SessionView.remove (view : SessionView) : Removal → SessionView
  | .record sid => { view with record := Function.update view.record sid none }
  | .relation sid => { view with relation := Function.update view.relation sid none }
  | .index userId => { view with index := Function.update view.index userId [] }
  | .member userId sid => { view with index := Function.update view.index userId ((view.index userId).erase sid) }

section Keys

theorem session_key_injective : Function.Injective createSessionKey := fun _ _ same => List.append_cancel_left same

theorem relation_key_injective : Function.Injective createSessionAndUserMappingKey :=
  fun _ _ same => List.append_cancel_left same

theorem index_key_injective : Function.Injective createUserSessionsSetKey := fun _ _ same => List.append_cancel_left same

theorem session_relation_keys (one two : Text) : createSessionKey one ≠ createSessionAndUserMappingKey two := by
  intro same
  have inner := congrArg (fun text : Text => text[4]?) same
  cases inner

theorem session_index_keys (one two : Text) : createSessionKey one ≠ createUserSessionsSetKey two := by
  intro same
  have inner := congrArg (fun text : Text => text[0]?) same
  cases inner

theorem relation_index_keys (one two : Text) : createSessionAndUserMappingKey one ≠ createUserSessionsSetKey two := by
  intro same
  have inner := congrArg (fun text : Text => text[0]?) same
  cases inner

theorem session_blacklist_keys (one two : Text) : createSessionKey one ≠ createBlacklistTokenKey two := by
  intro same
  have inner := congrArg (fun text : Text => text[0]?) same
  cases inner

theorem relation_blacklist_keys (one two : Text) : createSessionAndUserMappingKey one ≠ createBlacklistTokenKey two := by
  intro same
  have inner := congrArg (fun text : Text => text[0]?) same
  cases inner

end Keys

theorem remove_record (removals : List Removal) (view : SessionView) (sid : Text) :
    (removals.foldl SessionView.remove view).record sid = if .record sid ∈ removals then none else view.record sid := by
  induction removals generalizing view with
  | nil => rfl
  | cons first rest ih =>
      rw [List.foldl_cons, ih]
      by_cases later : Removal.record sid ∈ rest
      · simp [later]
      · simp only [later, if_false, List.mem_cons, or_false]
        cases first with
        | record other =>
            by_cases same : sid = other
            · subst same
              simp [SessionView.remove]
            · simp [SessionView.remove, same]
        | relation other => simp [SessionView.remove]
        | index other => simp [SessionView.remove]
        | member owner other => simp [SessionView.remove]

theorem remove_relation (removals : List Removal) (view : SessionView) (sid : Text) :
    (removals.foldl SessionView.remove view).relation sid = if .relation sid ∈ removals then none else view.relation sid := by
  induction removals generalizing view with
  | nil => rfl
  | cons first rest ih =>
      rw [List.foldl_cons, ih]
      by_cases later : Removal.relation sid ∈ rest
      · simp [later]
      · simp only [later, if_false, List.mem_cons, or_false]
        cases first with
        | relation other =>
            by_cases same : sid = other
            · subst same
              simp [SessionView.remove]
            · simp [SessionView.remove, same]
        | record other => simp [SessionView.remove]
        | index other => simp [SessionView.remove]
        | member owner other => simp [SessionView.remove]

theorem remove_step_index (view : SessionView) (first : Removal) (userId : Text) (nodup : (view.index userId).Nodup) :
    ((view.remove first).index userId).Nodup ∧ ∀ sid, sid ∈ (view.remove first).index userId ↔
      sid ∈ view.index userId ∧ first ≠ .index userId ∧ first ≠ .member userId sid := by
  cases first with
  | record other => simp [SessionView.remove, nodup]
  | relation other => simp [SessionView.remove, nodup]
  | index other =>
      by_cases same : userId = other
      · subst same
        simp [SessionView.remove]
      · simp [SessionView.remove, same, nodup, Ne.symm same]
  | member owner other =>
      by_cases same : userId = owner
      · subst same
        refine ⟨by simpa [SessionView.remove] using nodup.erase other, fun sid => ?_⟩
        simp only [SessionView.remove, Function.update_self, nodup.mem_erase_iff]
        simp [and_comm, eq_comm]
      · simp [SessionView.remove, same, nodup, Ne.symm same]

theorem remove_index (removals : List Removal) (view : SessionView) (userId : Text) (nodup : (view.index userId).Nodup) :
    ((removals.foldl SessionView.remove view).index userId).Nodup ∧
      ∀ sid, sid ∈ (removals.foldl SessionView.remove view).index userId ↔
        sid ∈ view.index userId ∧ .index userId ∉ removals ∧ .member userId sid ∉ removals := by
  induction removals generalizing view with
  | nil => simp [nodup]
  | cons first rest ih =>
      obtain ⟨kept, members⟩ := remove_step_index view first userId nodup
      obtain ⟨unique, remaining⟩ := ih (view.remove first) kept
      refine ⟨unique, fun sid => ?_⟩
      rw [List.foldl_cons, remaining, members]
      simp only [List.mem_cons, not_or]
      constructor
      · rintro ⟨⟨before, notIndex, notMember⟩, index, member⟩
        exact ⟨before, ⟨fun same => notIndex same.symm, index⟩, fun same => notMember same.symm, member⟩
      · rintro ⟨before, ⟨notIndex, index⟩, notMember, member⟩
        exact ⟨⟨before, fun same => notIndex same.symm, fun same => notMember same.symm⟩, index, member⟩

theorem perm_of_map {α β : Type} (f : α → β) (source : List α) (images : List β) (perm : images.Perm (source.map f)) :
    ∃ arranged : List α, arranged.Perm source ∧ images = arranged.map f := by
  generalize mapped : source.map f = target at perm
  induction perm generalizing source with
  | nil =>
      rw [List.map_eq_nil_iff] at mapped
      exact ⟨[], by rw [mapped], rfl⟩
  | cons image rest ih =>
      obtain ⟨first, others, rfl, rfl, sameRest⟩ := List.map_eq_cons_iff.mp mapped
      obtain ⟨arranged, perm, rfl⟩ := ih others sameRest
      exact ⟨first :: arranged, perm.cons first, rfl⟩
  | swap one two rest =>
      obtain ⟨first, others, rfl, rfl, sameRest⟩ := List.map_eq_cons_iff.mp mapped
      obtain ⟨second, last, rfl, rfl, rfl⟩ := List.map_eq_cons_iff.mp sameRest
      exact ⟨second :: first :: last, .swap first second last, rfl⟩
  | trans before after first second =>
      obtain ⟨middle, perm, same⟩ := second source mapped
      obtain ⟨arranged, moved, rfl⟩ := first middle same.symm
      exact ⟨arranged, moved.trans perm, rfl⟩

theorem arranged_promises (order : Arrangement) (removals : List Removal) :
    ∃ arranged : List Removal, arranged.Perm removals ∧
      order.arrange (removals.map Removal.promise) = arranged.map Removal.promise :=
  perm_of_map Removal.promise removals _ (order.perm _)

def Redis.without (store : Redis) (key : Text) : Redis :=
  { store with
    strings := Function.update store.strings key none
    sets := Function.update store.sets key [] }

theorem live_without (store : Redis) (key other : Text) :
    (store.without key).live other = if other = key then none else store.live other := by
  unfold Redis.live Redis.without
  by_cases same : other = key
  · subst same
    simp
  · simp [same]

theorem sessions_without_record (store : Redis) (sid : Text) :
    (store.without (createSessionKey sid)).sessions = store.sessions.remove (.record sid) := by
  simp only [Redis.sessions, SessionView.remove, SessionView.mk.injEq]
  refine ⟨funext fun other => ?_, funext fun other => ?_, funext fun owner => ?_⟩
  · rw [live_without]
    by_cases same : other = sid
    · simp [same]
    · simp [same, session_key_injective.eq_iff]
  · exact Function.update_of_ne (session_relation_keys sid other).symm none store.strings
  · exact Function.update_of_ne (session_index_keys sid owner).symm [] store.sets

theorem sessions_without_relation (store : Redis) (sid : Text) :
    (store.without (createSessionAndUserMappingKey sid)).sessions = store.sessions.remove (.relation sid) := by
  simp only [Redis.sessions, SessionView.remove, SessionView.mk.injEq]
  refine ⟨funext fun other => ?_, funext fun other => ?_, funext fun owner => ?_⟩
  · rw [live_without, if_neg (session_relation_keys other sid)]
  · by_cases same : other = sid
    · simp [same, Redis.without]
    · simp [same, Redis.without, relation_key_injective.eq_iff]
  · exact Function.update_of_ne (relation_index_keys sid owner).symm [] store.sets

theorem sessions_without_index (store : Redis) (userId : Text) :
    (store.without (createUserSessionsSetKey userId)).sessions = store.sessions.remove (.index userId) := by
  simp only [Redis.sessions, SessionView.remove, SessionView.mk.injEq]
  refine ⟨funext fun other => ?_, funext fun other => ?_, funext fun owner => ?_⟩
  · rw [live_without, if_neg (session_index_keys other userId)]
  · exact Function.update_of_ne (relation_index_keys other userId) none store.strings
  · by_cases same : owner = userId
    · simp [same, Redis.without]
    · simp [same, Redis.without, index_key_injective.eq_iff]

section Promises

variable {hashtext : Text → Int32}

theorem delete_without (key : Text) (world : World) :
    Yields (engine hashtext) (SessionsService.delete key) world none fun result left after =>
      result = .ok () ∧ after = none ∧ left = ⟨world.db, world.store.without key⟩ := by
  refine yields_bind _ _ _ _ _ (yields_cmd (S := schema) (C := Redis.commands) _ (RedisCmd.del key) world none _
    (fun fault impossible => by cases impossible) fun reply store answered => ?_)
  cases answered
  exact ⟨rfl, rfl, rfl⟩

theorem set_rem_yields (key member : Text) (world : World) :
    Yields (engine hashtext) (SessionsService.setRem key member) world none fun result left after =>
      result = .ok () ∧ after = none ∧ left = ⟨world.db, { world.store with
        sets := Function.update world.store.sets key ((world.store.sets key).erase member) }⟩ := by
  refine yields_cmd (S := schema) (C := Redis.commands) _ (RedisCmd.setRem key member) world none _
    (fun fault impossible => by cases impossible) fun reply store answered => ?_
  cases answered
  exact ⟨rfl, rfl, rfl⟩

theorem promise_yields (removal : Removal) (world : World) :
    Yields (engine hashtext) removal.promise world none fun result left after =>
      result = .ok () ∧ after = none ∧ left.db = world.db ∧ left.store.now = world.store.now ∧
        left.store.sessions = world.store.sessions.remove removal := by
  cases removal with
  | record sid =>
      refine yields_mono _ _ _ _ _ (delete_without (createSessionKey sid) world) ?_
      rintro result left after ⟨rfl, rfl, rfl⟩
      exact ⟨rfl, rfl, rfl, rfl, sessions_without_record _ sid⟩
  | relation sid =>
      refine yields_mono _ _ _ _ _ (delete_without (createSessionAndUserMappingKey sid) world) ?_
      rintro result left after ⟨rfl, rfl, rfl⟩
      exact ⟨rfl, rfl, rfl, rfl, sessions_without_relation _ sid⟩
  | index userId =>
      refine yields_mono _ _ _ _ _ (delete_without (createUserSessionsSetKey userId) world) ?_
      rintro result left after ⟨rfl, rfl, rfl⟩
      exact ⟨rfl, rfl, rfl, rfl, sessions_without_index _ userId⟩
  | member userId sid =>
      refine yields_mono _ _ _ _ _ (set_rem_yields (createUserSessionsSetKey userId) sid world) ?_
      rintro result left after ⟨rfl, rfl, rfl⟩
      refine ⟨rfl, rfl, rfl, rfl, ?_⟩
      refine congrArg (SessionView.mk _ _) (funext fun owner => ?_)
      by_cases same : owner = userId
      · simp [same, Redis.sessions]
      · simp only [Function.update_of_ne same, Function.update_of_ne (index_key_injective.ne same)]
        rfl

theorem removals_yield (removals : List Removal) (world : World) :
    Yields (engine hashtext) (rejections (removals.map Removal.promise)) world none fun result left after =>
      result = .ok [] ∧ after = none ∧ left.db = world.db ∧ left.store.now = world.store.now ∧
        left.store.sessions = removals.foldl SessionView.remove world.store.sessions := by
  induction removals generalizing world with
  | nil => exact ⟨rfl, rfl, rfl, rfl, rfl⟩
  | cons removal rest ih =>
      refine yields_bind _ _ _ _ _ (yields_catching _ _ _ _ _ (yields_bind _ _ _ _ _
        (yields_mono _ _ _ _ _ (promise_yields removal world) ?_)))
      rintro result left after ⟨rfl, rfl, rows, time, view⟩
      have others : Yields (engine hashtext) (Prog.bind (rejections (rest.map Removal.promise)) fun others =>
          (pure ([] ++ others) : Async (List Err))) left none fun result last after =>
            result = .ok [] ∧ after = none ∧ last.db = world.db ∧ last.store.now = world.store.now ∧
              last.store.sessions = (removal :: rest).foldl SessionView.remove world.store.sessions := by
        refine yields_bind _ _ _ _ _ (yields_mono _ _ _ _ _ (ih left) ?_)
        rintro result last after ⟨rfl, rfl, sameRows, sameTime, sameView⟩
        exact ⟨rfl, rfl, sameRows.trans rows, sameTime.trans time, sameView.trans (by rw [view, List.foldl_cons])⟩
      exact others

theorem settled_removals_yield (order : Arrangement) (removals : List Removal) (world : World) :
    Yields (engine hashtext) (runSettledOrThrow (order.arrange (removals.map Removal.promise))) world none
      fun result left after => result = .ok () ∧ after = none ∧ left.db = world.db ∧ left.store.now = world.store.now ∧
        ∃ arranged : List Removal, arranged.Perm removals ∧
          left.store.sessions = arranged.foldl SessionView.remove world.store.sessions := by
  obtain ⟨arranged, perm, same⟩ := arranged_promises order removals
  rw [same]
  refine yields_bind _ _ _ _ _ (yields_mono _ _ _ _ _ (removals_yield arranged world) ?_)
  rintro result left after ⟨rfl, rfl, rows, time, view⟩
  exact ⟨rfl, rfl, rows, time, arranged, perm, view⟩

end Promises

end RateWise
