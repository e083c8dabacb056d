import RateWise.SiteDurability

set_option autoImplicit false

namespace RateWise

open Interleave
open ReadCommitted

-- The request loads the account with this id and saves it with another status.
def Resaves (config : SiteConfig) (request : SiteRequest) (id : Uuid) : Prop :=
  (∃ caller userId, (request = .suspendAccount caller userId ∨ request = .reactivateAccount caller userId) ∧
    uuidIn userId = some id) ∨
  ∃ token payload, request = .verifyAccount (some token) ∧ token.Passes config.auth.accountVerificationToken payload ∧
    uuidIn payload.id = some id

def Departed (id : Uuid) (t : Tables) : Prop := ∀ row ∈ t.accounts, row.id ≠ id

theorem grades_resave (config : SiteConfig) (good : Tables → Prop) (request : SiteRequest) (user : Account) (status : AccountStatus)
    (grades : Grades config good request user status) : Resaves config request user.id := by
  cases grades with
  | suspends caller userId moderator user admitted target passed => exact .inl ⟨caller, userId, .inl rfl, target⟩
  | reactivates caller userId moderator user admitted target passed => exact .inl ⟨caller, userId, .inr rfl, target⟩
  | verifies token payload user passes target passed => exact .inr ⟨token, payload, rfl, passes, target⟩

-- An account that is gone comes back only by a draw of its id, or by a save of
-- the entity that a request has loaded before.
theorem departed_apply (config : SiteConfig) (good : Tables → Prop) (request : SiteRequest) (id : Uuid)
    (undrawn : ∀ row, request.Draws row → row.id ≠ id) (unsaved : ¬ Resaves config request id) (t : Tables) (w : Write)
    (may : May config good request w) (gone : Departed id t) : Departed id (t.apply w) := by
  cases may_accounts config good request w may with
  | draws row drawn =>
      intro other stored
      rcases List.mem_append.mp stored with old | new
      · exact gone other old
      · rw [List.mem_singleton.mp new]
        exact undrawn row drawn
  | other w adds => exact fun row stored => gone row (adds t stored)
  | grades user status w known grades saves =>
      have other : user.id ≠ id := fun same => unsaved (same ▸ grades_resave config good request user status grades)
      cases saves with
      | inserts rows held absent =>
          intro row stored
          rcases List.mem_append.mp stored with old | new
          · exact gone row old
          · rw [List.mem_singleton.mp new]
            exact other
      | updates row known same =>
          intro row stored
          obtain ⟨before, old, rfl⟩ := List.mem_map.mp stored
          have kept := gone before old
          split <;> exact kept

section Runs

variable {n : Nat} {hashtext : Text → Int32}

theorem departed_owns_nothing (t : Tables) (id : Uuid) (references : t.References) (gone : Departed id t) :
    (∀ item ∈ t.items, item.createdBy ≠ id) ∧ (∀ row ∈ t.reviews, row.createdBy ≠ id) ∧ ∀ vote ∈ t.votes, vote.createdBy ≠ id := by
  have ownerless : ∀ owner, t.HasAccount owner → owner ≠ id := by
    rintro owner ⟨row, stored, named⟩ same
    exact gone row stored (named.trans same)
  exact ⟨fun item stored => ownerless _ (references.itemAccounts item stored),
    fun row stored => ownerless _ (references.reviewAccounts row.key ⟨row, stored, rfl⟩),
    fun vote stored => ownerless _ (references.voteAccounts vote stored)⟩

-- A save of an entity that was loaded before the deletion inserts the row again.
theorem erased_accounts_stay_erased (hashtext : Text → Int32) (config : SiteConfig) (requests : Fin n → SiteRequest) (world : World)
    (references : world.db.References) (early late : List (SiteMove hashtext n)) (middle last : SiteNet hashtext n)
    (before : run (siteStart hashtext config requests world) early = some middle) (after : run middle late = some last) (id : Uuid)
    (gone : Departed id middle.world.db) (undrawn : ∀ i row, (requests i).Draws row → row.id ≠ id)
    (unsaved : ∀ i, ¬ Resaves config (requests i) id) :
    Departed id last.world.db ∧ (∀ item ∈ last.world.db.items, item.createdBy ≠ id) ∧
      (∀ row ∈ last.world.db.reviews, row.createdBy ≠ id) ∧ ∀ vote ∈ last.world.db.votes, vote.createdBy ≠ id := by
  have whole : run (siteStart hashtext config requests world) (early ++ late) = some last := by
    rw [run_append, before]
    exact after
  have still : Departed id last.world.db := site_kept config requests (fun _ => True) (Departed id) (fun _ _ _ _ _ => trivial)
    (fun t w i _ may gone => departed_apply config _ (requests i) id (undrawn i) (unsaved i) t w may gone) world trivial
    early late middle last before gone after
  exact ⟨still, departed_owns_nothing _ id (site_constraint Tables.references config requests world references _ last whole) still⟩

end Runs

-- The reviewer follows her deletion link while an item of hers is on its way.
def farewellRequests : Fin 2 → SiteRequest
  | ⟨0, _⟩ => .deleteAccount (some (.signed staffedConfig.auth.accountDeletionToken.secret
      ⟨some staffedConfig.auth.accountDeletionToken.purpose, some "j1".toList, some 0, some 3600, TokensService.identity reviewerId.text⟩))
  | ⟨_ + 1, _⟩ => .createItem ritaCaller ⟨⟨"brass lamp".toList, "a lamp to read by".toList, "home".toList, []⟩, none⟩ ⟨member, 2⟩

def farewellMoves : List (SiteMove (fun _ => 0) 2) := List.replicate 3 .second ++ List.replicate 9 .first

theorem farewell_unsaved (i : Fin 2) : ¬ Resaves staffedConfig (farewellRequests i) reviewerId := by
  obtain ⟨_ | _, _⟩ := i <;> rintro (⟨caller, userId, impossible | impossible, -⟩ | ⟨token, payload, impossible, -⟩) <;> cases impossible

-- The item has passed the guards before the deletion and is refused after it.
theorem erased_accounts_stay_erased_farewell :
    ∃ middle last, run (siteStart (fun _ => 0) staffedConfig farewellRequests staffedWorld) farewellMoves = some middle ∧
      run middle (List.replicate 3 .second) = some last ∧ (last.sessions 1).outcome.isSome ∧
      Departed reviewerId last.world.db ∧ ∀ item ∈ last.world.db.items, item.createdBy ≠ reviewerId := by
  obtain ⟨middle, before, gone, rest⟩ := run_exists (siteStart (fun _ => 0) staffedConfig farewellRequests staffedWorld) farewellMoves
    (fun net => (∀ row ∈ net.world.db.accounts, row.id ≠ reviewerId) ∧
      (run net (List.replicate 3 .second)).any fun net => (net.sessions 1).outcome.isSome) (by decide)
  obtain ⟨last, after, ended⟩ := Option.any_eq_true _ _ |>.mp rest
  have references : staffedWorld.db.References := ⟨fun item stored => (by cases stored), fun key held => (by
    obtain ⟨row, stored, -⟩ := held
    cases stored), fun key held => (by
    obtain ⟨row, stored, -⟩ := held
    cases stored), .nil, fun v stored => by cases stored⟩
  obtain ⟨still, items, -⟩ := erased_accounts_stay_erased (fun _ => 0) staffedConfig farewellRequests staffedWorld references
    farewellMoves _ middle last before after reviewerId gone (fun i row drawn => by
      obtain ⟨_ | _, _⟩ := i <;> cases drawn) farewell_unsaved
  exact ⟨middle, last, before, after, ended, still, items⟩

end RateWise
