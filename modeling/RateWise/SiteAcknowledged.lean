import RateWise.Acknowledgement
import RateWise.SiteDurability
import RateWise.SiteAtomicity
import RateWise.UniqueRows

set_option autoImplicit false

namespace RateWise

open Interleave
open ReadCommitted

def Write.insertsAccount (w : Write) : Prop := ∃ row, w = .insertAccount row

def Write.insertsItem (w : Write) : Prop := ∃ row, w = .insertItem row

def Write.insertsReview (w : Write) : Prop := ∃ row, w = .insertReview row

section Deliveries

variable (change : Write → Prop)

theorem save_delivers (s : Sql) (made : Prop) (makes : @Makes schema Redis.commands Text change (.sql s)) :
    Delivers (S := schema) change false made (transaction (sql s)) :=
  ⟨fun _ => trivial, fun _ => .inl (.inr ⟨rfl, makes⟩)⟩

theorem guarded_delivers (route : Route) (caller : Caller) (handler : SessionContext → AuthenticatedUser → Async Unit)
    (delivers : ∀ req user made, Delivers (S := schema) change false made (handler req user)) :
    Delivers (S := schema) change false False (guarded route caller handler) := by
  refine delivers_after _ _ _ _ (fun _ => True) _ _ (mute_check_access route caller) fun user _ made => ?_
  cases user with
  | none => trivial
  | some user =>
      cases AuthGuard.signedIn caller.session with
      | none => trivial
      | some req => exact delivers req user made

theorem sign_up_delivers (input : SignUpInput) (row : Generated) (req : RequestContext) :
    Delivers (S := schema) Write.insertsAccount false False (discard (AuthService.signUp input row req)) := by
  refine delivers_then _ _ _ _ _ (delivers_then _ _ _ _ _ (delivers_catching _ _ _ _ _
    (delivers_then _ _ _ _ _ (save_delivers _ _ _ fun rows _ => ?_)) fun _ _ _ => trivial))
  exact ⟨_, List.mem_singleton_self _, _, rfl⟩

theorem create_item_delivers (item : RawItemInput) (user : AuthenticatedUser) (row : Generated) (made : Prop) :
    Delivers (S := schema) Write.insertsItem false made (ItemsService.createFrom item user row) := by
  refine delivers_catching _ _ _ _ _ (save_delivers _ _ _ fun rows _ => ?_) fun _ _ _ => trivial
  refine ⟨.insertItem ⟨row, item.title, item.description, item.category, item.tags, user.id⟩, ?_, _, rfl⟩
  have parsed : itemRow row item.title item.description item.category item.tags user.id.text =
      some ⟨row, item.title, item.description, item.category, item.tags, user.id⟩ := by
    simp [itemRow, uuid_in_text]
  show _ ∈ (itemRow row item.title item.description item.category item.tags user.id.text).toList.map Write.insertItem
  rw [parsed]
  exact List.mem_singleton_self _

theorem create_review_delivers (reviewData : RawReviewInput) (user : AuthenticatedUser) (row : Generated) (made : Prop) :
    Delivers (S := schema) Write.insertsReview false made (ReviewService.createFrom reviewData user row) := by
  refine delivers_after _ _ _ _ (fun _ => True) _ _ (find_item_silent reviewData.itemId) fun item _ made => ?_
  · by_cases own : item.createdBy = user.id
    · simp only [own, if_true]
      trivial
    · simp only [own, if_false]
      refine delivers_catching _ _ _ _ _ (save_delivers _ _ _ fun rows _ => ?_) fun _ _ _ => trivial
      refine ⟨.insertReview ⟨row, reviewData.content, reviewData.rating, 0, 0, user.id, item.id⟩, ?_, _, rfl⟩
      have parsed : reviewRow row reviewData.content reviewData.rating user.id.text item.id.text =
          some ⟨row, reviewData.content, reviewData.rating, 0, 0, user.id, item.id⟩ := by
        simp [reviewRow, uuid_in_text]
      show _ ∈ (reviewRow row reviewData.content reviewData.rating user.id.text item.id.text).toList.map Write.insertReview
      rw [parsed]
      exact List.mem_singleton_self _

end Deliveries

section Runs

variable {n : Nat} {hashtext : Text → Int32}

def requestRule (config : SiteConfig) (request : SiteRequest) (P : Tables → Prop)
    (kept : ∀ t w, P t → May config P request w → P (t.apply w)) : RowRule schema where
  Good := P
  Lawful := May config P request
  good_apply := kept

theorem site_acknowledged (config : SiteConfig) (requests : Fin n → SiteRequest) (P Q : Tables → Prop)
    (kept : ∀ t w i, P t → May config P (requests i) w → P (t.apply w)) (world : World) (start : P world.db) (i : Fin n)
    (change : Write → Prop) (delivers : Delivers (S := schema) change false False ((requests i).program config))
    (lands : ∀ t w, P t → May config P (requests i) w → change w → Q (t.apply w))
    (stays : ∀ t w k, P t → May config P (requests k) w → Q t → Q (t.apply w)) (moves : List (SiteMove hashtext n))
    (last : SiteNet hashtext n) (reached : run (siteStart hashtext config requests world) moves = some last)
    (returned : (last.sessions i).outcome = some (.ok ())) : Q last.world.db := by
  refine run_acknowledged (siteRule config requests P kept) (requestRule config (requests i) P fun t w => kept t w i)
    (fun _ good => good) change Q lands (fun t w good ⟨k, may⟩ => stays t w k good may) (siteStart hashtext config requests world)
    last moves i () (site_upheld config requests P kept world start [] _ rfl) ⟨?_, fun w none => by cases none⟩
    ⟨False, delivers, False.elim⟩ reached returned
  exact site_request_obeys (requestRule config (requests i) P fun t w => kept t w i) config (requests i) fun _ may => may

-- What a sign-up, an item or a review that has been answered leaves behind. The
-- account that it is about may have been erased since.
def Fulfilled (start : Tables) (requests : Fin n → SiteRequest) (config : SiteConfig) (t : Tables) : SiteRequest → Prop
  | .signUp input row _ =>
      (∃ later ∈ t.accounts, later = { newAccount input row with status := later.status }) ∨ Erased requests config row.id
  | .createItem caller item row => ∃ req user, AuthGuard.signedIn caller.session = some req ∧ uuidIn req.userId = some user ∧
      (⟨row, item.title, item.description, item.category, item.tags, user⟩ ∈ t.items ∨ Erased requests config user)
  | .createReview caller reviewData row => ∃ req user item, AuthGuard.signedIn caller.session = some req ∧
      uuidIn req.userId = some user ∧ uuidIn reviewData.itemId = some item ∧
      ((∃ later ∈ t.reviews, later.uncounted = ⟨row, reviewData.content, reviewData.rating, 0, 0, user, item⟩) ∨
        ReviewErased start requests config ⟨row.id, user, item⟩)
  | _ => True

section Kinds

variable (config : SiteConfig) (requests : Fin n → SiteRequest) (world : World) (fresh : FreshAccounts world.db requests)
  (distinct : FreshContent world.db requests config) (moves : List (SiteMove hashtext n)) (last : SiteNet hashtext n)
  (reached : run (siteStart hashtext config requests world) moves = some last) (i : Fin n)
  (returned : (last.sessions i).outcome = some (.ok ()))

include fresh reached returned

theorem acknowledged_sign_up (input : SignUpInput) (row : Generated) (req : RequestContext)
    (asked : requests i = .signUp input row req) :
    Fulfilled world.db requests config last.world.db (.signUp input row req) := by
  by_cases erased : Erased requests config row.id
  · exact .inr erased
  have drawn : OnRecord world.db requests (newAccount input row) := .inr ⟨i, by rw [asked]; exact .signUp input row req⟩
  obtain ⟨later, listed, same⟩ := site_acknowledged config requests (Traceable world.db requests config)
    (fun t => ∃ later ∈ t.accounts, later.unstatused = (newAccount input row).unstatused)
    (fun t w k traceable may => traceable_apply world.db requests config fresh t w k traceable may) world
    (initially_traceable world.db requests config) i Write.insertsAccount
    (by rw [asked]; exact sign_up_delivers input row req)
    (fun t w _ may inserts => by
      obtain ⟨added, rfl⟩ := inserts
      rw [asked] at may
      cases may
      exact ⟨_, List.mem_append_right _ (List.mem_singleton_self _), rfl⟩)
    (fun t w k traceable may held => account_stays world.db requests config fresh (newAccount input row)
      ⟨⟨_, drawn, rfl⟩, .inl drawn⟩ erased t w k traceable may held) moves last reached returned
  exact .inl ⟨later, listed, restated _ later same.symm⟩

include distinct

theorem acknowledged_item (caller : Caller) (item : RawItemInput) (row : Generated)
    (asked : requests i = .createItem caller item row) :
    Fulfilled world.db requests config last.world.db (.createItem caller item row) := by
  obtain ⟨req, user, signed, named, -, held⟩ := site_acknowledged config requests (Traceable world.db requests config)
    (fun t => ∃ req user, AuthGuard.signedIn caller.session = some req ∧ uuidIn req.userId = some user ∧
      ItemFrom world.db requests config ⟨row, item.title, item.description, item.category, item.tags, user⟩ ∧
      (⟨row, item.title, item.description, item.category, item.tags, user⟩ ∈ t.items ∨ Erased requests config user))
    (fun t w k traceable may => traceable_apply world.db requests config fresh t w k traceable may) world
    (initially_traceable world.db requests config) i Write.insertsItem
    (by rw [asked]; exact guarded_delivers _ _ caller _ fun _ user made => create_item_delivers item user row made)
    (fun t w _ may inserts => by
      have origin := may_originate world.db requests config i w may
      obtain ⟨added, rfl⟩ := inserts
      rw [asked] at may
      cases may with
      | createsItem _ _ _ user admitted =>
          obtain ⟨req, signed, named⟩ := admitted.named
          exact ⟨req, user.id, signed, named, origin, .inl (List.mem_append_right _ (List.mem_singleton_self _))⟩)
    (fun t w k _ may held => by
      obtain ⟨req, user, signed, named, origin, stored⟩ := held
      refine ⟨req, user, signed, named, origin, ?_⟩
      by_cases erased : Erased requests config user
      · exact .inr erased
      · exact .inl (item_stays world.db requests config distinct _ origin erased t w k may (stored.resolve_right erased)))
    moves last reached returned
  exact ⟨req, user, signed, named, held⟩

theorem acknowledged_review (caller : Caller) (reviewData : RawReviewInput) (row : Generated)
    (asked : requests i = .createReview caller reviewData row) :
    Fulfilled world.db requests config last.world.db (.createReview caller reviewData row) := by
  obtain ⟨req, user, item, signed, named, target, -, held⟩ := site_acknowledged config requests
    (Traceable world.db requests config)
    (fun t => ∃ req user item, AuthGuard.signedIn caller.session = some req ∧ uuidIn req.userId = some user ∧
      uuidIn reviewData.itemId = some item ∧
      ReviewFrom world.db requests config ⟨row, reviewData.content, reviewData.rating, 0, 0, user, item⟩ ∧
      ((∃ later ∈ t.reviews, later.uncounted = ⟨row, reviewData.content, reviewData.rating, 0, 0, user, item⟩) ∨
        ReviewErased world.db requests config ⟨row.id, user, item⟩))
    (fun t w k traceable may => traceable_apply world.db requests config fresh t w k traceable may) world
    (initially_traceable world.db requests config) i Write.insertsReview
    (by rw [asked]; exact guarded_delivers _ _ caller _ fun _ user made => create_review_delivers reviewData user row made)
    (fun t w _ may inserts => by
      have origin := may_originate world.db requests config i w may
      obtain ⟨added, rfl⟩ := inserts
      rw [asked] at may
      cases may with
      | createsReview _ _ _ user item admitted known target foreign =>
          obtain ⟨req, signed, named⟩ := admitted.named
          exact ⟨req, user.id, item.id, signed, named, target, origin,
            .inl ⟨_, List.mem_append_right _ (List.mem_singleton_self _), rfl⟩⟩)
    (fun t w k _ may held => by
      obtain ⟨req, user, item, signed, named, target, origin, stored⟩ := held
      refine ⟨req, user, item, signed, named, target, origin, ?_⟩
      by_cases erased : ReviewErased world.db requests config ⟨row.id, user, item⟩
      · exact .inr erased
      · exact .inl (review_stays world.db requests config distinct _ origin erased t w k may (stored.resolve_right erased)))
    moves last reached returned
  exact ⟨req, user, item, signed, named, target, held⟩

end Kinds

-- A sign-up, an item or a review that was answered with success is in the tables
-- from then on, with the columns that were asked for, until it is erased.
theorem acknowledged_rows_stored (hashtext : Text → Int32) (config : SiteConfig) (requests : Fin n → SiteRequest) (world : World)
    (fresh : FreshAccounts world.db requests) (distinct : FreshContent world.db requests config)
    (moves : List (SiteMove hashtext n)) (last : SiteNet hashtext n)
    (reached : run (siteStart hashtext config requests world) moves = some last) (i : Fin n)
    (returned : (last.sessions i).outcome = some (.ok ())) : Fulfilled world.db requests config last.world.db (requests i) := by
  cases asked : requests i with
  | signUp input row req => exact acknowledged_sign_up config requests world fresh moves last reached i returned input row req asked
  | createItem caller item row =>
      exact acknowledged_item config requests world fresh distinct moves last reached i returned caller item row asked
  | createReview caller reviewData row =>
      exact acknowledged_review config requests world fresh distinct moves last reached i returned caller reviewData row asked
  | _ => trivial

-- The reviewer is told that her item is there, and it is.
theorem acknowledged_rows_stored_item :
    ∃ last, run (siteStart (fun _ => 0) staffedConfig suspensionRequests staffedWorld) (List.replicate 6 .second) = some last ∧
      (∃ item ∈ last.world.db.items, item.createdBy = reviewerId) ∧
      Fulfilled staffedWorld.db suspensionRequests staffedConfig last.world.db (suspensionRequests 1) := by
  obtain ⟨last, reached, returned, stored⟩ := run_exists (siteStart (fun _ => 0) staffedConfig suspensionRequests staffedWorld)
    (List.replicate 6 .second) (fun net => (net.sessions 1).outcome = some (.ok ()) ∧
      ∃ item ∈ net.world.db.items, item.createdBy = reviewerId) (by decide)
  exact ⟨last, reached, stored, acknowledged_rows_stored (fun _ => 0) staffedConfig _ staffedWorld suspension_fresh
    suspension_distinct _ last reached 1 returned⟩

end Runs

section Names

variable {n : Nat} {hashtext : Text → Int32}

theorem sign_ups_exclusive (hashtext : Text → Int32) (config : SiteConfig) (requests : Fin n → SiteRequest) (world : World)
    (unique : world.db.UniqueRows) (fresh : FreshAccounts world.db requests) (moves : List (SiteMove hashtext n))
    (last : SiteNet hashtext n) (reached : run (siteStart hashtext config requests world) moves = some last) :
    last.world.db.UniqueRows ∧ ∀ i j (input other : SignUpInput) (row row' : Generated) (req req' : RequestContext),
      requests i = .signUp input row req → requests j = .signUp other row' req' → row.id ≠ row'.id →
      (last.sessions i).outcome = some (.ok ()) → (last.sessions j).outcome = some (.ok ()) →
      input.username = other.username ∨ input.email = other.email →
      Erased requests config row.id ∨ Erased requests config row'.id := by
  have distinct := site_constraint Tables.uniqueRows config requests world unique moves last reached
  refine ⟨distinct, fun i j input other row row' req req' first second apart returned answered same => ?_⟩
  rcases acknowledged_sign_up config requests world fresh moves last reached i returned input row req first with
    ⟨a, storedA, whole⟩ | erased
  · rcases acknowledged_sign_up config requests world fresh moves last reached j answered other row' req' second with
      ⟨b, storedB, whole'⟩ | erased
    · have idA : a.id = row.id := by rw [whole]; rfl
      have idB : b.id = row'.id := by rw [whole']; rfl
      have nameA : a.username = input.username := by rw [whole]; rfl
      have nameB : b.username = other.username := by rw [whole']; rfl
      have addressA : a.email = input.email := by rw [whole]; rfl
      have addressB : b.email = other.email := by rw [whole']; rfl
      have differ : a ≠ b := fun equal => apart (by rw [← idA, ← idB, equal])
      obtain ⟨-, names, addresses⟩ := distinct.accounts.forall storedA storedB differ
      rcases same with name | address
      · exact absurd (nameA.trans (name.trans nameB.symm)) names
      · exact absurd (addressA.trans (address.trans addressB.symm)) addresses
    · exact .inr erased
  · exact .inl erased

def ottoSignUp : SignUpInput := ⟨"otto".toList, "otto@mail".toList, "hash".toList⟩

def rivalId : Uuid := ⟨"9c8b7a6d-5e4f-4d3c-8b2a-1f0e9d8c7b6a".toList, by decide⟩

-- Two visitors sign up as otto at once.
def rivalRequests : Fin 2 → SiteRequest
  | ⟨0, _⟩ => .signUp ottoSignUp ⟨member, 3⟩ ⟨"s0".toList, "s4".toList⟩
  | ⟨_ + 1, _⟩ => .signUp ottoSignUp ⟨rivalId, 4⟩ ⟨"s0".toList, "s5".toList⟩

def rivalMoves : List (SiteMove (fun _ => 0) 2) := [.first, .second] ++ List.replicate 4 .first ++ List.replicate 2 .second

theorem rival_fresh : FreshAccounts staffedWorld.db rivalRequests := by
  refine fresh_listed _ _ [reviewer, chief, newAccount ottoSignUp ⟨member, 3⟩, newAccount ottoSignUp ⟨rivalId, 4⟩] ?_ (by decide)
  rintro a (stored | ⟨⟨_ | i, _⟩, drawn⟩)
  · exact List.mem_append_left _ stored
  · cases drawn
    simp
  · cases drawn
    simp

theorem rivals_spared (id : Uuid) : ¬ Erased rivalRequests staffedConfig id := by
  rintro ⟨⟨_ | i, _⟩, ⟨token, payload, impossible, -⟩ | impossible⟩ <;> cases impossible

theorem sign_ups_exclusive_rivals :
    ∃ last, run (siteStart (fun _ => 0) staffedConfig rivalRequests staffedWorld) rivalMoves = some last ∧
      (last.sessions 0).outcome = some (.ok ()) ∧ (last.sessions 1).outcome.isSome ∧
      (last.sessions 1).outcome ≠ some (.ok ()) := by
  obtain ⟨last, reached, returned, ended⟩ := run_exists (siteStart (fun _ => 0) staffedConfig rivalRequests staffedWorld) rivalMoves
    (fun net => (net.sessions 0).outcome = some (.ok ()) ∧ (net.sessions 1).outcome.isSome) (by decide)
  refine ⟨last, reached, returned, ended, fun answered => ?_⟩
  rcases (sign_ups_exclusive (fun _ => 0) staffedConfig _ staffedWorld ⟨by decide, by decide⟩ rival_fresh rivalMoves last reached).2
    0 1 _ _ _ _ _ _ rfl rfl (by decide) returned answered (.inl rfl) with erased | erased
  · exact rivals_spared _ erased
  · exact rivals_spared _ erased

end Names

end RateWise
