import RateWise.CachedListings
import RateWise.ItemTags
import RateWise.References
import RateWise.Seeding
import RateWise.SerialOperations

set_option autoImplicit false

namespace RateWise

open Interleave
open ReadCommitted
open CacheQueue

namespace Tables

theorem items_after_removal (t : Tables) (distinct : t.items.Pairwise fun a b => a.id ≠ b.id) (user : Account)
    (stored : user ∈ t.accounts) (item : Item) :
    item ∈ (view schema t (t.attempts (.removeAccount user.id))).items ↔ item ∈ t.items ∧ item.createdBy ≠ user.id := by
  have removed : t.attempts (.removeAccount user.id) = t.removeAll (t.accounts.filter fun row => row.id = user.id) := by
    rcases t.attempts_removal user.id with nothing | removed
    · rw [attempts_remove t user stored] at nothing
      have gone : Write.deleteAccount user ∈ t.cascade user.id ++
          (t.accounts.filter fun row => row.id = user.id).map .deleteAccount := by simp [stored]
      rw [nothing] at gone
      cases gone
    · exact removed
  have deletes : ∀ w ∈ t.attempts (.removeAccount user.id), Deletes w := by
    intro w member
    rw [removed] at member
    simp only [removeAll, List.mem_append, List.mem_map] at member
    rcases member with ((⟨_, _, rfl⟩ | ⟨_, _, rfl⟩) | ⟨_, _, rfl⟩) | ⟨_, _, rfl⟩ <;> trivial
  have cascaded : ∀ row, Write.deleteItem row ∈ t.attempts (.removeAccount user.id) ↔
      row ∈ t.items ∧ row.createdBy = user.id := by
    intro row
    simp [attempts_remove t user stored, cascade, cascadeItems]
  constructor
  · intro left
    obtain ⟨before, spared⟩ := items_after_deletes t _ deletes item left
    exact ⟨before, fun own => spared item ((cascaded item).mpr ⟨before, own⟩) rfl⟩
  · rintro ⟨before, foreign⟩
    refine kept_after_deletes (fun row : Item => row.id) (fun t item => item ∈ t.items) Write.itemEdit mem_items_edit
      t _ item before fun w member k drops same => foreign ?_
    cases w with
    | deleteItem row =>
        cases drops
        obtain ⟨present, own⟩ := (cascaded row).mp member
        rw [same_item t distinct item row before present same]
        exact own
    | _ => cases drops

theorem view_keeps {β : Type} (column : Tables → β) (t : Tables) (ws : List Write)
    (keeps : ∀ w ∈ ws, ∀ u : Tables, column (u.apply w) = column u) : column (view schema t ws) = column t := by
  induction ws generalizing t with
  | nil => rfl
  | cons w rest ih =>
      exact (ih (t.apply w) fun x later => keeps x (by simp [later])).trans (keeps w (by simp) t)

theorem items_shrink (t : Tables) (ws : List Write) (deletes : ∀ w ∈ ws, ∀ row, w ≠ .insertItem row) :
    (view schema t ws).items.Sublist t.items := by
  induction ws generalizing t with
  | nil => exact .refl _
  | cons w rest ih =>
      refine (ih (t.apply w) fun x later => deletes x (by simp [later])).trans ?_
      cases w with
      | insertItem row => exact absurd rfl (deletes _ (by simp) row)
      | deleteItem row => exact List.filter_sublist
      | _ => exact .refl _

end Tables

section Serving

variable (hashtext : Text → Int32)

theorem create_item_serves (item : CreateItemInput) (user : AuthenticatedUser) (row : Generated) (world : World) :
    (serve hashtext (.createItem item user row) world).2.db = world.db ∨
    ∃ new : Item, new.id = row.id ∧ new.createdBy = user.id ∧ (∀ other ∈ world.db.items, other.id ≠ new.id) ∧
      (serve hashtext (.createItem item user row) world).2.db.items = world.db.items ++ [new] := by
  let insert : Sql := .insertItem row item.title item.description item.category item.tags user.id.text
  let new : Item := ⟨row, item.title, item.description, item.category, item.tags, user.id⟩
  have attempted : world.db.attempts insert = [.insertItem new] := by
    simp [insert, new, Tables.attempts, itemRow, uuid_in_text]
  have yields : Yields (engine hashtext) (Operation.createItem item user row).program world none fun _ left _ =>
      left.db = world.db ∨ (world.db.refuses insert = none ∧ left.db = world.db.apply (.insertItem new)) := by
    refine yields_bind _ _ _ _ _ (yields_catching _ _ _ _ _ (yields_single _ insert world _ ?_ ?_))
    · intro fault refused
      exact .inl rfl
    · intro allowed
      refine .inr ⟨allowed, ?_⟩
      show view schema world.db (world.db.attempts insert) = _
      rw [attempted]
      rfl
  rcases yields with unchanged | ⟨allowed, added⟩
  · exact .inl unchanged
  · refine .inr ⟨new, rfl, rfl, fun other stored same => ?_, congrArg Tables.items added⟩
    have clear := (Tables.refuses_none world.db insert allowed).2 (.insertItem new) (by simp [attempted])
    obtain ⟨-, rest⟩ := Tables.or_else_none _ _ clear
    have absent := Tables.unique_fault_none _ (Tables.or_else_none _ _ rest).1
    simp only [List.any_eq_false, Bool.or_eq_true, decide_eq_true_eq, Bool.and_eq_true, not_or] at absent
    exact (absent other stored).1 same

def CountersOnly : Api.Stmt → Prop
  | .sql (.findVotesBy _) => True
  | .sql (.addVotes _ _ _) => True
  | _ => False

theorem revoke_quiet (id : Text) : (VotesService.revokeUserVotesOnReviewsTx id).Quiet CountersOnly fun _ => True := by
  have decrement : ∀ ids action, (ReviewService.decrementVotesInTx ids action 1).Quiet CountersOnly fun _ => True := by
    intro ids action
    unfold ReviewService.decrementVotesInTx
    split
    · trivial
    · exact ⟨trivial, fun reply => by cases reply <;> trivial⟩
  refine Prog.quiet_bind _ (fun _ => True) _ _ _ ⟨trivial, fun reply => by cases reply <;> trivial⟩
    fun (votes : List VoteSummary) _ => ?_
  exact Prog.quiet_bind _ _ _ _ _ (decrement _ _) fun _ _ => decrement _ _

theorem revoke_in_tx_keeps (id : Text) (t : Tables) :
    InTx hashtext (VotesService.revokeUserVotesOnReviewsTx id) t
      (ends (fun _ after => after.items = t.items ∧ after.accounts = t.accounts) fun _ => True) := by
  have kept := @in_tx_quiet schema Redis.commands _ _ _ hashtext _ _ CountersOnly (fun _ => True)
    (fun before after => after.items = before.items ∧ after.accounts = before.accounts) (fun _ => ⟨rfl, rfl⟩)
    (fun _ _ _ first second => ⟨second.1.trans first.1, second.2.trans first.2⟩) ?_ (fun _ issued => issued) _
    (revoke_quiet id) t
  · refine in_tx_mono _ _ _ _ kept fun result after holds => ?_
    cases result with
    | ok value => exact holds.1
    | error error => trivial
  · intro s rows issued _
    cases s with
    | findVotesBy user => exact ⟨rfl, rfl⟩
    | addVotes ids action value =>
        have counters : ∀ w ∈ rows.attempts (.addVotes ids action value), ∃ id, w = .addVotes id action value := by
          intro w member
          obtain ⟨row, -, rfl⟩ := List.mem_map.mp member
          exact ⟨row.id, rfl⟩
        constructor
        · refine rows.view_keeps Tables.items _ fun w member u => ?_
          obtain ⟨id, rfl⟩ := counters w member
          rfl
        · refine rows.view_keeps Tables.accounts _ fun w member u => ?_
          obtain ⟨id, rfl⟩ := counters w member
          rfl
    | _ => cases issued

def ItemsLeft (before after : Tables) (account : Uuid) : Prop :=
  after.items.Sublist before.items ∧ ∀ item, item ∈ after.items ↔ item ∈ before.items ∧ item.createdBy ≠ account

theorem deletion_serves (userId : Text) (world : World) (distinct : world.db.items.Pairwise fun a b => a.id ≠ b.id) :
    match (serve hashtext (.deleteAccount userId) world).1 with
    | .ok _ => ∃ account, uuidIn userId = some account ∧
        ItemsLeft world.db (serve hashtext (.deleteAccount userId) world).2.db account
    | .error _ => (serve hashtext (.deleteAccount userId) world).2.db = world.db := by
  have inside : InTx hashtext (do
      let user ← UsersService.findOneByIdOrThrowTx userId
      VotesService.revokeUserVotesOnReviewsTx userId
      UsersService.deleteOneTx user) world.db
      (ends (fun _ after => ∃ account, uuidIn userId = some account ∧ ItemsLeft world.db after account) fun _ => True) := by
    refine in_tx_seq (fun user after => after = world.db ∧ uuidIn userId = some user.id ∧ user ∈ world.db.accounts)
      (in_tx_mono _ _ _ _ (find_user_in_tx userId world.db) fun result after holds => ?_) ?_
    · cases result with
      | ok user => exact holds
      | error error => trivial
    · rintro user after ⟨rfl, parsed, stored⟩
      refine in_tx_seq _ (revoke_in_tx_keeps hashtext userId world.db) ?_
      rintro - rows ⟨items, accounts⟩
      refine in_tx_sql _ _ _ _ (fun _ _ => trivial) fun _ => ⟨user.id, parsed, ?_⟩
      have present : user ∈ rows.accounts := accounts ▸ stored
      show ItemsLeft world.db (view schema rows (rows.attempts (.removeAccount user.id))) user.id
      refine ⟨?_, fun item => ?_⟩
      · rw [← items]
        refine rows.items_shrink _ fun w member row same => ?_
        rw [Tables.attempts_remove rows user present] at member
        simp [Tables.cascade, same] at member
      · rw [← items] at distinct ⊢
        exact rows.items_after_removal distinct user present item
  have yields : Yields (engine hashtext) (Deletion.program userId) world none fun result left _ => match result with
      | .ok _ => ∃ account, uuidIn userId = some account ∧ ItemsLeft world.db left.db account
      | .error _ => left.db = world.db := by
    refine yields_bind _ _ _ _ _ (yields_bind _ _ _ _ _ (yields_mono _ _ _ _ _ (yields_in_tx _ world none _ inside) ?_))
    rintro result left after ⟨rfl, -, rest⟩
    cases result with
    | error error => exact rest.1
    | ok value =>
        refine yields_bind _ _ _ _ _ (yields_cmd _ (RedisCmd.del (createUserCacheKey userId)) left none _ ?_ ?_)
        · intro fault failed
          cases failed
        · intro reply store replied
          exact rest
  exact yields

end Serving

def itemPages (postgres : Postgres) : PaginationService Item ItemEntity where
  id row := row.id
  createdAt row := row.createdAt
  serialise := Item.entity
  createCacheKeyFunction := createItemCacheKey
  postgres := postgres

structure ItemSystem where
  world : World
  copies : State Text ItemEntity
  distinct : world.db.items.Pairwise fun a b => a.id ≠ b.id

def ItemSystem.store (s : ItemSystem) (postgres : Postgres) (scan : Shuffle Item) : PageStore (itemPages postgres) where
  rows := s.world.db.items
  distinct := List.pairwise_map.mpr s.distinct
  cache := s.copies.cache
  scan := scan.order
  scanned := scan.perm

def ItemsService.filterItems (hashtext : Text → Int32) (postgres : Postgres) (s : ItemSystem) (filters : ItemFiltersArgs)
    (limit : Nat) (cursor : Option JsString) (scan : Shuffle Item) :
    Except ListFault (IPaginatedType Item ItemEntity × List (ICacheJobData Item)) := do
  ifGiven hashtext s.world filters.createdBy UsersService.findOneByIdOrThrow
  (PaginationService.create (s.store postgres scan) true limit cursor (some filters.selects)).mapError .cursor

inductive ItemOperation where
  | createItem (item : CreateItemInput) (user : AuthenticatedUser) (row : Generated)
  | findItemById (id : Text)
  | filterItems (filters : ItemFiltersArgs) (limit : Nat) (cursor : Option JsString) (scan : Shuffle Item)
  | deleteAccount (userId : Text)
  | cacheEvent (event : Event Text)

def ItemOperation.Draws : ItemOperation → Uuid → Prop
  | .createItem _ _ row, id => row.id = id
  | _, _ => False

section System

variable (hashtext : Text → Int32) (postgres : Postgres)

theorem create_item_distinct (item : CreateItemInput) (user : AuthenticatedUser) (row : Generated) (world : World)
    (distinct : world.db.items.Pairwise fun a b => a.id ≠ b.id) :
    (serve hashtext (.createItem item user row) world).2.db.items.Pairwise fun a b => a.id ≠ b.id := by
  rcases create_item_serves hashtext item user row world with unchanged | ⟨new, -, -, absent, added⟩
  · rw [unchanged]
    exact distinct
  · rw [added]
    refine List.pairwise_append.mpr ⟨distinct, List.pairwise_singleton _ _, fun other stored last member => ?_⟩
    rw [List.mem_singleton.mp member]
    exact absent other stored

theorem deletion_distinct (userId : Text) (world : World) (distinct : world.db.items.Pairwise fun a b => a.id ≠ b.id) :
    (serve hashtext (.deleteAccount userId) world).2.db.items.Pairwise fun a b => a.id ≠ b.id := by
  have served := deletion_serves hashtext userId world distinct
  cases result : (serve hashtext (.deleteAccount userId) world).1 with
  | ok answer =>
      rw [result] at served
      obtain ⟨account, -, left, -⟩ := served
      exact distinct.sublist left
  | error error =>
      rw [result] at served
      exact served ▸ distinct

namespace ItemSystem

def after (s : ItemSystem) : ItemOperation → ItemSystem
  | .createItem item user row =>
      ⟨(serve hashtext (.createItem item user row) s.world).2, s.copies, create_item_distinct hashtext item user row s.world s.distinct⟩
  | .findItemById id =>
      { s with copies := { s.copies with cache := (ItemsService.findOneByIdOrThrowCached s.copies.cache s.world.db id).2 } }
  | .filterItems filters limit cursor scan =>
      match ItemsService.filterItems hashtext postgres s filters limit cursor scan with
      | .error _ => s
      | .ok (_, jobs) => { s with copies := s.copies.enqueue (jobs.map (itemPages postgres).jobData) }
  | .deleteAccount userId =>
      ⟨(serve hashtext (.deleteAccount userId) s.world).2, s.copies, deletion_distinct hashtext userId s.world s.distinct⟩
  | .cacheEvent event => { s with copies := s.copies.on event }

def run (s : ItemSystem) (ops : List ItemOperation) : ItemSystem := ops.foldl (after hashtext postgres) s

def find (s : ItemSystem) (id : Text) : Except Err ItemEntity :=
  (ItemsService.findOneByIdOrThrowCached s.copies.cache s.world.db id).1

def start (accounts : List Account) (store : Redis) : ItemSystem :=
  ⟨⟨{ Tables.empty with accounts := accounts }, store⟩, .empty, .nil⟩

-- A copy is that of a stored item, under one of the spellings of its id.
def Backs (t : Tables) (key : Text) (value : ItemEntity) : Prop :=
  ∃ row ∈ t.items, value = row.entity ∧ ∃ id, key = createItemCacheKey id ∧ uuidIn id = some row.id

-- The deletion of an account finds no copy of its items.
def Clear (s : ItemSystem) : ItemOperation → Prop
  | .deleteAccount userId => ∀ item ∈ s.world.db.items, uuidIn userId = some item.createdBy →
      s.copies.Holds fun _ value => value.id ≠ item.id
  | _ => True

theorem find_stored (t : Tables) (id : Text) (row : Item) (found : t.answer (.findItem id) = some row) :
    row ∈ t.items ∧ uuidIn id = some row.id := by
  have listed : t.items.find? (fun row => some row.id = uuidIn id) = some row := found
  have matched := List.find?_some listed
  exact ⟨List.mem_of_find?_eq_some listed, (of_decide_eq_true matched).symm⟩

theorem find_backed (s : ItemSystem) (backed : s.copies.Holds (Backs s.world.db)) (id : Text) :
    match s.find id with
      | .ok entity => ∃ row ∈ s.world.db.items, row.entity = entity ∧ uuidIn id = some row.id
      | .error error => error = ItemsService.notFound := by
  simp only [find, ItemsService.findOneByIdOrThrowCached]
  cases valid : validUUID id with
  | false => rfl
  | true =>
      simp only [Bool.not_true, Bool.false_eq_true, if_false]
      cases cached : s.copies.cache (createItemCacheKey id) with
      | some entity =>
          obtain ⟨row, stored, rfl, other, same, parsed⟩ := backed.1 _ _ cached
          rw [cache_key_injective id other same]
          exact ⟨row, stored, rfl, parsed⟩
      | none =>
          cases found : s.world.db.answer (.findItem id) with
          | none => rfl
          | some row =>
              obtain ⟨stored, parsed⟩ := find_stored s.world.db id row found
              exact ⟨row, stored, rfl, parsed⟩

theorem after_copies (s : ItemSystem) (op : ItemOperation) (t : Tables) (known : ∀ row ∈ s.world.db.items, row ∈ t.items)
    (held : s.copies.Holds (Backs t)) : (s.after hashtext postgres op).copies.Holds (Backs t) := by
  cases op with
  | createItem item user row => exact held
  | deleteAccount userId => exact held
  | cacheEvent event => exact s.copies.holds_on _ event held
  | findItemById id =>
      simp only [after, ItemsService.findOneByIdOrThrowCached]
      cases valid : validUUID id with
      | false => exact held
      | true =>
          simp only [Bool.not_true, Bool.false_eq_true, if_false]
          cases cached : s.copies.cache (createItemCacheKey id) with
          | some entity => exact held
          | none =>
              cases found : s.world.db.answer (.findItem id) with
              | none => exact held
              | some row =>
                  obtain ⟨stored, parsed⟩ := find_stored s.world.db id row found
                  exact s.copies.holds_set _ _ _ held ⟨row, known row stored, rfl, id, rfl, parsed⟩
  | filterItems filters limit cursor scan =>
      simp only [after]
      cases answer : ItemsService.filterItems hashtext postgres s filters limit cursor scan with
      | error fault => exact held
      | ok pair =>
          obtain ⟨page, jobs⟩ := pair
          have listed := listed_without_fault _ _ (checked _ _ _ answer)
          refine s.copies.holds_enqueue _ _ held fun job member => ?_
          obtain ⟨queued, asked, rfl⟩ := List.mem_map.mp member
          obtain ⟨stored, keyed⟩ := (PaginationService.cached_page _ limit cursor _ page jobs listed).2 queued asked
          exact ⟨queued.value, known _ stored, rfl, queued.value.id.text, keyed, uuid_in_text _⟩

theorem after_backed (s : ItemSystem) (op : ItemOperation) (clear : s.Clear op) (backed : s.copies.Holds (Backs s.world.db)) :
    (s.after hashtext postgres op).copies.Holds (Backs (s.after hashtext postgres op).world.db) := by
  have copied := s.after_copies hashtext postgres op s.world.db (fun row stored => stored) backed
  cases op with
  | createItem item user row =>
      refine s.copies.holds_mono _ _ backed ?_
      rintro key value ⟨stored, member, rest⟩
      refine ⟨stored, ?_, rest⟩
      show stored ∈ (serve hashtext (.createItem item user row) s.world).2.db.items
      rcases create_item_serves hashtext item user row s.world with unchanged | ⟨new, -, -, -, added⟩
      · rw [unchanged]
        exact member
      · rw [added]
        exact List.mem_append_left _ member
  | findItemById id => exact copied
  | filterItems filters limit cursor scan =>
      simp only [after] at copied ⊢
      split <;> simp_all only
  | deleteAccount userId =>
      have served := deletion_serves hashtext userId s.world s.distinct
      show s.copies.Holds (Backs (serve hashtext (.deleteAccount userId) s.world).2.db)
      cases result : (serve hashtext (.deleteAccount userId) s.world).1 with
      | error error =>
          rw [result] at served
          rw [show (serve hashtext (.deleteAccount userId) s.world).2.db = s.world.db from served]
          exact backed
      | ok answer =>
          rw [result] at served
          obtain ⟨account, parsed, -, left⟩ := served
          have spared : s.copies.Holds fun _ value =>
              ∀ item ∈ s.world.db.items, item.createdBy = account → value.id ≠ item.id := by
            constructor
            · intro key value cached item stored own
              exact (clear item stored (own ▸ parsed)).1 key value cached
            · intro job queued item stored own
              exact (clear item stored (own ▸ parsed)).2 job queued
          refine s.copies.holds_mono _ _ (s.copies.holds_and _ _ backed spared) ?_
          rintro key value ⟨⟨row, stored, rfl, rest⟩, foreign⟩
          exact ⟨row, (left row).mpr ⟨stored, fun own => foreign row stored own rfl⟩, rfl, rest⟩
  | cacheEvent event => exact copied

theorem run_backed (s : ItemSystem) (ops : List ItemOperation) (backed : s.copies.Holds (Backs s.world.db))
    (clear : ∀ early op late, ops = early ++ op :: late → (s.run hashtext postgres early).Clear op) :
    (s.run hashtext postgres ops).copies.Holds (Backs (s.run hashtext postgres ops).world.db) := by
  induction ops generalizing s with
  | nil => exact backed
  | cons op rest ih =>
      refine ih (s.after hashtext postgres op) (s.after_backed hashtext postgres op (clear [] op rest rfl) backed) ?_
      rintro early next late rfl
      exact clear (op :: early) next late rfl

theorem after_items (s : ItemSystem) (op : ItemOperation) (item : Item)
    (present : item ∈ (s.after hashtext postgres op).world.db.items) :
    item ∈ s.world.db.items ∨ ∃ input user row, op = .createItem input user row ∧ row.id = item.id ∧ user.id = item.createdBy := by
  cases op with
  | createItem input user row =>
      have left : item ∈ (serve hashtext (.createItem input user row) s.world).2.db.items := present
      rcases create_item_serves hashtext input user row s.world with unchanged | ⟨new, drawn, creator, -, added⟩
      · rw [unchanged] at left
        exact .inl left
      · rw [added] at left
        rcases List.mem_append.mp left with old | last
        · exact .inl old
        · rw [List.mem_singleton.mp last]
          exact .inr ⟨input, user, row, rfl, drawn.symm, creator.symm⟩
  | filterItems filters limit cursor scan =>
      simp only [after] at present
      split at present <;> exact .inl present
  | deleteAccount userId =>
      have left : item ∈ (serve hashtext (.deleteAccount userId) s.world).2.db.items := present
      have served := deletion_serves hashtext userId s.world s.distinct
      cases result : (serve hashtext (.deleteAccount userId) s.world).1 with
      | ok answer =>
          rw [result] at served
          obtain ⟨account, -, shrunk, -⟩ := served
          exact .inl (shrunk.subset left)
      | error error =>
          rw [result] at served
          have unchanged : (serve hashtext (.deleteAccount userId) s.world).2.db = s.world.db := served
          rw [unchanged] at left
          exact .inl left
  | _ => exact .inl present

theorem run_items (s : ItemSystem) (ops : List ItemOperation) (item : Item)
    (present : item ∈ (s.run hashtext postgres ops).world.db.items) :
    item ∈ s.world.db.items ∨ ∃ input user row, .createItem input user row ∈ ops ∧ row.id = item.id ∧ user.id = item.createdBy := by
  induction ops generalizing s with
  | nil => exact .inl present
  | cons op rest ih =>
      rcases ih (s.after hashtext postgres op) present with before | ⟨input, user, row, member, drawn⟩
      · rcases s.after_items hashtext postgres op item before with stored | ⟨input, user, row, rfl, drawn⟩
        · exact .inl stored
        · exact .inr ⟨input, user, row, by simp, drawn⟩
      · exact .inr ⟨input, user, row, List.mem_cons_of_mem _ member, drawn⟩

-- gen_random_uuid draws no id twice.
def FreshItems (ops : List ItemOperation) : Prop := ops.Pairwise fun a b => ∀ id, ¬ (a.Draws id ∧ b.Draws id)

theorem fresh_creator (ops : List ItemOperation) (fresh : FreshItems ops) (a b : CreateItemInput) (first second : AuthenticatedUser)
    (row other : Generated) (inA : .createItem a first row ∈ ops) (inB : .createItem b second other ∈ ops)
    (same : row.id = other.id) : first.id = second.id := by
  have equal : ItemOperation.createItem a first row = .createItem b second other :=
    Tables.pairwise_eq _ _ (fun x y apart id both => apart id both.symm) fresh _ _ inA inB fun apart => apart other.id ⟨same, rfl⟩
  cases equal
  rfl

theorem deleted_items_unserved (accounts : List Account) (store : Redis) (ops : List ItemOperation) (fresh : FreshItems ops)
    (clear : ∀ early op late, ops = early ++ op :: late → ((start accounts store).run hashtext postgres early).Clear op) :
    (∀ id entity, ((start accounts store).run hashtext postgres ops).find id = .ok entity →
      ∃ row ∈ ((start accounts store).run hashtext postgres ops).world.db.items, row.entity = entity ∧ uuidIn id = some row.id) ∧
    ∀ early userId late, ops = early ++ .deleteAccount userId :: late →
      (serve hashtext (.deleteAccount userId) ((start accounts store).run hashtext postgres early).world).1 = .ok true →
      ∀ item user row, .createItem item user row ∈ early → uuidIn userId = some user.id → ∀ id, uuidIn id = some row.id →
        ((start accounts store).run hashtext postgres ops).find id = .error ItemsService.notFound := by
  let last := (start accounts store).run hashtext postgres ops
  have backed : last.copies.Holds (Backs last.world.db) :=
    run_backed hashtext postgres (start accounts store) ops (State.holds_empty _) clear
  have found : ∀ id entity, last.find id = .ok entity → ∃ row ∈ last.world.db.items, row.entity = entity ∧ uuidIn id = some row.id := by
    intro id entity served
    have answer := last.find_backed backed id
    rwa [served] at answer
  refine ⟨found, ?_⟩
  rintro early userId late rfl removed item user row created owner id named
  -- The state in which the deletion ran, and what it left.
  let before := (start accounts store).run hashtext postgres early
  have split : last = (before.after hashtext postgres (.deleteAccount userId)).run hashtext postgres late := by
    simp only [last, before, run, List.foldl_append, List.foldl_cons]
  have gone : ∀ stored ∈ last.world.db.items, stored.id ≠ row.id := by
    intro stored present same
    rw [split] at present
    rcases run_items hashtext postgres _ late stored present with left | ⟨input, other, again, later, drawn, -⟩
    · have served := deletion_serves hashtext userId before.world before.distinct
      rw [removed] at served
      obtain ⟨account, parsed, -, spared⟩ := served
      obtain ⟨kept, foreign⟩ := (spared stored).mp left
      rcases run_items hashtext postgres _ early stored kept with none | ⟨input, creator, drawn, member, drew, owns⟩
      · cases none
      · have mine := fresh_creator early (List.pairwise_append.mp fresh).1 input item creator user drawn row member created
          (drew.trans same)
        exact foreign (owns.symm.trans (mine.trans (Option.some.inj (owner.symm.trans parsed))))
    · refine (List.pairwise_append.mp fresh).2.2 _ created _ (List.mem_cons_of_mem _ later) row.id ⟨rfl, ?_⟩
      exact drawn.trans same
  cases answer : last.find id with
  | ok entity =>
      obtain ⟨stored, present, -, parsed⟩ := found id entity answer
      exact absurd (Option.some.inj (parsed.symm.trans named)) (gone stored present)
  | error error =>
      have only := last.find_backed backed id
      rw [answer] at only
      exact congrArg Except.error only

end ItemSystem

end System

def hostId : Uuid := ⟨"4e5f6a7b-8c9d-4e0f-9a1b-5c6d7e8f9a0b".toList, by decide⟩

def hostAccount : Account := ⟨⟨hostId, 0⟩, "host".toList, "host@x".toList, [], [.reviewer, .creator], .active⟩

def kettleId : Uuid := drawnItem.id

def kettle : CreateItemInput := ⟨"kettle".toList, "boils water".toList, "kitchen".toList, []⟩

def hostSignedIn : AuthenticatedUser := ⟨hostId, "host@x".toList, "host".toList, .active, [.reviewer, .creator]⟩

def expiredOps : List ItemOperation :=
  [.createItem kettle hostSignedIn drawnItem, .findItemById kettleId.text,
    .cacheEvent (.expire (createItemCacheKey kettleId.text)), .deleteAccount hostId.text]

theorem deleted_items_unserved_kettle :
    ((ItemSystem.start [hostAccount] Redis.empty).run (fun _ => 0) PaginationService.twoInstants expiredOps).find kettleId.text =
      .error ItemsService.notFound := by
  have fresh : ItemSystem.FreshItems expiredOps := by
    refine .cons (fun op later id both => ?_) (.cons (fun op later id both => both.1) (.cons (fun op later id both => both.1)
      (.cons (fun op later id both => both.1) .nil)))
    simp only [List.mem_cons, List.not_mem_nil, or_false] at later
    rcases later with rfl | rfl | rfl <;> exact both.2
  have clear : ∀ early op late, expiredOps = early ++ op :: late →
      ((ItemSystem.start [hostAccount] Redis.empty).run (fun _ => 0) PaginationService.twoInstants early).Clear op := by
    intro early op late split
    cases op with
    | deleteAccount userId =>
        have whole : early = expiredOps.take 3 := by
          rcases early with _ | ⟨a, _ | ⟨b, _ | ⟨c, _ | ⟨d, rest⟩⟩⟩⟩ <;> simp [expiredOps] at split ⊢
          exact ⟨split.1.symm, split.2.1.symm, split.2.2.1.symm⟩
        subst whole
        intro item stored own
        refine ⟨fun key value cached => ?_, fun job queued => by cases queued⟩
        have copied : (Function.update (Function.update (fun _ => none) (createItemCacheKey kettleId.text)
            (some (⟨drawnItem, kettle.title, kettle.description, kettle.category, [], hostId⟩ : Item).entity))
            (createItemCacheKey kettleId.text) none) key = some value := cached
        simp [Function.update_idem] at copied
    | _ => trivial
  exact (ItemSystem.deleted_items_unserved (fun _ => 0) PaginationService.twoInstants [hostAccount] Redis.empty expiredOps fresh
    clear).2 (expiredOps.take 3) hostId.text [] rfl (by decide) kettle hostSignedIn drawnItem (by simp [expiredOps])
    (uuid_in_text hostId) kettleId.text (uuid_in_text kettleId)

-- The host offers a kettle; it is read; the host's account goes.
def kettleOps : List ItemOperation :=
  [.createItem kettle hostSignedIn drawnItem, .findItemById kettleId.text, .deleteAccount hostId.text]

-- The kettle is gone from the table, and it is served from the cache.
theorem deleted_item_served :
    let early := (ItemSystem.start [hostAccount] Redis.empty).run (fun _ => 0) PaginationService.twoInstants (kettleOps.take 2)
    let last := (ItemSystem.start [hostAccount] Redis.empty).run (fun _ => 0) PaginationService.twoInstants kettleOps
    (serve (fun _ => 0) (.deleteAccount hostId.text) early.world).1 = .ok true ∧ last.world.db.items = [] ∧
      (last.find kettleId.text).toOption.map (fun entity => entity.id) = some kettleId := by
  decide

end RateWise
