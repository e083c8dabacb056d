import RateWise.Filters

set_option autoImplicit false

namespace RateWise

open Interleave
open ReadCommitted
open CacheQueue

theorem history_grows {ρ : Type} (id : ρ → Uuid) (history rows : List ρ) (draws : Uuid → Prop)
    (distinct : history.Pairwise fun a b => id a ≠ id b) (apart : rows.Pairwise fun a b => id a ≠ id b)
    (one : ∀ a b, draws a → draws b → a = b) (fresh : ∀ row ∈ history, ¬ draws (id row))
    (source : ∀ row ∈ rows, row ∈ history ∨ draws (id row)) :
    ∃ longer : List ρ, longer.Pairwise (fun a b => id a ≠ id b) ∧ (∀ row ∈ rows, row ∈ longer) ∧
      (∀ row ∈ history, row ∈ longer) ∧ ∀ row ∈ longer, row ∈ history ∨ draws (id row) := by
  by_cases within : ∀ row ∈ rows, row ∈ history
  · exact ⟨history, distinct, within, fun row member => member, fun row member => .inl member⟩
  · rw [not_forall] at within
    obtain ⟨new, within⟩ := within
    obtain ⟨left, unknown⟩ := Classical.not_imp.mp within
    have drawn : draws (id new) := (source new left).resolve_left unknown
    refine ⟨history ++ [new], ?_, fun row present => ?_, fun row member => List.mem_append_left _ member, fun row member => ?_⟩
    · refine List.pairwise_append.mpr ⟨distinct, List.pairwise_singleton _ _, fun row member other last => ?_⟩
      rw [List.mem_singleton.mp last]
      exact fun same => fresh row member (same ▸ drawn)
    · rcases source row present with old | own
      · exact List.mem_append_left _ old
      · have same : row = new :=
          Tables.pairwise_eq _ _ (fun _ _ => Ne.symm) apart row new present left fun other => other (one _ _ own drawn)
        exact List.mem_append_right _ (List.mem_singleton.mpr same)
    · rcases List.mem_append.mp member with old | last
      · exact .inl old
      · exact .inr (List.mem_singleton.mp last ▸ drawn)

section Items

variable (hashtext : Text → Int32) (postgres : Postgres)

namespace ItemSystem

-- The items that there have been, each under an id of its own: the stored ones
-- are among them, and every copy is of one of them.
structure Past (s : ItemSystem) (history : List Item) : Prop where
  distinct : history.Pairwise fun a b => a.id ≠ b.id
  stored : ∀ row ∈ s.world.db.items, row ∈ history
  copied : s.copies.Holds (Backs { Tables.empty with items := history })

theorem past_faithful (s : ItemSystem) (history : List Item) (past : s.Past history) : s.Faithful := by
  intro id value cached
  obtain ⟨record, member, rfl, other, same, parsed⟩ := past.copied.1 _ value cached
  have spelled := cache_key_injective id.text other same
  rw [← spelled, uuid_in_text, Option.some.injEq] at parsed
  refine ⟨record, parsed.symm, rfl, fun row stored named => ?_⟩
  exact Tables.pairwise_eq _ _ (fun _ _ => Ne.symm) past.distinct row record (past.stored row stored) member
    fun apart => apart (named.trans parsed)

theorem one_item_drawn (op : ItemOperation) (a b : Uuid) (first : op.Draws a) (second : op.Draws b) : a = b := by
  cases op with
  | createItem input user row => exact first.symm.trans second
  | _ => exact first.elim

theorem after_past (s : ItemSystem) (op : ItemOperation) (history : List Item) (past : s.Past history)
    (fresh : ∀ row ∈ history, ¬ op.Draws row.id) :
    ∃ longer, (s.after hashtext postgres op).Past longer ∧ ∀ row ∈ longer, row ∈ history ∨ op.Draws row.id := by
  have source (row : Item) (present : row ∈ (s.after hashtext postgres op).world.db.items) : row ∈ history ∨ op.Draws row.id := by
    rcases s.after_items hashtext postgres op row present with before | ⟨input, user, drawn, rfl, same, -⟩
    · exact .inl (past.stored row before)
    · exact .inr same
  obtain ⟨longer, distinct, stored, kept, added⟩ := history_grows (fun row : Item => row.id) history
    (s.after hashtext postgres op).world.db.items op.Draws past.distinct (s.after hashtext postgres op).distinct
    (one_item_drawn op) fresh source
  refine ⟨longer, ⟨distinct, stored, ?_⟩, added⟩
  refine (s.after hashtext postgres op).copies.holds_mono _ _
    (s.after_copies hashtext postgres op _ past.stored past.copied) ?_
  rintro key value ⟨row, member, rest⟩
  exact ⟨row, kept row member, rest⟩

theorem run_past (s : ItemSystem) (ops : List ItemOperation) (history : List Item) (past : s.Past history)
    (apart : FreshItems ops) (fresh : ∀ op ∈ ops, ∀ row ∈ history, ¬ op.Draws row.id) :
    ∃ longer, (s.run hashtext postgres ops).Past longer := by
  induction ops generalizing s history with
  | nil => exact ⟨history, past⟩
  | cons op rest ih =>
      obtain ⟨first, others⟩ := List.pairwise_cons.mp apart
      obtain ⟨longer, next, added⟩ := s.after_past hashtext postgres op history past (fresh op (by simp))
      refine ih (s.after hashtext postgres op) longer next others fun other later row member drawn => ?_
      rcases added row member with old | own
      · exact fresh other (List.mem_cons_of_mem _ later) row old drawn
      · exact first other later row.id ⟨own, drawn⟩

theorem run_faithful (accounts : List Account) (store : Redis) (ops : List ItemOperation) (fresh : FreshItems ops) :
    ((start accounts store).run hashtext postgres ops).Faithful := by
  have past : (start accounts store).Past [] := ⟨.nil, (fun row member => by cases member), State.holds_empty _⟩
  obtain ⟨longer, last⟩ := (start accounts store).run_past hashtext postgres ops [] past fresh
    fun op _ row member => by cases member
  exact past_faithful _ longer last

end ItemSystem

end Items

section Reviews

variable (hashtext : Text → Int32) (postgres : Postgres)

def keyRule (known : ReviewKey → Prop) : RowRule schema where
  Good t := ∀ key, t.HasKey key → known key
  Lawful
    | .insertReview row => known row.key
    | _ => True
  good_apply t w good lawful key held := by
    rw [Tables.has_key_edit] at held
    cases w with
    | insertReview row =>
        rcases held with old | rfl
        · exact good key old
        · exact lawful
    | deleteReview row => exact good key held.1
    | _ => exact good key held

theorem served_keys (op : Operation) (world : World) (row : Review) (left : row ∈ (serve hashtext op world).2.db.reviews) :
    world.db.HasKey row.key ∨ (ReviewOperation.request op).Draws row.id := by
  let known : ReviewKey → Prop := fun key => world.db.HasKey key ∨ (ReviewOperation.request op).Draws key.id
  have good : (keyRule known).Good (serve hashtext op world).2.db := by
    refine (keyRule known).solo_good op.program world none (fun key => .inl) (fun w absent => by cases absent)
      (operation_draws _ ?_ op ?_)
    · intro w other
      cases w with
      | insertReview row => exact absurd rfl (other row)
      | _ => trivial
    · rintro reviewData user drawn rfl review same
      exact .inr same.symm
  exact good row.key ⟨row, left, rfl⟩

namespace ReviewSystem

def Recalls (history : List ReviewKey) (key : Text) (value : Review) : Prop :=
  value.key ∈ history ∧ key = createReviewCacheKey value.id.text

structure Past (s : ReviewSystem) (history : List ReviewKey) : Prop where
  distinct : history.Pairwise fun a b => a.id ≠ b.id
  stored : ∀ row ∈ s.world.db.reviews, row.key ∈ history
  copied : s.copies.Holds (Recalls history)

theorem past_faithful (s : ReviewSystem) (history : List ReviewKey) (past : s.Past history) : s.Faithful := by
  intro id value cached
  obtain ⟨member, same⟩ := past.copied.1 _ value cached
  have spelled : id = value.id := review_key_injective _ _ same
  refine ⟨spelled.symm, fun row stored named => ?_⟩
  exact Tables.pairwise_eq _ _ (fun _ _ => Ne.symm) past.distinct row.key value.key (past.stored row stored) member
    fun apart => apart (named.trans spelled)

theorem listing_past (s : ReviewSystem) (history : List ReviewKey) (past : s.Past history) (filters : ReviewFiltersArgs)
    (limit : Nat) (cursor : Option JsString) (scan : Shuffle Review) :
    (s.listing postgres (ReviewService.filterReviews hashtext postgres s filters limit cursor scan)).Past history := by
  unfold listing
  cases listed : ReviewService.filterReviews hashtext postgres s filters limit cursor scan with
  | error fault => exact past
  | ok pair =>
      obtain ⟨page, jobs⟩ := pair
      refine ⟨past.distinct, past.stored, s.copies.holds_enqueue _ _ past.copied fun job member => ?_⟩
      obtain ⟨queued, asked, rfl⟩ := List.mem_map.mp member
      have created := listed_without_fault _ _ (checked _ _ _ (checked _ _ _ listed))
      obtain ⟨stored, keyed⟩ := (PaginationService.cached_page _ limit cursor _ page jobs created).2 queued asked
      exact ⟨past.stored queued.value stored, keyed⟩

theorem one_review_drawn (op : ReviewOperation) (a b : Uuid) (first : op.Draws a) (second : op.Draws b) : a = b := by
  cases op with
  | request op =>
      cases op with
      | createReview reviewData user row => exact first.symm.trans second
      | _ => exact first.elim
  | _ => exact first.elim

theorem after_past (s : ReviewSystem) (op : ReviewOperation) (history : List ReviewKey) (past : s.Past history)
    (fresh : ∀ key ∈ history, ¬ op.Draws key.id) :
    ∃ longer, (s.after hashtext postgres op).Past longer ∧ ∀ key ∈ longer, key ∈ history ∨ op.Draws key.id := by
  cases op with
  | filterReviews filters limit cursor scan =>
      exact ⟨history, s.listing_past hashtext postgres history past filters limit cursor scan, fun key member => .inl member⟩
  | reviews item limit cursor scan =>
      exact ⟨history, s.listing_past hashtext postgres history past _ limit cursor scan, fun key member => .inl member⟩
  | cacheEvent event =>
      exact ⟨history, ⟨past.distinct, past.stored, s.copies.holds_on _ event past.copied⟩, fun key member => .inl member⟩
  | request op =>
      have source : ∀ key ∈ (serve hashtext op s.world).2.db.reviews.map Review.key,
          key ∈ history ∨ (ReviewOperation.request op).Draws key.id := by
        intro key member
        obtain ⟨row, left, rfl⟩ := List.mem_map.mp member
        rcases served_keys hashtext op s.world row left with ⟨before, stored, same⟩ | drawn
        · exact .inl (same ▸ past.stored before stored)
        · exact .inr drawn
      obtain ⟨longer, distinct, stored, kept, added⟩ := history_grows ReviewKey.id history
        ((serve hashtext op s.world).2.db.reviews.map Review.key) (ReviewOperation.request op).Draws past.distinct
        (List.pairwise_map.mpr (s.after hashtext postgres (.request op)).valid.reviewIds)
        (one_review_drawn (.request op)) fresh source
      refine ⟨longer, ⟨distinct, fun row left => stored row.key (List.mem_map_of_mem left), ?_⟩, added⟩
      refine s.copies.holds_mono _ _ past.copied ?_
      rintro key value ⟨member, rest⟩
      exact ⟨kept _ member, rest⟩

theorem run_past (s : ReviewSystem) (ops : List ReviewOperation) (history : List ReviewKey) (past : s.Past history)
    (apart : ops.Pairwise fun a b => ∀ id, ¬ (a.Draws id ∧ b.Draws id)) (fresh : ∀ op ∈ ops, ∀ key ∈ history, ¬ op.Draws key.id) :
    ∃ longer, (s.run hashtext postgres ops).Past longer := by
  induction ops generalizing s history with
  | nil => exact ⟨history, past⟩
  | cons op rest ih =>
      obtain ⟨first, others⟩ := List.pairwise_cons.mp apart
      obtain ⟨longer, next, added⟩ := s.after_past hashtext postgres op history past (fresh op (by simp))
      refine ih (s.after hashtext postgres op) longer next others fun other later key member drawn => ?_
      rcases added key member with old | own
      · exact fresh other (List.mem_cons_of_mem _ later) key old drawn
      · exact first other later key.id ⟨own, drawn⟩

theorem run_faithful (s : ReviewSystem) (uncached : s.copies = .empty) (ops : List ReviewOperation) (fresh : s.FreshReviews ops) :
    (s.run hashtext postgres ops).Faithful := by
  have past : s.Past (s.world.db.reviews.map Review.key) := by
    refine ⟨List.pairwise_map.mpr s.valid.reviewIds, fun row stored => List.mem_map_of_mem stored, ?_⟩
    rw [uncached]
    exact State.holds_empty _
  obtain ⟨longer, last⟩ := s.run_past hashtext postgres ops _ past fresh.apart fun op listed key member drawn => by
    obtain ⟨row, stored, rfl⟩ := List.mem_map.mp member
    exact fresh.new op listed row.id drawn ⟨row, stored, rfl⟩
  exact past_faithful _ longer last

end ReviewSystem

end Reviews

end RateWise
