import RateWise.ItemInputs

set_option autoImplicit false

namespace RateWise

open ReadCommitted
open Interleave

-- The pipe counts UTF-16 units, the columns count characters.
theorem accepted_inputs_stored_iff (hashtext : Text → Int32) (toLowerCase : JsString → JsString)
    (presentationSequences : JsString → Nat)
    (stable : ∀ value, trimAndLowercase toLowerCase (trimAndLowercase toLowerCase value) = trimAndLowercase toLowerCase value)
    (world : World) (user : AuthenticatedUser) (permitted : ∃ account ∈ world.db.accounts, account.id = user.id)
    (row : Generated) :
    (∀ input item : Graphql.CreateItemInput, input.piped toLowerCase presentationSequences = some item →
      Yields (engine hashtext) (createItem item user row) world none fun result left _ =>
        ItemAnswered item user row world.db left.db result ↔ Storable world.db item user row) ∧
    (∀ input review : Graphql.CreateReviewInput, input.piped presentationSequences = some review →
      Yields (engine hashtext) (createReview review user row) world none fun result left _ =>
        ReviewAnswered review user row world.db left.db result ↔ ReviewStorable world.db review user row) := by
  constructor
  · intro input item accepted
    exact item_answered_iff hashtext item user row world permitted (piped_item_valid stable input item accepted)
  · intro input review accepted
    exact review_answered_iff hashtext review user row world permitted (piped_review_valid input review accepted)

def writer : Uuid := ⟨repeated '3', by decide⟩

def writerAccount : Account :=
  ⟨⟨writer, 0⟩, "writer".toList, "writer@mail".toList, "hash".toList, [.reviewer, .creator], .active⟩

def writerUser : AuthenticatedUser := ⟨writer, "writer@mail".toList, "writer".toList, .active, [.reviewer, .creator]⟩

def oneWriter : World := ⟨⟨[writerAccount], [], [], []⟩, Redis.empty⟩

def newItem : Generated := ⟨⟨repeated '4', by decide⟩, 0⟩

def plainItem (tags : Nullable (List JsString)) : Graphql.CreateItemInput :=
  ⟨Utf16.ofText "kettle".toList, Utf16.ofText "boils water".toList, Utf16.ofText "kitchen".toList, tags⟩

theorem accepted_inputs_stored_iff_null_tags :
    Yields (engine fun _ => 0) (createItem (plainItem .null) writerUser newItem) oneWriter none fun result left _ =>
      ItemAnswered (plainItem .null) writerUser newItem oneWriter.db left.db result ↔
        Storable oneWriter.db (plainItem .null) writerUser newItem :=
  (accepted_inputs_stored_iff (fun _ => 0) (fun value => value) (fun _ => 0) (fun value => trim_trim value) oneWriter writerUser
    ⟨writerAccount, by decide, rfl⟩ newItem).1 (plainItem .null) (plainItem .null) (by decide)

-- Null passes @IsOptional and reaches the NOT NULL column.
theorem null_tags_fail :
    (plainItem .null).piped (fun value => value) (fun _ => 0) = some (plainItem .null) ∧
      ¬ Yields (engine fun _ => 0) (createItem (plainItem .null) writerUser newItem) oneWriter none fun result left _ =>
        ItemAnswered (plainItem .null) writerUser newItem oneWriter.db left.db result := by
  refine ⟨by decide, ?_⟩
  rintro (⟨impossible, -⟩ | refused)
  · cases impossible
  · exact not_refused_internal refused

end RateWise
