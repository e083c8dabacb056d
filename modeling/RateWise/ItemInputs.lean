import RateWise.Inputs
import RateWise.Solo
import RateWise.Voting

set_option autoImplicit false

namespace RateWise

open Interleave
open ReadCommitted

namespace ITEM_RULES

def TITLE : LengthRule := ⟨5, 40⟩

def DESCRIPTION : LengthRule := ⟨5, 500⟩

def CATEGORY : LengthRule := ⟨3, 40⟩

def MAX_ARRAY_SIZE : Nat := 10

def TAG : LengthRule := ⟨2, 20⟩

end ITEM_RULES

namespace REVIEWS_RULES

def CONTENT : LengthRule := ⟨10, 2000⟩

def RATING_MIN : Int := 0

def RATING_MAX : Int := 10

end REVIEWS_RULES

inductive Nullable (α : Type) where
  | absent
  | null
  | value (given : α)
deriving DecidableEq

namespace Graphql

structure CreateItemInput where
  title : JsString
  description : JsString
  category : JsString
  tags : Nullable (List JsString)
deriving DecidableEq

namespace CreateItemInput

-- The argument of the field: an absent value takes the default.
def withDefaults (input : CreateItemInput) : CreateItemInput :=
  { input with tags := match input.tags with
    | .absent => .value []
    | given => given }

-- The @Transform decorators, which let null and undefined through.
def transform (toLowerCase : JsString → JsString) (input : CreateItemInput) : CreateItemInput where
  title := trim input.title
  description := trim input.description
  category := trimAndLowercase toLowerCase input.category
  tags := match input.tags with
    | .value tags => .value (trimAndLowerCaseArray toLowerCase tags)
    | missing => missing

-- @IsOptional skips the other decorators of a missing value.
def valid (presentationSequences : JsString → Nat) (input : CreateItemInput) : Bool :=
  hasLength presentationSequences ITEM_RULES.TITLE input.title &&
  hasLength presentationSequences ITEM_RULES.DESCRIPTION input.description &&
  hasLength presentationSequences ITEM_RULES.CATEGORY input.category &&
  match input.tags with
    | .value tags =>
        tags.length ≤ ITEM_RULES.MAX_ARRAY_SIZE && tags.all (hasLength presentationSequences ITEM_RULES.TAG)
    | _ => true

-- AppValidationPipe: plainToInstance, the validation, and instanceToPlain,
-- which runs the transforms once more.
def piped (toLowerCase : JsString → JsString) (presentationSequences : JsString → Nat) (input : CreateItemInput) :
    Option CreateItemInput :=
  let entity := input.withDefaults.transform toLowerCase
  if entity.valid presentationSequences then some (entity.transform toLowerCase) else none

end CreateItemInput

structure CreateReviewInput where
  content : JsString
  rating : Int
  itemId : JsString
deriving DecidableEq

namespace CreateReviewInput

def transform (input : CreateReviewInput) : CreateReviewInput := { input with content := trim input.content }

def valid (presentationSequences : JsString → Nat) (input : CreateReviewInput) : Bool :=
  hasLength presentationSequences REVIEWS_RULES.CONTENT input.content &&
    decide (REVIEWS_RULES.RATING_MIN ≤ input.rating ∧ input.rating ≤ REVIEWS_RULES.RATING_MAX)

def piped (presentationSequences : JsString → Nat) (input : CreateReviewInput) : Option CreateReviewInput :=
  if input.transform.valid presentationSequences then some input.transform.transform else none

end CreateReviewInput

end Graphql

-- The parameters of the INSERT that save sends for the object; an undefined
-- column takes its default, null stays null.
def itemParameters (item : Graphql.CreateItemInput) : Option CreateItemInput :=
  let columns (tags : List JsString) : CreateItemInput :=
    ⟨parameter item.title, parameter item.description, parameter item.category, tags.map parameter⟩
  match item.tags with
  | .absent => some (columns [])
  | .null => none
  | .value tags => some (columns tags)

def CreateItemInput.texts (columns : CreateItemInput) : List Text :=
  columns.title :: columns.description :: columns.category :: columns.tags

-- createItem: a NULL in the NOT NULL column tags and a NUL in a parameter
-- fail the INSERT with errors that are no duplicate key.
def createItem (item : Graphql.CreateItemInput) (user : AuthenticatedUser) (row : Generated) : Async Unit :=
  match itemParameters item with
  | none => reject .internalServerError
  | some columns =>
      if columns.texts.any hasNul then reject .internalServerError else ItemsService.createOne columns user row

-- createReview: the id is compared with the uuid pattern before it is sent.
def createReview (review : Graphql.CreateReviewInput) (user : AuthenticatedUser) (row : Generated) : Async Unit := do
  let item ← ItemsService.findOneByIdOrThrow (parameter review.itemId)
  if item.createdBy = user.id then
    reject (.gql .forbidden "Users cannot review their own items.")
  if hasNul (parameter review.content) then reject (.queryFailed .invalidText)
  Prog.catching
    (transaction (sql (.insertReview row (parameter review.content) review.rating user.id.text item.id.text)))
    fun error =>
      reject (if isDuplicatedKeyError error then .gql .conflict "You have already reviewed this item." else error)

section Items

def Graphql.CreateItemInput.listed (item : Graphql.CreateItemInput) : List JsString :=
  match item.tags with
  | .value tags => tags
  | _ => []

-- The strings that come back from the database as they went in.
def WellFormedItem (item : Graphql.CreateItemInput) : Prop :=
  Utf16.WellFormed item.title ∧ Utf16.WellFormed item.description ∧ Utf16.WellFormed item.category ∧
    ∀ tag ∈ item.listed, Utf16.WellFormed tag

def SameItem (item : Graphql.CreateItemInput) (stored : Item) : Prop :=
  Utf16.ofText stored.title = item.title ∧ Utf16.ofText stored.description = item.description ∧
    Utf16.ofText stored.category = item.category ∧ stored.tags.map Utf16.ofText = item.listed

-- CONFLICT, NOT_FOUND or FORBIDDEN.
def Refused (result : Except Err Unit) : Prop :=
  ∃ code message, result = .error (.gql code message) ∧ code ∈ [Code.conflict, Code.notFound, Code.forbidden]

def ItemAnswered (item : Graphql.CreateItemInput) (user : AuthenticatedUser) (row : Generated) (before after : Tables)
    (result : Except Err Unit) : Prop :=
  (result = .ok () ∧ ∃ stored : Item, after = before.apply (.insertItem stored) ∧ stored.toGenerated = row ∧
    stored.createdBy = user.id ∧ SameItem item stored) ∨ Refused result

def CreateItemInput.row (columns : CreateItemInput) (row : Generated) (owner : Uuid) : Item :=
  ⟨row, columns.title, columns.description, columns.category, columns.tags, owner⟩

def CreateItemInput.Short (columns : CreateItemInput) : Prop :=
  columns.title.length ≤ ITEM_RULES.TITLE.MAX ∧ columns.description.length ≤ ITEM_RULES.DESCRIPTION.MAX ∧
    columns.category.length ≤ ITEM_RULES.CATEGORY.MAX ∧ ∀ tag ∈ columns.tags, tag.length ≤ ITEM_RULES.TAG.MAX

-- The user has an item of this title, or the drawn id is in use.
def itemTaken (t : Tables) (stored : Item) : Bool :=
  t.items.any fun other => other.id = stored.id || (other.createdBy = stored.createdBy && other.title = stored.title)

def Storable (t : Tables) (item : Graphql.CreateItemInput) (user : AuthenticatedUser) (row : Generated) : Prop :=
  ∃ columns, itemParameters item = some columns ∧ columns.texts.any hasNul = false ∧ columns.Short ∧
    (itemTaken t (columns.row row user.id) = true ∨ WellFormedItem item)

variable {toLowerCase : JsString → JsString} {presentationSequences : JsString → Nat}

theorem transform_item_twice (stable : ∀ value, trimAndLowercase toLowerCase (trimAndLowercase toLowerCase value) =
    trimAndLowercase toLowerCase value) (item : Graphql.CreateItemInput) :
    (item.transform toLowerCase).transform toLowerCase = item.transform toLowerCase := by
  obtain ⟨title, description, category, tags⟩ := item
  cases tags with
  | absent => simp [Graphql.CreateItemInput.transform, trim_trim, stable]
  | null => simp [Graphql.CreateItemInput.transform, trim_trim, stable]
  | value tags => simp [Graphql.CreateItemInput.transform, trim_trim, stable, trimAndLowerCaseArray]

theorem piped_item_valid (stable : ∀ value, trimAndLowercase toLowerCase (trimAndLowercase toLowerCase value) =
    trimAndLowercase toLowerCase value) (input item : Graphql.CreateItemInput)
    (accepted : input.piped toLowerCase presentationSequences = some item) : item.valid presentationSequences = true := by
  simp only [Graphql.CreateItemInput.piped, transform_item_twice stable] at accepted
  split at accepted
  · rename_i valid
    cases accepted
    exact valid
  · cases accepted

theorem item_checks_iff (item : Graphql.CreateItemInput) (columns : CreateItemInput) (row : Generated) (owner : Uuid)
    (valid : item.valid presentationSequences = true) (sent : itemParameters item = some columns) :
    Tables.itemChecks (columns.row row owner) = true ↔ columns.Short := by
  obtain ⟨title, description, category, tags⟩ := item
  have between (rule : LengthRule) (value : JsString) (accepted : hasLength presentationSequences rule value = true) :
      (rule.MIN ≤ (parameter value).length ∧ (parameter value).length ≤ rule.MAX) ↔ (parameter value).length ≤ rule.MAX := by
    have checked := has_length_between presentationSequences rule value accepted
    simpa only [lengthBetween, Bool.and_eq_true, decide_eq_true_eq] using checked
  simp only [Graphql.CreateItemInput.valid, Bool.and_eq_true] at valid
  obtain ⟨⟨⟨titled, described⟩, categorised⟩, tagged⟩ := valid
  have one := between _ _ titled
  have two := between _ _ described
  have three := between _ _ categorised
  simp only [ITEM_RULES.TITLE, ITEM_RULES.DESCRIPTION, ITEM_RULES.CATEGORY] at one two three
  cases tags with
  | null => cases sent
  | absent =>
      cases sent
      simp [Tables.itemChecks, CreateItemInput.row, CreateItemInput.Short, one, two, three, ITEM_RULES.TITLE,
        ITEM_RULES.DESCRIPTION, ITEM_RULES.CATEGORY, and_assoc]
  | value tags =>
      cases sent
      simp only [Bool.and_eq_true, decide_eq_true_eq, List.all_eq_true] at tagged
      have four : (∀ tag ∈ tags, 2 ≤ (parameter tag).length ∧ (parameter tag).length ≤ 20) ↔
          ∀ tag ∈ tags, (parameter tag).length ≤ 20 :=
        forall_congr' fun tag => forall_congr' fun member => between ITEM_RULES.TAG tag (tagged.2 tag member)
      have few : tags.length ≤ 10 := tagged.1
      simp only [Tables.itemChecks, CreateItemInput.row, CreateItemInput.Short, Bool.and_eq_true, decide_eq_true_eq,
        List.all_eq_true, List.length_map, List.forall_mem_map, one, two, three, four, few, and_true, and_assoc]
      rfl

theorem same_item_iff (item : Graphql.CreateItemInput) (columns : CreateItemInput) (row : Generated) (owner : Uuid)
    (sent : itemParameters item = some columns) : SameItem item (columns.row row owner) ↔ WellFormedItem item := by
  obtain ⟨title, description, category, tags⟩ := item
  cases tags with
  | null => cases sent
  | absent =>
      cases sent
      simp [SameItem, WellFormedItem, CreateItemInput.row, Utf16.WellFormed, Graphql.CreateItemInput.listed, parameter]
  | value tags =>
      cases sent
      exact and_congr Iff.rfl (and_congr Iff.rfl (and_congr Iff.rfl (restored_iff tags)))

theorem item_refuses (t : Tables) (columns : CreateItemInput) (row : Generated) (user : AuthenticatedUser)
    (permitted : ∃ account ∈ t.accounts, account.id = user.id) :
    t.refuses (.insertItem row columns.title columns.description columns.category columns.tags user.id.text) =
      (Tables.checkFault (Tables.itemChecks (columns.row row user.id)) <|>
        Tables.uniqueFault (itemTaken t (columns.row row user.id))) := by
  have parent : (t.accounts.any fun account => account.id = user.id) = true := by
    simpa using permitted
  have known : ([user.id.text].all fun text => (uuidIn text).isSome) = true := by simp [uuid_in_text]
  have attempted : t.attempts (.insertItem row columns.title columns.description columns.category columns.tags
      user.id.text) = [.insertItem (columns.row row user.id)] := by
    simp only [Tables.attempts, itemRow, uuid_in_text]
    rfl
  have verdict : t.violation (.insertItem (columns.row row user.id)) =
      (Tables.checkFault (Tables.itemChecks (columns.row row user.id)) <|>
        Tables.uniqueFault (itemTaken t (columns.row row user.id)) <|>
        Tables.parentFault (t.accounts.any fun account => account.id = user.id)) := rfl
  simp only [Tables.refuses, Sql.uuids, known, if_true, attempted, List.findSome?_cons, List.findSome?_nil, verdict,
    parent]
  cases Tables.itemChecks (columns.row row user.id) <;> cases itemTaken t (columns.row row user.id) <;> rfl

variable (hashtext : Text → Int32)

theorem not_refused_internal : ¬ Refused (.error .internalServerError) := by
  rintro ⟨code, message, same, -⟩
  cases same

theorem insert_item_yields (item : Graphql.CreateItemInput) (columns : CreateItemInput) (user : AuthenticatedUser)
    (row : Generated) (world : World) (permitted : ∃ account ∈ world.db.accounts, account.id = user.id)
    (valid : item.valid presentationSequences = true) (sent : itemParameters item = some columns) :
    Yields (engine hashtext) (ItemsService.createOne columns user row) world none fun result left _ =>
      ItemAnswered item user row world.db left.db result ↔
        columns.Short ∧ (itemTaken world.db (columns.row row user.id) = true ∨ WellFormedItem item) := by
  have checks := item_checks_iff item columns row user.id valid sent
  have same := same_item_iff item columns row user.id sent
  have refuses := item_refuses world.db columns row user permitted
  refine yields_catching _ _ _ _ _ (yields_single (S := schema) (C := Redis.commands) _
    (Sql.insertItem row columns.title columns.description columns.category columns.tags user.id.text) world _ ?_ ?_)
  · intro fault verdict
    have found : world.db.refuses (.insertItem row columns.title columns.description columns.category columns.tags
      user.id.text) = some fault := verdict
    rw [refuses] at found
    by_cases short : columns.Short
    · rw [checks.mpr short] at found
      cases taken : itemTaken world.db (columns.row row user.id) with
      | false =>
          rw [taken] at found
          cases found
      | true =>
          rw [taken] at found
          cases found
          refine iff_of_true (.inr ⟨.conflict, "Item already exists", rfl, by simp⟩) ⟨short, .inl rfl⟩
    · have failed : Tables.itemChecks (columns.row row user.id) = false := by
        rw [← Bool.not_eq_true, checks]
        exact short
      rw [failed] at found
      cases found
      refine iff_of_false ?_ fun both => short both.1
      rintro (⟨impossible, -⟩ | refused)
      · cases impossible
      · exact not_refused_internal refused
  · intro verdict
    have found : world.db.refuses (.insertItem row columns.title columns.description columns.category columns.tags
      user.id.text) = none := verdict
    have attempted : world.db.attempts (.insertItem row columns.title columns.description columns.category columns.tags
        user.id.text) = [.insertItem (columns.row row user.id)] := by
      simp only [Tables.attempts, itemRow, uuid_in_text]
      rfl
    have rows : view schema world.db (world.db.attempts (.insertItem row columns.title columns.description
        columns.category columns.tags user.id.text)) = world.db.apply (.insertItem (columns.row row user.id)) :=
      congrArg (view schema world.db) attempted
    rw [refuses] at found
    cases checked : Tables.itemChecks (columns.row row user.id) with
    | false =>
        rw [checked] at found
        cases found
    | true =>
        cases taken : itemTaken world.db (columns.row row user.id) with
        | true =>
            rw [checked, taken] at found
            cases found
        | false =>
            constructor
            · rintro (⟨-, stored, stays, drawn, owner, content⟩ | ⟨code, message, impossible, -⟩)
              · have appended : world.db.items ++ [columns.row row user.id] = world.db.items ++ [stored] :=
                  congrArg Tables.items (rows.symm.trans stays)
                have only : columns.row row user.id = stored := by simpa using appended
                exact ⟨checks.mp checked, .inr (same.mp (only ▸ content))⟩
              · cases impossible
            · rintro ⟨-, impossible | safe⟩
              · cases impossible
              · exact .inl ⟨rfl, columns.row row user.id, rows, rfl, rfl, same.mpr safe⟩

theorem item_answered_iff (item : Graphql.CreateItemInput) (user : AuthenticatedUser) (row : Generated) (world : World)
    (permitted : ∃ account ∈ world.db.accounts, account.id = user.id)
    (valid : item.valid presentationSequences = true) :
    Yields (engine hashtext) (createItem item user row) world none fun result left _ =>
      ItemAnswered item user row world.db left.db result ↔ Storable world.db item user row := by
  have lost : ¬ ItemAnswered item user row world.db world.db (.error .internalServerError) := by
    rintro (⟨impossible, -⟩ | refused)
    · cases impossible
    · exact not_refused_internal refused
  cases sent : itemParameters item with
  | none =>
      rw [createItem, sent]
      refine iff_of_false lost ?_
      rintro ⟨columns, given, -⟩
      rw [sent] at given
      cases given
  | some columns =>
      have storable : Storable world.db item user row ↔ columns.texts.any hasNul = false ∧ columns.Short ∧
          (itemTaken world.db (columns.row row user.id) = true ∨ WellFormedItem item) := by
        simp [Storable, sent]
      rw [createItem, sent, storable]
      cases nul : columns.texts.any hasNul with
      | true =>
          refine iff_of_false ?_ fun all => by cases all.1
          simp only [nul, if_true]
          exact lost
      | false =>
          simp only [nul, Bool.false_eq_true, if_false, true_and]
          exact insert_item_yields hashtext item columns user row world permitted valid sent

end Items

section Reviews

def SameReview (review : Graphql.CreateReviewInput) (stored : Review) : Prop :=
  Utf16.ofText stored.content = review.content ∧ stored.rating = review.rating ∧
    uuidIn (parameter review.itemId) = some stored.relatedItem

def ReviewAnswered (review : Graphql.CreateReviewInput) (user : AuthenticatedUser) (row : Generated)
    (before after : Tables) (result : Except Err Unit) : Prop :=
  (result = .ok () ∧ ∃ stored : Review, after = before.apply (.insertReview stored) ∧ stored.toGenerated = row ∧
    stored.createdBy = user.id ∧ SameReview review stored) ∨ Refused result

def reviewTaken (t : Tables) (row : Generated) (owner item : Uuid) : Bool :=
  t.reviews.any fun other => other.id = row.id || (other.createdBy = owner && other.relatedItem = item)

-- The input names no item or one of the user, who gets to no INSERT then, or
-- its content can be stored.
def ReviewStorable (t : Tables) (review : Graphql.CreateReviewInput) (user : AuthenticatedUser) (row : Generated) : Prop :=
  ∀ item : Item, validUUID (parameter review.itemId) = true → t.answer (.findItem (parameter review.itemId)) = some item →
    item.createdBy ≠ user.id →
      hasNul (parameter review.content) = false ∧ (parameter review.content).length ≤ REVIEWS_RULES.CONTENT.MAX ∧
        (reviewTaken t row user.id item.id = true ∨ Utf16.WellFormed review.content)

variable {presentationSequences : JsString → Nat} (hashtext : Text → Int32)

theorem piped_review_valid (input review : Graphql.CreateReviewInput)
    (accepted : input.piped presentationSequences = some review) : review.valid presentationSequences = true := by
  have twice : input.transform.transform = input.transform := by
    simp only [Graphql.CreateReviewInput.transform, trim_trim]
  simp only [Graphql.CreateReviewInput.piped, twice] at accepted
  split at accepted
  · rename_i valid
    cases accepted
    exact valid
  · cases accepted

theorem found_item (t : Tables) (id : Text) (item : Item) (found : t.answer (.findItem id) = some item) :
    item ∈ t.items ∧ uuidIn id = some item.id := by
  have here : t.items.find? (fun row => some row.id = uuidIn id) = some item := found
  have same := List.find?_some here
  simp only [decide_eq_true_eq] at same
  exact ⟨List.mem_of_find?_eq_some here, same.symm⟩

theorem review_checks_iff (review : Graphql.CreateReviewInput) (row : Generated) (owner item : Uuid)
    (valid : review.valid presentationSequences = true) :
    Tables.reviewChecks ⟨row, parameter review.content, review.rating, 0, 0, owner, item⟩ = true ↔
      (parameter review.content).length ≤ REVIEWS_RULES.CONTENT.MAX := by
  simp only [Graphql.CreateReviewInput.valid, Bool.and_eq_true, decide_eq_true_eq] at valid
  have between := has_length_between presentationSequences _ _ valid.1
  simp only [lengthBetween, Bool.and_eq_true, decide_eq_true_eq] at between
  have rated : 0 ≤ review.rating ∧ review.rating ≤ 10 := valid.2
  simp only [Tables.reviewChecks, Bool.and_eq_true, decide_eq_true_eq, rated, and_true]
  exact between

theorem review_refuses (t : Tables) (content : Text) (rating : Int) (row : Generated) (user : AuthenticatedUser)
    (item : Item) (permitted : ∃ account ∈ t.accounts, account.id = user.id) (stored : item ∈ t.items) :
    t.refuses (.insertReview row content rating user.id.text item.id.text) =
      (Tables.checkFault (Tables.reviewChecks ⟨row, content, rating, 0, 0, user.id, item.id⟩) <|>
        Tables.uniqueFault (reviewTaken t row user.id item.id)) := by
  have author : (t.accounts.any fun account => account.id = user.id) = true := by simpa using permitted
  have reviewed : (t.items.any fun other => other.id = item.id) = true := by
    simpa using ⟨item, stored, rfl⟩
  have known : ([user.id.text, item.id.text].all fun text => (uuidIn text).isSome) = true := by simp [uuid_in_text]
  have attempted : t.attempts (.insertReview row content rating user.id.text item.id.text) =
      [.insertReview ⟨row, content, rating, 0, 0, user.id, item.id⟩] := by
    simp only [Tables.attempts, reviewRow, uuid_in_text]
    rfl
  have verdict : t.violation (.insertReview ⟨row, content, rating, 0, 0, user.id, item.id⟩) =
      (Tables.checkFault (Tables.reviewChecks ⟨row, content, rating, 0, 0, user.id, item.id⟩) <|>
        Tables.uniqueFault (reviewTaken t row user.id item.id) <|>
        Tables.parentFault (t.accounts.any fun account => account.id = user.id) <|>
        Tables.parentFault (t.items.any fun other => other.id = item.id)) := rfl
  simp only [Tables.refuses, Sql.uuids, known, if_true, attempted, List.findSome?_cons, List.findSome?_nil, verdict,
    author, reviewed]
  cases Tables.reviewChecks ⟨row, content, rating, 0, 0, user.id, item.id⟩ <;>
    cases reviewTaken t row user.id item.id <;> rfl

theorem not_refused_query (fault : Fault) : ¬ Refused (.error (.queryFailed fault)) := by
  rintro ⟨code, message, same, -⟩
  cases same

theorem insert_review_yields (review : Graphql.CreateReviewInput) (user : AuthenticatedUser) (row : Generated)
    (item : Item) (world : World) (permitted : ∃ account ∈ world.db.accounts, account.id = user.id)
    (stored : item ∈ world.db.items) (named : uuidIn (parameter review.itemId) = some item.id)
    (valid : review.valid presentationSequences = true) :
    Yields (engine hashtext) (Prog.catching
      (transaction (sql (.insertReview row (parameter review.content) review.rating user.id.text item.id.text)))
      fun error =>
        reject (if isDuplicatedKeyError error then .gql .conflict "You have already reviewed this item." else error))
      world none fun result left _ => ReviewAnswered review user row world.db left.db result ↔
        (parameter review.content).length ≤ REVIEWS_RULES.CONTENT.MAX ∧
          (reviewTaken world.db row user.id item.id = true ∨ Utf16.WellFormed review.content) := by
  have checks := review_checks_iff review row user.id item.id valid
  have refuses := review_refuses world.db (parameter review.content) review.rating row user item permitted stored
  refine yields_catching _ _ _ _ _ (yields_single (S := schema) (C := Redis.commands) _
    (Sql.insertReview row (parameter review.content) review.rating user.id.text item.id.text) world _ ?_ ?_)
  · intro fault verdict
    have found : world.db.refuses (.insertReview row (parameter review.content) review.rating user.id.text
      item.id.text) = some fault := verdict
    rw [refuses] at found
    by_cases short : (parameter review.content).length ≤ REVIEWS_RULES.CONTENT.MAX
    · rw [checks.mpr short] at found
      cases taken : reviewTaken world.db row user.id item.id with
      | false =>
          rw [taken] at found
          cases found
      | true =>
          rw [taken] at found
          cases found
          exact iff_of_true (.inr ⟨.conflict, "You have already reviewed this item.", rfl, by simp⟩) ⟨short, .inl rfl⟩
    · have failed : Tables.reviewChecks ⟨row, parameter review.content, review.rating, 0, 0, user.id, item.id⟩ = false := by
        rw [← Bool.not_eq_true, checks]
        exact short
      rw [failed] at found
      cases found
      refine iff_of_false ?_ fun both => short both.1
      rintro (⟨impossible, -⟩ | refused)
      · cases impossible
      · exact not_refused_query .checkViolation refused
  · intro verdict
    have found : world.db.refuses (.insertReview row (parameter review.content) review.rating user.id.text
      item.id.text) = none := verdict
    have attempted : world.db.attempts (.insertReview row (parameter review.content) review.rating user.id.text
        item.id.text) = [.insertReview ⟨row, parameter review.content, review.rating, 0, 0, user.id, item.id⟩] := by
      simp only [Tables.attempts, reviewRow, uuid_in_text]
      rfl
    have rows : view schema world.db (world.db.attempts (.insertReview row (parameter review.content) review.rating
        user.id.text item.id.text)) =
        world.db.apply (.insertReview ⟨row, parameter review.content, review.rating, 0, 0, user.id, item.id⟩) :=
      congrArg (view schema world.db) attempted
    rw [refuses] at found
    cases checked : Tables.reviewChecks ⟨row, parameter review.content, review.rating, 0, 0, user.id, item.id⟩ with
    | false =>
        rw [checked] at found
        cases found
    | true =>
        cases taken : reviewTaken world.db row user.id item.id with
        | true =>
            rw [checked, taken] at found
            cases found
        | false =>
            constructor
            · rintro (⟨-, written, stays, drawn, owner, content, -, -⟩ | ⟨code, message, impossible, -⟩)
              · have appended : world.db.reviews ++
                    [⟨row, parameter review.content, review.rating, 0, 0, user.id, item.id⟩] =
                    world.db.reviews ++ [written] :=
                  congrArg Tables.reviews (rows.symm.trans stays)
                have only : Review.mk row (parameter review.content) review.rating 0 0 user.id item.id = written := by
                  simpa using appended
                exact ⟨checks.mp checked, .inr (by rw [← only] at content; exact content)⟩
              · cases impossible
            · rintro ⟨-, impossible | safe⟩
              · cases impossible
              · exact .inl ⟨rfl, _, rows, rfl, rfl, safe, rfl, named⟩

theorem find_item_answers (id : Text) (world : World) (post : Except Err Item → World → Option (Tx schema Int32) → Prop)
    (missing : (∀ item, validUUID id = true → world.db.answer (.findItem id) ≠ some item) →
      post (.error ItemsService.notFound) world none)
    (found : ∀ item, validUUID id = true → world.db.answer (.findItem id) = some item → post (.ok item) world none) :
    Yields (engine hashtext) (ItemsService.findOneByIdOrThrow id) world none post := by
  cases parsed : validUUID id with
  | false =>
      simp only [ItemsService.findOneByIdOrThrow, parsed]
      exact missing fun item impossible => by simp [parsed] at impossible
  | true =>
      simp only [ItemsService.findOneByIdOrThrow, parsed]
      refine yields_bind _ _ _ _ _ (yields_sql (S := schema) (C := Redis.commands) _ (Sql.findItem id) world _ ?_ ?_)
      · intro fault verdict
        obtain ⟨uuid, parses⟩ := valid_uuid_parses id parsed
        have refused : world.db.refuses (.findItem id) = some fault := verdict
        simp [Tables.refuses, Sql.uuids, Tables.attempts, parses] at refused
      · intro _
        cases answered : world.db.answer (.findItem id) with
        | none =>
            simp only [answered]
            exact missing fun item _ => by simp [answered]
        | some item =>
            simp only [answered]
            exact found item parsed answered

theorem review_answered_iff (review : Graphql.CreateReviewInput) (user : AuthenticatedUser) (row : Generated)
    (world : World) (permitted : ∃ account ∈ world.db.accounts, account.id = user.id)
    (valid : review.valid presentationSequences = true) :
    Yields (engine hashtext) (createReview review user row) world none fun result left _ =>
      ReviewAnswered review user row world.db left.db result ↔ ReviewStorable world.db review user row := by
  refine yields_bind _ _ _ _ _ (find_item_answers hashtext _ world _ ?_ ?_)
  · intro missing
    exact iff_of_true (.inr ⟨.notFound, "Item not found", rfl, by simp⟩)
      fun item parsed found => absurd found (missing item parsed)
  · intro item parsed found
    obtain ⟨stored, named⟩ := found_item world.db _ item found
    have storable : ReviewStorable world.db review user row ↔ (item.createdBy ≠ user.id →
        hasNul (parameter review.content) = false ∧ (parameter review.content).length ≤ REVIEWS_RULES.CONTENT.MAX ∧
          (reviewTaken world.db row user.id item.id = true ∨ Utf16.WellFormed review.content)) := by
      simp [ReviewStorable, parsed, found]
    rw [storable]
    by_cases own : item.createdBy = user.id
    · simp only [own, if_true]
      exact iff_of_true (.inr ⟨.forbidden, _, rfl, by simp⟩) fun other => absurd rfl other
    · cases nul : hasNul (parameter review.content) with
      | true =>
          simp only [own, if_false, if_true]
          refine iff_of_false ?_ fun all => by cases (all own).1
          rintro (⟨impossible, -⟩ | refused)
          · cases impossible
          · exact not_refused_query .invalidText refused
      | false =>
          simp only [own, if_false, Bool.false_eq_true]
          refine yields_mono _ _ _ _ _ (insert_review_yields hashtext review user row item world permitted stored named
            valid) fun result left after holds => ?_
          rw [holds]
          simp [own]

end Reviews

end RateWise
