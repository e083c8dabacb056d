import RateWise.Relational
import RateWise.SerialOperations

set_option autoImplicit false

namespace RateWise

open Interleave
open ReadCommitted
open Relational

namespace Tables

-- A row of the common table expression actual.
structure ActualVotes where
  relatedReview : Uuid
  up : Nat
  down : Nat

-- COUNT(v.id) FILTER (WHERE v.action = action)
def counted (action : VoteAction) (rows : List (Review × Option Vote)) : Nat :=
  countFilter (fun row => row.2.map fun v => v.id) (fun row => row.2.map fun v => decide (v.action = action)) rows

-- FROM review r LEFT JOIN vote v ON v.related_review = r.id GROUP BY r.id
def actual (t : Tables) : List ActualVotes :=
  (groupBy (fun row => row.1.id) (leftJoin (fun r v => decide (v.relatedReview = r.id)) t.reviews t.votes)).map fun group =>
    ⟨group.1, counted .up group.2, counted .down group.2⟩

-- WHERE r.id = a.related_review AND (r.upvotes != a.up OR r.downvotes != a.down)
def outdated (r : Review) (a : ActualVotes) : Bool :=
  decide (r.id = a.relatedReview) && (decide (r.upVotes ≠ a.up) || decide (r.downVotes ≠ a.down))

-- The row changes of the statement as it is written.
def refreshed (t : Tables) : List Write :=
  (updateFrom outdated t.reviews t.actual).map fun pair => .setVotes pair.1.id pair.2.up pair.2.down

def recount (t : Tables) (row : Review) : Review :=
  { row with upVotes := t.countVotes row.id .up, downVotes := t.countVotes row.id .down }

def tally (t : Tables) (row : Review) : ActualVotes :=
  ⟨row.id, t.countVotes row.id .up, t.countVotes row.id .down⟩

theorem stale_iff (t : Tables) (row : Review) :
    t.stale row = true ↔ ∃ action, row.votes action ≠ t.countVotes row.id action := by
  simp only [stale, Bool.or_eq_true, decide_eq_true_eq]
  constructor
  · rintro (up | down)
    · exact ⟨.up, up⟩
    · exact ⟨.down, down⟩
  · rintro ⟨action, wrong⟩
    cases action with
    | up => exact .inl wrong
    | down => exact .inr wrong

theorem counted_alone (t : Tables) (row : Review) (action : VoteAction) :
    counted action (leftJoin (fun r v => decide (v.relatedReview = r.id)) [row] t.votes) = t.countVotes row.id action := by
  rw [counted, count_left_join, countVotes]
  exact List.countP_congr fun v _ => by simp

theorem find_actual (t : Tables) (row : Review) (stored : row ∈ t.reviews)
    (ids : t.reviews.Pairwise fun a b => a.id ≠ b.id) :
    t.actual.find? (outdated row) = if t.stale row then some (t.tally row) else none := by
  let joined := leftJoin (fun (r : Review) (v : Vote) => decide (v.relatedReview = r.id)) t.reviews t.votes
  have alone : joined.filter (fun pair => decide (pair.1.id = row.id)) =
      leftJoin (fun r v => decide (v.relatedReview = r.id)) [row] t.votes :=
    left_join_group (fun r : Review => r.id) _ t.reviews t.votes row stored ids
  obtain ⟨other, listed⟩ := left_join_nonempty (fun (r : Review) (v : Vote) => decide (v.relatedReview = r.id))
    t.reviews t.votes row stored
  have group := mem_groups (fun pair : Review × Option Vote => pair.1.id) joined (row, other) listed
  have found := find_key Prod.fst _ _ group (groups_distinct _ _) fun group =>
    decide (row.upVotes ≠ counted .up group.2) || decide (row.downVotes ≠ counted .down group.2)
  rw [alone, counted_alone, counted_alone] at found
  have same : (outdated row ∘ fun group : Uuid × List (Review × Option Vote) =>
      (⟨group.1, counted .up group.2, counted .down group.2⟩ : ActualVotes)) = fun group => decide (row.id = group.1) &&
        (decide (row.upVotes ≠ counted .up group.2) || decide (row.downVotes ≠ counted .down group.2)) := rfl
  have value : (decide (row.upVotes ≠ (t.countVotes row.id .up : Int)) ||
      decide (row.downVotes ≠ (t.countVotes row.id .down : Int))) = t.stale row := rfl
  rw [actual, List.find?_map, same, found, value]
  by_cases wrong : t.stale row = true
  · rw [if_pos wrong, if_pos wrong, Option.map_some, counted_alone, counted_alone]
    rfl
  · rw [if_neg wrong, if_neg wrong]
    rfl

theorem refreshed_attempts (t : Tables) (ids : t.reviews.Pairwise fun a b => a.id ≠ b.id) :
    t.refreshed = t.attempts .refreshReviewVotes := by
  have joined := update_from_filter outdated t.reviews t.actual t.stale t.tally fun row stored => find_actual t row stored ids
  rw [refreshed, joined, List.map_map]
  rfl

theorem recount_fresh (t : Tables) (row : Review) (fresh : t.stale row = false) : t.recount row = row := by
  have exact : ∀ action, row.votes action = t.countVotes row.id action := by
    intro action
    by_contra wrong
    rw [(stale_iff t row).mpr ⟨action, wrong⟩] at fresh
    cases fresh
  have up : row.upVotes = _ := exact .up
  have down : row.downVotes = _ := exact .down
  rw [recount, ← up, ← down]

theorem view_set_votes (t u : Tables) (rows : List Review) :
    view schema u (rows.map fun row => .setVotes row.id (t.countVotes row.id .up) (t.countVotes row.id .down)) =
      { u with reviews := u.reviews.map fun row => if row.id ∈ rows.map (fun r => r.id) then t.recount row else row } := by
  induction rows generalizing u with
  | nil => simp [view]
  | cons head rest ih =>
      rw [List.map_cons]
      refine (ih (u.apply (.setVotes head.id (t.countVotes head.id .up) (t.countVotes head.id .down)))).trans ?_
      simp only [apply, List.map_map]
      congr 1
      refine List.map_congr_left fun row _ => ?_
      by_cases here : row.id = head.id
      · simp [here, recount]
      · simp [here]

theorem view_refreshed (t : Tables) :
    view schema t (t.attempts .refreshReviewVotes) = { t with reviews := t.reviews.map t.recount } := by
  refine (view_set_votes t t (t.reviews.filter t.stale)).trans ?_
  congr 1
  refine List.map_congr_left fun row stored => ?_
  cases wrong : t.stale row with
  | true =>
      have listed : row.id ∈ (t.reviews.filter t.stale).map fun r => r.id :=
        List.mem_map.mpr ⟨row, List.mem_filter.mpr ⟨stored, wrong⟩, rfl⟩
      rw [if_pos listed]
  | false => rw [recount_fresh t row wrong, ite_self]

theorem recount_exact (t : Tables) : ({ t with reviews := t.reviews.map t.recount } : Tables).Exact := by
  intro row stored action
  obtain ⟨before, -, rfl⟩ := List.mem_map.mp stored
  cases action <;> rfl

theorem exact_fresh (t : Tables) (exact : t.Exact) : t.attempts .refreshReviewVotes = [] := by
  simp only [attempts, List.map_eq_nil_iff, List.filter_eq_nil_iff]
  intro row stored wrong
  obtain ⟨action, differs⟩ := (stale_iff t row).mp wrong
  exact differs (exact row stored action)

-- An integer column cannot hold the number of votes of some kind on a review.
def Countable (t : Tables) : Prop := ∀ row ∈ t.reviews, ∀ action, (t.countVotes row.id action : Int) ≤ maxInteger

instance (t : Tables) : Decidable t.Countable :=
  inferInstanceAs (Decidable (∀ row ∈ t.reviews, ∀ action, (t.countVotes row.id action : Int) ≤ maxInteger))

theorem countable_allowed (t : Tables) (countable : t.Countable) : t.refuses .refreshReviewVotes = none := by
  have met : ∀ w ∈ t.attempts .refreshReviewVotes, t.violation w = none := by
    intro w changed
    obtain ⟨row, kept, rfl⟩ := List.mem_map.mp changed
    have stored := (List.mem_filter.mp kept).1
    have inside : ∀ action, counterFault (t.countVotes row.id action) = none := by
      intro action
      have bound := countable row stored action
      rw [counterFault, if_neg (by omega), if_neg (by omega)]
    show (counterFault _ <|> counterFault _) = none
    rw [inside, inside]
    rfl
  rw [refuses, if_pos (by rfl)]
  exact List.findSome?_eq_none_iff.mpr met

end Tables

-- The review whose row an UPDATE changes. The trigger set_timestamp_on_review
-- fires for these, once for each.
def Write.updatedReview : Write → Option Uuid
  | .addVotes id _ _ => some id
  | .setVotes id _ _ => some id
  | _ => none

theorem updated_reviews (t : Tables) :
    (t.attempts .refreshReviewVotes).filterMap Write.updatedReview = (t.reviews.filter t.stale).map fun row => row.id := by
  simp only [Tables.attempts, List.filterMap_map]
  exact congrFun List.filterMap_eq_map _

def serially (hashtext : Text → Int32) (ops : List Operation) (world : World) : World :=
  ops.foldl (fun before op => (serve hashtext op before).2) world

theorem serially_serve_all (hashtext : Text → Int32) (ops : List Operation) (world : World) (m : Ledger) :
    serially hashtext ops world = (serveAll hashtext ops world m).1 := by
  induction ops generalizing world m with
  | nil => rfl
  | cons op rest ih => exact ih (serve hashtext op world).2 (op.book world.db m (serve hashtext op world).1)

theorem serially_exact (hashtext : Text → Int32) (ops : List Operation) (start : World) (valid : start.db.Integrity)
    (exact : start.db.Exact) :
    (serially hashtext ops start).db.Integrity ∧ (serially hashtext ops start).db.Exact := by
  obtain ⟨m, graph⟩ := start.db.graph_exists valid
  have booked := serve_all_booked hashtext ops start m ⟨valid, (Tables.exact_gap _).mp exact, graph⟩
  rw [← serially_serve_all] at booked
  exact ⟨booked.valid, (Tables.exact_gap _).mpr booked.gap⟩

def World.recounted (world : World) : World :=
  ⟨{ world.db with reviews := world.db.reviews.map world.db.recount }, world.store⟩

theorem refresh_serves (hashtext : Text → Int32) (world : World) (allowed : world.db.refuses .refreshReviewVotes = none) :
    serve hashtext .refreshReviewVotes world = (.ok true, world.recounted) := by
  have yields : Yields (engine hashtext) Operation.refreshReviewVotes.program world none
      fun result left _ => result = .ok true ∧ left = world.recounted := by
    refine yields_bind _ _ _ _ _ (yields_sql _ _ _ _ (fun fault refused => ?_) fun _ => ⟨rfl, ?_⟩)
    · cases allowed.symm.trans refused
    · exact congrArg (fun db => (⟨db, world.store⟩ : World)) (Tables.view_refreshed world.db)
  exact Prod.ext yields.1 yields.2

theorem refresh_refused (hashtext : Text → Int32) (world : World) (fault : Fault)
    (refused : world.db.refuses .refreshReviewVotes = some fault) :
    serve hashtext .refreshReviewVotes world = (.error (.queryFailed fault), world) := by
  have yields : Yields (engine hashtext) Operation.refreshReviewVotes.program world none
      fun result left _ => result = .error (.queryFailed fault) ∧ left = world := by
    refine yields_bind _ _ _ _ _ (yields_sql _ _ _ _ (fun other found => ?_) fun allowed => ?_)
    · cases refused.symm.trans found
      exact ⟨rfl, rfl⟩
    · cases refused.symm.trans allowed
  exact Prod.ext yields.1 yields.2

theorem recounted_fresh (world : World) (fresh : world.db.attempts .refreshReviewVotes = []) : world.recounted = world := by
  have same := Tables.view_refreshed world.db
  rw [fresh] at same
  exact congrArg (fun db => (⟨db, world.store⟩ : World)) same.symm

theorem fresh_allowed (t : Tables) (fresh : t.attempts .refreshReviewVotes = []) : t.refuses .refreshReviewVotes = none := by
  rw [Tables.refuses, fresh]
  rfl

theorem refresh_idle (hashtext : Text → Int32) (world : World) (valid : world.db.reviews.Pairwise fun a b => a.id ≠ b.id)
    (exact : world.db.Exact) :
    world.db.refreshed = [] ∧ serve hashtext .refreshReviewVotes world = (.ok true, world) := by
  have fresh := world.db.exact_fresh exact
  refine ⟨(world.db.refreshed_attempts valid).trans fresh, ?_⟩
  rw [refresh_serves hashtext world (fresh_allowed _ fresh), recounted_fresh world fresh]

theorem refresh_repairs_counters (hashtext : Text → Int32) (world : World)
    (ids : world.db.reviews.Pairwise fun a b => a.id ≠ b.id) (countable : world.db.Countable) :
    serve hashtext .refreshReviewVotes world =
      (.ok true, ⟨{ world.db with reviews := world.db.reviews.map world.db.recount }, world.store⟩) ∧
    world.recounted.db.Exact ∧
    (world.db.refreshed.filterMap Write.updatedReview).Nodup ∧
    (∀ row ∈ world.db.reviews, row.id ∈ world.db.refreshed.filterMap Write.updatedReview ↔
      ∃ action, row.votes action ≠ world.db.countVotes row.id action) ∧
    world.recounted.db.refreshed = [] ∧
    serve hashtext .refreshReviewVotes world.recounted = (.ok true, world.recounted) ∧
    ∀ start : World, start.db.Integrity → start.db.Exact → ∀ ops : List Operation,
      (serially hashtext ops start).db.refreshed = [] ∧
      serve hashtext .refreshReviewVotes (serially hashtext ops start) = (.ok true, serially hashtext ops start) := by
  have recountedIds : world.recounted.db.reviews.Pairwise fun a b => a.id ≠ b.id := List.pairwise_map.mpr ids
  obtain ⟨nothing, again⟩ := refresh_idle hashtext world.recounted recountedIds world.db.recount_exact
  refine ⟨refresh_serves hashtext world (world.db.countable_allowed countable), world.db.recount_exact, ?_, ?_,
    nothing, again, ?_⟩
  · rw [world.db.refreshed_attempts ids, updated_reviews]
    exact List.pairwise_map.mpr (ids.sublist List.filter_sublist)
  · intro row stored
    rw [world.db.refreshed_attempts ids, updated_reviews, ← Tables.stale_iff]
    constructor
    · intro listed
      obtain ⟨other, kept, same⟩ := List.mem_map.mp listed
      obtain ⟨present, wrong⟩ := List.mem_filter.mp kept
      rwa [Tables.pairwise_eq _ _ (fun _ _ => Ne.symm) ids other row present stored fun apart => apart same] at wrong
    · intro wrong
      exact List.mem_map.mpr ⟨row, List.mem_filter.mpr ⟨stored, wrong⟩, rfl⟩
  · intro start valid exact ops
    obtain ⟨kept, counts⟩ := serially_exact hashtext ops start valid exact
    exact refresh_idle hashtext _ kept.reviewIds counts

-- Distinct identifiers, as many as eight hexadecimal digits tell apart.
def hexChar (digit : Nat) : Char :=
  ['0', '1', '2', '3', '4', '5', '6', '7', '8', '9', 'a', 'b', 'c', 'd', 'e', 'f'].getD digit '0'

def hexDigits : Nat → Nat → Text
  | 0, _ => []
  | size + 1, number => hexChar (number % 16) :: hexDigits size (number / 16)

theorem hex_char_digit (digit : Nat) (small : digit < 16) : hexDigit (hexChar digit) = true := by
  revert small
  revert digit
  decide

theorem hex_char_injective (a b : Nat) (smallA : a < 16) (smallB : b < 16) (same : hexChar a = hexChar b) : a = b := by
  have apart : ∀ a < 16, ∀ b < 16, hexChar a = hexChar b → a = b := by decide
  exact apart a smallA b smallB same

theorem hex_digits_injective (size a b : Nat) (smallA : a < Nat.pow 16 size) (smallB : b < Nat.pow 16 size)
    (same : hexDigits size a = hexDigits size b) : a = b := by
  induction size generalizing a b with
  | zero =>
      have single : Nat.pow 16 0 = 1 := rfl
      omega
  | succ size ih =>
      obtain ⟨first, others⟩ := List.cons.inj same
      have digit := hex_char_injective _ _ (Nat.mod_lt a (by decide)) (Nat.mod_lt b (by decide)) first
      have larger : Nat.pow 16 (size + 1) = Nat.pow 16 size * 16 := rfl
      have rest := ih (a / 16) (b / 16) (Nat.div_lt_of_lt_mul (by omega)) (Nat.div_lt_of_lt_mul (by omega)) others
      omega

def numbered (number : Nat) : Uuid where
  text := hexDigits 8 number ++ "-0000-4000-8000-000000000000".toList
  canonical := by
    have digits : ∀ n, hexDigit (hexChar (n % 16)) = true := fun n => hex_char_digit _ (Nat.mod_lt n (by decide))
    simp [uuidPattern, fits, hexDigits, List.replicate, digits]
    decide

theorem numbered_injective (a b : Nat) (smallA : a < 4294967296) (smallB : b < 4294967296) (same : numbered a = numbered b) :
    a = b :=
  hex_digits_injective 8 a b smallA smallB (List.append_cancel_right (congrArg Uuid.text same))

def disputed : Review := ⟨⟨numbered 0, 0⟩, "a fair review".toList, 7, 0, 0, numbered 1, numbered 0⟩

-- A review with no vote counted and one vote of each of these accounts.
def crowded (size : Nat) : Tables where
  accounts := (List.range size).map fun n =>
    ⟨⟨numbered n, 0⟩, (numbered n).text, (numbered n).text, [], [.reviewer], .active⟩
  items := [⟨⟨numbered 0, 0⟩, "lamp".toList, "a lamp to read by".toList, "home".toList, [], numbered 0⟩]
  reviews := [disputed]
  votes := (List.range size).map fun n => ⟨⟨numbered n, 0⟩, .up, numbered n, numbered 0⟩

theorem crowded_integrity (size : Nat) (small : size ≤ 4294967296) : (crowded size).Integrity := by
  have distinct : (List.range size).Pairwise fun a b => numbered a ≠ numbered b := by
    refine (List.nodup_range (n := size)).imp_of_mem fun inA inB apart same => apart ?_
    have first := List.mem_range.mp inA
    have second := List.mem_range.mp inB
    exact numbered_injective _ _ (by omega) (by omega) same
  refine ⟨List.pairwise_map.mpr distinct, List.pairwise_map.mpr (distinct.imp fun apart same => apart same.1),
    List.pairwise_singleton _ _, ?_⟩
  intro v stored
  obtain ⟨n, -, rfl⟩ := List.mem_map.mp stored
  exact ⟨_, List.mem_singleton.mpr rfl, rfl⟩

theorem crowded_votes (size : Nat) : (crowded size).countVotes (numbered 0) .up = size := by
  rw [Tables.countVotes, crowded, List.countP_map]
  refine (List.countP_eq_length.mpr fun n _ => ?_).trans List.length_range
  simp

theorem crowded_refused (size : Nat) (large : Tables.maxInteger < size) :
    (crowded size).refuses .refreshReviewVotes = some .numericOutOfRange := by
  have counted := crowded_votes size
  have unvoted : (crowded size).countVotes (numbered 0) .down = 0 := by
    rw [Tables.countVotes, crowded, List.countP_map]
    exact List.countP_eq_zero.mpr fun n _ matched => by simp at matched
  have wrong : (crowded size).stale disputed = true := by
    refine (Tables.stale_iff _ _).mpr ⟨.up, fun same => ?_⟩
    have none : (0 : Int) = (crowded size).countVotes (numbered 0) .up := same
    rw [counted] at none
    simp only [Tables.maxInteger] at large
    omega
  have attempted : (crowded size).attempts .refreshReviewVotes = [.setVotes (numbered 0) size 0] := by
    have rows : (crowded size).reviews.filter (crowded size).stale = [disputed] :=
      List.filter_eq_self.mpr fun row stored => by rw [List.mem_singleton.mp stored, wrong]
    simp only [Tables.attempts, rows, List.map_cons, List.map_nil]
    rw [show disputed.id = numbered 0 from rfl, counted, unvoted]
    rfl
  have outside : Tables.counterFault size = some .numericOutOfRange := by
    rw [Tables.counterFault, if_neg (by omega), if_pos large]
  have violated : (crowded size).violation (.setVotes (numbered 0) size 0) = some .numericOutOfRange := by
    show (Tables.counterFault size <|> Tables.counterFault 0) = _
    rw [outside]
    rfl
  rw [Tables.refuses, if_pos (by rfl), attempted, List.findSome?_cons, violated]

-- Ann has voted for a review whose counters say two down votes; a second
-- review has no vote and a counter that says otherwise.
def miscounted : World :=
  ⟨{ Tables.empty with
      accounts := [⟨⟨numbered 0, 0⟩, "ann".toList, "ann@x".toList, [], [.reviewer], .active⟩]
      reviews := [⟨⟨numbered 1, 0⟩, "a fair review".toList, 7, 0, 2, numbered 2, numbered 3⟩,
        ⟨⟨numbered 4, 0⟩, "a second review".toList, 3, 1, 0, numbered 2, numbered 5⟩]
      votes := [⟨⟨numbered 6, 0⟩, .up, numbered 0, numbered 1⟩] }, Redis.empty⟩

theorem refresh_repairs_counters_ann :
    serve (fun _ => 0) .refreshReviewVotes miscounted =
      (.ok true, ⟨{ miscounted.db with reviews := miscounted.db.reviews.map miscounted.db.recount }, Redis.empty⟩) ∧
    miscounted.db.refreshed.filterMap Write.updatedReview = [numbered 1, numbered 4] ∧
    ∀ ops : List Operation, (serially (fun _ => 0) ops ⟨Tables.empty, Redis.empty⟩).db.refreshed = [] := by
  have ids : miscounted.db.reviews.Pairwise fun a b => a.id ≠ b.id := by decide
  have countable : miscounted.db.Countable := by decide
  have claim := refresh_repairs_counters (fun _ => 0) miscounted ids countable
  exact ⟨claim.1, by decide, fun ops =>
    (claim.2.2.2.2.2.2 ⟨Tables.empty, Redis.empty⟩ booked_empty.valid (fun _ stored => by cases stored) ops).1⟩

-- The cron job fails for good on one review with more votes than an integer
-- holds, and leaves the counters of that review and of all others as they were.
theorem refresh_fails_on_crowd :
    let world : World := ⟨crowded 2147483648, Redis.empty⟩
    world.db.Integrity ∧
    serve (fun _ => 0) .refreshReviewVotes world = (.error (.queryFailed .numericOutOfRange), world) ∧
    ∃ row ∈ world.db.reviews, row.votes .up = 0 ∧ world.db.countVotes row.id .up = 2147483648 := by
  have counted := crowded_votes 2147483648
  refine ⟨crowded_integrity 2147483648 (by omega), refresh_refused _ _ _ (crowded_refused 2147483648 (by decide)),
    _, List.mem_singleton.mpr rfl, rfl, counted⟩

end RateWise
