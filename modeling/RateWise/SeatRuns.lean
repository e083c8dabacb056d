import RateWise.Histories
import RateWise.SeatSteps

set_option autoImplicit false

namespace RateWise

open Interleave
open ReadCommitted (view pending Moved Sound Consistent)
open Tables (maxInteger)

def VoteRequest.Casts (q : VoteRequest) : Prop := ∃ action row, q.ballot = .cast action row

def Voted (q : VoteRequest) (t : Tables) : Prop := ∃ v, Own q t (some v) ∧ q.ballot.entry = some v.action

def Holding (lock : Int32) (tx : Option ApiTx) (p : VotePoint) : Prop :=
  ∀ answer, p = .closing answer → ∃ x, tx = some x ∧ lock ∈ x.advisory

section Steps

variable (q : VoteRequest) (hashtext : Text → Int32) (world left : World) (others : List ApiTx) (p p' : VotePoint)
variable (tx after : Option ApiTx) (event : Event Api)

theorem seat_inside (casts : q.Casts) (seat : SeatFacts q (hashtext q.key) world.db tx p) (clean : p.Clean)
    (free : p = .locking → ∀ other ∈ others, hashtext q.key ∉ other.advisory)
    (moved : Moved hashtext q.chart world others p tx p' after left event) :
    (∃ answer, p = .closing answer) ∨ ((∀ result, p' ≠ .ended result) ∧ Holding (hashtext q.key) after p') := by
  obtain ⟨action, row, kind⟩ := casts
  -- A statement under the lock is refused, or leaves the lock with the transaction.
  have under : ∀ ws (s : Sql) (next : s.Answer → VotePoint), tx = some ⟨ws, [hashtext q.key]⟩ →
      q.chart p = .stmt (.sql s) (VoteRequest.orUndo next) → (∀ reply result, next reply ≠ .ended result) →
      (∀ result, p' ≠ .ended result) ∧ Holding (hashtext q.key) after p' := by
    rintro ws s next rfl here onward
    obtain ⟨rfl, ⟨error, rfl, -⟩ | ⟨rfl, rfl⟩⟩ := seat_asked s next moved here
    · exact ⟨fun result impossible => (by cases impossible), fun answer impossible => by cases impossible⟩
    · exact ⟨onward _, fun answer _ => ⟨_, rfl, List.mem_singleton_self _⟩⟩
  cases p with
  | queued =>
      have here : q.chart .queued = .beginTx .checking := by simp [VoteRequest.chart, kind]
      obtain ⟨rfl, rfl, rfl, rfl⟩ := ReadCommitted.moved_begin moved here
      exact .inr ⟨fun result impossible => (by cases impossible), fun answer impossible => by cases impossible⟩
  | opening =>
      obtain ⟨rfl, rfl, rfl, rfl⟩ := ReadCommitted.moved_begin moved rfl
      exact .inr ⟨fun result impossible => (by cases impossible), fun answer impossible => by cases impossible⟩
  | checking =>
      cases seat
      refine .inr ?_
      obtain ⟨rfl, ⟨error, rfl, -⟩ | ⟨rfl, rfl⟩⟩ := seat_asked (.countReviews q.reviewId) _ moved rfl
      · exact ⟨fun result impossible => (by cases impossible), fun answer impossible => by cases impossible⟩
      · unfold VoteRequest.counted
        split
        · exact ⟨fun result impossible => (by cases impossible), fun answer impossible => by cases impossible⟩
        · exact ⟨fun result impossible => (by cases impossible), fun answer impossible => by cases impossible⟩
  | locking =>
      obtain ⟨rfl, review⟩ := seat
      rcases ReadCommitted.moved_try_lock moved rfl with ⟨-, -, -, -, other, holder, held⟩ | ⟨rfl, rfl, rfl, rfl, -⟩
      · exact absurd held (free rfl other holder)
      · exact .inr ⟨fun result impossible => (by cases impossible), fun answer impossible => by cases impossible⟩
  | looking =>
      refine .inr (under _ _ _ seat.1 rfl fun reply result => ?_)
      unfold VoteRequest.found
      cases reply with
      | none => simp [kind]
      | some v =>
          simp only [kind]
          split <;> simp
  | removing v => exact .inr (under _ _ _ seat.1 rfl fun reply result impossible => by cases impossible)
  | lowering v => exact .inr (under _ _ _ seat.1 rfl fun reply result => by simp [VoteRequest.lowered, kind])
  | adding other drawn =>
      obtain ⟨-, previous, opened, -⟩ := seat
      exact .inr (under _ _ _ opened rfl fun reply result impossible => by cases impossible)
  | raising other =>
      obtain ⟨drawn, previous, -, opened, -⟩ := seat
      exact .inr (under _ _ _ opened rfl fun reply result impossible => by cases impossible)
  | closing answer => exact .inl ⟨answer, rfl⟩
  | undoing error => cases clean
  | ended result =>
      refine (ReadCommitted.moved_ended moved ?_).elim
      cases result with
      | ok answer => exact .inl ⟨answer, rfl⟩
      | error error => exact .inr ⟨error, rfl⟩

theorem seat_commits (casts : q.Casts) (answer : Bool) (seat : SeatFacts q (hashtext q.key) world.db tx (.closing answer))
    (holding : Holding (hashtext q.key) tx (.closing answer))
    (moved : Moved hashtext q.chart world others (.closing answer) tx p' after left event) :
    p' = .ended (.ok true) ∧ after = none ∧ ∃ previous, Own q world.db previous ∧ pending tx = q.redo previous ∧
      left.db = view schema world.db (q.redo previous) := by
  obtain ⟨action, row, kind⟩ := casts
  rcases seat with ⟨-, rfl⟩ | ⟨previous, answered, rfl, review, own⟩
  · obtain ⟨x, opened, held⟩ := holding answer rfl
    cases opened
    cases held
  · obtain ⟨rfl, rfl, rfl, rfl⟩ := ReadCommitted.moved_commit moved rfl
    refine ⟨?_, rfl, previous, own, rfl, rfl⟩
    rw [answered]
    simp [VoteRequest.answer, kind]

end Steps

section Runs

variable {n : Nat} {hashtext : Text → Int32}

def asksLock : Option Api.Stmt → Option Text
  | some (.tryLock key) => some key
  | _ => none

-- No try for a lock meets a holder of the same hash, and the counters of the
-- review have room.
def Undropped (requests : Fin n → VoteRequest) (net : ApiNet hashtext n) : ApiMove hashtext n → Prop
  | .turn i => (∀ key ∈ asksLock (net.sessions i).prog.asked, ∀ other ∈ others net i, hashtext key ∉ other.advisory) ∧
      ∀ action ∈ [VoteAction.up, VoteAction.down], (net.world.db.countVotes (requests i).review action : Int) < maxInteger
  | _ => True

instance (requests : Fin n → VoteRequest) (net : ApiNet hashtext n) : ∀ move, Decidable (Undropped requests net move)
  | .turn i => inferInstanceAs (Decidable ((∀ key ∈ asksLock (net.sessions i).prog.asked, ∀ other ∈ others net i,
      hashtext key ∉ other.advisory) ∧
      ∀ action ∈ [VoteAction.up, VoteAction.down], (net.world.db.countVotes (requests i).review action : Int) < maxInteger))
  | .fault _ _ => .isTrue trivial
  | .drift _ => .isTrue trivial

-- Requests of different users or on different reviews, whose new rows get ids of
-- their own, over tables with their users and reviews.
structure DistinctPairs (requests : Fin n → VoteRequest) (t : Tables) : Prop where
  casts : ∀ i, (requests i).Casts
  pairs : ∀ i j, i ≠ j → ¬ ((requests i).user = (requests j).user ∧ (requests i).review = (requests j).review)
  accounts : ∀ i, ∃ account ∈ t.accounts, account.id = (requests i).user
  reviews : ∀ i, t.HasReview (requests i).review
  drawn : ∀ i action row, (requests i).ballot = .cast action row → ∀ v ∈ t.votes, v.id ≠ row.id
  fresh : ∀ i j action other row drawn, i ≠ j → (requests i).ballot = .cast action row →
    (requests j).ballot = .cast other drawn → row.id ≠ drawn.id

def Seat (q : VoteRequest) (t : Tables) (session : ApiSession hashtext) : Prop := ∃ p, Follows q.chart session.prog p ∧
  SeatFacts q (hashtext q.key) t session.tx p ∧ p.Clean ∧ Holding (hashtext q.key) session.tx p ∧
  ∀ result, p = .ended result → result = .ok true ∧ Voted q t

structure Seated (requests : Fin n → VoteRequest) (start : Tables) (net : ApiNet hashtext n) : Prop where
  consistent : Consistent Tables.integrity net
  exact : net.world.db.Exact
  accounts : net.world.db.accounts = start.accounts
  reviews : ∀ id, net.world.db.HasReview id ↔ start.HasReview id
  seats : ∀ i, Seat (requests i) net.world.db (net.sessions i)
  drawn : ∀ v ∈ net.world.db.votes, v ∈ start.votes ∨
    ∃ i action row, Finished net i ∧ (requests i).ballot = .cast action row ∧ v.id = row.id
  others : ∀ v, (∀ i, ¬ (v.createdBy = (requests i).user ∧ v.relatedReview = (requests i).review)) →
    (v ∈ net.world.db.votes ↔ v ∈ start.votes)

theorem seated_launch (requests : Fin n → VoteRequest) (start : World) (valid : start.db.Integrity) (exact : start.db.Exact) :
    Seated requests start.db (launch start fun i => (requests i).program : ApiNet hashtext n) where
  consistent := ReadCommitted.launch_consistent Tables.integrity start _ valid
  exact := exact
  accounts := rfl
  reviews _ := Iff.rfl
  seats i := ⟨.queued, (requests i).follows_program, rfl, trivial, fun answer impossible => (by cases impossible),
    fun result impossible => by cases impossible⟩
  drawn _ stored := .inl stored
  others _ _ := Iff.rfl

theorem seat_kept (q other : VoteRequest) (t : Tables) (previous : Option Vote) (session : ApiSession hashtext)
    (valid : t.Integrity) (own : Own q t previous) (apart : ¬ (other.user = q.user ∧ other.review = q.review))
    (seat : Seat other t session) : Seat other (view schema t (q.redo previous)) session := by
  obtain ⟨p, follows, facts, clean, holding, ends⟩ := seat
  refine ⟨p, follows, ?_, clean, holding, fun result ended => ⟨(ends result ended).1, ?_⟩⟩
  · refine seat_stable other t (hashtext other.key) _ p session.tx facts (fun id review => ?_) fun _ mine kept => ?_
    · exact ((voting_view t _ (voting_redo q previous)).2 id).mpr review
    · exact own_redo q other t previous mine valid own apart kept
  · obtain ⟨v, mine, entry⟩ := (ends result ended).2
    exact ⟨v, own_redo q other t previous (some v) valid own apart mine, entry⟩

theorem seat_finished (q : VoteRequest) (t : Tables) (session : ApiSession hashtext) (seat : Seat q t session)
    (result : Except Err Bool) (outcome : session.outcome = some result) : result = .ok true ∧ Voted q t := by
  obtain ⟨p, follows, -, -, -, ends⟩ := seat
  rcases follows_outcome q.chart session p result follows outcome with ⟨value, rfl, here⟩ | ⟨error, rfl, here⟩
  · cases p with
    | ended found =>
        cases found with
        | ok answer =>
            cases here
            exact ends _ rfl
        | error error => cases here
    | queued =>
        exfalso
        cases kind : q.ballot <;> simp [VoteRequest.chart, kind] at here
    | _ => cases here
  · cases p with
    | ended found =>
        cases found with
        | ok answer => cases here
        | error other => exact absurd (ends _ rfl).1 (by simp)
    | queued =>
        exfalso
        cases kind : q.ballot <;> simp [VoteRequest.chart, kind] at here
    | _ => cases here

theorem seated_clear (requests : Fin n → VoteRequest) (start : Tables) (apart : DistinctPairs requests start) (net : ApiNet hashtext n)
    (seated : Seated requests start net) (i : Fin n) (undropped : Undropped requests net (.turn i))
    (running : (net.sessions i).outcome = none) : Clear (requests i) net.world.db where
  review := (seated.reviews _).mpr (apart.reviews i)
  account := by
    rw [seated.accounts]
    exact apart.accounts i
  fresh action row kind v stored same := by
    rcases seated.drawn v stored with old | ⟨j, other, drawn, finished, cast, equal⟩
    · exact apart.drawn i action row kind v old same
    · refine apart.fresh i j action other row drawn (fun here => ?_) kind cast (same.symm.trans equal)
      rw [← here] at finished
      exact finished running
  room action := by
    cases action with
    | up => exact undropped.2 .up (by simp)
    | down => exact undropped.2 .down (by simp)

theorem seated_turn (requests : Fin n → VoteRequest) (start : Tables) (apart : DistinctPairs requests start) (net next : ApiNet hashtext n)
    (i : Fin n) (seated : Seated requests start net) (undropped : Undropped requests net (.turn i))
    (stepped : step net (.turn i) = some next) : Seated requests start next := by
  have consistent := ReadCommitted.step_consistent Tables.integrity net next (.turn i) seated.consistent stepped
  have valid : net.world.db.Integrity := seated.consistent.world
  have sound : Sound (S := schema) Tables.Applies net.world.db (pending (net.sessions i).tx) := seated.consistent.session i
  obtain ⟨⟨left, session⟩, advanced, rfl⟩ := Option.map_eq_some_iff.mp stepped
  have running : (net.sessions i).outcome = none := by
    by_contra ended
    rw [(advance_ended net.world (others net i) (net.sessions i) ended).1] at advanced
    cases advanced
  have elsewhere : ∀ j, Finished net j → j ≠ i := fun j finished here => finished (here ▸ running)
  obtain ⟨p, follows, facts, clean, holding, ends⟩ := seated.seats i
  obtain ⟨p', event, onward, logged, moved⟩ :=
    ReadCommitted.advance_moved (requests i).chart net.world left (others net i) (net.sessions i) session p follows advanced
  by_cases closing : ∃ answer, p = .closing answer
  · obtain ⟨answer, rfl⟩ := closing
    obtain ⟨rfl, closed, previous, own, wrote, rows⟩ := seat_commits (requests i) hashtext net.world left (others net i) p'
      _ session.tx event (apart.casts i) answer facts holding moved
    rw [wrote] at sound
    obtain ⟨accounts, reviews⟩ := voting_view net.world.db _ (voting_redo (requests i) previous)
    have ended : session.prog = .done true := follows_done onward rfl
    have voted : Voted (requests i) left.db := by
      obtain ⟨last, mine, entry⟩ := redo_own (requests i) net.world.db previous valid own
      obtain ⟨action, row, kind⟩ := apart.casts i
      cases last with
      | none => simp [kind, Ballot.entry] at entry
      | some v => exact ⟨v, by rw [rows]; exact mine, entry.symm⟩
    refine ⟨consistent, ?_, ?_, fun id => ?_, ?_, fun v stored => ?_, fun v foreign => ?_⟩
    · show left.db.Exact
      rw [rows]
      exact exact_redo (requests i) net.world.db previous valid seated.exact sound own
    · show left.db.accounts = start.accounts
      rw [rows, accounts, seated.accounts]
    · show left.db.HasReview id ↔ _
      rw [rows, reviews, seated.reviews]
    · refine (Function.forall_update_iff net.sessions fun j s => Seat (requests j) left.db s).mpr
        ⟨⟨_, onward, closed, trivial, fun answer impossible => (by cases impossible), fun result same => ?_⟩, fun j different => ?_⟩
      · cases same
        exact ⟨rfl, voted⟩
      · rw [rows]
        exact seat_kept (requests i) (requests j) net.world.db previous _ valid own (apart.pairs j i different) (seated.seats j)
    · have member : v ∈ (view schema net.world.db ((requests i).redo previous)).votes := rows ▸ stored
      rcases redo_ids (requests i) net.world.db previous v member with old | ⟨action, row, kind, same⟩
      · rcases seated.drawn v old with first | ⟨j, action, row, finished, kind, same⟩
        · exact .inl first
        · refine .inr ⟨j, action, row, ?_, kind, same⟩
          show (Function.update net.sessions i session j).outcome ≠ none
          rw [Function.update_of_ne (elsewhere j finished)]
          exact finished
      · refine .inr ⟨i, action, row, ?_, kind, same⟩
        show (Function.update net.sessions i session i).outcome ≠ none
        rw [Function.update_self, Session.outcome, ended]
        exact Option.some_ne_none _
    · show v ∈ left.db.votes ↔ _
      rw [rows, redo_foreign (requests i) net.world.db previous v valid own (foreign i)]
      exact seated.others v foreign
  · obtain ⟨facts', cleans, rows⟩ := seat_moved (requests i) hashtext net.world left (others net i) p p' _ session.tx event valid
      seated.exact sound facts moved
    obtain ⟨going, held⟩ := (seat_inside (requests i) hashtext net.world left (others net i) p p' _ session.tx event
      (apart.casts i) facts clean (fun here => undropped.1 _ (by
        subst here
        rw [follows_asks follows rfl]
        rfl)) moved).resolve_left closing
    have same : left.db = net.world.db := by
      rcases rows with same | ⟨previous, here, -⟩
      · exact same
      · exact absurd ⟨_, here⟩ closing
    refine ⟨consistent, ?_, ?_, fun id => ?_, ?_, fun v stored => ?_, fun v foreign => ?_⟩
    · exact same ▸ seated.exact
    · exact same ▸ seated.accounts
    · exact same ▸ seated.reviews id
    · refine (Function.forall_update_iff net.sessions fun j s => Seat (requests j) left.db s).mpr ⟨⟨p', onward, facts',
        cleans (seated_clear requests start apart net seated i undropped running) clean, held,
        fun result ended => absurd ended (going result)⟩, fun j _ => ?_⟩
      rw [same]
      exact seated.seats j
    · have member : v ∈ net.world.db.votes := same ▸ stored
      rcases seated.drawn v member with first | ⟨j, action, row, finished, kind, equal⟩
      · exact .inl first
      · refine .inr ⟨j, action, row, ?_, kind, equal⟩
        show (Function.update net.sessions i session j).outcome ≠ none
        rw [Function.update_of_ne (elsewhere j finished)]
        exact finished
    · show v ∈ left.db.votes ↔ _
      rw [same]
      exact seated.others v foreign

theorem seated_run (requests : Fin n → VoteRequest) (start : World) (valid : start.db.Integrity) (exact : start.db.Exact)
    (apart : DistinctPairs requests start.db) (order : List (Fin n)) (final : ApiNet hashtext n)
    (undropped : Meets (Undropped requests) (launch start fun i => (requests i).program : ApiNet hashtext n) (order.map .turn))
    (reached : run (launch start fun i => (requests i).program) (order.map .turn) = some final) :
    Seated requests start.db final := by
  have onward : ∀ (order : List (Fin n)) (net : ApiNet hashtext n), Seated requests start.db net →
      Meets (Undropped requests) net (order.map .turn) → run net (order.map .turn) = some final →
      Seated requests start.db final := by
    intro order
    induction order with
    | nil =>
        intro net seated _ ended
        cases ended
        exact seated
    | cons i rest ih =>
        intro net seated met ended
        obtain ⟨next, stepped, later⟩ := Option.bind_eq_some_iff.mp ended
        exact ih next (seated_turn requests start.db apart net next i seated met.1 stepped) (met.2 next stepped) later
  exact onward order _ (seated_launch requests start valid exact) undropped reached

end Runs

section Growth

variable {n : Nat} {hashtext : Text → Int32}

theorem upvotes_grow (requests : Fin n → VoteRequest) (start final : Tables) (review : Uuid) (before : start.Integrity)
    (after : final.Integrity) (upvotes : ∀ i, (requests i).review = review ∧ (requests i).ballot.entry = some .up)
    (pairs : ∀ i j, i ≠ j → ¬ ((requests i).user = (requests j).user ∧ (requests i).review = (requests j).review))
    (unvoted : ∀ i, Own (requests i) start none) (voted : ∀ i, Voted (requests i) final)
    (others : ∀ v, (∀ i, ¬ (v.createdBy = (requests i).user ∧ v.relatedReview = (requests i).review)) →
      (v ∈ final.votes ↔ v ∈ start.votes)) :
    final.countVotes review .up = start.countVotes review .up + n := by
  let voters := fun i => (requests i).user
  have distinct : Function.Injective voters := by
    intro i j same
    by_contra different
    exact pairs i j different ⟨same, (upvotes i).1.trans (upvotes j).1.symm⟩
  obtain ⟨m, was⟩ := start.graph_exists before
  obtain ⟨k, is⟩ := final.graph_exists after
  rw [Tables.count_ledger final k after is, Tables.count_ledger start m before was]
  have grown : {user | k user review = some .up} =
      {user | m user review = some .up} ∪ Set.range voters := by
    ext user
    simp only [Set.mem_union, Set.mem_range]
    constructor
    · intro entry
      by_cases mine : ∃ i, voters i = user
      · exact .inr mine
      · refine .inl ?_
        obtain ⟨v, stored, owner, on, same⟩ := (is user review .up).mp entry
        refine (was user review .up).mpr ⟨v, (others v fun i both => mine ⟨i, ?_⟩).mp stored, owner, on, same⟩
        exact both.1.symm.trans owner
    · rintro (entry | ⟨i, rfl⟩)
      · obtain ⟨v, stored, owner, on, same⟩ := (was user review .up).mp entry
        exact (is user review .up).mpr
          ⟨v, (others v fun i both => unvoted i v stored both).mpr stored, owner, on, same⟩
      · obtain ⟨v, ⟨stored, owner, on⟩, entry⟩ := voted i
        refine (is _ review .up).mpr ⟨v, stored, owner, on.trans (upvotes i).1, ?_⟩
        exact Option.some.inj (entry.symm.trans (upvotes i).2)
  have apart : Disjoint {user | m user review = some .up} (Set.range voters) := by
    refine Set.disjoint_left.mpr ?_
    rintro _ entry ⟨i, rfl⟩
    obtain ⟨v, stored, owner, on, -⟩ := (was (voters i) review .up).mp entry
    exact unvoted i v stored ⟨owner, on.trans (upvotes i).1.symm⟩
  have few : {user | m user review = some .up}.Finite := by
    refine Set.Finite.subset (List.finite_toSet (start.votes.map Vote.createdBy)) fun user entry => ?_
    obtain ⟨v, stored, owner, -⟩ := (was user review .up).mp entry
    exact List.mem_map.mpr ⟨v, stored, owner⟩
  have finite : (Set.range voters).Finite := by
    refine Set.Finite.subset (List.finite_toSet (List.ofFn voters)) ?_
    rintro _ ⟨i, rfl⟩
    exact List.mem_ofFn.mpr ⟨i, rfl⟩
  rw [grown, Set.ncard_union_eq apart few finite, ← Set.image_univ,
    Set.ncard_image_of_injective _ distinct, Set.ncard_univ, Nat.card_eq_fintype_card, Fintype.card_fin]

theorem distinct_votes_recorded (requests : Fin n → VoteRequest) (start : World) (order : List (Fin n)) (final : ApiNet hashtext n)
    (valid : start.db.Integrity) (exact : start.db.Exact) (apart : DistinctPairs requests start.db)
    (undropped : Meets (Undropped requests) (launch start fun i => (requests i).program : ApiNet hashtext n) (order.map .turn))
    (reached : run (launch start fun i => (requests i).program) (order.map .turn) = some final)
    (finished : ∀ i, Finished final i) :
    (∀ i, (final.sessions i).outcome = some (.ok true)) ∧
    (∀ i action row, (requests i).ballot = .cast action row → ∃ v ∈ final.world.db.votes,
      v.createdBy = (requests i).user ∧ v.relatedReview = (requests i).review ∧ v.action = action) ∧
    ∀ review, (∀ i, (requests i).review = review ∧ ∃ row, (requests i).ballot = .cast .up row) →
      (∀ i, ∀ v ∈ start.db.votes, ¬ (v.createdBy = (requests i).user ∧ v.relatedReview = review)) →
      final.world.db.countVotes review .up = start.db.countVotes review .up + n ∧
      ∀ before ∈ start.db.reviews, ∀ after ∈ final.world.db.reviews, before.id = review → after.id = review →
        after.votes .up = before.votes .up + n := by
  have seated := seated_run requests start valid exact apart order final undropped reached
  have done : ∀ i, (final.sessions i).outcome = some (.ok true) ∧ Voted (requests i) final.world.db := by
    intro i
    obtain ⟨result, outcome⟩ := Option.ne_none_iff_exists'.mp (finished i)
    obtain ⟨rfl, voted⟩ := seat_finished (requests i) final.world.db _ (seated.seats i) result outcome
    exact ⟨outcome, voted⟩
  refine ⟨fun i => (done i).1, fun i action row kind => ?_, fun review upvotes unvoted => ?_⟩
  · obtain ⟨v, ⟨stored, owner, on⟩, entry⟩ := (done i).2
    rw [kind] at entry
    exact ⟨v, stored, owner, on, (Option.some.inj entry).symm⟩
  · have grown : final.world.db.countVotes review .up = start.db.countVotes review .up + n := by
      refine upvotes_grow requests start.db final.world.db review valid seated.consistent.world (fun i => ?_) apart.pairs
        (fun i v stored both => ?_) (fun i => (done i).2) seated.others
      · obtain ⟨same, row, kind⟩ := upvotes i
        exact ⟨same, by rw [kind]; rfl⟩
      · exact unvoted i v stored ⟨both.1, both.2.trans (upvotes i).1⟩
    refine ⟨grown, fun before stored after kept same equal => ?_⟩
    rw [seated.exact after kept .up, exact before stored .up, equal, same, grown]
    push_cast
    rfl

end Growth

def unvoted : Tables where
  accounts := votedUp.accounts
  items := []
  reviews := [⟨⟨reviewUuid, 1⟩, [], 5, 0, 0, bob, bob⟩]
  votes := []

def unvotedWorld : World := ⟨unvoted, Redis.empty⟩

def upvoters : Fin 2 → Uuid
  | 0 => ann
  | 1 => bob

def drawnRows (i : Fin 2) : Generated := ⟨upvoters i, 6⟩

theorem review_text_valid : validUUID reviewText = true := by decide

def bothUpvote (i : Fin 2) : VoteRequest := ⟨reviewText, review_text_valid, upvoters i, .cast .up (drawnRows i)⟩

theorem upvoters_apart : DistinctPairs bothUpvote unvoted where
  casts i := ⟨.up, drawnRows i, rfl⟩
  pairs := by decide
  accounts := by decide
  reviews := by decide
  drawn i action row kind v stored := by cases stored
  fresh := by
    rintro i j action other row drawn different ⟨⟩ ⟨⟩
    exact (by decide : ∀ i j : Fin 2, i ≠ j → (drawnRows i).id ≠ (drawnRows j).id) i j different

def annTurn : Fin 2 := ⟨0, Nat.zero_lt_two⟩

def bobTurn : Fin 2 := ⟨1, Nat.one_lt_two⟩

-- Bob asks for his lock while Ann holds hers.
def whileHeld : List (Fin 2) := List.replicate 3 annTurn ++ List.replicate 4 bobTurn ++ List.replicate 4 annTurn

-- Under one hash for both keys Bob is told that he has voted, and he has not.
theorem colliding_vote_lost : ¬ ∀ (n : Nat) (hashtext : Text → Int32) (requests : Fin n → VoteRequest) (start : World)
    (order : List (Fin n)) (final : ApiNet hashtext n), start.db.Integrity → start.db.Exact → DistinctPairs requests start.db →
    run (launch start fun i => (requests i).program) (order.map .turn) = some final → (∀ i, Finished final i) →
    ∀ i action row, (requests i).ballot = .cast action row → ∃ v ∈ final.world.db.votes,
      v.createdBy = (requests i).user ∧ v.relatedReview = (requests i).review ∧ v.action = action := by
  intro claim
  obtain ⟨final, reached, finished, absent⟩ := run_exists
    (launch unvotedWorld fun i => (bothUpvote i).program : ApiNet (fun _ => 0) 2) (whileHeld.map .turn)
    (fun final => (∀ i, Finished final i) ∧ ∀ v ∈ final.world.db.votes, v.createdBy ≠ bob) (by decide)
  obtain ⟨v, stored, owner, -⟩ := claim 2 (fun _ => 0) bothUpvote unvotedWorld whileHeld final
    ⟨by decide, by decide, by decide, by decide⟩ (by decide) upvoters_apart reached finished bobTurn .up (drawnRows bobTurn) rfl
  exact absent v stored owner

def bobsHash (key : Text) : Int32 := if '2' ∈ key then 1 else 0

-- The same with a lock for each of them; Bob finds the counter that Ann leaves.
def eachLocks : List (Fin 2) :=
  List.replicate 3 annTurn ++ List.replicate 3 bobTurn ++ List.replicate 4 annTurn ++ List.replicate 4 bobTurn

theorem distinct_votes_recorded_both : ∃ final : ApiNet bobsHash 2,
    run (launch unvotedWorld fun i => (bothUpvote i).program) (eachLocks.map .turn) = some final ∧
      final.world.db.countVotes reviewUuid .up = 2 := by
  obtain ⟨final, reached, finished⟩ := run_exists
    (launch unvotedWorld fun i => (bothUpvote i).program : ApiNet bobsHash 2) (eachLocks.map .turn)
    (fun final => ∀ i, Finished final i) (by decide)
  obtain ⟨-, -, grown⟩ := distinct_votes_recorded bothUpvote unvotedWorld eachLocks final
    ⟨by decide, by decide, by decide, by decide⟩ (by decide) upvoters_apart (by decide) reached finished
  refine ⟨final, reached, (grown reviewUuid (fun i => ⟨rfl, drawnRows i, rfl⟩) fun i v stored => ?_).1⟩
  cases stored

end RateWise
