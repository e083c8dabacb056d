import RateWise.SerialVotes

set_option autoImplicit false

namespace RateWise

open Interleave
open ReadCommitted (view pending Moved Sound)
open Tables (maxInteger)

section Refusals

variable (q : VoteRequest) (t : Tables)

theorem reads_allowed : t.refuses (.countReviews q.reviewId) = none ∧ t.refuses (.findVote q.reviewId q.user.text) = none ∧
    ∀ id, t.refuses (.deleteVote id) = none := by
  refine ⟨?_, ?_, fun id => ?_⟩
  · simp [Tables.refuses, Sql.uuids, parsed_review, Tables.attempts]
  · simp [Tables.refuses, Sql.uuids, parsed_review, uuid_in_text, Tables.attempts]
  · simp only [Tables.refuses, Sql.uuids, List.all_nil, if_true, Tables.attempts, List.findSome?_eq_none_iff]
    intro w member
    obtain ⟨row, -, rfl⟩ := List.mem_map.mp member
    rfl

theorem change_allowed (owed : VoteAction → Int) (action : VoteAction) (value : Int) (gap : t.Gap (onReview q.review owed))
    (least : 0 ≤ t.countVotes q.review action + owed action + value)
    (most : t.countVotes q.review action + owed action + value ≤ maxInteger) :
    t.refuses (.addVotes [q.reviewId] action value) = none := by
  cases refused : t.refuses (.addVotes [q.reviewId] action value) with
  | none => rfl
  | some fault =>
      rcases refused_change q t owed action value fault gap refused with ⟨negative, -⟩ | ⟨large, -⟩
      · omega
      · omega

theorem insert_allowed (action : VoteAction) (row : Generated)
    (absent : ∀ v ∈ t.votes, ¬ (v.createdBy = q.user ∧ v.relatedReview = q.review)) (fresh : ∀ v ∈ t.votes, v.id ≠ row.id)
    (account : ∃ account ∈ t.accounts, account.id = q.user) (review : t.HasReview q.review) :
    t.refuses (.insertVote row action q.user.text q.reviewId) = none := by
  cases refused : t.refuses (.insertVote row action q.user.text q.reviewId) with
  | none => rfl
  | some fault =>
      obtain ⟨-, ⟨v, stored, same⟩ | missing | missing⟩ := refused_insert q t action row fault refused absent
      · exact absurd same (fresh v stored)
      · obtain ⟨found, stored, same⟩ := account
        exact absurd same (missing found stored)
      · exact absurd review missing

theorem attempts_change (action : VoteAction) (value : Int) (valid : t.Integrity) (review : t.HasReview q.review) :
    t.attempts (.addVotes [q.reviewId] action value) = [.addVotes q.review action value] := by
  obtain ⟨row, stored, same⟩ := review
  have only : t.reviews.filter (fun other => other.id = row.id) = [row] :=
    filter_key (fun other => other.id) t.reviews row stored valid.reviewIds
  simp only [Tables.attempts, List.filterMap_cons, parsed_review, List.filterMap_nil, List.mem_singleton, ← same, only,
    List.map_singleton]

end Refusals

section Logs

variable (q : VoteRequest) (t : Tables)

theorem debt_deleted (v : Vote) (on : v.relatedReview = q.review) (r : Uuid) (a : VoteAction) :
    debt [.deleteVote v] r a = onReview q.review (single v.action 1) r a := by
  simp only [debt, List.map_singleton, List.sum_singleton, Write.debt, onReview, single, on]
  by_cases here : q.review = r
  · simp [here]
  · simp [here, Ne.symm here]

theorem debt_change (action : VoteAction) (value : Int) (r : Uuid) (a : VoteAction) :
    debt [.addVotes q.review action value] r a = onReview q.review (single action value) r a := by
  simp only [debt, List.map_singleton, List.sum_singleton, Write.debt, onReview, single]
  by_cases here : q.review = r
  · simp [here]
  · simp [here, Ne.symm here]

theorem debt_inserted (action : VoteAction) (row : Generated) (r : Uuid) (a : VoteAction) :
    debt [q.inserted action row] r a = onReview q.review (single action (-1)) r a := by
  simp only [debt, List.map_singleton, List.sum_singleton, VoteRequest.inserted, Write.debt, onReview, single]
  by_cases here : q.review = r
  · simp [here]
  · simp [here, Ne.symm here]

theorem single_paid (r : Uuid) (action : VoteAction) (value : Int) (a : VoteAction) :
    onReview q.review (single action value) r a + onReview q.review (single action (-value)) r a = 0 := by
  unfold onReview single
  split
  · split <;> omega
  · rfl

theorem debt_removed (previous : Option Vote) (own : Own q t previous) (r : Uuid) (a : VoteAction) :
    debt (q.removed previous) r a = 0 := by
  cases previous with
  | none => rfl
  | some v =>
      show debt ([.deleteVote v] ++ [.addVotes q.review v.action (-1)]) r a = 0
      rw [debt_append, debt_deleted q v own.2.2, debt_change, single_paid]

theorem debt_redo (previous : Option Vote) (own : Own q t previous) (r : Uuid) (a : VoteAction) :
    debt (q.redo previous) r a = 0 := by
  have removed := debt_removed q t previous own r a
  unfold VoteRequest.redo
  cases q.ballot with
  | retract => exact removed
  | cast action row =>
      by_cases same : previous.map Vote.action = some action
      · simp only [same, if_true]
        rfl
      · simp only [same, if_false]
        show debt (q.removed previous ++ ([q.inserted action row] ++ [.addVotes q.review action 1])) r a = 0
        rw [debt_append, debt_append, removed, debt_inserted, debt_change, zero_add, add_comm, single_paid]

end Logs

theorem gap_seen (q : VoteRequest) (t : Tables) (ws : List Write) (owed : VoteAction → Int) (valid : t.Integrity) (exact : t.Exact)
    (sound : Sound (S := schema) Tables.Applies t ws) (voting : ∀ w ∈ ws, w.voting = true)
    (owes : ∀ r a, debt ws r a = onReview q.review owed r a) : (view schema t ws).Gap (onReview q.review owed) := by
  intro row member action
  have gap := Tables.gap_view t ws _ valid sound (fun w inWs => voting_tallied w (voting w inWs)) ((Tables.exact_gap t).mp exact)
    row member action
  simp only [owes, zero_add] at gap
  exact gap

section Statements

variable {q : VoteRequest} {hashtext : Text → Int32} {world left : World} {others : List ApiTx} {p p' : VotePoint} {x : ApiTx}
variable {after : Option ApiTx} {event : Event Api}

def VotePoint.Clean : VotePoint → Prop
  | .undoing _ => False
  | .ended (.error _) => False
  | _ => True

theorem seat_asked (s : Sql) (next : s.Answer → VotePoint) (moved : Moved hashtext q.chart world others p (some x) p' after left event)
    (here : q.chart p = .stmt (.sql s) (VoteRequest.orUndo next)) :
    left = world ∧ ((∃ error, p' = .undoing error ∧ (view schema world.db x.writes).refuses s ≠ none) ∨
      (p' = next ((view schema world.db x.writes).answer s) ∧
        after = some ⟨x.writes ++ (view schema world.db x.writes).attempts s, x.advisory⟩)) := by
  rcases ReadCommitted.moved_sql moved here with ⟨fault, refused, rfl, rfl, rfl, rfl⟩ | ⟨-, -, rfl, rfl, rfl, rfl⟩
  · exact ⟨rfl, .inl ⟨_, rfl, fun none => by cases none.symm.trans refused⟩⟩
  · exact ⟨rfl, .inr ⟨rfl, rfl⟩⟩

theorem own_found (t : Tables) : Own q t (t.answer (.findVote q.reviewId q.user.text)) := by
  cases answered : t.answer (.findVote q.reviewId q.user.text) with
  | some v =>
      obtain ⟨stored, on, owner⟩ := found_vote q t v answered
      exact ⟨stored, owner, on⟩
  | none =>
      have absent : t.votes.find? (fun row =>
          some row.relatedReview = uuidIn q.reviewId && some row.createdBy = uuidIn q.user.text) = none := answered
      simp only [List.find?_eq_none, parsed_review, uuid_in_text, Option.some.injEq, Bool.and_eq_true,
        decide_eq_true_eq] at absent
      exact fun v stored both => absent v stored ⟨both.2, both.1⟩

theorem removed_voted (t : Tables) (previous : Option Vote) :
    (view schema t (q.removed previous)).accounts = t.accounts ∧
      ∀ id, (view schema t (q.removed previous)).HasReview id ↔ t.HasReview id :=
  voting_view t _ (voting_removed q previous)

theorem removed_absent (t : Tables) (previous : Option Vote) (valid : t.Integrity) (own : Own q t previous) :
    ∀ v ∈ (view schema t (q.removed previous)).votes, ¬ (v.createdBy = q.user ∧ v.relatedReview = q.review) := by
  intro v member mine
  obtain ⟨stored, other⟩ := (mem_votes_removed_log q t previous v).mp member
  cases previous with
  | none => exact own v stored mine
  | some w =>
      have same := Tables.same_vote_owner t valid v w stored own.1
        ⟨mine.1.trans own.2.1.symm, mine.2.trans own.2.2.symm⟩
      exact other w rfl (congrArg (fun row => row.id) same)

theorem removed_fewer (t : Tables) (previous : Option Vote) (review : Uuid) (action : VoteAction) :
    (view schema t (q.removed previous)).countVotes review action ≤ t.countVotes review action := by
  cases previous with
  | none => exact le_refl _
  | some v => exact List.Sublist.countP_le List.filter_sublist

end Statements

section Seats

variable (q : VoteRequest) (lock : Int32) (t : Tables)

theorem seat_found (previous : Option Vote) (review : t.HasReview q.review) (own : Own q t previous) :
    SeatFacts q lock t (some ⟨[], [lock]⟩) (q.found previous) ∧ (q.found previous).Clean := by
  unfold VoteRequest.found
  cases previous with
  | none =>
      cases kind : q.ballot with
      | cast action row => exact ⟨⟨kind, none, rfl, review, own, fun impossible => by cases impossible⟩, trivial⟩
      | retract =>
          refine ⟨.inr ⟨none, ?_, ?_, review, own⟩, trivial⟩
          · rw [VoteRequest.answer, kind]
            rfl
          · rw [VoteRequest.redo, kind]
            rfl
  | some v =>
      cases kind : q.ballot with
      | cast action row =>
          simp only
          by_cases same : v.action = action
          · rw [if_pos same]
            refine ⟨.inr ⟨some v, ?_, ?_, review, own⟩, trivial⟩
            · rw [VoteRequest.answer, kind]
            · simp [VoteRequest.redo, kind, same]
          · rw [if_neg same]
            refine ⟨⟨rfl, review, own, ?_⟩, trivial⟩
            rw [kind]
            exact fun equal => same (Option.some.inj equal).symm
      | retract =>
          refine ⟨⟨rfl, review, own, ?_⟩, trivial⟩
          rw [kind]
          exact fun impossible => by cases impossible

theorem seat_lowered (v : Vote) (review : t.HasReview q.review) (own : Own q t (some v)) (other : q.ballot.entry ≠ some v.action) :
    SeatFacts q lock t (some ⟨q.removed (some v), [lock]⟩) q.lowered ∧ q.lowered.Clean := by
  unfold VoteRequest.lowered
  cases kind : q.ballot with
  | cast action row =>
      refine ⟨⟨kind, some v, rfl, review, own, fun same => other ?_⟩, trivial⟩
      rw [kind]
      exact same.symm
  | retract =>
      refine ⟨.inr ⟨some v, ?_, ?_, review, own⟩, trivial⟩
      · rw [VoteRequest.answer, kind]
        rfl
      · rw [VoteRequest.redo, kind]

theorem seat_raised (action : VoteAction) (row : Generated) (previous : Option Vote) (kind : q.ballot = .cast action row)
    (review : t.HasReview q.review) (own : Own q t previous) (other : previous.map Vote.action ≠ some action) :
    SeatFacts q lock t (some ⟨q.removed previous ++ [q.inserted action row, .addVotes q.review action 1], [lock]⟩)
      (.closing true) := by
  refine .inr ⟨previous, ?_, ?_, review, own⟩
  · rw [VoteRequest.answer, kind]
  · rw [VoteRequest.redo, kind]
    simp only [other, if_false]

end Seats

section Steps

variable (q : VoteRequest) (hashtext : Text → Int32) (world left : World) (others : List ApiTx) (p p' : VotePoint)
variable (tx after : Option ApiTx) (event : Event Api)

-- A step of a request keeps its facts. Nothing fails when the tables have what
-- the request needs, and the rows change only when it commits under its lock.
theorem seat_moved (valid : world.db.Integrity) (exact : world.db.Exact)
    (sound : Sound (S := schema) Tables.Applies world.db (pending tx)) (seat : SeatFacts q (hashtext q.key) world.db tx p)
    (moved : Moved hashtext q.chart world others p tx p' after left event) :
    SeatFacts q (hashtext q.key) left.db after p' ∧ (Clear q world.db → p.Clean → p'.Clean) ∧
      (left.db = world.db ∨ ∃ previous, p = .closing (q.answer (previous.map Vote.action)) ∧
        tx = some ⟨q.redo previous, [hashtext q.key]⟩ ∧ Own q world.db previous ∧
        left.db = view schema world.db (q.redo previous)) := by
  obtain ⟨counted, found, deleted⟩ := reads_allowed q (view schema world.db (pending tx))
  cases p with
  | queued =>
      cases seat
      cases kind : q.ballot with
      | cast action row =>
          have here : q.chart .queued = .beginTx .checking := by simp [VoteRequest.chart, kind]
          obtain ⟨rfl, rfl, rfl, rfl⟩ := ReadCommitted.moved_begin moved here
          exact ⟨rfl, fun _ _ => trivial, .inl rfl⟩
      | retract =>
          have here := VoteRequest.chart.eq_1 q
          simp only [kind] at here
          rcases ReadCommitted.moved_autocommit moved here with ⟨fault, refused, rfl, rfl, rfl, rfl⟩ | ⟨-, rfl, rfl, rfl, rfl⟩
          · cases counted.symm.trans refused
          · have review := counts_review q world.db
            show SeatFacts q _ world.db none (VoteRequest.counted _ _ (Tables.answer world.db (.countReviews q.reviewId))) ∧
              (_ → _ → VotePoint.Clean (VoteRequest.counted _ _ (Tables.answer world.db (.countReviews q.reviewId)))) ∧ _
            unfold VoteRequest.counted
            split
            · rename_i zero
              exact ⟨rfl, fun clear _ => review.mp zero clear.review, .inl rfl⟩
            · rename_i some_
              exact ⟨⟨rfl, by_contra fun missing => some_ (review.mpr missing)⟩, fun _ _ => trivial, .inl rfl⟩
  | opening =>
      obtain ⟨rfl, review⟩ := seat
      obtain ⟨rfl, rfl, rfl, rfl⟩ := ReadCommitted.moved_begin moved rfl
      exact ⟨⟨rfl, review⟩, fun _ _ => trivial, .inl rfl⟩
  | checking =>
      cases seat
      obtain ⟨rfl, ⟨error, rfl, refused⟩ | ⟨rfl, rfl⟩⟩ := seat_asked (.countReviews q.reviewId) _ moved rfl
      · exact absurd counted refused
      · have review := counts_review q left.db
        show SeatFacts q _ left.db _ (VoteRequest.counted _ _ (Tables.answer left.db (.countReviews q.reviewId))) ∧
          (_ → _ → VotePoint.Clean (VoteRequest.counted _ _ (Tables.answer left.db (.countReviews q.reviewId)))) ∧ _
        unfold VoteRequest.counted
        split
        · rename_i zero
          exact ⟨trivial, fun clear _ => review.mp zero clear.review, .inl rfl⟩
        · rename_i some_
          exact ⟨⟨rfl, by_contra fun missing => some_ (review.mpr missing)⟩, fun _ _ => trivial, .inl rfl⟩
  | locking =>
      obtain ⟨rfl, review⟩ := seat
      rcases ReadCommitted.moved_try_lock moved rfl with ⟨rfl, rfl, rfl, rfl, -⟩ | ⟨rfl, rfl, rfl, rfl, -⟩
      · exact ⟨.inl ⟨rfl, rfl⟩, fun _ _ => trivial, .inl rfl⟩
      · exact ⟨⟨rfl, review⟩, fun _ _ => trivial, .inl rfl⟩
  | looking =>
      obtain ⟨rfl, review⟩ := seat
      obtain ⟨rfl, ⟨error, rfl, refused⟩ | ⟨rfl, rfl⟩⟩ := seat_asked (.findVote q.reviewId q.user.text) _ moved rfl
      · exact absurd found refused
      · have own : Own q left.db (left.db.answer (.findVote q.reviewId q.user.text)) := own_found left.db
        obtain ⟨facts, clean⟩ := seat_found q (hashtext q.key) left.db _ review own
        exact ⟨facts, fun _ _ => clean, .inl rfl⟩
  | removing v =>
      obtain ⟨rfl, review, own, other⟩ := seat
      obtain ⟨rfl, ⟨error, rfl, refused⟩ | ⟨rfl, rfl⟩⟩ := seat_asked (.deleteVote v.id) _ moved rfl
      · exact absurd (deleted v.id) refused
      · have attempts : (view schema left.db []).attempts (.deleteVote v.id) = [.deleteVote v] :=
          Tables.attempts_delete_vote left.db v valid own.1
        rw [attempts]
        exact ⟨⟨rfl, review, own, other⟩, fun _ _ => trivial, .inl rfl⟩
  | lowering v =>
      obtain ⟨rfl, review, own, other⟩ := seat
      have voting : ∀ w ∈ [Write.deleteVote v], w.voting = true := by simp [Write.voting]
      have seen : (view schema world.db [.deleteVote v]).Integrity := Tables.integrity.valid_view _ _ valid sound
      have gap := gap_seen q world.db [.deleteVote v] _ valid exact sound voting (debt_deleted q v own.2.2)
      have present := ((voting_view world.db [.deleteVote v] voting).2 q.review).mpr review
      have fewer : (view schema world.db [.deleteVote v]).countVotes q.review v.action ≤ world.db.countVotes q.review v.action :=
        @removed_fewer q world.db (some v) q.review v.action
      obtain ⟨rfl, ⟨error, rfl, refused⟩ | ⟨rfl, rfl⟩⟩ := seat_asked (.addVotes [q.reviewId] v.action (-1)) _ moved rfl
      · refine ⟨trivial, fun clear _ => refused (change_allowed q _ (single v.action 1) v.action (-1) gap ?_ ?_), .inl rfl⟩
        · simp [single]
        · have room := clear.room v.action
          simp only [single, if_true]
          omega
      · obtain ⟨facts, clean⟩ := seat_lowered q (hashtext q.key) left.db v review own other
        rw [attempts_change q _ v.action (-1) seen present]
        exact ⟨facts, fun _ _ => clean, .inl rfl⟩
  | adding action row =>
      obtain ⟨kind, previous, rfl, review, own, other⟩ := seat
      obtain ⟨accounts, reviews⟩ := @removed_voted q world.db previous
      obtain ⟨rfl, ⟨error, rfl, refused⟩ | ⟨rfl, rfl⟩⟩ :=
        seat_asked (.insertVote row action q.user.text q.reviewId) _ moved rfl
      · refine ⟨trivial, fun clear _ => refused (insert_allowed q _ action row (removed_absent left.db previous valid own)
          (fun v member => ?_) ?_ ?_), .inl rfl⟩
        · exact clear.fresh action row kind v ((mem_votes_removed_log q left.db previous v).mp member).1
        · rw [accounts]
          exact clear.account
        · exact (reviews _).mpr review
      · rw [attempts_insert]
        exact ⟨⟨row, previous, kind, rfl, review, own, other⟩, fun _ _ => trivial, .inl rfl⟩
  | raising action =>
      obtain ⟨row, previous, kind, rfl, review, own, other⟩ := seat
      have voting : ∀ w ∈ q.removed previous ++ [q.inserted action row], w.voting = true := by
        intro w member
        rcases List.mem_append.mp member with early | late
        · exact voting_removed q previous w early
        · rw [List.mem_singleton.mp late]
          rfl
      have seen : (view schema world.db (q.removed previous ++ [q.inserted action row])).Integrity :=
        Tables.integrity.valid_view _ _ valid sound
      have gap := gap_seen q world.db (q.removed previous ++ [q.inserted action row]) (single action (-1)) valid exact sound voting
        fun r a => by rw [debt_append, debt_removed q world.db previous own, debt_inserted, zero_add]
      have present := ((voting_view world.db _ voting).2 q.review).mpr review
      obtain ⟨rfl, ⟨error, rfl, refused⟩ | ⟨rfl, rfl⟩⟩ := seat_asked (.addVotes [q.reviewId] action 1) _ moved rfl
      · refine ⟨trivial, fun clear _ => refused (change_allowed q _ (single action (-1)) action 1 gap ?_ ?_), .inl rfl⟩
        · simp [single]
        · have room := clear.room action
          have fewer := @removed_fewer q left.db previous q.review action
          have more := Tables.count_insert (view schema left.db (q.removed previous)) ⟨row, action, q.user, q.review⟩ q.review action
          rw [if_pos ⟨rfl, rfl⟩] at more
          have same : view schema left.db (q.removed previous ++ [q.inserted action row]) =
              (view schema left.db (q.removed previous)).apply (.insertVote ⟨row, action, q.user, q.review⟩) := by
            rw [ReadCommitted.view_append]
            rfl
          simp only [single, if_true]
          rw [same]
          omega
      · rw [attempts_change q _ action 1 seen present, List.append_assoc]
        exact ⟨seat_raised q (hashtext q.key) left.db action row previous kind review own other, fun _ _ => trivial, .inl rfl⟩
  | closing answer =>
      rcases seat with ⟨turned, rfl⟩ | ⟨previous, answered, rfl, review, own⟩
      · obtain ⟨rfl, rfl, rfl, rfl⟩ := ReadCommitted.moved_commit moved rfl
        exact ⟨rfl, fun _ _ => trivial, .inl rfl⟩
      · obtain ⟨rfl, rfl, rfl, rfl⟩ := ReadCommitted.moved_commit moved rfl
        exact ⟨rfl, fun _ _ => trivial, .inr ⟨previous, by rw [answered], rfl, own, rfl⟩⟩
  | undoing error =>
      obtain ⟨rfl, rfl, rfl, rfl⟩ := ReadCommitted.moved_rollback moved rfl
      exact ⟨rfl, fun _ clean => clean, .inl rfl⟩
  | ended result =>
      refine (ReadCommitted.moved_ended moved ?_).elim
      cases result with
      | ok answer => exact .inl ⟨answer, rfl⟩
      | error error => exact .inr ⟨error, rfl⟩

end Steps

section Commits

variable (q : VoteRequest) (t : Tables) (previous : Option Vote)

theorem exact_redo (valid : t.Integrity) (exact : t.Exact) (sound : Sound (S := schema) Tables.Applies t (q.redo previous))
    (own : Own q t previous) : (view schema t (q.redo previous)).Exact := by
  have gap := gap_seen q t (q.redo previous) (fun _ => 0) valid exact sound (voting_redo q previous)
    fun r a => by rw [debt_redo q t previous own, on_review_zero]
  rw [on_review_zero] at gap
  exact (Tables.exact_gap _).mpr gap

theorem redo_ids (v : Vote) (stored : v ∈ (view schema t (q.redo previous)).votes) :
    v ∈ t.votes ∨ ∃ action row, q.ballot = .cast action row ∧ v.id = row.id := by
  have members := mem_votes_redo q t previous v
  cases kind : q.ballot with
  | cast action row =>
      simp only [kind] at members
      by_cases same : previous.map Vote.action = some action
      · simp only [same, if_true] at members
        exact .inl (members.mp stored)
      · simp only [same, if_false] at members
        rcases members.mp stored with old | rfl
        · exact .inl old.1
        · exact .inr ⟨action, row, rfl, rfl⟩
  | retract =>
      simp only [kind] at members
      exact .inl (members.mp stored).1

theorem seat_stable (lock : Int32) (u : Tables) (p : VotePoint) (tx : Option ApiTx) (seat : SeatFacts q lock t tx p)
    (reviews : ∀ id, t.HasReview id → u.HasReview id)
    (kept : (∃ x, tx = some x ∧ lock ∈ x.advisory) → ∀ mine, Own q t mine → Own q u mine) : SeatFacts q lock u tx p := by
  have held : ∀ ws, tx = some ⟨ws, [lock]⟩ → ∃ x, tx = some x ∧ lock ∈ x.advisory :=
    fun ws same => ⟨_, same, List.mem_singleton_self lock⟩
  cases p with
  | queued => exact seat
  | opening => exact ⟨seat.1, reviews _ seat.2⟩
  | checking => exact seat
  | locking => exact ⟨seat.1, reviews _ seat.2⟩
  | looking => exact ⟨seat.1, reviews _ seat.2⟩
  | removing v =>
      obtain ⟨opened, review, own, other⟩ := seat
      exact ⟨opened, reviews _ review, kept (held _ opened) _ own, other⟩
  | lowering v =>
      obtain ⟨opened, review, own, other⟩ := seat
      exact ⟨opened, reviews _ review, kept (held _ opened) _ own, other⟩
  | adding action row =>
      obtain ⟨kind, mine, opened, review, own, other⟩ := seat
      exact ⟨kind, mine, opened, reviews _ review, kept (held _ opened) _ own, other⟩
  | raising action =>
      obtain ⟨row, mine, kind, opened, review, own, other⟩ := seat
      exact ⟨row, mine, kind, opened, reviews _ review, kept (held _ opened) _ own, other⟩
  | closing answer =>
      rcases seat with turned | ⟨mine, answered, opened, review, own⟩
      · exact .inl turned
      · exact .inr ⟨mine, answered, opened, reviews _ review, kept (held _ opened) _ own⟩
  | undoing error => trivial
  | ended result => exact seat

end Commits

end RateWise
