import RateWise.Users

set_option autoImplicit false

namespace RateWise

open ReadCommitted (view)

def AccountIds (t : Tables) : Prop := t.accounts.Pairwise fun a b => a.id ≠ b.id

def setStatus (rows : List Account) (u : Uuid) (status : AccountStatus) : List Account :=
  rows.map fun row => if row.id = u then { row with status := status } else row

def AccountChange.statusOnly (status : AccountStatus) : AccountChange := { AccountChange.unchanged with status := some status }

theorem found_account (t : Tables) (id : Text) (user : Account) (found : t.answer (.findAccount id) = some user) :
    user ∈ t.accounts ∧ uuidIn id = some user.id := by
  have listed : t.accounts.find? (fun row => some row.id = uuidIn id) = some user := found
  have matched := List.find?_some listed
  exact ⟨List.mem_of_find?_eq_some listed, (of_decide_eq_true matched).symm⟩

theorem same_account (t : Tables) (distinct : AccountIds t) (a b : Account) (inA : a ∈ t.accounts) (inB : b ∈ t.accounts)
    (same : a.id = b.id) : a = b := by
  have only := filter_key (fun row : Account => row.id) t.accounts b inB distinct
  have listed : a ∈ t.accounts.filter fun row => row.id = b.id := List.mem_filter.mpr ⟨inA, by simpa using same⟩
  rw [only] at listed
  exact List.mem_singleton.mp listed

theorem finds_account (t : Tables) (distinct : AccountIds t) (id : Text) (user : Account) (stored : user ∈ t.accounts)
    (parsed : uuidIn id = some user.id) : t.answer (.findAccount id) = some user := by
  cases found : t.answer (.findAccount id) with
  | none =>
      have listed : t.accounts.find? (fun row => some row.id = uuidIn id) = none := found
      have missed := List.find?_eq_none.mp listed user stored
      simp [parsed] at missed
  | some other =>
      obtain ⟨member, same⟩ := found_account t id other found
      rw [parsed, Option.some.injEq] at same
      rw [same_account t distinct user other stored member same]

theorem not_found_account (t : Tables) (id : Text) (found : t.answer (.findAccount id) = none) (user : Account)
    (stored : user ∈ t.accounts) : uuidIn id ≠ some user.id := by
  intro parsed
  have listed : t.accounts.find? (fun row => some row.id = uuidIn id) = none := found
  have missed := List.find?_eq_none.mp listed user stored
  simp [parsed] at missed

theorem changed_status (row : Account) (status : AccountStatus) :
    UsersService.changedColumns { row with status := status } row =
      if status = row.status then .unchanged else .statusOnly status := by
  unfold UsersService.changedColumns
  by_cases same : status = row.status
  · simp [same, AccountChange.unchanged]
  · simp [same, AccountChange.unchanged, AccountChange.statusOnly]

theorem status_only_unchanged (status : AccountStatus) : AccountChange.statusOnly status ≠ .unchanged := nofun

theorem refuses_status (t : Tables) (u : Uuid) (status : AccountStatus) :
    t.refuses (.updateAccount u (.statusOnly status)) = none := by
  have free : ∀ w ∈ t.attempts (.updateAccount u (.statusOnly status)), t.violation w = none := by
    intro w member
    obtain ⟨row, -, rfl⟩ := List.mem_map.mp member
    have open_ : (t.accounts.any fun other => other.id ≠ row.id &&
        ((AccountChange.statusOnly status).username = some other.username ||
          (AccountChange.statusOnly status).email = some other.email)) = false := by
      rw [List.any_eq_false]
      intro other _
      simp [AccountChange.statusOnly, AccountChange.unchanged]
    simp only [Tables.violation, open_, Tables.uniqueFault]
    rfl
  simp only [Tables.refuses, Sql.uuids, List.all_nil, if_true]
  exact List.findSome?_eq_none_iff.mpr free

theorem attempts_update (t : Tables) (distinct : AccountIds t) (user : Account) (stored : user ∈ t.accounts)
    (change : AccountChange) : t.attempts (.updateAccount user.id change) = [.updateAccount user.id change] := by
  have only := filter_key (fun row : Account => row.id) t.accounts user stored distinct
  simp only [Tables.attempts, only, List.map_singleton]

theorem mem_set_status (rows : List Account) (u : Uuid) (status : AccountStatus) (row : Account) :
    row ∈ setStatus rows u status ↔
      ∃ before ∈ rows, row = if before.id = u then { before with status := status } else before := by
  simp only [setStatus, List.mem_map]
  exact exists_congr fun before => and_congr_right fun _ => eq_comm

theorem set_status_id (row : Account) (u : Uuid) (status : AccountStatus) :
    (if row.id = u then { row with status := status } else row).id = row.id := by split <;> rfl

theorem account_ids_set_status (t after : Tables) (u : Uuid) (status : AccountStatus) (distinct : AccountIds t)
    (changed : after.accounts = setStatus t.accounts u status) : AccountIds after := by
  unfold AccountIds
  rw [changed, setStatus, List.pairwise_map]
  refine distinct.imp fun {a b} apart => ?_
  rw [set_status_id, set_status_id]
  exact apart

def Sql.Attempts (s : Sql) : Write → Prop
  | .insertAccount row => s = .insertAccount row
  | .updateAccount _ change => ∃ id, s = .updateAccount id change
  | _ => True

theorem attempts_accounts (t : Tables) (s : Sql) : ∀ w ∈ t.attempts s, s.Attempts w := by
  intro w member
  cases s with
  | insertAccount row =>
      rw [show w = .insertAccount row from List.mem_singleton.mp member]
      rfl
  | updateAccount id change =>
      obtain ⟨row, -, rfl⟩ := List.mem_map.mp member
      exact ⟨id, rfl⟩
  | removeAccount id =>
      simp only [Tables.attempts] at member
      split at member
      · cases member
      · simp only [Tables.cascade, List.mem_append, List.mem_map] at member
        rcases member with ((⟨_, _, rfl⟩ | ⟨_, _, rfl⟩) | ⟨_, _, rfl⟩) | ⟨_, _, rfl⟩ <;> trivial
  | insertVote row action user review =>
      obtain ⟨vote, -, rfl⟩ := List.mem_map.mp member
      trivial
  | insertItem row title description category tags user =>
      obtain ⟨item, -, rfl⟩ := List.mem_map.mp member
      trivial
  | insertReview row content rating user item =>
      obtain ⟨review, -, rfl⟩ := List.mem_map.mp member
      trivial
  | deleteVote id =>
      obtain ⟨row, -, rfl⟩ := List.mem_map.mp member
      trivial
  | addVotes reviews action value =>
      obtain ⟨row, -, rfl⟩ := List.mem_map.mp member
      trivial
  | refreshReviewVotes =>
      obtain ⟨row, -, rfl⟩ := List.mem_map.mp member
      trivial
  | removeAccountsExcept email =>
      simp only [Tables.attempts, Tables.removeAll, List.mem_append, List.mem_map] at member
      rcases member with ((⟨_, _, rfl⟩ | ⟨_, _, rfl⟩) | ⟨_, _, rfl⟩) | ⟨_, _, rfl⟩ <;> trivial
  | _ => cases member

theorem accounts_shrink (t : Tables) (ws : List Write)
    (plain : ∀ w ∈ ws, (∀ row, w ≠ .insertAccount row) ∧ ∀ id change, w ≠ .updateAccount id change) :
    (view schema t ws).accounts.Sublist t.accounts := by
  induction ws generalizing t with
  | nil => exact List.Sublist.refl _
  | cons w rest ih =>
      refine (ih (t.apply w) fun x inRest => plain x (by simp [inRest])).trans ?_
      have here := plain w (by simp)
      cases w with
      | insertAccount row => exact absurd rfl (here.1 row)
      | updateAccount id change => exact absurd rfl (here.2 id change)
      | deleteAccount row => exact List.filter_sublist
      | _ => exact List.Sublist.refl _

end RateWise
