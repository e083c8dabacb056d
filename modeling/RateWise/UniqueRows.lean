import RateWise.References

set_option autoImplicit false

namespace RateWise

open Interleave
open ReadCommitted (clash Mode Sound Constraints)

def Write.accountsAfter (before : Account → Prop) : Write → Account → Prop
  | .insertAccount row, x => before x ∨ x = row
  | .updateAccount id change, x => ∃ row, before row ∧ (if row.id = id then change.apply row else row) = x
  | .deleteAccount row, x => before x ∧ x.id ≠ row.id
  | _, x => before x

namespace Tables

-- Rows that the primary key and the unique indexes of a table tell apart.
def AccountsApart (a b : Account) : Prop := a.id ≠ b.id ∧ a.username ≠ b.username ∧ a.email ≠ b.email

def ItemsApart (a b : Item) : Prop := a.id ≠ b.id ∧ ¬ (a.createdBy = b.createdBy ∧ a.title = b.title)

instance : Std.Symm AccountsApart := ⟨fun _ _ ⟨ids, names, addresses⟩ => ⟨ids.symm, names.symm, addresses.symm⟩⟩

instance (a b : Account) : Decidable (AccountsApart a b) := inferInstanceAs (Decidable (_ ∧ _ ∧ _))

instance (a b : Item) : Decidable (ItemsApart a b) := inferInstanceAs (Decidable (_ ∧ _))

structure UniqueRows (t : Tables) : Prop where
  accounts : t.accounts.Pairwise AccountsApart
  items : t.items.Pairwise ItemsApart

def Enters (t : Tables) : Write → Prop
  | .insertAccount row => ∀ other ∈ t.accounts, AccountsApart other row
  | .updateAccount id change => ∀ other ∈ t.accounts, other.id ≠ id →
      change.username ≠ some other.username ∧ change.email ≠ some other.email
  | .insertItem row => ∀ other ∈ t.items, ItemsApart other row
  | _ => True

structure SameRows (t u : Tables) : Prop where
  accounts : ∀ row, row ∈ t.accounts ↔ row ∈ u.accounts
  items : ∀ item, item ∈ t.items ↔ item ∈ u.items

theorem mem_accounts_after (t : Tables) (w : Write) (x : Account) :
    x ∈ (t.apply w).accounts ↔ w.accountsAfter (· ∈ t.accounts) x := by
  cases w <;> simp [apply, Write.accountsAfter]

theorem accounts_after_congr (before after : Account → Prop) (w : Write) (same : ∀ x, before x ↔ after x) (x : Account) :
    w.accountsAfter before x ↔ w.accountsAfter after x := by
  cases w <;> simp only [Write.accountsAfter, same]

theorem changed_id (change : AccountChange) (id : Uuid) (row : Account) :
    (if row.id = id then change.apply row else row).id = row.id := by
  split <;> rfl

section Commute

variable (before : Account → Prop) (x : Account)

theorem insert_update (row : Account) (id : Uuid) (change : AccountChange) (apart : row.id ≠ id) :
    (Write.updateAccount id change).accountsAfter ((Write.insertAccount row).accountsAfter before) x ↔
      (Write.insertAccount row).accountsAfter ((Write.updateAccount id change).accountsAfter before) x := by
  constructor
  · rintro ⟨old, held | rfl, rfl⟩
    · exact .inl ⟨old, held, rfl⟩
    · exact .inr (if_neg apart)
  · rintro (⟨old, held, rfl⟩ | rfl)
    · exact ⟨old, .inl held, rfl⟩
    · exact ⟨x, .inr rfl, if_neg apart⟩

theorem insert_delete (row other : Account) (apart : row.id ≠ other.id) :
    (Write.deleteAccount other).accountsAfter ((Write.insertAccount row).accountsAfter before) x ↔
      (Write.insertAccount row).accountsAfter ((Write.deleteAccount other).accountsAfter before) x := by
  constructor
  · rintro ⟨held | rfl, differ⟩
    · exact .inl ⟨held, differ⟩
    · exact .inr rfl
  · rintro (⟨held, differ⟩ | rfl)
    · exact ⟨.inl held, differ⟩
    · exact ⟨.inr rfl, apart⟩

theorem update_update (a b : Uuid) (first second : AccountChange) (apart : a ≠ b) :
    (Write.updateAccount b second).accountsAfter ((Write.updateAccount a first).accountsAfter before) x →
      (Write.updateAccount a first).accountsAfter ((Write.updateAccount b second).accountsAfter before) x := by
  rintro ⟨changed, ⟨old, held, rfl⟩, rfl⟩
  refine ⟨_, ⟨old, held, rfl⟩, ?_⟩
  by_cases here : old.id = a
  · simp [here, AccountChange.apply, apart]
  · by_cases there : old.id = b
    · simp [there, AccountChange.apply, Ne.symm apart]
    · simp [here, there]

theorem update_delete (id : Uuid) (change : AccountChange) (row : Account) :
    (Write.deleteAccount row).accountsAfter ((Write.updateAccount id change).accountsAfter before) x ↔
      (Write.updateAccount id change).accountsAfter ((Write.deleteAccount row).accountsAfter before) x := by
  constructor
  · rintro ⟨⟨old, held, rfl⟩, differ⟩
    rw [changed_id] at differ
    exact ⟨old, ⟨held, differ⟩, rfl⟩
  · rintro ⟨old, ⟨held, differ⟩, rfl⟩
    refine ⟨⟨old, held, rfl⟩, ?_⟩
    rw [changed_id]
    exact differ

end Commute

theorem accounts_commute (before : Account → Prop) (a b : Write) (quiet : clash schema a b = false) (x : Account) :
    b.accountsAfter (a.accountsAfter before) x ↔ a.accountsAfter (b.accountsAfter before) x := by
  have apart := no_clash a b quiet
  cases a with
  | insertAccount row =>
      cases b with
      | insertAccount other => exact or_right_comm
      | updateAccount id change =>
          refine insert_update before x row id change fun same => ?_
          cases apart (.account row.id) .update .noKeyUpdate (by simp [Write.claims]) (by simp [Write.claims, same])
      | deleteAccount other =>
          refine insert_delete before x row other fun same => ?_
          cases apart (.account row.id) .update .update (by simp [Write.claims]) (by simp [Write.claims, same])
      | _ => exact Iff.rfl
  | updateAccount id change =>
      cases b with
      | insertAccount row =>
          refine (insert_update before x row id change fun same => ?_).symm
          cases apart (.account row.id) .noKeyUpdate .update (by simp [Write.claims, same]) (by simp [Write.claims])
      | updateAccount other second =>
          have differ : id ≠ other := fun same => by
            cases apart (.account id) .noKeyUpdate .noKeyUpdate (by simp [Write.claims]) (by simp [Write.claims, same])
          exact ⟨update_update before x id other change second differ, update_update before x other id second change differ.symm⟩
      | deleteAccount row => exact update_delete before x id change row
      | _ => exact Iff.rfl
  | deleteAccount row =>
      cases b with
      | insertAccount other =>
          refine (insert_delete before x other row fun same => ?_).symm
          cases apart (.account row.id) .update .update (by simp [Write.claims]) (by simp [Write.claims, same])
      | updateAccount id change => exact (update_delete before x id change row).symm
      | deleteAccount other => exact and_right_comm
      | _ => exact Iff.rfl
  | _ => cases b <;> exact Iff.rfl

theorem same_rows_apply (t u : Tables) (w : Write) (same : SameRows t u) : SameRows (t.apply w) (u.apply w) where
  accounts row := by
    rw [mem_accounts_after, mem_accounts_after]
    exact accounts_after_congr _ _ w same.accounts row
  items item := by
    rw [mem_items_edit, mem_items_edit]
    exact RowEdits.holds_congr _ _ _ _ same.items item

theorem enters_same (t u : Tables) (w : Write) (same : SameRows t u) (enters : t.Enters w) : u.Enters w := by
  cases w with
  | insertAccount row => exact fun other stored => enters other ((same.accounts other).mpr stored)
  | updateAccount id change => exact fun other stored => enters other ((same.accounts other).mpr stored)
  | insertItem row => exact fun other stored => enters other ((same.items other).mpr stored)
  | _ => trivial

theorem rows_commute (t : Tables) (a b : Write) (quiet : clash schema a b = false) :
    SameRows ((t.apply a).apply b) ((t.apply b).apply a) where
  accounts row := by
    rw [mem_accounts_after, mem_accounts_after,
      accounts_after_congr _ _ b (mem_accounts_after t a), accounts_after_congr _ _ a (mem_accounts_after t b)]
    exact accounts_commute _ a b quiet row
  items := (references_commute t a b quiet).items

theorem changed_username (change : AccountChange) (id : Uuid) (row : Account) (name : Text) (kept : row.username ≠ name)
    (given : change.username ≠ some name) : (if row.id = id then change.apply row else row).username ≠ name := by
  split
  · show change.username.getD row.username ≠ name
    cases stated : change.username with
    | none => exact kept
    | some value => exact fun same => given (by rw [stated]; exact congrArg some same)
  · exact kept

theorem changed_email (change : AccountChange) (id : Uuid) (row : Account) (address : Text) (kept : row.email ≠ address)
    (given : change.email ≠ some address) : (if row.id = id then change.apply row else row).email ≠ address := by
  split
  · show change.email.getD row.email ≠ address
    cases stated : change.email with
    | none => exact kept
    | some value => exact fun same => given (by rw [stated]; exact congrArg some same)
  · exact kept

theorem locked_names (a : Write) (id : Uuid) (change : AccountChange) (name address : Text)
    (quiet : clash schema a (.updateAccount id change) = false) (names : (.username name, Mode.update) ∈ a.claims)
    (addresses : (.email address, Mode.update) ∈ a.claims) : change.username ≠ some name ∧ change.email ≠ some address := by
  have apart := no_clash a _ quiet
  constructor
  · intro given
    cases apart (.username name) .update .update names (by simp [Write.claims, given])
  · intro given
    cases apart (.email address) .update .update addresses (by simp [Write.claims, given])

theorem insert_account_disjoint (t : Tables) (row : Account) (b : Write) (quiet : clash schema (.insertAccount row) b = false)
    (enters : t.Enters (.insertAccount row)) : (t.apply b).Enters (.insertAccount row) := by
  intro other stored
  rw [mem_accounts_after] at stored
  have apart := no_clash _ b quiet
  cases b with
  | insertAccount added =>
      rcases stored with old | rfl
      · exact enters other old
      · refine ⟨fun same => ?_, fun same => ?_, fun same => ?_⟩
        · cases apart (.account row.id) .update .update (by simp [Write.claims]) (by simp [Write.claims, same])
        · cases apart (.username row.username) .update .update (by simp [Write.claims]) (by simp [Write.claims, same])
        · cases apart (.email row.email) .update .update (by simp [Write.claims]) (by simp [Write.claims, same])
  | updateAccount id change =>
      obtain ⟨old, held, rfl⟩ := stored
      obtain ⟨ids, names⟩ := enters old held
      have given := locked_names _ id change row.username row.email quiet (by simp [Write.claims]) (by simp [Write.claims])
      exact ⟨by rw [changed_id]; exact ids, changed_username change id old _ names.1 given.1, changed_email change id old _ names.2 given.2⟩
  | deleteAccount gone => exact enters other stored.1
  | _ => exact enters other stored

theorem update_account_disjoint (t : Tables) (id : Uuid) (change : AccountChange) (b : Write)
    (quiet : clash schema (.updateAccount id change) b = false) (enters : t.Enters (.updateAccount id change)) :
    (t.apply b).Enters (.updateAccount id change) := by
  intro other stored different
  rw [mem_accounts_after] at stored
  have apart := no_clash _ b quiet
  cases b with
  | insertAccount added =>
      rcases stored with old | rfl
      · exact enters other old different
      · rw [ReadCommitted.clash_symm] at quiet
        exact locked_names _ id change _ _ quiet (by simp [Write.claims]) (by simp [Write.claims])
  | updateAccount target second =>
      obtain ⟨old, held, rfl⟩ := stored
      rw [changed_id] at different
      obtain ⟨name, address⟩ := enters old held different
      constructor
      · intro given
        refine changed_username second target old _ (fun same => name (by rw [given, same])) (fun taken => ?_) rfl
        cases apart (.username _) .update .update (by simp [Write.claims, given]; rfl) (by simp [Write.claims, taken])
      · intro given
        refine changed_email second target old _ (fun same => address (by rw [given, same])) (fun taken => ?_) rfl
        cases apart (.email _) .update .update (by simp [Write.claims, given]; rfl) (by simp [Write.claims, taken])
  | deleteAccount gone => exact enters other stored.1 different
  | _ => exact enters other stored different

theorem insert_item_disjoint (t : Tables) (row : Item) (b : Write) (quiet : clash schema (.insertItem row) b = false)
    (enters : t.Enters (.insertItem row)) : (t.apply b).Enters (.insertItem row) := by
  intro other stored
  rw [mem_items_edit] at stored
  have apart := no_clash _ b quiet
  cases b with
  | insertItem added =>
      rcases stored with old | rfl
      · exact enters other old
      · refine ⟨fun same => ?_, fun same => ?_⟩
        · cases apart (.item row.id) .update .update (by simp [Write.claims]) (by simp [Write.claims, same])
        · cases apart (.itemOwnerTitle row.createdBy row.title) .update .update (by simp [Write.claims])
            (by simp [Write.claims, same.1, same.2])
  | deleteItem gone => exact enters other stored.1
  | _ => exact enters other stored

theorem enters_disjoint (t : Tables) (a b : Write) (quiet : clash schema a b = false) (enters : t.Enters a) :
    (t.apply b).Enters a := by
  cases a with
  | insertAccount row => exact insert_account_disjoint t row b quiet enters
  | updateAccount id change => exact update_account_disjoint t id change b quiet enters
  | insertItem row => exact insert_item_disjoint t row b quiet enters
  | _ => trivial

theorem pairwise_joined {α : Type} (apart : α → α → Prop) (rows : List α) (row : α) (distinct : rows.Pairwise apart)
    (new : ∀ other ∈ rows, apart other row) : (rows ++ [row]).Pairwise apart :=
  List.pairwise_append.mpr ⟨distinct, List.pairwise_singleton _ _, fun other stored _ same => List.mem_singleton.mp same ▸ new other stored⟩

theorem updated_apart (t : Tables) (id : Uuid) (change : AccountChange) (enters : t.Enters (.updateAccount id change)) (a b : Account)
    (storedA : a ∈ t.accounts) (storedB : b ∈ t.accounts) (apart : AccountsApart a b) :
    AccountsApart (if a.id = id then change.apply a else a) (if b.id = id then change.apply b else b) := by
  obtain ⟨ids, names, addresses⟩ := apart
  refine ⟨by rw [changed_id, changed_id]; exact ids, ?_, ?_⟩
  · by_cases here : a.id = id
    · have other : b.id ≠ id := here ▸ Ne.symm ids
      rw [if_neg other]
      exact changed_username change id a _ names (enters b storedB other).1
    · rw [if_neg here]
      exact (changed_username change id b _ names.symm (enters a storedA here).1).symm
  · by_cases here : a.id = id
    · have other : b.id ≠ id := here ▸ Ne.symm ids
      rw [if_neg other]
      exact changed_email change id a _ addresses (enters b storedB other).2
    · rw [if_neg here]
      exact (changed_email change id b _ addresses.symm (enters a storedA here).2).symm

theorem unique_apply (t : Tables) (w : Write) (unique : t.UniqueRows) (enters : t.Enters w) : (t.apply w).UniqueRows := by
  cases w with
  | insertAccount row => exact ⟨pairwise_joined _ _ row unique.accounts enters, unique.items⟩
  | updateAccount id change =>
      refine ⟨List.pairwise_map.mpr (unique.accounts.imp_of_mem fun {a b} storedA storedB apart => ?_), unique.items⟩
      exact updated_apart t id change enters a b storedA storedB apart
  | deleteAccount row => exact ⟨unique.accounts.filter _, unique.items⟩
  | insertItem row => exact ⟨unique.accounts, pairwise_joined _ _ row unique.items enters⟩
  | deleteItem row => exact ⟨unique.accounts, unique.items.filter _⟩
  | _ => exact ⟨unique.accounts, unique.items⟩

theorem sound_entering (t : Tables) (ws : List Write) (enters : ∀ w ∈ ws, ∀ u : Tables, u.Enters w) :
    Sound (S := schema) Enters t ws := by
  induction ws generalizing t with
  | nil => trivial
  | cons w rest ih => exact ⟨enters w (by simp) t, ih _ fun x later => enters x (by simp [later])⟩

theorem removal_enters (t : Tables) (accounts : List Account) : ∀ w ∈ t.removeAll accounts, ∀ u : Tables, u.Enters w := by
  intro w member u
  simp only [removeAll, List.mem_append, List.mem_map] at member
  rcases member with ((⟨_, _, rfl⟩ | ⟨_, _, rfl⟩) | ⟨_, _, rfl⟩) | ⟨_, _, rfl⟩ <;> trivial

theorem sound_unique (t : Tables) (s : Sql) (unique : t.UniqueRows) (allowed : t.refuses s = none) :
    Sound (S := schema) Enters t (t.attempts s) := by
  obtain ⟨-, clear⟩ := refuses_none t s allowed
  cases s with
  | insertAccount row =>
      have absent := unique_fault_none _ (clear (.insertAccount row) (by simp [attempts]))
      simp only [List.any_eq_false, Bool.or_eq_true, decide_eq_true_eq, not_or] at absent
      exact ⟨fun other stored => ⟨(absent other stored).1.1, (absent other stored).1.2, (absent other stored).2⟩, trivial⟩
  | updateAccount id change =>
      have single : t.accounts.filter (fun row => row.id = id) = [] ∨ ∃ row ∈ t.accounts, row.id = id ∧
          t.accounts.filter (fun row => row.id = id) = [row] := by
        by_cases held : ∃ row ∈ t.accounts, row.id = id
        · obtain ⟨row, stored, rfl⟩ := held
          exact .inr ⟨row, stored, rfl, filter_key (fun row => row.id) _ row stored (unique.accounts.imp fun apart => apart.1)⟩
        · exact .inl (List.filter_eq_nil_iff.mpr fun row stored same => held ⟨row, stored, of_decide_eq_true same⟩)
      simp only [attempts] at clear ⊢
      rcases single with none | ⟨row, stored, rfl, one⟩
      · rw [none]
        trivial
      · rw [one] at clear ⊢
        have absent := unique_fault_none _ (clear (.updateAccount row.id change) (by simp))
        simp only [List.any_eq_false, Bool.and_eq_true, Bool.or_eq_true, decide_eq_true_eq, not_and, not_or] at absent
        exact ⟨absent, trivial⟩
  | insertItem row title description category tags user =>
      simp only [attempts] at clear ⊢
      cases built : itemRow row title description category tags user with
      | none => trivial
      | some item =>
          have checks := clear (.insertItem item) (by simp [built])
          obtain ⟨-, rest⟩ := or_else_none _ _ checks
          have absent := unique_fault_none _ (or_else_none _ _ rest).1
          simp only [List.any_eq_false, Bool.or_eq_true, decide_eq_true_eq, Bool.and_eq_true, not_or] at absent
          exact ⟨absent, trivial⟩
  | removeAccount id =>
      rcases t.attempts_removal id with nothing | removed
      · rw [nothing]
        trivial
      · rw [removed]
        exact sound_entering t _ (removal_enters t _)
  | removeAccountsExcept email => exact sound_entering t _ (removal_enters t _)
  | insertVote row action user review =>
      simp only [attempts]
      cases voteRow row action user review with
      | none => trivial
      | some vote => exact ⟨trivial, trivial⟩
  | insertReview row content rating user item =>
      simp only [attempts]
      cases reviewRow row content rating user item with
      | none => trivial
      | some review => exact ⟨trivial, trivial⟩
  | deleteVote id =>
      refine sound_entering t _ fun w member u => ?_
      obtain ⟨row, -, rfl⟩ := List.mem_map.mp member
      trivial
  | addVotes reviews action value =>
      refine sound_entering t _ fun w member u => ?_
      obtain ⟨row, -, rfl⟩ := List.mem_map.mp member
      trivial
  | refreshReviewVotes =>
      refine sound_entering t _ fun w member u => ?_
      obtain ⟨row, -, rfl⟩ := List.mem_map.mp member
      trivial
  | _ => trivial

def uniqueRows : Constraints schema where
  Valid := UniqueRows
  Applies := Enters
  Same := SameRows
  same_apply := same_rows_apply
  same_applies := enters_same
  commute := rows_commute
  disjoint t a b quiet enters _ := enters_disjoint t a b quiet enters
  valid_apply := unique_apply
  sound_attempts := sound_unique

end Tables

end RateWise
