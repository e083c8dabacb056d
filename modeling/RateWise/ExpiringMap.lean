set_option autoImplicit false

-- A map whose values may have a time to live, told by what has happened to it.
namespace ExpiringMap

variable {κ ν : Type}

inductive Op (κ ν : Type) where
  | store (key : κ) (value : ν) (seconds : Option Nat)
  | get (key : κ)
  | has (key : κ)
  | delete (key : κ)

inductive Effect (ν : Type) where
  | stored (value : ν) (seconds : Option Nat)
  | deleted
  | kept

variable [DecidableEq κ]

def Op.effect (key : κ) : Op κ ν → Effect ν
  | .store target value seconds => if target = key then .stored value seconds else .kept
  | .delete target => if target = key then .deleted else .kept
  | _ => .kept

-- The last thing that happened to the key, and the milliseconds since then. The
-- latest operation comes first, each with the time before it.
def latest (key : κ) (passed : Nat) : List (Nat × Op κ ν) → Option (Option (ν × Option Nat × Nat))
  | [] => none
  | (elapsed, op) :: earlier => match op.effect key with
    | .stored value seconds => some (some (value, seconds, passed))
    | .deleted => some none
    | .kept => latest key (passed + elapsed) earlier

def alive (seconds : Option Nat) (passed : Nat) : Bool := seconds.all fun n => passed < n * 1000

-- What the map has under the key now; nothing is said of a key that no
-- operation has stored or deleted.
def expected (key : κ) (passed : Nat) (history : List (Nat × Op κ ν)) : Option (Option ν) :=
  (latest key passed history).map fun last => last.bind fun (value, seconds, ago) =>
    if alive seconds ago then some value else none

def later (elapsed : Nat) (last : Option (ν × Option Nat × Nat)) : Option (ν × Option Nat × Nat) :=
  last.map fun (value, seconds, ago) => (value, seconds, ago + elapsed)

theorem latest_later (key : κ) (passed elapsed : Nat) (history : List (Nat × Op κ ν)) :
    latest key (passed + elapsed) history = (latest key passed history).map (later elapsed) := by
  induction history generalizing passed with
  | nil => rfl
  | cons step earlier ih =>
      obtain ⟨before, op⟩ := step
      simp only [latest]
      cases op.effect key with
      | stored value seconds => rfl
      | deleted => rfl
      | kept =>
          have shifted := ih (passed + before)
          rwa [Nat.add_right_comm] at shifted

theorem latest_now (key : κ) (elapsed : Nat) (op : Op κ ν) (history : List (Nat × Op κ ν)) :
    latest key 0 ((elapsed, op) :: history) = match op.effect key with
      | .stored value seconds => some (some (value, seconds, 0))
      | .deleted => some none
      | .kept => (latest key 0 history).map (later elapsed) := by
  simp only [latest]
  cases op.effect key with
  | stored value seconds => rfl
  | deleted => rfl
  | kept => exact latest_later key 0 elapsed history

theorem latest_stored (key : κ) (passed : Nat) (history : List (Nat × Op κ ν)) (value : ν) (seconds : Option Nat) (ago : Nat)
    (latest_ : latest key passed history = some (some (value, seconds, ago))) :
    ∃ elapsed, (elapsed, Op.store key value seconds) ∈ history := by
  induction history generalizing passed with
  | nil => cases latest_
  | cons step earlier ih =>
      obtain ⟨before, op⟩ := step
      simp only [latest] at latest_
      cases made : op.effect key with
      | stored other time =>
          rw [made] at latest_
          cases latest_
          cases op with
          | store target given limit =>
              simp only [Op.effect] at made
              split at made
              · rename_i mine
                cases made
                subst mine
                exact ⟨before, List.mem_cons_self⟩
              · cases made
          | delete target =>
              simp only [Op.effect] at made
              split at made <;> cases made
          | get target => cases made
          | has target => cases made
      | deleted =>
          rw [made] at latest_
          cases latest_
      | kept =>
          rw [made] at latest_
          obtain ⟨elapsed, member⟩ := ih _ latest_
          exact ⟨elapsed, List.mem_cons_of_mem _ member⟩

end ExpiringMap
