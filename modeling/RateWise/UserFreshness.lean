import RateWise.CacheInvalidation
import RateWise.DeletedAccounts
import RateWise.UserCache

set_option autoImplicit false

namespace RateWise

open Interleave
open CacheQueue

def UserQuery.saved : UserQuery → Option (Job Text UserJson)
  | .set key value => some ⟨key, value⟩
  | _ => none

def Current (t : Tables) (value : UserJson) : Prop := ∃ row ∈ t.accounts, row.id = value.id ∧ row.status = value.status

instance (t : Tables) (value : UserJson) : Decidable (Current t value) :=
  inferInstanceAs (Decidable (∃ row ∈ t.accounts, row.id = value.id ∧ row.status = value.status))

section Steps

variable {hashtext : Text → Int32} {n m : Nat} {postgres : Postgres}

namespace UserSystem

-- The move puts in the cache what the table has.
def SavesCurrent (s : UserSystem hashtext n m) (move : UserMove hashtext n m) : Prop :=
  ∀ q ∈ s.asking move, ∀ copy ∈ q.saved, Current s.requests.world.db copy.value

def forgetting (s : UserSystem hashtext n m) : UserMove hashtext n m → Option Text
  | .request move => forgotten s.requests move
  | _ => none

-- An invalidation finds no copy of the account under another key.
def ForgetsAll (s : UserSystem hashtext n m) (move : UserMove hashtext n m) : Prop :=
  ∀ id, s.forgetting move = some (createUserCacheKey id) → ∀ key value, s.users.cache key = some value →
    uuidIn id = some value.id → key = createUserCacheKey id

def Reloading (s : UserSystem hashtext n m) : UserMove hashtext n m → Prop
  | .request move => FindsAgain s.requests move
  | _ => True

instance (s : UserSystem hashtext n m) (move : UserMove hashtext n m) : Decidable (s.SavesCurrent move) :=
  inferInstanceAs (Decidable (∀ q ∈ s.asking move, ∀ copy ∈ q.saved, Current s.requests.world.db copy.value))

instance (s : UserSystem hashtext n m) : ∀ move, Decidable (s.Reloading move)
  | .request move => inferInstanceAs (Decidable (FindsAgain s.requests move))
  | .read _ => .isTrue trivial
  | .fault _ _ => .isTrue trivial
  | .expire _ => .isTrue trivial

def Timely (s : UserSystem hashtext n m) (move : UserMove hashtext n m) : Prop :=
  (s.SavesCurrent move ∧ s.Reloading move) ∧ s.ForgetsAll move

theorem step_requests (s next : UserSystem hashtext n m) (move : UserMove hashtext n m)
    (stepped : s.step postgres move = some next) :
    next.requests = s.requests ∨ ∃ request, move = .request request ∧ Interleave.step s.requests request = some next.requests := by
  cases step_stepped s next move stepped with
  | requested request moved users readers => exact .inr ⟨request, rfl, moved⟩
  | read j q resume reply asks ran requests readers => exact .inl requests
  | refused j q resume fault asks ran users requests readers => exact .inl requests
  | failed j q resume fault asks users requests readers => exact .inl requests
  | expired key users requests readers => exact .inl requests

theorem step_log (s next : UserSystem hashtext n m) (move : UserMove hashtext n m) (c : Fin n)
    (stepped : s.step postgres move = some next) : (next.requests.sessions c).log = (s.requests.sessions c).log ∨
      ∃ event, (next.requests.sessions c).log = event :: (s.requests.sessions c).log := by
  rcases step_requests s next move stepped with same | ⟨request, -, moved⟩
  · exact .inl (by rw [same])
  · rcases Interleave.step_sessions s.requests next.requests request moved c with same | ⟨-, grown⟩
    · exact .inl (by rw [same])
    · exact .inr grown

theorem run_log (s last : UserSystem hashtext n m) (moves : List (UserMove hashtext n m)) (c : Fin n)
    (ran : s.run postgres moves = some last) : (s.requests.sessions c).log <:+ (last.requests.sessions c).log := by
  refine Runs.run_kept (fun t => (s.requests.sessions c).log <:+ (t.requests.sessions c).log) s last moves
    (fun t move next grown stepped => ?_) (List.suffix_refl _) ran
  rcases step_log t next move c stepped with same | ⟨event, grows⟩
  · rw [same]
    exact grown
  · rw [grows]
    exact grown.trans (List.suffix_cons _ _)

end UserSystem

end Steps

section Reads

end Reads

section Runs

variable {hashtext : Text → Int32} {n m : Nat}

namespace UserSystem

variable (postgres : Postgres)

end UserSystem

end Runs

def moderated : Fin 2 → AccountRequest
  | 0 => .suspend eveText
  | 1 => .reactivate eveText

def suspends : List (UserMove (fun _ => 0) 2 2) := List.replicate 6 (.request .first)

end RateWise
