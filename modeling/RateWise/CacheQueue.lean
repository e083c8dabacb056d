import Mathlib.Logic.Function.Basic

set_option autoImplicit false

namespace CacheQueue

structure Job (κ ν : Type) where
  key : κ
  value : ν

structure State (κ ν : Type) where
  cache : κ → Option ν
  waiting : List (Job κ ν)
  active : List (Job κ ν)

-- What the workers and the clock do between two calls: a worker takes the first
-- job, it carries its job out, the job leaves the queue (done or failed), or an
-- entry expires.
inductive Event (κ : Type) where
  | take
  | save (worker : Nat)
  | settle (worker : Nat)
  | expire (key : κ)

variable {κ ν : Type}

namespace State

def empty : State κ ν := ⟨fun _ => none, [], []⟩

def jobs (s : State κ ν) : List (Job κ ν) := s.active ++ s.waiting

def Holds (s : State κ ν) (P : κ → ν → Prop) : Prop :=
  (∀ key value, s.cache key = some value → P key value) ∧ ∀ job ∈ s.jobs, P job.key job.value

section Copies

variable (s : State κ ν) (P : κ → ν → Prop)

theorem holds_empty : (empty : State κ ν).Holds P :=
  ⟨fun key value cached => (by cases cached), fun job none => by cases none⟩

theorem holds_mono (weak : κ → ν → Prop) (holds : s.Holds P) (implied : ∀ key value, P key value → weak key value) :
    s.Holds weak :=
  ⟨fun key value cached => implied key value (holds.1 key value cached), fun job queued => implied _ _ (holds.2 job queued)⟩

theorem holds_and (other : κ → ν → Prop) (first : s.Holds P) (second : s.Holds other) :
    s.Holds fun key value => P key value ∧ other key value :=
  ⟨fun key value cached => ⟨first.1 key value cached, second.1 key value cached⟩,
    fun job queued => ⟨first.2 job queued, second.2 job queued⟩⟩

end Copies

end State

variable [DecidableEq κ]

namespace State

def set (s : State κ ν) (key : κ) (value : ν) : State κ ν := { s with cache := Function.update s.cache key (some value) }

def del (s : State κ ν) (key : κ) : State κ ν := { s with cache := Function.update s.cache key none }

-- The key is the id of the job: a second one is ignored while the first is in
-- the queue.
def add (s : State κ ν) (job : Job κ ν) : State κ ν :=
  if s.jobs.any fun other => other.key = job.key then s else { s with waiting := s.waiting ++ [job] }

def enqueue (s : State κ ν) (jobs : List (Job κ ν)) : State κ ν := jobs.foldl add s

def take (s : State κ ν) : State κ ν :=
  match s.waiting with
  | [] => s
  | job :: rest => { s with waiting := rest, active := s.active ++ [job] }

def on (s : State κ ν) : Event κ → State κ ν
  | .take => s.take
  | .save worker => match s.active[worker]? with
    | none => s
    | some job => s.set job.key job.value
  | .settle worker => { s with active := s.active.eraseIdx worker }
  | .expire key => s.del key

section Changes

variable (s : State κ ν) (P : κ → ν → Prop)

theorem cached_set (key other : κ) (value found : ν) (cached : (s.set key value).cache other = some found) :
    s.cache other = some found ∨ (other = key ∧ found = value) := by
  by_cases same : other = key
  · subst same
    simp only [set, Function.update_self] at cached
    cases cached
    exact .inr ⟨rfl, rfl⟩
  · simp only [set, Function.update_of_ne same] at cached
    exact .inl cached

theorem cached_del (key other : κ) (found : ν) (cached : (s.del key).cache other = some found) :
    other ≠ key ∧ s.cache other = some found := by
  by_cases same : other = key
  · subst same
    simp only [del, Function.update_self] at cached
    cases cached
  · simp only [del, Function.update_of_ne same] at cached
    exact ⟨same, cached⟩

theorem holds_set (key : κ) (value : ν) (holds : s.Holds P) (new : P key value) : (s.set key value).Holds P := by
  refine ⟨fun other found cached => ?_, holds.2⟩
  rcases s.cached_set key other value found cached with before | ⟨rfl, rfl⟩
  · exact holds.1 other found before
  · exact new

theorem holds_del (key : κ) (holds : s.Holds P) : (s.del key).Holds P := by
  refine ⟨fun other found cached => ?_, holds.2⟩
  exact holds.1 other found (s.cached_del key other found cached).2

theorem holds_add (job : Job κ ν) (holds : s.Holds P) (new : P job.key job.value) : (s.add job).Holds P := by
  unfold add
  split
  · exact holds
  · refine ⟨holds.1, fun other queued => ?_⟩
    rcases List.mem_append.mp (show other ∈ s.active ++ (s.waiting ++ [job]) from queued) with active | waiting
    · exact holds.2 other (List.mem_append_left _ active)
    · rcases List.mem_append.mp waiting with old | last
      · exact holds.2 other (List.mem_append_right _ old)
      · rw [List.mem_singleton.mp last]
        exact new

theorem holds_enqueue (jobs : List (Job κ ν)) (holds : s.Holds P) (new : ∀ job ∈ jobs, P job.key job.value) :
    (s.enqueue jobs).Holds P := by
  induction jobs generalizing s with
  | nil => exact holds
  | cons job rest ih =>
      exact ih (s.add job) (s.holds_add P job holds (new job (by simp))) fun other later => new other (by simp [later])

omit [DecidableEq κ] in
theorem holds_take (holds : s.Holds P) : s.take.Holds P := by
  unfold take
  cases queue : s.waiting with
  | nil => exact holds
  | cons job rest =>
      refine ⟨holds.1, fun other queued => holds.2 other ?_⟩
      simpa [jobs, queue, or_assoc] using queued

theorem holds_on (event : Event κ) (holds : s.Holds P) : (s.on event).Holds P := by
  cases event with
  | take => exact s.holds_take P holds
  | save worker =>
      simp only [on]
      cases taken : s.active[worker]? with
      | none => exact holds
      | some job =>
          exact s.holds_set P job.key job.value holds
            (holds.2 job (List.mem_append_left _ (List.mem_of_getElem? taken)))
  | settle worker =>
      refine ⟨holds.1, fun job queued => holds.2 job ?_⟩
      rcases List.mem_append.mp (show job ∈ s.active.eraseIdx worker ++ s.waiting from queued) with active | waiting
      · exact List.mem_append_left _ (List.mem_of_mem_eraseIdx active)
      · exact List.mem_append_right _ waiting
  | expire key => exact s.holds_del P key holds

end Changes

end State

end CacheQueue
