import Mathlib.Data.List.Dedup
import Mathlib.Data.List.Infix

set_option autoImplicit false

-- The meaning of a few forms of SQL over lists of rows. A row that stands for
-- NULLs is none, and a comparison with NULL is none, which is neither true nor
-- false.
namespace Relational

-- LEFT JOIN: every row of the left side with each row that it matches, or once
-- with NULLs.
def leftJoin {α β : Type} (on : α → β → Bool) (left : List α) (right : List β) : List (α × Option β) :=
  left.flatMap fun row => match right.filter (on row) with
    | [] => [(row, none)]
    | matched => matched.map fun other => (row, some other)

-- GROUP BY: one group for each key that occurs.
def groupBy {α κ : Type} [DecidableEq κ] (key : α → κ) (rows : List α) : List (κ × List α) :=
  (rows.map key).dedup.map fun k => (k, rows.filter fun row => key row = k)

-- COUNT(column) FILTER (WHERE condition): the rows that meet the condition and
-- whose column is not NULL.
def countFilter {α γ : Type} (column : α → Option γ) (condition : α → Option Bool) (rows : List α) : Nat :=
  rows.countP fun row => (column row).isSome && condition row == some true

-- UPDATE … FROM source WHERE condition: the rows of the target that some row of
-- the source is joined to, each with the one that it takes its values from.
def updateFrom {α β : Type} (condition : α → β → Bool) (target : List α) (source : List β) : List (α × β) :=
  target.filterMap fun row => (source.find? (condition row)).map fun found => (row, found)

theorem find_key {α κ : Type} [DecidableEq κ] (key : α → κ) (rows : List α) (row : α) (stored : row ∈ rows)
    (distinct : rows.Pairwise fun a b => key a ≠ key b) (test : α → Bool) :
    rows.find? (fun other => decide (key row = key other) && test other) = if test row then some row else none := by
  induction rows with
  | nil => cases stored
  | cons head rest ih =>
      obtain ⟨apart, tail⟩ := List.pairwise_cons.mp distinct
      rcases List.mem_cons.mp stored with rfl | later
      · have others : rest.find? (fun other => decide (key row = key other) && test other) = none := by
          refine List.find?_eq_none.mpr fun other member => ?_
          simp [apart other member]
        by_cases met : test row = true
        · simp [met]
        · simpa [met] using others
      · have other : key row ≠ key head := Ne.symm (apart row later)
        simpa [other] using ih later tail

theorem groups_distinct {α κ : Type} [DecidableEq κ] (key : α → κ) (rows : List α) :
    (groupBy key rows).Pairwise fun a b => a.1 ≠ b.1 := by
  refine List.pairwise_map.mpr ?_
  exact (List.nodup_dedup (rows.map key)).imp fun apart => apart

theorem mem_groups {α κ : Type} [DecidableEq κ] (key : α → κ) (rows : List α) (row : α) (listed : row ∈ rows) :
    (key row, rows.filter fun other => key other = key row) ∈ groupBy key rows :=
  List.mem_map.mpr ⟨key row, List.mem_dedup.mpr (List.mem_map.mpr ⟨row, listed, rfl⟩), rfl⟩

theorem left_join_nonempty {α β : Type} (on : α → β → Bool) (left : List α) (right : List β) (row : α)
    (stored : row ∈ left) : ∃ other, (row, other) ∈ leftJoin on left right := by
  simp only [leftJoin, List.mem_flatMap]
  cases matched : right.filter (on row) with
  | nil => exact ⟨none, row, stored, by simp [matched]⟩
  | cons other rest => exact ⟨some other, row, stored, by simp [matched]⟩

theorem left_join_cons {α β : Type} (on : α → β → Bool) (row : α) (rest : List α) (right : List β) :
    leftJoin on (row :: rest) right = leftJoin on [row] right ++ leftJoin on rest right := by
  simp [leftJoin]

theorem mem_left_join {α β : Type} (on : α → β → Bool) (left : List α) (right : List β) (pair : α × Option β)
    (joined : pair ∈ leftJoin on left right) : pair.1 ∈ left := by
  obtain ⟨row, stored, listed⟩ := List.mem_flatMap.mp joined
  split at listed
  · rw [List.mem_singleton.mp listed]
    exact stored
  · obtain ⟨other, -, rfl⟩ := List.mem_map.mp listed
    exact stored

theorem left_join_group {α β κ : Type} [DecidableEq κ] (key : α → κ) (on : α → β → Bool) (left : List α) (right : List β)
    (row : α) (stored : row ∈ left) (distinct : left.Pairwise fun a b => key a ≠ key b) :
    ((leftJoin on left right).filter fun pair => key pair.1 = key row) = leftJoin on [row] right := by
  induction left with
  | nil => cases stored
  | cons head rest ih =>
      obtain ⟨apart, tail⟩ := List.pairwise_cons.mp distinct
      rw [left_join_cons, List.filter_append]
      rcases List.mem_cons.mp stored with rfl | later
      · have own : ((leftJoin on [row] right).filter fun pair => key pair.1 = key row) = leftJoin on [row] right := by
          refine List.filter_eq_self.mpr fun pair joined => ?_
          rw [List.mem_singleton.mp (mem_left_join on [row] right pair joined)]
          exact decide_eq_true rfl
        have others : ((leftJoin on rest right).filter fun pair => key pair.1 = key row) = [] := by
          refine List.filter_eq_nil_iff.mpr fun pair joined => ?_
          simpa using Ne.symm (apart pair.1 (mem_left_join on rest right pair joined))
        rw [own, others, List.append_nil]
      · have others : ((leftJoin on [head] right).filter fun pair => key pair.1 = key row) = [] := by
          refine List.filter_eq_nil_iff.mpr fun pair joined => ?_
          rw [List.mem_singleton.mp (mem_left_join on [head] right pair joined)]
          simpa using apart row later
        rw [others, ih later tail, List.nil_append]

-- An aggregate over one row of the left side counts the rows that it matches;
-- the row of NULLs counts for nothing.
theorem count_left_join {α β γ : Type} (on : α → β → Bool) (row : α) (right : List β) (column : β → γ)
    (condition : β → Bool) :
    countFilter (fun pair : α × Option β => pair.2.map column) (fun pair => pair.2.map condition) (leftJoin on [row] right) =
      right.countP fun other => on row other && condition other := by
  have joined : leftJoin on [row] right = match right.filter (on row) with
      | [] => [(row, none)]
      | matched => matched.map fun other => (row, some other) := by simp [leftJoin]
  have counted : (right.countP fun other => on row other && condition other) =
      (right.filter (on row)).countP condition := by
    rw [List.countP_filter]
    exact List.countP_congr fun other _ => by simp [and_comm]
  rw [joined, counted, countFilter]
  cases right.filter (on row) with
  | nil => rfl
  | cons other rest =>
      simp only [List.countP_map]
      exact List.countP_congr fun v _ => by simp

theorem update_from_filter {α β : Type} (condition : α → β → Bool) (target : List α) (source : List β) (test : α → Bool)
    (found : α → β)
    (single : ∀ row ∈ target, source.find? (condition row) = if test row then some (found row) else none) :
    updateFrom condition target source = (target.filter test).map fun row => (row, found row) := by
  induction target with
  | nil => rfl
  | cons row rest ih =>
      have tail : updateFrom condition rest source = _ := ih fun other later => single other (by simp [later])
      have head := single row (by simp)
      rw [updateFrom] at tail ⊢
      by_cases met : test row = true
      · rw [if_pos met] at head
        rw [List.filterMap_cons, head, tail, List.filter_cons_of_pos met]
        rfl
      · rw [if_neg met] at head
        rw [List.filterMap_cons, head, tail, List.filter_cons_of_neg met]
        rfl

end Relational
