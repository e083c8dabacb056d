import Mathlib.Data.List.Sort

set_option autoImplicit false

namespace Keyset

section Pages

variable {α κ : Type} [LinearOrder κ] (key : α → κ)

-- A cursor is the key of the last row that was returned, if there is one.
def Beyond (cursor : Option κ) (k : κ) : Prop := ∀ last ∈ cursor, last < k

instance (cursor : Option κ) (k : κ) : Decidable (Beyond cursor k) :=
  inferInstanceAs (Decidable (∀ last ∈ cursor, last < k))

def Keyed (rows : List α) : Prop := rows.Pairwise fun a b => key a ≠ key b

def beyond (cursor : Option κ) (rows : List α) : List α :=
  (rows.filter fun row => Beyond cursor (key row)).insertionSort fun a b => key a ≤ key b

def fetch (limit : Nat) (cursor : Option κ) (rows : List α) : List α × Bool :=
  ((beyond key cursor rows).take limit, limit < (beyond key cursor rows).length)

-- One page after the other, each from the table as it is then, until there is
-- no next one.
def walk (limit : Nat) : Option κ → List (List α) → List (List α × Bool)
  | _, [] => []
  | cursor, rows :: later =>
      let page := fetch key limit cursor rows
      page :: if page.2 then walk limit (page.1.getLast?.map key) later else []

def keys (pages : List (List α × Bool)) : List κ := pages.flatMap fun page => page.1.map key

def Complete (pages : List (List α × Bool)) : Prop := ∃ page, pages.getLast? = some page ∧ page.2 = false

theorem mem_beyond (cursor : Option κ) (rows : List α) (row : α) :
    row ∈ beyond key cursor rows ↔ row ∈ rows ∧ Beyond cursor (key row) := by
  rw [beyond, List.mem_insertionSort, List.mem_filter, decide_eq_true_iff]

theorem beyond_sorted (cursor : Option κ) (rows : List α) (keyed : Keyed key rows) :
    (beyond key cursor rows).Pairwise fun a b => key a < key b := by
  have sorted : (beyond key cursor rows).Pairwise fun a b => key a ≤ key b := List.pairwise_insertionSort _ _
  have apart : (beyond key cursor rows).Pairwise fun a b => key a ≠ key b :=
    (List.perm_insertionSort _ _).symm.pairwise (keyed.sublist List.filter_sublist) Ne.symm
  exact (sorted.and apart).imp fun both => lt_of_le_of_ne both.1 both.2

theorem beyond_length (cursor : Option κ) (rows : List α) :
    (beyond key cursor rows).length = rows.countP fun row => Beyond cursor (key row) := by
  rw [beyond, List.length_insertionSort, List.countP_eq_length_filter]

theorem mem_fetch (limit : Nat) (cursor : Option κ) (rows : List α) (row : α) (found : row ∈ (fetch key limit cursor rows).1) :
    row ∈ rows ∧ Beyond cursor (key row) := (mem_beyond key cursor rows row).mp (List.mem_of_mem_take found)

theorem fetch_sorted (limit : Nat) (cursor : Option κ) (rows : List α) (keyed : Keyed key rows) :
    (fetch key limit cursor rows).1.Pairwise fun a b => key a < key b :=
  (beyond_sorted key cursor rows keyed).sublist (List.take_sublist _ _)

theorem fetch_length (limit : Nat) (cursor : Option κ) (rows : List α) : (fetch key limit cursor rows).1.length ≤ limit :=
  List.length_take_le _ _

theorem left_out (limit : Nat) (cursor : Option κ) (rows : List α) (keyed : Keyed key rows) (row : α)
    (stored : row ∈ rows) (further : Beyond cursor (key row)) :
    row ∈ (fetch key limit cursor rows).1 ∨
      ((fetch key limit cursor rows).2 = true ∧ ∀ other ∈ (fetch key limit cursor rows).1, key other < key row) := by
  have listed := (mem_beyond key cursor rows row).mpr ⟨stored, further⟩
  have sorted := beyond_sorted key cursor rows keyed
  rw [← List.take_append_drop limit (beyond key cursor rows), List.mem_append] at listed
  rcases listed with onPage | later
  · exact .inl onPage
  · refine .inr ⟨?_, fun other onPage => ?_⟩
    · have positive := List.length_pos_of_mem later
      rw [List.length_drop] at positive
      have longer : limit < (beyond key cursor rows).length := by omega
      exact decide_eq_true longer
    · rw [← List.take_append_drop limit (beyond key cursor rows), List.pairwise_append] at sorted
      exact sorted.2.2 other onPage row later

theorem fetch_last (limit : Nat) (positive : 0 < limit) (cursor : Option κ) (rows : List α) (keyed : Keyed key rows)
    (more : (fetch key limit cursor rows).2 = true) :
    ∃ last ∈ (fetch key limit cursor rows).1, (fetch key limit cursor rows).1.getLast? = some last ∧
      ∀ row ∈ (fetch key limit cursor rows).1, key row ≤ key last := by
  have longer : limit < (beyond key cursor rows).length := of_decide_eq_true more
  have filled : (fetch key limit cursor rows).1.length = limit := List.length_take_of_le (Nat.le_of_lt longer)
  have sorted := fetch_sorted key limit cursor rows keyed
  cases ending : (fetch key limit cursor rows).1.getLast? with
  | none =>
      rw [List.getLast?_eq_none_iff] at ending
      rw [ending] at filled
      simp only [List.length_nil] at filled
      omega
  | some last =>
      obtain ⟨front, whole⟩ := List.getLast?_eq_some_iff.mp ending
      rw [whole] at sorted ⊢
      refine ⟨last, by simp, rfl, fun row member => ?_⟩
      rcases List.mem_append.mp member with before | same
      · exact le_of_lt ((List.pairwise_append.mp sorted).2.2 row before last (List.mem_singleton_self _))
      · rw [List.mem_singleton.mp same]

end Pages

section Walks

variable {α κ : Type} [LinearOrder κ] (key : α → κ)

theorem walk_cons (limit : Nat) (cursor : Option κ) (rows : List α) (later : List (List α)) :
    walk key limit cursor (rows :: later) = fetch key limit cursor rows ::
      if (fetch key limit cursor rows).2 then walk key limit ((fetch key limit cursor rows).1.getLast?.map key) later else [] := rfl

theorem beyond_later (cursor : Option κ) (last k : κ) (further : Beyond cursor last) (after : last < k) : Beyond cursor k :=
  fun earlier inCursor => (further earlier inCursor).trans after

theorem walk_increasing (limit : Nat) (positive : 0 < limit) (tables : List (List α))
    (keyed : ∀ rows ∈ tables, Keyed key rows) (cursor : Option κ) :
    (keys key (walk key limit cursor tables)).Pairwise (· < ·) ∧ ∀ k ∈ keys key (walk key limit cursor tables), Beyond cursor k := by
  induction tables generalizing cursor with
  | nil => exact ⟨.nil, fun k member => by cases member⟩
  | cons rows later ih =>
      have here := keyed rows (by simp)
      have sorted := fetch_sorted key limit cursor rows here
      have mine : ∀ k ∈ (fetch key limit cursor rows).1.map key, Beyond cursor k := by
        intro k listed
        obtain ⟨row, found, rfl⟩ := List.mem_map.mp listed
        exact (mem_fetch key limit cursor rows row found).2
      rw [walk_cons]
      by_cases more : (fetch key limit cursor rows).2 = true
      · obtain ⟨last, onPage, ending, largest⟩ := fetch_last key limit positive cursor rows here more
        obtain ⟨increasing, further⟩ := ih (fun other listed => keyed other (by simp [listed])) (some (key last))
        rw [if_pos more, ending, Option.map_some]
        refine ⟨List.pairwise_append.mpr ⟨List.pairwise_map.mpr sorted, increasing, fun k listed next member => ?_⟩, fun k listed => ?_⟩
        · obtain ⟨row, found, rfl⟩ := List.mem_map.mp listed
          exact lt_of_le_of_lt (largest row found) (further next member (key last) rfl)
        · rcases List.mem_append.mp listed with found | next
          · exact mine k found
          · exact beyond_later cursor (key last) k (mine (key last) (List.mem_map_of_mem onPage)) (further k next (key last) rfl)
      · rw [if_neg more]
        simp only [keys, List.flatMap_cons, List.flatMap_nil, List.append_nil]
        exact ⟨List.pairwise_map.mpr sorted, mine⟩

theorem complete_cons (page : List α × Bool) (rest : List (List α × Bool)) (complete : Complete (page :: rest)) :
    (rest = [] ∧ page.2 = false) ∨ Complete rest := by
  obtain ⟨last, ending, done⟩ := complete
  cases rest with
  | nil =>
      cases ending
      exact .inl ⟨rfl, done⟩
  | cons next others => exact .inr ⟨last, by rwa [List.getLast?_cons_cons] at ending, done⟩

theorem walk_complete (limit : Nat) (positive : 0 < limit) (tables : List (List α))
    (keyed : ∀ rows ∈ tables, Keyed key rows) (cursor : Option κ) (complete : Complete (walk key limit cursor tables)) (k : κ)
    (further : Beyond cursor k) (present : ∀ rows ∈ tables.take (walk key limit cursor tables).length, k ∈ rows.map key) :
    k ∈ keys key (walk key limit cursor tables) := by
  induction tables generalizing cursor with
  | nil =>
      obtain ⟨page, ending, -⟩ := complete
      cases ending
  | cons rows later ih =>
      have here := keyed rows (by simp)
      rw [walk_cons] at complete present ⊢
      obtain ⟨row, stored, rfl⟩ := List.mem_map.mp (present rows (by simp))
      rw [keys, List.flatMap_cons, List.mem_append]
      rcases left_out key limit cursor rows here row stored further with onPage | ⟨more, after⟩
      · exact .inl (List.mem_map_of_mem onPage)
      · obtain ⟨last, listed, ending, -⟩ := fetch_last key limit positive cursor rows here more
        rw [if_pos more, ending, Option.map_some] at complete present ⊢
        rcases complete_cons _ _ complete with ⟨-, done⟩ | rest
        · rw [more] at done
          cases done
        · refine .inr (ih (fun other member => keyed other (by simp [member])) (some (key last)) rest ?_ fun other member => ?_)
          · rintro _ ⟨⟩
            exact after last listed
          · exact present other (by simp [List.take_succ_cons, member])

theorem walk_more (limit : Nat) (positive : 0 < limit) (tables : List (List α)) (keyed : ∀ rows ∈ tables, Keyed key rows)
    (cursor : Option κ) (i : Nat) (page : List α × Bool) (found : (walk key limit cursor tables)[i]? = some page) :
    ∃ rows, tables[i]? = some rows ∧ (∀ row ∈ page.1, row ∈ rows) ∧ page.1.length ≤ limit ∧
      (page.2 = true ↔ ∃ row ∈ rows, Beyond cursor (key row) ∧
        ∀ k ∈ keys key ((walk key limit cursor tables).take (i + 1)), k < key row) := by
  induction tables generalizing cursor i with
  | nil => cases found
  | cons rows later ih =>
      have here := keyed rows (by simp)
      rw [walk_cons] at found ⊢
      cases i with
      | zero =>
          simp only [List.getElem?_cons_zero, Option.some.injEq] at found
          subst found
          refine ⟨rows, rfl, fun row listed => (mem_fetch key limit cursor rows row listed).1, fetch_length key limit cursor rows, ?_⟩
          simp only [Nat.zero_add, List.take_succ_cons, List.take_zero, keys, List.flatMap_cons, List.flatMap_nil, List.append_nil,
            List.forall_mem_map]
          constructor
          · intro more
            have longer : limit < (beyond key cursor rows).length := of_decide_eq_true more
            have sorted := beyond_sorted key cursor rows here
            rw [← List.take_append_drop limit (beyond key cursor rows), List.pairwise_append] at sorted
            have next : (beyond key cursor rows)[limit] ∈ (beyond key cursor rows).drop limit := by
              rw [List.drop_eq_getElem_cons longer]
              exact List.mem_cons_self
            obtain ⟨stored, further⟩ := (mem_beyond key cursor rows _).mp (List.mem_of_mem_drop next)
            exact ⟨_, stored, further, fun row listed => sorted.2.2 row listed _ next⟩
          · rintro ⟨row, stored, further, after⟩
            rcases left_out key limit cursor rows here row stored further with onPage | ⟨more, -⟩
            · exact absurd (after row onPage) (lt_irrefl _)
            · exact more
      | succ i =>
          by_cases more : (fetch key limit cursor rows).2 = true
          · obtain ⟨last, onPage, ending, largest⟩ := fetch_last key limit positive cursor rows here more
            rw [if_pos more, ending, Option.map_some] at found ⊢
            rw [List.getElem?_cons_succ] at found
            obtain ⟨table, listed, inside, short, announced⟩ := ih (fun other member => keyed other (by simp [member]))
              (some (key last)) i found
            refine ⟨table, by rw [List.getElem?_cons_succ, listed], inside, short, announced.trans ?_⟩
            have first := (mem_fetch key limit cursor rows last onPage).2
            simp only [List.take_succ_cons, keys, List.flatMap_cons, List.mem_append, or_imp, forall_and, List.forall_mem_map]
            refine exists_congr fun row => and_congr_right fun stored => ?_
            constructor
            · rintro ⟨further, after⟩
              have beyondLast : key last < key row := further (key last) rfl
              exact ⟨beyond_later cursor (key last) (key row) first beyondLast,
                fun other member => lt_of_le_of_lt (largest other member) beyondLast, after⟩
            · rintro ⟨-, early, after⟩
              refine ⟨?_, after⟩
              rintro _ ⟨⟩
              exact early last onPage
          · rw [if_neg more] at found
            simp at found

theorem beyond_rest (limit : Nat) (cursor : Option κ) (rows : List α) (keyed : Keyed key rows) (last : α)
    (onPage : last ∈ (fetch key limit cursor rows).1) (largest : ∀ row ∈ (fetch key limit cursor rows).1, key row ≤ key last) :
    (beyond key (some (key last)) rows).length = (beyond key cursor rows).length - limit := by
  have sorted := beyond_sorted key cursor rows keyed
  have first := (mem_fetch key limit cursor rows last onPage).2
  have split : ((beyond key cursor rows).take limit ++ (beyond key cursor rows).drop limit).countP
      (fun row => Beyond (some (key last)) (key row)) = (beyond key cursor rows).length - limit := by
    rw [List.countP_append, List.countP_eq_zero.mpr, List.countP_eq_length.mpr, List.length_drop, Nat.zero_add]
    · intro row later
      rw [← List.take_append_drop limit (beyond key cursor rows), List.pairwise_append] at sorted
      simp only [decide_eq_true_eq]
      rintro _ ⟨⟩
      exact sorted.2.2 last onPage row later
    · intro row listed
      simp only [decide_eq_true_eq]
      exact fun further => absurd (further (key last) rfl) (not_lt_of_ge (largest row listed))
  rw [← split, List.take_append_drop, beyond_length, beyond, (List.perm_insertionSort _ _).countP_eq, List.countP_filter]
  refine List.countP_congr fun row _ => ?_
  simp only [decide_eq_true_eq, Bool.and_eq_true, iff_self_and]
  exact fun further => beyond_later cursor (key last) (key row) first (further (key last) rfl)

theorem walk_static (limit : Nat) (positive : 0 < limit) (rows : List α) (keyed : Keyed key rows) (cursor : Option κ)
    (visits : Nat) (some_ : 0 < (beyond key cursor rows).length)
    (enough : ((beyond key cursor rows).length + limit - 1) / limit ≤ visits) :
    (walk key limit cursor (List.replicate visits rows)).length = ((beyond key cursor rows).length + limit - 1) / limit ∧
      Complete (walk key limit cursor (List.replicate visits rows)) := by
  induction visits generalizing cursor with
  | zero =>
      have needed : 0 < ((beyond key cursor rows).length + limit - 1) / limit := Nat.div_pos (by omega) positive
      omega
  | succ visits ih =>
      rw [List.replicate_succ, walk_cons]
      by_cases more : (fetch key limit cursor rows).2 = true
      · have longer : limit < (beyond key cursor rows).length := of_decide_eq_true more
        obtain ⟨last, onPage, ending, largest⟩ := fetch_last key limit positive cursor rows keyed more
        have rest := beyond_rest key limit cursor rows keyed last onPage largest
        have shorter : ((beyond key cursor rows).length + limit - 1) / limit =
            ((beyond key cursor rows).length - limit + limit - 1) / limit + 1 := by
          rw [← Nat.add_div_right _ positive]
          congr 1
          omega
        obtain ⟨pages, page, ended, done⟩ := ih (some (key last)) (by omega) (by rw [rest]; omega)
        rw [if_pos more, ending, Option.map_some]
        refine ⟨by rw [List.length_cons, pages, rest, shorter], page, ?_, done⟩
        cases others : walk key limit (some (key last)) (List.replicate visits rows) with
        | nil =>
            rw [others] at ended
            cases ended
        | cons next later =>
            rw [others] at ended
            exact ended
      · have short : ¬ limit < (beyond key cursor rows).length := fun longer => more (decide_eq_true longer)
        rw [if_neg more]
        have one : ((beyond key cursor rows).length + limit - 1) / limit = 1 := by
          rw [Nat.div_eq_iff positive]
          omega
        exact ⟨one.symm, _, rfl, by simpa using more⟩

end Walks

end Keyset
