import Mathlib.Data.List.TakeDrop
import RateWise.Json

set_option autoImplicit false

namespace Json

section Numbers

-- What may follow a value inside another one, or nothing.
def Stops (rest : List Char) : Prop := ∀ c, rest.head? = some c → c = ',' ∨ c = ']' ∨ c = '}'

theorem stops_head (c : Char) (rest : List Char) (stops : Stops (c :: rest)) :
    ('0' ≤ c && c ≤ '9') = false ∧ c ≠ '.' ∧ ¬ (c = 'e' ∨ c = 'E') := by
  rcases stops c rfl with rfl | rfl | rfl <;> decide

theorem digits_append (text rest : List Char) (stops : Stops rest) :
    digits (text ++ rest) = ((digits text).1, (digits text).2 ++ rest) := by
  simp only [digits, List.span_eq_takeWhile_dropWhile]
  induction text with
  | nil =>
      cases rest with
      | nil => rfl
      | cons c tail => simp [(stops_head c tail stops).1]
  | cons c tail ih =>
      rw [Prod.mk.injEq] at ih
      cases digit : ('0' ≤ c && c ≤ '9') with
      | false => simp [digit]
      | true => simp [digit, ih.1, ih.2]

variable {text found last : List Char}

theorem some_digits_append (rest : List Char) (stops : Stops rest) (read : someDigits text = some (found, last)) :
    someDigits (text ++ rest) = some (found, last ++ rest) := by
  simp only [someDigits, digits_append text rest stops] at read ⊢
  split at read
  · cases read
  · rename_i nonempty
    cases read
    rw [if_neg nonempty]

theorem integer_append (rest : List Char) (stops : Stops rest) (read : integer text = some (found, last)) :
    integer (text ++ rest) = some (found, last ++ rest) := by
  cases text with
  | nil => cases read
  | cons c tail =>
      by_cases zero : c = '0'
      · subst zero
        cases read
        rfl
      · have other (later : List Char) : integer (c :: later) = someDigits (c :: later) := by simp [integer, zero]
        rw [other] at read
        rw [List.cons_append, other]
        exact some_digits_append rest stops read

theorem fraction_append (rest : List Char) (stops : Stops rest) (read : fraction text = some (found, last)) :
    fraction (text ++ rest) = some (found, last ++ rest) := by
  have plain (c : Char) (later : List Char) (other : c ≠ '.') : fraction (c :: later) = some ([], c :: later) := by
    simp [fraction, other]
  cases text with
  | nil =>
      cases read
      cases rest with
      | nil => rfl
      | cons c tail => exact plain c tail (stops_head c tail stops).2.1
  | cons c tail =>
      by_cases point : c = '.'
      · subst point
        simp only [fraction] at read
        cases some_ : someDigits tail with
        | none => simp [some_] at read
        | some pair =>
            rw [some_] at read
            cases read
            simp only [List.cons_append, fraction, some_digits_append rest stops some_]
            rfl
      · rw [plain c tail point] at read
        cases read
        exact plain c (tail ++ rest) point

theorem sign_append (c : Char) (tail rest : List Char) :
    sign (c :: tail ++ rest) = ((sign (c :: tail)).1, (sign (c :: tail)).2 ++ rest) := by
  by_cases plus : c = '+'
  · subst plus
    rfl
  · by_cases minus : c = '-'
    · subst minus
      rfl
    · simp [sign, plus, minus]

theorem exponent_append (rest : List Char) (stops : Stops rest) (read : exponent text = some (found, last)) :
    exponent (text ++ rest) = some (found, last ++ rest) := by
  cases text with
  | nil =>
      cases read
      cases rest with
      | nil => rfl
      | cons c tail => exact if_neg (stops_head c tail stops).2.2
  | cons c tail =>
      by_cases power : c = 'e' ∨ c = 'E'
      · simp only [exponent, if_pos power, List.cons_append] at read ⊢
        cases tail with
        | nil => cases read
        | cons d later =>
            rw [sign_append]
            cases some_ : someDigits (sign (d :: later)).2 with
            | none => simp [some_] at read
            | some pair =>
                simp only [some_, bind, Option.bind] at read
                cases read
                simp only [some_digits_append rest stops some_, bind, Option.bind]
      · simp only [exponent, if_neg power, List.cons_append] at read ⊢
        cases read
        rfl

theorem unsigned_append (rest : List Char) (stops : Stops rest) (read : unsigned text = some (found, last)) :
    unsigned (text ++ rest) = some (found, last ++ rest) := by
  simp only [unsigned, bind, Option.bind_eq_some_iff] at read
  obtain ⟨⟨whole, one⟩, first, ⟨part, two⟩, second, ⟨power, three⟩, third, made⟩ := read
  cases made
  simp only [unsigned, integer_append rest stops first, fraction_append rest stops second, exponent_append rest stops third, bind,
    Option.bind]

theorem number_append (rest : List Char) (stops : Stops rest) (read : number text = some (found, last)) :
    number (text ++ rest) = some (found, last ++ rest) := by
  cases text with
  | nil => cases read
  | cons c tail =>
      by_cases minus : c = '-'
      · subst minus
        simp only [number, bind, Option.bind_eq_some_iff] at read
        obtain ⟨⟨literal, later⟩, first, made⟩ := read
        cases made
        simp only [List.cons_append, number, unsigned_append rest stops first, bind, Option.bind]
      · have other (later : List Char) : number (c :: later) = unsigned (c :: later) := by simp [number, minus]
        rw [other] at read
        rw [List.cons_append, other]
        exact unsigned_append rest stops read

def IsNumber (literal : List Char) : Prop := number literal = some (literal, [])

theorem number_head (literal : List Char) (isNumber : IsNumber literal) :
    ∃ c tail, literal = c :: tail ∧ (c = '-' ∨ ('0' ≤ c && c ≤ '9') = true) := by
  cases literal with
  | nil => cases isNumber
  | cons c tail =>
      refine ⟨c, tail, rfl, ?_⟩
      by_contra foreign
      obtain ⟨minus, plain⟩ := not_or.mp foreign
      have zero : c ≠ '0' := by
        rintro rfl
        exact plain (by decide)
      have nothing : integer (c :: tail) = none := by
        simp [integer, zero, someDigits, digits, List.span_eq_takeWhile_dropWhile, plain]
      have read : number (c :: tail) = unsigned (c :: tail) := by simp [number, minus]
      rw [IsNumber, read, unsigned, nothing] at isNumber
      cases isNumber

end Numbers

section RoundTrip

inductive Sound : Value → Prop
  | null : Sound .null
  | bool (value : Bool) : Sound (.bool value)
  | number (literal : List Char) : IsNumber literal → Sound (.number literal)
  | string (units : Utf16.Units) : Sound (.string units)
  | array (items : List Value) : (∀ item ∈ items, Sound item) → Sound (.array items)
  | object (members : List (Utf16.Units × Value)) : (∀ member ∈ members, Sound member.2) → Sound (.object members)

theorem skip_cons (c : Char) (text : List Char) (dense : isSpace c = false) : skip (c :: text) = c :: text := by
  simp [skip, dense]

-- The text of a value is read back in front of what may follow it.
structure Reads (v : Value) : Prop where
  opens : ∃ c tail, stringify v = c :: tail ∧ isSpace c = false ∧ c ≠ ']'
  reads : ∀ fuel rest, (stringify v).length ≤ fuel → Stops rest → value fuel (stringify v ++ rest) = some (v, rest)

theorem stops_cons (c : Char) (rest : List Char) (stop : c = ',' ∨ c = ']' ∨ c = '}') : Stops (c :: rest) := by
  intro d same
  cases same
  exact stop

theorem items_opens (item : Value) (others : List Value) (opens : Reads item) (rest : List Char) :
    ∃ c tail, stringifyItems (item :: others) ++ rest = c :: tail ∧ isSpace c = false ∧ c ≠ ']' := by
  obtain ⟨c, tail, text, dense, other⟩ := opens.opens
  cases others with
  | nil => exact ⟨c, tail ++ rest, by rw [stringifyItems, text]; rfl, dense, other⟩
  | cons next later =>
      refine ⟨c, tail ++ ',' :: stringifyItems (next :: later) ++ rest, ?_, dense, other⟩
      rw [stringifyItems, text]
      · rfl
      · simp

theorem elements_last (item : Value) (reads : Reads item) (fuel : Nat) (rest : List Char)
    (enough : (stringify item).length ≤ fuel) :
    elements (fuel + 1) (stringify item ++ ']' :: rest) = some ([item], rest) := by
  have found := reads.reads fuel (']' :: rest) enough (stops_cons _ _ (by simp))
  rw [elements]
  simp only [found, bind, Option.bind, skip_cons ']' rest (by decide)]

theorem elements_next (item : Value) (reads : Reads item) (fuel : Nat) (rest last : List Char) (others : List Value)
    (enough : (stringify item).length ≤ fuel) (read : elements fuel rest = some (others, last)) :
    elements (fuel + 1) (stringify item ++ ',' :: rest) = some (item :: others, last) := by
  have found := reads.reads fuel (',' :: rest) enough (stops_cons _ _ (by simp))
  rw [elements]
  simp only [found, bind, Option.bind, skip_cons ',' rest (by decide), read]

theorem elements_items (item : Value) (others : List Value) (reads : ∀ other ∈ item :: others, Reads other) (fuel : Nat)
    (rest : List Char) (enough : (stringifyItems (item :: others)).length + 1 ≤ fuel) :
    elements fuel (stringifyItems (item :: others) ++ ']' :: rest) = some (item :: others, rest) := by
  induction others generalizing item fuel with
  | nil =>
      obtain ⟨spare, rfl⟩ := Nat.exists_eq_add_of_le' enough
      rw [← Nat.add_assoc, stringifyItems]
      exact elements_last item (reads item (by simp)) _ rest (by omega)
  | cons next later ih =>
      obtain ⟨spare, rfl⟩ := Nat.exists_eq_add_of_le' enough
      have unfolded : stringifyItems (item :: next :: later) = stringify item ++ ',' :: stringifyItems (next :: later) := by
        rw [stringifyItems]
        simp
      have size : (stringifyItems (item :: next :: later)).length =
          (stringify item).length + (stringifyItems (next :: later)).length + 1 := by
        rw [unfolded, List.length_append, List.length_cons]
        omega
      obtain ⟨c, tail, text, -⟩ := (reads item (by simp)).opens
      have long : 1 ≤ (stringify item).length := by rw [text]; simp
      have second := ih next (fun other member => reads other (List.mem_cons_of_mem _ member))
        (spare + (stringifyItems (item :: next :: later)).length) (by omega)
      have whole : stringifyItems (item :: next :: later) ++ ']' :: rest =
          stringify item ++ ',' :: (stringifyItems (next :: later) ++ ']' :: rest) := by
        rw [unfolded]
        simp
      rw [← Nat.add_assoc, whole]
      exact elements_next item (reads item (by simp)) _ _ rest _ (by omega) second

theorem quoted_name (name : Utf16.Units) (rest : List Char) :
    quote name ++ rest = '"' :: (escapeUnits name ++ '"' :: rest) := by simp [quote]

theorem members_last (name : Utf16.Units) (item : Value) (reads : Reads item) (fuel : Nat) (rest : List Char)
    (enough : (stringify item).length ≤ fuel) :
    members (fuel + 1) (quote name ++ ':' :: (stringify item ++ '}' :: rest)) = some ([(name, item)], rest) := by
  have found := reads.reads fuel ('}' :: rest) enough (stops_cons _ _ (by simp))
  rw [quoted_name, members, skip_cons _ _ (by decide)]
  simp only [string_units, bind, Option.bind]
  rw [skip_cons _ _ (by decide)]
  simp only [found, skip_cons '}' rest (by decide)]

theorem members_next (name : Utf16.Units) (item : Value) (reads : Reads item) (fuel : Nat) (rest last : List Char)
    (others : List (Utf16.Units × Value)) (enough : (stringify item).length ≤ fuel) (read : members fuel rest = some (others, last)) :
    members (fuel + 1) (quote name ++ ':' :: (stringify item ++ ',' :: rest)) = some ((name, item) :: others, last) := by
  have found := reads.reads fuel (',' :: rest) enough (stops_cons _ _ (by simp))
  rw [quoted_name, members, skip_cons _ _ (by decide)]
  simp only [string_units, bind, Option.bind]
  rw [skip_cons _ _ (by decide)]
  simp only [found, skip_cons ',' rest (by decide), read]

theorem members_items (member : Utf16.Units × Value) (others : List (Utf16.Units × Value))
    (reads : ∀ other ∈ member :: others, Reads other.2) (fuel : Nat) (rest : List Char)
    (enough : (stringifyMembers (member :: others)).length + 1 ≤ fuel) :
    members fuel (stringifyMembers (member :: others) ++ '}' :: rest) = some (member :: others, rest) := by
  induction others generalizing member fuel with
  | nil =>
      obtain ⟨name, item⟩ := member
      obtain ⟨spare, rfl⟩ := Nat.exists_eq_add_of_le' enough
      have text : stringifyMembers [(name, item)] ++ '}' :: rest = quote name ++ ':' :: (stringify item ++ '}' :: rest) := by
        simp [stringifyMembers]
      have size : (stringify item).length ≤ (stringifyMembers [(name, item)]).length := by
        simp only [stringifyMembers, List.length_append, List.length_cons]
        omega
      rw [← Nat.add_assoc, text]
      exact members_last name item (reads (name, item) (by simp)) _ rest (by omega)
  | cons next later ih =>
      obtain ⟨name, item⟩ := member
      obtain ⟨spare, rfl⟩ := Nat.exists_eq_add_of_le' enough
      have unfolded : stringifyMembers ((name, item) :: next :: later) =
          quote name ++ ':' :: stringify item ++ ',' :: stringifyMembers (next :: later) := by
        rw [stringifyMembers]
        simp
      have text : stringifyMembers ((name, item) :: next :: later) ++ '}' :: rest =
          quote name ++ ':' :: (stringify item ++ ',' :: (stringifyMembers (next :: later) ++ '}' :: rest)) := by
        rw [unfolded]
        simp
      have size : (stringify item).length + (stringifyMembers (next :: later)).length + 2 ≤
          (stringifyMembers ((name, item) :: next :: later)).length := by
        rw [unfolded]
        simp only [List.length_append, List.length_cons, quote]
        omega
      have second := ih next (fun other member => reads other (List.mem_cons_of_mem _ member))
        (spare + (stringifyMembers ((name, item) :: next :: later)).length) (by omega)
      rw [← Nat.add_assoc, text]
      exact members_next name item (reads (name, item) (by simp)) _ _ rest _ (by omega) second

theorem value_array (fuel : Nat) (text : List Char) (c : Char) (tail : List Char) (found : skip text = c :: tail) (other : c ≠ ']') :
    value (fuel + 1) ('[' :: text) = (do
      let (items, rest) ← elements fuel (c :: tail)
      some (.array items, rest)) := by
  rw [value, skip_cons _ _ (by decide)]
  simp only [found]
  split
  · rename_i same
    exact absurd (List.cons.inj same).1 other
  · rfl

theorem value_object (fuel : Nat) (text : List Char) (c : Char) (tail : List Char) (found : skip text = c :: tail) (other : c ≠ '}') :
    value (fuel + 1) ('{' :: text) = (do
      let (found, rest) ← members fuel (c :: tail)
      some (.object found, rest)) := by
  rw [value, skip_cons _ _ (by decide)]
  simp only [found]
  split
  · rename_i same
    exact absurd (List.cons.inj same).1 other
  · rfl

theorem value_number (fuel : Nat) (c : Char) (tail : List Char) (start : c = '-' ∨ ('0' ≤ c && c ≤ '9') = true) :
    value (fuel + 1) (c :: tail) = (do
      let (literal, rest) ← number (c :: tail)
      some (.number literal, rest)) := by
  have foreign : c ≠ 'n' ∧ c ≠ 't' ∧ c ≠ 'f' ∧ c ≠ '"' ∧ c ≠ '[' ∧ c ≠ '{' ∧ isSpace c = false := by
    rcases start with rfl | digit
    · decide
    · refine ⟨?_, ?_, ?_, ?_, ?_, ?_, ?_⟩
      all_goals first
        | (rintro rfl; revert digit; decide)
        | skip
      by_contra space
      simp only [isSpace, Bool.not_eq_false, Bool.or_eq_true, decide_eq_true_eq] at space
      rcases space with ((rfl | rfl) | rfl) | rfl <;> revert digit <;> decide
  obtain ⟨n, t, f, quoted, bracket, brace, dense⟩ := foreign
  rw [value, skip_cons _ _ dense]
  split
  · rename_i same
    exact absurd (List.cons.inj same).1 n
  · rename_i same
    exact absurd (List.cons.inj same).1 t
  · rename_i same
    exact absurd (List.cons.inj same).1 f
  · rename_i same
    exact absurd (List.cons.inj same).1 quoted
  · rename_i same
    exact absurd (List.cons.inj same).1 bracket
  · rename_i same
    exact absurd (List.cons.inj same).1 brace
  · rfl

theorem sound_reads (v : Value) (sound : Sound v) : Reads v := by
  induction sound with
  | null =>
      refine ⟨⟨'n', _, rfl, by decide, by decide⟩, fun fuel rest enough _ => ?_⟩
      obtain ⟨spare, rfl⟩ := Nat.exists_eq_add_of_le' enough
      rfl
  | bool b =>
      cases b with
      | true =>
          refine ⟨⟨'t', _, rfl, by decide, by decide⟩, fun fuel rest enough _ => ?_⟩
          obtain ⟨spare, rfl⟩ := Nat.exists_eq_add_of_le' enough
          rfl
      | false =>
          refine ⟨⟨'f', _, rfl, by decide, by decide⟩, fun fuel rest enough _ => ?_⟩
          obtain ⟨spare, rfl⟩ := Nat.exists_eq_add_of_le' enough
          rfl
  | number literal isNumber =>
      obtain ⟨c, tail, rfl, start⟩ := number_head literal isNumber
      refine ⟨⟨c, tail, rfl, ?_⟩, fun fuel rest enough stops => ?_⟩
      · rcases start with rfl | digit
        · decide
        · constructor
          · by_contra space
            simp only [isSpace, Bool.not_eq_false, Bool.or_eq_true, decide_eq_true_eq] at space
            rcases space with ((rfl | rfl) | rfl) | rfl <;> revert digit <;> decide
          · rintro rfl
            revert digit
            decide
      · obtain ⟨spare, rfl⟩ := Nat.exists_eq_add_of_le' enough
        have read := number_append rest stops isNumber
        rw [stringify, List.length_cons, ← Nat.add_assoc, List.cons_append, value_number _ c _ start]
        rw [List.cons_append] at read
        rw [read]
        rfl
  | string units =>
      refine ⟨⟨'"', _, rfl, by decide, by decide⟩, fun fuel rest enough _ => ?_⟩
      obtain ⟨spare, rfl⟩ := Nat.exists_eq_add_of_le' enough
      rw [stringify, quoted_name, show spare + (quote units).length = spare + (escapeUnits units ++ ['"']).length + 1 from rfl, value,
        skip_cons _ _ (by decide)]
      simp only [string_units, bind, Option.bind]
  | array items _ ih =>
      refine ⟨⟨'[', _, rfl, by decide, by decide⟩, fun fuel rest enough _ => ?_⟩
      obtain ⟨spare, rfl⟩ := Nat.exists_eq_add_of_le' enough
      cases items with
      | nil => rfl
      | cons item others =>
          have size : (stringify (.array (item :: others))).length = (stringifyItems (item :: others)).length + 1 + 1 := by
            simp [stringify]
          obtain ⟨c, tail, text, dense, other⟩ := items_opens item others (ih item (by simp)) (']' :: rest)
          have read := elements_items item others ih (spare + ((stringifyItems (item :: others)).length + 1)) rest (by omega)
          rw [size, show stringify (.array (item :: others)) ++ rest = '[' :: (stringifyItems (item :: others) ++ ']' :: rest) by
            simp [stringify], ← Nat.add_assoc spare, text, value_array _ _ c tail (skip_cons c tail dense) other, ← text, read]
          rfl
  | object found _ ih =>
      refine ⟨⟨'{', _, rfl, by decide, by decide⟩, fun fuel rest enough _ => ?_⟩
      obtain ⟨spare, rfl⟩ := Nat.exists_eq_add_of_le' enough
      cases found with
      | nil => rfl
      | cons member others =>
          have size : (stringify (.object (member :: others))).length = (stringifyMembers (member :: others)).length + 1 + 1 := by
            simp [stringify]
          have opens : ∃ tail, stringifyMembers (member :: others) ++ '}' :: rest = '"' :: tail := by
            cases others with
            | nil => exact ⟨_, rfl⟩
            | cons next later => exact ⟨_, rfl⟩
          obtain ⟨tail, text⟩ := opens
          have read := members_items member others ih (spare + ((stringifyMembers (member :: others)).length + 1)) rest (by omega)
          rw [size, show stringify (.object (member :: others)) ++ rest = '{' :: (stringifyMembers (member :: others) ++ '}' :: rest) by
            simp [stringify], ← Nat.add_assoc spare, text,
            value_object _ _ '"' tail (skip_cons '"' tail (by decide)) (by decide), ← text, read]
          rfl

theorem parse_stringify (v : Value) (sound : Sound v) : parse (stringify v) = some v := by
  have read := (sound_reads v sound).reads (2 * (stringify v).length + 2) [] (by omega) fun c head => by cases head
  rw [List.append_nil] at read
  rw [parse, read]
  rfl

end RoundTrip

section Lengths

theorem length_of_cons (c : Char) (rest : List Char) :
    (Utf16.ofText (c :: rest)).length = (Utf16.ofChar c).length + (Utf16.ofText rest).length := by
  rw [Utf16.of_text_cons, List.length_append]

theorem length_of_char_pos (c : Char) : 1 ≤ (Utf16.ofChar c).length := by
  unfold Utf16.ofChar
  split
  · exact Nat.le_refl 1
  · exact Nat.le_succ 1

theorem string_shorter (text : List Char) (found : Utf16.Units) (last : List Char) (read : string text = some (found, last)) :
    found.length + 1 + (Utf16.ofText last).length ≤ (Utf16.ofText text).length := by
  induction text using string.induct generalizing found last with
  | case1 => cases read
  | case2 rest =>
      cases read
      simp only [length_of_cons, List.length_nil]
      have quoted := length_of_char_pos '"'
      omega
  | case3 a b c d rest ih =>
      simp only [string, bind, Option.bind_eq_some_iff] at read
      obtain ⟨unit, -, ⟨others, later⟩, tail, made⟩ := read
      cases made
      have shorter := ih _ _ tail
      have slash := length_of_char_pos '\\'
      simp only [length_of_cons, List.length_cons]
      omega
  | case4 letter rest other ih =>
      rw [string.eq_4 _ _ other] at read
      simp only [bind, Option.bind_eq_some_iff] at read
      obtain ⟨unit, -, ⟨others, later⟩, tail, made⟩ := read
      cases made
      have shorter := ih _ _ tail
      have slash := length_of_char_pos '\\'
      simp only [length_of_cons, List.length_cons]
      omega
  | case5 c rest quoted escaped letter control ih =>
      rw [string.eq_5 _ _ quoted escaped letter, if_pos control] at read
      cases read
  | case6 c rest quoted escaped letter plain ih =>
      rw [string.eq_5 _ _ quoted escaped letter, if_neg plain] at read
      simp only [bind, Option.bind_eq_some_iff] at read
      obtain ⟨⟨others, later⟩, tail, made⟩ := read
      cases made
      have shorter := ih _ _ tail
      simp only [length_of_cons, List.length_append]
      omega

theorem skip_shorter (text : List Char) : (Utf16.ofText (skip text)).length ≤ (Utf16.ofText text).length := by
  unfold skip
  induction text with
  | nil => exact Nat.le_refl _
  | cons c rest ih =>
      rw [List.dropWhile_cons, length_of_cons]
      split
      · omega
      · exact Nat.le_of_eq (length_of_cons c rest)

theorem value_string_shorter (fuel : Nat) (text : List Char) (units : Utf16.Units) (rest : List Char)
    (read : value fuel text = some (.string units, rest)) : units.length + 2 ≤ (Utf16.ofText text).length := by
  cases fuel with
  | zero => cases read
  | succ spare =>
      rw [value] at read
      split at read
      · cases read
      · cases read
      · cases read
      · rename_i quoted found
        simp only [bind, Option.bind_eq_some_iff] at read
        obtain ⟨⟨inner, last⟩, inside, made⟩ := read
        cases made
        have shorter := string_shorter quoted inner last inside
        have skipped := skip_shorter text
        have mark := length_of_char_pos '"'
        rw [found, length_of_cons] at skipped
        show inner.length + 2 ≤ _
        omega
      · split at read
        · cases read
        · simp only [bind, Option.bind_eq_some_iff] at read
          obtain ⟨pair, -, made⟩ := read
          cases made
      · split at read
        · cases read
        · simp only [bind, Option.bind_eq_some_iff] at read
          obtain ⟨pair, -, made⟩ := read
          cases made
      · simp only [bind, Option.bind_eq_some_iff] at read
        obtain ⟨pair, -, made⟩ := read
        cases made

theorem parse_not_itself (text : List Char) (units : Utf16.Units) (same : units.length = (Utf16.ofText text).length) :
    parse text ≠ some (.string units) := by
  intro read
  simp only [parse, bind, Option.bind_eq_some_iff] at read
  obtain ⟨⟨found, rest⟩, first, made⟩ := read
  split at made
  · cases made
    have shorter := value_string_shorter _ _ _ _ first
    omega
  · cases made

end Lengths

end Json
