import Mathlib.Data.List.Basic

set_option autoImplicit false

namespace Utf16

abbrev Units := List UInt16

def isHigh (u : UInt16) : Bool := 0xD800 ≤ u.toNat && u.toNat < 0xDC00

def isLow (u : UInt16) : Bool := 0xDC00 ≤ u.toNat && u.toNat < 0xE000

def replacement : Char := Char.ofNat 0xFFFD

-- A unit that is no half of a pair; a lone surrogate is replaced.
def single (u : UInt16) : Char := if isHigh u || isLow u then replacement else Char.ofNat u.toNat

def joined (high low : UInt16) : Char := Char.ofNat (0x10000 + (high.toNat - 0xD800) * 1024 + (low.toNat - 0xDC00))

def toText : Units → List Char
  | [] => []
  | [u] => [single u]
  | u :: v :: rest =>
      if isHigh u && isLow v then joined u v :: toText rest else single u :: toText (v :: rest)

def pairs : Units → Nat
  | [] => 0
  | [_] => 0
  | u :: v :: rest => if isHigh u && isLow v then pairs rest + 1 else pairs (v :: rest)

def ofChar (c : Char) : Units :=
  if c.toNat < 0x10000 then [UInt16.ofNat c.toNat]
  else [UInt16.ofNat (0xD800 + (c.toNat - 0x10000) / 1024), UInt16.ofNat (0xDC00 + (c.toNat - 0x10000) % 1024)]

def ofText (text : List Char) : Units := text.flatMap ofChar

-- No lone surrogate.
def WellFormed (units : Units) : Prop := ofText (toText units) = units

instance (units : Units) : Decidable (WellFormed units) := inferInstanceAs (Decidable (_ = _))

theorem length_to_text (units : Units) : units.length = (toText units).length + pairs units := by
  fun_induction toText units with
  | case1 => rfl
  | case2 u => rfl
  | case3 u v rest paired ih =>
      simp only [pairs, if_pos paired, List.length_cons]
      omega
  | case4 u v rest alone ih =>
      simp only [pairs, if_neg alone, List.length_cons] at ih ⊢
      omega

theorem to_nat_of_nat (n : Nat) (small : n < 0x10000) : (UInt16.ofNat n).toNat = n := UInt16.toNat_ofNat_of_lt' small

theorem char_bounds (c : Char) : c.toNat < 0xD800 ∨ 0xDFFF < c.toNat ∧ c.toNat < 0x110000 := by
  have valid := c.valid
  simp only [UInt32.isValidChar, Nat.isValidChar] at valid
  exact valid

theorem single_of_char (c : Char) (small : c.toNat < 0x10000) : single (UInt16.ofNat c.toNat) = c := by
  have value : (UInt16.ofNat c.toNat).toNat = c.toNat := to_nat_of_nat _ small
  have bounds := char_bounds c
  have plain : (isHigh (UInt16.ofNat c.toNat) || isLow (UInt16.ofNat c.toNat)) = false := by
    simp only [isHigh, isLow, value, Bool.or_eq_false_iff, Bool.and_eq_false_iff, decide_eq_false_iff_not]
    omega
  rw [single, plain, value]
  exact Char.ofNat_toNat c

theorem not_high_of_char (c : Char) (small : c.toNat < 0x10000) : isHigh (UInt16.ofNat c.toNat) = false := by
  have value : (UInt16.ofNat c.toNat).toNat = c.toNat := to_nat_of_nat _ small
  have bounds := char_bounds c
  simp only [isHigh, value, Bool.and_eq_false_iff, decide_eq_false_iff_not]
  omega

theorem of_char_pair (c : Char) (large : ¬ c.toNat < 0x10000) :
    ∃ high low, ofChar c = [high, low] ∧ isHigh high = true ∧ isLow low = true ∧ joined high low = c := by
  have bounds := char_bounds c
  have high : (UInt16.ofNat (0xD800 + (c.toNat - 0x10000) / 1024)).toNat = 0xD800 + (c.toNat - 0x10000) / 1024 :=
    to_nat_of_nat _ (by omega)
  have low : (UInt16.ofNat (0xDC00 + (c.toNat - 0x10000) % 1024)).toNat = 0xDC00 + (c.toNat - 0x10000) % 1024 :=
    to_nat_of_nat _ (by omega)
  have whole : 0x10000 + (0xD800 + (c.toNat - 0x10000) / 1024 - 0xD800) * 1024 +
      (0xDC00 + (c.toNat - 0x10000) % 1024 - 0xDC00) = c.toNat := by omega
  refine ⟨_, _, if_neg large, ?_, ?_, ?_⟩
  · simp only [isHigh, high, Bool.and_eq_true, decide_eq_true_eq]
    omega
  · simp only [isLow, low, Bool.and_eq_true, decide_eq_true_eq]
    omega
  · rw [joined, high, low, whole]
    exact Char.ofNat_toNat c

theorem to_text_of_char (c : Char) (rest : Units) : toText (ofChar c ++ rest) = c :: toText rest := by
  by_cases small : c.toNat < 0x10000
  · rw [ofChar, if_pos small]
    cases rest with
    | nil => simp [toText, single_of_char c small]
    | cons v others => simp [toText, not_high_of_char c small, single_of_char c small]
  · obtain ⟨high, low, pair, first, second, char⟩ := of_char_pair c small
    rw [pair, List.cons_append, List.cons_append, List.nil_append, toText, first, second, char]
    rfl

theorem to_text_of_text (text : List Char) : toText (ofText text) = text := by
  induction text with
  | nil => rfl
  | cons c rest ih =>
      show toText (ofChar c ++ ofText rest) = c :: rest
      rw [to_text_of_char, ih]

theorem of_text_injective (a b : List Char) (same : ofText a = ofText b) : a = b := by
  have back := congrArg toText same
  rwa [to_text_of_text, to_text_of_text] at back

theorem of_text_append (a b : List Char) : ofText (a ++ b) = ofText a ++ ofText b := List.flatMap_append

theorem of_text_cons (c : Char) (rest : List Char) : ofText (c :: rest) = ofChar c ++ ofText rest := rfl

-- An ASCII unit stands for its own character and for no part of another one.
theorem mem_of_char (c : Char) (n : Nat) (ascii : n < 0x80) : UInt16.ofNat n ∈ ofChar c ↔ c = Char.ofNat n := by
  have value : (UInt16.ofNat n).toNat = n := to_nat_of_nat n (by omega)
  have point : (Char.ofNat n).toNat = n := by
    rw [Char.ofNat, dif_pos (.inl (by omega))]
    rfl
  have bounds := char_bounds c
  have unit (m : Nat) (small : m < 0x10000) : UInt16.ofNat n = UInt16.ofNat m ↔ n = m := by
    rw [← UInt16.toNat_inj, value, to_nat_of_nat m small]
  have char : c = Char.ofNat n ↔ c.toNat = n := by
    constructor
    · rintro rfl
      exact point
    · intro same
      rw [← same]
      exact (Char.ofNat_toNat c).symm
  rw [char, ofChar]
  split
  · rename_i small
    rw [List.mem_singleton, unit c.toNat small]
    omega
  · simp only [List.mem_cons, List.not_mem_nil, or_false]
    rw [unit _ (by omega), unit _ (by omega)]
    omega

theorem mem_of_text (text : List Char) (n : Nat) (ascii : n < 0x80) : UInt16.ofNat n ∈ ofText text ↔ Char.ofNat n ∈ text := by
  simp only [ofText, List.mem_flatMap, mem_of_char _ n ascii]
  constructor
  · rintro ⟨c, member, rfl⟩
    exact member
  · intro member
    exact ⟨_, member, rfl⟩

theorem mem_to_text (units : Units) (u : UInt16) (member : u ∈ units) (plain : (isHigh u || isLow u) = false) :
    Char.ofNat u.toNat ∈ toText units := by
  have own : single u = Char.ofNat u.toNat := by rw [single, plain, if_neg Bool.false_ne_true]
  obtain ⟨notHigh, notLow⟩ := Bool.or_eq_false_iff.mp plain
  fun_induction toText units with
  | case1 => cases member
  | case2 v =>
      rw [← List.mem_singleton.mp member, own]
      exact List.mem_singleton_self _
  | case3 v w rest paired ih =>
      rw [Bool.and_eq_true] at paired
      rcases List.mem_cons.mp member with rfl | later
      · rw [notHigh] at paired
        cases paired.1
      · rcases List.mem_cons.mp later with rfl | last
        · rw [notLow] at paired
          cases paired.2
        · exact List.mem_cons_of_mem _ (ih last)
  | case4 v w rest alone ih =>
      rcases List.mem_cons.mp member with rfl | later
      · rw [own]
        exact List.mem_cons_self
      · exact List.mem_cons_of_mem _ (ih later)

theorem number_of_char (n : Nat) (valid : n.isValidChar) : (Char.ofNat n).toNat = n := by
  rw [Char.ofNat, dif_pos valid]
  rfl

theorem of_char_single (u : UInt16) : (ofChar (single u)).length = 1 := by
  unfold single
  split
  · decide
  · rename_i plain
    have small := u.toNat_lt
    have valid : u.toNat.isValidChar := by
      simp only [isHigh, isLow, Bool.or_eq_true, Bool.and_eq_true, decide_eq_true_eq, not_or, not_and, Nat.not_lt] at plain
      simp only [Nat.isValidChar]
      omega
    rw [ofChar, number_of_char _ valid, if_pos (by omega), List.length_singleton]

theorem joined_number (u v : UInt16) (high : isHigh u = true) (low : isLow v = true) :
    (joined u v).toNat = 0x10000 + (u.toNat - 0xD800) * 1024 + (v.toNat - 0xDC00) := by
  simp only [isHigh, isLow, Bool.and_eq_true, decide_eq_true_eq] at high low
  refine number_of_char _ ?_
  simp only [Nat.isValidChar]
  omega

theorem of_char_joined (u v : UInt16) (high : isHigh u = true) (low : isLow v = true) : ofChar (joined u v) = [u, v] := by
  have number := joined_number u v high low
  simp only [isHigh, isLow, Bool.and_eq_true, decide_eq_true_eq] at high low
  rw [ofChar, if_neg (by omega), number,
    show 0xD800 + (0x10000 + (u.toNat - 0xD800) * 1024 + (v.toNat - 0xDC00) - 0x10000) / 1024 = u.toNat by omega,
    show 0xDC00 + (0x10000 + (u.toNat - 0xD800) * 1024 + (v.toNat - 0xDC00) - 0x10000) % 1024 = v.toNat by omega,
    UInt16.ofNat_toNat, UInt16.ofNat_toNat]

theorem length_of_to_text (units : Units) : (ofText (toText units)).length = units.length := by
  fun_induction toText units with
  | case1 => rfl
  | case2 u =>
      rw [of_text_cons, List.length_append, of_char_single]
      rfl
  | case3 u v rest paired ih =>
      obtain ⟨high, low⟩ := Bool.and_eq_true_iff.mp paired
      rw [of_text_cons, List.length_append, of_char_joined u v high low, ih]
      simp only [List.length_cons, List.length_nil]
      omega
  | case4 u v rest alone ih =>
      rw [of_text_cons, List.length_append, of_char_single, ih]
      simp only [List.length_cons]
      omega

end Utf16
