import RateWise.Utf16

set_option autoImplicit false

namespace Base64

def alphabet : List Char := "ABCDEFGHIJKLMNOPQRSTUVWXYZabcdefghijklmnopqrstuvwxyz0123456789+/".toList

def digit (n : Nat) : Char := alphabet.getD n 'A'

-- The standard alphabet and the one for urls; anything else has no value.
def value (c : Char) : Option Nat :=
  if 'A' ≤ c ∧ c ≤ 'Z' then some (c.toNat - 65)
  else if 'a' ≤ c ∧ c ≤ 'z' then some (c.toNat - 71)
  else if '0' ≤ c ∧ c ≤ '9' then some (c.toNat + 4)
  else if c = '+' ∨ c = '-' then some 62
  else if c = '/' ∨ c = '_' then some 63
  else none

def encode : List Nat → List Char
  | a :: b :: c :: rest =>
      digit (a / 4) :: digit (a % 4 * 16 + b / 16) :: digit (b % 16 * 4 + c / 64) :: digit (c % 64) :: encode rest
  | [a, b] => [digit (a / 4), digit (a % 4 * 16 + b / 16), digit (b % 16 * 4), '=']
  | [a] => [digit (a / 4), digit (a % 4 * 16), '=', '=']
  | [] => []

-- Six bits at a time; bits that do not fill a byte are dropped.
def bytes : List Nat → List Nat
  | a :: b :: c :: d :: rest => (a * 4 + b / 16) :: (b % 16 * 16 + c / 4) :: (c % 4 * 64 + d) :: bytes rest
  | [a, b, c] => [a * 4 + b / 16, b % 16 * 16 + c / 4]
  | [a, b] => [a * 4 + b / 16]
  | _ => []

-- What is not in the alphabet is skipped; nothing after the padding is read.
def digitsOf (text : List Char) : List Nat := (text.takeWhile fun c => c ≠ '=').filterMap value

-- A unit counts by its low byte.
def character (u : UInt16) : Char := Char.ofNat (u.toNat % 256)

def decode (units : Utf16.Units) : List Nat := bytes (digitsOf (units.map character))

set_option maxRecDepth 4000 in
theorem value_digit : ∀ n < 64, value (digit n) = some n := by decide

set_option maxRecDepth 4000 in
theorem digit_plain : ∀ n < 64, digit n ≠ '=' ∧ (digit n).toNat < 128 := by decide

theorem digits_of_cons (n : Nat) (small : n < 64) (rest : List Char) : digitsOf (digit n :: rest) = n :: digitsOf rest := by
  have plain : decide (digit n ≠ '=') = true := decide_eq_true (digit_plain n small).1
  rw [digitsOf, List.takeWhile_cons_of_pos (by exact plain), List.filterMap_cons_some (value_digit n small), digitsOf]

theorem digits_of_padding (rest : List Char) : digitsOf ('=' :: rest) = [] := rfl

theorem bytes_encode (data : List Nat) (small : ∀ byte ∈ data, byte < 256) : bytes (digitsOf (encode data)) = data := by
  induction data using encode.induct with
  | case1 a b c rest ih =>
      have ha := small a (by simp)
      have hb := small b (by simp)
      have hc := small c (by simp)
      have tail := ih fun byte member => small byte (by simp [member])
      rw [encode, digits_of_cons _ (by omega), digits_of_cons _ (by omega), digits_of_cons _ (by omega), digits_of_cons _ (by omega),
        bytes, tail,
        show a / 4 * 4 + (a % 4 * 16 + b / 16) / 16 = a by omega,
        show (a % 4 * 16 + b / 16) % 16 * 16 + (b % 16 * 4 + c / 64) / 4 = b by omega,
        show (b % 16 * 4 + c / 64) % 4 * 64 + c % 64 = c by omega]
  | case2 a b =>
      have ha := small a (by simp)
      have hb := small b (by simp)
      rw [encode, digits_of_cons _ (by omega), digits_of_cons _ (by omega), digits_of_cons _ (by omega), digits_of_padding, bytes,
        show a / 4 * 4 + (a % 4 * 16 + b / 16) / 16 = a by omega,
        show (a % 4 * 16 + b / 16) % 16 * 16 + b % 16 * 4 / 4 = b by omega]
  | case3 a =>
      have ha := small a (by simp)
      rw [encode, digits_of_cons _ (by omega), digits_of_cons _ (by omega), digits_of_padding, bytes,
        show a / 4 * 4 + a % 4 * 16 / 16 = a by omega]
  | case4 => rfl

-- Groups of four digits; the last one may be padded, with zero bits where no
-- byte is left.
inductive Canonical : List Char → Prop
  | done : Canonical []
  | one (a b : Nat) : a < 64 → b < 64 → b % 16 = 0 → Canonical [digit a, digit b, '=', '=']
  | two (a b c : Nat) : a < 64 → b < 64 → c < 64 → c % 4 = 0 → Canonical [digit a, digit b, digit c, '=']
  | four (a b c d : Nat) (rest : List Char) : a < 64 → b < 64 → c < 64 → d < 64 → Canonical rest →
      Canonical (digit a :: digit b :: digit c :: digit d :: rest)

theorem encode_canonical (data : List Nat) (small : ∀ byte ∈ data, byte < 256) : Canonical (encode data) := by
  induction data using encode.induct with
  | case1 a b c rest ih =>
      have ha := small a (by simp)
      have hb := small b (by simp)
      have hc := small c (by simp)
      exact .four _ _ _ _ _ (by omega) (by omega) (by omega) (by omega) (ih fun byte member => small byte (by simp [member]))
  | case2 a b =>
      have ha := small a (by simp)
      have hb := small b (by simp)
      exact .two _ _ _ (by omega) (by omega) (by omega) (by omega)
  | case3 a =>
      have ha := small a (by simp)
      exact .one _ _ (by omega) (by omega) (by omega)
  | case4 => exact .done

theorem canonical_ascii (text : List Char) (canonical : Canonical text) : ∀ c ∈ text, c.toNat < 128 := by
  induction canonical with
  | done => simp
  | one a b ha hb zero => simp [(digit_plain _ ha).2, (digit_plain _ hb).2]
  | two a b c ha hb hc zero => simp [(digit_plain _ ha).2, (digit_plain _ hb).2, (digit_plain _ hc).2]
  | four a b c d rest ha hb hc hd _ ih =>
      simpa [(digit_plain _ ha).2, (digit_plain _ hb).2, (digit_plain _ hc).2, (digit_plain _ hd).2] using ih

theorem characters_of_text (text : List Char) (ascii : ∀ c ∈ text, c.toNat < 128) : (Utf16.ofText text).map character = text := by
  induction text with
  | nil => rfl
  | cons c rest ih =>
      have small := ascii c List.mem_cons_self
      have unit : Utf16.ofChar c = [UInt16.ofNat c.toNat] := if_pos (by omega)
      have same : character (UInt16.ofNat c.toNat) = c := by
        rw [character, Utf16.to_nat_of_nat _ (by omega), Nat.mod_eq_of_lt (by omega)]
        exact Char.ofNat_toNat c
      rw [Utf16.of_text_cons, unit, List.map_append, List.map_singleton, same, ih fun d member => ascii d (List.mem_cons_of_mem c member)]
      rfl

theorem decode_text (text : List Char) (canonical : Canonical text) : decode (Utf16.ofText text) = bytes (digitsOf text) := by
  rw [decode, characters_of_text text (canonical_ascii text canonical)]

theorem decode_encode (data : List Nat) (small : ∀ byte ∈ data, byte < 256) : decode (Utf16.ofText (encode data)) = data := by
  rw [decode_text _ (encode_canonical data small), bytes_encode data small]

end Base64
