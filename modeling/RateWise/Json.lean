import RateWise.Utf16

set_option autoImplicit false

namespace Json

-- A number keeps its literal; a string is one of the runtime and may have lone
-- surrogates.
inductive Value where
  | null
  | bool (value : Bool)
  | number (literal : List Char)
  | string (units : Utf16.Units)
  | array (items : List Value)
  | object (members : List (Utf16.Units × Value))

section Equality

mutual

def Value.same : Value → Value → Bool
  | .null, .null => true
  | .bool a, .bool b => a = b
  | .number a, .number b => a = b
  | .string a, .string b => a = b
  | .array a, .array b => sameItems a b
  | .object a, .object b => sameMembers a b
  | _, _ => false

def sameItems : List Value → List Value → Bool
  | [], [] => true
  | a :: others, b :: rest => a.same b && sameItems others rest
  | _, _ => false

def sameMembers : List (Utf16.Units × Value) → List (Utf16.Units × Value) → Bool
  | [], [] => true
  | (name, a) :: others, (key, b) :: rest => name = key && a.same b && sameMembers others rest
  | _, _ => false

end

mutual

theorem same_iff (a b : Value) : a.same b = true ↔ a = b := by
  cases a <;> cases b <;> simp [Value.same, same_items_iff, same_members_iff]

theorem same_items_iff (a b : List Value) : sameItems a b = true ↔ a = b := by
  cases a with
  | nil => cases b <;> simp [sameItems]
  | cons item others =>
      cases b with
      | nil => simp [sameItems]
      | cons other rest => simp [sameItems, same_iff item other, same_items_iff others rest]

theorem same_members_iff (a b : List (Utf16.Units × Value)) : sameMembers a b = true ↔ a = b := by
  cases a with
  | nil => cases b <;> simp [sameMembers]
  | cons member others =>
      cases b with
      | nil => simp [sameMembers]
      | cons other rest =>
          obtain ⟨name, item⟩ := member
          obtain ⟨key, value⟩ := other
          simp [sameMembers, same_iff item value, same_members_iff others rest]

end

instance : DecidableEq Value := fun a b => decidable_of_iff (a.same b = true) (same_iff a b)

end Equality

section Strings

def hexDigit (n : Nat) : Char := "0123456789abcdef".toList.getD n '0'

def hexValue (c : Char) : Option Nat :=
  if '0' ≤ c ∧ c ≤ '9' then some (c.toNat - 48)
  else if 'a' ≤ c ∧ c ≤ 'f' then some (c.toNat - 87)
  else if 'A' ≤ c ∧ c ≤ 'F' then some (c.toNat - 55)
  else none

def hexUnit (a b c d : Char) : Option Nat := do
  let a ← hexValue a
  let b ← hexValue b
  let c ← hexValue c
  let d ← hexValue d
  some (((a * 16 + b) * 16 + c) * 16 + d)

def escapeLetter (c : Char) : Option Char :=
  if c = '"' then some '"'
  else if c = '\\' then some '\\'
  else if c.toNat = 8 then some 'b'
  else if c.toNat = 9 then some 't'
  else if c.toNat = 10 then some 'n'
  else if c.toNat = 12 then some 'f'
  else if c.toNat = 13 then some 'r'
  else none

def letterUnit (letter : Char) : Option Nat :=
  if letter = '"' then some 34
  else if letter = '\\' then some 92
  else if letter = '/' then some 47
  else if letter = 'b' then some 8
  else if letter = 't' then some 9
  else if letter = 'n' then some 10
  else if letter = 'f' then some 12
  else if letter = 'r' then some 13
  else none

def escape (c : Char) : List Char :=
  match escapeLetter c with
  | some letter => ['\\', letter]
  | none => if c.toNat < 0x20 then ['\\', 'u', '0', '0', hexDigit (c.toNat / 16), hexDigit (c.toNat % 16)] else [c]

-- The escape of a lone surrogate.
def spelled (u : UInt16) : List Char :=
  ['\\', 'u', hexDigit (u.toNat / 4096), hexDigit (u.toNat / 256 % 16), hexDigit (u.toNat / 16 % 16), hexDigit (u.toNat % 16)]

def escapeUnit (u : UInt16) : List Char :=
  if Utf16.isHigh u || Utf16.isLow u then spelled u else escape (Char.ofNat u.toNat)

def escapeUnits : Utf16.Units → List Char
  | [] => []
  | [u] => escapeUnit u
  | u :: v :: rest =>
      if Utf16.isHigh u && Utf16.isLow v then Utf16.joined u v :: escapeUnits rest else escapeUnit u ++ escapeUnits (v :: rest)

def quote (units : Utf16.Units) : List Char := '"' :: (escapeUnits units ++ ['"'])

-- The units up to the closing quote, and what comes after it.
def string : List Char → Option (Utf16.Units × List Char)
  | [] => none
  | '"' :: rest => some ([], rest)
  | '\\' :: 'u' :: a :: b :: c :: d :: rest => do
      let unit ← hexUnit a b c d
      let (others, last) ← string rest
      some (UInt16.ofNat unit :: others, last)
  | '\\' :: letter :: rest => do
      let unit ← letterUnit letter
      let (others, last) ← string rest
      some (UInt16.ofNat unit :: others, last)
  | c :: rest => do
      if c = '\\' ∨ c.toNat < 0x20 then none
      let (others, last) ← string rest
      some (Utf16.ofChar c ++ others, last)

end Strings

section Texts

def isSpace (c : Char) : Bool := c = ' ' || c = '\t' || c = '\n' || c = '\r'

def skip (text : List Char) : List Char := text.dropWhile isSpace

def digits (text : List Char) : List Char × List Char := text.span fun c => '0' ≤ c && c ≤ '9'

def someDigits (text : List Char) : Option (List Char × List Char) :=
  let (found, rest) := digits text
  if found = [] then none else some (found, rest)

def integer : List Char → Option (List Char × List Char)
  | '0' :: rest => some (['0'], rest)
  | text => someDigits text

def fraction : List Char → Option (List Char × List Char)
  | '.' :: rest => do
      let (found, rest) ← someDigits rest
      some ('.' :: found, rest)
  | text => some ([], text)

def sign : List Char → List Char × List Char
  | '+' :: rest => (['+'], rest)
  | '-' :: rest => (['-'], rest)
  | text => ([], text)

def exponent : List Char → Option (List Char × List Char)
  | c :: rest =>
      if c = 'e' ∨ c = 'E' then do
        let (signed, rest) := sign rest
        let (found, rest) ← someDigits rest
        some (c :: signed ++ found, rest)
      else some ([], c :: rest)
  | [] => some ([], [])

def unsigned (text : List Char) : Option (List Char × List Char) := do
  let (whole, rest) ← integer text
  let (part, rest) ← fraction rest
  let (power, rest) ← exponent rest
  some (whole ++ part ++ power, rest)

-- A literal as a number of units of a power of ten.
structure Decimal where
  negative : Bool
  digits : Nat
  power : Int

def decimal (digits : List Char) : Nat := digits.foldl (fun n c => n * 10 + (c.toNat - 48)) 0

def decimalOf (literal : List Char) : Decimal :=
  let unsigned := literal.dropWhile fun c => c = '-'
  let whole := unsigned.takeWhile Char.isDigit
  let after := unsigned.drop whole.length
  let part := if after.head? = some '.' then (after.drop 1).takeWhile Char.isDigit else []
  let power := (after.dropWhile fun c => c ≠ 'e' && c ≠ 'E').drop 1
  let size : Int := decimal (power.filter Char.isDigit)
  ⟨literal.head? = some '-', decimal (whole ++ part), (if power.head? = some '-' then -size else size) - part.length⟩

-- Whether the double that a literal is rounded to is zero.
def zeroLiteral (literal : List Char) : Bool :=
  let value := decimalOf literal
  value.digits * Nat.pow 10 value.power.toNat * Nat.pow 2 1075 ≤ Nat.pow 10 (-value.power).toNat

-- For a literal as JSON.stringify prints a double this is how the doubles
-- compare.
def literalAbove (literal : List Char) (whole : Int) : Bool :=
  let value := decimalOf literal
  let digits : Int := if value.negative then -value.digits else value.digits
  whole * (Nat.pow 10 (-value.power).toNat : Nat) < digits * (Nat.pow 10 value.power.toNat : Nat)

def number : List Char → Option (List Char × List Char)
  | '-' :: rest => do
      let (literal, rest) ← unsigned rest
      some ('-' :: literal, rest)
  | text => unsigned text

mutual

def value : Nat → List Char → Option (Value × List Char)
  | 0, _ => none
  | fuel + 1, text => match skip text with
    | 'n' :: 'u' :: 'l' :: 'l' :: rest => some (.null, rest)
    | 't' :: 'r' :: 'u' :: 'e' :: rest => some (.bool true, rest)
    | 'f' :: 'a' :: 'l' :: 's' :: 'e' :: rest => some (.bool false, rest)
    | '"' :: rest => do
        let (units, rest) ← string rest
        some (.string units, rest)
    | '[' :: rest => match skip rest with
      | ']' :: rest => some (.array [], rest)
      | rest => do
          let (items, rest) ← elements fuel rest
          some (.array items, rest)
    | '{' :: rest => match skip rest with
      | '}' :: rest => some (.object [], rest)
      | rest => do
          let (found, rest) ← members fuel rest
          some (.object found, rest)
    | text => do
        let (literal, rest) ← number text
        some (.number literal, rest)

def elements : Nat → List Char → Option (List Value × List Char)
  | 0, _ => none
  | fuel + 1, text => do
      let (item, rest) ← value fuel text
      match skip rest with
      | ']' :: rest => some ([item], rest)
      | ',' :: rest => do
          let (others, rest) ← elements fuel rest
          some (item :: others, rest)
      | _ => none

def members : Nat → List Char → Option (List (Utf16.Units × Value) × List Char)
  | 0, _ => none
  | fuel + 1, text => match skip text with
    | '"' :: rest => do
        let (name, rest) ← string rest
        match skip rest with
        | ':' :: rest => do
            let (item, rest) ← value fuel rest
            match skip rest with
            | '}' :: rest => some ([(name, item)], rest)
            | ',' :: rest => do
                let (others, rest) ← members fuel rest
                some ((name, item) :: others, rest)
            | _ => none
        | _ => none
    | _ => none

end

-- JSON.parse: one value and nothing after it. Every bracket and every comma
-- takes at most two calls.
def parse (text : List Char) : Option Value := do
  let (found, rest) ← value (2 * text.length + 2) text
  if skip rest = [] then some found else none

mutual

def stringify : Value → List Char
  | .null => "null".toList
  | .bool true => "true".toList
  | .bool false => "false".toList
  | .number literal => literal
  | .string units => quote units
  | .array items => '[' :: (stringifyItems items ++ [']'])
  | .object found => '{' :: (stringifyMembers found ++ ['}'])

def stringifyItems : List Value → List Char
  | [] => []
  | [item] => stringify item
  | item :: rest => stringify item ++ ',' :: stringifyItems rest

def stringifyMembers : List (Utf16.Units × Value) → List Char
  | [] => []
  | [(name, item)] => quote name ++ ':' :: stringify item
  | (name, item) :: rest => quote name ++ ':' :: stringify item ++ ',' :: stringifyMembers rest

end

end Texts

section Spelling

theorem hex_value_digit : ∀ n < 16, hexValue (hexDigit n) = some n := by decide

theorem hex_unit_digits (n : Nat) (small : n < 0x10000) :
    hexUnit (hexDigit (n / 4096)) (hexDigit (n / 256 % 16)) (hexDigit (n / 16 % 16)) (hexDigit (n % 16)) = some n := by
  have whole : ((n / 4096 * 16 + n / 256 % 16) * 16 + n / 16 % 16) * 16 + n % 16 = n := by omega
  simp only [hexUnit, hex_value_digit _ (show n / 4096 < 16 by omega), hex_value_digit _ (show n / 256 % 16 < 16 by omega),
    hex_value_digit _ (show n / 16 % 16 < 16 by omega), hex_value_digit _ (show n % 16 < 16 by omega), bind, Option.bind, whole]

theorem hex_control : ∀ n < 0x20, hexUnit '0' '0' (hexDigit (n / 16)) (hexDigit (n % 16)) = some n := by decide

theorem string_letter (c letter : Char) (escaped : escapeLetter c = some letter) :
    letterUnit letter = some c.toNat ∧ letter ≠ 'u' ∧ Utf16.ofChar c = [UInt16.ofNat c.toNat] := by
  have known : ∀ n, c.toNat = n → c = Char.ofNat n := fun n same => by rw [← same, Char.ofNat_toNat]
  unfold escapeLetter at escaped
  split_ifs at escaped with quote slash backspace tab newline feed return_
  · cases escaped
    subst quote
    decide
  · cases escaped
    subst slash
    decide
  · cases escaped
    rw [known 8 backspace]
    decide
  · cases escaped
    rw [known 9 tab]
    decide
  · cases escaped
    rw [known 10 newline]
    decide
  · cases escaped
    rw [known 12 feed]
    decide
  · cases escaped
    rw [known 13 return_]
    decide

theorem string_escape (c : Char) (rest : List Char) (found : Utf16.Units) (last : List Char) (read : string rest = some (found, last)) :
    string (escape c ++ rest) = some (Utf16.ofChar c ++ found, last) := by
  unfold escape
  cases escaped : escapeLetter c with
  | some letter =>
      obtain ⟨unit, other, single⟩ := string_letter c letter escaped
      show string ('\\' :: letter :: rest) = _
      rw [string.eq_4 _ _ (by rintro a b c d others rfl; exact fun _ => other rfl), unit, read, single]
      rfl
  | none =>
      by_cases control : c.toNat < 0x20
      · rw [if_pos control]
        have single : Utf16.ofChar c = [UInt16.ofNat c.toNat] := if_pos (by omega)
        show string ('\\' :: 'u' :: '0' :: '0' :: hexDigit (c.toNat / 16) :: hexDigit (c.toNat % 16) :: rest) = _
        rw [string, hex_control _ control, read, single]
        rfl
      · have quote : c ≠ '"' := by
          rintro rfl
          cases escaped
        have slash : c ≠ '\\' := by
          rintro rfl
          cases escaped
        rw [if_neg control, List.singleton_append, string.eq_def]
        split <;> simp_all

theorem string_spelled (u : UInt16) (rest : List Char) :
    string (spelled u ++ rest) = (string rest).map fun read => (u :: read.1, read.2) := by
  show string ('\\' :: 'u' :: hexDigit (u.toNat / 4096) :: hexDigit (u.toNat / 256 % 16) :: hexDigit (u.toNat / 16 % 16) ::
    hexDigit (u.toNat % 16) :: rest) = _
  rw [string, hex_unit_digits _ u.toNat_lt]
  cases string rest with
  | none => rfl
  | some read => exact congrArg (fun unit => some (unit :: read.1, read.2)) UInt16.ofNat_toNat

theorem string_unit (u : UInt16) (rest : List Char) (found : Utf16.Units) (last : List Char)
    (read : string rest = some (found, last)) : string (escapeUnit u ++ rest) = some (u :: found, last) := by
  unfold escapeUnit
  split
  · rw [string_spelled, read]
    rfl
  · rename_i plain
    rw [string_escape _ _ _ _ read]
    have small := u.toNat_lt
    have valid : u.toNat.isValidChar := by
      simp only [Utf16.isHigh, Utf16.isLow, Bool.or_eq_true, Bool.and_eq_true, decide_eq_true_eq, not_or, not_and, Nat.not_lt] at plain
      simp only [Nat.isValidChar]
      omega
    rw [Utf16.ofChar, Utf16.number_of_char _ valid, if_pos small, UInt16.ofNat_toNat]
    rfl

theorem escape_large (c : Char) (large : 0x10000 ≤ c.toNat) : escape c = [c] := by
  have quoted : c ≠ '"' := fun same => by rw [same] at large; revert large; decide
  have slash : c ≠ '\\' := fun same => by rw [same] at large; revert large; decide
  have letterless : escapeLetter c = none := by
    simp only [escapeLetter, if_neg quoted, if_neg slash]
    rw [if_neg (by omega), if_neg (by omega), if_neg (by omega), if_neg (by omega), if_neg (by omega)]
  rw [escape, letterless]
  exact if_neg (by omega)

theorem joined_large (u v : UInt16) (high : Utf16.isHigh u = true) (low : Utf16.isLow v = true) :
    0x10000 ≤ (Utf16.joined u v).toNat := by
  rw [Utf16.joined_number u v high low]
  omega

theorem string_joined (u v : UInt16) (high : Utf16.isHigh u = true) (low : Utf16.isLow v = true) (rest : List Char)
    (found : Utf16.Units) (last : List Char) (read : string rest = some (found, last)) :
    string (Utf16.joined u v :: rest) = some (u :: v :: found, last) := by
  have escaped := string_escape (Utf16.joined u v) rest found last read
  rw [escape_large _ (joined_large u v high low), Utf16.of_char_joined u v high low] at escaped
  exact escaped

theorem string_units (units : Utf16.Units) (rest : List Char) : string (escapeUnits units ++ '"' :: rest) = some (units, rest) := by
  fun_induction escapeUnits units with
  | case1 => rfl
  | case2 u => exact string_unit u _ _ _ rfl
  | case3 u v later paired ih =>
      obtain ⟨high, low⟩ := Bool.and_eq_true_iff.mp paired
      exact string_joined u v high low _ _ _ ih
  | case4 u v later alone ih =>
      rw [List.append_assoc]
      exact string_unit u _ _ _ ih

-- What stands between the quotes when nothing is escaped that need not be:
-- of the surrogates those that are no pair.
inductive Canonical : List Char → Prop
  | done : Canonical []
  | plain (c : Char) (rest : List Char) : 0x20 ≤ c.toNat → c ≠ '"' → c ≠ '\\' → Canonical rest → Canonical (c :: rest)
  | letter (letter : Char) (rest : List Char) : letter ∈ ['"', '\\', 'b', 't', 'n', 'f', 'r'] → Canonical rest →
      Canonical ('\\' :: letter :: rest)
  | control (n : Nat) (rest : List Char) : n < 0x20 → n ∉ [8, 9, 10, 12, 13] → Canonical rest →
      Canonical ('\\' :: 'u' :: '0' :: '0' :: hexDigit (n / 16) :: hexDigit (n % 16) :: rest)
  | low (u : UInt16) (rest : List Char) : Utf16.isLow u = true → Canonical rest → Canonical (spelled u ++ rest)
  | high (u : UInt16) (rest : List Char) : Utf16.isHigh u = true →
      (∀ v later, Utf16.isLow v = true → rest ≠ spelled v ++ later) → Canonical rest → Canonical (spelled u ++ rest)

end Spelling

end Json
