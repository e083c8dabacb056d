import Mathlib.Data.List.DropRight
import RateWise.Users

set_option autoImplicit false

namespace RateWise

-- The white space and line terminators of String.prototype.trim.
def isWhiteSpace (u : UInt16) : Bool :=
  (0x09 ≤ u.toNat && u.toNat ≤ 0x0D) || (0x2000 ≤ u.toNat && u.toNat ≤ 0x200A) ||
    [0x20, 0xA0, 0x1680, 0x2028, 0x2029, 0x202F, 0x205F, 0x3000, 0xFEFF].contains u.toNat

def trim (value : JsString) : JsString := (value.dropWhile isWhiteSpace).rdropWhile isWhiteSpace

def trimAndLowercase (toLowerCase : JsString → JsString) (value : JsString) : JsString := toLowerCase (trim value)

def trimAndLowerCaseArray (toLowerCase : JsString → JsString) (value : List JsString) : List JsString :=
  value.map (trimAndLowercase toLowerCase)

-- validator.isLength counts a surrogate pair once and takes off the
-- presentation sequences that it finds.
def lengthCount (presentationSequences : JsString → Nat) (value : JsString) : Int :=
  value.length - presentationSequences value - Utf16.pairs value

def minLength (presentationSequences : JsString → Nat) (min : Nat) (value : JsString) : Bool :=
  min ≤ lengthCount presentationSequences value

def maxLength (presentationSequences : JsString → Nat) (max : Nat) (value : JsString) : Bool :=
  lengthCount presentationSequences value ≤ max

structure LengthRule where
  MIN : Nat
  MAX : Nat
deriving DecidableEq

-- The pair of decorators @MinLength(rule.MIN) and @MaxLength(rule.MAX).
def hasLength (presentationSequences : JsString → Nat) (rule : LengthRule) (value : JsString) : Bool :=
  minLength presentationSequences rule.MIN value && maxLength presentationSequences rule.MAX value

-- A presentation sequence ends in a variation selector.
def NoSelectors (value : JsString) : Prop := ∀ u ∈ value, u ≠ 0xFE0E ∧ u ≠ 0xFE0F

-- PostgreSQL: LENGTH(column) BETWEEN rule.MIN AND rule.MAX
def lengthBetween (rule : LengthRule) (column : Text) : Bool := rule.MIN ≤ column.length && column.length ≤ rule.MAX

-- The server takes no text with the character NUL.
def hasNul (column : Text) : Bool := column.contains '\x00'

theorem trim_trim (value : JsString) : trim (trim value) = trim value := by
  have started : (trim value).dropWhile isWhiteSpace = trim value := by
    rw [List.dropWhile_eq_self_iff]
    intro nonempty
    have cut : trim value <+: value.dropWhile isWhiteSpace := List.rdropWhile_prefix _ _
    have longer : 0 < (value.dropWhile isWhiteSpace).length := Nat.lt_of_lt_of_le nonempty cut.length_le
    have same : (trim value)[0] = (value.dropWhile isWhiteSpace)[0] := cut.getElem nonempty
    rw [same]
    exact List.dropWhile_eq_self_iff.mp (List.dropWhile_idempotent _ _) longer
  rw [trim, started]
  exact List.rdropWhile_idempotent _ _

theorem length_count_text (presentationSequences : JsString → Nat) (value : JsString) :
    lengthCount presentationSequences value = (parameter value).length - presentationSequences value := by
  have whole := Utf16.length_to_text value
  rw [lengthCount, parameter]
  omega

theorem restored_iff (values : List JsString) :
    (values.map parameter).map Utf16.ofText = values ↔ ∀ value ∈ values, Utf16.WellFormed value := by
  rw [List.map_map]
  constructor
  · intro same value member
    have fixed : values.map (Utf16.ofText ∘ parameter) = values.map id := by rw [same, List.map_id]
    exact List.map_inj_left.mp fixed value member
  · intro fixed
    exact (List.map_inj_left.mpr fixed).trans (List.map_id values)

theorem has_length_between (presentationSequences : JsString → Nat) (rule : LengthRule) (value : JsString)
    (accepted : hasLength presentationSequences rule value = true) :
    lengthBetween rule (parameter value) = true ↔ (parameter value).length ≤ rule.MAX := by
  have count := length_count_text presentationSequences value
  simp only [hasLength, minLength, maxLength, Bool.and_eq_true, decide_eq_true_eq] at accepted
  simp only [lengthBetween, Bool.and_eq_true, decide_eq_true_eq]
  omega

theorem has_length_short (presentationSequences : JsString → Nat) (rule : LengthRule) (value : JsString)
    (accepted : hasLength presentationSequences rule value = true) (plain : presentationSequences value = 0) :
    (parameter value).length ≤ rule.MAX := by
  have count := length_count_text presentationSequences value
  simp only [hasLength, minLength, maxLength, Bool.and_eq_true, decide_eq_true_eq] at accepted
  omega

end RateWise
