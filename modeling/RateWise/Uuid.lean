import Mathlib.Data.List.Basic
import Mathlib.Data.Char
import Mathlib.Data.List.Forall2
import RateWise.Utf16

set_option autoImplicit false

namespace RateWise

abbrev Text := List Char

-- A string of the runtime: UTF-16 units, among them lone surrogates.
abbrev JsString := Utf16.Units

-- node-postgres sends a text parameter as UTF-8.
def parameter (value : JsString) : Text := Utf16.toText value

def lowerCase (text : Text) : Text := text.map Char.toLower

def fits : List (Char → Bool) → Text → Bool
  | [], [] => true
  | accepts :: pattern, c :: text => accepts c && fits pattern text
  | _, _ => false

def hexDigit (c : Char) : Bool := ('0' ≤ c && c ≤ '9') || ('a' ≤ c && c ≤ 'f')

def dash (c : Char) : Bool := c == '-'

def uuidPattern (version variant : Char → Bool) : List (Char → Bool) :=
  List.replicate 8 hexDigit ++ dash :: List.replicate 4 hexDigit ++
    dash :: version :: List.replicate 3 hexDigit ++
    dash :: variant :: List.replicate 3 hexDigit ++ dash :: List.replicate 12 hexDigit

def repeated (c : Char) : Text :=
  List.replicate 8 c ++ '-' :: List.replicate 4 c ++ '-' :: List.replicate 4 c ++
    '-' :: List.replicate 4 c ++ '-' :: List.replicate 12 c

-- class-validator isUUID without a version: versions 1 to 8 with the RFC
-- variant, the nil and the max UUID, hex digits in either case.
def validUUID (id : Text) : Bool :=
  fits (uuidPattern (fun c => '1' ≤ c && c ≤ '8') (fun c => c == '8' || c == '9' || c == 'a' || c == 'b'))
    (lowerCase id) ||
  lowerCase id == repeated '0' || lowerCase id == repeated 'f'

-- A value of the uuid column type, in the text form it is printed back in.
structure Uuid where
  text : Text
  canonical : fits (uuidPattern hexDigit hexDigit) text = true
deriving DecidableEq

-- uuid_in on the hyphenated form, the only one that passes validUUID; other
-- texts are refused with 22P02.
def uuidIn (text : Text) : Option Uuid :=
  if canonical : fits (uuidPattern hexDigit hexDigit) (lowerCase text) = true then
    some ⟨lowerCase text, canonical⟩
  else none

theorem fits_weaken (text : Text) (strong weak : List (Char → Bool))
    (implied : List.Forall₂ (fun p q => ∀ c, p c = true → q c = true) strong weak)
    (fitting : fits strong text = true) : fits weak text = true := by
  induction implied generalizing text with
  | nil => cases text <;> simp_all [fits]
  | cons head _ ih =>
      cases text with
      | nil => simp [fits] at fitting
      | cons c rest =>
          simp only [fits, Bool.and_eq_true] at fitting ⊢
          exact ⟨head c fitting.1, ih rest fitting.2⟩

theorem fits_map (text : Text) (pattern : List (Char → Bool)) (f : Char → Char)
    (fixed : ∀ p ∈ pattern, ∀ c, p c = true → f c = c) (fitting : fits pattern text = true) :
    text.map f = text := by
  induction pattern generalizing text with
  | nil => cases text <;> simp_all [fits]
  | cons p rest ih =>
      cases text with
      | nil => rfl
      | cons c tail =>
          simp only [fits, Bool.and_eq_true] at fitting
          rw [List.map_cons, fixed p (by simp) c fitting.1,
            ih tail (fun q member => fixed q (by simp [member])) fitting.2]

theorem lower_hex (c : Char) (digit : hexDigit c = true) : c.toLower = c := by
  simp only [hexDigit, Bool.or_eq_true, Bool.and_eq_true, decide_eq_true_eq] at digit
  unfold Char.toLower
  rw [dif_neg]
  rintro ⟨above, below⟩
  rcases digit with ⟨_, high⟩ | ⟨low, _⟩
  · exact absurd (UInt32.le_trans above high) (by decide)
  · exact absurd (UInt32.le_trans low below) (by decide)

theorem lower_dash (c : Char) (hyphen : dash c = true) : c.toLower = c := by
  have same : c = '-' := by simpa [dash] using hyphen
  subst same
  decide

theorem mem_uuid_pattern (p : Char → Bool) (member : p ∈ uuidPattern hexDigit hexDigit) :
    p = hexDigit ∨ p = dash := by
  simp only [uuidPattern, List.mem_append, List.mem_cons, List.mem_replicate] at member
  tauto

theorem uuid_in_text (id : Uuid) : uuidIn id.text = some id := by
  have same : lowerCase id.text = id.text := by
    refine fits_map id.text _ Char.toLower (fun p member c accepted => ?_) id.canonical
    rcases mem_uuid_pattern p member with rfl | rfl
    · exact lower_hex c accepted
    · exact lower_dash c accepted
  obtain ⟨text, canonical⟩ := id
  simp only [uuidIn, same, dif_pos canonical]

theorem valid_uuid_parses (id : Text) (valid : validUUID id = true) : ∃ uuid, uuidIn id = some uuid := by
  have canonical : fits (uuidPattern hexDigit hexDigit) (lowerCase id) = true := by
    simp only [validUUID, Bool.or_eq_true, beq_iff_eq] at valid
    rcases valid with (shaped | zero) | full
    · refine fits_weaken _ _ _ ?_ shaped
      have same : ∀ k, List.Forall₂ (fun p q : Char → Bool => ∀ c, p c = true → q c = true)
          (List.replicate k hexDigit) (List.replicate k hexDigit) :=
        fun k => List.forall₂_same.mpr fun _ _ _ accepted => accepted
      have version : ∀ c : Char, ('1' ≤ c && c ≤ '8') = true → hexDigit c = true := by
        intro c digit
        simp only [hexDigit, Bool.and_eq_true, Bool.or_eq_true, decide_eq_true_eq] at digit ⊢
        exact .inl ⟨UInt32.le_trans (by decide) digit.1, UInt32.le_trans digit.2 (by decide)⟩
      have variant : ∀ c : Char, (c == '8' || c == '9' || c == 'a' || c == 'b') = true → hexDigit c = true := by
        intro c digit
        simp only [Bool.or_eq_true, beq_iff_eq] at digit
        rcases digit with ((rfl | rfl) | rfl) | rfl <;> decide
      unfold uuidPattern
      refine List.rel_append (List.rel_append (List.rel_append (List.rel_append (same 8)
        (.cons (fun _ h => h) (same 4))) (.cons (fun _ h => h) (.cons version (same 3))))
        (.cons (fun _ h => h) (.cons variant (same 3)))) (.cons (fun _ h => h) (same 12))
    · rw [zero]
      decide
    · rw [full]
      decide
  exact ⟨⟨lowerCase id, canonical⟩, by simp only [uuidIn, dif_pos canonical]⟩

end RateWise
