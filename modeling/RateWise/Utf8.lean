import Mathlib.Data.List.Basic

set_option autoImplicit false

namespace Utf8

def encodeChar (c : Char) : List Nat :=
  let n := c.toNat
  if n < 0x80 then [n]
  else if n < 0x800 then [0xC0 + n / 64, 0x80 + n % 64]
  else if n < 0x10000 then [0xE0 + n / 4096, 0x80 + n / 64 % 64, 0x80 + n % 64]
  else [0xF0 + n / 262144, 0x80 + n / 4096 % 64, 0x80 + n / 64 % 64, 0x80 + n % 64]

def encode (text : List Char) : List Nat := text.flatMap encodeChar

def replacement : Char := Char.ofNat 0xFFFD

-- A character some of whose bytes have been read: how many are still to come,
-- its bits so far and the range of the next byte.
structure Partial where
  needed : Nat
  point : Nat
  lower : Nat
  upper : Nat

def lead (byte : Nat) : Option Partial :=
  if 0xC2 ≤ byte ∧ byte ≤ 0xDF then some ⟨1, byte - 0xC0, 0x80, 0xBF⟩
  else if 0xE0 ≤ byte ∧ byte ≤ 0xEF then
    some ⟨2, byte - 0xE0, if byte = 0xE0 then 0xA0 else 0x80, if byte = 0xED then 0x9F else 0xBF⟩
  else if 0xF0 ≤ byte ∧ byte ≤ 0xF4 then
    some ⟨3, byte - 0xF0, if byte = 0xF0 then 0x90 else 0x80, if byte = 0xF4 then 0x8F else 0xBF⟩
  else none

def start (byte : Nat) : Option Partial × List Char :=
  if byte < 0x80 then (none, [Char.ofNat byte])
  else match lead byte with
    | some pending => (some pending, [])
    | none => (none, [replacement])

-- A byte that cannot follow ends the character before, which is replaced.
def step : Option Partial → Nat → Option Partial × List Char
  | none, byte => start byte
  | some pending, byte =>
      if pending.lower ≤ byte ∧ byte ≤ pending.upper then
        let point := pending.point * 64 + (byte - 0x80)
        if pending.needed = 1 then (none, [Char.ofNat point])
        else (some ⟨pending.needed - 1, point, 0x80, 0xBF⟩, [])
      else ((start byte).1, replacement :: (start byte).2)

def decodeFrom : Option Partial → List Nat → List Char
  | none, [] => []
  | some _, [] => [replacement]
  | pending, byte :: rest => (step pending byte).2 ++ decodeFrom (step pending byte).1 rest

def decode (data : List Nat) : List Char := decodeFrom none data

theorem encode_char_small (c : Char) : ∀ byte ∈ encodeChar c, byte < 256 := by
  intro byte member
  have bound : c.toNat < 0x110000 := by
    have valid := c.valid
    simp only [UInt32.isValidChar, Nat.isValidChar] at valid
    have same : c.toNat = c.val.toNat := rfl
    omega
  simp only [encodeChar] at member
  split_ifs at member <;> simp only [List.mem_cons, List.not_mem_nil, or_false] at member <;> omega

theorem encode_small (text : List Char) : ∀ byte ∈ encode text, byte < 256 := by
  intro byte member
  obtain ⟨c, -, inChar⟩ := List.mem_flatMap.mp member
  exact encode_char_small c byte inChar

theorem step_more (pending : Partial) (byte : Nat) (inside : pending.lower ≤ byte ∧ byte ≤ pending.upper)
    (more : pending.needed ≠ 1) : step (some pending) byte =
      (some ⟨pending.needed - 1, pending.point * 64 + (byte - 0x80), 0x80, 0xBF⟩, []) := by
  simp only [step, if_pos inside, if_neg more]

theorem step_last (pending : Partial) (byte : Nat) (inside : pending.lower ≤ byte ∧ byte ≤ pending.upper)
    (last : pending.needed = 1) : step (some pending) byte = (none, [Char.ofNat (pending.point * 64 + (byte - 0x80))]) := by
  simp only [step, if_pos inside, if_pos last]

theorem decode_char (c : Char) (rest : List Nat) : decodeFrom none (encodeChar c ++ rest) = c :: decodeFrom none rest := by
  have valid : c.toNat < 0xD800 ∨ (0xDFFF < c.toNat ∧ c.toNat < 0x110000) := c.valid
  have back := Char.ofNat_toNat c
  generalize number : c.toNat = n at valid back
  simp only [encodeChar, number]
  by_cases one : n < 0x80
  · simp [one, decodeFrom, step, start, back]
  by_cases two : n < 0x800
  · have first : step none (0xC0 + n / 64) = (some ⟨1, n / 64, 0x80, 0xBF⟩, []) := by
      simp only [step, start, lead, if_neg (show ¬ 0xC0 + n / 64 < 0x80 by omega),
        if_pos (show 0xC2 ≤ 0xC0 + n / 64 ∧ 0xC0 + n / 64 ≤ 0xDF by omega), Nat.add_sub_cancel_left]
    have second := step_last ⟨1, n / 64, 0x80, 0xBF⟩ (0x80 + n % 64) ⟨by simp, by simp only; omega⟩ rfl
    have whole : n / 64 * 64 + (0x80 + n % 64 - 0x80) = n := by omega
    simp only [if_neg one, if_pos two, List.cons_append, List.nil_append, decodeFrom, first, second, whole, back]
  by_cases three : n < 0x10000
  · have first : step none (0xE0 + n / 4096) = (some ⟨2, n / 4096, if n / 4096 = 0 then 0xA0 else 0x80,
        if n / 4096 = 13 then 0x9F else 0xBF⟩, []) := by
      simp only [step, start, lead, if_neg (show ¬ 0xE0 + n / 4096 < 0x80 by omega),
        if_neg (show ¬ (0xC2 ≤ 0xE0 + n / 4096 ∧ 0xE0 + n / 4096 ≤ 0xDF) by omega),
        if_pos (show 0xE0 ≤ 0xE0 + n / 4096 ∧ 0xE0 + n / 4096 ≤ 0xEF by omega), Nat.add_sub_cancel_left,
        show (0xE0 + n / 4096 = 0xE0) = (n / 4096 = 0) from propext ⟨by omega, by omega⟩,
        show (0xE0 + n / 4096 = 0xED) = (n / 4096 = 13) from propext ⟨by omega, by omega⟩]
    have second := step_more ⟨2, n / 4096, if n / 4096 = 0 then 0xA0 else 0x80, if n / 4096 = 13 then 0x9F else 0xBF⟩
      (0x80 + n / 64 % 64) ⟨by simp only; split <;> omega, by simp only; split <;> omega⟩ (by simp)
    have third := step_last ⟨1, n / 4096 * 64 + (0x80 + n / 64 % 64 - 0x80), 0x80, 0xBF⟩ (0x80 + n % 64)
      ⟨by simp, by simp only; omega⟩ rfl
    have whole : (n / 4096 * 64 + (0x80 + n / 64 % 64 - 0x80)) * 64 + (0x80 + n % 64 - 0x80) = n := by omega
    simp only [if_neg one, if_neg two, if_pos three, List.cons_append, List.nil_append, decodeFrom, first, second, third, whole, back]
  · have first : step none (0xF0 + n / 262144) = (some ⟨3, n / 262144, if n / 262144 = 0 then 0x90 else 0x80,
        if n / 262144 = 4 then 0x8F else 0xBF⟩, []) := by
      simp only [step, start, lead, if_neg (show ¬ 0xF0 + n / 262144 < 0x80 by omega),
        if_neg (show ¬ (0xC2 ≤ 0xF0 + n / 262144 ∧ 0xF0 + n / 262144 ≤ 0xDF) by omega),
        if_neg (show ¬ (0xE0 ≤ 0xF0 + n / 262144 ∧ 0xF0 + n / 262144 ≤ 0xEF) by omega),
        if_pos (show 0xF0 ≤ 0xF0 + n / 262144 ∧ 0xF0 + n / 262144 ≤ 0xF4 by omega), Nat.add_sub_cancel_left,
        show (0xF0 + n / 262144 = 0xF0) = (n / 262144 = 0) from propext ⟨by omega, by omega⟩,
        show (0xF0 + n / 262144 = 0xF4) = (n / 262144 = 4) from propext ⟨by omega, by omega⟩]
    have second := step_more ⟨3, n / 262144, if n / 262144 = 0 then 0x90 else 0x80, if n / 262144 = 4 then 0x8F else 0xBF⟩
      (0x80 + n / 4096 % 64) ⟨by simp only; split <;> omega, by simp only; split <;> omega⟩ (by simp)
    have third := step_more ⟨2, n / 262144 * 64 + (0x80 + n / 4096 % 64 - 0x80), 0x80, 0xBF⟩ (0x80 + n / 64 % 64)
      ⟨by simp, by simp only; omega⟩ (by simp)
    have fourth := step_last ⟨1, (n / 262144 * 64 + (0x80 + n / 4096 % 64 - 0x80)) * 64 + (0x80 + n / 64 % 64 - 0x80), 0x80, 0xBF⟩
      (0x80 + n % 64) ⟨by simp, by simp only; omega⟩ rfl
    have whole : ((n / 262144 * 64 + (0x80 + n / 4096 % 64 - 0x80)) * 64 + (0x80 + n / 64 % 64 - 0x80)) * 64 +
        (0x80 + n % 64 - 0x80) = n := by omega
    simp only [if_neg one, if_neg two, if_neg three, List.cons_append, List.nil_append, decodeFrom, first, second, third, fourth,
      whole, back]

theorem decode_encode (text : List Char) : decode (encode text) = text := by
  unfold decode
  induction text with
  | nil => rfl
  | cons c rest ih =>
      rw [encode, List.flatMap_cons, decode_char]
      exact congrArg (List.cons c) ih

def Valid (data : List Nat) : Prop := ∃ text, encode text = data

end Utf8
