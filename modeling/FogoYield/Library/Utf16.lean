import Mathlib.Data.List.Basic
import Mathlib.Tactic.Common

/-! # UTF-16

The code units of a text. A unit of a surrogate pair that stands alone reads as the replacement
character. -/

namespace FogoYield.Library

def utf16Char (c : Char) : List ℕ :=
  if c.toNat < 0x10000 then [c.toNat]
  else [0xD800 + (c.toNat - 0x10000) / 0x400, 0xDC00 + (c.toNat - 0x10000) % 0x400]

def utf16 (text : List Char) : List ℕ := text.flatMap utf16Char

def IsHighSurrogate (unit : ℕ) : Prop := 0xD800 ≤ unit ∧ unit < 0xDC00

def IsLowSurrogate (unit : ℕ) : Prop := 0xDC00 ≤ unit ∧ unit < 0xE000

instance (unit : ℕ) : Decidable (IsHighSurrogate unit) := inferInstanceAs (Decidable (_ ∧ _))

instance (unit : ℕ) : Decidable (IsLowSurrogate unit) := inferInstanceAs (Decidable (_ ∧ _))

/-- A unit that is not part of a pair. -/
def unitChar (unit : ℕ) : Char :=
  if IsHighSurrogate unit ∨ IsLowSurrogate unit then '\uFFFD' else Char.ofNat unit

def fromUtf16 : List ℕ → List Char
  | [] => []
  | [unit] => [unitChar unit]
  | high :: low :: rest =>
    if IsHighSurrogate high ∧ IsLowSurrogate low then
      Char.ofNat (0x10000 + (high - 0xD800) * 0x400 + (low - 0xDC00)) :: fromUtf16 rest
    else unitChar high :: fromUtf16 (low :: rest)

/-! ## Round trip -/

theorem fromUtf16_cons {unit : ℕ} (h : ¬ IsHighSurrogate unit) (rest : List ℕ) :
    fromUtf16 (unit :: rest) = unitChar unit :: fromUtf16 rest := by
  cases rest with
  | nil => rfl
  | cons low rest => rw [fromUtf16, if_neg (fun hpair => h hpair.1)]

theorem fromUtf16_pair {high low : ℕ} (hhigh : IsHighSurrogate high) (hlow : IsLowSurrogate low)
    (rest : List ℕ) : fromUtf16 (high :: low :: rest) =
      Char.ofNat (0x10000 + (high - 0xD800) * 0x400 + (low - 0xDC00)) :: fromUtf16 rest := by
  rw [fromUtf16, if_pos ⟨hhigh, hlow⟩]

/-- A character is no surrogate. -/
theorem toNat_valid (c : Char) : c.toNat < 0xD800 ∨ 0xDFFF < c.toNat ∧ c.toNat < 0x110000 :=
  c.valid

theorem fromUtf16_utf16Char (c : Char) (rest : List ℕ) :
    fromUtf16 (utf16Char c ++ rest) = c :: fromUtf16 rest := by
  have hvalid := toNat_valid c
  unfold utf16Char
  split
  · have hhigh : ¬ IsHighSurrogate c.toNat := by unfold IsHighSurrogate; omega
    have hlow : ¬ IsLowSurrogate c.toNat := by unfold IsLowSurrogate; omega
    rw [List.singleton_append, fromUtf16_cons hhigh, unitChar, if_neg (not_or.mpr ⟨hhigh, hlow⟩),
      Char.ofNat_toNat]
  · have hhigh : IsHighSurrogate (0xD800 + (c.toNat - 0x10000) / 0x400) := by
      unfold IsHighSurrogate
      omega
    have hlow : IsLowSurrogate (0xDC00 + (c.toNat - 0x10000) % 0x400) := by
      unfold IsLowSurrogate
      omega
    have hpoint : 0x10000 + (0xD800 + (c.toNat - 0x10000) / 0x400 - 0xD800) * 0x400 +
        (0xDC00 + (c.toNat - 0x10000) % 0x400 - 0xDC00) = c.toNat := by
      omega
    rw [List.cons_append, List.singleton_append, fromUtf16_pair hhigh hlow, hpoint,
      Char.ofNat_toNat]

theorem fromUtf16_utf16 (text : List Char) : fromUtf16 (utf16 text) = text := by
  induction text with
  | nil => rfl
  | cons c text ih =>
      calc
        fromUtf16 (utf16 (c :: text)) = fromUtf16 (utf16Char c ++ utf16 text) := by
          rw [utf16, List.flatMap_cons]
          rfl
        _ = c :: fromUtf16 (utf16 text) := fromUtf16_utf16Char c _
        _ = c :: text := by rw [ih]

theorem utf16_injective : Function.Injective utf16 :=
  Function.LeftInverse.injective fromUtf16_utf16

/-! ## The order of texts -/

/-- Whether a sequence of code units does not come behind another. -/
def unitsLe : List ℕ → List ℕ → Bool
  | [], _ => true
  | _ :: _, [] => false
  | a :: as, b :: bs => if a = b then unitsLe as bs else decide (a < b)

theorem unitsLe_total (as bs : List ℕ) : unitsLe as bs = true ∨ unitsLe bs as = true := by
  induction as generalizing bs with
  | nil => exact .inl rfl
  | cons a as ih =>
      cases bs with
      | nil => exact .inr rfl
      | cons b bs =>
          by_cases hab : a = b
          · simpa [unitsLe, hab] using ih bs
          · rw [unitsLe, unitsLe, if_neg hab, if_neg (Ne.symm hab)]
            simpa using Nat.lt_or_gt_of_ne hab

theorem unitsLe_antisymm {as bs : List ℕ} (h : unitsLe as bs = true) (h' : unitsLe bs as = true) :
    as = bs := by
  induction as generalizing bs with
  | nil =>
      cases bs with
      | nil => rfl
      | cons b bs => cases h'
  | cons a as ih =>
      cases bs with
      | nil => cases h
      | cons b bs =>
          by_cases hab : a = b
          · subst hab
            rw [unitsLe, if_pos rfl] at h h'
            rw [ih h h']
          · rw [unitsLe, if_neg hab] at h
            rw [unitsLe, if_neg (Ne.symm hab)] at h'
            exact absurd (of_decide_eq_true h) (Nat.lt_asymm (of_decide_eq_true h'))

theorem unitsLe_trans {as bs cs : List ℕ} (h : unitsLe as bs = true) (h' : unitsLe bs cs = true) :
    unitsLe as cs = true := by
  induction as generalizing bs cs with
  | nil => rfl
  | cons a as ih =>
      cases bs with
      | nil => cases h
      | cons b bs =>
          cases cs with
          | nil => cases h'
          | cons c cs =>
              simp only [unitsLe] at h h' ⊢
              split at h
              · rename_i hab
                subst hab
                split at h'
                · rename_i hac
                  rw [if_pos hac]
                  exact ih h h'
                · rename_i hac
                  rwa [if_neg hac]
              · rename_i hab
                have hlt := of_decide_eq_true h
                split at h'
                · rename_i hbc
                  subst hbc
                  rwa [if_neg hab]
                · have hlt' := of_decide_eq_true h'
                  rw [if_neg (by omega)]
                  exact decide_eq_true (by omega)

end FogoYield.Library
