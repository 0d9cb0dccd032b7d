import Mathlib.Data.List.Induction
import Mathlib.Tactic.Common

/-! # Decimal numerals

The canonical numeral of a number, without sign or leading zeros. -/

namespace FogoYield.Library

theorem toNat_of_isDigit {c : Char} (h : c.isDigit) : 48 ≤ c.toNat ∧ c.toNat ≤ 57 := by
  simp only [Char.isDigit, Bool.and_eq_true, decide_eq_true_eq] at h
  exact h

theorem digitChar_of_isDigit {c : Char} (h : c.isDigit) : (c.toNat - 48).digitChar = c := by
  obtain ⟨hlow, hhigh⟩ := toNat_of_isDigit h
  apply Char.toNat_inj.mp
  rw [Nat.toNat_digitChar_of_lt_ten (by omega)]
  omega

/-- Digits that do not begin with a zero. -/
structure IsNumeral (digits : List Char) : Prop where
  ne_nil : digits ≠ []
  head_ne : digits.head? ≠ some '0'
  isDigit : ∀ c ∈ digits, c.isDigit

theorem IsNumeral.toDigits_eq {digits : List Char} (h : IsNumeral digits) :
    Nat.toDigits 10 (Nat.ofDigitChars 10 digits 0) = digits := by
  induction digits using List.reverseRecOn with
  | nil => exact absurd rfl h.ne_nil
  | append_singleton front c ih =>
      have hc : c.isDigit := h.isDigit c (by simp)
      have hlt : c.toNat - 48 < 10 := by
        have := toNat_of_isDigit hc
        omega
      have hlast : Nat.toDigits 10 (c.toNat - 48) = [c] := by
        rw [Nat.toDigits_of_lt_base hlt, digitChar_of_isDigit hc]
      rw [Nat.ofDigitChars_append, Nat.ofDigitChars_cons, Nat.ofDigitChars_nil]
      cases front with
      | nil => simpa using hlast
      | cons d front =>
          have hfront : IsNumeral (d :: front) :=
            ⟨List.cons_ne_nil _ _, by simpa using h.head_ne,
              fun x hx => h.isDigit x (List.mem_append_left _ hx)⟩
          have ih := ih hfront
          have hpos : 0 < Nat.ofDigitChars 10 (d :: front) 0 := by
            rcases Nat.eq_zero_or_pos (Nat.ofDigitChars 10 (d :: front) 0) with hzero | hpos
            · rw [hzero, Nat.toDigits_zero] at ih
              exact absurd (congrArg List.head? ih.symm) hfront.head_ne
            · exact hpos
          change Nat.toDigits 10 (10 * Nat.ofDigitChars 10 (d :: front) 0 + (c.toNat - 48)) = _
          rw [← Nat.toDigits_append_toDigits (by decide) hpos hlt, ih, hlast]

theorem head_toDigits {n : ℕ} (h : n ≠ 0) : (Nat.toDigits 10 n).head? ≠ some '0' := by
  induction n using Nat.strongRecOn with
  | ind n ih =>
      rcases Nat.lt_or_ge n 10 with hlt | hge
      · rw [Nat.toDigits_of_lt_base hlt]
        simpa using h
      · have ih := ih (n / 10) (by omega) (by omega)
        obtain ⟨c, front, hfront⟩ := List.exists_cons_of_ne_nil
          (Nat.toDigits_ne_nil (n := n / 10) (b := 10))
        rw [Nat.toDigits_of_base_le (by decide) hge]
        rw [hfront] at ih ⊢
        exact ih

theorem isNumeral_toDigits {n : ℕ} (h : n ≠ 0) : IsNumeral (Nat.toDigits 10 n) :=
  ⟨Nat.toDigits_ne_nil, head_toDigits h,
    fun _ hc => Nat.isDigit_of_mem_toDigits (by decide) (by decide) hc⟩

theorem toString_toList (n : ℕ) : (toString n).toList = Nat.toDigits 10 n := by
  rw [Nat.toString_eq_repr, Nat.toList_repr]

end FogoYield.Library
