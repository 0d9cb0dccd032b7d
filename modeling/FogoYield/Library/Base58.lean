import FogoYield.Library.Bytes
import Mathlib.Data.Nat.Digits.Lemmas
import Mathlib.Data.UInt

/-! # Base 58

A byte string as a numeral: a leading zero byte is written as a leading zero digit. No two byte
strings have the same numeral. -/

namespace FogoYield.Library

def base58Alphabet : List Char :=
  "123456789ABCDEFGHJKLMNPQRSTUVWXYZabcdefghijkmnopqrstuvwxyz".toList

def base58Char (digit : ℕ) : Char := base58Alphabet.getD digit '1'

/-- How many zeros a string begins with. -/
def leadingZeros {α : Type} [DecidableEq α] [Zero α] (l : List α) : ℕ :=
  (l.takeWhile (fun a => decide (a = 0))).length

/-- The digits, most significant first. -/
def base58Digits (bytes : Bytes) : List ℕ :=
  List.replicate (leadingZeros bytes) 0 ++ (Nat.digits 58 (ofBeBytes bytes)).reverse

def base58 (bytes : Bytes) : String := String.ofList ((base58Digits bytes).map base58Char)

/-! ## Leading zeros -/

section

variable {α : Type} [DecidableEq α] [Zero α]

theorem leadingZeros_append (n : ℕ) {l : List α} (h : l.head? ≠ some 0) :
    leadingZeros (List.replicate n 0 ++ l) = n := by
  induction n with
  | zero =>
      cases l with
      | nil => rfl
      | cons a l =>
          have ha : a ≠ 0 := fun ha => h (by rw [ha]; rfl)
          simp [leadingZeros, ha]
  | succ n ih => simpa [leadingZeros, List.replicate_succ] using ih

theorem exists_leadingZeros (l : List α) :
    ∃ rest, l = List.replicate (leadingZeros l) 0 ++ rest ∧ rest.head? ≠ some 0 := by
  induction l with
  | nil => exact ⟨[], rfl, nofun⟩
  | cons a l ih =>
      by_cases ha : a = 0
      · obtain ⟨rest, hl, hrest⟩ := ih
        refine ⟨rest, ?_, hrest⟩
        have hcount : leadingZeros (a :: l) = leadingZeros l + 1 := by simp [leadingZeros, ha]
        rw [hcount, List.replicate_succ, List.cons_append, ← hl, ha]
      · refine ⟨a :: l, ?_, ?_⟩
        · simp [leadingZeros, ha]
        · intro hhead
          exact ha (Option.some.inj hhead)

end

/-! ## Numbers -/

theorem ofLeBytes_eq_ofDigits (bs : Bytes) :
    ofLeBytes bs = Nat.ofDigits 256 (bs.map UInt8.toNat) := by
  induction bs with
  | nil => rfl
  | cons b bs ih =>
      rw [ofLeBytes, List.map_cons, Nat.ofDigits_cons, ih]

theorem ofBeBytes_zeros (n : ℕ) (bs : Bytes) :
    ofBeBytes (List.replicate n 0 ++ bs) = ofBeBytes bs := by
  rw [ofBeBytes, ofBeBytes, ofLeBytes_eq_ofDigits, ofLeBytes_eq_ofDigits, List.reverse_append,
    List.reverse_replicate, List.map_append, List.map_replicate]
  exact Nat.ofDigits_append_replicate_zero _

/-- Without leading zeros a byte string is told by its number. -/
theorem ofBeBytes_inj {bs cs : Bytes} (hbs : bs.head? ≠ some 0) (hcs : cs.head? ≠ some 0)
    (h : ofBeBytes bs = ofBeBytes cs) : bs = cs := by
  have hdigits : ∀ {ds : Bytes}, ds.head? ≠ some 0 →
      Nat.digits 256 (ofBeBytes ds) = ds.reverse.map UInt8.toNat := by
    intro ds hds
    rw [ofBeBytes, ofLeBytes_eq_ofDigits]
    refine Nat.digits_ofDigits 256 (by norm_num) _ ?_ ?_
    · intro d hd
      obtain ⟨b, -, rfl⟩ := List.mem_map.mp hd
      exact b.toNat_lt
    · intro hne hlast
      rw [List.getLast_map, List.getLast_reverse] at hlast
      have hzero : ds.head (by simpa using hne) = 0 := UInt8.toNat_inj.mp hlast
      exact hds ((List.head?_eq_some_head _).trans (congrArg some hzero))
  have hmap := (hdigits hbs).symm.trans ((congrArg _ h).trans (hdigits hcs))
  have hinj : Function.Injective UInt8.toNat := fun _ _ => UInt8.toNat_inj.mp
  exact List.reverse_injective (hinj.list_map hmap)

/-! ## Numerals -/

theorem head_digits (n : ℕ) : (Nat.digits 58 n).reverse.head? ≠ some 0 := by
  rcases Nat.eq_zero_or_pos n with rfl | hpos
  · rw [Nat.digits_zero]
    nofun
  · intro hzero
    have hlast := Nat.getLast_digit_ne_zero 58 hpos.ne'
    rw [List.head?_reverse, List.getLast?_eq_some_getLast (Nat.digits_ne_nil_iff_ne_zero.mpr
      hpos.ne')] at hzero
    exact hlast (Option.some.inj hzero)

theorem base58Digits_inj {bs cs : Bytes} (h : base58Digits bs = base58Digits cs) : bs = cs := by
  have hzeros : leadingZeros bs = leadingZeros cs := by
    have hcount := congrArg leadingZeros h
    rwa [base58Digits, base58Digits, leadingZeros_append _ (head_digits _),
      leadingZeros_append _ (head_digits _)] at hcount
  have hnumber : ofBeBytes bs = ofBeBytes cs := by
    rw [base58Digits, base58Digits, hzeros] at h
    exact Nat.digits_inj_iff.mp (List.reverse_injective (List.append_cancel_left h))
  obtain ⟨bs', hbs, hbhead⟩ := exists_leadingZeros bs
  obtain ⟨cs', hcs, hchead⟩ := exists_leadingZeros cs
  rw [hbs, hcs, ofBeBytes_zeros, ofBeBytes_zeros] at hnumber
  rw [hbs, hcs, hzeros, ofBeBytes_inj hbhead hchead hnumber]

theorem idxOf_base58Char {d : ℕ} (h : d < 58) : base58Alphabet.idxOf (base58Char d) = d := by
  have hlength : base58Alphabet.length = 58 := by decide
  have hnodup : base58Alphabet.Nodup := by decide
  have hlt : d < base58Alphabet.length := hlength ▸ h
  have hchar : base58Char d = base58Alphabet[d] := by
    rw [base58Char, List.getD, List.getElem?_eq_getElem hlt, Option.getD_some]
  rw [hchar]
  exact hnodup.idxOf_getElem d hlt

theorem base58Digits_lt {bs : Bytes} {d : ℕ} (h : d ∈ base58Digits bs) : d < 58 := by
  rcases List.mem_append.mp h with hzero | hdigit
  · rw [List.eq_of_mem_replicate hzero]
    norm_num
  · exact Nat.digits_lt_base (by norm_num) (List.mem_reverse.mp hdigit)

theorem base58_injective : Function.Injective base58 := by
  have hread (bs : Bytes) : ((base58Digits bs).map base58Char).map base58Alphabet.idxOf =
      base58Digits bs := by
    rw [List.map_map]
    exact (List.map_congr_left fun d hd => idxOf_base58Char (base58Digits_lt hd)).trans
      (List.map_id _)
  intro bs cs h
  have hchars := String.ofList_injective h
  exact base58Digits_inj ((hread bs).symm.trans (hchars ▸ hread cs))

/-- Four zero bytes in front of 256. -/
example : base58 (List.replicate 4 0 ++ [1, 0]) = "11115R" := by decide

end FogoYield.Library
