import Mathlib.Data.List.Basic
import Mathlib.Tactic.Ring

/-! # Fixed-width byte encodings of natural numbers -/

namespace FogoYield.Library

abbrev Bytes := List UInt8

/-- The `w` low bytes of `n`, least significant first. -/
def leBytes : ℕ → ℕ → Bytes
  | 0, _ => []
  | w + 1, n => UInt8.ofNat (n % 256) :: leBytes w (n / 256)

/-- The `w` low bytes of `n`, most significant first. -/
def beBytes (w n : ℕ) : Bytes := (leBytes w n).reverse

/-- The number a little-endian byte string stands for. -/
def ofLeBytes : Bytes → ℕ
  | [] => 0
  | b :: bs => b.toNat + 256 * ofLeBytes bs

/-- The number a big-endian byte string stands for. -/
def ofBeBytes (bs : Bytes) : ℕ := ofLeBytes bs.reverse

/-- A byte string of length 32. -/
structure Bytes32 where
  bytes : Bytes
  length_eq : bytes.length = 32

attribute [simp] Bytes32.length_eq

@[simp] theorem leBytes_length (w n : ℕ) : (leBytes w n).length = w := by
  induction w generalizing n with
  | zero => rfl
  | succ w ih => simp [leBytes, ih]

theorem ofLeBytes_leBytes (w n : ℕ) (h : n < 256 ^ w) : ofLeBytes (leBytes w n) = n := by
  induction w generalizing n with
  | zero =>
      rw [pow_zero] at h
      simp only [leBytes, ofLeBytes]
      omega
  | succ w ih =>
      have hq : n / 256 < 256 ^ w := by
        rw [Nat.div_lt_iff_lt_mul (by norm_num), ← pow_succ]
        exact h
      simp only [leBytes, ofLeBytes, ih _ hq]
      rw [UInt8.toNat_ofNat', Nat.mod_mod]
      exact Nat.mod_add_div n 256

theorem ofLeBytes_lt (bs : Bytes) : ofLeBytes bs < 256 ^ bs.length := by
  induction bs with
  | nil => simp [ofLeBytes]
  | cons b bs ih =>
      have hb : b.toNat < 256 := b.toNat_lt
      simp only [ofLeBytes, List.length_cons, pow_succ]
      omega

theorem leBytes_inj {w m n : ℕ} (hm : m < 256 ^ w) (hn : n < 256 ^ w)
    (h : leBytes w m = leBytes w n) : m = n := by
  rw [← ofLeBytes_leBytes w m hm, ← ofLeBytes_leBytes w n hn, h]

@[simp] theorem beBytes_length (w n : ℕ) : (beBytes w n).length = w := by
  simp [beBytes]

theorem ofBeBytes_beBytes (w n : ℕ) (h : n < 256 ^ w) : ofBeBytes (beBytes w n) = n := by
  rw [ofBeBytes, beBytes, List.reverse_reverse, ofLeBytes_leBytes w n h]

theorem beBytes_inj {w m n : ℕ} (hm : m < 256 ^ w) (hn : n < 256 ^ w)
    (h : beBytes w m = beBytes w n) : m = n := by
  rw [← ofBeBytes_beBytes w m hm, ← ofBeBytes_beBytes w n hn, h]

theorem Bytes32.ext_bytes {a b : Bytes32} (h : a.bytes = b.bytes) : a = b := by
  cases a
  cases b
  simp_all

end FogoYield.Library
