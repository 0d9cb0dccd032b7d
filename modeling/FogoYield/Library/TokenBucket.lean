import Mathlib.Algebra.Order.Field.Basic
import Mathlib.Tactic.Linarith
import Mathlib.Tactic.Ring

/-! # Token buckets

A bucket is filled at a constant rate up to its capacity, and every taking needs a token. Since any
moment of the past, what was taken and what is left come to no more than the capacity and what the
rate has added; so no interval sees more takings than that. -/

namespace FogoYield.Library

/-! ## Times -/

section

variable {K : Type*} [LinearOrder K] {times : List K}

/-- How many of the times lie between two others. -/
def countIn (times : List K) (a c : K) : ℕ := times.countP (fun t => decide (a ≤ t ∧ t ≤ c))

theorem countIn_snoc (times : List K) (t a c : K) :
    countIn (times ++ [t]) a c = countIn times a c + if a ≤ t ∧ t ≤ c then 1 else 0 := by
  by_cases h : a ≤ t ∧ t ≤ c <;> simp [countIn, h]

/-- Nothing is counted behind the last time. -/
theorem countIn_of_past {a c c' : K} (h : ∀ t ∈ times, t ≤ c) (hc : c ≤ c') :
    countIn times a c' = countIn times a c := by
  refine List.countP_congr ?_
  intro t ht
  have hle := h t ht
  simp [hle, hle.trans hc]

theorem countIn_eq_zero {a c : K} (h : ∀ t ∈ times, t < a) : countIn times a c = 0 := by
  refine List.countP_eq_zero.mpr ?_
  intro t ht
  simp [h t ht]

end

/-! ## Buckets -/

structure Bucket (K : Type*) where
  tokens : K
  last : K

variable {K : Type*} [Field K] [LinearOrder K]

namespace Bucket

def refill (capacity rate : K) (b : Bucket K) (t : K) : Bucket K :=
  ⟨min capacity (b.tokens + rate * (t - b.last)), t⟩

def take (b : Bucket K) : Bucket K := { b with tokens := b.tokens - 1 }

end Bucket

/-- What is known of a bucket with the times at which something was taken. -/
structure Metered (capacity rate : K) (b : Bucket K) (taken : List K) : Prop where
  nonneg : 0 ≤ b.tokens
  le_capacity : b.tokens ≤ capacity
  past : ∀ t ∈ taken, t ≤ b.last
  since : ∀ a ≤ b.last, countIn taken a b.last + b.tokens ≤ capacity + rate * (b.last - a)
  window : ∀ a c, a ≤ c → (countIn taken a c : K) ≤ capacity + rate * (c - a)

variable [IsStrictOrderedRing K] {capacity rate t : K} {b : Bucket K} {taken : List K}

theorem metered_new (hcapacity : 0 ≤ capacity) (hrate : 0 ≤ rate) (t : K) :
    Metered capacity rate ⟨capacity, t⟩ [] := by
  refine ⟨hcapacity, le_refl _, nofun, ?_, ?_⟩
  · intro a ha
    have hadded : 0 ≤ rate * (t - a) := mul_nonneg hrate (sub_nonneg.mpr ha)
    simpa [countIn] using hadded
  · intro a c hac
    have hadded : 0 ≤ rate * (c - a) := mul_nonneg hrate (sub_nonneg.mpr hac)
    simpa [countIn] using add_nonneg hcapacity hadded

theorem Metered.refill (h : Metered capacity rate b taken) (hcapacity : 0 ≤ capacity)
    (hrate : 0 ≤ rate) (ht : b.last ≤ t) :
    Metered capacity rate (b.refill capacity rate t) taken := by
  have hadded : 0 ≤ rate * (t - b.last) := mul_nonneg hrate (sub_nonneg.mpr ht)
  refine ⟨?_, min_le_left _ _, fun u hu => (h.past u hu).trans ht, ?_, h.window⟩
  · exact le_min hcapacity (add_nonneg h.nonneg hadded)
  · intro a ha
    change (countIn taken a t : K) + min capacity (b.tokens + rate * (t - b.last)) ≤
      capacity + rate * (t - a)
    rcases le_or_gt a b.last with hpast | hnew
    · have hsince := h.since a hpast
      have hmin := min_le_right capacity (b.tokens + rate * (t - b.last))
      have hsplit : rate * (t - a) = rate * (t - b.last) + rate * (b.last - a) := by ring
      rw [countIn_of_past h.past ht]
      linarith
    · -- nothing was taken since `a`
      have hzero : countIn taken a t = 0 :=
        countIn_eq_zero (fun u hu => (h.past u hu).trans_lt hnew)
      have hmin := min_le_left capacity (b.tokens + rate * (t - b.last))
      have hnonneg : 0 ≤ rate * (t - a) := mul_nonneg hrate (sub_nonneg.mpr ha)
      rw [hzero, Nat.cast_zero, zero_add]
      linarith

theorem Metered.take (h : Metered capacity rate b taken) (hrate : 0 ≤ rate)
    (htoken : 1 ≤ b.tokens) : Metered capacity rate b.take (taken ++ [b.last]) := by
  have hsince : ∀ a ≤ b.last, (countIn (taken ++ [b.last]) a b.last : K) + (b.tokens - 1) ≤
      capacity + rate * (b.last - a) := by
    intro a ha
    have hbefore := h.since a ha
    rw [countIn_snoc, if_pos ⟨ha, le_refl _⟩, Nat.cast_add, Nat.cast_one]
    linarith
  have hpast : ∀ u ∈ taken ++ [b.last], u ≤ b.last := by
    rw [List.forall_mem_append, List.forall_mem_singleton]
    exact ⟨h.past, le_refl _⟩
  refine ⟨sub_nonneg.mpr htoken, (sub_le_self _ zero_le_one).trans h.le_capacity, hpast, hsince, ?_⟩
  intro a c hac
  by_cases hin : a ≤ b.last ∧ b.last ≤ c
  · -- the last taking lies in the interval, so all of them since `a` do
    have hbound := hsince a hin.1
    have hgrow : rate * (b.last - a) ≤ rate * (c - a) :=
      mul_le_mul_of_nonneg_left (sub_le_sub_right hin.2 a) hrate
    rw [countIn_of_past hpast hin.2]
    linarith
  · rw [countIn_snoc, if_neg hin, Nat.add_zero]
    exact h.window a c hac

end FogoYield.Library
