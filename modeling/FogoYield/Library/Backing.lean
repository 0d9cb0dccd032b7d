import Mathlib.Algebra.BigOperators.Group.Finset.Basic
import Mathlib.Algebra.BigOperators.Group.Finset.Piecewise
import Mathlib.Algebra.Order.BigOperators.Group.Finset
import Mathlib.Data.Set.Finite.Basic

/-! # Claims backed by a pool

Many claims are held against one pool, part of which is already promised elsewhere. The pool backs
them if every finite set of claims can be paid at once. -/

namespace FogoYield.Library

variable {κ : Type*} {claims claims' : κ → ℕ} {reserved reserved' total total' : ℕ}

/-- A pool of `total`, of which `reserved` is spoken for, covers the claims. -/
def Backed (claims : κ → ℕ) (reserved total : ℕ) : Prop :=
  ∀ S : Finset κ, ∑ k ∈ S, claims k + reserved ≤ total

/-- The step rule: one claim changes, and what it gains or loses the pool gains or loses. -/
theorem Backed.update (h : Backed claims reserved total) (k : κ)
    (hother : ∀ j, j ≠ k → claims' j = claims j)
    (hk : total + reserved' + claims' k ≤ total' + reserved + claims k) :
    Backed claims' reserved' total' := by
  classical
  intro S
  have hrest : ∑ j ∈ S.erase k, claims' j = ∑ j ∈ S.erase k, claims j := by
    apply Finset.sum_congr rfl
    intro j hj
    exact hother j (Finset.ne_of_mem_erase hj)
  have hle : ∑ j ∈ S, claims' j ≤ ∑ j ∈ insert k (S.erase k), claims' j := by
    apply Finset.sum_le_sum_of_subset
    intro j hj
    rw [Finset.mem_insert, Finset.mem_erase]
    tauto
  have hbefore := h (insert k (S.erase k))
  rw [Finset.sum_insert (Finset.notMem_erase k S)] at hle hbefore
  omega

/-- The step rule when no claim changes. -/
theorem Backed.pool (h : Backed claims reserved total) (heq : ∀ k, claims' k = claims k)
    (hle : total + reserved' ≤ total' + reserved) : Backed claims' reserved' total' := by
  intro S
  have hsum : ∑ k ∈ S, claims' k = ∑ k ∈ S, claims k :=
    Finset.sum_congr rfl (fun k _ => heq k)
  have hbefore := h S
  omega

theorem Backed.of_zero (h : ∀ k, claims k = 0) (hle : reserved ≤ total) :
    Backed claims reserved total := by
  intro S
  rw [Finset.sum_eq_zero (fun k _ => h k)]
  omega

/-- Where only one claim rises, the claims of any set rise by no more. -/
theorem sum_claims_le {k₀ : κ} {n : ℕ} (hothers : ∀ k, k ≠ k₀ → claims' k = claims k)
    (hk₀ : claims' k₀ ≤ claims k₀ + n) (S : Finset κ) :
    ∑ k ∈ S, claims' k ≤ ∑ k ∈ S, claims k + n := by
  classical
  calc ∑ k ∈ S, claims' k ≤ ∑ k ∈ S, (claims k + if k = k₀ then n else 0) := by
        apply Finset.sum_le_sum
        intro k _
        by_cases hk : k = k₀
        · simpa [hk] using hk₀
        · simp [hk, hothers k hk]
    _ = ∑ k ∈ S, claims k + ∑ k ∈ S, if k = k₀ then n else 0 := Finset.sum_add_distrib
    _ ≤ ∑ k ∈ S, claims k + n := by
        rw [Finset.sum_ite_eq']
        split <;> omega

/-- Only finitely many claims are positive. -/
theorem Backed.finite (h : Backed claims reserved total) : {k | 0 < claims k}.Finite := by
  by_contra hinf
  obtain ⟨S, hS, hcard⟩ := Set.Infinite.exists_subset_card_eq hinf (total + 1)
  have hsum : ∑ _k ∈ S, 1 ≤ ∑ k ∈ S, claims k := Finset.sum_le_sum (fun k hk => hS hk)
  have hle := h S
  rw [← Finset.card_eq_sum_ones, hcard] at hsum
  omega

/-! ## Settled claims -/

/-- The claims without those that have been settled. -/
def unsettled (settled : κ → Bool) (claims : κ → ℕ) (k : κ) : ℕ :=
  if settled k then 0 else claims k

theorem sum_unsettled (settled : κ → Bool) (claims : κ → ℕ) (S : Finset κ) :
    ∑ k ∈ S, unsettled settled claims k = ∑ k ∈ S with settled k = false, claims k := by
  rw [Finset.sum_filter]
  apply Finset.sum_congr rfl
  intro k _
  cases h : settled k <;> simp [unsettled, h]

/-- The step rule when the pool takes in what any set of claims rises by. -/
theorem Backed.unsettled_paid {settled : κ → Bool}
    (h : Backed (unsettled settled claims) reserved total)
    (hpaid : ∀ S : Finset κ, ∑ k ∈ S, claims' k + total ≤ ∑ k ∈ S, claims k + total') :
    Backed (unsettled settled claims') reserved total' := by
  intro S
  have hbefore := h S
  have hrise := hpaid (S.filter (fun k => settled k = false))
  rw [sum_unsettled] at hbefore ⊢
  omega

/-- Settling more claims takes nothing out of the pool. -/
theorem Backed.settle {settled settled' : κ → Bool}
    (h : Backed (unsettled settled claims) reserved total)
    (hmore : ∀ k, settled k = true → settled' k = true) :
    Backed (unsettled settled' claims) reserved total := by
  intro S
  have hle : ∑ k ∈ S, unsettled settled' claims k ≤ ∑ k ∈ S, unsettled settled claims k := by
    apply Finset.sum_le_sum
    intro k _
    cases hk : settled k with
    | true => simp [unsettled, hmore k hk]
    | false =>
        simp only [unsettled, hk]
        split <;> simp
  have hbefore := h S
  omega

/-- A single claim is covered. -/
theorem Backed.claim_le (h : Backed claims reserved total) (k : κ) : claims k ≤ total := by
  have hk := h {k}
  rw [Finset.sum_singleton] at hk
  omega

end FogoYield.Library
