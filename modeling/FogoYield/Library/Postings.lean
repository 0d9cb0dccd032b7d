import Mathlib.Algebra.Ring.Nat
import Mathlib.Algebra.BigOperators.Group.List.Basic
import FogoYield.Library.Run

/-! # Postings

A posting moves an amount from one account of a family to another. What an account holds after any
number of them follows from what was posted to it and from it. -/

namespace FogoYield.Library

structure Posting (κ : Type*) where
  source : κ
  dest : κ
  amount : ℕ
  deriving DecidableEq

variable {κ σ α : Type*} [DecidableEq κ]

/-- What left `k`. -/
def debits (k : κ) (ps : List (Posting κ)) : ℕ :=
  (ps.map (fun p => if p.source = k then p.amount else 0)).sum

/-- What came to `k`. -/
def credits (k : κ) (ps : List (Posting κ)) : ℕ :=
  (ps.map (fun p => if p.dest = k then p.amount else 0)).sum

/-- `before` and `after` are what `k` held before and after the postings. -/
def Booked (k : κ) (ps : List (Posting κ)) (before after : ℕ) : Prop :=
  after + debits k ps = before + credits k ps

theorem Booked.of_eq {k : κ} {n m : ℕ} (h : m = n) : Booked k [] n m := by
  simp [Booked, debits, credits, h]

theorem Booked.append {k : κ} {ps qs : List (Posting κ)} {n₀ n₁ n₂ : ℕ} (hp : Booked k ps n₀ n₁)
    (hq : Booked k qs n₁ n₂) : Booked k (ps ++ qs) n₀ n₂ := by
  simp only [Booked, debits, credits, List.map_append, List.sum_append] at hp hq ⊢
  omega

/-- Each step books its postings, so a run books all of them. -/
theorem Run.booked {step : σ → α → σ → Prop} {value : σ → ℕ} {k : κ}
    {postings : Transition σ α → List (Posting κ)} {Ok : Transition σ α → Prop}
    (hstep : ∀ s a t, step s a t → Ok ⟨s, a, t⟩ →
      Booked k (postings ⟨s, a, t⟩) (value s) (value t)) {s t : σ} {ts : List (Transition σ α)}
    (hr : Run step s ts t) (hok : ∀ tr ∈ ts, Ok tr) :
    Booked k (ts.flatMap postings) (value s) (value t) := by
  induction hr with
  | nil => exact .of_eq rfl
  | snoc _ hst ih =>
      rw [List.flatMap_append, List.flatMap_singleton]
      have hbefore := ih (fun tr htr => hok tr (List.mem_append_left _ htr))
      exact hbefore.append (hstep _ _ _ hst (hok _ (by simp)))

end FogoYield.Library
