import Mathlib.Data.List.MinMax

/-! # The first maximum

A scan that keeps the best entry so far, and replaces it by a better one only, ends with the first
of the largest entries. -/

namespace FogoYield.Library

variable {α β : Type*} [LinearOrder β] {f : α → β} {p : α → Prop} {l : List α} {a m : α}

/-- Among the entries of `l` that satisfy `p`, `m` is the first one whose value is the largest. -/
structure IsFirstMax (f : α → β) (p : α → Prop) (l : List α) (m : α) : Prop where
  holds : p m
  le : ∀ a ∈ l, p a → f a ≤ f m
  first : ∃ before after, l = before ++ m :: after ∧ ∀ a ∈ before, p a → f a ≠ f m

theorem IsFirstMax.mem (h : IsFirstMax f p l m) : m ∈ l := by
  obtain ⟨before, after, rfl, -⟩ := h.first
  simp

/-- A later entry takes nothing away unless it is larger. -/
theorem IsFirstMax.concat (h : IsFirstMax f p l m) (ha : p a → f a ≤ f m) :
    IsFirstMax f p (l ++ [a]) m where
  holds := h.holds
  le := by
    rw [List.forall_mem_append, List.forall_mem_singleton]
    exact ⟨h.le, ha⟩
  first := by
    obtain ⟨before, after, rfl, hbefore⟩ := h.first
    exact ⟨before, after ++ [a], by simp, hbefore⟩

theorem isFirstMax_concat_self (ha : p a) (h : ∀ b ∈ l, p b → f b < f a) :
    IsFirstMax f p (l ++ [a]) a where
  holds := ha
  le := by
    rw [List.forall_mem_append, List.forall_mem_singleton]
    exact ⟨fun b hb hp => (h b hb hp).le, fun _ => le_refl _⟩
  first := ⟨l, [], rfl, fun b hb hp => (h b hb hp).ne⟩

theorem IsFirstMax.unique {m' : α} (h : IsFirstMax f p l m) (h' : IsFirstMax f p l m') :
    m = m' := by
  have heq : f m = f m' := le_antisymm (h'.le m h.mem h.holds) (h.le m' h'.mem h'.holds)
  obtain ⟨before, after, hl, hbefore⟩ := h.first
  obtain ⟨before', after', hl', hbefore'⟩ := h'.first
  rcases List.append_eq_append_iff.mp (hl.symm.trans hl') with ⟨gap, rfl, hgap⟩ | ⟨gap, rfl, hgap⟩
  · cases gap with
    | nil => exact (List.cons.inj hgap).1
    | cons c gap =>
        obtain ⟨rfl, -⟩ := List.cons.inj hgap
        exact absurd heq (hbefore' m (by simp) h.holds)
  · cases gap with
    | nil => exact (List.cons.inj hgap).1.symm
    | cons c gap =>
        obtain ⟨rfl, -⟩ := List.cons.inj hgap
        exact absurd heq.symm (hbefore m' (by simp) h'.holds)

/-! ## The scan -/

variable [DecidablePred p]

def firstMax (f : α → β) (p : α → Prop) [DecidablePred p] (l : List α) : Option α :=
  (l.filter p).argmax f

/-- One turn of a scan. -/
def firstMaxStep (f : α → β) (p : α → Prop) [DecidablePred p] (best : Option α) (a : α) :
    Option α :=
  if p a then
    match best with
    | none => some a
    | some b => if f b < f a then some a else some b
  else best

theorem firstMax_eq_foldl : firstMax f p l = l.foldl (firstMaxStep f p) none := by
  have hturn : firstMaxStep f p = fun best a =>
      if p a then List.argAux (fun b c => f c < f b) best a else best := by
    funext best a
    unfold firstMaxStep List.argAux
    cases best <;> rfl
  rw [firstMax, List.argmax, List.foldl_filter, hturn]
  simp only [decide_eq_true_eq]

theorem firstMax_concat : firstMax f p (l ++ [a]) = firstMaxStep f p (firstMax f p l) a := by
  rw [firstMax_eq_foldl, firstMax_eq_foldl, List.foldl_concat]

theorem firstMax_eq_none_iff : firstMax f p l = none ↔ ∀ a ∈ l, ¬ p a := by
  rw [firstMax, List.argmax_eq_none, List.filter_eq_nil_iff]
  simp

/-- Entries that do not count may stand behind the list. -/
theorem firstMax_append_of_not {l' : List α} (h : ∀ a ∈ l', ¬ p a) :
    firstMax f p (l ++ l') = firstMax f p l := by
  have hnil : l'.filter p = [] := List.filter_eq_nil_iff.mpr (by simpa using h)
  rw [firstMax, List.filter_append, hnil, List.append_nil, firstMax]

theorem isFirstMax_of_firstMax (h : firstMax f p l = some m) : IsFirstMax f p l m := by
  induction l using List.reverseRecOn generalizing m with
  | nil => cases h
  | append_singleton l a ih =>
      rw [firstMax_concat] at h
      by_cases ha : p a
      · simp only [firstMaxStep, if_pos ha] at h
        cases hbest : firstMax f p l with
        | none =>
            obtain rfl : a = m := by simpa [hbest] using h
            have hnone := firstMax_eq_none_iff.mp hbest
            exact isFirstMax_concat_self ha (fun b hb hp => absurd hp (hnone b hb))
        | some c =>
            have hc := ih hbest
            by_cases hlt : f c < f a
            · obtain rfl : a = m := by simpa [hbest, hlt] using h
              exact isFirstMax_concat_self ha (fun b hb hp => (hc.le b hb hp).trans_lt hlt)
            · obtain rfl : c = m := by simpa [hbest, hlt] using h
              exact hc.concat (fun _ => not_lt.mp hlt)
      · simp only [firstMaxStep, if_neg ha] at h
        exact (ih h).concat (fun hp => absurd hp ha)

theorem exists_isFirstMax (f : α → β) (hmem : a ∈ l) (ha : p a) : ∃ m, IsFirstMax f p l m := by
  cases hbest : firstMax f p l with
  | none => exact absurd ha (firstMax_eq_none_iff.mp hbest a hmem)
  | some m => exact ⟨m, isFirstMax_of_firstMax hbest⟩

theorem firstMax_eq_some_iff : firstMax f p l = some m ↔ IsFirstMax f p l m := by
  refine ⟨isFirstMax_of_firstMax, ?_⟩
  intro h
  cases hbest : firstMax f p l with
  | none => exact absurd h.holds (firstMax_eq_none_iff.mp hbest m h.mem)
  | some c => rw [(isFirstMax_of_firstMax hbest).unique h]

end FogoYield.Library
