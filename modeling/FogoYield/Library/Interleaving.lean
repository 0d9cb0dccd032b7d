import FogoYield.Library.Run

/-! # Interleavings of two systems

Two systems that share no state take their steps in any order. Each sees a run of its own: the
steps of the other side leave it where it is. -/

namespace FogoYield.Library

variable {σ τ α β : Type*} {left : σ → α → σ → Prop} {right : τ → β → τ → Prop}

/-- One of the sides takes a step, the other stands still. -/
inductive Interleaved (left : σ → α → σ → Prop) (right : τ → β → τ → Prop) :
    σ × τ → α ⊕ β → σ × τ → Prop
  | left {s s' a} (t : τ) (h : left s a s') : Interleaved left right (s, t) (.inl a) (s', t)
  | right {t t' b} (s : σ) (h : right t b t') : Interleaved left right (s, t) (.inr b) (s, t')

/-- A transition as the left side sees it, if it is one of its own. -/
def Transition.onLeft (tr : Transition (σ × τ) (α ⊕ β)) : Option (Transition σ α) :=
  match tr.act with
  | .inl a => some ⟨tr.pre.1, a, tr.post.1⟩
  | .inr _ => none

def Transition.onRight (tr : Transition (σ × τ) (α ⊕ β)) : Option (Transition τ β) :=
  match tr.act with
  | .inl _ => none
  | .inr b => some ⟨tr.pre.2, b, tr.post.2⟩

/-! ## What each side sees -/

theorem Run.onLeft {u v : σ × τ} {ts : List (Transition (σ × τ) (α ⊕ β))}
    (hr : Run (Interleaved left right) u ts v) :
    Run left u.1 (ts.filterMap Transition.onLeft) v.1 := by
  induction hr with
  | nil => exact .nil _
  | snoc _ hst ih =>
      rw [List.filterMap_append]
      cases hst with
      | left t h => exact ih.snoc h
      | right s h =>
          rw [List.filterMap_cons_none rfl, List.filterMap_nil, List.append_nil]
          exact ih

theorem Run.onRight {u v : σ × τ} {ts : List (Transition (σ × τ) (α ⊕ β))}
    (hr : Run (Interleaved left right) u ts v) :
    Run right u.2 (ts.filterMap Transition.onRight) v.2 := by
  induction hr with
  | nil => exact .nil _
  | snoc _ hst ih =>
      rw [List.filterMap_append]
      cases hst with
      | left t h =>
          rw [List.filterMap_cons_none rfl, List.filterMap_nil, List.append_nil]
          exact ih
      | right s h => exact ih.snoc h

theorem Interleaved.onLeft {u v : σ × τ} {a : α} (h : Interleaved left right u (.inl a) v) :
    left u.1 a v.1 := by
  cases h
  assumption

theorem Interleaved.onRight {u v : σ × τ} {b : β} (h : Interleaved left right u (.inr b) v) :
    right u.2 b v.2 := by
  cases h
  assumption

/-! ## Runs of one side -/

theorem Run.append {step : σ → α → σ → Prop} {s t u : σ} {ts us : List (Transition σ α)}
    (h : Run step s ts t) (h' : Run step t us u) : Run step s (ts ++ us) u := by
  induction h' with
  | nil => simpa using h
  | snoc _ hst ih =>
      rw [← List.append_assoc]
      exact ih.snoc hst

/-- The left side runs on its own. -/
theorem Run.asLeft {s s' : σ} {ts : List (Transition σ α)} (hr : Run left s ts s') (t : τ) :
    Run (Interleaved left right) (s, t)
      (ts.map (fun tr => ⟨(tr.pre, t), .inl tr.act, (tr.post, t)⟩)) (s', t) := by
  induction hr with
  | nil => exact .nil _
  | snoc _ hst ih =>
      rw [List.map_append]
      exact ih.snoc (.left t hst)

theorem Run.asRight {t t' : τ} {ts : List (Transition τ β)} (hr : Run right t ts t') (s : σ) :
    Run (Interleaved left right) (s, t)
      (ts.map (fun tr => ⟨(s, tr.pre), .inr tr.act, (s, tr.post)⟩)) (s, t') := by
  induction hr with
  | nil => exact .nil _
  | snoc _ hst ih =>
      rw [List.map_append]
      exact ih.snoc (.right s hst)

end FogoYield.Library
