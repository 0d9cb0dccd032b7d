import Mathlib.Data.List.Induction

/-! # Runs of a labelled transition system

A run keeps every transition it took, oldest first, so that a property of a history can be
stated as a property of that list. -/

namespace FogoYield.Library

/-- One transition of a run: the state before, the label and the state after. -/
structure Transition (σ α : Type*) where
  pre : σ
  act : α
  post : σ

/-- `Run step s ts t` holds when the transitions `ts` lead from `s` to `t`. -/
inductive Run {σ α : Type*} (step : σ → α → σ → Prop) :
    σ → List (Transition σ α) → σ → Prop where
  | nil (s) : Run step s [] s
  | snoc {s t u a ts} : Run step s ts t → step t a u → Run step s (ts ++ [⟨t, a, u⟩]) u

/-- `Since P Q ts` holds when some entry of `ts` satisfies `P` and every later one `Q`. -/
def Since {τ : Type*} (P Q : τ → Prop) (ts : List τ) : Prop :=
  ∃ before t after, ts = before ++ t :: after ∧ P t ∧ ∀ u ∈ after, Q u

variable {σ α τ : Type*} {step : σ → α → σ → Prop}

/-! ## Invariants -/

/-- The induction rule for invariants, which may speak about the transitions taken so far: one that
holds at the start and is kept by every step of a run holds at its end. -/
theorem Run.history_invariant {Inv : List (Transition σ α) → σ → Prop} {s t : σ}
    {ts : List (Transition σ α)} (hs : Inv [] s)
    (hstep : ∀ ts t a u, Run step s ts t → Inv ts t → step t a u → Inv (ts ++ [⟨t, a, u⟩]) u)
    (hr : Run step s ts t) : Inv ts t := by
  induction hr with
  | nil => exact hs
  | snoc hr hst ih => exact hstep _ _ _ _ hr ih hst

/-- The rule for invariants of the state alone. -/
theorem Run.invariant {Inv : σ → Prop} {s t : σ} {ts : List (Transition σ α)} (hs : Inv s)
    (hstep : ∀ t a u, Inv t → step t a u → Inv u) (hr : Run step s ts t) : Inv t := by
  induction hr with
  | nil => exact hs
  | snoc _ hst ih => exact hstep _ _ _ ih hst

/-- A run from a state with an invariant is one of the steps taken where it holds. -/
theorem Run.strengthen {Inv : σ → Prop} {s t : σ} {ts : List (Transition σ α)} (hs : Inv s)
    (hstep : ∀ t a u, Inv t → step t a u → Inv u) (hr : Run step s ts t) :
    Run (fun u a v => Inv u ∧ step u a v) s ts t := by
  induction hr with
  | nil => exact .nil s
  | snoc hr hst ih => exact .snoc ih ⟨hr.invariant hs hstep, hst⟩

theorem Run.snoc_inv {s u : σ} {ts : List (Transition σ α)} {tr : Transition σ α}
    (hr : Run step s (ts ++ [tr]) u) :
    Run step s ts tr.pre ∧ step tr.pre tr.act tr.post ∧ tr.post = u := by
  generalize hl : ts ++ [tr] = l at hr
  cases hr with
  | nil => simp at hl
  | snoc hr hst =>
      obtain ⟨rfl, hlast⟩ := List.append_inj' hl rfl
      obtain rfl := List.singleton_inj.mp hlast
      exact ⟨hr, hst, rfl⟩

theorem Run.cons {s t u : σ} {a : α} {ts : List (Transition σ α)} (hst : step s a t)
    (hr : Run step t ts u) : Run step s (⟨s, a, t⟩ :: ts) u := by
  induction hr with
  | nil => exact .snoc (.nil s) hst
  | snoc _ hlast ih => exact .snoc ih hlast

/-- A run can be cut at any of its transitions. -/
theorem Run.split {s t : σ} {before after : List (Transition σ α)} {tr : Transition σ α}
    (hr : Run step s (before ++ tr :: after) t) :
    Run step s before tr.pre ∧ step tr.pre tr.act tr.post ∧ Run step tr.post after t := by
  induction after using List.reverseRecOn generalizing t with
  | nil =>
      obtain ⟨hb, hst, rfl⟩ := Run.snoc_inv hr
      exact ⟨hb, hst, .nil _⟩
  | append_singleton after last ih =>
      rw [← List.cons_append, ← List.append_assoc] at hr
      obtain ⟨hinit, hst, rfl⟩ := Run.snoc_inv hr
      obtain ⟨hb, hcut, ha⟩ := ih hinit
      exact ⟨hb, hcut, .snoc ha hst⟩

/-! ## Executions -/

/-- Two steps of which the second takes what the first returns succeed when both do. -/
theorem bind_ok_iff {ε α β : Type} {x : Except ε α} {f : α → Except ε β} {b : β} :
    x >>= f = .ok b ↔ ∃ a, x = .ok a ∧ f a = .ok b := by
  cases x with
  | error e => exact ⟨nofun, fun ⟨_, h, _⟩ => nomatch h⟩
  | ok a => exact ⟨fun h => ⟨a, rfl, h⟩, fun ⟨_, h, hf⟩ => Except.ok.inj h ▸ hf⟩

theorem exists_bind_ok_iff {ε α β : Type} {x : Except ε α} {f : α → Except ε β} {P : α → Prop}
    (h : ∀ a, x = .ok a → ((∃ b, f a = .ok b) ↔ P a)) :
    (∃ b, x >>= f = .ok b) ↔ ∃ a, x = .ok a ∧ P a := by
  simp only [bind_ok_iff]
  constructor
  · rintro ⟨b, a, ha, hb⟩
    exact ⟨a, ha, (h a ha).mp ⟨b, hb⟩⟩
  · rintro ⟨a, ha, hP⟩
    obtain ⟨b, hb⟩ := (h a ha).mpr hP
    exact ⟨b, a, ha, hb⟩

/-- Take one action after the other, as long as none fails. -/
def execute {ρ : Type*} (apply : α → σ → Except ρ σ) : List α → σ → Except ρ σ
  | [], s => .ok s
  | a :: as, s =>
    match apply a s with
    | .ok t => execute apply as t
    | .error e => .error e

/-- An execution that does not fail is a run of the same actions. -/
theorem run_of_execute {ρ : Type*} {apply : α → σ → Except ρ σ} {as : List α} {s t : σ}
    (hstep : ∀ a ∈ as, ∀ u v, apply a u = .ok v → step u a v) (h : execute apply as s = .ok t) :
    ∃ ts, Run step s ts t ∧ ts.map Transition.act = as := by
  induction as generalizing s with
  | nil =>
      obtain rfl := Except.ok.inj h
      exact ⟨[], .nil s, rfl⟩
  | cons a as ih =>
      simp only [execute] at h
      split at h
      · rename_i u hu
        obtain ⟨ts, hr, hacts⟩ := ih (fun b hb => hstep b (List.mem_cons_of_mem a hb)) h
        refine ⟨⟨s, a, u⟩ :: ts, hr.cons (hstep a List.mem_cons_self s u hu), ?_⟩
        rw [List.map_cons, hacts]
      · cases h

theorem execute_append {ρ : Type*} (apply : α → σ → Except ρ σ) (as bs : List α) (s : σ) :
    execute apply (as ++ bs) s =
      match execute apply as s with
      | .ok t => execute apply bs t
      | .error e => .error e := by
  induction as generalizing s with
  | nil => rfl
  | cons a as ih =>
      simp only [List.cons_append, execute]
      cases apply a s with
      | ok t => exact ih t
      | error e => rfl

/-- Where each step is the application of its action, a run is the execution of its actions. -/
theorem execute_of_run {ρ : Type*} {apply : α → σ → Except ρ σ} {s t : σ}
    {ts : List (Transition σ α)} (hstep : ∀ u a v, step u a v → apply a u = .ok v)
    (hr : Run step s ts t) : execute apply (ts.map Transition.act) s = .ok t := by
  induction hr with
  | nil => rfl
  | snoc _ hlast ih =>
      rw [List.map_append, execute_append, ih]
      simp only [List.map_cons, List.map_nil, execute, hstep _ _ _ hlast]

/-- What a step function allows is a run of the same actions. -/
theorem run_of_foldlM {next : σ → α → Option σ} {as : List α} {s t : σ}
    (h : as.foldlM next s = some t) :
    ∃ ts, Run (fun u a v => next u a = some v) s ts t ∧ ts.map Transition.act = as := by
  induction as generalizing s with
  | nil =>
      obtain rfl := Option.some.inj h
      exact ⟨[], .nil s, rfl⟩
  | cons a as ih =>
      rw [List.foldlM_cons] at h
      obtain ⟨u, hu, hrest⟩ := Option.bind_eq_some_iff.mp h
      obtain ⟨ts, hr, hacts⟩ := ih hrest
      exact ⟨⟨s, a, u⟩ :: ts, hr.cons hu, by rw [List.map_cons, hacts]⟩

/-- Entries that can be put in front of those they relate to come in by a run, last one first. -/
theorem run_of_pairwise {R : τ → τ → Prop} (state : List τ → σ) (act : τ → α)
    (hstep : ∀ x xs, (∀ y ∈ xs, R x y) → step (state xs) (act x) (state (x :: xs))) {xs : List τ}
    (h : xs.Pairwise R) :
    ∃ ts, Run step (state []) ts (state xs) ∧ ∀ tr ∈ ts, ∃ x, tr.act = act x := by
  induction xs with
  | nil => exact ⟨[], .nil _, by simp⟩
  | cons x xs ih =>
      obtain ⟨hx, hxs⟩ := List.pairwise_cons.mp h
      obtain ⟨ts, hr, hacts⟩ := ih hxs
      refine ⟨_, hr.snoc (hstep x xs hx), ?_⟩
      intro tr htr
      rcases List.mem_append.mp htr with htr | htr
      · exact hacts tr htr
      · rw [List.mem_singleton.mp htr]
        exact ⟨x, rfl⟩

/-! ## Histories -/

theorem Since.here {P Q : τ → Prop} {t : τ} (ts : List τ) (h : P t) : Since P Q (ts ++ [t]) :=
  ⟨ts, t, [], rfl, h, by simp⟩

theorem Since.later {P Q : τ → Prop} {ts : List τ} {t : τ} (h : Since P Q ts) (hq : Q t) :
    Since P Q (ts ++ [t]) := by
  obtain ⟨before, u, after, rfl, hp, ha⟩ := h
  refine ⟨before, u, after ++ [t], by simp, hp, ?_⟩
  intro v hv
  rcases List.mem_append.mp hv with hv | hv
  · exact ha v hv
  · rw [List.mem_singleton.mp hv]
    exact hq

theorem Since.mono {P P' Q Q' : τ → Prop} {ts : List τ} (h : Since P Q ts)
    (hp : ∀ t ∈ ts, P t → P' t) (hq : ∀ t ∈ ts, Q t → Q' t) : Since P' Q' ts := by
  obtain ⟨before, u, after, rfl, hu, ha⟩ := h
  refine ⟨before, u, after, rfl, hp u (by simp) hu, ?_⟩
  intro v hv
  exact hq v (by simp [hv]) (ha v hv)

end FogoYield.Library
