import Mathlib.Data.List.Nodup
import Mathlib.Data.List.Range
import FogoYield.Library.Run

/-! # Numbered entries

A system that keeps one counter for each index of a family, and accepts an entry only under the
number after the one its counter stands at. The numbers a counter has accepted over a run are then
consecutive, and no numbered entry is accepted twice. -/

namespace FogoYield.Library

variable {σ α ε ι : Type*} [DecidableEq ι]

/-- Every accepted entry bears the next number of its counter, which is all that moves. -/
structure Sequenced (step : σ → α → σ → Prop) (entry : α → Option ε) (counter : ε → ι)
    (number : ε → ℕ) (count : σ → ι → ℕ) : Prop where
  next : ∀ {s a t e}, step s a t → entry a = some e → number e = count s (counter e) + 1 ∧
    count t = Function.update (count s) (counter e) (number e)
  keeps : ∀ {s a t}, step s a t → entry a = none → count t = count s

/-- The entries accepted in a run, oldest first. -/
def accepted (entry : α → Option ε) (ts : List (Transition σ α)) : List ε :=
  ts.filterMap (fun tr => entry tr.act)

@[simp] theorem accepted_nil (entry : α → Option ε) :
    accepted entry ([] : List (Transition σ α)) = [] := rfl

theorem accepted_snoc (entry : α → Option ε) (ts : List (Transition σ α)) (tr : Transition σ α) :
    accepted entry (ts ++ [tr]) = accepted entry ts ++ (entry tr.act).toList := by
  rw [accepted, List.filterMap_append]
  cases h : entry tr.act <;> simp [accepted, h]

variable {step : σ → α → σ → Prop} {entry : α → Option ε} {counter : ε → ι} {number : ε → ℕ}
variable {count : σ → ι → ℕ} {s t : σ} {ts : List (Transition σ α)}

/-- A counter accepts the numbers between where it stood and where it stands, each once and in
order. -/
theorem Sequenced.numbers (h : Sequenced step entry counter number count) (hr : Run step s ts t)
    (i : ι) :
    count s i ≤ count t i ∧
      ((accepted entry ts).filter (fun e => counter e = i)).map number =
        List.range' (count s i + 1) (count t i - count s i) := by
  induction hr with
  | nil => simp
  | @snoc u v a ts _ hst ih =>
      obtain ⟨hle, hnumbers⟩ := ih
      rw [accepted_snoc, List.filter_append, List.map_append, hnumbers]
      cases hentry : entry a with
      | none =>
          rw [h.keeps hst hentry]
          exact ⟨hle, by simp⟩
      | some e =>
          obtain ⟨hnumber, hcount⟩ := h.next hst hentry
          rw [hcount]
          by_cases hi : counter e = i
          · subst hi
            have hlength : number e - count s (counter e) =
                (count u (counter e) - count s (counter e)) + 1 := by omega
            have hlast : count s (counter e) + 1 + (count u (counter e) - count s (counter e)) =
                number e := by omega
            rw [Function.update_self, hlength, List.range'_1_concat, hlast]
            exact ⟨by omega, by simp⟩
          · rw [Function.update_of_ne (Ne.symm hi)]
            exact ⟨hle, by simp [hi]⟩

/-- What a counter has accepted bears no number beyond where it stands. -/
theorem Sequenced.number_le (h : Sequenced step entry counter number count) (hr : Run step s ts t)
    {e : ε} (he : e ∈ accepted entry ts) : number e ≤ count t (counter e) := by
  obtain ⟨hle, hnumbers⟩ := h.numbers hr (counter e)
  have hmem : number e ∈
      ((accepted entry ts).filter (fun e' => counter e' = counter e)).map number :=
    List.mem_map_of_mem (List.mem_filter.mpr ⟨he, by simp⟩)
  rw [hnumbers, List.mem_range'_1] at hmem
  omega

/-- No counter accepts a number twice. -/
theorem Sequenced.nodup (h : Sequenced step entry counter number count) (hr : Run step s ts t) :
    ((accepted entry ts).map (fun e => (counter e, number e))).Nodup := by
  induction hr with
  | nil => simp
  | @snoc u v a ts hr hst ih =>
      rw [accepted_snoc, List.map_append]
      cases hentry : entry a with
      | none => simpa using ih
      | some e =>
          refine List.Nodup.append ih (by simp) ?_
          intro p hold hnew
          obtain rfl : p = (counter e, number e) := by simpa using hnew
          obtain ⟨e', he', heq⟩ := List.mem_map.mp hold
          obtain ⟨hcounter, hnumber⟩ := Prod.mk.inj heq
          have hle := h.number_le hr he'
          rw [hcounter, hnumber, (h.next hst hentry).1] at hle
          omega

/-- Where the entries of a run are told apart by `g`, so are the transitions they come from. -/
theorem pairwise_of_accepted {entry : α → Option ε} {γ : Type*} {g : ε → γ}
    {ts : List (Transition σ α)} (h : ((accepted entry ts).map g).Nodup) :
    ts.Pairwise (fun tr tr' => ∀ e e', entry tr.act = some e → entry tr'.act = some e' →
      g e ≠ g e') := by
  rw [accepted, List.map_filterMap, List.Nodup, List.pairwise_filterMap] at h
  apply h.imp
  intro tr tr' hapart e e' he he'
  exact hapart _ (by rw [he]; rfl) _ (by rw [he']; rfl)

end FogoYield.Library
