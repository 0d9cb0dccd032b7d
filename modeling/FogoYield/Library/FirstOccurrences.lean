import Mathlib.Data.List.Basic

/-! # First occurrences

The elements of a list that are new to those already seen, each once, and when a selection of the
list has the same ones as the whole. -/

namespace FogoYield.Library

variable {α : Type}

section

variable [DecidableEq α]

/-- The elements not seen, each where it first occurs. -/
def fresh (seen xs : List α) : List α := (xs.filter (· ∉ seen)).eraseDups

@[simp] theorem fresh_nil (seen : List α) : fresh seen [] = [] := rfl

theorem fresh_none (xs : List α) : fresh [] xs = xs.eraseDups := by
  simp [fresh]

theorem fresh_cons_mem {seen : List α} {x : α} (h : x ∈ seen) (xs : List α) :
    fresh seen (x :: xs) = fresh seen xs := by
  simp [fresh, h]

theorem fresh_cons_new {seen : List α} {x : α} (h : x ∉ seen) (xs : List α) :
    fresh seen (x :: xs) = x :: fresh (seen ++ [x]) xs := by
  have hfilter : (xs.filter (· ∉ seen)).filter (fun y => !y == x) =
      xs.filter (· ∉ seen ++ [x]) := by
    rw [List.filter_filter]
    congr 1
    funext y
    by_cases hy : y = x <;> simp [hy]
  rw [fresh, List.filter_cons_of_pos (by simpa using h), List.eraseDups_cons, hfilter, fresh]

/-- The first of the new elements is the first element that is not seen. -/
theorem fresh_eq_cons {seen xs : List α} {x : α} {rest : List α} :
    fresh seen xs = x :: rest ↔
      xs.find? (· ∉ seen) = some x ∧ fresh (seen ++ [x]) xs = rest := by
  induction xs with
  | nil => simp
  | cons y xs ih =>
      by_cases hy : y ∈ seen
      · rw [fresh_cons_mem hy, ih, fresh_cons_mem (List.mem_append_left _ hy),
          List.find?_cons_of_neg (by simpa using hy)]
      · rw [fresh_cons_new hy, List.find?_cons_of_pos (by simpa using hy), List.cons.injEq,
          Option.some.injEq]
        constructor
        · rintro ⟨rfl, hrest⟩
          exact ⟨rfl, by rw [fresh_cons_mem (by simp), hrest]⟩
        · rintro ⟨rfl, hrest⟩
          exact ⟨rfl, by rw [← hrest, fresh_cons_mem (by simp)]⟩

end

/-! ## A selection of the list -/

/-- The elements that are marked. -/
def marked (entries : List (Bool × α)) : List α := (entries.filter Prod.fst).map Prod.snd

@[simp] theorem marked_nil : marked ([] : List (Bool × α)) = [] := rfl

@[simp] theorem marked_cons_true (x : α) (entries : List (Bool × α)) :
    marked ((true, x) :: entries) = x :: marked entries := rfl

@[simp] theorem marked_cons_false (x : α) (entries : List (Bool × α)) :
    marked ((false, x) :: entries) = marked entries := rfl

theorem mem_marked {entries : List (Bool × α)} {x : α} :
    x ∈ marked entries ↔ (true, x) ∈ entries := by
  simp [marked]

theorem filter_marked (entries : List (Bool × α)) (p : α → Bool) :
    (marked entries).filter p = marked (entries.filter (fun entry => p entry.2)) := by
  rw [marked, marked, List.filter_map, List.filter_filter, List.filter_filter]
  congr 2
  funext entry
  exact Bool.and_comm _ _

variable [DecidableEq α]

/-- Every element that is not marked has been seen, or is the next new one that is marked. -/
def Caught (seen : List α) (entries : List (Bool × α)) : Prop :=
  ∀ before x after, entries = before ++ (false, x) :: after →
    x ∈ seen ++ before.map Prod.snd ∨
      (marked after).find? (· ∉ seen ++ before.map Prod.snd) = some x

theorem caught_cons {seen : List α} {entry : Bool × α} {entries : List (Bool × α)} :
    Caught seen (entry :: entries) ↔
      (entry.1 = false → entry.2 ∈ seen ∨
        (marked entries).find? (· ∉ seen) = some entry.2) ∧
      Caught (seen ++ [entry.2]) entries := by
  constructor
  · intro h
    refine ⟨?_, ?_⟩
    · intro hmark
      have hfirst := h [] entry.2 entries (by rw [← hmark]; rfl)
      simpa using hfirst
    · rintro before x after rfl
      have hnext := h (entry :: before) x after rfl
      simpa using hnext
  · rintro ⟨hhead, htail⟩ before x after heq
    cases before with
    | nil =>
        obtain ⟨rfl, rfl⟩ := List.cons.inj heq
        simpa using hhead rfl
    | cons e before =>
        obtain ⟨rfl, rfl⟩ := List.cons.inj heq
        have hnext := htail before x after rfl
        simpa using hnext

theorem caught_congr {seen seen' : List α} (h : ∀ x, x ∈ seen ↔ x ∈ seen')
    (entries : List (Bool × α)) : Caught seen entries ↔ Caught seen' entries := by
  simp [Caught, h]

/-- The marked elements are all elements, each once and in order, exactly when those that are not
marked are caught. -/
theorem fresh_marked_iff {seen : List α} {entries : List (Bool × α)} :
    fresh seen (marked entries) = fresh seen (entries.map Prod.snd) ↔ Caught seen entries := by
  induction entries generalizing seen with
  | nil => simp [Caught]
  | cons entry entries ih =>
      obtain ⟨mark, x⟩ := entry
      have hseen : x ∈ seen → (Caught (seen ++ [x]) entries ↔ Caught seen entries) := by
        intro hx
        apply caught_congr
        intro y
        rw [List.mem_append, List.mem_singleton, or_iff_left_of_imp]
        rintro rfl
        exact hx
      rw [caught_cons, List.map_cons]
      cases mark with
      | true =>
          rw [marked_cons_true]
          by_cases hx : x ∈ seen
          · rw [fresh_cons_mem hx, fresh_cons_mem hx, ih, hseen hx]
            simp
          · rw [fresh_cons_new hx, fresh_cons_new hx, List.cons.injEq, ih]
            simp
      | false =>
          rw [marked_cons_false]
          by_cases hx : x ∈ seen
          · rw [fresh_cons_mem hx, ih, hseen hx]
            simp [hx]
          · rw [fresh_cons_new hx, fresh_eq_cons, ih]
            simp [hx]

end FogoYield.Library
