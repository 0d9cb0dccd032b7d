import Mathlib.Data.List.Perm.Basic

/-! # Slots

What some of the entries of a list hold, when the entries are replaced one at a time. -/

namespace FogoYield.Library

open List

variable {α β : Type*}

/-- A new entry changes what is held by what the entry holds. -/
theorem filterMap_set_perm (f : α → Option β) {l : List α} {i : ℕ} {old : α}
    (h : l[i]? = some old) (new : α) :
    (f old).toList ++ (l.set i new).filterMap f ~ (f new).toList ++ l.filterMap f := by
  obtain ⟨hi, hold⟩ := List.getElem?_eq_some_iff.mp h
  have hcons : ∀ (a : α) (rest : List α),
      (a :: rest).filterMap f = (f a).toList ++ rest.filterMap f := by
    intro a rest
    rw [List.filterMap_cons]
    cases f a <;> rfl
  have hset : (l.set i new).filterMap f ~ (new :: l.eraseIdx i).filterMap f :=
    (List.set_perm_cons_eraseIdx hi new).filterMap f
  have hget : (old :: l.eraseIdx i).filterMap f ~ l.filterMap f :=
    hold ▸ (List.getElem_cons_eraseIdx_perm hi).filterMap f
  rw [hcons] at hset hget
  calc
    (f old).toList ++ (l.set i new).filterMap f
        ~ (f old).toList ++ ((f new).toList ++ (l.eraseIdx i).filterMap f) := hset.append_left _
    _ ~ (f new).toList ++ ((f old).toList ++ (l.eraseIdx i).filterMap f) :=
        perm_append_comm_assoc _ _ _
    _ ~ (f new).toList ++ l.filterMap f := hget.append_left _

/-- An entry that holds as much as the one it replaces. -/
theorem filterMap_set_of_eq (f : α → Option β) {l : List α} {i : ℕ} {old : α}
    (h : l[i]? = some old) (new : α) (heq : f new = f old) :
    (l.set i new).filterMap f ~ l.filterMap f := by
  have hperm := filterMap_set_perm f h new
  rw [heq] at hperm
  exact (List.perm_append_left_iff _).mp hperm

end FogoYield.Library
