import Mathlib.Data.List.Induction
import Mathlib.Data.List.Nodup

/-! # Entries in insertion order

A map as the list of its entries: a new key goes to the end, a new value for an old key keeps its
place. -/

namespace FogoYield.Library

variable {κ ν : Type*} [DecidableEq κ]

def setEntry (key : κ) (value : ν) : List (κ × ν) → List (κ × ν)
  | [] => [(key, value)]
  | e :: rest => if e.1 = key then (key, value) :: rest else e :: setEntry key value rest

/-! ## Keys -/

theorem setEntry_of_new {key : κ} {entries : List (κ × ν)} (h : key ∉ entries.map Prod.fst)
    (value : ν) : setEntry key value entries = entries ++ [(key, value)] := by
  induction entries with
  | nil => rfl
  | cons e rest ih =>
      obtain ⟨hne, hrest⟩ := not_or.mp (mt List.mem_cons.mpr h)
      rw [setEntry, if_neg (Ne.symm hne), ih hrest, List.cons_append]

theorem keys_setEntry_of_mem {key : κ} {entries : List (κ × ν)} (h : key ∈ entries.map Prod.fst)
    (value : ν) : (setEntry key value entries).map Prod.fst = entries.map Prod.fst := by
  induction entries with
  | nil => cases h
  | cons e rest ih =>
      rw [setEntry]
      split
      · rename_i heq
        rw [List.map_cons, List.map_cons, heq]
      · rename_i hne
        have hrest : key ∈ rest.map Prod.fst :=
          (List.mem_cons.mp h).resolve_left (Ne.symm hne)
        rw [List.map_cons, List.map_cons, ih hrest]

theorem nodup_setEntry {entries : List (κ × ν)} (h : (entries.map Prod.fst).Nodup) (key : κ)
    (value : ν) : ((setEntry key value entries).map Prod.fst).Nodup := by
  by_cases hmem : key ∈ entries.map Prod.fst
  · rwa [keys_setEntry_of_mem hmem]
  · rw [setEntry_of_new hmem, List.map_append, List.map_singleton, ← List.concat_eq_append]
    exact h.concat hmem

/-! ## Reading -/

theorem lookup_cons_ite (e : κ × ν) (entries : List (κ × ν)) (key : κ) :
    (e :: entries).lookup key = if key = e.1 then some e.2 else entries.lookup key := by
  rw [List.lookup_cons]
  by_cases h : key = e.1
  · rw [if_pos h, h, beq_self_eq_true]
  · rw [if_neg h, beq_false_of_ne h]

theorem lookup_setEntry (key : κ) (value : ν) (entries : List (κ × ν)) (other : κ) :
    (setEntry key value entries).lookup other =
      if other = key then some value else entries.lookup other := by
  induction entries with
  | nil => rw [setEntry, lookup_cons_ite]
  | cons e rest ih =>
      rw [setEntry]
      split
      · rename_i heq
        rw [lookup_cons_ite, lookup_cons_ite, heq]
        by_cases h : other = key <;> simp only [h, if_true, if_false]
      · rename_i hne
        rw [lookup_cons_ite, lookup_cons_ite, ih]
        by_cases h : other = key
        · rw [if_pos h, if_pos h, if_neg (fun he => hne (he.symm.trans h))]
        · rw [if_neg h, if_neg h]

theorem lookup_of_mem {entries : List (κ × ν)} (h : (entries.map Prod.fst).Nodup) {e : κ × ν}
    (he : e ∈ entries) : entries.lookup e.1 = some e.2 := by
  induction entries with
  | nil => cases he
  | cons first rest ih =>
      obtain ⟨hnew, hrest⟩ := List.nodup_cons.mp h
      rw [lookup_cons_ite]
      rcases List.mem_cons.mp he with rfl | he
      · exact if_pos rfl
      · have hne : e.1 ≠ first.1 := fun heq => hnew (heq ▸ List.mem_map_of_mem he)
        rw [if_neg hne]
        exact ih hrest he

/-! ## Building -/

/-- Setting the entries of a map one after the other builds the map. -/
theorem foldl_setEntry {entries : List (κ × ν)} (h : (entries.map Prod.fst).Nodup) :
    entries.foldl (fun acc e => setEntry e.1 e.2 acc) [] = entries := by
  induction entries using List.reverseRecOn with
  | nil => rfl
  | append_singleton front e ih =>
      rw [List.map_append, List.map_singleton] at h
      have hnew : e.1 ∉ front.map Prod.fst := fun hmem =>
        (List.nodup_append.mp h).2.2 e.1 hmem e.1 (List.mem_singleton_self _) rfl
      rw [List.foldl_append, ih (List.nodup_append.mp h).1]
      exact setEntry_of_new hnew e.2

end FogoYield.Library
