import Mathlib.Data.List.Nodup
import Mathlib.Data.List.Dedup
import Mathlib.Data.Finset.Card
import FogoYield.Library.Entries

/-! # Bounded maps

`packages/cranker/src/utils/bounded-map.ts`: a map in insertion order that evicts its oldest entry
when a new key would not fit. -/

namespace FogoYield.Cranker

open FogoYield.Library

/-- The entries, oldest first. -/
structure BoundedMap (κ ν : Type) [DecidableEq κ] where
  max : ℕ
  entries : List (κ × ν)
  max_pos : 0 < max
  nodup : (entries.map Prod.fst).Nodup

namespace BoundedMap

variable {κ ν : Type} [DecidableEq κ]

/-- The constructor, which throws for a bound that is not positive. -/
def new (max : ℕ) : Option (BoundedMap κ ν) :=
  if h : 0 < max then some ⟨max, [], h, List.nodup_nil⟩ else none

def keys (m : BoundedMap κ ν) : List κ := m.entries.map Prod.fst

def get (m : BoundedMap κ ν) (key : κ) : Option ν := m.entries.lookup key

def delete (m : BoundedMap κ ν) (key : κ) : BoundedMap κ ν :=
  { m with
    entries := m.entries.filter (fun e => e.1 ≠ key)
    nodup := m.nodup.sublist (List.filter_sublist.map Prod.fst) }

/-- A new value for a key keeps its place. -/
def update (m : BoundedMap κ ν) (key : κ) (value : ν) : BoundedMap κ ν :=
  { m with
    entries := m.entries.map (fun e => if e.1 = key then (key, value) else e)
    nodup := by
      have hkeys : (m.entries.map (fun e => if e.1 = key then (key, value) else e)).map Prod.fst =
          m.entries.map Prod.fst := by
        rw [List.map_map]
        refine List.map_congr_left (fun e _ => ?_)
        rw [Function.comp_apply]
        split
        · exact Eq.symm ‹_›
        · rfl
      exact hkeys ▸ m.nodup }

def insert (m : BoundedMap κ ν) (key : κ) (value : ν) (h : key ∉ m.keys) : BoundedMap κ ν :=
  { m with
    entries := m.entries ++ [(key, value)]
    nodup := by
      rw [List.map_append, List.map_singleton]
      refine List.nodup_append.mpr ⟨m.nodup, List.nodup_singleton _, ?_⟩
      rintro a ha b hb rfl
      obtain rfl := List.mem_singleton.mp hb
      exact h ha }

theorem not_mem_keys_delete {m : BoundedMap κ ν} {key : κ} (h : key ∉ m.keys) (oldest : κ) :
    key ∉ (m.delete oldest).keys := fun hmem =>
  h ((List.filter_sublist.map Prod.fst).subset hmem)

/-- `set`: a new key that does not fit takes the place of the oldest one. -/
def set (m : BoundedMap κ ν) (key : κ) (value : ν) : BoundedMap κ ν :=
  if h : key ∈ m.keys then m.update key value
  else if m.entries.length ≥ m.max then
    match m.keys.head? with
    | some oldest => (m.delete oldest).insert key value (not_mem_keys_delete h oldest)
    | none => m.insert key value h
  else m.insert key value h

/-- A `set` of the key would evict another one. -/
def Evicts (m : BoundedMap κ ν) (key : κ) : Prop := key ∉ m.keys ∧ m.max ≤ m.entries.length

/-! ## Reading -/

theorem lookup_eq_none {entries : List (κ × ν)} {key : κ} :
    entries.lookup key = none ↔ key ∉ entries.map Prod.fst := by
  induction entries with
  | nil => simp
  | cons e entries ih =>
      rw [lookup_cons_ite, List.map_cons, List.mem_cons, not_or, ← ih]
      by_cases h : key = e.1 <;> simp [h]

theorem lookup_filter (entries : List (κ × ν)) (key other : κ) :
    (entries.filter (fun e => e.1 ≠ key)).lookup other =
      if other = key then none else entries.lookup other := by
  induction entries with
  | nil => simp
  | cons e entries ih =>
      by_cases he : e.1 = key
      · rw [List.filter_cons_of_neg (by simpa using he), ih, lookup_cons_ite, he]
        by_cases ho : other = key <;> simp [ho]
      · rw [List.filter_cons_of_pos (by simpa using he), lookup_cons_ite, lookup_cons_ite, ih]
        by_cases ho : other = key
        · rw [if_pos ho, if_pos ho, ho, if_neg (Ne.symm he)]
        · rw [if_neg ho, if_neg ho]

theorem lookup_replace {entries : List (κ × ν)} {key : κ} (h : key ∈ entries.map Prod.fst)
    (value : ν) (other : κ) :
    (entries.map (fun e => if e.1 = key then (key, value) else e)).lookup other =
      if other = key then some value else entries.lookup other := by
  induction entries with
  | nil => cases h
  | cons e entries ih =>
      rw [List.map_cons, lookup_cons_ite, lookup_cons_ite]
      by_cases hmem : key ∈ entries.map Prod.fst
      · rw [ih hmem]
        by_cases he : e.1 = key
        · rw [if_pos he, he]
          by_cases ho : other = key <;> simp [ho]
        · rw [if_neg he]
          by_cases ho : other = key
          · rw [if_pos ho, ho, if_neg (Ne.symm he), if_pos rfl]
          · rw [if_neg ho, if_neg ho]
      · -- the key stands at the head only
        have he : e.1 = key := ((List.mem_cons.mp h).resolve_right hmem).symm
        have htail : entries.map (fun e => if e.1 = key then (key, value) else e) = entries := by
          refine (List.map_congr_left (fun e' he' => if_neg ?_)).trans (List.map_id entries)
          rintro rfl
          exact hmem (List.mem_map_of_mem he')
        rw [htail, if_pos he, he]
        by_cases ho : other = key <;> simp [ho]

theorem get_eq_none {m : BoundedMap κ ν} {key : κ} : m.get key = none ↔ key ∉ m.keys :=
  lookup_eq_none

theorem get_eq_some {m : BoundedMap κ ν} {key : κ} {value : ν} :
    m.get key = some value ↔ (key, value) ∈ m.entries := by
  have hlookup : ∀ entries : List (κ × ν), (entries.map Prod.fst).Nodup →
      (entries.lookup key = some value ↔ (key, value) ∈ entries) := by
    intro entries hnodup
    induction entries with
    | nil => simp
    | cons e entries ih =>
        obtain ⟨hnew, hnodup⟩ := List.nodup_cons.mp hnodup
        rw [lookup_cons_ite, List.mem_cons, ← ih hnodup]
        by_cases he : key = e.1
        · have hnone : entries.lookup key = none := lookup_eq_none.mpr (he ▸ hnew)
          rw [if_pos he, hnone]
          simp [Prod.ext_iff, he, eq_comm]
        · rw [if_neg he]
          simp [Prod.ext_iff, he]
  exact hlookup m.entries m.nodup

theorem get_delete (m : BoundedMap κ ν) (key other : κ) :
    (m.delete key).get other = if other = key then none else m.get other :=
  lookup_filter m.entries key other

theorem get_update (m : BoundedMap κ ν) {key : κ} (h : key ∈ m.keys) (value : ν) (other : κ) :
    (m.update key value).get other = if other = key then some value else m.get other :=
  lookup_replace h value other

theorem get_insert (m : BoundedMap κ ν) {key : κ} (h : key ∉ m.keys) (value : ν) (other : κ) :
    (m.insert key value h).get other = if other = key then some value else m.get other := by
  have hlookup : (m.insert key value h).get other =
      (m.entries.lookup other).or ([(key, value)].lookup other) := List.lookup_append
  rw [hlookup, lookup_cons_ite, List.lookup_nil]
  by_cases ho : other = key
  · rw [if_pos ho, if_pos ho, ho, lookup_eq_none.mpr h, Option.none_or]
  · rw [if_neg ho, if_neg ho, Option.or_none]
    rfl

/-- Reading behind a `set` that evicts nothing. -/
theorem get_set {m : BoundedMap κ ν} {key : κ} (h : ¬ m.Evicts key) (value : ν) (other : κ) :
    (m.set key value).get other = if other = key then some value else m.get other := by
  unfold set
  split
  · exact get_update m ‹_› value other
  · rename_i hkey
    have hfits : ¬ m.entries.length ≥ m.max := fun hfull => h ⟨hkey, hfull⟩
    rw [if_neg hfits]
    exact get_insert m hkey value other

/-- Whatever is evicted, the key that is set is there. -/
theorem get_set_self (m : BoundedMap κ ν) (key : κ) (value : ν) :
    (m.set key value).get key = some value := by
  unfold set
  split
  · rw [get_update m ‹_› value key, if_pos rfl]
  · split
    · split
      · rw [get_insert, if_pos rfl]
      · rw [get_insert, if_pos rfl]
    · rw [get_insert, if_pos rfl]

/-- A `set` adds nothing but its own entry. -/
theorem get_set_some {m : BoundedMap κ ν} {key other : κ} {value v : ν}
    (h : (m.set key value).get other = some v) :
    other = key ∧ v = value ∨ m.get other = some v := by
  by_cases ho : other = key
  · rw [ho, get_set_self] at h
    exact .inl ⟨ho, (Option.some.inj h).symm⟩
  · refine .inr ?_
    unfold set at h
    split at h
    · rwa [get_update m ‹_›, if_neg ho] at h
    · split at h
      · split at h
        · rw [get_insert, if_neg ho, get_delete] at h
          split at h
          · cases h
          · exact h
        · rwa [get_insert, if_neg ho] at h
      · rwa [get_insert, if_neg ho] at h

/-! ## Room for every key -/

theorem max_set (m : BoundedMap κ ν) (key : κ) (value : ν) : (m.set key value).max = m.max := by
  unfold set
  split
  · rfl
  · split
    · split <;> rfl
    · rfl

theorem mem_keys_delete {m : BoundedMap κ ν} {key other : κ} (h : other ∈ (m.delete key).keys) :
    other ∈ m.keys := (List.filter_sublist.map Prod.fst).subset h

theorem mem_keys_set {m : BoundedMap κ ν} {key other : κ} {value : ν} (hfits : ¬ m.Evicts key)
    (h : other ∈ (m.set key value).keys) : other = key ∨ other ∈ m.keys := by
  by_contra hno
  obtain ⟨hne, hother⟩ := not_or.mp hno
  have hget := get_set hfits value other
  rw [if_neg hne, get_eq_none.mpr hother] at hget
  exact get_eq_none.mp hget h

/-- Nothing is evicted as long as all keys ever set fit. -/
theorem not_evicts {m : BoundedMap κ ν} {key : κ} {room : Finset κ} (hroom : room.card ≤ m.max)
    (hkeys : ∀ k ∈ m.keys, k ∈ room) (hkey : key ∈ room) : ¬ m.Evicts key := by
  rintro ⟨hnew, hfull⟩
  have hsub : (key :: m.keys).toFinset ⊆ room := by
    intro k hk
    rcases List.mem_cons.mp (List.mem_toFinset.mp hk) with rfl | hk
    · exact hkey
    · exact hkeys k hk
  have hcard := Finset.card_le_card hsub
  rw [List.toFinset_card_of_nodup (List.nodup_cons.mpr ⟨hnew, m.nodup⟩), List.length_cons, keys,
    List.length_map] at hcard
  omega

end BoundedMap

end FogoYield.Cranker
