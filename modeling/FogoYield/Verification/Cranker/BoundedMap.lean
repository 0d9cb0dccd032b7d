import FogoYield.Model.Cranker.BoundedMap

/-! # Correctness of bounded maps

A key is dated by the operation that last inserted it as new. The keys stand in the order of these
dates through every mix of updates, deletions and re-insertions, so the first of them, which a new
key displaces, is the one that has been there longest. -/

namespace FogoYield.Cranker

inductive MapOp (κ ν : Type) where
  | set (key : κ) (value : ν)
  | delete (key : κ)

namespace BoundedMap

variable {κ ν : Type} [DecidableEq κ]

def apply (m : BoundedMap κ ν) : MapOp κ ν → BoundedMap κ ν
  | .set key value => m.set key value
  | .delete key => m.delete key

def applyAll (m : BoundedMap κ ν) (ops : List (MapOp κ ν)) : BoundedMap κ ν := ops.foldl apply m

theorem applyAll_snoc (m : BoundedMap κ ν) (ops : List (MapOp κ ν)) (op : MapOp κ ν) :
    m.applyAll (ops ++ [op]) = (m.applyAll ops).apply op := List.foldl_concat apply m op ops

/-- What the last `set` of a key gave it. -/
def lastSet (ops : List (MapOp κ ν)) (key : κ) : Option ν :=
  ops.reverse.findSome? (fun
    | .set k value => if k = key then some value else none
    | .delete _ => none)

/-- The key has been there since operation `n` inserted it as new. -/
structure InsertedAt (m : BoundedMap κ ν) (ops : List (MapOp κ ν)) (key : κ) (n : ℕ) :
    Prop where
  is_set : ∃ value, ops[n]? = some (.set key value)
  as_new : key ∉ (m.applyAll (ops.take n)).keys
  since : ∀ k, n < k → k ≤ ops.length → key ∈ (m.applyAll (ops.take k)).keys

/-! ## Keys -/

variable {m : BoundedMap κ ν} {key : κ}

theorem keys_delete (m : BoundedMap κ ν) (key : κ) :
    (m.delete key).keys = m.keys.filter (· ≠ key) := by
  rw [keys, keys, List.filter_map]
  rfl

theorem keys_set_of_mem (h : key ∈ m.keys) (value : ν) : (m.set key value).keys = m.keys := by
  rw [set, dif_pos h, keys, keys, update, List.map_map]
  refine List.map_congr_left ?_
  intro e _
  rw [Function.comp_apply]
  split
  · exact Eq.symm ‹_›
  · rfl

theorem keys_insert (h : key ∉ m.keys) (value : ν) :
    (m.insert key value h).keys = m.keys ++ [key] := List.map_append

theorem keys_set_of_fits (h : key ∉ m.keys) (hfits : m.entries.length < m.max) (value : ν) :
    (m.set key value).keys = m.keys ++ [key] := by
  rw [set, dif_neg h, if_neg (Nat.not_le.mpr hfits), keys_insert]

/-- The oldest key goes. -/
theorem keys_set_of_full (h : key ∉ m.keys) (hfull : m.max ≤ m.entries.length) (value : ν) :
    ∃ oldest rest, m.keys = oldest :: rest ∧ (m.set key value).keys = rest ++ [key] := by
  have hlength : m.keys.length = m.entries.length := List.length_map _
  have hnodup : m.keys.Nodup := m.nodup
  cases hkeys : m.keys with
  | nil =>
      have hpos := m.max_pos
      rw [hkeys] at hlength
      simp only [List.length_nil] at hlength
      omega
  | cons oldest rest =>
      refine ⟨oldest, rest, rfl, ?_⟩
      have hhead : m.keys.head? = some oldest := by rw [hkeys]; rfl
      rw [hkeys] at hnodup
      have hnew : oldest ∉ rest := (List.nodup_cons.mp hnodup).1
      have hset : m.set key value =
          (m.delete oldest).insert key value (not_mem_keys_delete h oldest) := by
        rw [set, dif_neg h, if_pos hfull]
        split
        · rename_i oldest' holdest'
          obtain rfl := Option.some.inj (hhead.symm.trans holdest')
          rfl
        · rename_i hnone
          cases hhead.symm.trans hnone
      rw [hset, keys_insert, keys_delete, hkeys, List.filter_cons_of_neg (by simp),
        List.filter_eq_self.mpr (by simpa using fun k hk => ne_of_mem_of_not_mem hk hnew)]

theorem max_apply (m : BoundedMap κ ν) (op : MapOp κ ν) : (m.apply op).max = m.max := by
  cases op with
  | set key value => exact max_set m key value
  | delete key => rfl

theorem max_applyAll (m : BoundedMap κ ν) (ops : List (MapOp κ ν)) :
    (m.applyAll ops).max = m.max := by
  induction ops using List.reverseRecOn with
  | nil => rfl
  | append_singleton ops op ih => rw [applyAll_snoc, max_apply, ih]

/-- What an operation does to the keys: they keep their order, one may go, and a new one comes
last. -/
theorem keys_apply (m : BoundedMap κ ν) (op : MapOp κ ν) :
    (m.apply op).keys.Sublist m.keys ∨
      ∃ key value kept, op = .set key value ∧ key ∉ m.keys ∧ kept.Sublist m.keys ∧
        (m.apply op).keys = kept ++ [key] := by
  cases op with
  | delete key => exact .inl (keys_delete m key ▸ List.filter_sublist)
  | set key value =>
      by_cases hmem : key ∈ m.keys
      · exact .inl (keys_set_of_mem hmem value ▸ List.Sublist.refl _)
      · refine .inr ?_
        rcases Nat.lt_or_ge m.entries.length m.max with hfits | hfull
        · exact ⟨key, value, m.keys, rfl, hmem, .refl _, keys_set_of_fits hmem hfits value⟩
        · obtain ⟨oldest, rest, hkeys, hset⟩ := keys_set_of_full hmem hfull value
          exact ⟨key, value, rest, rfl, hmem, hkeys ▸ List.sublist_cons_self oldest rest, hset⟩

/-! ## Size -/

theorem length_keys (m : BoundedMap κ ν) : m.keys.length = m.entries.length := List.length_map _

theorem size_apply (h : m.entries.length ≤ m.max) (op : MapOp κ ν) :
    (m.apply op).entries.length ≤ m.max := by
  rw [← length_keys] at h ⊢
  cases op with
  | delete key => exact (keys_delete m key ▸ List.length_filter_le _ _).trans h
  | set key value =>
      by_cases hmem : key ∈ m.keys
      · exact (keys_set_of_mem hmem value ▸ h : (m.set key value).keys.length ≤ m.max)
      · rcases Nat.lt_or_ge m.entries.length m.max with hfits | hfull
        · have hset := keys_set_of_fits hmem hfits value
          have hlength := congrArg List.length hset
          rw [List.length_append, List.length_singleton, length_keys m] at hlength
          exact hlength.le.trans hfits
        · obtain ⟨oldest, rest, hkeys, hset⟩ := keys_set_of_full hmem hfull value
          have hlength := congrArg List.length hset
          rw [List.length_append, List.length_singleton] at hlength
          rw [hkeys, List.length_cons] at h
          exact hlength.le.trans h

theorem size_applyAll (h : m.entries.length ≤ m.max) (ops : List (MapOp κ ν)) :
    (m.applyAll ops).entries.length ≤ m.max := by
  induction ops using List.reverseRecOn with
  | nil => exact h
  | append_singleton ops op ih =>
      rw [applyAll_snoc, ← max_applyAll m ops]
      exact size_apply (max_applyAll m ops ▸ ih) op

/-! ## Dates -/

variable {ops : List (MapOp κ ν)} {n : ℕ}

/-- A key that an operation leaves there keeps its date. -/
theorem InsertedAt.keep (h : InsertedAt m ops key n) {op : MapOp κ ν}
    (hmem : key ∈ (m.applyAll (ops ++ [op])).keys) : InsertedAt m (ops ++ [op]) key n := by
  obtain ⟨value, hset⟩ := h.is_set
  have hn : n < ops.length := (List.getElem?_eq_some_iff.mp hset).1
  refine ⟨⟨value, ?_⟩, ?_, ?_⟩
  · rw [List.getElem?_append_left hn, hset]
  · rw [List.take_append_of_le_length hn.le]
    exact h.as_new
  · intro k hnk hk
    rcases Nat.lt_or_ge ops.length k with hlast | hk
    · rwa [List.take_of_length_le (by simpa using Nat.succ_le_of_lt hlast)]
    · rw [List.take_append_of_le_length hk]
      exact h.since k hnk hk

/-- A key that an operation inserts as new is dated by it. -/
theorem InsertedAt.new {value : ν} (hnew : key ∉ (m.applyAll ops).keys)
    (hmem : key ∈ (m.applyAll (ops ++ [.set key value])).keys) :
    InsertedAt m (ops ++ [.set key value]) key ops.length := by
  refine ⟨⟨value, List.getElem?_concat_length⟩, ?_, ?_⟩
  · rwa [List.take_left']
    rfl
  · intro k hnk hk
    rwa [List.take_of_length_le (by simpa using Nat.succ_le_of_lt hnk)]

theorem InsertedAt.lt_length (h : InsertedAt m ops key n) : n < ops.length := by
  obtain ⟨value, hset⟩ := h.is_set
  exact (List.getElem?_eq_some_iff.mp hset).1

/-- Every key has a date, and they stand in the order of their dates. -/
def Dated (m : BoundedMap κ ν) (ops : List (MapOp κ ν)) (date : κ → ℕ) : Prop :=
  (∀ key ∈ (m.applyAll ops).keys, InsertedAt m ops key (date key)) ∧
    (m.applyAll ops).keys.Pairwise (fun a b => date a < date b)

theorem exists_dated (hempty : m.entries = []) (ops : List (MapOp κ ν)) :
    ∃ date, Dated m ops date := by
  induction ops using List.reverseRecOn with
  | nil =>
      have hkeys : (m.applyAll []).keys = [] := congrArg (List.map Prod.fst) hempty
      exact ⟨fun _ => 0, by simp [hkeys], by simp [hkeys]⟩
  | append_singleton ops op ih =>
      obtain ⟨date, hdated, hsorted⟩ := ih
      rcases keys_apply (m.applyAll ops) op with hsub | ⟨key, value, kept, rfl, hnew, hsub, hkeys⟩
      · rw [← applyAll_snoc] at hsub
        exact ⟨date, fun k hk => (hdated k (hsub.subset hk)).keep hk, hsorted.sublist hsub⟩
      · rw [← applyAll_snoc] at hkeys
        have hkept : ∀ k ∈ kept, Function.update date key ops.length k = date k :=
          fun k hk => Function.update_of_ne (ne_of_mem_of_not_mem (hsub.subset hk) hnew) _ _
        refine ⟨Function.update date key ops.length, ?_, ?_⟩
        · intro k hk
          rcases List.mem_append.mp (hkeys ▸ hk) with hk' | hk'
          · rw [hkept k hk']
            exact (hdated k (hsub.subset hk')).keep hk
          · obtain rfl := List.mem_singleton.mp hk'
            rw [Function.update_self]
            exact .new hnew hk
        · rw [hkeys, List.pairwise_append]
          refine ⟨?_, List.pairwise_singleton _ _, ?_⟩
          · refine (hsorted.sublist hsub).imp_of_mem ?_
            intro a b ha hb hab
            rwa [hkept a ha, hkept b hb]
          · intro a ha b hb
            obtain rfl := List.mem_singleton.mp hb
            rw [hkept a ha, Function.update_self]
            exact (hdated a (hsub.subset ha)).lt_length

/-! ## Values -/

theorem lastSet_snoc (ops : List (MapOp κ ν)) (op : MapOp κ ν) (key : κ) :
    lastSet (ops ++ [op]) key =
      match op with
      | .set k value => if k = key then some value else lastSet ops key
      | .delete _ => lastSet ops key := by
  rw [lastSet, List.reverse_append, List.reverse_singleton, List.singleton_append,
    List.findSome?_cons]
  cases op with
  | set k value => by_cases hk : k = key <;> simp [hk, lastSet]
  | delete k => rfl

theorem get_applyAll (hempty : m.entries = []) (ops : List (MapOp κ ν)) {value : ν}
    (h : (m.applyAll ops).get key = some value) : lastSet ops key = some value := by
  induction ops using List.reverseRecOn generalizing value with
  | nil =>
      have hget : (m.applyAll []).get key = none := congrArg (List.lookup key) hempty
      cases hget.symm.trans h
  | append_singleton ops op ih =>
      rw [applyAll_snoc] at h
      rw [lastSet_snoc]
      cases op with
      | set k v =>
          simp only
          by_cases hk : k = key
          · subst hk
            rw [if_pos rfl, ← get_set_self (m.applyAll ops) k v]
            exact h
          · rw [if_neg hk]
            rcases get_set_some h with ⟨rfl, -⟩ | hold
            · exact absurd rfl hk
            · exact ih hold
      | delete k =>
          rw [apply, get_delete] at h
          split at h
          · cases h
          · exact ih h

/-! ## The map -/

/-- What holds of a map behind any operations: its size, what a further operation removes, its
values and its order. -/
structure Fifo (m : BoundedMap κ ν) (max : ℕ) (ops : List (MapOp κ ν)) : Prop where
  size_le : (m.applyAll ops).entries.length ≤ max
  /-- A new key that does not fit displaces the one with the first date, and no other. -/
  evicts : ∀ key value, key ∉ (m.applyAll ops).keys → (m.applyAll ops).entries.length = max →
    ∃ oldest n, InsertedAt m ops oldest n ∧
      (∀ k n', InsertedAt m ops k n' → k ∈ (m.applyAll ops).keys → k ≠ oldest → n < n') ∧
      oldest ∈ (m.applyAll ops).keys ∧
      ∀ k, k ∈ ((m.applyAll ops).set key value).keys ↔
        k = key ∨ k ∈ (m.applyAll ops).keys ∧ k ≠ oldest
  /-- No other `set` removes a key. -/
  keeps : ∀ key value, key ∈ (m.applyAll ops).keys ∨ (m.applyAll ops).entries.length < max →
    ∀ k, k ∈ ((m.applyAll ops).set key value).keys ↔ k = key ∨ k ∈ (m.applyAll ops).keys
  deletes : ∀ key k, k ∈ ((m.applyAll ops).delete key).keys ↔ k ∈ (m.applyAll ops).keys ∧ k ≠ key
  get_eq : ∀ key ∈ (m.applyAll ops).keys,
    (m.applyAll ops).get key = lastSet ops key ∧ lastSet ops key ≠ none
  in_order : ∃ date, Dated m ops date

theorem InsertedAt.unique {n n' : ℕ} (h : InsertedAt m ops key n) (h' : InsertedAt m ops key n') :
    n = n' := by
  rcases Nat.lt_trichotomy n n' with hlt | heq | hlt
  · exact absurd (h.since n' hlt h'.lt_length.le) h'.as_new
  · exact heq
  · exact absurd (h'.since n hlt h.lt_length.le) h.as_new

/-- Over any sequence of operations the map stays within its bound and evicts in the order of
insertion. -/
theorem boundedMap_fifo {max : ℕ} (hnew : BoundedMap.new max = some m)
    (ops : List (MapOp κ ν)) : Fifo m max ops := by
  obtain ⟨hpos, rfl⟩ : ∃ hpos : 0 < max, m = ⟨max, [], hpos, List.nodup_nil⟩ := by
    unfold BoundedMap.new at hnew
    split at hnew
    · exact ⟨_, (Option.some.inj hnew).symm⟩
    · cases hnew
  generalize hm : (⟨max, [], hpos, List.nodup_nil⟩ : BoundedMap κ ν) = m
  have hempty : m.entries = [] := hm ▸ rfl
  have hmax : (m.applyAll ops).max = max := (max_applyAll m ops).trans (hm ▸ rfl)
  have hsize : (m.applyAll ops).entries.length ≤ max := by
    have hsize := size_applyAll (m := m) (by rw [hempty]; exact Nat.zero_le _) ops
    rwa [← max_applyAll m ops, hmax] at hsize
  obtain ⟨date, hdated, hsorted⟩ := exists_dated hempty ops
  have hnodup : (m.applyAll ops).keys.Nodup := (m.applyAll ops).nodup
  refine ⟨hsize, ?_, ?_, ?_, ?_, date, hdated, hsorted⟩
  · intro key value hkey hfull
    obtain ⟨oldest, rest, hkeys, hset⟩ := keys_set_of_full hkey (hmax.trans hfull.symm).le value
    have holdest : oldest ∈ (m.applyAll ops).keys := hkeys ▸ List.mem_cons_self
    refine ⟨oldest, date oldest, hdated oldest holdest, ?_, holdest, ?_⟩
    · intro k n' hk hmem hne
      rw [hk.unique (hdated k hmem)]
      rw [hkeys] at hsorted hmem
      exact (List.pairwise_cons.mp hsorted).1 k ((List.mem_cons.mp hmem).resolve_left hne)
    · intro k
      rw [hkeys] at hnodup
      have hnew : oldest ∉ rest := (List.nodup_cons.mp hnodup).1
      rw [hset, hkeys, List.mem_append, List.mem_singleton, List.mem_cons, or_comm]
      refine or_congr_right ⟨?_, ?_⟩
      · intro hk
        exact ⟨.inr hk, ne_of_mem_of_not_mem hk hnew⟩
      · rintro ⟨hk, hne⟩
        exact hk.resolve_left hne
  · rintro key value hfits k
    by_cases hmem : key ∈ (m.applyAll ops).keys
    · rw [keys_set_of_mem hmem]
      exact ⟨.inr, fun hk => hk.elim (fun heq => heq ▸ hmem) id⟩
    · have hlt := hfits.resolve_left hmem
      rw [keys_set_of_fits hmem (hmax ▸ hlt), List.mem_append, List.mem_singleton, or_comm]
  · intro key k
    rw [keys_delete, List.mem_filter]
    simp
  · intro key hkey
    obtain ⟨value, hget⟩ := Option.ne_none_iff_exists'.mp (mt get_eq_none.mp (not_not.mpr hkey))
    rw [get_applyAll hempty ops hget]
    exact ⟨hget, nofun⟩

/-- A key that was deleted and inserted again is younger than one that was only updated. -/
theorem boundedMap_fifo_three : ∃ m : BoundedMap ℕ String, BoundedMap.new 2 = some m ∧
    Fifo m 2 [.set 1 "a", .set 2 "b", .delete 1, .set 1 "c", .set 2 "d"] :=
  ⟨⟨2, [], by decide, List.nodup_nil⟩, rfl, boundedMap_fifo rfl _⟩

end BoundedMap

end FogoYield.Cranker
