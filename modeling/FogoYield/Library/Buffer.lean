import Mathlib.Data.List.Basic

/-! # Writing into a buffer

A write replaces as many entries as it brings. What is read where it was written is what was
written, and what is read beside it is what was there before. A row of blocks of one width is read
block by block. -/

namespace FogoYield.Library

variable {α : Type*} {data bs cs : List α} {offset n : ℕ}

/-- Replace the entries from `offset` on by those of `bs`. -/
def overwrite (data : List α) (offset : ℕ) (bs : List α) : List α :=
  data.take offset ++ bs ++ data.drop (offset + bs.length)

theorem overwrite_nil (data : List α) (offset : ℕ) : overwrite data offset [] = data := by
  simp [overwrite]

theorem overwrite_length (h : offset + bs.length ≤ data.length) :
    (overwrite data offset bs).length = data.length := by
  simp only [overwrite, List.length_append, List.length_take, List.length_drop]
  omega

theorem length_take_append (h : offset ≤ data.length) :
    (data.take offset ++ bs).length = offset + bs.length := by
  rw [List.length_append, List.length_take_of_le h]

theorem overwrite_append_of_le (h : offset + bs.length ≤ data.length) (back : List α) :
    overwrite (data ++ back) offset bs = overwrite data offset bs ++ back := by
  rw [overwrite, overwrite, List.take_append_of_le_length (by omega),
    List.drop_append_of_le_length h, ← List.append_assoc]

/-- A write into room of its own length. -/
theorem overwrite_room {front room : List α} (hoffset : front.length = offset)
    (hroom : room.length = bs.length) (back : List α) :
    overwrite (front ++ room ++ back) offset bs = front ++ bs ++ back := by
  have hlen : offset + bs.length = (front ++ room).length := by
    rw [List.length_append, hoffset, hroom]
  rw [overwrite, hlen, List.drop_left, List.append_assoc front room back, ← hoffset,
    List.take_left]

/-- Two writes, the second behind the first, are one write. -/
theorem overwrite_overwrite (h : offset + bs.length ≤ data.length) :
    overwrite (overwrite data offset bs) (offset + bs.length) cs =
      overwrite data offset (bs ++ cs) := by
  have hfront : (data.take offset ++ bs).length = offset + bs.length :=
    length_take_append (Nat.le_of_add_right_le h)
  have htake : (overwrite data offset bs).take (offset + bs.length) = data.take offset ++ bs := by
    rw [overwrite, List.take_left' hfront]
  have hdrop : (overwrite data offset bs).drop (offset + bs.length + cs.length) =
      data.drop (offset + bs.length + cs.length) := by
    rw [overwrite, ← List.drop_drop, List.drop_left' hfront, List.drop_drop]
  unfold overwrite at htake hdrop ⊢
  rw [htake, hdrop, List.length_append, Nat.add_assoc, List.append_assoc (data.take offset)]

theorem take_drop_overwrite (h : offset ≤ data.length) :
    ((overwrite data offset bs).drop offset).take bs.length = bs := by
  have hfront : (data.take offset).length = offset := List.length_take_of_le h
  rw [overwrite, List.append_assoc, List.drop_left' hfront, List.take_left]

theorem take_drop_overwrite_of_disjoint {offset' : ℕ} (h : offset + bs.length ≤ data.length)
    (hdisjoint : offset' + n ≤ offset ∨ offset + bs.length ≤ offset') :
    ((overwrite data offset bs).drop offset').take n = (data.drop offset').take n := by
  rcases hdisjoint with hbefore | hbehind
  · rw [List.take_drop, List.take_drop, overwrite, List.append_assoc,
      List.take_append_of_le_length (by rw [List.length_take]; omega), List.take_take,
      Nat.min_eq_left hbefore]
  · have hfront : (data.take offset ++ bs).length = offset + bs.length :=
      length_take_append (Nat.le_of_add_right_le h)
    obtain ⟨k, rfl⟩ := Nat.exists_eq_add_of_le hbehind
    rw [overwrite, ← List.drop_drop, List.drop_left' hfront, List.drop_drop]

/-- A part of a part. -/
theorem take_drop_take_drop {size i : ℕ} (h : i + n ≤ size) :
    (((data.drop offset).take size).drop i).take n = (data.drop (offset + i)).take n := by
  rw [List.drop_take, List.drop_drop, List.take_take, Nat.min_eq_left (by omega)]

/-! ## Several writes -/

/-- One write after the other, each an offset and what is written there. -/
def overwriteAll (data : List α) (writes : List (ℕ × List α)) : List α :=
  writes.foldl (fun data write => overwrite data write.1 write.2) data

/-- Writes to the front of the data leave the rest alone. -/
theorem overwriteAll_append_of_le {writes : List (ℕ × List α)} {front : List α}
    (h : ∀ write ∈ writes, write.1 + write.2.length ≤ front.length) (back : List α) :
    overwriteAll (front ++ back) writes = overwriteAll front writes ++ back := by
  induction writes generalizing front with
  | nil => rfl
  | cons write writes ih =>
      have hwrite := h write (List.mem_cons_self ..)
      have hrest : ∀ w ∈ writes, w.1 + w.2.length ≤ (overwrite front write.1 write.2).length := by
        intro w hw
        rw [overwrite_length hwrite]
        exact h w (List.mem_cons_of_mem _ hw)
      change overwriteAll (overwrite (front ++ back) write.1 write.2) writes = _
      rw [overwrite_append_of_le hwrite, ih hrest]
      rfl

/-! ## Blocks of one width -/

variable {β : Type*} {f : β → List α} {width : ℕ}

theorem length_flatMap_of_width (hf : ∀ x, (f x).length = width) (l : List β) :
    (l.flatMap f).length = width * l.length := by
  induction l with
  | nil => rfl
  | cons x l ih =>
      rw [List.flatMap_cons, List.length_append, hf, ih, List.length_cons, Nat.mul_succ,
        Nat.add_comm]

theorem take_drop_flatMap (hf : ∀ x, (f x).length = width) {l : List β} {k : ℕ} {x : β}
    (h : l[k]? = some x) : ((l.flatMap f).drop (width * k)).take width = f x := by
  induction l generalizing k with
  | nil => simp at h
  | cons y l ih =>
      rw [List.flatMap_cons]
      cases k with
      | zero =>
          obtain rfl : y = x := by simpa using h
          rw [Nat.mul_zero, List.drop_zero, List.take_left' (hf y)]
      | succ k =>
          rw [Nat.mul_succ, Nat.add_comm, ← List.drop_drop, List.drop_left' (hf y)]
          exact ih (by simpa using h)

end FogoYield.Library
