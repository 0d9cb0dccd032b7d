import Mathlib.Algebra.Order.BigOperators.Group.List
import FogoYield.Library.Parser
import FogoYield.Library.Utf8

/-! # Text in lines

Chunks joined by a separator that none of them contains are determined by the joined text. -/

namespace FogoYield.Library

/-! ## Joined chunks -/

section Join

variable {α : Type} [DecidableEq α]

theorem count_intercalate (a : α) {chunks : List (List α)} (h : chunks ≠ []) :
    ([a].intercalate chunks).count a + 1 = (chunks.map (List.count a)).sum + chunks.length := by
  induction chunks with
  | nil => exact absurd rfl h
  | cons chunk chunks ih =>
      cases chunks with
      | nil => simp
      | cons next chunks =>
          have ih := ih (List.cons_ne_nil _ _)
          rw [List.intercalate_cons_cons]
          simp only [List.count_append, List.count_singleton_self, List.map_cons, List.sum_cons,
            List.length_cons] at ih ⊢
          omega

/-- Two texts of as many chunks, one of them cut at every separator, have the same chunks. -/
theorem intercalate_inj {a : α} {chunks chunks' : List (List α)} (h : ∀ c ∈ chunks, a ∉ c)
    (hlen : chunks.length = chunks'.length)
    (heq : [a].intercalate chunks = [a].intercalate chunks') : chunks = chunks' := by
  cases chunks with
  | nil => exact (List.length_eq_zero_iff.mp hlen.symm).symm
  | cons chunk chunks =>
      have hne : chunks' ≠ [] := by
        rintro rfl
        cases hlen
      have hcount := count_intercalate a (List.cons_ne_nil chunk chunks)
      have hzero : ((chunk :: chunks).map (List.count a)).sum = 0 := by
        apply List.sum_eq_zero
        intro n hn
        obtain ⟨c, hc, rfl⟩ := List.mem_map.mp hn
        exact List.count_eq_zero.mpr (h c hc)
      have hcount' := count_intercalate a hne
      have hfree : ∀ c ∈ chunks', a ∉ c := by
        intro c hc
        have hle : c.count a ≤ (chunks'.map (List.count a)).sum :=
          List.single_le_sum (by simp) _ (List.mem_map_of_mem hc)
        rw [heq] at hcount
        exact List.count_eq_zero.mp (by omega)
      rw [← List.splitOn_intercalate a h (List.cons_ne_nil _ _), heq,
        List.splitOn_intercalate a hfree hne]

omit [DecidableEq α] in
/-- What stands in front of the first separator is determined. -/
theorem append_cons_cancel {a : α} {x y r r' : List α} (hx : a ∉ x) (hy : a ∉ y)
    (h : x ++ a :: r = y ++ a :: r') : x = y ∧ r = r' := by
  induction x generalizing y with
  | nil =>
      cases y with
      | nil => exact ⟨rfl, (List.cons.inj h).2⟩
      | cons b y => exact absurd ((List.cons.inj h).1 ▸ List.mem_cons_self) hy
  | cons c x ih =>
      obtain ⟨hc, hx⟩ := not_or.mp (mt List.mem_cons.mpr hx)
      cases y with
      | nil => exact absurd (List.cons.inj h).1.symm hc
      | cons b y =>
          obtain ⟨rfl, htail⟩ := List.cons.inj h
          obtain ⟨rfl, hrest⟩ := ih hx (fun hmem => hy (List.mem_cons_of_mem _ hmem)) htail
          exact ⟨rfl, hrest⟩

/-- Lines behind separators are what the separators cut a text into. -/
theorem splitOn_lines {a : α} {first : List α} {lines : List (List α)} (hfirst : a ∉ first)
    (h : ∀ line ∈ lines, a ∉ line) :
    (first ++ lines.flatMap (a :: ·)).splitOn a = first :: lines := by
  induction lines generalizing first with
  | nil => simp [List.splitOn_eq_singleton hfirst]
  | cons line lines ih =>
      have ih := ih (h line (List.mem_cons_self ..))
        (fun l hl => h l (List.mem_cons_of_mem _ hl))
      rw [List.flatMap_cons, List.cons_append, List.splitOn_append_cons_self_of_not_mem hfirst, ih]

theorem not_mem_of_mem_splitOn {a : α} {text line : List α} (h : line ∈ text.splitOn a) :
    a ∉ line := by
  induction text generalizing line with
  | nil =>
      rw [List.splitOn_nil, List.mem_singleton] at h
      simp [h]
  | cons x text ih =>
      obtain ⟨first, lines, hlines⟩ := List.exists_cons_of_ne_nil (List.splitOn_ne_nil a text)
      rw [List.splitOn_cons_eq_if_modifyHead, hlines] at h
      rw [hlines] at ih
      split at h
      · rcases List.mem_cons.mp h with rfl | h
        · exact List.not_mem_nil
        · exact ih h
      · rename_i hx
        rcases List.mem_cons.mp h with rfl | h
        · have hfirst := ih (List.mem_cons_self ..)
          rw [beq_iff_eq] at hx
          simpa [Ne.symm hx] using hfirst
        · exact ih (List.mem_cons_of_mem _ h)

/-- A text is its lines, each behind a separator. -/
theorem flatMap_splitOn (a : α) (text : List α) :
    (text.splitOn a).flatMap (a :: ·) = a :: text := by
  induction text with
  | nil => simp
  | cons x text ih =>
      obtain ⟨first, lines, hlines⟩ := List.exists_cons_of_ne_nil (List.splitOn_ne_nil a text)
      rw [hlines, List.flatMap_cons, List.cons_append, List.cons.injEq] at ih
      rw [List.splitOn_cons_eq_if_modifyHead, hlines]
      split
      · rename_i hx
        rw [beq_iff_eq.mp hx, List.flatMap_cons, List.flatMap_cons, ← ih.2]
        simp
      · rw [List.modifyHead_cons, List.flatMap_cons, ← ih.2]
        simp

/-- A line that stands between separators is one of the lines. -/
theorem mem_splitOn {a : α} {line : List α} (h : a ∉ line) (before after : List α) :
    line ∈ (before ++ a :: (line ++ a :: after)).splitOn a := by
  rw [List.splitOn_append_cons_self, List.splitOn_append_cons_self_of_not_mem h]
  exact List.mem_append_right _ (List.mem_cons_self ..)

end Join

/-! ## Lines of encoded text -/

/-- The ASCII bytes of an encoded text are its ASCII characters. -/
theorem mem_utf8_ascii {s : String} {c : Char} (hc : c.toNat < 128) :
    UInt8.ofNat c.toNat ∈ utf8 s ↔ c ∈ s.toList := by
  have hbyte : (UInt8.ofNat c.toNat).toNat = c.toNat := by
    rw [UInt8.toNat_ofNat', Nat.mod_eq_of_lt (by omega)]
  rw [utf8, List.mem_flatMap]
  constructor
  · rintro ⟨d, hd, hmem⟩
    have hdc := (utf8EncodeChar_ascii hmem (by omega)).trans hbyte
    rwa [← Char.toNat_inj.mp hdc]
  · intro h
    refine ⟨c, h, ?_⟩
    rw [utf8EncodeChar_of_ascii hc]
    exact List.mem_singleton_self _

theorem utf8_intercalate (s : String) (lines : List String) :
    utf8 (s.intercalate lines) = (utf8 s).intercalate (lines.map utf8) := by
  induction lines with
  | nil => simp [utf8]
  | cons line lines ih =>
      cases lines with
      | nil => simp
      | cons next lines =>
          rw [String.intercalate_cons_cons, utf8_append, utf8_append, ih]
          simp

/-! ## Lines of decoded text -/

theorem decode_newline (l r : Bytes) : lossyDecode none (l ++ Parser.newline :: r) =
    lossyDecode none l ++ '\n' :: lossyDecode none r :=
  lossyDecode_append_ascii none l r (by decide)

theorem decode_lines (first : Bytes) (lines : List Bytes) :
    lossyDecode none (first ++ lines.flatMap (Parser.newline :: ·)) =
      lossyDecode none first ++ (lines.map (lossyDecode none)).flatMap ('\n' :: ·) := by
  induction lines generalizing first with
  | nil => simp
  | cons line lines ih =>
      rw [List.flatMap_cons, List.cons_append, decode_newline, ih]
      simp

theorem newline_notMem_decode {line : Bytes} (h : Parser.newline ∉ line) :
    '\n' ∉ lossyDecode none line := by
  intro hmem
  obtain ⟨b, hb, heq⟩ := lossyDecode_mem hmem (by decide) (by decide)
  have hnewline : Parser.newline = b := UInt8.toNat_inj.mp heq
  exact h (hnewline ▸ hb)

end FogoYield.Library
