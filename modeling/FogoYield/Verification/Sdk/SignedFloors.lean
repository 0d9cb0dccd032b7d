import Mathlib.Data.List.TakeWhile
import FogoYield.Library.Decimal
import FogoYield.Library.FirstOccurrences
import FogoYield.Library.Lines
import FogoYield.Model.Sdk.Intent

/-! # Scanning for signed floors

Where the scan of a message finds a floor: on the lines that begin with `min_out: `. -/

namespace FogoYield.Sdk

open FogoYield.Library

/-! ## The number -/

/-- What the capture group matches: a zero, or digits that do not begin with one. -/
def IsFloorNumeral (digits : List Char) : Prop := digits = ['0'] ∨ IsNumeral digits

theorem IsFloorNumeral.toDigits_eq {digits : List Char} (h : IsFloorNumeral digits) :
    Nat.toDigits 10 (Nat.ofDigitChars 10 digits 0) = digits := by
  rcases h with rfl | h
  · decide
  · exact h.toDigits_eq

theorem isFloorNumeral_toDigits (n : ℕ) : IsFloorNumeral (Nat.toDigits 10 n) := by
  by_cases h : n = 0
  · rw [h]
    exact .inl rfl
  · exact .inr (isNumeral_toDigits h)

theorem matchDigits_cons {c : Char} (hc : c ≠ '0') (text : List Char) :
    matchDigits (c :: text) = if c.isDigit then
      (matchLineEnd (text.dropWhile Char.isDigit)).map
        (fun behind => (c :: text.takeWhile Char.isDigit, behind)) else none := by
  simp [matchDigits]

/-- What ends a line does not continue a number. -/
theorem matchLineEnd_head {text behind : List Char} (h : matchLineEnd text = some behind) :
    text.takeWhile Char.isDigit = [] ∧ text.dropWhile Char.isDigit = text := by
  unfold matchLineEnd at h
  split at h
  · exact ⟨rfl, rfl⟩
  · exact ⟨rfl, rfl⟩
  · exact ⟨rfl, rfl⟩
  · cases h

/-- The digits that are found are those up to the end of the line. -/
theorem matchDigits_eq_some {text digits behind : List Char} :
    matchDigits text = some (digits, behind) ↔
      IsFloorNumeral digits ∧ ∃ rest, text = digits ++ rest ∧ matchLineEnd rest = some behind := by
  constructor
  · intro h
    cases text with
    | nil => cases h
    | cons c text =>
        by_cases hc : c = '0'
        · subst hc
          obtain ⟨b, hb, hpair⟩ := Option.map_eq_some_iff.mp h
          cases hpair
          exact ⟨.inl rfl, text, rfl, hb⟩
        · rw [matchDigits_cons hc] at h
          split at h
          · rename_i hdigit
            obtain ⟨b, hb, hpair⟩ := Option.map_eq_some_iff.mp h
            cases hpair
            refine ⟨.inr ⟨List.cons_ne_nil _ _, by simpa using hc, ?_⟩, _, ?_, hb⟩
            · intro d hd
              rcases List.mem_cons.mp hd with rfl | hd
              · exact hdigit
              · exact List.mem_takeWhile_imp hd
            · rw [List.cons_append, List.takeWhile_append_dropWhile]
          · cases h
  · rintro ⟨hnumeral, rest, rfl, hrest⟩
    rcases hnumeral with rfl | hnumeral
    · change (matchLineEnd rest).map _ = _
      rw [hrest]
      rfl
    · cases digits with
      | nil => exact absurd rfl hnumeral.ne_nil
      | cons c digits =>
          have hc : c ≠ '0' := by simpa using hnumeral.head_ne
          have hdigit : c.isDigit := hnumeral.isDigit c (List.mem_cons_self ..)
          have hdigits : ∀ d ∈ digits, d.isDigit := fun d hd =>
            hnumeral.isDigit d (List.mem_cons_of_mem _ hd)
          obtain ⟨htake, hdrop⟩ := matchLineEnd_head hrest
          rw [List.cons_append, matchDigits_cons hc, if_pos hdigit,
            List.takeWhile_append_of_pos hdigits, List.dropWhile_append_of_pos hdigits, htake,
            hdrop, hrest, List.append_nil]
          rfl

/-! ## One line -/

/-- A line without the carriage return of its ending. -/
def withoutReturn (line : List Char) : List Char :=
  if line.getLast? = some '\r' then line.dropLast else line

theorem withoutReturn_eq {line front : List Char} (h : '\r' ∉ front) :
    withoutReturn line = front ↔ line = front ∨ line = front ++ ['\r'] := by
  have h : front.getLast? ≠ some '\r' := fun hlast => h (List.mem_of_getLast? hlast)
  unfold withoutReturn
  split
  · rename_i hlast
    have hline : line.dropLast ++ ['\r'] = line := List.dropLast_append_getLast? _ hlast
    constructor
    · rintro rfl
      exact .inr hline.symm
    · rintro (rfl | rfl)
      · exact absurd hlast h
      · exact List.dropLast_concat
  · rename_i hlast
    constructor
    · exact .inl
    · rintro (rfl | rfl)
      · rfl
      · exact absurd List.getLast?_concat hlast

def minOutKey : List Char := "min_out: ".toList

/-- The floor a complete line states: the key and the canonical numeral of a number. -/
def lineFloor (line : List Char) : Option ℕ :=
  let n := Nat.ofDigitChars 10 (line.drop minOutKey.length) 0
  if line = minOutKey ++ Nat.toDigits 10 n then some n else none

theorem ofDigitChars_toDigits (n : ℕ) : Nat.ofDigitChars 10 (Nat.toDigits 10 n) 0 = n := by
  simp

theorem lineFloor_eq_some {line : List Char} {n : ℕ} :
    lineFloor line = some n ↔ line = minOutKey ++ Nat.toDigits 10 n := by
  rw [lineFloor, Option.ite_none_right_eq_some, Option.some.injEq]
  constructor
  · rintro ⟨hline, rfl⟩
    exact hline
  · rintro rfl
    rw [List.drop_left, ofDigitChars_toDigits]
    exact ⟨rfl, rfl⟩

theorem not_mem_minOut {c : Char} (hkey : c ∉ minOutKey) (hdigit : c.isDigit = false) (n : ℕ) :
    c ∉ minOutKey ++ Nat.toDigits 10 n := by
  intro hmem
  rcases List.mem_append.mp hmem with hmem | hmem
  · exact hkey hmem
  · have hc := Nat.isDigit_of_mem_toDigits (by decide) (by decide) hmem
    rw [hdigit] at hc
    cases hc

theorem matchLineEnd_line {line front rest behind : List Char} (hline : '\n' ∉ line)
    (hfront : '\n' ∉ front) (hreturn : '\r' ∉ front) :
    (∃ tail, line ++ '\n' :: rest = front ++ tail ∧ matchLineEnd tail = some behind) ↔
      withoutReturn line = front ∧ behind = rest := by
  rw [withoutReturn_eq hreturn]
  constructor
  · rintro ⟨tail, heq, htail⟩
    rcases List.append_eq_append_iff.mp heq with ⟨l, rfl, hl⟩ | ⟨l, rfl, rfl⟩
    · cases l with
      | nil =>
          rw [List.nil_append] at hl
          rw [← hl] at htail
          cases htail
          exact ⟨.inl (List.append_nil _).symm, rfl⟩
      | cons c l =>
          rw [List.cons_append, List.cons.injEq] at hl
          exact absurd (List.mem_append_right _ (hl.1 ▸ List.mem_cons_self ..)) hfront
    · have hl : '\n' ∉ l := fun hmem => hline (List.mem_append_right _ hmem)
      cases l with
      | nil =>
          cases htail
          exact ⟨.inl (List.append_nil _), rfl⟩
      | cons c l =>
          have hc : c ≠ '\n' := fun he => hl (he ▸ List.mem_cons_self ..)
          by_cases hcr : c = '\r'
          · subst hcr
            cases l with
            | nil =>
                cases htail
                exact ⟨.inr rfl, rfl⟩
            | cons d l =>
                have hd : d ≠ '\n' := fun he => hl (by simp [he])
                simp [matchLineEnd, hd] at htail
          · simp [matchLineEnd, hc, hcr] at htail
  · rintro ⟨rfl | rfl, rfl⟩
    · exact ⟨_, rfl, rfl⟩
    · exact ⟨'\r' :: '\n' :: behind, by simp, rfl⟩

theorem matchLineEnd_last {line front behind : List Char} (hline : '\n' ∉ line) :
    (∃ tail, line = front ++ tail ∧ matchLineEnd tail = some behind) ↔
      line = front ∧ behind = [] := by
  constructor
  · rintro ⟨tail, rfl, htail⟩
    have hfree : '\n' ∉ tail := fun hmem => hline (List.mem_append_right _ hmem)
    unfold matchLineEnd at htail
    split at htail
    · cases htail
      exact ⟨List.append_nil _, rfl⟩
    · exact absurd (List.mem_cons_self ..) hfree
    · exact absurd (List.mem_cons_of_mem _ (List.mem_cons_self ..)) hfree
    · cases htail
  · rintro ⟨rfl, rfl⟩
    exact ⟨[], (List.append_nil _).symm, rfl⟩

/-! ## The scan -/

theorem matchBody_eq_some {text digits behind : List Char} :
    matchBody text = some (digits, behind) ↔
      ∃ n, digits = Nat.toDigits 10 n ∧
        ∃ rest, text = minOutKey ++ Nat.toDigits 10 n ++ rest ∧
          matchLineEnd rest = some behind := by
  have hbody : matchBody text = (stripLiteral minOutKey text).bind matchDigits := rfl
  rw [hbody, Option.bind_eq_some_iff]
  constructor
  · rintro ⟨found, hstrip, hdigits⟩
    obtain ⟨hnumeral, rest, rfl, hrest⟩ := matchDigits_eq_some.mp hdigits
    obtain ⟨hkey, htext⟩ := Option.ite_none_right_eq_some.mp hstrip
    obtain ⟨behindKey, rfl⟩ := List.isPrefixOf_iff_prefix.mp hkey
    rw [List.drop_left] at htext
    cases htext
    refine ⟨_, hnumeral.toDigits_eq.symm, rest, ?_, hrest⟩
    rw [hnumeral.toDigits_eq, List.append_assoc]
  · rintro ⟨n, rfl, rest, rfl, hrest⟩
    refine ⟨Nat.toDigits 10 n ++ rest, ?_,
      matchDigits_eq_some.mpr ⟨isFloorNumeral_toDigits n, rest, rfl, hrest⟩⟩
    rw [List.append_assoc, stripLiteral,
      if_pos (List.isPrefixOf_iff_prefix.mpr (List.prefix_append _ _)), List.drop_left]

/-- A line that ends in the text matches exactly if it states a floor. -/
theorem matchBody_line {line : List Char} (h : '\n' ∉ line) (rest : List Char) :
    matchBody (line ++ '\n' :: rest) =
      (lineFloor (withoutReturn line)).map (fun n => (Nat.toDigits 10 n, rest)) := by
  apply Option.ext
  rintro ⟨digits, behind⟩
  have hline : ∀ n, (∃ tail, line ++ '\n' :: rest = minOutKey ++ Nat.toDigits 10 n ++ tail ∧
      matchLineEnd tail = some behind) ↔
      withoutReturn line = minOutKey ++ Nat.toDigits 10 n ∧ behind = rest := fun n =>
    matchLineEnd_line h (not_mem_minOut (by decide) (by decide) n)
      (not_mem_minOut (by decide) (by decide) n)
  simp only [matchBody_eq_some, hline, Option.map_eq_some_iff, lineFloor_eq_some, Prod.mk.injEq]
  constructor
  · rintro ⟨n, rfl, hfloor, rfl⟩
    exact ⟨n, hfloor, rfl, rfl⟩
  · rintro ⟨n, hfloor, rfl, rfl⟩
    exact ⟨n, rfl, hfloor, rfl⟩

theorem matchBody_last {line : List Char} (h : '\n' ∉ line) :
    matchBody line = (lineFloor line).map (fun n => (Nat.toDigits 10 n, [])) := by
  apply Option.ext
  rintro ⟨digits, behind⟩
  simp only [matchBody_eq_some, matchLineEnd_last h, Option.map_eq_some_iff, lineFloor_eq_some,
    Prod.mk.injEq]
  constructor
  · rintro ⟨n, rfl, hfloor, rfl⟩
    exact ⟨n, hfloor, rfl, rfl⟩
  · rintro ⟨n, hfloor, rfl, rfl⟩
    exact ⟨n, rfl, hfloor, rfl⟩

theorem matchAll_eq (atStart : Bool) (text : List Char) :
    matchAll atStart text = match matchMinOutLine atStart text with
      | some (digits, behind) => digits :: matchAll false behind
      | none => match text with
        | [] => []
        | _ :: rest => matchAll false rest := by
  rw [matchAll]
  split
  · rename_i hsome
    rw [hsome]
  · rename_i hnone
    cases text with
    | nil => simp [hnone]
    | cons c rest => simp [hnone]

theorem matchAll_nil : matchAll false [] = [] := by
  rw [matchAll]
  rfl

theorem matchAll_skip {line : List Char} (h : '\n' ∉ line) (rest : List Char) :
    matchAll false (line ++ rest) = matchAll false rest := by
  induction line with
  | nil => rfl
  | cons c line ih =>
      have hc : c ≠ '\n' := fun he => h (he ▸ List.mem_cons_self ..)
      have hnone : matchMinOutLine false (c :: (line ++ rest)) = none := by
        simp [matchMinOutLine, hc]
      rw [List.cons_append, matchAll_eq, hnone]
      exact ih (fun hmem => h (List.mem_cons_of_mem _ hmem))

theorem matchAll_newline (text : List Char) :
    matchAll false ('\n' :: text) = match matchBody text with
      | some (digits, behind) => digits :: matchAll false behind
      | none => matchAll false text := by
  have hbody : matchMinOutLine false ('\n' :: text) = matchBody text := by
    simp [matchMinOutLine]
  rw [matchAll_eq, hbody]

/-- The start of the text is the start of a line. -/
theorem matchAll_start (text : List Char) :
    matchAll true text = matchAll false ('\n' :: text) := by
  rw [matchAll_newline, matchAll_eq]
  cases hbody : matchBody text with
  | some found =>
      have hmatch : matchMinOutLine true text = some found := by
        simp [matchMinOutLine, hbody]
      rw [hmatch]
  | none =>
      have hmatch : matchMinOutLine true text = matchMinOutLine false text := by
        simp [matchMinOutLine, hbody]
      rw [hmatch, ← matchAll_eq]

/-- A text in complete lines. The last one has no ending that a carriage return could belong
to. -/
def completeLines : List (List Char) → List (List Char)
  | [] => []
  | [last] => [last]
  | line :: next :: rest => withoutReturn line :: completeLines (next :: rest)

/-- The floors of the lines, each with whether the scan finds it: a match takes the ending of its
line, so the line below it is not looked at. -/
def scanLines (below : Bool) : List (List Char) → List (Bool × ℕ)
  | [] => []
  | line :: lines =>
    match lineFloor line with
    | some n => (!below, n) :: scanLines (!below) lines
    | none => scanLines false lines

theorem completeLines_cons (line : List Char) (lines : List (List Char)) :
    ∃ content, completeLines (line :: lines) = content :: completeLines lines := by
  cases lines with
  | nil => exact ⟨line, rfl⟩
  | cons next lines => exact ⟨withoutReturn line, rfl⟩

/-- Nothing is found on the line below a match. -/
theorem marked_below (line : List Char) (lines : List (List Char)) :
    marked (scanLines true (completeLines (line :: lines))) =
      marked (scanLines false (completeLines lines)) := by
  obtain ⟨content, hcontent⟩ := completeLines_cons line lines
  rw [hcontent]
  cases hfloor : lineFloor content with
  | none => simp [scanLines, hfloor]
  | some n => simp [scanLines, hfloor]

/-- The scan of a text is the scan of its lines. -/
theorem matchAll_lines {lines : List (List Char)} (h : ∀ line ∈ lines, '\n' ∉ line) :
    matchAll false (lines.flatMap ('\n' :: ·)) =
      (marked (scanLines false (completeLines lines))).map (Nat.toDigits 10) := by
  induction lines using List.twoStepInduction with
  | nil => exact matchAll_nil
  | singleton line =>
      have hline := h line (List.mem_cons_self ..)
      have hskip : matchAll false line = [] := by
        rw [← List.append_nil line, matchAll_skip hline, matchAll_nil]
      rw [List.flatMap_singleton, matchAll_newline, matchBody_last hline]
      cases hfloor : lineFloor line with
      | none => simp [completeLines, scanLines, hfloor, hskip]
      | some n => simp [completeLines, scanLines, hfloor, matchAll_nil]
  | cons_cons line next rest ih ih' =>
      have hline := h line (List.mem_cons_self ..)
      have hnext := h next (List.mem_cons_of_mem _ (List.mem_cons_self ..))
      have hbehind : ∀ l ∈ next :: rest, '\n' ∉ l := fun l hl => h l (List.mem_cons_of_mem _ hl)
      have ih := ih (fun l hl => hbehind l (List.mem_cons_of_mem _ hl))
      have ih' := ih' next hbehind
      have htext : (line :: next :: rest).flatMap ('\n' :: ·) =
          '\n' :: (line ++ '\n' :: (next ++ rest.flatMap ('\n' :: ·))) := by simp
      have hlines : (next :: rest).flatMap ('\n' :: ·) =
          '\n' :: (next ++ rest.flatMap ('\n' :: ·)) := rfl
      rw [htext, matchAll_newline, matchBody_line hline, completeLines]
      cases hfloor : lineFloor (withoutReturn line) with
      | none =>
          simp only [Option.map_none, scanLines, hfloor]
          rw [matchAll_skip hline, ← hlines, ih']
      | some n =>
          simp only [Option.map_some, scanLines, hfloor, Bool.not_false]
          rw [matchAll_skip hnext, ih, marked_cons_true, marked_below, List.map_cons]

/-- The numerals found in a text. -/
theorem matchAll_text (text : List Char) :
    matchAll true text =
      (marked (scanLines false (completeLines (text.splitOn '\n')))).map (Nat.toDigits 10) := by
  rw [matchAll_start, ← flatMap_splitOn,
    matchAll_lines (fun _ hline => not_mem_of_mem_splitOn hline)]

/-! ## Lines without a floor -/

theorem scanLines_none {lines : List (List Char)} (h : ∀ line ∈ lines, lineFloor line = none)
    (below : Bool) : scanLines below lines = [] := by
  induction lines generalizing below with
  | nil => rfl
  | cons line lines ih =>
      have ih := ih (fun l hl => h l (List.mem_cons_of_mem _ hl))
      rw [scanLines, h line (List.mem_cons_self ..)]
      exact ih false

/-- Behind a line that states no floor the scan begins anew. -/
theorem scanLines_behind {line : List Char} (h : lineFloor line = none)
    (before after : List (List Char)) (below : Bool) :
    scanLines below (before ++ line :: after) = scanLines below before ++ scanLines false after := by
  induction before generalizing below with
  | nil => simp [scanLines, h]
  | cons l before ih =>
      rw [List.cons_append, scanLines, scanLines]
      cases lineFloor l with
      | none => exact ih false
      | some n => rw [List.cons_append, ← ih]

theorem completeLines_append (before : List (List Char)) {after : List (List Char)}
    (h : after ≠ []) :
    completeLines (before ++ after) = before.map withoutReturn ++ completeLines after := by
  induction before with
  | nil => rfl
  | cons line before ih =>
      obtain ⟨next, rest, hrest⟩ := List.exists_cons_of_ne_nil
        (List.append_ne_nil_of_right_ne_nil before h)
      rw [List.cons_append, hrest, completeLines, ← hrest, ih, List.map_cons, List.cons_append]

theorem lineFloor_of_head {line : List Char} (h : line.head? ≠ some 'm') :
    lineFloor line = none ∧ lineFloor (withoutReturn line) = none := by
  constructor <;> rw [Option.eq_none_iff_forall_ne_some] <;> intro n hfloor
  · exact h (lineFloor_eq_some.mp hfloor ▸ rfl)
  · rcases (withoutReturn_eq (not_mem_minOut (by decide) (by decide) n)).mp
      (lineFloor_eq_some.mp hfloor) with hline | hline
    · exact h (hline ▸ rfl)
    · exact h (hline ▸ rfl)

theorem lineFloor_completeLines {lines : List (List Char)}
    (h : ∀ line ∈ lines, line.head? ≠ some 'm') : ∀ line ∈ completeLines lines,
      lineFloor line = none := by
  induction lines with
  | nil => simp [completeLines]
  | cons line lines ih =>
      have hline := lineFloor_of_head (h line (List.mem_cons_self ..))
      have ih := ih (fun l hl => h l (List.mem_cons_of_mem _ hl))
      cases lines with
      | nil => simpa [completeLines] using hline.1
      | cons next rest => simpa [completeLines, hline.2] using ih

/-- Of a text with one line that begins with the key, the scan finds the floor on that line. -/
theorem mem_scanLines_single {before after : List (List Char)} {line : List Char} {n : ℕ}
    (hafter : after ≠ []) (h : ∀ l ∈ before ++ after, l.head? ≠ some 'm') :
    (true, n) ∈ scanLines false (completeLines (before ++ line :: after)) ↔
      lineFloor (withoutReturn line) = some n := by
  have hbehind : ∀ below, scanLines below (completeLines after) = [] :=
    scanLines_none (lineFloor_completeLines (fun l hl => h l (List.mem_append_right _ hl)))
  have hbefore : scanLines false (before.map withoutReturn ++ completeLines (line :: after)) =
      scanLines false (completeLines (line :: after)) := by
    have hnone : ∀ l ∈ before.map withoutReturn, lineFloor l = none := by
      intro l hl
      obtain ⟨l', hl', rfl⟩ := List.mem_map.mp hl
      exact (lineFloor_of_head (h l' (List.mem_append_left _ hl'))).2
    cases before using List.reverseRecOn with
    | nil => rfl
    | append_singleton front last =>
        rw [List.map_append] at hnone ⊢
        rw [List.map_singleton, List.append_assoc, List.singleton_append,
          scanLines_behind (hnone _ (by simp)),
          scanLines_none (fun l hl => hnone l (List.mem_append_left _ hl)), List.nil_append]
  obtain ⟨next, rest, rfl⟩ := List.exists_cons_of_ne_nil hafter
  rw [completeLines_append before (List.cons_ne_nil _ _), hbefore, completeLines, scanLines]
  cases lineFloor (withoutReturn line) with
  | none => simp [hbehind]
  | some k => simp [hbehind, eq_comm]

/-! ## The floors -/

theorem collectFloors_eq (numerals : List (List Char)) (floors : List ℕ) :
    collectFloors numerals floors = floors ++ fresh floors
      ((numerals.map (Nat.ofDigitChars 10 · 0)).filter (· ≤ u64Max)) := by
  induction numerals generalizing floors with
  | nil => simp [collectFloors]
  | cons digits numerals ih =>
      simp only [collectFloors, List.map_cons]
      split
      · rename_i h
        rw [ih, List.filter_cons_of_pos (by simpa using h.1), fresh_cons_new h.2]
        simp
      · rename_i h
        rw [ih, List.filter_cons]
        split
        · rename_i hle
          rw [fresh_cons_mem]
          by_contra hmem
          exact h ⟨by simpa using hle, hmem⟩
        · rfl

/-- The floors of a text line by line, those above `u64::MAX` aside. -/
def floorLines (text : List Char) : List (Bool × ℕ) :=
  (scanLines false (completeLines (text.splitOn '\n'))).filter (·.2 ≤ u64Max)

/-- The list that is read: the floors the scan finds, each once. -/
theorem parseSignedMinOuts_eq (message : Bytes) :
    parseSignedMinOuts message = (marked (floorLines (textDecode message))).eraseDups := by
  have hvalues : (Nat.ofDigitChars 10 · 0) ∘ Nat.toDigits 10 = id :=
    funext fun n => ofDigitChars_toDigits n
  rw [parseSignedMinOuts, collectFloors_eq, matchAll_text, List.map_map, hvalues, List.map_id,
    filter_marked, List.nil_append, fresh_none, floorLines]

theorem mem_parseSignedMinOuts_iff {message : Bytes} {n : ℕ} :
    n ∈ parseSignedMinOuts message ↔ n ≤ u64Max ∧
      (true, n) ∈ scanLines false (completeLines ((textDecode message).splitOn '\n')) := by
  rw [parseSignedMinOuts_eq, List.mem_eraseDups, mem_marked, floorLines, List.mem_filter, and_comm,
    decide_eq_true_iff]

end FogoYield.Sdk
