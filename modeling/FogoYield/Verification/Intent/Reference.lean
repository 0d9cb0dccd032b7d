import Mathlib.Data.List.TakeWhile
import FogoYield.Model.Intent.Reference

/-! # The reference line parser is lawful -/

namespace FogoYield.Intent

open FogoYield.Library
open FogoYield.Library.Parser (IsLineEnding newline carriageReturn bind_eq_some tag_eq_some)

theorem behindLine_ends {input rest : Bytes} (h : behindLine input = some rest) :
    ∃ ending, input = ending ++ rest ∧ EndsLine ending rest := by
  unfold behindLine at h
  split at h
  · cases h
    exact ⟨[], rfl, .inr ⟨rfl, rfl⟩⟩
  · rename_i b tail
    split at h
    · rename_i hb
      cases h
      exact ⟨[newline], by rw [hb]; rfl, .inl (.inl rfl)⟩
    · split at h
      · rename_i c tail'
        split at h
        · rename_i hbc
          cases h
          exact ⟨[carriageReturn, newline], by rw [hbc.1, hbc.2]; rfl, .inl (.inr rfl)⟩
        · cases h
      · cases h

theorem behindLine_of_ends {ending rest : Bytes} (h : EndsLine ending rest) :
    behindLine (ending ++ rest) = some rest := by
  rcases h with (rfl | rfl) | ⟨rfl, rfl⟩ <;> rfl

/-- A line ending is not part of a line. -/
theorem takeWhile_line {text ending rest : Bytes} (hline : newline ∉ text)
    (hcr : carriageReturn ∉ text) (h : EndsLine ending rest) :
    (text ++ ending ++ rest).takeWhile inLine = text ∧
      (text ++ ending ++ rest).dropWhile inLine = ending ++ rest := by
  have htext : ∀ b ∈ text, inLine b = true := by
    intro b hb
    rw [inLine, decide_eq_true_eq]
    exact ⟨fun he => hline (he ▸ hb), fun he => hcr (he ▸ hb)⟩
  have hends : (ending ++ rest).takeWhile inLine = [] ∧
      (ending ++ rest).dropWhile inLine = ending ++ rest := by
    rcases h with (rfl | rfl) | ⟨rfl, rfl⟩ <;> exact ⟨rfl, rfl⟩
  rw [List.append_assoc, List.takeWhile_append_of_pos htext, List.dropWhile_append_of_pos htext,
    hends.1, hends.2, List.append_nil]
  exact ⟨rfl, rfl⟩

theorem referenceIntents_lawful : referenceIntents.Lawful where
  reads := by
    intro α key convert input rest a h
    simp only [referenceIntents, referenceTagKeyValue, bind_eq_some, tag_eq_some] at h
    obtain ⟨-, tail, rfl, h⟩ := h
    simp only [Option.bind_eq_bind, Option.bind_eq_some_iff] at h
    obtain ⟨behind, hbehind, b, hconvert, heq⟩ := h
    obtain ⟨rfl, rfl⟩ := Prod.mk.inj (Option.some.inj heq)
    obtain ⟨ending, hending, hends⟩ := behindLine_ends hbehind
    refine ⟨tail.takeWhile inLine, ending, ?_, ?_, hends, hconvert⟩
    · rw [keyValue, List.append_assoc, List.append_assoc, ← hending,
        List.takeWhile_append_dropWhile]
    · intro hmem
      have hin := List.mem_takeWhile_imp hmem
      simp [inLine] at hin
  accepts := by
    intro α key convert text ending rest a _ hline hcr hends hconvert
    obtain ⟨htake, hdrop⟩ := takeWhile_line hline hcr hends
    simp only [referenceIntents, referenceTagKeyValue, bind_eq_some, tag_eq_some]
    refine ⟨(), text ++ ending ++ rest, by simp [keyValue], ?_⟩
    simp only [htake, hdrop, behindLine_of_ends hends, hconvert]
    rfl
  version := by decide +kernel
  symbolOrMint := by
    intro s _
    simp only [referenceIntents, referenceSymbolOrMintFromStr]
    split <;> rfl

end FogoYield.Intent
