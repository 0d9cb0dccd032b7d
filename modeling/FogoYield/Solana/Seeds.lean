import Mathlib.Data.List.Forall2
import FogoYield.Solana.Account

/-! # Seeds of derived addresses

The address hash reads the seeds one behind the other, without delimiters. Programs put them
together from parts of known widths, which tells most of them apart. -/

namespace FogoYield.Solana

open FogoYield.Library

/-- What a seed is made of: a fixed text, a key or a hash, or a number of some width. -/
inductive SeedKind where
  | text (bs : Bytes)
  | word
  | number (n : ℕ)

/-- How many bytes a seed takes on a chain, whose keys and hashes have 32. -/
def SeedKind.width : SeedKind → ℕ
  | .text bs => bs.length
  | .word => 32
  | .number n => n

/-- A seed of the kind, for keys and hashes of any length. -/
def SeedKind.Fits : SeedKind → Bytes → Prop
  | .text bs, b => b = bs
  | .word, _ => True
  | .number n, b => b.length = n

/-- Seeds of the shape, each of its kind. -/
def Fits (K : List SeedKind) (s : List Bytes) : Prop := List.Forall₂ SeedKind.Fits K s

/-- Seeds of the shape as they are on a chain. -/
def Sized (K : List SeedKind) (s : List Bytes) : Prop :=
  List.Forall₂ (fun kind b => kind.Fits b ∧ b.length = kind.width) K s

/-- On a chain, seeds of the two shapes differ in what the hash reads unless they are the same. -/
def Told (K K' : List SeedKind) : Prop :=
  ∀ s s', Sized K s → Sized K' s' → s.flatten = s'.flatten → s = s'

@[simp] theorem fits_nil : Fits [] [] := .nil

@[simp] theorem fits_cons {kind : SeedKind} {K : List SeedKind} {b : Bytes} {s : List Bytes} :
    Fits (kind :: K) (b :: s) ↔ kind.Fits b ∧ Fits K s := List.forall₂_cons

@[simp] theorem fits_text {bs b : Bytes} : (SeedKind.text bs).Fits b ↔ b = bs := .rfl

@[simp] theorem fits_word (b : Bytes) : SeedKind.word.Fits b := trivial

@[simp] theorem fits_number {n : ℕ} {b : Bytes} : (SeedKind.number n).Fits b ↔ b.length = n := .rfl

/-- What is known of seeds of which everything is known. -/
theorem fits_texts (s : List Bytes) : Fits (s.map .text) s := by
  induction s with
  | nil => exact .nil
  | cons b s ih => exact .cons rfl ih

theorem Fits.append {K K' : List SeedKind} {s s' : List Bytes} (h : Fits K s) (h' : Fits K' s') :
    Fits (K ++ K') (s ++ s') := List.rel_append h h'

/-! ## Which shapes are told apart -/

theorem Sized.length_flatten {K : List SeedKind} {s : List Bytes} (h : Sized K s) :
    s.flatten.length = (K.map SeedKind.width).sum := by
  induction h with
  | nil => rfl
  | cons hb _ ih => rw [List.flatten_cons, List.length_append, hb.2, ih, List.map_cons,
      List.sum_cons]

/-- Every shape is told from itself: its parts stand at the same places. -/
theorem told_self (K : List SeedKind) : Told K K := by
  intro s s' hs
  induction hs generalizing s' with
  | nil =>
      intro hs' _
      cases hs'
      rfl
  | cons hb _ ih =>
      intro hs' h
      cases hs' with
      | cons hb' hs' =>
          obtain ⟨rfl, hrest⟩ := List.append_inj h (hb.2.trans hb'.2.symm)
          rw [ih _ hs' hrest]

theorem told_of_width {K K' : List SeedKind}
    (h : (K.map SeedKind.width).sum ≠ (K'.map SeedKind.width).sum) : Told K K' := by
  intro s s' hs hs' heq
  refine absurd ?_ h
  rw [← hs.length_flatten, ← hs'.length_flatten, heq]

/-- Different texts in front of the same parts. -/
theorem told_of_text {bs bs' : Bytes} (h : bs ≠ bs') (K : List SeedKind) :
    Told (.text bs :: K) (.text bs' :: K) := by
  by_cases hlength : bs.length = bs'.length
  · rintro _ _ (_ | ⟨⟨rfl, -⟩, -⟩) (_ | ⟨⟨rfl, -⟩, -⟩) heq
    exact absurd (List.append_inj heq hlength).1 h
  · apply told_of_width
    simpa [SeedKind.width] using hlength

theorem Sized.snoc_inv {K : List SeedKind} {kind : SeedKind} {s : List Bytes}
    (h : Sized (K ++ [kind]) s) :
    ∃ t b, s = t ++ [b] ∧ Sized K t ∧ b.length = kind.width := by
  induction K generalizing s with
  | nil =>
      rcases h with _ | ⟨hb, hrest⟩
      cases hrest
      exact ⟨[], _, rfl, .nil, hb.2⟩
  | cons _ K ih =>
      rcases h with _ | ⟨hhead, hrest⟩
      obtain ⟨t, b, rfl, ht, hb⟩ := ih hrest
      exact ⟨_ :: t, b, rfl, .cons hhead ht, hb⟩

/-- The bump stands behind the seeds. -/
theorem Told.bump {K K' : List SeedKind} (h : Told K K') :
    Told (K ++ [.number 1]) (K' ++ [.number 1]) := by
  intro s s' hs hs' heq
  obtain ⟨t, b, rfl, ht, hb⟩ := hs.snoc_inv
  obtain ⟨t', b', rfl, ht', hb'⟩ := hs'.snoc_inv
  simp only [List.flatten_append, List.flatten_singleton] at heq
  obtain ⟨hseeds, rfl⟩ := List.append_inj' heq (hb.trans hb'.symm)
  rw [h t t' ht ht' hseeds]

end FogoYield.Solana
