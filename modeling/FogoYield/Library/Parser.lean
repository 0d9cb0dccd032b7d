import Mathlib.Data.List.Infix
import FogoYield.Library.Bytes

/-! # Parsers of byte strings

A parser reads a prefix of its input and returns what it read and the rest. -/

namespace FogoYield.Library

abbrev Parser (α : Type) := StateT Bytes Option α

namespace Parser

variable {α β : Type}

/-- The literal `t`. -/
def tag (t : Bytes) : Parser Unit := fun input =>
  if t.isPrefixOf input then some ((), input.drop t.length) else none

def newline : UInt8 := 10
def carriageReturn : UInt8 := 13

/-- `\n` or `\r\n`. -/
def lineEnding : Parser Unit := fun input =>
  match input with
  | b :: rest =>
    if b = newline then some ((), rest)
    else if b = carriageReturn then
      match rest with
      | c :: rest => if c = newline then some ((), rest) else none
      | [] => none
    else none
  | [] => none

def eof : Parser Unit := fun input => if input = [] then some ((), []) else none

/-- What `p` read has to satisfy `c`. -/
def verify (p : Parser α) (c : α → Bool) : Parser α := fun input =>
  match p input with
  | some (a, rest) => if c a then some (a, rest) else none
  | none => none

/-- The first of two parsers that succeeds. -/
def alt (p q : Parser α) : Parser α := fun input =>
  match p input with
  | some r => some r
  | none => q input

/-! ## Inversion -/

theorem bind_eq_some {p : Parser α} {f : α → Parser β} {input : Bytes} {r : β × Bytes} :
    (p >>= f) input = some r ↔ ∃ a rest, p input = some (a, rest) ∧ f a rest = some r := by
  change (p input).bind (fun x => f x.1 x.2) = some r ↔ _
  rw [Option.bind_eq_some_iff]
  constructor
  · rintro ⟨⟨a, rest⟩, hp, hf⟩
    exact ⟨a, rest, hp, hf⟩
  · rintro ⟨a, rest, hp, hf⟩
    exact ⟨(a, rest), hp, hf⟩

theorem pure_eq_some {a : α} {input : Bytes} {r : α × Bytes} :
    (pure a : Parser α) input = some r ↔ (a, input) = r := by
  change some (a, input) = some r ↔ _
  exact Option.some_inj

theorem tag_eq_some {t input rest : Bytes} {u : Unit} :
    tag t input = some (u, rest) ↔ input = t ++ rest := by
  unfold tag
  constructor
  · intro h
    split at h
    · rename_i hp
      obtain ⟨s, rfl⟩ := List.isPrefixOf_iff_prefix.mp hp
      simp_all
    · cases h
  · rintro rfl
    simp

/-- A line ending in the input, as a parser and as the bytes it reads. -/
def IsLineEnding (ending : Bytes) : Prop :=
  ending = [newline] ∨ ending = [carriageReturn, newline]

theorem lineEnding_eq_some {input rest : Bytes} {u : Unit} :
    lineEnding input = some (u, rest) ↔ ∃ ending, IsLineEnding ending ∧ input = ending ++ rest := by
  constructor
  · intro h
    unfold lineEnding at h
    split at h
    · rename_i b tail
      split at h
      · rename_i hb
        obtain ⟨-, rfl⟩ := Prod.mk.inj (Option.some.inj h)
        exact ⟨[newline], .inl rfl, by rw [hb]; rfl⟩
      · split at h
        · rename_i hb
          split at h
          · rename_i c tail'
            split at h
            · rename_i hc
              obtain ⟨-, rfl⟩ := Prod.mk.inj (Option.some.inj h)
              exact ⟨[carriageReturn, newline], .inr rfl, by rw [hb, hc]; rfl⟩
            · cases h
          · cases h
        · cases h
    · cases h
  · rintro ⟨ending, rfl | rfl, rfl⟩ <;> rfl

theorem isLineEnding_cancel {ending ending' rest rest' : Bytes} (h : IsLineEnding ending)
    (h' : IsLineEnding ending') (heq : ending ++ rest = ending' ++ rest') : rest = rest' := by
  rcases h with rfl | rfl <;> rcases h' with rfl | rfl <;>
    simp_all [newline, carriageReturn]

theorem eof_eq_some {input rest : Bytes} {u : Unit} :
    eof input = some (u, rest) ↔ input = [] ∧ rest = [] := by
  unfold eof
  split <;> simp_all [eq_comm]

theorem verify_eq_some {p : Parser α} {c : α → Bool} {input rest : Bytes} {a : α} :
    verify p c input = some (a, rest) ↔ p input = some (a, rest) ∧ c a = true := by
  unfold verify
  split
  · rename_i b tail hp
    rw [hp]
    by_cases hc : c b = true
    · simp only [hc, if_true, Option.some.injEq, Prod.mk.injEq]
      constructor
      · rintro ⟨rfl, rfl⟩
        exact ⟨⟨rfl, rfl⟩, hc⟩
      · exact And.left
    · simp only [hc, if_false, Option.some.injEq, Prod.mk.injEq, reduceCtorEq, false_iff]
      rintro ⟨⟨rfl, rfl⟩, h⟩
      exact hc h
  · simp_all

theorem alt_eq_some {p q : Parser α} {input : Bytes} {r : α × Bytes} :
    alt p q input = some r ↔ p input = some r ∨ p input = none ∧ q input = some r := by
  unfold alt
  cases p input <;> simp

end Parser

end FogoYield.Library
