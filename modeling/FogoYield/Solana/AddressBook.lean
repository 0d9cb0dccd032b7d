import Mathlib.Data.Nat.Pairing
import Mathlib.Logic.Encodable.Basic
import Mathlib.Logic.Equiv.List
import FogoYield.Solana.Laws

/-! # Address derivation from a book

A finite book of known derivations determines an address derivation for all seeds: what the book
does not list gets a key longer than any listed one, injectively. Such a derivation obeys the
address laws. -/

namespace FogoYield.Solana

open FogoYield.Library

/-- One derived address: the address and canonical bump of some seeds under a program. -/
structure Derivation where
  seeds : List Bytes
  program : Pubkey
  key : Pubkey
  bump : UInt8
  deriving DecidableEq

/-- No two entries of a book agree on what they derive from, or on the address. -/
structure AddressBook where
  entries : List Derivation
  input_inj : ∀ e ∈ entries, ∀ e' ∈ entries,
    e.seeds = e'.seeds → e.program = e'.program → e = e'
  key_inj : ∀ e ∈ entries, ∀ e' ∈ entries, e.key = e'.key → e = e'
  length_eq : ∀ e ∈ entries, e.key.bytes.length = 32

/-- Seeds and program as one number. -/
def addressCode (seeds : List Bytes) (p : Pubkey) : ℕ :=
  Encodable.encode (seeds.map (·.map UInt8.toNat), p.bytes.map UInt8.toNat)

/-- The address of seeds that are not in the book. -/
def longAddress (seeds : List Bytes) (p : Pubkey) : Pubkey :=
  ⟨List.replicate (33 + addressCode seeds p) 0⟩

theorem map_toNat_inj {b b' : Bytes} (h : b.map UInt8.toNat = b'.map UInt8.toNat) : b = b' :=
  List.map_injective_iff.mpr (fun _ _ => UInt8.toNat_inj.mp) h

theorem longAddress_inj {s s' : List Bytes} {p p' : Pubkey}
    (h : longAddress s p = longAddress s' p') : s = s' ∧ p = p' := by
  have hlen := congrArg (List.length ∘ Pubkey.bytes) h
  simp only [longAddress, Function.comp, List.length_replicate, Nat.add_left_cancel_iff] at hlen
  obtain ⟨hs, hp⟩ := Prod.mk.inj (Encodable.encode_injective hlen)
  refine ⟨List.map_injective_iff.mpr (fun _ _ => map_toNat_inj) hs, ?_⟩
  cases p
  cases p'
  exact congrArg Pubkey.mk (map_toNat_inj hp)

def AddressBook.find (b : AddressBook) (seeds : List Bytes) (p : Pubkey) : Pubkey × UInt8 :=
  match b.entries.find? (fun e => e.seeds = seeds ∧ e.program = p) with
  | some e => (e.key, e.bump)
  | none => (longAddress (seeds ++ [[255]]) p, 255)

def AddressBook.create (b : AddressBook) (seeds : List Bytes) (p : Pubkey) : Option Pubkey :=
  match b.entries.find? (fun e => e.seeds ++ [[e.bump]] = seeds ∧ e.program = p) with
  | some e => some e.key
  | none => some (longAddress seeds p)

/-- An address is made from an entry of the book or is a long one. -/
theorem AddressBook.create_cases {b : AddressBook} {seeds : List Bytes} {p k : Pubkey}
    (h : b.create seeds p = some k) :
    (∃ e ∈ b.entries, e.seeds ++ [[e.bump]] = seeds ∧ e.program = p ∧ e.key = k) ∨
      longAddress seeds p = k := by
  unfold AddressBook.create at h
  split at h
  · rename_i e he
    have hprop := List.find?_some he
    rw [decide_eq_true_eq] at hprop
    exact .inl ⟨e, List.mem_of_find?_eq_some he, hprop.1, hprop.2, Option.some.inj h⟩
  · exact .inr (Option.some.inj h)

theorem AddressBook.key_ne_long (b : AddressBook) {e : Derivation} (he : e ∈ b.entries)
    (seeds : List Bytes) (p : Pubkey) : e.key ≠ longAddress seeds p := by
  intro heq
  have hlen := congrArg (List.length ∘ Pubkey.bytes) heq
  simp only [Function.comp, b.length_eq e he, longAddress, List.length_replicate] at hlen
  omega

theorem AddressBook.create_inj (b : AddressBook) {s s' : List Bytes} {p p' k : Pubkey}
    (h : b.create s p = some k) (h' : b.create s' p' = some k) : s = s' ∧ p = p' := by
  rcases AddressBook.create_cases h with ⟨e, he, hs, hp, hk⟩ | hlong
  · rcases AddressBook.create_cases h' with ⟨e', he', hs', hp', hk'⟩ | hlong'
    · obtain rfl := b.key_inj e he e' he' (hk.trans hk'.symm)
      exact ⟨hs.symm.trans hs', hp.symm.trans hp'⟩
    · exact absurd (hk.trans hlong'.symm) (b.key_ne_long he s' p')
  · rcases AddressBook.create_cases h' with ⟨e', he', hs', hp', hk'⟩ | hlong'
    · exact absurd (hk'.trans hlong.symm) (b.key_ne_long he' s p)
    · exact longAddress_inj (hlong.trans hlong'.symm)

theorem AddressBook.create_find (b : AddressBook) (s : List Bytes) (p : Pubkey) :
    b.create (s ++ [[(b.find s p).2]]) p = some (b.find s p).1 := by
  cases hf : b.entries.find? (fun e => e.seeds = s ∧ e.program = p) with
  | some e =>
      have hprop := List.find?_some hf
      rw [decide_eq_true_eq] at hprop
      have hfind : b.find s p = (e.key, e.bump) := by simp only [AddressBook.find, hf]
      rw [hfind]
      -- the entry is found again, since no other has its seeds
      have hsome : (b.entries.find? (fun e' => e'.seeds ++ [[e'.bump]] = s ++ [[e.bump]] ∧
          e'.program = p)).isSome := by
        rw [List.find?_isSome]
        exact ⟨e, List.mem_of_find?_eq_some hf, by simp [hprop]⟩
      obtain ⟨e', he'⟩ := Option.isSome_iff_exists.mp hsome
      have hprop' := List.find?_some he'
      rw [decide_eq_true_eq] at hprop'
      have hsame : e' = e := b.input_inj e' (List.mem_of_find?_eq_some he') e
        (List.mem_of_find?_eq_some hf) ((List.append_inj' hprop'.1 rfl).1.trans hprop.1.symm)
        (hprop'.2.trans hprop.2.symm)
      simp only [AddressBook.create, he', hsame]
  | none =>
      have hfind : b.find s p = (longAddress (s ++ [[255]]) p, 255) := by
        simp only [AddressBook.find, hf]
      rw [hfind]
      have hnone : b.entries.find? (fun e => e.seeds ++ [[e.bump]] = s ++ [[255]] ∧
          e.program = p) = none := by
        rw [List.find?_eq_none] at hf ⊢
        intro e he
        have hnot := hf e he
        simp only [decide_eq_true_eq] at hnot ⊢
        rintro ⟨hs, hp⟩
        exact hnot ⟨(List.append_inj' hs rfl).1, hp⟩
      simp only [AddressBook.create, hnone]

/-- The address laws hold of the derivation a book determines. -/
theorem AddressBook.laws {δ : Type} (b : AddressBook) {rt : Runtime δ}
    (hfind : rt.findProgramAddress = b.find) (hcreate : rt.createProgramAddress = b.create) :
    rt.AddressLaws where
  create_find s p := by
    rw [hfind, hcreate]
    exact b.create_find s p
  create_program h h' := by
    rw [hcreate] at h h'
    exact (b.create_inj h h').2
  create_inj _ _ _ h h' := by
    rw [hcreate] at h h'
    exact (b.create_inj h h').1

end FogoYield.Solana
