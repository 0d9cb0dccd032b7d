import FogoYield.Solana.Base58
import FogoYield.Solana.Laws

/-! # The token rail of FOGO

What the token program and the system program of FOGO document beyond the instructions of `Token`:
closing an account, a transfer a session authorises, and a transfer of the native token. -/

namespace FogoYield.Solana

open FogoYield.Library

variable {δ : Type}

/-- The mint of wrapped native tokens, whose accounts can be closed with a balance. -/
def nativeMint : Pubkey := Pubkey.literal "So11111111111111111111111111111111111111112"

/-- An account that was closed: its lamports went to `dest` and the address is unused again. -/
structure ClosedSpec (k dest : Pubkey) (t : TokenAccount) (a a' : Accounts δ) : Prop where
  token : tokenAt a k = some t
  distinct : dest ≠ k
  empty : t.mint = nativeMint ∨ t.amount = 0
  closed : a' k = Account.absent
  credited : a' dest = { a dest with lamports := (a dest).lamports + (a k).lamports }
  others : ∀ j, j ≠ k → j ≠ dest → a' j = a j

/-- A transfer to another account, or one of an account to itself, which moves nothing. -/
inductive Moved (tp source mint dest : Pubkey) (amount : UInt64) (a a' : Accounts δ) : Prop where
  | between (s s' d : TokenAccount) (h : source ≠ dest)
      (spec : TransferSpec tp source mint dest amount a a' s s' d)
  | within (h : source = dest) (same : a' = a)

/-- The balance of every account after a transfer. -/
theorem Moved.balance_eq {tp source mint dest : Pubkey} {amount : UInt64} {a a' : Accounts δ}
    (h : Moved tp source mint dest amount a a') (k : Pubkey) :
    balance a' k + (if k = source then amount.toNat else 0) =
      balance a k + (if k = dest then amount.toNat else 0) := by
  cases h with
  | within h same =>
      subst h same
      rfl
  | between s s' d hne spec =>
      by_cases hs : k = source
      · subst hs
        rw [balance_of_tokenAt (spec.source_after hne), balance_of_tokenAt spec.source_at,
          if_pos rfl, if_neg hne, spec.debited, Nat.add_zero]
      · by_cases hd : k = dest
        · subst hd
          rw [balance_of_tokenAt spec.dest_after, balance_of_tokenAt spec.dest_at, if_neg hs,
            if_pos rfl, spec.credited, Nat.add_zero]
        · rw [balance_congr (spec.frame hs hd), if_neg hs, if_neg hd]

/-! ## Steps that move no tokens -/

/-- Every token account holds what it held. -/
def SameBalances (a a' : Accounts δ) : Prop := ∀ k, balance a' k = balance a k

theorem SameBalances.trans {a a₁ a₂ : Accounts δ} (h : SameBalances a a₁)
    (h' : SameBalances a₁ a₂) : SameBalances a a₂ :=
  fun k => (h' k).trans (h k)

theorem balance_of_none {a : Accounts δ} {k : Pubkey} (h : tokenAt a k = none) :
    balance a k = 0 := by
  simp [balance, h]

theorem SameData.balance {a a' : Accounts δ} {k : Pubkey} (h : SameData a a' k) :
    Solana.balance a' k = Solana.balance a k := by
  simp only [Solana.balance, h.tokenAt]

/-- A created account holds no tokens. -/
theorem CreateSpec.sameBalances {ε : Type} {k owner : Pubkey} {data : Data δ} {w w' : World δ ε}
    (h : CreateSpec k owner data w w') (hd : ∀ t, data = .token t → t.amount = 0) :
    SameBalances w.accounts w'.accounts := by
  intro j
  by_cases hj : j = k
  · subst hj
    rw [balance_of_none h.tokenAt_none]
    cases ht : tokenAt w'.accounts j with
    | none => exact balance_of_none ht
    | some t =>
        have hdata : data = .token t := h.data_eq.symm.trans (tokenAt_eq_some.mp ht).2
        rw [balance_of_tokenAt ht, hd t hdata]
        rfl
  · exact (h.others j hj).balance

/-- Closing an account moves no tokens of another one. -/
theorem ClosedSpec.balance_eq {k dest : Pubkey} {t : TokenAccount} {a a' : Accounts δ}
    (h : ClosedSpec k dest t a a') {j : Pubkey} (hj : j ≠ k) : balance a' j = balance a j := by
  by_cases hd : j = dest
  · subst hd
    apply SameData.balance
    simp [SameData, h.credited]
  · exact balance_congr (h.others j hj hd)

theorem setLamports_sameData (a : Accounts δ) (k : Pubkey) (n : ℕ) (j : Pubkey) :
    SameData a (setLamports a k n) j :=
  ⟨setLamports_owner a j k n, setLamports_data a j k n⟩

end FogoYield.Solana
