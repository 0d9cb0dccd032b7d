import FogoYield.Solana.Account

/-! # The token program

The three instructions the program under study issues itself, as the token program documents
them. Every other token instruction reaches the ledger only through the runtime. -/

namespace FogoYield.Solana

open FogoYield.Library

variable {δ : Type}

/-- Take `amount` out of `t`, signed by `authority`: through the delegation when `authority`
is the delegate, as the owner otherwise. -/
def TokenAccount.debit (t : TokenAccount) (authority : Pubkey) (amount : UInt64) :
    Option TokenAccount :=
  if t.delegate = some authority then
    if amount ≤ t.delegatedAmount then
      some { t with
        amount := t.amount - amount
        delegatedAmount := t.delegatedAmount - amount
        delegate := if t.delegatedAmount = amount then none else t.delegate }
    else none
  else if authority = t.owner then some { t with amount := t.amount - amount }
  else none

/-- The token account at `k` under token program `tp`. -/
def tokenOf (tp : Pubkey) (a : Accounts δ) (k : Pubkey) : Option TokenAccount :=
  if (a k).owner = tp then tokenAt a k else none

def transferChecked (tp source mint dest authority : Pubkey) (amount : UInt64) (decimals : UInt8)
    (a : Accounts δ) : Option (Accounts δ) := do
  let s ← tokenOf tp a source
  let d ← tokenOf tp a dest
  let m ← mintAt a mint
  guard (s.mint = mint ∧ d.mint = mint ∧ m.decimals = decimals ∧ amount ≤ s.amount)
  let s' ← s.debit authority amount
  if source = dest then
    some a
  else do
    guard (d.amount.toNat + amount.toNat < 2 ^ 64)
    some (setToken (setToken a source s') dest { d with amount := d.amount + amount })

def approve (tp source delegate owner : Pubkey) (amount : UInt64) (a : Accounts δ) :
    Option (Accounts δ) := do
  let s ← tokenOf tp a source
  guard (s.owner = owner)
  some (setToken a source { s with delegate := some delegate, delegatedAmount := amount })

def revoke (tp source owner : Pubkey) (a : Accounts δ) : Option (Accounts δ) := do
  let s ← tokenOf tp a source
  guard (s.owner = owner)
  some (setToken a source { s with delegate := none, delegatedAmount := 0 })

/-! ## Instruction encodings -/

def transferCheckedIx (tp source mint dest authority : Pubkey) (amount : UInt64)
    (decimals : UInt8) : Instruction where
  programId := tp
  accounts := [⟨source, false, true⟩, ⟨mint, false, false⟩, ⟨dest, false, true⟩,
    ⟨authority, true, false⟩]
  data := 12 :: (leBytes 8 amount.toNat ++ [decimals])

def approveIx (tp source delegate owner : Pubkey) (amount : UInt64) : Instruction where
  programId := tp
  accounts := [⟨source, false, true⟩, ⟨delegate, false, false⟩, ⟨owner, true, false⟩]
  data := 4 :: leBytes 8 amount.toNat

def revokeIx (tp source owner : Pubkey) : Instruction where
  programId := tp
  accounts := [⟨source, false, true⟩, ⟨owner, true, false⟩]
  data := [5]

/-! ## What an instruction can do to one token account -/

/-- `t` became `t'` without its owner's consent: the authorities are kept, and what left the
account was paid for out of a standing delegation. -/
structure TokenAccount.Guarded (t t' : TokenAccount) : Prop where
  mint : t'.mint = t.mint
  owner : t'.owner = t.owner
  closeAuthority : t'.closeAuthority = t.closeAuthority
  delegated : t'.delegatedAmount ≤ t.delegatedAmount
  covered : t.amount.toNat + t'.delegatedAmount.toNat ≤ t'.amount.toNat + t.delegatedAmount.toNat

theorem TokenAccount.Guarded.refl (t : TokenAccount) : t.Guarded t :=
  ⟨rfl, rfl, rfl, UInt64.le_refl _, le_refl _⟩

theorem TokenAccount.Guarded.trans {t u v : TokenAccount} (h : t.Guarded u) (k : u.Guarded v) :
    t.Guarded v where
  mint := k.mint.trans h.mint
  owner := k.owner.trans h.owner
  closeAuthority := k.closeAuthority.trans h.closeAuthority
  delegated := UInt64.le_trans k.delegated h.delegated
  covered := by
    have := h.covered
    have := k.covered
    omega

theorem tokenOf_eq_some {tp : Pubkey} {a : Accounts δ} {k : Pubkey} {t : TokenAccount} :
    tokenOf tp a k = some t ↔ (a k).owner = tp ∧ tokenAt a k = some t := by
  unfold tokenOf
  split <;> simp_all

/-- A debit keeps the account's authorities and takes out exactly `amount`. -/
theorem TokenAccount.debit_spec {t t' : TokenAccount} {authority : Pubkey} {amount : UInt64}
    (hle : amount ≤ t.amount) (h : t.debit authority amount = some t') :
    t'.mint = t.mint ∧ t'.owner = t.owner ∧ t'.closeAuthority = t.closeAuthority ∧
      t'.amount.toNat + amount.toNat = t.amount.toNat ∧
      t'.delegatedAmount ≤ t.delegatedAmount := by
  have hsub : (t.amount - amount).toNat + amount.toNat = t.amount.toNat := by
    rw [UInt64.toNat_sub_of_le _ _ hle]
    exact Nat.sub_add_cancel (UInt64.le_iff_toNat_le.mp hle)
  unfold TokenAccount.debit at h
  split at h
  · split at h
    · rename_i hd
      obtain rfl := Option.some.inj h
      refine ⟨rfl, rfl, rfl, hsub, ?_⟩
      rw [UInt64.le_iff_toNat_le, UInt64.toNat_sub_of_le _ _ hd]
      exact Nat.sub_le _ _
    · cases h
  · split at h
    · obtain rfl := Option.some.inj h
      exact ⟨rfl, rfl, rfl, hsub, UInt64.le_refl _⟩
    · cases h

/-- Taking tokens out of an account makes nobody its delegate. -/
theorem TokenAccount.debit_delegate {t t' : TokenAccount} {authority : Pubkey} {amount : UInt64}
    (h : t.debit authority amount = some t') (hnone : t.delegate = none) : t'.delegate = none := by
  simp only [TokenAccount.debit, hnone, reduceCtorEq, if_false] at h
  split at h
  · obtain rfl := Option.some.inj h
    rfl
  · cases h

/-- Only the contents of token accounts have changed. -/
structure TokenOnly (a a' : Accounts δ) : Prop where
  lamports : ∀ k, (a' k).lamports = (a k).lamports
  owner : ∀ k, (a' k).owner = (a k).owner
  rest : ∀ k, tokenAt a k = none → a' k = a k

theorem TokenOnly.refl (a : Accounts δ) : TokenOnly a a :=
  ⟨fun _ => rfl, fun _ => rfl, fun _ _ => rfl⟩

theorem TokenOnly.trans {a a' a'' : Accounts δ} (h : TokenOnly a a') (h' : TokenOnly a' a'') :
    TokenOnly a a'' where
  lamports k := (h'.lamports k).trans (h.lamports k)
  owner k := (h'.owner k).trans (h.owner k)
  rest k hk := by
    have heq := h.rest k hk
    exact (h'.rest k ((tokenAt_congr heq).trans hk)).trans heq

theorem TokenOnly.of_setToken {a : Accounts δ} {k : Pubkey} {t : TokenAccount}
    (ht : tokenAt a k = some t) (t' : TokenAccount) : TokenOnly a (setToken a k t') := by
  refine ⟨fun _ => setToken_lamports _ _ _ _, fun _ => setToken_owner _ _ _ _, ?_⟩
  intro j hj
  apply setToken_of_ne
  rintro rfl
  rw [ht] at hj
  cases hj

/-- A checked transfer between two accounts, account by account. -/
structure TransferSpec (tp source mint dest : Pubkey) (amount : UInt64) (a a' : Accounts δ)
    (s s' d : TokenAccount) : Prop where
  source_program : (a source).owner = tp
  dest_program : (a dest).owner = tp
  source_at : tokenAt a source = some s
  dest_at : tokenAt a dest = some d
  source_mint : s.mint = mint
  dest_mint : d.mint = mint
  enough : amount ≤ s.amount
  same_mint : s'.mint = s.mint
  same_owner : s'.owner = s.owner
  same_close : s'.closeAuthority = s.closeAuthority
  debited : s'.amount.toNat + amount.toNat = s.amount.toNat
  delegated : s'.delegatedAmount ≤ s.delegatedAmount
  room : d.amount.toNat + amount.toNat < 2 ^ 64
  result : a' = setToken (setToken a source s') dest { d with amount := d.amount + amount }

/-- A successful transfer, with the debit of its source. -/
theorem transferChecked_debit {tp source mint dest authority : Pubkey} {amount : UInt64}
    {decimals : UInt8} {a a' : Accounts δ} (hne : source ≠ dest)
    (h : transferChecked tp source mint dest authority amount decimals a = some a') :
    ∃ s s' d, TransferSpec tp source mint dest amount a a' s s' d ∧
      s.debit authority amount = some s' := by
  simp only [transferChecked, hne, if_false, Option.bind_eq_bind, Option.bind_eq_some_iff,
    Option.guard_eq_some', Option.some.injEq, tokenOf_eq_some] at h
  obtain ⟨s, ⟨hsp, hs⟩, d, ⟨hdp, hd⟩, m, -, -, ⟨hsm, hdm, -, hle⟩, s', hs', -, hroom, rfl⟩ := h
  obtain ⟨hmint, howner, hclose, hdebit, hdel⟩ := TokenAccount.debit_spec hle hs'
  exact ⟨s, s', d, ⟨hsp, hdp, hs, hd, hsm, hdm, hle, hmint, howner, hclose, hdebit, hdel, hroom,
    rfl⟩, hs'⟩

theorem transferChecked_spec {tp source mint dest authority : Pubkey} {amount : UInt64}
    {decimals : UInt8} {a a' : Accounts δ} (hne : source ≠ dest)
    (h : transferChecked tp source mint dest authority amount decimals a = some a') :
    ∃ s s' d, TransferSpec tp source mint dest amount a a' s s' d := by
  obtain ⟨s, s', d, hspec, -⟩ := transferChecked_debit hne h
  exact ⟨s, s', d, hspec⟩

section

variable {tp source mint dest : Pubkey} {amount : UInt64} {a a' : Accounts δ}
variable {s s' d : TokenAccount}

theorem TransferSpec.frame (h : TransferSpec tp source mint dest amount a a' s s' d) {k : Pubkey}
    (hs : k ≠ source) (hd : k ≠ dest) : a' k = a k := by
  rw [h.result, setToken_of_ne _ _ hd, setToken_of_ne _ _ hs]

theorem TransferSpec.source_after (h : TransferSpec tp source mint dest amount a a' s s' d)
    (hne : source ≠ dest) : tokenAt a' source = some s' := by
  rw [h.result, tokenAt_setToken_of_ne _ _ hne]
  exact tokenAt_setToken_self _ (tokenAt_eq_some.mp h.source_at).1

theorem TransferSpec.dest_after (h : TransferSpec tp source mint dest amount a a' s s' d) :
    tokenAt a' dest = some { d with amount := d.amount + amount } := by
  rw [h.result]
  apply tokenAt_setToken_self
  rw [setToken_owner]
  exact (tokenAt_eq_some.mp h.dest_at).1

theorem TransferSpec.credited (h : TransferSpec tp source mint dest amount a a' s s' d) :
    (d.amount + amount).toNat = d.amount.toNat + amount.toNat := by
  rw [UInt64.toNat_add, Nat.mod_eq_of_lt h.room]

theorem TransferSpec.tokenOnly (h : TransferSpec tp source mint dest amount a a' s s' d)
    (hne : source ≠ dest) : TokenOnly a a' := by
  have hdest : tokenAt (setToken a source s') dest = some d :=
    (tokenAt_setToken_of_ne _ _ hne.symm).trans h.dest_at
  rw [h.result]
  exact (TokenOnly.of_setToken h.source_at s').trans (.of_setToken hdest _)

end

/-- Rewriting a token account without touching its amount moves no tokens. -/
theorem balance_setToken {a : Accounts δ} {k : Pubkey} {t t' : TokenAccount}
    (ht : tokenAt a k = some t) (hamount : t'.amount = t.amount) (j : Pubkey) :
    balance (setToken a k t') j = balance a j := by
  by_cases hj : j = k
  · subst hj
    rw [balance_of_tokenAt (tokenAt_setToken_self t' (tokenAt_eq_some.mp ht).1),
      balance_of_tokenAt ht, hamount]
  · simp only [balance, tokenAt_setToken_of_ne a t' hj]

theorem approve_spec {tp source delegate owner : Pubkey} {amount : UInt64} {a a' : Accounts δ}
    (h : approve tp source delegate owner amount a = some a') :
    ∃ s, (a source).owner = tp ∧ tokenAt a source = some s ∧ s.owner = owner ∧
      a' = setToken a source { s with delegate := some delegate, delegatedAmount := amount } := by
  simp only [approve, Option.bind_eq_bind, Option.bind_eq_some_iff, Option.guard_eq_some',
    Option.some.injEq, tokenOf_eq_some] at h
  obtain ⟨s, ⟨hp, hs⟩, -, ho, rfl⟩ := h
  exact ⟨s, hp, hs, ho, rfl⟩

theorem revoke_spec {tp source owner : Pubkey} {a a' : Accounts δ}
    (h : revoke tp source owner a = some a') :
    ∃ s, (a source).owner = tp ∧ tokenAt a source = some s ∧ s.owner = owner ∧
      a' = setToken a source { s with delegate := none, delegatedAmount := 0 } := by
  simp only [revoke, Option.bind_eq_bind, Option.bind_eq_some_iff, Option.guard_eq_some',
    Option.some.injEq, tokenOf_eq_some] at h
  obtain ⟨s, ⟨hp, hs⟩, -, ho, rfl⟩ := h
  exact ⟨s, hp, hs, ho, rfl⟩

theorem approve_balance {tp source delegate owner : Pubkey} {amount : UInt64} {a a' : Accounts δ}
    (h : approve tp source delegate owner amount a = some a') (k : Pubkey) :
    balance a' k = balance a k := by
  obtain ⟨s, -, hs, -, rfl⟩ := approve_spec h
  apply balance_setToken hs
  rfl

theorem revoke_balance {tp source owner : Pubkey} {a a' : Accounts δ}
    (h : revoke tp source owner a = some a') (k : Pubkey) : balance a' k = balance a k := by
  obtain ⟨s, -, hs, -, rfl⟩ := revoke_spec h
  apply balance_setToken hs
  rfl

/-- A transfer touches no account outside the token programs. -/
theorem transferChecked_frame {tp source mint dest authority k : Pubkey} {amount : UInt64}
    {decimals : UInt8} {a a' : Accounts δ} (hk : ¬ IsTokenProgram (a k).owner)
    (h : transferChecked tp source mint dest authority amount decimals a = some a') :
    a' k = a k := by
  by_cases hne : source = dest
  · simp only [transferChecked, hne, if_true, Option.bind_eq_bind, Option.bind_eq_some_iff,
      Option.some.injEq] at h
    obtain ⟨_, _, _, _, _, _, _, _, _, _, rfl⟩ := h
    rfl
  · obtain ⟨s, s', d, hspec⟩ := transferChecked_spec hne h
    apply (hspec.tokenOnly hne).rest
    simp [tokenAt, hk]

end FogoYield.Solana
