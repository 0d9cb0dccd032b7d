import FogoYield.Solana.Laws

/-! # An executable token program

The token program as an interpreter of its instruction encodings, for a chain that can be run. -/

namespace FogoYield.Solana

open FogoYield.Library

variable {δ : Type}

/-- Read an instruction back from its bytes and execute it; anything but the three known encodings
is refused. -/
def tokenInvoke (ix : Instruction) (a : Accounts δ) : Option (Accounts δ) :=
  let amount := UInt64.ofNat (ofLeBytes ((ix.data.drop 1).take 8))
  match ix.accounts with
  | [source, mint, dest, authority] =>
    let decimals := (ix.data.drop 9).headD 0
    if ix = transferCheckedIx ix.programId source.pubkey mint.pubkey dest.pubkey authority.pubkey
        amount decimals then
      transferChecked ix.programId source.pubkey mint.pubkey dest.pubkey authority.pubkey amount
        decimals a
    else none
  | [source, delegate, owner] =>
    if ix = approveIx ix.programId source.pubkey delegate.pubkey owner.pubkey amount then
      approve ix.programId source.pubkey delegate.pubkey owner.pubkey amount a
    else none
  | [source, owner] =>
    if ix = revokeIx ix.programId source.pubkey owner.pubkey then
      revoke ix.programId source.pubkey owner.pubkey a
    else none
  | _ => none

/-- Move `n` tokens between two accounts of one mint. -/
def moveTokens (a : Accounts δ) (source dest : Pubkey) (n : UInt64) : Option (Accounts δ) := do
  let s ← tokenAt a source
  let d ← tokenAt a dest
  guard (source ≠ dest ∧ s.mint = d.mint ∧ n ≤ s.amount ∧ d.amount.toNat + n.toNat < 2 ^ 64)
  some (setToken (setToken a source { s with amount := s.amount - n }) dest
    { d with amount := d.amount + n })

/-! ## What it does to the accounts -/

/-- The token account `t` became `t'` and kept its identity: guarded, or with its owner's
consent. -/
structure TokenAccount.Edited (consents : Pubkey → Prop) (t t' : TokenAccount) : Prop where
  mint : t'.mint = t.mint
  owner : t'.owner = t.owner
  closeAuthority : t'.closeAuthority = t.closeAuthority
  covered : t.Guarded t' ∨ consents t.owner

/-- Only token accounts the instruction was given as writable have changed. -/
def TokenEdits (consents : Pubkey → Prop) (ix : Instruction) (a a' : Accounts δ) : Prop :=
  ∀ k, a' k = a k ∨ ix.Writes k ∧ ∃ t t', tokenAt a k = some t ∧
    a' k = { a k with data := .token t' } ∧ t.Edited consents t'

section

variable {consents consents' : Pubkey → Prop} {ix : Instruction} {a a' a'' : Accounts δ}

theorem TokenEdits.refl (consents : Pubkey → Prop) (ix : Instruction) (a : Accounts δ) :
    TokenEdits consents ix a a :=
  fun _ => .inl rfl

theorem TokenAccount.Edited.trans {t t' t'' : TokenAccount} (h : t.Edited consents t')
    (h' : t'.Edited consents t'') : t.Edited consents t'' := by
  refine ⟨h'.mint.trans h.mint, h'.owner.trans h.owner,
    h'.closeAuthority.trans h.closeAuthority, ?_⟩
  rcases h.covered with hg | hc
  · rcases h'.covered with hg' | hc'
    · exact .inl (hg.trans hg')
    · rw [h.owner] at hc'
      exact .inr hc'
  · exact .inr hc

theorem TokenEdits.trans (h : TokenEdits consents ix a a') (h' : TokenEdits consents ix a' a'') :
    TokenEdits consents ix a a'' := by
  intro k
  rcases h' k with heq | ⟨hw, t', t'', ht', ha'', he'⟩
  · rw [heq]
    exact h k
  · rcases h k with heq | ⟨-, t, u, ht, ha', he⟩
    · rw [tokenAt_congr heq] at ht'
      rw [heq] at ha''
      exact .inr ⟨hw, t', t'', ht', ha'', he'⟩
    · have hu : tokenAt a' k = some u := by
        rw [tokenAt_eq_some, ha']
        exact ⟨(tokenAt_eq_some.mp ht).1, rfl⟩
      obtain rfl := Option.some.inj (hu.symm.trans ht')
      rw [ha'] at ha''
      exact .inr ⟨hw, t, t'', ht, ha'', he.trans he'⟩

theorem TokenEdits.mono (h : TokenEdits consents ix a a')
    (himp : ∀ k, consents k → consents' k) : TokenEdits consents' ix a a' := by
  intro k
  rcases h k with heq | ⟨hw, t, t', ht, ha', he⟩
  · exact .inl heq
  · exact .inr ⟨hw, t, t', ht, ha', he.mint, he.owner, he.closeAuthority,
      he.covered.imp_right (himp _)⟩

theorem TokenEdits.of_setToken {k : Pubkey} {t t' : TokenAccount} (hw : ix.Writes k)
    (ht : tokenAt a k = some t) (he : t.Edited consents t') :
    TokenEdits consents ix a (setToken a k t') := by
  intro j
  by_cases hj : j = k
  · subst hj
    exact .inr ⟨hw, t, t', ht, setToken_self a j t', he⟩
  · exact .inl (setToken_of_ne a t' hj)

theorem TokenEdits.owner_eq (h : TokenEdits consents ix a a') (k : Pubkey) :
    (a' k).owner = (a k).owner := by
  rcases h k with heq | ⟨-, t, t', -, ha', -⟩
  · rw [heq]
  · rw [ha']

/-- An account of a program that is no token program is out of reach. -/
theorem TokenEdits.eq_of_owner (h : TokenEdits consents ix a a') {k : Pubkey}
    (ho : ¬ IsTokenProgram (a k).owner) : a' k = a k := by
  rcases h k with heq | ⟨-, t, t', ht, -, -⟩
  · exact heq
  · exact absurd (tokenAt_eq_some.mp ht).1 ho

theorem debit_edited {t t' : TokenAccount} {authority : Pubkey} {amount : UInt64}
    (hle : amount ≤ t.amount) (h : t.debit authority amount = some t')
    (hc : authority = t.owner → consents t.owner) : t.Edited consents t' := by
  obtain ⟨hm, ho, hclose, hamount, hdel⟩ := TokenAccount.debit_spec hle h
  refine ⟨hm, ho, hclose, ?_⟩
  unfold TokenAccount.debit at h
  split at h
  · split at h
    · rename_i hd
      have hsub := UInt64.toNat_sub_of_le _ _ hd
      have hle' := UInt64.le_iff_toNat_le.mp hd
      obtain rfl := Option.some.inj h
      left
      refine ⟨rfl, rfl, rfl, hdel, ?_⟩
      dsimp only at hamount ⊢
      omega
    · cases h
  · split at h
    · rename_i howner
      exact .inr (hc howner)
    · cases h

theorem credit_edited (t : TokenAccount) {amount : UInt64}
    (h : t.amount.toNat + amount.toNat < 2 ^ 64) :
    t.Edited consents { t with amount := t.amount + amount } := by
  refine ⟨rfl, rfl, rfl, .inl ⟨rfl, rfl, rfl, UInt64.le_refl _, ?_⟩⟩
  have hsum : (t.amount + amount).toNat = t.amount.toNat + amount.toNat := by
    rw [UInt64.toNat_add, Nat.mod_eq_of_lt h]
  dsimp only
  omega

theorem transferChecked_edits {tp source mint dest authority : Pubkey} {amount : UInt64}
    {decimals : UInt8} (hs : ix.Writes source) (hd : ix.Writes dest) (hc : consents authority)
    (h : transferChecked tp source mint dest authority amount decimals a = some a') :
    TokenEdits consents ix a a' := by
  simp only [transferChecked, Option.bind_eq_bind, Option.bind_eq_some_iff, Option.guard_eq_some',
    tokenOf_eq_some] at h
  obtain ⟨s, ⟨-, hsa⟩, d, ⟨-, hda⟩, m, -, -, ⟨-, -, -, hle⟩, s', hs', h⟩ := h
  split at h
  · obtain rfl := Option.some.inj h
    exact .refl _ _ _
  · rename_i hne
    simp only [Option.bind_eq_some_iff, Option.guard_eq_some'] at h
    obtain ⟨-, hroom, h⟩ := h
    obtain rfl := Option.some.inj h
    have hedit : s.Edited consents s' := debit_edited hle hs' (fun heq => heq ▸ hc)
    have hdest : tokenAt (setToken a source s') dest = some d := by
      rw [tokenAt_setToken_of_ne _ _ (Ne.symm hne)]
      exact hda
    exact (TokenEdits.of_setToken hs hsa hedit).trans
      (.of_setToken hd hdest (credit_edited d hroom))

theorem moveTokens_edits {source dest : Pubkey} {n : UInt64} {s : TokenAccount}
    (hs : ix.Writes source) (hd : ix.Writes dest) (hat : tokenAt a source = some s)
    (hc : consents s.owner) (h : moveTokens a source dest n = some a') :
    TokenEdits consents ix a a' := by
  simp only [moveTokens, Option.bind_eq_bind, Option.bind_eq_some_iff,
    Option.guard_eq_some'] at h
  obtain ⟨s', hs', d, hda, -, ⟨hne, -, -, hroom⟩, h⟩ := h
  obtain rfl := Option.some.inj h
  obtain rfl := Option.some.inj (hat.symm.trans hs')
  have hedit : s.Edited consents { s with amount := s.amount - n } := ⟨rfl, rfl, rfl, .inr hc⟩
  have hdest : tokenAt (setToken a source { s with amount := s.amount - n }) dest = some d := by
    rw [tokenAt_setToken_of_ne _ _ (Ne.symm hne)]
    exact hda
  exact (TokenEdits.of_setToken hs hat hedit).trans
    (.of_setToken hd hdest (credit_edited d hroom))

/-- Every token instruction needs its authority's signature. -/
theorem tokenInvoke_edits (h : tokenInvoke ix a = some a') : TokenEdits ix.Signs ix a a' := by
  unfold tokenInvoke at h
  dsimp only at h
  split at h
  · split at h
    · rename_i source mint dest authority haccs hix
      have hmem := congrArg Instruction.accounts hix
      refine transferChecked_edits ?_ ?_ ?_ h
      · exact ⟨⟨source.pubkey, false, true⟩, by rw [hmem]; simp [transferCheckedIx], rfl, rfl⟩
      · exact ⟨⟨dest.pubkey, false, true⟩, by rw [hmem]; simp [transferCheckedIx], rfl, rfl⟩
      · exact ⟨⟨authority.pubkey, true, false⟩, by rw [hmem]; simp [transferCheckedIx], rfl, rfl⟩
    · cases h
  · split at h
    · rename_i source delegate owner haccs hix
      have hmem := congrArg Instruction.accounts hix
      obtain ⟨s, -, hs, ho, rfl⟩ := approve_spec h
      refine .of_setToken ⟨⟨source.pubkey, false, true⟩, by rw [hmem]; simp [approveIx], rfl, rfl⟩
        hs ⟨rfl, rfl, rfl, .inr ?_⟩
      rw [ho]
      exact ⟨⟨owner.pubkey, true, false⟩, by rw [hmem]; simp [approveIx], rfl, rfl⟩
    · cases h
  · split at h
    · rename_i source owner haccs hix
      have hmem := congrArg Instruction.accounts hix
      obtain ⟨s, -, hs, ho, rfl⟩ := revoke_spec h
      refine .of_setToken ⟨⟨source.pubkey, false, true⟩, by rw [hmem]; simp [revokeIx], rfl, rfl⟩
        hs ⟨rfl, rfl, rfl, .inr ?_⟩
      rw [ho]
      exact ⟨⟨owner.pubkey, true, false⟩, by rw [hmem]; simp [revokeIx], rfl, rfl⟩
    · cases h
  · cases h

end

/-! ## It is the documented token program -/

theorem ofLeBytes_amount (amount : UInt64) : ofLeBytes (leBytes 8 amount.toNat) = amount.toNat :=
  ofLeBytes_leBytes 8 _ amount.toNat_lt

/-- A runtime that hands token instructions to the interpreter obeys the token laws. -/
theorem tokenLaws_of_tokenInvoke {rt : Runtime δ}
    (h : ∀ ix clock a, IsTokenProgram ix.programId → rt.invoke ix clock a = tokenInvoke ix a) :
    rt.TokenLaws where
  transferChecked source mint dest authority amount decimals clock a htp := by
    rw [h _ _ _ htp]
    simp [tokenInvoke, transferCheckedIx, ofLeBytes_amount]
  approve source delegate owner amount clock a htp := by
    rw [h _ _ _ htp]
    simp [tokenInvoke, approveIx, List.take_of_length_le, ofLeBytes_amount]
  revoke source owner clock a htp := by
    rw [h _ _ _ htp]
    simp [tokenInvoke, revokeIx]

end FogoYield.Solana
