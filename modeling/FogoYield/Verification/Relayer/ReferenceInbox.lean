import FogoYield.Verification.Relayer.Inbox

/-! # Inboxes of the reference chain

The managers of the reference chain pay what they release, so that what is assumed of inboxes holds
there. -/

namespace FogoYield.Relayer

open FogoYield.Library FogoYield.Solana

/-! ## Items that stay -/

section

variable {env : Env} {inbox mint : Pubkey} {a a' : RelayerAccounts}

theorem TokenEdits.releasedTo_eq (hl : env.Lawful) {consents : Pubkey → Prop} {ix : Instruction}
    (h : TokenEdits consents ix a a') (k : Pubkey) :
    releasedTo env inbox mint a' k = releasedTo env inbox mint a k := by
  rcases h k with heq | ⟨-, t, t', ht, ha', -⟩
  · exact releasedTo_congr (.of_eq heq)
  · have hnone := hl.nttMint_none (.inr (.inr (tokenAt_eq_some.mp ht).1))
    rw [releasedTo_of_not_manager hnone, releasedTo_of_not_manager (by rw [ha']; exact hnone)]

/-- A call that the inbox did not sign takes nothing out of a locked account. -/
theorem Locked.balance_le (hl : env.Lawful) {ix : Instruction} {clock : Clock}
    (hlock : Locked env inbox mint a)
    (hinbox : ∃ seeds, env.runtime.createProgramAddress seeds programId = some inbox)
    (hne : ix.programId ≠ programId) (hsign : ¬ ix.Signs inbox)
    (h : env.runtime.invoke ix clock a = some a') :
    balance a (inboxAta env.runtime inbox mint) ≤ balance a' (inboxAta env.runtime inbox mint) := by
  cases ht : tokenAt a (inboxAta env.runtime inbox mint) with
  | none => simp [balance, ht]
  | some t =>
      have hown := hlock t ht
      have hderived := hinbox
      rw [← hown.1] at hderived hsign
      obtain ⟨u, hu, hg, -⟩ := hl.cpi.guarded h hne _ t ht hderived hsign hown.2.2
      rw [balance_of_tokenAt ht, balance_of_tokenAt hu]
      exact (guarded_locked hown hg).2

end

/-! ## Releases -/

section

variable {inbox mint p q : Pubkey} {ix : Instruction} {clock : Clock} {a a' : RelayerAccounts}

theorem nttRedeem_releasedTo (hq : referenceMint p = some q)
    (h : nttRedeem referenceBase consumeOrDelay p ix clock a = some a') (k : Pubkey) :
    releasedTo referenceEnv inbox mint a' k = releasedTo referenceEnv inbox mint a k := by
  have hmint : referenceEnv.nttMint p = some q := hq
  have hm := referenceManager_isManager p (isReferenceManager_of_referenceMint hq)
  obtain ⟨_, itemKey, _, item, hs⟩ := nttRedeem_redeemSpec hm.ne_token hm.ne_system h
  obtain ⟨_, itemKey', _, -, hkey', -, -, -, hsystem, -, rfl⟩ := nttRedeem_spec h
  obtain rfl := Option.some.inj (hs.item_at.symm.trans hkey')
  by_cases hk : k = itemKey
  · have hbefore : referenceEnv.nttMint (a k).owner = none := by
      rw [hk, hsystem]
      exact referenceEnv_lawful.nttMint_none (.inr (.inl rfl))
    rw [releasedTo_of_not_manager hbefore, hk, releasedTo_of_item hmint hs.item_after, hs.status]
    simp
  · exact releasedTo_congr (.of_eq (by simp [setRaw, hk]))

/-- A release leaves the items, or pays one of them to its recipient. -/
theorem nttRelease_paid (hq : referenceMint p = some q)
    (h : nttRelease referenceBase p q ix clock a = some a') :
    (∀ k, releasedTo referenceEnv inbox mint a' k = releasedTo referenceEnv inbox mint a k) ∨
      ∃ n, (∀ S : Finset Pubkey, ∑ k ∈ S, releasedTo referenceEnv inbox mint a' k ≤
          ∑ k ∈ S, releasedTo referenceEnv inbox mint a k + n) ∧
        balance a' (inboxAta referenceEnv.runtime inbox mint) =
          balance a (inboxAta referenceEnv.runtime inbox mint) + n := by
  have hmint : referenceEnv.nttMint p = some q := hq
  have hm := referenceManager_isManager p (isReferenceManager_of_referenceMint hq)
  obtain ⟨itemKey, recipient, item, -, -, hitem, hout⟩ := nttRelease_spec h
  cases hstatus : item.releaseStatus with
  | notApproved =>
      rw [hstatus] at hout
      exact .inl (by simp [hout])
  | released =>
      rw [hstatus] at hout
      exact hout.elim
  | releaseAfterDelay due =>
      simp only [hstatus] at hout
      split at hout
      · exact .inl (by simp [hout])
      · obtain ⟨custody, t, a₁, ht, ho, hata, hwi, hwr, hwc, hmove, rfl⟩ := hout
        obtain ⟨howner, hload⟩ := inboxItemAt_eq_some.mp hitem
        obtain ⟨hlen, hvotes⟩ := InboxItem.tryLoad_bounds hload
        have hedits : TokenEdits (isTokenAuthority referenceBase p) ix a a₁ :=
          moveTokens_edits hwc hwr ht ho hmove
        have hothers : ∀ k, k ≠ itemKey → releasedTo referenceEnv inbox mint
            (setRaw a₁ itemKey p { item with releaseStatus := .released }.encode) k =
              releasedTo referenceEnv inbox mint a k := by
          intro k hk
          rw [← TokenEdits.releasedTo_eq referenceEnv_lawful hedits k]
          exact releasedTo_congr (.of_eq (by simp [setRaw, hk]))
        have hbefore : releasedTo referenceEnv inbox mint a itemKey = 0 := by
          rw [releasedTo_of_item hmint hitem, hstatus]
          simp
        have hload' := InboxItem.tryLoad_encode (i := { item with releaseStatus := .released })
          hlen hvotes
        have hitem' : inboxItemAt p (setRaw a₁ itemKey p
            { item with releaseStatus := .released }.encode) itemKey =
              some { item with releaseStatus := .released } := by
          rw [inboxItemAt_eq_some]
          simpa [setRaw, Account.bytes] using hload'
        by_cases hpay : q = mint ∧ item.recipientAddress = inbox
        · obtain ⟨rfl, rfl⟩ := hpay
          refine .inr ⟨item.amount.toNat, ?_, ?_⟩
          · refine sum_claims_le hothers ?_
            rw [releasedTo_of_item hmint hitem', hbefore]
            simp
          · have hntp : ¬ IsTokenProgram (a₁ itemKey).owner := by
              rw [hedits.owner_eq, howner]
              exact hm.ne_token
            rw [balance_setRaw hntp hm.ne_token]
            rw [hata] at hmove
            exact balance_moveTokens hmove
        · refine .inl ?_
          intro k
          by_cases hk : k = itemKey
          · rw [hk, releasedTo_of_item hmint hitem', hbefore, if_neg]
            rintro ⟨hmint, -, hrecipient⟩
            exact hpay ⟨hmint, hrecipient⟩
          · exact hothers k hk

end

/-! ## Every call -/

/-- Every call of the reference chain leaves the items, or is a release that pays. -/
theorem referenceInvoke_paid {inbox mint : Pubkey} {ix : Instruction} {clock : Clock}
    {a a' : RelayerAccounts} (h : referenceInvoke ix clock a = some a') :
    (∀ k, releasedTo referenceEnv inbox mint a' k = releasedTo referenceEnv inbox mint a k) ∨
      ∃ n, (∀ S : Finset Pubkey, ∑ k ∈ S, releasedTo referenceEnv inbox mint a' k ≤
          ∑ k ∈ S, releasedTo referenceEnv inbox mint a k + n) ∧
        balance a' (inboxAta referenceEnv.runtime inbox mint) =
          balance a (inboxAta referenceEnv.runtime inbox mint) + n := by
  unfold referenceInvoke at h
  split at h
  · exact .inl (TokenEdits.releasedTo_eq referenceEnv_lawful (tokenInvoke_edits h))
  · split at h
    · rename_i q hq
      unfold nttInvoke at h
      split at h
      · exact .inl (nttRedeem_releasedTo hq h)
      · split at h
        · exact nttRelease_paid hq h
        · split at h
          · exact .inl (TokenEdits.releasedTo_eq referenceEnv_lawful (nttTransferLock_edits h))
          · split at h
            · obtain rfl := Option.some.inj h
              exact .inl (fun _ => rfl)
            · cases h
    · split at h
      · exact .inl (TokenEdits.releasedTo_eq referenceEnv_lawful (offerInvoke_edits h))
      · cases h

theorem referenceEnv_inbox : InboxLaws referenceEnv where
  created := by
    intro ix clock a a' h inbox mint t _ hnone ht
    -- no call of this chain creates a token account
    rcases referenceInvoke_edits h (inboxAta referenceEnv.runtime inbox mint) with heq |
      ⟨-, ⟨u, _, hu, -, -⟩ | ⟨p, _, hitem⟩⟩
    · rw [tokenAt_congr heq, hnone] at ht
      cases ht
    · rw [hnone] at hu
      cases hu
    · have hraw := (tokenAt_eq_some.mp ht).2
      cases hitem with
      | opened _ _ ha' =>
          rw [ha'] at hraw
          cases hraw
      | advanced _ _ _ _ _ _ _ ha' =>
          rw [ha'] at hraw
          cases hraw
  paid := by
    intro ix clock a a' h hne inbox mint hinbox hsign _ hlock S
    rcases referenceInvoke_paid h with hsame | ⟨n, hrise, hpaid⟩
    · have hle := hlock.balance_le referenceEnv_lawful hinbox hne hsign h
      rw [Finset.sum_congr rfl (fun k _ => hsame k)]
      exact Nat.add_le_add_left hle _
    · have hsum := hrise S
      omega

end FogoYield.Relayer
