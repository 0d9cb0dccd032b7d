import FogoYield.Verification.Relayer.Addresses
import FogoYield.Verification.Relayer.Governance

/-! # The relayer's token accounts

One authority owns the operating token accounts of every pair. For each instruction this module
says what becomes of the account of any mint: it survives, and its balance falls by no more than
what the instruction takes out of the flow it settles. -/

namespace FogoYield.Relayer

open FogoYield.Library FogoYield.Solana

/-- The address of the relayer authority's account for a mint. -/
def custodyKey (rt : RelayerRuntime) (mint tp : Pubkey) : Pubkey :=
  rt.ata (relayerAuthority rt) mint tp

/-- The relayer's account for `mint`, whose token program is `tp`, holds `t` and can be closed by
nobody else. -/
structure Custody (env : Env) (a : RelayerAccounts) (mint tp : Pubkey) (t : TokenAccount) :
    Prop where
  mint_at : ∃ m, mintAt a mint = some m
  mint_program : (a mint).owner = tp
  token : tokenAt a (custodyKey env.runtime mint tp) = some t
  owner : t.owner = relayerAuthority env.runtime
  close : t.closeAuthority = none

section

variable {env : Env} {a a' : RelayerAccounts} {mint tp : Pubkey} {t t' : TokenAccount}

theorem Custody.isTokenProgram (h : Custody env a mint tp t) : IsTokenProgram tp := by
  obtain ⟨m, hm⟩ := h.mint_at
  rw [← h.mint_program]
  exact (mintAt_eq_some.mp hm).1

theorem Custody.of_token (h : Custody env a mint tp t) (ha : Ambient env a a')
    (ht : tokenAt a' (custodyKey env.runtime mint tp) = some t')
    (ho : t'.owner = relayerAuthority env.runtime) (hc : t'.closeAuthority = none) :
    Custody env a' mint tp t' := by
  obtain ⟨m, hm⟩ := h.mint_at
  obtain ⟨hm', howner⟩ := ha.mint mint m hm
  exact ⟨⟨m, hm'⟩, howner.trans h.mint_program, ht, ho, hc⟩

/-- What is read at the address of a custody account is that account. -/
theorem Custody.token_eq (h : Custody env a mint tp t) {k : Pubkey} {u : TokenAccount}
    (hk : custodyKey env.runtime mint tp = k) (hu : tokenAt a k = some u) : u = t := by
  rw [← hk, h.token] at hu
  exact (Option.some.inj hu).symm

/-- An account of the mint that the relayer's own constraints accepted is the custody account. -/
theorem Custody.eq_associated (h : Custody env a mint tp t) (hw : AtaWellFormed env.runtime a)
    {tp' k : Pubkey} {u : TokenAccount}
    (hu : IsAssociatedToken env.runtime a mint (relayerAuthority env.runtime) tp' k u) :
    tp' = tp ∧ k = custodyKey env.runtime mint tp := by
  have hk := hu.address
  have htok := hu.token
  rw [← hk] at htok
  obtain ⟨-, -, hmo⟩ := hw _ _ _ u htok
  have htp : tp' = tp := hmo.symm.trans h.mint_program
  exact ⟨htp, by rw [← hk, htp, custodyKey]⟩

/-- Which of the accepted accounts it is depends on the mint alone. -/
theorem Custody.key_eq_iff (hl : env.Lawful) (h : Custody env a mint tp t)
    (hw : AtaWellFormed env.runtime a) {m tp' k : Pubkey} {u : TokenAccount}
    (hu : IsAssociatedToken env.runtime a m (relayerAuthority env.runtime) tp' k u) :
    custodyKey env.runtime mint tp = k ↔ mint = m := by
  constructor
  · intro hk
    exact (hl.address.ata_inj (hk.trans hu.address.symm)).2.1
  · rintro rfl
    exact (h.eq_associated hw hu).2.symm

end

/-- The base and asset accounts of an open flow's instruction, told apart by their mints. -/
theorem FlowLoad.custodyKey_iff {env : Env} (hl : env.Lawful) {accs : FlowAccounts}
    {loaded : FlowLoaded} {w : RelayerWorld} {mint tp : Pubkey} {t : TokenAccount}
    (hw : AtaWellFormed env.runtime w.accounts)
    (haddr : Addressed env.runtime accs.pairConfig loaded.config)
    (h : FlowLoad env.runtime accs w loaded) (hc : Custody env w.accounts mint tp t) :
    (custodyKey env.runtime mint tp = accs.baseAta ↔ mint = loaded.config.baseMint) ∧
      (custodyKey env.runtime mint tp = accs.assetAta ↔ mint = loaded.config.assetMint) := by
  have hauth := haddr.authority_eq hl h.authority
  obtain ⟨ub, hub⟩ := h.base_ata
  obtain ⟨ua, hua⟩ := h.asset_ata
  rw [hauth, ← h.base_mint] at hub
  rw [hauth, ← h.asset_mint] at hua
  exact ⟨hc.key_eq_iff hl hw hub, hc.key_eq_iff hl hw hua⟩

/-! ## Balances against delegations -/

/-- Going from `t` to `t'`, with `inc` more and `out` less to be covered: what the balance lost
was either let go or paid out of a delegation. -/
def Covered (t t' : TokenAccount) (inc out : ℕ) : Prop :=
  t.amount.toNat + t'.delegatedAmount.toNat + inc ≤
    t'.amount.toNat + t.delegatedAmount.toNat + out

theorem Covered.of_guarded {t t' : TokenAccount} (h : t.Guarded t') : Covered t t' 0 0 :=
  h.covered

theorem Covered.after {t u v : TokenAccount} {inc out : ℕ} (h : t.Guarded u)
    (h' : Covered u v inc out) : Covered t v inc out := by
  have := h.covered
  unfold Covered at *
  omega

theorem Covered.before {t u v : TokenAccount} {inc out : ℕ} (h : Covered t u inc out)
    (h' : u.Guarded v) : Covered t v inc out := by
  have := h'.covered
  unfold Covered at *
  omega

/-- Every custody account survives from `a` to `a'`, guarded. -/
def CustodyGuarded (env : Env) (a a' : RelayerAccounts) : Prop :=
  ∀ mint tp t, Custody env a mint tp t → ∃ t', Custody env a' mint tp t' ∧ t.Guarded t'

theorem CustodyGuarded.refl (env : Env) (a : RelayerAccounts) : CustodyGuarded env a a :=
  fun _ _ t h => ⟨t, h, .refl t⟩

theorem CustodyGuarded.trans {env : Env} {a a' a'' : RelayerAccounts}
    (h : CustodyGuarded env a a') (h' : CustodyGuarded env a' a'') :
    CustodyGuarded env a a'' := by
  intro mint tp t ht
  obtain ⟨t', ht', hg⟩ := h mint tp t ht
  obtain ⟨t'', ht'', hg'⟩ := h' mint tp t' ht'
  exact ⟨t'', ht'', hg.trans hg'⟩

theorem custodyGuarded_of_keeps {env : Env} {a a' : RelayerAccounts} (ha : Ambient env a a')
    (h : ∀ mint tp t, Custody env a mint tp t →
      Keeps a a' (custodyKey env.runtime mint tp) t) : CustodyGuarded env a a' := by
  intro mint tp t ht
  obtain ⟨t', ht', hg, -⟩ := h mint tp t ht
  exact ⟨t', ht.of_token ha ht' (hg.owner.trans ht.owner) (hg.closeAuthority.trans ht.close), hg⟩

theorem keeps_of_sameData {a a' : RelayerAccounts} {k : Pubkey} {t : TokenAccount}
    (ht : tokenAt a k = some t) (h : SameData a a' k) : Keeps a a' k t :=
  ⟨t, h.tokenAt.trans ht, .refl t, h.1⟩

/-- Creating, writing or closing an account that is not a token account. -/
theorem custodyGuarded_of_others {env : Env} {a a' : RelayerAccounts} {k : Pubkey}
    (ha : Ambient env a a') (hothers : ∀ j, j ≠ k → SameData a a' j)
    (howner : ¬ IsTokenProgram (a k).owner) : CustodyGuarded env a a' := by
  apply custodyGuarded_of_keeps ha
  intro mint tp t ht
  apply keeps_of_sameData ht.token
  apply hothers
  rintro rfl
  exact howner (tokenAt_eq_some.mp ht.token).1

theorem custodyGuarded_of_create {env : Env} {k owner : Pubkey} {data : Data RelayerData}
    {w w' : RelayerWorld} (ha : Ambient env w.accounts w'.accounts)
    (h : CreateSpec k owner data w w') : CustodyGuarded env w.accounts w'.accounts :=
  custodyGuarded_of_others ha h.others
    (by rw [h.was_system]; exact not_isTokenProgram_systemProgram)

theorem custodyGuarded_of_write {env : Env} (hl : env.Lawful) {k : Pubkey} {d : RelayerData}
    {w : RelayerWorld} (ho : (w.accounts k).owner = programId) :
    CustodyGuarded env w.accounts (writeAccount k d w).accounts := by
  refine custodyGuarded_of_others (k := k) (ambient_of_write hl ho) ?_ ?_
  · intro j hj
    exact .of_eq (by simp [writeAccount, World.setAccount, hj])
  · intro h
    exact ne_programId_of_isTokenProgram h ho

theorem custodyGuarded_of_close {env : Env} (hl : env.Lawful) {k dest : Pubkey} {w : RelayerWorld}
    (ho : (w.accounts k).owner = programId) :
    CustodyGuarded env w.accounts (closeAccount k dest w).accounts := by
  refine custodyGuarded_of_others (k := k) (ambient_of_close hl ho)
    (fun j hj => closeAccount_others w hj) ?_
  intro h
  exact ne_programId_of_isTokenProgram h ho

/-- NTT spends a relayer account only through a delegation, also when the authority signs. -/
theorem custodyGuarded_of_ntt {env : Env} (hl : env.Lawful) {ix : Instruction} {w w' : RelayerWorld}
    (hp : (env.nttMint ix.programId).isSome) (h : Called env.runtime ix w w') :
    CustodyGuarded env w.accounts w'.accounts := by
  apply custodyGuarded_of_keeps (ambient_of_invoke hl h.invoked)
  intro mint tp t ht
  apply (hl.nttLaws hp).guarded rfl h.invoked _ _ ht.token
  rw [ht.owner]
  intro heq
  exact (hl.nttLaws hp).ne_programId (hl.address.find_program heq).symm

theorem custodyGuarded_of_external {env : Env} (hl : env.Lawful) {ix : Instruction} {clock : Clock}
    {a a' : RelayerAccounts} (hsign : ¬ ix.Signs (relayerAuthority env.runtime))
    (hne : ix.programId ≠ programId) (h : env.runtime.invoke ix clock a = some a') :
    CustodyGuarded env a a' := by
  apply custodyGuarded_of_keeps (ambient_of_invoke hl h)
  intro mint tp t ht
  refine hl.cpi.guarded h hne _ _ ht.token ?_ (by rwa [ht.owner]) ht.close
  rw [ht.owner]
  exact ⟨_, hl.address.create_find [relayerSeed] programId⟩

theorem custodyGuarded_of_setToken {env : Env} (hl : env.Lawful) {a : RelayerAccounts}
    {k : Pubkey} {u u' : TokenAccount} (hu : tokenAt a k = some u) (hg : u.Guarded u') :
    CustodyGuarded env a (setToken a k u') := by
  apply custodyGuarded_of_keeps (ambient_of_setToken hl hu hg.mint)
  intro mint tp t ht
  by_cases hk : custodyKey env.runtime mint tp = k
  · rw [hk]
    obtain rfl := ht.token_eq hk hu
    exact ⟨u', tokenAt_setToken_self u' (tokenAt_eq_some.mp hu).1, hg, setToken_owner _ _ _ _⟩
  · exact keeps_of_sameData ht.token (.of_eq (setToken_of_ne a u' hk))

/-! ## Token instructions of the relayer itself -/

theorem Custody.setToken_of_ne {env : Env} (hl : env.Lawful) {a : RelayerAccounts}
    {mint tp k : Pubkey} {t u u' : TokenAccount} (h : Custody env a mint tp t)
    (hu : tokenAt a k = some u) (hm : u'.mint = u.mint)
    (hk : custodyKey env.runtime mint tp ≠ k) : Custody env (setToken a k u') mint tp t :=
  h.of_token (ambient_of_setToken hl hu hm) ((tokenAt_setToken_of_ne a u' hk).trans h.token)
    h.owner h.close

theorem Custody.setToken_self {env : Env} (hl : env.Lawful) {a : RelayerAccounts}
    {mint tp k : Pubkey} {t u : TokenAccount} (h : Custody env a mint tp t)
    (hk : custodyKey env.runtime mint tp = k) (hm : u.mint = t.mint) (ho : u.owner = t.owner)
    (hc : u.closeAuthority = t.closeAuthority) : Custody env (setToken a k u) mint tp u := by
  have ht := h.token
  rw [hk] at ht
  refine h.of_token (ambient_of_setToken hl ht hm) ?_ (ho.trans h.owner) (hc.trans h.close)
  rw [hk]
  exact tokenAt_setToken_self u (tokenAt_eq_some.mp ht).1

/-- A custody account across a checked transfer: debited at the source, credited at the
destination, left alone elsewhere. -/
theorem custody_of_transfer {env : Env} {tp' source m dest mint tp : Pubkey} {amount : UInt64}
    {a a' : RelayerAccounts} {s s' d t : TokenAccount} (ha : Ambient env a a')
    (hne : source ≠ dest) (h : TransferSpec tp' source m dest amount a a' s s' d)
    (hc : Custody env a mint tp t) :
    ∃ t', Custody env a' mint tp t' ∧
      (custodyKey env.runtime mint tp = source →
        t'.amount.toNat + amount.toNat = t.amount.toNat ∧
        t'.delegatedAmount ≤ t.delegatedAmount) ∧
      (custodyKey env.runtime mint tp = dest →
        t'.amount.toNat = t.amount.toNat + amount.toNat) ∧
      (custodyKey env.runtime mint tp ≠ source → t.Guarded t') := by
  by_cases hs : custodyKey env.runtime mint tp = source
  · obtain rfl := hc.token_eq hs h.source_at
    have htok : tokenAt a' (custodyKey env.runtime mint tp) = some s' := by
      rw [hs]
      exact h.source_after hne
    refine ⟨s', hc.of_token ha htok (h.same_owner.trans hc.owner) (h.same_close.trans hc.close),
      fun _ => ⟨h.debited, h.delegated⟩, fun hd => ?_, fun hn => absurd hs hn⟩
    exact absurd (hs.symm.trans hd) hne
  · by_cases hd : custodyKey env.runtime mint tp = dest
    · obtain rfl := hc.token_eq hd h.dest_at
      have hsum := h.credited
      have htok : tokenAt a' (custodyKey env.runtime mint tp) =
          some { d with amount := d.amount + amount } := by
        rw [hd]
        exact h.dest_after
      refine ⟨_, hc.of_token ha htok hc.owner hc.close, fun hs' => absurd hs' hs, fun _ => hsum,
        fun _ => ⟨rfl, rfl, rfl, UInt64.le_refl _, ?_⟩⟩
      show d.amount.toNat + d.delegatedAmount.toNat ≤
        (d.amount + amount).toNat + d.delegatedAmount.toNat
      omega
    · have htok : tokenAt a' (custodyKey env.runtime mint tp) = some t :=
        (tokenAt_congr (h.frame hs hd)).trans hc.token
      exact ⟨t, hc.of_token ha htok hc.owner hc.close, fun hs' => absurd hs' hs,
        fun hd' => absurd hd' hd, fun _ => .refl t⟩

/-! ## Receive -/

/-- The accounts of a `receive`, once the config's own constraints are unfolded. -/
theorem ReceiveSpec.authority_eq {env : Env} (hl : env.Lawful) {ctx : Context}
    {accs : ReceiveAccounts} {args : ReceiveArgs} {w w' : RelayerWorld} {c : PairConfig}
    {mint : Mint} {bump : UInt8} {w₀ w₁ w₂ : RelayerWorld} {inbox : InboxItem}
    {held : TokenAccount} (haddr : Addressed env.runtime accs.pairConfig c)
    (h : ReceiveSpec env.runtime ctx accs args w w' c mint bump w₀ w₁ w₂ inbox held) :
    accs.relayerAuthority = relayerAuthority env.runtime :=
  haddr.authority_eq hl h.authority

/-- No custody account is an inbox account. -/
theorem ReceiveSpec.userInboxAta_ne {env : Env} (hl : env.Lawful) {ctx : Context}
    {accs : ReceiveAccounts} {args : ReceiveArgs} {w w' : RelayerWorld} {c : PairConfig} {m : Mint}
    {bump : UInt8} {w₀ w₁ w₂ : RelayerWorld} {inbox : InboxItem} {held : TokenAccount}
    (h : ReceiveSpec env.runtime ctx accs args w w' c m bump w₀ w₁ w₂ inbox held)
    (mint tp : Pubkey) : custodyKey env.runtime mint tp ≠ accs.userInboxAta := by
  obtain ⟨sender, hchecks⟩ := h.checks
  obtain ⟨tu, htu⟩ := h.user_ata
  rw [← htu.address, hchecks.inbox_authority]
  intro heq
  exact relayerAuthority_ne_userInbox hl.address _ _ (hl.address.ata_inj heq).1

/-- Custody across a `receive`: the account of the received mint takes in the item's amount. -/
theorem receive_custody {env : Env} (hl : env.Lawful) {ctx : Context} {accs : ReceiveAccounts}
    {args : ReceiveArgs} {w w' : RelayerWorld} {c : PairConfig} {m : Mint} {bump : UInt8}
    {w₀ w₁ w₂ : RelayerWorld} {inbox : InboxItem} {held : TokenAccount}
    (hw : AtaWellFormed env.runtime w.accounts)
    (haddr : Addressed env.runtime accs.pairConfig c)
    (hp : (env.nttMint (c.receiveNttProgram args.direction)).isSome)
    (h : ReceiveSpec env.runtime ctx accs args w w' c m bump w₀ w₁ w₂ inbox held)
    {mint tp : Pubkey} {t : TokenAccount} (hc : Custody env w.accounts mint tp t) :
    ∃ t', Custody env w'.accounts mint tp t' ∧
      Covered t t' (if mint = c.receiveMint args.direction then inbox.amount.toNat else 0) 0 := by
  have hauth := h.authority_eq hl haddr
  obtain ⟨sender, hchecks⟩ := h.checks
  have hne : (c.receiveNttProgram args.direction) ≠ programId := hl.ntt_ne_programId hp
  -- up to the sweep every account is guarded
  have hntt : CustodyGuarded env w₀.accounts w₁.accounts := by
    rcases redeemAndRelease_spec h.released with ⟨-, hw₁⟩ | ⟨-, wr, hr⟩
    · rw [hw₁]
      exact .refl env _
    · exact (custodyGuarded_of_ntt hl hp hr.redeem).trans (custodyGuarded_of_ntt hl hp hr.release)
  have hcreate := custodyGuarded_of_create (ambient_of_create hl h.created) h.created
  obtain ⟨t₁, hc₁, hg₁⟩ := hcreate.trans hntt mint tp t hc
  -- the sweep credits exactly the received mint's account
  have hcall := h.swept.transfer.invoked
  have ha := ambient_of_invoke hl hcall
  rw [hl.token.transferChecked _ _ _ _ _ _ _ _ h.token_program] at hcall
  obtain ⟨tr, htr⟩ := h.recv_ata
  have hsource : accs.userInboxAta ≠ accs.recvAta := by
    rw [← htr.address, hauth]
    exact (h.userInboxAta_ne hl _ _).symm
  obtain ⟨s, s', d, hspec⟩ := transferChecked_spec hsource hcall
  obtain ⟨t₂, hc₂, -, hdest, hguard⟩ := custody_of_transfer ha hsource hspec hc₁
  have howner := (quiet_of_calls hl (h.calls hne)).owner_eq h.created.owner_eq
  obtain ⟨t₃, hc₃, hg₃⟩ := custodyGuarded_of_write hl howner mint tp t₂ hc₂
  rw [h.result]
  refine ⟨t₃, hc₃, ?_⟩
  have hg₂ := hguard (h.userInboxAta_ne hl mint tp)
  refine .after hg₁ (.before ?_ hg₃)
  split
  · rename_i hmint
    have hrecv : custodyKey env.runtime mint tp = accs.recvAta := by
      rw [hauth, hchecks.mint, ← hmint] at htr
      exact (hc.eq_associated hw htr).2.symm
    have hamount := hdest hrecv
    have hdel := UInt64.le_iff_toNat_le.mp hg₂.delegated
    unfold Covered
    omega
  · exact .of_guarded hg₂

/-! ## Swap -/

/-- What a fee skim does to a custody account: the asset account pays the fee. -/
structure Skims (isAsset : Prop) (fee : ℕ) (t t' : TokenAccount) : Prop where
  asset : isAsset → t'.amount.toNat + fee = t.amount.toNat ∧ t'.delegatedAmount ≤ t.delegatedAmount
  other : ¬ isAsset → t.Guarded t'

theorem Skims.refl (isAsset : Prop) (t : TokenAccount) : Skims isAsset 0 t t :=
  ⟨fun _ => ⟨rfl, UInt64.le_refl _⟩, fun _ => .refl t⟩

section

variable {env : Env} {ctx : Context} {accs : SwapAccounts} {loaded : FlowLoaded}
variable {mint tp : Pubkey} {t : TokenAccount}

theorem custody_of_skim (hl : env.Lawful) {fee : UInt64} {w w' : RelayerWorld}
    (htp : IsTokenProgram accs.tokenProgram) (hvault : accs.feeVault ≠ accs.assetAta)
    (h : Skimmed env.runtime accs loaded fee w w') (hc : Custody env w.accounts mint tp t) :
    ∃ t', Custody env w'.accounts mint tp t' ∧
      Skims (custodyKey env.runtime mint tp = accs.assetAta) fee.toNat t t' := by
  rcases h with ⟨rfl, rfl⟩ | h
  · exact ⟨t, hc, .refl _ t⟩
  · have hcall := h.invoked
    have ha := ambient_of_invoke hl hcall
    rw [hl.token.transferChecked _ _ _ _ _ _ _ _ htp] at hcall
    obtain ⟨s, s', d, hspec⟩ := transferChecked_spec hvault.symm hcall
    obtain ⟨t', hc', hsource, -, hguard⟩ := custody_of_transfer ha hvault.symm hspec hc
    exact ⟨t', hc', hsource, hguard⟩

/-- A deposit pays its fee from the output. -/
theorem InputSkimmed.fee_deposit {swapIn fee : UInt64} {w w' : RelayerWorld}
    (h : InputSkimmed env.runtime accs loaded swapIn fee w w')
    (hd : loaded.flow.direction = .deposit) : fee.toNat = 0 := by
  have hfee := h.fee
  simp only [hd] at hfee
  rw [hfee.1]
  rfl

theorem custody_of_input (hl : env.Lawful) {swapIn fee : UInt64} {w w' : RelayerWorld}
    (htp : IsTokenProgram accs.tokenProgram) (hvault : accs.feeVault ≠ accs.assetAta)
    (h : InputSkimmed env.runtime accs loaded swapIn fee w w')
    (hc : Custody env w.accounts mint tp t) :
    ∃ t', Custody env w'.accounts mint tp t' ∧
      Skims (custodyKey env.runtime mint tp = accs.assetAta) fee.toNat t t' := by
  have hfee := h.fee
  cases hd : loaded.flow.direction with
  | deposit =>
      simp only [hd] at hfee
      obtain ⟨rfl, rfl⟩ := hfee
      exact ⟨t, hc, .refl _ t⟩
  | withdraw =>
      simp only [hd] at hfee
      exact custody_of_skim hl htp hvault hfee.2 hc

/-- The output side takes `out - netOut` out of the asset account, nothing for a withdraw. -/
theorem custody_of_output (hl : env.Lawful) {out feeBefore netOut fee : UInt64}
    {w w' : RelayerWorld} (htp : IsTokenProgram accs.tokenProgram)
    (hvault : accs.feeVault ≠ accs.assetAta)
    (h : OutputSkimmed env.runtime accs loaded out feeBefore netOut fee w w')
    (hc : Custody env w.accounts mint tp t) :
    ∃ t' cut, Custody env w'.accounts mint tp t' ∧ netOut.toNat + cut = out.toNat ∧
      (loaded.flow.direction = .withdraw → cut = 0) ∧
      Skims (custodyKey env.runtime mint tp = accs.assetAta) cut t t' := by
  have hout := h.outcome
  cases hd : loaded.flow.direction with
  | deposit =>
      simp only [hd] at hout
      obtain ⟨-, hsum, -, hskim⟩ := hout
      obtain ⟨t', hc', hs⟩ := custody_of_skim hl htp hvault hskim hc
      exact ⟨t', fee.toNat, hc', hsum, by simp, hs⟩
  | withdraw =>
      simp only [hd] at hout
      obtain ⟨rfl, -, rfl⟩ := hout
      exact ⟨t, 0, hc, rfl, fun _ => rfl, .refl _ t⟩

theorem custody_of_prepared (hl : env.Lawful) {swapIn : UInt64} {w w₁ w₂ w₃ : RelayerWorld}
    (htp : IsTokenProgram accs.tokenProgram)
    (hb : custodyKey env.runtime mint tp ≠ accs.baseAta)
    (ha : custodyKey env.runtime mint tp ≠ accs.assetAta)
    (h : DelegatesPrepared env.runtime accs loaded swapIn w w₁ w₂ w₃)
    (hc : Custody env w.accounts mint tp t) : Custody env w₃.accounts mint tp t := by
  have hrb := h.revoke_base.invoked
  have hra := h.revoke_asset.invoked
  rw [hl.token.revoke _ _ _ _ htp] at hrb hra
  obtain ⟨s, -, hs, -, hw₁⟩ := revoke_spec hrb
  obtain ⟨u, -, hu, -, hw₂⟩ := revoke_spec hra
  have hc₁ : Custody env w₁.accounts mint tp t := by
    rw [hw₁]
    exact hc.setToken_of_ne hl hs rfl hb
  have hc₂ : Custody env w₂.accounts mint tp t := by
    rw [hw₂]
    exact hc₁.setToken_of_ne hl hu rfl ha
  rcases h.approve with rfl | happrove
  · exact hc₂
  · have hp := happrove.invoked
    rw [hl.token.approve _ _ _ _ _ _ htp] at hp
    obtain ⟨v, -, hv, -, hw₃⟩ := approve_spec hp
    rw [hw₃]
    refine hc₂.setToken_of_ne hl hv rfl ?_
    cases loaded.flow.direction
    · exact hb
    · exact ha

/-- The route is not given, so cannot write, an account the filter refuses. -/
theorem router_frame (hl : env.Lawful) {data : Bytes} {w w₁ w₂ : RelayerWorld} {k : Pubkey}
    (hallowed : ∀ acc ∈ ctx.remaining, swapAccountAllowed accs w acc.pubkey = true)
    (hk : swapAccountAllowed accs w k = false)
    (h : Called env.runtime (routerIx ctx accs data) w₁ w₂) : w₂.accounts k = w₁.accounts k := by
  apply hl.cpi.frame h.invoked
  rintro ⟨acc, hacc, rfl, -⟩
  simp only [routerIx, forwardMetas, List.mem_map] at hacc
  obtain ⟨acc', hacc', rfl⟩ := hacc
  have hok := hallowed acc' hacc'
  rw [hk] at hok
  cases hok

/-- Of the authority's token accounts the filter lets only the operating ones through. -/
theorem swapAccountAllowed_owned {w : RelayerWorld} {k : Pubkey}
    (hk : tokenAt w.accounts k = some t) (howner : t.owner = accs.relayerAuthority)
    (hb : k ≠ accs.baseAta) (ha : k ≠ accs.assetAta) : swapAccountAllowed accs w k = false := by
  simp only [swapAccountAllowed, hb, ha, or_self, if_false, hk]
  split
  · rfl
  · simp [howner]

theorem custody_of_router (hl : env.Lawful) {data : Bytes} {w w₁ w₂ : RelayerWorld}
    {t₀ : TokenAccount} (hauth : accs.relayerAuthority = relayerAuthority env.runtime)
    (hallowed : ∀ acc ∈ ctx.remaining, swapAccountAllowed accs w acc.pubkey = true)
    (hb : custodyKey env.runtime mint tp ≠ accs.baseAta)
    (ha : custodyKey env.runtime mint tp ≠ accs.assetAta)
    (hw : Custody env w.accounts mint tp t₀)
    (h : Called env.runtime (routerIx ctx accs data) w₁ w₂)
    (hc : Custody env w₁.accounts mint tp t) : Custody env w₂.accounts mint tp t := by
  have hsame := router_frame hl hallowed
    (swapAccountAllowed_owned hw.token (hw.owner.trans hauth.symm) hb ha) h
  exact hc.of_token (ambient_of_invoke hl h.invoked)
    ((tokenAt_congr hsame).trans hc.token) hc.owner hc.close

/-- Across the measured part the operating accounts are as they were read before and after, and no
other custody account moves. -/
theorem custody_of_measured (hl : env.Lawful) {swapIn out : UInt64} {data : Bytes}
    {w w₁ w₂ v₁ v₂ v₃ : RelayerWorld} {base asset base' asset' t₀ : TokenAccount}
    (htp : IsTokenProgram accs.tokenProgram)
    (hauth : accs.relayerAuthority = relayerAuthority env.runtime)
    (hallowed : ∀ acc ∈ ctx.remaining, swapAccountAllowed accs w acc.pubkey = true)
    (hne : accs.swapProgram ≠ programId) (hw : Custody env w.accounts mint tp t₀)
    (h : MeasuredSwap env.runtime ctx accs loaded swapIn data w₁ w₂ out base asset base' asset'
      v₁ v₂ v₃)
    (hc : Custody env w₁.accounts mint tp t) :
    ∃ t', Custody env w₂.accounts mint tp t' ∧
      (custodyKey env.runtime mint tp = accs.baseAta → t = base ∧ t' = base') ∧
      (custodyKey env.runtime mint tp = accs.assetAta → t = asset ∧ t' = asset') ∧
      (custodyKey env.runtime mint tp ≠ accs.baseAta →
        custodyKey env.runtime mint tp ≠ accs.assetAta → t' = t) := by
  have hamb : Ambient env w₁.accounts w₂.accounts :=
    ambient_of_calls hl ((h.prepared.calls htp).trans (h.router.calls hne))
  by_cases hb : custodyKey env.runtime mint tp = accs.baseAta
  · have hafter := h.base_after
    rw [← hb] at hafter
    have hc' : Custody env w₂.accounts mint tp base' := hc.of_token hamb hafter
      (h.base_untampered.owner.trans hauth) h.base_untampered.closeAuthority
    exact ⟨base', hc', fun hk => ⟨(hc.token_eq hk h.base_before).symm, rfl⟩,
      fun hk => ⟨(hc.token_eq hk h.asset_before).symm, (hc'.token_eq hk h.asset_after).symm⟩,
      fun hn => absurd hb hn⟩
  · by_cases ha : custodyKey env.runtime mint tp = accs.assetAta
    · have hafter := h.asset_after
      rw [← ha] at hafter
      exact ⟨asset', hc.of_token hamb hafter (h.asset_untampered.owner.trans hauth)
        h.asset_untampered.closeAuthority, fun hk => absurd hk hb,
        fun hk => ⟨(hc.token_eq hk h.asset_before).symm, rfl⟩, fun _ hn => absurd ha hn⟩
    · have hprep := custody_of_prepared hl htp hb ha h.prepared hc
      exact ⟨t, custody_of_router hl hauth hallowed hb ha hw h.router hprep,
        fun hk => absurd hk hb, fun hk => absurd hk ha, fun _ _ => rfl⟩

/-- Custody across a `swap`: the input mint's account lets go of the flow's amount, the output
mint's takes in the net output. -/
theorem swap_custody (hl : env.Lawful) {data : Bytes} {w w' : RelayerWorld}
    {swapIn feeBefore out netOut fee : UInt64} {w₁ w₂ w₃ : RelayerWorld}
    (hwf : AtaWellFormed env.runtime w.accounts)
    (hok : ConfigOk env.runtime accs.pairConfig loaded.config)
    (hmints : loaded.config.baseMint ≠ loaded.config.assetMint)
    (h : SwapSpec env.runtime ctx accs data w w' loaded swapIn feeBefore out netOut fee w₁ w₂ w₃)
    (hc : Custody env w.accounts mint tp t) :
    ∃ t', Custody env w'.accounts mint tp t' ∧
      Covered t t'
        (if mint = (inOut loaded.flow.direction loaded.config.baseMint loaded.config.assetMint).2
          then netOut.toNat else 0)
        (if mint = (inOut loaded.flow.direction loaded.config.baseMint loaded.config.assetMint).1
          then loaded.flow.amount.toNat else 0) := by
  have htp := h.load.token_program
  have hauth := hok.toAddressed.authority_eq hl h.load.authority
  obtain ⟨hbase, hasset⟩ := h.load.custodyKey_iff hl hwf hok.toAddressed hc
  have hvault : accs.feeVault ≠ accs.assetAta := by
    obtain ⟨ua, hua⟩ := h.load.asset_ata
    rw [hauth, ← h.load.asset_mint] at hua
    rw [← h.vault_pinned, ← hua.address]
    exact hok.vault _
  -- the four parts of the instruction
  obtain ⟨t₁, hc₁, hs₁⟩ := custody_of_input hl htp hvault h.input hc
  obtain ⟨base, asset, base', asset', v₁, v₂, v₃, hm⟩ := h.measured
  obtain ⟨t₂, hc₂, hmb, hma, hmo⟩ :=
    custody_of_measured hl htp hauth h.allowed h.router_ne hc hm hc₁
  obtain ⟨t₃, cut, hc₃, hcut, hcut₀, hs₃⟩ := custody_of_output hl htp hvault h.output hc₂
  have howner := (quiet_of_calls hl h.calls).owner_eq
    (owner_of_programAt (programAt_of_flowAt h.load.flow_at))
  obtain ⟨t₄, hc₄, hg₄⟩ := custodyGuarded_of_write hl howner mint tp t₃ hc₃
  rw [h.result]
  refine ⟨t₄, hc₄, ?_⟩
  refine .before ?_ hg₄
  have hsplit := h.input.split
  have hin := hm.input
  have hout := hm.output
  have hzb : base'.delegatedAmount.toNat = 0 := by rw [hm.base_untampered.delegatedAmount]; rfl
  have hza : asset'.delegatedAmount.toNat = 0 := by rw [hm.asset_untampered.delegatedAmount]; rfl
  unfold Covered
  by_cases hmb' : mint = loaded.config.baseMint
  · have hna : ¬ custodyKey env.runtime mint tp = accs.assetAta := by
      rw [hasset, hmb']
      exact hmints
    obtain ⟨rfl, rfl⟩ := hmb (hbase.mpr hmb')
    have hg₁ := (hs₁.other hna).covered
    have hg₃ := (hs₃.other hna).covered
    cases hd : loaded.flow.direction with
    | deposit =>
        have hzero := h.input.fee_deposit hd
        simp only [hd, inOut] at hin ⊢
        simp only [hmb', hmints, if_true, if_false]
        omega
    | withdraw =>
        simp only [hd, inOut] at hout ⊢
        simp only [hmb', hmints, if_true, if_false]
        have := hcut₀ hd
        omega
  · by_cases hma' : mint = loaded.config.assetMint
    · have hka := hasset.mpr hma'
      obtain ⟨rfl, rfl⟩ := hma hka
      obtain ⟨ha₁, hd₁⟩ := hs₁.asset hka
      obtain ⟨ha₃, hd₃⟩ := hs₃.asset hka
      rw [UInt64.le_iff_toNat_le] at hd₁ hd₃
      cases hd : loaded.flow.direction with
      | deposit =>
          have hzero := h.input.fee_deposit hd
          simp only [hd, inOut] at hout ⊢
          simp only [hma', hmints.symm, if_true, if_false]
          omega
      | withdraw =>
          simp only [hd, inOut] at hin ⊢
          simp only [hma', hmints.symm, if_true, if_false]
          have := hcut₀ hd
          omega
    · have hna := fun hk => hma' (hasset.mp hk)
      have hnb := fun hk => hmb' (hbase.mp hk)
      obtain rfl := hmo hnb hna
      have hg₁ := (hs₁.other hna).covered
      have hg₃ := (hs₃.other hna).covered
      cases loaded.flow.direction <;>
        · simp only [inOut, hmb', hma', if_false]
          omega

end

/-! ## Send and refund -/

/-- Custody across a `send` or `refund`: the account the tokens leave from lets go of the flow's
amount, as a delegation to NTT. -/
theorem outbound_custody {env : Env} (hl : env.Lawful) {w w' : RelayerWorld} {ctx : Context}
    {accs : OutboundAccounts} {count : UInt8} {loaded : FlowLoaded} {nttProgram fromAta : Pubkey}
    {event : Event} {w₁ w₂ w₃ : RelayerWorld} (hp : (env.nttMint nttProgram).isSome)
    (h : OutboundSpec env.runtime ctx accs count w w' loaded nttProgram fromAta event w₁ w₂ w₃)
    {mint tp : Pubkey} {t : TokenAccount} (hc : Custody env w.accounts mint tp t) :
    ∃ t', Custody env w'.accounts mint tp t' ∧ Covered t t' 0
      (if custodyKey env.runtime mint tp = fromAta then loaded.flow.amount.toNat else 0) := by
  have htp := h.load.token_program
  have happrove := h.bridged.approve.invoked
  rw [hl.token.approve _ _ _ _ _ _ htp] at happrove
  obtain ⟨s, -, hs, -, hw₁⟩ := approve_spec happrove
  have happroved : ∃ t₁, Custody env w₁.accounts mint tp t₁ ∧ Covered t t₁ 0
      (if custodyKey env.runtime mint tp = fromAta then loaded.flow.amount.toNat else 0) := by
    rw [hw₁]
    by_cases hk : custodyKey env.runtime mint tp = fromAta
    · obtain rfl := hc.token_eq hk hs
      refine ⟨_, hc.setToken_self hl hk rfl rfl rfl, ?_⟩
      rw [if_pos hk]
      unfold Covered
      dsimp only
      omega
    · refine ⟨t, hc.setToken_of_ne hl hs rfl hk, ?_⟩
      rw [if_neg hk]
      exact .of_guarded (.refl t)
  obtain ⟨t₁, hc₁, hcov⟩ := happroved
  have hcalls := h.bridged.calls htp (hl.ntt_ne_programId hp)
  have howner := (quiet_of_calls hl hcalls).owner_eq
    (owner_of_programAt (programAt_of_flowAt h.load.flow_at))
  have hntt : CustodyGuarded env w₁.accounts w₃.accounts :=
    (custodyGuarded_of_ntt hl hp h.bridged.lock).trans
      (custodyGuarded_of_ntt hl hp h.bridged.publish)
  have hclose : CustodyGuarded env w₃.accounts w'.accounts := by
    rw [h.result]
    exact custodyGuarded_of_close hl (w := w₃.emit event) howner
  obtain ⟨t', hc', hg⟩ := hntt.trans hclose mint tp t₁ hc₁
  exact ⟨t', hc', hcov.before hg⟩

end FogoYield.Relayer
