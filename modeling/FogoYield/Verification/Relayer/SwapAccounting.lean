import FogoYield.Verification.Relayer.Isolation

/-! # The accounting of a swap

The router is arbitrary code, called with the signature of the authority that owns every pair's
tokens. What a swap does to each token account is put together from its parts: the fee on the
input, the route between two readings of the operating accounts, the fee on the output. -/

namespace FogoYield.Relayer

open FogoYield.Library FogoYield.Solana

/-- The operating accounts and the vault are three accounts. -/
structure Apart (accs : SwapAccounts) : Prop where
  operating : accs.baseAta ≠ accs.assetAta
  base : accs.feeVault ≠ accs.baseAta
  asset : accs.feeVault ≠ accs.assetAta

theorem swap_apart {env : Env} (hl : env.Lawful) {accs : SwapAccounts} {loaded : FlowLoaded}
    {w : RelayerWorld} (h : FlowLoad env.runtime accs.toFlowAccounts w loaded)
    (hmints : loaded.config.baseMint ≠ loaded.config.assetMint)
    (hvault : ∀ t, tokenAt w.accounts accs.feeVault = some t → t.owner ≠ accs.relayerAuthority) :
    Apart accs := by
  obtain ⟨tb, hb⟩ := h.base_ata
  obtain ⟨ta, ha⟩ := h.asset_ata
  refine ⟨?_, ?_, ?_⟩
  · intro heq
    rw [← hb.address, ← ha.address, ← h.base_mint, ← h.asset_mint] at heq
    exact hmints (hl.address.ata_inj heq).2.1
  · intro heq
    exact hvault tb (heq ▸ hb.token) hb.owner
  · intro heq
    exact hvault ta (heq ▸ ha.token) ha.owner

/-! ## The fee -/

/-- `fee` goes from the asset account to the vault. -/
structure SkimEffect (accs : SwapAccounts) (fee : ℕ) (a a' : RelayerAccounts) : Prop where
  tokens : TokenOnly a a'
  frame : ∀ k, k ≠ accs.assetAta → k ≠ accs.feeVault → a' k = a k
  paid : balance a' accs.assetAta + fee = balance a accs.assetAta
  gained : balance a' accs.feeVault = balance a accs.feeVault + fee
  untampered : ∀ t owner, tokenAt a accs.assetAta = some t → Untampered t owner →
    ∃ t', tokenAt a' accs.assetAta = some t' ∧ Untampered t' owner

theorem SkimEffect.refl (accs : SwapAccounts) (a : RelayerAccounts) : SkimEffect accs 0 a a :=
  ⟨.refl a, fun _ _ _ => rfl, rfl, rfl, fun t _ ht hu => ⟨t, ht, hu⟩⟩

theorem skimEffect_of_transfer {accs : SwapAccounts} {tp m : Pubkey} {fee : UInt64}
    {a a' : RelayerAccounts} {s s' d : TokenAccount} {authority : Pubkey}
    (hne : accs.assetAta ≠ accs.feeVault)
    (h : TransferSpec tp accs.assetAta m accs.feeVault fee a a' s s' d)
    (hdebit : s.debit authority fee = some s') : SkimEffect accs fee.toNat a a' := by
  have hsource := h.source_after hne
  refine ⟨h.tokenOnly hne, fun k ha hv => h.frame ha hv, ?_, ?_, ?_⟩
  · rw [balance_of_tokenAt hsource, balance_of_tokenAt h.source_at]
    exact h.debited
  · rw [balance_of_tokenAt h.dest_after, balance_of_tokenAt h.dest_at]
    exact h.credited
  · intro t owner ht hu
    obtain rfl := Option.some.inj (h.source_at.symm.trans ht)
    refine ⟨s', hsource, h.same_owner.trans hu.owner, TokenAccount.debit_delegate hdebit hu.delegate,
      ?_, h.same_close.trans hu.closeAuthority⟩
    have hle := h.delegated
    rw [hu.delegatedAmount] at hle
    exact UInt64.le_antisymm hle UInt64.zero_le

theorem Skimmed.effect {env : Env} (hl : env.Lawful) {accs : SwapAccounts} {loaded : FlowLoaded}
    {fee : UInt64} {w w' : RelayerWorld} (htp : IsTokenProgram accs.tokenProgram)
    (hap : Apart accs) (h : Skimmed env.runtime accs loaded fee w w') :
    SkimEffect accs fee.toNat w.accounts w'.accounts := by
  rcases h with ⟨rfl, rfl⟩ | h
  · exact .refl accs _
  · have hcall := h.invoked
    rw [hl.token.transferChecked _ _ _ _ _ _ _ _ htp] at hcall
    obtain ⟨s, s', d, hspec, hdebit⟩ := transferChecked_debit hap.asset.symm hcall
    exact skimEffect_of_transfer hap.asset.symm hspec hdebit

theorem SkimEffect.base {accs : SwapAccounts} {fee : ℕ} {a a' : RelayerAccounts} (hap : Apart accs)
    (h : SkimEffect accs fee a a') : a' accs.baseAta = a accs.baseAta :=
  h.frame _ hap.operating hap.base.symm

/-! ## The route -/

section

variable {env : Env} {ctx : Context} {accs : SwapAccounts} {loaded : FlowLoaded} {data : Bytes}
variable {swapIn out : UInt64} {w w' w₁ w₂ w₃ : RelayerWorld}

theorem DelegatesPrepared.tokenOnly (hl : env.Lawful) (htp : IsTokenProgram accs.tokenProgram)
    (h : DelegatesPrepared env.runtime accs loaded swapIn w w₁ w₂ w₃) :
    TokenOnly w.accounts w₃.accounts ∧
      ∀ k, k ≠ accs.baseAta → k ≠ accs.assetAta → w₃.accounts k = w.accounts k := by
  have hrb := h.revoke_base.invoked
  have hra := h.revoke_asset.invoked
  rw [hl.token.revoke _ _ _ _ htp] at hrb hra
  obtain ⟨s, -, hs, -, hw₁⟩ := revoke_spec hrb
  obtain ⟨u, -, hu, -, hw₂⟩ := revoke_spec hra
  have hrevoked : TokenOnly w.accounts w₂.accounts := by
    rw [hw₂]
    refine .trans ?_ (.of_setToken hu _)
    rw [hw₁]
    exact .of_setToken hs _
  have hframe : ∀ k, k ≠ accs.baseAta → k ≠ accs.assetAta →
      w₂.accounts k = w.accounts k := by
    intro k hb ha
    rw [hw₂, setToken_of_ne _ _ ha, hw₁, setToken_of_ne _ _ hb]
  rcases h.approve with rfl | happrove
  · exact ⟨hrevoked, hframe⟩
  · have hp := happrove.invoked
    rw [hl.token.approve _ _ _ _ _ _ htp] at hp
    obtain ⟨v, -, hv, -, hw₃⟩ := approve_spec hp
    rw [hw₃]
    refine ⟨hrevoked.trans (.of_setToken hv _), ?_⟩
    intro k hb ha
    rw [setToken_of_ne, hframe k hb ha]
    cases loaded.flow.direction
    · exact hb
    · exact ha

/-- What the measured part of a swap that started in `w₀` does, whatever the route is: the
operating accounts are down and up by what was measured and come back untampered, and an account
the filter refuses is not touched. -/
structure RouteEffect (accs : SwapAccounts) (d : Direction) (swapIn out : ℕ)
    (w₀ w w' : RelayerWorld) : Prop where
  input : balance w'.accounts (inOut d accs.baseAta accs.assetAta).1 + swapIn =
    balance w.accounts (inOut d accs.baseAta accs.assetAta).1
  output : balance w'.accounts (inOut d accs.baseAta accs.assetAta).2 =
    balance w.accounts (inOut d accs.baseAta accs.assetAta).2 + out
  frame : ∀ k, swapAccountAllowed accs w₀ k = false → k ≠ accs.baseAta → k ≠ accs.assetAta →
    w'.accounts k = w.accounts k
  base : ∃ t, tokenAt w'.accounts accs.baseAta = some t ∧ Untampered t accs.relayerAuthority
  asset : ∃ t, tokenAt w'.accounts accs.assetAta = some t ∧ Untampered t accs.relayerAuthority
  authority : AuthorityKept accs.relayerAuthority w w'

theorem inOut_fst_balance {a : RelayerAccounts} {base asset : Pubkey} {b s : TokenAccount}
    (hb : tokenAt a base = some b) (hs : tokenAt a asset = some s) (d : Direction) :
    balance a (inOut d base asset).1 = (inOut d b.amount s.amount).1.toNat := by
  cases d
  · exact balance_of_tokenAt hb
  · exact balance_of_tokenAt hs

/-- The measured part runs the router between two states with the balances of its ends. -/
theorem measuredSwap_effect (hl : env.Lawful) (htp : IsTokenProgram accs.tokenProgram)
    (hallowed : ∀ acc ∈ ctx.remaining, swapAccountAllowed accs w acc.pubkey = true)
    (h : measuredSwap env.runtime ctx accs loaded swapIn data w₁ = .ok (out, w₂)) :
    RouteEffect accs loaded.flow.direction swapIn.toNat out.toNat w w₁ w₂ ∧
      ∃ v, Calls env.runtime w₁ v ∧ Called env.runtime (routerIx ctx accs data) v w₂ ∧
        ∀ k, balance v.accounts k = balance w₁.accounts k := by
  obtain ⟨base, asset, base', asset', v₁, v₂, v, hm, hkept⟩ := measuredSwap_kept h
  obtain ⟨htokens, hprep⟩ := hm.prepared.tokenOnly hl htp
  refine ⟨⟨?_, ?_, ?_, ⟨base', hm.base_after, hm.base_untampered⟩,
    ⟨asset', hm.asset_after, hm.asset_untampered⟩, ?_⟩,
    v, hm.prepared.calls htp, hm.router, hm.prepared.balance_eq hl htp⟩
  · rw [inOut_fst_balance hm.base_before hm.asset_before,
      inOut_fst_balance hm.base_after hm.asset_after]
    exact hm.input
  · rw [inOut_snd_balance hm.base_before hm.asset_before,
      inOut_snd_balance hm.base_after hm.asset_after]
    exact hm.output.symm
  · intro k hk hb ha
    exact (router_frame hl hallowed hk hm.router).trans (hprep k hb ha)
  · refine ⟨?_, hkept.owner.trans (htokens.owner _), hkept.data⟩
    rw [← htokens.lamports]
    exact hkept.lamports

end

/-! ## The whole swap -/

/-- A swap as four parts, with the fee each skim has taken: a deposit pays out of the output, a
withdraw out of the input. -/
structure SwapParts (env : Env) (accs : SwapAccounts) (loaded : FlowLoaded)
    (swapIn feeIn out feeOut net : ℕ) (w w₁ w₂ w₃ : RelayerWorld) : Prop where
  skim_in : SkimEffect accs feeIn w.accounts w₁.accounts
  route : RouteEffect accs loaded.flow.direction swapIn out w w₁ w₂
  skim_out : SkimEffect accs feeOut w₂.accounts w₃.accounts
  split_in : swapIn + feeIn = loaded.flow.amount.toNat
  split_out : net + feeOut = out
  fee : match loaded.flow.direction with
    | .deposit => feeIn = 0 ∧ feeOut = out * loaded.config.depositFeeBps.toNat / 10000
    | .withdraw => feeOut = 0 ∧
      feeIn = loaded.flow.amount.toNat * loaded.config.withdrawFeeBps.toNat / 10000

section

variable {env : Env} {ctx : Context} {accs : SwapAccounts} {loaded : FlowLoaded} {data : Bytes}
variable {swapIn feeBefore out netOut fee : UInt64} {w w' w₁ w₂ w₃ : RelayerWorld}

theorem InputSkimmed.effect (hl : env.Lawful) (htp : IsTokenProgram accs.tokenProgram)
    (hap : Apart accs) (h : InputSkimmed env.runtime accs loaded swapIn feeBefore w w₁) :
    SkimEffect accs feeBefore.toNat w.accounts w₁.accounts := by
  have hfee := h.fee
  cases hd : loaded.flow.direction with
  | deposit =>
      simp only [hd] at hfee
      obtain ⟨rfl, rfl⟩ := hfee
      exact .refl accs _
  | withdraw =>
      simp only [hd] at hfee
      exact hfee.2.effect hl htp hap

theorem SwapSpec.parts (hl : env.Lawful) (hap : Apart accs)
    (h : SwapSpec env.runtime ctx accs data w w' loaded swapIn feeBefore out netOut fee w₁ w₂ w₃)
    (hroute : RouteEffect accs loaded.flow.direction swapIn.toNat out.toNat w w₁ w₂) :
    ∃ feeOut, SwapParts env accs loaded swapIn.toNat feeBefore.toNat out.toNat feeOut
      netOut.toNat w w₁ w₂ w₃ := by
  have htp := h.load.token_program
  have hin := h.input.effect hl htp hap
  have hfee := h.input.fee
  have hout := h.output.outcome
  cases hd : loaded.flow.direction with
  | deposit =>
      simp only [hd] at hfee hout
      obtain ⟨hval, hsum, -, hskim⟩ := hout
      refine ⟨fee.toNat, hin, hroute, hskim.effect hl htp hap, h.input.split, hsum, ?_⟩
      simp only [hd]
      exact ⟨by rw [hfee.1]; rfl, hval⟩
  | withdraw =>
      simp only [hd] at hfee hout
      obtain ⟨rfl, -, rfl⟩ := hout
      refine ⟨0, hin, hroute, .refl accs _, h.input.split, rfl, ?_⟩
      simp only [hd, true_and]
      exact hfee.1

end

section

variable {env : Env} {accs : SwapAccounts} {loaded : FlowLoaded}
variable {swapIn feeIn out feeOut net : ℕ} {w w₁ w₂ w₃ : RelayerWorld}

/-- The vault takes in both fees, of which one is zero. -/
theorem SwapParts.vault (hap : Apart accs)
    (h : SwapParts env accs loaded swapIn feeIn out feeOut net w w₁ w₂ w₃) :
    balance w₃.accounts accs.feeVault =
      balance w.accounts accs.feeVault + feeIn + feeOut := by
  have hrefused : swapAccountAllowed accs w accs.feeVault = false := by
    simp [swapAccountAllowed]
  have hroute : balance w₂.accounts accs.feeVault = balance w₁.accounts accs.feeVault :=
    balance_congr (h.route.frame _ hrefused hap.base hap.asset)
  rw [h.skim_out.gained, hroute, h.skim_in.gained]

theorem SwapParts.input (hap : Apart accs)
    (h : SwapParts env accs loaded swapIn feeIn out feeOut net w w₁ w₂ w₃) :
    balance w₃.accounts (inOut loaded.flow.direction accs.baseAta accs.assetAta).1 +
      loaded.flow.amount.toNat =
        balance w.accounts (inOut loaded.flow.direction accs.baseAta accs.assetAta).1 := by
  have hroute := h.route.input
  have hsplit := h.split_in
  have hfee := h.fee
  cases hd : loaded.flow.direction with
  | deposit =>
      simp only [hd, inOut] at hroute hfee ⊢
      rw [balance_congr (h.skim_out.base hap)]
      rw [balance_congr (h.skim_in.base hap)] at hroute
      omega
  | withdraw =>
      simp only [hd, inOut] at hroute hfee ⊢
      have hin := h.skim_in.paid
      have hout := h.skim_out.paid
      omega

theorem SwapParts.output (hap : Apart accs)
    (h : SwapParts env accs loaded swapIn feeIn out feeOut net w w₁ w₂ w₃) :
    balance w₃.accounts (inOut loaded.flow.direction accs.baseAta accs.assetAta).2 =
      balance w.accounts (inOut loaded.flow.direction accs.baseAta accs.assetAta).2 + net := by
  have hroute := h.route.output
  have hsplit := h.split_out
  have hfee := h.fee
  cases hd : loaded.flow.direction with
  | deposit =>
      simp only [hd, inOut] at hroute hfee ⊢
      have hin := h.skim_in.paid
      have hout := h.skim_out.paid
      omega
  | withdraw =>
      simp only [hd, inOut] at hroute hfee ⊢
      rw [balance_congr (h.skim_out.base hap)]
      rw [balance_congr (h.skim_in.base hap)] at hroute
      omega

/-- The fee is the one of the direction, and the rest is what was routed or is kept. -/
theorem SwapParts.settled
    (h : SwapParts env accs loaded swapIn feeIn out feeOut net w w₁ w₂ w₃) :
    match loaded.flow.direction with
    | .deposit => swapIn = loaded.flow.amount.toNat ∧
      feeIn + feeOut = out * loaded.config.depositFeeBps.toNat / 10000 ∧
      net + (feeIn + feeOut) = out
    | .withdraw => swapIn + (feeIn + feeOut) = loaded.flow.amount.toNat ∧
      feeIn + feeOut = loaded.flow.amount.toNat * loaded.config.withdrawFeeBps.toNat / 10000 ∧
      net = out := by
  have hin := h.split_in
  have hout := h.split_out
  have hfee := h.fee
  cases hd : loaded.flow.direction with
  | deposit =>
      simp only [hd] at hfee ⊢
      omega
  | withdraw =>
      simp only [hd] at hfee ⊢
      omega

/-- An account of the authority that is not an operating account is no part of any of it. -/
theorem SwapParts.others (h : SwapParts env accs loaded swapIn feeIn out feeOut net w w₁ w₂ w₃)
    {k : Pubkey} {t : TokenAccount} (hk : tokenAt w.accounts k = some t)
    (howner : t.owner = accs.relayerAuthority) (hb : k ≠ accs.baseAta) (ha : k ≠ accs.assetAta)
    (hv : k ≠ accs.feeVault) : tokenAt w₃.accounts k = some t := by
  have hrefused := swapAccountAllowed_owned hk howner hb ha
  rw [tokenAt_congr (h.skim_out.frame k ha hv), tokenAt_congr (h.route.frame k hrefused hb ha),
    tokenAt_congr (h.skim_in.frame k ha hv)]
  exact hk

/-- The authority held nothing after the route, so the output fee cannot have touched it. -/
theorem SwapParts.authority
    (h : SwapParts env accs loaded swapIn feeIn out feeOut net w w₁ w₂ w₃) :
    AuthorityKept accs.relayerAuthority w w₃ := by
  have hkept := h.route.authority
  have hempty : tokenAt w₂.accounts accs.relayerAuthority = none := by
    have hdata := hkept.data
    unfold tokenAt
    split
    · cases hd : (w₂.accounts accs.relayerAuthority).data <;> simp_all [Data.isEmpty]
    · rfl
  have heq := h.skim_out.tokens.rest _ hempty
  refine ⟨?_, ?_, ?_⟩
  · rw [heq, ← h.skim_in.tokens.lamports]
    exact hkept.lamports
  · rw [heq, hkept.owner, h.skim_in.tokens.owner]
  · rw [heq]
    exact hkept.data

theorem SwapParts.operating (hap : Apart accs)
    (h : SwapParts env accs loaded swapIn feeIn out feeOut net w w₁ w₂ w₃) :
    (∃ t, tokenAt w₃.accounts accs.baseAta = some t ∧ Untampered t accs.relayerAuthority) ∧
      ∃ t, tokenAt w₃.accounts accs.assetAta = some t ∧ Untampered t accs.relayerAuthority := by
  obtain ⟨b, hb, hub⟩ := h.route.base
  obtain ⟨s, hs, hus⟩ := h.route.asset
  exact ⟨⟨b, (tokenAt_congr (h.skim_out.base hap)).trans hb, hub⟩, h.skim_out.untampered s _ hs hus⟩

end

/-! ## Accounting -/

/-- What a swap that turns the flow `f` of a pair `c` into `f'` does: to the two operating
accounts, around the route and to the vault, to every other account of the authority, and to the
authority itself. -/
structure SwapAccounting (env : Env) (ctx : Context) (accs : SwapAccounts) (data : Bytes)
    (c : PairConfig) (f f' : Flow) (w w' : RelayerWorld) : Prop where
  input : balance w'.accounts (inOut f.direction accs.baseAta accs.assetAta).1 +
    f.amount.toNat = balance w.accounts (inOut f.direction accs.baseAta accs.assetAta).1
  output : balance w'.accounts (inOut f.direction accs.baseAta accs.assetAta).2 =
    balance w.accounts (inOut f.direction accs.baseAta accs.assetAta).2 + f'.amount.toNat
  routed : ∃ v u swapIn out fee, Calls env.runtime w v ∧
    Called env.runtime (routerIx ctx accs data) v u ∧
    (∃ u' event, Calls env.runtime u u' ∧
      w' = (writeAccount accs.flow (.flow f') u').emit event) ∧
    balance u.accounts (inOut f.direction accs.baseAta accs.assetAta).1 + swapIn =
      balance v.accounts (inOut f.direction accs.baseAta accs.assetAta).1 ∧
    balance u.accounts (inOut f.direction accs.baseAta accs.assetAta).2 =
      balance v.accounts (inOut f.direction accs.baseAta accs.assetAta).2 + out ∧
    balance w'.accounts accs.feeVault = balance w.accounts accs.feeVault + fee ∧
    match f.direction with
    | .deposit => swapIn = f.amount.toNat ∧ fee = out * c.depositFeeBps.toNat / 10000 ∧
      f'.amount.toNat + fee = out
    | .withdraw => swapIn + fee = f.amount.toNat ∧
      fee = f.amount.toNat * c.withdrawFeeBps.toNat / 10000 ∧ f'.amount.toNat = out
  others : ∀ k t, tokenAt w.accounts k = some t → t.owner = relayerAuthority env.runtime →
    k ≠ accs.baseAta → k ≠ accs.assetAta → tokenAt w'.accounts k = some t
  base : ∃ t, tokenAt w'.accounts accs.baseAta = some t ∧
    Untampered t (relayerAuthority env.runtime)
  asset : ∃ t, tokenAt w'.accounts accs.assetAta = some t ∧
    Untampered t (relayerAuthority env.runtime)
  authority : AuthorityKept (relayerAuthority env.runtime) w w'

/-- Writing an account of the program moves no tokens. -/
theorem tokenAt_writeAccount {k : Pubkey} {d : RelayerData} {w : RelayerWorld}
    (ho : (w.accounts k).owner = programId) (j : Pubkey) :
    tokenAt (writeAccount k d w).accounts j = tokenAt w.accounts j := by
  by_cases hj : j = k
  · subst hj
    have hnot : ¬ IsTokenProgram programId := by decide
    simp [tokenAt, writeAccount, World.setAccount, ho, hnot]
  · exact tokenAt_congr (by simp [writeAccount, World.setAccount, hj])

/-- Swap accounting and isolation: whenever `swap` succeeds in a reachable state, whatever the
router does and whichever accounts it is given, the input account pays the flow's amount, the
output account gains what the flow then holds, the vault gains the fee, every other account of the
authority is as it was, and the operating accounts and the authority come out untampered. -/
theorem swap_accounting {env : Env} (hl : env.Lawful) {w₀ w w' : RelayerWorld}
    {ts : List RelayerTransition} (hg : Genesis env w₀) (hr : RelayerRun env w₀ ts w)
    {ctx : Context} {accs : SwapAccounts} {data : Bytes}
    (h : swap env.runtime ctx accs data w = .ok w')
    (hvault : ∀ t, tokenAt w.accounts accs.feeVault = some t →
      t.owner ≠ relayerAuthority env.runtime) :
    ∃ c f f', pairConfigAt w.accounts accs.pairConfig = some c ∧
      flowAt w.accounts accs.flow = some f ∧ flowAt w'.accounts accs.flow = some f' ∧
      SwapAccounting env ctx accs data c f f' w w' := by
  obtain ⟨loaded, swapIn, feeBefore, out, netOut, fee, w₁, w₂, w₃, hs, hmeasured⟩ :=
    swap_measured h
  have htp := hs.load.token_program
  have hw := run_reached hl hg hr
  have hauth : accs.relayerAuthority = relayerAuthority env.runtime :=
    (hw.configs _ _ hs.load.config_at).toAddressed.authority_eq hl hs.load.authority
  have hap : Apart accs := swap_apart hl hs.load
    ((run_isolated hl hg hr).sides _ _ hs.load.config_at) (by rwa [hauth])
  obtain ⟨hroute, v, hbefore, hrouter, hbalance⟩ :=
    measuredSwap_effect hl htp hs.allowed hmeasured
  obtain ⟨feeOut, hparts⟩ := hs.parts hl hap hroute
  -- writing the flow changes nothing that is accounted for
  have hq := quiet_of_calls hl hs.calls
  have hflow := programAt_of_flowAt hs.load.flow_at
  have howner := hq.owner_eq (owner_of_programAt hflow)
  have htoken : ∀ k, tokenAt w'.accounts k = tokenAt w₃.accounts k := by
    rw [hs.result]
    exact tokenAt_writeAccount howner
  have hbal : ∀ k, balance w'.accounts k = balance w₃.accounts k := by
    intro k
    simp only [balance, htoken]
  have hafter : flowAt w'.accounts accs.flow =
      some { loaded.flow with amount := netOut, status := .swapped } := by
    rw [hs.result, flowAt]
    show (programAt programId (writeAccount _ _ w₃).accounts _).bind _ = _
    rw [programAt_writeAccount_self howner]
    rfl
  have hkept := hparts.authority
  have hne : accs.relayerAuthority ≠ accs.flow := by
    intro heq
    have hdata := hkept.data
    rw [heq, (programAt_eq_some.mp ((hq.views _).trans hflow)).2] at hdata
    cases hdata
  have hsame : w'.accounts accs.relayerAuthority = w₃.accounts accs.relayerAuthority := by
    rw [hs.result]
    simp [World.emit, writeAccount, World.setAccount, hne]
  obtain ⟨hbase, hasset⟩ := hparts.operating hap
  refine ⟨loaded.config, loaded.flow, _, hs.load.config_at, hs.load.flow_at, hafter, ?_⟩
  rw [← hauth] at hvault
  constructor
  · rw [hbal]
    exact hparts.input hap
  · rw [hbal]
    exact hparts.output hap
  · refine ⟨v, w₂, swapIn.toNat, out.toNat, feeBefore.toNat + feeOut,
      (hs.input.calls htp).trans hbefore, hrouter, ⟨w₃, _, hs.output.calls htp, hs.result⟩, ?_, ?_,
      ?_, ?_⟩
    · rw [hbalance]
      exact hroute.input
    · rw [hbalance]
      exact hroute.output
    · rw [hbal, hparts.vault hap, Nat.add_assoc]
    · exact hparts.settled
  · intro k t hk ho hb ha
    rw [htoken]
    rw [← hauth] at ho
    exact hparts.others hk ho hb ha (fun hv => hvault t (hv ▸ hk) ho)
  · rw [htoken, ← hauth]
    exact hbase
  · rw [htoken, ← hauth]
    exact hasset
  · rw [← hauth]
    refine ⟨?_, ?_, ?_⟩
    · rw [hsame]
      exact hkept.lamports
    · rw [hsame]
      exact hkept.owner
    · rw [hsame]
      exact hkept.data

/-- On the reference chain the deposit is swapped, with the vault in other hands. -/
theorem swap_accounting_deposit :
    ∃ ts w w' ctx accs data c f f', RelayerRun referenceEnv (genesis 1000000000) ts w ∧
      ts.map Transition.act = depositActions.take 4 ∧ swapAction = .swap ctx accs data ∧
      swap referenceEnv.runtime ctx accs data w = .ok w' ∧
      SwapAccounting referenceEnv ctx accs data c f f' w w' := by
  have hend : Ends (fun w => Ends (fun _ => True) (swapAction.apply referenceEnv.runtime w) ∧
      ∀ t ∈ tokenAt w.accounts feeVault, t.owner ≠ relayerAuthority referenceEnv.runtime)
      (executed 1000000000 (depositActions.take 4)) := by decide +kernel
  obtain ⟨ts, w, hr, hacts, hlast, hvault⟩ := run_of_executed (by decide +kernel) hend
  obtain ⟨w', happly, -⟩ := hlast.exists_ok
  obtain ⟨c, f, f', -, -, -, h⟩ :=
    swap_accounting referenceEnv_lawful (genesis_ok _) hr happly hvault
  exact ⟨ts, w, w', _, _, _, c, f, f', hr, hacts, rfl, happly, h⟩

end FogoYield.Relayer
