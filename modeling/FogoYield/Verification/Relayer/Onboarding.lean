import FogoYield.Verification.Relayer.Isolation
import FogoYield.Verification.Relayer.Reference

/-! # Onboarding a pair

`initialize` creates the config of the pair and the relayer's two token accounts, each with `init`.
It goes through exactly where nothing was created at these addresses before. -/

namespace FogoYield.Relayer

open FogoYield.Library FogoYield.Solana

/-! ## The request -/

def globalConfigAddress (rt : RelayerRuntime) : Pubkey :=
  (rt.findProgramAddress [globalConfigSeed] programId).1

def pairConfigAddress (rt : RelayerRuntime) (base asset : Pubkey) : Pubkey :=
  (rt.findProgramAddress [pairConfigSeed, base.bytes, asset.bytes] programId).1

/-- The accounts `initialize` is called with for a pair. -/
def onboardingAccounts (rt : RelayerRuntime) (admin base asset feeVault tp : Pubkey) :
    InitializeAccounts where
  authority := admin
  globalConfig := globalConfigAddress rt
  pairConfig := pairConfigAddress rt base asset
  relayerAuthority := relayerAuthority rt
  baseMint := base
  assetMint := asset
  baseAta := custodyKey rt base tp
  assetAta := custodyKey rt asset tp
  feeVault := feeVault
  tokenProgram := tp
  associatedTokenProgram := associatedTokenProgram
  systemProgram := systemProgram

/-- The mint is one of the token program's. -/
def IsMintOf (a : RelayerAccounts) (mint tp : Pubkey) : Prop :=
  (∃ m, mintAt a mint = some m) ∧ (a mint).owner = tp

/-- The admin asks for a pair that does not exist, of two mints of one token program, with fees
within the limit and a fee vault of the asset mint that is not the relayer's account. -/
structure Onboards (rt : RelayerRuntime) (w : RelayerWorld) (ctx : Context)
    (admin base asset feeVault tp : Pubkey) (args : InitializeArgs) : Prop where
  signer : admin ∈ ctx.signers
  global : ∃ g, globalConfigAt w.accounts (globalConfigAddress rt) = some g ∧ g.admin = admin
  no_pair : pairConfigAt w.accounts (pairConfigAddress rt base asset) = none
  distinct : base ≠ asset
  token_program : IsTokenProgram tp
  base_mint : IsMintOf w.accounts base tp
  asset_mint : IsMintOf w.accounts asset tp
  vault : ∃ t, tokenAt w.accounts feeVault = some t ∧ (w.accounts feeVault).owner = tp ∧
    t.mint = asset
  vault_ne : feeVault ≠ custodyKey rt asset tp
  fees : args.depositFeeBps ≤ maxFeeBps ∧ args.withdrawFeeBps ≤ maxFeeBps
  /-- The admin has a key of its own: nobody signs for the addresses that are created. -/
  wallet : admin ≠ pairConfigAddress rt base asset ∧ admin ≠ custodyKey rt base tp ∧
    admin ≠ custodyKey rt asset tp

/-- The rent of the three accounts. -/
def onboardingRent (rt : RelayerRuntime) (w : RelayerWorld) (base asset tp : Pubkey) : ℕ :=
  rentDue rt w.accounts (pairConfigAddress rt base asset) pairConfigSpace +
    rentDue rt w.accounts (custodyKey rt base tp) tokenAccountLen +
    rentDue rt w.accounts (custodyKey rt asset tp) tokenAccountLen

/-! ## The global config -/

/-- A global config stores the canonical bump of its address. -/
theorem run_globalBump {env : Env} (hl : env.Lawful) {w₀ w : RelayerWorld}
    {ts : List RelayerTransition} (hg : Genesis env w₀) (hr : RelayerRun env w₀ ts w)
    {k : Pubkey} {g : GlobalConfig} (hk : globalConfigAt w.accounts k = some g) :
    env.runtime.findProgramAddress [globalConfigSeed] programId = (k, g.bump) := by
  induction hr generalizing g with
  | nil =>
      rw [hg.globalConfigAt_none k] at hk
      cases hk
  | snoc hr hstep ih =>
      have hw := run_reached hl hg hr
      cases (hstep.effect hl hw.pinned).globalStep k with
      | kept _ heq => exact ih (heq ▸ hk)
      | bootstrapped haddr hs _ hpost =>
          obtain rfl := Option.some.inj (hpost.symm.trans hk)
          rw [hs.address, haddr]
      | proposed _ _ hpre hpost =>
          obtain rfl := Option.some.inj (hpost.symm.trans hk)
          have hbump := ih hpre
          exact hbump
      | accepted _ _ hpre hpost =>
          obtain rfl := Option.some.inj (hpost.symm.trans hk)
          have hbump := ih hpre
          exact hbump

/-! ## Addresses -/

theorem custodyKey_ne_pairConfig {rt : RelayerRuntime} (h : rt.AddressLaws)
    (mint tp base asset : Pubkey) : custodyKey rt mint tp ≠ pairConfigAddress rt base asset := by
  intro heq
  exact absurd (h.find_program heq) (by decide)

theorem custodyKey_inj {rt : RelayerRuntime} (h : rt.AddressLaws) {mint mint' tp : Pubkey}
    (heq : custodyKey rt mint tp = custodyKey rt mint' tp) : mint = mint' :=
  (h.ata_inj heq).2.1

/-! ## The three accounts -/

abbrev createConfig (rt : RelayerRuntime) (admin base asset : Pubkey) (w : RelayerWorld) :
    RelayerResult RelayerWorld :=
  createAccount rt admin (pairConfigAddress rt base asset) programId pairConfigSpace (.raw []) w

abbrev createCustody (rt : RelayerRuntime) (admin mint tp : Pubkey) (w : RelayerWorld) :
    RelayerResult RelayerWorld :=
  createAccount rt admin (custodyKey rt mint tp) tp tokenAccountLen
    (.token ⟨mint, relayerAuthority rt, 0, none, 0, none⟩) w

/-- The config, then the two token accounts. -/
structure Creates (rt : RelayerRuntime) (admin base asset tp : Pubkey)
    (w w₀ w₁ w₂ : RelayerWorld) : Prop where
  config : createConfig rt admin base asset w = .ok w₀
  base : createCustody rt admin base tp w₀ = .ok w₁
  asset : createCustody rt admin asset tp w₁ = .ok w₂

section

variable {rt : RelayerRuntime} {w w' : RelayerWorld} {ctx : Context}
  {admin base asset feeVault tp : Pubkey} {args : InitializeArgs}

/-- The three accounts can be created exactly where nothing was before, and if the admin has the
rent. -/
theorem creates_iff (hrt : rt.AddressLaws)
    (h : Onboards rt w ctx admin base asset feeVault tp args) :
    (∃ w₀ w₁ w₂, Creates rt admin base asset tp w w₀ w₁ w₂) ↔
      Unused w.accounts (pairConfigAddress rt base asset) ∧
      Unused w.accounts (custodyKey rt base tp) ∧ Unused w.accounts (custodyKey rt asset tp) ∧
      onboardingRent rt w base asset tp ≤ (w.accounts admin).lamports := by
  obtain ⟨hpair, hbase, hasset⟩ := h.wallet
  have hbp := custodyKey_ne_pairConfig hrt base tp base asset
  have hap := custodyKey_ne_pairConfig hrt asset tp base asset
  have hab : custodyKey rt asset tp ≠ custodyKey rt base tp :=
    fun heq => h.distinct (custodyKey_inj hrt heq).symm
  unfold onboardingRent
  constructor
  · rintro ⟨w₀, w₁, w₂, h₀, h₁, h₂⟩
    obtain ⟨hu₀, hr₀⟩ := createAccount_ok_iff.mp ⟨w₀, h₀⟩
    obtain ⟨hu₁, hr₁⟩ := createAccount_ok_iff.mp ⟨w₁, h₁⟩
    obtain ⟨hu₂, hr₂⟩ := createAccount_ok_iff.mp ⟨w₂, h₂⟩
    obtain ⟨hl₀, hk₀⟩ := createAccount_lamports hpair h₀
    obtain ⟨hl₁, hk₁⟩ := createAccount_lamports hbase h₁
    rw [(createAccount_spec h₀).unused_iff hbp] at hu₁
    rw [(createAccount_spec h₁).unused_iff hab, (createAccount_spec h₀).unused_iff hap] at hu₂
    refine ⟨hu₀, hu₁, hu₂, ?_⟩
    rw [rentDue, hk₀ _ hbp hbase.symm] at hr₁ hl₁
    rw [rentDue, hk₁ _ hab hasset.symm, hk₀ _ hap hasset.symm] at hr₂
    simp only [rentDue] at hr₀ hl₀ ⊢
    omega
  · rintro ⟨hu₀, hu₁, hu₂, hrent⟩
    obtain ⟨w₀, h₀⟩ : ∃ w₀, createConfig rt admin base asset w = .ok w₀ :=
      createAccount_ok_iff.mpr ⟨hu₀, by omega⟩
    obtain ⟨hl₀, hk₀⟩ := createAccount_lamports hpair h₀
    obtain ⟨w₁, h₁⟩ : ∃ w₁, createCustody rt admin base tp w₀ = .ok w₁ := by
      refine createAccount_ok_iff.mpr ⟨((createAccount_spec h₀).unused_iff hbp).mpr hu₁, ?_⟩
      rw [rentDue, hk₀ _ hbp hbase.symm]
      simp only [rentDue] at hl₀ hrent
      omega
    obtain ⟨hl₁, hk₁⟩ := createAccount_lamports hbase h₁
    obtain ⟨w₂, h₂⟩ : ∃ w₂, createCustody rt admin asset tp w₁ = .ok w₂ := by
      refine createAccount_ok_iff.mpr ⟨((createAccount_spec h₁).unused_iff hab).mpr
        (((createAccount_spec h₀).unused_iff hap).mpr hu₂), ?_⟩
      rw [rentDue, hk₁ _ hab hasset.symm, hk₀ _ hap hasset.symm]
      rw [rentDue, hk₀ _ hbp hbase.symm] at hl₁
      simp only [rentDue] at hl₀ hrent
      omega
    exact ⟨w₀, w₁, w₂, h₀, h₁, h₂⟩

/-- What was loaded before an account is created is there after. -/
theorem IsMintOf.of_create {k mint owner : Pubkey} {data : Data RelayerData}
    (hc : CreateSpec k owner data w w') (htp : IsTokenProgram tp)
    (h : IsMintOf w.accounts mint tp) : IsMintOf w'.accounts mint tp := by
  have hne : mint ≠ k := by
    rintro rfl
    exact htp.ne_systemProgram (h.2.symm.trans hc.was_system)
  obtain ⟨⟨m, hm⟩, howner⟩ := h
  have hsame := hc.others mint hne
  exact ⟨⟨m, hsame.mintAt.trans hm⟩, hsame.1.trans howner⟩

theorem tokenAt_of_create {k j owner : Pubkey} {data : Data RelayerData} {t : TokenAccount}
    (hc : CreateSpec k owner data w w') (h : tokenAt w.accounts j = some t) :
    tokenAt w'.accounts j = some t ∧ (w'.accounts j).owner = (w.accounts j).owner := by
  have hne : j ≠ k := by
    rintro rfl
    rw [hc.tokenAt_none] at h
    cases h
  exact ⟨(hc.others j hne).tokenAt.trans h, (hc.others j hne).1⟩

/-- A request goes through exactly if the three accounts can be created. -/
theorem initializePair_iff (h : Onboards rt w ctx admin base asset feeVault tp args)
    (hbump : ∀ g, globalConfigAt w.accounts (globalConfigAddress rt) = some g →
      rt.createProgramAddress ([globalConfigSeed] ++ [[g.bump]]) programId =
        some (globalConfigAddress rt)) :
    (∃ w', initializePair rt ctx (onboardingAccounts rt admin base asset feeVault tp) args w =
      .ok w') ↔ ∃ w₀ w₁ w₂, Creates rt admin base asset tp w w₀ w₁ w₂ := by
  simp only [initializePair, initAssociatedToken, bind_eq_ok, loadSigner_eq_ok, loadAccount_eq_ok,
    loadMint_eq_ok, loadToken_eq_ok, checkTokenInterface_eq_ok, checkProgram_eq_ok,
    checkSeeds_eq_ok, findSeeds_eq_ok, checkTokenMint_eq_ok, require_eq_ok, constrain_eq_ok,
    pure_eq_ok, exists_const]
  constructor
  · rintro ⟨w', -, g, -, -, -, -, -, -, -, -, -, -, -, -, bump, -, w₀, h₀, -, -, w₁, ⟨-, -, -, -, h₁⟩,
      w₂, ⟨-, -, -, -, h₂⟩, -⟩
    exact ⟨w₀, w₁, w₂, h₀, h₁, h₂⟩
  · rintro ⟨w₀, w₁, w₂, h₀, h₁, h₂⟩
    obtain ⟨g, hg, hadmin⟩ := h.global
    obtain ⟨t, ht, hprogram, hmint⟩ := h.vault
    have hc₀ := createAccount_spec h₀
    have hc₁ := createAccount_spec h₁
    have hc₂ := createAccount_spec h₂
    obtain ⟨⟨mb, hmb⟩, hbp⟩ := h.base_mint
    obtain ⟨⟨ma, hma⟩, hap⟩ := h.asset_mint
    obtain ⟨⟨mb₀, hmb₀⟩, hbp₀⟩ := h.base_mint.of_create hc₀ h.token_program
    obtain ⟨⟨ma₁, hma₁⟩, hap₁⟩ :=
      (h.asset_mint.of_create hc₀ h.token_program).of_create hc₁ h.token_program
    obtain ⟨ht₀, hp₀⟩ := tokenAt_of_create hc₀ ht
    obtain ⟨ht₁, hp₁⟩ := tokenAt_of_create hc₁ ht₀
    obtain ⟨ht₂, hp₂⟩ := tokenAt_of_create hc₂ ht₁
    have hvalid : (initialConfig (onboardingAccounts rt admin base asset feeVault tp) args
        (rt.findProgramAddress [relayerSeed] programId).2
        (rt.findProgramAddress [pairConfigSeed, base.bytes, asset.bytes] programId).2).validate =
          .ok () := by
      refine PairConfig.validate_eq_ok.mpr ⟨?_, ?_, ?_⟩
      · intro leg
        cases leg
        · exact h.fees.1
        · exact h.fees.2
      · intro leg v hv
        cases hv
      · intro p hp
        cases hp
    refine ⟨_, h.signer, g, hg, mb, hmb, ma, hma, t, ht, h.token_program, rfl, rfl, hbump g hg,
      hadmin, _, rfl, w₀, h₀, _, rfl, w₁, ⟨rfl, mb₀, hmb₀, hbp₀, h₁⟩, w₂,
      ⟨rfl, ma₁, hma₁, hap₁, h₂⟩, t, ⟨ht₂, ?_, hmint⟩, h.vault_ne, (), hvalid, rfl⟩
    exact ((hp₂.trans hp₁).trans hp₀).trans hprogram

end

/-! ## Onboarding -/

/-- A pair cannot have a mint of another one: the relayer's account for it exists. -/
theorem not_initialized_of_shared {env : Env} (hl : env.Lawful) {w₀ w : RelayerWorld}
    {ts : List RelayerTransition} (hg : Genesis env w₀) (hr : RelayerRun env w₀ ts w)
    {k : Pubkey} {c : PairConfig} {d : Direction} (hc : pairConfigAt w.accounts k = some c)
    {ctx : Context} {accs : InitializeAccounts} {args : InitializeArgs}
    (hshared : c.receiveMint d = accs.baseMint ∨ c.receiveMint d = accs.assetMint) :
    ¬ ∃ w', initializePair env.runtime ctx accs args w = .ok w' := by
  rintro ⟨w', h⟩
  obtain ⟨g, relayerBump, bump, w₀, w₁, w₂, hs⟩ := initializePair_spec h
  obtain ⟨hbase, hasset, -⟩ := hs.fresh hl
  obtain ⟨tp, hcustody⟩ := (run_isolated hl hg hr).custody k c hc
  obtain ⟨t, ht⟩ := hcustody d
  rcases hshared with heq | heq
  · exact hbase tp t (heq ▸ ht)
  · exact hasset tp t (heq ▸ ht)

/-- In every reachable state a pair can be onboarded exactly if nothing was created at its address
and at the relayer's accounts for its two mints, by whomever, and the admin has the rent. No pair
that shares a mint with another one can. -/
theorem onboarding_iff {env : Env} (hl : env.Lawful) {w₀ w : RelayerWorld}
    {ts : List RelayerTransition} (hg : Genesis env w₀) (hr : RelayerRun env w₀ ts w)
    {ctx : Context} {admin base asset feeVault tp : Pubkey} {args : InitializeArgs}
    (h : Onboards env.runtime w ctx admin base asset feeVault tp args) :
    ((∃ w', initializePair env.runtime ctx
        (onboardingAccounts env.runtime admin base asset feeVault tp) args w = .ok w') ↔
      Unused w.accounts (pairConfigAddress env.runtime base asset) ∧
      Unused w.accounts (custodyKey env.runtime base tp) ∧
      Unused w.accounts (custodyKey env.runtime asset tp) ∧
      onboardingRent env.runtime w base asset tp ≤ (w.accounts admin).lamports) ∧
    ∀ k c d, pairConfigAt w.accounts k = some c → c.receiveMint d = base ∨ c.receiveMint d = asset →
      ¬ ∃ w', initializePair env.runtime ctx
        (onboardingAccounts env.runtime admin base asset feeVault tp) args w = .ok w' := by
  constructor
  · have hbump : ∀ g, globalConfigAt w.accounts (globalConfigAddress env.runtime) = some g →
        env.runtime.createProgramAddress ([globalConfigSeed] ++ [[g.bump]]) programId =
          some (globalConfigAddress env.runtime) := by
      intro g hk
      have hcreate := hl.address.create_find [globalConfigSeed] programId
      rw [run_globalBump hl hg hr hk] at hcreate
      exact hcreate
    rw [initializePair_iff h hbump, creates_iff hl.address h]
  · intro k c d hc hshared
    exact not_initialized_of_shared hl hg hr hc hshared

/-! ## The reference chain -/

/-- What can be looked up of a request. -/
def requestReady (w : RelayerWorld) (base asset vault : Pubkey) : Prop :=
  (globalConfigAt w.accounts (globalConfigAddress referenceEnv.runtime)).map GlobalConfig.admin =
    some admin ∧
  (mintAt w.accounts base).isSome ∧ (w.accounts base).owner = tokenProgram ∧
  (mintAt w.accounts asset).isSome ∧ (w.accounts asset).owner = tokenProgram ∧
  (tokenAt w.accounts vault).map TokenAccount.mint = some asset ∧
  (w.accounts vault).owner = tokenProgram

instance (w : RelayerWorld) (base asset vault : Pubkey) :
    Decidable (requestReady w base asset vault) :=
  inferInstanceAs (Decidable (_ ∧ _ ∧ _ ∧ _ ∧ _ ∧ _ ∧ _))

/-- The admin is a wallet: no address that is derived. -/
theorem admin_not_derived (seeds : List Bytes) (p : Pubkey) :
    admin ≠ (referenceEnv.runtime.findProgramAddress seeds p).1 :=
  not_derived (by decide +kernel) (by decide) seeds p

theorem onboards_of_ready {w : RelayerWorld} {base asset vault : Pubkey}
    (hready : requestReady w base asset vault)
    (hpair : pairConfigAt w.accounts (pairConfigAddress referenceEnv.runtime base asset) = none)
    (hne : base ≠ asset ∧ vault ≠ custodyKey referenceEnv.runtime asset tokenProgram)
    (args : InitializeArgs)
    (hfees : args.depositFeeBps ≤ maxFeeBps ∧ args.withdrawFeeBps ≤ maxFeeBps) :
    Onboards referenceEnv.runtime w ⟨[admin], []⟩ admin base asset vault tokenProgram args := by
  obtain ⟨hglobal, hbase, hbp, hasset, hap, hvault, hvp⟩ := hready
  obtain ⟨t, ht, hmint⟩ := Option.map_eq_some_iff.mp hvault
  exact
    { signer := List.mem_singleton_self _
      global := Option.map_eq_some_iff.mp hglobal
      no_pair := hpair
      distinct := hne.1
      token_program := .inl rfl
      base_mint := ⟨Option.isSome_iff_exists.mp hbase, hbp⟩
      asset_mint := ⟨Option.isSome_iff_exists.mp hasset, hap⟩
      vault := ⟨t, ht, hvp, hmint⟩
      vault_ne := hne.2
      fees := hfees
      wallet := ⟨admin_not_derived _ _, admin_not_derived _ _, admin_not_derived _ _⟩ }

def onboardingArgs : InitializeArgs :=
  ⟨50, 50, nttUsdcProgram, nttOnycProgram, (fogoIntentProgram, onreIntentProgram)⟩

/-- The first pair of the reference chain is onboarded. -/
theorem onboarding_first : ∃ ts w, RelayerRun referenceEnv (genesis 1000000000) ts w ∧
    ts.map Transition.act = [bootstrapAction] ∧
    ∃ w', initializePair referenceEnv.runtime ⟨[admin], []⟩
      (onboardingAccounts referenceEnv.runtime admin usdcMint onycMint feeVault tokenProgram)
      onboardingArgs w = .ok w' := by
  have hend : Ends (fun w => requestReady w usdcMint onycMint feeVault ∧
      (pairConfigAt w.accounts (pairConfigAddress referenceEnv.runtime usdcMint onycMint)).isNone ∧
      Unused w.accounts (pairConfigAddress referenceEnv.runtime usdcMint onycMint) ∧
      Unused w.accounts (custodyKey referenceEnv.runtime usdcMint tokenProgram) ∧
      Unused w.accounts (custodyKey referenceEnv.runtime onycMint tokenProgram) ∧
      onboardingRent referenceEnv.runtime w usdcMint onycMint tokenProgram ≤
        (w.accounts admin).lamports) (executed 1000000000 [bootstrapAction]) := by decide +kernel
  obtain ⟨ts, w, hr, hacts, hready, hpair, hunused⟩ := run_of_executed (by decide +kernel) hend
  have h := onboards_of_ready hready (Option.isNone_iff_eq_none.mp hpair) (by decide +kernel)
    onboardingArgs (by decide)
  exact ⟨ts, w, hr, hacts,
    (onboarding_iff referenceEnv_lawful (genesis_ok _) hr h).1.mpr hunused⟩

/-- There is no pair of the mints of another one the other way round. -/
theorem no_reversed_pair {env : Env} (hl : env.Lawful) {w₀ w : RelayerWorld}
    {ts : List RelayerTransition} (hg : Genesis env w₀) (hr : RelayerRun env w₀ ts w)
    {k : Pubkey} {c : PairConfig} (hc : pairConfigAt w.accounts k = some c) :
    pairConfigAt w.accounts (pairConfigAddress env.runtime c.assetMint c.baseMint) = none := by
  by_contra hne
  obtain ⟨c', hc'⟩ := Option.ne_none_iff_exists'.mp hne
  have haddr := congrArg Prod.fst (run_configOk hl hg hr _ _ hc').address
  have hmint : c'.receiveMint .withdraw = c.receiveMint .deposit :=
    (pairConfig_inj hl.address haddr).2
  cases ((run_isolated hl hg hr).distinct _ _ _ _ _ _ hc' hc hmint).2

/-- Behind the pair of USDC and ONyc, that of ONyc and USDC cannot be onboarded: the relayer's
accounts for both exist. -/
theorem shared_mint_not_onboarded : ∃ ts w, RelayerRun referenceEnv (genesis 1000000000) ts w ∧
    ts.map Transition.act = [bootstrapAction, initializeAction] ∧
    Onboards referenceEnv.runtime w ⟨[admin], []⟩ admin onycMint usdcMint offerUsdc tokenProgram
      onboardingArgs ∧
    ¬ ∃ w', initializePair referenceEnv.runtime ⟨[admin], []⟩
      (onboardingAccounts referenceEnv.runtime admin onycMint usdcMint offerUsdc tokenProgram)
      onboardingArgs w = .ok w' := by
  have hend : Ends (fun w => requestReady w onycMint usdcMint offerUsdc ∧
      (pairConfigAt w.accounts pairConfigKey).map (fun c => (c.baseMint, c.assetMint)) =
        some (usdcMint, onycMint))
      (executed 1000000000 [bootstrapAction, initializeAction]) := by decide +kernel
  obtain ⟨ts, w, hr, hacts, hready, hpair⟩ := run_of_executed (by decide +kernel) hend
  obtain ⟨c, hc, hmints⟩ := Option.map_eq_some_iff.mp hpair
  obtain ⟨hbase, hasset⟩ := Prod.mk.inj hmints
  have hnone := no_reversed_pair referenceEnv_lawful (genesis_ok _) hr hc
  rw [hbase, hasset] at hnone
  refine ⟨ts, w, hr, hacts, onboards_of_ready hready hnone (by decide +kernel) onboardingArgs
    (by decide), ?_⟩
  have hshared : c.receiveMint .deposit = usdcMint := hbase
  exact not_initialized_of_shared referenceEnv_lawful (genesis_ok _) hr hc (.inr hshared)

end FogoYield.Relayer
