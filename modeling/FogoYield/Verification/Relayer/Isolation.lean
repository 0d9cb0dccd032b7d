import FogoYield.Verification.Relayer.Holdings

/-! # Pairs are isolated

Neither the signed intent nor the inbox address names a pair. What keeps a message in its own pair
is that `initialize` creates the relayer's token accounts: a mint whose account exists already
cannot be used again, and no later step removes such an account. -/

namespace FogoYield.Relayer

open FogoYield.Library FogoYield.Solana

/-- No mint serves two pairs, or both sides of one. -/
def MintsDistinct (a : RelayerAccounts) : Prop :=
  ∀ k k' c c' d d', pairConfigAt a k = some c → pairConfigAt a k' = some c' →
    c.receiveMint d = c'.receiveMint d' → k = k' ∧ d = d'

/-- The relayer has an account for both mints of a pair, under one token program. -/
def PairCustody (env : Env) (a : RelayerAccounts) (c : PairConfig) : Prop :=
  ∃ tp, ∀ d, ∃ t, Custody env a (c.receiveMint d) tp t

/-- The invariant behind the isolation: every mint in use has its account, so none is used twice. -/
structure Isolated (env : Env) (w : RelayerWorld) : Prop where
  custody : ∀ k c, pairConfigAt w.accounts k = some c → PairCustody env w.accounts c
  distinct : MintsDistinct w.accounts

theorem Isolated.sides {env : Env} {w : RelayerWorld} (h : Isolated env w) : SidesDistinct w := by
  intro k c hc heq
  have hsame := h.distinct k k c c .deposit .withdraw hc hc heq
  cases hsame.2

theorem SameStatics.receiveMint {c c' : PairConfig} (h : SameStatics c c') (d : Direction) :
    c'.receiveMint d = c.receiveMint d := by
  cases d
  · exact h.baseMint
  · exact h.assetMint

/-! ## Initialize -/

/-- An account that is created was not a custody account. -/
theorem not_custody_of_created {env : Env} {w w' : RelayerWorld} {mint tp tp' k : Pubkey}
    {t u : TokenAccount} (hk : env.runtime.ata (relayerAuthority env.runtime) mint tp = k)
    (hm : (w.accounts mint).owner = tp) (h : CreateSpec k tp (.token u) w w') :
    ¬ Custody env w.accounts mint tp' t := by
  intro hc
  have htp : tp' = tp := hc.mint_program.symm.trans hm
  have htok := hc.token
  rw [htp, custodyKey, hk, h.tokenAt_none] at htok
  cases htok

theorem custody_of_created {env : Env} (hl : env.Lawful) {w w' : RelayerWorld}
    {mint tp k : Pubkey} (htp : IsTokenProgram tp)
    (hk : env.runtime.ata (relayerAuthority env.runtime) mint tp = k)
    (hmint : ∃ m, mintAt w.accounts mint = some m) (hm : (w.accounts mint).owner = tp)
    (h : CreateSpec k tp (.token ⟨mint, relayerAuthority env.runtime, 0, none, 0, none⟩) w w') :
    Custody env w'.accounts mint tp ⟨mint, relayerAuthority env.runtime, 0, none, 0, none⟩ := by
  obtain ⟨m, hm₀⟩ := hmint
  obtain ⟨hm₁, howner⟩ := (ambient_of_createToken hl hk hm h).mint mint m hm₀
  refine ⟨⟨m, hm₁⟩, howner.trans hm, ?_, rfl, rfl⟩
  rw [custodyKey, hk, tokenAt_eq_some, h.owner_eq]
  exact ⟨htp, h.data_eq⟩

section

variable {env : Env} {w w' : RelayerWorld} {ctx : Context} {accs : InitializeAccounts}
variable {args : InitializeArgs} {g : GlobalConfig} {relayerBump bump : UInt8}
variable {w₀ w₁ w₂ : RelayerWorld}

theorem InitializeSpec.authority_eq
    (h : InitializeSpec env.runtime ctx accs args w w' g relayerBump bump w₀ w₁ w₂) :
    accs.relayerAuthority = relayerAuthority env.runtime := by
  rw [relayerAuthority, h.authority]

/-- The mints of a new pair had no account before, and are not the same. -/
theorem InitializeSpec.fresh (hl : env.Lawful)
    (h : InitializeSpec env.runtime ctx accs args w w' g relayerBump bump w₀ w₁ w₂) :
    (∀ tp t, ¬ Custody env w.accounts accs.baseMint tp t) ∧
      (∀ tp t, ¬ Custody env w.accounts accs.assetMint tp t) ∧ accs.baseMint ≠ accs.assetMint := by
  have hbase := h.base_address
  have hasset := h.asset_address
  have hbc := h.base_created
  rw [h.authority_eq] at hbase hasset hbc
  have hw₀ := custodyGuarded_of_create (ambient_of_create hl h.created) h.created
  have hw₁ := custodyGuarded_of_create
    (ambient_of_createToken hl h.base_address h.base_program h.base_created) h.base_created
  refine ⟨?_, ?_, ?_⟩
  · intro tp t hc
    obtain ⟨t₀, hc₀, -⟩ := hw₀ _ _ _ hc
    exact not_custody_of_created hbase h.base_program h.base_created hc₀
  · intro tp t hc
    obtain ⟨t₁, hc₁, -⟩ := hw₀.trans hw₁ _ _ _ hc
    exact not_custody_of_created hasset h.asset_program h.asset_created hc₁
  · intro heq
    -- the base account stands in the way of the asset account
    have hc := custody_of_created hl h.token_program hbase h.base_mint h.base_program hbc
    rw [heq] at hc
    exact not_custody_of_created hasset h.asset_program h.asset_created hc

/-- Both accounts of a new pair exist, with nothing delegated. -/
theorem InitializeSpec.pairCustody (hl : env.Lawful)
    (h : InitializeSpec env.runtime ctx accs args w w' g relayerBump bump w₀ w₁ w₂)
    (d : Direction) :
    ∃ t, Custody env w'.accounts ((initialConfig accs args relayerBump bump).receiveMint d)
      accs.tokenProgram t ∧ t.delegatedAmount.toNat = 0 := by
  have hbase := h.base_address
  have hasset := h.asset_address
  have hbc := h.base_created
  have hac := h.asset_created
  rw [h.authority_eq] at hbase hasset hbc hac
  have hq := (quiet_of_createSpec h.base_created).trans (quiet_of_createSpec h.asset_created)
  have hw₂ := custodyGuarded_of_create
    (ambient_of_createToken hl h.asset_address h.asset_program h.asset_created) h.asset_created
  have hwrite := custodyGuarded_of_write hl
    (d := .pairConfig (initialConfig accs args relayerBump bump)) (hq.owner_eq h.created.owner_eq)
  rw [h.result]
  cases d with
  | deposit =>
      have hc := custody_of_created hl h.token_program hbase h.base_mint h.base_program hbc
      obtain ⟨t, ht, hg⟩ := hw₂.trans hwrite _ _ _ hc
      exact ⟨t, ht, Nat.le_zero.mp (UInt64.le_iff_toNat_le.mp hg.delegated)⟩
  | withdraw =>
      have hc := custody_of_created hl h.token_program hasset h.asset_mint h.asset_program hac
      obtain ⟨t, ht, hg⟩ := hwrite _ _ _ hc
      exact ⟨t, ht, Nat.le_zero.mp (UInt64.le_iff_toNat_le.mp hg.delegated)⟩

end

/-! ## Every step -/

/-- A config after a step was there before, or is the one `initialize` writes. -/
theorem Effect.pair_origin {env : Env} {w w' : RelayerWorld} {act : Action} {k : Pubkey}
    {c' : PairConfig} (h : Effect env w act w') (hc : pairConfigAt w'.accounts k = some c') :
    (∃ c, pairConfigAt w.accounts k = some c ∧ SameStatics c c') ∨
      ∃ ctx accs args g rb b w₀ w₁ w₂, act = .initializePair ctx accs args ∧
        accs.pairConfig = k ∧ c' = initialConfig accs args rb b ∧
        InitializeSpec env.runtime ctx accs args w w' g rb b w₀ w₁ w₂ := by
  cases h.pairStep k with
  | kept _ heq => exact .inl ⟨c', heq ▸ hc, .refl c'⟩
  | @initialized ctx accs args _ g rb b w₀ w₁ w₂ hk hs _ _ _ hafter =>
      have heq := Option.some.inj (hafter.symm.trans hc)
      exact .inr ⟨ctx, accs, args, g, rb, b, w₀, w₁, w₂, rfl, hk, heq.symm, hs⟩
  | configured _ hs hbefore hafter =>
      obtain rfl := Option.some.inj (hafter.symm.trans hc)
      exact .inl ⟨_, hbefore, (configure_fields hs.handled).statics⟩
  | accepted _ _ hbefore hafter =>
      obtain rfl := Option.some.inj (hafter.symm.trans hc)
      exact .inl ⟨_, hbefore, rfl, rfl, rfl, rfl, rfl, rfl, rfl⟩

/-- A mint in use before the step is none of a new pair's. -/
theorem Isolated.ne_new {env : Env} (hl : env.Lawful) {w w' : RelayerWorld} (hi : Isolated env w)
    {ctx : Context} {accs : InitializeAccounts} {args : InitializeArgs} {g : GlobalConfig}
    {rb b : UInt8} {w₀ w₁ w₂ : RelayerWorld}
    (h : InitializeSpec env.runtime ctx accs args w w' g rb b w₀ w₁ w₂) {k : Pubkey}
    {c : PairConfig} (hc : pairConfigAt w.accounts k = some c) (d d' : Direction) :
    c.receiveMint d ≠ (initialConfig accs args rb b).receiveMint d' := by
  obtain ⟨hbase, hasset, -⟩ := h.fresh hl
  obtain ⟨tp, hcust⟩ := hi.custody k c hc
  obtain ⟨t, ht⟩ := hcust d
  intro heq
  rw [heq] at ht
  cases d' with
  | deposit => exact hbase tp t ht
  | withdraw => exact hasset tp t ht

theorem isolated_step {env : Env} (hl : env.Lawful) {w w' : RelayerWorld} {act : Action}
    (hw : Reached env w) (hi : Isolated env w) (he : Effect env w act w') : Isolated env w' := by
  constructor
  · intro k c' hc'
    rcases he.pair_origin hc' with ⟨c, hc, hstat⟩ | ⟨_, accs, _, _, _, _, _, _, _, -, -, rfl, hs⟩
    · obtain ⟨tp, hcust⟩ := hi.custody k c hc
      refine ⟨tp, ?_⟩
      intro d
      obtain ⟨t, ht⟩ := hcust d
      obtain ⟨t', ht', -⟩ := he.custody hl hw hi.sides ht
      exact ⟨t', by rw [hstat.receiveMint]; exact ht'⟩
    · refine ⟨accs.tokenProgram, ?_⟩
      intro d
      obtain ⟨t, ht, -⟩ := hs.pairCustody hl d
      exact ⟨t, ht⟩
  · intro k k' c c' d d' hc hc' heq
    rcases he.pair_origin hc with ⟨c₀, hc₀, hstat⟩ | ⟨ctx, accs, args, g, rb, b, v₀, v₁, v₂, hact,
      hk, rfl, hs⟩
    · rcases he.pair_origin hc' with ⟨c₁, hc₁, hstat'⟩ | ⟨_, _, _, _, _, _, _, _, _, -, -, rfl, hs'⟩
      · rw [hstat.receiveMint, hstat'.receiveMint] at heq
        exact hi.distinct k k' c₀ c₁ d d' hc₀ hc₁ heq
      · rw [hstat.receiveMint] at heq
        exact absurd heq (hi.ne_new hl hs' hc₀ d d')
    · rcases he.pair_origin hc' with ⟨c₁, hc₁, hstat'⟩ | ⟨_, _, _, _, _, _, _, _, _, hact', hk', rfl,
        hs'⟩
      · rw [hstat'.receiveMint] at heq
        exact absurd heq.symm (hi.ne_new hl hs hc₁ d' d)
      · -- both are the pair this step creates
        rw [hact] at hact'
        cases hact'
        refine ⟨hk.symm.trans hk', ?_⟩
        have hne := (hs.fresh hl).2.2
        cases d <;> cases d'
        · rfl
        · exact absurd heq hne
        · exact absurd heq.symm hne
        · rfl

theorem run_isolated {env : Env} (hl : env.Lawful) {w₀ w : RelayerWorld}
    {ts : List RelayerTransition} (hg : Genesis env w₀) (hr : RelayerRun env w₀ ts w) :
    Isolated env w := by
  induction hr with
  | nil =>
      have hnone : ∀ k c, pairConfigAt w₀.accounts k ≠ some c := by
        intro k c hc
        simp [hg.pairConfigAt_none k] at hc
      exact ⟨fun k c hc => absurd hc (hnone k c),
        fun k k' c c' d d' hc _ _ => absurd hc (hnone k c)⟩
  | snoc hr hstep ih =>
      have hw := run_reached hl hg hr
      exact isolated_step hl hw ih (hstep.effect hl hw.pinned)

/-! ## One pair for a message -/

/-- `initialize` is called with the managers of the pair's own mints. -/
def OwnManagers (env : Env) (tr : RelayerTransition) : Prop :=
  ∀ ctx accs args, tr.act = .initializePair ctx accs args →
    env.nttMint args.nttBaseProgram = some accs.baseMint ∧
    env.nttMint args.nttAssetProgram = some accs.assetMint

theorem manager_mint {env : Env} (hl : env.Lawful) {w₀ w : RelayerWorld}
    {ts : List RelayerTransition} (hg : Genesis env w₀) (hr : RelayerRun env w₀ ts w)
    (hown : ∀ tr ∈ ts, OwnManagers env tr) {k : Pubkey} {c : PairConfig}
    (hc : pairConfigAt w.accounts k = some c) (d : Direction) :
    env.nttMint (c.receiveNttProgram d) = some (c.receiveMint d) := by
  obtain ⟨before, tr, after, rfl, ⟨ctx, accs, args, rb, b, hact, -, -, hstat⟩, -⟩ :=
    run_initializedAs hl hg hr k c hc
  obtain ⟨hbase, hasset⟩ := hown tr (by simp) ctx accs args hact
  rw [hstat.receiveNttProgram, hstat.receiveMint]
  cases d
  · exact hbase
  · exact hasset

theorem run_pair_kept {env : Env} (hl : env.Lawful) {w w' : RelayerWorld}
    {ts : List RelayerTransition} (hp : Pinned env w) (hr : RelayerRun env w ts w') {k : Pubkey}
    {c : PairConfig} (hc : pairConfigAt w.accounts k = some c) :
    ∃ c', pairConfigAt w'.accounts k = some c' ∧ SameStatics c c' := by
  induction hr with
  | nil => exact ⟨c, hc, .refl c⟩
  | snoc hr hstep ih =>
      obtain ⟨c₁, hc₁, hs₁⟩ := ih
      obtain ⟨c₂, hc₂, hs₂⟩ := (hstep.effect hl (run_effects hl hp hr).1).pair_kept hc₁
      exact ⟨c₂, hc₂, hs₁.trans hs₂⟩

/-- The manager a `receive` ran under is the one the item's address is derived from. -/
theorem receive_manager {env : Env} (hl : env.Lawful) {w w' : RelayerWorld} (hp : Pinned env w)
    {ctx : Context} {accs : ReceiveAccounts} {args : ReceiveArgs}
    (h : receive env.runtime ctx accs args w = .ok w') :
    ∃ c m, pairConfigAt w.accounts accs.pairConfig = some c ∧
      accs.nttInboxItem = inboxItemAddress env.runtime (c.receiveNttProgram args.direction) m := by
  obtain ⟨c, mint, bump, w₀, w₁, w₂, inbox, held, hs⟩ := receive_spec h
  obtain ⟨m, hauth, -⟩ := receive_item hl (hp.receiveNttProgram hs.config_at args.direction) hs
  exact ⟨c, m, hs.config_at, hauth.address⟩

/-- In a reachable state, two configs whose managers agree are the same side of the same pair. -/
theorem pair_of_manager {env : Env} (hl : env.Lawful) {w₀ w : RelayerWorld}
    {ts : List RelayerTransition} (hg : Genesis env w₀) (hr : RelayerRun env w₀ ts w)
    (hown : ∀ tr ∈ ts, OwnManagers env tr) {k k' : Pubkey} {c c' : PairConfig} {d d' : Direction}
    (hc : pairConfigAt w.accounts k = some c) (hc' : pairConfigAt w.accounts k' = some c')
    (heq : c.receiveNttProgram d = c'.receiveNttProgram d') : k = k' ∧ d = d' := by
  have hm := manager_mint hl hg hr hown hc d
  have hm' := manager_mint hl hg hr hown hc' d'
  rw [heq, hm'] at hm
  exact (run_isolated hl hg hr).distinct k k' c c' d d' hc hc' (Option.some.inj hm).symm

/-- One destination for a message: no mint serves two pairs or both sides of one, so in any
reachable state an inbox item can be received under one pair and direction only, and whatever a run
has received it under, it was always the same. -/
theorem unique_destination {env : Env} (hl : env.Lawful) {w₀ w : RelayerWorld}
    {ts : List RelayerTransition} (hg : Genesis env w₀) (hr : RelayerRun env w₀ ts w)
    (hown : ∀ tr ∈ ts, OwnManagers env tr) :
    MintsDistinct w.accounts ∧
    (∀ ctx accs args w₁ ctx' accs' args' w₂,
      receive env.runtime ctx accs args w = .ok w₁ →
      receive env.runtime ctx' accs' args' w = .ok w₂ →
      accs.nttInboxItem = accs'.nttInboxItem →
      accs.pairConfig = accs'.pairConfig ∧ args.direction = args'.direction) ∧
    ∀ tr ∈ ts, ∀ tr' ∈ ts, ∀ ctx accs args ctx' accs' args',
      tr.act = .receive ctx accs args → tr'.act = .receive ctx' accs' args' →
      accs.nttInboxItem = accs'.nttInboxItem →
      accs.pairConfig = accs'.pairConfig ∧ args.direction = args'.direction := by
  -- a receive anywhere in the run, seen from its last state
  have hlater : ∀ v us v' ctx accs args, RelayerRun env v us w → Pinned env v →
      receive env.runtime ctx accs args v = .ok v' → ∃ c m,
        pairConfigAt w.accounts accs.pairConfig = some c ∧
        accs.nttInboxItem = inboxItemAddress env.runtime (c.receiveNttProgram args.direction) m := by
    intro v us v' ctx accs args hrun hp h
    obtain ⟨c, m, hc, haddr⟩ := receive_manager hl hp h
    obtain ⟨c', hc', hstat⟩ := run_pair_kept hl hp hrun hc
    exact ⟨c', m, hc', by rw [hstat.receiveNttProgram]; exact haddr⟩
  have hsame : ∀ k k' c c' d d' m m', pairConfigAt w.accounts k = some c →
      pairConfigAt w.accounts k' = some c' →
      inboxItemAddress env.runtime (c.receiveNttProgram d) m =
        inboxItemAddress env.runtime (c'.receiveNttProgram d') m' → k = k' ∧ d = d' := by
    intro k k' c c' d d' m m' hc hc' heq
    exact pair_of_manager hl hg hr hown hc hc' (hl.address.find_program heq)
  have hmem : ∀ tr ∈ ts, ∀ ctx accs args, tr.act = .receive ctx accs args → ∃ c m,
      pairConfigAt w.accounts accs.pairConfig = some c ∧
      accs.nttInboxItem = inboxItemAddress env.runtime (c.receiveNttProgram args.direction) m := by
    intro tr htr ctx accs args hact
    obtain ⟨before, after, rfl⟩ := List.append_of_mem htr
    obtain ⟨hbefore, hstep, hafter⟩ := hr.split
    have happly := hstep.2
    rw [hact] at happly
    exact hlater _ _ _ ctx accs args (.cons hstep hafter) (run_effects hl hg.pinned hbefore).1
      happly
  refine ⟨(run_isolated hl hg hr).distinct, ?_, ?_⟩
  · intro ctx accs args w₁ ctx' accs' args' w₂ h h' hitem
    have hp := (run_effects hl hg.pinned hr).1
    obtain ⟨c, m, hc, haddr⟩ := receive_manager hl hp h
    obtain ⟨c', m', hc', haddr'⟩ := receive_manager hl hp h'
    rw [haddr, haddr'] at hitem
    exact hsame _ _ _ _ _ _ _ _ hc hc' hitem
  · intro tr htr tr' htr' ctx accs args ctx' accs' args' hact hact' hitem
    obtain ⟨c, m, hc, haddr⟩ := hmem tr htr ctx accs args hact
    obtain ⟨c', m', hc', haddr'⟩ := hmem tr' htr' ctx' accs' args' hact'
    rw [haddr, haddr'] at hitem
    exact hsame _ _ _ _ _ _ _ _ hc hc' hitem

/-- On the reference chain `initialize` is called with the managers of the two mints, so the deposit
can only go one way. -/
theorem unique_destination_deposit :
    ∃ ts w, RelayerRun referenceEnv (genesis 1000000000) ts w ∧
      ts.map Transition.act = depositActions.take 3 ∧
      (∃ w', receive referenceEnv.runtime receiveContext receiveAccounts receiveArgs w = .ok w') ∧
      ∀ ctx accs args w', receive referenceEnv.runtime ctx accs args w = .ok w' →
        accs.nttInboxItem = inboxItemKey →
        accs.pairConfig = pairConfigKey ∧ args.direction = .deposit := by
  have hend : Ends (fun w => Ends (fun _ => True) (receiveAction.apply referenceEnv.runtime w))
      (executed 1000000000 (depositActions.take 3)) := by decide +kernel
  obtain ⟨ts, w, hr, hacts, hlast⟩ := run_of_executed (by decide +kernel) hend
  obtain ⟨w', happly, -⟩ := hlast.exists_ok
  have hown : ∀ tr ∈ ts, OwnManagers referenceEnv tr := by
    intro tr htr ctx accs args hact
    have hmem : tr.act ∈ depositActions.take 3 := hacts ▸ List.mem_map_of_mem htr
    simp only [depositActions, List.take_succ_cons, List.take_zero, List.mem_cons,
      List.not_mem_nil, or_false] at hmem
    rcases hmem with h | h | h
    · cases h.symm.trans hact
    · cases h.symm.trans hact
      exact ⟨rfl, rfl⟩
    · cases h.symm.trans hact
  obtain ⟨-, hunique, -⟩ := unique_destination referenceEnv_lawful (genesis_ok _) hr hown
  refine ⟨ts, w, hr, hacts, ⟨w', happly⟩, ?_⟩
  intro ctx accs args w₁ h hitem
  exact hunique ctx accs args w₁ _ _ _ w' h happly hitem

end FogoYield.Relayer
