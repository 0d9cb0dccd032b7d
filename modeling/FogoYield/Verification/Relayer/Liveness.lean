import FogoYield.Verification.Relayer.Solvency

/-! # No stranded flow

Every open flow can leave: `send` once it is swapped, `refund` once it has waited long enough. The
accounts both need are the ones `initialize` created and no step removes, and the balance is there
because the relayer is solvent. -/

namespace FogoYield.Relayer

open FogoYield.Library FogoYield.Solana

/-! ## What NTT accepts -/

/-- Account lists for `transfer_lock` and `release_wormhole_outbound`. The caller can sign wherever
they ask for a signature, since they never ask for the sender's own. -/
structure TransferLists (sender session : Pubkey) (lock publish : List AccountMeta) : Prop where
  short : lock.length < 256
  nonempty : publish ≠ []
  sender_mem : ∃ m ∈ lock, m.pubkey = sender
  session_mem : ∃ m ∈ lock, m.pubkey = session
  signers : ∀ m ∈ lock ++ publish, m.isSigner = true → m.pubkey ≠ sender

/-- In state `w` the manager `p` accepts every well-formed transfer of `mint`: one whose session
authority has been approved for a positive amount on an account of the mint that holds it. -/
def AcceptsTransfers (env : Env) (p mint : Pubkey) (w : RelayerWorld) : Prop :=
  ∀ tp source sender args a t, IsTokenProgram tp →
    approve tp source (deriveSessionAuthority env.runtime p sender args).1 sender args.amount
      w.accounts = some a →
    tokenAt a source = some t → t.mint = mint → 0 < args.amount → args.amount ≤ t.amount →
    ∃ lock publish a₁ a₂,
      TransferLists sender (deriveSessionAuthority env.runtime p sender args).1 lock publish ∧
      env.runtime.invoke ⟨p, forwardMetas lock (some sender), nttTransferLockIx ++ args.serialize⟩
        w.clock a = some a₁ ∧
      env.runtime.invoke ⟨p, forwardMetas publish none,
        nttReleaseWormholeOutboundIx ++ [boolByte false]⟩ w.clock a₁ = some a₂

/-! ## Calls that go through -/

theorem invokeRelayerSigned_ok {rt : RelayerRuntime} {ctx : Context} {program authority : Pubkey}
    {disc args : Bytes} {accs : List AccountMeta} {bump : UInt8} {w : RelayerWorld}
    {a : RelayerAccounts} {signer : Option Pubkey}
    (hseeds : rt.createProgramAddress (authoritySeeds bump) programId = some authority)
    (hsigner : signer = none ∨ signer = some authority ∧ ∃ m ∈ accs, m.pubkey = authority)
    (hsigned : ∀ m ∈ accs, m.isSigner = true → m.pubkey ∈ ctx.signers)
    (h : rt.invoke ⟨program, forwardMetas accs signer, disc ++ args⟩ w.clock w.accounts = some a) :
    invokeRelayerSigned rt ctx program disc args accs signer bump w = .ok { w with
      accounts := a
      cpis := w.cpis ++ [⟨program, forwardMetas accs signer, disc ++ args⟩] } := by
  simp only [invokeRelayerSigned, bind_eq_ok, require_eq_ok, exists_const, invokeSigned_eq_ok]
  refine ⟨?_, ?_, a, h, rfl⟩
  · rcases hsigner with hn | ⟨hs, m, hm, hkey⟩
    · exact .inl hn
    · exact .inr ⟨m, hm, by rw [hs, hkey]⟩
  · intro m hm hsig
    simp only [forwardMetas, List.mem_map] at hm
    obtain ⟨m', hm', rfl⟩ := hm
    rw [Bool.or_eq_true, decide_eq_true_eq] at hsig
    rcases hsig with hsig | hauth
    · exact .inl (hsigned m' hm' hsig)
    · rcases hsigner with hn | ⟨hs, -⟩
      · rw [hn] at hauth
        cases hauth
      · rw [hs] at hauth
        right
        rw [hseeds, ← Option.some.inj hauth]

/-- The keys that have to sign beside the authority. -/
def signerKeys (accs : List AccountMeta) : List Pubkey :=
  (accs.filter AccountMeta.isSigner).map AccountMeta.pubkey

theorem mem_signerKeys {accs : List AccountMeta} {k : Pubkey} :
    k ∈ signerKeys accs ↔ ∃ m ∈ accs, m.isSigner = true ∧ m.pubkey = k := by
  simp [signerKeys, and_assoc]

section

variable {env : Env} {w : RelayerWorld} {nttProgram fromAta : Pubkey} {t : TokenAccount}

/-- Bridging out of an account that holds the flow's amount can be made to go through. -/
theorem bridgeOut_enabled (hl : env.Lawful) (accs : OutboundAccounts) (loaded : FlowLoaded)
    (htp : IsTokenProgram accs.tokenProgram)
    (hseeds : env.runtime.createProgramAddress
      (authoritySeeds loaded.config.relayerAuthorityBump) programId = some accs.relayerAuthority)
    (hat : tokenOf accs.tokenProgram w.accounts fromAta = some t)
    (howner : t.owner = accs.relayerAuthority) (hpos : 0 < loaded.flow.amount)
    (hle : loaded.flow.amount ≤ t.amount) (hacc : AcceptsTransfers env nttProgram t.mint w)
    (hpayer : accs.payer ≠ accs.relayerAuthority) :
    ∃ ctx count w', accs.payer ∈ ctx.signers ∧ accs.relayerAuthority ∉ ctx.signers ∧
      bridgeOut env.runtime ctx accs loaded nttProgram fromAta count w = .ok w' := by
  have happrove : approve accs.tokenProgram fromAta (deriveSessionAuthority env.runtime nttProgram
      accs.relayerAuthority loaded.flow.transferArgs).1 accs.relayerAuthority loaded.flow.amount
      w.accounts = some (setToken w.accounts fromAta { t with
        delegate := some (deriveSessionAuthority env.runtime nttProgram accs.relayerAuthority
          loaded.flow.transferArgs).1
        delegatedAmount := loaded.flow.amount }) := by
    simp [approve, hat, howner, guard]
  obtain ⟨-, htok⟩ := tokenOf_eq_some.mp hat
  obtain ⟨lock, publish, a₁, a₂, hlists, hlock, hpublish⟩ := hacc _ _ _ _ _ _ htp happrove
    (tokenAt_setToken_self _ (tokenAt_eq_some.mp htok).1) rfl hpos hle
  have hcount : (UInt8.ofNat lock.length).toNat = lock.length := by
    rw [UInt8.toNat_ofNat', Nat.mod_eq_of_lt hlists.short]
  refine ⟨⟨accs.payer :: signerKeys (lock ++ publish), lock ++ publish⟩,
    UInt8.ofNat lock.length, ?_⟩
  have hsigned : ∀ m ∈ lock ++ publish, m.isSigner = true →
      m.pubkey ∈ accs.payer :: signerKeys (lock ++ publish) := by
    intro m hm hs
    exact List.mem_cons_of_mem _ (mem_signerKeys.mpr ⟨m, hm, hs, rfl⟩)
  simp only [bridgeOut, approveNttSessionAuthority, nttLockAndPublish, bind_eq_ok, require_eq_ok,
    exists_const, invokeSigned_eq_ok, approveInstruction_eq, hcount, List.take_left,
    List.drop_left]
  refine ⟨_, by simp, ?_, _, ⟨?_, ?_, _, ?_, rfl⟩, ?_, _,
    invokeRelayerSigned_ok hseeds (.inr ⟨rfl, hlists.sender_mem⟩)
      (fun m hm => hsigned m (List.mem_append_left _ hm)) hlock,
    invokeRelayerSigned_ok hseeds (.inl rfl)
      (fun m hm => hsigned m (List.mem_append_right _ hm)) hpublish⟩
  · rw [List.mem_cons, not_or, mem_signerKeys]
    refine ⟨hpayer.symm, ?_⟩
    rintro ⟨m, hm, hs, hkey⟩
    exact hlists.signers m hm hs hkey
  · obtain ⟨m, hm, hkey⟩ := hlists.session_mem
    exact ⟨m, List.mem_append_left _ hm, hkey⟩
  · intro m hm hs
    simp only [approveIx, List.mem_cons, List.not_mem_nil, or_false] at hm
    rcases hm with rfl | rfl | rfl
    · cases hs
    · cases hs
    · exact .inr hseeds
  · rw [hl.token.approve _ _ _ _ _ _ htp]
    exact happrove
  · have := List.length_pos_iff.mpr hlists.nonempty
    rw [List.length_append]
    omega

end

section

variable {rt : RelayerRuntime} {ctx : Context} {accs : OutboundAccounts} {loaded : FlowLoaded}
variable {count : UInt8} {w w' : RelayerWorld}

theorem send_ok (hsign : accs.payer ∈ ctx.signers)
    (hload : FlowLoad rt accs.toFlowAccounts w loaded)
    (hrent : accs.rentDestination = loaded.flow.payer) (hstatus : loaded.flow.status = .swapped)
    (hpos : 0 < loaded.flow.amount)
    (hbridge : bridgeOut rt ctx accs loaded (loaded.config.sendNttProgram loaded.flow.direction)
      (inOut loaded.flow.direction accs.baseAta accs.assetAta).2 count w = .ok w') :
    send rt ctx accs count w = .ok (closeAccount accs.flow accs.rentDestination (w'.emit
      (.sent accs.flow accs.nttInboxItem loaded.flow.recipient loaded.flow.direction
        loaded.flow.amount))) := by
  simp only [send, OutboundAccounts.load, bind_eq_ok, loadSigner_eq_ok, flowAccounts_load_eq_ok,
    constrain_eq_ok, require_eq_ok, pure_eq_ok, exists_const]
  exact ⟨loaded, ⟨hsign, loaded, hload, hrent, rfl⟩, hstatus, hpos, w', hbridge, rfl⟩

theorem refund_ok (hsign : accs.payer ∈ ctx.signers)
    (hload : FlowLoad rt accs.toFlowAccounts w loaded)
    (hrent : accs.rentDestination = loaded.flow.payer) (hstatus : loaded.flow.status = .received)
    (hready : loaded.flow.receivedSlot.toNat + 54000 ≤ w.clock.slot.toNat)
    (hpos : 0 < loaded.flow.amount)
    (hbridge : bridgeOut rt ctx accs loaded (loaded.config.receiveNttProgram loaded.flow.direction)
      (inOut loaded.flow.direction accs.baseAta accs.assetAta).1 count w = .ok w') :
    refund rt ctx accs count w = .ok (closeAccount accs.flow accs.rentDestination (w'.emit
      (.refunded accs.flow accs.nttInboxItem loaded.flow.recipient loaded.flow.direction
        loaded.flow.amount))) := by
  have hlt := w.clock.slot.toNat_lt
  have hadd : loaded.flow.receivedSlot.toNat + refundTimeoutSlots.toNat =
      (loaded.flow.receivedSlot + refundTimeoutSlots).toNat := by
    rw [UInt64.toNat_add, Nat.mod_eq_of_lt]
    exact Nat.lt_of_le_of_lt hready hlt
  simp only [refund, OutboundAccounts.load, bind_eq_ok, loadSigner_eq_ok, flowAccounts_load_eq_ok,
    constrain_eq_ok, require_eq_ok, liftOption_eq_ok, checkedAdd_eq_some, pure_eq_ok,
    exists_const]
  refine ⟨loaded, ⟨hsign, loaded, hload, hrent, rfl⟩, hstatus, _, hadd, ?_, hpos, w', hbridge, rfl⟩
  rw [UInt64.le_iff_toNat_le, ← hadd]
  exact hready

end

/-! ## The accounts of an exit -/

/-- The accounts `send` or `refund` of an open flow is called with. -/
def exitAccounts (rt : RelayerRuntime) (pair item k payer tp : Pubkey) (f : Flow)
    (c : PairConfig) : OutboundAccounts where
  pairConfig := pair
  relayerAuthority := relayerAuthority rt
  baseMint := c.baseMint
  assetMint := c.assetMint
  baseAta := custodyKey rt c.baseMint tp
  assetAta := custodyKey rt c.assetMint tp
  nttInboxItem := item
  flow := k
  tokenProgram := tp
  payer := payer
  rentDestination := f.payer

theorem Addressed.authority_created {env : Env} (hl : env.Lawful) {k : Pubkey} {c : PairConfig}
    (h : Addressed env.runtime k c) :
    env.runtime.createProgramAddress ([relayerSeed] ++ [[c.relayerAuthorityBump]]) programId =
      some (relayerAuthority env.runtime) := by
  have hfind := hl.address.create_find [relayerSeed] programId
  rwa [h.authority] at hfind

theorem Custody.tokenOf_eq {env : Env} {a : RelayerAccounts} {mint tp : Pubkey}
    {t : TokenAccount} (hw : AtaWellFormed env.runtime a) (h : Custody env a mint tp t) :
    tokenOf tp a (custodyKey env.runtime mint tp) = some t :=
  tokenOf_eq_some.mpr ⟨(hw _ _ _ _ h.token).1, h.token⟩

theorem Custody.isAssociated {env : Env} {a : RelayerAccounts} {mint tp : Pubkey}
    {t : TokenAccount} (hw : AtaWellFormed env.runtime a) (h : Custody env a mint tp t) :
    IsAssociatedToken env.runtime a mint (relayerAuthority env.runtime) tp
      (custodyKey env.runtime mint tp) t :=
  ⟨h.token, (hw _ _ _ _ h.token).1, h.owner, rfl⟩

/-- They pass every constraint of the `Accounts` structs. -/
theorem exit_load {env : Env} (hl : env.Lawful) {w : RelayerWorld}
    (hwf : AtaWellFormed env.runtime w.accounts) {k pair item tp : Pubkey} (payer : Pubkey)
    {f : Flow} {c : PairConfig} {i : InboxItem} (hf : flowAt w.accounts k = some f)
    (hb : FlowBound env w k f pair item c i) (haddr : Addressed env.runtime pair c)
    (hcust : ∀ d, ∃ t, Custody env w.accounts (c.receiveMint d) tp t) :
    ∃ m, FlowLoad env.runtime (exitAccounts env.runtime pair item k payer tp f c).toFlowAccounts w
      ⟨c, m, f⟩ := by
  obtain ⟨tb, hbase⟩ := hcust .deposit
  obtain ⟨ta, hasset⟩ := hcust .withdraw
  obtain ⟨m, hm⟩ := hasset.mint_at
  have hpair := hl.address.create_find [pairConfigSeed, c.baseMint.bytes, c.assetMint.bytes]
    programId
  rw [haddr.address] at hpair
  have hflow := hl.address.create_find (flowSeeds f.direction pair item) programId
  rw [hb.address] at hflow
  exact ⟨m, hb.config_at, hbase.mint_at, hm, hf, hbase.isTokenProgram, hpair, rfl, rfl,
    haddr.authority_created hl, ⟨tb, hbase.isAssociated hwf⟩, ⟨ta, hasset.isAssociated hwf⟩, hflow⟩

/-- There is always another key, to pay or to sign for an outbox item. -/
theorem exists_ne_key (k : Pubkey) : ∃ k', k' ≠ k := by
  by_cases h : programId = k
  · refine ⟨systemProgram, ?_⟩
    rw [← h]
    decide
  · exact ⟨programId, h⟩

/-! ## Exits -/

/-- The exits a flow's status leaves: `send` after the swap, `refund` before it and after the
timeout. -/
def Exits (env : Env) (w : RelayerWorld) (k : Pubkey) (f : Flow) : Prop :=
  (f.status = .swapped → ∃ ctx accs count w', accs.flow = k ∧
    accs.relayerAuthority ∉ ctx.signers ∧ send env.runtime ctx accs count w = .ok w') ∧
  (f.status = .received → f.receivedSlot.toNat + 54000 ≤ w.clock.slot.toNat →
    ∃ ctx accs count w', accs.flow = k ∧ accs.relayerAuthority ∉ ctx.signers ∧
      refund env.runtime ctx accs count w = .ok w')

theorem inOut_fst_mint (c : PairConfig) (d : Direction) :
    (inOut d c.baseMint c.assetMint).1 = c.receiveMint d := by
  cases d <;> rfl

theorem sendNttProgram_eq (c : PairConfig) (d : Direction) :
    ∃ d', c.sendNttProgram d = c.receiveNttProgram d' ∧
      (inOut d c.baseMint c.assetMint).2 = c.receiveMint d' := by
  cases d
  · exact ⟨.withdraw, rfl, rfl⟩
  · exact ⟨.deposit, rfl, rfl⟩

theorem inOut_custodyKey (rt : RelayerRuntime) (c : PairConfig) (tp : Pubkey) (d : Direction) :
    (inOut d (custodyKey rt c.baseMint tp) (custodyKey rt c.assetMint tp)).1 =
        custodyKey rt (inOut d c.baseMint c.assetMint).1 tp ∧
      (inOut d (custodyKey rt c.baseMint tp) (custodyKey rt c.assetMint tp)).2 =
        custodyKey rt (inOut d c.baseMint c.assetMint).2 tp := by
  cases d
  · exact ⟨rfl, rfl⟩
  · exact ⟨rfl, rfl⟩

section

variable {env : Env} {w₀ w : RelayerWorld} {ts : List RelayerTransition} {k : Pubkey} {f : Flow}

/-- An open flow of a reachable state with its pair's accounts, and the account that holds its
tokens. -/
structure ExitReady (env : Env) (w : RelayerWorld) (k : Pubkey) (f : Flow) (pair item tp : Pubkey)
    (c : PairConfig) (i : InboxItem) (t : TokenAccount) : Prop where
  flow_at : flowAt w.accounts k = some f
  bound : FlowBound env w k f pair item c i
  addressed : Addressed env.runtime pair c
  ata : AtaWellFormed env.runtime w.accounts
  custody : ∀ d, ∃ t, Custody env w.accounts (c.receiveMint d) tp t
  held : Custody env w.accounts (c.heldMint f) tp t
  enough : f.amount ≤ t.amount

theorem exitReady (hl : env.Lawful) (hg : Genesis env w₀) (hr : RelayerRun env w₀ ts w)
    (hf : flowAt w.accounts k = some f) :
    ∃ pair item tp c i t, ExitReady env w k f pair item tp c i t := by
  obtain ⟨pair, item, c, i, hb⟩ := run_flowsBound hl hg hr k f hf
  have hopen := hb.openFlow hf
  obtain ⟨tp, hcust⟩ := (run_isolated hl hg hr).custody pair c hb.config_at
  obtain ⟨tp', t, ht, hback⟩ := hopen.backed hl hg hr
  obtain ⟨d, hd⟩ := c.heldMint_eq f
  obtain ⟨u, hu⟩ := hcust d
  rw [← hd] at hu
  obtain ⟨rfl, rfl⟩ := ht.unique hu
  refine ⟨pair, item, tp', c, i, t, hf, hb, (run_configOk hl hg hr pair c hb.config_at).toAddressed,
    run_ataWellFormed hl hg hr, hcust, ht, ?_⟩
  have hle := hback {k}
  rw [Finset.sum_singleton, hopen.holding_eq hl, if_pos rfl] at hle
  rw [UInt64.le_iff_toNat_le]
  omega

/-- With NTT willing, the flow loads and its tokens can be bridged out of the account that holds
them. -/
theorem ExitReady.bridged {pair item tp nttProgram : Pubkey} {c : PairConfig} {i : InboxItem}
    {t : TokenAccount} (hl : env.Lawful) (h : ExitReady env w k f pair item tp c i t)
    (hacc : AcceptsTransfers env nttProgram (c.heldMint f) w) :
    ∃ accs ctx count w' loaded, accs.flow = k ∧ accs.payer ∈ ctx.signers ∧
      accs.relayerAuthority ∉ ctx.signers ∧ accs.rentDestination = f.payer ∧
      FlowLoad env.runtime accs.toFlowAccounts w loaded ∧ loaded.config = c ∧ loaded.flow = f ∧
      ((inOut f.direction accs.baseAta accs.assetAta).1 =
          custodyKey env.runtime (inOut f.direction c.baseMint c.assetMint).1 tp ∧
        (inOut f.direction accs.baseAta accs.assetAta).2 =
          custodyKey env.runtime (inOut f.direction c.baseMint c.assetMint).2 tp) ∧
      bridgeOut env.runtime ctx accs loaded nttProgram
        (custodyKey env.runtime (c.heldMint f) tp) count w = .ok w' := by
  obtain ⟨payer, hpayer⟩ := exists_ne_key (relayerAuthority env.runtime)
  obtain ⟨m, hload⟩ := exit_load hl h.ata payer h.flow_at h.bound h.addressed h.custody
  have hmint := (h.ata _ _ _ _ h.held.token).2.1
  rw [← hmint] at hacc
  obtain ⟨ctx, count, w', hsign, hnot, hok⟩ := bridgeOut_enabled hl
    (exitAccounts env.runtime pair item k payer tp f c) ⟨c, m, f⟩
    h.held.isTokenProgram (h.addressed.authority_created hl) (h.held.tokenOf_eq h.ata)
    h.held.owner h.bound.amount_pos h.enough hacc hpayer
  exact ⟨_, ctx, count, w', ⟨c, m, f⟩, rfl, hsign, hnot, rfl, hload, rfl, rfl,
    inOut_custodyKey env.runtime c tp f.direction, hok⟩

/-- No stranded flow: in every reachable state with the slot below `2 ^ 63`, every open flow has a
positive amount and a timeout that does not overflow, and if NTT accepts well-formed transfers,
`send` succeeds for some accounts once the flow is swapped and `refund` once a received flow has
waited out the timeout. -/
theorem no_stranded_flow (hl : env.Lawful) (hg : Genesis env w₀) (hr : RelayerRun env w₀ ts w)
    (hslot : w.clock.slot.toNat < 2 ^ 63)
    (hacc : ∀ pair c, pairConfigAt w.accounts pair = some c → ∀ d,
      AcceptsTransfers env (c.receiveNttProgram d) (c.receiveMint d) w)
    (hf : flowAt w.accounts k = some f) :
    0 < f.amount ∧ f.receivedSlot.toNat + 54000 < 2 ^ 64 ∧ Exits env w k f := by
  obtain ⟨pair, item, tp, c, i, t, h⟩ := exitReady hl hg hr hf
  have hage := UInt64.le_iff_toNat_le.mp h.bound.slot_le
  have hroom : f.receivedSlot.toNat + 54000 < 2 ^ 64 := by omega
  refine ⟨h.bound.amount_pos, hroom, ?_, ?_⟩
  · intro hstatus
    obtain ⟨d, hprog, hmint⟩ := sendNttProgram_eq c f.direction
    have hheld : c.heldMint f = (inOut f.direction c.baseMint c.assetMint).2 := by
      rw [PairConfig.heldMint, hstatus]
    have hacc' := hacc pair c h.bound.config_at d
    rw [← hprog, ← hmint, ← hheld] at hacc'
    obtain ⟨accs, ctx, count, w', loaded, hk, hsign, hnot, hrent, hload, rfl, rfl, hkeys, hok⟩ :=
      h.bridged hl hacc'
    rw [hheld, ← hkeys.2] at hok
    exact ⟨ctx, accs, count, _, hk, hnot, send_ok hsign hload hrent hstatus h.bound.amount_pos hok⟩
  · intro hstatus hready
    have hheld : c.heldMint f = (inOut f.direction c.baseMint c.assetMint).1 := by
      rw [PairConfig.heldMint, hstatus]
    have hacc' := hacc pair c h.bound.config_at f.direction
    rw [← inOut_fst_mint, ← hheld] at hacc'
    obtain ⟨accs, ctx, count, w', loaded, hk, hsign, hnot, hrent, hload, rfl, rfl, hkeys, hok⟩ :=
      h.bridged hl hacc'
    rw [hheld, ← hkeys.1] at hok
    exact ⟨ctx, accs, count, _, hk, hnot,
      refund_ok hsign hload hrent hstatus hready h.bound.amount_pos hok⟩

end

/-! ## Exits on the reference chain -/

/-- A `transfer_lock` from an account that has approved the session authority goes through. -/
theorem nttInvoke_lockMetas {source : Pubkey} {args : NttTransferArgs} {s : TokenAccount}
    {a : RelayerAccounts} (rt : RelayerRuntime) (limiter : RateLimiter)
    (p managed mint outbox custody : Pubkey) (clock : Clock) (hs : tokenAt a source = some s)
    (hdelegate : s.delegate = some (deriveSessionAuthority rt p s.owner args).1)
    (hdelegated : s.delegatedAmount = args.amount) (hle : args.amount ≤ s.amount) :
    ∃ a', nttInvoke rt limiter p managed ⟨p, forwardMetas (lockMetas s.owner mint source outbox
      custody (deriveSessionAuthority rt p s.owner args).1) (some s.owner),
      nttTransferLockIx ++ args.serialize⟩ clock a = some a' := by
  have hdata : ∀ x : Bytes, x.take 8 ≠ nttTransferLockIx →
      nttTransferLockIx ++ args.serialize ≠ x := by
    rintro x hx rfl
    exact hx (List.take_left' rfl)
  obtain ⟨s', hs'⟩ : ∃ s', s.debit (deriveSessionAuthority rt p s.owner args).1 args.amount =
      some s' := by
    simp [TokenAccount.debit, hdelegate, hdelegated]
  have htake : (nttTransferLockIx ++ args.serialize).take 8 = nttTransferLockIx :=
    List.take_left' rfl
  unfold nttInvoke
  rw [if_neg (hdata _ (by decide)), if_neg (hdata _ (by decide)), if_pos htake]
  refine ⟨lockTokens rt p custody args.amount (setToken a source s'), ?_⟩
  have hdecode : NttTransferArgs.decode ((nttTransferLockIx ++ args.serialize).drop 8) =
      some args := by
    rw [show (nttTransferLockIx ++ args.serialize).drop 8 = args.serialize from List.drop_left' rfl]
    exact args.decode_serialize
  simp only [nttTransferLock, keyAt_forwardMetas, hdecode]
  simp [lockMetas, keyAt, hs, hs', hdelegate, hle, Instruction.Writes, forwardMetas, writable,
    readonly, guard]

theorem transferLists_lockMetas {sender outbox : Pubkey} (mint source custody session : Pubkey)
    (h : outbox ≠ sender) : TransferLists sender session
      (lockMetas sender mint source outbox custody session) (publishMetas outbox outbox) where
  short := by simp [lockMetas]
  nonempty := by simp [publishMetas]
  sender_mem := ⟨writable sender, by simp [lockMetas], rfl⟩
  session_mem := ⟨readonly session, by simp [lockMetas], rfl⟩
  signers := by simp [lockMetas, publishMetas, readonly, writable, h]

/-- The managers of the reference chain accept every well-formed transfer. -/
theorem referenceManager_accepts {p managed : Pubkey} (hp : referenceMint p = some managed)
    (mint : Pubkey) (w : RelayerWorld) : AcceptsTransfers referenceEnv p mint w := by
  intro tp source sender args a t htp happrove ht hm hpos hle
  simp only [approve, Option.bind_eq_bind, Option.bind_eq_some_iff, Option.guard_eq_some',
    Option.some.injEq] at happrove
  obtain ⟨s, hs, -, rfl, rfl⟩ := happrove
  obtain ⟨-, hsource⟩ := tokenOf_eq_some.mp hs
  have hself := tokenAt_setToken_self { s with
    delegate := some (deriveSessionAuthority referenceEnv.runtime p s.owner args).1
    delegatedAmount := args.amount } (tokenAt_eq_some.mp hsource).1
  obtain rfl := Option.some.inj (hself.symm.trans ht)
  obtain ⟨outbox, houtbox⟩ := exists_ne_key s.owner
  let custody := referenceBase.ata (tokenAuthority referenceBase p) mint tp
  obtain ⟨a₁, hlock⟩ := nttInvoke_lockMetas referenceBase consumeOrDelay p managed mint outbox
    custody w.clock ht rfl rfl hle
  refine ⟨_, _, a₁, a₁, transferLists_lockMetas mint source custody _ houtbox, ?_, ?_⟩
  · rw [referenceEnv_invoke_manager hp]
    exact hlock
  · rw [referenceEnv_invoke_manager hp]
    rfl

/-- On the reference chain a deposit nobody swaps can be refunded in the end. -/
theorem no_stranded_flow_stalled :
    ∃ ts w f, RelayerRun referenceEnv (genesis 1000000000) ts w ∧
      ts.map Transition.act = stalledActions ∧ flowAt w.accounts flowKey = some f ∧
      f.status = .received ∧ ∃ ctx accs count w', accs.flow = flowKey ∧
        refund referenceEnv.runtime ctx accs count w = .ok w' := by
  have hend : Ends (fun w => w.clock.slot = 1054000 ∧
      (flowAt w.accounts flowKey).map (fun f => (f.status, f.receivedSlot)) =
        some (.received, 1000000)) (executed 1000000000 stalledActions) := by decide +kernel
  obtain ⟨ts, w, hr, hacts, hslot, hflow⟩ := run_of_executed (by decide +kernel) hend
  obtain ⟨f, hf, hfields⟩ := Option.map_eq_some_iff.mp hflow
  obtain ⟨hstatus, hreceived⟩ := Prod.mk.inj hfields
  have hacc : ∀ pair c, pairConfigAt w.accounts pair = some c → ∀ d,
      AcceptsTransfers referenceEnv (c.receiveNttProgram d) (c.receiveMint d) w := by
    intro pair c hc d
    have hp := (run_effects referenceEnv_lawful (genesis_ok _).pinned hr).1.receiveNttProgram hc d
    obtain ⟨m, hm⟩ := Option.isSome_iff_exists.mp hp
    exact referenceManager_accepts hm _ w
  have hbound : w.clock.slot.toNat < 2 ^ 63 := by
    rw [hslot]
    decide
  obtain ⟨-, -, -, hrefund⟩ :=
    no_stranded_flow referenceEnv_lawful (genesis_ok _) hr hbound hacc hf
  have hready : f.receivedSlot.toNat + 54000 ≤ w.clock.slot.toNat := by
    rw [hslot, hreceived]
    decide
  obtain ⟨ctx, accs, count, w', hkey, -, hok⟩ := hrefund hstatus hready
  exact ⟨ts, w, f, hr, hacts, hf, hstatus, ctx, accs, count, w', hkey, hok⟩

end FogoYield.Relayer
