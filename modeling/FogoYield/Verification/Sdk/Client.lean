import FogoYield.Model.Sdk.Client
import FogoYield.Verification.Relayer.Liveness
import FogoYield.Verification.Sdk.Ntt

/-! # The client's outbound instructions at the program

What the client builds for an open flow loads, and the program then only makes its three calls: it
succeeds when NTT accepts the two of them that are NTT's. -/

namespace FogoYield.Sdk

open FogoYield.Library FogoYield.Solana
open FogoYield.Relayer (RelayerRuntime RelayerWorld RelayerResult Direction Flow PairConfig Env
  Custody FlowLoad forwardMetas nttTransferLockIx nttReleaseWormholeOutboundIx boolByte inOut)

/-! ## What is built -/

theorem refundTimeoutSlots_mirrors : Relayer.refundTimeoutSlots.toNat = refundTimeoutSlots := rfl

theorem authorityPda_eq (rt : RelayerRuntime) :
    RelayerClient.authorityPda rt = Relayer.relayerAuthority rt := by
  rw [RelayerClient.authorityPda, findAuthorityPda, relayerProgramId_eq.2]
  rfl

theorem relayerAta_eq (rt : RelayerRuntime) (mint : Pubkey) :
    RelayerClient.relayerAta rt mint = Relayer.custodyKey rt mint tokenProgram := by
  rw [RelayerClient.relayerAta, authorityPda_eq]
  rfl

theorem flowPda_eq (rt : RelayerRuntime) (client : RelayerClient) (direction : Direction)
    (item : Pubkey) : client.flowPda rt direction item = (rt.findProgramAddress
      (Relayer.flowSeeds direction (client.configPda rt) item) Relayer.programId).1 := by
  rw [RelayerClient.flowPda, findFlowPda, relayerProgramId_eq.2]
  cases direction <;> rfl

/-- The session authority of a flow's transfer through `manager`. -/
def flowSession (rt : RelayerRuntime) (manager : Pubkey) (flow : Flow) : Pubkey :=
  (Relayer.deriveSessionAuthority rt manager (Relayer.relayerAuthority rt) flow.transferArgs).1

/-- The `transfer_lock` list of a flow. -/
def lockList (rt : RelayerRuntime) (manager mint outboxItem : Pubkey) (flow : Flow) :
    List AccountMeta :=
  (clientTransferLock rt (Relayer.relayerAuthority rt) mint manager outboxItem flow.recipient.bytes
    flow.amount.toNat).accounts rt (flowSession rt manager flow)

/-- Parameters with the fields of a flow. -/
structure OutboundParams.Pays (params : OutboundParams) (flow : Flow) : Prop where
  amount : params.flowAmount = flow.amount.toNat
  recipient : params.flowRecipient = flow.recipient.bytes
  recipient_length : flow.recipient.bytes.length = 32
  rent : params.rentDestination = flow.payer

theorem OutboundParams.build_eq {rt : RelayerRuntime} {client : RelayerClient}
    {params : OutboundParams} {flow : Flow} (h : params.Pays flow) (manager mint : Pubkey) :
    params.build rt client manager mint = .ok ⟨params.accounts rt client, 14,
      lockList rt manager mint params.outboxItem flow ++
        (params.releaseParams manager).accounts rt⟩ := by
  have hsession := sessionAuthority_eq rt (Relayer.relayerAuthority rt) mint manager
    params.outboxItem flow ⟨flow.recipient, h.recipient_length⟩
  have hrelease : buildNttReleaseWormholeOutboundAccountList rt (params.releaseParams manager) =
      .ok ((params.releaseParams manager).accounts rt) := assertAccountCount_eq rfl
  simp only [OutboundParams.build, authorityPda_eq, h.amount, h.recipient,
    buildNttTransferLockAccountList_eq hsession, hrelease, bind, Except.bind]
  rfl

/-- A list that is built has a recipient of 32 bytes. -/
theorem recipient_length_of_hash {rt : RelayerRuntime} {args : NttTransferArgs} {hash : Bytes}
    (h : nttTransferArgsHash rt args = .ok hash) : args.recipientAddress.length = 32 := by
  by_contra hne
  simp [nttTransferArgsHash, serializeTransferArgs, hne, bind, Except.bind] at h

/-! ## What NTT is asked -/

/-- After the relayer has approved the flow's session authority, the manager locks the flow's
amount and publishes the message to its recipient. -/
def LocksAndPublishes (rt : RelayerRuntime) (manager source : Pubkey) (flow : Flow)
    (lock release : List AccountMeta) (w : RelayerWorld) : Prop :=
  ∃ a a₁ a₂,
    approve tokenProgram source (flowSession rt manager flow) (Relayer.relayerAuthority rt)
      flow.amount w.accounts = some a ∧
    rt.invoke ⟨manager, forwardMetas lock (some (Relayer.relayerAuthority rt)),
      nttTransferLockIx ++ flow.transferArgs.serialize⟩ w.clock a = some a₁ ∧
    rt.invoke ⟨manager, forwardMetas release none,
      nttReleaseWormholeOutboundIx ++ [boolByte false]⟩ w.clock a₁ = some a₂

section

variable {env : Env} {accs : Relayer.OutboundAccounts} {loaded : Relayer.FlowLoaded}
variable {w : RelayerWorld} {manager source mint outboxItem payer : Pubkey}

theorem authority_mem_lockList (rt : RelayerRuntime) (manager mint outboxItem : Pubkey)
    (flow : Flow) :
    ∃ a ∈ lockList rt manager mint outboxItem flow, a.pubkey = Relayer.relayerAuthority rt :=
  ⟨_, List.mem_cons_self .., rfl⟩

theorem session_mem_lockList (rt : RelayerRuntime) (manager mint outboxItem : Pubkey)
    (flow : Flow) :
    ∃ a ∈ lockList rt manager mint outboxItem flow, a.pubkey = flowSession rt manager flow :=
  ⟨readonly (flowSession rt manager flow),
    by simp [lockList, TransferLockParams.accounts], rfl⟩

/-- Every signature the `transfer_lock` asks for is the authority's or the outbox item's. -/
theorem lockList_signers {rt : RelayerRuntime} {flow : Flow} {a : AccountMeta}
    (ha : a ∈ forwardMetas (lockList rt manager mint outboxItem flow)
      (some (Relayer.relayerAuthority rt))) (hs : a.isSigner = true) :
    a.pubkey = outboxItem ∨ a.pubkey = Relayer.relayerAuthority rt := by
  simp only [forwardMetas, List.mem_map] at ha
  obtain ⟨m, hm, rfl⟩ := ha
  simp only [Bool.or_eq_true, decide_eq_true_eq, Option.some.injEq] at hs
  rcases hs with hs | hs
  · left
    simp only [lockList, TransferLockParams.accounts, clientTransferLock, List.mem_cons,
      List.not_mem_nil, or_false] at hm
    rcases hm with rfl | rfl | rfl | rfl | rfl | rfl | rfl | rfl | rfl | rfl | rfl | rfl | rfl |
      rfl <;> first | rfl | cases hs
  · exact .inr hs.symm

/-- The release list asks for the payer's signature alone. -/
theorem releaseList_signers {rt : RelayerRuntime} {params : ReleaseOutboundParams}
    {a : AccountMeta} (ha : a ∈ forwardMetas (params.accounts rt) none)
    (hs : a.isSigner = true) : a.pubkey = params.payer := by
  simp only [forwardMetas, List.mem_map] at ha
  obtain ⟨m, hm, rfl⟩ := ha
  simp only [reduceCtorEq, decide_false, Bool.or_false] at hs
  simp only [ReleaseOutboundParams.accounts, List.mem_cons, List.not_mem_nil, or_false] at hm
  rcases hm with rfl | rfl | rfl | rfl | rfl | rfl | rfl | rfl | rfl | rfl | rfl | rfl | rfl |
    rfl | rfl <;> first | rfl | cases hs

/-- With the authority's seeds and the two signatures of the transaction, bridging out is what NTT
makes of it. -/
theorem bridgeOut_ok_iff (hl : env.Lawful) (accs : Relayer.OutboundAccounts)
    (loaded : Relayer.FlowLoaded) {params : ReleaseOutboundParams}
    (htp : accs.tokenProgram = tokenProgram)
    (hauth : accs.relayerAuthority = Relayer.relayerAuthority env.runtime)
    (hseeds : env.runtime.createProgramAddress (Relayer.authoritySeeds
      loaded.config.relayerAuthorityBump) Relayer.programId =
        some (Relayer.relayerAuthority env.runtime)) :
    (∃ w', Relayer.bridgeOut env.runtime ⟨[params.payer, outboxItem],
        lockList env.runtime manager mint outboxItem loaded.flow ++ params.accounts env.runtime⟩
        accs loaded manager source 14 w = .ok w') ↔
      LocksAndPublishes env.runtime manager source loaded.flow
        (lockList env.runtime manager mint outboxItem loaded.flow) (params.accounts env.runtime)
        w := by
  have hsession := session_mem_lockList env.runtime manager mint outboxItem loaded.flow
  have hauthority := authority_mem_lockList env.runtime manager mint outboxItem loaded.flow
  rw [flowSession, ← hauth] at hsession
  rw [← hauth] at hauthority
  rw [bridgeOut_eq (by rfl) (by simp [ReleaseOutboundParams.accounts]) hauthority hsession]
  simp only [bridgeCalls, bind_eq_ok, invokeSigned_eq_ok, Relayer.approveInstruction_eq, htp,
    hauth, hl.token.approve _ _ _ _ _ _ (Or.inl rfl : IsTokenProgram tokenProgram)]
  constructor
  · rintro ⟨w', w₁, ⟨-, a, ha, rfl⟩, w₂, ⟨-, a₁, ha₁, rfl⟩, -, a₂, ha₂, -⟩
    exact ⟨a, a₁, a₂, ha, ha₁, ha₂⟩
  · rintro ⟨a, a₁, a₂, ha, ha₁, ha₂⟩
    refine ⟨_, _, ⟨?_, a, ha, rfl⟩, _, ⟨?_, a₁, ha₁, rfl⟩, ?_, a₂, ha₂, rfl⟩
    · intro m hm hs
      simp only [approveIx, List.mem_cons, List.not_mem_nil, or_false] at hm
      rcases hm with rfl | rfl | rfl
      · cases hs
      · cases hs
      · exact .inr hseeds
    · intro m hm hs
      rcases lockList_signers hm hs with hkey | hkey
      · exact .inl (by simp [hkey])
      · exact .inr (hseeds.trans (congrArg some hkey.symm))
    · intro m hm hs
      exact .inl (by simp [releaseList_signers hm hs])

/-! ## At the program -/

section

variable {client : RelayerClient} {params : OutboundParams} {ix : OutboundIx}
variable {k pair item tp : Pubkey} {f : Flow} {c : PairConfig} {i : Relayer.InboxItem}
variable {t : TokenAccount}

/-- The flow at the client's address is the one of its pair, leg and inbox item. -/
theorem bound_of_flowPda (hl : env.Lawful) (h : Relayer.FlowBound env w k f pair item c i)
    (hk : client.flowPda env.runtime params.direction params.nttInboxItem = k) :
    params.direction = f.direction ∧ client.configPda env.runtime = pair ∧
      params.nttInboxItem = item := by
  have hkey := congrArg Prod.fst h.address
  exact Relayer.flow_inj hl.address ((flowPda_eq ..).symm.trans (hk.trans hkey.symm))

/-- The accounts load for an open flow of the client's pair and inbox item. -/
theorem client_load (hl : env.Lawful) (h : Relayer.ExitReady env w k f pair item tp c i t)
    (hk : client.flowPda env.runtime params.direction params.nttInboxItem = k)
    (hbase : params.baseMint = c.baseMint) (hasset : params.assetMint = c.assetMint)
    (hclassic : (w.accounts c.baseMint).owner = tokenProgram) :
    ∃ m, FlowLoad env.runtime (params.accounts env.runtime client).toFlowAccounts w ⟨c, m, f⟩ := by
  obtain ⟨-, hpair, hitem⟩ := bound_of_flowPda hl h.bound hk
  obtain ⟨u, hu⟩ := h.custody .deposit
  have htp : tp = tokenProgram := hu.mint_program.symm.trans hclassic
  obtain ⟨m, hm⟩ := Relayer.exit_load hl h.ata params.payer h.flow_at h.bound h.addressed h.custody
  have haccs : (params.accounts env.runtime client).toFlowAccounts =
      (Relayer.exitAccounts env.runtime pair item k params.payer tp f c).toFlowAccounts := by
    rw [OutboundParams.accounts, hk]
    simp only [Relayer.exitAccounts, relayerAta_eq, authorityPda_eq, hbase, hasset, hpair, hitem,
      htp]
  rw [← haccs] at hm
  exact ⟨m, hm⟩

theorem load_of_built (hrent : params.rentDestination = loaded.flow.payer)
    (hload : FlowLoad env.runtime (params.accounts env.runtime client).toFlowAccounts w loaded)
    (remaining : List AccountMeta) :
    (params.accounts env.runtime client).load env.runtime
      ⟨[params.payer, params.outboxItem], remaining⟩ w = .ok loaded := by
  simp only [Relayer.OutboundAccounts.load, bind_eq_ok, loadSigner_eq_ok,
    Relayer.flowAccounts_load_eq_ok, constrain_eq_ok, pure_eq_ok, exists_const]
  exact ⟨by simp [OutboundParams.accounts], loaded, hload, hrent, rfl⟩

/-- NTT's part of paying `f.amount` of `mint` to `f.recipient` through `manager`, called with the
two lists of the instruction. -/
def NttPays (rt : RelayerRuntime) (ix : OutboundIx) (f : Flow) (manager mint : Pubkey)
    (w : RelayerWorld) : Prop :=
  LocksAndPublishes rt manager (Relayer.custodyKey rt mint tokenProgram) f
    (ix.remaining.take nttTransferLockAccountCount)
    (ix.remaining.drop nttTransferLockAccountCount) w

/-- Parameters that name the pair's mints and managers. -/
structure OutboundParams.OfPair (params : OutboundParams) (c : PairConfig) : Prop where
  base_mint : params.baseMint = c.baseMint
  asset_mint : params.assetMint = c.assetMint
  base_manager : params.nttBaseProgram = some c.nttBaseProgram
  asset_manager : params.nttAssetProgram = some c.nttAssetProgram

theorem send_eq_build (rt : RelayerRuntime) (h : params.OfPair c) : client.send rt params =
    params.build rt client (c.sendNttProgram params.direction)
      (inOut params.direction c.baseMint c.assetMint).2 := by
  simp only [RelayerClient.send, OutboundParams.assetManager, OutboundParams.baseManager,
    h.base_mint, h.asset_mint, h.base_manager, h.asset_manager, Option.getD_some]
  cases params.direction <;> rfl

theorem refund_eq_build (rt : RelayerRuntime) (h : params.OfPair c) : client.refund rt params =
    params.build rt client (c.receiveNttProgram params.direction)
      (inOut params.direction c.baseMint c.assetMint).1 := by
  simp only [RelayerClient.refund, OutboundParams.assetManager, OutboundParams.baseManager,
    h.base_mint, h.asset_mint, h.base_manager, h.asset_manager, Option.getD_some]
  cases params.direction <;> rfl

theorem inOut_relayerAta (rt : RelayerRuntime) (d : Direction) (base asset : Pubkey) :
    (inOut d (RelayerClient.relayerAta rt base) (RelayerClient.relayerAta rt asset)).1 =
        Relayer.custodyKey rt (inOut d base asset).1 tokenProgram ∧
      (inOut d (RelayerClient.relayerAta rt base) (RelayerClient.relayerAta rt asset)).2 =
        Relayer.custodyKey rt (inOut d base asset).2 tokenProgram := by
  simp only [relayerAta_eq]
  cases d <;> exact ⟨rfl, rfl⟩

theorem accounts_of_build {rt : RelayerRuntime} {manager mint : Pubkey} (h : params.Pays f)
    (hbuilt : params.build rt client manager mint = .ok ix) :
    ix.accounts = params.accounts rt client := by
  rw [OutboundParams.build_eq h] at hbuilt
  rw [← Except.ok.inj hbuilt]

/-- Bridging out through a manager with a built instruction is what NTT makes of it. -/
theorem built_bridgeOut_iff (w : RelayerWorld) (m : Mint) (hl : env.Lawful)
    {manager mint : Pubkey} (h : params.Pays f) (haddr : Relayer.Addressed env.runtime pair c)
    (hbuilt : params.build env.runtime client manager mint = .ok ix) :
    (∃ w', Relayer.bridgeOut env.runtime ⟨[params.payer, params.outboxItem], ix.remaining⟩
        ix.accounts ⟨c, m, f⟩ manager (Relayer.custodyKey env.runtime mint tokenProgram)
        (UInt8.ofNat ix.transferLockAccountCount) w = .ok w') ↔
      NttPays env.runtime ix f manager mint w := by
  rw [OutboundParams.build_eq h] at hbuilt
  obtain rfl := Except.ok.inj hbuilt
  have hlists : (lockList env.runtime manager mint params.outboxItem f).length =
      nttTransferLockAccountCount := rfl
  rw [NttPays, List.take_left' hlists, List.drop_left' hlists]
  exact bridgeOut_ok_iff hl (params.accounts env.runtime client) ⟨c, m, f⟩ rfl
    (authorityPda_eq env.runtime) (haddr.authority_created hl)

/-- The built `send` of a swapped flow goes through if and only if NTT pays it out. -/
theorem client_send_ok_iff (hl : env.Lawful) (hpays : params.Pays f) (hpair : params.OfPair c)
    (h : Relayer.ExitReady env w k f pair item tp c i t)
    (hk : client.flowPda env.runtime params.direction params.nttInboxItem = k)
    (hclassic : (w.accounts c.baseMint).owner = tokenProgram) (hstatus : f.status = .swapped)
    (hbuilt : client.send env.runtime params = .ok ix) :
    (∃ w', Relayer.send env.runtime ⟨[params.payer, params.outboxItem], ix.remaining⟩ ix.accounts
        (UInt8.ofNat ix.transferLockAccountCount) w = .ok w') ↔
      NttPays env.runtime ix f (c.sendNttProgram f.direction)
        (inOut f.direction c.baseMint c.assetMint).2 w := by
  obtain ⟨m, hm⟩ := client_load hl h hk hpair.base_mint hpair.asset_mint hclassic
  obtain ⟨hdirection, -, -⟩ := bound_of_flowPda hl h.bound hk
  rw [send_eq_build env.runtime hpair, hdirection] at hbuilt
  have hiff := built_bridgeOut_iff w m hl hpays h.addressed hbuilt
  have haccs := accounts_of_build hpays hbuilt
  rw [← hiff, haccs, ← (inOut_relayerAta ..).2, ← hpair.base_mint, ← hpair.asset_mint]
  simp only [Relayer.send, load_of_built hpays.rent hm, bind_eq_ok, Except.ok.injEq,
    require_eq_ok, pure_eq_ok, exists_const]
  constructor
  · rintro ⟨w', l, rfl, -, -, v, hv, -⟩
    exact ⟨v, hv⟩
  · rintro ⟨v, hv⟩
    exact ⟨_, _, rfl, hstatus, h.bound.amount_pos, v, hv, rfl⟩

/-- The built `refund` of a received flow that is due goes through if and only if NTT pays it
back. -/
theorem client_refund_ok_iff (hl : env.Lawful) (hpays : params.Pays f) (hpair : params.OfPair c)
    (h : Relayer.ExitReady env w k f pair item tp c i t)
    (hk : client.flowPda env.runtime params.direction params.nttInboxItem = k)
    (hclassic : (w.accounts c.baseMint).owner = tokenProgram) (hstatus : f.status = .received)
    (hready : f.receivedSlot.toNat + Relayer.refundTimeoutSlots.toNat ≤ w.clock.slot.toNat)
    (hbuilt : client.refund env.runtime params = .ok ix) :
    (∃ w', Relayer.refund env.runtime ⟨[params.payer, params.outboxItem], ix.remaining⟩ ix.accounts
        (UInt8.ofNat ix.transferLockAccountCount) w = .ok w') ↔
      NttPays env.runtime ix f (c.receiveNttProgram f.direction)
        (inOut f.direction c.baseMint c.assetMint).1 w := by
  obtain ⟨m, hm⟩ := client_load hl h hk hpair.base_mint hpair.asset_mint hclassic
  obtain ⟨hdirection, -, -⟩ := bound_of_flowPda hl h.bound hk
  rw [refund_eq_build env.runtime hpair, hdirection] at hbuilt
  have hiff := built_bridgeOut_iff w m hl hpays h.addressed hbuilt
  have haccs := accounts_of_build hpays hbuilt
  have hadd : f.receivedSlot.toNat + Relayer.refundTimeoutSlots.toNat =
      (f.receivedSlot + Relayer.refundTimeoutSlots).toNat := by
    rw [UInt64.toNat_add, Nat.mod_eq_of_lt]
    exact Nat.lt_of_le_of_lt hready w.clock.slot.toNat_lt
  rw [← hiff, haccs, ← (inOut_relayerAta ..).1, ← hpair.base_mint, ← hpair.asset_mint]
  simp only [Relayer.refund, load_of_built hpays.rent hm, bind_eq_ok, Except.ok.injEq,
    require_eq_ok, liftOption_eq_ok, Relayer.checkedAdd_eq_some, pure_eq_ok, exists_const]
  constructor
  · rintro ⟨w', l, rfl, -, slot, -, -, -, v, hv, -⟩
    exact ⟨v, hv⟩
  · rintro ⟨v, hv⟩
    refine ⟨_, _, rfl, hstatus, _, hadd, ?_, h.bound.amount_pos, v, hv, rfl⟩
    rw [UInt64.le_iff_toNat_le, ← hadd]
    exact hready

end

end

end FogoYield.Sdk
