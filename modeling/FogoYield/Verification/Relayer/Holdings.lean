import FogoYield.Verification.Relayer.Binding
import FogoYield.Verification.Relayer.Custody

/-! # What an open flow holds

A flow's amount is held in one of its pair's two mints: before the swap in the mint it was received
in, after it in the other. Every step moves the relayer's account of a mint by as much as it moves
what the flow it touches holds of that mint. -/

namespace FogoYield.Relayer

open FogoYield.Library FogoYield.Solana

/-- The mint a flow of the pair holds. -/
def PairConfig.heldMint (c : PairConfig) (f : Flow) : Pubkey :=
  match f.status with
  | .received => (inOut f.direction c.baseMint c.assetMint).1
  | .swapped => (inOut f.direction c.baseMint c.assetMint).2

/-- The open flow `f` at `k` belongs to the pair whose config is `c`: its address says so. -/
structure OpenFlow (env : Env) (w : RelayerWorld) (k : Pubkey) (f : Flow) (c : PairConfig) :
    Prop where
  flow_at : flowAt w.accounts k = some f
  pair : ∃ pair item, env.runtime.findProgramAddress (flowSeeds f.direction pair item) programId =
    (k, f.bump) ∧ pairConfigAt w.accounts pair = some c

/-- The open flow at `k` holds `mint`. -/
def Holds (env : Env) (w : RelayerWorld) (mint k : Pubkey) : Prop :=
  ∃ f c, OpenFlow env w k f c ∧ c.heldMint f = mint

/-- The amount of the flow at `k`, zero when there is none. -/
def flowAmount (w : RelayerWorld) (k : Pubkey) : ℕ :=
  match flowAt w.accounts k with
  | some f => f.amount.toNat
  | none => 0

open Classical in
/-- What the flow at `k` holds of `mint`. -/
noncomputable def holding (env : Env) (w : RelayerWorld) (mint k : Pubkey) : ℕ :=
  if Holds env w mint k then flowAmount w k else 0

section

variable {env : Env} {w w' : RelayerWorld} {k mint : Pubkey} {f : Flow}

theorem FlowBound.openFlow {pair item : Pubkey} {c : PairConfig} {i : InboxItem}
    (h : FlowBound env w k f pair item c i) (hf : flowAt w.accounts k = some f) :
    OpenFlow env w k f c :=
  ⟨hf, pair, item, h.address, h.config_at⟩

/-- An open flow belongs to one pair only. -/
theorem OpenFlow.unique (hl : env.Lawful) {f' : Flow} {c c' : PairConfig}
    (h : OpenFlow env w k f c) (h' : OpenFlow env w k f' c') : f = f' ∧ c = c' := by
  obtain rfl := Option.some.inj (h.flow_at.symm.trans h'.flow_at)
  obtain ⟨pair, item, haddr, hc⟩ := h.pair
  obtain ⟨pair', item', haddr', hc'⟩ := h'.pair
  obtain ⟨-, rfl, -⟩ := flow_inj hl.address (congrArg Prod.fst (haddr.trans haddr'.symm))
  exact ⟨rfl, Option.some.inj (hc.symm.trans hc')⟩

theorem OpenFlow.holds_iff (hl : env.Lawful) {c : PairConfig} (h : OpenFlow env w k f c) :
    Holds env w mint k ↔ c.heldMint f = mint := by
  constructor
  · rintro ⟨f', c', h', hm⟩
    obtain ⟨rfl, rfl⟩ := h.unique hl h'
    exact hm
  · intro hm
    exact ⟨f, c, h, hm⟩

theorem OpenFlow.holding_eq (hl : env.Lawful) {c : PairConfig} (h : OpenFlow env w k f c) :
    holding env w mint k = if mint = c.heldMint f then f.amount.toNat else 0 := by
  have hamount : flowAmount w k = f.amount.toNat := by simp [flowAmount, h.flow_at]
  unfold holding
  rw [hamount]
  by_cases hm : mint = c.heldMint f
  · rw [if_pos hm, if_pos ((h.holds_iff hl).mpr hm.symm)]
  · rw [if_neg hm, if_neg (fun hh => hm ((h.holds_iff hl).mp hh).symm)]

theorem holding_of_none (h : flowAt w.accounts k = none) : holding env w mint k = 0 := by
  unfold holding flowAmount
  rw [h]
  split <;> rfl

theorem SameStatics.heldMint {c c' : PairConfig} (h : SameStatics c c') (f : Flow) :
    c'.heldMint f = c.heldMint f := by
  unfold PairConfig.heldMint
  rw [h.baseMint, h.assetMint]

/-- A step that leaves the flow leaves what it holds. -/
theorem holding_kept (hl : env.Lawful) {act : Action} (hb : FlowsBound env w)
    (he : Effect env w act w') (h : flowAt w'.accounts k = flowAt w.accounts k) :
    holding env w' mint k = holding env w mint k := by
  cases hf : flowAt w.accounts k with
  | none => rw [holding_of_none hf, holding_of_none (h.trans hf)]
  | some f =>
      obtain ⟨pair, item, c, i, hbound⟩ := hb k f hf
      obtain ⟨c', hc', hstat⟩ := he.pair_kept hbound.config_at
      have hopen' : OpenFlow env w' k f c' := ⟨h.trans hf, pair, item, hbound.address, hc'⟩
      rw [(hbound.openFlow hf).holding_eq hl, hopen'.holding_eq hl, hstat.heldMint]

end

/-! ## Every step -/

/-- What is known of a reachable state when the next step is taken. -/
structure Reached (env : Env) (w : RelayerWorld) : Prop where
  pinned : Pinned env w
  ata : AtaWellFormed env.runtime w.accounts
  configs : ∀ k c, pairConfigAt w.accounts k = some c → ConfigOk env.runtime k c
  flows : FlowsBound env w

theorem run_reached {env : Env} (hl : env.Lawful) {w₀ w : RelayerWorld}
    {ts : List RelayerTransition} (hg : Genesis env w₀) (hr : RelayerRun env w₀ ts w) :
    Reached env w :=
  ⟨(run_effects hl hg.pinned hr).1, run_ataWellFormed hl hg hr, run_configOk hl hg hr,
    run_flowsBound hl hg hr⟩

/-- No mint is on both sides of one pair. -/
def SidesDistinct (w : RelayerWorld) : Prop :=
  ∀ k c, pairConfigAt w.accounts k = some c → c.baseMint ≠ c.assetMint

/-- What the flow a step touches holds. -/
noncomputable def touched (env : Env) (act : Action) (w : RelayerWorld) (mint : Pubkey) : ℕ :=
  act.flowKey.elim 0 (holding env w mint)

section

variable {env : Env} {w w' : RelayerWorld} {mint tp : Pubkey} {t : TokenAccount}

theorem receive_held (hl : env.Lawful) (hw : Reached env w) (mint : Pubkey) {ctx : Context}
    {accs : ReceiveAccounts} {args : ReceiveArgs} {c : PairConfig} {m : Mint} {bump : UInt8}
    {w₀ w₁ w₂ : RelayerWorld} {inbox : InboxItem} {held : TokenAccount}
    (he : Effect env w (.receive ctx accs args) w')
    (hs : ReceiveSpec env.runtime ctx accs args w w' c m bump w₀ w₁ w₂ inbox held)
    (hbefore : flowAt w.accounts accs.flow = none)
    (hafter : flowAt w'.accounts accs.flow =
      some (receivedFlow accs args bump inbox.amount w.clock.slot)) :
    holding env w mint accs.flow = 0 ∧ holding env w' mint accs.flow =
      if mint = c.receiveMint args.direction then inbox.amount.toNat else 0 := by
  obtain ⟨c', hbound⟩ := flowBound_of_receive hl hw.pinned he hs
  obtain ⟨c'', hc'', hstat⟩ := he.pair_kept hs.config_at
  obtain rfl := Option.some.inj (hbound.config_at.symm.trans hc'')
  refine ⟨holding_of_none hbefore, ?_⟩
  rw [(hbound.openFlow hafter).holding_eq hl, hstat.heldMint]
  have hmint : c.heldMint (receivedFlow accs args bump inbox.amount w.clock.slot) =
      c.receiveMint args.direction := by
    unfold PairConfig.heldMint receivedFlow
    cases args.direction <;> rfl
  rw [hmint]
  rfl

theorem swap_held (hl : env.Lawful) (hw : Reached env w) (mint : Pubkey) {ctx : Context}
    {accs : SwapAccounts} {data : Bytes} {loaded : FlowLoaded}
    {swapIn feeBefore out netOut fee : UInt64}
    {w₁ w₂ w₃ : RelayerWorld} (he : Effect env w (.swap ctx accs data) w')
    (hs : SwapSpec env.runtime ctx accs data w w' loaded swapIn feeBefore out netOut fee w₁ w₂ w₃)
    (hafter : flowAt w'.accounts accs.flow =
      some { loaded.flow with amount := netOut, status := .swapped }) :
    holding env w mint accs.flow =
        (if mint = (inOut loaded.flow.direction loaded.config.baseMint loaded.config.assetMint).1
          then loaded.flow.amount.toNat else 0) ∧
      holding env w' mint accs.flow =
        if mint = (inOut loaded.flow.direction loaded.config.baseMint loaded.config.assetMint).2
          then netOut.toNat else 0 := by
  obtain ⟨i, hbound⟩ := FlowBound.of_load hl hw.flows hs.load
  obtain ⟨c', hc', hstat⟩ := he.pair_kept hs.load.config_at
  have hopen' : OpenFlow env w' accs.flow
      { loaded.flow with amount := netOut, status := .swapped } c' :=
    ⟨hafter, _, _, hbound.address, hc'⟩
  rw [(hbound.openFlow hs.load.flow_at).holding_eq hl, hopen'.holding_eq hl, hstat.heldMint]
  unfold PairConfig.heldMint
  rw [hs.status]
  exact ⟨rfl, rfl⟩

/-- Custody across a `send` or `refund`: the flow's own mint lets go of what the flow holds. -/
theorem outbound_held (hl : env.Lawful) (hw : Reached env w) {ctx : Context}
    {accs : OutboundAccounts} {count : UInt8} {loaded : FlowLoaded} {nttProgram fromAta : Pubkey}
    {event : Event} {w₁ w₂ w₃ : RelayerWorld} (hp : (env.nttMint nttProgram).isSome)
    (hs : OutboundSpec env.runtime ctx accs count w w' loaded nttProgram fromAta event w₁ w₂ w₃)
    (hfrom : custodyKey env.runtime mint tp = fromAta ↔ mint = loaded.config.heldMint loaded.flow)
    (hafter : flowAt w'.accounts accs.flow = none) (hc : Custody env w.accounts mint tp t) :
    ∃ t', Custody env w'.accounts mint tp t' ∧
      Covered t t' (holding env w' mint accs.flow) (holding env w mint accs.flow) := by
  obtain ⟨i, hbound⟩ := FlowBound.of_load hl hw.flows hs.load
  obtain ⟨t', hc', hcov⟩ := outbound_custody hl hp hs hc
  refine ⟨t', hc', ?_⟩
  rw [holding_of_none hafter, (hbound.openFlow hs.load.flow_at).holding_eq hl]
  simpa only [hfrom] using hcov

/-- Custody across `initialize`: the accounts it creates were nobody's before. -/
theorem initialize_custody (hl : env.Lawful) {ctx : Context} {accs : InitializeAccounts}
    {args : InitializeArgs} {g : GlobalConfig} {relayerBump bump : UInt8}
    {w₀ w₁ w₂ : RelayerWorld}
    (h : InitializeSpec env.runtime ctx accs args w w' g relayerBump bump w₀ w₁ w₂) :
    CustodyGuarded env w.accounts w'.accounts := by
  have hq := (quiet_of_createSpec h.base_created).trans (quiet_of_createSpec h.asset_created)
  have hcreate := custodyGuarded_of_create (ambient_of_create hl h.created) h.created
  have hbase := custodyGuarded_of_create
    (ambient_of_createToken hl h.base_address h.base_program h.base_created) h.base_created
  have hasset := custodyGuarded_of_create
    (ambient_of_createToken hl h.asset_address h.asset_program h.asset_created) h.asset_created
  have hwrite := custodyGuarded_of_write hl
    (d := .pairConfig (initialConfig accs args relayerBump bump)) (hq.owner_eq h.created.owner_eq)
  rw [h.result]
  exact ((hcreate.trans hbase).trans hasset).trans hwrite

/-- A deposit can only credit. -/
theorem guarded_of_deposit {u : TokenAccount} {amount : UInt64}
    (h : u.amount.toNat + amount.toNat < 2 ^ 64) :
    u.Guarded { u with amount := u.amount + amount } := by
  refine ⟨rfl, rfl, rfl, UInt64.le_refl _, ?_⟩
  have hsum : (u.amount + amount).toNat = u.amount.toNat + amount.toNat := by
    rw [UInt64.toNat_add, Nat.mod_eq_of_lt h]
  show u.amount.toNat + u.delegatedAmount.toNat ≤ (u.amount + amount).toNat + _
  omega

/-- The custody step: the relayer's account of any mint survives every step, and what it loses is
matched by what the step's flow lets go of or by a delegation. -/
theorem Effect.custody (hl : env.Lawful) (hw : Reached env w) (hd : SidesDistinct w) {act : Action}
    (h : Effect env w act w') (hc : Custody env w.accounts mint tp t) :
    ∃ t', Custody env w'.accounts mint tp t' ∧
      Covered t t' (touched env act w' mint) (touched env act w mint) := by
  have hguarded : CustodyGuarded env w.accounts w'.accounts →
      ∃ t', Custody env w'.accounts mint tp t' ∧ Covered t t' 0 0 := by
    intro hcg
    obtain ⟨t', hc', hg⟩ := hcg mint tp t hc
    exact ⟨t', hc', .of_guarded hg⟩
  have he := h
  cases h with
  | bootstrap hs _ =>
      apply hguarded
      rw [hs.result]
      exact (custodyGuarded_of_create (ambient_of_create hl hs.created) hs.created).trans
        (custodyGuarded_of_write hl hs.created.owner_eq)
  | initializePair hs _ _ _ => exact hguarded (initialize_custody hl hs)
  | setAdmin hs hch | acceptAdmin hs hch | configure hs hch | acceptAuthority hs hch =>
      apply hguarded
      rw [hs.result]
      exact custodyGuarded_of_write hl (owner_of_programAt hch.before_eq)
  | external hsign hne hi _ => exact hguarded (custodyGuarded_of_external hl hsign hne hi)
  | deposit ht hroom ha _ =>
      apply hguarded
      rw [ha]
      exact custodyGuarded_of_setToken hl ht (guarded_of_deposit hroom)
  | tick _ ha _ =>
      apply hguarded
      rw [ha]
      exact .refl env _
  | @receive ctx accs args _ c m bump w₀ w₁ w₂ inbox held hs hch =>
      have haddr := (hw.configs _ _ hs.config_at).toAddressed
      have hp := hw.pinned.receiveNttProgram hs.config_at args.direction
      obtain ⟨hbefore, hafter⟩ := receive_held hl hw mint he hs
        (by simp [flowAt, hch.before_eq]) (by simp [flowAt, hch.after_eq, RelayerData.asFlow])
      show ∃ t', _ ∧ Covered t t' (holding env w' mint accs.flow) (holding env w mint accs.flow)
      rw [hbefore, hafter]
      exact receive_custody hl hw.ata haddr hp hs hc
  | @swap ctx accs data _ loaded swapIn feeBefore out netOut fee w₁ w₂ w₃ hs hch =>
      have hok := hw.configs _ _ hs.load.config_at
      obtain ⟨hbefore, hafter⟩ := swap_held hl hw mint he hs
        (by simp [flowAt, hch.after_eq, RelayerData.asFlow])
      show ∃ t', _ ∧ Covered t t' (holding env w' mint accs.flow) (holding env w mint accs.flow)
      rw [hbefore, hafter]
      exact swap_custody hl hw.ata hok (hd _ _ hs.load.config_at) hs hc
  | @send ctx accs count _ loaded w₁ w₂ w₃ hstatus hs hch =>
      have haddr := (hw.configs _ _ hs.load.config_at).toAddressed
      have hp := hw.pinned.sendNttProgram hs.load.config_at loaded.flow.direction
      obtain ⟨hb, ha⟩ := hs.load.custodyKey_iff hl hw.ata haddr hc
      refine outbound_held hl hw hp hs ?_ (by simp [flowAt, hch.after_eq]) hc
      unfold PairConfig.heldMint
      rw [hstatus]
      cases loaded.flow.direction
      · exact ha
      · exact hb
  | @refund ctx accs count _ loaded w₁ w₂ w₃ hstatus _ hs hch =>
      have haddr := (hw.configs _ _ hs.load.config_at).toAddressed
      have hp := hw.pinned.receiveNttProgram hs.load.config_at loaded.flow.direction
      obtain ⟨hb, ha⟩ := hs.load.custodyKey_iff hl hw.ata haddr hc
      refine outbound_held hl hw hp hs ?_ (by simp [flowAt, hch.after_eq]) hc
      unfold PairConfig.heldMint
      rw [hstatus]
      cases loaded.flow.direction
      · exact hb
      · exact ha

end

end FogoYield.Relayer
