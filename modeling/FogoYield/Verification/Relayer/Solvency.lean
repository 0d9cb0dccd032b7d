import FogoYield.Library.Backing
import FogoYield.Verification.Relayer.Isolation

/-! # Custody solvency

The relayer's account of a mint backs every open flow that holds the mint, over and above what is
delegated out of it. -/

namespace FogoYield.Relayer

open FogoYield.Library FogoYield.Solana

theorem Custody.unique {env : Env} {a : RelayerAccounts} {mint tp tp' : Pubkey}
    {t t' : TokenAccount} (h : Custody env a mint tp t) (h' : Custody env a mint tp' t') :
    tp = tp' ∧ t = t' := by
  obtain rfl : tp = tp' := h.mint_program.symm.trans h'.mint_program
  exact ⟨rfl, Option.some.inj (h.token.symm.trans h'.token)⟩

/-- What an open flow holds is one of the two mints of its pair. -/
theorem PairConfig.heldMint_eq (c : PairConfig) (f : Flow) :
    ∃ d, c.heldMint f = c.receiveMint d := by
  unfold PairConfig.heldMint
  cases f.status <;> cases f.direction
  · exact ⟨.deposit, rfl⟩
  · exact ⟨.withdraw, rfl⟩
  · exact ⟨.withdraw, rfl⟩
  · exact ⟨.deposit, rfl⟩

/-- Every mint of a pair is backed by the relayer's account of it. -/
def Solvent (env : Env) (w : RelayerWorld) : Prop :=
  ∀ k c, pairConfigAt w.accounts k = some c → ∀ d tp t,
    Custody env w.accounts (c.receiveMint d) tp t →
    Backed (holding env w (c.receiveMint d)) t.delegatedAmount.toNat t.amount.toNat

/-! ## The step -/

/-- Against a mint that was in use before the step. -/
theorem backed_step {env : Env} (hl : env.Lawful) {w w' : RelayerWorld} {act : Action}
    (hw : Reached env w) (hi : Isolated env w) (he : Effect env w act w') {mint tp tp' : Pubkey}
    {t t' : TokenAccount} (hc : Custody env w.accounts mint tp t)
    (hc' : Custody env w'.accounts mint tp' t')
    (hb : Backed (holding env w mint) t.delegatedAmount.toNat t.amount.toNat) :
    Backed (holding env w' mint) t'.delegatedAmount.toNat t'.amount.toNat := by
  obtain ⟨u, hu, hcov⟩ := he.custody hl hw hi.sides hc
  obtain ⟨-, rfl⟩ := hu.unique hc'
  have hkept : ∀ k, act.flowKey ≠ some k → holding env w' mint k = holding env w mint k := by
    intro k hk
    cases he.flowStep k with
    | kept _ heq => exact holding_kept hl hw.flows he heq
    | received hkey | swapped hkey | sent hkey | refunded hkey =>
        subst hkey
        exact absurd rfl hk
  unfold Covered touched at hcov
  cases hkey : act.flowKey with
  | none =>
      rw [hkey] at hcov
      exact hb.pool (fun k => hkept k (by simp [hkey])) hcov
  | some k =>
      rw [hkey] at hcov
      exact hb.update k (fun j hj => hkept j (by simpa [hkey] using hj.symm)) hcov

/-- A pair that is created in this step is held by nobody. -/
theorem holding_new {env : Env} (hl : env.Lawful) {w w' : RelayerWorld} {ctx : Context}
    {accs : InitializeAccounts} {args : InitializeArgs} {g : GlobalConfig} {rb b : UInt8}
    {w₀ w₁ w₂ : RelayerWorld} (hw : Reached env w) (hi : Isolated env w)
    (he : Effect env w (.initializePair ctx accs args) w')
    (hs : InitializeSpec env.runtime ctx accs args w w' g rb b w₀ w₁ w₂) (d : Direction)
    (k : Pubkey) : holding env w' ((initialConfig accs args rb b).receiveMint d) k = 0 := by
  have hkept : flowAt w'.accounts k = flowAt w.accounts k := by
    cases he.flowStep k with
    | kept _ heq => exact heq
  rw [holding_kept hl hw.flows he hkept]
  unfold holding
  apply if_neg
  rintro ⟨f, c, hopen, hm⟩
  obtain ⟨pair, item, -, hc⟩ := hopen.pair
  obtain ⟨d', hd'⟩ := c.heldMint_eq f
  exact hi.ne_new hl hs hc d' d (hd'.symm.trans hm)

theorem solvent_step {env : Env} (hl : env.Lawful) {w w' : RelayerWorld} {act : Action}
    (hw : Reached env w) (hi : Isolated env w) (h : Solvent env w) (he : Effect env w act w') :
    Solvent env w' := by
  intro k c' hc' d tp' t' ht'
  rcases he.pair_origin hc' with ⟨c, hc, hstat⟩ | ⟨ctx, accs, args, _, _, _, _, _, _, rfl, -, rfl,
    hs⟩
  · obtain ⟨tp, hcust⟩ := hi.custody k c hc
    obtain ⟨t, ht⟩ := hcust d
    rw [hstat.receiveMint] at ht' ⊢
    exact backed_step hl hw hi he ht ht' (h k c hc d tp t ht)
  · obtain ⟨t, ht, hzero⟩ := hs.pairCustody hl d
    obtain ⟨-, rfl⟩ := ht.unique ht'
    exact .of_zero (holding_new hl hw hi he hs d) (by omega)

theorem run_solvent {env : Env} (hl : env.Lawful) {w₀ w : RelayerWorld}
    {ts : List RelayerTransition} (hg : Genesis env w₀) (hr : RelayerRun env w₀ ts w) :
    Solvent env w := by
  induction hr with
  | nil =>
      intro k c hc
      simp [hg.pairConfigAt_none k] at hc
  | snoc hr hstep ih =>
      have hw := run_reached hl hg hr
      exact solvent_step hl hw (run_isolated hl hg hr) ih (hstep.effect hl hw.pinned)

/-! ## Solvency -/

/-- An open flow of a reachable state, with the account that backs the mint it holds. -/
theorem OpenFlow.backed {env : Env} (hl : env.Lawful) {w₀ w : RelayerWorld}
    {ts : List RelayerTransition} (hg : Genesis env w₀) (hr : RelayerRun env w₀ ts w) {k : Pubkey}
    {f : Flow} {c : PairConfig} (h : OpenFlow env w k f c) :
    ∃ tp t, Custody env w.accounts (c.heldMint f) tp t ∧
      Backed (holding env w (c.heldMint f)) t.delegatedAmount.toNat t.amount.toNat := by
  obtain ⟨pair, item, -, hc⟩ := h.pair
  obtain ⟨d, hd⟩ := c.heldMint_eq f
  obtain ⟨tp, hcust⟩ := (run_isolated hl hg hr).custody pair c hc
  obtain ⟨t, ht⟩ := hcust d
  rw [hd]
  exact ⟨tp, t, ht, run_solvent hl hg hr pair c hc d tp t ht⟩

theorem holds_iff_pos {env : Env} (hl : env.Lawful) {w : RelayerWorld} (hb : FlowsBound env w)
    {mint k : Pubkey} : Holds env w mint k ↔ 0 < holding env w mint k := by
  constructor
  · rintro ⟨f, c, hopen, hm⟩
    obtain ⟨_, _, _, _, hbound⟩ := hb k f hopen.flow_at
    rw [hopen.holding_eq hl, if_pos hm.symm]
    exact UInt64.lt_iff_toNat_lt.mp hbound.amount_pos
  · intro hpos
    by_contra hnot
    rw [holding, if_neg hnot] at hpos
    exact Nat.lt_irrefl 0 hpos

/-- Custody solvency: in every reachable state each open flow belongs to a pair, and for every mint
the balance of the relayer authority's associated token account is at least the sum of the amounts
of all open flows that hold the mint. -/
theorem custody_solvency {env : Env} (hl : env.Lawful) {w₀ w : RelayerWorld}
    {ts : List RelayerTransition} (hg : Genesis env w₀) (hr : RelayerRun env w₀ ts w) :
    (∀ k f, flowAt w.accounts k = some f → ∃ c, OpenFlow env w k f c) ∧
    ∀ mint, ∃ S : Finset Pubkey, (∀ k, k ∈ S ↔ Holds env w mint k) ∧
      ∑ k ∈ S, flowAmount w k ≤
        balance w.accounts (custodyKey env.runtime mint (w.accounts mint).owner) := by
  have hb := run_flowsBound hl hg hr
  constructor
  · intro k f hf
    obtain ⟨pair, item, c, i, hbound⟩ := hb k f hf
    exact ⟨c, hbound.openFlow hf⟩
  · intro mint
    by_cases hnone : ∀ k, ¬ Holds env w mint k
    · exact ⟨∅, fun k => by simp [hnone k], by simp⟩
    · rw [not_forall_not] at hnone
      obtain ⟨k₀, f, c, hopen, hm⟩ := hnone
      obtain ⟨tp, t, ht, hback⟩ := hopen.backed hl hg hr
      rw [hm] at ht hback
      have hmem : ∀ k, k ∈ hback.finite.toFinset ↔ Holds env w mint k := by
        intro k
        rw [Set.Finite.mem_toFinset, Set.mem_ofPred_eq, holds_iff_pos hl hb]
      refine ⟨hback.finite.toFinset, hmem, ?_⟩
      have hsum : ∑ k ∈ hback.finite.toFinset, flowAmount w k =
          ∑ k ∈ hback.finite.toFinset, holding env w mint k := by
        apply Finset.sum_congr rfl
        intro k hk
        rw [holding, if_pos ((hmem k).mp hk)]
      rw [ht.mint_program, balance_of_tokenAt ht.token, hsum]
      have hle := hback hback.finite.toFinset
      omega

/-- On the reference chain the deposit is held, and backed. -/
theorem custody_solvency_deposit :
    ∃ ts w, RelayerRun referenceEnv (genesis 1000000000) ts w ∧
      ts.map Transition.act = depositActions.take 4 ∧ flowAmount w flowKey = 100000000 ∧
      ∃ S : Finset Pubkey, flowKey ∈ S ∧ (∀ k, k ∈ S ↔ Holds referenceEnv w usdcMint k) ∧
        ∑ k ∈ S, flowAmount w k ≤ balance w.accounts baseAta := by
  have hend : Ends (fun w => flowAmount w flowKey = 100000000 ∧
      (flowAt w.accounts flowKey).map (fun f => (f.direction, f.status, f.bump)) =
        some (.deposit, .received, 255) ∧
      (pairConfigAt w.accounts pairConfigKey).map PairConfig.baseMint = some usdcMint ∧
      custodyKey referenceEnv.runtime usdcMint (w.accounts usdcMint).owner = baseAta)
      (executed 1000000000 (depositActions.take 4)) := by decide +kernel
  obtain ⟨ts, w, hr, hacts, hamount, hflow, hpair, hkey⟩ :=
    run_of_executed (by decide +kernel) hend
  have hholds : Holds referenceEnv w usdcMint flowKey := by
    obtain ⟨f, hf, hfields⟩ := Option.map_eq_some_iff.mp hflow
    obtain ⟨c, hc, hbase⟩ := Option.map_eq_some_iff.mp hpair
    simp only [Prod.mk.injEq] at hfields
    obtain ⟨hd, hstatus, hbump⟩ := hfields
    refine ⟨f, c, ⟨hf, pairConfigKey, inboxItemKey, ?_, hc⟩, ?_⟩
    · rw [hd, hbump]
      decide +kernel
    · rw [PairConfig.heldMint, hstatus, hd]
      exact hbase
  obtain ⟨-, hmints⟩ := custody_solvency referenceEnv_lawful (genesis_ok _) hr
  obtain ⟨S, hS, hsum⟩ := hmints usdcMint
  rw [hkey] at hsum
  exact ⟨ts, w, hr, hacts, hamount, S, (hS _).mpr hholds, hS, hsum⟩

end FogoYield.Relayer
