import FogoYield.Library.Handover
import FogoYield.Verification.Relayer.Ambient
import FogoYield.Verification.Relayer.Reference

/-! # Governance

What every pair config satisfies in every reachable state, and the hand-over of a pair's authority
and of the global admin. -/

namespace FogoYield.Relayer

open FogoYield.Library FogoYield.Solana

/-! ## Addresses -/

/-- A config's address and the relayer authority, with the canonical bumps the config stores. -/
structure Addressed (rt : RelayerRuntime) (k : Pubkey) (c : PairConfig) : Prop where
  address : rt.findProgramAddress [pairConfigSeed, c.baseMint.bytes, c.assetMint.bytes] programId =
    (k, c.bump)
  authority : rt.findProgramAddress [relayerSeed] programId =
    (relayerAuthority rt, c.relayerAuthorityBump)

theorem Addressed.of_statics {rt : RelayerRuntime} {k : Pubkey} {c c' : PairConfig}
    (h : Addressed rt k c) (hs : SameStatics c c') : Addressed rt k c' := by
  refine ⟨?_, ?_⟩
  · rw [hs.baseMint, hs.assetMint, hs.bump]
    exact h.address
  · rw [hs.relayerAuthorityBump]
    exact h.authority

/-- The seeds check on the `relayer_authority` account pins it. -/
theorem Addressed.authority_eq {env : Env} (hl : env.Lawful) {k x : Pubkey} {c : PairConfig}
    (h : Addressed env.runtime k c)
    (hx : env.runtime.createProgramAddress ([relayerSeed] ++ [[c.relayerAuthorityBump]]) programId =
      some x) : x = relayerAuthority env.runtime := by
  have hfind := hl.address.create_find [relayerSeed] programId
  rw [h.authority] at hfind
  exact Option.some.inj (hx.symm.trans hfind)

/-! ## Config invariants -/

/-- What holds of a config in every reachable state. -/
structure ConfigOk (rt : RelayerRuntime) (k : Pubkey) (c : PairConfig) : Prop extends
    Addressed rt k c where
  valid : c.validate = .ok ()
  vault : ∀ tp, c.feeVault ≠ rt.ata (relayerAuthority rt) c.assetMint tp
  pending : c.pendingAuthority ≠ some Pubkey.default

theorem checkStagedFee_eq_ok {fee : Option UInt16} {u : Unit} :
    checkStagedFee fee = .ok u ↔ ∀ v ∈ fee, v ≤ maxFeeBps := by
  cases fee with
  | none => simp [checkStagedFee]
  | some v => simp [checkStagedFee]

/-- `validate()`, leg by leg. -/
theorem PairConfig.validate_eq_ok {c : PairConfig} {u : Unit} :
    c.validate = .ok u ↔
      (∀ leg, c.live leg ≤ maxFeeBps) ∧ (∀ leg, ∀ v ∈ c.staged leg, v ≤ maxFeeBps) ∧
        ∀ p ∈ c.pendingFee, ∃ leg, p.leg leg ≠ none := by
  have hlegs : ∀ P : Leg → Prop, (∀ leg, P leg) ↔ P .deposit ∧ P .withdraw := by
    intro P
    refine ⟨fun h => ⟨h _, h _⟩, ?_⟩
    rintro ⟨hd, hw⟩ leg
    cases leg
    · exact hd
    · exact hw
  rw [hlegs, hlegs]
  simp only [PairConfig.validate, bind_eq_ok, require_eq_ok, exists_const, PairConfig.live,
    PairConfig.staged]
  cases hp : c.pendingFee with
  | none => simp
  | some p =>
      have hempty : p.isEmpty = false ↔ ∃ leg, p.leg leg ≠ none := by
        rw [← Bool.not_eq_true]
        constructor
        · intro hne
          by_contra hnone
          have hz : ∀ leg, p.leg leg = none := by simpa using hnone
          apply hne
          simp [PendingFee.isEmpty, show p.depositFeeBps = none from hz .deposit,
            show p.withdrawFeeBps = none from hz .withdraw]
        · rintro ⟨leg, hleg⟩ he
          exact hleg (PendingFee.leg_of_isEmpty he leg)
      simp only [bind_eq_ok, require_eq_ok, checkStagedFee_eq_ok, exists_const, hempty,
        PendingFee.leg, Option.bind_some, Option.mem_def, Option.some.injEq, forall_eq']
      tauto

/-- A token account of the asset mint under `tp` that is not the custody account of that program is
not the custody account of any. -/
theorem vault_ne_custody {rt : RelayerRuntime} {a : RelayerAccounts} {vault mint tp : Pubkey}
    (hw : AtaWellFormed rt a)
    (hv : ∃ t, tokenAt a vault = some t ∧ (a vault).owner = tp ∧ t.mint = mint)
    (hne : vault ≠ rt.ata (relayerAuthority rt) mint tp) (tp' : Pubkey) :
    vault ≠ rt.ata (relayerAuthority rt) mint tp' := by
  rintro rfl
  obtain ⟨t, ht, ho, -⟩ := hv
  obtain ⟨ho', -, -⟩ := hw _ _ _ t ht
  exact hne (by rw [ho'.symm.trans ho])

theorem configOk_of_initialize {env : Env} (hl : env.Lawful) {ctx : Context}
    {accs : InitializeAccounts} {args : InitializeArgs} {w w' : RelayerWorld} {g : GlobalConfig}
    {relayerBump bump : UInt8} {w₀ w₁ w₂ : RelayerWorld}
    (hw : AtaWellFormed env.runtime w.accounts)
    (h : InitializeSpec env.runtime ctx accs args w w' g relayerBump bump w₀ w₁ w₂) :
    ConfigOk env.runtime accs.pairConfig (initialConfig accs args relayerBump bump) := by
  have hauth : accs.relayerAuthority = relayerAuthority env.runtime := by
    rw [relayerAuthority, h.authority]
  have hvault := vault_ne_custody ((h.ambient_created hl).ata hw) h.vault (by
    rw [← hauth, h.asset_address]
    exact h.vault_ne)
  refine ⟨⟨h.address, ?_⟩, h.valid, hvault, by simp [initialConfig]⟩
  rw [h.authority, hauth]
  rfl

theorem configOk_of_configure {env : Env} (hl : env.Lawful) {ctx : Context}
    {accs : ConfigureAccounts} {args : ConfigureArgs} {w w' : RelayerWorld} {c c' : PairConfig}
    (hw : AtaWellFormed env.runtime w.accounts) (hc : ConfigOk env.runtime accs.pairConfig c)
    (h : ConfigureSpec env.runtime ctx accs args w w' c c') :
    ConfigOk env.runtime accs.pairConfig c' := by
  have hf := configure_fields h.handled
  refine ⟨hc.toAddressed.of_statics hf.statics, hf.valid, ?_, ?_⟩
  · rw [hf.statics.assetMint]
    rcases hf.vault with ⟨-, hv⟩ | ⟨hv, hne⟩
    · rw [hv]
      exact hc.vault
    · obtain ⟨t, ht⟩ := h.asset_ata
      have hauth := hc.toAddressed.authority_eq hl h.authority
      rw [h.asset_mint]
      refine vault_ne_custody hw (h.vault _ hv) ?_
      rw [← hauth, ht.address]
      exact hne
  · have hp := hf.pending
    cases hnew : args.newAuthority with
    | none =>
        simp only [AuthorityProposed, hnew] at hp
        rw [hp]
        exact hc.pending
    | some q =>
        by_cases hq : q = Pubkey.default
        · simp only [AuthorityProposed, hnew, hq, if_true] at hp
          simp [hp]
        · simp only [AuthorityProposed, hnew, hq, if_false] at hp
          simp [hp.2, hq]

theorem configOk_step {env : Env} (hl : env.Lawful) {w w' : RelayerWorld} {act : Action}
    (hw : AtaWellFormed env.runtime w.accounts)
    (hinv : ∀ k c, pairConfigAt w.accounts k = some c → ConfigOk env.runtime k c)
    (he : Effect env w act w') :
    ∀ k c, pairConfigAt w'.accounts k = some c → ConfigOk env.runtime k c := by
  intro k c hc
  cases he.pairStep k with
  | kept _ heq => exact hinv k c (heq ▸ hc)
  | initialized hk hs _ _ _ hafter =>
      obtain rfl := Option.some.inj (hafter.symm.trans hc)
      rw [← hk]
      exact configOk_of_initialize hl hw hs
  | configured hk hs hbefore hafter =>
      obtain rfl := Option.some.inj (hafter.symm.trans hc)
      subst hk
      exact configOk_of_configure hl hw (hinv _ _ hbefore) hs
  | accepted _ _ hbefore hafter =>
      obtain rfl := Option.some.inj (hafter.symm.trans hc)
      obtain ⟨haddr, hvalid, hvault, -⟩ := hinv _ _ hbefore
      exact ⟨⟨haddr.address, haddr.authority⟩, hvalid, hvault, by simp⟩

theorem run_configOk {env : Env} (hl : env.Lawful) {w₀ w : RelayerWorld}
    {ts : List RelayerTransition} (hg : Genesis env w₀) (hr : RelayerRun env w₀ ts w) :
    ∀ k c, pairConfigAt w.accounts k = some c → ConfigOk env.runtime k c := by
  induction hr with
  | nil =>
      intro k c hc
      simp [hg.pairConfigAt_none k] at hc
  | snoc hr hstep ih =>
      exact configOk_step hl (run_ataWellFormed hl hg hr) ih
        (hstep.effect hl (run_effects hl hg.pinned hr).1)

/-! ## Where a config comes from -/

/-- The transition is the `initialize` that set the static fields `c` has at `k`. -/
def InitializedAs (k : Pubkey) (c : PairConfig) (tr : RelayerTransition) : Prop :=
  ∃ ctx accs args relayerBump bump, tr.act = .initializePair ctx accs args ∧
    accs.pairConfig = k ∧
    pairConfigAt tr.post.accounts k = some (initialConfig accs args relayerBump bump) ∧
    SameStatics (initialConfig accs args relayerBump bump) c

def NotInitialized (k : Pubkey) (tr : RelayerTransition) : Prop :=
  ∀ ctx accs args, tr.act = .initializePair ctx accs args → accs.pairConfig ≠ k

theorem InitializedAs.of_statics {k : Pubkey} {c c' : PairConfig} {tr : RelayerTransition}
    (hs : SameStatics c c') (h : InitializedAs k c tr) : InitializedAs k c' tr := by
  obtain ⟨ctx, accs, args, rb, b, hact, hk, hpost, hsame⟩ := h
  exact ⟨ctx, accs, args, rb, b, hact, hk, hpost, hsame.trans hs⟩

theorem run_initializedAs {env : Env} (hl : env.Lawful) {w₀ w : RelayerWorld}
    {ts : List RelayerTransition} (hg : Genesis env w₀) (hr : RelayerRun env w₀ ts w) :
    ∀ k c, pairConfigAt w.accounts k = some c →
      Since (InitializedAs k c) (NotInitialized k) ts := by
  induction hr with
  | nil =>
      intro k c hc
      simp [hg.pairConfigAt_none k] at hc
  | @snoc w w' act ts hr hstep ih =>
      intro k c hc
      have he := hstep.effect hl (run_effects hl hg.pinned hr).1
      have hlater : ∀ c₀, pairConfigAt w.accounts k = some c₀ → SameStatics c₀ c →
          NotInitialized k ⟨w, act, w'⟩ →
          Since (InitializedAs k c) (NotInitialized k) (ts ++ [⟨w, act, w'⟩]) := by
        intro c₀ hc₀ hs hnot
        exact ((ih k c₀ hc₀).mono (fun _ _ => .of_statics hs) (fun _ _ h => h)).later hnot
      cases he.pairStep k with
      | kept hkey heq =>
          refine hlater c (heq ▸ hc) (.refl c) ?_
          rintro ctx accs args rfl rfl
          simp [Action.pairKey] at hkey
      | @initialized ctx accs args _ g rb b _ _ _ hk hs _ _ _ hafter =>
          obtain rfl := Option.some.inj (hafter.symm.trans hc)
          exact .here ts ⟨ctx, accs, args, rb, b, rfl, hk, hafter, .refl _⟩
      | @configured ctx accs args _ c₀ c' hk hs hbefore hafter =>
          obtain rfl := Option.some.inj (hafter.symm.trans hc)
          refine hlater c₀ hbefore (configure_fields hs.handled).statics ?_
          rintro _ _ _ ⟨⟩
      | @accepted ctx accs _ c₀ hk hs hbefore hafter =>
          obtain rfl := Option.some.inj (hafter.symm.trans hc)
          refine hlater c₀ hbefore ⟨rfl, rfl, rfl, rfl, rfl, rfl, rfl⟩ ?_
          rintro _ _ _ ⟨⟩

/-! ## Hand-over of a pair's authority -/

def pairHandover (k : Pubkey) (w : RelayerWorld) : Option (Handover Pubkey) :=
  (pairConfigAt w.accounts k).map (fun c => ⟨c.authority, c.pendingAuthority⟩)

/-- The hand-over move of a transition, for the pair at `k`. -/
def pairMove (k : Pubkey) (tr : RelayerTransition) : HandoverMove Pubkey :=
  match tr.act with
  | .initializePair _ accs _ => if accs.pairConfig = k then .create else .keep
  | .configure _ accs args =>
    if accs.pairConfig = k then
      match args.newAuthority with
      | none => .keep
      | some q => if q = Pubkey.default then .withdraw else .propose q
    else .keep
  | .acceptAuthority _ accs => if accs.pairConfig = k then .accept else .keep
  | _ => .keep

theorem pairMove_of_pairKey {k : Pubkey} (tr : RelayerTransition)
    (h : tr.act.pairKey ≠ some k) : pairMove k tr = .keep := by
  unfold pairMove
  split <;> simp_all [Action.pairKey]

theorem pair_moves {env : Env} {w w' : RelayerWorld} {act : Action} (he : Effect env w act w')
    (k : Pubkey) : (pairMove k ⟨w, act, w'⟩).Moves (pairHandover k w) (pairHandover k w') := by
  cases he.pairStep k with
  | kept hkey heq =>
      rw [pairMove_of_pairKey _ hkey, pairHandover, pairHandover, heq]
      exact .keep _
  | initialized hk _ _ _ hbefore hafter =>
      simp only [pairMove, hk, if_true, pairHandover, hbefore, hafter, Option.map_none,
        Option.map_some]
      exact .create _
  | @configured ctx accs args _ c c' hk hs hbefore hafter =>
      have hf := configure_fields hs.handled
      have hp := hf.pending
      simp only [pairMove, hk, if_true, pairHandover, hbefore, hafter, Option.map_some,
        hf.authority]
      cases hnew : args.newAuthority with
      | none =>
          simp only [AuthorityProposed, hnew] at hp
          rw [hp]
          exact .keep _
      | some q =>
          by_cases hq : q = Pubkey.default
          · simp only [AuthorityProposed, hnew, hq, if_true] at hp ⊢
            rw [hp]
            exact .withdraw _ _
          · simp only [AuthorityProposed, hnew, hq, if_false] at hp ⊢
            rw [hp.2]
            exact .propose _ hp.1
  | accepted hk hs hbefore hafter =>
      simp only [pairMove, hk, if_true, pairHandover, hbefore, hafter, Option.map_some, hs.pending]
      exact .accept _ _

/-- The pair's authority `a` signed a `configure` that proposes `q`. -/
def ProposesAuthority (k a q : Pubkey) (tr : RelayerTransition) : Prop :=
  ∃ ctx accs args c, tr.act = .configure ctx accs args ∧ accs.pairConfig = k ∧
    pairConfigAt tr.pre.accounts k = some c ∧ c.authority = a ∧ a ∈ ctx.signers ∧
    args.newAuthority = some q

/-- The transition neither replaces, withdraws nor uses up a proposal. -/
def LeavesAuthority (k : Pubkey) (tr : RelayerTransition) : Prop :=
  (∀ ctx accs args, tr.act = .configure ctx accs args → accs.pairConfig = k →
    args.newAuthority = none) ∧
  ∀ ctx accs, tr.act = .acceptAuthority ctx accs → accs.pairConfig ≠ k

theorem proposesAuthority_of_moves {env : Env} {k a q : Pubkey} {tr : RelayerTransition}
    (he : Effect env tr.pre tr.act tr.post)
    (h : Proposes (pairHandover k) (pairMove k) a q tr) : ProposesAuthority k a q tr := by
  obtain ⟨hmove, p, hview⟩ := h
  obtain ⟨w, act, w'⟩ := tr
  cases he.pairStep k with
  | kept hkey _ => simp [pairMove_of_pairKey ⟨w, act, w'⟩ hkey] at hmove
  | initialized hk _ _ _ _ _ => simp [pairMove, hk] at hmove
  | accepted hk _ _ _ => simp [pairMove, hk] at hmove
  | @configured ctx accs args _ c c' hk hs hbefore hafter =>
      simp only [pairMove, hk, if_true] at hmove
      simp only [pairHandover, hbefore, Option.map_some, Option.some.injEq,
        Handover.mk.injEq] at hview
      refine ⟨ctx, accs, args, c, rfl, hk, hbefore, hview.1, ?_, ?_⟩
      · rw [← hview.1, hs.by_authority]
        exact hs.signer
      · cases hnew : args.newAuthority with
        | none => simp [hnew] at hmove
        | some r =>
            simp only [hnew] at hmove
            split at hmove
            · cases hmove
            · rw [HandoverMove.propose.inj hmove]

theorem leavesAuthority_of_keep {k : Pubkey} {tr : RelayerTransition}
    (h : pairMove k tr = .keep) : LeavesAuthority k tr := by
  constructor
  · intro ctx accs args hact hk
    simp only [pairMove, hact, hk, if_true] at h
    cases hnew : args.newAuthority with
    | none => rfl
    | some q =>
        simp only [hnew] at h
        split at h <;> cases h
  · intro ctx accs hact hk
    simp [pairMove, hact, hk] at h

/-! ## Hand-over of the global admin -/

def globalHandover (k : Pubkey) (w : RelayerWorld) : Option (Handover Pubkey) :=
  (globalConfigAt w.accounts k).map (fun g => ⟨g.admin, g.pendingAdmin⟩)

/-- The hand-over move of a transition, for the global config at `k`. -/
def globalMove (k : Pubkey) (tr : RelayerTransition) : HandoverMove Pubkey :=
  match tr.act with
  | .bootstrap _ accs => if accs.globalConfig = k then .create else .keep
  | .setAdmin _ accs newAdmin => if accs.globalConfig = k then .propose newAdmin else .keep
  | .acceptAdmin _ accs => if accs.globalConfig = k then .accept else .keep
  | _ => .keep

theorem globalMove_of_globalKey {k : Pubkey} (tr : RelayerTransition)
    (h : tr.act.globalKey ≠ some k) : globalMove k tr = .keep := by
  unfold globalMove
  split <;> simp_all [Action.globalKey]

theorem global_moves {env : Env} {w w' : RelayerWorld} {act : Action} (he : Effect env w act w')
    (k : Pubkey) :
    (globalMove k ⟨w, act, w'⟩).Moves (globalHandover k w) (globalHandover k w') := by
  cases he.globalStep k with
  | kept hkey heq =>
      rw [globalMove_of_globalKey _ hkey, globalHandover, globalHandover, heq]
      exact .keep _
  | bootstrapped hk _ hbefore hafter =>
      simp only [globalMove, hk, if_true, globalHandover, hbefore, hafter, Option.map_none,
        Option.map_some]
      exact .create _
  | proposed hk hs hbefore hafter =>
      simp only [globalMove, hk, if_true, globalHandover, hbefore, hafter, Option.map_some]
      exact .propose _ hs.ne_admin
  | accepted hk hs hbefore hafter =>
      simp only [globalMove, hk, if_true, globalHandover, hbefore, hafter, Option.map_some,
        hs.pending]
      exact .accept _ _

/-- The admin `a` signed a `set_admin` that proposes `q`. -/
def ProposesAdmin (k a q : Pubkey) (tr : RelayerTransition) : Prop :=
  ∃ ctx accs g, tr.act = .setAdmin ctx accs q ∧ accs.globalConfig = k ∧
    globalConfigAt tr.pre.accounts k = some g ∧ g.admin = a ∧ a ∈ ctx.signers

def LeavesAdmin (k : Pubkey) (tr : RelayerTransition) : Prop :=
  (∀ ctx accs q, tr.act = .setAdmin ctx accs q → accs.globalConfig ≠ k) ∧
  ∀ ctx accs, tr.act = .acceptAdmin ctx accs → accs.globalConfig ≠ k

theorem proposesAdmin_of_moves {env : Env} {k a q : Pubkey} {tr : RelayerTransition}
    (he : Effect env tr.pre tr.act tr.post)
    (h : Proposes (globalHandover k) (globalMove k) a q tr) : ProposesAdmin k a q tr := by
  obtain ⟨hmove, p, hview⟩ := h
  obtain ⟨w, act, w'⟩ := tr
  cases he.globalStep k with
  | kept hkey _ => simp [globalMove_of_globalKey ⟨w, act, w'⟩ hkey] at hmove
  | bootstrapped hk _ _ _ => simp [globalMove, hk] at hmove
  | accepted hk _ _ _ => simp [globalMove, hk] at hmove
  | @proposed ctx accs newAdmin _ g hk hs hbefore hafter =>
      simp only [globalMove, hk, if_true] at hmove
      obtain rfl := HandoverMove.propose.inj hmove
      simp only [globalHandover, hbefore, Option.map_some, Option.some.injEq,
        Handover.mk.injEq] at hview
      refine ⟨ctx, accs, g, rfl, hk, hbefore, hview.1, ?_⟩
      rw [← hview.1, hs.by_admin]
      exact hs.signer

theorem leavesAdmin_of_keep {k : Pubkey} {tr : RelayerTransition}
    (h : globalMove k tr = .keep) : LeavesAdmin k tr := by
  constructor
  · intro ctx accs q hact hk
    simp [globalMove, hact, hk] at h
  · intro ctx accs hact hk
    simp [globalMove, hact, hk] at h

/-! ## The governance invariant -/

/-- The hand-over law of a pair: its authority changes only when a key that the authority had
proposed, and not withdrawn or replaced since, signs `accept_authority`. -/
theorem authority_handover {env : Env} (hl : env.Lawful) {w₀ w : RelayerWorld}
    {before after : List RelayerTransition} {tr : RelayerTransition} (hg : Genesis env w₀)
    (hr : RelayerRun env w₀ (before ++ tr :: after) w) {k : Pubkey} {c : PairConfig}
    (hc : pairConfigAt tr.pre.accounts k = some c) :
    ∃ c', pairConfigAt tr.post.accounts k = some c' ∧ (c'.authority = c.authority ∨
      ∃ ctx accs, tr.act = .acceptAuthority ctx accs ∧ accs.pairConfig = k ∧
        c'.authority ∈ ctx.signers ∧
        Since (ProposesAuthority k c.authority c'.authority) (LeavesAuthority k) before) := by
  have heff := (run_effects hl hg.pinned hr).2
  have hview : pairHandover k tr.pre = some ⟨c.authority, c.pendingAuthority⟩ := by
    simp [pairHandover, hc]
  obtain ⟨h', hpost, hlaw⟩ := hr.handover (pairHandover k) (pairMove k)
    (by simp [pairHandover, hg.pairConfigAt_none k])
    (fun u hu => pair_moves (heff u hu) k) hview
  obtain ⟨c', hc', rfl⟩ := Option.map_eq_some_iff.mp hpost
  refine ⟨c', hc', ?_⟩
  rcases hlaw with hsame | ⟨hmove, -, hstand⟩
  · exact .inl hsame
  · have he := heff tr (by simp)
    generalize hact : tr.act = act at he
    cases he.pairStep k with
    | kept hkey _ => simp [pairMove_of_pairKey tr (hact ▸ hkey)] at hmove
    | initialized hk _ _ _ _ _ => simp [pairMove, hact, hk] at hmove
    | @configured ctx accs args _ _ _ hk _ _ _ =>
        simp only [pairMove, hact, hk, if_true] at hmove
        split at hmove
        · cases hmove
        · split at hmove <;> cases hmove
    | @accepted ctx accs _ c₀ hk hs hbefore hafter =>
        obtain rfl := Option.some.inj (hafter.symm.trans hc')
        refine .inr ⟨ctx, accs, rfl, hk, hs.signer, hstand.mono ?_ ?_⟩
        · intro u hu hprop
          exact proposesAuthority_of_moves (heff u (by simp [hu])) hprop
        · intro u _ hkeep
          exact leavesAuthority_of_keep hkeep

/-- The hand-over law of the global config. -/
theorem admin_handover {env : Env} (hl : env.Lawful) {w₀ w : RelayerWorld}
    {before after : List RelayerTransition} {tr : RelayerTransition} (hg : Genesis env w₀)
    (hr : RelayerRun env w₀ (before ++ tr :: after) w) {k : Pubkey} {g : GlobalConfig}
    (hk : globalConfigAt tr.pre.accounts k = some g) :
    ∃ g', globalConfigAt tr.post.accounts k = some g' ∧ (g'.admin = g.admin ∨
      ∃ ctx accs, tr.act = .acceptAdmin ctx accs ∧ accs.globalConfig = k ∧
        g'.admin ∈ ctx.signers ∧
        Since (ProposesAdmin k g.admin g'.admin) (LeavesAdmin k) before) := by
  have heff := (run_effects hl hg.pinned hr).2
  have hview : globalHandover k tr.pre = some ⟨g.admin, g.pendingAdmin⟩ := by
    simp [globalHandover, hk]
  obtain ⟨h', hpost, hlaw⟩ := hr.handover (globalHandover k) (globalMove k)
    (by simp [globalHandover, hg.globalConfigAt_none k])
    (fun u hu => global_moves (heff u hu) k) hview
  obtain ⟨g', hg', rfl⟩ := Option.map_eq_some_iff.mp hpost
  refine ⟨g', hg', ?_⟩
  rcases hlaw with hsame | ⟨hmove, -, hstand⟩
  · exact .inl hsame
  · have he := heff tr (by simp)
    generalize hact : tr.act = act at he
    cases he.globalStep k with
    | kept hkey _ => simp [globalMove_of_globalKey tr (hact ▸ hkey)] at hmove
    | bootstrapped hk _ _ _ => simp [globalMove, hact, hk] at hmove
    | proposed hk _ _ _ => simp [globalMove, hact, hk] at hmove
    | @accepted ctx accs _ g₀ hk hs hbefore hafter =>
        obtain rfl := Option.some.inj (hafter.symm.trans hg')
        refine .inr ⟨ctx, accs, rfl, hk, hs.signer, hstand.mono ?_ ?_⟩
        · intro u hu hprop
          exact proposesAdmin_of_moves (heff u (by simp [hu])) hprop
        · intro u _ hkeep
          exact leavesAdmin_of_keep hkeep

/-- In every reachable state every pair config is valid, has the static fields its `initialize`
set, a fee vault outside custody and a pending authority that is neither the present one nor the
default key; and along every run the authority of a pair, like the global admin, changes only
through an accepted proposal that still stands. -/
theorem governance_invariant {env : Env} (hl : env.Lawful) {w₀ w : RelayerWorld}
    {ts : List RelayerTransition} (hg : Genesis env w₀) (hr : RelayerRun env w₀ ts w) :
    (∀ k c, pairConfigAt w.accounts k = some c →
      c.validate = .ok () ∧ (∀ leg, c.live leg ≤ maxFeeBps) ∧
      (∀ leg, ∀ v ∈ c.staged leg, v ≤ maxFeeBps) ∧
      (∀ p ∈ c.pendingFee, ∃ leg, p.leg leg ≠ none) ∧
      Since (InitializedAs k c) (NotInitialized k) ts ∧
      (∀ tp, c.feeVault ≠ env.runtime.ata (relayerAuthority env.runtime) c.assetMint tp) ∧
      c.pendingAuthority ≠ some c.authority ∧ c.pendingAuthority ≠ some Pubkey.default) ∧
    (∀ k g, globalConfigAt w.accounts k = some g → g.pendingAdmin ≠ some g.admin) ∧
    (∀ before tr after k c, ts = before ++ tr :: after →
      pairConfigAt tr.pre.accounts k = some c →
      ∃ c', pairConfigAt tr.post.accounts k = some c' ∧ (c'.authority = c.authority ∨
        ∃ ctx accs, tr.act = .acceptAuthority ctx accs ∧ accs.pairConfig = k ∧
          c'.authority ∈ ctx.signers ∧
          Since (ProposesAuthority k c.authority c'.authority) (LeavesAuthority k) before)) ∧
    ∀ before tr after k g, ts = before ++ tr :: after →
      globalConfigAt tr.pre.accounts k = some g →
      ∃ g', globalConfigAt tr.post.accounts k = some g' ∧ (g'.admin = g.admin ∨
        ∃ ctx accs, tr.act = .acceptAdmin ctx accs ∧ accs.globalConfig = k ∧
          g'.admin ∈ ctx.signers ∧
          Since (ProposesAdmin k g.admin g'.admin) (LeavesAdmin k) before) := by
  have heff := (run_effects hl hg.pinned hr).2
  refine ⟨?_, ?_, ?_, ?_⟩
  · intro k c hc
    have hok := run_configOk hl hg hr k c hc
    obtain ⟨hlive, hstaged, hbundle⟩ := PairConfig.validate_eq_ok.mp hok.valid
    have hself := (hr.handoverInv (pairHandover k) (pairMove k)
      (by simp [pairHandover, hg.pairConfigAt_none k])
      (fun u hu => pair_moves (heff u hu) k)).not_self ⟨c.authority, c.pendingAuthority⟩
      (by simp [pairHandover, hc])
    exact ⟨hok.valid, hlive, hstaged, hbundle, run_initializedAs hl hg hr k c hc, hok.vault, hself,
      hok.pending⟩
  · intro k g hk
    exact (hr.handoverInv (globalHandover k) (globalMove k)
      (by simp [globalHandover, hg.globalConfigAt_none k])
      (fun u hu => global_moves (heff u hu) k)).not_self ⟨g.admin, g.pendingAdmin⟩
      (by simp [globalHandover, hk])
  · rintro before tr after k c rfl hc
    exact authority_handover hl hg hr hc
  · rintro before tr after k g rfl hk
    exact admin_handover hl hg hr hk

/-- On the reference chain the authority changes hands, and the law finds the proposal. -/
theorem governance_invariant_handover :
    ∃ before tr w, RelayerRun referenceEnv (genesis 1000000000) (before ++ [tr]) w ∧
      (before ++ [tr]).map Transition.act = handoverActions ∧
      ∃ c, pairConfigAt w.accounts pairConfigKey = some c ∧ c.authority = cranker ∧
        c.validate = .ok () ∧ c.pendingAuthority ≠ some cranker ∧
        Since (InitializedAs pairConfigKey c) (NotInitialized pairConfigKey) (before ++ [tr]) ∧
        Since (ProposesAuthority pairConfigKey admin cranker) (LeavesAuthority pairConfigKey)
          before := by
  have hend : Ends (fun w => Ends (fun w' =>
      (pairConfigAt w.accounts pairConfigKey).map PairConfig.authority = some admin ∧
      (pairConfigAt w'.accounts pairConfigKey).map PairConfig.authority = some cranker)
      (acceptAuthorityAction.apply referenceEnv.runtime w))
      (executed 1000000000 handoverActions.dropLast) := by decide +kernel
  obtain ⟨ts, w, hr, hacts, hlast⟩ := run_of_executed (by decide +kernel) hend
  obtain ⟨w', happly, hpre, hpost⟩ := hlast.exists_ok
  obtain ⟨c, hc, hauth⟩ := Option.map_eq_some_iff.mp hpre
  obtain ⟨c', hc', hauth'⟩ := Option.map_eq_some_iff.mp hpost
  have hrun : RelayerRun referenceEnv (genesis 1000000000) (ts ++ [⟨w, acceptAuthorityAction, w'⟩])
      w' := hr.snoc ⟨trivial, happly⟩
  obtain ⟨hconfigs, -, hhandover, -⟩ := governance_invariant referenceEnv_lawful (genesis_ok _) hrun
  obtain ⟨hvalid, -, -, -, hinit, -, hself, -⟩ := hconfigs _ _ hc'
  obtain ⟨c₁, hc₁, hlaw⟩ := hhandover ts _ [] _ _ rfl hc
  obtain rfl := Option.some.inj (hc₁.symm.trans hc')
  rw [hauth, hauth'] at hlaw
  rw [hauth'] at hself
  refine ⟨ts, _, w', hrun, ?_, c₁, hc', hauth', hvalid, hself, hinit, ?_⟩
  · rw [List.map_append, hacts]
    rfl
  · rcases hlaw with hsame | ⟨ctx, accs, -, -, -, hsince⟩
    · exact absurd hsame (by decide)
    · exact hsince

end FogoYield.Relayer
