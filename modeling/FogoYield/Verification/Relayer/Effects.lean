import Mathlib.Logic.Relation
import FogoYield.Verification.Relayer.Configure

/-! # What a step does to the relayer's own accounts

Every instruction writes at most one account of the program. `Effect` says which, once for all of
them; the three views of it (configs, flows, the global config) are what invariants are proved
from. -/

namespace FogoYield.Relayer

open FogoYield.Library FogoYield.Solana

/-! ## Parts of an instruction that write nothing -/

/-- The program's accounts, and what they hold, are the same. -/
structure Quiet (w w' : RelayerWorld) : Prop where
  own : ∀ k, (w.accounts k).owner = programId → SameData w.accounts w'.accounts k
  views : ∀ k, programAt programId w'.accounts k = programAt programId w.accounts k
  clock_eq : w'.clock = w.clock

theorem Quiet.refl (w : RelayerWorld) : Quiet w w :=
  ⟨fun _ _ => .of_eq rfl, fun _ => rfl, rfl⟩

theorem Quiet.trans {w w₁ w₂ : RelayerWorld} (h : Quiet w w₁) (h' : Quiet w₁ w₂) : Quiet w w₂ where
  own := by
    intro k hk
    have h₁ := h.own k hk
    have h₂ := h'.own k (h₁.1.trans hk)
    exact ⟨h₂.1.trans h₁.1, h₂.2.trans h₁.2⟩
  views k := (h'.views k).trans (h.views k)
  clock_eq := h'.clock_eq.trans h.clock_eq

theorem ne_programId_of_isTokenProgram {k : Pubkey} (h : IsTokenProgram k) : k ≠ programId := by
  rcases h with rfl | rfl <;> decide

/-- One call of another program. -/
def CallStep (rt : RelayerRuntime) (w w' : RelayerWorld) : Prop :=
  ∃ ix, ix.programId ≠ programId ∧ Called rt ix w w'

/-- Any number of calls of other programs. -/
abbrev Calls (rt : RelayerRuntime) : RelayerWorld → RelayerWorld → Prop :=
  Relation.ReflTransGen (CallStep rt)

theorem Called.calls {rt : RelayerRuntime} {ix : Instruction} {w w' : RelayerWorld}
    (h : Called rt ix w w') (hne : ix.programId ≠ programId) : Calls rt w w' :=
  .single ⟨ix, hne, h⟩

/-- Calls leave the program's own accounts alone. -/
theorem quiet_of_calls {env : Env} (hl : env.Lawful) {w w' : RelayerWorld}
    (h : Calls env.runtime w w') : Quiet w w' := by
  induction h with
  | refl => exact .refl _
  | tail _ hstep ih =>
      obtain ⟨ix, hne, hcall⟩ := hstep
      exact ih.trans ⟨hl.cpi.own hcall.invoked hne, hl.cpi.programAt_eq hcall.invoked hne,
        hcall.clock_eq⟩

theorem Skimmed.calls {rt : RelayerRuntime} {accs : SwapAccounts} {loaded : FlowLoaded}
    {fee : UInt64} {w w' : RelayerWorld} (htp : IsTokenProgram accs.tokenProgram)
    (h : Skimmed rt accs loaded fee w w') : Calls rt w w' := by
  rcases h with ⟨-, rfl⟩ | h
  · exact .refl
  · exact h.calls (ne_programId_of_isTokenProgram htp)

theorem DelegatesPrepared.calls {rt : RelayerRuntime} {accs : SwapAccounts}
    {loaded : FlowLoaded} {swapIn : UInt64} {w w₁ w₂ w₃ : RelayerWorld}
    (htp : IsTokenProgram accs.tokenProgram)
    (h : DelegatesPrepared rt accs loaded swapIn w w₁ w₂ w₃) : Calls rt w w₃ := by
  have hne := ne_programId_of_isTokenProgram htp
  have hrevoke : Calls rt w w₂ := (h.revoke_base.calls hne).trans (h.revoke_asset.calls hne)
  rcases h.approve with rfl | happrove
  · exact hrevoke
  · exact hrevoke.trans (happrove.calls hne)

theorem InputSkimmed.calls {rt : RelayerRuntime} {accs : SwapAccounts} {loaded : FlowLoaded}
    {swapIn fee : UInt64} {w w' : RelayerWorld} (htp : IsTokenProgram accs.tokenProgram)
    (h : InputSkimmed rt accs loaded swapIn fee w w') : Calls rt w w' := by
  have hfee := h.fee
  cases hd : loaded.flow.direction with
  | deposit =>
      simp only [hd] at hfee
      rw [hfee.2]
  | withdraw =>
      simp only [hd] at hfee
      exact hfee.2.calls htp

theorem OutputSkimmed.calls {rt : RelayerRuntime} {accs : SwapAccounts} {loaded : FlowLoaded}
    {out feeBefore netOut fee : UInt64} {w w' : RelayerWorld}
    (htp : IsTokenProgram accs.tokenProgram)
    (h : OutputSkimmed rt accs loaded out feeBefore netOut fee w w') : Calls rt w w' := by
  have hout := h.outcome
  cases hd : loaded.flow.direction with
  | deposit =>
      simp only [hd] at hout
      exact hout.2.2.2.calls htp
  | withdraw =>
      simp only [hd] at hout
      rw [hout.2.2]

/-- Everything a swap does before it writes the flow. -/
theorem SwapSpec.calls {rt : RelayerRuntime} {ctx : Context} {accs : SwapAccounts} {data : Bytes}
    {w w' : RelayerWorld} {loaded : FlowLoaded} {swapIn feeBefore out netOut fee : UInt64}
    {w₁ w₂ w₃ : RelayerWorld}
    (h : SwapSpec rt ctx accs data w w' loaded swapIn feeBefore out netOut fee w₁ w₂ w₃) :
    Calls rt w w₃ := by
  have htp := h.load.token_program
  obtain ⟨_, _, _, _, _, _, _, hm⟩ := h.measured
  have hrouter : Calls rt w₁ w₂ := (hm.prepared.calls htp).trans (hm.router.calls h.router_ne)
  exact ((h.input.calls htp).trans hrouter).trans (h.output.calls htp)

/-- An NTT manager is not the relayer itself. -/
theorem Env.Lawful.ntt_ne_programId {env : Env} (hl : env.Lawful) {p : Pubkey}
    (hp : (env.nttMint p).isSome) : p ≠ programId := by
  obtain ⟨m, hm⟩ := Option.isSome_iff_exists.mp hp
  exact (hl.ntt p m hm).ne_programId

theorem redeemAndRelease_calls {rt : RelayerRuntime} {ctx : Context}
    {accs : ReceiveAccounts} {args : ReceiveArgs} {config : PairConfig} {w w' : RelayerWorld}
    (hp : config.receiveNttProgram args.direction ≠ programId)
    (h : redeemAndRelease rt ctx accs args config w = .ok w') : Calls rt w w' := by
  rcases redeemAndRelease_spec h with ⟨-, rfl⟩ | ⟨-, w₁, hr⟩
  · exact .refl
  · exact (hr.redeem.calls hp).trans (hr.release.calls hp)

/-- Everything a `receive` does between creating the flow account and writing it. -/
theorem ReceiveSpec.calls {rt : RelayerRuntime} {ctx : Context} {accs : ReceiveAccounts}
    {args : ReceiveArgs} {w w' : RelayerWorld} {config : PairConfig} {mint : Mint} {bump : UInt8}
    {w₀ w₁ w₂ : RelayerWorld} {inbox : InboxItem} {held : TokenAccount}
    (hp : config.receiveNttProgram args.direction ≠ programId)
    (h : ReceiveSpec rt ctx accs args w w' config mint bump w₀ w₁ w₂ inbox held) :
    Calls rt w₀ w₂ :=
  (redeemAndRelease_calls hp h.released).trans
    (h.swept.transfer.calls (ne_programId_of_isTokenProgram h.token_program))

theorem BridgedOut.calls {rt : RelayerRuntime} {ctx : Context} {accs : OutboundAccounts}
    {loaded : FlowLoaded} {nttProgram fromAta : Pubkey} {count : UInt8}
    {w w₁ w₂ w₃ : RelayerWorld} (htp : IsTokenProgram accs.tokenProgram)
    (hp : nttProgram ≠ programId)
    (h : BridgedOut rt ctx accs loaded nttProgram fromAta count w w₁ w₂ w₃) : Calls rt w w₃ := by
  have happrove := h.approve.calls (ne_programId_of_isTokenProgram htp)
  exact (happrove.trans (h.lock.calls hp)).trans (h.publish.calls hp)

/-! ## The one account an instruction writes -/

/-- The account at `k` went from `before` to `after`; no other account of the program changed. -/
structure Changed (k : Pubkey) (before after : Option RelayerData) (w w' : RelayerWorld) :
    Prop where
  before_eq : programAt programId w.accounts k = before
  after_eq : programAt programId w'.accounts k = after
  others : ∀ j, j ≠ k → programAt programId w'.accounts j = programAt programId w.accounts j
  clock_eq : w'.clock = w.clock

theorem programAt_writeAccount_self {k : Pubkey} {d : RelayerData} {w : RelayerWorld}
    (h : (w.accounts k).owner = programId) :
    programAt programId (writeAccount k d w).accounts k = some d := by
  simp [programAt_eq_some, writeAccount, World.setAccount, h]

theorem programAt_writeAccount_of_ne {j k : Pubkey} (d : RelayerData) (w : RelayerWorld)
    (h : j ≠ k) : programAt programId (writeAccount k d w).accounts j =
      programAt programId w.accounts j :=
  programAt_congr (by simp [writeAccount, World.setAccount, h])

theorem owner_of_programAt {k : Pubkey} {d : RelayerData} {a : RelayerAccounts}
    (h : programAt programId a k = some d) : (a k).owner = programId :=
  (programAt_eq_some.mp h).1

/-- Writing back an account that was loaded, after a quiet part. -/
theorem Changed.of_write {k : Pubkey} {d d' : RelayerData} {w w' : RelayerWorld}
    (hd : programAt programId w.accounts k = some d) (hq : Quiet w w') :
    Changed k (some d) (some d') w (writeAccount k d' w') where
  before_eq := hd
  after_eq := by
    apply programAt_writeAccount_self
    have hown := owner_of_programAt hd
    exact (hq.own k hown).1.trans hown
  others j hj := (programAt_writeAccount_of_ne d' w' hj).trans (hq.views j)
  clock_eq := hq.clock_eq

/-- Creating an account of the program, a quiet part, and writing it. -/
theorem Changed.of_create {k : Pubkey} {d : RelayerData} {w w₀ w' : RelayerWorld}
    (hc : CreateSpec k programId (.raw []) w w₀) (hq : Quiet w₀ w') :
    Changed k none (some d) w (writeAccount k d w') where
  before_eq := hc.programAt_none
  after_eq := by
    apply programAt_writeAccount_self
    exact (hq.own k hc.owner_eq).1.trans hc.owner_eq
  others j hj :=
    calc programAt programId (writeAccount k d w').accounts j
        = programAt programId w'.accounts j := programAt_writeAccount_of_ne d w' hj
      _ = programAt programId w₀.accounts j := hq.views j
      _ = programAt programId w.accounts j := (hc.others j hj).programAt
  clock_eq := hq.clock_eq.trans hc.clock_eq

/-- Closing a loaded account after a quiet part. -/
theorem Changed.of_close {k dest : Pubkey} {d : RelayerData} {w w' : RelayerWorld}
    (hd : programAt programId w.accounts k = some d) (hq : Quiet w w') :
    Changed k (some d) none w (closeAccount k dest w') where
  before_eq := hd
  after_eq := programAt_closeAccount_self w'
  others j hj := (closeAccount_others w' hj).programAt.trans (hq.views j)
  clock_eq := hq.clock_eq

/-- Creating the relayer's token account leaves every account of the program. -/
theorem quiet_of_createSpec {k tp : Pubkey} {t : TokenAccount} {w w' : RelayerWorld}
    (h : CreateSpec k tp (.token t) w w') : Quiet w w' where
  own j hj := by
    have hne : j ≠ k := by
      rintro rfl
      exact absurd (hj.symm.trans h.was_system) (by decide)
    exact h.others j hne
  views j := h.programAt_eq (by simp) j
  clock_eq := h.clock_eq

/-! ## Effects -/

/-- What a step does, with everything the instruction has checked. -/
inductive Effect (env : Env) (w : RelayerWorld) : Action → RelayerWorld → Prop where
  | bootstrap {ctx accs w' bump w₀} : BootstrapSpec env.runtime ctx accs w w' bump w₀ →
      Changed accs.globalConfig none (some (.globalConfig ⟨accs.admin, bump, none⟩)) w w' →
      Effect env w (.bootstrap ctx accs) w'
  | initializePair {ctx accs args w' g relayerBump bump w₀ w₁ w₂} :
      InitializeSpec env.runtime ctx accs args w w' g relayerBump bump w₀ w₁ w₂ →
      (env.nttMint args.nttBaseProgram).isSome → (env.nttMint args.nttAssetProgram).isSome →
      Changed accs.pairConfig none
        (some (.pairConfig (initialConfig accs args relayerBump bump))) w w' →
      Effect env w (.initializePair ctx accs args) w'
  | setAdmin {ctx accs newAdmin w' g} : SetAdminSpec ctx accs newAdmin w w' g →
      Changed accs.globalConfig (some (.globalConfig g))
        (some (.globalConfig { g with pendingAdmin := some newAdmin })) w w' →
      Effect env w (.setAdmin ctx accs newAdmin) w'
  | acceptAdmin {ctx accs w' g} : AcceptAdminSpec ctx accs w w' g →
      Changed accs.globalConfig (some (.globalConfig g))
        (some (.globalConfig { g with admin := accs.pendingAdmin, pendingAdmin := none })) w w' →
      Effect env w (.acceptAdmin ctx accs) w'
  | configure {ctx accs args w' c c'} : ConfigureSpec env.runtime ctx accs args w w' c c' →
      Changed accs.pairConfig (some (.pairConfig c)) (some (.pairConfig c')) w w' →
      Effect env w (.configure ctx accs args) w'
  | acceptAuthority {ctx accs w' c} : AcceptAuthoritySpec ctx accs w w' c →
      Changed accs.pairConfig (some (.pairConfig c)) (some (.pairConfig
        { c with authority := accs.pendingAuthority, pendingAuthority := none })) w w' →
      Effect env w (.acceptAuthority ctx accs) w'
  | receive {ctx accs args w' config mint bump w₀ w₁ w₂ inbox held} :
      ReceiveSpec env.runtime ctx accs args w w' config mint bump w₀ w₁ w₂ inbox held →
      Changed accs.flow none
        (some (.flow (receivedFlow accs args bump inbox.amount w.clock.slot))) w w' →
      Effect env w (.receive ctx accs args) w'
  | swap {ctx accs data w' loaded swapIn feeBefore out netOut fee w₁ w₂ w₃} :
      SwapSpec env.runtime ctx accs data w w' loaded swapIn feeBefore out netOut fee w₁ w₂ w₃ →
      Changed accs.flow (some (.flow loaded.flow))
        (some (.flow { loaded.flow with amount := netOut, status := .swapped })) w w' →
      Effect env w (.swap ctx accs data) w'
  | send {ctx accs count w' loaded w₁ w₂ w₃} : loaded.flow.status = .swapped →
      OutboundSpec env.runtime ctx accs count w w' loaded
        (loaded.config.sendNttProgram loaded.flow.direction)
        (inOut loaded.flow.direction accs.baseAta accs.assetAta).2
        (.sent accs.flow accs.nttInboxItem loaded.flow.recipient loaded.flow.direction
          loaded.flow.amount) w₁ w₂ w₃ →
      Changed accs.flow (some (.flow loaded.flow)) none w w' →
      Effect env w (.send ctx accs count) w'
  | refund {ctx accs count w' loaded w₁ w₂ w₃} : loaded.flow.status = .received →
      loaded.flow.receivedSlot.toNat + refundTimeoutSlots.toNat ≤ w.clock.slot.toNat →
      OutboundSpec env.runtime ctx accs count w w' loaded
        (loaded.config.receiveNttProgram loaded.flow.direction)
        (inOut loaded.flow.direction accs.baseAta accs.assetAta).1
        (.refunded accs.flow accs.nttInboxItem loaded.flow.recipient loaded.flow.direction
          loaded.flow.amount) w₁ w₂ w₃ →
      Changed accs.flow (some (.flow loaded.flow)) none w w' →
      Effect env w (.refund ctx accs count) w'
  | external {ix w'} : ¬ ix.Signs (relayerAuthority env.runtime) → ix.programId ≠ programId →
      env.runtime.invoke ix w.clock w.accounts = some w'.accounts → Quiet w w' →
      Effect env w (.external ix) w'
  | deposit {account amount t w'} : tokenAt w.accounts account = some t →
      t.amount.toNat + amount.toNat < 2 ^ 64 →
      w'.accounts = setToken w.accounts account { t with amount := t.amount + amount } →
      Quiet w w' → Effect env w (.deposit account amount) w'
  | tick {clock w'} : w.clock.slot ≤ clock.slot → w'.accounts = w.accounts → w'.clock = clock →
      Effect env w (.tick clock) w'

/-- The NTT programs of every config are managers: `initialize` pinned them. -/
def Pinned (env : Env) (w : RelayerWorld) : Prop :=
  ∀ k c, pairConfigAt w.accounts k = some c →
    (env.nttMint c.nttBaseProgram).isSome ∧ (env.nttMint c.nttAssetProgram).isSome

theorem Pinned.receiveNttProgram {env : Env} {w : RelayerWorld} (h : Pinned env w) {k : Pubkey}
    {c : PairConfig} (hc : pairConfigAt w.accounts k = some c) (d : Direction) :
    (env.nttMint (c.receiveNttProgram d)).isSome := by
  cases d with
  | deposit => exact (h k c hc).1
  | withdraw => exact (h k c hc).2

theorem Pinned.sendNttProgram {env : Env} {w : RelayerWorld} (h : Pinned env w) {k : Pubkey}
    {c : PairConfig} (hc : pairConfigAt w.accounts k = some c) (d : Direction) :
    (env.nttMint (c.sendNttProgram d)).isSome := by
  cases d with
  | deposit => exact (h k c hc).2
  | withdraw => exact (h k c hc).1

theorem programAt_of_pairConfigAt {a : RelayerAccounts} {k : Pubkey} {c : PairConfig}
    (h : pairConfigAt a k = some c) : programAt programId a k = some (.pairConfig c) := by
  obtain ⟨d, hd, hv⟩ := Option.bind_eq_some_iff.mp h
  cases d <;> simp_all [RelayerData.asPairConfig]

theorem programAt_of_flowAt {a : RelayerAccounts} {k : Pubkey} {f : Flow}
    (h : flowAt a k = some f) : programAt programId a k = some (.flow f) := by
  obtain ⟨d, hd, hv⟩ := Option.bind_eq_some_iff.mp h
  cases d <;> simp_all [RelayerData.asFlow]

theorem programAt_of_globalConfigAt {a : RelayerAccounts} {k : Pubkey} {g : GlobalConfig}
    (h : globalConfigAt a k = some g) : programAt programId a k = some (.globalConfig g) := by
  obtain ⟨d, hd, hv⟩ := Option.bind_eq_some_iff.mp h
  cases d <;> simp_all [RelayerData.asGlobalConfig]

/-! ## Every step has its effect -/

theorem receive_effect {env : Env} (hl : env.Lawful) {w w' : RelayerWorld} (hp : Pinned env w)
    {ctx : Context} {accs : ReceiveAccounts} {args : ReceiveArgs}
    (h : receive env.runtime ctx accs args w = .ok w') :
    Effect env w (.receive ctx accs args) w' := by
  obtain ⟨config, mint, bump, w₀, w₁, w₂, inbox, held, hs⟩ := receive_spec h
  have hntt := hl.ntt_ne_programId (hp.receiveNttProgram hs.config_at args.direction)
  have hq := quiet_of_calls hl (hs.calls hntt)
  refine .receive hs ?_
  have hslot : w₂.clock.slot = w.clock.slot := by rw [hq.clock_eq, hs.created.clock_eq]
  have hc := Changed.of_create (d := .flow (receivedFlow accs args bump inbox.amount
    w₂.clock.slot)) hs.created hq
  rw [hs.result]
  rw [hslot] at hc ⊢
  exact ⟨hc.before_eq, hc.after_eq, hc.others, hc.clock_eq⟩

theorem swap_effect {env : Env} (hl : env.Lawful) {w w' : RelayerWorld}
    {ctx : Context} {accs : SwapAccounts} {data : Bytes}
    (h : swap env.runtime ctx accs data w = .ok w') : Effect env w (.swap ctx accs data) w' := by
  obtain ⟨loaded, swapIn, feeBefore, out, netOut, fee, w₁, w₂, w₃, hs⟩ := swap_spec h
  have hq := quiet_of_calls hl hs.calls
  refine .swap hs ?_
  obtain ⟨hbefore, hafter, hothers, hclock⟩ :=
    Changed.of_write (programAt_of_flowAt hs.load.flow_at) hq
  rw [hs.result]
  exact ⟨hbefore, hafter, hothers, hclock⟩

theorem OutboundSpec.changed {env : Env} (hl : env.Lawful) {w w' : RelayerWorld} {ctx : Context}
    {accs : OutboundAccounts} {count : UInt8} {loaded : FlowLoaded} {nttProgram fromAta : Pubkey}
    {event : Event} {w₁ w₂ w₃ : RelayerWorld} (hp : (env.nttMint nttProgram).isSome)
    (h : OutboundSpec env.runtime ctx accs count w w' loaded nttProgram fromAta event w₁ w₂ w₃) :
    Changed accs.flow (some (.flow loaded.flow)) none w w' := by
  have hq := quiet_of_calls hl (h.bridged.calls h.load.token_program (hl.ntt_ne_programId hp))
  have hemit : Quiet w (w₃.emit event) := ⟨hq.own, hq.views, hq.clock_eq⟩
  rw [h.result]
  exact Changed.of_close (programAt_of_flowAt h.load.flow_at) hemit

theorem initializePair_effect {env : Env} {w w' : RelayerWorld} {ctx : Context}
    {accs : InitializeAccounts} {args : InitializeArgs}
    (ht : (Action.initializePair ctx accs args).Trusted env)
    (h : initializePair env.runtime ctx accs args w = .ok w') :
    Effect env w (.initializePair ctx accs args) w' := by
  obtain ⟨g, relayerBump, bump, w₀, w₁, w₂, hs⟩ := initializePair_spec h
  refine .initializePair hs ht.1 ht.2 ?_
  rw [hs.result]
  have hquiet := (quiet_of_createSpec hs.base_created).trans (quiet_of_createSpec hs.asset_created)
  exact Changed.of_create hs.created hquiet

theorem governance_effect {env : Env} {w w' : RelayerWorld} {act : Action}
    (hact : match act with
      | .bootstrap .. | .setAdmin .. | .acceptAdmin .. | .configure .. | .acceptAuthority .. => True
      | _ => False)
    (h : act.apply env.runtime w = .ok w') : Effect env w act w' := by
  cases act with
  | bootstrap ctx accs =>
      obtain ⟨bump, w₀, hs⟩ := bootstrap_spec h
      refine .bootstrap hs ?_
      rw [hs.result]
      exact Changed.of_create hs.created (.refl _)
  | setAdmin ctx accs newAdmin =>
      obtain ⟨g, hs⟩ := setAdmin_spec h
      refine .setAdmin hs ?_
      rw [hs.result]
      exact Changed.of_write (programAt_of_globalConfigAt hs.config_at) (.refl _)
  | acceptAdmin ctx accs =>
      obtain ⟨g, hs⟩ := acceptAdmin_spec h
      refine .acceptAdmin hs ?_
      rw [hs.result]
      exact Changed.of_write (programAt_of_globalConfigAt hs.config_at) (.refl _)
  | configure ctx accs args =>
      obtain ⟨c, c', hs⟩ := configure_spec h
      refine .configure hs ?_
      rw [hs.result]
      exact Changed.of_write (programAt_of_pairConfigAt hs.config_at) (.refl _)
  | acceptAuthority ctx accs =>
      obtain ⟨c, hs⟩ := acceptAuthority_spec h
      refine .acceptAuthority hs ?_
      rw [hs.result]
      exact Changed.of_write (programAt_of_pairConfigAt hs.config_at) (.refl _)
  | _ => exact hact.elim

theorem external_effect {env : Env} (hl : env.Lawful) {w w' : RelayerWorld} {ix : Instruction}
    (h : runExternal env.runtime ix w = .ok w') : Effect env w (.external ix) w' := by
  unfold runExternal at h
  split at h
  · cases h
  · rename_i hallowed
    obtain ⟨hsigns, hne⟩ := not_or.mp hallowed
    split at h
    · rename_i a ha
      obtain rfl := Except.ok.inj h
      exact .external hsigns hne ha
        ⟨hl.cpi.own ha hne, hl.cpi.programAt_eq ha hne, rfl⟩
    · cases h

theorem deposit_effect {env : Env} {w w' : RelayerWorld} {account : Pubkey} {amount : UInt64}
    (h : runDeposit account amount w = .ok w') : Effect env w (.deposit account amount) w' := by
  simp only [runDeposit, bind_eq_ok, loadToken_eq_ok] at h
  obtain ⟨t, ht, h⟩ := h
  split at h
  · rename_i hroom
    obtain rfl := pure_eq_ok.mp h
    obtain ⟨htp, hdata⟩ := tokenAt_eq_some.mp ht
    have hother : ∀ k, k ≠ account → setToken w.accounts account
        { t with amount := t.amount + amount } k = w.accounts k :=
      fun k hk => setToken_of_ne _ _ hk
    refine .deposit ht hroom rfl ⟨?_, ?_, rfl⟩
    · intro k hk
      have hne : k ≠ account := by
        rintro rfl
        exact ne_programId_of_isTokenProgram htp hk
      exact .of_eq (hother k hne)
    · intro k
      by_cases hk : k = account
      · subst hk
        simp [programAt, hdata]
      · exact programAt_congr (hother k hk)
  · cases h

theorem Step.effect {env : Env} (hl : env.Lawful) {w w' : RelayerWorld} {act : Action}
    (hp : Pinned env w) (h : Step env w act w') : Effect env w act w' := by
  obtain ⟨ht, h⟩ := h
  cases act with
  | initializePair ctx accs args => exact initializePair_effect ht h
  | receive ctx accs args => exact receive_effect hl hp h
  | swap ctx accs data => exact swap_effect hl h
  | send ctx accs count =>
      obtain ⟨loaded, w₁, w₂, w₃, hstatus, hs⟩ := send_spec h
      exact .send hstatus hs (hs.changed hl (hp.sendNttProgram hs.load.config_at _))
  | refund ctx accs count =>
      obtain ⟨loaded, w₁, w₂, w₃, hstatus, hslot, hs⟩ := refund_spec h
      exact .refund hstatus hslot hs (hs.changed hl (hp.receiveNttProgram hs.load.config_at _))
  | external ix => exact external_effect hl h
  | deposit account amount => exact deposit_effect h
  | tick clock =>
      simp only [Action.apply, runTick] at h
      split at h
      · rename_i hclock
        obtain rfl := Except.ok.inj h
        exact .tick hclock.1 rfl rfl
      · cases h
  | _ => exact governance_effect trivial h

theorem Effect.slot_le {env : Env} {w w' : RelayerWorld} {act : Action}
    (h : Effect env w act w') : w.clock.slot ≤ w'.clock.slot := by
  cases h with
  | tick hle _ hclock =>
      rw [hclock]
      exact hle
  | external _ _ _ hq | deposit _ _ _ hq =>
      rw [hq.clock_eq]
      exact UInt64.le_refl _
  | bootstrap _ hc | initializePair _ _ _ hc | setAdmin _ hc | acceptAdmin _ hc | configure _ hc
  | acceptAuthority _ hc | receive _ hc | swap _ hc | send _ _ hc | refund _ _ _ hc =>
      rw [hc.clock_eq]
      exact UInt64.le_refl _

/-! ## Effects by account type -/

/-- The pair config an instruction writes. -/
def Action.pairKey : Action → Option Pubkey
  | .initializePair _ accs _ => some accs.pairConfig
  | .configure _ accs _ => some accs.pairConfig
  | .acceptAuthority _ accs => some accs.pairConfig
  | _ => none

/-- The flow an instruction writes or closes. -/
def Action.flowKey : Action → Option Pubkey
  | .receive _ accs _ => some accs.flow
  | .swap _ accs _ => some accs.flow
  | .send _ accs _ => some accs.flow
  | .refund _ accs _ => some accs.flow
  | _ => none

def Action.globalKey : Action → Option Pubkey
  | .bootstrap _ accs => some accs.globalConfig
  | .setAdmin _ accs _ => some accs.globalConfig
  | .acceptAdmin _ accs => some accs.globalConfig
  | _ => none

/-- A view that the change does not show in is the same everywhere. -/
theorem Changed.view_eq {α : Type} {view : RelayerData → Option α} {k : Pubkey}
    {before after : Option RelayerData} {w w' : RelayerWorld} (h : Changed k before after w w')
    (heq : after.bind view = before.bind view) (j : Pubkey) :
    (programAt programId w'.accounts j).bind view =
      (programAt programId w.accounts j).bind view := by
  by_cases hj : j = k
  · rw [hj, h.after_eq, h.before_eq, heq]
  · rw [h.others j hj]

theorem Changed.view_of_ne {α : Type} {view : RelayerData → Option α} {j k : Pubkey}
    {before after : Option RelayerData} {w w' : RelayerWorld} (h : Changed k before after w w')
    (hj : j ≠ k) : (programAt programId w'.accounts j).bind view =
      (programAt programId w.accounts j).bind view := by
  rw [h.others j hj]

/-- What a step does to the pair config at `k`. -/
inductive PairStep (env : Env) (k : Pubkey) (w : RelayerWorld) : Action → RelayerWorld → Prop where
  | kept {act w'} : act.pairKey ≠ some k →
      pairConfigAt w'.accounts k = pairConfigAt w.accounts k → PairStep env k w act w'
  | initialized {ctx accs args w' g relayerBump bump w₀ w₁ w₂} : accs.pairConfig = k →
      InitializeSpec env.runtime ctx accs args w w' g relayerBump bump w₀ w₁ w₂ →
      (env.nttMint args.nttBaseProgram).isSome → (env.nttMint args.nttAssetProgram).isSome →
      pairConfigAt w.accounts k = none →
      pairConfigAt w'.accounts k = some (initialConfig accs args relayerBump bump) →
      PairStep env k w (.initializePair ctx accs args) w'
  | configured {ctx accs args w' c c'} : accs.pairConfig = k →
      ConfigureSpec env.runtime ctx accs args w w' c c' →
      pairConfigAt w.accounts k = some c → pairConfigAt w'.accounts k = some c' →
      PairStep env k w (.configure ctx accs args) w'
  | accepted {ctx accs w' c} : accs.pairConfig = k → AcceptAuthoritySpec ctx accs w w' c →
      pairConfigAt w.accounts k = some c → pairConfigAt w'.accounts k = some
        { c with authority := accs.pendingAuthority, pendingAuthority := none } →
      PairStep env k w (.acceptAuthority ctx accs) w'

theorem Effect.pairStep {env : Env} {w w' : RelayerWorld} {act : Action}
    (h : Effect env w act w') (k : Pubkey) : PairStep env k w act w' := by
  cases h with
  | @initializePair ctx accs args _ g rb b w₀ w₁ w₂ hs hb ha hc =>
      by_cases hk : accs.pairConfig = k
      · subst hk
        refine .initialized rfl hs hb ha ?_ ?_
        · simp [pairConfigAt, hc.before_eq]
        · simp [pairConfigAt, hc.after_eq, RelayerData.asPairConfig]
      · exact .kept (by simpa [Action.pairKey] using hk) (hc.view_of_ne (Ne.symm hk))
  | @configure ctx accs args _ c c' hs hc =>
      by_cases hk : accs.pairConfig = k
      · subst hk
        refine .configured rfl hs hs.config_at ?_
        simp [pairConfigAt, hc.after_eq, RelayerData.asPairConfig]
      · exact .kept (by simpa [Action.pairKey] using hk) (hc.view_of_ne (Ne.symm hk))
  | @acceptAuthority ctx accs _ c hs hc =>
      by_cases hk : accs.pairConfig = k
      · subst hk
        refine .accepted rfl hs hs.config_at ?_
        simp [pairConfigAt, hc.after_eq, RelayerData.asPairConfig]
      · exact .kept (by simpa [Action.pairKey] using hk) (hc.view_of_ne (Ne.symm hk))
  | tick _ ha _ => exact .kept (by simp [Action.pairKey]) (by rw [ha])
  | external _ _ _ hq | deposit _ _ _ hq =>
      exact .kept (by simp [Action.pairKey]) (congrArg (Option.bind · _) (hq.views k))
  | bootstrap _ hc | setAdmin _ hc | acceptAdmin _ hc | receive _ hc | swap _ hc | send _ _ hc
  | refund _ _ _ hc =>
      exact .kept (by simp [Action.pairKey]) (hc.view_eq (by simp [RelayerData.asPairConfig]) k)

/-- What a step does to the flow at `k`. -/
inductive FlowStep (env : Env) (k : Pubkey) (w : RelayerWorld) : Action → RelayerWorld → Prop where
  | kept {act w'} : act.flowKey ≠ some k →
      flowAt w'.accounts k = flowAt w.accounts k → FlowStep env k w act w'
  | received {ctx accs args w' config mint bump w₀ w₁ w₂ inbox held} : accs.flow = k →
      ReceiveSpec env.runtime ctx accs args w w' config mint bump w₀ w₁ w₂ inbox held →
      flowAt w.accounts k = none →
      flowAt w'.accounts k = some (receivedFlow accs args bump inbox.amount w.clock.slot) →
      FlowStep env k w (.receive ctx accs args) w'
  | swapped {ctx accs data w' loaded swapIn feeBefore out netOut fee w₁ w₂ w₃} : accs.flow = k →
      SwapSpec env.runtime ctx accs data w w' loaded swapIn feeBefore out netOut fee w₁ w₂ w₃ →
      flowAt w.accounts k = some loaded.flow →
      flowAt w'.accounts k = some { loaded.flow with amount := netOut, status := .swapped } →
      FlowStep env k w (.swap ctx accs data) w'
  | sent {ctx accs count w' loaded w₁ w₂ w₃} : accs.flow = k → loaded.flow.status = .swapped →
      OutboundSpec env.runtime ctx accs count w w' loaded
        (loaded.config.sendNttProgram loaded.flow.direction)
        (inOut loaded.flow.direction accs.baseAta accs.assetAta).2
        (.sent accs.flow accs.nttInboxItem loaded.flow.recipient loaded.flow.direction
          loaded.flow.amount) w₁ w₂ w₃ →
      flowAt w.accounts k = some loaded.flow → flowAt w'.accounts k = none →
      FlowStep env k w (.send ctx accs count) w'
  | refunded {ctx accs count w' loaded w₁ w₂ w₃} : accs.flow = k →
      loaded.flow.status = .received →
      loaded.flow.receivedSlot.toNat + refundTimeoutSlots.toNat ≤ w.clock.slot.toNat →
      OutboundSpec env.runtime ctx accs count w w' loaded
        (loaded.config.receiveNttProgram loaded.flow.direction)
        (inOut loaded.flow.direction accs.baseAta accs.assetAta).1
        (.refunded accs.flow accs.nttInboxItem loaded.flow.recipient loaded.flow.direction
          loaded.flow.amount) w₁ w₂ w₃ →
      flowAt w.accounts k = some loaded.flow → flowAt w'.accounts k = none →
      FlowStep env k w (.refund ctx accs count) w'

theorem Effect.flowStep {env : Env} {w w' : RelayerWorld} {act : Action}
    (h : Effect env w act w') (k : Pubkey) : FlowStep env k w act w' := by
  cases h with
  | @receive ctx accs args _ config mint bump w₀ w₁ w₂ inbox held hs hc =>
      by_cases hk : accs.flow = k
      · subst hk
        refine .received rfl hs ?_ ?_
        · simp [flowAt, hc.before_eq]
        · simp [flowAt, hc.after_eq, RelayerData.asFlow]
      · exact .kept (by simpa [Action.flowKey] using hk) (hc.view_of_ne (Ne.symm hk))
  | @swap ctx accs data _ loaded swapIn feeBefore out netOut fee w₁ w₂ w₃ hs hc =>
      by_cases hk : accs.flow = k
      · subst hk
        refine .swapped rfl hs hs.load.flow_at ?_
        simp [flowAt, hc.after_eq, RelayerData.asFlow]
      · exact .kept (by simpa [Action.flowKey] using hk) (hc.view_of_ne (Ne.symm hk))
  | @send ctx accs count _ loaded w₁ w₂ w₃ hstatus hs hc =>
      by_cases hk : accs.flow = k
      · subst hk
        refine .sent rfl hstatus hs hs.load.flow_at ?_
        simp [flowAt, hc.after_eq]
      · exact .kept (by simpa [Action.flowKey] using hk) (hc.view_of_ne (Ne.symm hk))
  | @refund ctx accs count _ loaded w₁ w₂ w₃ hstatus hslot hs hc =>
      by_cases hk : accs.flow = k
      · subst hk
        refine .refunded rfl hstatus hslot hs hs.load.flow_at ?_
        simp [flowAt, hc.after_eq]
      · exact .kept (by simpa [Action.flowKey] using hk) (hc.view_of_ne (Ne.symm hk))
  | tick _ ha _ => exact .kept (by simp [Action.flowKey]) (by rw [ha])
  | external _ _ _ hq | deposit _ _ _ hq =>
      exact .kept (by simp [Action.flowKey]) (congrArg (Option.bind · _) (hq.views k))
  | bootstrap _ hc | initializePair _ _ _ hc | setAdmin _ hc | acceptAdmin _ hc | configure _ hc
  | acceptAuthority _ hc =>
      exact .kept (by simp [Action.flowKey]) (hc.view_eq (by simp [RelayerData.asFlow]) k)

/-- What a step does to the global config at `k`. -/
inductive GlobalStep (env : Env) (k : Pubkey) (w : RelayerWorld) :
    Action → RelayerWorld → Prop where
  | kept {act w'} : act.globalKey ≠ some k →
      globalConfigAt w'.accounts k = globalConfigAt w.accounts k → GlobalStep env k w act w'
  | bootstrapped {ctx accs w' bump w₀} : accs.globalConfig = k →
      BootstrapSpec env.runtime ctx accs w w' bump w₀ → globalConfigAt w.accounts k = none →
      globalConfigAt w'.accounts k = some ⟨accs.admin, bump, none⟩ →
      GlobalStep env k w (.bootstrap ctx accs) w'
  | proposed {ctx accs newAdmin w' g} : accs.globalConfig = k →
      SetAdminSpec ctx accs newAdmin w w' g → globalConfigAt w.accounts k = some g →
      globalConfigAt w'.accounts k = some { g with pendingAdmin := some newAdmin } →
      GlobalStep env k w (.setAdmin ctx accs newAdmin) w'
  | accepted {ctx accs w' g} : accs.globalConfig = k → AcceptAdminSpec ctx accs w w' g →
      globalConfigAt w.accounts k = some g →
      globalConfigAt w'.accounts k =
        some { g with admin := accs.pendingAdmin, pendingAdmin := none } →
      GlobalStep env k w (.acceptAdmin ctx accs) w'

theorem Effect.globalStep {env : Env} {w w' : RelayerWorld} {act : Action}
    (h : Effect env w act w') (k : Pubkey) : GlobalStep env k w act w' := by
  cases h with
  | @bootstrap ctx accs _ bump w₀ hs hc =>
      by_cases hk : accs.globalConfig = k
      · subst hk
        refine .bootstrapped rfl hs ?_ ?_
        · simp [globalConfigAt, hc.before_eq]
        · simp [globalConfigAt, hc.after_eq, RelayerData.asGlobalConfig]
      · exact .kept (by simpa [Action.globalKey] using hk) (hc.view_of_ne (Ne.symm hk))
  | @setAdmin ctx accs newAdmin _ g hs hc =>
      by_cases hk : accs.globalConfig = k
      · subst hk
        refine .proposed rfl hs hs.config_at ?_
        simp [globalConfigAt, hc.after_eq, RelayerData.asGlobalConfig]
      · exact .kept (by simpa [Action.globalKey] using hk) (hc.view_of_ne (Ne.symm hk))
  | @acceptAdmin ctx accs _ g hs hc =>
      by_cases hk : accs.globalConfig = k
      · subst hk
        refine .accepted rfl hs hs.config_at ?_
        simp [globalConfigAt, hc.after_eq, RelayerData.asGlobalConfig]
      · exact .kept (by simpa [Action.globalKey] using hk) (hc.view_of_ne (Ne.symm hk))
  | tick _ ha _ => exact .kept (by simp [Action.globalKey]) (by rw [ha])
  | external _ _ _ hq | deposit _ _ _ hq =>
      exact .kept (by simp [Action.globalKey]) (congrArg (Option.bind · _) (hq.views k))
  | initializePair _ _ _ hc | configure _ hc | acceptAuthority _ hc | receive _ hc | swap _ hc
  | send _ _ hc | refund _ _ _ hc =>
      exact .kept (by simp [Action.globalKey])
        (hc.view_eq (by simp [RelayerData.asGlobalConfig]) k)

/-! ## Along a run -/

theorem Effect.pinned {env : Env} {w w' : RelayerWorld} {act : Action}
    (h : Effect env w act w') (hp : Pinned env w) : Pinned env w' := by
  intro k c hc
  cases h.pairStep k with
  | kept _ heq => exact hp k c (heq ▸ hc)
  | initialized _ _ hb ha _ hafter =>
      obtain rfl := Option.some.inj (hafter.symm.trans hc)
      exact ⟨hb, ha⟩
  | configured _ hs hbefore hafter =>
      obtain rfl := Option.some.inj (hafter.symm.trans hc)
      have hsame := (configure_fields hs.handled).statics
      rw [hsame.nttBaseProgram, hsame.nttAssetProgram]
      exact hp k _ hbefore
  | accepted _ _ hbefore hafter =>
      obtain rfl := Option.some.inj (hafter.symm.trans hc)
      have hpin := hp k _ hbefore
      exact hpin

/-- A pair config is never closed, and its static fields stay. -/
theorem Effect.pair_kept {env : Env} {w w' : RelayerWorld} {act : Action} {k : Pubkey}
    {c : PairConfig} (h : Effect env w act w') (hc : pairConfigAt w.accounts k = some c) :
    ∃ c', pairConfigAt w'.accounts k = some c' ∧ SameStatics c c' := by
  cases h.pairStep k with
  | kept _ heq => exact ⟨c, heq.trans hc, .refl c⟩
  | initialized _ _ _ _ hbefore _ => simp [hbefore] at hc
  | configured _ hs hbefore hafter =>
      obtain rfl := Option.some.inj (hbefore.symm.trans hc)
      exact ⟨_, hafter, (configure_fields hs.handled).statics⟩
  | accepted _ _ hbefore hafter =>
      obtain rfl := Option.some.inj (hbefore.symm.trans hc)
      exact ⟨_, hafter, rfl, rfl, rfl, rfl, rfl, rfl, rfl⟩

theorem Genesis.programAt_none {env : Env} {w : RelayerWorld} (h : Genesis env w) (k : Pubkey) :
    programAt programId w.accounts k = none := by
  simp [programAt, h.no_account k]

theorem Genesis.pairConfigAt_none {env : Env} {w : RelayerWorld} (h : Genesis env w)
    (k : Pubkey) : pairConfigAt w.accounts k = none := by
  simp [pairConfigAt, h.programAt_none k]

theorem Genesis.globalConfigAt_none {env : Env} {w : RelayerWorld} (h : Genesis env w)
    (k : Pubkey) : globalConfigAt w.accounts k = none := by
  simp [globalConfigAt, h.programAt_none k]

theorem Genesis.flowAt_none {env : Env} {w : RelayerWorld} (h : Genesis env w) (k : Pubkey) :
    flowAt w.accounts k = none := by
  simp [flowAt, h.programAt_none k]

theorem Genesis.pinned {env : Env} {w : RelayerWorld} (h : Genesis env w) : Pinned env w := by
  intro k c hc
  simp [h.pairConfigAt_none k] at hc

/-- Every state of a run is `Pinned`, and every step of it has its effect. -/
theorem run_effects {env : Env} (hl : env.Lawful) {w₀ w : RelayerWorld}
    {ts : List RelayerTransition} (hp : Pinned env w₀) (hr : RelayerRun env w₀ ts w) :
    Pinned env w ∧ ∀ tr ∈ ts, Effect env tr.pre tr.act tr.post := by
  induction hr with
  | nil => exact ⟨hp, by simp⟩
  | snoc _ hstep ih =>
      have he := hstep.effect hl ih.1
      refine ⟨he.pinned ih.1, ?_⟩
      intro tr htr
      rcases List.mem_append.mp htr with htr | htr
      · exact ih.2 tr htr
      · rw [List.mem_singleton.mp htr]
        exact he

end FogoYield.Relayer
