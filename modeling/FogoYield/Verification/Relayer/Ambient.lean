import FogoYield.Verification.Relayer.Effects

/-! # What no step can undo

Mints stay, associated token addresses keep their identity and NTT inbox items only advance,
whatever instruction runs. -/

namespace FogoYield.Relayer

open FogoYield.Library FogoYield.Solana

/-- The facts about the rest of the chain that survive from `a` to `a'`. -/
structure Ambient (env : Env) (a a' : RelayerAccounts) : Prop where
  mint : ∀ k m, mintAt a k = some m → mintAt a' k = some m ∧ (a' k).owner = (a k).owner
  ata : AtaWellFormed env.runtime a → AtaWellFormed env.runtime a'
  item : ∀ p, (env.nttMint p).isSome → ∀ k i, inboxItemAt p a k = some i →
    ∃ j, inboxItemAt p a' k = some j ∧ i.Evolves j

theorem Ambient.refl (env : Env) (a : RelayerAccounts) : Ambient env a a :=
  ⟨fun _ _ h => ⟨h, rfl⟩, id, fun _ _ _ i h => ⟨i, h, .refl i⟩⟩

theorem Ambient.trans {env : Env} {a a' a'' : RelayerAccounts} (h : Ambient env a a')
    (h' : Ambient env a' a'') : Ambient env a a'' where
  mint k m hm := by
    obtain ⟨hm', ho⟩ := h.mint k m hm
    obtain ⟨hm'', ho'⟩ := h'.mint k m hm'
    exact ⟨hm'', ho'.trans ho⟩
  ata hw := h'.ata (h.ata hw)
  item p hp k i hi := by
    obtain ⟨j, hj, hij⟩ := h.item p hp k i hi
    obtain ⟨j', hj', hjj⟩ := h'.item p hp k j hj
    exact ⟨j', hj', hij.trans hjj⟩

theorem Env.Lawful.nttLaws {env : Env} (hl : env.Lawful) {p : Pubkey}
    (hp : (env.nttMint p).isSome) : NttLaws env.runtime (env.limiter p) p := by
  obtain ⟨m, hm⟩ := Option.isSome_iff_exists.mp hp
  exact hl.ntt p m hm

theorem ambient_of_invoke {env : Env} (hl : env.Lawful) {ix : Instruction} {clock : Clock}
    {a a' : RelayerAccounts} (h : env.runtime.invoke ix clock a = some a') : Ambient env a a' :=
  ⟨hl.cpi.mint h, hl.cpi.ata h, fun _ hp => (hl.nttLaws hp).item h⟩

theorem ambient_of_calls {env : Env} (hl : env.Lawful) {w w' : RelayerWorld}
    (h : Calls env.runtime w w') : Ambient env w.accounts w'.accounts := by
  induction h with
  | refl => exact .refl env _
  | tail _ hstep ih =>
      obtain ⟨ix, -, hcall⟩ := hstep
      exact ih.trans (ambient_of_invoke hl hcall.invoked)

/-! ## Writing one account -/

theorem mintAt_ne_of_owner {a : RelayerAccounts} {k j : Pubkey} (ho : ¬ IsTokenProgram (a k).owner)
    (hj : IsTokenProgram (a j).owner) : j ≠ k := by
  rintro rfl
  exact ho hj

/-- Rewriting the account at `k`, which held neither a mint, a token account nor an inbox item,
keeps the rest; a token account that appears there has to fit the address. -/
theorem ambient_of_others {env : Env} (hl : env.Lawful) {a a' : RelayerAccounts} {k : Pubkey}
    (hothers : ∀ j, j ≠ k → SameData a a' j)
    (howner : (a k).owner = systemProgram ∨ (a k).owner = programId)
    (hnew : ∀ wallet mint tp t, env.runtime.ata wallet mint tp = k → tokenAt a' k = some t →
      (a' k).owner = tp ∧ t.mint = mint ∧ (a mint).owner = tp) : Ambient env a a' := by
  have hntp : ¬ IsTokenProgram (a k).owner := by
    intro h
    rcases howner with ho | ho
    · exact h.ne_systemProgram ho
    · exact ne_programId_of_isTokenProgram h ho
  have hne : ∀ j, IsTokenProgram (a j).owner → SameData a a' j :=
    fun j hj => hothers j (mintAt_ne_of_owner hntp hj)
  refine ⟨?_, ?_, ?_⟩
  · intro j m hm
    have hsame := hne j (mintAt_eq_some.mp hm).1
    exact ⟨hsame.mintAt.trans hm, hsame.1⟩
  · intro hw wallet mint tp t ht
    by_cases hk : env.runtime.ata wallet mint tp = k
    · rw [hk] at ht ⊢
      obtain ⟨ho, hm, hmo⟩ := hnew wallet mint tp t hk ht
      have htp : IsTokenProgram (a mint).owner := by
        rw [hmo, ← ho]
        exact (tokenAt_eq_some.mp ht).1
      exact ⟨ho, hm, (hne mint htp).1.trans hmo⟩
    · have hsame := hothers _ hk
      rw [hsame.tokenAt] at ht
      obtain ⟨ho, hm, hmo⟩ := hw wallet mint tp t ht
      have htp : IsTokenProgram (a mint).owner := by
        rw [hmo, ← ho]
        exact (tokenAt_eq_some.mp ht).1
      exact ⟨hsame.1.trans ho, hm, (hne mint htp).1.trans hmo⟩
  · intro p hp j i hi
    have hj : j ≠ k := by
      rintro rfl
      have ho := (inboxItemAt_eq_some.mp hi).1
      rcases howner with h | h
      · exact (hl.nttLaws hp).ne_system (ho.symm.trans h)
      · exact (hl.nttLaws hp).ne_programId (ho.symm.trans h)
    exact ⟨i, (inboxItemAt_of_sameData (hothers j hj)).trans hi, .refl i⟩

theorem ambient_of_create {env : Env} (hl : env.Lawful) {k : Pubkey} {w w' : RelayerWorld}
    (h : CreateSpec k programId (.raw []) w w') : Ambient env w.accounts w'.accounts := by
  refine ambient_of_others hl h.others (.inl h.was_system) ?_
  intro _ _ _ t _ ht
  have hdata := (tokenAt_eq_some.mp ht).2
  rw [h.data_eq] at hdata
  cases hdata

theorem ambient_of_createToken {env : Env} (hl : env.Lawful) {k tp mint authority : Pubkey}
    {amount delegated : UInt64} {delegate close : Option Pubkey} {w w' : RelayerWorld}
    (hk : env.runtime.ata authority mint tp = k) (hm : (w.accounts mint).owner = tp)
    (h : CreateSpec k tp (.token ⟨mint, authority, amount, delegate, delegated, close⟩) w w') :
    Ambient env w.accounts w'.accounts := by
  refine ambient_of_others hl h.others (.inl h.was_system) ?_
  intro wallet mint' tp' t hk' ht
  obtain ⟨-, rfl, rfl⟩ := hl.address.ata_inj (hk'.trans hk.symm)
  have hdata := (tokenAt_eq_some.mp ht).2
  rw [h.data_eq] at hdata
  obtain rfl := Data.token.inj hdata
  exact ⟨h.owner_eq, rfl, hm⟩

theorem ambient_of_write {env : Env} (hl : env.Lawful) {k : Pubkey} {d : RelayerData}
    {w : RelayerWorld} (ho : (w.accounts k).owner = programId) :
    Ambient env w.accounts (writeAccount k d w).accounts := by
  refine ambient_of_others hl ?_ (.inr ho) ?_
  · intro j hj
    exact .of_eq (by simp [writeAccount, World.setAccount, hj])
  · intro _ _ _ t _ ht
    have hdata := (tokenAt_eq_some.mp ht).2
    simp [writeAccount, World.setAccount] at hdata

theorem ambient_of_close {env : Env} (hl : env.Lawful) {k dest : Pubkey} {w : RelayerWorld}
    (ho : (w.accounts k).owner = programId) :
    Ambient env w.accounts (closeAccount k dest w).accounts := by
  refine ambient_of_others hl (fun j hj => closeAccount_others w hj) (.inr ho) ?_
  intro _ _ _ t _ ht
  have hdata := (tokenAt_eq_some.mp ht).2
  rw [closeAccount_self_data] at hdata
  cases hdata

theorem ambient_of_setToken {env : Env} (hl : env.Lawful) {a : RelayerAccounts} {k : Pubkey}
    {t t' : TokenAccount} (ht : tokenAt a k = some t) (hm : t'.mint = t.mint) :
    Ambient env a (setToken a k t') := by
  obtain ⟨htp, hdata⟩ := tokenAt_eq_some.mp ht
  have hne : ∀ j, (∀ u, (a j).data ≠ .token u) → setToken a k t' j = a j := by
    intro j hj
    apply setToken_of_ne
    rintro rfl
    exact hj t hdata
  refine ⟨?_, ?_, ?_⟩
  · intro j m hj
    have hsame := hne j (by simp [(mintAt_eq_some.mp hj).2])
    exact ⟨(mintAt_congr hsame).trans hj, by rw [hsame]⟩
  · intro hw wallet mint tp u hu
    simp only [setToken_owner]
    by_cases hk : env.runtime.ata wallet mint tp = k
    · rw [hk, tokenAt_setToken_self _ htp] at hu
      obtain rfl := Option.some.inj hu
      rw [hm]
      exact hw wallet mint tp t (by rw [hk, ht])
    · rw [tokenAt_setToken_of_ne a t' hk] at hu
      exact hw wallet mint tp u hu
  · intro p hp j i hi
    have hj : j ≠ k := by
      rintro rfl
      rw [(inboxItemAt_eq_some.mp hi).1] at htp
      exact (hl.nttLaws hp).ne_token htp
    have hsame : SameData a (setToken a k t') j := .of_eq (setToken_of_ne a t' hj)
    exact ⟨i, (inboxItemAt_of_sameData hsame).trans hi, .refl i⟩

/-! ## Every step -/

theorem Quiet.owner_eq {w w' : RelayerWorld} (h : Quiet w w') {k : Pubkey}
    (ho : (w.accounts k).owner = programId) : (w'.accounts k).owner = programId :=
  (h.own k ho).1.trans ho

theorem ReceiveSpec.ambient {env : Env} (hl : env.Lawful) {ctx : Context}
    {accs : ReceiveAccounts} {args : ReceiveArgs} {w w' : RelayerWorld} {config : PairConfig}
    {mint : Mint} {bump : UInt8} {w₀ w₁ w₂ : RelayerWorld} {inbox : InboxItem}
    {held : TokenAccount} (hp : config.receiveNttProgram args.direction ≠ programId)
    (h : ReceiveSpec env.runtime ctx accs args w w' config mint bump w₀ w₁ w₂ inbox held) :
    Ambient env w.accounts w'.accounts := by
  have hcalls := h.calls hp
  have howner := (quiet_of_calls hl hcalls).owner_eq h.created.owner_eq
  rw [h.result]
  exact ((ambient_of_create hl h.created).trans (ambient_of_calls hl hcalls)).trans
    (ambient_of_write hl howner)

theorem SwapSpec.ambient {env : Env} (hl : env.Lawful) {ctx : Context} {accs : SwapAccounts}
    {data : Bytes} {w w' : RelayerWorld} {loaded : FlowLoaded}
    {swapIn feeBefore out netOut fee : UInt64} {w₁ w₂ w₃ : RelayerWorld}
    (h : SwapSpec env.runtime ctx accs data w w' loaded swapIn feeBefore out netOut fee w₁ w₂ w₃) :
    Ambient env w.accounts w'.accounts := by
  have hflow := owner_of_programAt (programAt_of_flowAt h.load.flow_at)
  have howner := (quiet_of_calls hl h.calls).owner_eq hflow
  rw [h.result]
  exact (ambient_of_calls hl h.calls).trans (ambient_of_write hl howner)

theorem OutboundSpec.ambient {env : Env} (hl : env.Lawful) {w w' : RelayerWorld} {ctx : Context}
    {accs : OutboundAccounts} {count : UInt8} {loaded : FlowLoaded} {nttProgram fromAta : Pubkey}
    {event : Event} {w₁ w₂ w₃ : RelayerWorld} (hp : nttProgram ≠ programId)
    (h : OutboundSpec env.runtime ctx accs count w w' loaded nttProgram fromAta event w₁ w₂ w₃) :
    Ambient env w.accounts w'.accounts := by
  have hcalls := h.bridged.calls h.load.token_program hp
  have hflow := owner_of_programAt (programAt_of_flowAt h.load.flow_at)
  have howner := (quiet_of_calls hl hcalls).owner_eq hflow
  rw [h.result]
  exact (ambient_of_calls hl hcalls).trans (ambient_of_close hl (w := w₃.emit event) howner)

/-- Up to where `initialize` checks the fee vault. -/
theorem InitializeSpec.ambient_created {env : Env} (hl : env.Lawful) {ctx : Context}
    {accs : InitializeAccounts} {args : InitializeArgs} {w w' : RelayerWorld} {g : GlobalConfig}
    {relayerBump bump : UInt8} {w₀ w₁ w₂ : RelayerWorld}
    (h : InitializeSpec env.runtime ctx accs args w w' g relayerBump bump w₀ w₁ w₂) :
    Ambient env w.accounts w₂.accounts := by
  have hbase := ambient_of_createToken hl h.base_address h.base_program h.base_created
  have hasset := ambient_of_createToken hl h.asset_address h.asset_program h.asset_created
  exact ((ambient_of_create hl h.created).trans hbase).trans hasset

theorem InitializeSpec.ambient {env : Env} (hl : env.Lawful) {ctx : Context}
    {accs : InitializeAccounts} {args : InitializeArgs} {w w' : RelayerWorld} {g : GlobalConfig}
    {relayerBump bump : UInt8} {w₀ w₁ w₂ : RelayerWorld}
    (h : InitializeSpec env.runtime ctx accs args w w' g relayerBump bump w₀ w₁ w₂) :
    Ambient env w.accounts w'.accounts := by
  have hq := (quiet_of_createSpec h.base_created).trans (quiet_of_createSpec h.asset_created)
  have howner := hq.owner_eq h.created.owner_eq
  rw [h.result]
  exact (h.ambient_created hl).trans (ambient_of_write hl howner)

theorem Effect.ambient {env : Env} (hl : env.Lawful) {w w' : RelayerWorld} {act : Action}
    (hp : Pinned env w) (h : Effect env w act w') : Ambient env w.accounts w'.accounts := by
  cases h with
  | bootstrap hs _ =>
      rw [hs.result]
      exact (ambient_of_create hl hs.created).trans (ambient_of_write hl hs.created.owner_eq)
  | initializePair hs _ _ _ => exact hs.ambient hl
  | setAdmin hs hc | acceptAdmin hs hc | configure hs hc | acceptAuthority hs hc =>
      rw [hs.result]
      exact ambient_of_write hl (owner_of_programAt hc.before_eq)
  | receive hs _ => exact hs.ambient hl (hl.ntt_ne_programId (hp.receiveNttProgram hs.config_at _))
  | swap hs _ => exact hs.ambient hl
  | send _ hs _ =>
      exact hs.ambient hl (hl.ntt_ne_programId (hp.sendNttProgram hs.load.config_at _))
  | refund _ _ hs _ =>
      exact hs.ambient hl (hl.ntt_ne_programId (hp.receiveNttProgram hs.load.config_at _))
  | external _ _ hi _ => exact ambient_of_invoke hl hi
  | deposit ht _ ha _ =>
      rw [ha]
      exact ambient_of_setToken hl ht rfl
  | tick _ ha _ =>
      rw [ha]
      exact .refl env _

theorem run_ambient {env : Env} (hl : env.Lawful) {w w' : RelayerWorld}
    {ts : List RelayerTransition} (hp : Pinned env w) (hr : RelayerRun env w ts w') :
    Ambient env w.accounts w'.accounts := by
  induction hr with
  | nil => exact .refl env _
  | snoc hr hstep ih =>
      have hpin := (run_effects hl hp hr).1
      exact ih.trans ((hstep.effect hl hpin).ambient hl hpin)

theorem run_ataWellFormed {env : Env} (hl : env.Lawful) {w₀ w : RelayerWorld}
    {ts : List RelayerTransition} (hg : Genesis env w₀) (hr : RelayerRun env w₀ ts w) :
    AtaWellFormed env.runtime w.accounts :=
  (run_ambient hl hg.pinned hr).ata hg.ata

end FogoYield.Relayer
