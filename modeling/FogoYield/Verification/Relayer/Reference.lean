import FogoYield.Model.Relayer.Reference
import FogoYield.Verification.Relayer.ReferenceManager

/-! # The reference chain is lawful

Everything that is assumed of the world outside the program holds on the reference chain, and the
program runs there. -/

namespace FogoYield.Relayer

open FogoYield.Library FogoYield.Solana

/-! ## Laws -/

def isReferenceManager (p : Pubkey) : Prop := p = nttUsdcProgram ∨ p = nttOnycProgram

/-- Whose tokens a call can spend: those of its signers, of the managers and of the offer's
vault. -/
def referenceConsents (ix : Instruction) (k : Pubkey) : Prop :=
  ix.Signs k ∨ k = tokenAuthority referenceBase nttUsdcProgram ∨
    k = tokenAuthority referenceBase nttOnycProgram ∨ k = offerVaultAuthority

theorem referenceManager_isManager : ∀ p, isReferenceManager p → IsManager p := by
  rintro p (rfl | rfl)
  · exact ⟨by decide, by decide, by decide⟩
  · exact ⟨by decide, by decide, by decide⟩

theorem isReferenceManager_of_referenceMint {p m : Pubkey} (h : referenceMint p = some m) :
    isReferenceManager p := by
  unfold referenceMint at h
  split at h
  · exact .inl ‹_›
  · split at h
    · exact .inr ‹_›
    · cases h

theorem offerInvoke_edits {ix : Instruction} {a a' : RelayerAccounts}
    (h : offerInvoke ix a = some a') : TokenEdits (referenceConsents ix) ix a a' := by
  unfold offerInvoke at h
  split at h
  · rename_i payer source vaultIn vaultOut dest haccs
    simp only [Option.bind_eq_bind, Option.bind_eq_some_iff, Option.guard_eq_some'] at h
    obtain ⟨s, hs, v, hv, -, ⟨hpayer, hsigner, hvault, hwritable⟩, a₁, hin, hout⟩ := h
    have hwrites : ∀ m ∈ [source, vaultIn, vaultOut, dest], ix.Writes m.pubkey := by
      intro m hm
      exact ⟨m, by rw [haccs]; exact List.mem_cons_of_mem _ hm, rfl, hwritable m hm⟩
    have hsigns : referenceConsents ix s.owner := by
      refine .inl ⟨payer, ?_, hpayer.symm, hsigner⟩
      rw [haccs]
      exact List.mem_cons_self
    have hedits : TokenEdits (referenceConsents ix) ix a a₁ :=
      moveTokens_edits (hwrites _ (by simp)) (hwrites _ (by simp)) hs hsigns hin
    -- the vault is still the vault's after the first transfer
    obtain ⟨v', hv', hvault'⟩ : ∃ v', tokenAt a₁ vaultOut.pubkey = some v' ∧
        v'.owner = offerVaultAuthority := by
      rcases hedits vaultOut.pubkey with heq | ⟨-, u, u', hu, ha₁, he⟩
      · exact ⟨v, (tokenAt_congr heq).trans hv, hvault⟩
      · obtain rfl := Option.some.inj (hu.symm.trans hv)
        refine ⟨u', ?_, he.owner.trans hvault⟩
        rw [tokenAt_eq_some, ha₁]
        exact ⟨(tokenAt_eq_some.mp hv).1, rfl⟩
    have hc : referenceConsents ix v'.owner := .inr (.inr (.inr hvault'))
    exact hedits.trans (moveTokens_edits (hwrites _ (by simp)) (hwrites _ (by simp)) hv' hc hout)
  · cases h

/-- `base` derives what the programs of the chain rely on, as the reference chain does. -/
structure Derives (base : RelayerRuntime) : Prop where
  address : base.AddressLaws
  authority : ∀ p, isReferenceManager p → tokenAuthority base p = tokenAuthority referenceBase p
  vault : offerVaultAuthority =
    (base.findProgramAddress [ascii "offer_vault_authority"] onreProgram).1
  tokens : ∀ e ∈ genesisTokens, base.ata e.2.owner e.2.mint tokenProgram = e.1

theorem referenceBase_derives : Derives referenceBase where
  address := referenceBook.laws rfl rfl
  authority _ _ := rfl
  vault := by decide +kernel
  tokens := by decide +kernel

section

variable {base : RelayerRuntime}

theorem invokeOn_edits (hb : Derives base) {ix : Instruction} {clock : Clock}
    {a a' : RelayerAccounts} (h : invokeOn base ix clock a = some a') :
    Edits isReferenceManager (referenceConsents ix) ix a a' := by
  unfold invokeOn at h
  split at h
  · exact .of_tokenEdits ((tokenInvoke_edits h).mono (fun _ hk => .inl hk))
  · split at h
    · rename_i hmint
      have hmanager := isReferenceManager_of_referenceMint hmint
      have hedits := nttInvoke_edits hmanager (referenceManager_isManager _ hmanager).ne_token h
      refine hedits.mono ?_
      intro k hauthority
      have hk := hauthority.trans (hb.authority _ hmanager)
      rcases hmanager with hp | hp
      · exact .inr (.inl (hk.trans (by rw [hp])))
      · exact .inr (.inr (.inl (hk.trans (by rw [hp]))))
    · split at h
      · exact .of_tokenEdits (offerInvoke_edits h)
      · cases h

theorem envOn_invoke_manager {ix : Instruction} {mint : Pubkey}
    (hmint : referenceMint ix.programId = some mint) (clock : Clock) (a : RelayerAccounts) :
    (envOn base).runtime.invoke ix clock a =
      nttInvoke base consumeOrDelay ix.programId mint ix clock a := by
  have hp := isReferenceManager_of_referenceMint hmint
  show invokeOn base ix clock a = _
  unfold invokeOn
  rw [if_neg (referenceManager_isManager _ hp).ne_token]
  simp only [hmint]

/-- No derived address of the relayer is one of the other programs'. -/
theorem not_consents (hb : Derives base) {ix : Instruction} {k : Pubkey} {seeds : List Bytes}
    (hk : base.createProgramAddress seeds programId = some k) (hs : ¬ ix.Signs k) :
    ¬ referenceConsents ix k := by
  have hne : ∀ seeds' p, k = (base.findProgramAddress seeds' p).1 → p = programId := by
    intro seeds' p heq
    have hfind := hb.address.create_find seeds' p
    rw [← heq] at hfind
    exact hb.address.create_program hfind hk
  rintro (hsign | heq | heq | heq)
  · exact hs hsign
  · rw [← hb.authority _ (.inl rfl)] at heq
    exact absurd (hne _ _ heq) (by decide)
  · rw [← hb.authority _ (.inr rfl)] at heq
    exact absurd (hne _ _ heq) (by decide)
  · exact absurd (hne _ _ (heq.trans hb.vault)) (by decide)

theorem envOn_cpi (hb : Derives base) : (envOn base).runtime.CpiLaws programId where
  frame h k hk := (invokeOn_edits hb h).frame k hk
  own h _ k hk := .of_eq ((invokeOn_edits hb h).eq_of_owner referenceManager_isManager hk)
  foreign h _ k hk := (invokeOn_edits hb h).foreign hk
  guarded := by
    rintro ix clock a a' h - k t ht ⟨seeds, hseeds⟩ hs -
    exact (invokeOn_edits hb h).keeps referenceManager_isManager ht (not_consents hb hseeds hs)
  mint h k m hm := (invokeOn_edits hb h).mintAt referenceManager_isManager hm
  ata h hw := (invokeOn_edits hb h).ata referenceManager_isManager hw

/-- Everything assumed of the outside holds where addresses are derived so. -/
theorem envOn_lawful (hb : Derives base) : (envOn base).Lawful where
  address := ⟨hb.address.create_find, hb.address.create_program, hb.address.create_inj⟩
  token := by
    apply tokenLaws_of_tokenInvoke
    intro ix clock a htp
    exact if_pos htp
  cpi := envOn_cpi hb
  ntt p m hpm := by
    have hp := isReferenceManager_of_referenceMint hpm
    refine nttLaws_of_nttInvoke base m referenceManager_isManager hp rfl rfl ?_
      (fun _ _ _ _ => invokeOn_edits hb)
    intro ix clock a hix
    subst hix
    exact envOn_invoke_manager hpm clock a

end

theorem referenceInvoke_edits {ix : Instruction} {clock : Clock} {a a' : RelayerAccounts}
    (h : referenceInvoke ix clock a = some a') :
    Edits isReferenceManager (referenceConsents ix) ix a a' :=
  invokeOn_edits referenceBase_derives h

theorem referenceEnv_invoke_manager {ix : Instruction} {mint : Pubkey}
    (hmint : referenceMint ix.programId = some mint) (clock : Clock) (a : RelayerAccounts) :
    referenceEnv.runtime.invoke ix clock a =
      nttInvoke referenceBase consumeOrDelay ix.programId mint ix clock a :=
  envOn_invoke_manager hmint clock a

theorem referenceEnv_address : referenceEnv.runtime.AddressLaws :=
  referenceBook.laws rfl rfl

/-- Everything assumed of the outside holds on the reference chain. -/
theorem referenceEnv_lawful : referenceEnv.Lawful :=
  envOn_lawful referenceBase_derives

/-- A key of the usual length that the chain does not derive is no derived address. -/
theorem not_derived {k : Pubkey} (hkeys : ∀ e ∈ referenceBook.entries, k ≠ e.key)
    (hlength : k.bytes.length = 32) (seeds : List Bytes) (p : Pubkey) :
    k ≠ (referenceEnv.runtime.findProgramAddress seeds p).1 := by
  show k ≠ (referenceBook.find seeds p).1
  unfold AddressBook.find
  split
  · rename_i e he
    exact hkeys e (List.mem_of_find?_eq_some he)
  · intro heq
    have hlen := congrArg (List.length ∘ Pubkey.bytes) heq
    simp only [Function.comp, hlength, longAddress, List.length_replicate] at hlen
    omega

/-! ## Genesis -/

/-- An account of a listed world is one of the list or absent. -/
theorem accountsOf_cases (l : List (Pubkey × Account RelayerData)) (k : Pubkey) :
    (k, accountsOf l k) ∈ l ∨ accountsOf l k = .absent := by
  unfold accountsOf
  cases h : l.lookup k with
  | none => exact .inr rfl
  | some x =>
      obtain ⟨before, after, rfl, -⟩ := List.lookup_eq_some_iff.mp h
      exact .inl (by simp)

theorem genesis_token {limit : UInt64} {k : Pubkey} {t : TokenAccount}
    (h : tokenAt (genesis limit).accounts k = some t) :
    (k, t) ∈ genesisTokens ∧ ((genesis limit).accounts k).owner = tokenProgram := by
  have hdata := (tokenAt_eq_some.mp h).2
  rcases accountsOf_cases (genesisAccounts limit) k with hmem | habsent
  · rw [genesisAccounts, List.mem_append, List.mem_map] at hmem
    rcases hmem with hmem | ⟨e, he, heq⟩
    · simp only [List.mem_cons, List.not_mem_nil, or_false, Prod.mk.injEq] at hmem
      rcases hmem with ⟨-, hx⟩ | ⟨-, hx⟩ | ⟨-, hx⟩ | ⟨-, hx⟩ | ⟨-, hx⟩ | ⟨-, hx⟩ | ⟨-, hx⟩ |
        ⟨-, hx⟩ <;>
        · change (genesis limit).accounts k = _ at hx
          rw [hx] at hdata
          cases hdata
    · obtain ⟨rfl, hx⟩ := Prod.mk.inj heq
      change _ = (genesis limit).accounts e.1 at hx
      rw [← hx] at hdata ⊢
      obtain rfl := Data.token.inj hdata
      exact ⟨he, rfl⟩
  · change (genesis limit).accounts k = _ at habsent
    rw [habsent] at hdata
    cases hdata

theorem genesis_on {base : RelayerRuntime} (hb : Derives base) (limit : UInt64) :
    Genesis (envOn base) (genesis limit) where
  no_account k := by
    rcases accountsOf_cases (genesisAccounts limit) k with hmem | habsent
    · have howner : ∀ e ∈ genesisAccounts limit, e.2.owner ≠ programId := by
        intro e he
        rw [genesisAccounts, List.mem_append, List.mem_map] at he
        rcases he with he | ⟨u, -, rfl⟩
        · simp only [List.mem_cons, List.not_mem_nil, or_false] at he
          have hwallet : systemProgram ≠ programId := by decide
          have hmint : tokenProgram ≠ programId := by decide
          have hmanager : nttUsdcProgram ≠ programId := by decide
          have hmanager' : nttOnycProgram ≠ programId := by decide
          rcases he with rfl | rfl | rfl | rfl | rfl | rfl | rfl | rfl
          · exact hwallet
          · exact hwallet
          · exact hmint
          · exact hmint
          · exact hmanager
          · exact hmanager
          · exact hmanager'
          · exact hmanager'
        · show tokenProgram ≠ programId
          decide
      exact howner _ hmem
    · change (genesis limit).accounts k = _ at habsent
      rw [habsent]
      decide
  ata := by
    intro wallet mint tp t ht
    obtain ⟨hmem, howner⟩ := genesis_token ht
    have hmint : ∀ e ∈ genesisTokens, e.2.mint ∈ [usdcMint, onycMint] := by decide
    -- every token account of genesis is associated with its own owner and mint
    obtain ⟨-, hm, htp⟩ := hb.address.ata_inj (hb.tokens _ hmem)
    change t.mint = mint at hm
    have hmint := hmint _ hmem
    change t.mint ∈ _ at hmint
    subst hm htp
    refine ⟨howner, rfl, ?_⟩
    simp only [List.mem_cons, List.not_mem_nil, or_false] at hmint
    rcases hmint with hm | hm <;> rw [hm] <;> rfl

theorem genesis_ok (limit : UInt64) : Genesis referenceEnv (genesis limit) :=
  genesis_on referenceBase_derives limit

/-! ## Runs -/

instance (env : Env) (act : Action) : Decidable (act.Trusted env) := by
  cases act <;> unfold Action.Trusted <;> infer_instance

/-- It succeeds, in a state or with a result that has the property. -/
inductive Ends {α : Type} (P : α → Prop) : RelayerResult α → Prop where
  | ok {a : α} : P a → Ends P (.ok a)

instance {α : Type} (P : α → Prop) [DecidablePred P] : DecidablePred (Ends P)
  | .ok a =>
    if h : P a then .isTrue (.ok h)
    else .isFalse (fun hends => h (by cases hends with | ok hP => exact hP))
  | .error _ => .isFalse (fun hends => by cases hends)

theorem Ends.exists_ok {α : Type} {P : α → Prop} {r : RelayerResult α} (h : Ends P r) :
    ∃ a, r = .ok a ∧ P a := by
  cases h with
  | @ok a hP => exact ⟨a, rfl, hP⟩

/-- The actions, one after the other from genesis. -/
def executed (limit : UInt64) (acts : List Action) : RelayerResult RelayerWorld :=
  execute (Action.apply referenceEnv.runtime) acts (genesis limit)

/-- An execution of the reference chain is a run of the program. -/
theorem run_of_executed {limit : UInt64} {acts : List Action} {P : RelayerWorld → Prop}
    (htrusted : ∀ act ∈ acts, act.Trusted referenceEnv) (h : Ends P (executed limit acts)) :
    ∃ ts w, RelayerRun referenceEnv (genesis limit) ts w ∧ ts.map Transition.act = acts ∧ P w := by
  obtain ⟨w, hw, hP⟩ := h.exists_ok
  have hstep : ∀ act ∈ acts, ∀ u v, act.apply referenceEnv.runtime u = .ok v →
      Step referenceEnv u act v :=
    fun act hact _ _ happly => ⟨htrusted act hact, happly⟩
  obtain ⟨ts, hr, hacts⟩ := run_of_execute hstep hw
  exact ⟨ts, w, hr, hacts, hP⟩

/-- A run from genesis goes on as the execution of its actions does. -/
theorem run_on_of_executed {limit : UInt64} {acts more : List Action} {P : RelayerWorld → Prop}
    {ts : List RelayerTransition} {w : RelayerWorld}
    (htrusted : ∀ act ∈ more, act.Trusted referenceEnv) (h : Ends P (executed limit (acts ++ more)))
    (hr : RelayerRun referenceEnv (genesis limit) ts w) (hacts : ts.map Transition.act = acts) :
    ∃ us w', RelayerRun referenceEnv w us w' ∧ us.map Transition.act = more ∧ P w' := by
  obtain ⟨w', hw', hP⟩ := h.exists_ok
  have hw : execute (Action.apply referenceEnv.runtime) acts (genesis limit) = .ok w :=
    hacts ▸ execute_of_run (fun _ _ _ hstep => hstep.2) hr
  rw [executed, execute_append, hw] at hw'
  obtain ⟨us, hus, hmore⟩ := run_of_execute (fun act hact _ _ happly =>
    (⟨htrusted act hact, happly⟩ : Step referenceEnv _ act _)) hw'
  exact ⟨us, w', hus, hmore, hP⟩

/-- A run from genesis ends as the execution of its actions does. -/
theorem holds_of_executed {limit : UInt64} {acts : List Action} {P : RelayerWorld → Prop}
    {ts : List RelayerTransition} {w : RelayerWorld} (h : Ends P (executed limit acts))
    (hr : RelayerRun referenceEnv (genesis limit) ts w) (hacts : ts.map Transition.act = acts) :
    P w := by
  obtain ⟨w', hw', hP⟩ := h.exists_ok
  have hw : executed limit acts = .ok w :=
    hacts ▸ execute_of_run (fun _ _ _ hstep => hstep.2) hr
  rwa [Except.ok.inj (hw.symm.trans hw')]

end FogoYield.Relayer
