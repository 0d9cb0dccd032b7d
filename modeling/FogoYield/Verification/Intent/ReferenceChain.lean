import FogoYield.Model.Intent.ReferenceChain
import FogoYield.Verification.Intent.Effects

/-! # The reference chain is lawful

What a call can do to one account of the reference chain is stated once, as `AccountEdit`, and the
laws the intent program relies on follow from it. -/

namespace FogoYield.Intent

open FogoYield.Library FogoYield.Solana
open FogoYield.Relayer (ascii slice nttSessionAuthoritySeed)

/-! ## Edits -/

/-- Whose tokens a call can spend: those of its signers, and of the wallet behind the session. -/
def Consents (ix : Instruction) (k : Pubkey) : Prop := ix.Signs k ∨ k = wallet

/-- What a call can make of the account at `k`. -/
inductive AccountEdit (ix : Instruction) (k : Pubkey) (x y : Account IntentData) : Prop where
  | paid (n : ℕ) (result : y = { x with lamports := n })
  | edited (t t' : TokenAccount) (program : IsTokenProgram x.owner) (held : x.data = .token t)
      (edit : t.Edited (Consents ix) t') (result : y = { x with data := .token t' })
  | closed (t : TokenAccount) (program : IsTokenProgram x.owner) (held : x.data = .token t)
      (consent : Consents ix t.owner) (result : y = .absent)
  | created (p : Pubkey) (bytes : Bytes) (fresh : x.owner = systemProgram) (other : p ≠ programId)
      (allowed : ¬ Derived referenceRuntime k ∨ ix.Signs k)
      (result : y = { x with owner := p, data := .raw bytes })

/-- Only accounts given as writable changed, each by an edit. -/
def Edits (ix : Instruction) (a a' : IntentAccounts) : Prop :=
  ∀ k, a' k = a k ∨ ix.Writes k ∧ AccountEdit ix k (a k) (a' k)

section

variable {ix : Instruction} {a a' : IntentAccounts}

theorem Edits.refl (ix : Instruction) (a : IntentAccounts) : Edits ix a a := fun _ => .inl rfl

theorem Edits.of_tokenEdits {consents : Pubkey → Prop} (himp : ∀ k, consents k → Consents ix k)
    (h : TokenEdits consents ix a a') : Edits ix a a' := by
  intro k
  rcases h k with heq | ⟨hw, t, t', ht, ha', he⟩
  · exact .inl heq
  · obtain ⟨hp, hd⟩ := tokenAt_eq_some.mp ht
    exact .inr ⟨hw, .edited t t' hp hd ⟨he.mint, he.owner, he.closeAuthority,
      he.covered.imp_right (himp _)⟩ ha'⟩

theorem Edits.frame (h : Edits ix a a') (k : Pubkey) (hk : ¬ ix.Writes k) : a' k = a k :=
  (h k).resolve_right (fun hw => hk hw.1)

theorem Edits.own (h : Edits ix a a') {k : Pubkey} (hk : (a k).owner = programId) :
    SameData a a' k := by
  have hnot : ¬ IsTokenProgram (a k).owner := by
    rw [hk]
    decide
  rcases h k with heq | ⟨-, hedit⟩
  · exact .of_eq heq
  · cases hedit with
    | paid n result => simp [SameData, result]
    | edited t t' program => exact absurd program hnot
    | closed t program => exact absurd program hnot
    | created p bytes fresh =>
        rw [hk] at fresh
        exact absurd fresh.symm (by decide)

theorem Edits.foreign (h : Edits ix a a') {k : Pubkey} (hk : (a k).owner ≠ programId) :
    programAt programId a' k = none := by
  rcases h k with heq | ⟨-, hedit⟩
  · simp [programAt, heq, hk]
  · cases hedit with
    | paid n result => simp [programAt, result, hk]
    | edited t t' program held edit result => simp [programAt, result]
    | closed t program held consent result => simp [programAt, result, Account.absent]
    | created p bytes fresh other allowed result => simp [programAt, result]

theorem Edits.keeps (h : Edits ix a a') {k : Pubkey} {t : TokenAccount}
    (ht : tokenAt a k = some t) (hc : ¬ Consents ix t.owner) : Keeps a a' k t := by
  obtain ⟨hp, hd⟩ := tokenAt_eq_some.mp ht
  rcases h k with heq | ⟨-, hedit⟩
  · exact ⟨t, (tokenAt_congr heq).trans ht, .refl t, by rw [heq]⟩
  · cases hedit with
    | paid n result =>
        refine ⟨t, ?_, .refl t, by rw [result]⟩
        rw [tokenAt_eq_some, result]
        exact ⟨hp, hd⟩
    | edited u t' program held edit result =>
        obtain rfl := Data.token.inj (held.symm.trans hd)
        refine ⟨t', ?_, edit.covered.resolve_right hc, by rw [result]⟩
        rw [tokenAt_eq_some, result]
        exact ⟨hp, rfl⟩
    | closed u program held consent =>
        obtain rfl := Data.token.inj (held.symm.trans hd)
        exact absurd consent hc
    | created p bytes fresh =>
        rw [fresh] at hp
        exact absurd hp not_isTokenProgram_systemProgram

theorem Edits.unused (h : Edits ix a a') {k : Pubkey} (hk : Derived referenceRuntime k)
    (hs : ¬ ix.Signs k) (hu : Unused a k) : Unused a' k := by
  have hnot : ¬ IsTokenProgram (a k).owner := by
    rw [hu.1]
    exact not_isTokenProgram_systemProgram
  rcases h k with heq | ⟨-, hedit⟩
  · rw [Unused, heq]
    exact hu
  · cases hedit with
    | paid n result =>
        rw [Unused, result]
        exact hu
    | edited t t' program => exact absurd program hnot
    | closed t program => exact absurd program hnot
    | created p bytes fresh other allowed => exact absurd (allowed.resolve_left (· hk)) hs

end

/-! ## Programs -/

section

variable {ix : Instruction} {a a' : IntentAccounts}

theorem moveLamports_edits {source dest : Pubkey} {n : ℕ} (hs : ix.Writes source)
    (hd : ix.Writes dest) (h : moveLamports a source dest n = some a') : Edits ix a a' := by
  unfold moveLamports at h
  split at h
  · obtain rfl := Option.some.inj h
    exact .refl ix a
  · rename_i hne
    split at h
    · obtain rfl := Option.some.inj h
      intro k
      by_cases hkd : k = dest
      · subst hkd
        refine .inr ⟨hd, .paid ((a k).lamports + n) ?_⟩
        simp [setLamports, Function.update_of_ne (Ne.symm hne)]
      · by_cases hks : k = source
        · subst hks
          refine .inr ⟨hs, .paid ((a k).lamports - n) ?_⟩
          simp [setLamports, Function.update_of_ne hkd]
        · exact .inl (by simp [setLamports, hkd, hks])
    · cases h

theorem closeToken_edits {account dest owner : Pubkey} (hs : ix.Writes account)
    (hd : ix.Writes dest) (hc : ix.Signs owner)
    (h : closeToken account dest owner a = some a') : Edits ix a a' := by
  simp only [closeToken, Option.bind_eq_bind, Option.bind_eq_some_iff, Option.guard_eq_some',
    Option.some.injEq, tokenOf_eq_some] at h
  obtain ⟨t, ⟨-, ht⟩, -, ⟨howner, -, hne, -⟩, rfl⟩ := h
  obtain ⟨hp, hdata⟩ := tokenAt_eq_some.mp ht
  intro k
  by_cases hkd : k = dest
  · subst hkd
    refine .inr ⟨hd, .paid ((a k).lamports + (a account).lamports) ?_⟩
    simp [setLamports, Function.update_of_ne hne]
  · by_cases hka : k = account
    · subst hka
      refine .inr ⟨hs, .closed t hp hdata (howner ▸ .inl hc) ?_⟩
      simp [setLamports, Function.update_of_ne hkd]
    · exact .inl (by simp [setLamports, hkd, hka])

theorem fogoTokenInvoke_edits (h : fogoTokenInvoke ix a = some a') : Edits ix a a' := by
  unfold fogoTokenInvoke at h
  split at h
  · rename_i source mint dest authority signer haccs
    dsimp only at h
    split at h
    · rename_i hix
      have hmem := congrArg Instruction.accounts hix
      have hconsent : Consents ix (sessionUser authority.pubkey) := by
        unfold sessionUser
        split
        · exact .inr rfl
        · exact .inl ⟨⟨authority.pubkey, true, false⟩, by rw [hmem]; simp [inSessionTransferIx], rfl,
            rfl⟩
      refine .of_tokenEdits (fun _ hk => hk) (transferChecked_edits ?_ ?_ hconsent h)
      · exact ⟨⟨source.pubkey, false, true⟩, by rw [hmem]; simp [inSessionTransferIx], rfl, rfl⟩
      · exact ⟨⟨dest.pubkey, false, true⟩, by rw [hmem]; simp [inSessionTransferIx], rfl, rfl⟩
    · cases h
  · rename_i account dest owner haccs
    split at h
    · rename_i hix
      have hmem := congrArg Instruction.accounts hix
      refine closeToken_edits ?_ ?_ ?_ h
      · exact ⟨⟨account.pubkey, false, true⟩, by rw [hmem]; simp [closeAccountIx], rfl, rfl⟩
      · exact ⟨⟨dest.pubkey, false, true⟩, by rw [hmem]; simp [closeAccountIx], rfl, rfl⟩
      · exact ⟨⟨owner.pubkey, true, false⟩, by rw [hmem]; simp [closeAccountIx], rfl, rfl⟩
    · exact .of_tokenEdits (fun _ hk => .inl hk) (tokenInvoke_edits h)
  · exact .of_tokenEdits (fun _ hk => .inl hk) (tokenInvoke_edits h)

theorem systemInvoke_edits (h : systemInvoke ix a = some a') : Edits ix a a' := by
  unfold systemInvoke at h
  split at h
  · rename_i source dest setter haccs
    dsimp only at h
    split at h
    · rename_i hix
      have hmem := congrArg Instruction.accounts hix.1
      refine moveLamports_edits ?_ ?_ h
      · exact ⟨⟨source.pubkey, false, true⟩, by rw [hmem]; simp [intentTransferIx], rfl, rfl⟩
      · exact ⟨⟨dest.pubkey, false, true⟩, by rw [hmem]; simp [intentTransferIx], rfl, rfl⟩
    · cases h
  · cases h

theorem executorInvoke_edits (h : executorInvoke ix a = some a') : Edits ix a a' := by
  unfold executorInvoke at h
  split at h
  · rename_i payer payee _ _ _ _ _ haccs
    split at h
    · rename_i hw
      refine moveLamports_edits ?_ ?_ h
      · exact ⟨payer, by rw [haccs]; simp, rfl, hw.1⟩
      · exact ⟨payee, by rw [haccs]; simp, rfl, hw.2.1⟩
    · cases h
  · cases h

/-- A delegate that spends takes no more than was delegated to it. -/
theorem debit_guarded {t t' : TokenAccount} {key : Pubkey} {amount : UInt64}
    (hkey : t.delegate = some key) (hle : amount ≤ t.amount) (h : t.debit key amount = some t') :
    t.Guarded t' := by
  obtain ⟨hmint, howner, hclose, hamount, hdel⟩ := TokenAccount.debit_spec hle h
  refine ⟨hmint, howner, hclose, hdel, ?_⟩
  simp only [TokenAccount.debit, hkey, if_true] at h
  split at h
  · rename_i hd
    have hsub := UInt64.toNat_sub_of_le _ _ hd
    have hle' := UInt64.le_iff_toNat_le.mp hd
    obtain rfl := Option.some.inj h
    dsimp only at hamount ⊢
    omega
  · cases h

theorem burnInvoke_edits (hp : ix.programId ≠ programId) (h : burnInvoke ix a = some a') :
    Edits ix a a' := by
  unfold burnInvoke at h
  dsimp only at h
  split at h
  · rename_i _ _ mint source _ outbox _ _ _ _ _ authority _ haccs
    simp only [Option.bind_eq_bind, Option.bind_eq_some_iff, Option.guard_eq_some',
      Option.some.injEq] at h
    obtain ⟨t, ht, -, ⟨hsw, how, hos, -, -, hkey, hle, -, hunused⟩, t', ht', rfl⟩ := h
    obtain ⟨htp, hdata⟩ := tokenAt_eq_some.mp ht
    have hguarded := debit_guarded hkey hle ht'
    have hsource : ix.Writes source.pubkey := ⟨source, by rw [haccs]; simp, rfl, hsw⟩
    have houtbox : ix.Writes outbox.pubkey := ⟨outbox, by rw [haccs]; simp, rfl, how⟩
    have hsigns : ix.Signs outbox.pubkey := ⟨outbox, by rw [haccs]; simp, rfl, hos⟩
    intro k
    by_cases hko : k = outbox.pubkey
    · subst hko
      refine .inr ⟨houtbox, .created ix.programId (ix.data.drop 8) hunused.1 hp (.inr hsigns) ?_⟩
      simp
    · by_cases hks : k = source.pubkey
      · subst hks
        refine .inr ⟨hsource, .edited t t' htp hdata
          ⟨hguarded.mint, hguarded.owner, hguarded.closeAuthority, .inl hguarded⟩ ?_⟩
        simp [Function.update_of_ne hko]
      · exact .inl (by simp [hko, setToken, hks])
  · cases h

/-- A message account is the manager's, so it is not derived from the intent program. -/
theorem not_derived_of_find {seeds : List Bytes} {p : Pubkey} (hp : p ≠ programId) :
    ¬ Derived referenceRuntime (referenceBook.find seeds p).1 := by
  rintro ⟨seeds', hcreate⟩
  exact hp (referenceBook.create_inj (referenceBook.create_find seeds p) hcreate).2

theorem releaseInvoke_edits (hp : ix.programId ≠ programId) (h : releaseInvoke ix a = some a') :
    Edits ix a a' := by
  unfold releaseInvoke at h
  split at h
  · rename_i _ _ outbox _ message _ _ _ _ wormhole _ _ _ haccs
    simp only [Option.bind_eq_bind, Option.bind_eq_some_iff, Option.guard_eq_some',
      Option.some.injEq] at h
    obtain ⟨-, ⟨-, hw, hkey, hunused, hwormhole⟩, rfl⟩ := h
    have hother : wormhole.pubkey ≠ programId := by
      rw [hwormhole]
      decide
    intro k
    by_cases hk : k = message.pubkey
    · subst hk
      refine .inr ⟨⟨message, by rw [haccs]; simp, rfl, hw⟩,
        .created wormhole.pubkey (a outbox.pubkey).bytes hunused.1 hother (.inl ?_) ?_⟩
      · rw [hkey]
        exact not_derived_of_find hp
      · simp
    · exact .inl (by simp [hk])
  · cases h

theorem referenceInvoke_edits (h : referenceInvoke ix a = some a') :
    Edits ix a a' := by
  unfold referenceInvoke at h
  split at h
  · exact fogoTokenInvoke_edits h
  · split at h
    · exact systemInvoke_edits h
    · split at h
      · rename_i hmanager
        have hp : ix.programId ≠ programId := by
          rw [hmanager]
          decide
        unfold managerInvoke at h
        split at h
        · exact burnInvoke_edits hp h
        · split at h
          · exact releaseInvoke_edits hp h
          · cases h
      · split at h
        · exact executorInvoke_edits h
        · cases h

end

/-! ## Laws -/

theorem invoke_token {ix : Instruction} (h : ix.programId = tokenProgram) (clock : Clock)
    (a : IntentAccounts) : referenceRuntime.invoke ix clock a = fogoTokenInvoke ix a :=
  if_pos h

theorem invoke_system {ix : Instruction} (h : ix.programId = systemProgram) (clock : Clock)
    (a : IntentAccounts) : referenceRuntime.invoke ix clock a = systemInvoke ix a := by
  have hne : ix.programId ≠ tokenProgram := by
    rw [h]
    decide
  change referenceInvoke ix a = _
  rw [referenceInvoke, if_neg hne, if_pos h]

theorem referenceRuntime_address : referenceRuntime.AddressLaws :=
  referenceBook.laws rfl rfl

theorem length_longAddress (seeds : List Bytes) (p : Pubkey) :
    33 ≤ (longAddress seeds p).bytes.length := by
  simp [longAddress]

/-- A key of the usual length that the book does not list is no derived address. -/
theorem plain_not_derived {k : Pubkey} (hkeys : ∀ e ∈ referenceBook.entries, e.key ≠ k)
    (hlength : k.bytes.length = 32) : ¬ Derived referenceRuntime k := by
  rintro ⟨seeds, hcreate⟩
  rcases AddressBook.create_cases hcreate with ⟨e, he, -, -, hkey⟩ | hlong
  · exact hkeys e he hkey
  · have hlong' := length_longAddress seeds programId
    rw [hlong, hlength] at hlong'
    exact absurd hlong' (by decide)

theorem wallet_not_derived : ¬ Derived referenceRuntime wallet :=
  plain_not_derived (by decide +kernel) (by decide)

theorem referenceRuntime_cpi : referenceRuntime.CallLaws programId where
  frame h k hk := (referenceInvoke_edits h).frame k hk
  own h _ k hk := (referenceInvoke_edits h).own hk
  foreign h _ k hk := (referenceInvoke_edits h).foreign hk
  guarded := by
    rintro ix clock a a' h - k t ht hderived hs -
    apply (referenceInvoke_edits h).keeps ht
    rintro (hsigns | hwallet)
    · exact hs hsigns
    · exact wallet_not_derived (hwallet ▸ hderived)
  unused := by
    rintro ix clock a a' h - seeds k hk hs hu
    exact (referenceInvoke_edits h).unused ⟨seeds, hk⟩ hs hu

theorem inSession_moved {source mint dest authority signer : Pubkey} {amount : UInt64}
    {decimals : UInt8} {clock : Clock} {a a' : IntentAccounts}
    (h : referenceRuntime.invoke (inSessionTransferIx tokenProgram source mint dest authority signer
      amount decimals) clock a = some a') :
    Moved tokenProgram source mint dest amount a a' := by
  have hslice : slice (inSessionTransferIx tokenProgram source mint dest authority signer amount
      decimals).data 1 8 = leBytes 8 amount.toNat := by
    simp [slice, inSessionTransferIx]
  have hdecimals : ((inSessionTransferIx tokenProgram source mint dest authority signer amount
      decimals).data.drop 9).headD 0 = decimals := by
    simp [inSessionTransferIx]
  have htransfer : transferChecked tokenProgram source mint dest (sessionUser authority) amount
      decimals a = some a' := by
    rw [invoke_token rfl] at h
    unfold fogoTokenInvoke at h
    simp only [hslice, hdecimals, ofLeBytes_amount, UInt64.ofNat_toNat] at h
    simpa [inSessionTransferIx] using h
  by_cases hne : source = dest
  · refine .within hne ?_
    simp only [transferChecked, hne, if_true, Option.bind_eq_bind, Option.bind_eq_some_iff,
      Option.some.injEq] at htransfer
    obtain ⟨_, _, _, _, _, _, _, _, _, _, rfl⟩ := htransfer
    rfl
  · obtain ⟨s, s', d, hspec⟩ := transferChecked_spec hne htransfer
    exact .between s s' d hne hspec

theorem closeToken_closed {account dest owner : Pubkey} {a a' : IntentAccounts}
    (h : closeToken account dest owner a = some a') : ∃ t, ClosedSpec account dest t a a' := by
  simp only [closeToken, Option.bind_eq_bind, Option.bind_eq_some_iff, Option.guard_eq_some',
    Option.some.injEq, tokenOf_eq_some] at h
  obtain ⟨t, ⟨-, ht⟩, -, ⟨-, -, hne, hempty⟩, rfl⟩ := h
  refine ⟨t, ht, hne, hempty, ?_, ?_, ?_⟩
  · simp [setLamports, Function.update_of_ne (Ne.symm hne)]
  · simp [setLamports, Function.update_of_ne hne]
  · intro j hj hd
    simp [setLamports, hj, hd]

theorem referenceRuntime_rail : RailLaws referenceRuntime where
  transfer h := inSession_moved h
  approve := by
    intro source delegate owner amount clock a a' h
    rw [invoke_token rfl] at h
    simpa [fogoTokenInvoke, approveIx, closeAccountIx, tokenInvoke, List.take_of_length_le,
      ofLeBytes_amount] using h
  close := by
    intro account dest authority clock a a' h
    rw [invoke_token rfl] at h
    simp only [fogoTokenInvoke, closeAccountIx, if_true] at h
    exact closeToken_closed h
  native := by
    intro source dest setter amount clock a a' h
    rw [invoke_system rfl] at h
    have hslice : slice (intentTransferIx source dest setter amount).data 4 8 =
        leBytes 8 amount.toNat := by
      simp [slice, intentTransferIx]
    unfold systemInvoke at h
    simp only [hslice, ofLeBytes_amount, UInt64.ofNat_toNat] at h
    simp only [intentTransferIx, true_and] at h
    split at h
    · unfold moveLamports at h
      split at h
      · exact .within ‹_› (Option.some.inj h).symm
      · split at h
        · exact .between ‹_› ‹_› (Option.some.inj h).symm
        · cases h
    · cases h

/-- Everything assumed of the outside holds on the reference chain. -/
theorem referenceRuntime_lawful : Lawful referenceRuntime where
  address := referenceRuntime_address
  cpi := referenceRuntime_cpi
  rail := referenceRuntime_rail

/-! ## Genesis -/

theorem genesis_cases (k : Pubkey) :
    (k, genesis.accounts k) ∈ genesisAccounts ∨ genesis.accounts k = .absent := by
  change (k, (genesisAccounts.lookup k).getD .absent) ∈ genesisAccounts ∨
    (genesisAccounts.lookup k).getD .absent = .absent
  cases h : genesisAccounts.lookup k with
  | none => exact .inr rfl
  | some x =>
      obtain ⟨before, after, heq, -⟩ := List.lookup_eq_some_iff.mp h
      left
      rw [heq]
      simp

theorem genesis_ok : Genesis referenceRuntime genesis where
  unused := by
    rintro k ⟨seeds, hcreate⟩
    rcases AddressBook.create_cases hcreate with ⟨e, he, -, hprogram, rfl⟩ | rfl
    · have hunused : ∀ e ∈ referenceBook.entries, e.program = programId →
          Unused genesis.accounts e.key := by decide +kernel
      exact hunused e he hprogram
    · rcases genesis_cases (longAddress seeds programId) with hmem | habsent
      · have hlength : ∀ e ∈ genesisAccounts.map Prod.fst, e.bytes.length = 32 := by decide
        have hlong := length_longAddress seeds programId
        rw [hlength _ (List.mem_map_of_mem hmem)] at hlong
        exact absurd hlong (by decide)
      · rw [Unused, habsent]
        exact ⟨rfl, rfl⟩
  no_account k := by
    rcases genesis_cases k with hmem | habsent
    · have howner : ∀ e ∈ genesisAccounts.map (fun e => e.2.owner), e ≠ programId := by
        decide +kernel
      exact howner _ (List.mem_map_of_mem hmem)
    · rw [habsent]
      decide
  no_calls := rfl

/-! ## Runs -/

theorem plain_signers {signers : List Pubkey} {remaining : List AccountMeta}
    (hkeys : ∀ k ∈ signers, (∀ e ∈ referenceBook.entries, e.key ≠ k) ∧ k.bytes.length = 32) :
    SignedByOthers referenceRuntime ⟨signers, remaining⟩ :=
  fun k hk => plain_not_derived (hkeys k hk).1 (hkeys k hk).2

theorem signedContext_possible (message : Bytes) :
    (signedContext message).Possible referenceRuntime := by
  refine ⟨plain_signers (by decide +kernel), ?_⟩
  rintro signed hsigned
  obtain rfl := Except.ok.inj hsigned
  exact wallet_not_derived

theorem referenceActions_possible : ∀ act ∈ referenceActions, act.Possible referenceRuntime := by
  have hauthority : SignedByOthers referenceRuntime ⟨[upgradeAuthority], []⟩ :=
    plain_signers (by decide +kernel)
  intro act hact
  simp only [referenceActions, List.mem_cons, List.not_mem_nil, or_false] at hact
  rcases hact with rfl | rfl | rfl | rfl | rfl
  · exact ⟨hauthority, by decide⟩
  · exact hauthority
  · exact signedContext_possible _
  · exact signedContext_possible _
  · exact signedContext_possible _

/-- The actions, one after the other from genesis. -/
def executedAll : Option IntentWorld :=
  (execute (Action.apply referenceCrates referenceRuntime) referenceActions genesis).toOption

/-- Where the reference run ends: two transfers and a bridge are counted, the wallet is down by what
it sent and by two fees, and one burn was asked for. -/
structure Arrived (w : IntentWorld) : Prop where
  transfers : nonceAt referenceRuntime w (.intrachain, wallet) = 2
  bridges : nonceAt referenceRuntime w (.bridge, wallet) = 1
  wallet_balance : balance w.accounts walletTokens = 11150000
  friend_balance : balance w.accounts friendTokens = 3250000
  fee_balance : balance w.accounts feeTokens = 600000
  burned : burns w = [transferBurnIx bridgeAccounts burnArgs]

instance (w : IntentWorld) : Decidable (Arrived w) :=
  decidable_of_iff (nonceAt referenceRuntime w (.intrachain, wallet) = 2 ∧
      nonceAt referenceRuntime w (.bridge, wallet) = 1 ∧
      balance w.accounts walletTokens = 11150000 ∧ balance w.accounts friendTokens = 3250000 ∧
      balance w.accounts feeTokens = 600000 ∧ burns w = [transferBurnIx bridgeAccounts burnArgs])
    ⟨fun ⟨h₁, h₂, h₃, h₄, h₅, h₆⟩ => ⟨h₁, h₂, h₃, h₄, h₅, h₆⟩,
      fun h => ⟨h.1, h.2, h.3, h.4, h.5, h.6⟩⟩

/-- The five actions succeed one after the other, which is a run of the program. -/
theorem reference_run : ∃ ts w, IntentRun referenceCrates referenceRuntime genesis ts w ∧
    ts.map Transition.act = referenceActions ∧ Arrived w := by
  have harrived : executedAll.any (fun w => decide (Arrived w)) = true := by decide +kernel
  obtain ⟨w, hw, hfacts⟩ : ∃ w, executedAll = some w ∧ Arrived w := by
    revert harrived
    cases executedAll with
    | none => exact fun h => absurd h (by decide)
    | some w => exact fun h => ⟨w, rfl, of_decide_eq_true h⟩
  have hok : execute (Action.apply referenceCrates referenceRuntime) referenceActions genesis =
      .ok w := by
    unfold executedAll at hw
    revert hw
    cases execute (Action.apply referenceCrates referenceRuntime) referenceActions genesis with
    | ok v =>
        intro hw
        rw [Option.some.inj hw]
    | error e =>
        intro hw
        cases hw
  have hstep : ∀ act ∈ referenceActions, ∀ u v, act.apply referenceCrates referenceRuntime u =
      .ok v → Step referenceCrates referenceRuntime u act v :=
    fun act hact u v happly => ⟨referenceActions_possible act hact, happly⟩
  obtain ⟨ts, hr, hacts⟩ := run_of_execute hstep hok
  exact ⟨ts, w, hr, hacts, hfacts⟩

/-- The run up to the bridge, and the bridge. -/
theorem reference_bridge : ∃ ts w w', IntentRun referenceCrates referenceRuntime genesis ts w ∧
    Step referenceCrates referenceRuntime w (bridgeAction "1") w' ∧ Arrived w' := by
  obtain ⟨ts, w', hr, hacts, harrived⟩ := reference_run
  obtain ⟨before, last, rfl, hbefore, hlast⟩ := List.map_eq_append_iff.mp
    (show ts.map Transition.act =
      [registerNttAction, registerFeeAction, sendTokensAction "1", sendNativeAction "2"] ++
        [bridgeAction "1"] from hacts)
  obtain ⟨tr, rfl, htr⟩ := List.map_eq_singleton_iff.mp hlast
  obtain ⟨hinit, hstep, rfl⟩ := hr.snoc_inv
  exact ⟨before, tr.pre, tr.post, hinit, htr ▸ hstep, harrived⟩

end FogoYield.Intent
