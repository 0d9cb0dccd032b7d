import FogoYield.Library.Backing
import FogoYield.Model.Relayer.Inbox
import FogoYield.Verification.Relayer.Isolation
import FogoYield.Verification.Relayer.Receipt

/-! # What a user inbox holds

Messages to one user and floor are paid into one token account. As long as every `receive` takes
out what its own message was paid, the account covers all released messages that nobody has
received yet. -/

namespace FogoYield.Relayer

open FogoYield.Library FogoYield.Solana

/-! ## Released items -/

section

variable {env : Env} {inbox mint : Pubkey} {a a' : RelayerAccounts} {k : Pubkey}

theorem releasedTo_of_item {p q : Pubkey} {i : InboxItem} (hp : env.nttMint p = some q)
    (hi : inboxItemAt p a k = some i) : releasedTo env inbox mint a k =
      if q = mint ∧ i.releaseStatus = .released ∧ i.recipientAddress = inbox then i.amount.toNat
      else 0 := by
  obtain ⟨howner, hload⟩ := inboxItemAt_eq_some.mp hi
  simp only [releasedTo, howner, hp, hload, Option.some.injEq, ite_and]

theorem releasedTo_of_not_manager (h : env.nttMint (a k).owner = none) :
    releasedTo env inbox mint a k = 0 := by
  simp [releasedTo, h]

theorem releasedTo_congr (h : SameData a a' k) :
    releasedTo env inbox mint a' k = releasedTo env inbox mint a k := by
  simp only [releasedTo, h.1, h.bytes]

theorem Env.Lawful.nttMint_none (hl : env.Lawful) {p : Pubkey}
    (h : p = programId ∨ p = systemProgram ∨ IsTokenProgram p) : env.nttMint p = none := by
  cases hp : env.nttMint p with
  | none => rfl
  | some m =>
      have hlaws := hl.ntt p m hp
      rcases h with h | h | h
      · exact absurd h hlaws.ne_programId
      · exact absurd h hlaws.ne_system
      · exact absurd h hlaws.ne_token

end

/-! ## Paying in -/

/-- From `a` to `a'` the account stays locked and takes in at least what was released. -/
structure Pays (env : Env) (inbox mint : Pubkey) (a a' : RelayerAccounts) : Prop where
  ambient : Ambient env a a'
  locked : Locked env inbox mint a → Locked env inbox mint a'
  paid : Classic mint a' → Locked env inbox mint a → ∀ S : Finset Pubkey,
    ∑ k ∈ S, releasedTo env inbox mint a' k + balance a (inboxAta env.runtime inbox mint) ≤
      ∑ k ∈ S, releasedTo env inbox mint a k + balance a' (inboxAta env.runtime inbox mint)

section

variable {env : Env} {inbox mint : Pubkey} {a a' a'' : RelayerAccounts}

theorem Pays.refl (env : Env) (inbox mint : Pubkey) (a : RelayerAccounts) :
    Pays env inbox mint a a :=
  ⟨.refl env a, id, fun _ _ _ => le_refl _⟩

theorem Classic.of_ambient (h : Classic mint a') (ha : Ambient env a a') : Classic mint a := by
  intro m hm
  obtain ⟨hm', howner⟩ := ha.mint mint m hm
  exact howner.symm.trans (h m hm')

theorem Pays.trans (h : Pays env inbox mint a a') (h' : Pays env inbox mint a' a'') :
    Pays env inbox mint a a'' where
  ambient := h.ambient.trans h'.ambient
  locked hlock := h'.locked (h.locked hlock)
  paid hclassic hlock S := by
    have h₁ := h.paid (hclassic.of_ambient h'.ambient) hlock S
    have h₂ := h'.paid hclassic (h.locked hlock) S
    omega

/-- Without the owner's consent a locked account only gains. -/
theorem guarded_locked {t t' : TokenAccount}
    (h : t.owner = inbox ∧ t.delegatedAmount = 0 ∧ t.closeAuthority = none) (hg : t.Guarded t') :
    (t'.owner = inbox ∧ t'.delegatedAmount = 0 ∧ t'.closeAuthority = none) ∧
      t.amount.toNat ≤ t'.amount.toNat := by
  obtain ⟨howner, hnone, hclose⟩ := h
  have hle := UInt64.le_iff_toNat_le.mp hg.delegated
  have hcovered := hg.covered
  rw [hnone, UInt64.toNat_zero] at hle hcovered
  refine ⟨⟨hg.owner.trans howner, ?_, hg.closeAuthority.trans hclose⟩, by omega⟩
  exact UInt64.toNat_inj.mp (Nat.le_zero.mp hle)

/-- What neither shows in the items nor in the account. -/
theorem Pays.of_same (ha : Ambient env a a')
    (hitems : ∀ k, releasedTo env inbox mint a' k = releasedTo env inbox mint a k)
    (htoken : tokenAt a' (inboxAta env.runtime inbox mint) =
      tokenAt a (inboxAta env.runtime inbox mint)) : Pays env inbox mint a a' where
  ambient := ha
  locked hlock := by
    rw [Locked, htoken]
    exact hlock
  paid _ _ S := by
    rw [Finset.sum_congr rfl (fun k _ => hitems k)]
    simp only [balance, htoken, le_refl]

/-- Rewriting one account that is no manager's, before and after, and not the inbox's own. -/
theorem Pays.of_others {k : Pubkey} (ha : Ambient env a a')
    (hothers : ∀ j, j ≠ k → SameData a a' j) (hbefore : env.nttMint (a k).owner = none)
    (hafter : env.nttMint (a' k).owner = none)
    (htoken : inboxAta env.runtime inbox mint = k → tokenAt a' k = tokenAt a k) :
    Pays env inbox mint a a' := by
  refine .of_same ha ?_ ?_
  · intro j
    by_cases hj : j = k
    · rw [hj, releasedTo_of_not_manager hbefore, releasedTo_of_not_manager hafter]
    · exact releasedTo_congr (hothers j hj)
  · by_cases hk : inboxAta env.runtime inbox mint = k
    · rw [hk]
      exact htoken hk
    · exact (hothers _ hk).tokenAt

theorem Pays.of_invoke (hl : env.Lawful) (hi : InboxLaws env) {ix : Instruction} {clock : Clock}
    (hinbox : ∃ seeds, env.runtime.createProgramAddress seeds programId = some inbox)
    (hne : ix.programId ≠ programId) (hsign : ¬ ix.Signs inbox)
    (h : env.runtime.invoke ix clock a = some a') : Pays env inbox mint a a' where
  ambient := ambient_of_invoke hl h
  locked hlock := by
    intro t' ht'
    cases ht : tokenAt a (inboxAta env.runtime inbox mint) with
    | none => exact hi.created h inbox mint t' hsign ht ht'
    | some t =>
        obtain ⟨howner, hnone, hclose⟩ := hlock t ht
        have hderived := hinbox
        rw [← howner] at hderived hsign
        obtain ⟨u, hu, hg, -⟩ := hl.cpi.guarded h hne _ t ht hderived hsign hclose
        obtain rfl := Option.some.inj (hu.symm.trans ht')
        exact (guarded_locked ⟨howner, hnone, hclose⟩ hg).1
  paid hclassic hlock S := hi.paid h hne inbox mint hinbox hsign hclassic hlock S

theorem Pays.of_call (hl : env.Lawful) (hi : InboxLaws env) {ix : Instruction}
    {w w' : RelayerWorld}
    (hinbox : ∃ seeds, env.runtime.createProgramAddress seeds programId = some inbox)
    (hne : ix.programId ≠ programId) (hsign : ¬ ix.Signs inbox)
    (h : Called env.runtime ix w w') : Pays env inbox mint w.accounts w'.accounts :=
  .of_invoke hl hi hinbox hne hsign h.invoked

theorem Pays.of_create (hl : env.Lawful) {k : Pubkey} {w w' : RelayerWorld}
    (h : CreateSpec k programId (.raw []) w w') :
    Pays env inbox mint w.accounts w'.accounts := by
  refine .of_others (ambient_of_create hl h) h.others ?_ ?_ ?_
  · rw [h.was_system]
    exact hl.nttMint_none (.inr (.inl rfl))
  · rw [h.owner_eq]
    exact hl.nttMint_none (.inl rfl)
  · intro _
    rw [h.tokenAt_none]
    simp [tokenAt, h.data_eq]

theorem Pays.of_createToken (hl : env.Lawful) {k tp m authority : Pubkey} {t : TokenAccount}
    {w w' : RelayerWorld} (htp : IsTokenProgram tp) (hk : env.runtime.ata authority m tp = k)
    (hinbox : inbox ≠ authority) (ha : Ambient env w.accounts w'.accounts)
    (h : CreateSpec k tp (.token t) w w') : Pays env inbox mint w.accounts w'.accounts := by
  refine .of_others ha h.others ?_ ?_ ?_
  · rw [h.was_system]
    exact hl.nttMint_none (.inr (.inl rfl))
  · rw [h.owner_eq]
    exact hl.nttMint_none (.inr (.inr htp))
  · intro hkey
    exact absurd (hl.address.ata_inj (hkey.trans hk.symm)).1 hinbox

theorem Pays.of_write (hl : env.Lawful) {k : Pubkey} {d : RelayerData} {w : RelayerWorld}
    (ho : (w.accounts k).owner = programId) :
    Pays env inbox mint w.accounts (writeAccount k d w).accounts := by
  have hnone : env.nttMint programId = none := hl.nttMint_none (.inl rfl)
  refine .of_others (k := k) (ambient_of_write hl ho) ?_ (by rwa [ho]) ?_ ?_
  · intro j hj
    exact .of_eq (by simp [writeAccount, World.setAccount, hj])
  · simpa [writeAccount, World.setAccount, ho] using hnone
  · intro _
    have hnot : ¬ IsTokenProgram programId := by decide
    simp [tokenAt, writeAccount, World.setAccount, ho, hnot]

theorem Pays.of_close (hl : env.Lawful) {k dest : Pubkey} {w : RelayerWorld}
    (ho : (w.accounts k).owner = programId) :
    Pays env inbox mint w.accounts (closeAccount k dest w).accounts := by
  have hnone : env.nttMint systemProgram = none := hl.nttMint_none (.inr (.inl rfl))
  have howner : ((closeAccount k dest w).accounts k).owner = systemProgram := by
    simp [closeAccount, Account.absent]
  refine .of_others (k := k) (ambient_of_close hl ho) (fun j hj => closeAccount_others w hj)
    (by rw [ho]; exact hl.nttMint_none (.inl rfl)) (by rwa [howner]) ?_
  intro _
  have hnot : ¬ IsTokenProgram programId := by decide
  have hsys : ¬ IsTokenProgram systemProgram := by decide
  simp [tokenAt, howner, ho, hnot, hsys]

theorem releasedTo_setToken (hl : env.Lawful) {k : Pubkey} {t : TokenAccount}
    (ht : tokenAt a k = some t) (t' : TokenAccount) (j : Pubkey) :
    releasedTo env inbox mint (setToken a k t') j = releasedTo env inbox mint a j := by
  by_cases hj : j = k
  · have hnone := hl.nttMint_none (.inr (.inr (tokenAt_eq_some.mp ht).1))
    rw [hj, releasedTo_of_not_manager hnone, releasedTo_of_not_manager (by simpa using hnone)]
  · exact releasedTo_congr (.of_eq (setToken_of_ne a t' hj))

/-- A deposit, into this account or another. -/
theorem Pays.of_setToken (hl : env.Lawful) {k : Pubkey} {t t' : TokenAccount}
    (ht : tokenAt a k = some t) (hg : t.Guarded t') : Pays env inbox mint a (setToken a k t') := by
  have ha : Ambient env a (setToken a k t') := ambient_of_setToken hl ht hg.mint
  have htp := (tokenAt_eq_some.mp ht).1
  have hitems : ∀ j, releasedTo env inbox mint (setToken a k t') j =
      releasedTo env inbox mint a j := releasedTo_setToken hl ht t'
  by_cases hk : inboxAta env.runtime inbox mint = k
  · have hself := tokenAt_setToken_self t' htp
    subst hk
    refine ⟨ha, ?_, ?_⟩
    · intro hlock u hu
      obtain rfl := Option.some.inj (hself.symm.trans hu)
      exact (guarded_locked (hlock t ht) hg).1
    · intro _ hlock S
      have hle := (guarded_locked (hlock t ht) hg).2
      have hsum : ∑ j ∈ S, releasedTo env inbox mint (setToken a _ t') j =
          ∑ j ∈ S, releasedTo env inbox mint a j := Finset.sum_congr rfl (fun j _ => hitems j)
      rw [hsum, balance_of_tokenAt ht, balance_of_tokenAt hself]
      omega
  · exact .of_same ha hitems (tokenAt_setToken_of_ne a t' hk)

end

/-! ## Steps the inbox does not sign -/

/-- The transaction carries a signature of `k`. -/
def Action.SignedBy (k : Pubkey) : Action → Prop
  | .receive ctx _ _ | .swap ctx _ _ | .send ctx _ _ | .refund ctx _ _ =>
    ∃ m ∈ ctx.remaining, m.pubkey = k ∧ m.isSigner = true
  | .external ix => ix.Signs k
  | _ => False

theorem userInbox_ne_authority {env : Env} (hl : env.Lawful) {userWallet authority : Pubkey}
    {minSwapOut : UInt64} {bump : UInt8} (h : env.runtime.createProgramAddress
      ([relayerSeed] ++ [[bump]]) programId = some authority) :
    authority ≠ userInbox env.runtime userWallet minSwapOut :=
  authority_ne_userInbox hl.address userWallet minSwapOut h

theorem userInbox_derived {env : Env} (hl : env.Lawful) (userWallet : Pubkey)
    (minSwapOut : UInt64) : ∃ seeds, env.runtime.createProgramAddress seeds programId =
      some (userInbox env.runtime userWallet minSwapOut) :=
  ⟨_, hl.address.create_find (userInboxSeeds userWallet minSwapOut) programId⟩

section

variable {inbox : Pubkey} {all accs : List AccountMeta}

/-- Forwarded accounts carry no signature but the authority's. -/
theorem not_signs_forwardMetas {authority : Option Pubkey} (p : Pubkey) (data : Bytes)
    (h : ¬ ∃ m ∈ all, m.pubkey = inbox ∧ m.isSigner = true) (hsub : accs ⊆ all)
    (hauth : authority ≠ some inbox) :
    ¬ Instruction.Signs ⟨p, forwardMetas accs authority, data⟩ inbox := by
  rintro ⟨m, hm, hkey, hsigner⟩
  simp only [forwardMetas, List.mem_map] at hm
  obtain ⟨m', hm', rfl⟩ := hm
  simp only [Bool.or_eq_true, decide_eq_true_eq] at hsigner
  rcases hsigner with hsigner | heq
  · exact h ⟨m', hsub hm', hkey, hsigner⟩
  · rw [show m'.pubkey = inbox from hkey] at heq
    exact hauth heq

theorem not_signs_of_authority {p authority : Pubkey} {metas : List AccountMeta} {data : Bytes}
    (hmetas : ∀ m ∈ metas, m.isSigner = true → m.pubkey = authority) (hauth : authority ≠ inbox) :
    ¬ Instruction.Signs ⟨p, metas, data⟩ inbox := by
  rintro ⟨m, hm, hkey, hsigner⟩
  exact hauth ((hmetas m hm hsigner).symm.trans hkey)

end

/-! ## Swap, send and refund -/

section

variable {env : Env} {inbox mint : Pubkey} {ctx : Context} {accs : SwapAccounts}
variable {loaded : FlowLoaded}
variable (hl : env.Lawful) (hi : InboxLaws env)
variable (hinbox : ∃ seeds, env.runtime.createProgramAddress seeds programId = some inbox)

include hl hi hinbox

theorem Skimmed.pays {fee : UInt64} {w w' : RelayerWorld} (htp : IsTokenProgram accs.tokenProgram)
    (hauth : accs.relayerAuthority ≠ inbox) (h : Skimmed env.runtime accs loaded fee w w') :
    Pays env inbox mint w.accounts w'.accounts := by
  rcases h with ⟨-, rfl⟩ | h
  · exact .refl env inbox mint _
  · refine .of_call hl hi hinbox (ne_programId_of_isTokenProgram htp) ?_ h
    exact not_signs_of_authority (by simp) hauth

theorem InputSkimmed.pays {swapIn fee : UInt64} {w w' : RelayerWorld}
    (htp : IsTokenProgram accs.tokenProgram) (hauth : accs.relayerAuthority ≠ inbox)
    (h : InputSkimmed env.runtime accs loaded swapIn fee w w') :
    Pays env inbox mint w.accounts w'.accounts := by
  have hfee := h.fee
  cases hd : loaded.flow.direction with
  | deposit =>
      simp only [hd] at hfee
      rw [hfee.2]
      exact .refl env inbox mint _
  | withdraw =>
      simp only [hd] at hfee
      exact hfee.2.pays hl hi hinbox htp hauth

theorem OutputSkimmed.pays {out feeBefore netOut fee : UInt64} {w w' : RelayerWorld}
    (htp : IsTokenProgram accs.tokenProgram) (hauth : accs.relayerAuthority ≠ inbox)
    (h : OutputSkimmed env.runtime accs loaded out feeBefore netOut fee w w') :
    Pays env inbox mint w.accounts w'.accounts := by
  have hout := h.outcome
  cases hd : loaded.flow.direction with
  | deposit =>
      simp only [hd] at hout
      exact hout.2.2.2.pays hl hi hinbox htp hauth
  | withdraw =>
      simp only [hd] at hout
      rw [hout.2.2]
      exact .refl env inbox mint _

theorem DelegatesPrepared.pays {swapIn : UInt64} {w w₁ w₂ w₃ : RelayerWorld}
    (htp : IsTokenProgram accs.tokenProgram) (hauth : accs.relayerAuthority ≠ inbox)
    (h : DelegatesPrepared env.runtime accs loaded swapIn w w₁ w₂ w₃) :
    Pays env inbox mint w.accounts w₃.accounts := by
  have hne := ne_programId_of_isTokenProgram htp
  have hbase : Pays env inbox mint w.accounts w₁.accounts :=
    .of_call hl hi hinbox hne (not_signs_of_authority (by simp) hauth) h.revoke_base
  have hasset : Pays env inbox mint w₁.accounts w₂.accounts :=
    .of_call hl hi hinbox hne (not_signs_of_authority (by simp) hauth) h.revoke_asset
  rcases h.approve with rfl | happrove
  · exact hbase.trans hasset
  · refine (hbase.trans hasset).trans (.of_call hl hi hinbox hne ?_ happrove)
    exact not_signs_of_authority (by simp) hauth

theorem SwapSpec.pays {data : Bytes} {w w' : RelayerWorld}
    {swapIn feeBefore out netOut fee : UInt64} {w₁ w₂ w₃ : RelayerWorld}
    (hsign : ¬ (Action.swap ctx accs data).SignedBy inbox) (hauth : accs.relayerAuthority ≠ inbox)
    (h : SwapSpec env.runtime ctx accs data w w' loaded swapIn feeBefore out netOut fee
      w₁ w₂ w₃) : Pays env inbox mint w.accounts w'.accounts := by
  have htp := h.load.token_program
  obtain ⟨_, _, _, _, _, _, _, hm⟩ := h.measured
  have hrouter : Pays env inbox mint w₁.accounts w₂.accounts := by
    refine (hm.prepared.pays hl hi hinbox htp hauth).trans
      (.of_call hl hi hinbox h.router_ne ?_ hm.router)
    exact not_signs_forwardMetas _ _ hsign (List.Subset.refl _) (by simpa using hauth)
  have hflow := owner_of_programAt (programAt_of_flowAt h.load.flow_at)
  have howner := (quiet_of_calls hl h.calls).owner_eq hflow
  rw [h.result]
  exact (((h.input.pays hl hi hinbox htp hauth).trans hrouter).trans
    (h.output.pays hl hi hinbox htp hauth)).trans (.of_write hl howner)

theorem OutboundSpec.pays {accs : OutboundAccounts} {count : UInt8} {w w' : RelayerWorld}
    {nttProgram fromAta : Pubkey} {event : Event} {w₁ w₂ w₃ : RelayerWorld}
    (hsign : ¬ ∃ m ∈ ctx.remaining, m.pubkey = inbox ∧ m.isSigner = true)
    (hauth : accs.relayerAuthority ≠ inbox) (hp : nttProgram ≠ programId)
    (h : OutboundSpec env.runtime ctx accs count w w' loaded nttProgram fromAta event w₁ w₂ w₃) :
    Pays env inbox mint w.accounts w'.accounts := by
  have htp := h.load.token_program
  have happrove : Pays env inbox mint w.accounts w₁.accounts :=
    .of_call hl hi hinbox (ne_programId_of_isTokenProgram htp)
      (not_signs_of_authority (by simp) hauth) h.bridged.approve
  have hlock : Pays env inbox mint w₁.accounts w₂.accounts :=
    .of_call hl hi hinbox hp (not_signs_forwardMetas _ _ hsign (List.take_subset _ _)
      (by simpa using hauth)) h.bridged.lock
  have hpublish : Pays env inbox mint w₂.accounts w₃.accounts :=
    .of_call hl hi hinbox hp (not_signs_forwardMetas _ _ hsign (List.drop_subset _ _)
      (by simp)) h.bridged.publish
  have hflow := owner_of_programAt (programAt_of_flowAt h.load.flow_at)
  have howner := (quiet_of_calls hl (h.bridged.calls htp hp)).owner_eq hflow
  rw [h.result]
  exact ((happrove.trans hlock).trans hpublish).trans
    (.of_close hl (w := w₃.emit event) howner)

end

/-! ## Receive -/

section

variable {env : Env} {inbox mint : Pubkey} {ctx : Context} {accs : ReceiveAccounts}
variable {args : ReceiveArgs} {w w' : RelayerWorld} {c : PairConfig} {m : Mint} {bump : UInt8}
variable {w₀ w₁ w₂ : RelayerWorld} {item : InboxItem} {held : TokenAccount}

theorem ReceiveSpec.inbox_eq
    (h : ReceiveSpec env.runtime ctx accs args w w' c m bump w₀ w₁ w₂ item held) :
    accs.userInboxAuthority = userInbox env.runtime accs.userWallet args.minSwapOut := by
  obtain ⟨_, hchecks⟩ := h.checks
  exact hchecks.inbox_authority

/-- The sweep, account by account. -/
theorem ReceiveSpec.transferSpec (hl : env.Lawful)
    (h : ReceiveSpec env.runtime ctx accs args w w' c m bump w₀ w₁ w₂ item held) :
    accs.userInboxAta ≠ accs.recvAta ∧ ∃ s s' d, TransferSpec accs.tokenProgram accs.userInboxAta
      accs.recvMint accs.recvAta item.amount w₁.accounts w₂.accounts s s' d := by
  obtain ⟨_, hrecv⟩ := h.recv_ata
  obtain ⟨_, huser⟩ := h.user_ata
  have hne : accs.userInboxAta ≠ accs.recvAta := by
    rw [← hrecv.address, ← huser.address, h.inbox_eq]
    intro heq
    exact userInbox_ne_authority hl h.authority (hl.address.ata_inj heq).1.symm
  have hcall := h.swept.transfer.invoked
  rw [hl.token.transferChecked _ _ _ _ _ _ _ _ h.token_program] at hcall
  exact ⟨hne, transferChecked_spec hne hcall⟩

/-- The relayer's own account is not the inbox's. -/
theorem ReceiveSpec.recvAta_ne (hl : env.Lawful) (hauth : accs.relayerAuthority ≠ inbox)
    (h : ReceiveSpec env.runtime ctx accs args w w' c m bump w₀ w₁ w₂ item held) :
    inboxAta env.runtime inbox mint ≠ accs.recvAta := by
  obtain ⟨_, hrecv⟩ := h.recv_ata
  rw [← hrecv.address]
  intro heq
  exact hauth (hl.address.ata_inj heq).1.symm

/-- Up to the sweep. -/
theorem ReceiveSpec.pays_released (hl : env.Lawful) (hi : InboxLaws env)
    (hinbox : ∃ seeds, env.runtime.createProgramAddress seeds programId = some inbox)
    (hsign : ¬ (Action.receive ctx accs args).SignedBy inbox)
    (hauth : accs.relayerAuthority ≠ inbox) (hp : c.receiveNttProgram args.direction ≠ programId)
    (h : ReceiveSpec env.runtime ctx accs args w w' c m bump w₀ w₁ w₂ item held) :
    Pays env inbox mint w.accounts w₁.accounts := by
  have hcreate : Pays env inbox mint w.accounts w₀.accounts := .of_create hl h.created
  rcases redeemAndRelease_spec h.released with ⟨-, hw₁⟩ | ⟨-, wr, hr⟩
  · rw [hw₁]
    exact hcreate
  · have hredeem : Pays env inbox mint w₀.accounts wr.accounts :=
      .of_call hl hi hinbox hp (not_signs_forwardMetas _ _ hsign (List.take_subset _ _)
        (by simpa using hauth)) hr.redeem
    have hrelease : Pays env inbox mint wr.accounts w₁.accounts :=
      .of_call hl hi hinbox hp (not_signs_forwardMetas _ _ hsign (List.drop_subset _ _)
        (by simpa using hauth)) hr.release
    exact (hcreate.trans hredeem).trans hrelease

theorem ReceiveSpec.releasedTo_swept (hl : env.Lawful)
    (h : ReceiveSpec env.runtime ctx accs args w w' c m bump w₀ w₁ w₂ item held) (k : Pubkey) :
    releasedTo env inbox mint w₂.accounts k = releasedTo env inbox mint w₁.accounts k := by
  obtain ⟨hne, s, s', d, hspec⟩ := h.transferSpec hl
  have hdest : tokenAt (setToken w₁.accounts accs.userInboxAta s') accs.recvAta = some d := by
    rw [tokenAt_setToken_of_ne _ _ hne.symm]
    exact hspec.dest_at
  rw [hspec.result, releasedTo_setToken hl hdest, releasedTo_setToken hl hspec.source_at]

/-- The sweep of another account. -/
theorem ReceiveSpec.pays_swept (hl : env.Lawful) (hauth : accs.relayerAuthority ≠ inbox)
    (hata : accs.userInboxAta ≠ inboxAta env.runtime inbox mint)
    (h : ReceiveSpec env.runtime ctx accs args w w' c m bump w₀ w₁ w₂ item held) :
    Pays env inbox mint w₁.accounts w₂.accounts := by
  obtain ⟨hne, s, s', d, hspec⟩ := h.transferSpec hl
  refine .of_same (ambient_of_invoke hl h.swept.transfer.invoked) (h.releasedTo_swept hl) ?_
  rw [hspec.result, tokenAt_setToken_of_ne _ _ (h.recvAta_ne hl hauth),
    tokenAt_setToken_of_ne _ _ hata.symm]

/-- The receipt. -/
theorem ReceiveSpec.pays_written (hl : env.Lawful)
    (hp : c.receiveNttProgram args.direction ≠ programId)
    (h : ReceiveSpec env.runtime ctx accs args w w' c m bump w₀ w₁ w₂ item held) :
    Pays env inbox mint w₂.accounts w'.accounts := by
  have howner := (quiet_of_calls hl (h.calls hp)).owner_eq h.created.owner_eq
  rw [h.result]
  exact .of_write hl howner

/-- The sweep of the inbox's own account: it stays locked and loses the item's amount. -/
theorem ReceiveSpec.swept_inbox (hl : env.Lawful) (hauth : accs.relayerAuthority ≠ inbox)
    (hata : accs.userInboxAta = inboxAta env.runtime inbox mint)
    (hlock : Locked env inbox mint w₁.accounts)
    (h : ReceiveSpec env.runtime ctx accs args w w' c m bump w₀ w₁ w₂ item held) :
    Locked env inbox mint w₂.accounts ∧
      balance w₂.accounts (inboxAta env.runtime inbox mint) + item.amount.toNat =
        balance w₁.accounts (inboxAta env.runtime inbox mint) := by
  obtain ⟨hne, s, s', d, hspec⟩ := h.transferSpec hl
  have hs := hspec.source_at
  have hs' : tokenAt w₂.accounts (inboxAta env.runtime inbox mint) = some s' := by
    rw [hspec.result, tokenAt_setToken_of_ne _ _ (h.recvAta_ne hl hauth), hata]
    apply tokenAt_setToken_self
    rw [← hata]
    exact (tokenAt_eq_some.mp hs).1
  rw [hata] at hs
  obtain ⟨howner, hnone, hclose⟩ := hlock s hs
  refine ⟨?_, ?_⟩
  · intro t ht
    obtain rfl := Option.some.inj (hs'.symm.trans ht)
    refine ⟨hspec.same_owner.trans howner, ?_, hspec.same_close.trans hclose⟩
    have hle := UInt64.le_iff_toNat_le.mp hspec.delegated
    rw [hnone, UInt64.toNat_zero] at hle
    exact UInt64.toNat_inj.mp (Nat.le_zero.mp hle)
  · rw [balance_of_tokenAt hs, balance_of_tokenAt hs']
    exact hspec.debited

end

/-! ## Every step -/

/-- A `receive` of the item at `k`. -/
def Action.takes (k : Pubkey) : Action → Bool
  | .receive _ accs _ => decide (accs.nttInboxItem = k)
  | _ => false

/-- The item at `k` has been received. -/
def taken (ts : List RelayerTransition) (k : Pubkey) : Bool := ts.any (fun tr => tr.act.takes k)

theorem taken_snoc (ts : List RelayerTransition) (tr : RelayerTransition) (k : Pubkey) :
    taken (ts ++ [tr]) k = (taken ts k || tr.act.takes k) := by
  simp [taken]

theorem taken_append (ts us : List RelayerTransition) (k : Pubkey) :
    taken (ts ++ us) k = (taken ts k || taken us k) := by
  simp [taken]

/-- Everything that was released to the inbox, and that nobody has received, is in its account. -/
structure Held (env : Env) (inbox mint : Pubkey) (ts : List RelayerTransition)
    (a : RelayerAccounts) : Prop where
  locked : Locked env inbox mint a
  backed : Backed (unsettled (taken ts) (releasedTo env inbox mint a)) 0
    (balance a (inboxAta env.runtime inbox mint))

theorem Held.of_pays {env : Env} {inbox mint : Pubkey} {ts ts' : List RelayerTransition}
    {a a' : RelayerAccounts} (h : Held env inbox mint ts a) (hp : Pays env inbox mint a a')
    (hclassic : Classic mint a') (hmore : ∀ k, taken ts k = true → taken ts' k = true) :
    Held env inbox mint ts' a' :=
  ⟨hp.locked h.locked, (h.backed.unsettled_paid (hp.paid hclassic h.locked)).settle hmore⟩

/-- The item of this `receive` is released, or its time has come. -/
def PaidOut (env : Env) (w : RelayerWorld) (accs : ReceiveAccounts) (args : ReceiveArgs) : Prop :=
  ∃ c m, pairConfigAt w.accounts accs.pairConfig = some c ∧
    TransceiverMessage.decode (w.accounts accs.nttTransceiverMessage).bytes = some m ∧
    ((∃ i, inboxItemAt (c.receiveNttProgram args.direction) w.accounts accs.nttInboxItem =
        some i ∧ i.releaseStatus = .released) ∨
      releaseTime env (c.receiveNttProgram args.direction) w m ≤ w.clock.unixTimestamp)

/-- A `receive` out of the account of `inbox` takes what its own item was paid: the item is paid
out, and has not been received before. -/
def TakesOwn (env : Env) (inbox mint : Pubkey) (before : List RelayerTransition)
    (tr : RelayerTransition) : Prop :=
  ∀ ctx accs args, tr.act = .receive ctx accs args →
    accs.userInboxAta = inboxAta env.runtime inbox mint →
    taken before accs.nttInboxItem = false ∧ PaidOut env tr.pre accs args

section

variable {env : Env} {inbox mint : Pubkey} {ts : List RelayerTransition}
variable {w w' : RelayerWorld} {ctx : Context} {accs : ReceiveAccounts} {args : ReceiveArgs}
variable (hl : env.Lawful) (hi : InboxLaws env)
variable (hinbox : ∃ seeds, env.runtime.createProgramAddress seeds programId = some inbox)

include hl hi hinbox

theorem held_receive {c : PairConfig} {m : Mint} {bump : UInt8} {w₀ w₁ w₂ : RelayerWorld}
    {item : InboxItem} {held : TokenAccount}
    (hsign : ¬ (Action.receive ctx accs args).SignedBy inbox)
    (hauth : accs.relayerAuthority ≠ inbox)
    (hmanager : env.nttMint (c.receiveNttProgram args.direction) = some accs.recvMint)
    (hclassic : Classic mint w'.accounts)
    (hown : TakesOwn env inbox mint ts ⟨w, .receive ctx accs args, w'⟩)
    (h : ReceiveSpec env.runtime ctx accs args w w' c m bump w₀ w₁ w₂ item held)
    (hheld : Held env inbox mint ts w.accounts) :
    Held env inbox mint (ts ++ [⟨w, .receive ctx accs args, w'⟩]) w'.accounts := by
  have hp : (env.nttMint (c.receiveNttProgram args.direction)).isSome := by rw [hmanager]; rfl
  have hne := hl.ntt_ne_programId hp
  have hmore : ∀ k, taken ts k = true →
      taken (ts ++ [⟨w, .receive ctx accs args, w'⟩]) k = true := by
    intro k hk
    rw [taken_append, hk, Bool.true_or]
  have hreleased : Pays env inbox mint w.accounts w₁.accounts :=
    h.pays_released hl hi hinbox hsign hauth hne
  have hwritten : Pays env inbox mint w₂.accounts w'.accounts := h.pays_written hl hne
  by_cases hata : accs.userInboxAta = inboxAta env.runtime inbox mint
  · -- what leaves the account is what its own item was paid
    have hclassic₂ := hclassic.of_ambient hwritten.ambient
    have hclassic₁ := hclassic₂.of_ambient (ambient_of_invoke hl h.swept.transfer.invoked)
    have hw₁ : Held env inbox mint ts w₁.accounts :=
      hheld.of_pays hreleased hclassic₁ (fun _ hk => hk)
    obtain ⟨hfresh, c', n, hc', hn, hdue⟩ := hown ctx accs args rfl hata
    obtain ⟨_, huser⟩ := h.user_ata
    obtain ⟨hrecipient, hmint, -⟩ := hl.address.ata_inj (huser.address.trans hata)
    obtain ⟨n', hmessage, htaken⟩ := receive_item hl hp h
    obtain rfl := Option.some.inj (h.config_at.symm.trans hc')
    obtain rfl := Option.some.inj (hmessage.message.symm.trans hn)
    have hclaim : releasedTo env inbox mint w₁.accounts accs.nttInboxItem =
        item.amount.toNat := by
      rw [releasedTo_of_item hmanager htaken.item_at, if_pos]
      exact ⟨hmint, htaken.released_iff.mpr hdue, h.swept.recipient.trans hrecipient⟩
    obtain ⟨hlock, hbalance⟩ := h.swept_inbox hl hauth hata hw₁.locked
    have hw₂ : Held env inbox mint (ts ++ [⟨w, .receive ctx accs args, w'⟩]) w₂.accounts := by
      refine ⟨hlock, hw₁.backed.update accs.nttInboxItem ?_ ?_⟩
      · intro k hk
        have htakes : (Action.receive ctx accs args).takes k = false := by
          simpa [Action.takes] using Ne.symm hk
        simp only [unsettled, taken_snoc, htakes, Bool.or_false, h.releasedTo_swept hl k]
      · have htakes : (Action.receive ctx accs args).takes accs.nttInboxItem = true := by
          simp [Action.takes]
        simp only [unsettled, taken_snoc, htakes, hfresh, Bool.or_true, hclaim, if_true]
        simp only [Bool.false_eq_true, if_false]
        omega
    exact hw₂.of_pays hwritten hclassic (fun _ hk => hk)
  · exact hheld.of_pays ((hreleased.trans (h.pays_swept hl hauth hata)).trans hwritten) hclassic
      hmore

/-- Everything but a `receive` only pays in. -/
theorem Effect.pays {act : Action} (hauth : ∀ authority bump, env.runtime.createProgramAddress
      ([relayerSeed] ++ [[bump]]) programId = some authority → authority ≠ inbox)
    (hp : Pinned env w) (hsign : ¬ act.SignedBy inbox)
    (hact : ∀ ctx accs args, act ≠ .receive ctx accs args) (h : Effect env w act w') :
    Pays env inbox mint w.accounts w'.accounts := by
  cases h with
  | bootstrap hs _ =>
      rw [hs.result]
      exact (Pays.of_create hl hs.created).trans (.of_write hl hs.created.owner_eq)
  | initializePair hs _ _ _ =>
      have hcreate := hl.address.create_find [relayerSeed] programId
      rw [hs.authority] at hcreate
      have hne := (hauth _ _ hcreate).symm
      have hbase := ambient_of_createToken hl hs.base_address hs.base_program hs.base_created
      have hasset := ambient_of_createToken hl hs.asset_address hs.asset_program hs.asset_created
      have hq := (quiet_of_createSpec hs.base_created).trans (quiet_of_createSpec hs.asset_created)
      rw [hs.result]
      exact (((Pays.of_create hl hs.created).trans
        (.of_createToken hl hs.token_program hs.base_address hne hbase hs.base_created)).trans
        (.of_createToken hl hs.token_program hs.asset_address hne hasset hs.asset_created)).trans
        (.of_write hl (hq.owner_eq hs.created.owner_eq))
  | setAdmin hs hc | acceptAdmin hs hc | configure hs hc | acceptAuthority hs hc =>
      rw [hs.result]
      exact .of_write hl (owner_of_programAt hc.before_eq)
  | @receive ctx accs args _ _ _ _ _ _ _ _ _ => exact absurd rfl (hact ctx accs args)
  | swap hs _ => exact hs.pays hl hi hinbox hsign (hauth _ _ hs.load.authority)
  | send _ hs _ =>
      exact hs.pays hl hi hinbox hsign (hauth _ _ hs.load.authority)
        (hl.ntt_ne_programId (hp.sendNttProgram hs.load.config_at _))
  | refund _ _ hs _ =>
      exact hs.pays hl hi hinbox hsign (hauth _ _ hs.load.authority)
        (hl.ntt_ne_programId (hp.receiveNttProgram hs.load.config_at _))
  | external _ hne hinvoke _ => exact .of_invoke hl hi hinbox hne hsign hinvoke
  | deposit ht hroom ha _ =>
      rw [ha]
      refine .of_setToken hl ht ⟨rfl, rfl, rfl, UInt64.le_refl _, ?_⟩
      dsimp only
      rw [UInt64.toNat_add, Nat.mod_eq_of_lt hroom]
      omega
  | tick _ ha _ =>
      rw [ha]
      exact .refl env inbox mint _

end

/-- One step keeps the inbox covered, if it takes its own. -/
theorem held_step {env : Env} (hl : env.Lawful) (hi : InboxLaws env) {w₀ w w' : RelayerWorld}
    {ts : List RelayerTransition} {act : Action} {userWallet mint : Pubkey} {minSwapOut : UInt64}
    (hg : Genesis env w₀) (hr : RelayerRun env w₀ ts w) (hmanagers : ∀ tr ∈ ts, OwnManagers env tr)
    (hstep : Step env w act w') (hclassic : Classic mint w'.accounts)
    (hsign : ¬ act.SignedBy (userInbox env.runtime userWallet minSwapOut))
    (hown : TakesOwn env (userInbox env.runtime userWallet minSwapOut) mint ts ⟨w, act, w'⟩)
    (hheld : Held env (userInbox env.runtime userWallet minSwapOut) mint ts w.accounts) :
    Held env (userInbox env.runtime userWallet minSwapOut) mint (ts ++ [⟨w, act, w'⟩])
      w'.accounts := by
  have hpin := (run_effects hl hg.pinned hr).1
  have hinbox := userInbox_derived hl userWallet minSwapOut
  have he := hstep.effect hl hpin
  by_cases hact : ∃ ctx accs args, act = .receive ctx accs args
  · obtain ⟨ctx, accs, args, rfl⟩ := hact
    cases he with
    | receive hs _ =>
        obtain ⟨_, hchecks⟩ := hs.checks
        have hmanager := manager_mint hl hg hr hmanagers hs.config_at args.direction
        rw [← hchecks.mint] at hmanager
        exact held_receive hl hi hinbox hsign (userInbox_ne_authority hl hs.authority) hmanager
          hclassic hown hs hheld
  · refine hheld.of_pays (he.pays hl hi hinbox
      (fun _ _ hcreate => userInbox_ne_authority hl hcreate) hpin hsign
      (fun ctx accs args heq => hact ⟨ctx, accs, args, heq⟩)) hclassic ?_
    intro k hk
    rw [taken_append, hk, Bool.true_or]

/-- A run in which every `receive` out of the account takes its own keeps the inbox covered. -/
theorem run_held {env : Env} (hl : env.Lawful) (hi : InboxLaws env) {w₀ w : RelayerWorld}
    {ts : List RelayerTransition} {userWallet mint : Pubkey} {minSwapOut : UInt64}
    (hg : Genesis env w₀) (hr : RelayerRun env w₀ ts w) (hmanagers : ∀ tr ∈ ts, OwnManagers env tr)
    (hclassic : Classic mint w.accounts)
    (hsign : ∀ tr ∈ ts, ¬ tr.act.SignedBy (userInbox env.runtime userWallet minSwapOut))
    (hown : ∀ before tr after, ts = before ++ tr :: after →
      TakesOwn env (userInbox env.runtime userWallet minSwapOut) mint before tr)
    (hheld : Held env (userInbox env.runtime userWallet minSwapOut) mint [] w₀.accounts) :
    Held env (userInbox env.runtime userWallet minSwapOut) mint ts w.accounts := by
  induction hr with
  | nil => exact hheld
  | @snoc w w' act ts hr hstep ih =>
      have hlast := List.mem_append_right ts (List.mem_singleton_self (⟨w, act, w'⟩ :
        RelayerTransition))
      have hpin := (run_effects hl hg.pinned hr).1
      have hambient := (hstep.effect hl hpin).ambient hl hpin
      refine held_step hl hi hg hr (fun tr htr => hmanagers tr (List.mem_append_left _ htr)) hstep
        hclassic (hsign _ hlast) (hown ts _ [] rfl) (ih ?_ (hclassic.of_ambient hambient) ?_ ?_)
      · exact fun tr htr => hmanagers tr (List.mem_append_left _ htr)
      · exact fun tr htr => hsign tr (List.mem_append_left _ htr)
      · rintro before tr after rfl
        exact hown before tr (after ++ [⟨w, act, w'⟩]) (by simp)

end FogoYield.Relayer
