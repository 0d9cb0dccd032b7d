import FogoYield.Verification.Crossing.Reference

/-! # From the signature to the payout

What a wallet signs on FOGO is what becomes of its tokens on Solana, over all runs of both chains:
they are swapped above the signed floor and paid out to the wallet, and no signed message comes out
of the bridge twice. -/

namespace FogoYield.Crossing

open FogoYield.Library FogoYield.Solana
open FogoYield.Intent (IntentTransition SignedIntent signed_nodup walletFlow walletItem)
open FogoYield.Relayer hiding Action Step Genesis intentTransferSeed programId genesis

variable {C : Chains} {B : Bridge}

/-- From the signature to the payout. Whatever runs on the two chains, an open flow was opened for
the wallet and the floor it carries, and if it came from the intent program, a message executed
there before asked for just that. Every swap of it comes out at or above the floor, and every `send`
or `refund` of it locks exactly its amount for the wallet on FOGO. -/
theorem signed_to_payout (hl : C.Lawful) {w₀ w : ChainsWorld} (hg : C.Genesis w₀)
    {ts : List ChainsTransition} (hr : ChainsRun C w₀ ts w) (hB : Carries C B ts) :
    (∀ k f, flowAt w.2.accounts k = some f → OpenedFor C B ts k f.recipient f.minSwapOut) ∧
    ∀ before tr after, ts = before ++ tr :: after →
      (∀ ctx accs data, tr.act = .inr (.swap ctx accs data) → ∃ wallet floor,
        OpenedFor C B before accs.flow wallet floor ∧
        SwapsAbove C.solana ctx accs data wallet floor tr.pre.2 tr.post.2) ∧
      (∀ ctx accs count, tr.act = .inr (.send ctx accs count) → ∃ wallet floor,
        OpenedFor C B before accs.flow wallet floor ∧
        LocksFor PairConfig.sendNttProgram accs wallet (ts.filterMap Transition.onRight) tr.pre.2
          tr.post.2) ∧
      (∀ ctx accs count, tr.act = .inr (.refund ctx accs count) → ∃ wallet floor,
        OpenedFor C B before accs.flow wallet floor ∧
        LocksFor PairConfig.receiveNttProgram accs wallet (ts.filterMap Transition.onRight) tr.pre.2
          tr.post.2) := by
  refine ⟨fun k f hf => run_openedFor hl hg hr hB hf, ?_⟩
  rintro before tr after rfl
  obtain ⟨hbefore, hstep, -⟩ := hr.split
  have hopened : ∀ k f, flowAt tr.pre.2.accounts k = some f →
      OpenedFor C B before k f.recipient f.minSwapOut :=
    fun k f hf => run_openedFor hl hg hbefore hB.of_append hf
  have hpin := (run_effects hl.solana hg.solana.pinned hbefore.onRight).1
  refine ⟨?_, ?_, ?_⟩
  · intro ctx accs data hact
    rw [hact] at hstep
    have he := hstep.onRight.effect hl.solana hpin
    cases he.flowStep accs.flow with
    | kept hkey _ => simp [Relayer.Action.flowKey] at hkey
    | swapped _ hs hpre hpost =>
        exact ⟨_, _, hopened _ _ hpre, swapsAbove_of_spec hl.solana hs hpost⟩
  · intro ctx accs count hact
    rw [hact] at hstep
    have he := hstep.onRight.effect hl.solana hpin
    rw [List.filterMap_append, List.filterMap_cons_some (by rw [Transition.onRight, hact])]
    cases he.flowStep accs.flow with
    | kept hkey _ => simp [Relayer.Action.flowKey] at hkey
    | sent _ _ hs hpre hpost =>
        exact ⟨_, _, hopened _ _ hpre, locksFor_of_spec hl.solana hg.solana hbefore.onRight hs⟩
  · intro ctx accs count hact
    rw [hact] at hstep
    have he := hstep.onRight.effect hl.solana hpin
    rw [List.filterMap_append, List.filterMap_cons_some (by rw [Transition.onRight, hact])]
    cases he.flowStep accs.flow with
    | kept hkey _ => simp [Relayer.Action.flowKey] at hkey
    | refunded _ _ _ hs hpre hpost =>
        exact ⟨_, _, hopened _ _ hpre, locksFor_of_spec hl.solana hg.solana hbefore.onRight hs⟩

/-- The wallet's bridge comes out of the swap above the floor it signed. -/
theorem signed_to_payout_reference :
    ∃ before received swapped sent w, WalletRun before received swapped sent w ∧
      ∃ wallet floor,
        OpenedFor referenceChains referenceBridge (before ++ [received]) walletFlow wallet floor ∧
        SwapsAbove referenceChains.solana walletSwapContext walletSwapAccounts walletSwapData wallet
          floor swapped.pre.2 swapped.post.2 := by
  obtain ⟨before, received, swapped, sent, w, h⟩ := wallet_run
  obtain ⟨-, hsteps⟩ :=
    signed_to_payout referenceChains_lawful chainsGenesis_ok h.run h.carries
  obtain ⟨hswap, -, -⟩ := hsteps (before ++ [received]) swapped [sent] (by simp)
  exact ⟨before, received, swapped, sent, w, h, hswap _ _ _ h.swapped_act⟩

/-! ## One item for one message -/

/-- The signed message that a `receive` is for: executed on FOGO in `before`, burned there, and
validated by the manager that keeps `item` for it. -/
def ReceivesSigned (C : Chains) (B : Bridge) (before : List ChainsTransition)
    (tr : ChainsTransition) (item : Pubkey) (signed : SignedIntent) : Prop :=
  ∃ accs manager m i b e, Receives tr accs manager m i ∧ accs.nttInboxItem = item ∧
    Validated C tr accs manager m ∧ (bridges before)[B.origin manager m]? = some b ∧
    b.act.executed C.crates = some e ∧ e.signed = signed

theorem bridges_append (ts us : List ChainsTransition) :
    bridges (ts ++ us) = bridges ts ++ bridges us := by
  simp [bridges]

/-- The bridges of a beginning are the first of the whole. -/
theorem bridge_of_prefix {before after : List ChainsTransition} {n : ℕ} {b : IntentTransition}
    (h : (bridges before)[n]? = some b) : (bridges (before ++ after))[n]? = some b := by
  obtain ⟨hlt, -⟩ := List.getElem?_eq_some_iff.mp h
  rw [bridges_append, List.getElem?_append_left hlt, h]

theorem executed_of_signedBy {manager : Pubkey} {f : Flow} {b : IntentTransition}
    (h : SignedBy C B manager f b) : ∃ e, b.act.executed C.crates = some e := by
  obtain ⟨ix, ctx, accs, args, signed, m, source, mint, transferArgs, hburn, -⟩ := h
  refine ⟨⟨.bridge, signed, m.nonce⟩, ?_⟩
  rw [hburn.action]
  simp [Intent.Action.executed, Intent.bridgeExecution, hburn.intent, hburn.parsed,
    Except.toOption]

theorem receivesSigned_of_receives (hl : C.Lawful) {w₀ w : ChainsWorld} (hg : C.Genesis w₀)
    {before after : List ChainsTransition} {tr : ChainsTransition}
    (hr : ChainsRun C w₀ (before ++ tr :: after) w) (hB : Carries C B (before ++ tr :: after))
    {accs : ReceiveAccounts} {manager : Pubkey} {m : TransceiverMessage} {i : InboxItem}
    (hreads : Receives tr accs manager m i) (hsender : m.sender = C.setter.bytes) :
    ∃ signed, ReceivesSigned C B before tr accs.nttInboxItem signed := by
  obtain ⟨hbefore, hstep, -⟩ := hr.split
  obtain ⟨ctx, args, c, hact, -⟩ := hreads.action
  obtain ⟨manager', m', i', f, hopens⟩ := opens_of_receive hl hg hbefore hstep hact
  obtain ⟨rfl, rfl, rfl⟩ := hreads.unique hopens.reads
  have hvalidated := hopens.validated hsender
  have hdelivered := hB.delivered tr (by simp) accs manager m i hreads hvalidated
  obtain ⟨b, hb, hsigned⟩ :=
    signed_of_delivered hl hg hbefore hdelivered hopens.amount hopens.recipient
  obtain ⟨e, he⟩ := executed_of_signedBy hsigned
  exact ⟨e.signed, accs, manager, m, i, b, e, hreads, rfl, hvalidated, hb, he, rfl⟩

/-- The program bridges a signed message once. -/
theorem bridge_of_message (hl : C.Lawful) {w₀ w : ChainsWorld} (hg : C.Genesis w₀)
    {ts : List ChainsTransition} (hr : ChainsRun C w₀ ts w) {n n' : ℕ} {b b' : IntentTransition}
    {e e' : Intent.Execution} (hb : (bridges ts)[n]? = some b) (hb' : (bridges ts)[n']? = some b')
    (he : b.act.executed C.crates = some e) (he' : b'.act.executed C.crates = some e')
    (hsigned : e.signed = e'.signed) : n = n' := by
  have hforeign := hg.fogo.foreignManagers
  have hapart := (pairwise_of_accepted (signed_nodup hl.fogo hforeign hr.onLeft)).filter
    (fun tr => tr.act.isBridge)
  rw [List.pairwise_iff_getElem] at hapart
  obtain ⟨hn, hbn⟩ := List.getElem?_eq_some_iff.mp hb
  obtain ⟨hn', hbn'⟩ := List.getElem?_eq_some_iff.mp hb'
  rw [← hbn] at he
  rw [← hbn'] at he'
  rcases lt_trichotomy n n' with hlt | heq | hlt
  · exact absurd hsigned (hapart _ _ hn hn' hlt e e' he he')
  · exact heq
  · exact absurd hsigned.symm (hapart _ _ hn' hn hlt e' e he' he)

/-- Every message of the intent program is received for a signed message that was executed on FOGO
before, and one signed message is received as one inbox item, whatever the order of the steps and
however often it is received. -/
theorem one_item_per_message (hl : C.Lawful) {w₀ w : ChainsWorld} (hg : C.Genesis w₀)
    {ts : List ChainsTransition} (hr : ChainsRun C w₀ ts w) (hB : Carries C B ts) :
    (∀ before tr after, ts = before ++ tr :: after → ∀ accs manager m i,
      Receives tr accs manager m i → m.sender = C.setter.bytes →
        ∃ signed, ReceivesSigned C B before tr accs.nttInboxItem signed) ∧
    ∀ before tr after before' tr' after', ts = before ++ tr :: after →
      ts = before' ++ tr' :: after' → ∀ item item' signed,
        ReceivesSigned C B before tr item signed → ReceivesSigned C B before' tr' item' signed →
          item = item' := by
  constructor
  · rintro before tr after rfl accs p m i hreads hsender
    exact receivesSigned_of_receives hl hg hr hB hreads hsender
  · rintro before tr after before' tr' after' hts hts' item item' signed
      ⟨accs, p, m, i, b, e, hreads, rfl, hvalidated, hb, he, hes⟩
      ⟨accs', p', m', i', b', e', hreads', rfl, hvalidated', hb', he', hes'⟩
    have horigin : B.origin p m = B.origin p' m' :=
      bridge_of_message hl hg hr (hts ▸ bridge_of_prefix hb) (hts' ▸ bridge_of_prefix hb') he he'
        (hes.trans hes'.symm)
    obtain ⟨rfl, rfl⟩ := hB.once tr (hts ▸ by simp) tr' (hts' ▸ by simp) accs accs' p p' m m' i i'
      hreads hreads' hvalidated hvalidated' horigin
    -- one message under one manager: `receive` has derived the same address both times
    exact hvalidated.address.trans hvalidated'.address.symm

theorem one_item_per_message_reference :
    ∃ before received swapped sent w, WalletRun before received swapped sent w ∧
      ∃ signed, ReceivesSigned referenceChains referenceBridge before received walletItem signed ∧
        ∀ before' tr after', before ++ [received, swapped, sent] = before' ++ tr :: after' →
          ∀ item, ReceivesSigned referenceChains referenceBridge before' tr item signed →
            item = walletItem := by
  obtain ⟨before, received, swapped, sent, w, h⟩ := wallet_run
  obtain ⟨hsigned, hone⟩ :=
    one_item_per_message referenceChains_lawful chainsGenesis_ok h.run h.carries
  obtain ⟨p, i, hreads⟩ := h.reads
  obtain ⟨signed, hreceived⟩ := hsigned before received [swapped, sent] rfl _ _ _ _ hreads rfl
  refine ⟨before, received, swapped, sent, w, h, signed, hreceived, ?_⟩
  intro before' tr after' hts item hitem
  exact hone before' tr after' before received [swapped, sent] hts rfl item _ signed hitem hreceived

end FogoYield.Crossing
