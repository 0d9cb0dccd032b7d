import FogoYield.Model.Crossing.Reference
import FogoYield.Verification.Crossing.SignedFlows
import FogoYield.Verification.Intent.ReferenceChain
import FogoYield.Verification.Relayer.Reference

/-! # The connected reference chains

Everything that is assumed of the world outside the two programs holds of them, and the wallet's
bridge goes through from one end to the other. -/

namespace FogoYield.Crossing

open FogoYield.Library FogoYield.Solana
open FogoYield.Intent (walletItem walletFlow burns)
open FogoYield.Relayer hiding Action Step Genesis intentTransferSeed programId genesis

/-! ## Assumptions -/

theorem solanaBase_derives : Derives solanaBase where
  address := Intent.referenceBook.laws rfl rfl
  authority := by
    rintro p (rfl | rfl)
    · decide +kernel
    · decide +kernel
  vault := by decide +kernel
  tokens := by decide +kernel

theorem referenceChains_lawful : referenceChains.Lawful where
  fogo := Intent.referenceRuntime_lawful
  solana := envOn_lawful solanaBase_derives
  derivation := rfl

/-! ## Genesis -/

/-- Another message in the account of the message changes no owner and no tokens. -/
theorem solanaGenesis_same (k : Pubkey) :
    (solanaGenesis.accounts k).owner = ((Relayer.genesis 1000000000).accounts k).owner ∧
      tokenAt solanaGenesis.accounts k = tokenAt (Relayer.genesis 1000000000).accounts k := by
  by_cases hk : k = transceiverMessage
  · subst hk
    decide +kernel
  · have hsame : solanaGenesis.accounts k = (Relayer.genesis 1000000000).accounts k := by
      simp only [solanaGenesis, World.setAccount, Function.update_of_ne hk]
    exact ⟨congrArg Account.owner hsame, tokenAt_congr hsame⟩

theorem solanaGenesis_ok : Relayer.Genesis referenceChains.solana solanaGenesis where
  no_account k := by
    rw [(solanaGenesis_same k).1]
    exact (genesis_on solanaBase_derives 1000000000).no_account k
  ata wallet mint tp t ht := by
    rw [(solanaGenesis_same _).2] at ht
    rw [(solanaGenesis_same _).1, (solanaGenesis_same _).1]
    exact (genesis_on solanaBase_derives 1000000000).ata wallet mint tp t ht

theorem chainsGenesis_ok : referenceChains.Genesis chainsGenesis :=
  ⟨Intent.genesis_ok, solanaGenesis_ok⟩

/-! ## The run -/

/-- The run of Solana: the pair is set up, the wallet's message received, its tokens swapped and
sent. In between, the pair's config and the inbox item are as they should be. -/
theorem solana_run : ∃ setup w₁ w₂ w₃ w₄,
    RelayerRun referenceChains.solana solanaGenesis setup w₁ ∧
    setup.map Transition.act = [bootstrapAction, initializeAction] ∧
    Relayer.Step referenceChains.solana w₁ walletReceive w₂ ∧
    Relayer.Step referenceChains.solana w₂ walletSwap w₃ ∧
    Relayer.Step referenceChains.solana w₃ walletSend w₄ ∧
    (pairConfigAt w₁.accounts pairConfigKey).map (fun c => c.receiveNttProgram .deposit) =
      some nttUsdcProgram ∧
    TransceiverMessage.decode (w₁.accounts transceiverMessage).bytes = some walletMessage ∧
    (inboxItemAt nttUsdcProgram w₂.accounts walletItem).map
      (fun i => (i.recipientAddress, i.amount)) = some (Intent.walletInbox, Intent.bridgedAmount) := by
  have hend : Ends (fun w₁ =>
      (pairConfigAt w₁.accounts pairConfigKey).map (fun c => c.receiveNttProgram .deposit) =
        some nttUsdcProgram ∧
      TransceiverMessage.decode (w₁.accounts transceiverMessage).bytes = some walletMessage ∧
      Ends (fun w₂ =>
        (inboxItemAt nttUsdcProgram w₂.accounts walletItem).map
          (fun i => (i.recipientAddress, i.amount)) =
            some (Intent.walletInbox, Intent.bridgedAmount) ∧
        Ends (fun w₃ => Ends (fun _ => True) (walletSend.apply referenceChains.solana.runtime w₃))
          (walletSwap.apply referenceChains.solana.runtime w₂))
        (walletReceive.apply referenceChains.solana.runtime w₁))
      (execute (Relayer.Action.apply referenceChains.solana.runtime)
        [bootstrapAction, initializeAction] solanaGenesis) := by decide +kernel
  obtain ⟨w₁, hsetup, hconfig, hmessage, hend⟩ := hend.exists_ok
  obtain ⟨w₂, hreceive, hitem, hend⟩ := hend.exists_ok
  obtain ⟨w₃, hswap, hend⟩ := hend.exists_ok
  obtain ⟨w₄, hsend, -⟩ := hend.exists_ok
  have htrusted : ∀ act ∈ [bootstrapAction, initializeAction],
      act.Trusted referenceChains.solana := by decide +kernel
  have hstep : ∀ act ∈ [bootstrapAction, initializeAction], ∀ u v,
      act.apply referenceChains.solana.runtime u = .ok v →
        Relayer.Step referenceChains.solana u act v :=
    fun act hact _ _ happly => ⟨htrusted act hact, happly⟩
  obtain ⟨setup, hr, hacts⟩ := run_of_execute hstep hsetup
  exact ⟨setup, w₁, w₂, w₃, w₄, hr, hacts, ⟨trivial, hreceive⟩, ⟨trivial, hswap⟩, ⟨trivial, hsend⟩,
    hconfig, hmessage, hitem⟩

/-- A run of both chains, cut at the steps that the wallet's tokens take on Solana. -/
structure WalletRun (before : List ChainsTransition) (received swapped sent : ChainsTransition)
    (w : ChainsWorld) : Prop where
  run : ChainsRun referenceChains chainsGenesis (before ++ [received, swapped, sent]) w
  received_act : received.act = .inr walletReceive
  swapped_act : swapped.act = .inr walletSwap
  sent_act : sent.act = .inr walletSend
  carries : Carries referenceChains referenceBridge (before ++ [received, swapped, sent])
  reads : ∃ manager i, Receives received walletReceiveAccounts manager walletMessage i

/-- What the one `receive` of a run reads is delivered if it is what the burn was made of. -/
theorem carries_of_received {before : List ChainsTransition}
    {received swapped sent : ChainsTransition}
    (hbefore : ∀ tr ∈ before, ∀ ctx accs args, tr.act ≠ .inr (.receive ctx accs args))
    (hreceived : received.act = .inr walletReceive) (hswapped : swapped.act = .inr walletSwap)
    (hsent : sent.act = .inr walletSend)
    (hburns : burns received.pre.1 = [Intent.transferBurnIx Intent.bridgeAccounts Intent.burnArgs])
    (hconfig : (pairConfigAt received.pre.2.accounts pairConfigKey).map
      (fun c => c.receiveNttProgram .deposit) = some nttUsdcProgram)
    (hitem : (inboxItemAt nttUsdcProgram received.post.2.accounts walletItem).map
      (fun i => (i.recipientAddress, i.amount)) =
        some (Intent.walletInbox, Intent.bridgedAmount)) :
    Carries referenceChains referenceBridge (before ++ [received, swapped, sent]) := by
  have hone : ∀ tr ∈ before ++ [received, swapped, sent], ∀ accs p m i, Receives tr accs p m i →
      tr = received ∧ accs = walletReceiveAccounts := by
    rintro tr htr accs p m i ⟨⟨ctx, args, c, hact, -, -⟩, -, -⟩
    simp only [List.mem_append, List.mem_cons, List.not_mem_nil, or_false] at htr
    rcases htr with htr | rfl | rfl | rfl
    · exact absurd hact (hbefore tr htr ctx accs args)
    · rw [hreceived] at hact
      cases hact
      exact ⟨rfl, rfl⟩
    · rw [hswapped] at hact
      cases hact
    · rw [hsent] at hact
      cases hact
  constructor
  · intro tr htr accs p m i hreads _
    obtain ⟨rfl, rfl⟩ := hone tr htr accs p m i hreads
    obtain ⟨ctx, args, c, hact, hc, rfl⟩ := hreads.action
    rw [hreceived] at hact
    cases hact
    change pairConfigAt _ pairConfigKey = some c at hc
    rw [hc] at hconfig
    have hmanager : c.receiveNttProgram .deposit = nttUsdcProgram := Option.some.inj hconfig
    have hread : inboxItemAt (c.receiveNttProgram .deposit) _ walletItem = some i := hreads.item_at
    rw [hmanager] at hread
    rw [hread] at hitem
    obtain ⟨hrecipient, hamount⟩ := Prod.mk.inj (Option.some.inj hitem)
    refine ⟨_, Intent.burnArgs, by rw [hburns]; rfl, hmanager.symm, rfl, ?_, hamount⟩
    rw [hrecipient]
    rfl
  · intro tr htr tr' htr' accs accs' p p' m m' i i' hreads hreads' _ _ _
    obtain ⟨rfl, rfl⟩ := hone tr htr accs p m i hreads
    obtain ⟨rfl, rfl⟩ := hone tr' htr' accs' p' m' i' hreads'
    obtain ⟨hmanager, hmessage, -⟩ := hreads.unique hreads'
    exact ⟨hmanager, hmessage⟩

theorem wallet_run : ∃ before received swapped sent w,
    WalletRun before received swapped sent w := by
  obtain ⟨ts, u, hfogo, -, harrived⟩ := Intent.reference_run
  obtain ⟨setup, w₁, w₂, w₃, w₄, hsetup, hacts, hreceive, hswap, hsend, hconfig, hmessage,
    hitem⟩ := solana_run
  obtain ⟨before, hbefore, hrun⟩ : ∃ before : List ChainsTransition,
      before = ts.map (fun tr => ⟨(tr.pre, solanaGenesis), .inl tr.act, (tr.post, solanaGenesis)⟩) ++
        setup.map (fun tr => ⟨(u, tr.pre), .inr tr.act, (u, tr.post)⟩) ∧
      ChainsRun referenceChains chainsGenesis before (u, w₁) :=
    ⟨_, rfl, (hfogo.asLeft solanaGenesis).append (hsetup.asRight u)⟩
  have hlast := ((hrun.snoc (.right u hreceive)).snoc (.right u hswap)).snoc (.right u hsend)
  refine ⟨before, ⟨(u, w₁), .inr walletReceive, (u, w₂)⟩, ⟨(u, w₂), .inr walletSwap, (u, w₃)⟩,
    ⟨(u, w₃), .inr walletSend, (u, w₄)⟩, (u, w₄), ?_, rfl, rfl, rfl, ?_, ?_⟩
  · simpa only [List.append_assoc, List.cons_append, List.nil_append] using hlast
  · refine carries_of_received ?_ rfl rfl rfl harrived.burned hconfig hitem
    intro tr htr ctx accs args
    rcases List.mem_append.mp (hbefore ▸ htr) with htr | htr
    · obtain ⟨b, -, rfl⟩ := List.mem_map.mp htr
      exact fun h => by cases h
    · obtain ⟨b, hb, rfl⟩ := List.mem_map.mp htr
      have hact : b.act ∈ [bootstrapAction, initializeAction] := hacts ▸ List.mem_map_of_mem hb
      simp only [List.mem_cons, List.not_mem_nil, or_false] at hact
      rcases hact with hact | hact
      · intro h
        cases (hact.symm.trans (Sum.inr.inj h))
      · intro h
        cases (hact.symm.trans (Sum.inr.inj h))
  · obtain ⟨c, hc, hmanager⟩ := Option.map_eq_some_iff.mp hconfig
    obtain ⟨i, hi, -⟩ := Option.map_eq_some_iff.mp hitem
    exact ⟨_, i, ⟨_, _, c, rfl, hc, hmanager⟩, hmessage, hi⟩

end FogoYield.Crossing
