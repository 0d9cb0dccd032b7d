import FogoYield.Model.Relayer.Outbound
import FogoYield.Model.Sdk.Ntt
import FogoYield.Verification.Sdk.Addresses

/-! # SDK-built NTT calls against the checks of the program -/

namespace FogoYield.Sdk

open FogoYield.Library FogoYield.Solana
open FogoYield.Relayer (RelayerRuntime RelayerWorld RelayerResult Direction Flow)

/-! ## Transfer arguments -/

/-- Transfer arguments with a 32-byte recipient, as the program's struct holds them. -/
structure TransferFields where
  amount : UInt64
  recipientChain : UInt16
  recipientAddress : Bytes32
  shouldQueue : Bool

def TransferFields.onChain (f : TransferFields) : Relayer.NttTransferArgs where
  amount := f.amount
  recipientChain := f.recipientChain
  recipientAddress := f.recipientAddress.bytes
  shouldQueue := f.shouldQueue

def TransferFields.sdk (f : TransferFields) : NttTransferArgs where
  amount := f.amount.toNat
  recipientChain := f.recipientChain.toNat
  recipientAddress := f.recipientAddress.bytes
  shouldQueue := f.shouldQueue

theorem serializeTransferArgs_be (f : TransferFields) :
    serializeTransferArgs f.sdk false = .ok f.onChain.packBe := by
  have hlen : ¬ f.recipientAddress.bytes.length ≠ 32 := by simp
  simp only [serializeTransferArgs, TransferFields.sdk, if_neg hlen, setBigUint64_toNat,
    setUint16_toNat]
  rfl

theorem serializeTransferArgs_le (f : TransferFields) :
    serializeTransferArgs f.sdk true = .ok f.onChain.serialize := by
  have hlen : ¬ f.recipientAddress.bytes.length ≠ 32 := by simp
  simp only [serializeTransferArgs, TransferFields.sdk, if_neg hlen, setBigUint64_toNat,
    setUint16_toNat]
  rfl

theorem boolByte_inj {b c : Bool} (h : Relayer.boolByte b = Relayer.boolByte c) : b = c := by
  cases b <;> cases c <;> simp_all [Relayer.boolByte]

/-- A layout of four fields of fixed widths determines each of them. -/
theorem layout_inj {a a' b b' c c' : Bytes} {x y : UInt8} (hb : b.length = b'.length)
    (hc : c.length = c'.length)
    (h : a ++ b ++ c ++ [x] = a' ++ b' ++ c' ++ [y]) : a = a' ∧ b = b' ∧ c = c' ∧ x = y := by
  obtain ⟨habc, hxy⟩ := List.append_inj' h rfl
  obtain ⟨hab, hc'⟩ := List.append_inj' habc hc
  obtain ⟨ha', hb'⟩ := List.append_inj' hab hb
  exact ⟨ha', hb', hc', by simpa using hxy⟩

theorem TransferFields.ext_fields {f g : TransferFields} (hamount : f.amount = g.amount)
    (hchain : f.recipientChain = g.recipientChain)
    (haddress : f.recipientAddress = g.recipientAddress) (hqueue : f.shouldQueue = g.shouldQueue) :
    f = g := by
  cases f
  cases g
  simp_all

theorem packBe_inj {f g : TransferFields} (h : f.onChain.packBe = g.onChain.packBe) : f = g := by
  obtain ⟨hamount, hchain, haddress, hqueue⟩ := layout_inj (by simp)
    (f.recipientAddress.length_eq.trans g.recipientAddress.length_eq.symm) h
  exact TransferFields.ext_fields
    (UInt64.toNat_inj.mp (beBytes_inj f.amount.toNat_lt g.amount.toNat_lt hamount))
    (UInt16.toNat_inj.mp (beBytes_inj f.recipientChain.toNat_lt g.recipientChain.toNat_lt hchain))
    (Bytes32.ext_bytes haddress) (boolByte_inj hqueue)

theorem serialize_inj {f g : TransferFields}
    (h : f.onChain.serialize = g.onChain.serialize) : f = g := by
  obtain ⟨hamount, hchain, haddress, hqueue⟩ := layout_inj (by simp)
    (f.recipientAddress.length_eq.trans g.recipientAddress.length_eq.symm) h
  exact TransferFields.ext_fields
    (UInt64.toNat_inj.mp (leBytes_inj f.amount.toNat_lt g.amount.toNat_lt hamount))
    (UInt16.toNat_inj.mp (leBytes_inj f.recipientChain.toNat_lt g.recipientChain.toNat_lt hchain))
    (Bytes32.ext_bytes haddress) (boolByte_inj hqueue)

/-! ## Session authority -/

/-- A flow whose recipient is a key of the chain. -/
def withRecipient (flow : Flow) (recipient : Key) : Flow :=
  { flow with recipient := recipient.pubkey }

theorem sessionAuthority_eq (rt : RelayerRuntime) (authority mint nttProgram outboxItem : Pubkey)
    (flow : Flow) (recipient : Key) :
    (clientTransferLock rt authority mint nttProgram outboxItem recipient.pubkey.bytes
        flow.amount.toNat).sessionAuthority rt =
      .ok (Relayer.deriveSessionAuthority rt nttProgram authority
        (withRecipient flow recipient).transferArgs).1 := by
  have hargs := serializeTransferArgs_be
    ⟨flow.amount, Relayer.fogoWormholeChainId, ⟨recipient.pubkey.bytes, recipient.length_eq⟩, false⟩
  simp only [TransferFields.sdk, TransferFields.onChain] at hargs
  have hchain : Relayer.fogoWormholeChainId.toNat = fogoWormholeChainId := rfl
  rw [hchain] at hargs
  simp only [TransferLockParams.sessionAuthority, clientTransferLock, nttTransferArgsHash,
    Option.getD_none, hargs, bind, Except.bind, pure, Except.pure]
  rfl

/-! ## Inbound list -/

theorem assertAccountCount_eq {accounts : List AccountMeta} {expected : ℕ} {label : String}
    (h : accounts.length = expected) : assertAccountCount accounts expected label = .ok accounts :=
  if_neg (not_not_intro h)

/-- A call whose accounts hold the authority passes its check and is the bare signed call. -/
theorem invokeRelayerSigned_eq {rt : RelayerRuntime} {ctx : Context} {program authority : Pubkey}
    {discriminator args : Bytes} {accs : List AccountMeta} {bump : UInt8} {w : RelayerWorld}
    (h : ∃ a ∈ accs, a.pubkey = authority) :
    Relayer.invokeRelayerSigned rt ctx program discriminator args accs (some authority) bump w =
      invokeSigned rt Relayer.programId ctx (Relayer.authoritySeeds bump)
        ⟨program, Relayer.forwardMetas accs (some authority), discriminator ++ args⟩ w := by
  obtain ⟨a, ha, rfl⟩ := h
  have hpresent : some a.pubkey = none ∨ ∃ b ∈ accs, some a.pubkey = some b.pubkey :=
    .inr ⟨a, ha, rfl⟩
  simp only [Relayer.invokeRelayerSigned, require, if_pos hpresent, bind, Except.bind]

/-- The list is built, and splits after the manager's own meta. -/
theorem buildNttRedeemReleaseAccounts_eq (rt : RelayerRuntime) (params : RedeemReleaseParams) :
    buildNttRedeemReleaseAccounts rt params =
      .ok ((params.redeem rt ++ [readonly params.programId]) ++
        (params.release rt ++ [readonly params.programId]), 11) := by
  simp only [buildNttRedeemReleaseAccounts, List.append_assoc, bind, Except.bind, pure, Except.pure,
    assertAccountCount_eq (show (params.redeem rt).length = nttRedeemAccountCount from rfl),
    assertAccountCount_eq (show (params.release rt).length = nttReleaseInboundAccountCount from rfl)]
  rfl

/-- Every slot the program pins holds the account it asks for. -/
theorem validate_redeemRelease (rt : RelayerRuntime) (params : RedeemReleaseParams) :
    Relayer.validateNttRedeemReleaseAccounts rt
      (params.redeem rt ++ [readonly params.programId])
      (params.release rt ++ [readonly params.programId]) params.programId
      params.nttTransceiverMessage params.nttInboxItem params.recipientAta = .ok () := by
  simp only [Relayer.validateNttRedeemReleaseAccounts, bind_eq_ok, require_eq_ok, exists_const]
  refine ⟨?_, rfl, rfl, rfl, rfl, rfl, rfl⟩
  simp [Relayer.redeemAccountsMinLen, Relayer.releaseAccountsMinLen, RedeemReleaseParams.redeem,
    RedeemReleaseParams.release]

/-! ## Outbound list -/

theorem buildNttTransferLockAccountList_eq {rt : RelayerRuntime} {params : TransferLockParams}
    {sessionAuthority : Pubkey} (h : params.sessionAuthority rt = .ok sessionAuthority) :
    buildNttTransferLockAccountList rt params = .ok (params.accounts rt sessionAuthority) := by
  simp only [buildNttTransferLockAccountList, h, bind, Except.bind]
  exact assertAccountCount_eq rfl

/-- The three calls of `bridge_out`, with no check before or between them. -/
def bridgeCalls (rt : RelayerRuntime) (ctx : Context) (accs : Relayer.OutboundAccounts)
    (loaded : Relayer.FlowLoaded) (nttProgram fromAta : Pubkey) (lock release : List AccountMeta)
    (w : RelayerWorld) : RelayerResult RelayerWorld := do
  let args := loaded.flow.transferArgs
  let sessionAuthority := (Relayer.deriveSessionAuthority rt nttProgram accs.relayerAuthority args).1
  let seeds := Relayer.authoritySeeds loaded.config.relayerAuthorityBump
  let w ← invokeSigned rt Relayer.programId ctx seeds (Relayer.approveInstruction
    accs.tokenProgram fromAta sessionAuthority accs.relayerAuthority args.amount) w
  let w ← invokeSigned rt Relayer.programId ctx seeds ⟨nttProgram,
    Relayer.forwardMetas lock (some accs.relayerAuthority),
    Relayer.nttTransferLockIx ++ args.serialize⟩ w
  invokeSigned rt Relayer.programId ctx seeds ⟨nttProgram, Relayer.forwardMetas release none,
    Relayer.nttReleaseWormholeOutboundIx ++ [Relayer.boolByte false]⟩ w

theorem bridgeOut_eq {rt : RelayerRuntime} {signers : List Pubkey} {lock release : List AccountMeta}
    {accs : Relayer.OutboundAccounts} {loaded : Relayer.FlowLoaded} {nttProgram fromAta : Pubkey}
    {w : RelayerWorld} (hlock : lock.length = 14) (hrelease : release ≠ [])
    (hauthority : ∃ a ∈ lock, a.pubkey = accs.relayerAuthority)
    (hsession : ∃ a ∈ lock, a.pubkey = (Relayer.deriveSessionAuthority rt nttProgram
      accs.relayerAuthority loaded.flow.transferArgs).1) :
    Relayer.bridgeOut rt ⟨signers, lock ++ release⟩ accs loaded nttProgram fromAta 14 w =
      bridgeCalls rt ⟨signers, lock ++ release⟩ accs loaded nttProgram fromAta lock release w := by
  obtain ⟨s, hs, hsk⟩ := hsession
  have hfound : ∃ a ∈ lock ++ release, a.pubkey = (Relayer.deriveSessionAuthority rt nttProgram
      accs.relayerAuthority loaded.flow.transferArgs).1 := ⟨s, List.mem_append_left _ hs, hsk⟩
  have hsplit : (14 : UInt8).toNat < (lock ++ release).length := by
    have hpos := List.length_pos_iff.mpr hrelease
    rw [List.length_append, hlock]
    simpa using hpos
  have htake : (lock ++ release).take (14 : UInt8).toNat = lock := List.take_left' hlock
  have hdrop : (lock ++ release).drop (14 : UInt8).toNat = release := List.drop_left' hlock
  have hpublish : ∀ v : RelayerWorld, Relayer.invokeRelayerSigned rt ⟨signers, lock ++ release⟩
      nttProgram Relayer.nttReleaseWormholeOutboundIx [Relayer.boolByte false] release none
      loaded.config.relayerAuthorityBump v = invokeSigned rt Relayer.programId
        ⟨signers, lock ++ release⟩ (Relayer.authoritySeeds loaded.config.relayerAuthorityBump)
        ⟨nttProgram, Relayer.forwardMetas release none,
          Relayer.nttReleaseWormholeOutboundIx ++ [Relayer.boolByte false]⟩ v := by
    intro v
    simp [Relayer.invokeRelayerSigned, require, bind, Except.bind]
  simp only [Relayer.bridgeOut, bridgeCalls, Relayer.approveNttSessionAuthority,
    Relayer.nttLockAndPublish, require, if_pos hfound, if_pos hsplit, htake, hdrop,
    invokeRelayerSigned_eq hauthority, hpublish]
  rfl

/-- What `receive` checks of its remaining accounts before and in its two NTT calls. -/
structure InboundListPasses (rt : RelayerRuntime) (ctx : Context) (args : Relayer.ReceiveArgs)
    (nttProgram transceiverMessage inboxItem recipientAta authority : Pubkey) : Prop where
  split : 0 < args.redeemAccountsLen.toNat ∧ args.redeemAccountsLen.toNat < ctx.remaining.length
  pins : Relayer.validateNttRedeemReleaseAccounts rt (Relayer.redeemAccs ctx args)
    (Relayer.releaseAccs ctx args) nttProgram transceiverMessage inboxItem recipientAta = .ok ()
  redeem_authority : ∃ a ∈ Relayer.redeemAccs ctx args, a.pubkey = authority
  release_authority : ∃ a ∈ Relayer.releaseAccs ctx args, a.pubkey = authority

theorem inboundListPasses (rt : RelayerRuntime) (params : RedeemReleaseParams)
    (signers : List Pubkey) (direction : Direction) (minSwapOut : UInt64) :
    InboundListPasses rt
      ⟨signers, (params.redeem rt ++ [readonly params.programId]) ++
        (params.release rt ++ [readonly params.programId])⟩
      ⟨direction, 11, minSwapOut⟩ params.programId params.nttTransceiverMessage
      params.nttInboxItem params.recipientAta params.authority where
  split := by simp [RedeemReleaseParams.redeem, RedeemReleaseParams.release]
  pins := validate_redeemRelease rt params
  redeem_authority := ⟨writable params.authority, List.mem_cons_self .., rfl⟩
  release_authority := ⟨writable params.authority, List.mem_cons_self .., rfl⟩

/-- The SDK packs transfer arguments as the program does in both byte orders, injectively, so it
finds the session authority the program derives. Every inbound list it builds passes the split,
pin and authority checks of `receive`; every outbound list with its split of 14 passes the
session-authority, split and authority checks of `send` and `refund`, which then only make their
calls. -/
theorem sdk_ntt_calls_pass (rt : RelayerRuntime) :
    (∀ f : TransferFields,
      serializeTransferArgs f.sdk false = .ok f.onChain.packBe ∧
      encodeNttTransferArgsBorsh f.sdk = .ok f.onChain.serialize) ∧
    (∀ f g : TransferFields,
      (f.onChain.packBe = g.onChain.packBe ↔ f = g) ∧
      (f.onChain.serialize = g.onChain.serialize ↔ f = g)) ∧
    (∀ (authority mint nttProgram outboxItem : Pubkey) (flow : Flow) (recipient : Key),
      (clientTransferLock rt authority mint nttProgram outboxItem recipient.pubkey.bytes
          flow.amount.toNat).sessionAuthority rt =
        .ok (Relayer.deriveSessionAuthority rt nttProgram authority
          (withRecipient flow recipient).transferArgs).1) ∧
    (∀ (params : RedeemReleaseParams) (signers : List Pubkey) (direction : Direction)
      (minSwapOut : UInt64), ∃ remainingAccounts redeemAccountsLen,
      buildNttRedeemReleaseAccounts rt params = .ok (remainingAccounts, redeemAccountsLen) ∧
      (UInt8.ofNat redeemAccountsLen).toNat = redeemAccountsLen ∧
      InboundListPasses rt ⟨signers, remainingAccounts⟩
        ⟨direction, UInt8.ofNat redeemAccountsLen, minSwapOut⟩ params.programId
        params.nttTransceiverMessage params.nttInboxItem params.recipientAta params.authority) ∧
    (∀ (accs : Relayer.OutboundAccounts) (loaded : Relayer.FlowLoaded) (recipient : Key)
      (nttProgram fromAta mint outboxItem : Pubkey) (release : ReleaseOutboundParams)
      (signers : List Pubkey) (w : RelayerWorld), ∃ transferLock releaseAccts,
      buildNttTransferLockAccountList rt (clientTransferLock rt accs.relayerAuthority mint
        nttProgram outboxItem recipient.pubkey.bytes loaded.flow.amount.toNat) =
          .ok transferLock ∧
      buildNttReleaseWormholeOutboundAccountList rt release = .ok releaseAccts ∧
      Relayer.bridgeOut rt ⟨signers, transferLock ++ releaseAccts⟩ accs
          { loaded with flow := withRecipient loaded.flow recipient } nttProgram fromAta
          (UInt8.ofNat nttTransferLockAccountCount) w =
        bridgeCalls rt ⟨signers, transferLock ++ releaseAccts⟩ accs
          { loaded with flow := withRecipient loaded.flow recipient } nttProgram fromAta
          transferLock releaseAccts w) := by
  refine ⟨?_, ?_, sessionAuthority_eq rt, ?_, ?_⟩
  · intro f
    exact ⟨serializeTransferArgs_be f, serializeTransferArgs_le f⟩
  · intro f g
    refine ⟨⟨packBe_inj, ?_⟩, ⟨serialize_inj, ?_⟩⟩ <;>
      rintro rfl <;> rfl
  · intro params signers direction minSwapOut
    exact ⟨_, _, buildNttRedeemReleaseAccounts_eq rt params, rfl,
      inboundListPasses rt params signers direction minSwapOut⟩
  · intro accs loaded recipient nttProgram fromAta mint outboxItem release signers w
    have hsession := sessionAuthority_eq rt accs.relayerAuthority mint nttProgram outboxItem
      loaded.flow recipient
    refine ⟨_, _, buildNttTransferLockAccountList_eq hsession, assertAccountCount_eq rfl, ?_⟩
    apply bridgeOut_eq
    · rfl
    · simp [ReleaseOutboundParams.accounts]
    · exact ⟨_, List.mem_cons_self .., rfl⟩
    · refine ⟨readonly _, ?_, rfl⟩
      simp [TransferLockParams.accounts]

end FogoYield.Sdk
