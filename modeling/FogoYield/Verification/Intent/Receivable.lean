import FogoYield.Verification.Intent.Codec
import FogoYield.Verification.Relayer.Addresses
import FogoYield.Verification.Relayer.Handlers
import FogoYield.Verification.Relayer.Reference
import FogoYield.Verification.Sdk.Addresses

/-! # Floors the relayer receives

The intent program sends to the inbox of any floor its parser reads; the relayer refuses the floor
zero. -/

namespace FogoYield.Intent

open FogoYield.Library FogoYield.Solana FogoYield.Sdk
open FogoYield.Relayer (RelayerRuntime RelayerWorld ReceiveAccounts ReceiveArgs userInboxSeeds
  receive referenceEnv referenceEnv_address user userInbox_inj)

/-- `receive` takes the floor, and derives the inbox authority from it. -/
def AcceptsFloor (rt : RelayerRuntime) (userWallet userInboxAuthority : Pubkey)
    (minSwapOut : UInt64) : Prop :=
  0 < minSwapOut ∧ userInboxAuthority =
    (rt.findProgramAddress (userInboxSeeds userWallet minSwapOut) Relayer.programId).1

theorem receive_acceptsFloor {rt : RelayerRuntime} {ctx : Context} {accs : ReceiveAccounts}
    {args : ReceiveArgs} {w w' : RelayerWorld} (h : receive rt ctx accs args w = .ok w') :
    AcceptsFloor rt accs.userWallet accs.userInboxAuthority args.minSwapOut := by
  obtain ⟨config, mint, bump, w₀, w₁, w₂, inbox, held, hspec⟩ := Relayer.receive_spec h
  obtain ⟨sender, hchecks⟩ := hspec.checks
  exact ⟨hchecks.min_pos, hchecks.inbox_authority⟩

/-- The inbox of a floor is the inbox of no other. -/
theorem acceptsFloor_resolved {rt : RelayerRuntime} (hrt : rt.AddressLaws) {signer : Pubkey}
    {floor minSwapOut : UInt64} {recipient : Bytes}
    (hr : resolveRecipient rt (.minOut floor) signer = some recipient) :
    AcceptsFloor rt signer ⟨recipient⟩ minSwapOut ↔ minSwapOut = floor ∧ floor ≠ 0 := by
  rw [resolveRecipient, relayerProgramId_eq.1, recipientSeeds_eq] at hr
  cases hr
  constructor
  · rintro ⟨hpos, heq⟩
    obtain ⟨-, rfl⟩ := userInbox_inj hrt heq
    exact ⟨rfl, UInt64.pos_iff_ne_zero.mp hpos⟩
  · rintro ⟨rfl, hne⟩
    exact ⟨UInt64.pos_iff_ne_zero.mpr hne, rfl⟩

/-- The relayer receives what a message with a floor sends exactly if the floor is not zero; what
one with the floor zero sends is refused by every `receive`. -/
theorem floor_receivable_iff {rt : RelayerRuntime} (hrt : rt.AddressLaws) {m : NttMessage}
    {floor : UInt64} (hfloor : m.recipient = .minOut floor) (signer : Pubkey) {recipient : Bytes}
    (hr : resolveRecipient rt m.recipient signer = some recipient) :
    ((∃ minSwapOut, AcceptsFloor rt signer ⟨recipient⟩ minSwapOut) ↔ floor ≠ 0) ∧
    (floor = 0 → ∀ ctx accs args w w', receive rt ctx accs args w = .ok w' →
      accs.userWallet = signer → accs.userInboxAuthority ≠ ⟨recipient⟩) := by
  rw [hfloor] at hr
  constructor
  · constructor
    · rintro ⟨minSwapOut, haccepts⟩
      exact ((acceptsFloor_resolved hrt hr).mp haccepts).2
    · intro hne
      exact ⟨floor, (acceptsFloor_resolved hrt hr).mpr ⟨rfl, hne⟩⟩
  · rintro hzero ctx accs args w w' hreceive hwallet hinbox
    have haccepts := receive_acceptsFloor hreceive
    rw [hwallet, hinbox] at haccepts
    exact ((acceptsFloor_resolved hrt hr).mp haccepts).2 hzero

theorem floor_receivable_bridgeOut : ∃ m recipient,
    bridgeMessageTryFrom referenceIntents
      (buildBridgeOutIntentMessage (bridgeOutParams 9850000000)) = some (.ntt m) ∧
    resolveRecipient referenceEnv.runtime m.recipient user = some recipient ∧
    ∃ minSwapOut, AcceptsFloor referenceEnv.runtime user ⟨recipient⟩ minSwapOut := by
  obtain ⟨m, haccepts⟩ := build_accepts referenceIntents_lawful (bridgeOutParams 9850000000)
    9850000000 8 rfl rfl (by decide)
  have hreads := build_reads referenceIntents_lawful (bridgeOutParams 9850000000) 9850000000 8 rfl rfl
    (by decide) haccepts
  refine ⟨m, _, haccepts, by rw [hreads.recipient]; rfl, ?_⟩
  exact (floor_receivable_iff referenceEnv_address hreads.recipient user
    (by rw [hreads.recipient]; rfl)).1.mpr (by decide)

/-- A message whose floor is zero is accepted, and no floor is received at its recipient. -/
theorem zero_floor_not_receivable :
    referenceIntents.Lawful ∧ referenceEnv.runtime.AddressLaws ∧ ∃ m recipient,
    bridgeMessageTryFrom referenceIntents
      (buildBridgeOutIntentMessage (bridgeOutParams 0)) = some (.ntt m) ∧
    m.version = ⟨0, 3⟩ ∧ m.recipient = .minOut 0 ∧
    resolveRecipient referenceEnv.runtime m.recipient user = some recipient ∧
    ¬ ∃ minSwapOut, AcceptsFloor referenceEnv.runtime user ⟨recipient⟩ minSwapOut := by
  obtain ⟨m, haccepts⟩ := build_accepts referenceIntents_lawful (bridgeOutParams 0) 0 8 rfl
    rfl (by decide)
  have hreads := build_reads referenceIntents_lawful (bridgeOutParams 0) 0 8 rfl rfl
    (by decide) haccepts
  have hresolve : resolveRecipient referenceEnv.runtime (.minOut 0) user = some
      (referenceEnv.runtime.findProgramAddress (recipientSeeds user 0) relayerProgramId).1.bytes :=
    rfl
  refine ⟨referenceIntents_lawful, referenceEnv_address, m, _, haccepts, hreads.version,
    hreads.recipient, by rw [hreads.recipient]; exact hresolve, ?_⟩
  rintro ⟨minSwapOut, hfloor⟩
  exact ((acceptsFloor_resolved referenceEnv_address hresolve).mp hfloor).2 rfl

end FogoYield.Intent
