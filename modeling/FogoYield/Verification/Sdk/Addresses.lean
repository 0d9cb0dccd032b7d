import FogoYield.Model.Intent.Recipient
import FogoYield.Model.Relayer.Receive
import FogoYield.Model.Sdk.Pda

/-! # Derived addresses of the relayer program

Three code bases derive them. Their seeds agree, and the seed strings of the program's address
families never coincide. -/

namespace FogoYield.Sdk

open FogoYield.Library FogoYield.Solana
open FogoYield.Relayer (RelayerRuntime Direction)

/-! ## Families -/

/-- A public key of the chain, which is 32 bytes long. -/
structure Key where
  pubkey : Pubkey
  length_eq : pubkey.bytes.length = 32

theorem Key.ext_bytes {k k' : Key} (h : k.pubkey.bytes = k'.pubkey.bytes) : k = k' := by
  rcases k with ⟨⟨bytes⟩, hk⟩
  rcases k' with ⟨⟨bytes'⟩, hk'⟩
  simp_all

/-- Everything the relayer program derives an address for. -/
inductive RelayerPda where
  | authority
  | globalConfig
  | pairConfig (baseMint assetMint : Key)
  | flow (direction : Direction) (pairConfig nttInboxItem : Key)
  | userInbox (wallet : Key) (minSwapOut : UInt64)

/-- The seeds the program derives each address from. -/
def RelayerPda.seeds : RelayerPda → List Bytes
  | .authority => [Relayer.relayerSeed]
  | .globalConfig => [Relayer.globalConfigSeed]
  | .pairConfig baseMint assetMint =>
    [Relayer.pairConfigSeed, baseMint.pubkey.bytes, assetMint.pubkey.bytes]
  | .flow direction config nttInboxItem =>
    Relayer.flowSeeds direction config.pubkey nttInboxItem.pubkey
  | .userInbox wallet minSwapOut => Relayer.userInboxSeeds wallet.pubkey minSwapOut

/-- What the address hash reads of the seeds: they are concatenated without delimiters, the bump
byte last. -/
def RelayerPda.seedString (p : RelayerPda) (bump : UInt8) : Bytes := p.seeds.flatten ++ [bump]

/-- The length of a family's seed strings. -/
def RelayerPda.seedLength : RelayerPda → ℕ
  | .authority => 8
  | .globalConfig => 14
  | .pairConfig _ _ => 79
  | .flow .deposit _ _ => 73
  | .flow .withdraw _ _ => 74
  | .userInbox _ _ => 51

theorem RelayerPda.length_seedString (p : RelayerPda) (bump : UInt8) :
    (p.seedString bump).length = p.seedLength := by
  cases p with
  | authority => rfl
  | globalConfig => rfl
  | pairConfig baseMint assetMint =>
      have hseed : Relayer.pairConfigSeed.length = 14 := by decide
      simp [seedString, seeds, seedLength, hseed, baseMint.length_eq, assetMint.length_eq]
  | flow direction config nttInboxItem =>
      have hin : Relayer.inboundSeed.length = 8 := by decide
      have hout : Relayer.outboundSeed.length = 9 := by decide
      cases direction <;>
        simp [seedString, seeds, seedLength, Relayer.flowSeeds, Relayer.Flow.seed, hin, hout,
          config.length_eq, nttInboxItem.length_eq]
  | userInbox wallet minSwapOut =>
      have hseed : Relayer.userInboxSeed.length = 10 := by decide
      simp [seedString, seeds, seedLength, Relayer.userInboxSeeds, hseed, wallet.length_eq]

/-- Two keys are read back from their concatenation. -/
theorem keys_inj {s : Bytes} {a b a' b' : Key}
    (h : s ++ (a.pubkey.bytes ++ b.pubkey.bytes) =
      s ++ (a'.pubkey.bytes ++ b'.pubkey.bytes)) : a = a' ∧ b = b' := by
  have hkeys := List.append_cancel_left h
  obtain ⟨ha, hb⟩ := List.append_inj hkeys (a.length_eq.trans a'.length_eq.symm)
  exact ⟨Key.ext_bytes ha, Key.ext_bytes hb⟩

theorem pairConfig_seeds_inj {a b a' b' : Key}
    (h : (RelayerPda.pairConfig a b).seeds.flatten =
      (RelayerPda.pairConfig a' b').seeds.flatten) : a = a' ∧ b = b' := by
  apply keys_inj (s := Relayer.pairConfigSeed)
  simpa [RelayerPda.seeds] using h

theorem flow_seeds_inj {direction : Direction} {a b a' b' : Key}
    (h : (RelayerPda.flow direction a b).seeds.flatten =
      (RelayerPda.flow direction a' b').seeds.flatten) : a = a' ∧ b = b' := by
  apply keys_inj (s := Relayer.Flow.seed direction)
  simpa [RelayerPda.seeds, Relayer.flowSeeds] using h

theorem userInbox_seeds_inj {wallet wallet' : Key} {m m' : UInt64}
    (h : (RelayerPda.userInbox wallet m).seeds.flatten =
      (RelayerPda.userInbox wallet' m').seeds.flatten) : wallet = wallet' ∧ m = m' := by
  simp only [RelayerPda.seeds, Relayer.userInboxSeeds, List.flatten_cons, List.flatten_nil,
    List.append_nil] at h
  have htail := List.append_cancel_left h
  obtain ⟨hw, hm⟩ := List.append_inj htail (wallet.length_eq.trans wallet'.length_eq.symm)
  refine ⟨Key.ext_bytes hw, ?_⟩
  exact UInt64.toNat_inj.mp (leBytes_inj m.toNat_lt m'.toNat_lt hm)

/-- Seeds of one length are seeds of one family, and each family's determine their arguments. -/
theorem RelayerPda.seeds_inj {p q : RelayerPda} (hlen : p.seedLength = q.seedLength)
    (h : p.seeds.flatten = q.seeds.flatten) : p = q := by
  cases p with
  | authority =>
      cases q with
      | authority => rfl
      | flow direction _ _ => cases direction <;> simp [seedLength] at hlen
      | _ => simp [seedLength] at hlen
  | globalConfig =>
      cases q with
      | globalConfig => rfl
      | flow direction _ _ => cases direction <;> simp [seedLength] at hlen
      | _ => simp [seedLength] at hlen
  | pairConfig baseMint assetMint =>
      cases q with
      | pairConfig baseMint' assetMint' =>
          obtain ⟨rfl, rfl⟩ := pairConfig_seeds_inj h
          rfl
      | flow direction _ _ => cases direction <;> simp [seedLength] at hlen
      | _ => simp [seedLength] at hlen
  | flow direction config nttInboxItem =>
      cases q with
      | flow direction' config' nttInboxItem' =>
          have hdir : direction = direction' := by
            cases direction <;> cases direction' <;> simp [seedLength] at hlen <;> rfl
          subst hdir
          obtain ⟨rfl, rfl⟩ := flow_seeds_inj h
          rfl
      | _ => cases direction <;> simp [seedLength] at hlen
  | userInbox wallet minSwapOut =>
      cases q with
      | userInbox wallet' minSwapOut' =>
          obtain ⟨rfl, rfl⟩ := userInbox_seeds_inj h
          rfl
      | flow direction _ _ => cases direction <;> simp [seedLength] at hlen
      | _ => simp [seedLength] at hlen

theorem RelayerPda.seedString_inj {p q : RelayerPda} {b c : UInt8}
    (h : p.seedString b = q.seedString c) : p = q ∧ b = c := by
  have hlen : p.seedLength = q.seedLength := by
    rw [← p.length_seedString b, h, q.length_seedString c]
  obtain ⟨hseeds, hbump⟩ := List.append_inj' h rfl
  exact ⟨RelayerPda.seeds_inj hlen hseeds, by simpa using hbump⟩

/-! ## Agreement -/

/-- The program id that the intent program and the SDK spell out is the relayer's own. -/
theorem relayerProgramId_eq :
    Intent.relayerProgramId = Relayer.programId ∧ relayerProgramId = Relayer.programId := by
  constructor <;> decide +kernel

theorem recipientSeeds_eq (wallet : Pubkey) (floor : UInt64) :
    Intent.recipientSeeds wallet floor = Relayer.userInboxSeeds wallet floor := rfl

theorem userInboxWithMinSeeds_eq (wallet : Pubkey) (floor : UInt64) :
    userInboxWithMinSeeds wallet floor.toNat = Relayer.userInboxSeeds wallet floor := by
  simp only [userInboxWithMinSeeds, setBigUint64_toNat]
  rfl

theorem flowPdaSeeds_eq (direction : Direction) (config nttInboxItem : Pubkey) :
    flowPdaSeeds direction config nttInboxItem =
      Relayer.flowSeeds direction config nttInboxItem := by
  cases direction <;> rfl

/-- A floor's inbox is derived from the same seeds under the same program by `receive`, by
`resolve_recipient` and by the SDK; so are a pair's config and a flow by the program and the SDK.
Within and across the program's address families no two seed strings are equal. -/
theorem addresses_agree_and_separate (rt : RelayerRuntime) :
    (∀ (wallet : Pubkey) (floor : UInt64),
      Intent.recipientSeeds wallet floor = Relayer.userInboxSeeds wallet floor ∧
      userInboxWithMinSeeds wallet floor.toNat = Relayer.userInboxSeeds wallet floor ∧
      Intent.resolveRecipient rt (.minOut floor) wallet = some (rt.findProgramAddress
        (Relayer.userInboxSeeds wallet floor) Relayer.programId).1.bytes ∧
      findUserInboxWithMinPda rt wallet floor.toNat relayerProgramId =
        rt.findProgramAddress (Relayer.userInboxSeeds wallet floor) Relayer.programId) ∧
    (∀ baseMint assetMint : Pubkey,
      findConfigPda rt baseMint assetMint relayerProgramId = rt.findProgramAddress
        [Relayer.pairConfigSeed, baseMint.bytes, assetMint.bytes] Relayer.programId) ∧
    (∀ (direction : Direction) (config nttInboxItem : Pubkey),
      findFlowPda rt direction config nttInboxItem relayerProgramId = rt.findProgramAddress
        (Relayer.flowSeeds direction config nttInboxItem) Relayer.programId) ∧
    (∀ (p q : RelayerPda) (b c : UInt8), p.seedString b = q.seedString c ↔ p = q ∧ b = c) := by
  obtain ⟨hintent, hsdk⟩ := relayerProgramId_eq
  refine ⟨?_, ?_, ?_, ?_⟩
  · intro wallet floor
    have hresolve : Intent.resolveRecipient rt (.minOut floor) wallet = some
        (rt.findProgramAddress (Relayer.userInboxSeeds wallet floor)
          Relayer.programId).1.bytes := by
      rw [Intent.resolveRecipient, recipientSeeds_eq, hintent]
    have hfind : findUserInboxWithMinPda rt wallet floor.toNat relayerProgramId =
        rt.findProgramAddress (Relayer.userInboxSeeds wallet floor) Relayer.programId := by
      rw [findUserInboxWithMinPda, userInboxWithMinSeeds_eq, hsdk]
    exact ⟨recipientSeeds_eq wallet floor, userInboxWithMinSeeds_eq wallet floor, hresolve, hfind⟩
  · intro baseMint assetMint
    rw [findConfigPda, hsdk]
    rfl
  · intro direction config nttInboxItem
    rw [findFlowPda, flowPdaSeeds_eq, hsdk]
  · intro p q b c
    constructor
    · exact RelayerPda.seedString_inj
    · rintro ⟨rfl, rfl⟩
      rfl

end FogoYield.Sdk
