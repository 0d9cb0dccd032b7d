import FogoYield.Model.Relayer.State
import FogoYield.Solana.Base58

/-! # Addresses as the SDK derives them

`packages/sdk/src/pda.ts`, with the constants of `packages/sdk/src/constants.ts`. A `bigint` is an
integer and a `number` a natural number. -/

namespace FogoYield.Sdk

open FogoYield.Library FogoYield.Solana
open FogoYield.Relayer (RelayerRuntime Direction ascii)

/-! ## Typed views -/

/-- Bytes of a fixed-width field, in the byte order `DataView` is asked for. -/
def viewBytes (width n : ℕ) (littleEndian : Bool) : Bytes :=
  if littleEndian then leBytes width n else beBytes width n

/-- `DataView.setBigUint64` keeps the value modulo `2^64`. -/
def setBigUint64 (value : ℤ) (littleEndian : Bool) : Bytes :=
  viewBytes 8 (value % 2 ^ 64).toNat littleEndian

/-- `DataView.setUint16` keeps the value modulo `2^16`. -/
def setUint16 (value : ℕ) (littleEndian : Bool) : Bytes :=
  viewBytes 2 (value % 2 ^ 16) littleEndian

/-! ## Constants -/

def fogoWormholeChainId : ℕ := 51

/-- `IDL.address`. -/
def relayerProgramId : Pubkey := Pubkey.literal "onrenRKgX54qtWeK3cuaTBE71xx7dWMXn82ubH61vAp"

def configSeed : Bytes := ascii "relayer_config"
def relayerSeed : Bytes := ascii "relayer"
def flowInboundSeed : Bytes := ascii "inflight"
def flowOutboundSeed : Bytes := ascii "outflight"
def userInboxSeed : Bytes := ascii "user_inbox"

/-! ## Derivations -/

def configSeeds (baseMint assetMint : Pubkey) : List Bytes :=
  [configSeed, baseMint.bytes, assetMint.bytes]

def findConfigPda (rt : RelayerRuntime) (baseMint assetMint programId : Pubkey) :
    Pubkey × UInt8 :=
  rt.findProgramAddress (configSeeds baseMint assetMint) programId

def findAuthorityPda (rt : RelayerRuntime) (programId : Pubkey) : Pubkey × UInt8 :=
  rt.findProgramAddress [relayerSeed] programId

def flowPdaSeeds (direction : Direction) (configPda nttInboxItem : Pubkey) : List Bytes :=
  let seed := if direction = .deposit then flowInboundSeed else flowOutboundSeed
  [seed, configPda.bytes, nttInboxItem.bytes]

def findFlowPda (rt : RelayerRuntime) (direction : Direction)
    (configPda nttInboxItem programId : Pubkey) : Pubkey × UInt8 :=
  rt.findProgramAddress (flowPdaSeeds direction configPda nttInboxItem) programId

def userInboxWithMinSeeds (wallet : Pubkey) (minOut : ℤ) : List Bytes :=
  let minLe := setBigUint64 minOut true
  [userInboxSeed, wallet.bytes, minLe]

def findUserInboxWithMinPda (rt : RelayerRuntime) (wallet : Pubkey) (minOut : ℤ)
    (programId : Pubkey) : Pubkey × UInt8 :=
  rt.findProgramAddress (userInboxWithMinSeeds wallet minOut) programId

/-! ## Values that fit their field -/

theorem setBigUint64_toNat (n : UInt64) (littleEndian : Bool) :
    setBigUint64 (n.toNat : ℤ) littleEndian = viewBytes 8 n.toNat littleEndian := by
  have hlt : n.toNat < 2 ^ 64 := n.toNat_lt
  have hmod : ((n.toNat : ℤ) % 2 ^ 64).toNat = n.toNat := by omega
  rw [setBigUint64, hmod]

theorem setUint16_toNat (n : UInt16) (littleEndian : Bool) :
    setUint16 n.toNat littleEndian = viewBytes 2 n.toNat littleEndian := by
  rw [setUint16, Nat.mod_eq_of_lt n.toNat_lt]

end FogoYield.Sdk
