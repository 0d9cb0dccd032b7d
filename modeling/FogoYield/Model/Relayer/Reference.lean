import FogoYield.Model.Relayer.Program
import FogoYield.Model.Relayer.ReferenceManager
import FogoYield.Solana.AddressBook

/-! # A reference chain

A concrete chain the program runs on: the USDC and ONyc managers, the pair between the two mints,
one deposit of 100 USDC by a user who asks for at least 90 ONyc, and a withdraw of the same user.
The derived addresses and bumps are the real ones of their seeds, and so are the hashes. -/

namespace FogoYield.Relayer

open FogoYield.Library FogoYield.Solana

/-! ## Keys -/

def nttUsdcProgram : Pubkey :=
  ⟨[11, 193, 208, 101, 62, 127, 229, 28, 72, 246, 107, 254, 36, 202, 100, 102, 186, 84, 23, 112,
   220, 137, 179, 172, 48, 80, 221, 216, 146, 227, 248, 137]⟩

def nttOnycProgram : Pubkey :=
  ⟨[11, 193, 208, 6, 28, 189, 227, 233, 194, 130, 234, 246, 92, 93, 0, 145, 122, 117, 142, 59,
   105, 180, 207, 169, 231, 37, 55, 122, 114, 177, 2, 164]⟩

def usdcMint : Pubkey :=
  ⟨[198, 250, 122, 243, 190, 219, 173, 58, 61, 101, 243, 106, 171, 201, 116, 49, 177, 187, 228,
   194, 210, 246, 224, 228, 124, 166, 2, 3, 69, 47, 93, 97]⟩

def onycMint : Pubkey :=
  ⟨[67, 104, 22, 38, 175, 234, 212, 62, 134, 233, 44, 45, 62, 15, 166, 53, 213, 104, 161, 189,
   232, 27, 137, 240, 152, 218, 122, 198, 229, 217, 241, 174]⟩

def fogoIntentProgram : Pubkey :=
  ⟨[7, 219, 93, 119, 91, 186, 146, 235, 102, 195, 248, 220, 15, 157, 49, 197, 246, 58, 186, 128,
   123, 89, 200, 213, 164, 9, 212, 220, 134, 31, 99, 72]⟩

def onreIntentProgram : Pubkey :=
  ⟨[10, 180, 52, 229, 142, 79, 12, 84, 128, 227, 97, 243, 78, 118, 239, 69, 18, 47, 15, 214, 214,
   136, 181, 128, 241, 236, 13, 232, 224, 57, 90, 26]⟩

def onreProgram : Pubkey :=
  ⟨[11, 252, 145, 30, 76, 128, 170, 63, 255, 221, 11, 78, 189, 132, 190, 29, 173, 124, 36, 22,
   184, 51, 127, 93, 219, 18, 239, 55, 176, 233, 7, 93]⟩

def admin : Pubkey := ⟨List.replicate 32 1⟩

def cranker : Pubkey := ⟨List.replicate 32 2⟩

def user : Pubkey := ⟨List.replicate 32 7⟩

def transceiverMessage : Pubkey := ⟨List.replicate 32 9⟩

/-- The account of the withdraw's message. -/
def withdrawTransceiverMessage : Pubkey := ⟨List.replicate 32 12⟩

/-! ## Derived addresses -/

def relayerKey : Pubkey :=
  ⟨[186, 189, 178, 164, 201, 30, 109, 141, 204, 26, 124, 230, 222, 222, 8, 229, 10, 239, 208, 83,
   210, 205, 88, 63, 52, 246, 253, 248, 145, 190, 205, 82]⟩

def globalConfigKey : Pubkey :=
  ⟨[170, 120, 112, 208, 174, 141, 5, 246, 97, 243, 41, 232, 1, 209, 168, 245, 47, 118, 193, 75,
   155, 106, 197, 50, 52, 57, 163, 219, 202, 74, 102, 132]⟩

def pairConfigKey : Pubkey :=
  ⟨[75, 251, 208, 62, 136, 105, 9, 5, 26, 173, 44, 89, 39, 124, 154, 195, 70, 147, 176, 152, 215,
   162, 217, 62, 185, 98, 210, 100, 143, 191, 179, 246]⟩

def baseAta : Pubkey :=
  ⟨[220, 64, 84, 67, 115, 66, 14, 26, 181, 253, 38, 207, 118, 57, 38, 233, 65, 150, 152, 132, 23,
   247, 47, 69, 133, 148, 195, 193, 147, 229, 74, 37]⟩

def assetAta : Pubkey :=
  ⟨[202, 155, 68, 24, 57, 196, 233, 70, 139, 139, 234, 1, 42, 204, 101, 40, 189, 188, 135, 193,
   222, 128, 189, 143, 212, 125, 213, 62, 33, 85, 120, 44]⟩

def userInboxAuthority : Pubkey :=
  ⟨[17, 98, 198, 225, 252, 212, 218, 183, 217, 88, 14, 131, 177, 60, 72, 115, 95, 99, 192, 39,
   108, 160, 172, 138, 188, 222, 157, 103, 42, 225, 162, 10]⟩

def userInboxAta : Pubkey :=
  ⟨[179, 93, 249, 102, 221, 139, 165, 93, 136, 73, 190, 230, 211, 49, 137, 175, 131, 12, 204, 80,
   57, 188, 7, 169, 139, 26, 140, 62, 232, 143, 175, 255]⟩

def fogoSetter : Pubkey :=
  ⟨[204, 79, 176, 15, 119, 147, 161, 131, 249, 141, 125, 20, 133, 179, 251, 104, 164, 71, 127,
   184, 58, 170, 150, 20, 47, 55, 157, 72, 83, 94, 10, 107]⟩

def onreSetter : Pubkey :=
  ⟨[193, 40, 63, 205, 247, 113, 35, 39, 109, 254, 208, 112, 46, 231, 123, 169, 148, 78, 49, 136,
   13, 44, 132, 38, 124, 174, 36, 8, 239, 9, 180, 27]⟩

def fogoPeer : Pubkey :=
  ⟨[175, 29, 175, 80, 1, 72, 178, 110, 254, 210, 108, 29, 65, 70, 192, 5, 154, 64, 44, 102, 194,
   14, 169, 148, 101, 117, 56, 170, 234, 121, 6, 84]⟩

def fogoRateLimit : Pubkey :=
  ⟨[131, 194, 59, 13, 19, 128, 14, 174, 124, 194, 241, 190, 173, 232, 181, 48, 197, 159, 156, 67,
   79, 207, 169, 148, 141, 60, 100, 38, 213, 131, 185, 216]⟩

def usdcTokenAuthority : Pubkey :=
  ⟨[45, 11, 249, 85, 85, 161, 89, 187, 23, 22, 162, 62, 244, 72, 250, 247, 245, 86, 16, 6, 177,
   196, 36, 104, 31, 179, 88, 20, 86, 36, 216, 113]⟩

def onycTokenAuthority : Pubkey :=
  ⟨[7, 141, 2, 58, 168, 95, 100, 215, 29, 31, 188, 154, 4, 110, 9, 162, 222, 123, 139, 49, 1,
   234, 76, 211, 200, 175, 159, 169, 213, 208, 137, 245]⟩

def usdcCustody : Pubkey :=
  ⟨[85, 238, 56, 93, 53, 128, 166, 111, 107, 209, 57, 150, 185, 112, 182, 205, 204, 219, 94, 94,
   38, 247, 48, 35, 190, 187, 252, 181, 183, 95, 241, 91]⟩

def onycCustody : Pubkey :=
  ⟨[255, 70, 115, 12, 29, 3, 212, 33, 103, 138, 179, 216, 28, 179, 112, 239, 163, 159, 247, 235,
   159, 62, 62, 227, 119, 92, 195, 194, 61, 115, 22, 204]⟩

def feeVault : Pubkey :=
  ⟨[114, 240, 46, 79, 249, 157, 246, 210, 171, 169, 36, 26, 100, 183, 162, 80, 107, 179, 125,
   229, 228, 72, 53, 154, 45, 166, 140, 165, 35, 121, 28, 17]⟩

def offerVaultAuthority : Pubkey :=
  ⟨[172, 237, 198, 229, 234, 56, 188, 253, 129, 135, 195, 251, 21, 5, 208, 18, 89, 125, 219, 0,
   202, 75, 125, 116, 71, 47, 255, 148, 51, 113, 90, 207]⟩

def offerUsdc : Pubkey :=
  ⟨[153, 205, 131, 101, 99, 87, 14, 219, 243, 145, 65, 240, 27, 56, 191, 106, 211, 91, 55, 99,
   252, 253, 142, 188, 172, 111, 36, 255, 206, 89, 18, 17]⟩

def offerOnyc : Pubkey :=
  ⟨[89, 27, 71, 4, 55, 234, 160, 245, 211, 254, 255, 158, 44, 152, 158, 100, 58, 241, 254, 210,
   99, 45, 205, 179, 63, 60, 225, 111, 154, 28, 194, 252]⟩

def inboxItemKey : Pubkey :=
  ⟨[115, 166, 218, 73, 167, 12, 81, 104, 56, 54, 150, 92, 115, 57, 129, 226, 178, 43, 106, 202,
   242, 88, 197, 60, 192, 44, 197, 161, 158, 174, 151, 193]⟩

def flowKey : Pubkey :=
  ⟨[105, 132, 119, 28, 46, 139, 228, 233, 245, 16, 187, 180, 87, 178, 123, 198, 17, 220, 122,
   207, 30, 204, 195, 205, 28, 220, 146, 214, 188, 189, 243, 136]⟩

def sendSession : Pubkey :=
  ⟨[91, 166, 130, 215, 30, 153, 143, 199, 117, 85, 128, 20, 170, 213, 206, 14, 29, 252, 213, 112,
   184, 178, 174, 210, 1, 197, 192, 220, 75, 242, 178, 240]⟩

def refundSession : Pubkey :=
  ⟨[146, 218, 9, 249, 185, 0, 231, 184, 27, 193, 5, 173, 221, 20, 126, 137, 251, 198, 53, 170,
   150, 204, 73, 202, 195, 179, 185, 164, 206, 118, 178, 242]⟩

def withdrawInboxAuthority : Pubkey :=
  ⟨[186, 84, 13, 12, 237, 195, 119, 188, 222, 78, 227, 124, 174, 38, 48, 108, 223, 188, 152, 225,
   159, 150, 142, 37, 64, 247, 46, 131, 84, 100, 0, 232]⟩

def withdrawInboxAta : Pubkey :=
  ⟨[51, 197, 19, 233, 183, 80, 118, 130, 215, 155, 83, 126, 101, 13, 206, 247, 99, 142, 189, 111,
   206, 242, 70, 16, 72, 54, 147, 66, 176, 19, 76, 37]⟩

def onycPeer : Pubkey :=
  ⟨[74, 154, 167, 126, 109, 112, 188, 152, 199, 73, 221, 35, 164, 250, 88, 101, 130, 135, 94, 81,
   153, 96, 228, 20, 106, 23, 75, 83, 11, 31, 126, 52]⟩

def onycRateLimit : Pubkey :=
  ⟨[230, 105, 104, 90, 96, 64, 209, 139, 94, 27, 47, 101, 3, 38, 134, 47, 39, 77, 238, 65, 226,
   210, 249, 244, 217, 121, 204, 241, 28, 52, 244, 156]⟩

def withdrawItemKey : Pubkey :=
  ⟨[22, 58, 57, 50, 145, 26, 242, 105, 66, 52, 200, 36, 49, 202, 54, 217, 122, 232, 13, 10, 73,
   244, 7, 232, 63, 227, 165, 193, 146, 45, 195, 59]⟩

/-- The item the USDC manager would keep for the withdraw's message. -/
def misroutedItemKey : Pubkey :=
  ⟨[210, 76, 164, 192, 95, 160, 231, 86, 206, 178, 252, 117, 204, 125, 189, 204, 249, 238, 192,
    142, 18, 154, 89, 61, 179, 230, 139, 250, 2, 174, 177, 128]⟩

def withdrawFlowKey : Pubkey :=
  ⟨[246, 11, 2, 83, 184, 81, 22, 17, 187, 170, 152, 12, 105, 8, 133, 42, 203, 218, 15, 90, 136,
   16, 251, 193, 183, 218, 36, 120, 46, 117, 86, 4]⟩

/-- The floor the user signed, in units of ONyc. -/
def floor : UInt64 := 90000000000

/-- 100 USDC. -/
def depositAmount : UInt64 := 100000000

/-- What the offer gives for the deposit. -/
def offerAmount : UInt64 := 95000000000

/-- What the user withdraws, in units of ONyc, and the floor for it, in units of USDC. -/
def withdrawAmount : UInt64 := 5000000000
def withdrawFloor : UInt64 := 4000000

/-- What the offer gives for what is left of it after the fee. -/
def withdrawSwapIn : UInt64 := 4975000000
def withdrawOffer : UInt64 := 5000000

/-- The bridged message: 100 USDC for the inbox of the user and the floor. -/
def depositMessage : TransceiverMessage where
  fromChain := 51
  id := List.replicate 32 3
  sender := fogoSetter.bytes
  amount := depositAmount
  decimals := 6
  sourceToken := List.replicate 32 4
  toAddress := userInboxAuthority.bytes
  toChain := 1

/-- The account the transceiver wrote for it. -/
def depositMessageBytes : Bytes :=
  validatedTransceiverMessageDisc ++ leBytes 2 51 ++ List.replicate 64 5 ++ depositMessage.id ++
    depositMessage.sender ++ leBytes 8 depositAmount.toNat ++ [6] ++ depositMessage.sourceToken ++
    leBytes 2 1 ++ depositMessage.toAddress

/-- The message of the withdraw. -/
def withdrawMessage : TransceiverMessage where
  fromChain := 51
  id := List.replicate 32 6
  sender := fogoSetter.bytes
  amount := withdrawAmount
  decimals := 8
  sourceToken := List.replicate 32 5
  toAddress := withdrawInboxAuthority.bytes
  toChain := 1

def withdrawMessageBytes : Bytes :=
  validatedTransceiverMessageDisc ++ leBytes 2 51 ++ List.replicate 64 5 ++ withdrawMessage.id ++
    withdrawMessage.sender ++ leBytes 8 withdrawAmount.toNat ++ [8] ++
    withdrawMessage.sourceToken ++ leBytes 2 1 ++ withdrawMessage.toAddress

def depositHash : Bytes :=
  [231, 120, 70, 191, 189, 167, 136, 190, 191, 217, 181, 228, 99, 33, 255, 98, 168, 181, 156,
   209, 156, 194, 2, 22, 156, 45, 190, 16, 178, 112, 49, 54]

def withdrawHash : Bytes :=
  [51, 28, 206, 249, 162, 37, 60, 170, 111, 160, 140, 30, 235, 142, 49, 82, 105, 204, 21, 110,
   242, 215, 208, 23, 220, 77, 235, 202, 138, 180, 236, 112]

def sendHash : Bytes :=
  [135, 115, 97, 114, 71, 240, 236, 46, 68, 247, 7, 112, 39, 84, 153, 121, 195, 245, 78, 71, 199,
   143, 107, 120, 3, 94, 185, 46, 138, 175, 35, 101]

def refundHash : Bytes :=
  [185, 22, 27, 130, 134, 100, 47, 34, 59, 233, 120, 16, 160, 237, 122, 236, 237, 84, 47, 15,
   252, 53, 86, 195, 146, 60, 83, 29, 93, 41, 246, 208]

/-- What the user is owed after the swap and a fee of 50 basis points. -/
def sendArgs : NttTransferArgs := ⟨94525000000, 51, user.bytes, false⟩

def refundArgs : NttTransferArgs := ⟨depositAmount, 51, user.bytes, false⟩

/-- Keccak, on the inputs this chain sees. -/
def referenceKeccak (input : Bytes) : Bytes :=
  if input = beBytes 2 51 ++ depositMessage.wire then depositHash
  else if input = beBytes 2 51 ++ withdrawMessage.wire then withdrawHash
  else if input = sendArgs.packBe then sendHash
  else if input = refundArgs.packBe then refundHash
  else input

/-- An associated token account of the token program. -/
def ataEntry (wallet mint key : Pubkey) (bump : UInt8) : Derivation :=
  ⟨[wallet.bytes, tokenProgram.bytes, mint.bytes], associatedTokenProgram, key, bump⟩

/-- Every derivation a run of this chain, or a scan beside it, asks for. -/
def knownAddresses : List Derivation :=
  [⟨[relayerSeed], programId, relayerKey, 250⟩,
   ⟨[globalConfigSeed], programId, globalConfigKey, 254⟩,
   ⟨[pairConfigSeed, usdcMint.bytes, onycMint.bytes], programId, pairConfigKey, 255⟩,
   ⟨[userInboxSeed, user.bytes, leBytes 8 floor.toNat], programId, userInboxAuthority, 255⟩,
   ⟨[inboundSeed, pairConfigKey.bytes, inboxItemKey.bytes], programId, flowKey, 255⟩,
   ⟨[intentTransferSeed], fogoIntentProgram, fogoSetter, 254⟩,
   ⟨[intentTransferSeed], onreIntentProgram, onreSetter, 254⟩,
   ⟨[ascii "peer", beBytes 2 51], nttUsdcProgram, fogoPeer, 255⟩,
   ⟨[ascii "inbox_rate_limit", beBytes 2 51], nttUsdcProgram, fogoRateLimit, 254⟩,
   ⟨[ascii "token_authority"], nttUsdcProgram, usdcTokenAuthority, 252⟩,
   ⟨[ascii "token_authority"], nttOnycProgram, onycTokenAuthority, 252⟩,
   ⟨[inboxItemSeed, depositHash], nttUsdcProgram, inboxItemKey, 254⟩,
   ⟨[userInboxSeed, user.bytes, leBytes 8 withdrawFloor.toNat], programId, withdrawInboxAuthority,
    251⟩,
   ⟨[outboundSeed, pairConfigKey.bytes, withdrawItemKey.bytes], programId, withdrawFlowKey, 255⟩,
   ⟨[ascii "peer", beBytes 2 51], nttOnycProgram, onycPeer, 255⟩,
   ⟨[ascii "inbox_rate_limit", beBytes 2 51], nttOnycProgram, onycRateLimit, 255⟩,
   ⟨[inboxItemSeed, withdrawHash], nttOnycProgram, withdrawItemKey, 255⟩,
   ⟨[inboxItemSeed, withdrawHash], nttUsdcProgram, misroutedItemKey, 255⟩,
   ⟨[nttSessionAuthoritySeed, relayerKey.bytes, sendHash], nttOnycProgram, sendSession, 254⟩,
   ⟨[nttSessionAuthoritySeed, relayerKey.bytes, refundHash], nttUsdcProgram, refundSession, 255⟩,
   ⟨[ascii "offer_vault_authority"], onreProgram, offerVaultAuthority, 255⟩,
   ataEntry relayerKey usdcMint baseAta 253,
   ataEntry relayerKey onycMint assetAta 255,
   ataEntry userInboxAuthority usdcMint userInboxAta 254,
   ataEntry withdrawInboxAuthority onycMint withdrawInboxAta 254,
   ataEntry usdcTokenAuthority usdcMint usdcCustody 253,
   ataEntry onycTokenAuthority onycMint onycCustody 255,
   ataEntry admin onycMint feeVault 253,
   ataEntry offerVaultAuthority usdcMint offerUsdc 254,
   ataEntry offerVaultAuthority onycMint offerOnyc 255]

def referenceBook : AddressBook where
  entries := knownAddresses
  input_inj := by decide +kernel
  key_inj := by decide +kernel
  length_eq := by decide +kernel

/-! ## Programs -/

/-- The derivations and hashes of the chain, without its programs. -/
def referenceBase : RelayerRuntime where
  findProgramAddress := referenceBook.find
  createProgramAddress := referenceBook.create
  keccak := referenceKeccak
  minimumBalance n := (128 + n) * 6960
  invoke _ _ _ := none

/-- A fixed-price offer: tokens in go to the vault, tokens out come from it. The amounts are the
instruction's data. -/
def offerInvoke (ix : Instruction) (a : RelayerAccounts) : Option RelayerAccounts :=
  match ix.accounts with
  | [payer, source, vaultIn, vaultOut, dest] => do
    let s ← tokenAt a source.pubkey
    let v ← tokenAt a vaultOut.pubkey
    guard (s.owner = payer.pubkey ∧ payer.isSigner = true ∧ v.owner = offerVaultAuthority ∧
      ∀ m ∈ [source, vaultIn, vaultOut, dest], m.isWritable = true)
    let a ← moveTokens a source.pubkey vaultIn.pubkey (UInt64.ofNat (ofLeBytes (slice ix.data 0 8)))
    moveTokens a vaultOut.pubkey dest.pubkey (UInt64.ofNat (ofLeBytes (slice ix.data 8 8)))
  | _ => none

/-- The mint each manager of the chain manages. -/
def referenceMint (p : Pubkey) : Option Pubkey :=
  if p = nttUsdcProgram then some usdcMint
  else if p = nttOnycProgram then some onycMint
  else none

def referenceInvoke (ix : Instruction) (clock : Clock) (a : RelayerAccounts) :
    Option RelayerAccounts :=
  if IsTokenProgram ix.programId then tokenInvoke ix a
  else
    match referenceMint ix.programId with
    | some mint => nttInvoke referenceBase consumeOrDelay ix.programId mint ix clock a
    | none => if ix.programId = onreProgram then offerInvoke ix a else none

def referenceEnv : Env where
  runtime := { referenceBase with invoke := referenceInvoke }
  nttMint := referenceMint
  limiter _ := consumeOrDelay

/-- The same programs on a chain that derives and hashes as `base` does. -/
def invokeOn (base : RelayerRuntime) (ix : Instruction) (clock : Clock) (a : RelayerAccounts) :
    Option RelayerAccounts :=
  if IsTokenProgram ix.programId then tokenInvoke ix a
  else
    match referenceMint ix.programId with
    | some mint => nttInvoke base consumeOrDelay ix.programId mint ix clock a
    | none => if ix.programId = onreProgram then offerInvoke ix a else none

def envOn (base : RelayerRuntime) : Env where
  runtime := { base with invoke := invokeOn base }
  nttMint := referenceMint
  limiter _ := consumeOrDelay

/-! ## Genesis -/

/-- A rate limit that is full. -/
def rateLimitBytes (limit : UInt64) : Bytes :=
  List.replicate 9 0 ++ leBytes 8 limit.toNat ++ leBytes 8 limit.toNat ++ leBytes 8 0

def walletAccount : Account RelayerData := ⟨1000000000, systemProgram, .empty⟩

def mintAccount (decimals : UInt8) : Account RelayerData :=
  ⟨1461600, tokenProgram, .mint ⟨decimals⟩⟩

/-- A token account nobody but its owner can spend from. -/
def heldBy (owner mint : Pubkey) (amount : UInt64) : TokenAccount :=
  ⟨mint, owner, amount, none, 0, none⟩

/-- The token accounts there are before the program is deployed. -/
def genesisTokens : List (Pubkey × TokenAccount) :=
  [(feeVault, heldBy admin onycMint 0), (userInboxAta, heldBy userInboxAuthority usdcMint 0),
   (withdrawInboxAta, heldBy withdrawInboxAuthority onycMint 0),
   (usdcCustody, heldBy usdcTokenAuthority usdcMint 1000000000),
   (onycCustody, heldBy onycTokenAuthority onycMint 50000000000),
   (offerUsdc, heldBy offerVaultAuthority usdcMint 50000000),
   (offerOnyc, heldBy offerVaultAuthority onycMint 1000000000000)]

/-- All accounts there are then. `limit` is how much the USDC manager lets in at once. -/
def genesisAccounts (limit : UInt64) : List (Pubkey × Account RelayerData) :=
  [(admin, walletAccount), (cranker, walletAccount), (usdcMint, mintAccount 6),
   (onycMint, mintAccount 9),
   (transceiverMessage, ⟨2000000, nttUsdcProgram, .raw depositMessageBytes⟩),
   (fogoRateLimit, ⟨1000000, nttUsdcProgram, .raw (rateLimitBytes limit)⟩),
   (withdrawTransceiverMessage, ⟨2000000, nttOnycProgram, .raw withdrawMessageBytes⟩),
   (onycRateLimit, ⟨1000000, nttOnycProgram, .raw (rateLimitBytes 1000000000000)⟩)] ++
  genesisTokens.map (fun e => (e.1, ⟨2039280, tokenProgram, .token e.2⟩))

def accountsOf (l : List (Pubkey × Account RelayerData)) (k : Pubkey) : Account RelayerData :=
  (l.lookup k).getD .absent

def genesis (limit : UInt64) : RelayerWorld where
  accounts := accountsOf (genesisAccounts limit)
  clock := ⟨1000000, 1700000000⟩
  cpis := []
  events := []

/-! ## Instructions of a deposit -/

def readonly (k : Pubkey) : AccountMeta := ⟨k, false, false⟩
def writable (k : Pubkey) : AccountMeta := ⟨k, false, true⟩

def bootstrapAction : Action := .bootstrap ⟨[admin], []⟩ ⟨admin, globalConfigKey, systemProgram⟩

def initializeAction : Action :=
  .initializePair ⟨[admin], []⟩
    { authority := admin
      globalConfig := globalConfigKey
      pairConfig := pairConfigKey
      relayerAuthority := relayerKey
      baseMint := usdcMint
      assetMint := onycMint
      baseAta := baseAta
      assetAta := assetAta
      feeVault := feeVault
      tokenProgram := tokenProgram
      associatedTokenProgram := associatedTokenProgram
      systemProgram := systemProgram }
    ⟨50, 50, nttUsdcProgram, nttOnycProgram, (fogoIntentProgram, onreIntentProgram)⟩

def configureAction (args : ConfigureArgs) : Action :=
  .configure ⟨[admin], []⟩
    { authority := admin
      pairConfig := pairConfigKey
      relayerAuthority := relayerKey
      assetMint := onycMint
      assetAta := assetAta
      feeVault := none
      tokenProgram := tokenProgram }
    args

def acceptAuthorityAction : Action := .acceptAuthority ⟨[cranker], []⟩ ⟨cranker, pairConfigKey⟩

/-- The account lists of `redeem` and `release_inbound_unlock`. Accounts the manager of this chain
does not look at are left blank. -/
def redeemMetas : List AccountMeta :=
  [writable relayerKey, readonly .default, readonly fogoPeer, readonly transceiverMessage,
   readonly .default, readonly usdcMint, writable inboxItemKey, writable fogoRateLimit,
   readonly .default, readonly systemProgram, readonly nttUsdcProgram]

def releaseMetas : List AccountMeta :=
  [writable relayerKey, readonly .default, writable inboxItemKey, writable userInboxAta,
   readonly usdcTokenAuthority, writable usdcMint, readonly tokenProgram, writable usdcCustody,
   readonly nttUsdcProgram]

def receiveContext : Context := ⟨[cranker], redeemMetas ++ releaseMetas⟩

def receiveAccounts : ReceiveAccounts where
  payer := cranker
  pairConfig := pairConfigKey
  relayerAuthority := relayerKey
  recvMint := usdcMint
  recvAta := baseAta
  userWallet := user
  userInboxAuthority := userInboxAuthority
  userInboxAta := userInboxAta
  nttInboxItem := inboxItemKey
  nttTransceiverMessage := transceiverMessage
  nttProgram := nttUsdcProgram
  flow := flowKey
  tokenProgram := tokenProgram
  systemProgram := systemProgram

def receiveArgs : ReceiveArgs := ⟨.deposit, 11, floor⟩

def receiveAction : Action := .receive receiveContext receiveAccounts receiveArgs

def flowAccounts : FlowAccounts where
  pairConfig := pairConfigKey
  relayerAuthority := relayerKey
  baseMint := usdcMint
  assetMint := onycMint
  baseAta := baseAta
  assetAta := assetAta
  nttInboxItem := inboxItemKey
  flow := flowKey
  tokenProgram := tokenProgram

def swapAction : Action :=
  .swap ⟨[], [readonly relayerKey, writable baseAta, writable offerUsdc, writable offerOnyc,
      writable assetAta]⟩
    { flowAccounts with
      feeVault := feeVault
      swapProgram := onreProgram
      swapDelegate := relayerKey }
    (leBytes 8 depositAmount.toNat ++ leBytes 8 offerAmount.toNat)

/-! ## Instructions of a withdraw -/

def withdrawRedeemMetas : List AccountMeta :=
  [writable relayerKey, readonly .default, readonly onycPeer, readonly withdrawTransceiverMessage,
   readonly .default, readonly onycMint, writable withdrawItemKey, writable onycRateLimit,
   readonly .default, readonly systemProgram, readonly nttOnycProgram]

def withdrawReleaseMetas : List AccountMeta :=
  [writable relayerKey, readonly .default, writable withdrawItemKey, writable withdrawInboxAta,
   readonly onycTokenAuthority, writable onycMint, readonly tokenProgram, writable onycCustody,
   readonly nttOnycProgram]

def withdrawReceiveAccounts : ReceiveAccounts :=
  { receiveAccounts with
    recvMint := onycMint
    recvAta := assetAta
    userInboxAuthority := withdrawInboxAuthority
    userInboxAta := withdrawInboxAta
    nttInboxItem := withdrawItemKey
    nttTransceiverMessage := withdrawTransceiverMessage
    nttProgram := nttOnycProgram
    flow := withdrawFlowKey }

def withdrawReceiveAction : Action :=
  .receive ⟨[cranker], withdrawRedeemMetas ++ withdrawReleaseMetas⟩ withdrawReceiveAccounts
    ⟨.withdraw, 11, withdrawFloor⟩

def withdrawSwapContext : Context :=
  ⟨[], [readonly relayerKey, writable assetAta, writable offerOnyc, writable offerUsdc,
    writable baseAta]⟩

def withdrawSwapAccounts : SwapAccounts :=
  { flowAccounts with
    nttInboxItem := withdrawItemKey
    flow := withdrawFlowKey
    feeVault := feeVault
    swapProgram := onreProgram
    swapDelegate := relayerKey }

def withdrawSwapData : Bytes := leBytes 8 withdrawSwapIn.toNat ++ leBytes 8 withdrawOffer.toNat

def withdrawSwapAction : Action :=
  .swap withdrawSwapContext withdrawSwapAccounts withdrawSwapData

/-! ## Instructions of a payout -/

/-- The account list of `transfer_lock`, with a fresh `outboxItem`. -/
def lockMetas (sender mint source outboxItem custody session : Pubkey) : List AccountMeta :=
  [writable sender, readonly .default, writable mint, writable source, readonly tokenProgram,
   ⟨outboxItem, true, true⟩, writable .default, writable custody, readonly systemProgram,
   writable .default, readonly .default, readonly session]

/-- The account list of `release_wormhole_outbound`. -/
def publishMetas (payer outboxItem : Pubkey) : List AccountMeta :=
  [⟨payer, true, true⟩, readonly .default, writable outboxItem]

def outboxItem : Pubkey := ⟨List.replicate 32 11⟩

def outboundAccounts : OutboundAccounts :=
  { flowAccounts with
    payer := cranker
    rentDestination := cranker }

def sendAction : Action :=
  .send ⟨[cranker, outboxItem], lockMetas relayerKey onycMint assetAta outboxItem onycCustody
      sendSession ++ publishMetas cranker outboxItem⟩ outboundAccounts 12

def refundAction : Action :=
  .refund ⟨[cranker, outboxItem], lockMetas relayerKey usdcMint baseAta outboxItem usdcCustody
      refundSession ++ publishMetas cranker outboxItem⟩ outboundAccounts 12

/-- Let `slots` go by from genesis. -/
def tickAction (slots : UInt64) : Action := .tick ⟨1000000 + slots, 1700000000⟩

/-- A deposit that is received, swapped and sent, while a fee increase ripens. -/
def depositActions : List Action :=
  [bootstrapAction, initializeAction, configureAction ⟨some 100, none, none⟩, receiveAction,
   swapAction, sendAction, tickAction feeTimelockSlots, configureAction ⟨none, none, none⟩]

/-- A withdraw that is received and swapped. -/
def withdrawActions : List Action :=
  [bootstrapAction, initializeAction, withdrawReceiveAction, withdrawSwapAction]

/-- The authority of the pair is handed over to the cranker. -/
def handoverActions : List Action :=
  [bootstrapAction, initializeAction, configureAction ⟨none, none, some cranker⟩,
   acceptAuthorityAction]

/-- A deposit that nobody swaps in time, so that it can be refunded. -/
def stalledActions : List Action :=
  [bootstrapAction, initializeAction, receiveAction, tickAction refundTimeoutSlots]

/-- The deposit is refunded, and more time goes by. -/
def refundedActions : List Action :=
  stalledActions ++ [refundAction, tickAction feeTimelockSlots]

/-- The deposit is refunded, and then received again on tokens somebody sent to the inbox. -/
def replayActions : List Action :=
  stalledActions ++ [refundAction, .deposit userInboxAta depositAmount, receiveAction]

/-- The deposit is received while its own release is delayed, on tokens that were there. -/
def delayedActions : List Action :=
  [bootstrapAction, initializeAction, .deposit userInboxAta depositAmount, receiveAction]

end FogoYield.Relayer
