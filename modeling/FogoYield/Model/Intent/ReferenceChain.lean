import FogoYield.Model.Intent.Program
import FogoYield.Model.Intent.Reference
import FogoYield.Model.Relayer.Reference
import FogoYield.Solana.AddressBook
import FogoYield.Solana.TokenProgram

/-! # A reference chain for the intent program

A concrete FOGO that the program runs on: one mint with its NTT manager, and a wallet that sends
tokens, sends the native token and bridges, all through one session. The derived addresses and bumps
are the real ones of their seeds, and so is the hash; the id of the crate that stores the chain id
and the wallets are made up. -/

namespace FogoYield.Intent

open FogoYield.Library FogoYield.Solana
open FogoYield.Relayer (ascii slice nttSessionAuthoritySeed)

/-! ## Keys -/

def upgradeAuthority : Pubkey := ⟨List.replicate 32 1⟩
def sponsor : Pubkey := ⟨List.replicate 32 2⟩
def feeRecipient : Pubkey := ⟨List.replicate 32 5⟩
def friend : Pubkey := ⟨List.replicate 32 6⟩
def wallet : Pubkey := ⟨List.replicate 32 7⟩

/-- The session key that acts for the wallet. -/
def session : Pubkey := ⟨List.replicate 32 8⟩

/-- The fresh account the NTT manager queues the transfer in. -/
def outboxItem : Pubkey := ⟨List.replicate 32 9⟩

def quotePayee : Pubkey := ⟨List.replicate 32 12⟩

/-- An account that the programs of this chain do not look at. -/
def unusedAccount (n : UInt8) : Pubkey := ⟨List.replicate 32 n⟩

def chainIdProgram : Pubkey := ⟨List.replicate 32 11⟩

def usdcMint : Pubkey :=
  ⟨[13, 111, 44, 9, 174, 76, 85, 138, 239, 228, 126, 179, 23, 50, 63, 248, 26, 178, 54, 88, 234,
   139, 93, 125, 129, 195, 114, 215, 207, 252, 255, 79]⟩

example : usdcMint = Pubkey.literal "uSd2czE61Evaf76RNbq4KPpXnkiL3irdzgLFUMe3NoG" := by
  decide +kernel

def nttUsdcManager : Pubkey :=
  ⟨[11, 193, 208, 101, 62, 127, 229, 28, 72, 246, 107, 254, 36, 202, 100, 102, 186, 84, 23, 112,
   220, 137, 179, 172, 48, 80, 221, 216, 146, 227, 248, 137]⟩

/-! ## Derived addresses -/

def intentSetter : Pubkey :=
  ⟨[193, 40, 63, 205, 247, 113, 35, 39, 109, 254, 208, 112, 46, 231, 123, 169, 148, 78, 49, 136,
   13, 44, 132, 38, 124, 174, 36, 8, 239, 9, 180, 27]⟩

def programSigner : Pubkey :=
  ⟨[45, 25, 78, 246, 10, 67, 59, 13, 59, 232, 220, 143, 142, 31, 34, 15, 93, 187, 235, 209, 131,
   21, 255, 120, 139, 227, 184, 115, 231, 179, 71, 93]⟩

def walletNonce : Pubkey :=
  ⟨[201, 156, 39, 180, 227, 209, 245, 85, 32, 136, 113, 2, 201, 181, 113, 93, 22, 92, 134, 173,
   212, 220, 129, 75, 113, 11, 7, 150, 80, 183, 71, 253]⟩

def walletBridgeNonce : Pubkey :=
  ⟨[136, 39, 51, 230, 220, 136, 96, 230, 255, 57, 212, 195, 66, 8, 160, 81, 190, 108, 139, 77,
   248, 202, 74, 232, 236, 179, 198, 91, 217, 167, 76, 45]⟩

def walletTokens : Pubkey :=
  ⟨[216, 151, 176, 182, 80, 194, 39, 129, 222, 38, 77, 84, 166, 42, 111, 127, 185, 181, 130, 109,
   96, 193, 11, 29, 103, 84, 26, 205, 175, 182, 240, 145]⟩

def friendTokens : Pubkey :=
  ⟨[87, 70, 48, 104, 193, 168, 54, 103, 61, 129, 104, 20, 62, 82, 195, 224, 71, 204, 100, 229,
   186, 169, 110, 225, 254, 83, 196, 167, 219, 246, 2, 119]⟩

def feeTokens : Pubkey :=
  ⟨[232, 232, 2, 86, 167, 16, 45, 64, 134, 96, 218, 192, 81, 46, 69, 77, 245, 255, 237, 27, 82,
   134, 70, 245, 45, 3, 88, 45, 143, 220, 116, 233]⟩

def intermediate : Pubkey :=
  ⟨[30, 199, 210, 85, 51, 194, 149, 120, 68, 7, 70, 250, 25, 54, 42, 15, 89, 241, 16, 17, 73, 96,
   46, 83, 237, 26, 200, 248, 151, 110, 187, 99]⟩

def usdcFeeConfig : Pubkey :=
  ⟨[99, 171, 253, 25, 56, 211, 67, 12, 187, 186, 62, 22, 17, 236, 124, 177, 106, 92, 162, 3, 217,
   227, 21, 56, 74, 113, 22, 135, 25, 96, 81, 49]⟩

def usdcNttConfig : Pubkey :=
  ⟨[83, 102, 87, 33, 203, 18, 132, 154, 118, 238, 150, 193, 158, 194, 179, 176, 26, 95, 50, 27,
   251, 9, 241, 62, 35, 113, 29, 182, 220, 90, 102, 24]⟩

def fogoChainId : Pubkey :=
  ⟨[181, 72, 27, 3, 179, 238, 185, 66, 63, 101, 155, 49, 171, 178, 228, 140, 83, 128, 26, 152,
   45, 123, 242, 154, 184, 155, 251, 183, 122, 54, 229, 138]⟩

def intentProgramData : Pubkey :=
  ⟨[33, 46, 194, 148, 103, 120, 46, 227, 19, 217, 13, 235, 197, 112, 158, 130, 198, 18, 33, 160,
   131, 75, 181, 44, 160, 147, 188, 69, 130, 109, 99, 149]⟩

def walletInbox : Pubkey :=
  ⟨[17, 98, 198, 225, 252, 212, 218, 183, 217, 88, 14, 131, 177, 60, 72, 115, 95, 99, 192, 39,
   108, 160, 172, 138, 188, 222, 157, 103, 42, 225, 162, 10]⟩

def burnSession : Pubkey :=
  ⟨[7, 75, 178, 14, 72, 22, 62, 250, 171, 145, 81, 252, 196, 199, 135, 197, 33, 208, 125, 212,
   68, 33, 208, 244, 116, 72, 160, 72, 83, 82, 69, 118]⟩

def wormholeMessage : Pubkey :=
  ⟨[19, 20, 30, 180, 135, 103, 110, 14, 218, 19, 127, 194, 175, 39, 21, 198, 243, 90, 68, 187,
   155, 78, 75, 190, 214, 247, 191, 181, 16, 204, 116, 98]⟩

/-- On Solana: the inbox item of the bridged message, and the flow opened for it. -/
def walletItem : Pubkey :=
  ⟨[223, 204, 108, 159, 181, 29, 23, 21, 162, 233, 46, 133, 0, 30, 199, 205, 35, 69, 141, 137,
   176, 32, 163, 50, 2, 84, 189, 199, 173, 26, 120, 245]⟩

def walletFlow : Pubkey :=
  ⟨[106, 188, 205, 26, 112, 140, 69, 15, 161, 63, 155, 184, 216, 90, 194, 202, 5, 104, 135, 51,
   170, 153, 171, 211, 177, 149, 193, 51, 144, 103, 33, 119]⟩

/-! ## The bridged amount -/

def bridgedAmount : UInt64 := 10000000

/-- The floor the wallet signs, in units of the mint it buys. -/
def signedFloor : UInt64 := 90000000000

def burnArgs : TransferArgs := ⟨bridgedAmount, 1, walletInbox.bytes, false⟩

def burnHash : Bytes :=
  [0, 19, 84, 119, 4, 166, 5, 189, 125, 151, 243, 137, 90, 252, 194, 52, 81, 198, 213, 173, 72,
   198, 19, 180, 218, 115, 242, 174, 231, 148, 108, 158]

/-- The hash of the bridged message. -/
def messageHash : Bytes :=
  [30, 77, 91, 36, 85, 46, 129, 27, 9, 142, 233, 69, 158, 54, 53, 116, 42, 8, 158, 20, 194, 210,
   141, 163, 51, 229, 203, 199, 195, 97, 88, 160]

/-- `TransferArgs::keccak256` hashes the fields most significant byte first. -/
def TransferArgs.packBe (a : TransferArgs) : Bytes :=
  beBytes 8 a.amount.toNat ++ beBytes 2 a.recipientChain.toNat ++ a.recipientAddress ++
    [boolByte a.shouldQueue]

/-- Keccak, on the input this chain sees. -/
def referenceKeccak (input : Bytes) : Bytes := if input = burnArgs.packBe then burnHash else input

/-! ## The address book -/

/-- An associated token account of the mint. -/
def ataEntry (owner key : Pubkey) (bump : UInt8) : Derivation :=
  ⟨[owner.bytes, tokenProgram.bytes, usdcMint.bytes], associatedTokenProgram, key, bump⟩

/-- Every derivation that a run of this chain asks for, and one of Solana at the other end. -/
def knownAddresses : List Derivation :=
  [⟨[intentTransferSeed], programId, intentSetter, 254⟩,
   ⟨[programSignerSeed], programId, programSigner, 255⟩,
   ⟨[intentTransferNonceSeed, wallet.bytes], programId, walletNonce, 255⟩,
   ⟨[bridgeNttNonceSeed, wallet.bytes], programId, walletBridgeNonce, 255⟩,
   ⟨intermediateSeeds walletTokens, programId, intermediate, 255⟩,
   ⟨feeConfigSeeds usdcMint, programId, usdcFeeConfig, 255⟩,
   ⟨expectedNttConfigSeeds usdcMint, programId, usdcNttConfig, 255⟩,
   ⟨[ascii "chain_id"], chainIdProgram, fogoChainId, 255⟩,
   ⟨[programId.bytes], bpfLoaderUpgradeable, intentProgramData, 251⟩,
   ⟨recipientSeeds wallet signedFloor, relayerProgramId, walletInbox, 255⟩,
   ⟨[nttSessionAuthoritySeed, intentSetter.bytes, burnHash], nttUsdcManager, burnSession, 255⟩,
   ⟨[ascii "message", outboxItem.bytes], nttUsdcManager, wormholeMessage, 251⟩,
   ataEntry wallet walletTokens 255,
   ataEntry friend friendTokens 254,
   ataEntry feeRecipient feeTokens 255,
   ⟨[Relayer.inboxItemSeed, messageHash], nttUsdcManager, walletItem, 255⟩,
   ⟨Relayer.flowSeeds .deposit Relayer.pairConfigKey walletItem, Relayer.programId, walletFlow,
    254⟩] ++ Relayer.knownAddresses

def referenceBook : AddressBook where
  entries := knownAddresses
  input_inj := by decide +kernel
  key_inj := by decide +kernel
  length_eq := by decide +kernel

/-! ## Crates -/

/-- A decimal with at most `decimals` digits behind its point, in units of the last of them. -/
def referenceUiAmount (amount : String) (decimals : UInt8) : Option UInt64 :=
  let scaled (whole part : List Char) : Option UInt64 :=
    if part.length ≤ decimals.toNat then
      u64FromStr (String.ofList (whole ++ part ++
        List.replicate (decimals.toNat - part.length) '0'))
    else none
  match amount.toList.splitOn '.' with
  | [whole] => scaled whole []
  | [whole, part] => scaled whole part
  | _ => none

/-- `UpgradeableLoaderState::ProgramData`: its tag, a slot and the authority. -/
def referenceUpgradeAuthorityOf (bytes : Bytes) : Option (Option Pubkey) :=
  if bytes.take 4 = [3, 0, 0, 0] ∧ 45 ≤ bytes.length then
    some (if slice bytes 12 1 = [1] then some ⟨slice bytes 13 32⟩ else none)
  else none

def referenceCrates : Crates where
  intents := referenceIntents
  tryUiAmountIntoAmount := referenceUiAmount
  chainIdProgram := chainIdProgram
  chainIdSeed := ascii "chain_id"
  chainIdOf := fromUtf8?
  metadataProgram := Pubkey.literal "metaqbxxUerdq28cj1RbAWkYQm3ybzjb6a8bt518x1s"
  metadataSymbol := fromUtf8?
  upgradeAuthorityOf := referenceUpgradeAuthorityOf

/-! ## Programs -/

/-- Whom a signature stands for: a session key for its wallet, any other key for itself. -/
def sessionUser (authority : Pubkey) : Pubkey := if authority = session then wallet else authority

def closeToken (account dest owner : Pubkey) (a : IntentAccounts) : Option IntentAccounts := do
  let t ← tokenOf tokenProgram a account
  guard (t.owner = owner ∧ t.closeAuthority = none ∧ dest ≠ account ∧
    (t.mint = nativeMint ∨ t.amount = 0))
  some (setLamports (Function.update a account Account.absent) dest
    ((a dest).lamports + (a account).lamports))

/-- The token program of FOGO: transfers a session authorises, closing, and what every token
program executes. -/
def fogoTokenInvoke (ix : Instruction) (a : IntentAccounts) : Option IntentAccounts :=
  match ix.accounts with
  | [source, mint, dest, authority, signer] =>
    let amount := UInt64.ofNat (ofLeBytes (slice ix.data 1 8))
    let decimals := (ix.data.drop 9).headD 0
    if ix = inSessionTransferIx ix.programId source.pubkey mint.pubkey dest.pubkey
        authority.pubkey signer.pubkey amount decimals then
      transferChecked ix.programId source.pubkey mint.pubkey dest.pubkey
        (sessionUser authority.pubkey) amount decimals a
    else none
  | [account, dest, owner] =>
    if ix = closeAccountIx ix.programId account.pubkey dest.pubkey owner.pubkey then
      closeToken account.pubkey dest.pubkey owner.pubkey a
    else tokenInvoke ix a
  | _ => tokenInvoke ix a

/-- Move lamports between two accounts. -/
def moveLamports (a : IntentAccounts) (source dest : Pubkey) (n : ℕ) : Option IntentAccounts :=
  if source = dest then some a
  else if n ≤ (a source).lamports then
    some (setLamports (setLamports a source ((a source).lamports - n)) dest ((a dest).lamports + n))
  else none

/-- The system program's transfer for an intent, which only the setter authorises. -/
def systemInvoke (ix : Instruction) (a : IntentAccounts) : Option IntentAccounts :=
  match ix.accounts with
  | [source, dest, setter] =>
    let amount := UInt64.ofNat (ofLeBytes (slice ix.data 4 8))
    if ix = intentTransferIx source.pubkey dest.pubkey setter.pubkey amount ∧
        setter.pubkey = intentSetter then
      moveLamports a source.pubkey dest.pubkey amount.toNat
    else none
  | _ => none

/-- `transfer_burn`: the session authority of the arguments burns what was delegated to it, and the
transfer is queued in the outbox item. -/
def burnInvoke (ix : Instruction) (a : IntentAccounts) : Option IntentAccounts := do
  let args := ix.data.drop 8
  let amount := UInt64.ofNat (ofLeBytes (slice args 0 8))
  let chain := UInt16.ofNat (ofLeBytes (slice args 8 2))
  let burned : TransferArgs := ⟨amount, chain, slice args 10 32, slice args 42 1 = [1]⟩
  match ix.accounts with
  | [_, _, mint, source, _, outbox, _, _, _, _, _, authority, _] => do
    let t ← tokenAt a source.pubkey
    let key := (referenceBook.find
      [nttSessionAuthoritySeed, t.owner.bytes, referenceKeccak burned.packBe] ix.programId).1
    guard (source.isWritable = true ∧ outbox.isWritable = true ∧ outbox.isSigner = true ∧
      t.mint = mint.pubkey ∧ authority.pubkey = key ∧ t.delegate = some key ∧
      amount ≤ t.amount ∧ amount ≤ t.delegatedAmount ∧ Unused a outbox.pubkey)
    let t' ← t.debit key amount
    some (Function.update (setToken a source.pubkey t') outbox.pubkey
      { a outbox.pubkey with owner := ix.programId, data := .raw args })
  | _ => none

/-- `release_wormhole_outbound`: the queued transfer becomes a message of the manager. -/
def releaseInvoke (ix : Instruction) (a : IntentAccounts) : Option IntentAccounts :=
  match ix.accounts with
  | [_, _, outbox, _, message, _, _, _, _, wormhole, _, _, _] => do
    guard ((a outbox.pubkey).owner = ix.programId ∧ message.isWritable = true ∧
      message.pubkey =
        (referenceBook.find [ascii "message", outbox.pubkey.bytes] ix.programId).1 ∧
      Unused a message.pubkey ∧ wormhole.pubkey = unusedAccount 30)
    some (Function.update a message.pubkey
      { a message.pubkey with owner := wormhole.pubkey, data := .raw (a outbox.pubkey).bytes })
  | _ => none

def managerInvoke (ix : Instruction) (a : IntentAccounts) : Option IntentAccounts :=
  if transferBurnDiscriminator.isPrefixOf ix.data then burnInvoke ix a
  else if releaseWormholeOutboundDiscriminator.isPrefixOf ix.data then releaseInvoke ix a
  else none

/-- The executor is paid what the arguments say. -/
def executorInvoke (ix : Instruction) (a : IntentAccounts) : Option IntentAccounts :=
  match ix.accounts with
  | [payer, payee, _, _, _, _, _] =>
    if payer.isWritable = true ∧ payee.isWritable = true ∧ payer.isSigner = true then
      moveLamports a payer.pubkey payee.pubkey (ofLeBytes (slice ix.data 10 8))
    else none
  | _ => none

def referenceInvoke (ix : Instruction) (a : IntentAccounts) : Option IntentAccounts :=
  if ix.programId = tokenProgram then fogoTokenInvoke ix a
  else if ix.programId = systemProgram then systemInvoke ix a
  else if ix.programId = nttUsdcManager then managerInvoke ix a
  else if ix.programId = nttWithExecutorProgramId then executorInvoke ix a
  else none

def referenceRuntime : IntentRuntime where
  findProgramAddress := referenceBook.find
  createProgramAddress := referenceBook.create
  keccak := referenceKeccak
  minimumBalance n := (128 + n) * 6960
  invoke ix _ a := referenceInvoke ix a

/-! ## Genesis -/

def walletAccount : Account IntentData := ⟨1000000000, systemProgram, .empty⟩

/-- A token account of the mint that nobody but its owner can spend from. -/
def heldBy (owner : Pubkey) (amount : UInt64) : Account IntentData :=
  ⟨2039280, tokenProgram, .token ⟨usdcMint, owner, amount, none, 0, none⟩⟩

/-- All accounts there are before the program is deployed. -/
def genesisAccounts : List (Pubkey × Account IntentData) :=
  [(upgradeAuthority, walletAccount), (sponsor, walletAccount), (wallet, walletAccount),
   (friend, walletAccount), (usdcMint, ⟨1461600, tokenProgram, .mint ⟨6⟩⟩),
   (walletTokens, heldBy wallet 25000000), (feeTokens, heldBy feeRecipient 0),
   (fogoChainId, ⟨1000000, chainIdProgram, .raw (utf8 "fogo-mainnet")⟩),
   (intentProgramData, ⟨1000000, bpfLoaderUpgradeable,
     .raw ([3, 0, 0, 0] ++ leBytes 8 100 ++ [1] ++ upgradeAuthority.bytes)⟩)]

def genesis : IntentWorld where
  accounts k := (genesisAccounts.lookup k).getD .absent
  clock := ⟨1000000, 1700000000⟩
  cpis := []
  events := []

/-! ## Instructions -/

def feeConfig : FeeConfig := ⟨100000, 500000, feeRecipient⟩

def configAccounts (config : Pubkey) : ConfigAccounts :=
  ⟨upgradeAuthority, intentProgramData, usdcMint, config, systemProgram⟩

def registerNttAction : Action :=
  .registerNttConfig ⟨[upgradeAuthority], []⟩ (configAccounts usdcNttConfig) nttUsdcManager

def registerFeeAction : Action :=
  .registerFeeConfig ⟨[upgradeAuthority], []⟩ (configAccounts usdcFeeConfig) feeConfig

/-- What the wallet signed, in a transaction its session sends. -/
def signedContext (message : Bytes) : IntentContext where
  signers := [sponsor, session, outboxItem]
  remaining := []
  intent := .ok ⟨wallet, message⟩

def feeAccounts : FeeAccounts where
  feeSource := walletTokens
  feeDestination := feeTokens
  feeMint := usdcMint
  feeMetadata := none
  feeConfig := usdcFeeConfig
  signerOrSession := session
  programSigner := programSigner

/-- A message: its first line, a blank one and the lines of its fields. -/
def messageOf (first : String) (fields : List String) : Bytes :=
  utf8 first ++ [Parser.newline] ++ [Parser.newline].intercalate (fields.map utf8)

def transferMessage (token amount nonce : String) : Bytes :=
  messageOf messagePrefix
    ["version: 0.2", "chain_id: fogo-mainnet", "token: " ++ token, "amount: " ++ amount,
     "recipient: QWmroo4YnnMqYW3cnxWkFdaTxGD3P7vMSzwMHGbUzwF",
     "fee_token: uSd2czE61Evaf76RNbq4KPpXnkiL3irdzgLFUMe3NoG", "fee_amount: 0.2",
     "nonce: " ++ nonce]

def bridgeMessage (nonce : String) : Bytes :=
  messageOf bridgeMessagePrefix
    ["version: 0.3", "from_chain_id: fogo-mainnet", "to_chain_id: solana",
     "token: uSd2czE61Evaf76RNbq4KPpXnkiL3irdzgLFUMe3NoG", "amount: 10.0", "min_out: 90000000000",
     "fee_token: uSd2czE61Evaf76RNbq4KPpXnkiL3irdzgLFUMe3NoG", "fee_amount: 1",
     "nonce: " ++ nonce]

def sendTokensAccounts : SendTokensAccounts where
  toFeeAccounts := feeAccounts
  chainId := fogoChainId
  sysvarInstructions := instructionsSysvar
  intentTransferSetter := intentSetter
  source := walletTokens
  destination := friendTokens
  mint := usdcMint
  metadata := none
  nonce := walletNonce
  sponsor := sponsor
  destinationOwner := friend
  systemProgram := Solana.systemProgram
  tokenProgram := Solana.tokenProgram
  associatedTokenProgram := Solana.associatedTokenProgram

def sendTokensAction (nonce : String) : Action :=
  .sendTokens
    (signedContext
      (transferMessage "uSd2czE61Evaf76RNbq4KPpXnkiL3irdzgLFUMe3NoG" "3.25" nonce))
    sendTokensAccounts

def sendNativeAction (nonce : String) : Action :=
  .sendNative (signedContext (transferMessage "FOGO" "0.5" nonce))
    { chainId := fogoChainId
      sysvarInstructions := instructionsSysvar
      intentTransferSetter := intentSetter
      source := wallet
      destination := friend
      nonce := walletNonce
      sponsor := sponsor
      feeMint := usdcMint
      feeConfig := usdcFeeConfig
      systemProgram := Solana.systemProgram
      tokenProgram := Solana.tokenProgram
      associatedTokenProgram := Solana.associatedTokenProgram }

def nttAccounts : NttAccounts where
  clock := unusedAccount 20
  rent := unusedAccount 21
  nttManager := nttUsdcManager
  nttConfig := unusedAccount 22
  nttInboxRateLimit := unusedAccount 23
  nttSessionAuthority := burnSession
  nttTokenAuthority := unusedAccount 24
  wormholeMessage := wormholeMessage
  transceiver := unusedAccount 25
  emitter := unusedAccount 26
  wormholeBridge := unusedAccount 27
  wormholeFeeCollector := unusedAccount 28
  wormholeSequence := unusedAccount 29
  wormholeProgram := unusedAccount 30
  nttWithExecutorProgram := nttWithExecutorProgramId
  executorProgram := executorProgramId
  nttPeer := unusedAccount 31
  nttOutboxItem := outboxItem
  nttOutboxRateLimit := unusedAccount 32
  nttCustody := unusedAccount 33
  payeeNttWithExecutor := quotePayee

def bridgeAccounts : BridgeNttTokensAccounts where
  toFeeAccounts := feeAccounts
  fromChainId := fogoChainId
  sysvarInstructions := instructionsSysvar
  intentTransferSetter := intentSetter
  source := walletTokens
  intermediateTokenAccount := intermediate
  mint := usdcMint
  metadata := none
  expectedNttConfig := usdcNttConfig
  nonce := walletBridgeNonce
  sponsor := sponsor
  systemProgram := Solana.systemProgram
  tokenProgram := Solana.tokenProgram
  associatedTokenProgram := Solana.associatedTokenProgram
  ntt := nttAccounts

/-- A quote at equal prices of both native tokens. -/
def signedQuote : SignedQuote where
  header := {
    pre := [69, 81, 48, 49]
    quoterAddress := List.replicate 20 1
    payeeAddress := quotePayee.bytes
    sourceChain := 51
    destinationChain := 1
    expiryTime := 1800000000 }
  baseFee := 1000000
  destinationGasPrice := 10000
  sourcePrice := 2000000000000
  destinationPrice := 2000000000000
  signature := List.replicate 65 7

def bridgeAction (nonce : String) : Action :=
  .bridgeNttTokens (signedContext (bridgeMessage nonce)) bridgeAccounts
    ⟨signedQuote.tryToVec, false⟩

/-- Both configs, a transfer of tokens, one of the native token, and a bridge. -/
def referenceActions : List Action :=
  [registerNttAction, registerFeeAction, sendTokensAction "1", sendNativeAction "2",
   bridgeAction "1"]

end FogoYield.Intent
