import FogoYield.Model.Relayer.Governance

/-! # Inbound NTT receive

`instructions/receive.rs`. -/

namespace FogoYield.Relayer

open FogoYield.Library FogoYield.Solana

structure ReceiveAccounts where
  payer : Pubkey
  pairConfig : Pubkey
  relayerAuthority : Pubkey
  recvMint : Pubkey
  recvAta : Pubkey
  userWallet : Pubkey
  userInboxAuthority : Pubkey
  userInboxAta : Pubkey
  nttInboxItem : Pubkey
  nttTransceiverMessage : Pubkey
  nttProgram : Pubkey
  flow : Pubkey
  tokenProgram : Pubkey
  systemProgram : Pubkey

structure ReceiveArgs where
  direction : Direction
  redeemAccountsLen : UInt8
  minSwapOut : UInt64

/-- The mint a `receive` takes in. -/
def PairConfig.receiveMint (c : PairConfig) : Direction → Pubkey
  | .deposit => c.baseMint
  | .withdraw => c.assetMint

/-- The address of a flow: `[Flow::seed(direction), pair_config, ntt_inbox_item]`. -/
def flowSeeds (direction : Direction) (pairConfig nttInboxItem : Pubkey) : List Bytes :=
  [Flow.seed direction, pairConfig.bytes, nttInboxItem.bytes]

/-- `[USER_INBOX_SEED, user_wallet, min_swap_out_le]`. -/
def userInboxSeeds (userWallet : Pubkey) (minSwapOut : UInt64) : List Bytes :=
  [userInboxSeed, userWallet.bytes, leBytes 8 minSwapOut.toNat]

/-- The setter PDA of an intent program. -/
def intentSetter (rt : RelayerRuntime) (intentProgram : Pubkey) : Pubkey :=
  (rt.findProgramAddress [intentTransferSeed] intentProgram).1

/-- What the `Accounts` struct leaves the handler with. The flow account exists from here on,
zeroed. -/
structure ReceiveLoaded where
  config : PairConfig
  mint : Mint
  flowBump : UInt8
  world : RelayerWorld

def ReceiveAccounts.load (rt : RelayerRuntime) (ctx : Context) (accs : ReceiveAccounts)
    (direction : Direction) (w : RelayerWorld) : RelayerResult ReceiveLoaded := do
  loadSigner ctx accs.payer
  let config ← loadAccount programId RelayerData.asPairConfig w accs.pairConfig
  let mint ← loadMint w accs.recvMint
  checkTokenInterface accs.tokenProgram
  checkProgram accs.systemProgram Solana.systemProgram
  checkSeeds rt programId [relayerSeed] config.relayerAuthorityBump accs.relayerAuthority
  let _ ← checkAssociatedToken rt w accs.recvMint accs.relayerAuthority accs.tokenProgram
    accs.recvAta
  let _ ← checkAssociatedToken rt w accs.recvMint accs.userInboxAuthority accs.tokenProgram
    accs.userInboxAta
  let flowBump ← findSeeds rt programId
    (flowSeeds direction accs.pairConfig accs.nttInboxItem) accs.flow
  let w ← createAccount rt accs.payer accs.flow programId flowSpace (.raw []) w
  return ⟨config, mint, flowBump, w⟩

/-- `validate_skip_path_inbox_item`. -/
def validateSkipPathInboxItem (rt : RelayerRuntime) (w : RelayerWorld)
    (nttProgram nttInboxItem nttTransceiverMessage : Pubkey) : RelayerResult Unit := do
  require ((w.accounts nttInboxItem).owner = nttProgram) .invalidInboxItem
  let vtmData := (w.accounts nttTransceiverMessage).bytes
  require (transceiverMessageFromChainOffset + 2 ≤ vtmData.length) .invalidTransceiverMessage
  let fromChain := ofLeBytes (slice vtmData transceiverMessageFromChainOffset 2)
  require (fromChain = fogoWormholeChainId.toNat) .wrongOriginChain
  let (expectedInboxItem, _) ← deriveInboxItemPdaFromVtm rt nttProgram vtmData
  require (nttInboxItem = expectedInboxItem) .inboxItemMismatch

/-- `matches!(pre_inbox.map(|i| &i.release_status), Some(Released))`. -/
def inboxAlreadyReleased (w : RelayerWorld) (nttInboxItem : Pubkey) : Bool :=
  match InboxItem.tryLoad (w.accounts nttInboxItem).bytes with
  | .ok item => decide (item.releaseStatus = .released)
  | .error _ => false

def redeemAccs (ctx : Context) (args : ReceiveArgs) : List AccountMeta :=
  ctx.remaining.take args.redeemAccountsLen.toNat

def releaseAccs (ctx : Context) (args : ReceiveArgs) : List AccountMeta :=
  ctx.remaining.drop args.redeemAccountsLen.toNat

/-- Everything the handler checks before it calls NTT. -/
def receiveChecks (rt : RelayerRuntime) (ctx : Context) (accs : ReceiveAccounts)
    (args : ReceiveArgs) (config : PairConfig) (w : RelayerWorld) : RelayerResult Unit := do
  require (0 < args.minSwapOut) .zeroMinSwapOut
  require (accs.pairConfig = (rt.findProgramAddress
    [pairConfigSeed, config.baseMint.bytes, config.assetMint.bytes] programId).1) .badConfig
  let nttProgram := config.receiveNttProgram args.direction
  require (accs.userInboxAuthority = (rt.findProgramAddress
    (userInboxSeeds accs.userWallet args.minSwapOut) programId).1) .userInboxAuthorityMismatch
  require (accs.nttProgram = nttProgram) .badNttProgram
  require ((w.accounts accs.nttTransceiverMessage).owner = nttProgram) .badNttProgram
  require (accs.recvMint = config.receiveMint args.direction) .badReceiveMint
  let fogoSenderRaw ← parseFogoSenderFromVtm (w.accounts accs.nttTransceiverMessage).bytes
  require ((intentSetter rt config.intentPrograms.1).bytes = fogoSenderRaw ∨
    (intentSetter rt config.intentPrograms.2).bytes = fogoSenderRaw) .unexpectedFogoSender
  if inboxAlreadyReleased w accs.nttInboxItem then
    validateSkipPathInboxItem rt w nttProgram accs.nttInboxItem accs.nttTransceiverMessage
  require (0 < args.redeemAccountsLen.toNat ∧
    args.redeemAccountsLen.toNat < ctx.remaining.length) .invalidAccountSplit
  validateNttRedeemReleaseAccounts rt (redeemAccs ctx args) (releaseAccs ctx args) nttProgram
    accs.nttTransceiverMessage accs.nttInboxItem accs.userInboxAta

/-- NTT `redeem`, then `release_inbound_unlock` with `revert_on_delay = false`; both are
skipped for an item that is already released. `NttRedeemArgs` is empty. -/
def redeemAndRelease (rt : RelayerRuntime) (ctx : Context) (accs : ReceiveAccounts)
    (args : ReceiveArgs) (config : PairConfig) (w : RelayerWorld) :
    RelayerResult RelayerWorld :=
  if inboxAlreadyReleased w accs.nttInboxItem then return w
  else do
    let nttProgram := config.receiveNttProgram args.direction
    let w ← invokeRelayerSigned rt ctx nttProgram nttRedeemIx [] (redeemAccs ctx args)
      (some accs.relayerAuthority) config.relayerAuthorityBump w
    invokeRelayerSigned rt ctx nttProgram nttReleaseInboundUnlockIx [boolByte false]
      (releaseAccs ctx args) (some accs.relayerAuthority) config.relayerAuthorityBump w

/-- Bind the inbox item's recipient and sweep exactly its amount into custody. Returns the
amount. -/
def sweepInbox (rt : RelayerRuntime) (ctx : Context) (accs : ReceiveAccounts)
    (args : ReceiveArgs) (mint : Mint) (w : RelayerWorld) :
    RelayerResult (UInt64 × RelayerWorld) := do
  let inbox ← InboxItem.tryLoad (w.accounts accs.nttInboxItem).bytes
  require (inbox.recipientAddress = accs.userInboxAuthority) .userInboxAuthorityMismatch
  require (0 < inbox.amount) .zeroAmountFlow
  let userInboxAta ← loadToken w accs.userInboxAta
  require (inbox.amount ≤ userInboxAta.amount) .insufficientInboxBalance
  let inboxBump :=
    (rt.findProgramAddress (userInboxSeeds accs.userWallet args.minSwapOut) programId).2
  let w ← invokeSigned rt programId ctx
    (userInboxSeeds accs.userWallet args.minSwapOut ++ [[inboxBump]])
    (transferCheckedIx accs.tokenProgram accs.userInboxAta accs.recvMint accs.recvAta
      accs.userInboxAuthority inbox.amount mint.decimals) w
  return (inbox.amount, w)

/-- The receipt a `receive` opens. -/
def receivedFlow (accs : ReceiveAccounts) (args : ReceiveArgs) (bump : UInt8) (amount : UInt64)
    (slot : UInt64) : Flow where
  recipient := accs.userWallet
  status := .received
  amount := amount
  payer := accs.payer
  bump := bump
  direction := args.direction
  minSwapOut := args.minSwapOut
  receivedSlot := slot

def receive (rt : RelayerRuntime) (ctx : Context) (accs : ReceiveAccounts) (args : ReceiveArgs)
    (w : RelayerWorld) : RelayerResult RelayerWorld := do
  let ⟨config, mint, flowBump, w⟩ ← accs.load rt ctx args.direction w
  receiveChecks rt ctx accs args config w
  let w ← redeemAndRelease rt ctx accs args config w
  let (amount, w) ← sweepInbox rt ctx accs args mint w
  let w := writeAccount accs.flow
    (.flow (receivedFlow accs args flowBump amount w.clock.slot)) w
  return w.emit
    (.received accs.flow accs.nttInboxItem accs.userWallet args.direction amount)

end FogoYield.Relayer
