import FogoYield.Model.Relayer.NttManager
import FogoYield.Solana.TokenProgram

/-! # A reference NTT manager

An executable manager in locking mode, with one transceiver: the four instructions the relayer
calls, reading their accounts by position. Fees, pausing and the rate limiter's own bookkeeping are
left out. -/

namespace FogoYield.Relayer

open FogoYield.Library FogoYield.Solana

/-! ## Encodings -/

def ReleaseStatus.encode : ReleaseStatus → Bytes
  | .notApproved => [0]
  | .releaseAfterDelay timestamp => 1 :: leBytes 8 timestamp.toNat
  | .released => [2]

def InboxItem.encode (i : InboxItem) : Bytes :=
  inboxItemDisc ++ boolByte i.init :: i.bump :: (leBytes 8 i.amount.toNat ++
    (i.recipientAddress.bytes ++ (leBytes 16 i.votes ++ i.releaseStatus.encode)))

def NttTransferArgs.decode (data : Bytes) : Option NttTransferArgs :=
  let args : NttTransferArgs :=
    { amount := UInt64.ofNat (ofLeBytes (data.take 8))
      recipientChain := UInt16.ofNat (ofLeBytes (slice data 8 2))
      recipientAddress := (data.drop 10).dropLast
      shouldQueue := data.getLast? = some 1 }
  if args.serialize = data then some args else none

/-! ## The inbound rate limiter -/

/-- A day, over which the capacity refills. -/
def rateLimitDuration : ℕ := 86400

/-- What can come in now: the capacity after the last transfer, refilled at `limit` a day. -/
def rateLimitCapacity (state : Bytes) (now : UInt64) : ℕ :=
  let limit := ofLeBytes (slice state 9 8)
  let capacityAtLastTx := ofLeBytes (slice state 17 8)
  let lastTxTimestamp := ofLeBytes (slice state 25 8)
  min limit (capacityAtLastTx + limit * (now.toNat - lastTxTimestamp) / rateLimitDuration)

/-- A message over the capacity is due a day later. -/
def consumeOrDelay : RateLimiter := fun state clock m =>
  if m.amount.toNat ≤ rateLimitCapacity state clock.unixTimestamp then clock.unixTimestamp
  else clock.unixTimestamp + UInt64.ofNat rateLimitDuration

/-! ## Instructions -/

instance (ix : Instruction) (k : Pubkey) : Decidable (ix.Writes k) :=
  inferInstanceAs (Decidable (∃ m ∈ ix.accounts, m.pubkey = k ∧ m.isWritable = true))

/-- The item a redeemed message becomes. -/
def redeemedItem (limiter : RateLimiter) (state : Bytes) (clock : Clock) (m : TransceiverMessage) :
    InboxItem where
  init := true
  bump := 255
  amount := m.amount
  recipientAddress := ⟨m.toAddress⟩
  votes := 1
  releaseStatus := .releaseAfterDelay (limiter state clock m)

def setRaw (a : RelayerAccounts) (k owner : Pubkey) (bytes : Bytes) : RelayerAccounts :=
  Function.update a k { a k with owner := owner, data := .raw bytes }

def nttRedeem (rt : RelayerRuntime) (limiter : RateLimiter) (p : Pubkey) (ix : Instruction)
    (clock : Clock) (a : RelayerAccounts) : Option RelayerAccounts := do
  let peer ← keyAt ix.accounts 2
  let vtm ← keyAt ix.accounts 3
  let itemKey ← keyAt ix.accounts 6
  let m ← TransceiverMessage.decode (a vtm).bytes
  guard ((a vtm).owner = p ∧ peer = (deriveNttPeer rt p m.fromChain).1 ∧
    itemKey = inboxItemAddress rt p m ∧ (a itemKey).owner = systemProgram ∧ ix.Writes itemKey)
  some (setRaw a itemKey p
    (redeemedItem limiter (rateLimitState rt p a m) clock m).encode)

/-- An item that is due is paid into the token account of its recipient for the manager's mint. -/
def nttRelease (rt : RelayerRuntime) (p mint : Pubkey) (ix : Instruction) (clock : Clock)
    (a : RelayerAccounts) : Option RelayerAccounts := do
  let itemKey ← keyAt ix.accounts 2
  let recipient ← keyAt ix.accounts 3
  let custody ← keyAt ix.accounts 7
  let item ← inboxItemAt p a itemKey
  match item.releaseStatus with
  | .notApproved => some a
  | .released => none
  | .releaseAfterDelay due =>
    if clock.unixTimestamp < due then some a
    else do
      let c ← tokenAt a custody
      guard (c.owner = tokenAuthority rt p ∧
        recipient = rt.ata item.recipientAddress mint tokenProgram ∧ ix.Writes itemKey ∧
        ix.Writes recipient ∧ ix.Writes custody)
      let a' ← moveTokens a custody recipient item.amount
      some (setRaw a' itemKey p { item with releaseStatus := .released }.encode)

/-- Locked tokens go into the manager's custody account. -/
def lockTokens (rt : RelayerRuntime) (p custody : Pubkey) (amount : UInt64)
    (a : RelayerAccounts) : RelayerAccounts :=
  match tokenAt a custody with
  | some c =>
    if c.owner = tokenAuthority rt p then
      setToken a custody { c with amount := c.amount + amount }
    else a
  | none => a

def nttTransferLock (rt : RelayerRuntime) (p : Pubkey) (ix : Instruction) (a : RelayerAccounts) :
    Option RelayerAccounts := do
  let source ← keyAt ix.accounts 3
  let custody ← keyAt ix.accounts 7
  let session ← keyAt ix.accounts 11
  let args ← NttTransferArgs.decode (ix.data.drop 8)
  let s ← tokenAt a source
  guard (session = (deriveSessionAuthority rt p s.owner args).1 ∧ s.delegate = some session ∧
    args.amount ≤ s.amount ∧ ix.Writes source ∧ ix.Writes custody)
  let s' ← s.debit session args.amount
  some (lockTokens rt p custody args.amount (setToken a source s'))

/-- The manager `p` of `mint`. -/
def nttInvoke (rt : RelayerRuntime) (limiter : RateLimiter) (p mint : Pubkey) (ix : Instruction)
    (clock : Clock) (a : RelayerAccounts) : Option RelayerAccounts :=
  if ix.data = nttRedeemIx then nttRedeem rt limiter p ix clock a
  else if ix.data = nttReleaseInboundUnlockIx ++ [boolByte false] then
    nttRelease rt p mint ix clock a
  else if ix.data.take 8 = nttTransferLockIx then nttTransferLock rt p ix a
  else if ix.data = nttReleaseWormholeOutboundIx ++ [boolByte false] then some a
  else none

end FogoYield.Relayer
